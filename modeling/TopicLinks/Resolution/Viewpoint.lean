import TopicLinks.Dialogue
import TopicLinks.Settings

/-!
# Viewpoints and their problems

A link is resolved from a viewpoint: the settings, the file of the page, and, in
documentation that a symbol inherited, the inherited declaration. The problems that a
resolution pass can report are written here.
-/

namespace TopicLinks

/-- The declaration that documentation was inherited from. -/
structure Inheritance where
  /-- The symbol that declares the documentation. -/
  parent : Identity
  /-- The start of the inherited doc comment. -/
  origin : Option Origin
  /-- The file of the inherited doc comment. -/
  source : Option String

/-- What is known about the place of a link, apart from its parent. -/
structure Viewpoint where
  /-- The policy of the pass. -/
  settings : Settings
  /-- The file of the page. -/
  source : Option String
  /-- The declaration that the documentation was inherited from. -/
  inheritance : Option Inheritance := none

namespace Problem

/-- The identifier of problems with topic links that do not resolve. -/
def unresolvedTopicId : String := "doclink.UnresolvedTopicReference"

/-- The identifier of problems with resources that do not exist. -/
def unresolvedResourceId : String := "doclink.UnresolvedResource"

/-- The identifier of problems with tutorials that a chapter curates twice. -/
def duplicateReferenceId : String := "doclink.Chapter.DuplicateTutorialReference"

/-- The identifier of problems with links that only resolve where they were inherited. -/
def inheritedLinkId : String := "doclink.InheritedRelativeLink"

/-- A text between single quotation marks. -/
def inQuotes (text : String) : String := "'" ++ text ++ "'"

end Problem

namespace Viewpoint

open Problem

/-- The note that an article exists for a path, at the place where it was found. -/
def uncuratedNote (path : String) (location : SourceLocation) : Note where
  message := "An article matching " ++ inQuotes path ++
    " exists but isn't curated; curate it to make it linkable"
  range := location.range
  source := some location.file

/-- The problem of a topic link that did not resolve. The explanation of the failure
follows the summary unless it is empty. -/
def unresolvedTopic (v : Viewpoint) (failure : ResolutionFailure) (range : Option SourceRange)
    (uncurated : Option SourceLocation) : Problem where
  diagnostic := {
    severity := v.settings.unresolvedTopic
    identifier := unresolvedTopicId
    summary := "Topic reference " ++ inQuotes failure.link.raw ++ " couldn't be resolved." ++
      (if failure.message.isEmpty then "" else " " ++ failure.message)
    notes := (uncurated.map (uncuratedNote failure.link.path)).toList
    range
    source := v.source }

/-- The problem of a resource that does not exist. -/
def unresolvedResource (v : Viewpoint) (media : Media) : Problem where
  diagnostic := {
    severity := v.settings.missingResource
    identifier := unresolvedResourceId
    summary := "Resource " ++ inQuotes media.resource.path ++ " couldn't be found"
    range := media.range
    source := v.source }

/-- The problem of a tutorial that a chapter curates again. The solution removes the
reference, if it is known where the reference stands. -/
def duplicateReference (v : Viewpoint) (chapter : String) (target : Identity)
    (range : Option SourceRange) : Problem where
  diagnostic := {
    severity := v.settings.duplicateReference
    identifier := duplicateReferenceId
    summary := "Duplicate tutorial reference to " ++ inQuotes target.absolute ++ " in chapter " ++
      inQuotes chapter
    range
    source := v.source }
  solutions := [{
    summary := "Remove the duplicate tutorial reference"
    replacements := (range.map (fun range => ⟨range, ""⟩)).toList }]

/-- The link that means an identity from everywhere in its bundle. -/
def absoluteLink (target : Identity) : String :=
  "<doc:" ++ target.path ++ (target.fragment.elim "" ("#" ++ ·)) ++ ">"

/-- A range of a page in the file of the inherited doc comment. -/
def Inheritance.rangeInComment (inherited : Inheritance) (range : SourceRange) : SourceRange :=
  inherited.origin.elim range range.offsetBy

/-- The problem of a relative link that only resolved from the inherited declaration. It
is located in the inherited doc comment, and solved by an absolute link. -/
def inheritedLink (v : Viewpoint) (inherited : Inheritance) (link : AuthoredLink)
    (target : Identity) (range : Option SourceRange) : Problem :=
  let mapped := range.map (Inheritance.rangeInComment inherited)
  let source := inherited.source.or v.source
  { diagnostic := {
      severity := v.settings.inheritedRelativeLink
      identifier := inheritedLinkId
      summary := inQuotes link.raw ++
        " only resolves relative to the symbol this documentation was inherited from"
      explanation := some ("The documentation was inherited from " ++
        inQuotes inherited.parent.absolute ++
        ". Relative links are resolved from the symbol that shows the documentation first," ++
        " so this link only works by falling back to the original declaration.")
      notes := [{
        message := "Use " ++ absoluteLink target ++
          " so the link resolves wherever this documentation appears"
        range := mapped
        source }]
      range := mapped
      source }
    solutions := (mapped.map (fun range =>
      { summary := "Replace with " ++ absoluteLink target
        replacements := [⟨range, absoluteLink target⟩] })).toList }

end Viewpoint

end TopicLinks
