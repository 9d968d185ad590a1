import TopicLinks.AuthoredLink
import TopicLinks.Text.Pattern

/-!
# The pattern of links

Which parts a link has is written down as one pattern with five groups: scheme, authority, path,
query and fragment. Negated classes match line feeds, the fragment does not, so a text with a line
feed behind its first hash sign has no match. Such a text is no URL.
-/

namespace TopicLinks.AuthoredLink

open Text

/-- Letters. -/
def letters : CharClass := .within [('A', 'Z'), ('a', 'z')]

/-- The characters of a scheme behind its first letter. -/
def schemeChars : CharClass :=
  .within [('A', 'Z'), ('a', 'z'), ('0', '9'), ('+', '+'), ('.', '.'), ('-', '-')]

/-- A scheme and a colon, if they are there. -/
def schemePart : Pattern :=
  .optional (.group (.one letters ++ .many schemeChars) ++ .one (.only ':'))

/-- Two slashes and an authority, if they are there. -/
def authorityPart : Pattern :=
  .optional (.one (.only '/') ++ .one (.only '/') ++ .group (.many (.noneOf ['/', '?', '#'])))

/-- A path. -/
def pathPart : Pattern := .group (.many (.noneOf ['?', '#']))

/-- A question mark and a query, if they are there. -/
def queryPart : Pattern := .optional (.one (.only '?') ++ .group (.many (.noneOf ['#'])))

/-- A hash sign and a fragment, if they are there. -/
def fragmentPart : Pattern := .optional (.one (.only '#') ++ .group (.many .any))

/-- The pattern of a whole link. -/
def linkPattern : Pattern :=
  .start ++ schemePart ++ authorityPart ++ pathPart ++ queryPart ++ fragmentPart ++ .finish

/-- How the pattern of a link is written. -/
example : String.ofList linkPattern.written =
    "^(?:([A-Za-z][A-Za-z0-9+.\\-]*):)?(?://([^/?#]*))?([^?#]*)(?:\\?([^#]*))?(?:#(.*))?$" := by
  rfl

/-- The link with the given raw text whose parts are what the groups of the pattern captured. An
empty authority is no host. Without a match the text is cut at its first hash sign only. -/
def ofCaptures (raw : List Char) : Option (List (Option (List Char))) → AuthoredLink
  | none => ofParts raw (pathParts raw)
  | some groups => {
      raw := .ofList raw
      scheme := (capture? groups 1).map .ofList
      host := ((capture? groups 2).filter (!·.isEmpty)).map .ofList
      path := .ofList ((capture? groups 3).getD [])
      fragment := (capture? groups 5).map .ofList }

end TopicLinks.AuthoredLink
