import TopicLinks.Resolution.Viewpoint

/-!
# Resolving single references

A topic reference that is resolved already is left alone. One that does not resolve is
kept as written, and exactly one problem says so. A resource is only checked.
-/

namespace TopicLinks.Viewpoint

/-- The declaration from which a failed link is tried again: only for relative links,
only in inherited documentation, and only if the settings allow it. -/
def secondChance? (v : Viewpoint) (link : AuthoredLink) : Option Inheritance :=
  if v.settings.inheritedLinkFallback && link.isRelative then v.inheritance else none

/-- Try a failed link again from the declaration its documentation was inherited from. -/
def retry (v : Viewpoint) (link : AuthoredLink) (range : Option SourceRange)
    (fromSymbolLink : Bool) : Dialogue (Option Identity) :=
  match v.secondChance? link with
  | none => pure none
  | some inherited => do
    match ← Dialogue.query (.resolve link inherited.parent fromSymbolLink) with
    | .error _ => pure none
    | .ok target => do
      Dialogue.tell (v.inheritedLink inherited link target range)
      pure (some target)

/-- Report a topic link that did not resolve, with a note if it matches an article that
is not curated. -/
def reportUnresolved (v : Viewpoint) (failure : ResolutionFailure) (range : Option SourceRange) :
    Dialogue Unit := do
  let uncurated ← Dialogue.query (.uncuratedMatch failure.link.path)
  Dialogue.tell (v.unresolvedTopic failure range uncurated)

/-- Resolve a topic reference as seen from a parent. -/
def resolveTopic (v : Viewpoint) (parent : Identity) (range : Option SourceRange)
    (fromSymbolLink : Bool) : Topic → Dialogue Topic
  | .resolved identity => pure (.resolved identity)
  | .unresolved link => do
    match ← Dialogue.query (.resolve link parent fromSymbolLink) with
    | .ok identity => pure (.resolved identity)
    | .error failure => do
      match ← v.retry link range fromSymbolLink with
      | some identity => pure (.resolved identity)
      | none => do
        v.reportUnresolved failure range
        pure (.unresolved link)

/-- Check that the resource of a media reference exists. Resources on the web are not
looked up. -/
def checkMedia (v : Viewpoint) (media : Media) : Dialogue Unit := do
  if media.resource.isWeb then pure ()
  else if ← Dialogue.query (.resourceExists media.resource) then pure ()
  else Dialogue.tell (v.unresolvedResource media)

/-- Check a media reference that may be missing. -/
def checkMedia? (v : Viewpoint) : Option Media → Dialogue Unit
  | none => pure ()
  | some media => v.checkMedia media

end TopicLinks.Viewpoint
