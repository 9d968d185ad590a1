import TopicLinks.Problem

/-!
# Settings

The settings say how serious each kind of problem is, and whether a relative link in
inherited documentation is tried a second time from the declaration it came from.
-/

namespace TopicLinks

/-- The policy of a resolution pass. -/
structure Settings where
  /-- The severity of a tutorial that a chapter curates twice. -/
  duplicateReference : Severity := .warning
  /-- Try failed relative links again from the declaration they were inherited from. -/
  inheritedLinkFallback : Bool := true
  /-- The severity of a link that only resolves from the inherited declaration. -/
  inheritedRelativeLink : Severity := .warning
  /-- The severity of a resource that does not exist. -/
  missingResource : Severity := .warning
  /-- The severity of a topic link that does not resolve. -/
  unresolvedTopic : Severity := .warning
  deriving DecidableEq

end TopicLinks
