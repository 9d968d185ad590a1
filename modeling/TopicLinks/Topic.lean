import TopicLinks.Identity

/-!
# Topic references

A topic reference is an authored link until it is resolved, and an identity after
that. It stands for its effective target, whichever of the two it is.
-/

namespace TopicLinks

/-- A reference to a topic. -/
inductive Topic where
  /-- Resolved to an identity. -/
  | resolved (identity : Identity)
  /-- Not resolved, yet or at all. -/
  | unresolved (link : AuthoredLink)
  deriving DecidableEq

namespace Topic

/-- An unresolved reference to a link destination. -/
def parse (text : String) : Topic := .unresolved (.parse text)

/-- The absolute string of an identity, or the target of a link as written. -/
def effectiveTarget : Topic → String
  | .resolved identity => identity.absolute
  | .unresolved link => link.effectiveTarget

/-- The identity of a resolved reference. -/
def identity? : Topic → Option Identity
  | .resolved identity => some identity
  | .unresolved _ => none

/-- The link of an unresolved reference. -/
def link? : Topic → Option AuthoredLink
  | .resolved _ => none
  | .unresolved link => some link

/-- Two references agree when they have one effective target. A resolved reference
agrees with an unresolved one that spells its absolute string. -/
def Agrees (t u : Topic) : Prop := t.effectiveTarget = u.effectiveTarget

instance (t u : Topic) : Decidable (t.Agrees u) :=
  inferInstanceAs (Decidable (t.effectiveTarget = u.effectiveTarget))

/-- For each reference of a list the index of the first one it agrees with. -/
def classes (topics : List Topic) : List Nat :=
  topics.map (fun t => topics.findIdx (fun u => decide (u.Agrees t)))

/-- The number of references that do not agree with each other. -/
def distinct (topics : List Topic) : Nat :=
  (topics.map effectiveTarget).eraseDups.length

end Topic

end TopicLinks
