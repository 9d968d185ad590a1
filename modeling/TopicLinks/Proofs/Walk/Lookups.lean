import TopicLinks.Proofs.Walk.Outcomes

/-!
# What a walk looks up

References are settled by look-ups. A link is asked about as seen from its own parent or, where
documentation was inherited, from the inherited declaration; besides, resources and uncurated
articles are looked up. Nothing else is asked, except that a chapter asks for the root of tutorials
first.
-/

namespace TopicLinks

/-- A look-up by which a reference is settled. A link is seen from one of some parents. -/
def Query.IsLookup (parents : Identity → Prop) : Query → Prop
  | .resolve _ parent _ => parents parent
  | .resourceExists _ => True
  | .uncuratedMatch _ => True
  | _ => False

theorem Query.IsLookup.mono {P Q : Identity → Prop} {q : Query} (hq : q.IsLookup P)
    (h : ∀ parent, P parent → Q parent) : q.IsLookup Q := by
  cases q with
  | resolve link parent fromSymbolLink => exact h parent hq
  | resourceExists resource => trivial
  | uncuratedMatch path => trivial
  | _ => exact absurd hq id

namespace Viewpoint

open Dialogue

variable (v : Viewpoint) (parent : Identity)

/-- From where a link can be seen: from its own parent, and from the inherited declaration. -/
def SeesFrom (seen : Identity) : Prop :=
  seen = parent ∨ ∃ inherited, v.inheritance = some inherited ∧ seen = inherited.parent

theorem asks_retry (link : AuthoredLink) (range : Option SourceRange) (fromSymbolLink : Bool) :
    (v.retry link range fromSymbolLink).Asks (Query.IsLookup (v.SeesFrom parent)) := by
  unfold retry
  cases hchance : v.secondChance? link with
  | none => trivial
  | some inherited =>
    have hinherited : v.inheritance = some inherited := by
      unfold secondChance? at hchance
      split at hchance
      · exact hchance
      · cases hchance
    refine ⟨Or.inr ⟨inherited, hinherited, rfl⟩, fun answer => ?_⟩
    cases answer with
    | error failure => trivial
    | ok target => trivial

/-- A topic reference is settled by look-ups from its two places. -/
theorem asks_resolveTopic (range : Option SourceRange) (fromSymbolLink : Bool) (topic : Topic) :
    (v.resolveTopic parent range fromSymbolLink topic).Asks
      (Query.IsLookup (v.SeesFrom parent)) := by
  cases topic with
  | resolved identity => trivial
  | unresolved link =>
    refine ⟨Or.inl rfl, fun answer => ?_⟩
    cases answer with
    | ok identity => trivial
    | error failure =>
      refine (v.asks_retry parent link range fromSymbolLink).bind fun target => ?_
      cases target with
      | some identity => trivial
      | none => exact ⟨trivial, fun _ => trivial⟩

theorem asks_checkMedia (P : Identity → Prop) (file : Media) :
    (v.checkMedia file).Asks (Query.IsLookup P) := by
  unfold checkMedia
  split
  · trivial
  · refine ⟨trivial, fun answer => ?_⟩
    cases answer with
    | true => trivial
    | false => trivial

/-- The tutorials of a chapter are looked up from the root. -/
theorem asks_curate (chapter : String) (root : Identity) (seen : Curation)
    (references : List TutorialReference) :
    (v.curate chapter root seen references).Asks (Query.IsLookup (v.SeesFrom root)) := by
  induction references generalizing seen with
  | nil => trivial
  | cons reference rest ih =>
    cases htext : Assoc.get? seen.byText reference.topic.effectiveTarget with
    | some target =>
      rw [curate_of_seen htext]
      exact ih seen
    | none =>
      rw [curate_of_new htext]
      refine (v.asks_resolveTopic root reference.range false reference.topic).bind fun topic => ?_
      cases topic with
      | unresolved link => exact (ih seen).map _
      | resolved target =>
        by_cases hcurated : target.address ∈ seen.curated
        · simp only [if_pos hcurated]
          exact ih _
        · simp only [if_neg hcurated]
          exact (ih _).map _

/-- A plain occurrence is settled by look-ups. -/
theorem asks_settle_of_isPlain {occurrence : Occurrence} (h : occurrence.isPlain = true) :
    (v.settle occurrence).Asks (Query.IsLookup fun _ => True) := by
  cases occurrence with
  | topic parent range fromSymbolLink topic =>
    exact ((v.asks_resolveTopic parent range fromSymbolLink topic).mono
      fun q hq => hq.mono fun _ _ => trivial).map _
  | media file => exact (v.asks_checkMedia _ file).map _
  | chapter name references => cases h

/-- Whatever is settled, nothing is asked but look-ups and the root of tutorials. -/
theorem asks_settle (occurrence : Occurrence) :
    (v.settle occurrence).Asks fun q => q = .root .tutorials ∨ q.IsLookup fun _ => True := by
  cases occurrence with
  | chapter name references =>
    refine ⟨Or.inl rfl, fun root => ?_⟩
    exact ((v.asks_curate name root {} references).mono
      fun q hq => Or.inr (hq.mono fun _ _ => trivial)).map _
  | topic | media => exact (v.asks_settle_of_isPlain rfl).mono fun q hq => Or.inr hq

end Viewpoint

end TopicLinks
