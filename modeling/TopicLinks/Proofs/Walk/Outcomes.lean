import TopicLinks.Resolution.Chapter
import TopicLinks.Proofs.Walk.Settling

/-!
# What settling a reference can come to

Resolving a topic reference has four outcomes, and checking a medium has two. Each of them says
what becomes of the reference and which problems are reported. The tutorials of a chapter are
kept or dropped one by one; without a second chance exactly the dropped ones and those that do
not resolve are reported.
-/

namespace TopicLinks

open Problem

namespace Problem

/-- The problems of one kind, in order. -/
def ofKind (identifier : String) (problems : List Problem) : List Problem :=
  problems.filter (·.diagnostic.identifier = identifier)

/-- Where a problem is located. -/
def place (p : Problem) : Option SourceRange × Option String :=
  (p.diagnostic.range, p.diagnostic.source)

@[simp] theorem ofKind_nil (identifier : String) : ofKind identifier [] = [] := rfl

@[simp] theorem ofKind_append (identifier : String) (before after : List Problem) :
    ofKind identifier (before ++ after) = ofKind identifier before ++ ofKind identifier after :=
  List.filter_append before after

theorem ofKind_cons (identifier : String) (p : Problem) (rest : List Problem) :
    ofKind identifier (p :: rest) =
      if p.diagnostic.identifier = identifier then p :: ofKind identifier rest
      else ofKind identifier rest := by
  simp only [ofKind, List.filter_cons, decide_eq_true_eq]

end Problem

namespace Viewpoint

variable (v : Viewpoint)

@[simp] theorem unresolvedTopic_identifier (failure : ResolutionFailure)
    (range : Option SourceRange) (uncurated : Option SourceLocation) :
    (v.unresolvedTopic failure range uncurated).diagnostic.identifier = unresolvedTopicId := rfl

@[simp] theorem unresolvedResource_identifier (file : Media) :
    (v.unresolvedResource file).diagnostic.identifier = unresolvedResourceId := rfl

@[simp] theorem inheritedLink_identifier (inherited : Inheritance) (link : AuthoredLink)
    (target : Identity) (range : Option SourceRange) :
    (v.inheritedLink inherited link target range).diagnostic.identifier = inheritedLinkId := rfl

@[simp] theorem duplicateReference_identifier (chapter : String) (target : Identity)
    (range : Option SourceRange) :
    (v.duplicateReference chapter target range).diagnostic.identifier = duplicateReferenceId := rfl

@[simp] theorem unresolvedTopic_place (failure : ResolutionFailure) (range : Option SourceRange)
    (uncurated : Option SourceLocation) :
    (v.unresolvedTopic failure range uncurated).place = (range, v.source) := rfl

@[simp] theorem duplicateReference_place (chapter : String) (target : Identity)
    (range : Option SourceRange) :
    (v.duplicateReference chapter target range).place = (range, v.source) := rfl

end Viewpoint

variable {σ : Type}

namespace Viewpoint

open Dialogue

/-- The outcomes of resolving a topic reference in a state of the knowledge base: what becomes
of the reference, and the problems. -/
inductive Resolves (v : Viewpoint) (kb : KnowledgeBase σ) (parent : Identity)
    (range : Option SourceRange) (fromSymbolLink : Bool) (state : σ) :
    Topic → Topic → List Problem → Prop where
  /-- A resolved reference is left alone. -/
  | kept (identity : Identity) :
    Resolves v kb parent range fromSymbolLink state (.resolved identity) (.resolved identity) []
  /-- A link resolves from its own parent. -/
  | found {link : AuthoredLink} {identity : Identity}
    (hfound : (kb.answer (.resolve link parent fromSymbolLink) state).1 = .ok identity) :
    Resolves v kb parent range fromSymbolLink state (.unresolved link) (.resolved identity) []
  /-- A link resolves only from the declaration that its documentation was inherited from. -/
  | rescued {link : AuthoredLink} {failure : ResolutionFailure} {inherited : Inheritance}
    {target : Identity}
    (hfailed : (kb.answer (.resolve link parent fromSymbolLink) state).1 = .error failure)
    (hinherited : v.inheritance = some inherited) :
    Resolves v kb parent range fromSymbolLink state (.unresolved link) (.resolved target)
      [v.inheritedLink inherited link target range]
  /-- A link does not resolve. -/
  | failed {link : AuthoredLink} {failure : ResolutionFailure}
    (hfailed : (kb.answer (.resolve link parent fromSymbolLink) state).1 = .error failure)
    (uncurated : Option SourceLocation) :
    Resolves v kb parent range fromSymbolLink state (.unresolved link) (.unresolved link)
      [v.unresolvedTopic failure range uncurated]

section

variable {v : Viewpoint} {kb : KnowledgeBase σ} {parent : Identity} {range : Option SourceRange}
  {fromSymbolLink : Bool} {state : σ} {before after : Topic} {problems : List Problem}

theorem Resolves.refines
    (h : v.Resolves kb parent range fromSymbolLink state before after problems) :
    before.Refines after := by
  cases h with
  | kept identity => exact Or.inl rfl
  | found hfound => exact Or.inr ⟨_, _, rfl, rfl⟩
  | rescued hfailed hinherited => exact Or.inr ⟨_, _, rfl, rfl⟩
  | failed hfailed uncurated => exact Or.inl rfl

/-- Without a second chance nothing is reported of a reference that resolves. -/
theorem Resolves.eq_nil {target : Identity} (hv : v.inheritance = none)
    (h : v.Resolves kb parent range fromSymbolLink state before (.resolved target) problems) :
    problems = [] := by
  cases h with
  | kept identity => rfl
  | found hfound => rfl
  | rescued hfailed hinherited =>
    exact absurd (hinherited.symm.trans hv) (Option.some_ne_none _)

/-- A reference that does not resolve is a link, and reported. -/
theorem Resolves.eq_unresolvedTopic {link : AuthoredLink}
    (h : v.Resolves kb parent range fromSymbolLink state before (.unresolved link) problems) :
    before = .unresolved link ∧
      ∃ failure uncurated, problems = [v.unresolvedTopic failure range uncurated] := by
  cases h with
  | failed hfailed uncurated => exact ⟨rfl, _, uncurated, rfl⟩

end

variable (v : Viewpoint) (kb : KnowledgeBase σ) (parent : Identity) (range : Option SourceRange)
  (fromSymbolLink : Bool) (state : σ)

/-- A retry reports a problem if it finds a topic, and none otherwise. -/
theorem run_retry_cases (link : AuthoredLink) :
    let t := (v.retry link range fromSymbolLink).run kb state
    (t.result = none ∧ t.problems = []) ∨
      ∃ inherited target, v.inheritance = some inherited ∧ t.result = some target ∧
        t.problems = [v.inheritedLink inherited link target range] := by
  intro t
  cases hchance : v.secondChance? link with
  | none =>
    left
    simp [t, retry, hchance, run]
  | some inherited =>
    have hinherited : v.inheritance = some inherited := v.inheritance_of_secondChance? hchance
    simp only [t, retry, hchance, bind_eq, run_bind, Dialogue.query, run]
    cases (kb.answer (.resolve link inherited.parent fromSymbolLink) state).1 with
    | error failure => exact Or.inl ⟨rfl, rfl⟩
    | ok target => exact Or.inr ⟨inherited, target, hinherited, rfl, rfl⟩

/-- Resolving a topic reference has one of its four outcomes. -/
theorem run_resolveTopic (topic : Topic) :
    let t := (v.resolveTopic parent range fromSymbolLink topic).run kb state
    v.Resolves kb parent range fromSymbolLink state topic t.result t.problems := by
  cases topic with
  | resolved identity => exact .kept identity
  | unresolved link =>
    simp only [resolveTopic, bind_eq, run_bind, Dialogue.query, run]
    cases hanswer : (kb.answer (.resolve link parent fromSymbolLink) state).1 with
    | ok identity => exact .found hanswer
    | error failure =>
      simp only [run_bind, List.nil_append]
      rcases v.run_retry_cases kb range fromSymbolLink
        (kb.answer (.resolve link parent fromSymbolLink) state).2 link with
        ⟨hnone, hnothing⟩ | ⟨inherited, target, hinherited, htarget, hproblem⟩
      · rw [hnone, hnothing]
        exact .failed hanswer _
      · rw [htarget, hproblem]
        exact .rescued hanswer hinherited

/-- A medium is reported unless it is on the web or exists. -/
theorem run_checkMedia (file : Media) :
    ((v.checkMedia file).run kb state).problems =
      if file.resource.isWeb || (kb.answer (.resourceExists file.resource) state).1 then []
      else [v.unresolvedResource file] := by
  unfold checkMedia
  cases hweb : file.resource.isWeb with
  | true => rfl
  | false =>
    change (run kb (if (kb.answer (.resourceExists file.resource) state).1 = true then .done ()
        else tell (v.unresolvedResource file)) _).problems =
      if (kb.answer (.resourceExists file.resource) state).1 = true then []
      else [v.unresolvedResource file]
    by_cases hexists : (kb.answer (.resourceExists file.resource) state).1 = true
    · rw [if_pos hexists, if_pos hexists]
      rfl
    · rw [if_neg hexists, if_neg hexists]
      rfl

end Viewpoint

namespace TutorialReference

/-- The ranges of the references that are not resolved. -/
def unresolvedRanges (references : List TutorialReference) : List (Option SourceRange) :=
  (references.filter (·.topic.link?.isSome)).map (·.range)

/-- What became of some references, and which of them are missing: each one is in its place, as
it was or resolved, or it is missing. -/
inductive Pruned :
    List TutorialReference → List TutorialReference → List TutorialReference → Prop where
  /-- Nothing is missing from nothing. -/
  | nil : Pruned [] [] []
  /-- The first reference is kept. -/
  | kept {reference : TutorialReference} {topic : Topic}
    {before after missing : List TutorialReference} (htopic : reference.topic.Refines topic)
    (rest : Pruned before after missing) :
    Pruned (reference :: before) ({ reference with topic } :: after) missing
  /-- The first reference is missing. -/
  | missing {reference : TutorialReference} {before after missing : List TutorialReference}
    (rest : Pruned before after missing) : Pruned (reference :: before) after (reference :: missing)

end TutorialReference

namespace Viewpoint

open Dialogue

/-- The tutorials of a chapter before and after it was curated, and the problems: duplicates are
the missing references, and unresolved are those that are kept without a topic. -/
structure Curates (v : Viewpoint) (before after : List TutorialReference)
    (problems : List Problem) : Prop where
  /-- Each missing reference is reported at its range, and nothing else as a duplicate. -/
  duplicates : ∃ missing, TutorialReference.Pruned before after missing ∧
    (ofKind duplicateReferenceId problems).map place =
      missing.map fun reference => (reference.range, v.source)
  /-- Each kept reference that is not resolved is reported at its range, and no other one. -/
  unresolved : (ofKind unresolvedTopicId problems).map place =
    (TutorialReference.unresolvedRanges after).map (·, v.source)
  /-- There are no problems of other kinds. -/
  nothingElse : ∀ p ∈ problems, p.diagnostic.identifier = unresolvedTopicId ∨
    p.diagnostic.identifier = duplicateReferenceId

section

variable {v : Viewpoint} {before after : List TutorialReference} {problems : List Problem}

theorem Curates.nil : v.Curates [] [] [] :=
  ⟨⟨[], .nil, rfl⟩, rfl, fun _ hp => absurd hp List.not_mem_nil⟩

/-- Problems of another kind do not come from curating. -/
theorem Curates.ofKind_eq_nil (h : v.Curates before after problems) {identifier : String}
    (htopic : unresolvedTopicId ≠ identifier) (hduplicate : duplicateReferenceId ≠ identifier) :
    ofKind identifier problems = [] := by
  refine List.filter_eq_nil_iff.mpr fun p hp => ?_
  rw [decide_eq_true_eq]
  rcases h.nothingElse p hp with hkind | hkind
  · rwa [hkind]
  · rwa [hkind]

/-- A reference that is reported as a duplicate is dropped. -/
theorem Curates.duplicate (h : v.Curates before after problems) (reference : TutorialReference)
    (chapter : String) (target : Identity) :
    v.Curates (reference :: before) after
      (v.duplicateReference chapter target reference.range :: problems) := by
  have hother : duplicateReferenceId ≠ unresolvedTopicId := by decide
  obtain ⟨missing, hpruned, hplaces⟩ := h.duplicates
  refine ⟨⟨reference :: missing, .missing hpruned, ?_⟩, ?_, ?_⟩
  · rw [ofKind_cons, duplicateReference_identifier, if_pos rfl, List.map_cons, hplaces]
    rfl
  · rw [ofKind_cons, duplicateReference_identifier, if_neg hother, h.unresolved]
  · intro p hp
    rcases List.mem_cons.mp hp with rfl | hp
    · exact Or.inr rfl
    · exact h.nothingElse p hp

/-- A reference that does not resolve is kept and reported. -/
theorem Curates.failed (h : v.Curates before after problems) {reference : TutorialReference}
    {link : AuthoredLink} (htopic : reference.topic = .unresolved link)
    (failure : ResolutionFailure) (uncurated : Option SourceLocation) :
    v.Curates (reference :: before) ({ reference with topic := .unresolved link } :: after)
      (v.unresolvedTopic failure reference.range uncurated :: problems) := by
  have hother : unresolvedTopicId ≠ duplicateReferenceId := by decide
  obtain ⟨missing, hpruned, hplaces⟩ := h.duplicates
  refine ⟨⟨missing, .kept (Or.inl htopic.symm) hpruned, ?_⟩, ?_, ?_⟩
  · rw [ofKind_cons, unresolvedTopic_identifier, if_neg hother, hplaces]
  · rw [ofKind_cons, unresolvedTopic_identifier, if_pos rfl, List.map_cons, h.unresolved]
    rfl
  · intro p hp
    rcases List.mem_cons.mp hp with rfl | hp
    · exact Or.inl rfl
    · exact h.nothingElse p hp

/-- A reference that resolves to a new tutorial is kept and not reported. -/
theorem Curates.resolved (h : v.Curates before after problems) {reference : TutorialReference}
    {target : Identity} (htopic : reference.topic.Refines (.resolved target)) :
    v.Curates (reference :: before) ({ reference with topic := .resolved target } :: after)
      problems := by
  obtain ⟨missing, hpruned, hplaces⟩ := h.duplicates
  exact ⟨⟨missing, .kept htopic hpruned, hplaces⟩, h.unresolved, h.nothingElse⟩

end

variable {v : Viewpoint} (kb : KnowledgeBase σ) {chapter : String} {root : Identity}
  {seen : Curation} {reference : TutorialReference} {rest : List TutorialReference}

/-- A reference whose text has resolved before is dropped without a query. -/
theorem curate_of_seen {target : Identity}
    (h : Assoc.get? seen.byText reference.topic.effectiveTarget = some target) :
    v.curate chapter root seen (reference :: rest) =
      .report (v.duplicateReference chapter target reference.range)
        (v.curate chapter root seen rest) := by
  simp only [curate, h]
  rfl

/-- A reference whose text has not resolved before is resolved first. -/
theorem curate_of_new
    (h : Assoc.get? seen.byText reference.topic.effectiveTarget = none) :
    v.curate chapter root seen (reference :: rest) =
      (v.resolveTopic root reference.range false reference.topic).bind fun
        | .unresolved link => (v.curate chapter root seen rest).map
            ({ reference with topic := .unresolved link } :: ·)
        | .resolved target =>
          let seen' := seen.add reference.topic.effectiveTarget target
          if target.address ∈ seen.curated then
            .report (v.duplicateReference chapter target reference.range)
              (v.curate chapter root seen' rest)
          else (v.curate chapter root seen' rest).map
            ({ reference with topic := .resolved target } :: ·) := by
  simp only [curate, h, bind_eq]
  congr 1
  funext topic
  cases topic with
  | unresolved link => rfl
  | resolved target => rfl

/-- Without a second chance, curating a chapter reports the references that it drops and those
that do not resolve. The induction is on the references, after any curation so far. -/
theorem curates_run_curate (hv : v.inheritance = none) (chapter : String) (root : Identity)
    (references : List TutorialReference) (seen : Curation) (state : σ) :
    let t := (v.curate chapter root seen references).run kb state
    v.Curates references t.result t.problems := by
  induction references generalizing seen state with
  | nil => exact .nil
  | cons reference rest ih =>
    cases htext : Assoc.get? seen.byText reference.topic.effectiveTarget with
    | some target =>
      rw [curate_of_seen htext]
      exact (ih seen state).duplicate reference chapter target
    | none =>
      rw [curate_of_new htext]
      simp only [run_bind]
      have hresolves := v.run_resolveTopic kb root reference.range false state reference.topic
      generalize (v.resolveTopic root reference.range false reference.topic).run kb state = first
        at hresolves ⊢
      obtain ⟨topic, calls, problems, next⟩ := first
      cases topic with
      | unresolved link =>
        obtain ⟨htopic, failure, uncurated, rfl⟩ := hresolves.eq_unresolvedTopic
        simp only [run_map]
        exact (ih seen next).failed htopic failure uncurated
      | resolved target =>
        have hrest := ih (seen.add reference.topic.effectiveTarget target) next
        obtain rfl : problems = [] := hresolves.eq_nil hv
        by_cases hcurated : target.address ∈ seen.curated
        · simp only [if_pos hcurated]
          exact hrest.duplicate reference chapter target
        · simp only [if_neg hcurated, run_map]
          exact hrest.resolved hresolves.refines

end Viewpoint

end TopicLinks
