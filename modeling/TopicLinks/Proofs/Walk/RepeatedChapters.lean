import TopicLinks.Proofs.Walk.Deduplication
import TopicLinks.Proofs.Walk.Repetition

/-!
# Chapters that are curated again

After a walk a chapter holds tutorials, each of them once, and links that did not resolve. When
the chapter is curated again, a tutorial counts as a text that has resolved, namely its written
form. So a link that spells an earlier tutorial is dropped as a duplicate, although it did not
resolve. Where no link does that, the second walk drops nothing.
-/

namespace TopicLinks

open Problem

variable {σ : Type}

namespace TutorialReference

/-- No reference spells a tutorial that is resolved before it. -/
def AreApart (references : List TutorialReference) : Prop :=
  references.Pairwise fun earlier later =>
    earlier.topic.identity?.isSome = true → ¬later.topic.Agrees earlier.topic

instance (references : List TutorialReference) : Decidable (AreApart references) :=
  inferInstanceAs (Decidable (references.Pairwise fun earlier later =>
    earlier.topic.identity?.isSome = true → ¬later.topic.Agrees earlier.topic))

theorem areApart_cons {reference : TutorialReference} {rest : List TutorialReference} :
    AreApart (reference :: rest) ↔
      (∀ later ∈ rest, reference.topic.identity?.isSome = true →
        ¬later.topic.Agrees reference.topic) ∧ AreApart rest :=
  List.pairwise_cons

/-- Pruning adds no references. -/
theorem Pruned.length_le {before after missing : List TutorialReference}
    (h : Pruned before after missing) : after.length ≤ before.length := by
  induction h with
  | nil => exact le_rfl
  | kept htopic rest ih => simpa using ih
  | missing rest ih => exact Nat.le_succ_of_le ih

end TutorialReference

namespace Occurrence

/-- The tutorials of a chapter are apart. -/
def IsApart : Occurrence → Prop
  | .chapter _ references => TutorialReference.AreApart references
  | .topic _ _ _ _ => True
  | .media _ => True

instance (occurrence : Occurrence) : Decidable occurrence.IsApart :=
  match occurrence with
  | .chapter _ references => inferInstanceAs (Decidable (TutorialReference.AreApart references))
  | .topic _ _ _ _ => isTrue trivial
  | .media _ => isTrue trivial

/-- The tutorials of a chapter, resolved or not. -/
def tutorials : Occurrence → List TutorialReference
  | .chapter _ references => references
  | .topic _ _ _ _ => []
  | .media _ => []

end Occurrence

/-- No text of some references has resolved yet. -/
def Curation.Spares (seen : Curation) (references : List TutorialReference) : Prop :=
  ∀ reference ∈ references, Assoc.get? seen.byText reference.topic.effectiveTarget = none

/-- A text that has just resolved is no text of the references that follow. -/
theorem Curation.spares_add {seen : Curation} {text : String} {target : Identity}
    {references : List TutorialReference} :
    (seen.add text target).Spares references ↔
      seen.Spares references ∧ ∀ later ∈ references, later.topic.effectiveTarget ≠ text := by
  have hone : ∀ later : TutorialReference,
      Assoc.get? (seen.add text target).byText later.topic.effectiveTarget = none ↔
        Assoc.get? seen.byText later.topic.effectiveTarget = none ∧
          later.topic.effectiveTarget ≠ text := by
    intro later
    rw [add, Assoc.get?_set]
    by_cases htext : later.topic.effectiveTarget = text
    · simp [htext]
    · simp [htext]
  constructor
  · intro h
    exact ⟨fun later hlater => ((hone later).mp (h later hlater)).1,
      fun later hlater => ((hone later).mp (h later hlater)).2⟩
  · rintro ⟨hseen, htexts⟩ later hlater
    exact (hone later).mpr ⟨hseen later hlater, htexts later hlater⟩

namespace Viewpoint

open Dialogue

variable {kb : KnowledgeBase σ} {keep : String → Bool}

/-- What a chapter keeps, it keeps when it is curated again, if the kept references are apart. The
induction is on the references; the curation of the second walk may know fewer tutorials than the
first one, and no text that is still to come. -/
theorem exists_comesTo_curate_again (v : Viewpoint) (hkb : kb.HasSteadyLookups)
    (hkeep : AreOpen keep) (hduplicate : keep duplicateReferenceId = false) (state : σ)
    (chapter : String) (root : Identity) (references : List TutorialReference) (seen : Curation) :
    ∃ kept problems, (v.curate chapter root seen references).ComesTo kb kept problems ∧
      ∀ later : Curation, later.curated ⊆ seen.curated → later.Spares kept →
        TutorialReference.AreApart kept →
          (v.curate chapter root later kept).ComesTo kb kept (ofKinds keep problems) := by
  induction references generalizing seen with
  | nil => exact ⟨[], [], .done [], fun _ _ _ _ => .done []⟩
  | cons reference rest ih =>
    cases htext : Assoc.get? seen.byText reference.topic.effectiveTarget with
    | some target =>
      obtain ⟨kept, problems, hfirst, hagain⟩ := ih seen
      rw [curate_of_seen htext]
      refine ⟨kept, _, .report _ hfirst, fun later hcurated hspares hapart => ?_⟩
      rw [ofKinds_cons_of_neg hduplicate]
      exact hagain later hcurated hspares hapart
    | none =>
      obtain ⟨topic, reported, htopic⟩ :=
        v.isCertain_resolveTopic hkb state root reference.range false reference.topic
      have htopicAgain := comesTo_resolveTopic_again hkeep state htopic
      rw [curate_of_new htext]
      cases topic with
      | unresolved link =>
        obtain ⟨kept, problems, hfirst, hagain⟩ := ih seen
        refine ⟨{ reference with topic := .unresolved link } :: kept, reported ++ problems,
          htopic.bind (hfirst.map _), fun later hcurated hspares hapart => ?_⟩
        obtain ⟨hnew, hrest⟩ := List.forall_mem_cons.mp hspares
        rw [curate_of_new hnew, ofKinds_append]
        exact htopicAgain.bind
          ((hagain later hcurated hrest (TutorialReference.areApart_cons.mp hapart).2).map _)
      | resolved target =>
        obtain ⟨kept, problems, hfirst, hagain⟩ :=
          ih (seen.add reference.topic.effectiveTarget target)
        by_cases hcurated : target.address ∈ seen.curated
        · refine ⟨kept, reported ++ v.duplicateReference chapter target reference.range :: problems,
            htopic.bind ?_, fun later hlater hspares hapart => ?_⟩
          · simp only [if_pos hcurated]
            exact .report _ hfirst
          · -- Nothing was reported of a reference that is resolved by now.
            have hreported : ofKinds keep reported = [] := (htopicAgain.run state).2.symm
            rw [ofKinds_append, hreported, ofKinds_cons_of_neg hduplicate, List.nil_append]
            exact hagain later (List.Subset.trans hlater (List.subset_cons_self _ _)) hspares hapart
        · refine ⟨{ reference with topic := .resolved target } :: kept, reported ++ problems,
            htopic.bind ?_, fun later hlater hspares hapart => ?_⟩
          · simp only [if_neg hcurated]
            exact hfirst.map _
          · obtain ⟨hnew, hrest⟩ := List.forall_mem_cons.mp hspares
            obtain ⟨htexts, hapart⟩ := TutorialReference.areApart_cons.mp hapart
            have hunseen : target.address ∉ later.curated := fun h => hcurated (hlater h)
            rw [curate_of_new hnew, ofKinds_append]
            refine htopicAgain.bind ?_
            simp only [if_neg hunseen]
            refine (hagain _ (List.cons_subset_cons _ hlater) ?_ hapart).map _
            exact Curation.spares_add.mpr ⟨hrest, fun other hother => htexts other hother rfl⟩

/-- A chapter comes to the same tutorials when it is curated again, if they are apart. -/
theorem repeats_settle_chapter (v : Viewpoint) (hkb : kb.IsSteady) (hkeep : AreOpen keep)
    (hduplicate : keep duplicateReferenceId = false) (state : σ) (name : String)
    (references : List TutorialReference) :
    Repeats kb keep Occurrence.IsApart v.settle (.chapter name references) := by
  obtain ⟨kept, problems, hfirst, hagain⟩ :=
    v.exists_comesTo_curate_again hkb.toHasSteadyLookups hkeep hduplicate state name
      (kb.answer (.root .tutorials) state).1 references {}
  have hsettle : ∀ {before after : List TutorialReference} {reported : List Problem},
      (v.curate name (kb.answer (.root .tutorials) state).1 {} before).ComesTo kb after reported →
        (v.settle (.chapter name before)).ComesTo kb (.chapter name after) reported := by
    intro before after reported h
    refine .ask fun other => ?_
    rw [hkb.tutorialsRoot other state]
    exact h.map _
  refine ⟨.chapter name kept, problems, hsettle hfirst, fun hapart => hsettle ?_⟩
  exact hagain {} (List.Subset.refl _) (fun _ _ => rfl) hapart

/-- If curating leaves all references of a chapter as they are, then none of their texts had
resolved before, and they are apart. -/
theorem areApart_of_run_curate (v : Viewpoint) (kb : KnowledgeBase σ) (chapter : String)
    (root : Identity) (references : List TutorialReference) (seen : Curation) (state : σ)
    (h : ((v.curate chapter root seen references).run kb state).result = references) :
    seen.Spares references ∧ TutorialReference.AreApart references := by
  have hlength : ∀ (references : List TutorialReference) (seen : Curation) (state : σ),
      ((v.curate chapter root seen references).run kb state).result.length ≤ references.length := by
    intro references seen state
    obtain ⟨missing, hpruned⟩ := (v.refines_curate chapter root seen references).run kb state
    exact hpruned.length_le
  induction references generalizing seen state with
  | nil => exact ⟨fun _ hmem => absurd hmem List.not_mem_nil, .nil⟩
  | cons reference rest ih =>
    -- A dropped reference leaves too few of them.
    have hdropped : ∀ (seen : Curation) (state : σ),
        ((v.curate chapter root seen rest).run kb state).result ≠ reference :: rest := by
      intro seen state heq
      have hle := hlength rest seen state
      rw [heq, List.length_cons] at hle
      exact absurd hle (Nat.not_succ_le_self _)
    cases htext : Assoc.get? seen.byText reference.topic.effectiveTarget with
    | some target =>
      rw [curate_of_seen htext] at h
      exact absurd h (hdropped seen state)
    | none =>
      rw [curate_of_new htext] at h
      simp only [run_bind] at h
      generalize (v.resolveTopic root reference.range false reference.topic).run kb state = first
        at h
      obtain ⟨topic, calls, problems, next⟩ := first
      cases topic with
      | unresolved link =>
        simp only [run_map] at h
        obtain ⟨hreference, hrest⟩ := List.cons.inj h
        obtain ⟨hspares, hapart⟩ := ih seen next hrest
        refine ⟨List.forall_mem_cons.mpr ⟨htext, hspares⟩,
          TutorialReference.areApart_cons.mpr ⟨fun later _ hresolved => ?_, hapart⟩⟩
        rw [← hreference] at hresolved
        cases hresolved
      | resolved target =>
        by_cases hcurated : target.address ∈ seen.curated
        · simp only [if_pos hcurated] at h
          exact absurd h (hdropped _ next)
        · simp only [if_neg hcurated, run_map] at h
          obtain ⟨-, hrest⟩ := List.cons.inj h
          obtain ⟨hspares, hapart⟩ := ih _ next hrest
          obtain ⟨hseen, htexts⟩ := Curation.spares_add.mp hspares
          exact ⟨List.forall_mem_cons.mpr ⟨htext, hseen⟩,
            TutorialReference.areApart_cons.mpr ⟨fun later hlater _ => htexts later hlater, hapart⟩⟩

end Viewpoint

/-- If a walk leaves a page as it is, then the tutorials of its chapters are apart. -/
theorem Page.isApart_of_unchanged {settings : Settings} {kb : KnowledgeBase σ} {page : Page}
    {state : σ} (h : ((page.resolve settings).run kb state).result = ⟨page, none⟩)
    {occurrence : Occurrence} (hoccurrence : occurrence ∈ page.occurrences) :
    occurrence.IsApart := by
  have hparts := (page.viewpoint settings).map_occurrence_settlements kb page.occurrences state
  rw [← hparts] at hoccurrence
  obtain ⟨part, hpart, rfl⟩ := List.mem_map.mp hoccurrence
  have hsame := result_of_mem_settlements h hpart
  rw [(page.viewpoint settings).transcript_of_mem_settlements kb hpart] at hsame
  cases hkind : part.occurrence with
  | topic => trivial
  | media => trivial
  | chapter name references =>
    rw [hkind] at hsame
    simp only [Viewpoint.settle, Dialogue.run_bind, Dialogue.run_map] at hsame
    exact (Viewpoint.areApart_of_run_curate _ kb name _ references {} _
      (Occurrence.chapter.inj hsame).2).2

namespace Walker

open Dialogue

/-- A walk that is repeated on the table of contents that it left behind leaves it as it is exactly
if no reference of a chapter spells a tutorial that is resolved before it. Then it reports the
topics and the resources again that were not found, in order, and no duplicates. -/
theorem resolvePage_repeated_contents (settings : Settings) {kb : KnowledgeBase σ}
    (hkb : kb.IsSteady) {page : Page} {contents : TableOfContents}
    (hpage : page.content = .contents contents) (state later : σ) :
    let first := (resolvePage settings page).run kb state
    let after := first.result.value
    let second := (resolvePage settings after).run kb later
    first.result.stopped = none ∧ second.result.stopped = none ∧
      (second.result = ⟨after, none⟩ ↔
        ∀ occurrence ∈ after.occurrences, occurrence.IsApart) ∧
      (second.result = ⟨after, none⟩ →
        second.problems = first.problems.filter fun p =>
          p.diagnostic.identifier = unresolvedTopicId ∨
            p.diagnostic.identifier = unresolvedResourceId) := by
  intro first after second
  let keep : String → Bool := fun identifier =>
    identifier = unresolvedTopicId ∨ identifier = unresolvedResourceId
  have hkeep : AreOpen keep := ⟨by decide, by decide, by decide⟩
  have hdeclared : page.content.IsDeclared := by
    rw [hpage]
    trivial
  have hrepeats : ∀ occurrence ∈ page.occurrences,
      Repeats kb keep Occurrence.IsApart (page.viewpoint settings).settle occurrence := by
    intro occurrence _
    cases occurrence with
    | chapter name references =>
      exact (page.viewpoint settings).repeats_settle_chapter hkb hkeep (by decide) state name
        references
    | topic | media =>
      exact (page.viewpoint settings).repeats_settle_plain hkb.toHasSteadyLookups hkeep state _ rfl
  obtain ⟨result, problems, hfirst, hrefines, hagain⟩ :=
    Page.exists_comesTo_again settings state hdeclared hrepeats
  obtain ⟨hresult, hproblems⟩ := hfirst.run (kb.answer (.root .documentation) state).2
  obtain rfl : result = after := (congrArg Progress.value hresult).symm
  have hstopped : second.result.stopped = none :=
    (after.returns_unstopped settings (hrefines.isDeclared hdeclared)).run kb
      (kb.answer (.root .documentation) later).2
  have hapart : second.result = ⟨after, none⟩ →
      ∀ occurrence ∈ after.occurrences, occurrence.IsApart := fun hsame _ hoccurrence =>
    Page.isApart_of_unchanged hsame hoccurrence
  have hrun : (∀ occurrence ∈ after.occurrences, occurrence.IsApart) →
      second.result = ⟨after, none⟩ ∧ second.problems = ofKinds keep problems := fun hall =>
    (hagain hall).run (kb.answer (.root .documentation) later).2
  refine ⟨congrArg Progress.stopped hresult, hstopped, ⟨hapart, fun hall => (hrun hall).1⟩,
    fun hsame => ?_⟩
  rw [(hrun (hapart hsame)).2, ← hproblems]
  rfl

/-- A table of contents with one chapter, which curates the tutorials of some links. -/
def contentsOf (links : List String) : Page where
  reference := .ofText "org.example.Kit" "/tutorials/Kit" none (.single "swift")
  source := none
  content := .contents {
    intro := { title := "", content := [], image := none, video := none }
    volumes := [{
      name := "V"
      content := []
      image := none
      chapters := [Viewpoint.chapterOf links] }] }

/-- A chapter loses a tutorial that it curates twice, and keeps a link to a page that does not
exist. The repeated walk changes nothing and reports the link again. -/
theorem resolvePage_repeated_contents_of_missing :
    let catalog : Catalog := { pages := ["/tutorials/Kit/First"] }
    let links := ["doc:First", "doc:/tutorials/Kit/First", "doc:Missing"]
    let first := (resolvePage {} (contentsOf links)).run catalog.fixed []
    let second := (resolvePage {} first.result.value).run catalog.fixed first.state
    catalog.fixed.IsSteady ∧ (∃ contents, (contentsOf links).content = .contents contents) ∧
      first.problems.map (·.diagnostic.identifier) = [duplicateReferenceId, unresolvedTopicId] ∧
      second.result = ⟨first.result.value, none⟩ ∧
      second.problems.map (·.diagnostic.identifier) = [unresolvedTopicId] := by
  intro catalog links first second
  have hkb : catalog.fixed.IsSteady := catalog.isSteady_fixed
  have hpage : (contentsOf links).content = .contents _ := rfl
  obtain ⟨-, -, hsame, hproblems⟩ :=
    resolvePage_repeated_contents {} hkb hpage [] first.state
  have hfirst : first.problems.map (·.diagnostic.identifier) =
      [duplicateReferenceId, unresolvedTopicId] ∧
        ∀ occurrence ∈ first.result.value.occurrences, occurrence.IsApart := by
    decide +kernel
  have hresult : second.result = ⟨first.result.value, none⟩ := hsame.mpr hfirst.2
  refine ⟨hkb, ⟨_, hpage⟩, hfirst.1, hresult, ?_⟩
  have hkinds : second.problems.map (·.diagnostic.identifier) =
      (first.problems.map (·.diagnostic.identifier)).filter fun identifier =>
        identifier = unresolvedTopicId ∨ identifier = unresolvedResourceId := by
    rw [show second.problems = _ from hproblems hresult, List.filter_map]
    rfl
  rw [hkinds, hfirst.1]
  decide

/-- A link to a page that does not exist spells the tutorial before it in readable form. The first
walk keeps the link, since it does not resolve; the repeated walk drops it as a duplicate and does
not report that it does not resolve. -/
theorem resolvePage_repeated_drops_of_spelling :
    let catalog : Catalog := { pages := ["/tutorials/Kit/My First"] }
    let links := ["doc:My First", "doc://org.example.Kit/tutorials/Kit/My_First"]
    let first := (resolvePage {} (contentsOf links)).run catalog.fixed []
    let second := (resolvePage {} first.result.value).run catalog.fixed first.state
    catalog.fixed.IsSteady ∧ second.result.value ≠ first.result.value ∧
      (first.result.value.occurrences.flatMap Occurrence.tutorials).map (·.topic.link?.isSome) =
        [false, true] ∧
      first.problems.map (·.diagnostic.identifier) = [unresolvedTopicId] ∧
      (second.result.value.occurrences.flatMap Occurrence.tutorials).map
        (·.topic.link?.isSome) = [false] ∧
      second.problems.map (·.diagnostic.identifier) = [duplicateReferenceId] := by
  intro catalog links first second
  have hfirst : (first.result.value.occurrences.flatMap Occurrence.tutorials).map
      (·.topic.link?.isSome) = [false, true] ∧
        first.problems.map (·.diagnostic.identifier) = [unresolvedTopicId] := by
    decide +kernel
  have hsecond : (second.result.value.occurrences.flatMap Occurrence.tutorials).map
      (·.topic.link?.isSome) = [false] ∧
        second.problems.map (·.diagnostic.identifier) = [duplicateReferenceId] := by
    decide +kernel
  have hother : second.result.value ≠ first.result.value := by
    intro hsame
    have hlost := hsecond.1
    rw [hsame, hfirst.1] at hlost
    cases hlost
  exact ⟨catalog.isSteady_fixed, hother, hfirst.1, hfirst.2, hsecond.1, hsecond.2⟩

end Walker

end TopicLinks
