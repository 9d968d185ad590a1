import TopicLinks.Proofs.Walk.Certainty
import TopicLinks.Proofs.Walk.Outcomes

/-!
# Chapters without the shortcut

A chapter drops a reference whose text has resolved before without asking what it means. Without
that shortcut it asks for every reference and compares nothing but addresses. Both ways keep the
same references and report the same problems as long as references with one text mean one
tutorial. A text leaves an empty authority out, so two links with one text may have different
paths: then the shortcut drops a tutorial that the chapter has not curated yet.
-/

namespace TopicLinks

variable {σ : Type}

/-- Two topic references are alike if they are identities of one topic, or links with the same
parts. -/
def Topic.Alike : Topic → Topic → Prop
  | .resolved i, .resolved j => i.SameTopic j
  | .unresolved a, .unresolved b => { a with raw := b.raw } = b
  | _, _ => False

instance (t u : Topic) : Decidable (t.Alike u) :=
  match t, u with
  | .resolved i, .resolved j => inferInstanceAs (Decidable (i.SameTopic j))
  | .unresolved a, .unresolved b => inferInstanceAs (Decidable ({ a with raw := b.raw } = b))
  | .resolved _, .unresolved _ | .unresolved _, .resolved _ => isFalse id

namespace KnowledgeBase

/-- What a link means depends on its parts, not on how it is written. -/
def ResolvesByParts (kb : KnowledgeBase σ) : Prop :=
  ∀ link raw parent fromSymbolLink state,
    (kb.answer (.resolve { link with raw } parent fromSymbolLink) state).1 =
      (kb.answer (.resolve link parent fromSymbolLink) state).1

/-- The address that a topic reference means, seen from a root. -/
def meaning? (kb : KnowledgeBase σ) (root : Identity) (state : σ) : Topic → Option Address
  | .resolved identity => some identity.address
  | .unresolved link => (kb.answer (.resolve link root false) state).1.toOption.map (·.address)

theorem meaning?_of_ok {kb : KnowledgeBase σ} {link : AuthoredLink} {root target : Identity}
    {state : σ} (h : (kb.answer (.resolve link root false) state).1 = .ok target) :
    kb.meaning? root state (.unresolved link) = some target.address := by
  rw [meaning?, h]
  rfl

theorem meaning?_of_error {kb : KnowledgeBase σ} {link : AuthoredLink} {root : Identity}
    {failure : ResolutionFailure} {state : σ}
    (h : (kb.answer (.resolve link root false) state).1 = .error failure) :
    kb.meaning? root state (.unresolved link) = none := by
  rw [meaning?, h]
  rfl

/-- References that are alike mean the same. -/
theorem ResolvesByParts.meaning?_eq {kb : KnowledgeBase σ} (h : kb.ResolvesByParts)
    (root : Identity) (state : σ) {t u : Topic} (halike : t.Alike u) :
    kb.meaning? root state t = kb.meaning? root state u := by
  cases t with
  | resolved i =>
    cases u with
    | resolved j => exact congrArg some halike
    | unresolved b => exact absurd halike id
  | unresolved a =>
    cases u with
    | resolved j => exact absurd halike id
    | unresolved b =>
      have hparts : { a with raw := b.raw } = b := halike
      have hanswer := h a b.raw root false state
      rw [hparts] at hanswer
      simp only [meaning?, hanswer]

end KnowledgeBase

namespace Curation

/-- The curation with the shortcut has curated the same tutorials as the one without it. What it
remembers of a text is curated, and is what any later reference with this text means. -/
structure Mirrors (kb : KnowledgeBase σ) (root : Identity) (state : σ) (seen : Curation)
    (curated : List Address) (references : List TutorialReference) : Prop where
  /-- The same tutorials are curated. -/
  mem_iff : ∀ address, address ∈ seen.curated ↔ address ∈ curated
  /-- Tutorials that were resolved from a text are curated. -/
  remembered : ∀ text target, Assoc.get? seen.byText text = some target → target.address ∈ curated
  /-- A reference with a remembered text means what is remembered. -/
  meaning : ∀ reference ∈ references, ∀ target,
    Assoc.get? seen.byText reference.topic.effectiveTarget = some target →
      kb.meaning? root state reference.topic = some target.address

variable {kb : KnowledgeBase σ} {root : Identity} {state : σ} {seen : Curation}
  {curated : List Address} {reference : TutorialReference} {rest : List TutorialReference}

theorem Mirrors.start (references : List TutorialReference) :
    Mirrors kb root state {} [] references where
  mem_iff _ := Iff.rfl
  remembered _ _ h := nomatch h
  meaning _ _ _ h := nomatch h

theorem Mirrors.tail (h : Mirrors kb root state seen curated (reference :: rest)) :
    Mirrors kb root state seen curated rest where
  mem_iff := h.mem_iff
  remembered := h.remembered
  meaning other hother := h.meaning other (List.mem_cons_of_mem _ hother)

/-- Remembering what a reference means keeps the two curations together. -/
theorem Mirrors.add {target : Identity} (h : Mirrors kb root state seen curated (reference :: rest))
    (hsame : ∀ other ∈ rest, other.topic.Agrees reference.topic →
      kb.meaning? root state other.topic = some target.address) :
    Mirrors kb root state (seen.add reference.topic.effectiveTarget target)
      (curated.insert target.address) rest where
  mem_iff address := by
    rw [Curation.add, List.mem_cons, List.mem_insert_iff, h.mem_iff]
  remembered text known hknown := by
    rw [Curation.add, Assoc.get?_set] at hknown
    split at hknown
    · cases hknown
      exact List.mem_insert_self
    · exact List.mem_insert_of_mem (h.remembered text known hknown)
  meaning other hother known hknown := by
    rw [Curation.add, Assoc.get?_set] at hknown
    split at hknown
    · next htext =>
      cases hknown
      exact hsame other hother htext
    · exact h.meaning other (List.mem_cons_of_mem _ hother) known hknown

end Curation

namespace Viewpoint

open Dialogue

/-- Resolve all references of a chapter in order, and drop those that mean a tutorial that was
curated before. -/
def curatePlainly (v : Viewpoint) (chapter : String) (root : Identity) (curated : List Address) :
    List TutorialReference → Dialogue (List TutorialReference)
  | [] => pure []
  | reference :: rest => do
    let topic ← v.resolveTopic root reference.range false reference.topic
    match topic with
    | .unresolved _ => do
      let kept ← v.curatePlainly chapter root curated rest
      pure ({ reference with topic } :: kept)
    | .resolved target =>
      if target.address ∈ curated then do
        Dialogue.tell (v.duplicateReference chapter target reference.range)
        v.curatePlainly chapter root curated rest
      else do
        let kept ← v.curatePlainly chapter root (target.address :: curated) rest
        pure ({ reference with topic } :: kept)

/-- Resolve a chapter without the shortcut by texts. -/
def resolveChapterPlainly (v : Viewpoint) (parent : Identity) (chapter : Chapter) :
    Dialogue Chapter := do
  let content ← v.resolveMarkup parent chapter.content
  v.checkMedia? chapter.image
  let root ← Dialogue.query (.root .tutorials)
  let references ← v.curatePlainly chapter.name root [] chapter.references
  pure { chapter with content, references }

/-- What a chapter does before it curates its tutorials: it resolves its content and checks its
image. -/
def openChapter (v : Viewpoint) (parent : Identity) (chapter : Chapter) : Dialogue Markup :=
  (v.resolveMarkup parent chapter.content).bind fun content =>
    (v.checkMedia? chapter.image).map fun _ => content

/-- A chapter curates its tutorials from their root, after everything else. -/
theorem resolveChapter_eq_openChapter (v : Viewpoint) (parent : Identity) (chapter : Chapter) :
    v.resolveChapter parent chapter =
      (v.openChapter parent chapter).bind fun content =>
        (Dialogue.query (.root .tutorials)).bind fun root =>
          (v.curate chapter.name root {} chapter.references).map fun references =>
            { chapter with content, references } := by
  rw [openChapter, bind_assoc]
  simp only [bind_map]
  rfl

theorem resolveChapterPlainly_eq_openChapter (v : Viewpoint) (parent : Identity)
    (chapter : Chapter) :
    v.resolveChapterPlainly parent chapter =
      (v.openChapter parent chapter).bind fun content =>
        (Dialogue.query (.root .tutorials)).bind fun root =>
          (v.curatePlainly chapter.name root [] chapter.references).map fun references =>
            { chapter with content, references } := by
  rw [openChapter, bind_assoc]
  simp only [bind_map]
  rfl

/-- Either way the tutorial that a reference means is curated afterwards. -/
theorem curatePlainly_cons (v : Viewpoint) (chapter : String) (root : Identity)
    (curated : List Address) (reference : TutorialReference) (rest : List TutorialReference) :
    v.curatePlainly chapter root curated (reference :: rest) =
      (v.resolveTopic root reference.range false reference.topic).bind fun
        | .unresolved link => (v.curatePlainly chapter root curated rest).map
            ({ reference with topic := .unresolved link } :: ·)
        | .resolved target =>
          let kept := v.curatePlainly chapter root (curated.insert target.address) rest
          if target.address ∈ curated then
            .report (v.duplicateReference chapter target reference.range) kept
          else kept.map ({ reference with topic := .resolved target } :: ·) := by
  simp only [curatePlainly, bind_eq]
  congr 1
  funext topic
  cases topic with
  | unresolved link => rfl
  | resolved target =>
    by_cases hcurated : target.address ∈ curated
    · simp only [if_pos hcurated, List.insert_of_mem hcurated]
      rfl
    · simp only [if_neg hcurated, List.insert_of_not_mem hcurated]
      rfl

/-- The problem of a duplicate names the tutorial by its address only. -/
theorem duplicateReference_congr (v : Viewpoint) (chapter : String) {i j : Identity}
    (range : Option SourceRange) (h : i.address = j.address) :
    v.duplicateReference chapter i range = v.duplicateReference chapter j range := by
  have habsolute : i.absolute = j.absolute := congrArg Address.absolute h
  simp only [duplicateReference, habsolute]

section

variable {kb : KnowledgeBase σ} {v : Viewpoint} {root : Identity} {state : σ}

/-- Without a second chance a reference comes to what it means, and nothing is reported if it
means something. -/
theorem exists_comesTo_resolveTopic (hkb : kb.HasSteadyLookups) (hv : v.inheritance = none)
    (root : Identity) (range : Option SourceRange) (state : σ) (topic : Topic) :
    ∃ after problems, (v.resolveTopic root range false topic).ComesTo kb after problems ∧
      kb.meaning? root state topic = after.identity?.map (·.address) ∧
      (after.identity? ≠ none → problems = []) := by
  obtain ⟨after, problems, hafter⟩ :=
    v.isCertain_resolveTopic hkb state root range false topic
  obtain ⟨hresult, hproblems⟩ := hafter.run state
  have hresolves := v.run_resolveTopic kb root range false state topic
  simp only [hresult, hproblems] at hresolves
  refine ⟨after, problems, hafter, ?_⟩
  cases hresolves with
  | kept identity => exact ⟨rfl, fun _ => rfl⟩
  | found hfound => exact ⟨KnowledgeBase.meaning?_of_ok hfound, fun _ => rfl⟩
  | rescued hfailed hinherited =>
    exact absurd (hinherited.symm.trans hv) (Option.some_ne_none _)
  | failed hfailed uncurated =>
    exact ⟨KnowledgeBase.meaning?_of_error hfailed, fun h => absurd rfl h⟩

/-- A reference that means a curated tutorial is a duplicate of it, and no other problem is
reported. -/
theorem comesTo_curatePlainly_of_curated (hkb : kb.HasSteadyLookups) (hv : v.inheritance = none)
    (chapter : String) {curated : List Address} {reference : TutorialReference}
    {rest kept : List TutorialReference} {known : Identity} {problems : List Problem}
    (hmeaning : kb.meaning? root state reference.topic = some known.address)
    (hcurated : known.address ∈ curated)
    (hrest : (v.curatePlainly chapter root curated rest).ComesTo kb kept problems) :
    (v.curatePlainly chapter root curated (reference :: rest)).ComesTo kb kept
      (v.duplicateReference chapter known reference.range :: problems) := by
  obtain ⟨topic, reported, htopic, hmeans, hsilent⟩ :=
    exists_comesTo_resolveTopic hkb hv root reference.range state reference.topic
  obtain ⟨target, htarget, haddress⟩ := Option.map_eq_some_iff.mp (hmeans.symm.trans hmeaning)
  obtain rfl : topic = .resolved target := by
    cases topic <;> cases htarget
    rfl
  obtain rfl : reported = [] := hsilent (Option.some_ne_none _)
  rw [curatePlainly_cons, ← v.duplicateReference_congr chapter reference.range haddress]
  refine htopic.bind ?_
  simp only [haddress, if_pos hcurated, List.insert_of_mem hcurated]
  exact .report _ hrest

/-- As long as a text that has resolved keeps its meaning, a chapter comes to the same with the
shortcut and without it. The induction is on the references, after any curation so far. -/
theorem exists_comesTo_curate (hkb : kb.HasSteadyLookups) (hv : v.inheritance = none)
    (chapter : String) {references : List TutorialReference}
    (hsame : references.Pairwise fun earlier later => later.topic.Agrees earlier.topic →
      ∀ address, kb.meaning? root state earlier.topic = some address →
        kb.meaning? root state later.topic = some address)
    {seen : Curation} {curated : List Address}
    (hmirrors : Curation.Mirrors kb root state seen curated references) :
    ∃ kept problems, (v.curate chapter root seen references).ComesTo kb kept problems ∧
      (v.curatePlainly chapter root curated references).ComesTo kb kept problems := by
  induction references generalizing seen curated with
  | nil => exact ⟨[], [], .done [], .done []⟩
  | cons reference rest ih =>
    obtain ⟨hhead, hrest⟩ := List.pairwise_cons.mp hsame
    cases htext : Assoc.get? seen.byText reference.topic.effectiveTarget with
    | some known =>
      obtain ⟨kept, problems, hshort, hplain⟩ := ih hrest hmirrors.tail
      have hmeaning := hmirrors.meaning reference List.mem_cons_self known htext
      have hcurated := hmirrors.remembered _ known htext
      rw [curate_of_seen htext]
      exact ⟨kept, _, .report _ hshort,
        comesTo_curatePlainly_of_curated hkb hv chapter hmeaning hcurated hplain⟩
    | none =>
      obtain ⟨topic, reported, htopic, hmeans, -⟩ :=
        exists_comesTo_resolveTopic hkb hv root reference.range state reference.topic
      rw [curate_of_new htext, curatePlainly_cons]
      cases topic with
      | unresolved link =>
        obtain ⟨kept, problems, hshort, hplain⟩ := ih hrest hmirrors.tail
        exact ⟨_, _, htopic.bind (hshort.map _), htopic.bind (hplain.map _)⟩
      | resolved target =>
        have hlater : ∀ other ∈ rest, other.topic.Agrees reference.topic →
            kb.meaning? root state other.topic = some target.address :=
          fun other hother hagrees => hhead other hother hagrees _ hmeans
        obtain ⟨kept, problems, hshort, hplain⟩ := ih hrest (hmirrors.add hlater)
        by_cases hcurated : target.address ∈ curated
        · have hseen : target.address ∈ seen.curated := (hmirrors.mem_iff _).mpr hcurated
          refine ⟨kept, reported ++ v.duplicateReference chapter target reference.range :: problems,
            htopic.bind ?_, htopic.bind ?_⟩
          · simp only [if_pos hseen]
            exact .report _ hshort
          · simp only [if_pos hcurated]
            exact .report _ hplain
        · have hseen : target.address ∉ seen.curated :=
            fun h => hcurated ((hmirrors.mem_iff _).mp h)
          refine ⟨{ reference with topic := .resolved target } :: kept, reported ++ problems,
            htopic.bind ?_, htopic.bind ?_⟩
          · simp only [if_neg hseen]
            exact hshort.map _
          · simp only [if_neg hcurated]
            exact hplain.map _

/-- The shortcut by texts changes neither the references that a chapter keeps nor its problems,
if what a link means depends on its parts, and if a text that has resolved means the same to
later references that are not like the first one. The root is the one that the chapter is told. -/
theorem resolveChapter_eq_resolveChapterPlainly (hkb : kb.HasSteadyLookups)
    (hparts : kb.ResolvesByParts) (hv : v.inheritance = none) {chapter : Chapter}
    (parent : Identity)
    (htexts : chapter.references.Pairwise fun earlier later =>
      later.topic.Agrees earlier.topic → ¬later.topic.Alike earlier.topic →
        let before := (v.openChapter parent chapter).run kb state
        let root := (kb.answer (.root .tutorials) before.state).1
        kb.meaning? root state earlier.topic = none ∨
          kb.meaning? root state later.topic = kb.meaning? root state earlier.topic) :
    let short := (v.resolveChapter parent chapter).run kb state
    let plain := (v.resolveChapterPlainly parent chapter).run kb state
    short.result = plain.result ∧ short.problems = plain.problems := by
  intro short plain
  let before := (v.openChapter parent chapter).run kb state
  let root := (kb.answer (.root .tutorials) before.state).1
  have hsame : chapter.references.Pairwise fun earlier later =>
      later.topic.Agrees earlier.topic →
        ∀ address, kb.meaning? root state earlier.topic = some address →
          kb.meaning? root state later.topic = some address := by
    refine htexts.imp fun {earlier later} hmeans hagrees address haddress => ?_
    by_cases halike : later.topic.Alike earlier.topic
    · exact (hparts.meaning?_eq _ state halike).trans haddress
    · rcases hmeans hagrees halike with hnone | heq
      · exact absurd (hnone.symm.trans haddress) (Option.some_ne_none _).symm
      · exact heq.trans haddress
  obtain ⟨kept, problems, hshort, hplain⟩ :=
    exists_comesTo_curate hkb hv chapter.name hsame (.start chapter.references)
  obtain ⟨hkept, hproblems⟩ := hshort.run (kb.answer (.root .tutorials) before.state).2
  obtain ⟨hkept', hproblems'⟩ := hplain.run (kb.answer (.root .tutorials) before.state).2
  simp only [root, before] at hkept hproblems hkept' hproblems'
  simp only [short, plain, resolveChapter_eq_openChapter, resolveChapterPlainly_eq_openChapter,
    run_bind, run_map, Dialogue.query, run, hkept, hproblems, hkept', hproblems', and_self]

end

end Viewpoint

namespace KnowledgeBase

/-- A knowledge base that takes each absolute path for a page, and knows nothing else. -/
def pathwise : KnowledgeBase Unit where
  answer q _ :=
    match q with
    | .resolve link parent _ =>
      (if link.isRelative then .error ⟨"", { link with raw := link.effectiveTarget }⟩
        else .ok (.ofText parent.bundle link.path link.fragment parent.languages), ())
    | .resourceExists _ => (false, ())
    | .uncuratedMatch _ => (none, ())
    | .root _ => (.ofText "org.example.Kit" "/tutorials/Kit" none (.single "swift"), ())
    | .findAsset _ _ => (none, ())
    | .updateAsset _ _ _ => ((), ())

theorem isSteady_pathwise : pathwise.IsSteady where
  resolve _ _ _ _ _ := rfl
  resourceExists _ _ _ := rfl
  uncuratedMatch _ _ _ := rfl
  tutorialsRoot _ _ := rfl

theorem resolvesByParts_pathwise : pathwise.ResolvesByParts := fun _ _ _ _ _ => rfl

end KnowledgeBase

namespace Viewpoint

/-- A chapter that curates the tutorials of some links. -/
def chapterOf (links : List String) : Chapter where
  name := "Basics"
  content := []
  image := none
  references := links.map fun link => ⟨.parse link, none⟩

/-- A chapter that curates one tutorial under three texts, one of them twice, and also holds a link
without a meaning twice: two references are dropped, and two do not resolve. -/
theorem resolveChapter_eq_resolveChapterPlainly_of_spellings :
    let v : Viewpoint := { settings := {}, source := none }
    let chapter := chapterOf ["doc:/tutorials/Kit/First?step=1", "doc:/tutorials/Kit/First",
      "doc:First", "doc://Kit/tutorials/Kit/First", "doc:First"]
    let parent := .ofText "org.example.Kit" "/tutorials/Kit" none (.single "swift")
    let short := (v.resolveChapter parent chapter).run .pathwise ()
    let plain := (v.resolveChapterPlainly parent chapter).run .pathwise ()
    v.inheritance = none ∧ short.result = plain.result ∧ short.problems = plain.problems ∧
      short.result.references.length = 3 ∧
      short.problems.map (·.diagnostic.identifier) =
        [Problem.duplicateReferenceId, Problem.unresolvedTopicId, Problem.duplicateReferenceId,
          Problem.unresolvedTopicId] := by
  intro v chapter parent short plain
  have htexts : chapter.references.Pairwise fun earlier later =>
      later.topic.Agrees earlier.topic → ¬later.topic.Alike earlier.topic →
        let before := (v.openChapter parent chapter).run KnowledgeBase.pathwise ()
        let root := (KnowledgeBase.pathwise.answer (.root .tutorials) before.state).1
        KnowledgeBase.pathwise.meaning? root () earlier.topic = none ∨
          KnowledgeBase.pathwise.meaning? root () later.topic =
            KnowledgeBase.pathwise.meaning? root () earlier.topic := by
    decide +kernel
  have hv : v.inheritance = none := rfl
  obtain ⟨hresult, hproblems⟩ := resolveChapter_eq_resolveChapterPlainly
    KnowledgeBase.isSteady_pathwise.toHasSteadyLookups KnowledgeBase.resolvesByParts_pathwise hv
    parent htexts
  exact ⟨hv, hresult, hproblems, by decide +kernel⟩

/-- Two links with one text and different paths: the authority of the first one is empty. The
shortcut takes the second tutorial for a duplicate of the first one. -/
theorem resolveChapter_drops_of_empty_authority :
    let kb := KnowledgeBase.pathwise
    let v : Viewpoint := { settings := {}, source := none }
    let chapter := chapterOf ["doc:////tutorials/Kit/First", "doc://tutorials/Kit/First"]
    let parent := .ofText "org.example.Kit" "/tutorials/Kit" none (.single "swift")
    let short := (v.resolveChapter parent chapter).run kb ()
    let plain := (v.resolveChapterPlainly parent chapter).run kb ()
    kb.IsSteady ∧ kb.ResolvesByParts ∧ v.inheritance = none ∧
      short.result.references.length = 1 ∧
      short.problems.map (·.diagnostic.identifier) = [Problem.duplicateReferenceId] ∧
      plain.result.references.filterMap (·.topic.identity?.map (·.path)) =
        ["/tutorials/Kit/First", "/Kit/First"] ∧
      plain.problems = [] := by
  intro kb v chapter parent short plain
  refine ⟨KnowledgeBase.isSteady_pathwise, KnowledgeBase.resolvesByParts_pathwise, rfl, ?_⟩
  decide +kernel

end Viewpoint

end TopicLinks
