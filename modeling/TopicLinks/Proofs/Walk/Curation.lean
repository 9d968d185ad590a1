import TopicLinks.Proofs.Walk.Turns

/-!
# Chapters that curate each tutorial once

The turns of a chapter tell what it keeps, reports and asks. The kept references are resolved to
different tutorials, and each tutorial that a reference resolved to is held by one of them. A
dropped reference is reported once, as a duplicate of a tutorial that was kept before it. An
exception is a reference that was resolved in advance: it also counts as a text, so a link that
spells its tutorial and resolves elsewhere makes the chapter drop it.
-/

namespace TopicLinks

open Problem

variable {σ : Type}

namespace Problem

/-- A problem is not about a tutorial that a chapter curates twice. -/
def IsNoDuplicate (p : Problem) : Prop := p.diagnostic.identifier ≠ duplicateReferenceId

theorem ofKind_duplicate_eq_nil {problems : List Problem} (h : ∀ p ∈ problems, p.IsNoDuplicate) :
    ofKind duplicateReferenceId problems = [] :=
  List.filter_eq_nil_iff.mpr fun p hp => by
    rw [decide_eq_true_eq]
    exact h p hp

end Problem

namespace Viewpoint

open Dialogue

variable (v : Viewpoint) (parent : Identity)

/-- No duplicate is reported when a topic reference is resolved. -/
theorem reports_resolveTopic_isNoDuplicate (range : Option SourceRange) (fromSymbolLink : Bool)
    (topic : Topic) :
    (v.resolveTopic parent range fromSymbolLink topic).Reports IsNoDuplicate := by
  have hinherited : inheritedLinkId ≠ duplicateReferenceId := by decide
  have hunresolved : unresolvedTopicId ≠ duplicateReferenceId := by decide
  have hretry : ∀ link, (v.retry link range fromSymbolLink).Reports IsNoDuplicate := by
    intro link
    unfold retry
    cases v.secondChance? link with
    | none => trivial
    | some inherited =>
      intro answer
      cases answer with
      | error failure => trivial
      | ok target => exact ⟨hinherited, trivial⟩
  cases topic with
  | resolved identity => trivial
  | unresolved link =>
    intro answer
    cases answer with
    | ok identity => trivial
    | error failure =>
      refine (hretry link).bind fun target => ?_
      cases target with
      | some identity => trivial
      | none => exact fun _ => ⟨hunresolved, trivial⟩

/-- No duplicate is reported when a medium is checked. -/
theorem reports_checkMedia_isNoDuplicate (file : Media) :
    (v.checkMedia file).Reports IsNoDuplicate := by
  have hmissing : unresolvedResourceId ≠ duplicateReferenceId := by decide
  unfold checkMedia
  split
  · trivial
  · intro answer
    cases answer with
    | true => trivial
    | false => exact ⟨hmissing, trivial⟩

/-- No duplicate is reported when a plain occurrence is settled. -/
theorem reports_settle_isNoDuplicate {occurrence : Occurrence}
    (hplain : occurrence.isPlain = true) : (v.settle occurrence).Reports IsNoDuplicate := by
  cases occurrence with
  | topic parent range fromSymbolLink topic =>
    exact (v.reports_resolveTopic_isNoDuplicate parent range fromSymbolLink topic).bind
      fun _ => trivial
  | media file => exact (v.reports_checkMedia_isNoDuplicate file).bind fun _ => trivial
  | chapter name references => cases hplain

/-- No duplicate is reported before the tutorials are curated. -/
theorem reports_openChapter_isNoDuplicate (chapter : Chapter) :
    (v.openChapter parent chapter).Reports IsNoDuplicate := by
  have hcontent : (each v.settle (Markup.occurrences parent chapter.content)).Reports
      IsNoDuplicate :=
    reports_each fun occurrence hoccurrence => v.reports_settle_isNoDuplicate
      (List.all_eq_true.mp (Block.all_isPlain_of parent chapter.content) occurrence hoccurrence)
  rw [← (v.settles_markup parent chapter.content).map_eq] at hcontent
  refine (reports_of_map hcontent).bind fun content => Reports.bind ?_ fun _ => trivial
  cases chapter.image with
  | none => trivial
  | some file => exact v.reports_checkMedia_isNoDuplicate file

end Viewpoint

namespace Turn

variable {v : Viewpoint} {kb : KnowledgeBase σ} {root : Identity} {start : σ}
  {earlier turns : List (Turn σ)} {turn : Turn σ}

/-- The one duplicate that a turn reports is that of a dropped reference. -/
theorem IsDue.ofKind_problems (h : IsDue v kb root start earlier turn) (chapter : String) :
    ofKind duplicateReferenceId (turn.problems v chapter) = (turn.duplicate? v chapter).toList := by
  have hown : ofKind duplicateReferenceId (turn.duplicate? v chapter).toList =
      (turn.duplicate? v chapter).toList := by
    refine List.filter_eq_self.mpr fun p hp => ?_
    obtain ⟨target, -, rfl⟩ := Option.map_eq_some_iff.mp (Option.mem_toList.mp hp)
    exact decide_eq_true rfl
  have hsilent : ∀ reference settled, IsSettled v kb root start earlier reference settled →
      ofKind duplicateReferenceId settled.problems = [] := by
    intro reference settled hsettled
    rw [hsettled.run]
    exact ofKind_duplicate_eq_nil
      ((v.reports_resolveTopic_isNoDuplicate root reference.range false reference.topic).run kb _)
  rw [problems, ofKind_append, hown]
  cases turn with
  | skipped reference target => rfl
  | kept reference settled => exact congrArg (· ++ _) (hsilent reference settled h.1)
  | repeated reference settled target => exact congrArg (· ++ _) (hsilent reference settled h.1)

/-- The duplicates of a history are those of its dropped references, in order. -/
theorem History.ofKind_problems (h : History v kb root start turns) (chapter : String) :
    ofKind duplicateReferenceId (turns.flatMap (problems v chapter)) =
      turns.filterMap (duplicate? v chapter) := by
  have hone : ∀ turn ∈ turns, ofKind duplicateReferenceId (turn.problems v chapter) =
      (turn.duplicate? v chapter).toList := by
    intro turn hturn
    obtain ⟨earlier, -, hdue⟩ := h.exists_isDue hturn
    exact hdue.ofKind_problems chapter
  calc ofKind duplicateReferenceId (turns.flatMap (problems v chapter))
      = turns.flatMap fun turn => ofKind duplicateReferenceId (turn.problems v chapter) :=
        List.filter_flatMap
    _ = turns.flatMap fun turn => (turn.duplicate? v chapter).toList := List.flatMap_congr hone
    _ = turns.filterMap (duplicate? v chapter) := (List.filterMap_eq_flatMap_toList _ _).symm

/-- Each reference is kept in its place, as it was or resolved, or it is dropped. -/
theorem pruned_of_isDue (h : ∀ turn ∈ turns, ∃ earlier, IsDue v kb root start earlier turn) :
    TutorialReference.Pruned (turns.map reference) (turns.filterMap kept?)
      ((turns.filter (·.dropped?.isSome)).map reference) := by
  induction turns with
  | nil => exact .nil
  | cons turn rest ih =>
    obtain ⟨⟨earlier, hturn⟩, hrest⟩ := List.forall_mem_cons.mp h
    cases turn with
    | skipped reference target => exact .missing (ih hrest)
    | kept reference settled => exact .kept hturn.1.refines (ih hrest)
    | repeated reference settled target => exact .missing (ih hrest)

end Turn

/-- The addresses of the tutorials that a chapter holds. -/
def Chapter.addresses (chapter : Chapter) : List Address :=
  chapter.references.filterMap TutorialReference.address?

/-- What a chapter comes to when it curates each tutorial once. Its turns tell what becomes of each
reference; `before` is what the chapter came to before it curated anything. -/
structure Chapter.CuratesOnce (v : Viewpoint) (chapter : Chapter) (before : Transcript σ Markup)
    (turns : List (Turn σ)) (t : Transcript σ Chapter) : Prop where
  /-- There is one turn for each reference, in order. -/
  references : turns.map (·.reference) = chapter.references
  /-- The chapter is left with the kept references. -/
  result : t.result =
    { chapter with content := before.result, references := turns.filterMap (·.kept?) }
  /-- They are in their order, as they were or resolved, and only the dropped ones are missing. -/
  pruned : TutorialReference.Pruned chapter.references t.result.references
    ((turns.filter (·.dropped?.isSome)).map (·.reference))
  /-- No tutorial is held twice. -/
  distinct : t.result.addresses.Nodup
  /-- Each tutorial that a reference resolved to is held exactly once. -/
  held : ∀ turn ∈ turns, ∀ target, turn.target? = some target →
    t.result.addresses.count target.address = 1
  /-- So is each tutorial that was resolved before, unless its written form was the text of a link
  that resolved to another tutorial: then it is dropped in favour of that one. -/
  heldBefore : ∀ turn ∈ turns, ∀ identity, turn.reference.topic = .resolved identity →
    t.result.addresses.count identity.address = 1 ∨
      ∃ target, turn = .skipped turn.reference target ∧ target.address ≠ identity.address
  /-- A reference that did not resolve is kept as it was. -/
  failed : ∀ turn ∈ turns, ∀ settled, turn.settled? = some settled →
    settled.result.identity? = none → turn.kept? = some turn.reference
  /-- Each dropped reference is reported once at its range, and nothing else is as a duplicate. -/
  duplicates : ofKind duplicateReferenceId t.problems =
    turns.filterMap (·.duplicate? v chapter.name)
  /-- The report of a dropped reference names a tutorial that was kept before. -/
  named : ∀ earlier turn later, turns = earlier ++ turn :: later → turn.kept? = none →
    ∃ other ∈ earlier, ∃ kept identity, other.kept? = some kept ∧ kept.topic = .resolved identity ∧
      turn.duplicate? v chapter.name =
        some (v.duplicateReference chapter.name identity turn.reference.range)
  /-- It has one solution, which removes what is at its range. -/
  removal : ∀ p ∈ ofKind duplicateReferenceId t.problems, ∃ summary,
    p.solutions = [⟨summary, (p.diagnostic.range.map (⟨·, ""⟩)).toList⟩]
  /-- The queries are those before, the one for the root, and those of the turns. -/
  calls : t.calls = before.calls ++ .root .tutorials :: turns.flatMap (·.calls)
  /-- Nothing is asked about a reference whose text has resolved before. -/
  unasked : ∀ earlier turn later, turns = earlier ++ turn :: later → ∀ other ∈ earlier,
    other.reference.topic.Agrees turn.reference.topic → other.target? ≠ none → turn.calls = []

namespace Turn

variable {v : Viewpoint} {kb : KnowledgeBase σ} {root : Identity} {start : σ}
  {earlier turns : List (Turn σ)} {turn : Turn σ} {target : Identity}

/-- What is curated is what the kept references are resolved to. -/
theorem curated_eq (turns : List (Turn σ)) :
    curated turns = (turns.filterMap kept?).filterMap TutorialReference.address? :=
  (List.filterMap_filterMap ..).symm

/-- Each tutorial that a reference of a history resolved to is curated exactly once. -/
theorem History.count_curated (h : History v kb root start turns) (hturn : turn ∈ turns)
    (htarget : turn.target? = some target) : (curated turns).count target.address = 1 :=
  List.count_eq_one_of_mem h.nodup_curated (h.mem_curated hturn htarget)

/-- A tutorial that was resolved before is curated exactly once, unless it is skipped for another
one. -/
theorem History.count_curated_of_resolved (h : History v kb root start turns) (hturn : turn ∈ turns)
    {identity : Identity} (hreference : turn.reference.topic = .resolved identity) :
    (curated turns).count identity.address = 1 ∨
      ∃ target, turn = .skipped turn.reference target ∧ target.address ≠ identity.address := by
  obtain ⟨earlier, hearlier, hdue⟩ := h.exists_isDue hturn
  cases turn with
  | skipped reference target =>
    by_cases hsame : target.address = identity.address
    · obtain ⟨other, hother, -, htarget⟩ := hdue
      rw [← hsame]
      exact Or.inl (h.count_curated (hearlier hother) htarget)
    · exact Or.inr ⟨target, rfl, hsame⟩
  | kept reference settled =>
    exact Or.inl (h.count_curated hturn (hdue.1.target?_eq hreference))
  | repeated reference settled known =>
    exact Or.inl (h.count_curated hturn (hdue.1.target?_eq hreference))

/-- A reference that did not resolve is kept as it was. -/
theorem IsDue.kept?_of_failed (h : IsDue v kb root start earlier turn)
    {settled : Transcript σ Topic} (hsettled : turn.settled? = some settled)
    (hfailed : settled.result.identity? = none) : turn.kept? = some turn.reference := by
  cases turn with
  | skipped reference target => cases hsettled
  | kept reference known =>
    obtain rfl : known = settled := Option.some.inj hsettled
    rw [kept?, h.1.eq_of_failed hfailed]
    rfl
  | repeated reference known target =>
    obtain rfl : known = settled := Option.some.inj hsettled
    exact absurd (hfailed.symm.trans h.2.1) (Option.some_ne_none _).symm

/-- What is curated is held by a kept reference. -/
theorem exists_kept_of_mem_curated {address : Address} (h : address ∈ curated turns) :
    ∃ other ∈ turns, ∃ kept identity, other.kept? = some kept ∧ kept.topic = .resolved identity ∧
      identity.address = address := by
  obtain ⟨other, hother, hcurated⟩ := List.mem_filterMap.mp h
  obtain ⟨kept, hkept, haddress⟩ := Option.bind_eq_some_iff.mp hcurated
  obtain ⟨identity, hidentity, rfl⟩ := Option.map_eq_some_iff.mp haddress
  refine ⟨other, hother, kept, identity, hkept, ?_, rfl⟩
  cases htopic : kept.topic with
  | resolved known =>
    rw [htopic] at hidentity
    exact congrArg Topic.resolved (Option.some.inj hidentity)
  | unresolved link =>
    rw [htopic] at hidentity
    cases hidentity

/-- A dropped reference is reported as a duplicate of one that was kept before. -/
theorem IsDue.exists_kept (hearlier : History v kb root start earlier)
    (h : IsDue v kb root start earlier turn) (hkept : turn.kept? = none) (chapter : String) :
    ∃ other ∈ earlier, ∃ kept identity, other.kept? = some kept ∧ kept.topic = .resolved identity ∧
      turn.duplicate? v chapter =
        some (v.duplicateReference chapter identity turn.reference.range) := by
  obtain ⟨target, htarget⟩ : ∃ target, turn.dropped? = some target := by
    cases turn with
    | skipped reference target => exact ⟨target, rfl⟩
    | kept reference settled => cases hkept
    | repeated reference settled target => exact ⟨target, rfl⟩
  obtain ⟨other, hother, kept, identity, hheld, htopic, haddress⟩ :=
    exists_kept_of_mem_curated (h.dropped_mem_curated hearlier htarget)
  refine ⟨other, hother, kept, identity, hheld, htopic, ?_⟩
  rw [duplicate?, htarget, v.duplicateReference_congr chapter _ haddress]
  rfl

/-- The turns of a chapter tell how it curates each tutorial once, if no duplicates are reported
before. -/
theorem History.curatesOnce {chapter : Chapter} {before : Transcript σ Markup}
    {t : Transcript σ (List TutorialReference)} (h : History v kb root start turns)
    (hrecount : Recount v chapter.name chapter.references turns t)
    (hbefore : ∀ p ∈ before.problems, p.IsNoDuplicate) :
    chapter.CuratesOnce v before turns
      ⟨{ chapter with content := before.result, references := t.result },
        before.calls ++ .root .tutorials :: t.calls, before.problems ++ t.problems, t.state⟩ := by
  have hdue : ∀ turn ∈ turns, ∃ earlier, IsDue v kb root start earlier turn := by
    intro turn hturn
    obtain ⟨earlier, -, hdue⟩ := h.exists_isDue hturn
    exact ⟨earlier, hdue⟩
  have haddresses : t.result.filterMap TutorialReference.address? = curated turns := by
    rw [hrecount.result, curated_eq]
  have hduplicates : ofKind duplicateReferenceId (before.problems ++ t.problems) =
      turns.filterMap (duplicate? v chapter.name) := by
    rw [ofKind_append, ofKind_duplicate_eq_nil hbefore, hrecount.problems,
      h.ofKind_problems, List.nil_append]
  constructor
  case references => exact hrecount.references
  case result => rw [hrecount.result]
  case pruned =>
    rw [hrecount.result, ← hrecount.references]
    exact pruned_of_isDue hdue
  case distinct =>
    rw [Chapter.addresses, haddresses]
    exact h.nodup_curated
  case held =>
    rw [Chapter.addresses, haddresses]
    exact fun turn hturn target => h.count_curated hturn
  case heldBefore =>
    rw [Chapter.addresses, haddresses]
    exact fun turn hturn identity => h.count_curated_of_resolved hturn
  case failed =>
    intro turn hturn settled
    obtain ⟨earlier, hturn⟩ := hdue turn hturn
    exact hturn.kept?_of_failed
  case duplicates => exact hduplicates
  case named =>
    rintro earlier turn later rfl hkept
    obtain ⟨hearlier, hdue⟩ := h.isDue
    exact hdue.exists_kept hearlier hkept chapter.name
  case removal =>
    intro p hp
    rw [hduplicates] at hp
    obtain ⟨turn, -, hduplicate⟩ := List.mem_filterMap.mp hp
    obtain ⟨target, -, rfl⟩ := Option.map_eq_some_iff.mp hduplicate
    exact ⟨_, rfl⟩
  case calls => rw [hrecount.calls]
  case unasked =>
    rintro earlier turn later rfl other hother
    exact h.isDue.2.calls_eq_nil hother

end Turn

namespace Viewpoint

open Dialogue

variable (v : Viewpoint)

/-- Whatever the answers are, and even if one query is answered differently each time, the turns of
a chapter follow from those before them, and the chapter curates each tutorial once: the kept
references are in order and resolved to different tutorials, all that resolved is held exactly once,
what did not resolve is kept, and each dropped reference is reported as a duplicate of a kept one.
Only a tutorial that was resolved in advance can be lost to another one. -/
theorem resolveChapter_curatesOnce (kb : KnowledgeBase σ) (parent : Identity) (chapter : Chapter)
    (state : σ) :
    let before := (v.openChapter parent chapter).run kb state
    let root := kb.answer (.root .tutorials) before.state
    ∃ turns, Turn.History v kb root.1 root.2 turns ∧
      chapter.CuratesOnce v before turns ((v.resolveChapter parent chapter).run kb state) := by
  intro before root
  obtain ⟨turns, hturns, hrecount⟩ := v.exists_turns kb chapter.name root.1 root.2
    chapter.references .nil Curation.remembers_start
  rw [List.nil_append] at hturns
  rw [List.foldl_nil] at hrecount
  have hquiet : ∀ p ∈ before.problems, p.IsNoDuplicate :=
    (v.reports_openChapter_isNoDuplicate parent chapter).run kb state
  refine ⟨turns, hturns, ?_⟩
  have hrun : (v.resolveChapter parent chapter).run kb state =
      let t := (v.curate chapter.name root.1 {} chapter.references).run kb root.2
      ⟨{ chapter with content := before.result, references := t.result },
        before.calls ++ .root .tutorials :: t.calls, before.problems ++ t.problems, t.state⟩ := by
    simp only [resolveChapter_eq_openChapter, run_bind, run_map, Dialogue.query, run, before, root,
      List.nil_append, List.cons_append]
  rw [hrun]
  exact hturns.curatesOnce hrecount hquiet

/-- A tutorial that was resolved before is dropped, although no reference of the chapter holds it
afterwards: a link with its written form as a text resolved to the same path in another bundle. -/
theorem resolveChapter_drops_resolved :
    let v : Viewpoint := { settings := {}, source := none }
    let parent := .ofText "org.example.Kit" "/tutorials/Kit" none (.single "swift")
    let identity := .ofText "other.bundle" "/tutorials/Kit/First" none (.single "swift")
    let chapter : Chapter := {
      name := "Basics"
      content := []
      image := none
      references := [⟨.parse "doc://other.bundle/tutorials/Kit/First", none⟩,
        ⟨.resolved identity, none⟩] }
    let t := (v.resolveChapter parent chapter).run .pathwise ()
    t.result.addresses.count identity.address = 0 ∧
      t.result.references.length = 1 ∧
      t.problems.map (·.diagnostic.identifier) = [duplicateReferenceId] := by
  decide +kernel

end Viewpoint

end TopicLinks
