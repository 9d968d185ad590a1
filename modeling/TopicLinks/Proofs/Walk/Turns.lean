import Mathlib.Data.List.Induction
import Mathlib.Data.List.Nodup
import TopicLinks.Proofs.Walk.Deduplication

/-!
# Chapters turn by turn

A chapter deals with its references one after the other. A reference with a text that has resolved
before is skipped. Any other one is settled, and then it is kept, unless it is a tutorial that is
curated already. So what becomes of a reference depends on the turns before it and on one run of
the knowledge base, and all that a chapter keeps, asks and reports is put together from its turns.
Nothing is assumed of the knowledge base: it may answer one query differently each time.
-/

namespace TopicLinks

variable {σ : Type}

/-- The address of the tutorial that a reference is resolved to. -/
def TutorialReference.address? (reference : TutorialReference) : Option Address :=
  reference.topic.identity?.map (·.address)

/-- How a chapter deals with one of its references. -/
inductive Turn (σ : Type) where
  /-- The text has resolved to a tutorial before: the reference is dropped, and nothing is asked. -/
  | skipped (reference : TutorialReference) (target : Identity)
  /-- The reference is settled and kept. -/
  | kept (reference : TutorialReference) (settled : Transcript σ Topic)
  /-- The reference is settled, and dropped because its tutorial is curated already. -/
  | repeated (reference : TutorialReference) (settled : Transcript σ Topic) (target : Identity)

namespace Turn

/-- The reference as it was before. -/
def reference : Turn σ → TutorialReference
  | .skipped reference _ => reference
  | .kept reference _ => reference
  | .repeated reference _ _ => reference

/-- What settling the reference came to, unless it was skipped. -/
def settled? : Turn σ → Option (Transcript σ Topic)
  | .skipped _ _ => none
  | .kept _ settled => some settled
  | .repeated _ settled _ => some settled

/-- The reference as it is kept. -/
def kept? : Turn σ → Option TutorialReference
  | .skipped _ _ => none
  | .kept reference settled => some { reference with topic := settled.result }
  | .repeated _ _ _ => none

/-- The tutorial that a dropped reference repeats. -/
def dropped? : Turn σ → Option Identity
  | .skipped _ target => some target
  | .kept _ _ => none
  | .repeated _ _ target => some target

/-- The tutorial that the reference resolved to. -/
def target? (turn : Turn σ) : Option Identity := turn.settled?.bind (·.result.identity?)

/-- The address of the tutorial that is curated. -/
def curated? (turn : Turn σ) : Option Address := turn.kept?.bind TutorialReference.address?

/-- The queries that are asked. -/
def calls (turn : Turn σ) : List Query := turn.settled?.elim [] (·.calls)

/-- The state of the knowledge base afterwards. -/
def next (state : σ) (turn : Turn σ) : σ := turn.settled?.elim state (·.state)

/-- The report of a dropped reference. -/
def duplicate? (v : Viewpoint) (chapter : String) (turn : Turn σ) : Option Problem :=
  turn.dropped?.map fun target => v.duplicateReference chapter target turn.reference.range

/-- The problems that are reported: those of settling the reference, and that of dropping it. -/
def problems (v : Viewpoint) (chapter : String) (turn : Turn σ) : List Problem :=
  turn.settled?.elim [] (·.problems) ++ (turn.duplicate? v chapter).toList

/-- What a turn and the rest of a chapter come to together. -/
def followedBy (v : Viewpoint) (chapter : String) (turn : Turn σ)
    (rest : Transcript σ (List TutorialReference)) : Transcript σ (List TutorialReference) where
  result := turn.kept?.toList ++ rest.result
  calls := turn.calls ++ rest.calls
  problems := turn.problems v chapter ++ rest.problems
  state := rest.state

theorem kept_followedBy (v : Viewpoint) (chapter : String) (reference : TutorialReference)
    (settled : Transcript σ Topic) (rest : Transcript σ (List TutorialReference)) :
    (Turn.kept reference settled).followedBy v chapter rest =
      ⟨{ reference with topic := settled.result } :: rest.result, settled.calls ++ rest.calls,
        settled.problems ++ rest.problems, rest.state⟩ := by
  simp [followedBy, kept?, calls, problems, duplicate?, dropped?, settled?]

theorem repeated_followedBy (v : Viewpoint) (chapter : String) (reference : TutorialReference)
    (settled : Transcript σ Topic) (target : Identity)
    (rest : Transcript σ (List TutorialReference)) :
    (Turn.repeated reference settled target).followedBy v chapter rest =
      ⟨rest.result, settled.calls ++ rest.calls,
        settled.problems ++ v.duplicateReference chapter target reference.range :: rest.problems,
        rest.state⟩ := by
  simp [followedBy, kept?, calls, problems, duplicate?, dropped?, settled?, Turn.reference]

/-- The addresses that some turns curate. -/
def curated (turns : List (Turn σ)) : List Address := turns.filterMap curated?

@[simp] theorem curated_append (before after : List (Turn σ)) :
    curated (before ++ after) = curated before ++ curated after :=
  List.filterMap_append

theorem curated_singleton (turn : Turn σ) : curated [turn] = turn.curated?.toList := by
  rw [curated, List.filterMap_eq_flatMap_toList, List.flatMap_singleton]

/-- A turn curates nothing but the tutorial that its reference resolved to. -/
theorem curated?_eq_none {turn : Turn σ} (h : turn.target? = none) : turn.curated? = none := by
  cases turn with
  | skipped reference target => rfl
  | kept reference settled => exact congrArg (Option.map (·.address)) h
  | repeated reference settled target => rfl

section

variable (v : Viewpoint) (kb : KnowledgeBase σ) (root : Identity) (start : σ)

/-- After some turns a reference is settled in the state that they led to, if no reference with
its text has resolved in them. -/
structure IsSettled (earlier : List (Turn σ)) (reference : TutorialReference)
    (settled : Transcript σ Topic) : Prop where
  /-- The text has not resolved before. -/
  unseen : ∀ other ∈ earlier, other.reference.topic.Agrees reference.topic → other.target? = none
  /-- The reference is settled from the root. -/
  run : settled = (v.resolveTopic root reference.range false reference.topic).run kb
    (earlier.foldl next start)

/-- What becomes of a reference after some turns. -/
def IsDue (earlier : List (Turn σ)) : Turn σ → Prop
  | .skipped reference target => ∃ other ∈ earlier,
    other.reference.topic.Agrees reference.topic ∧ other.target? = some target
  | .kept reference settled => IsSettled v kb root start earlier reference settled ∧
    ∀ target, settled.result.identity? = some target → target.address ∉ curated earlier
  | .repeated reference settled target => IsSettled v kb root start earlier reference settled ∧
    settled.result.identity? = some target ∧ target.address ∈ curated earlier

/-- Turns of which each one is due after those before it. -/
inductive History : List (Turn σ) → Prop where
  /-- At the start there are no turns. -/
  | nil : History []
  /-- One more turn is taken. -/
  | snoc {earlier : List (Turn σ)} {turn : Turn σ} (h : History earlier)
    (hturn : IsDue v kb root start earlier turn) : History (earlier ++ [turn])

end

section

variable {v : Viewpoint} {kb : KnowledgeBase σ} {root : Identity} {start : σ}
  {earlier later turns : List (Turn σ)} {turn : Turn σ} {target : Identity}

/-- The last turn of a history is due after the others. -/
theorem History.of_snoc (h : History v kb root start (earlier ++ [turn])) :
    History v kb root start earlier ∧ IsDue v kb root start earlier turn := by
  generalize hall : earlier ++ [turn] = all at h
  cases h with
  | nil => exact absurd hall (List.append_ne_nil_of_right_ne_nil _ (List.cons_ne_nil _ _))
  | snoc h hturn =>
    obtain ⟨rfl, hlast⟩ := List.append_inj' hall rfl
    obtain rfl : turn = _ := List.head_eq_of_cons_eq hlast
    exact ⟨h, hturn⟩

/-- Each turn of a history is due after those before it, which are a history as well. -/
theorem History.isDue (h : History v kb root start (earlier ++ turn :: later)) :
    History v kb root start earlier ∧ IsDue v kb root start earlier turn := by
  induction later using List.reverseRecOn with
  | nil => exact h.of_snoc
  | append_singleton later last ih =>
    rw [← List.cons_append, ← List.append_assoc] at h
    exact ih h.of_snoc.1

theorem History.exists_isDue (h : History v kb root start turns) (hturn : turn ∈ turns) :
    ∃ earlier, earlier ⊆ turns ∧ IsDue v kb root start earlier turn := by
  obtain ⟨earlier, later, rfl⟩ := List.append_of_mem hturn
  exact ⟨earlier, List.subset_append_left _ _, h.isDue.2⟩

/-- What a turn curates is new. -/
theorem IsDue.not_mem_curated {address : Address} (h : IsDue v kb root start earlier turn)
    (hcurated : turn.curated? = some address) : address ∉ curated earlier := by
  cases turn with
  | skipped reference target => cases hcurated
  | kept reference settled =>
    obtain ⟨target, htarget, rfl⟩ := Option.map_eq_some_iff.mp hcurated
    exact h.2 target htarget
  | repeated reference settled target => cases hcurated

/-- No tutorial is curated twice. -/
theorem History.nodup_curated (h : History v kb root start turns) : (curated turns).Nodup := by
  induction h with
  | nil => exact List.nodup_nil
  | @snoc earlier turn h hturn ih =>
    rw [curated_append, curated_singleton]
    cases hcurated : turn.curated? with
    | none =>
      rw [Option.toList_none, List.append_nil]
      exact ih
    | some address =>
      rw [Option.toList_some, ← List.concat_eq_append]
      exact List.Nodup.concat (hturn.not_mem_curated hcurated) ih

/-- The tutorial that a reference resolved to is curated from then on. -/
theorem IsDue.mem_curated (h : IsDue v kb root start earlier turn)
    (htarget : turn.target? = some target) : target.address ∈ curated (earlier ++ [turn]) := by
  rw [curated_append]
  cases turn with
  | skipped reference known => cases htarget
  | kept reference settled =>
    have hcurated : (Turn.kept reference settled).curated? = some target.address :=
      congrArg (Option.map fun identity : Identity => identity.address) htarget
    exact List.mem_append_right _ (List.mem_filterMap.mpr ⟨_, List.mem_singleton_self _, hcurated⟩)
  | repeated reference settled known =>
    obtain rfl : known = target := Option.some.inj (h.2.1.symm.trans htarget)
    exact List.mem_append_left _ h.2.2

/-- Every tutorial that a reference of a history resolved to is curated. -/
theorem History.mem_curated (h : History v kb root start turns) (hturn : turn ∈ turns)
    (htarget : turn.target? = some target) : target.address ∈ curated turns := by
  obtain ⟨earlier, later, rfl⟩ := List.append_of_mem hturn
  have hmem := h.isDue.2.mem_curated htarget
  rw [List.append_cons, curated_append]
  exact List.mem_append_left _ hmem

/-- The tutorial of a dropped reference is curated already. -/
theorem IsDue.dropped_mem_curated (hearlier : History v kb root start earlier)
    (h : IsDue v kb root start earlier turn) (htarget : turn.dropped? = some target) :
    target.address ∈ curated earlier := by
  cases turn with
  | skipped reference known =>
    obtain ⟨other, hother, -, hknown⟩ := h
    exact hearlier.mem_curated hother (hknown.trans htarget)
  | kept reference settled => cases htarget
  | repeated reference settled known =>
    obtain rfl : known = target := Option.some.inj htarget
    exact h.2.2

/-- Nothing is asked about a reference if its text has resolved before. -/
theorem IsDue.calls_eq_nil {other : Turn σ} (h : IsDue v kb root start earlier turn)
    (hother : other ∈ earlier) (hagrees : other.reference.topic.Agrees turn.reference.topic)
    (htarget : other.target? ≠ none) : turn.calls = [] := by
  cases turn with
  | skipped reference known => rfl
  | kept reference settled => exact absurd (h.1.unseen other hother hagrees) htarget
  | repeated reference settled known => exact absurd (h.1.unseen other hother hagrees) htarget

/-- A reference that is an identity keeps this identity when it is settled. -/
theorem IsSettled.target?_eq {reference : TutorialReference} {settled : Transcript σ Topic}
    {identity : Identity} (h : IsSettled v kb root start earlier reference settled)
    (hreference : reference.topic = .resolved identity) :
    settled.result.identity? = some identity := by
  rw [h.run, hreference]
  rfl

/-- A reference is left as it is, or its link is resolved. -/
theorem IsSettled.refines {reference : TutorialReference} {settled : Transcript σ Topic}
    (h : IsSettled v kb root start earlier reference settled) :
    reference.topic.Refines settled.result := by
  rw [h.run]
  exact (v.returns_resolveTopic root reference.range false reference.topic).run kb _

/-- A reference that does not resolve is left as it is. -/
theorem IsSettled.eq_of_failed {reference : TutorialReference} {settled : Transcript σ Topic}
    (h : IsSettled v kb root start earlier reference settled)
    (hfailed : settled.result.identity? = none) : settled.result = reference.topic := by
  rcases h.refines with hsame | ⟨link, identity, -, hresolved⟩
  · exact hsame
  · rw [hresolved] at hfailed
    cases hfailed

end

/-- The turns of a chapter and what curating it came to: what is kept, asked and reported is put
together from the turns. -/
structure Recount (v : Viewpoint) (chapter : String) (references : List TutorialReference)
    (turns : List (Turn σ)) (t : Transcript σ (List TutorialReference)) : Prop where
  /-- There is one turn for each reference, in order. -/
  references : turns.map reference = references
  /-- What is kept is the result. -/
  result : t.result = turns.filterMap kept?
  /-- The queries are those of the turns. -/
  calls : t.calls = turns.flatMap calls
  /-- The problems are those of the turns. -/
  problems : t.problems = turns.flatMap (problems v chapter)

section

variable {v : Viewpoint} {chapter : String} {rest : List TutorialReference} {turns : List (Turn σ)}
  {t : Transcript σ (List TutorialReference)}

/-- One more turn comes before the others. -/
theorem Recount.cons (h : Recount v chapter rest turns t) (turn : Turn σ) :
    Recount v chapter (turn.reference :: rest) (turn :: turns) (turn.followedBy v chapter t) where
  references := congrArg (turn.reference :: ·) h.references
  result := by
    rw [followedBy, h.result, List.filterMap_eq_flatMap_toList, List.filterMap_eq_flatMap_toList,
      List.flatMap_cons]
  calls := by rw [followedBy, h.calls, List.flatMap_cons]
  problems := by rw [followedBy, h.problems, List.flatMap_cons]

end

end Turn

namespace Curation

open Turn

/-- A chapter remembers what its turns led to: the tutorials that texts resolved to, and the
addresses that are curated. -/
structure Remembers (seen : Curation) (earlier : List (Turn σ)) : Prop where
  /-- A text is known if a reference with this text has resolved. -/
  byText : ∀ text target, Assoc.get? seen.byText text = some target ↔
    ∃ other ∈ earlier, other.reference.topic.effectiveTarget = text ∧ other.target? = some target
  /-- The curated tutorials are those of the kept references. -/
  curated : ∀ address, address ∈ seen.curated ↔ address ∈ Turn.curated earlier

section

variable {seen : Curation} {earlier : List (Turn σ)} {turn : Turn σ} {target : Identity}

theorem remembers_start : Remembers {} ([] : List (Turn σ)) where
  byText text target := by simp [Assoc.get?]
  curated address := by simp [Turn.curated]

/-- A text that is not known has not resolved. -/
theorem Remembers.target?_eq_none (h : seen.Remembers earlier) {topic : Topic}
    (htext : Assoc.get? seen.byText topic.effectiveTarget = none) :
    ∀ other ∈ earlier, other.reference.topic.Agrees topic → other.target? = none := by
  intro other hother hagrees
  cases htarget : other.target? with
  | none => rfl
  | some target =>
    have hknown := (h.byText _ target).mpr ⟨other, hother, hagrees, htarget⟩
    exact absurd (htext.symm.trans hknown) (Option.some_ne_none _).symm

/-- Nothing is remembered of a turn in which no reference resolves. -/
theorem Remembers.snoc_of_none (h : seen.Remembers earlier) (hnone : turn.target? = none) :
    seen.Remembers (earlier ++ [turn]) where
  byText text target := by
    rw [h.byText]
    simp [List.mem_append, or_and_right, exists_or, hnone]
  curated address := by
    rw [h.curated, curated_append, curated_singleton, curated?_eq_none hnone, Option.toList_none,
      List.append_nil]

/-- Of a turn in which a reference resolves the text and the tutorial are remembered. -/
theorem Remembers.snoc_of_some (h : seen.Remembers earlier)
    (htext : Assoc.get? seen.byText turn.reference.topic.effectiveTarget = none)
    (htarget : turn.target? = some target)
    (hcurated : turn.curated? = some target.address ∨
      turn.curated? = none ∧ target.address ∈ Turn.curated earlier) :
    (seen.add turn.reference.topic.effectiveTarget target).Remembers (earlier ++ [turn]) where
  byText text known := by
    rw [add, Assoc.get?_set]
    by_cases hsame : text = turn.reference.topic.effectiveTarget
    · rw [if_pos hsame]
      constructor
      · rintro ⟨⟩
        exact ⟨turn, List.mem_append_right _ (List.mem_singleton_self _), hsame.symm, htarget⟩
      · rintro ⟨other, hother, hagrees, hknown⟩
        rcases List.mem_append.mp hother with hold | hlast
        · have hnone := h.target?_eq_none htext other hold (hagrees.trans hsame)
          exact absurd (hnone.symm.trans hknown) (Option.some_ne_none _).symm
        · obtain rfl := List.mem_singleton.mp hlast
          exact htarget.symm.trans hknown
    · rw [if_neg hsame, h.byText]
      constructor
      · rintro ⟨other, hother, hboth⟩
        exact ⟨other, List.mem_append_left _ hother, hboth⟩
      · rintro ⟨other, hother, hagrees, hknown⟩
        rcases List.mem_append.mp hother with hold | hlast
        · exact ⟨other, hold, hagrees, hknown⟩
        · obtain rfl := List.mem_singleton.mp hlast
          exact absurd hagrees.symm hsame
  curated address := by
    rw [add, List.mem_cons, h.curated, curated_append, curated_singleton]
    rcases hcurated with hnew | ⟨hnothing, hold⟩
    · rw [hnew, List.mem_append, Option.toList_some, List.mem_singleton, or_comm]
    · rw [hnothing, Option.toList_none, List.append_nil]
      exact or_iff_right_of_imp fun hsame => hsame ▸ hold

end

end Curation

namespace Viewpoint

open Dialogue Turn

variable (v : Viewpoint) (kb : KnowledgeBase σ) (chapter : String) (root : Identity) (start : σ)
  {earlier : List (Turn σ)} {seen : Curation}

/-- A reference takes the turn that is due, and then the rest of the chapter goes on from what is
remembered and from the state after the turn. -/
theorem exists_turn (hseen : seen.Remembers earlier) (reference : TutorialReference) :
    ∃ turn seen', turn.reference = reference ∧ IsDue v kb root start earlier turn ∧
      seen'.Remembers (earlier ++ [turn]) ∧
      ∀ rest, (v.curate chapter root seen (reference :: rest)).run kb (earlier.foldl next start) =
        turn.followedBy v chapter ((v.curate chapter root seen' rest).run kb
          (turn.next (earlier.foldl next start))) := by
  cases htext : Assoc.get? seen.byText reference.topic.effectiveTarget with
  | some target =>
    refine ⟨.skipped reference target, seen, rfl, (hseen.byText _ _).mp htext,
      hseen.snoc_of_none rfl, fun rest => ?_⟩
    rw [curate_of_seen htext]
    rfl
  | none =>
    obtain ⟨settled, hrun⟩ : ∃ settled, settled =
        (v.resolveTopic root reference.range false reference.topic).run kb
          (earlier.foldl next start) := ⟨_, rfl⟩
    have hsettled : IsSettled v kb root start earlier reference settled :=
      ⟨hseen.target?_eq_none htext, hrun⟩
    simp only [curate_of_new htext, run_bind, ← hrun]
    cases hresult : settled.result with
    | unresolved link =>
      have hnone : (Turn.kept reference settled).target? = none :=
        congrArg Topic.identity? hresult
      refine ⟨.kept reference settled, seen, rfl, ⟨hsettled, fun target htarget => ?_⟩,
        hseen.snoc_of_none hnone, fun rest => ?_⟩
      · exact absurd (hnone.symm.trans htarget) (Option.some_ne_none _).symm
      · rw [kept_followedBy, hresult, run_map]
        rfl
    | resolved target =>
      have htarget : settled.result.identity? = some target := congrArg Topic.identity? hresult
      by_cases hcurated : target.address ∈ seen.curated
      · have hmem := (hseen.curated _).mp hcurated
        refine ⟨.repeated reference settled target, _, rfl, ⟨hsettled, htarget, hmem⟩,
          hseen.snoc_of_some htext htarget (Or.inr ⟨rfl, hmem⟩), fun rest => ?_⟩
        rw [repeated_followedBy]
        simp only [if_pos hcurated]
        rfl
      · have hnew : target.address ∉ curated earlier := fun h => hcurated ((hseen.curated _).mpr h)
        refine ⟨.kept reference settled, _, rfl, ⟨hsettled, fun known hknown => ?_⟩,
          hseen.snoc_of_some htext htarget (Or.inl ?_), fun rest => ?_⟩
        · obtain rfl : target = known := Option.some.inj (htarget.symm.trans hknown)
          exact hnew
        · exact congrArg (Option.map fun identity : Identity => identity.address) htarget
        · rw [kept_followedBy, hresult]
          simp only [if_neg hcurated, run_map]
          rfl

/-- Curating references after some turns takes one turn for each of them. The induction is on the
references; the turns before are what the chapter remembers. -/
theorem exists_turns (references : List TutorialReference)
    (hearlier : History v kb root start earlier) (hseen : seen.Remembers earlier) :
    ∃ turns, History v kb root start (earlier ++ turns) ∧ Recount v chapter references turns
      ((v.curate chapter root seen references).run kb (earlier.foldl next start)) := by
  induction references generalizing earlier seen with
  | nil => exact ⟨[], by rwa [List.append_nil], rfl, rfl, rfl, rfl⟩
  | cons reference rest ih =>
    obtain ⟨turn, seen', rfl, hdue, hseen', hrun⟩ :=
      v.exists_turn kb chapter root start hseen reference
    obtain ⟨turns, hhistory, hrecount⟩ := ih (hearlier.snoc hdue) hseen'
    rw [List.append_assoc] at hhistory
    rw [List.foldl_append] at hrecount
    rw [hrun]
    exact ⟨turn :: turns, hhistory, hrecount.cons turn⟩

end Viewpoint

end TopicLinks
