import Mathlib.Data.List.SplitBy
import TopicLinks.Proofs.Identity.Canonical

/-!
# Runs and gaps of a segment

A text falls into maximal runs of path characters and of other characters, the gaps. Its readable
form can be written run by run: a run of path characters as it stands, and a gap as one underscore.
An underscore is a path character itself, so the form does not tell gaps from underscores; but it
depends on nothing in a gap.
-/

namespace TopicLinks.Readable

variable {text run rest : List Char} {parts : List (List Char)} {inGap : Bool}

/-- The maximal runs of a text: it is cut wherever a path character and another one meet. -/
def runs (text : List Char) : List (List Char) :=
  text.splitBy fun c d => isPathChar c == isPathChar d

/-- What is written for a run: a run of path characters stays, a gap becomes one underscore. -/
def writtenRun (run : List Char) : List Char := if run.all isPathChar then run else ['_']

/-- The parts of a text are its maximal runs. -/
structure AreRunsOf (parts : List (List Char)) (text : List Char) : Prop where
  /-- Together they are the text. -/
  flatten_eq : parts.flatten = text
  /-- None of them is empty, -/
  ne_nil : ∀ run ∈ parts, run ≠ []
  /-- and each has path characters only, or none. -/
  uniform : ∀ run ∈ parts, ∃ kind, ∀ c ∈ run, isPathChar c = kind
  /-- Where two of them meet, the kind of character changes. -/
  alternate : parts.IsChain fun run next =>
    ∀ c ∈ run.getLast?, ∀ d ∈ next.head?, isPathChar c ≠ isPathChar d

/-! ### The runs of a text -/

/-- Characters of which each is of the kind of the next one are all of one kind. -/
theorem uniform_of_isChain (h : run.IsChain fun c d => (isPathChar c == isPathChar d) = true) :
    ∃ kind, ∀ c ∈ run, isPathChar c = kind := by
  induction run with
  | nil => exact ⟨true, by simp⟩
  | cons c rest ih =>
    obtain ⟨hhead, hrest⟩ := List.isChain_cons.mp h
    obtain ⟨kind, hkind⟩ := ih hrest
    refine ⟨isPathChar c, fun d hd => ?_⟩
    rcases List.mem_cons.mp hd with rfl | hd
    · rfl
    · cases rest with
      | nil => cases hd
      | cons e rest =>
        rw [hkind d hd, ← hkind e List.mem_cons_self]
        exact (beq_iff_eq.mp (hhead e rfl)).symm

/-- Every text falls into its runs. -/
theorem areRunsOf_runs (text : List Char) : AreRunsOf (runs text) text where
  flatten_eq := List.flatten_splitBy _ text
  ne_nil _ hrun := List.ne_nil_of_mem_splitBy hrun
  uniform _ hrun := uniform_of_isChain (List.isChain_of_mem_splitBy hrun)
  alternate := by
    refine (List.isChain_getLast_head_splitBy _ text).imp fun run next hmeet c hc d hd => ?_
    obtain ⟨hrun, hnext, hne⟩ := hmeet
    rw [List.getLast?_eq_some_getLast hrun] at hc
    rw [List.head?_eq_some_head hnext] at hd
    cases hc
    cases hd
    simpa using hne

namespace AreRunsOf

/-- The runs behind the first one are those of the rest. -/
theorem tail (h : AreRunsOf (run :: parts) text) : AreRunsOf parts parts.flatten where
  flatten_eq := rfl
  ne_nil _ hmem := h.ne_nil _ (List.mem_cons_of_mem _ hmem)
  uniform _ hmem := h.uniform _ (List.mem_cons_of_mem _ hmem)
  alternate := h.alternate.tail

/-- A run has path characters only, or it is a gap. -/
theorem kept_or_gap (h : AreRunsOf parts text) (hrun : run ∈ parts) :
    (∀ c ∈ run, isPathChar c = true) ∨ ∀ c ∈ run, isPathChar c = false := by
  obtain ⟨kind, hkind⟩ := h.uniform run hrun
  cases kind with
  | true => exact Or.inl hkind
  | false => exact Or.inr hkind

/-- The text behind a gap begins with a path character, if it does not end there. -/
theorem isPathChar_of_head (h : AreRunsOf (run :: parts) text)
    (hgap : ∀ c ∈ run, isPathChar c = false) :
    ∀ d ∈ parts.flatten.head?, isPathChar d = true := by
  intro d hd
  cases parts with
  | nil => cases hd
  | cons next parts =>
    have hne : next ≠ [] := h.ne_nil next (by simp)
    rw [List.flatten_cons, List.head?_append_of_ne_nil _ hne] at hd
    have hlast := List.getLast?_eq_some_getLast (h.ne_nil run List.mem_cons_self)
    have hmeet := (List.isChain_cons.mp h.alternate).1 next rfl _ hlast d hd
    rw [hgap _ (List.getLast_mem _)] at hmeet
    exact (Bool.not_eq_false _).mp hmeet.symm

/-- There is a path character exactly if one of the runs is no gap. -/
theorem any_isPathChar (h : AreRunsOf parts text) :
    text.any isPathChar = parts.any fun run => run.all isPathChar := by
  rw [Bool.eq_iff_iff, List.any_eq_true, List.any_eq_true]
  constructor
  · rintro ⟨c, hc, hchar⟩
    rw [← h.flatten_eq, List.mem_flatten] at hc
    obtain ⟨run, hrun, hc⟩ := hc
    refine ⟨run, hrun, List.all_eq_true.mpr ?_⟩
    rcases h.kept_or_gap hrun with hkept | hgap
    · exact hkept
    · rw [hgap c hc] at hchar
      cases hchar
  · rintro ⟨run, hrun, hkept⟩
    obtain ⟨c, hc⟩ := List.exists_mem_of_ne_nil run (h.ne_nil run hrun)
    rw [← h.flatten_eq]
    exact ⟨c, List.mem_flatten.mpr ⟨run, hrun, hc⟩, List.all_eq_true.mp hkept c hc⟩

end AreRunsOf

/-! ### Collapsing run by run -/

/-- A run of path characters stays, and ends the gap before it. -/
theorem collapse_append_of_kept (hne : run ≠ []) (h : ∀ c ∈ run, isPathChar c = true) :
    collapse inGap (run ++ rest) = run ++ collapse false rest := by
  induction run generalizing inGap with
  | nil => exact absurd rfl hne
  | cons c later ih =>
    obtain ⟨hc, hlater⟩ := List.forall_mem_cons.mp h
    rw [List.cons_append, collapse, if_pos hc, List.cons_append]
    by_cases hnil : later = []
    · rw [hnil, List.nil_append, List.nil_append]
    · rw [ih hnil hlater]

/-- A gap goes on until the next path character. -/
theorem collapse_true_append (h : ∀ c ∈ run, isPathChar c = false) :
    collapse true (run ++ rest) = collapse true rest := by
  induction run with
  | nil => rfl
  | cons c later ih =>
    obtain ⟨hc, hlater⟩ := List.forall_mem_cons.mp h
    rw [List.cons_append, collapse, if_neg (by simp [hc]), if_pos rfl, ih hlater]

/-- For a gap one underscore is written. -/
theorem collapse_append_of_gap (hne : run ≠ []) (h : ∀ c ∈ run, isPathChar c = false) :
    collapse false (run ++ rest) = '_' :: collapse true rest := by
  cases run with
  | nil => exact absurd rfl hne
  | cons c later =>
    obtain ⟨hc, hlater⟩ := List.forall_mem_cons.mp h
    rw [List.cons_append, collapse, if_neg (by simp [hc]), if_neg Bool.false_ne_true,
      collapse_true_append hlater]

/-- A gap is over where a path character follows. -/
theorem collapse_true_eq (h : ∀ c ∈ rest.head?, isPathChar c = true) :
    collapse true rest = collapse false rest := by
  cases rest with
  | nil => rfl
  | cons c later => rw [collapse, collapse, if_pos (h c rfl), if_pos (h c rfl)]

/-- Collapsing writes a text run by run. Between two runs it is in no gap: behind a gap a path
character follows. -/
theorem AreRunsOf.collapse_eq (h : AreRunsOf parts text) :
    collapse false text = parts.flatMap writtenRun := by
  induction parts generalizing text with
  | nil =>
    rw [← h.flatten_eq]
    rfl
  | cons run parts ih =>
    have hne : run ≠ [] := h.ne_nil run List.mem_cons_self
    rw [← h.flatten_eq, List.flatten_cons, List.flatMap_cons, ← ih h.tail]
    rcases h.kept_or_gap List.mem_cons_self with hkept | hgap
    · rw [collapse_append_of_kept hne hkept, writtenRun, if_pos (List.all_eq_true.mpr hkept)]
    · obtain ⟨c, hc⟩ := List.exists_mem_of_ne_nil run hne
      have hall : ¬run.all isPathChar = true := fun hall =>
        absurd (List.all_eq_true.mp hall c hc) (by simp [hgap c hc])
      rw [collapse_append_of_gap hne hgap, collapse_true_eq (h.isPathChar_of_head hgap), writtenRun,
        if_neg hall]
      rfl

/-- All path characters are written, in their order. -/
theorem filter_sublist_collapse (inGap : Bool) (text : List Char) :
    (text.filter isPathChar).Sublist (collapse inGap text) := by
  induction text generalizing inGap with
  | nil => exact .slnil
  | cons c rest ih =>
    unfold collapse
    by_cases hc : isPathChar c = true
    · rw [List.filter_cons_of_pos hc, if_pos hc]
      exact (ih false).cons_cons c
    · rw [List.filter_cons_of_neg hc, if_neg hc]
      split
      · exact ih true
      · exact (ih true).cons '_'

/-- For each character at most one is written. -/
theorem length_collapse_le (inGap : Bool) (text : List Char) :
    (collapse inGap text).length ≤ text.length := by
  induction text generalizing inGap with
  | nil => exact Nat.le_refl 0
  | cons c rest ih =>
    unfold collapse
    split
    · exact Nat.succ_le_succ (ih false)
    · split
      · exact Nat.le_succ_of_le (ih true)
      · exact Nat.succ_le_succ (ih true)

/-! ### The readable form -/

/-- Two runs are written alike: they are the same, or both are gaps. -/
def WrittenAlike (run run' : List Char) : Prop :=
  run = run' ∨ run.all isPathChar = false ∧ run'.all isPathChar = false

theorem WrittenAlike.writtenRun_eq {run' : List Char} (h : WrittenAlike run run') :
    writtenRun run = writtenRun run' := by
  rcases h with rfl | ⟨hgap, hgap'⟩
  · rfl
  · rw [writtenRun, writtenRun, hgap, hgap', if_neg Bool.false_ne_true, if_neg Bool.false_ne_true]

/-- A text with a path character is brought into readable form by collapsing. -/
theorem segment_eq_collapse (h : text.any isPathChar = true) :
    segment text = collapse false text := by
  have hne : text.isEmpty = false := by
    obtain ⟨c, hc, -⟩ := List.any_eq_true.mp h
    simpa using List.ne_nil_of_mem hc
  rw [segment, hne, if_neg Bool.false_ne_true, if_pos h]

/-- Any other text becomes the placeholder, unless it is empty. -/
theorem segment_eq_placeholder (hne : text ≠ []) (h : text.any isPathChar = false) :
    segment text = placeholder := by
  have hempty : text.isEmpty = false := by simpa using hne
  rw [segment, hempty, if_neg Bool.false_ne_true, h, if_neg Bool.false_ne_true]

/-- The readable form of a nonempty text is written run by run: a run of path characters as it
stands, and a gap as one underscore. Without a run of path characters it is the placeholder. So it
is never empty, has all path characters of the text in their order and is no longer than the text
if there is one, and it does not depend on what the gaps hold or how long they are. -/
theorem segment_by_runs {text : List Char} (h : text ≠ []) :
    AreRunsOf (runs text) text ∧
    (segment text =
      if (runs text).any (fun run => run.all isPathChar) then (runs text).flatMap writtenRun
      else "---".toList) ∧
    segment text ≠ [] ∧
    (text.filter isPathChar).Sublist (segment text) ∧
    (text.any isPathChar = true → (segment text).length ≤ text.length) ∧
    ∀ other, text.any isPathChar = true → other.any isPathChar = true →
      List.Forall₂ WrittenAlike (runs text) (runs other) → segment text = segment other := by
  have hruns := areRunsOf_runs text
  refine ⟨hruns, ?_, ?_, ?_, fun hany => ?_, fun other hany hother halike => ?_⟩
  · rw [← hruns.any_isPathChar]
    cases hany : text.any isPathChar with
    | true => rw [if_pos rfl, segment_eq_collapse hany, hruns.collapse_eq]
    | false => rw [if_neg Bool.false_ne_true, segment_eq_placeholder h hany, placeholder]
  · have hsegment := (isSegment_segment h).1
    rwa [String.toList_ofList] at hsegment
  · cases hany : text.any isPathChar with
    | true =>
      rw [segment_eq_collapse hany]
      exact filter_sublist_collapse false text
    | false =>
      have hnone : text.filter isPathChar = [] :=
        List.filter_eq_nil_iff.mpr (List.any_eq_false.mp hany)
      rw [hnone]
      exact List.nil_sublist _
  · rw [segment_eq_collapse hany]
    exact length_collapse_le false text
  · rw [segment_eq_collapse hany, segment_eq_collapse hother, hruns.collapse_eq,
      (areRunsOf_runs other).collapse_eq, List.flatMap_def, List.flatMap_def]
    have hwritten : List.Forall₂ (· = ·) ((runs text).map writtenRun)
        ((runs other).map writtenRun) := by
      rw [List.forall₂_map_left_iff, List.forall₂_map_right_iff]
      exact halike.imp fun run run' hrun => hrun.writtenRun_eq
    rw [List.forall₂_eq_eq_eq] at hwritten
    rw [hwritten]

/-- Underscores beside a gap stay, blanks and letters beyond ASCII are gaps, and another text with
other gaps has the same readable form. -/
theorem segment_by_runs_of_gaps :
    " a_ éb".toList ≠ [] ∧ runs " a_ éb".toList = [[' '], ['a', '_'], [' ', 'é'], ['b']] ∧
      segment " a_ éb".toList = "_a__b".toList ∧
      segment " a_ éb".toList = segment "<>a_#b".toList := by
  have hne : " a_ éb".toList ≠ [] := by decide
  obtain ⟨-, hwritten, -, -, -, halike⟩ := segment_by_runs hne
  refine ⟨hne, by decide, hwritten.trans (by decide), ?_⟩
  have hruns : runs "<>a_#b".toList = [['<', '>'], ['a', '_'], ['#'], ['b']] := by decide
  refine halike "<>a_#b".toList (by decide) (by decide) ?_
  rw [hruns]
  exact .cons (Or.inr (by decide)) (.cons (Or.inl rfl) (.cons (Or.inr (by decide))
    (.cons (Or.inl rfl) .nil)))

end TopicLinks.Readable
