import TopicLinks.Text.Pattern

/-!
# Outcomes of patterns

What a pattern takes it takes from the front of a text, in characters that it admits. Which outcome
is preferred can be followed from the left: a sequence prefers what its first part prefers, as long
as the second part succeeds behind it. An anchored pattern has one place to be tried at.
-/

namespace TopicLinks.Text

namespace CharClass

variable (range : Char × Char) (ranges : List (Char × Char)) (c : Char)

theorem inRanges_nil : inRanges [] c = false := rfl

theorem inRanges_cons : inRanges (range :: ranges) c =
    ((decide (range.1 ≤ c) && decide (c ≤ range.2)) || inRanges ranges c) := rfl

/-- A range of one character holds this character. -/
theorem inRanges_cons_self (mark : Char) :
    inRanges ((mark, mark) :: ranges) c = (c == mark || inRanges ranges c) := by
  have hmark : (decide (mark ≤ c) && decide (c ≤ mark)) = (c == mark) := by
    rw [Bool.eq_iff_iff, Bool.and_eq_true, decide_eq_true_iff, decide_eq_true_iff, beq_iff_eq]
    exact ⟨fun h => Char.le_antisymm h.2 h.1, fun h => h ▸ ⟨Char.le_refl _, Char.le_refl _⟩⟩
  rw [inRanges_cons, hmark]

theorem inRanges_map_self (marks : List Char) :
    inRanges (marks.map fun mark => (mark, mark)) c = marks.contains c := by
  induction marks with
  | nil => rfl
  | cons mark marks ih => rw [List.map_cons, inRanges_cons_self, ih, List.contains_cons]

/-- The characters that are not singled out. -/
theorem contains_noneOf (marks : List Char) : (noneOf marks).contains c = !marks.contains c := by
  rw [noneOf, contains, inRanges_map_self]

theorem contains_only_self (c : Char) : (only c).contains c = true := beq_self_eq_true c

end CharClass

namespace Pattern

variable {p q : Pattern} {chars : CharClass} {atStart : Bool} {text rest : List Char} {c : Char}
  {o : Outcome}

/-- A character that some part of a pattern can take. -/
def admits : Pattern → Char → Bool
  | .start, _ => false
  | .finish, _ => false
  | .one chars, c => chars.contains c
  | .many chars, c => chars.contains c
  | .group p, c => p.admits c
  | .optional p, c => p.admits c
  | .seq p q, c => p.admits c || q.admits c

/-- One character is taken from the front. -/
theorem mem_outcomes_one (h : o ∈ (Pattern.one chars).outcomes atStart text) :
    ∃ c rest, text = c :: rest ∧ chars.contains c = true ∧ o = ⟨[c], [], rest⟩ := by
  cases text with
  | nil => exact absurd h List.not_mem_nil
  | cons c rest =>
    rw [outcomes] at h
    split at h
    · rename_i hc
      exact ⟨c, rest, rfl, hc, List.mem_singleton.mp h⟩
    · exact absurd h List.not_mem_nil

/-- At the end nothing is left. -/
theorem mem_outcomes_finish (h : o ∈ Pattern.finish.outcomes atStart text) : text = [] := by
  rw [outcomes] at h
  split at h
  · rename_i hempty
    exact List.isEmpty_iff.mp hempty
  · exact absurd h List.not_mem_nil

theorem mem_runs (h : o ∈ runs chars text) :
    text = o.taken ++ o.rest ∧ ∀ c ∈ o.taken, chars.contains c = true := by
  induction text generalizing o with
  | nil =>
    rw [runs, List.mem_singleton] at h
    subst h
    exact ⟨rfl, fun c hc => absurd hc List.not_mem_nil⟩
  | cons d rest ih =>
    have hempty : o = .empty (d :: rest) →
        d :: rest = o.taken ++ o.rest ∧ ∀ c ∈ o.taken, chars.contains c = true := by
      rintro rfl
      exact ⟨rfl, fun c hc => absurd hc List.not_mem_nil⟩
    rw [runs] at h
    split at h
    · rename_i hd
      rcases List.mem_append.mp h with h | h
      · obtain ⟨shorter, hshorter, rfl⟩ := List.mem_map.mp h
        obtain ⟨hrest, hchars⟩ := ih hshorter
        exact ⟨congrArg (d :: ·) hrest, List.forall_mem_cons.mpr ⟨hd, hchars⟩⟩
      · exact hempty (List.mem_singleton.mp h)
    · exact hempty (List.mem_singleton.mp h)

/-- A sequence takes what its parts take. -/
theorem mem_outcomes_append (h : o ∈ (p ++ q).outcomes atStart text) :
    ∃ first ∈ p.outcomes atStart text,
      ∃ next ∈ q.outcomes (atStart && first.taken.isEmpty) first.rest, o = first.andThen next := by
  obtain ⟨first, hfirst, h⟩ := List.mem_flatMap.mp h
  obtain ⟨next, hnext, rfl⟩ := List.mem_map.mp h
  exact ⟨first, hfirst, next, hnext, rfl⟩

/-- Every outcome splits the text, and takes characters that the pattern admits. The induction is
on the pattern. -/
theorem split_of_mem_outcomes (h : o ∈ p.outcomes atStart text) :
    text = o.taken ++ o.rest ∧ ∀ c ∈ o.taken, p.admits c = true := by
  induction p generalizing o atStart text with
  | start =>
    rw [outcomes] at h
    split at h
    · rw [List.mem_singleton.mp h]
      exact ⟨rfl, fun c hc => absurd hc List.not_mem_nil⟩
    · exact absurd h List.not_mem_nil
  | finish =>
    rw [outcomes] at h
    split at h
    · rw [List.mem_singleton.mp h]
      exact ⟨rfl, fun c hc => absurd hc List.not_mem_nil⟩
    · exact absurd h List.not_mem_nil
  | one chars =>
    obtain ⟨c, rest, rfl, hc, rfl⟩ := mem_outcomes_one h
    exact ⟨rfl, fun d hd => List.mem_singleton.mp hd ▸ hc⟩
  | many chars => exact mem_runs h
  | group p ih =>
    obtain ⟨inner, hinner, rfl⟩ := List.mem_map.mp h
    obtain ⟨htext, hchars⟩ := ih hinner
    exact ⟨htext, hchars⟩
  | optional p ih =>
    rcases List.mem_append.mp h with h | h
    · exact ih h
    · rw [List.mem_singleton.mp h]
      exact ⟨rfl, fun c hc => absurd hc List.not_mem_nil⟩
  | seq p q ihp ihq =>
    obtain ⟨first, hfirst, next, hnext, rfl⟩ := mem_outcomes_append h
    obtain ⟨htext, hchars⟩ := ihp hfirst
    obtain ⟨hrest, hmore⟩ := ihq hnext
    refine ⟨?_, fun c hc => ?_⟩
    · rw [htext, hrest]
      exact (List.append_assoc _ _ _).symm
    · rcases List.mem_append.mp hc with hc | hc
      · exact Bool.or_eq_true_iff.mpr (Or.inl (hchars c hc))
      · exact Bool.or_eq_true_iff.mpr (Or.inr (hmore c hc))

/-! ### Preferred outcomes -/

/-- The outcome that is preferred to all others. -/
def Prefers (p : Pattern) (atStart : Bool) (text : List Char) (o : Outcome) : Prop :=
  (p.outcomes atStart text).head? = some o

theorem Prefers.append {next : Outcome} (hp : p.Prefers atStart text o)
    (hq : ∀ atStart, q.Prefers atStart o.rest next) :
    (p ++ q).Prefers atStart text (o.andThen next) := by
  obtain ⟨others, hothers⟩ := List.head?_eq_some_iff.mp hp
  obtain ⟨more, hmore⟩ := List.head?_eq_some_iff.mp (hq (atStart && o.taken.isEmpty))
  change ((p.outcomes atStart text).flatMap _).head? = _
  rw [hothers, List.flatMap_cons, hmore]
  rfl

theorem Prefers.group (h : p.Prefers atStart text o) :
    (Pattern.group p).Prefers atStart text o.capture := by
  rw [Prefers, outcomes, List.head?_map, h]
  rfl

/-- A part that may be missing is preferred to be there. -/
theorem Prefers.optional (h : p.Prefers atStart text o) :
    (Pattern.optional p).Prefers atStart text o := by
  rw [Prefers, outcomes, List.head?_append, h]
  rfl

/-- A part is missing if it has no outcome. -/
theorem prefers_optional_of_nil (h : p.outcomes atStart text = []) :
    (Pattern.optional p).Prefers atStart text ⟨[], List.replicate p.groupCount none, text⟩ := by
  rw [Prefers, outcomes, h]
  rfl

theorem prefers_one (h : chars.contains c = true) (rest : List Char) :
    (Pattern.one chars).Prefers atStart (c :: rest) ⟨[c], [], rest⟩ := by
  rw [Prefers, outcomes, if_pos h]
  rfl

/-- The longest run is preferred. -/
theorem prefers_many (chars : CharClass) (atStart : Bool) (text : List Char) :
    (Pattern.many chars).Prefers atStart text
      ⟨text.takeWhile chars.contains, [], text.dropWhile chars.contains⟩ := by
  change (runs chars text).head? = _
  induction text with
  | nil => rfl
  | cons c rest ih =>
    rw [runs]
    split
    · rename_i hc
      rw [List.head?_append, List.head?_map, ih, List.takeWhile_cons_of_pos hc,
        List.dropWhile_cons_of_pos hc]
      rfl
    · rename_i hc
      rw [List.takeWhile_cons_of_neg hc, List.dropWhile_cons_of_neg hc]
      rfl

/-! ### Anchored patterns -/

/-- A pattern that matches at the start of the whole text only. -/
def isAnchored : Pattern → Bool
  | .start => true
  | .seq p _ => p.isAnchored
  | _ => false

theorem outcomes_of_isAnchored (h : p.isAnchored = true) (text : List Char) :
    p.outcomes false text = [] := by
  induction p with
  | start => rfl
  | seq p q ihp ihq =>
    rw [outcomes, ihp h]
    rfl
  | _ => exact absurd h Bool.false_ne_true

/-- An anchored pattern is matched at the start or nowhere. -/
theorem search_of_isAnchored (h : p.isAnchored = true) (atStart : Bool) (text : List Char) :
    p.search atStart text = (p.outcomes atStart text).head? := by
  have hlater : ∀ rest, p.search false rest = none := by
    intro rest
    induction rest with
    | nil => rw [search, outcomes_of_isAnchored h, List.head?_nil]
    | cons c rest ih => rw [search, outcomes_of_isAnchored h, ih, List.head?_nil, Option.none_or]
  cases text with
  | nil => rfl
  | cons c rest => rw [search, hlater, Option.or_none]

end Pattern

end TopicLinks.Text
