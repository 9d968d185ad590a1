import Mathlib.Data.List.Basic
import Mathlib.Data.List.Induction
import TopicLinks.Page.Variants

/-!
# Variants after insertions

Variants are built by insertions, one after the other. What they hold afterwards can be read off
the sequence of insertions alone: each language stands where it was inserted first, with the value
that was inserted for it last. Every insertion keeps this relation.
-/

namespace TopicLinks.Variants

variable {α : Type} {language : Language} {value : α} {entries : List (Language × α)}
  {variants : Variants α} {insertions : List (Language × α)}

/-- The languages that have a value, in stored order. -/
def languages (variants : Variants α) : List Language := variants.entries.map (·.1)

/-- The value that was inserted for a language last. -/
def lastInserted? (insertions : List (Language × α)) (language : Language) : Option α :=
  (insertions.filter (·.1 = language)).getLast?.map (·.2)

/-- A sequence of insertions leaves these variants behind. -/
structure IsLeftBy (variants : Variants α) (insertions : List (Language × α)) : Prop where
  /-- The languages stand in the order in which they were first inserted. -/
  ordered : variants.languages.Pairwise fun a b =>
    (insertions.map (·.1)).idxOf a < (insertions.map (·.1)).idxOf b
  /-- What is stored is what was inserted last. -/
  last : ∀ language value, (language, value) ∈ variants.entries ↔
    lastInserted? insertions language = some value

/-! ### One insertion -/

/-- A language that has no value yet comes last; every other one stays in its place. -/
theorem map_fst_insertEntry (language : Language) (value : α) (entries : List (Language × α)) :
    (insertEntry language value entries).map (·.1) =
      if language ∈ entries.map (·.1) then entries.map (·.1)
      else entries.map (·.1) ++ [language] := by
  induction entries with
  | nil => rfl
  | cons entry rest ih =>
    unfold insertEntry
    by_cases h : entry.1 = language
    · simp [h]
    · rw [if_neg h, List.map_cons, ih, List.map_cons]
      simp only [List.mem_cons, Ne.symm h, false_or]
      split <;> simp

theorem languages_insert (variants : Variants α) (language : Language) (value : α) :
    (variants.insert language value).languages =
      if language ∈ variants.languages then variants.languages
      else variants.languages ++ [language] :=
  map_fst_insertEntry language value variants.entries

/-- If no language has two values, an insertion stores its value in the place of the one that its
language had, and touches no other. -/
theorem mem_insertEntry (h : (entries.map (·.1)).Nodup) {other : Language} {stored : α} :
    (other, stored) ∈ insertEntry language value entries ↔
      if other = language then stored = value else (other, stored) ∈ entries := by
  induction entries with
  | nil =>
    rw [insertEntry, List.mem_singleton, Prod.mk.injEq]
    split <;> simp_all
  | cons entry rest ih =>
    obtain ⟨hfirst, hrest⟩ := List.nodup_cons.mp h
    unfold insertEntry
    by_cases hentry : entry.1 = language
    · rw [if_pos hentry, List.mem_cons, List.mem_cons, Prod.mk.injEq]
      split
      · rename_i hother
        have hsame : other = entry.1 := hother.trans hentry.symm
        have hnone : (other, stored) ∉ rest := fun hmem =>
          hfirst (List.mem_map.mpr ⟨_, hmem, hsame⟩)
        rw [or_iff_left hnone, and_iff_right hsame]
      · rename_i hother
        have hne : (other, stored) ≠ entry := fun heq =>
          hother ((congrArg Prod.fst heq).trans hentry)
        simp [hentry, hother, hne]
    · rw [if_neg hentry, List.mem_cons, List.mem_cons, ih hrest]
      split
      · rename_i hother
        have hne : (other, stored) ≠ entry := fun heq =>
          hentry ((congrArg Prod.fst heq).symm.trans hother)
        simp [hne]
      · rfl

/-- If no language has two values, the value of a language is the one that is stored for it. -/
theorem get?_eq_some_iff (h : variants.languages.Nodup) :
    variants.get? language = some value ↔ (language, value) ∈ variants.entries := by
  obtain ⟨entries⟩ := variants
  unfold get?
  induction entries with
  | nil => simp
  | cons entry rest ih =>
    obtain ⟨hfirst, hrest⟩ := List.nodup_cons.mp h
    rw [List.mem_cons, List.find?_cons]
    by_cases hentry : entry.1 = language
    · have hnone : (language, value) ∉ rest := fun hmem =>
        hfirst (List.mem_map.mpr ⟨_, hmem, hentry.symm⟩)
      simp [hentry, hnone, Prod.ext_iff, eq_comm]
    · have hne : (language, value) ≠ entry := fun heq => hentry (congrArg Prod.fst heq).symm
      rw [beq_eq_false_iff_ne.mpr hentry, or_iff_right hne]
      exact ih hrest

/-- The last of some insertions decides about its own language only. -/
theorem lastInserted?_append_singleton (insertions : List (Language × α)) (language : Language)
    (value : α) (other : Language) :
    lastInserted? (insertions ++ [(language, value)]) other =
      if other = language then some value else lastInserted? insertions other := by
  rw [lastInserted?, List.filter_append]
  split
  · rename_i h
    simp [h]
  · rename_i h
    simp [Ne.symm h, lastInserted?]

/-- There is no such value exactly for the languages that were never inserted. -/
theorem lastInserted?_eq_none_iff :
    lastInserted? insertions language = none ↔ language ∉ insertions.map (·.1) := by
  rw [lastInserted?, Option.map_eq_none_iff, List.getLast?_eq_none_iff, List.filter_eq_nil_iff,
    List.mem_map, not_exists]
  exact forall_congr' fun entry => by rw [decide_eq_true_eq, not_and]

namespace IsLeftBy

/-- No language has two values. -/
theorem nodup (h : variants.IsLeftBy insertions) : variants.languages.Nodup :=
  h.ordered.imp fun {a b} hlt (heq : a = b) => absurd hlt (heq ▸ Nat.lt_irrefl _)

/-- The languages with a value are those of the insertions. -/
theorem mem_languages (h : variants.IsLeftBy insertions) :
    language ∈ variants.languages ↔ language ∈ insertions.map (·.1) := by
  have hstored : language ∈ variants.languages ↔ lastInserted? insertions language ≠ none := by
    rw [Option.ne_none_iff_exists', languages, List.mem_map]
    constructor
    · rintro ⟨⟨_, value⟩, hmem, rfl⟩
      exact ⟨value, (h.last _ value).mp hmem⟩
    · rintro ⟨value, hvalue⟩
      exact ⟨(language, value), (h.last language value).mpr hvalue, rfl⟩
  rw [hstored, ne_eq, lastInserted?_eq_none_iff, not_not]

/-- Nothing was inserted, and nothing is stored. -/
theorem empty : (empty : Variants α).IsLeftBy [] where
  ordered := .nil
  last _ _ := by simp [Variants.empty, lastInserted?]

/-- One more insertion keeps the relation. A language that gets a place was not inserted before, so
its place is behind those of all others. -/
theorem insert (h : variants.IsLeftBy insertions) (language : Language) (value : α) :
    (variants.insert language value).IsLeftBy (insertions ++ [(language, value)]) where
  ordered := by
    have hkept : variants.languages.Pairwise fun a b =>
        (insertions.map (·.1) ++ [language]).idxOf a <
          (insertions.map (·.1) ++ [language]).idxOf b := by
      refine h.ordered.imp_of_mem fun ha hb hlt => ?_
      rwa [List.idxOf_append_of_mem (h.mem_languages.mp ha),
        List.idxOf_append_of_mem (h.mem_languages.mp hb)]
    rw [List.map_append, List.map_singleton, languages_insert]
    split
    · exact hkept
    · rename_i hnew
      refine List.pairwise_append.mpr ⟨hkept, List.pairwise_singleton _ _, fun a ha b hb => ?_⟩
      rw [List.mem_singleton.mp hb, List.idxOf_append_of_mem (h.mem_languages.mp ha),
        List.idxOf_append_of_notMem (fun hold => hnew (h.mem_languages.mpr hold))]
      exact Nat.lt_add_right _ (List.idxOf_lt_length_of_mem (h.mem_languages.mp ha))
  last other stored := by
    rw [lastInserted?_append_singleton]
    refine (mem_insertEntry h.nodup).trans ?_
    split
    · rw [Option.some.injEq, eq_comm]
    · exact h.last other stored

/-- What is found for a language is what was inserted for it last, if anything was. -/
theorem get?_eq (h : variants.IsLeftBy insertions) (language : Language) :
    variants.get? language = lastInserted? insertions language :=
  Option.ext fun value => (get?_eq_some_iff h.nodup).trans (h.last language value)

end IsLeftBy

/-! ### Sequences of insertions -/

/-- Every sequence of insertions leaves its variants behind. The induction is on the sequence from
its end, so that the last step is one insertion. -/
theorem isLeftBy_ofList (insertions : List (Language × α)) :
    (ofList insertions).IsLeftBy insertions := by
  induction insertions using List.reverseRecOn with
  | nil => exact .empty
  | append_singleton earlier insertion ih =>
    rw [ofList, List.foldl_append]
    exact ih.insert insertion.1 insertion.2

/-- Variants are a map from languages that remembers the order of first insertion. After any
insertions no language has two values; the languages are those of the insertions and stand in the
order in which they were first inserted; and what is stored or found for a language is what was
inserted for it last, so nothing is found for a language that was never inserted. Two insertions
for different languages can therefore change places without a look-up telling. -/
theorem insertion_ordered (insertions : List (Language × α)) :
    let variants := ofList insertions
    variants.languages.Nodup ∧
    (∀ language, language ∈ variants.languages ↔ language ∈ insertions.map (·.1)) ∧
    (variants.languages.Pairwise fun a b =>
      (insertions.map (·.1)).idxOf a < (insertions.map (·.1)).idxOf b) ∧
    (∀ language value, (language, value) ∈ variants.entries ↔
      lastInserted? insertions language = some value) ∧
    (∀ language, variants.get? language = lastInserted? insertions language) ∧
    (∀ language, variants.get? language = none ↔ language ∉ insertions.map (·.1)) ∧
    ∀ before first second after, insertions = before ++ first :: second :: after →
      first.1 ≠ second.1 → ∀ language,
        (ofList (before ++ second :: first :: after)).get? language = variants.get? language := by
  intro variants
  have h : variants.IsLeftBy insertions := isLeftBy_ofList insertions
  refine ⟨h.nodup, fun language => h.mem_languages, h.ordered, h.last, h.get?_eq,
    fun language => ?_, ?_⟩
  · rw [h.get?_eq, lastInserted?_eq_none_iff]
  · rintro before first second after rfl hne language
    rw [(isLeftBy_ofList _).get?_eq, h.get?_eq]
    -- At most one of the two is for the language, so both sequences insert the same for it.
    have hfilter : (second :: first :: after).filter (·.1 = language) =
        (first :: second :: after).filter (·.1 = language) := by
      by_cases hfirst : first.1 = language
      · have hsecond : second.1 ≠ language := hfirst ▸ hne.symm
        simp [hfirst, hsecond]
      · simp [hfirst, List.filter_cons]
    rw [lastInserted?, lastInserted?, List.filter_append, List.filter_append, hfilter]

/-- A language is inserted a second time after another one: it keeps its place and gets the new
value, and the two last insertions can change places. -/
theorem insertion_ordered_of_repeated :
    let insertions := [("swift", 1), ("occ", 2), ("swift", 3)]
    let variants := ofList insertions
    insertions = [("swift", 1)] ++ ("occ", 2) :: ("swift", 3) :: [] ∧ "occ" ≠ "swift" ∧
      variants.entries = [("swift", 3), ("occ", 2)] ∧ variants.get? "swift" = some 3 ∧
      variants.get? "data" = none ∧
      ∀ language, (ofList [("swift", 1), ("swift", 3), ("occ", 2)]).get? language =
        variants.get? language := by
  intro insertions variants
  obtain ⟨-, -, -, -, hget, hnone, hswap⟩ := insertion_ordered insertions
  exact ⟨rfl, by decide, by decide, hget "swift", (hnone "data").mpr (by decide),
    hswap [("swift", 1)] ("occ", 2) ("swift", 3) [] rfl (by decide)⟩

end TopicLinks.Variants
