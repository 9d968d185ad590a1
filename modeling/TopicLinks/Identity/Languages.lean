/-!
# Sets of source languages

A language is known by its identifier. A set of languages is the strictly ascending
list of its identifiers, so two sets with the same members are equal.
-/

namespace TopicLinks

/-- The identifier of a source language, such as `swift`. -/
abbrev Language := String

/-- Languages are ordered by the code points of their identifiers. -/
def Language.le (a b : Language) : Bool := decide (a ≤ b)

/-- Insert a language into an ascending list, unless it is there already. -/
def insertLanguage (language : Language) : List Language → List Language
  | [] => [language]
  | first :: rest =>
    if language < first then language :: first :: rest
    else if language = first then first :: rest
    else first :: insertLanguage language rest

@[simp] theorem mem_insertLanguage {language other : Language} {ids : List Language} :
    other ∈ insertLanguage language ids ↔ other = language ∨ other ∈ ids := by
  induction ids with
  | nil => simp [insertLanguage]
  | cons first rest ih =>
    unfold insertLanguage
    split
    · simp
    · split
      · rename_i h
        simp [h]
      · simp only [List.mem_cons, ih]
        constructor
        · rintro (h | h | h) <;> simp [h]
        · rintro (h | h | h) <;> simp [h]

/-- Insertion keeps a list strictly ascending. -/
theorem pairwise_insertLanguage {language : Language} {ids : List Language}
    (h : ids.Pairwise (· < ·)) : (insertLanguage language ids).Pairwise (· < ·) := by
  induction ids with
  | nil => simp [insertLanguage]
  | cons first rest ih =>
    obtain ⟨hfirst, hrest⟩ := List.pairwise_cons.1 h
    unfold insertLanguage
    split
    · rename_i hlt
      refine List.pairwise_cons.2 ⟨fun other hmem => ?_, h⟩
      rcases List.mem_cons.1 hmem with rfl | hmem
      · exact hlt
      · exact String.lt_trans hlt (hfirst other hmem)
    · split
      · exact h
      · rename_i hge hne
        refine List.pairwise_cons.2 ⟨fun other hmem => ?_, ih hrest⟩
        rcases mem_insertLanguage.1 hmem with rfl | hmem
        · exact String.not_le.1 fun hle => hne (String.le_antisymm hle (String.not_lt.1 hge))
        · exact hfirst other hmem

/-- A set of languages. -/
structure LanguageSet where
  /-- The identifiers in ascending order. -/
  ids : List Language
  /-- No identifier occurs twice, and the order is that of code points. -/
  ascending : ids.Pairwise (· < ·)
  deriving DecidableEq

namespace LanguageSet

/-- The set without languages. -/
def empty : LanguageSet := ⟨[], .nil⟩

/-- Add one language. -/
def insert (language : Language) (set : LanguageSet) : LanguageSet :=
  ⟨insertLanguage language set.ids, pairwise_insertLanguage set.ascending⟩

/-- Add every language of a list. -/
def addAll (set : LanguageSet) (languages : List Language) : LanguageSet :=
  languages.foldl (fun set language => set.insert language) set

/-- The set of the languages in a list. -/
def ofList (languages : List Language) : LanguageSet := empty.addAll languages

/-- The set of one language. -/
def single (language : Language) : LanguageSet := ofList [language]

instance : Membership Language LanguageSet := ⟨fun set language => language ∈ set.ids⟩

instance (language : Language) (set : LanguageSet) : Decidable (language ∈ set) :=
  inferInstanceAs (Decidable (language ∈ set.ids))

@[simp] theorem mem_insert {language other : Language} {set : LanguageSet} :
    other ∈ set.insert language ↔ other = language ∨ other ∈ set :=
  mem_insertLanguage

@[simp] theorem mem_addAll {other : Language} {set : LanguageSet} {languages : List Language} :
    other ∈ set.addAll languages ↔ other ∈ languages ∨ other ∈ set := by
  induction languages generalizing set with
  | nil => simp [addAll]
  | cons language rest ih =>
    have h : set.addAll (language :: rest) = (set.insert language).addAll rest := rfl
    rw [h, ih, mem_insert, List.mem_cons]
    constructor
    · rintro (h | h | h) <;> simp [h]
    · rintro ((h | h) | h) <;> simp [h]

@[simp] theorem mem_ofList {other : Language} {languages : List Language} :
    other ∈ ofList languages ↔ other ∈ languages := by
  have h : ¬ other ∈ empty := List.not_mem_nil
  simp [ofList, h]

end LanguageSet

end TopicLinks
