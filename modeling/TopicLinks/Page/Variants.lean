import TopicLinks.Identity.Languages

/-!
# Variants by language

A section of a symbol page may differ from language to language. Its variants are a
map from languages to values that remembers the order of first insertion.
-/

namespace TopicLinks

/-- A value for each of some languages. -/
structure Variants (α : Type) where
  /-- The languages and their values, in the order in which they were first inserted. -/
  entries : List (Language × α)

namespace Variants

variable {α : Type}

/-- No variants. -/
def empty : Variants α := ⟨[]⟩

/-- The value for a language. -/
def get? (variants : Variants α) (language : Language) : Option α :=
  (variants.entries.find? (·.1 == language)).map (·.2)

/-- Replace the value of a language in a list of entries, or add it at the end. -/
def insertEntry (language : Language) (value : α) : List (Language × α) → List (Language × α)
  | [] => [(language, value)]
  | entry :: rest =>
    if entry.1 = language then (entry.1, value) :: rest
    else entry :: insertEntry language value rest

/-- Store a value for a language; a value stored before is replaced in its place. -/
def insert (variants : Variants α) (language : Language) (value : α) : Variants α :=
  ⟨insertEntry language value variants.entries⟩

/-- The variants left by a sequence of insertions. -/
def ofList (entries : List (Language × α)) : Variants α :=
  entries.foldl (fun variants entry => variants.insert entry.1 entry.2) empty

end Variants

/-- A variant is in a language that its page does not declare. No sound page has one. -/
structure UndeclaredLanguage where
  /-- The language of the variant. -/
  language : Language
  deriving DecidableEq

/-- The text of the error. -/
def UndeclaredLanguage.message (e : UndeclaredLanguage) : String :=
  "symbol variant for `" ++ e.language ++ "` has no matching declared language"

/-- The declared language of a variant. -/
def LanguageSet.forVariant (declared : LanguageSet) (language : Language) :
    Except UndeclaredLanguage Language :=
  if language ∈ declared then .ok language else .error ⟨language⟩

end TopicLinks
