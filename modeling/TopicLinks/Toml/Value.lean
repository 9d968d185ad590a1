/-!
# TOML values

A TOML document is a table of values. Tables remember how they came to be, because that
decides which later lines may add to them. Settings hold no numbers and no dates, so of
those only the kind is kept.
-/

namespace TopicLinks.Toml

/-- How a table came to be. -/
inductive TableOrigin where
  /-- Written under a header of its own, or as an element of an array of tables. -/
  | header
  /-- Named on the way in a longer header. -/
  | path
  /-- Named on the way in a dotted key. -/
  | dotted
  /-- Written between braces. -/
  | braces
  deriving DecidableEq

/-- A value. -/
inductive Value where
  /-- A string. -/
  | text (text : String)
  /-- A boolean. -/
  | boolean (value : Bool)
  /-- An integer or a float. -/
  | number
  /-- A date, a time, or both. -/
  | moment
  /-- An array. -/
  | array (items : List Value)
  /-- A table; its entries are in document order. -/
  | table (origin : TableOrigin) (entries : List (String × Value))
  /-- An array of tables, written under headers. -/
  | tables (elements : List (List (String × Value)))

/-- The entries of a table in document order. -/
abbrev Entries := List (String × Value)

end TopicLinks.Toml
