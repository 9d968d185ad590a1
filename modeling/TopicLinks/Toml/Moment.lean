import TopicLinks.Toml.Number

/-!
# TOML dates and times

Dates and times are only checked: a date must exist in its calendar, and a time on a
clock. A date may be followed by a time, and that by an offset.
-/

namespace TopicLinks.Toml

/-- A number of exactly the given count of decimal digits. -/
def fixed? (count : Nat) (text : List Char) : Option (Nat × List Char) :=
  let digits := text.take count
  if digits.length = count && digits.all (isDigitOf 10) then
    some (valueOf 10 digits, text.drop count)
  else none

/-- Two digits that write a number between two bounds. -/
def pair? (low high : Nat) (text : List Char) : Option (Nat × List Char) := do
  let (value, rest) ← fixed? 2 text
  if low ≤ value && value ≤ high then some (value, rest) else none

/-- Skip one given character. -/
def skip? (c : Char) : List Char → Option (List Char)
  | d :: rest => if c == d then some rest else none
  | [] => none

/-- The days of a month. -/
def daysIn (year month : Nat) : Nat :=
  if month = 2 then
    if year % 4 = 0 ∧ (year % 100 ≠ 0 ∨ year % 400 = 0) then 29 else 28
  else if month = 4 ∨ month = 6 ∨ month = 9 ∨ month = 11 then 30
  else 31

/-- Skip a date. -/
def date? (text : List Char) : Option (List Char) := do
  let (year, rest) ← fixed? 4 text
  let rest ← skip? '-' rest
  let (month, rest) ← pair? 1 12 rest
  let rest ← skip? '-' rest
  let (_, rest) ← pair? 1 (daysIn year month) rest
  some rest

/-- Skip a fraction of a second if there is one. -/
def skipFraction : List Char → List Char
  | '.' :: c :: rest =>
    if isDigitOf 10 c then rest.dropWhile (isDigitOf 10) else '.' :: c :: rest
  | text => text

/-- Skip a time of day. A minute may have a leap second. -/
def time? (text : List Char) : Option (List Char) := do
  let (_, rest) ← pair? 0 23 text
  let rest ← skip? ':' rest
  let (_, rest) ← pair? 0 59 rest
  let rest ← skip? ':' rest
  let (_, rest) ← pair? 0 60 rest
  some (skipFraction rest)

/-- Skip an offset from universal time if there is one. -/
def offset? : List Char → Option (List Char)
  | [] => some []
  | c :: rest =>
    if c == 'Z' || c == 'z' then some rest
    else if c == '+' || c == '-' then do
      let (_, rest) ← pair? 0 23 rest
      let rest ← skip? ':' rest
      let (_, rest) ← pair? 0 59 rest
      some rest
    else some (c :: rest)

/-- Skip a date, and a time after it. A space only joins the two if a time follows. -/
def dateTime? (text : List Char) : Option (List Char) := do
  let rest ← date? text
  match rest with
  | c :: more =>
    if c == 'T' || c == 't' then do
      let rest ← time? more
      offset? rest
    else if c == ' ' then
      match time? more with
      | some rest => offset? rest
      | none => some rest
    else some rest
  | [] => some rest

/-- A text starts with a date when a hyphen follows four digits. -/
def startsDate (text : List Char) : Bool :=
  (fixed? 4 text).any fun (_, rest) => rest.head? == some '-'

/-- A text starts with a time of day when a colon follows two digits. -/
def startsTime (text : List Char) : Bool :=
  (fixed? 2 text).any fun (_, rest) => rest.head? == some ':'

end TopicLinks.Toml
