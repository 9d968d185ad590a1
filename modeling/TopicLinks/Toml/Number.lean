import TopicLinks.Text.Percent

/-!
# TOML numbers

Numbers are only checked. Integers are signed 64-bit numbers in four bases, floats may
not be greater than the greatest double, and underscores stand between digits only.
-/

namespace TopicLinks.Toml

/-- Digits of a base up to sixteen. -/
def isDigitOf (base : Nat) (c : Char) : Bool := (Text.Percent.hexValue? c).any (· < base)

/-- Each underscore stands between two digits. -/
def wellSpaced (base : Nat) : List Char → Bool
  | [] => false
  | [c] => isDigitOf base c
  | c :: '_' :: rest => isDigitOf base c && wellSpaced base rest
  | c :: rest => isDigitOf base c && wellSpaced base rest

/-- Digits with underscores between them: the digits alone, and what follows. -/
def digits? (base : Nat) (text : List Char) : Option (List Char × List Char) :=
  let written := text.takeWhile (fun c => isDigitOf base c || c == '_')
  if wellSpaced base written then
    some (written.filter (· != '_'), text.dropWhile (fun c => isDigitOf base c || c == '_'))
  else none

/-- The number that digits of a base write. -/
def valueOf (base : Nat) (digits : List Char) : Nat :=
  digits.foldl (fun value c => value * base + (Text.Percent.hexValue? c).getD 0) 0

/-- An unsigned decimal integer, without leading zeros. -/
def decimal? : List Char → Option (List Char × List Char)
  | '0' :: rest => some (['0'], rest)
  | text => digits? 10 text

/-- The first number past the signed 64-bit integers. -/
def integerBound : Nat := 0x8000000000000000

/-- An integer in another base than ten, after its two-character mark. -/
def radix? (base : Nat) (text : List Char) : Option (List Char) := do
  let (digits, rest) ← digits? base text
  if valueOf base digits < integerBound then some rest else none

/-- Split off a sign. The flag tells whether it is a minus. -/
def takeSign : List Char → Bool × List Char
  | '+' :: rest => (false, rest)
  | '-' :: rest => (true, rest)
  | text => (false, text)

/-- An exponent if there is one, and zero otherwise. -/
def exponent? : List Char → Option (Int × List Char)
  | c :: rest =>
    if c == 'e' || c == 'E' then do
      let (negative, text) := takeSign rest
      let (digits, rest) ← digits? 10 text
      let value : Int := valueOf 10 digits
      some (if negative then -value else value, rest)
    else some (0, c :: rest)
  | [] => some (0, [])

/-- The least number that is nearer to the power of two past the doubles than to the
greatest double, or as near. -/
def overflowBound : Nat := Nat.pow 2 1024 - Nat.pow 2 970

/-- A decimal fraction, as an integer and a power of ten, that no finite double is near
to. Far from the bound the number of digits decides. -/
def overflows (integer : Nat) (exponent : Int) : Bool :=
  let magnitude : Int := (Nat.toDigits 10 integer).length + exponent
  if integer = 0 then false
  else if magnitude < 309 then false
  else if magnitude > 310 then true
  else if 0 ≤ exponent then overflowBound ≤ integer * Nat.pow 10 exponent.toNat
  else overflowBound * Nat.pow 10 (-exponent).toNat ≤ integer

/-- The end of a float whose digits and exponent were read. -/
def float? (negative : Bool) (digits : List Char) (places : Nat) (text : List Char) :
    Option (List Char) := do
  let (exponent, rest) ← exponent? text
  if !negative && overflows (valueOf 10 digits) (exponent - places) then none else some rest

/-- Skip a number. -/
def number? (text : List Char) : Option (List Char) :=
  match text with
  | '0' :: 'x' :: rest => radix? 16 rest
  | '0' :: 'o' :: rest => radix? 8 rest
  | '0' :: 'b' :: rest => radix? 2 rest
  | _ =>
    let (negative, unsigned) := takeSign text
    match unsigned with
    | 'i' :: 'n' :: 'f' :: rest => some rest
    | 'n' :: 'a' :: 'n' :: rest => some rest
    | _ => do
      let (digits, rest) ← decimal? unsigned
      match rest with
      | '.' :: rest => do
        let (places, rest) ← digits? 10 rest
        float? negative (digits ++ places) places.length rest
      | 'e' :: _ => float? negative digits 0 rest
      | 'E' :: _ => float? negative digits 0 rest
      | _ =>
        if valueOf 10 digits < integerBound + (if negative then 1 else 0) then some rest else none

end TopicLinks.Toml
