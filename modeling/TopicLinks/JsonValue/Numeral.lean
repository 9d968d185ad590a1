import TopicLinks.JsonValue

/-!
# Numerals

A numeral without a point and an exponent is an integer, if 64 bits are enough for it and
it is not a zero with a minus. Any other one is a number in double precision: its leading
digits, as many as fit into 64 bits, are rounded, and then scaled by a power of ten.
-/

namespace TopicLinks

namespace Numeral

/-- The greatest number of 64 bits. -/
def maxWord : Nat := 0xFFFFFFFFFFFFFFFF

/-- The size of the least signed number of 64 bits. -/
def maxNegative : Nat := 0x8000000000000000

/-- Put digits after a number as long as 64 bits are enough: the number, and how many
digits are left. -/
def absorb (value : Nat) : List Char → Nat × Nat
  | [] => (value, 0)
  | c :: rest =>
    let longer := value * 10 + (c.toNat - '0'.toNat)
    if longer ≤ maxWord then absorb longer rest else (value, rest.length + 1)

/-- The number that digits write. -/
def natural (digits : List Char) : Nat :=
  digits.foldl (fun value c => value * 10 + (c.toNat - '0'.toNat)) 0

/-- The exponent at the end of a numeral. -/
def exponent? : List Char → Option Int
  | [] => some 0
  | mark :: text =>
    let digits := match text with
      | '+' :: digits => digits
      | '-' :: digits => digits
      | digits => digits
    if (mark == 'e' || mark == 'E') && !digits.isEmpty && digits.all Char.isDigit then
      some (if text.head? = some '-' then -(natural digits : Int) else natural digits)
    else none

/-- A number in double precision from its leading digits and a power of ten. -/
def scaled? (digits : Nat) (power : Int) : Option Binary64 :=
  let size := Binary64.nearest digits 1
  if 0 ≤ power then size.scaleUp? power.toNat else some (size.scaleDown (-power).toNat)

/-- The value of an integer of which some digits may be left over. -/
def integer? (negative : Bool) (value left : Nat) : Option JsonValue :=
  if left = 0 ∧ negative = false then some (.integer value)
  else if left = 0 ∧ 0 < value ∧ value ≤ maxNegative then some (.integer (-(value : Int)))
  else (scaled? value left).map (.floating negative)

end Numeral

open Numeral

/-- Read a numeral. There is no value for what is none, or too great. -/
def JsonValue.ofNumeral? (text : String) : Option JsonValue :=
  let negative := text.toList.head? == some '-'
  let unsigned := if negative then text.toList.drop 1 else text.toList
  let whole := unsigned.takeWhile Char.isDigit
  let (value, left) := absorb 0 whole
  if whole.isEmpty then none
  else
    match unsigned.dropWhile Char.isDigit with
    | [] => integer? negative value left
    | '.' :: rest => do
      let places := rest.takeWhile Char.isDigit
      let (value, dropped) := absorb value places
      let exponent ← exponent? (rest.dropWhile Char.isDigit)
      let size ← scaled? value (left + dropped - places.length + exponent)
      some (.floating negative size)
    | rest => do
      let exponent ← exponent? rest
      let size ← scaled? value (left + exponent)
      some (.floating negative size)

end TopicLinks
