import TopicLinks.Binary64

/-!
# The shortest decimal of a number

A decimal reads back as a number in double precision when it lies between the points
halfway to the two neighbours of that number. A number is written with the fewest digits
that read back, and of those with the decimal nearest to it.
-/

namespace TopicLinks

/-- Decimal digits times a power of ten. -/
structure Decimal where
  /-- The digits. -/
  digits : Nat
  /-- The power of ten of the last digit. -/
  power : Int
  deriving DecidableEq

namespace Binary64

/-- The points halfway to the neighbours, in quarters of the last bit. Below a full
significand that ends in zeros only, the neighbours are half as far apart. -/
def halfway (x : Binary64) : Nat × Nat :=
  let below := if x.significand = leastFull ∧ 0 < x.exponent then 1 else 2
  (4 * x.significand - below, 4 * x.significand + 2)

/-- A multiple of a power of ten reads back as the number. A point halfway reads back as
the neighbour with the even significand. -/
def ReadsBack (x : Binary64) (d : Decimal) : Prop :=
  let point := d.digits * Nat.pow 10 d.power.toNat * (1 <<< 1076)
  let low := (x.halfway.1 <<< x.exponent) * Nat.pow 10 (-d.power).toNat
  let high := (x.halfway.2 <<< x.exponent) * Nat.pow 10 (-d.power).toNat
  if x.significand % 2 = 0 then low ≤ point ∧ point ≤ high else low < point ∧ point < high

instance (x : Binary64) (d : Decimal) : Decidable (x.ReadsBack d) := by
  unfold ReadsBack
  infer_instance

/-- The multiple of a power of ten that reads back, if there is one. Only the two multiples
next to the number are candidates; of two that read back the nearer one is taken, and of
two that are equally near the even one. -/
def onGrid? (x : Binary64) (power : Int) : Option Decimal :=
  let num := ((4 * x.significand) <<< x.exponent) * Nat.pow 10 (-power).toNat
  let den := Nat.pow 10 power.toNat * (1 <<< 1076)
  let below : Decimal := ⟨num / den, power⟩
  let above : Decimal := ⟨num / den + 1, power⟩
  if x.ReadsBack below ∧ x.ReadsBack above then some ⟨divEven num den, power⟩
  else if x.ReadsBack below then some below
  else if x.ReadsBack above then some above
  else none

/-- The exact value as a decimal. -/
def exact (x : Binary64) : Decimal := ⟨(x.significand <<< x.exponent) * Nat.pow 5 1074, -1074⟩

/-- The shortest decimal: the one on the coarsest grid. -/
def shortest (x : Binary64) : Decimal :=
  ((List.range 700).findSome? fun (i : Nat) => x.onGrid? (309 - i)).getD x.exact

end Binary64

namespace Decimal

/-- Some zeros. -/
def zeros (count : Nat) : String := .ofList (List.replicate count '0')

/-- Write a decimal. When its first digit is a hundred-thousandth or more, and less than
ten to the power of 16, it is written in full and with at least one place. Otherwise there
is one digit before the point, and a signed exponent. -/
def text (d : Decimal) : String :=
  let digits := (Nat.toDigits 10 d.digits)
  let place : Int := d.power + digits.length - 1
  if -5 ≤ place ∧ place ≤ 15 then
    if 0 ≤ d.power then .ofList digits ++ zeros d.power.toNat ++ ".0"
    else if 0 ≤ place then
      .ofList (digits.take (place.toNat + 1)) ++ "." ++ .ofList (digits.drop (place.toNat + 1))
    else "0." ++ zeros (-place - 1).toNat ++ .ofList digits
  else
    .ofList (digits.take 1) ++ (if digits.length = 1 then "" else "." ++ .ofList (digits.drop 1)) ++
      "e" ++ (if 0 ≤ place then "+" else "-") ++ toString place.natAbs

end Decimal

/-- Write a number. -/
def Binary64.text (x : Binary64) : String :=
  if x.significand = 0 then "0.0" else x.shortest.text

end TopicLinks
