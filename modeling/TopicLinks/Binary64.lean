/-!
# Numbers in double precision

A finite number in double precision, its sign apart, is a whole multiple of 2 to the power
of -1074: a significand of at most 53 bits, shifted. Every operation has the exact result,
rounded once.
-/

namespace TopicLinks

/-- Divide and round to the nearest whole number. A half goes to the even neighbour. -/
def divEven (num den : Nat) : Nat :=
  let quotient := num / den
  let rest := num % den
  if 2 * rest < den ∨ (2 * rest = den ∧ quotient % 2 = 0) then quotient else quotient + 1

/-- The size of a number in double precision: the significand times 2 to the power of the
exponent less 1074. -/
structure Binary64 where
  /-- The leading bits, 53 of them unless the exponent is zero. -/
  significand : Nat
  /-- By how many bits they are shifted. -/
  exponent : Nat
  deriving DecidableEq

namespace Binary64

/-- One more bit than a significand can have. -/
def significandBound : Nat := 0x20000000000000

/-- The least significand of 53 bits. -/
def leastFull : Nat := 0x10000000000000

/-- The greatest exponent of a finite number. -/
def maxExponent : Nat := 2045

/-- The number nearest to a fraction, with an unbounded exponent. Of two that are equally
near it is the one with the even significand. -/
def nearest (num den : Nat) : Binary64 :=
  let scaled := num <<< 1074
  let exponent := Nat.log2 (scaled / den) - 52
  let significand := divEven scaled (den <<< exponent)
  if significand = significandBound then ⟨leastFull, exponent + 1⟩ else ⟨significand, exponent⟩

/-- The number has not become too great. -/
def IsFinite (x : Binary64) : Prop := x.exponent ≤ maxExponent

instance (x : Binary64) : Decidable x.IsFinite := inferInstanceAs (Decidable (_ ≤ _))

/-- Multiply two numbers. -/
def mul (x y : Binary64) : Binary64 :=
  nearest ((x.significand * y.significand) <<< (x.exponent + y.exponent)) (1 <<< 2148)

/-- Divide by a number other than zero. -/
def div (x y : Binary64) : Binary64 :=
  nearest (x.significand <<< x.exponent) (y.significand <<< y.exponent)

/-- A power of ten. -/
def powerOfTen (n : Nat) : Binary64 := nearest (Nat.pow 10 n) 1

/-- The greatest power of ten that is finite. -/
def maxPower : Nat := 308

/-- Multiply by a power of ten, unless the result is too great. -/
def scaleUp? (x : Binary64) (power : Nat) : Option Binary64 :=
  if x.significand = 0 then some x
  else if power ≤ maxPower then
    let product := x.mul (powerOfTen power)
    if product.IsFinite then some product else none
  else none

/-- Divide by a power of ten. A power that is not finite itself is divided by in parts. -/
def scaleDown (x : Binary64) (power : Nat) : Binary64 :=
  if power ≤ maxPower then x.div (powerOfTen power)
  else if x.significand = 0 then x
  else (x.div (powerOfTen maxPower)).scaleDown (power - maxPower)
  termination_by power
  decreasing_by simp only [maxPower] at *; omega

end Binary64

end TopicLinks
