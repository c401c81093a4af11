/-!
# Binary floating-point numbers of 64 bits

A floating-point number is its bit pattern, so that equality of patterns is decidable and a literal
means the same everywhere. Numbers are read from exact ratios, rounded to the nearest pattern with
ties to the even one, and compared through exact arithmetic on integers.
-/

namespace Typeward

/-- A binary floating-point number of 64 bits, by its bit pattern. -/
structure Binary64 where
  bits : UInt64
deriving DecidableEq, Repr, Inhabited

namespace Binary64

/-- The number of values of the fraction field. -/
def fractionSize : Nat := Nat.pow 2 52

/-- Whether the sign bit is set. -/
def isNegative (x : Binary64) : Bool := Nat.pow 2 63 ≤ x.bits.toNat

/-- The pattern without its sign bit. -/
def magnitude (x : Binary64) : Nat := x.bits.toNat % Nat.pow 2 63

/-- The biased exponent. -/
def exponentField (x : Binary64) : Nat := x.magnitude / fractionSize

/-- The fraction field. -/
def fractionField (x : Binary64) : Nat := x.magnitude % fractionSize

/-- Whether the pattern stands for a number that is not finite. -/
def isSpecial (x : Binary64) : Bool := x.exponentField = 2047

/-- Whether the pattern is not a number. -/
def isNaN (x : Binary64) : Bool := x.isSpecial && x.fractionField ≠ 0

/-- Whether the pattern stands for an infinity. -/
def isInfinite (x : Binary64) : Bool := x.isSpecial && x.fractionField = 0

/-- Whether the pattern stands for zero, of either sign. -/
def isZero (x : Binary64) : Bool := x.magnitude = 0

/-- The pattern with a sign and a magnitude. -/
def ofMagnitude (negative : Bool) (magnitude : Nat) : Binary64 :=
  ⟨UInt64.ofNat (magnitude % Nat.pow 2 63 + if negative then Nat.pow 2 63 else 0)⟩

/-- Infinity with a sign. -/
def infinity (negative : Bool) : Binary64 := ofMagnitude negative (2047 * fractionSize)

/-- The quiet pattern that is not a number. -/
def notANumber : Binary64 := ofMagnitude false (2047 * fractionSize + Nat.pow 2 51)

/-- The number with the opposite sign. -/
def negate (x : Binary64) : Binary64 := ofMagnitude (! x.isNegative) x.magnitude

/-- Integer significand and binary exponent of a finite number's absolute value. -/
def significand (x : Binary64) : Nat × Int :=
  if x.exponentField = 0 then (x.fractionField, -1074)
  else (x.fractionField + fractionSize, (x.exponentField : Int) - 1075)

/-- A quotient rounded to the nearest integer, a tie to the even one. -/
def roundDiv (num den : Nat) : Nat :=
  let quotient := num / den
  let twice := 2 * (num % den)
  if twice > den ∨ (twice = den ∧ quotient % 2 = 1) then quotient + 1 else quotient

/-- A ratio times a power of two, as a ratio. -/
def scale (num den : Nat) (power : Int) : Nat × Nat :=
  if 0 ≤ power then (num * Nat.pow 2 power.toNat, den)
  else (num, den * Nat.pow 2 (-power).toNat)

/-- The magnitude nearest to a ratio; beyond the largest finite one it is infinity. -/
def nearestMagnitude (num den : Nat) : Nat :=
  if num = 0 then 0
  else
    let estimate : Int := (Nat.log2 num : Int) - (Nat.log2 den : Int) - 53
    let low := max estimate (-1074)
    let first := scale num den (-low)
    let power := if first.1 / first.2 ≥ 2 * fractionSize then low + 1 else low
    let scaled := scale num den (-power)
    let rounded := roundDiv scaled.1 scaled.2
    let mantissa := if rounded = 2 * fractionSize then fractionSize else rounded
    let exponent := if rounded = 2 * fractionSize then power + 1 else power
    if exponent > 971 then 2047 * fractionSize
    else if mantissa < fractionSize then mantissa
    else (exponent + 1075).toNat * fractionSize + (mantissa - fractionSize)

/-- The number nearest to a decimal `digits * 10 ^ exponent`. Decimals that are far out of range
are recognised by their size, so that no huge power is formed. -/
def ofDecimal (negative : Bool) (digits : Nat) (exponent : Int) : Binary64 :=
  let size : Int := exponent + (Nat.log2 digits : Int) * 3 / 10
  if digits = 0 ∨ size < -400 then ofMagnitude negative 0
  else if size > 400 then infinity negative
  else if 0 ≤ exponent then
    ofMagnitude negative (nearestMagnitude (digits * Nat.pow 10 exponent.toNat) 1)
  else ofMagnitude negative (nearestMagnitude digits (Nat.pow 10 (-exponent).toNat))

/-- A finite number as a signed integer over a power of two. -/
def toRatio (x : Binary64) : Int × Nat :=
  let (m, q) := x.significand
  let signed : Int := if x.isNegative then -(m : Int) else m
  if 0 ≤ q then (signed * (Nat.pow 2 q.toNat : Nat), 1) else (signed, Nat.pow 2 (-q).toNat)

/-- Whether two numbers are equal: zeros of both signs are, and what is not a number equals
nothing. -/
def equals (x y : Binary64) : Bool :=
  ! x.isNaN && ! y.isNaN && (x = y || (x.isZero && y.isZero))

/-- Whether a number equals an integer exactly. -/
def equalsInt (x : Binary64) (n : Int) : Bool :=
  ! x.isSpecial && (let (num, den) := x.toRatio; num = n * den)

/-- Whether a number is greater than zero. -/
def isPositive (x : Binary64) : Bool :=
  ! x.isNaN && ! x.isNegative && ! x.isZero

/-- Whether a number is an even integer. -/
def isEven (x : Binary64) : Bool :=
  ! x.isSpecial && (let (num, den) := x.toRatio; num % (2 * den : Int) = 0)

end Binary64

end Typeward
