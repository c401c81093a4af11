import Typeward.Number.Binary64

/-!
# Shortest decimal text of a floating-point number

A number is written with the fewest significant digits that read back as the same number; of the
candidates with that many digits the nearest is taken. Positional notation is used from `1e-4` up
to below `1e16`, scientific notation with at least two digits of exponent elsewhere.
-/

namespace Typeward

namespace Binary64

/-- A decimal `digits * 10 ^ exponent`. -/
structure Decimal where
  digits : Nat
  exponent : Int
deriving DecidableEq, Repr

/-- The quotient `value / 10 ^ exponent` as a ratio, for a value given as a ratio. -/
def scaleTen (num den : Nat) (exponent : Int) : Nat × Nat :=
  if 0 ≤ exponent then (num, den * Nat.pow 10 exponent.toNat)
  else (num * Nat.pow 10 (-exponent).toNat, den)

/-- The two multiples of `10 ^ exponent` next to a ratio, the nearer one first. -/
def neighbours (num den : Nat) (exponent : Int) : List Nat :=
  let (n, d) := scaleTen num den exponent
  let below := n / d
  let twice := 2 * (n % d)
  if twice < d ∨ (twice = d ∧ below % 2 = 0) then [below, below + 1] else [below + 1, below]

/-- Whether a decimal reads back as the number with a given magnitude. -/
def readsBack (magnitude digits : Nat) (exponent : Int) : Bool :=
  (ofDecimal false digits exponent).magnitude = magnitude

/-- The first grid, from coarse to fine, that holds a decimal which reads back. -/
def searchGrid (magnitude num den : Nat) (exponent : Int) : (fuel : Nat) → Decimal
  | 0 => ⟨(neighbours num den exponent).headD 0, exponent⟩
  | fuel + 1 =>
    match (neighbours num den exponent).find? (readsBack magnitude · exponent) with
    | some digits => ⟨digits, exponent⟩
    | none => searchGrid magnitude num den (exponent - 1) fuel

/-- The power of ten of a positive ratio's leading digit, found from an estimate by stepping. -/
def leadingPower (num den : Nat) (estimate : Int) : (fuel : Nat) → Int
  | 0 => estimate
  | fuel + 1 =>
    let (n, d) := scaleTen num den estimate
    if n < d then leadingPower num den (estimate - 1) fuel
    else if n ≥ 10 * d then leadingPower num den (estimate + 1) fuel
    else estimate

/-- Removes trailing zeros from a decimal. -/
def Decimal.strip (d : Decimal) : (fuel : Nat) → Decimal
  | 0 => d
  | fuel + 1 =>
    if d.digits ≠ 0 ∧ d.digits % 10 = 0 then
      Decimal.strip ⟨d.digits / 10, d.exponent + 1⟩ fuel
    else d

/-- The shortest decimal that reads back as a finite number other than zero. -/
def shortest (x : Binary64) : Decimal :=
  let (m, q) := x.significand
  let (num, den) := if 0 ≤ q then (m * Nat.pow 2 q.toNat, 1) else (m, Nat.pow 2 (-q).toNat)
  let estimate := ((Nat.log2 num : Int) - (Nat.log2 den : Int)) * 3 / 10
  let power := leadingPower num den estimate 64
  (searchGrid x.magnitude num den power 20).strip 20

/-- The text of a positive decimal, without a sign. -/
def Decimal.render (d : Decimal) (pointZero : Bool) : List Char :=
  let digits := Nat.toDigits 10 d.digits
  let point : Int := d.exponent + digits.length
  if -4 < point ∧ point ≤ 0 then
    '0' :: '.' :: List.replicate (-point).toNat '0' ++ digits
  else if 0 < point ∧ point ≤ 16 then
    let place := point.toNat
    if place < digits.length then digits.take place ++ '.' :: digits.drop place
    else
      digits ++ List.replicate (place - digits.length) '0' ++
        (if pointZero then ['.', '0'] else [])
  else
    let mantissa :=
      match digits with
      | [d] => [d]
      | d :: rest => d :: '.' :: rest
      | [] => []
    let power := point - 1
    let size := Nat.toDigits 10 power.natAbs
    mantissa ++ 'e' :: (if power < 0 then '-' else '+') ::
      (List.replicate (2 - size.length) '0' ++ size)

/-- The text of a number without its sign; `pointZero` keeps `.0` behind an integer. -/
def renderMagnitude (x : Binary64) (pointZero : Bool) : List Char :=
  if x.isNaN then "nan".toList
  else if x.isInfinite then "inf".toList
  else if x.isZero then (if pointZero then "0.0" else "0").toList
  else x.shortest.render pointZero

/-- The text of a number: what is not a number has no sign. -/
def render (x : Binary64) (pointZero : Bool) : List Char :=
  if x.isNegative && ! x.isNaN then '-' :: x.renderMagnitude pointZero
  else x.renderMagnitude pointZero

/-- The text of a floating-point number. -/
def toText (x : Binary64) : String := String.ofList (x.render true)

/-- The text of a complex number: a real part of positive zero is left out, and with it the
parentheses. -/
def complexText (re im : Binary64) : String :=
  if re.isZero && ! re.isNegative then String.ofList (im.render false ++ ['j'])
  else
    let sign := if im.isNegative && ! im.isNaN then [] else ['+']
    String.ofList ('(' :: re.render false ++ sign ++ im.render false ++ ['j', ')'])

end Binary64

end Typeward
