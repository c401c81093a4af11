import Typeward.Number.Binary64

/-!
# Reading numbers

What sequences of digits denote, as integers in a base and as floating-point numbers.
-/

namespace Typeward

/-- The value of a digit in any base up to sixteen. -/
def digitValue (c : Char) : Nat :=
  if c.isDigit then c.toNat - '0'.toNat
  else if c.isLower then c.toNat - 'a'.toNat + 10
  else c.toNat - 'A'.toNat + 10

/-- The number written by digits in a base. -/
def digitsValue (base : Nat) (digits : List Char) : Nat :=
  digits.foldl (fun n c => n * base + digitValue c) 0

/-- A decimal number without sign and low lines: digits, a fraction and an exponent. -/
def Binary64.ofDigits (cs : List Char) : Binary64 :=
  let whole := cs.takeWhile Char.isDigit
  let rest := cs.dropWhile Char.isDigit
  let afterPoint := if rest.head? = some '.' then rest.drop 1 else []
  let fraction := afterPoint.takeWhile Char.isDigit
  let rest := if rest.head? = some '.' then afterPoint.dropWhile Char.isDigit else rest
  let power := rest.drop 1
  let digits := power.filter Char.isDigit
  let size : Int := digitsValue 10 digits
  let exponent : Int := if power.head? = some '-' then -size else size
  .ofDecimal false (digitsValue 10 (whole ++ fraction)) (exponent - fraction.length)

/-- A floating-point number by its text: with a sign, or the words for infinity and no number. -/
def Binary64.ofText (text : String) : Binary64 :=
  let cs := text.toList
  let isNegative := cs.head? = some '-'
  let body := if isNegative || cs.head? = some '+' then cs.drop 1 else cs
  let magnitude : Binary64 :=
    match String.ofList (body.map Char.toLower) with
    | "inf" | "infinity" => .infinity false
    | "nan" => .notANumber
    | _ => .ofDigits (body.filter (· ≠ '_'))
  if isNegative then magnitude.negate else magnitude

end Typeward
