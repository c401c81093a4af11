import Typeward.Number.Shortest
import Typeward.Text.Quoted

/-!
# Constants

The values that a literal can denote, and the literals that denote them. Text that holds a
surrogate code point is no `String`; it is kept by its code points. Integers can be of any size,
but only those of a limited number of digits are written.
-/

namespace Typeward

/-- The value of a literal. -/
inductive Constant where
  | none
  | bool (value : Bool)
  | int (value : Int)
  | float (value : Binary64)
  | complex (re im : Binary64)
  | text (value : String)
  /-- Text with surrogate code points in it. -/
  | surrogates (points : List Nat)
  | bytes (value : List UInt8)
  | ellipsis
deriving DecidableEq, Repr, Inhabited

/-- The longest integer that is written, in digits. -/
def maxPrintedDigits : Nat := 4300

/-- Whether an integer has too many digits to be written. Most are ruled out by their binary digits,
without a power of ten. -/
def isOverlong (n : Int) : Bool :=
  maxPrintedDigits ≤ n.natAbs.log2 && Nat.pow 10 maxPrintedDigits ≤ n.natAbs

namespace Constant

/-- Whether a constant is text. -/
def isText : Constant → Bool
  | .text _ | .surrogates _ => true
  | _ => false

/-- The literal of text given by code points. -/
def quotedPoints (points : List Nat) : String :=
  let chars := points.filterMap fun n => if n.isValidChar then some (Char.ofNat n) else Option.none
  let quote := Text.quoteFor chars
  let body := points.flatMap fun n =>
    if n.isValidChar then Text.quotedChar quote (Char.ofNat n) else Text.numericEscape n
  String.ofList (quote :: body ++ [quote])

/-- A constant as a literal; what stands for an infinity or for no number is left as the words
`inf` and `nan`. There is none for an integer that is too long. -/
def literal : Constant → Option String
  | .none => some "None"
  | .bool true => some "True"
  | .bool false => some "False"
  | .int n => if isOverlong n then Option.none else some (toString n)
  | .float x => some x.toText
  | .complex re im => some (Binary64.complexText re im)
  | .text s => some (Text.quoted s)
  | .surrogates points => some (quotedPoints points)
  | .bytes bs => some (Text.quotedBytes bs)
  | .ellipsis => some "Ellipsis"

/-- Whether a constant counts as true in a condition. -/
def truth : Constant → Bool
  | .none => false
  | .bool b => b
  | .int n => n ≠ 0
  | .float x => ! x.isZero
  | .complex re im => ! (re.isZero && im.isZero)
  | .text s => ! s.isEmpty
  | .surrogates points => ! points.isEmpty
  | .bytes bs => ! bs.isEmpty
  | .ellipsis => true

end Constant

end Typeward
