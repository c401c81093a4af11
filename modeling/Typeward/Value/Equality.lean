import Typeward.Value

/-!
# Equality of values

Numbers are compared by what they denote, whatever their classes; text with text, bytes with bytes;
collections of one kind element by element, or without regard to order; mappings key by key.
Functions, classes and runtime types are equal to themselves, and individuals to none.
-/

namespace Typeward

/-- The number that a constant denotes, as real and imaginary part; integers stay exact. -/
inductive Numeral where
  | int (value : Int)
  | float (value : Binary64)
  | complex (re im : Binary64)
deriving DecidableEq, Repr

/-- The number of a constant, if it is one. -/
def Constant.numeral? : Constant → Option Numeral
  | .bool b => some (.int (if b then 1 else 0))
  | .int n => some (.int n)
  | .float x => some (.float x)
  | .complex re im => some (.complex re im)
  | _ => Option.none

/-- Whether two numbers are equal. -/
def Numeral.equals : Numeral → Numeral → Bool
  | .int m, .int n => m = n
  | .int m, .float y => y.equalsInt m
  | .float x, .int n => x.equalsInt n
  | .float x, .float y => x.equals y
  | .int m, .complex re im => im.isZero && re.equalsInt m
  | .complex re im, .int n => im.isZero && re.equalsInt n
  | .float x, .complex re im => im.isZero && re.equals x
  | .complex re im, .float y => im.isZero && re.equals y
  | .complex a b, .complex c d => a.equals c && b.equals d

/-- Whether two constants are equal. -/
def Constant.equals (a b : Constant) : Bool :=
  match a.numeral?, b.numeral? with
  | some m, some n => m.equals n
  | Option.none, Option.none => a = b
  | _, _ => false

namespace Value

/-- The bytes of a byte string, fixed or not. -/
def bytes? : Value → Option (List UInt8)
  | .constant (.bytes bytes) | .byteArray bytes => some bytes
  | _ => none

/-- Whether two ranges hold the same integers in the same order. -/
def sameRange (first stop step first' stop' step' : Int) : Bool :=
  let size := rangeSize first stop step
  size = rangeSize first' stop' step' &&
    (size = 0 || (first = first' && (size = 1 || step = step')))

mutual

/-- Whether two values are equal. -/
def equals (v w : Value) : Bool :=
  match v with
  | .constant c =>
    match w.plain with
    | .constant d => c.equals d
    | .byteArray bytes => c = .bytes bytes
    | _ => false
  | .byteArray bytes => w.plain.bytes? = some bytes
  | .collection kind items =>
    match w.plain with
    | .collection kind' items' =>
      if kind.isUnordered then
        kind'.isUnordered && items.length = items'.length && eachIn items items'
      else kind = kind' && equalsAll items items'
    | _ => false
  | .mapping _ entries =>
    match w.plain with
    | .mapping _ entries' => entries.length = entries'.length && eachEntryIn entries entries'
    | _ => false
  | .range first stop step =>
    match w with
    | .range first' stop' step' => sameRange first stop step first' stop' step'
    | _ => false
  | .function f =>
    match w with
    | .function g => f = g
    | _ => false
  | .ofClass c =>
    match w with
    | .ofClass d => c = d
    | _ => false
  | .object _ => false
  | .derived _ content => content.equals w
  | .model number =>
    match w with
    | .model number' => number = number'
    | _ => false

/-- Whether two lists have equal values at all places. -/
def equalsAll : List Value → List Value → Bool
  | [], [] => true
  | v :: vs, w :: ws => v.equals w && equalsAll vs ws
  | _, _ => false

/-- Whether each value has an equal one in a list. -/
def eachIn : List Value → List Value → Bool
  | [], _ => true
  | v :: vs, ws => ws.any (v.equals ·) && eachIn vs ws

/-- Whether each entry has an equal one in a list. -/
def eachEntryIn : List (Value × Value) → List (Value × Value) → Bool
  | [], _ => true
  | (k, v) :: rest, other =>
    other.any (fun e => k.equals e.1 && v.equals e.2) && eachEntryIn rest other

end

/-- Whether two values are equal and of one class, as a literal asks of its instances. -/
def isSameLiteral (v w : Value) : Bool := v.classOf = w.classOf && v.equals w

/-- The value at a key of a mapping. -/
def lookup? (entries : List (Value × Value)) (key : Value) : Option Value :=
  (entries.find? fun e => e.1.equals key).map (·.2)

/-- Sets the value at a key; a new key comes last. -/
def insertEntry (key value : Value) : List (Value × Value) → List (Value × Value)
  | [] => [(key, value)]
  | e :: rest => if e.1.equals key then (e.1, value) :: rest else e :: insertEntry key value rest

/-- The entries of a mapping after each in turn is set. -/
def distinctEntries (entries : List (Value × Value)) : List (Value × Value) :=
  entries.foldl (fun found e => insertEntry e.1 e.2 found) []

/-- The elements of a list without those equal to an earlier one. -/
def distinctItems (items : List Value) : List Value :=
  items.foldl (fun found v => if found.any (·.equals v) then found else found ++ [v]) []

mutual

/-- Whether a value can be a key of a mapping or an element of a set: it must be unable to change,
in all its parts. -/
def isHashable : Value → Bool
  | .byteArray _ | .mapping .. => false
  | .collection .tuple items => allHashable items
  | .collection .frozenSet _ => true
  | .collection .. => false
  | .derived _ content => content.isHashable
  | _ => true

/-- Whether all values of a list can be keys. -/
def allHashable : List Value → Bool
  | [] => true
  | v :: rest => v.isHashable && allHashable rest

end

/-- A collection of values; the elements of a set must be hashable, and equal ones count once. -/
def collect? (kind : Collection) (items : List Value) : Option Value :=
  if kind.isUnordered then
    if allHashable items then some (.collection kind (distinctItems items)) else none
  else some (.collection kind items)

/-- A mapping of values; the keys must be hashable, and the last of equal ones counts. -/
def associate? (isReadOnly : Bool) (entries : List (Value × Value)) : Option Value :=
  if allHashable (entries.map (·.1)) then some (.mapping isReadOnly (distinctEntries entries))
  else none

end Value

end Typeward
