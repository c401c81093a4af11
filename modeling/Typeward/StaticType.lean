import Typeward.Location
import Typeward.Source.Constant

/-!
# Static types

The types that annotations denote, before they are resolved against the names of a module.
-/

namespace Typeward

/-- A field of a record type. -/
structure RecordField (τ : Type) where
  name : String
  type : τ
  /-- Whether the field may be absent. -/
  isOptional : Bool
  location : Option Location

/-- Static types. Every node knows the place it was written at, if there is one. -/
inductive StaticType where
  /-- A primitive type by its canonical name. -/
  | primitive (name : String) (location : Option Location)
  /-- The type of one value. -/
  | literal (value : Constant) (location : Option Location)
  /-- A type parameter; it is erased. -/
  | generic (name : String) (location : Option Location)
  /-- A name, possibly with dots; the arguments are erased. -/
  | reference (name : String) (arguments : List StaticType) (location : Option Location)
  /-- A predicate that refines the other operand of an intersection. -/
  | marker (predicate : String) (location : Option Location)
  /-- A type or the absence of a value. -/
  | nullable (inner : StaticType) (location : Option Location)
  /-- A collection of elements of one type, in a kind of container. -/
  | array (element : StaticType) (container : String) (location : Option Location)
  | dict (key value : StaticType) (location : Option Location)
  /-- A mapping with named fields, in declared order. -/
  | record (fields : List (RecordField StaticType)) (name : Option String)
      (location : Option Location)
  | union (members : List StaticType) (location : Option Location)
  | intersection (members : List StaticType) (location : Option Location)
  /-- A function; without parameters it takes any. -/
  | function (params : Option (List StaticType)) (result : StaticType)
      (location : Option Location)
  /-- A tuple of fixed length, or one of any length with elements of one type. -/
  | tuple (elements : List StaticType) (isVariadic : Bool) (location : Option Location)
deriving Inhabited

namespace StaticType

/-- The place that a type was written at. -/
def location : StaticType → Option Location
  | .primitive _ l | .literal _ l | .generic _ l | .reference _ _ l | .marker _ l | .nullable _ l
  | .array _ _ l | .dict _ _ l | .record _ _ l | .union _ l | .intersection _ l | .function _ _ l
  | .tuple _ _ l => l

mutual

/-- A short description of a type. There is none if it would show an integer that is too long. -/
def describe : StaticType → Option String
  | .primitive name _ | .generic name _ => some name
  | .literal value _ => do return "Literal[" ++ (← value.literal) ++ "]"
  | .reference name arguments _ =>
    if arguments.isEmpty then some name
    else do return name ++ "[" ++ ", ".intercalate (← describeAll arguments) ++ "]"
  | .marker predicate _ => some ("Refinement[" ++ predicate ++ "]")
  | .nullable inner _ => do return "Optional[" ++ (← inner.describe) ++ "]"
  | .array element container _ => do return container ++ "[" ++ (← element.describe) ++ "]"
  | .dict key value _ => do
    let key ← key.describe
    return "dict[" ++ key ++ ", " ++ (← value.describe) ++ "]"
  | .record fields name _ =>
    let shape := "\x7b" ++ ", ".intercalate (fields.map (·.name)) ++ "\x7d"
    match name with
    | none | some "" => some shape
    | some name => some name
  | .union members _ => do return " | ".intercalate (← describeAll members)
  | .intersection members _ => do return " & ".intercalate (← describeAll members)
  | .function params result _ => do
    let params ← describeParams params
    return "Callable[" ++ params ++ ", " ++ (← result.describe) ++ "]"
  | .tuple elements isVariadic _ => do
    let elements ← describeAll elements
    return "tuple[" ++ ", ".intercalate elements ++ (if isVariadic then ", ...]" else "]")

/-- Short descriptions of several types. -/
def describeAll : List StaticType → Option (List String)
  | [] => some []
  | t :: rest => do
    let first ← t.describe
    return first :: (← describeAll rest)

/-- A short description of the parameters of a function. -/
def describeParams : Option (List StaticType) → Option String
  | none => some "..."
  | some params => do return "[" ++ ", ".intercalate (← describeAll params) ++ "]"

end

/-- Whether a type is a marker. -/
def isMarker : StaticType → Bool
  | .marker .. => true
  | _ => false

/-- Whether a type admits the absence of a value and nothing else. -/
def isNone : StaticType → Bool
  | .primitive name _ => name == "none"
  | .literal .none _ => true
  | _ => false

end StaticType

end Typeward
