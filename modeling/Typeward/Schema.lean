import Typeward.Value.Equality

/-!
# Runtime types

The types that checks are run with. A late reference stands for a type that is looked up when it is
first used, so that types can refer to themselves; it is known by the number of its slot. What a
class or a refining function means is left to a `World`, so that laws about checks hold in all.
-/

namespace Typeward

/-- What decides membership in an irreducible type. -/
inductive Test where
  | anything
  | absence
  | text
  | integer
  /-- Integers and floating-point numbers, without booleans. -/
  | number
  | complex
  | boolean
  | bytes
  | callable
  | mapping
  | instanceOf (c : Class)
deriving DecidableEq, Repr

/-- Runtime types. Each but the irreducible and the late ones may carry a display name. -/
inductive Schema where
  | irreducible (name : String) (test : Test)
  | maybe (inner : Schema) (shown : Option String)
  | list (element : Schema) (container : String) (shown : Option String)
  | dict (key value : Schema) (shown : Option String)
  /-- A mapping with known keys. -/
  | interface (props : List (String × Schema)) (shown : Option String)
  | union (members : List Schema) (shown : Option String)
  | intersection (members : List Schema) (shown : Option String)
  | refinement (base : Schema) (predicate : Value) (shown : Option String)
  | tuple (elements : List Schema) (isVariadic : Bool) (shown : Option String)
  /-- A function; without parameters it takes any. -/
  | func (params : Option (List Schema)) (result : Schema) (shown : Option String)
  | literal (value : Value) (shown : Option String)
  | late (slot : Nat)
deriving Inhabited

/-- A value that a type rejects: where it was found, and how it and the type are shown. -/
structure Mismatch where
  value : Value
  path : List String
  expected : Schema
  valueText : String
  expectedName : String

/-- The wording of a mismatch. -/
def Mismatch.message (e : Mismatch) : String :=
  let place := if e.path.isEmpty then "value" else "/".intercalate e.path
  "Invalid value " ++ e.valueText ++ " supplied to " ++ place ++
    " (expected " ++ e.expectedName ++ ")"

/-- What can go wrong while checks are set up and run. -/
inductive Raised where
  /-- A value is not of the type that it is checked against. -/
  | invalid (mismatch : Mismatch)
  /-- A name is not bound. -/
  | unboundName (name : String)
  /-- An object lacks what is asked of it. -/
  | noAttribute
  /-- An operation does not fit its operands. -/
  | misfit
  /-- A value that is no class is used as a type; the value is given by its text. -/
  | notAType (text : String)
  /-- An operation fits its operands but not their values. -/
  | unfitValue
  /-- A list type is of an unknown kind of container. -/
  | unknownContainer (container : String)
  /-- A variadic tuple type lacks its element. -/
  | noElement
  /-- An entry that does not exist is asked for. -/
  | outOfRange
  /-- A check comes back to itself. -/
  | endless

/-- What classes and functions mean. -/
structure World where
  isInstance : Value → Class → Bool
  isCallable : Value → Bool
  /-- Calls the first value with the second one and takes the result as a condition. -/
  holds : Value → Value → Except Raised Bool

namespace Schema

/-- The display name of a type, if it carries one. -/
def shown? : Schema → Option String
  | .irreducible name _ => some name
  | .maybe _ shown | .list _ _ shown | .dict _ _ shown | .interface _ shown | .union _ shown
  | .intersection _ shown | .refinement _ _ shown | .tuple _ _ shown | .func _ _ shown
  | .literal _ shown => shown.filter (· ≠ "")
  | .late _ => none

/-- The name of the class of types that a type belongs to. -/
def className : Schema → String
  | .irreducible .. => "Irreducible"
  | .maybe .. => "Maybe"
  | .list .. => "ListOf"
  | .dict .. => "DictOf"
  | .interface .. => "Interface"
  | .union .. => "UnionOf"
  | .intersection .. => "IntersectionOf"
  | .refinement .. => "Refinement"
  | .tuple .. => "TupleOf"
  | .func .. => "Func"
  | .literal .. => "LiteralOf"
  | .late _ => "Lazy"

/-- The kind of a type; that of a late reference is known only once it is looked up. -/
def kind : Schema → String
  | .irreducible .. | .late _ => "irreducible"
  | .maybe .. => "maybe"
  | .list .. => "list"
  | .dict .. => "dict"
  | .interface .. => "interface"
  | .union .. => "union"
  | .intersection .. => "intersection"
  | .refinement .. => "refinement"
  | .tuple .. => "tuple"
  | .func .. => "func"
  | .literal .. => "literal"

/-- The types that a type is made of. -/
def components : Schema → List Schema
  | .maybe inner _ => [inner]
  | .list element .. => [element]
  | .dict key value _ => [key, value]
  | .interface props _ => props.map (·.2)
  | .union members _ | .intersection members _ | .tuple members _ _ => members
  | .refinement base .. => [base]
  | .func params result _ => params.getD [] ++ [result]
  | .irreducible .. | .literal .. | .late _ => []

end Schema

/-- The name that a value shows when it serves as a refining function. -/
def Value.predicateName : Value → String
  | .function f => f.name?.getD "<predicate>"
  | .ofClass c => c.name
  | _ => "<predicate>"

end Typeward
