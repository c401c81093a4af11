import Typeward.Schema.Library

/-!
# Evaluation of type expressions

The source trees that types are rendered to, evaluated in a session: names, attributes, calls of the
runtime library, displays, constants and functions without parameters. The surroundings of a check
follow late references by evaluating them.
-/

namespace Typeward

/-- What an object has under a name. -/
def Object.attribute (o : Object) (name : String) : Run Object :=
  match o with
  | .library =>
    match libraryMember? name with
    | some member => return member
    | none => throw .noAttribute
  | .package _ members =>
    match members.lookup name with
    | some v => return .value v
    | none => throw .noAttribute
  | _ => throw .noAttribute

/-- Calls an object. -/
def Object.call (valueText : Value → Run String) (o : Object) (arguments : List Object)
    (keywords : List (String × Object)) : Run Object :=
  match o with
  | .libraryFunction f =>
    match f.signature.bind arguments keywords with
    | some bound => f.apply valueText bound
    | none => throw .misfit
  | _ => throw .misfit

/-- The keys of a dictionary, which are constants. -/
def constantKeys : List (Option Expr) → Run (List Value)
  | [] => return []
  | some (.constant _ c _) :: rest => return .constant c :: (← constantKeys rest)
  | _ => throw .misfit

mutual

/-- Evaluates an expression. -/
def evaluateWith (valueText : Value → Run String) : Expr → Run Object
  | .name _ id => lookupName id
  | .constant _ c _ => return .value (.constant c)
  | .attribute _ base name => do (← evaluateWith valueText base).attribute name
  | .lambda _ _ body => return .thunk body
  | .display _ .list elements =>
    return .value (.collection .list (← evaluateAll valueText elements))
  | .dict _ keys values => do
    let keys ← constantKeys keys
    let values ← evaluateAll valueText values
    return .value (.mapping false (Value.distinctEntries (keys.zip values)))
  | .call _ f arguments keywords _ => do
    let f ← evaluateWith valueText f
    let arguments ← evaluateObjects valueText arguments
    f.call valueText arguments (← evaluateKeywords valueText keywords)
  | _ => throw .misfit

/-- Evaluates several expressions to values. -/
def evaluateAll (valueText : Value → Run String) : List Expr → Run (List Value)
  | [] => return []
  | e :: rest => do
    let first ← (← evaluateWith valueText e).toValue
    return first :: (← evaluateAll valueText rest)

/-- Evaluates several expressions. -/
def evaluateObjects (valueText : Value → Run String) : List Expr → Run (List Object)
  | [] => return []
  | e :: rest => do
    let first ← evaluateWith valueText e
    return first :: (← evaluateObjects valueText rest)

/-- Evaluates keyword arguments. -/
def evaluateKeywords (valueText : Value → Run String) :
    List (Keyword Expr) → Run (List (String × Object))
  | [] => return []
  | ⟨some name, e⟩ :: rest => do
    let first ← evaluateWith valueText e
    return (name, first) :: (← evaluateKeywords valueText rest)
  | ⟨none, _⟩ :: _ => throw .misfit

end

end Typeward
