import Typeward.Schema.Session

/-!
# The runtime library

The functions that compiled modules call, with their signatures: a call must give no more arguments
by position than there are parameters, name only parameters that are left, each once, and leave out
none without a default. The calls make types in the session.
-/

namespace Typeward

/-- The parameters of a function; those from the first ones on that are required have no default. -/
structure Signature where
  params : List String
  required : Nat
deriving DecidableEq, Repr

namespace Signature

/-- Whether arguments fit: how many are given by position, and which are given by name. -/
def admits (s : Signature) (positional : Nat) (named : List String) : Bool :=
  positional ≤ s.params.length &&
    named.all (s.params.drop positional).contains &&
    named.Nodup &&
    ((s.params.take s.required).drop positional).all named.contains

/-- The argument of each parameter, if the arguments fit. -/
def bind {α : Type} (s : Signature) (positional : List α) (named : List (String × α)) :
    Option (List (Option α)) :=
  if s.admits positional.length (named.map (·.1)) then
    some (positional.map some ++ (s.params.drop positional.length).map (named.lookup ·))
  else none

end Signature

namespace LibraryFunction

/-- The functions by their names. -/
def named : List (String × LibraryFunction) :=
  [("irreducible", .irreducible), ("maybe", .maybe), ("list_of", .list), ("dict_of", .dict),
    ("interface", .interface), ("union", .union), ("intersection", .intersection),
    ("refinement", .refinement), ("tuple_of", .tuple), ("func", .func), ("literal", .literal),
    ("lazy", .late), ("check", .check), ("reify", .reify)]

/-- The signature of a function. -/
def signature : LibraryFunction → Signature
  | .irreducible => ⟨["target"], 1⟩
  | .maybe => ⟨["inner", "name"], 1⟩
  | .list => ⟨["element", "container", "name"], 1⟩
  | .dict => ⟨["key", "value", "name"], 2⟩
  | .interface => ⟨["props", "name"], 1⟩
  | .union | .intersection => ⟨["types", "name"], 1⟩
  | .refinement => ⟨["base", "predicate", "name"], 2⟩
  | .tuple => ⟨["types", "variadic", "name"], 1⟩
  | .func => ⟨["params", "returns", "name"], 2⟩
  | .literal => ⟨["value", "name"], 1⟩
  | .late => ⟨["thunk"], 1⟩
  | .check => ⟨["value", "expected", "label"], 3⟩
  | .reify => ⟨["expected"], 1⟩

end LibraryFunction

/-- What the runtime library offers under a name. -/
def libraryMember? (name : String) : Option Object :=
  match primitive? name with
  | some v => some (.value v)
  | none => (LibraryFunction.named.lookup name).map .libraryFunction

/-- The value that an object is. -/
def Object.toValue : Object → Run Value
  | .value v => return v
  | _ => throw .misfit

/-- The type that an object is. -/
def Object.toSchema : Object → Run Schema
  | .value v => schemaOf v
  | _ => throw .noAttribute

/-- The list of types that an object is. -/
def Object.toSchemas (o : Object) : Run (List Schema) := do
  match ← o.toValue with
  | .collection _ items => schemasOf items
  | _ => throw .misfit

/-- The display name that an argument gives, if it is given. -/
def shownName : Option Object → Option String
  | some (.value (.constant (.text s))) => some s
  | _ => none

/-- The properties that a dictionary of types gives. -/
def toProperties : List (Value × Value) → Run (List (String × Schema))
  | [] => return []
  | (.constant (.text key), v) :: rest => do
    let s ← schemaOf v
    return (key, s) :: (← toProperties rest)
  | _ => throw .misfit

/-- The text of an object. -/
def Object.textWith (valueText : Value → Run String) : Object → Run String
  | .value v => valueText v
  | .thunk _ => return (Function.declared "<lambda>" true).text
  | .library => return "<module>"
  | .libraryFunction _ => return "<function>"
  | .package name _ => return "<module '" ++ name ++ "'>"

/-- Uses an object as a type: runtime types stay what they are, and classes become types. -/
def irreducibleOf (valueText : Value → Run String) : Object → Run Value
  | .value (.model number) => return .model number
  | .value (.ofClass c) => make (.irreducible c.name c.test)
  | o => do throw (.notAType (← o.textWith valueText))

/-- Calls a function of the library with the arguments of its parameters. -/
def LibraryFunction.apply (valueText : Value → Run String) (f : LibraryFunction)
    (arguments : List (Option Object)) : Run Object :=
  match f, arguments with
  | .irreducible, [some target] => return .value (← irreducibleOf valueText target)
  | .maybe, [some inner, shown] =>
    return .value (← make (.maybe (← inner.toSchema) (shownName shown)))
  | .list, [some element, container, shown] =>
    return .value (← make (.list (← element.toSchema) ((shownName container).getD "list")
      (shownName shown)))
  | .dict, [some key, some value, shown] => do
    let key ← key.toSchema
    return .value (← make (.dict key (← value.toSchema) (shownName shown)))
  | .interface, [some props, shown] => do
    match ← props.toValue with
    | .mapping _ entries =>
      return .value (← make (.interface (← toProperties entries) (shownName shown)))
    | _ => throw .misfit
  | .union, [some types, shown] =>
    return .value (← make (.union (← types.toSchemas) (shownName shown)))
  | .intersection, [some types, shown] =>
    return .value (← make (.intersection (← types.toSchemas) (shownName shown)))
  | .refinement, [some base, some predicate, shown] => do
    let base ← base.toSchema
    return .value (← make (.refinement base (← predicate.toValue) (shownName shown)))
  | .tuple, [some types, isVariadic, shown] => do
    let isVariadic :=
      match isVariadic with
      | some (.value (.constant c)) => c.truth
      | _ => false
    return .value (← make (.tuple (← types.toSchemas) isVariadic (shownName shown)))
  | .func, [some params, some result, shown] => do
    let params ←
      match params with
      | .value (.constant .none) => pure none
      | types => do pure (some (← types.toSchemas))
    return .value (← make (.func params (← result.toSchema) (shownName shown)))
  | .literal, [some value, shown] =>
    return .value (← make (.literal (← value.toValue) (shownName shown)))
  | .late, [some (.thunk body)] => return .value (← makeLate body)
  | .reify, [some expected] => return expected
  | _, _ => throw .misfit

end Typeward
