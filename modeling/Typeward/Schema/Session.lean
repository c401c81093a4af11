import Typeward.Schema.Validation
import Typeward.Source.Tree

/-!
# Sessions

Runtime types are made in a session, which numbers them and holds the names that they are bound to.
A late reference is a slot with an expression; the first use evaluates it and keeps the type found,
so a type that refers to itself meets the very type that it is.
-/

namespace Typeward

/-- The functions that the runtime library offers. -/
inductive LibraryFunction where
  | irreducible | maybe | list | dict | interface | union | intersection | refinement | tuple
  | func | literal | late | check | reify
deriving DecidableEq, Repr

/-- What an expression can denote. -/
inductive Object where
  | value (v : Value)
  /-- A function without parameters that is not called yet. -/
  | thunk (body : Expr)
  | library
  | libraryFunction (f : LibraryFunction)
  /-- A module with its members. -/
  | package (name : String) (members : List (String × Value))
deriving Inhabited

/-- A late reference: how it is looked up, and the number of the type found. -/
structure Slot where
  body : Expr
  found : Option Nat := none

/-- The state of a session. -/
structure Session where
  names : List (String × Object) := []
  models : Array Schema
  slots : Array Slot := #[]

/-- Steps of a session. What was made and found before something is raised stays. -/
abbrev Run := ExceptT Raised (StateM Session)

/-- The primitive types, by the names that the library gives them. -/
def primitives : List (String × Test) :=
  [("Any", .anything), ("Nil", .absence), ("Str", .text), ("Int", .integer), ("Number", .number),
    ("Complex", .complex), ("Bool", .boolean), ("Bytes", .bytes), ("Function", .callable),
    ("Dict", .mapping)]

/-- A session with bound names, in which only the primitive types are made. -/
def Session.start (names : List (String × Object)) : Session :=
  { names, models := (primitives.map fun (name, test) => Schema.irreducible name test).toArray }

/-- The value of a primitive type. -/
def primitive? (name : String) : Option Value :=
  (primitives.findIdx? (·.1 = name)).map .model

/-- Makes a type. -/
def make (s : Schema) : Run Value := do
  let session ← get
  set { session with models := session.models.push s }
  return .model session.models.size

/-- The type that a value is; there is none behind other values. -/
def schemaOf (v : Value) : Run Schema := do
  match v with
  | .model number =>
    match (← get).models[number]? with
    | some s => return s
    | none => throw .noAttribute
  | _ => throw .noAttribute

/-- The types that several values are. -/
def schemasOf (vs : List Value) : Run (List Schema) := vs.mapM schemaOf

/-- Makes a late reference. -/
def makeLate (body : Expr) : Run Value := do
  let session ← get
  set { session with slots := session.slots.push { body } }
  make (.late session.slots.size)

/-- Binds a name. -/
def bind (name : String) (o : Object) : Run Unit :=
  modify fun session => { session with names := (name, o) :: session.names }

/-- What a name is bound to. -/
def lookupName (name : String) : Run Object := do
  match (← get).names.lookup name with
  | some o => return o
  | none => throw (.unboundName name)

/-- The class of runtime types that a class becomes when it is used as one. -/
def Class.test (c : Class) : Test :=
  match c.form with
  | .dictionary => .mapping
  | .openProtocol => .anything
  | _ => .instanceOf c

end Typeward
