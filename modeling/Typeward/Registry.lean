import Typeward.Fault
import Typeward.TypeExpr

/-!
# The registry of definitions

A table of the type names that a module declares. A name is declared before its type is built and
completed afterwards; in between, references to it are late ones if the declaration is recursive,
and faults otherwise. References to other names that the module binds become checks against a
class; those that run on import before the name is bound are delayed. The registry also finds
names for generated code that shadow nothing.

What an operation changes before it fails stays changed: `Registry.Op` answers the table that it
leaves also with a fault.
-/

namespace Typeward

/-- What a name that can be used as a type is bound to. -/
inductive BindingKind where
  | ofClass
  | ofImport
  | ofModule
deriving DecidableEq, Repr

/-- The name of a kind of bindings. -/
def BindingKind.name : BindingKind → String
  | .ofClass => "class"
  | .ofImport => "import"
  | .ofModule => "module"

/-- The kind of bindings with a name. -/
def BindingKind.ofName? (name : String) : Option BindingKind :=
  [ofClass, ofImport, ofModule].find? (·.name = name)

/-- A name that a module binds by other means than a type declaration. -/
structure Binding where
  name : String
  kind : BindingKind
  location : Option Location
deriving DecidableEq, Repr

/-- How far the definition of a name has come. -/
inductive EntryState where
  | pending
  | complete
deriving DecidableEq, Repr

/-- A declared name, with the expression of its definition once that is built. -/
structure Entry where
  name : String
  isRecursive : Bool := false
  location : Option Location := none
  state : EntryState := .pending
  expr : Option TypeExpr := none

/-- Whether the definition of a name is finished. -/
def Entry.isComplete (e : Entry) : Bool := e.state = .complete

/-- The type names of a module. -/
structure Registry where
  /-- The declared names, in the order of their declarations. -/
  entries : List Entry := []
  bindings : List Binding := []
  /-- Names that generated code must not use. -/
  reserved : List String := []
  /-- The names found for generated code, by the names preferred for them. -/
  allocated : List (String × String) := []
  /-- Where the code that is being built runs, if it runs on import. -/
  site : Option Location := none

namespace Registry

/-- Puts a binding into a list: it takes the place of an earlier one of its name. -/
def putBinding (bindings : List Binding) (b : Binding) : List Binding :=
  if bindings.any (·.name == b.name) then
    bindings.map fun old => if old.name == b.name then b else old
  else bindings ++ [b]

/-- A registry for a module that binds and uses given names. -/
def ofModule (bindings : List Binding) (reserved : List String) : Registry :=
  { bindings := bindings.foldl putBinding [], reserved }

/-- The entry of a declared name. -/
def get? (r : Registry) (name : String) : Option Entry := r.entries.find? (·.name == name)

/-- Whether a name is declared. -/
def contains (r : Registry) (name : String) : Bool := (r.get? name).isSome

/-- The number of declared names. -/
def size (r : Registry) : Nat := r.entries.length

/-- The finished entries, in the order of their declarations. -/
def definitions (r : Registry) : List Entry := r.entries.filter (·.isComplete)

/-- All names that can be used as types: the declared ones, then the bound ones. -/
def knownNames (r : Registry) : List String := r.entries.map (·.name) ++ r.bindings.map (·.name)

/-- The binding of a name. -/
def binding? (r : Registry) (name : String) : Option Binding := r.bindings.find? (·.name == name)

/-- Operations on a registry, which may fail and may have changed it before. -/
abbrev Op := ExceptT Fault (StateM Registry)

/-- Changes the entry of a name. -/
def changeEntry (name : String) (change : Entry → Entry) : Op Unit :=
  modify fun r =>
    { r with entries := r.entries.map fun entry => if entry.name == name then change entry else entry }

/-- Declares a name. -/
def declareEntry (name : String) (isRecursive : Bool) (location : Option Location) : Op Unit := do
  if (← get).contains name then throw ⟨.duplicateDeclaration name, location, none⟩
  modify fun r => { r with entries := r.entries ++ [{ name, isRecursive, location }] }

/-- Completes a declared name. -/
def completeEntry (name : String) (expr : TypeExpr) : Op Unit := do
  match (← get).get? name with
  | none => throw ⟨.undeclaredCompletion name, none, none⟩
  | some entry =>
    if entry.isComplete then throw ⟨.repeatedCompletion name, entry.location, none⟩
    changeEntry name ({ · with expr })
    changeEntry name ({ · with state := .complete })

/-- The registry after an operation that does not fail. -/
def after (r : Registry) (op : Op Unit) : Except Fault Registry :=
  let (outcome, r') := op.run.run r
  outcome.map fun _ => r'

/-- The registry in which a name is declared. -/
def declare (r : Registry) (name : String) (isRecursive : Bool) (location : Option Location) :
    Except Fault Registry :=
  r.after (declareEntry name isRecursive location)

/-- The registry in which a declared name is completed. -/
def complete (r : Registry) (name : String) (expr : TypeExpr) : Except Fault Registry :=
  r.after (completeEntry name expr)

/-- Builds under the assumption that the code runs on import at a place, or at no certain time. -/
def evaluatedAt (r : Registry) (site : Option Location) : Registry := { r with site }

/-- The part of a name before its first dot. -/
def rootOf (name : String) : String := String.ofList (name.toList.takeWhile (· != '.'))

/-- Whether a binding is not there yet where the code that is being built runs. -/
def isBoundLater (r : Registry) (b : Binding) : Bool :=
  match r.site, b.location with
  | some site, some place => place.isBelow site
  | _, _ => false

/-- The builtin names that are classes. -/
def builtinClasses : List String :=
  ["bool", "bytearray", "bytes", "classmethod", "complex", "dict", "enumerate", "filter", "float",
    "frozenset", "int", "list", "map", "memoryview", "object", "property", "range", "reversed",
    "set", "slice", "staticmethod", "str", "super", "tuple", "type", "zip", "__class__",
    "__loader__",
    "ArithmeticError", "AssertionError", "AttributeError", "BaseException", "BaseExceptionGroup",
    "BlockingIOError", "BrokenPipeError", "BufferError", "BytesWarning", "ChildProcessError",
    "ConnectionAbortedError", "ConnectionError", "ConnectionRefusedError", "ConnectionResetError",
    "DeprecationWarning", "EOFError", "EncodingWarning", "EnvironmentError", "Exception",
    "ExceptionGroup", "FileExistsError", "FileNotFoundError", "FloatingPointError",
    "FutureWarning", "GeneratorExit", "IOError", "ImportError", "ImportWarning",
    "IndentationError", "IndexError", "InterruptedError", "IsADirectoryError", "KeyError",
    "KeyboardInterrupt", "LookupError", "MemoryError", "ModuleNotFoundError", "NameError",
    "NotADirectoryError", "NotImplementedError", "OSError", "OverflowError",
    "PendingDeprecationWarning", "PermissionError", "ProcessLookupError", "RecursionError",
    "ReferenceError", "ResourceWarning", "RuntimeError", "RuntimeWarning", "StopAsyncIteration",
    "StopIteration", "SyntaxError", "SyntaxWarning", "SystemError", "SystemExit", "TabError",
    "TimeoutError", "TypeError", "UnboundLocalError", "UnicodeDecodeError", "UnicodeEncodeError",
    "UnicodeError", "UnicodeTranslateError", "UnicodeWarning", "UserWarning", "ValueError",
    "Warning", "ZeroDivisionError"]

/-- A check against the class that a name stands for. -/
def classCheck (name : String) : TypeExpr := .combine .irreducible [.name name]

/-- The expression for a reference to a type name. -/
def lookup (r : Registry) (name : String) (location : Option Location) :
    Except Fault TypeExpr :=
  match r.get? name with
  | some entry =>
    if entry.isComplete then .ok (.name name)
    else if entry.isRecursive then .ok (.deferred name)
    else .error ⟨.unresolvedRecursion name, location, none⟩
  | none =>
    let root := rootOf name
    match r.binding? root with
    | some b =>
      if b.kind = .ofModule ∧ root = name then
        .error ⟨.unsupported ("module '" ++ name ++ "' used as a type"), location, none⟩
      else if r.isBoundLater b then .ok (.delayed (classCheck name))
      else .ok (classCheck name)
    | none =>
      if builtinClasses.contains name then .ok (classCheck name)
      else .error (.unresolved name location r.knownNames)

/-- The definition that a reference stands for; other expressions stand for themselves. A name that
is complete has an expression. -/
def resolve (r : Registry) (e : TypeExpr) : Except Fault TypeExpr :=
  match e with
  | .name name | .deferred name =>
    match r.get? name with
    | some entry =>
      match entry.state, entry.expr with
      | .complete, some expr => .ok expr
      | _, _ => .error ⟨.incompleteDefinition name, none, none⟩
    | none => .error (.unresolved name none r.knownNames)
  | e => .ok e

/-- The candidate names for a preferred one: itself, then itself with numbers. -/
def candidate (preferred : String) : Nat → String
  | 0 => preferred
  | n + 1 => preferred ++ "_" ++ toString (n + 1)

/-- Whether a name is taken. -/
def isTaken (r : Registry) (name : String) : Bool := r.reserved.contains name || r.contains name

/-- The first candidate from a number on that is not taken; one of as many candidates as there are
taken names and one more is free. -/
def firstFree (r : Registry) (preferred : String) (number : Nat) : (fuel : Nat) → String
  | 0 => candidate preferred number
  | fuel + 1 =>
    let name := candidate preferred number
    if r.isTaken name then firstFree r preferred (number + 1) fuel else name

/-- Finds a name for generated code. The same preferred name is always answered by the same one. -/
def allocate (r : Registry) (preferred : String) : String × Registry :=
  match r.allocated.lookup preferred with
  | some name => (name, r)
  | none =>
    let name := firstFree r preferred 0 (r.reserved.length + r.entries.length)
    (name, { r with reserved := name :: r.reserved, allocated := (preferred, name) :: r.allocated })

end Registry

end Typeward
