import Typeward.Registry
import Typeward.Source.StatementSlots

/-!
# Scopes

What a module binds, as far as annotations depend on it: the names and modules that are
interpreted by their meaning, the classes and imports that can be checked against, and the names
that have no value when the module runs.
-/

namespace Typeward

/-- The modules whose exports are interpreted by name. -/
def specialModules : List String :=
  ["typing", "typing_extensions", "collections.abc", "builtins", "typecomb.markers"]

/-- The builtin names that are types without an import. -/
def builtinTypeNames : List String :=
  ["int", "float", "complex", "str", "bytes", "bool", "object", "list", "dict", "tuple", "set",
    "frozenset"]

/-- What a module binds. -/
structure Scope where
  /-- Local names of exports of special modules, the latest first. -/
  specialNames : List (String × String) := []
  /-- Local names of special modules, possibly with dots. -/
  specialModules : List String := []
  /-- Classes, imported names and imported modules. -/
  bindings : List Binding := []
  /-- Type parameters. -/
  generics : List String := []
  /-- Classes found to be records. -/
  recordNames : List String := []
  /-- Names bound where only type checkers look. -/
  typeOnly : List String := []
  /-- Names that hide a builtin name. -/
  shadowed : List String := []
  /-- All names that the module uses or binds. -/
  reserved : List String := []

/-- Adds a name to a list without repetitions. -/
def insertName (names : List String) (name : String) : List String :=
  if names.contains name then names else name :: names

namespace Scope

/-- The special form or builtin type that an expression refers to. -/
def canonical (s : Scope) : Expr → Option String
  | .name _ id =>
    match s.specialNames.lookup id with
    | some special => some special
    | none => if builtinTypeNames.contains id && ! s.shadowed.contains id then some id else none
  | .attribute _ base attr =>
    match base.dotted? with
    | some name => if s.specialModules.contains name then some attr else none
    | none => none
  | _ => none

/-- Whether a condition holds for type checkers alone. -/
def isGuard (s : Scope) (test : Expr) : Bool := s.canonical test == some "TYPE_CHECKING"

/-- Whether a name, possibly with dots, has no value when the module runs. -/
def isTypeOnly (s : Scope) (name : String) : Bool :=
  let root := Registry.rootOf name
  s.typeOnly.contains root && ! s.bindings.any (·.name == root)

/-- The reserved names, each once and in order. -/
def sortedReserved (s : Scope) : List String :=
  (s.reserved.mergeSort fun a b => decide (a ≤ b)).eraseReps

end Scope

end Typeward
