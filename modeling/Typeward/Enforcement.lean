import Typeward.Compilation
import Typeward.Sample
import Typeward.Schema.Inspection

/-!
# Running the definitions of a module

The definitions and inspected types of a compiled module, evaluated in order in the small world, and
its checks run against values. A definition that fails leaves its name as it was.
-/

namespace Typeward

namespace Enforcement

/-- Functions of the language itself. -/
def builtinFunctions : List String :=
  ["abs", "aiter", "all", "anext", "any", "ascii", "bin", "breakpoint", "callable", "chr", "compile",
    "delattr", "dir", "divmod", "eval", "exec", "format", "getattr", "globals", "hasattr", "hash",
    "hex", "id", "input", "isinstance", "issubclass", "iter", "len", "locals", "max", "min", "next",
    "oct", "ord", "pow", "print", "repr", "round", "setattr", "sorted", "sum", "vars"]

/-- The class behind a built-in name; two names stand for the class of another. -/
def builtinClass (name : String) : Class :=
  .builtin (if ["EnvironmentError", "IOError"].contains name then "OSError" else name)

/-- The names that definitions can use, with the runtime library under an alias. -/
def openNames (runtime : String) : List (String × Object) :=
  let ofClass (c : Class) : String × Object := (c.name, .value (.ofClass c))
  let members := (Sample.classes.take 2).map fun c => (c.1.name, Value.ofClass c.1)
  (runtime, .library) ::
    (Sample.classes.map fun c => ofClass c.1) ++
    (Sample.functions.map fun f => (f.1, .value (.function (.declared f.1 f.2)))) ++
    [("models", .package "models" members)] ++
    (Registry.builtinClasses.map fun name => (name, .value (.ofClass (builtinClass name)))) ++
    (builtinFunctions.map fun name => (name, .value (.function (.builtin name))))

/-- The runtime type that an object is. -/
def toModel : Object → Run Value
  | .value v => return v
  | _ => throw .noAttribute

/-- Evaluates the definition of an entry and binds its name; answers the name of the type. -/
def define (m : Emitter) (entry : PlanEntry) : Run String := do
  match m.emit entry none with
  | .ok ⟨some (.binding (some label) value), _⟩ =>
    let o ← Inspection.evaluate Sample.world value
    bind label o
    Inspection.name Sample.world (← toModel o)
  | _ => throw .misfit

/-- The entries that define names. -/
def definitions (plan : Plan) : List PlanEntry := plan.entries.filter (·.mode ≠ .assert)

/-- Evaluates all definitions; answers the name of each type or what its definition raised. -/
def defineAll (m : Emitter) (plan : Plan) : Run (List (String × Except Raised String)) :=
  (definitions plan).mapM fun entry => do
    return (entry.label.getD "", ← attempt (define m entry))

/-- Checks a value against the type that a name is bound to. -/
def checkNamed (name : String) (v : Value) : Run Value := do
  let type ← toModel (← lookupName name)
  Inspection.check Sample.world type v name

/-- Checks a value as an assertion does. -/
def checkAsserted (m : Emitter) (plan : Plan) (number : Nat) (v : Value) : Run Value := do
  match (plan.ofMode .assert)[number]? with
  | none => throw .outOfRange
  | some entry =>
    match m.render entry.expr with
    | .error _ => throw .misfit
    | .ok e =>
      let type ← toModel (← Inspection.evaluate Sample.world e)
      Inspection.check Sample.world type v (entry.label.getD "")

end Enforcement

end Typeward
