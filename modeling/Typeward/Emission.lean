import Typeward.Options
import Typeward.Plan
import Typeward.Render

/-!
# Emission

The code for each entry of a plan. Checks call the runtime library and hand the checked value on, so
they leave a program as it is when they succeed. Without assertions, checks of parameters vanish and
checks of casts shrink to the value; definitions stay.
-/

namespace Typeward

/-- Code for an entry. -/
inductive Fragment where
  /-- A statement that evaluates an expression. -/
  | statement (expr : Expr)
  /-- An expression that takes the place of another. -/
  | expression (expr : Expr)
  /-- A statement that binds a name. -/
  | binding (name : Option String) (value : Expr)

/-- Why an entry has no code. -/
inductive EmissionFault where
  /-- The value of a cast is not given. -/
  | missingValue
  /-- Nothing can be checked at a site of this kind. -/
  | noCheckAt (kind : String)
  | unrenderable (fault : RenderFault)
deriving DecidableEq, Repr

/-- The wording of a fault of emission that is stated by the compiler. -/
def EmissionFault.message : EmissionFault → Option String
  | .missingValue => some "cast assertions need the value expression"
  | .noCheckAt kind => some ("Cannot assert at " ++ kind)
  | .unrenderable _ => none

/-- How code is emitted: under which alias of the runtime library, and whether with checks. -/
structure Emitter where
  runtime : String
  skipAsserts : Bool

/-- An emitter for options; an empty alias stands for the preferred one. -/
def Emitter.ofOptions (options : Options) (runtime : Option String) : Emitter :=
  match runtime with
  | none | some "" => ⟨options.runtimeAlias, options.skipAsserts⟩
  | some runtime => ⟨runtime, options.skipAsserts⟩

/-- The tree of a runtime expression. -/
def Emitter.render (m : Emitter) (e : TypeExpr) : Except EmissionFault Expr :=
  (Typeward.render m.runtime e).mapError .unrenderable

/-- The check of a value against the type of an entry. -/
def Emitter.check (m : Emitter) (entry : PlanEntry) (value : Expr) : Except EmissionFault Expr := do
  let type ← m.render entry.expr
  return callExpr (runtimeExpr m.runtime "check") [value, type, nameConstant entry.label] []

/-- What is emitted: a fragment, if any, and whether it counts as emitted code. -/
structure Emitted where
  fragment : Option Fragment
  counts : Bool

/-- The code for an entry; casts need the expression that is cast. -/
def Emitter.emit (m : Emitter) (entry : PlanEntry) (value : Option Expr) :
    Except EmissionFault Emitted :=
  match entry.mode with
  | .assert =>
    if m.skipAsserts then
      match entry.site, value with
      | .cast _, some value => .ok ⟨some (.expression value), false⟩
      | .cast _, none => .error .missingValue
      | _, _ => .ok ⟨none, false⟩
    else
      match entry.site with
      | .parameter p => do
        return ⟨some (.statement (← m.check entry (.name .synthetic p.name))), true⟩
      | .cast _ =>
        match value with
        | some value => do return ⟨some (.expression (← m.check entry value)), true⟩
        | none => .error .missingValue
      | .type _ => .error (.noCheckAt "TypeDeclaration")
      | .reify _ => .error (.noCheckAt "ReifyDeclaration")
      | .function _ => .error (.noCheckAt "FunctionDeclaration")
  | .define => do return ⟨some (.binding entry.label (← m.render entry.expr)), true⟩
  | .reify => do
    let model := callExpr (runtimeExpr m.runtime "reify") [← m.render entry.expr] []
    return ⟨some (.binding entry.label model), true⟩

end Typeward
