import Typeward.Build
import Typeward.Declaration

/-!
# Plans

What is emitted for the declarations of a module, in order: a definition for every type, a check for
every parameter with a hint and for every cast, a binding for every inspected type. A type may refer
only to types above it, or to itself if it is marked recursive.
-/

namespace Typeward

/-- What is emitted for an entry. -/
inductive Mode where
  | assert
  | define
  | reify
deriving DecidableEq, Repr

/-- The name of a mode. -/
def Mode.name : Mode → String
  | .assert => "assert"
  | .define => "define"
  | .reify => "reify"

/-- The mode with a name. -/
def Mode.ofName? (name : String) : Option Mode := [assert, define, reify].find? (·.name = name)

/-- Where an entry belongs. -/
inductive Site where
  | type (declaration : TypeDeclaration)
  | parameter (parameter : TypedParameter)
  | cast (declaration : CastDeclaration)
  | reify (declaration : ReifyDeclaration)
  | function (declaration : FunctionDeclaration)

/-- One thing to emit. -/
structure PlanEntry where
  site : Site
  expr : TypeExpr
  mode : Mode
  label : Option String
  /-- The number of the declaration that the entry belongs to. -/
  source : Nat

/-- The function among declarations that an entry belongs to. -/
def PlanEntry.owner? (e : PlanEntry) (declarations : List Declaration) :
    Option FunctionDeclaration :=
  match declarations[e.source]? with
  | some (.function d) => some d
  | _ => none

/-- The request that an entry answers, if it is one for a model. -/
def PlanEntry.request? (e : PlanEntry) : Option ReifyDeclaration :=
  match e.site with
  | .reify d => some d
  | _ => none

/-- Everything to emit for a module, in order. -/
structure Plan where
  entries : List PlanEntry
  refinements : List RefinementRequest

namespace Plan

/-- The entries of one mode. -/
def ofMode (p : Plan) (mode : Mode) : List PlanEntry := p.entries.filter (·.mode = mode)

/-- The entries of a declaration. -/
def ofDeclaration (p : Plan) (number : Nat) : List PlanEntry :=
  p.entries.filter (·.source = number)

end Plan

/-- The type of the value that a parameter receives. -/
def receivedType (kind : ParameterKind) (type : StaticType) (location : Option Location) :
    StaticType :=
  match kind with
  | .variadic => .tuple [type] true location
  | .keywordVariadic => .dict (.primitive "str" none) type location
  | _ => type

/-- The state of a planner: the registry and the refinements met so far. -/
structure PlanState where
  registry : Registry
  refinements : List RefinementRequest := []

/-- Takes a build into account. -/
def PlanState.take {α : Type} (s : PlanState) (b : Built α) : Except Fault (α × PlanState) := do
  return (← b.outcome, { s with refinements := s.refinements ++ b.requests })

/-- The definition of a type. The name is declared first, so that the type can refer to itself. -/
def planType (s : PlanState) (number : Nat) (d : TypeDeclaration) :
    Except Fault (List PlanEntry × PlanState) :=
  if ! d.isTopLevel then
    .error ⟨.unsupported ("type declaration '" ++ d.name ++ "' outside module level"), d.location,
      none⟩
  else do
    let registry ← s.registry.declare d.name d.isRecursive d.location
    let (expr, s) ← { s with registry }.take (build (registry.evaluatedAt d.location) d.type)
    let expr := expr.named d.name
    let registry ← s.registry.complete d.name expr
    return ([⟨.type d, expr, .define, some d.name, number⟩], { s with registry })

/-- The checks of parameters. -/
def planParameters (s : PlanState) (number : Nat) :
    List TypedParameter → Except Fault (List PlanEntry × PlanState)
  | [] => .ok ([], s)
  | p :: rest =>
    match p.type with
    | none => planParameters s number rest
    | some type => do
      let (expr, s) ← s.take (build s.registry (receivedType p.kind type p.location))
      let (entries, s) ← planParameters s number rest
      return (⟨.parameter p, expr, .assert, some p.name, number⟩ :: entries, s)

/-- The check of a cast. -/
def planCast (s : PlanState) (number : Nat) (d : CastDeclaration) :
    Except Fault (List PlanEntry × PlanState) := do
  let (expr, s) ← s.take (build (s.registry.evaluatedAt d.location) d.type)
  return ([⟨.cast d, expr, .assert, some d.label, number⟩], s)

/-- The binding of an inspected type. -/
def planReify (s : PlanState) (number : Nat) (d : ReifyDeclaration) :
    Except Fault (List PlanEntry × PlanState) := do
  let (expr, s) ← s.take (reify (s.registry.evaluatedAt d.location) d.type)
  return ([⟨.reify d, expr, .reify, some d.target, number⟩], s)

/-- The entries of a declaration. -/
def planDeclaration (s : PlanState) (number : Nat) :
    Declaration → Except Fault (List PlanEntry × PlanState)
  | .type d => planType s number d
  | .function d => planParameters s number d.params
  | .cast d => planCast s number d
  | .reify d => planReify s number d

/-- The entries of declarations from a number on. -/
def planFrom (s : PlanState) (number : Nat) :
    List Declaration → Except Fault (List PlanEntry × PlanState)
  | [] => .ok ([], s)
  | d :: rest => do
    let (first, s) ← planDeclaration s number d
    let (more, s) ← planFrom s (number + 1) rest
    return (first ++ more, s)

/-- Plans declarations against a registry; answers also the registry with their definitions. -/
def plan (registry : Registry) (declarations : List Declaration) :
    Except Fault (Plan × Registry) := do
  let (entries, s) ← planFrom { registry } 0 declarations
  return (⟨entries, s.refinements⟩, s.registry)

end Typeward
