import Typeward.Lowering

/-!
# Splicing

Puts the code for the entries of a plan into the tree of a module, at the nodes that carry the
numbers of their declarations. Definitions and inspected types take the place of their statements,
checks of casts that of the calls; checks of parameters go first in the body, behind its
documentation, and the signature loses its hints. What was emitted is recorded; if anything was,
the runtime library is imported. Type aliases are spliced as the assignments that they are, and there
are no lists of type parameters to be dropped, as the grammar has none.
-/

namespace Typeward

/-- Splicing can fail, and records the entries for which code was emitted. -/
abbrev Splice := StateT (List PlanEntry) (Except Failure)

/-- What splicing reads. -/
structure Splicer where
  emitter : Emitter
  plan : Plan

namespace Splicer

/-- Emits the code for an entry. -/
def emit (k : Splicer) (entry : PlanEntry) (value : Option Expr) : Splice (Option Fragment) :=
  fun log => do
    let emitted ← (k.emitter.emit entry value).mapError .emission
    return (emitted.fragment, if emitted.counts then log ++ [entry] else log)

/-- The entry of a declaration that has one. -/
def entry? (k : Splicer) (number : Nat) : Option PlanEntry := (k.plan.ofDeclaration number).head?

/-- An expression with its casts replaced, the inner ones first. -/
def spliceExpr (k : Splicer) (e : Expr) : Splice Expr := do
  let e ← e.mapChildren fun child _ => k.spliceExpr child
  match e with
  | .call _ _ [_, value] [] (some number) =>
    match k.entry? number with
    | none => return e
    | some entry =>
      match ← k.emit entry (some value) with
      | some (.expression replacement) => return replacement
      | _ => return e
  | _ => return e
termination_by sizeOf e

/-- All expressions that a value holds, with their casts replaced. -/
def spliceIn {α : Type} [Slots α] (k : Splicer) (a : α) : Splice α :=
  Slots.mapM k.spliceExpr a

/-- The binding for a declaration, in place of its statement. -/
def spliceBinding (k : Splicer) (number : Nat) (given : Simple) : Splice Simple := do
  match k.entry? number with
  | none => return given
  | some entry =>
    match ← k.emit entry none with
    | some (.binding (some name) value) => return .assign [.name .synthetic name] value none
    | _ => return given

/-- A simple statement. -/
def spliceSimple (k : Splicer) (t : Simple) : Splice Simple :=
  match t with
  | .annotated _ _ _ _ (some number) | .assign _ _ (some number) => k.spliceBinding number t
  | t => k.spliceIn t

/-- The checks of parameters as statements. -/
def spliceChecks (k : Splicer) (pos : Pos) : List PlanEntry → Splice (List Stmt)
  | [] => pure []
  | entry :: rest => do
    let fragment ← k.emit entry none
    let more ← k.spliceChecks pos rest
    match fragment with
    | some (.statement e) => return .simple pos (.expression e) :: more
    | _ => return more

/-- Puts statements behind the documentation of a suite. -/
def insertBehindDocstring (new body : List Stmt) : List Stmt :=
  let count := if (docstring? body).isSome then 1 else 0
  body.take count ++ new ++ body.drop count

/-- A parameter without its hint. -/
def stripHint (p : Parameter Expr) : Parameter Expr := { p with hint := none }

/-- A function's header without its hints. -/
def stripHints (head : FunctionHead) : FunctionHead :=
  let params : Parameters Expr :=
    ⟨head.params.positionalOnly.map stripHint, head.params.positional.map stripHint,
      head.params.variadic.map stripHint, head.params.keywordOnly.map stripHint,
      head.params.keywordVariadic.map stripHint⟩
  { head with params, returns := none }

mutual

/-- A statement with its suites. -/
def spliceStmt (k : Splicer) : Stmt → Splice Stmt
  | .simple pos t => do return .simple pos (← k.spliceSimple t)
  | .function pos head body => do
    let params ← k.spliceIn head.params
    let body ← k.spliceAll body
    let decorators ← k.spliceIn head.decorators
    let head := { head with params, decorators }
    match head.decl with
    | none => return .function pos head body
    | some number =>
      let checks ← k.spliceChecks pos (k.plan.ofDeclaration number)
      return .function pos (stripHints head) (insertBehindDocstring checks body)
  | .classDef pos head body => do
    match head.decl with
    | some number =>
      let replaced ← k.spliceBinding number .pass
      return .simple pos replaced
    | none =>
      let bases ← k.spliceIn head.bases
      let keywords ← k.spliceIn head.keywords
      let body ← k.spliceAll body
      let decorators ← k.spliceIn head.decorators
      return .classDef pos { head with bases, keywords, decorators } body
  | .branch pos test body orelse => do
    let test ← k.spliceIn test
    let body ← k.spliceAll body
    return .branch pos test body (← k.spliceAll orelse)
  | .compound pos clauses => do return .compound pos (← k.spliceClauses clauses)

/-- Statements in order. -/
def spliceAll (k : Splicer) : List Stmt → Splice (List Stmt)
  | [] => pure []
  | t :: rest => do
    let first ← k.spliceStmt t
    return first :: (← k.spliceAll rest)

/-- Clauses in order. -/
def spliceClauses (k : Splicer) : List (Clause Stmt) → Splice (List (Clause Stmt))
  | [] => pure []
  | ⟨head, body⟩ :: rest => do
    let head ← k.spliceIn head
    let body ← k.spliceAll body
    return ⟨head, body⟩ :: (← k.spliceClauses rest)

end

end Splicer

/-- Whether a statement imports a feature of the language itself. -/
def isFutureImport : Stmt → Bool
  | .simple _ (.importNames (some source) _ _) => source == "__future__"
  | _ => false

/-- Puts a statement behind the documentation of a module and the imports that have to come first.
-/
def insertImport (statement : Stmt) (m : Module) : Module :=
  let count := if (docstring? m).isSome then 1 else 0
  let rest := m.drop count
  m.take count ++ rest.takeWhile isFutureImport ++ statement :: rest.dropWhile isFutureImport

/-- The import of the runtime library under its local name. -/
def runtimeImport (runtime runtimeModule : String) : Stmt :=
  .simple .synthetic (.importModules
    [⟨runtimeModule, if runtime = runtimeModule then none else some runtime⟩])

/-- A module with the code for a plan in it. -/
structure Spliced where
  tree : Module
  /-- The entries for which code was emitted. -/
  emitted : List PlanEntry

/-- Splices the code for a plan into a lowered module. -/
def splice (emitter : Emitter) (plan : Plan) (runtimeModule : String) (tree : Module) :
    Except Failure Spliced := do
  let (tree, emitted) ← (Splicer.spliceAll ⟨emitter, plan⟩ tree).run []
  if emitted.isEmpty then return ⟨tree, emitted⟩
  else return ⟨insertImport (runtimeImport emitter.runtime runtimeModule) tree, emitted⟩

end Typeward
