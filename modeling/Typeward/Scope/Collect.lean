import Typeward.Scope

/-!
# Collecting a scope

One pass over a module finds everything it binds. Statements are taken in order, since the
meaning of an import or a class can depend on those before it. Type parameters are bound by
assignments alone, since the grammar has no lists of them.
-/

namespace Typeward

/-- The names that an expression uses or binds. -/
def Expr.names (e : Expr) : List String :=
  let own :=
    match e with
    | .name _ id => [id]
    | .lambda _ params _ => params.toList.map (·.2.name)
    | _ => []
  own ++ e.collectChildren fun c _ => c.names
termination_by sizeOf e

/-- Where a statement stands: how deep in definitions, and whether only type checkers look there. -/
structure ScopeContext where
  depth : Nat
  guarded : Bool

/-- The context of the suite of a definition. -/
def ScopeContext.inside (c : ScopeContext) : ScopeContext := { c with depth := c.depth + 1 }

/-- The place of a node in a file. -/
def locationOf (file : String) (pos : Pos) : Location := ⟨pos.line, pos.column + 1, some file⟩

namespace Scope

/-- Reserves names. -/
def reserve (s : Scope) (names : List String) : Scope :=
  { s with reserved := names.foldl insertName s.reserved }

/-- Reserves the names that expressions use or bind. -/
def reserveIn {α : Type} [Slots α] (s : Scope) (a : α) : Scope :=
  s.reserve ((Slots.slots a).flatMap (·.names))

/-- Notes that a name has no value when the module runs. -/
def addTypeOnly (s : Scope) (name : String) : Scope :=
  { s with typeOnly := insertName s.typeOnly name }

/-- Notes that a name hides a builtin name. -/
def shadow (s : Scope) (name : String) : Scope :=
  { s with shadowed := insertName s.shadowed name }

/-- Binds a name, unless only type checkers look. -/
def bind (s : Scope) (c : ScopeContext) (name : String) (kind : BindingKind)
    (location : Location) : Scope :=
  if c.guarded then s.addTypeOnly name
  else { s with bindings := Registry.putBinding s.bindings ⟨name, kind, some location⟩ }

/-- Makes a local name stand for a special module. -/
def addModule (s : Scope) (name : String) : Scope :=
  { s with specialModules := insertName s.specialModules name }

/-- The import of a module. One without a local name binds the first part of its own; the special
modules in it can then be used with dots. -/
def importModule (s : Scope) (c : ScopeContext) (location : Location) (i : ImportName) : Scope :=
  let isSpecial := Typeward.specialModules.contains i.name
  let (local_, s) : String × Scope :=
    match i.asName with
    | some name => (name, if isSpecial then s.addModule name else s)
    | none =>
      let below (module_ : String) : Bool := module_ == i.name || module_.startsWith (i.name ++ ".")
      (Registry.rootOf i.name, (Typeward.specialModules.filter below).foldl addModule s)
  let s := s.reserve [local_]
  if c.depth = 0 && ! isSpecial then s.bind c local_ .ofModule location else s

/-- The import of a name from a module. -/
def importName (s : Scope) (c : ScopeContext) (location : Location) (source : String)
    (i : ImportName) : Scope :=
  if i.name = "*" then s
  else
    let local_ := i.asName.getD i.name
    let s := s.reserve [local_]
    if source = "__future__" then s
    else if Typeward.specialModules.contains source then
      { s with specialNames := (local_, i.name) :: s.specialNames }
    else if Typeward.specialModules.contains (source ++ "." ++ i.name) then s.addModule local_
    else if c.depth = 0 then s.bind c local_ .ofImport location
    else s

/-- The calls that make type parameters. -/
def parameterFactories : List String := ["TypeVar", "ParamSpec", "TypeVarTuple"]

/-- An assignment to one name at the top of a module. -/
def assignName (s : Scope) (c : ScopeContext) (name : String) (value : Expr) : Scope :=
  let isParameter :=
    match value with
    | .call _ func .. => (s.canonical func).any parameterFactories.contains
    | _ => false
  let s := if isParameter then { s with generics := insertName s.generics name } else s
  let s := s.shadow name
  if c.guarded then s.addTypeOnly name else s

/-- Whether a class is a record: a base is the marker of records or a record found before. -/
def isRecord (s : Scope) (bases : List Expr) : Bool :=
  bases.any fun base =>
    s.canonical base == some "TypedDict" || base.dotted?.any s.recordNames.contains

/-- The class statement itself. -/
def defineClass (s : Scope) (c : ScopeContext) (location : Location) (head : ClassHead) : Scope :=
  let s := s.reserve [head.name]
  if c.depth = 0 then
    let s := s.shadow head.name
    if c.guarded then s.addTypeOnly head.name
    else if s.isRecord head.bases then
      { s with recordNames := insertName s.recordNames head.name }
    else s.bind c head.name .ofClass location
  else s

/-- The names of parameters and in their hints. -/
def reserveParameters (s : Scope) (params : Parameters Expr) : Scope :=
  let all := params.toList.map (·.2)
  let s := s.reserve (all.map (·.name))
  (s.reserveIn (all.filterMap (·.hint))).reserveIn (all.filterMap (·.initial))

/-- A simple statement. -/
def collectSimple (file : String) (c : ScopeContext) (s : Scope) (pos : Pos) (t : Simple) : Scope :=
  let location := locationOf file pos
  match t with
  | .importModules names => names.foldl (fun s i => s.importModule c location i) s
  | .importNames source names _ =>
    names.foldl (fun s i => s.importName c location (source.getD "") i) s
  | .assign [.name _ id] value _ =>
    (if c.depth = 0 then s.assignName c id value else s).reserveIn t
  | .annotated (.name _ id) .. =>
    (if c.depth = 0 && c.guarded then s.addTypeOnly id else s).reserveIn t
  | _ => s.reserveIn t

/-- The header of a clause. -/
def collectHead (s : Scope) (head : ClauseHead) : Scope :=
  let s := s.reserveIn head
  match head with
  | .handler _ _ name => s.reserve name.toList
  | .caseOf pattern _ => s.reserve pattern.bound
  | _ => s

mutual

/-- A statement with its suites. -/
def collectStmt (file : String) (c : ScopeContext) (s : Scope) : Stmt → Scope
  | .simple pos t => s.collectSimple file c pos t
  | .function _ head body =>
    let s := s.reserve [head.name]
    let s := if c.depth = 0 then s.shadow head.name else s
    let s := (s.reserveParameters head.params).reserveIn head.returns
    (collectAll file c.inside s body).reserveIn head.decorators
  | .classDef pos head body =>
    let s := s.defineClass c (locationOf file pos) head
    let s := (s.reserveIn head.bases).reserveIn head.keywords
    (collectAll file c.inside s body).reserveIn head.decorators
  | .branch _ test body orelse =>
    let guarded := s.isGuard test
    let s := s.reserveIn test
    let s := collectAll file (if guarded then { c with guarded := true } else c) s body
    collectAll file c s orelse
  | .compound _ clauses => collectClauses file c s clauses

/-- Statements in order. -/
def collectAll (file : String) (c : ScopeContext) (s : Scope) : List Stmt → Scope
  | [] => s
  | t :: rest => collectAll file c (collectStmt file c s t) rest

/-- Clauses in order. -/
def collectClauses (file : String) (c : ScopeContext) (s : Scope) : List (Clause Stmt) → Scope
  | [] => s
  | ⟨head, body⟩ :: rest =>
    collectClauses file c (collectAll file c (s.collectHead head) body) rest

end

/-- The scope of a module. -/
def ofModule (file : String) (m : Module) : Scope := collectAll file ⟨0, false⟩ {} m

end Scope

end Typeward
