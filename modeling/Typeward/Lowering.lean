import Typeward.Hint

/-!
# Lowering

The second pass over a module collects its declarations in source order. The tree that comes back
has, at every node that made a declaration, the number of that declaration, and is the same
otherwise. A type alias is an assignment with a hint; the grammar has no other statement for one.
-/

namespace Typeward

open Source

/-- What lowering has found so far. -/
structure LowerState where
  declarations : List Declaration := []
  /-- The fields of the records so far, the latest first. -/
  records : List (String × List (RecordField StaticType)) := []

/-- Lowering can fail, and collects on the way. -/
abbrev Lower := StateT LowerState (Except Failure)

/-- What lowering reads. -/
structure LowerContext where
  hints : HintContext
  comments : List (Nat × String)
  recursiveMarker : String
  /-- How many definitions are around the current place. -/
  depth : Nat := 0

namespace LowerContext

/-- The context of the suite of a definition. -/
def inside (c : LowerContext) : LowerContext := { c with depth := c.depth + 1 }

/-- The scope of the module. -/
def scope (c : LowerContext) : Scope := c.hints.scope

/-- The place of a node. -/
def location (c : LowerContext) (pos : Pos) : Option Location := some (c.hints.location pos)

/-- Whether the comment on a line, or on the line above, marks a declaration as recursive. A line
without a comment has an empty one. -/
def isRecursive (c : LowerContext) (pos : Pos) : Bool :=
  let comment (line : Nat) : String := Text.lowerCase ((c.comments.lookup line).getD "")
  let marker := Text.lowerCase c.recursiveMarker
  comment (pos.line - 1) == marker || comment pos.line == marker

end LowerContext

/-- Adds a declaration and answers its number. -/
def declare (d : Declaration) : Lower Nat := fun s =>
  .ok (s.declarations.length, { s with declarations := s.declarations ++ [d] })

/-- The type that a hint denotes. -/
def lowerHint (c : LowerContext) (hint : Expr) : Lower StaticType := fun s => do
  return (← c.hints.denote hint, s)

/-- Whether an expression calls a special form. -/
def callsSpecial (c : LowerContext) (special : String) : Expr → Bool
  | .call _ func .. => c.scope.canonical func == some special
  | _ => false

/-- A fault about a construct. -/
def lowerFault {α : Type} (c : LowerContext) (e : Expr) (construct : String) : Lower α := fun _ =>
  c.hints.unsupported e construct

/-- An expression with the casts in it. A cast is declared before the ones inside its value. -/
def lowerExpr (c : LowerContext) (e : Expr) : Lower Expr :=
  if callsSpecial c "cast" e then
    match e with
    | .call pos func [type, value] [] _ => do
      let lowered ← lowerHint c type
      let label ← fun s => return (← HintContext.text value, s)
      let number ← declare (.cast ⟨lowered, label, c.location pos⟩)
      let value ← lowerExpr c value
      return .call pos func [type, value] [] (some number)
    | e => lowerFault c e "cast() takes a type and a value"
  else e.mapChildren fun child _ => lowerExpr c child
termination_by sizeOf e

/-- All expressions that a value holds, in order. -/
def lowerIn {α : Type} [Slots α] (c : LowerContext) (a : α) : Lower α :=
  Slots.mapM (lowerExpr c) a

/-- The initial values of parameters: by position first. -/
def lowerInitials (c : LowerContext) (params : Parameters Expr) : Lower (Parameters Expr) := do
  let positionalOnly ← lowerIn c params.positionalOnly
  let positional ← lowerIn c params.positional
  let keywordOnly ← lowerIn c params.keywordOnly
  return { params with positionalOnly, positional, keywordOnly }

/-- The parameters of a function with the types of their hints. -/
def lowerParameters (c : LowerContext) (params : Parameters Expr) : Lower (List TypedParameter) :=
  params.toList.mapM fun (kind, p) => do
    let type ← p.hint.mapM (lowerHint c)
    return ⟨p.name, type, kind, c.location p.pos⟩

/-- Puts a field into a list: it takes the place of an earlier one of its name. -/
def putField (fields : List (RecordField StaticType)) (f : RecordField StaticType) :
    List (RecordField StaticType) :=
  if fields.any (·.name == f.name) then
    fields.map fun old => if old.name == f.name then f else old
  else fields ++ [f]

/-- The fields that a class inherits; none if it is no record. -/
def inheritedFields (c : LowerContext) (records : List (String × List (RecordField StaticType)))
    (bases : List Expr) : Option (List (RecordField StaticType)) :=
  let found := bases.filterMap fun base =>
    if c.scope.canonical base == some "TypedDict" then some []
    else base.dotted?.bind fun name => records.lookup name
  if found.isEmpty then none else some found.flatten

/-- Whether the fields of a record are required unless they say otherwise. -/
def isTotal (keywords : List (Keyword Expr)) : Bool :=
  keywords.foldl (fun total k =>
    match k.name, k.value with
    | some "total", .constant _ value _ => value.truth
    | _, _ => total) true

/-- A field of a record; its hint may say whether it is required. -/
def lowerField (c : LowerContext) (total : Bool) (pos : Pos) (name : String) (hint : Expr) :
    Lower (RecordField StaticType) := do
  let (isOptional, hint) :=
    match hint with
    | .subscript _ base index =>
      match c.scope.canonical base with
      | some "Required" => (false, index)
      | some "NotRequired" => (true, index)
      | _ => (! total, hint)
    | _ => (! total, hint)
  return ⟨name, ← lowerHint c hint, isOptional, c.location pos⟩

/-- The fields that the suite of a record adds to the inherited ones. -/
def lowerFields (c : LowerContext) (total : Bool) (fields : List (RecordField StaticType)) :
    List Stmt → Lower (List (RecordField StaticType))
  | [] => pure fields
  | .simple pos (.annotated (.name _ id) hint ..) :: rest => do
    let field ← lowerField c total pos id hint
    lowerFields c total (putField fields field) rest
  | _ :: rest => lowerFields c total fields rest

/-- The declaration of a record. -/
def lowerRecord (c : LowerContext) (pos : Pos) (head : ClassHead) (body : List Stmt)
    (inherited : List (RecordField StaticType)) : Lower Nat := do
  let fields ← lowerFields c (isTotal head.keywords) (inherited.foldl putField []) body
  modify fun s => { s with records := (head.name, fields) :: s.records }
  declare (.type ⟨head.name, .record fields (some head.name) (c.location pos), c.isRecursive pos,
    c.depth = 0, c.location pos⟩)

/-- A simple statement: a type alias, an inspection, or a statement with casts in it. -/
def lowerSimple (c : LowerContext) (pos : Pos) (t : Simple) : Lower Simple :=
  match t with
  | .annotated (.name p id) hint (some value) bare _ =>
    if c.scope.canonical hint == some "TypeAlias" then do
      let type ← lowerHint c value
      let number ← declare (.type ⟨id, type, c.isRecursive pos, c.depth = 0, c.location pos⟩)
      return .annotated (.name p id) hint (some value) bare (some number)
    else lowerIn c t
  | .assign [.name p id] value _ =>
    if callsSpecial c "reify" value then
      match value with
      | .call _ _ [type] [] _ => do
        let lowered ← lowerHint c type
        let number ← declare (.reify ⟨id, lowered, c.location pos⟩)
        return .assign [.name p id] value (some number)
      | value => lowerFault c value "reify() takes exactly one type"
    else lowerIn c t
  | t => lowerIn c t

mutual

/-- A statement with its suites. What only type checkers see declares nothing. -/
def lowerStmt (c : LowerContext) : Stmt → Lower Stmt
  | .simple pos t => do return .simple pos (← lowerSimple c pos t)
  | .function pos head body => do
    let decorators ← lowerIn c head.decorators
    let params ← lowerInitials c head.params
    let typed ← lowerParameters c head.params
    let number ← declare (.function ⟨head.name, typed, c.location pos⟩)
    let body ← lowerAll c.inside body
    return .function pos { head with decorators, params, decl := some number } body
  | .classDef pos head body => do
    match inheritedFields c (← get).records head.bases with
    | some inherited =>
      let number ← lowerRecord c pos head body inherited
      return .classDef pos { head with decl := some number } body
    | none =>
      let bases ← lowerIn c.inside head.bases
      let keywords ← lowerIn c.inside head.keywords
      let body ← lowerAll c.inside body
      let decorators ← lowerIn c.inside head.decorators
      return .classDef pos { head with bases, keywords, decorators } body
  | .branch pos test body orelse => do
    if c.scope.isGuard test then return .branch pos test body (← lowerAll c orelse)
    else
      let test ← lowerIn c test
      let body ← lowerAll c body
      return .branch pos test body (← lowerAll c orelse)
  | .compound pos clauses => do return .compound pos (← lowerClauses c clauses)

/-- Statements in order. -/
def lowerAll (c : LowerContext) : List Stmt → Lower (List Stmt)
  | [] => pure []
  | t :: rest => do
    let first ← lowerStmt c t
    return first :: (← lowerAll c rest)

/-- Clauses in order. -/
def lowerClauses (c : LowerContext) : List (Clause Stmt) → Lower (List (Clause Stmt))
  | [] => pure []
  | ⟨head, body⟩ :: rest => do
    let head ← lowerIn c head
    let body ← lowerAll c body
    return ⟨head, body⟩ :: (← lowerClauses c rest)

end

/-- A module as the compiler sees it. -/
structure Lowered where
  file : String
  declarations : List Declaration
  scope : Scope
  /-- The tree, with the numbers of declarations. -/
  tree : Module

/-- A module that cannot be read. -/
def unreadableModule (file : String) : ReadFailure → Failure
  | .nullCharacter => .nullCharacter
  | .malformed m =>
    let excerpt := Text.trimEnd m.excerpt
    .fault ⟨.malformedModule m.reason,
      some ⟨max m.line 1, if m.column = 0 then 1 else m.column, some file⟩,
      if excerpt.isEmpty then none else some excerpt⟩

/-- Reads the tree of a module. -/
def readModule (source file : String) : Except Failure Module :=
  (parseModule source).mapError (unreadableModule file)

/-- Lowers a tree with the comments of its text. -/
def lowerTree (tree : Module) (file : String) (comments : List (Nat × String)) (options : Options) :
    Except Failure Lowered := do
  let scope := Scope.ofModule file tree
  let context : LowerContext := ⟨⟨scope, file, none⟩, comments, options.recursiveMarker, 0⟩
  let (tree, state) ← (lowerAll context tree).run {}
  return ⟨file, state.declarations, scope, tree⟩

/-- Lowers a module. -/
def lower (source file : String) (options : Options) : Except Failure Lowered := do
  let tree ← readModule source file
  let found ← (comments source).mapError .comments
  lowerTree tree file found options

end Typeward
