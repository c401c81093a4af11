import Typeward.Source.Grammar.Pattern

/-!
# The grammar of statements

Simple statements, suites and compound statements. The grammar is that of version 3.11 of the
language: it has no statement for type aliases, and functions and classes have no lists of type
parameters.
-/

namespace Typeward.Source

open Parse

/-- The operators of augmented assignments. -/
def augmentations : List (String × BinaryOp) :=
  [("+=", .add), ("-=", .sub), ("*=", .mul), ("@=", .matMul), ("/=", .div), ("%=", .mod),
    ("&=", .bitAnd), ("|=", .bitOr), ("^=", .bitXor), ("<<=", .shiftLeft), (">>=", .shiftRight),
    ("**=", .pow), ("//=", .floorDiv)]

/-- Whether an expression is a name, an attribute or a part: what can be annotated or augmented. -/
def isSingleTarget : Expr → Bool
  | .name .. | .attribute .. | .subscript .. => true
  | _ => false

/-- Whether an expression is a name. -/
def isName : Expr → Bool
  | .name .. => true
  | _ => false

/-- The mistakes in what does not assign though it might be meant to, from the start of a statement
on: an equals sign behind its first value or one of several, and a hint for several. -/
def assignmentMistakes (r : Rules) (start : Place) : Parse Unit := mistake fun i p =>
  let rule : Parse Unit := do
    let first ← starNamed r
    expect ","
    let _ ← optional (listed (starNamed r))
    expect ":"
    let _ ← r.expression
    failAtPos first.pos "several values cannot be annotated"
  rule i ⟨start.index, p.seen⟩

/-- Further left sides of an assignment, and its value. -/
def assignmentRest (r : Rules) (start : Place) (targets : List Expr) :
    (fuel : Nat) → Parse Simple
  | 0 => miss
  | fuel + 1 => do
    let isYield ← sees "yield"
    let value ← yieldOrValues r
    if ← sees "=" then
      if isYield then
        assignmentMistakes r start
        mistake (failAtPos value.pos "this cannot be assigned to")
        miss
      else
        mistake do
          if let some bad := invalidTarget value then
            assignmentMistakes r start
            failAtPos bad.pos "this cannot be assigned to"
        guard (isTarget value)
        advance
        assignmentRest r start (targets ++ [value]) fuel
    else return .assign targets value none

/-- Assignments of all kinds, and expressions. -/
def assignmentOrExpression (r : Rules) : Parse Simple := do
  let token ← peek
  let start ← place
  let e ← starExpressions r
  let next ← peek
  if next.text == ":" then
    let annotatable := isSingleTarget e
    mistake do
      if ! annotatable then
        assignmentMistakes r start
        advance
        let _ ← r.expression
        failAtPos e.pos "this cannot be annotated"
    if annotatable then
      let annotated ← optional do
        advance
        let hint ← r.expression
        let value ← optional do
          expect "="
          yieldOrValues r
        return Simple.annotated e hint value (isName e && token.text != "(") none
      match annotated with
      | some statement => return statement
      | none => return .expression e
    else return .expression e
  else if next.text == "=" then
    let assigned ← optional do
      guard (isTarget e)
      advance
      assignmentRest r start [e] (← fun i p => .found (i.lexed.tokens.size) p)
    match assigned with
    | some statement => return statement
    | none =>
      assignmentMistakes r start
      mistake do
        if let some bad := invalidTarget e then failAtPos bad.pos "this cannot be assigned to"
      return .expression e
  else
    match augmentations.lookup next.text with
    | some op =>
      if isSingleTarget e then
        advance
        return .augmented e op (← yieldOrValues r)
      else
        mistake do
          assignmentMistakes r start
          advance
          let _ ← yieldOrValues r
          failAtPos e.pos "this cannot be augmented"
        return .expression e
    | none =>
      assignmentMistakes r start
      return .expression e

/-- A name with dots in it. -/
def dottedName : Parse String := do
  let first ← name
  let rest ← many (do expect "."; name)
  return ".".intercalate (first :: rest)

/-- The local name behind `as`. -/
def localName : Parse (Option String) := optional (do expect "as"; name)

/-- The names of an import from a module. -/
def importedNames : Parse (List ImportName) := do
  let item : Parse ImportName := do
    let id ← name
    return ⟨id, ← localName⟩
  if ← accept "*" then return [⟨"*", none⟩]
  else if ← accept "(" then
    let (items, _) ← listed item
    expect ")"
    return items
  else
    let items ← separated item
    if ← sees "," then
      mistake (do
        advance
        let token ← peek
        guard (token.kind == .newline)
        failAtLast "trailing comma")
      miss
    else return items

/-- Imports of names from a module. -/
def importFrom : Parse Simple := do
  expect "from"
  let dots ← many (do
    if ← accept "." then return 1
    else
      expect "..."
      return 3)
  let level := dots.foldl (· + ·) 0
  let source ← if level = 0 then some <$> dottedName else optional dottedName
  expect "import"
  return .importNames source (← importedNames) level

/-- Imports of modules. -/
def importModules : Parse Simple := do
  expect "import"
  let names ← separated do
    let id ← dottedName
    return ImportName.mk id (← localName)
  return .importModules names

/-- The part of a deletion's targets that cannot be deleted. -/
def invalidDeletion : (fuel : Nat) → Expr → Option Expr
  | _, .name .. | _, .attribute .. | _, .subscript .. => none
  | fuel + 1, .display _ .list elements | fuel + 1, .display _ .tuple elements =>
    elements.findSome? (invalidDeletion fuel)
  | _, e => some e

/-- Deletions. -/
def deletion (r : Rules) : Parse Simple := do
  expect "del"
  let fuel ← fun i p => .found (i.lexed.tokens.size) p
  let targets ← optional do
    let (targets, _) ← listed do
      let e ← r.primary
      guard (invalidDeletion fuel e).isNone
      return e
    let next ← peek
    guard (next.text == ";" || next.kind == .newline)
    return targets
  match targets with
  | some targets => return .delete targets
  | none =>
    mistake do
      let e ← starExpressions r
      if let some bad := invalidDeletion fuel e then failAtPos bad.pos "this cannot be deleted"
    miss

/-- Simple statements. -/
def simpleStatement (r : Rules) : Parse Simple := do
  let token ← peek
  let word (s : Simple) : Parse Simple := do
    advance
    return s
  match token.text with
  | "return" =>
    advance
    return .returnValue (← optional (starExpressions r))
  | "import" => importModules
  | "from" => importFrom
  | "raise" =>
    advance
    match ← optional r.expression with
    | none => return .raise none none
    | some e => return .raise (some e) (← optional (do expect "from"; r.expression))
  | "pass" => word .pass
  | "del" => deletion r
  | "yield" =>
    let e ← yieldExpression r
    if ← sees "=" then mistake (failAtPos e.pos "this cannot be assigned to")
    return .expression e
  | "assert" =>
    advance
    let test ← r.expression
    return .assertion test (← optional (do expect ","; r.expression))
  | "break" => word .breakLoop
  | "continue" => word .continueLoop
  | "global" =>
    advance
    return .global (← separated name)
  | "nonlocal" =>
    advance
    return .nonlocal (← separated name)
  | _ => assignmentOrExpression r

/-- Simple statements on one line. -/
def simpleStatements (r : Rules) : Parse (List Stmt) := do
  let one : Parse Stmt := do
    let pos ← here
    return .simple pos (← simpleStatement r)
  let first ← one
  let rest ← many (do expect ";"; one)
  let _ ← accept ";"
  let _ ← expectKind .newline
  return first :: rest

/-- The mistake of a header without an indented suite. -/
def missingSuite : Parse Unit := mistake do
  let _ ← expectKind .newline
  let token ← peek
  if token.kind != .indent then failAtLast "expected an indented block"

/-- The colon of a header and its suite. -/
def suite (r : Rules) : Parse (List Stmt) := do
  mistake do
    let _ ← expectKind .newline
    failAtLast "expected a colon"
  expect ":"
  missingSuite
  r.block

/-- As `suite`, where nothing but a colon can follow. -/
def forcedSuite (r : Rules) : Parse (List Stmt) := do
  force ":"
  missingSuite
  r.block

/-- The `else` suite of a statement. -/
def elseSuite (r : Rules) : Parse (List Stmt) := do
  expect "else"
  forcedSuite r

/-- The alternative of a condition, from `elif` or `else` on. -/
def alternative (r : Rules) : (fuel : Nat) → Parse (List Stmt)
  | 0 => pure []
  | fuel + 1 => do
    let pos ← here
    if ← accept "elif" then
      let test ← namedExpression r
      let body ← suite r
      return [.branch pos test body (← alternative r fuel)]
    else if ← sees "else" then elseSuite r
    else return []

/-- Conditions. -/
def branchStatement (r : Rules) : Parse Stmt := do
  let pos ← here
  expect "if"
  let test ← namedExpression r
  let body ← suite r
  let orelse ← fun i p => alternative r (i.lexed.tokens.size + 1) i p
  return .branch pos test body orelse

/-- An `else` clause, if there is one. -/
def elseClause (r : Rules) : Parse (List (Clause Stmt)) := do
  if ← sees "else" then return [⟨.elseBody, ← elseSuite r⟩] else return []

/-- Loops with a condition. -/
def whileStatement (r : Rules) : Parse Stmt := do
  let pos ← here
  expect "while"
  let test ← namedExpression r
  let body ← suite r
  return .compound pos (⟨.whileLoop test, body⟩ :: (← elseClause r))

/-- Loops over a source. -/
def forStatement (r : Rules) (pos : Pos) (isAsync : Bool) : Parse Stmt := do
  expect "for"
  let target ← loopTargets r
  let source ← starExpressions r
  let body ← forcedSuite r
  return .compound pos (⟨.forLoop isAsync target source, body⟩ :: (← elseClause r))

/-- An item of a `with` statement. -/
def withItem (r : Rules) : Parse WithItem := do
  let context ← r.expression
  let target ← optional do
    expect "as"
    let target ← starTarget r
    let next ← peek
    guard ([",", ")", ":"].contains next.text)
    return target
  if target.isNone then
    mistake do
      expect "as"
      let e ← r.expression
      let next ← peek
      guard ([",", ")", ":"].contains next.text)
      if let some bad := invalidTarget e then failAtPos bad.pos "this cannot be assigned to"
  return ⟨context, target⟩

/-- Statements with a context. The items may stand in parentheses. -/
def withStatement (r : Rules) (pos : Pos) (isAsync : Bool) : Parse Stmt := do
  expect "with"
  let items ←
    (do
      let (items, _) ← bracketed "(" ")" (listed (withItem r))
      guard (← sees ":")
      return items) <|> separated (withItem r)
  let body ← suite r
  return .compound pos [⟨.withItems isAsync items, body⟩]

/-- A handler of exceptions. -/
def handler (r : Rules) (isGroup : Bool) : Parse (Clause Stmt) := do
  expect "except"
  if isGroup then expect "*"
  if ! isGroup && (← sees ":") then return ⟨.handler false none none, ← suite r⟩
  else
    let kind ← r.expression
    mistake do
      expect ","
      let _ ← expressions r
      let _ ← localName
      expect ":"
      failAtPos kind.pos "several exceptions need brackets"
    let id ← localName
    return ⟨.handler isGroup (some kind) id, ← suite r⟩

/-- Statements that handle exceptions. -/
def tryStatement (r : Rules) : Parse Stmt := do
  let pos ← here
  expect "try"
  let body ← forcedSuite r
  let isGroup ← ahead (do expect "except"; expect "*")
  let handlers ← many (handler r isGroup)
  mistake do
    guard (! handlers.isEmpty)
    let _ ← handler r (! isGroup)
    let _ ← many r.block
    failAtLast "handlers of both kinds"
  let otherwise ← if handlers.isEmpty then pure [] else elseClause r
  let final ← do
    if ← accept "finally" then
      let clause : Clause Stmt := ⟨.finallyBody, ← forcedSuite r⟩
      pure [clause]
    else pure []
  if handlers.isEmpty && final.isEmpty then
    mistake do
      guard (! (← sees "except") && ! (← sees "finally"))
      failAtLast "expected a handler"
    miss
  return .compound pos (⟨.tryBody, body⟩ :: handlers ++ otherwise ++ final)

/-- A case of a `match` statement. -/
def caseClause (r : Rules) : Parse (Clause Stmt) := do
  expect "case"
  let chosen ← casePattern r
  let condition ← optional (do expect "if"; namedExpression r)
  return ⟨.caseOf chosen condition, ← suite r⟩

/-- Statements that match a value against patterns. -/
def matchStatement (r : Rules) : Parse Stmt := do
  let pos ← here
  expect "match"
  let subject ← do
    let pos ← here
    let first ← starNamed r
    if ← accept "," then
      let rest ← optional (listed (starNamed r))
      pure (Expr.display pos .tuple (first :: (rest.map (·.1)).getD []))
    else
      guard (! isStarred first)
      pure first
  mistake do
    let _ ← expectKind .newline
    failAtLast "expected a colon"
  expect ":"
  let _ ← expectKind .newline
  mistake do
    let token ← peek
    if token.kind != .indent then failAtLast "expected an indented block"
  let _ ← expectKind .indent
  let first ← caseClause r
  let rest ← many (caseClause r)
  let _ ← expectKind .dedent
  return .compound pos (⟨.subject subject, []⟩ :: first :: rest)

/-- The parameters of a function are written with hints. -/
def functionParameters (r : Rules) : ParameterStyle where
  hint := optional (do expect ":"; r.expression)
  variadicHint := optional do
    expect ":"
    if ← sees "*" then
      let pos ← here
      advance
      return .starred pos (← bitwiseOr r)
    else r.expression
  closer := ")"

/-- Definitions of functions. -/
def functionStatement (r : Rules) (pos : Pos) (isAsync : Bool) (decorators : List Expr) :
    Parse Stmt := do
  expect "def"
  let id ← name
  force "("
  let params ← parameters r (functionParameters r)
  expect ")"
  let returns ← optional (do expect "->"; r.expression)
  let body ← forcedSuite r
  return .function pos ⟨isAsync, id, params, returns, decorators, none⟩ body

/-- Definitions of classes. -/
def classStatement (r : Rules) (decorators : List Expr) : Parse Stmt := do
  let pos ← here
  expect "class"
  let id ← name
  let given ← optional do
    expect "("
    if ← accept ")" then return {}
    else
      let given ← arguments r
      expect ")"
      return given
  let given : Arguments := given.getD {}
  let body ← suite r
  return .classDef pos ⟨id, given.positional, given.keywords, decorators, none⟩ body

/-- Statements that may start with `async`. -/
def asyncStatement (r : Rules) (decorators : List Expr) : Parse Stmt := do
  let pos ← here
  let isAsync ← accept "async"
  match (← peek).text with
  | "def" => functionStatement r pos isAsync decorators
  | "for" => if decorators.isEmpty then forStatement r pos isAsync else miss
  | "with" => if decorators.isEmpty then withStatement r pos isAsync else miss
  | _ => miss

/-- Definitions behind their decorators. -/
def decoratedStatement (r : Rules) : Parse Stmt := do
  let decorators ← many do
    expect "@"
    let e ← namedExpression r
    let _ ← expectKind .newline
    return e
  if ← sees "class" then classStatement r decorators
  else if decorators.isEmpty then miss
  else asyncStatement r decorators

/-- One statement, or several on a line. -/
def statement (r : Rules) : Parse (List Stmt) := do
  let one (rule : Parse Stmt) : Parse (List Stmt) := do return [← rule]
  match (← peek).text with
  | "def" | "for" | "with" | "async" => one (asyncStatement r [])
  | "@" => one (decoratedStatement r)
  | "if" => one (branchStatement r)
  | "class" => one (classStatement r [])
  | "try" => one (tryStatement r)
  | "while" => one (whileStatement r)
  | "match" => one (matchStatement r) <|> simpleStatements r
  | _ => simpleStatements r

/-- Statements up to what is no statement. -/
def statements (r : Rules) : Parse (List Stmt) := do
  let first ← statement r
  let rest ← many (statement r)
  return first ++ rest.flatten

/-- A suite: statements on the header's line, or an indented block. -/
def block (r : Rules) : Parse (List Stmt) := do
  if (← peek).kind == .newline then
    advance
    let _ ← expectKind .indent
    let body ← statements r
    let _ ← expectKind .dedent
    return body
  else simpleStatements r

/-- The rules for texts that nest at most so deep. -/
def rules : Nat → Rules
  | 0 => .empty
  | n + 1 =>
    { expression := fun i p => expression (rules n) i p
      inversion := fun i p => inversion (rules n) i p
      factor := fun i p => factor (rules n) i p
      primary := fun i p => primary (rules n) i p
      pattern := fun i p => pattern (rules n) i p
      block := fun i p => block (rules n) i p }

/-- A module. -/
def moduleRule (r : Rules) : Parse Module := do
  let body ← many (statement r)
  let _ ← expectKind .ending
  return body.flatten

/-- Expressions alone. -/
def expressionRule (r : Rules) : Parse Expr := do
  let e ← expressions r
  let _ ← many (expectKind .newline)
  let _ ← expectKind .ending
  return e

end Typeward.Source
