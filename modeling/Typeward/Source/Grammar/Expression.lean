import Typeward.Source.Parse

/-!
# The grammar of expressions

Rules that call each other through brackets and operators go through a record of rules, so that
every rule is an ordinary function of the rules for the parts. A node starts at the first token of
its rule, brackets included.
-/

namespace Typeward.Source

open Parse

/-- The rules that other rules refer back to. -/
structure Rules where
  expression : Parse Expr
  /-- An operand of `not`, and all that binds more tightly. -/
  inversion : Parse Expr
  /-- An operand of a sign, and all that binds more tightly. -/
  factor : Parse Expr
  /-- An atom with what may follow it. -/
  primary : Parse Expr
  pattern : Parse Pattern
  block : Parse (List Stmt)

/-- Rules that fit nothing. -/
def Rules.empty : Rules := ⟨miss, miss, miss, miss, miss, miss⟩

/-- The words that are reserved in places only. -/
def softKeywords : List String := ["_", "case", "match"]

/-- Left-associative operators of one level. -/
def leftAssociative (operand : Parse Expr) (operators : List (String × BinaryOp)) :
    Parse Expr := do
  let pos ← here
  let first ← operand
  extend (fun left => do
    match operators.lookup (← peek).text with
    | some op =>
      advance
      return .binary pos left op (← operand)
    | none => miss) first

/-- Products and quotients. -/
def product (r : Rules) : Parse Expr :=
  leftAssociative r.factor
    [("*", .mul), ("/", .div), ("//", .floorDiv), ("%", .mod), ("@", .matMul)]

/-- Sums and differences. -/
def sum (r : Rules) : Parse Expr := leftAssociative (product r) [("+", .add), ("-", .sub)]

/-- Shifts. -/
def shift (r : Rules) : Parse Expr :=
  leftAssociative (sum r) [("<<", .shiftLeft), (">>", .shiftRight)]

/-- Bitwise conjunctions. -/
def bitwiseAnd (r : Rules) : Parse Expr := leftAssociative (shift r) [("&", .bitAnd)]

/-- Bitwise exclusive disjunctions. -/
def bitwiseXor (r : Rules) : Parse Expr := leftAssociative (bitwiseAnd r) [("^", .bitXor)]

/-- Bitwise disjunctions. -/
def bitwiseOr (r : Rules) : Parse Expr := leftAssociative (bitwiseXor r) [("|", .bitOr)]

/-- An operator of comparison. -/
def comparisonOperator : Parse Comparison := do
  let token ← peek
  advance
  match token.text with
  | "==" => return .eq
  | "!=" => return .notEq
  | "<" => return .lt
  | "<=" => return .ltEq
  | ">" => return .gt
  | ">=" => return .gtEq
  | "in" => return .isIn
  | "not" =>
    expect "in"
    return .notIn
  | "is" => if ← accept "not" then return .isNot else return .is
  | _ => miss

/-- Comparisons. -/
def comparison (r : Rules) : Parse Expr := do
  let pos ← here
  let first ← bitwiseOr r
  let rest ← many (do return (← comparisonOperator, ← bitwiseOr r))
  return if rest.isEmpty then first else .compare pos first rest

/-- Negations and comparisons. -/
def inversion (r : Rules) : Parse Expr := do
  let pos ← here
  if ← accept "not" then return .unary pos .not (← r.inversion)
  else comparison r

/-- Operands joined by a boolean operator. -/
def booleanChain (operand : Parse Expr) (word : String) (op : BoolOp) : Parse Expr := do
  let pos ← here
  let first ← operand
  let rest ← many (do expect word; operand)
  return if rest.isEmpty then first else .boolean pos op (first :: rest)

/-- Conjunctions. -/
def conjunction (r : Rules) : Parse Expr := booleanChain (inversion r) "and" .and

/-- Disjunctions. -/
def disjunction (r : Rules) : Parse Expr := booleanChain (conjunction r) "or" .or

/-- The names of statements that need brackets now. -/
def isFormerStatement : Expr → Bool
  | .name _ id => id == "print" || id == "exec"
  | _ => false

/-- The mistakes that leave a disjunction where more was meant: a forgotten comma, a condition
without an alternative, a statement that is a function now. -/
def disjunctionMistakes (r : Rules) (quiet : Bool) (first : Expr) : Parse Unit := mistake do
  if ! quiet then
    mistake do
      let _ ← plainly r.expression
      let token ← last
      if ! isFormerStatement first && token.any (·.depth ≠ 0) then
        failAtPos first.pos "forgotten comma"
  mistake do
    expect "if"
    let _ ← disjunction r
    if ! (← sees "else") && ! (← sees ":") then
      failAtPos first.pos "expected an alternative"

/-- What stands behind a star, or a value by another rule. -/
def starOr (r : Rules) (rule : Parse Expr) : Parse Expr := do
  let pos ← here
  if ← accept "*" then return .starred pos (← bitwiseOr r)
  else rule

/-- One value, or several with commas as a tuple. -/
def tupleOr (item : Parse Expr) : Parse Expr := do
  let pos ← here
  let (items, comma) ← listed item
  match items with
  | [one] => return if comma then .display pos .tuple [one] else one
  | _ => return .display pos .tuple items

/-- Values with commas between them, stars allowed. -/
def starExpressions (r : Rules) : Parse Expr := tupleOr (starOr r r.expression)

/-- Names that take their argument without brackets, as they once did. -/
def formerStatementMistake (r : Rules) : Parse Unit := mistake do
  let token ← peek
  guard (isIdentifier token)
  let id ← name
  guard (id == "print" || id == "exec")
  guard (! (← sees "("))
  let _ ← starExpressions r
  failAtToken token "missing brackets"

/-- A parameter of a function. -/
def parameterOf (hint : Parse (Option Expr)) (initial : Parse (Option Expr)) :
    Parse (Parameter Expr) := do
  let pos ← here
  let id ← name
  let hint ← hint
  let initial ← initial
  return ⟨pos, id, hint, initial⟩

/-- How the parameters of a kind of function are written: the hints of plain and of variadic
parameters and the closing token. -/
structure ParameterStyle where
  hint : Parse (Option Expr)
  variadicHint : Parse (Option Expr)
  closer : String

/-- The initial value of a parameter. -/
def initialValue (r : Rules) (style : ParameterStyle) : Parse (Option Expr) := do
  let token ← peek
  if ! (← accept "=") then return none
  else
    mistake do
      if (← sees style.closer) || (← sees ",") then failAtToken token "expected a value"
    return some (← r.expression)

/-- A comma or the end of the parameters. -/
def parameterEnd (style : ParameterStyle) : Parse Unit := do
  if ! (← accept ",") then guard (← sees style.closer)

/-- Parameters without a star, up to one that does not fit. -/
def plainParameters (r : Rules) (style : ParameterStyle) : Parse (List (Parameter Expr)) :=
  many do
    let parameter ← parameterOf style.hint (initialValue r style)
    parameterEnd style
    return parameter

/-- Whether no parameter without an initial value follows one with it. -/
def initialsLast {ε : Type} : List (Parameter ε) → Bool
  | [] => true
  | p :: rest =>
    if p.initial.isSome then rest.all (·.initial.isSome) else initialsLast rest

/-- The parameter behind two stars. -/
def keywordVariadic (style : ParameterStyle) : Parse (Parameter Expr) := do
  expect "**"
  let parameter ← parameterOf style.hint (pure none)
  let next ← peek
  mistake do
    expect "="
    failAtToken next "no value allowed"
  mistake do
    expect ","
    let token ← peek
    if isIdentifier token || ["*", "**", "/"].contains token.text then
      failAtToken token "nothing may follow"
  parameterEnd style
  return parameter

/-- The parameters from a star on. -/
def starParameters (r : Rules) (style : ParameterStyle) (plain : List (Parameter Expr))
    (positionalOnly : List (Parameter Expr)) : Parse (Parameters Expr) := do
  if ← sees "**" then
    return ⟨positionalOnly, plain, none, [], some (← keywordVariadic style)⟩
  else if ← sees "*" then
    let star ← peek
    advance
    if ← accept "," then
      mistake do
        if (← sees style.closer) || (← sees "**") then failAtToken star "expected a name"
      let named ← plainParameters r style
      guard (! named.isEmpty)
      let rest ← optional (keywordVariadic style)
      return ⟨positionalOnly, plain, none, named, rest⟩
    else
      mistake do
        if ← sees style.closer then failAtToken star "expected a name"
      let variadic ← parameterOf style.variadicHint (pure none)
      let next ← peek
      mistake do
        expect "="
        failAtToken next "no value allowed"
      parameterEnd style
      let named ← plainParameters r style
      mistake do
        let again ← peek
        expect "*"
        failAtToken again "a second star"
      let rest ← optional (keywordVariadic style)
      return ⟨positionalOnly, plain, some variadic, named, rest⟩
  else return ⟨positionalOnly, plain, none, [], none⟩

/-- The parameters of a function. -/
def parameters (r : Rules) (style : ParameterStyle) : Parse (Parameters Expr) := do
  let first ← plainParameters r style
  let misplaced : Parse Unit := mistake do
    let slash ← peek
    expect "/"
    failAtToken slash "misplaced slash"
  if ! initialsLast first then
    -- The first parameter without a value behind one with a value does not fit.
    mistake (do
      let wanting := (first.dropWhile (·.initial.isNone)).find? (·.initial.isNone)
      match wanting with
      | some p => failAtPos p.pos "a parameter without a value behind one with it"
      | none => miss)
    miss
  else if ← (if first.isEmpty then pure false else accept "/") then
    parameterEnd style
    let second ← plainParameters r style
    mistake do
      let wanting := if first.any (·.initial.isSome) then second.find? (·.initial.isNone)
        else (second.dropWhile (·.initial.isNone)).find? (·.initial.isNone)
      match wanting with
      | some p => failAtPos p.pos "a parameter without a value behind one with it"
      | none => miss
    guard (initialsLast (first ++ second))
    misplaced
    starParameters r style second first
  else
    misplaced
    starParameters r style first []

/-- Anonymous functions. -/
def lambda (r : Rules) : Parse Expr := do
  let pos ← here
  expect "lambda"
  let params ← parameters r ⟨pure none, pure none, ":"⟩
  expect ":"
  return .lambda pos params (← r.expression)

/-- Expressions. -/
def expression (r : Rules) : Parse Expr := do
  let token ← peek
  if token.text == "lambda" then lambda r
  else
    let soft := token.kind == .name && softKeywords.contains token.text
    let quiet ← do
      if soft then pure true
      else if isIdentifier token then ahead (do advance; let _ ← expectKind .string)
      else pure false
    formerStatementMistake r
    let first ← disjunction r
    disjunctionMistakes r quiet first
    let choice ← optional do
      expect "if"
      let test ← disjunction r
      expect "else"
      return Expr.conditional token.pos test first (← r.expression)
    return choice.getD first

/-- The mistakes around an equals sign where a value is wanted. -/
def equalsMistakes (r : Rules) (start : Place) (e : Expr) : Parse Unit := mistake do
  mistake do
    expect ":="
    let _ ← r.expression
    failAtPos e.pos "this cannot be assigned to"
  mistake do
    expect "="
    let named : Bool := match e with | .name .. => true | _ => false
    let token ← fun i p => Outcome.found (i.lexed.tokens[start.index]?) p
    let alone ← fun i p =>
      match plainly (bitwiseOr r) i ⟨start.index, p.seen⟩ with
      | .found _ q => Outcome.found (q.index + 1 == p.index) p
      | _ => Outcome.found false p
    guard alone
    let display : Bool :=
      match e with
      | .display .. => token.any (fun t => t.text == "(" || t.text == "[")
      | .comprehension _ kind .. => kind == .list || kind == .generator
      | .constant _ (.bool _) _ | .constant _ .none _ => true
      | _ => false
    guard (named || ! display)
    let _ ← bitwiseOr r
    if ! (← sees "=") && ! (← sees ":=") then failAtPos e.pos "an assignment is no value"

/-- The place before the next token. -/
def place : Parse Place := fun _ p => .found p p

/-- A name and the operator that assigns to it as part of an expression. -/
def walrus (r : Rules) : Parse Expr := do
  let pos ← here
  let id ← name
  expect ":="
  return .walrus pos (.name pos id) (← r.expression)

/-- An expression, or a name with the value assigned to it. -/
def namedExpression (r : Rules) : Parse Expr := do
  let start ← place
  if ← seesNamed ":=" then walrus r
  else
    let e ← r.expression
    equalsMistakes r start e
    guard (! (← sees ":="))
    return e

/-- An expression with a star in front. -/
def starredExpression (r : Rules) : Parse Expr := do
  let pos ← here
  expect "*"
  return .starred pos (← r.expression)

/-- Values with commas between them. -/
def expressions (r : Rules) : Parse Expr := tupleOr r.expression

/-- Values with commas between them, stars and named values allowed. -/
def starNamed (r : Rules) : Parse Expr := starOr r (namedExpression r)

/-- The expressions that yield. -/
def yieldExpression (r : Rules) : Parse Expr := do
  let pos ← here
  expect "yield"
  let delegated ← optional do
    expect "from"
    r.expression
  match delegated with
  | some value => return .yieldFrom pos value
  | none => return .yield pos (← optional (starExpressions r))

/-- An expression that yields, or values. -/
def yieldOrValues (r : Rules) : Parse Expr := do
  if ← sees "yield" then yieldExpression r else starExpressions r

mutual

/-- The first part of an assignment's left side that cannot be assigned to. -/
def invalidTarget : Expr → Option Expr
  | .name .. | .attribute .. | .subscript .. => none
  | .starred _ inner => invalidTarget inner
  | .display _ .list elements | .display _ .tuple elements => invalidTargetIn elements
  | e => some e

/-- The first part of several left sides that cannot be assigned to. -/
def invalidTargetIn : List Expr → Option Expr
  | [] => none
  | e :: rest => (invalidTarget e).or (invalidTargetIn rest)

end

/-- Whether an expression can be assigned to. -/
def isTarget (e : Expr) : Bool := (invalidTarget e).isNone

end Typeward.Source
