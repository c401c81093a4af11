import Typeward.Source.Grammar.Atom

/-!
# The grammar of patterns

The patterns of a `match` statement.
-/

namespace Typeward.Source

open Parse

/-- A number, with a minus sign or not. -/
def signedNumber : Parse Expr := do
  let pos ← here
  if ← accept "-" then return .unary pos .minus (← number) else number

/-- Whether a number is imaginary. -/
def isImaginary : Expr → Bool
  | .constant _ (.complex ..) _ => true
  | _ => false

/-- A number, or a sum of a real and an imaginary one. -/
def numberLiteral : Parse Expr := do
  let pos ← here
  let first ← signedNumber
  let op ← do
    if ← accept "+" then pure (some BinaryOp.add)
    else if ← accept "-" then pure (some BinaryOp.sub)
    else pure none
  match op with
  | none => return first
  | some op =>
    let real : Bool := match first with
      | .unary _ _ operand => ! isImaginary operand
      | e => ! isImaginary e
    let second ← number
    if ! real then failAtPos first.pos "real number required"
    if ! isImaginary second then failAtPos second.pos "imaginary number required"
    return .binary pos first op second

/-- A name, or a chain of attributes on it. -/
def dottedExpression : Parse Expr := do
  let pos ← here
  let id ← name
  extend (fun base => do
    expect "."
    return .attribute pos base (← name)) (.name pos id)

/-- A name that a pattern captures. -/
def captureName : Parse String := do
  guard (! (← sees "_"))
  name

/-- What a star in a sequence captures. -/
def starPattern : Parse Pattern := do
  let pos ← here
  expect "*"
  if ← accept "_" then return .star pos none
  else return .star pos (some (← captureName))

/-- An item of a sequence. -/
def sequenceItem (r : Rules) : Parse Pattern := do
  if ← sees "*" then starPattern else r.pattern

/-- Whether a pattern is a star. -/
def isStarPattern : Pattern → Bool
  | .star .. => true
  | _ => false

/-- A sequence in brackets, or one pattern in parentheses. -/
def bracketedPattern (r : Rules) (opener closer : String) : Parse Pattern := do
  let pos ← here
  expect opener
  if ← accept closer then return .sequence pos []
  else
    let (items, comma) ← listed (sequenceItem r)
    expect closer
    match items with
    | [one] =>
      if opener == "(" && ! comma then
        guard (! isStarPattern one)
        return one
      else return .sequence pos items
    | _ => return .sequence pos items

/-- A constant that is matched by identity. -/
def singletonPattern : Parse Pattern := do
  let token ← peek
  advance
  match token.text with
  | "None" => return .singleton token.pos .none
  | "True" => return .singleton token.pos (.bool true)
  | "False" => return .singleton token.pos (.bool false)
  | _ => miss

/-- A literal that is matched by equality. -/
def literalExpression (r : Rules) : Parse Expr := do
  let token ← peek
  if token.kind == .string then strings r else numberLiteral

/-- The key of an entry of a mapping. -/
def patternKey (r : Rules) : Parse Expr := do
  let token ← peek
  match token.text with
  | "None" | "True" | "False" => nameAtom
  | _ => literalExpression r <|> dottedExpression

/-- The entries of a mapping: a key and a pattern, or the name for the rest. -/
def mappingPattern (r : Rules) : Parse Pattern := do
  let pos ← here
  expect "\x7b"
  let entry : Parse (Expr × Pattern) := do
    let key ← patternKey r
    expect ":"
    return (key, ← r.pattern)
  let rest : Parse String := do
    expect "**"
    captureName
  let entries ← optional (separated entry)
  let entries := entries.getD []
  let keys := entries.map (·.1)
  let items := entries.map (·.2)
  let remaining ← optional (do
    if ! entries.isEmpty then expect ","
    rest)
  if ! entries.isEmpty || remaining.isSome then
    let _ ← accept ","
  expect "\x7d"
  return .mapping pos keys items remaining

/-- The patterns for the attributes of a class. -/
def classPattern (r : Rules) (pos : Pos) (cls : Expr) : Parse Pattern := do
  expect "("
  let keyword : Parse (String × Pattern) := do
    let id ← name
    expect "="
    return (id, ← r.pattern)
  let positional : Parse Pattern := do
    guard (! (← seesNamed "="))
    r.pattern
  let items ← optional (separated positional)
  let items := items.getD []
  let named ← optional (do
    if ! items.isEmpty then expect ","
    separated keyword)
  let named := named.getD []
  if ! items.isEmpty || ! named.isEmpty then
    let _ ← accept ","
  if ! named.isEmpty then
    mistake do
      let item ← r.pattern
      let at_ : Pos := match item with
        | .value p _ | .singleton p _ | .sequence p _ | .mapping p .. | .ofClass p .. | .star p _
        | .capture p .. | .alternatives p _ => p
      failAtPos at_ "positional pattern behind a named one"
  expect ")"
  return .ofClass pos cls items (named.map (·.1)) (named.map (·.2))

/-- Patterns that start with a name. -/
def namePattern (r : Rules) : Parse Pattern := do
  let pos ← here
  if ← accept "_" then return .capture pos none none
  else
    let cls ← dottedExpression
    if ← sees "(" then classPattern r pos cls
    else
      match cls with
      | .name _ id =>
        guard (! (← sees "="))
        return .capture pos none (some id)
      | _ =>
        guard (! (← sees "="))
        return .value pos cls

/-- Patterns without alternatives. -/
def closedPattern (r : Rules) : Parse Pattern := do
  let token ← peek
  match token.kind, token.text with
  | .name, "None" | .name, "True" | .name, "False" => singletonPattern
  | .name, _ => namePattern r
  | .operator, "(" => bracketedPattern r "(" ")"
  | .operator, "[" => bracketedPattern r "[" "]"
  | .operator, "\x7b" => mappingPattern r
  | _, _ => return .value token.pos (← literalExpression r)

/-- Alternatives. -/
def alternatives (r : Rules) : Parse Pattern := do
  let pos ← here
  let first ← closedPattern r
  let rest ← many (do expect "|"; closedPattern r)
  return if rest.isEmpty then first else .alternatives pos (first :: rest)

/-- Patterns, with a name for what they match or not. -/
def pattern (r : Rules) : Parse Pattern := do
  let pos ← here
  let inner ← alternatives r
  let bound ← optional (do
    expect "as"
    mistake do
      let token ← peek
      if token.text == "_" then failAtToken token "cannot be used as a target"
      if isIdentifier token then miss
      let e ← r.expression
      failAtPos e.pos "invalid target"
    let id ← captureName
    guard (! (← sees ".") && ! (← sees "(") && ! (← sees "="))
    return id)
  match bound with
  | some id => return .capture pos (some inner) (some id)
  | none => return inner

/-- The pattern of a case: one, or a sequence without brackets. -/
def casePattern (r : Rules) : Parse Pattern := do
  let pos ← here
  let (items, comma) ← listed (sequenceItem r)
  match items with
  | [one] =>
    if comma then return .sequence pos items
    else
      guard (! isStarPattern one)
      return one
  | _ => return .sequence pos items

end Typeward.Source
