import Typeward.Source.Grammar.Expression

/-!
# The grammar of atoms

Literals, displays and comprehensions, calls and subscripts. Strings next to each other are one
literal; the replacement fields of formatted strings are read as modules of their own in brackets.
-/

namespace Typeward.Source

open Parse

/-- Part of a string literal: text by its code points, or a replacement field. -/
inductive StringPart where
  | points (points : List Nat)
  | field (field : Expr)

/-- The parts of a formatted string, with text that stands together as one constant. -/
def joinParts (pos : Pos) (marked : Bool) (text : List Nat) : List StringPart → List Expr
  | [] => if text.isEmpty then [] else [.constant pos (textOfPoints text) marked]
  | .points more :: rest => joinParts pos marked (text ++ more) rest
  | .field e :: rest =>
    let before := if text.isEmpty then [] else [.constant pos (textOfPoints text) marked]
    before ++ e :: joinParts pos marked [] rest

/-- A faulty word of a replacement field is found where it stands in the field's own text. -/
def LexEnd.inField (brace : Cursor) : LexEnd → LexEnd
  | .malformed fault =>
    .malformed
      (if fault.line = brace.line then { fault with column := fault.column - brace.chars }
        else fault)
  | ending => ending

/-- The column that faults of the rules in a replacement field are measured from: that of the brace,
or, if the line ends behind the brace, that of the whole string. -/
def fieldOrigin (token brace : Cursor) (text : List Char) : Nat :=
  if (text.dropWhile fun c => c == ' ' || c == '\t' || c == '\x0c').head? = some '\n' then
    if brace.line = token.line then token.chars else 0
  else brace.chars

/-- Reads the expression of a replacement field, whose brace stands at a cursor. It is read as if it
stood in brackets. -/
def fieldExpression (r : Rules) (token brace : Cursor) (text : List Char) : Parse Expr := fun _ p =>
  let body := '(' :: text ++ [')', '\n']
  let lines := Array.replicate (brace.line - 1) "" ++ textLines body
  let lexed := lexText { brace with rest := body } lines
  let lexed := { lexed with ending := lexed.ending.inField brace }
  match Parse.run (starExpressions r) lexed (fieldOrigin token brace text) with
  | .ok e => .found e p
  | .error fault => .failed fault false p.seen

mutual

/-- The parts that a piece of a formatted string comes to. -/
def pieceParts (r : Rules) (token : Cursor) (pos : Pos) (marked : Bool) :
    Piece → Parse (List StringPart)
  | .literal points => pure [.points points]
  | .broken reason => failAtLast reason
  | .field brace text conversion none => do
    let value ← fieldExpression r token brace text
    return [.field (.field pos value conversion none)]
  | .field brace text conversion (some pieces) => do
    let value ← fieldExpression r token brace text
    let spec ← piecesParts r token pos marked pieces
    let spec := Expr.formatted pos (joinParts pos marked [] spec)
    return [.field (.field pos value conversion (some spec))]

/-- The parts that the pieces of a formatted string come to. -/
def piecesParts (r : Rules) (token : Cursor) (pos : Pos) (marked : Bool) :
    List Piece → Parse (List StringPart)
  | [] => pure []
  | piece :: rest => do
    let parts ← pieceParts r token pos marked piece
    return parts ++ (← piecesParts r token pos marked rest)

end

/-- The parts of one string token. -/
def tokenParts (r : Rules) (pos : Pos) (marked : Bool) (token : Token) (parts : StringParts) :
    Parse (List StringPart) := do
  if parts.isFormatted then piecesParts r parts.start pos marked (formattedPieces parts)
  else
    let body := parts.body.rest.take parts.length
    if parts.isBytes && body.any (128 ≤ ·.toNat) then failAtToken token "bytes hold ASCII only"
    else
      match bodyPoints parts.isRaw parts.isBytes body (parts.length + 1) with
      | .ok points => return [.points points]
      | .error reason => failAtLast reason

/-- The parts of string tokens that follow a first one. -/
def tokensParts (r : Rules) (pos : Pos) (marked isBytes : Bool) :
    List Token → Parse (List StringPart)
  | [] => pure []
  | token :: rest => do
    let parts := stringParts token
    let these ← tokenParts r pos marked token parts
    if parts.isBytes != isBytes then failAtLast "cannot mix bytes and other literals"
    return these ++ (← tokensParts r pos marked isBytes rest)

/-- Strings. -/
def strings (r : Rules) : Parse Expr := do
  let pos ← here
  let tokens ← many (expectKind .string)
  match tokens with
  | [] => miss
  | first :: _ =>
    let head := stringParts first
    let parts ← tokensParts r pos head.isMarked head.isBytes tokens
    let points := parts.flatMap fun part => match part with | .points ps => ps | .field _ => []
    if head.isBytes then return .constant pos (.bytes (points.map (·.toUInt8))) false
    else if tokens.any (fun token => (stringParts token).isFormatted) then
      return .formatted pos (joinParts pos head.isMarked [] parts)
    else return .constant pos (textOfPoints points) head.isMarked

/-- Numbers. -/
def number : Parse Expr := do
  let token ← expectKind .number
  match numberValue token.text with
  | some value => return .constant token.pos value false
  | none => failAt token.pos.line 0 "too many digits"

/-- Names, and the words for constants. -/
def nameAtom : Parse Expr := do
  let token ← peek
  let constant (value : Constant) : Parse Expr := do
    advance
    return .constant token.pos value false
  match token.text with
  | "True" => constant (.bool true)
  | "False" => constant (.bool false)
  | "None" => constant .none
  | _ => return .name token.pos (← name)

/-- Fails at the part of a left side that cannot be assigned to, if there is one. A comparison with
`in` in place of the left side of a loop counts as its first operand. -/
def loopTargetMistake (r : Rules) : Parse Unit := mistake do
  match ← starExpressions r with
  | .compare _ first ((.isIn, _) :: _) =>
    if let some bad := invalidTarget first then failAtPos bad.pos "this cannot be assigned to"
  | e => if let some bad := invalidTarget e then failAtPos bad.pos "this cannot be assigned to"

/-- Closes a bracket. -/
def close {α : Type} (closer : String) (a : α) : Parse α := do
  expect closer
  return a

/-- A rule between brackets. -/
def bracketed {α : Type} (opener closer : String) (rule : Parse α) : Parse α := do
  expect opener
  let a ← rule
  expect closer
  return a

/-- A target of an assignment. -/
def singleTarget (r : Rules) : Parse Expr := do
  let e ← r.primary
  guard (isTarget e)
  return e

/-- A target of an assignment, a star allowed in front. -/
def starTarget (r : Rules) : Parse Expr := do
  let pos ← here
  if ← accept "*" then return .starred pos (← singleTarget r)
  else singleTarget r

/-- The left side of a loop: one target, or several with commas. -/
def loopTargets (r : Rules) : Parse Expr :=
  (do
    let target ← tupleOr (starTarget r)
    expect "in"
    return target) <|> (do
    loopTargetMistake r
    miss)

/-- A clause of a comprehension. -/
def forClause (r : Rules) : Parse (ForClause Expr) := do
  let isAsync ← accept "async"
  expect "for"
  let target ← loopTargets r
  let source ← disjunction r
  let conditions ← many (do expect "if"; disjunction r)
  return ⟨isAsync, target, source, conditions⟩

/-- The clauses of a comprehension. -/
def forClauses (r : Rules) : Parse (List (ForClause Expr)) := do
  let first ← forClause r
  return first :: (← many (forClause r))

/-- Whether a clause of a comprehension follows. -/
def seesClause : Parse Bool := do return (← sees "for") || (← sees "async")

/-- Whether an expression has a star in front. -/
def isStarred : Expr → Bool
  | .starred .. => true
  | _ => false

/-- The mistakes of comprehensions: unpacking, and a tuple without brackets. -/
def comprehensionMistakes (r : Rules) (items : List Expr)
    (inParentheses : Bool) : Parse Unit := mistake do
  guard (← seesClause)
  match items with
  | [only] =>
    guard (isStarred only)
    let _ ← forClauses r
    failAtPos only.pos "unpacking in a comprehension"
  | first :: _ :: _ =>
    guard (! inParentheses)
    let _ ← forClauses r
    failAtPos first.pos "forgotten brackets around a tuple"
  | [] => miss

/-- What starts with a parenthesis: a tuple, a value in brackets, or a generator. -/
def parenthesized (r : Rules) : Parse Expr := do
  let pos ← here
  expect "("
  if ← accept ")" then return .display pos .tuple []
  else if ← sees "yield" then close ")" (← yieldExpression r)
  else
    let power ← peek
    mistake do
      expect "**"
      let _ ← r.expression
      failAtToken power "a double star is not allowed here"
    let first ← starNamed r
    if ← accept "," then
      let rest ← optional (listed (starNamed r))
      let items := first :: (rest.map (·.1)).getD []
      close ")" (.display pos .tuple items)
    else
      comprehensionMistakes r [first] true
      if isStarred first then
        mistake do
          expect ")"
          failAtPos first.pos "a star is not allowed here"
        miss
      else if ← seesClause then
        let clauses ← forClauses r
        close ")" (.comprehension pos .generator first clauses)
      else close ")" first

/-- What starts with a bracket: a list or a comprehension. -/
def listAtom (r : Rules) : Parse Expr := do
  let pos ← here
  expect "["
  if ← accept "]" then return .display pos .list []
  else
    let (items, comma) ← listed (starNamed r)
    comprehensionMistakes r items false
    match items, comma with
    | [first], false =>
      if ! isStarred first && (← seesClause) then
        let clauses ← forClauses r
        close "]" (.comprehension pos .list first clauses)
      else close "]" (.display pos .list [first])
    | _, _ => close "]" (.display pos .list items)

/-- The mistakes behind the key of a dictionary. -/
def valueMistakes (r : Rules) (colon : Token) : Parse Unit := mistake do
  let token ← peek
  mistake do
    expect "*"
    let _ ← bitwiseOr r
    failAtToken token "a star is not allowed in a value"
  if token.text == "\x7d" || token.text == "," then failAtToken colon "expected a value"

/-- An entry of a dictionary. -/
def dictEntry (r : Rules) : Parse (Option Expr × Expr) := do
  if ← accept "**" then return (none, ← bitwiseOr r)
  else
    let key ← r.expression
    let colon ← peek
    mistake do
      guard (colon.text != ":")
      let token ← last
      match token with
      | some t => failAt t.stop.line (t.stop.column) "expected a colon"
      | none => miss
    expect ":"
    valueMistakes r colon
    return (some key, ← r.expression)

/-- The rest of a dictionary behind its first entry. -/
def dictRest (r : Rules) (pos : Pos) (first : Option Expr × Expr) :
    Parse Expr := do
  match first with
  | (some key, value) =>
    if ← seesClause then
      let clauses ← forClauses r
      return ← close "\x7d" (.dictComprehension pos key value clauses)
  | (none, _) => pure ()
  let rest ← many (do expect ","; dictEntry r)
  let entries := first :: rest
  let _ ← accept ","
  close "\x7d" (.dict pos (entries.map (·.1)) (entries.map (·.2)))

/-- The rest of a set behind its first element. -/
def setRest (r : Rules) (pos : Pos) (first : Expr) : Parse Expr := do
  let rest ← many (do expect ","; starNamed r)
  let comma ← accept ","
  comprehensionMistakes r (first :: rest) false
  if rest.isEmpty && ! comma && ! isStarred first && (← seesClause) then
    let clauses ← forClauses r
    close "\x7d" (.comprehension pos .set first clauses)
  else close "\x7d" (.display pos .set (first :: rest))

/-- What starts with a brace: a dictionary, a set or a comprehension. -/
def braced (r : Rules) : Parse Expr := do
  let pos ← here
  expect "\x7b"
  if ← accept "\x7d" then return .dict pos [] []
  else
    let token ← peek
    if ← accept "**" then
      let value ← bitwiseOr r
      mistake do
        guard (← seesClause)
        let _ ← forClauses r
        failAtToken token "unpacking in a comprehension"
      dictRest r pos (none, value)
    else if token.text == "*" then setRest r pos (← starNamed r)
    else if ← seesNamed ":=" then
      setRest r pos (← walrus r)
    else
      let start ← place
      let first ← r.expression
      let colon ← peek
      if ← accept ":" then
        valueMistakes r colon
        dictRest r pos (some first, ← r.expression)
      else
        equalsMistakes r start first
        guard (! (← sees ":="))
        setRest r pos first

/-- Atoms. -/
def atom (r : Rules) : Parse Expr := do
  let token ← peek
  match token.kind, token.text with
  | .name, _ => nameAtom
  | .string, _ => strings r
  | .number, _ => number
  | .operator, "(" => parenthesized r
  | .operator, "[" => listAtom r
  | .operator, "\x7b" => braced r
  | .operator, "..." =>
    advance
    return .constant token.pos .ellipsis false
  | _, _ => miss

/-- A slice or an index. -/
def slice (r : Rules) : Parse Expr := do
  let token ← peek
  let start ← place
  let bound : Parse (Option Expr) := optional r.expression
  let behindColon : Parse Expr → Parse Expr := fun rule => do expect ":"; rule
  let sliceFrom (lower : Option Expr) : Parse Expr := behindColon do
    let upper ← bound
    let step ← if ← accept ":" then bound else pure none
    return .slice token.pos lower upper step
  if token.text == ":" then sliceFrom none
  else if ← seesNamed ":=" then walrus r
  else
    let first ← r.expression
    if ← sees ":" then sliceFrom (some first)
    else
      equalsMistakes r start first
      guard (! (← sees ":="))
      return first

/-- What stands in the brackets of a subscript. -/
def slices (r : Rules) : Parse Expr := do
  let pos ← here
  let item : Parse Expr := do
    if ← sees "*" then starredExpression r else slice r
  let (items, comma) ← listed item
  match items with
  | [one] => return if comma || isStarred one then .display pos .tuple [one] else one
  | _ => return .display pos .tuple items

/-- The arguments of a call as they are read. -/
structure Arguments where
  positional : List Expr := []
  keywords : List (Keyword Expr) := []
  /-- Whether a mapping has been unpacked; no sequence may be unpacked behind it. -/
  unpacked : Bool := false

/-- One more argument. -/
def argument (r : Rules) (start : Pos) (isFirst : Bool) (before : Arguments) :
    Parse Arguments := do
  let token ← peek
  if token.text == "*" then
    if before.unpacked then
      mistake (failAtPos start "unpacking behind an unpacked mapping")
      miss
    else
      let e ← starredExpression r
      return { before with positional := before.positional ++ [e] }
  else if ← accept "**" then
    let e ← r.expression
    return { before with keywords := before.keywords ++ [⟨none, e⟩], unpacked := true }
  else if ← seesNamed "=" then
    let id ← name
    expect "="
    let e ← r.expression
    mistake do
      guard (← seesClause)
      let _ ← forClauses r
      failAtToken token "an assignment is no value"
    return { before with keywords := before.keywords ++ [⟨some id, e⟩] }
  else
    let e ← if ← seesNamed ":=" then walrus r else r.expression
    guard (! (← sees ":="))
    mistake do
      guard (← sees "=")
      failAtPos e.pos "an argument's name has to be a name"
    guard (! (← sees "="))
    mistake do
      guard (← seesClause)
      let _ ← forClauses r
      if ! isFirst || (← sees ",") then failAtPos e.pos "a generator needs brackets"
    guard before.keywords.isEmpty
    return { before with positional := before.positional ++ [e] }

/-- More arguments behind commas. -/
def moreArguments (r : Rules) (start : Pos) : Arguments → Parse Arguments :=
  extend fun before => do
    expect ","
    argument r start false before

/-- The arguments of a call, from behind the bracket on. -/
def arguments (r : Rules) : Parse Arguments := do
  let start ← here
  let all ← moreArguments r start (← argument r start true {})
  mistake do
    guard (! all.keywords.isEmpty)
    expect ","
    let _ ← moreArguments r start (← argument r start false {})
    failAtLast "positional argument behind a keyword"
  let _ ← accept ","
  return all

/-- A call. A generator as the only argument needs no brackets of its own. -/
def callOf (r : Rules) (pos : Pos) (func : Expr) : Parse Expr := do
  let bracket ← here
  expect "("
  if ← accept ")" then return .call pos func [] [] none
  else
    let given ← arguments r
    match given.positional, given.keywords with
    | [only], [] =>
      if ! isStarred only && (← seesClause) then
        let clauses ← forClauses r
        let generator := Expr.comprehension bracket .generator only clauses
        return ← close ")" (.call pos func [generator] [] none)
    | _, _ => pure ()
    close ")" (.call pos func given.positional given.keywords none)

/-- One step from a primary to a longer one. -/
def primaryStep (r : Rules) (pos : Pos) (base : Expr) : Parse Expr := do
  match (← peek).text with
  | "." =>
    advance
    return .attribute pos base (← name)
  | "(" => callOf r pos base
  | "[" => return .subscript pos base (← bracketed "[" "]" (slices r))
  | _ => miss

/-- Atoms, their attributes and parts, and calls. -/
def primary (r : Rules) : Parse Expr := do
  let pos ← here
  let first ← atom r
  extend (primaryStep r pos) first

/-- Powers, and primaries that are awaited. -/
def power (r : Rules) : Parse Expr := do
  let pos ← here
  let base ← if ← accept "await" then Expr.await pos <$> primary r else primary r
  let exponent ← optional (do expect "**"; r.factor)
  match exponent with
  | some e => return .binary pos base .pow e
  | none => return base

/-- Powers with signs in front. -/
def factor (r : Rules) : Parse Expr := do
  let token ← peek
  let signed (op : UnaryOp) : Parse Expr := do
    advance
    return .unary token.pos op (← r.factor)
  match token.text with
  | "+" => signed .plus
  | "-" => signed .minus
  | "~" => signed .invert
  | _ => power r

end Typeward.Source
