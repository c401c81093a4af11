import Typeward.Source.Literal

/-!
# Rules of a grammar

A rule reads tokens from a place on. It finds a value, misses, or fails for good with a place for
the report. A rule that misses tells how many tokens have been looked at, since a text that fits
no rule is faulted at the furthest token. Where this is not told more precisely, a second run with
diagnosis on looks for the usual mistakes.
-/

namespace Typeward.Source

/-- What rules read from. -/
structure Input where
  lexed : Lexed
  /-- Whether rules look for the usual mistakes. -/
  diagnose : Bool
  /-- The column, in characters, that faults are measured from. -/
  origin : Nat

/-- A place between tokens, and the number of tokens looked at so far. -/
structure Place where
  index : Nat
  seen : Nat

/-- What a rule comes to. -/
inductive Outcome (α : Type) where
  | found (value : α) (place : Place)
  | missed (seen : Nat)
  /-- The text is faulty. A settled fault came from a token and is final. -/
  | failed (fault : Malformation) (settled : Bool) (seen : Nat)

/-- A rule of the grammar. -/
def Parse (α : Type) : Type := Input → Place → Outcome α

namespace Parse

variable {α β : Type}

/-- Finds a value without reading. -/
protected def pure (a : α) : Parse α := fun _ p => .found a p

/-- Reads with one rule and goes on with another. -/
protected def bind (rule : Parse α) (next : α → Parse β) : Parse β := fun i p =>
  match rule i p with
  | .found a p => next a i p
  | .missed seen => .missed seen
  | .failed fault settled seen => .failed fault settled seen

instance : Monad Parse where
  pure := Parse.pure
  bind := Parse.bind

/-- Misses. -/
def miss : Parse α := fun _ p => .missed p.seen

/-- Tries a rule and, if it misses, another one from the same place. -/
protected def orElse (first : Parse α) (second : Unit → Parse α) : Parse α := fun i p =>
  match first i p with
  | .missed seen => second () i ⟨p.index, seen⟩
  | outcome => outcome

instance : OrElse (Parse α) where
  orElse := Parse.orElse

instance : Inhabited (Parse α) := ⟨miss⟩

/-- What a rule finds, or nothing from the same place. -/
def optional (rule : Parse α) : Parse (Option α) := (some <$> rule) <|> pure none

/-- Whether a rule would find something. -/
def ahead (rule : Parse α) : Parse Bool := fun i p =>
  match rule i p with
  | .found _ q => .found true ⟨p.index, q.seen⟩
  | .missed seen => .found false ⟨p.index, seen⟩
  | .failed fault settled seen => .failed fault settled seen

/-- Goes on if a condition holds. -/
def guard (condition : Bool) : Parse Unit := if condition then pure () else miss

/-- Reads without looking for mistakes. -/
def plainly (rule : Parse α) : Parse α := fun i p => rule { i with diagnose := false } p

/-- Looks for a mistake, which is a rule that fails; without diagnosis nothing is looked for. -/
def mistake (rule : Parse Unit) : Parse Unit := fun i p =>
  if i.diagnose then
    match rule i p with
    | .found _ q => .found () ⟨p.index, q.seen⟩
    | .missed seen => .found () ⟨p.index, seen⟩
    | .failed fault settled seen => .failed fault settled seen
  else .found () p

/-- Reads with a rule as often as it finds something, at most a number of times. -/
def repeated (rule : Parse α) : (fuel : Nat) → Parse (List α)
  | 0 => pure []
  | fuel + 1 => do
    match ← optional rule with
    | none => pure []
    | some a => return a :: (← repeated rule fuel)

/-- Reads with a rule as often as it finds something. -/
def many (rule : Parse α) : Parse (List α) := fun i p =>
  repeated rule (i.lexed.tokens.size + 1 - p.index) i p

/-- Reads on from a first value with a rule for longer and longer values. -/
def extended (step : α → Parse α) (a : α) : (fuel : Nat) → Parse α
  | 0 => pure a
  | fuel + 1 => do
    match ← optional (step a) with
    | none => pure a
    | some b => extended step b fuel

/-- Reads on from a first value as long as a rule finds a longer one. -/
def extend (step : α → Parse α) (a : α) : Parse α := fun i p =>
  extended step a (i.lexed.tokens.size + 1 - p.index) i p

end Parse

/-- How far the reader had come when a number of tokens had been looked at. -/
def Input.reach (i : Input) (seen : Nat) : Reach :=
  match i.lexed.tokens[seen - 1]? with
  | some token => token.reach
  | none => ⟨1, 0, 1⟩

/-- The text shown with a fault at a line: what the reader held if it had not come further. -/
def Input.excerpt (i : Input) (seen line : Nat) : String :=
  let reach := i.reach seen
  if reach.line ≤ line then heldText i.lexed.lines reach.heldFrom reach.line
  else lineText i.lexed.lines line

/-- A fault at a column counted from one; what has no column keeps zero. -/
def Input.fault (i : Input) (seen line column : Nat) (reason : String) : Malformation :=
  ⟨line, if column = 0 then 0 else (column : Int) - i.origin, i.excerpt seen line, reason⟩

/-- The number of characters in the first bytes of a text. -/
def charsIn (bytes : Nat) : List Char → Nat
  | [] => bytes
  | c :: rest => if bytes = 0 then 0 else charsIn (bytes - c.utf8Size) rest + 1

/-- A bracket that is never closed. -/
def neverClosed (i : Input) (b : Bracket) : Malformation :=
  ⟨b.pos.line, (b.chars : Int) + 1 - i.origin, lineText i.lexed.lines b.pos.line,
    "bracket was never closed"⟩

/-- The fault for reading on where the tokens end. -/
def Input.endFault (i : Input) : Option Malformation :=
  match i.lexed.ending with
  | .complete => none
  | .malformed fault | .badLayout fault _ _ => some fault
  | .insideBracket b _ => some (neverClosed i b)
  | .insideLine (some b) _ => some (neverClosed i b)
  | .insideLine none reach =>
    some ⟨reach.line, (reach.chars : Int) - i.origin, heldText i.lexed.lines reach.heldFrom reach.line,
      "unexpected end of text"⟩

namespace Parse

variable {α : Type}

/-- The next token. -/
def peek : Parse Token := fun i p =>
  match i.lexed.tokens[p.index]? with
  | some token => .found token ⟨p.index, max p.seen (p.index + 1)⟩
  | none =>
    match i.endFault with
    | some fault => .failed fault true p.seen
    | none => .missed p.seen

/-- Moves over the next token. -/
def advance : Parse Unit := fun _ p => .found () ⟨p.index + 1, p.seen⟩

/-- The place at which the next token starts. -/
def here : Parse Pos := do return (← peek).pos

/-- The token read last. -/
def last : Parse (Option Token) := fun i p => .found (i.lexed.tokens[p.index - 1]?) p

/-- Whether the next token is the given word or operator. -/
def sees (text : String) : Parse Bool := do return (← peek).text == text

/-- Reads the given word or operator if it is next. -/
def accept (text : String) : Parse Bool := do
  if ← sees text then
    advance
    return true
  else return false

/-- Reads the given word or operator. -/
def expect (text : String) : Parse Unit := do
  guard (← accept text)

/-- Reads a token of a kind. -/
def expectKind (kind : TokenKind) : Parse Token := do
  let token ← peek
  guard (token.kind == kind)
  advance
  return token

/-- Whether a token is a name that is no reserved word. -/
def isIdentifier (token : Token) : Bool := token.kind == .name && ! keywords.contains token.text

/-- Reads a name, in its normal form. -/
def name : Parse String := do
  let token ← peek
  guard (isIdentifier token)
  advance
  return Text.compatibilityForm token.text

/-- Whether a name is next with the given operator behind it. -/
def seesNamed (operator : String) : Parse Bool := do
  if isIdentifier (← peek) then
    ahead do
      advance
      expect operator
  else return false

/-- Fails at a column of a line. -/
def failAt (line column : Nat) (reason : String) : Parse α := fun i p =>
  .failed (i.fault p.seen line column reason) false p.seen

/-- Fails where a node starts. -/
def failAtPos (pos : Pos) (reason : String) : Parse α := fun i p =>
  let line := lineText i.lexed.lines pos.line
  .failed (i.fault p.seen pos.line (charsIn pos.column line.toList + 1) reason) false p.seen

/-- Fails at a token. -/
def failAtToken (token : Token) (reason : String) : Parse α :=
  failAt token.pos.line (match token.chars with | some c => c + 1 | none => 0) reason

/-- Fails at the furthest token looked at. -/
def failAtLast (reason : String) : Parse α := fun i p =>
  match i.lexed.tokens[p.seen - 1]? with
  | some token => failAt token.pos.line
      (match token.chars with | some c => c + 1 | none => token.reach.chars) reason i p
  | none => failAt 1 1 reason i p

/-- Reads the given word or operator; its absence is a fault. -/
def force (text : String) : Parse Unit := do
  if ! (← accept text) then failAtToken (← peek) ("expected " ++ text)

/-- One or more values with commas between them, up to a comma without a value behind it. -/
def separated (rule : Parse α) : Parse (List α) := do
  let first ← rule
  let rest ← many (do expect ","; rule)
  return first :: rest

/-- As `separated`, with one more comma allowed at the end; tells whether there was one. -/
def listed (rule : Parse α) : Parse (List α × Bool) := do
  let items ← separated rule
  return (items, ← accept ",")

end Parse

/-- A fault found by rules gives way to a faulty token behind it, and to an open bracket above the
furthest token. -/
def Input.overrule (i : Input) (fault : Malformation) (seen : Nat) : Malformation :=
  let line := (i.lexed.tokens[seen - 1]?.map (·.pos.line)).getD 0
  let unclosed (b : Option Bracket) : Malformation :=
    match b with
    | some b => if b.pos.line < line then neverClosed i b else fault
    | none => fault
  match i.lexed.ending with
  | .complete => fault
  | .malformed later => later
  | .insideBracket b _ => unclosed (some b)
  | .insideLine b _ => unclosed b
  | .badLayout _ b _ => unclosed b

/-- The fault of a text that no rule fits, at the furthest token of the first run. One of layout is
final; any other gives way as those found by rules do, where the second run has looked so far. -/
def Input.genericFault (i : Input) (seen later : Nat) : Malformation :=
  match i.lexed.tokens[seen - 1]? with
  | none => i.overrule ⟨1, 0, "", "no text"⟩ later
  | some token =>
    if token.kind = .indent ∨ token.kind = .dedent then
      i.fault seen token.pos.line token.reach.chars "unexpected indentation"
    else
      let column := match token.chars with | some c => c + 1 | none => 0
      i.overrule (i.fault seen token.pos.line column "invalid syntax") later

/-- Reads tokens with a rule from their start; the faults of rules are measured from a column. -/
def Parse.run {α : Type} (rule : Parse α) (lexed : Lexed) (origin : Nat) :
    Except Malformation α :=
  let i : Input := ⟨lexed, false, origin⟩
  match rule i ⟨0, 0⟩ with
  | .found a _ => .ok a
  | .failed fault settled seen => .error (if settled then fault else i.overrule fault seen)
  | .missed seen =>
    let i := { i with diagnose := true }
    match rule i ⟨0, seen⟩ with
    | .failed fault settled seen => .error (if settled then fault else i.overrule fault seen)
    | .found _ p => .error (i.genericFault seen p.seen)
    | .missed later => .error (i.genericFault seen later)

end Typeward.Source
