import Typeward.Number.Reading
import Typeward.Source.Lexer
import Typeward.Text.Compatibility

/-!
# Literals

What number and string tokens denote. Escapes are resolved code point by code point, since a literal
may hold surrogates. Formatted strings are taken apart into literal pieces and replacement
fields; the expressions in the fields are left to the parser.
-/

namespace Typeward.Source

/-- The longest decimal integer that is read, in digits. -/
def maxIntegerDigits : Nat := 4300

/-- What a number token denotes; an overlong decimal integer denotes nothing. -/
def numberValue (text : String) : Option Constant :=
  let cs := text.toList.filter (· != '_')
  let base :=
    match cs with
    | '0' :: 'x' :: _ | '0' :: 'X' :: _ => 16
    | '0' :: 'o' :: _ | '0' :: 'O' :: _ => 8
    | '0' :: 'b' :: _ | '0' :: 'B' :: _ => 2
    | _ => 10
  if base ≠ 10 then some (.int (digitsValue base (cs.drop 2)))
  else if cs.getLast?.any (fun j => j == 'j' || j == 'J') then
    some (.complex (.ofMagnitude false 0) (.ofDigits cs.dropLast))
  else if cs.all Char.isDigit then
    if maxIntegerDigits < cs.length then none else some (.int (digitsValue 10 cs))
  else some (.float (.ofDigits cs))

/-- Text from code points. -/
def textOfPoints (points : List Nat) : Constant :=
  if points.all (·.isValidChar) then .text (String.ofList (points.map Char.ofNat))
  else .surrogates points

/-- The code point for an escape of one letter. -/
def simpleEscape : Char → Option Nat
  | '\\' => some 0x5C
  | '\x27' => some 0x27
  | '\x22' => some 0x22
  | 'a' => some 0x07
  | 'b' => some 0x08
  | 'f' => some 0x0C
  | 'n' => some 0x0A
  | 'r' => some 0x0D
  | 't' => some 0x09
  | 'v' => some 0x0B
  | _ => none

/-- An escape of so many hexadecimal digits: its code point and what follows. -/
def numericPoint (width : Nat) (cs : List Char) : Option (Nat × List Char) :=
  let digits := cs.take width
  if digits.length = width ∧ digits.all isHexDigit then
    some (digitsValue 16 digits, cs.drop width)
  else none

/-- Whether a character is an octal digit. -/
def isOctalDigit (c : Char) : Bool := '0' ≤ c && c ≤ '7'

/-- The escape behind a backslash: its code points and what follows, or why it is malformed. An
escape that means nothing stands for itself. The names of characters are not known here: an escape
by a name is refused as one of a name that does not exist, also where there is such a character. -/
def escapePoints (isBytes : Bool) : List Char → Except String (List Nat × List Char)
  | [] => .ok ([0x5C], [])
  | '\n' :: rest => .ok ([], rest)
  | c :: rest =>
    match simpleEscape c with
    | some point => .ok ([point], rest)
    | none =>
      if isOctalDigit c then
        let digits := ((c :: rest).take 3).takeWhile isOctalDigit
        let point := digitsValue 8 digits
        .ok ([if isBytes then point % 256 else point], (c :: rest).drop digits.length)
      else if c = 'x' then
        match numericPoint 2 rest with
        | some (point, rest) => .ok ([point], rest)
        | none => .error "truncated escape of two digits"
      else if ! isBytes && (c = 'u' || c = 'U') then
        match numericPoint (if c = 'u' then 4 else 8) rest with
        | some (point, rest) =>
          if point < 0x110000 then .ok ([point], rest) else .error "illegal character"
        | none => .error "truncated escape"
      else if ! isBytes && c = 'N' then .error "unknown character name"
      else .ok ([0x5C, c.toNat], rest)

/-- The code points of a string's body. -/
def bodyPoints (isRaw isBytes : Bool) (cs : List Char) : (fuel : Nat) → Except String (List Nat)
  | 0 => .ok []
  | fuel + 1 =>
    match cs with
    | [] => .ok []
    | '\\' :: rest =>
      if isRaw then return 0x5C :: (← bodyPoints isRaw isBytes rest fuel)
      else do
        let (points, rest) ← escapePoints isBytes rest
        return points ++ (← bodyPoints isRaw isBytes rest fuel)
    | c :: rest => return c.toNat :: (← bodyPoints isRaw isBytes rest fuel)

/-- A string token taken apart: its marks and where its body starts and ends. -/
structure StringParts where
  isRaw : Bool
  isBytes : Bool
  isFormatted : Bool
  isMarked : Bool
  start : Cursor
  body : Cursor
  length : Nat

/-- Takes a string token apart. -/
def stringParts (token : Token) : StringParts :=
  let start : Cursor := ⟨token.pos.line, token.pos.column, token.chars.getD 0, token.text.toList⟩
  let marks := start.rest.takeWhile Char.isAlpha
  let lower := marks.map Char.toLower
  let opening := start.skip marks.length
  let quote := opening.peek.getD Text.singleQuote
  let size :=
    if opening.rest.length ≥ 6 ∧ [quote, quote, quote].isPrefixOf opening.rest then 3 else 1
  { isRaw := lower.contains 'r', isBytes := lower.contains 'b', isFormatted := lower.contains 'f',
    isMarked := marks.head? = some 'u', start, body := opening.skip size,
    length := opening.rest.length - 2 * size }

/-- A piece of a formatted string. -/
inductive Piece where
  | literal (points : List Nat)
  /-- A replacement field: where its brace stands, the text of its expression, and what follows. -/
  | field (brace : Cursor) (expression : List Char) (conversion : Option Char)
      (spec : Option (List Piece))
  /-- The rest is malformed. -/
  | broken (reason : String)

/-- Whether a list of pieces ends in a malformed one. -/
def isBroken (pieces : List Piece) : Bool :=
  match pieces.getLast? with
  | some (.broken _) => true
  | _ => false

/-- The state of the search for the end of a field's expression: the quote of the string that it is
in, whether that is tripled, the brackets that are open, and the characters of a quote or an
operator that are still to be passed. -/
structure FieldScan where
  quote : Option Char := none
  triple : Bool := false
  brackets : List Char := []
  passed : Nat := 0

/-- The end of a field's expression, as the number of characters before it. -/
def fieldLength (s : FieldScan) (count : Nat) : List Char → Except String Nat
  | [] =>
    if s.quote.isSome then .error "unterminated string in field"
    else if ! s.brackets.isEmpty then .error "unmatched bracket in field"
    else .error "expecting a closing brace"
  | c :: rest =>
    if s.passed ≠ 0 then fieldLength { s with passed := s.passed - 1 } (count + 1) rest
    else if c = '\\' then .error "field expression cannot include a backslash"
    else
      match s.quote with
      | some q =>
        if c ≠ q then fieldLength s (count + 1) rest
        else if ! s.triple then fieldLength { s with quote := none } (count + 1) rest
        else if [q, q].isPrefixOf rest then
          fieldLength { s with quote := none, passed := 2 } (count + 1) rest
        else fieldLength s (count + 1) rest
      | none =>
        if c = Text.singleQuote ∨ c = Text.doubleQuote then
          if [c, c].isPrefixOf rest then
            fieldLength { s with quote := some c, triple := true, passed := 2 } (count + 1) rest
          else fieldLength { s with quote := some c, triple := false } (count + 1) rest
        else if isOpener c then
          fieldLength { s with brackets := c :: s.brackets } (count + 1) rest
        else if c = '#' then .error "field expression cannot include a comment"
        else if s.brackets.isEmpty ∧ ['!', ':', '\x7d', '=', '<', '>'].contains c then
          if rest.head? = some '=' ∧ ['!', '=', '<', '>'].contains c then
            fieldLength { s with passed := 1 } (count + 1) rest
          else if c = '<' ∨ c = '>' then fieldLength s (count + 1) rest
          else .ok count
        else if isCloser c then
          match s.brackets with
          | [] => .error "unmatched closing bracket in field"
          | b :: outer =>
            if closerOf b = c then fieldLength { s with brackets := outer } (count + 1) rest
            else .error "closing bracket does not match in field"
        else fieldLength s (count + 1) rest

/-- The length of the literal at the front of a formatted string, and whether a doubled brace ends
it, of which the second one is to be skipped. Inside a format specification braces are not
doubled. -/
def literalLength (isRaw nested : Bool) (count : Nat) : List Char → Except String (Nat × Bool)
  | [] => .ok (count, false)
  | '\\' :: 'N' :: '\x7b' :: rest =>
    if isRaw then
      if nested then .ok (count + 2, false)
      else if rest.head? = some '\x7b' then .ok (count + 3, true) else .ok (count + 2, false)
    else
      let name := rest.takeWhile (· != '\x7d')
      .ok (count + 3 + name.length + 1, false)
  | '\\' :: c :: rest =>
    if isRaw ∨ c = '\x7b' ∨ c = '\x7d' then literalLength isRaw nested (count + 1) (c :: rest)
    else literalLength isRaw nested (count + 2) rest
  | c :: rest =>
    if c = '\x7b' ∨ c = '\x7d' then
      if nested then .ok (count, false)
      else if rest.head? = some c then .ok (count + 1, true)
      else if c = '\x7d' then .error "single closing brace is not allowed"
      else .ok (count, false)
    else literalLength isRaw nested (count + 1) rest

/-- The blanks that may surround an expression. -/
def isFieldBlank (c : Char) : Bool :=
  c == ' ' || c == '\t' || c == '\n' || c == '\x0c'

/-- The blanks skipped behind the equals sign of a self-documenting field. -/
def isAsciiBlank (c : Char) : Bool := isFieldBlank c || c == '\x0b' || c == '\r'

/-- Takes a formatted string apart. `left` is the number of characters of the body behind the
cursor, and `level` counts the format specifications around. The result ends with the cursor that
stands before the closing brace of a specification, or at the end of the body. -/
def scanPieces (isRaw : Bool) (level : Nat) (c : Cursor) (left : Nat) :
    (fuel : Nat) → List Piece × Cursor × Nat
  | 0 => ([], c, left)
  | fuel + 1 =>
    let broken (before : List Piece) (reason : String) : List Piece × Cursor × Nat :=
      (before ++ [.broken reason], c, left)
    match literalLength isRaw (level ≠ 0) 0 (c.rest.take left) with
    | .error reason => broken [] reason
    | .ok (count, doubled) =>
      match bodyPoints isRaw false (c.rest.take (min count left)) (count + 1) with
      | .error reason => broken [] reason
      | .ok points =>
        let count := min count left
        let piece := if count = 0 then [] else [Piece.literal points]
        let used := if doubled then count + 1 else count
        let c' := c.skip used
        let left' := left - used
        if doubled then
          let (pieces, rest) := scanPieces isRaw level c' left' fuel
          (piece ++ pieces, rest)
        else if left' = 0 ∨ c'.sees (· == '\x7d') then (piece, c', left')
        else if ! c'.sees (· == '\x7b') then
          let (pieces, rest) := scanPieces isRaw level c' left' fuel
          (piece ++ pieces, rest)
        else if 2 ≤ level then broken piece "expressions nested too deeply"
        else
          let inner := c'.next
          match fieldLength {} 0 (inner.rest.take (left' - 1)) with
          | .error reason => broken piece reason
          | .ok size =>
            let expression := inner.rest.take size
            if expression.all isFieldBlank then broken piece "empty expression not allowed"
            else
              let stop := inner.skip size
              let room := left' - 1 - size
              let equals := if stop.sees (· == '=') then 1 else 0
              let blanks :=
                if equals = 1 then ((stop.rest.drop 1).takeWhile isAsciiBlank).length else 0
              let shown := inner.rest.take (size + equals + blanks)
              let text := if equals = 1 then [Piece.literal (shown.map Char.toNat)] else []
              let before := piece ++ text
              let stop := stop.skip (equals + blanks)
              let room := room - equals - blanks
              let converted := room ≠ 0 && stop.sees (· == '!')
              let conversion := if converted then stop.next.peek else none
              if converted && (room < 2 || ! conversion.any ['s', 'r', 'a'].contains) then
                broken (before ++ [.field c' expression none none]) "invalid conversion character"
              else
                let stop := if converted then stop.skip 2 else stop
                let room := if converted then room - 2 else room
                let specified := room ≠ 0 && stop.sees (· == ':')
                let (spec, stop, room) :=
                  if specified then
                    let (pieces, stop, room) := scanPieces isRaw (level + 1) stop.next (room - 1) fuel
                    (some pieces, stop, room)
                  else (none, stop, room)
                let shownConversion :=
                  if equals = 1 && spec.isNone && conversion.isNone then some 'r' else conversion
                let field := Piece.field c' expression shownConversion spec
                if spec.any isBroken then (before ++ [field], stop, room)
                else if room = 0 ∨ ! stop.sees (· == '\x7d') then
                  broken (before ++ [field]) "expecting a closing brace"
                else
                  let (pieces, rest) := scanPieces isRaw level stop.next (room - 1) fuel
                  (before ++ field :: pieces, rest)

/-- The pieces of a formatted string token. -/
def formattedPieces (parts : StringParts) : List Piece :=
  (scanPieces parts.isRaw 0 parts.body parts.length (2 * parts.length + 4)).1

end Typeward.Source
