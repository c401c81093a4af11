import Typeward.Source.Token
import Typeward.Text.Lines
import Typeward.Text.Printable

/-!
# Reading tokens

Splits a text with unified newlines into tokens. Indentation is measured in two ways, with tab
stops every eight columns and with tabs of one column, and both have to agree. Brackets suspend the
layout. What cannot be a token ends the list with a fault.
-/

namespace Typeward.Source

/-- A place in the text and what follows it. -/
structure Cursor where
  line : Nat
  column : Nat
  chars : Nat
  rest : List Char

namespace Cursor

/-- The next character. -/
def peek (c : Cursor) : Option Char := c.rest.head?

/-- Whether the next character satisfies a condition. -/
def sees (c : Cursor) (p : Char → Bool) : Bool := c.peek.any p

/-- Moves over the next character. The end of the text still belongs to its last line. -/
def next (c : Cursor) : Cursor :=
  match c.rest with
  | [] => c
  | ch :: rest =>
    if ch = '\n' ∧ ! rest.isEmpty then ⟨c.line + 1, 0, 0, rest⟩
    else ⟨c.line, c.column + ch.utf8Size, c.chars + 1, rest⟩

/-- Moves over as many characters. -/
def skip (c : Cursor) : Nat → Cursor
  | 0 => c
  | n + 1 => c.next.skip n

/-- Moves over the characters that satisfy a condition. -/
def skipWhile (c : Cursor) (p : Char → Bool) : Cursor :=
  c.skip (c.rest.takeWhile p).length

/-- The characters between a place and a later one. -/
def upTo (c stop : Cursor) : List Char :=
  c.rest.take (c.rest.length - stop.rest.length)

/-- The place as the start of a node. -/
def pos (c : Cursor) : Pos := ⟨c.line, c.column⟩

end Cursor

/-- The state of the reader. -/
structure LexState where
  cursor : Cursor
  /-- The lines of the text, for excerpts. -/
  lines : Array String
  /-- Indentation of the open blocks, innermost first, in both measures. -/
  indents : List (Nat × Nat)
  brackets : List Bracket
  atLineStart : Bool
  heldFrom : Nat

/-- The line with a number, counted from one. -/
def lineText (lines : Array String) (line : Nat) : String :=
  (lines[line - 1]?).getD ""

/-- The lines from one number to another. -/
def heldText (lines : Array String) (first last : Nat) : String :=
  "\n".intercalate ((List.range (last + 1 - first)).map fun i => lineText lines (first + i))

namespace LexState

/-- How far the reader has come at a cursor. -/
def reachAt (s : LexState) (c : Cursor) : Reach := ⟨c.line, c.chars, s.heldFrom⟩

/-- A fault with a line and a column of its own. -/
def faultAt (s : LexState) (line column : Nat) (reason : String) : Malformation :=
  ⟨line, column, lineText s.lines line, reason⟩

/-- A fault before a cursor. -/
def faultBefore (s : LexState) (c : Cursor) (reason : String) : LexEnd :=
  .malformed (s.faultAt c.line c.chars reason)

/-- A token between two cursors. -/
def token (s : LexState) (kind : TokenKind) (start stop : Cursor) (depth : Nat) : Token :=
  { kind, text := String.ofList (start.upTo stop), pos := start.pos, chars := some start.chars,
    stop := stop.pos, depth, reach := s.reachAt stop }

/-- A layout token of no width. -/
def mark (s : LexState) (kind : TokenKind) (c : Cursor) : Token :=
  { kind, text := "", pos := c.pos, chars := none, stop := c.pos, depth := s.brackets.length,
    reach := s.reachAt c }

end LexState

/-- Digits in groups joined by single low lines, from the first digit of a group on. -/
def digitGroups (s : LexState) (isDigit : Char → Bool) (reason : String) (c : Cursor) :
    (fuel : Nat) → Except LexEnd Cursor
  | 0 => .ok c
  | fuel + 1 =>
    let c := c.skipWhile isDigit
    if c.sees (· == '_') then
      if c.next.sees isDigit then digitGroups s isDigit reason c.next fuel
      else .error (s.faultBefore c.next reason)
    else .ok c

/-- Words that may follow a number without a blank, and whether they have to end there. -/
def wordsBehindNumbers : List (List Char × Bool) :=
  [("and", true), ("else", true), ("for", true), ("if", false), ("in", false), ("is", false),
    ("not", true), ("or", true)].map fun (word, ends) => (word.toList, ends)

/-- Whether a text starts with a word that may follow a number. -/
def startsBehindNumber (cs : List Char) : Bool :=
  wordsBehindNumbers.any fun (word, ends) =>
    word.isPrefixOf cs && ! (ends && (cs.drop word.length).head?.any isNamePart)

/-- A number has to end before any ASCII character that could continue a name, certain words
aside. -/
def endNumber (s : LexState) (c : Cursor) (reason : String) : Except LexEnd Cursor :=
  if c.sees (fun ch => ch.toNat < 128 && isNamePart ch) && ! startsBehindNumber c.rest then
    .error (s.faultBefore c reason)
  else .ok c

/-- The hexadecimal digits of both cases. -/
def isHexDigit (c : Char) : Bool :=
  c.isDigit || ('a' ≤ c && c ≤ 'f') || ('A' ≤ c && c ≤ 'F')

/-- The digits behind a base mark; `c` stands behind the mark. -/
def basedNumber (s : LexState) (isDigit : Char → Bool) (kind : String) (c : Cursor) :
    Except LexEnd Cursor := do
  let reason := "invalid " ++ kind ++ " literal"
  let start := if c.sees (· == '_') then c.next else c
  let misplaced (c : Cursor) : Except LexEnd Cursor :=
    if c.sees Char.isDigit then
      .error (s.faultBefore c.next ("invalid digit in " ++ kind ++ " literal"))
    else .error (s.faultBefore c reason)
  if ! start.sees isDigit then misplaced start
  else
    let stop ← digitGroups s isDigit reason start start.rest.length
    if stop.sees Char.isDigit then misplaced stop else endNumber s stop reason

/-- The exponent and the imaginary mark of a decimal number, if it has them. -/
def numberTail (s : LexState) (c : Cursor) : Except LexEnd Cursor := do
  let reason := "invalid decimal literal"
  let isExponent := c.sees (fun e => e == 'e' || e == 'E')
  let signed := c.next.sees (fun d => d == '+' || d == '-')
  let digits := if signed then c.next.next else c.next
  let c ←
    if isExponent && digits.sees Char.isDigit then
      digitGroups s Char.isDigit reason digits digits.rest.length
    else if isExponent && signed then .error (s.faultBefore digits reason)
    else .ok c
  if c.sees (fun j => j == 'j' || j == 'J') then endNumber s c.next "invalid imaginary literal"
  else endNumber s c reason

/-- The fraction of a decimal number, from behind its point on. -/
def fractionTail (s : LexState) (c : Cursor) : Except LexEnd Cursor := do
  let c ←
    if c.sees Char.isDigit then
      digitGroups s Char.isDigit "invalid decimal literal" c c.rest.length
    else .ok c
  numberTail s c

/-- The end of the number that starts with a digit at a cursor. -/
def numberEnd (s : LexState) (c : Cursor) : Except LexEnd Cursor := do
  let second := c.next.peek
  if c.sees (· == '0') && second.any (fun x => x == 'x' || x == 'X') then
    basedNumber s isHexDigit "hexadecimal" (c.skip 2)
  else if c.sees (· == '0') && second.any (fun x => x == 'o' || x == 'O') then
    basedNumber s (fun d => '0' ≤ d && d ≤ '7') "octal" (c.skip 2)
  else if c.sees (· == '0') && second.any (fun x => x == 'b' || x == 'B') then
    basedNumber s (fun d => d == '0' || d == '1') "binary" (c.skip 2)
  else
    let stop ← digitGroups s Char.isDigit "invalid decimal literal" c c.rest.length
    let written := c.upTo stop
    if stop.sees (· == '.') then fractionTail s stop.next
    else if stop.sees (fun e => e == 'e' || e == 'E' || e == 'j' || e == 'J') then numberTail s stop
    else if written.head? = some '0' && written.any (fun d => d != '0' && d != '_') then
      .error (.malformed (s.faultAt c.line (c.column + 1)
        "leading zeros in decimal integer literals are not permitted"))
    else endNumber s stop "invalid decimal literal"

/-- The end of a string from behind its opening quotes on: `size` quotes close it. -/
def stringEnd (quote : Char) (size : Nat) (found : Nat) (c : Cursor) :
    (fuel : Nat) → Option Cursor
  | 0 => none
  | fuel + 1 =>
    if found = size then some c
    else
      match c.peek with
      | none => none
      | some ch =>
        if size = 1 ∧ ch = '\n' then none
        else if ch = quote then stringEnd quote size (found + 1) c.next fuel
        else if ch = '\\' then stringEnd quote size 0 c.next.next fuel
        else stringEnd quote size 0 c.next fuel

/-- The number of letters before a string's quote at a cursor, if a string starts there. -/
def stringMark? (cs : List Char) : Option Nat :=
  let letters := (cs.take 2).takeWhile Char.isAlpha
  let candidates := [letters.length, 1, 0].filter (· ≤ letters.length)
  candidates.find? fun n =>
    stringMarks.contains (String.ofList (cs.take n)).toLower &&
      (cs.drop n).head?.any fun c => c == Text.singleQuote || c == Text.doubleQuote

/-- A name has to be an identifier; the fault stands behind the first character that is none. -/
def checkName (s : LexState) (start stop : Cursor) : Except LexEnd Unit :=
  let cs := start.upTo stop
  let good :=
    match cs with
    | [] => 0
    | c :: rest =>
      if Text.isIdentifierStart c then 1 + (rest.takeWhile Text.isIdentifierPart).length else 0
  if good < cs.length then .error (s.faultBefore (start.skip (good + 1)) "invalid character")
  else .ok ()

/-- What measuring the indentation of a line finds: both measures and where it ends. -/
structure Indentation where
  column : Nat
  narrow : Nat
  /-- The columns before the first line continuation, if any. -/
  continued : Nat
  heldFrom : Nat
  stop : Cursor

/-- The end of a line continuation, from behind the backslash on. -/
def continuationEnd (s : LexState) (c : Cursor) : Except LexEnd Cursor :=
  if ! c.sees (· == '\n') then
    let before := (List.range (c.line - s.heldFrom)).foldl
      (fun n i => n + (lineText s.lines (s.heldFrom + i)).length + 1) 0
    let fault : Malformation :=
      ⟨c.line, before + c.next.chars, heldText s.lines s.heldFrom c.line,
        "unexpected character after line continuation"⟩
    .error (.badLayout fault s.brackets.head? (s.reachAt c.next))
  else if c.next.rest.isEmpty then .error (.insideLine s.brackets.head? (s.reachAt c.next))
  else .ok c.next

/-- Measures the indentation of a line. -/
def indentation (s : LexState) (i : Indentation) : (fuel : Nat) → Except LexEnd Indentation
  | 0 => .ok i
  | fuel + 1 =>
    match i.stop.peek with
    | some ' ' =>
      indentation s { i with column := i.column + 1, narrow := i.narrow + 1, stop := i.stop.next }
        fuel
    | some '\t' =>
      indentation s
        { i with column := (i.column / 8 + 1) * 8, narrow := i.narrow + 1, stop := i.stop.next } fuel
    | some '\x0c' => indentation s { i with column := 0, narrow := 0, stop := i.stop.next } fuel
    | some '\\' => do
      let stop ← continuationEnd { s with heldFrom := i.heldFrom } i.stop.next
      let continued := if i.continued = 0 then i.column else i.continued
      indentation s { i with continued, stop, heldFrom := stop.line } fuel
    | _ => .ok i

/-- A fault of layout at the start of a line. -/
def layoutFault (s : LexState) (c : Cursor) (reason : String) : LexEnd :=
  let line := c.skipWhile (· != '\n')
  .badLayout (s.faultAt c.line 1 reason) none (s.reachAt line.next)

/-- The tokens for the indentation of a line, and the blocks that stay open. -/
def layoutTokens (s : LexState) (i : Indentation) :
    Except LexEnd (List Token × List (Nat × Nat)) :=
  let column := if i.continued = 0 then i.column else i.continued
  let narrow := if i.continued = 0 then i.narrow else i.continued
  let s := { s with heldFrom := i.heldFrom }
  let current := s.indents.headD (0, 0)
  let tabs := layoutFault s i.stop "inconsistent use of tabs and spaces in indentation"
  if column = current.1 then
    if narrow ≠ current.2 then .error tabs else .ok ([], s.indents)
  else if current.1 < column then
    if 99 ≤ s.indents.length then .error (layoutFault s i.stop "too many levels of indentation")
    else if narrow ≤ current.2 then .error tabs
    else .ok ([s.mark .indent i.stop], (column, narrow) :: s.indents)
  else
    let kept := s.indents.dropWhile (column < ·.1)
    let outer := kept.headD (0, 0)
    if column ≠ outer.1 then
      let line := i.stop.skipWhile (· != '\n')
      let behind := if line.rest.isEmpty then line.chars else line.chars + 1
      .error (.badLayout
        (s.faultAt i.stop.line behind "unindent does not match any outer indentation level")
        none (s.reachAt line.next))
    else if narrow ≠ outer.2 then .error tabs
    else .ok (List.replicate (s.indents.length - kept.length) (s.mark .dedent i.stop), kept)

/-- The brackets open behind a one-character operator. -/
def bracketsBehind (s : LexState) (start : Cursor) (ch : Char) : Except LexEnd (List Bracket) :=
  if isOpener ch then
    if 200 ≤ s.brackets.length then
      .error (s.faultBefore start.next "too many nested parentheses")
    else .ok (⟨ch, start.pos, start.chars⟩ :: s.brackets)
  else if isCloser ch then
    match s.brackets with
    | [] => .error (s.faultBefore start.next "unmatched closing bracket")
    | b :: outer =>
      if closerOf b.opener = ch then .ok outer
      else .error (s.faultBefore start.next "closing bracket does not match")
  else if ! Text.isPrintable ch then
    .error (s.faultBefore start.next "invalid non-printable character")
  else .ok s.brackets

/-- Whether a line holds nothing but blanks and a comment behind its indentation. -/
def isBlankLine (c : Cursor) : Bool := c.sees fun ch => ch == '#' || ch == '\n'

/-- One step of the reader: the tokens it finds and the state behind them. -/
def lexStep (s : LexState) : Except LexEnd (List Token × LexState) := do
  if s.atLineStart then
    let s := { s with heldFrom := s.cursor.line }
    let i ← indentation s ⟨0, 0, 0, s.cursor.line, s.cursor⟩ (s.cursor.rest.length + 1)
    let s := { s with heldFrom := i.heldFrom, cursor := i.stop, atLineStart := false }
    if isBlankLine i.stop then
      let lineEnd := i.stop.skipWhile (· != '\n')
      return ([], { s with cursor := lineEnd.next, atLineStart := ! lineEnd.rest.isEmpty })
    else if s.brackets.isEmpty then
      let (tokens, indents) ← layoutTokens s i
      return (tokens, { s with indents })
    else return ([], s)
  else
    let start := s.cursor.skipWhile fun c => c == ' ' || c == '\t' || c == '\x0c'
    let depth := s.brackets.length
    -- A comment belongs to the end of its line.
    let behind := if start.sees (· == '#') then start.skipWhile (· != '\n') else start
    match behind.rest with
    | [] =>
      match s.brackets with
      | b :: _ => .error (.insideBracket b (s.reachAt behind))
      | [] => .error .complete
    | '\n' :: _ =>
      let s' := { s with cursor := behind.next, atLineStart := true }
      if depth = 0 then
        let token := s.token .newline start behind.next depth
        let held := { token with text := "", reach := ⟨behind.line, behind.chars + 1, s.heldFrom⟩ }
        return ([held], s')
      else return ([], s')
    | '\\' :: _ =>
      let stop ← continuationEnd s start.next
      return ([], { s with cursor := stop })
    | ch :: rest =>
      match stringMark? start.rest with
      | some letters =>
        let opening := start.skip letters
        let quote := opening.peek.getD Text.singleQuote
        let size := if [quote, quote, quote].isPrefixOf opening.rest then 3 else 1
        match stringEnd quote size 0 (opening.skip size) (opening.rest.length + 2) with
        | some stop => return ([s.token .string start stop depth], { s with cursor := stop })
        | none =>
          .error (.malformed (s.faultAt start.line (start.chars + 1) "unterminated string literal"))
      | none =>
        if isNameStart ch then
          let stop := start.skipWhile isNamePart
          checkName s start stop
          return ([s.token .name start stop depth], { s with cursor := stop })
        else if ch.isDigit then
          let stop ← numberEnd s start
          return ([s.token .number start stop depth], { s with cursor := stop })
        else if ch == '.' && rest.head?.any Char.isDigit then
          let stop ← fractionTail s start.next
          return ([s.token .number start stop depth], { s with cursor := stop })
        else
          let width :=
            if longOperators.contains (start.rest.take 3) then 3
            else if pairOperators.contains (start.rest.take 2) then 2 else 1
          let brackets ← if width = 1 then bracketsBehind s start ch else pure s.brackets
          let stop := start.skip width
          return ([s.token .operator start stop brackets.length],
            { s with cursor := stop, brackets })

/-- The tokens from a state on, behind those already found. -/
def lexFrom (s : LexState) (found : Array Token) : (fuel : Nat) → Array Token × LexEnd
  | 0 => (found, .complete)
  | fuel + 1 =>
    match lexStep s with
    | .ok (tokens, s) => lexFrom s (found ++ tokens) fuel
    | .error .complete =>
      let dedents := List.replicate s.indents.length (s.mark .dedent s.cursor)
      ((found ++ dedents).push (s.mark .ending s.cursor), .complete)
    | .error ending => (found, ending)

/-- Splits the text behind a place into tokens. -/
def lexText (start : Cursor) (lines : Array String) : Lexed :=
  let state : LexState := ⟨start, lines, [], [], true, start.line⟩
  let (tokens, ending) := lexFrom state #[] (4 * start.rest.length + 8)
  ⟨tokens, ending, lines⟩

/-- The text of a module as it is read: newlines are unified and the last line is ended. -/
def moduleText (source : String) : List Char :=
  let text := Text.unifyNewlines source.toList
  if text.getLast? = some '\n' || text.isEmpty then text else text ++ ['\n']

/-- The lines of a text without their ends. -/
def textLines (text : List Char) : Array String :=
  ((Text.feedLines text).map fun line => String.ofList (line.filter (· != '\n'))).toArray

end Typeward.Source
