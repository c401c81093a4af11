import Typeward.Toml.Document

/-!
# Reading configuration documents

A document is read statement by statement, each on a line of its own. Readers take the characters
that are left and answer a result with those behind it. Values nest, so their reader is given a
bound on the nesting and on the length of lists; the length of the text is one.
-/

namespace Typeward.Toml

/-- A text that no rule admits. -/
def malformed {α : Type} : Except Fault α := .error .malformed

/-- Takes the answer of a step that can be refused. -/
def orRefuse {α : Type} : Option α → Except Fault α
  | some a => .ok a
  | none => malformed

/-- Blanks within a line. -/
def isBlank (c : Char) : Bool := c = ' ' || c = '\t'

/-- Drops blanks. -/
def skipBlanks (cs : List Char) : List Char := cs.dropWhile isBlank

/-- Controls may not occur in texts and comments, the tabulator apart. -/
def isControl (c : Char) : Bool := (c.toNat < 32 || c.toNat = 127) && c ≠ '\t'

/-- Characters in keys without quotes. -/
def isBareKeyChar (c : Char) : Bool :=
  c.isAlphanum || c = '-' || c = '_'

/-- Drops a comment. -/
def skipComment : List Char → Except Fault (List Char)
  | '#' :: rest =>
    if (rest.takeWhile (· ≠ '\n')).any isControl then malformed
    else .ok (rest.dropWhile (· ≠ '\n'))
  | cs => .ok cs

/-- Drops blanks, line ends and comments between the elements of an array. -/
def skipFiller : Nat → List Char → Except Fault (List Char)
  | 0, cs => .ok cs
  | fuel + 1, cs =>
    match cs.dropWhile fun c => isBlank c || c = '\n' with
    | '#' :: rest => do skipFiller fuel (← skipComment ('#' :: rest))
    | cs => .ok cs

/-- The number that hexadecimal digits write. -/
def hexValue? (digits : List Char) : Option Nat :=
  digits.foldlM (fun n c =>
    if c.isDigit then some (n * 16 + (c.toNat - 48))
    else if 'a' ≤ c && c ≤ 'f' then some (n * 16 + (c.toNat - 87))
    else if 'A' ≤ c && c ≤ 'F' then some (n * 16 + (c.toNat - 55))
    else none) 0

/-- The character with a number in hexadecimal digits. -/
def charOfHex? (digits : List Char) : Option Char := do
  let n ← hexValue? digits
  if n.isValidChar then some (Char.ofNat n) else none

/-- The character that a short escape stands for. -/
def shortEscape? : Char → Option Char
  | 'b' => some '\x08'
  | 't' => some '\t'
  | 'n' => some '\n'
  | 'f' => some '\x0c'
  | 'r' => some '\r'
  | '\x22' => some '\x22'
  | '\\' => some '\\'
  | _ => none

/-- What is left out behind a backslash at the end of a line: the line end, and then all blank
space. -/
inductive Trim where
  | none
  | toLineEnd
  | throughSpace
deriving DecidableEq, Repr

/-- Up to two quotes right behind the closing ones belong to the text. -/
def closeLong (quote : Char) (text : List Char) : List Char → String × List Char
  | a :: b :: rest =>
    if a = quote && b = quote then (String.ofList (text ++ [quote, quote]), rest)
    else if a = quote then (String.ofList (text ++ [quote]), b :: rest)
    else (String.ofList text, a :: b :: rest)
  | [a] => if a = quote then (String.ofList (text ++ [quote]), []) else (String.ofList text, [a])
  | [] => (String.ofList text, [])

/-- A text in double quotes, from behind the opening ones; `found` is what was read, backwards. -/
def readBasic (long : Bool) (trim : Trim) (found : List Char) :
    List Char → Except Fault (String × List Char)
  | [] => malformed
  | c :: rest =>
    if trim = .toLineEnd then
      if isBlank c then readBasic long trim found rest
      else if c = '\n' then readBasic long .throughSpace found rest
      else malformed
    else if trim = .throughSpace && (isBlank c || c = '\n') then readBasic long trim found rest
    else if c = '\x22' then
      if ! long then .ok (String.ofList found.reverse, rest)
      else
        match rest with
        | '\x22' :: '\x22' :: rest => .ok (closeLong '\x22' found.reverse rest)
        | rest => readBasic long .none (c :: found) rest
    else if c = '\\' then
      match rest with
      | 'u' :: a :: b :: c :: d :: rest => do
        readBasic long .none ((← orRefuse (charOfHex? [a, b, c, d])) :: found) rest
      | 'U' :: a :: b :: c :: d :: e :: f :: g :: h :: rest => do
        readBasic long .none ((← orRefuse (charOfHex? [a, b, c, d, e, f, g, h])) :: found) rest
      | c :: rest =>
        if long && isBlank c then readBasic long .toLineEnd found rest
        else if long && c = '\n' then readBasic long .throughSpace found rest
        else do readBasic long .none ((← orRefuse (shortEscape? c)) :: found) rest
      | [] => malformed
    else if isControl c && ! (long && c = '\n') then malformed
    else readBasic long .none (c :: found) rest

/-- A text in single quotes, from behind the opening one. -/
def readLiteral (cs : List Char) : Except Fault (String × List Char) :=
  let body := cs.takeWhile (· ≠ '\x27')
  match cs.dropWhile (· ≠ '\x27') with
  | [] => malformed
  | _ :: rest => if body.any isControl then malformed else .ok (String.ofList body, rest)

/-- A text in three single quotes, from behind the opening ones. -/
def readLongLiteral (found : List Char) : List Char → Except Fault (String × List Char)
  | '\x27' :: '\x27' :: '\x27' :: rest => .ok (closeLong '\x27' found.reverse rest)
  | c :: rest => if isControl c && c ≠ '\n' then malformed else readLongLiteral (c :: found) rest
  | [] => malformed

/-- Drops a line end right behind the opening quotes of a long text. -/
def skipFirstLineEnd : List Char → List Char
  | '\n' :: rest => rest
  | cs => cs

/-- A text in any quotes. -/
def readText : List Char → Except Fault (String × List Char)
  | '\x22' :: '\x22' :: '\x22' :: rest => readBasic true .none [] (skipFirstLineEnd rest)
  | '\x22' :: rest => readBasic false .none [] rest
  | '\x27' :: '\x27' :: '\x27' :: rest => readLongLiteral [] (skipFirstLineEnd rest)
  | '\x27' :: rest => readLiteral rest
  | _ => malformed

/-- A part of a key. -/
def readKeyPart : List Char → Except Fault (String × List Char)
  | '\x22' :: rest => readBasic false .none [] rest
  | '\x27' :: rest => readLiteral rest
  | cs =>
    let bare := cs.takeWhile isBareKeyChar
    if bare.isEmpty then malformed
    else .ok (String.ofList bare, cs.dropWhile isBareKeyChar)

/-- A key of at most so many parts, with the blanks behind it. -/
def readKey : Nat → List Char → Except Fault (Key × List Char)
  | 0, _ => malformed
  | fuel + 1, cs => do
    let (part, rest) ← readKeyPart cs
    match skipBlanks rest with
    | '.' :: rest => do
      let (more, rest) ← readKey fuel (skipBlanks rest)
      return (part :: more, rest)
    | rest => return ([part], rest)

/-- Further digits, each with a low line in front or not. -/
def moreDigits (isDigit : Char → Bool) : List Char → List Char × List Char
  | '_' :: c :: rest =>
    if isDigit c then
      let (more, rest) := moreDigits isDigit rest
      (c :: more, rest)
    else ([], '_' :: c :: rest)
  | c :: rest =>
    if isDigit c then
      let (more, rest) := moreDigits isDigit rest
      (c :: more, rest)
    else ([], c :: rest)
  | [] => ([], [])

/-- At least one digit. -/
def digits? (isDigit : Char → Bool) : List Char → Option (List Char × List Char)
  | c :: rest =>
    if isDigit c then
      let (more, rest) := moreDigits isDigit rest
      some (c :: more, rest)
    else none
  | [] => none

/-- The digits of an integer in another base behind its mark. -/
def basedInteger? : List Char → Option (List Char)
  | '0' :: mark :: rest =>
    let isDigit? : Option (Char → Bool) :=
      match mark with
      | 'x' => some fun c => (hexValue? [c]).isSome
      | 'o' => some fun c => '0' ≤ c && c ≤ '7'
      | 'b' => some fun c => c = '0' || c = '1'
      | _ => none
    isDigit?.bind fun isDigit => (digits? isDigit rest).map (·.2)
  | _ => none

/-- Drops a sign. -/
def skipSign : List Char → List Char
  | '+' :: rest | '-' :: rest => rest
  | cs => cs

/-- The digits in front of the point: a zero alone, or digits that do not start with it. -/
def wholePart? : List Char → Option (List Char × List Char)
  | '0' :: rest => some (['0'], rest)
  | cs => digits? Char.isDigit cs

/-- What follows a fraction, if there is one. -/
def skipFraction (cs : List Char) : List Char :=
  match cs with
  | '.' :: rest => ((digits? Char.isDigit rest).map (·.2)).getD cs
  | cs => cs

/-- What follows an exponent, if there is one. -/
def skipExponent (cs : List Char) : List Char :=
  match cs with
  | 'e' :: rest | 'E' :: rest => ((digits? Char.isDigit (skipSign rest)).map (·.2)).getD cs
  | cs => cs

/-- The longest decimal integer that is converted, in digits. -/
def maxDigits : Nat := 4300

/-- A decimal number. -/
def readDecimal (cs : List Char) : Except Fault (Node × List Char) :=
  match wholePart? (skipSign cs) with
  | none =>
    match skipSign cs with
    | 'i' :: 'n' :: 'f' :: rest | 'n' :: 'a' :: 'n' :: rest => .ok (.number, rest)
    | _ => malformed
  | some (digits, rest) =>
    let behind := skipExponent (skipFraction rest)
    if behind.length < rest.length then .ok (.number, behind)
    else if maxDigits < digits.length then .error .overlongInteger
    else .ok (.integer, rest)

/-- Two digits between bounds. -/
def pair? (low high : Nat) (a b : Char) : Option Nat :=
  let n := (a.toNat - 48) * 10 + (b.toNat - 48)
  if a.isDigit && b.isDigit && low ≤ n && n ≤ high then some n else none

/-- What follows a time of day, if there is one. -/
def skipTime? : List Char → Option (List Char)
  | a :: b :: ':' :: c :: d :: ':' :: e :: f :: rest =>
    if (pair? 0 23 a b).isSome && (pair? 0 59 c d).isSome && (pair? 0 59 e f).isSome then
      match rest with
      | '.' :: g :: more => some (if g.isDigit then more.dropWhile Char.isDigit else rest)
      | rest => some rest
    else none
  | _ => none

/-- Drops the distance from universal time. -/
def skipZone (cs : List Char) : List Char :=
  match cs with
  | 'Z' :: rest | 'z' :: rest => rest
  | sign :: a :: b :: ':' :: c :: d :: rest =>
    if (sign = '+' || sign = '-') && (pair? 0 23 a b).isSome && (pair? 0 59 c d).isSome then rest
    else cs
  | cs => cs

/-- The number of days of a month. -/
def daysIn (year month : Nat) : Nat :=
  if month = 2 then
    if year % 4 = 0 && (year % 100 ≠ 0 || year % 400 = 0) then 29 else 28
  else if [4, 6, 9, 11].contains month then 30
  else 31

/-- What follows a date by its form, with year, month and day. -/
def date? : List Char → Option ((Nat × Nat × Nat) × List Char)
  | a :: b :: c :: d :: '-' :: e :: f :: '-' :: g :: h :: rest => do
    let century ← pair? 0 99 a b
    let year ← pair? 0 99 c d
    let month ← pair? 1 12 e f
    let day ← pair? 1 31 g h
    return ((century * 100 + year, month, day), rest)
  | _ => none

/-- A date, alone or with a time of day. -/
def readDate (date : Nat × Nat × Nat) (cs : List Char) : Except Fault (Node × List Char) :=
  let (year, month, day) := date
  let timed :=
    match cs with
    | 'T' :: rest | 't' :: rest | ' ' :: rest => skipTime? rest
    | _ => none
  if year = 0 || daysIn year month < day then malformed
  else
    match timed with
    | some rest => .ok (.datetime, skipZone rest)
    | none => .ok (.date, cs)

/-- A date, a time or a number. -/
def readScalar (cs : List Char) : Except Fault (Node × List Char) :=
  match date? cs with
  | some (date, rest) => readDate date rest
  | none =>
    match skipTime? cs with
    | some rest => .ok (.time, rest)
    | none =>
      match basedInteger? cs with
      | some rest => .ok (.integer, rest)
      | none => readDecimal cs

mutual

/-- A value. -/
def readValue : Nat → List Char → Except Fault (Node × List Char)
  | 0, _ => malformed
  | fuel + 1, cs =>
    match cs with
    | '\x22' :: _ | '\x27' :: _ => do
      let (text, rest) ← readText cs
      return (.text text, rest)
    | 't' :: 'r' :: 'u' :: 'e' :: rest => .ok (.boolean true, rest)
    | 'f' :: 'a' :: 'l' :: 's' :: 'e' :: rest => .ok (.boolean false, rest)
    | '[' :: rest => do
      let (items, rest) ← readItems fuel rest
      return (.array items, rest)
    | '\x7b' :: rest =>
      match skipBlanks rest with
      | '\x7d' :: rest => .ok (.table [], rest)
      | rest => readInline fuel {} rest
    | cs => readScalar cs

/-- The elements of an array and its end. -/
def readItems : Nat → List Char → Except Fault (List Node × List Char)
  | 0, _ => malformed
  | fuel + 1, cs => do
    match ← skipFiller cs.length cs with
    | ']' :: rest => return ([], rest)
    | cs => do
      let (item, rest) ← readValue fuel cs
      match ← skipFiller rest.length rest with
      | ']' :: rest => return ([item], rest)
      | ',' :: rest => do
        let (items, rest) ← readItems fuel rest
        return (item :: items, rest)
      | _ => malformed

/-- The entries of an inline table and its end. -/
def readInline : Nat → InlineTable → List Char → Except Fault (Node × List Char)
  | 0, _, _ => malformed
  | fuel + 1, t, cs => do
    let (key, rest) ← readKey cs.length cs
    match rest with
    | '=' :: rest => do
      let (node, rest) ← readValue fuel (skipBlanks rest)
      let t ← orRefuse (t.assign key node)
      match skipBlanks rest with
      | '\x7d' :: rest => return (.table t.table, rest)
      | ',' :: rest => readInline fuel t (skipBlanks rest)
      | _ => malformed
    | _ => malformed

end

/-- An assignment. -/
def readAssignment (d : Document) (cs : List Char) : Except Fault (Document × List Char) := do
  let (key, rest) ← readKey cs.length cs
  match rest with
  | '=' :: rest => do
    let (node, rest) ← readValue (rest.length + 1) (skipBlanks rest)
    return (← orRefuse (d.assign key node), skipBlanks rest)
  | _ => malformed

/-- A header, from behind its first bracket. -/
def readHeader (d : Document) : List Char → Except Fault (Document × List Char)
  | '[' :: rest => do
    let (key, rest) ← readKey rest.length (skipBlanks rest)
    let d ← orRefuse (d.openElement key)
    match rest with
    | ']' :: ']' :: rest => return (d, skipBlanks rest)
    | _ => malformed
  | cs => do
    let (key, rest) ← readKey cs.length (skipBlanks cs)
    let d ← orRefuse (d.openTable key)
    match rest with
    | ']' :: rest => return (d, skipBlanks rest)
    | _ => malformed

/-- The statement on a line, if it holds one. -/
def readStatement (d : Document) (cs : List Char) : Except Fault (Document × List Char) :=
  match cs with
  | [] | '\n' :: _ | '#' :: _ => .ok (d, cs)
  | '[' :: rest => readHeader d rest
  | c :: _ =>
    if isBareKeyChar c || c = '\x22' || c = '\x27' then readAssignment d cs else malformed

/-- The lines of a document, at most so many. -/
def readLines : Nat → Document → List Char → Except Fault Document
  | 0, d, _ => .ok d
  | fuel + 1, d, cs => do
    let (d, rest) ← readStatement d (skipBlanks cs)
    match ← skipComment rest with
    | [] => return d
    | '\n' :: rest => readLines fuel d rest
    | _ => malformed

/-- Takes two-character line ends for single ones. -/
def singleLineEnds : List Char → List Char
  | '\r' :: '\n' :: rest => '\n' :: singleLineEnds rest
  | c :: rest => c :: singleLineEnds rest
  | [] => []

/-- Reads a document. -/
def read (text : String) : Except Fault Table := do
  let cs := singleLineEnds text.toList
  return (← readLines (cs.length + 1) {} cs).table

end Typeward.Toml
