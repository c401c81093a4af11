import Typeward.Text.Lines

/-!
# Encodings of source files

A source file is text in UTF-8, unless a comment in its first two lines declares another encoding.
A byte order mark stands for UTF-8 and admits no other declaration. The line of a declaration, and
the lines before it, must be UTF-8 in any case.
-/

namespace Typeward.Text

/-- The encodings that can be declared. -/
inductive Encoding where
  | utf8
  | latin1
  | ascii
deriving DecidableEq, Repr

/-- Why bytes are no text. -/
inductive EncodingFault where
  /-- The declaration is unknown, contradicts the byte order mark, or is not text itself. -/
  | badDeclaration
  /-- A sequence of bytes encodes nothing. -/
  | undecodable
deriving DecidableEq, Repr

/-- The text that bytes encode, if they do. -/
def Encoding.decode? (e : Encoding) (bytes : List UInt8) : Option String :=
  match e with
  | .utf8 => String.fromUTF8? ⟨bytes.toArray⟩
  | .latin1 => some (String.ofList (bytes.map fun b => Char.ofNat b.toNat))
  | .ascii =>
    if bytes.all (· < 128) then some (String.ofList (bytes.map fun b => Char.ofNat b.toNat))
    else none

/-- Blanks before and inside of a declaration. -/
def isMarginBlank (c : Char) : Bool := c = ' ' || c = '\t' || c = '\x0c'

/-- Characters in the name of an encoding. -/
def isEncodingChar (c : Char) : Bool := c.isAlphanum || c = '_' || c = '-' || c = '.'

/-- The name behind the word for a declaration, if the text starts with one. -/
def encodingNameHere (cs : List Char) : Option (List Char) :=
  if cs.take 6 = "coding".toList then
    match cs.drop 6 with
    | c :: rest =>
      let name := (rest.dropWhile fun c => c = ' ' || c = '\t').takeWhile isEncodingChar
      if (c = ':' || c = '=') && ! name.isEmpty then some name else none
    | [] => none
  else none

/-- The name in the first declaration anywhere in a text. -/
def encodingNameIn : List Char → Option (List Char)
  | [] => none
  | c :: rest =>
    match encodingNameHere (c :: rest) with
    | some name => some name
    | none => encodingNameIn rest

/-- The name that a line declares: one in a comment that has the line for itself. -/
def declaredEncoding (line : List Char) : Option (List Char) :=
  match line.dropWhile isMarginBlank with
  | '#' :: rest => encodingNameIn rest
  | _ => none

/-- Whether a line leaves the declaration to the next one. -/
def isMarginLine (line : List Char) : Bool :=
  match line.dropWhile isMarginBlank with
  | [] => true
  | c :: _ => c = '#' || c = '\r' || c = '\n'

/-- The names of encodings, in lower case and with hyphens. -/
def encodingNames : List (Encoding × List String) :=
  [(.utf8, ["utf-8", "utf8", "u8", "utf"]),
    (.latin1, ["latin-1", "iso-8859-1", "iso-latin-1", "latin1", "latin", "l1", "iso8859-1", "iso8859",
      "8859", "cp819"]),
    (.ascii, ["ascii", "us-ascii", "us", "646", "cp367"])]

/-- The name of an encoding in its normal spelling, by its first characters. -/
def normalEncodingName (name : List Char) : String :=
  let short := String.ofList ((name.take 12).map fun c => if c = '_' then '-' else c.toLower)
  let isVariant (of : String) : Bool := short = of || short.startsWith (of ++ "-")
  if isVariant "utf-8" then "utf-8"
  else if ["latin-1", "iso-8859-1", "iso-latin-1"].any isVariant then "iso-8859-1"
  else String.ofList (name.map fun c => if c = '_' then '-' else c.toLower)

/-- The encoding with a name. -/
def Encoding.ofName? (name : String) : Option Encoding :=
  (encodingNames.find? (·.2.contains name)).map (·.1)

/-- The bytes of the first line, its end included, and the others. -/
def splitFirstLine (bytes : List UInt8) : List UInt8 × List UInt8 :=
  match bytes.dropWhile (· ≠ 10) with
  | [] => (bytes, [])
  | feed :: rest => (bytes.takeWhile (· ≠ 10) ++ [feed], rest)

/-- What a line says about the encoding: nothing, or the encoding with its declared name. -/
def lineEncoding (line : List UInt8) :
    Except EncodingFault (Option (Encoding × String) × List Char) :=
  match Encoding.utf8.decode? line with
  | none => .error .badDeclaration
  | some text =>
    match declaredEncoding text.toList with
    | none => .ok (none, text.toList)
    | some name =>
      let name := normalEncodingName name
      match Encoding.ofName? name with
      | none => .error .badDeclaration
      | some e => .ok (some (e, name), text.toList)

/-- The encoding that is declared in the first two lines. -/
def findEncoding (bytes : List UInt8) : Except EncodingFault (Option (Encoding × String)) := do
  let (first, rest) := splitFirstLine bytes
  match ← lineEncoding first with
  | (some e, _) => return some e
  | (none, line) =>
    if rest.isEmpty || ! isMarginLine line then return none
    else return (← lineEncoding (splitFirstLine rest).1).1

/-- The bytes behind a byte order mark, if there is one. -/
def afterMark? : List UInt8 → Option (List UInt8)
  | 0xEF :: 0xBB :: 0xBF :: rest => some rest
  | _ => none

/-- The text of a source file as it is, in the encoding that it declares. -/
def decodeDeclared (bytes : List UInt8) : Except EncodingFault String := do
  let isMarked := (afterMark? bytes).isSome
  let bytes := (afterMark? bytes).getD bytes
  let encoding ←
    match ← findEncoding bytes with
    | none => pure .utf8
    | some (e, name) => if isMarked && name ≠ "utf-8" then throw .badDeclaration else pure e
  match encoding.decode? bytes with
  | some text => return text
  | none => throw .undecodable

/-- The text of a source file that is imported. A carriage return at its very end is not read. -/
def decodeSource (bytes : List UInt8) : Except EncodingFault String := do
  let cs := (← decodeDeclared bytes).toList
  let cs := if cs.getLast? = some '\r' then cs.dropLast else cs
  return String.ofList (unifyNewlines cs)

/-- The text of a file in UTF-8. -/
def decodeText (bytes : List UInt8) : Except EncodingFault String :=
  match Encoding.utf8.decode? bytes with
  | some text => .ok (String.ofList (unifyNewlines text.toList))
  | none => .error .undecodable

end Typeward.Text
