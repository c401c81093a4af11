import Typeward.Text.Printable

/-!
# Quoted text

How text and byte strings are written as literals. The quote is the single one unless the text
holds single quotes and no double ones; the quote, backslashes, the three usual controls and all
characters that are not printable are escaped.
-/

namespace Typeward.Text

/-- The single quote character. -/
def singleQuote : Char := '\x27'

/-- The double quote character. -/
def doubleQuote : Char := '\x22'

/-- The lowest `width` hexadecimal digits of a number, in lower case. -/
def hexDigits (width n : Nat) : List Char :=
  match width with
  | 0 => []
  | width + 1 => hexDigits width (n / 16) ++ [Nat.digitChar (n % 16)]

/-- The escape of a code point by its number: two, four or eight digits, as few as hold it. -/
def numericEscape (code : Nat) : List Char :=
  if code < 0x100 then '\\' :: 'x' :: hexDigits 2 code
  else if code < 0x10000 then '\\' :: 'u' :: hexDigits 4 code
  else '\\' :: 'U' :: hexDigits 8 code

/-- The escape of a character that is not shown as it is. -/
def escapeChar (c : Char) : List Char :=
  if c = '\t' then ['\\', 't']
  else if c = '\n' then ['\\', 'n']
  else if c = '\r' then ['\\', 'r']
  else if c = '\\' then ['\\', '\\']
  else numericEscape c.toNat

/-- A character inside quotes. -/
def quotedChar (quote c : Char) : List Char :=
  if c = quote then ['\\', c]
  else if c = '\\' || ! isPrintable c then escapeChar c
  else [c]

/-- The quote for a text: single, unless only single quotes occur in it. -/
def quoteFor (cs : List Char) : Char :=
  if cs.contains singleQuote && ! cs.contains doubleQuote then doubleQuote else singleQuote

/-- The characters of a text between quotes. -/
def quotedBody (quote : Char) (cs : List Char) : List Char :=
  cs.flatMap (quotedChar quote)

/-- A text as a literal. -/
def quoted (text : String) : String :=
  let cs := text.toList
  let quote := quoteFor cs
  String.ofList (quote :: quotedBody quote cs ++ [quote])

/-- A byte inside quotes: the printable characters of ASCII are shown, all others escaped. -/
def quotedByte (quote : Char) (b : UInt8) : List Char :=
  let c := Char.ofNat b.toNat
  if c = quote then ['\\', c]
  else if c = '\\' || c.toNat < 32 || 127 ≤ c.toNat then escapeChar c
  else [c]

/-- A byte string as a literal. -/
def quotedBytes (bytes : List UInt8) : String :=
  let quote := quoteFor (bytes.map fun b => Char.ofNat b.toNat)
  String.ofList ('b' :: quote :: bytes.flatMap (quotedByte quote) ++ [quote])

/-- The bytes of an array as a literal: single quotes are escaped between double ones, too. -/
def quotedByteArray (bytes : List UInt8) : String :=
  let quote := quoteFor (bytes.map fun b => Char.ofNat b.toNat)
  let shown (b : UInt8) :=
    if Char.ofNat b.toNat = singleQuote then ['\\', singleQuote] else quotedByte quote b
  String.ofList ('b' :: quote :: bytes.flatMap shown ++ [quote])

end Typeward.Text
