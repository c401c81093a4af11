import Typeward.Source.Tree
import Typeward.Text.Identifier

/-!
# Tokens

The words of a module: names, numbers, strings and operators, and the tokens that show its layout.
Each token knows how far the reader had come behind it, since a fault without a place of its own
is reported there.
-/

namespace Typeward.Source

/-- Why and where a text does not parse. The column is counted in characters from one; it is zero
where the place is a whole line. In a replacement field it is counted from the brace, on every line,
and can be negative. -/
structure Malformation where
  line : Nat
  column : Int
  excerpt : String
  reason : String
deriving DecidableEq, Repr, Inhabited

/-- The kinds of tokens. -/
inductive TokenKind where
  | name
  | number
  | string
  | operator
  | newline
  | indent
  | dedent
  | ending
deriving DecidableEq, Repr, Inhabited

/-- How far the reader has come: the line, the characters read of it, and the line at which the text
that it holds for an excerpt starts. -/
structure Reach where
  line : Nat
  chars : Nat
  heldFrom : Nat
deriving DecidableEq, Repr, Inhabited

/-- A token. Layout tokens of no width have no column in characters. -/
structure Token where
  kind : TokenKind
  text : String
  pos : Pos
  chars : Option Nat
  stop : Pos
  /-- The number of brackets that are open behind the token. -/
  depth : Nat
  reach : Reach
deriving Repr, Inhabited

/-- An opening bracket that waits for its partner. -/
structure Bracket where
  opener : Char
  pos : Pos
  chars : Nat
deriving DecidableEq, Repr

/-- How the tokens of a text end. -/
inductive LexEnd where
  /-- All of the text is read. -/
  | complete
  /-- A word of the text is malformed. -/
  | malformed (fault : Malformation)
  /-- The text ends inside a bracket. -/
  | insideBracket (bracket : Bracket) (reach : Reach)
  /-- The text ends behind a line continuation. -/
  | insideLine (bracket : Option Bracket) (reach : Reach)
  /-- The layout is inconsistent; the fault is reported if the parser gets there. -/
  | badLayout (fault : Malformation) (bracket : Option Bracket) (reach : Reach)
deriving Repr

/-- The tokens of a text and how they end. -/
structure Lexed where
  tokens : Array Token
  ending : LexEnd
  lines : Array String

/-- Whether a character may start a name; characters beyond ASCII are checked later. -/
def isNameStart (c : Char) : Bool := c.isAlpha || c == '_' || 128 ≤ c.toNat

/-- Whether a character may continue a name; characters beyond ASCII are checked later. -/
def isNamePart (c : Char) : Bool := isNameStart c || c.isDigit

/-- The reserved words. -/
def keywords : List String :=
  ["False", "None", "True", "and", "as", "assert", "async", "await", "break", "class", "continue",
    "def", "del", "elif", "else", "except", "finally", "for", "from", "global", "if", "import",
    "in", "is", "lambda", "nonlocal", "not", "or", "pass", "raise", "return", "try", "while",
    "with", "yield"]

/-- Operators of three characters. -/
def longOperators : List (List Char) :=
  ["**=", "//=", ">>=", "<<=", "..."].map String.toList

/-- Operators of two characters. -/
def pairOperators : List (List Char) :=
  ["!=", "%=", "&=", "**", "*=", "+=", "-=", "->", "//", "/=", ":=", "<<", "<=", "<>", "==", ">=",
    ">>", "@=", "^=", "|="].map String.toList

/-- The letters that may stand before a string's quote. -/
def stringMarks : List String :=
  ["", "b", "r", "u", "f", "br", "rb", "fr", "rf"]

/-- The closing bracket for an opening one. -/
def closerOf : Char → Char
  | '(' => ')'
  | '[' => ']'
  | _ => '\x7d'

/-- Whether a character is an opening bracket. -/
def isOpener (c : Char) : Bool := c == '(' || c == '[' || c == '\x7b'

/-- Whether a character is a closing bracket. -/
def isCloser (c : Char) : Bool := c == ')' || c == ']' || c == '\x7d'

end Typeward.Source
