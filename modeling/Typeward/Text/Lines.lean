/-!
# Lines of text

Three notions of a line meet in this library. `splitLines` splits at every line boundary of the
Unicode standard and serves the excerpts in error messages. `unifyNewlines` turns the carriage
return conventions into line feeds, which is how source text is read. `feedLines` splits at line
feeds alone and keeps them, which is how comments are numbered.
-/

namespace Typeward.Text

/-- Whether a character ends a line by itself. -/
def isLineBoundary (c : Char) : Bool :=
  [0x0A, 0x0B, 0x0C, 0x0D, 0x1C, 0x1D, 0x1E, 0x85, 0x2028, 0x2029].contains c.toNat

/-- Splits at every line boundary; `line` holds the current line, last character first. A carriage
return and the line feed behind it are one boundary, and the end of the text starts no line. -/
def splitLinesFrom (line : List Char) : List Char → List (List Char)
  | [] => if line.isEmpty then [] else [line.reverse]
  | '\r' :: '\n' :: rest => line.reverse :: splitLinesFrom [] rest
  | c :: rest =>
    if isLineBoundary c then line.reverse :: splitLinesFrom [] rest
    else splitLinesFrom (c :: line) rest

/-- The lines of a text, split at every line boundary. -/
def splitLines (text : String) : List String :=
  (splitLinesFrom [] text.toList).map String.ofList

/-- Carriage returns, alone or before a line feed, become line feeds. -/
def unifyNewlines : List Char → List Char
  | [] => []
  | '\r' :: '\n' :: rest => '\n' :: unifyNewlines rest
  | c :: rest => (if c = '\r' then '\n' else c) :: unifyNewlines rest

/-- Splits behind every line feed and keeps it; `line` holds the current line, last character
first. -/
def feedLinesFrom (line : List Char) : List Char → List (List Char)
  | [] => if line.isEmpty then [] else [line.reverse]
  | c :: rest =>
    if c = '\n' then (c :: line).reverse :: feedLinesFrom [] rest
    else feedLinesFrom (c :: line) rest

/-- The lines of a text, each with the line feed that ends it. -/
def feedLines (text : List Char) : List (List Char) :=
  feedLinesFrom [] text

end Typeward.Text
