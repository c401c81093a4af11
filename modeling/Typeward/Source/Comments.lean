import Typeward.Text.Blank
import Typeward.Text.Lines
import Typeward.Text.Quoted

/-!
# Comments

Finds the comments of a text, line by line. Here only a line feed ends a line. Text in strings is
no comment, so strings are followed across lines; so are brackets and layout, because a text in
which they do not work out has no comments at all.
-/

namespace Typeward.Source

/-- Why a text is not searched for comments. -/
inductive CommentFault where
  /-- The text ends inside a string, a bracket or a continued line. -/
  | unfinished
  /-- A line is indented less than the one before and like none above. -/
  | badIndentation
deriving DecidableEq, Repr

/-- A string that goes on behind the end of its line. -/
structure OpenString where
  quote : Char
  /-- Whether it has tripled quotes. -/
  tripled : Bool

/-- What has to be known at the start of a line. -/
structure CommentState where
  string : Option OpenString := none
  /-- Whether the lines of an open string have to end in a backslash, as they do without tripled
  quotes. A string that is given up leaves this to the next one. -/
  needsBackslash : Bool := false
  /-- Opening brackets less closing ones. -/
  depth : Int := 0
  /-- Whether the line before ended in a backslash. -/
  continued : Bool := false
  /-- The indentations of the open blocks, innermost first. -/
  indents : List Nat := [0]
  /-- Whether the text has ended. -/
  ended : Bool := false

/-- What follows the end of a string with tripled quotes, if it ends on the line. -/
def behindTripled (quote : Char) : List Char → Option (List Char)
  | [] => none
  | '\\' :: [] => none
  | '\\' :: c :: rest => if c = '\n' then none else behindTripled quote rest
  | c :: rest =>
    if c = quote ∧ [quote, quote].isPrefixOf rest then some (rest.drop 2)
    else behindTripled quote rest

/-- What follows the end of a string, if it ends on the line. -/
def behindQuote (quote : Char) : List Char → Option (List Char)
  | [] => none
  | '\\' :: [] => none
  | '\\' :: c :: rest => if c = '\n' then none else behindQuote quote rest
  | c :: rest => if c = quote then some rest else behindQuote quote rest

/-- Whether a string that does not end on its line goes on behind a backslash. -/
def endsInBackslash (quote : Char) : List Char → Bool
  | [] => false
  | '\\' :: '\n' :: _ => true
  | '\\' :: '\r' :: '\n' :: _ => true
  | '\\' :: _ :: rest => endsInBackslash quote rest
  | c :: rest => c != '\n' && c != quote && endsInBackslash quote rest

/-- What follows a string that starts and ends on one line. -/
def behindShort (quote : Char) (cs : List Char) : Option (List Char) :=
  let before := cs.takeWhile (· != '\n')
  (behindQuote quote before).map fun rest => rest ++ cs.dropWhile (· != '\n')

/-- The text of a comment without its signs and blanks. -/
def commentText (cs : List Char) : String := Text.trim (String.ofList (cs.dropWhile (· = '#')))

/-- Reads the rest of a line: the last comment on it, and the state at its end. -/
def scanComment (s : CommentState) (found : Option String) (cs : List Char) :
    (fuel : Nat) → Option String × CommentState
  | 0 => (found, s)
  | fuel + 1 =>
    match cs with
    | [] => (found, s)
    | '#' :: _ =>
      let inComment := fun c => c != '\r' && c != '\n'
      scanComment s (some (commentText (cs.takeWhile inComment))) (cs.dropWhile inComment) fuel
    | '\\' :: '\n' :: _ | '\\' :: '\r' :: '\n' :: _ => (found, { s with continued := true })
    | c :: rest =>
      if c = Text.singleQuote ∨ c = Text.doubleQuote then
        if [c, c].isPrefixOf rest then
          match behindTripled c (rest.drop 2) with
          | some behind => scanComment s found behind fuel
          | none => (found, { s with string := some ⟨c, true⟩ })
        else
          match behindShort c rest with
          | some behind => scanComment s found behind fuel
          | none =>
            if endsInBackslash c rest then
              (found, { s with string := some ⟨c, false⟩, needsBackslash := true })
            else scanComment s found rest fuel
      else if c = '(' ∨ c = '[' ∨ c = '\x7b' then
        scanComment { s with depth := s.depth + 1 } found rest fuel
      else if c = ')' ∨ c = ']' ∨ c = '\x7d' then
        scanComment { s with depth := s.depth - 1 } found rest fuel
      else scanComment s found rest fuel

/-- The indentation of a line, with tab stops every eight columns, and what follows it. -/
def measureIndent (column : Nat) : List Char → Nat × List Char
  | ' ' :: rest => measureIndent (column + 1) rest
  | '\t' :: rest => measureIndent ((column / 8 + 1) * 8) rest
  | '\x0c' :: rest => measureIndent 0 rest
  | rest => (column, rest)

/-- Reads one line of a text. -/
def commentLine (s : CommentState) (line : List Char) :
    Except CommentFault (Option String × CommentState) :=
  let size := line.length + 1
  match s.string with
  | some open_ =>
    let behind :=
      if open_.tripled then behindTripled open_.quote line else behindQuote open_.quote line
    match behind with
    | some rest =>
      .ok (scanComment { s with string := none, needsBackslash := false } none rest size)
    | none =>
      let goesOn := ! s.needsBackslash || ['\n', '\\'].isPrefixOf line.reverse ||
        ['\n', '\r', '\\'].isPrefixOf line.reverse
      .ok (none, if goesOn then s else { s with string := none })
  | none =>
    if s.depth = 0 && ! s.continued then
      let (column, rest) := measureIndent 0 line
      match rest with
      | [] => .ok (none, { s with ended := true })
      | '#' :: _ =>
        .ok (some (commentText (Text.trimEndWhere (fun c => c = '\r' || c = '\n') rest)), s)
      | '\r' :: _ | '\n' :: _ => .ok (none, s)
      | _ =>
        if s.indents.headD 0 < column then
          .ok (scanComment { s with indents := column :: s.indents } none rest size)
        else if s.indents.contains column then
          .ok (scanComment { s with indents := s.indents.dropWhile (column < ·) } none rest size)
        else .error .badIndentation
    else .ok (scanComment { s with continued := false } none line size)

/-- Reads lines from a number on. -/
def commentLines (s : CommentState) (number : Nat) :
    List (List Char) → Except CommentFault (List (Nat × String))
  | [] =>
    if s.ended || (s.string.isNone && s.depth = 0 && ! s.continued) then .ok []
    else .error .unfinished
  | line :: rest => do
    if s.ended then return []
    else
      let (found, s) ← commentLine s line
      let more ← commentLines s (number + 1) rest
      return (found.map (number, ·)).toList ++ more

/-- The comments of a text with the lines that they stand on. Of several on a line, as lone carriage
returns allow, the last one counts. -/
def comments (text : String) : Except CommentFault (List (Nat × String)) :=
  commentLines {} 1 (Text.feedLines text.toList)

end Typeward.Source
