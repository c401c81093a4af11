/-!
# Places in a source file

Where a diagnostic points: a line and a column, both counted from one, and the file if it is known.
-/

namespace Typeward

/-- A place in a source file. -/
structure Location where
  line : Int
  column : Int
  filename : Option String := none
deriving DecidableEq, Repr, Inhabited

/-- The place as shown in messages; a file without a name is left out. -/
def Location.show (l : Location) : String :=
  let place := toString l.line ++ ":" ++ toString l.column
  match l.filename with
  | some "" | none => place
  | some file => file ++ ":" ++ place

/-- Whether a place lies behind another one, by line and then by column. -/
def Location.isBelow (l other : Location) : Bool :=
  other.line < l.line || (l.line = other.line && other.column < l.column)

end Typeward
