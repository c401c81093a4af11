/-!
# Edit distance

The least number of insertions, deletions and substitutions of single characters that turn one text
into another, computed row by row: the row of a part of the first text holds its distances to
every part of the second one. The rows run along the shorter of the two texts.
-/

namespace Typeward

namespace EditDistance

/-- The cells of a row from the one above. `left` is the cell before, `above` the cells above from
the one over `left` on, and the list holds the characters of the second text still to come. -/
def extendRow (c : Char) (left : Nat) (above : List Nat) : List Char → List Nat
  | [] => []
  | d :: rest =>
    match above with
    | diagonal :: upper :: beyond =>
      let cell := min (min (upper + 1) (left + 1)) (diagonal + if c = d then 0 else 1)
      cell :: extendRow c cell (upper :: beyond) rest
    | _ => []

/-- The row behind one more character of the first text. -/
def nextRow (second : List Char) (row : List Nat) (c : Char) : List Nat :=
  let first := row.headD 0 + 1
  first :: extendRow c first row second

/-- The row of the whole first text. -/
def lastRow (first second : List Char) : List Nat :=
  first.foldl (nextRow second) (List.range (second.length + 1))

end EditDistance

/-- The edit distance of two texts. -/
def editDistance (first second : String) : Nat :=
  if first.length < second.length then
    (EditDistance.lastRow second.toList first.toList).getLastD 0
  else
    (EditDistance.lastRow first.toList second.toList).getLastD 0

end Typeward
