/-!
# Sets of characters as sorted ranges

A property of characters is stored as the sorted list of the ranges of code points that have it.
The tables are written as text, each number in hexadecimal: a group holds the numbers of one
entry, separated by commas, and groups are separated by blanks. This module reads such text and
answers membership by bisection.
-/

namespace Typeward.Text

/-- The value of a lower-case hexadecimal digit. -/
def hexDigit (c : Char) : Nat :=
  if c.isDigit then c.toNat - '0'.toNat else c.toNat - 'a'.toNat + 10

/-- The number written by lower-case hexadecimal digits. -/
def hexNumber (digits : List Char) : Nat :=
  digits.foldl (fun n c => n * 16 + hexDigit c) 0

/-- The groups of numbers written in a table's text. -/
def tableGroups (text : String) : List (List Nat) :=
  ((text.toList.splitOn ' ').filter (! ·.isEmpty)).map fun group =>
    (group.splitOn ',').map hexNumber

/-- Sorted disjoint ranges of code points, both ends included. -/
structure CodeRanges where
  bounds : Array (Nat × Nat)

/-- Ranges written as groups `gap` or `gap,extent`: the distance from the end of the previous range
to the start of this one, and from its start to its end. -/
def CodeRanges.ofGroups (groups : List (List Nat)) : CodeRanges :=
  let step (acc : Array (Nat × Nat) × Nat) (group : List Nat) :=
    match group with
    | [gap] => (acc.1.push (acc.2 + gap, acc.2 + gap), acc.2 + gap)
    | gap :: extent :: _ =>
      (acc.1.push (acc.2 + gap, acc.2 + gap + extent), acc.2 + gap + extent)
    | [] => acc
  ⟨(groups.foldl step (#[], 0)).1⟩

/-- Ranges written as the text of a table, line by line. -/
def CodeRanges.ofTable (lines : List String) : CodeRanges :=
  .ofGroups (lines.flatMap tableGroups)

/-- The number of entries among `count` from `start` on that satisfy `below`, for a property that
holds of a first part of the entries only. -/
def bisect (below : Nat → Bool) : (start count fuel : Nat) → Nat
  | start, _, 0 => start
  | start, 0, _ => start
  | start, count, fuel + 1 =>
    let half := count / 2
    if below (start + half) then bisect below (start + half + 1) (count - half - 1) fuel
    else bisect below start half fuel

/-- The index of the last entry whose key is at most `key`, if there is one. -/
def lastAtMost {α : Type} (entries : Array α) (keyOf : α → Nat) (key : Nat) : Option α :=
  let count := bisect (fun i => (entries[i]?).any (keyOf · ≤ key)) 0 entries.size 64
  if count = 0 then none else entries[count - 1]?

/-- Whether a code point lies in one of the ranges. -/
def CodeRanges.contains (ranges : CodeRanges) (code : Nat) : Bool :=
  match lastAtMost ranges.bounds (·.1) code with
  | some (_, last) => code ≤ last
  | none => false

end Typeward.Text
