import Typeward.EditDistance
import Typeward.Text.LowerCase

/-!
# Suggestions for a misspelled name

The names close to one that was not found, nearest first and then in the order of their text.
Closeness ignores case; the name itself is never suggested.
-/

namespace Typeward

/-- A list cut at a length; a negative one drops so many entries from the end. -/
def cutTo {α : Type} (limit : Int) (xs : List α) : List α :=
  if limit < 0 then xs.take (xs.length - (-limit).toNat) else xs.take limit.toNat

/-- A candidate with its distance. -/
structure Suggestion where
  distance : Nat
  name : String
deriving DecidableEq, Repr

/-- Nearer suggestions come first, equally near ones in the order of their text. -/
def Suggestion.atMost (a b : Suggestion) : Bool :=
  a.distance < b.distance || (a.distance = b.distance && a.name ≤ b.name)

/-- The candidates within a distance of a name, in order. -/
def closeNames (name : String) (candidates : List String) (maxDistance : Int) : List Suggestion :=
  let scored := (candidates.filter (· ≠ name)).map fun candidate =>
    Suggestion.mk (editDistance (Text.lowerCase name) (Text.lowerCase candidate)) candidate
  (scored.filter fun s => (s.distance : Int) ≤ maxDistance).mergeSort Suggestion.atMost

/-- The names to suggest for one that was not found. -/
def suggest (name : String) (candidates : List String) (maxDistance : Int := 2)
    (maxSuggestions : Int := 3) : List String :=
  (cutTo maxSuggestions (closeNames name candidates maxDistance)).map (·.name)

end Typeward
