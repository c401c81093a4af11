/-!
# Markers

What the markers in annotations are when a module runs without being compiled: values that stand
for any type whatever they are given.
-/

namespace Typeward

/-- The markers that annotations may hold. -/
inductive Marker where
  | refinement
  | intersection
deriving DecidableEq, Repr

/-- The name of a marker. -/
def Marker.name : Marker → String
  | .refinement => "Refinement"
  | .intersection => "Intersection"

/-- A marker as it is shown. -/
def Marker.text (m : Marker) : String := "typecomb.markers." ++ m.name

/-- What a marker with arguments stands for, as it is shown: any type. -/
def Marker.itemText (_ : Marker) : String := "typing.Any"

/-- What asking for the model of a type answers in a module that is not compiled: the type. -/
def uncompiledModel {α : Type} (type : α) : α := type

end Typeward
