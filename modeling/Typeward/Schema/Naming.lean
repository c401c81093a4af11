import Typeward.Value.Text

/-!
# The names of types

A type is shown by its display name, or else by a name made of those of its parts. A late reference
is shown by the name of the type that it stands for. Names can go round in a circle; this is noticed
by the number of references that are followed, since among more references than there are slots one
comes twice.
-/

namespace Typeward

/-- What checks need to know of the session they run in. -/
structure Surroundings (m : Type → Type) where
  world : World
  /-- The type that a late reference stands for. -/
  resolve : Nat → m Schema
  /-- The text of a runtime type that is used as a value. -/
  modelText : Nat → m String
  /-- The number of slots of late references. -/
  slotCount : Nat

variable {m : Type → Type} [Monad m]

namespace Schema

/-- A display name, unless it is missing or empty. -/
def displayOr (shown : Option String) (default : m String) : m String :=
  match shown.filter (· ≠ "") with
  | some name => pure name
  | none => default

mutual

/-- The name of a type, given those of late references and the texts of values. -/
def nameWith (late : Nat → m String) (text : Value → m String) : Schema → m String
  | .irreducible name _ => pure name
  | .maybe inner shown => displayOr shown do return "?" ++ (← nameWith late text inner)
  | .list element container shown => displayOr shown do
    return container ++ "[" ++ (← nameWith late text element) ++ "]"
  | .dict key value shown => displayOr shown do
    let key ← nameWith late text key
    let value ← nameWith late text value
    return "dict[" ++ key ++ ", " ++ value ++ "]"
  | .interface props shown => displayOr shown do
    return Value.enclosed "\x7b" (← propertyNamesWith late text props) "\x7d"
  | .union members shown => displayOr shown do
    return " | ".intercalate (← namesWith late text members)
  | .intersection members shown => displayOr shown do
    return " & ".intercalate (← namesWith late text members)
  | .refinement base predicate shown => displayOr shown do
    return "\x7b" ++ (← nameWith late text base) ++ " | " ++ predicate.predicateName ++ "\x7d"
  | .tuple elements isVariadic shown => displayOr shown do
    return Value.enclosed "tuple[" (← namesWith late text elements)
      (if isVariadic then ", ...]" else "]")
  | .func none result shown => displayOr shown do
    return "Callable[..., " ++ (← nameWith late text result) ++ "]"
  | .func (some params) result shown => displayOr shown do
    let params ← namesWith late text params
    return Value.enclosed "Callable[[" params "], " ++ (← nameWith late text result) ++ "]"
  | .literal value shown => displayOr shown (text value)
  | .late slot => late slot

/-- The names of several types. -/
def namesWith (late : Nat → m String) (text : Value → m String) : List Schema → m (List String)
  | [] => pure []
  | s :: rest => do
    let first ← nameWith late text s
    return first :: (← namesWith late text rest)

/-- The properties of an interface with the names of their types. -/
def propertyNamesWith (late : Nat → m String) (text : Value → m String) :
    List (String × Schema) → m (List String)
  | [] => pure []
  | (key, s) :: rest => do
    let first ← nameWith late text s
    return (key ++ ": " ++ first) :: (← propertyNamesWith late text rest)

end

end Schema

namespace Surroundings

variable [MonadExceptOf Raised m]

/-- The text of a value. -/
def valueText (cx : Surroundings m) (v : Value) : m String := v.textWith cx.modelText

/-- The name of a late reference, following so many references at most. -/
def lateName (cx : Surroundings m) : Nat → Nat → m String
  | 0, _ => throw .endless
  | fuel + 1, slot => do (← cx.resolve slot).nameWith (lateName cx fuel) cx.valueText

/-- The name of a type. -/
def name (cx : Surroundings m) (s : Schema) : m String :=
  s.nameWith (cx.lateName cx.slotCount) cx.valueText

/-- The type behind late references, following so many at most. -/
def settle (cx : Surroundings m) : Nat → Schema → m Schema
  | 0, .late _ => throw .endless
  | fuel + 1, .late slot => do cx.settle fuel (← cx.resolve slot)
  | _, s => pure s

/-- The type that a type is after all late references are followed. -/
def settled (cx : Surroundings m) (s : Schema) : m Schema := cx.settle cx.slotCount s

end Surroundings

end Typeward
