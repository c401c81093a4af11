import Typeward.Schema.Naming

/-!
# Checks of values

All mismatches of a value with a type, in the order in which they are found, each with the path
from the whole value to the part that is rejected. Between two late references that are followed the
check descends in the type; `Surroundings.errors` allows as many references for each level of the
value as there are slots, which is enough unless a check comes back to itself.
-/

namespace Typeward

variable {m : Type → Type} [Monad m] [MonadExceptOf Raised m]

/-- Whether a value passes the test of an irreducible type. -/
def Test.accepts (world : World) (test : Test) (v : Value) : Bool :=
  match test, v.plain with
  | .anything, _ => true
  | .absence, .constant .none => true
  | .text, .constant c => c.isText
  | .integer, .constant (.int _) | .integer, .constant (.bool _) => true
  | .number, .constant (.int _) | .number, .constant (.float _) => true
  | .complex, .constant (.int _) | .complex, .constant (.float _)
  | .complex, .constant (.complex ..) => true
  | .boolean, .constant (.bool _) => true
  | .bytes, .constant (.bytes _) => true
  | .callable, _ => world.isCallable v
  | .mapping, .mapping .. => true
  | .instanceOf c, _ => world.isInstance v c
  | _, _ => false

/-- The elements of a value if it is of a kind of container. Texts and byte strings are not taken
for sequences. -/
def Value.elementsIn (container : String) (v : Value) : Except Raised (Option (List Value)) :=
  match container, v.plain with
  | "list", .collection .list items => .ok (some items)
  | "list", _ => .ok none
  | "set", .collection .set items | "set", .collection .frozenSet items => .ok (some items)
  | "set", _ => .ok none
  | "sequence", .collection kind items => .ok (if kind.isUnordered then none else some items)
  | "sequence", .range .. | "sequence", .byteArray _ => .ok v.elements?
  | "sequence", _ => .ok none
  | _, _ => .error (.unknownContainer container)

namespace Surroundings

/-- The mismatch of a value with a type that rejects it as a whole. -/
def reject (cx : Surroundings m) (s : Schema) (v : Value) (path : List String) :
    m (List Mismatch) := do
  let text ← cx.valueText v
  let name ← cx.name s
  return [⟨v, path, s, text, name⟩]

/-- A mismatch, unless a condition is met. -/
def require (cx : Surroundings m) (condition : Bool) (s : Schema) (v : Value) (path : List String) :
    m (List Mismatch) :=
  if condition then pure [] else cx.reject s v path

/-- The mismatches of elements from a number on, each found by a check of an element. -/
def errorsFrom (check : Value → List String → m (List Mismatch)) (path : List String) :
    Nat → List Value → m (List Mismatch)
  | _, [] => pure []
  | i, v :: rest => do
    let first ← check v (path ++ [toString i])
    return first ++ (← errorsFrom check path (i + 1) rest)

/-- The mismatches of the entries of a mapping: of each key, and then of the value at it. -/
def errorsOfEntries (cx : Surroundings m)
    (checkKey checkValue : Value → List String → m (List Mismatch))
    (path : List String) : List (Value × Value) → m (List Mismatch)
  | [] => pure []
  | (k, v) :: rest => do
    let ofKey ← checkKey k (path ++ [← cx.valueText k])
    let ofValue ← checkValue v (path ++ [← k.bareTextWith cx.modelText])
    return ofKey ++ ofValue ++ (← errorsOfEntries cx checkKey checkValue path rest)

mutual

/-- The mismatches of a value with a type, given those with late references. -/
def errorsWith (cx : Surroundings m) (late : Nat → Value → List String → m (List Mismatch)) :
    Schema → Value → List String → m (List Mismatch)
  | .irreducible name test, v, path =>
    cx.require (test.accepts cx.world v) (.irreducible name test) v path
  | .maybe inner _, v, path => if v.isAbsent then pure [] else errorsWith cx late inner v path
  | .list element container shown, v, path =>
    match v.elementsIn container with
    | .error e => throw e
    | .ok none => cx.reject (.list element container shown) v path
    | .ok (some items) => errorsFrom (fun v path => errorsWith cx late element v path) path 0 items
  | .dict key value shown, v, path =>
    match v.entries? with
    | none => cx.reject (.dict key value shown) v path
    | some entries =>
      cx.errorsOfEntries (fun v path => errorsWith cx late key v path)
        (fun v path => errorsWith cx late value v path) path entries
  | .interface props shown, v, path =>
    match v.entries? with
    | none => cx.reject (.interface props shown) v path
    | some entries => errorsOfProperties cx late props entries path
  | .union members shown, v, path => do
    if ← someAccepts cx late members v path then return []
    else cx.reject (.union members shown) v path
  | .intersection members _, v, path => errorsOfAll cx late members v path
  | .refinement base predicate shown, v, path => do
    match ← errorsWith cx late base v path with
    | [] =>
      match cx.world.holds predicate v with
      | .error e => throw e
      | .ok holds => cx.require holds (.refinement base predicate shown) v path
    | found => return found
  | .tuple elements isVariadic shown, v, path =>
    match v.tuple? with
    | none => cx.reject (.tuple elements isVariadic shown) v path
    | some items =>
      if isVariadic then errorsOfRepeated cx late elements items path
      else if items.length = elements.length then errorsOfEach cx late elements items 0 path
      else cx.reject (.tuple elements isVariadic shown) v path
  | .func params result shown, v, path =>
    cx.require (cx.world.isCallable v) (.func params result shown) v path
  | .literal value shown, v, path =>
    cx.require (v.isSameLiteral value) (.literal value shown) v path
  | .late slot, v, path => late slot v path

/-- The mismatches of the properties of a mapping; one that it lacks is checked as absent. -/
def errorsOfProperties (cx : Surroundings m)
    (late : Nat → Value → List String → m (List Mismatch)) :
    List (String × Schema) → List (Value × Value) → List String → m (List Mismatch)
  | [], _, _ => pure []
  | (key, s) :: rest, entries, path => do
    let v := (Value.lookup? entries (.ofText key)).getD .absent
    let first ← errorsWith cx late s v (path ++ [key])
    return first ++ (← errorsOfProperties cx late rest entries path)

/-- Whether some type accepts a value; later ones are not tried once one does. -/
def someAccepts (cx : Surroundings m) (late : Nat → Value → List String → m (List Mismatch)) :
    List Schema → Value → List String → m Bool
  | [], _, _ => pure false
  | s :: rest, v, path => do
    if (← errorsWith cx late s v path).isEmpty then return true
    else someAccepts cx late rest v path

/-- The mismatches of a value with each of several types. -/
def errorsOfAll (cx : Surroundings m) (late : Nat → Value → List String → m (List Mismatch)) :
    List Schema → Value → List String → m (List Mismatch)
  | [], _, _ => pure []
  | s :: rest, v, path => do
    let first ← errorsWith cx late s v path
    return first ++ (← errorsOfAll cx late rest v path)

/-- The mismatches of elements with the first of several types. -/
def errorsOfRepeated (cx : Surroundings m)
    (late : Nat → Value → List String → m (List Mismatch)) :
    List Schema → List Value → List String → m (List Mismatch)
  | [], _, _ => throw .noElement
  | s :: _, items, path => errorsFrom (fun v path => errorsWith cx late s v path) path 0 items

/-- The mismatches of elements from a number on, each with a type of its own. -/
def errorsOfEach (cx : Surroundings m) (late : Nat → Value → List String → m (List Mismatch)) :
    List Schema → List Value → Nat → List String → m (List Mismatch)
  | s :: rest, v :: items, i, path => do
    let first ← errorsWith cx late s v (path ++ [toString i])
    return first ++ (← errorsOfEach cx late rest items (i + 1) path)
  | _, _, _, _ => pure []

end

/-- The mismatches of a value with a late reference, following so many references at most. -/
def lateErrors (cx : Surroundings m) : Nat → Nat → Value → List String → m (List Mismatch)
  | 0, _, _, _ => throw .endless
  | fuel + 1, slot, v, path => do cx.errorsWith (lateErrors cx fuel) (← cx.resolve slot) v path

/-- All mismatches of a value with a type. -/
def errors (cx : Surroundings m) (s : Schema) (v : Value) (path : List String) :
    m (List Mismatch) :=
  cx.errorsWith (cx.lateErrors ((v.depth + 1) * cx.slotCount)) s v path

/-- Whether a type accepts a value. -/
def accepts (cx : Surroundings m) (s : Schema) (v : Value) : m Bool :=
  return (← cx.errors s v []).isEmpty

/-- Answers a value that a type accepts; for another the first mismatch is raised. -/
def check (cx : Surroundings m) (s : Schema) (v : Value) (label : String) : m Value := do
  match ← cx.errors s v [label] with
  | [] => return v
  | e :: _ => throw (.invalid e)

end Surroundings

end Typeward
