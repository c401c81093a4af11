import Typeward.Schema

/-!
# The text of values

How a value is shown in messages and paths. The text of a runtime type depends on the session that
made it, so it is asked for. A value that holds an integer that is too long has no text.
-/

namespace Typeward

namespace Value

/-- A list of texts between brackets. -/
def enclosed (left : String) (parts : List String) (right : String) : String :=
  left ++ ", ".intercalate parts ++ right

/-- The text of a collection from those of its elements. -/
def collectionText (kind : Collection) (parts : List String) : String :=
  match kind, parts with
  | .list, parts => enclosed "[" parts "]"
  | .tuple, [part] => "(" ++ part ++ ",)"
  | .tuple, parts => enclosed "(" parts ")"
  | .deque, parts => enclosed "deque([" parts "])"
  | .set, [] => "set()"
  | .set, parts => enclosed "\x7b" parts "\x7d"
  | .frozenSet, [] => "frozenset()"
  | .frozenSet, parts => enclosed "frozenset(\x7b" parts "\x7d)"

/-- The text of a mapping from those of its entries. -/
def mappingText (isReadOnly : Bool) (parts : List String) : String :=
  if isReadOnly then enclosed "mappingproxy(\x7b" parts "\x7d)" else enclosed "\x7b" parts "\x7d"

/-- The text of a range; a step of one is left out. -/
def rangeText (first stop step : Int) : Option String := do
  let bounds ← ([first, stop] ++ if step = 1 then [] else [step]).mapM fun n =>
    (Constant.int n).literal
  return enclosed "range(" bounds ")"

variable {m : Type → Type} [Monad m] [MonadExceptOf Raised m]

/-- A text that may be missing, for an integer in it is too long. -/
def orUnfit : Option String → m String
  | some text => pure text
  | none => throw .unfitValue

mutual

/-- The text of a value, given that of runtime types. -/
def textWith (modelText : Nat → m String) : Value → m String
  | .constant c => orUnfit c.literal
  | .byteArray bytes => pure ("bytearray(" ++ Text.quotedByteArray bytes ++ ")")
  | .collection kind items => do return collectionText kind (← textsWith modelText items)
  | .mapping isReadOnly entries => do
    return mappingText isReadOnly (← entryTextsWith modelText entries)
  | .range first stop step => orUnfit (rangeText first stop step)
  | .function f => pure f.text
  | .ofClass c => pure c.text
  | .object c => pure ("<" ++ c.name ++ ">")
  | .derived _ content => content.textWith modelText
  | .model number => modelText number

/-- The texts of several values. -/
def textsWith (modelText : Nat → m String) : List Value → m (List String)
  | [] => pure []
  | v :: rest => do
    let first ← v.textWith modelText
    return first :: (← textsWith modelText rest)

/-- The texts of the entries of a mapping. -/
def entryTextsWith (modelText : Nat → m String) : List (Value × Value) → m (List String)
  | [] => pure []
  | (k, v) :: rest => do
    let key ← k.textWith modelText
    let value ← v.textWith modelText
    return (key ++ ": " ++ value) :: (← entryTextsWith modelText rest)

end

/-- The text of a value where texts stand for themselves. -/
def bareTextWith (modelText : Nat → m String) (v : Value) : m String :=
  match v.plain with
  | .constant (.text s) => pure s
  | _ => v.textWith modelText

end Value

end Typeward
