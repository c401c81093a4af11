import Typeward.Schema.Evaluation

/-!
# Working with types in a session

What a program can do with the types that it has made: ask for their names, kinds and parts, check
values against them, call them, and follow late references. Each of these may follow late references
for the first time, which changes how they are shown from then on.
-/

namespace Typeward

/-- The number of the type that a late reference stands for; it is looked up once. -/
def findLate (valueText : Value → Run String) (slot : Nat) : Run Nat := do
  match (← get).slots[slot]? with
  | none => throw .noAttribute
  | some ⟨_, some number⟩ => return number
  | some ⟨body, none⟩ =>
    match ← evaluateWith valueText body with
    | .value (.model number) =>
      modify fun session =>
        { session with slots := session.slots.modify slot ({ · with found := number }) }
      return number
    | _ => throw .noAttribute

/-- The surroundings of a check in a session with so many slots, given the text of types. -/
def surroundingsWith (world : World) (slotCount : Nat) (modelText : Nat → Run String) :
    Surroundings Run where
  world
  resolve slot := do schemaOf (.model (← findLate (·.textWith modelText) slot))
  modelText
  slotCount

/-- The text of a type, whose name shows at most so many types as values of literals. -/
def modelText (world : World) (slotCount : Nat) : Nat → Nat → Run String
  | 0, _ => throw .endless
  | fuel + 1, number => do
    let cx := surroundingsWith world slotCount (modelText world slotCount fuel)
    match ← schemaOf (.model number) with
    | .late slot =>
      match (← get).slots[slot]? with
      | some ⟨_, some found⟩ =>
        return "<Lazy " ++ (← cx.name (← schemaOf (.model found))) ++ ">"
      | _ => return "<Lazy (unresolved)>"
    | s => return "<" ++ s.className ++ " " ++ (← cx.name s) ++ ">"

/-- The surroundings of a check in the current session. -/
def surroundings (world : World) : Run (Surroundings Run) := do
  let session ← get
  return surroundingsWith world session.slots.size
    (modelText world session.slots.size session.models.size)

/-- Goes on after what a step raises. -/
def attempt {α : Type} (step : Run α) : Run (Except Raised α) :=
  tryCatch (do return .ok (← step)) fun e => return .error e

/-- How a type describes itself. -/
structure Description where
  kind : String
  name : String
  components : List String
  /-- The properties of an interface with the names of their types. -/
  props : Option (List (String × String)) := none
  /-- The text of the value of a literal. -/
  value : Option String := none
  /-- Whether a function decides about values. -/
  hasPredicate : Bool := false
  /-- The text of a refining function. -/
  predicate : Option String := none

/-- What a description tells, in order. -/
def Description.keys (d : Description) : List String :=
  ["kind", "name", "components"] ++ d.props.toList.map (fun _ => "props") ++
    d.value.toList.map (fun _ => "value") ++ if d.hasPredicate then ["predicate"] else []

namespace Inspection

variable (world : World)

/-- The text of a value. -/
def text (v : Value) : Run String := do (← surroundings world).valueText v

/-- The name of a type. -/
def name (v : Value) : Run String := do (← surroundings world).name (← schemaOf v)

/-- The type that a type is after late references are followed. -/
def settled (v : Value) : Run Schema := do (← surroundings world).settled (← schemaOf v)

/-- The kind of a type and the names of its parts. -/
def parts (v : Value) : Run (String × List String) := do
  let s ← settled world v
  let cx ← surroundings world
  return (s.kind, ← s.components.mapM cx.name)

/-- The description of a type. -/
def describe (v : Value) : Run Description := do
  let s ← settled world v
  let cx ← surroundings world
  let name ← cx.name s
  let components ← s.components.mapM cx.name
  let d : Description := { kind := s.kind, name, components }
  match s with
  | .irreducible .. => return { d with hasPredicate := true }
  | .interface props _ => return { d with props := some ((props.map (·.1)).zip components) }
  | .literal value _ => return { d with value := some (← cx.valueText value) }
  | .refinement _ predicate _ =>
    return { d with hasPredicate := true, predicate := some (← cx.valueText predicate) }
  | _ => return d

/-- All mismatches of a value with a type. -/
def errors (type v : Value) (path : List String) : Run (List Mismatch) := do
  (← surroundings world).errors (← schemaOf type) v path

/-- Whether a type accepts a value. -/
def accepts (type v : Value) : Run Bool := do
  (← surroundings world).accepts (← schemaOf type) v

/-- Answers a value that a type accepts. -/
def check (type v : Value) (label : String) : Run Value := do
  (← surroundings world).check (← schemaOf type) v label

/-- Takes the argument that is given by position or by the name of the parameter. -/
def takeArgument (argument : Option Value) (fields : List (String × Value)) :
    Run (Option Value × List (String × Value)) :=
  match argument, fields.lookup "value" with
  | some _, some _ => throw .misfit
  | none, some v => return (some v, fields.filter (·.1 ≠ "value"))
  | argument, none => return (argument, fields)

/-- Calls a type with a value, which is checked. An interface without a value is given the mapping
of the fields that are named. -/
def call (type : Value) (argument : Option Value) (fields : List (String × Value)) : Run Value := do
  let s ← schemaOf type
  if fields.any (·.1 = "self") then throw .misfit
  let (argument, fields) ← takeArgument argument fields
  let v ←
    match s with
    | .interface .. =>
      let v := argument.getD .absent
      if v.isAbsent && ! fields.isEmpty then
        pure (.mapping false (Value.distinctEntries (fields.map fun f => (.ofText f.1, f.2))))
      else pure v
    | _ =>
      match argument, fields with
      | some v, [] => pure v
      | _, _ => throw .misfit
  let label ← name world type
  check world type v label

/-- The type that a late reference stands for. -/
def resolve (type : Value) : Run Value := do
  match ← schemaOf type with
  | .late slot =>
    let cx ← surroundings world
    return .model (← findLate cx.valueText slot)
  | _ => throw .noAttribute

/-- Evaluates an expression. -/
def evaluate (e : Expr) : Run Object := do
  let cx ← surroundings world
  evaluateWith cx.valueText e

end Inspection

end Typeward
