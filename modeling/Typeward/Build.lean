import Typeward.Registry
import Typeward.StaticType

/-!
# Building type expressions

From static types to runtime type expressions, against a registry that is only read. The absence of
a value collapses: a union with it, an optional type and nested forms of both come to one call of
the same combinator. Refinements are recorded in the order in which they are met, also by a build
that fails later.
-/

namespace Typeward

/-- A refinement met on the way: a base type and the predicate that narrows it. -/
structure RefinementRequest where
  base : TypeExpr
  predicate : String
  location : Option Location

/-- The result of a build with the refinements met on the way. -/
structure Built (α : Type) where
  outcome : Except Fault α
  requests : List RefinementRequest

namespace Built

variable {α β : Type}

/-- A build that meets nothing. -/
protected def pure (a : α) : Built α := ⟨.ok a, []⟩

/-- One build after another. -/
protected def bind (first : Built α) (next : α → Built β) : Built β :=
  match first.outcome with
  | .ok a => ⟨(next a).outcome, first.requests ++ (next a).requests⟩
  | .error fault => ⟨.error fault, first.requests⟩

instance : Monad Built where
  pure := Built.pure
  bind := Built.bind

/-- A result that may be a fault. -/
def ofExcept (outcome : Except Fault α) : Built α := ⟨outcome, []⟩

/-- A fault. -/
def fail (fault : Fault) : Built α := ⟨.error fault, []⟩

/-- Records a refinement. -/
def record (request : RefinementRequest) : Built Unit := ⟨.ok (), [request]⟩

end Built

/-- The runtime primitives by the canonical names of types. -/
def runtimePrimitives : List (String × String) :=
  [("int", "Int"), ("float", "Number"), ("complex", "Complex"), ("str", "Str"),
    ("bytes", "Bytes"), ("bool", "Bool"), ("none", "Nil"), ("any", "Any"), ("object", "Any"),
    ("function", "Function"), ("dict", "Dict")]

/-- The members of a union in order: expressions, and `none` for the absence of a value. -/
abbrev Alternatives := List (Option TypeExpr)

/-- The expression of a union: without the absence of a value a union of the others, or the only
one; with it, that of the others or nothing. -/
def Alternatives.toExpr (members : Alternatives) : TypeExpr :=
  let present := members.filterMap id
  if members.all (·.isSome) then
    match present with
    | [only] => only
    | _ => .combine .union present
  else
    match present with
    | [] => .primitive "Nil"
    | [only] => .combine .maybe [only]
    | _ => .combine .maybe [.combine .union present]

/-- What a type comes to: a union of alternatives, or one expression that may stand for the absence
of a value. -/
inductive Shape where
  | alternatives (members : Alternatives)
  | single (expr : TypeExpr) (isNone : Bool)

/-- The shape as an expression. -/
def Shape.toExpr : Shape → TypeExpr
  | .alternatives members => members.toExpr
  | .single expr _ => expr

/-- The shape as part of a union. -/
def Shape.toAlternatives : Shape → Alternatives
  | .alternatives members => members
  | .single expr isNone => if isNone then [none] else [some expr]

/-- A fault about a construct. -/
def unsupportedAt {α : Type} (construct : String) (location : Option Location) : Built α :=
  .fail ⟨.unsupported construct, location, none⟩

/-- A property for a field; the value of an optional one may be absent. -/
def fieldExpr (name : String) (isOptional : Bool) (expr : TypeExpr) : TypeExpr :=
  .field name (if isOptional && ! expr.isMaybe then .combine .maybe [expr] else expr)

/-- Narrows a base type. -/
def refine (predicate : String) (location : Option Location) (base : TypeExpr) : Built Shape := do
  Built.record ⟨base, predicate, location⟩
  return .single (.combine .refinement [base, .predicate predicate]) false

/-- An expression that is no union. -/
def single (expr : TypeExpr) : Built Shape := pure (.single expr false)

mutual

/-- The shape of a type. -/
def shape (r : Registry) : StaticType → Built Shape
  | .primitive name location =>
    match runtimePrimitives.lookup name with
    | some export_ => pure (.single (.primitive export_) (name == "none"))
    | none => unsupportedAt ("primitive type '" ++ name ++ "'") location
  | .literal value _ =>
    pure (.single (.combine .literal [.constant value]) (value == .none))
  | .generic .. => single (.primitive "Any")
  | .reference name _ location => do single (← .ofExcept (r.lookup name location))
  | .marker predicate location =>
    unsupportedAt ("Refinement[" ++ predicate ++ "] outside a two-operand intersection") location
  | .nullable inner _ => do
    return .alternatives ((← shape r inner).toAlternatives ++ [none])
  | .array element container _ => do
    let element := (← shape r element).toExpr
    let options := if container = "list" then [] else [("container", .text container)]
    single (.call .list [element] none options)
  | .dict key value _ => do
    let key := (← shape r key).toExpr
    let value := (← shape r value).toExpr
    single (.combine .dict [key, value])
  | .record fields name _ => do
    single (.call .interface (← shapeFields r fields) name [])
  | .union members _ => do return .alternatives (← shapeMembers r members)
  | .intersection members location =>
    if ! members.any (·.isMarker) then do
      single (.combine .intersection (← shapeAll r members))
    else
      match members with
      | [.marker predicate place, other] => do
        if other.isMarker then misplaced members location
        else refine predicate place (← shape r other).toExpr
      | [other, .marker predicate place] => do
        if other.isMarker then misplaced members location
        else refine predicate place (← shape r other).toExpr
      | _ => misplaced members location
  | .function params result _ => do
    let result := (← shape r result).toExpr
    match ← shapeParams r params with
    | none => single (.call .func [result] none [("any_params", .bool true)])
    | some params => single (.combine .func (params ++ [result]))
  | .tuple elements isVariadic _ => do
    let elements ← shapeAll r elements
    single (.call .tuple elements none (if isVariadic then [("variadic", .bool true)] else []))

/-- The expressions of several types. -/
def shapeAll (r : Registry) : List StaticType → Built (List TypeExpr)
  | [] => pure []
  | t :: rest => do
    let first := (← shape r t).toExpr
    return first :: (← shapeAll r rest)

/-- The alternatives of the members of a union. -/
def shapeMembers (r : Registry) : List StaticType → Built Alternatives
  | [] => pure []
  | t :: rest => do
    let first := (← shape r t).toAlternatives
    return first ++ (← shapeMembers r rest)

/-- The properties for the fields of a record. -/
def shapeFields (r : Registry) : List (RecordField StaticType) → Built (List TypeExpr)
  | [] => pure []
  | ⟨name, type, isOptional, _⟩ :: rest => do
    let first := fieldExpr name isOptional (← shape r type).toExpr
    return first :: (← shapeFields r rest)

/-- The expressions of the parameters of a function. -/
def shapeParams (r : Registry) : Option (List StaticType) → Built (Option (List TypeExpr))
  | none => pure none
  | some params => do return some (← shapeAll r params)

/-- A marker that does not refine exactly one type. The fault describes the whole type, if that has
a description. -/
def misplaced (members : List StaticType) (location : Option Location) : Built Shape :=
  match (StaticType.intersection members location).describe with
  | some text =>
    unsupportedAt ("refinement in '" ++ text ++
      "' (expected exactly one type and one predicate)") location
  | none => .fail ⟨.undescribed, location, none⟩

end

/-- Builds the expression of a type. -/
def build (r : Registry) (t : StaticType) : Built TypeExpr := do return (← shape r t).toExpr

/-- Builds a type for inspection: a reference to a declared type is followed to its definition, so
that the kind and the parts shown are those of the definition. -/
def reify (r : Registry) (t : StaticType) : Built TypeExpr := do
  let expr ← build r t
  let definition ←
    match expr with
    | .name name => if r.contains name then .ofExcept (r.resolve expr) else pure expr
    | _ => pure expr
  return .reified expr definition.kind definition.components

end Typeward
