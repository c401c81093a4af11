import Typeward.Source.Tree
import Typeward.TypeExpr

/-!
# Rendering type expressions

The source tree of a runtime type expression: calls of the runtime library under a local alias. Late
references become functions without parameters, properties a dictionary, and combinators of several
types take them as one list.
-/

namespace Typeward

/-- Why an expression has no source tree. -/
inductive RenderFault where
  /-- The runtime library has no function for the combinator. -/
  | noFunction
  /-- A function type lacks its result. -/
  | noResult
  /-- An interface holds something that has no name. -/
  | unnamedProperty
deriving DecidableEq, Repr

/-- The function of the runtime library for a combinator. -/
def Combinator.function? : Combinator → Option String
  | .primitive => none
  | .irreducible => some "irreducible"
  | .maybe => some "maybe"
  | .list => some "list_of"
  | .dict => some "dict_of"
  | .interface => some "interface"
  | .union => some "union"
  | .intersection => some "intersection"
  | .refinement => some "refinement"
  | .tuple => some "tuple_of"
  | .func => some "func"
  | .literal => some "literal"

/-- The place of trees that are not read from a text. -/
def Pos.synthetic : Pos := ⟨1, 0⟩

/-- The parts between dots; `part` holds the current one, last character first. -/
def namePartsFrom (part : List Char) : List Char → List String
  | [] => [String.ofList part.reverse]
  | c :: rest =>
    if c = '.' then String.ofList part.reverse :: namePartsFrom [] rest
    else namePartsFrom (c :: part) rest

/-- The parts of a name between its dots. -/
def nameParts (name : String) : List String := namePartsFrom [] name.toList

/-- A name with dots as a chain of attributes. -/
def dottedExpr (name : String) : Expr :=
  match nameParts name with
  | [] => .name .synthetic name
  | first :: rest => rest.foldl (.attribute .synthetic · ·) (.name .synthetic first)

/-- An export of the runtime library. -/
def runtimeExpr (runtime : String) (name : String) : Expr :=
  .attribute .synthetic (.name .synthetic runtime) name

/-- A call with arguments by position and by name. -/
def callExpr (func : Expr) (arguments : List Expr) (keywords : List (Keyword Expr)) : Expr :=
  .call .synthetic func arguments keywords none

/-- A literal. -/
def constantExpr (value : Constant) : Expr := .constant .synthetic value false

/-- A list display. -/
def listExpr (elements : List Expr) : Expr := .display .synthetic .list elements

/-- A late reference: the runtime calls the function when it first needs the value. -/
def lateExpr (runtime : String) (body : Expr) : Expr :=
  callExpr (runtimeExpr runtime "lazy") [.lambda .synthetic .none body] []

/-- The name that an interface shows for a property. -/
def TypeExpr.propertyName? : TypeExpr → Except RenderFault (Option String)
  | .primitive id | .name id | .deferred id | .predicate id | .field id _ => .ok (some id)
  | .call _ _ id _ => .ok id
  | .delayed _ | .constant _ | .reified .. => .error .unnamedProperty

/-- The value of an option, if it is set. -/
def optionValue (options : List (String × Constant)) (key : String) : Constant :=
  (options.lookup key).getD .none

/-- The keyword arguments of a call: its options, and its display name last. -/
def callKeywords (name : Option String) (options : List (String × Constant)) :
    List (Keyword Expr) :=
  let shown := options.filter fun option => option.1 != "any_params"
  shown.map (fun option => ⟨some option.1, constantExpr option.2⟩) ++
    (name.map fun name => ⟨some "name", constantExpr (.text name)⟩).toList

/-- A constant for a name that may be absent. -/
def nameConstant (name : Option String) : Expr := constantExpr ((name.map .text).getD .none)

/-- The positional arguments of a call from the renderings of its parts. The result of a function
comes before its parameters, which are left out if any will do. -/
def callArguments (combinator : Combinator) (names : List (Option String))
    (rendered : List (Except RenderFault Expr)) (options : List (String × Constant)) :
    Except RenderFault (List Expr) :=
  match combinator with
  | .interface => do
    return [.dict .synthetic (names.map (some ∘ nameConstant)) (← rendered.mapM id)]
  | .union | .intersection | .tuple => do return [listExpr (← rendered.mapM id)]
  | .func =>
    match rendered.getLast? with
    | none => .error .noResult
    | some result => do
      let result ← result
      if (optionValue options "any_params").truth then return [constantExpr .none, result]
      else return [listExpr (← rendered.dropLast.mapM id), result]
  | _ => rendered.mapM id

/-- The names of the properties of an interface; other calls have none. -/
def propertyNames (combinator : Combinator) (arguments : List TypeExpr) :
    Except RenderFault (List (Option String)) :=
  if combinator = .interface then arguments.mapM (·.propertyName?) else .ok []

mutual

/-- Renders an expression under an alias of the runtime library. -/
def render (runtime : String) : TypeExpr → Except RenderFault Expr
  | .primitive name => .ok (runtimeExpr runtime name)
  | .name name | .predicate name => .ok (dottedExpr name)
  | .deferred name => .ok (lateExpr runtime (dottedExpr name))
  | .delayed e => do return lateExpr runtime (← render runtime e)
  | .constant value => .ok (constantExpr value)
  | .field _ e => render runtime e
  | .reified e .. => render runtime e
  | .call combinator arguments name options => do
    let names ← propertyNames combinator arguments
    let arguments ← callArguments combinator names (renderAll runtime arguments) options
    match combinator.function? with
    | none => .error .noFunction
    | some function =>
      return callExpr (runtimeExpr runtime function) arguments (callKeywords name options)

/-- Renders several expressions, each on its own. -/
def renderAll (runtime : String) : List TypeExpr → List (Except RenderFault Expr)
  | [] => []
  | e :: rest => render runtime e :: renderAll runtime rest

end

end Typeward
