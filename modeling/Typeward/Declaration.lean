import Typeward.Source.Tree
import Typeward.StaticType

/-!
# Declarations

What the compiler has to know of a module: its typed declarations in source order. The tree of a
lowered module refers to them by their numbers.
-/

namespace Typeward

/-- A parameter with the type that its hint denotes. -/
structure TypedParameter where
  name : String
  type : Option StaticType
  kind : ParameterKind
  location : Option Location

/-- The declaration of a type name. -/
structure TypeDeclaration where
  name : String
  type : StaticType
  /-- Whether the type may refer to itself. -/
  isRecursive : Bool
  isTopLevel : Bool
  location : Option Location

/-- The signature of a function. -/
structure FunctionDeclaration where
  name : String
  params : List TypedParameter
  location : Option Location

/-- The parameters that have a hint. -/
def FunctionDeclaration.typed (f : FunctionDeclaration) : List TypedParameter :=
  f.params.filter (·.type.isSome)

/-- An expression that is to be of a type; the label is its source. -/
structure CastDeclaration where
  type : StaticType
  label : String
  location : Option Location

/-- A name that is bound to the runtime model of a type. -/
structure ReifyDeclaration where
  target : String
  type : StaticType
  location : Option Location

/-- Declarations. -/
inductive Declaration where
  | type (declaration : TypeDeclaration)
  | function (declaration : FunctionDeclaration)
  | cast (declaration : CastDeclaration)
  | reify (declaration : ReifyDeclaration)

end Typeward
