import Typeward.Location
import Typeward.Suggestion
import Typeward.Text.Blank

/-!
# Faults

What can go wrong while types are compiled, as causes, and the one function that words each. A
fault may know its place and the line of source it points into; its message then ends in that line
and a caret under the place. One of the causes is an accident, which the compiler has no words for
and which is told apart from the faults that it states.
-/

namespace Typeward

/-- The kinds of faults. -/
inductive FaultKind where
  | general
  | unresolvedType
  | unresolvedRecursion
  | unsupported
  | duplicateDeclaration
  | malformedSource
  | registryState
  | configuration
deriving DecidableEq, Repr

/-- The code shown for a kind of fault; a general fault has none. -/
def FaultKind.code : FaultKind → String
  | .general => ""
  | .unresolvedType => "E0101"
  | .unresolvedRecursion => "E0102"
  | .unsupported => "E0103"
  | .duplicateDeclaration => "E0104"
  | .malformedSource => "E0201"
  | .registryState => "E0301"
  | .configuration => "E0302"

/-- Why something failed. -/
inductive Cause where
  /-- Nothing in the module binds the name. -/
  | unresolvedType (name : String) (suggestions : List String)
  /-- The type refers to itself and is not marked recursive. -/
  | unresolvedRecursion (name : String)
  /-- A construct has no runtime type. -/
  | unsupported (construct : String)
  /-- A type name is declared twice. -/
  | duplicateDeclaration (name : String)
  /-- The module does not parse, for the parser's reason. -/
  | malformedModule (reason : String)
  /-- A string used as a type does not parse; the string is given as a literal. -/
  | malformedReference (literal : String) (reason : String)
  /-- A name is completed that was never declared. -/
  | undeclaredCompletion (name : String)
  /-- A name is completed a second time. -/
  | repeatedCompletion (name : String)
  /-- The definition of a name is asked for before it is complete. -/
  | incompleteDefinition (name : String)
  /-- A configuration key names no option. -/
  | unknownOption (key : String)
  /-- A configuration value has the wrong type. -/
  | mistypedOption (key expected actual : String)
  /-- An environment variable holds no boolean word. -/
  | mistypedVariable (name value : String)
  /-- A configuration file does not parse, for the reader's reason. -/
  | malformedConfiguration (file reason : String)
  /-- The description of a type that is refused would show an integer that is too long. This is an
  accident on the way to a fault. -/
  | undescribed
  /-- A fault in words of its own. -/
  | stated (kind : FaultKind) (text : String)
deriving DecidableEq, Repr

/-- The kind of a cause. -/
def Cause.kind : Cause → FaultKind
  | .unresolvedType .. => .unresolvedType
  | .unresolvedRecursion _ => .unresolvedRecursion
  | .unsupported _ => .unsupported
  | .duplicateDeclaration _ => .duplicateDeclaration
  | .malformedModule _ | .malformedReference .. => .malformedSource
  | .undeclaredCompletion _ | .repeatedCompletion _ | .incompleteDefinition _ => .registryState
  | .unknownOption _ | .mistypedOption .. | .mistypedVariable .. | .malformedConfiguration .. =>
    .configuration
  | .undescribed => .general
  | .stated kind _ => kind

/-- The wording of a cause. -/
def Cause.message : Cause → String
  | .unresolvedType name suggestions =>
    "unresolved type '" ++ name ++ "'" ++
      match suggestions with
      | nearest :: _ => " (did you mean '" ++ nearest ++ "'?)"
      | [] => ""
  | .unresolvedRecursion name =>
    "type '" ++ name ++ "' refers to itself; mark the declaration with '# recursive' to allow it"
  | .unsupported construct => "unsupported type construct: " ++ construct
  | .duplicateDeclaration name => "type '" ++ name ++ "' is already declared"
  | .malformedModule reason => reason
  | .malformedReference literal reason =>
    "invalid forward reference " ++ literal ++ ": " ++ reason
  | .undeclaredCompletion name => "cannot complete undeclared type '" ++ name ++ "'"
  | .repeatedCompletion name => "type '" ++ name ++ "' is already complete"
  | .incompleteDefinition name => "type '" ++ name ++ "' is not complete yet"
  | .unknownOption key => "unknown option '" ++ key ++ "'"
  | .mistypedOption key expected actual =>
    "option '" ++ key ++ "' must be a " ++ expected ++ ", got " ++ actual
  | .mistypedVariable name value =>
    name ++ " must be a boolean, got '" ++ value ++ "'"
  | .malformedConfiguration file reason => "invalid TOML in " ++ file ++ ": " ++ reason
  | .undescribed => "an integer is too long to be written"
  | .stated _ text => text

/-- A cause with its place and the line of source it points into, where they are known. -/
structure Fault where
  cause : Cause
  location : Option Location := none
  sourceLine : Option String := none
deriving DecidableEq, Repr

namespace Fault

/-- A reference to a name that nothing binds, with suggestions from the names that are bound. -/
def unresolved (name : String) (location : Option Location) (known : List String) : Fault :=
  ⟨.unresolvedType name (suggest name known), location, none⟩

/-- The caret line under a column: the excerpt is indented by four blanks. -/
def caretLine (column : Int) : String :=
  String.ofList (List.replicate (4 + column - 1).toNat ' ' ++ ['^'])

/-- The message without the excerpt: the place, the code and the wording of the cause. -/
def headline (f : Fault) : String :=
  let place := f.location.toList.map fun l => "[" ++ l.show ++ "]"
  let code := f.cause.kind.code
  let label := if code.isEmpty then [] else ["error[" ++ code ++ "]:"]
  " ".intercalate (place ++ label ++ [f.cause.message])

/-- The full message. An empty line is not shown. -/
def message (f : Fault) : String :=
  match f.location, f.sourceLine with
  | some l, some line =>
    if line.isEmpty then f.headline
    else f.headline ++ "\n    " ++ line ++ "\n" ++ caretLine l.column
  | _, _ => f.headline

/-- Whether a fault is one that the compiler states, and no accident on the way to one. -/
def isStated (f : Fault) : Bool := f.cause ≠ .undescribed

/-- Adds the line of source that the fault points into, unless it has one already. -/
def withSource (f : Fault) (lines : List String) : Fault :=
  match f.location, f.sourceLine with
  | some l, none =>
    if 1 ≤ l.line then
      match lines[(l.line - 1).toNat]? with
      | some line => { f with sourceLine := some (Text.trimEnd line) }
      | none => f
    else f
  | _, _ => f

end Fault

end Typeward
