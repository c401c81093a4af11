import Typeward.Fault
import Typeward.Text.LowerCase

/-!
# Options

What the compiler emits can be adjusted by a configuration table and by an environment variable.
The first offending key of the table is reported, the last of several spellings of one key wins,
and the environment overrides the table.
-/

namespace Typeward

/-- Options of the compiler. -/
structure Options where
  /-- Emit type definitions but no assertions. -/
  skipAsserts : Bool := false
  /-- The module that emitted code takes the combinators from. -/
  runtimeModule : String := "typecomb.runtime"
  /-- The preferred local name of that module. -/
  runtimeAlias : String := "t"
  /-- The comment that marks a declaration as recursive. -/
  recursiveMarker : String := "recursive"
deriving DecidableEq, Repr, Inhabited

/-- A value in a configuration table; beyond booleans and text only the type matters. -/
inductive Setting where
  | boolean (value : Bool)
  | text (value : String)
  | integer
  | number
  | list
  | mapping
  | nothing
  | date
  | time
  | datetime
deriving DecidableEq, Repr

/-- The type of a setting as named in messages. -/
def Setting.typeName : Setting → String
  | .boolean _ => "bool"
  | .text _ => "str"
  | .integer => "int"
  | .number => "float"
  | .list => "list"
  | .mapping => "dict"
  | .nothing => "NoneType"
  | .date => "date"
  | .time => "time"
  | .datetime => "datetime"

namespace Options

/-- A key in its normal spelling, with low lines for hyphens. -/
def normalKey (key : String) : String :=
  String.ofList (key.toList.map fun c => if c = '-' then '_' else c)

/-- Takes one entry of a configuration table into account. -/
def set (options : Options) (key : String) (value : Setting) : Except Fault Options :=
  let mistyped (expected : String) : Except Fault Options :=
    .error ⟨.mistypedOption key expected value.typeName, none, none⟩
  match normalKey key, value with
  | "skip_asserts", .boolean b => .ok { options with skipAsserts := b }
  | "skip_asserts", _ => mistyped "bool"
  | "runtime_module", .text s => .ok { options with runtimeModule := s }
  | "runtime_module", _ => mistyped "str"
  | "runtime_alias", .text s => .ok { options with runtimeAlias := s }
  | "runtime_alias", _ => mistyped "str"
  | "recursive_marker", .text s => .ok { options with recursiveMarker := s }
  | "recursive_marker", _ => mistyped "str"
  | _, _ => .error ⟨.unknownOption key, none, none⟩

/-- The options that a configuration table asks for. -/
def ofTable (entries : List (String × Setting)) : Except Fault Options :=
  entries.foldlM (fun options (key, value) => options.set key value) {}

/-- The environment variable that overrides `skipAsserts`. -/
def skipVariable : String := "TYPECOMB_SKIP_ASSERTS"

/-- The boolean that a word stands for, if any; blanks around it and case do not matter. -/
def booleanWord (word : String) : Option Bool :=
  let word := Text.lowerCase (Text.trim word)
  if ["1", "true", "yes", "on"].contains word then some true
  else if ["0", "false", "no", "off", ""].contains word then some false
  else none

/-- Applies the environment's override. -/
def withEnvironment (options : Options) (environment : List (String × String)) :
    Except Fault Options :=
  match environment.lookup skipVariable with
  | none => .ok options
  | some word =>
    match booleanWord word with
    | some b => .ok { options with skipAsserts := b }
    | none => .error ⟨.mistypedVariable skipVariable word, none, none⟩

end Options

end Typeward
