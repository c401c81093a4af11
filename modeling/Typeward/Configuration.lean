import Typeward.Options
import Typeward.Toml.Reader

/-!
# The configuration of the compiler

Options are set in a table of a project's configuration file, and the environment overrides them. A
file that does not exist sets nothing.
-/

namespace Typeward

/-- Why options are not loaded. -/
inductive ConfigurationFailure where
  | fault (fault : Fault)
  /-- An integer in the file is too long to be converted. -/
  | overlongInteger
  /-- The place of the options is taken by something that is no table. -/
  | noTable
deriving DecidableEq, Repr

/-- A node of a configuration file as the setting of an option. -/
def Setting.ofNode : Toml.Node → Setting
  | .text s => .text s
  | .boolean b => .boolean b
  | .integer => .integer
  | .number => .number
  | .date => .date
  | .time => .time
  | .datetime => .datetime
  | .array _ => .list
  | .table _ => .mapping

/-- The table at a key; a key that is not there stands for an empty one. -/
def tableAt (key : String) (t : Toml.Table) : Except ConfigurationFailure Toml.Table :=
  match t.lookup key with
  | none => .ok []
  | some (.table inner) => .ok inner
  | some _ => .error .noTable

/-- The options that the text of a configuration file asks for. -/
def Options.ofDocument (file text : String) : Except ConfigurationFailure Options := do
  let document ←
    match Toml.read text with
    | .ok t => pure t
    | .error .malformed =>
      throw (.fault ⟨.malformedConfiguration file "malformed", none, none⟩)
    | .error .overlongInteger => throw .overlongInteger
  let settings ← tableAt "typecomb" (← tableAt "tool" document)
  (Options.ofTable (settings.map fun (key, node) => (key, .ofNode node))).mapError .fault

/-- Loads options: from the text of a file, if it is there, and then from the environment. -/
def Options.load (file : String) (text : Option String) (environment : List (String × String)) :
    Except ConfigurationFailure Options := do
  let options ←
    match text with
    | none => pure {}
    | some text => Options.ofDocument file text
  (options.withEnvironment environment).mapError .fault

end Typeward
