import Typeward.Splice
import Typeward.Text.Encoding

/-!
# Compilation

From the text of a module to the text of one that checks its types when it runs. A fault anywhere
leaves nothing, and shows the line of source that it points into.
-/

namespace Typeward

/-- A compiled tree with what was found on the way. -/
structure CompiledTree where
  spliced : Spliced
  plan : Plan
  /-- The names of the types that are defined, in order. -/
  definitions : List String
  /-- The local name of the runtime library. -/
  runtime : String

/-- A compiled module. -/
structure Compiled where
  code : String
  tree : CompiledTree
  lowered : Lowered

namespace Compiled

/-- What is emitted for a module. -/
def plan (c : Compiled) : Plan := c.tree.plan

/-- The names of the types that are defined, in order. -/
def definitions (c : Compiled) : List String := c.tree.definitions

/-- The local name of the runtime library, if it is imported. -/
def runtime? (c : Compiled) : Option String :=
  if c.tree.spliced.emitted.isEmpty then none else some c.tree.runtime

end Compiled

/-- Plans and splices a lowered module. -/
def compileLowered (options : Options) (lowered : Lowered) : Except Failure CompiledTree := do
  let registry := Registry.ofModule lowered.scope.bindings lowered.scope.reserved
  let (runtime, registry) := registry.allocate options.runtimeAlias
  let (plan, registry) ← (plan registry lowered.declarations).mapError .ofFault
  let emitter := Emitter.ofOptions options (some runtime)
  let spliced ← splice emitter plan options.runtimeModule lowered.tree
  return ⟨spliced, plan, registry.definitions.map (·.name), emitter.runtime⟩

/-- Compiles the text of a module. -/
def compile (options : Options) (source file : String) : Except Failure Compiled := do
  let located {α : Type} (result : Except Failure α) : Except Failure α :=
    result.mapError (·.withSource (Text.splitLines source))
  let lowered ← located (lower source file options)
  let compiled ← located (compileLowered options lowered)
  let code ← (Source.printModule compiled.spliced.tree).mapError .ofPrint
  return ⟨code ++ "\n", compiled, lowered⟩

/-- Compiles a file in UTF-8. -/
def compileBytes (options : Options) (bytes : List UInt8) (file : String) :
    Except Failure Compiled :=
  match Text.decodeText bytes with
  | .ok source => compile options source file
  | .error _ => .error .undecodable

/-- A short report on a compiled module. -/
def Compiled.summary (c : Compiled) : List String :=
  let count (label : String) (n : Nat) : String := "  " ++ label ++ ": " ++ toString n
  ["Compilation Result:",
    count "Definitions" (c.plan.ofMode .define).length,
    count "Assertions" (c.plan.ofMode .assert).length,
    count "Reifications" (c.plan.ofMode .reify).length] ++
  (if c.plan.refinements.isEmpty then [] else [count "Refinements" c.plan.refinements.length]) ++
  [count "Generated Code" c.code.length ++ " characters"]

end Typeward
