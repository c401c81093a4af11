import Typeward.Source.Grammar.Statement

/-!
# Reading modules and expressions
-/

namespace Typeward.Source

/-- Why a text cannot be read as source. -/
inductive ReadFailure where
  /-- The text holds a null character, which is refused outright. -/
  | nullCharacter
  | malformed (fault : Malformation)
deriving Repr

/-- Reads a text with a rule. Every level of nesting takes a character, and a few calls of rules. -/
def readWith {α : Type} (rule : Rules → Parse α) (source : String) : Except ReadFailure α :=
  let text := moduleText source
  if text.contains '\x00' then .error .nullCharacter
  else
    match Parse.run (rule (rules (4 * text.length + 16))) (lexText ⟨1, 0, 0, text⟩ (textLines text)) 0 with
    | .ok a => .ok a
    | .error fault => .error (.malformed fault)

/-- Reads a module. -/
def parseModule (source : String) : Except ReadFailure Module := readWith moduleRule source

/-- Reads an expression that stands alone. -/
def parseExpression (source : String) : Except ReadFailure Expr := readWith expressionRule source

end Typeward.Source
