import Typeward.Emission
import Typeward.Source.Comments
import Typeward.Source.Printer

/-!
# Failures

All that can keep a module from being compiled: the faults that the compiler states, and the few
accidents that it has no words for.
-/

namespace Typeward

/-- What has no text. -/
inductive Textless where
  /-- A tree cannot be written. -/
  | tree (fault : Source.PrintFault)
  /-- A type that is refused cannot be described: an integer in it is too long. -/
  | description
deriving DecidableEq, Repr

/-- Why a module is not compiled. -/
inductive Failure where
  /-- A fault with a message and a place. -/
  | fault (fault : Fault)
  /-- A module or a quoted annotation holds a null character. -/
  | nullCharacter
  /-- A quoted annotation holds a surrogate code point. -/
  | surrogateText
  /-- A text that is asked for does not exist. -/
  | unprintable (what : Textless)
  /-- An annotated type has no arguments at all. -/
  | nothingAnnotated
  /-- The bytes of a file are no text. -/
  | undecodable
  /-- The comments of a module are not found. -/
  | comments (fault : Source.CommentFault)
  /-- An entry of a plan has no code. -/
  | emission (fault : EmissionFault)

namespace Failure

/-- The failure that a fault is, or that an accident on the way to one is. -/
def ofFault (f : Fault) : Failure :=
  if f.isStated then .fault f else .unprintable .description

/-- The failure that it is if a tree cannot be written. -/
def ofPrint (f : Source.PrintFault) : Failure := .unprintable (.tree f)

/-- The failure with the line of source that its fault points into. -/
def withSource (f : Failure) (lines : List String) : Failure :=
  match f with
  | .fault f => .fault (f.withSource lines)
  | f => f

end Failure

end Typeward
