import Typeward.Source.Constant

/-!
# Runtime type expressions

What the compiler emits for a type: a tree of calls to the combinators of the runtime library. The
values are plain data, so two builds of one type can be compared.
-/

namespace Typeward

/-- The combinators of the runtime library. -/
inductive Combinator where
  | primitive | irreducible | maybe | list | dict | interface | union | intersection | refinement
  | tuple | func | literal
deriving DecidableEq, Repr, Inhabited

/-- The name of a kind of combinator. -/
def Combinator.name : Combinator → String
  | .primitive => "primitive"
  | .irreducible => "irreducible"
  | .maybe => "maybe"
  | .list => "list"
  | .dict => "dict"
  | .interface => "interface"
  | .union => "union"
  | .intersection => "intersection"
  | .refinement => "refinement"
  | .tuple => "tuple"
  | .func => "func"
  | .literal => "literal"

/-- All kinds of combinators. -/
def Combinator.all : List Combinator :=
  [.primitive, .irreducible, .maybe, .list, .dict, .interface, .union, .intersection, .refinement,
    .tuple, .func, .literal]

/-- The kind of combinator with a name. -/
def Combinator.ofName? (name : String) : Option Combinator := all.find? (·.name = name)

/-- Runtime type expressions. -/
inductive TypeExpr where
  /-- A primitive of the runtime library. -/
  | primitive (name : String)
  /-- A name bound in the module, possibly with dots. -/
  | name (name : String)
  /-- A name that is still being defined; it is looked up when it is first used. -/
  | deferred (name : String)
  /-- An expression that is evaluated when it is first used. -/
  | delayed (expr : TypeExpr)
  /-- The function that refines a type. -/
  | predicate (name : String)
  | constant (value : Constant)
  /-- A property of an interface. -/
  | field (name : String) (expr : TypeExpr)
  /-- A call of a combinator, with the display name of the result and further options. -/
  | call (combinator : Combinator) (arguments : List TypeExpr) (name : Option String)
      (options : List (String × Constant))
  /-- An expression asked for by a program, with the kind and the parts of its definition. -/
  | reified (expr : TypeExpr) (kind : String) (parts : List TypeExpr)
deriving Inhabited

namespace TypeExpr

/-- The kind of an expression: that of its combinator, if it calls one. -/
def kind : TypeExpr → String
  | .primitive _ => Combinator.primitive.name
  | .name _ => "nameref"
  | .deferred _ => "deferredref"
  | .delayed e => e.kind
  | .predicate _ => "predicateref"
  | .constant _ => "constant"
  | .field .. => "field"
  | .call combinator .. => combinator.name
  | .reified _ kind _ => kind

/-- The parts of an expression. -/
def components : TypeExpr → List TypeExpr
  | .delayed e => e.components
  | .field _ e => [e]
  | .call _ arguments .. => arguments
  | .reified _ _ parts => parts
  | _ => []

mutual

/-- How many references inside an expression are looked up late. -/
def deferredCount : TypeExpr → Nat
  | .deferred _ | .delayed _ => 1
  | .field _ e => e.deferredCount
  | .call _ arguments .. => deferredCounts arguments
  | .reified e .. => e.deferredCount
  | .primitive _ | .name _ | .predicate _ | .constant _ => 0

/-- How many references inside several expressions are looked up late. -/
def deferredCounts : List TypeExpr → Nat
  | [] => 0
  | e :: rest => e.deferredCount + deferredCounts rest

end

/-- A call that has no display name gets one; other expressions have none. -/
def named (e : TypeExpr) (name : String) : TypeExpr :=
  match e with
  | .call combinator arguments none options => .call combinator arguments (some name) options
  | e => e

/-- Whether an expression calls the combinator that admits the absence of a value. -/
def isMaybe : TypeExpr → Bool
  | .call .maybe .. => true
  | _ => false

/-- A call with nothing but arguments. -/
def combine (combinator : Combinator) (arguments : List TypeExpr) : TypeExpr :=
  .call combinator arguments none []

end TypeExpr

end Typeward
