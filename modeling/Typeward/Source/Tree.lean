import Typeward.Source.Constant

/-!
# Syntax trees of modules

Modules as trees of statements, expressions and patterns. A compound statement is a sequence of
clauses, each a header with a suite. Nodes know where they start. The nodes that can declare a type,
a function or a check carry the index of the declaration they were lowered to; trees from the
parser carry none.
-/

namespace Typeward

/-- Where a node starts: a line from one and a column from zero, counted in bytes of UTF-8. -/
structure Pos where
  line : Nat
  column : Nat
deriving DecidableEq, Repr, Inhabited

/-- Binary operators. -/
inductive BinaryOp where
  | add | sub | mul | matMul | div | mod | shiftLeft | shiftRight | bitOr | bitXor | bitAnd
  | floorDiv | pow
deriving DecidableEq, Repr

/-- Unary operators. -/
inductive UnaryOp where
  | invert | not | plus | minus
deriving DecidableEq, Repr

/-- Boolean operators. -/
inductive BoolOp where
  | and | or
deriving DecidableEq, Repr

/-- Comparison operators. -/
inductive Comparison where
  | eq | notEq | lt | ltEq | gt | gtEq | is | isNot | isIn | notIn
deriving DecidableEq, Repr

/-- What a display in brackets builds. -/
inductive DisplayKind where
  | list | tuple | set
deriving DecidableEq, Repr

/-- What a comprehension with one element builds. -/
inductive ComprehensionKind where
  | list | set | generator
deriving DecidableEq, Repr

/-- A keyword argument; without a name it is an unpacked mapping. -/
structure Keyword (ε : Type) where
  name : Option String
  value : ε

/-- A parameter of a function. -/
structure Parameter (ε : Type) where
  pos : Pos
  name : String
  hint : Option ε
  initial : Option ε

/-- The parameters of a function by the way they receive their arguments. -/
structure Parameters (ε : Type) where
  positionalOnly : List (Parameter ε)
  positional : List (Parameter ε)
  variadic : Option (Parameter ε)
  keywordOnly : List (Parameter ε)
  keywordVariadic : Option (Parameter ε)

/-- A `for` clause of a comprehension with its conditions. -/
structure ForClause (ε : Type) where
  isAsync : Bool
  target : ε
  source : ε
  conditions : List ε

/-- Expressions. -/
inductive Expr where
  | name (pos : Pos) (id : String)
  /-- A literal; `marked` says that it is text written with a `u` in front. -/
  | constant (pos : Pos) (value : Constant) (marked : Bool)
  | attribute (pos : Pos) (base : Expr) (attr : String)
  | subscript (pos : Pos) (base index : Expr)
  | call (pos : Pos) (func : Expr) (args : List Expr) (keywords : List (Keyword Expr))
      (decl : Option Nat)
  | binary (pos : Pos) (left : Expr) (op : BinaryOp) (right : Expr)
  | unary (pos : Pos) (op : UnaryOp) (operand : Expr)
  | boolean (pos : Pos) (op : BoolOp) (operands : List Expr)
  | compare (pos : Pos) (first : Expr) (rest : List (Comparison × Expr))
  | conditional (pos : Pos) (test body orelse : Expr)
  | lambda (pos : Pos) (params : Parameters Expr) (body : Expr)
  | display (pos : Pos) (kind : DisplayKind) (elements : List Expr)
  /-- A dictionary; an entry without a key is an unpacked mapping. -/
  | dict (pos : Pos) (keys : List (Option Expr)) (values : List Expr)
  | comprehension (pos : Pos) (kind : ComprehensionKind) (element : Expr)
      (clauses : List (ForClause Expr))
  | dictComprehension (pos : Pos) (key value : Expr) (clauses : List (ForClause Expr))
  | yield (pos : Pos) (value : Option Expr)
  | yieldFrom (pos : Pos) (value : Expr)
  | await (pos : Pos) (value : Expr)
  | starred (pos : Pos) (value : Expr)
  | walrus (pos : Pos) (target value : Expr)
  | slice (pos : Pos) (lower upper step : Option Expr)
  /-- A formatted string: literal parts and replacement fields. -/
  | formatted (pos : Pos) (parts : List Expr)
  /-- A replacement field of a formatted string. -/
  | field (pos : Pos) (value : Expr) (conversion : Option Char) (spec : Option Expr)
deriving Inhabited

/-- Patterns of a `match` statement. -/
inductive Pattern where
  | value (pos : Pos) (value : Expr)
  | singleton (pos : Pos) (value : Constant)
  | sequence (pos : Pos) (items : List Pattern)
  | mapping (pos : Pos) (keys : List Expr) (items : List Pattern) (rest : Option String)
  | ofClass (pos : Pos) (cls : Expr) (items : List Pattern) (names : List String)
      (named : List Pattern)
  | star (pos : Pos) (name : Option String)
  | capture (pos : Pos) (inner : Option Pattern) (name : Option String)
  | alternatives (pos : Pos) (items : List Pattern)
deriving Inhabited

/-- An imported name and the local name given to it, if any. -/
structure ImportName where
  name : String
  asName : Option String
deriving DecidableEq, Repr

/-- Statements without a suite. -/
inductive Simple where
  | expression (value : Expr)
  | assign (targets : List Expr) (value : Expr) (decl : Option Nat)
  | augmented (target : Expr) (op : BinaryOp) (value : Expr)
  /-- An annotated assignment; `bare` says that the target is a name without parentheses. -/
  | annotated (target hint : Expr) (value : Option Expr) (bare : Bool) (decl : Option Nat)
  | returnValue (value : Option Expr)
  | delete (targets : List Expr)
  | raise (exception cause : Option Expr)
  | assertion (test : Expr) (message : Option Expr)
  | importModules (names : List ImportName)
  | importNames (source : Option String) (names : List ImportName) (level : Nat)
  | global (names : List String)
  | nonlocal (names : List String)
  | pass
  | breakLoop
  | continueLoop

/-- An item of a `with` statement. -/
structure WithItem where
  context : Expr
  target : Option Expr

/-- Headers of the clauses of compound statements other than `if`. -/
inductive ClauseHead where
  | forLoop (isAsync : Bool) (target source : Expr)
  | whileLoop (test : Expr)
  | withItems (isAsync : Bool) (items : List WithItem)
  | tryBody
  | handler (isGroup : Bool) (kind : Option Expr) (name : Option String)
  | elseBody
  | finallyBody
  /-- The header of a `match` statement; its cases are the clauses that follow. -/
  | subject (value : Expr)
  | caseOf (pattern : Pattern) (guard : Option Expr)

/-- The header of a function definition. -/
structure FunctionHead where
  isAsync : Bool
  name : String
  params : Parameters Expr
  returns : Option Expr
  decorators : List Expr
  decl : Option Nat

/-- The header of a class definition. -/
structure ClassHead where
  name : String
  bases : List Expr
  keywords : List (Keyword Expr)
  decorators : List Expr
  decl : Option Nat

/-- A clause: a header and its suite. -/
structure Clause (σ : Type) where
  head : ClauseHead
  body : List σ

/-- Statements. -/
inductive Stmt where
  | simple (pos : Pos) (statement : Simple)
  | function (pos : Pos) (head : FunctionHead) (body : List Stmt)
  | classDef (pos : Pos) (head : ClassHead) (body : List Stmt)
  | branch (pos : Pos) (test : Expr) (body orelse : List Stmt)
  | compound (pos : Pos) (clauses : List (Clause Stmt))

/-- A module is a list of statements. -/
abbrev Module := List Stmt

/-- Where an expression starts. -/
def Expr.pos : Expr → Pos
  | .name p .. | .constant p .. | .attribute p .. | .subscript p .. | .call p .. | .binary p ..
  | .unary p .. | .boolean p .. | .compare p .. | .conditional p .. | .lambda p .. | .display p ..
  | .dict p .. | .comprehension p .. | .dictComprehension p .. | .yield p .. | .yieldFrom p ..
  | .await p .. | .starred p .. | .walrus p .. | .slice p .. | .formatted p .. | .field p .. => p

/-- Where a statement starts. -/
def Stmt.pos : Stmt → Pos
  | .simple p .. | .function p .. | .classDef p .. | .branch p .. | .compound p .. => p

/-- The text constant that opens a suite as documentation, if there is one. -/
def docstring? : List Stmt → Option Constant
  | .simple _ (.expression (.constant _ value _)) :: _ => if value.isText then some value else none
  | _ => none

/-- A name or a chain of attributes on one, written with dots. -/
def Expr.dotted? : Expr → Option String
  | .name _ id => some id
  | .attribute _ base attr => base.dotted?.map (· ++ "." ++ attr)
  | _ => none

/-- No parameters. -/
def Parameters.none {ε : Type} : Parameters ε := ⟨[], [], .none, [], .none⟩

/-- How a parameter receives its argument. -/
inductive ParameterKind where
  | positionalOnly
  | positional
  | variadic
  | keywordOnly
  | keywordVariadic
deriving DecidableEq, Repr

/-- The name of a kind of parameters. -/
def ParameterKind.name : ParameterKind → String
  | .positionalOnly => "positional_only"
  | .positional => "positional"
  | .variadic => "var_positional"
  | .keywordOnly => "keyword_only"
  | .keywordVariadic => "var_keyword"

/-- The kind of parameters with a name. -/
def ParameterKind.ofName? (name : String) : Option ParameterKind :=
  [positionalOnly, positional, variadic, keywordOnly, keywordVariadic].find? (·.name = name)

/-- All parameters with their kinds, in declared order. -/
def Parameters.toList {ε : Type} (ps : Parameters ε) : List (ParameterKind × Parameter ε) :=
  ps.positionalOnly.map (.positionalOnly, ·) ++ ps.positional.map (.positional, ·) ++
    ps.variadic.toList.map (.variadic, ·) ++ ps.keywordOnly.map (.keywordOnly, ·) ++
    ps.keywordVariadic.toList.map (.keywordVariadic, ·)

end Typeward
