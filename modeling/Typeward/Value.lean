import Typeward.Source.Constant

/-!
# Values

The values that checks are run against: constants, collections, mappings, functions, classes and
instances of classes. A runtime type is a value, too; it is known by its number in the session that
made it. Values are finite trees, and `Value.depth` bounds how far a check can descend into one.
-/

namespace Typeward

/-- How a class takes part in checks. -/
inductive ClassForm where
  | ordinary
  /-- A class of dictionaries with known keys. -/
  | dictionary
  /-- A protocol that cannot be tested for; everything counts as an instance. -/
  | openProtocol
  /-- A protocol that asks for a length. -/
  | lengthProtocol
deriving DecidableEq, Repr

/-- A class. -/
structure Class where
  /-- The module that declares the class. -/
  home : String
  name : String
  form : ClassForm := .ordinary
deriving DecidableEq, Repr

/-- A class of the language itself. -/
def Class.builtin (name : String) : Class := ⟨"builtins", name, .ordinary⟩

/-- The text of a class; the home of built-in ones is left out. -/
def Class.text (c : Class) : String :=
  "<class '" ++ (if c.home = "builtins" then c.name else c.home ++ "." ++ c.name) ++ "'>"

/-- A function. -/
inductive Function where
  /-- A declared function; an anonymous one shows no name to those who ask for it. -/
  | declared (name : String) (isAnonymous : Bool)
  | builtin (name : String)
deriving DecidableEq, Repr

/-- The text of a function. -/
def Function.text : Function → String
  | .declared name _ => "<fn " ++ name ++ ">"
  | .builtin name => "<built-in function " ++ name ++ ">"

/-- The name that a function shows, if any. -/
def Function.name? : Function → Option String
  | .declared name isAnonymous => if isAnonymous then none else some name
  | .builtin name => some name

/-- Collections of elements. -/
inductive Collection where
  | list | tuple | deque | set | frozenSet
deriving DecidableEq, Repr

/-- Whether a collection ignores the order of its elements. -/
def Collection.isUnordered : Collection → Bool
  | .set | .frozenSet => true
  | _ => false

/-- Values. -/
inductive Value where
  | constant (value : Constant)
  | byteArray (bytes : List UInt8)
  | collection (kind : Collection) (items : List Value)
  | mapping (isReadOnly : Bool) (entries : List (Value × Value))
  | range (first stop step : Int)
  | function (f : Function)
  | ofClass (c : Class)
  /-- An instance of a class without content. Every one is an individual of its own. -/
  | object (c : Class)
  /-- An instance of a class that extends a built-in one, with its content as the latter. -/
  | derived (c : Class) (content : Value)
  /-- A runtime type, by its number. -/
  | model (number : Nat)
deriving Inhabited

namespace Value

/-- The absent value. -/
def absent : Value := .constant .none

/-- A text. -/
def ofText (s : String) : Value := .constant (.text s)

/-- An integer. -/
def ofInt (n : Int) : Value := .constant (.int n)

/-- The value as an instance of a built-in class, whatever extension it belongs to. -/
def plain : Value → Value
  | .derived _ content => content.plain
  | v => v

/-- Whether this is the absent value. -/
def isAbsent : Value → Bool
  | .constant .none => true
  | _ => false

mutual

/-- How deep a value nests: more than each of its parts. -/
def depth : Value → Nat
  | .collection _ items => depthAll items + 1
  | .mapping _ entries => depthEntries entries + 1
  | .byteArray _ | .range .. => 1
  | .derived _ content => content.depth
  | _ => 0

/-- The greatest depth in a list. -/
def depthAll : List Value → Nat
  | [] => 0
  | v :: rest => max v.depth (depthAll rest)

/-- The greatest depth of keys and values. -/
def depthEntries : List (Value × Value) → Nat
  | [] => 0
  | (k, v) :: rest => max (max k.depth v.depth) (depthEntries rest)

end

/-- The number of integers in a range. -/
def rangeSize (first stop step : Int) : Nat :=
  if step = 0 then 0
  else if 0 < step then ((stop - first + step - 1) / step).toNat
  else ((first - stop - step - 1) / (-step)).toNat

/-- The integers of a range. -/
def rangeItems (first stop step : Int) : List Value :=
  (List.range (rangeSize first stop step)).map fun (i : Nat) => ofInt (first + i * step)

/-- The elements of what can be walked through: texts give their characters, mappings their keys. -/
def elements? (v : Value) : Option (List Value) :=
  match v.plain with
  | .collection _ items => some items
  | .range first stop step => some (rangeItems first stop step)
  | .byteArray bytes | .constant (.bytes bytes) => some (bytes.map fun b => ofInt b.toNat)
  | .constant (.text s) => some (s.toList.map fun c => ofText (String.singleton c))
  | .mapping _ entries => some (entries.map (·.1))
  | _ => none

/-- The elements of a tuple. -/
def tuple? (v : Value) : Option (List Value) :=
  match v.plain with
  | .collection .tuple items => some items
  | _ => none

/-- The entries of a mapping. -/
def entries? (v : Value) : Option (List (Value × Value)) :=
  match v.plain with
  | .mapping _ entries => some entries
  | _ => none

/-- The length of a value of a built-in class. -/
def length? (v : Value) : Option Nat :=
  match v.plain with
  | .constant (.text s) => some s.length
  | .constant (.surrogates points) => some points.length
  | .constant (.bytes bytes) | .byteArray bytes => some bytes.length
  | .collection _ items => some items.length
  | .mapping _ entries => some entries.length
  | .range first stop step => some (rangeSize first stop step)
  | _ => none

/-- The class of a constant. -/
def constantClass : Constant → Class
  | .none => .builtin "NoneType"
  | .bool _ => .builtin "bool"
  | .int _ => .builtin "int"
  | .float _ => .builtin "float"
  | .complex .. => .builtin "complex"
  | .text _ | .surrogates _ => .builtin "str"
  | .bytes _ => .builtin "bytes"
  | .ellipsis => .builtin "ellipsis"

/-- The class of a value. Runtime types count as of one class; nothing tells them apart by it. -/
def classOf : Value → Class
  | .constant c => constantClass c
  | .byteArray _ => .builtin "bytearray"
  | .collection .list _ => .builtin "list"
  | .collection .tuple _ => .builtin "tuple"
  | .collection .deque _ => ⟨"collections", "deque", .ordinary⟩
  | .collection .set _ => .builtin "set"
  | .collection .frozenSet _ => .builtin "frozenset"
  | .mapping false _ => .builtin "dict"
  | .mapping true _ => .builtin "mappingproxy"
  | .range .. => .builtin "range"
  | .function (.declared ..) => ⟨"functions", "function", .ordinary⟩
  | .function (.builtin _) => .builtin "builtin_function_or_method"
  | .ofClass _ => .builtin "type"
  | .object c | .derived c _ => c
  | .model _ => ⟨"models", "model", .ordinary⟩

end Value

end Typeward
