import Typeward.Schema

/-!
# A small world

Classes and functions that checks are tried out with: a few ordinary classes, protocols, a class of
dictionaries, extensions of built-in classes, and functions that refine types. `Sample.world` says
what they mean.
-/

namespace Typeward

namespace Sample

/-- A class of this world. -/
def declared (name : String) (form : ClassForm := .ordinary) : Class := ⟨"world", name, form⟩

/-- The classes of this world, each with the classes that it extends. -/
def classes : List (Class × List Class) :=
  [(declared "Widget", []),
    (declared "Gadget", [declared "Widget"]),
    (declared "Point", []),
    (declared "Basket", []),
    (declared "Callee", []),
    (declared "Named" .openProtocol, []),
    (declared "Sized" .lengthProtocol, []),
    (declared "NamedImpl", [declared "Named" .openProtocol]),
    (declared "Movie" .dictionary, [.builtin "dict"]),
    (declared "MyInt", [.builtin "int"]),
    (declared "MyStr", [.builtin "str"]),
    (declared "MyList", [.builtin "list"]),
    (declared "MyTuple", [.builtin "tuple"]),
    (declared "MyDict", [.builtin "dict"])]

/-- A class of this world by its name. -/
def class? (name : String) : Option Class :=
  (classes.find? (·.1.name = name)).map (·.1)

/-- The classes that a class extends, itself among them. -/
def ancestors (c : Class) : List Class :=
  let parents := (classes.lookup c).getD (if c = .builtin "bool" then [.builtin "int"] else [])
  c :: parents ++ [.builtin "object"]

/-- The functions of this world; the second of a pair says whether the function shows no name. -/
def functions : List (String × Bool) :=
  [("is_positive", false), ("is_even", false), ("non_empty", false), ("identity", false),
    ("always", false), ("anonymous", true), ("never", false), ("anonymous_never", true),
    ("boom", false)]

/-- A function of this world by its name. -/
def function? (name : String) : Option Function :=
  (functions.lookup name).map (Function.declared name)

/-- The length that the individuals of a class have. -/
def lengthOfObject (c : Class) : Option Nat :=
  if c = declared "Basket" then some 2 else none

/-- The length of a value. -/
def length? : Value → Option Nat
  | .object c => lengthOfObject c
  | v => v.length?

/-- The built-in classes whose instances have a length. -/
def sizedClasses : List String :=
  ["str", "bytes", "bytearray", "list", "tuple", "dict", "set", "frozenset", "range"]

/-- Whether a class says what the length of its instances is. -/
def hasLength (c : Class) : Bool :=
  (ancestors c).any fun a =>
    sizedClasses.any (a = .builtin ·) || a.form = .lengthProtocol || (lengthOfObject a).isSome

/-- Whether a value is an instance of a class. A protocol of lengths admits whatever has one, also
the classes that provide one. -/
def isInstance (v : Value) (c : Class) : Bool :=
  match c.form, v with
  | .lengthProtocol, .ofClass d => hasLength d
  | .lengthProtocol, v => (length? v).isSome
  | _, v => (ancestors v.classOf).contains c

/-- Whether a value can be called. -/
def isCallable : Value → Bool
  | .function _ | .ofClass _ | .model _ => true
  | .object c => c = declared "Callee"
  | _ => false

/-- Whether a value counts as true in a condition. -/
def truth (v : Value) : Bool :=
  match v.plain with
  | .constant c => c.truth
  | v =>
    match length? v with
    | some n => n ≠ 0
    | none => true

/-- Whether a number is greater than zero; other values cannot be compared with it. -/
def isPositive (v : Value) : Except Raised Bool :=
  match v.plain with
  | .constant c =>
    match c.numeral? with
    | some (.int n) => .ok (0 < n)
    | some (.float x) => .ok x.isPositive
    | _ => .error .misfit
  | _ => .error .misfit

/-- Whether a number is even; other values cannot be divided. -/
def isEven (v : Value) : Except Raised Bool :=
  match v.plain with
  | .constant c =>
    match c.numeral? with
    | some (.int n) => .ok (n % 2 = 0)
    | some (.float x) => .ok x.isEven
    | _ => .error .misfit
  | _ => .error .misfit

/-- The condition that a function of this world is. -/
def judge (name : String) (v : Value) : Except Raised Bool :=
  match name with
  | "is_positive" => isPositive v
  | "is_even" => isEven v
  | "non_empty" =>
    match length? v with
    | some n => .ok (0 < n)
    | none => .error .misfit
  | "identity" => .ok (truth v)
  | "never" | "anonymous_never" => .ok false
  | "boom" => .error .unfitValue
  | _ => .ok true

/-- Calls a value and takes the result as a condition. -/
def holds (f v : Value) : Except Raised Bool :=
  match f with
  | .function (.declared name _) => judge name v
  | .function (.builtin "callable") => .ok (isCallable v)
  | .function (.builtin "len") => judge "non_empty" v
  | .ofClass c => if c = .builtin "bool" then .ok (truth v) else .error .misfit
  | _ => .error .misfit

/-- The meaning of classes and functions. -/
def world : World := { isInstance, isCallable, holds }

/-- Makes a range from its end, from its start and end, or from these and its step. -/
def toRange (arguments : List Value) : Except Raised Value := do
  let bounds ← arguments.mapM fun v =>
    match v.plain with
    | .constant c =>
      match c with
      | .int n => .ok n
      | .bool b => .ok (if b then 1 else 0)
      | _ => .error .misfit
    | _ => .error .misfit
  match bounds with
  | [stop] => .ok (.range 0 stop 1)
  | [first, stop] => .ok (.range first stop 1)
  | [first, stop, step] => if step = 0 then .error .unfitValue else .ok (.range first stop step)
  | _ => .error .misfit

/-- Makes an integer from a value. -/
def toInteger (v : Value) : Except Raised Value :=
  match v.plain with
  | .constant (.float x) =>
    if x.isSpecial then .error .unfitValue
    else
      let (num, den) := x.toRatio
      .ok (.ofInt (num.tdiv den))
  | .constant (.text s) =>
    match s.toInt? with
    | some n => .ok (.ofInt n)
    | none => .error .unfitValue
  | .constant c =>
    match c.numeral? with
    | some (.int n) => .ok (.ofInt n)
    | _ => .error .misfit
  | _ => .error .misfit

/-- Makes a collection of a kind from what can be walked through. -/
def toCollection (kind : Collection) (v : Value) : Except Raised Value :=
  match v.elements? with
  | some items => .ok (.collection kind items)
  | none => .error .misfit

/-- Makes a dictionary from a mapping or from a collection of pairs. -/
def toDictionary (v : Value) : Except Raised Value :=
  match v.entries?, v.elements? with
  | some entries, _ => .ok (.mapping false entries)
  | none, some items => do
    let entries ← items.mapM fun item =>
      match item.elements? with
      | some [key, value] => if key.isHashable then .ok (key, value) else .error .misfit
      | some _ => .error .unfitValue
      | none => .error .misfit
    return .mapping false (Value.distinctEntries entries)
  | none, none => .error .misfit

/-- Calls a class of this world with a value, given the text of the value. -/
def construct (c : Class) (v : Value) (text : String) : Except Raised Value :=
  match c.name with
  | "MyInt" => (toInteger v).map (.derived c)
  | "MyStr" => .ok (.derived c (.ofText text))
  | "MyList" => (toCollection .list v).map (.derived c)
  | "MyTuple" => (toCollection .tuple v).map (.derived c)
  | "MyDict" => (toDictionary v).map (.derived c)
  | "Movie" => toDictionary v
  | _ => .error .misfit

/-- Calls a class of this world with nothing. -/
def instantiate (c : Class) : Except Raised Value :=
  match c.name with
  | "MyInt" => .ok (.derived c (.ofInt 0))
  | "MyStr" => .ok (.derived c (.ofText ""))
  | "MyList" => .ok (.derived c (.collection .list []))
  | "MyTuple" => .ok (.derived c (.collection .tuple []))
  | "MyDict" => .ok (.derived c (.mapping false []))
  | "Movie" => .ok (.mapping false [])
  | "Named" | "Sized" => .error .misfit
  | _ => .ok (.object c)

end Sample

end Typeward
