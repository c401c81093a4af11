/-!
# Configuration documents

A TOML document is a table of keys in the order in which they first appear. A document is built
statement by statement: headers open tables, and assignments fill the open one. A table that was
opened by its header cannot be opened again, and what is written in one piece, as an array or an
inline table, cannot be extended.
-/

namespace Typeward.Toml

/-- The nodes of a document; of numbers and times only the type is kept. -/
inductive Node where
  | text (value : String)
  | boolean (value : Bool)
  | integer
  | number
  | date
  | time
  | datetime
  | array (items : List Node)
  | table (entries : List (String × Node))
deriving Inhabited

/-- Tables, with their keys in order. -/
abbrev Table := List (String × Node)

/-- A key, part by part. -/
abbrev Key := List String

/-- Why a document is not read. -/
inductive Fault where
  | malformed
  /-- An integer has more digits than are converted. -/
  | overlongInteger
deriving DecidableEq, Repr

namespace Table

/-- Sets the node at a key; a new key comes last. -/
def put (key : String) (node : Node) : Table → Table
  | [] => [(key, node)]
  | e :: rest => if e.1 = key then (key, node) :: rest else e :: put key node rest

/-- Changes the table at a path, which is made where it is missing. With `throughArrays` the path
leads through the last table of an array. Any other node in the way stops it. -/
def update (throughArrays : Bool) (f : Table → Option Table) : Key → Table → Option Table
  | [], t => f t
  | key :: rest, t =>
    match t.lookup key with
    | none => do return t.put key (.table (← update throughArrays f rest []))
    | some (.table inner) => do return t.put key (.table (← update throughArrays f rest inner))
    | some (.array items) =>
      match throughArrays, items.getLast? with
      | true, some (.table inner) => do
        let inner ← update throughArrays f rest inner
        return t.put key (.array (items.dropLast ++ [.table inner]))
      | _, _ => none
    | some _ => none

/-- Adds an entry, unless the key is there. -/
def add (key : String) (node : Node) (t : Table) : Option Table :=
  if t.any (·.1 = key) then none else some (t.put key node)

/-- Adds an empty table to the array at a key. -/
def extend (key : String) (t : Table) : Option Table :=
  match t.lookup key with
  | none => some (t.put key (.array [.table []]))
  | some (.array items) => some (t.put key (.array (items ++ [.table []])))
  | some _ => none

end Table

/-- A document while it is read. -/
structure Document where
  table : Table := []
  /-- The key of the open table. -/
  header : Key := []
  /-- Tables that no header may open any more. -/
  closed : List Key := []
  /-- Tables that the next header closes. -/
  pending : List Key := []
  /-- What is written in one piece. -/
  frozen : List Key := []

/-- The key of the table that holds an entry, and the last part of the key. -/
def splitKey (key : Key) : Key × String := (key.dropLast, key.getLast?.getD "")

/-- Whether a node is made of others. -/
def Node.isCompound : Node → Bool
  | .array _ | .table _ => true
  | _ => false

/-- The proper beginnings of a key. -/
def beginnings (key : Key) : List Key :=
  (List.range (key.length - 1)).map fun n => key.take (n + 1)

namespace Document

/-- Whether a key leads to or into something written in one piece. -/
def isFrozen (d : Document) (key : Key) : Bool := d.frozen.any (·.isPrefixOf key)

/-- A header is met: the tables opened in passing since the last one are closed. -/
def settle (d : Document) : Document := { d with closed := d.pending ++ d.closed, pending := [] }

/-- The header of a table. -/
def openTable (d : Document) (key : Key) : Option Document :=
  let d := d.settle
  if d.closed.contains key || d.isFrozen key then none
  else do
    let table ← d.table.update true some key
    return { d with table, header := key, closed := key :: d.closed }

/-- The header of a table in an array. What was said about an earlier table of the array does not
hold for this one. -/
def openElement (d : Document) (key : Key) : Option Document :=
  let d := d.settle
  if d.isFrozen key then none
  else do
    let (parent, last) := splitKey key
    let table ← d.table.update true (·.extend last) parent
    let others (keys : List Key) : List Key := keys.filter fun k => ! key.isPrefixOf k
    return { d with
      table, header := key, closed := key :: others d.closed, frozen := others d.frozen }

/-- An assignment in the open table. -/
def assign (d : Document) (key : Key) (node : Node) : Option Document :=
  let (parent, last) := splitKey key
  let passed := (beginnings key).map (d.header ++ ·)
  if passed.any d.closed.contains || d.isFrozen (d.header ++ parent) then none
  else do
    let table ← d.table.update true (·.add last node) (d.header ++ parent)
    let frozen := if node.isCompound then (d.header ++ key) :: d.frozen else d.frozen
    return { d with table, pending := passed ++ d.pending, frozen }

end Document

/-- An inline table while it is read: its entries, and the keys that are written in one piece. -/
structure InlineTable where
  table : Table := []
  frozen : List Key := []

/-- An assignment in an inline table. -/
def InlineTable.assign (t : InlineTable) (key : Key) (node : Node) : Option InlineTable :=
  if t.frozen.any (·.isPrefixOf key) then none
  else do
    let (parent, last) := splitKey key
    let table ← t.table.update false (·.add last node) parent
    return ⟨table, if node.isCompound then key :: t.frozen else t.frozen⟩

end Typeward.Toml
