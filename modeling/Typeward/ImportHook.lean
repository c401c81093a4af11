import Typeward.Compilation
import Typeward.Source.Placement

/-!
# Compiling modules on import

Finders are put in front of the path on which modules are searched; each compiles the modules of the
packages that it is installed for, with options of its own. The latest finder that knows a module
wins. Finders are numbered in the order of their installation, and the numbers of those that are
installed are kept beside the path.
-/

namespace Typeward

/-- A finder that compiles the modules of some packages. -/
structure Finder where
  packages : List String
  options : Options

/-- Whether a finder is installed for a module: for the module itself or a package around it. -/
def Finder.selects (f : Finder) (name : String) : Bool :=
  f.packages.any fun package => name = package || name.startsWith (package ++ ".")

/-- An entry of the search path: a finder by its number, or one of another kind. -/
inductive Searcher where
  | finder (number : Nat)
  | other (name : String)
deriving DecidableEq, Repr

/-- The finders and the search path. -/
structure Hook where
  /-- All finders ever installed, by their numbers. -/
  finders : List Finder := []
  path : List Searcher := []
  /-- The numbers of the installed finders, in the order of their installation. -/
  installed : List Nat := []

namespace Hook

/-- Installs a finder. -/
def install (h : Hook) (f : Finder) : Hook :=
  let number := h.finders.length
  { finders := h.finders ++ [f], path := .finder number :: h.path,
    installed := h.installed ++ [number] }

/-- Removes a finder; one that is not installed is left out. -/
def remove (h : Hook) (number : Nat) : Hook :=
  { h with path := h.path.erase (.finder number), installed := h.installed.erase number }

/-- Removes one finder or all of them. -/
def uninstall (h : Hook) (number : Option Nat) : Hook :=
  match number with
  | some number => h.remove number
  | none => h.installed.foldl remove h

/-- The numbers of the finders on the path, in the order in which they are asked. -/
def order (h : Hook) : List Nat :=
  h.path.filterMap fun s =>
    match s with
    | .finder number => some number
    | .other _ => none

/-- Whether the finder with a number is for a module. -/
def selects (h : Hook) (number : Nat) (name : String) : Bool :=
  (h.finders[number]?).any (·.selects name)

end Hook

/-- The files that modules are searched in, by their paths. -/
abbrev Files := List (String × List UInt8)

namespace Files

/-- A path below a directory; the empty path is the root. -/
def join (directory name : String) : String :=
  if directory.isEmpty then name else directory ++ "/" ++ name

/-- The content of a file. -/
def content? (files : Files) (path : String) : Option (List UInt8) := files.lookup path

/-- Whether a path leads to a directory. -/
def isDirectory (files : Files) (path : String) : Bool :=
  path.isEmpty || files.any fun f => f.1.startsWith (path ++ "/")

end Files

/-- Where a module is found. -/
inductive Found where
  | source (path : String) (bytes : List UInt8)
  /-- A module in another form, or a directory that is a package without source. -/
  | other

/-- Why a module that is found is not loaded. -/
inductive LoadFailure where
  | failure (f : Failure)
  /-- The encoding of the file is declared wrongly. -/
  | badDeclaration
  /-- The compiled module has a construct at a place where it is refused. -/
  | misplaced
  /-- The package around a directory without source is not loaded. -/
  | unloadedParent

/-- The endings of files with modules that are not source, in front of those with source. -/
def binaryEndings : List String := [".cpython-311-x86_64-linux-gnu.so", ".abi3.so", ".so"]

/-- A module in the files whose paths start in one way. -/
def findAt? (files : Files) (start : String) : Option Found :=
  if binaryEndings.any fun ending => (files.content? (start ++ ending)).isSome then some .other
  else
    match files.content? (start ++ ".py") with
    | some bytes => some (.source (start ++ ".py") bytes)
    | none => if (files.content? (start ++ ".pyc")).isSome then some .other else none

/-- The directory of a module's package and the last part of its name. -/
def modulePlace (name : String) : String × String :=
  let parts := nameParts name
  ("/".intercalate (parts.dropLast.filter (· ≠ "")), parts.getLast?.getD "")

/-- Searches a module below the directory of its package: as a package, as a file, or as a
directory. -/
def findModule (files : Files) (name : String) : Except LoadFailure (Option Found) :=
  let (directory, last) := modulePlace name
  let start := Files.join directory last
  if last.isEmpty || last.contains '/' || ! files.isDirectory directory then .ok none
  else
    match findAt? files (Files.join start "__init__"), findAt? files start with
    | some found, _ => .ok (some found)
    | none, some found => .ok (some found)
    | none, none =>
      if ! files.isDirectory start then .ok none
      else if name.contains '.' then .error .unloadedParent
      else .ok (some .other)

/-- A module that a finder knows, with the number of the finder and, if it is compiled, the code. -/
structure Loaded where
  number : Nat
  code : Option String

/-- Compiles the module in a file, as it is done on import. -/
def compileModule (options : Options) (path : String) (bytes : List UInt8) :
    Except LoadFailure String := do
  let source ←
    match Text.decodeSource bytes with
    | .ok source => pure source
    | .error .badDeclaration => throw .badDeclaration
    | .error .undecodable => throw (.failure .undecodable)
  let compiled ← (compile options source path).mapError .failure
  if isWellPlaced compiled.tree.spliced.tree then return compiled.code else throw .misplaced

/-- Asks finders for a module, one after the other. -/
def Hook.loadFrom (h : Hook) (files : Files) (name : String) :
    List Nat → Except LoadFailure (Option Loaded)
  | [] => .ok none
  | number :: rest =>
    match h.finders[number]? with
    | none => h.loadFrom files name rest
    | some f =>
      if f.selects name then do
        match ← findModule files name with
        | none => h.loadFrom files name rest
        | some .other => return some ⟨number, none⟩
        | some (.source path bytes) =>
          return some ⟨number, some (← compileModule f.options path bytes)⟩
      else h.loadFrom files name rest

/-- Loads a module through the first finder that knows it. -/
def Hook.load (h : Hook) (files : Files) (name : String) : Except LoadFailure (Option Loaded) :=
  h.loadFrom files name h.order

end Typeward
