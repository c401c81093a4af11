import Typeward.Source.StatementSlots

/-!
# Where constructs may stand

A module that parses can still be refused when it is loaded: for constructs outside the places
where they have a meaning, for parameters or keywords that repeat, and for clauses that none after
them can be reached behind. `isWellPlaced` tells the modules that are not refused for any of these.
How the names of a scope are used is not looked at, so it admits some modules that are refused for
that: one that declares a name to be bound by an outer function where none binds it, and one that
declares a name to be global below an assignment to it or a use of it.
-/

namespace Typeward

namespace Placement

/-- The innermost function around a place. -/
inductive Enclosing where
  | none
  | plain
  | asynchronous
deriving DecidableEq, Repr

/-- A place in a module. -/
structure Place where
  enclosing : Enclosing := .none
  /-- Whether a function lies around the innermost function or class. -/
  hasOuter : Bool := false
  isModule : Bool := true
  inComprehension : Bool := false
  /-- Whether control can leave a loop from here. -/
  canLeaveLoop : Bool := false
  canReturn : Bool := false

/-- The place in the body of a function. -/
def Place.inFunction (p : Place) (isAsync : Bool) : Place :=
  { enclosing := if isAsync then .asynchronous else .plain
    hasOuter := p.enclosing ≠ .none || p.hasOuter, isModule := false, canReturn := true }

/-- The place in the body of a class. -/
def Place.inClass (p : Place) : Place :=
  { hasOuter := p.enclosing ≠ .none || p.hasOuter, isModule := false }

/-- Whether an expression unpacks another. -/
def isStarred : Expr → Bool
  | .starred .. => true
  | _ => false

/-- The expressions in a node that may not unpack others. -/
def unstarredParts : Expr → List Expr
  | .call _ func _ keywords _ => func :: keywords.map (·.value)
  | .display .. | .starred .. => []
  | e => e.children

/-- Whether a comprehension waits for something while it is built. -/
def isAsyncComprehension (clauses : List (ForClause Expr)) : Bool := clauses.any (·.isAsync)

/-- Whether the names are all different. -/
def areDistinct (names : List String) : Bool := names.Nodup

/-- What a node asks of its own place. -/
def isPlacedNode (p : Place) (e : Expr) : Bool :=
  (unstarredParts e).all (! isStarred ·) &&
    match e with
    | .yield .. => p.enclosing ≠ .none && ! p.inComprehension
    | .yieldFrom .. => p.enclosing = .plain && ! p.inComprehension
    | .await .. => p.enclosing = .asynchronous || p.inComprehension
    | .comprehension _ kind _ clauses =>
      ! isAsyncComprehension clauses || kind = .generator || p.enclosing = .asynchronous ||
        p.inComprehension
    | .dictComprehension _ _ _ clauses =>
      ! isAsyncComprehension clauses || p.enclosing = .asynchronous || p.inComprehension
    | .call _ _ _ keywords _ => areDistinct (keywords.filterMap (·.name))
    | .lambda _ params _ => areDistinct (params.toList.map (·.2.name))
    | _ => true

/-- The place of the parts of a node. -/
def placeInside (p : Place) : Expr → Place
  | .lambda .. => p.inFunction false
  | .comprehension .. | .dictComprehension .. => { p with inComprehension := true }
  | _ => p

/-- Whether all nodes of an expression are at places for them. -/
def isPlacedExpr (p : Place) (e : Expr) : Bool :=
  isPlacedNode p e && (e.collectChildren fun c _ => [isPlacedExpr (placeInside p e) c]).all id
termination_by sizeOf e

/-- Whether an expression that is no part of another is well placed. -/
def isPlacedWhole (p : Place) (e : Expr) : Bool := ! isStarred e && isPlacedExpr p e

/-- Whether all expressions in a header are well placed. -/
def arePlaced {α : Type} [Slots α] (p : Place) (a : α) : Bool :=
  (Slots.slots a).all (isPlacedWhole p)

mutual

/-- Whether a target of an assignment unpacks at most one of its parts, and is not unpacked
itself. -/
def isTarget : Expr → Bool
  | .starred .. => false
  | .display _ _ elements => (elements.filter isStarred).length ≤ 1 && areTargets elements
  | _ => true

/-- Whether the parts of a target are targets, unpacked or not. -/
def areTargets : List Expr → Bool
  | [] => true
  | .starred _ inner :: rest => isTarget inner && areTargets rest
  | e :: rest => isTarget e && areTargets rest

end

/-- The features that a module can ask for in advance. -/
def futureFeatures : List String :=
  ["nested_scopes", "generators", "division", "absolute_import", "with_statement",
    "print_function", "unicode_literals", "barry_as_FLUFL", "generator_stop", "annotations"]

/-- Whether a statement asks for features in advance. -/
def isFutureImport : Stmt → Bool
  | .simple _ (.importNames (some "__future__") ..) => true
  | _ => false

/-- Whether a simple statement is at a place for it. -/
def isPlacedSimple (p : Place) (t : Simple) : Bool :=
  match t with
  | .assign targets value _ =>
    targets.all (fun e => isTarget e && isPlacedExpr p e) && isPlacedWhole p value
  | .returnValue _ => p.canReturn && arePlaced p t
  | .breakLoop | .continueLoop => p.canLeaveLoop
  | .nonlocal _ => p.hasOuter
  | .importNames (some "__future__") names _ =>
    p.isModule && names.all (futureFeatures.contains ·.name)
  | .importNames _ names _ => p.isModule || names.all (·.name ≠ "*")
  | t => arePlaced p t

/-- Whether a pattern matches everything. -/
def isIrrefutable : Pattern → Bool
  | .capture _ none _ => true
  | .capture _ (some inner) _ => isIrrefutable inner
  | _ => false

/-- Whether a clause may be followed by others. -/
def admitsFollower (head next : ClauseHead) : Bool :=
  match head, next with
  | .handler _ none _, .handler .. => false
  | .caseOf pattern none, .caseOf .. => ! isIrrefutable pattern
  | _, _ => true

/-- Whether each clause may be followed by the next one. -/
def areOrdered : List ClauseHead → Bool
  | a :: b :: rest => admitsFollower a b && areOrdered (b :: rest)
  | _ => true

/-- Whether the header of a clause is at a place for it. -/
def isPlacedHead (p : Place) (head : ClauseHead) : Bool :=
  match head with
  | .forLoop isAsync target source =>
    (! isAsync || p.enclosing = .asynchronous) && isTarget target && isPlacedExpr p target &&
      isPlacedWhole p source
  | .withItems isAsync items => (! isAsync || p.enclosing = .asynchronous) && arePlaced p items
  | head => arePlaced p head

/-- The place in the suite of a clause. -/
def placeInClause (p : Place) : ClauseHead → Place
  | .forLoop .. | .whileLoop _ => { p with canLeaveLoop := true }
  | .handler true .. => { p with canLeaveLoop := false, canReturn := false }
  | _ => p

/-- The names that statements declare to be global, without those in inner definitions. -/
def globalNames : List Stmt → List String
  | [] => []
  | .simple _ (.global names) :: rest | .simple _ (.nonlocal names) :: rest =>
    names ++ globalNames rest
  | _ :: rest => globalNames rest

/-- Whether the parameters of a function differ from each other and from its global names. -/
def areProperParameters (params : Parameters Expr) (body : List Stmt) : Bool :=
  let names := params.toList.map (·.2.name)
  areDistinct names && (globalNames body).all (! names.contains ·)

mutual

/-- Whether a statement and all in it are at places for them. -/
def isPlacedStmt (p : Place) : Stmt → Bool
  | .simple _ t => isPlacedSimple p t
  | .function _ head body =>
    arePlaced p head.decorators && arePlaced p head.returns && arePlaced p head.params &&
      areProperParameters head.params body && arePlacedStmts (p.inFunction head.isAsync) body
  | .classDef _ head body =>
    arePlaced p head.decorators && head.bases.all (isPlacedExpr p) && arePlaced p head.keywords &&
      areDistinct (head.keywords.filterMap (·.name)) && arePlacedStmts p.inClass body
  | .branch _ test body orelse =>
    isPlacedWhole p test && arePlacedStmts p body && arePlacedStmts p orelse
  | .compound _ clauses => areOrdered (clauses.map (·.head)) && arePlacedClauses p clauses

/-- Whether statements are well placed. -/
def arePlacedStmts (p : Place) : List Stmt → Bool
  | [] => true
  | t :: rest => isPlacedStmt p t && arePlacedStmts p rest

/-- Whether clauses are well placed. A loop's own clauses at its end are outside of it. -/
def arePlacedClauses (p : Place) : List (Clause Stmt) → Bool
  | [] => true
  | ⟨head, body⟩ :: rest =>
    isPlacedHead p head && arePlacedStmts (placeInClause p head) body && arePlacedClauses p rest

end

/-- The statements behind a docstring. -/
def afterDocstring (m : Module) : Module := if (docstring? m).isSome then m.drop 1 else m

/-- Whether all requests for features come first. -/
def areFuturesFirst (m : Module) : Bool :=
  ((afterDocstring m).dropWhile isFutureImport).all (! isFutureImport ·)

end Placement

/-- Whether the constructs in a module that parses stand where they may. -/
def isWellPlaced (m : Module) : Bool :=
  Placement.areFuturesFirst m && Placement.arePlacedStmts {} m

end Typeward
