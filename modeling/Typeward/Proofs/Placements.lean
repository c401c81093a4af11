import Typeward.Proofs.EmittedNames
import Typeward.Proofs.LoweringRuns
import Typeward.Proofs.Nodes
import Typeward.Proofs.PlanRuns

/-!
# Where code is placed

What the two passes over a module do together, node by node. A relation takes a node through its
lowered form, which carries the numbers of its declarations, to its compiled form, and lists the
entries of the plan whose code the compiled form holds, in the order of their declarations. Casts
are replaced by checks, definitions and inspected types by bindings, checks of parameters stand
behind the documentation of a body, and everything else stays as it is.
-/

namespace Typeward

open Slots

/-- A plan holds entries for the declaration with a number: those that the planner makes for it. -/
structure Plan.Holds (p : Plan) (number : Nat) (d : Declaration) (entries : List PlanEntry) :
    Prop where
  entries_eq : p.ofDeclaration number = entries
  step : ∃ r r', PlanStep r number d entries r'

/-- Whether a simple statement declares a type or asks for the model of one. -/
def Simple.declares (c : LowerContext) : Simple → Bool
  | .annotated (.name ..) hint (some _) _ _ => c.scope.canonical hint == some "TypeAlias"
  | .assign [.name ..] value _ => callsSpecial c "reify" value
  | _ => false

/-- Whether a class is a record: a base is the marker of records or one of the records known. -/
def isKnownRecord (c : LowerContext) (known : List String) (bases : List Expr) : Bool :=
  bases.any fun base =>
    c.scope.canonical base == some "TypedDict" || base.dotted?.any known.contains

/-- The number of statements at the head of a suite that document it. -/
def docstringLength (body : List Stmt) : Nat := if (docstring? body).isSome then 1 else 0

/-- What takes the place of a cast: the check of its value, or the value where there are no checks.
-/
def Emitter.castCode (m : Emitter) (entry : PlanEntry) (type value : Expr) : Expr :=
  if m.skipAsserts then value else checkExpr m.runtime value type entry.label

/-- A statement checks a parameter as an entry says. -/
def Emitter.Checks (m : Emitter) (pos : Pos) (entry : PlanEntry) (t : Stmt) : Prop :=
  ∃ p type, entry.site = .parameter p ∧ m.render entry.expr = .ok type ∧
    t = .simple pos (.expression (checkExpr m.runtime (.name .synthetic p.name) type entry.label))

namespace Splicer

mutual

/-- An expression is lowered to the second one, and the third one holds the code for entries. -/
inductive PlacesExpr (k : Splicer) (c : LowerContext) :
    Expr → Expr → List PlanEntry → Expr → Prop
  /-- A cast becomes the check of its value; the casts in the value come later in the plan. -/
  | cast {pos func type value value' u number t label entry entries code}
      (hfunc : c.scope.canonical func = some "cast") (hplain : func.Unnumbered)
      (htype : type.Unnumbered) (hdenote : c.hints.denote type = .ok t)
      (hlabel : HintContext.text value = .ok label)
      (hentry : k.plan.Holds number (.cast ⟨t, label, c.location pos⟩) [entry])
      (hcode : k.emitter.render entry.expr = .ok code)
      (hvalue : PlacesExpr k c value value' entries u) :
      PlacesExpr k c (.call pos func [type, value] [] none)
        (.call pos func [type, value'] [] (some number)) (entry :: entries)
        (k.emitter.castCode entry code u)
  /-- Any other expression stays, with code in its parts. -/
  | parts {e es' entries us} (hcast : callsSpecial c "cast" e = false)
      (hnumber : e.number? = none) (hparts : PlacesExprs k c e.children es' entries us) :
      PlacesExpr k c e (e.withChildren es') entries (e.withChildren us)

/-- Expressions one after the other. -/
inductive PlacesExprs (k : Splicer) (c : LowerContext) :
    List Expr → List Expr → List PlanEntry → List Expr → Prop
  | nil : PlacesExprs k c [] [] [] []
  | cons {e e' u es es' us first more} (hfirst : PlacesExpr k c e e' first u)
      (hrest : PlacesExprs k c es es' more us) :
      PlacesExprs k c (e :: es) (e' :: es') (first ++ more) (u :: us)

end

/-- The expressions that a value holds. -/
inductive PlacesIn {α : Type} [Slots α] (k : Splicer) (c : LowerContext) (a : α) :
    α → List PlanEntry → α → Prop
  | intro {es' entries us} (h : k.PlacesExprs c (slots a) es' entries us) :
      PlacesIn k c a (refill a es') entries (refill a us)

/-- The initial values of parameters, those of positional parameters first. -/
inductive PlacesParameters (k : Splicer) (c : LowerContext) (ps : Parameters Expr) :
    Parameters Expr → List PlanEntry → Parameters Expr → Prop
  | intro {only only' first positional positional' second keywordOnly keywordOnly' third}
      (honly : k.PlacesIn c ps.positionalOnly only first only')
      (hpositional : k.PlacesIn c ps.positional positional second positional')
      (hkeywordOnly : k.PlacesIn c ps.keywordOnly keywordOnly third keywordOnly') :
      PlacesParameters k c ps
        { ps with positionalOnly := only, positional, keywordOnly }
        (first ++ (second ++ third))
        { ps with positionalOnly := only', positional := positional', keywordOnly := keywordOnly' }

/-- The checks of parameters as statements, one for each, or none where there are no checks. -/
inductive PlacesChecks (k : Splicer) (pos : Pos) : List PlanEntry → List Stmt → Prop
  | skipped {entries} (hskip : k.emitter.skipAsserts = true) : PlacesChecks k pos entries []
  | checked {entries ts} (hskip : k.emitter.skipAsserts = false)
      (h : List.Forall₂ (k.emitter.Checks pos) entries ts) : PlacesChecks k pos entries ts

/-- A simple statement. -/
inductive PlacesSimple (k : Splicer) (c : LowerContext) (pos : Pos) :
    Simple → Simple → List PlanEntry → Simple → Prop
  /-- A type alias becomes the binding of its name to the type. -/
  | typeAlias {p id hint value bare number t entry code}
      (hhint : c.scope.canonical hint = some "TypeAlias") (hdenote : c.hints.denote value = .ok t)
      (hentry : k.plan.Holds number
        (.type ⟨id, t, c.isRecursive pos, c.depth = 0, c.location pos⟩) [entry])
      (hcode : k.emitter.render entry.expr = .ok code) :
      PlacesSimple k c pos (.annotated (.name p id) hint (some value) bare none)
        (.annotated (.name p id) hint (some value) bare (some number)) [entry]
        (.assign [.name .synthetic id] code none)
  /-- A request for a model becomes the binding of its target to the model. -/
  | reify {p id q func type number t entry code}
      (hfunc : c.scope.canonical func = some "reify") (hdenote : c.hints.denote type = .ok t)
      (hentry : k.plan.Holds number (.reify ⟨id, t, c.location pos⟩) [entry])
      (hcode : k.emitter.render entry.expr = .ok code) :
      PlacesSimple k c pos (.assign [.name p id] (.call q func [type] [] none) none)
        (.assign [.name p id] (.call q func [type] [] none) (some number)) [entry]
        (.assign [.name .synthetic id]
          (callExpr (runtimeExpr k.emitter.runtime "reify") [code] []) none)
  /-- Any other statement stays, with code in its expressions. -/
  | other {t t' entries u} (hdeclares : t.declares c = false) (hnumber : t.number? = none)
      (h : k.PlacesIn c t t' entries u) : PlacesSimple k c pos t t' entries u

mutual

/-- A statement is lowered to the second one, and the third one holds the code for entries. The
names of the records known before it and behind it are followed. -/
inductive PlacesStmt (k : Splicer) :
    LowerContext → List String → Stmt → Stmt → List PlanEntry → Stmt → List String → Prop
  | simple {c known pos t t' entries u} (h : k.PlacesSimple c pos t t' entries u) :
      PlacesStmt k c known (.simple pos t) (.simple pos t') entries (.simple pos u) known
  /-- A function has its checks behind its documentation, and loses its hints. -/
  | function {c known known' pos head decorators decorators' params params' number typed body body'
      first second checks third statements us} (hnumber : head.decl = none)
      (hdecorators : k.PlacesIn c head.decorators decorators first decorators')
      (hparams : k.PlacesParameters c head.params params second params')
      (htyped : List.Forall₂ (DeclaresParameter c.hints) head.params.signature typed)
      (hentries : k.plan.Holds number (.function ⟨head.name, typed, c.location pos⟩) checks)
      (hchecks : k.PlacesChecks pos checks statements)
      (hbody : PlacesAll k c.inside known body body' third us known') :
      PlacesStmt k c known (.function pos head body)
        (.function pos { head with decorators, params, decl := some number } body')
        (first ++ (second ++ (checks ++ third)))
        (.function pos
          (stripHints
            { head with decorators := decorators', params := params', decl := some number })
          (us.take (docstringLength body) ++ statements ++ us.drop (docstringLength body))) known'
  /-- A record becomes the binding of its name to its type. -/
  | record {c known pos head body number fields entry code}
      (hrecord : isKnownRecord c known head.bases = true)
      (hentry : k.plan.Holds number (.type ⟨head.name,
        .record fields (some head.name) (c.location pos), c.isRecursive pos, c.depth = 0,
        c.location pos⟩) [entry])
      (hcode : k.emitter.render entry.expr = .ok code) :
      PlacesStmt k c known (.classDef pos head body)
        (.classDef pos { head with decl := some number } body) [entry]
        (.simple pos (.assign [.name .synthetic head.name] code none)) (head.name :: known)
  /-- Any other class stays, with code in its header and its body. -/
  | classDef {c known known' pos head bases bases' keywords keywords' decorators decorators' body
      body' first second third fourth us} (hrecord : isKnownRecord c known head.bases = false)
      (hnumber : head.decl = none)
      (hbases : k.PlacesIn c.inside head.bases bases first bases')
      (hkeywords : k.PlacesIn c.inside head.keywords keywords second keywords')
      (hbody : PlacesAll k c.inside known body body' third us known')
      (hdecorators : k.PlacesIn c.inside head.decorators decorators fourth decorators') :
      PlacesStmt k c known (.classDef pos head body)
        (.classDef pos { head with bases, keywords, decorators } body')
        (first ++ (second ++ (third ++ fourth)))
        (.classDef pos
          { head with bases := bases', keywords := keywords', decorators := decorators' } us) known'
  /-- What only type checkers see stays as it is. -/
  | guarded {c known known' pos test body orelse orelse' entries us}
      (hguard : c.scope.isGuard test = true) (htest : test.Unnumbered)
      (hbody : Stmt.AllUnnumbered body)
      (horelse : PlacesAll k c known orelse orelse' entries us known') :
      PlacesStmt k c known (.branch pos test body orelse) (.branch pos test body orelse') entries
        (.branch pos test body us) known'
  | branch {c known known' known'' pos test test' body body' orelse orelse' first second third v us
      ws} (hguard : c.scope.isGuard test = false) (htest : k.PlacesIn c test test' first v)
      (hbody : PlacesAll k c known body body' second us known')
      (horelse : PlacesAll k c known' orelse orelse' third ws known'') :
      PlacesStmt k c known (.branch pos test body orelse) (.branch pos test' body' orelse')
        (first ++ (second ++ third)) (.branch pos v us ws) known''
  | compound {c known known' pos clauses clauses' entries us}
      (h : PlacesClauses k c known clauses clauses' entries us known') :
      PlacesStmt k c known (.compound pos clauses) (.compound pos clauses') entries
        (.compound pos us) known'

/-- Statements one after the other. -/
inductive PlacesAll (k : Splicer) : LowerContext → List String → List Stmt → List Stmt →
    List PlanEntry → List Stmt → List String → Prop
  | nil {c known} : PlacesAll k c known [] [] [] [] known
  | cons {c known known' known'' t t' u ts ts' us first more}
      (hfirst : PlacesStmt k c known t t' first u known')
      (hrest : PlacesAll k c known' ts ts' more us known'') :
      PlacesAll k c known (t :: ts) (t' :: ts') (first ++ more) (u :: us) known''

/-- Clauses one after the other. -/
inductive PlacesClauses (k : Splicer) : LowerContext → List String → List (Clause Stmt) →
    List (Clause Stmt) → List PlanEntry → List (Clause Stmt) → List String → Prop
  | nil {c known} : PlacesClauses k c known [] [] [] [] known
  | cons {c known known' known'' head head' v body body' us rest rest' ws first second third}
      (hhead : k.PlacesIn c head head' first v)
      (hbody : PlacesAll k c known body body' second us known')
      (hrest : PlacesClauses k c known' rest rest' third ws known'') :
      PlacesClauses k c known (⟨head, body⟩ :: rest) (⟨head', body'⟩ :: rest')
        (first ++ (second ++ third)) (⟨v, us⟩ :: ws) known''

end

end Splicer

end Typeward
