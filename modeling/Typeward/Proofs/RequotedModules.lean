import Typeward.Proofs.CollectedNames
import Typeward.Proofs.Placements
import Typeward.Proofs.RequotedHints

/-!
# Modules with types written in strings

One module is another one with types written in strings: hints of parameters and of fields, values of
aliases, and the arguments of casts and of inspections, or types inside of these. Nothing else that
lowering reads differs but the places. What is collected of the two modules is alike, so that hints
are read in the same way.
-/

namespace Typeward

open Source Slots HintContext

/-- The sources of two expressions can both be shown, or none can. -/
def ShownAlike (e e' : Expr) : Prop :=
  (∃ label, HintContext.text e = .ok label) ↔ ∃ label, HintContext.text e' = .ok label

/-- An expression is a cast, with the arguments that a cast takes. -/
def Expr.IsCast (s : Scope) (e : Expr) : Prop :=
  ∃ pos func type value decl, e = .call pos func [type, value] [] decl ∧
    s.canonical func = some "cast"

/-- The first expression is the second one with types of casts written in strings. The values that
are cast can be shown alike: their sources have quotes where the types in them have. -/
inductive Expr.CodeRequoted (s : Scope) : Expr → Expr → Prop
  | cast {pos pos' func func' type type' value value' decl decl'}
      (hcast : s.canonical func = some "cast") (hfunc : func.SameCode func')
      (htype : type.Requoted s type') (hshown : ShownAlike value value')
      (hvalue : CodeRequoted s value value') :
      CodeRequoted s (.call pos func [type, value] [] decl) (.call pos' func' [type', value'] [] decl')
  | parts {e e'} (hcast : ¬ e.IsCast s) (hshell : e.shell = e'.shell)
      (hparts : List.Forall₂ (CodeRequoted s) e.children e'.children) : CodeRequoted s e e'

/-- Parameters are the same, but for types in their hints and initial values. -/
structure Parameter.Requoted (s : Scope) (p p' : Parameter Expr) : Prop where
  name : p.name = p'.name
  hint : Option.Rel (Expr.Requoted s) p.hint p'.hint
  initial : Option.Rel (Expr.CodeRequoted s) p.initial p'.initial

/-- Parameter lists are the same, but for types in them. -/
structure Parameters.Requoted (s : Scope) (ps ps' : Parameters Expr) : Prop where
  positionalOnly : List.Forall₂ (Parameter.Requoted s) ps.positionalOnly ps'.positionalOnly
  positional : List.Forall₂ (Parameter.Requoted s) ps.positional ps'.positional
  variadic : Option.Rel (Parameter.Requoted s) ps.variadic ps'.variadic
  keywordOnly : List.Forall₂ (Parameter.Requoted s) ps.keywordOnly ps'.keywordOnly
  keywordVariadic : Option.Rel (Parameter.Requoted s) ps.keywordVariadic ps'.keywordVariadic

/-- Keywords are the same, but for types in their values. -/
structure Keyword.Requoted (s : Scope) (k k' : Keyword Expr) : Prop where
  name : k.name = k'.name
  value : k.value.CodeRequoted s k'.value

/-- Whether a simple statement is an assignment, annotated or not. -/
def Simple.isAssignment : Simple → Bool
  | .assign .. | .annotated .. => true
  | _ => false

/-- Whether a simple statement is an import. -/
def Simple.isImport : Simple → Bool
  | .importModules .. | .importNames .. => true
  | _ => false

/-- A simple statement without its expressions. -/
def Simple.shell (t : Simple) : Simple := refill t ((slots t).map fun _ => .name .nowhere "")

/-- The first statement is the second one with types written in strings. Aliases are marked as
recursive alike. -/
inductive Simple.Requoted (c c' : LowerContext) (pos pos' : Pos) : Simple → Simple → Prop
  | typeAlias {p p' id hint hint' value value' bare bare' decl decl'}
      (hhint : c.scope.canonical hint = some "TypeAlias") (hsame : hint.SameCode hint')
      (hmarked : c.isRecursive pos = c'.isRecursive pos') (hvalue : value.Requoted c.scope value') :
      Simple.Requoted c c' pos pos' (.annotated (.name p id) hint (some value) bare decl)
        (.annotated (.name p' id) hint' (some value') bare' decl')
  | reify {p p' id q q' func func' type type' number number' decl decl'}
      (hfunc : c.scope.canonical func = some "reify") (hsame : func.SameCode func')
      (htype : type.Requoted c.scope type') :
      Simple.Requoted c c' pos pos' (.assign [.name p id] (.call q func [type] [] number) decl)
        (.assign [.name p' id] (.call q' func' [type'] [] number') decl')
  | assign {targets targets' value value' decl decl'}
      (hreify : ∀ p id q func type number, targets = [.name p id] →
        value = .call q func [type] [] number → c.scope.canonical func ≠ some "reify")
      (htargets : List.Forall₂ (Expr.CodeRequoted c.scope) targets targets')
      (hvalue : value.CodeRequoted c.scope value') :
      Simple.Requoted c c' pos pos' (.assign targets value decl) (.assign targets' value' decl')
  | annotated {target target' hint hint' value value' bare bare' decl decl'}
      (halias : ∀ p id v, target = .name p id → value = some v →
        c.scope.canonical hint ≠ some "TypeAlias")
      (htarget : target.CodeRequoted c.scope target') (hhint : hint.CodeRequoted c.scope hint')
      (hvalue : Option.Rel (Expr.CodeRequoted c.scope) value value') :
      Simple.Requoted c c' pos pos' (.annotated target hint value bare decl)
        (.annotated target' hint' value' bare' decl')
  | other {t t'} (hother : t.isAssignment = false) (hshell : t.shell = t'.shell)
      (hslots : List.Forall₂ (Expr.CodeRequoted c.scope) (slots t) (slots t')) :
      Simple.Requoted c c' pos pos' t t'

/-- Whether a statement in the suite of a record declares a field. -/
def Stmt.isField : Stmt → Bool
  | .simple _ (.annotated (.name ..) ..) => true
  | _ => false

mutual

/-- The first statement is the second one with types written in strings. The names of the records
known before it and behind it are followed. -/
inductive Stmt.Requoted :
    LowerContext → LowerContext → List String → Stmt → Stmt → List String → Prop
  | simple {c c' known pos pos' t t'} (h : t.Requoted c c' pos pos' t') :
      Stmt.Requoted c c' known (.simple pos t) (.simple pos' t') known
  | function {c c' known known' pos pos' head head' body body'} (hname : head.name = head'.name)
      (hdecorators : List.Forall₂ (Expr.CodeRequoted c.scope) head.decorators head'.decorators)
      (hparams : head.params.Requoted c.scope head'.params)
      (hbody : Stmt.AllRequoted c.inside c'.inside known body body' known') :
      Stmt.Requoted c c' known (.function pos head body) (.function pos' head' body') known'
  | record {c c' known pos pos' head head' body body'}
      (hrecord : isKnownRecord c known head.bases = true)
      (hmarked : c.isRecursive pos = c'.isRecursive pos') (hname : head.name = head'.name)
      (hbases : List.Forall₂ (Expr.CodeRequoted c.scope) head.bases head'.bases)
      (hkeywords : List.Forall₂ (Keyword.Requoted c.scope) head.keywords head'.keywords)
      (hbody : Stmt.MembersRequoted c c' body body') :
      Stmt.Requoted c c' known (.classDef pos head body) (.classDef pos' head' body')
        (head.name :: known)
  | classDef {c c' known known' pos pos' head head' body body'}
      (hrecord : isKnownRecord c known head.bases = false) (hname : head.name = head'.name)
      (hbases : List.Forall₂ (Expr.CodeRequoted c.scope) head.bases head'.bases)
      (hkeywords : List.Forall₂ (Keyword.Requoted c.scope) head.keywords head'.keywords)
      (hbody : Stmt.AllRequoted c.inside c'.inside known body body' known')
      (hdecorators : List.Forall₂ (Expr.CodeRequoted c.scope) head.decorators head'.decorators) :
      Stmt.Requoted c c' known (.classDef pos head body) (.classDef pos' head' body') known'
  | guarded {c c' known known' inner inner' pos pos' test test' body body' orelse orelse'}
      (hguard : c.scope.isGuard test = true) (htest : test.CodeRequoted c.scope test')
      (hbody : Stmt.AllRequoted c c' inner body body' inner')
      (horelse : Stmt.AllRequoted c c' known orelse orelse' known') :
      Stmt.Requoted c c' known (.branch pos test body orelse) (.branch pos' test' body' orelse')
        known'
  | branch {c c' known known' known'' pos pos' test test' body body' orelse orelse'}
      (hguard : c.scope.isGuard test = false) (htest : test.CodeRequoted c.scope test')
      (hbody : Stmt.AllRequoted c c' known body body' known')
      (horelse : Stmt.AllRequoted c c' known' orelse orelse' known'') :
      Stmt.Requoted c c' known (.branch pos test body orelse) (.branch pos' test' body' orelse')
        known''
  | compound {c c' known known' pos pos' clauses clauses'}
      (h : Stmt.ClausesRequoted c c' known clauses clauses' known') :
      Stmt.Requoted c c' known (.compound pos clauses) (.compound pos' clauses') known'

/-- The statements of the first suite are those of the second one with types written in strings. -/
inductive Stmt.AllRequoted :
    LowerContext → LowerContext → List String → List Stmt → List Stmt → List String → Prop
  | nil {c c' known} : Stmt.AllRequoted c c' known [] [] known
  | cons {c c' known known' known'' t t' ts ts'} (hfirst : Stmt.Requoted c c' known t t' known')
      (hrest : Stmt.AllRequoted c c' known' ts ts' known'') :
      Stmt.AllRequoted c c' known (t :: ts) (t' :: ts') known''

/-- The suite of the first record is that of the second one with types written in strings. -/
inductive Stmt.MembersRequoted : LowerContext → LowerContext → List Stmt → List Stmt → Prop
  | nil {c c'} : Stmt.MembersRequoted c c' [] []
  | field {c c' pos pos' p p' id hint hint' value value' bare bare' decl decl' ts ts'}
      (hhint : hint.FieldRequoted c.scope hint') (hrest : Stmt.MembersRequoted c c' ts ts') :
      Stmt.MembersRequoted c c' (.simple pos (.annotated (.name p id) hint value bare decl) :: ts)
        (.simple pos' (.annotated (.name p' id) hint' value' bare' decl') :: ts')
  | other {c c' known known' t t' ts ts'} (hother : t.isField = false)
      (hfirst : Stmt.Requoted c c' known t t' known') (hrest : Stmt.MembersRequoted c c' ts ts') :
      Stmt.MembersRequoted c c' (t :: ts) (t' :: ts')

/-- The clauses of the first statement are those of the second one with types written in strings.
-/
inductive Stmt.ClausesRequoted : LowerContext → LowerContext → List String → List (Clause Stmt) →
    List (Clause Stmt) → List String → Prop
  | nil {c c' known} : Stmt.ClausesRequoted c c' known [] [] known
  | cons {c c' known known' known'' head head' body body' rest rest'}
      (hhead : List.Forall₂ (Expr.CodeRequoted c.scope) (slots head) (slots head'))
      (hbody : Stmt.AllRequoted c c' known body body' known')
      (hrest : Stmt.ClausesRequoted c c' known' rest rest' known'') :
      Stmt.ClausesRequoted c c' known (⟨head, body⟩ :: rest) (⟨head', body'⟩ :: rest') known''

end

namespace Expr

/-- Only a name has the shell of a name. -/
theorem eq_name_of_shell {e : Expr} {pos : Pos} {id : String}
    (h : e.shell = (Expr.name pos id).shell) : ∃ q, e = .name q id := by
  cases e
  all_goals cases h
  exact ⟨_, rfl⟩

/-- Only a literal has the shell of a literal. -/
theorem eq_constant_of_shell {e : Expr} {pos : Pos} {value : Constant} {marked : Bool}
    (h : e.shell = (Expr.constant pos value marked).shell) : ∃ q, e = .constant q value marked := by
  cases e
  all_goals cases h
  exact ⟨_, rfl⟩

/-- Only an attribute has the shell of an attribute. -/
theorem eq_attribute_of_shell {e base : Expr} {pos : Pos} {attr : String}
    (h : e.shell = (Expr.attribute pos base attr).shell) : ∃ q base', e = .attribute q base' attr := by
  cases e
  all_goals injection h
  rename_i q base' attr' _ _ hattr
  exact ⟨q, base', congrArg _ hattr⟩

/-- Refilling a list keeps its length. -/
theorem length_refill {α : Type} [Slots α] (as : List α) (es : List Expr) :
    (refill as es).length = as.length := by
  induction as generalizing es with
  | nil => rfl
  | cons a rest ih => exact congrArg Nat.succ (ih _)

/-- Only a call has the shell of a call, with as many arguments. -/
theorem eq_call_of_shell {e func : Expr} {pos : Pos} {args : List Expr}
    {keywords : List (Keyword Expr)} {decl : Option Nat}
    (h : e.shell = (Expr.call pos func args keywords decl).shell) :
    ∃ q func' args' keywords', e = .call q func' args' keywords' decl ∧
      args'.length = args.length ∧ keywords'.length = keywords.length := by
  cases e
  all_goals injection h
  rename_i q func' args' keywords' decl' _ _ hargs hkeywords hdecl
  subst hdecl
  have hargs := congrArg List.length hargs
  have hkeywords := congrArg List.length hkeywords
  rw [length_refill, length_refill] at hargs hkeywords
  exact ⟨q, func', args', keywords', rfl, hargs, hkeywords⟩

/-- What an expression calls, if it is a call. -/
def callee? : Expr → Option Expr
  | .call _ func .. => some func
  | _ => none

/-- Expressions of one shell are calls alike. -/
theorem isSome_callee?_of_shell {e e' : Expr} (h : e.shell = e'.shell) :
    e.callee?.isSome = e'.callee?.isSome := by
  have hshell (e : Expr) : e.shell.callee?.isSome = e.callee?.isSome := by
    cases e <;> rfl
  rw [← hshell e, h, hshell e']

variable {s : Scope} {e e' : Expr}

namespace CodeRequoted

/-- A name stays a name. -/
theorem of_name {pos : Pos} {id : String} (h : CodeRequoted s (.name pos id) e') :
    ∃ q, e' = .name q id := by
  cases h with
  | parts _ hshell => exact eq_name_of_shell hshell.symm

/-- A literal stays that literal. -/
theorem of_constant {pos : Pos} {value : Constant} {marked : Bool}
    (h : CodeRequoted s (.constant pos value marked) e') : ∃ q, e' = .constant q value marked := by
  cases h with
  | parts _ hshell => exact eq_constant_of_shell hshell.symm

/-- What stays a literal was that literal. -/
theorem exists_constant {pos : Pos} {value : Constant} {marked : Bool}
    (h : CodeRequoted s e (.constant pos value marked)) : ∃ q, e = .constant q value marked := by
  cases h with
  | parts _ hshell => exact eq_constant_of_shell hshell

/-- An attribute stays one. -/
theorem of_attribute {pos : Pos} {base : Expr} {attr : String}
    (h : CodeRequoted s (.attribute pos base attr) e') :
    ∃ q base', e' = .attribute q base' attr ∧ base.CodeRequoted s base' := by
  cases h with
  | parts _ hshell hparts =>
    obtain ⟨q, base', rfl⟩ := eq_attribute_of_shell hshell.symm
    cases hparts with
    | cons hbase => exact ⟨q, base', rfl, hbase⟩

/-- What refers to something refers to the same with types written in strings or without. -/
theorem designator?_eq (h : e.CodeRequoted s e') :
    e.dotted? = e'.dotted? ∧ e.designator? = e'.designator? := by
  refine Expr.designator?_eq_of_rel of_name of_attribute (fun h hname hattribute => ?_) h
  cases h with
  | cast => exact ⟨rfl, rfl⟩
  | parts _ hshell =>
    refine designator?_eq_none ?_ ?_
    · rintro q id rfl
      obtain ⟨p, rfl⟩ := eq_name_of_shell hshell
      exact hname p id rfl
    · rintro q base attr rfl
      obtain ⟨p, base', rfl⟩ := eq_attribute_of_shell hshell
      exact hattribute p base' attr rfl

/-- What stays a name was one. -/
theorem exists_name {pos : Pos} {id : String} (h : CodeRequoted s e (.name pos id)) :
    ∃ q, e = .name q id := by
  cases h with
  | parts _ hshell => exact eq_name_of_shell hshell

/-- What stays a call was one of the same thing, with as many arguments. -/
theorem exists_call {pos : Pos} {func : Expr} {args : List Expr} {keywords : List (Keyword Expr)}
    {decl : Option Nat} (h : CodeRequoted s e (.call pos func args keywords decl)) :
    ∃ q func' args' keywords' decl', e = .call q func' args' keywords' decl' ∧
      func'.designator? = func.designator? ∧ args'.length = args.length ∧
      keywords'.length = keywords.length := by
  cases h with
  | cast hcast hfunc => exact ⟨_, _, _, _, _, rfl, hfunc.designator?_eq.2, rfl, rfl⟩
  | parts _ hshell hparts =>
    obtain ⟨q, func', args', keywords', rfl, hargs, hkeywords⟩ := eq_call_of_shell hshell
    cases hparts with
    | cons hfunc =>
      exact ⟨q, func', args', keywords', decl, rfl, hfunc.designator?_eq.2, hargs, hkeywords⟩

/-- A call stays a call of the same thing, and what stays a call was one. -/
theorem rel_callee? (h : e.CodeRequoted s e') :
    Option.Rel (fun func func' => func.designator? = func'.designator?) e.callee? e'.callee? := by
  cases h with
  | cast hcast hfunc => exact .some hfunc.designator?_eq.2
  | parts _ hshell hparts =>
    have hsome := isSome_callee?_of_shell hshell
    cases e with
    | call =>
      cases e' with
      | call =>
        cases hparts with
        | cons hfunc => exact .some hfunc.designator?_eq.2
      | _ => cases hsome
    | _ =>
      have hnone : ¬ e'.callee?.isSome = true := hsome ▸ Bool.false_ne_true
      rw [Option.not_isSome_iff_eq_none.1 hnone]
      exact .none

end CodeRequoted

end Expr

/-- What holds of casts whose values it holds of, and of expressions whose parts it holds of, holds of
code of which one is the other with types written in strings. -/
theorem Expr.CodeRequoted.induct {s : Scope} {Q : Expr → Expr → Prop}
    (cast : ∀ {pos pos' func func' type type' value value' decl decl'},
      s.canonical func = some "cast" → func.SameCode func' → type.Requoted s type' →
      ShownAlike value value' → Q value value' →
      Q (.call pos func [type, value] [] decl) (.call pos' func' [type', value'] [] decl'))
    (parts : ∀ {e e'}, e.CodeRequoted s e' → ¬ e.IsCast s → e.shell = e'.shell →
      List.Forall₂ Q e.children e'.children → Q e e')
    {e e' : Expr} (h : e.CodeRequoted s e') : Q e e' :=
  @CodeRequoted.rec s (fun e e' _ => Q e e') (fun es es' _ => List.Forall₂ Q es es')
    (fun hcast hfunc htype hshown _ hvalue => cast hcast hfunc htype hshown hvalue)
    (fun hcast hshell hparts h => parts (.parts hcast hshell hparts) hcast hshell h) .nil
    (fun _ _ hfirst hrest => .cons hfirst hrest) e e' h

namespace Simple

variable {t t' : Simple}

/-- Statements of one shell are assignments, or are imports, alike. -/
theorem isAssignment_eq_of_shell (h : t.shell = t'.shell) :
    t.isAssignment = t'.isAssignment ∧ t.isImport = t'.isImport := by
  have hshell (t : Simple) :
      t.shell.isAssignment = t.isAssignment ∧ t.shell.isImport = t.isImport := by
    cases t <;> exact ⟨rfl, rfl⟩
  rw [← (hshell t).1, ← (hshell t).2, h]
  exact hshell t'

/-- An import is its shell. -/
theorem eq_of_shell (himport : t.isImport = true) (h : t.shell = t'.shell) : t = t' := by
  have hshell {t : Simple} (himport : t.isImport = true) : t.shell = t := by
    cases t with
    | importModules | importNames => rfl
    | _ => cases himport
  rw [← hshell himport, h, hshell ((isAssignment_eq_of_shell h).2.symm.trans himport)]

end Simple

namespace Scope

variable {s s' u : Scope}

/-- Values that refer to the same things make type parameters alike. -/
theorem Alike.makesParameter_eq (hs : s.Alike s') {value value' : Expr}
    (h : value.CodeRequoted u value') : s.makesParameter value = s'.makesParameter value' := by
  have hcallee (t : Scope) (e : Expr) : t.makesParameter e =
      e.callee?.any fun func => (t.canonical func).any parameterFactories.contains := by
    cases e <;> rfl
  have hrel := h.rel_callee?
  rw [hcallee, hcallee]
  generalize value.callee? = callee at hrel ⊢
  generalize value'.callee? = callee' at hrel ⊢
  cases hrel with
  | none => rfl
  | some hfunc => rw [Option.any_some, Option.any_some, hs.canonical_eq hfunc]

/-- Bases that refer to the same things make records alike. -/
theorem Alike.isRecord_eq (hs : s.Alike s') {bases bases' : List Expr}
    (h : List.Forall₂ (Expr.CodeRequoted u) bases bases') :
    s.isRecord bases = s'.isRecord bases' := by
  unfold isRecord
  induction h with
  | nil => rfl
  | cons hfirst _ ih =>
    have hnames := hfirst.designator?_eq
    rw [List.any_cons, List.any_cons, ih, hs.canonical_eq hnames.2, hnames.1, hs.recordNames]

/-- An assignment to anything but one name reserves the names in it. -/
theorem collectSimple_assign {targets : List Expr} (h : ∀ p id, targets ≠ [.name p id])
    (file : String) (d : ScopeContext) (pos : Pos) (value : Expr) (decl : Option Nat) :
    s.collectSimple file d pos (.assign targets value decl) =
      s.reserveIn (Simple.assign targets value decl) := by
  match targets with
  | [] => rfl
  | target :: _ :: _ => cases target <;> rfl
  | [target] =>
    cases target with
    | name p id => exact absurd rfl (h p id)
    | _ => rfl

/-- The annotation of anything but a name reserves the names in it. -/
theorem collectSimple_annotated {target : Expr} (h : ∀ p id, target ≠ .name p id) (file : String)
    (d : ScopeContext) (pos : Pos) (hint : Expr) (value : Option Expr) (bare : Bool)
    (decl : Option Nat) :
    s.collectSimple file d pos (.annotated target hint value bare decl) =
      s.reserveIn (Simple.annotated target hint value bare decl) := by
  cases target with
  | name p id => exact absurd rfl (h p id)
  | _ => rfl

/-- What neither assigns nor imports anything reserves the names in it. -/
theorem collectSimple_other {t : Simple} (hassign : t.isAssignment = false)
    (himport : t.isImport = false) (file : String) (d : ScopeContext) (pos : Pos) :
    s.collectSimple file d pos t = s.reserveIn t := by
  cases t with
  | assign | annotated => cases hassign
  | importModules | importNames => cases himport
  | _ => rfl

/-- What is collected of annotations of one name is alike, whatever the annotations are. -/
theorem Alike.collectAnnotated (hs : s.Alike s') (file : String) (d : ScopeContext) (pos pos' : Pos)
    {p p' : Pos} {id : String} {hint hint' : Expr} {value value' : Option Expr}
    {bare bare' : Bool} {decl decl' : Option Nat} :
    (s.collectSimple file d pos (.annotated (.name p id) hint value bare decl)).Alike
      (s'.collectSimple file d pos' (.annotated (.name p' id) hint' value' bare' decl')) := by
  have hnoted : (if d.depth = 0 && d.guarded then s.addTypeOnly id else s).Alike
      (if d.depth = 0 && d.guarded then s'.addTypeOnly id else s') := by
    split
    · exact hs.addTypeOnly id
    · exact hs
  exact hnoted.reserveIn _ _

/-- What is collected of simple statements is alike. -/
theorem Alike.collectSimple (hs : s.Alike s') {c c' : LowerContext} {pos pos' : Pos}
    {t t' : Simple} (h : t.Requoted c c' pos pos' t') (file : String) (d : ScopeContext) :
    (s.collectSimple file d pos t).Alike (s'.collectSimple file d pos' t') := by
  have hassigned {value value' : Expr} (hvalue : s.makesParameter value = s'.makesParameter value')
      (id : String) : (if d.depth = 0 then s.assignName d id value else s).Alike
        (if d.depth = 0 then s'.assignName d id value' else s') := by
    split
    · exact hs.assignName d id hvalue
    · exact hs
  cases h with
  | typeAlias => exact hs.collectAnnotated file d pos pos'
  | reify hfunc hsame =>
    refine (hassigned ?_ _).reserveIn _ _
    rw [makesParameter, makesParameter, hs.canonical_of_sameCode hsame]
  | @assign targets targets' value value' decl decl' hreify htargets hvalue =>
    by_cases hname : ∃ p id, targets = [.name p id]
    · obtain ⟨p, id, rfl⟩ := hname
      cases htargets with
      | cons hfirst hrest =>
        cases hrest
        obtain ⟨q, rfl⟩ := hfirst.of_name
        exact (hassigned (hs.makesParameter_eq hvalue) id).reserveIn _ _
    · rw [collectSimple_assign fun p id heq => hname ⟨p, id, heq⟩, collectSimple_assign]
      · exact hs.reserveIn _ _
      · rintro q id rfl
        cases htargets with
        | cons hfirst hrest =>
          cases hrest
          obtain ⟨p, rfl⟩ := hfirst.exists_name
          exact hname ⟨p, id, rfl⟩
  | @annotated target target' hint hint' value value' bare bare' decl decl' halias htarget =>
    by_cases hname : ∃ p id, target = .name p id
    · obtain ⟨p, id, rfl⟩ := hname
      obtain ⟨q, rfl⟩ := htarget.of_name
      exact hs.collectAnnotated file d pos pos'
    · rw [collectSimple_annotated fun p id heq => hname ⟨p, id, heq⟩, collectSimple_annotated]
      · exact hs.reserveIn _ _
      · rintro q id rfl
        obtain ⟨p, rfl⟩ := htarget.exists_name
        exact hname ⟨p, id, rfl⟩
  | other hother hshell =>
    cases himport : t.isImport with
    | true =>
      obtain rfl : t = t' := Simple.eq_of_shell himport hshell
      cases t with
      | importModules names =>
        exact Alike.foldl (fun _ _ hs i => hs.importModule d _ _ i) names hs
      | importNames source names level =>
        exact Alike.foldl (fun _ _ hs i => hs.importName d _ _ _ i) names hs
      | _ => cases himport
    | false =>
      obtain ⟨hassignment, himports⟩ := Simple.isAssignment_eq_of_shell hshell
      rw [collectSimple_other hother himport,
        collectSimple_other (hassignment.symm.trans hother) (himports.symm.trans himport)]
      exact hs.reserveIn _ _

/-- The suites of functions of one name are entered in scopes that are alike. -/
theorem Alike.enterFunction (hs : s.Alike s') (d : ScopeContext) {head head' : FunctionHead}
    (hname : head.name = head'.name) :
    (s.enterFunction d head).Alike (s'.enterFunction d head') := by
  have hreserved := hs.reserve [head.name] [head'.name]
  have hentered : (if d.depth = 0 then (s.reserve [head.name]).shadow head.name
        else s.reserve [head.name]).Alike
      (if d.depth = 0 then (s'.reserve [head'.name]).shadow head'.name
        else s'.reserve [head'.name]) := by
    split
    · rw [hname]
      exact (hs.reserve [head'.name] [head'.name]).shadow head'.name
    · exact hreserved
  exact (((hentered.reserve _ _).reserveIn _ _).reserveIn _ _).reserveIn _ _

/-- So are the suites of classes of one name, if both are records or none is. -/
theorem Alike.enterClass (hs : s.Alike s') (file : String) (d : ScopeContext) (pos pos' : Pos)
    {head head' : ClassHead} (hname : head.name = head'.name)
    (hbases : List.Forall₂ (Expr.CodeRequoted u) head.bases head'.bases) :
    (s.enterClass file d pos head).Alike (s'.enterClass file d pos' head') := by
  have hdefined := hs.defineClass d (locationOf file pos) (locationOf file pos') hname
    fun t t' ht => ht.isRecord_eq hbases
  exact (hdefined.reserveIn _ _).reserveIn _ _

/-- Clauses are entered in scopes that are alike, whatever their headers bind. -/
theorem Alike.collectHead (hs : s.Alike s') (head head' : ClauseHead) :
    (s.collectHead head).Alike (s'.collectHead head') := by
  have hright {t t' : Scope} (ht : t.Alike t') : t.Alike (t'.collectHead head') := by
    cases head' <;> exact ⟨ht.specialNames, ht.specialModules, ht.generics, ht.recordNames,
      ht.typeOnly, ht.shadowed, ht.bindings⟩
  have hleft {t t' : Scope} (ht : t.Alike t') : (t.collectHead head).Alike t' := by
    cases head <;> exact ⟨ht.specialNames, ht.specialModules, ht.generics, ht.recordNames,
      ht.typeOnly, ht.shadowed, ht.bindings⟩
  exact hleft (hright hs)

/-- The suites of a condition are collected one after the other. -/
theorem collectAll_enterBranch (file : String) (d : ScopeContext) (pos : Pos) (test : Expr)
    (body orelse : List Stmt) :
    Scope.collectAll file d (Scope.collectAll file (s.enterBranch d test) (s.reserveIn test) body)
      orelse = Scope.collectStmt file d s (.branch pos test body orelse) :=
  rfl

/-- Branches stand where only type checkers look alike. -/
theorem Alike.enterBranch_eq (hs : s.Alike s') (d : ScopeContext) {test test' : Expr}
    (h : test.CodeRequoted u test') : s.enterBranch d test = s'.enterBranch d test' := by
  rw [enterBranch, enterBranch, isGuard, isGuard, hs.canonical_eq h.designator?_eq.2]

mutual

/-- What is collected of statements is alike. -/
theorem Alike.collectStmt {s s' : Scope} (hs : s.Alike s') (file : String) (d : ScopeContext)
    {c c' : LowerContext} {known known' : List String} {t t' : Stmt} :
    t.Requoted c c' known t' known' →
      (Scope.collectStmt file d s t).Alike (Scope.collectStmt file d s' t')
  | .simple h => hs.collectSimple h file d
  | .function hname _ _ hbody => by
    have hbody := (hs.enterFunction d hname).collectAll file d.inside hbody
    exact hbody.reserveIn _ _
  | @Stmt.Requoted.record _ _ _ pos pos' _ _ _ _ _ _ hname hbases _ hbody => by
    have hbody := (hs.enterClass file d pos pos' hname hbases).collectMembers file d.inside hbody
    exact hbody.reserveIn _ _
  | @Stmt.Requoted.classDef _ _ _ _ pos pos' _ _ _ _ _ hname hbases _ hbody _ => by
    have hbody := (hs.enterClass file d pos pos' hname hbases).collectAll file d.inside hbody
    exact hbody.reserveIn _ _
  | @Stmt.Requoted.guarded _ _ _ _ _ _ _ _ test test' _ _ _ _ _ htest hbody horelse => by
    have hbody := (hs.reserveIn test test').collectAll file (s'.enterBranch d test') hbody
    rw [← collectAll_enterBranch, ← collectAll_enterBranch, hs.enterBranch_eq d htest]
    exact hbody.collectAll file d horelse
  | @Stmt.Requoted.branch _ _ _ _ _ _ _ test test' _ _ _ _ _ htest hbody horelse => by
    have hbody := (hs.reserveIn test test').collectAll file (s'.enterBranch d test') hbody
    rw [← collectAll_enterBranch, ← collectAll_enterBranch, hs.enterBranch_eq d htest]
    exact hbody.collectAll file d horelse
  | .compound h => hs.collectClauses file d h

/-- What is collected of suites is alike. -/
theorem Alike.collectAll {s s' : Scope} (hs : s.Alike s') (file : String) (d : ScopeContext)
    {c c' : LowerContext} {known known' : List String} {ts ts' : List Stmt} :
    Stmt.AllRequoted c c' known ts ts' known' →
      (Scope.collectAll file d s ts).Alike (Scope.collectAll file d s' ts')
  | .nil => hs
  | .cons hfirst hrest => (hs.collectStmt file d hfirst).collectAll file d hrest

/-- What is collected of the suites of records is alike. -/
theorem Alike.collectMembers {s s' : Scope} (hs : s.Alike s') (file : String) (d : ScopeContext)
    {c c' : LowerContext} {ts ts' : List Stmt} : Stmt.MembersRequoted c c' ts ts' →
      (Scope.collectAll file d s ts).Alike (Scope.collectAll file d s' ts')
  | .nil => hs
  | @Stmt.MembersRequoted.field _ _ pos pos' _ _ _ _ _ _ _ _ _ _ _ _ _ _ hrest =>
    (hs.collectAnnotated file d pos pos').collectMembers file d hrest
  | .other _ hfirst hrest => (hs.collectStmt file d hfirst).collectMembers file d hrest

/-- What is collected of clauses is alike. -/
theorem Alike.collectClauses {s s' : Scope} (hs : s.Alike s') (file : String) (d : ScopeContext)
    {c c' : LowerContext} {known known' : List String} {clauses clauses' : List (Clause Stmt)} :
    Stmt.ClausesRequoted c c' known clauses clauses' known' →
      (Scope.collectClauses file d s clauses).Alike (Scope.collectClauses file d s' clauses')
  | .nil => hs
  | .cons _ hbody hrest =>
    ((hs.collectHead _ _).collectAll file d hbody).collectClauses file d hrest

end

end Scope

end Typeward
