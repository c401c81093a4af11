import Typeward.Proofs.ExactSplicing
import Typeward.Proofs.SplicedNames

/-!
# Settled trees

A tree is settled if lowering finds nothing to check in it: there are no casts, definitions or
inspected types in the places that it visits, and functions have no hints. A settled tree compiles,
its plan has no entries, and it is its own compiled form.
-/

namespace Typeward

open Slots Splicer Typeward.Action

/-- Nothing in an expression is a cast or carries a number. -/
def Expr.Settled (c : LowerContext) (e : Expr) : Prop :=
  e.Everywhere fun e => callsSpecial c "cast" e = false ∧ e.number? = none

namespace Stmt

mutual

/-- Lowering finds nothing to check in a statement. -/
inductive Settled : LowerContext → Stmt → Prop
  | simple {c pos t} (hdeclares : t.declares c = false) (hnumber : t.number? = none)
      (hheld : ∀ e ∈ slots t, e.Settled c) : Settled c (.simple pos t)
  | function {c pos head body} (hnumber : head.decl = none) (hhints : stripHints head = head)
      (hdecorators : ∀ e ∈ slots head.decorators, e.Settled c)
      (hparams : ∀ e ∈ slots head.params, e.Settled c) (hbody : AllSettled c.inside body) :
      Settled c (.function pos head body)
  | classDef {c pos head body} (hrecord : isKnownRecord c [] head.bases = false)
      (hnumber : head.decl = none) (hbases : ∀ e ∈ slots head.bases, e.Settled c.inside)
      (hkeywords : ∀ e ∈ slots head.keywords, e.Settled c.inside)
      (hbody : AllSettled c.inside body)
      (hdecorators : ∀ e ∈ slots head.decorators, e.Settled c.inside) :
      Settled c (.classDef pos head body)
  /-- What only type checkers see is not visited. -/
  | guarded {c pos test body orelse} (hguard : c.scope.isGuard test = true)
      (htest : test.Unnumbered) (hbody : AllUnnumbered body) (horelse : AllSettled c orelse) :
      Settled c (.branch pos test body orelse)
  | branch {c pos test body orelse} (hguard : c.scope.isGuard test = false)
      (htest : test.Settled c) (hbody : AllSettled c body) (horelse : AllSettled c orelse) :
      Settled c (.branch pos test body orelse)
  | compound {c pos clauses} (h : ClausesSettled c clauses) : Settled c (.compound pos clauses)

/-- Lowering finds nothing to check in statements. -/
inductive AllSettled : LowerContext → List Stmt → Prop
  | nil {c} : AllSettled c []
  | cons {c t rest} (hfirst : Settled c t) (hrest : AllSettled c rest) : AllSettled c (t :: rest)

/-- Lowering finds nothing to check in clauses. -/
inductive ClausesSettled : LowerContext → List (Clause Stmt) → Prop
  | nil {c} : ClausesSettled c []
  | cons {c head body rest} (hhead : ∀ e ∈ slots head, e.Settled c) (hbody : AllSettled c body)
      (hrest : ClausesSettled c rest) : ClausesSettled c (⟨head, body⟩ :: rest)

end

/-- Statements are settled if each of them is. -/
theorem allSettled_iff {c : LowerContext} {ts : List Stmt} :
    AllSettled c ts ↔ ∀ t ∈ ts, t.Settled c := by
  constructor
  · intro h
    induction ts with
    | nil => exact fun _ ht => absurd ht List.not_mem_nil
    | cons t rest ih =>
      cases h with
      | cons hfirst hrest => exact List.forall_mem_cons.2 ⟨hfirst, ih hrest⟩
  · intro h
    induction ts with
    | nil => exact .nil
    | cons t rest ih =>
      obtain ⟨hfirst, hrest⟩ := List.forall_mem_cons.1 h
      exact .cons hfirst (ih hrest)

end Stmt

variable {c : LowerContext}

/-- A settled expression carries no numbers. -/
theorem Expr.Settled.unnumbered {e : Expr} (h : e.Settled c) : e.Unnumbered :=
  h.mono fun _ he => he.2

namespace Stmt

mutual

/-- A settled statement carries no numbers. -/
theorem Settled.unnumbered {c : LowerContext} {t : Stmt} :
    Settled c t → ∀ u ∈ t.nodes, u.Unnumbered
  | .simple hdeclares hnumber hheld => by
    intro u hu
    obtain rfl := List.mem_singleton.1 hu
    exact ⟨hnumber, fun e he => (hheld e he).unnumbered⟩
  | .function hnumber hhints hdecorators hparams hbody => by
    refine List.forall_mem_cons.2 ⟨⟨hnumber, fun e he => ?_⟩, hbody.unnumbered⟩
    rcases List.mem_append.1 he with he | he
    · exact (hdecorators e he).unnumbered
    · exact (hparams e he).unnumbered
  | .classDef hrecord hnumber hbases hkeywords hbody hdecorators => by
    refine List.forall_mem_cons.2 ⟨⟨hnumber, fun e he => ?_⟩, hbody.unnumbered⟩
    rcases List.mem_append.1 he with he | he
    · rcases List.mem_append.1 he with he | he
      · exact (hbases e he).unnumbered
      · exact (hkeywords e he).unnumbered
    · exact (hdecorators e he).unnumbered
  | .guarded hguard htest hbody horelse => by
    refine List.forall_mem_cons.2 ⟨⟨rfl, fun e he => ?_⟩, ?_⟩
    · rwa [List.mem_singleton.1 he]
    · exact List.forall_mem_append.2 ⟨hbody, horelse.unnumbered⟩
  | .branch hguard htest hbody horelse => by
    refine List.forall_mem_cons.2 ⟨⟨rfl, fun e he => ?_⟩, ?_⟩
    · rw [List.mem_singleton.1 he]
      exact htest.unnumbered
    · exact List.forall_mem_append.2 ⟨hbody.unnumbered, horelse.unnumbered⟩
  | .compound h => by
    obtain ⟨hheads, hbodies⟩ := h.unnumbered
    refine List.forall_mem_cons.2 ⟨⟨rfl, fun e he => ?_⟩, hbodies⟩
    obtain ⟨clause, hclause, he⟩ := List.mem_flatMap.1 he
    exact hheads clause hclause e he

/-- Settled statements carry no numbers. -/
theorem AllSettled.unnumbered {c : LowerContext} {ts : List Stmt} :
    AllSettled c ts → AllUnnumbered ts
  | .nil => fun _ hu => absurd hu List.not_mem_nil
  | .cons hfirst hrest => List.forall_mem_append.2 ⟨hfirst.unnumbered, hrest.unnumbered⟩

/-- Settled clauses carry no numbers. -/
theorem ClausesSettled.unnumbered {c : LowerContext} {clauses : List (Clause Stmt)} :
    ClausesSettled c clauses →
      (∀ clause ∈ clauses, ∀ e ∈ slots clause.head, e.Unnumbered) ∧
        ∀ u ∈ clauseNodes clauses, u.Unnumbered
  | .nil => ⟨fun _ h => absurd h List.not_mem_nil, fun _ hu => absurd hu List.not_mem_nil⟩
  | .cons hhead hbody hrest => by
    obtain ⟨hheads, hbodies⟩ := hrest.unnumbered
    constructor
    · exact List.forall_mem_cons.2 ⟨fun e he => (hhead e he).unnumbered, hheads⟩
    · exact List.forall_mem_append.2 ⟨hbody.unnumbered, hbodies⟩

end

end Stmt

/-- A declaration of a function without hints. -/
def Declaration.Untyped (d : Declaration) : Prop :=
  ∃ f, d = .function f ∧ ∀ p ∈ f.params, p.type = none

namespace Lower

variable {α β : Type}

/-- From a state without records a lowering succeeds, and adds functions without hints only. -/
def Settles (x : Lower α) : Prop :=
  ∀ ds, ∃ a new, x ⟨ds, []⟩ = .ok (a, ⟨ds ++ new, []⟩) ∧ ∀ d ∈ new, d.Untyped

/-- A lowering that finds nothing adds nothing. -/
theorem settles_pure (a : α) : Settles (pure a) := by
  intro ds
  exact ⟨a, [], by rw [List.append_nil]; rfl, by simp⟩

/-- One lowering after another adds what both add. -/
theorem Settles.bind {x : Lower α} {f : α → Lower β} (hx : Settles x) (hf : ∀ a, Settles (f a)) :
    Settles (x >>= f) := by
  intro ds
  obtain ⟨a, first, hfirst, hall⟩ := hx ds
  obtain ⟨b, second, hsecond, hall'⟩ := hf a (ds ++ first)
  refine ⟨b, first ++ second, ?_, List.forall_mem_append.2 ⟨hall, hall'⟩⟩
  rw [← List.append_assoc]
  exact bind_eq_ok.2 ⟨a, _, hfirst, hsecond⟩

/-- Lowering the members of a list in order adds what is added for each. -/
theorem settles_mapM {f : α → Lower β} {l : List α} (hf : ∀ a ∈ l, Settles (f a)) :
    Settles (l.mapM f) := by
  induction l with
  | nil => exact settles_pure []
  | cons a rest ih =>
    rw [List.mapM_cons]
    refine (hf a List.mem_cons_self).bind fun b => ?_
    exact (ih fun a ha => hf a (List.mem_cons_of_mem _ ha)).bind fun bs => settles_pure _

/-- Lowering a settled expression finds nothing. -/
theorem settles_lowerExpr {e : Expr} (h : e.Settled c) : Settles (lowerExpr c e) := by
  induction h with
  | @node e here parts ih =>
    rw [lowerExpr.eq_def, here.1, if_neg Bool.false_ne_true, Expr.mapChildren_eq]
    exact (settles_mapM ih).bind fun es => settles_pure _

/-- Lowering what a value holds finds nothing if it is settled. -/
theorem settles_lowerIn {α : Type} [Slots α] {a : α} (h : ∀ e ∈ slots a, e.Settled c) :
    Settles (lowerIn c a) :=
  (settles_mapM fun e he => settles_lowerExpr (h e he)).bind fun _ => settles_pure _

/-- A simple statement that declares nothing is lowered like what it holds. -/
theorem lowerSimple_eq {pos : Pos} {t : Simple} (h : t.declares c = false) :
    lowerSimple c pos t = lowerIn c t := by
  unfold lowerSimple
  split
  · rename_i p id hint value bare decl
    have hhint : (c.scope.canonical hint == some "TypeAlias") = false := h
    rw [hhint, if_neg Bool.false_ne_true]
  · rename_i p id value decl
    have hvalue : callsSpecial c "reify" value = false := h
    rw [hvalue, if_neg Bool.false_ne_true]
  · rfl

/-- Parameters without hints are lowered to parameters without types. -/
theorem lowerParameters_eq {params : Parameters Expr}
    (h : ∀ p ∈ params.toList, p.2.hint = none) :
    lowerParameters c params =
      pure (params.toList.map fun p => ⟨p.2.name, none, p.1, c.location p.2.pos⟩) := by
  unfold lowerParameters
  generalize params.toList = ps at h ⊢
  induction ps with
  | nil => rfl
  | cons p rest ih =>
    obtain ⟨kind, p⟩ := p
    obtain ⟨hhint, hrest⟩ := List.forall_mem_cons.1 h
    have hnone : p.hint = none := hhint
    rw [List.mapM_cons, ih hrest]
    simp only [hnone]
    rfl

/-- A parameter of a function without hints has no hint. -/
theorem hint_eq_none {head : FunctionHead} (h : stripHints head = head) :
    ∀ p ∈ head.params.toList, p.2.hint = none := by
  intro p hp
  rw [← h, toList_stripHints] at hp
  obtain ⟨q, -, rfl⟩ := List.mem_map.1 hp
  rfl

/-- A function without hints is declared without types. -/
theorem settles_declare {f : FunctionDeclaration} (h : ∀ p ∈ f.params, p.type = none) :
    Settles (declare (.function f)) := by
  intro ds
  exact ⟨ds.length, [.function f], rfl, List.forall_mem_singleton.2 ⟨f, rfl, h⟩⟩

/-- What depends on the state depends on a state without records. -/
theorem settles_get_bind {f : LowerState → Lower α} (h : ∀ ds, Settles (f ⟨ds, []⟩)) :
    Settles (get >>= f) :=
  fun ds => h ds ds

/-- Lowering settled initial values finds nothing. -/
theorem settles_lowerInitials {params : Parameters Expr} (h : ∀ e ∈ slots params, e.Settled c) :
    Settles (lowerInitials c params) := by
  obtain ⟨hkeywordOnly, h⟩ := List.forall_mem_append.1 h
  obtain ⟨honly, hpositional⟩ := List.forall_mem_append.1 h
  refine (settles_lowerIn honly).bind fun positionalOnly => ?_
  refine (settles_lowerIn hpositional).bind fun positional => ?_
  exact (settles_lowerIn hkeywordOnly).bind fun keywordOnly => settles_pure _

mutual

/-- Lowering a settled statement finds no more than functions without hints. -/
theorem settles_lowerStmt {c : LowerContext} {t : Stmt} :
    Stmt.Settled c t → Settles (lowerStmt c t)
  | .simple hdeclares hnumber hheld => by
    rw [lowerStmt, lowerSimple_eq hdeclares]
    exact (settles_lowerIn hheld).bind fun t => settles_pure _
  | @Stmt.Settled.function _ pos head body hnumber hhints hdecorators hparams hbody => by
    rw [lowerStmt, lowerParameters_eq (hint_eq_none hhints)]
    refine (settles_lowerIn hdecorators).bind fun decorators => ?_
    refine (settles_lowerInitials hparams).bind fun params => ?_
    rw [pure_bind]
    refine (settles_declare fun p hp => ?_).bind fun number => ?_
    · obtain ⟨q, -, rfl⟩ := List.mem_map.1 hp
      rfl
    · exact (settles_lowerAll hbody).bind fun body => settles_pure _
  | @Stmt.Settled.classDef _ pos head body hrecord hnumber hbases hkeywords hbody hdecorators => by
    have hnone : inheritedFields c [] head.bases = none := by
      rw [← Option.isNone_iff_eq_none, ← Option.not_isSome, isSome_inheritedFields]
      exact congrArg not hrecord
    rw [lowerStmt]
    refine settles_get_bind fun ds => ?_
    simp only [hnone]
    refine (settles_lowerIn hbases).bind fun bases => ?_
    refine (settles_lowerIn hkeywords).bind fun keywords => ?_
    refine (settles_lowerAll hbody).bind fun body => ?_
    exact (settles_lowerIn hdecorators).bind fun decorators => settles_pure _
  | .guarded hguard htest hbody horelse => by
    rw [lowerStmt, hguard, if_pos rfl]
    exact (settles_lowerAll horelse).bind fun orelse => settles_pure _
  | .branch hguard htest hbody horelse => by
    rw [lowerStmt, hguard, if_neg Bool.false_ne_true]
    refine (settles_lowerIn (List.forall_mem_singleton.2 htest)).bind fun test => ?_
    refine (settles_lowerAll hbody).bind fun body => ?_
    exact (settles_lowerAll horelse).bind fun orelse => settles_pure _
  | .compound h => by
    rw [lowerStmt]
    exact (settles_lowerClauses h).bind fun clauses => settles_pure _

/-- Lowering settled statements finds no more than functions without hints. -/
theorem settles_lowerAll {c : LowerContext} {ts : List Stmt} :
    Stmt.AllSettled c ts → Settles (lowerAll c ts)
  | .nil => settles_pure _
  | .cons hfirst hrest => by
    rw [lowerAll]
    refine (settles_lowerStmt hfirst).bind fun t => ?_
    exact (settles_lowerAll hrest).bind fun rest => settles_pure _

/-- Lowering settled clauses finds no more than functions without hints. -/
theorem settles_lowerClauses {c : LowerContext} {clauses : List (Clause Stmt)} :
    Stmt.ClausesSettled c clauses → Settles (lowerClauses c clauses)
  | .nil => settles_pure _
  | .cons hhead hbody hrest => by
    rw [lowerClauses]
    refine (settles_lowerIn hhead).bind fun head => ?_
    refine (settles_lowerAll hbody).bind fun body => ?_
    exact (settles_lowerClauses hrest).bind fun rest => settles_pure _

end

end Lower

mutual

/-- A statement whose functions carry no numbers. -/
def Stmt.withoutNumbers : Stmt → Stmt
  | .simple pos t => .simple pos t
  | .function pos head body => .function pos { head with decl := none } (allWithoutNumbers body)
  | .classDef pos head body => .classDef pos head (allWithoutNumbers body)
  | .branch pos test body orelse =>
    .branch pos test (allWithoutNumbers body) (allWithoutNumbers orelse)
  | .compound pos clauses => .compound pos (clausesWithoutNumbers clauses)

/-- Statements whose functions carry no numbers. -/
def Stmt.allWithoutNumbers : List Stmt → List Stmt
  | [] => []
  | t :: rest => t.withoutNumbers :: allWithoutNumbers rest

/-- Clauses whose functions carry no numbers. -/
def Stmt.clausesWithoutNumbers : List (Clause Stmt) → List (Clause Stmt)
  | [] => []
  | ⟨head, body⟩ :: rest => ⟨head, allWithoutNumbers body⟩ :: clausesWithoutNumbers rest

end

namespace Stmt

mutual

/-- A statement without numbers stays. -/
theorem withoutNumbers_eq_self : (t : Stmt) → (∀ u ∈ t.nodes, u.Unnumbered) →
    t.withoutNumbers = t
  | .simple pos t, h => rfl
  | .function pos ⟨isAsync, name, params, returns, decorators, decl⟩ body, h => by
    obtain ⟨⟨hnumber, -⟩, hbody⟩ := List.forall_mem_cons.1 h
    obtain rfl : decl = none := hnumber
    rw [withoutNumbers, allWithoutNumbers_eq_self body hbody]
  | .classDef pos head body, h => by
    rw [withoutNumbers, allWithoutNumbers_eq_self body (List.forall_mem_cons.1 h).2]
  | .branch pos test body orelse, h => by
    obtain ⟨hbody, horelse⟩ := List.forall_mem_append.1 (List.forall_mem_cons.1 h).2
    rw [withoutNumbers, allWithoutNumbers_eq_self body hbody,
      allWithoutNumbers_eq_self orelse horelse]
  | .compound pos clauses, h => by
    rw [withoutNumbers, clausesWithoutNumbers_eq_self clauses (List.forall_mem_cons.1 h).2]

/-- Statements without numbers stay. -/
theorem allWithoutNumbers_eq_self : (ts : List Stmt) → AllUnnumbered ts →
    allWithoutNumbers ts = ts
  | [], h => rfl
  | t :: rest, h => by
    obtain ⟨hfirst, hrest⟩ := List.forall_mem_append.1 h
    rw [allWithoutNumbers, withoutNumbers_eq_self t hfirst, allWithoutNumbers_eq_self rest hrest]

/-- Clauses without numbers stay. -/
theorem clausesWithoutNumbers_eq_self : (clauses : List (Clause Stmt)) →
    (∀ u ∈ clauseNodes clauses, u.Unnumbered) → clausesWithoutNumbers clauses = clauses
  | [], h => rfl
  | ⟨head, body⟩ :: rest, h => by
    obtain ⟨hbody, hrest⟩ := List.forall_mem_append.1 h
    rw [clausesWithoutNumbers, allWithoutNumbers_eq_self body hbody,
      clausesWithoutNumbers_eq_self rest hrest]

end

/-- Statements lose their numbers one by one. -/
theorem allWithoutNumbers_eq_map (ts : List Stmt) :
    allWithoutNumbers ts = ts.map withoutNumbers := by
  induction ts with
  | nil => rfl
  | cons t rest ih => rw [allWithoutNumbers, ih, List.map_cons]

end Stmt

namespace Splicer

variable {k : Splicer}

mutual

/-- A settled expression is placed for itself. -/
theorem PlacesExpr.eq_of_settled {e e' u : Expr} {entries : List PlanEntry} (h : e.Settled c) :
    k.PlacesExpr c e e' entries u → u = e
  | @PlacesExpr.cast _ _ pos func _ _ _ _ _ _ _ _ _ _ hfunc _ _ _ _ _ _ _ => by
    have hcast : (c.scope.canonical func == some "cast") = false := h.here.1
    rw [hfunc, beq_self_eq_true] at hcast
    cases hcast
  | .parts hcast hnumber hparts => by
    rw [hparts.eq_of_settled fun e he => h.of_mem_children he, Expr.withChildren_children]

/-- Settled expressions are placed for themselves. -/
theorem PlacesExprs.eq_of_settled {es es' us : List Expr} {entries : List PlanEntry}
    (h : ∀ e ∈ es, e.Settled c) : k.PlacesExprs c es es' entries us → us = es
  | .nil => rfl
  | .cons hfirst hrest => by
    obtain ⟨hsettled, hrests⟩ := List.forall_mem_cons.1 h
    rw [hfirst.eq_of_settled hsettled, hrest.eq_of_settled hrests]

end

/-- What holds settled expressions is placed for itself. -/
theorem PlacesIn.eq_of_settled {α : Type} [Slots α] {a a' b : α} {entries : List PlanEntry}
    (h : k.PlacesIn c a a' entries b) (ha : ∀ e ∈ slots a, e.Settled c) : b = a := by
  cases h with
  | intro h => rw [h.eq_of_settled ha, refill_slots]

/-- Parameters with settled initial values are placed for themselves. -/
theorem PlacesParameters.eq_of_settled {ps ps' qs : Parameters Expr} {entries : List PlanEntry}
    (h : k.PlacesParameters c ps ps' entries qs) (hps : ∀ e ∈ slots ps, e.Settled c) :
    qs = ps := by
  obtain ⟨hkeywordOnly, hps⟩ := List.forall_mem_append.1 hps
  obtain ⟨honly, hpositional⟩ := List.forall_mem_append.1 hps
  cases h with
  | intro h₁ h₂ h₃ =>
    rw [h₁.eq_of_settled honly, h₂.eq_of_settled hpositional, h₃.eq_of_settled hkeywordOnly]

/-- A settled simple statement is placed for itself. -/
theorem PlacesSimple.eq_of_settled {pos : Pos} {t t' u : Simple} {entries : List PlanEntry}
    (h : k.PlacesSimple c pos t t' entries u) (hdeclares : t.declares c = false)
    (ht : ∀ e ∈ slots t, e.Settled c) : u = t := by
  cases h with
  | @typeAlias _ _ hint _ _ _ _ _ _ hhint hdenote hentry hcode =>
    have hnone : (c.scope.canonical hint == some "TypeAlias") = false := hdeclares
    rw [hhint, beq_self_eq_true] at hnone
    cases hnone
  | @reify _ _ _ func _ _ _ _ _ hfunc hdenote hentry hcode =>
    have hnone : (c.scope.canonical func == some "reify") = false := hdeclares
    rw [hfunc, beq_self_eq_true] at hnone
    cases hnone
  | other hdeclares hnumber h => exact h.eq_of_settled ht

/-- A function without hints has no checks. -/
theorem checks_eq_nil {head : FunctionHead} {typed : List TypedParameter} {number : Nat}
    {location : Option Location} {checks : List PlanEntry} (hhints : stripHints head = head)
    (htyped : List.Forall₂ (DeclaresParameter c.hints) head.params.signature typed)
    (hentries : k.plan.Holds number (.function ⟨head.name, typed, location⟩) checks) :
    checks = [] := by
  have hnone : ∀ p ∈ typed, ¬ p.type.isSome := by
    intro p hp hsome
    obtain ⟨q, hq, hdeclares⟩ := exists_mem_of_forall₂ htyped hp
    obtain ⟨t, ht⟩ := Option.isSome_iff_exists.1 hsome
    obtain ⟨hint, hhint, -⟩ := (hdeclares.type t).1 ht
    obtain ⟨r, hr, rfl⟩ := List.mem_map.1 hq
    rw [Lower.hint_eq_none hhints r hr] at hhint
    cases hhint
  obtain ⟨r, r', hstep⟩ := hentries.step
  cases hstep with
  | function h =>
    have hempty : (FunctionDeclaration.mk head.name typed location).typed = [] :=
      List.filter_eq_nil_iff.2 hnone
    rw [hempty] at h
    cases h with | nil => rfl

/-- Without entries there are no checks. -/
theorem PlacesChecks.eq_nil {pos : Pos} {ts : List Stmt} (h : k.PlacesChecks pos [] ts) :
    ts = [] := by
  cases h with
  | skipped => rfl
  | checked hskip h => cases h with | nil => rfl

mutual

/-- A settled statement is placed for itself, but for the numbers of functions. -/
theorem PlacesStmt.eq_of_settled {c : LowerContext} {known' : List String} {t t' u : Stmt}
    {entries : List PlanEntry} : k.PlacesStmt c [] t t' entries u known' → t.Settled c →
      u.withoutNumbers = t ∧ known' = []
  | .simple h, .simple hdeclares hnumber hheld => by
    rw [h.eq_of_settled hdeclares hheld]
    exact ⟨rfl, rfl⟩
  | @PlacesStmt.function _ _ _ _ pos head _ _ _ _ number _ body _ _ _ _ _ _ us hnumber hdecorators
      hparams htyped hentries hchecks hbody, .function _ hhints hd hp hb => by
    obtain ⟨hbody, hknown⟩ := hbody.eq_of_settled hb
    obtain rfl := checks_eq_nil hhints htyped hentries
    have hhead : { stripHints { head with decl := some number } with decl := none } = head := by
      have hown : { stripHints head with decl := head.decl } = head := hhints
      rw [← hnumber]
      exact hown
    rw [hdecorators.eq_of_settled hd, hparams.eq_of_settled hp, hchecks.eq_nil, List.append_nil,
      List.take_append_drop, Stmt.withoutNumbers, hbody]
    exact ⟨congrArg (Stmt.function pos · body) hhead, hknown⟩
  | .record hrecord hentry hcode, .classDef hnone _ _ _ _ _ => by
    rw [hrecord] at hnone
    cases hnone
  | .classDef hrecord hnumber hbases hkeywords hbody hdecorators,
      .classDef hnone _ hb hk hbody' hd => by
    obtain ⟨hbody, hknown⟩ := hbody.eq_of_settled hbody'
    rw [hbases.eq_of_settled hb, hkeywords.eq_of_settled hk, hdecorators.eq_of_settled hd,
      Stmt.withoutNumbers, hbody]
    exact ⟨rfl, hknown⟩
  | .guarded hguard htest hbody horelse, .guarded _ _ _ ho => by
    obtain ⟨horelse, hknown⟩ := horelse.eq_of_settled ho
    rw [Stmt.withoutNumbers, Stmt.allWithoutNumbers_eq_self _ hbody, horelse]
    exact ⟨rfl, hknown⟩
  | .guarded hguard htest hbody horelse, .branch hnone _ _ _ => by
    rw [hguard] at hnone
    cases hnone
  | .branch hguard htest hbody horelse, .guarded hnone _ _ _ => by
    rw [hguard] at hnone
    cases hnone
  | .branch hguard htest hbody horelse, .branch _ ht hb ho => by
    obtain ⟨hbody', rfl⟩ := hbody.eq_of_settled hb
    obtain ⟨horelse', hknown⟩ := horelse.eq_of_settled ho
    rw [htest.eq_of_settled (List.forall_mem_singleton.2 ht), Stmt.withoutNumbers, hbody',
      horelse']
    exact ⟨rfl, hknown⟩
  | .compound h, .compound hsettled => by
    obtain ⟨hclauses, hknown⟩ := h.eq_of_settled hsettled
    rw [Stmt.withoutNumbers, hclauses]
    exact ⟨rfl, hknown⟩

/-- Settled statements are placed for themselves, but for the numbers of functions. -/
theorem PlacesAll.eq_of_settled {c : LowerContext} {known' : List String} {ts ts' us : List Stmt}
    {entries : List PlanEntry} : k.PlacesAll c [] ts ts' entries us known' →
      Stmt.AllSettled c ts → Stmt.allWithoutNumbers us = ts ∧ known' = []
  | .nil, .nil => ⟨rfl, rfl⟩
  | .cons hfirst hrest, .cons hf hr => by
    obtain ⟨hfirst', rfl⟩ := hfirst.eq_of_settled hf
    obtain ⟨hrest', hknown⟩ := hrest.eq_of_settled hr
    rw [Stmt.allWithoutNumbers, hfirst', hrest']
    exact ⟨rfl, hknown⟩

/-- Settled clauses are placed for themselves, but for the numbers of functions. -/
theorem PlacesClauses.eq_of_settled {c : LowerContext} {known' : List String}
    {clauses clauses' us : List (Clause Stmt)} {entries : List PlanEntry} :
    k.PlacesClauses c [] clauses clauses' entries us known' →
      Stmt.ClausesSettled c clauses → Stmt.clausesWithoutNumbers us = clauses ∧ known' = []
  | .nil, .nil => ⟨rfl, rfl⟩
  | .cons hhead hbody hrest, .cons hh hb hr => by
    obtain ⟨hbody', rfl⟩ := hbody.eq_of_settled hb
    obtain ⟨hrest', hknown⟩ := hrest.eq_of_settled hr
    rw [hhead.eq_of_settled hh, Stmt.clausesWithoutNumbers, hbody', hrest']
    exact ⟨rfl, hknown⟩

end

end Splicer

/-- Functions without hints need no entries. -/
theorem planFrom_eq_nil {ds : List Declaration} (h : ∀ d ∈ ds, d.Untyped) (s : PlanState)
    (number : Nat) : planFrom s number ds = .ok ([], s) := by
  have hparams (ps : List TypedParameter) (hps : ∀ p ∈ ps, p.type = none) (number : Nat) :
      planParameters s number ps = .ok ([], s) := by
    induction ps with
    | nil => rfl
    | cons p rest ih =>
      obtain ⟨hnone, hrest⟩ := List.forall_mem_cons.1 hps
      rw [planParameters.eq_def]
      simp only [hnone]
      exact ih hrest
  induction ds generalizing number with
  | nil => rfl
  | cons d rest ih =>
    obtain ⟨⟨f, rfl, hf⟩, hrest⟩ := List.forall_mem_cons.1 h
    have hmore := ih hrest (number + 1)
    rw [planFrom]
    exact Except.bind_eq_ok.2 ⟨_, hparams f.params hf number, Except.bind_eq_ok.2 ⟨_, hmore, rfl⟩⟩

/-- What lowering reads at the top of a tree. -/
def topContext (tree : Module) (file : String) (comments : List (Nat × String))
    (options : Options) : LowerContext :=
  ⟨⟨Scope.ofModule file tree, file, none⟩, comments, options.recursiveMarker, 0⟩

/-- A settled tree compiles to itself, without entries in its plan. -/
theorem compileTree_of_settled {tree : Module} {file : String} {comments : List (Nat × String)}
    {options : Options} (h : Stmt.AllSettled (topContext tree file comments options) tree) :
    ∃ c, compileTree tree file comments options = .ok c ∧ c.plan.entries = [] ∧
      c.spliced.emitted = [] ∧ Stmt.allWithoutNumbers c.spliced.tree = tree := by
  obtain ⟨tree', ds, hrun, hds⟩ := Lower.settles_lowerAll h []
  have hlower : lowerTree tree file comments options =
      .ok ⟨file, ds, Scope.ofModule file tree, tree'⟩ :=
    Except.bind_eq_ok.2 ⟨_, hrun, rfl⟩
  rcases hallocate : (Registry.ofModule (Scope.ofModule file tree).bindings
    (Scope.ofModule file tree).reserved).allocate options.runtimeAlias with ⟨runtime, r⟩
  have hplan : plan r ds = .ok (⟨[], []⟩, r) := by
    rw [plan, planFrom_eq_nil hds]
    rfl
  obtain ⟨us, known, hplaces⟩ := exists_placesAll h.unnumbered hlower hplan
    (Emitter.ofOptions options (some runtime))
  obtain ⟨emitted, hperm, hspliced⟩ := hplaces.splice_eq options.runtimeModule
  obtain rfl : emitted = [] := hperm.eq_nil
  refine ⟨_, Except.bind_eq_ok.2 ⟨_, hlower, compileLowered_of_plan hallocate hplan hspliced⟩, rfl,
    rfl, (hplaces.eq_of_settled h).1⟩

end Typeward
