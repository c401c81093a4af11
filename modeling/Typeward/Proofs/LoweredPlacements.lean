import Typeward.Proofs.PlacementRuns

/-!
# Placements of lowered modules

A plan that has the entries of all declarations of a module has the entries for everything that
lowering declares, in the order of its declarations. So whatever lowering answers is placed: each
site that it declares finds the entries for it, and the entries are used up in their order.
-/

namespace Typeward

open Slots

/-- Every entry of a step of the planner has code. -/
theorem PlanStep.exists_render {r r' : Registry} {number : Nat} {d : Declaration}
    {entries : List PlanEntry} (h : PlanStep r number d entries r') (m : Emitter) :
    ∀ entry ∈ entries, ∃ code, m.render entry.expr = .ok code := by
  intro entry hentry
  cases h.entryForm entry hentry with
  | @define d e label number h =>
    rcases h.named d.name with ⟨name, rfl⟩ | ⟨hform, -⟩
    · obtain ⟨x, hx, -⟩ : ∃ x, render m.runtime ((Registry.classCheck name).named d.name) = .ok x ∧
          ¬ x.CallsFit m.runtime := not_callsFit_named_classCheck name d.name
      have hrender : m.render ((Registry.classCheck name).named d.name) = .ok x := by
        simp only [Emitter.render, hx]
        rfl
      exact ⟨x, hrender⟩
    · obtain ⟨x, hx, -⟩ := hform.exists_emitter_render m
      exact ⟨x, hx⟩
  | parameter h =>
    obtain ⟨x, hx, -⟩ := h.exists_emitter_render m
    exact ⟨x, hx⟩
  | cast h =>
    obtain ⟨x, hx, -⟩ := h.exists_emitter_render m
    exact ⟨x, hx⟩
  | reify h =>
    obtain ⟨x, hx, -⟩ := h.exists_emitter_render m
    exact ⟨x, hx⟩

namespace Plan

/-- The entries of a plan for the declarations from one number on and below another. -/
def between (p : Plan) (a b : Nat) : List PlanEntry :=
  (List.range' a (b - a)).flatMap p.ofDeclaration

/-- There are no declarations below the first one. -/
theorem between_self (p : Plan) (a : Nat) : p.between a a = [] := by simp [between]

/-- A single declaration has its own entries. -/
theorem between_succ (p : Plan) (a : Nat) : p.between a (a + 1) = p.ofDeclaration a := by
  simp [between]

/-- Entries are taken one range of declarations after the other. -/
theorem between_append (p : Plan) {a b c : Nat} (hab : a ≤ b) (hbc : b ≤ c) :
    p.between a b ++ p.between b c = p.between a c := by
  have hrange : List.range' a (c - a) = List.range' a (b - a) ++ List.range' b (c - b) := by
    have hb : b = a + 1 * (b - a) := by omega
    have hlength : c - a = (b - a) + (c - b) := by omega
    rw [hlength, ← List.range'_append, ← hb]
  rw [between, between, between, hrange, List.flatMap_append]

/-- A plan has the entries that the planner makes for each of a list of declarations. -/
def Covers (p : Plan) (ds : List Declaration) : Prop :=
  ∀ number d, ds[number]? = some d → ∃ r r', PlanStep r number d (p.ofDeclaration number) r'

namespace Holds

variable {p : Plan} {number : Nat} {entries : List PlanEntry}

/-- Every entry has code. -/
theorem exists_code {d : Declaration} (h : p.Holds number d entries) (m : Emitter) :
    ∀ entry ∈ entries, ∃ code, m.render entry.expr = .ok code := by
  obtain ⟨r, r', hstep⟩ := h.step
  exact hstep.exists_render m

/-- Every declaration but that of a function has one entry, and the entry has code. -/
theorem exists_entry {d : Declaration} (h : p.Holds number d entries)
    (hd : ∀ f, d ≠ .function f) (m : Emitter) :
    ∃ entry code, entries = [entry] ∧ m.render entry.expr = .ok code := by
  obtain ⟨entry, hentry⟩ : ∃ entry, entries = [entry] := by
    obtain ⟨r, r', hstep⟩ := h.step
    cases hstep with
    | function => exact absurd rfl (hd _)
    | define | cast | reify => exact ⟨_, rfl⟩
  obtain ⟨code, hcode⟩ := h.exists_code m entry (hentry ▸ List.mem_singleton_self _)
  exact ⟨entry, code, hentry, hcode⟩

end Holds

end Plan

/-- If every member of a list corresponds to something, a list corresponds to it. -/
theorem exists_forall₂ {α β : Type} {R : α → β → Prop} {l : List α} (h : ∀ a ∈ l, ∃ b, R a b) :
    ∃ bs, List.Forall₂ R l bs := by
  induction l with
  | nil => exact ⟨[], .nil⟩
  | cons a rest ih =>
    obtain ⟨b, hb⟩ := h a List.mem_cons_self
    obtain ⟨bs, hbs⟩ := ih fun a ha => h a (List.mem_cons_of_mem _ ha)
    exact ⟨b :: bs, .cons hb hbs⟩

namespace Splicer

/-- The entries of a plan for what is declared between two states of a lowering. -/
def declared (k : Splicer) (s s' : LowerState) : List PlanEntry :=
  k.plan.between s.declarations.length s'.declarations.length

/-- Where nothing was declared there are no entries. -/
theorem declared_self (k : Splicer) (s : LowerState) : k.declared s s = [] := k.plan.between_self _

/-- The checks of a function can be made as statements, unless there are no checks. -/
theorem exists_placesChecks {k : Splicer} {number : Nat} {d : FunctionDeclaration}
    {entries : List PlanEntry} (h : k.plan.Holds number (.function d) entries) (pos : Pos) :
    ∃ statements, k.PlacesChecks pos entries statements := by
  cases hskip : k.emitter.skipAsserts with
  | true => exact ⟨[], .skipped hskip⟩
  | false =>
    have hchecks : ∀ entry ∈ entries, ∃ t, k.emitter.Checks pos entry t := by
      intro entry hentry
      obtain ⟨-, p, hsite⟩ := h.function_eq entry hentry
      obtain ⟨type, htype⟩ := h.exists_code k.emitter entry hentry
      exact ⟨_, p, type, hsite, htype, rfl⟩
    obtain ⟨statements, hstatements⟩ := exists_forall₂ hchecks
    exact ⟨statements, .checked hskip hstatements⟩

end Splicer

namespace Lower

open Typeward.Action

section States

variable {c : LowerContext}

/-- A declaration is added at the end. -/
theorem keeps_declare {d : Declaration} {s s' : LowerState} {number : Nat}
    (h : declare d s = .ok (number, s')) : s.declarations <+: s'.declarations :=
  (adds_declare (N := fun _ => True) (d := d) (by simp)).keeps h

/-- Lowering the expressions that a value holds keeps the declarations. -/
theorem keeps_lowerIn {α : Type} [Slots α] {a a' : α} {s s' : LowerState}
    (h : lowerIn c a s = .ok (a', s')) : s.declarations <+: s'.declarations :=
  (adds_lowerIn (N := fun _ => True) c a).keeps h

/-- Lowering statements keeps the declarations. -/
theorem keeps_lowerAll {ts ts' : List Stmt} {s s' : LowerState}
    (h : lowerAll c ts s = .ok (ts', s')) : s.declarations <+: s'.declarations :=
  (adds_lowerAll c ts).keeps h

end States

/-- A name is looked up with success if it is among the keys. -/
theorem isSome_lookup {β : Type} (l : List (String × β)) (x : String) :
    (l.lookup x).isSome = (l.map (·.1)).contains x := by
  induction l with
  | nil => rfl
  | cons p rest ih =>
    rw [List.lookup_cons, List.map_cons, List.contains_cons, ← ih]
    cases x == p.1 <;> rfl

/-- Nothing is chosen from a list if nothing can be. -/
theorem isEmpty_filterMap {α β : Type} (f : α → Option β) (l : List α) :
    (l.filterMap f).isEmpty = ! l.any fun a => (f a).isSome := by
  induction l with
  | nil => rfl
  | cons a rest ih =>
    rw [List.filterMap_cons, List.any_cons]
    cases f a with
    | none => simpa using ih
    | some b => rfl

/-- A class inherits fields exactly if it is a record. -/
theorem isSome_inheritedFields (c : LowerContext)
    (records : List (String × List (RecordField StaticType))) (bases : List Expr) :
    (inheritedFields c records bases).isSome = isKnownRecord c (records.map (·.1)) bases := by
  have hfound (base : Expr) : (if c.scope.canonical base == some "TypedDict" then some []
      else base.dotted?.bind fun name => records.lookup name).isSome =
        (c.scope.canonical base == some "TypedDict" ||
          base.dotted?.any (records.map (·.1)).contains) := by
    cases c.scope.canonical base == some "TypedDict" with
    | true => rfl
    | false =>
      cases base.dotted? with
      | none => rfl
      | some name => simp [isSome_lookup]
  have hchoice (found : List (List (RecordField StaticType))) :
      (if found.isEmpty then none else some found.flatten).isSome = ! found.isEmpty := by
    cases found <;> rfl
  unfold inheritedFields isKnownRecord
  dsimp only
  rw [hchoice, isEmpty_filterMap, Bool.not_not]
  simp only [hfound]

section Places

open Splicer

variable {k : Splicer} {c : LowerContext} {ds : List Declaration}

/-- What is declared in one run and the next is declared in both together. -/
theorem declared_append {s s₁ s₂ : LowerState} (h₁ : s.declarations <+: s₁.declarations)
    (h₂ : s₁.declarations <+: s₂.declarations) :
    k.declared s s₁ ++ k.declared s₁ s₂ = k.declared s s₂ :=
  k.plan.between_append h₁.length_le h₂.length_le

/-- A new declaration has its number, and the plan holds its entries. -/
theorem holds_of_declare (hcovers : k.plan.Covers ds) {d : Declaration} {s s' : LowerState}
    {number : Nat} (h : declare d s = .ok (number, s')) (hds : s'.declarations <+: ds) :
    k.plan.Holds number d (k.declared s s') ∧ s'.records = s.records := by
  obtain ⟨rfl, rfl⟩ := declare_eq_ok.1 h
  have hd : ds[s.declarations.length]? = some d := by
    obtain ⟨more, rfl⟩ := hds
    simp
  have hdeclared : k.declared s { s with declarations := s.declarations ++ [d] } =
      k.plan.ofDeclaration s.declarations.length := by
    unfold declared
    rw [List.length_append]
    exact k.plan.between_succ _
  rw [hdeclared]
  exact ⟨⟨rfl, hcovers _ _ hd⟩, rfl⟩

/-- A record is declared under its name, and known from then on. -/
theorem holds_of_lowerRecord (hcovers : k.plan.Covers ds) {pos : Pos} {head : ClassHead}
    {body : List Stmt} {inherited : List (RecordField StaticType)} {s s' : LowerState}
    {number : Nat} (h : lowerRecord c pos head body inherited s = .ok (number, s'))
    (hds : s'.declarations <+: ds) :
    ∃ fields, k.plan.Holds number (.type ⟨head.name,
        .record fields (some head.name) (c.location pos), c.isRecursive pos, c.depth = 0,
        c.location pos⟩) (k.declared s s') ∧
      s'.records.map (·.1) = head.name :: s.records.map (·.1) := by
  obtain ⟨fields, -, hdeclare⟩ := lowerRecord_eq_ok.1 h
  obtain ⟨hentries, hrecords⟩ := holds_of_declare hcovers hdeclare hds
  exact ⟨fields, hentries, by rw [hrecords]; rfl⟩

/-- What lowering an expression answers is placed. -/
def PlacesLowered (k : Splicer) (c : LowerContext) (ds : List Declaration) (e : Expr) : Prop :=
  ∀ ⦃s e' s'⦄, lowerExpr c e s = .ok (e', s') → s'.declarations <+: ds →
    s'.records = s.records ∧ ∃ u, k.PlacesExpr c e e' (k.declared s s') u

/-- What lowering expressions in order answers is placed. -/
theorem places_mapM {es : List Expr} (h : ∀ e ∈ es, PlacesLowered k c ds e) {s s' : LowerState}
    {es' : List Expr} (hrun : es.mapM (lowerExpr c) s = .ok (es', s'))
    (hds : s'.declarations <+: ds) :
    s'.records = s.records ∧ ∃ us, k.PlacesExprs c es es' (k.declared s s') us := by
  induction es generalizing s s' es' with
  | nil =>
    obtain ⟨rfl, rfl⟩ := pure_eq_ok.1 hrun
    rw [declared_self]
    exact ⟨rfl, [], .nil⟩
  | cons e rest ih =>
    rw [List.mapM_cons] at hrun
    obtain ⟨e', s₁, hfirst, hrun⟩ := bind_eq_ok.1 hrun
    obtain ⟨rest', s₂, hrest, hrun⟩ := bind_eq_ok.1 hrun
    obtain ⟨rfl, rfl⟩ := pure_eq_ok.1 hrun
    have hkept := (adds_lowerExpr (N := fun _ => True) c e).keeps hfirst
    have hkept' := (adds_mapM (N := fun _ => True) fun e _ => adds_lowerExpr c e).keeps hrest
    obtain ⟨hrecords, u, hu⟩ := h e List.mem_cons_self hfirst (hkept'.trans hds)
    obtain ⟨hrecords', us, hus⟩ := ih (fun e he => h e (List.mem_cons_of_mem _ he)) hrest hds
    rw [← declared_append hkept hkept']
    exact ⟨hrecords'.trans hrecords, u :: us, .cons hu hus⟩

/-- Whatever lowering an expression without numbers answers is placed. -/
theorem placesLowered (hcovers : k.plan.Covers ds) {e : Expr} (h : e.Unnumbered) :
    PlacesLowered k c ds e := by
  unfold PlacesLowered
  fun_induction lowerExpr c e with
  | case1 pos func type value decl hcast ih =>
    intro s e' s' hrun hds
    obtain ⟨t, s₁, ht, hrun⟩ := bind_eq_ok.1 hrun
    obtain ⟨hdenote, rfl⟩ := lowerHint_eq_ok.1 ht
    obtain ⟨label, s₂, hlabel, hrun⟩ := bind_eq_ok.1 hrun
    obtain ⟨number, s₃, hnumber, hrun⟩ := bind_eq_ok.1 hrun
    obtain ⟨value', s₄, hvalue, hrun⟩ := bind_eq_ok.1 hrun
    obtain ⟨rfl, rfl⟩ := pure_eq_ok.1 hrun
    obtain ⟨text, htext, hlabel⟩ := Except.bind_eq_ok.1 hlabel
    obtain ⟨rfl, rfl⟩ : text = label ∧ s = s₂ := by simpa [pure, Except.pure] using hlabel
    have hchildren : ∀ child ∈ [func, type, value], child.Unnumbered := fun child hchild =>
      h.of_mem_children hchild
    simp only [List.forall_mem_cons] at hchildren
    obtain ⟨hfunc, htype, hvalue', -⟩ := hchildren
    have hkept := (adds_lowerExpr (N := fun _ => True) c value).keeps hvalue
    obtain ⟨hentries, hrecords⟩ := holds_of_declare hcovers hnumber (hkept.trans hds)
    obtain ⟨hrecords', u, hu⟩ := ih hvalue' hvalue hds
    obtain ⟨entry, code, hentry, hcode⟩ := hentries.exists_entry (fun f hf => by cases hf) k.emitter
    have hdeclared : k.declared s s₄ = entry :: k.declared s₃ s₄ := by
      rw [← declared_append (keeps_declare hnumber) hkept, hentry]
      rfl
    rw [hdeclared]
    obtain rfl : decl = none := h.here
    rw [hentry] at hentries
    have hcanonical : c.scope.canonical func = some "cast" := by
      simpa [callsSpecial] using hcast
    exact ⟨hrecords'.trans hrecords, _,
      .cast hcanonical hfunc htype hdenote htext hentries hcode hu⟩
  | case2 e hcast hne =>
    intro s e' s' hrun
    simp [lowerFault, HintContext.unsupported] at hrun
  | case3 e hcast ih =>
    intro s e' s' hrun hds
    rw [Expr.mapChildren_eq] at hrun
    obtain ⟨es', s₁, hes, hrun⟩ := bind_eq_ok.1 hrun
    obtain ⟨rfl, rfl⟩ := pure_eq_ok.1 hrun
    have hparts : ∀ child ∈ e.children, PlacesLowered k c ds child := fun child hchild =>
      ih child (Expr.sizeOf_lt_of_mem_children hchild) (h.of_mem_children hchild)
    obtain ⟨hrecords, us, hus⟩ := places_mapM hparts hes hds
    exact ⟨hrecords, _, .parts (by simpa using hcast) h.here hus⟩

/-- What lowering the expressions that a value holds answers is placed. -/
theorem places_lowerIn (hcovers : k.plan.Covers ds) {α : Type} [Slots α] {a a' : α}
    (h : ∀ e ∈ slots a, e.Unnumbered) {s s' : LowerState} (hrun : lowerIn c a s = .ok (a', s'))
    (hds : s'.declarations <+: ds) :
    s'.records = s.records ∧ ∃ b, k.PlacesIn c a a' (k.declared s s') b := by
  obtain ⟨es', s₁, hes, hrun⟩ := bind_eq_ok.1 hrun
  obtain ⟨rfl, rfl⟩ := pure_eq_ok.1 hrun
  obtain ⟨hrecords, us, hus⟩ := places_mapM (fun e he => placesLowered hcovers (h e he)) hes hds
  exact ⟨hrecords, _, .intro hus⟩

/-- What lowering the initial values of parameters answers is placed. -/
theorem places_lowerInitials (hcovers : k.plan.Covers ds) {ps ps' : Parameters Expr}
    (h : ∀ e ∈ slots ps, e.Unnumbered) {s s' : LowerState}
    (hrun : lowerInitials c ps s = .ok (ps', s')) (hds : s'.declarations <+: ds) :
    s'.records = s.records ∧ ∃ qs, k.PlacesParameters c ps ps' (k.declared s s') qs := by
  obtain ⟨only, s₁, honly, positional, s₂, hpositional, keywordOnly, hkeywordOnly, rfl⟩ :=
    lowerInitials_eq_ok.1 hrun
  obtain ⟨hplain₃, hplain⟩ := List.forall_mem_append.1 h
  obtain ⟨hplain₁, hplain₂⟩ := List.forall_mem_append.1 hplain
  have hkept₁ := keeps_lowerIn honly
  have hkept₂ := keeps_lowerIn hpositional
  have hkept₃ := keeps_lowerIn hkeywordOnly
  obtain ⟨hrecords₁, only', honly⟩ :=
    places_lowerIn hcovers hplain₁ honly (hkept₂.trans (hkept₃.trans hds))
  obtain ⟨hrecords₂, positional', hpositional⟩ :=
    places_lowerIn hcovers hplain₂ hpositional (hkept₃.trans hds)
  obtain ⟨hrecords₃, keywordOnly', hkeywordOnly⟩ := places_lowerIn hcovers hplain₃ hkeywordOnly hds
  rw [← declared_append hkept₁ (hkept₂.trans hkept₃), ← declared_append hkept₂ hkept₃]
  exact ⟨hrecords₃.trans (hrecords₂.trans hrecords₁), _, .intro honly hpositional hkeywordOnly⟩

/-- What lowering a simple statement answers is placed. -/
theorem places_lowerSimple (hcovers : k.plan.Covers ds) {pos : Pos} {t t' : Simple}
    (h : Stmt.Unnumbered (.simple pos t)) {s s' : LowerState}
    (hrun : lowerSimple c pos t s = .ok (t', s')) (hds : s'.declarations <+: ds) :
    s'.records = s.records ∧ ∃ u, k.PlacesSimple c pos t t' (k.declared s s') u := by
  obtain ⟨hnumber, hheld⟩ := h
  have hother (hdeclares : t.declares c = false) (hrun : lowerIn c t s = .ok (t', s')) :
      s'.records = s.records ∧ ∃ u, k.PlacesSimple c pos t t' (k.declared s s') u := by
    obtain ⟨hrecords, u, hu⟩ := places_lowerIn hcovers hheld hrun hds
    exact ⟨hrecords, u, .other hdeclares hnumber hu⟩
  unfold lowerSimple at hrun
  split at hrun
  · rename_i p id hint value bare decl
    split at hrun
    · rename_i hhint
      obtain ⟨type, s₁, htype, hrun⟩ := bind_eq_ok.1 hrun
      obtain ⟨hdenote, rfl⟩ := lowerHint_eq_ok.1 htype
      obtain ⟨number, s₂, hdeclare, hrun⟩ := bind_eq_ok.1 hrun
      obtain ⟨rfl, rfl⟩ := pure_eq_ok.1 hrun
      obtain ⟨hentries, hrecords⟩ := holds_of_declare hcovers hdeclare hds
      obtain ⟨entry, code, hentry, hcode⟩ := hentries.exists_entry (fun f hf => by cases hf) k.emitter
      obtain rfl : decl = none := hnumber
      rw [hentry] at hentries ⊢
      exact ⟨hrecords, _, .typeAlias (by simpa using hhint) hdenote hentries hcode⟩
    · rename_i hhint
      exact hother (by simpa [Simple.declares] using hhint) hrun
  · rename_i p id value decl
    split at hrun
    · rename_i hvalue
      split at hrun
      · rename_i q func type decl'
        obtain ⟨t, s₁, htype, hrun⟩ := bind_eq_ok.1 hrun
        obtain ⟨hdenote, rfl⟩ := lowerHint_eq_ok.1 htype
        obtain ⟨number, s₂, hdeclare, hrun⟩ := bind_eq_ok.1 hrun
        obtain ⟨rfl, rfl⟩ := pure_eq_ok.1 hrun
        obtain ⟨hentries, hrecords⟩ := holds_of_declare hcovers hdeclare hds
        obtain ⟨entry, code, hentry, hcode⟩ := hentries.exists_entry (fun f hf => by cases hf) k.emitter
        obtain rfl : decl = none := hnumber
        have hcall : (Expr.call q func [type] [] decl').Unnumbered :=
          hheld _ (List.mem_append_right _ (List.mem_singleton_self _))
        obtain rfl : decl' = none := hcall.here
        rw [hentry] at hentries ⊢
        exact ⟨hrecords, _, .reify (by simpa [callsSpecial] using hvalue) hdenote hentries hcode⟩
      · simp [lowerFault, HintContext.unsupported] at hrun
    · rename_i hvalue
      exact hother (by simpa [Simple.declares] using hvalue) hrun
  · rename_i hnot hnot'
    refine hother ?_ hrun
    unfold Simple.declares
    split
    · exact absurd rfl (hnot _ _ _ _ _ _)
    · exact absurd rfl (hnot' _ _ _ _)
    · rfl

mutual

/-- What lowering a statement answers is placed. -/
theorem places_lowerStmt (hcovers : k.plan.Covers ds) {c : LowerContext} : {t t' : Stmt} →
    (∀ u ∈ t.nodes, u.Unnumbered) → {s s' : LowerState} → lowerStmt c t s = .ok (t', s') →
    s'.declarations <+: ds →
    ∃ u, k.PlacesStmt c (s.records.map (·.1)) t t' (k.declared s s') u (s'.records.map (·.1))
  | .simple pos t, t', h, s, s', hrun, hds => by
    obtain ⟨t', ht, rfl⟩ := lowerStmt_simple_eq_ok.1 hrun
    obtain ⟨hrecords, u, hu⟩ := places_lowerSimple hcovers (h _ (List.mem_singleton_self _)) ht hds
    rw [hrecords]
    exact ⟨_, .simple hu⟩
  | .function pos head body, t', h, s, s', hrun, hds => by
    obtain ⟨⟨hnumber, hheld⟩, hplain⟩ := List.forall_mem_cons.1 h
    obtain ⟨hplain₁, hplain₂⟩ := List.forall_mem_append.1 hheld
    obtain ⟨decorators, s₁, hdecorators, params, s₂, hparams, typed, s₃, htyped, number, s₄,
      hdeclare, body', hbody, rfl⟩ := lowerStmt_function_eq_ok.1 hrun
    have hkept₁ := keeps_lowerIn hdecorators
    have hkept₂ := (adds_lowerInitials (N := fun _ => True) _ _).keeps hparams
    obtain rfl := state_of_lowerParameters htyped
    have hkept₃ := keeps_declare hdeclare
    have hkept₄ := keeps_lowerAll hbody
    obtain ⟨hrecords₁, decorators', hd⟩ := places_lowerIn hcovers hplain₁ hdecorators
      (hkept₂.trans (hkept₃.trans (hkept₄.trans hds)))
    obtain ⟨hrecords₂, params', hp⟩ := places_lowerInitials hcovers hplain₂ hparams
      (hkept₃.trans (hkept₄.trans hds))
    obtain ⟨hentries, hrecords₃⟩ := holds_of_declare hcovers hdeclare (hkept₄.trans hds)
    obtain ⟨statements, hstatements⟩ := exists_placesChecks hentries pos
    obtain ⟨us, hus⟩ := places_lowerAll hcovers hplain hbody hds
    rw [hrecords₃, hrecords₂, hrecords₁] at hus
    rw [← declared_append hkept₁ (hkept₂.trans (hkept₃.trans hkept₄)),
      ← declared_append hkept₂ (hkept₃.trans hkept₄), ← declared_append hkept₃ hkept₄]
    exact ⟨_, .function hnumber hd hp (forall₂_of_lowerParameters htyped) hentries hstatements hus⟩
  | .classDef pos head body, t', h, s, s', hrun, hds => by
    obtain ⟨⟨hnumber, hheld⟩, hplain⟩ := List.forall_mem_cons.1 h
    obtain ⟨hheld, hplain₃⟩ := List.forall_mem_append.1 hheld
    obtain ⟨hplain₁, hplain₂⟩ := List.forall_mem_append.1 hheld
    have hrecord := isSome_inheritedFields c s.records head.bases
    obtain ⟨inherited, hinherited, number, hnumber, rfl⟩ | ⟨hinherited, bases, s₁, hbases, keywords,
      s₂, hkeywords, body', s₃, hbody, decorators, hdecorators, rfl⟩ :=
      lowerStmt_classDef_eq_ok.1 hrun
    · rw [hinherited] at hrecord
      obtain ⟨fields, hentries, hrecords⟩ := holds_of_lowerRecord hcovers hnumber hds
      obtain ⟨entry, code, hentry, hcode⟩ := hentries.exists_entry (fun f hf => by cases hf) k.emitter
      rw [hentry] at hentries ⊢
      rw [hrecords]
      exact ⟨_, .record hrecord.symm hentries hcode⟩
    · rw [hinherited] at hrecord
      have hkept₁ := keeps_lowerIn hbases
      have hkept₂ := keeps_lowerIn hkeywords
      have hkept₃ := keeps_lowerAll hbody
      have hkept₄ := keeps_lowerIn hdecorators
      obtain ⟨hrecords₁, bases', hb⟩ := places_lowerIn hcovers hplain₁ hbases
        (hkept₂.trans (hkept₃.trans (hkept₄.trans hds)))
      obtain ⟨hrecords₂, keywords', hk⟩ := places_lowerIn hcovers hplain₂ hkeywords
        (hkept₃.trans (hkept₄.trans hds))
      obtain ⟨us, hus⟩ := places_lowerAll hcovers hplain hbody (hkept₄.trans hds)
      obtain ⟨hrecords₄, decorators', hd⟩ := places_lowerIn hcovers hplain₃ hdecorators hds
      rw [hrecords₂, hrecords₁, ← hrecords₄] at hus
      rw [← declared_append hkept₁ (hkept₂.trans (hkept₃.trans hkept₄)),
        ← declared_append hkept₂ (hkept₃.trans hkept₄), ← declared_append hkept₃ hkept₄]
      exact ⟨_, .classDef hrecord.symm hnumber hb hk hus hd⟩
  | .branch pos test body orelse, t', h, s, s', hrun, hds => by
    obtain ⟨⟨-, htest⟩, hsuites⟩ := List.forall_mem_cons.1 h
    obtain ⟨hplain₁, hplain₂⟩ := List.forall_mem_append.1 hsuites
    obtain ⟨hguard, orelse', horelse, rfl⟩ | ⟨hguard, test', s₁, htest', body', s₂, hbody, orelse',
      horelse, rfl⟩ := lowerStmt_branch_eq_ok.1 hrun
    · obtain ⟨us, hus⟩ := places_lowerAll hcovers hplain₂ horelse hds
      exact ⟨_, .guarded hguard (htest _ (List.mem_singleton_self _)) hplain₁ hus⟩
    · have hkept₁ := keeps_lowerIn htest'
      have hkept₂ := keeps_lowerAll hbody
      have hkept₃ := keeps_lowerAll horelse
      obtain ⟨hrecords, v, hv⟩ :=
        places_lowerIn hcovers htest htest' (hkept₂.trans (hkept₃.trans hds))
      obtain ⟨us, hus⟩ := places_lowerAll hcovers hplain₁ hbody (hkept₃.trans hds)
      obtain ⟨ws, hws⟩ := places_lowerAll hcovers hplain₂ horelse hds
      rw [hrecords] at hus
      rw [← declared_append hkept₁ (hkept₂.trans hkept₃), ← declared_append hkept₂ hkept₃]
      exact ⟨_, .branch hguard hv hus hws⟩
  | .compound pos clauses, t', h, s, s', hrun, hds => by
    obtain ⟨⟨-, hheads⟩, hclauses⟩ := List.forall_mem_cons.1 h
    obtain ⟨clauses', hrun', rfl⟩ := lowerStmt_compound_eq_ok.1 hrun
    obtain ⟨us, hus⟩ := places_lowerClauses hcovers (fun clause hclause e he =>
      hheads e (List.mem_flatMap.2 ⟨clause, hclause, he⟩)) hclauses hrun' hds
    exact ⟨_, .compound hus⟩

/-- What lowering statements answers is placed. -/
theorem places_lowerAll (hcovers : k.plan.Covers ds) {c : LowerContext} : {ts ts' : List Stmt} →
    Stmt.AllUnnumbered ts → {s s' : LowerState} → lowerAll c ts s = .ok (ts', s') →
    s'.declarations <+: ds →
    ∃ us, k.PlacesAll c (s.records.map (·.1)) ts ts' (k.declared s s') us (s'.records.map (·.1))
  | [], ts', h, s, s', hrun, hds => by
    obtain ⟨rfl, rfl⟩ := lowerAll_nil_eq_ok.1 hrun
    rw [declared_self]
    exact ⟨_, .nil⟩
  | t :: rest, ts', h, s, s', hrun, hds => by
    obtain ⟨hplain, hplain'⟩ := List.forall_mem_append.1 h
    obtain ⟨t', s₁, ht, rest', hrest, rfl⟩ := lowerAll_cons_eq_ok.1 hrun
    have hkept := (adds_lowerStmt _ _).keeps ht
    have hkept' := keeps_lowerAll hrest
    obtain ⟨u, hu⟩ := places_lowerStmt hcovers hplain ht (hkept'.trans hds)
    obtain ⟨us, hus⟩ := places_lowerAll hcovers hplain' hrest hds
    rw [← declared_append hkept hkept']
    exact ⟨_, .cons hu hus⟩

/-- What lowering clauses answers is placed. -/
theorem places_lowerClauses (hcovers : k.plan.Covers ds) {c : LowerContext} :
    {clauses clauses' : List (Clause Stmt)} →
    (∀ clause ∈ clauses, ∀ e ∈ slots clause.head, e.Unnumbered) →
    (∀ u ∈ Stmt.clauseNodes clauses, u.Unnumbered) → {s s' : LowerState} →
    lowerClauses c clauses s = .ok (clauses', s') → s'.declarations <+: ds →
    ∃ us, k.PlacesClauses c (s.records.map (·.1)) clauses clauses' (k.declared s s') us
      (s'.records.map (·.1))
  | [], clauses', hheads, h, s, s', hrun, hds => by
    obtain ⟨rfl, rfl⟩ := lowerClauses_nil_eq_ok.1 hrun
    rw [declared_self]
    exact ⟨_, .nil⟩
  | ⟨head, body⟩ :: rest, clauses', hheads, h, s, s', hrun, hds => by
    obtain ⟨hhead, hheads⟩ := List.forall_mem_cons.1 hheads
    obtain ⟨hplain, hplain'⟩ := List.forall_mem_append.1 h
    obtain ⟨head', s₁, hhead', body', s₂, hbody, rest', hrest, rfl⟩ :=
      lowerClauses_cons_eq_ok.1 hrun
    have hkept₁ := keeps_lowerIn hhead'
    have hkept₂ := keeps_lowerAll hbody
    have hkept₃ := (adds_lowerClauses _ _).keeps hrest
    obtain ⟨hrecords, v, hv⟩ :=
      places_lowerIn hcovers hhead hhead' (hkept₂.trans (hkept₃.trans hds))
    obtain ⟨us, hus⟩ := places_lowerAll hcovers hplain hbody (hkept₃.trans hds)
    obtain ⟨ws, hws⟩ := places_lowerClauses hcovers hheads hplain' hrest hds
    rw [hrecords] at hus
    rw [← declared_append hkept₁ (hkept₂.trans hkept₃), ← declared_append hkept₂ hkept₃]
    exact ⟨_, .cons hv hus hws⟩

end

end Places

end Lower

end Typeward
