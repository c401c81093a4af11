import Typeward.Proofs.AliasHygiene
import Typeward.Proofs.Erasure
import Typeward.Proofs.ExactSplicing

/-!
# Suppressing checks

Splicing with checks and splicing without them answer the same tree up to the checks. Wherever
something is placed with checks, the same with its checks erased is placed without them: the alias
of the library stands nowhere in the module itself, so that nothing else is taken for a check. A
body keeps its documentation when checks are put into it, which is why the checks are found again
behind it.
-/

namespace Typeward

open Slots
open scoped List

namespace Splicer

variable {k : Splicer} {c : LowerContext}

/-- What is placed as a part is placed for a part. -/
theorem PlacesExprs.exists_of_mem_children {e u : Expr} {es' us : List Expr}
    {entries : List PlanEntry} (h : k.PlacesExprs c e.children es' entries us)
    (hu : u ∈ (e.withChildren us).children) :
    ∃ f ∈ e.children, ∃ f' first, k.PlacesExpr c f f' first u := by
  rw [Expr.children_withChildren e us h.length_eq.2] at hu
  obtain ⟨f, hf, f', -, first, hplaces⟩ := h.exists_of_mem hu
  exact ⟨f, hf, f', first, hplaces⟩

section Checked

variable (hskip : k.emitter.skipAsserts = false)

include hskip

/-- Where there are checks, a name is placed for a name. -/
theorem PlacesExpr.mentions_of_name {e e' u : Expr} {entries : List PlanEntry} {pos : Pos}
    {x : String} (h : k.PlacesExpr c e e' entries u) (hu : u = .name pos x) : e.Mentions x := by
  cases h with
  | cast => simp [Emitter.castCode, hskip, checkExpr, callExpr] at hu
  | @parts e es' entries us hcast hnumber hparts =>
    have hown := Expr.own_withChildren e us
    rw [hu] at hown
    exact .own (hown ▸ List.mem_cons_self)

/-- Where there are checks, an attribute of a name is placed for what mentions the name. -/
theorem PlacesExpr.mentions_of_attribute {e e' u : Expr} {entries : List PlanEntry} {pos q : Pos}
    {x attr : String} (h : k.PlacesExpr c e e' entries u)
    (hu : u = .attribute pos (.name q x) attr) : e.Mentions x := by
  cases h with
  | cast => simp [Emitter.castCode, hskip, checkExpr, callExpr] at hu
  | parts hcast hnumber hparts =>
    obtain ⟨f, hf, f', first, hplaces⟩ := hparts.exists_of_mem_children (u := .name q x)
      (hu ▸ List.mem_cons_self)
    exact .part hf (hplaces.mentions_of_name hskip rfl)

/-- Where there are checks, an expression that does not name the library becomes none of its checks
but by becoming a check as a cast. -/
theorem PlacesExprs.checked?_eq_none {e : Expr} {es' us : List Expr} {entries : List PlanEntry}
    (h : k.PlacesExprs c e.children es' entries us) (he : ¬ e.Mentions k.emitter.runtime) :
    (e.withChildren us).checked? k.emitter.runtime = none := by
  unfold Expr.checked?
  split
  · rename_i pos q q' id value type label decl heq
    split
    · rename_i hid
      subst hid
      have hfunc : .attribute q (.name q' k.emitter.runtime) "check" ∈
          (e.withChildren us).children := by
        rw [heq]
        exact List.mem_cons_self
      obtain ⟨f, hf, f', first, hplaces⟩ := h.exists_of_mem_children hfunc
      exact absurd (.part hf (hplaces.mentions_of_attribute hskip rfl)) he
    · rfl
  · rfl

end Checked

/-- The same splicer without checks. -/
def suppressed (k : Splicer) : Splicer := ⟨⟨k.emitter.runtime, true⟩, k.plan⟩

mutual

/-- Without checks an expression is placed with its checks erased. -/
theorem PlacesExpr.suppressed (hskip : k.emitter.skipAsserts = false) {e e' u : Expr}
    {entries : List PlanEntry} (he : ¬ e.Mentions k.emitter.runtime) :
    k.PlacesExpr c e e' entries u →
    k.suppressed.PlacesExpr c e e' entries (u.withoutChecks k.emitter.runtime)
  | @PlacesExpr.cast _ _ pos func type value _ _ _ _ _ _ _ _ hfunc hplain htype hdenote hlabel
      hentry hcode hvalue => by
    have hpart : value ∈ (Expr.call pos func [type, value] [] none).children :=
      List.mem_cons_of_mem _ (List.mem_cons_of_mem _ List.mem_cons_self)
    have hvalue' := hvalue.suppressed hskip fun h => he (.part hpart h)
    rw [Emitter.castCode, hskip, if_neg Bool.false_ne_true, Expr.withoutChecks_checkExpr]
    exact .cast (k := k.suppressed) hfunc hplain htype hdenote hlabel hentry hcode hvalue'
  | @PlacesExpr.parts _ _ e es' _ us hcast hnumber hparts => by
    have hlength := hparts.length_eq.2
    have hlength' : (us.map (·.withoutChecks k.emitter.runtime)).length = e.children.length := by
      rw [List.length_map, hlength]
    rw [Expr.withoutChecks_of_unchecked (hparts.checked?_eq_none hskip he),
      Expr.children_withChildren e us hlength, Expr.withChildren_withChildren e hlength hlength']
    exact .parts hcast hnumber (hparts.suppressed hskip fun f hf h => he (.part hf h))

/-- Without checks expressions are placed with their checks erased. -/
theorem PlacesExprs.suppressed (hskip : k.emitter.skipAsserts = false) {es es' us : List Expr}
    {entries : List PlanEntry} (hes : ∀ e ∈ es, ¬ e.Mentions k.emitter.runtime) :
    k.PlacesExprs c es es' entries us →
    k.suppressed.PlacesExprs c es es' entries (us.map (·.withoutChecks k.emitter.runtime))
  | .nil => .nil
  | .cons hfirst hrest =>
    .cons (hfirst.suppressed hskip (hes _ List.mem_cons_self))
      (hrest.suppressed hskip fun e he => hes e (List.mem_cons_of_mem _ he))

end

/-- Without checks what a value holds is placed with its checks erased. -/
theorem PlacesIn.suppressed {α : Type} [Slots α] [OverwritingSlots α]
    (hskip : k.emitter.skipAsserts = false) {a a' b : α} {entries : List PlanEntry}
    (ha : ∀ e ∈ slots a, ¬ e.Mentions k.emitter.runtime) (h : k.PlacesIn c a a' entries b) :
    k.suppressed.PlacesIn c a a' entries (eraseIn k.emitter.runtime b) := by
  cases h with
  | @intro es' _ us h =>
    have hlength := h.length_eq.2
    have hlength' : (us.map (·.withoutChecks k.emitter.runtime)).length = (slots a).length := by
      rw [List.length_map, hlength]
    rw [eraseIn, slots_refill a us hlength, OverwritingSlots.refill_refill a us _ hlength hlength']
    exact .intro (h.suppressed hskip ha)

/-- Parameters are erased kind by kind. -/
theorem eraseIn_parameters (runtime : String) (ps : Parameters Expr) :
    eraseIn runtime ps =
      { ps with
        positionalOnly := eraseIn runtime ps.positionalOnly
        positional := eraseIn runtime ps.positional
        keywordOnly := eraseIn runtime ps.keywordOnly } := by
  have hslots : (slots ps).map (·.withoutChecks runtime) =
      (slots ps.keywordOnly).map (·.withoutChecks runtime) ++
        ((slots ps.positionalOnly).map (·.withoutChecks runtime) ++
          (slots ps.positional).map (·.withoutChecks runtime)) := by
    rw [← List.map_append, ← List.map_append]
    rfl
  rw [eraseIn, hslots, refill_parameters (List.length_map _) (List.length_map _)]
  rfl

/-- Without checks the initial values of parameters are placed with their checks erased. -/
theorem PlacesParameters.suppressed (hskip : k.emitter.skipAsserts = false)
    {ps ps' qs : Parameters Expr} {entries : List PlanEntry}
    (hps : ∀ e ∈ slots ps, ¬ e.Mentions k.emitter.runtime)
    (h : k.PlacesParameters c ps ps' entries qs) :
    k.suppressed.PlacesParameters c ps ps' entries (eraseIn k.emitter.runtime qs) := by
  obtain ⟨hkeywordOnly, hps⟩ := List.forall_mem_append.1 hps
  obtain ⟨honly, hpositional⟩ := List.forall_mem_append.1 hps
  cases h with
  | intro h₁ h₂ h₃ =>
    rw [eraseIn_parameters]
    exact .intro (h₁.suppressed hskip honly) (h₂.suppressed hskip hpositional)
      (h₃.suppressed hskip hkeywordOnly)

/-- Bindings hold no checks. -/
theorem eraseIn_binding {runtime name : String} {code : Expr} (h : RenderedForm runtime code) :
    eraseIn runtime (Simple.assign [.name .synthetic name] code none) =
      .assign [.name .synthetic name] code none := by
  have hparts : eraseIn runtime (Simple.assign [.name .synthetic name] code none) =
      .assign [(Expr.name .synthetic name).withoutChecks runtime] (code.withoutChecks runtime)
        none := rfl
  rw [hparts, h.withoutChecks_eq, (RenderedForm.name name).withoutChecks_eq]

/-- Without checks a simple statement is placed with its checks erased. -/
theorem PlacesSimple.suppressed (hskip : k.emitter.skipAsserts = false) {pos : Pos}
    {t t' u : Simple} {entries : List PlanEntry}
    (ht : ∀ e ∈ slots t, ¬ e.Mentions k.emitter.runtime)
    (h : k.PlacesSimple c pos t t' entries u) :
    k.suppressed.PlacesSimple c pos t t' entries (eraseIn k.emitter.runtime u) := by
  cases h with
  | typeAlias hhint hdenote hentry hcode =>
    rw [eraseIn_binding (Emitter.renderedForm hcode)]
    exact .typeAlias (k := k.suppressed) hhint hdenote hentry hcode
  | reify hfunc hdenote hentry hcode =>
    have hform := Emitter.renderedForm hcode
    rw [eraseIn_binding (.call (by decide) (by simpa using hform) (by simp))]
    exact .reify (k := k.suppressed) hfunc hdenote hentry hcode
  | other hdeclares hnumber h => exact .other hdeclares hnumber (h.suppressed hskip ht)

/-- There are as many statements as before. -/
theorem PlacesAll.length_eq {known known' : List String} {ts ts' us : List Stmt}
    {entries : List PlanEntry} (h : k.PlacesAll c known ts ts' entries us known') :
    us.length = ts.length := by
  induction ts generalizing known ts' us entries with
  | nil => cases h with | nil => rfl
  | cons t rest ih =>
    cases h with
    | cons hfirst hrest => exact congrArg (· + 1) (ih hrest)

/-- The documentation of a suite is no longer than what is placed for it. -/
theorem PlacesAll.docstringLength_le {known known' : List String} {ts ts' us : List Stmt}
    {entries : List PlanEntry} (h : k.PlacesAll c known ts ts' entries us known') :
    docstringLength ts ≤ us.length := by
  rw [h.length_eq]
  unfold docstringLength
  cases ts with
  | nil => simp [docstring?]
  | cons t rest => split <;> simp

/-- Whether a suite is documented depends on its first statement. -/
theorem docstringLength_cons (t : Stmt) (rest rest' : List Stmt) :
    docstringLength (t :: rest) = docstringLength (t :: rest') := by
  have hsome : (docstring? (t :: rest)).isSome = (docstring? (t :: rest')).isSome := by
    rw [Bool.eq_iff_iff, docstring?_cons_isSome, docstring?_cons_isSome]
  rw [docstringLength, hsome, docstringLength]

/-- With checks in it a body keeps its documentation. -/
theorem PlacesChecks.docstringLength_eq (hskip : k.emitter.skipAsserts = false) {pos : Pos}
    {known known' : List String} {body body' us checks : List Stmt}
    {entries third : List PlanEntry} (hchecks : k.PlacesChecks pos entries checks)
    (hbody : k.PlacesAll c known body body' third us known') :
    docstringLength (us.take (docstringLength body) ++ checks ++ us.drop (docstringLength body)) =
      docstringLength body := by
  have hkept := hbody.docstringLength_eq hskip
  have hlength : docstringLength body = 0 ∨ docstringLength body = 1 := by
    unfold docstringLength
    split <;> simp
  rcases hlength with hzero | hone
  · rw [hzero] at hkept ⊢
    cases hchecks with
    | skipped hskipped => exact absurd (hskip.symm.trans hskipped) Bool.false_ne_true
    | checked _ h =>
      cases h with
      | nil => exact hkept
      | cons hfirst hrest =>
        obtain ⟨p, type, -, -, rfl⟩ := hfirst
        rfl
  · rw [hone] at hkept ⊢
    cases us with
    | nil => cases hkept
    | cons u rest => exact (docstringLength_cons u (checks ++ rest) rest).trans hkept

/-- Checks are erased from parameters whether their hints are left out or not. -/
theorem eraseIn_map_stripHint (runtime : String) (ps : List (Parameter Expr)) :
    eraseIn runtime (ps.map stripHint) = (eraseIn runtime ps).map stripHint := by
  induction ps with
  | nil => rfl
  | cons p rest ih =>
    rw [List.map_cons, eraseIn_cons, eraseIn_cons, ih, List.map_cons]
    rfl

/-- Checks are erased from the header of a function whether its hints are left out or not. -/
theorem eraseIn_stripHints (runtime : String) (head : FunctionHead) :
    eraseIn runtime (stripHints head).params =
      (stripHints { head with params := eraseIn runtime head.params }).params := by
  rw [eraseIn_parameters, eraseIn_parameters]
  simp only [stripHints, eraseIn_map_stripHint]

/-- A function loses the checks of its parameters, and is erased otherwise. -/
theorem withoutChecks_function {runtime : String} {p : Plan} {pos : Pos} {head : FunctionHead}
    {number n : Nat} {us checks : List Stmt} (hdecl : head.decl = some number)
    (hchecks : checks.length = (p.ofDeclaration number).length) (hn : n ≤ us.length)
    (hdocstring : docstringLength (us.take n ++ checks ++ us.drop n) = n) :
    (Stmt.function pos (stripHints head) (us.take n ++ checks ++ us.drop n)).withoutChecks
        runtime p =
      .function pos
        (stripHints { head with
          params := eraseIn runtime head.params
          decorators := eraseIn runtime head.decorators })
        (Stmt.allWithoutChecks runtime p us) := by
  have hcount : (stripHints head).decl.elim 0 (fun number => (p.ofDeclaration number).length) =
      checks.length := by
    have hnumber : (stripHints head).decl = some number := hdecl
    rw [hnumber, hchecks]
    rfl
  have hbody (f : Stmt → Stmt) :
      ((us.take n ++ checks ++ us.drop n).map f).take n ++
        ((us.take n ++ checks ++ us.drop n).map f).drop (n + checks.length) = us.map f := by
    have hfirst : (us.take n).length = n := by
      rw [List.length_take]
      omega
    have hboth : (us.take n ++ checks).length = n + checks.length := by
      rw [List.length_append, hfirst]
    rw [← List.map_take, ← List.map_drop, List.drop_left' hboth, List.append_assoc,
      List.take_left' hfirst, ← List.map_append, List.take_append_drop]
  rw [Stmt.withoutChecks, hdocstring, hcount, eraseIn_stripHints, Stmt.allWithoutChecks_eq_map,
    Stmt.allWithoutChecks_eq_map, hbody]
  rfl

/-- There are as many checks as entries. -/
theorem PlacesChecks.length_eq (hskip : k.emitter.skipAsserts = false) {pos : Pos}
    {entries : List PlanEntry} {ts : List Stmt} (h : k.PlacesChecks pos entries ts) :
    ts.length = entries.length := by
  cases h with
  | skipped hskipped => exact absurd (hskip.symm.trans hskipped) Bool.false_ne_true
  | checked _ h => exact h.length_eq.symm

mutual

/-- Without checks a statement is placed with its checks erased. -/
theorem PlacesStmt.suppressed (hskip : k.emitter.skipAsserts = false) {c : LowerContext}
    {known known' : List String} {t t' u : Stmt} {entries : List PlanEntry}
    (h : ∀ v ∈ t.nodes, v.Avoids k.emitter.runtime) :
    k.PlacesStmt c known t t' entries u known' →
    k.suppressed.PlacesStmt c known t t' entries (u.withoutChecks k.emitter.runtime k.plan) known'
  | .simple hplaces => .simple (hplaces.suppressed hskip (h _ (List.mem_singleton_self _)))
  | .function hnumber hdecorators hparams htyped hentries hchecks hbody => by
    obtain ⟨hheld, havoids⟩ := List.forall_mem_cons.1 h
    obtain ⟨hheld₁, hheld₂⟩ := List.forall_mem_append.1 hheld
    have hcount := (hchecks.length_eq hskip).trans (congrArg List.length hentries.entries_eq.symm)
    rw [withoutChecks_function rfl hcount hbody.docstringLength_le
      (hchecks.docstringLength_eq hskip hbody)]
    have hplaces := PlacesStmt.function hnumber (hdecorators.suppressed hskip hheld₁)
      (hparams.suppressed hskip hheld₂) htyped hentries
      (PlacesChecks.skipped (k := k.suppressed) rfl) (hbody.suppressed hskip havoids)
    rwa [List.append_nil, List.take_append_drop] at hplaces
  | .record hrecord hentry hcode => by
    rw [Stmt.withoutChecks, eraseIn_binding (Emitter.renderedForm hcode)]
    exact .record (k := k.suppressed) hrecord hentry hcode
  | .classDef hrecord hnumber hbases hkeywords hbody hdecorators => by
    obtain ⟨hheld, havoids⟩ := List.forall_mem_cons.1 h
    obtain ⟨hheld, hheld₃⟩ := List.forall_mem_append.1 hheld
    obtain ⟨hheld₁, hheld₂⟩ := List.forall_mem_append.1 hheld
    exact .classDef hrecord hnumber (hbases.suppressed hskip hheld₁)
      (hkeywords.suppressed hskip hheld₂) (hbody.suppressed hskip havoids)
      (hdecorators.suppressed hskip hheld₃)
  | .guarded hguard htest hbody horelse => by
    obtain ⟨hheld, havoids⟩ := List.forall_mem_cons.1 h
    obtain ⟨havoids₁, havoids₂⟩ := List.forall_mem_append.1 havoids
    rw [Stmt.withoutChecks, eraseIn_of_avoids hheld,
      Stmt.allWithoutChecks_eq_self _ hbody havoids₁]
    exact .guarded hguard htest hbody (horelse.suppressed hskip havoids₂)
  | .branch hguard htest hbody horelse => by
    obtain ⟨hheld, havoids⟩ := List.forall_mem_cons.1 h
    obtain ⟨havoids₁, havoids₂⟩ := List.forall_mem_append.1 havoids
    exact .branch hguard (htest.suppressed hskip hheld) (hbody.suppressed hskip havoids₁)
      (horelse.suppressed hskip havoids₂)
  | .compound hclauses => by
    obtain ⟨hheads, havoids⟩ := List.forall_mem_cons.1 h
    exact .compound (hclauses.suppressed hskip (fun clause hclause e he =>
      hheads e (List.mem_flatMap.2 ⟨clause, hclause, he⟩)) havoids)

/-- Without checks statements are placed with their checks erased. -/
theorem PlacesAll.suppressed (hskip : k.emitter.skipAsserts = false) {c : LowerContext}
    {known known' : List String} {ts ts' us : List Stmt} {entries : List PlanEntry}
    (h : ∀ v ∈ Stmt.allNodes ts, v.Avoids k.emitter.runtime) :
    k.PlacesAll c known ts ts' entries us known' →
    k.suppressed.PlacesAll c known ts ts' entries
      (Stmt.allWithoutChecks k.emitter.runtime k.plan us) known'
  | .nil => .nil
  | .cons hfirst hrest => by
    obtain ⟨havoids₁, havoids₂⟩ := List.forall_mem_append.1 h
    exact .cons (hfirst.suppressed hskip havoids₁) (hrest.suppressed hskip havoids₂)

/-- Without checks clauses are placed with their checks erased. -/
theorem PlacesClauses.suppressed (hskip : k.emitter.skipAsserts = false) {c : LowerContext}
    {known known' : List String} {clauses clauses' us : List (Clause Stmt)}
    {entries : List PlanEntry}
    (hheads : ∀ clause ∈ clauses, ∀ e ∈ slots clause.head, ¬ e.Mentions k.emitter.runtime)
    (h : ∀ v ∈ Stmt.clauseNodes clauses, v.Avoids k.emitter.runtime) :
    k.PlacesClauses c known clauses clauses' entries us known' →
    k.suppressed.PlacesClauses c known clauses clauses' entries
      (Stmt.clausesWithoutChecks k.emitter.runtime k.plan us) known'
  | .nil => .nil
  | .cons hhead hbody hrest => by
    obtain ⟨hheld, hheads⟩ := List.forall_mem_cons.1 hheads
    obtain ⟨havoids₁, havoids₂⟩ := List.forall_mem_append.1 h
    exact .cons (hhead.suppressed hskip hheld) (hbody.suppressed hskip havoids₁)
      (hrest.suppressed hskip hheads havoids₂)

end

end Splicer

/-- The emitter for options has the given alias, with checks or without them. -/
theorem Emitter.ofOptions_skipAsserts (options : Options) (runtime : Option String) (skip : Bool) :
    Emitter.ofOptions { options with skipAsserts := skip } runtime =
      ⟨(Emitter.ofOptions options runtime).runtime, skip⟩ := by
  unfold ofOptions
  split <;> rfl

/-- Without checks the entries that count are those that bind something. -/
theorem Emitter.counted_eq_nil_iff {m : Emitter} (hskip : m.skipAsserts = true)
    {entries : List PlanEntry} :
    m.counted entries = [] ↔ ∀ entry ∈ entries, entry.mode = .assert := by
  simp [counted, counts, hskip]

/-- What is emitted for counted entries is nothing just where no entry counts. -/
theorem emitted_eq_nil_iff {m : Emitter} {emitted entries : List PlanEntry}
    (h : emitted ~ m.counted entries) : emitted = [] ↔ m.counted entries = [] := by
  constructor
  · rintro rfl
    exact h.nil_eq.symm
  · intro hnil
    rw [hnil] at h
    exact h.eq_nil

/-- What can be planned and placed compiles, with checks or without them. -/
theorem compileLowered_of_placesAll (options : Options) {lowered : Lowered} {runtime : String}
    {r r' : Registry} {p : Plan} {c : LowerContext} {tree m : Module} {known : List String}
    (hallocate : (Registry.ofModule lowered.scope.bindings lowered.scope.reserved).allocate
      options.runtimeAlias = (runtime, r))
    (hplan : plan r lowered.declarations = .ok (p, r')) {emitter : Emitter}
    (hemitter : Emitter.ofOptions options (some runtime) = emitter)
    (hplaces : (⟨emitter, p⟩ : Splicer).PlacesAll c [] tree lowered.tree p.entries m known) :
    ∃ emitted, compileLowered options lowered = .ok
      ⟨⟨if emitter.counted p.entries = [] then m
        else insertImport (runtimeImport emitter.runtime options.runtimeModule) m, emitted⟩,
        p, r'.definitions.map (·.name), emitter.runtime⟩ := by
  subst hemitter
  obtain ⟨emitted, hperm, hspliced⟩ := hplaces.splice_eq options.runtimeModule
  have hnone := emitted_eq_nil_iff hperm
  have hcompile := compileLowered_of_plan hallocate hplan hspliced
  simp only [hnone] at hcompile
  exact ⟨emitted, hcompile⟩

/-- A lowered module that cannot be planned fails with and without checks. Otherwise the plans
agree, and the tree without checks is the erased tree, with the import of the library just where the
plan has an entry that binds something. -/
theorem compileLowered_suppressed {tree : Module} {file : String}
    {comments : List (Nat × String)} {options : Options} {lowered : Lowered}
    (hplain : Stmt.AllUnnumbered tree)
    (hlower : lowerTree tree file comments options = .ok lowered) :
    (∃ failure, ∀ skip,
      compileLowered { options with skipAsserts := skip } lowered = .error failure) ∨
    ∃ c c' m, compileLowered { options with skipAsserts := false } lowered = .ok c ∧
      compileLowered { options with skipAsserts := true } lowered = .ok c' ∧
      c'.plan = c.plan ∧ c'.definitions = c.definitions ∧ c'.runtime = c.runtime ∧
      c.spliced.tree =
        (if c.plan.entries = [] then m
        else insertImport (runtimeImport c.runtime options.runtimeModule) m) ∧
      c'.spliced.tree =
        if ∀ entry ∈ c.plan.entries, entry.mode = .assert then
          Stmt.allWithoutChecks c.runtime c.plan m
        else insertImport (runtimeImport c.runtime options.runtimeModule)
          (Stmt.allWithoutChecks c.runtime c.plan m) := by
  obtain ⟨-, -, -, hscope, -⟩ := lowerTree_eq_ok hlower
  rcases hallocate : (Registry.ofModule lowered.scope.bindings lowered.scope.reserved).allocate
    options.runtimeAlias with ⟨runtime, r⟩
  cases hplan : plan r lowered.declarations with
  | error fault =>
    left
    exact ⟨.ofFault fault, fun skip => compileLowered_of_plan_error hallocate hplan⟩
  | ok result =>
    obtain ⟨p, r'⟩ := result
    right
    let k : Splicer := ⟨⟨(Emitter.ofOptions options (some runtime)).runtime, false⟩, p⟩
    have hmentions : ¬ tree.Mentions k.emitter.runtime := by
      rw [hscope] at hallocate
      exact (runtime_spec hallocate).2
    have havoids : ∀ t ∈ Stmt.allNodes tree, t.Avoids k.emitter.runtime := fun t ht e he h =>
      hmentions (Stmt.mentions_of_mem_allNodes ht (Stmt.mentions_of_mem_held he h))
    obtain ⟨m, known, hplaces⟩ := exists_placesAll hplain hlower hplan k.emitter
    have hplaces' : k.suppressed.PlacesAll _ [] tree lowered.tree p.entries
        (Stmt.allWithoutChecks k.emitter.runtime p m) known := hplaces.suppressed rfl havoids
    obtain ⟨emitted, hcompile⟩ :=
      compileLowered_of_placesAll { options with skipAsserts := false } hallocate hplan
        (Emitter.ofOptions_skipAsserts options (some runtime) false) hplaces
    obtain ⟨emitted', hcompile'⟩ :=
      compileLowered_of_placesAll { options with skipAsserts := true } hallocate hplan
        (Emitter.ofOptions_skipAsserts options (some runtime) true) hplaces'
    simp only [Emitter.counted_eq_self] at hcompile
    simp only [Emitter.counted_eq_nil_iff] at hcompile'
    exact ⟨_, _, m, hcompile, hcompile', rfl, rfl, rfl, rfl, rfl⟩

/-- Suppressing checks only erases them. A module that does not compile fails with and without
checks, in one way. Otherwise the plans and definitions agree, and the tree without checks is the
tree with checks erased, but for the import of the library. Without checks that stands there just if
the plan has an entry that binds something. -/
theorem suppression_erases {tree : Module} (file : String) (comments : List (Nat × String))
    (options : Options) (hplain : Stmt.AllUnnumbered tree) :
    (∃ failure, ∀ skip,
      compileTree tree file comments { options with skipAsserts := skip } = .error failure) ∨
    ∃ c c' m, compileTree tree file comments { options with skipAsserts := false } = .ok c ∧
      compileTree tree file comments { options with skipAsserts := true } = .ok c' ∧
      c'.plan = c.plan ∧ c'.definitions = c.definitions ∧ c'.runtime = c.runtime ∧
      c.spliced.tree =
        (if c.plan.entries = [] then m
        else insertImport (runtimeImport c.runtime options.runtimeModule) m) ∧
      c'.spliced.tree =
        if ∀ entry ∈ c.plan.entries, entry.mode = .assert then
          Stmt.allWithoutChecks c.runtime c.plan m
        else insertImport (runtimeImport c.runtime options.runtimeModule)
          (Stmt.allWithoutChecks c.runtime c.plan m) := by
  -- Lowering does not look at whether checks are wanted.
  have hcompile (skip : Bool) :
      compileTree tree file comments { options with skipAsserts := skip } =
        lowerTree tree file comments options >>=
          compileLowered { options with skipAsserts := skip } := rfl
  simp only [hcompile]
  cases hlower : lowerTree tree file comments options with
  | error failure =>
    left
    exact ⟨failure, fun skip => rfl⟩
  | ok lowered => exact compileLowered_suppressed hplain hlower

/-- Without checks the function keeps its body, and nothing is imported. -/
theorem suppression_erases_widget :
    ∃ c c' m, compileTree (classTree "Widget" "Widget") "m.py" [] {} = .ok c ∧
      compileTree (classTree "Widget" "Widget") "m.py" [] { skipAsserts := true } = .ok c' ∧
      c'.plan = c.plan ∧ c.plan.entries ≠ [] ∧
      c.spliced.tree = insertImport (runtimeImport "t" "typecomb.runtime") m ∧
      c'.spliced.tree = Stmt.allWithoutChecks "t" c.plan m := by
  have hscope : Scope.ofModule "m.py" (classTree "Widget" "Widget") = widgetScope := by
    with_unfolding_all rfl
  have hlower := lowerTree_classTree hscope denote_widget
  obtain ⟨c, hlowered, hruntime, hentries, hassert⟩ : ∃ c,
      compileLowered {} (classModule "Widget" "Widget" widgetScope) = .ok c ∧ c.runtime = "t" ∧
        c.plan.entries ≠ [] ∧ ∀ entry ∈ c.plan.entries, entry.mode = .assert :=
    ⟨_, rfl, rfl, List.cons_ne_nil _ _, List.forall_mem_singleton.2 rfl⟩
  have hcompile : compileTree (classTree "Widget" "Widget") "m.py" [] {} = .ok c :=
    Except.bind_eq_ok.2 ⟨_, hlower, hlowered⟩
  rcases suppression_erases "m.py" [] {} (allUnnumbered_classTree "Widget" "Widget") with
    ⟨failure, hfailure⟩ | ⟨c₁, c', m, h, h', hplan, -, -, htree, htree'⟩
  · cases hcompile.symm.trans (hfailure false)
  · obtain rfl := Except.ok.inj (hcompile.symm.trans h)
    rw [if_neg hentries, hruntime] at htree
    rw [if_pos hassert, hruntime] at htree'
    exact ⟨c, c', m, hcompile, h', hplan, hentries, htree, htree'⟩

end Typeward
