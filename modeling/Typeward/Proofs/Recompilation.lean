import Typeward.Proofs.AliasHygiene
import Typeward.Proofs.SettledTrees
import Typeward.Proofs.SpecialForms

/-!
# Compiling again

The output of the compiler is settled, so it compiles to itself. Hints and declarations are gone
after one pass, checks and bindings are code of the library, and the output calls special forms as
the module does, since the imports are kept and the library exports no special form. Without checks
a cast leaves its value, which is settled unless it is a special form or asks for the model of a
type.
-/

namespace Typeward

open Slots Splicer

/-- The special forms that lowering looks for. -/
def declaringForms : List String := ["cast", "reify", "TypeAlias", "TypedDict"]

/-- An expression with a chain of attributes behind it. -/
def Expr.access (e : Expr) (attrs : List String) : Expr := attrs.foldl (.attribute .synthetic) e

/-- A cast of something that is a special form, leads to one by attributes, or asks for the model of
a type. -/
def Expr.Wraps (c : LowerContext) : Expr → Prop
  | .call _ _ [_, value] [] (some _) =>
    callsSpecial c "reify" value = true ∨
      ∃ attrs, ∃ form ∈ declaringForms, c.scope.canonical (value.access attrs) = some form
  | _ => False

/-- No cast in a statement wraps a special form or is assigned to. -/
structure Stmt.WrapsNothing (c : LowerContext) (t : Stmt) : Prop where
  held : ∀ e ∈ t.held, e.Everywhere (¬ ·.Wraps c)
  targets : ∀ pos s, t = .simple pos s → ∀ e ∈ s.targets, e.number? = none

/-- What is around a statement does not matter for the casts in it. -/
theorem Stmt.WrapsNothing.inside {c : LowerContext} {t : Stmt} (h : t.WrapsNothing c) :
    t.WrapsNothing c.inside :=
  ⟨h.held, h.targets⟩

namespace Scope

variable {s : Scope} {e f : Expr}

/-- What a chain of attributes refers to depends on the names at its start. -/
theorem canonical_access_congr (hdotted : e.dotted? = f.dotted?)
    (hcanonical : s.canonical e = s.canonical f) (attrs : List String) :
    s.canonical (e.access attrs) = s.canonical (f.access attrs) := by
  induction attrs generalizing e f with
  | nil => exact hcanonical
  | cons attr rest ih =>
    refine ih (e := .attribute .synthetic e attr) (f := .attribute .synthetic f attr) ?_ ?_
    · simp only [Expr.dotted?, hdotted]
    · simp only [canonical, hdotted]

/-- A chain of attributes on something that is no chain itself refers to no special form. -/
theorem canonical_access_eq_none (hdotted : e.dotted? = none) (hcanonical : s.canonical e = none)
    (attrs : List String) : s.canonical (e.access attrs) = none := by
  induction attrs generalizing e with
  | nil => exact hcanonical
  | cons attr rest ih =>
    refine ih (e := .attribute .synthetic e attr) ?_ ?_
    · simp only [Expr.dotted?, hdotted, Option.map_none]
    · simp only [canonical, hdotted]

end Scope

/-- An expression is a name, an attribute, or refers to nothing, whatever its parts are. -/
theorem Expr.chain_cases (e : Expr) :
    (∃ pos id, e = .name pos id) ∨ (∃ pos base attr, e = .attribute pos base attr) ∨
      ∀ es, (e.withChildren es).dotted? = none ∧
        ∀ s : Scope, s.canonical (e.withChildren es) = none := by
  cases e
  case name pos id => exact .inl ⟨pos, id, rfl⟩
  case «attribute» pos base attr => exact .inr (.inl ⟨pos, base, attr, rfl⟩)
  all_goals exact .inr (.inr fun es => ⟨rfl, fun s => rfl⟩)

namespace Splicer

variable {k : Splicer} {c d : LowerContext} {form : String}

/-- If what is placed leads to a special form then so does what it is placed for, unless a cast
wraps it. -/
theorem PlacesExpr.canonical_access {e e' u : Expr} {entries : List PlanEntry}
    (hform : form ∈ declaringForms)
    (hwraps : k.emitter.skipAsserts = true → e'.Everywhere (¬ ·.Wraps c))
    (h : k.PlacesExpr c e e' entries u) (attrs : List String)
    (hu : c.scope.canonical (u.access attrs) = some form) :
    c.scope.canonical (e.access attrs) = some form ∧
      c.scope.canonical (e'.access attrs) = some form := by
  induction hsize : sizeOf e using Nat.strongRecOn generalizing e e' u entries attrs with
  | ind size ih =>
    subst hsize
    cases h with
    | @cast pos func type value value' u number t label entry entries code hfunc hplain htype
        hdenote hlabel hentry hcode hvalue =>
      have hlt : sizeOf value < sizeOf (Expr.call pos func [type, value] [] none) :=
        Expr.sizeOf_lt_of_mem_children
          (List.mem_cons_of_mem _ (List.mem_cons_of_mem _ List.mem_cons_self))
      have hpart : value' ∈ (Expr.call pos func [type, value'] [] (some number)).children :=
        List.mem_cons_of_mem _ (List.mem_cons_of_mem _ List.mem_cons_self)
      unfold Emitter.castCode at hu
      split at hu
      · rename_i hskip
        obtain ⟨-, hwrapped⟩ := ih _ hlt (fun hskip => (hwraps hskip).of_mem_children hpart)
          hvalue attrs hu rfl
        exact absurd (.inr ⟨attrs, form, hform, hwrapped⟩) (hwraps hskip).here
      · rw [Scope.canonical_access_eq_none rfl rfl] at hu
        cases hu
    | @parts _ es' _ us hcast hnumber hparts =>
      rcases e.chain_cases with ⟨pos, id, rfl⟩ | ⟨pos, base, attr, rfl⟩ | hnone
      · cases hparts with
        | nil => exact ⟨hu, hu⟩
      · have hmove (f : Expr) : c.scope.canonical ((Expr.attribute pos f attr).access attrs) =
            c.scope.canonical ((Expr.attribute .synthetic f attr).access attrs) :=
          Scope.canonical_access_congr (e := .attribute pos f attr)
            (f := .attribute .synthetic f attr) rfl rfl attrs
        have hlt : sizeOf base < sizeOf (Expr.attribute pos base attr) :=
          Expr.sizeOf_lt_of_mem_children List.mem_cons_self
        cases hparts with
        | @cons _ base' v _ _ _ _ _ hfirst hrest =>
          cases hrest with
          | nil =>
            obtain ⟨hbase, hbase'⟩ := ih _ hlt
              (fun hskip => (hwraps hskip).of_mem_children List.mem_cons_self) hfirst
              (attr :: attrs) ((hmove v).symm.trans hu) rfl
            exact ⟨(hmove base).trans hbase, (hmove base').trans hbase'⟩
      · rw [Scope.canonical_access_eq_none (hnone us).1 ((hnone us).2 _)] at hu
        cases hu

/-- If what is placed with other parts calls a special form then so does what it is placed for. -/
theorem PlacesExprs.callsSpecial {e : Expr} {es' us : List Expr} {entries : List PlanEntry}
    (hform : form ∈ declaringForms)
    (hwraps : k.emitter.skipAsserts = true → (e.withChildren es').Everywhere (¬ ·.Wraps c))
    (h : k.PlacesExprs c e.children es' entries us)
    (hu : callsSpecial c form (e.withChildren us) = true) :
    callsSpecial c form e = true ∧ callsSpecial c form (e.withChildren es') = true := by
  cases e with
  | call pos func args keywords decl =>
    cases h with
    | @cons _ func' v _ _ _ _ _ hfirst hrest =>
      have hcall (f : Expr) (args keywords) :
          Typeward.callsSpecial c form (.call pos f args keywords decl) = true ↔
            c.scope.canonical f = some form := beq_iff_eq
      have hfunc : c.scope.canonical v = some form := (hcall v _ _).1 hu
      obtain ⟨h₁, h₂⟩ := hfirst.canonical_access hform
        (fun hskip => (hwraps hskip).of_mem_children List.mem_cons_self) [] hfunc
      exact ⟨(hcall func _ _).2 h₁, (hcall func' _ _).2 h₂⟩
  | _ => cases hu

/-- If what is placed asks for the model of a type then so does what it is placed for, unless a cast
wraps it. -/
theorem PlacesExpr.calls_reify {e e' u : Expr} {entries : List PlanEntry}
    (hwraps : k.emitter.skipAsserts = true → e'.Everywhere (¬ ·.Wraps c)) :
    k.PlacesExpr c e e' entries u → callsSpecial c "reify" u = true →
      callsSpecial c "reify" e = true ∧ callsSpecial c "reify" e' = true
  | @PlacesExpr.cast _ _ pos func type value value' u number t label entry entries code hfunc _ _ _
      _ _ _ hvalue, hu => by
    have hpart : value' ∈ (Expr.call pos func [type, value'] [] (some number)).children :=
      List.mem_cons_of_mem _ (List.mem_cons_of_mem _ List.mem_cons_self)
    unfold Emitter.castCode at hu
    split at hu
    · rename_i hskip
      obtain ⟨-, hwrapped⟩ := hvalue.calls_reify
        (fun hskip => (hwraps hskip).of_mem_children hpart) hu
      exact absurd (.inl hwrapped) (hwraps hskip).here
    · have hcheck : c.scope.canonical (runtimeExpr k.emitter.runtime "check") ≠ some "reify" := by
        unfold Scope.canonical runtimeExpr
        dsimp only [Expr.dotted?]
        split <;> simp
      exact absurd (beq_iff_eq.1 hu) hcheck
  | .parts hcast hnumber hparts, hu => hparts.callsSpecial (by decide) hwraps hu

end Splicer

section Settled

variable {k : Splicer} {c d : LowerContext} {form : String}

/-- Contexts that call special forms alike find the same calls of them. -/
theorem callsSpecial_of_forms_eq (hforms : d.scope.forms = c.scope.forms)
    (hform : form ∈ declaringForms) {e : Expr} (h : callsSpecial d form e = true) :
    callsSpecial c form e = true := by
  have hbuiltin : ∀ form ∈ declaringForms, form ∉ builtinTypeNames := by decide
  cases e with
  | call pos func args keywords decl =>
    exact beq_iff_eq.2 (Scope.canonical_of_forms_eq hforms (hbuiltin form hform) (beq_iff_eq.1 h))
  | _ => cases h

/-- A call of the runtime library is no special form if the library is no special module. -/
theorem callsSpecial_runtimeExpr {runtime function : String} {pos : Pos} {args : List Expr}
    {keywords : List (Keyword Expr)} {decl : Option Nat}
    (hruntime : runtime ∉ d.scope.specialModules) :
    callsSpecial d form (.call pos (runtimeExpr runtime function) args keywords decl) = false := by
  have hnone : d.scope.canonical (runtimeExpr runtime function) = none := by
    simp [Scope.canonical, runtimeExpr, Expr.dotted?, hruntime]
  rw [callsSpecial, hnone]
  rfl

/-- Rendered code is settled. -/
theorem RenderedForm.settled {runtime : String} {e : Expr} (h : RenderedForm runtime e)
    (hruntime : runtime ∉ d.scope.specialModules) : e.Settled d := by
  refine h.callsLibrary.mono fun e he => ?_
  cases e with
  | call pos func args keywords decl =>
    obtain ⟨hnumber, function, rfl, -⟩ := he
    exact ⟨callsSpecial_runtimeExpr hruntime, hnumber⟩
  | _ => exact ⟨rfl, rfl⟩

/-- A check of settled expressions is settled. -/
theorem settled_checkExpr {runtime : String} {value type : Expr} {label : Option String}
    (hruntime : runtime ∉ d.scope.specialModules) (hvalue : value.Settled d)
    (htype : type.Settled d) : (checkExpr runtime value type label).Settled d := by
  have hfunc : (runtimeExpr runtime "check").Settled d :=
    RenderedForm.settled (.access "check" (.name runtime)) hruntime
  have hlabel : (nameConstant label).Settled d := RenderedForm.settled (.constant _) hruntime
  refine .node ⟨callsSpecial_runtimeExpr hruntime, rfl⟩ fun e he => ?_
  rcases BoundedSlots.mem_pair.1 he with he | he
  · rwa [List.mem_singleton.1 he]
  · rcases BoundedSlots.mem_pair.1 he with he | he
    · have hall : ∀ e ∈ [value, type, nameConstant label], e.Settled d := by simp [*]
      exact hall e (mem_slots_list.1 he)
    · exact absurd he List.not_mem_nil

namespace Splicer

/-- Where the output of a splicer is compiled again, special forms are called as before, and the
runtime library is none of the modules that export them. -/
structure Recompiles (k : Splicer) (c d : LowerContext) : Prop where
  forms : c.scope.forms = d.scope.forms
  runtime : k.emitter.runtime ∉ c.scope.specialModules

/-- Around definitions special forms are called as outside. -/
theorem Recompiles.inside (h : k.Recompiles c d) : k.Recompiles c.inside d.inside :=
  ⟨h.forms, h.runtime⟩

/-- The runtime library is no special module afterwards either. -/
theorem Recompiles.runtime_again (h : k.Recompiles c d) :
    k.emitter.runtime ∉ d.scope.specialModules := by
  rw [← (Forms.mk.inj h.forms).2]
  exact h.runtime

mutual

/-- What is placed for an expression is settled, unless a cast wraps a special form. -/
theorem PlacesExpr.settled (hagain : k.Recompiles c d) {e e' u : Expr} {entries : List PlanEntry}
    (hwraps : k.emitter.skipAsserts = true → e'.Everywhere (¬ ·.Wraps c)) :
    k.PlacesExpr c e e' entries u → u.Settled d
  | @PlacesExpr.cast _ _ pos func type value value' u number t label entry entries code hfunc _ _ _
      _ _ hcode hvalue => by
    have hpart : value' ∈ (Expr.call pos func [type, value'] [] (some number)).children :=
      List.mem_cons_of_mem _ (List.mem_cons_of_mem _ List.mem_cons_self)
    have hsettled := hvalue.settled hagain fun hskip => (hwraps hskip).of_mem_children hpart
    unfold Emitter.castCode
    split
    · exact hsettled
    · exact settled_checkExpr hagain.runtime_again hsettled
        ((Emitter.renderedForm hcode).settled hagain.runtime_again)
  | @PlacesExpr.parts _ _ e es' _ us hcast hnumber hparts => by
    have hlength := hparts.length_eq
    have hnone : callsSpecial d "cast" (e.withChildren us) = false := by
      by_contra hcalls
      have hcalls' := callsSpecial_of_forms_eq hagain.forms.symm (by decide)
        (Bool.of_not_eq_false hcalls)
      rw [(hparts.callsSpecial (by decide) hwraps hcalls').1] at hcast
      cases hcast
    have hparts' := hparts.settled hagain fun hskip f hf => (hwraps hskip).of_mem_children
      (by rwa [Expr.children_withChildren e es' hlength.1])
    refine .node ⟨hnone, by rw [Expr.number?_withChildren, hnumber]⟩ fun f hf => ?_
    rw [Expr.children_withChildren e us hlength.2] at hf
    exact hparts' f hf

/-- What is placed for expressions is settled, unless a cast wraps a special form. -/
theorem PlacesExprs.settled (hagain : k.Recompiles c d) {es es' us : List Expr}
    {entries : List PlanEntry}
    (hwraps : k.emitter.skipAsserts = true → ∀ e ∈ es', e.Everywhere (¬ ·.Wraps c)) :
    k.PlacesExprs c es es' entries us → ∀ u ∈ us, u.Settled d
  | .nil => fun _ hu => absurd hu List.not_mem_nil
  | .cons hfirst hrest => List.forall_mem_cons.2
      ⟨hfirst.settled hagain fun hskip => hwraps hskip _ List.mem_cons_self,
        hrest.settled hagain fun hskip e he => hwraps hskip e (List.mem_cons_of_mem _ he)⟩

end

/-- What is placed in a value is settled, unless a cast wraps a special form. -/
theorem PlacesIn.settled {α : Type} [Slots α] (hagain : k.Recompiles c d) {a a' b : α}
    {entries : List PlanEntry}
    (hwraps : k.emitter.skipAsserts = true → ∀ e ∈ slots a', e.Everywhere (¬ ·.Wraps c))
    (h : k.PlacesIn c a a' entries b) : ∀ u ∈ slots b, u.Settled d := by
  cases h with
  | @intro es' _ us h =>
    rw [slots_refill a es' h.length_eq.1] at hwraps
    rw [slots_refill a us h.length_eq.2]
    exact h.settled hagain hwraps

/-- What is placed as initial values is settled, unless a cast wraps a special form. -/
theorem PlacesParameters.settled (hagain : k.Recompiles c d) {ps ps' qs : Parameters Expr}
    {entries : List PlanEntry}
    (hwraps : k.emitter.skipAsserts = true → ∀ e ∈ slots ps', e.Everywhere (¬ ·.Wraps c))
    (h : k.PlacesParameters c ps ps' entries qs) : ∀ u ∈ slots qs, u.Settled d := by
  cases h with
  | intro honly hpositional hkeywordOnly =>
    refine List.forall_mem_append.2 ⟨?_, List.forall_mem_append.2 ⟨?_, ?_⟩⟩
    · exact hkeywordOnly.settled hagain fun hskip e he =>
        hwraps hskip e (List.mem_append_left _ he)
    · exact honly.settled hagain fun hskip e he =>
        hwraps hskip e (List.mem_append_right _ (List.mem_append_left _ he))
    · exact hpositional.settled hagain fun hskip e he =>
        hwraps hskip e (List.mem_append_right _ (List.mem_append_right _ he))

/-- A name is placed for itself alone, but for the cast of one. -/
theorem PlacesExpr.eq_name {e e' : Expr} {entries : List PlanEntry} {pos : Pos} {id : String}
    (hnumber : k.emitter.skipAsserts = true → e'.number? = none)
    (h : k.PlacesExpr c e e' entries (.name pos id)) : e = .name pos id := by
  generalize hu : Expr.name pos id = u at h
  cases h with
  | cast =>
    unfold Emitter.castCode at hu
    split at hu
    · rename_i hskip
      cases hnumber hskip
    · cases hu
  | @parts _ es' _ us hcast hplain hparts =>
    cases e with
    | name => rfl
    | _ => cases hu

/-- A statement that declares something is a type alias or asks for the model of a type. -/
theorem Simple.declares_cases {t : Simple} (h : t.declares d = true) :
    (∃ pos id hint value bare decl, t = .annotated (.name pos id) hint (some value) bare decl ∧
        d.scope.canonical hint = some "TypeAlias") ∨
      ∃ pos id value decl, t = .assign [.name pos id] value decl ∧
        Typeward.callsSpecial d "reify" value = true := by
  unfold Simple.declares at h
  split at h
  · exact .inl ⟨_, _, _, _, _, _, rfl, beq_iff_eq.1 h⟩
  · exact .inr ⟨_, _, _, _, rfl, h⟩
  · cases h

/-- What is placed in a simple statement declares nothing if the statement does not, unless a cast
wraps a special form. -/
theorem PlacesIn.declares_eq_false (hagain : k.Recompiles c d) {t t' u : Simple} {pos : Pos}
    {entries : List PlanEntry}
    (hwraps : k.emitter.skipAsserts = true → (Stmt.simple pos t').WrapsNothing c)
    (hdeclares : t.declares c = false) (h : k.PlacesIn c t t' entries u) :
    u.declares d = false := by
  by_contra hu
  cases h with
  | @intro es' _ us h =>
    have hheld : k.emitter.skipAsserts = true → ∀ e ∈ es', e.Everywhere (¬ ·.Wraps c) := by
      intro hskip
      have hheld := (hwraps hskip).held
      rwa [Stmt.held, slots_refill t es' h.length_eq.1] at hheld
    rcases Simple.declares_cases (Bool.of_not_eq_false hu) with
      ⟨p, id, hint, value, bare, decl, heq, hcanonical⟩ | ⟨p, id, value, decl, heq, hcalls⟩
    · cases t with
      | annotated target hint₀ value₀ =>
        cases value₀ with
        | none => cases (Simple.annotated.inj heq).2.2.1
        | some value₀ =>
          obtain ⟨hname, hhint, -⟩ := Simple.annotated.inj heq
          cases h with
          | @cons _ target' v _ _ _ _ _ htarget hrest =>
            cases hrest with
            | @cons _ hint' w _ _ _ _ _ hplaced hrest =>
              obtain rfl : v = .name p id := hname
              obtain rfl : w = hint := hhint
              obtain rfl := htarget.eq_name fun hskip =>
                (hwraps hskip).targets _ _ rfl target' List.mem_cons_self
              have hfound := Scope.canonical_of_forms_eq hagain.forms.symm (by decide) hcanonical
              have hform := (hplaced.canonical_access (by decide)
                (fun hskip => hheld hskip hint' (List.mem_cons_of_mem _ List.mem_cons_self)) []
                hfound).1
              have hnone : (c.scope.canonical hint₀ == some "TypeAlias") = false := hdeclares
              exact absurd hform (beq_eq_false_iff_ne.1 hnone)
      | _ => cases heq
    · cases t with
      | assign targets value₀ =>
        obtain ⟨hname, hvalue, -⟩ := Simple.assign.inj heq
        rcases targets with _ | ⟨target, _ | ⟨second, rest⟩⟩
        · cases hname
        · cases h with
          | @cons _ target' v _ _ _ _ _ htarget hrest =>
            cases hrest with
            | @cons _ value' w _ _ _ _ _ hplaced hrest =>
              obtain rfl : v = .name p id := (List.cons.inj hname).1
              obtain rfl : w = value := hvalue
              obtain rfl := htarget.eq_name fun hskip =>
                (hwraps hskip).targets _ _ rfl target' List.mem_cons_self
              have hfound := callsSpecial_of_forms_eq hagain.forms.symm (by decide) hcalls
              have hform := (hplaced.calls_reify
                (fun hskip => hheld hskip value' (List.mem_cons_of_mem _ List.mem_cons_self))
                hfound).1
              have hnone : Typeward.callsSpecial c "reify" value₀ = false := hdeclares
              rw [hform] at hnone
              cases hnone
        · cases (List.cons.inj hname).2
      | _ => cases heq

/-- A binding of rendered code is settled. -/
theorem settled_binding {runtime name : String} {pos : Pos} {code : Expr}
    (hruntime : runtime ∉ d.scope.specialModules) (hcode : code.Settled d)
    (hcalls : Typeward.callsSpecial d "reify" code = false) :
    (Stmt.simple pos (.assign [.name .synthetic name] code none)).Settled d := by
  have hname : (Expr.name .synthetic name).Settled d :=
    RenderedForm.settled (.name name) hruntime
  exact .simple hcalls rfl (List.forall_mem_cons.2 ⟨hname, List.forall_mem_singleton.2 hcode⟩)

/-- Rendered code asks for no model. -/
theorem callsSpecial_of_renderedForm {runtime : String} {code : Expr}
    (hruntime : runtime ∉ d.scope.specialModules) (h : RenderedForm runtime code) :
    Typeward.callsSpecial d form code = false := by
  have hcalls := h.callsLibrary.here
  cases code with
  | call pos func args keywords decl =>
    obtain ⟨-, function, rfl, -⟩ := hcalls
    exact callsSpecial_runtimeExpr hruntime
  | _ => rfl

/-- What is placed for a simple statement is settled, unless a cast wraps a special form. -/
theorem PlacesSimple.settled (hagain : k.Recompiles c d) {pos : Pos} {t t' u : Simple}
    {entries : List PlanEntry}
    (hwraps : k.emitter.skipAsserts = true → (Stmt.simple pos t').WrapsNothing c)
    (h : k.PlacesSimple c pos t t' entries u) : (Stmt.simple pos u).Settled d := by
  have hruntime := hagain.runtime_again
  cases h with
  | typeAlias hhint hdenote hentry hcode =>
    have hform := Emitter.renderedForm hcode
    exact settled_binding hruntime (hform.settled hruntime)
      (callsSpecial_of_renderedForm hruntime hform)
  | @reify p id q func type number t entry code hfunc hdenote hentry hcode =>
    have hform : RenderedForm k.emitter.runtime
        (callExpr (runtimeExpr k.emitter.runtime "reify") [code] []) :=
      .call (by decide) (by simpa using Emitter.renderedForm hcode) (by simp)
    exact settled_binding hruntime (hform.settled hruntime)
      (callsSpecial_of_renderedForm hruntime hform)
  | other hdeclares hnumber h =>
    refine .simple (h.declares_eq_false hagain hwraps hdeclares) ?_
      (h.settled hagain fun hskip => (hwraps hskip).held)
    cases h with
    | intro h => rw [Simple.number?_refill, hnumber]

/-- Checks of parameters are settled. -/
theorem PlacesChecks.settled (hagain : k.Recompiles c d) {pos : Pos} {entries : List PlanEntry}
    {ts : List Stmt} (h : k.PlacesChecks pos entries ts) :
    ∀ t ∈ ts, t.withoutNumbers.Settled d := by
  have hruntime := hagain.runtime_again
  cases h with
  | skipped => exact fun _ ht => absurd ht List.not_mem_nil
  | checked hskip h =>
    intro t ht
    obtain ⟨entry, -, p, type, -, hrender, rfl⟩ := exists_mem_of_forall₂ h ht
    refine .simple rfl rfl (List.forall_mem_singleton.2 (settled_checkExpr hruntime ?_ ?_))
    · exact RenderedForm.settled (.name p.name) hruntime
    · exact (Emitter.renderedForm hrender).settled hruntime

/-- What is placed for a class is no record if the class is none, unless a cast wraps a special
form. -/
theorem isKnownRecord_eq_false (hagain : k.Recompiles c d) {known : List String}
    {bases bases' bases'' : List Expr} {entries : List PlanEntry}
    (hwraps : k.emitter.skipAsserts = true → ∀ e ∈ slots bases', e.Everywhere (¬ ·.Wraps c))
    (hrecord : isKnownRecord c known bases = false)
    (h : k.PlacesIn c bases bases' entries bases'') : isKnownRecord d [] bases'' = false := by
  by_contra hagainRecord
  obtain ⟨u, hu, hbase⟩ := List.any_eq_true.1 (Bool.of_not_eq_false hagainRecord)
  have hfound : d.scope.canonical u = some "TypedDict" := by
    rcases Bool.or_eq_true_iff.1 hbase with hbase | hbase
    · exact beq_iff_eq.1 hbase
    · cases hdotted : u.dotted? <;> simp [hdotted] at hbase
  cases h with
  | @intro es' _ us h =>
    rw [slots_refill bases es' h.length_eq.1] at hwraps
    have hmem : u ∈ us := by
      rw [← slots_refill bases us h.length_eq.2]
      exact mem_slots_list.2 hu
    obtain ⟨e, he, e', he', first, hplaces⟩ := h.exists_of_mem hmem
    have hform := (hplaces.canonical_access (by decide) (fun hskip => hwraps hskip e' he') []
      (Scope.canonical_of_forms_eq hagain.forms.symm (by decide) hfound)).1
    have hany : isKnownRecord c known bases = true := by
      refine List.any_eq_true.2 ⟨e, mem_slots_list.1 he, Bool.or_eq_true_iff.2 (.inl ?_)⟩
      exact beq_iff_eq.2 hform
    rw [hrecord] at hany
    cases hany

/-- A header without hints keeps none. -/
theorem stripHints_stripHints (head : FunctionHead) :
    stripHints (stripHints head) = stripHints head := by
  have hself (p : Parameter Expr) : stripHint (stripHint p) = stripHint p := rfl
  simp [stripHints, Function.comp_def, hself]

/-- Without their hints parameters have the same initial values. -/
theorem slots_stripHints (head : FunctionHead) :
    slots (stripHints head).params = slots head.params := by
  have hlist (ps : List (Parameter Expr)) : slots (ps.map stripHint) = slots ps := by
    induction ps with
    | nil => rfl
    | cons p rest ih => exact congrArg (slots p.initial ++ ·) ih
  exact congrArg₂ (· ++ ·) (hlist _) (congrArg₂ (· ++ ·) (hlist _) (hlist _))

mutual

/-- What is placed for a statement is settled, unless a cast wraps a special form. -/
theorem PlacesStmt.settled {c d : LowerContext} (hagain : k.Recompiles c d)
    {known known' : List String} {t t' u : Stmt} {entries : List PlanEntry}
    (hwraps : k.emitter.skipAsserts = true → ∀ v ∈ t'.nodes, v.WrapsNothing c) :
    k.PlacesStmt c known t t' entries u known' → u.withoutNumbers.Settled d
  | .simple h => h.settled hagain fun hskip => hwraps hskip _ (List.mem_singleton_self _)
  | @PlacesStmt.function _ _ _ _ _ head _ decorators' _ params' number _ _ _ _ _ _ _ _ us hnumber
      hdecorators hparams htyped hentries hchecks hbody => by
    have hheld := fun hskip => (hwraps hskip _ List.mem_cons_self).held
    have hchecks' := hchecks.settled hagain.inside
    have hbody' := hbody.settled hagain.inside fun hskip v hv =>
      (hwraps hskip v (List.mem_cons_of_mem _ hv)).inside
    refine .function rfl ?_ ?_ ?_ ?_
    · exact congrArg (fun head : FunctionHead => { head with decl := none })
        (stripHints_stripHints _)
    · exact hdecorators.settled hagain fun hskip e he => hheld hskip e (List.mem_append_left _ he)
    · rw [slots_stripHints]
      exact hparams.settled hagain fun hskip e he => hheld hskip e (List.mem_append_right _ he)
    · rw [Stmt.allWithoutNumbers_eq_map, Stmt.allSettled_iff] at hbody' ⊢
      intro t ht
      obtain ⟨v, hv, rfl⟩ := List.mem_map.1 ht
      rcases List.mem_append.1 hv with hv | hv
      · rcases List.mem_append.1 hv with hv | hv
        · exact hbody' _ (List.mem_map_of_mem (List.mem_of_mem_take hv))
        · exact hchecks' v hv
      · exact hbody' _ (List.mem_map_of_mem (List.mem_of_mem_drop hv))
  | .record hrecord hentry hcode => by
    have hruntime := hagain.runtime_again
    have hform := Emitter.renderedForm hcode
    exact settled_binding hruntime (hform.settled hruntime)
      (callsSpecial_of_renderedForm hruntime hform)
  | .classDef hrecord hnumber hbases hkeywords hbody hdecorators => by
    have hheld := fun hskip => (hwraps hskip _ List.mem_cons_self).held
    have hwrapsBases := fun hskip e he =>
      hheld hskip e (List.mem_append_left _ (List.mem_append_left _ he))
    have hrecord' := isKnownRecord_eq_false hagain.inside hwrapsBases hrecord hbases
    refine .classDef hrecord' hnumber ?_ ?_ ?_ ?_
    · exact hbases.settled hagain.inside hwrapsBases
    · exact hkeywords.settled hagain.inside fun hskip e he =>
        hheld hskip e (List.mem_append_left _ (List.mem_append_right _ he))
    · exact hbody.settled hagain.inside fun hskip v hv =>
        (hwraps hskip v (List.mem_cons_of_mem _ hv)).inside
    · exact hdecorators.settled hagain.inside fun hskip e he =>
        hheld hskip e (List.mem_append_right _ he)
  | .guarded hguard htest hbody horelse => by
    have hguard' := Scope.canonical_of_forms_eq hagain.forms (by decide) (beq_iff_eq.1 hguard)
    rw [Stmt.withoutNumbers, Stmt.allWithoutNumbers_eq_self _ hbody]
    exact .guarded (beq_iff_eq.2 hguard') htest hbody (horelse.settled hagain fun hskip v hv =>
      hwraps hskip v (List.mem_cons_of_mem _ (List.mem_append_right _ hv)))
  | @PlacesStmt.branch _ _ _ _ _ _ _ _ _ _ _ _ _ _ _ v us ws hguard htest hbody horelse => by
    have htest' := htest.settled hagain (fun hskip => (hwraps hskip _ List.mem_cons_self).held) v
      List.mem_cons_self
    have hbody' := hbody.settled hagain fun hskip w hw =>
      hwraps hskip w (List.mem_cons_of_mem _ (List.mem_append_left _ hw))
    have horelse' := horelse.settled hagain fun hskip w hw =>
      hwraps hskip w (List.mem_cons_of_mem _ (List.mem_append_right _ hw))
    cases hagainGuard : d.scope.isGuard v with
    | true => exact .guarded hagainGuard htest'.unnumbered hbody'.unnumbered horelse'
    | false => exact .branch hagainGuard htest' hbody' horelse'
  | .compound h => .compound (h.settled hagain
      (fun hskip clause hclause e he => (hwraps hskip _ List.mem_cons_self).held e
        (List.mem_flatMap.2 ⟨clause, hclause, he⟩))
      fun hskip v hv => hwraps hskip v (List.mem_cons_of_mem _ hv))

/-- What is placed for statements is settled, unless a cast wraps a special form. -/
theorem PlacesAll.settled {c d : LowerContext} (hagain : k.Recompiles c d)
    {known known' : List String} {ts ts' us : List Stmt} {entries : List PlanEntry}
    (hwraps : k.emitter.skipAsserts = true → ∀ v ∈ Stmt.allNodes ts', v.WrapsNothing c) :
    k.PlacesAll c known ts ts' entries us known' → Stmt.AllSettled d (Stmt.allWithoutNumbers us)
  | .nil => .nil
  | .cons hfirst hrest =>
    .cons (hfirst.settled hagain fun hskip => (List.forall_mem_append.1 (hwraps hskip)).1)
      (hrest.settled hagain fun hskip => (List.forall_mem_append.1 (hwraps hskip)).2)

/-- What is placed for clauses is settled, unless a cast wraps a special form. -/
theorem PlacesClauses.settled {c d : LowerContext} (hagain : k.Recompiles c d)
    {known known' : List String} {clauses clauses' us : List (Clause Stmt)}
    {entries : List PlanEntry}
    (hheads : k.emitter.skipAsserts = true →
      ∀ clause ∈ clauses', ∀ e ∈ slots clause.head, e.Everywhere (¬ ·.Wraps c))
    (hwraps : k.emitter.skipAsserts = true → ∀ v ∈ Stmt.clauseNodes clauses', v.WrapsNothing c) :
    k.PlacesClauses c known clauses clauses' entries us known' →
      Stmt.ClausesSettled d (Stmt.clausesWithoutNumbers us)
  | .nil => .nil
  | .cons hhead hbody hrest =>
    .cons (hhead.settled hagain fun hskip => hheads hskip _ List.mem_cons_self)
      (hbody.settled hagain fun hskip => (List.forall_mem_append.1 (hwraps hskip)).1)
      (hrest.settled hagain (fun hskip clause h => hheads hskip clause (List.mem_cons_of_mem _ h))
        fun hskip => (List.forall_mem_append.1 (hwraps hskip)).2)

end

end Splicer

end Settled

namespace Stmt

mutual

/-- A statement without its numbers has the same imports. -/
theorem filterMap_import_withoutNumbers : (t : Stmt) →
    t.withoutNumbers.nodes.filterMap import? = t.nodes.filterMap import?
  | .simple pos t => rfl
  | .function pos head body => imports_allWithoutNumbers body
  | .classDef pos head body => imports_allWithoutNumbers body
  | .branch pos test body orelse => by
    rw [withoutNumbers, nodes, nodes, List.filterMap_cons, List.filterMap_cons,
      List.filterMap_append, List.filterMap_append]
    exact congrArg₂ (· ++ ·) (imports_allWithoutNumbers body) (imports_allWithoutNumbers orelse)
  | .compound pos clauses => filterMap_import_clausesWithoutNumbers clauses

/-- Statements without their numbers have the same imports. -/
theorem imports_allWithoutNumbers : (ts : List Stmt) → imports (allWithoutNumbers ts) = imports ts
  | [] => rfl
  | t :: rest => by
    rw [imports, imports, allWithoutNumbers, allNodes, allNodes, List.filterMap_append,
      List.filterMap_append, filterMap_import_withoutNumbers t]
    exact congrArg _ (imports_allWithoutNumbers rest)

/-- Clauses without their numbers have the same imports. -/
theorem filterMap_import_clausesWithoutNumbers : (clauses : List (Clause Stmt)) →
    (clauseNodes (clausesWithoutNumbers clauses)).filterMap import? =
      (clauseNodes clauses).filterMap import?
  | [] => rfl
  | ⟨head, body⟩ :: rest => by
    rw [clausesWithoutNumbers, clauseNodes, clauseNodes, List.filterMap_append,
      List.filterMap_append, filterMap_import_clausesWithoutNumbers rest]
    exact congrArg (· ++ _) (imports_allWithoutNumbers body)

end

/-- No import stands in the body of a record. -/
def RecordImportsNothing : Stmt → Prop
  | .classDef _ head body => head.decl ≠ none → imports body = []
  | _ => True

end Stmt

namespace Splicer

variable {k : Splicer}

/-- Checks of parameters import nothing. -/
theorem PlacesChecks.imports_eq_nil {pos : Pos} {entries : List PlanEntry} {ts : List Stmt}
    (h : k.PlacesChecks pos entries ts) : Stmt.imports ts = [] := by
  cases h with
  | skipped => rfl
  | checked hskip h =>
    induction h with
    | nil => rfl
    | cons hfirst hrest ih =>
      obtain ⟨p, type, -, -, rfl⟩ := hfirst
      exact ih

mutual

/-- A statement has the imports of what it is placed for. -/
theorem PlacesStmt.filterMap_import {c : LowerContext} {known known' : List String} {t t' u : Stmt}
    {entries : List PlanEntry} (hrecords : ∀ v ∈ t'.nodes, v.RecordImportsNothing) :
    k.PlacesStmt c known t t' entries u known' →
      u.nodes.filterMap Stmt.import? = t.nodes.filterMap Stmt.import?
  | @PlacesStmt.simple _ _ _ _ t _ _ _ h => by
    cases h with
    | typeAlias | reify => rfl
    | other hdeclares hnumber h =>
      cases h with
      | intro h => cases t <;> rfl
  | .function hnumber hdecorators hparams htyped hentries hchecks hbody => by
    have hbody' := hbody.imports_eq fun v hv => hrecords v (List.mem_cons_of_mem _ hv)
    change Stmt.imports _ = Stmt.imports _
    rw [Stmt.imports_append, Stmt.imports_append, hchecks.imports_eq_nil, List.append_nil,
      ← Stmt.imports_append, List.take_append_drop, hbody']
  | .record hrecord hentry hcode =>
    (hrecords _ List.mem_cons_self (Option.some_ne_none _)).symm
  | .classDef hrecord hnumber hbases hkeywords hbody hdecorators =>
    hbody.imports_eq fun v hv => hrecords v (List.mem_cons_of_mem _ hv)
  | @PlacesStmt.guarded _ _ _ _ _ _ body _ _ _ _ hguard htest hbody horelse => by
    have horelse' := horelse.imports_eq fun v hv =>
      hrecords v (List.mem_cons_of_mem _ (List.mem_append_right _ hv))
    change (Stmt.allNodes body ++ Stmt.allNodes _).filterMap _ =
      (Stmt.allNodes body ++ Stmt.allNodes _).filterMap _
    rw [List.filterMap_append, List.filterMap_append]
    exact congrArg _ horelse'
  | .branch hguard htest hbody horelse => by
    have hbody' := hbody.imports_eq fun v hv =>
      hrecords v (List.mem_cons_of_mem _ (List.mem_append_left _ hv))
    have horelse' := horelse.imports_eq fun v hv =>
      hrecords v (List.mem_cons_of_mem _ (List.mem_append_right _ hv))
    change (Stmt.allNodes _ ++ Stmt.allNodes _).filterMap _ =
      (Stmt.allNodes _ ++ Stmt.allNodes _).filterMap _
    rw [List.filterMap_append, List.filterMap_append]
    exact congrArg₂ (· ++ ·) hbody' horelse'
  | .compound h => h.filterMap_import fun v hv => hrecords v (List.mem_cons_of_mem _ hv)

/-- Statements have the imports of what they are placed for. -/
theorem PlacesAll.imports_eq {c : LowerContext} {known known' : List String}
    {ts ts' us : List Stmt} {entries : List PlanEntry}
    (hrecords : ∀ v ∈ Stmt.allNodes ts', v.RecordImportsNothing) :
    k.PlacesAll c known ts ts' entries us known' → Stmt.imports us = Stmt.imports ts
  | .nil => rfl
  | .cons hfirst hrest => by
    obtain ⟨hfirst', hrest'⟩ := List.forall_mem_append.1 hrecords
    rw [Stmt.imports, Stmt.imports, Stmt.allNodes, Stmt.allNodes, List.filterMap_append,
      List.filterMap_append, hfirst.filterMap_import hfirst']
    exact congrArg _ (hrest.imports_eq hrest')

/-- Clauses have the imports of what they are placed for. -/
theorem PlacesClauses.filterMap_import {c : LowerContext} {known known' : List String}
    {clauses clauses' us : List (Clause Stmt)} {entries : List PlanEntry}
    (hrecords : ∀ v ∈ Stmt.clauseNodes clauses', v.RecordImportsNothing) :
    k.PlacesClauses c known clauses clauses' entries us known' →
      (Stmt.clauseNodes us).filterMap Stmt.import? =
        (Stmt.clauseNodes clauses).filterMap Stmt.import?
  | .nil => rfl
  | .cons hhead hbody hrest => by
    obtain ⟨hbody', hrest'⟩ := List.forall_mem_append.1 hrecords
    rw [Stmt.clauseNodes, Stmt.clauseNodes, List.filterMap_append, List.filterMap_append,
      hrest.filterMap_import hrest']
    exact congrArg (· ++ _) (hbody.imports_eq hbody')

end

end Splicer

/-- The import of the usual runtime library adds no names of special forms. -/
theorem Forms.take_runtimeImport (f : Forms) (name : Option String) :
    f.take (.importModules [⟨({} : Options).runtimeModule, name⟩]) = f := by
  have hexports : specialModules.contains ({} : Options).runtimeModule = false := by decide
  have hbelow : specialModules.filter (fun m => m == ({} : Options).runtimeModule ||
      m.startsWith (({} : Options).runtimeModule ++ ".")) = [] := by decide +kernel
  change f.importModule _ = f
  unfold importModule
  cases name with
  | some name =>
    dsimp only
    rw [hexports]
    rfl
  | none =>
    dsimp only
    rw [hbelow]
    rfl

/-- With the import of the usual runtime library a module calls special forms as without it. -/
theorem Forms.foldl_insertImport (f : Forms) (runtime : String) (m : Module) :
    (Stmt.imports (insertImport (runtimeImport runtime ({} : Options).runtimeModule) m)).foldl take
      f = (Stmt.imports m).foldl take f := by
  have hcons (l : List Stmt) : Stmt.imports
      (runtimeImport runtime ({} : Options).runtimeModule :: l) = .importModules
        [⟨({} : Options).runtimeModule,
          if runtime = ({} : Options).runtimeModule then none else some runtime⟩] ::
            Stmt.imports l := rfl
  rw [insertImport_eq, Stmt.imports_append, hcons, List.foldl_append, List.foldl_cons,
    take_runtimeImport, ← List.foldl_append, ← Stmt.imports_append, List.take_append_drop]

/-- With the import of a library a settled module is settled. -/
theorem settled_insertImport {d : LowerContext} {runtime runtimeModule : String} {m : Module}
    (h : Stmt.AllSettled d (Stmt.allWithoutNumbers m)) :
    Stmt.AllSettled d
      (Stmt.allWithoutNumbers (insertImport (runtimeImport runtime runtimeModule) m)) := by
  simp only [Stmt.allSettled_iff, Stmt.allWithoutNumbers_eq_map, List.forall_mem_map] at h ⊢
  rw [insertImport_eq]
  refine List.forall_mem_append.2 ⟨fun t ht => h t (List.mem_of_mem_take ht),
    List.forall_mem_cons.2 ⟨?_, fun t ht => h t (List.mem_of_mem_drop ht)⟩⟩
  exact .simple rfl rfl fun e he => absurd he List.not_mem_nil

section

variable {tree : Module} {file : String} {comments : List (Nat × String)} {options : Options}
  {lowered : Lowered} {c : CompiledTree}

/-- A compiled module, as it is compiled again: the numbers of declarations stand beside a tree. -/
def CompiledTree.output (c : CompiledTree) : Module := Stmt.allWithoutNumbers c.spliced.tree

/-- The output of the compiler calls special forms as its input does. -/
theorem forms_output (hmodule : options.runtimeModule = ({} : Options).runtimeModule)
    {k : Splicer} {d : LowerContext} {known known' : List String} {entries : List PlanEntry}
    {m : Module} (hrecords : ∀ t ∈ Stmt.allNodes lowered.tree, t.RecordImportsNothing)
    (hplaces : k.PlacesAll d known tree lowered.tree entries m known')
    (htree : c.spliced.tree = if c.spliced.emitted = [] then m
      else insertImport (runtimeImport c.runtime options.runtimeModule) m) (file file' : String) :
    (Scope.ofModule file' c.output).forms = (Scope.ofModule file tree).forms := by
  rw [Scope.forms_ofModule, Scope.forms_ofModule, CompiledTree.output,
    Stmt.imports_allWithoutNumbers, ← hplaces.imports_eq hrecords, htree, hmodule]
  split
  · rfl
  · exact Forms.foldl_insertImport _ _ _

/-- The output of the compiler is settled. With checks it always is. Without them no cast may have
wrapped a special form. -/
theorem settled_output (hplain : Stmt.AllUnnumbered tree)
    (hmodule : options.runtimeModule = ({} : Options).runtimeModule)
    (halias : options.runtimeAlias = ({} : Options).runtimeAlias)
    (hlower : lowerTree tree file comments options = .ok lowered)
    (hrecords : ∀ t ∈ Stmt.allNodes lowered.tree, t.RecordImportsNothing)
    (hwraps : options.skipAsserts = true →
      ∀ t ∈ Stmt.allNodes lowered.tree, t.WrapsNothing (lowered.context comments options))
    (hcompile : compileLowered options lowered = .ok c) (file' : String)
    (comments' : List (Nat × String)) :
    Stmt.AllSettled (topContext c.output file' comments' options) c.output := by
  obtain ⟨m, known, hplaces, -, htree⟩ :=
    exists_placesAll_of_compileLowered hplain hlower hcompile
  obtain ⟨runtime, r, r', hallocate, -, -, hruntime⟩ := compileLowered_eq_ok hcompile
  obtain ⟨s, -, -, hscope, -⟩ := lowerTree_eq_ok hlower
  rw [hscope] at hallocate
  obtain ⟨⟨i, hcandidate⟩, hmentions⟩ := runtime_spec hallocate
  rw [← hruntime] at hcandidate hmentions
  have hforms : (Scope.ofModule file' c.output).forms = lowered.scope.forms := by
    rw [hscope]
    exact forms_output hmodule hrecords hplaces htree file file'
  have hfree : c.runtime ∉ lowered.scope.specialModules := by
    intro hmem
    rw [hscope] at hmem
    rcases mentions_of_mem_modules hmem with hmem | hmem
    · rw [hcandidate, halias] at hmem
      exact candidate_not_mem_specialModules i hmem
    · exact hmentions hmem
  have hagain : (c.splicer options).Recompiles (lowered.context comments options)
      (topContext c.output file' comments' options) := ⟨hforms.symm, hfree⟩
  have hsettled := hplaces.settled hagain hwraps
  have hinserted : Stmt.AllSettled (topContext c.output file' comments' options)
      (Stmt.allWithoutNumbers (if c.spliced.emitted = [] then m
        else insertImport (runtimeImport c.runtime options.runtimeModule) m)) := by
    split
    · exact hsettled
    · exact settled_insertImport hsettled
  rwa [← htree] at hinserted

/-- The output of the compiler compiles to itself. Its plan has no entries, nothing is emitted and
the tree stays as it is. With checks it always does so. Without them it does unless a cast wrapped a
special form. -/
theorem recompiling_changes_nothing (hplain : Stmt.AllUnnumbered tree)
    (hmodule : options.runtimeModule = ({} : Options).runtimeModule)
    (halias : options.runtimeAlias = ({} : Options).runtimeAlias)
    (hlower : lowerTree tree file comments options = .ok lowered)
    (hrecords : ∀ t ∈ Stmt.allNodes lowered.tree, t.RecordImportsNothing)
    (hwraps : options.skipAsserts = true →
      ∀ t ∈ Stmt.allNodes lowered.tree, t.WrapsNothing (lowered.context comments options))
    (hcompile : compileLowered options lowered = .ok c) (file' : String)
    (comments' : List (Nat × String)) :
    ∃ c', compileTree c.output file' comments' options = .ok c' ∧ c'.plan.entries = [] ∧
      c'.spliced.emitted = [] ∧ c'.output = c.output :=
  compileTree_of_settled
    (settled_output hplain hmodule halias hlower hrecords hwraps hcompile file' comments')

end

/-- Nothing in the lowered tree of a class and a function is a record or a cast. -/
theorem recompilable_classModule (scope : Scope) :
    ∀ t ∈ Stmt.allNodes (classModule "Widget" "Widget" scope).tree,
      t.RecordImportsNothing ∧ ∀ c, t.WrapsNothing c := by
  intro t ht
  simp only [classModule, Stmt.allNodes, Stmt.nodes, List.append_nil, List.cons_append,
    List.nil_append, List.mem_cons, List.not_mem_nil, or_false] at ht
  have hnone {t : Stmt} (hheld : t.held = [])
      (htargets : ∀ pos s, t = .simple pos s → s.targets = []) (c) : t.WrapsNothing c := by
    refine ⟨by simp [hheld], fun pos s heq e he => ?_⟩
    rw [htargets pos s heq] at he
    cases he
  rcases ht with rfl | rfl | rfl | rfl
  · exact ⟨fun h => absurd rfl h, hnone rfl fun _ _ heq => by cases heq⟩
  · exact ⟨trivial, hnone rfl fun _ _ heq => by cases heq; rfl⟩
  · exact ⟨trivial, hnone rfl fun _ _ heq => by cases heq⟩
  · exact ⟨trivial, hnone rfl fun _ _ heq => by cases heq; rfl⟩

/-- The function with the check of its parameter compiles to itself, and so does the function
without it. -/
theorem recompiling_changes_nothing_widget :
    (∃ c c', compileTree (classTree "Widget" "Widget") "m.py" [] {} = .ok c ∧
      c.spliced.emitted ≠ [] ∧ compileTree c.output "again.py" [] {} = .ok c' ∧
      c'.plan.entries = [] ∧ c'.spliced.emitted = [] ∧ c'.output = c.output) ∧
    ∃ c c', compileTree (classTree "Widget" "Widget") "m.py" [] { skipAsserts := true } = .ok c ∧
      c.plan.entries ≠ [] ∧ compileTree c.output "again.py" [] { skipAsserts := true } = .ok c' ∧
      c'.plan.entries = [] ∧ c'.spliced.emitted = [] ∧ c'.output = c.output := by
  have hscope : Scope.ofModule "m.py" (classTree "Widget" "Widget") = widgetScope := by
    with_unfolding_all rfl
  have hlower := lowerTree_classTree hscope denote_widget
  have hplain := allUnnumbered_classTree "Widget" "Widget"
  have hnodes := recompilable_classModule widgetScope
  constructor
  · obtain ⟨c, hcompile, hemitted⟩ : ∃ c,
        compileLowered {} (classModule "Widget" "Widget" widgetScope) = .ok c ∧
          c.spliced.emitted ≠ [] := ⟨_, rfl, List.cons_ne_nil _ _⟩
    obtain ⟨c', hagain⟩ := recompiling_changes_nothing hplain (by rfl) (by rfl) hlower
      (fun t ht => (hnodes t ht).1) (fun hskip => by cases hskip) hcompile "again.py" []
    exact ⟨c, c', Except.bind_eq_ok.2 ⟨_, hlower, hcompile⟩, hemitted, hagain⟩
  · obtain ⟨c, hcompile, hentries⟩ : ∃ c, compileLowered { skipAsserts := true }
        (classModule "Widget" "Widget" widgetScope) = .ok c ∧ c.plan.entries ≠ [] :=
      ⟨_, rfl, List.cons_ne_nil _ _⟩
    have hlower' : lowerTree (classTree "Widget" "Widget") "m.py" [] { skipAsserts := true } =
        .ok (classModule "Widget" "Widget" widgetScope) := hlower
    obtain ⟨c', hagain⟩ := recompiling_changes_nothing hplain (by rfl) (by rfl) hlower'
      (fun t ht => (hnodes t ht).1) (fun _ t ht => (hnodes t ht).2 _) hcompile "again.py" []
    exact ⟨c, c', Except.bind_eq_ok.2 ⟨_, hlower', hcompile⟩, hentries, hagain⟩

end Typeward
