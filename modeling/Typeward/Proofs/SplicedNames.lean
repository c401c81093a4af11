import Typeward.Proofs.EmittedNames
import Typeward.Proofs.Rewritings
import Typeward.Splice

/-!
# Names in spliced modules

Splicing puts code into a module that reads names and binds none, but for the labels of definitions
and of inspected types. So a name that is bound in the spliced module stands in the lowered one, or
it is such a label.
-/

namespace Typeward

open Slots

/-- The names that the code for a plan binds. -/
def Plan.Labels (p : Plan) (x : String) : Prop :=
  ∃ entry ∈ p.entries, entry.mode ≠ .assert ∧ entry.label = some x

/-- What the second expression binds stands in the first one. -/
abbrev Expr.BindsWithin : Expr → Expr → Prop := Expr.Within Expr.Binds Expr.Targets

/-- Parts that bind what stands in the former parts bind what stands in the whole expression. -/
theorem Expr.bindsWithin_withChildren {e : Expr} {es : List Expr}
    (h : List.Forall₂ BindsWithin e.children es) : e.BindsWithin (e.withChildren es) := by
  intro x hx
  have hparts : x ∈ (e.withChildren es).own ∨
      ∃ c ∈ (e.withChildren es).children, c.Targets x ∨ c.Binds x := by
    rcases hx with hx | hx
    · exact hx.own_or_part
    · rcases hx.own_or_part with hown | ⟨c, hc, hx⟩
      · exact .inl hown
      · exact .inr ⟨c, hc, .inl hx⟩
  rcases hparts with hx | ⟨c', hc', hx⟩
  · rw [own_withChildren] at hx
    exact .own hx
  · obtain ⟨c, hc, hwithin⟩ := exists_mem_children_of_withChildren h hc'
    exact .part hc (hwithin x hx.symm)

namespace Splicer

open Typeward.Action

variable {k : Splicer}

/-- The entry of a declaration belongs to the plan. -/
theorem mem_entries_of_entry? {number : Nat} {entry : PlanEntry}
    (h : k.entry? number = some entry) : entry ∈ k.plan.entries :=
  List.mem_of_mem_filter (List.mem_of_head? h)

/-- What is emitted is code for the entry. -/
theorem answers_emit (entry : PlanEntry) (v : Option Expr) :
    Answers (k.emit entry v) fun f? => ∀ f, f? = some f → EmittedCode k.emitter entry v f := by
  intro log f? log' h
  obtain ⟨emitted, hemitted, h⟩ := Except.bind_eq_ok.1 h
  simp only [pure, Except.pure, Except.ok.injEq, Prod.mk.injEq] at h
  obtain ⟨rfl, -⟩ := h
  exact fun f hf => emittedCode_of_emit (Except.mapError_eq_ok.1 hemitted) hf

/-- What replaces a call binds what its value binds. -/
theorem bindsWithin_of_emittedCode {m : Emitter} {entry : PlanEntry} {e v replacement : Expr}
    (hv : e.BindsWithin v) (h : EmittedCode m entry (some v) (.expression replacement)) :
    e.BindsWithin replacement := by
  cases h with
  | value => exact hv
  | cast htype =>
    rintro x (hx | hx)
    · exact hv x (.inl (binds_of_checkExpr htype hx))
    · cases hx

/-- Splicing an expression binds what stands in it. -/
theorem answers_spliceExpr (k : Splicer) (e : Expr) : Answers (k.spliceExpr e) e.BindsWithin := by
  fun_induction spliceExpr k e with
  | case1 e ih =>
    refine (answers_mapChildren ih).bind fun e₁ ⟨es, hes, he₁⟩ => ?_
    have hwhole : e.BindsWithin e₁ := by
      rw [he₁]
      exact Expr.bindsWithin_withChildren hes
    split
    · rename_i pos func type v number _
      -- The value is a part, so what it binds stands in the part that it was spliced from.
      have hvalue : e.BindsWithin v := by
        have hpart : v ∈ (e.withChildren es).children := by
          rw [← he₁]
          have hparts : (Expr.call pos func [type, v] [] (some number)).children =
              [func, type, v] := rfl
          rw [hparts]
          simp
        obtain ⟨c, hc, hwithin⟩ := exists_mem_children_of_withChildren hes hpart
        exact fun x hx => .part hc (hwithin x hx)
      split
      · exact answers_pure hwhole
      · rename_i entry hentry
        refine (answers_emit entry _).bind fun f? hf => ?_
        split
        · exact answers_pure (bindsWithin_of_emittedCode hvalue (hf _ rfl))
        · exact answers_pure hwhole
    · exact answers_pure hwhole

/-- Splicing all expressions that a value holds binds what stands in them. -/
theorem answers_spliceIn {α : Type} [Slots α] (k : Splicer) (a : α) :
    Answers (k.spliceIn a) (Mapped Expr.BindsWithin a) :=
  answers_slots_mapM k.answers_spliceExpr a

/-- What the second statement binds stands in the first one or is a label. -/
abbrev BindsWithin (k : Splicer) : Stmt → Stmt → Prop :=
  Stmt.Within Expr.Binds Expr.Targets k.plan.Labels

/-- What the second suite binds stands in the first one or is a label. -/
abbrev AllBindWithin (k : Splicer) : List Stmt → List Stmt → Prop :=
  Stmt.AllWithin Expr.Binds Expr.Targets k.plan.Labels

/-- A statement that stays binds what stands in it. -/
theorem bindsWithin_refl (k : Splicer) (t : Stmt) : k.BindsWithin t t :=
  fun _ hx => .inl (Stmt.Binds.mentions hx)

/-- A binding in place of a statement binds a label. -/
theorem answers_spliceBinding (k : Splicer) (number : Nat) (given : Simple) {pos : Pos} {t : Stmt}
    (h : k.BindsWithin t (.simple pos given)) :
    Answers (k.spliceBinding number given) fun t' => k.BindsWithin t (.simple pos t') := by
  unfold spliceBinding
  split
  · exact answers_pure h
  · rename_i entry hentry
    refine (answers_emit entry none).bind fun f? hf => ?_
    split
    · rename_i name value
      refine answers_pure fun x hx => ?_
      have hcode : EmittedCode k.emitter entry none (.binding (some name) value) := hf _ rfl
      cases hcode with
      | binding hlabel hmode hvalue =>
        have hname : x = name := by
          cases hx with
          | expression he hx =>
            rcases List.mem_append.1 he with he | he
            · rw [List.mem_singleton.1 (mem_slots_list.1 he)] at hx
              exact absurd hx (bindsNothing_name _ _ x)
            · rw [List.mem_singleton.1 he] at hx
              exact absurd hx (hvalue x)
          | target he hx =>
            rw [List.mem_singleton.1 he] at hx
            cases hx with
            | name => rfl
          | imported hx => exact absurd hx List.not_mem_nil
        rw [hname]
        exact .inr ⟨entry, mem_entries_of_entry? hentry, hmode, hlabel⟩
    · exact answers_pure h

/-- Splicing a simple statement binds what stands in it, or a label. -/
theorem answers_spliceSimple (k : Splicer) (pos : Pos) (t : Simple) :
    Answers (k.spliceSimple t) fun t' => k.BindsWithin (.simple pos t) (.simple pos t') := by
  unfold spliceSimple
  split
  · exact answers_spliceBinding k _ _ (bindsWithin_refl k _)
  · exact answers_spliceBinding k _ _ (bindsWithin_refl k _)
  · exact fun s t' s' h => Stmt.within_of_mapped (k.answers_spliceIn t h)

/-- The checks of parameters bind nothing. -/
theorem answers_spliceChecks (k : Splicer) (pos : Pos) (entries : List PlanEntry) :
    Answers (k.spliceChecks pos entries) fun checks => ∀ t ∈ checks, ∀ x, ¬ t.Binds x := by
  induction entries with
  | nil => exact answers_pure (by simp)
  | cons entry rest ih =>
    rw [spliceChecks]
    refine (answers_emit entry none).bind fun f? hf => ih.bind fun more hmore => ?_
    split
    · rename_i e
      have hcode : EmittedCode k.emitter entry none (.statement e) := hf _ rfl
      cases hcode with
      | statement he =>
        refine answers_pure (List.forall_mem_cons.2 ⟨fun x hx => ?_, hmore⟩)
        cases hx with
        | expression hslot hx =>
          rw [List.mem_singleton.1 hslot] at hx
          exact he x hx
        | target hslot hx => exact absurd hslot List.not_mem_nil
        | imported hx => exact absurd hx List.not_mem_nil
    · exact answers_pure hmore

/-- Behind the documentation of a suite nothing else is put than what is given. -/
theorem mem_insertBehindDocstring {new body : List Stmt} {t : Stmt}
    (h : t ∈ insertBehindDocstring new body) : t ∈ new ∨ t ∈ body := by
  unfold insertBehindDocstring at h
  rcases List.mem_append.1 h with h | h
  · rcases List.mem_append.1 h with h | h
    · exact .inr (List.mem_of_mem_take h)
    · exact .inl h
  · exact .inr (List.mem_of_mem_drop h)

/-- Without hints the parameters are the same otherwise. -/
theorem toList_stripHints (head : FunctionHead) :
    (stripHints head).params.toList = head.params.toList.map fun q => (q.1, stripHint q.2) := by
  have hoptional (o : Option (Parameter Expr)) :
      (o.map stripHint).toList = o.toList.map stripHint := by
    cases o <;> rfl
  simp only [stripHints, Parameters.toList, List.map_append, List.map_map, hoptional]
  rfl

/-- Without hints parameters have the same names and initial values. -/
theorem stripHints_params (head : FunctionHead) :
    (stripHints head).params.names = head.params.names ∧
      (stripHints head).params.initials = head.params.initials ∧
      (stripHints head).params.signature.filterMap (·.2.2) = [] := by
  unfold Parameters.names Parameters.initials Parameters.signature
  rw [toList_stripHints]
  refine ⟨by simp [Function.comp_def, stripHint], ?_, ?_⟩
  · rw [List.filterMap_map]
    rfl
  · rw [List.map_map, List.filterMap_map]
    exact List.filterMap_eq_nil_iff.2 fun _ _ => rfl

/-- A header without its hints binds what the header binds. -/
theorem within_stripHints {head head' : FunctionHead}
    (h : head.Within Expr.Binds head') : head.Within Expr.Binds (stripHints head') := by
  obtain ⟨hnames, hinitials, hhints⟩ := stripHints_params head'
  refine ⟨h.name, hnames.trans h.names, ?_⟩
  rintro x ⟨e, he, hx⟩
  refine h.expressions x ⟨e, FunctionHead.mem_expressions.2 ?_, hx⟩
  rcases FunctionHead.mem_expressions.1 he with he | he | he | he
  · exact .inl he
  · rw [hhints] at he
    exact absurd he List.not_mem_nil
  · exact .inr (.inr (.inl (hinitials ▸ he)))
  · cases he

/-- Checks behind the documentation of a suite bind nothing more. -/
theorem allBindWithin_insertBehindDocstring {k : Splicer} {body body' checks : List Stmt}
    (hbody : k.AllBindWithin body body') (hchecks : ∀ t ∈ checks, ∀ x, ¬ t.Binds x) :
    k.AllBindWithin body (insertBehindDocstring checks body') := by
  rintro x ⟨t, ht, hx⟩
  rcases mem_insertBehindDocstring ht with ht | ht
  · exact absurd hx (hchecks t ht x)
  · exact hbody x ⟨t, ht, hx⟩

/-- Splicing the header of a function binds what stands in it. -/
theorem within_of_spliceIn {head : FunctionHead} {params : Parameters Expr} {decorators : List Expr}
    (hparams : Mapped Expr.BindsWithin head.params params)
    (hdecorators : Mapped Expr.BindsWithin head.decorators decorators) :
    head.Within Expr.Binds { head with params, decorators } := by
  have hsignature : params.signature = head.params.signature := by
    obtain ⟨es, -, rfl⟩ := hparams
    exact signature_refill _ es
  have hvariadic : params.variadic = head.params.variadic ∧
      params.keywordVariadic = head.params.keywordVariadic := by
    obtain ⟨es, -, rfl⟩ := hparams
    exact ⟨rfl, rfl⟩
  refine ⟨rfl, by simp only [Parameters.names, hsignature], ?_⟩
  rintro x ⟨e, he, hx⟩
  have hpart (he : e ∈ slots params) : ∃ e ∈ head.expressions, e.Mentions x := by
    obtain ⟨e, he, hx⟩ := hparams.exists_mentions ⟨e, he, .inl hx⟩
    refine ⟨e, FunctionHead.mem_expressions.2 (.inr (.inr (.inl (mem_initials.2 ?_)))), hx⟩
    rcases BoundedSlots.mem_pair.1 he with he | he
    · exact .inr (.inr (.inr (.inl he)))
    · rcases BoundedSlots.mem_pair.1 he with he | he
      · exact .inl he
      · exact .inr (.inl he)
  have hkept (he : e ∈ head.expressions) : ∃ e ∈ head.expressions, e.Mentions x :=
    ⟨e, he, hx.mentions⟩
  rcases FunctionHead.mem_expressions.1 he with he | he | he | he
  · obtain ⟨e, he, hx⟩ := hdecorators.exists_mentions ⟨e, he, .inl hx⟩
    exact ⟨e, FunctionHead.mem_expressions.2 (.inl he), hx⟩
  · exact hkept (FunctionHead.mem_expressions.2 (.inr (.inl (hsignature ▸ he))))
  · rcases mem_initials.1 he with he | he | he | he | he
    · exact hpart (BoundedSlots.mem_pair.2 (.inr (BoundedSlots.mem_pair.2 (.inl he))))
    · exact hpart (BoundedSlots.mem_pair.2 (.inr (BoundedSlots.mem_pair.2 (.inr he))))
    · have hinitial := mem_initials.2 (.inr (.inr (.inl (hvariadic.1 ▸ he))))
      exact hkept (FunctionHead.mem_expressions.2 (.inr (.inr (.inl hinitial))))
    · exact hpart (BoundedSlots.mem_pair.2 (.inl he))
    · have hinitial := mem_initials.2 (.inr (.inr (.inr (.inr (hvariadic.2 ▸ he)))))
      exact hkept (FunctionHead.mem_expressions.2 (.inr (.inr (.inl hinitial))))
  · exact hkept (FunctionHead.mem_expressions.2 (.inr (.inr (.inr he))))

mutual

/-- Splicing a statement binds what stands in it, or labels. -/
theorem answers_spliceStmt (k : Splicer) : (t : Stmt) →
    Answers (k.spliceStmt t) (k.BindsWithin t)
  | .simple pos t => by
    rw [spliceStmt]
    refine (k.answers_spliceSimple pos t).bind fun t' ht' => ?_
    exact answers_pure ht'
  | .function pos head body => by
    rw [spliceStmt]
    refine (k.answers_spliceIn head.params).bind fun params hparams => ?_
    refine (k.answers_spliceAll body).bind fun body' hbody => ?_
    refine (k.answers_spliceIn head.decorators).bind fun decorators hdecorators => ?_
    have hhead := within_of_spliceIn hparams hdecorators
    dsimp only
    split
    · exact answers_pure (Stmt.within_function hhead hbody)
    · refine (k.answers_spliceChecks pos _).bind fun checks hchecks => answers_pure ?_
      exact Stmt.within_function (within_stripHints hhead)
        (allBindWithin_insertBehindDocstring hbody hchecks)
  | .classDef pos head body => by
    rw [spliceStmt]
    split
    · have hpass : k.BindsWithin (.classDef pos head body) (.simple pos .pass) := by
        intro x hx
        cases hx with
        | expression he hx => exact absurd he List.not_mem_nil
        | target he hx => exact absurd he List.not_mem_nil
        | imported hx => exact absurd hx List.not_mem_nil
      refine (k.answers_spliceBinding _ .pass hpass).bind fun t' ht' => ?_
      exact answers_pure ht'
    · refine (k.answers_spliceIn head.bases).bind fun bases hbases => ?_
      refine (k.answers_spliceIn head.keywords).bind fun keywords hkeywords => ?_
      refine (k.answers_spliceAll body).bind fun body' hbody => ?_
      refine (k.answers_spliceIn head.decorators).bind fun decorators hdecorators => ?_
      exact answers_pure (Stmt.within_classDef
        (ClassHead.within_of_mapped hbases hkeywords hdecorators) hbody)
  | .branch pos test body orelse => by
    rw [spliceStmt]
    refine (k.answers_spliceIn test).bind fun test' htest => ?_
    refine (k.answers_spliceAll body).bind fun body' hbody => ?_
    refine (k.answers_spliceAll orelse).bind fun orelse' horelse => answers_pure ?_
    exact Stmt.within_branch htest.expr hbody horelse
  | .compound pos clauses => by
    rw [spliceStmt]
    refine (k.answers_spliceClauses clauses).bind fun clauses' hclauses => answers_pure ?_
    exact Stmt.within_compound hclauses

/-- Splicing statements binds what stands in them, or labels. -/
theorem answers_spliceAll (k : Splicer) : (ts : List Stmt) →
    Answers (k.spliceAll ts) (k.AllBindWithin ts)
  | [] => by
    rw [spliceAll]
    exact answers_pure Stmt.allWithin_nil
  | t :: rest => by
    rw [spliceAll]
    refine (k.answers_spliceStmt t).bind fun t' ht => ?_
    exact (k.answers_spliceAll rest).bind fun rest' hrest => answers_pure (.cons ht hrest)

/-- Splicing clauses binds what stands in them, or labels. -/
theorem answers_spliceClauses (k : Splicer) : (clauses : List (Clause Stmt)) →
    Answers (k.spliceClauses clauses)
      (List.Forall₂ (Clause.Within Expr.Binds Expr.Targets k.plan.Labels) clauses)
  | [] => by
    rw [spliceClauses]
    exact answers_pure .nil
  | ⟨head, body⟩ :: rest => by
    rw [spliceClauses]
    refine (k.answers_spliceIn head).bind fun head' hhead => ?_
    refine (k.answers_spliceAll body).bind fun body' hbody => ?_
    refine (k.answers_spliceClauses rest).bind fun rest' hrest => answers_pure ?_
    exact .cons ⟨hhead, hbody⟩ hrest

end

end Splicer

/-- A spliced module is the lowered one with code in it, or such a module behind the import of the
runtime library. The code binds what stands in the lowered module, or labels. -/
theorem exists_binds_of_splice {emitter : Emitter} {plan : Plan} {runtimeModule : String}
    {tree : Module} {spliced : Spliced}
    (h : splice emitter plan runtimeModule tree = .ok spliced) :
    ∃ m : Module, (∀ x, m.Binds x → tree.Mentions x ∨ plan.Labels x) ∧
      (spliced.emitted = [] ∧ spliced.tree = m ∨
        spliced.tree = insertImport (runtimeImport emitter.runtime runtimeModule) m) := by
  unfold splice at h
  obtain ⟨⟨m, emitted⟩, hm, h⟩ := Except.bind_eq_ok.1 h
  have hbinds := Splicer.answers_spliceAll ⟨emitter, plan⟩ tree hm
  refine ⟨m, hbinds, ?_⟩
  cases emitted with
  | nil =>
    obtain rfl := Except.ok.inj h
    exact .inl ⟨rfl, rfl⟩
  | cons entry rest =>
    obtain rfl := Except.ok.inj h
    exact .inr rfl

end Typeward
