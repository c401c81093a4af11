import Typeward.Proofs.LoweringRuns
import Typeward.Proofs.Rewritings

/-!
# Names in lowered modules

Lowering writes numbers of declarations into a tree and changes nothing else. Every name that stands
in the lowered module stands in the module that it was lowered from.
-/

namespace Typeward

open Slots

/-- Every name that stands in the second expression stands in the first one. -/
abbrev Expr.KeepsNames : Expr → Expr → Prop := Expr.Within Expr.Mentions fun _ _ => False

/-- Every name that stands in the second statement stands in the first one. -/
abbrev Stmt.KeepsNames : Stmt → Stmt → Prop :=
  Stmt.Within Expr.Mentions (fun _ _ => False) fun _ => False

/-- Every name that stands in the second suite stands in the first one. -/
abbrev Stmt.AllKeepNames : List Stmt → List Stmt → Prop :=
  Stmt.AllWithin Expr.Mentions (fun _ _ => False) fun _ => False

/-- An expression keeps its names. -/
theorem Expr.keepsNames_refl (e : Expr) : e.KeepsNames e := by
  rintro x (hx | hx)
  · exact hx
  · exact hx.elim

/-- A suite keeps its names. -/
theorem Stmt.allKeepNames_refl (ts : List Stmt) : AllKeepNames ts ts := fun _ hx => .inl hx

/-- A simple statement keeps the names in its expressions and those that it imports. -/
theorem Stmt.keepsNames_simple {pos : Pos} {t t' : Simple} (hslots : slots t' = slots t)
    (himported : t'.imported = t.imported) : KeepsNames (.simple pos t) (.simple pos t') := by
  intro x hx
  cases hx with
  | expression he hx => exact .inl (.expression (hslots ▸ he) hx)
  | target he hx => exact hx.elim
  | imported hx => exact .inl (.imported (himported ▸ hx))

/-- Parts that keep their names keep those of the whole expression. -/
theorem Expr.keepsNames_withChildren {e : Expr} {es : List Expr}
    (h : List.Forall₂ KeepsNames e.children es) : e.KeepsNames (e.withChildren es) := by
  rintro x (hx | hx)
  · rcases mentions_iff.1 hx with hx | ⟨c', hc', hx⟩
    · rw [own_withChildren] at hx
      exact .own hx
    · obtain ⟨c, hc, hkeeps⟩ := exists_mem_children_of_withChildren h hc'
      exact .part hc (hkeeps x (.inl hx))
  · exact hx.elim

/-- A cast keeps its names if its value does. -/
theorem Expr.keepsNames_cast {pos : Pos} {func type value value' : Expr} {decl decl' : Option Nat}
    (h : value.KeepsNames value') :
    KeepsNames (.call pos func [type, value] [] decl) (.call pos func [type, value'] [] decl') := by
  have hparts : (Expr.call pos func [type, value] [] decl).children = [func, type, value] := rfl
  have hvalues : List.Forall₂ KeepsNames [func, type, value] [func, type, value'] :=
    .cons (keepsNames_refl func) (.cons (keepsNames_refl type) (.cons h .nil))
  have hnumber : KeepsNames (.call pos func [type, value] [] decl)
      (.call pos func [type, value'] [] decl) := keepsNames_withChildren (hparts ▸ hvalues)
  rintro x (hx | hx)
  · refine hnumber x (.inl ?_)
    rcases mentions_iff.1 hx with hx | ⟨c, hc, hx⟩
    · exact .own hx
    · exact .part hc hx
  · exact hx.elim

namespace Lower

open Typeward.Action

/-- A fault answers nothing. -/
theorem answers_lowerFault {α : Type} {P : α → Prop} (c : LowerContext) (e : Expr)
    (construct : String) : Answers (lowerFault c e construct) P := by
  intro s a s' h
  simp [lowerFault, HintContext.unsupported] at h

/-- Lowering an expression keeps its names. -/
theorem answers_lowerExpr (c : LowerContext) (e : Expr) : Answers (lowerExpr c e) e.KeepsNames := by
  fun_induction lowerExpr c e with
  | case1 pos func type value decl h ih =>
    refine answers_bind fun lowered => answers_bind fun label => answers_bind fun number => ?_
    exact ih.bind fun value' hvalue => answers_pure (Expr.keepsNames_cast hvalue)
  | case2 e h hne => exact answers_lowerFault c _ _
  | case3 e h ih =>
    intro s e' s' h
    obtain ⟨es, hes, rfl⟩ := answers_mapChildren ih h
    exact Expr.keepsNames_withChildren hes

/-- Lowering all expressions that a value holds keeps their names. -/
theorem answers_lowerIn {α : Type} [Slots α] (c : LowerContext) (a : α) :
    Answers (lowerIn c a) (Mapped Expr.KeepsNames a) :=
  answers_slots_mapM (answers_lowerExpr c) a

/-- Lowering initial values keeps the names in them. -/
theorem answers_lowerInitials (c : LowerContext) (params : Parameters Expr) :
    Answers (lowerInitials c params) fun params' =>
      ∀ x, (∃ e ∈ params'.initials, e.Mentions x) → ∃ e ∈ params.initials, e.Mentions x := by
  refine (answers_lowerIn c _).bind fun positionalOnly hpositionalOnly => ?_
  refine (answers_lowerIn c _).bind fun positional hpositional => ?_
  refine (answers_lowerIn c _).bind fun keywordOnly hkeywordOnly => answers_pure ?_
  rintro x ⟨e, he, hx⟩
  rcases mem_initials.1 he with he | he | he | he | he
  · obtain ⟨e, he, hx⟩ := hpositionalOnly.exists_mentions ⟨e, he, .inl hx⟩
    exact ⟨e, mem_initials.2 (.inl he), hx⟩
  · obtain ⟨e, he, hx⟩ := hpositional.exists_mentions ⟨e, he, .inl hx⟩
    exact ⟨e, mem_initials.2 (.inr (.inl he)), hx⟩
  · exact ⟨e, mem_initials.2 (.inr (.inr (.inl he))), hx⟩
  · obtain ⟨e, he, hx⟩ := hkeywordOnly.exists_mentions ⟨e, he, .inl hx⟩
    exact ⟨e, mem_initials.2 (.inr (.inr (.inr (.inl he)))), hx⟩
  · exact ⟨e, mem_initials.2 (.inr (.inr (.inr (.inr he)))), hx⟩

/-- Lowering a simple statement keeps its names. -/
theorem answers_lowerSimple (c : LowerContext) (pos : Pos) (t : Simple) :
    Answers (lowerSimple c pos t) fun t' => Stmt.KeepsNames (.simple pos t) (.simple pos t') := by
  have hmapped : Answers (lowerIn c t) fun t' =>
      Stmt.KeepsNames (.simple pos t) (.simple pos t') :=
    fun s t' s' h => Stmt.within_of_mapped (answers_lowerIn c t h)
  unfold lowerSimple
  split
  · split
    · refine answers_bind fun type => answers_bind fun number => answers_pure ?_
      exact Stmt.keepsNames_simple rfl rfl
    · exact hmapped
  · split
    · split
      · refine answers_bind fun type => answers_bind fun number => answers_pure ?_
        exact Stmt.keepsNames_simple rfl rfl
      · exact answers_lowerFault c _ _
    · exact hmapped
  · exact hmapped

mutual

/-- Lowering a statement keeps its names. -/
theorem answers_lowerStmt (c : LowerContext) : (t : Stmt) → Answers (lowerStmt c t) t.KeepsNames
  | .simple pos t => by
    rw [lowerStmt]
    refine (answers_lowerSimple c pos t).bind fun t' ht' => ?_
    exact answers_pure ht'
  | .function pos head body => by
    rw [lowerStmt]
    intro s t' s' h
    obtain ⟨decorators, s₁, hdecorators, h⟩ := bind_eq_ok.1 h
    obtain ⟨params, s₂, hparams, h⟩ := bind_eq_ok.1 h
    obtain ⟨typed, s₃, -, h⟩ := bind_eq_ok.1 h
    obtain ⟨number, s₄, -, h⟩ := bind_eq_ok.1 h
    obtain ⟨body', s₅, hbody, h⟩ := bind_eq_ok.1 h
    obtain ⟨rfl, -⟩ := pure_eq_ok.1 h
    have hsignature : params.signature = head.params.signature := signature_of_lowerInitials hparams
    have hhead : head.Within Expr.Mentions
        { head with decorators, params, decl := some number } := by
      refine ⟨rfl, by simp only [Parameters.names, hsignature], ?_⟩
      rintro x ⟨e, he, hx⟩
      rcases FunctionHead.mem_expressions.1 he with he | he | he | he
      · obtain ⟨e, he, hx⟩ :=
          (answers_lowerIn c _ hdecorators).exists_mentions ⟨e, he, .inl hx⟩
        exact ⟨e, FunctionHead.mem_expressions.2 (.inl he), hx⟩
      · have hhint : e ∈ head.params.signature.filterMap (·.2.2) := hsignature ▸ he
        exact ⟨e, FunctionHead.mem_expressions.2 (.inr (.inl hhint)), hx⟩
      · obtain ⟨e, he, hx⟩ := answers_lowerInitials c _ hparams x ⟨e, he, hx⟩
        exact ⟨e, FunctionHead.mem_expressions.2 (.inr (.inr (.inl he))), hx⟩
      · exact ⟨e, FunctionHead.mem_expressions.2 (.inr (.inr (.inr he))), hx⟩
    exact Stmt.within_function hhead (answers_lowerAll c.inside body hbody)
  | .classDef pos head body => by
    rw [lowerStmt]
    refine answers_bind fun s => ?_
    split
    · refine answers_bind fun number => answers_pure ?_
      have hhead : head.Within Expr.Mentions { head with decl := some number } :=
        ⟨rfl, fun x hx => hx⟩
      exact Stmt.within_classDef hhead (Stmt.allKeepNames_refl body)
    · refine (answers_lowerIn c.inside _).bind fun bases hbases => ?_
      refine (answers_lowerIn c.inside _).bind fun keywords hkeywords => ?_
      refine (answers_lowerAll c.inside body).bind fun body' hbody => ?_
      refine (answers_lowerIn c.inside _).bind fun decorators hdecorators => answers_pure ?_
      exact Stmt.within_classDef (ClassHead.within_of_mapped hbases hkeywords hdecorators) hbody
  | .branch pos test body orelse => by
    rw [lowerStmt]
    split
    · refine (answers_lowerAll c orelse).bind fun orelse' horelse => answers_pure ?_
      exact Stmt.within_branch (Expr.keepsNames_refl test) (Stmt.allKeepNames_refl body) horelse
    · refine (answers_lowerIn c test).bind fun test' htest => ?_
      refine (answers_lowerAll c body).bind fun body' hbody => ?_
      refine (answers_lowerAll c orelse).bind fun orelse' horelse => answers_pure ?_
      exact Stmt.within_branch htest.expr hbody horelse
  | .compound pos clauses => by
    rw [lowerStmt]
    refine (answers_lowerClauses c clauses).bind fun clauses' hclauses => answers_pure ?_
    exact Stmt.within_compound hclauses

/-- Lowering statements keeps their names. -/
theorem answers_lowerAll (c : LowerContext) : (ts : List Stmt) →
    Answers (lowerAll c ts) (Stmt.AllKeepNames ts)
  | [] => by
    rw [lowerAll]
    exact answers_pure Stmt.allWithin_nil
  | t :: rest => by
    rw [lowerAll]
    refine (answers_lowerStmt c t).bind fun t' ht => ?_
    exact (answers_lowerAll c rest).bind fun rest' hrest => answers_pure (.cons ht hrest)

/-- Lowering clauses keeps their names. -/
theorem answers_lowerClauses (c : LowerContext) : (clauses : List (Clause Stmt)) →
    Answers (lowerClauses c clauses)
      (List.Forall₂ (Clause.Within Expr.Mentions (fun _ _ => False) fun _ => False) clauses)
  | [] => by
    rw [lowerClauses]
    exact answers_pure .nil
  | ⟨head, body⟩ :: rest => by
    rw [lowerClauses]
    refine (answers_lowerIn c head).bind fun head' hhead => ?_
    refine (answers_lowerAll c body).bind fun body' hbody => ?_
    refine (answers_lowerClauses c rest).bind fun rest' hrest => answers_pure ?_
    exact .cons ⟨hhead, hbody⟩ hrest

end

/-- Every name that stands in a lowered module stands in the module that it was lowered from. -/
theorem mentions_of_lowerTree {tree : Module} {file : String} {comments : List (Nat × String)}
    {options : Options} {lowered : Lowered}
    (h : lowerTree tree file comments options = .ok lowered) {x : String}
    (hx : lowered.tree.Mentions x) : tree.Mentions x := by
  unfold lowerTree at h
  obtain ⟨⟨tree', s⟩, htree, h⟩ := Except.bind_eq_ok.1 h
  obtain rfl := Except.ok.inj h
  rcases answers_lowerAll _ tree htree x hx with hx | hx
  · exact hx
  · exact hx.elim

/-- What a lowered module declares to be bound is bound in the module that it was lowered from. -/
theorem binds_of_mem_declarations {tree : Module} {file : String} {comments : List (Nat × String)}
    {options : Options} {lowered : Lowered}
    (h : lowerTree tree file comments options = .ok lowered) {d : Declaration} {x : String}
    (hd : d ∈ lowered.declarations) (hx : d.bound? = some x) : tree.Binds x := by
  unfold lowerTree at h
  obtain ⟨⟨tree', s⟩, htree, h⟩ := Except.bind_eq_ok.1 h
  obtain rfl := Except.ok.inj h
  obtain ⟨new, heq, hnew⟩ := adds_lowerAll _ tree htree
  have hmem : d ∈ new := by
    rw [List.nil_append] at heq
    exact heq ▸ hd
  exact hnew d hmem x hx

end Lower

end Typeward
