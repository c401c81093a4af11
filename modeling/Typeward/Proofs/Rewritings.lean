import Typeward.Proofs.Actions

/-!
# Names in rewritten modules

A pass over a module rewrites expressions, headers and suites and keeps their order. What the
rewritten module names, in the sense of `E` for expressions and `T` for left sides, stands in the
former one or is among the names that the pass may add. This is passed on from the parts of
statements to statements.
-/

namespace Typeward

open Slots

variable {E T : String → Expr → Prop} {D : String → Prop}

/-- What the second expression names stands in the first one. -/
def Expr.Within (E T : String → Expr → Prop) (e e' : Expr) : Prop :=
  ∀ x, E x e' ∨ T x e' → e.Mentions x

/-- What the second statement names stands in the first one or may be added. -/
def Stmt.Within (E T : String → Expr → Prop) (D : String → Prop) (t t' : Stmt) : Prop :=
  ∀ x, t'.Names (E x) (T x) x → t.Mentions x ∨ D x

/-- What the second suite names stands in the first one or may be added. -/
def Stmt.AllWithin (E T : String → Expr → Prop) (D : String → Prop) (ts ts' : List Stmt) : Prop :=
  ∀ x, (∃ t ∈ ts', t.Names (E x) (T x) x) → (∃ t ∈ ts, t.Mentions x) ∨ D x

/-- What the second header of a function names stands in the first one. -/
structure FunctionHead.Within (E : String → Expr → Prop) (f f' : FunctionHead) : Prop where
  name : f'.name = f.name
  names : f'.params.names = f.params.names
  expressions : ∀ x, (∃ e ∈ f'.expressions, E x e) → ∃ e ∈ f.expressions, e.Mentions x

/-- What the second header of a class names stands in the first one. -/
structure ClassHead.Within (E : String → Expr → Prop) (c c' : ClassHead) : Prop where
  name : c'.name = c.name
  expressions : ∀ x, (∃ e ∈ c'.expressions, E x e) → ∃ e ∈ c.expressions, e.Mentions x

/-- What the second clause names stands in the first one or may be added. -/
structure Clause.Within (E T : String → Expr → Prop) (D : String → Prop) (c c' : Clause Stmt) :
    Prop where
  head : Mapped (Expr.Within E T) c.head c'.head
  body : Stmt.AllWithin E T D c.body c'.body

/-- What the expressions in a value name stands in those that they correspond to. -/
theorem Slots.Mapped.exists_mentions {α : Type} [Slots α] {a a' : α} {x : String}
    (h : Mapped (Expr.Within E T) a a') (hx : ∃ e ∈ slots a', E x e ∨ T x e) :
    ∃ e ∈ slots a, e.Mentions x := by
  obtain ⟨e', he', hx⟩ := hx
  obtain ⟨e, he, hwithin⟩ := h.exists_mem he'
  exact ⟨e, he, hwithin x hx⟩

/-- An expression holds itself. -/
theorem Slots.Mapped.expr {R : Expr → Expr → Prop} {e e' : Expr} (h : Mapped R e e') : R e e' := by
  obtain ⟨e₁, he₁, hR⟩ := h.exists_mem (List.mem_singleton_self e')
  rwa [List.mem_singleton.1 he₁] at hR

/-- Headers of classes are rewritten part by part. -/
theorem ClassHead.within_of_mapped {c : ClassHead} {bases decorators : List Expr}
    {keywords : List (Keyword Expr)} (hbases : Mapped (Expr.Within E T) c.bases bases)
    (hkeywords : Mapped (Expr.Within E T) c.keywords keywords)
    (hdecorators : Mapped (Expr.Within E T) c.decorators decorators) :
    c.Within E { c with bases, keywords, decorators } where
  name := rfl
  expressions := by
    rintro x ⟨e, he, hx⟩
    rcases mem_expressions.1 he with he | he | he
    · obtain ⟨e, he, hx⟩ := hbases.exists_mentions ⟨e, he, .inl hx⟩
      exact ⟨e, mem_expressions.2 (.inl he), hx⟩
    · obtain ⟨e, he, hx⟩ := hkeywords.exists_mentions ⟨e, he, .inl hx⟩
      exact ⟨e, mem_expressions.2 (.inr (.inl he)), hx⟩
    · obtain ⟨e, he, hx⟩ := hdecorators.exists_mentions ⟨e, he, .inl hx⟩
      exact ⟨e, mem_expressions.2 (.inr (.inr he)), hx⟩

namespace Stmt

variable {pos : Pos}

/-- A simple statement is rewritten expression by expression. -/
theorem within_of_mapped {t t' : Simple} (h : Mapped (Expr.Within E T) t t') :
    Within E T D (.simple pos t) (.simple pos t') := by
  intro x hx
  cases hx with
  | expression he hx =>
    obtain ⟨e, he, hx⟩ := h.exists_mentions ⟨_, he, .inl hx⟩
    exact .inl (.expression he hx)
  | target he hx =>
    obtain ⟨e, he, hx⟩ := h.exists_mentions ⟨_, Simple.mem_slots_of_targets he, .inr hx⟩
    exact .inl (.expression he hx)
  | imported hx =>
    obtain ⟨es, -, rfl⟩ := h
    rw [Simple.imported_refill] at hx
    exact .inl (.imported hx)

/-- A function is rewritten by its header and its body. -/
theorem within_function {head head' : FunctionHead} {body body' : List Stmt}
    (hhead : head.Within E head') (hbody : AllWithin E T D body body') :
    Within E T D (.function pos head body) (.function pos head' body') := by
  intro x hx
  cases hx with
  | function hx =>
    rw [hhead.name] at hx
    exact .inl (.function hx)
  | parameter hx =>
    rw [hhead.names] at hx
    exact .inl (.parameter hx)
  | signature he hx =>
    obtain ⟨e, he, hx⟩ := hhead.expressions x ⟨_, he, hx⟩
    exact .inl (.signature he hx)
  | functionBody ht hx =>
    rcases hbody x ⟨_, ht, hx⟩ with ⟨t, ht, hx⟩ | hx
    · exact .inl (.functionBody ht hx)
    · exact .inr hx

/-- A class is rewritten by its header and its body. -/
theorem within_classDef {head head' : ClassHead} {body body' : List Stmt}
    (hhead : head.Within E head') (hbody : AllWithin E T D body body') :
    Within E T D (.classDef pos head body) (.classDef pos head' body') := by
  intro x hx
  cases hx with
  | classDef hx =>
    rw [hhead.name] at hx
    exact .inl (.classDef hx)
  | base he hx =>
    obtain ⟨e, he, hx⟩ := hhead.expressions x ⟨_, he, hx⟩
    exact .inl (.base he hx)
  | classBody ht hx =>
    rcases hbody x ⟨_, ht, hx⟩ with ⟨t, ht, hx⟩ | hx
    · exact .inl (.classBody ht hx)
    · exact .inr hx

/-- A branch is rewritten by its test and its suites. -/
theorem within_branch {test test' : Expr} {body body' orelse orelse' : List Stmt}
    (htest : test.Within E T test') (hbody : AllWithin E T D body body')
    (horelse : AllWithin E T D orelse orelse') :
    Within E T D (.branch pos test body orelse) (.branch pos test' body' orelse') := by
  intro x hx
  cases hx with
  | test hx => exact .inl (.test (htest x (.inl hx)))
  | body ht hx =>
    rcases hbody x ⟨_, ht, hx⟩ with ⟨t, ht, hx⟩ | hx
    · exact .inl (.body ht hx)
    · exact .inr hx
  | orelse ht hx =>
    rcases horelse x ⟨_, ht, hx⟩ with ⟨t, ht, hx⟩ | hx
    · exact .inl (.orelse ht hx)
    · exact .inr hx

/-- A compound statement is rewritten clause by clause. -/
theorem within_compound {clauses clauses' : List (Clause Stmt)}
    (h : List.Forall₂ (Clause.Within E T D) clauses clauses') :
    Within E T D (.compound pos clauses) (.compound pos clauses') := by
  intro x hx
  cases hx with
  | header hc he hx =>
    obtain ⟨c, hc, hwithin⟩ := exists_mem_of_forall₂ h hc
    obtain ⟨e, he, hx⟩ := hwithin.head.exists_mentions ⟨_, he, .inl hx⟩
    exact .inl (.header hc he hx)
  | headerTarget hc he hx =>
    obtain ⟨c, hc, hwithin⟩ := exists_mem_of_forall₂ h hc
    have hslots := ClauseHead.mem_slots_of_targets he
    obtain ⟨e, he, hx⟩ := hwithin.head.exists_mentions ⟨_, hslots, .inr hx⟩
    exact .inl (.header hc he hx)
  | captured hc hx =>
    obtain ⟨c, hc, hwithin⟩ := exists_mem_of_forall₂ h hc
    obtain ⟨es, -, heq⟩ := hwithin.head
    rw [heq] at hx
    exact .inl (.captured hc (ClauseHead.captures_of_refill hx))
  | clauseBody hc ht hx =>
    obtain ⟨c, hc, hwithin⟩ := exists_mem_of_forall₂ h hc
    rcases hwithin.body x ⟨_, ht, hx⟩ with ⟨t, ht, hx⟩ | hx
    · exact .inl (.clauseBody hc ht hx)
    · exact .inr hx

/-- A suite without statements names nothing. -/
theorem allWithin_nil : AllWithin E T D [] [] := by
  rintro x ⟨t, ht, -⟩
  simp at ht

/-- A suite is rewritten statement by statement. -/
theorem AllWithin.cons {t t' : Stmt} {rest rest' : List Stmt} (h : Within E T D t t')
    (hrest : AllWithin E T D rest rest') : AllWithin E T D (t :: rest) (t' :: rest') := by
  rintro x ⟨u, hu, hx⟩
  rcases List.mem_cons.1 hu with rfl | hu
  · rcases h x hx with hx | hx
    · exact .inl ⟨t, List.mem_cons_self, hx⟩
    · exact .inr hx
  · rcases hrest x ⟨u, hu, hx⟩ with ⟨v, hv, hx⟩ | hx
    · exact .inl ⟨v, List.mem_cons_of_mem _ hv, hx⟩
    · exact .inr hx

end Stmt

end Typeward
