import Typeward.Proofs.Occurrences

/-!
# The nodes of a module

All statements of a module in source order, those in suites included, and the expressions that each
of them holds itself. A condition can be asked of all nodes. In a tree as it is read from a text no
node carries the number of a declaration. What a node mentions stands in the module.
-/

namespace Typeward

open Slots

/-- A condition holds of an expression and of everything in it. -/
inductive Expr.Everywhere (P : Expr → Prop) : Expr → Prop
  | node {e} (here : P e) (parts : ∀ c ∈ e.children, Everywhere P c) : Everywhere P e

/-- What holds everywhere in an expression holds of it. -/
theorem Expr.Everywhere.here {P : Expr → Prop} {e : Expr} (h : e.Everywhere P) : P e := by
  cases h with
  | node here parts => exact here

/-- What holds everywhere in an expression holds everywhere in its parts. -/
theorem Expr.Everywhere.of_mem_children {P : Expr → Prop} {e c : Expr} (h : e.Everywhere P)
    (hc : c ∈ e.children) : c.Everywhere P := by
  cases h with
  | node here parts => exact parts c hc

/-- What follows from a condition that holds everywhere in an expression holds everywhere in it. -/
theorem Expr.Everywhere.mono {P Q : Expr → Prop} {e : Expr} (h : e.Everywhere P)
    (hPQ : ∀ e, P e → Q e) : e.Everywhere Q := by
  induction h with
  | node here parts ih => exact .node (hPQ _ here) ih

/-- The number of the declaration that an expression carries. -/
def Expr.number? : Expr → Option Nat
  | .call _ _ _ _ decl => decl
  | _ => none

/-- The number of the declaration that a simple statement carries. -/
def Simple.number? : Simple → Option Nat
  | .assign _ _ decl | .annotated _ _ _ _ decl => decl
  | _ => none

/-- The number of the declaration that a statement carries. -/
def Stmt.number? : Stmt → Option Nat
  | .simple _ t => t.number?
  | .function _ head _ => head.decl
  | .classDef _ head _ => head.decl
  | .branch .. | .compound .. => none

/-- The expressions that a statement holds outside of its suites; the hints of a function are no
code. -/
def Stmt.held : Stmt → List Expr
  | .simple _ t => slots t
  | .function _ head _ => slots head.decorators ++ slots head.params
  | .classDef _ head _ => slots head.bases ++ slots head.keywords ++ slots head.decorators
  | .branch _ test _ _ => slots test
  | .compound _ clauses => clauses.flatMap (slots ·.head)

/-- The expressions in a statement outside of its suites, hints included. -/
def Stmt.expressions : Stmt → List Expr
  | .simple _ t => slots t
  | .function _ head _ => head.expressions
  | .classDef _ head _ => head.expressions
  | .branch _ test _ _ => [test]
  | .compound _ clauses => clauses.flatMap (slots ·.head)

/-- The expressions that a statement holds stand in it. -/
theorem Stmt.mem_expressions_of_mem_held {t : Stmt} {e : Expr} (h : e ∈ t.held) :
    e ∈ t.expressions := by
  cases t with
  | simple | branch | compound => exact h
  | function pos head body =>
    refine FunctionHead.mem_expressions.2 ?_
    rcases List.mem_append.1 h with h | h
    · exact .inl h
    · refine .inr (.inr (.inl (mem_initials.2 ?_)))
      rcases BoundedSlots.mem_pair.1 h with h | h
      · exact .inr (.inr (.inr (.inl h)))
      · rcases BoundedSlots.mem_pair.1 h with h | h
        · exact .inl h
        · exact .inr (.inl h)
  | classDef pos head body =>
    refine ClassHead.mem_expressions.2 ?_
    rcases List.mem_append.1 h with h | h
    · rcases List.mem_append.1 h with h | h
      · exact .inl h
      · exact .inr (.inl h)
    · exact .inr (.inr h)

mutual

/-- A statement and all statements in its suites. -/
def Stmt.nodes : Stmt → List Stmt
  | .simple pos t => [.simple pos t]
  | .function pos head body => .function pos head body :: allNodes body
  | .classDef pos head body => .classDef pos head body :: allNodes body
  | .branch pos test body orelse =>
    .branch pos test body orelse :: (allNodes body ++ allNodes orelse)
  | .compound pos clauses => .compound pos clauses :: clauseNodes clauses

/-- All statements in a suite and in the suites of its members. -/
def Stmt.allNodes : List Stmt → List Stmt
  | [] => []
  | t :: rest => t.nodes ++ allNodes rest

/-- All statements in the suites of clauses. -/
def Stmt.clauseNodes : List (Clause Stmt) → List Stmt
  | [] => []
  | ⟨_, body⟩ :: rest => allNodes body ++ clauseNodes rest

end

/-- Nothing in an expression carries a number. -/
abbrev Expr.Unnumbered (e : Expr) : Prop := e.Everywhere (·.number? = none)

/-- A statement and the expressions that it holds carry no numbers. -/
def Stmt.Unnumbered (t : Stmt) : Prop := t.number? = none ∧ ∀ e ∈ t.held, e.Unnumbered

/-- Nothing in a suite carries a number. -/
def Stmt.AllUnnumbered (ts : List Stmt) : Prop := ∀ t ∈ allNodes ts, t.Unnumbered

/-- With other parts an expression carries the same number. -/
@[simp] theorem Expr.number?_withChildren (e : Expr) (es : List Expr) :
    (e.withChildren es).number? = e.number? := by
  cases e <;> rfl

/-- With other expressions a simple statement carries the same number. -/
@[simp] theorem Simple.number?_refill (t : Simple) (es : List Expr) :
    (refill t es).number? = t.number? := by
  cases t <;> rfl

namespace Stmt

variable {x : String}

/-- What the expressions of a statement mention stands in the statement. -/
theorem mentions_of_mem_held {t : Stmt} {e : Expr} (he : e ∈ t.held) (h : e.Mentions x) :
    t.Mentions x := by
  cases t with
  | simple pos t => exact .expression he h
  | function pos head body =>
    refine .signature (FunctionHead.mem_expressions.2 ?_) h
    rcases List.mem_append.1 he with he | he
    · exact .inl he
    · refine .inr (.inr (.inl (mem_initials.2 ?_)))
      rcases BoundedSlots.mem_pair.1 he with he | he
      · exact .inr (.inr (.inr (.inl he)))
      · rcases BoundedSlots.mem_pair.1 he with he | he
        · exact .inl he
        · exact .inr (.inl he)
  | classDef pos head body =>
    refine .base (ClassHead.mem_expressions.2 ?_) h
    rcases List.mem_append.1 he with he | he
    · rcases List.mem_append.1 he with he | he
      · exact .inl he
      · exact .inr (.inl he)
    · exact .inr (.inr he)
  | branch pos test body orelse =>
    rw [List.mem_singleton.1 he] at h
    exact .test h
  | compound pos clauses =>
    obtain ⟨clause, hclause, he⟩ := List.mem_flatMap.1 he
    exact .header hclause he h

mutual

/-- What a statement in a suite mentions stands in the whole statement. -/
theorem mentions_of_mem_nodes : {t u : Stmt} → u ∈ t.nodes → u.Mentions x → t.Mentions x
  | .simple pos t, u, hu, h => by
    rwa [List.mem_singleton.1 hu] at h
  | .function pos head body, u, hu, h => by
    rcases List.mem_cons.1 hu with rfl | hu
    · exact h
    · obtain ⟨t, ht, h⟩ := mentions_of_mem_allNodes hu h
      exact .functionBody ht h
  | .classDef pos head body, u, hu, h => by
    rcases List.mem_cons.1 hu with rfl | hu
    · exact h
    · obtain ⟨t, ht, h⟩ := mentions_of_mem_allNodes hu h
      exact .classBody ht h
  | .branch pos test body orelse, u, hu, h => by
    rcases List.mem_cons.1 hu with rfl | hu
    · exact h
    · rcases List.mem_append.1 hu with hu | hu
      · obtain ⟨t, ht, h⟩ := mentions_of_mem_allNodes hu h
        exact .body ht h
      · obtain ⟨t, ht, h⟩ := mentions_of_mem_allNodes hu h
        exact .orelse ht h
  | .compound pos clauses, u, hu, h => by
    rcases List.mem_cons.1 hu with rfl | hu
    · exact h
    · obtain ⟨clause, hclause, t, ht, h⟩ := mentions_of_mem_clauseNodes hu h
      exact .clauseBody hclause ht h

/-- What a statement in a suite mentions stands in a member of the suite. -/
theorem mentions_of_mem_allNodes : {ts : List Stmt} → {u : Stmt} → u ∈ allNodes ts →
    u.Mentions x → ∃ t ∈ ts, t.Mentions x
  | t :: rest, u, hu, h => by
    rcases List.mem_append.1 hu with hu | hu
    · exact ⟨t, List.mem_cons_self, mentions_of_mem_nodes hu h⟩
    · obtain ⟨t, ht, h⟩ := mentions_of_mem_allNodes hu h
      exact ⟨t, List.mem_cons_of_mem _ ht, h⟩

/-- What a statement in clauses mentions stands in a member of one of their suites. -/
theorem mentions_of_mem_clauseNodes : {clauses : List (Clause Stmt)} → {u : Stmt} →
    u ∈ clauseNodes clauses → u.Mentions x → ∃ c ∈ clauses, ∃ t ∈ c.body, t.Mentions x
  | ⟨head, body⟩ :: rest, u, hu, h => by
    rcases List.mem_append.1 hu with hu | hu
    · obtain ⟨t, ht, h⟩ := mentions_of_mem_allNodes hu h
      exact ⟨_, List.mem_cons_self, t, ht, h⟩
    · obtain ⟨c, hc, h⟩ := mentions_of_mem_clauseNodes hu h
      exact ⟨c, List.mem_cons_of_mem _ hc, h⟩

end

end Stmt

end Typeward
