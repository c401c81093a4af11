import Typeward.Proofs.Overwriting
import Typeward.Proofs.Placements

/-!
# Erasing checks

A compiled module without its checks: the value of a check takes the place of the check, wherever it
stands, and the checks of parameters behind the documentation of a function are left out. Where no
check is written nothing changes.
-/

namespace Typeward

open Slots

namespace Expr

/-- The value that an expression checks, if it is a check of the runtime library. -/
def checked? (runtime : String) : Expr → Option Expr
  | .call _ (.attribute _ (.name _ id) "check") [value, _, _] [] _ =>
    if id = runtime then some value else none
  | _ => none

/-- The checked value is a part of the check. -/
theorem mem_children_of_checked? {runtime : String} {e value : Expr}
    (h : e.checked? runtime = some value) : value ∈ e.children := by
  unfold checked? at h
  split at h
  · split at h
    · obtain rfl := Option.some.inj h
      exact List.mem_append_right _ (List.mem_append_left _ List.mem_cons_self)
    · cases h
  · cases h

/-- An expression with the values of checks in the places of the checks. -/
def withoutChecks (runtime : String) (e : Expr) : Expr :=
  match _h : e.checked? runtime with
  | some value => value.withoutChecks runtime
  | none => e.withChildren (e.children.attach.map fun c => c.1.withoutChecks runtime)
termination_by sizeOf e
decreasing_by
  · exact sizeOf_lt_of_mem_children (mem_children_of_checked? _h)
  · exact sizeOf_lt_of_mem_children c.2

variable {runtime : String} {e : Expr}

/-- A check is erased to its value. -/
theorem withoutChecks_of_checked {value : Expr} (h : e.checked? runtime = some value) :
    e.withoutChecks runtime = value.withoutChecks runtime := by
  rw [withoutChecks]
  split <;> simp_all

/-- In any other expression the parts are erased. -/
theorem withoutChecks_of_unchecked (h : e.checked? runtime = none) :
    e.withoutChecks runtime = e.withChildren (e.children.map (·.withoutChecks runtime)) := by
  rw [withoutChecks]
  split
  · simp_all
  · rw [List.attach_map_val]

/-- An expression in which there are no checks stays. -/
theorem withoutChecks_eq_self (h : e.Everywhere (·.checked? runtime = none)) :
    e.withoutChecks runtime = e := by
  induction h with
  | @node e here parts ih =>
    have hparts : e.children.map (·.withoutChecks runtime) = e.children :=
      (List.map_congr_left ih).trans (List.map_id _)
    rw [withoutChecks_of_unchecked here, hparts, withChildren_children]

/-- A check is erased to its erased value. -/
theorem withoutChecks_checkExpr (value type : Expr) (label : Option String) :
    (checkExpr runtime value type label).withoutChecks runtime = value.withoutChecks runtime :=
  withoutChecks_of_checked (if_pos rfl)

/-- What checks something names the runtime library. -/
theorem mentions_of_checked? {value : Expr} (h : e.checked? runtime = some value) :
    e.Mentions runtime := by
  unfold checked? at h
  split at h
  · split at h
    · rename_i hid
      subst hid
      exact .part List.mem_cons_self (.part List.mem_cons_self (.own List.mem_cons_self))
    · cases h
  · cases h

/-- Where the runtime library is not named there are no checks. -/
theorem unchecked_of_not_mentions (e : Expr) (h : ¬ e.Mentions runtime) :
    e.Everywhere (·.checked? runtime = none) := by
  refine .node ?_ fun c hc => ?_
  · cases hchecked : e.checked? runtime with
    | none => rfl
    | some value => exact absurd (mentions_of_checked? hchecked) h
  · have := sizeOf_lt_of_mem_children hc
    exact unchecked_of_not_mentions c fun hmentions => h (.part hc hmentions)
termination_by sizeOf e

end Expr

/-- There are no checks in rendered code. -/
theorem RenderedForm.withoutChecks_eq {runtime : String} {e : Expr} (h : RenderedForm runtime e) :
    e.withoutChecks runtime = e := by
  refine Expr.withoutChecks_eq_self (h.callsLibrary.mono fun e he => ?_)
  unfold Expr.checked?
  split
  · obtain ⟨-, function, hfunc, hfunction⟩ := he
    exact absurd (Expr.attribute.inj hfunc).2.2.symm hfunction
  · rfl

section In

variable {α : Type} [Slots α] {runtime : String}

/-- A value with the expressions in it erased. -/
def eraseIn (runtime : String) (a : α) : α := refill a ((slots a).map (·.withoutChecks runtime))

/-- What holds no checks stays. -/
theorem eraseIn_eq_self {a : α} (h : ∀ e ∈ slots a, e.Everywhere (·.checked? runtime = none)) :
    eraseIn runtime a = a := by
  have hslots : (slots a).map (·.withoutChecks runtime) = slots a :=
    (List.map_congr_left fun e he => Expr.withoutChecks_eq_self (h e he)).trans (List.map_id _)
  rw [eraseIn, hslots, refill_slots]

/-- The members of a list are erased one by one. -/
theorem eraseIn_cons (a : α) (rest : List α) :
    eraseIn runtime (a :: rest) = eraseIn runtime a :: eraseIn runtime rest := by
  have hslots : (slots (a :: rest)).map (·.withoutChecks runtime) =
      (slots a).map (·.withoutChecks runtime) ++ (slots rest).map (·.withoutChecks runtime) :=
    List.map_append
  have hrefill (es fs : List Expr) (hes : es.length = (slots a).length) :
      refill (a :: rest) (es ++ fs) = refill a es :: refill rest fs := by
    change refill a ((es ++ fs).take _) :: refill rest ((es ++ fs).drop _) = _
    rw [← hes, List.take_left, List.drop_left]
  rw [eraseIn, hslots, hrefill _ _ (List.length_map _)]
  rfl

end In

mutual

/-- A statement without its checks. The checks of parameters stand behind the documentation of a
function, as many as the plan has for its declaration. -/
def Stmt.withoutChecks (runtime : String) (p : Plan) : Stmt → Stmt
  | .simple pos t => .simple pos (eraseIn runtime t)
  | .function pos head body =>
    let checks := head.decl.elim 0 fun number => (p.ofDeclaration number).length
    let kept := allWithoutChecks runtime p body
    .function pos
      { head with
        params := eraseIn runtime head.params
        decorators := eraseIn runtime head.decorators }
      (kept.take (docstringLength body) ++ kept.drop (docstringLength body + checks))
  | .classDef pos head body =>
    .classDef pos
      { head with
        bases := eraseIn runtime head.bases
        keywords := eraseIn runtime head.keywords
        decorators := eraseIn runtime head.decorators }
      (allWithoutChecks runtime p body)
  | .branch pos test body orelse =>
    .branch pos (eraseIn runtime test) (allWithoutChecks runtime p body)
      (allWithoutChecks runtime p orelse)
  | .compound pos clauses => .compound pos (clausesWithoutChecks runtime p clauses)

/-- Statements without their checks. -/
def Stmt.allWithoutChecks (runtime : String) (p : Plan) : List Stmt → List Stmt
  | [] => []
  | t :: rest => t.withoutChecks runtime p :: allWithoutChecks runtime p rest

/-- Clauses without their checks. -/
def Stmt.clausesWithoutChecks (runtime : String) (p : Plan) : List (Clause Stmt) →
    List (Clause Stmt)
  | [] => []
  | ⟨head, body⟩ :: rest =>
    ⟨eraseIn runtime head, allWithoutChecks runtime p body⟩ :: clausesWithoutChecks runtime p rest

end

/-- The expressions that a statement holds do not mention a name. -/
def Stmt.Avoids (x : String) (t : Stmt) : Prop := ∀ e ∈ t.held, ¬ e.Mentions x

/-- A value that does not name the runtime library stays. -/
theorem eraseIn_of_avoids {α : Type} [Slots α] {runtime : String} {a : α}
    (h : ∀ e ∈ slots a, ¬ e.Mentions runtime) : eraseIn runtime a = a :=
  eraseIn_eq_self fun e he => Expr.unchecked_of_not_mentions e (h e he)

namespace Stmt

variable {runtime : String} {p : Plan}

mutual

/-- A statement without numbers that does not name the runtime library stays. -/
theorem withoutChecks_eq_self : (t : Stmt) → (∀ u ∈ t.nodes, u.Unnumbered) →
    (∀ u ∈ t.nodes, u.Avoids runtime) → t.withoutChecks runtime p = t
  | .simple pos t, hplain, h => by
    rw [withoutChecks, eraseIn_of_avoids (h _ (List.mem_singleton_self _))]
  | .function pos ⟨isAsync, name, params, returns, decorators, decl⟩ body, hplain, h => by
    obtain ⟨⟨hnumber, -⟩, hbody⟩ := List.forall_mem_cons.1 hplain
    obtain ⟨hheld, havoids⟩ := List.forall_mem_cons.1 h
    obtain ⟨hdecorators, hparams⟩ := List.forall_mem_append.1 hheld
    obtain rfl : decl = none := hnumber
    rw [withoutChecks, allWithoutChecks_eq_self body hbody havoids]
    simp only [eraseIn_of_avoids hdecorators, eraseIn_of_avoids hparams, Option.elim_none,
      Nat.add_zero, List.take_append_drop]
  | .classDef pos head body, hplain, h => by
    obtain ⟨-, hplain⟩ := List.forall_mem_cons.1 hplain
    obtain ⟨hheld, h⟩ := List.forall_mem_cons.1 h
    obtain ⟨hheld, hdecorators⟩ := List.forall_mem_append.1 hheld
    obtain ⟨hbases, hkeywords⟩ := List.forall_mem_append.1 hheld
    rw [withoutChecks, eraseIn_of_avoids hbases, eraseIn_of_avoids hkeywords,
      eraseIn_of_avoids hdecorators, allWithoutChecks_eq_self body hplain h]
  | .branch pos test body orelse, hplain, h => by
    obtain ⟨-, hplain⟩ := List.forall_mem_cons.1 hplain
    obtain ⟨htest, h⟩ := List.forall_mem_cons.1 h
    obtain ⟨hplain₁, hplain₂⟩ := List.forall_mem_append.1 hplain
    obtain ⟨h₁, h₂⟩ := List.forall_mem_append.1 h
    rw [withoutChecks, eraseIn_of_avoids htest, allWithoutChecks_eq_self body hplain₁ h₁,
      allWithoutChecks_eq_self orelse hplain₂ h₂]
  | .compound pos clauses, hplain, h => by
    obtain ⟨-, hplain⟩ := List.forall_mem_cons.1 hplain
    obtain ⟨hheads, h⟩ := List.forall_mem_cons.1 h
    have hheads : ∀ clause ∈ clauses, ∀ e ∈ slots clause.head, ¬ e.Mentions runtime :=
      fun clause hclause e he => hheads e (List.mem_flatMap.2 ⟨clause, hclause, he⟩)
    rw [withoutChecks, clausesWithoutChecks_eq_self clauses hheads hplain h]

/-- Statements without numbers that do not name the runtime library stay. -/
theorem allWithoutChecks_eq_self : (ts : List Stmt) → AllUnnumbered ts →
    (∀ u ∈ allNodes ts, u.Avoids runtime) → allWithoutChecks runtime p ts = ts
  | [], _, _ => rfl
  | t :: rest, hplain, h => by
    obtain ⟨hplain₁, hplain₂⟩ := List.forall_mem_append.1 hplain
    obtain ⟨h₁, h₂⟩ := List.forall_mem_append.1 h
    rw [allWithoutChecks, withoutChecks_eq_self t hplain₁ h₁,
      allWithoutChecks_eq_self rest hplain₂ h₂]

/-- Clauses without numbers that do not name the runtime library stay. -/
theorem clausesWithoutChecks_eq_self : (clauses : List (Clause Stmt)) →
    (∀ clause ∈ clauses, ∀ e ∈ slots clause.head, ¬ e.Mentions runtime) →
    (∀ u ∈ clauseNodes clauses, u.Unnumbered) → (∀ u ∈ clauseNodes clauses, u.Avoids runtime) →
    clausesWithoutChecks runtime p clauses = clauses
  | [], _, _, _ => rfl
  | ⟨head, body⟩ :: rest, hheads, hplain, h => by
    obtain ⟨hhead, hheads⟩ := List.forall_mem_cons.1 hheads
    obtain ⟨hplain₁, hplain₂⟩ := List.forall_mem_append.1 hplain
    obtain ⟨h₁, h₂⟩ := List.forall_mem_append.1 h
    rw [clausesWithoutChecks, eraseIn_of_avoids hhead, allWithoutChecks_eq_self body hplain₁ h₁,
      clausesWithoutChecks_eq_self rest hheads hplain₂ h₂]

end

/-- Statements are erased one by one. -/
theorem allWithoutChecks_eq_map (ts : List Stmt) :
    allWithoutChecks runtime p ts = ts.map (·.withoutChecks runtime p) := by
  induction ts with
  | nil => rfl
  | cons t rest ih => rw [allWithoutChecks, ih, List.map_cons]

end Stmt

end Typeward
