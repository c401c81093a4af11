import Typeward.Source.Tree

/-!
# The expressions inside of nodes

Every node holds expressions in a fixed order, the order in which they are visited. `Slots` gives
the list of them and puts other ones in their places; the laws say that this is a lens. On
expressions these are the children, and `Expr.mapChildren` is the step of every traversal that
treats most kinds of expressions alike.
-/

namespace Typeward

/-- Values that hold expressions in a fixed order. -/
class Slots (α : Type) where
  /-- The expressions, in the order of visits. -/
  slots : α → List Expr
  /-- Puts other expressions in their places. -/
  refill : α → List Expr → α
  refill_slots : ∀ a, refill a (slots a) = a
  slots_refill : ∀ a es, es.length = (slots a).length → slots (refill a es) = es

/-- What is held is no larger than what holds it. -/
class BoundedSlots (α : Type) [SizeOf α] [Slots α] : Prop where
  size_le : ∀ a : α, ∀ e ∈ Slots.slots a, sizeOf e ≤ sizeOf a

namespace Slots

instance : Slots Expr where
  slots e := [e]
  refill e es := es.headD e
  refill_slots _ := rfl
  slots_refill
    | _, [_], _ => rfl

/-- Nothing is held. -/
instance : Slots Comparison where
  slots _ := []
  refill a _ := a
  refill_slots _ := rfl
  slots_refill _ _ h := (List.length_eq_zero_iff.1 h).symm

variable {α β : Type} [Slots α] [Slots β]

instance : Slots (α × β) where
  slots a := slots a.1 ++ slots a.2
  refill a es := (refill a.1 (es.take (slots a.1).length), refill a.2 (es.drop (slots a.1).length))
  refill_slots a := by simp [refill_slots]
  slots_refill a es h := by
    rw [List.length_append] at h
    rw [slots_refill _ _ (by rw [List.length_take]; omega),
      slots_refill _ _ (by rw [List.length_drop]; omega), List.take_append_drop]

instance : Slots (Option α) where
  slots
    | none => []
    | some a => slots a
  refill
    | none, _ => none
    | some a, es => some (refill a es)
  refill_slots a := by cases a <;> simp [refill_slots]
  slots_refill
    | none, _, h => (List.length_eq_zero_iff.1 h).symm
    | some a, es, h => slots_refill a es h

/-- The expressions in a list of values. -/
def listSlots : List α → List Expr
  | [] => []
  | a :: rest => slots a ++ listSlots rest

/-- Puts other expressions in their places in a list of values. -/
def listRefill : List α → List Expr → List α
  | [], _ => []
  | a :: rest, es =>
    refill a (es.take (slots a).length) :: listRefill rest (es.drop (slots a).length)

instance : Slots (List α) where
  slots := listSlots
  refill := listRefill
  refill_slots l := by
    induction l with
    | nil => rfl
    | cons a rest ih => simp [listSlots, listRefill, refill_slots, ih]
  slots_refill l := by
    induction l with
    | nil => exact fun _ h => (List.length_eq_zero_iff.1 h).symm
    | cons a rest ih =>
      intro es h
      rw [listSlots, List.length_append] at h
      rw [listRefill, listSlots, slots_refill _ _ (by rw [List.length_take]; omega),
        ih _ (by rw [List.length_drop]; omega), List.take_append_drop]

instance : Slots (Keyword Expr) where
  slots k := slots k.value
  refill k es := { k with value := refill k.value es }
  refill_slots _ := rfl
  slots_refill k es h := slots_refill k.value es h

/-- A parameter holds its initial value; hints are no code of the function. -/
instance : Slots (Parameter Expr) where
  slots p := slots p.initial
  refill p es := { p with initial := refill p.initial es }
  refill_slots p := by simp only [refill_slots]
  slots_refill p es h := slots_refill p.initial es h

/-- The initial values of parameters, those for keywords alone first. -/
instance : Slots (Parameters Expr) where
  slots p := slots (p.keywordOnly, p.positionalOnly, p.positional)
  refill p es :=
    let (keywordOnly, positionalOnly, positional) :=
      refill (p.keywordOnly, p.positionalOnly, p.positional) es
    { p with keywordOnly, positionalOnly, positional }
  refill_slots p := by simp only [refill_slots]
  slots_refill p es h := slots_refill (p.keywordOnly, p.positionalOnly, p.positional) es h

instance : Slots (ForClause Expr) where
  slots c := slots (c.target, c.source, c.conditions)
  refill c es :=
    let (target, source, conditions) := refill (c.target, c.source, c.conditions) es
    { c with target, source, conditions }
  refill_slots c := by simp only [refill_slots]
  slots_refill c es h := slots_refill (c.target, c.source, c.conditions) es h

end Slots

/-- A list of expressions holds its members. -/
theorem listSlots_expr (l : List Expr) : Slots.listSlots l = l := by
  induction l with
  | nil => rfl
  | cons a rest ih => exact congrArg (a :: ·) ih

namespace BoundedSlots

open Slots

variable {α β : Type} [SizeOf α] [SizeOf β] [Slots α] [Slots β] [BoundedSlots α] [BoundedSlots β]

/-- A pair holds what its parts hold. -/
theorem mem_pair {α β : Type} [Slots α] [Slots β] {a : α} {b : β} {e : Expr} :
    e ∈ slots (a, b) ↔ e ∈ slots a ∨ e ∈ slots b :=
  List.mem_append

/-- What one part holds is smaller than what is larger than the part. -/
theorem size_lt {a : α} {e : Expr} {n : Nat} (h : e ∈ slots a) (ha : sizeOf a < n) :
    sizeOf e < n :=
  Nat.lt_of_le_of_lt (size_le a e h) ha

/-- What two parts hold is smaller than what is larger than both. -/
theorem size_lt_pair {a : α} {b : β} {e : Expr} {n : Nat} (h : e ∈ slots (a, b))
    (ha : sizeOf a < n) (hb : sizeOf b < n) : sizeOf e < n :=
  (mem_pair.1 h).elim (size_lt · ha) (size_lt · hb)

/-- What three parts hold is smaller than what is larger than all of them. -/
theorem size_lt_triple {γ : Type} [SizeOf γ] [Slots γ] [BoundedSlots γ] {a : α} {b : β} {c : γ}
    {e : Expr} {n : Nat} (h : e ∈ slots (a, b, c)) (ha : sizeOf a < n) (hb : sizeOf b < n)
    (hc : sizeOf c < n) : sizeOf e < n :=
  (mem_pair.1 h).elim (size_lt · ha) (size_lt_pair · hb hc)

instance : BoundedSlots Expr where
  size_le a e h := by
    obtain rfl : e = a := List.mem_singleton.1 h
    exact Nat.le_refl _

instance : BoundedSlots Comparison where
  size_le _ _ h := absurd h List.not_mem_nil

instance : BoundedSlots (α × β) where
  size_le a e h := by
    have hsize : sizeOf a = 1 + sizeOf a.1 + sizeOf a.2 := Prod.mk.sizeOf_spec a.1 a.2
    rcases List.mem_append.1 h with h | h
    · have := size_le _ e h
      omega
    · have := size_le _ e h
      omega

instance : BoundedSlots (Option α) where
  size_le
    | some a, e, h => by
      have := size_le a e h
      rw [Option.some.sizeOf_spec]
      omega

instance : BoundedSlots (List α) where
  size_le l := by
    induction l with
    | nil => exact fun _ h => absurd h List.not_mem_nil
    | cons a rest ih =>
      intro e h
      rw [List.cons.sizeOf_spec]
      rcases List.mem_append.1 h with h | h
      · have := size_le a e h
        omega
      · have := ih e h
        omega

instance : BoundedSlots (Keyword Expr) where
  size_le k e h := by
    have := size_le k.value e h
    have hsize : sizeOf k = 1 + sizeOf k.name + sizeOf k.value := Keyword.mk.sizeOf_spec ..
    omega

instance : BoundedSlots (Parameter Expr) where
  size_le p e h := by
    have := size_le p.initial e h
    have hsize : sizeOf p = 1 + sizeOf p.pos + sizeOf p.name + sizeOf p.hint + sizeOf p.initial :=
      Parameter.mk.sizeOf_spec ..
    omega

instance : BoundedSlots (Parameters Expr) where
  size_le p e h := by
    have hsize : sizeOf p = 1 + sizeOf p.positionalOnly + sizeOf p.positional + sizeOf p.variadic +
        sizeOf p.keywordOnly + sizeOf p.keywordVariadic := Parameters.mk.sizeOf_spec ..
    exact Nat.le_of_lt_succ (size_lt_triple h (by omega) (by omega) (by omega))

instance : BoundedSlots (ForClause Expr) where
  size_le c e h := by
    have hsize : sizeOf c = 1 + sizeOf c.isAsync + sizeOf c.target + sizeOf c.source +
        sizeOf c.conditions := ForClause.mk.sizeOf_spec ..
    exact Nat.le_of_lt_succ (size_lt_triple h (by omega) (by omega) (by omega))

end BoundedSlots

open Slots BoundedSlots

/-- The parts of an expression, in the order of visits. -/
def Expr.children : Expr → List Expr
  | .name .. | .constant .. => []
  | .attribute _ base _ => slots base
  | .subscript _ base index => slots (base, index)
  | .call _ func args keywords _ => slots (func, args, keywords)
  | .binary _ left _ right => slots (left, right)
  | .unary _ _ operand => slots operand
  | .boolean _ _ operands => slots operands
  | .compare _ first rest => slots (first, rest)
  | .conditional _ test body orelse => slots (test, body, orelse)
  | .lambda _ params body => slots (params, body)
  | .display _ _ elements => slots elements
  | .dict _ keys values => slots (keys, values)
  | .comprehension _ _ element clauses => slots (element, clauses)
  | .dictComprehension _ key value clauses => slots (key, value, clauses)
  | .yield _ value => slots value
  | .yieldFrom _ value | .await _ value | .starred _ value => slots value
  | .walrus _ target value => slots (target, value)
  | .slice _ lower upper step => slots (lower, upper, step)
  | .formatted _ parts => slots parts
  | .field _ value _ spec => slots (value, spec)

/-- The expression with other parts. -/
def Expr.withChildren : Expr → List Expr → Expr
  | .name p id, _ => .name p id
  | .constant p value marked, _ => .constant p value marked
  | .attribute p base attr, es => .attribute p (refill base es) attr
  | .subscript p base index, es =>
    let (base, index) := refill (base, index) es
    .subscript p base index
  | .call p func args keywords decl, es =>
    let (func, args, keywords) := refill (func, args, keywords) es
    .call p func args keywords decl
  | .binary p left op right, es =>
    let (left, right) := refill (left, right) es
    .binary p left op right
  | .unary p op operand, es => .unary p op (refill operand es)
  | .boolean p op operands, es => .boolean p op (refill operands es)
  | .compare p first rest, es =>
    let (first, rest) := refill (first, rest) es
    .compare p first rest
  | .conditional p test body orelse, es =>
    let (test, body, orelse) := refill (test, body, orelse) es
    .conditional p test body orelse
  | .lambda p params body, es =>
    let (params, body) := refill (params, body) es
    .lambda p params body
  | .display p kind elements, es => .display p kind (refill elements es)
  | .dict p keys values, es =>
    let (keys, values) := refill (keys, values) es
    .dict p keys values
  | .comprehension p kind element clauses, es =>
    let (element, clauses) := refill (element, clauses) es
    .comprehension p kind element clauses
  | .dictComprehension p key value clauses, es =>
    let (key, value, clauses) := refill (key, value, clauses) es
    .dictComprehension p key value clauses
  | .yield p value, es => .yield p (refill value es)
  | .yieldFrom p value, es => .yieldFrom p (refill value es)
  | .await p value, es => .await p (refill value es)
  | .starred p value, es => .starred p (refill value es)
  | .walrus p target value, es =>
    let (target, value) := refill (target, value) es
    .walrus p target value
  | .slice p lower upper step, es =>
    let (lower, upper, step) := refill (lower, upper, step) es
    .slice p lower upper step
  | .formatted p parts, es => .formatted p (refill parts es)
  | .field p value conversion spec, es =>
    let (value, spec) := refill (value, spec) es
    .field p value conversion spec

/-- With its own parts an expression is itself. -/
theorem Expr.withChildren_children (e : Expr) : e.withChildren e.children = e := by
  cases e <;> simp only [children, withChildren, refill_slots]

/-- The parts of an expression are the ones that it was given. -/
theorem Expr.children_withChildren (e : Expr) (es : List Expr)
    (h : es.length = e.children.length) : (e.withChildren es).children = es := by
  cases e <;> first
    | exact slots_refill _ es h
    | exact (List.length_eq_zero_iff.1 h).symm

/-- The parts of an expression are smaller. -/
theorem Expr.sizeOf_lt_of_mem_children {e c : Expr} (h : c ∈ e.children) :
    sizeOf c < sizeOf e := by
  match e, h with
  | .name .., h | .constant .., h => exact absurd h List.not_mem_nil
  | .attribute .., h | .unary .., h | .boolean .., h | .display .., h | .yield .., h
  | .yieldFrom .., h | .await .., h | .starred .., h | .formatted .., h =>
    exact size_lt h (by simp +arith)
  | .subscript .., h | .binary .., h | .compare .., h | .lambda .., h | .dict .., h
  | .comprehension .., h | .walrus .., h | .field .., h =>
    exact size_lt_pair h (by simp +arith) (by simp +arith)
  | .call .., h | .conditional .., h | .dictComprehension .., h | .slice .., h =>
    exact size_lt_triple h (by simp +arith) (by simp +arith) (by simp +arith)

/-- Transforms the parts of an expression in order. -/
def Expr.mapChildren {m : Type → Type} [Monad m] (e : Expr)
    (f : (c : Expr) → sizeOf c < sizeOf e → m Expr) : m Expr := do
  return e.withChildren (← e.children.attach.mapM fun c => f c.1 (sizeOf_lt_of_mem_children c.2))

/-- Collects from the parts of an expression in order. -/
def Expr.collectChildren {α : Type} (e : Expr) (f : (c : Expr) → sizeOf c < sizeOf e → List α) :
    List α :=
  e.children.attach.flatMap fun c => f c.1 (sizeOf_lt_of_mem_children c.2)

end Typeward
