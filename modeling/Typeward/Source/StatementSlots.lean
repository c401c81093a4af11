import Typeward.Source.Slots

/-!
# The expressions inside of statements

The expressions that simple statements, headers of clauses and patterns hold. Suites are not
entered.
-/

namespace Typeward

open Slots

namespace Pattern

mutual

/-- The expressions in a pattern. -/
def parts : Pattern → List Expr
  | .value _ e => [e]
  | .singleton .. | .star .. => []
  | .sequence _ items | .alternatives _ items => listParts items
  | .mapping _ keys items _ => keys ++ listParts items
  | .ofClass _ cls items _ named => cls :: (listParts items ++ listParts named)
  | .capture _ inner _ => optionParts inner

/-- The expressions in several patterns. -/
def listParts : List Pattern → List Expr
  | [] => []
  | p :: rest => parts p ++ listParts rest

/-- The expressions in a pattern that may be absent. -/
def optionParts : Option Pattern → List Expr
  | none => []
  | some p => parts p

end

mutual

/-- Puts other expressions into a pattern. -/
def withParts : Pattern → List Expr → Pattern
  | .value pos e, es => .value pos (es.headD e)
  | .singleton pos constant, _ => .singleton pos constant
  | .star pos name, _ => .star pos name
  | .sequence pos items, es => .sequence pos (listWithParts items es)
  | .alternatives pos items, es => .alternatives pos (listWithParts items es)
  | .mapping pos keys items rest, es =>
    .mapping pos (es.take keys.length) (listWithParts items (es.drop keys.length)) rest
  | .ofClass pos cls items names named, es =>
    .ofClass pos (es.headD cls) (listWithParts items (es.tail.take (listParts items).length)) names
      (listWithParts named (es.tail.drop (listParts items).length))
  | .capture pos inner name, es => .capture pos (optionWithParts inner es) name

/-- Puts other expressions into several patterns. -/
def listWithParts : List Pattern → List Expr → List Pattern
  | [], _ => []
  | p :: rest, es =>
    withParts p (es.take (parts p).length) :: listWithParts rest (es.drop (parts p).length)

/-- Puts other expressions into a pattern that may be absent. -/
def optionWithParts : Option Pattern → List Expr → Option Pattern
  | none, _ => none
  | some p, es => some (withParts p es)

end

mutual

/-- With its own expressions a pattern is itself. -/
theorem withParts_parts : (p : Pattern) → p.withParts p.parts = p
  | .value .. | .singleton .. | .star .. => rfl
  | .sequence _ items | .alternatives _ items => by
    simp [parts, withParts, listWithParts_listParts items]
  | .mapping _ keys items _ => by simp [parts, withParts, listWithParts_listParts items]
  | .ofClass _ _ items _ named => by
    simp [parts, withParts, listWithParts_listParts items, listWithParts_listParts named]
  | .capture _ inner _ => by simp [parts, withParts, optionWithParts_optionParts inner]

/-- With their own expressions patterns are themselves. -/
theorem listWithParts_listParts : (ps : List Pattern) → listWithParts ps (listParts ps) = ps
  | [] => rfl
  | p :: rest => by
    simp [listParts, listWithParts, withParts_parts p, listWithParts_listParts rest]

/-- With its own expressions a pattern that may be absent is itself. -/
theorem optionWithParts_optionParts :
    (p : Option Pattern) → optionWithParts p (optionParts p) = p
  | none => rfl
  | some p => by simp [optionParts, optionWithParts, withParts_parts p]

end

mutual

/-- The expressions of a pattern are the ones that it was given. -/
theorem parts_withParts : (p : Pattern) → (es : List Expr) → es.length = p.parts.length →
    (p.withParts es).parts = es
  | .value .., [_], _ => rfl
  | .singleton .., _, h | .star .., _, h => (List.length_eq_zero_iff.1 h).symm
  | .sequence _ items, es, h | .alternatives _ items, es, h =>
    listParts_listWithParts items es h
  | .mapping _ keys items _, es, h => by
    simp only [parts, List.length_append] at h
    simp only [parts, withParts]
    rw [listParts_listWithParts items _ (by simp [h]), List.take_append_drop]
  | .ofClass _ cls items _ named, e :: es, h => by
    simp only [parts, List.length_cons, List.length_append, Nat.add_right_cancel_iff] at h
    simp only [parts, withParts, List.headD_cons, List.tail_cons]
    rw [listParts_listWithParts items _ (by simp [h]),
      listParts_listWithParts named _ (by simp [h]), List.take_append_drop]
  | .capture _ inner _, es, h => optionParts_optionWithParts inner es h

/-- The expressions of patterns are the ones that they were given. -/
theorem listParts_listWithParts : (ps : List Pattern) → (es : List Expr) →
    es.length = (listParts ps).length → listParts (listWithParts ps es) = es
  | [], _, h => (List.length_eq_zero_iff.1 h).symm
  | p :: rest, es, h => by
    simp only [listParts, List.length_append] at h
    simp only [listParts, listWithParts]
    rw [parts_withParts p _ (by simp [h]), listParts_listWithParts rest _ (by simp [h]),
      List.take_append_drop]

/-- The expressions of a pattern that may be absent are the ones that it was given. -/
theorem optionParts_optionWithParts : (p : Option Pattern) → (es : List Expr) →
    es.length = (optionParts p).length → optionParts (optionWithParts p es) = es
  | none, _, h => (List.length_eq_zero_iff.1 h).symm
  | some p, es, h => parts_withParts p es h

end

instance : Slots Pattern where
  slots := parts
  refill := withParts
  refill_slots := withParts_parts
  slots_refill := parts_withParts

mutual

/-- The names that a pattern binds. -/
def bound : Pattern → List String
  | .value .. | .singleton .. => []
  | .sequence _ items | .alternatives _ items => listBound items
  | .mapping _ _ items rest => listBound items ++ rest.toList
  | .ofClass _ _ items _ named => listBound items ++ listBound named
  | .star _ name => name.toList
  | .capture _ inner name => optionBound inner ++ name.toList

/-- The names that several patterns bind. -/
def listBound : List Pattern → List String
  | [] => []
  | p :: rest => bound p ++ listBound rest

/-- The names that a pattern binds, if there is one. -/
def optionBound : Option Pattern → List String
  | none => []
  | some p => bound p

end

end Pattern

instance : Slots WithItem where
  slots i := slots (i.context, i.target)
  refill i es :=
    let (context, target) := refill (i.context, i.target) es
    { context, target }
  refill_slots i := by simp only [refill_slots]
  slots_refill i es h := slots_refill (i.context, i.target) es h

instance : Slots Simple where
  slots
    | .expression value => slots value
    | .assign targets value _ => slots (targets, value)
    | .augmented target _ value => slots (target, value)
    | .annotated target hint value .. => slots (target, hint, value)
    | .returnValue value => slots value
    | .delete targets => slots targets
    | .raise exception cause => slots (exception, cause)
    | .assertion test message => slots (test, message)
    | .importModules _ | .importNames .. | .global _ | .nonlocal _ | .pass | .breakLoop
    | .continueLoop => []
  refill
    | .expression value, es => .expression (refill value es)
    | .assign targets value decl, es =>
      let (targets, value) := refill (targets, value) es
      .assign targets value decl
    | .augmented target op value, es =>
      let (target, value) := refill (target, value) es
      .augmented target op value
    | .annotated target hint value bare decl, es =>
      let (target, hint, value) := refill (target, hint, value) es
      .annotated target hint value bare decl
    | .returnValue value, es => .returnValue (refill value es)
    | .delete targets, es => .delete (refill targets es)
    | .raise exception cause, es =>
      let (exception, cause) := refill (exception, cause) es
      .raise exception cause
    | .assertion test message, es =>
      let (test, message) := refill (test, message) es
      .assertion test message
    | s, _ => s
  refill_slots s := by cases s <;> simp only [refill_slots]
  slots_refill s es h := by
    cases s <;> first
      | exact slots_refill _ es h
      | exact (List.length_eq_zero_iff.1 h).symm

instance : Slots ClauseHead where
  slots
    | .forLoop _ target source => slots (target, source)
    | .whileLoop test => slots test
    | .withItems _ items => slots items
    | .handler _ kind _ => slots kind
    | .subject value => slots value
    | .caseOf pattern condition => slots (pattern, condition)
    | .tryBody | .elseBody | .finallyBody => []
  refill
    | .forLoop isAsync target source, es =>
      let (target, source) := refill (target, source) es
      .forLoop isAsync target source
    | .whileLoop test, es => .whileLoop (refill test es)
    | .withItems isAsync items, es => .withItems isAsync (refill items es)
    | .handler isGroup kind name, es => .handler isGroup (refill kind es) name
    | .subject value, es => .subject (refill value es)
    | .caseOf pattern condition, es =>
      let (pattern, condition) := refill (pattern, condition) es
      .caseOf pattern condition
    | head, _ => head
  refill_slots s := by cases s <;> simp only [refill_slots]
  slots_refill s es h := by
    cases s <;> first
      | exact slots_refill _ es h
      | exact (List.length_eq_zero_iff.1 h).symm

/-- Transforms the expressions that a value holds, in order. -/
def Slots.mapM {m : Type → Type} [Monad m] {α : Type} [Slots α] (f : Expr → m Expr)
    (a : α) : m α := do
  return refill a (← (slots a).mapM f)

end Typeward
