import Typeward.Source.StatementSlots

/-!
# Putting expressions in again

Expressions that are put into a value take the place of those that were put there before. With the
two laws of `Slots` this makes it a lens whose order of updates does not matter.
-/

namespace Typeward

open Slots

/-- What was put into a value before is gone when as many expressions are put there again. -/
class OverwritingSlots (α : Type) [Slots α] : Prop where
  refill_refill : ∀ (a : α) (es us : List Expr), es.length = (slots a).length →
    us.length = (slots a).length → refill (refill a es) us = refill a us

namespace OverwritingSlots

/-- Two parts that are filled one after the other: each takes what it holds. -/
theorem length_take_drop {n m : Nat} {es : List Expr} (h : es.length = n + m) :
    (es.take n).length = n ∧ (es.drop n).length = m := by
  rw [List.length_take, List.length_drop]
  omega

variable {α β : Type} [Slots α] [Slots β]

/-- A value holds as many expressions as are put into it. -/
theorem length_slots_refill {a : α} {es : List Expr} (h : es.length = (slots a).length) :
    (slots (refill a es)).length = (slots a).length := by
  rw [slots_refill a es h, h]

variable [OverwritingSlots α] [OverwritingSlots β]

instance : OverwritingSlots Expr where
  refill_refill
    | _, [_], [_], _, _ => rfl

instance : OverwritingSlots Comparison where
  refill_refill _ _ _ _ _ := rfl

instance : OverwritingSlots (α × β) where
  refill_refill a es us hes hus := by
    obtain ⟨hes₁, hes₂⟩ := length_take_drop (hes.trans List.length_append)
    obtain ⟨hus₁, hus₂⟩ := length_take_drop (hus.trans List.length_append)
    change (refill (refill a.1 _) (us.take (slots (refill a.1 _)).length),
      refill (refill a.2 _) (us.drop (slots (refill a.1 _)).length)) = _
    rw [length_slots_refill hes₁, refill_refill _ _ _ hes₁ hus₁, refill_refill _ _ _ hes₂ hus₂]
    rfl

instance : OverwritingSlots (Option α) where
  refill_refill
    | none, _, _, _, _ => rfl
    | some a, es, us, hes, hus => congrArg some (refill_refill a es us hes hus)

instance : OverwritingSlots (List α) where
  refill_refill l := by
    induction l with
    | nil => exact fun _ _ _ _ => rfl
    | cons a rest ih =>
      intro es us hes hus
      obtain ⟨hes₁, hes₂⟩ := length_take_drop (hes.trans List.length_append)
      obtain ⟨hus₁, hus₂⟩ := length_take_drop (hus.trans List.length_append)
      change refill (refill a _) (us.take (slots (refill a _)).length) ::
        refill (refill rest _) (us.drop (slots (refill a _)).length) = _
      rw [length_slots_refill hes₁, refill_refill _ _ _ hes₁ hus₁, ih _ _ hes₂ hus₂]
      rfl

instance : OverwritingSlots (Keyword Expr) where
  refill_refill k es us hes hus :=
    congrArg (Keyword.mk k.name) (refill_refill k.value es us hes hus)

instance : OverwritingSlots (Parameter Expr) where
  refill_refill p es us hes hus :=
    congrArg (Parameter.mk p.pos p.name p.hint) (refill_refill p.initial es us hes hus)

instance : OverwritingSlots (Parameters Expr) where
  refill_refill p es us hes hus :=
    congrArg (fun q : List (Parameter Expr) × List (Parameter Expr) × List (Parameter Expr) =>
        { p with keywordOnly := q.1, positionalOnly := q.2.1, positional := q.2.2 })
      (refill_refill (p.keywordOnly, p.positionalOnly, p.positional) es us hes hus)

instance : OverwritingSlots (ForClause Expr) where
  refill_refill c es us hes hus :=
    congrArg (fun q : Expr × Expr × List Expr => ForClause.mk c.isAsync q.1 q.2.1 q.2.2)
      (refill_refill (c.target, c.source, c.conditions) es us hes hus)

instance : OverwritingSlots WithItem where
  refill_refill i es us hes hus :=
    congrArg (fun q : Expr × Option Expr => WithItem.mk q.1 q.2)
      (refill_refill (i.context, i.target) es us hes hus)

end OverwritingSlots

open OverwritingSlots

/-- Parts that are put into an expression take the place of those that were put there before. -/
theorem Expr.withChildren_withChildren : (e : Expr) → {es us : List Expr} →
    es.length = e.children.length → us.length = e.children.length →
    (e.withChildren es).withChildren us = e.withChildren us
  | .name .., _, _, _, _ | .constant .., _, _, _, _ => rfl
  | .attribute pos base attr, _, _, hes, hus =>
    congrArg (Expr.attribute pos · attr) (refill_refill base _ _ hes hus)
  | .subscript pos base index, _, _, hes, hus =>
    congrArg (fun q : Expr × Expr => Expr.subscript pos q.1 q.2)
      (refill_refill (base, index) _ _ hes hus)
  | .call pos func args keywords decl, _, _, hes, hus =>
    congrArg (fun q : Expr × List Expr × List (Keyword Expr) =>
      Expr.call pos q.1 q.2.1 q.2.2 decl) (refill_refill (func, args, keywords) _ _ hes hus)
  | .binary pos left op right, _, _, hes, hus =>
    congrArg (fun q : Expr × Expr => Expr.binary pos q.1 op q.2)
      (refill_refill (left, right) _ _ hes hus)
  | .unary pos op operand, _, _, hes, hus =>
    congrArg (Expr.unary pos op) (refill_refill operand _ _ hes hus)
  | .boolean pos op operands, _, _, hes, hus =>
    congrArg (Expr.boolean pos op) (refill_refill operands _ _ hes hus)
  | .compare pos first rest, _, _, hes, hus =>
    congrArg (fun q : Expr × List (Comparison × Expr) => Expr.compare pos q.1 q.2)
      (refill_refill (first, rest) _ _ hes hus)
  | .conditional pos test body orelse, _, _, hes, hus =>
    congrArg (fun q : Expr × Expr × Expr => Expr.conditional pos q.1 q.2.1 q.2.2)
      (refill_refill (test, body, orelse) _ _ hes hus)
  | .lambda pos params body, _, _, hes, hus =>
    congrArg (fun q : Parameters Expr × Expr => Expr.lambda pos q.1 q.2)
      (refill_refill (params, body) _ _ hes hus)
  | .display pos kind elements, _, _, hes, hus =>
    congrArg (Expr.display pos kind) (refill_refill elements _ _ hes hus)
  | .dict pos keys values, _, _, hes, hus =>
    congrArg (fun q : List (Option Expr) × List Expr => Expr.dict pos q.1 q.2)
      (refill_refill (keys, values) _ _ hes hus)
  | .comprehension pos kind element clauses, _, _, hes, hus =>
    congrArg (fun q : Expr × List (ForClause Expr) => Expr.comprehension pos kind q.1 q.2)
      (refill_refill (element, clauses) _ _ hes hus)
  | .dictComprehension pos key value clauses, _, _, hes, hus =>
    congrArg (fun q : Expr × Expr × List (ForClause Expr) =>
      Expr.dictComprehension pos q.1 q.2.1 q.2.2) (refill_refill (key, value, clauses) _ _ hes hus)
  | .yield pos value, _, _, hes, hus =>
    congrArg (Expr.yield pos) (refill_refill value _ _ hes hus)
  | .yieldFrom pos value, _, _, hes, hus =>
    congrArg (Expr.yieldFrom pos) (refill_refill value _ _ hes hus)
  | .await pos value, _, _, hes, hus =>
    congrArg (Expr.await pos) (refill_refill value _ _ hes hus)
  | .starred pos value, _, _, hes, hus =>
    congrArg (Expr.starred pos) (refill_refill value _ _ hes hus)
  | .walrus pos target value, _, _, hes, hus =>
    congrArg (fun q : Expr × Expr => Expr.walrus pos q.1 q.2)
      (refill_refill (target, value) _ _ hes hus)
  | .slice pos lower upper step, _, _, hes, hus =>
    congrArg (fun q : Option Expr × Option Expr × Option Expr => Expr.slice pos q.1 q.2.1 q.2.2)
      (refill_refill (lower, upper, step) _ _ hes hus)
  | .formatted pos parts, _, _, hes, hus =>
    congrArg (Expr.formatted pos) (refill_refill parts _ _ hes hus)
  | .field pos value conversion spec, _, _, hes, hus =>
    congrArg (fun q : Expr × Option Expr => Expr.field pos q.1 conversion q.2)
      (refill_refill (value, spec) _ _ hes hus)

namespace Pattern

mutual

/-- Expressions that are put into a pattern take the place of those that were put there before. -/
theorem withParts_withParts : (p : Pattern) → (es us : List Expr) → es.length = p.parts.length →
    us.length = p.parts.length → (p.withParts es).withParts us = p.withParts us
  | .value .., [_], [_], _, _ => rfl
  | .singleton .., _, _, _, _ | .star .., _, _, _, _ => rfl
  | .sequence pos items, es, us, hes, hus =>
    congrArg (Pattern.sequence pos) (listWithParts_listWithParts items es us hes hus)
  | .alternatives pos items, es, us, hes, hus =>
    congrArg (Pattern.alternatives pos) (listWithParts_listWithParts items es us hes hus)
  | .mapping pos keys items rest, es, us, hes, hus => by
    obtain ⟨hes₁, hes₂⟩ := length_take_drop (hes.trans List.length_append)
    obtain ⟨hus₁, hus₂⟩ := length_take_drop (hus.trans List.length_append)
    simp only [withParts, hes₁, listWithParts_listWithParts items _ _ hes₂ hus₂]
  | .ofClass pos cls items names named, _ :: es, _ :: us, hes, hus => by
    obtain ⟨hes₁, hes₂⟩ :=
      length_take_drop ((Nat.succ.inj hes).trans List.length_append)
    obtain ⟨hus₁, hus₂⟩ :=
      length_take_drop ((Nat.succ.inj hus).trans List.length_append)
    have hitems := listParts_listWithParts items _ hes₁
    simp only [withParts, List.tail_cons, List.headD_cons, hitems, hes₁,
      listWithParts_listWithParts items _ _ hes₁ hus₁,
      listWithParts_listWithParts named _ _ hes₂ hus₂]
  | .capture pos inner name, es, us, hes, hus =>
    congrArg (Pattern.capture pos · name) (optionWithParts_optionWithParts inner es us hes hus)

/-- Expressions that are put into patterns take the place of those that were put there before. -/
theorem listWithParts_listWithParts : (ps : List Pattern) → (es us : List Expr) →
    es.length = (listParts ps).length → us.length = (listParts ps).length →
    listWithParts (listWithParts ps es) us = listWithParts ps us
  | [], _, _, _, _ => rfl
  | p :: rest, es, us, hes, hus => by
    obtain ⟨hes₁, hes₂⟩ := length_take_drop (hes.trans List.length_append)
    obtain ⟨hus₁, hus₂⟩ := length_take_drop (hus.trans List.length_append)
    simp only [listWithParts, parts_withParts p _ hes₁, hes₁, withParts_withParts p _ _ hes₁ hus₁,
      listWithParts_listWithParts rest _ _ hes₂ hus₂]

/-- Expressions that are put into a pattern that may be absent take the place of those that were put
there before. -/
theorem optionWithParts_optionWithParts : (p : Option Pattern) → (es us : List Expr) →
    es.length = (optionParts p).length → us.length = (optionParts p).length →
    optionWithParts (optionWithParts p es) us = optionWithParts p us
  | none, _, _, _, _ => rfl
  | some p, es, us, hes, hus => congrArg some (withParts_withParts p es us hes hus)

end

end Pattern

instance : OverwritingSlots Pattern where
  refill_refill := Pattern.withParts_withParts

instance : OverwritingSlots Simple where
  refill_refill
    | .expression value, _, _, hes, hus =>
      congrArg Simple.expression (refill_refill value _ _ hes hus)
    | .assign targets value decl, _, _, hes, hus =>
      congrArg (fun q : List Expr × Expr => Simple.assign q.1 q.2 decl)
        (refill_refill (targets, value) _ _ hes hus)
    | .augmented target op value, _, _, hes, hus =>
      congrArg (fun q : Expr × Expr => Simple.augmented q.1 op q.2)
        (refill_refill (target, value) _ _ hes hus)
    | .annotated target hint value bare decl, _, _, hes, hus =>
      congrArg (fun q : Expr × Expr × Option Expr => Simple.annotated q.1 q.2.1 q.2.2 bare decl)
        (refill_refill (target, hint, value) _ _ hes hus)
    | .returnValue value, _, _, hes, hus =>
      congrArg Simple.returnValue (refill_refill value _ _ hes hus)
    | .delete targets, _, _, hes, hus =>
      congrArg Simple.delete (refill_refill targets _ _ hes hus)
    | .raise exception cause, _, _, hes, hus =>
      congrArg (fun q : Option Expr × Option Expr => Simple.raise q.1 q.2)
        (refill_refill (exception, cause) _ _ hes hus)
    | .assertion test message, _, _, hes, hus =>
      congrArg (fun q : Expr × Option Expr => Simple.assertion q.1 q.2)
        (refill_refill (test, message) _ _ hes hus)
    | .importModules _, _, _, _, _ | .importNames .., _, _, _, _ | .global _, _, _, _, _
    | .nonlocal _, _, _, _, _ | .pass, _, _, _, _ | .breakLoop, _, _, _, _
    | .continueLoop, _, _, _, _ => rfl

instance : OverwritingSlots ClauseHead where
  refill_refill
    | .forLoop isAsync target source, _, _, hes, hus =>
      congrArg (fun q : Expr × Expr => ClauseHead.forLoop isAsync q.1 q.2)
        (refill_refill (target, source) _ _ hes hus)
    | .whileLoop test, _, _, hes, hus =>
      congrArg ClauseHead.whileLoop (refill_refill test _ _ hes hus)
    | .withItems isAsync items, _, _, hes, hus =>
      congrArg (ClauseHead.withItems isAsync) (refill_refill items _ _ hes hus)
    | .handler isGroup kind name, _, _, hes, hus =>
      congrArg (ClauseHead.handler isGroup · name) (refill_refill kind _ _ hes hus)
    | .subject value, _, _, hes, hus =>
      congrArg ClauseHead.subject (refill_refill value _ _ hes hus)
    | .caseOf pattern guard, _, _, hes, hus =>
      congrArg (fun q : Pattern × Option Expr => ClauseHead.caseOf q.1 q.2)
        (refill_refill (pattern, guard) _ _ hes hus)
    | .tryBody, _, _, _, _ | .elseBody, _, _, _, _ | .finallyBody, _, _, _, _ => rfl

end Typeward
