import Mathlib.Data.List.Forall2
import Typeward.Source.Slots
import Typeward.StaticType

/-!
# Code without its places

Two expressions are the same code if they differ in nothing but the places of their nodes, and two
types are the same type if they differ in nothing but the places that they were written at. Both are
told by moving everything to one place.
-/

namespace Typeward

open Slots

/-- Where nothing stands. -/
def Pos.nowhere : Pos := ⟨0, 0⟩

/-- A parameter at another place. -/
def Parameter.withPlace {ε : Type} (pos : Pos) (p : Parameter ε) : Parameter ε := { p with pos }

/-- Parameters that all are at another place. -/
def Parameters.withPlace {ε : Type} (pos : Pos) (ps : Parameters ε) : Parameters ε :=
  ⟨ps.positionalOnly.map (·.withPlace pos), ps.positional.map (·.withPlace pos),
    ps.variadic.map (·.withPlace pos), ps.keywordOnly.map (·.withPlace pos),
    ps.keywordVariadic.map (·.withPlace pos)⟩

namespace Expr

/-- A node at another place, with its parts where they are. -/
def withPlace (pos : Pos) : Expr → Expr
  | .name _ id => .name pos id
  | .constant _ value marked => .constant pos value marked
  | .attribute _ base attr => .attribute pos base attr
  | .subscript _ base index => .subscript pos base index
  | .call _ func args keywords decl => .call pos func args keywords decl
  | .binary _ left op right => .binary pos left op right
  | .unary _ op operand => .unary pos op operand
  | .boolean _ op operands => .boolean pos op operands
  | .compare _ first rest => .compare pos first rest
  | .conditional _ test body orelse => .conditional pos test body orelse
  | .lambda _ params body => .lambda pos (params.withPlace pos) body
  | .display _ kind elements => .display pos kind elements
  | .dict _ keys values => .dict pos keys values
  | .comprehension _ kind element clauses => .comprehension pos kind element clauses
  | .dictComprehension _ key value clauses => .dictComprehension pos key value clauses
  | .yield _ value => .yield pos value
  | .yieldFrom _ value => .yieldFrom pos value
  | .await _ value => .await pos value
  | .starred _ value => .starred pos value
  | .walrus _ target value => .walrus pos target value
  | .slice _ lower upper step => .slice pos lower upper step
  | .formatted _ parts => .formatted pos parts
  | .field _ value conversion spec => .field pos value conversion spec

/-- An expression with all of its nodes at one place. -/
def placedAt (pos : Pos) (e : Expr) : Expr :=
  (e.withChildren (e.children.attach.map fun c => placedAt pos c.1)).withPlace pos
termination_by sizeOf e
decreasing_by exact sizeOf_lt_of_mem_children c.2

/-- A node without its place and its parts. -/
def shell (e : Expr) : Expr :=
  (e.withChildren (e.children.map fun _ => .name .nowhere "")).withPlace .nowhere

/-- Two expressions differ in nothing but the places of their nodes. -/
def SameCode (e e' : Expr) : Prop := e.placedAt .nowhere = e'.placedAt .nowhere

/-- What a name, or an attribute on what may be a name with dots, refers to. -/
def designator? : Expr → Option (Option (Option String) × String)
  | .name _ id => some (none, id)
  | .attribute _ base attr => some (some base.dotted?, attr)
  | _ => none

/-- What is neither a name nor an attribute refers to nothing. -/
theorem designator?_eq_none {e : Expr} (hname : ∀ p id, e ≠ .name p id)
    (hattribute : ∀ p base attr, e ≠ .attribute p base attr) :
    e.dotted? = none ∧ e.designator? = none := by
  cases e with
  | name p id => exact absurd rfl (hname p id)
  | «attribute» p base attr => exact absurd rfl (hattribute p base attr)
  | _ => exact ⟨rfl, rfl⟩

/-- Expressions refer to the same thing if they are related so that names stay these names,
attributes stay these attributes of what is related, and nothing else comes to refer to a thing. -/
theorem designator?_eq_of_rel {R : Expr → Expr → Prop}
    (hname : ∀ {p id e'}, R (.name p id) e' → ∃ q, e' = .name q id)
    (hattribute : ∀ {p base attr e'}, R (.attribute p base attr) e' →
      ∃ q base', e' = .attribute q base' attr ∧ R base base')
    (hother : ∀ {e e'}, R e e' → (∀ p id, e ≠ .name p id) →
      (∀ p base attr, e ≠ .attribute p base attr) → e'.dotted? = none ∧ e'.designator? = none)
    {e e' : Expr} (h : R e e') : e.dotted? = e'.dotted? ∧ e.designator? = e'.designator? := by
  induction e using dotted?.induct generalizing e' with
  | case1 pos id =>
    obtain ⟨q, rfl⟩ := hname h
    exact ⟨rfl, rfl⟩
  | case2 pos base attr ih =>
    obtain ⟨q, base', rfl, hbase⟩ := hattribute h
    have hdotted := (ih hbase).1
    exact ⟨by rw [dotted?, dotted?, hdotted], by rw [designator?, designator?, hdotted]⟩
  | case3 e hnot hnone =>
    obtain ⟨hdotted, hdesignator⟩ := designator?_eq_none hnot hnone
    obtain ⟨hdotted', hdesignator'⟩ := hother h hnot hnone
    exact ⟨hdotted.trans hdotted'.symm, hdesignator.trans hdesignator'.symm⟩

/-- All nodes of an expression are moved by moving its parts and then its own one. -/
theorem placedAt_eq (pos : Pos) (e : Expr) :
    e.placedAt pos = (e.withChildren (e.children.map (·.placedAt pos))).withPlace pos := by
  rw [placedAt, List.attach_map_val]

section Nodes

variable {e' : Expr} {pos : Pos}

/-- The same code as a name is that name. -/
theorem SameCode.of_name {id : String} (h : SameCode (.name pos id) e') :
    ∃ q, e' = .name q id := by
  cases e'
  all_goals
    rw [SameCode, placedAt_eq, placedAt_eq] at h
    cases h
  exact ⟨_, rfl⟩

/-- The same code as a literal is that literal. -/
theorem SameCode.of_constant {value : Constant} {marked : Bool}
    (h : SameCode (.constant pos value marked) e') : ∃ q, e' = .constant q value marked := by
  cases e'
  all_goals
    rw [SameCode, placedAt_eq, placedAt_eq] at h
    cases h
  exact ⟨_, rfl⟩

/-- The same code as an attribute is that attribute of the same code. -/
theorem SameCode.of_attribute {base : Expr} {attr : String}
    (h : SameCode (.attribute pos base attr) e') :
    ∃ q base', e' = .attribute q base' attr ∧ base.SameCode base' := by
  cases e'
  all_goals
    rw [SameCode, placedAt_eq, placedAt_eq] at h
    injection h
  rename_i q base' attr' hpos hbase hattr
  exact ⟨_, _, congrArg _ hattr.symm, hbase⟩

/-- The same code as a subscript is a subscript of the same code. -/
theorem SameCode.of_subscript {base index : Expr} (h : SameCode (.subscript pos base index) e') :
    ∃ q base' index', e' = .subscript q base' index' ∧ base.SameCode base' ∧
      index.SameCode index' := by
  cases e'
  all_goals
    rw [SameCode, placedAt_eq, placedAt_eq] at h
    injection h
  rename_i q base' index' hpos hbase hindex
  exact ⟨_, _, _, rfl, hbase, hindex⟩

/-- The same code as an operation is that operation on the same code. -/
theorem SameCode.of_binary {left right : Expr} {op : BinaryOp}
    (h : SameCode (.binary pos left op right) e') :
    ∃ q left' right', e' = .binary q left' op right' ∧ left.SameCode left' ∧
      right.SameCode right' := by
  cases e'
  all_goals
    rw [SameCode, placedAt_eq, placedAt_eq] at h
    injection h
  rename_i q left' op' right' hpos hleft hop hright
  subst hop
  exact ⟨_, _, _, rfl, hleft, hright⟩

/-- A list of expressions is refilled by taking the other ones. -/
theorem refill_list {es us : List Expr} (h : us.length = es.length) : refill es us = us := by
  have hslots : listSlots (refill es us) = us :=
    slots_refill es us (h.trans (congrArg List.length (listSlots_expr es).symm))
  rwa [listSlots_expr] at hslots

/-- The nodes of a list of expressions are the same code if moving them to one place makes the lists
equal. -/
theorem forall₂_sameCode {es es' : List Expr}
    (h : es.map (·.placedAt .nowhere) = es'.map (·.placedAt .nowhere)) :
    List.Forall₂ SameCode es es' := by
  rw [← List.forall₂_eq_eq_eq, List.forall₂_map_left_iff, List.forall₂_map_right_iff] at h
  exact h

/-- The same code as a display is a display of the same code. -/
theorem SameCode.of_display {kind : DisplayKind} {elements : List Expr}
    (h : SameCode (.display pos kind elements) e') :
    ∃ q elements', e' = .display q kind elements' ∧ List.Forall₂ SameCode elements elements' := by
  cases e'
  all_goals
    rw [SameCode, placedAt_eq, placedAt_eq] at h
    injection h
  rename_i q kind' elements' hpos hkind helements
  subst hkind
  have hchildren (p : Pos) (es : List Expr) : (display p kind es).children = es :=
    listSlots_expr es
  rw [hchildren, hchildren, refill_list (List.length_map _),
    refill_list (List.length_map _)] at helements
  exact ⟨_, _, rfl, forall₂_sameCode helements⟩

/-- The same code refers to the same thing. -/
theorem SameCode.designator?_eq {e : Expr} (h : e.SameCode e') :
    e.dotted? = e'.dotted? ∧ e.designator? = e'.designator? := by
  refine designator?_eq_of_rel of_name of_attribute (fun h hname hattribute => ?_) h
  refine designator?_eq_none ?_ ?_
  · rintro q id rfl
    obtain ⟨p, rfl⟩ := of_name h.symm
    exact hname p id rfl
  · rintro q base attr rfl
    obtain ⟨p, base', rfl, -⟩ := of_attribute h.symm
    exact hattribute p base' attr rfl

end Nodes

end Expr

namespace StaticType

mutual

/-- A type with all of its nodes at one place, or nowhere. -/
def placedAt (place : Option Location) : StaticType → StaticType
  | .primitive name _ => .primitive name place
  | .literal value _ => .literal value place
  | .generic name _ => .generic name place
  | .reference name arguments _ => .reference name (allPlacedAt place arguments) place
  | .marker predicate _ => .marker predicate place
  | .nullable inner _ => .nullable (inner.placedAt place) place
  | .array element container _ => .array (element.placedAt place) container place
  | .dict key value _ => .dict (key.placedAt place) (value.placedAt place) place
  | .record fields name _ => .record (fieldsPlacedAt place fields) name place
  | .union members _ => .union (allPlacedAt place members) place
  | .intersection members _ => .intersection (allPlacedAt place members) place
  | .function params result _ =>
    .function (paramsPlacedAt place params) (result.placedAt place) place
  | .tuple elements isVariadic _ => .tuple (allPlacedAt place elements) isVariadic place

/-- Types with all of their nodes at one place. -/
def allPlacedAt (place : Option Location) : List StaticType → List StaticType
  | [] => []
  | t :: rest => t.placedAt place :: allPlacedAt place rest

/-- The types of fields with all of their nodes at one place. -/
def fieldsPlacedAt (place : Option Location) :
    List (RecordField StaticType) → List (RecordField StaticType)
  | [] => []
  | ⟨name, type, isOptional, _⟩ :: rest =>
    ⟨name, type.placedAt place, isOptional, place⟩ :: fieldsPlacedAt place rest

/-- The parameters of a function type with all of their nodes at one place. -/
def paramsPlacedAt (place : Option Location) : Option (List StaticType) → Option (List StaticType)
  | none => none
  | some params => some (allPlacedAt place params)

end

/-- Two types differ in nothing but the places that they were written at. -/
def SameType (t t' : StaticType) : Prop := t.placedAt none = t'.placedAt none

/-- Several types are moved by moving each of them. -/
theorem allPlacedAt_eq_map (place : Option Location) (ts : List StaticType) :
    allPlacedAt place ts = ts.map (·.placedAt place) := by
  induction ts with
  | nil => rfl
  | cons t rest ih => rw [allPlacedAt, ih, List.map_cons]

/-- Lists of types that are the same member by member are moved to the same. -/
theorem allPlacedAt_eq {ts ts' : List StaticType} (h : List.Forall₂ SameType ts ts') :
    allPlacedAt none ts = allPlacedAt none ts' := by
  rw [allPlacedAt_eq_map, allPlacedAt_eq_map, ← List.forall₂_eq_eq_eq, List.forall₂_map_left_iff,
    List.forall₂_map_right_iff]
  exact h

/-- Fields are the same but for their places and those of their types. -/
structure SameField (f f' : RecordField StaticType) : Prop where
  name : f.name = f'.name
  type : f.type.SameType f'.type
  isOptional : f.isOptional = f'.isOptional

/-- Fields that are the same one by one are moved to the same. -/
theorem fieldsPlacedAt_eq {fields fields' : List (RecordField StaticType)}
    (h : List.Forall₂ SameField fields fields') :
    fieldsPlacedAt none fields = fieldsPlacedAt none fields' := by
  induction h with
  | nil => rfl
  | @cons f f' rest rest' hfirst hrest ih =>
    rw [fieldsPlacedAt, fieldsPlacedAt, hfirst.name, hfirst.type, hfirst.isOptional, ih]

end StaticType

end Typeward
