import Mathlib.Data.List.Forall2
import Typeward.Proofs.PlanRuns
import Typeward.Proofs.Shapes
import Typeward.Render

/-!
# The form of built expressions

The builder makes only some of all type expressions: calls with as many arguments as their
combinators take, with the options that they know. `BuiltForm` is the grammar of these. Display
names may be given to all calls in it but the checks against classes. Every entry of a plan holds
an expression of this form, or such a check with a display name.
-/

namespace Typeward

open Registry

/-- The expressions that are built for types. -/
inductive BuiltForm : TypeExpr → Prop
  | primitive (name) : BuiltForm (.primitive name)
  | name (name) : BuiltForm (.name name)
  | deferred (name) : BuiltForm (.deferred name)
  | classCheck (name) : BuiltForm (classCheck name)
  | delayed (name) : BuiltForm (.delayed (classCheck name))
  | literal (value shown) : BuiltForm (.call .literal [.constant value] shown [])
  | maybe {e shown} (h : BuiltForm e) : BuiltForm (.call .maybe [e] shown [])
  | list {e container shown} (h : BuiltForm e) :
      BuiltForm (.call .list [e] shown (containerOptions container))
  | dict {key value shown} (hkey : BuiltForm key) (hvalue : BuiltForm value) :
      BuiltForm (.call .dict [key, value] shown [])
  | interface {fields : List (String × TypeExpr)} {shown} (h : ∀ f ∈ fields, BuiltForm f.2) :
      BuiltForm (.call .interface (fields.map fun f => .field f.1 f.2) shown [])
  | union {es shown} (h : ∀ e ∈ es, BuiltForm e) : BuiltForm (.call .union es shown [])
  | intersection {es shown} (h : ∀ e ∈ es, BuiltForm e) :
      BuiltForm (.call .intersection es shown [])
  | refinement {e predicate shown} (h : BuiltForm e) :
      BuiltForm (.call .refinement [e, .predicate predicate] shown [])
  | anyFunction {e shown} (h : BuiltForm e) :
      BuiltForm (.call .func [e] shown [("any_params", .bool true)])
  | function {params result shown} (hparams : ∀ e ∈ params, BuiltForm e)
      (hresult : BuiltForm result) : BuiltForm (.call .func (params ++ [result]) shown [])
  | tuple {es isVariadic shown} (h : ∀ e ∈ es, BuiltForm e) :
      BuiltForm (.call .tuple es shown (lengthOptions isVariadic))

/-- A condition holds of the expressions in a shape. -/
def Shape.All (P : TypeExpr → Prop) : Shape → Prop
  | .alternatives members => ∀ e, some e ∈ members → P e
  | .single e _ => P e

/-- What holds of a shape holds of its alternatives. -/
theorem Shape.All.of_mem_toAlternatives {P : TypeExpr → Prop} {s : Shape} (h : s.All P)
    {e : TypeExpr} (he : some e ∈ s.toAlternatives) : P e := by
  cases s with
  | alternatives members => exact h e he
  | single expr isNone =>
    cases isNone with
    | true => simp [toAlternatives] at he
    | false =>
      simp only [toAlternatives, Bool.false_eq_true, if_false, List.mem_singleton,
        Option.some.injEq] at he
      exact he ▸ h

/-- What holds of a shape holds of its expression, if it holds of nothing and passes to unions and
to what may be absent. -/
theorem Shape.All.toExpr {P : TypeExpr → Prop} {s : Shape} (h : s.All P)
    (hnil : P (.primitive "Nil")) (hmaybe : ∀ e, P e → P (.combine .maybe [e]))
    (hunion : ∀ es, (∀ e ∈ es, P e) → P (.combine .union es)) : P s.toExpr := by
  cases s with
  | single => exact h
  | alternatives members =>
    have hpresent : ∀ e ∈ members.filterMap id, P e := fun e he =>
      h e (by simpa using he)
    simp only [Shape.toExpr, Alternatives.toExpr]
    split
    · split
      · rename_i only heq
        exact hpresent only (heq ▸ List.mem_singleton_self only)
      · exact hunion _ hpresent
    · split
      · exact hnil
      · rename_i only heq
        exact hmaybe _ (hpresent only (heq ▸ List.mem_singleton_self only))
      · exact hmaybe _ (hunion _ hpresent)

/-- The expression of a shape of built expressions is built. -/
theorem Shape.All.builtForm {s : Shape} (h : s.All BuiltForm) : BuiltForm s.toExpr :=
  h.toExpr (.primitive _) (fun _ => .maybe) fun _ => .union

/-- Builtin classes have no dots in their names. -/
theorem rootOf_builtinClass {n : String} (h : n ∈ builtinClasses) : rootOf n = n := by
  have hall : ∀ n ∈ builtinClasses, rootOf n = n := by decide +kernel
  exact hall n h

/-- References are built to names, late names and checks against classes. -/
theorem lookup_cases {r : Registry} {name : String} {location : Option Location} {e : TypeExpr}
    (h : r.lookup name location = .ok e) :
    (∃ entry, r.get? name = some entry ∧
      ((entry.isComplete = true ∧ e = .name name) ∨
        (entry.isComplete = false ∧ entry.isRecursive = true ∧ e = .deferred name))) ∨
    (r.get? name = none ∧
      ((∃ b, r.binding? (rootOf name) = some b ∧
        ((r.isBoundLater b = true ∧ e = .delayed (classCheck name)) ∨
          (r.isBoundLater b = false ∧ e = classCheck name))) ∨
      (r.binding? (rootOf name) = none ∧ builtinClasses.contains name = true ∧
        e = classCheck name))) := by
  unfold lookup at h
  split at h
  · rename_i entry hget
    split at h
    · rename_i hcomplete
      exact .inl ⟨entry, hget, .inl ⟨hcomplete, (Except.ok.inj h).symm⟩⟩
    · rename_i hcomplete
      split at h
      · rename_i hrecursive
        exact .inl ⟨entry, hget, .inr ⟨by simpa using hcomplete, hrecursive,
          (Except.ok.inj h).symm⟩⟩
      · simp at h
  · rename_i hget
    dsimp only at h
    split at h
    · rename_i b hb
      split at h
      · simp at h
      · split at h
        · rename_i hlater
          exact .inr ⟨hget, .inl ⟨b, hb, .inl ⟨hlater, (Except.ok.inj h).symm⟩⟩⟩
        · rename_i hlater
          exact .inr ⟨hget, .inl ⟨b, hb, .inr ⟨by simpa using hlater,
            (Except.ok.inj h).symm⟩⟩⟩
    · rename_i hb
      split at h
      · rename_i hbuiltin
        exact .inr ⟨hget, .inr ⟨hb, hbuiltin, (Except.ok.inj h).symm⟩⟩
      · simp at h

/-- References are built to expressions of the form. -/
theorem builtForm_of_lookup {r : Registry} {name : String} {location : Option Location}
    {e : TypeExpr} (h : r.lookup name location = .ok e) : BuiltForm e := by
  obtain ⟨_, _, ⟨_, rfl⟩ | ⟨_, _, rfl⟩⟩ | ⟨_, ⟨_, _, ⟨_, rfl⟩ | ⟨_, rfl⟩⟩ | ⟨_, _, rfl⟩⟩ :=
    lookup_cases h
  · exact .name name
  · exact .deferred name
  · exact .delayed name
  · exact .classCheck name
  · exact .classCheck name

/-- A property of shapes that come from types, one by one. -/
theorem forall_mem_map_toExpr {ι : Type} {P : TypeExpr → Prop} {Q : Shape → Prop}
    (hQ : ∀ s, Q s → P s.toExpr) {xs : List ι} {shapes : List Shape}
    (hlength : xs.length = shapes.length) (h : ∀ p ∈ xs.zip shapes, Q p.2) :
    ∀ e ∈ shapes.map Shape.toExpr, P e := by
  intro e he
  obtain ⟨s, hs, rfl⟩ := List.mem_map.1 he
  obtain ⟨i, hi, rfl⟩ := List.getElem_of_mem hs
  have hp : (xs[i], shapes[i]) ∈ xs.zip shapes := by
    rw [← List.getElem_zip (h := by simp; omega)]
    exact List.getElem_mem _
  exact hQ _ (h _ hp)

/-- A condition that the builder carries from the references to all that it makes of them. -/
structure Registry.Carries (r : Registry) (P : TypeExpr → Prop) : Prop where
  primitive (name) : P (.primitive name)
  constant (value) : P (.constant value)
  predicate (name) : P (.predicate name)
  reference {name location e} (h : r.lookup name location = .ok e) : P e
  field {name e} (h : P e) : P (.field name e)
  call {c arguments shown options} (hc : c ≠ .irreducible) (h : ∀ e ∈ arguments, P e) :
    P (.call c arguments shown options)

namespace Registry.Carries

variable {r : Registry} {P : TypeExpr → Prop} {t : StaticType}

/-- The condition passes from the alternatives of a shape to its expression. -/
theorem toExpr (hP : r.Carries P) {s : Shape} (h : s.All P) : P s.toExpr :=
  h.toExpr (hP.primitive "Nil") (fun _ he => hP.call (by simp) (by simpa using he))
    fun _ hes => hP.call (by simp) hes

/-- The condition holds of the shape of a type. -/
theorem of_shaped (hP : r.Carries P) {s : Shape} (h : Shaped r t s) : s.All P := by
  induction h with
  | primitive h => exact hP.primitive _
  | literal value location => exact hP.call (by simp) (by simpa using hP.constant value)
  | generic name location => exact hP.primitive _
  | reference h => exact hP.reference h
  | nullable h ih =>
    intro e he
    rcases List.mem_append.1 he with he | he
    · exact ih.of_mem_toAlternatives he
    · simp at he
  | array h ih => exact hP.call (by simp) (by simpa using hP.toExpr ih)
  | dict hkey hvalue ihkey ihvalue =>
    exact hP.call (by simp) (by simpa using ⟨hP.toExpr ihkey, hP.toExpr ihvalue⟩)
  | @record fields shown location shapes hlength h ih =>
    refine hP.call (by simp) fun e he => ?_
    rw [← List.map_uncurry_zip_eq_zipWith] at he
    obtain ⟨p, hp, rfl⟩ := List.mem_map.1 he
    have hpart := hP.toExpr (ih p hp)
    refine hP.field ?_
    split
    · exact hP.call (by simp) (by simpa using hpart)
    · exact hpart
  | @union members location shapes hlength h ih =>
    intro e he
    obtain ⟨s, hs, he⟩ := List.mem_flatMap.1 he
    obtain ⟨t, -, hall⟩ := exists_mem_of_forall₂
      (List.forall₂_iff_zip.2 ⟨hlength, fun hp => ih _ hp⟩) hs
    exact Shape.All.of_mem_toAlternatives hall he
  | intersection hmarker hlength h ih =>
    exact hP.call (by simp) (forall_mem_map_toExpr (fun _ => hP.toExpr) hlength ih)
  | markedLeft h ih | markedRight h ih =>
    exact hP.call (by simp) (by simpa using ⟨hP.toExpr ih, hP.predicate _⟩)
  | anyFunction h ih => exact hP.call (by simp) (by simpa using hP.toExpr ih)
  | function hresult hlength h ihresult ih =>
    refine hP.call (by simp) fun e he => ?_
    rcases List.mem_append.1 he with he | he
    · exact forall_mem_map_toExpr (fun _ => hP.toExpr) hlength ih e he
    · rw [List.mem_singleton.1 he]
      exact hP.toExpr ihresult
  | tuple hlength h ih =>
    exact hP.call (by simp) (forall_mem_map_toExpr (fun _ => hP.toExpr) hlength ih)

/-- The condition holds of what is built for a type. -/
theorem of_build (hP : r.Carries P) {e : TypeExpr} (h : (build r t).outcome = .ok e) : P e := by
  obtain ⟨s, hs, rfl⟩ := shaped_of_build h
  exact hP.toExpr (hP.of_shaped hs)

end Registry.Carries

/-- A list is gathered from an expression: properties and calls pass on what their parts give, and
what has no parts gives nothing. Names and refining calls may give something of their own. -/
structure TypeExpr.Gathers {γ : Type} (f : TypeExpr → List γ) : Prop where
  primitive (name) : f (.primitive name) = []
  constant (value) : f (.constant value) = []
  field (name e) : f (.field name e) = f e
  call {c} (hc : c ≠ .refinement) (arguments shown options) :
    f (.call c arguments shown options) = arguments.flatMap f

namespace TypeExpr.Gathers

variable {γ : Type} {f : TypeExpr → List γ} {r : Registry} {t : StaticType} {s : Shape}
  {ts : List StaticType} {shapes : List Shape}

/-- A property gives what the expression of its field gives, optional or not. -/
theorem fieldExpr (hf : Gathers f) (name : String) (isOptional : Bool) (e : TypeExpr) :
    f (Typeward.fieldExpr name isOptional e) = f e := by
  rw [Typeward.fieldExpr, hf.field]
  split
  · rw [combine, hf.call (by decide), List.flatMap_singleton]
  · rfl

/-- A union gives what its members give. -/
theorem toExpr (hf : Gathers f) (members : Alternatives) :
    f members.toExpr = (members.filterMap id).flatMap f := by
  have hunion (es : List TypeExpr) : f (combine .union es) = es.flatMap f :=
    hf.call (by decide) ..
  have hmaybe (e : TypeExpr) : f (combine .maybe [e]) = f e :=
    (hf.call (by decide) ..).trans (List.flatMap_singleton ..)
  unfold Alternatives.toExpr
  dsimp only
  split
  · split
    · rename_i only heq
      rw [heq, List.flatMap_singleton]
    · exact hunion _
  · split
    · rename_i heq
      rw [heq, hf.primitive, List.flatMap_nil]
    · rename_i only heq
      rw [heq, hmaybe, List.flatMap_singleton]
    · rw [hmaybe, hunion]

/-- The members that a shape gives to a union give what its expression gives: what stands for the
absence of a value has nothing to lose. -/
theorem toAlternatives (hf : Gathers f) (h : Shaped r t s) :
    (s.toAlternatives.filterMap id).flatMap f = f s.toExpr := by
  cases h with
  | nullable | union => exact (hf.toExpr _).symm
  | primitive h =>
    rw [Shape.toAlternatives, Shape.toExpr, hf.primitive]
    split
    · rfl
    · exact (List.flatMap_singleton ..).trans (hf.primitive _)
  | literal value location =>
    have hnothing : f (combine .literal [.constant value]) = [] := by
      rw [combine, hf.call (by decide), List.flatMap_singleton, hf.constant]
    rw [Shape.toAlternatives, Shape.toExpr, hnothing]
    split
    · rfl
    · exact (List.flatMap_singleton ..).trans hnothing
  | _ => simp [Shape.toAlternatives, Shape.toExpr]

/-- The alternatives of several shapes give what the expressions of each of them give. -/
theorem flatMap_toAlternatives (hf : Gathers f) (h : ShapedAll r ts shapes) :
    ((shapes.flatMap Shape.toAlternatives).filterMap id).flatMap f =
      shapes.flatMap fun s => f s.toExpr := by
  obtain ⟨hlength, hshapes⟩ := h
  induction ts generalizing shapes with
  | nil =>
    obtain rfl := List.length_eq_zero_iff.1 hlength.symm
    rfl
  | cons t rest ih =>
    obtain ⟨s, shapes, rfl⟩ := List.exists_cons_of_length_eq_add_one hlength.symm
    simp only [List.zip_cons_cons, List.forall_mem_cons] at hshapes
    rw [List.flatMap_cons, List.filterMap_append, List.flatMap_append,
      hf.toAlternatives hshapes.1, ih (by simpa using hlength) hshapes.2, List.flatMap_cons]

/-- The properties that fields are built to give what the expressions of the fields give. -/
theorem zipWith_propertyOf (hf : Gathers f) {fields : List (RecordField StaticType)}
    (hlength : fields.length = shapes.length) :
    (fields.zipWith propertyOf shapes).flatMap f = shapes.flatMap fun s => f s.toExpr := by
  induction fields generalizing shapes with
  | nil =>
    obtain rfl := List.length_eq_zero_iff.1 hlength.symm
    rfl
  | cons field rest ih =>
    obtain ⟨s, shapes, rfl⟩ := List.exists_cons_of_length_eq_add_one hlength.symm
    rw [List.zipWith_cons_cons, List.flatMap_cons, List.flatMap_cons, propertyOf, hf.fieldExpr,
      ih (by simpa using hlength)]

end TypeExpr.Gathers

/-- Types are built to expressions of the form. -/
theorem Shaped.all_builtForm {r : Registry} {t : StaticType} {s : Shape} (h : Shaped r t s) :
    s.All BuiltForm := by
  induction h with
  | primitive h => exact .primitive _
  | literal value location => exact .literal value none
  | generic name location => exact .primitive _
  | reference h => exact builtForm_of_lookup h
  | nullable h ih =>
    intro e he
    rcases List.mem_append.1 he with he | he
    · exact ih.of_mem_toAlternatives he
    · simp at he
  | array h ih => exact .list ih.builtForm
  | dict hkey hvalue ihkey ihvalue => exact .dict ihkey.builtForm ihvalue.builtForm
  | @record fields shown location shapes hlength h ih =>
    have hall : ∀ f ∈ fields.zipWith namedProperty shapes, BuiltForm f.2 := by
      intro f hf
      simp only [← List.map_uncurry_zip_eq_zipWith, List.mem_map] at hf
      obtain ⟨p, hp, rfl⟩ := hf
      have hform := (ih p hp).builtForm
      simp only [Function.uncurry_def, namedProperty]
      split
      · exact .maybe hform
      · exact hform
    simp only [Shape.All, zipWith_propertyOf]
    exact .interface hall
  | @union members location shapes hlength h ih =>
    intro e he
    obtain ⟨s, hs, he⟩ := List.mem_flatMap.1 he
    obtain ⟨i, hi, rfl⟩ := List.getElem_of_mem hs
    have hp : (members[i], shapes[i]) ∈ members.zip shapes := by
      rw [← List.getElem_zip (h := by simp; omega)]
      exact List.getElem_mem _
    exact (ih _ hp).of_mem_toAlternatives he
  | intersection hmarker hlength h ih =>
    exact .intersection (forall_mem_map_toExpr (fun _ => Shape.All.builtForm) hlength ih)
  | markedLeft h ih => exact .refinement ih.builtForm
  | markedRight h ih => exact .refinement ih.builtForm
  | anyFunction h ih => exact .anyFunction ih.builtForm
  | function hresult hlength h ihresult ih =>
    exact .function (forall_mem_map_toExpr (fun _ => Shape.All.builtForm) hlength ih)
      ihresult.builtForm
  | tuple hlength h ih =>
    exact .tuple (forall_mem_map_toExpr (fun _ => Shape.All.builtForm) hlength ih)

/-- What is built for a type is of the form. -/
theorem builtForm_of_build {r : Registry} {t : StaticType} {e : TypeExpr}
    (h : (build r t).outcome = .ok e) : BuiltForm e := by
  obtain ⟨s, hs, rfl⟩ := shaped_of_build h
  exact hs.all_builtForm.builtForm

end Typeward
