import Mathlib.Data.List.Forall2
import Typeward.Proofs.BuiltForms

/-!
# The names that types refer to

A reference with dots reads the name before its first dot. The expression built for a type refers
to just the names that the type refers to, erased arguments aside: building drops no reference and
adds none.
-/

namespace Typeward

open Registry

/-- A type refers to a name outside of erased arguments. -/
inductive StaticType.RefersTo (x : String) : StaticType → Prop
  | reference {name arguments location} (h : rootOf name = x) :
      RefersTo x (.reference name arguments location)
  | marker {predicate location} (h : rootOf predicate = x) : RefersTo x (.marker predicate location)
  | nullable {inner location} (h : RefersTo x inner) : RefersTo x (.nullable inner location)
  | array {element container location} (h : RefersTo x element) :
      RefersTo x (.array element container location)
  | key {key value location} (h : RefersTo x key) : RefersTo x (.dict key value location)
  | value {key value location} (h : RefersTo x value) : RefersTo x (.dict key value location)
  | field {fields shown location f} (hf : f ∈ fields) (h : RefersTo x f.type) :
      RefersTo x (.record fields shown location)
  | union {members location t} (ht : t ∈ members) (h : RefersTo x t) :
      RefersTo x (.union members location)
  | intersection {members location t} (ht : t ∈ members) (h : RefersTo x t) :
      RefersTo x (.intersection members location)
  | param {params result location t} (ht : t ∈ params) (h : RefersTo x t) :
      RefersTo x (.function (some params) result location)
  | result {params result location} (h : RefersTo x result) :
      RefersTo x (.function params result location)
  | element {elements isVariadic location t} (ht : t ∈ elements) (h : RefersTo x t) :
      RefersTo x (.tuple elements isVariadic location)

/-- An expression refers to a name. -/
inductive TypeExpr.RefersTo (x : String) : TypeExpr → Prop
  | name {name} (h : rootOf name = x) : RefersTo x (.name name)
  | deferred {name} (h : rootOf name = x) : RefersTo x (.deferred name)
  | predicate {name} (h : rootOf name = x) : RefersTo x (.predicate name)
  | delayed {e} (h : RefersTo x e) : RefersTo x (.delayed e)
  | field {name e} (h : RefersTo x e) : RefersTo x (.field name e)
  | call {combinator arguments shown options e} (he : e ∈ arguments) (h : RefersTo x e) :
      RefersTo x (.call combinator arguments shown options)
  | reified {e kind parts} (h : RefersTo x e) : RefersTo x (.reified e kind parts)

variable {x : String}

namespace StaticType

variable {location : Option Location}

/-- A primitive type refers to nothing. -/
@[simp]
theorem not_refersTo_primitive {name : String} : ¬ (primitive name location).RefersTo x := nofun

/-- The type of a value refers to nothing. -/
@[simp]
theorem not_refersTo_literal {value : Constant} : ¬ (literal value location).RefersTo x := nofun

/-- A type parameter refers to nothing. -/
@[simp]
theorem not_refersTo_generic {name : String} : ¬ (generic name location).RefersTo x := nofun

/-- A reference refers to the name before its first dot. -/
@[simp]
theorem refersTo_reference {name : String} {arguments : List StaticType} :
    (reference name arguments location).RefersTo x ↔ rootOf name = x :=
  ⟨fun | .reference h => h, .reference⟩

/-- A marker refers to the name of its predicate before the first dot. -/
@[simp]
theorem refersTo_marker {predicate : String} :
    (marker predicate location).RefersTo x ↔ rootOf predicate = x :=
  ⟨fun | .marker h => h, .marker⟩

/-- An optional type refers to what it refers to if it is present. -/
@[simp]
theorem refersTo_nullable {inner : StaticType} :
    (nullable inner location).RefersTo x ↔ inner.RefersTo x :=
  ⟨fun | .nullable h => h, .nullable⟩

/-- A collection refers to what the type of its elements refers to. -/
@[simp]
theorem refersTo_array {element : StaticType} {container : String} :
    (array element container location).RefersTo x ↔ element.RefersTo x :=
  ⟨fun | .array h => h, .array⟩

/-- A dictionary refers to what the types of its keys and values refer to. -/
@[simp]
theorem refersTo_dict {key value : StaticType} :
    (dict key value location).RefersTo x ↔ key.RefersTo x ∨ value.RefersTo x :=
  ⟨fun | .key h => .inl h | .value h => .inr h, fun h => h.elim .key .value⟩

/-- A record refers to what the types of its fields refer to. -/
@[simp]
theorem refersTo_record {fields : List (RecordField StaticType)} {shown : Option String} :
    (record fields shown location).RefersTo x ↔ ∃ f ∈ fields, f.type.RefersTo x :=
  ⟨fun | .field hf h => ⟨_, hf, h⟩, fun ⟨_, hf, h⟩ => .field hf h⟩

/-- A union refers to what its members refer to. -/
@[simp]
theorem refersTo_union {members : List StaticType} :
    (union members location).RefersTo x ↔ ∃ t ∈ members, t.RefersTo x :=
  ⟨fun | .union ht h => ⟨_, ht, h⟩, fun ⟨_, ht, h⟩ => .union ht h⟩

/-- An intersection refers to what its members refer to. -/
@[simp]
theorem refersTo_intersection {members : List StaticType} :
    (intersection members location).RefersTo x ↔ ∃ t ∈ members, t.RefersTo x :=
  ⟨fun | .intersection ht h => ⟨_, ht, h⟩, fun ⟨_, ht, h⟩ => .intersection ht h⟩

/-- A function that takes anything refers to what its result refers to. -/
@[simp]
theorem refersTo_anyFunction {result : StaticType} :
    (function none result location).RefersTo x ↔ result.RefersTo x :=
  ⟨fun | .result h => h, .result⟩

/-- A function refers to what its parameters and its result refer to. -/
@[simp]
theorem refersTo_function {params : List StaticType} {result : StaticType} :
    (function (some params) result location).RefersTo x ↔
      (∃ t ∈ params, t.RefersTo x) ∨ result.RefersTo x :=
  ⟨fun | .param ht h => .inl ⟨_, ht, h⟩ | .result h => .inr h,
    fun | .inl ⟨_, ht, h⟩ => .param ht h | .inr h => .result h⟩

/-- A tuple refers to what its elements refer to. -/
@[simp]
theorem refersTo_tuple {elements : List StaticType} {isVariadic : Bool} :
    (tuple elements isVariadic location).RefersTo x ↔ ∃ t ∈ elements, t.RefersTo x :=
  ⟨fun | .element ht h => ⟨_, ht, h⟩, fun ⟨_, ht, h⟩ => .element ht h⟩

end StaticType

namespace TypeExpr

/-- A primitive refers to no name of the module. -/
@[simp]
theorem not_refersTo_primitive {name : String} : ¬ (primitive name).RefersTo x := nofun

/-- A constant refers to nothing. -/
@[simp]
theorem not_refersTo_constant {value : Constant} : ¬ (constant value).RefersTo x := nofun

/-- A reference refers to the name before its first dot. -/
@[simp]
theorem refersTo_name {n : String} : (name n).RefersTo x ↔ rootOf n = x :=
  ⟨fun | .name h => h, .name⟩

/-- A late reference refers to the name before its first dot. -/
@[simp]
theorem refersTo_deferred {n : String} : (deferred n).RefersTo x ↔ rootOf n = x :=
  ⟨fun | .deferred h => h, .deferred⟩

/-- A predicate refers to the name before its first dot. -/
@[simp]
theorem refersTo_predicate {n : String} : (predicate n).RefersTo x ↔ rootOf n = x :=
  ⟨fun | .predicate h => h, .predicate⟩

/-- A delayed expression refers to what it refers to at once. -/
@[simp]
theorem refersTo_delayed {e : TypeExpr} : (delayed e).RefersTo x ↔ e.RefersTo x :=
  ⟨fun | .delayed h => h, .delayed⟩

/-- A property refers to what its type refers to. -/
@[simp]
theorem refersTo_field {n : String} {e : TypeExpr} : (field n e).RefersTo x ↔ e.RefersTo x :=
  ⟨fun | .field h => h, .field⟩

/-- A call refers to what its arguments refer to. -/
@[simp]
theorem refersTo_call {c : Combinator} {arguments : List TypeExpr} {shown : Option String}
    {options : List (String × Constant)} :
    (call c arguments shown options).RefersTo x ↔ ∃ e ∈ arguments, e.RefersTo x :=
  ⟨fun | .call he h => ⟨_, he, h⟩, fun ⟨_, he, h⟩ => .call he h⟩

/-- A display name is no reference. -/
@[simp]
theorem refersTo_named {e : TypeExpr} (shown : String) :
    (e.named shown).RefersTo x ↔ e.RefersTo x := by
  unfold named
  split
  · simp
  · rfl

end TypeExpr

/-- A check against a class refers to the class. -/
@[simp]
theorem refersTo_classCheck {name : String} :
    (Registry.classCheck name).RefersTo x ↔ rootOf name = x := by
  simp [Registry.classCheck, TypeExpr.combine]

/-- However a reference is built, it refers to the name before its first dot. -/
theorem refersTo_of_lookup {r : Registry} {name : String} {location : Option Location}
    {e : TypeExpr} (h : r.lookup name location = .ok e) : e.RefersTo x ↔ rootOf name = x := by
  obtain ⟨_, _, ⟨_, rfl⟩ | ⟨_, _, rfl⟩⟩ | ⟨_, ⟨_, _, ⟨_, rfl⟩ | ⟨_, rfl⟩⟩ | ⟨_, _, rfl⟩⟩ :=
    lookup_cases h <;> simp

/-- A union has a property that passes through unions and optional types, and does not hold of the
absence of a value, just if one of its alternatives has it. -/
theorem Alternatives.exists_toExpr {P : TypeExpr → Prop} (members : Alternatives)
    (hnil : ¬ P (.primitive "Nil")) (hmaybe : ∀ e, P (.combine .maybe [e]) ↔ P e)
    (hunion : ∀ es, P (.combine .union es) ↔ ∃ e ∈ es, P e) :
    P members.toExpr ↔ ∃ e, some e ∈ members ∧ P e := by
  have hpresent : (∃ e, some e ∈ members ∧ P e) ↔ ∃ e ∈ members.filterMap id, P e := by simp
  rw [hpresent]
  unfold toExpr
  dsimp only
  split <;> split <;> simp_all

/-- A union refers to what its alternatives refer to, the absence of a value aside. -/
theorem Alternatives.refersTo_toExpr {members : Alternatives} :
    members.toExpr.RefersTo x ↔ ∃ e, some e ∈ members ∧ e.RefersTo x :=
  members.exists_toExpr (by simp) (by simp [TypeExpr.combine]) (by simp [TypeExpr.combine])

/-- An alternative of some of several shapes has a property just if some shape has an alternative
with it. -/
theorem exists_mem_flatMap_toAlternatives {P : TypeExpr → Prop} {shapes : List Shape} :
    (∃ e, some e ∈ shapes.flatMap Shape.toAlternatives ∧ P e) ↔
      ∃ s ∈ shapes, ∃ e, some e ∈ s.toAlternatives ∧ P e := by
  simp only [List.mem_flatMap]
  exact ⟨fun ⟨e, ⟨s, hs, he⟩, hx⟩ => ⟨s, hs, e, he, hx⟩,
    fun ⟨s, hs, e, he, hx⟩ => ⟨e, ⟨s, hs, he⟩, hx⟩⟩

/-- Of values that correspond one to one, some on one side have a property when some on the other
side have the property that corresponds to it. -/
theorem exists_mem_iff_of_forall₂ {α β : Type} {R : α → β → Prop} {P : α → Prop} {Q : β → Prop}
    {xs : List α} {ys : List β} (h : List.Forall₂ R xs ys) (hiff : ∀ a b, R a b → (Q b ↔ P a)) :
    (∃ y ∈ ys, Q y) ↔ ∃ x ∈ xs, P x := by
  induction h with
  | nil => simp
  | cons hab hrest ih =>
    simp only [List.exists_mem_cons_iff, hiff _ _ hab, ih]

/-- As `exists_mem_iff_of_forall₂`, for values of two lists of one length. -/
theorem exists_mem_iff_of_zip {α β : Type} {P : α → Prop} {Q : β → Prop} {xs : List α}
    {ys : List β} (hlength : xs.length = ys.length) (h : ∀ p ∈ xs.zip ys, Q p.2 ↔ P p.1) :
    (∃ y ∈ ys, Q y) ↔ ∃ x ∈ xs, P x :=
  exists_mem_iff_of_forall₂ (List.forall₂_iff_zip.2 ⟨hlength, fun hp => h _ hp⟩)
    fun _ _ hiff => hiff

/-- Types that are built to shapes are referred from as the shapes are. -/
structure Shape.RefersAs (x : String) (s : Shape) (t : StaticType) : Prop where
  alternatives : (∃ e, some e ∈ s.toAlternatives ∧ e.RefersTo x) ↔ t.RefersTo x
  toExpr : s.toExpr.RefersTo x ↔ t.RefersTo x

/-- A union refers as a type does if its alternatives do. -/
theorem Shape.refersAs_alternatives {members : Alternatives} {t : StaticType}
    (h : (∃ e, some e ∈ members ∧ e.RefersTo x) ↔ t.RefersTo x) :
    (Shape.alternatives members).RefersAs x t :=
  ⟨h, Alternatives.refersTo_toExpr.trans h⟩

/-- A single expression refers as a type does if neither stands for the absence of a value. -/
theorem Shape.refersAs_single {e : TypeExpr} {t : StaticType}
    (h : e.RefersTo x ↔ t.RefersTo x) : (Shape.single e false).RefersAs x t :=
  ⟨by simpa [toAlternatives] using h, h⟩

/-- An expression that refers to nothing may stand for the absence of a value. -/
theorem Shape.refersAs_quiet {e : TypeExpr} {isNone : Bool} {t : StaticType}
    (he : ¬ e.RefersTo x) (ht : ¬ t.RefersTo x) : (Shape.single e isNone).RefersAs x t := by
  refine ⟨?_, iff_of_false he ht⟩
  cases isNone <;> simp [toAlternatives, he, ht]

/-- The expressions of shapes refer to what the types refer to. -/
theorem exists_toExpr_refersTo_iff {ts : List StaticType} {shapes : List Shape}
    (hlength : ts.length = shapes.length)
    (h : ∀ p ∈ ts.zip shapes, p.2.RefersAs x p.1) :
    (∃ e ∈ shapes.map Shape.toExpr, e.RefersTo x) ↔ ∃ t ∈ ts, t.RefersTo x := by
  simpa using exists_mem_iff_of_zip hlength fun p hp => (h p hp).toExpr

/-- A field is built to a property that refers to what its type refers to. -/
theorem refersTo_propertyOf {f : RecordField StaticType} {s : Shape} :
    (propertyOf f s).RefersTo x ↔ s.toExpr.RefersTo x := by
  unfold propertyOf fieldExpr
  split <;> simp [TypeExpr.combine]

/-- The properties of a record refer to what the shapes of its fields refer to. -/
theorem exists_mem_zipWith_propertyOf {fields : List (RecordField StaticType)}
    {shapes : List Shape} (hlength : fields.length = shapes.length) :
    (∃ e ∈ fields.zipWith propertyOf shapes, e.RefersTo x) ↔
      ∃ s ∈ shapes, s.toExpr.RefersTo x := by
  have hshapes : (fields.zip shapes).map Prod.snd = shapes :=
    List.map_snd_zip (Nat.le_of_eq hlength.symm)
  rw [← List.map_uncurry_zip_eq_zipWith]
  nth_rewrite 2 [← hshapes]
  simp only [List.mem_map, exists_exists_and_eq_and, Function.uncurry_def, refersTo_propertyOf]

/-- What a type is built to refers to what the type refers to. -/
theorem Shaped.refersAs {r : Registry} {t : StaticType} {s : Shape} (h : Shaped r t s) :
    s.RefersAs x t := by
  induction h with
  | primitive h => exact Shape.refersAs_quiet (by simp) (by simp)
  | literal value location => exact Shape.refersAs_quiet (by simp [TypeExpr.combine]) (by simp)
  | generic name location => exact Shape.refersAs_quiet (by simp) (by simp)
  | reference h => exact Shape.refersAs_single (by simpa using refersTo_of_lookup h)
  | nullable h ih => exact Shape.refersAs_alternatives (by simpa using ih.alternatives)
  | array h ih => exact Shape.refersAs_single (by simpa using ih.toExpr)
  | dict hkey hvalue ihkey ihvalue =>
    exact Shape.refersAs_single (by simp [TypeExpr.combine, ihkey.toExpr, ihvalue.toExpr])
  | @record fields shown location shapes hlength h ih =>
    have hproperties := exists_mem_iff_of_zip (P := fun f => f.type.RefersTo x)
      (Q := fun s => s.toExpr.RefersTo x) hlength fun p hp => (ih p hp).toExpr
    refine Shape.refersAs_single ?_
    rw [TypeExpr.refersTo_call, StaticType.refersTo_record, ← hproperties]
    exact exists_mem_zipWith_propertyOf hlength
  | @union members location shapes hlength h ih =>
    have hmembers := exists_mem_iff_of_zip (P := fun t => t.RefersTo x)
      (Q := fun s => ∃ e, some e ∈ s.toAlternatives ∧ e.RefersTo x) hlength
      fun p hp => (ih p hp).alternatives
    refine Shape.refersAs_alternatives ?_
    rw [StaticType.refersTo_union, ← hmembers]
    exact exists_mem_flatMap_toAlternatives
  | intersection hmarker hlength h ih =>
    exact Shape.refersAs_single
      (by simpa [TypeExpr.combine] using exists_toExpr_refersTo_iff hlength ih)
  | markedLeft h ih =>
    exact Shape.refersAs_single (by simp [TypeExpr.combine, ih.toExpr, or_comm])
  | markedRight h ih => exact Shape.refersAs_single (by simp [TypeExpr.combine, ih.toExpr])
  | anyFunction h ih => exact Shape.refersAs_single (by simpa using ih.toExpr)
  | function hresult hlength h ihresult ih =>
    refine Shape.refersAs_single ?_
    rw [StaticType.refersTo_function, ← exists_toExpr_refersTo_iff hlength ih, ← ihresult.toExpr]
    simp [TypeExpr.combine, or_and_right, exists_or]
  | tuple hlength h ih =>
    exact Shape.refersAs_single (by simpa using exists_toExpr_refersTo_iff hlength ih)

/-- What is built for a type refers to the names that the type refers to. -/
theorem refersTo_of_build {r : Registry} {t : StaticType} {e : TypeExpr}
    (h : (build r t).outcome = .ok e) : e.RefersTo x ↔ t.RefersTo x := by
  obtain ⟨s, hs, rfl⟩ := shaped_of_build h
  exact hs.refersAs.toExpr

/-- The type that a parameter receives refers to what its hint refers to. -/
@[simp]
theorem refersTo_receivedType {kind : ParameterKind} {t : StaticType}
    {location : Option Location} :
    (receivedType kind t location).RefersTo x ↔ t.RefersTo x := by
  cases kind <;> simp [receivedType]

end Typeward
