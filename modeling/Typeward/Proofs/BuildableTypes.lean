import Typeward.Proofs.Meanings
import Typeward.Proofs.ScopedReferences

/-!
# Types that can be built

A type can be built if its primitives are known to the runtime library, each of its markers refines
the one other operand of an intersection, and its references resolve. Erased arguments do not count.
`Buildable` says so of a type and all that stands in it, without the builder. The builder follows
the rules of `Shaped`, and these reach exactly the types that can be built.
-/

namespace Typeward

open Registry

namespace StaticType

/-- A marker is one operand of an intersection of two, and the other one is no marker. -/
def Refines (m t : StaticType) : Prop :=
  ∃ other location, other.isMarker = false ∧
    (t = .intersection [m, other] location ∨ t = .intersection [other, m] location)

/-- What a type needs to be built, given which names resolve. -/
structure Buildable (Resolves : String → Prop) (t : StaticType) : Prop where
  primitives : ∀ name location, Includes (.primitive name location) t →
    name ∈ runtimePrimitives.map (·.1)
  isMarker : t.isMarker = false
  markers : ∀ u : StaticType, Includes u t → ∀ m : StaticType, m ∈ u.parts → m.isMarker = true →
    m.Refines u
  references : ∀ name arguments location, Includes (.reference name arguments location) t →
    Resolves name

/-- The parts of a type are smaller than the type. -/
theorem sizeOf_lt_of_mem_parts {t p : StaticType} (hp : p ∈ t.parts) : sizeOf p < sizeOf t := by
  cases t with
  | primitive | literal | generic | reference | marker => simp [parts] at hp
  | nullable inner location =>
    obtain rfl := List.mem_singleton.1 hp
    simp only [nullable.sizeOf_spec]
    omega
  | array element container location =>
    obtain rfl := List.mem_singleton.1 hp
    simp only [array.sizeOf_spec]
    omega
  | dict key value location =>
    simp only [parts, List.mem_cons, List.not_mem_nil, or_false] at hp
    rcases hp with rfl | rfl <;> simp only [dict.sizeOf_spec] <;> omega
  | record fields shown location =>
    obtain ⟨f, hf, rfl⟩ := List.mem_map.1 hp
    have hfield := List.sizeOf_lt_of_mem hf
    obtain ⟨name, type, isOptional, place⟩ := f
    simp only [RecordField.mk.sizeOf_spec, record.sizeOf_spec] at hfield ⊢
    omega
  | union members location =>
    have hmember := List.sizeOf_lt_of_mem (show p ∈ members from hp)
    simp only [union.sizeOf_spec]
    omega
  | intersection members location =>
    have hmember := List.sizeOf_lt_of_mem (show p ∈ members from hp)
    simp only [intersection.sizeOf_spec]
    omega
  | function params result location =>
    rcases List.mem_append.1 hp with hp | hp
    · cases params with
      | none => simp at hp
      | some params =>
        have hparam := List.sizeOf_lt_of_mem hp
        simp only [Option.getD_some] at hparam
        simp only [function.sizeOf_spec, Option.some.sizeOf_spec]
        omega
    · obtain rfl := List.mem_singleton.1 hp
      simp only [function.sizeOf_spec]
      omega
  | tuple elements isVariadic location =>
    have helement := List.sizeOf_lt_of_mem (show p ∈ elements from hp)
    simp only [tuple.sizeOf_spec]
    omega

/-- What passes from the parts of a type to the type holds of all types. -/
theorem parts_induction {P : StaticType → Prop} (h : ∀ t, (∀ p ∈ t.parts, P p) → P t) :
    ∀ t, P t := fun t =>
  h t fun p hp =>
    have := sizeOf_lt_of_mem_parts hp
    parts_induction h p
termination_by t => sizeOf t

variable {Resolves : String → Prop} {t : StaticType}

/-- Whether a type can be built depends only on which names resolve. -/
theorem buildable_congr {Resolves' : String → Prop} (h : ∀ n, Resolves n ↔ Resolves' n) :
    t.Buildable Resolves ↔ t.Buildable Resolves' := by
  rw [funext fun n => propext (h n)]

/-- A condition on what stands in a type is one on the type and on what stands in its parts. -/
theorem forall_includes_iff {P : StaticType → Prop} :
    (∀ u, Includes u t → P u) ↔ P t ∧ ∀ p ∈ t.parts, ∀ u, Includes u p → P u := by
  refine ⟨fun h => ⟨h t .self, fun p hp u hu => h u (.part hp hu)⟩, ?_⟩
  rintro ⟨hhere, hparts⟩ u hu
  cases hu with
  | self => exact hhere
  | part hp hu => exact hparts _ hp u hu

/-- A type without parts that is neither primitive nor a reference can be built if it is no marker.
A type with parts can be built if they can, markers aside that refine the other part. -/
theorem buildable_iff_parts (hprimitive : ∀ name location, t ≠ .primitive name location)
    (hreference : ∀ name arguments location, t ≠ .reference name arguments location)
    (hmarker : t.isMarker = false) :
    t.Buildable Resolves ↔
      ∀ p ∈ t.parts, p.Buildable Resolves ∨ (p.isMarker = true ∧ p.Refines t) := by
  constructor
  · intro h p hp
    cases hp' : p.isMarker with
    | true => exact .inr ⟨rfl, h.markers t .self p hp hp'⟩
    | false =>
      exact .inl ⟨fun name location hu => h.primitives name location (.part hp hu), hp',
        fun u hu => h.markers u (.part hp hu),
        fun name arguments location hu => h.references name arguments location (.part hp hu)⟩
  · intro h
    -- Nothing stands in a marker but itself.
    have hinside {u p : StaticType} (hu : Includes u p) (hp : p.isMarker = true) : u = p := by
      cases p with
      | marker =>
        cases hu with
        | self => rfl
        | part hq => simp [parts] at hq
      | _ => simp [StaticType.isMarker] at hp
    refine ⟨fun name location hu => ?_, hmarker, ?_, fun name arguments location hu => ?_⟩
    · cases hu with
      | self => exact absurd rfl (hprimitive name location)
      | part hp hu =>
        rcases h _ hp with hformed | ⟨hm, -⟩
        · exact hformed.primitives name location hu
        · rw [← hinside hu hm] at hm
          cases hm
    · refine forall_includes_iff.2 ⟨fun m hm hmark => ?_, fun p hp u hu m hm => ?_⟩
      · rcases h m hm with hformed | ⟨-, hrefines⟩
        · rw [hformed.isMarker] at hmark
          cases hmark
        · exact hrefines
      · rcases h p hp with hformed | ⟨hmark, -⟩
        · exact hformed.markers u hu m hm
        · obtain rfl := hinside hu hmark
          cases u with
          | marker => simp [parts] at hm
          | _ => simp [StaticType.isMarker] at hmark
    · cases hu with
      | self => exact absurd rfl (hreference name arguments location)
      | part hp hu =>
        rcases h _ hp with hformed | ⟨hm, -⟩
        · exact hformed.references name arguments location hu
        · rw [← hinside hu hm] at hm
          cases hm

/-- Outside of intersections nothing is refined, so all parts must be buildable. -/
theorem buildable_iff_forall_parts (hprimitive : ∀ name location, t ≠ .primitive name location)
    (hreference : ∀ name arguments location, t ≠ .reference name arguments location)
    (hmarker : t.isMarker = false) (hintersection : ∀ ms location, t ≠ .intersection ms location) :
    t.Buildable Resolves ↔ ∀ p ∈ t.parts, p.Buildable Resolves := by
  have hrefines (p : StaticType) : ¬ p.Refines t := by
    rintro ⟨other, location, -, rfl | rfl⟩ <;> exact hintersection _ _ rfl
  simp [buildable_iff_parts hprimitive hreference hmarker, hrefines]

variable {location : Option Location}

/-- A primitive type can be built if the runtime library has it. -/
@[simp]
theorem buildable_primitive {name : String} :
    (primitive name location).Buildable Resolves ↔ name ∈ runtimePrimitives.map (·.1) := by
  have hinside {u : StaticType} (hu : u.Includes (primitive name location)) :
      u = primitive name location := by
    cases hu with
    | self => rfl
    | part hp => simp [parts] at hp
  refine ⟨fun h => h.primitives name location .self, fun h => ⟨?_, rfl, ?_, ?_⟩⟩
  · intro other place hu
    cases hinside hu
    exact h
  · intro u hu m hm
    rw [hinside hu] at hm
    simp [parts] at hm
  · intro other arguments place hu
    cases hinside hu

/-- A reference can be built if it resolves. -/
@[simp]
theorem buildable_reference {name : String} {arguments : List StaticType} :
    (reference name arguments location).Buildable Resolves ↔ Resolves name := by
  have hinside {u : StaticType} (hu : u.Includes (reference name arguments location)) :
      u = reference name arguments location := by
    cases hu with
    | self => rfl
    | part hp => simp [parts] at hp
  refine ⟨fun h => h.references name arguments location .self, fun h => ⟨?_, rfl, ?_, ?_⟩⟩
  · intro other place hu
    cases hinside hu
  · intro u hu m hm
    rw [hinside hu] at hm
    simp [parts] at hm
  · intro other arguments place hu
    cases hinside hu
    exact h

/-- The type of a value can be built. -/
@[simp]
theorem buildable_literal {value : Constant} : (literal value location).Buildable Resolves := by
  rw [buildable_iff_parts (by simp) (by simp) rfl]
  simp [parts]

/-- A type parameter can be built. -/
@[simp]
theorem buildable_generic {name : String} : (generic name location).Buildable Resolves := by
  rw [buildable_iff_parts (by simp) (by simp) rfl]
  simp [parts]

/-- A marker cannot be built on its own. -/
@[simp]
theorem not_buildable_marker {predicate : String} :
    ¬ (marker predicate location).Buildable Resolves := by
  intro h
  cases h.isMarker

/-- An optional type can be built if the type can that it has when present. -/
@[simp]
theorem buildable_nullable {inner : StaticType} :
    (nullable inner location).Buildable Resolves ↔ inner.Buildable Resolves := by
  rw [buildable_iff_forall_parts (by simp) (by simp) rfl (by simp)]
  simp [parts]

/-- A collection can be built if the type of its elements can. -/
@[simp]
theorem buildable_array {element : StaticType} {container : String} :
    (array element container location).Buildable Resolves ↔ element.Buildable Resolves := by
  rw [buildable_iff_forall_parts (by simp) (by simp) rfl (by simp)]
  simp [parts]

/-- A dictionary can be built if the types of its keys and values can. -/
@[simp]
theorem buildable_dict {key value : StaticType} :
    (dict key value location).Buildable Resolves ↔
      key.Buildable Resolves ∧ value.Buildable Resolves := by
  rw [buildable_iff_forall_parts (by simp) (by simp) rfl (by simp)]
  simp [parts]

/-- A record can be built if the types of its fields can. -/
@[simp]
theorem buildable_record {fields : List (RecordField StaticType)} {shown : Option String} :
    (record fields shown location).Buildable Resolves ↔
      ∀ f ∈ fields, f.type.Buildable Resolves := by
  rw [buildable_iff_forall_parts (by simp) (by simp) rfl (by simp)]
  simp [parts]

/-- A union can be built if its members can. -/
@[simp]
theorem buildable_union {members : List StaticType} :
    (union members location).Buildable Resolves ↔ ∀ t ∈ members, t.Buildable Resolves := by
  rw [buildable_iff_forall_parts (by simp) (by simp) rfl (by simp)]
  simp [parts]

/-- A function can be built if its result can, and its parameters if it tells them. -/
@[simp]
theorem buildable_function {params : Option (List StaticType)} {result : StaticType} :
    (function params result location).Buildable Resolves ↔
      (∀ t ∈ params.getD [], t.Buildable Resolves) ∧ result.Buildable Resolves := by
  rw [buildable_iff_forall_parts (by simp) (by simp) rfl (by simp)]
  simp [parts, or_imp, forall_and]

/-- A tuple can be built if its elements can. -/
@[simp]
theorem buildable_tuple {elements : List StaticType} {isVariadic : Bool} :
    (tuple elements isVariadic location).Buildable Resolves ↔
      ∀ t ∈ elements, t.Buildable Resolves := by
  rw [buildable_iff_forall_parts (by simp) (by simp) rfl (by simp)]
  simp [parts]

/-- An intersection without markers can be built if its members can. -/
theorem buildable_intersection {members : List StaticType}
    (hmarker : ∀ t ∈ members, t.isMarker = false) :
    (intersection members location).Buildable Resolves ↔
      ∀ t ∈ members, t.Buildable Resolves := by
  rw [buildable_iff_parts (by simp) (by simp) rfl]
  refine forall₂_congr fun p hp => or_iff_left ?_
  rintro ⟨hmark, -⟩
  rw [hmarker p hp] at hmark
  cases hmark

/-- An intersection of a marker and another type can be built if the other type can. -/
theorem buildable_refined {m base : StaticType} {members : List StaticType}
    (hm : m.isMarker = true) (hmembers : members = [m, base] ∨ members = [base, m]) :
    (intersection members location).Buildable Resolves ↔ base.Buildable Resolves := by
  rw [buildable_iff_parts (by simp) (by simp) rfl]
  have hmem (p : StaticType) : p ∈ (intersection members location).parts ↔ p = m ∨ p = base := by
    rcases hmembers with rfl | rfl
    · simp [parts]
    · simp [parts, or_comm]
  constructor
  · intro h
    refine (h base ((hmem base).2 (.inr rfl))).resolve_right ?_
    rintro ⟨hbase, other, place, hother, heq⟩
    -- Both operands are markers, so neither is the one that is refined.
    have hmarker : other.isMarker = true := by
      have hpart : other ∈ (intersection members location).parts := by
        rcases heq with heq | heq <;> rw [heq] <;> simp [parts]
      rcases (hmem other).1 hpart with rfl | rfl
      · exact hm
      · exact hbase
    rw [hother] at hmarker
    cases hmarker
  · intro h p hp
    rcases (hmem p).1 hp with rfl | rfl
    · refine .inr ⟨hm, base, location, h.isMarker, ?_⟩
      rcases hmembers with rfl | rfl
      · exact .inl rfl
      · exact .inr rfl
    · exact .inl h

end StaticType

/-- What a reference to a name needs: a type of that name that is complete or may refer to itself,
or no type of it and either a binding that is no bare module or a builtin class that is unbound. -/
def Registry.Resolves (r : Registry) (n : String) : Prop :=
  (∃ entry, r.get? n = some entry ∧ (entry.isComplete = true ∨ entry.isRecursive = true)) ∨
    (r.get? n = none ∧
      ((∃ b, r.binding? (rootOf n) = some b ∧ ¬ (b.kind = .ofModule ∧ rootOf n = n)) ∨
        (r.binding? (rootOf n) = none ∧ n ∈ builtinClasses)))

/-- A name is answered by an expression exactly when it resolves. -/
theorem exists_lookup_iff {r : Registry} {n : String} {location : Option Location} :
    (∃ e, r.lookup n location = .ok e) ↔ r.Resolves n := by
  unfold lookup Registry.Resolves
  cases r.get? n with
  | some entry =>
    dsimp only
    split
    · rename_i hcomplete
      simp [hcomplete]
    · rename_i hpending
      split
      · rename_i hrecursive
        simp [hrecursive]
      · rename_i hfixed
        simp [hpending, hfixed]
  | none =>
    dsimp only
    cases r.binding? (rootOf n) with
    | none =>
      dsimp only
      split
      · rename_i hbuiltin
        simpa using hbuiltin
      · rename_i hother
        simpa using hother
    | some b =>
      dsimp only
      split
      · rename_i hmodule
        simp [hmodule]
      · rename_i hclass
        split <;> simpa using hclass

/-- What holds of the first members of pairs holds of what they were paired from. -/
theorem forall_mem_of_forall_mem_zip {α β : Type} {P : α → Prop} {xs : List α} {ys : List β}
    (hlength : xs.length = ys.length) (h : ∀ p ∈ xs.zip ys, P p.1) : ∀ x ∈ xs, P x := by
  intro x hx
  rw [← List.map_fst_zip (Nat.le_of_eq hlength)] at hx
  obtain ⟨p, hp, rfl⟩ := List.mem_map.1 hx
  exact h p hp

section Building

variable {r : Registry}

/-- Nothing is built for a marker. -/
theorem Shaped.isMarker_eq_false {t : StaticType} {s : Shape} (h : Shaped r t s) :
    t.isMarker = false := by
  cases h <;> rfl

/-- What has a shape is buildable. -/
theorem Shaped.buildable {t : StaticType} {s : Shape} (h : Shaped r t s) :
    t.Buildable r.Resolves := by
  induction h with
  | @primitive name export_ location h =>
    obtain ⟨above, below, heq, -⟩ := List.lookup_eq_some_iff.1 h
    rw [StaticType.buildable_primitive, heq]
    simp
  | literal | generic => simp
  | @reference name arguments location e h =>
    exact StaticType.buildable_reference.2 (exists_lookup_iff.1 ⟨e, h⟩)
  | nullable h ih => exact StaticType.buildable_nullable.2 ih
  | array h ih => exact StaticType.buildable_array.2 ih
  | dict hkey hvalue ihkey ihvalue => exact StaticType.buildable_dict.2 ⟨ihkey, ihvalue⟩
  | record hlength h ih =>
    exact StaticType.buildable_record.2 (forall_mem_of_forall_mem_zip hlength ih)
  | union hlength h ih =>
    exact StaticType.buildable_union.2 (forall_mem_of_forall_mem_zip hlength ih)
  | intersection hmarker hlength h ih =>
    exact (StaticType.buildable_intersection hmarker).2 (forall_mem_of_forall_mem_zip hlength ih)
  | markedLeft h ih => exact (StaticType.buildable_refined rfl (.inl rfl)).2 ih
  | markedRight h ih => exact (StaticType.buildable_refined rfl (.inr rfl)).2 ih
  | anyFunction h ih => simpa using ih
  | function hresult hlength h ihresult ih =>
    exact StaticType.buildable_function.2
      ⟨by simpa using forall_mem_of_forall_mem_zip hlength ih, ihresult⟩
  | tuple hlength h ih =>
    exact StaticType.buildable_tuple.2 (forall_mem_of_forall_mem_zip hlength ih)

/-- Types that have shapes have them together. -/
theorem exists_shapedAll {ts : List StaticType} (h : ∀ t ∈ ts, ∃ s, Shaped r t s) :
    ∃ shapes, ShapedAll r ts shapes := by
  induction ts with
  | nil => exact ⟨[], .nil r⟩
  | cons t rest ih =>
    obtain ⟨s, hs⟩ := h t List.mem_cons_self
    obtain ⟨shapes, hshapes⟩ := ih fun t ht => h t (List.mem_cons_of_mem _ ht)
    exact ⟨s :: shapes, .cons hs hshapes⟩

/-- The types of fields have shapes in the order of the fields. -/
theorem exists_shaped_fields {fields : List (RecordField StaticType)}
    (h : ∀ f ∈ fields, ∃ s, Shaped r f.type s) :
    ∃ shapes, fields.length = shapes.length ∧ ∀ p ∈ fields.zip shapes, Shaped r p.1.type p.2 := by
  have htypes : ∀ t ∈ fields.map (·.type), ∃ s, Shaped r t s := by simpa using h
  obtain ⟨shapes, hlength, hshapes⟩ := exists_shapedAll htypes
  refine ⟨shapes, by simpa using hlength, fun p hp => hshapes (p.1.type, p.2) ?_⟩
  rw [List.zip_map_left]
  exact List.mem_map.2 ⟨p, hp, rfl⟩

/-- The rules reach what is buildable. -/
theorem StaticType.Buildable.exists_shaped {t : StaticType} (h : t.Buildable r.Resolves) :
    ∃ s, Shaped r t s := by
  induction t using StaticType.parts_induction with
  | h t ih =>
    have hall {ts : List StaticType} (hparts : ∀ u ∈ ts, u ∈ t.parts)
        (hformed : ∀ u ∈ ts, u.Buildable r.Resolves) : ∃ shapes, ShapedAll r ts shapes :=
      exists_shapedAll fun u hu => ih u (hparts u hu) (hformed u hu)
    cases t with
    | primitive name location =>
      obtain ⟨⟨_, export_⟩, hmem, rfl⟩ := List.mem_map.1 (buildable_primitive.1 h)
      obtain ⟨e, he⟩ := Option.isSome_iff_exists.1
        (List.lookup_isSome_iff.2 ⟨_, hmem, beq_self_eq_true _⟩)
      exact ⟨_, .primitive he⟩
    | literal value location => exact ⟨_, .literal value location⟩
    | generic name location => exact ⟨_, .generic name location⟩
    | reference name arguments location =>
      obtain ⟨e, he⟩ := exists_lookup_iff.2 (buildable_reference.1 h)
      exact ⟨_, .reference he⟩
    | marker predicate location => exact absurd h not_buildable_marker
    | nullable inner location =>
      obtain ⟨s, hs⟩ := ih inner (by simp [parts]) (buildable_nullable.1 h)
      exact ⟨_, .nullable hs⟩
    | array element container location =>
      obtain ⟨s, hs⟩ := ih element (by simp [parts]) (buildable_array.1 h)
      exact ⟨_, .array hs⟩
    | dict key value location =>
      obtain ⟨hkey, hvalue⟩ := buildable_dict.1 h
      obtain ⟨s, hs⟩ := ih key (by simp [parts]) hkey
      obtain ⟨s', hs'⟩ := ih value (by simp [parts]) hvalue
      exact ⟨_, .dict hs hs'⟩
    | record fields shown location =>
      obtain ⟨shapes, hlength, hshapes⟩ := exists_shaped_fields (r := r) fun f hf =>
        ih f.type (List.mem_map_of_mem hf) (buildable_record.1 h f hf)
      exact ⟨_, .record hlength hshapes⟩
    | union members location =>
      obtain ⟨shapes, hshapes⟩ := hall (fun _ => id) (buildable_union.1 h)
      exact ⟨_, .union hshapes.1 hshapes.2⟩
    | intersection members location =>
      by_cases hmarked : ∃ m ∈ members, m.isMarker = true
      · obtain ⟨m, hm, hmark⟩ := hmarked
        obtain ⟨base, place, hbase, heq⟩ := h.markers _ .self m hm hmark
        have hpart : base ∈ (intersection members location).parts := by
          rcases heq with heq | heq <;> rw [heq] <;> simp [parts]
        have hmembers : members = [m, base] ∨ members = [base, m] :=
          heq.imp (fun heq => (intersection.inj heq).1) fun heq => (intersection.inj heq).1
        obtain ⟨s, hs⟩ := ih base hpart ((buildable_refined hmark hmembers).1 h)
        cases m with
        | marker predicate place =>
          rcases hmembers with rfl | rfl
          · exact ⟨_, .markedLeft hs⟩
          · exact ⟨_, .markedRight hs⟩
        | _ => cases hmark
      · have hmarker : ∀ m ∈ members, m.isMarker = false := by simpa using hmarked
        obtain ⟨shapes, hshapes⟩ := hall (fun _ => id) ((buildable_intersection hmarker).1 h)
        exact ⟨_, .intersection hmarker hshapes.1 hshapes.2⟩
    | function params result location =>
      obtain ⟨hparams, hresult⟩ := buildable_function.1 h
      obtain ⟨s, hs⟩ := ih result (by simp [parts]) hresult
      cases params with
      | none => exact ⟨_, .anyFunction hs⟩
      | some params =>
        obtain ⟨shapes, hshapes⟩ := hall (fun u hu => List.mem_append_left _ hu) hparams
        exact ⟨_, .function hs hshapes.1 hshapes.2⟩
    | tuple elements isVariadic location =>
      obtain ⟨shapes, hshapes⟩ := hall (fun _ => id) (buildable_tuple.1 h)
      exact ⟨_, .tuple hshapes.1 hshapes.2⟩

/-- Several types are built to the expressions of their shapes. -/
theorem outcome_shapeAll {ts : List StaticType} {shapes : List Shape}
    (hlength : ts.length = shapes.length)
    (h : ∀ p ∈ ts.zip shapes, (shape r p.1).outcome = .ok p.2) :
    (shapeAll r ts).outcome = .ok (shapes.map Shape.toExpr) := by
  replace h := List.forall₂_iff_zip.2 ⟨hlength, fun hp => h _ hp⟩
  clear hlength
  induction h with
  | nil => rfl
  | cons h _ ih => simpa [shapeAll, h] using ih

/-- The members of a union are built to the alternatives of their shapes. -/
theorem outcome_shapeMembers {ts : List StaticType} {shapes : List Shape}
    (hlength : ts.length = shapes.length)
    (h : ∀ p ∈ ts.zip shapes, (shape r p.1).outcome = .ok p.2) :
    (shapeMembers r ts).outcome = .ok (shapes.flatMap Shape.toAlternatives) := by
  replace h := List.forall₂_iff_zip.2 ⟨hlength, fun hp => h _ hp⟩
  clear hlength
  induction h with
  | nil => rfl
  | cons h _ ih => simpa [shapeMembers, h] using ih

/-- The fields of a record are built to the properties with their shapes. -/
theorem outcome_shapeFields {fields : List (RecordField StaticType)} {shapes : List Shape}
    (hlength : fields.length = shapes.length)
    (h : ∀ p ∈ fields.zip shapes, (shape r p.1.type).outcome = .ok p.2) :
    (shapeFields r fields).outcome = .ok (fields.zipWith propertyOf shapes) := by
  replace h := List.forall₂_iff_zip.2 ⟨hlength, fun hp => h _ hp⟩
  clear hlength
  induction h with
  | nil => rfl
  | @cons f s fields shapes h _ ih =>
    obtain ⟨name, type, isOptional, location⟩ := f
    simpa [shapeFields, propertyOf, h] using ih

/-- The builder answers what the rules say. -/
theorem Shaped.outcome {t : StaticType} {s : Shape} (h : Shaped r t s) :
    (shape r t).outcome = .ok s := by
  have hmarker (predicate : String) (place : Option Location) :
      (StaticType.marker predicate place).isMarker = true := rfl
  induction h with
  | primitive h => simp [shape, h]
  | literal | generic => simp [shape, single]
  | reference h => simp [shape, single, h]
  | nullable h ih => simp [shape, ih]
  | array h ih => simp [shape, single, ih, containerOptions]
  | dict hkey hvalue ihkey ihvalue => simp [shape, single, ihkey, ihvalue]
  | record hlength h ih => simp [shape, single, outcome_shapeFields hlength ih]
  | union hlength h ih => simp [shape, outcome_shapeMembers hlength ih]
  | @intersection members location shapes hplain hlength h ih =>
    have hany : members.any (·.isMarker) = false := by simpa using hplain
    rw [shape.eq_def]
    simp [hany, single, outcome_shapeAll hlength ih]
  | @markedLeft predicate place base location s h ih =>
    rw [shape.eq_def]
    simp [refine, h.isMarker_eq_false, ih, hmarker]
  | @markedRight predicate place base location s h ih =>
    have hbase := h.isMarker_eq_false
    rw [shape.eq_def]
    cases base with
    | marker => cases hbase
    | _ => simp [refine, hbase, ih, hmarker]
  | anyFunction h ih => simp [shape, shapeParams, single, ih]
  | function hresult hlength h ihresult ih =>
    simp [shape, shapeParams, single, ihresult, outcome_shapeAll hlength ih]
  | tuple hlength h ih => simp [shape, single, outcome_shapeAll hlength ih, lengthOptions]

/-- The builder answers an expression exactly for the types that are buildable. -/
theorem exists_build_iff {t : StaticType} :
    (∃ e, (build r t).outcome = .ok e) ↔ t.Buildable r.Resolves := by
  constructor
  · rintro ⟨e, he⟩
    obtain ⟨s, hs, -⟩ := shaped_of_build he
    exact hs.buildable
  · intro h
    obtain ⟨s, hs⟩ := h.exists_shaped
    exact ⟨s.toExpr, by simp [build, hs.outcome]⟩

end Building

end Typeward
