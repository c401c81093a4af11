import Typeward.Proofs.CanonicalForms
import Typeward.Proofs.Plannability
import Typeward.Proofs.References

/-!
# Types that refer to themselves at once

A type that is marked recursive may refer to itself anywhere. Where only optional types, unions,
intersections and refinements are around the reference, a check comes back to the type with the same
value; list types, dictionary types, interfaces and tuple types go down in the value first, and
function types check nothing that is in them. The planner does not tell the two apart.
-/

namespace Typeward

open Registry

/-- Whether what a call is given is checked with parts of the value, or not at all. -/
def Combinator.isGuard : Combinator → Bool
  | .list | .dict | .interface | .tuple | .func => true
  | _ => false

/-- A type refers to a name, and is not just made of parts that do. -/
inductive StaticType.RefersAtOnce (x : String) : StaticType → Prop
  | reference {arguments location} : RefersAtOnce x (.reference x arguments location)
  | nullable {inner location} (h : RefersAtOnce x inner) :
      RefersAtOnce x (.nullable inner location)
  | union {members location t} (ht : t ∈ members) (h : RefersAtOnce x t) :
      RefersAtOnce x (.union members location)
  | intersection {members location t} (ht : t ∈ members) (h : RefersAtOnce x t) :
      RefersAtOnce x (.intersection members location)

namespace TypeExpr

/-- Whether an expression calls for a type that guards what it is made of. -/
def isGuard : TypeExpr → Bool
  | .call c .. => c.isGuard
  | _ => false

/-- An expression is in another one, and not below any guard. -/
inductive Exposed (x : TypeExpr) : TypeExpr → Prop
  | self : Exposed x x
  | part {e p} (hguard : e.isGuard = false) (hp : p ∈ e.parts) (h : Exposed x p) : Exposed x e

variable {y : String}

/-- What an expression exposes that is no guard: itself and what its parts expose. -/
theorem exposed_iff {x e : TypeExpr} :
    x.Exposed e ↔ x = e ∨ e.isGuard = false ∧ ∃ p ∈ e.parts, x.Exposed p := by
  constructor
  · intro h
    cases h with
    | self => exact .inl rfl
    | part hguard hp h => exact .inr ⟨hguard, _, hp, h⟩
  · rintro (rfl | ⟨hguard, p, hp, h⟩)
    · exact .self
    · exact .part hguard hp h

/-- A late reference exposes itself. -/
@[simp]
theorem exposed_deferred {n : String} : (deferred y).Exposed (deferred n) ↔ n = y := by
  rw [exposed_iff, deferred.injEq, eq_comm (a := y)]
  simp [parts]

/-- A primitive exposes no late reference. -/
@[simp]
theorem not_exposed_primitive {n : String} : ¬ (deferred y).Exposed (primitive n) := by
  rw [exposed_iff]
  simp [parts]

/-- A constant exposes no late reference. -/
@[simp]
theorem not_exposed_constant {c : Constant} : ¬ (deferred y).Exposed (constant c) := by
  rw [exposed_iff]
  simp [parts]

/-- A predicate exposes no late reference. -/
@[simp]
theorem not_exposed_predicate {n : String} : ¬ (deferred y).Exposed (predicate n) := by
  rw [exposed_iff]
  simp [parts]

/-- The name of a finished type exposes no late reference. -/
@[simp]
theorem not_exposed_name {n : String} : ¬ (deferred y).Exposed (name n) := by
  rw [exposed_iff]
  simp [parts]

/-- A delayed expression exposes what it exposes at once. -/
@[simp]
theorem exposed_delayed {e : TypeExpr} :
    (deferred y).Exposed (delayed e) ↔ (deferred y).Exposed e := by
  rw [exposed_iff]
  simp [isGuard, parts]

/-- A call that is no guard exposes what its arguments expose. -/
@[simp]
theorem exposed_call {c : Combinator} {arguments : List TypeExpr} {shown : Option String}
    {options : List (String × Constant)} :
    (deferred y).Exposed (call c arguments shown options) ↔
      c.isGuard = false ∧ ∃ e ∈ arguments, (deferred y).Exposed e := by
  rw [exposed_iff]
  simp [isGuard, parts]

/-- A display name guards nothing. -/
@[simp]
theorem exposed_named {e : TypeExpr} (shown : String) :
    (deferred y).Exposed (e.named shown) ↔ (deferred y).Exposed e := by
  unfold named
  split
  · simp
  · rfl

/-- What is exposed in an expression is in it. -/
theorem Exposed.includes {x e : TypeExpr} (h : x.Exposed e) : x.Includes e := by
  induction h with
  | self => exact .self
  | part _ hp _ ih => exact .part hp ih

end TypeExpr

open TypeExpr

namespace StaticType

variable {y : String} {location : Option Location}

/-- A reference refers at once to the name that it is of. -/
@[simp]
theorem refersAtOnce_reference {name : String} {arguments : List StaticType} :
    (reference name arguments location).RefersAtOnce y ↔ name = y :=
  ⟨fun | .reference => rfl, fun h => h ▸ .reference⟩

/-- An optional type refers at once to what it refers to at once if it is present. -/
@[simp]
theorem refersAtOnce_nullable {inner : StaticType} :
    (nullable inner location).RefersAtOnce y ↔ inner.RefersAtOnce y :=
  ⟨fun | .nullable h => h, .nullable⟩

/-- A union refers at once to what its members refer to at once. -/
@[simp]
theorem refersAtOnce_union {members : List StaticType} :
    (union members location).RefersAtOnce y ↔ ∃ t ∈ members, t.RefersAtOnce y :=
  ⟨fun | .union ht h => ⟨_, ht, h⟩, fun ⟨_, ht, h⟩ => .union ht h⟩

/-- An intersection refers at once to what its members refer to at once. -/
@[simp]
theorem refersAtOnce_intersection {members : List StaticType} :
    (intersection members location).RefersAtOnce y ↔ ∃ t ∈ members, t.RefersAtOnce y :=
  ⟨fun | .intersection ht h => ⟨_, ht, h⟩, fun ⟨_, ht, h⟩ => .intersection ht h⟩

/-- A marker refers to no type at once. -/
@[simp]
theorem not_refersAtOnce_marker {predicate : String} :
    ¬ (marker predicate location).RefersAtOnce y := nofun

end StaticType

variable {y : String} {r : Registry}

/-- A name is declared and not finished. -/
def Registry.Pending (r : Registry) (y : String) : Prop :=
  ∃ known, r.get? y = some known ∧ known.isComplete = false

/-- A reference exposes the name that is being defined just if it is to that name. -/
theorem exposed_of_lookup {name : String} {location : Option Location} {e : TypeExpr}
    (hy : r.Pending y) (h : r.lookup name location = .ok e) :
    (deferred y).Exposed e ↔ name = y := by
  obtain ⟨pending, hpending, hincomplete⟩ := hy
  have hother (hne : ∀ known, r.get? name = some known → known.isComplete = true) : name ≠ y := by
    rintro rfl
    simp [hne pending hpending] at hincomplete
  obtain ⟨known, hget, ⟨hcomplete, rfl⟩ | ⟨-, -, rfl⟩⟩ |
    ⟨hget, ⟨_, _, ⟨_, rfl⟩ | ⟨_, rfl⟩⟩ | ⟨_, _, rfl⟩⟩ := lookup_cases h
  · simpa using hother fun known' hget' => by rwa [← Option.some.inj (hget.symm.trans hget')]
  · simp
  all_goals simpa [classCheck, combine] using hother (by simp [hget])

/-- Types that are built to shapes refer at once to the name that is being defined just if it is
exposed in the shapes. -/
structure Shape.ExposesAs (y : String) (s : Shape) (t : StaticType) : Prop where
  alternatives : (∃ e, some e ∈ s.toAlternatives ∧ (deferred y).Exposed e) ↔ t.RefersAtOnce y
  toExpr : (deferred y).Exposed s.toExpr ↔ t.RefersAtOnce y

/-- A union exposes as a type does if its alternatives do. -/
theorem Shape.exposesAs_alternatives {members : Alternatives} {t : StaticType}
    (h : (∃ e, some e ∈ members ∧ (deferred y).Exposed e) ↔ t.RefersAtOnce y) :
    (Shape.alternatives members).ExposesAs y t :=
  ⟨h, (members.exists_toExpr (by simp) (by simp [combine, Combinator.isGuard])
    (by simp [combine, Combinator.isGuard])).trans h⟩

/-- A single expression exposes as a type does if neither stands for the absence of a value. -/
theorem Shape.exposesAs_single {e : TypeExpr} {t : StaticType}
    (h : (deferred y).Exposed e ↔ t.RefersAtOnce y) : (Shape.single e false).ExposesAs y t :=
  ⟨by simpa [toAlternatives] using h, h⟩

/-- An expression that exposes no late reference may stand for the absence of a value. -/
theorem Shape.exposesAs_quiet {e : TypeExpr} {isNone : Bool} {t : StaticType}
    (he : ¬ (deferred y).Exposed e) (ht : ¬ t.RefersAtOnce y) :
    (Shape.single e isNone).ExposesAs y t := by
  refine ⟨?_, iff_of_false he ht⟩
  cases isNone <;> simp [toAlternatives, he, ht]

/-- A type that guards what it is made of exposes nothing, and does not refer to anything at once. -/
theorem Shape.exposesAs_guard {c : Combinator} {arguments : List TypeExpr} {shown : Option String}
    {options : List (String × Constant)} {t : StaticType} (hc : c.isGuard = true)
    (ht : ¬ t.RefersAtOnce y) :
    (Shape.single (call c arguments shown options) false).ExposesAs y t :=
  Shape.exposesAs_quiet (by simp [hc]) ht

/-- What a type is built to exposes the name that is being defined just if the type refers to it at
once. -/
theorem Shaped.exposesAs {t : StaticType} {s : Shape} (h : Shaped r t s) (hy : r.Pending y) :
    s.ExposesAs y t := by
  induction h with
  | primitive h => exact Shape.exposesAs_quiet (by simp) (by rintro ⟨⟩)
  | literal value location => exact Shape.exposesAs_quiet (by simp [combine]) (by rintro ⟨⟩)
  | generic name location => exact Shape.exposesAs_quiet (by simp) (by rintro ⟨⟩)
  | reference h => exact Shape.exposesAs_single (by simpa using exposed_of_lookup hy h)
  | nullable h ih => exact Shape.exposesAs_alternatives (by simpa using ih.alternatives)
  | @union members location shapes hlength h ih =>
    have hmembers := exists_mem_iff_of_zip (P := fun t => t.RefersAtOnce y)
      (Q := fun s => ∃ e, some e ∈ s.toAlternatives ∧ (deferred y).Exposed e) hlength
      fun p hp => (ih p hp).alternatives
    refine Shape.exposesAs_alternatives ?_
    rw [StaticType.refersAtOnce_union, ← hmembers]
    exact exists_mem_flatMap_toAlternatives
  | intersection hmarker hlength h ih =>
    refine Shape.exposesAs_single ?_
    have hmembers := exists_mem_iff_of_zip (P := fun t => t.RefersAtOnce y)
      (Q := fun s => (deferred y).Exposed s.toExpr) hlength fun p hp => (ih p hp).toExpr
    rw [StaticType.refersAtOnce_intersection, ← hmembers]
    simp [combine, Combinator.isGuard]
  | markedLeft h ih | markedRight h ih =>
    exact Shape.exposesAs_single (by simp [combine, Combinator.isGuard, ih.toExpr])
  | array | dict | record | anyFunction | function | tuple =>
    exact Shape.exposesAs_guard rfl (by rintro ⟨⟩)

/-- What is built for a type exposes the name that is being defined just if the type refers to it at
once. -/
theorem exposed_of_build {t : StaticType} {e : TypeExpr} (h : (build r t).outcome = .ok e)
    (hy : r.Pending y) : (deferred y).Exposed e ↔ t.RefersAtOnce y := by
  obtain ⟨s, hs, rfl⟩ := shaped_of_build h
  exact (hs.exposesAs hy).toExpr

/-- What is in an expression: itself and what is in its parts. -/
theorem includes_iff {x e : TypeExpr} : x.Includes e ↔ x = e ∨ ∃ p ∈ e.parts, x.Includes p := by
  constructor
  · intro h
    cases h with
    | self => exact .inl rfl
    | part hp h => exact .inr ⟨_, hp, h⟩
  · rintro (rfl | ⟨p, hp, h⟩)
    · exact .self
    · exact .part hp h

/-- A display name adds no late reference to an expression. -/
theorem includes_named {e : TypeExpr} (shown : String) :
    (deferred y).Includes (e.named shown) ↔ (deferred y).Includes e := by
  unfold named
  split
  · rw [includes_iff, includes_iff (e := call ..)]
    simp [parts]
  · rfl

/-- A check against a class holds no late reference. -/
theorem not_includes_classCheck {n : String} : ¬ (deferred y).Includes (classCheck n) := by
  rw [includes_iff]
  simp only [classCheck, combine, parts, List.mem_singleton, exists_eq_left, includes_iff (e := name n)]
  simp

/-- Late references in what is built are to names that are being defined and marked recursive. -/
theorem pending_of_build {t : StaticType} {e : TypeExpr} (h : (build r t).outcome = .ok e)
    (hy : (deferred y).Includes e) :
    ∃ known, r.get? y = some known ∧ known.isComplete = false ∧ known.isRecursive = true := by
  have hcarries : r.Carries fun e => (deferred y).Includes e →
      ∃ known, r.get? y = some known ∧ known.isComplete = false ∧ known.isRecursive = true := by
    refine ⟨nofun, nofun, nofun, fun {n location e} hlookup hy => ?_, fun h hy => ?_,
      fun _ h hy => ?_⟩
    · obtain ⟨known, hget, ⟨-, rfl⟩ | ⟨hpending, hrecursive, rfl⟩⟩ |
        ⟨-, ⟨_, _, ⟨_, rfl⟩ | ⟨_, rfl⟩⟩ | ⟨_, _, rfl⟩⟩ := lookup_cases hlookup
      · cases hy with
        | part hp _ => cases hp
      · cases hy with
        | self => exact ⟨known, hget, hpending, hrecursive⟩
        | part hp _ => cases hp
      · cases hy with
        | part hp hy =>
          obtain rfl := List.mem_singleton.1 hp
          exact absurd hy not_includes_classCheck
      all_goals exact absurd hy not_includes_classCheck
    · cases hy with
      | part hp hy => exact h (List.mem_singleton.1 hp ▸ hy)
    · cases hy with
      | part hp hy => exact h _ hp hy
  exact hcarries.of_build h hy

/-- A name that has just been declared is being defined. -/
theorem pending_of_declare {r' : Registry} {isRecursive : Bool} {location : Option Location}
    (h : r.declare y isRecursive location = .ok r') : r'.Pending y :=
  ⟨⟨y, isRecursive, location, .pending, none⟩, by simp [get?_of_declare h], rfl⟩

/-- An entry defines a type: a registry knows the types above, the name of the type is declared in
it, and the type is built and shown by its name. -/
structure PlanEntry.Defines (bindings : List Binding) (above : List PlanEntry) (entry : PlanEntry)
    (d : TypeDeclaration) (known declared : Registry) (e : TypeExpr) : Prop where
  site : entry.site = .type d
  label : entry.label = some d.name
  expr : entry.expr = e.named d.name
  knows : known.KnowsTypes bindings above
  declares : known.declare d.name d.isRecursive d.location = .ok declared
  builds : (build (declared.evaluatedAt d.location) d.type).outcome = .ok e

namespace PlanEntry.Defines

variable {bindings : List Binding} {above : List PlanEntry} {entry : PlanEntry}
  {d : TypeDeclaration} {known declared : Registry} {e : TypeExpr}

/-- The name of a type is not that of a type defined above. -/
theorem fresh (h : entry.Defines bindings above d known declared e) :
    d.name ∉ definedNames above := by
  rw [← h.knows.names]
  exact (exists_declare_iff _ _).1 ⟨_, h.declares⟩

/-- The definition of a type exposes its name just if the type refers to itself at once. -/
theorem exposed_iff (h : entry.Defines bindings above d known declared e) :
    (deferred d.name).Exposed entry.expr ↔ d.type.RefersAtOnce d.name := by
  have hpending : declared.Pending d.name := pending_of_declare h.declares
  rw [h.expr, exposed_named]
  exact exposed_of_build h.builds hpending

/-- A late reference in the definition of a type is to the type, which is marked recursive. -/
theorem late (h : entry.Defines bindings above d known declared e)
    (hy : (deferred y).Includes entry.expr) : y = d.name ∧ d.isRecursive = true := by
  rw [h.expr, includes_named] at hy
  obtain ⟨found, hget, hpending, hrecursive⟩ := pending_of_build h.builds hy
  have hget' := (get?_of_declare h.declares y).symm.trans hget
  split at hget'
  · rename_i heq
    obtain rfl := Option.some.inj hget'
    exact ⟨heq, hrecursive⟩
  · rw [h.knows.complete found (List.mem_of_find?_eq_some hget')] at hpending
    cases hpending

end PlanEntry.Defines

/-- The entries of a run that define something define types. -/
theorem PlanRun.exists_defines {r' : Registry} {number i : Nat} {ds : List Declaration}
    {entries : List PlanEntry} {bindings : List Binding} {above : List PlanEntry}
    (h : PlanRun r number ds entries r') (hknows : r.KnowsTypes bindings above) {entry : PlanEntry}
    (hentry : entries[i]? = some entry) (hmode : entry.mode = .define) :
    ∃ d known declared e,
      entry.Defines bindings (above ++ entries.take i) d known declared e := by
  induction h generalizing above i with
  | nil => simp at hentry
  | @cons r number d ds first r₁ more r₂ hstep hrun ih =>
    by_cases hi : i < first.length
    · rw [List.getElem?_append_left hi] at hentry
      cases hstep with
      | @define d e declared r₂ htop hdeclare hbuild hcomplete =>
        obtain rfl : i = 0 := by simpa using hi
        obtain rfl := Option.some.inj hentry
        exact ⟨d, r, declared, e, rfl, rfl, rfl, by simpa using hknows, hdeclare, hbuild⟩
      | function h =>
        obtain ⟨p, -, t, e, -, -, rfl⟩ := exists_mem_of_forall₂ h (List.mem_of_getElem? hentry)
        cases hmode
      | cast | reify =>
        obtain rfl := List.mem_singleton.1 (List.mem_of_getElem? hentry)
        cases hmode
    · rw [List.getElem?_append_right (Nat.le_of_not_lt hi)] at hentry
      have htake : (first ++ more).take i = first ++ more.take (i - first.length) := by
        rw [List.take_append, List.take_of_length_le (Nat.le_of_not_lt hi)]
      rw [htake, ← List.append_assoc]
      exact ih (hstep.wellScoped hknows).2 hentry

/-- The entries of a plan that define something define types. -/
theorem exists_defines_of_plan {bindings : List Binding} {reserved : List String}
    {declarations : List Declaration} {p : Plan}
    (h : plan (ofModule bindings reserved) declarations = .ok (p, r)) {i : Nat} {entry : PlanEntry}
    (hentry : p.entries[i]? = some entry) (hmode : entry.mode = .define) :
    ∃ d known declared e, entry.Defines bindings (p.entries.take i) d known declared e :=
  (planRun_of_plan h).exists_defines (.ofModule bindings reserved) hentry hmode

/-- In the plan of a module, a late reference in the definition of a type is to the type, which is
marked recursive. It is below a guard wherever it stands, just if the type does not refer to itself
at once. -/
theorem Plan.guarded_iff {bindings : List Binding} {reserved : List String}
    {declarations : List Declaration} {p : Plan}
    (h : plan (ofModule bindings reserved) declarations = .ok (p, r)) {entry : PlanEntry}
    (hentry : entry ∈ p.ofMode .define) :
    ∃ d, entry.site = .type d ∧ entry.label = some d.name ∧
      (∀ y, (deferred y).Includes entry.expr → y = d.name ∧ d.isRecursive = true) ∧
      ((∀ y, ¬ (deferred y).Exposed entry.expr) ↔ ¬ d.type.RefersAtOnce d.name) := by
  obtain ⟨hmem, hmode⟩ := List.mem_filter.1 hentry
  obtain ⟨i, hi⟩ := List.mem_iff_getElem?.1 hmem
  obtain ⟨d, known, declared, e, hdefines⟩ := exists_defines_of_plan h hi (by simpa using hmode)
  refine ⟨d, hdefines.site, hdefines.label, fun y => hdefines.late, ?_⟩
  rw [← hdefines.exposed_iff]
  refine ⟨fun hnone => hnone d.name, fun hnone y hy => ?_⟩
  obtain ⟨rfl, -⟩ := hdefines.late hy.includes
  exact hnone hy

/-- A type that is marked recursive and is nothing but itself, or absent. -/
def endlessDeclaration : TypeDeclaration :=
  ⟨"X", .nullable (.reference "X" [] none) none, true, true, none⟩

/-- The type is planned, though a check comes back to it with the same value. -/
theorem endless_planned :
    ∃ p r, plan (ofModule [] []) [.type endlessDeclaration] = .ok (p, r) ∧
      ∃ entry ∈ p.ofMode .define, entry.expr = .call .maybe [.deferred "X"] (some "X") [] ∧
        (deferred "X").Exposed entry.expr := by
  refine ⟨_, _, rfl, _, List.mem_cons_self, rfl, ?_⟩
  exact .part rfl List.mem_cons_self .self

end Typeward
