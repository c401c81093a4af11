import Typeward.Proofs.BuiltForms

/-!
# Canonical forms

A built expression says in one way only that a value may be one of several, or absent: alternatives
stand side by side in one union, and the absence of a value is told once, outside of it. So no union
stands directly in a union, nothing that may be absent stands in one, no union has just one member,
and nothing is told twice to be optional. An optional type, a union with the absent value and an
optional field of a record meet in nested types, and all of them keep to this.
-/

namespace Typeward

namespace TypeExpr

/-- The expressions directly inside an expression. -/
def parts : TypeExpr → List TypeExpr
  | .delayed e | .field _ e => [e]
  | .call _ arguments _ _ => arguments
  | .reified e _ shown => e :: shown
  | .primitive _ | .name _ | .deferred _ | .predicate _ | .constant _ => []

/-- An expression is in another one, at any depth. -/
inductive Includes (x : TypeExpr) : TypeExpr → Prop
  | self : Includes x x
  | part {e p} (hp : p ∈ e.parts) (h : Includes x p) : Includes x e

/-- Whether an expression is a union. -/
def isUnion : TypeExpr → Bool
  | .call .union .. => true
  | _ => false

/-- Whether an expression accepts the absent value and nothing else: the primitive for it, or the
literal. -/
def isAbsence : TypeExpr → Bool
  | .primitive exported => exported == "Nil"
  | .call .literal [.constant value] _ _ => value == .none
  | _ => false

/-- An expression can be a member of a union: it is not a union itself, and neither optional nor the
absence of a value. -/
structure IsMember (e : TypeExpr) : Prop where
  isUnion : e.isUnion = false
  isMaybe : e.isMaybe = false
  isAbsence : e.isAbsence = false

/-- A union has members that can be, and not just one of them; nothing is told to be optional that is
so already. -/
def IsNormal : TypeExpr → Prop
  | .call .union members _ _ => members.length ≠ 1 ∧ ∀ e ∈ members, e.IsMember
  | .call .maybe arguments _ _ => ∀ e ∈ arguments, e.isMaybe = false
  | _ => True

/-- All calls in an expression, at every depth, are in normal form. -/
def IsCanonical (e : TypeExpr) : Prop := ∀ x : TypeExpr, x.Includes e → x.IsNormal

/-- An expression is canonical if it is in normal form and its parts are canonical. -/
theorem IsCanonical.of_parts {e : TypeExpr} (h : e.IsNormal) (hparts : ∀ p ∈ e.parts, p.IsCanonical) :
    e.IsCanonical := by
  intro x hx
  cases hx with
  | self => exact h
  | part hp hx => exact hparts _ hp x hx

/-- What has no parts and is no call is canonical. -/
@[simp]
theorem isCanonical_primitive (name : String) : (primitive name).IsCanonical :=
  .of_parts trivial (by simp [parts])

end TypeExpr

open TypeExpr

/-- References are built to canonical expressions that can be members of unions. -/
theorem isCanonical_of_lookup {r : Registry} {name : String} {location : Option Location}
    {e : TypeExpr} (h : r.lookup name location = .ok e) : e.IsCanonical ∧ e.IsMember := by
  have hname : (TypeExpr.name name).IsCanonical := .of_parts trivial (by simp [parts])
  have hclass : (Registry.classCheck name).IsCanonical :=
    .of_parts trivial (by simpa [Registry.classCheck, combine, parts] using hname)
  obtain ⟨_, _, ⟨_, rfl⟩ | ⟨_, _, rfl⟩⟩ | ⟨_, ⟨_, _, ⟨_, rfl⟩ | ⟨_, rfl⟩⟩ | ⟨_, _, rfl⟩⟩ :=
    lookup_cases h
  · exact ⟨hname, rfl, rfl, rfl⟩
  · exact ⟨.of_parts trivial (by simp [parts]), rfl, rfl, rfl⟩
  · exact ⟨.of_parts trivial (by simpa [parts] using hclass), rfl, rfl, rfl⟩
  · exact ⟨hclass, rfl, rfl, rfl⟩
  · exact ⟨hclass, rfl, rfl, rfl⟩

/-- Only the absence of a value is built to the primitive for it. -/
theorem eq_none_of_lookup_nil {name : String} (h : runtimePrimitives.lookup name = some "Nil") :
    name = "none" := by
  have hall : ∀ p ∈ runtimePrimitives, p.2 = "Nil" → p.1 = "none" := by decide
  obtain ⟨above, below, heq, -⟩ := List.lookup_eq_some_iff.1 h
  exact hall (name, "Nil") (by simp [heq]) rfl

namespace Shape

/-- The expressions in a shape are canonical, and those that may come to stand in a union can. -/
structure IsCanonical (s : Shape) : Prop where
  all : s.All TypeExpr.IsCanonical
  members : ∀ e, some e ∈ s.toAlternatives → e.IsMember

variable {s : Shape} {e : TypeExpr}

/-- One expression that can be a member of a union. -/
theorem IsCanonical.single (h : e.IsNormal) (hparts : ∀ p ∈ e.parts, p.IsCanonical)
    (hmember : e.IsMember) : (single e false).IsCanonical := by
  refine ⟨.of_parts h hparts, fun e' he' => ?_⟩
  obtain rfl : e' = e := by simpa [toAlternatives] using he'
  exact hmember

/-- The expression of a canonical shape is canonical: alternatives come to a union only if there is
not just one of them, and are told to be optional once. -/
theorem IsCanonical.toExpr (h : s.IsCanonical) : s.toExpr.IsCanonical := by
  cases s with
  | single => exact h.all
  | alternatives members =>
    have hpresent : ∀ e ∈ members.filterMap id, e.IsCanonical ∧ e.IsMember := fun e he =>
      have hmem : some e ∈ members := by simpa using he
      ⟨h.all e hmem, h.members e hmem⟩
    simp only [Shape.toExpr, Alternatives.toExpr]
    generalize members.filterMap id = present at hpresent
    have hunion (hne : ∀ only, present ≠ [only]) : (combine .union present).IsCanonical := by
      refine .of_parts ⟨fun hlength => ?_, fun e he => (hpresent e he).2⟩ fun e he =>
        (hpresent e he).1
      obtain ⟨only, honly⟩ := List.length_eq_one_iff.1 hlength
      exact hne only honly
    have hmaybe {e : TypeExpr} (he : e.IsCanonical) (hmaybe : e.isMaybe = false) :
        (combine .maybe [e]).IsCanonical := by
      refine .of_parts (fun p hp => ?_) fun p hp => ?_
      · rwa [List.mem_singleton.1 hp]
      · rwa [List.mem_singleton.1 hp]
    split
    · split
      · rename_i only
        exact (hpresent only List.mem_cons_self).1
      · rename_i hne
        exact hunion hne
    · split
      · exact isCanonical_primitive _
      · rename_i only
        obtain ⟨hcanonical, hmember⟩ := hpresent only List.mem_cons_self
        exact hmaybe hcanonical hmember.isMaybe
      · rename_i hne
        exact hmaybe (hunion hne) rfl

/-- The property of a field is canonical: what is optional already is not told to be so again. -/
theorem IsCanonical.propertyOf (h : s.IsCanonical) (f : RecordField StaticType) :
    (propertyOf f s).IsCanonical := by
  have hexpr := h.toExpr
  refine .of_parts trivial fun p hp => ?_
  obtain rfl := List.mem_singleton.1 hp
  split
  · rename_i hoptional
    have hmaybe : s.toExpr.isMaybe = false := by
      simp only [Bool.and_eq_true, Bool.not_eq_true'] at hoptional
      exact hoptional.2
    exact .of_parts (by simpa [combine, IsNormal] using hmaybe) (by simpa [combine, parts] using hexpr)
  · exact hexpr

end Shape

/-- The shapes of types are canonical. -/
theorem Shaped.isCanonical {r : Registry} {t : StaticType} {s : Shape} (h : Shaped r t s) :
    s.IsCanonical := by
  induction h with
  | @primitive name export_ location h =>
    refine ⟨isCanonical_primitive _, fun e he => ?_⟩
    cases hnone : name == "none" with
    | true => simp [Shape.toAlternatives, hnone] at he
    | false =>
      obtain rfl : e = .primitive export_ := by simpa [Shape.toAlternatives, hnone] using he
      refine ⟨rfl, rfl, beq_eq_false_iff_ne.2 ?_⟩
      rintro rfl
      exact beq_eq_false_iff_ne.1 hnone (eq_none_of_lookup_nil h)
  | literal value location =>
    refine ⟨.of_parts trivial ?_, fun e he => ?_⟩
    · intro p hp
      obtain rfl := List.mem_singleton.1 hp
      exact .of_parts trivial (by simp [parts])
    · cases hnone : value == .none with
      | true => simp [Shape.toAlternatives, hnone] at he
      | false =>
        obtain rfl : e = combine .literal [.constant value] := by
          simpa [Shape.toAlternatives, hnone] using he
        exact ⟨rfl, rfl, hnone⟩
  | generic name location => exact .single trivial (by simp [parts]) ⟨rfl, rfl, rfl⟩
  | reference h =>
    obtain ⟨hcanonical, hmember⟩ := isCanonical_of_lookup h
    refine ⟨hcanonical, fun e he => ?_⟩
    obtain rfl := Option.some.inj (List.mem_singleton.1 he)
    exact hmember
  | nullable h ih =>
    refine ⟨fun e he => ?_, fun e he => ?_⟩
    all_goals
      have hmem := (List.mem_append.1 he).resolve_right (by simp)
    · exact ih.all.of_mem_toAlternatives hmem
    · exact ih.members e hmem
  | array h ih => exact .single trivial (by simpa [parts] using ih.toExpr) ⟨rfl, rfl, rfl⟩
  | dict hkey hvalue ihkey ihvalue =>
    exact .single trivial (by simpa [combine, parts] using ⟨ihkey.toExpr, ihvalue.toExpr⟩)
      ⟨rfl, rfl, rfl⟩
  | @record fields shown location shapes hlength h ih =>
    refine .single trivial (fun p hp => ?_) ⟨rfl, rfl, rfl⟩
    rw [parts, ← List.map_uncurry_zip_eq_zipWith] at hp
    obtain ⟨q, hq, rfl⟩ := List.mem_map.1 hp
    exact (ih q hq).propertyOf q.1
  | @union members location shapes hlength h ih =>
    have hall : ∀ s ∈ shapes, s.IsCanonical := by
      intro s hs
      have hzip := List.forall₂_iff_zip.2 ⟨hlength, fun hp => ih _ hp⟩
      obtain ⟨t, ht, hcanonical⟩ := exists_mem_of_forall₂ hzip hs
      exact hcanonical
    refine ⟨fun e he => ?_, fun e he => ?_⟩
    all_goals obtain ⟨s, hs, hmem⟩ := List.mem_flatMap.1 he
    · exact (hall s hs).all.of_mem_toAlternatives hmem
    · exact (hall s hs).members e hmem
  | intersection hmarker hlength h ih =>
    exact .single trivial (forall_mem_map_toExpr (fun _ => Shape.IsCanonical.toExpr) hlength ih)
      ⟨rfl, rfl, rfl⟩
  | markedLeft h ih | markedRight h ih =>
    have hpredicate (name : String) : (TypeExpr.predicate name).IsCanonical :=
      .of_parts trivial (by simp [parts])
    exact .single trivial (by simpa [combine, parts] using ⟨ih.toExpr, hpredicate _⟩)
      ⟨rfl, rfl, rfl⟩
  | anyFunction h ih => exact .single trivial (by simpa [parts] using ih.toExpr) ⟨rfl, rfl, rfl⟩
  | function hresult hlength h ihresult ih =>
    refine .single trivial (fun p hp => ?_) ⟨rfl, rfl, rfl⟩
    rcases List.mem_append.1 hp with hp | hp
    · exact forall_mem_map_toExpr (fun _ => Shape.IsCanonical.toExpr) hlength ih p hp
    · rw [List.mem_singleton.1 hp]
      exact ihresult.toExpr
  | tuple hlength h ih =>
    exact .single trivial (forall_mem_map_toExpr (fun _ => Shape.IsCanonical.toExpr) hlength ih)
      ⟨rfl, rfl, rfl⟩

/-- Built expressions are canonical: at every depth, no member of a union is itself a union, optional
or the absence of a value, no union has exactly one member, and nothing is optional twice. -/
theorem build_canonical {r : Registry} {t : StaticType} {e : TypeExpr}
    (h : (build r t).outcome = .ok e) : ∀ x : TypeExpr, x.Includes e → x.IsNormal := by
  obtain ⟨s, hs, rfl⟩ := shaped_of_build h
  exact hs.isCanonical.toExpr

/-- A record with an optional field that is optional in a union with a nested optional type. -/
def nestedOptional : StaticType :=
  .record [⟨"next", .union [.nullable (.primitive "int" none) none,
    .nullable (.union [.primitive "str" none] none) none] none, true, none⟩] none none

/-- Its optional field is told to be optional once. -/
theorem build_canonical_nestedOptional :
    (build {} nestedOptional).outcome = .ok (.combine .interface [.field "next" (.combine .maybe
      [.combine .union [.primitive "Int", .primitive "Str"]])]) ∧
    ∀ x : TypeExpr, x.Includes (.combine .interface [.field "next" (.combine .maybe
      [.combine .union [.primitive "Int", .primitive "Str"]])]) → x.IsNormal :=
  ⟨rfl, build_canonical (r := {}) (t := nestedOptional) rfl⟩

end Typeward
