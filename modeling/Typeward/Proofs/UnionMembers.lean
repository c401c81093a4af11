import Typeward.Proofs.BuildableTypes

/-!
# The members of unions

Unions and optional types nest in many ways and are built to the same expression if they have the
same members: what counts are the members at the leaves, from left to right, but for the absence of a
value, of which counts only whether it is among them. `StaticType.leaves` tells the members, and
`Flattens` how they are found by a walk that takes the inner type of an optional one for a union of
its own. The walk comes to an end on every type.
-/

namespace Typeward

namespace Built

variable {α β : Type}

/-- Builds after one another meet what each of them meets, in order. -/
instance : LawfulMonad Built :=
  LawfulMonad.mk' Built
    (fun x => by
      obtain ⟨outcome, requests⟩ := x
      cases outcome
      · rfl
      · exact congrArg (Built.mk _) (List.append_nil requests))
    (fun _ _ => rfl)
    (fun x f g => by
      obtain ⟨outcome, requests⟩ := x
      cases outcome with
      | error => rfl
      | ok a =>
        change Built.bind ⟨(f a).outcome, requests ++ (f a).requests⟩ g =
          Built.bind ⟨.ok a, requests⟩ fun a => Built.bind (f a) g
        simp only [Built.bind]
        cases (f a).outcome <;> simp [List.append_assoc])

/-- What follows a build needs to be told only for what the build can answer. -/
theorem bind_congr_ok {x : Built α} {f g : α → Built β} (h : ∀ a, x.outcome = .ok a → f a = g a) :
    x >>= f = x >>= g := by
  obtain ⟨outcome, requests⟩ := x
  cases outcome with
  | error => rfl
  | ok a =>
    change Built.bind _ f = Built.bind _ g
    simp only [Built.bind, h a rfl]

end Built

namespace StaticType

/-- Whether a type is a union or optional. -/
def isAlternative : StaticType → Bool
  | .union .. | .nullable .. => true
  | _ => false

mutual

/-- The members at the leaves of unions and optional types, from left to right. An optional type has
the absence of a value as its last member. -/
def leaves : StaticType → List StaticType
  | .union members _ => leavesOfAll members
  | .nullable inner location => inner.leaves ++ [.primitive "none" location]
  | t => [t]

/-- The members at the leaves of several types. -/
def leavesOfAll : List StaticType → List StaticType
  | [] => []
  | t :: rest => t.leaves ++ leavesOfAll rest

end

/-- The members of a type but for the absence of a value. -/
def present (t : StaticType) : List StaticType := t.leaves.filter (! ·.isNone)

/-- Whether the absence of a value is among the members of a type. -/
def mayBeAbsent (t : StaticType) : Bool := t.leaves.any (·.isNone)

/-- The members of several types are those of each of them, in order. -/
theorem leavesOfAll_eq (ts : List StaticType) : leavesOfAll ts = ts.flatMap leaves := by
  induction ts with
  | nil => rfl
  | cons t rest ih => rw [leavesOfAll, ih, List.flatMap_cons]

/-- A type that is neither a union nor optional is its only member. -/
theorem leaves_of_leaf {t : StaticType} (h : t.isAlternative = false) : t.leaves = [t] := by
  cases t with
  | union | nullable => cases h
  | _ => rfl

/-- The members at the leaves are neither unions nor optional. -/
theorem isAlternative_of_mem_leaves (t : StaticType) : ∀ u ∈ t.leaves, u.isAlternative = false := by
  induction t using parts_induction with
  | h t ih =>
    cases t with
    | union members location =>
      intro u hu
      rw [leaves, leavesOfAll_eq] at hu
      obtain ⟨member, hmember, hu⟩ := List.mem_flatMap.1 hu
      exact ih member hmember u hu
    | nullable inner location =>
      intro u hu
      rcases List.mem_append.1 hu with hu | hu
      · exact ih inner List.mem_cons_self u hu
      · rw [List.mem_singleton.1 hu]
        rfl
    | _ =>
      intro u hu
      rw [List.mem_singleton.1 hu]
      rfl

end StaticType

/-- How the members of a union are flattened: those of a member that is a union are flattened by
themselves, the inner type of an optional one as the only member of a new union. -/
inductive Flattens : List StaticType → List StaticType → Prop
  | nil : Flattens [] []
  | union {members location rest leaves more} (h : Flattens members leaves)
      (hrest : Flattens rest more) : Flattens (.union members location :: rest) (leaves ++ more)
  | nullable {inner location rest leaves more} (h : Flattens [inner] leaves)
      (hrest : Flattens rest more) :
      Flattens (.nullable inner location :: rest) (leaves ++ .primitive "none" location :: more)
  | leaf {t rest more} (h : t.isAlternative = false) (hrest : Flattens rest more) :
      Flattens (t :: rest) (t :: more)

/-- What flattening finds are the members at the leaves. -/
theorem Flattens.eq_leaves {ts leaves : List StaticType} (h : Flattens ts leaves) :
    leaves = StaticType.leavesOfAll ts := by
  induction h with
  | nil => rfl
  | union h hrest ih ihrest => rw [ih, ihrest, StaticType.leavesOfAll, StaticType.leaves]
  | nullable h hrest ih ihrest =>
    rw [ih, ihrest]
    simp [StaticType.leavesOfAll, StaticType.leaves]
  | leaf h hrest ih => rw [ih, StaticType.leavesOfAll, StaticType.leaves_of_leaf h]; rfl

/-- Flattening goes through each member before it goes on. -/
theorem Flattens.cons (t : StaticType) : ∀ {rest more : List StaticType}, Flattens rest more →
    Flattens (t :: rest) (t.leaves ++ more) := by
  induction t using StaticType.parts_induction with
  | h t ih =>
    intro rest more hrest
    cases t with
    | union members location =>
      have hmembers : ∀ ts : List StaticType, (∀ u ∈ ts, u ∈ members) →
          Flattens ts (StaticType.leavesOfAll ts) := by
        intro ts
        induction ts with
        | nil => exact fun _ => .nil
        | cons u us ihus =>
          intro hmem
          exact ih u (hmem u List.mem_cons_self) (ihus fun v hv => hmem v (List.mem_cons_of_mem _ hv))
      rw [StaticType.leaves]
      exact .union (hmembers members fun _ => id) hrest
    | nullable inner location =>
      have hinner := ih inner List.mem_cons_self .nil
      rw [List.append_nil] at hinner
      rw [StaticType.leaves, List.append_assoc, List.singleton_append]
      exact .nullable hinner hrest
    | _ => exact .leaf rfl hrest

/-- Flattening finds the members at the leaves of every list of types, and nothing else. -/
theorem flattens_iff {ts leaves : List StaticType} :
    Flattens ts leaves ↔ leaves = StaticType.leavesOfAll ts := by
  refine ⟨Flattens.eq_leaves, ?_⟩
  rintro rfl
  induction ts with
  | nil => exact .nil
  | cons t rest ih => exact ih.cons t

/-- The expression of alternatives that are present, and perhaps absent. -/
def joined (isOptional : Bool) (present : List TypeExpr) : TypeExpr :=
  if isOptional then
    match present with
    | [] => .primitive "Nil"
    | [only] => .combine .maybe [only]
    | _ => .combine .maybe [.combine .union present]
  else
    match present with
    | [only] => only
    | _ => .combine .union present

/-- Alternatives come to an expression that depends on those that are present and on whether the
absence of a value is among them. -/
theorem toExpr_eq_joined (members : Alternatives) :
    members.toExpr = joined (! members.all (·.isSome)) (members.filterMap id) := by
  unfold Alternatives.toExpr joined
  cases members.all (·.isSome) <;> rfl

section Building

variable {r : Registry}

/-- A type that is neither a union nor optional and is not the absence of a value is built to one
expression that is present. -/
theorem Shaped.eq_single {t : StaticType} {s : Shape} (h : Shaped r t s)
    (hleaf : t.isAlternative = false) (hnone : t.isNone = false) : s = .single s.toExpr false := by
  cases h with
  | union | nullable => cases hleaf
  | @primitive name =>
    have hname : (name == "none") = false := hnone
    rw [hname]
    rfl
  | literal value location =>
    cases value with
    | none => cases hnone
    | _ => rfl
  | _ => rfl

/-- The absence of a value is built without faults to one expression for it. -/
theorem shape_of_isNone {t : StaticType} (h : t.isNone = true) :
    ∃ e, shape r t = pure (.single e true) := by
  cases t with
  | primitive name location =>
    obtain rfl : name = "none" := beq_iff_eq.1 h
    exact ⟨_, rfl⟩
  | literal value location =>
    cases value with
    | none => exact ⟨_, rfl⟩
    | _ => cases h
  | _ => cases h

/-- Each type but a bare literal of the absent value is built to the expression of its
alternatives. -/
theorem Shaped.toExpr_toAlternatives {t : StaticType} {s : Shape} (h : Shaped r t s)
    (ht : ∀ location, t ≠ .literal .none location) : s.toAlternatives.toExpr = s.toExpr := by
  cases h with
  | @primitive name export_ location h =>
    cases hname : name == "none" with
    | false => rfl
    | true =>
      obtain rfl := beq_iff_eq.1 hname
      obtain rfl : "Nil" = export_ := Option.some.inj h
      rfl
  | literal value location =>
    cases value with
    | none => exact absurd rfl (ht location)
    | _ => rfl
  | _ => rfl

/-- The alternatives of the members of two lists are those of the one and then of the other. -/
theorem shapeMembers_append (ts us : List StaticType) :
    shapeMembers r (ts ++ us) = (do return (← shapeMembers r ts) ++ (← shapeMembers r us)) := by
  induction ts with
  | nil => simp [shapeMembers]
  | cons t rest ih =>
    simp only [List.cons_append, shapeMembers, ih, bind_assoc, pure_bind, List.append_assoc]

/-- The alternatives that a type comes to are those of its members at the leaves. -/
theorem toAlternatives_shape (t : StaticType) :
    (do return (← shape r t).toAlternatives) = shapeMembers r t.leaves := by
  induction t using StaticType.parts_induction with
  | h t ih =>
    cases t with
    | union members location =>
      have hmembers : ∀ ts : List StaticType, (∀ u ∈ ts, u ∈ members) →
          shapeMembers r ts = shapeMembers r (StaticType.leavesOfAll ts) := by
        intro ts
        induction ts with
        | nil => exact fun _ => rfl
        | cons u us ihus =>
          intro hmem
          have hu := ih u (hmem u List.mem_cons_self)
          have hus := ihus fun v hv => hmem v (List.mem_cons_of_mem _ hv)
          rw [StaticType.leavesOfAll, shapeMembers_append, ← hu, ← hus, shapeMembers]
          simp only [bind_assoc, pure_bind]
      rw [StaticType.leaves, ← hmembers members fun _ => id, shape]
      simp [Shape.toAlternatives]
    | nullable inner location =>
      have hinner := ih inner List.mem_cons_self
      have hnone : shapeMembers r [.primitive "none" location] = pure [none] := rfl
      rw [StaticType.leaves, shapeMembers_append, ← hinner, hnone, shape]
      simp only [bind_assoc, pure_bind, Shape.toAlternatives]
    | _ =>
      rw [StaticType.leaves_of_leaf rfl]
      simp [shapeMembers]

/-- Of the members at the leaves those that are present are built, in order; the absence of a value
needs no building. -/
theorem shapeMembers_of_leaves {β : Type} {ts : List StaticType}
    (h : ∀ t ∈ ts, t.isAlternative = false) (f : List TypeExpr → Bool → Built β) :
    (do
      let members ← shapeMembers r ts
      f (members.filterMap id) (! members.all (·.isSome))) =
      (do
        let es ← shapeAll r (ts.filter (! ·.isNone))
        f es (ts.any (·.isNone))) := by
  induction ts generalizing f with
  | nil => simp [shapeMembers, shapeAll]
  | cons t rest ih =>
    have hrest := ih fun u hu => h u (List.mem_cons_of_mem _ hu)
    cases hnone : t.isNone with
    | true =>
      obtain ⟨e, he⟩ := shape_of_isNone (r := r) hnone
      have htail := hrest fun es _ => f es true
      simpa [shapeMembers, he, Shape.toAlternatives, hnone] using htail
    | false =>
      have hfilter : (t :: rest).filter (! ·.isNone) = t :: rest.filter (! ·.isNone) := by
        simp [hnone]
      have hany : (t :: rest).any (·.isNone) = rest.any (·.isNone) := by simp [hnone]
      rw [hfilter, hany, shapeMembers, shapeAll]
      simp only [bind_assoc, pure_bind]
      refine Built.bind_congr_ok fun s hs => ?_
      have hsingle := (shaped_of_outcome hs).eq_single (h t List.mem_cons_self) hnone
      have halternatives : s.toAlternatives = [some s.toExpr] := by
        rw [hsingle]
        rfl
      rw [halternatives]
      exact hrest fun es isOptional => f (s.toExpr :: es) isOptional

/-- A type is built by building the members that are present, in order, and joining them; so is all
but a bare literal of the absent value. -/
theorem build_eq_joined {t : StaticType} (ht : ∀ location, t ≠ .literal .none location) :
    build r t = (do return joined t.mayBeAbsent (← shapeAll r t.present)) := by
  have halternatives : build r t = (do return (← shapeMembers r t.leaves).toExpr) := by
    rw [← toAlternatives_shape, build]
    simp only [bind_assoc, pure_bind]
    refine Built.bind_congr_ok fun s hs => ?_
    rw [(shaped_of_outcome hs).toExpr_toAlternatives ht]
  simp only [halternatives, toExpr_eq_joined]
  exact shapeMembers_of_leaves t.isAlternative_of_mem_leaves
    fun es isOptional => pure (joined isOptional es)

end Building

/-- Flattening comes to an end on every type and finds the members at its leaves. Two types that have
the same ones, but for the absence of a value, which is among those of both or of neither, are built
alike against every registry: to the same expression or the same fault, with the same refinements
met. The types may be unions and optional types in any nesting, or of any other form; only a bare
literal of the absent value is kept as it is written. -/
theorem build_determined_by_leaves :
    (∀ (t : StaticType) (leaves : List StaticType), Flattens [t] leaves ↔ leaves = t.leaves) ∧
      ∀ (r : Registry) (a b : StaticType), (∀ location, a ≠ .literal .none location) →
        (∀ location, b ≠ .literal .none location) → a.present = b.present →
        a.mayBeAbsent = b.mayBeAbsent → build r a = build r b := by
  refine ⟨fun t leaves => ?_, fun r a b ha hb hpresent habsent => ?_⟩
  · rw [flattens_iff, StaticType.leavesOfAll, StaticType.leavesOfAll, List.append_nil]
  · rw [build_eq_joined ha, build_eq_joined hb, hpresent, habsent]

/-- Integers, texts or nothing, as a union of unions. -/
def nestedUnion : StaticType :=
  .union [.nullable (.union [.primitive "int" none, .union [] none] none) none,
    .primitive "none" none, .union [.primitive "str" none] none] none

/-- Integers, texts or nothing, as an optional union. -/
def optionalUnion : StaticType :=
  .nullable (.union [.literal .none none, .primitive "int" none, .primitive "str" none] none) none

/-- The two are built alike, since they have the same members. -/
theorem build_determined_by_leaves_nestedUnion :
    nestedUnion.present = optionalUnion.present ∧
      nestedUnion.mayBeAbsent = optionalUnion.mayBeAbsent ∧
      build {} nestedUnion = build {} optionalUnion :=
  ⟨rfl, rfl, build_determined_by_leaves.2 {} nestedUnion optionalUnion nofun nofun rfl rfl⟩

end Typeward
