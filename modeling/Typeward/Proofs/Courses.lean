import Typeward.Proofs.Acceptance
import Typeward.Schema.Session

/-!
# What a check does first

The checks of values against types have many forms, but few ways to go on. A type may reject a value
as a whole; it may have parts of the value checked, one after the other, each against a part of the
type; it may ask whether some member of it accepts the value, or let a predicate decide once its base
accepts the value; or it may be a late reference. `Schema.course` tells which way a check goes, and
the check of every form is told by it.
-/

namespace Typeward

/-- The step from a value to a part of it. -/
inductive Step where
  | element (number : Nat)
  | key (key : Value)
  /-- To the value at a key. -/
  | entry (key : Value)
  | property (name : String)

/-- A check that is part of another one: of the whole value or of a part of it. -/
structure PartCheck where
  step : Option Step
  type : Schema
  value : Value

/-- How the check of a value against a type goes on. -/
inductive Course where
  | fail (e : Raised)
  | reject
  | parts (checks : List PartCheck)
  | union (members : List Schema)
  | refinement (base : Schema) (predicate : Value)
  | late (slot : Nat)

namespace Course

/-- Accepts a value under a condition, and otherwise rejects it. -/
def ofBool (condition : Bool) : Course := if condition then .parts [] else .reject

/-- Goes on with the parts of a value of the right form, and rejects others. -/
def ofParts {α : Type} (parts : Option α) (checks : α → List PartCheck) : Course :=
  match parts with
  | some x => .parts (checks x)
  | none => .reject

end Course

namespace PartCheck

/-- The checks of elements against one type. -/
def ofElements (element : Schema) (items : List Value) : List PartCheck :=
  items.mapIdx fun i x => ⟨some (.element i), element, x⟩

/-- The checks of the keys and values of a mapping. -/
def ofEntries (key value : Schema) (entries : List (Value × Value)) : List PartCheck :=
  entries.flatMap fun e => [⟨some (.key e.1), key, e.1⟩, ⟨some (.entry e.1), value, e.2⟩]

/-- The checks of the properties of a mapping. -/
def ofProperties (props : List (String × Schema)) (entries : List (Value × Value)) :
    List PartCheck :=
  props.map fun p => ⟨some (.property p.1), p.2, Value.property entries p.1⟩

/-- The checks of the elements of a tuple, each against a type of its own. -/
def ofEach (elements : List Schema) (items : List Value) : List PartCheck :=
  (elements.zip items).mapIdx fun i p => ⟨some (.element i), p.1, p.2⟩

/-- The checks of a value against several types. -/
def ofAll (members : List Schema) (v : Value) : List PartCheck := members.map (⟨none, ·, v⟩)

/-- What is true of all checks of numbered parts. -/
theorem forall_mem_mapIdx {α : Type} {f : Nat → α → PartCheck} {items : List α}
    {P : PartCheck → Prop} :
    (∀ p ∈ items.mapIdx f, P p) ↔ ∀ i (h : i < items.length), P (f i items[i]) := by
  constructor
  · intro h i hi
    exact h _ (List.mem_mapIdx.2 ⟨i, hi, rfl⟩)
  · intro h p hp
    obtain ⟨i, hi, rfl⟩ := List.mem_mapIdx.1 hp
    exact h i hi

end PartCheck

/-- How the check of a value against a type goes on. -/
def Schema.course (world : World) (s : Schema) (v : Value) : Course :=
  match s with
  | .irreducible _ test => .ofBool (test.accepts world v)
  | .maybe inner _ => .parts (if v.isAbsent then [] else PartCheck.ofAll [inner] v)
  | .list element container _ =>
    match v.elementsIn container with
    | .error e => .fail e
    | .ok items => .ofParts items (PartCheck.ofElements element)
  | .dict key value _ => .ofParts v.entries? (PartCheck.ofEntries key value)
  | .interface props _ => .ofParts v.entries? (PartCheck.ofProperties props)
  | .union members _ => .union members
  | .intersection members _ => .parts (PartCheck.ofAll members v)
  | .refinement base predicate _ => .refinement base predicate
  | .tuple elements isVariadic _ =>
    match v.tuple? with
    | none => .reject
    | some items =>
      if isVariadic then
        match elements with
        | [] => .fail .noElement
        | element :: _ => .parts (PartCheck.ofElements element items)
      else if items.length = elements.length then .parts (PartCheck.ofEach elements items)
      else .reject
  | .func .. => .ofBool (world.isCallable v)
  | .literal value _ => .ofBool (v.isSameLiteral value)
  | .late slot => .late slot

-- The equations are made here, once for all lemmas that follow.
attribute [local simp] Schema.course

/-- What is true of a type if it is true of all types in it is true of every type. -/
theorem Schema.induction_components {P : Schema → Prop}
    (h : ∀ s : Schema, (∀ c ∈ s.components, P c) → P s) (s : Schema) : P s := by
  refine h s fun c hc => ?_
  have hlt : sizeOf c < sizeOf s := by
    cases s with
    | interface props shown =>
      obtain ⟨p, hp, rfl⟩ := List.mem_map.1 hc
      have hp' := List.sizeOf_lt_of_mem hp
      obtain ⟨name, c⟩ := p
      simp only [Prod.mk.sizeOf_spec, Schema.interface.sizeOf_spec] at hp' ⊢
      omega
    | func params result shown =>
      cases params with
      | none =>
        obtain rfl : c = result := by simpa [components] using hc
        simp only [Schema.func.sizeOf_spec]
        omega
      | some params =>
        simp only [components, Option.getD_some, List.mem_append, List.mem_singleton] at hc
        simp only [Schema.func.sizeOf_spec, Option.some.sizeOf_spec]
        rcases hc with hc | rfl
        · have := List.sizeOf_lt_of_mem hc
          omega
        · omega
    | union | intersection | tuple =>
      have := List.sizeOf_lt_of_mem hc
      simp [components] at *
      omega
    | maybe | list | dict | refinement =>
      simp [components] at *
      first
      | subst hc; omega
      | rcases hc with rfl | rfl <;> omega
    | irreducible | literal | late => simp [components] at hc
  exact induction_components h c
termination_by sizeOf s

/-- A step leads from a value to a part of it: to an element of a container or of a tuple, to a key
or the value at it, or to a property, which is absent if the mapping lacks it. -/
inductive Value.StepsTo (v : Value) : Step → Value → Prop
  | element {container items i x} (hitems : v.elementsIn container = .ok (some items))
      (hx : items[i]? = some x) : StepsTo v (.element i) x
  | tuple {items i x} (hitems : v.tuple? = some items) (hx : items[i]? = some x) :
      StepsTo v (.element i) x
  | key {entries k x} (hentries : v.entries? = some entries) (he : (k, x) ∈ entries) :
      StepsTo v (.key k) k
  | entry {entries k x} (hentries : v.entries? = some entries) (he : (k, x) ∈ entries) :
      StepsTo v (.entry k) x
  | property {entries name} (hentries : v.entries? = some entries) :
      StepsTo v (.property name) (Value.property entries name)

/-- A step leads to what the value contains, or to the absence of a property. -/
theorem Value.StepsTo.content {v x : Value} {step : Step} (h : v.StepsTo step x) : v.Content x := by
  cases h with
  | element hitems hx => exact content_of_elementsIn hitems x (List.mem_of_getElem? hx)
  | tuple hitems hx => exact content_of_tuple hitems x (List.mem_of_getElem? hx)
  | key hentries he => exact .key (exists_eq_mapping hentries).choose_spec he
  | entry hentries he => exact .entry (exists_eq_mapping hentries).choose_spec he
  | property hentries => exact content_of_property hentries _

/-- A check is one of a value, or of a part of it that the step leads to. -/
def PartCheck.IsOf (p : PartCheck) (v : Value) : Prop :=
  match p.step with
  | none => p.value = v
  | some step => v.StepsTo step p.value

namespace Schema

/-- The values of the literals in a type are as told, and its late references are among so many. -/
inductive Grounded (Fits : Value → Prop) (slotCount : Nat) : Schema → Prop
  | intro {s} (hliteral : ∀ value shown, s = .literal value shown → Fits value)
      (hlate : ∀ slot, s = .late slot → slot < slotCount)
      (hparts : ∀ c ∈ s.components, Grounded Fits slotCount c) : Grounded Fits slotCount s

section Grounded

variable {Fits : Value → Prop} {slotCount : Nat} {s : Schema}

/-- So are those of the types in it. -/
theorem Grounded.part (h : s.Grounded Fits slotCount) : ∀ c ∈ s.components,
    c.Grounded Fits slotCount := by
  cases h with
  | intro _ _ hparts => exact hparts

/-- A type that is neither a literal nor a late reference is of this kind if the types in it are. -/
theorem Grounded.of_parts (hliteral : ∀ value shown, s ≠ .literal value shown)
    (hlate : ∀ slot, s ≠ .late slot) (hparts : ∀ c ∈ s.components, c.Grounded Fits slotCount) :
    s.Grounded Fits slotCount :=
  .intro (fun value shown h => absurd h (hliteral value shown))
    (fun slot h => absurd h (hlate slot)) hparts

/-- A late reference is among so many. -/
theorem Grounded.lt {slot : Nat} (h : (late slot).Grounded Fits slotCount) : slot < slotCount := by
  cases h with
  | intro _ hlate _ => exact hlate slot rfl

/-- A type that makes sense is of this kind. -/
theorem Proper.grounded {world : World} (h : s.Proper world Fits slotCount) :
    s.Grounded Fits slotCount := by
  induction h with
  | intro hown _ ih => exact ⟨by rintro _ _ rfl; exact hown, by rintro _ rfl; exact hown, ih⟩

end Grounded

variable {world : World} {s c : Schema} {v : Value} {checks : List PartCheck} {p : PartCheck}

/-- The ways in which the check of a value comes to be made of others. -/
inductive HasParts (world : World) (v : Value) : Schema → List PartCheck → Prop
  | irreducible {name test} (h : test.accepts world v = true) :
      HasParts world v (.irreducible name test) []
  | absent {inner shown} (h : v.isAbsent = true) : HasParts world v (.maybe inner shown) []
  | present {inner shown} (h : v.isAbsent = false) :
      HasParts world v (.maybe inner shown) (PartCheck.ofAll [inner] v)
  | list {element container shown items} (h : v.elementsIn container = .ok (some items)) :
      HasParts world v (.list element container shown) (PartCheck.ofElements element items)
  | dict {key value shown entries} (h : v.entries? = some entries) :
      HasParts world v (.dict key value shown) (PartCheck.ofEntries key value entries)
  | interface {props shown entries} (h : v.entries? = some entries) :
      HasParts world v (.interface props shown) (PartCheck.ofProperties props entries)
  | intersection {members shown} :
      HasParts world v (.intersection members shown) (PartCheck.ofAll members v)
  | variadic {element rest shown items} (h : v.tuple? = some items) :
      HasParts world v (.tuple (element :: rest) true shown) (PartCheck.ofElements element items)
  | tuple {elements shown items} (h : v.tuple? = some items)
      (hlength : items.length = elements.length) :
      HasParts world v (.tuple elements false shown) (PartCheck.ofEach elements items)
  | func {params result shown} (h : world.isCallable v = true) :
      HasParts world v (.func params result shown) []
  | literal {value shown} (h : v.isSameLiteral value = true) :
      HasParts world v (.literal value shown) []

/-- A check that is made of others is so in one of these ways. -/
theorem hasParts_of_course (h : s.course world v = .parts checks) : HasParts world v s checks := by
  have hbool {condition : Bool} (h : Course.ofBool condition = .parts checks) :
      condition = true ∧ [] = checks := by
    cases condition <;> simp_all [Course.ofBool]
  cases s with
  | irreducible name test =>
    obtain ⟨haccepts, rfl⟩ := hbool h
    exact .irreducible haccepts
  | maybe inner shown =>
    obtain rfl := Course.parts.inj h
    cases habsent : v.isAbsent with
    | true => exact .absent habsent
    | false => exact .present habsent
  | list element container shown =>
    simp only [course] at h
    split at h
    · cases h
    · rename_i items hitems
      cases items with
      | none => cases h
      | some items =>
        obtain rfl := Course.parts.inj h
        exact .list hitems
  | dict key value shown =>
    cases hentries : v.entries? with
    | none => simp [hentries, Course.ofParts] at h
    | some entries =>
      simp only [course, hentries] at h
      obtain rfl := Course.parts.inj h
      exact .dict hentries
  | interface props shown =>
    cases hentries : v.entries? with
    | none => simp [hentries, Course.ofParts] at h
    | some entries =>
      simp only [course, hentries] at h
      obtain rfl := Course.parts.inj h
      exact .interface hentries
  | intersection members shown =>
    obtain rfl := Course.parts.inj h
    exact .intersection
  | tuple elements isVariadic shown =>
    cases hitems : v.tuple? with
    | none => simp [hitems] at h
    | some items =>
      simp only [course, hitems] at h
      cases isVariadic with
      | true =>
        cases elements with
        | nil => cases h
        | cons element rest =>
          obtain rfl := Course.parts.inj h
          exact .variadic hitems
      | false =>
        rw [if_neg Bool.false_ne_true] at h
        split at h
        · rename_i hlength
          obtain rfl := Course.parts.inj h
          exact .tuple hitems hlength
        · cases h
  | func params result shown =>
    obtain ⟨hcallable, rfl⟩ := hbool h
    exact .func hcallable
  | literal value shown =>
    obtain ⟨hsame, rfl⟩ := hbool h
    exact .literal hsame
  | union | refinement | late => cases h

/-- The checks that a check is made of are of parts of the type, and of the value or a part of it. -/
theorem mem_components_of_parts (h : s.course world v = .parts checks) (hp : p ∈ checks) :
    p.type ∈ s.components ∧ p.IsOf v := by
  cases hasParts_of_course h with
  | irreducible | absent | func | literal => exact absurd hp List.not_mem_nil
  | present =>
    obtain rfl := List.mem_singleton.1 hp
    exact ⟨by simp [components], rfl⟩
  | list hitems =>
    obtain ⟨i, hi, rfl⟩ := List.mem_mapIdx.1 hp
    exact ⟨by simp [components], .element hitems (List.getElem?_eq_getElem hi)⟩
  | dict hentries =>
    obtain ⟨e, he, hp⟩ := List.mem_flatMap.1 hp
    simp only [List.mem_cons, List.not_mem_nil, or_false] at hp
    rcases hp with rfl | rfl
    · exact ⟨by simp [components], .key hentries he⟩
    · exact ⟨by simp [components], .entry hentries he⟩
  | interface hentries =>
    obtain ⟨q, hq, rfl⟩ := List.mem_map.1 hp
    exact ⟨List.mem_map_of_mem hq, .property hentries⟩
  | intersection =>
    obtain ⟨c, hc, rfl⟩ := List.mem_map.1 hp
    exact ⟨hc, rfl⟩
  | variadic hitems =>
    obtain ⟨i, hi, rfl⟩ := List.mem_mapIdx.1 hp
    exact ⟨by simp [components], .tuple hitems (List.getElem?_eq_getElem hi)⟩
  | tuple hitems hlength =>
    obtain ⟨i, hi, rfl⟩ := List.mem_mapIdx.1 hp
    obtain ⟨helement, hitem⟩ := List.getElem?_zip_eq_some.1 (List.getElem?_eq_getElem hi)
    exact ⟨List.mem_of_getElem? helement, .tuple hitems hitem⟩

/-- A check that asks members is one against a union of these. -/
theorem exists_eq_union {members : List Schema} (h : s.course world v = .union members) :
    ∃ shown, s = .union members shown := by
  cases s
  all_goals simp only [course, Course.ofBool, Course.ofParts] at h
  case union => exact ⟨_, by rw [Course.union.inj h]⟩
  all_goals (repeat' split at h) <;> cases h

/-- A check that lets a predicate decide is one against a refinement. -/
theorem exists_eq_refinement {base : Schema} {predicate : Value}
    (h : s.course world v = .refinement base predicate) :
    ∃ shown, s = .refinement base predicate shown := by
  cases s
  all_goals simp only [course, Course.ofBool, Course.ofParts] at h
  case refinement =>
    obtain ⟨rfl, rfl⟩ := Course.refinement.inj h
    exact ⟨_, rfl⟩
  all_goals (repeat' split at h) <;> cases h

/-- A check that follows a late reference is one against it. -/
theorem eq_late {slot : Nat} (h : s.course world v = .late slot) : s = .late slot := by
  cases s
  all_goals simp only [course, Course.ofBool, Course.ofParts] at h
  case late => rw [Course.late.inj h]
  all_goals (repeat' split at h) <;> cases h

variable {target : Nat → Schema}

/-- A type does not accept what it rejects as a whole. -/
theorem not_accepts_of_reject (h : s.course world v = .reject) : ¬ s.Accepts world target v := by
  have hbool {condition : Bool} (h : Course.ofBool condition = .reject) : condition = false := by
    cases condition <;> simp_all [Course.ofBool]
  cases s with
  | irreducible name test => simp [hbool h]
  | maybe inner shown => simp [course] at h
  | list element container shown =>
    simp only [course] at h
    split at h
    · simp at h
    · rename_i items hitems
      cases items with
      | none => simp [hitems]
      | some items => simp [Course.ofParts] at h
  | dict key value shown =>
    cases hentries : v.entries? with
    | none => simp [hentries]
    | some entries => simp [course, hentries, Course.ofParts] at h
  | interface props shown =>
    cases hentries : v.entries? with
    | none => simp [hentries]
    | some entries => simp [course, hentries, Course.ofParts] at h
  | union members shown => simp [course] at h
  | intersection members shown => simp [course] at h
  | refinement base predicate shown => simp [course] at h
  | tuple elements isVariadic shown =>
    cases hitems : v.tuple? with
    | none =>
      intro haccepts
      cases haccepts <;> simp_all
    | some items =>
      simp only [course, hitems] at h
      cases isVariadic with
      | true => cases elements <;> simp at h
      | false =>
        rw [if_neg Bool.false_ne_true] at h
        split at h
        · simp at h
        · rename_i hlength
          simp [hitems, hlength]
  | func params result shown => simp [hbool h]
  | literal value shown => simp [hbool h]
  | late slot => simp [course] at h

/-- A type whose check is made of others accepts a value if all of them end well. -/
theorem accepts_iff_of_parts (h : s.course world v = .parts checks) :
    s.Accepts world target v ↔ ∀ p ∈ checks, p.type.Accepts world target p.value := by
  have helements (element : Schema) (items : List Value) :
      (∀ p ∈ PartCheck.ofElements element items, p.type.Accepts world target p.value) ↔
        ∀ x ∈ items, element.Accepts world target x := by
    rw [PartCheck.ofElements, PartCheck.forall_mem_mapIdx, List.forall_mem_iff_getElem]
  cases hasParts_of_course h with
  | irreducible haccepts => simpa using haccepts
  | absent habsent => simp [habsent]
  | present habsent => simp [habsent, PartCheck.ofAll]
  | list hitems =>
    rw [helements]
    simp [hitems]
  | dict hentries =>
    simp only [accepts_dict, hentries, Option.some.injEq, exists_eq_left', PartCheck.ofEntries,
      List.forall_mem_flatMap, List.forall_mem_cons, List.not_mem_nil, false_implies, implies_true,
      and_true, forall_and]
  | interface hentries =>
    simp only [accepts_interface, hentries, Option.some.injEq, exists_eq_left',
      PartCheck.ofProperties, List.forall_mem_map]
  | intersection => simp only [accepts_intersection, PartCheck.ofAll, List.forall_mem_map]
  | variadic hitems =>
    rw [helements]
    simp [hitems]
  | tuple hitems hlength =>
    rw [PartCheck.ofEach, PartCheck.forall_mem_mapIdx]
    simp only [accepts_tuple, hitems, Option.some.injEq, exists_eq_left', hlength, true_and]
    exact List.forall_mem_iff_getElem
  | func hcallable => simpa using hcallable
  | literal hsame => simpa using hsame

/-- What is looked up for a type on its own is there. -/
def Provides : Schema → Prop
  | .list _ container _ => container ∈ containers
  | .tuple elements isVariadic _ => isVariadic = true → elements ≠ []
  | _ => True

/-- The check of a value against a type for which what is looked up is there does not fail by
itself. -/
theorem Provides.course_ne_fail {s : Schema} (hs : s.Provides) {v : Value} {e : Raised} :
    s.course world v ≠ .fail e := by
  intro h
  cases s
  all_goals simp only [course, Course.ofBool, Course.ofParts] at h
  case list element container shown =>
    obtain ⟨items, hitems⟩ := v.exists_elementsIn hs
    rw [hitems] at h
    cases items <;> cases h
  case tuple elements isVariadic shown =>
    repeat' split at h
    all_goals first
      | exact hs ‹_› rfl
      | cases h
  all_goals (repeat' split at h) <;> cases h

/-- Where the element of a tuple type of any length is missing, not even the empty tuple is checked.
-/
example : (tuple [] true none).course world (.collection .tuple []) = .fail .noElement := rfl

/-- What is looked up for a type that makes sense is there. -/
theorem Proper.provides {Fits : Value → Prop} {slotCount : Nat}
    (h : s.Proper world Fits slotCount) : s.Provides := by
  cases h with
  | @intro s hown _ =>
    cases s with
    | list | tuple => exact hown
    | _ => trivial

/-- A type is part of another one, perhaps by late references. -/
inductive IsPartOf (target : Nat → Schema) (part : Schema) : Schema → Prop
  | self : IsPartOf target part part
  | component {t c : Schema} (hc : c ∈ t.components) (h : IsPartOf target part c) :
      IsPartOf target part t
  | late {slot} (h : IsPartOf target part (target slot)) : IsPartOf target part (.late slot)

section Parts

variable {part whole : Schema} {slotCount slot : Nat}

/-- The values of literals may be told less exactly. -/
theorem Grounded.mono {Fits Fits' : Value → Prop} (hs : s.Grounded Fits slotCount)
    (h : ∀ v, Fits v → Fits' v) : s.Grounded Fits' slotCount := by
  induction hs with
  | intro hliteral hlate _ ih => exact ⟨fun v shown heq => h v (hliteral v shown heq), hlate, ih⟩

/-- A late reference that the name of a type shows is among so many. -/
theorem Grounded.lt_of_cites {Fits : Value → Prop} (hs : s.Grounded Fits slotCount)
    (h : s.Cites slot) : slot < slotCount := by
  induction h with
  | late => exact hs.lt
  | part hshown hc _ ih => exact ih (hs.part _ hc)

/-- A part of a part is a part. -/
theorem IsPartOf.trans (h : part.IsPartOf target s) (hs : s.IsPartOf target whole) :
    part.IsPartOf target whole := by
  induction hs with
  | self => exact h
  | component hc _ ih => exact .component hc ih
  | late _ ih => exact .late ih

/-- What is passed on to the types in a type, and from late references to the types that they stand
for, is passed on to all parts. -/
theorem IsPartOf.inherited {P : Schema → Prop} (h : part.IsPartOf target whole) (hwhole : P whole)
    (hpart : ∀ s, P s → ∀ c ∈ s.components, P c)
    (hlate : ∀ slot, P (.late slot) → P (target slot)) : P part := by
  induction h with
  | self => exact hwhole
  | component hc _ ih => exact ih (hpart _ hwhole _ hc)
  | late _ ih => exact ih (hlate _ hwhole)

/-- The values of the literals in all parts are as told, and their late references are among so many.
-/
theorem IsPartOf.grounded {Fits : Value → Prop} (h : part.IsPartOf target whole)
    (hwhole : whole.Grounded Fits slotCount)
    (htargets : ∀ slot < slotCount, (target slot).Grounded Fits slotCount) :
    part.Grounded Fits slotCount :=
  h.inherited hwhole (fun _ hs => hs.part) fun slot hs => htargets slot hs.lt

/-- A late reference that is met in a part that is checked with the whole value is met in the whole
type. -/
theorem meets_of_parts {checks : List PartCheck} {p : PartCheck}
    (h : s.course world v = .parts checks) (hp : p ∈ checks) (hwhole : p.step = none)
    (hmeets : p.type.Meets slot) : s.Meets slot := by
  cases hasParts_of_course h with
  | irreducible | absent | func | literal => exact absurd hp List.not_mem_nil
  | present =>
    obtain rfl := List.mem_singleton.1 hp
    exact .maybe hmeets
  | intersection =>
    obtain ⟨c, hc, rfl⟩ := List.mem_map.1 hp
    exact .intersection hc hmeets
  -- All other parts are reached by a step.
  | list | variadic | tuple =>
    obtain ⟨i, hi, rfl⟩ := List.mem_mapIdx.1 hp
    cases hwhole
  | dict =>
    obtain ⟨e, -, hp⟩ := List.mem_flatMap.1 hp
    simp only [List.mem_cons, List.not_mem_nil, or_false] at hp
    rcases hp with rfl | rfl <;> cases hwhole
  | interface =>
    obtain ⟨q, -, rfl⟩ := List.mem_map.1 hp
    cases hwhole

/-- A late reference that the name of a type shows is part of it. -/
theorem Cites.isPartOf (h : s.Cites slot) : (Schema.late slot).IsPartOf target s := by
  induction h with
  | late => exact .self
  | part _ hc _ ih => exact .component hc ih

/-- A late reference that is met in a type is part of it. -/
theorem Meets.isPartOf (h : s.Meets slot) : (Schema.late slot).IsPartOf target s := by
  induction h with
  | late => exact .self
  | maybe _ ih => exact .component List.mem_cons_self ih
  | union hs _ ih => exact .component hs ih
  | intersection hs _ ih => exact .component hs ih
  | refinement _ ih => exact .component List.mem_cons_self ih

end Parts

end Schema

/-- Steps of which what is raised ends all that follows. -/
class LawfulRaise (m : Type → Type) [Monad m] [MonadExceptOf Raised m] : Prop
    extends LawfulMonad m where
  raise_bind {α β : Type} (e : Raised) (f : α → m β) : (throw e >>= f) = throw e

instance : LawfulRaise (Except Raised) where
  raise_bind _ _ := rfl

instance : LawfulRaise Run where
  raise_bind _ _ := rfl

namespace Surroundings

variable {m : Type → Type} [Monad m] [MonadExceptOf Raised m]

/-- How a step is written in the path of a mismatch. -/
def segments (cx : Surroundings m) : Option Step → m (List String)
  | none => pure []
  | some (.element i) => pure [toString i]
  | some (.key k) => do return [← cx.valueText k]
  | some (.entry k) => do return [← k.bareTextWith cx.modelText]
  | some (.property name) => pure [name]

/-- The mismatches that the checks of parts find, in order. -/
def errorsOfParts (cx : Surroundings m) (late : Nat → Value → List String → m (List Mismatch))
    (path : List String) : List PartCheck → m (List Mismatch)
  | [] => pure []
  | p :: rest => do
    let segments ← cx.segments p.step
    let first ← cx.errorsWith late p.type p.value (path ++ segments)
    return first ++ (← errorsOfParts cx late path rest)

section Lawful

variable [LawfulMonad m] {cx : Surroundings m}
  {late : Nat → Value → List String → m (List Mismatch)} {path : List String} {v : Value}

/-- Elements are checked one after the other. -/
theorem errorsFrom_eq {element : Schema} {items : List Value} {i : Nat} :
    errorsFrom (fun v path => cx.errorsWith late element v path) path i items =
      cx.errorsOfParts late path
        (items.mapIdx fun j x => ⟨some (.element (i + j)), element, x⟩) := by
  induction items generalizing i with
  | nil => rfl
  | cons x rest ih =>
    rw [errorsFrom, List.mapIdx_cons, errorsOfParts, ih]
    simp only [segments, pure_bind, Nat.add_zero, Nat.add_assoc, Nat.add_comm 1]

/-- Entries are checked one after the other, the key before the value. -/
theorem errorsOfEntries_eq {key value : Schema} {entries : List (Value × Value)} :
    cx.errorsOfEntries (fun v path => cx.errorsWith late key v path)
        (fun v path => cx.errorsWith late value v path) path entries =
      cx.errorsOfParts late path (PartCheck.ofEntries key value entries) := by
  induction entries with
  | nil => rfl
  | cons e rest ih =>
    rw [errorsOfEntries, PartCheck.ofEntries, List.flatMap_cons, ih]
    simp [errorsOfParts, segments, PartCheck.ofEntries, List.append_assoc]

/-- Properties are checked one after the other. -/
theorem errorsOfProperties_eq {props : List (String × Schema)} {entries : List (Value × Value)} :
    cx.errorsOfProperties late props entries path =
      cx.errorsOfParts late path (PartCheck.ofProperties props entries) := by
  induction props with
  | nil => rfl
  | cons p rest ih =>
    rw [errorsOfProperties, PartCheck.ofProperties, List.map_cons, errorsOfParts, ih]
    simp only [segments, pure_bind]
    rfl

/-- Types are tried one after the other. -/
theorem errorsOfAll_eq {members : List Schema} :
    cx.errorsOfAll late members v path =
      cx.errorsOfParts late path (PartCheck.ofAll members v) := by
  induction members with
  | nil => rfl
  | cons s rest ih =>
    rw [errorsOfAll, PartCheck.ofAll, List.map_cons, errorsOfParts, ih]
    simp only [segments, pure_bind, List.append_nil]
    rfl

/-- The elements of a tuple are checked one after the other. -/
theorem errorsOfEach_eq {elements : List Schema} {items : List Value} {i : Nat} :
    cx.errorsOfEach late elements items i path =
      cx.errorsOfParts late path
        ((elements.zip items).mapIdx fun j p => ⟨some (.element (i + j)), p.1, p.2⟩) := by
  induction elements generalizing items i with
  | nil => cases items <;> rfl
  | cons s rest ih =>
    cases items with
    | nil => rfl
    | cons x items =>
      rw [errorsOfEach, List.zip_cons_cons, List.mapIdx_cons, errorsOfParts, ih]
      simp only [segments, pure_bind, Nat.add_zero, Nat.add_assoc, Nat.add_comm 1]

/-- The check of a value goes on as its course tells. -/
theorem errorsWith_eq (s : Schema) :
    cx.errorsWith late s v path =
      match s.course cx.world v with
      | .fail e => throw e
      | .reject => cx.reject s v path
      | .parts checks => cx.errorsOfParts late path checks
      | .union members => do
        if ← cx.someAccepts late members v path then return [] else cx.reject s v path
      | .refinement base predicate => do
        match ← cx.errorsWith late base v path with
        | [] =>
          match cx.world.holds predicate v with
          | .error e => throw e
          | .ok holds => cx.require holds s v path
        | found => return found
      | .late slot => late slot v path := by
  have hbool (condition : Bool) : cx.require condition s v path =
      match Course.ofBool condition with
      | .parts checks => cx.errorsOfParts late path checks
      | _ => cx.reject s v path := by
    cases condition <;> rfl
  cases s with
  | irreducible name test =>
    rw [errorsWith, hbool, Schema.course]
    cases test.accepts cx.world v <;> rfl
  | maybe inner shown =>
    rw [errorsWith, Schema.course]
    split
    · rfl
    · simp [errorsOfParts, PartCheck.ofAll, segments]
  | list element container shown =>
    rw [errorsWith, Schema.course]
    cases v.elementsIn container with
    | error e => rfl
    | ok items =>
      cases items with
      | none => rfl
      | some items => exact errorsFrom_eq.trans (by simp [Course.ofParts, PartCheck.ofElements])
  | dict key value shown =>
    rw [errorsWith, Schema.course]
    cases v.entries? with
    | none => rfl
    | some entries => exact errorsOfEntries_eq
  | interface props shown =>
    rw [errorsWith, Schema.course]
    cases v.entries? with
    | none => rfl
    | some entries => exact errorsOfProperties_eq
  | union members shown => rw [errorsWith, Schema.course]
  | intersection members shown => rw [errorsWith, Schema.course, errorsOfAll_eq]
  | refinement base predicate shown => exact errorsWith.eq_def ..
  | tuple elements isVariadic shown =>
    rw [errorsWith, Schema.course]
    cases v.tuple? with
    | none => rfl
    | some items =>
      cases isVariadic with
      | true =>
        cases elements with
        | nil => rfl
        | cons element rest => exact errorsFrom_eq.trans (by simp [PartCheck.ofElements])
      | false =>
        dsimp only
        rw [if_neg Bool.false_ne_true, if_neg Bool.false_ne_true]
        split
        · exact errorsOfEach_eq.trans (by simp [PartCheck.ofEach])
        · rfl
  | func params result shown =>
    rw [errorsWith, hbool, Schema.course]
    cases cx.world.isCallable v <;> rfl
  | literal value shown =>
    rw [errorsWith, hbool, Schema.course]
    cases v.isSameLiteral value <;> rfl
  | late slot => rw [errorsWith, Schema.course]

end Lawful

end Surroundings

end Typeward
