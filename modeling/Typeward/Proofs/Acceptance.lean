import Mathlib.Data.List.Forall2
import Typeward.Schema.Validation

/-!
# What runtime types accept

`Schema.Accepts` says which values a type accepts, given the types that late references stand for:
one rule for each form of a type, without order, paths or messages. A late reference accepts what
its type accepts, so a type that refers to itself accepts what the rules derive in finitely many
steps.

The checks that are run agree with this for types and values that make sense: predicates answer, the
containers exist, nothing extends the class of the absent value, and what a message shows can be
shown.
-/

namespace Typeward

/-- The value of a property of a mapping; one that it lacks is absent. -/
def Value.property (entries : List (Value × Value)) (name : String) : Value :=
  (lookup? entries (ofText name)).getD .absent

/-- A type accepts a value, where each late reference stands for a type. -/
inductive Schema.Accepts (world : World) (target : Nat → Schema) : Schema → Value → Prop
  | irreducible {name test v} (h : test.accepts world v = true) :
      Accepts world target (.irreducible name test) v
  | absent {inner shown v} (h : v.isAbsent = true) : Accepts world target (.maybe inner shown) v
  | present {inner shown v} (h : Accepts world target inner v) :
      Accepts world target (.maybe inner shown) v
  | list {element container shown v items} (hitems : v.elementsIn container = .ok (some items))
      (h : ∀ x ∈ items, Accepts world target element x) :
      Accepts world target (.list element container shown) v
  | dict {key value shown v entries} (hentries : v.entries? = some entries)
      (hkeys : ∀ e ∈ entries, Accepts world target key e.1)
      (hvalues : ∀ e ∈ entries, Accepts world target value e.2) :
      Accepts world target (.dict key value shown) v
  | interface {props shown v entries} (hentries : v.entries? = some entries)
      (h : ∀ p ∈ props, Accepts world target p.2 (Value.property entries p.1)) :
      Accepts world target (.interface props shown) v
  | union {members shown s v} (hs : s ∈ members) (h : Accepts world target s v) :
      Accepts world target (.union members shown) v
  | intersection {members shown v} (h : ∀ s ∈ members, Accepts world target s v) :
      Accepts world target (.intersection members shown) v
  | refinement {base predicate shown v} (h : Accepts world target base v)
      (hholds : world.holds predicate v = .ok true) :
      Accepts world target (.refinement base predicate shown) v
  | repeated {element rest shown v items} (hitems : v.tuple? = some items)
      (h : ∀ x ∈ items, Accepts world target element x) :
      Accepts world target (.tuple (element :: rest) true shown) v
  | tuple {elements shown v items} (hitems : v.tuple? = some items)
      (hlength : items.length = elements.length)
      (h : ∀ p ∈ elements.zip items, Accepts world target p.1 p.2) :
      Accepts world target (.tuple elements false shown) v
  | func {params result shown v} (h : world.isCallable v = true) :
      Accepts world target (.func params result shown) v
  | literal {value shown v} (h : v.isSameLiteral value = true) :
      Accepts world target (.literal value shown) v
  | late {slot v} (h : Accepts world target (target slot) v) : Accepts world target (.late slot) v

namespace Schema

variable {world : World} {target : Nat → Schema} {shown : Option String} {v : Value}

/-- An irreducible type accepts what passes its test. -/
@[simp]
theorem accepts_irreducible {name : String} {test : Test} :
    (irreducible name test).Accepts world target v ↔ test.accepts world v = true :=
  ⟨fun | .irreducible h => h, .irreducible⟩

/-- What may be absent is absent or accepted. -/
@[simp]
theorem accepts_maybe {inner : Schema} :
    (maybe inner shown).Accepts world target v ↔
      v.isAbsent = true ∨ inner.Accepts world target v :=
  ⟨fun | .absent h => .inl h | .present h => .inr h, fun h => h.elim .absent .present⟩

/-- A list type accepts containers of its kind, all of whose elements are accepted. -/
@[simp]
theorem accepts_list {element : Schema} {container : String} :
    (list element container shown).Accepts world target v ↔
      ∃ items, v.elementsIn container = .ok (some items) ∧
        ∀ x ∈ items, element.Accepts world target x :=
  ⟨fun | .list hitems h => ⟨_, hitems, h⟩, fun ⟨_, hitems, h⟩ => .list hitems h⟩

/-- A dictionary type accepts mappings, all of whose keys and values are accepted. -/
@[simp]
theorem accepts_dict {key value : Schema} :
    (dict key value shown).Accepts world target v ↔
      ∃ entries, v.entries? = some entries ∧
        (∀ e ∈ entries, key.Accepts world target e.1) ∧
        ∀ e ∈ entries, value.Accepts world target e.2 :=
  ⟨fun | .dict hentries hkeys hvalues => ⟨_, hentries, hkeys, hvalues⟩,
    fun ⟨_, hentries, hkeys, hvalues⟩ => .dict hentries hkeys hvalues⟩

/-- An interface accepts mappings, all of whose properties are accepted. -/
@[simp]
theorem accepts_interface {props : List (String × Schema)} :
    (interface props shown).Accepts world target v ↔
      ∃ entries, v.entries? = some entries ∧
        ∀ p ∈ props, p.2.Accepts world target (Value.property entries p.1) :=
  ⟨fun | .interface hentries h => ⟨_, hentries, h⟩, fun ⟨_, hentries, h⟩ => .interface hentries h⟩

/-- A union accepts what some member accepts. -/
@[simp]
theorem accepts_union {members : List Schema} :
    (union members shown).Accepts world target v ↔ ∃ s ∈ members, s.Accepts world target v :=
  ⟨fun | .union hs h => ⟨_, hs, h⟩, fun ⟨_, hs, h⟩ => .union hs h⟩

/-- An intersection accepts what all members accept. -/
@[simp]
theorem accepts_intersection {members : List Schema} :
    (intersection members shown).Accepts world target v ↔
      ∀ s ∈ members, s.Accepts world target v :=
  ⟨fun | .intersection h => h, .intersection⟩

/-- A refinement accepts what its base accepts and its predicate holds of. -/
@[simp]
theorem accepts_refinement {base : Schema} {predicate : Value} :
    (refinement base predicate shown).Accepts world target v ↔
      base.Accepts world target v ∧ world.holds predicate v = .ok true :=
  ⟨fun | .refinement h hholds => ⟨h, hholds⟩, fun ⟨h, hholds⟩ => .refinement h hholds⟩

/-- A variadic tuple type accepts tuples, all of whose elements are accepted. -/
@[simp]
theorem accepts_repeated {element : Schema} {rest : List Schema} :
    (tuple (element :: rest) true shown).Accepts world target v ↔
      ∃ items, v.tuple? = some items ∧ ∀ x ∈ items, element.Accepts world target x :=
  ⟨fun | .repeated hitems h => ⟨_, hitems, h⟩, fun ⟨_, hitems, h⟩ => .repeated hitems h⟩

/-- A tuple type of fixed length accepts tuples of that length, each element by its own type. -/
@[simp]
theorem accepts_tuple {elements : List Schema} :
    (tuple elements false shown).Accepts world target v ↔
      ∃ items, v.tuple? = some items ∧ items.length = elements.length ∧
        ∀ p ∈ elements.zip items, p.1.Accepts world target p.2 :=
  ⟨fun | .tuple hitems hlength h => ⟨_, hitems, hlength, h⟩,
    fun ⟨_, hitems, hlength, h⟩ => .tuple hitems hlength h⟩

/-- A function type accepts what can be called. -/
@[simp]
theorem accepts_func {params : Option (List Schema)} {result : Schema} :
    (func params result shown).Accepts world target v ↔ world.isCallable v = true :=
  ⟨fun | .func h => h, .func⟩

/-- A literal type accepts values of the class of its value that are equal to it. -/
@[simp]
theorem accepts_literal {value : Value} :
    (literal value shown).Accepts world target v ↔ v.isSameLiteral value = true :=
  ⟨fun | .literal h => h, .literal⟩

/-- A late reference accepts what its type accepts. -/
@[simp]
theorem accepts_late {slot : Nat} :
    (late slot).Accepts world target v ↔ (target slot).Accepts world target v :=
  ⟨fun | .late h => h, .late⟩

end Schema

/-- A value that can occur: no class extends that of the absent value, and the runtime types in the
value are ones that can be shown. -/
inductive Value.Fit (Shows : Nat → Prop) : Value → Prop
  | constant (value) : Fit Shows (.constant value)
  | byteArray (bytes) : Fit Shows (.byteArray bytes)
  | collection {kind items} (h : ∀ x ∈ items, Fit Shows x) : Fit Shows (.collection kind items)
  | mapping {isReadOnly entries} (hkeys : ∀ e ∈ entries, Fit Shows e.1)
      (hvalues : ∀ e ∈ entries, Fit Shows e.2) : Fit Shows (.mapping isReadOnly entries)
  | range (first stop step) : Fit Shows (.range first stop step)
  | function (f) : Fit Shows (.function f)
  | ofClass (c) : Fit Shows (.ofClass c)
  | object (c) : Fit Shows (.object c)
  | derived {c content} (hcontent : content.plain ≠ .absent) (h : Fit Shows content) :
      Fit Shows (.derived c content)
  | model {number} (h : Shows number) : Fit Shows (.model number)

namespace Schema

/-- The kinds of containers that a list type can be of. -/
def containers : List String := ["list", "set", "sequence"]

/-- A type on its own, whatever its parts, can be checked and shown: its container exists, its
predicate answers for every value, its late reference is one of so many. -/
def IsRegular (world : World) (Fits : Value → Prop) (slotCount : Nat) : Schema → Prop
  | .list _ container _ => container ∈ containers
  | .refinement _ predicate _ => ∀ v, ∃ b, world.holds predicate v = .ok b
  | .tuple elements isVariadic _ => isVariadic = true → elements ≠ []
  | .literal value _ => Fits value
  | .late slot => slot < slotCount
  | _ => True

/-- A type and all types in it can be checked and shown. -/
inductive Proper (world : World) (Fits : Value → Prop) (slotCount : Nat) : Schema → Prop
  | intro {s} (hown : s.IsRegular world Fits slotCount)
      (hparts : ∀ c ∈ s.components, Proper world Fits slotCount c) : Proper world Fits slotCount s

/-- A check against a type follows a late reference with the value that it is given, and not with a
part of it. -/
inductive Meets (slot : Nat) : Schema → Prop
  | late : Meets slot (.late slot)
  | maybe {inner shown} (h : Meets slot inner) : Meets slot (.maybe inner shown)
  | union {members shown s} (hs : s ∈ members) (h : Meets slot s) :
      Meets slot (.union members shown)
  | intersection {members shown s} (hs : s ∈ members) (h : Meets slot s) :
      Meets slot (.intersection members shown)
  | refinement {base predicate shown} (h : Meets slot base) :
      Meets slot (.refinement base predicate shown)

/-- The name of a type shows that of a late reference: no display name stands before it. -/
inductive Cites (slot : Nat) : Schema → Prop
  | late : Cites slot (.late slot)
  | part {s c} (hshown : s.shown? = none) (hc : c ∈ s.components) (h : Cites slot c) : Cites slot s

section Proper

variable {world : World} {Fits : Value → Prop} {slotCount : Nat} {s : Schema}

/-- The types in a type that makes sense make sense. -/
theorem Proper.part (hs : s.Proper world Fits slotCount) {c : Schema} (hc : c ∈ s.components) :
    c.Proper world Fits slotCount := by
  cases hs with
  | intro hown hparts => exact hparts c hc

/-- The predicate of a refinement that makes sense answers. -/
theorem Proper.answers {base : Schema} {predicate : Value} {shown : Option String}
    (hs : (refinement base predicate shown).Proper world Fits slotCount) (v : Value) :
    ∃ b, world.holds predicate v = .ok b := by
  cases hs with
  | intro hown _ => exact hown v

end Proper

end Schema

namespace Value

variable {Shows : Nat → Prop} {v : Value}

-- The equations are made here, once for all lemmas that follow.
attribute [local simp] depth depthAll depthEntries

/-- The absent value can occur. -/
theorem fit_absent : absent.Fit Shows := .constant .none

/-- An element of a list is not nested deeper than the list. -/
theorem depth_le_depthAll {items : List Value} {x : Value} (h : x ∈ items) :
    x.depth ≤ depthAll items := by
  induction items with
  | nil => simp at h
  | cons y rest ih =>
    rw [depthAll]
    rcases List.mem_cons.1 h with rfl | h
    · omega
    · have := ih h
      omega

/-- An entry of a mapping is not nested deeper than the entries. -/
theorem depth_le_depthEntries {entries : List (Value × Value)} {e : Value × Value}
    (h : e ∈ entries) : e.1.depth ≤ depthEntries entries ∧ e.2.depth ≤ depthEntries entries := by
  induction entries with
  | nil => simp at h
  | cons y rest ih =>
    rw [depthEntries]
    rcases List.mem_cons.1 h with rfl | h
    · omega
    · have := ih h
      omega

/-- What a value of a class that extends a built-in one is as the latter can occur. -/
theorem Fit.plain (h : v.Fit Shows) : v.plain.Fit Shows := by
  induction h with
  | derived hcontent h ih => exact ih
  | _ => constructor <;> assumption

/-- Content is nested as deep as the value that has it. -/
theorem depth_plain (v : Value) : v.plain.depth = v.depth := by
  induction v using Value.plain.induct with
  | case1 c content ih => rw [Value.plain, ih, depth]
  | case2 v h =>
    cases v with
    | derived c content => exact absurd rfl (h c content)
    | _ => rfl

/-- Nothing but the absent value is it after extensions are left aside. -/
theorem Fit.isAbsent_iff (h : v.Fit Shows) : v.isAbsent = true ↔ v.plain = .absent := by
  cases h with
  | derived hcontent h => simp [isAbsent, Value.plain, hcontent]
  | constant value => cases value <;> simp [isAbsent, Value.plain, absent]
  | _ => simp [isAbsent, Value.plain, absent]

/-- The integers of a range are no further from zero than one of its bounds. -/
theorem natAbs_le_of_mem_rangeItems {first stop step : Int} {x : Value}
    (hx : x ∈ rangeItems first stop step) :
    ∃ n, x = ofInt n ∧ (n.natAbs ≤ first.natAbs ∨ n.natAbs ≤ stop.natAbs) := by
  obtain ⟨i, hi, rfl⟩ := List.mem_map.1 hx
  refine ⟨_, rfl, ?_⟩
  rw [List.mem_range, rangeSize] at hi
  split at hi
  · omega
  split at hi
  · rename_i hpos
    have hfit : ((i : Int) + 1) * step ≤ stop - first + step - 1 :=
      (Int.le_ediv_iff_mul_le hpos).1 (by omega)
    have hmul : 0 ≤ (i : Int) * step := Int.mul_nonneg (by omega) (by omega)
    rw [Int.add_mul] at hfit
    omega
  · rename_i hne hneg
    have hfit : ((i : Int) + 1) * (-step) ≤ first - stop - step - 1 :=
      (Int.le_ediv_iff_mul_le (by omega)).1 (by omega)
    have hmul : 0 ≤ (i : Int) * (-step) := Int.mul_nonneg (by omega) (by omega)
    rw [Int.add_mul, Int.mul_neg] at hfit
    rw [Int.mul_neg] at hmul
    omega

/-- What a check of a value goes on with: what the value contains, or the absence of a property. -/
inductive Content (v : Value) : Value → Prop
  | element {kind items x} (hplain : v.plain = .collection kind items) (hx : x ∈ items) : Content v x
  | key {isReadOnly entries e} (hplain : v.plain = .mapping isReadOnly entries) (he : e ∈ entries) :
      Content v e.1
  | entry {isReadOnly entries e} (hplain : v.plain = .mapping isReadOnly entries)
      (he : e ∈ entries) : Content v e.2
  | missing {isReadOnly entries} (hplain : v.plain = .mapping isReadOnly entries) :
      Content v .absent
  | ofRange {first stop step n} (hplain : v.plain = .range first stop step)
      (hn : n.natAbs ≤ first.natAbs ∨ n.natAbs ≤ stop.natAbs) : Content v (ofInt n)
  | byte {bytes} (hplain : v.plain = .byteArray bytes) (b : UInt8) : Content v (ofInt b.toNat)

/-- What a value that can occur contains can occur. -/
theorem Content.fit {x : Value} (h : v.Content x) (hv : v.Fit Shows) : x.Fit Shows := by
  have hfit := hv.plain
  cases h with
  | element hplain hx =>
    rw [hplain] at hfit
    cases hfit with
    | collection hitems => exact hitems x hx
  | key hplain he =>
    rw [hplain] at hfit
    cases hfit with
    | mapping hkeys hvalues => exact hkeys _ he
  | entry hplain he =>
    rw [hplain] at hfit
    cases hfit with
    | mapping hkeys hvalues => exact hvalues _ he
  | missing => exact fit_absent
  | ofRange | byte => exact .constant _

/-- What a value contains is nested less deep. -/
theorem Content.depth_lt {x : Value} (h : v.Content x) : x.depth < v.depth := by
  rw [← depth_plain v]
  cases h with
  | element hplain hx =>
    have := depth_le_depthAll hx
    rw [hplain, depth]
    omega
  | key hplain he | entry hplain he =>
    have := depth_le_depthEntries he
    rw [hplain, depth]
    omega
  | missing hplain => simp [hplain, absent]
  | ofRange hplain | byte hplain => simp [hplain, ofInt]

/-- The elements of a container are in it. -/
theorem content_of_elementsIn {container : String} {items : List Value}
    (h : v.elementsIn container = .ok (some items)) : ∀ x ∈ items, v.Content x := by
  intro x hx
  unfold elementsIn at h
  split at h
  case h_1 | h_3 | h_4 =>
    rename_i hplain
    obtain rfl := Option.some.inj (Except.ok.inj h)
    exact .element hplain hx
  case h_6 =>
    rename_i kind found hplain
    split at h
    · cases h
    · obtain rfl := Option.some.inj (Except.ok.inj h)
      exact .element hplain hx
  case h_7 =>
    rename_i hplain
    simp only [elements?, hplain, Except.ok.injEq, Option.some.injEq] at h
    subst h
    obtain ⟨n, rfl, hn⟩ := natAbs_le_of_mem_rangeItems hx
    exact .ofRange hplain hn
  case h_8 =>
    rename_i hplain
    simp only [elements?, hplain, Except.ok.injEq, Option.some.injEq] at h
    subst h
    obtain ⟨b, -, rfl⟩ := List.mem_map.1 hx
    exact .byte hplain b
  all_goals cases h

/-- A value with entries is a mapping. -/
theorem exists_eq_mapping {entries : List (Value × Value)} (h : v.entries? = some entries) :
    ∃ isReadOnly, v.plain = .mapping isReadOnly entries := by
  unfold entries? at h
  split at h
  · rename_i hplain
    obtain rfl := Option.some.inj h
    exact ⟨_, hplain⟩
  · cases h

/-- The elements of a tuple are in it. -/
theorem content_of_tuple {items : List Value} (h : v.tuple? = some items) :
    ∀ x ∈ items, v.Content x := by
  intro x hx
  unfold tuple? at h
  split at h
  · rename_i hplain
    obtain rfl := Option.some.inj h
    exact .element hplain hx
  · cases h

/-- The value of a property of a mapping is in it, or it is absent. -/
theorem content_of_property {entries : List (Value × Value)} (h : v.entries? = some entries)
    (name : String) : v.Content (property entries name) := by
  obtain ⟨isReadOnly, hplain⟩ := exists_eq_mapping h
  unfold property
  cases hfound : lookup? entries (ofText name) with
  | some x =>
    simp only [lookup?, Option.map_eq_some_iff] at hfound
    obtain ⟨e, he, rfl⟩ := hfound
    exact .entry hplain (List.mem_of_find?_eq_some he)
  | none => exact .missing hplain

/-- It can be told of every value whether it is a container of a kind that exists. -/
theorem exists_elementsIn (v : Value) {container : String} (h : container ∈ Schema.containers) :
    ∃ items, v.elementsIn container = .ok items := by
  simp only [Schema.containers, List.mem_cons, List.not_mem_nil, or_false] at h
  rcases h with rfl | rfl | rfl <;> unfold elementsIn <;> split <;> simp_all

end Value

end Typeward
