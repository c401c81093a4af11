import Typeward.Proofs.ExposedReferences
import Typeward.Proofs.PlanAccounts
import Typeward.Proofs.UnionMembers

/-!
# What is shown of inspected types

An inspected type that is a reference to a declared type shows the kind and the parts of the
definition. A definition may be a reference itself, to a type above it or to its own type if that is
recursive. Such a chain always comes to an end, but the planner follows it for one step only: what
it shows is that of the end just if the definition that is found first is no such reference.
-/

namespace Typeward

open Registry TypeExpr

/-- The expression that entries define a name as. -/
def definition? (entries : List PlanEntry) (name : String) : Option TypeExpr :=
  ((entries.filter (·.mode = .define)).find? (·.label = some name)).map (·.expr)

/-- A chain of names, each followed to its definition, ends with an expression that is no name. -/
inductive EndsIn (entries : List PlanEntry) : TypeExpr → TypeExpr → Prop
  | here {e} (h : ∀ n, e ≠ .name n) : EndsIn entries e e
  | follow {n next last} (hnext : definition? entries n = some next)
      (h : EndsIn entries next last) : EndsIn entries (.name n) last

/-- Whether an expression just refers to a type, finished or not. -/
def TypeExpr.isReference : TypeExpr → Bool
  | .name _ | .deferred _ => true
  | _ => false

section Definitions

variable {above more : List PlanEntry} {n : String} {e last : TypeExpr}

/-- A name has a definition if it is defined. -/
theorem exists_definition?_iff : (∃ e, definition? above n = some e) ↔ n ∈ definedNames above := by
  simp only [definition?, definedNames, List.mem_filterMap, Option.map_eq_some_iff]
  constructor
  · rintro ⟨e, entry, hfound, -⟩
    have hlabel := List.find?_some hfound
    exact ⟨entry, List.mem_of_find?_eq_some hfound, by simpa using hlabel⟩
  · rintro ⟨entry, hentry, hlabel⟩
    have hsome : ((above.filter (·.mode = .define)).find? (·.label = some n)).isSome := by
      rw [List.find?_isSome]
      exact ⟨entry, hentry, by simpa using hlabel⟩
    obtain ⟨found, hfound⟩ := Option.isSome_iff_exists.1 hsome
    exact ⟨found.expr, found, hfound, rfl⟩

/-- A definition is the expression of an entry. -/
theorem exists_entry_of_definition? (h : definition? above n = some e) :
    ∃ (i : Nat) (entry : PlanEntry), above[i]? = some entry ∧ entry.mode = .define ∧
      entry.expr = e := by
  obtain ⟨entry, hfound, rfl⟩ := Option.map_eq_some_iff.1 h
  obtain ⟨hmem, hmode⟩ := List.mem_filter.1 (List.mem_of_find?_eq_some hfound)
  obtain ⟨i, hi⟩ := List.mem_iff_getElem?.1 hmem
  exact ⟨i, entry, hi, by simpa using hmode, rfl⟩

/-- Entries below change no definition. -/
theorem definition?_append (h : definition? above n = some e) :
    definition? (above ++ more) n = some e := by
  obtain ⟨entry, hfound, rfl⟩ := Option.map_eq_some_iff.1 h
  simp [definition?, hfound]

/-- Entries below change no end of a chain. -/
theorem EndsIn.append (h : EndsIn above e last) : EndsIn (above ++ more) e last := by
  induction h with
  | here h => exact .here h
  | follow hnext _ ih => exact .follow (definition?_append hnext) ih

/-- A chain ends with no name. -/
theorem EndsIn.ne_name (h : EndsIn above e last) (m : String) : last ≠ .name m := by
  induction h with
  | here h => exact h m
  | follow _ _ ih => exact ih

/-- What holds of an expression and of all definitions holds of what the chain ends with. -/
theorem EndsIn.induct {P : TypeExpr → Prop} (h : EndsIn above e last)
    (hdefinitions : ∀ n next, definition? above n = some next → P next) (he : P e) : P last := by
  induction h with
  | here => exact he
  | follow hnext _ ih => exact ih (hdefinitions _ _ hnext)

/-- In entries that are well scoped every chain comes to an end: a definition names only types that
are defined above it. -/
theorem WellScoped.exists_endsIn {bindings : List Binding} {entries : List PlanEntry}
    (hscoped : WellScoped bindings [] entries) (i : Nat)
    (he : ∀ n, e = .name n → n ∈ definedNames (entries.take i)) :
    ∃ last, EndsIn (entries.take i) e last := by
  -- The definition of a name stands at a smaller number than the name.
  induction i using Nat.strongRecOn generalizing e with
  | ind i ih =>
    by_cases hname : ∃ n, e = .name n
    · obtain ⟨n, rfl⟩ := hname
      obtain ⟨next, hnext⟩ := exists_definition?_iff.2 (he n rfl)
      obtain ⟨j, entry, hj, -, rfl⟩ := exists_entry_of_definition? hnext
      have hlt : j < i := by
        have := (List.getElem?_eq_some_iff.1 hj).1
        simp at this
        omega
      have hentry : entries[j]? = some entry := by
        rw [← hj, List.getElem?_take_of_lt hlt]
      have habove : ∀ m, entry.expr = .name m → m ∈ definedNames (entries.take j) := by
        intro m hm
        have hform := hscoped j entry hentry
        rw [hm] at hform
        cases hform with
        | name h => exact h
      obtain ⟨last, hlast⟩ := ih j hlt habove
      obtain ⟨more, hmore⟩ : entries.take j <+: entries.take i :=
        List.take_prefix_take_left (Nat.le_of_lt hlt)
      rw [← hmore] at hnext ⊢
      exact ⟨last, .follow hnext hlast.append⟩
    · exact ⟨e, .here fun n hn => hname ⟨n, hn⟩⟩

end Definitions

section Building

variable {r : Registry} {t : StaticType} {e : TypeExpr}

/-- An expression refers to a type or has the kind of a combinator. -/
def TypeExpr.HasKind (e : TypeExpr) : Prop :=
  e.isReference = true ∨ ∃ c : Combinator, e.kind = c.name

/-- What is built is a reference or has the kind of a combinator. -/
theorem BuiltForm.hasKind (h : BuiltForm e) : e.HasKind := by
  cases h with
  | name | deferred => exact .inl rfl
  | primitive => exact .inr ⟨.primitive, rfl⟩
  | classCheck | delayed => exact .inr ⟨.irreducible, rfl⟩
  | _ => exact .inr ⟨_, rfl⟩

/-- A display name changes nothing of what is shown. -/
theorem shown_named (e : TypeExpr) (shown : String) :
    (e.named shown).kind = e.kind ∧ (e.named shown).components = e.components ∧
      (e.named shown).isReference = e.isReference := by
  unfold TypeExpr.named
  split <;> exact ⟨rfl, rfl, rfl⟩

/-- No combinator has the kind of a reference. -/
theorem isReference_eq_false_of_kind {c : Combinator} (h : e.kind = c.name) :
    e.isReference = false := by
  cases e with
  | name | deferred =>
    have hother : ∀ c ∈ Combinator.all, c.name ≠ "nameref" ∧ c.name ≠ "deferredref" := by decide
    have hall : c ∈ Combinator.all := by cases c <;> decide
    simp [TypeExpr.kind, (hother c hall).1.symm, (hother c hall).2.symm] at h
  | _ => rfl

/-- A reference to a type is built to the name of the type just if it is finished. -/
theorem lookup_eq_name_iff {n : String} {location : Option Location} {name : String} :
    r.lookup name location = .ok (.name n) ↔
      name = n ∧ ∃ known, r.get? n = some known ∧ known.isComplete = true := by
  constructor
  · intro h
    rcases lookup_cases h with ⟨known, hget, ⟨hcomplete, heq⟩ | ⟨-, -, heq⟩⟩ |
      ⟨-, ⟨b, -, ⟨-, heq⟩ | ⟨-, heq⟩⟩ | ⟨-, -, heq⟩⟩
    · obtain rfl := TypeExpr.name.inj heq
      exact ⟨rfl, known, hget, hcomplete⟩
    all_goals cases heq
  · rintro ⟨rfl, known, hget, hcomplete⟩
    simp [Registry.lookup, hget, hcomplete]

/-- What is joined is the name of a type just if it is that name alone and always there. -/
theorem joined_eq_name_iff {isOptional : Bool} {es : List TypeExpr} {n : String} :
    joined isOptional es = .name n ↔ isOptional = false ∧ es = [.name n] := by
  unfold joined
  cases isOptional <;> rcases es with _ | ⟨e, _ | ⟨e', es⟩⟩ <;> simp [TypeExpr.combine]

/-- A type is built to the name of a finished type just if it is a reference to that, up to unions
with nothing else in them. -/
theorem build_eq_name_iff {n : String} :
    (build r t).outcome = .ok (.name n) ↔
      (∃ known, r.get? n = some known ∧ known.isComplete = true) ∧
        ∃ arguments location, t.leaves = [.reference n arguments location] := by
  by_cases ht : ∃ location, t = .literal .none location
  · obtain ⟨location, rfl⟩ := ht
    simp [build, shape, Shape.toExpr, TypeExpr.combine, StaticType.leaves]
  · rw [build_eq_joined fun location heq => ht ⟨location, heq⟩]
    simp only [Built.outcome_bind_eq_ok, Built.outcome_pure, Except.ok.injEq, joined_eq_name_iff]
    constructor
    · rintro ⟨es, hes, habsent, rfl⟩
      have hleaves : t.present = t.leaves := by
        refine List.filter_eq_self.2 fun u hu => ?_
        have hnone := List.any_eq_false.1 habsent u hu
        simpa using hnone
      obtain ⟨shapes, ⟨hlength, hshapes⟩, hexprs⟩ := shaped_of_all hes
      obtain ⟨s, rfl, hs⟩ := List.map_eq_singleton_iff.1 hexprs.symm
      obtain ⟨u, hu⟩ := List.length_eq_one_iff.1 hlength
      rw [hu] at hshapes
      have hshaped : Shaped r u s := hshapes (u, s) (by simp)
      have hleaf : u.isAlternative = false := by
        apply t.isAlternative_of_mem_leaves
        rw [← hleaves, hu]
        exact List.mem_singleton_self u
      cases hshaped with
      | nullable | union => cases hleaf
      | reference hlookup =>
        obtain rfl : _ = TypeExpr.name n := hs
        obtain ⟨rfl, hknown⟩ := lookup_eq_name_iff.1 hlookup
        exact ⟨hknown, _, _, hleaves.symm.trans hu⟩
      | _ => cases hs
    · rintro ⟨hknown, arguments, location, hleaves⟩
      have hlookup : r.lookup n location = .ok (.name n) := lookup_eq_name_iff.2 ⟨rfl, hknown⟩
      refine ⟨[.name n], ?_, ?_, rfl⟩
      · have hpresent : t.present = [.reference n arguments location] := by
          simp [StaticType.present, hleaves, StaticType.isNone]
        have hshaped : ShapedAll r [.reference n arguments location] [.single (.name n) false] :=
          .cons (.reference hlookup) (.nil r)
        rw [hpresent]
        exact outcome_shapeAll hshaped.1 fun p hp => (hshaped.2 p hp).outcome
      · simp [StaticType.mayBeAbsent, hleaves, StaticType.isNone]

/-- What is shown of an inspected type: of the name of a declared type its definition, of anything
else itself. -/
theorem definition_of_reify {x : TypeExpr} (h : (reify r t).outcome = .ok x) :
    ∃ e definition, (build r t).outcome = .ok e ∧
      x = .reified e definition.kind definition.components ∧
      ((∀ n, e ≠ .name n) → definition = e) ∧
      ∀ n, e = .name n → r.contains n = true → r.resolve e = .ok definition := by
  rw [reify, Built.outcome_bind_eq_ok] at h
  obtain ⟨e, he, h⟩ := h
  dsimp only at h
  split at h
  · rename_i name
    split at h
    · simp only [Built.outcome_bind_eq_ok, Built.outcome_ofExcept, Built.outcome_pure,
        Except.ok.injEq] at h
      obtain ⟨definition, hdefinition, rfl⟩ := h
      exact ⟨_, definition, he, rfl, fun hne => absurd rfl (hne name), fun _ _ _ => hdefinition⟩
    · rename_i hunknown
      obtain rfl := Except.ok.inj h
      refine ⟨_, _, he, rfl, fun _ => rfl, fun n heq hknown => ?_⟩
      obtain rfl := TypeExpr.name.inj heq
      exact absurd hknown hunknown
  · rename_i hother
    obtain rfl := Except.ok.inj h
    exact ⟨e, e, he, rfl, fun _ => rfl, fun n heq _ => absurd heq (hother n)⟩

end Building

section Plans

variable {bindings : List Binding} {reserved : List String} {above entries : List PlanEntry}
  {r r' : Registry} {number : Nat} {ds : List Declaration} {n : String}

/-- The types that entries make known are those that they define, each with the expression of its
definition. -/
def KnownAsDefined (entries : List PlanEntry) : Prop :=
  (entries.filterMap PlanEntry.known?).map (fun known => (some known.name, known.expr)) =
    (entries.filter (·.mode = .define)).map fun entry => (entry.label, some entry.expr)

/-- The definition of a name is what the registry knows of it. -/
theorem KnownAsDefined.definition?_eq (h : KnownAsDefined above) (bindings : List Binding)
    (reserved : List String) (n : String) :
    definition? above n = ((registryAfter bindings reserved above).get? n).bind (·.expr) := by
  have hfound := congrArg (List.find? fun known => known.1 = some n) h
  have hname : ((fun known => decide (known.1 = some n)) ∘ fun known : Entry =>
      (some known.name, known.expr)) = fun known => known.name == n := by
    funext known
    simp [beq_eq_decide]
  rw [List.find?_map, List.find?_map, hname] at hfound
  have hexpr := congrArg (fun found => found.bind Prod.snd) hfound
  simp only [Option.bind_map] at hexpr
  calc definition? above n
      = ((above.filter (·.mode = .define)).find? (·.label = some n)).bind
          fun entry => some entry.expr := by rw [definition?, Option.map_eq_bind]; rfl
    _ = ((above.filterMap PlanEntry.known?).find? (·.name == n)).bind (·.expr) := hexpr.symm
    _ = _ := rfl

/-- Entries after others are known as they are defined if both are. -/
theorem KnownAsDefined.append (habove : KnownAsDefined above) (h : KnownAsDefined entries) :
    KnownAsDefined (above ++ entries) := by
  rw [KnownAsDefined, List.filterMap_append, List.map_append, habove, h, List.filter_append,
    List.map_append]

/-- An entry shows an inspected type that is built against a registry which knows just what is
defined above. -/
structure PlanEntry.Reifies (bindings : List Binding) (reserved : List String)
    (above : List PlanEntry) (entry : PlanEntry) (d : ReifyDeclaration) : Prop where
  site : entry.site = .reify d
  known : KnownAsDefined above
  builds : (reify ((registryAfter bindings reserved above).evaluatedAt d.location) d.type).outcome =
    .ok entry.expr

/-- The entries of a run for inspected types show these. -/
theorem PlanRun.exists_reifies (h : PlanRun r number ds entries r')
    (hr : r = registryAfter bindings reserved above) (hknown : KnownAsDefined above) {i : Nat}
    {entry : PlanEntry} (hentry : entries[i]? = some entry) (hmode : entry.mode = .reify) :
    ∃ d, entry.Reifies bindings reserved (above ++ entries.take i) d := by
  induction h generalizing above i with
  | nil => simp at hentry
  | @cons r number d ds first r₁ more r₂ hstep hrun ih =>
    subst hr
    obtain ⟨haccounts, hr₁⟩ := hstep.accounts
    by_cases hi : i < first.length
    · rw [List.getElem?_append_left hi] at hentry
      cases hstep with
      | reify hbuild =>
        obtain rfl : i = 0 := by simpa using hi
        obtain rfl := Option.some.inj hentry
        rw [List.take_zero, List.append_nil]
        exact ⟨_, rfl, hknown, hbuild⟩
      | function h =>
        obtain ⟨p, -, t, e, -, -, rfl⟩ := exists_mem_of_forall₂ h (List.mem_of_getElem? hentry)
        cases hmode
      | cast | define =>
        obtain rfl := List.mem_singleton.1 (List.mem_of_getElem? hentry)
        cases hmode
    · rw [List.getElem?_append_right (Nat.le_of_not_lt hi)] at hentry
      have htake : (first ++ more).take i = first ++ more.take (i - first.length) := by
        rw [List.take_append, List.take_of_length_le (Nat.le_of_not_lt hi)]
      rw [htake, ← List.append_assoc]
      exact ih hr₁ (hknown.append haccounts.known.2) hentry

/-- All types that are known after entries are complete, with expressions. -/
theorem of_get?_registryAfter {known : Entry}
    (h : (registryAfter bindings reserved above).get? n = some known) :
    known.state = .complete ∧ ∃ e, known.expr = some e := by
  obtain ⟨entry, -, hentry⟩ := List.mem_filterMap.1 (List.mem_of_find?_eq_some h)
  exact ⟨(PlanEntry.of_known? hentry).1, entry.expr, (PlanEntry.of_known? hentry).2⟩

/-- Where types are known as they are defined, the names of the defined ones are complete. -/
theorem KnownAsDefined.mem_definedNames_iff (h : KnownAsDefined above) (bindings : List Binding)
    (reserved : List String) (n : String) :
    n ∈ definedNames above ↔
      ∃ known, (registryAfter bindings reserved above).get? n = some known ∧
        known.isComplete = true := by
  simp only [← exists_definition?_iff, h.definition?_eq bindings reserved, Option.bind_eq_some_iff]
  constructor
  · rintro ⟨e, known, hget, -⟩
    exact ⟨known, hget, by simp [Entry.isComplete, (of_get?_registryAfter hget).1]⟩
  · rintro ⟨known, hget, -⟩
    obtain ⟨e, he⟩ := (of_get?_registryAfter hget).2
    exact ⟨e, known, hget, he⟩

/-- What an entry for an inspected type shows: the type itself or, if that is built to a name, its
definition. -/
theorem PlanEntry.Reifies.exists_shown {entry : PlanEntry} {d : ReifyDeclaration}
    (h : entry.Reifies bindings reserved above d) :
    ∃ e shown, entry.expr = .reified e shown.kind shown.components ∧ BuiltForm e ∧
      (∀ n, e = .name n ↔ n ∈ definedNames above ∧
        ∃ arguments location, d.type.leaves = [.reference n arguments location]) ∧
      (∀ n, e = .name n → definition? above n = some shown) ∧
      ((∀ n, e ≠ .name n) → shown = e) := by
  obtain ⟨e, shown, hbuild, hexpr, hself, hresolve⟩ := definition_of_reify h.builds
  have hname (n : String) : e = .name n ↔ n ∈ definedNames above ∧
      ∃ arguments location, d.type.leaves = [.reference n arguments location] := by
    have hknown := h.known.mem_definedNames_iff bindings reserved n
    have hiff : (build ((registryAfter bindings reserved above).evaluatedAt d.location)
        d.type).outcome = .ok (.name n) ↔ _ := build_eq_name_iff
    rw [hbuild, Except.ok.injEq] at hiff
    rw [hiff, hknown]
    rfl
  refine ⟨e, shown, hexpr, builtForm_of_build hbuild, hname, fun n hn => ?_, hself⟩
  obtain ⟨next, hnext⟩ := exists_definition?_iff.2 ((hname n).1 hn).1
  have hget := h.known.definition?_eq bindings reserved n
  rw [hnext] at hget
  obtain ⟨found, hfound, hexpr⟩ := Option.bind_eq_some_iff.1 hget.symm
  have hsite : ((registryAfter bindings reserved above).evaluatedAt d.location).get? n =
      some found := hfound
  have hcontains : ((registryAfter bindings reserved above).evaluatedAt d.location).contains n =
      true := by
    rw [Registry.contains, hsite, Option.isSome_some]
  have hshown := hresolve n hn hcontains
  simp only [hn, Registry.resolve, hsite, (of_get?_registryAfter hfound).1, hexpr,
    Except.ok.injEq] at hshown
  rw [hnext, hshown]

end Plans

/-- What is shown of an inspected type, given the entries above: the expression that it is built to,
and another one whose kind and parts are shown. -/
structure Shows (above : List PlanEntry) (t : StaticType) (e shown : TypeExpr) : Prop where
  /-- The expression is a name just if the type is a reference to a type that is defined above, up
  to unions with nothing else in them. -/
  name_iff : ∀ n, e = .name n ↔
    n ∈ definedNames above ∧ ∃ arguments location, t.leaves = [.reference n arguments location]
  /-- For a name its definition is shown. -/
  definition : ∀ n, e = .name n → definition? above n = some shown
  /-- Anything else is shown itself, and is no reference. -/
  self : (∀ n, e ≠ .name n) → shown = e ∧ e.isReference = false
  /-- The chain of definitions comes to an end, and what is shown is that of the end just if it is
  not shown of one more name. -/
  last : ∃ last, EndsIn above e last ∧
    ((shown.kind = last.kind ∧ shown.components = last.components) ↔ ∀ n, shown ≠ .name n)
  /-- The kind is that of a combinator just if it is not shown of a reference. -/
  kind : (∃ c : Combinator, shown.kind = c.name) ↔ shown.isReference = false

section Ends

variable {above : List PlanEntry} {e shown last : TypeExpr}

/-- The kind of an expression that is a reference or has the kind of a combinator tells which. -/
theorem TypeExpr.HasKind.exists_combinator_iff (h : e.HasKind) :
    (∃ c : Combinator, e.kind = c.name) ↔ e.isReference = false := by
  constructor
  · rintro ⟨c, hc⟩
    exact isReference_eq_false_of_kind hc
  · intro hreference
    rcases h with h | h
    · simp [hreference] at h
    · exact h

/-- A name has no kind in common with what is no name. -/
theorem TypeExpr.HasKind.kind_ne (h : last.HasKind) (hname : ∀ n, last ≠ .name n) (n : String) :
    (TypeExpr.name n).kind ≠ last.kind := by
  intro heq
  rcases h with h | ⟨c, hc⟩
  · cases last with
    | name m => exact hname m rfl
    | deferred m => simp [TypeExpr.kind] at heq
    | _ => cases h
  · have hreference := isReference_eq_false_of_kind (heq.trans hc)
    cases hreference

/-- What is shown is what the chain ends with, just if it is not shown of one more name. -/
theorem EndsIn.shown_iff (h : EndsIn above e last) (he : e.HasKind)
    (hdefinitions : ∀ n next, definition? above n = some next → next.HasKind)
    (hnext : ∀ n, e = .name n → definition? above n = some shown)
    (hself : (∀ n, e ≠ .name n) → shown = e) :
    (shown.kind = last.kind ∧ shown.components = last.components) ↔ ∀ n, shown ≠ .name n := by
  have hlast : last.HasKind := h.induct hdefinitions he
  constructor
  · rintro ⟨hkind, -⟩ n rfl
    exact hlast.kind_ne h.ne_name n hkind
  · intro hne
    have hsame : shown = last := by
      cases h with
      | here h => exact hself h
      | follow hn h =>
        obtain rfl := Option.some.inj ((hnext _ rfl).symm.trans hn)
        cases h with
        | here => rfl
        | follow => exact absurd rfl (hne _)
    exact ⟨congrArg kind hsame, congrArg components hsame⟩

end Ends

/-- The definitions in a plan are references or have the kinds of combinators. -/
theorem hasKind_of_definition? {bindings : List Binding} {reserved : List String}
    {declarations : List Declaration} {p : Plan} {r : Registry}
    (h : plan (Registry.ofModule bindings reserved) declarations = .ok (p, r)) {i : Nat}
    {n : String} {e : TypeExpr} (he : definition? (p.entries.take i) n = some e) : e.HasKind := by
  obtain ⟨j, entry, hj, hmode, rfl⟩ := exists_entry_of_definition? he
  have hentry : p.entries[j]? = some entry := by
    rw [List.getElem?_take] at hj
    split at hj
    · exact hj
    · cases hj
  obtain ⟨d, known, declared, e, hdefines⟩ := exists_defines_of_plan h hentry hmode
  obtain ⟨hkind, -, hreference⟩ := shown_named e d.name
  rw [hdefines.expr, HasKind, hkind, hreference]
  exact (builtForm_of_build hdefines.builds).hasKind

/-- A plan shows, of every type that is inspected, the kind and the parts of the expression that it
is built to or, where that is the name of a type, of the definition of the type. They are those of
the definition at the end of the chain of definitions just if the first one is no name, and the kind
is that of a combinator just if the first one is no reference to any type. -/
theorem plan_shows {bindings : List Binding} {reserved : List String}
    {declarations : List Declaration} {p : Plan} {r : Registry}
    (h : plan (Registry.ofModule bindings reserved) declarations = .ok (p, r)) {i : Nat}
    {entry : PlanEntry} (hentry : p.entries[i]? = some entry) (hmode : entry.mode = .reify) :
    ∃ d e shown, entry.site = .reify d ∧
      entry.expr = .reified e shown.kind shown.components ∧
      Shows (p.entries.take i) d.type e shown := by
  have hrun := planRun_of_plan h
  have hscoped := hrun.wellScoped (.ofModule bindings reserved)
  have hstart : Registry.ofModule bindings reserved = registryAfter bindings reserved [] := rfl
  have hnone : KnownAsDefined [] := rfl
  obtain ⟨d, hreifies⟩ := hrun.exists_reifies hstart hnone hentry hmode
  rw [List.nil_append] at hreifies
  obtain ⟨e, shown, hexpr, hform, hname, hnext, hself⟩ := hreifies.exists_shown
  have hreference (hne : ∀ n, e ≠ .name n) : e.isReference = false := by
    have hentryScoped := hscoped i entry hentry
    rw [hexpr] at hentryScoped
    cases hentryScoped with
    | reified he =>
      cases he with
      | name => exact absurd rfl (hne _)
      | deferred hlate =>
        -- Only the definition of a type refers to a type that is not finished.
        have hdefine : entry.mode = .define := hlate.1
        rw [hmode] at hdefine
        cases hdefine
      | _ => rfl
  have hdefinitions (n : String) (next : TypeExpr)
      (hfound : definition? (p.entries.take i) n = some next) : next.HasKind :=
    hasKind_of_definition? h hfound
  have hshown : shown.HasKind := by
    by_cases hn : ∃ n, e = .name n
    · obtain ⟨n, hn⟩ := hn
      exact hdefinitions n shown (hnext n hn)
    · rw [hself fun n heq => hn ⟨n, heq⟩]
      exact hform.hasKind
  obtain ⟨last, hlast⟩ := hscoped.exists_endsIn i fun n hn => ((hname n).1 hn).1
  exact ⟨d, e, shown, hreifies.site, hexpr,
    { name_iff := hname
      definition := hnext
      self := fun hne => ⟨hself hne, hreference hne⟩
      last := ⟨last, hlast, hlast.shown_iff hform.hasKind hdefinitions hnext hself⟩
      kind := hshown.exists_combinator_iff }⟩

/-- A type, another name for it and another name for that; and two inspected types, by the first and
by the last of the names. -/
def friendDeclarations : List Declaration :=
  [.type ⟨"Person", .dict (.primitive "str" none) (.primitive "int" none) none, false, true, none⟩,
    .type ⟨"Friend", .reference "Person" [] none, false, true, none⟩,
    .type ⟨"Guest", .reference "Friend" [] none, false, true, none⟩,
    .reify ⟨"FriendModel", .reference "Person" [] none, none⟩,
    .reify ⟨"GuestModel", .union [.reference "Guest" [] none] none, none⟩]

/-- By its own name the type is shown as the dictionary type that it is, by the other one as nothing
but a name. -/
theorem plan_shows_friend : ∃ p r,
    plan (Registry.ofModule [] []) friendDeclarations = .ok (p, r) ∧
    ∃ person friend guest first second, p.entries = [person, friend, guest, first, second] ∧
      first.expr = .reified (.name "Person") "dict" [.primitive "Str", .primitive "Int"] ∧
      second.expr = .reified (.name "Guest") "nameref" [] ∧
      EndsIn [person, friend, guest, first] (.name "Guest")
        (.call .dict [.primitive "Str", .primitive "Int"] (some "Person") []) ∧
      ∃ d e shown, second.site = .reify d ∧
        second.expr = .reified e shown.kind shown.components ∧
        Shows [person, friend, guest, first] d.type e shown := by
  have hplan : ∃ p r, plan (Registry.ofModule [] []) friendDeclarations = .ok (p, r) ∧
      ∃ person friend guest first second, p.entries = [person, friend, guest, first, second] ∧
        second.mode = .reify ∧
        first.expr = .reified (.name "Person") "dict" [.primitive "Str", .primitive "Int"] ∧
        second.expr = .reified (.name "Guest") "nameref" [] ∧
        EndsIn [person, friend, guest, first] (.name "Guest")
          (.call .dict [.primitive "Str", .primitive "Int"] (some "Person") []) :=
    ⟨_, _, rfl, _, _, _, _, _, rfl, rfl, rfl, rfl,
      .follow rfl (.follow rfl (.follow rfl (.here nofun)))⟩
  obtain ⟨p, r, hplan, person, friend, guest, first, second, hentries, hmode, hfirst, hsecond,
    hends⟩ := hplan
  have hentry : p.entries[4]? = some second := by rw [hentries]; rfl
  have hshows := plan_shows hplan hentry hmode
  rw [hentries] at hshows
  exact ⟨p, r, hplan, person, friend, guest, first, second, hentries, hfirst, hsecond, hends,
    hshows⟩

end Typeward
