import Typeward.Proofs.Descriptions
import Typeward.Proofs.Plannability

/-!
# Faults of the planner

A type that cannot be built has a type in it that is refused on its own: a primitive type that the
runtime library does not have, a name that does not resolve, or a marker that refines nothing. The
fault lies where that type was written. Apart from these, the planner refuses only types that are
declared twice or not on top level, and these faults lie where the declaration does.

All these faults are stated, with one exception. A fault about a marker describes the type around
it, and that may have no description.
-/

namespace Typeward

open Registry StaticType

/-- One build after another fails when the first one does, or else the second one. -/
@[simp]
theorem Built.outcome_bind_eq_error {α β : Type} {x : Built α} {f : α → Built β} {fault : Fault} :
    (x >>= f).outcome = .error fault ↔
      x.outcome = .error fault ∨ ∃ a, x.outcome = .ok a ∧ (f a).outcome = .error fault := by
  change (Built.bind x f).outcome = .error fault ↔ _
  unfold Built.bind
  cases x.outcome <;> simp

/-- A build fails whatever is made of its answer. -/
theorem Built.outcome_bind_pure_eq_error {α β : Type} {x : Built α} {f : α → β} {fault : Fault} :
    (x >>= fun a => pure (f a)).outcome = .error fault ↔ x.outcome = .error fault := by
  simp

/-- A type is refused, whatever its parts are, with a fault that lies where it was written. -/
inductive Registry.Refuses (r : Registry) : StaticType → Fault → Prop
  | primitive {name location} (h : runtimePrimitives.lookup name = none) :
      Refuses r (.primitive name location)
        ⟨.unsupported ("primitive type '" ++ name ++ "'"), location, none⟩
  | reference {name arguments location fault} (h : r.lookup name location = .error fault) :
      Refuses r (.reference name arguments location) fault
  | marker (predicate location) :
      Refuses r (.marker predicate location)
        ⟨.unsupported ("Refinement[" ++ predicate ++ "] outside a two-operand intersection"),
          location, none⟩
  | intersection {members location text}
      (h : (StaticType.intersection members location).describe = some text) :
      Refuses r (.intersection members location)
        ⟨.unsupported ("refinement in '" ++ text ++
          "' (expected exactly one type and one predicate)"), location, none⟩
  | undescribed {members location} (hmarker : ∃ m ∈ members, m.isMarker = true)
      (h : (StaticType.intersection members location).describe = none) :
      Refuses r (.intersection members location) ⟨.undescribed, location, none⟩

section Lookup

variable {r : Registry} {name : String} {location : Option Location} {fault : Fault}

/-- Why a name does not resolve: it is that of a type which refers to itself without being marked,
that of a module, or nothing has it. -/
theorem lookup_eq_error (h : r.lookup name location = .error fault) :
    fault = ⟨.unresolvedRecursion name, location, none⟩ ∨
      fault = ⟨.unsupported ("module '" ++ name ++ "' used as a type"), location, none⟩ ∨
      (r.get? name = none ∧ r.binding? (rootOf name) = none ∧ name ∉ builtinClasses ∧
        fault = .unresolved name location r.knownNames) := by
  unfold lookup at h
  split at h
  · split at h
    · cases h
    · split at h
      · cases h
      · exact .inl (Except.error.inj h).symm
  · rename_i hget
    dsimp only at h
    split at h
    · split at h
      · exact .inr (.inl (Except.error.inj h).symm)
      · split at h <;> cases h
    · rename_i hbinding
      split at h
      · cases h
      · rename_i hbuiltin
        have hname : name ∉ builtinClasses := fun hmem => hbuiltin (List.contains_iff_mem.2 hmem)
        exact .inr (.inr ⟨hget, hbinding, hname, (Except.error.inj h).symm⟩)

/-- The fault of a name that does not resolve lies where the name was written. -/
theorem location_of_lookup (h : r.lookup name location = .error fault) :
    fault.location = location := by
  rcases lookup_eq_error h with rfl | rfl | ⟨-, -, -, rfl⟩ <;> rfl

/-- The fault of a type that is refused lies where the type was written. -/
theorem Registry.Refuses.location_eq {t : StaticType} (h : r.Refuses t fault) :
    fault.location = t.location := by
  cases h with
  | reference h => exact location_of_lookup h
  | primitive | marker | intersection | undescribed => rfl

/-- The fault of a type that is refused does not know the line of source that it points into. -/
theorem Registry.Refuses.sourceLine_eq {t : StaticType} (h : r.Refuses t fault) :
    fault.sourceLine = none := by
  cases h with
  | reference h => rcases lookup_eq_error h with rfl | rfl | ⟨-, -, -, rfl⟩ <;> rfl
  | primitive | marker | intersection | undescribed => rfl

/-- A type that is refused for a name that nothing has is a reference to that name. -/
theorem Registry.Refuses.of_unresolved {t : StaticType} {suggestions : List String}
    (h : r.Refuses t fault) (hcause : fault.cause = .unresolvedType name suggestions) :
    (∃ arguments location, t = .reference name arguments location) ∧
      r.get? name = none ∧ r.binding? (rootOf name) = none ∧ name ∉ builtinClasses := by
  cases h with
  | reference h =>
    rcases lookup_eq_error h with rfl | rfl | ⟨hget, hbinding, hbuiltin, rfl⟩
    · cases hcause
    · cases hcause
    · obtain ⟨rfl, -⟩ := Cause.unresolvedType.inj hcause
      exact ⟨⟨_, _, rfl⟩, hget, hbinding, hbuiltin⟩
  | primitive | marker | intersection | undescribed => cases hcause

end Lookup

/-- A type has a type in it, possibly itself, that is refused. -/
def Registry.RefusesIn (r : Registry) (t : StaticType) (fault : Fault) : Prop :=
  ∃ u, Includes u t ∧ r.Refuses u fault

/-- In a type a marker stands in an intersection whose description would show an integer that is too
long. -/
def StaticType.Undescribed (t : StaticType) : Prop :=
  ∃ members location, Includes (.intersection members location) t ∧
    (∃ m ∈ members, m.isMarker = true) ∧
    ∃ n, isOverlong n = true ∧ (StaticType.intersection members location).ShowsInteger n

/-- A type is refused with a fault that is stated, unless the fault would describe it and it has no
description. -/
theorem Registry.RefusesIn.undescribed {r : Registry} {t : StaticType} {fault : Fault}
    (h : r.RefusesIn t fault) (hstated : fault.isStated = false) : t.Undescribed := by
  obtain ⟨u, hu, hrefuses⟩ := h
  cases hrefuses with
  | primitive | marker | intersection => simp [Fault.isStated] at hstated
  | reference h =>
    rcases lookup_eq_error h with rfl | rfl | ⟨-, -, -, rfl⟩ <;>
      simp [Fault.isStated, Fault.unresolved] at hstated
  | undescribed hmarker h =>
    exact ⟨_, _, hu, hmarker, (StaticType.describe_eq_none_iff _).1 h⟩

section Building

variable {r : Registry} {fault : Fault}

/-- What is refused in a part of a type is refused in the type. -/
theorem Registry.RefusesIn.part {t p : StaticType} (h : r.RefusesIn p fault) (hp : p ∈ t.parts) :
    r.RefusesIn t fault := by
  obtain ⟨u, hu, hrefuses⟩ := h
  exact ⟨u, .part hp hu, hrefuses⟩

mutual

/-- The builder fails with the fault of a type that is refused. -/
theorem refusesIn_of_shape : {t : StaticType} → (shape r t).outcome = .error fault →
    r.RefusesIn t fault
  | .primitive name location, h => by
    rw [shape] at h
    split at h
    · cases h
    · rename_i hlookup
      obtain rfl := Except.error.inj h
      exact ⟨_, .self, .primitive hlookup⟩
  | .literal value location, h => by simp [shape] at h
  | .generic name location, h => by simp [shape, single] at h
  | .reference name arguments location, h => by
    simp only [shape, single, Built.outcome_bind_pure_eq_error, Built.outcome_ofExcept] at h
    exact ⟨_, .self, .reference h⟩
  | .marker predicate location, h => by
    simp only [shape, outcome_unsupportedAt, Except.error.injEq] at h
    exact h ▸ ⟨_, .self, .marker predicate location⟩
  | .nullable present location, h => by
    simp only [shape, Built.outcome_bind_pure_eq_error] at h
    exact (refusesIn_of_shape h).part (by simp [parts])
  | .array element container location, h => by
    simp only [shape, single, Built.outcome_bind_pure_eq_error] at h
    exact (refusesIn_of_shape h).part (by simp [parts])
  | .dict key value location, h => by
    simp only [shape, single, Built.outcome_bind_eq_error, Built.outcome_pure, reduceCtorEq,
      and_false, exists_false, or_false] at h
    rcases h with h | ⟨-, -, h⟩
    · exact (refusesIn_of_shape h).part (by simp [parts])
    · exact (refusesIn_of_shape h).part (by simp [parts])
  | .record fields shown location, h => by
    simp only [shape, single, Built.outcome_bind_pure_eq_error] at h
    obtain ⟨f, hf, hrefuses⟩ := refusesIn_of_shapeFields h
    exact hrefuses.part (List.mem_map_of_mem hf)
  | .union members location, h => by
    simp only [shape, Built.outcome_bind_pure_eq_error] at h
    obtain ⟨m, hm, hrefuses⟩ := refusesIn_of_shapeMembers h
    exact hrefuses.part hm
  | .intersection members location, h => by
    have hmisplaced {members : List StaticType} (hmarker : ∃ m ∈ members, m.isMarker = true)
        (h : (misplaced members location).outcome = .error fault) :
        r.RefusesIn (.intersection members location) fault := by
      unfold misplaced at h
      split at h
      · rename_i htext
        obtain rfl := Except.error.inj h
        exact ⟨_, .self, .intersection htext⟩
      · rename_i hnone
        obtain rfl := Except.error.inj h
        exact ⟨_, .self, .undescribed hmarker hnone⟩
    rw [shape.eq_def] at h
    dsimp only at h
    split at h
    · simp only [single, Built.outcome_bind_pure_eq_error] at h
      obtain ⟨m, hm, hrefuses⟩ := refusesIn_of_shapeAll h
      exact hrefuses.part hm
    · rename_i hmarkers
      have hmarker : ∃ m ∈ members, m.isMarker = true := by simpa using hmarkers
      split at h
      · split at h
        · exact hmisplaced hmarker h
        · simp only [refine, Built.outcome_bind_eq_error, Built.outcome_record, Built.outcome_pure,
            reduceCtorEq, and_false, exists_false, or_false] at h
          exact (refusesIn_of_shape h).part (by simp [parts])
      · split at h
        · exact hmisplaced hmarker h
        · simp only [refine, Built.outcome_bind_eq_error, Built.outcome_record, Built.outcome_pure,
            reduceCtorEq, and_false, exists_false, or_false] at h
          exact (refusesIn_of_shape h).part (by simp [parts])
      · exact hmisplaced hmarker h
  | .function none result location, h => by
    simp only [shape, shapeParams, Built.outcome_bind_eq_error, Built.outcome_pure,
      reduceCtorEq, false_or] at h
    rcases h with h | ⟨_, -, params, -, h⟩
    · exact (refusesIn_of_shape h).part (by simp [parts])
    · cases params <;> cases h
  | .function (some params) result location, h => by
    simp only [shape, shapeParams, single, Built.outcome_bind_eq_error, Built.outcome_pure,
      reduceCtorEq, and_false, exists_false, or_false] at h
    rcases h with h | ⟨_, -, h | ⟨found, -, h⟩⟩
    · exact (refusesIn_of_shape h).part (by simp [parts])
    · obtain ⟨p, hp, hrefuses⟩ := refusesIn_of_shapeAll h
      exact hrefuses.part (List.mem_append_left _ hp)
    · cases found <;> cases h
  | .tuple elements isVariadic location, h => by
    simp only [shape, single, Built.outcome_bind_pure_eq_error] at h
    obtain ⟨e, he, hrefuses⟩ := refusesIn_of_shapeAll h
    exact hrefuses.part he

/-- As `refusesIn_of_shape`, for one of several types. -/
theorem refusesIn_of_shapeAll : {ts : List StaticType} → (shapeAll r ts).outcome = .error fault →
    ∃ t ∈ ts, r.RefusesIn t fault
  | [], h => by simp [shapeAll] at h
  | t :: rest, h => by
    simp only [shapeAll, Built.outcome_bind_eq_error, Built.outcome_pure, reduceCtorEq, and_false,
      exists_false, or_false] at h
    rcases h with h | ⟨-, -, h⟩
    · exact ⟨t, List.mem_cons_self, refusesIn_of_shape h⟩
    · obtain ⟨u, hu, hrefuses⟩ := refusesIn_of_shapeAll h
      exact ⟨u, List.mem_cons_of_mem _ hu, hrefuses⟩

/-- As `refusesIn_of_shape`, for one of the members of a union. -/
theorem refusesIn_of_shapeMembers : {ts : List StaticType} →
    (shapeMembers r ts).outcome = .error fault → ∃ t ∈ ts, r.RefusesIn t fault
  | [], h => by simp [shapeMembers] at h
  | t :: rest, h => by
    simp only [shapeMembers, Built.outcome_bind_eq_error, Built.outcome_pure, reduceCtorEq,
      and_false, exists_false, or_false] at h
    rcases h with h | ⟨-, -, h⟩
    · exact ⟨t, List.mem_cons_self, refusesIn_of_shape h⟩
    · obtain ⟨u, hu, hrefuses⟩ := refusesIn_of_shapeMembers h
      exact ⟨u, List.mem_cons_of_mem _ hu, hrefuses⟩

/-- As `refusesIn_of_shape`, for the type of one of several fields. -/
theorem refusesIn_of_shapeFields : {fields : List (RecordField StaticType)} →
    (shapeFields r fields).outcome = .error fault → ∃ f ∈ fields, r.RefusesIn f.type fault
  | [], h => by simp [shapeFields] at h
  | ⟨name, type, isOptional, location⟩ :: rest, h => by
    simp only [shapeFields, Built.outcome_bind_eq_error, Built.outcome_pure, reduceCtorEq,
      and_false, exists_false, or_false] at h
    rcases h with h | ⟨-, -, h⟩
    · exact ⟨_, List.mem_cons_self, refusesIn_of_shape h⟩
    · obtain ⟨g, hg, hrefuses⟩ := refusesIn_of_shapeFields h
      exact ⟨g, List.mem_cons_of_mem _ hg, hrefuses⟩

end

/-- A type that cannot be built has one in it that is refused. -/
theorem refusesIn_of_build {t : StaticType} (h : (build r t).outcome = .error fault) :
    r.RefusesIn t fault := by
  simp only [build, Built.outcome_bind_pure_eq_error] at h
  exact refusesIn_of_shape h

/-- Where all entries have definitions, a type that cannot be inspected cannot be built. -/
theorem build_of_reify_eq_error (hdefined : ∀ known ∈ r.entries, ∃ e, known.expr = some e)
    {t : StaticType} (h : (reify r t).outcome = .error fault) :
    (build r t).outcome = .error fault := by
  cases hbuild : (build r t).outcome with
  | error other =>
    have hreify : (reify r t).outcome = .error other := by
      simp [reify, hbuild]
    rw [h] at hreify
    rw [Except.error.inj hreify]
  | ok e =>
    obtain ⟨x, hx⟩ := (exists_reify_iff hdefined).2 ⟨e, hbuild⟩
    rw [h] at hx
    cases hx

/-- What a parameter receives cannot be built only if the type of its hint cannot. -/
theorem build_of_receivedType {t : StaticType} (kind : ParameterKind) (location : Option Location)
    (h : (build r (receivedType kind t location)).outcome = .error fault) :
    (build r t).outcome = .error fault := by
  cases kind with
  | positionalOnly | positional | keywordOnly => exact h
  | variadic =>
    simp only [receivedType, build, shape, shapeAll, single, Built.outcome_bind_eq_error,
      Built.outcome_pure, reduceCtorEq, and_false, exists_false, or_false] at h ⊢
    exact h
  | keywordVariadic =>
    have hkey : runtimePrimitives.lookup "str" = some "Str" := by decide
    simp only [receivedType, build, shape, hkey, single, Built.outcome_bind_eq_error,
      Built.outcome_pure, reduceCtorEq, and_false, exists_false, or_false, false_or] at h ⊢
    obtain ⟨-, -, h⟩ := h
    exact h

end Building

/-- Why a declaration is not planned below others: it declares a type, but not on top level or not
for the first time, or one of its types cannot be built, against a registry that knows the types
declared so far and what the module binds. -/
inductive Declaration.PlanFault (bindings : List Binding) (above : List Declaration)
    (d : Declaration) (fault : Fault) : Prop
  | nested {t} (hd : d = .type t)
      (h : fault = ⟨.unsupported ("type declaration '" ++ t.name ++ "' outside module level"),
        t.location, none⟩)
  | duplicate {t} (hd : d = .type t)
      (h : fault = ⟨.duplicateDeclaration t.name, t.location, none⟩)
  | type {t r} (ht : t ∈ d.types) (hnames : r.entries.map (·.name) = typeNames (above ++ [d]))
      (hbinding : ∀ n, r.binding? n = bindings.reverse.find? (·.name == n))
      (h : (build r t).outcome = .error fault)

section Planning

variable {s : PlanState} {number : Nat} {bindings : List Binding} {fault : Fault}

/-- A build that is taken into account fails if it does. -/
theorem PlanState.take_eq_error {α : Type} {b : Built α} :
    s.take b = .error fault ↔ b.outcome = .error fault := by
  rw [PlanState.take, Except.bind_eq_error]
  simp [pure, Except.pure]

/-- The checks of parameters are not planned if one of their types cannot be built. -/
theorem build_of_planParameters_eq_error {ps : List TypedParameter}
    (h : planParameters s number ps = .error fault) :
    ∃ t ∈ ps.filterMap (·.type), (build s.registry t).outcome = .error fault := by
  induction ps generalizing s with
  | nil => cases h
  | cons p rest ih =>
    rw [planParameters.eq_def] at h
    dsimp only at h
    split at h
    · rename_i hnone
      rw [List.filterMap_cons_none hnone]
      exact ih h
    · rename_i t ht
      rw [List.filterMap_cons_some ht]
      rcases Except.bind_eq_error.1 h with h | ⟨first, hfirst, h⟩
      · have hbuild := build_of_receivedType _ _ (PlanState.take_eq_error.1 h)
        exact ⟨t, List.mem_cons_self, hbuild⟩
      · rcases Except.bind_eq_error.1 h with h | ⟨more, -, h⟩
        · obtain ⟨u, hu, hbuild⟩ := ih h
          rw [(PlanState.take_eq_ok hfirst).2] at hbuild
          exact ⟨u, List.mem_cons_of_mem _ hu, hbuild⟩
        · cases h

/-- A type declaration that is not planned has one of the faults. -/
theorem planFault_of_planType {above : List Declaration}
    (hnames : s.registry.entries.map (·.name) = typeNames above)
    (hbinding : ∀ n, s.registry.binding? n = bindings.reverse.find? (·.name == n))
    {t : TypeDeclaration} (h : planType s number t = .error fault) :
    Declaration.PlanFault bindings above (.type t) fault := by
  unfold planType at h
  split at h
  · exact .nested rfl (Except.error.inj h).symm
  · rcases Except.bind_eq_error.1 h with h | ⟨r', hdeclare, h⟩
    · rw [Registry.declare_eq] at h
      split at h
      · exact .duplicate rfl (Except.error.inj h).symm
      · cases h
    · rcases Except.bind_eq_error.1 h with h | ⟨⟨e, s'⟩, htake, h⟩
      · have hbuild := PlanState.take_eq_error.1 h
        obtain rfl := entries_of_declare hdeclare
        refine .type List.mem_cons_self ?_ ?_ hbuild
        · rw [typeNames_append, ← hnames]
          exact List.map_append
        · exact hbinding
      · -- The name has just been declared, so it can be completed.
        obtain ⟨r'', hcomplete⟩ := exists_complete_of_declare hdeclare (e.named t.name)
        have hregistry := (PlanState.take_eq_ok htake).2
        dsimp only at h hregistry
        rw [hregistry, hcomplete] at h
        cases h

/-- A declaration that is not planned has one of the faults. -/
theorem planFault_of_planDeclaration {above : List Declaration}
    (hnames : s.registry.entries.map (·.name) = typeNames above)
    (hbinding : ∀ n, s.registry.binding? n = bindings.reverse.find? (·.name == n))
    (hdefined : ∀ known ∈ s.registry.entries, ∃ e, known.expr = some e)
    {d : Declaration} (h : planDeclaration s number d = .error fault) :
    d.PlanFault bindings above fault := by
  -- Where no type is declared, the registry is the one before.
  have hsame (hd : typeNames [d] = []) :
      s.registry.entries.map (·.name) = typeNames (above ++ [d]) := by
    rw [hnames, typeNames_append, hd, List.append_nil]
  cases d with
  | type t => exact planFault_of_planType hnames hbinding h
  | function f =>
    obtain ⟨t, ht, hbuild⟩ := build_of_planParameters_eq_error h
    exact .type ht (hsame rfl) hbinding hbuild
  | cast c =>
    rcases Except.bind_eq_error.1 h with h | ⟨built, -, h⟩
    · have hbuild := PlanState.take_eq_error.1 h
      refine .type List.mem_cons_self ?_ ?_ hbuild
      · exact hsame rfl
      · exact hbinding
    · cases h
  | reify c =>
    rcases Except.bind_eq_error.1 h with h | ⟨built, -, h⟩
    · have hbuild := build_of_reify_eq_error (r := s.registry.evaluatedAt c.location) hdefined
        (PlanState.take_eq_error.1 h)
      refine .type List.mem_cons_self ?_ ?_ hbuild
      · exact hsame rfl
      · exact hbinding
    · cases h

/-- Of declarations that are not planned, one has one of the faults below those above it. -/
theorem planFault_of_planFrom {above ds : List Declaration} {entries : List PlanEntry}
    (hknows : s.registry.KnowsTypes bindings entries)
    (hnames : definedNames entries = typeNames above) (h : planFrom s number ds = .error fault) :
    ∃ (i : Nat) (d : Declaration), ds[i]? = some d ∧
      d.PlanFault bindings (above ++ ds.take i) fault := by
  induction ds generalizing s number above entries with
  | nil => cases h
  | cons d rest ih =>
    rw [planFrom] at h
    rcases Except.bind_eq_error.1 h with h | ⟨first, hfirst, h⟩
    · refine ⟨0, d, rfl, ?_⟩
      rw [List.take_zero, List.append_nil]
      exact planFault_of_planDeclaration (hknows.names.trans hnames) hknows.binding
        hknows.defined h
    · have hstep : PlanStep s.registry number d first.1 first.2.registry :=
        planStep_of_planDeclaration hfirst
      rcases Except.bind_eq_error.1 h with h | ⟨more, -, h⟩
      · have hnames' : definedNames (entries ++ first.1) = typeNames (above ++ [d]) := by
          rw [definedNames_append, typeNames_append, hnames, hstep.definedNames_eq]
        obtain ⟨i, d', hd', hfault⟩ := ih (hstep.wellScoped hknows).2 hnames' h
        refine ⟨i + 1, d', hd', ?_⟩
        rwa [List.take_succ_cons, List.append_cons]
      · cases h

end Planning

/-- Of the declarations of a module that cannot be planned, one has one of the faults below those
above it. -/
theorem planFault_of_plan {r : Registry} {bindings : List Binding} {ds : List Declaration}
    {fault : Fault} (hknows : r.KnowsTypes bindings []) (h : plan r ds = .error fault) :
    ∃ (i : Nat) (d : Declaration), ds[i]? = some d ∧
      d.PlanFault bindings (ds.take i) fault := by
  unfold plan at h
  rcases Except.bind_eq_error.1 h with h | ⟨out, -, h⟩
  · have hnames : definedNames [] = typeNames [] := rfl
    exact planFault_of_planFrom (s := { registry := r }) hknows hnames h
  · cases h

/-- A fault of the planner is stated, unless one of the types would have to be described and has no
description. -/
theorem undescribed_of_plan {r : Registry} {bindings : List Binding} {ds : List Declaration}
    {fault : Fault} (hknows : r.KnowsTypes bindings []) (h : plan r ds = .error fault)
    (hstated : fault.isStated = false) : ∃ d ∈ ds, ∃ t ∈ d.types, t.Undescribed := by
  obtain ⟨i, d, hd, hfault⟩ := planFault_of_plan hknows h
  cases hfault with
  | nested _ h | duplicate _ h => simp [h, Fault.isStated] at hstated
  | type ht _ _ hbuild =>
    exact ⟨d, List.mem_of_getElem? hd, _, ht, (refusesIn_of_build hbuild).undescribed hstated⟩

/-- A module is planned exactly when types are declared on top level and by distinct names, and all
types in it can be built: primitives are known to the runtime library, markers refine the other
one of two operands, and a name stands for a type above, for the type that is being declared if it
is recursive, or, if no type of that name is declared so far, for what is bound other than as a bare
module or for a builtin class that no binding hides. All other modules are refused with a fault,
which is stated if no type would have to be described that has no description. -/
theorem planned_iff_plannable (bindings : List Binding) (reserved : List String)
    (declarations : List Declaration) :
    ((∃ p r, plan (Registry.ofModule bindings reserved) declarations = .ok (p, r)) ↔
        Plannable bindings (UnboundBuiltin bindings) declarations) ∧
      (¬ Plannable bindings (UnboundBuiltin bindings) declarations →
        ∃ fault, plan (Registry.ofModule bindings reserved) declarations = .error fault ∧
          (fault.isStated = true ∨ ∃ d ∈ declarations, ∃ t ∈ d.types, t.Undescribed)) := by
  have hplanned := exists_plan_iff bindings reserved declarations
  refine ⟨by rw [← hplanned, Prod.exists], fun h => ?_⟩
  cases hplan : plan (Registry.ofModule bindings reserved) declarations with
  | ok out => exact absurd (hplanned.1 ⟨out, hplan⟩) h
  | error fault =>
    refine ⟨fault, rfl, ?_⟩
    cases hstated : fault.isStated with
    | true => exact .inl rfl
    | false => exact .inr (undescribed_of_plan (.ofModule bindings reserved) hplan hstated)

/-- A module that has the name of a builtin class. -/
def sliceModule : Binding := ⟨"slice", .ofModule, none⟩

/-- A cast to what the name stands for. -/
def sliceCast : CastDeclaration := ⟨.reference "slice" [] none, "x", none⟩

/-- It matters that a binding hides a builtin class: counted as a class, the name of the module
would do as a type, and yet the cast is not planned. -/
theorem hidden_builtin_not_planned :
    ¬ ((∃ p r, plan (Registry.ofModule [sliceModule] []) [.cast sliceCast] = .ok (p, r)) ↔
      Plannable [sliceModule] (· ∈ builtinClasses) [.cast sliceCast]) := by
  have hplannable : Plannable [sliceModule] (· ∈ builtinClasses) [.cast sliceCast] := by
    refine plannable_iff.2 fun i d hd => ?_
    obtain ⟨rfl, rfl⟩ : i = 0 ∧ Declaration.cast sliceCast = d := by
      cases i with
      | zero => simpa using hd
      | succ i => simp at hd
    refine ⟨by simp, by simp, fun t ht => ?_⟩
    obtain rfl := List.mem_singleton.1 ht
    refine StaticType.buildable_reference.2 (.inr (.inr ⟨?_, .inr (by decide)⟩))
    simp [typeNames]
  intro h
  obtain ⟨p, r, hplan⟩ := h.2 hplannable
  have hrefused : plan (Registry.ofModule [sliceModule] []) [.cast sliceCast] =
      .error ⟨.unsupported "module 'slice' used as a type", none, none⟩ := rfl
  rw [hrefused] at hplan
  cases hplan

end Typeward
