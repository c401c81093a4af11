import Typeward.Proofs.BuildableTypes

/-!
# What can be planned

A module can be planned if its type declarations are on top level, no two declare the same name, and
all types in it can be built given what is declared above them. `Plannable` says so without the
planner, the builder and the registry; planning fails on all other modules. One declaration is
planned exactly when it can be, against a registry that knows the types above it, and the registry
afterwards knows one more type.
-/

namespace Typeward

open Registry

/-- The names of the types that declarations declare, in order. -/
def typeNames (declarations : List Declaration) : List String :=
  declarations.filterMap fun
    | .type d => some d.name
    | _ => none

/-- A name starts with that of a binding, of which the last one counts, and is not just the name of
a module. -/
def BoundAsType (bindings : List Binding) (n : String) : Prop :=
  ∃ b, bindings.reverse.find? (·.name == rootOf n) = some b ∧
    ¬ (b.kind = .ofModule ∧ rootOf n = n)

/-- A name is that of a builtin class, which no binding hides. -/
def UnboundBuiltin (bindings : List Binding) (n : String) : Prop :=
  n ∈ builtinClasses ∧ ∀ b ∈ bindings, b.name ≠ rootOf n

namespace Declaration

/-- The types that stand in a declaration. -/
def types : Declaration → List StaticType
  | .type d => [d.type]
  | .function d => d.params.filterMap (·.type)
  | .cast d => [d.type]
  | .reify d => [d.type]

/-- What a name in a declaration may stand for: a type above, the type itself if it is recursive,
or, if no type of that name is declared so far, something bound or builtin. -/
def MayName (bindings : List Binding) (Builtin : String → Prop) (above : List Declaration)
    (d : Declaration) (n : String) : Prop :=
  n ∈ typeNames above ∨
    (∃ t, d = .type t ∧ t.name = n ∧ t.isRecursive = true) ∨
    (n ∉ typeNames (above ++ [d]) ∧ (BoundAsType bindings n ∨ Builtin n))

/-- A declaration can be planned below others: if it declares a type, it does so on top level and
for the first time, and its types can be built. -/
structure Plannable (bindings : List Binding) (Builtin : String → Prop) (above : List Declaration)
    (d : Declaration) : Prop where
  topLevel : ∀ t, d = .type t → t.isTopLevel = true
  fresh : ∀ t, d = .type t → t.name ∉ typeNames above
  types : ∀ t ∈ d.types, t.Buildable (d.MayName bindings Builtin above)

end Declaration

/-- Declarations can be planned as a module with given bindings: types are declared on top level, no
two by the same name, and the types in a declaration can be built given those above it. -/
structure Plannable (bindings : List Binding) (Builtin : String → Prop)
    (declarations : List Declaration) : Prop where
  topLevel : ∀ t, Declaration.type t ∈ declarations → t.isTopLevel = true
  distinct : (typeNames declarations).Nodup
  types : ∀ (i : Nat) (d : Declaration), declarations[i]? = some d → ∀ t ∈ d.types,
    t.Buildable (d.MayName bindings Builtin (declarations.take i))

/-- What is declared by the declarations of two lists. -/
@[simp]
theorem typeNames_append (above below : List Declaration) :
    typeNames (above ++ below) = typeNames above ++ typeNames below :=
  List.filterMap_append

/-- The declaration of a type declares its name. -/
@[simp]
theorem typeNames_type (t : TypeDeclaration) : typeNames [.type t] = [t.name] := rfl

section Registry

variable {r : Registry} {bindings : List Binding} {entries : List PlanEntry} {n : String}

/-- A name of a bound or builtin thing resolves if no type of that name is declared. -/
theorem resolves_of_get?_eq_none (h : r.get? n = none)
    (hbinding : r.binding? (rootOf n) = bindings.reverse.find? (·.name == rootOf n)) :
    r.Resolves n ↔ BoundAsType bindings n ∨ UnboundBuiltin bindings n := by
  have hunbound : bindings.reverse.find? (·.name == rootOf n) = none ↔
      ∀ b ∈ bindings, b.name ≠ rootOf n := by
    simp [List.find?_eq_none]
  simp only [Registry.Resolves, h, hbinding, hunbound, BoundAsType, UnboundBuiltin, reduceCtorEq,
    false_and, exists_false, false_or, true_and, and_comm (a := n ∈ builtinClasses)]

/-- A declared name has an entry, and no other name has. -/
theorem get?_eq_none_iff : r.get? n = none ↔ n ∉ r.entries.map (·.name) := by
  simp [Registry.get?, List.find?_eq_none]

/-- Where the code runs makes no difference to what resolves. -/
@[simp]
theorem resolves_evaluatedAt {site : Option Location} :
    (r.evaluatedAt site).Resolves n ↔ r.Resolves n := Iff.rfl

/-- Where only complete types are declared, their names resolve, and what else is bound or
builtin. -/
theorem Registry.KnowsTypes.resolves_iff (h : r.KnowsTypes bindings entries) :
    r.Resolves n ↔ n ∈ definedNames entries ∨
      (n ∉ definedNames entries ∧ (BoundAsType bindings n ∨ UnboundBuiltin bindings n)) := by
  rw [← h.names]
  by_cases hn : n ∈ r.entries.map (·.name)
  · obtain ⟨entry, hentry⟩ := Option.ne_none_iff_exists'.1 (mt get?_eq_none_iff.1 (not_not.2 hn))
    have hcomplete := h.complete entry (List.mem_of_find?_eq_some hentry)
    exact iff_of_true (.inl ⟨entry, hentry, .inl hcomplete⟩) (.inl hn)
  · rw [resolves_of_get?_eq_none (get?_eq_none_iff.2 hn) (h.binding _)]
    simp [hn]

/-- A name can be declared once. -/
theorem exists_declare_iff (isRecursive : Bool) (location : Option Location) :
    (∃ r', r.declare n isRecursive location = .ok r') ↔ n ∉ r.entries.map (·.name) := by
  rw [← get?_eq_none_iff, Registry.declare_eq, Registry.contains]
  cases r.get? n <;> simp

/-- A name that is being declared has the entry without a definition. -/
theorem get?_of_declare {name : String} {isRecursive : Bool} {location : Option Location}
    {r' : Registry} (h : r.declare name isRecursive location = .ok r') (n : String) :
    r'.get? n = if n = name then some ⟨name, isRecursive, location, .pending, none⟩ else r.get? n := by
  have hfresh := get?_eq_none_iff.2 ((exists_declare_iff _ _).1 ⟨r', h⟩)
  obtain rfl := entries_of_declare h
  simp only [Registry.get?] at hfresh ⊢
  rw [List.find?_append]
  split
  · rename_i heq
    rw [heq, hfresh]
    simp
  · rename_i hne
    simp [Ne.symm hne]

/-- While a type is built, its own name resolves only if it is recursive. -/
theorem Registry.KnowsTypes.resolves_declared_iff (h : r.KnowsTypes bindings entries)
    {t : TypeDeclaration} {r' : Registry}
    (hdeclare : r.declare t.name t.isRecursive t.location = .ok r') :
    r'.Resolves n ↔ n ∈ definedNames entries ∨ (t.name = n ∧ t.isRecursive = true) ∨
      (n ∉ definedNames entries ++ [t.name] ∧
        (BoundAsType bindings n ∨ UnboundBuiltin bindings n)) := by
  have hfresh := (exists_declare_iff _ _).1 ⟨r', hdeclare⟩
  have hget := get?_of_declare hdeclare n
  by_cases hn : n = t.name
  · subst hn
    rw [← h.names]
    simp only [if_true] at hget
    simp only [Registry.Resolves, hget, Option.some.injEq, exists_eq_left', reduceCtorEq, false_and,
      or_false, Entry.isComplete, decide_false, Bool.false_eq_true, false_or, true_and]
    simp [hfresh]
  · have hsame : r'.Resolves n ↔ r.Resolves n := by
      obtain rfl := entries_of_declare hdeclare
      simp only [hn, if_false] at hget
      simp only [Registry.Resolves, hget]
      rfl
    rw [hsame, h.resolves_iff]
    simp [hn, Ne.symm hn]

end Registry

section Steps

variable {s : PlanState} {number : Nat}

/-- A step answers a result exactly when both its parts do. -/
theorem exists_bind_iff {ε α β : Type} {x : Except ε α} {f : α → Except ε β} :
    (∃ b, (x >>= f) = .ok b) ↔ ∃ a, x = .ok a ∧ ∃ b, f a = .ok b := by
  simp only [Except.bind_eq_ok]
  rw [exists_comm]
  simp only [exists_and_left]

/-- A build is taken into account if it answers something. -/
theorem exists_take_iff {α : Type} {b : Built α} :
    (∃ out, s.take b = .ok out) ↔ ∃ a, b.outcome = .ok a := by
  rw [PlanState.take, exists_bind_iff]
  exact exists_congr fun a => and_iff_left ⟨_, rfl⟩

/-- What a parameter receives has a type that can be built if its hint can. -/
theorem buildable_receivedType {Resolves : String → Prop} {t : StaticType} (kind : ParameterKind)
    (location : Option Location) :
    (receivedType kind t location).Buildable Resolves ↔ t.Buildable Resolves := by
  cases kind <;> simp [receivedType, runtimePrimitives]

/-- The checks of parameters can be planned if all hints can be built. -/
theorem exists_planParameters_iff {ps : List TypedParameter} :
    (∃ out, planParameters s number ps = .ok out) ↔
      ∀ t ∈ ps.filterMap (·.type), t.Buildable s.registry.Resolves := by
  induction ps generalizing s with
  | nil => simp [planParameters]
  | cons p rest ih =>
    rw [planParameters.eq_def]
    dsimp only
    split
    · rename_i hnone
      simpa [hnone] using ih
    · rename_i t ht
      rw [List.filterMap_cons_some ht, List.forall_mem_cons,
        ← buildable_receivedType p.kind p.location, ← exists_build_iff,
        ← exists_take_iff (s := s), exists_bind_iff, ← exists_and_right]
      refine exists_congr fun first => and_congr_right fun hfirst => ?_
      have hregistry := (PlanState.take_eq_ok hfirst).2
      rw [exists_bind_iff, ← hregistry, ← ih]
      constructor
      · rintro ⟨out, hout, -⟩
        exact ⟨out, hout⟩
      · rintro ⟨out, hout⟩
        exact ⟨out, hout, _, rfl⟩

/-- A name that has just been declared can be completed. -/
theorem exists_complete_of_declare {r r' : Registry} {name : String} {isRecursive : Bool}
    {location : Option Location} (h : r.declare name isRecursive location = .ok r') (e : TypeExpr) :
    ∃ r'', r'.complete name e = .ok r'' := by
  have hget := get?_of_declare h name
  rw [if_pos rfl] at hget
  simp only [Registry.complete_eq, hget, Entry.isComplete]
  exact ⟨_, rfl⟩

/-- What is built to the name of a type has a definition, where all entries have one. -/
theorem carries_resolve {r : Registry} (hdefined : ∀ known ∈ r.entries, ∃ e, known.expr = some e) :
    r.Carries fun e => ∀ n, e = .name n → ∃ definition, r.resolve e = .ok definition where
  primitive := by simp
  constant := by simp
  predicate := by simp
  reference := by
    rintro name location e h n rfl
    rcases lookup_cases h with ⟨entry, hget, ⟨hcomplete, heq⟩ | ⟨-, -, heq⟩⟩ |
      ⟨-, ⟨b, -, ⟨-, heq⟩ | ⟨-, heq⟩⟩ | ⟨-, -, heq⟩⟩
    · obtain ⟨definition, hdefinition⟩ := hdefined entry (List.mem_of_find?_eq_some hget)
      obtain rfl := TypeExpr.name.inj heq
      have hstate : entry.state = .complete := by simpa [Entry.isComplete] using hcomplete
      exact ⟨definition, by simp only [Registry.resolve, hget, hstate, hdefinition]⟩
    all_goals cases heq
  field := by simp
  call := by simp

/-- Where all entries have definitions, a type is inspected if it can be built. -/
theorem exists_reify_iff {r : Registry} (hdefined : ∀ known ∈ r.entries, ∃ e, known.expr = some e)
    {t : StaticType} :
    (∃ e, (reify r t).outcome = .ok e) ↔ ∃ e, (build r t).outcome = .ok e := by
  constructor
  · rintro ⟨x, hx⟩
    obtain ⟨e, -, he, -⟩ := build_of_reify hx
    exact ⟨e, he⟩
  · rintro ⟨e, he⟩
    have hname := (carries_resolve hdefined).of_build he
    simp only [reify, Built.outcome_bind_eq_ok]
    cases e with
    | name n =>
      obtain ⟨definition, hdefinition⟩ := hname n rfl
      cases hcontains : r.contains n with
      | false =>
        let shown := TypeExpr.name n
        exact ⟨.reified shown shown.kind shown.components, shown, he, by simp [shown, hcontains]⟩
      | true =>
        exact ⟨.reified (.name n) definition.kind definition.components, .name n, he,
          by simp [hcontains, hdefinition]⟩
    | _ => exact ⟨_, _, he, rfl⟩

variable {bindings : List Binding} {above : List Declaration} {entries : List PlanEntry}

/-- A type declaration is planned exactly when it can be. -/
theorem exists_planType_iff (hknows : s.registry.KnowsTypes bindings entries)
    (hnames : definedNames entries = typeNames above) {t : TypeDeclaration} :
    (∃ out, planType s number t = .ok out) ↔
      Declaration.Plannable bindings (UnboundBuiltin bindings) above (.type t) := by
  have hplannable : Declaration.Plannable bindings (UnboundBuiltin bindings) above (.type t) ↔
      t.isTopLevel = true ∧ t.name ∉ typeNames above ∧ t.type.Buildable
        (Declaration.MayName bindings (UnboundBuiltin bindings) above (.type t)) :=
    ⟨fun h => ⟨h.topLevel t rfl, h.fresh t rfl, h.types _ List.mem_cons_self⟩,
      fun ⟨htop, hfresh, htypes⟩ =>
        ⟨by rintro _ ⟨⟩; exact htop, by rintro _ ⟨⟩; exact hfresh, by simpa [Declaration.types]⟩⟩
  rw [hplannable, planType]
  cases t.isTopLevel with
  | false => simp
  | true =>
    simp only [Bool.not_true, Bool.false_eq_true, if_false, true_and]
    rw [exists_bind_iff, ← hnames, ← hknows.names,
      ← exists_declare_iff t.isRecursive t.location, ← exists_and_right]
    refine exists_congr fun r' => and_congr_right fun hdeclare => ?_
    have hresolves (n : String) : (r'.evaluatedAt t.location).Resolves n ↔
        Declaration.MayName bindings (UnboundBuiltin bindings) above (.type t) n := by
      rw [resolves_evaluatedAt, hknows.resolves_declared_iff hdeclare, hnames]
      simp [Declaration.MayName]
    rw [← StaticType.buildable_congr hresolves, ← exists_build_iff,
      ← exists_take_iff (s := { s with registry := r' }), exists_bind_iff]
    refine exists_congr fun built => and_iff_left_of_imp fun hbuilt => ?_
    obtain ⟨r'', hcomplete⟩ := exists_complete_of_declare hdeclare (built.1.named t.name)
    rw [exists_bind_iff, (PlanState.take_eq_ok hbuilt).2]
    exact ⟨r'', hcomplete, _, rfl⟩

/-- A declaration is planned exactly when it can be. -/
theorem exists_planDeclaration_iff (number : Nat) (hknows : s.registry.KnowsTypes bindings entries)
    (hnames : definedNames entries = typeNames above) {d : Declaration} :
    (∃ out, planDeclaration s number d = .ok out) ↔
      d.Plannable bindings (UnboundBuiltin bindings) above := by
  -- Where no type is declared, what resolves is what may be named.
  have hplannable (hd : ∀ t, d ≠ .type t) : d.Plannable bindings (UnboundBuiltin bindings) above ↔
      ∀ t ∈ d.types, t.Buildable s.registry.Resolves := by
    have hresolves (n : String) :
        s.registry.Resolves n ↔ d.MayName bindings (UnboundBuiltin bindings) above n := by
      have hnone : typeNames [d] = [] := by
        cases d with
        | type t => exact absurd rfl (hd t)
        | _ => rfl
      simp [hknows.resolves_iff, hnames, Declaration.MayName, hd, hnone]
    simp only [StaticType.buildable_congr hresolves]
    have hother {P : TypeDeclaration → Prop} : ∀ t, d = .type t → P t :=
      fun t ht => absurd ht (hd t)
    exact ⟨fun h => h.types, fun h => ⟨hother, hother, h⟩⟩
  have hbuild {t : StaticType} (location : Option Location) :
      (∃ e, (build (s.registry.evaluatedAt location) t).outcome = .ok e) ↔
        t.Buildable s.registry.Resolves := exists_build_iff
  cases d with
  | type t => exact exists_planType_iff hknows hnames
  | function f =>
    rw [hplannable (by simp)]
    exact exists_planParameters_iff
  | cast c =>
    rw [hplannable (by simp), planDeclaration, planCast, exists_bind_iff]
    simp only [Declaration.types, List.mem_singleton, forall_eq]
    rw [← hbuild c.location, ← exists_take_iff (s := s)]
    exact exists_congr fun built => and_iff_left ⟨_, rfl⟩
  | reify c =>
    rw [hplannable (by simp), planDeclaration, planReify, exists_bind_iff]
    simp only [Declaration.types, List.mem_singleton, forall_eq]
    rw [← hbuild c.location, ← exists_reify_iff (r := s.registry.evaluatedAt c.location)
      hknows.defined, ← exists_take_iff (s := s)]
    exact exists_congr fun built => and_iff_left ⟨_, rfl⟩

end Steps

section Run

variable {bindings : List Binding} {Builtin : String → Prop} {above ds : List Declaration}

/-- A step defines the types that its declaration declares. -/
theorem PlanStep.definedNames_eq {r r' : Registry} {number : Nat} {d : Declaration}
    {entries : List PlanEntry} (h : PlanStep r number d entries r') :
    definedNames entries = typeNames [d] := by
  cases h with
  | define => rfl
  | function h =>
    refine definedNames_eq_nil fun entry hentry => ?_
    obtain ⟨p, -, t, e, -, -, rfl⟩ := exists_mem_of_forall₂ h hentry
    simp
  | cast | reify => rfl

/-- Declarations are planned exactly when each of them can be, below those above it. -/
theorem exists_planFrom_iff {s : PlanState} (number : Nat) {entries : List PlanEntry}
    (hknows : s.registry.KnowsTypes bindings entries)
    (hnames : definedNames entries = typeNames above) :
    (∃ out, planFrom s number ds = .ok out) ↔ ∀ (i : Nat) (d : Declaration), ds[i]? = some d →
      d.Plannable bindings (UnboundBuiltin bindings) (above ++ ds.take i) := by
  induction ds generalizing s number above entries with
  | nil => simp [planFrom]
  | cons d rest ih =>
    rw [planFrom, exists_bind_iff, ← Nat.and_forall_add_one]
    simp only [List.getElem?_cons_zero, Option.some.injEq, forall_eq', List.take_zero,
      List.append_nil, List.getElem?_cons_succ, List.take_succ_cons]
    rw [← exists_planDeclaration_iff number hknows hnames, ← exists_and_right]
    refine exists_congr fun first => and_congr_right fun hfirst => ?_
    have hstep : PlanStep s.registry number d first.1 first.2.registry :=
      planStep_of_planDeclaration hfirst
    have hnames' : definedNames (entries ++ first.1) = typeNames (above ++ [d]) := by
      rw [definedNames_append, typeNames_append, hnames, hstep.definedNames_eq]
    have hrest : (∃ out, planFrom first.2 (number + 1) rest = .ok out) ↔ _ :=
      ih (number + 1) (hstep.wellScoped hknows).2 hnames'
    simp only [List.append_assoc, List.singleton_append] at hrest
    rw [← hrest, exists_bind_iff]
    constructor
    · rintro ⟨out, hout, -⟩
      exact ⟨out, hout⟩
    · rintro ⟨out, hout⟩
      exact ⟨out, hout, _, rfl⟩

/-- Names are distinct if each is new where it is declared. -/
theorem nodup_typeNames_iff (habove : (typeNames above).Nodup) :
    (typeNames (above ++ ds)).Nodup ↔ ∀ (i : Nat) (t : TypeDeclaration),
      ds[i]? = some (.type t) → t.name ∉ typeNames (above ++ ds.take i) := by
  induction ds generalizing above with
  | nil => simpa using habove
  | cons d rest ih =>
    rw [← Nat.and_forall_add_one]
    simp only [List.getElem?_cons_zero, Option.some.injEq, List.take_zero, List.append_nil,
      List.getElem?_cons_succ, List.take_succ_cons]
    rw [List.append_cons above d rest]
    simp only [List.append_cons above d (rest.take _)]
    have hnew : (typeNames (above ++ [d])).Nodup ↔
        ∀ t, d = .type t → t.name ∉ typeNames above := by
      cases d with
      | type t => simp [List.nodup_append, habove]; grind
      | _ => simpa [typeNames] using habove
    constructor
    · intro h
      have hfirst : (typeNames (above ++ [d])).Nodup :=
        (typeNames_append .. ▸ h).sublist (List.sublist_append_left _ _)
      exact ⟨hnew.1 hfirst, (ih hfirst).1 h⟩
    · rintro ⟨hfresh, hrest⟩
      exact (ih (hnew.2 hfresh)).2 hrest

/-- A module can be planned if each declaration can be, below those above it. -/
theorem plannable_iff : Plannable bindings Builtin ds ↔ ∀ (i : Nat) (d : Declaration),
    ds[i]? = some d → d.Plannable bindings Builtin (ds.take i) := by
  have hdistinct : (typeNames ([] ++ ds)).Nodup ↔ _ := nodup_typeNames_iff List.nodup_nil
  simp only [List.nil_append] at hdistinct
  constructor
  · rintro ⟨htop, hnodup, htypes⟩ i d hd
    refine ⟨?_, ?_, htypes i d hd⟩
    · rintro t rfl
      exact htop t (List.mem_of_getElem? hd)
    · rintro t rfl
      exact hdistinct.1 hnodup i t hd
  · intro h
    refine ⟨fun t ht => ?_, hdistinct.2 fun i t ht => (h i _ ht).fresh t rfl,
      fun i d hd => (h i d hd).types⟩
    obtain ⟨i, hi⟩ := List.getElem?_of_mem ht
    exact (h i _ hi).topLevel t rfl

end Run

/-- A module is planned exactly when it can be. -/
theorem exists_plan_iff (bindings : List Binding) (reserved : List String)
    (declarations : List Declaration) :
    (∃ out, plan (Registry.ofModule bindings reserved) declarations = .ok out) ↔
      Plannable bindings (UnboundBuiltin bindings) declarations := by
  let start : PlanState := { registry := Registry.ofModule bindings reserved }
  have hknows : start.registry.KnowsTypes bindings [] := .ofModule bindings reserved
  have hnone : definedNames [] = typeNames [] := rfl
  rw [plan, exists_bind_iff, plannable_iff]
  refine Iff.trans ?_ (exists_planFrom_iff 0 hknows hnone)
  exact exists_congr fun out => and_iff_left ⟨_, rfl⟩

end Typeward
