import Typeward.Compilation
import Typeward.Proofs.Actions

/-!
# Runs of the planner

What one declaration adds to a plan, and what a run over declarations adds. `PlanStep` holds all
that a step does: the registry in which a type is built, the entries, and the registry afterwards.
Properties of plans are proved for a step and carried over a run.
-/

namespace Typeward

namespace Registry

variable {r r' : Registry}

/-- A name is declared if it is new. -/
theorem run_declareEntry (r : Registry) (name : String) (isRecursive : Bool)
    (location : Option Location) :
    (declareEntry name isRecursive location).run.run r =
      if r.contains name then (.error ⟨.duplicateDeclaration name, location, none⟩, r)
      else (.ok (), { r with entries := r.entries ++ [{ name, isRecursive, location }] }) := by
  change ((if r.contains name then _ else _ : Op Unit)).run.run r = _
  split <;> rfl

/-- A name is completed if it is declared and pending. -/
theorem run_completeEntry (r : Registry) (name : String) (expr : TypeExpr) :
    (completeEntry name expr).run.run r =
      match r.get? name with
      | none => (.error ⟨.undeclaredCompletion name, none, none⟩, r)
      | some entry =>
        if entry.isComplete then (.error ⟨.repeatedCompletion name, entry.location, none⟩, r)
        else (.ok (), { r with entries := r.entries.map fun entry =>
          if entry.name == name then { entry with expr, state := .complete } else entry }) := by
  change (match r.get? name with | none => _ | some entry => _ : Op Unit).run.run r = _
  cases hget : r.get? name with
  | none => rfl
  | some entry =>
    dsimp only
    split
    · rfl
    · change ((Except.ok () : Except Fault Unit), { r with entries := (r.entries.map _).map _ }) = _
      rw [List.map_map]
      congr 3
      funext entry
      by_cases hname : entry.name = name <;> simp [hname]

/-- What is declared, if it can be. -/
theorem declare_eq (r : Registry) (name : String) (isRecursive : Bool)
    (location : Option Location) :
    r.declare name isRecursive location =
      if r.contains name then .error ⟨.duplicateDeclaration name, location, none⟩
      else .ok { r with entries := r.entries ++ [{ name, isRecursive, location }] } := by
  unfold declare after
  rw [run_declareEntry]
  cases r.contains name <;> rfl

/-- What is completed, if it can be. -/
theorem complete_eq (r : Registry) (name : String) (expr : TypeExpr) :
    r.complete name expr =
      match r.get? name with
      | none => .error ⟨.undeclaredCompletion name, none, none⟩
      | some entry =>
        if entry.isComplete then .error ⟨.repeatedCompletion name, entry.location, none⟩
        else .ok { r with entries := r.entries.map fun entry =>
          if entry.name == name then { entry with expr, state := .complete } else entry } := by
  unfold complete after
  rw [run_completeEntry]
  cases r.get? name with
  | none => rfl
  | some entry => cases hcomplete : entry.isComplete <;> simp only [hcomplete] <;> rfl

/-- A declared name is one more entry, without a definition. -/
theorem entries_of_declare {name : String} {isRecursive : Bool} {location : Option Location}
    (h : r.declare name isRecursive location = .ok r') :
    r' = { r with entries := r.entries ++ [{ name, isRecursive, location }] } := by
  rw [declare_eq] at h
  split at h
  · simp at h
  · exact (Except.ok.inj h).symm

/-- A completed name gets its definition; the other entries stay as they are. -/
theorem entries_of_complete {name : String} {expr : TypeExpr}
    (h : r.complete name expr = .ok r') :
    r' = { r with entries := r.entries.map fun entry =>
      if entry.name == name then { entry with expr, state := .complete } else entry } := by
  rw [complete_eq] at h
  split at h
  · simp at h
  · split at h
    · simp at h
    · exact (Except.ok.inj h).symm

end Registry

/-- The check of a parameter against the type that it receives. -/
def ParameterEntry (r : Registry) (number : Nat) (p : TypedParameter) (entry : PlanEntry) : Prop :=
  ∃ t e, p.type = some t ∧ (build r (receivedType p.kind t p.location)).outcome = .ok e ∧
    entry = ⟨.parameter p, e, .assert, some p.name, number⟩

/-- What a declaration with a number adds to a plan, and how it changes the registry. -/
inductive PlanStep (r : Registry) (number : Nat) :
    Declaration → List PlanEntry → Registry → Prop
  | define {d e r₁ r₂} (htop : d.isTopLevel = true)
      (hdeclare : r.declare d.name d.isRecursive d.location = .ok r₁)
      (hbuild : (build (r₁.evaluatedAt d.location) d.type).outcome = .ok e)
      (hcomplete : r₁.complete d.name (e.named d.name) = .ok r₂) :
      PlanStep r number (.type d) [⟨.type d, e.named d.name, .define, some d.name, number⟩] r₂
  | function {d entries} (h : List.Forall₂ (ParameterEntry r number) d.typed entries) :
      PlanStep r number (.function d) entries r
  | cast {d e} (hbuild : (build (r.evaluatedAt d.location) d.type).outcome = .ok e) :
      PlanStep r number (.cast d) [⟨.cast d, e, .assert, some d.label, number⟩] r
  | reify {d e} (hbuild : (reify (r.evaluatedAt d.location) d.type).outcome = .ok e) :
      PlanStep r number (.reify d) [⟨.reify d, e, .reify, some d.target, number⟩] r

/-- What declarations from a number on add to a plan. -/
inductive PlanRun : Registry → Nat → List Declaration → List PlanEntry → Registry → Prop
  | nil (r number) : PlanRun r number [] [] r
  | cons {r number d ds entries r₁ more r₂} (hstep : PlanStep r number d entries r₁)
      (hrun : PlanRun r₁ (number + 1) ds more r₂) :
      PlanRun r number (d :: ds) (entries ++ more) r₂

/-- Taking a build into account leaves the registry as it is. -/
theorem PlanState.take_eq_ok {α : Type} {s s' : PlanState} {b : Built α} {a : α}
    (h : s.take b = .ok (a, s')) : b.outcome = .ok a ∧ s'.registry = s.registry := by
  unfold PlanState.take at h
  obtain ⟨a', ha', h⟩ := Except.bind_eq_ok.1 h
  simp only [pure, Except.pure, Except.ok.injEq, Prod.mk.injEq] at h
  obtain ⟨rfl, rfl⟩ := h
  exact ⟨ha', rfl⟩

/-- The checks of parameters stand in the order of the parameters that have a hint. -/
theorem forall₂_of_planParameters {number : Nat} {ps : List TypedParameter} {s s' : PlanState}
    {entries : List PlanEntry} (h : planParameters s number ps = .ok (entries, s')) :
    List.Forall₂ (ParameterEntry s.registry number) (ps.filter (·.type.isSome)) entries ∧
      s'.registry = s.registry := by
  induction ps generalizing s entries with
  | nil =>
    simp only [planParameters, Except.ok.injEq, Prod.mk.injEq] at h
    obtain ⟨rfl, rfl⟩ := h
    exact ⟨.nil, rfl⟩
  | cons p rest ih =>
    rw [planParameters.eq_def] at h
    dsimp only at h
    split at h
    · rename_i hnone
      simpa [hnone] using ih h
    · rename_i t ht
      obtain ⟨⟨e, s₁⟩, htake, h⟩ := Except.bind_eq_ok.1 h
      obtain ⟨⟨more, s₂⟩, hmore, h⟩ := Except.bind_eq_ok.1 h
      simp only [pure, Except.pure, Except.ok.injEq, Prod.mk.injEq] at h
      obtain ⟨rfl, rfl⟩ := h
      obtain ⟨hbuild, hregistry⟩ := PlanState.take_eq_ok htake
      obtain ⟨hrest, hregistry'⟩ := ih hmore
      rw [hregistry] at hrest hregistry'
      refine ⟨?_, hregistry'⟩
      simp only [ht, Option.isSome_some, List.filter_cons_of_pos]
      exact .cons ⟨t, e, ht, hbuild, rfl⟩ hrest

/-- What the planner answers for a declaration is a step. -/
theorem planStep_of_planDeclaration {s s' : PlanState} {number : Nat} {d : Declaration}
    {entries : List PlanEntry} (h : planDeclaration s number d = .ok (entries, s')) :
    PlanStep s.registry number d entries s'.registry := by
  cases d with
  | type d =>
    simp only [planDeclaration, planType] at h
    split at h
    · simp at h
    · rename_i htop
      obtain ⟨r₁, hdeclare, h⟩ := Except.bind_eq_ok.1 h
      obtain ⟨⟨e, s₁⟩, htake, h⟩ := Except.bind_eq_ok.1 h
      obtain ⟨r₂, hcomplete, h⟩ := Except.bind_eq_ok.1 h
      simp only [pure, Except.pure, Except.ok.injEq, Prod.mk.injEq] at h
      obtain ⟨rfl, rfl⟩ := h
      obtain ⟨hbuild, hregistry⟩ := PlanState.take_eq_ok htake
      rw [hregistry] at hcomplete
      exact .define (by simpa using htop) hdeclare hbuild hcomplete
  | function d =>
    obtain ⟨hentries, hregistry⟩ := forall₂_of_planParameters h
    rw [hregistry]
    exact .function hentries
  | cast d =>
    obtain ⟨⟨e, s₁⟩, htake, h⟩ := Except.bind_eq_ok.1 h
    simp only [pure, Except.pure, Except.ok.injEq, Prod.mk.injEq] at h
    obtain ⟨rfl, rfl⟩ := h
    obtain ⟨hbuild, hregistry⟩ := PlanState.take_eq_ok htake
    rw [hregistry]
    exact .cast hbuild
  | reify d =>
    obtain ⟨⟨e, s₁⟩, htake, h⟩ := Except.bind_eq_ok.1 h
    simp only [pure, Except.pure, Except.ok.injEq, Prod.mk.injEq] at h
    obtain ⟨rfl, rfl⟩ := h
    obtain ⟨hbuild, hregistry⟩ := PlanState.take_eq_ok htake
    rw [hregistry]
    exact .reify hbuild

/-- What the planner answers for declarations is a run. -/
theorem planRun_of_planFrom {ds : List Declaration} {s s' : PlanState} {number : Nat}
    {entries : List PlanEntry} (h : planFrom s number ds = .ok (entries, s')) :
    PlanRun s.registry number ds entries s'.registry := by
  induction ds generalizing s number entries with
  | nil =>
    simp only [planFrom, Except.ok.injEq, Prod.mk.injEq] at h
    obtain ⟨rfl, rfl⟩ := h
    exact .nil _ _
  | cons d rest ih =>
    rw [planFrom] at h
    obtain ⟨⟨first, s₁⟩, hfirst, h⟩ := Except.bind_eq_ok.1 h
    obtain ⟨⟨more, s₂⟩, hmore, h⟩ := Except.bind_eq_ok.1 h
    simp only [pure, Except.pure, Except.ok.injEq, Prod.mk.injEq] at h
    obtain ⟨rfl, rfl⟩ := h
    exact .cons (planStep_of_planDeclaration hfirst) (ih hmore)

/-- A plan is what a run from the first number on adds to nothing. -/
theorem planRun_of_plan {r r' : Registry} {ds : List Declaration} {p : Plan}
    (h : plan r ds = .ok (p, r')) : PlanRun r 0 ds p.entries r' := by
  unfold plan at h
  obtain ⟨⟨entries, s⟩, hentries, h⟩ := Except.bind_eq_ok.1 h
  simp only [pure, Except.pure, Except.ok.injEq, Prod.mk.injEq] at h
  obtain ⟨rfl, rfl⟩ := h
  exact planRun_of_planFrom hentries

/-- The entries of a step belong to the declaration that the step is for. -/
theorem PlanStep.source_eq {r r' : Registry} {number : Nat} {d : Declaration}
    {entries : List PlanEntry} (h : PlanStep r number d entries r') :
    ∀ entry ∈ entries, entry.source = number := by
  intro entry hentry
  cases h with
  | function h =>
    obtain ⟨i, hi, rfl⟩ := List.getElem_of_mem hentry
    obtain ⟨t, e, -, -, heq⟩ := h.get (h.length_eq ▸ hi) hi
    simp only [List.get_eq_getElem] at heq
    rw [heq]
  | define | cast | reify =>
    obtain rfl := List.mem_singleton.1 hentry
    rfl

/-- The entries of a run belong to declarations from its first number on. -/
theorem PlanRun.le_source {r r' : Registry} {number : Nat} {ds : List Declaration}
    {entries : List PlanEntry} (h : PlanRun r number ds entries r') :
    ∀ entry ∈ entries, number ≤ entry.source := by
  induction h with
  | nil => simp
  | cons hstep hrun ih =>
    intro entry hentry
    rcases List.mem_append.1 hentry with hentry | hentry
    · exact Nat.le_of_eq (hstep.source_eq entry hentry).symm
    · exact Nat.le_of_succ_le (ih entry hentry)

section First

variable {r r₁ r₂ : Registry} {number : Nat} {d : Declaration} {ds : List Declaration}
  {first more : List PlanEntry}

/-- The entries of the first declaration in a run are those of the first step. -/
theorem PlanRun.filter_first (hstep : PlanStep r number d first r₁)
    (hrun : PlanRun r₁ (number + 1) ds more r₂) :
    (first ++ more).filter (·.source = number) = first := by
  have hfirst : first.filter (·.source = number) = first :=
    List.filter_eq_self.2 fun entry hentry => by simpa using hstep.source_eq entry hentry
  have hmore : more.filter (·.source = number) = [] := by
    refine List.filter_eq_nil_iff.2 fun entry hentry => ?_
    have := hrun.le_source entry hentry
    simp only [decide_eq_true_eq]
    omega
  rw [List.filter_append, hfirst, hmore, List.append_nil]

/-- The entries of a later declaration in a run are entries of the later steps. -/
theorem PlanRun.filter_later (hstep : PlanStep r number d first r₁) {n : Nat} (hn : number < n) :
    (first ++ more).filter (·.source = n) = more.filter (·.source = n) := by
  have hfirst : first.filter (·.source = n) = [] := by
    refine List.filter_eq_nil_iff.2 fun entry hentry => ?_
    have := hstep.source_eq entry hentry
    simp only [decide_eq_true_eq]
    omega
  rw [List.filter_append, hfirst, List.nil_append]

end First

/-- The entries of a declaration in a run are those of its step. -/
theorem PlanRun.exists_step {r r' : Registry} {number k : Nat} {ds : List Declaration}
    {d : Declaration} {entries : List PlanEntry} (h : PlanRun r number ds entries r')
    (hd : ds[k]? = some d) :
    ∃ r₁ r₂, PlanStep r₁ (number + k) d (entries.filter (·.source = number + k)) r₂ := by
  induction h generalizing k with
  | nil => simp at hd
  | @cons r number d' ds first r₁ more r₂ hstep hrun ih =>
    cases k with
    | zero =>
      obtain rfl : d' = d := by simpa using hd
      rw [Nat.add_zero, filter_first hstep hrun]
      exact ⟨_, _, hstep⟩
    | succ k =>
      rw [filter_later hstep (by omega), Nat.add_comm k, ← Nat.add_assoc]
      exact ih (by simpa using hd)

/-- The entries of a run are those of its declarations in order. -/
theorem PlanRun.flatMap_eq {r r' : Registry} {number : Nat} {ds : List Declaration}
    {entries : List PlanEntry} (h : PlanRun r number ds entries r') :
    (List.range' number ds.length).flatMap (fun n => entries.filter (·.source = n)) = entries := by
  induction h with
  | nil => rfl
  | @cons r number d ds first r₁ more r₂ hstep hrun ih =>
    have hlater : ∀ n ∈ List.range' (number + 1) ds.length,
        (first ++ more).filter (·.source = n) = more.filter (·.source = n) := by
      intro n hn
      have hlt := (List.mem_range'_1.1 hn).1
      exact filter_later hstep hlt
    rw [List.length_cons, List.range'_succ, List.flatMap_cons, filter_first hstep hrun,
      List.flatMap_congr hlater, ih]

/-- What compiles has found an alias, then planned against the registry that holds it, then
spliced. -/
theorem compileLowered_eq_ok {options : Options} {lowered : Lowered} {c : CompiledTree}
    (h : compileLowered options lowered = .ok c) :
    ∃ runtime r r',
      (Registry.ofModule lowered.scope.bindings lowered.scope.reserved).allocate
        options.runtimeAlias = (runtime, r) ∧
      plan r lowered.declarations = .ok (c.plan, r') ∧
      splice (Emitter.ofOptions options (some runtime)) c.plan options.runtimeModule
        lowered.tree = .ok c.spliced ∧
      c.runtime = (Emitter.ofOptions options (some runtime)).runtime := by
  unfold compileLowered at h
  obtain ⟨⟨p, r'⟩, hplan, h⟩ := Except.bind_eq_ok.1 h
  obtain ⟨spliced, hspliced, h⟩ := Except.bind_eq_ok.1 h
  obtain rfl := Except.ok.inj h
  exact ⟨_, _, r', rfl, Except.mapError_eq_ok.1 hplan, hspliced, rfl⟩

/-- What can be planned and spliced compiles. -/
theorem compileLowered_of_plan {options : Options} {lowered : Lowered} {runtime : String}
    {r r' : Registry} {p : Plan} {spliced : Spliced}
    (hallocate : (Registry.ofModule lowered.scope.bindings lowered.scope.reserved).allocate
      options.runtimeAlias = (runtime, r))
    (hplan : plan r lowered.declarations = .ok (p, r'))
    (hsplice : splice (Emitter.ofOptions options (some runtime)) p options.runtimeModule
      lowered.tree = .ok spliced) :
    compileLowered options lowered = .ok ⟨spliced, p, r'.definitions.map (·.name),
      (Emitter.ofOptions options (some runtime)).runtime⟩ := by
  simp only [compileLowered, hallocate, hplan]
  change splice _ p _ _ >>= _ = _
  rw [hsplice]
  rfl

/-- What cannot be planned does not compile, for the fault that keeps it from being planned. -/
theorem compileLowered_of_plan_error {options : Options} {lowered : Lowered} {runtime : String}
    {r : Registry} {fault : Fault}
    (hallocate : (Registry.ofModule lowered.scope.bindings lowered.scope.reserved).allocate
      options.runtimeAlias = (runtime, r))
    (hplan : plan r lowered.declarations = .error fault) :
    compileLowered options lowered = .error (.ofFault fault) := by
  simp only [compileLowered, hallocate, hplan]
  rfl

end Typeward
