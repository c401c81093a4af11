import Typeward.Proofs.Plannability

/-!
# What a plan holds for each declaration

A plan holds one definition for every type, one check for every parameter with a hint and for every
cast, and one binding for every inspected type, and nothing else. `AccountsFor` says what is
there for one declaration, built against the types that are known where it stands. The registry is
no secret: it always holds just the types that are defined above, each with the expression of its
definition.
-/

namespace Typeward

open Registry

/-- The entry of the registry for the type that an entry of a plan defines. -/
def PlanEntry.known? (entry : PlanEntry) : Option Entry :=
  match entry.site with
  | .type d => some ⟨d.name, d.isRecursive, d.location, .complete, some entry.expr⟩
  | _ => none

/-- A type that an entry defines is complete, with the expression of the entry. -/
theorem PlanEntry.of_known? {entry : PlanEntry} {known : Entry} (h : entry.known? = some known) :
    known.state = .complete ∧ known.expr = some entry.expr := by
  unfold PlanEntry.known? at h
  split at h
  · rw [← Option.some.inj h]
    exact ⟨rfl, rfl⟩
  · cases h

/-- The registry of a module when the types that entries define are known. -/
def registryAfter (bindings : List Binding) (reserved : List String) (entries : List PlanEntry) :
    Registry :=
  { Registry.ofModule bindings reserved with entries := entries.filterMap PlanEntry.known? }

/-- The registry while a type is built: the type is known by its name. -/
def Registry.pending (r : Registry) (d : TypeDeclaration) : Registry :=
  { r with entries := r.entries ++ [⟨d.name, d.isRecursive, d.location, .pending, none⟩] }

/-- The function that a declaration declares. -/
def Declaration.function? : Declaration → Option FunctionDeclaration
  | .function f => some f
  | _ => none

/-- What a parameter is checked against, given what its hint is built to: all positional arguments
that are left make a tuple, all keyword arguments that are left a dictionary. -/
def receivedExpr (kind : ParameterKind) (hint : TypeExpr) : TypeExpr :=
  match kind with
  | .variadic => .call .tuple [hint] none [("variadic", .bool true)]
  | .keywordVariadic => .call .dict [.primitive "Str", hint] none []
  | _ => hint

/-- The entries of a plan for a declaration with a number: a definition, a check for each parameter
with a hint, the check of a cast, or a binding. Its types are built against a registry, those that
are read on import where the declaration stands. -/
inductive AccountsFor (r : Registry) (number : Nat) : Declaration → List PlanEntry → Prop
  | type {d e} (h : (build ((r.pending d).evaluatedAt d.location) d.type).outcome = .ok e) :
      AccountsFor r number (.type d) [⟨.type d, e.named d.name, .define, some d.name, number⟩]
  | function {d entries} (h : List.Forall₂ (fun p entry => ∃ t e, p.type = some t ∧
      (build r t).outcome = .ok e ∧
        entry = ⟨.parameter p, receivedExpr p.kind e, .assert, some p.name, number⟩)
      (d.params.filter (·.type.isSome)) entries) : AccountsFor r number (.function d) entries
  | cast {d e} (h : (build (r.evaluatedAt d.location) d.type).outcome = .ok e) :
      AccountsFor r number (.cast d) [⟨.cast d, e, .assert, some d.label, number⟩]
  | reify {d e} (h : (reify (r.evaluatedAt d.location) d.type).outcome = .ok e) :
      AccountsFor r number (.reify d) [⟨.reify d, e, .reify, some d.target, number⟩]

/-- A plan and the registry afterwards account for the declarations of a module. -/
structure PlanAccounts (bindings : List Binding) (reserved : List String)
    (declarations : List Declaration) (p : Plan) (r : Registry) : Prop where
  /-- The entries are those of the declarations, in order. -/
  entries : p.entries = (List.range declarations.length).flatMap p.ofDeclaration
  /-- The entries of each declaration are its own, built against the types above it. -/
  accounted : ∀ (i : Nat) (d : Declaration), declarations[i]? = some d →
    AccountsFor (registryAfter bindings reserved ((List.range i).flatMap p.ofDeclaration)) i d
      (p.ofDeclaration i)
  /-- A function owns its entries; those of other declarations have no owner. -/
  owners : ∀ (i : Nat) (d : Declaration), declarations[i]? = some d →
    ∀ entry ∈ p.ofDeclaration i, entry.owner? declarations = d.function?
  /-- Each entry is in the list of just one mode. -/
  modes : (p.ofMode .define ++ p.ofMode .assert ++ p.ofMode .reify).Perm p.entries
  /-- The lists of the modes are in the order of the plan. -/
  ordered : ∀ mode, (p.ofMode mode).Sublist p.entries
  /-- Nothing but the types has changed in the registry. -/
  registry : r = registryAfter bindings reserved p.entries
  /-- The known types are those that are declared, in order. -/
  names : r.entries.map (·.name) = typeNames declarations
  /-- All of them are complete. -/
  complete : r.definitions = r.entries
  /-- Each has the expression of its definition. -/
  expressions : r.entries.map (fun known => (some known.name, known.expr)) =
    (p.ofMode .define).map fun entry => (entry.label, some entry.expr)

/-- What is built for the type that a parameter receives is made of what its hint is built to. -/
theorem receivedExpr_of_build {r : Registry} {kind : ParameterKind} {t : StaticType}
    {location : Option Location} {x : TypeExpr}
    (h : (build r (receivedType kind t location)).outcome = .ok x) :
    ∃ e, (build r t).outcome = .ok e ∧ x = receivedExpr kind e := by
  obtain ⟨s, hs, rfl⟩ := shaped_of_build h
  cases kind with
  | variadic =>
    cases hs with
    | tuple hlength hshapes =>
      obtain ⟨s, rfl⟩ := List.length_eq_one_iff.1 hlength.symm
      have hs : Shaped r t s := hshapes (t, s) (by simp)
      exact ⟨s.toExpr, by simp [build, hs.outcome], rfl⟩
  | keywordVariadic =>
    cases hs with
    | dict hkey hvalue =>
      cases hkey with
      | primitive hlookup =>
        obtain rfl := Option.some.inj hlookup
        exact ⟨_, by simp [build, hvalue.outcome], rfl⟩
  | _ => exact ⟨_, h, rfl⟩

section Step

variable {bindings : List Binding} {reserved : List String} {above entries : List PlanEntry}
  {r r' : Registry} {number : Nat} {d : Declaration}

/-- Where a name is new, declaring and completing it puts one entry behind the others. -/
theorem entries_of_declare_complete {t : TypeDeclaration} {e : TypeExpr} {r₁ r₂ : Registry}
    (hdeclare : r.declare t.name t.isRecursive t.location = .ok r₁)
    (hcomplete : r₁.complete t.name e = .ok r₂) :
    r₂ = { r with entries :=
      r.entries ++ [⟨t.name, t.isRecursive, t.location, .complete, some e⟩] } := by
  have hfresh := (exists_declare_iff _ _).1 ⟨r₁, hdeclare⟩
  have hold : (r.entries.map fun entry =>
      if entry.name == t.name then { entry with expr := some e, state := .complete }
      else entry) = r.entries := by
    refine (List.map_congr_left fun entry hentry => ?_).trans (List.map_id _)
    have hne : entry.name ≠ t.name := fun heq => hfresh (heq ▸ List.mem_map_of_mem hentry)
    simp [hne]
  rw [entries_of_complete hcomplete, entries_of_declare hdeclare]
  simp only [List.map_append, hold, List.map_cons, List.map_nil, beq_self_eq_true, if_true]

/-- What accounts for a function are checks of its parameters. -/
theorem AccountsFor.parameter_of_mem {f : FunctionDeclaration}
    (h : AccountsFor r number (.function f) entries) : ∀ entry ∈ entries,
      ∃ q e, entry = ⟨.parameter q, e, .assert, some q.name, number⟩ := by
  intro entry hentry
  cases h with
  | function h =>
    obtain ⟨q, -, t, e, -, -, rfl⟩ := exists_mem_of_forall₂ h hentry
    exact ⟨q, _, rfl⟩

/-- Checks of parameters make no types known. -/
theorem AccountsFor.known_function {f : FunctionDeclaration}
    (h : AccountsFor r number (.function f) entries) :
    entries.filterMap PlanEntry.known? = [] := by
  refine List.filterMap_eq_nil_iff.2 fun entry hentry => ?_
  obtain ⟨q, e, rfl⟩ := h.parameter_of_mem entry hentry
  rfl

/-- A step adds the entries that account for its declaration, and the registry then knows the types
that they define. -/
theorem PlanStep.accounts
    (h : PlanStep (registryAfter bindings reserved above) number d entries r') :
    AccountsFor (registryAfter bindings reserved above) number d entries ∧
      r' = registryAfter bindings reserved (above ++ entries) := by
  cases h with
  | @define d e r₁ r₂ htop hdeclare hbuild hcomplete =>
    have hr := entries_of_declare_complete hdeclare hcomplete
    obtain rfl := entries_of_declare hdeclare
    refine ⟨.type hbuild, ?_⟩
    rw [hr, registryAfter, registryAfter, List.filterMap_append]
    rfl
  | @function d entries h =>
    have haccounts : AccountsFor (registryAfter bindings reserved above) number (.function d)
        entries := by
      refine .function (h.imp ?_)
      rintro p entry ⟨t, x, ht, hx, rfl⟩
      obtain ⟨e, he, rfl⟩ := receivedExpr_of_build hx
      exact ⟨t, e, ht, he, rfl⟩
    refine ⟨haccounts, ?_⟩
    rw [registryAfter, registryAfter, List.filterMap_append, haccounts.known_function,
      List.append_nil]
  | cast hbuild =>
    refine ⟨.cast hbuild, ?_⟩
    simp [registryAfter, PlanEntry.known?]
  | reify hbuild =>
    refine ⟨.reify hbuild, ?_⟩
    simp [registryAfter, PlanEntry.known?]

/-- The types that are known after a declaration is accounted for are those that it declares, each
with the expression of its definition. -/
theorem AccountsFor.known {d : Declaration} (h : AccountsFor r number d entries) :
    (entries.filterMap PlanEntry.known?).map (·.name) = typeNames [d] ∧
      (entries.filterMap PlanEntry.known?).map (fun known => (some known.name, known.expr)) =
        (entries.filter (·.mode = .define)).map fun entry => (entry.label, some entry.expr) := by
  cases d with
  | function f =>
    have hmode : entries.filter (·.mode = .define) = [] := by
      refine List.filter_eq_nil_iff.2 fun entry hentry => ?_
      obtain ⟨q, e, rfl⟩ := h.parameter_of_mem entry hentry
      simp
    rw [h.known_function, hmode]
    exact ⟨rfl, rfl⟩
  | _ =>
    cases h
    exact ⟨rfl, rfl⟩

/-- The entries that account for a function are owned by it; those for other declarations have no
owner. -/
theorem AccountsFor.owner?_eq {declarations : List Declaration}
    (h : AccountsFor r number d entries) (hd : declarations[number]? = some d) :
    ∀ entry ∈ entries, entry.owner? declarations = d.function? := by
  intro entry hentry
  have hsource : entry.source = number := by
    cases d with
    | function f =>
      obtain ⟨q, e, rfl⟩ := h.parameter_of_mem entry hentry
      rfl
    | _ =>
      cases h
      obtain rfl := List.mem_singleton.1 hentry
      rfl
  rw [PlanEntry.owner?, hsource, hd]
  cases d <;> rfl

end Step

section Run

variable {bindings : List Binding} {reserved : List String} {above entries : List PlanEntry}
  {r r' : Registry} {number : Nat} {ds : List Declaration}

/-- A run accounts for its declarations, each with the types known that are defined above it. -/
theorem PlanRun.accounts (h : PlanRun r number ds entries r')
    (hr : r = registryAfter bindings reserved above) :
    r' = registryAfter bindings reserved (above ++ entries) ∧
      (entries.filterMap PlanEntry.known?).map (·.name) = typeNames ds ∧
      (entries.filterMap PlanEntry.known?).map (fun known => (some known.name, known.expr)) =
        ((entries.filter (·.mode = .define)).map fun entry => (entry.label, some entry.expr)) ∧
      ∀ (k : Nat) (d : Declaration), ds[k]? = some d →
        AccountsFor (registryAfter bindings reserved (above ++
            (List.range' number k).flatMap fun n => entries.filter (·.source = n))) (number + k) d
          (entries.filter (·.source = number + k)) := by
  induction h generalizing above with
  | nil => exact ⟨by simpa using hr, rfl, rfl, by simp⟩
  | @cons r number d ds first r₁ more r₂ hstep hrun ih =>
    subst hr
    obtain ⟨haccounts, rfl⟩ := hstep.accounts
    obtain ⟨hnames, hexpressions⟩ := haccounts.known
    obtain ⟨hregistry, hnames', hexpressions', hrest⟩ := ih rfl
    refine ⟨by rw [hregistry, List.append_assoc], ?_, ?_, ?_⟩
    · rw [List.filterMap_append, List.map_append, hnames, hnames', ← typeNames_append]
      rfl
    · rw [List.filterMap_append, List.map_append, hexpressions, hexpressions', List.filter_append,
        List.map_append]
    · intro k d' hd'
      cases k with
      | zero =>
        obtain rfl : d = d' := by simpa using hd'
        rw [Nat.add_zero, filter_first hstep hrun]
        simpa using haccounts
      | succ k =>
        have hlater : ∀ n ∈ List.range' (number + 1) k,
            (first ++ more).filter (·.source = n) = more.filter (·.source = n) := fun n hn =>
          filter_later hstep (List.mem_range'_1.1 hn).1
        rw [filter_later hstep (by omega), List.range'_succ, List.flatMap_cons,
          filter_first hstep hrun, List.flatMap_congr hlater, ← List.append_assoc]
        have hnumber : number + (k + 1) = number + 1 + k := by omega
        rw [hnumber]
        exact hrest k d' (by simpa using hd')

end Run

/-- The entries of the three modes make up all entries. -/
theorem modes_perm (entries : List PlanEntry) :
    (entries.filter (·.mode = .define) ++ entries.filter (·.mode = .assert) ++
      entries.filter (·.mode = .reify)).Perm entries := by
  induction entries with
  | nil => rfl
  | cons entry rest ih =>
    cases hmode : entry.mode with
    | define => simpa [hmode] using ih
    | assert =>
      simp only [List.filter_cons, hmode, decide_true, decide_false, reduceCtorEq, if_true,
        Bool.false_eq_true, if_false, List.append_assoc, List.cons_append] at ih ⊢
      exact List.perm_middle.trans (ih.cons entry)
    | reify =>
      simp only [List.filter_cons, hmode, decide_true, decide_false, reduceCtorEq, if_true,
        Bool.false_eq_true, if_false] at ih ⊢
      exact List.perm_middle.trans (ih.cons entry)

/-- What is planned accounts for the declarations of the module: the entries of each of them are
there, in order and built against the types that are known where it stands, and nothing else; a
function owns its entries also where another one is equal to it; and afterwards the registry knows
just the declared types, all complete, with the expressions of their definitions. -/
theorem plan_accounts {bindings : List Binding} {reserved : List String}
    {declarations : List Declaration} {p : Plan} {r : Registry}
    (h : plan (Registry.ofModule bindings reserved) declarations = .ok (p, r)) :
    PlanAccounts bindings reserved declarations p r := by
  have hrun := planRun_of_plan h
  have hstart : Registry.ofModule bindings reserved = registryAfter bindings reserved [] := rfl
  obtain ⟨hregistry, hnames, hexpressions, haccounts⟩ := hrun.accounts hstart
  have haccounted (i : Nat) (d : Declaration) (hd : declarations[i]? = some d) :
      AccountsFor (registryAfter bindings reserved ((List.range i).flatMap p.ofDeclaration)) i d
        (p.ofDeclaration i) := by
    have hgroup := haccounts i d hd
    rw [Nat.zero_add, List.nil_append, ← List.range_eq_range'] at hgroup
    exact hgroup
  have hknown : r.entries = p.entries.filterMap PlanEntry.known? := by
    rw [hregistry]
    rfl
  refine ⟨?_, haccounted, fun i d hd => (haccounted i d hd).owner?_eq hd, modes_perm p.entries,
    fun mode => List.filter_sublist, hregistry, hknown ▸ hnames, ?_, hknown ▸ hexpressions⟩
  · rw [List.range_eq_range']
    exact hrun.flatMap_eq.symm
  · refine List.filter_eq_self.2 fun known hmem => ?_
    rw [hknown] at hmem
    obtain ⟨entry, -, hentry⟩ := List.mem_filterMap.1 hmem
    simp [Entry.isComplete, (PlanEntry.of_known? hentry).1]

/-- A function that takes any number of sizes, and sizes by their names. -/
def sizesFunction : FunctionDeclaration :=
  ⟨"f", [⟨"start", none, .positional, none⟩,
    ⟨"sizes", some (.reference "Size" [] none), .variadic, none⟩,
    ⟨"named", some (.reference "Size" [] none), .keywordVariadic, none⟩], none⟩

/-- A type, two functions that are equal, a cast and a model. -/
def sizeDeclarations : List Declaration :=
  [.type ⟨"Size", .array (.primitive "int" none) "list" none, false, true, none⟩,
    .function sizesFunction, .function sizesFunction, .cast ⟨.reference "Size" [] none, "x", none⟩,
    .reify ⟨"Model", .reference "Size" [] none, none⟩]

/-- Each of the two functions owns two checks, those of the second one are not those of the first
one, and the type is known afterwards. -/
theorem plan_accounts_sizes : ∃ p r, plan (Registry.ofModule [] []) sizeDeclarations = .ok (p, r) ∧
    PlanAccounts [] [] sizeDeclarations p r ∧
    (p.ofDeclaration 1).map (·.expr) = [.call .tuple [.name "Size"] none [("variadic", .bool true)],
      .call .dict [.primitive "Str", .name "Size"] none []] ∧
    (p.ofDeclaration 2).map (fun entry => (entry.source, entry.label)) =
      [(2, some "sizes"), (2, some "named")] ∧
    r.entries = [⟨"Size", false, none, .complete,
      some (.call .list [.primitive "Int"] (some "Size") [])⟩] := by
  have hplan : ∃ p r, plan (Registry.ofModule [] []) sizeDeclarations = .ok (p, r) ∧
      (p.ofDeclaration 1).map (·.expr) =
        [.call .tuple [.name "Size"] none [("variadic", .bool true)],
          .call .dict [.primitive "Str", .name "Size"] none []] ∧
      (p.ofDeclaration 2).map (fun entry => (entry.source, entry.label)) =
        [(2, some "sizes"), (2, some "named")] ∧
      r.entries = [⟨"Size", false, none, .complete,
        some (.call .list [.primitive "Int"] (some "Size") [])⟩] :=
    ⟨_, _, rfl, rfl, rfl, rfl⟩
  obtain ⟨p, r, hplan, hfirst, hsecond, hentries⟩ := hplan
  exact ⟨p, r, hplan, plan_accounts hplan, hfirst, hsecond, hentries⟩

end Typeward
