import Typeward.Proofs.BuiltForms

/-!
# What references may stand for

In a plan a reference to a type that is declared above is the name of the type. A recursive type
refers to itself by a late name, and everything else that can be used as a type is a class that the
module binds, or a builtin one. A check against a class is delayed just when the code that holds it
runs on import and the class is bound below that code.

The registry that a type is built against knows the types that the plan defines above, and a run of
the planner keeps it so.
-/

namespace Typeward

open Registry

/-- What the references in an expression may stand for. -/
structure Scoping where
  /-- The recursive type that is being defined. -/
  Late : String → Prop
  /-- The types that are defined. -/
  Defined : String → Prop
  /-- The classes that are no types of the module. -/
  Class : String → Prop
  /-- The classes that are not bound yet where the expression is evaluated. -/
  BoundLater : String → Prop

/-- All references in an expression stand for something, and of the checks against classes exactly
those are delayed whose class is bound later. Of an expression that a program asks for, the parts
that are shown of its definition do not count. -/
inductive TypeExpr.Scoped (k : Scoping) : TypeExpr → Prop
  | primitive (name) : Scoped k (.primitive name)
  | predicate (name) : Scoped k (.predicate name)
  | constant (value) : Scoped k (.constant value)
  | name {n} (h : k.Defined n) : Scoped k (.name n)
  | deferred {n} (h : k.Late n) : Scoped k (.deferred n)
  | classCheck {n shown options} (h : k.Class n) (hnow : ¬ k.BoundLater n) :
      Scoped k (.call .irreducible [.name n] shown options)
  | delayed {n shown options} (h : k.Class n) (hlater : k.BoundLater n) :
      Scoped k (.delayed (.call .irreducible [.name n] shown options))
  | field {name e} (h : Scoped k e) : Scoped k (.field name e)
  | call {c arguments shown options} (hc : c ≠ .irreducible) (h : ∀ e ∈ arguments, Scoped k e) :
      Scoped k (.call c arguments shown options)
  | reified {e kind parts} (h : Scoped k e) : Scoped k (.reified e kind parts)

namespace TypeExpr.Scoped

variable {k k' : Scoping} {e : TypeExpr}

/-- References may stand for more, as long as the same classes are bound later. -/
theorem mono (h : e.Scoped k) (hlate : ∀ n, k.Late n → k'.Late n)
    (hdefined : ∀ n, k.Defined n → k'.Defined n) (hclass : ∀ n, k.Class n → k'.Class n)
    (hlater : ∀ n, k.BoundLater n ↔ k'.BoundLater n) : e.Scoped k' := by
  induction h with
  | primitive name => exact .primitive name
  | predicate name => exact .predicate name
  | constant value => exact .constant value
  | name h => exact .name (hdefined _ h)
  | deferred h => exact .deferred (hlate _ h)
  | classCheck h hnow => exact .classCheck (hclass _ h) fun hn => hnow ((hlater _).2 hn)
  | delayed h hn => exact .delayed (hclass _ h) ((hlater _).1 hn)
  | field h ih => exact .field ih
  | call hc h ih => exact .call hc ih
  | reified h ih => exact .reified ih

/-- A display name refers to nothing. -/
theorem named (h : e.Scoped k) (shown : String) : (e.named shown).Scoped k := by
  unfold TypeExpr.named
  split
  · cases h with
    | classCheck h hnow => exact .classCheck h hnow
    | call hc h => exact .call hc h
  · exact h

end TypeExpr.Scoped

namespace Registry

variable {r r' : Registry}

/-- What references may stand for when they are built against a registry. -/
def scoping (r : Registry) : Scoping where
  Late n := ∃ entry, r.get? n = some entry ∧ entry.isComplete = false ∧ entry.isRecursive = true
  Defined n := ∃ entry, r.get? n = some entry ∧ entry.isComplete = true
  Class n := r.get? n = none ∧ ((r.binding? (rootOf n)).isSome ∨ n ∈ builtinClasses)
  BoundLater n := ∃ b, r.binding? (rootOf n) = some b ∧ r.isBoundLater b = true

/-- A reference that is found stands for something. -/
theorem scoped_of_lookup {name : String} {location : Option Location} {e : TypeExpr}
    (h : r.lookup name location = .ok e) : e.Scoped r.scoping := by
  obtain ⟨entry, hget, ⟨hcomplete, rfl⟩ | ⟨hpending, hrecursive, rfl⟩⟩ |
    ⟨hget, ⟨b, hb, ⟨hlater, rfl⟩ | ⟨hnow, rfl⟩⟩ | ⟨hb, hbuiltin, rfl⟩⟩ := lookup_cases h
  · exact .name ⟨entry, hget, hcomplete⟩
  · exact .deferred ⟨entry, hget, hpending, hrecursive⟩
  · exact .delayed ⟨hget, .inl (by simp [hb])⟩ ⟨b, hb, hlater⟩
  · refine .classCheck ⟨hget, .inl (by simp [hb])⟩ ?_
    rintro ⟨b', hb', hlater⟩
    obtain rfl := Option.some.inj (hb.symm.trans hb')
    simp [hnow] at hlater
  · refine .classCheck ⟨hget, .inr (List.contains_iff_mem.1 hbuiltin)⟩ ?_
    rintro ⟨b', hb', -⟩
    simp [hb] at hb'

/-- All references in what is built for a type stand for something. -/
theorem scoped_of_build {t : StaticType} {e : TypeExpr} (h : (build r t).outcome = .ok e) :
    e.Scoped r.scoping := by
  have hcarries : r.Carries (TypeExpr.Scoped r.scoping) :=
    ⟨.primitive, .constant, .predicate, scoped_of_lookup, .field, .call⟩
  exact hcarries.of_build h

/-- The binding that is put into a list is the one of its name. -/
theorem find?_putBinding (bindings : List Binding) (b : Binding) (n : String) :
    (putBinding bindings b).find? (·.name == n) =
      if b.name == n then some b else bindings.find? (·.name == n) := by
  unfold putBinding
  split
  · rename_i hany
    let place (old : Binding) : Binding := if old.name == b.name then b else old
    have hname : ((·.name == n) ∘ place) = (·.name == n) := by
      funext old
      by_cases hold : old.name = b.name <;> simp [place, hold]
    rw [List.find?_map, hname]
    cases hfound : bindings.find? (·.name == n) with
    | none =>
      obtain ⟨old, hold, heq⟩ := List.any_eq_true.1 hany
      have hother := List.find?_eq_none.1 hfound old hold
      rw [eq_of_beq heq] at hother
      simp [hother]
    | some old =>
      have hold : old.name = n := by simpa using List.find?_some hfound
      by_cases hb : b.name = n
      · simp [hold, hb]
      · simp [hold, hb, Ne.symm hb]
  · rename_i hany
    rw [List.find?_append]
    by_cases hb : b.name = n
    · have hnone : bindings.find? (·.name == n) = none := by
        refine List.find?_eq_none.2 fun old hold heq => hany ?_
        exact List.any_eq_true.2 ⟨old, hold, by simpa [hb] using heq⟩
      simp [hnone, hb]
    · simp [hb]

/-- Of the bindings of one name the last one counts. -/
theorem binding?_ofModule (bindings : List Binding) (reserved : List String) (n : String) :
    (ofModule bindings reserved).binding? n = bindings.reverse.find? (·.name == n) := by
  have hfold (old : List Binding) : (bindings.foldl putBinding old).find? (·.name == n) =
      (bindings.reverse.find? (·.name == n)).or (old.find? (·.name == n)) := by
    induction bindings generalizing old with
    | nil => rfl
    | cons b rest ih =>
      rw [List.foldl_cons, ih, find?_putBinding, List.reverse_cons, List.find?_append]
      cases rest.reverse.find? (·.name == n) with
      | some => rfl
      | none => by_cases hb : b.name == n <;> simp [hb]
  exact (hfold []).trans (Option.or_none)

end Registry

/-- The names of the types that are defined by entries. -/
def definedNames (entries : List PlanEntry) : List String :=
  (entries.filter (·.mode = .define)).filterMap (·.label)

/-- Where the code of an entry runs, if it runs on import. -/
def Site.location? : Site → Option Location
  | .type d => d.location
  | .cast d => d.location
  | .reify d => d.location
  | .parameter _ | .function _ => none

/-- What the references in an entry of a plan may stand for, given the bindings of the module and
the entries above. -/
def PlanEntry.scoping (bindings : List Binding) (above : List PlanEntry) (entry : PlanEntry) :
    Scoping where
  Late n := entry.mode = .define ∧ entry.label = some n ∧
    ∃ d, entry.site = .type d ∧ d.isRecursive = true
  Defined n := n ∈ definedNames above
  Class n := ((∃ b ∈ bindings, b.name = rootOf n) ∨ n ∈ builtinClasses) ∧
    n ∉ definedNames (above ++ [entry])
  BoundLater n := ∃ b place site, bindings.reverse.find? (·.name == rootOf n) = some b ∧
    b.location = some place ∧ entry.site.location? = some site ∧
    (site.line < place.line ∨ site.line = place.line ∧ site.column < place.column)

/-- Entries define what the first and the others define. -/
@[simp]
theorem definedNames_append (first rest : List PlanEntry) :
    definedNames (first ++ rest) = definedNames first ++ definedNames rest := by
  simp [definedNames]

/-- Checks, and models of types, define no types. -/
theorem definedNames_eq_nil {entries : List PlanEntry} (h : ∀ entry ∈ entries, entry.mode ≠ .define) :
    definedNames entries = [] := by
  rw [definedNames, List.filter_eq_nil_iff.2 fun entry hentry => by simpa using h entry hentry]
  rfl

/-- What is built against a registry that knows the types above an entry, and of the others the one
that the entry defines, refers to what the entry may refer to. -/
theorem TypeExpr.Scoped.of_registry {r : Registry} {bindings : List Binding}
    {above : List PlanEntry} {entry : PlanEntry} {e : TypeExpr} (h : e.Scoped r.scoping)
    (hnames : r.entries.map (·.name) = definedNames (above ++ [entry]))
    (hcomplete : ∀ known ∈ r.entries, known.isComplete = true → known.name ∈ definedNames above)
    (hpending : ∀ known ∈ r.entries, known.isComplete = false → known.isRecursive = true →
      (entry.scoping bindings above).Late known.name)
    (hbinding : ∀ n, r.binding? n = bindings.reverse.find? (·.name == n))
    (hsite : r.site = entry.site.location?) : e.Scoped (entry.scoping bindings above) := by
  have hget {n : String} {known : Entry} (hknown : r.get? n = some known) :
      known ∈ r.entries ∧ known.name = n :=
    ⟨List.mem_of_find?_eq_some hknown, by simpa using List.find?_some hknown⟩
  refine h.mono ?_ ?_ ?_ ?_
  · rintro n ⟨known, hknown, hincomplete, hrecursive⟩
    obtain ⟨hmem, rfl⟩ := hget hknown
    exact hpending known hmem hincomplete hrecursive
  · rintro n ⟨known, hknown, hfinished⟩
    obtain ⟨hmem, rfl⟩ := hget hknown
    exact hcomplete known hmem hfinished
  · rintro n ⟨hnone, hclass⟩
    refine ⟨hclass.imp_left fun hb => ?_, fun hmem => ?_⟩
    · rw [hbinding] at hb
      obtain ⟨b, hb⟩ := Option.isSome_iff_exists.1 hb
      exact ⟨b, List.mem_reverse.1 (List.mem_of_find?_eq_some hb), by simpa using List.find?_some hb⟩
    · rw [← hnames] at hmem
      obtain ⟨known, hknown, heq⟩ := List.mem_map.1 hmem
      exact absurd (beq_iff_eq.2 heq) (List.find?_eq_none.1 hnone known hknown)
  · intro n
    have hlater (b : Binding) : r.isBoundLater b = true ↔ ∃ place site, b.location = some place ∧
        entry.site.location? = some site ∧
        (site.line < place.line ∨ site.line = place.line ∧ site.column < place.column) := by
      rw [isBoundLater, hsite]
      cases entry.site.location? <;> cases b.location <;>
        simp [Location.isBelow, eq_comm (a := (_ : Int)) (b := (_ : Int))]
    constructor
    · rintro ⟨b, hb, hn⟩
      obtain ⟨place, site, hplace, hsite, hbelow⟩ := (hlater b).1 hn
      exact ⟨b, place, site, hbinding _ ▸ hb, hplace, hsite, hbelow⟩
    · rintro ⟨b, place, site, hb, hplace, hsite, hbelow⟩
      exact ⟨b, (hbinding _).trans hb, (hlater b).2 ⟨place, site, hplace, hsite, hbelow⟩⟩

/-- A registry knows the types that entries of a plan for a module define, and nothing else. -/
structure Registry.KnowsTypes (r : Registry) (bindings : List Binding) (above : List PlanEntry) :
    Prop where
  names : r.entries.map (·.name) = definedNames above
  complete : ∀ known ∈ r.entries, known.isComplete = true
  defined : ∀ known ∈ r.entries, ∃ e, known.expr = some e
  binding : ∀ n, r.binding? n = bindings.reverse.find? (·.name == n)
  site : r.site = none

namespace Registry.KnowsTypes

variable {r r' : Registry} {bindings : List Binding} {above : List PlanEntry}

/-- A new registry knows no types. -/
theorem ofModule (bindings : List Binding) (reserved : List String) :
    (Registry.ofModule bindings reserved).KnowsTypes bindings [] :=
  ⟨rfl, by simp [Registry.ofModule], by simp [Registry.ofModule],
    binding?_ofModule bindings reserved, rfl⟩

/-- Entries that define no types add nothing that must be known. -/
theorem append (h : r.KnowsTypes bindings above) {entries : List PlanEntry}
    (hentries : ∀ entry ∈ entries, entry.mode ≠ .define) :
    r.KnowsTypes bindings (above ++ entries) := by
  refine ⟨?_, h.complete, h.defined, h.binding, h.site⟩
  rw [h.names, definedNames_append, definedNames_eq_nil hentries, List.append_nil]

/-- What is built for an entry that defines no type refers to what the entry may refer to. -/
theorem scoped_of_build (h : r.KnowsTypes bindings above) {entry : PlanEntry} {t : StaticType}
    {e : TypeExpr} (hmode : entry.mode ≠ .define)
    (hbuild : (build (r.evaluatedAt entry.site.location?) t).outcome = .ok e) :
    e.Scoped (entry.scoping bindings above) := by
  have hone : ∀ other ∈ [entry], other.mode ≠ .define := by simpa using hmode
  have hnames := (h.append hone).names
  refine (Registry.scoped_of_build hbuild).of_registry hnames ?_ ?_ h.binding rfl
  · intro known hknown _
    rw [← h.names]
    exact List.mem_map_of_mem hknown
  · intro known hknown hpending
    rw [h.complete known hknown] at hpending
    cases hpending

/-- What is built for the definition of a type refers to what the definition may refer to. -/
theorem scoped_of_declare (h : r.KnowsTypes bindings above) {number : Nat} {d : TypeDeclaration}
    {e x : TypeExpr} (hdeclare : r.declare d.name d.isRecursive d.location = .ok r')
    (hbuild : (build (r'.evaluatedAt d.location) d.type).outcome = .ok e) :
    e.Scoped (PlanEntry.scoping bindings above ⟨.type d, x, .define, some d.name, number⟩) := by
  obtain rfl := entries_of_declare hdeclare
  refine (Registry.scoped_of_build hbuild).of_registry ?_ ?_ ?_ h.binding rfl
  · rw [definedNames_append, ← h.names]
    exact List.map_append
  · intro known hknown hcomplete
    rcases List.mem_append.1 hknown with hknown | hknown
    · rw [← h.names]
      exact List.mem_map_of_mem hknown
    · rw [List.mem_singleton.1 hknown] at hcomplete
      cases hcomplete
  · intro known hknown hpending hrecursive
    rcases List.mem_append.1 hknown with hknown | hknown
    · rw [h.complete known hknown] at hpending
      cases hpending
    · rw [List.mem_singleton.1 hknown] at hrecursive ⊢
      exact ⟨rfl, rfl, d, rfl, hrecursive⟩

/-- The definition of a type is complete when the next declaration is planned. -/
theorem define (h : r.KnowsTypes bindings above) {number : Nat} {d : TypeDeclaration} {e : TypeExpr}
    {r₁ r₂ : Registry} (hdeclare : r.declare d.name d.isRecursive d.location = .ok r₁)
    (hcomplete : r₁.complete d.name e = .ok r₂) :
    r₂.KnowsTypes bindings (above ++ [⟨.type d, e, .define, some d.name, number⟩]) := by
  obtain rfl := entries_of_declare hdeclare
  obtain rfl := entries_of_complete hcomplete
  let finish (known : Entry) : Entry :=
    if known.name == d.name then { known with expr := some e, state := .complete } else known
  -- Only the entry of the declared type is new, and that one is finished.
  have hfinish : ∀ old ∈ r.entries ++ [⟨d.name, d.isRecursive, d.location, .pending, none⟩],
      finish old = { old with expr := some e, state := .complete } ∨
        finish old = old ∧ old ∈ r.entries := by
    intro old hold
    by_cases hname : old.name = d.name
    · exact .inl (by simp [finish, hname])
    · refine .inr ⟨by simp [finish, hname], ?_⟩
      rcases List.mem_append.1 hold with hold | hold
      · exact hold
      · rw [List.mem_singleton.1 hold] at hname
        simp at hname
  refine ⟨?_, fun known hknown => ?_, fun known hknown => ?_, h.binding, h.site⟩
  · have hname (known : Entry) : (finish known).name = known.name := by
      simp only [finish]
      split <;> rfl
    rw [definedNames_append, ← h.names]
    change (List.map finish _).map (·.name) = _
    simp only [List.map_map, Function.comp_def, hname, List.map_append]
    rfl
  · obtain ⟨old, hold, rfl⟩ := List.mem_map.1 hknown
    rcases hfinish old hold with heq | ⟨heq, hold⟩
    · exact congrArg Entry.isComplete heq
    · exact (congrArg Entry.isComplete heq).trans (h.complete old hold)
  · obtain ⟨old, hold, rfl⟩ := List.mem_map.1 hknown
    rcases hfinish old hold with heq | ⟨heq, hold⟩
    · exact ⟨e, congrArg Entry.expr heq⟩
    · exact (h.defined old hold).imp fun x hx => (congrArg Entry.expr heq).trans hx

end Registry.KnowsTypes

/-- The references in entries of a plan stand for what they may stand for, given the bindings of the
module and the entries above. -/
def WellScoped (bindings : List Binding) (above entries : List PlanEntry) : Prop :=
  ∀ (i : Nat) (entry : PlanEntry), entries[i]? = some entry →
    entry.expr.Scoped (entry.scoping bindings (above ++ entries.take i))

/-- One entry is well scoped if its expression is. -/
theorem wellScoped_singleton {bindings : List Binding} {above : List PlanEntry} {entry : PlanEntry}
    (h : entry.expr.Scoped (entry.scoping bindings above)) :
    WellScoped bindings above [entry] := by
  intro i found hfound
  cases i with
  | zero =>
    obtain rfl : entry = found := by simpa using hfound
    simpa using h
  | succ i => simp at hfound

/-- Entries behind others are well scoped among them. -/
theorem WellScoped.append {bindings : List Binding} {above first rest : List PlanEntry}
    (hfirst : WellScoped bindings above first) (hrest : WellScoped bindings (above ++ first) rest) :
    WellScoped bindings above (first ++ rest) := by
  intro i entry hentry
  by_cases hi : i < first.length
  · rw [List.getElem?_append_left hi] at hentry
    rw [List.take_append_of_le_length (Nat.le_of_lt hi)]
    exact hfirst i entry hentry
  · rw [List.getElem?_append_right (Nat.le_of_not_lt hi)] at hentry
    have htake : (first ++ rest).take i = first ++ rest.take (i - first.length) := by
      rw [List.take_append, List.take_of_length_le (Nat.le_of_not_lt hi)]
    rw [htake, ← List.append_assoc]
    exact hrest _ entry hentry

/-- The entries of a step are well scoped, and the registry knows the types that they define. -/
theorem PlanStep.wellScoped {r r' : Registry} {number : Nat} {d : Declaration}
    {entries : List PlanEntry} {bindings : List Binding} {above : List PlanEntry}
    (h : PlanStep r number d entries r') (hknows : r.KnowsTypes bindings above) :
    WellScoped bindings above entries ∧ r'.KnowsTypes bindings (above ++ entries) := by
  cases h with
  | @define d e r₁ r₂ htop hdeclare hbuild hcomplete =>
    refine ⟨wellScoped_singleton ?_, hknows.define hdeclare hcomplete⟩
    exact (hknows.scoped_of_declare hdeclare hbuild).named d.name
  | function h =>
    have hentries : ∀ entry ∈ entries, entry.mode ≠ .define := by
      intro entry hentry
      obtain ⟨p, -, t, e, -, -, rfl⟩ := exists_mem_of_forall₂ h hentry
      simp
    refine ⟨fun i entry hentry => ?_, hknows.append hentries⟩
    have hmem := List.mem_of_getElem? hentry
    obtain ⟨p, -, t, e, -, hbuild, rfl⟩ := exists_mem_of_forall₂ h hmem
    have htake : ∀ entry ∈ entries.take i, entry.mode ≠ .define :=
      fun entry hentry => hentries entry (List.mem_of_mem_take hentry)
    have hsite : r.evaluatedAt none = r := by rw [evaluatedAt, ← hknows.site]
    rw [← hsite] at hbuild
    exact (hknows.append htake).scoped_of_build (by simp) hbuild
  | cast hbuild =>
    refine ⟨wellScoped_singleton (hknows.scoped_of_build ?_ hbuild), hknows.append ?_⟩ <;> simp
  | reify hbuild =>
    obtain ⟨e, definition, he, -, rfl⟩ := build_of_reify hbuild
    refine ⟨wellScoped_singleton (.reified (hknows.scoped_of_build ?_ he)), hknows.append ?_⟩ <;>
      simp

/-- The entries of a run are well scoped. -/
theorem PlanRun.wellScoped {r r' : Registry} {number : Nat} {ds : List Declaration}
    {entries : List PlanEntry} {bindings : List Binding} {above : List PlanEntry}
    (h : PlanRun r number ds entries r') (hknows : r.KnowsTypes bindings above) :
    WellScoped bindings above entries := by
  induction h generalizing above with
  | nil => exact fun i entry hentry => by simp at hentry
  | cons hstep hrun ih =>
    obtain ⟨hfirst, hknows'⟩ := hstep.wellScoped hknows
    exact hfirst.append (ih hknows')

/-- The references in a plan are well scoped: in an entry a late name is that of the recursive type
which the entry defines, any other name is that of a type defined above, a class is builtin or bound
by the module and is no type declared so far, and a check against a class is delayed just when the
class is bound below the place at which the entry runs on import. -/
theorem references_scoped {bindings : List Binding} {reserved : List String}
    {declarations : List Declaration} {p : Plan} {r : Registry}
    (h : plan (Registry.ofModule bindings reserved) declarations = .ok (p, r)) {i : Nat}
    {entry : PlanEntry} (hentry : p.entries[i]? = some entry) :
    entry.expr.Scoped (entry.scoping bindings (p.entries.take i)) :=
  (planRun_of_plan h).wellScoped (.ofModule bindings reserved) i entry hentry

/-- A recursive type that refers to itself and to a class which is bound below, and a function that
takes both. -/
def nodeDeclarations : List Declaration :=
  [.type ⟨"Node", .record [⟨"next", .nullable (.reference "Node" [] none) none, false, none⟩,
      ⟨"leaf", .reference "Leaf" [] none, false, none⟩] none none, true, true, some ⟨1, 1, none⟩⟩,
    .function ⟨"f", [⟨"node", some (.reference "Node" [] none), .positional, none⟩,
      ⟨"leaf", some (.reference "Leaf" [] none), .positional, none⟩], some ⟨5, 1, none⟩⟩]

/-- The class that the type and the function refer to. -/
def leafBinding : Binding := ⟨"Leaf", .ofClass, some ⟨9, 1, none⟩⟩

/-- The definition refers to its own type late and delays the check against the class; the check of
a parameter does not. -/
theorem references_scoped_node :
    ∃ p r, plan (Registry.ofModule [leafBinding] []) nodeDeclarations = .ok (p, r) ∧
      ∃ first second third, p.entries = [first, second, third] ∧
        first.expr = .call .interface [.field "next" (.combine .maybe [.deferred "Node"]),
          .field "leaf" (.delayed (classCheck "Leaf"))] (some "Node") [] ∧
        second.expr = .name "Node" ∧ third.expr = classCheck "Leaf" ∧
        first.expr.Scoped (first.scoping [leafBinding] []) ∧
        second.expr.Scoped (second.scoping [leafBinding] [first]) ∧
        third.expr.Scoped (third.scoping [leafBinding] [first, second]) := by
  have hplan : ∃ p r, plan (Registry.ofModule [leafBinding] []) nodeDeclarations = .ok (p, r) ∧
      ∃ first second third, p.entries = [first, second, third] ∧
        first.expr = .call .interface [.field "next" (.combine .maybe [.deferred "Node"]),
          .field "leaf" (.delayed (classCheck "Leaf"))] (some "Node") [] ∧
        second.expr = .name "Node" ∧ third.expr = classCheck "Leaf" :=
    ⟨_, _, rfl, _, _, _, rfl, rfl, rfl, rfl⟩
  obtain ⟨p, r, hplan, first, second, third, hentries, hfirst, hsecond, hthird⟩ := hplan
  have hscoped (i : Nat) {entry : PlanEntry} (hentry : p.entries[i]? = some entry) :
      entry.expr.Scoped (entry.scoping [leafBinding] (p.entries.take i)) :=
    references_scoped hplan hentry
  rw [hentries] at hscoped
  exact ⟨p, r, hplan, first, second, third, hentries, hfirst, hsecond, hthird, hscoped 0 rfl,
    hscoped 1 rfl, hscoped 2 rfl⟩

end Typeward
