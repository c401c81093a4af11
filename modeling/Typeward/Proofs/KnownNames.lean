import Typeward.Proofs.BuiltForms
import Typeward.Proofs.LoweringRuns

/-!
# The names that plans read

A reference is built only if its name is declared, or starts with a name that is bound, or is that
of a builtin class. The registry never forgets a name, so at the end of a run all names that the
plan reads are known, those in the parts of inspected types included.
-/

namespace Typeward

open Registry

/-- A reference to a name stands somewhere in an expression. -/
inductive TypeExpr.Reads (n : String) : TypeExpr → Prop
  | name : Reads n (.name n)
  | deferred : Reads n (.deferred n)
  | delayed {e} (h : Reads n e) : Reads n (.delayed e)
  | field {name e} (h : Reads n e) : Reads n (.field name e)
  | call {combinator arguments shown options e} (he : e ∈ arguments) (h : Reads n e) :
      Reads n (.call combinator arguments shown options)
  | reified {e kind parts} (h : Reads n e) : Reads n (.reified e kind parts)
  | part {e kind parts p} (hp : p ∈ parts) (h : Reads n p) : Reads n (.reified e kind parts)

/-- A name is declared, or starts with a name that is bound, or is a builtin class. -/
def Registry.Knows (r : Registry) (n : String) : Prop :=
  n ∈ r.entries.map (·.name) ∨ rootOf n ∈ r.bindings.map (·.name) ∨ n ∈ builtinClasses

/-- An expression reads only names that are known. -/
def Registry.KnowsAll (r : Registry) (e : TypeExpr) : Prop := ∀ n, e.Reads n → r.Knows n

/-- The definitions of a registry read only names that are known. -/
def Registry.Closed (r : Registry) : Prop :=
  ∀ entry ∈ r.entries, ∀ e, entry.expr = some e → r.KnowsAll e

namespace TypeExpr

variable {n : String}

/-- The parts of an expression read what the expression reads. -/
theorem reads_of_mem_components : {e : TypeExpr} → {c : TypeExpr} → c ∈ e.components →
    c.Reads n → e.Reads n
  | .delayed e, c, hc, h => by
    rw [components] at hc
    exact .delayed (reads_of_mem_components hc h)
  | .field _ e, c, hc, h => by
    rw [List.mem_singleton.1 hc] at h
    exact .field h
  | .call .., c, hc, h => .call hc h
  | .reified .., c, hc, h => .part hc h
  | .primitive _, c, hc, h | .name _, c, hc, h | .deferred _, c, hc, h
  | .predicate _, c, hc, h | .constant _, c, hc, h => absurd hc List.not_mem_nil

/-- A display name reads nothing. -/
theorem Reads.of_named {e : TypeExpr} {shown : String} (h : (e.named shown).Reads n) :
    e.Reads n := by
  unfold named at h
  split at h
  · cases h with
    | call he h => exact .call he h
  · exact h

end TypeExpr

namespace Registry

variable {r r' : Registry}

/-- A call reads what its arguments read. -/
theorem KnowsAll.call {c : Combinator} {arguments : List TypeExpr} {shown : Option String}
    {options : List (String × Constant)} (h : ∀ e ∈ arguments, r.KnowsAll e) :
    r.KnowsAll (.call c arguments shown options) := by
  intro n hn
  cases hn with
  | call he hn => exact h _ he n hn

/-- A primitive reads no name. -/
theorem knowsAll_primitive (name : String) : r.KnowsAll (.primitive name) := nofun

/-- A constant reads no name. -/
theorem knowsAll_constant (value : Constant) : r.KnowsAll (.constant value) := nofun

/-- A predicate is no reference to a type. -/
theorem knowsAll_predicate (name : String) : r.KnowsAll (.predicate name) := nofun

/-- A property reads what its type reads. -/
theorem KnowsAll.field {e : TypeExpr} (name : String) (h : r.KnowsAll e) :
    r.KnowsAll (.field name e) := by
  intro n hn
  cases hn with
  | field hn => exact h n hn

/-- A check against a class reads the name of the class. -/
theorem knowsAll_classCheck {name : String} (h : r.Knows name) : r.KnowsAll (classCheck name) := by
  refine KnowsAll.call fun e he => ?_
  rw [List.mem_singleton.1 he]
  rintro n ⟨⟩
  exact h

/-- A reference that is found is known. -/
theorem knowsAll_of_lookup {name : String} {location : Option Location} {e : TypeExpr}
    (h : r.lookup name location = .ok e) : r.KnowsAll e := by
  have hdeclared {entry : Entry} (hget : r.get? name = some entry) : r.Knows name := by
    have hname : entry.name = name := by simpa using List.find?_some hget
    exact .inl (List.mem_map.2 ⟨entry, List.mem_of_find?_eq_some hget, hname⟩)
  have hbound {b : Binding} (hb : r.binding? (rootOf name) = some b) : r.Knows name := by
    have hname : b.name = rootOf name := by simpa using List.find?_some hb
    exact .inr (.inl (List.mem_map.2 ⟨b, List.mem_of_find?_eq_some hb, hname⟩))
  obtain ⟨entry, hget, ⟨-, rfl⟩ | ⟨-, -, rfl⟩⟩ |
    ⟨-, ⟨b, hb, ⟨-, rfl⟩ | ⟨-, rfl⟩⟩ | ⟨-, hbuiltin, rfl⟩⟩ := lookup_cases h
  · rintro n ⟨⟩
    exact hdeclared hget
  · rintro n ⟨⟩
    exact hdeclared hget
  · intro n hn
    cases hn with
    | delayed hn => exact knowsAll_classCheck (hbound hb) n hn
  · exact knowsAll_classCheck (hbound hb)
  · exact knowsAll_classCheck (.inr (.inr (List.contains_iff_mem.1 hbuiltin)))

/-- The builder reads no other names than the references do. -/
theorem carries_knowsAll (r : Registry) : r.Carries r.KnowsAll where
  primitive := knowsAll_primitive
  constant := knowsAll_constant
  predicate := knowsAll_predicate
  reference := knowsAll_of_lookup
  field := KnowsAll.field _
  call _ := KnowsAll.call

/-- What is built for a type reads only names that are known. -/
theorem knowsAll_of_build {t : StaticType} {e : TypeExpr} (h : (build r t).outcome = .ok e) :
    r.KnowsAll e :=
  (carries_knowsAll r).of_build h

/-- An expression is resolved to itself or to what completes an entry. -/
theorem eq_or_exists_of_resolve {e definition : TypeExpr} (h : r.resolve e = .ok definition) :
    definition = e ∨ ∃ entry ∈ r.entries, entry.expr = some definition := by
  unfold resolve at h
  split at h
  case h_3 => exact .inl (Except.ok.inj h).symm
  -- A reference that is deferred is resolved as one that is not.
  all_goals
    split at h
    · rename_i entry hget
      split at h
      · rename_i expr hstate hexpr
        obtain rfl := Except.ok.inj h
        exact .inr ⟨entry, List.mem_of_find?_eq_some hget, hexpr⟩
      · cases h
    · cases h

/-- What is built for inspection reads only names that are known, if definitions do. -/
theorem Closed.knowsAll_of_reify (hclosed : r.Closed) {t : StaticType} {x : TypeExpr}
    (h : (reify r t).outcome = .ok x) : r.KnowsAll x := by
  obtain ⟨e, definition, he, hdefinition, rfl⟩ := build_of_reify h
  have hbuilt := knowsAll_of_build he
  have hknown : r.KnowsAll definition := by
    rcases hdefinition with rfl | hresolve
    · exact hbuilt
    · rcases eq_or_exists_of_resolve hresolve with rfl | ⟨entry, hentry, hexpr⟩
      · exact hbuilt
      · exact hclosed entry hentry _ hexpr
  intro n hn
  cases hn with
  | reified hn => exact hbuilt n hn
  | part hp hn => exact hknown n (TypeExpr.reads_of_mem_components hp hn)

/-- A registry keeps its bindings and its names; the names that it gets satisfy a condition. -/
structure Extends (N : String → Prop) (r r' : Registry) : Prop where
  bindings : r'.bindings = r.bindings
  names : ∀ n ∈ r.entries.map (·.name), n ∈ r'.entries.map (·.name)
  added : ∀ n ∈ r'.entries.map (·.name), n ∈ r.entries.map (·.name) ∨ N n

variable {N : String → Prop}

/-- A registry extends itself. -/
theorem extends_refl (r : Registry) : r.Extends N r := ⟨rfl, fun _ h => h, fun _ h => .inl h⟩

/-- Names that satisfy a condition satisfy a weaker one. -/
theorem Extends.mono {M : String → Prop} (h : r.Extends M r') (hMN : ∀ n, M n → N n) :
    r.Extends N r' :=
  ⟨h.bindings, h.names, fun n hn => (h.added n hn).imp_right (hMN n)⟩

/-- A registry that is extended twice is extended. -/
theorem Extends.trans {r'' : Registry} (h : r.Extends N r') (h' : r'.Extends N r'') :
    r.Extends N r'' where
  bindings := h'.bindings.trans h.bindings
  names := fun n hn => h'.names n (h.names n hn)
  added := by
    intro n hn
    rcases h'.added n hn with hn | hn
    · exact h.added n hn
    · exact .inr hn

/-- What is known stays known. -/
theorem Extends.knows (h : r.Extends N r') {n : String} (hn : r.Knows n) : r'.Knows n := by
  rcases hn with hn | hn | hn
  · exact .inl (h.names n hn)
  · exact .inr (.inl (h.bindings ▸ hn))
  · exact .inr (.inr hn)

/-- An expression that reads only names that are known still does so. -/
theorem Extends.knowsAll (h : r.Extends N r') {e : TypeExpr} (he : r.KnowsAll e) :
    r'.KnowsAll e :=
  fun n hn => h.knows (he n hn)

/-- A declared name is an entry without a definition. -/
theorem declare_eq_ok {name : String} {isRecursive : Bool} {location : Option Location}
    (h : r.declare name isRecursive location = .ok r') :
    r.Extends (· = name) r' ∧
      ∀ entry ∈ r'.entries, entry ∈ r.entries ∨ entry.expr = none := by
  obtain rfl := entries_of_declare h
  refine ⟨⟨rfl, fun n hn => ?_, fun n hn => ?_⟩, fun entry hentry => ?_⟩
  · rw [List.map_append]
    exact List.mem_append_left _ hn
  · rw [List.map_append] at hn
    rcases List.mem_append.1 hn with hn | hn
    · exact .inl hn
    · exact .inr (List.mem_singleton.1 hn)
  · rcases List.mem_append.1 hentry with hentry | hentry
    · exact .inl hentry
    · rw [List.mem_singleton.1 hentry]
      exact .inr rfl

/-- A completed name is the former entry with its definition. -/
theorem complete_eq_ok {name : String} {e : TypeExpr} (h : r.complete name e = .ok r') :
    r.Extends N r' ∧ ∀ entry ∈ r'.entries, entry ∈ r.entries ∨ entry.expr = some e := by
  obtain rfl := entries_of_complete h
  let finish (entry : Entry) : Entry :=
    if entry.name == name then { entry with expr := some e, state := .complete } else entry
  have hname (entry : Entry) : (finish entry).name = entry.name := by
    simp only [finish]
    split <;> rfl
  have hnames : (r.entries.map finish).map (·.name) = r.entries.map (·.name) := by
    rw [List.map_map]
    exact List.map_congr_left fun entry _ => hname entry
  refine ⟨⟨rfl, fun n hn => ?_, fun n hn => ?_⟩, fun entry hentry => ?_⟩
  · exact hnames ▸ hn
  · exact .inl (hnames ▸ hn)
  · obtain ⟨old, hold, rfl⟩ := List.mem_map.1 hentry
    split
    · exact .inr rfl
    · exact .inl hold

end Registry

/-- What a step of the planner adds reads only names that are known afterwards, its definitions
included, and its labels are bound by the declaration that it is for. -/
structure PlanStep.Known (r : Registry) (d : Declaration) (entries : List PlanEntry)
    (r' : Registry) : Prop where
  closed : r'.Closed
  extended : r.Extends (fun n => d.bound? = some n) r'
  exprs : ∀ entry ∈ entries, r'.KnowsAll entry.expr
  labels : ∀ entry ∈ entries, entry.mode ≠ .assert → entry.label = d.bound?

/-- A step of the planner reads only names that are known. -/
theorem PlanStep.known {r r' : Registry} {number : Nat} {d : Declaration}
    {entries : List PlanEntry} (h : PlanStep r number d entries r') (hclosed : r.Closed) :
    PlanStep.Known r d entries r' := by
  have hsite {r : Registry} {location : Option Location} {e : TypeExpr}
      (he : (r.evaluatedAt location).KnowsAll e) : r.KnowsAll e := he
  cases h with
  | @define d e r₁ r₂ htop hdeclare hbuild hcomplete =>
    obtain ⟨hextends, hentries⟩ := declare_eq_ok hdeclare
    obtain ⟨hextends', hentries'⟩ := complete_eq_ok (N := (· = d.name)) hcomplete
    have hexpr : r'.KnowsAll (e.named d.name) := by
      intro n hn
      exact hextends'.knows (hsite (knowsAll_of_build hbuild) n hn.of_named)
    refine ⟨?_, ?_, ?_, ?_⟩
    · intro entry hentry e' he'
      rcases hentries' entry hentry with hentry | hcompleted
      · rcases hentries entry hentry with hentry | hnone
        · exact (hextends.trans hextends').knowsAll (hclosed entry hentry e' he')
        · simp [hnone] at he'
      · rw [hcompleted] at he'
        rw [← Option.some.inj he']
        exact hexpr
    · refine (hextends.trans hextends').mono fun n hn => ?_
      rw [hn]
      rfl
    · intro entry hentry
      rw [List.mem_singleton.1 hentry]
      exact hexpr
    · intro entry hentry hmode
      rw [List.mem_singleton.1 hentry]
      rfl
  | function h =>
    refine ⟨hclosed, extends_refl r, ?_, ?_⟩
    · intro entry hentry
      obtain ⟨p, -, t, e, -, hbuild, rfl⟩ := exists_mem_of_forall₂ h hentry
      exact knowsAll_of_build hbuild
    · intro entry hentry hmode
      obtain ⟨p, -, t, e, -, -, rfl⟩ := exists_mem_of_forall₂ h hentry
      exact absurd rfl hmode
  | cast hbuild =>
    refine ⟨hclosed, extends_refl r, ?_, ?_⟩
    · intro entry hentry
      rw [List.mem_singleton.1 hentry]
      exact hsite (knowsAll_of_build hbuild)
    · intro entry hentry hmode
      rw [List.mem_singleton.1 hentry] at hmode
      exact absurd rfl hmode
  | @reify d e hbuild =>
    have hclosed' : (r.evaluatedAt d.location).Closed := hclosed
    refine ⟨hclosed, extends_refl r, ?_, ?_⟩
    · intro entry hentry
      rw [List.mem_singleton.1 hentry]
      exact hsite (hclosed'.knowsAll_of_reify hbuild)
    · intro entry hentry hmode
      rw [List.mem_singleton.1 hentry]
      rfl

/-- A run of the planner reads only names that are known at its end, its labels are bound by the
declarations, and so are the names that are new. -/
theorem PlanRun.known {r r' : Registry} {number : Nat} {ds : List Declaration}
    {entries : List PlanEntry} (h : PlanRun r number ds entries r') (hclosed : r.Closed) :
    r.Extends (fun n => ∃ d ∈ ds, d.bound? = some n) r' ∧
      ∀ entry ∈ entries, r'.KnowsAll entry.expr ∧
        (entry.mode ≠ .assert → ∃ d ∈ ds, entry.label = d.bound?) := by
  induction h with
  | nil r number => exact ⟨extends_refl r, by simp⟩
  | @cons r number d ds first r₁ more r₂ hstep hrun ih =>
    have hknown := hstep.known hclosed
    obtain ⟨hextends, hmore⟩ := ih hknown.closed
    refine ⟨?_, fun entry hentry => ?_⟩
    · refine (hknown.extended.mono ?_).trans (hextends.mono ?_)
      · intro n hn
        exact ⟨d, List.mem_cons_self, hn⟩
      · rintro n ⟨d', hd', hn⟩
        exact ⟨d', List.mem_cons_of_mem _ hd', hn⟩
    · rcases List.mem_append.1 hentry with hentry | hentry
      · refine ⟨hextends.knowsAll (hknown.exprs entry hentry), fun hmode => ?_⟩
        exact ⟨d, List.mem_cons_self, hknown.labels entry hentry hmode⟩
      · obtain ⟨hreads, hlabel⟩ := hmore entry hentry
        refine ⟨hreads, fun hmode => ?_⟩
        obtain ⟨d', hd', heq⟩ := hlabel hmode
        exact ⟨d', List.mem_cons_of_mem _ hd', heq⟩

end Typeward
