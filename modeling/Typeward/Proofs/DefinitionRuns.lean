import Typeward.Proofs.ResolvedTypes
import Typeward.Proofs.ScopedReferences
import Typeward.Proofs.WidthSubtyping

/-!
# Runs of the definitions of a module

The definitions of a plan are evaluated in order, and from then on their names stand for the types
made. Where every other name that a definition uses stands for one type, too, whenever it is looked
up, each definition makes the type that its expression stands for, whatever was finished, bound or
delayed where it was built.
-/

namespace Typeward

open Registry TypeExpr

/-- What is used in an expression may refer to what the expression may refer to. -/
theorem TypeExpr.Uses.scoped {k : Scoping} {x e : TypeExpr} (hx : x.Uses e) (h : e.Scoped k) :
    x.Scoped k := by
  induction hx with
  | self => exact h
  | field _ ih =>
    cases h with
    | field h => exact ih h
  | call hc he _ ih =>
    cases h with
    | classCheck => exact absurd rfl hc
    | call _ h => exact ih (h _ he)

/-- In a session a name stands for a type. -/
def Session.Knows (s : Session) (name : String) (t : Schema) : Prop :=
  ∃ v, s.read name = some (.value v) ∧ s.IsModel v t

/-- On the way to a later session a definition is evaluated. The library has its alias there, and what
the definition needs of the names that the module does not define stands for what it is said to: the
classes that it checks against at once there, the others later. What it is evaluated to is what its
own name stands for later. -/
structure PlanEntry.Evaluated (entry : PlanEntry) (runtime : String) (world : World) (n : Naming)
    (start later : Session) : Prop where
  started : (Session.start start.names).Extends start
  library : start.names.lookup runtime = some .library
  checked : ∀ x, (classCheck x).Uses entry.expr → start.Gives x (n.type x)
  delayed : ∀ x, (TypeExpr.delayed (classCheck x)).Uses entry.expr → later.Gives x (n.type x)
  predicates : ∀ q, (TypeExpr.predicate q).Uses entry.expr →
    start.read q = some (.value (n.predicate q))
  bound : ∀ name, entry.label = some name → ∃ x v s, render runtime entry.expr = .ok x ∧
    (Inspection.evaluate world x).run start = (.ok (.value v), s) ∧ s.Kept later ∧
    s.IsModel v (n.type name) ∧ later.read name = some (.value v)

/-- The definitions of a plan are evaluated, each in a session of its own, on the way to a later one
in which checks make sense. Below a definition, its name stands for the type that it made. -/
structure Plan.Runs (p : Plan) (runtime : String) (world : World) (target : Nat → Schema)
    (Shows : Nat → Prop) (n : Naming) (start : Nat → Session) (later : Session) : Prop where
  settled : later.Settled world target Shows
  library : later.names.lookup runtime = some .library
  grounded : ∀ x, (n.type x).Grounded (Value.Fit Shows) later.slots.size
  evaluated : ∀ (i : Nat) (entry : PlanEntry), p.entries[i]? = some entry →
    entry.mode = .define → entry.Evaluated runtime world n (start i) later
  known : ∀ (i j : Nat) (entry entry' : PlanEntry) (name : String), i < j →
    p.entries[i]? = some entry → entry.mode = .define → entry.label = some name →
    p.entries[j]? = some entry' → entry'.mode = .define → (start j).Knows name (n.type name)

namespace Plan.Runs

variable {p : Plan} {runtime : String} {world : World} {target : Nat → Schema}
  {Shows : Nat → Prop} {n : Naming} {start : Nat → Session} {later : Session} {i : Nat}
  {entry : PlanEntry}

/-- Definitions are evaluated where expressions can be evaluated. -/
theorem opens (h : p.Runs runtime world target Shows n start later)
    (hentry : p.entries[i]? = some entry) (hmode : entry.mode = .define) :
    (start i).Opens later runtime target Shows n where
  started := (h.evaluated i entry hentry hmode).started
  library := (h.evaluated i entry hentry hmode).library
  libraryLater := h.library
  resolves := h.settled.toResolves
  grounded := h.grounded

/-- The name of a definition stands for its type later. -/
theorem knows_later (h : p.Runs runtime world target Shows n start later)
    (hentry : p.entries[i]? = some entry) (hmode : entry.mode = .define) {name : String}
    (hlabel : entry.label = some name) : later.Knows name (n.type name) := by
  obtain ⟨x, v, s, -, -, hkept, hmodel, hread⟩ :=
    (h.evaluated i entry hentry hmode).bound name hlabel
  exact ⟨v, hread, hmodel.kept hkept⟩

/-- The names in a definition are resolved. -/
theorem resolved (h : p.Runs runtime world target Shows n start later) {bindings : List Binding}
    (hscoped : WellScoped bindings [] p.entries) (hentry : p.entries[i]? = some entry)
    (hmode : entry.mode = .define) : entry.expr.Resolved (start i) later n := by
  have hevaluated := h.evaluated i entry hentry hmode
  have hexpr := hscoped i entry hentry
  refine ⟨fun x hx => ?_, hevaluated.checked, fun x hx => ?_, hevaluated.delayed,
    hevaluated.predicates⟩
  · cases hx.scoped hexpr with
    | name hx =>
      -- the name is that of a definition above
      obtain ⟨above, habove, hlabel⟩ := List.mem_filterMap.1 hx
      obtain ⟨hmem, hdefines⟩ := List.mem_filter.1 habove
      obtain ⟨j, hj, rfl⟩ := List.mem_take_iff_getElem.1 hmem
      obtain ⟨hlt, hlength⟩ := lt_min_iff.1 hj
      exact h.known j i _ entry x hlt (List.getElem?_eq_getElem hlength) (by simpa using hdefines)
        hlabel hentry hmode
  · cases hx.scoped hexpr with
    | deferred hx =>
      obtain ⟨-, hlabel, -⟩ := hx
      exact h.knows_later hentry hmode hlabel

/-- A definition that settles makes the type that its expression stands for. -/
theorem standsFor (h : p.Runs runtime world target Shows n start later) {bindings : List Binding}
    (hscoped : WellScoped bindings [] p.entries) (hentry : p.entries[i]? = some entry)
    (hmode : entry.mode = .define) {name : String} (hlabel : entry.label = some name)
    (hsettles : entry.expr.Settles runtime (start i) later target Shows n) :
    (n.type name).StandsFor target Shows later.slots.size (entry.expr.schema n) := by
  obtain ⟨x, hx, hevaluates⟩ := hsettles (h.resolved hscoped hentry hmode)
  obtain ⟨x', v, s, hx', hrun, hkept, hmodel, -⟩ :=
    (h.evaluated i entry hentry hmode).bound name hlabel
  obtain rfl := Except.ok.inj (hx.symm.trans hx')
  obtain ⟨o, s', hrun', -, v', t, rfl, hmodel', hstands⟩ :=
    hevaluates ((start i).checking world).valueText (start i) (.refl _)
  rw [Inspection.evaluate, (Session.reads_surroundings (start i) world).run_bind, hrun'] at hrun
  obtain ⟨heq, rfl⟩ := Prod.mk.inj hrun
  obtain rfl := Object.value.inj (Except.ok.inj heq)
  rw [hmodel.unique hmodel']
  exact hstands hkept

end Plan.Runs

end Typeward
