import Mathlib.Logic.Basic
import Typeward.Proofs.ImportSafety
import Typeward.Proofs.ImportedNames
import Typeward.Proofs.RecordInheritance
import Typeward.Proofs.RecordVerdicts

/-!
# Passes that agree on records

In a module that compiles and imports special modules first, each class at module level is either
declared as a record or bound as a class. Only what is bound, or builtin, is checked against as a
class, and never by the name of a record that is declared above.
-/

namespace Typeward

open Registry

/-- The code for an expression checks against a class of a name. -/
inductive TypeExpr.ChecksClass (n : String) : TypeExpr → Prop
  | check {shown options} : ChecksClass n (.call .irreducible [.name n] shown options)
  | delayed {e} (h : ChecksClass n e) : ChecksClass n (.delayed e)
  | field {name e} (h : ChecksClass n e) : ChecksClass n (.field name e)
  | argument {c arguments shown options e} (he : e ∈ arguments) (h : ChecksClass n e) :
      ChecksClass n (.call c arguments shown options)
  | reified {e kind parts} (h : ChecksClass n e) : ChecksClass n (.reified e kind parts)

/-- In an expression whose references stand for something, what is checked against is a class. -/
theorem TypeExpr.Scoped.class_of_checks {k : Scoping} {e : TypeExpr} (h : e.Scoped k) {n : String}
    (hchecks : e.ChecksClass n) : k.Class n := by
  have hname {x : String} (hx : (TypeExpr.name x).ChecksClass n) : False := by cases hx
  induction h with
  | primitive | predicate | constant | name | deferred => cases hchecks
  | classCheck hclass =>
    cases hchecks with
    | check => exact hclass
    | argument he h =>
      obtain rfl := List.mem_singleton.1 he
      exact (hname h).elim
  | delayed hclass =>
    cases hchecks with
    | delayed h =>
      cases h with
      | check => exact hclass
      | argument he h =>
        obtain rfl := List.mem_singleton.1 he
        exact (hname h).elim
  | field _ ih =>
    cases hchecks with
    | field h => exact ih h
  | call hc _ ih =>
    cases hchecks with
    | check => exact absurd rfl hc
    | argument he h => exact ih _ he h
  | reified _ ih =>
    cases hchecks with
    | reified h => exact ih h

/-- The definitions of all types that are declared up to the declaration of an entry stand above the
entry, or it is the last of them. -/
theorem PlanRun.name_mem_definedNames {r r' : Registry} {number : Nat} {ds : List Declaration}
    {entries : List PlanEntry} (h : PlanRun r number ds entries r') {i k : Nat} {entry : PlanEntry}
    {d : TypeDeclaration} (hentry : entries[i]? = some entry) (hd : ds[k]? = some (.type d))
    (hle : number + k ≤ entry.source) : d.name ∈ definedNames (entries.take (i + 1)) := by
  induction h generalizing i k with
  | nil => cases hentry
  | @cons r number first ds entries r₁ more r₂ hstep hrun ih =>
    have hown {e : TypeDeclaration} (he : first = .type e) : e.name ∈ definedNames entries := by
      rw [hstep.definedNames_eq, he]
      exact List.mem_singleton_self _
    by_cases hi : i < entries.length
    · rw [List.getElem?_append_left hi] at hentry
      have hsource := hstep.source_eq entry (List.mem_of_getElem? hentry)
      obtain rfl : k = 0 := by omega
      obtain rfl := Option.some.inj hd
      cases hstep with
      | define => exact List.mem_append_left _ (hown rfl)
    · have htake : (entries ++ more).take (i + 1) =
          entries ++ more.take (i - entries.length + 1) := by
        rw [List.take_append, List.take_of_length_le (by omega)]
        congr 2
        omega
      rw [List.getElem?_append_right (Nat.le_of_not_lt hi)] at hentry
      rw [htake, definedNames_append]
      cases k with
      | zero => exact List.mem_append_left _ (hown (Option.some.inj hd))
      | succ k => exact List.mem_append_right _ (ih hentry hd (by omega))

section Modules

variable {options : Options} {source file : String} {m : Module} {l : Lowered}

/-- Where all types are declared at module level, the passes over a module that imports special
modules first agree on its statements. -/
theorem agreement_of_lower (hread : readModule source file = .ok m)
    (hlower : lower source file options = .ok l) (hfirst : m.ImportsFirst)
    (htop : ∀ d, .type d ∈ l.declarations → d.isTopLevel = true) :
    Agreement file l.scope l.declarations [] (m.visits file) (Stmt.allNodes l.tree) := by
  unfold lower at hlower
  obtain ⟨tree, htree, hlower⟩ := Except.bind_eq_ok.1 hlower
  obtain rfl := Except.ok.inj (hread.symm.trans htree)
  obtain ⟨found, -, hlower⟩ := Except.bind_eq_ok.1 hlower
  unfold lowerTree at hlower
  obtain ⟨⟨tree', σ⟩, hrun, hlower⟩ := Except.bind_eq_ok.1 hlower
  obtain rfl := Except.ok.inj hlower
  have hstart : SameRecords {} {} [] := by
    constructor <;> intro x <;> simp [Stmt.recordNames, Stmt.recordClasses]
  have hagreed := agreed_lowerAll (c := ⟨0, false⟩) ⟨rfl, rfl, rfl, fun pos => rfl⟩ htop hrun
    List.prefix_rfl (Lowered.recordClasses_of_readModule hread) hstart
    fun v hv hasks => Module.forms_of_visit hfirst hv hasks
  exact hagreed.1

/-- The code of an entry checks against a class by no name of a record that is declared up to the
declaration of the entry, and only against what a class that is no record binds, or an import, or
what is builtin. -/
theorem of_checksClass {tree : CompiledTree} (hread : readModule source file = .ok m)
    (hlower : lower source file options = .ok l) (hcompile : compileLowered options l = .ok tree)
    {i : Nat} {entry : PlanEntry} {n : String} (hentry : tree.plan.entries[i]? = some entry)
    (hchecks : entry.expr.ChecksClass n) :
    (∀ k ∈ l.recordClasses, k.number ≤ entry.source → k.head.name ≠ n) ∧
      (m.BindsUnguarded file (rootOf n) ∨ n ∈ builtinClasses) := by
  obtain ⟨runtime, r, r', hallocate, hplan, -, -⟩ := compileLowered_eq_ok hcompile
  have hrun := planRun_of_plan hplan
  have hknows := Registry.KnowsTypes.allocate (.ofModule l.scope.bindings l.scope.reserved)
    hallocate
  obtain ⟨hbound, hundefined⟩ := (hrun.wellScoped hknows i entry hentry).class_of_checks hchecks
  constructor
  · rintro k hk hnumber rfl
    obtain ⟨d, place, hd, hname, -⟩ := Lowered.exists_declaration hlower hk
    have hdefined := hrun.name_mem_definedNames hentry hd (by omega)
    rw [List.take_add_one, hentry, hname] at hdefined
    exact hundefined hdefined
  · refine hbound.imp_left fun hbinding => ?_
    rw [← any_bindings_ofModule, ← scope_of_lower hread hlower, List.any_eq_true]
    simpa using hbinding

/-- The types of a module that compiles are declared at module level. -/
theorem isTopLevel_of_compileLowered {tree : CompiledTree}
    (hcompile : compileLowered options l = .ok tree) {d : TypeDeclaration}
    (hd : .type d ∈ l.declarations) : d.isTopLevel = true := by
  obtain ⟨runtime, r, r', -, hplan, -, -⟩ := compileLowered_eq_ok hcompile
  obtain ⟨k, hk⟩ := List.getElem?_of_mem hd
  obtain ⟨r₁, r₂, hstep⟩ := (planRun_of_plan hplan).exists_step hk
  generalize tree.plan.entries.filter (·.source = 0 + k) = entries at hstep
  cases hstep with
  | define htop => exact htop

end Modules

/-- The passes over a module, from its statements to its lowered form and its plan, agree on
records. -/
structure PassesAgree (file : String) (m : Module) (l : Lowered) (p : Plan) : Prop where
  /-- The first pass comes to all statements of the module. -/
  visits : (m.visits file).map (·.stmt) = Stmt.allNodes m
  /-- The second pass comes to as many. -/
  length : (m.visits file).length = (Stmt.allNodes l.tree).length
  /-- A class statement at module level, and not for type checkers alone, is either declared as a
  record and binds no class, or kept and binds its class. -/
  verdict {i : Nat} {v : Visit} {pos : Pos} {head : ClassHead} {body : List Stmt}
    (hvisit : (m.visits file)[i]? = some v) (hclass : v.stmt = .classDef pos head body)
    (hopen : v.context.IsOpen) :
    ∃ head' body', (Stmt.allNodes l.tree)[i]? = some (.classDef pos head' body') ∧
      head'.name = head.name ∧
      Xor (head'.DeclaresRecord file l.declarations pos ∧
          (v.scope.enterClass file v.context pos head).bindings = v.scope.bindings)
        (head'.decl = none ∧ (v.scope.enterClass file v.context pos head).bindings =
          putBinding v.scope.bindings ⟨head.name, .ofClass, some (locationOf file pos)⟩)
  /-- Any other class statement is neither declared nor bound. -/
  unseen {i : Nat} {v : Visit} {pos : Pos} {head : ClassHead} {body : List Stmt}
    (hvisit : (m.visits file)[i]? = some v) (hclass : v.stmt = .classDef pos head body)
    (hclosed : ¬ v.context.IsOpen) :
    ∃ head' body', (Stmt.allNodes l.tree)[i]? = some (.classDef pos head' body') ∧
      head'.decl = none ∧
      (v.scope.enterClass file v.context pos head).bindings = v.scope.bindings
  /-- A node that declares something as a class is a class statement of the module which a base
  makes a record: it is the marker of records, or has the name of a record above. -/
  declared {i : Nat} {pos : Pos} {head' : ClassHead} {body' : List Stmt}
    (hnode : (Stmt.allNodes l.tree)[i]? = some (.classDef pos head' body')) :
    ∃ v head body, (m.visits file)[i]? = some v ∧ v.stmt = .classDef pos head body ∧
      (head'.decl.isSome ↔ v.context.IsOpen ∧
        ∃ base ∈ head.bases, l.scope.NamesRecord ((Stmt.allNodes l.tree).take i) base)
  /-- The code of an entry never checks against a class by the name of a record that is declared up
  to the declaration of the entry, and only against what a class that is no record binds, or an
  import, or what is builtin. -/
  checks {i : Nat} {entry : PlanEntry} {n : String} (hentry : p.entries[i]? = some entry)
    (hchecks : entry.expr.ChecksClass n) :
    (∀ k ∈ l.recordClasses, k.number ≤ entry.source → k.head.name ≠ n) ∧
      (m.BindsUnguarded file (rootOf n) ∨ n ∈ builtinClasses)

/-- In a module that compiles and makes every import of a special module before all classes and
conditions, the passes agree on records. -/
theorem passes_agree {options : Options} {source file : String} {m : Module} {l : Lowered}
    {c : CompiledTree} (hread : readModule source file = .ok m)
    (hlower : lower source file options = .ok l) (hcompile : compileLowered options l = .ok c)
    (hfirst : m.ImportsFirst) : PassesAgree file m l c.plan := by
  have hagreement := agreement_of_lower hread hlower hfirst
    fun d => isTopLevel_of_compileLowered hcompile
  refine ⟨Scope.map_stmt_visitsAll file _ _ m, hagreement.length_eq, ?verdict, ?unseen, ?declared,
    ?checks⟩
  case verdict =>
    intro i v pos head body hvisit hclass hopen
    obtain ⟨head', body', hnode, hname, hfate⟩ := hagreement.exists_node hvisit hclass
    refine ⟨head', body', hnode, hname, ?_⟩
    cases hfate with
    | record _ _ hdeclared hbindings =>
      refine .inl ⟨⟨hdeclared, hbindings⟩, fun h => ?_⟩
      obtain ⟨number, -, -, hnumber, -⟩ := hdeclared
      rw [hnumber] at h
      cases h.1
    | ordinary _ _ hkept hbindings =>
      refine .inr ⟨⟨hkept, hbindings⟩, fun h => ?_⟩
      obtain ⟨number, -, -, hnumber, -⟩ := h.1
      rw [hkept] at hnumber
      cases hnumber
    | unseen hclosed => exact absurd hopen hclosed
  case unseen =>
    intro i v pos head body hvisit hclass hclosed
    obtain ⟨head', body', hnode, -, hfate⟩ := hagreement.exists_node hvisit hclass
    refine ⟨head', body', hnode, ?_⟩
    cases hfate with
    | unseen _ hkept hbindings => exact ⟨hkept, hbindings⟩
    | record hopen | ordinary hopen => exact absurd hopen hclosed
  case declared =>
    intro i pos head' body' hnode
    obtain ⟨v, head, body, hvisit, hclass, hfate⟩ := hagreement.exists_visit hnode
    exact ⟨v, head, body, hvisit, hclass, hfate.isSome_iff⟩
  case checks => exact fun hentry hchecks => of_checksClass hread hlower hcompile hentry hchecks

/-- The passes agree on a module with three records. The first one has a field of the class whose
name the second one takes, so its code checks against the class. -/
theorem passes_agree_range :
    ∃ c, readModule (recordText "range") "m.py" = .ok (recordTree "range" fun _ => none) ∧
      (recordTree "range" fun _ => none).ImportsFirst ∧
      lower (recordText "range") "m.py" {} = .ok (recordModule "range") ∧
      compileLowered {} (recordModule "range") = .ok c ∧
      PassesAgree "m.py" (recordTree "range" fun _ => none) (recordModule "range") c.plan ∧
      (recordModule "range").recordClasses.map (·.head.name) = ["P", "range", "C"] ∧
      ∃ entry, c.plan.entries[0]? = some entry ∧ entry.expr.ChecksClass "range" := by
  have hread : readModule (recordText "range") "m.py" = .ok (recordTree "range" fun _ => none) := by
    rw [readModule, parseModule_record (.inl rfl)]
    rfl
  have hfirst : (recordTree "range" fun _ => none).ImportsFirst := by decide +kernel
  have hlower := lower_record (.inl rfl)
  obtain ⟨c, hcompile, -, hplan⟩ := compileLowered_record (.inl ⟨rfl, rfl⟩)
  refine ⟨c, hread, hfirst, hlower, hcompile, passes_agree hread hlower hcompile hfirst, rfl, ?_⟩
  rw [hplan]
  exact ⟨_, rfl, .argument (List.mem_singleton_self _) (.field .check)⟩

end Typeward
