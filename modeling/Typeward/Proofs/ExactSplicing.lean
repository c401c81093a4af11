import Typeward.Proofs.Captures
import Typeward.Proofs.LoweredPlacements

/-!
# Splicing is exact

A module that compiles is placed as a whole: what every node becomes is said by the relations of
placement, and the entries that are placed are those of the plan, in its order. With checks each of
them is emitted, and each once. The import of the runtime library stands behind what opens the
module and nowhere else.
-/

namespace Typeward

open Slots Splicer
open scoped List

/-- The number of statements that open a module: its documentation and the imports that have to come
first. -/
def headLength (m : Module) : Nat :=
  docstringLength m + (m.drop (docstringLength m)).findIdx (! isFutureImport ·)

/-- An import is inserted behind the head of a module. -/
theorem insertImport_eq (statement : Stmt) (m : Module) :
    insertImport statement m = m.take (headLength m) ++ statement :: m.drop (headLength m) := by
  let rest := m.drop (docstringLength m)
  calc insertImport statement m
    _ = m.take (docstringLength m) ++ rest.takeWhile isFutureImport ++
        statement :: rest.dropWhile isFutureImport := rfl
    _ = m.take (headLength m) ++ statement :: m.drop (headLength m) := by
      rw [headLength, List.take_add, ← List.drop_drop, ← List.takeWhile_eq_take_findIdx_not,
        ← List.dropWhile_eq_drop_findIdx_not]

namespace Splicer

variable {k : Splicer} {c : LowerContext}

/-- A statement becomes an import of a feature if it is one. -/
theorem PlacesStmt.isFutureImport_eq {known known' : List String} {t t' u : Stmt}
    {entries : List PlanEntry} (h : k.PlacesStmt c known t t' entries u known') :
    isFutureImport u = isFutureImport t := by
  cases h with
  | @simple _ _ _ given _ _ _ h =>
    cases h with
    | typeAlias | reify => rfl
    | other hdeclares hnumber h =>
      cases h with
      | intro h => cases given <;> rfl
  | function | record | classDef | guarded | branch | compound => rfl

/-- Statements become imports of features where they are such. -/
theorem PlacesAll.map_isFutureImport {known known' : List String} {ts ts' us : List Stmt}
    {entries : List PlanEntry} (h : k.PlacesAll c known ts ts' entries us known') :
    us.map isFutureImport = ts.map isFutureImport := by
  induction ts generalizing known ts' us entries with
  | nil => cases h with | nil => rfl
  | cons t rest ih =>
    cases h with
    | cons hfirst hrest =>
      rw [List.map_cons, List.map_cons, hfirst.isFutureImport_eq, ih hrest]

/-- Where there are checks, a module keeps its head. -/
theorem PlacesAll.headLength_eq (hskip : k.emitter.skipAsserts = false)
    {known known' : List String} {ts ts' us : List Stmt} {entries : List PlanEntry}
    (h : k.PlacesAll c known ts ts' entries us known') : headLength us = headLength ts := by
  have hindex (l : List Stmt) :
      l.findIdx (! isFutureImport ·) = (l.map isFutureImport).findIdx (! ·) := by
    rw [List.findIdx_map]
    rfl
  unfold headLength
  rw [h.docstringLength_eq hskip, hindex, hindex, List.map_drop, List.map_drop,
    h.map_isFutureImport]

/-- Splicing a module answers what is placed, with the import of the library if anything was
emitted, and emits the entries that count. -/
theorem PlacesAll.splice_eq {known known' : List String} {ts ts' us : List Stmt}
    {entries : List PlanEntry} (h : k.PlacesAll c known ts ts' entries us known')
    (runtimeModule : String) :
    ∃ emitted, emitted ~ k.emitter.counted entries ∧
      splice k.emitter k.plan runtimeModule ts' = .ok
        ⟨if emitted = [] then us
          else insertImport (runtimeImport k.emitter.runtime runtimeModule) us, emitted⟩ := by
  obtain ⟨emitted, hrun, hperm⟩ := h.emits []
  refine ⟨emitted, hperm, Except.bind_eq_ok.2 ⟨(us, emitted), hrun, ?_⟩⟩
  cases emitted with
  | nil => rfl
  | cons => rfl

end Splicer

/-- What lowering reads at the top of a module. -/
def Lowered.context (l : Lowered) (comments : List (Nat × String)) (options : Options) :
    LowerContext :=
  ⟨⟨l.scope, l.file, none⟩, comments, options.recursiveMarker, 0⟩

/-- Lowers a tree, then plans and splices it. -/
def compileTree (tree : Module) (file : String) (comments : List (Nat × String))
    (options : Options) : Except Failure CompiledTree := do
  compileLowered options (← lowerTree tree file comments options)

/-- What splicing reads when a module is compiled. -/
def CompiledTree.splicer (c : CompiledTree) (options : Options) : Splicer :=
  ⟨⟨c.runtime, options.skipAsserts⟩, c.plan⟩

section

variable {tree : Module} {file : String} {comments : List (Nat × String)} {options : Options}
  {lowered : Lowered} {c : CompiledTree}

/-- A lowered module is what lowering its statements in its own scope answers. -/
theorem lowerTree_eq_ok (h : lowerTree tree file comments options = .ok lowered) :
    ∃ s, lowerAll (lowered.context comments options) tree {} = .ok (lowered.tree, s) ∧
      lowered.declarations = s.declarations ∧ lowered.scope = Scope.ofModule file tree ∧
      lowered.file = file := by
  obtain ⟨⟨tree', s⟩, hrun, h⟩ := Except.bind_eq_ok.1 h
  obtain rfl := Except.ok.inj h
  exact ⟨s, hrun, rfl, rfl, rfl⟩

/-- A plan has the entries for the declarations that it is made for, and no others. -/
theorem covers_of_plan {r r' : Registry} {ds : List Declaration} {p : Plan}
    (h : plan r ds = .ok (p, r')) : p.Covers ds ∧ p.between 0 ds.length = p.entries := by
  have hrun := planRun_of_plan h
  constructor
  · intro number d hd
    obtain ⟨r₁, r₂, hstep⟩ := hrun.exists_step hd
    rw [Nat.zero_add] at hstep
    exact ⟨r₁, r₂, hstep⟩
  · exact hrun.flatMap_eq

/-- A lowered module is placed with the entries of the plan for its declarations. -/
theorem exists_placesAll (hplain : Stmt.AllUnnumbered tree)
    (hlower : lowerTree tree file comments options = .ok lowered) {r r' : Registry} {p : Plan}
    (hplan : plan r lowered.declarations = .ok (p, r')) (m : Emitter) :
    ∃ us known, (⟨m, p⟩ : Splicer).PlacesAll (lowered.context comments options) [] tree
      lowered.tree p.entries us known := by
  obtain ⟨s, hrun, hdeclarations, -, -⟩ := lowerTree_eq_ok hlower
  obtain ⟨hcovers, hentries⟩ := covers_of_plan hplan
  rw [hdeclarations] at hcovers hentries
  obtain ⟨us, hplaces⟩ := Lower.places_lowerAll (k := ⟨m, p⟩) hcovers hplain hrun List.prefix_rfl
  have hdeclared : (⟨m, p⟩ : Splicer).declared {} s = p.entries := hentries
  rw [hdeclared] at hplaces
  exact ⟨us, _, hplaces⟩

/-- A module that compiles is placed, its compiled form is what is placed, with the import of the
library if anything was emitted, and what was emitted are the entries that count. -/
theorem exists_placesAll_of_compileLowered (hplain : Stmt.AllUnnumbered tree)
    (hlower : lowerTree tree file comments options = .ok lowered)
    (hcompile : compileLowered options lowered = .ok c) :
    ∃ m known, (c.splicer options).PlacesAll (lowered.context comments options) [] tree
        lowered.tree c.plan.entries m known ∧
      c.spliced.emitted ~ (c.splicer options).emitter.counted c.plan.entries ∧
      c.spliced.tree =
        if c.spliced.emitted = [] then m
        else insertImport (runtimeImport c.runtime options.runtimeModule) m := by
  obtain ⟨runtime, r, r', -, hplan, hsplice, hruntime⟩ := compileLowered_eq_ok hcompile
  have hemitter : Emitter.ofOptions options (some runtime) = (c.splicer options).emitter := by
    rw [CompiledTree.splicer, hruntime, ← Emitter.skipAsserts_ofOptions options (some runtime)]
  rw [hemitter] at hsplice
  obtain ⟨m, known, hplaces⟩ := exists_placesAll hplain hlower hplan (c.splicer options).emitter
  obtain ⟨emitted, hperm, hspliced⟩ := hplaces.splice_eq options.runtimeModule
  rw [Except.ok.inj (hsplice.symm.trans hspliced)]
  exact ⟨m, known, hplaces, hperm, rfl⟩

/-- Splicing a module with checks is exact. Every entry of the plan is emitted once. Each node
becomes what the relation of placement says, where the entries of the plan are placed in order. If
the plan has an entry, the import of the library is inserted behind the head of the module. -/
theorem splicing_exact (hplain : Stmt.AllUnnumbered tree) (hskip : options.skipAsserts = false)
    (hlower : lowerTree tree file comments options = .ok lowered)
    (hcompile : compileLowered options lowered = .ok c) :
    c.spliced.emitted ~ c.plan.entries ∧
      ∃ m known, (⟨⟨c.runtime, false⟩, c.plan⟩ : Splicer).PlacesAll
          ⟨⟨lowered.scope, file, none⟩, comments, options.recursiveMarker, 0⟩ [] tree lowered.tree
          c.plan.entries m known ∧
        c.spliced.tree =
          if c.plan.entries = [] then m
          else m.take (headLength tree) ++
            runtimeImport c.runtime options.runtimeModule :: m.drop (headLength tree) := by
  obtain ⟨m, known, hplaces, hemitted, htree⟩ :=
    exists_placesAll_of_compileLowered hplain hlower hcompile
  obtain ⟨-, -, -, -, hfile⟩ := lowerTree_eq_ok hlower
  have hhead : headLength m = headLength tree := hplaces.headLength_eq hskip
  rw [Emitter.counted_eq_self hskip] at hemitted
  rw [CompiledTree.splicer, hskip, Lowered.context, hfile] at hplaces
  have hnone : c.spliced.emitted = [] ↔ c.plan.entries = [] := by
    rw [← List.length_eq_zero_iff, hemitted.length_eq, List.length_eq_zero_iff]
  simp only [insertImport_eq, hhead, hnone] at htree
  exact ⟨hemitted, m, known, hplaces, htree⟩

end

/-- Nothing in the tree of a class and a function carries a number. -/
theorem allUnnumbered_classTree (cls param : String) :
    Stmt.AllUnnumbered (classTree cls param) := by
  have hheld : ∀ t ∈ Stmt.allNodes (classTree cls param), t.number? = none ∧ t.held = [] := by
    intro t ht
    simp only [classTree, Stmt.allNodes, Stmt.nodes, List.append_nil, List.cons_append,
      List.nil_append, List.mem_cons, List.not_mem_nil, or_false] at ht
    rcases ht with rfl | rfl | rfl | rfl <;> exact ⟨rfl, rfl⟩
  intro t ht
  obtain ⟨hnumber, hnone⟩ := hheld t ht
  exact ⟨hnumber, by simp [hnone]⟩

/-- The class stays, the function gets the check of its parameter, and the import of the library
opens the module. -/
theorem splicing_exact_widget :
    ∃ c, compileLowered {} (classModule "Widget" "Widget" widgetScope) = .ok c ∧
      c.spliced.emitted ~ c.plan.entries ∧ c.plan.entries ≠ [] ∧
      ∃ m known, (⟨⟨"t", false⟩, c.plan⟩ : Splicer).PlacesAll
          ⟨⟨widgetScope, "m.py", none⟩, [], "recursive", 0⟩ [] (classTree "Widget" "Widget")
          (classModule "Widget" "Widget" widgetScope).tree c.plan.entries m known ∧
        c.spliced.tree = runtimeImport "t" "typecomb.runtime" :: m := by
  have hscope : Scope.ofModule "m.py" (classTree "Widget" "Widget") = widgetScope := by
    with_unfolding_all rfl
  obtain ⟨c, hcompile, hruntime, hentries⟩ : ∃ c,
      compileLowered {} (classModule "Widget" "Widget" widgetScope) = .ok c ∧ c.runtime = "t" ∧
        c.plan.entries ≠ [] := ⟨_, rfl, rfl, List.cons_ne_nil _ _⟩
  obtain ⟨hemitted, m, known, hplaces, htree⟩ := splicing_exact (allUnnumbered_classTree _ _) rfl
    (lowerTree_classTree hscope denote_widget) hcompile
  rw [hruntime] at hplaces htree
  rw [if_neg hentries] at htree
  exact ⟨c, hcompile, hemitted, hentries, m, known, hplaces, htree⟩

end Typeward
