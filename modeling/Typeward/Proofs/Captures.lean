import Typeward.Proofs.DenotedTypes
import Typeward.Proofs.LibraryCalls
import Typeward.Proofs.ParsedModules
import Typeward.Proofs.References

/-!
# Names that checks of parameters read

Hints are read where a function is defined, its checks run in its body. A name in a hint that is
also the name of a parameter means the parameter there. The checks of a function read a parameter as
a type or a predicate in just these cases.
-/

namespace Typeward

/-- A check of a parameter refers to just the names that its type refers to. -/
theorem ParameterEntry.refersTo_iff {r : Registry} {number : Nat} {p : TypedParameter}
    {entry : PlanEntry} {x : String} (h : ParameterEntry r number p entry) :
    entry.expr.RefersTo x ↔ ∃ t, p.type = some t ∧ t.RefersTo x := by
  obtain ⟨t, e, ht, he, rfl⟩ := h
  have hbuilt : e.RefersTo x ↔ t.RefersTo x := by
    rw [refersTo_of_build he, refersTo_receivedType]
  simp [ht, hbuilt]

/-- A check of a parameter is spliced as a statement unless assertions are left out. -/
theorem ParameterEntry.emit_statement_iff {r : Registry} {number : Nat} {p : TypedParameter}
    {entry : PlanEntry} (h : ParameterEntry r number p entry) (m : Emitter) :
    (∃ s, m.emit entry none = .ok ⟨some (.statement s), true⟩) ↔ m.skipAsserts = false := by
  obtain ⟨t, e, -, he, rfl⟩ := h
  obtain ⟨x, hx, -⟩ := (builtForm_of_build he).exists_emitter_render m
  cases hskip : m.skipAsserts with
  | true => simp [Emitter.emit, hskip]
  | false =>
    refine iff_of_true ⟨callExpr (runtimeExpr m.runtime "check")
      [.name .synthetic p.name, x, nameConstant (some p.name)] [], ?_⟩ rfl
    simp only [Emitter.emit, Emitter.check, hskip, hx]
    rfl

/-- An emitter leaves out assertions if the options say so. -/
theorem Emitter.skipAsserts_ofOptions (options : Options) (runtime : Option String) :
    (Emitter.ofOptions options runtime).skipAsserts = options.skipAsserts := by
  unfold ofOptions
  split <;> rfl

/-- The entries of a function refer to just the names that the types of its parameters refer to. -/
theorem PlanStep.exists_refersTo_iff {r r' : Registry} {number : Nat} {d : FunctionDeclaration}
    {entries : List PlanEntry} {x : String} (h : PlanStep r number (.function d) entries r') :
    (∃ entry ∈ entries, entry.expr.RefersTo x) ↔
      ∃ p ∈ d.params, ∃ t, p.type = some t ∧ t.RefersTo x := by
  cases h with
  | function hentries =>
    rw [exists_mem_iff_of_forall₂ hentries fun p entry h => h.refersTo_iff]
    unfold FunctionDeclaration.typed
    constructor
    · rintro ⟨p, hp, hrefers⟩
      exact ⟨p, List.mem_of_mem_filter hp, hrefers⟩
    · rintro ⟨p, hp, t, ht, hrefers⟩
      exact ⟨p, List.mem_filter.2 ⟨hp, by simp [ht]⟩, t, ht, hrefers⟩

/-- The entries of a function are spliced as statements unless assertions are left out. -/
theorem PlanStep.emit_statement_iff {r r' : Registry} {number : Nat} {d : FunctionDeclaration}
    {entries : List PlanEntry} (h : PlanStep r number (.function d) entries r') (m : Emitter) :
    ∀ entry ∈ entries,
      (∃ s, m.emit entry none = .ok ⟨some (.statement s), true⟩) ↔ m.skipAsserts = false := by
  intro entry hentry
  cases h with
  | function hentries =>
    obtain ⟨i, hi, rfl⟩ := List.getElem_of_mem hentry
    exact (hentries.get (hentries.length_eq ▸ hi) hi).emit_statement_iff m

/-- What is lowered from a text is lowered from the tree of the text. -/
theorem lower_eq_ok {source file : String} {options : Options} {lowered : Lowered}
    (h : lower source file options = .ok lowered) :
    ∃ tree found, readModule source file = .ok tree ∧
      lowerTree tree file found options = .ok lowered := by
  unfold lower at h
  obtain ⟨tree, htree, h⟩ := Except.bind_eq_ok.1 h
  obtain ⟨found, -, h⟩ := Except.bind_eq_ok.1 h
  exact ⟨tree, found, htree, h⟩

/-- The functions of a module that is lowered from a text carry the numbers of their
declarations. -/
theorem numberedIn_of_lower {source file : String} {options : Options} {lowered : Lowered}
    (h : lower source file options = .ok lowered) :
    NumberedIn ⟨lowered.scope, file, none⟩ (Stmt.allFunctions lowered.tree)
      lowered.declarations := by
  obtain ⟨tree, found, hread, hlower⟩ := lower_eq_ok h
  have hparsed : Source.parseModule source = .ok tree := Except.mapError_eq_ok.1 hread
  exact Lower.numberedIn_of_lowerTree hlower (Source.unnumbered_of_parseModule hparsed)

/-- The types of a declared function refer to what the hints of the function refer to. -/
theorem DeclaresFunction.exists_refersTo_iff {c : HintContext} {f : FunctionHead}
    {d : FunctionDeclaration} {x : String} (h : DeclaresFunction c f d) :
    (∃ p ∈ d.params, ∃ t, p.type = some t ∧ t.RefersTo x) ↔
      ∃ q ∈ f.params.signature, ∃ hint t, q.2.2 = some hint ∧ c.denote hint = .ok t ∧
        t.RefersTo x := by
  refine exists_mem_iff_of_forall₂ h fun q p hdeclared => ?_
  constructor
  · rintro ⟨t, ht, hrefers⟩
    obtain ⟨hint, hhint, hdenote⟩ := (hdeclared.type t).1 ht
    exact ⟨hint, t, hhint, hdenote, hrefers⟩
  · rintro ⟨hint, t, hhint, hdenote, hrefers⟩
    exact ⟨t, (hdeclared.type t).2 ⟨hint, hhint, hdenote⟩, hrefers⟩

/-- A spliced check of a function refers to one of its parameters exactly when assertions are not
left out and a hint of the function refers to one of its parameters. -/
theorem exists_capture_iff {source file : String} {options : Options} {lowered : Lowered}
    {c : CompiledTree} {f : FunctionHead} {k : Nat}
    (hlower : lower source file options = .ok lowered)
    (hcompile : compileLowered options lowered = .ok c)
    (hf : f ∈ Stmt.allFunctions lowered.tree) (hk : f.decl = some k) :
    (∃ entry ∈ c.plan.ofDeclaration k,
      (∃ s, (Emitter.ofOptions options (some c.runtime)).emit entry none =
        .ok ⟨some (.statement s), true⟩) ∧
      ∃ x ∈ f.params.names, entry.expr.RefersTo x) ↔
    options.skipAsserts = false ∧
      ∃ q ∈ f.params.signature, ∃ hint t, q.2.2 = some hint ∧
        (⟨lowered.scope, file, none⟩ : HintContext).denote hint = .ok t ∧
        ∃ x ∈ f.params.names, t.RefersTo x := by
  obtain ⟨d, hd, hdeclares⟩ := numberedIn_of_lower hlower f hf k hk
  obtain ⟨_, r, r', -, hplan, -⟩ := compileLowered_eq_ok hcompile
  obtain ⟨r₁, r₂, hstep⟩ := (planRun_of_plan hplan).exists_step hd
  rw [Nat.zero_add] at hstep
  have hnames {x : String} := (hstep.exists_refersTo_iff (x := x)).trans
    hdeclares.exists_refersTo_iff
  have hspliced := hstep.emit_statement_iff (Emitter.ofOptions options (some c.runtime))
  rw [Emitter.skipAsserts_ofOptions] at hspliced
  constructor
  · rintro ⟨entry, hentry, hs, x, hx, hrefers⟩
    obtain ⟨q, hq, hint, t, hhint, hdenote, ht⟩ := hnames.1 ⟨entry, hentry, hrefers⟩
    exact ⟨(hspliced entry hentry).1 hs, q, hq, hint, t, hhint, hdenote, x, hx, ht⟩
  · rintro ⟨hskip, q, hq, hint, t, hhint, hdenote, x, hx, ht⟩
    obtain ⟨entry, hentry, hrefers⟩ := hnames.2 ⟨q, hq, hint, t, hhint, hdenote, ht⟩
    exact ⟨entry, hentry, (hspliced entry hentry).2 hskip, x, hx, hrefers⟩

/-- The tree of a class, and of a function with a parameter whose hint is the class. -/
def classTree (cls param : String) : Module :=
  [.classDef ⟨1, 0⟩ ⟨cls, [], [], [], none⟩ [.simple ⟨1, 14⟩ .pass],
    .function ⟨2, 0⟩
      ⟨false, "f", ⟨[], [⟨⟨2, 6⟩, param, some (.name ⟨2, 14⟩ cls), none⟩], none, [], none⟩,
        none, [], none⟩ [.simple ⟨2, 23⟩ .pass]]

/-- The class and the function as the compiler sees them. -/
def classModule (cls param : String) (scope : Scope) : Lowered where
  file := "m.py"
  declarations :=
    [.function ⟨"f", [⟨param, some (.reference cls [] (some ⟨2, 15, some "m.py"⟩)),
      .positional, some ⟨2, 7, some "m.py"⟩⟩], some ⟨2, 1, some "m.py"⟩⟩]
  scope
  tree :=
    [.classDef ⟨1, 0⟩ ⟨cls, [], [], [], none⟩ [.simple ⟨1, 14⟩ .pass],
      .function ⟨2, 0⟩
        ⟨false, "f", ⟨[], [⟨⟨2, 6⟩, param, some (.name ⟨2, 14⟩ cls), none⟩], none, [],
          none⟩, none, [], some 0⟩ [.simple ⟨2, 23⟩ .pass]]

/-- The class and the function are lowered if the hint denotes the class. -/
theorem lowerTree_classTree {cls param : String} {scope : Scope}
    (hscope : Scope.ofModule "m.py" (classTree cls param) = scope)
    (hhint : (⟨scope, "m.py", none⟩ : HintContext).denote (.name ⟨2, 14⟩ cls) =
      .ok (.reference cls [] (some ⟨2, 15, some "m.py"⟩))) :
    lowerTree (classTree cls param) "m.py" [] {} = .ok (classModule cls param scope) := by
  let context : LowerContext := ⟨⟨scope, "m.py", none⟩, [], "recursive", 0⟩
  have hlowered : lowerHint context (.name ⟨2, 14⟩ cls) =
      pure (.reference cls [] (some ⟨2, 15, some "m.py"⟩)) := by
    funext s
    rw [lowerHint, hhint]
    rfl
  have hparams : lowerParameters context
      ⟨[], [⟨⟨2, 6⟩, param, some (.name ⟨2, 14⟩ cls), none⟩], none, [], none⟩ =
      pure [⟨param, some (.reference cls [] (some ⟨2, 15, some "m.py"⟩)), .positional,
        some ⟨2, 7, some "m.py"⟩⟩] := by
    simp only [lowerParameters, Parameters.toList, List.map_nil, List.map_cons, Option.toList_none,
      List.nil_append, List.append_nil, List.mapM_cons, List.mapM_nil, Option.mapM_some, hlowered]
    rfl
  have htree : lowerAll context (classTree cls param) {} =
      .ok ((classModule cls param scope).tree,
        ⟨(classModule cls param scope).declarations, []⟩) := by
    simp only [classTree, lowerAll, lowerStmt, hparams]
    rfl
  rw [lowerTree, hscope]
  exact Except.bind_eq_ok.2 ⟨_, htree, rfl⟩

/-- What is known of the names in a module with a class, and with a function whose parameter has the
name of the class. -/
def widgetScope : Scope :=
  { bindings := [⟨"Widget", .ofClass, some ⟨1, 1, some "m.py"⟩⟩], shadowed := ["f", "Widget"],
    reserved := ["f", "Widget"] }

/-- Whether a module has the class and the function at their places, and nothing else. -/
def isWidgetTree : Module → Bool
  | [.classDef ⟨1, 0⟩ ⟨"Widget", [], [], [], none⟩ [.simple ⟨1, 14⟩ .pass],
      .function ⟨2, 0⟩
        ⟨false, "f", ⟨[], [⟨⟨2, 6⟩, "Widget", some (.name ⟨2, 14⟩ "Widget"), none⟩], none, [], none⟩,
          none, [], none⟩ [.simple ⟨2, 23⟩ .pass]] => true
  | _ => false

/-- The tree is read from its text. -/
theorem parseModule_widget :
    Source.parseModule "class Widget: pass\ndef f(Widget: Widget): pass\n" =
      .ok (classTree "Widget" "Widget") := by
  -- Trees have no decidable equality, so the tree that is read is looked at.
  have hread : (Source.parseModule
      "class Widget: pass\ndef f(Widget: Widget): pass\n").toOption.any isWidgetTree = true := by
    decide +kernel
  refine Except.eq_ok_of_any hread fun m hm => ?_
  unfold isWidgetTree at hm
  split at hm
  · rfl
  · cases hm

/-- The hint denotes the class. -/
theorem denote_widget : (⟨widgetScope, "m.py", none⟩ : HintContext).denote
    (.name ⟨2, 14⟩ "Widget") = .ok (.reference "Widget" [] (some ⟨2, 15, some "m.py"⟩)) :=
  HintContext.denote_of_form_done (by with_unfolding_all rfl)

/-- The class and the function are lowered from their text. -/
theorem lower_widget :
    lower "class Widget: pass\ndef f(Widget: Widget): pass\n" "m.py" {} =
      .ok (classModule "Widget" "Widget" widgetScope) := by
  have hscope : Scope.ofModule "m.py" (classTree "Widget" "Widget") = widgetScope := by
    with_unfolding_all rfl
  rw [lower, readModule, parseModule_widget]
  exact lowerTree_classTree hscope denote_widget

/-- The check of the parameter tests it against itself. -/
theorem capture_widget :
    ∃ c f, compileLowered {} (classModule "Widget" "Widget" widgetScope) = .ok c ∧
      f ∈ Stmt.allFunctions (classModule "Widget" "Widget" widgetScope).tree ∧
      f.decl = some 0 ∧ ∃ entry ∈ c.plan.ofDeclaration 0,
        (∃ s, (Emitter.ofOptions {} (some c.runtime)).emit entry none =
          .ok ⟨some (.statement s), true⟩) ∧
        ∃ x ∈ f.params.names, entry.expr.RefersTo x := by
  refine ⟨_, _, rfl, List.mem_cons_self, rfl, ?_⟩
  refine (exists_capture_iff lower_widget rfl List.mem_cons_self rfl).2 ⟨rfl, ?_⟩
  exact ⟨_, List.mem_cons_self, _, _, rfl, denote_widget, "Widget", List.mem_cons_self,
    .reference (by decide)⟩

end Typeward
