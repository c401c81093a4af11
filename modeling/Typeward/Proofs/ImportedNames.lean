import Typeward.Proofs.CleanFailures
import Typeward.Proofs.CollectedNames

/-!
# Imported names

A name in a hint, possibly with dots, whose root is bound by an import outside of definitions and of
what only type checkers see, is never said to be unresolved, unless all such imports of the root are
special ones: of a special module or from one, or from the future. These leave the root unbound.
What is said to be unresolved is a dangling name: no type up to its declaration has it, it is that
of no builtin class, and its root is not bound. A module with a dangling name does not compile.
-/

namespace Typeward

open Source Registry StaticType

/-- A statement imports something by a local name; whether what it imports is special, that is, a
special module, or from a special module or the future. -/
inductive Simple.Imports (n : String) : Bool → Simple → Prop
  | module {names i} (hi : i ∈ names) (hn : i.asName.getD (rootOf i.name) = n) :
      Imports n (specialModules.contains i.name) (.importModules names)
  | name {source names level i} (hi : i ∈ names) (hstar : i.name ≠ "*")
      (hn : i.asName.getD i.name = n) :
      Imports n
        (source.getD "" == "__future__" || specialModules.contains (source.getD "") ||
          specialModules.contains (source.getD "" ++ "." ++ i.name))
        (.importNames source names level)

/-- What a statement imports as nothing special is among its plain imports. -/
theorem Simple.Imports.mem_plainImports {n : String} {isSpecial : Bool} {t : Simple}
    (h : t.Imports n isSpecial) (hplain : isSpecial = false) : n ∈ t.plainImports := by
  cases h with
  | @module names i hi hn =>
    refine List.mem_filterMap.2 ⟨i, hi, ?_⟩
    rw [ImportName.plainModule?, hplain, if_neg Bool.false_ne_true, hn]
  | @name source names level i hi hstar hn =>
    refine List.mem_filterMap.2 ⟨i, hi, ?_⟩
    have hspecial : ¬ (i.name = "*" ∨ source.getD "" = "__future__" ∨
        specialModules.contains (source.getD "") ∨
        specialModules.contains (source.getD "" ++ "." ++ i.name)) := by
      simpa [hstar, and_assoc] using hplain
    rw [ImportName.plainName?, if_neg hspecial, hn]

/-- Outside of definitions and where not only type checkers look, something is imported by a local
name; whether it is special. -/
def Module.Imports (file : String) (m : Module) (n : String) (isSpecial : Bool) : Prop :=
  ∃ v ∈ m.visits file, v.context.depth = 0 ∧ v.context.guarded = false ∧
    ∃ pos t, v.stmt = .simple pos t ∧ t.Imports n isSpecial

/-- What is imported as nothing special is bound. -/
theorem Module.Imports.bindsUnguarded {file : String} {m : Module} {n : String}
    (h : m.Imports file n false) : m.BindsUnguarded file n := by
  obtain ⟨v, hv, hdepth, hguarded, pos, t, hstmt, himports⟩ := h
  refine ⟨v, hv, hdepth, hguarded, ?_⟩
  rw [Visit.bound, hstmt]
  exact himports.mem_plainImports rfl

/-- A declaration below others refers to a name that dangles: no type up to the declaration has it,
its root is not bound where not only type checkers look, and it is that of no builtin class. -/
structure Declaration.Dangles (file : String) (m : Module) (above : List Declaration)
    (d : Declaration) (n : String) : Prop where
  refers : ∃ t ∈ d.types, ∃ arguments location, Includes (.reference n arguments location) t
  undeclared : n ∉ typeNames (above ++ [d])
  unbound : ¬ m.BindsUnguarded file (rootOf n)
  unbuiltin : n ∉ builtinClasses

section Plans

variable {file : String} {m : Module} {above : List Declaration} {d : Declaration} {n : String}

/-- A binding has a name in the scope of a module just if the module binds it. -/
theorem find?_bindings_ofModule :
    (Scope.ofModule file m).bindings.reverse.find? (·.name == n) = none ↔
      ¬ m.BindsUnguarded file n := by
  rw [← any_bindings_ofModule, List.find?_eq_none, List.any_eq_true]
  simp

/-- A declaration with a dangling name cannot be planned. -/
theorem Declaration.Dangles.not_plannable (h : d.Dangles file m above n) :
    ¬ d.Plannable (Scope.ofModule file m).bindings
      (UnboundBuiltin (Scope.ofModule file m).bindings) above := by
  intro hplannable
  obtain ⟨t, ht, arguments, location, hrefers⟩ := h.refers
  have hnew : n ∉ typeNames above ∧ n ∉ typeNames [d] := by
    simpa only [typeNames_append, List.mem_append, not_or] using h.undeclared
  rcases (hplannable.types t ht).references n arguments location hrefers with
    habove | ⟨own, rfl, rfl, -⟩ | ⟨-, ⟨b, hbound, -⟩ | hbuiltin⟩
  · exact hnew.1 habove
  · exact hnew.2 List.mem_cons_self
  · rw [find?_bindings_ofModule.2 h.unbound] at hbound
    cases hbound
  · exact h.unbuiltin hbuiltin.1

variable {r : Registry} {fault : Fault}

/-- What the planner says to be unresolved dangles. -/
theorem Declaration.PlanFault.dangles {near : List String}
    (h : d.PlanFault (Scope.ofModule file m).bindings above fault)
    (hcause : fault.cause = .unresolvedType n near) : d.Dangles file m above n := by
  cases h with
  | nested hd h | duplicate hd h =>
    rw [h] at hcause
    cases hcause
  | @type t r ht hnames hbinding hbuild =>
    obtain ⟨u, hu, hrefuses⟩ := refusesIn_of_build hbuild
    obtain ⟨⟨arguments, location, rfl⟩, hget, hunbound, hunbuiltin⟩ :=
      hrefuses.of_unresolved hcause
    refine ⟨⟨t, ht, arguments, location, hu⟩, ?_, ?_, hunbuiltin⟩
    · rw [← hnames]
      exact get?_eq_none_iff.1 hget
    · rw [hbinding] at hunbound
      exact find?_bindings_ofModule.1 hunbound

/-- Declarations of which one has a dangling name are not planned. -/
theorem exists_plan_eq_error {ds : List Declaration} {i : Nat}
    (hknows : r.KnowsTypes (Scope.ofModule file m).bindings []) (hd : ds[i]? = some d)
    (h : d.Dangles file m (ds.take i) n) : ∃ fault, plan r ds = .error fault := by
  cases hplan : plan r ds with
  | error fault => exact ⟨fault, rfl⟩
  | ok result =>
    obtain ⟨out, hout, -⟩ := Except.bind_eq_ok.1 hplan
    have hnames : definedNames [] = typeNames [] := rfl
    have hall := (exists_planFrom_iff (s := { registry := r }) 0 hknows hnames).1 ⟨out, hout⟩
    exact absurd (hall i d hd) h.not_plannable

end Plans

section Modules

/-- The line of source that is shown does not change what a fault is. -/
theorem Fault.cause_withSource (f : Fault) (lines : List String) :
    (f.withSource lines).cause = f.cause := by
  unfold Fault.withSource
  repeat' split
  all_goals rfl

variable {options : Options} {source file : String} {m : Module}

/-- The scope of a module that lowers is that of its tree. -/
theorem scope_of_lower {lowered : Lowered} (hread : readModule source file = .ok m)
    (h : lower source file options = .ok lowered) : lowered.scope = Scope.ofModule file m := by
  rw [lower_of_readModule hread] at h
  obtain ⟨found, -, htree⟩ := Except.bind_eq_ok.1 h
  obtain ⟨-, -, -, hscope, -⟩ := lowerTree_eq_ok htree
  exact hscope

/-- A module is refused for an unresolved name only if it lowers and the name dangles. -/
theorem Refused.dangles {f : Fault} {name : String} {near : List String}
    (hread : readModule source file = .ok m) (h : Refused options source file f)
    (hcause : f.cause = .unresolvedType name near) :
    ∃ (lowered : Lowered) (i : Nat) (d : Declaration),
      lower source file options = .ok lowered ∧ lowered.declarations[i]? = some d ∧
      d.Dangles file m (lowered.declarations.take i) name := by
  cases h with
  | lowering h =>
    -- Neither a hint nor a call that is not lowered has such a fault.
    rw [lower_of_readModule hread] at h
    rcases Except.bind_eq_error.1 h with h | ⟨found, -, h⟩
    · obtain ⟨inner, -, hinner⟩ := Except.mapError_eq_error.1 h
      cases hinner
    · cases loweringFailure_of_lowerTree h with
      | hint hasks h =>
        have hkind := (HintContext.locates_of_denote_eq_error h).2.1
        rw [hcause] at hkind
        exact absurd rfl hkind
      | call he hcall => cases hcause
  | @planning lowered runtime r hlower hallocate h =>
    rw [scope_of_lower hread hlower] at hallocate
    have hknows := Registry.KnowsTypes.allocate (.ofModule _ _) hallocate
    obtain ⟨i, d, hd, hfault⟩ := planFault_of_plan hknows h
    exact ⟨lowered, i, d, hlower, hd, hfault.dangles hcause⟩

/-- Compilation says that a name in a hint is unresolved only if the module lowers and the name
dangles in one of its declarations. Then whatever is imported by the root of the name, outside of
definitions and of what only type checkers see, is special. On the other hand, a module that lowers
is refused with a fault if a name dangles in one of its declarations, unless a hint denotes a type
that would have to be described and has no description; then it does not compile either. -/
theorem imported_names_resolve (hread : parseModule source = .ok m) :
    (∀ fault name near, compile options source file = .error (.fault fault) →
      fault.cause = .unresolvedType name near →
      (∃ (lowered : Lowered) (i : Nat) (d : Declaration),
        lower source file options = .ok lowered ∧ lowered.declarations[i]? = some d ∧
        d.Dangles file m (lowered.declarations.take i) name) ∧
      ∀ isSpecial, m.Imports file (rootOf name) isSpecial → isSpecial = true) ∧
    ∀ (lowered : Lowered) (i : Nat) (d : Declaration) (name : String),
      lower source file options = .ok lowered →
      lowered.declarations[i]? = some d → d.Dangles file m (lowered.declarations.take i) name →
      (∃ fault, compile options source file = .error (.fault fault)) ∨
        (compile options source file = .error (.unprintable .description) ∧
          ∃ hint t, m.Asks (Scope.ofModule file m) hint ∧ (m.hints file).denote hint = .ok t ∧
            t.Undescribed) := by
  have hmodule : readModule source file = .ok m := by
    rw [readModule, hread]
    rfl
  refine ⟨fun fault name near h hcause => ?_, fun lowered i d name hlower hd hdangles => ?_⟩
  · rcases compile_eq_error hread h with
      ⟨f, hrefused, hf⟩ | ⟨hf, -⟩ | ⟨f, hf⟩ | ⟨hf, -⟩
    · have hsame : f.cause = .unresolvedType name near := by
        rw [← hcause, Failure.fault.inj hf, Fault.cause_withSource]
      obtain ⟨lowered, i, d, hlower, hd, hdangles⟩ := hrefused.dangles hmodule hsame
      refine ⟨⟨lowered, i, d, hlower, hd, hdangles⟩, fun isSpecial himports => ?_⟩
      cases isSpecial with
      | true => rfl
      | false => exact absurd himports.bindsUnguarded hdangles.unbound
    · exact absurd rfl (hf fault)
    · cases hf
    · cases hf
  · rcases hallocate : (Registry.ofModule lowered.scope.bindings lowered.scope.reserved).allocate
      options.runtimeAlias with ⟨runtime, r⟩
    have hknows : r.KnowsTypes (Scope.ofModule file m).bindings [] := by
      rw [scope_of_lower hmodule hlower] at hallocate
      exact Registry.KnowsTypes.allocate (.ofModule _ _) hallocate
    obtain ⟨fault, hplan⟩ := exists_plan_eq_error hknows hd hdangles
    have hcompile : compile options source file =
        .error ((Failure.ofFault fault).withSource (Text.splitLines source)) := by
      rw [compile, hlower]
      change (compileLowered options lowered).mapError _ >>= _ = _
      rw [compileLowered_of_plan_error hallocate hplan]
      rfl
    rcases ofFault_cases hmodule hlower hallocate hplan with heq | ⟨heq, htype⟩
    · exact .inl ⟨_, by rw [hcompile, heq]; rfl⟩
    · exact .inr ⟨by rw [hcompile, heq]; rfl, htype⟩

end Modules

/-- A text of a module that imports a special module by its full name, and has a parameter with
another class of the package as its hint. -/
def orderedText : String := "import collections.abc\ndef f(x: collections.OrderedDict): pass\n"

/-- The tree of the text. -/
def orderedTree : Module :=
  [.simple ⟨1, 0⟩ (.importModules [⟨"collections.abc", none⟩]),
    .function ⟨2, 0⟩
      ⟨false, "f", ⟨[], [⟨⟨2, 6⟩, "x",
        some (.attribute ⟨2, 9⟩ (.name ⟨2, 9⟩ "collections") "OrderedDict"), none⟩],
        none, [], none⟩, none, [], none⟩ [.simple ⟨2, 35⟩ .pass]]

/-- Whether a module is the one of `orderedTree`. -/
def isOrderedTree : Module → Bool
  | [.simple ⟨1, 0⟩ (.importModules [⟨"collections.abc", none⟩]),
      .function ⟨2, 0⟩
        ⟨false, "f", ⟨[], [⟨⟨2, 6⟩, "x",
          some (.attribute ⟨2, 9⟩ (.name ⟨2, 9⟩ "collections") "OrderedDict"), none⟩],
          none, [], none⟩, none, [], none⟩ [.simple ⟨2, 35⟩ .pass]] => true
  | _ => false

/-- The tree is read from the text. -/
theorem parseModule_ordered : parseModule orderedText = .ok orderedTree := by
  have hread : (parseModule orderedText).toOption.any isOrderedTree = true := by decide +kernel
  refine Except.eq_ok_of_any hread fun m hm => ?_
  unfold isOrderedTree at hm
  split at hm
  · rfl
  · cases hm

/-- What is known of the names in the module. -/
def orderedScope : Scope :=
  { specialModules := ["collections.abc"], shadowed := ["f"],
    reserved := ["x", "f", "collections"] }

/-- The hint is a reference to the class. -/
def orderedType : StaticType :=
  .reference "collections.OrderedDict" [] (some ⟨2, 10, some "m.py"⟩)

/-- The module as the compiler sees it. -/
def orderedModule : Lowered where
  file := "m.py"
  declarations := [.function ⟨"f", [⟨"x", some orderedType, .positional,
    some ⟨2, 7, some "m.py"⟩⟩], some ⟨2, 1, some "m.py"⟩⟩]
  scope := orderedScope
  tree := [.simple ⟨1, 0⟩ (.importModules [⟨"collections.abc", none⟩]),
    .function ⟨2, 0⟩
      ⟨false, "f", ⟨[], [⟨⟨2, 6⟩, "x",
        some (.attribute ⟨2, 9⟩ (.name ⟨2, 9⟩ "collections") "OrderedDict"), none⟩],
        none, [], none⟩, none, [], some 0⟩ [.simple ⟨2, 35⟩ .pass]]

/-- The function is lowered from its text. -/
theorem lower_ordered : lower orderedText "m.py" {} = .ok orderedModule := by
  let context : LowerContext := ⟨⟨orderedScope, "m.py", none⟩, [], "recursive", 0⟩
  have hcomments : comments orderedText = .ok [] := by decide +kernel
  have hscope : Scope.ofModule "m.py" orderedTree = orderedScope := by with_unfolding_all rfl
  have hlowered : lowerHint context
      (.attribute ⟨2, 9⟩ (.name ⟨2, 9⟩ "collections") "OrderedDict") = pure orderedType := by
    have hdenote : (⟨orderedScope, "m.py", none⟩ : HintContext).denote
        (.attribute ⟨2, 9⟩ (.name ⟨2, 9⟩ "collections") "OrderedDict") = .ok orderedType :=
      HintContext.denote_of_form_done (by with_unfolding_all rfl)
    funext s
    rw [lowerHint]
    change (do return (← (⟨orderedScope, "m.py", none⟩ : HintContext).denote _, s)) = _
    rw [hdenote]
    rfl
  have hparameters : lowerParameters context ⟨[], [⟨⟨2, 6⟩, "x",
      some (.attribute ⟨2, 9⟩ (.name ⟨2, 9⟩ "collections") "OrderedDict"), none⟩], none, [],
        none⟩ = pure [⟨"x", some orderedType, .positional, some ⟨2, 7, some "m.py"⟩⟩] := by
    simp only [lowerParameters, Parameters.toList, List.map_nil, List.map_cons, Option.toList,
      List.nil_append, List.append_nil, List.mapM_cons, List.mapM_nil, Option.mapM_some, hlowered]
    rfl
  have htree : lowerAll context orderedTree {} =
      .ok (orderedModule.tree, ⟨orderedModule.declarations, []⟩) := by
    simp only [orderedTree, lowerAll, lowerStmt, hparameters]
    rfl
  rw [lower, readModule, parseModule_ordered, hcomments]
  change lowerTree orderedTree "m.py" [] {} = _
  rw [lowerTree, hscope]
  exact Except.bind_eq_ok.2 ⟨_, htree, rfl⟩

/-- The root of the name is imported, but with a special module alone: the name dangles, and the
module does not compile. -/
theorem imported_names_resolve_ordered :
    (∃ fault near, compile {} orderedText "m.py" = .error (.fault fault) ∧
      fault.cause = .unresolvedType "collections.OrderedDict" near) ∧
    orderedTree.Imports "m.py" "collections" true ∧
    ¬ orderedTree.Imports "m.py" "collections" false := by
  let place : Location := ⟨2, 10, some "m.py"⟩
  have hcompile : compile {} orderedText "m.py" = .error (.fault
      ((Fault.unresolved "collections.OrderedDict" (some place) []).withSource
        (Text.splitLines orderedText))) := by
    rw [compile, lower_ordered]
    rfl
  have hroot : rootOf "collections.OrderedDict" = "collections" := by decide +kernel
  obtain ⟨-, hspecial⟩ := (imported_names_resolve parseModule_ordered).1 _ _ _ hcompile
    (Fault.cause_withSource _ _)
  rw [hroot] at hspecial
  refine ⟨⟨_, _, hcompile, Fault.cause_withSource _ _⟩, ?_, fun h => ?_⟩
  · have hmodule : Simple.Imports "collections" true
        (.importModules [⟨"collections.abc", none⟩]) :=
      .module (i := ⟨"collections.abc", none⟩) List.mem_cons_self (by decide +kernel)
    refine ⟨⟨⟨0, false⟩, {}, _⟩, List.mem_cons_self, rfl, rfl, _, _, rfl, hmodule⟩
  · cases hspecial false h

end Typeward
