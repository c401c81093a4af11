import Typeward.Proofs.FaultPlaces
import Typeward.Proofs.ParsedModules
import Typeward.Proofs.Suppression

/-!
# How compilation fails

A module that is read with its comments compiles, or it is refused with a fault, unless its source
cannot be printed. What is planned is placed and spliced without fail, so only a hint can go wrong
otherwise, by one of the accidents: an annotated type has no arguments, a string holds a surrogate,
a quoted hint holds a null character, or the fault about a marker would show an integer that is too
long.
-/

namespace Typeward

open Source

/-- Unifying newlines brings in line feeds alone. -/
theorem Text.mem_of_mem_unifyNewlines {ch : Char} {cs : List Char} (h : ch ∈ unifyNewlines cs) :
    ch = '\n' ∨ ch ∈ cs := by
  fun_induction unifyNewlines cs with
  | case1 => cases h
  | case2 rest ih =>
    rcases List.mem_cons.1 h with rfl | h
    · exact .inl rfl
    · exact (ih h).imp_right fun h => List.mem_cons_of_mem _ (List.mem_cons_of_mem _ h)
  | case3 c rest _ ih =>
    rcases List.mem_cons.1 h with rfl | h
    · split
      · exact .inl rfl
      · exact .inr List.mem_cons_self
    · exact (ih h).imp_right (List.mem_cons_of_mem _)

/-- Reading a module brings in line feeds alone. -/
theorem mem_of_mem_moduleText {ch : Char} {source : String} (h : ch ∈ moduleText source) :
    ch = '\n' ∨ ch ∈ source.toList := by
  unfold moduleText at h
  dsimp only at h
  split at h
  · exact Text.mem_of_mem_unifyNewlines h
  · rcases List.mem_append.1 h with h | h
    · exact Text.mem_of_mem_unifyNewlines h
    · exact .inl (List.mem_singleton.1 h)

/-- What is left of a text stood in it. -/
theorem Text.mem_of_mem_trim {ch : Char} {text : String} (h : ch ∈ (trim text).toList) :
    ch ∈ text.toList := by
  rw [trim, String.toList_ofList, trimEndWhere, List.mem_reverse] at h
  have hmiddle := List.mem_reverse.1 ((List.dropWhile_suffix _).mem h)
  exact (List.dropWhile_suffix _).mem hmiddle

/-- Only a text with a null character in it is refused for one. -/
theorem mem_of_readQuoted_eq_nullCharacter {text : String}
    (h : readQuoted text = .error .nullCharacter) : '\x00' ∈ text.toList := by
  have hparse : parseExpression (Text.trim text) = .error .nullCharacter := by
    unfold readQuoted at h
    split at h
    · rename_i failure hparse
      rw [hparse, Except.error.inj h]
    · split at h <;> cases h
  have hmem : '\x00' ∈ moduleText (Text.trim text) := by
    unfold parseExpression readWith at hparse
    dsimp only at hparse
    split at hparse
    · rename_i hcontains
      exact List.contains_iff_mem.1 hcontains
    · split at hparse <;> cases hparse
  rcases mem_of_mem_moduleText hmem with h | h
  · exact absurd h (by decide)
  · exact Text.mem_of_mem_trim h

namespace HintContext

variable {c : HintContext} {e : Expr} {failure : Failure}

/-- What is prone to an accident has no type. -/
theorem Accident.denote_eq (h : c.Accident e failure) : c.denote e = .error failure := by
  cases h with
  | @nothingAnnotated pos base index hbase hindex =>
    have harray : arrayContainers.lookup "Annotated" = none := by decide
    refine denote_of_form_done ?_
    unfold form
    simp [hbase, specialForm, annotatedForm, hindex, harray, dictNames, tupleNames]
  | surrogateText pos s marked =>
    refine denote_of_form_done ?_
    unfold form
    rfl
  | @nullCharacter pos text marked hread =>
    have hform : c.form (.constant pos (.text text) marked) = .quoted pos text := by
      unfold form
      rfl
    rw [denote_of_form_quoted_error hform hread]
    rfl

/-- What is prone to an accident is an annotated type without arguments, a string with a surrogate in
it, or a quoted hint with a null character in it. -/
theorem Accident.cases (h : c.Accident e failure) :
    (failure = .nothingAnnotated ∧ ∃ pos base q, e = .subscript pos base (.display q .tuple []) ∧
      c.scope.canonical base = some "Annotated") ∨
    (failure = .surrogateText ∧ ∃ pos s marked, e = .constant pos (.surrogates s) marked) ∨
    (failure = .nullCharacter ∧ ∃ pos text marked, e = .constant pos (.text text) marked ∧
      '\x00' ∈ text.toList) := by
  cases h with
  | @nothingAnnotated pos base index hbase hindex =>
    unfold subscriptArguments at hindex
    split at hindex
    · subst hindex
      exact .inl ⟨rfl, _, _, _, rfl, hbase⟩
    · cases hindex
  | surrogateText pos s marked => exact .inr (.inl ⟨rfl, pos, s, marked, rfl⟩)
  | @nullCharacter pos text marked hread =>
    exact .inr (.inr ⟨rfl, pos, text, marked, rfl, mem_of_readQuoted_eq_nullCharacter hread⟩)

end HintContext

section Stages

variable {options : Options} {source file : String} {m : Module} {failure : Failure}

/-- A module that lowers compiles, or its declarations are not planned. What is planned has a place
in the module, so that nothing else keeps it from being spliced. -/
theorem compileLowered_cases {comments : List (Nat × String)} {lowered : Lowered}
    (hplain : Stmt.AllUnnumbered m) (hlower : lowerTree m file comments options = .ok lowered) :
    (∃ compiled, compileLowered options lowered = .ok compiled) ∨
      ∃ runtime r fault,
        (Registry.ofModule lowered.scope.bindings lowered.scope.reserved).allocate
          options.runtimeAlias = (runtime, r) ∧
        plan r lowered.declarations = .error fault ∧
        compileLowered options lowered = .error (.ofFault fault) := by
  rcases hallocate : (Registry.ofModule lowered.scope.bindings lowered.scope.reserved).allocate
    options.runtimeAlias with ⟨runtime, r⟩
  cases hplan : plan r lowered.declarations with
  | error fault =>
    exact .inr ⟨runtime, r, fault, rfl, hplan, compileLowered_of_plan_error hallocate hplan⟩
  | ok result =>
    obtain ⟨p, r'⟩ := result
    let emitter := Emitter.ofOptions options (some runtime)
    obtain ⟨us, known, hplaces⟩ := exists_placesAll hplain hlower hplan emitter
    obtain ⟨emitted, hcompile⟩ :=
      compileLowered_of_placesAll options hallocate hplan rfl hplaces
    exact .inl ⟨_, hcompile⟩

/-- What a module is refused with that lowers but is not planned: a fault that is stated, or none,
where a type in a hint cannot be described. -/
theorem ofFault_cases {lowered : Lowered} {runtime : String} {r : Registry} {f : Fault}
    (hread : readModule source file = .ok m) (hlower : lower source file options = .ok lowered)
    (hallocate : (Registry.ofModule lowered.scope.bindings lowered.scope.reserved).allocate
      options.runtimeAlias = (runtime, r))
    (h : plan r lowered.declarations = .error f) :
    Failure.ofFault f = .fault f ∨ (Failure.ofFault f = .unprintable .description ∧
      ∃ hint t, m.Asks (Scope.ofModule file m) hint ∧ (m.hints file).denote hint = .ok t ∧
        t.Undescribed) := by
  unfold Failure.ofFault
  cases hstated : f.isStated with
  | true => exact .inl rfl
  | false =>
    rcases concerns_of_plan hread hlower hallocate h with
      ⟨hf, -⟩ | ⟨hint, t, r, hasks, hdenote, hrefuses⟩
    · simp [hf] at hstated
    · exact .inr ⟨rfl, hint, t, hasks, hdenote, hrefuses.undescribed hstated⟩

/-- A module that is read but does not compile is refused with a fault, which is then shown with the
line that it points into, or it fails otherwise when it is lowered, or it cannot be printed, or it
is refused for a type in a hint that has no description. -/
theorem compile_eq_error (hread : parseModule source = .ok m)
    (h : compile options source file = .error failure) :
    (∃ f, Refused options source file f ∧
      failure = .fault (f.withSource (Text.splitLines source))) ∨
    ((∀ f, failure ≠ .fault f) ∧ lower source file options = .error failure) ∨
    (∃ f, failure = .unprintable (.tree f)) ∨
    (failure = .unprintable .description ∧ ∃ hint t, m.Asks (Scope.ofModule file m) hint ∧
      (m.hints file).denote hint = .ok t ∧ t.Undescribed) := by
  have hmodule : readModule source file = .ok m := by
    rw [readModule, hread]
    rfl
  rcases Except.bind_eq_error.1 h with h | ⟨lowered, hlowered, h⟩
  · obtain ⟨inner, hlower, rfl⟩ := Except.mapError_eq_error.1 h
    cases inner with
    | fault f => exact .inl ⟨f, .lowering hlower, rfl⟩
    | nullCharacter | surrogateText | unprintable | nothingAnnotated | undecodable | comments
    | emission => exact .inr (.inl ⟨by simp [Failure.withSource], hlower⟩)
  · have hlower := Except.mapError_eq_ok.1 hlowered
    obtain ⟨found, -, htree⟩ := Except.bind_eq_ok.1 ((lower_of_readModule hmodule).symm.trans hlower)
    rcases Except.bind_eq_error.1 h with h | ⟨compiled, -, h⟩
    · obtain ⟨inner, hcompile, rfl⟩ := Except.mapError_eq_error.1 h
      rcases compileLowered_cases (allUnnumbered_of_parseModule hread) htree with
        ⟨compiled, hok⟩ | ⟨runtime, r, f, hallocate, hplan, hfault⟩
      · cases hcompile.symm.trans hok
      · obtain rfl := Except.error.inj (hcompile.symm.trans hfault)
        rcases ofFault_cases hmodule hlower hallocate hplan with heq | ⟨heq, htype⟩
        · exact .inl ⟨f, .planning hlower hallocate hplan, by rw [heq]; rfl⟩
        · exact .inr (.inr (.inr ⟨by rw [heq]; rfl, htype⟩))
    · rcases Except.bind_eq_error.1 h with h | ⟨code, -, h⟩
      · obtain ⟨f, -, rfl⟩ := Except.mapError_eq_error.1 h
        exact .inr (.inr (.inl ⟨f, rfl⟩))
      · cases h

/-- Lowering a module that is read with its comments fails with a fault, for want of the source of
an expression, or because a hint in the module comes to an accident. The hint then denotes no
type. -/
theorem lower_eq_error {found : List (Nat × String)} (hread : readModule source file = .ok m)
    (hcomments : comments source = .ok found) (h : lower source file options = .error failure) :
    (∃ f, failure = .fault f) ∨ (∃ f, failure = .unprintable (.tree f)) ∨
      ∃ hint c e, m.Asks (Scope.ofModule file m) hint ∧ (m.hints file).ComesTo hint c e ∧
        (∀ t, (m.hints file).denote hint ≠ .ok t) ∧ c.Accident e failure := by
  rw [lower_of_readModule hread, hcomments] at h
  cases loweringFailure_of_lowerTree (h : lowerTree m file found options = .error failure) with
  | call he hcall => exact .inl ⟨_, rfl⟩
  | unprintable f => exact .inr (.inl ⟨f, rfl⟩)
  | @hint hint _ hasks hdenote =>
    rcases HintContext.accident_of_denote hdenote with hf | hf | ⟨c, e, hcomes, haccident⟩
    · exact .inl hf
    · exact .inr (.inl hf)
    · refine .inr (.inr ⟨hint, c, e, hasks, hcomes, fun t ht => ?_, haccident⟩)
      obtain ⟨u, hu, -⟩ := HintContext.denote_of_comesTo hcomes ht
      cases haccident.denote_eq.symm.trans hu

/-- A module that is read with its comments compiles or fails with a fault, unless it cannot be
printed, with three exceptions where no hint in the module quotes a null character. A hint may come
to an annotated type whose brackets hold the empty tuple, or to a string with a surrogate in it.
Such a hint denotes no type. Or a hint denotes a type with a marker in an intersection whose
description would show an integer that is too long. -/
theorem failures_clean {found : List (Nat × String)} (hread : parseModule source = .ok m)
    (hcomments : comments source = .ok found) (h : compile options source file = .error failure) :
    (∃ f, failure = .fault f) ∨ (∃ f, failure = .unprintable (.tree f)) ∨
      (failure = .unprintable .description ∧ ∃ hint t, m.Asks (Scope.ofModule file m) hint ∧
        (m.hints file).denote hint = .ok t ∧ t.Undescribed) ∨
      ∃ hint c e, m.Asks (Scope.ofModule file m) hint ∧ (m.hints file).ComesTo hint c e ∧
        (∀ t, (m.hints file).denote hint ≠ .ok t) ∧
        ((failure = .nothingAnnotated ∧
            ∃ pos base q, e = .subscript pos base (.display q .tuple []) ∧
              c.scope.canonical base = some "Annotated") ∨
          (failure = .surrogateText ∧ ∃ pos s marked, e = .constant pos (.surrogates s) marked) ∨
          (failure = .nullCharacter ∧ ∃ pos text marked, e = .constant pos (.text text) marked ∧
            '\x00' ∈ text.toList)) := by
  have hmodule : readModule source file = .ok m := by
    rw [readModule, hread]
    rfl
  rcases compile_eq_error hread h with ⟨f, -, rfl⟩ | ⟨-, hlower⟩ | hprint | htype
  · exact .inl ⟨_, rfl⟩
  · rcases lower_eq_error hmodule hcomments hlower with
      hf | hf | ⟨hint, c, e, hasks, hcomes, hdenotes, haccident⟩
    · exact .inl hf
    · exact .inr (.inl hf)
    · exact .inr (.inr (.inr ⟨hint, c, e, hasks, hcomes, hdenotes, haccident.cases⟩))
  · exact .inr (.inl hprint)
  · exact .inr (.inr (.inl htype))

end Stages

/-- A text of a function whose parameter has an annotated type without arguments as its hint. -/
def emptyText : String := "from typing import Annotated\ndef f(x: Annotated[()]): pass\n"

/-- The hint in the text. -/
def emptyHint : Expr :=
  .subscript ⟨2, 9⟩ (.name ⟨2, 9⟩ "Annotated") (.display ⟨2, 19⟩ .tuple [])

/-- The tree of the text. -/
def emptyTree : Module :=
  [.simple ⟨1, 0⟩ (.importNames (some "typing") [⟨"Annotated", none⟩] 0),
    .function ⟨2, 0⟩
      ⟨false, "f", ⟨[], [⟨⟨2, 6⟩, "x", some emptyHint, none⟩], none, [], none⟩, none, [], none⟩
      [.simple ⟨2, 25⟩ .pass]]

/-- Whether a module is the one of `emptyTree`. -/
def isEmptyTree : Module → Bool
  | [.simple ⟨1, 0⟩ (.importNames (some "typing") [⟨"Annotated", none⟩] 0),
      .function ⟨2, 0⟩
        ⟨false, "f", ⟨[], [⟨⟨2, 6⟩, "x", some (.subscript ⟨2, 9⟩ (.name ⟨2, 9⟩ "Annotated")
          (.display ⟨2, 19⟩ .tuple [])), none⟩], none, [], none⟩, none, [], none⟩
        [.simple ⟨2, 25⟩ .pass]] => true
  | _ => false

/-- The tree is read from the text. -/
theorem parseModule_empty : parseModule emptyText = .ok emptyTree := by
  have hread : (parseModule emptyText).toOption.any isEmptyTree = true := by decide +kernel
  refine Except.eq_ok_of_any hread fun m hm => ?_
  unfold isEmptyTree at hm
  split at hm
  · rfl
  · cases hm

/-- What is known of the names in the module. -/
def emptyScope : Scope :=
  { specialNames := [("Annotated", "Annotated")], shadowed := ["f"],
    reserved := ["x", "f", "Annotated"] }

/-- The hint is an accident. -/
theorem accident_empty : (⟨emptyScope, "m.py", none⟩ : HintContext).Accident emptyHint
    .nothingAnnotated :=
  .nothingAnnotated rfl rfl

/-- The module is not compiled, for want of an annotated type. -/
theorem compile_empty : compile {} emptyText "m.py" = .error .nothingAnnotated := by
  let context : LowerContext := ⟨⟨emptyScope, "m.py", none⟩, [], "recursive", 0⟩
  have hcomments : comments emptyText = .ok [] := by decide +kernel
  have hscope : Scope.ofModule "m.py" emptyTree = emptyScope := by with_unfolding_all rfl
  have hlowered : lowerHint context emptyHint = fun _ => .error .nothingAnnotated := by
    funext s
    rw [lowerHint]
    change (do return (← (⟨emptyScope, "m.py", none⟩ : HintContext).denote _, s)) = _
    rw [accident_empty.denote_eq]
    rfl
  have hparameters : lowerParameters context ⟨[], [⟨⟨2, 6⟩, "x", some emptyHint, none⟩],
      none, [], none⟩ = fun _ => .error .nothingAnnotated := by
    simp only [lowerParameters, Parameters.toList, List.map_nil, List.map_cons, Option.toList,
      List.nil_append, List.append_nil, List.mapM_cons, List.mapM_nil, Option.mapM_some, hlowered]
    rfl
  have htree : lowerAll context emptyTree {} = .error .nothingAnnotated := by
    simp only [emptyTree, lowerAll, lowerStmt, hparameters]
    rfl
  have hlower : lower emptyText "m.py" {} = .error .nothingAnnotated := by
    rw [lower, readModule, parseModule_empty, hcomments]
    change lowerTree emptyTree "m.py" [] {} = _
    rw [lowerTree, hscope]
    exact Except.bind_eq_error.2 (.inl htree)
  rw [compile, hlower]
  rfl

/-- The failure of the module is no fault: its hint comes to an annotated type without arguments. -/
theorem failures_clean_empty :
    compile {} emptyText "m.py" = .error .nothingAnnotated ∧
      ∃ hint c e, emptyTree.Asks (Scope.ofModule "m.py" emptyTree) hint ∧
        (emptyTree.hints "m.py").ComesTo hint c e ∧
        (∀ t, (emptyTree.hints "m.py").denote hint ≠ .ok t) ∧
        ∃ pos base q, e = .subscript pos base (.display q .tuple []) ∧
          c.scope.canonical base = some "Annotated" := by
  have hcomments : comments emptyText = .ok [] := by decide +kernel
  refine ⟨compile_empty, ?_⟩
  rcases failures_clean parseModule_empty hcomments compile_empty with
    ⟨f, hf⟩ | ⟨f, hf⟩ | ⟨hf, -⟩ | ⟨hint, c, e, hasks, hcomes, hdenotes, haccident⟩
  · cases hf
  · cases hf
  · cases hf
  · refine ⟨hint, c, e, hasks, hcomes, hdenotes, ?_⟩
    rcases haccident with ⟨-, hannotated⟩ | ⟨hf, -⟩ | ⟨hf, -⟩
    · exact hannotated
    · cases hf
    · cases hf

end Typeward
