import Typeward.Proofs.DeclarationSites
import Typeward.Proofs.LoweringFaults

/-!
# Where faults point

A module that is read from its text may still be refused with a fault, when it is lowered or when
its declarations are planned. The fault points at a node of the module: at the statement of a
declaration, at a call, or into a hint. What is quoted in a hint has no places of its own in the
module, so a fault about code in a string, however deep strings are nested in it, points at the
string that stands in the module.
-/

namespace Typeward

open Source

/-- A module that lowers is refused with a fault, or else its declarations are. -/
inductive Refused (options : Options) (source file : String) (fault : Fault) : Prop
  | lowering (h : lower source file options = .error (.fault fault))
  | planning {lowered runtime r} (hlower : lower source file options = .ok lowered)
      (hallocate : (Registry.ofModule lowered.scope.bindings lowered.scope.reserved).allocate
        options.runtimeAlias = (runtime, r))
      (h : plan r lowered.declarations = .error fault)

namespace HintContext

variable {c c' : HintContext} {e e' : Expr} {f : Fault}

/-- A hint has a fault: reading it fails with the fault, or a type in its type is refused. -/
inductive FaultsWith (c : HintContext) (e : Expr) (f : Fault) : Prop
  | unread (h : c.denote e = .error (.fault f))
  | refused {t r} (h : c.denote e = .ok t) (hrefuses : Registry.RefusesIn r t f)

/-- The fault of a hint lies in the hint. -/
theorem FaultsWith.locates (h : c.FaultsWith e f) : c.Locates e f.location := by
  cases h with
  | unread h => exact (locates_of_denote_eq_error h).1
  | refused h hrefuses =>
    obtain ⟨u, hu, hrefuses⟩ := hrefuses
    rw [hrefuses.location_eq]
    exact locates_of_denote h hu.standsIn

/-- In a string all places are that of the string. -/
theorem Locates.eq_of_anchor {p : Pos} {place : Option Location} (h : c.Locates e place)
    (hanchor : c.anchor = some p) : place = some (locationOf c.file p) := by
  obtain ⟨n, -, rfl⟩ := h
  simp [location, hanchor]

/-- All hints are read for the same file. -/
theorem ComesTo.file_eq (h : c.ComesTo e c' e') : c'.file = c.file := by
  induction h with
  | self => rfl
  | quoted _ _ _ ih => exact ih
  | part _ _ _ ih => exact ih

/-- What is read in a string has the place of the outermost string that it stands in. -/
theorem ComesTo.anchor_eq {p : Pos} (h : c.ComesTo e c' e') (hanchor : c.anchor = some p) :
    c'.anchor = some p := by
  induction h with
  | self => exact hanchor
  | quoted _ _ _ ih => exact ih (by simp [hanchor])
  | part _ _ _ ih => exact ih hanchor

/-- If reading a hint that is not quoted comes to something in a string, the outermost of the
strings around it stands in the hint. -/
theorem ComesTo.exists_string {p : Pos} (h : c.ComesTo e c' e') (hnone : c.anchor = none)
    (hanchor : c'.anchor = some p) :
    ∃ text marked, (Expr.constant p (.text text) marked).StandsIn e ∧
      c.ComesTo (.constant p (.text text) marked) c' e' := by
  induction h with
  | self =>
    rw [hnone] at hanchor
    cases hanchor
  | @quoted c e pos text inner c' e' hform hread hcomes _ =>
    have htells : (c.form e).Tells c e := tells_form
    rw [hform] at htells
    obtain ⟨marked, rfl⟩ := htells
    have heq : some (c.anchor.getD pos) = some p := (hcomes.anchor_eq rfl).symm.trans hanchor
    rw [hnone] at heq
    obtain rfl := Option.some.inj heq
    exact ⟨text, marked, .self, .quoted hform hread hcomes⟩
  | @part c e parts finish a c' e' hform ha hcomes ih =>
    have htells : (c.form e).Tells c e := tells_form
    rw [hform] at htells
    obtain ⟨text, marked, hstands, hcomes⟩ := ih hnone hanchor
    exact ⟨text, marked, hstands.trans (htells.1 a ha), hcomes⟩

/-- The fault of code in a string lies where the outermost string around it does. -/
theorem FaultsWith.location_of_string {p : Pos} (h : c'.FaultsWith e' f)
    (hcomes : c.ComesTo e c' e') (hanchor : c'.anchor = some p) :
    f.location = some (locationOf c.file p) := by
  rw [← hcomes.file_eq]
  exact h.locates.eq_of_anchor hanchor

end HintContext

/-- What a fault of a module is about: the statement of a declaration, a call, or a hint. -/
inductive Fault.Concerns (k : HintContext) (m : Module) (f : Fault) : Prop
  | statement {t} (ht : t ∈ Stmt.allNodes m) (h : f.location = some (k.location t.pos))
  | call {e} (he : m.Has e) (hcall : e.isCall = true) (h : f.location = some (k.location e.pos))
  | hint {e} (he : m.Asks k.scope e) (h : k.FaultsWith e f)

section Modules

variable {options : Options} {source file : String} {m : Module} {f : Fault}

/-- What is known of the names in a module, for hints that are not quoted. -/
def Module.hints (m : Module) (file : String) : HintContext := ⟨Scope.ofModule file m, file, none⟩

/-- What reading and lowering a module comes to, if its text is read. -/
theorem lower_of_readModule (h : readModule source file = .ok m) :
    lower source file options =
      ((comments source).mapError .comments >>= fun found => lowerTree m file found options) := by
  rw [lower, h]
  rfl

/-- A fault of the planner concerns the statement of a declaration, or a hint that denotes a type
with a refused one in it. -/
theorem concerns_of_plan {lowered : Lowered} {runtime : String} {r : Registry}
    (hread : readModule source file = .ok m) (hlower : lower source file options = .ok lowered)
    (hallocate : (Registry.ofModule lowered.scope.bindings lowered.scope.reserved).allocate
      options.runtimeAlias = (runtime, r))
    (h : plan r lowered.declarations = .error f) :
    (f.isStated = true ∧
        ∃ t ∈ Stmt.allNodes m, f.location = some ((m.hints file).location t.pos)) ∨
      ∃ hint t r, m.Asks (m.hints file).scope hint ∧ (m.hints file).denote hint = .ok t ∧
        Registry.RefusesIn r t f := by
  rw [lower_of_readModule hread] at hlower
  obtain ⟨found, -, hlower⟩ := Except.bind_eq_ok.1 hlower
  obtain ⟨s, hcomes, hdeclarations⟩ := comesFrom_of_lowerTree hlower
  have hknows := Registry.KnowsTypes.allocate (.ofModule _ _) hallocate
  obtain ⟨i, d, hi, hfault⟩ := planFault_of_plan hknows h
  have hd := List.mem_of_getElem? hi
  rw [hdeclarations] at hd
  cases hfault with
  | @nested t hdecl hf | @duplicate t hdecl hf =>
    obtain ⟨u, hu, hplace⟩ := hcomes.places t (hdecl ▸ hd)
    exact .inl ⟨by simp [hf, Fault.isStated], u, hu, hf ▸ hplace⟩
  | @type t r ht _ _ hbuild =>
    have hrefuses := refusesIn_of_build hbuild
    cases hcomes.types d hd t ht with
    | hint h =>
      obtain ⟨hint, hasks, hdenote⟩ := h
      exact .inr ⟨hint, t, r, hasks, hdenote, hrefuses⟩
    | @record fields name location h =>
      -- A record is refused for the type of a field.
      obtain ⟨u, hu, hown⟩ := hrefuses
      cases hu with
      | self => cases hown
      | part hp hu =>
        obtain ⟨g, hg, rfl⟩ := List.mem_map.1 hp
        obtain ⟨hint, hasks, hdenote⟩ := h g hg
        exact .inr ⟨hint, g.type, r, hasks, hdenote, u, hu, hown⟩

/-- A fault of a module that is read concerns a statement, a call or a hint of it. -/
theorem Refused.concerns (hread : readModule source file = .ok m)
    (h : Refused options source file f) : f.Concerns (m.hints file) m := by
  cases h with
  | lowering h =>
    rw [lower_of_readModule hread] at h
    rcases Except.bind_eq_error.1 h with h | ⟨found, -, h⟩
    · cases hcomments : comments source <;> simp [hcomments, Except.mapError] at h
    · cases loweringFailure_of_lowerTree h with
      | hint hasks h => exact .hint hasks (.unread h)
      | call he hcall => exact .call he hcall rfl
  | planning hlower hallocate h =>
    rcases concerns_of_plan hread hlower hallocate h with
      ⟨-, t, ht, hplace⟩ | ⟨hint, t, r, hasks, hdenote, hrefuses⟩
    · exact .statement ht hplace
    · exact .hint hasks (.refused hdenote hrefuses)

/-- What a fault concerns lies in the module. -/
theorem Fault.Concerns.exists_place (h : f.Concerns (m.hints file) m) :
    ∃ pos, m.Starts pos ∧ f.location = some (locationOf file pos) := by
  cases h with
  | @statement t ht h => exact ⟨t.pos, .inl ⟨t, ht, rfl⟩, h⟩
  | @call e he hcall h => exact ⟨e.pos, .inr ⟨e, he, rfl⟩, h⟩
  | hint he h =>
    obtain ⟨n, hn, hplace⟩ := h.locates
    exact ⟨n.pos, .inr ⟨n, he.has.part hn, rfl⟩, hplace⟩

/-- The fault with which a module is refused that is read from its text concerns a statement of the
module, a call or a hint, and points at the start of a node of the module. If reading a hint comes
to something in a string that has the fault, then the fault points at the outermost string around
it, which stands in the hint. -/
theorem faults_placed (hread : readModule source file = .ok m)
    (h : Refused options source file f) :
    f.Concerns (m.hints file) m ∧
      ∃ pos, m.Starts pos ∧ f.location = some (locationOf file pos) ∧
        ∀ hint c' e' p, m.Asks (Scope.ofModule file m) hint →
          (m.hints file).ComesTo hint c' e' → c'.anchor = some p → c'.FaultsWith e' f →
          p = pos ∧ ∃ text marked, (Expr.constant pos (.text text) marked).StandsIn hint ∧
            (m.hints file).ComesTo (.constant pos (.text text) marked) c' e' := by
  have hconcerns := h.concerns hread
  obtain ⟨pos, hstarts, hplace⟩ := hconcerns.exists_place
  refine ⟨hconcerns, pos, hstarts, hplace, fun hint c' e' p _ hcomes hanchor hfault => ?_⟩
  have heq : some (locationOf file pos) = some (locationOf file p) :=
    hplace.symm.trans (hfault.location_of_string hcomes hanchor)
  obtain rfl := locationOf_inj.1 (Option.some.inj heq)
  exact ⟨rfl, hcomes.exists_string rfl hanchor⟩

end Modules

/-- A text of a function whose parameter has a name in a string as its hint, which nothing has. -/
def missingText : String := "def f(x: \"Node\"): pass\n"

/-- The tree of the text. -/
def missingTree : Module :=
  [.function ⟨1, 0⟩
    ⟨false, "f", ⟨[], [⟨⟨1, 6⟩, "x", some (.constant ⟨1, 9⟩ (.text "Node") false), none⟩], none,
      [], none⟩, none, [], none⟩ [.simple ⟨1, 18⟩ .pass]]

/-- Whether a module is the one of `missingTree`. -/
def isMissingTree : Module → Bool
  | [.function ⟨1, 0⟩
      ⟨false, "f", ⟨[], [⟨⟨1, 6⟩, "x", some (.constant ⟨1, 9⟩ (.text "Node") false), none⟩],
        none, [], none⟩, none, [], none⟩ [.simple ⟨1, 18⟩ .pass]] => true
  | _ => false

/-- The tree is read from the text. -/
theorem parseModule_missing : parseModule missingText = .ok missingTree := by
  have hread : (parseModule missingText).toOption.any isMissingTree = true := by decide +kernel
  refine Except.eq_ok_of_any hread fun m hm => ?_
  unfold isMissingTree at hm
  split at hm
  · rfl
  · cases hm

/-- What is known of the names in the module. -/
def missingScope : Scope := { shadowed := ["f"], reserved := ["x", "f"] }

/-- The hint is a reference to the name, at the place of the string. -/
def missingType : StaticType := .reference "Node" [] (some ⟨1, 10, some "m.py"⟩)

/-- The string denotes the reference. -/
theorem denote_missing : (⟨missingScope, "m.py", none⟩ : HintContext).denote
    (.constant ⟨1, 9⟩ (.text "Node") false) = .ok missingType := by
  have hquoted : (⟨missingScope, "m.py", none⟩ : HintContext).form
      (.constant ⟨1, 9⟩ (.text "Node") false) = .quoted ⟨1, 9⟩ "Node" := by
    unfold HintContext.form
    rfl
  obtain ⟨hsize, hread⟩ := readQuoted_node
  rw [HintContext.denote_of_form_quoted hquoted hread]
  exact HintContext.denote_of_form_done (by with_unfolding_all rfl)

/-- The module as the compiler sees it. -/
def missingModule : Lowered where
  file := "m.py"
  declarations := [.function ⟨"f", [⟨"x", some missingType, .positional,
    some ⟨1, 7, some "m.py"⟩⟩], some ⟨1, 1, some "m.py"⟩⟩]
  scope := missingScope
  tree := [.function ⟨1, 0⟩
    ⟨false, "f", ⟨[], [⟨⟨1, 6⟩, "x", some (.constant ⟨1, 9⟩ (.text "Node") false), none⟩], none,
      [], none⟩, none, [], some 0⟩ [.simple ⟨1, 18⟩ .pass]]

/-- The function is lowered from its text. -/
theorem lower_missing : lower missingText "m.py" {} = .ok missingModule := by
  let context : LowerContext := ⟨⟨missingScope, "m.py", none⟩, [], "recursive", 0⟩
  have hcomments : comments missingText = .ok [] := by decide +kernel
  have hscope : Scope.ofModule "m.py" missingTree = missingScope := by with_unfolding_all rfl
  have hlowered : lowerHint context (.constant ⟨1, 9⟩ (.text "Node") false) =
      pure missingType := by
    funext s
    rw [lowerHint]
    change (do return (← (⟨missingScope, "m.py", none⟩ : HintContext).denote _, s)) = _
    rw [denote_missing]
    rfl
  have hparameters : lowerParameters context ⟨[], [⟨⟨1, 6⟩, "x",
      some (.constant ⟨1, 9⟩ (.text "Node") false), none⟩], none, [], none⟩ =
        pure [⟨"x", some missingType, .positional, some ⟨1, 7, some "m.py"⟩⟩] := by
    simp only [lowerParameters, Parameters.toList, List.map_nil, List.map_cons, Option.toList,
      List.nil_append, List.append_nil, List.mapM_cons, List.mapM_nil, Option.mapM_some, hlowered]
    rfl
  have htree : lowerAll context missingTree {} =
      .ok (missingModule.tree, ⟨missingModule.declarations, []⟩) := by
    simp only [missingTree, lowerAll, lowerStmt, hparameters]
    rfl
  rw [lower, readModule, parseModule_missing, hcomments]
  change lowerTree missingTree "m.py" [] {} = _
  rw [lowerTree, hscope]
  exact Except.bind_eq_ok.2 ⟨_, htree, rfl⟩

/-- Nothing has the name that stands in the string, and the fault points at the string. -/
theorem faults_placed_missing :
    ∃ f : Fault, Refused {} missingText "m.py" f ∧ (∃ near, f.cause = .unresolvedType "Node" near) ∧
      f.location = some (locationOf "m.py" ⟨1, 9⟩) := by
  let place : Location := ⟨1, 10, some "m.py"⟩
  have hrefused : Refused {} missingText "m.py" (.unresolved "Node" (some place) []) :=
    .planning lower_missing rfl rfl
  have hread : readModule missingText "m.py" = .ok missingTree := by
    rw [readModule, parseModule_missing]
    rfl
  have hscope : Scope.ofModule "m.py" missingTree = missingScope := by with_unfolding_all rfl
  obtain ⟨-, pos, -, hplace, hstring⟩ := faults_placed hread hrefused
  refine ⟨_, hrefused, ⟨_, rfl⟩, ?_⟩
  -- The name in the string has the fault, so the place is that of the string.
  have hname : HintContext.FaultsWith ⟨missingScope, "m.py", some ⟨1, 9⟩⟩ (.name ⟨1, 0⟩ "Node")
      (.unresolved "Node" (some place) []) := by
    have hdenote : HintContext.denote ⟨missingScope, "m.py", some ⟨1, 9⟩⟩ (.name ⟨1, 0⟩ "Node") =
        .ok missingType := HintContext.denote_of_form_done (by with_unfolding_all rfl)
    have hlookup : Registry.lookup {} "Node" (some place) =
        .error (.unresolved "Node" (some place) []) := rfl
    exact .refused hdenote ⟨_, .self, .reference hlookup⟩
  have hcomes : HintContext.ComesTo (missingTree.hints "m.py")
      (.constant ⟨1, 9⟩ (.text "Node") false) ⟨missingScope, "m.py", some ⟨1, 9⟩⟩
        (.name ⟨1, 0⟩ "Node") := by
    have hquoted : (⟨missingScope, "m.py", none⟩ : HintContext).form
        (.constant ⟨1, 9⟩ (.text "Node") false) = .quoted ⟨1, 9⟩ "Node" := by
      unfold HintContext.form
      rfl
    obtain ⟨hsize, hquote⟩ := readQuoted_node
    rw [Module.hints, hscope]
    exact .quoted hquoted hquote (.self _ _)
  have hasks : missingTree.Asks (Scope.ofModule "m.py" missingTree)
      (.constant ⟨1, 9⟩ (.text "Node") false) :=
    ⟨_, List.mem_cons_self, .parameter List.mem_cons_self⟩
  obtain ⟨rfl, -⟩ := hstring _ _ _ _ hasks hcomes rfl hname
  exact hplace

end Typeward
