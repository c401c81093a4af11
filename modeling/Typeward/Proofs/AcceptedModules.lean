import Typeward.Proofs.PlacementRuns
import Typeward.Proofs.SturdyEvaluations

/-!
# Modules that are accepted

What the front end accepts makes no later stage fall over. Hints denote well-made types, and the
declarations of a module are of such; so all that is emitted for a compiled module is rendered. A
program that evaluates the code of compiled modules, and does with its types whatever the runtime
library offers, never misses anything that the library looks up.
-/

namespace Typeward

/-- The code that is emitted for a compiled module evaluates an expression: a type that values are
checked against, or what a name is defined as. -/
inductive Compiled.Evaluates (c : Compiled) : Expr → Prop
  | checked {m : Emitter} {entry : PlanEntry} {e} (hentry : entry ∈ c.plan.entries)
      (h : m.render entry.expr = .ok e) : Evaluates c e
  | defined {m : Emitter} {entry : PlanEntry} {value label e counts}
      (hentry : entry ∈ c.plan.entries)
      (h : m.emit entry value = .ok ⟨some (.binding label e), counts⟩) : Evaluates c e

/-- What a program does with types: it evaluates the code of compiled modules, binds names, makes
types of its own, for which what is looked up is there, and uses types in all ways that the runtime
library offers. -/
inductive World.Moves (world : World) : {α : Type} → Run α → Prop
  | evaluate {options source file compiled e} (h : compile options source file = .ok compiled)
      (he : compiled.Evaluates e) : Moves world (Inspection.evaluate world e)
  | bind (name o) : Moves world (bind name o)
  | make {t : Schema} (h : t.Sturdy) : Moves world (make t)
  | text (v) : Moves world (Inspection.text world v)
  | name (type) : Moves world (Inspection.name world type)
  | parts (type) : Moves world (Inspection.parts world type)
  | describe (type) : Moves world (Inspection.describe world type)
  | resolve (type) : Moves world (Inspection.resolve world type)
  | errors (type v path) : Moves world (Inspection.errors world type v path)
  | accepts (type v) : Moves world (Inspection.accepts world type v)
  | check (type v label) : Moves world (Inspection.check world type v label)
  | call (type argument fields) : Moves world (Inspection.call world type argument fields)

/-- A session that a program gets to, whatever was raised on the way. -/
inductive World.Reaches (world : World) : Session → Prop
  | start (names) : Reaches world (.start names)
  | move {s : Session} {α : Type} {step : Run α} (hs : Reaches world s) (h : world.Moves step) :
      Reaches world (step.run s).2

variable {world : World}

/-- The model of a sturdy type is asked for by sturdy code. -/
theorem sturdy_reify (runtime : String) {type : Expr} (h : type.Sturdy) :
    (callExpr (runtimeExpr runtime "reify") [type] []).Sturdy := by
  have hown : Provided "reify" [type] [] := ⟨by simp, by simp, by simp⟩
  exact .call runtime none hown (by simpa using h)

/-- The entries of the plan of a compiled module are rendered, to sturdy code. -/
theorem Emitter.exists_render_of_compile {options : Options} {source file : String}
    {compiled : Compiled} (h : compile options source file = .ok compiled) (m : Emitter)
    {entry : PlanEntry} (hentry : entry ∈ compiled.plan.entries) :
    ∃ x, m.render entry.expr = .ok x ∧ x.Sturdy := by
  obtain ⟨x, hx, hsturdy⟩ := Typeward.exists_render_of_compile h hentry m.runtime
  exact ⟨x, by rw [Emitter.render, hx]; rfl, hsturdy⟩

/-- The code of compiled modules is sturdy. -/
theorem Compiled.Evaluates.sturdy {options : Options} {source file : String} {compiled : Compiled}
    (h : compile options source file = .ok compiled) {e : Expr} (he : compiled.Evaluates e) :
    e.Sturdy := by
  cases he with
  | @checked m entry _ hentry he =>
    obtain ⟨x, hx, hsturdy⟩ := m.exists_render_of_compile h hentry
    rwa [Except.ok.inj (he.symm.trans hx)]
  | @defined m entry value label _ counts hentry he =>
    obtain ⟨x, hx, hsturdy⟩ := m.exists_render_of_compile h hentry
    cases hmode : entry.mode with
    | assert =>
      -- checks bind no name
      cases emittedCode_of_emit he rfl with
      | binding _ hdefines => exact absurd hmode hdefines
    | define =>
      rw [Emitter.emit_define hmode hx] at he
      obtain ⟨⟨-, rfl⟩, -⟩ := by simpa using he
      exact hsturdy
    | reify =>
      rw [Emitter.emit_reify hmode hx] at he
      obtain ⟨⟨-, rfl⟩, -⟩ := by simpa using he
      exact sturdy_reify m.runtime hsturdy

/-- The type that a type is after late references are followed is found by a safe step. -/
theorem Surroundings.Secure.settle {cx : Surroundings Run} (h : cx.Secure) (fuel : Nat)
    (t : Schema) : Safe cx.world (cx.settle fuel t) := by
  fun_induction Surroundings.settle cx fuel t with
  | case1 => exact .throw nofun
  | case2 fuel slot ih => exact (h.resolve slot).after ih
  | case3 => exact .pure trivial

namespace Inspection

/-- What is done in the surroundings of a check is safe if it is so in secure surroundings. -/
theorem safe_inSurroundings {α : Type} {f : Surroundings Run → Run α}
    (h : ∀ cx : Surroundings Run, cx.Secure → cx.world = world → Safe world (f cx)) :
    Safe world (surroundings world >>= f) :=
  guards_surroundings.bind fun cx hcx => h cx hcx.1 hcx.2

/-- What is done with a type in the surroundings of a check is safe if it is so with all types for
which what is looked up is there. -/
theorem safe_withType {α : Type} {type : Value} {f : Surroundings Run → Schema → Run α}
    (h : ∀ (cx : Surroundings Run) (t : Schema), cx.Secure → t.Sturdy → Safe cx.world (f cx t)) :
    Safe world (do f (← surroundings world) (← schemaOf type)) := by
  refine safe_inSurroundings fun cx hcx hworld => ?_
  subst hworld
  exact (guards_schemaOf type).bind fun t ht => h cx t hcx ht

/-- Values are shown by safe steps. -/
theorem safe_text (v : Value) : Safe world (text world v) := by
  refine safe_inSurroundings fun cx hcx hworld => ?_
  subst hworld
  exact hcx.valueText v

/-- Names of types are made by safe steps. -/
theorem safe_name (type : Value) : Safe world (name world type) :=
  safe_withType fun _ t hcx _ => hcx.name t

/-- What a type is after late references are followed is found by a safe step. -/
theorem safe_settled (type : Value) : Safe world (settled world type) :=
  safe_withType fun _ t hcx _ => hcx.settle _ t

/-- The names of several types are made by a safe step. -/
theorem safe_names {cx : Surroundings Run} (h : cx.Secure) (ts : List Schema) :
    Safe cx.world (ts.mapM cx.name) :=
  (Ends.mapM fun t _ => h.name t).anyhow

/-- The parts of a type are told by a safe step. -/
theorem safe_parts (type : Value) : Safe world (parts world type) := by
  refine (safe_settled type).after fun t => safe_inSurroundings fun cx hcx hworld => ?_
  subst hworld
  exact (safe_names hcx _).map _

/-- A type is described by a safe step. -/
theorem safe_describe (type : Value) : Safe world (describe world type) := by
  refine (safe_settled type).after fun t => safe_inSurroundings fun cx hcx hworld => ?_
  subst hworld
  refine (hcx.name t).after fun name => (safe_names hcx _).after fun components => ?_
  split
  · exact .pure trivial
  · exact .pure trivial
  · exact (hcx.valueText _).map _
  · exact (hcx.valueText _).map _
  · exact .pure trivial

/-- Values are checked by safe steps. -/
theorem safe_errors (type v : Value) (path : List String) : Safe world (errors world type v path) :=
  safe_withType fun _ _ hcx ht => hcx.errors ht v path

/-- Whether a type accepts a value is found by a safe step. -/
theorem safe_accepts (type v : Value) : Safe world (accepts world type v) :=
  safe_withType fun _ _ hcx ht => (hcx.errors ht v []).map _

/-- A value that is not accepted is all that is complained about. -/
theorem safe_check (type v : Value) (label : String) : Safe world (check world type v label) := by
  refine safe_withType fun cx t hcx ht => (hcx.errors ht v [label]).after fun found => ?_
  split
  · exact .pure trivial
  · exact .throw nofun

/-- The argument of a type that is called is found by a safe step. -/
theorem safe_takeArgument (argument : Option Value) (fields : List (String × Value)) :
    Safe world (takeArgument argument fields) := by
  unfold takeArgument
  split
  · exact .throw nofun
  · exact .pure trivial
  · exact .pure trivial

/-- A type is called by a safe step. -/
theorem safe_call (type : Value) (argument : Option Value) (fields : List (String × Value)) :
    Safe world (call world type argument fields) := by
  have hcheck (v : Value) : Safe world (do check world type v (← name world type)) :=
    (safe_name type).after fun label => safe_check type v label
  refine (guards_schemaOf type).after fun t => ?_
  dsimp only
  split
  · exact .throw nofun
  · refine (safe_takeArgument argument fields).after fun taken => ?_
    split
    · split
      · exact hcheck _
      · exact hcheck _
    · split
      · exact hcheck _
      · exact .throw nofun

/-- The type that a late reference stands for is found by a safe step. -/
theorem safe_resolve (type : Value) : Safe world (resolve world type) := by
  refine (guards_schemaOf type).after fun t => ?_
  split
  · refine safe_inSurroundings fun cx hcx hworld => ?_
    subst hworld
    exact (safe_findLate hcx.valueText _).map _
  · exact .throw nofun

/-- Sturdy code is evaluated by a safe step. -/
theorem safe_evaluate {e : Expr} (h : e.Sturdy) : Safe world (evaluate world e) := by
  refine safe_inSurroundings fun cx hcx hworld => ?_
  subst hworld
  exact (guards_evaluateWith hcx.valueText h).anyhow

end Inspection

/-- Whatever a program does with types is done by safe steps. -/
theorem World.Moves.safe {α : Type} {step : Run α} (h : world.Moves step) : Safe world step := by
  cases h with
  | evaluate h he => exact Inspection.safe_evaluate (he.sturdy h)
  | bind name o => exact .modify fun s hs => ⟨hs.models, hs.slots⟩
  | make h => exact safe_make h
  | text v => exact Inspection.safe_text v
  | name type => exact Inspection.safe_name type
  | parts type => exact Inspection.safe_parts type
  | describe type => exact Inspection.safe_describe type
  | resolve type => exact Inspection.safe_resolve type
  | errors type v path => exact Inspection.safe_errors type v path
  | accepts type v => exact Inspection.safe_accepts type v
  | check type v label => exact Inspection.safe_check type v label
  | call type argument fields => exact Inspection.safe_call type argument fields

/-- A session in which nothing is made yet is sturdy. -/
theorem Session.sturdy_start (names : List (String × Object)) : (Session.start names).Sturdy := by
  refine ⟨fun number t ht => ?_, nofun⟩
  have hmem := List.mem_of_getElem? ((List.getElem?_toArray ..).symm.trans ht)
  obtain ⟨⟨name, test⟩, -, rfl⟩ := List.mem_map.1 hmem
  exact .intro trivial nofun

/-- Every session that a program gets to is sturdy. -/
theorem World.Reaches.sturdy {s : Session} (h : world.Reaches s) : s.Sturdy := by
  induction h with
  | start names => exact Session.sturdy_start names
  | move hs hstep ih => exact (hstep.safe _ ih).1

/-- What the front end accepts makes no later stage fall over. All types that hints denote are well
made, and so are all types of the declarations of a module. All that is emitted for a compiled
module is rendered. And whatever programs do with their types, nothing that is looked up for them
is missing. -/
theorem accepted_modules_hold_up :
    (∀ (c : HintContext) (e : Expr) (t : StaticType), c.denote e = .ok t → t.WellMade) ∧
    (∀ source file options lowered, lower source file options = .ok lowered →
      ∀ d ∈ lowered.declarations, ∀ t ∈ d.types, t.WellMade) ∧
    (∀ options source file compiled, compile options source file = .ok compiled →
      ∀ entry ∈ compiled.plan.entries, ∀ m : Emitter, ∃ x, m.render entry.expr = .ok x) ∧
    ∀ (world : World) (s : Session), world.Reaches s →
      ∀ (α : Type) (step : Run α), world.Moves step →
        ∀ e, (step.run s).1 = .error e → world.Allows e := by
  refine ⟨fun c e t h => HintContext.wellMade_of_denote h, ?_, ?_, ?_⟩
  · intro source file options lowered h
    exact wellMade_of_lower h
  · intro options source file compiled h entry hentry m
    obtain ⟨x, hx, -⟩ := m.exists_render_of_compile h hentry
    exact ⟨x, hx⟩
  · intro world s hs α step hstep
    exact (hstep.safe s hs.sturdy).2.2

end Typeward
