import Mathlib.Data.List.Forall2
import Typeward.Emission
import Typeward.Proofs.Nodes
import Typeward.Proofs.Renderings
import Typeward.Schema.Library
import Typeward.Source.Slots

/-!
# Emitted calls and the signatures of the library

The code for a planned entry calls functions of the runtime library. This file compares every such
call with the signature of the function: how many arguments it gives by position and which it names.
All of them fit but one kind. A type that is nothing but a class is built to a check against the
class, which the planner gives a display name like any other call, and the function that makes such
checks takes none.
-/

namespace Typeward

open Registry

/-- Whether an argument stands for any number of arguments. -/
def Expr.isUnpacked : Expr → Bool
  | .starred .. => true
  | _ => false

/-- Arguments fit a function of the library: it exists, and its signature admits as many arguments
by position and the names of the others. -/
def FitsSignature (function : String) (arguments : List Expr) (keywords : List (Keyword Expr)) :
    Prop :=
  ∃ f, LibraryFunction.named.lookup function = some f ∧
    (∀ a ∈ arguments, a.isUnpacked = false) ∧
    ∃ names, keywords.map (·.name) = names.map some ∧
      f.signature.admits arguments.length names = true

/-- If an expression is a call of the library under an alias, its arguments fit. -/
def Expr.FitsLibrary (runtime : String) : Expr → Prop
  | .call _ (.attribute _ (.name _ id) function) arguments keywords _ =>
    id = runtime → FitsSignature function arguments keywords
  | _ => True

/-- All calls of the library in an expression fit. -/
abbrev Expr.CallsFit (runtime : String) : Expr → Prop := Everywhere (FitsLibrary runtime)

/-- The code of a fragment. -/
def Fragment.code : Fragment → Expr
  | .statement e | .expression e | .binding _ e => e

/-- The definition of a type that is nothing but a class. -/
def PlanEntry.RenamesClass (entry : PlanEntry) : Prop :=
  entry.mode = .define ∧ ∃ name shown, entry.expr = (classCheck name).named shown

variable {runtime : String}

/-- A constant calls nothing. -/
theorem callsFit_constantExpr (value : Constant) : (constantExpr value).CallsFit runtime :=
  .node trivial (by simp [constantExpr, Expr.children])

/-- An attribute calls what its base calls. -/
theorem callsFit_attribute {base : Expr} (attr : String) (h : base.CallsFit runtime) :
    (Expr.attribute .synthetic base attr).CallsFit runtime := by
  refine .node trivial fun c hc => ?_
  obtain rfl : c = base := by simpa [Expr.children, Slots.slots] using hc
  exact h

/-- A name calls nothing. -/
theorem callsFit_name (pos : Pos) (id : String) : (Expr.name pos id).CallsFit runtime :=
  .node trivial (by simp [Expr.children])

/-- A chain of attributes on a name calls nothing. -/
theorem callsFit_dottedExpr (name : String) : (dottedExpr name).CallsFit runtime := by
  have hchain (parts : List String) (e : Expr) (he : e.CallsFit runtime) :
      (parts.foldl (.attribute .synthetic · ·) e).CallsFit runtime := by
    induction parts generalizing e with
    | nil => exact he
    | cons part rest ih => exact ih _ (callsFit_attribute part he)
  unfold dottedExpr
  split
  · exact callsFit_name _ _
  · exact hchain _ _ (callsFit_name _ _)

/-- A list calls what its elements call. -/
theorem callsFit_listExpr {xs : List Expr} (h : ∀ x ∈ xs, x.CallsFit runtime) :
    (listExpr xs).CallsFit runtime :=
  .node trivial fun c hc => h c (listSlots_expr xs ▸ hc : c ∈ xs)

/-- The parts of a call are its function, its arguments and what its keywords stand for. -/
theorem children_callExpr (func : Expr) (xs : List Expr) (keywords : List (Keyword Expr)) :
    (callExpr func xs keywords).children = func :: (xs ++ keywords.map (·.value)) := by
  have hkeywords : Slots.listSlots keywords = keywords.map (·.value) := by
    induction keywords with
    | nil => rfl
    | cons k rest ih => exact congrArg (k.value :: ·) ih
  change [func] ++ (Slots.listSlots xs ++ Slots.listSlots keywords) = _
  rw [listSlots_expr, hkeywords, List.singleton_append]

/-- A part of a call is its function, an argument or the value of a keyword. -/
theorem mem_children_callExpr {func : Expr} {xs : List Expr} {keywords : List (Keyword Expr)}
    {c : Expr} (hc : c ∈ (callExpr func xs keywords).children) :
    c = func ∨ c ∈ xs ∨ ∃ k ∈ keywords, c = k.value := by
  rw [children_callExpr] at hc
  simp only [List.mem_cons, List.mem_append, List.mem_map] at hc
  rcases hc with h | h | ⟨k, hk, rfl⟩
  · exact .inl h
  · exact .inr (.inl h)
  · exact .inr (.inr ⟨k, hk, rfl⟩)

/-- A call of the library whose arguments fit calls what its arguments call. -/
theorem callsFit_callExpr {function : String} {xs : List Expr} {keywords : List (Keyword Expr)}
    (hfits : FitsSignature function xs keywords) (hxs : ∀ x ∈ xs, x.CallsFit runtime)
    (hkeywords : ∀ k ∈ keywords, ∃ value, k.value = constantExpr value) :
    (callExpr (runtimeExpr runtime function) xs keywords).CallsFit runtime := by
  refine .node (fun _ => hfits) fun c hc => ?_
  rcases mem_children_callExpr hc with rfl | hc | ⟨k, hk, rfl⟩
  · exact callsFit_attribute _ (callsFit_name _ _)
  · exact hxs c hc
  · obtain ⟨value, hvalue⟩ := hkeywords k hk
    rw [hvalue]
    exact callsFit_constantExpr value

/-- The names of the keyword arguments that options and a display name become. -/
def keywordNames (shown : Option String) (options : List (String × Constant)) : List String :=
  (options.filter fun option => option.1 != "any_params").map (·.1) ++
    (shown.map fun _ => "name").toList

/-- Arguments fit if the signature admits their number and the names of the options. -/
theorem fitsSignature_of_admits {function : String} {f : LibraryFunction} {xs : List Expr}
    {shown : Option String} {options : List (String × Constant)}
    (hf : LibraryFunction.named.lookup function = some f)
    (hxs : ∀ x ∈ xs, x.isUnpacked = false)
    (hadmits : f.signature.admits xs.length (keywordNames shown options) = true) :
    FitsSignature function xs (callKeywords shown options) := by
  refine ⟨f, hf, hxs, keywordNames shown options, ?_, hadmits⟩
  cases shown <;> simp [callKeywords, keywordNames, Function.comp_def]

/-- The keyword arguments of a call are constants. -/
theorem exists_value_of_mem_callKeywords {shown : Option String}
    {options : List (String × Constant)} :
    ∀ k ∈ callKeywords shown options, ∃ value, k.value = constantExpr value := by
  intro k hk
  rcases List.mem_append.1 hk with hk | hk
  · obtain ⟨option, -, rfl⟩ := List.mem_map.1 hk
    exact ⟨option.2, rfl⟩
  · obtain ⟨name, -, rfl⟩ := Option.map_eq_some_iff.1 (Option.mem_toList.1 hk)
    exact ⟨.text name, rfl⟩

/-- What is known of rendered code: all its calls fit, and it stands for one argument. -/
structure Expr.Sound (runtime : String) (x : Expr) : Prop where
  callsFit : x.CallsFit runtime
  isUnpacked : x.isUnpacked = false

/-- A call of the library with sound arguments is sound if the signature admits it. -/
theorem sound_callExpr {function : String} {f : LibraryFunction} {xs : List Expr}
    {shown : Option String} {options : List (String × Constant)}
    (hxs : ∀ x ∈ xs, x.Sound runtime) (hf : LibraryFunction.named.lookup function = some f)
    (hadmits : f.signature.admits xs.length (keywordNames shown options) = true) :
    (callExpr (runtimeExpr runtime function) xs (callKeywords shown options)).Sound runtime where
  callsFit :=
    callsFit_callExpr (fitsSignature_of_admits hf (fun x hx => (hxs x hx).isUnpacked) hadmits)
      (fun x hx => (hxs x hx).callsFit) exists_value_of_mem_callKeywords
  isUnpacked := rfl

/-- A list of sound elements is sound. -/
theorem sound_listExpr {xs : List Expr} (h : ∀ x ∈ xs, x.Sound runtime) :
    (listExpr xs).Sound runtime :=
  ⟨callsFit_listExpr fun x hx => (h x hx).callsFit, rfl⟩

/-- A constant is sound. -/
theorem sound_constantExpr (value : Constant) : (constantExpr value).Sound runtime :=
  ⟨callsFit_constantExpr value, rfl⟩

/-- A chain of attributes on a name is sound. -/
theorem sound_dottedExpr (name : String) : (dottedExpr name).Sound runtime := by
  refine ⟨callsFit_dottedExpr name, ?_⟩
  have hchain (parts : List String) (e : Expr) (he : e.isUnpacked = false) :
      (parts.foldl (.attribute .synthetic · ·) e).isUnpacked = false := by
    induction parts generalizing e with
    | nil => exact he
    | cons part rest ih => exact ih _ rfl
  unfold dottedExpr
  split
  · rfl
  · exact hchain _ _ rfl

/-- A late reference to sound code is sound. -/
theorem sound_lateExpr {body : Expr} (h : body.Sound runtime) :
    (lateExpr runtime body).Sound runtime := by
  have hthunk : (Expr.lambda .synthetic .none body).Sound runtime := by
    refine ⟨.node trivial fun c hc => ?_, rfl⟩
    obtain rfl : c = body := by
      simpa [Expr.children, Slots.slots, Parameters.none, Slots.listSlots] using hc
    exact h.callsFit
  have hcall : (callExpr (runtimeExpr runtime "lazy") [.lambda .synthetic .none body]
      (callKeywords none [])).Sound runtime :=
    sound_callExpr (by simpa using hthunk) (f := .late) rfl
      (by exact (by decide : LibraryFunction.late.signature.admits 1 [] = true))
  exact hcall

/-- The keys of a rendered interface are constants. -/
theorem exists_value_of_mem_propertyKeys {fields : List (String × TypeExpr)} {c : Expr}
    (hc : c ∈ Slots.slots (propertyKeys fields)) : ∃ value, c = constantExpr value := by
  induction fields with
  | nil => exact absurd hc List.not_mem_nil
  | cons f rest ih =>
    rcases List.mem_append.1 hc with hc | hc
    · exact ⟨_, List.mem_singleton.1 hc⟩
    · exact ih hc

/-- A dictionary with constant keys and sound values is sound. -/
theorem sound_dict {fields : List (String × TypeExpr)} {xs : List Expr}
    (h : ∀ x ∈ xs, x.Sound runtime) :
    (Expr.dict .synthetic (propertyKeys fields) xs).Sound runtime := by
  refine ⟨.node trivial fun c hc => ?_, rfl⟩
  rcases BoundedSlots.mem_pair.1 (hc : c ∈ Slots.slots (propertyKeys fields, xs)) with hc | hc
  · obtain ⟨value, rfl⟩ := exists_value_of_mem_propertyKeys hc
    exact callsFit_constantExpr value
  · exact (h c (listSlots_expr xs ▸ hc : c ∈ xs)).callsFit

/-- Whether a display name is given makes no difference where the signature has a parameter for
it. -/
theorem admits_keywordNames {f : LibraryFunction} {n : Nat} {options : List (String × Constant)}
    (hnone : f.signature.admits n (keywordNames none options) = true)
    (hsome : f.signature.admits n (keywordNames (some "") options) = true)
    (shown : Option String) : f.signature.admits n (keywordNames shown options) = true := by
  cases shown with
  | none => exact hnone
  | some name => exact hsome

/-- A check against a class is rendered to sound code. -/
theorem exists_render_classCheck (name : String) :
    ∃ x, render runtime (classCheck name) = .ok x ∧ x.Sound runtime :=
  ⟨_, render_irreducible runtime name none,
    sound_callExpr (by simpa using sound_dottedExpr name) (f := .irreducible) rfl
      (by exact (by decide : LibraryFunction.irreducible.signature.admits 1 [] = true))⟩

/-- Expressions of the form are rendered to sound code. -/
theorem BuiltForm.exists_render {e : TypeExpr} (h : BuiltForm e) :
    ∃ x, render runtime e = .ok x ∧ x.Sound runtime := by
  induction h with
  | primitive name =>
    exact ⟨_, rfl, callsFit_attribute _ (callsFit_name _ _), rfl⟩
  | name name => exact ⟨_, rfl, sound_dottedExpr name⟩
  | deferred name => exact ⟨_, rfl, sound_lateExpr (sound_dottedExpr name)⟩
  | classCheck name => exact exists_render_classCheck name
  | delayed name =>
    obtain ⟨x, hx, hsound⟩ : ∃ x, render runtime (Registry.classCheck name) = .ok x ∧
        x.Sound runtime := exists_render_classCheck name
    exact ⟨lateExpr runtime x, by rw [render, hx]; rfl, sound_lateExpr hsound⟩
  | literal value shown =>
    have hrender : RenderedAll runtime [.constant value] [constantExpr value] := .cons rfl .nil
    exact ⟨_, render_positional (by decide) rfl hrender,
      sound_callExpr (by simpa using sound_constantExpr value) (f := .literal) rfl
        (admits_keywordNames rfl rfl shown)⟩
  | @maybe e shown h ih =>
    obtain ⟨x, hx, hsound⟩ := ih
    exact ⟨_, render_positional (by decide) rfl (.cons hx .nil),
      sound_callExpr (by simpa using hsound) (f := .maybe) rfl
        (admits_keywordNames rfl rfl shown)⟩
  | @list e container shown h ih =>
    obtain ⟨x, hx, hsound⟩ := ih
    refine ⟨_, render_positional (by decide) rfl (.cons hx .nil),
      sound_callExpr (by simpa using hsound) (f := .list) rfl ?_⟩
    unfold containerOptions
    split
    · exact admits_keywordNames rfl rfl shown
    · exact admits_keywordNames rfl rfl shown
  | @dict key value shown hkey hvalue ihkey ihvalue =>
    obtain ⟨x, hx, hsound⟩ := ihkey
    obtain ⟨y, hy, hsound'⟩ := ihvalue
    exact ⟨_, render_positional (by decide) rfl (.cons hx (.cons hy .nil)),
      sound_callExpr (by simpa using And.intro hsound hsound') (f := .dict) rfl
        (admits_keywordNames rfl rfl shown)⟩
  | @interface fields shown h ih =>
    obtain ⟨xs, hxs, hsound⟩ := exists_renderedAll (P := Expr.Sound runtime)
      (List.forall_mem_map.2 ih)
    exact ⟨_, render_interface hxs,
      sound_callExpr (by simpa using sound_dict hsound) (f := .interface) rfl
        (admits_keywordNames rfl rfl shown)⟩
  | @union es shown h ih =>
    obtain ⟨xs, hxs, hsound⟩ := exists_renderedAll ih
    exact ⟨_, render_listed (by decide) rfl hxs,
      sound_callExpr (by simpa using sound_listExpr hsound) (f := .union) rfl
        (admits_keywordNames rfl rfl shown)⟩
  | @intersection es shown h ih =>
    obtain ⟨xs, hxs, hsound⟩ := exists_renderedAll ih
    exact ⟨_, render_listed (by decide) rfl hxs,
      sound_callExpr (by simpa using sound_listExpr hsound) (f := .intersection) rfl
        (admits_keywordNames rfl rfl shown)⟩
  | @refinement e predicate shown h ih =>
    obtain ⟨x, hx, hsound⟩ := ih
    have hrender : RenderedAll runtime [e, .predicate predicate] [x, dottedExpr predicate] :=
      .cons hx (.cons rfl .nil)
    exact ⟨_, render_positional (by decide) rfl hrender,
      sound_callExpr (by simpa using And.intro hsound (sound_dottedExpr predicate))
        (f := .refinement) rfl (admits_keywordNames rfl rfl shown)⟩
  | @anyFunction e shown h ih =>
    obtain ⟨x, hx, hsound⟩ := ih
    exact ⟨_, render_anyFunction hx,
      sound_callExpr (by simpa using And.intro (sound_constantExpr .none) hsound) (f := .func) rfl
        (admits_keywordNames rfl rfl shown)⟩
  | @function params result shown hparams hresult ihparams ihresult =>
    obtain ⟨xs, hxs, hsounds⟩ := exists_renderedAll ihparams
    obtain ⟨x, hx, hsound⟩ := ihresult
    exact ⟨_, render_function hxs hx,
      sound_callExpr (by simpa using And.intro (sound_listExpr hsounds) hsound) (f := .func) rfl
        (admits_keywordNames rfl rfl shown)⟩
  | @tuple es isVariadic shown h ih =>
    obtain ⟨xs, hxs, hsound⟩ := exists_renderedAll ih
    refine ⟨_, render_listed (by decide) rfl hxs,
      sound_callExpr (by simpa using sound_listExpr hsound) (f := .tuple) rfl ?_⟩
    cases isVariadic
    · exact admits_keywordNames rfl rfl shown
    · exact admits_keywordNames rfl rfl shown

/-- A display name leaves an expression of the form in it, unless it is a check against a class. -/
theorem BuiltForm.named {e : TypeExpr} (h : BuiltForm e) (shown : String) :
    (∃ name, e = Registry.classCheck name) ∨ (BuiltForm (e.named shown) ∧
      ∀ name shown', e.named shown ≠ (Registry.classCheck name).named shown') := by
  cases h with
  | classCheck name => exact .inl ⟨name, rfl⟩
  | primitive name => exact .inr ⟨.primitive name, nofun⟩
  | name name => exact .inr ⟨.name name, nofun⟩
  | deferred name => exact .inr ⟨.deferred name, nofun⟩
  | delayed name => exact .inr ⟨.delayed name, nofun⟩
  | @literal value given => cases given <;> exact .inr ⟨.literal value _, nofun⟩
  | @maybe e given h => cases given <;> exact .inr ⟨.maybe h, nofun⟩
  | @list e container given h => cases given <;> exact .inr ⟨.list h, nofun⟩
  | @dict key value given hkey hvalue => cases given <;> exact .inr ⟨.dict hkey hvalue, nofun⟩
  | @interface fields given h => cases given <;> exact .inr ⟨.interface h, nofun⟩
  | @union es given h => cases given <;> exact .inr ⟨.union h, nofun⟩
  | @intersection es given h => cases given <;> exact .inr ⟨.intersection h, nofun⟩
  | @refinement e predicate given h => cases given <;> exact .inr ⟨.refinement h, nofun⟩
  | @anyFunction e given h => cases given <;> exact .inr ⟨.anyFunction h, nofun⟩
  | @function params result given hparams hresult =>
    cases given <;> exact .inr ⟨.function hparams hresult, nofun⟩
  | @tuple es isVariadic given h => cases given <;> exact .inr ⟨.tuple h, nofun⟩

/-- The entries that a planner makes, with expressions of the form in them. -/
inductive EntryForm : PlanEntry → Prop
  | define {d e label number} (h : BuiltForm e) :
      EntryForm ⟨.type d, e.named d.name, .define, label, number⟩
  | parameter {p e label number} (h : BuiltForm e) :
      EntryForm ⟨.parameter p, e, .assert, label, number⟩
  | cast {d e label number} (h : BuiltForm e) : EntryForm ⟨.cast d, e, .assert, label, number⟩
  | reify {d e kind parts label number} (h : BuiltForm e) :
      EntryForm ⟨.reify d, .reified e kind parts, .reify, label, number⟩

/-- A step of the planner makes entries of the form. -/
theorem PlanStep.entryForm {r r' : Registry} {number : Nat} {d : Declaration}
    {entries : List PlanEntry} (h : PlanStep r number d entries r') :
    ∀ entry ∈ entries, EntryForm entry := by
  intro entry hentry
  cases h with
  | define htop hdeclare hbuild hcomplete =>
    obtain rfl := List.mem_singleton.1 hentry
    exact .define (builtForm_of_build hbuild)
  | function h =>
    obtain ⟨p, -, t, e, -, hbuild, rfl⟩ : ∃ p ∈ _, ParameterEntry r number p entry := by
      obtain ⟨i, hi, rfl⟩ := List.getElem_of_mem hentry
      exact ⟨_, List.getElem_mem (h.length_eq ▸ hi), h.get (h.length_eq ▸ hi) hi⟩
    exact .parameter (builtForm_of_build hbuild)
  | cast hbuild =>
    obtain rfl := List.mem_singleton.1 hentry
    exact .cast (builtForm_of_build hbuild)
  | reify hbuild =>
    obtain rfl := List.mem_singleton.1 hentry
    obtain ⟨e, definition, he, -, rfl⟩ := build_of_reify hbuild
    exact .reify (builtForm_of_build he)

/-- A run of the planner makes entries of the form. -/
theorem PlanRun.entryForm {r r' : Registry} {number : Nat} {ds : List Declaration}
    {entries : List PlanEntry} (h : PlanRun r number ds entries r') :
    ∀ entry ∈ entries, EntryForm entry := by
  induction h with
  | nil => simp
  | cons hstep hrun ih =>
    intro entry hentry
    rcases List.mem_append.1 hentry with hentry | hentry
    · exact hstep.entryForm entry hentry
    · exact ih entry hentry

/-- A check against a class has no parameter for a display name. -/
theorem not_callsFit_named_classCheck (name shown : String) :
    ∃ x, render runtime ((Registry.classCheck name).named shown) = .ok x ∧
      ¬ x.CallsFit runtime := by
  refine ⟨_, render_irreducible runtime name (some shown), fun hfits => ?_⟩
  have hcall : FitsSignature "irreducible" [dottedExpr name] (callKeywords (some shown) []) :=
    hfits.here rfl
  obtain ⟨f, hf, -, names, hnames, hadmits⟩ := hcall
  obtain rfl : LibraryFunction.irreducible = f := Option.some.inj hf
  obtain rfl : ["name"] = names :=
    List.map_injective_iff.2 (fun _ _ => Option.some.inj) (by simpa [callKeywords] using hnames)
  exact absurd hadmits
    (by exact (by decide : LibraryFunction.irreducible.signature.admits 1 ["name"] ≠ true))

/-- The check of a value fits if the value stands for one argument and its own calls fit. -/
theorem callsFit_check_iff {value type : Expr} (label : Option String)
    (htype : type.Sound runtime) :
    (callExpr (runtimeExpr runtime "check") [value, type, nameConstant label] []).CallsFit runtime ↔
      value.CallsFit runtime ∧ value.isUnpacked = false := by
  have hlabel : (nameConstant label).Sound runtime := sound_constantExpr _
  constructor
  · intro hfits
    have hcall : FitsSignature "check" [value, type, nameConstant label] [] := hfits.here rfl
    obtain ⟨f, -, hunpacked, -⟩ := hcall
    have hmem : value ∈ (callExpr (runtimeExpr runtime "check")
        [value, type, nameConstant label] []).children := by
      simp [callExpr, Expr.children, Slots.slots, Slots.listSlots]
    exact ⟨hfits.of_mem_children hmem, hunpacked value List.mem_cons_self⟩
  · rintro ⟨hfits, hunpacked⟩
    have hvalue : value.Sound runtime := ⟨hfits, hunpacked⟩
    have hcall : (callExpr (runtimeExpr runtime "check") [value, type, nameConstant label]
        (callKeywords none [])).Sound runtime :=
      sound_callExpr (by simpa using And.intro hvalue (And.intro htype hlabel)) (f := .check) rfl
        (by exact (by decide : LibraryFunction.check.signature.admits 3 [] = true))
    exact hcall.callsFit

/-- The model of a type fits. -/
theorem callsFit_reify {type : Expr} (htype : type.Sound runtime) :
    (callExpr (runtimeExpr runtime "reify") [type] []).CallsFit runtime := by
  have hcall : (callExpr (runtimeExpr runtime "reify") [type] (callKeywords none [])).Sound
      runtime :=
    sound_callExpr (by simpa using htype) (f := .reify) rfl
      (by exact (by decide : LibraryFunction.reify.signature.admits 1 [] = true))
  exact hcall.callsFit

/-- An emitter renders expressions of the form to sound code. -/
theorem BuiltForm.exists_emitter_render {e : TypeExpr} (h : BuiltForm e) (m : Emitter) :
    ∃ x, m.render e = .ok x ∧ x.Sound m.runtime := by
  obtain ⟨x, hx, hsound⟩ : ∃ x, render m.runtime e = .ok x ∧ x.Sound m.runtime := h.exists_render
  exact ⟨x, by rw [Emitter.render, hx]; rfl, hsound⟩

/-- Every entry of a plan has code, and all its calls of the library fit in just these cases: it
does not define a type as nothing but a class, and if it is a cast, the calls in the cast expression
fit and the expression stands for one argument, where it is checked. -/
theorem emit_callsFit_iff {r r' : Registry} {ds : List Declaration} {p : Plan}
    (hplan : plan r ds = .ok (p, r')) {entry : PlanEntry} (hentry : entry ∈ p.entries)
    (m : Emitter) (value : Option Expr)
    (hvalue : ∀ d, entry.site = .cast d → value.isSome) :
    ∃ emitted, m.emit entry value = .ok emitted ∧ ∀ f, emitted.fragment = some f →
      (f.code.CallsFit m.runtime ↔ ¬ entry.RenamesClass ∧
        ∀ d v, entry.site = .cast d → value = some v →
          v.CallsFit m.runtime ∧ (m.skipAsserts = false → v.isUnpacked = false)) := by
  cases (planRun_of_plan hplan).entryForm entry hentry with
  | @define d e label number h =>
    rcases h.named d.name with ⟨name, rfl⟩ | ⟨hform, hne⟩
    · obtain ⟨x, hx, hfits⟩ : ∃ x, render m.runtime ((Registry.classCheck name).named d.name) =
          .ok x ∧ ¬ x.CallsFit m.runtime := not_callsFit_named_classCheck name d.name
      refine ⟨⟨some (.binding label x), true⟩, by simp [Emitter.emit, Emitter.render, hx]; rfl, ?_⟩
      rintro f ⟨⟩
      exact ⟨fun h => absurd h hfits, fun h => absurd ⟨rfl, name, d.name, rfl⟩ h.1⟩
    · obtain ⟨x, hx, hsound⟩ := hform.exists_emitter_render m
      refine ⟨⟨some (.binding label x), true⟩, by simp only [Emitter.emit, hx]; rfl, ?_⟩
      rintro f ⟨⟩
      refine ⟨fun _ => ⟨?_, nofun⟩, fun _ => hsound.callsFit⟩
      rintro ⟨-, name, shown, heq⟩
      exact hne name shown heq
  | @parameter p e label number h =>
    obtain ⟨x, hx, hsound⟩ := h.exists_emitter_render m
    have hkept : ¬ (⟨.parameter p, e, .assert, label, number⟩ : PlanEntry).RenamesClass :=
      fun hrenames => nomatch hrenames.1
    cases hskip : m.skipAsserts with
    | true => exact ⟨⟨none, false⟩, by simp only [Emitter.emit, hskip]; rfl, nofun⟩
    | false =>
      have hname : (Expr.name .synthetic p.name).CallsFit m.runtime := callsFit_name _ _
      refine ⟨⟨some (.statement (callExpr (runtimeExpr m.runtime "check")
        [.name .synthetic p.name, x, nameConstant label] [])), true⟩,
        by simp only [Emitter.emit, Emitter.check, hskip, hx]; rfl, ?_⟩
      rintro f ⟨⟩
      exact ⟨fun _ => ⟨hkept, nofun⟩, fun _ => (callsFit_check_iff label hsound).2 ⟨hname, rfl⟩⟩
  | @cast d e label number h =>
    obtain ⟨x, hx, hsound⟩ := h.exists_emitter_render m
    have hkept : ¬ (⟨.cast d, e, .assert, label, number⟩ : PlanEntry).RenamesClass :=
      fun hrenames => nomatch hrenames.1
    obtain ⟨v, rfl⟩ := Option.isSome_iff_exists.1 (hvalue d rfl)
    cases hskip : m.skipAsserts with
    | true =>
      refine ⟨⟨some (.expression v), false⟩, by simp only [Emitter.emit, hskip]; rfl, ?_⟩
      rintro f ⟨⟩
      refine ⟨fun hfits => ⟨hkept, ?_⟩, fun hfits => (hfits.2 d v rfl rfl).1⟩
      rintro d' v' - ⟨⟩
      exact ⟨hfits, nofun⟩
    | false =>
      refine ⟨⟨some (.expression (callExpr (runtimeExpr m.runtime "check")
        [v, x, nameConstant label] [])), true⟩,
        by simp only [Emitter.emit, Emitter.check, hskip, hx]; rfl, ?_⟩
      rintro f ⟨⟩
      refine (callsFit_check_iff label hsound).trans ⟨fun hfits => ⟨hkept, ?_⟩, fun hfits => ?_⟩
      · rintro d' v' - ⟨⟩
        exact ⟨hfits.1, fun _ => hfits.2⟩
      · obtain ⟨hcalls, hunpacked⟩ := hfits.2 d v rfl rfl
        exact ⟨hcalls, hunpacked rfl⟩
  | @reify d e kind parts label number h =>
    obtain ⟨x, hx, hsound⟩ := h.exists_emitter_render m
    have hreified : m.render (.reified e kind parts) = .ok x := by
      rw [Emitter.render, Typeward.render]
      exact hx
    refine ⟨⟨some (.binding label (callExpr (runtimeExpr m.runtime "reify") [x] [])), true⟩,
      by simp only [Emitter.emit, hreified]; rfl, ?_⟩
    rintro f ⟨⟩
    have hkept : ¬ (⟨.reify d, .reified e kind parts, .reify, label, number⟩ :
        PlanEntry).RenamesClass := fun hrenames => nomatch hrenames.1
    exact ⟨fun _ => ⟨hkept, nofun⟩, fun _ => callsFit_reify hsound⟩

/-- An alias of a class is planned and emitted with a display name that the library does not
take. -/
theorem class_alias_not_callsFit :
    ∃ p r', plan (.ofModule [⟨"Widget", .ofClass, none⟩] ["Widget", "W"])
        [.type ⟨"W", .reference "Widget" [] none, false, true, none⟩] = .ok (p, r') ∧
      ∃ entry ∈ p.entries, ∃ f, Emitter.emit ⟨"t", false⟩ entry none = .ok ⟨some f, true⟩ ∧
        ¬ f.code.CallsFit "t" := by
  refine ⟨_, _, rfl, _, List.mem_cons_self, _, rfl, fun hcalls => ?_⟩
  obtain ⟨emitted, hemit, hfits⟩ := emit_callsFit_iff
    (Eq.refl (plan (.ofModule [⟨"Widget", .ofClass, none⟩] ["Widget", "W"])
      [.type ⟨"W", .reference "Widget" [] none, false, true, none⟩]))
    List.mem_cons_self ⟨"t", false⟩ none nofun
  obtain rfl := Except.ok.inj hemit
  exact ((hfits _ rfl).1 hcalls).1 ⟨rfl, "Widget", "W", rfl⟩

end Typeward
