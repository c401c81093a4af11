import Mathlib.Data.List.Forall2
import Typeward.Proofs.BuiltForms
import Typeward.Render

/-!
# The rendering of calls

One equation for each way in which calls of combinators pass their parts on: by position, as one
list, as a dictionary, or as the parameters and the result of a function.
-/

namespace Typeward

attribute [local simp] render callArguments

variable {runtime : String}

/-- Expressions and their renderings. -/
abbrev RenderedAll (runtime : String) : List TypeExpr → List Expr → Prop :=
  List.Forall₂ fun e x => render runtime e = .ok x

/-- Several expressions are rendered one by one. -/
theorem renderAll_eq_map (es : List TypeExpr) : renderAll runtime es = es.map (render runtime) := by
  induction es with
  | nil => rfl
  | cons e rest ih => rw [renderAll, ih, List.map_cons]

/-- If every expression has a rendering, so have all together. -/
theorem RenderedAll.mapM_renderAll {es : List TypeExpr} {xs : List Expr}
    (h : RenderedAll runtime es xs) : (renderAll runtime es).mapM id = .ok xs := by
  induction h with
  | nil => rfl
  | cons h hrest ih =>
    rw [renderAll, List.mapM_cons, ih, h]
    rfl

/-- If every expression has a rendering, there is a list of them. -/
theorem exists_renderedAll {P : Expr → Prop} {es : List TypeExpr}
    (h : ∀ e ∈ es, ∃ x, render runtime e = .ok x ∧ P x) :
    ∃ xs, RenderedAll runtime es xs ∧ ∀ x ∈ xs, P x := by
  induction es with
  | nil => exact ⟨[], .nil, by simp⟩
  | cons e rest ih =>
    obtain ⟨x, hx, hP⟩ := h e List.mem_cons_self
    obtain ⟨xs, hxs, hPs⟩ := ih fun e he => h e (List.mem_cons_of_mem _ he)
    exact ⟨x :: xs, .cons hx hxs, List.forall_mem_cons.2 ⟨hP, hPs⟩⟩

/-- A call whose parts are passed on by position. -/
theorem render_positional {c : Combinator} {es : List TypeExpr} {xs : List Expr}
    {shown : Option String} {options : List (String × Constant)} {function : String}
    (hc : c ∉ [.interface, .union, .intersection, .tuple, .func])
    (hfunction : c.function? = some function) (h : RenderedAll runtime es xs) :
    render runtime (.call c es shown options) =
      .ok (callExpr (runtimeExpr runtime function) xs (callKeywords shown options)) := by
  simp only [List.mem_cons, List.not_mem_nil, or_false, not_or] at hc
  obtain ⟨hinterface, hunion, hintersection, htuple, hfunc⟩ := hc
  have harguments : callArguments c [] (renderAll runtime es) options = .ok xs := by
    rw [← h.mapM_renderAll]
    cases c <;> simp_all [callArguments]
  rw [render, propertyNames, if_neg hinterface, hfunction]
  change (callArguments c [] (renderAll runtime es) options >>= _) = _
  rw [harguments]
  rfl

/-- A check against a class, with a display name or without one. -/
theorem render_irreducible (runtime name : String) (shown : Option String) :
    render runtime (.call .irreducible [.name name] shown []) =
      .ok (callExpr (runtimeExpr runtime "irreducible") [dottedExpr name]
        (callKeywords shown [])) :=
  render_positional (by simp) rfl (.cons rfl .nil)

/-- A call whose parts are passed on as one list. -/
theorem render_listed {c : Combinator} {es : List TypeExpr} {xs : List Expr}
    {shown : Option String} {options : List (String × Constant)} {function : String}
    (hc : c ∈ [.union, .intersection, .tuple]) (hfunction : c.function? = some function)
    (h : RenderedAll runtime es xs) :
    render runtime (.call c es shown options) =
      .ok (callExpr (runtimeExpr runtime function) [listExpr xs] (callKeywords shown options)) := by
  have hlist : callArguments c [] (renderAll runtime es) options = .ok [listExpr xs] := by
    have hmap := h.mapM_renderAll
    simp only [List.mem_cons, List.not_mem_nil, or_false] at hc
    rcases hc with rfl | rfl | rfl <;> simp only [callArguments, hmap] <;> rfl
  have hinterface : c ≠ .interface := by rintro rfl; simp at hc
  rw [render, propertyNames, if_neg hinterface, hfunction]
  change (callArguments c [] (renderAll runtime es) options >>= _) = _
  rw [hlist]
  rfl

/-- The keys of a rendered interface. -/
def propertyKeys (fields : List (String × TypeExpr)) : List (Option Expr) :=
  fields.map fun f => some (nameConstant (some f.1))

/-- An interface whose properties are passed on as a dictionary. -/
theorem render_interface {fields : List (String × TypeExpr)} {xs : List Expr}
    {shown : Option String} (h : RenderedAll runtime (fields.map (·.2)) xs) :
    render runtime (.call .interface (fields.map fun f => .field f.1 f.2) shown []) =
      .ok (callExpr (runtimeExpr runtime "interface")
        [.dict .synthetic (propertyKeys fields) xs] (callKeywords shown [])) := by
  have hnames : propertyNames .interface (fields.map fun f => .field f.1 f.2) =
      .ok (fields.map fun f => some f.1) := by
    simp only [propertyNames, if_true]
    clear h
    induction fields with
    | nil => rfl
    | cons f rest ih =>
      rw [List.map_cons, List.mapM_cons, ih]
      rfl
  have hparts : (renderAll runtime (fields.map fun f => .field f.1 f.2)).mapM id = .ok xs := by
    rw [← h.mapM_renderAll, renderAll_eq_map, renderAll_eq_map, List.map_map, List.map_map]
    rfl
  rw [render, hnames]
  change (callArguments .interface _ _ _ >>= _) = _
  simp only [callArguments, hparts]
  simp only [bind, Except.bind, pure, Except.pure, Combinator.function?, List.map_map,
    propertyKeys]
  rfl

/-- A function type with given parameters. -/
theorem render_function {params : List TypeExpr} {result : TypeExpr} {xs : List Expr} {x : Expr}
    {shown : Option String} (hparams : RenderedAll runtime params xs)
    (hresult : render runtime result = .ok x) :
    render runtime (.call .func (params ++ [result]) shown []) =
      .ok (callExpr (runtimeExpr runtime "func") [listExpr xs, x] (callKeywords shown [])) := by
  have harguments : callArguments .func [] (renderAll runtime (params ++ [result])) [] =
      .ok [listExpr xs, x] := by
    have hmap := hparams.mapM_renderAll
    rw [renderAll_eq_map] at hmap
    simp only [callArguments, renderAll_eq_map, List.map_append, List.map_cons, List.map_nil,
      List.getLast?_append, List.getLast?_singleton, Option.some_or, hresult,
      List.dropLast_concat, hmap]
    rfl
  rw [render]
  change (callArguments .func [] _ [] >>= _) = _
  rw [harguments]
  rfl

/-- A function type with any parameters. -/
theorem render_anyFunction {result : TypeExpr} {x : Expr} {shown : Option String}
    (hresult : render runtime result = .ok x) :
    render runtime (.call .func [result] shown [("any_params", .bool true)]) =
      .ok (callExpr (runtimeExpr runtime "func") [constantExpr .none, x]
        (callKeywords shown [])) := by
  rw [render]
  simp only [renderAll, hresult]
  rfl

end Typeward
