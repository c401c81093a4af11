import Typeward.Proofs.Actions
import Typeward.Proofs.Nodes
import Typeward.Render

/-!
# The form of rendered code

Code for types is made of names, attributes, literals, lists, dictionaries, functions without
parameters, and calls of the runtime library that are no checks. `RenderedForm` is the grammar of
this code. What holds of all rendered code is proved by induction on the form.
-/

namespace Typeward

open Slots

/-- The expressions that type expressions are rendered to. -/
inductive RenderedForm (runtime : String) : Expr → Prop
  | name (id) : RenderedForm runtime (.name .synthetic id)
  | access {base} (attr) (h : RenderedForm runtime base) :
      RenderedForm runtime (.attribute .synthetic base attr)
  | constant (value) : RenderedForm runtime (constantExpr value)
  | list {es} (h : ∀ e ∈ es, RenderedForm runtime e) : RenderedForm runtime (listExpr es)
  | properties (names : List (Option String)) {es} (h : ∀ e ∈ es, RenderedForm runtime e) :
      RenderedForm runtime (.dict .synthetic (names.map (some ∘ nameConstant)) es)
  | thunk {body} (h : RenderedForm runtime body) :
      RenderedForm runtime (.lambda .synthetic .none body)
  | call {function args keywords} (hfunction : function ≠ "check")
      (hargs : ∀ e ∈ args, RenderedForm runtime e)
      (hkeywords : ∀ k ∈ keywords, RenderedForm runtime k.value) :
      RenderedForm runtime (callExpr (runtimeExpr runtime function) args keywords)

variable {runtime : String}

/-- A chain of attributes on a name has the form. -/
theorem renderedForm_dottedExpr (name : String) : RenderedForm runtime (dottedExpr name) := by
  have hchain (parts : List String) (e : Expr) (he : RenderedForm runtime e) :
      RenderedForm runtime (parts.foldl (.attribute .synthetic · ·) e) := by
    induction parts generalizing e with
    | nil => exact he
    | cons part rest ih => exact ih _ (.access part he)
  unfold dottedExpr
  split
  · exact .name _
  · exact hchain _ _ (.name _)

/-- A late reference has the form. -/
theorem renderedForm_lateExpr {body : Expr} (h : RenderedForm runtime body) :
    RenderedForm runtime (lateExpr runtime body) := by
  have hthunk : RenderedForm runtime (.lambda .synthetic .none body) := .thunk h
  exact .call (by decide) (by simpa using hthunk) (by simp)

/-- The keys of a dictionary with names as its keys are constants. -/
theorem exists_value_of_mem_keys {names : List (Option String)} {e : Expr}
    (he : e ∈ slots (names.map (some ∘ nameConstant))) : ∃ value, e = constantExpr value := by
  induction names with
  | nil => exact absurd he List.not_mem_nil
  | cons name rest ih =>
    rcases List.mem_append.1 he with he | he
    · exact ⟨_, List.mem_singleton.1 he⟩
    · exact ih he

/-- Several renderings are answered together if each of them is answered. -/
theorem mem_of_mapM_id {ε α : Type} {xs : List (Except ε α)} {as : List α}
    (h : xs.mapM id = .ok as) : ∀ a ∈ as, .ok a ∈ xs := by
  induction xs generalizing as with
  | nil =>
    obtain rfl := Except.ok.inj h
    simp
  | cons x rest ih =>
    rw [List.mapM_cons] at h
    obtain ⟨a, ha, h⟩ := Except.bind_eq_ok.1 h
    obtain ⟨more, hmore, h⟩ := Except.bind_eq_ok.1 h
    obtain rfl := Except.ok.inj h
    intro b hb
    rcases List.mem_cons.1 hb with rfl | hb
    · exact List.mem_cons.2 (.inl ha.symm)
    · exact List.mem_cons_of_mem _ (ih hmore b hb)

/-- What holds of renderings holds of the arguments that are made of them, if it passes to lists and
to dictionaries with names as their keys. -/
theorem forall_mem_of_callArguments {P : Expr → Prop} {c : Combinator}
    {names : List (Option String)} {rendered : List (Except RenderFault Expr)}
    {options : List (String × Constant)} {args : List Expr}
    (h : callArguments c names rendered options = .ok args)
    (hrendered : ∀ e, .ok e ∈ rendered → P e) (hnone : P (constantExpr .none))
    (hlist : ∀ es, (∀ e ∈ es, P e) → P (listExpr es))
    (hdict : ∀ es, (∀ e ∈ es, P e) →
      P (.dict .synthetic (names.map (some ∘ nameConstant)) es)) : ∀ e ∈ args, P e := by
  have hall {xs : List (Except RenderFault Expr)} {es : List Expr} (hxs : xs ⊆ rendered)
      (hes : xs.mapM id = .ok es) : ∀ e ∈ es, P e :=
    fun e he => hrendered e (hxs (mem_of_mapM_id hes e he))
  unfold callArguments at h
  split at h
  · obtain ⟨es, hes, h⟩ := Except.bind_eq_ok.1 h
    obtain rfl := Except.ok.inj h
    simpa using hdict es (hall (List.Subset.refl _) hes)
  · obtain ⟨es, hes, h⟩ := Except.bind_eq_ok.1 h
    obtain rfl := Except.ok.inj h
    simpa using hlist es (hall (List.Subset.refl _) hes)
  · obtain ⟨es, hes, h⟩ := Except.bind_eq_ok.1 h
    obtain rfl := Except.ok.inj h
    simpa using hlist es (hall (List.Subset.refl _) hes)
  · obtain ⟨es, hes, h⟩ := Except.bind_eq_ok.1 h
    obtain rfl := Except.ok.inj h
    simpa using hlist es (hall (List.Subset.refl _) hes)
  · split at h
    · simp at h
    · rename_i last hlast
      obtain ⟨result, hresult, h⟩ := Except.bind_eq_ok.1 h
      have hresult' : P result := hrendered result (hresult ▸ List.mem_of_getLast? hlast)
      split at h
      · obtain rfl := Except.ok.inj h
        simpa using And.intro hnone hresult'
      · obtain ⟨es, hes, h⟩ := Except.bind_eq_ok.1 h
        obtain rfl := Except.ok.inj h
        have hparams : P (listExpr es) := hlist es (hall (List.dropLast_subset _) hes)
        simpa using And.intro hparams hresult'
  · exact hall (List.Subset.refl _) h

/-- Arguments that are made of renderings of the form have it. -/
theorem renderedForm_of_callArguments {c : Combinator} {names : List (Option String)}
    {rendered : List (Except RenderFault Expr)} {options : List (String × Constant)}
    {args : List Expr} (h : callArguments c names rendered options = .ok args)
    (hrendered : ∀ e, .ok e ∈ rendered → RenderedForm runtime e) :
    ∀ e ∈ args, RenderedForm runtime e :=
  forall_mem_of_callArguments h hrendered (.constant .none) (fun _ => .list)
    fun _ => .properties names

/-- The keyword arguments of rendered calls have the form. -/
theorem renderedForm_of_mem_callKeywords {shown : Option String}
    {options : List (String × Constant)} :
    ∀ k ∈ callKeywords shown options, RenderedForm runtime k.value := by
  intro k hk
  rcases List.mem_append.1 hk with hk | hk
  · obtain ⟨option, -, rfl⟩ := List.mem_map.1 hk
    exact .constant _
  · obtain ⟨name, -, rfl⟩ := Option.map_eq_some_iff.1 (Option.mem_toList.1 hk)
    exact .constant _

/-- The function for a combinator is no check. -/
theorem Combinator.function?_ne_check {c : Combinator} {function : String}
    (h : c.function? = some function) : function ≠ "check" := by
  rintro rfl
  cases c <;> simp [function?] at h

mutual

/-- Rendered code has the form. -/
theorem renderedForm_of_render : {e : TypeExpr} → {x : Expr} → render runtime e = .ok x →
    RenderedForm runtime x
  | .primitive name, x, h => by
    obtain rfl := Except.ok.inj h
    exact .access name (.name runtime)
  | .name name, x, h | .predicate name, x, h => by
    obtain rfl := Except.ok.inj h
    exact renderedForm_dottedExpr name
  | .deferred name, x, h => by
    obtain rfl := Except.ok.inj h
    exact renderedForm_lateExpr (renderedForm_dottedExpr name)
  | .delayed e, x, h => by
    rw [render] at h
    obtain ⟨body, hbody, h⟩ := Except.bind_eq_ok.1 h
    obtain rfl := Except.ok.inj h
    exact renderedForm_lateExpr (renderedForm_of_render hbody)
  | .constant value, x, h => by
    obtain rfl := Except.ok.inj h
    exact .constant value
  | .field name e, x, h => by
    rw [render] at h
    exact renderedForm_of_render h
  | .reified e kind parts, x, h => by
    rw [render] at h
    exact renderedForm_of_render h
  | .call c arguments shown options, x, h => by
    rw [render] at h
    obtain ⟨names, -, h⟩ := Except.bind_eq_ok.1 h
    obtain ⟨args, hargs, h⟩ := Except.bind_eq_ok.1 h
    split at h
    · simp at h
    · rename_i function hfunction
      obtain rfl := Except.ok.inj h
      have hparts : ∀ e ∈ args, RenderedForm runtime e :=
        renderedForm_of_callArguments hargs fun e he => renderedForm_of_mem_renderAll he
      exact .call (Combinator.function?_ne_check hfunction) hparts renderedForm_of_mem_callKeywords

/-- Several pieces of rendered code have the form. -/
theorem renderedForm_of_mem_renderAll : {es : List TypeExpr} → {x : Expr} →
    .ok x ∈ renderAll runtime es → RenderedForm runtime x
  | [], x, h => by simp [renderAll] at h
  | e :: rest, x, h => by
    rw [renderAll] at h
    rcases List.mem_cons.1 h with h | h
    · exact renderedForm_of_render h.symm
    · exact renderedForm_of_mem_renderAll h

end

/-- An expression that is a call calls a function of the runtime library that is no check, and
carries no number. -/
def Expr.CallsLibrary (runtime : String) : Expr → Prop
  | .call _ func _ _ decl =>
    decl = none ∧ ∃ function, func = runtimeExpr runtime function ∧ function ≠ "check"
  | _ => True

/-- All calls in rendered code are calls of the runtime library that are no checks. -/
theorem RenderedForm.callsLibrary {e : Expr} (h : RenderedForm runtime e) :
    e.Everywhere (·.CallsLibrary runtime) := by
  induction h with
  | name id => exact .node trivial fun c hc => absurd hc List.not_mem_nil
  | access attr h ih =>
    refine .node trivial fun c hc => ?_
    rwa [List.mem_singleton.1 hc]
  | constant value => exact .node trivial fun c hc => absurd hc List.not_mem_nil
  | list h ih => exact .node trivial fun c hc => ih c (mem_slots_list.1 hc)
  | properties names h ih =>
    refine .node trivial fun c hc => ?_
    rcases BoundedSlots.mem_pair.1 hc with hc | hc
    · obtain ⟨value, rfl⟩ := exists_value_of_mem_keys hc
      exact .node trivial fun c hc => absurd hc List.not_mem_nil
    · exact ih c (mem_slots_list.1 hc)
  | thunk h ih =>
    refine .node trivial fun c hc => ?_
    rwa [List.mem_singleton.1 hc]
  | @call function args keywords hfunction hargs hkeywords ihargs ihkeywords =>
    refine .node ⟨rfl, function, rfl, hfunction⟩ fun c hc => ?_
    rcases BoundedSlots.mem_pair.1 hc with hc | hc
    · rw [List.mem_singleton.1 hc]
      refine .node trivial fun c hc => ?_
      rw [List.mem_singleton.1 hc]
      exact .node trivial fun c hc => absurd hc List.not_mem_nil
    · rcases BoundedSlots.mem_pair.1 hc with hc | hc
      · exact ihargs c (mem_slots_list.1 hc)
      · obtain ⟨k, hk, rfl⟩ := mem_slots_keywords.1 hc
        exact ihkeywords k hk

end Typeward
