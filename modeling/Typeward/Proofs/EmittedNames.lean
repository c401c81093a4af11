import Typeward.Emission
import Typeward.Proofs.RenderedForms

/-!
# Names in emitted code

The code for the entries of a plan reads names and binds none, but for the bindings of definitions
and of inspected types.
-/

namespace Typeward

open Slots

/-- An expression binds no name while it is evaluated. -/
def Expr.BindsNothing (e : Expr) : Prop := ∀ x, ¬ e.Binds x

/-- A call binds what its function and its arguments bind. -/
theorem Expr.binds_call_iff {pos : Pos} {func : Expr} {args : List Expr}
    {keywords : List (Keyword Expr)} {decl : Option Nat} {x : String} :
    (Expr.call pos func args keywords decl).Binds x ↔
      func.Binds x ∨ (∃ e ∈ args, e.Binds x) ∨ ∃ k ∈ keywords, k.value.Binds x := by
  have hparts (e : Expr) : e ∈ (Expr.call pos func args keywords decl).children ↔
      e = func ∨ e ∈ args ∨ ∃ k ∈ keywords, e = k.value := by
    have hchildren : (Expr.call pos func args keywords decl).children =
        [func] ++ (slots args ++ slots keywords) := rfl
    rw [hchildren, List.mem_append, List.mem_append, List.mem_singleton, mem_slots_list,
      mem_slots_keywords]
  constructor
  · intro hx
    cases hx with
    | part hc hx =>
      rcases (hparts _).1 hc with rfl | hc | ⟨k, hk, rfl⟩
      · exact .inl hx
      · exact .inr (.inl ⟨_, hc, hx⟩)
      · exact .inr (.inr ⟨k, hk, hx⟩)
  · rintro (hx | ⟨e, he, hx⟩ | ⟨k, hk, hx⟩)
    · exact .part ((hparts _).2 (.inl rfl)) hx
    · exact .part ((hparts _).2 (.inr (.inl he))) hx
    · exact .part ((hparts _).2 (.inr (.inr ⟨k, hk, rfl⟩))) hx

/-- A call binds nothing if its function and its arguments bind nothing. -/
theorem bindsNothing_callExpr {func : Expr} {args : List Expr} {keywords : List (Keyword Expr)}
    (hfunc : func.BindsNothing) (hargs : ∀ e ∈ args, e.BindsNothing)
    (hkeywords : ∀ k ∈ keywords, k.value.BindsNothing) :
    (callExpr func args keywords).BindsNothing := by
  intro x hx
  rcases Expr.binds_call_iff.1 hx with hx | ⟨e, he, hx⟩ | ⟨k, hk, hx⟩
  · exact hfunc x hx
  · exact hargs e he x hx
  · exact hkeywords k hk x hx

/-- A constant binds nothing. -/
theorem bindsNothing_constantExpr (value : Constant) : (constantExpr value).BindsNothing := by
  intro x hx
  cases hx with
  | part hc hx => exact absurd hc List.not_mem_nil

/-- A name that is read binds nothing. -/
theorem bindsNothing_name (pos : Pos) (id : String) : (Expr.name pos id).BindsNothing := by
  intro x hx
  cases hx with
  | part hc hx => exact absurd hc List.not_mem_nil

/-- An attribute binds what its base binds. -/
theorem bindsNothing_attribute {base : Expr} (pos : Pos) (attr : String)
    (h : base.BindsNothing) : (Expr.attribute pos base attr).BindsNothing := by
  intro x hx
  cases hx with
  | part hc hx =>
    rw [List.mem_singleton.1 hc] at hx
    exact h x hx

/-- An export of the runtime library binds nothing. -/
theorem bindsNothing_runtimeExpr (runtime name : String) :
    (runtimeExpr runtime name).BindsNothing :=
  bindsNothing_attribute _ name (bindsNothing_name _ runtime)

/-- A list binds what its elements bind. -/
theorem bindsNothing_listExpr {es : List Expr} (h : ∀ e ∈ es, e.BindsNothing) :
    (listExpr es).BindsNothing := by
  intro x hx
  cases hx with
  | part hc hx => exact h _ (mem_slots_list.1 hc) x hx

/-- A dictionary with names as its keys binds what its values bind. -/
theorem bindsNothing_properties {names : List (Option String)} {es : List Expr}
    (h : ∀ e ∈ es, e.BindsNothing) :
    (Expr.dict .synthetic (names.map (some ∘ nameConstant)) es).BindsNothing := by
  intro x hx
  cases hx with
  | part hc hx =>
    rcases BoundedSlots.mem_pair.1 hc with hc | hc
    · obtain ⟨value, rfl⟩ := exists_value_of_mem_keys hc
      exact bindsNothing_constantExpr value x hx
    · exact h _ (mem_slots_list.1 hc) x hx

/-- A function without parameters binds what its body binds. -/
theorem bindsNothing_thunk {body : Expr} (h : body.BindsNothing) :
    (Expr.lambda .synthetic .none body).BindsNothing := by
  intro x hx
  cases hx with
  | parameter hx => exact absurd hx List.not_mem_nil
  | part hc hx =>
    rw [List.mem_singleton.1 hc] at hx
    exact h x hx

/-- Rendered code binds nothing. -/
theorem RenderedForm.bindsNothing {runtime : String} {e : Expr} (h : RenderedForm runtime e) :
    e.BindsNothing := by
  induction h with
  | name id => exact bindsNothing_name _ id
  | access attr h ih => exact bindsNothing_attribute _ attr ih
  | constant value => exact bindsNothing_constantExpr value
  | list h ih => exact bindsNothing_listExpr ih
  | properties names h ih => exact bindsNothing_properties ih
  | thunk h ih => exact bindsNothing_thunk ih
  | call hfunction hargs hkeywords ihargs ihkeywords =>
    exact bindsNothing_callExpr (bindsNothing_runtimeExpr _ _) ihargs ihkeywords

/-- The check of a value. -/
def checkExpr (runtime : String) (value type : Expr) (label : Option String) : Expr :=
  callExpr (runtimeExpr runtime "check") [value, type, nameConstant label] []

/-- A check of a value binds what the value binds. -/
theorem binds_of_checkExpr {runtime x : String} {value type : Expr} {label : Option String}
    (htype : type.BindsNothing) (hx : (checkExpr runtime value type label).Binds x) :
    value.Binds x := by
  have hlabel : (nameConstant label).BindsNothing := bindsNothing_constantExpr _
  rcases Expr.binds_call_iff.1 hx with hfunc | ⟨e, he, harg⟩ | ⟨k, hk, -⟩
  · exact absurd hfunc (bindsNothing_runtimeExpr _ _ x)
  · simp only [List.mem_cons, List.not_mem_nil, or_false] at he
    rcases he with rfl | rfl | rfl
    · exact harg
    · exact absurd harg (htype x)
    · exact absurd harg (hlabel x)
  · simp at hk

/-- What an emitter renders has the form of rendered code. -/
theorem Emitter.renderedForm {m : Emitter} {e : TypeExpr} {code : Expr}
    (h : m.render e = .ok code) : RenderedForm m.runtime code :=
  renderedForm_of_render (Except.mapError_eq_ok.1 h)

/-- The code for an entry: the value of a cast, checked or not, the check of a parameter, or a
binding of the label of the entry. -/
inductive EmittedCode (m : Emitter) (entry : PlanEntry) : Option Expr → Fragment → Prop
  | value {v} : EmittedCode m entry (some v) (.expression v)
  | cast {v type} (htype : type.BindsNothing) : EmittedCode m entry (some v)
      (.expression (checkExpr m.runtime v type entry.label))
  | statement {v e} (h : e.BindsNothing) : EmittedCode m entry v (.statement e)
  | binding {v label e} (hlabel : entry.label = label) (hmode : entry.mode ≠ .assert)
      (h : e.BindsNothing) : EmittedCode m entry v (.binding label e)

/-- An emitter answers code for the entry. -/
theorem emittedCode_of_emit {m : Emitter} {entry : PlanEntry} {v : Option Expr} {emitted : Emitted}
    {f : Fragment} (h : m.emit entry v = .ok emitted) (hf : emitted.fragment = some f) :
    EmittedCode m entry v f := by
  have hrender {e : TypeExpr} {x : Expr} (hx : m.render e = .ok x) : x.BindsNothing :=
    (Emitter.renderedForm hx).bindsNothing
  unfold Emitter.emit at h
  split at h
  · split at h
    · split at h
      · obtain rfl := Except.ok.inj h
        obtain rfl := Option.some.inj hf
        exact .value
      · simp at h
      · obtain rfl := Except.ok.inj h
        simp at hf
    · split at h
      · obtain ⟨check, hcheck, h⟩ := Except.bind_eq_ok.1 h
        obtain ⟨type, htype, hcheck⟩ := Except.bind_eq_ok.1 hcheck
        obtain rfl := Except.ok.inj hcheck
        obtain rfl := Except.ok.inj h
        obtain rfl := Option.some.inj hf
        refine .statement fun x hx => ?_
        exact bindsNothing_name _ _ x (binds_of_checkExpr (hrender htype) hx)
      · split at h
        · obtain ⟨check, hcheck, h⟩ := Except.bind_eq_ok.1 h
          obtain ⟨type, htype, hcheck⟩ := Except.bind_eq_ok.1 hcheck
          obtain rfl := Except.ok.inj hcheck
          obtain rfl := Except.ok.inj h
          obtain rfl := Option.some.inj hf
          exact .cast (hrender htype)
        · simp at h
      all_goals simp at h
  · rename_i hmode
    obtain ⟨x, hx, h⟩ := Except.bind_eq_ok.1 h
    obtain rfl := Except.ok.inj h
    obtain rfl := Option.some.inj hf
    exact .binding rfl (by simp [hmode]) (hrender hx)
  · rename_i hmode
    obtain ⟨x, hx, h⟩ := Except.bind_eq_ok.1 h
    obtain rfl := Except.ok.inj h
    obtain rfl := Option.some.inj hf
    have hx' : x.BindsNothing := hrender hx
    refine .binding rfl (by simp [hmode]) ?_
    exact bindsNothing_callExpr (bindsNothing_runtimeExpr _ _) (by simpa using hx') (by simp)

end Typeward
