import Typeward.Proofs.LibraryCalls
import Typeward.Proofs.RefinementRequests

/-!
# Deferred references

A reference that cannot be followed yet is deferred: in a type expression it is a late name or a
delayed check, in code a call of the library with a function that gives the reference when it is
needed. A type is walked through three times, as a type, as an expression and as code, and each time
its deferred references are met in the same order. So they are never expanded, lost or duplicated.
-/

namespace Typeward

open Registry

namespace StaticType

/-- The name that a type is, if it is a reference. -/
def ownReference : StaticType → List String
  | .reference name _ _ => [name]
  | _ => []

/-- The names that stand in a type as references, in order, outside of erased arguments. -/
def references (t : StaticType) : List String :=
  t.ownReference ++ t.parts.attach.flatMap fun p => p.1.references
termination_by sizeOf t
decreasing_by exact sizeOf_lt_of_mem_parts p.2

/-- The references in a type are the one that it is and those in its parts. -/
theorem references_eq (t : StaticType) :
    t.references = t.ownReference ++ t.parts.flatMap references := by
  rw [references, List.flatMap_subtype fun _ _ => rfl, List.unattach_attach]

end StaticType

namespace TypeExpr

mutual

/-- The late references in an expression, in order. Of an inspected type counts the expression, not
what is shown of it. -/
def lateParts : TypeExpr → List TypeExpr
  | .deferred id => [.deferred id]
  | .delayed e => [.delayed e]
  | .field _ e | .reified e _ _ => e.lateParts
  | .call _ arguments _ _ => latePartsOf arguments
  | .primitive _ | .name _ | .predicate _ | .constant _ => []

/-- The late references in several expressions, in order. -/
def latePartsOf : List TypeExpr → List TypeExpr
  | [] => []
  | e :: rest => e.lateParts ++ latePartsOf rest

end

mutual

/-- The late references are those that are counted. -/
theorem length_lateParts : (e : TypeExpr) → e.lateParts.length = e.deferredCount
  | .deferred _ | .delayed _ | .primitive _ | .name _ | .predicate _ | .constant _ => rfl
  | .field _ e | .reified e _ _ => length_lateParts e
  | .call _ arguments _ _ => length_latePartsOf arguments

/-- The late references of several expressions are those that are counted. -/
theorem length_latePartsOf : (es : List TypeExpr) → (latePartsOf es).length = deferredCounts es
  | [] => rfl
  | e :: rest =>
    List.length_append.trans
      (congrArg₂ (· + ·) (length_lateParts e) (length_latePartsOf rest))

end

/-- The late references of several expressions are those of each of them. -/
theorem latePartsOf_eq (es : List TypeExpr) : latePartsOf es = es.flatMap lateParts := by
  induction es with
  | nil => rfl
  | cons e rest ih => exact congrArg (e.lateParts ++ ·) ih

/-- A call has the late references of its arguments. -/
theorem lateParts_call (c : Combinator) (arguments : List TypeExpr) (shown : Option String)
    (options : List (String × Constant)) :
    (call c arguments shown options).lateParts = arguments.flatMap lateParts :=
  latePartsOf_eq arguments

end TypeExpr

/-- The late references are gathered from an expression. -/
theorem gathers_lateParts : TypeExpr.Gathers TypeExpr.lateParts where
  primitive _ := rfl
  constant _ := rfl
  field _ _ := rfl
  call _ := TypeExpr.lateParts_call _

namespace Registry

/-- References to a name are deferred: it is that of a recursive declaration which is not finished,
or no declared name, and what is bound to its part before the first dot is bound below the place
that the code runs at. -/
def Defers (r : Registry) (name : String) : Prop :=
  (∃ entry ∈ r.get? name, entry.isRecursive = true ∧ entry.isComplete = false) ∨
    r.get? name = none ∧ ∃ b ∈ r.binding? (rootOf name), ∃ site ∈ r.site,
      ∃ place ∈ b.location, place.isBelow site = true

instance (r : Registry) : DecidablePred r.Defers := fun name =>
  have : Decidable (r.get? name = none) := decidable_of_iff _ Option.isNone_iff_eq_none
  inferInstanceAs (Decidable (_ ∨ _))

variable {r : Registry} {name : String}

/-- What is declared is deferred while it is recursive and not finished. -/
theorem defers_iff_of_declared {entry : Entry} (h : r.get? name = some entry) :
    r.Defers name ↔ entry.isRecursive = true ∧ entry.isComplete = false := by
  simp [Defers, h]

/-- What is not declared is deferred if it is bound later. -/
theorem defers_iff_of_undeclared (h : r.get? name = none) :
    r.Defers name ↔ ∃ b ∈ r.binding? (rootOf name), r.isBoundLater b = true := by
  have hlater (b : Binding) : r.isBoundLater b = true ↔
      ∃ site ∈ r.site, ∃ place ∈ b.location, place.isBelow site = true := by
    unfold isBoundLater
    cases r.site <;> cases b.location <;> simp
  simp [Defers, h, hlater]

/-- The expression for a deferred reference. -/
def deferredExpr (r : Registry) (name : String) : TypeExpr :=
  if r.contains name then .deferred name else .delayed (classCheck name)

/-- The expressions for the deferred references in a type, in order. -/
def deferredExprs (r : Registry) (t : StaticType) : List TypeExpr :=
  (t.references.filter (r.Defers ·)).map r.deferredExpr

/-- The deferred references in a type are the one that it is and those in its parts. -/
theorem deferredExprs_eq (r : Registry) (t : StaticType) :
    r.deferredExprs t = (t.ownReference.filter (r.Defers ·)).map r.deferredExpr ++
      t.parts.flatMap r.deferredExprs := by
  unfold deferredExprs
  rw [StaticType.references_eq, List.filter_append, List.map_append, List.filter_flatMap,
    List.map_flatMap]

/-- A type that is no reference has the deferred references of its parts. -/
theorem deferredExprs_of_parts {t : StaticType} (h : t.ownReference = []) :
    r.deferredExprs t = t.parts.flatMap r.deferredExprs := by
  rw [deferredExprs_eq, h]
  rfl

/-- A reference is built to a late one just when it is deferred. -/
theorem lateParts_of_lookup {location : Option Location} {e : TypeExpr}
    (h : r.lookup name location = .ok e) :
    e.lateParts = ([name].filter (r.Defers ·)).map r.deferredExpr := by
  have hdeferred (hdefers : r.Defers name) :
      ([name].filter (r.Defers ·)).map r.deferredExpr = [r.deferredExpr name] := by
    simp [hdefers]
  have hplain (hdefers : ¬ r.Defers name) :
      ([name].filter (r.Defers ·)).map r.deferredExpr = [] := by
    simp [hdefers]
  rcases lookup_cases h with ⟨entry, hget, hentry⟩ | ⟨hget, hbound⟩
  · have hdefers := defers_iff_of_declared hget
    rcases hentry with ⟨hcomplete, rfl⟩ | ⟨hcomplete, hrecursive, rfl⟩
    · rw [hplain (by simp [hdefers, hcomplete])]
      rfl
    · rw [hdeferred (hdefers.2 ⟨hrecursive, hcomplete⟩), deferredExpr,
        if_pos (by simp [contains, hget])]
      rfl
  · have hdefers := defers_iff_of_undeclared hget
    rcases hbound with ⟨b, hb, ⟨hlater, rfl⟩ | ⟨hlater, rfl⟩⟩ | ⟨hb, -, rfl⟩
    · rw [hdeferred (hdefers.2 ⟨b, hb, hlater⟩), deferredExpr,
        if_neg (by simp [contains, hget])]
      rfl
    · rw [hplain (by simp [hdefers, hb, hlater])]
      rfl
    · rw [hplain (by simp [hdefers, hb])]
      rfl

end Registry

section Building

variable {r : Registry} {t : StaticType}

/-- What is gathered from the shapes of several things is gathered from the things. -/
theorem flatMap_eq_of_zip {α β γ : Type} {f : β → List γ} {g : α → List γ} {xs : List α}
    {ys : List β} (hlength : xs.length = ys.length) (h : ∀ p ∈ xs.zip ys, f p.2 = g p.1) :
    ys.flatMap f = xs.flatMap g := by
  induction xs generalizing ys with
  | nil =>
    obtain rfl := List.length_eq_zero_iff.1 hlength.symm
    rfl
  | cons x rest ih =>
    obtain ⟨y, ys, rfl⟩ := List.exists_cons_of_length_eq_add_one hlength.symm
    simp only [List.zip_cons_cons, List.forall_mem_cons] at h
    rw [List.flatMap_cons, List.flatMap_cons, h.1, ih (by simpa using hlength) h.2]

/-- The late references in the shape of a type are the deferred ones in the type. -/
theorem Shaped.lateParts_eq {s : Shape} (h : Shaped r t s) :
    s.toExpr.lateParts = r.deferredExprs t := by
  induction h with
  | primitive | literal | generic =>
    rw [deferredExprs_of_parts rfl]
    rfl
  | reference h =>
    rw [deferredExprs_eq]
    exact (lateParts_of_lookup h).trans (List.append_nil _).symm
  | nullable h ih =>
    rw [deferredExprs_of_parts rfl, Shape.toExpr, gathers_lateParts.toExpr,
      List.filterMap_append, List.flatMap_append, gathers_lateParts.toAlternatives h, ih]
    simp [StaticType.parts]
  | array h ih =>
    rw [deferredExprs_of_parts rfl, Shape.toExpr, TypeExpr.lateParts_call]
    simp [StaticType.parts, ih]
  | dict hkey hvalue ihkey ihvalue =>
    rw [deferredExprs_of_parts rfl, Shape.toExpr, TypeExpr.combine, TypeExpr.lateParts_call]
    simp [StaticType.parts, ihkey, ihvalue]
  | record hlength h ih =>
    rw [deferredExprs_of_parts rfl, Shape.toExpr, TypeExpr.lateParts_call,
      gathers_lateParts.zipWith_propertyOf hlength,
      flatMap_eq_of_zip (g := fun f => r.deferredExprs f.type) hlength ih]
    simp [StaticType.parts, List.flatMap_map]
  | union hlength h ih =>
    rw [deferredExprs_of_parts rfl, Shape.toExpr, gathers_lateParts.toExpr,
      gathers_lateParts.flatMap_toAlternatives ⟨hlength, h⟩, flatMap_eq_of_zip hlength ih]
    rfl
  | intersection hplain hlength h ih =>
    rw [deferredExprs_of_parts rfl, Shape.toExpr, TypeExpr.combine, TypeExpr.lateParts_call,
      List.flatMap_map, flatMap_eq_of_zip hlength ih]
    rfl
  | @markedLeft predicate place base location s h ih
  | @markedRight predicate place base location s h ih =>
    have hmarker : r.deferredExprs (.marker predicate place) = [] := deferredExprs_of_parts rfl
    have hpredicate : (TypeExpr.predicate predicate).lateParts = [] := rfl
    rw [deferredExprs_of_parts rfl, Shape.toExpr, TypeExpr.combine, TypeExpr.lateParts_call]
    simp [StaticType.parts, ih, hmarker, hpredicate]
  | anyFunction h ih =>
    rw [deferredExprs_of_parts rfl, Shape.toExpr, TypeExpr.lateParts_call]
    simp [StaticType.parts, ih]
  | function hresult hlength h ihresult ih =>
    rw [deferredExprs_of_parts rfl, Shape.toExpr, TypeExpr.combine, TypeExpr.lateParts_call,
      List.flatMap_append, List.flatMap_map, flatMap_eq_of_zip hlength ih]
    simp [StaticType.parts, ihresult]
  | tuple hlength h ih =>
    rw [deferredExprs_of_parts rfl, Shape.toExpr, TypeExpr.lateParts_call, List.flatMap_map,
      flatMap_eq_of_zip hlength ih]
    rfl

/-- The late references in what is built for a type are the deferred ones in the type. -/
theorem lateParts_of_build {e : TypeExpr} (h : (build r t).outcome = .ok e) :
    e.lateParts = r.deferredExprs t := by
  obtain ⟨s, hs, rfl⟩ := shaped_of_build h
  exact hs.lateParts_eq

end Building

namespace Expr

/-- An expression and everything in it, from the outside to the inside. -/
def nodes (e : Expr) : List Expr := e :: e.collectChildren fun c _ => c.nodes
termination_by sizeOf e

/-- The nodes of an expression are itself and those of its parts. -/
theorem nodes_eq (e : Expr) : e.nodes = e :: e.children.flatMap nodes := by
  rw [nodes, collectChildren, List.flatMap_def, List.flatMap_def, List.attach_map_val]

/-- Whether an expression calls the function of the library for late references. -/
def isLateCall (runtime : String) : Expr → Bool
  | .call _ (.attribute _ (.name _ id) function) _ _ _ => id == runtime && function == "lazy"
  | _ => false

/-- The calls of the function for late references in an expression, in order. -/
def lateCalls (runtime : String) (e : Expr) : List Expr :=
  e.nodes.filter (·.isLateCall runtime)

variable {runtime : String}

/-- The calls for late references in an expression are itself and those in its parts. -/
theorem lateCalls_eq (e : Expr) : e.lateCalls runtime =
    [e].filter (·.isLateCall runtime) ++ e.children.flatMap (lateCalls runtime) := by
  unfold lateCalls
  rw [nodes_eq, ← List.singleton_append, List.filter_append, List.filter_flatMap]

/-- What is no call for a late reference has those of its parts. -/
theorem lateCalls_of_children {e : Expr} (h : e.isLateCall runtime = false) :
    e.lateCalls runtime = e.children.flatMap (lateCalls runtime) := by
  rw [lateCalls_eq, List.filter_cons_of_neg (by simp [h]), List.filter_nil, List.nil_append]

/-- A name calls nothing late. -/
@[simp]
theorem lateCalls_name (pos : Pos) (id : String) : (Expr.name pos id).lateCalls runtime = [] :=
  lateCalls_of_children rfl

/-- A constant calls nothing late. -/
@[simp]
theorem lateCalls_constantExpr (value : Constant) :
    (constantExpr value).lateCalls runtime = [] :=
  lateCalls_of_children rfl

/-- An attribute calls late what its base does. -/
@[simp]
theorem lateCalls_attribute (pos : Pos) (base : Expr) (attr : String) :
    (Expr.attribute pos base attr).lateCalls runtime = base.lateCalls runtime :=
  (lateCalls_of_children rfl).trans (List.flatMap_singleton ..)

/-- An export of the library calls nothing late. -/
@[simp]
theorem lateCalls_runtimeExpr (function : String) :
    (runtimeExpr runtime function).lateCalls runtime = [] := by
  simp [runtimeExpr]

/-- A chain of attributes on a name calls nothing late. -/
@[simp]
theorem lateCalls_dottedExpr (name : String) : (dottedExpr name).lateCalls runtime = [] := by
  have hchain (parts : List String) (e : Expr) :
      (parts.foldl (.attribute .synthetic · ·) e).lateCalls runtime = e.lateCalls runtime := by
    induction parts generalizing e with
    | nil => rfl
    | cons part rest ih => exact (ih _).trans (lateCalls_attribute ..)
  unfold dottedExpr
  split
  · exact lateCalls_name ..
  · exact (hchain ..).trans (lateCalls_name ..)

/-- A list calls late what its elements do. -/
@[simp]
theorem lateCalls_listExpr (xs : List Expr) :
    (listExpr xs).lateCalls runtime = xs.flatMap (lateCalls runtime) := by
  have hparts : (listExpr xs).children = xs := listSlots_expr xs
  rw [lateCalls_of_children rfl, hparts]

/-- A dictionary with constant keys calls late what its values do. -/
@[simp]
theorem lateCalls_dict (fields : List (String × TypeExpr)) (xs : List Expr) :
    (Expr.dict .synthetic (propertyKeys fields) xs).lateCalls runtime =
      xs.flatMap (lateCalls runtime) := by
  have hparts : (Expr.dict .synthetic (propertyKeys fields) xs).children =
      Slots.slots (propertyKeys fields) ++ xs :=
    congrArg (Slots.slots (propertyKeys fields) ++ ·) (listSlots_expr xs)
  have hkeys : (Slots.slots (propertyKeys fields)).flatMap (lateCalls runtime) = [] := by
    refine List.flatMap_eq_nil_iff.2 fun c hc => ?_
    obtain ⟨value, rfl⟩ := exists_value_of_mem_propertyKeys hc
    exact lateCalls_constantExpr value
  rw [lateCalls_of_children rfl, hparts, List.flatMap_append, hkeys, List.nil_append]

/-- A call of another function of the library calls late what its arguments do. -/
theorem lateCalls_callExpr {function : String} (h : function ≠ "lazy") (xs : List Expr)
    (shown : Option String) (options : List (String × Constant)) :
    (callExpr (runtimeExpr runtime function) xs (callKeywords shown options)).lateCalls runtime =
      xs.flatMap (lateCalls runtime) := by
  have hkeywords : ((callKeywords shown options).map (·.value)).flatMap (lateCalls runtime) =
      [] := by
    refine List.flatMap_eq_nil_iff.2 (List.forall_mem_map.2 fun k hk => ?_)
    obtain ⟨value, hvalue⟩ := exists_value_of_mem_callKeywords k hk
    rw [hvalue, lateCalls_constantExpr]
  have hother : (callExpr (runtimeExpr runtime function) xs
      (callKeywords shown options)).isLateCall runtime = false := by
    simp [callExpr, runtimeExpr, isLateCall, h]
  rw [lateCalls_of_children hother, children_callExpr, List.flatMap_cons, List.flatMap_append,
    hkeywords, lateCalls_runtimeExpr, List.nil_append, List.append_nil]

/-- A late reference is called late before what is called in it. -/
theorem lateCalls_lateExpr (body : Expr) : (lateExpr runtime body).lateCalls runtime =
    lateExpr runtime body :: body.lateCalls runtime := by
  have hlate : (lateExpr runtime body).isLateCall runtime = true := by
    simp [lateExpr, callExpr, runtimeExpr, isLateCall]
  have hthunk : (Expr.lambda .synthetic .none body).lateCalls runtime = body.lateCalls runtime :=
    (lateCalls_of_children rfl).trans (List.flatMap_singleton ..)
  rw [lateCalls_eq, List.filter_cons_of_pos hlate, List.filter_nil, lateExpr, children_callExpr,
    List.flatMap_cons, lateCalls_runtimeExpr]
  simp [hthunk]

end Expr

section Rendering

variable {runtime : String}

/-- An expression has code, which calls the late references of the expression in their order. -/
def TypeExpr.CalledLate (runtime : String) (e : TypeExpr) : Prop :=
  ∃ x, render runtime e = .ok x ∧ RenderedAll runtime e.lateParts (x.lateCalls runtime)

/-- Several expressions, each of which calls its late references, call all of them. -/
theorem exists_calledLate {es : List TypeExpr} (h : ∀ e ∈ es, e.CalledLate runtime) :
    ∃ xs, RenderedAll runtime es xs ∧
      RenderedAll runtime (es.flatMap TypeExpr.lateParts)
        (xs.flatMap (Expr.lateCalls runtime)) := by
  induction es with
  | nil => exact ⟨[], .nil, .nil⟩
  | cons e rest ih =>
    obtain ⟨x, hx, hlate⟩ := h e List.mem_cons_self
    obtain ⟨xs, hxs, hlates⟩ := ih fun e he => h e (List.mem_cons_of_mem _ he)
    exact ⟨x :: xs, .cons hx hxs, List.rel_append hlate hlates⟩

/-- A call of another function of the library calls its late references if its arguments do. -/
theorem calledLate_call {c : Combinator} {es : List TypeExpr} {shown : Option String}
    {options : List (String × Constant)} {function : String} {xs : List Expr}
    (hrender : render runtime (.call c es shown options) =
      .ok (callExpr (runtimeExpr runtime function) xs (callKeywords shown options)))
    (hfunction : function ≠ "lazy")
    (hlate : RenderedAll runtime (es.flatMap TypeExpr.lateParts)
      (xs.flatMap (Expr.lateCalls runtime))) :
    (TypeExpr.call c es shown options).CalledLate runtime := by
  refine ⟨_, hrender, ?_⟩
  rw [TypeExpr.lateParts_call, Expr.lateCalls_callExpr hfunction]
  exact hlate

/-- A call whose parts are passed on by position calls their late references. -/
theorem calledLate_positional {c : Combinator} {es : List TypeExpr} {shown : Option String}
    {options : List (String × Constant)} {function : String}
    (hc : c ∉ [.interface, .union, .intersection, .tuple, .func])
    (hfunction : c.function? = some function) (hlazy : function ≠ "lazy")
    (h : ∀ e ∈ es, e.CalledLate runtime) :
    (TypeExpr.call c es shown options).CalledLate runtime := by
  obtain ⟨xs, hxs, hlate⟩ := exists_calledLate h
  exact calledLate_call (render_positional hc hfunction hxs) hlazy hlate

/-- A call whose parts are passed on as one list calls their late references. -/
theorem calledLate_listed {c : Combinator} {es : List TypeExpr} {shown : Option String}
    {options : List (String × Constant)} {function : String}
    (hc : c ∈ [.union, .intersection, .tuple])
    (hfunction : c.function? = some function) (hlazy : function ≠ "lazy")
    (h : ∀ e ∈ es, e.CalledLate runtime) :
    (TypeExpr.call c es shown options).CalledLate runtime := by
  obtain ⟨xs, hxs, hlate⟩ := exists_calledLate h
  exact calledLate_call (render_listed hc hfunction hxs) hlazy (by simpa using hlate)

/-- What has no late references calls none if its code does not. -/
theorem calledLate_of_nil {e : TypeExpr} {x : Expr} (hrender : render runtime e = .ok x)
    (hparts : e.lateParts = []) (hcalls : x.lateCalls runtime = []) : e.CalledLate runtime := by
  refine ⟨x, hrender, ?_⟩
  rw [hparts, hcalls]
  exact .nil

/-- A late reference to code without late references is called once. -/
theorem calledLate_late {e : TypeExpr} {body : Expr}
    (hrender : render runtime e = .ok (lateExpr runtime body)) (hparts : e.lateParts = [e])
    (hbody : body.lateCalls runtime = []) : e.CalledLate runtime := by
  refine ⟨_, hrender, ?_⟩
  rw [hparts, Expr.lateCalls_lateExpr, hbody]
  exact .cons hrender .nil

/-- The code of a name calls nothing late. -/
theorem calledLate_name (name : String) : (TypeExpr.name name).CalledLate runtime :=
  calledLate_of_nil rfl rfl (Expr.lateCalls_dottedExpr name)

/-- The code of a check against a class calls nothing late. -/
theorem calledLate_classCheck (name : String) : (classCheck name).CalledLate runtime :=
  calledLate_positional (by decide) rfl (by decide) (by simpa using calledLate_name name)

/-- The code of expressions that are built calls their late references. -/
theorem BuiltForm.calledLate {e : TypeExpr} (h : BuiltForm e) : e.CalledLate runtime := by
  induction h with
  | primitive name => exact calledLate_of_nil rfl rfl (Expr.lateCalls_runtimeExpr name)
  | name name => exact calledLate_name name
  | deferred name => exact calledLate_late rfl rfl (Expr.lateCalls_dottedExpr name)
  | classCheck name => exact calledLate_classCheck name
  | delayed name =>
    obtain ⟨x, hx, hlate⟩ : (Registry.classCheck name).CalledLate runtime :=
      calledLate_classCheck name
    have hrender : render runtime (.delayed (Registry.classCheck name)) =
        .ok (lateExpr runtime x) := by
      rw [render, hx]
      rfl
    exact calledLate_late hrender rfl (List.forall₂_nil_left_iff.1 hlate)
  | literal value shown =>
    have hvalue : (TypeExpr.constant value).CalledLate runtime :=
      calledLate_of_nil rfl rfl (Expr.lateCalls_constantExpr value)
    exact calledLate_positional (by decide) rfl (by decide) (by simpa using hvalue)
  | maybe h ih | list h ih =>
    exact calledLate_positional (by decide) rfl (by decide) (by simpa using ih)
  | dict hkey hvalue ihkey ihvalue =>
    exact calledLate_positional (by decide) rfl (by decide) (by simpa using And.intro ihkey ihvalue)
  | @interface fields shown h ih =>
    obtain ⟨xs, hxs, hlate⟩ := exists_calledLate (List.forall_mem_map.2 ih)
    refine calledLate_call (render_interface hxs) (by decide) ?_
    simpa [List.flatMap_map, TypeExpr.lateParts] using hlate
  | union h ih | intersection h ih | tuple h ih =>
    exact calledLate_listed (by decide) rfl (by decide) ih
  | @refinement e predicate shown h ih =>
    have hpredicate : (TypeExpr.predicate predicate).CalledLate runtime :=
      calledLate_of_nil rfl rfl (Expr.lateCalls_dottedExpr predicate)
    exact calledLate_positional (by decide) rfl (by decide)
      (by simpa using And.intro ih hpredicate)
  | anyFunction h ih =>
    obtain ⟨x, hx, hlate⟩ := ih
    exact calledLate_call (render_anyFunction hx) (by decide) (by simpa using hlate)
  | function hparams hresult ihparams ihresult =>
    -- The builder meets the result first, but it stands last in the call and in its code.
    obtain ⟨xs, hxs, hlates⟩ := exists_calledLate ihparams
    obtain ⟨x, hx, hlate⟩ := ihresult
    refine calledLate_call (render_function hxs hx) (by decide) ?_
    simpa using List.rel_append hlates hlate

end Rendering

/-- Deferred references are never expanded, lost or duplicated. What is built for a type has code;
the late references that are counted in the expression are as many as the calls for late references
in the code, and as many as the references in the type, outside of erased arguments, that are
deferred. In their order, each call is the code for the reference it stands for. -/
theorem deferred_references_kept {r : Registry} {t : StaticType} {e : TypeExpr} (runtime : String)
    (h : (build r t).outcome = .ok e) :
    ∃ x, render runtime e = .ok x ∧ e.deferredCount = (x.lateCalls runtime).length ∧
      e.deferredCount = (t.references.filter (r.Defers ·)).length ∧
      RenderedAll runtime (r.deferredExprs t) (x.lateCalls runtime) := by
  obtain ⟨x, hx, hlate⟩ : e.CalledLate runtime := (builtForm_of_build h).calledLate
  have hparts := lateParts_of_build h
  refine ⟨x, hx, ?_, ?_, hparts ▸ hlate⟩
  · rw [← TypeExpr.length_lateParts, hlate.length_eq]
  · rw [← TypeExpr.length_lateParts, hparts, deferredExprs, List.length_map]

/-- A registry below a class and above another one, while a recursive type is defined after a type
that is finished. -/
def growingRegistry : Registry where
  entries := [⟨"Size", false, none, .complete, some (.primitive "Int")⟩,
    ⟨"Tree", true, none, .pending, none⟩]
  bindings := [⟨"Early", .ofClass, some ⟨1, 1, none⟩⟩, ⟨"Late", .ofClass, some ⟨9, 1, none⟩⟩]
  site := some ⟨5, 1, none⟩

/-- A function type over all that the registry knows. The recursive type stands in the erased
argument of a reference to it, too. -/
def growingType : StaticType :=
  .function
    (some [.dict (.reference "Tree" [] none) (.array (.reference "Late.Inner" [] none) "list" none)
        none,
      .nullable (.union [.reference "Tree" [] none, .reference "Early" [] none] none) none])
    (.record [⟨"next", .reference "Tree" [.reference "Tree" [] none] none, true, none⟩,
      ⟨"size", .reference "Size" [] none, false, none⟩] none none) none

/-- Each of the four references that are deferred is called late once. -/
theorem deferred_references_kept_growing : ∃ e x,
    (build growingRegistry growingType).outcome = .ok e ∧ render "t" e = .ok x ∧
    e.deferredCount = 4 ∧ (x.lateCalls "t").length = 4 ∧
    (growingType.references.filter (growingRegistry.Defers ·)).length = 4 ∧
    RenderedAll "t" [.deferred "Tree", .delayed (classCheck "Late.Inner"), .deferred "Tree",
      .deferred "Tree"] (x.lateCalls "t") := by
  obtain ⟨e, h, hcount, hparts⟩ : ∃ e, (build growingRegistry growingType).outcome = .ok e ∧
      e.deferredCount = 4 ∧ e.lateParts = [.deferred "Tree", .delayed (classCheck "Late.Inner"),
        .deferred "Tree", .deferred "Tree"] := ⟨_, rfl, rfl, rfl⟩
  obtain ⟨x, hx, hcalls, hreferences, hrendered⟩ := deferred_references_kept "t" h
  rw [← lateParts_of_build h, hparts] at hrendered
  exact ⟨e, x, h, hx, hcount, hcalls ▸ hcount, hreferences ▸ hcount, hrendered⟩

end Typeward
