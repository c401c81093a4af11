import Typeward.Proofs.DeclaredTypes
import Typeward.Proofs.LibraryCalls
import Typeward.Proofs.RenderedForms

/-!
# Code for well-made types

What the runtime library looks up when a value is checked is fixed by the code that made the type:
the container of a list type, and the element of a tuple type of any length. Sturdy code provides
both. What is built for well-made types is rendered, and to sturdy code.
-/

namespace Typeward

open StaticType

/-- What is looked up for the type that a call makes is there: the container of a list type, and the
element of a tuple type of any length. -/
def Combinator.Provides (c : Combinator) (count : Nat) (options : List (String × Constant)) :
    Prop :=
  match c with
  | .list => count = 1 ∧ ∃ container ∈ Schema.containers, options = containerOptions container
  | .tuple => ∃ isVariadic, options = lengthOptions isVariadic ∧ (isVariadic = true → count = 1)
  | _ => True

/-- All calls in a type expression provide what is looked up. -/
inductive TypeExpr.Sturdy : TypeExpr → Prop
  | primitive (name) : Sturdy (.primitive name)
  | name (name) : Sturdy (.name name)
  | deferred (name) : Sturdy (.deferred name)
  | delayed {e} (h : Sturdy e) : Sturdy (.delayed e)
  | predicate (name) : Sturdy (.predicate name)
  | constant (value) : Sturdy (.constant value)
  | field (name) {e} (h : Sturdy e) : Sturdy (.field name e)
  | call {c arguments options} (shown) (hown : c.Provides arguments.length options)
      (h : ∀ e ∈ arguments, Sturdy e) : Sturdy (.call c arguments shown options)
  | reified (kind parts) {e} (h : Sturdy e) : Sturdy (.reified e kind parts)

/-- The expression of a shape of sturdy expressions is sturdy. -/
theorem Shape.All.sturdy {s : Shape} (h : s.All TypeExpr.Sturdy) : s.toExpr.Sturdy :=
  h.toExpr (.primitive _) (fun _ he => .call none trivial (by simpa using he))
    fun _ hes => .call none trivial hes

/-- A check against a class is sturdy. -/
theorem sturdy_classCheck (name : String) : (Registry.classCheck name).Sturdy :=
  .call none trivial (by simpa using TypeExpr.Sturdy.name name)

/-- References are built to sturdy expressions. -/
theorem sturdy_of_lookup {r : Registry} {name : String} {location : Option Location} {e : TypeExpr}
    (h : r.lookup name location = .ok e) : e.Sturdy := by
  obtain ⟨_, _, ⟨_, rfl⟩ | ⟨_, _, rfl⟩⟩ | ⟨_, ⟨_, _, ⟨_, rfl⟩ | ⟨_, rfl⟩⟩ | ⟨_, _, rfl⟩⟩ :=
    lookup_cases h
  · exact .name name
  · exact .deferred name
  · exact .delayed (sturdy_classCheck name)
  · exact sturdy_classCheck name
  · exact sturdy_classCheck name

/-- Well-made types have shapes of sturdy expressions. -/
theorem Shaped.sturdy {r : Registry} {t : StaticType} {s : Shape} (h : Shaped r t s)
    (ht : t.WellMade) : s.All TypeExpr.Sturdy := by
  -- what is known of the shapes of several types holds of their expressions
  have hmap {ts : List StaticType} {shapes : List Shape} (hlength : ts.length = shapes.length)
      (hts : ∀ u ∈ ts, u.WellMade)
      (ih : ∀ p ∈ ts.zip shapes, p.1.WellMade → p.2.All TypeExpr.Sturdy) :
      ∀ e ∈ shapes.map Shape.toExpr, e.Sturdy :=
    forall_mem_map_toExpr (fun _ => Shape.All.sturdy) hlength
      fun p hp => ih p hp (hts p.1 (List.of_mem_zip hp).1)
  induction h with
  | primitive h => exact .primitive _
  | literal value location =>
    exact .call none trivial (by simpa using TypeExpr.Sturdy.constant value)
  | generic name location => exact .primitive _
  | reference h => exact sturdy_of_lookup h
  | nullable h ih =>
    have hinner := ih (ht.of_mem_parts (by simp [parts]))
    intro e he
    rcases List.mem_append.1 he with he | he
    · exact hinner.of_mem_toAlternatives he
    · simp at he
  | @array element container location s h ih =>
    have helement := (ih (ht.of_mem_parts (by simp [parts]))).sturdy
    exact .call none ⟨rfl, container, ht.here, rfl⟩ (by simpa using helement)
  | dict hkey hvalue ihkey ihvalue =>
    have hkeys := (ihkey (ht.of_mem_parts (by simp [parts]))).sturdy
    have hvalues := (ihvalue (ht.of_mem_parts (by simp [parts]))).sturdy
    exact .call none trivial (by simpa using ⟨hkeys, hvalues⟩)
  | @record fields shown location shapes hlength h ih =>
    refine .call shown trivial fun e he => ?_
    rw [← List.map_uncurry_zip_eq_zipWith] at he
    obtain ⟨p, hp, rfl⟩ := List.mem_map.1 he
    have hfield := List.mem_map_of_mem (f := (·.type)) (List.of_mem_zip hp).1
    have hpart := (ih p hp (ht.of_mem_parts hfield)).sturdy
    refine .field _ ?_
    split
    · exact .call none trivial (by simpa using hpart)
    · exact hpart
  | @union members location shapes hlength h ih =>
    intro e he
    obtain ⟨s, hs, he⟩ := List.mem_flatMap.1 he
    obtain ⟨m, hm, hall⟩ := exists_mem_of_forall₂
      (List.forall₂_iff_zip.2 ⟨hlength, fun hp => ih _ hp⟩) hs
    exact (hall (ht.of_mem_parts hm)).of_mem_toAlternatives he
  | intersection hmarker hlength h ih =>
    exact .call none trivial (hmap hlength (fun u hu => ht.of_mem_parts hu) ih)
  | markedLeft h ih | markedRight h ih =>
    have hbase := (ih (ht.of_mem_parts (by simp [parts]))).sturdy
    exact .call none trivial (by simpa using ⟨hbase, TypeExpr.Sturdy.predicate _⟩)
  | anyFunction h ih =>
    have hresult := (ih (ht.of_mem_parts (by simp [parts]))).sturdy
    exact .call none trivial (by simpa using hresult)
  | @function params result location shapes s hresult hlength h ihresult ih =>
    refine .call none trivial fun e he => ?_
    rcases List.mem_append.1 he with he | he
    · exact hmap hlength (fun u hu => ht.of_mem_parts (by simp [parts, hu])) ih e he
    · rw [List.mem_singleton.1 he]
      exact (ihresult (ht.of_mem_parts (by simp [parts]))).sturdy
  | @tuple elements isVariadic location shapes hlength h ih =>
    refine .call none ⟨isVariadic, rfl, fun hvariadic => ?_⟩ ?_
    · obtain ⟨element, rfl⟩ := ht.here hvariadic
      simpa using hlength.symm
    · exact hmap hlength (fun u hu => ht.of_mem_parts hu) ih

/-- What is built for a well-made type is sturdy. -/
theorem sturdy_of_build {r : Registry} {t : StaticType} {e : TypeExpr}
    (h : (build r t).outcome = .ok e) (ht : t.WellMade) : e.Sturdy := by
  obtain ⟨s, hs, rfl⟩ := shaped_of_build h
  exact (hs.sturdy ht).sturdy

/-- A display name leaves a sturdy expression sturdy. -/
theorem TypeExpr.Sturdy.named {e : TypeExpr} (h : e.Sturdy) (shown : String) :
    (e.named shown).Sturdy := by
  unfold TypeExpr.named
  split
  · cases h with
    | call _ hown harguments => exact .call _ hown harguments
  · exact h

/-- A parameter receives values of a well-made type if its hint denotes one. -/
theorem StaticType.WellMade.received {t : StaticType} (h : t.WellMade) (kind : ParameterKind)
    (location : Option Location) : (receivedType kind t location).WellMade := by
  have hkey : (StaticType.primitive "str" none).WellMade := wellMade_primitive (by decide)
  cases kind with
  | variadic => exact h.variadic
  | keywordVariadic => exact hkey.dict h
  | _ => exact h

/-- The planner makes sturdy entries for declarations of well-made types. -/
theorem PlanStep.sturdy {r r' : Registry} {number : Nat} {d : Declaration}
    {entries : List PlanEntry} (h : PlanStep r number d entries r')
    (hd : ∀ t ∈ d.types, t.WellMade) : ∀ entry ∈ entries, entry.expr.Sturdy := by
  intro entry hentry
  cases h with
  | define htop hdeclare hbuild hcomplete =>
    obtain rfl := List.mem_singleton.1 hentry
    exact (sturdy_of_build hbuild (hd _ (by simp [Declaration.types]))).named _
  | @function d _ h =>
    obtain ⟨p, hp, t, e, ht, hbuild, rfl⟩ := exists_mem_of_forall₂ h hentry
    have hmem : t ∈ d.params.filterMap (·.type) :=
      List.mem_filterMap.2 ⟨p, List.mem_of_mem_filter hp, ht⟩
    exact sturdy_of_build hbuild ((hd t hmem).received _ _)
  | cast hbuild =>
    obtain rfl := List.mem_singleton.1 hentry
    exact sturdy_of_build hbuild (hd _ (by simp [Declaration.types]))
  | reify hbuild =>
    obtain rfl := List.mem_singleton.1 hentry
    obtain ⟨e, definition, he, -, rfl⟩ := build_of_reify hbuild
    exact .reified _ _ (sturdy_of_build he (hd _ (by simp [Declaration.types])))

/-- A plan for declarations of well-made types has sturdy entries. -/
theorem PlanRun.sturdy {r r' : Registry} {number : Nat} {ds : List Declaration}
    {entries : List PlanEntry} (h : PlanRun r number ds entries r')
    (hds : ∀ d ∈ ds, ∀ t ∈ d.types, t.WellMade) : ∀ entry ∈ entries, entry.expr.Sturdy := by
  induction h with
  | nil => exact fun _ hentry => absurd hentry List.not_mem_nil
  | cons hstep hrun ih =>
    intro entry hentry
    rcases List.mem_append.1 hentry with hentry | hentry
    · exact hstep.sturdy (hds _ List.mem_cons_self) entry hentry
    · exact ih (fun d hd => hds d (List.mem_cons_of_mem _ hd)) entry hentry

/-- What is looked up for the type that a call of the library makes is there, and a late reference
is given the code that it stands for. -/
structure Provided (function : String) (arguments : List Expr)
    (options : List (String × Constant)) : Prop where
  list : function = "list_of" → arguments.length = 1 ∧
    ∃ container ∈ Schema.containers, options = containerOptions container
  tuple : function = "tuple_of" → ∃ elements isVariadic, arguments = [listExpr elements] ∧
    options = lengthOptions isVariadic ∧ (isVariadic = true → elements.length = 1)
  late : function = "lazy" → ∃ body, arguments = [.lambda .synthetic .none body] ∧ options = []

/-- Code for types in which all calls provide what is looked up. -/
inductive Expr.Sturdy : Expr → Prop
  | name (id) : Sturdy (.name .synthetic id)
  | access {base} (attr) (h : Sturdy base) : Sturdy (.attribute .synthetic base attr)
  | constant (value) : Sturdy (constantExpr value)
  | list {es} (h : ∀ e ∈ es, Sturdy e) : Sturdy (listExpr es)
  | properties (names : List (Option String)) {es} (h : ∀ e ∈ es, Sturdy e) :
      Sturdy (.dict .synthetic (names.map (some ∘ nameConstant)) es)
  | thunk {body} (h : Sturdy body) : Sturdy (.lambda .synthetic .none body)
  | call (runtime) {function arguments options} (shown)
      (hown : Provided function arguments options) (h : ∀ e ∈ arguments, Sturdy e) :
      Sturdy (callExpr (runtimeExpr runtime function) arguments (callKeywords shown options))

variable {runtime : String}

/-- A chain of attributes on a name is sturdy. -/
theorem sturdy_dottedExpr (name : String) : (dottedExpr name).Sturdy := by
  have hchain (parts : List String) (e : Expr) (he : e.Sturdy) :
      (parts.foldl (.attribute .synthetic · ·) e).Sturdy := by
    induction parts generalizing e with
    | nil => exact he
    | cons part rest ih => exact ih _ (.access part he)
  unfold dottedExpr
  split
  · exact .name _
  · exact hchain _ _ (.name _)

/-- A late reference to sturdy code is sturdy. -/
theorem sturdy_lateExpr {body : Expr} (h : body.Sturdy) : (lateExpr runtime body).Sturdy := by
  have hthunk : (Expr.lambda .synthetic .none body).Sturdy := .thunk h
  have hown : Provided "lazy" [.lambda .synthetic .none body] [] :=
    ⟨by simp, by simp, fun _ => ⟨body, rfl, rfl⟩⟩
  exact .call runtime none hown (by simpa using hthunk)

/-- As many results as there are computations are answered together. -/
theorem length_of_mapM_id {ε α : Type} {xs : List (Except ε α)} {as : List α}
    (h : xs.mapM id = .ok as) : as.length = xs.length := by
  induction xs generalizing as with
  | nil =>
    obtain rfl := Except.ok.inj h
    rfl
  | cons x rest ih =>
    rw [List.mapM_cons] at h
    obtain ⟨a, ha, h⟩ := Except.bind_eq_ok.1 h
    obtain ⟨more, hmore, h⟩ := Except.bind_eq_ok.1 h
    obtain rfl := Except.ok.inj h
    rw [List.length_cons, List.length_cons, ih hmore]

/-- A call that provides what is looked up is rendered to one that does. -/
theorem provided_of_callArguments {c : Combinator} {names : List (Option String)}
    {rendered : List (Except RenderFault Expr)} {options : List (String × Constant)}
    {arguments : List Expr} {function : String} (hc : c.Provides rendered.length options)
    (hfunction : c.function? = some function)
    (h : callArguments c names rendered options = .ok arguments) :
    Provided function arguments options := by
  refine ⟨?_, ?_, ?_⟩
  · rintro rfl
    have hlist : c = .list := by cases c <;> simp [Combinator.function?] at hfunction ⊢
    subst hlist
    exact ⟨(length_of_mapM_id h).trans hc.1, hc.2⟩
  · rintro rfl
    have htuple : c = .tuple := by cases c <;> simp [Combinator.function?] at hfunction ⊢
    subst htuple
    obtain ⟨elements, helements, h⟩ := Except.bind_eq_ok.1 h
    obtain rfl := Except.ok.inj h
    obtain ⟨isVariadic, hoptions, hlength⟩ := hc
    refine ⟨elements, isVariadic, rfl, hoptions, fun hvariadic => ?_⟩
    exact (length_of_mapM_id helements).trans (hlength hvariadic)
  · rintro rfl
    cases c <;> simp [Combinator.function?] at hfunction

/-- Sturdy expressions are rendered to sturdy code. -/
theorem TypeExpr.Sturdy.render {e : TypeExpr} (h : e.Sturdy) {x : Expr}
    (hx : Typeward.render runtime e = .ok x) : x.Sturdy := by
  induction h generalizing x with
  | primitive name =>
    obtain rfl := Except.ok.inj hx
    exact .access name (.name runtime)
  | name name | predicate name =>
    obtain rfl := Except.ok.inj hx
    exact sturdy_dottedExpr name
  | deferred name =>
    obtain rfl := Except.ok.inj hx
    exact sturdy_lateExpr (sturdy_dottedExpr name)
  | delayed h ih =>
    rw [Typeward.render] at hx
    obtain ⟨body, hbody, hx⟩ := Except.bind_eq_ok.1 hx
    obtain rfl := Except.ok.inj hx
    exact sturdy_lateExpr (ih hbody)
  | constant value =>
    obtain rfl := Except.ok.inj hx
    exact .constant value
  | field name h ih | reified kind parts h ih =>
    rw [Typeward.render] at hx
    exact ih hx
  | @call c arguments options shown hown h ih =>
    rw [Typeward.render] at hx
    obtain ⟨names, -, hx⟩ := Except.bind_eq_ok.1 hx
    obtain ⟨xs, hxs, hx⟩ := Except.bind_eq_ok.1 hx
    split at hx
    · simp at hx
    · rename_i function hfunction
      obtain rfl := Except.ok.inj hx
      rw [renderAll_eq_map] at hxs
      have hprovided : Provided function xs options :=
        provided_of_callArguments (by simpa using hown) hfunction hxs
      refine .call runtime shown hprovided ?_
      refine forall_mem_of_callArguments hxs (fun y hy => ?_) (.constant .none) (fun _ => .list)
        fun _ => .properties names
      obtain ⟨e, he, hy⟩ := List.mem_map.1 hy
      exact ih e he hy

/-- Every entry of a plan is rendered. -/
theorem EntryForm.exists_render {entry : PlanEntry} (h : EntryForm entry) :
    ∃ x, render runtime entry.expr = .ok x := by
  cases h with
  | @define d e label number h =>
    rcases h.named d.name with ⟨name, rfl⟩ | ⟨hform, -⟩
    · exact (not_callsFit_named_classCheck name d.name).imp fun x hx => hx.1
    · exact hform.exists_render.imp fun x hx => hx.1
  | parameter h | cast h | reify h => exact h.exists_render.imp fun x hx => hx.1

/-- All entries of the plan of a compiled module are rendered, to sturdy code. -/
theorem exists_render_of_compile {options : Options} {source file : String} {compiled : Compiled}
    (h : compile options source file = .ok compiled) {entry : PlanEntry}
    (hentry : entry ∈ compiled.plan.entries) (runtime : String) :
    ∃ x, render runtime entry.expr = .ok x ∧ x.Sturdy := by
  unfold compile at h
  obtain ⟨lowered, hlowered, h⟩ := Except.bind_eq_ok.1 h
  obtain ⟨tree, htree, h⟩ := Except.bind_eq_ok.1 h
  obtain ⟨code, -, h⟩ := Except.bind_eq_ok.1 h
  obtain rfl := Except.ok.inj h
  have htypes := wellMade_of_lower (Except.mapError_eq_ok.1 hlowered)
  obtain ⟨preferred, r, r', -, hplan, -, -⟩ := compileLowered_eq_ok (Except.mapError_eq_ok.1 htree)
  have hrun := planRun_of_plan hplan
  obtain ⟨x, hx⟩ : ∃ x, render runtime entry.expr = .ok x :=
    (hrun.entryForm entry hentry).exists_render
  exact ⟨x, hx, (hrun.sturdy htypes entry hentry).render hx⟩

end Typeward
