import Typeward.Proofs.RenderedForms
import Typeward.Proofs.ScopedReferences

/-!
# The names that code for types evaluates

Code that is spliced in reads a name at once, or late: first when a function in it is called. What
it reads at once is the alias of the runtime library, a type that is defined, a predicate, or a
class that is bound already; late it reads the alias, the type that is being defined, or a class
that is not bound yet.
-/

namespace Typeward

open Registry Slots

/-- The expressions that are evaluated when an expression is. The body of a function is not. -/
def Expr.immediate : Expr → List Expr
  | .lambda _ params _ => params.initials
  | e => e.children

/-- An expression reads a name: at once, or late, when a function in it is called. -/
inductive Expr.Reads (x : String) : (late : Bool) → Expr → Prop
  | name {pos} : Reads x false (.name pos x)
  | part {late e c} (hc : c ∈ e.immediate) (h : Reads x late c) : Reads x late e
  | body {late pos params body} (h : Reads x late body) : Reads x true (.lambda pos params body)

/-- A predicate stands in an expression. -/
inductive TypeExpr.Tests (p : String) : TypeExpr → Prop
  | predicate : Tests p (.predicate p)
  | delayed {e} (h : Tests p e) : Tests p (.delayed e)
  | field {name e} (h : Tests p e) : Tests p (.field name e)
  | call {combinator arguments shown options e} (he : e ∈ arguments) (h : Tests p e) :
      Tests p (.call combinator arguments shown options)
  | reified {e kind parts} (h : Tests p e) : Tests p (.reified e kind parts)

/-- What a name stands for that the code for an expression reads, at once or late. -/
inductive TypeExpr.ReadAs (k : Scoping) (runtime : String) (e : TypeExpr) (x : String) :
    (late : Bool) → Prop
  /-- The alias of the runtime library. -/
  | library {late} (h : x = runtime) : ReadAs k runtime e x late
  /-- A type that is defined. -/
  | defined {n} (h : k.Defined n) (hx : rootOf n = x) : ReadAs k runtime e x false
  /-- The recursive type that is being defined. -/
  | own {n} (h : k.Late n) (hx : rootOf n = x) : ReadAs k runtime e x true
  /-- A class that is bound where the code runs. -/
  | bound {n} (h : k.Class n) (hnow : ¬ k.BoundLater n) (hx : rootOf n = x) :
      ReadAs k runtime e x false
  /-- A class that is bound later. -/
  | unbound {n} (h : k.Class n) (hlater : k.BoundLater n) (hx : rootOf n = x) :
      ReadAs k runtime e x true
  /-- A predicate, wherever it is bound. -/
  | predicate {p} (h : e.Tests p) (hx : rootOf p = x) : ReadAs k runtime e x false

/-- What a part of an expression reads stands for the same in the whole. -/
theorem TypeExpr.ReadAs.mono {k : Scoping} {runtime x : String} {e e' : TypeExpr} {late : Bool}
    (h : e.ReadAs k runtime x late) (he : ∀ p, e.Tests p → e'.Tests p) :
    e'.ReadAs k runtime x late := by
  cases h with
  | library h => exact .library h
  | defined h hx => exact .defined h hx
  | own h hx => exact .own h hx
  | bound h hnow hx => exact .bound h hnow hx
  | unbound h hlater hx => exact .unbound h hlater hx
  | predicate h hx => exact .predicate (he _ h) hx

namespace Expr.Reads

variable {runtime x : String} {late : Bool}

/-- A constant reads nothing. -/
theorem not_constantExpr (value : Constant) : ¬ (constantExpr value).Reads x late := by
  rintro (_ | ⟨hc, -⟩)
  exact absurd hc List.not_mem_nil

/-- An attribute reads what its base reads. -/
theorem of_attribute {pos : Pos} {base : Expr} {attr : String}
    (h : (Expr.attribute pos base attr).Reads x late) : base.Reads x late := by
  cases h with
  | part hc h => rwa [← List.mem_singleton.1 hc]

/-- A name reads itself at once. -/
theorem of_name {pos : Pos} {id : String} (h : (Expr.name pos id).Reads x late) :
    late = false ∧ x = id := by
  cases h with
  | name => exact ⟨rfl, rfl⟩
  | part hc h => exact absurd hc List.not_mem_nil

/-- An export of the library reads the alias of the library at once. -/
theorem of_runtimeExpr {name : String} (h : (runtimeExpr runtime name).Reads x late) :
    late = false ∧ x = runtime :=
  h.of_attribute.of_name

/-- The first part of a name with dots. -/
theorem exists_nameParts_eq (name : String) : ∃ rest, nameParts name = rootOf name :: rest := by
  have hfrom (cs : List Char) : ∀ part : List Char, ∃ rest, namePartsFrom part cs =
      String.ofList (part.reverse ++ cs.takeWhile (· != '.')) :: rest := by
    induction cs with
    | nil => exact fun part => ⟨[], by simp [namePartsFrom]⟩
    | cons c cs ih =>
      intro part
      by_cases hc : c = '.'
      · exact ⟨namePartsFrom [] cs, by simp [namePartsFrom, hc]⟩
      · obtain ⟨rest, hrest⟩ := ih (c :: part)
        refine ⟨rest, ?_⟩
        simp [namePartsFrom, hc, hrest]
  exact hfrom name.toList []

/-- A name with dots reads its first part at once. -/
theorem of_dottedExpr {name : String} (h : (dottedExpr name).Reads x late) :
    late = false ∧ x = rootOf name := by
  have hchain (rest : List String) : ∀ base : Expr,
      (rest.foldl (Expr.attribute .synthetic · ·) base).Reads x late → base.Reads x late := by
    induction rest with
    | nil => exact fun _ h => h
    | cons part rest ih => exact fun base h => (ih _ h).of_attribute
  obtain ⟨rest, hparts⟩ := exists_nameParts_eq name
  unfold dottedExpr at h
  rw [hparts] at h
  exact (hchain rest _ h).of_name

/-- A list reads what its elements read. -/
theorem of_listExpr {es : List Expr} (h : (listExpr es).Reads x late) :
    ∃ e ∈ es, e.Reads x late := by
  cases h with
  | part hc h => exact ⟨_, mem_slots_list.1 hc, h⟩

/-- A dictionary with names as its keys reads what its values read. -/
theorem of_properties {names : List (Option String)} {es : List Expr}
    (h : (Expr.dict .synthetic (names.map (some ∘ nameConstant)) es).Reads x late) :
    ∃ e ∈ es, e.Reads x late := by
  cases h with
  | part hc h =>
    rcases BoundedSlots.mem_pair.1 hc with hc | hc
    · obtain ⟨value, rfl⟩ := exists_value_of_mem_keys hc
      exact absurd h (not_constantExpr value)
    · exact ⟨_, mem_slots_list.1 hc, h⟩

/-- A call of the library reads the alias of the library at once, and what its arguments read. -/
theorem of_callExpr {function : String} {args : List Expr} {shown : Option String}
    {options : List (String × Constant)}
    (h : (callExpr (runtimeExpr runtime function) args (callKeywords shown options)).Reads x late) :
    x = runtime ∧ late = false ∨ ∃ e ∈ args, e.Reads x late := by
  cases h with
  | part hc h =>
    rcases BoundedSlots.mem_pair.1 hc with hc | hc
    · rw [List.mem_singleton.1 hc] at h
      exact .inl h.of_runtimeExpr.symm
    · rcases BoundedSlots.mem_pair.1 hc with hc | hc
      · exact .inr ⟨_, mem_slots_list.1 hc, h⟩
      · obtain ⟨k, hk, rfl⟩ := mem_slots_keywords.1 hc
        rcases List.mem_append.1 hk with hk | hk
        · obtain ⟨option, -, rfl⟩ := List.mem_map.1 hk
          exact absurd h (not_constantExpr _)
        · obtain ⟨name, -, rfl⟩ := Option.map_eq_some_iff.1 (Option.mem_toList.1 hk)
          exact absurd h (not_constantExpr _)

/-- A late reference reads the alias of the library at once, and the rest late. -/
theorem of_lateExpr {body : Expr} (h : (lateExpr runtime body).Reads x late) :
    x = runtime ∨ late = true ∧ ∃ late', body.Reads x late' := by
  have hcall : (callExpr (runtimeExpr runtime "lazy") [.lambda .synthetic .none body]
      (callKeywords none [])).Reads x late := h
  rcases hcall.of_callExpr with ⟨hx, -⟩ | ⟨e, he, h⟩
  · exact .inl hx
  · rw [List.mem_singleton.1 he] at h
    cases h with
    | part hc h => exact absurd hc List.not_mem_nil
    | body h => exact .inr ⟨rfl, _, h⟩

/-- The arguments of a rendered call read what the renderings of its parts read. -/
theorem of_callArguments {c : Combinator} {names : List (Option String)}
    {rendered : List (Except RenderFault Expr)} {options : List (String × Constant)}
    {args : List Expr} (hargs : callArguments c names rendered options = .ok args) {e : Expr}
    (he : e ∈ args) (h : e.Reads x late) : ∃ y, .ok y ∈ rendered ∧ y.Reads x late := by
  have hall {xs : List (Except RenderFault Expr)} {es : List Expr} (hxs : xs ⊆ rendered)
      (hes : xs.mapM id = .ok es) {e : Expr} (he : e ∈ es) (h : e.Reads x late) :
      ∃ y, .ok y ∈ rendered ∧ y.Reads x late :=
    ⟨e, hxs (mem_of_mapM_id hes e he), h⟩
  have hlist {xs : List (Except RenderFault Expr)} {es : List Expr} (hxs : xs ⊆ rendered)
      (hes : xs.mapM id = .ok es) (h : (listExpr es).Reads x late) :
      ∃ y, .ok y ∈ rendered ∧ y.Reads x late := by
    obtain ⟨e', he', h⟩ := of_listExpr h
    exact hall hxs hes he' h
  unfold callArguments at hargs
  split at hargs
  · obtain ⟨es, hes, hargs⟩ := Except.bind_eq_ok.1 hargs
    obtain rfl := Except.ok.inj hargs
    rw [List.mem_singleton.1 he] at h
    obtain ⟨e', he', h⟩ := of_properties h
    exact hall (List.Subset.refl _) hes he' h
  · obtain ⟨es, hes, hargs⟩ := Except.bind_eq_ok.1 hargs
    obtain rfl := Except.ok.inj hargs
    exact hlist (List.Subset.refl _) hes (List.mem_singleton.1 he ▸ h)
  · obtain ⟨es, hes, hargs⟩ := Except.bind_eq_ok.1 hargs
    obtain rfl := Except.ok.inj hargs
    exact hlist (List.Subset.refl _) hes (List.mem_singleton.1 he ▸ h)
  · obtain ⟨es, hes, hargs⟩ := Except.bind_eq_ok.1 hargs
    obtain rfl := Except.ok.inj hargs
    exact hlist (List.Subset.refl _) hes (List.mem_singleton.1 he ▸ h)
  · split at hargs
    · simp at hargs
    · rename_i last hlast
      obtain ⟨result, hresult, hargs⟩ := Except.bind_eq_ok.1 hargs
      have hlast' : .ok result ∈ rendered := hresult ▸ List.mem_of_getLast? hlast
      split at hargs
      · obtain rfl := Except.ok.inj hargs
        rcases List.mem_pair.1 he with rfl | rfl
        · exact absurd h (not_constantExpr _)
        · exact ⟨_, hlast', h⟩
      · obtain ⟨es, hes, hargs⟩ := Except.bind_eq_ok.1 hargs
        obtain rfl := Except.ok.inj hargs
        rcases List.mem_pair.1 he with rfl | rfl
        · exact hlist (List.dropLast_subset _) hes h
        · exact ⟨_, hlast', h⟩
  · exact hall (List.Subset.refl _) hargs he h

end Expr.Reads

/-- The renderings of several expressions are those of each of them. -/
theorem exists_render_of_mem_renderAll {runtime : String} {es : List TypeExpr} {y : Expr}
    (h : .ok y ∈ renderAll runtime es) : ∃ e ∈ es, render runtime e = .ok y := by
  induction es with
  | nil => exact absurd h List.not_mem_nil
  | cons e rest ih =>
    rw [renderAll] at h
    rcases List.mem_cons.1 h with h | h
    · exact ⟨e, List.mem_cons_self, h.symm⟩
    · obtain ⟨e', he', hy⟩ := ih h
      exact ⟨e', List.mem_cons_of_mem _ he', hy⟩

/-- The code for a check against a class reads the alias and the class at once. -/
theorem reads_of_render_classCheck {runtime n x : String} {shown : Option String}
    {options : List (String × Constant)} {code : Expr} {late : Bool}
    (hrender : render runtime (.call .irreducible [.name n] shown options) = .ok code)
    (hx : code.Reads x late) : x = runtime ∨ late = false ∧ rootOf n = x := by
  rw [render] at hrender
  obtain rfl := Except.ok.inj hrender
  rcases hx.of_callExpr with ⟨hx, -⟩ | ⟨e, he, hx⟩
  · exact .inl hx
  · rw [List.mem_singleton.1 he] at hx
    exact .inr (hx.of_dottedExpr.imp_right Eq.symm)

/-- Whatever the code for an expression reads stands for something that the expression may refer to:
at once only for what is there when it runs, and for predicates. -/
theorem TypeExpr.Scoped.readAs {k : Scoping} {runtime x : String} {e : TypeExpr} {code : Expr}
    {late : Bool} (h : e.Scoped k) (hrender : render runtime e = .ok code)
    (hx : code.Reads x late) : e.ReadAs k runtime x late := by
  induction h generalizing code late with
  | primitive name =>
    obtain rfl := Except.ok.inj hrender
    exact .library hx.of_runtimeExpr.2
  | predicate name =>
    obtain rfl := Except.ok.inj hrender
    obtain ⟨rfl, heq⟩ := hx.of_dottedExpr
    exact .predicate .predicate heq.symm
  | constant value =>
    obtain rfl := Except.ok.inj hrender
    exact absurd hx (Expr.Reads.not_constantExpr value)
  | name h =>
    obtain rfl := Except.ok.inj hrender
    obtain ⟨rfl, heq⟩ := hx.of_dottedExpr
    exact .defined h heq.symm
  | deferred h =>
    obtain rfl := Except.ok.inj hrender
    rcases hx.of_lateExpr with hx | ⟨rfl, late', hx⟩
    · exact .library hx
    · exact .own h hx.of_dottedExpr.2.symm
  | classCheck h hnow =>
    rcases reads_of_render_classCheck hrender hx with hx | ⟨rfl, heq⟩
    · exact .library hx
    · exact .bound h hnow heq
  | delayed h hlater =>
    rw [render] at hrender
    obtain ⟨body, hbody, hrender⟩ := Except.bind_eq_ok.1 hrender
    obtain rfl := Except.ok.inj hrender
    rcases hx.of_lateExpr with hx | ⟨rfl, late', hx⟩
    · exact .library hx
    · rcases reads_of_render_classCheck hbody hx with hx | ⟨-, hx⟩
      · exact .library hx
      · exact .unbound h hlater hx
  | field h ih =>
    rw [render] at hrender
    exact (ih hrender hx).mono fun p hp => .field hp
  | call hc h ih =>
    rw [render] at hrender
    obtain ⟨names, -, hrender⟩ := Except.bind_eq_ok.1 hrender
    obtain ⟨args, hargs, hrender⟩ := Except.bind_eq_ok.1 hrender
    split at hrender
    · simp at hrender
    · obtain rfl := Except.ok.inj hrender
      rcases hx.of_callExpr with ⟨hx, -⟩ | ⟨arg, harg, hx⟩
      · exact .library hx
      · obtain ⟨y, hy, hx⟩ := Expr.Reads.of_callArguments hargs harg hx
        obtain ⟨part, hpart, hrendered⟩ := exists_render_of_mem_renderAll hy
        exact (ih part hpart hrendered hx).mono fun p hp => .call hpart hp
  | reified h ih =>
    rw [render] at hrender
    exact (ih hrender hx).mono fun p hp => .reified hp

end Typeward
