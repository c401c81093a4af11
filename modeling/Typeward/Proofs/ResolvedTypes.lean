import Typeward.Proofs.LateReferences
import Typeward.Proofs.MeaningPreservation
import Typeward.Proofs.NamedSchemas

/-!
# Types that expressions are evaluated to

Where the names in a built expression stand for types, those that are needed at once where it is
evaluated and the others later, the expression is evaluated to the type that it stands for, but for
late references that are followed to what they stand for.
-/

namespace Typeward

open Registry Session

namespace TypeExpr

/-- An expression is used in another one when this is evaluated. What is behind a late reference, or
in a check against a class, is not. -/
inductive Uses (x : TypeExpr) : TypeExpr → Prop
  | self : Uses x x
  | field {shown e} (h : Uses x e) : Uses x (.field shown e)
  | call {c arguments shown options e} (hc : c ≠ .irreducible) (he : e ∈ arguments) (h : Uses x e) :
      Uses x (.call c arguments shown options)

/-- The names in an expression stand for what they are said to stand for: in one session those that
it uses, and later those that it refers to late. -/
structure Resolved (e : TypeExpr) (start later : Session) (n : Naming) : Prop where
  named : ∀ x, (TypeExpr.name x).Uses e →
    ∃ v, start.read x = some (.value v) ∧ start.IsModel v (n.type x)
  checked : ∀ x, (classCheck x).Uses e → start.Gives x (n.type x)
  deferred : ∀ x, (TypeExpr.deferred x).Uses e →
    ∃ v, later.read x = some (.value v) ∧ later.IsModel v (n.type x)
  delayed : ∀ x, (TypeExpr.delayed (classCheck x)).Uses e → later.Gives x (n.type x)
  predicates : ∀ q, (TypeExpr.predicate q).Uses e → start.read q = some (.value (n.predicate q))

variable {start later : Session} {n : Naming} {e : TypeExpr}

/-- What names stand for in an expression they stand for in its property. -/
theorem Resolved.field {shown : String} (h : (TypeExpr.field shown e).Resolved start later n) :
    e.Resolved start later n where
  named x hx := h.named x (.field hx)
  checked x hx := h.checked x (.field hx)
  deferred x hx := h.deferred x (.field hx)
  delayed x hx := h.delayed x (.field hx)
  predicates q hq := h.predicates q (.field hq)

/-- What names stand for in a call they stand for in its arguments. -/
theorem Resolved.argument {c : Combinator} {es : List TypeExpr} {shown : Option String}
    {options : List (String × Constant)} (h : (call c es shown options).Resolved start later n)
    (hc : c ≠ .irreducible) (he : e ∈ es) : e.Resolved start later n where
  named x hx := h.named x (.call hc he hx)
  checked x hx := h.checked x (.call hc he hx)
  deferred x hx := h.deferred x (.call hc he hx)
  delayed x hx := h.delayed x (.call hc he hx)
  predicates q hq := h.predicates q (.call hc he hq)

/-- An expression is rendered, and evaluated to a type that differs at most in late references from
the one that it stands for. -/
def Becomes (runtime : String) (start later : Session) (target : Nat → Schema) (Shows : Nat → Prop)
    (n : Naming) (e : TypeExpr) : Prop :=
  ∃ x, render runtime e = .ok x ∧
    x.Evaluates start (IsType later (·.StandsFor target Shows later.slots.size (e.schema n)))

/-- Where its names are resolved, an expression becomes the type that it stands for. -/
def Settles (runtime : String) (start later : Session) (target : Nat → Schema) (Shows : Nat → Prop)
    (n : Naming) (e : TypeExpr) : Prop :=
  e.Resolved start later n → e.Becomes runtime start later target Shows n

end TypeExpr

open TypeExpr

section Calls

variable {runtime : String} {start later : Session} {target : Nat → Schema} {Shows : Nat → Prop}
  {count : Nat} {n : Naming} {e e' : TypeExpr} {es : List TypeExpr} {shown : Option String}

/-- The types that expressions stand for, but for late references. -/
abbrev namedTypes (target : Nat → Schema) (Shows : Nat → Prop) (count : Nat) (n : Naming)
    (es : List TypeExpr) : List (Schema → Prop) :=
  es.map fun e => (·.StandsFor target Shows count (e.schema n))

/-- Types stand, one by one, for what expressions stand for. -/
theorem standsFor_of_namedTypes {ts : List Schema}
    (h : List.Forall₂ (fun R t => R t) (namedTypes target Shows count n es) ts) :
    List.Forall₂ (Schema.StandsFor target Shows count) ts (es.map (schema n)) := by
  rw [List.forall₂_map_left_iff] at h
  rw [List.forall₂_map_right_iff]
  exact h.flip

/-- Expressions are rendered and evaluated one by one. -/
theorem exists_renderedAll_becomes (h : ∀ e ∈ es, e.Becomes runtime start later target Shows n) :
    ∃ xs, RenderedAll runtime es xs ∧
      List.Forall₂ (fun R x => x.Evaluates start (IsType later R))
        (namedTypes target Shows later.slots.size n es) xs := by
  induction es with
  | nil => exact ⟨[], .nil, .nil⟩
  | cons e rest ih =>
    obtain ⟨x, hx, hevaluates⟩ := h e List.mem_cons_self
    obtain ⟨xs, hxs, hall⟩ := ih fun e he => h e (List.mem_cons_of_mem _ he)
    exact ⟨x :: xs, .cons hx hxs, .cons hevaluates hall⟩

variable (hlibrary : start.names.lookup runtime = some .library)

include hlibrary

/-- An optional type becomes what it stands for if its argument does. -/
theorem settles_maybe (h : e.Settles runtime start later target Shows n) :
    (call .maybe [e] shown []).Settles runtime start later target Shows n := by
  intro hresolved
  obtain ⟨x, hx, hevaluates⟩ := h (hresolved.argument nofun List.mem_cons_self)
  refine ⟨_, render_positional (by simp) rfl (.cons hx .nil), ?_⟩
  exact evaluates_maybe hlibrary hevaluates fun t ht => .of_parallel nofun nofun (.maybe ht)

/-- A list type becomes what it stands for if its argument does. -/
theorem settles_list {container : String} (h : e.Settles runtime start later target Shows n) :
    (call .list [e] shown (containerOptions container)).Settles runtime start later target Shows
      n := by
  intro hresolved
  obtain ⟨x, hx, hevaluates⟩ := h (hresolved.argument nofun List.mem_cons_self)
  refine ⟨_, render_positional (by simp) rfl (.cons hx .nil), ?_⟩
  rw [schema_list]
  exact evaluates_list hlibrary hevaluates fun t ht => .of_parallel nofun nofun (.list ht)

/-- A dictionary type becomes what it stands for if its arguments do. -/
theorem settles_dict (h : e.Settles runtime start later target Shows n)
    (h' : e'.Settles runtime start later target Shows n) :
    (call .dict [e, e'] shown []).Settles runtime start later target Shows n := by
  intro hresolved
  obtain ⟨x, hx, hevaluates⟩ := h (hresolved.argument nofun List.mem_cons_self)
  obtain ⟨y, hy, hevaluates'⟩ :=
    h' (hresolved.argument nofun (List.mem_cons_of_mem _ List.mem_cons_self))
  refine ⟨_, render_positional (by simp) rfl (.cons hx (.cons hy .nil)), ?_⟩
  exact evaluates_dict hlibrary hevaluates hevaluates' fun t u ht hu =>
    .of_parallel nofun nofun (.dict ht hu)

/-- A union becomes what it stands for if its members do. -/
theorem settles_union (h : ∀ e ∈ es, e.Settles runtime start later target Shows n) :
    (call .union es shown []).Settles runtime start later target Shows n := by
  intro hresolved
  obtain ⟨xs, hxs, hevaluates⟩ :=
    exists_renderedAll_becomes fun e he => h e he (hresolved.argument nofun he)
  refine ⟨_, render_listed (by simp) rfl hxs, ?_⟩
  refine evaluates_listed hlibrary rfl rfl (fun _ _ _ => rfl) (evaluates_listExpr hevaluates) ?_
  intro ts hts
  rw [schema_union]
  exact .of_parallel nofun nofun (.union (standsFor_of_namedTypes hts))

/-- An intersection becomes what it stands for if its members do. -/
theorem settles_intersection (h : ∀ e ∈ es, e.Settles runtime start later target Shows n) :
    (call .intersection es shown []).Settles runtime start later target Shows n := by
  intro hresolved
  obtain ⟨xs, hxs, hevaluates⟩ :=
    exists_renderedAll_becomes fun e he => h e he (hresolved.argument nofun he)
  refine ⟨_, render_listed (by simp) rfl hxs, ?_⟩
  refine evaluates_listed hlibrary rfl rfl (fun _ _ _ => rfl) (evaluates_listExpr hevaluates) ?_
  intro ts hts
  rw [schema_intersection]
  exact .of_parallel nofun nofun (.intersection (standsFor_of_namedTypes hts))

/-- A refinement becomes what it stands for if its base does. -/
theorem settles_refinement {q : String} (h : e.Settles runtime start later target Shows n) :
    (call .refinement [e, .predicate q] shown []).Settles runtime start later target Shows n := by
  intro hresolved
  obtain ⟨x, hx, hevaluates⟩ := h (hresolved.argument nofun List.mem_cons_self)
  have hq := hresolved.predicates q
    (.call nofun (List.mem_cons_of_mem _ List.mem_cons_self) .self)
  refine ⟨_, render_positional (by simp) rfl (.cons hx (.cons rfl .nil)), ?_⟩
  exact evaluates_refinement hlibrary hevaluates hq fun t ht =>
    .of_parallel nofun nofun (.refinement ht)

/-- The type of a value becomes what it stands for. -/
theorem settles_literal (c : Constant) :
    (call .literal [.constant c] shown []).Settles runtime start later target Shows n := by
  intro _
  refine ⟨_, render_positional (by simp) rfl (.cons rfl .nil), evaluates_literal hlibrary ?_⟩
  refine .refl (.intro (fun value _ h => ?_) nofun nofun)
  exact (Schema.literal.inj h).1 ▸ .constant c

/-- A tuple type becomes what it stands for if its elements do. -/
theorem settles_tuple {isVariadic : Bool}
    (h : ∀ e ∈ es, e.Settles runtime start later target Shows n) :
    (call .tuple es shown (lengthOptions isVariadic)).Settles runtime start later target Shows
      n := by
  intro hresolved
  obtain ⟨xs, hxs, hevaluates⟩ :=
    exists_renderedAll_becomes fun e he => h e he (hresolved.argument nofun he)
  refine ⟨_, render_listed (by simp) rfl hxs, ?_⟩
  rw [schema_tuple]
  refine evaluates_tuple hlibrary (evaluates_listExpr hevaluates) fun ts hts => ?_
  exact .of_parallel nofun nofun (.tuple (standsFor_of_namedTypes hts))

/-- A function type with any parameters becomes what it stands for if its result does. -/
theorem settles_anyFunction (h : e.Settles runtime start later target Shows n) :
    (call .func [e] shown [("any_params", .bool true)]).Settles runtime start later target Shows
      n := by
  intro hresolved
  obtain ⟨x, hx, hevaluates⟩ := h (hresolved.argument nofun List.mem_cons_self)
  refine ⟨_, render_anyFunction hx, ?_⟩
  exact evaluates_anyFunction hlibrary hevaluates fun t ht =>
    .of_parallel nofun nofun (.anyFunc ht)

/-- A function type becomes what it stands for if its parameters and its result do. -/
theorem settles_function (hparams : ∀ e ∈ es, e.Settles runtime start later target Shows n)
    (h : e.Settles runtime start later target Shows n) :
    (call .func (es ++ [e]) shown []).Settles runtime start later target Shows n := by
  intro hresolved
  obtain ⟨xs, hxs, hevaluates⟩ := exists_renderedAll_becomes fun e he =>
    hparams e he (hresolved.argument nofun (List.mem_append_left _ he))
  obtain ⟨x, hx, hevaluates'⟩ :=
    h (hresolved.argument nofun (List.mem_append_right _ List.mem_cons_self))
  refine ⟨_, render_function hxs hx, ?_⟩
  rw [schema_function]
  refine evaluates_function hlibrary (evaluates_listExpr hevaluates) hevaluates' ?_
  intro ts t hts ht
  exact .of_parallel nofun nofun (.func (standsFor_of_namedTypes hts) ht)

omit hlibrary in
/-- Types under names stand for the types under the same names. -/
theorem standsFor_zip {fields : List (String × TypeExpr)} {ts : List Schema}
    (h : List.Forall₂ (Schema.StandsFor target Shows count) ts
      (fields.map fun f => f.2.schema n)) :
    List.Forall₂ (fun p q : String × Schema => p.1 = q.1 ∧ p.2.StandsFor target Shows count q.2)
      ((fields.map (·.1)).zip ts) (fields.map fun f => (f.1, f.2.schema n)) := by
  induction fields generalizing ts with
  | nil =>
    obtain rfl := List.forall₂_nil_right_iff.1 h
    exact .nil
  | cons f rest ih =>
    obtain ⟨t, ts, ht, hrest, rfl⟩ := List.forall₂_cons_right_iff.1 h
    exact .cons ⟨rfl, ht⟩ (ih hrest)

/-- An interface whose properties have different names becomes what it stands for if these do. -/
theorem settles_interface {fields : List (String × TypeExpr)} (hnames : (fields.map (·.1)).Nodup)
    (h : ∀ f ∈ fields, f.2.Settles runtime start later target Shows n) :
    (call .interface (fields.map fun f => .field f.1 f.2) shown []).Settles runtime start later
      target Shows n := by
  intro hresolved
  have hfields : ∀ e ∈ fields.map (·.2), e.Becomes runtime start later target Shows n :=
    List.forall_mem_map.2 fun f hf =>
      h f hf (hresolved.argument nofun (List.mem_map_of_mem hf)).field
  obtain ⟨xs, hxs, hevaluates⟩ := exists_renderedAll_becomes hfields
  refine ⟨_, render_interface hxs, ?_⟩
  rw [schema_interface]
  refine evaluates_interface hlibrary (evaluates_properties hnames hevaluates) fun ts hts => ?_
  have hsame := standsFor_of_namedTypes hts
  rw [List.map_map] at hsame
  exact .of_parallel nofun nofun (.interface (standsFor_zip hsame))

end Calls

section Shapes

variable {runtime : String} {r : Registry} {start later : Session} {target : Nat → Schema}
  {Shows : Nat → Prop} {n : Naming}

/-- Where expressions can be evaluated: the library has its alias here and later, late references
are followed later to what they stand for, and names stand for types that make sense then. -/
structure Session.Opens (start later : Session) (runtime : String) (target : Nat → Schema)
    (Shows : Nat → Prop) (n : Naming) : Prop where
  started : (Session.start start.names).Extends start
  library : start.names.lookup runtime = some .library
  libraryLater : later.names.lookup runtime = some .library
  resolves : later.Resolves target
  grounded : ∀ x, (n.type x).Grounded (Value.Fit Shows) later.slots.size

/-- An expression that is evaluated to what a name stands for becomes that. -/
theorem Session.Opens.evaluates_named (h : start.Opens later runtime target Shows n) {x : String}
    {body : Expr} (hbody : body.EvaluatesTo start (n.type x)) :
    body.Evaluates start
      (IsType later (·.StandsFor target Shows later.slots.size (n.type x))) :=
  hbody.isType (.refl (h.grounded x))

/-- A late reference becomes what its expression is evaluated to later. -/
theorem Session.Opens.evaluates_late (h : start.Opens later runtime target Shows n) {x : String}
    {body : Expr} (hbody : body.EvaluatesTo later (n.type x)) :
    (lateExpr runtime body).Evaluates start
      (IsType later (·.StandsFor target Shows later.slots.size (n.type x))) := by
  refine evaluates_lateExpr h.library fun slot l hl hlbody => ?_
  have htarget : target slot = n.type x := by
    refine h.resolves.target_eq hl fun text => ?_
    rw [hlbody]
    exact (hbody text later (.refl later)).mono fun _ _ h => h.2
  obtain ⟨hslot, -⟩ := Array.getElem?_eq_some_iff.1 hl
  refine ⟨.left (htarget ▸ .refl _), .intro nofun ?_ nofun, h.grounded x⟩
  exact fun _ h => Schema.late.inj h ▸ hslot

/-- However a reference is built, it becomes what its name stands for. -/
theorem settles_of_lookup (h : start.Opens later runtime target Shows n) {x : String}
    {location : Option Location} {e : TypeExpr} (hlookup : r.lookup x location = .ok e) :
    e.Settles runtime start later target Shows n := by
  have hclass : render runtime (classCheck x) = .ok (callExpr (runtimeExpr runtime "irreducible")
      [dottedExpr x] (callKeywords none [])) := render_irreducible runtime x none
  have hcheck : (classCheck x).Settles runtime start later target Shows n := fun hresolved =>
    ⟨_, hclass, h.evaluates_named (evaluatesTo_classCheck h.library (hresolved.checked x .self))⟩
  obtain ⟨_, _, ⟨_, rfl⟩ | ⟨_, _, rfl⟩⟩ | ⟨_, ⟨_, _, ⟨_, rfl⟩ | ⟨_, rfl⟩⟩ | ⟨_, _, rfl⟩⟩ :=
    lookup_cases hlookup
  · intro hresolved
    obtain ⟨v, hread, hmodel⟩ := hresolved.named x .self
    exact ⟨_, rfl, h.evaluates_named (evaluatesTo_dottedExpr hread hmodel)⟩
  · intro hresolved
    obtain ⟨v, hread, hmodel⟩ := hresolved.deferred x .self
    exact ⟨_, rfl, h.evaluates_late (evaluatesTo_dottedExpr hread hmodel)⟩
  · intro hresolved
    have hlate := evaluatesTo_classCheck h.libraryLater (hresolved.delayed x .self)
    exact ⟨lateExpr runtime _, by rw [render, hclass]; rfl, h.evaluates_late hlate⟩
  · exact hcheck
  · exact hcheck

/-- A primitive type of the library becomes what it stands for. -/
theorem settles_primitive (h : start.Opens later runtime target Shows n) {name : String}
    {test : Test} (htest : primitives.lookup name = some test) :
    (TypeExpr.primitive name).Settles runtime start later target Shows n := by
  intro _
  refine ⟨_, rfl, (evaluatesTo_primitive h.started h.library htest).isType ?_⟩
  rw [schema_primitive htest]
  exact .refl (.of_parts nofun nofun nofun)

/-- The property of a field becomes what it stands for if the type of the field does. -/
theorem settles_namedProperty (hlibrary : start.names.lookup runtime = some .library)
    (f : RecordField StaticType) {s : Shape}
    (h : s.toExpr.Settles runtime start later target Shows n) :
    (namedProperty f s).2.Settles runtime start later target Shows n := by
  unfold namedProperty
  dsimp only
  split
  · exact settles_maybe hlibrary h
  · exact h

/-- A shape of which all expressions become what they stand for comes to one that does. -/
theorem Session.Opens.settles_toExpr (h : start.Opens later runtime target Shows n) {s : Shape}
    (hs : s.All (Settles runtime start later target Shows n)) :
    s.toExpr.Settles runtime start later target Shows n :=
  hs.toExpr (settles_primitive h rfl) (fun _ he => settles_maybe h.library he)
    fun _ hes => settles_union h.library hes

/-- Properties have the names of their fields. -/
theorem map_fst_namedProperty {fields : List (RecordField StaticType)} {shapes : List Shape}
    (hlength : fields.length = shapes.length) :
    (fields.zipWith namedProperty shapes).map (·.1) = fields.map (·.name) := by
  induction fields generalizing shapes with
  | nil => rfl
  | cons f rest ih =>
    obtain ⟨s, shapes, rfl⟩ := List.exists_cons_of_length_eq_add_one hlength.symm
    exact congrArg _ (ih (Nat.succ.inj hlength))

/-- The expressions of shapes become what they stand for if all expressions of the shapes do. -/
theorem Session.Opens.settles_map_toExpr (h : start.Opens later runtime target Shows n)
    {ts : List StaticType} {shapes : List Shape} (hlength : ts.length = shapes.length)
    (hts : ∀ t ∈ ts, t.WellFormed)
    (ih : ∀ p ∈ ts.zip shapes, p.1.WellFormed →
      p.2.All (Settles runtime start later target Shows n)) :
    ∀ e ∈ shapes.map Shape.toExpr, e.Settles runtime start later target Shows n := by
  refine List.forall_mem_map.2 fun s hs => ?_
  obtain ⟨t, ht, hall⟩ :=
    exists_mem_of_forall₂ (List.forall₂_iff_zip.2 ⟨hlength, fun hp => ih _ hp⟩) hs
  exact h.settles_toExpr (hall (hts t ht))

/-- The properties of a record become what they stand for if the types of its fields do. -/
theorem Session.Opens.settles_properties (h : start.Opens later runtime target Shows n)
    {fields : List (RecordField StaticType)} {shapes : List Shape}
    (hfields : ∀ p ∈ fields.zip shapes, p.2.All (Settles runtime start later target Shows n)) :
    ∀ f ∈ fields.zipWith namedProperty shapes, f.2.Settles runtime start later target Shows n := by
  induction fields generalizing shapes with
  | nil => exact nofun
  | cons f rest ih =>
    cases shapes with
    | nil => exact nofun
    | cons s shapes =>
      rw [List.zipWith_cons_cons, List.forall_mem_cons]
      rw [List.zip_cons_cons, List.forall_mem_cons] at hfields
      exact ⟨settles_namedProperty h.library f (h.settles_toExpr hfields.1), ih hfields.2⟩

/-- What a well-formed type is built to becomes what it stands for. -/
theorem Shaped.settles (h : start.Opens later runtime target Shows n) {t : StaticType} {s : Shape}
    (hshaped : Shaped r t s) :
    t.WellFormed → s.All (Settles runtime start later target Shows n) := by
  induction hshaped with
  | primitive hexported =>
    intro _
    obtain ⟨test, -, htest⟩ := exists_primitiveTest hexported
    exact settles_primitive h htest
  | literal value location => exact fun _ => settles_literal h.library value
  | generic shown location => exact fun _ => settles_primitive h rfl
  | reference hlookup => exact fun _ => settles_of_lookup h hlookup
  | nullable hinner ih =>
    intro ht e he
    rcases List.mem_append.1 he with he | he
    · exact (ih (ht.part List.mem_cons_self)).of_mem_toAlternatives he
    · simp at he
  | array helement ih =>
    intro ht
    exact settles_list h.library (h.settles_toExpr (ih (ht.part List.mem_cons_self)))
  | dict hkey hvalue ihkey ihvalue =>
    intro ht
    have hkeys := ihkey (ht.part List.mem_cons_self)
    have hvalues := ihvalue (ht.part (List.mem_cons_of_mem _ List.mem_cons_self))
    exact settles_dict h.library (h.settles_toExpr hkeys) (h.settles_toExpr hvalues)
  | @record fields shown location shapes hlength hfields ih =>
    intro ht
    have hnames : ((fields.zipWith namedProperty shapes).map (·.1)).Nodup :=
      map_fst_namedProperty hlength ▸ ht _ .self
    have hproperties := h.settles_properties fun p hp =>
      ih p hp (ht.part (List.mem_map_of_mem (List.of_mem_zip hp).1))
    rw [Shape.All, zipWith_propertyOf]
    exact settles_interface h.library hnames hproperties
  | @union members location shapes hlength hmembers ih =>
    intro ht e he
    obtain ⟨s, hs, he⟩ := List.mem_flatMap.1 he
    obtain ⟨t, hmem, hall⟩ := exists_mem_of_forall₂
      (List.forall₂_iff_zip.2 ⟨hlength, fun hp => ih _ hp⟩) hs
    exact (hall (ht.part hmem)).of_mem_toAlternatives he
  | intersection hmarker hlength hmembers ih =>
    intro ht
    exact settles_intersection h.library
      (h.settles_map_toExpr hlength (fun _ hmem => ht.part hmem) ih)
  | markedLeft hbase ih =>
    intro ht
    have hmem := ih (ht.part (List.mem_cons_of_mem _ List.mem_cons_self))
    exact settles_refinement h.library (h.settles_toExpr hmem)
  | markedRight hbase ih =>
    intro ht
    exact settles_refinement h.library (h.settles_toExpr (ih (ht.part List.mem_cons_self)))
  | anyFunction hresult ih =>
    intro ht
    exact settles_anyFunction h.library (h.settles_toExpr (ih (ht.part List.mem_cons_self)))
  | @function params result location shapes s hresult hlength hparams ihresult ih =>
    intro ht
    have hparts : ∀ t ∈ params, t.WellFormed := fun _ hmem =>
      ht.part (List.mem_append_left _ hmem)
    have hresultMem : result ∈ (StaticType.function (some params) result location).parts := by
      simp [StaticType.parts]
    exact settles_function h.library (h.settles_map_toExpr hlength hparts ih)
      (h.settles_toExpr (ihresult (ht.part hresultMem)))
  | tuple hlength helements ih =>
    intro ht
    exact settles_tuple h.library
      (h.settles_map_toExpr hlength (fun _ hmem => ht.part hmem) ih)

end Shapes

end Typeward
