import Typeward.Proofs.Evaluations
import Typeward.Proofs.Meanings
import Typeward.Proofs.RuntimeMeanings
import Typeward.Proofs.SoundSessions

/-!
# Expressions that mean something

An expression is rendered and evaluated in one session, and the runtime type that it is evaluated to
is used in a later one. The environment gives the names in a type their meanings: those that are
looked up late have to mean something only by then. Each form of an expression means what it is made
of the meanings of its parts.
-/

namespace Typeward

open Registry

/-- A reference by a name is looked up late: the name is declared and not finished, or it is bound
below the code. -/
def Registry.isLate (r : Registry) (name : String) : Bool :=
  match r.get? name with
  | some entry => ! entry.isComplete
  | none => (r.binding? (rootOf name)).any r.isBoundLater

/-- A name gives a type in a session; a declared name has to stand for the type itself. -/
def Registry.Finds (r : Registry) (s : Session) (name : String) (t : Schema) : Prop :=
  s.Gives name t ∧
    (r.contains name = true → ∃ v, s.read name = some (.value v) ∧ s.IsModel v t)

/-- The surroundings of an expression of a type: the session that it is evaluated in, and a later one
in which the runtime type is used. The names in the type mean what they are said to mean. -/
structure Environment (runtime : String) (r : Registry) (μ : Meaning) (start later : Session)
    (target : Nat → Schema) (t : StaticType) : Prop where
  started : (Session.start start.names).Extends start
  library : start.names.lookup runtime = some .library
  libraryLater : later.names.lookup runtime = some .library
  sound : later.Sound μ.world target
  names : ∀ name arguments location, StaticType.Includes (.reference name arguments location) t →
    ∃ s, r.Finds (if r.isLate name then later else start) name s ∧
      (later.checking μ.world).Means (later.Checked target) target (μ.named name) s
  /-- Predicates are functions that answer for every value. -/
  predicates : ∀ name location, StaticType.Includes (.marker name location) t →
    ∃ f, start.read name = some (.value f) ∧
      ∀ v, μ.world.holds f v = .ok (μ.predicate name v)

/-- The environment of a type is one of its parts. -/
theorem Environment.part {runtime : String} {r : Registry} {μ : Meaning} {start later : Session}
    {target : Nat → Schema} {t c : StaticType} (h : Environment runtime r μ start later target t)
    (hc : c ∈ t.parts) : Environment runtime r μ start later target c where
  started := h.started
  library := h.library
  libraryLater := h.libraryLater
  sound := h.sound
  names name arguments location hname := h.names name arguments location (.part hc hname)
  predicates name location hname := h.predicates name location (.part hc hname)

section Realized

variable {runtime : String} {r : Registry} {μ : Meaning} {start later : Session}
  {target : Nat → Schema} {P Q : Value → Prop} {e : TypeExpr} {shown : Option String}

/-- In the later session, a runtime type means a set of values. -/
abbrev MeansLater (world : World) (later : Session) (target : Nat → Schema) (P : Value → Prop) :
    Schema → Prop :=
  (later.checking world).Means (later.Checked target) target P

/-- A value can occur in the later session. -/
abbrev FitsLater (world : World) (later : Session) (target : Nat → Schema) (v : Value) : Prop :=
  v.Fit ((later.checking world).Shows (later.Checked target))

/-- An expression is rendered to one that is evaluated to a runtime type that means a set of
values. -/
def TypeExpr.Realizes (runtime : String) (world : World) (start later : Session)
    (target : Nat → Schema) (P : Value → Prop) (e : TypeExpr) : Prop :=
  ∃ x, render runtime e = .ok x ∧
    x.Evaluates start (IsType later (MeansLater world later target P))

/-- Expressions that mean sets of values are rendered to ones that are evaluated to such types. -/
theorem exists_renderedAll_of_realizes {Ps : List (Value → Prop)} {es : List TypeExpr}
    (h : List.Forall₂ (TypeExpr.Realizes runtime μ.world start later target) Ps es) :
    ∃ xs, RenderedAll runtime es xs ∧ List.Forall₂ (fun R x => x.Evaluates start (IsType later R))
      (Ps.map (MeansLater μ.world later target)) xs := by
  induction h with
  | nil => exact ⟨[], .nil, .nil⟩
  | cons h hrest ih =>
    obtain ⟨x, hx, hmeans⟩ := h
    obtain ⟨xs, hxs, hall⟩ := ih
    exact ⟨x :: xs, .cons hx hxs, .cons hmeans hall⟩

/-- Types of each of which is known what it means, one by one. -/
theorem forall₂_means {Ps : List (Value → Prop)} {ts : List Schema}
    (h : List.Forall₂ (fun R t => R t) (Ps.map (MeansLater μ.world later target)) ts) :
    List.Forall₂ (MeansLater μ.world later target) Ps ts := by
  rwa [List.forall₂_map_left_iff] at h

namespace TypeExpr.Realizes

/-- What an expression means may be given in other words. -/
theorem congr (h : e.Realizes runtime μ.world start later target P)
    (hPQ : ∀ v, FitsLater μ.world later target v → (P v ↔ Q v)) :
    e.Realizes runtime μ.world start later target Q := by
  obtain ⟨x, hx, hmeans⟩ := h
  refine ⟨x, hx, hmeans.mono fun s o ⟨v, t, ho, hmodel, ht⟩ => ?_⟩
  exact ⟨v, t, ho, hmodel, fun hkept => (ht hkept).congr hPQ⟩

end TypeExpr.Realizes

section Calls

variable (hlibrary : start.names.lookup runtime = some .library)

include hlibrary

/-- An optional type means the absent value and what its type means. -/
theorem realizes_maybe (h : e.Realizes runtime μ.world start later target P) :
    (TypeExpr.call .maybe [e] shown []).Realizes runtime μ.world start later target
      (fun v => v.isAbsent = true ∨ P v) := by
  obtain ⟨x, hx, hmeans⟩ := h
  refine ⟨_, render_positional (by simp) rfl (.cons hx .nil), ?_⟩
  exact evaluates_maybe hlibrary hmeans fun t ht => Surroundings.means_maybe ht

/-- A list type means the containers of what the type of its elements means. -/
theorem realizes_list {container : String} (h : e.Realizes runtime μ.world start later target P)
    (hcontainer : container ∈ Schema.containers) :
    (TypeExpr.call .list [e] shown (containerOptions container)).Realizes runtime μ.world start
      later target (fun v => ∃ items, v.elementsIn container = .ok (some items) ∧
        ∀ x ∈ items, P x) := by
  obtain ⟨x, hx, hmeans⟩ := h
  refine ⟨_, render_positional (by simp) rfl (.cons hx .nil), ?_⟩
  exact evaluates_list hlibrary hmeans fun t ht => Surroundings.means_list ht hcontainer

/-- A dictionary type means the mappings of what its types mean. -/
theorem realizes_dict {e' : TypeExpr} (h : e.Realizes runtime μ.world start later target P)
    (h' : e'.Realizes runtime μ.world start later target Q) :
    (TypeExpr.call .dict [e, e'] shown []).Realizes runtime μ.world start later target
      (fun v => ∃ entries, v.entries? = some entries ∧
        (∀ e ∈ entries, P e.1) ∧ ∀ e ∈ entries, Q e.2) := by
  obtain ⟨x, hx, hmeans⟩ := h
  obtain ⟨y, hy, hmeans'⟩ := h'
  refine ⟨_, render_positional (by simp) rfl (.cons hx (.cons hy .nil)), ?_⟩
  exact evaluates_dict hlibrary hmeans hmeans' fun t u ht hu => Surroundings.means_dict ht hu

/-- An interface means the mappings whose properties are what their types mean. -/
theorem realizes_interface {fields : List (String × TypeExpr)} {Ps : List (Value → Prop)}
    (hnames : (fields.map (·.1)).Nodup)
    (h : List.Forall₂ (TypeExpr.Realizes runtime μ.world start later target) Ps
      (fields.map (·.2))) :
    (TypeExpr.call .interface (fields.map fun f => .field f.1 f.2) shown []).Realizes runtime
      μ.world start later target (fun v => ∃ entries, v.entries? = some entries ∧
        ∀ p ∈ (fields.map (·.1)).zip Ps, p.2 (Value.property entries p.1)) := by
  obtain ⟨xs, hxs, hmeans⟩ := exists_renderedAll_of_realizes h
  refine ⟨_, render_interface hxs, ?_⟩
  refine evaluates_interface hlibrary (evaluates_properties hnames hmeans) fun ts hts => ?_
  exact Surroundings.means_interface (forall₂_means hts)

/-- A union means what any of its members means. -/
theorem realizes_union {Ps : List (Value → Prop)} {es : List TypeExpr}
    (h : List.Forall₂ (TypeExpr.Realizes runtime μ.world start later target) Ps es) :
    (TypeExpr.call .union es shown []).Realizes runtime μ.world start later target
      (fun v => ∃ P ∈ Ps, P v) := by
  obtain ⟨xs, hxs, hmeans⟩ := exists_renderedAll_of_realizes h
  refine ⟨_, render_listed (by simp) rfl hxs, ?_⟩
  refine evaluates_listed hlibrary rfl rfl (fun _ _ _ => rfl) (evaluates_listExpr hmeans) ?_
  exact fun ts hts => Surroundings.means_union (forall₂_means hts)

/-- An intersection means what all of its members mean. -/
theorem realizes_intersection {Ps : List (Value → Prop)} {es : List TypeExpr}
    (h : List.Forall₂ (TypeExpr.Realizes runtime μ.world start later target) Ps es) :
    (TypeExpr.call .intersection es shown []).Realizes runtime μ.world start later target
      (fun v => ∀ P ∈ Ps, P v) := by
  obtain ⟨xs, hxs, hmeans⟩ := exists_renderedAll_of_realizes h
  refine ⟨_, render_listed (by simp) rfl hxs, ?_⟩
  refine evaluates_listed hlibrary rfl rfl (fun _ _ _ => rfl) (evaluates_listExpr hmeans) ?_
  exact fun ts hts => Surroundings.means_intersection (forall₂_means hts)

/-- A refinement means what its base means and its predicate holds of. -/
theorem realizes_refinement {name : String} {f : Value} {p : Value → Bool}
    (h : e.Realizes runtime μ.world start later target P) (hread : start.read name = some (.value f))
    (hp : ∀ v, μ.world.holds f v = .ok (p v)) :
    (TypeExpr.call .refinement [e, .predicate name] shown []).Realizes runtime μ.world start later
      target (fun v => P v ∧ p v = true) := by
  obtain ⟨x, hx, hmeans⟩ := h
  refine ⟨_, render_positional (by simp) rfl (.cons hx (.cons rfl .nil)), ?_⟩
  exact evaluates_refinement hlibrary hmeans hread fun t ht => Surroundings.means_refinement ht hp

/-- A literal type means the values like its value. -/
theorem realizes_literal (c : Constant) :
    (TypeExpr.call .literal [.constant c] shown []).Realizes runtime μ.world start later target
      (fun v => v.isSameLiteral (.constant c) = true) := by
  refine ⟨_, render_positional (by simp) rfl (.cons rfl .nil), ?_⟩
  exact evaluates_literal hlibrary (Surroundings.means_literal c)

/-- A variadic tuple type means the tuples of what the type of its elements means. -/
theorem realizes_repeated (h : e.Realizes runtime μ.world start later target P) :
    (TypeExpr.call .tuple [e] shown (lengthOptions true)).Realizes runtime μ.world start later
      target (fun v => ∃ items, v.tuple? = some items ∧ ∀ x ∈ items, P x) := by
  obtain ⟨xs, hxs, hmeans⟩ := exists_renderedAll_of_realizes (.cons h .nil)
  refine ⟨_, render_listed (by simp) rfl hxs, ?_⟩
  refine evaluates_tuple hlibrary (evaluates_listExpr hmeans) fun ts hts => ?_
  obtain ⟨t, ts, ht, hrest, rfl⟩ := List.forall₂_cons_left_iff.1 hts
  obtain rfl := List.forall₂_nil_left_iff.1 hrest
  exact Surroundings.means_repeated ht

/-- A tuple type of fixed length means the tuples of that length of what its types mean. -/
theorem realizes_tuple {Ps : List (Value → Prop)} {es : List TypeExpr}
    (h : List.Forall₂ (TypeExpr.Realizes runtime μ.world start later target) Ps es) :
    (TypeExpr.call .tuple es shown (lengthOptions false)).Realizes runtime μ.world start later
      target (fun v => ∃ items, v.tuple? = some items ∧ items.length = Ps.length ∧
        ∀ p ∈ Ps.zip items, p.1 p.2) := by
  obtain ⟨xs, hxs, hmeans⟩ := exists_renderedAll_of_realizes h
  refine ⟨_, render_listed (by simp) rfl hxs, ?_⟩
  refine evaluates_tuple hlibrary (evaluates_listExpr hmeans) fun ts hts => ?_
  exact Surroundings.means_tuple (forall₂_means hts)

/-- A function type with any parameters means what can be called. -/
theorem realizes_anyFunction (h : e.Realizes runtime μ.world start later target P) :
    (TypeExpr.call .func [e] shown [("any_params", .bool true)]).Realizes runtime μ.world start
      later target (fun v => μ.world.isCallable v = true) := by
  obtain ⟨x, hx, hmeans⟩ := h
  refine ⟨_, render_anyFunction hx, ?_⟩
  exact evaluates_anyFunction hlibrary hmeans fun t ht =>
    Surroundings.means_func (fun c hc => nomatch hc) ht.1

/-- A function type with given parameters means what can be called. -/
theorem realizes_function {Ps : List (Value → Prop)} {es : List TypeExpr}
    (hparams : List.Forall₂ (TypeExpr.Realizes runtime μ.world start later target) Ps es)
    (h : e.Realizes runtime μ.world start later target P) :
    (TypeExpr.call .func (es ++ [e]) shown []).Realizes runtime μ.world start later target
      (fun v => μ.world.isCallable v = true) := by
  obtain ⟨xs, hxs, hmeans⟩ := exists_renderedAll_of_realizes hparams
  obtain ⟨x, hx, hmeans'⟩ := h
  refine ⟨_, render_function hxs hx, ?_⟩
  refine evaluates_function hlibrary (evaluates_listExpr hmeans) hmeans' fun ts t hts ht => ?_
  exact Surroundings.means_func (Surroundings.covers_of_forall₂ (forall₂_means hts)) ht.1

/-- A primitive type means what passes its test. -/
theorem realizes_primitive {name : String} {test : Test}
    (hstart : (Session.start start.names).Extends start)
    (h : primitives.lookup name = some test) :
    (TypeExpr.primitive name).Realizes runtime μ.world start later target
      (fun v => test.accepts μ.world v = true) :=
  ⟨_, rfl, (evaluatesTo_primitive hstart hlibrary h).isType (Surroundings.means_irreducible _ _)⟩

end Calls

/-- A late reference means what the type means that its expression is evaluated to later. -/
theorem evaluates_late (hlibrary : start.names.lookup runtime = some .library)
    (hsound : later.Sound μ.world target) {body : Expr} {t : Schema}
    (hbody : body.EvaluatesTo later t) (ht : MeansLater μ.world later target P t) :
    (lateExpr runtime body).Evaluates start
      (IsType later (MeansLater μ.world later target P)) := by
  refine evaluates_lateExpr hlibrary fun slot l hl hlbody => ?_
  have htarget : target slot = t := by
    refine hsound.resolves.target_eq hl fun text => ?_
    rw [hlbody]
    exact (hbody text later (.refl later)).mono fun _ _ h => h.2
  exact Surroundings.means_late (Array.getElem?_eq_some_iff.1 hl).1 (htarget ▸ ht)

/-- A reference means what its name means. -/
theorem realizes_reference {name : String} {arguments : List StaticType}
    {location : Option Location}
    (henv : Environment runtime r μ start later target (.reference name arguments location))
    (h : r.lookup name location = .ok e) :
    e.Realizes runtime μ.world start later target (μ.named name) := by
  obtain ⟨t, ⟨hgives, hdeclared⟩, hmeans⟩ := henv.names name arguments location .self
  have hclass : render runtime (classCheck name) = .ok (callExpr (runtimeExpr runtime "irreducible")
      [dottedExpr name] (callKeywords none [])) := render_irreducible runtime name none
  obtain ⟨entry, hget, ⟨hcomplete, rfl⟩ | ⟨hcomplete, -, rfl⟩⟩ |
    ⟨hget, ⟨b, hb, ⟨hlater, rfl⟩ | ⟨hlater, rfl⟩⟩ | ⟨hb, -, rfl⟩⟩ := lookup_cases h
  · have hnow : r.isLate name = false := by simp [isLate, hget, hcomplete]
    simp only [hnow, Bool.false_eq_true, if_false] at hgives hdeclared
    obtain ⟨v, hread, hmodel⟩ := hdeclared (by simp [contains, hget])
    exact ⟨_, rfl, (evaluatesTo_dottedExpr hread hmodel).isType hmeans⟩
  · have hlate : r.isLate name = true := by simp [isLate, hget, hcomplete]
    simp only [hlate, if_true] at hgives hdeclared
    obtain ⟨v, hread, hmodel⟩ := hdeclared (by simp [contains, hget])
    exact ⟨_, rfl, evaluates_late henv.library henv.sound (evaluatesTo_dottedExpr hread hmodel)
      hmeans⟩
  · have hlate : r.isLate name = true := by simp [isLate, hget, hb, hlater]
    simp only [hlate, if_true] at hgives hdeclared
    refine ⟨lateExpr runtime _, by rw [render, hclass]; rfl, ?_⟩
    exact evaluates_late henv.library henv.sound
      (evaluatesTo_classCheck henv.libraryLater hgives) hmeans
  · have hnow : r.isLate name = false := by simp [isLate, hget, hb, hlater]
    simp only [hnow, Bool.false_eq_true, if_false] at hgives hdeclared
    exact ⟨_, hclass, (evaluatesTo_classCheck henv.library hgives).isType hmeans⟩
  · have hnow : r.isLate name = false := by simp [isLate, hget, hb]
    simp only [hnow, Bool.false_eq_true, if_false] at hgives hdeclared
    exact ⟨_, hclass, (evaluatesTo_classCheck henv.library hgives).isType hmeans⟩

end Realized

end Typeward
