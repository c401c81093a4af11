import Typeward.Proofs.References
import Typeward.Proofs.ReliableChecks

/-!
# Runtime types that mean something

A runtime type means a set of values if it can be checked and shown and accepts just the values of
the set, among those that can occur. Each form of a type means what it is made of the meanings of
its parts.
-/

namespace Typeward

namespace Surroundings

/-- A runtime type accepts the values of a set, and can be checked and shown. -/
def Means (cx : Surroundings Run) (I : Session → Prop) (target : Nat → Schema) (P : Value → Prop)
    (s : Schema) : Prop :=
  cx.Covers I s ∧ ∀ v, v.Fit (cx.Shows I) → (s.Accepts cx.world target v ↔ P v)

section Forms

variable {cx : Surroundings Run} {I : Session → Prop} {target : Nat → Schema}
  {P Q : Value → Prop} {s t : Schema} {shown : Option String} {Ps : List (Value → Prop)}
  {ts : List Schema}

/-- A meaning may be given in other words. -/
theorem Means.congr (h : cx.Means I target P s) (hPQ : ∀ v, v.Fit (cx.Shows I) → (P v ↔ Q v)) :
    cx.Means I target Q s :=
  ⟨h.1, fun v hv => (h.2 v hv).trans (hPQ v hv)⟩

/-- Types that mean something can be checked and shown. -/
theorem covers_of_forall₂ (h : List.Forall₂ (cx.Means I target) Ps ts) :
    ∀ t ∈ ts, cx.Covers I t := by
  intro t ht
  obtain ⟨P, -, hP⟩ := exists_mem_of_forall₂ h ht
  exact hP.1

/-- An irreducible type means what passes its test. -/
theorem means_irreducible (name : String) (test : Test) :
    cx.Means I target (fun v => test.accepts cx.world v = true) (.irreducible name test) :=
  ⟨.intro trivial (by simp [Schema.components]), fun _ _ => Schema.accepts_irreducible⟩

/-- A literal type means the values like its value. -/
theorem means_literal (c : Constant) :
    cx.Means I target (fun v => v.isSameLiteral (.constant c) = true)
      (.literal (.constant c) shown) :=
  ⟨.intro (.constant c) (by simp [Schema.components]), fun _ _ => Schema.accepts_literal⟩

/-- An optional type means the absent value and what its type means. -/
theorem means_maybe (h : cx.Means I target P s) :
    cx.Means I target (fun v => v.isAbsent = true ∨ P v) (.maybe s shown) := by
  refine ⟨.intro trivial (by simpa [Schema.components] using h.1), fun v hv => ?_⟩
  rw [Schema.accepts_maybe, h.2 v hv]

/-- A list type means the containers of what the type of its elements means. -/
theorem means_list {container : String} (h : cx.Means I target P s)
    (hcontainer : container ∈ Schema.containers) :
    cx.Means I target (fun v => ∃ items, v.elementsIn container = .ok (some items) ∧
      ∀ x ∈ items, P x) (.list s container shown) := by
  refine ⟨.intro hcontainer (by simpa [Schema.components] using h.1), fun v hv => ?_⟩
  rw [Schema.accepts_list]
  refine exists_congr fun items => and_congr_right fun hitems => forall₂_congr fun x hx => ?_
  exact h.2 x ((Value.content_of_elementsIn hitems x hx).fit hv)

/-- A dictionary type means the mappings of what its types mean. -/
theorem means_dict (hkey : cx.Means I target P s) (hvalue : cx.Means I target Q t) :
    cx.Means I target (fun v => ∃ entries, v.entries? = some entries ∧
      (∀ e ∈ entries, P e.1) ∧ ∀ e ∈ entries, Q e.2) (.dict s t shown) := by
  refine ⟨.intro trivial (by simpa [Schema.components] using ⟨hkey.1, hvalue.1⟩), fun v hv => ?_⟩
  rw [Schema.accepts_dict]
  refine exists_congr fun entries => and_congr_right fun hentries => ?_
  obtain ⟨isReadOnly, hplain⟩ := Value.exists_eq_mapping hentries
  refine and_congr (forall₂_congr fun e he => ?_) (forall₂_congr fun e he => ?_)
  · exact hkey.2 e.1 ((Value.Content.key hplain he).fit hv)
  · exact hvalue.2 e.2 ((Value.Content.entry hplain he).fit hv)

/-- An interface means the mappings whose properties are what their types mean. -/
theorem means_interface {names : List String} (h : List.Forall₂ (cx.Means I target) Ps ts) :
    cx.Means I target (fun v => ∃ entries, v.entries? = some entries ∧
      ∀ p ∈ names.zip Ps, p.2 (Value.property entries p.1)) (.interface (names.zip ts) shown) := by
  have hparts : ∀ c ∈ (Schema.interface (names.zip ts) shown).components, cx.Covers I c := by
    intro c hc
    obtain ⟨p, hp, rfl⟩ := List.mem_map.1 hc
    exact covers_of_forall₂ h p.2 (List.of_mem_zip hp).2
  refine ⟨.intro trivial hparts, fun v hv => ?_⟩
  rw [Schema.accepts_interface]
  refine exists_congr fun entries => and_congr_right fun hentries => ?_
  clear hparts
  induction h generalizing names with
  | nil => simp
  | @cons P t Ps ts hmeans hrest ih =>
    cases names with
    | nil => simp
    | cons name names =>
      rw [List.zip_cons_cons, List.zip_cons_cons, List.forall_mem_cons, List.forall_mem_cons,
        ih, hmeans.2 _ ((Value.content_of_property hentries name).fit hv)]

/-- A union means what any of its members means. -/
theorem means_union (h : List.Forall₂ (cx.Means I target) Ps ts) :
    cx.Means I target (fun v => ∃ P ∈ Ps, P v) (.union ts shown) := by
  refine ⟨.intro trivial (covers_of_forall₂ h), fun v hv => ?_⟩
  rw [Schema.accepts_union]
  exact exists_mem_iff_of_forall₂ h fun P t hmeans => hmeans.2 v hv

/-- An intersection means what all of its members mean. -/
theorem means_intersection (h : List.Forall₂ (cx.Means I target) Ps ts) :
    cx.Means I target (fun v => ∀ P ∈ Ps, P v) (.intersection ts shown) := by
  refine ⟨.intro trivial (covers_of_forall₂ h), fun v hv => ?_⟩
  rw [Schema.accepts_intersection]
  dsimp only
  induction h with
  | nil => simp
  | cons hmeans hrest ih => rw [List.forall_mem_cons, List.forall_mem_cons, ih, hmeans.2 v hv]

/-- A refinement means what its base means and its predicate holds of. -/
theorem means_refinement {predicate : Value} {p : Value → Bool} (h : cx.Means I target P s)
    (hp : ∀ v, cx.world.holds predicate v = .ok (p v)) :
    cx.Means I target (fun v => P v ∧ p v = true) (.refinement s predicate shown) := by
  refine ⟨.intro (fun v => ⟨p v, hp v⟩) (by simpa [Schema.components] using h.1), fun v hv => ?_⟩
  rw [Schema.accepts_refinement, h.2 v hv, hp v, Except.ok.injEq]

/-- A variadic tuple type means the tuples of what the type of its elements means. -/
theorem means_repeated (h : cx.Means I target P s) :
    cx.Means I target (fun v => ∃ items, v.tuple? = some items ∧ ∀ x ∈ items, P x)
      (.tuple [s] true shown) := by
  refine ⟨.intro (fun _ => List.cons_ne_nil s []) (by simpa [Schema.components] using h.1),
    fun v hv => ?_⟩
  rw [Schema.accepts_repeated]
  refine exists_congr fun items => and_congr_right fun hitems => forall₂_congr fun x hx => ?_
  exact h.2 x ((Value.content_of_tuple hitems x hx).fit hv)

/-- A tuple type of fixed length means the tuples of that length of what its types mean. -/
theorem means_tuple (h : List.Forall₂ (cx.Means I target) Ps ts) :
    cx.Means I target (fun v => ∃ items, v.tuple? = some items ∧ items.length = Ps.length ∧
      ∀ p ∈ Ps.zip items, p.1 p.2) (.tuple ts false shown) := by
  refine ⟨.intro nofun (covers_of_forall₂ h), fun v hv => ?_⟩
  rw [Schema.accepts_tuple, h.length_eq]
  refine exists_congr fun items => and_congr_right fun hitems => and_congr_right fun hlength => ?_
  have hmem := fun x hx => (Value.content_of_tuple hitems x hx).fit hv
  clear hitems hlength
  induction h generalizing items with
  | nil => simp
  | @cons P t Ps ts hmeans hrest ih =>
    cases items with
    | nil => simp
    | cons x items =>
      rw [List.zip_cons_cons, List.zip_cons_cons, List.forall_mem_cons, List.forall_mem_cons]
      refine and_congr (hmeans.2 x (hmem x List.mem_cons_self)) ?_
      exact ih items fun y hy => hmem y (List.mem_cons_of_mem _ hy)

/-- A function type means what can be called. -/
theorem means_func {params : Option (List Schema)} (hparams : ∀ c ∈ params.getD [], cx.Covers I c)
    (hresult : cx.Covers I s) :
    cx.Means I target (fun v => cx.world.isCallable v = true) (.func params s shown) := by
  refine ⟨.intro trivial fun c hc => ?_, fun _ _ => Schema.accepts_func⟩
  rcases List.mem_append.1 hc with hc | hc
  · exact hparams c hc
  · rwa [List.mem_singleton.1 hc]

/-- A late reference means what its type means. -/
theorem means_late {slot : Nat} (hslot : slot < cx.slotCount)
    (h : cx.Means I target P (target slot)) : cx.Means I target P (.late slot) := by
  refine ⟨.intro hslot (by simp [Schema.components]), fun v hv => ?_⟩
  rw [Schema.accepts_late, h.2 v hv]

end Forms

end Surroundings

end Typeward
