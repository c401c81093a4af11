import Mathlib.Data.List.Forall2
import Typeward.Proofs.Steps
import Typeward.Render

/-!
# Sessions that go on

A session only grows while expressions are evaluated in it: models and slots are added, and those
that are there stay. The steps that make something, and those that only look something up.
-/

namespace Typeward

namespace Session

/-- What is in a session is still in another one: the models, and the late references, which may
have been followed since. -/
structure Kept (s s' : Session) : Prop where
  models : ∀ (number : Nat) (t : Schema), s.models[number]? = some t → s'.models[number]? = some t
  slots : ∀ (slot : Nat) (l : Slot), s.slots[slot]? = some l →
    ∃ l', s'.slots[slot]? = some l' ∧ l'.body = l.body

/-- A session goes on from another one with the same names. -/
structure Extends (s s' : Session) : Prop where
  names : s'.names = s.names
  kept : s.Kept s'

variable {s s' s'' : Session}

/-- A session keeps what is in it. -/
theorem Kept.refl (s : Session) : s.Kept s := ⟨fun _ _ h => h, fun _ l h => ⟨l, h, rfl⟩⟩

/-- What is kept twice is kept. -/
theorem Kept.trans (h : s.Kept s') (h' : s'.Kept s'') : s.Kept s'' := by
  refine ⟨fun number t ht => h'.models number t (h.models number t ht), fun slot l hl => ?_⟩
  obtain ⟨l', hl', hbody'⟩ := h.slots slot l hl
  obtain ⟨l'', hl'', hbody''⟩ := h'.slots slot l' hl'
  exact ⟨l'', hl'', hbody''.trans hbody'⟩

/-- A session goes on from itself. -/
theorem Extends.refl (s : Session) : s.Extends s := ⟨rfl, .refl s⟩

/-- Going on twice is going on. -/
theorem Extends.trans (h : s.Extends s') (h' : s'.Extends s'') : s.Extends s'' :=
  ⟨h'.names.trans h.names, h.kept.trans h'.kept⟩

/-- A session has at least as many slots as one that it has gone on from. -/
theorem Extends.slots_size_le (h : s.Extends s') : s.slots.size ≤ s'.slots.size := by
  by_contra hlt
  have hslot : s'.slots.size < s.slots.size := by omega
  obtain ⟨l, hl, -⟩ := h.kept.slots _ _ (Array.getElem?_eq_getElem hslot)
  rw [Array.getElem?_eq_none (Nat.le_refl _)] at hl
  cases hl

/-- A session has at least as many types as one that it has gone on from. -/
theorem Extends.models_size_le (h : s.Extends s') : s.models.size ≤ s'.models.size := by
  by_contra hlt
  have hnumber : s'.models.size < s.models.size := by omega
  have ht := h.kept.models _ _ (Array.getElem?_eq_getElem hnumber)
  rw [Array.getElem?_eq_none (Nat.le_refl _)] at ht
  cases ht

/-- A value is the model of a type. -/
def IsModel (s : Session) (v : Value) (t : Schema) : Prop :=
  ∃ number, v = .model number ∧ s.models[number]? = some t

/-- The model of a type stays that. -/
theorem IsModel.kept {v : Value} {t : Schema} (hv : s.IsModel v t) (h : s.Kept s') :
    s'.IsModel v t := by
  obtain ⟨number, rfl, ht⟩ := hv
  exact ⟨number, rfl, h.models number t ht⟩

/-- A model is that of one type. -/
theorem IsModel.unique {v : Value} {t u : Schema} (ht : s.IsModel v t) (hu : s.IsModel v u) :
    t = u := by
  obtain ⟨number, rfl, ht⟩ := ht
  obtain ⟨number', heq, hu⟩ := hu
  obtain rfl := Value.model.inj heq
  exact Option.some.inj (ht.symm.trans hu)

end Session

section Steps

variable {s : Session} {v : Value} {t : Schema}

/-- A type that is made has a model. -/
theorem yields_make (s : Session) (t : Schema) :
    Yields (make t) s fun v s' => s.Extends s' ∧ s'.IsModel v t := by
  refine (Reads.get s).yields_bind (.set_bind (.pure ?_))
  refine ⟨⟨rfl, fun number u hu => ?_, fun _ l hl => ⟨l, hl, rfl⟩⟩, s.models.size, rfl, ?_⟩
  · have hlt := (Array.getElem?_eq_some_iff.1 hu).1
    simpa [Array.getElem?_push, Nat.ne_of_lt hlt] using hu
  · simp

/-- A late reference that is made has a slot with its expression. -/
theorem yields_makeLate (s : Session) (body : Expr) :
    Yields (makeLate body) s fun v s' => s.Extends s' ∧
      ∃ (slot : Nat) (l : Slot), s'.IsModel v (.late slot) ∧ s'.slots[slot]? = some l ∧
        l.body = body := by
  refine (Reads.get s).yields_bind (.set_bind ?_)
  refine (yields_make _ _).mono fun v s' ⟨hextends, hmodel⟩ => ?_
  have hslots : s.Kept { s with slots := s.slots.push { body } } := by
    refine ⟨fun _ _ h => h, fun slot l hl => ⟨l, ?_, rfl⟩⟩
    have hlt := (Array.getElem?_eq_some_iff.1 hl).1
    simpa [Array.getElem?_push, Nat.ne_of_lt hlt] using hl
  obtain ⟨l, hl, hbody⟩ := hextends.kept.slots s.slots.size { body } (by simp)
  exact ⟨⟨hextends.names, hslots.trans hextends.kept⟩, s.slots.size, l, hmodel, hl, hbody⟩

/-- The type that a model is of is found. -/
theorem reads_schemaOf (h : s.IsModel v t) : Reads (schemaOf v) s t := by
  obtain ⟨number, rfl, ht⟩ := h
  refine (Reads.get s).bind ?_
  rw [ht]
  exact .pure t s

/-- The types that models are of are found. -/
theorem reads_schemasOf {vs : List Value} {ts : List Schema} (h : List.Forall₂ s.IsModel vs ts) :
    Reads (schemasOf vs) s ts := by
  unfold schemasOf
  induction h with
  | nil => exact .pure [] s
  | cons h hrest ih =>
    rw [List.mapM_cons]
    exact (reads_schemaOf h).bind (ih.bind (.pure _ s))

/-- The types that the values of properties are models of are found. -/
theorem reads_toProperties {names : List String} {vs : List Value} {ts : List Schema}
    (h : List.Forall₂ s.IsModel vs ts) :
    Reads (toProperties ((names.map Value.ofText).zip vs)) s (names.zip ts) := by
  induction h generalizing names with
  | nil => cases names <;> exact .pure [] s
  | cons h hrest ih =>
    cases names with
    | nil => exact .pure [] s
    | cons name names => exact (reads_schemaOf h).bind (ih.bind (.pure _ s))

end Steps

/-- What an object has under a name, if it has something. -/
def Object.member? (o : Object) (name : String) : Option Object :=
  match o with
  | .library => libraryMember? name
  | .package _ members => (members.lookup name).map .value
  | _ => none

/-- What a name with dots stands for, if it stands for something. -/
def Session.read (s : Session) (name : String) : Option Object :=
  match nameParts name with
  | [] => s.names.lookup name
  | first :: rest => rest.foldl (fun o part => o.bind (·.member? part)) (s.names.lookup first)

/-- A name gives a type: that which it stands for, or the one that the class becomes that it stands
for. -/
inductive Session.Gives (s : Session) (name : String) : Schema → Prop
  | ofType {v t} (hread : s.read name = some (.value v)) (hmodel : s.IsModel v t) : Gives s name t
  | ofClass {c} (hread : s.read name = some (.value (.ofClass c))) :
      Gives s name (.irreducible c.name c.test)

section Names

variable {s : Session} {text : Value → Run String} {o : Object}

/-- What a name is bound to is found. -/
theorem reads_lookupName {name : String} (h : s.names.lookup name = some o) :
    Reads (lookupName name) s o := by
  refine (Reads.get s).bind ?_
  rw [h]
  exact .pure o s

/-- What an object has is found. -/
theorem reads_attribute {m : Object} {name : String} (h : o.member? name = some m) :
    Reads (o.attribute name) s m := by
  unfold Object.member? at h
  split at h
  · unfold Object.attribute
    dsimp only
    rw [h]
    exact .pure m s
  · obtain ⟨v, hv, rfl⟩ := Option.map_eq_some_iff.1 h
    unfold Object.attribute
    dsimp only
    rw [hv]
    exact .pure _ s
  · simp at h

/-- What a name with dots stands for is found. -/
theorem reads_dottedExpr {name : String} (h : s.read name = some o) :
    Reads (evaluateWith text (dottedExpr name)) s o := by
  -- the chain of attributes is followed from a base that stands for something
  have hchain (rest : List String) : ∀ (base : Expr) (found : Option Object),
      (∀ b, found = some b → Reads (evaluateWith text base) s b) →
      rest.foldl (fun o part => o.bind (·.member? part)) found = some o →
      Reads (evaluateWith text (rest.foldl (.attribute .synthetic · ·) base)) s o := by
    induction rest with
    | nil => exact fun base found hbase hfound => hbase o hfound
    | cons part rest ih =>
      intro base found hbase hfound
      refine ih _ _ (fun m hm => ?_) hfound
      obtain ⟨b, rfl, hmember⟩ := Option.bind_eq_some_iff.1 hm
      rw [evaluateWith]
      exact (hbase b rfl).bind (reads_attribute hmember)
  unfold Session.read at h
  unfold dottedExpr
  cases hparts : nameParts name with
  | nil =>
    rw [hparts] at h
    rw [evaluateWith]
    exact reads_lookupName h
  | cons first rest =>
    rw [hparts] at h
    refine hchain rest _ _ (fun b hb => ?_) h
    rw [evaluateWith]
    exact reads_lookupName hb

/-- What the runtime library offers is found under its alias. -/
theorem reads_runtimeExpr {runtime name : String}
    (hruntime : s.names.lookup runtime = some .library) (h : libraryMember? name = some o) :
    Reads (evaluateWith text (runtimeExpr runtime name)) s o := by
  rw [runtimeExpr, evaluateWith, evaluateWith]
  exact (reads_lookupName hruntime).bind (reads_attribute h)

end Names

end Typeward
