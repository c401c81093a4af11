import Typeward.Proofs.AlikeTexts
import Typeward.Proofs.PlainChecks
import Typeward.Proofs.SoundSessions

/-!
# Checks in sessions and without them

A check in a session follows late references, which changes the session. If each of them leads to one
type whenever it is followed, the check answers what the check without a session answers in which the
references stand for these types from the start, and raises what that one raises. Only texts may
differ: the runtime types that values hold are shown differently once they have been used.

With that, what holds of every check in a session is told: the place of a mismatch is reached from
the whole value by the steps that its path spells, and the expected type is part of the whole type.
-/

namespace Typeward

/-- A step of a session goes together with one without a session if from every session with a
property it leads to one with it, and answers or raises something just as the other one does, unless
it raises what is told. -/
def mirroredUnless (I : Session → Prop) (Told : Raised → Prop) : Lifting Run (Except Raised) where
  Rel R x y := ∀ s, I s → ∃ s', I s' ∧
    ((∃ e, Told e ∧ x.run s = (.error e, s')) ∨
      match y with
      | .ok b => ∃ a, x.run s = (.ok a, s') ∧ R a b
      | .error e => x.run s = (.error e, s'))
  pure {_ _ _ a _} h s hs := ⟨s, hs, .inr ⟨a, rfl, h⟩⟩
  bind {_ _ _ _ _ _ x y f g} h hnext := by
    intro s hs
    obtain ⟨s', hs', ⟨e, he, hrun⟩ | h⟩ := h s hs
    · exact ⟨s', hs', .inl ⟨e, he, run_bind_of_error hrun⟩⟩
    cases y with
    | error e => exact ⟨s', hs', .inr (run_bind_of_error h)⟩
    | ok b =>
      obtain ⟨a, ha, hab⟩ := h
      obtain ⟨s'', hs'', h⟩ := hnext a b hab s' hs'
      refine ⟨s'', hs'', ?_⟩
      rw [run_bind_of_ok ha]
      exact h
  mono {_ _ _ _ x y} hR h s hs := by
    obtain ⟨s', hs', h⟩ := h s hs
    refine ⟨s', hs', h.imp_right fun h => ?_⟩
    cases y with
    | error e => exact h
    | ok b =>
      obtain ⟨a, ha, hab⟩ := h
      exact ⟨a, ha, hR a b hab⟩
  raise _ s hs := ⟨s, hs, .inr rfl⟩

/-- A step of a session goes together with one without a session if from every session with a
property it leads to one with it, and answers or raises something just as the other one does. -/
abbrev mirrored (I : Session → Prop) : Lifting Run (Except Raised) := mirroredUnless I fun _ => False

variable {I : Session → Prop} {Told : Raised → Prop}

/-- A step answers something in some session with a property. -/
def Says {α : Type} (I : Session → Prop) (step : Run α) (a : α) : Prop :=
  ∃ s s', I s ∧ step.run s = (.ok a, s')

section Mirrored

variable {α β : Type} {R : α → β → Prop} {x : Run α} {y : Except Raised β} {b : β}

/-- What goes together is answered in some session. -/
theorem mirrored_said (h : (mirroredUnless I Told).Rel R x y) :
    (mirroredUnless I Told).Rel (fun a b => R a b ∧ Says I x a) x y := by
  intro s hs
  obtain ⟨s', hs', h⟩ := h s hs
  refine ⟨s', hs', h.imp_right fun h => ?_⟩
  cases y with
  | error e => exact h
  | ok b =>
    obtain ⟨a, ha, hab⟩ := h
    exact ⟨a, ha, hab, s, s', hs, ha⟩

/-- A step that ends goes together with one that answers. -/
theorem mirrored_of_ends (h : Ends I Told x (R · b)) : (mirroredUnless I Told).Rel R x (.ok b) := by
  intro s hs
  obtain ⟨s', hs', ⟨a, hab, ha⟩ | hraised⟩ := h.cases hs
  · exact ⟨s', hs', .inr ⟨a, ha, hab⟩⟩
  · exact ⟨s', hs', .inl hraised⟩

/-- A step that answers whenever it is taken goes together with one that answers. -/
theorem mirrored_of_ensures (h : Ensures I x (R · b)) : (mirroredUnless I Told).Rel R x (.ok b) :=
  mirrored_of_ends h.ends

/-- Where the step without a session answers, the other one answers whenever it is taken. -/
theorem ensures_of_mirrored (h : (mirrored I).Rel R x y) (hy : y = .ok b) :
    Ensures I x (R · b) := by
  subst hy
  intro s hs
  obtain ⟨s', hs', ⟨_, ⟨⟩, -⟩ | ⟨a, ha, hab⟩⟩ := h s hs
  exact ⟨a, s', ha, hs', hab⟩

/-- Where the step in a session answers, the other one does. -/
theorem exists_of_mirrored {s s' : Session} {a : α} (h : (mirroredUnless I Told).Rel R x y)
    (hs : I s) (ha : x.run s = (.ok a, s')) : I s' ∧ ∃ b, y = .ok b ∧ R a b := by
  obtain ⟨t, ht, ⟨e, -, he⟩ | h⟩ := h s hs
  · rw [ha] at he
    cases he
  cases y with
  | error e =>
    rw [ha] at h
    cases h
  | ok b =>
    obtain ⟨a', ha', hab⟩ := h
    rw [ha] at ha'
    obtain ⟨heq, rfl⟩ := Prod.mk.inj ha'
    obtain rfl := Except.ok.inj heq
    exact ⟨ht, b, rfl, hab⟩

end Mirrored

/-- How a step is written in a path: an element by its number, a key by its text, the value at a key
by the key, where a text stands for itself, a property by its name. -/
inductive Step.Spelled (cx : Surroundings Run) (I : Session → Prop) : Step → String → Prop
  | element (i : Nat) : Spelled cx I (.element i) (toString i)
  | key {k text} (h : Says I (cx.valueText k) text) : Spelled cx I (.key k) text
  | entry {k text} (h : Says I (k.bareTextWith cx.modelText) text) : Spelled cx I (.entry k) text
  | property (name : String) : Spelled cx I (.property name) name

/-- Steps from a value lead to another one, and are written so. -/
inductive Value.Reaches (Spelled : Step → String → Prop) : Value → List String → Value → Prop
  | here {v} : Reaches Spelled v [] v
  | step {v x w step segment path} (hstep : v.StepsTo step x) (hspelled : Spelled step segment)
      (hrest : Reaches Spelled x path w) : Reaches Spelled v (segment :: path) w

/-- Late references lead to one type each, whenever they are followed, and the runtime types that
values may hold can be shown, unless what is told is raised. -/
structure Surroundings.Settled (cx : Surroundings Run) (I : Session → Prop)
    (Told : Raised → Prop) (target : Nat → Schema) (slotCount : Nat) (Shows : Nat → Prop) :
    Prop where
  resolves : ∀ slot < slotCount, Ensures I (cx.resolve slot) (· = target slot)
  grounded : ∀ slot < slotCount, (target slot).Grounded (Value.Fit Shows) slotCount
  shows : ∀ n, Shows n → Finishes I Told (cx.modelText n)

namespace Surroundings

variable {cx : Surroundings Run} {target : Nat → Schema} {slotCount : Nat} {Shows : Nat → Prop}

/-- A mismatch in a session and one without go together: they are of the same value and type, and
the one in the session was found where its path tells. They are the same if values hold no runtime
types. -/
structure SameMismatch (cx : Surroundings Run) (I : Session → Prop) (target : Nat → Schema)
    (slotCount : Nat) (Shows : Nat → Prop) (s : Schema) (v : Value) (q₁ q₂ : List String)
    (e₁ e₂ : Mismatch) : Prop where
  value : e₁.value = e₂.value
  expected : e₁.expected = e₂.expected
  length : e₁.path.length = e₂.path.length
  same : (∀ n, ¬ Shows n) → e₁ = e₂
  reaches : ∃ q, e₁.path = q₁ ++ q ∧ v.Reaches (Step.Spelled cx I) q e₁.value
  part : e₁.expected.IsPartOf target s
  grounded : e₁.expected.Grounded (Value.Fit Shows) slotCount
  fit : e₁.value.Fit Shows

/-- Places where checks in a session and without one are: with the same number of segments, which are
the same if values hold no runtime types. -/
def SamePlace (Shows : Nat → Prop) (q₁ q₂ : List String) : Prop :=
  q₁.length = q₂.length ∧ ((∀ n, ¬ Shows n) → q₁ = q₂)

/-- A place is the same as itself. -/
theorem SamePlace.refl (q : List String) : SamePlace Shows q q := ⟨rfl, fun _ => rfl⟩

/-- A path that goes on alike leads to the same place. -/
theorem SamePlace.append {q₁ q₂ g₁ g₂ : List String} (h : SamePlace Shows q₁ q₂)
    (hg : SamePlace Shows g₁ g₂) : SamePlace Shows (q₁ ++ g₁) (q₂ ++ g₂) := by
  refine ⟨?_, fun hP => by rw [h.2 hP, hg.2 hP]⟩
  rw [List.length_append, List.length_append, h.1, hg.1]

/-- The text of a value is made in a session as it is without one. -/
theorem Settled.same_modelText (h : cx.Settled I Told target slotCount Shows) :
    ∀ n, Shows n → (mirroredUnless I Told).Same (∀ n, ¬ Shows n) (cx.modelText n) (.ok "") :=
  fun n hn => mirrored_of_ends ((h.shows n hn).mono fun _ _ hP => absurd hn (hP n))

/-- So is the name of a late reference. -/
theorem Settled.same_lateName (h : cx.Settled I Told target slotCount Shows) (fuel : Nat) :
    ∀ slot < slotCount, (mirroredUnless I Told).Same (∀ n, ¬ Shows n) (cx.lateName fuel slot)
      ((plain cx.world target cx.slotCount).lateName fuel slot) :=
  Surroundings.same_lateName
    (fun slot hslot => mirrored_of_ensures ((h.resolves slot hslot).mono fun _ ht => ⟨ht, rfl⟩))
    (fun _ hv => hv.same_textWith h.same_modelText) h.grounded fuel

/-- So is the name of a type. -/
theorem Settled.same_name (h : cx.Settled I Told target slotCount Shows) {s : Schema}
    (hs : s.Grounded (Value.Fit Shows) slotCount) :
    (mirroredUnless I Told).Same (∀ n, ¬ Shows n) (cx.name s)
      ((plain cx.world target cx.slotCount).name s) :=
  hs.same_nameWith (fun _ hv => hv.same_textWith h.same_modelText) (h.same_lateName cx.slotCount)

/-- A step is written in a session as it is without one. -/
theorem Settled.mirrored_segments (h : cx.Settled I Told target slotCount Shows) {v x : Value}
    {step : Step} (hstep : v.StepsTo step x) (hv : v.Fit Shows) :
    (mirroredUnless I Told).Rel (fun g₁ g₂ => SamePlace Shows g₁ g₂ ∧
        ∃ segment, g₁ = [segment] ∧ step.Spelled cx I segment)
      (cx.segments (some step)) ((plain cx.world target cx.slotCount).segments (some step)) := by
  cases hstep with
  | element | tuple => exact (mirroredUnless _ _).pure ⟨.refl _, _, rfl, .element _⟩
  | property => exact (mirroredUnless _ _).pure ⟨.refl _, _, rfl, .property _⟩
  | key hentries he =>
    have hk := (Value.StepsTo.key hentries he).content.fit hv
    refine (mirroredUnless _ _).bind (mirrored_said (hk.same_textWith h.same_modelText))
      fun a b hab => ?_
    exact (mirroredUnless _ _).pure ⟨⟨rfl, fun hP => by rw [hab.1 hP]⟩, a, rfl, .key hab.2⟩
  | entry hentries he =>
    have hk := (Value.StepsTo.key hentries he).content.fit hv
    refine (mirroredUnless _ _).bind (mirrored_said (hk.same_bareTextWith h.same_modelText))
      fun a b hab => ?_
    exact (mirroredUnless _ _).pure ⟨⟨rfl, fun hP => by rw [hab.1 hP]⟩, a, rfl, .entry hab.2⟩

/-- A check in a session runs like the one without a session. -/
theorem Settled.alike (h : cx.Settled I Told target slotCount Shows) :
    Alike (mirroredUnless I Told) cx (plain cx.world target cx.slotCount)
      (fun s v => s.Grounded (Value.Fit Shows) slotCount ∧ v.Fit Shows) (SamePlace Shows)
      (SameMismatch cx I target slotCount Shows) where
  world := rfl
  inherited := .of_parts (fun _ hs => hs.part) fun _ _ _ hv hstep => hstep.content.fit hv
  reject := by
    rintro s v q₁ q₂ ⟨hs, hv⟩ hplace
    refine (mirroredUnless _ _).bind (hv.same_textWith h.same_modelText) fun text₁ text₂ htext => ?_
    refine (mirroredUnless _ _).bind (h.same_name hs) fun name₁ name₂ hname => ?_
    refine (mirroredUnless _ _).pure (.cons ⟨rfl, rfl, hplace.1, fun hP => ?_, ?_, .self, hs, hv⟩ .nil)
    · rw [hplace.2 hP, htext hP, hname hP]
    · exact ⟨[], (List.append_nil _).symm, .here⟩
  part := by
    rintro s v checks ⟨step, type, value⟩ q₁ q₂ ⟨hs, hv⟩ hcourse hp hplace
    obtain ⟨hc, hof⟩ := Schema.mem_components_of_parts hcourse hp
    cases step with
    | none =>
      obtain rfl : value = v := hof
      refine (mirroredUnless _ _).pure ⟨hplace.append (.refl []), fun e₁ e₂ he => ?_⟩
      rw [List.append_nil, List.append_nil] at he
      exact { he with part := .component hc he.part }
    | some step =>
      refine (mirroredUnless _ _).mono ?_ (h.mirrored_segments hof hv)
      rintro _ g₂ ⟨hg, segment, rfl, hspelled⟩
      refine ⟨hplace.append hg, fun e₁ e₂ he => ?_⟩
      obtain ⟨q, hq, hreaches⟩ := he.reaches
      refine { he with part := .component hc he.part, reaches := ⟨segment :: q, ?_, ?_⟩ }
      · rw [hq, List.append_assoc, List.singleton_append]
      · exact .step hof hspelled hreaches
  base := by
    rintro s v base predicate hcourse q₁ q₂ e₁ e₂ he
    obtain ⟨shown, rfl⟩ := Schema.exists_eq_refinement hcourse
    exact { he with part := .component List.mem_cons_self he.part }

/-- A check in a session answers what the check without a session does, with any number of
references. -/
theorem Settled.mirrored_errorsWith (h : cx.Settled I Told target slotCount Shows) {s : Schema}
    {v : Value} (hs : s.Grounded (Value.Fit Shows) slotCount) (hv : v.Fit Shows) (fuel : Nat)
    {q₁ q₂ : List String} (hplace : SamePlace Shows q₁ q₂) :
    (mirroredUnless I Told).Rel (List.Forall₂ (SameMismatch cx I target slotCount Shows s v q₁ q₂))
      (cx.errorsWith (cx.lateErrors fuel) s v q₁)
      ((plain cx.world target cx.slotCount).errorsWith
        ((plain cx.world target cx.slotCount).lateErrors fuel) s v q₂) := by
  refine h.alike.errorsWith (h.alike.lateErrors (fun slot v hon => ?_) fuel) s v q₁ q₂ ⟨hs, hv⟩
    hplace
  refine mirrored_of_ensures ((h.resolves slot hon.1.lt).mono fun t ht => ?_)
  subst ht
  exact ⟨rfl, ⟨h.grounded slot hon.1.lt, hon.2⟩,
    fun q₁ q₂ e₁ e₂ he => { he with part := .late he.part }⟩

end Surroundings

end Typeward
