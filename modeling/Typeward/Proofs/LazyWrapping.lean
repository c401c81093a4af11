import Typeward.Proofs.BlamedPlaces
import Typeward.Proofs.GuardedTypes
import Typeward.Proofs.LateReferences

/-!
# Late references around parts of types

A late reference around a part of a type, or around the whole of it, cannot be told from what it
stands for: the type has the same name and is of the same kind, so are the types that it is made of,
and a check finds the same mismatches, however often late references have been followed before. Only
a late reference that is used as a value shows whether it has been followed yet; so it must not be
among the values that are checked, nor among those of literals.
-/

namespace Typeward

/-- The kinds of the parts of a type. -/
def Inspection.partKinds (world : World) (v : Value) : Run (List String) := do
  let s ← settled world v
  let cx ← surroundings world
  s.components.mapM fun c => return (← cx.settled c).kind

/-- A type with late references around some of its parts, or around itself, each of which stands for
what it is around. -/
inductive Schema.Wraps (target : Nat → Schema) : Schema → Schema → Prop
  | parts {s s' R} (hparts : ∀ a b, R a b → Wraps target a b) (h : s.Parallel R s') :
      Wraps target s s'
  | late {s s' slot} (h : Wraps target s s') (hslot : target slot = s') :
      Wraps target s (.late slot)

/-- A type without any late references around it is one with them. -/
theorem Schema.Wraps.refl {target : Nat → Schema} (s : Schema) : s.Wraps target s := by
  induction s using Schema.induction_components with
  | h s ih => exact .parts (fun _ _ h => h) (.refl s ih)

/-- A type differs from what it is wrapped into in late references at most. -/
theorem Schema.Wraps.sameBehind {target : Nat → Schema} {s s' : Schema} (h : s.Wraps target s') :
    s.SameBehind target s' := by
  induction h with
  | parts _ h ih => exact .parts ih h
  | late _ hslot ih => exact .right (hslot ▸ ih)

/-- Where one step answers in a session with a property, so does another one, related, whichever
session with the property it is taken in. -/
def Follows {α β : Type} (I : Session → Prop) (R : α → β → Prop) (x : Run α) (y : Run β) : Prop :=
  ∀ s₁ s₂ s a, I s₁ → I s₂ → x.run s₁ = (.ok a, s) →
    I s ∧ Yields y s₂ fun b s' => I s' ∧ R a b

/-- Answers that are related follow one another. -/
theorem Follows.pure {α β : Type} {I : Session → Prop} {R : α → β → Prop} {a : α} {b : β}
    (h : R a b) : Follows I R (pure a) (pure b) := by
  rintro s₁ s₂ s a' hs₁ hs₂ ⟨⟩
  exact ⟨hs₁, .pure ⟨hs₂, h⟩⟩

/-- Steps follow steps if their beginnings and their ends do. -/
theorem Follows.bind {α β γ δ : Type} {I : Session → Prop} {Q : α → β → Prop} {R : γ → δ → Prop}
    {x : Run α} {y : Run β} {f : α → Run γ} {g : β → Run δ} (h : Follows I Q x y)
    (hnext : ∀ a b, Q a b → Follows I R (f a) (g b)) : Follows I R (x >>= f) (y >>= g) := by
  intro s₁ s₂ s c hs₁ hs₂ hc
  rcases hx : x.run s₁ with ⟨e | a, s₁'⟩
  · rw [run_bind_of_error hx] at hc
    cases hc
  · rw [run_bind_of_ok hx] at hc
    obtain ⟨hs₁', hy⟩ := h s₁ s₂ s₁' a hs₁ hs₂ hx
    refine ⟨?_, hy.bind fun b s₂' hb => (hnext a b hb.2 s₁' s₂' s c hs₁' hb.1 hc).2⟩
    obtain ⟨b, s₂', -, hs₂', hab⟩ := hy
    exact (hnext a b hab s₁' s₂' s c hs₁' hs₂' hc).1

/-- Two steps answer alike whenever they are taken: where one of them answers, so does the other
one. -/
structure Matches {α β : Type} (I : Session → Prop) (R : α → β → Prop) (x : Run α) (y : Run β) :
    Prop where
  forth : Follows I R x y
  back : Follows I (fun b a => R a b) y x

/-- Steps that follow one another answer alike if it does not matter which of the answers comes
first. -/
theorem Follows.matches {α : Type} {I : Session → Prop} {R : α → α → Prop} {x y : Run α}
    (h : Follows I R x y) (hback : Follows I R y x) (hsymm : ∀ a b, R a b → R b a) :
    Matches I R x y where
  forth := h
  back s₁ s₂ s b hs₁ hs₂ hb := by
    obtain ⟨hs, hy⟩ := hback s₁ s₂ s b hs₁ hs₂ hb
    exact ⟨hs, hy.mono fun a s' ha => ⟨ha.1, hsymm b a ha.2⟩⟩

/-- Steps answer the same for several things if they do for each of them. -/
theorem Lifting.mapM {m₁ m₂ : Type → Type} [Monad m₁] [Monad m₂] [MonadExceptOf Raised m₁]
    [MonadExceptOf Raised m₂] [LawfulMonad m₁] [LawfulMonad m₂] (L : Lifting m₁ m₂)
    {α β γ : Type} {f : α → m₁ γ} {g : β → m₂ γ} {as : List α} {bs : List β}
    (h : List.Forall₂ (fun a b => L.Rel (· = ·) (f a) (g b)) as bs) :
    L.Rel (· = ·) (as.mapM f) (bs.mapM g) := by
  induction h with
  | nil => exact L.pure rfl
  | cons h _ ih =>
    rw [List.mapM_cons, List.mapM_cons]
    exact L.bind h fun _ _ hc => L.bind ih fun _ _ hrest => L.pure (by rw [hc, hrest])

namespace Surroundings

variable {world : World} {target : Nat → Schema} {Shows : Nat → Prop} {count : Nat}

/-- The texts of runtime types, given the types by their numbers, where each late reference stands for
a type from the start. How a late reference itself is shown is left out. -/
def fixedText (world : World) (target : Nat → Schema) (models : Array Schema) (slotCount : Nat) :
    Nat → Nat → Except Raised String
  | 0, _ => throw .endless
  | fuel + 1, number =>
    match models[number]? with
    | some t => do
      let name ← (fixed world target slotCount
        (fixedText world target models slotCount fuel)).name t
      return "<" ++ t.className ++ " " ++ name ++ ">"
    | none => throw .noAttribute

/-- The runtime types that values may hold are no late references, and their literals hold such
types only. -/
def OnlyTypes (models : Array Schema) (Shows : Nat → Prop) (count : Nat) : Prop :=
  ∀ n, Shows n → ∃ t, models[n]? = some t ∧ (∀ slot, t ≠ .late slot) ∧
    t.Grounded (Value.Fit Shows) count

/-- More references may be followed, and more types shown in others, without a different text. -/
theorem passing_fixedText {models : Array Schema} (hshows : OnlyTypes models Shows count)
    (htargets : ∀ slot < count, (target slot).Grounded (Value.Fit Shows) count)
    {slotCount more fuel fuel' : Nat} (hslots : slotCount ≤ more) (hfuel : fuel ≤ fuel') :
    ∀ n, Shows n → passing.Same True (fixedText world target models slotCount fuel n)
      (fixedText world target models more fuel' n) := by
  induction fuel generalizing fuel' with
  | zero => exact fun _ _ _ h => nomatch h
  | succ fuel ih =>
    obtain ⟨fuel', rfl⟩ : ∃ k, fuel' = k + 1 := ⟨fuel' - 1, by omega⟩
    intro n hn
    obtain ⟨t, ht, -, hgrounded⟩ := hshows n hn
    have htext := ih (Nat.le_of_succ_le_succ hfuel)
    rw [fixedText, fixedText, ht]
    have hname : passing.Same True
        ((fixed world target slotCount (fixedText world target models slotCount fuel)).name t)
        ((fixed world target more (fixedText world target models more fuel')).name t) :=
      hgrounded.same_nameWith (fun _ hv => hv.same_textWith htext)
        (passing_lateName (fun _ _ => rfl) (fun _ _ => rfl) (fun _ hv => hv.same_textWith htext)
          htargets hslots)
    exact hname.map _

end Surroundings

namespace Session

open Surroundings

variable {world : World} {target : Nat → Schema} {Shows : Nat → Prop} {s s' : Session}

/-- A late reference is followed in a session as it is from the start, however values are shown. -/
theorem Settled.mirrored_resolve (h : s.Settled world target Shows) {slotCount : Nat}
    {text : Nat → Run String} {text' : Nat → Except Raised String} {slot : Nat}
    (hslot : slot < s.slots.size) :
    (mirrored (s.Checked target)).Rel (fun t u => t = u ∧ u = target slot)
      ((surroundingsWith world slotCount text).resolve slot)
      ((fixed world target slotCount text').resolve slot) :=
  mirrored_of_ensures ((h.ensures_findLate hslot).mono fun _ ht => ⟨ht, rfl⟩)

/-- A runtime type that is no late reference is shown in a session as it is without one. -/
theorem Settled.mirrored_modelText (h : s.Settled world target Shows)
    (hshows : OnlyTypes s.models Shows s.slots.size) (slotCount fuel : Nat) :
    ∀ n, Shows n → (mirrored (s.Checked target)).Same True (modelText world slotCount fuel n)
      (fixedText world target s.models slotCount fuel n) := by
  induction fuel with
  | zero => exact fun _ _ => (mirrored _).raise .endless
  | succ fuel ih =>
    intro n hn
    obtain ⟨t, ht, hlate, hgrounded⟩ := hshows n hn
    have hname : (mirrored (s.Checked target)).Same True
        ((surroundingsWith world slotCount (modelText world slotCount fuel)).name t)
        ((fixed world target slotCount (fixedText world target s.models slotCount fuel)).name t) :=
      hgrounded.same_nameWith (fun _ hv => hv.same_textWith ih)
        (same_lateName (fun _ hslot => h.mirrored_resolve hslot) (fun _ hv => hv.same_textWith ih)
          h.grounded slotCount)
    have hschema : Ensures (s.Checked target) (schemaOf (.model n)) (· = t) := fun s' hs' =>
      ⟨t, s', reads_schemaOf ⟨n, rfl, hs'.goesOn.kept.models n t ht⟩, hs', rfl⟩
    rw [modelText, fixedText, ht]
    refine (mirrored _).bind (y := .ok t) (Q := fun u u' => u = t ∧ u' = t)
      (g := fun t => do
        let name ← (fixed world target slotCount
          (fixedText world target s.models slotCount fuel)).name t
        return "<" ++ t.className ++ " " ++ name ++ ">")
      (mirrored_of_ensures (hschema.mono fun _ hu => ⟨hu, rfl⟩)) ?_
    rintro _ u ⟨hu, hu'⟩
    subst hu hu'
    cases u with
    | late slot => exact absurd rfl (hlate slot)
    | _ => exact hname.map _

/-- Runtime types that are no late references have texts that are shown now and later. -/
theorem Settled.exists_texts (h : s.Settled world target Shows)
    (hshows : OnlyTypes s.models Shows s.slots.size) :
    ∃ text : Nat → String, ∀ s', s.Checked target s' → ∀ n, Shows n →
      Ensures (s.Checked target) ((s'.checking world).modelText n) (· = text n) := by
  have hfirst : ∀ n, Shows n → ∃ text,
      fixedText world target s.models s.slots.size s.models.size n = .ok text := by
    intro n hn
    obtain ⟨a, s', ha, -⟩ := h.shows n hn s h.checked s h.checked
    obtain ⟨-, text, htext, -⟩ :=
      exists_of_mirrored (h.mirrored_modelText hshows s.slots.size s.models.size n hn) h.checked ha
    exact ⟨text, htext⟩
  choose text htext using hfirst
  classical
  refine ⟨fun n => if hn : Shows n then text n hn else "", fun s' hs' n hn => ?_⟩
  simp only [dif_pos hn]
  obtain ⟨again, hagain, heq⟩ := passing_fixedText hshows h.grounded hs'.goesOn.slots_size_le
    hs'.goesOn.models_size_le n hn _ (htext n hn)
  have hmirrored := h.mirrored_modelText hshows s'.slots.size s'.models.size n hn
  exact (ensures_of_mirrored hmirrored hagain).mono fun _ ha => (ha trivial).trans (heq trivial).symm

/-- The runtime types that values may hold have texts, now and later. -/
def Texts (s : Session) (world : World) (target : Nat → Schema) (Shows : Nat → Prop)
    (text : Nat → String) : Prop :=
  ∀ s', s.Checked target s' → ∀ n, Shows n →
    Ensures (s.Checked target) ((s'.checking world).modelText n) (· = text n)

section

variable {text : Nat → String} {s₁ : Session} {t : Schema} {v : Value}

/-- A value is shown in a session as the texts of types tell. -/
theorem Texts.mirrored_valueText (h : s.Texts world target Shows text) (hs₁ : s.Checked target s₁)
    (hv : v.Fit Shows) : (mirrored (s.Checked target)).Same True
      ((s₁.checking world).valueText v) ((told world target s₁.slots.size text).valueText v) :=
  hv.same_textWith fun n hn => mirrored_of_ensures ((h s₁ hs₁ n hn).mono fun _ ht _ => ht)

/-- Types have the same names in a session as without one. -/
theorem Settled.mirrored_name (h : s.Settled world target Shows)
    (htexts : s.Texts world target Shows text) (hs₁ : s.Checked target s₁)
    (ht : t.Grounded (Value.Fit Shows) s.slots.size) :
    (mirrored (s.Checked target)).Rel (· = ·) ((s₁.checking world).name t)
      ((told world target s₁.slots.size text).name t) := by
  refine (mirrored _).mono (fun _ _ hname => hname trivial) (ht.same_nameWith (P := True)
    (fun _ hv => htexts.mirrored_valueText hs₁ hv) ?_)
  exact same_lateName (fun _ hslot => h.mirrored_resolve hslot)
    (fun _ hv => htexts.mirrored_valueText hs₁ hv) h.grounded s₁.slots.size

/-- Late references are followed to the same type in a session as without one. -/
theorem Settled.mirrored_settle (h : s.Settled world target Shows) (fuel : Nat)
    (ht : t.Grounded (Value.Fit Shows) s.slots.size) :
    (mirrored (s.Checked target)).Rel (· = ·) ((s₁.checking world).settle fuel t)
      ((told world target s₁.slots.size text).settle fuel t) := by
  induction fuel generalizing t with
  | zero =>
    cases t with
    | late slot => exact (mirrored _).raise .endless
    | _ => exact (mirrored _).pure rfl
  | succ fuel ih =>
    cases t with
    | late slot =>
      refine (mirrored _).bind (h.mirrored_resolve ht.lt) ?_
      rintro u _ ⟨rfl, hu⟩
      exact ih (hu ▸ h.grounded slot ht.lt)
    | _ => exact (mirrored _).pure rfl

/-- A check runs alike in a session and without one, where types are shown as in the session. -/
theorem Settled.alike_told (h : s.Settled world target Shows)
    (htexts : s.Texts world target Shows text) (hs₁ : s.Checked target s₁) :
    Alike (mirrored (s.Checked target)) (s₁.checking world) (told world target s₁.slots.size text)
      (fun t v => t.Grounded (Value.Fit Shows) s.slots.size ∧ v.Fit Shows) (· = ·)
      fun _ _ _ _ => (· = ·) where
  world := rfl
  inherited := .of_parts (fun _ ht => ht.part) fun _ _ _ hv hstep => hstep.content.fit hv
  reject := by
    rintro t v q _ ⟨ht, hv⟩ rfl
    refine (mirrored _).bind (htexts.mirrored_valueText hs₁ hv) fun text _ htext => ?_
    refine (mirrored _).bind (h.mirrored_name htexts hs₁ ht) ?_
    rintro name _ rfl
    exact (mirrored _).pure (.cons (by rw [htext trivial]) .nil)
  part := by
    rintro t v checks ⟨step, type, value⟩ q _ ⟨-, hv⟩ hcourse hp rfl
    have hof := (Schema.mem_components_of_parts hcourse hp).2
    have hsame {g₁ g₂ : List String} (hg : g₁ = g₂) :
        q ++ g₁ = q ++ g₂ ∧ ∀ e₁ e₂ : Mismatch, e₁ = e₂ → e₁ = e₂ := ⟨by rw [hg], fun _ _ he => he⟩
    cases step with
    | none => exact (mirrored _).pure (hsame rfl)
    | some step =>
      cases (show v.StepsTo step value from hof) with
      | element | tuple | property => exact (mirrored _).pure (hsame rfl)
      | key hentries he =>
        have hk := (Value.StepsTo.key hentries he).content.fit hv
        refine (mirrored _).bind (htexts.mirrored_valueText hs₁ hk) fun _ _ htext => ?_
        exact (mirrored _).pure (hsame (by rw [htext trivial]))
      | entry hentries he =>
        have hk := (Value.StepsTo.key hentries he).content.fit hv
        refine (mirrored _).bind (hk.same_bareTextWith (P := True) fun n hn => ?_)
          fun _ _ htext => (mirrored _).pure (hsame (by rw [htext trivial]))
        exact mirrored_of_ensures ((htexts s₁ hs₁ n hn).mono fun _ ht _ => ht)
  base _ _ _ _ _ he := he

/-- A check finds the same in a session as without one. -/
theorem Settled.mirrored_errors (h : s.Settled world target Shows)
    (htexts : s.Texts world target Shows text) (hs₁ : s.Checked target s₁)
    (ht : t.Grounded (Value.Fit Shows) s.slots.size) (hv : v.Fit Shows) (path : List String) :
    (mirrored (s.Checked target)).Rel (· = ·) ((s₁.checking world).errors t v path)
      ((told world target s₁.slots.size text).errors t v path) := by
  have halike := h.alike_told htexts hs₁
  refine (mirrored _).mono (fun _ _ => List.forall₂_eq_eq_eq ▸ id) (halike.errorsWith
    (halike.lateErrors (fun slot x hon => ?_) _) t v path path ⟨ht, hv⟩ rfl)
  refine (mirrored _).mono ?_ (h.mirrored_resolve hon.1.lt)
  rintro u _ ⟨rfl, hu⟩
  exact ⟨rfl, ⟨hu ▸ h.grounded slot hon.1.lt, hon.2⟩, fun _ _ _ _ he => he⟩

/-- Steps that go together with such without a session, where these pass, follow one another. -/
theorem follows_of_told {α β : Type} {R : α → β → Prop} {f : Surroundings Run → Run α}
    {g : Surroundings Run → Run β} {d : Nat → Except Raised α} {e : Nat → Except Raised β}
    (hf : ∀ s₁, s.Checked target s₁ →
      (mirrored (s.Checked target)).Rel (· = ·) (f (s₁.checking world)) (d s₁.slots.size))
    (hg : ∀ s₁, s.Checked target s₁ →
      (mirrored (s.Checked target)).Rel (· = ·) (g (s₁.checking world)) (e s₁.slots.size))
    (h : ∀ n m, s.slots.size ≤ n → s.slots.size ≤ m → passing.Rel R (d n) (e m)) :
    Follows (s.Checked target) R (Typeward.surroundings world >>= f)
      (Typeward.surroundings world >>= g) := by
  intro s₁ s₂ s' a hs₁ hs₂ ha
  rw [(reads_surroundings s₁ world).run_bind] at ha
  obtain ⟨hs', _, ha', rfl⟩ := exists_of_mirrored (hf s₁ hs₁) hs₁ ha
  obtain ⟨b, hb, hab⟩ := h _ _ hs₁.goesOn.slots_size_le hs₂.goesOn.slots_size_le a ha'
  refine ⟨hs', (reads_surroundings s₂ world).yields_bind ?_⟩
  exact (ensures_of_mirrored (hg s₂ hs₂) hb s₂ hs₂).mono fun _ _ hsame => ⟨hsame.1, hsame.2 ▸ hab⟩

end

section SameBehind

variable {text : Nat → String} {t t' : Schema} {type type' v : Value}

/-- What is asked of two types is answered alike if it is so without a session. -/
theorem follows_of_types (text : Nat → String) {α : Type} {R : α → α → Prop}
    {f : Surroundings Run → Schema → Run α} {e : Surroundings (Except Raised) → Schema → Except Raised α}
    (hf : ∀ s₁, s.Checked target s₁ → ∀ u, u.Grounded (Value.Fit Shows) s.slots.size →
      (mirrored (s.Checked target)).Rel (· = ·) (f (s₁.checking world) u)
        (e (told world target s₁.slots.size text) u))
    (htype : s.IsModel type t) (htype' : s.IsModel type' t')
    (ht : t.Grounded (Value.Fit Shows) s.slots.size)
    (ht' : t'.Grounded (Value.Fit Shows) s.slots.size)
    (h : ∀ n m, s.slots.size ≤ n → s.slots.size ≤ m →
      passing.Rel R (e (told world target n text) t) (e (told world target m text) t')) :
    Follows (s.Checked target) R (do f (← Typeward.surroundings world) (← schemaOf type))
      (do f (← Typeward.surroundings world) (← schemaOf type')) := by
  have hasked {type : Value} {u : Schema} (htype : s.IsModel type u)
      (hu : u.Grounded (Value.Fit Shows) s.slots.size) (s₁ : Session) (hs₁ : s.Checked target s₁) :
      (mirrored (s.Checked target)).Rel (· = ·) (do f (s₁.checking world) (← schemaOf type))
        (e (told world target s₁.slots.size text) u) := by
    have hschema : Ensures (s.Checked target) (schemaOf type) (· = u) := fun s' hs' =>
      ⟨u, s', reads_schemaOf (htype.kept hs'.goesOn.kept), hs', rfl⟩
    refine (mirrored _).bind (Q := fun a _ => a = u) (y := .ok u)
      (g := fun _ => e (told world target s₁.slots.size text) u) (mirrored_of_ensures hschema) ?_
    rintro _ _ rfl
    exact hf s₁ hs₁ _ hu
  exact follows_of_told (f := fun cx => do f cx (← schemaOf type))
    (g := fun cx => do f cx (← schemaOf type')) (hasked htype ht) (hasked htype' ht') h

/-- Types that differ at most in late references have the same name. -/
theorem Settled.follows_name (h : s.Settled world target Shows)
    (htexts : s.Texts world target Shows text) (htype : s.IsModel type t)
    (htype' : s.IsModel type' t') (ht : t.Grounded (Value.Fit Shows) s.slots.size)
    (ht' : t'.Grounded (Value.Fit Shows) s.slots.size) (hsame : t.SameBehind target t') :
    Follows (s.Checked target) (· = ·) (Inspection.name world type)
      (Inspection.name world type') := by
  exact follows_of_types text (e := Surroundings.name)
    (fun s₁ hs₁ u hu => h.mirrored_name htexts hs₁ hu) htype htype' ht ht'
    fun n m _ hm => hsame.passing_name_among h.grounded hm ht ht'

/-- Behind types that differ at most in late references there are types of one form. -/
theorem Settled.follows_settled (h : s.Settled world target Shows)
    (htype : s.IsModel type t) (htype' : s.IsModel type' t')
    (ht : t.Grounded (Value.Fit Shows) s.slots.size)
    (ht' : t'.Grounded (Value.Fit Shows) s.slots.size) (hsame : t.SameBehind target t') :
    Follows (s.Checked target) (fun r r' => r.Grounded (Value.Fit Shows) s.slots.size ∧
        r'.Grounded (Value.Fit Shows) s.slots.size ∧ r.Parallel (Schema.SameBehind target) r')
      (Inspection.settled world type) (Inspection.settled world type') := by
  exact follows_of_types (fun _ => "") (e := Surroundings.settled)
    (fun s₁ hs₁ u hu => h.mirrored_settle s₁.slots.size hu) htype htype' ht ht'
    fun n m _ hm => hsame.passing_settled_among h.grounded hm ht ht'

/-- What is asked of the parts of types that differ at most in late references is answered alike. -/
theorem follows_mapM (text : Nat → String) {α : Type} {f : Surroundings Run → Schema → Run α}
    {e : Surroundings (Except Raised) → Schema → Except Raised α}
    (hf : ∀ s₁, s.Checked target s₁ → ∀ u, u.Grounded (Value.Fit Shows) s.slots.size →
      (mirrored (s.Checked target)).Rel (· = ·) (f (s₁.checking world) u)
        (e (told world target s₁.slots.size text) u))
    (ht : t.Grounded (Value.Fit Shows) s.slots.size)
    (ht' : t'.Grounded (Value.Fit Shows) s.slots.size) (hsame : t.Parallel (Schema.SameBehind target) t')
    (h : ∀ n m, s.slots.size ≤ n → s.slots.size ≤ m →
      ∀ u u', u.Grounded (Value.Fit Shows) s.slots.size →
        u'.Grounded (Value.Fit Shows) s.slots.size → u.SameBehind target u' →
        passing.Rel (· = ·) (e (told world target n text) u) (e (told world target m text) u')) :
    Follows (s.Checked target) (· = ·)
      (do t.components.mapM (f (← Typeward.surroundings world)))
      (do t'.components.mapM (f (← Typeward.surroundings world))) := by
  have hall {u : Schema} (hu : u.Grounded (Value.Fit Shows) s.slots.size) (s₁ : Session)
      (hs₁ : s.Checked target s₁) : (mirrored (s.Checked target)).Rel (· = ·)
        (u.components.mapM (f (s₁.checking world)))
        (u.components.mapM (e (told world target s₁.slots.size text))) :=
    (mirrored _).mapM (List.forall₂_same.2 fun c hc => hf s₁ hs₁ c (hu.part c hc))
  refine follows_of_told (f := fun cx => t.components.mapM (f cx))
    (g := fun cx => t'.components.mapM (f cx))
    (d := fun n => t.components.mapM (e (told world target n text)))
    (e := fun n => t'.components.mapM (e (told world target n text)))
    (hall ht) (hall ht') fun n m hn hm => ?_
  refine passing.mapM (hsame.mem.kind_components.2.imp fun u u' hu => ?_)
  exact h n m hn hm u u' (ht.part u hu.2.1) (ht'.part u' hu.2.2) hu.1

/-- Types that differ at most in late references are of the same kind, and their parts have the same
names. -/
theorem Settled.follows_parts (h : s.Settled world target Shows)
    (htexts : s.Texts world target Shows text) (htype : s.IsModel type t)
    (htype' : s.IsModel type' t') (ht : t.Grounded (Value.Fit Shows) s.slots.size)
    (ht' : t'.Grounded (Value.Fit Shows) s.slots.size) (hsame : t.SameBehind target t') :
    Follows (s.Checked target) (· = ·) (Inspection.parts world type)
      (Inspection.parts world type') := by
  refine (h.follows_settled htype htype' ht ht' hsame).bind fun r r' hr => ?_
  obtain ⟨hr, hr', hparallel⟩ := hr
  have hnames := follows_mapM text (f := Surroundings.name) (e := Surroundings.name)
    (fun s₁ hs₁ u hu => h.mirrored_name htexts hs₁ hu) hr hr' hparallel
    fun n m _ hm u u' hu hu' huu' => huu'.passing_name_among h.grounded hm hu hu'
  rw [← hparallel.kind_components.1]
  simp only [← bind_assoc]
  exact hnames.bind fun names names' hnames => .pure (by rw [hnames])

/-- Parts of types that differ at most in late references are of the same kinds. -/
theorem Settled.follows_partKinds (h : s.Settled world target Shows) (htype : s.IsModel type t)
    (htype' : s.IsModel type' t') (ht : t.Grounded (Value.Fit Shows) s.slots.size)
    (ht' : t'.Grounded (Value.Fit Shows) s.slots.size) (hsame : t.SameBehind target t') :
    Follows (s.Checked target) (· = ·) (Inspection.partKinds world type)
      (Inspection.partKinds world type') := by
  refine (h.follows_settled htype htype' ht ht' hsame).bind fun r r' hr => ?_
  obtain ⟨hr, hr', hparallel⟩ := hr
  refine follows_mapM (fun _ => "") (f := fun cx c => do return (← cx.settled c).kind)
    (e := fun cx c => do return (← cx.settled c).kind)
    (fun s₁ hs₁ u hu => (mirrored _).bind (h.mirrored_settle s₁.slots.size hu)
      fun _ _ hsame => (mirrored _).pure (by rw [hsame])) hr hr' hparallel
    fun n m _ hm u u' hu hu' huu' => ?_
  refine passing.bind (huu'.passing_settled_among h.grounded hm hu hu') fun a b hab => ?_
  exact passing.pure hab.2.2.kind_components.1

/-- A check against one of two types that differ at most in late references finds what a check
against the other one finds. -/
theorem Settled.follows_errors (h : s.Settled world target Shows)
    (htexts : s.Texts world target Shows text) (htype : s.IsModel type t)
    (htype' : s.IsModel type' t') (ht : t.Grounded (Value.Fit Shows) s.slots.size)
    (ht' : t'.Grounded (Value.Fit Shows) s.slots.size) (hsame : t.SameBehind target t')
    (hv : v.Fit Shows) (path : List String) :
    Follows (s.Checked target) (List.Forall₂ Mismatch.LooksLike)
      (Inspection.errors world type v path) (Inspection.errors world type' v path) := by
  refine follows_of_types text (f := fun cx t => cx.errors t v path)
    (e := fun cx t => cx.errors t v path)
    (fun s₁ hs₁ u hu => h.mirrored_errors htexts hs₁ hu hv path) htype htype' ht ht'
    fun n m hn hm found hfound => ?_
  exact hsame.passing_errorsWith h.grounded hm ht ht' hv (Nat.mul_le_mul_left _ hm) path found
    (errors_slots h.grounded hm ht hv hfound)

/-- A type accepts what one accepts that differs from it at most in late references. -/
theorem Settled.follows_accepts (h : s.Settled world target Shows)
    (htexts : s.Texts world target Shows text) (htype : s.IsModel type t)
    (htype' : s.IsModel type' t') (ht : t.Grounded (Value.Fit Shows) s.slots.size)
    (ht' : t'.Grounded (Value.Fit Shows) s.slots.size) (hsame : t.SameBehind target t')
    (hv : v.Fit Shows) :
    Follows (s.Checked target) (· = ·) (Inspection.accepts world type v)
      (Inspection.accepts world type' v) := by
  have haccepts (type : Value) : Inspection.accepts world type v =
      (do return (← Inspection.errors world type v []).isEmpty) := by
    simp only [Inspection.accepts, Inspection.errors, Surroundings.accepts, bind_assoc]
  rw [haccepts, haccepts]
  refine (h.follows_errors htexts htype htype' ht ht' hsame hv []).bind fun found found' hall => ?_
  exact .pure (by cases hall <;> rfl)

end SameBehind

/-- A type and one that it is wrapped into by late references cannot be told from each other: they
have the same name and are of the same kind, their parts have the same names and are of the same
kinds one by one, both accept the same values, and checks against them find mismatches that look the
same in the same order, whichever late references have been followed before. The types that values
hold are no late references themselves. -/
theorem lazy_wrapping_invisible (h : s.Settled world target Shows)
    (hshows : OnlyTypes s.models Shows s.slots.size) {type type' : Value} {t t' : Schema}
    (htype : s.IsModel type t) (htype' : s.IsModel type' t')
    (ht : t.Grounded (Value.Fit Shows) s.slots.size)
    (ht' : t'.Grounded (Value.Fit Shows) s.slots.size) (hwraps : t.Wraps target t') :
    Matches (s.Checked target) (· = ·) (Inspection.name world type)
      (Inspection.name world type') ∧
    Matches (s.Checked target) (· = ·) (Inspection.parts world type)
      (Inspection.parts world type') ∧
    Matches (s.Checked target) (· = ·) (Inspection.partKinds world type)
      (Inspection.partKinds world type') ∧
    ∀ v : Value, v.Fit Shows →
      Matches (s.Checked target) (· = ·) (Inspection.accepts world type v)
        (Inspection.accepts world type' v) ∧
      ∀ path, Matches (s.Checked target) (List.Forall₂ Mismatch.LooksLike)
        (Inspection.errors world type v path) (Inspection.errors world type' v path) := by
  obtain ⟨text, htexts⟩ := h.exists_texts hshows
  have hsame := hwraps.sameBehind
  have hback := hsame.symm
  refine ⟨?_, ?_, ?_, fun v hv => ⟨?_, fun path => ?_⟩⟩
  · exact (h.follows_name htexts htype htype' ht ht' hsame).matches
      (h.follows_name htexts htype' htype ht' ht hback) fun _ _ => Eq.symm
  · exact (h.follows_parts htexts htype htype' ht ht' hsame).matches
      (h.follows_parts htexts htype' htype ht' ht hback) fun _ _ => Eq.symm
  · exact (h.follows_partKinds htype htype' ht ht' hsame).matches
      (h.follows_partKinds htype' htype ht' ht hback) fun _ _ => Eq.symm
  · exact (h.follows_accepts htexts htype htype' ht ht' hsame hv).matches
      (h.follows_accepts htexts htype' htype ht' ht hback hv) fun _ _ => Eq.symm
  · exact (h.follows_errors htexts htype htype' ht ht' hsame hv path).matches
      (h.follows_errors htexts htype' htype ht' ht hback hv path)
      fun _ _ hall => hall.flip.imp fun _ _ he => he.symm

end Session

/-- Mappings to trees. -/
def forestSchema (tree : Schema) : Schema := .dict (.irreducible "Any" .anything) tree none

/-- A session with mappings to trees, and with mappings to what a late reference stands for. -/
def forestSession : Session := treeSession [forestSchema treeSchema, forestSchema (.late 0)]

/-- The session is settled, also where values hold the type of texts. -/
theorem forestSession_settled :
    forestSession.Settled Sample.world (fun _ => treeSchema) (· = 2) where
  toResolves := (treeSession_sound _).resolves
  grounded slot hslot := (treeSession_settled.grounded slot hslot).mono fun _ hv =>
    hv.mono fun _ => False.elim
  shows := by
    rintro n rfl s hs s' hs'
    obtain ⟨k, hk⟩ : ∃ k, s.models.size = k + 1 := ⟨s.models.size - 1, by
      have hle : 14 ≤ s.models.size := hs.goesOn.models_size_le
      omega⟩
    have hschema : Reads (schemaOf (.model 2)) s' (.irreducible "Str" .text) :=
      reads_schemaOf ⟨2, rfl, hs'.goesOn.kept.models 2 _ rfl⟩
    unfold Session.checking
    rw [hk]
    exact hschema.yields_bind (.pure ⟨hs', trivial⟩)

/-- The type of texts as a key of a number, which is no tree. -/
def typedKey : Value := .mapping false [(.model 2, .ofInt 1)]

/-- Whether the type of trees is referred to late cannot be seen when the number is checked. -/
theorem forest_wrapping_invisible : ∃ e s', (Inspection.errors Sample.world (.model 12) typedKey
      ["forest"]).run forestSession = (.ok [e], s') ∧
    e.path = ["forest", "<Irreducible Str>"] ∧ e.expectedName = "Tree" ∧
    Yields (Inspection.errors Sample.world (.model 13) typedKey ["forest"]) s'
      fun found _ => ∃ e', found = [e'] ∧ e.LooksLike e' := by
  obtain ⟨e, s', hrun, hpath, hname⟩ : ∃ e s', (Inspection.errors Sample.world (.model 12) typedKey
      ["forest"]).run forestSession = (.ok [e], s') ∧
      e.path = ["forest", "<Irreducible Str>"] ∧ e.expectedName = "Tree" := ⟨_, _, rfl, rfl, rfl⟩
  have htree : treeSchema.Grounded (Value.Fit (· = 2)) 1 :=
    forestSession_settled.grounded 0 Nat.zero_lt_one
  have hlate : (Schema.late 0).Grounded (Value.Fit (· = 2)) 1 :=
    .intro (by simp) (fun _ h => Schema.late.inj h ▸ Nat.zero_lt_one) (by simp [Schema.components])
  have hany : (Schema.irreducible "Any" .anything).Grounded (Value.Fit (· = 2)) 1 :=
    .of_parts (by simp) (by simp) (by simp [Schema.components])
  have hforest {tree : Schema} (h : tree.Grounded (Value.Fit (· = 2)) 1) :
      (forestSchema tree).Grounded (Value.Fit (· = 2)) 1 :=
    .of_parts (by simp [forestSchema]) (by simp [forestSchema])
      (by simpa [forestSchema, Schema.components] using ⟨hany, h⟩)
  have hshows : Surroundings.OnlyTypes forestSession.models (· = 2) forestSession.slots.size := by
    rintro _ rfl
    exact ⟨.irreducible "Str" .text, rfl, by simp, .of_parts (by simp) (by simp)
      (by simp [Schema.components])⟩
  have hwraps : (forestSchema treeSchema).Wraps (fun _ => treeSchema) (forestSchema (.late 0)) :=
    .parts (fun _ _ h => h) (.dict (.refl _) (.late (.refl _) rfl))
  have hfit : typedKey.Fit (· = 2) := .mapping (by simp [Value.Fit.model])
    (by simp [Value.ofInt, Value.Fit.constant])
  have hmodel : forestSession.IsModel (.model 12) (forestSchema treeSchema) := ⟨12, rfl, rfl⟩
  have hmodel' : forestSession.IsModel (.model 13) (forestSchema (.late 0)) := ⟨13, rfl, rfl⟩
  obtain ⟨-, -, -, hchecks⟩ := Session.lazy_wrapping_invisible forestSession_settled hshows hmodel
    hmodel' (hforest htree) (hforest hlate) hwraps
  have hforth := ((hchecks typedKey hfit).2 ["forest"]).forth
  have hstart := forestSession_settled.checked
  have hchecked := (hforth _ _ _ _ hstart hstart hrun).1
  refine ⟨e, s', hrun, hpath, hname, (hforth _ _ _ _ hstart hchecked hrun).2.mono ?_⟩
  rintro found _ ⟨-, hfound⟩
  obtain ⟨e', rest, hlooks, hrest, rfl⟩ := List.forall₂_cons_left_iff.1 hfound
  obtain rfl := List.forall₂_nil_left_iff.1 hrest
  exact ⟨e', rfl, hlooks⟩

/-- A late reference to the type of everything is used as a key. -/
def lateKeySession : Session where
  names := [("Anything", .value (.model 0))]
  models := (Session.start []).models ++ #[.late 0,
    .dict (.irreducible "Any" .anything) (.irreducible "Str" .text) none,
    .dict (.late 0) (.irreducible "Str" .text) none]
  slots := #[⟨.name .synthetic "Anything", none⟩]

/-- A late reference that is used as a value shows whether it has been followed: one check of it as a
key follows it, and the other one does not, so the paths to the same value differ. -/
theorem late_key_tells : lateKeySession.Resolves (fun _ => .irreducible "Any" .anything) ∧
    (Schema.dict (.irreducible "Any" .anything) (.irreducible "Str" .text) none).Wraps
      (fun _ => .irreducible "Any" .anything) (.dict (.late 0) (.irreducible "Str" .text) none) ∧
    ∃ e e' s s', (Inspection.errors Sample.world (.model 11) (.mapping false [(.model 10, .ofInt 1)])
        []).run lateKeySession = (.ok [e], s) ∧
      (Inspection.errors Sample.world (.model 12) (.mapping false [(.model 10, .ofInt 1)])
        []).run lateKeySession = (.ok [e'], s') ∧
      e.path = ["<Lazy (unresolved)>"] ∧ e'.path = ["<Lazy Any>"] := by
  refine ⟨Session.resolves_of_names fun slot l hl => ?_, ?_, _, _, _, _, rfl, rfl, rfl, rfl⟩
  · obtain rfl : slot = 0 := Nat.lt_one_iff.1 (Array.getElem?_eq_some_iff.1 hl).1
    obtain rfl := Option.some.inj hl
    exact ⟨rfl, "Anything", .model 0, rfl, rfl, 0, rfl, rfl⟩
  · exact .parts (fun _ _ h => h) (.dict (.late (.refl _) rfl) (.refl _))

end Typeward
