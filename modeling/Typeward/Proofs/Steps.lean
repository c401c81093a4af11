import Typeward.Schema.Inspection

/-!
# Steps of a session that end well

A step of a session may raise something and may change the session. `Yields` says of one session
that a step answers there, and what holds then. `Ensures` says it of all sessions with a property
that the step keeps: this is how steps are treated that follow late references, each of which
changes the session, though not in any way that matters to the next. `Ends` leaves open whether the
step answers, and tells what it may raise instead.
-/

namespace Typeward

variable {α β : Type}

section Sequences

variable {x : Run α} {f : α → Run β} {s s' : Session}

/-- After a step that answers something, the next one is taken for the answer, from the session that
the former one ends in. -/
theorem run_bind_of_ok {a : α} (h : x.run s = (.ok a, s')) :
    (x >>= f).run s = (f a).run s' := by
  change ExceptT.bindCont f (x.run s).1 (x.run s).2 = _
  rw [h]
  rfl

/-- After a step that raises something, no other one is taken. -/
theorem run_bind_of_error {e : Raised} (h : x.run s = (.error e, s')) :
    (x >>= f).run s = (.error e, s') := by
  change ExceptT.bindCont f (x.run s).1 (x.run s).2 = _
  rw [h]
  rfl

end Sequences

/-- A step that is taken in a session answers something, and the answer and the session after it are
as told. -/
def Yields (step : Run α) (s : Session) (Q : α → Session → Prop) : Prop :=
  ∃ a s', step.run s = (.ok a, s') ∧ Q a s'

namespace Yields

variable {x : Run α} {f : α → Run β} {s : Session} {Q : α → Session → Prop}
  {R : β → Session → Prop}

/-- A step that changes nothing answers its result. -/
theorem pure {a : α} (h : Q a s) : Yields (pure a) s Q := ⟨a, s, rfl, h⟩

/-- A step yields what the steps that it is made of yield. -/
theorem bind (hx : Yields x s Q) (hf : ∀ a s', Q a s' → Yields (f a) s' R) :
    Yields (x >>= f) s R := by
  obtain ⟨a, s', hrun, hQ⟩ := hx
  obtain ⟨b, s'', hrun', hR⟩ := hf a s' hQ
  exact ⟨b, s'', (run_bind_of_ok hrun).trans hrun', hR⟩

/-- What is yielded may be told less exactly. -/
theorem mono {Q' : α → Session → Prop} (hx : Yields x s Q) (h : ∀ a s', Q a s' → Q' a s') :
    Yields x s Q' := by
  obtain ⟨a, s', hrun, hQ⟩ := hx
  exact ⟨a, s', hrun, h a s' hQ⟩

end Yields

/-- A step that is taken in a session answers something and leaves the session as it is. -/
def Reads (step : Run α) (s : Session) (a : α) : Prop := step.run s = (.ok a, s)

namespace Reads

variable {x : Run α} {f : α → Run β} {s : Session} {a : α} {b : β}

/-- The session can be asked for. -/
theorem get (s : Session) : Reads get s s := rfl

/-- A step that changes nothing answers its result. -/
theorem pure (a : α) (s : Session) : Reads (pure a) s a := rfl

/-- After a step that leaves the session as it is, the next one starts from the same. -/
theorem yields_bind {R : β → Session → Prop} (hx : Reads x s a) (hf : Yields (f a) s R) :
    Yields (x >>= f) s R := by
  refine Yields.bind (Q := fun c s' => c = a ∧ s' = s) ⟨a, s, hx, rfl, rfl⟩ ?_
  rintro c s' ⟨rfl, rfl⟩
  exact hf

/-- After a step that leaves the session as it is, the next one runs from the same. -/
theorem run_bind (hx : Reads x s a) : (x >>= f).run s = (f a).run s :=
  run_bind_of_ok hx

/-- Steps that leave the session as it is leave it together. -/
theorem bind (hx : Reads x s a) (hf : Reads (f a) s b) : Reads (x >>= f) s b := by
  obtain ⟨c, s', hrun, rfl, rfl⟩ :=
    hx.yields_bind (R := fun c s' => c = b ∧ s' = s) ⟨b, s, hf, rfl, rfl⟩
  exact hrun

end Reads

/-- After the session is replaced, the next step starts from the new one. -/
theorem Yields.set_bind {f : PUnit → Run β} {s s' : Session} {R : β → Session → Prop}
    (hf : Yields (f ⟨⟩) s' R) : Yields (set s' >>= f) s R := by
  refine Yields.bind (Q := fun _ t => t = s') ⟨⟨⟩, s', rfl, rfl⟩ ?_
  rintro _ _ rfl
  exact hf

/-- From every session with a property, a step ends in one with it. What it answers is as told, and
so is what it raises. -/
def Ends (I : Session → Prop) (Told : Raised → Prop) (step : Run α) (P : α → Prop) : Prop :=
  ∀ s, I s → I (step.run s).2 ∧ (∀ a, (step.run s).1 = .ok a → P a) ∧
    ∀ e, (step.run s).1 = .error e → Told e

/-- A step ends from every session with a property, whatever it answers. -/
abbrev Finishes (I : Session → Prop) (Told : Raised → Prop) (step : Run α) : Prop :=
  Ends I Told step fun _ => True

/-- From every session with a property, a step answers something and ends in one with it, and its
answer is as told. -/
def Ensures (I : Session → Prop) (step : Run α) (P : α → Prop) : Prop :=
  ∀ s, I s → Yields step s fun a s' => I s' ∧ P a

/-- A step answers something from every session with a property, and keeps it. -/
abbrev Succeeds (I : Session → Prop) (step : Run α) : Prop := Ensures I step fun _ => True

namespace Ends

variable {I : Session → Prop} {Told : Raised → Prop} {x : Run α} {f : α → Run β} {P : α → Prop}
  {R : β → Prop}

/-- A step that changes nothing answers its result. -/
theorem pure {a : α} (h : P a) : Ends I Told (pure a) P := by
  intro s hs
  refine ⟨hs, fun b hb => ?_, nofun⟩
  obtain rfl := Except.ok.inj hb
  exact h

/-- A step that raises what may be raised. -/
theorem throw {e : Raised} (h : Told e) : Ends I Told (throw e : Run α) P := by
  intro s hs
  refine ⟨hs, nofun, fun e' he => ?_⟩
  obtain rfl := Except.error.inj he
  exact h

/-- A step that only ever answers one thing answers that. -/
theorem of_reads {a : α} (h : ∀ s, Reads x s a) : Ends I Told x (· = a) := by
  intro s hs
  rw [show x.run s = (.ok a, s) from h s]
  refine ⟨hs, fun b hb => ?_, nofun⟩
  exact (Except.ok.inj hb).symm

/-- A step ends as the steps do that it is made of. -/
theorem bind (hx : Ends I Told x P) (hf : ∀ a, P a → Ends I Told (f a) R) :
    Ends I Told (x >>= f) R := by
  intro s hs
  obtain ⟨hs', hok, herror⟩ := hx s hs
  rcases hrun : x.run s with ⟨e | a, s'⟩
  · rw [hrun] at hs' herror
    rw [run_bind_of_error hrun]
    refine ⟨hs', nofun, fun e' he => ?_⟩
    obtain rfl := Except.error.inj he
    exact herror e rfl
  · rw [hrun] at hs' hok
    rw [run_bind_of_ok hrun]
    exact hf a (hok a rfl) s' hs'

/-- As `bind`, where the first answer does not matter. -/
theorem after (hx : Ends I Told x P) (hf : ∀ a, Ends I Told (f a) R) : Ends I Told (x >>= f) R :=
  hx.bind fun a _ => hf a

/-- What is answered may be told less exactly. -/
theorem mono {P' : α → Prop} (hx : Ends I Told x P) (h : ∀ a, P a → P' a) : Ends I Told x P' := by
  intro s hs
  obtain ⟨hs', hok, herror⟩ := hx s hs
  exact ⟨hs', fun a ha => h a (hok a ha), herror⟩

/-- It may be left open what is answered. -/
theorem anyhow (hx : Ends I Told x P) : Finishes I Told x := hx.mono fun _ _ => trivial

/-- What is made of an answer is made by a step that ends. -/
theorem map (hx : Ends I Told x P) (g : α → β) : Finishes I Told (do return g (← x)) :=
  hx.after fun _ => .pure trivial

/-- The session can be asked for. -/
theorem get : Ends I Told (get : Run Session) I := by
  intro s hs
  refine ⟨hs, fun t ht => ?_, nofun⟩
  obtain rfl := Except.ok.inj ht
  exact hs

/-- The session can be replaced by one with the property. -/
theorem set {s : Session} (hs : I s) : Finishes I Told (set s : Run PUnit) :=
  fun _ _ => ⟨hs, fun _ _ => trivial, fun _ he => nomatch he⟩

/-- The session can be changed if it keeps the property. -/
theorem modify {g : Session → Session} (hg : ∀ s, I s → I (g s)) :
    Finishes I Told (modify g : Run PUnit) :=
  fun s hs => ⟨hg s hs, fun _ _ => trivial, fun _ he => nomatch he⟩

/-- What is told of the answers for the members of a list is told of all answers. -/
theorem mapM {f : α → Run β} {l : List α} (hf : ∀ a ∈ l, Ends I Told (f a) R) :
    Ends I Told (l.mapM f) fun bs => bs.length = l.length ∧ ∀ b ∈ bs, R b := by
  induction l with
  | nil => exact .pure ⟨rfl, nofun⟩
  | cons a rest ih =>
    rw [List.mapM_cons]
    refine (hf a List.mem_cons_self).bind fun b hb => ?_
    refine (ih fun a ha => hf a (List.mem_cons_of_mem _ ha)).bind fun bs hbs => ?_
    exact .pure ⟨congrArg (· + 1) hbs.1, List.forall_mem_cons.2 ⟨hb, hbs.2⟩⟩

/-- A step that ends answers something or raises something, as told. -/
theorem cases (hx : Ends I Told x P) {s : Session} (hs : I s) :
    ∃ s', I s' ∧
      ((∃ a, P a ∧ x.run s = (.ok a, s')) ∨ ∃ e, Told e ∧ x.run s = (.error e, s')) := by
  obtain ⟨hs', hok, herror⟩ := hx s hs
  refine ⟨_, hs', ?_⟩
  cases hresult : (x.run s).1 with
  | ok a => exact .inl ⟨a, hok a hresult, Prod.ext hresult rfl⟩
  | error e => exact .inr ⟨e, herror e hresult, Prod.ext hresult rfl⟩

end Ends

namespace Ensures

variable {I : Session → Prop} {Told : Raised → Prop} {x : Run α} {P : α → Prop}

/-- What is ensured may be told less exactly. -/
theorem mono {P' : α → Prop} (hx : Ensures I x P) (h : ∀ a, P a → P' a) : Ensures I x P' := by
  intro s hs
  refine (hx s hs).mono fun a s' h' => ?_
  exact ⟨h'.1, h a h'.2⟩

/-- A step that answers whenever it is taken ends, whatever others may raise. -/
theorem ends (hx : Ensures I x P) : Ends I Told x P := by
  intro s hs
  obtain ⟨a, s', hrun, hs', ha⟩ := hx s hs
  rw [hrun]
  exact ⟨hs', fun b hb => Except.ok.inj hb ▸ ha, nofun⟩

end Ensures

end Typeward
