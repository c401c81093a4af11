import Typeward.Proofs.Courses

/-!
# Checks that run alike

One check can be run in two ways: from two places, with more or fewer references that may be
followed, in a session that changes or without one. If each step of the one run goes with a step of
the other, so do the runs. What it means that steps go together is left open: a `Lifting` says it of
steps, given what it means for their answers.
-/

namespace Typeward

/-- When two steps go together, given which answers do. -/
structure Lifting (m₁ m₂ : Type → Type) [Monad m₁] [Monad m₂] [MonadExceptOf Raised m₁]
    [MonadExceptOf Raised m₂] where
  Rel {α β : Type} : (α → β → Prop) → m₁ α → m₂ β → Prop
  pure {α β : Type} {R : α → β → Prop} {a : α} {b : β} : R a b → Rel R (pure a) (pure b)
  bind {α β γ δ : Type} {Q : α → β → Prop} {R : γ → δ → Prop} {x : m₁ α} {y : m₂ β}
    {f : α → m₁ γ} {g : β → m₂ δ} :
    Rel Q x y → (∀ a b, Q a b → Rel R (f a) (g b)) → Rel R (x >>= f) (y >>= g)
  mono {α β : Type} {R R' : α → β → Prop} {x : m₁ α} {y : m₂ β} :
    (∀ a b, R a b → R' a b) → Rel R x y → Rel R' x y
  raise {α β : Type} {R : α → β → Prop} (e : Raised) : Rel R (throw e : m₁ α) (throw e : m₂ β)

variable {m₁ m₂ : Type → Type} [Monad m₁] [Monad m₂] [MonadExceptOf Raised m₁]
  [MonadExceptOf Raised m₂]

/-- A question about checks: with a check it is asked about the checks that this one is made of. -/
structure Inherited (world : World) (On : Schema → Value → Prop) : Prop where
  part : ∀ {s v checks p}, On s v → s.course world v = .parts checks → p ∈ checks →
    On p.type p.value
  member : ∀ {s v members c}, On s v → s.course world v = .union members → c ∈ members → On c v
  base : ∀ {s v base predicate}, On s v → s.course world v = .refinement base predicate → On base v

/-- A question is inherited if it is asked of parts of types and of values. -/
theorem Inherited.of_parts {world : World} {OnType : Schema → Prop} {OnValue : Value → Prop}
    (htype : ∀ s, OnType s → ∀ c ∈ s.components, OnType c)
    (hvalue : ∀ v step x, OnValue v → v.StepsTo step x → OnValue x) :
    Inherited world fun s v => OnType s ∧ OnValue v where
  part := by
    rintro s v checks ⟨step, type, value⟩ ⟨hs, hv⟩ hcourse hp
    obtain ⟨hc, hof⟩ := Schema.mem_components_of_parts hcourse hp
    refine ⟨htype s hs _ hc, ?_⟩
    cases step with
    | none => exact Eq.mpr (congrArg OnValue hof) hv
    | some step => exact hvalue v step value hv hof
  member := by
    rintro s v members c ⟨hs, hv⟩ hcourse hc
    obtain ⟨shown, rfl⟩ := Schema.exists_eq_union hcourse
    exact ⟨htype _ hs c hc, hv⟩
  base := by
    rintro s v base predicate ⟨hs, hv⟩ hcourse
    obtain ⟨shown, rfl⟩ := Schema.exists_eq_refinement hcourse
    exact ⟨htype _ hs base List.mem_cons_self, hv⟩

/-- A question about types alone is inherited if it is asked of parts of types. -/
theorem Inherited.of_types {world : World} {OnType : Schema → Prop}
    (htype : ∀ s, OnType s → ∀ c ∈ s.components, OnType c) :
    Inherited world fun s _ => OnType s := by
  have hboth : Inherited world fun s _ => OnType s ∧ True :=
    .of_parts htype fun _ _ _ _ _ => trivial
  simpa only [and_true] using hboth

/-- When mismatches of a value with a type go together that were found from two places. -/
abbrev MismatchRel :=
  Schema → Value → List String → List String → Mismatch → Mismatch → Prop

/-- Two ways to run checks that a question is asked about, from places that go together. Mismatches
that are found go together if they do as mismatches of the parts that they were found in. -/
structure Alike (L : Lifting m₁ m₂) (cx₁ : Surroundings m₁) (cx₂ : Surroundings m₂)
    (On : Schema → Value → Prop) (Places : List String → List String → Prop) (R : MismatchRel) :
    Prop where
  world : cx₁.world = cx₂.world
  inherited : Inherited cx₁.world On
  reject : ∀ {s v q₁ q₂}, On s v → Places q₁ q₂ →
    L.Rel (List.Forall₂ (R s v q₁ q₂)) (cx₁.reject s v q₁) (cx₂.reject s v q₂)
  part : ∀ {s v checks p q₁ q₂}, On s v → s.course cx₁.world v = .parts checks → p ∈ checks →
    Places q₁ q₂ → L.Rel (fun g₁ g₂ => Places (q₁ ++ g₁) (q₂ ++ g₂) ∧ ∀ e₁ e₂,
        R p.type p.value (q₁ ++ g₁) (q₂ ++ g₂) e₁ e₂ → R s v q₁ q₂ e₁ e₂)
      (cx₁.segments p.step) (cx₂.segments p.step)
  base : ∀ {s v base predicate}, s.course cx₁.world v = .refinement base predicate →
    ∀ {q₁ q₂ e₁ e₂}, R base v q₁ q₂ e₁ e₂ → R s v q₁ q₂ e₁ e₂

namespace Alike

variable {L : Lifting m₁ m₂} {cx₁ : Surroundings m₁} {cx₂ : Surroundings m₂}
  {On : Schema → Value → Prop} {Places : List String → List String → Prop} {R : MismatchRel}
  {late₁ : Nat → Value → List String → m₁ (List Mismatch)}
  {late₂ : Nat → Value → List String → m₂ (List Mismatch)}

/-- Checks of parts run alike if each of them does. -/
theorem errorsOfParts (Places : List String → List String → Prop)
    {S : Mismatch → Mismatch → Prop} {q₁ q₂ : List String} {checks : List PartCheck}
    (h : ∀ p ∈ checks, ∃ T : List String → List String → Mismatch → Mismatch → Prop,
      L.Rel (fun g₁ g₂ => Places (q₁ ++ g₁) (q₂ ++ g₂) ∧ ∀ e₁ e₂,
          T (q₁ ++ g₁) (q₂ ++ g₂) e₁ e₂ → S e₁ e₂)
        (cx₁.segments p.step) (cx₂.segments p.step) ∧
      ∀ r₁ r₂, Places r₁ r₂ → L.Rel (List.Forall₂ (T r₁ r₂))
        (cx₁.errorsWith late₁ p.type p.value r₁) (cx₂.errorsWith late₂ p.type p.value r₂)) :
    L.Rel (List.Forall₂ S) (cx₁.errorsOfParts late₁ q₁ checks)
      (cx₂.errorsOfParts late₂ q₂ checks) := by
  induction checks with
  | nil => exact L.pure .nil
  | cons p rest ih =>
    obtain ⟨T, hsegments, hcheck⟩ := h p List.mem_cons_self
    refine L.bind hsegments fun g₁ g₂ hg => ?_
    obtain ⟨hplaces, hup⟩ := hg
    refine L.bind (hcheck _ _ hplaces) fun first₁ first₂ hfirst => ?_
    refine L.bind (ih fun p hp => h p (List.mem_cons_of_mem _ hp)) fun rest₁ rest₂ hrest => ?_
    exact L.pure (List.rel_append (hfirst.imp hup) hrest)

/-- Members are tried alike if each is checked alike. -/
theorem someAccepts {S : Schema → Mismatch → Mismatch → Prop} {v : Value} {q₁ q₂ : List String}
    {members : List Schema}
    (h : ∀ c ∈ members, L.Rel (List.Forall₂ (S c)) (cx₁.errorsWith late₁ c v q₁)
      (cx₂.errorsWith late₂ c v q₂)) :
    L.Rel (· = ·) (cx₁.someAccepts late₁ members v q₁) (cx₂.someAccepts late₂ members v q₂) := by
  induction members with
  | nil => exact L.pure rfl
  | cons c rest ih =>
    rw [Surroundings.someAccepts, Surroundings.someAccepts]
    refine L.bind (h c List.mem_cons_self) fun found₁ found₂ hfound => ?_
    have hempty : found₁.isEmpty = found₂.isEmpty := by cases hfound <;> rfl
    rw [hempty]
    split
    · exact L.pure rfl
    · exact ih fun c hc => h c (List.mem_cons_of_mem _ hc)

variable [LawfulMonad m₁] [LawfulMonad m₂]

/-- Checks run alike if late references are followed alike. -/
theorem errorsWith (h : Alike L cx₁ cx₂ On Places R)
    (hlate : ∀ slot v q₁ q₂, On (.late slot) v → Places q₁ q₂ →
      L.Rel (List.Forall₂ (R (.late slot) v q₁ q₂)) (late₁ slot v q₁) (late₂ slot v q₂))
    (s : Schema) : ∀ v q₁ q₂, On s v → Places q₁ q₂ →
      L.Rel (List.Forall₂ (R s v q₁ q₂)) (cx₁.errorsWith late₁ s v q₁)
        (cx₂.errorsWith late₂ s v q₂) := by
  induction s using Schema.induction_components with
  | h s ih =>
    intro v q₁ q₂ hon hplaces
    have hrequire (b : Bool) : L.Rel (List.Forall₂ (R s v q₁ q₂)) (cx₁.require b s v q₁)
        (cx₂.require b s v q₂) := by
      cases b with
      | true => exact L.pure .nil
      | false => exact h.reject hon hplaces
    rw [Surroundings.errorsWith_eq, Surroundings.errorsWith_eq, ← h.world]
    cases hcourse : s.course cx₁.world v with
    | fail e => exact L.raise e
    | reject => exact h.reject hon hplaces
    | parts checks =>
      refine errorsOfParts Places fun p hp => ?_
      have honPart := h.inherited.part hon hcourse hp
      have hc := (Schema.mem_components_of_parts hcourse hp).1
      exact ⟨R p.type p.value, h.part hon hcourse hp hplaces,
        fun r₁ r₂ => ih p.type hc p.value r₁ r₂ honPart⟩
    | union members =>
      obtain ⟨shown, rfl⟩ := Schema.exists_eq_union hcourse
      refine L.bind (someAccepts (S := fun c => R c v q₁ q₂) fun c hc => ?_) fun b b' hb => ?_
      · exact ih c hc v q₁ q₂ (h.inherited.member hon hcourse hc) hplaces
      · subst hb
        cases b with
        | true => exact L.pure .nil
        | false => exact h.reject hon hplaces
    | refinement base predicate =>
      obtain ⟨shown, rfl⟩ := Schema.exists_eq_refinement hcourse
      have honBase := h.inherited.base hon hcourse
      refine L.bind (ih base List.mem_cons_self v q₁ q₂ honBase hplaces) fun found₁ found₂ hfound => ?_
      cases hfound with
      | nil =>
        dsimp only
        cases cx₁.world.holds predicate v with
        | error e => exact L.raise e
        | ok holds => exact hrequire holds
      | cons he hrest => exact L.pure ((List.Forall₂.cons he hrest).imp fun _ _ => h.base hcourse)
    | late slot =>
      obtain rfl := Schema.eq_late hcourse
      exact hlate slot v q₁ q₂ hon hplaces

/-- Late references are followed alike if they lead to the same types, which are in question. -/
theorem lateErrors (h : Alike L cx₁ cx₂ On Places R)
    (hresolve : ∀ slot v, On (.late slot) v →
      L.Rel (fun s t => s = t ∧ On s v ∧ ∀ q₁ q₂ e₁ e₂, R s v q₁ q₂ e₁ e₂ →
        R (.late slot) v q₁ q₂ e₁ e₂) (cx₁.resolve slot) (cx₂.resolve slot)) (fuel : Nat) :
    ∀ slot v q₁ q₂, On (.late slot) v → Places q₁ q₂ →
      L.Rel (List.Forall₂ (R (.late slot) v q₁ q₂)) (cx₁.lateErrors fuel slot v q₁)
        (cx₂.lateErrors fuel slot v q₂) := by
  induction fuel with
  | zero => exact fun _ _ _ _ _ _ => L.raise .endless
  | succ fuel ih =>
    intro slot v q₁ q₂ hon hplaces
    refine L.bind (hresolve slot v hon) fun s t hs => ?_
    obtain ⟨rfl, honType, hup⟩ := hs
    have hcheck := h.errorsWith ih s v q₁ q₂ honType hplaces
    exact L.mono (fun _ _ hfound => hfound.imp fun _ _ => hup q₁ q₂ _ _) hcheck

end Alike

end Typeward
