import Mathlib.Data.List.Forall2
import Typeward.Failure
import Typeward.Proofs.Occurrences

/-!
# Actions on trees

Lowering and splicing walk through a tree, keep a state and may fail. `Answers` says what holds of
everything that such an action answers. An action on the expressions inside a value answers a value
whose expressions correspond to the former ones.
-/

namespace Typeward

/-- A computation that may fail answers a result exactly when both its parts do. -/
theorem Except.bind_eq_ok {ε α β : Type} {x : Except ε α} {f : α → Except ε β} {b : β} :
    (x >>= f) = .ok b ↔ ∃ a, x = .ok a ∧ f a = .ok b := by
  cases x <;> simp [bind, Except.bind]

/-- Other words for a fault leave the results as they are. -/
theorem Except.mapError_eq_ok {ε δ α : Type} {x : Except ε α} {f : ε → δ} {a : α} :
    x.mapError f = .ok a ↔ x = .ok a := by
  cases x <;> simp [Except.mapError]

/-- A computation that may fail does so when its first part does, or else its second one. -/
theorem Except.bind_eq_error {ε α β : Type} {x : Except ε α} {f : α → Except ε β} {failure : ε} :
    (x >>= f) = .error failure ↔
      x = .error failure ∨ ∃ a, x = .ok a ∧ f a = .error failure := by
  cases x <;> simp [Bind.bind, Except.bind]

/-- A failure that is restated comes from a failure. -/
theorem Except.mapError_eq_error {ε δ α : Type} {x : Except ε α} {f : ε → δ} {failure : δ} :
    x.mapError f = .error failure ↔ ∃ inner, x = .error inner ∧ f inner = failure := by
  cases x <;> simp [Except.mapError]

/-- What is found is told by a test that it alone passes. -/
theorem Except.eq_ok_of_any {ε α : Type} {x : Except ε α} {test : α → Bool} {a : α}
    (h : x.toOption.any test = true) (htest : ∀ b, test b = true → b = a) : x = .ok a := by
  cases x with
  | error e => cases h
  | ok b => exact congrArg _ (htest b h)

/-- What corresponds to a member of one of two lists is a member of the other. -/
theorem exists_mem_of_forall₂ {α β : Type} {R : α → β → Prop} {as : List α} {bs : List β}
    (h : List.Forall₂ R as bs) {b : β} (hb : b ∈ bs) : ∃ a ∈ as, R a b := by
  induction h with
  | nil => simp at hb
  | cons hab hrest ih =>
    rcases List.mem_cons.1 hb with rfl | hb
    · exact ⟨_, List.mem_cons_self, hab⟩
    · obtain ⟨a, ha, hab⟩ := ih hb
      exact ⟨a, List.mem_cons_of_mem _ ha, hab⟩

/-- A value holds expressions that correspond to those in another one, and is the same otherwise. -/
def Slots.Mapped {α : Type} [Slots α] (R : Expr → Expr → Prop) (a a' : α) : Prop :=
  ∃ es, List.Forall₂ R (Slots.slots a) es ∧ a' = Slots.refill a es

/-- The expressions that are put into a value correspond to the former ones. -/
theorem Slots.Mapped.exists_mem {α : Type} [Slots α] {R : Expr → Expr → Prop} {a a' : α}
    (h : Slots.Mapped R a a') {e' : Expr} (he' : e' ∈ Slots.slots a') :
    ∃ e ∈ Slots.slots a, R e e' := by
  obtain ⟨es, hes, rfl⟩ := h
  rw [Slots.slots_refill a es hes.length_eq.symm] at he'
  exact exists_mem_of_forall₂ hes he'

/-- The parts that are put into an expression correspond to the former ones. -/
theorem exists_mem_children_of_withChildren {R : Expr → Expr → Prop} {e : Expr} {es : List Expr}
    (h : List.Forall₂ R e.children es) {c' : Expr} (hc' : c' ∈ (e.withChildren es).children) :
    ∃ c ∈ e.children, R c c' := by
  rw [Expr.children_withChildren e es h.length_eq.symm] at hc'
  exact exists_mem_of_forall₂ h hc'

namespace Action

variable {σ ε α β : Type}

/-- One action after another answers a result exactly when both do. -/
theorem bind_eq_ok {x : StateT σ (Except ε) α} {f : α → StateT σ (Except ε) β} {s s' : σ} {b : β} :
    (x >>= f) s = .ok (b, s') ↔ ∃ a s₁, x s = .ok (a, s₁) ∧ f a s₁ = .ok (b, s') := by
  change ((x s).bind fun p => f p.1 p.2) = _ ↔ _
  rcases x s with _ | ⟨a, s₁⟩ <;> simp [Except.bind]

/-- One action after another fails when the first one does, or else the second one. -/
theorem bind_eq_error {x : StateT σ (Except ε) α} {f : α → StateT σ (Except ε) β} {s : σ}
    {failure : ε} :
    (x >>= f) s = .error failure ↔
      x s = .error failure ∨ ∃ a s₁, x s = .ok (a, s₁) ∧ f a s₁ = .error failure := by
  change ((x s).bind fun p => f p.1 p.2) = _ ↔ _
  rcases x s with _ | ⟨a, s₁⟩ <;> simp [Except.bind]

/-- An action that does nothing answers its result. -/
theorem pure_eq_ok {a b : α} {s s' : σ} :
    (pure a : StateT σ (Except ε) α) s = .ok (b, s') ↔ a = b ∧ s = s' := by
  change Except.ok (a, s) = .ok (b, s') ↔ _
  simp

/-- Everything that an action answers satisfies a condition. -/
def Answers (x : StateT σ (Except ε) α) (P : α → Prop) : Prop :=
  ∀ ⦃s a s'⦄, x s = .ok (a, s') → P a

variable {P : α → Prop} {Q : β → Prop}

/-- An action that does nothing answers its result. -/
theorem answers_pure {a : α} (h : P a) : Answers (pure a : StateT σ (Except ε) α) P := by
  intro s b s' hb
  obtain ⟨rfl, -⟩ := pure_eq_ok.1 hb
  exact h

/-- What two actions answer after each other is answered by the second one. -/
theorem Answers.bind {x : StateT σ (Except ε) α} {f : α → StateT σ (Except ε) β}
    (hx : Answers x P) (hf : ∀ a, P a → Answers (f a) Q) : Answers (x >>= f) Q := by
  intro s b s' h
  obtain ⟨a, s₁, ha, hb⟩ := bind_eq_ok.1 h
  exact hf a (hx ha) hb

/-- As `Answers.bind`, where the first action may answer anything. -/
theorem answers_bind {x : StateT σ (Except ε) α} {f : α → StateT σ (Except ε) β}
    (hf : ∀ a, Answers (f a) Q) : Answers (x >>= f) Q :=
  Answers.bind (P := fun _ => True) (fun _ _ _ _ => trivial) fun a _ => hf a

/-- What is answered for the members of a list corresponds to them one to one. -/
theorem answers_mapM {f : α → StateT σ (Except ε) β} {R : α → β → Prop} {l : List α}
    (hf : ∀ a ∈ l, Answers (f a) (R a)) : Answers (l.mapM f) (List.Forall₂ R l) := by
  induction l with
  | nil => exact answers_pure .nil
  | cons a rest ih =>
    rw [List.mapM_cons]
    refine (hf a List.mem_cons_self).bind fun b hb => ?_
    refine (ih fun a ha => hf a (List.mem_cons_of_mem _ ha)).bind fun bs hbs => ?_
    exact answers_pure (.cons hb hbs)

/-- An action on the expressions inside a value answers the value with expressions that correspond
to the former ones. -/
theorem answers_slots_mapM [Slots α] {f : Expr → StateT σ (Except ε) Expr}
    {R : Expr → Expr → Prop} (hf : ∀ e, Answers (f e) (R e)) (a : α) :
    Answers (Slots.mapM f a) (Slots.Mapped R a) :=
  (answers_mapM fun e _ => hf e).bind fun es hes => answers_pure ⟨es, hes, rfl⟩

/-- An action on the parts of an expression answers the expression with parts that correspond to the
former ones. -/
theorem answers_mapChildren {e : Expr} {f : (c : Expr) → sizeOf c < sizeOf e →
    StateT σ (Except ε) Expr} {R : Expr → Expr → Prop} (hf : ∀ c h, Answers (f c h) (R c)) :
    Answers (e.mapChildren f) fun e' =>
      ∃ es, List.Forall₂ R e.children es ∧ e' = e.withChildren es := by
  refine (answers_mapM (R := fun c => R c.1) fun c _ => hf c.1 _).bind fun es hes => ?_
  refine answers_pure ⟨es, ?_, rfl⟩
  have hmap := List.forall₂_map_left_iff.2 hes
  rwa [List.attach_map_subtype_val] at hmap

end Action

end Typeward
