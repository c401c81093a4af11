import Typeward.Proofs.AlikeChecks
import Typeward.Proofs.Steps

/-!
# Where a check starts

The path that a check starts from is put in front of the paths of all mismatches that it finds, and
matters for nothing else: neither for what is found, nor for its order, nor for the session after it.
So a type accepts a value or rejects it the same way wherever it is asked.
-/

namespace Typeward

/-- The mismatch as it is found from a place further above. -/
def Mismatch.under (front : List String) (e : Mismatch) : Mismatch :=
  { e with path := front ++ e.path }

/-- Mismatches as they are found from a place further above. -/
def moved (front : List String) (found : List Mismatch) : List Mismatch :=
  found.map (·.under front)

/-- What is found does not vanish by being found from further above. -/
@[simp]
theorem isEmpty_moved (front : List String) (found : List Mismatch) :
    (moved front found).isEmpty = found.isEmpty := by
  cases found <;> rfl

variable {m : Type → Type} [Monad m] [MonadExceptOf Raised m]

/-- Two steps go together if they are one step that answers two things. -/
def jointly [LawfulRaise m] : Lifting m m where
  Rel {α β} R x y := ∃ z : m { c : α × β // R c.1 c.2 }, x = (·.1.1) <$> z ∧ y = (·.1.2) <$> z
  pure {_ _ _ a b} h := ⟨pure ⟨(a, b), h⟩, by simp, by simp⟩
  bind := by
    rintro α β γ δ Q R _ _ f g ⟨z, rfl, rfl⟩ hnext
    choose next hfirst hsecond using hnext
    refine ⟨z >>= fun c => next c.1.1 c.1.2 c.2, ?_, ?_⟩
    · simp only [bind_map_left, map_bind, ← hfirst]
    · simp only [bind_map_left, map_bind, ← hsecond]
  mono := by
    rintro α β R R' _ _ h ⟨z, rfl, rfl⟩
    exact ⟨(fun c => ⟨c.1, h _ _ c.2⟩) <$> z, by simp, by simp⟩
  raise e := by
    refine ⟨throw e, ?_, ?_⟩ <;> rw [← bind_pure_comp, LawfulRaise.raise_bind]

/-- A step goes together with itself. -/
theorem jointly_refl [LawfulRaise m] {α : Type} {R : α → α → Prop} (x : m α) (h : ∀ a, R a a) :
    jointly.Rel R x x :=
  ⟨(fun a => ⟨(a, a), h a⟩) <$> x, by simp, by simp⟩

/-- A step that goes together with another one, where its answer is made of that of the other, is
made of the other. -/
theorem eq_map_of_jointly [LawfulRaise m] {α β : Type} {f : β → α} {x : m α} {y : m β}
    (h : jointly.Rel (fun a b => a = f b) x y) : x = f <$> y := by
  obtain ⟨z, rfl, rfl⟩ := h
  rw [← comp_map]
  congr 1
  funext c
  exact c.2

/-- Mismatches that are found jointly, the ones from further above, are the same. -/
theorem eq_moved_of_jointly [LawfulRaise m] {front : List String} {x y : m (List Mismatch)}
    (h : jointly.Rel (List.Forall₂ fun e₁ e₂ => e₁ = e₂.under front) x y) :
    x = moved front <$> y := by
  refine eq_map_of_jointly (jointly.mono ?_ h)
  intro found₁ found₂ hfound
  induction hfound with
  | nil => rfl
  | cons he _ ih => rw [he, ih]; rfl

namespace Surroundings

variable [LawfulRaise m] (cx : Surroundings m) (front : List String)

/-- A check from a place runs like one from further above. -/
theorem alike_moved : Alike jointly cx cx (fun _ _ => True) (fun q₁ q₂ => q₁ = front ++ q₂)
    fun _ _ _ _ e₁ e₂ => e₁ = e₂.under front where
  world := rfl
  inherited := ⟨fun _ _ _ => trivial, fun _ _ _ => trivial, fun _ _ => trivial⟩
  reject := by
    rintro s v _ q₂ - rfl
    refine jointly.bind (jointly_refl (R := (· = ·)) _ fun _ => rfl) fun text _ htext => ?_
    refine jointly.bind (jointly_refl (R := (· = ·)) _ fun _ => rfl) fun name _ hname => ?_
    subst htext hname
    exact jointly.pure (.cons rfl .nil)
  part := by
    rintro s v checks p _ q₂ - - - rfl
    refine jointly.mono ?_ (jointly_refl (R := (· = ·)) _ fun _ => rfl)
    rintro g _ rfl
    exact ⟨List.append_assoc _ _ _, fun _ _ he => he⟩
  base _ _ _ _ _ he := he

/-- With a late reference, the same is found from further above. -/
theorem jointly_lateErrors (fuel slot : Nat) (v : Value) (q : List String) :
    jointly.Rel (List.Forall₂ fun e₁ e₂ => e₁ = e₂.under front)
      (cx.lateErrors fuel slot v (front ++ q)) (cx.lateErrors fuel slot v q) :=
  (cx.alike_moved front).lateErrors (fun slot _ _ =>
    jointly.mono (by rintro s _ rfl; exact ⟨rfl, trivial, fun _ _ _ _ he => he⟩)
      (jointly_refl (R := (· = ·)) (cx.resolve slot) fun _ => rfl)) fuel slot v _ q trivial rfl

/-- The mismatches with a late reference that are found from further above are those that are found
from a place, with the rest of the path in front. -/
theorem lateErrors_append (fuel slot : Nat) (v : Value) (q : List String) :
    cx.lateErrors fuel slot v (front ++ q) = moved front <$> cx.lateErrors fuel slot v q :=
  eq_moved_of_jointly (cx.jointly_lateErrors front fuel slot v q)

/-- The mismatches that a check finds from further above are those that it finds from a place, with
the rest of the path in front, however many references it may follow. -/
theorem errorsWith_append (fuel : Nat) (s : Schema) (v : Value) (q : List String) :
    cx.errorsWith (cx.lateErrors fuel) s v (front ++ q) =
      moved front <$> cx.errorsWith (cx.lateErrors fuel) s v q :=
  eq_moved_of_jointly ((cx.alike_moved front).errorsWith
    (by rintro slot v _ q - rfl; exact cx.jointly_lateErrors front _ slot v q) s v _ q trivial rfl)

/-- The mismatches that a check finds from further above are those that it finds from a place, with
the rest of the path in front. -/
theorem errors_append (s : Schema) (v : Value) (q : List String) :
    cx.errors s v (front ++ q) = moved front <$> cx.errors s v q :=
  cx.errorsWith_append front _ s v q

/-- A type accepts a value if a check from any place finds nothing wrong. -/
theorem accepts_eq (s : Schema) (v : Value) (path : List String) :
    cx.accepts s v = List.isEmpty <$> cx.errors s v path := by
  have hpath := cx.errors_append path s v []
  rw [List.append_nil] at hpath
  simp only [hpath, accepts, Functor.map_map, isEmpty_moved, bind_pure_comp]

/-- A check raises the first mismatch that is found, from the label on, and otherwise answers the
value. -/
theorem check_eq (s : Schema) (v : Value) (label : String) :
    cx.check s v label = (do
      match ← cx.errors s v [] with
      | [] => return v
      | e :: _ => throw (.invalid (e.under [label]))) := by
  have hpath := cx.errors_append [label] s v []
  rw [List.append_nil] at hpath
  rw [check, hpath, bind_map_left]
  congr 1
  funext found
  cases found <;> rfl

end Surroundings

namespace Inspection

variable (world : World) (type v : Value)

/-- The mismatches that a check in a session finds from further above are those that it finds from a
place, with the rest of the path in front. -/
theorem errors_append (front path : List String) :
    errors world type v (front ++ path) = moved front <$> errors world type v path := by
  simp only [errors, Surroundings.errors_append, map_bind]

/-- A type accepts a value if a check from any place finds nothing wrong. -/
theorem accepts_eq (path : List String) :
    accepts world type v = List.isEmpty <$> errors world type v path := by
  simp only [errors, accepts, Surroundings.accepts_eq _ _ _ path, map_bind]

/-- A check raises the first mismatch that is found, from the label on, and otherwise answers the
value. -/
theorem check_eq (label : String) :
    check world type v label = (do
      match ← errors world type v [] with
      | [] => return v
      | e :: _ => throw (.invalid (e.under [label]))) := by
  simp only [errors, check, Surroundings.check_eq, bind_assoc]

/-- A check under a label answers the value if the type accepts it. If the type rejects it, the check
raises the first mismatch that is found from the label. What keeps the type from telling is raised by
both. -/
theorem check_cases (label : String) (s : Session) :
    (∃ s', (accepts world type v).run s = (.ok true, s') ∧
      (check world type v label).run s = (.ok v, s')) ∨
    (∃ e q more s', (accepts world type v).run s = (.ok false, s') ∧
      (check world type v label).run s = (.error (.invalid e), s') ∧
      (errors world type v [label]).run s = (.ok (e :: more), s') ∧ e.path = label :: q) ∨
    ∃ raised s', (accepts world type v).run s = (.error raised, s') ∧
      (check world type v label).run s = (.error raised, s') := by
  have hlabel := errors_append world type v [label] []
  rw [List.append_nil, ← bind_pure_comp] at hlabel
  have haccepts := accepts_eq world type v []
  rw [← bind_pure_comp] at haccepts
  rw [hlabel, haccepts, check_eq]
  rcases hrun : (errors world type v []).run s with ⟨raised | found, s'⟩
  · exact .inr (.inr ⟨raised, s', run_bind_of_error hrun, run_bind_of_error hrun⟩)
  · rw [run_bind_of_ok hrun, run_bind_of_ok hrun, run_bind_of_ok hrun]
    cases found with
    | nil => exact .inl ⟨s', rfl, rfl⟩
    | cons e more =>
      exact .inr (.inl ⟨e.under [label], e.path, moved [label] more, s', rfl, rfl, rfl, rfl⟩)

end Inspection

end Typeward
