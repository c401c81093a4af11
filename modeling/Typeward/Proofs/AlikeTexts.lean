import Typeward.Proofs.AlikeChecks
import Typeward.Proofs.ParallelTypes

/-!
# Texts that are made alike

The texts of values and the names of types are made of those of their parts. If two ways to make them
go together for the runtime types in values and for late references, they do for all values and
types. Whether the texts themselves are the same is told under a condition: it may be that nothing is
known of them, only that the one is made whenever the other one is.
-/

namespace Typeward

variable {m₁ m₂ : Type → Type} [Monad m₁] [Monad m₂] [MonadExceptOf Raised m₁]
  [MonadExceptOf Raised m₂]

/-- Two steps go together, and under a condition their answers are the same. -/
abbrev Lifting.Same (L : Lifting m₁ m₂) (P : Prop) {α : Type} (x : m₁ α) (y : m₂ α) : Prop :=
  L.Rel (fun a b => P → a = b) x y

variable {L : Lifting m₁ m₂} {P : Prop}

/-- What is made of an answer goes together with what is made of the other one. -/
theorem Lifting.Same.map {α β : Type} {x : m₁ α} {y : m₂ α} (f : α → β) (h : L.Same P x y) :
    L.Same P (do return f (← x)) (do return f (← y)) :=
  L.bind h fun _ _ hab => L.pure fun hP => congrArg f (hab hP)

section Values

variable {text₁ : Nat → m₁ String} {text₂ : Nat → m₂ String}

/-- The texts of several values are made alike if each of them is. -/
theorem same_textsWith {vs : List Value}
    (h : ∀ v ∈ vs, L.Same P (v.textWith text₁) (v.textWith text₂)) :
    L.Same P (Value.textsWith text₁ vs) (Value.textsWith text₂ vs) := by
  induction vs with
  | nil => exact L.pure fun _ => rfl
  | cons v rest ih =>
    refine L.bind (h v List.mem_cons_self) fun first first' hfirst => ?_
    refine L.bind (ih fun w hw => h w (List.mem_cons_of_mem _ hw)) fun more more' hmore => ?_
    exact L.pure fun hP => by rw [hfirst hP, hmore hP]

/-- The texts of entries are made alike if those of each key and of each value are. -/
theorem same_entryTextsWith {entries : List (Value × Value)}
    (hkeys : ∀ e ∈ entries, L.Same P (e.1.textWith text₁) (e.1.textWith text₂))
    (hvalues : ∀ e ∈ entries, L.Same P (e.2.textWith text₁) (e.2.textWith text₂)) :
    L.Same P (Value.entryTextsWith text₁ entries) (Value.entryTextsWith text₂ entries) := by
  induction entries with
  | nil => exact L.pure fun _ => rfl
  | cons e rest ih =>
    refine L.bind (hkeys e List.mem_cons_self) fun key key' hkey => ?_
    refine L.bind (hvalues e List.mem_cons_self) fun value value' hvalue => ?_
    refine L.bind (ih (fun x hx => hkeys x (List.mem_cons_of_mem _ hx))
      fun x hx => hvalues x (List.mem_cons_of_mem _ hx)) fun more more' hmore => ?_
    exact L.pure fun hP => by rw [hkey hP, hvalue hP, hmore hP]

/-- What is written of a text, which may be missing, is written alike. -/
theorem same_orUnfit (text : Option String) :
    L.Same P (Value.orUnfit text) (Value.orUnfit text) := by
  cases text with
  | none => exact L.raise .unfitValue
  | some text => exact L.pure fun _ => rfl

variable {Shows : Nat → Prop} {v : Value}

/-- The text of a value is made alike if those of the runtime types in it are. -/
theorem Value.Fit.same_textWith (hv : v.Fit Shows)
    (h : ∀ n, Shows n → L.Same P (text₁ n) (text₂ n)) :
    L.Same P (v.textWith text₁) (v.textWith text₂) := by
  induction hv with
  | collection _ ih => exact (same_textsWith ih).map _
  | mapping _ _ ihkeys ihvalues => exact (same_entryTextsWith ihkeys ihvalues).map _
  | derived _ _ ih => exact ih
  | model hn => exact h _ hn
  | constant c => exact same_orUnfit c.literal
  | range first stop step => exact same_orUnfit (Value.rangeText first stop step)
  | _ => exact L.pure fun _ => rfl

/-- So is its text as part of a path. -/
theorem Value.Fit.same_bareTextWith (hv : v.Fit Shows)
    (h : ∀ n, Shows n → L.Same P (text₁ n) (text₂ n)) :
    L.Same P (v.bareTextWith text₁) (v.bareTextWith text₂) := by
  unfold Value.bareTextWith
  split
  · exact L.pure fun _ => rfl
  · exact hv.same_textWith h

end Values

/-- The names of two types are made alike. -/
abbrev Lifting.SameNames (L : Lifting m₁ m₂) (P : Prop) (late₁ : Nat → m₁ String)
    (late₂ : Nat → m₂ String) (text₁ : Value → m₁ String) (text₂ : Value → m₂ String)
    (s s' : Schema) : Prop :=
  L.Same P (s.nameWith late₁ text₁) (s'.nameWith late₂ text₂)

namespace Schema

variable {late₁ : Nat → m₁ String} {late₂ : Nat → m₂ String} {text₁ : Value → m₁ String}
  {text₂ : Value → m₂ String}

/-- A name is shown alike if it is made alike. -/
theorem same_displayOr {shown : Option String} {x : m₁ String} {y : m₂ String} (h : L.Same P x y) :
    L.Same P (displayOr shown x) (displayOr shown y) := by
  unfold displayOr
  split
  · exact L.pure fun _ => rfl
  · exact h

/-- The names of several types are made alike if those of each are. -/
theorem same_namesWith {members members' : List Schema}
    (h : List.Forall₂ (L.SameNames P late₁ late₂ text₁ text₂) members members') :
    L.Same P (namesWith late₁ text₁ members) (namesWith late₂ text₂ members') := by
  induction h with
  | nil => exact L.pure fun _ => rfl
  | cons h _ ih =>
    refine L.bind h fun first first' hfirst => L.bind ih fun more more' hmore => ?_
    exact L.pure fun hP => by rw [hfirst hP, hmore hP]

/-- The names of properties are made alike if those of each are. -/
theorem same_propertyNamesWith {props props' : List (String × Schema)}
    (h : List.Forall₂ (fun p q => p.1 = q.1 ∧ L.SameNames P late₁ late₂ text₁ text₂ p.2 q.2)
      props props') :
    L.Same P (propertyNamesWith late₁ text₁ props) (propertyNamesWith late₂ text₂ props') := by
  induction h with
  | nil => exact L.pure fun _ => rfl
  | @cons p q _ _ h _ ih =>
    obtain ⟨hkey, hname⟩ := h
    refine L.bind hname fun first first' hfirst => L.bind ih fun more more' hmore => ?_
    exact L.pure fun hP => by rw [hfirst hP, hmore hP, hkey]

/-- The names of two types of one form are made alike if those of their parts are. -/
theorem Parallel.same_nameWith {s s' : Schema}
    (h : s.Parallel (L.SameNames P late₁ late₂ text₁ text₂) s')
    (htext : ∀ value shown, s = .literal value shown → L.Same P (text₁ value) (text₂ value))
    (hlate : ∀ slot, s = .late slot → L.Same P (late₁ slot) (late₂ slot)) :
    L.SameNames P late₁ late₂ text₁ text₂ s s' := by
  cases h with
  | irreducible name test => exact L.pure fun _ => rfl
  | maybe h | list h | refinement h | anyFunc h => exact same_displayOr (h.map _)
  | dict hkey hvalue =>
    refine same_displayOr (L.bind hkey fun _ _ hkey => L.bind hvalue fun _ _ hvalue => ?_)
    exact L.pure fun hP => by rw [hkey hP, hvalue hP]
  | interface h =>
    exact same_displayOr (Lifting.Same.map _ (same_propertyNamesWith h))
  | union h | intersection h | tuple h =>
    exact same_displayOr (Lifting.Same.map _ (same_namesWith h))
  | func hparams h =>
    refine same_displayOr (L.bind (same_namesWith hparams) fun _ _ hparams => ?_)
    exact L.bind h fun _ _ h => L.pure fun hP => by rw [hparams hP, h hP]
  | literal value shown => exact same_displayOr (htext value shown rfl)
  | late slot => exact hlate slot rfl

/-- The name of a type is made alike if those of late references and the texts of literals are. -/
theorem Grounded.same_nameWith {Fits : Value → Prop} {slotCount : Nat} {s : Schema}
    (hs : s.Grounded Fits slotCount) (htext : ∀ v, Fits v → L.Same P (text₁ v) (text₂ v))
    (hlate : ∀ slot < slotCount, L.Same P (late₁ slot) (late₂ slot)) :
    L.Same P (s.nameWith late₁ text₁) (s.nameWith late₂ text₂) := by
  induction hs with
  | @intro s hliteral hslot _ ih =>
    exact (Parallel.refl s ih).same_nameWith (fun value shown h => htext value (hliteral value shown h))
      fun slot h => hlate slot (hslot slot h)

end Schema

/-- The names of late references are made alike if each leads to one type in both ways. -/
theorem Surroundings.same_lateName {cx₁ : Surroundings m₁} {cx₂ : Surroundings m₂}
    {target : Nat → Schema} {Fits : Value → Prop} {slotCount : Nat}
    (hresolve : ∀ slot < slotCount, L.Rel (fun s t => s = t ∧ t = target slot) (cx₁.resolve slot)
      (cx₂.resolve slot))
    (htext : ∀ v, Fits v → L.Same P (cx₁.valueText v) (cx₂.valueText v))
    (htargets : ∀ slot < slotCount, (target slot).Grounded Fits slotCount) (fuel : Nat) :
    ∀ slot < slotCount, L.Same P (cx₁.lateName fuel slot) (cx₂.lateName fuel slot) := by
  induction fuel with
  | zero => exact fun _ _ => L.raise .endless
  | succ fuel ih =>
    intro slot hslot
    refine L.bind (hresolve slot hslot) ?_
    rintro _ _ ⟨rfl, rfl⟩
    exact (htargets slot hslot).same_nameWith htext ih

end Typeward
