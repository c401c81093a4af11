import Typeward.Proofs.BlamedPlaces
import Typeward.Proofs.LateReferences

/-!
# Interfaces with more properties

An interface accepts a mapping if each of its properties does. So one that has all properties of
another one accepts no more than that one does, whatever properties it has besides, and however the
two follow late references.
-/

namespace Typeward

namespace Surroundings

variable {cx : Surroundings (Except Raised)}
  {late : Nat → Value → List String → Except Raised (List Mismatch)} {s : Schema} {v : Value}
  {path : List String}

/-- A type that rejects a value finds something wrong, if it answers. -/
theorem reject_ne_nil : cx.reject s v path ≠ .ok [] := by
  unfold reject
  cases cx.valueText v with
  | error e => exact nofun
  | ok text =>
    cases cx.name s with
    | error e => exact nofun
    | ok name => exact nofun

/-- Nothing is wrong with the properties of a mapping just if nothing is with each of them. -/
theorem errorsOfProperties_eq_nil {props : List (String × Schema)}
    {entries : List (Value × Value)} :
    cx.errorsOfProperties late props entries path = .ok [] ↔ ∀ p ∈ props,
      cx.errorsWith late p.2 (Value.property entries p.1) (path ++ [p.1]) = .ok [] := by
  induction props with
  | nil => simp [errorsOfProperties, pure, Except.pure]
  | cons p rest ih =>
    rw [List.forall_mem_cons, ← ih, errorsOfProperties]
    change (do
      let first ← cx.errorsWith late p.2 (Value.property entries p.1) (path ++ [p.1])
      return first ++ (← cx.errorsOfProperties late rest entries path)) = .ok [] ↔ _
    cases cx.errorsWith late p.2 (Value.property entries p.1) (path ++ [p.1]) with
    | error e =>
      refine iff_of_false (fun h => ?_) fun h => ?_
      · cases h
      · cases h.1
    | ok first =>
      cases cx.errorsOfProperties late rest entries path with
      | error e =>
        refine iff_of_false (fun h => ?_) fun h => ?_
        · cases h
        · cases h.2
      | ok others =>
        change Except.ok (first ++ others) = .ok [] ↔ _
        simp

/-- Nothing is wrong with a value for an interface just if it is a mapping, and nothing is with each
property. -/
theorem errorsWith_interface_eq_nil {props : List (String × Schema)} {shown : Option String} :
    cx.errorsWith late (.interface props shown) v path = .ok [] ↔
      ∃ entries, v.entries? = some entries ∧ ∀ p ∈ props,
        cx.errorsWith late p.2 (Value.property entries p.1) (path ++ [p.1]) = .ok [] := by
  rw [errorsWith]
  cases v.entries? with
  | none =>
    refine iff_of_false reject_ne_nil ?_
    rintro ⟨entries, h, -⟩
    cases h
  | some entries => simp [errorsOfProperties_eq_nil]

end Surroundings

namespace Session

variable {world : World} {target : Nat → Schema} {Shows : Nat → Prop} {s s₁ s₂ s' : Session}
  {type type' v : Value} {t t' : Schema}

/-- A type accepts a value in a session that has gone on just if a check that needs no session finds
nothing wrong. -/
theorem Settled.yields_accepts_iff (h : s.Settled world target Shows) (hs₁ : s.Checked target s₁)
    (htype : s.IsModel type t) (ht : t.Grounded (Value.Fit Shows) s.slots.size)
    (hv : v.Fit Shows) :
    (Yields (Inspection.accepts world type v) s₁ fun accepts _ => accepts = true) ↔
      (Surroundings.plain world target s₁.slots.size).errors t v [] = .ok [] := by
  have hmirrored := (h.surroundings hs₁).mirrored_errorsWith ht hv
    ((v.depth + 1) * s₁.slots.size) (.refl [])
  have hrun : (Inspection.errors world type v []).run s₁ =
      ((s₁.checking world).errors t v []).run s₁ := run_errors (htype.kept hs₁.goesOn.kept) []
  rw [Inspection.accepts_eq world type v [], ← bind_pure_comp]
  constructor
  · rintro ⟨accepts, s', haccepts, rfl⟩
    rcases hfound : (Inspection.errors world type v []).run s₁ with ⟨e | found, s''⟩
    · rw [run_bind_of_error hfound] at haccepts
      cases haccepts
    · rw [run_bind_of_ok hfound] at haccepts
      obtain rfl := List.isEmpty_iff.1 (Except.ok.inj (Prod.mk.inj haccepts).1)
      obtain ⟨-, found₀, hfound₀, hall⟩ :=
        exists_of_mirrored hmirrored hs₁ (hrun.symm.trans hfound)
      obtain rfl := List.forall₂_nil_left_iff.1 hall
      exact hfound₀
  · intro hplain
    obtain ⟨found, s', hfound, -, hall⟩ := ensures_of_mirrored hmirrored hplain s₁ hs₁
    obtain rfl := List.forall₂_nil_right_iff.1 hall
    exact ⟨true, s', run_bind_of_ok (hrun.trans hfound), rfl⟩

/-- A type that stands for an interface accepts, now or later, what a type has accepted that stands
for one with all properties of it. -/
theorem Settled.accepts_of_subset (h : s.Settled world target Shows) (htype : s.IsModel type t)
    (htype' : s.IsModel type' t') {props props' : List (String × Schema)}
    {shown shown' : Option String}
    (ht : t.StandsFor target Shows s.slots.size (.interface props shown))
    (ht' : t'.StandsFor target Shows s.slots.size (.interface props' shown'))
    (hsubset : props' ⊆ props) (hv : v.Fit Shows) (hs₁ : s.Checked target s₁)
    (hs₂ : s.Checked target s₂)
    (haccepts : (Inspection.accepts world type v).run s₁ = (.ok true, s')) :
    Yields (Inspection.accepts world type' v) s₂ fun accepts _ => accepts = true := by
  have hslots := hs₂.goesOn.slots_size_le
  have hfuel := Nat.mul_le_mul_left (v.depth + 1) hslots
  have hnil := (h.yields_accepts_iff hs₁ htype ht.grounded hv).1 ⟨_, _, haccepts, rfl⟩
  have hamong := Surroundings.errors_slots h.grounded hslots ht.grounded hv hnil
  have hfirst := ht.errorsWith_eq_nil h.grounded hslots hv hfuel hamong
  rw [h.yields_accepts_iff hs₂ htype' ht'.grounded hv]
  refine ht'.symm.errorsWith_eq_nil h.grounded hslots hv hfuel ?_
  rw [Surroundings.errorsWith_interface_eq_nil] at hfirst ⊢
  obtain ⟨entries, hentries, hall⟩ := hfirst
  exact ⟨entries, hentries, fun p hp => hall p (hsubset hp)⟩

end Session

end Typeward
