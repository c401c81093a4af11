import Typeward.Proofs.MirroredChecks
import Typeward.Proofs.ReliableChecks

/-!
# What checks find

A check that answers finds nothing wrong just when the type accepts the value: in a session it answers
what the check without a session answers, where late references stand for their types from the start.
In a sound session the check of a value that can occur against a type that makes sense does answer,
unless it meets an integer that is too long to be shown.
-/

namespace Typeward

namespace Surroundings

variable {cx : Surroundings Run} {I : Session → Prop} {Told : Raised → Prop}
  {target : Nat → Schema} {slotCount : Nat} {Shows : Nat → Prop} {s : Schema} {v : Value}
  {path : List String}

/-- A check that answers, be it a whole one or part of another one, from any place and with any number
of references that it may follow, finds nothing wrong just when the type accepts the value. -/
theorem Settled.verdict (h : cx.Settled I Told target slotCount Shows)
    (hs : s.Grounded (Value.Fit Shows) slotCount) (hv : v.Fit Shows) {fuel : Nat}
    {found : List Mismatch} {t t' : Session} (ht : I t)
    (hfound : (cx.errorsWith (cx.lateErrors fuel) s v path).run t = (.ok found, t')) :
    found = [] ↔ s.Accepts cx.world target v := by
  have hmirrored := h.mirrored_errorsWith hs hv fuel (.refl path)
  obtain ⟨-, found₀, hfound₀, hall⟩ := exists_of_mirrored hmirrored ht hfound
  have hverdict : found₀ = [] ↔ s.Accepts cx.world target v := plain_verdict hfound₀
  rw [← hverdict]
  cases hall <;> simp

/-- Where checks end, they have a verdict if they answer. -/
theorem Settled.ends_errors (h : cx.Settled I Told target slotCount Shows)
    (hs : s.Grounded (Value.Fit Shows) slotCount) (hv : v.Fit Shows) {May : Raised → Prop}
    (hends : Finishes I May (cx.errors s v path)) :
    Ends I May (cx.errors s v path) fun found => found = [] ↔ s.Accepts cx.world target v := by
  intro t ht
  obtain ⟨ht', -, hraised⟩ := hends t ht
  refine ⟨ht', fun found hfound => ?_, hraised⟩
  exact h.verdict hs hv ht (Prod.ext hfound rfl)

/-- Reliable surroundings are settled. -/
theorem Reliable.settled (h : cx.Reliable I target) :
    cx.Settled I (fun _ => False) target cx.slotCount (cx.Shows I) where
  resolves := h.resolves
  grounded slot hslot := (h.covers slot hslot).grounded
  shows _ hn := hn.ends

end Surroundings

namespace Session

variable {world : World} {target : Nat → Schema} {s : Session}

/-- In a sound session the check of a value that can occur against a type that can be checked ends:
it finds nothing wrong just when the type accepts the value, or it raises that an integer is too long
to be shown, which is in the value or in the type. -/
theorem Sound.errors_cases (h : s.Sound world target) {t : Schema} {type v : Value}
    (htype : s.IsModel type t) (ht : (s.checking world).Covers (s.Checked target) t)
    (hv : v.Fit ((s.checking world).Shows (s.Checked target))) (path : List String) :
    (Yields (Inspection.errors world type v path) s fun found _ =>
      found = [] ↔ t.Accepts world target v) ∨
    t.MeetsOverlong target v ∧
      ∃ s', (Inspection.errors world type v path).run s = (.error .unfitValue, s') := by
  rw [Yields, run_errors htype]
  have hfinishes : Finishes (s.Checked target) (fun e => e = .unfitValue ∧ t.MeetsOverlong target v)
      ((s.checking world).errors t v path) := h.reliable.finishes_errors ht hv
  have hends := h.reliable.settled.ends_errors ht.grounded hv hfinishes
  obtain ⟨s', -, ⟨found, hverdict, hrun⟩ | ⟨_, ⟨rfl, hlong⟩, hrun⟩⟩ := hends.cases h.checked
  · exact .inl ⟨found, s', hrun, hverdict⟩
  · exact .inr ⟨hlong, s', hrun⟩

end Session

end Typeward
