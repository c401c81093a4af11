import Typeward.Proofs.GrowingSessions
import Typeward.Proofs.ReliableChecks

/-!
# Sessions that checks are run in

Checks change a session: they follow late references, which makes types and keeps what was found. In
a sound session every late reference stands for one type, whenever it is followed, and these types
can be checked and shown. The surroundings of a check in a sound session are reliable.
-/

namespace Typeward

namespace Session

variable {world : World} {target : Nat → Schema} {s s' : Session}

/-- The surroundings of checks that start in a session. -/
def checking (s : Session) (world : World) : Surroundings Run :=
  surroundingsWith world s.slots.size (modelText world s.slots.size s.models.size)

/-- A session has gone on from another one, and its late references, as far as they have been
followed, lead to the types that they stand for. -/
structure Checked (s : Session) (target : Nat → Schema) (s' : Session) : Prop where
  goesOn : s.Extends s'
  found : ∀ (slot : Nat) (l : Slot) (number : Nat), slot < s.slots.size →
    s'.slots[slot]? = some l → l.found = some number → s'.models[number]? = some (target slot)

/-- In a session, late references stand for types. -/
structure Resolves (s : Session) (target : Nat → Schema) : Prop where
  checked : s.Checked target s
  /-- Whenever a late reference is followed, it leads to the type that it stands for. -/
  evaluates : ∀ (slot : Nat) (l : Slot), s.slots[slot]? = some l → ∀ text s', s.Checked target s' →
    Yields (evaluateWith text l.body) s' fun o s'' => s.Checked target s'' ∧
      ∃ v, o = .value v ∧ s''.IsModel v (target slot)

/-- In a session, late references stand for types that can be checked and shown, and following them
comes to an end. -/
structure Sound (s : Session) (world : World) (target : Nat → Schema) : Prop where
  checked : s.Checked target s
  /-- Whenever a late reference is followed, it leads to the type that it stands for. -/
  evaluates : ∀ (slot : Nat) (l : Slot), s.slots[slot]? = some l → ∀ text s', s.Checked target s' →
    Yields (evaluateWith text l.body) s' fun o s'' => s.Checked target s'' ∧
      ∃ v, o = .value v ∧ s''.IsModel v (target slot)
  covers : ∀ slot < s.slots.size, (s.checking world).Covers (s.Checked target) (target slot)
  /-- Checks come to an end. -/
  meets : Ranked s.slots.size fun slot next => (target slot).Meets next
  /-- Names come to an end. -/
  cites : Ranked s.slots.size fun slot next => (target slot).Cites next

/-- What is found for a late reference can be kept. -/
theorem Checked.keepFound (h : s.Checked target s') {slot number : Nat}
    (hnumber : s'.models[number]? = some (target slot)) :
    s.Checked target { s' with slots := s'.slots.modify slot ({ · with found := number }) } := by
  refine ⟨⟨h.goesOn.names, h.goesOn.kept.models, fun i l hl => ?_⟩, fun i l n hi hl hn => ?_⟩
  · obtain ⟨l', hl', hbody⟩ := h.goesOn.kept.slots i l hl
    by_cases heq : slot = i
    · exact ⟨{ l' with found := number }, by simp [Array.getElem?_modify, heq, hl'], hbody⟩
    · exact ⟨l', by simp [Array.getElem?_modify, heq, hl'], hbody⟩
  · rw [Array.getElem?_modify] at hl
    by_cases heq : slot = i
    · subst heq
      simp only [if_true, Option.map_eq_some_iff] at hl
      obtain ⟨l', hl', rfl⟩ := hl
      obtain rfl := Option.some.inj hn
      exact hnumber
    · rw [if_neg heq] at hl
      exact h.found i l n hi hl hn

/-- A late reference leads to the type that it stands for. -/
theorem Resolves.ensures_findLate (h : s.Resolves target) {text : Value → Run String} {slot : Nat}
    (hslot : slot < s.slots.size) :
    Ensures (s.Checked target) (do schemaOf (.model (← findLate text slot)))
      (· = target slot) := by
  intro s' hs'
  have hl : s.slots[slot]? = some s.slots[slot] := Array.getElem?_eq_getElem hslot
  obtain ⟨⟨body, found⟩, hl', hbody⟩ := hs'.goesOn.kept.slots slot _ hl
  obtain rfl : body = s.slots[slot].body := hbody
  cases found with
  | some number =>
    have hnumber := hs'.found slot _ number hslot hl' rfl
    have hfind : Reads (findLate text slot) s' number := by
      refine (Reads.get s').bind ?_
      rw [hl']
      exact .pure number s'
    exact hfind.yields_bind ⟨_, s', reads_schemaOf ⟨number, rfl, hnumber⟩, hs', rfl⟩
  | none =>
    have hfind : Yields (findLate text slot) s' fun number s'' =>
        s.Checked target s'' ∧ s''.models[number]? = some (target slot) := by
      refine (Reads.get s').yields_bind ?_
      rw [hl']
      refine (h.evaluates slot _ hl text s' hs').bind ?_
      rintro _ s'' ⟨hs'', v, rfl, number, rfl, hnumber⟩
      refine Yields.bind (Q := fun _ t => s.Checked target t ∧
        t.models[number]? = some (target slot)) ?_ fun _ t ht => .pure ht
      exact ⟨_, _, rfl, hs''.keepFound hnumber, hnumber⟩
    refine hfind.bind fun number s'' ⟨hs'', hnumber⟩ => ?_
    exact ⟨_, s'', reads_schemaOf ⟨number, rfl, hnumber⟩, hs'', rfl⟩

/-- A late reference whose expression is evaluated to a type stands for that type. -/
theorem Resolves.target_eq (h : s.Resolves target) {slot : Nat} {l : Slot}
    (hl : s.slots[slot]? = some l) {t : Schema}
    (ht : ∀ text, Yields (evaluateWith text l.body) s fun o s' =>
      ∃ v, o = .value v ∧ s'.IsModel v t) : target slot = t := by
  obtain ⟨_, s', hrun, _, v, rfl, hv⟩ := h.evaluates slot l hl (fun _ => pure "") s h.checked
  obtain ⟨_, s'', hrun', w, rfl, hw⟩ := ht fun _ => pure ""
  obtain ⟨heq, rfl⟩ := Prod.mk.inj (hrun.symm.trans hrun')
  obtain rfl := Object.value.inj (Except.ok.inj heq)
  exact hv.unique hw

/-- In a sound session, late references stand for types. -/
theorem Sound.resolves (h : s.Sound world target) : s.Resolves target := ⟨h.checked, h.evaluates⟩

/-- The surroundings of checks in a sound session are reliable. -/
theorem Sound.reliable (h : s.Sound world target) :
    (s.checking world).Reliable (s.Checked target) target :=
  ⟨fun _ hslot => h.resolves.ensures_findLate hslot, h.covers, h.meets, h.cites⟩

/-- The surroundings of a check are those of the session that it starts in. -/
theorem reads_surroundings (s : Session) (world : World) :
    Reads (surroundings world) s (s.checking world) :=
  (Reads.get s).bind (.pure _ s)

/-- A check in a session is one of the type that a model is of. -/
theorem run_errors {type v : Value} {t : Schema} (htype : s.IsModel type t) (path : List String) :
    (Inspection.errors world type v path).run s =
      ((s.checking world).errors t v path).run s := by
  rw [Inspection.errors, (reads_surroundings s world).run_bind, (reads_schemaOf htype).run_bind]

end Session

end Typeward
