import Typeward.Proofs.MeaningPreservation

/-!
# The places that mismatches blame

Every mismatch that a check finds blames the right place: its path goes on from where the check
started by steps that lead from the whole value to the value of the mismatch, and the type that was
expected there is part of the whole type and rejects that value by itself. So a check of a value
under a label answers the value if the type accepts it, and otherwise raises a mismatch whose path
starts with the label.
-/

namespace Typeward

namespace Session

variable {world : World} {target : Nat → Schema} {Shows : Nat → Prop} {s s' : Session}

/-- In a session, late references stand for types, and the runtime types that values may hold can be
shown, also when the session has gone on. -/
structure Settled (s : Session) (world : World) (target : Nat → Schema) (Shows : Nat → Prop) :
    Prop extends s.Resolves target where
  grounded : ∀ slot < s.slots.size, (target slot).Grounded (Value.Fit Shows) s.slots.size
  shows : ∀ n, Shows n → ∀ s', s.Checked target s' →
    (s'.checking world).Shows (s.Checked target) n

/-- In the surroundings of later checks, late references lead to the same types. -/
theorem Settled.surroundings (h : s.Settled world target Shows) (hs' : s.Checked target s') :
    (s'.checking world).Settled (s.Checked target) (fun _ => False) target s.slots.size Shows where
  resolves _ hslot := h.ensures_findLate hslot
  grounded := h.grounded
  shows n hn := (h.shows n hn s' hs').ends

/-- A mismatch that a check found, of a value and a type that a check without a session finds it of
alone, is found again from its place in a session that has gone on. -/
theorem Settled.yields_alone (h : s.Settled world target Shows) {t : Schema} {v : Value}
    {q₁ q₂ : List String} {e e₀ : Mismatch}
    (he : Surroundings.SameMismatch (s.checking world) (s.Checked target) target s.slots.size Shows
      t v q₁ q₂ e e₀)
    (halone : ∃ fuel, (Surroundings.plain world target s.slots.size).errorsWith
      ((Surroundings.plain world target s.slots.size).lateErrors fuel) e₀.expected e₀.value e₀.path =
        .ok [e₀])
    (hs' : s.Checked target s') :
    Yields (do (← Typeward.surroundings world).errors e.expected e.value e.path) s' fun again _ =>
      ∃ e', again = [e'] ∧ e'.value = e.value ∧ e'.path = e.path ∧ e'.expected = e.expected ∧
        ((∀ n, ¬ Shows n) → e' = e) := by
  obtain ⟨fuel, halone⟩ := halone
  have hslots := hs'.goesOn.slots_size_le
  have hplace := Surroundings.errorsWith_slots hslots h.grounded (he.expected ▸ he.grounded)
    (Surroundings.alone_everywhere halone e.path)
  have hplain := Surroundings.errors_of_errorsWith hslots h.grounded (he.expected ▸ he.grounded)
    (he.value ▸ he.fit) hplace
  rw [← he.expected, ← he.value] at hplain
  have hmirrored := (h.surroundings hs').mirrored_errorsWith he.grounded he.fit
    ((e.value.depth + 1) * s'.slots.size) (.refl e.path)
  refine (reads_surroundings s' world).yields_bind ?_
  refine (ensures_of_mirrored hmirrored hplain s' hs').mono fun again _ hagain => ?_
  obtain ⟨e', _, he', hnil, rfl⟩ := List.forall₂_cons_right_iff.1 hagain.2
  obtain rfl := List.forall₂_nil_right_iff.1 hnil
  obtain ⟨q, hq, -⟩ := he'.reaches
  have hlength : q.length = 0 := by
    have := he'.length
    rw [hq, List.length_append] at this
    simpa using this
  refine ⟨e', rfl, he'.value, ?_, he'.expected, ?_⟩
  · rw [hq, List.eq_nil_of_length_eq_zero hlength, List.append_nil]
  · intro hnone
    rw [he'.same hnone, ← he.same hnone]

/-- What a check finds blames the right place. -/
theorem Settled.blames (h : s.Settled world target Shows) {type v : Value} {t : Schema}
    (htype : s.IsModel type t) (ht : t.Grounded (Value.Fit Shows) s.slots.size) (hv : v.Fit Shows)
    {path : List String} {found : List Mismatch}
    (hfound : (Inspection.errors world type v path).run s = (.ok found, s')) :
    s.Checked target s' ∧ ∀ e ∈ found, ∃ q, e.path = path ++ q ∧
      v.Reaches (Step.Spelled (s.checking world) (s.Checked target)) q e.value ∧
      e.expected.IsPartOf target t ∧
      ∀ s'', s.Checked target s'' →
        Yields (do (← Typeward.surroundings world).errors e.expected e.value e.path) s''
          fun again _ => ∃ e', again = [e'] ∧ e'.value = e.value ∧ e'.path = e.path ∧
            e'.expected = e.expected ∧ ((∀ n, ¬ Shows n) → e' = e) := by
  rw [run_errors htype] at hfound
  have hmirrored := (h.surroundings h.checked).mirrored_errorsWith ht hv
    ((v.depth + 1) * s.slots.size) (.refl path)
  obtain ⟨hs', found₀, hfound₀, hall⟩ := exists_of_mirrored hmirrored h.checked hfound
  refine ⟨hs', fun e he => ?_⟩
  obtain ⟨e₀, he₀, hsame⟩ := exists_mem_of_forall₂ hall.flip he
  obtain ⟨q, hq, hreaches⟩ := hsame.reaches
  refine ⟨q, hq, hreaches, hsame.part, fun s'' hs'' => ?_⟩
  exact h.yields_alone hsame (Surroundings.exists_alone hfound₀ e₀ he₀) hs''

/-- Every mismatch that a check finds has a path that goes on from where the check started by steps
that lead from the value to that of the mismatch, and blames a part of the type that rejects that
value by itself: a check of the two from there, now or later, finds just that mismatch. A check under
a label answers the value if the type accepts it; if the type rejects it, the check raises the first
mismatch that is found from the label; and it raises whatever keeps the type from telling. In a sound
session, if the type and the value make sense there, this can only be that an integer in one of them
is too long to be shown. -/
theorem errors_blame_right_place (h : s.Settled world target Shows) {type v : Value} {t : Schema}
    (htype : s.IsModel type t) (ht : t.Grounded (Value.Fit Shows) s.slots.size) (hv : v.Fit Shows) :
    (∀ path found s', (Inspection.errors world type v path).run s = (.ok found, s') →
      s.Checked target s' ∧ ∀ e ∈ found, ∃ q, e.path = path ++ q ∧
        v.Reaches (Step.Spelled (s.checking world) (s.Checked target)) q e.value ∧
        e.expected.IsPartOf target t ∧
        ∀ s'', s.Checked target s'' →
          Yields (do (← Typeward.surroundings world).errors e.expected e.value e.path) s''
            fun again _ => ∃ e', again = [e'] ∧ e'.value = e.value ∧ e'.path = e.path ∧
              e'.expected = e.expected ∧ ((∀ n, ¬ Shows n) → e' = e)) ∧
      (∀ label,
        (∃ s', (Inspection.accepts world type v).run s = (.ok true, s') ∧
          (Inspection.check world type v label).run s = (.ok v, s')) ∨
        (∃ e q more s', (Inspection.accepts world type v).run s = (.ok false, s') ∧
          (Inspection.check world type v label).run s = (.error (.invalid e), s') ∧
          (Inspection.errors world type v [label]).run s = (.ok (e :: more), s') ∧
          e.path = label :: q) ∨
        ∃ raised s', (Inspection.accepts world type v).run s = (.error raised, s') ∧
          (Inspection.check world type v label).run s = (.error raised, s')) ∧
      (s.Sound world target → (s.checking world).Covers (s.Checked target) t →
        v.Fit ((s.checking world).Shows (s.Checked target)) →
        (∃ b s', (Inspection.accepts world type v).run s = (.ok b, s')) ∨
          t.MeetsOverlong target v ∧
            ∃ s', (Inspection.accepts world type v).run s = (.error .unfitValue, s')) := by
  refine ⟨fun path found s' => h.blames htype ht hv,
    fun label => Inspection.check_cases world type v label s, fun hsound hcovers hfit => ?_⟩
  rw [Inspection.accepts_eq world type v [], ← bind_pure_comp]
  refine (hsound.errors_cases htype hcovers hfit []).imp ?_ (And.imp_right ?_)
  · rintro ⟨found, s', hrun, -⟩
    exact ⟨found.isEmpty, s', run_bind_of_ok hrun⟩
  · rintro ⟨s', hrun⟩
    exact ⟨s', run_bind_of_error hrun⟩

end Session

/-- What a check finds does not depend on where it starts, but for the paths of the mismatches, which
go on from there: neither that of a check that is part of another one, nor that of one in a session.
So it does not matter for the verdict of a type on a value whether it is asked for, or a value is
checked under a label. And in a settled session it does not matter, either, which containers and
unions are around the value and the type, since every check of the two that answers, now or later,
has the verdict that is told of them alone. -/
theorem verdicts_independent_of_place :
    (∀ (cx : Surroundings Run) fuel t v front path,
      cx.errorsWith (cx.lateErrors fuel) t v (front ++ path) =
        moved front <$> cx.errorsWith (cx.lateErrors fuel) t v path) ∧
      (∀ world type v front path, Inspection.errors world type v (front ++ path) =
        moved front <$> Inspection.errors world type v path) ∧
      (∀ world type v path, Inspection.accepts world type v =
        List.isEmpty <$> Inspection.errors world type v path) ∧
      (∀ world type v label, Inspection.check world type v label = (do
        match ← Inspection.errors world type v [] with
        | [] => return v
        | e :: _ => throw (.invalid (e.under [label])))) ∧
      ∀ world target Shows (s s' : Session), s.Settled world target Shows → s.Checked target s' →
        ∀ t v, t.Grounded (Value.Fit Shows) s.slots.size → v.Fit Shows → ∀ fuel path found s'',
          ((s'.checking world).errorsWith ((s'.checking world).lateErrors fuel) t v path).run s' =
            (.ok found, s'') → (found = [] ↔ t.Accepts world target v) := by
  refine ⟨fun cx fuel t v front path => cx.errorsWith_append front fuel t v path,
    Inspection.errors_append, Inspection.accepts_eq, Inspection.check_eq, ?_⟩
  intro world target Shows s s' h hs' t v ht hv fuel path found s'' hfound
  exact (h.surroundings hs').verdict ht hv hs' hfound

/-- A mapping with a number where a tree should be. -/
def brokenTree : Value := .mapping false [(.ofText "leaf", .ofInt 1)]

/-- A session with trees is settled, where values hold no runtime types. -/
theorem treeSession_settled : (treeSession []).Settled Sample.world (fun _ => treeSchema)
    fun _ => False where
  toResolves := (treeSession_sound []).resolves
  grounded := by
    intro slot hslot
    refine .of_parts (by simp [treeSchema]) (by simp [treeSchema]) fun c hc => ?_
    have hc : c = .irreducible "Str" .text ∨ c = .late 0 := by
      simpa [treeSchema, Schema.components] using hc
    rcases hc with rfl | rfl
    · exact .of_parts (by simp) (by simp) (by simp [Schema.components])
    · refine .intro (by simp) (fun slot h => ?_) (by simp [Schema.components])
      obtain rfl := Schema.late.inj h
      exact Nat.zero_lt_one
  shows _ h := h.elim

/-- The check of the mapping finds the number, where it is, and expects a tree there. A check of just
the number from there finds the same. -/
theorem brokenTree_blamed : ∃ e s', (Inspection.errors Sample.world (.model 11) brokenTree
      ["tree"]).run (treeSession []) = (.ok [e], s') ∧
    e.path = ["tree", "leaf"] ∧ e.value = .ofInt 1 ∧ e.expected = treeSchema ∧
    brokenTree.Reaches (Step.Spelled ((treeSession []).checking Sample.world)
      ((treeSession []).Checked fun _ => treeSchema)) ["leaf"] (.ofInt 1) ∧
    Yields (do (← surroundings Sample.world).errors treeSchema (.ofInt 1) ["tree", "leaf"]) s'
      fun again _ => again = [e] := by
  obtain ⟨e, s', hrun, hpath, hvalue, hexpected⟩ : ∃ e s',
      (Inspection.errors Sample.world (.model 11) brokenTree ["tree"]).run (treeSession []) =
        (.ok [e], s') ∧
      e.path = ["tree", "leaf"] ∧ e.value = .ofInt 1 ∧ e.expected = treeSchema :=
    ⟨_, _, rfl, rfl, rfl, rfl⟩
  have hfit : brokenTree.Fit fun _ => False :=
    .mapping (by simp [Value.ofText, Value.Fit.constant]) (by simp [Value.ofInt, Value.Fit.constant])
  obtain ⟨hchecked, hblamed⟩ := (Session.errors_blame_right_place treeSession_settled
    ⟨11, rfl, rfl⟩ (treeSession_settled.grounded 0 Nat.zero_lt_one) hfit).1 _ _ _ hrun
  obtain ⟨q, hq, hreaches, -, halone⟩ := hblamed e List.mem_cons_self
  obtain rfl : q = ["leaf"] := by
    rw [hpath] at hq
    exact (List.cons.inj hq).2.symm
  have hagain := halone s' hchecked
  rw [hvalue, hpath, hexpected] at hagain
  rw [hvalue] at hreaches
  refine ⟨e, s', hrun, hpath, hvalue, hexpected, hreaches, hagain.mono fun again _ h => ?_⟩
  obtain ⟨e', rfl, -, -, -, hsame⟩ := h
  rw [hsame fun _ => id]

end Typeward
