import Typeward.Proofs.ParallelTypes
import Typeward.Proofs.ToldChecks

/-!
# Types that differ in late references

Two types may differ in nothing but where one of them has a late reference in the place of what it
stands for. A late reference answers what the type that it stands for answers, so two such types
have the same name and are of the same kind, and a check against the one finds what a check against
the other one finds.
-/

namespace Typeward

namespace Schema

/-- Two types differ at most in late references that stand in the place of types. -/
inductive SameBehind (target : Nat → Schema) : Schema → Schema → Prop
  | parts {s s' R} (hparts : ∀ a b, R a b → SameBehind target a b) (h : s.Parallel R s') :
      SameBehind target s s'
  | left {slot s} (h : SameBehind target (target slot) s) : SameBehind target (.late slot) s
  | right {slot s} (h : SameBehind target s (target slot)) : SameBehind target s (.late slot)

variable {target : Nat → Schema} {s s' : Schema}

/-- A type differs from itself in nothing. -/
theorem SameBehind.refl (s : Schema) : s.SameBehind target s := by
  induction s using induction_components with
  | h s ih => exact .parts (fun _ _ h => h) (.refl s ih)

theorem SameBehind.symm (h : s.SameBehind target s') : s'.SameBehind target s := by
  induction h with
  | parts _ h ih => exact .parts (fun a b hab => ih b a hab) h.flip
  | left _ ih => exact .right ih
  | right _ ih => exact .left ih

end Schema

namespace Surroundings

/-- Checks of parts run alike if they are of the same parts and each of them runs alike. -/
theorem passing_errorsOfParts {cx : Surroundings (Except Raised)}
    {late : Nat → Value → List String → Except Raised (List Mismatch)}
    {S : Mismatch → Mismatch → Prop} {checks checks' : List PartCheck} {q : List String}
    (h : List.Forall₂ (fun p p' => p.step = p'.step ∧ ∀ path, passing.Rel (List.Forall₂ S)
      (cx.errorsWith late p.type p.value path) (cx.errorsWith late p'.type p'.value path))
      checks checks') :
    passing.Rel (List.Forall₂ S) (cx.errorsOfParts late q checks)
      (cx.errorsOfParts late q checks') := by
  induction h with
  | nil => exact passing.pure .nil
  | @cons p p' _ _ h _ ih =>
    obtain ⟨hstep, hcheck⟩ := h
    unfold errorsOfParts
    rw [← hstep]
    refine passing.bind (passing_refl (R := (· = ·)) _ fun _ => rfl) ?_
    rintro segments _ rfl
    refine passing.bind (hcheck _) fun _ _ hfirst => passing.bind ih fun _ _ hrest => ?_
    exact passing.pure (List.rel_append hfirst hrest)

/-- Members are tried alike if each is checked alike. -/
theorem passing_someAccepts {cx : Surroundings (Except Raised)}
    {late : Nat → Value → List String → Except Raised (List Mismatch)}
    {S : Mismatch → Mismatch → Prop} {members members' : List Schema} {v : Value} {q : List String}
    (h : List.Forall₂ (fun c c' => passing.Rel (List.Forall₂ S) (cx.errorsWith late c v q)
      (cx.errorsWith late c' v q)) members members') :
    passing.Rel (· = ·) (cx.someAccepts late members v q) (cx.someAccepts late members' v q) := by
  induction h with
  | nil => exact passing.pure rfl
  | cons h _ ih =>
    unfold someAccepts
    refine passing.bind h fun found found' hfound => ?_
    cases hfound with
    | nil => exact passing.pure rfl
    | cons => exact ih

end Surroundings

/-- A check of a value or of a part of it is of a value that can occur, and that is nested no
deeper. -/
theorem PartCheck.IsOf.fit {Shows : Nat → Prop} {p : PartCheck} {v : Value} (h : p.IsOf v)
    (hv : v.Fit Shows) : p.value.Fit Shows ∧ p.value.depth ≤ v.depth := by
  obtain ⟨step, type, value⟩ := p
  cases step with
  | none =>
    obtain rfl : value = v := h
    exact ⟨hv, le_rfl⟩
  | some step =>
    have hcontent := (show v.StepsTo step value from h).content
    exact ⟨hcontent.fit hv, hcontent.depth_lt.le⟩

/-- Two mismatches look the same: they are of the same value at the same place, and the types that
were expected have the same name. -/
structure Mismatch.LooksLike (e e' : Mismatch) : Prop where
  value : e.value = e'.value
  path : e.path = e'.path
  valueText : e.valueText = e'.valueText
  expectedName : e.expectedName = e'.expectedName

theorem Mismatch.LooksLike.symm {e e' : Mismatch} (h : e.LooksLike e') : e'.LooksLike e :=
  ⟨h.value.symm, h.path.symm, h.valueText.symm, h.expectedName.symm⟩

namespace Schema.SameBehind

open Surroundings

variable {world : World} {target : Nat → Schema} {slotCount count : Nat} {text : Nat → String}
  {Shows : Nat → Prop} {s s' : Schema}

/-- Types that differ at most in late references have the same name. -/
theorem passing_name (h : s.SameBehind target s')
    (htargets : ∀ slot < count, (target slot).Grounded (Value.Fit Shows) count)
    (hcount : count ≤ slotCount) (hs : s.Grounded (Value.Fit Shows) count)
    (hs' : s'.Grounded (Value.Fit Shows) count) :
    passing.Same True ((told world target slotCount text).name s)
      ((told world target slotCount text).name s') := by
  induction h with
  | parts _ h ih =>
    have hnames := h.mem.mono fun a b ⟨hab, ha, hb⟩ => ih a b hab (hs.part a ha) (hs'.part b hb)
    exact hnames.same_nameWith (fun _ _ _ => passing_refl _ fun _ _ => rfl)
      fun _ _ => passing_refl _ fun _ _ => rfl
  | left _ ih =>
    intro name hname
    exact ih (htargets _ hs.lt) hs' name ((lateName_iff htargets hcount hs.lt).1 hname)
  | right _ ih =>
    intro name hname
    obtain ⟨name', hname', heq⟩ := ih hs (htargets _ hs'.lt) name hname
    exact ⟨name', (lateName_iff htargets hcount hs'.lt).2 hname', heq⟩

/-- They have the same name among other slots, too. -/
theorem passing_name_among (h : s.SameBehind target s')
    (htargets : ∀ slot < count, (target slot).Grounded (Value.Fit Shows) count) {more : Nat}
    (hmore : count ≤ more) (hs : s.Grounded (Value.Fit Shows) count)
    (hs' : s'.Grounded (Value.Fit Shows) count) :
    passing.Rel (· = ·) ((told world target slotCount text).name s)
      ((told world target more text).name s') := by
  intro name hname
  obtain ⟨name₁, hname₁, heq₁⟩ := passing_name_slots htargets hmore hs name hname
  obtain ⟨name₂, hname₂, heq₂⟩ := h.passing_name htargets hmore hs hs' name₁ hname₁
  exact ⟨name₂, hname₂, (heq₁ trivial).trans (heq₂ trivial)⟩

/-- A check against one of two types that differ at most in late references finds what a check
against the other one finds. -/
theorem passing_errorsWith (h : s.SameBehind target s')
    (htargets : ∀ slot < count, (target slot).Grounded (Value.Fit Shows) count)
    (hcount : count ≤ slotCount) (hs : s.Grounded (Value.Fit Shows) count)
    (hs' : s'.Grounded (Value.Fit Shows) count) {v : Value} (hv : v.Fit Shows) {fuel : Nat}
    (hfuel : (v.depth + 1) * count ≤ fuel) (path : List String) :
    passing.Rel (List.Forall₂ Mismatch.LooksLike)
      ((told world target slotCount text).errorsWith
        ((told world target slotCount text).lateErrors fuel) s v path)
      ((told world target slotCount text).errorsWith
        ((told world target slotCount text).lateErrors fuel) s' v path) := by
  induction h generalizing v path with
  | @parts s s' R hparts h ih =>
    have hreject : passing.Rel (List.Forall₂ Mismatch.LooksLike)
        ((told world target slotCount text).reject s v path)
        ((told world target slotCount text).reject s' v path) := by
      refine passing.bind (passing_refl (R := (· = ·)) _ fun _ => rfl) fun _ _ htext => ?_
      refine passing.bind ((SameBehind.parts hparts h).passing_name htargets hcount hs hs')
        fun _ _ hname => ?_
      exact passing.pure (.cons ⟨rfl, rfl, htext, hname trivial⟩ .nil)
    have hcourse := h.mem.course world v
    have hchecks {a b : Schema} (hab : R a b ∧ a ∈ s.components ∧ b ∈ s'.components) {x : Value}
        (hx : x.Fit Shows ∧ x.depth ≤ v.depth) (path : List String) :=
      ih a b hab.1 (hs.part a hab.2.1) (hs'.part b hab.2.2) hx.1
        ((Nat.mul_le_mul_right _ (Nat.succ_le_succ hx.2)).trans hfuel) path
    have hworld : (told world target slotCount text).world = world := rfl
    rw [errorsWith_eq, errorsWith_eq, hworld]
    generalize hfirst : s.course world v = course at hcourse ⊢
    generalize s'.course world v = course' at hcourse ⊢
    cases hcourse with
    | fail e => exact passing.raise e
    | reject => exact hreject
    | parts hparts =>
      refine passing_errorsOfParts (List.forall₂_iff_zip.2 ⟨hparts.length_eq, fun {p p'} hp => ?_⟩)
      obtain ⟨hstep, hvalue, htype⟩ := (List.forall₂_iff_zip.1 hparts).2 hp
      have hof := (Schema.mem_components_of_parts hfirst (List.of_mem_zip hp).1).2
      exact ⟨hstep, fun path => hvalue ▸ hchecks htype (hof.fit hv) path⟩
    | union hmembers =>
      refine passing.bind (passing_someAccepts (hmembers.imp fun _ _ hab =>
        hchecks hab ⟨hv, le_rfl⟩ path)) ?_
      rintro accepts _ rfl
      cases accepts with
      | true => exact passing.pure .nil
      | false => exact hreject
    | @refinement a b predicate hab =>
      refine passing.bind (hchecks hab ⟨hv, le_rfl⟩ path) fun found found' hfound => ?_
      cases hfound with
      | cons h hrest => exact passing.pure (.cons h hrest)
      | nil =>
        dsimp only
        cases world.holds predicate v with
        | error e => exact passing.raise e
        | ok holds =>
          cases holds with
          | true => exact passing.pure .nil
          | false => exact hreject
    | late slot =>
      exact passing_refl _ fun found => List.forall₂_same.2 fun e _ => ⟨rfl, rfl, rfl, rfl⟩
  | left _ ih =>
    intro found hfound
    exact ih (htargets _ hs.lt) hs' hv hfuel path found
      ((lateErrors_iff htargets hv hfuel hs.lt).1 hfound)
  | right _ ih =>
    intro found hfound
    obtain ⟨found', hfound', hall⟩ := ih hs (htargets _ hs'.lt) hv hfuel path found hfound
    exact ⟨found', (lateErrors_iff htargets hv hfuel hs'.lt).2 hfound', hall⟩

/-- Behind types that differ at most in late references there are types of one form. -/
theorem passing_settled (h : s.SameBehind target s')
    (htargets : ∀ slot < count, (target slot).Grounded (Value.Fit Shows) count)
    (hcount : count ≤ slotCount) (hs : s.Grounded (Value.Fit Shows) count)
    (hs' : s'.Grounded (Value.Fit Shows) count) :
    passing.Rel (fun r r' => r.Grounded (Value.Fit Shows) count ∧
        r'.Grounded (Value.Fit Shows) count ∧ r.Parallel (SameBehind target) r')
      ((told world target slotCount text).settled s)
      ((told world target slotCount text).settled s') := by
  induction h with
  | @parts s s' _ hparts h _ =>
    by_cases hlate : ∃ slot, s = .late slot
    · obtain ⟨slot, rfl⟩ := hlate
      cases h
      intro r hr
      exact ⟨r, hr, grounded_of_settle htargets hs hr, grounded_of_settle htargets hs hr,
        .refl r fun c _ => .refl c⟩
    · have hfirst : ∀ slot, s ≠ .late slot := not_exists.1 hlate
      have hsecond : ∀ slot, s' ≠ .late slot := by
        rintro slot rfl
        cases h
        exact hlate ⟨slot, rfl⟩
      rw [settled, settled, settle_of_ne_late hfirst, settle_of_ne_late hsecond]
      exact passing.pure ⟨hs, hs', h.mono hparts⟩
  | left _ ih =>
    intro r hr
    exact ih (htargets _ hs.lt) hs' r ((settled_iff htargets hcount hs.lt).1 hr)
  | right _ ih =>
    intro r hr
    obtain ⟨r', hr', hall⟩ := ih hs (htargets _ hs'.lt) r hr
    exact ⟨r', (settled_iff htargets hcount hs'.lt).2 hr', hall⟩

/-- So there are among other slots, too. -/
theorem passing_settled_among (h : s.SameBehind target s')
    (htargets : ∀ slot < count, (target slot).Grounded (Value.Fit Shows) count) {more : Nat}
    (hmore : count ≤ more) (hs : s.Grounded (Value.Fit Shows) count)
    (hs' : s'.Grounded (Value.Fit Shows) count) :
    passing.Rel (fun r r' => r.Grounded (Value.Fit Shows) count ∧
        r'.Grounded (Value.Fit Shows) count ∧ r.Parallel (SameBehind target) r')
      ((told world target slotCount text).settled s)
      ((told world target more text).settled s') := fun r hr =>
  h.passing_settled htargets hmore hs hs' r (settled_slots htargets hmore hs hr)

end Schema.SameBehind

namespace Schema

/-- Two types that make sense among so many slots differ in late references at most. -/
structure StandsFor (target : Nat → Schema) (Shows : Nat → Prop) (count : Nat) (s s' : Schema) :
    Prop where
  same : s.SameBehind target s'
  grounded : s.Grounded (Value.Fit Shows) count
  grounded' : s'.Grounded (Value.Fit Shows) count

variable {world : World} {target : Nat → Schema} {Shows : Nat → Prop} {slotCount count : Nat}
  {text : Nat → String} {s s' : Schema}

/-- A type that makes sense stands for itself. -/
theorem StandsFor.refl (h : s.Grounded (Value.Fit Shows) count) :
    s.StandsFor target Shows count s := ⟨.refl s, h, h⟩

/-- One type stands for another one just if this one stands for it. -/
theorem StandsFor.symm (h : s.StandsFor target Shows count s') :
    s'.StandsFor target Shows count s := ⟨h.same.symm, h.grounded', h.grounded⟩

/-- A type that is no literal and no late reference stands for one of the same form if its parts
stand for the parts of that one. -/
theorem StandsFor.of_parallel (hliteral : ∀ value shown, s ≠ .literal value shown)
    (hlate : ∀ slot, s ≠ .late slot) (h : s.Parallel (StandsFor target Shows count) s') :
    s.StandsFor target Shows count s' := by
  have hparts := h.kind_components.2
  refine ⟨.parts (fun _ _ h => h.same) h, .of_parts hliteral hlate fun c hc => ?_,
    .of_parts ?_ ?_ fun c hc => ?_⟩
  · obtain ⟨c', -, hstands⟩ := exists_mem_of_forall₂ hparts.flip hc
    exact hstands.grounded
  · rintro value shown rfl
    cases h
    exact hliteral _ _ rfl
  · rintro slot rfl
    cases h
    exact hlate _ rfl
  · obtain ⟨c', -, hstands⟩ := exists_mem_of_forall₂ hparts hc
    exact hstands.grounded'

open Surroundings in
/-- Where nothing is wrong with a value for a type, nothing is for one that it stands for. -/
theorem StandsFor.errorsWith_eq_nil (h : s.StandsFor target Shows count s')
    (htargets : ∀ slot < count, (target slot).Grounded (Value.Fit Shows) count)
    (hcount : count ≤ slotCount) {v : Value} (hv : v.Fit Shows) {fuel : Nat}
    (hfuel : (v.depth + 1) * count ≤ fuel) {path : List String}
    (hnil : (told world target slotCount text).errorsWith
      ((told world target slotCount text).lateErrors fuel) s v path = .ok []) :
    (told world target slotCount text).errorsWith
      ((told world target slotCount text).lateErrors fuel) s' v path = .ok [] := by
  obtain ⟨found, hfound, hall⟩ :=
    h.same.passing_errorsWith htargets hcount h.grounded h.grounded' hv hfuel path [] hnil
  obtain rfl := List.forall₂_nil_left_iff.1 hall
  exact hfound

end Schema

end Typeward
