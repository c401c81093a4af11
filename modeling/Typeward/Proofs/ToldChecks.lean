import Typeward.Proofs.PlainChecks

/-!
# Checks in which types have texts

A check without a session in which the runtime types that values hold have texts of their own. What it
answers depends on these texts, but not whether it answers; so the number of references that checks
are run with is enough here, too: for what a check finds, for the names of types and for the types
behind late references. A late reference therefore answers just what the type answers that it stands
for, and the number of slots does not matter.
-/

namespace Typeward

namespace Surroundings

/-- Surroundings in which each late reference stands for a type from the start, given how runtime types
are shown. -/
def fixed (world : World) (target : Nat → Schema) (slotCount : Nat)
    (modelText : Nat → Except Raised String) : Surroundings (Except Raised) where
  world
  resolve slot := .ok (target slot)
  modelText
  slotCount

/-- Surroundings in which each late reference stands for a type from the start, and each runtime type
that is used as a value has a text. -/
def told (world : World) (target : Nat → Schema) (slotCount : Nat) (text : Nat → String) :
    Surroundings (Except Raised) :=
  fixed world target slotCount fun number => .ok (text number)

variable {world : World} {target : Nat → Schema} {slotCount count : Nat} {text text' : Nat → String}
  {Shows : Nat → Prop}

/-- What is shown one way is shown another way, too. -/
theorem passing_valueText {v : Value} (hv : v.Fit Shows) :
    passing.Same False ((told world target slotCount text).valueText v)
      ((told world target slotCount text').valueText v) :=
  hv.same_textWith fun n _ => passing.pure (a := text n) (b := text' n) False.elim

/-- A late reference that has a name has one, too, if types are shown another way. -/
theorem passing_lateName_texts (htargets : ∀ slot < count, (target slot).Grounded (Value.Fit Shows) count)
    (fuel : Nat) : ∀ slot < count, passing.Same False
      ((told world target slotCount text).lateName fuel slot)
      ((told world target slotCount text').lateName fuel slot) :=
  passing_lateName (fun _ _ => rfl) (fun _ _ => rfl) (fun _ hv => passing_valueText hv) htargets
    le_rfl

variable (world slotCount text text') in
/-- A check runs alike however types are shown. -/
theorem alike_texts (htargets : ∀ slot < count, (target slot).Grounded (Value.Fit Shows) count) :
    Alike passing (told world target slotCount text) (told world target slotCount text')
      (fun s v => s.Grounded (Value.Fit Shows) count ∧ v.Fit Shows) (fun _ _ => True)
      fun _ _ _ _ _ _ => True where
  world := rfl
  inherited := .of_parts (fun _ hs => hs.part) fun _ _ _ hv hstep => hstep.content.fit hv
  reject := by
    rintro s v q₁ q₂ ⟨hs, hv⟩ -
    refine passing.bind (passing_valueText hv) fun _ _ _ => ?_
    refine passing.bind (Q := fun _ _ => True) ?_ fun _ _ _ => passing.pure (.cons trivial .nil)
    exact passing.mono (fun _ _ _ => trivial) (hs.same_nameWith (P := False)
      (fun _ hv => passing_valueText hv) (passing_lateName_texts htargets slotCount))
  part := by
    rintro s v checks ⟨step, type, value⟩ q₁ q₂ ⟨-, hv⟩ hcourse hp -
    have hof := (Schema.mem_components_of_parts hcourse hp).2
    have hpure (g₁ g₂ : List String) : passing.Rel (fun _ _ => True ∧ ∀ _ _ : Mismatch, True → True)
        (.ok g₁) (.ok g₂) := passing.pure ⟨trivial, fun _ _ _ => trivial⟩
    cases step with
    | none => exact hpure _ _
    | some step =>
      cases (show v.StepsTo step value from hof) with
      | element | tuple | property => exact hpure _ _
      | key hentries he =>
        have hk := (Value.StepsTo.key hentries he).content.fit hv
        exact passing.bind (passing_valueText hk) fun _ _ _ => hpure _ _
      | entry hentries he =>
        have hk := (Value.StepsTo.key hentries he).content.fit hv
        refine passing.bind (hk.same_bareTextWith (P := False) fun n _ => ?_) fun _ _ _ => hpure _ _
        exact passing.pure (a := text n) (b := text' n) False.elim
  base _ _ _ _ _ _ := trivial

/-- A late reference that answers answers, too, if types are shown another way. -/
theorem exists_of_texts (htargets : ∀ slot < count, (target slot).Grounded (Value.Fit Shows) count)
    {fuel slot : Nat} (hslot : slot < count) {v : Value} (hv : v.Fit Shows) {path : List String}
    {found : List Mismatch}
    (hfound : (told world target slotCount text).lateErrors fuel slot v path = .ok found) :
    ∃ found', (told world target slotCount text').lateErrors fuel slot v path = .ok found' := by
  have hrel := (alike_texts world slotCount text text' htargets).lateErrors
    (fun next x hon => ?_) fuel slot v path path
      ⟨.intro nofun (fun _ h => Schema.late.inj h ▸ hslot) nofun, hv⟩ trivial
  · obtain ⟨found', hfound', -⟩ := hrel found hfound
    exact ⟨found', hfound'⟩
  · exact passing.pure ⟨rfl, ⟨htargets next hon.1.lt, hon.2⟩, fun _ _ _ _ h => h⟩

/-- As many references for each level of the value as there are slots are enough, however types are
shown. -/
theorem lateErrors_enough
    (htargets : ∀ slot < count, (target slot).Grounded (Value.Fit Shows) count) {v : Value}
    (hv : v.Fit Shows) {fuel more slot : Nat} (hfuel : (v.depth + 1) * count ≤ fuel)
    (hslot : slot < count) {path : List String} {found : List Mismatch}
    (hfound : (told world target slotCount text).lateErrors more slot v path = .ok found) :
    (told world target slotCount text).lateErrors fuel slot v path = .ok found := by
  obtain ⟨plainFound, hplain⟩ : ∃ plainFound,
      (plain world target slotCount).lateErrors more slot v path = .ok plainFound :=
    exists_of_texts htargets hslot hv hfound
  have hanswers : Answers world target slotCount fuel slot v :=
    (answers_enough htargets v.depth v hv rfl slot hslot more (answers_of_ok hplain)).mono hfuel
  have hsame : (told world target slotCount fun _ => "").lateErrors fuel slot v path =
      .ok plainFound := hanswers.eq_ok hplain
  obtain ⟨found', hfound'⟩ : ∃ found',
      (told world target slotCount text).lateErrors fuel slot v path = .ok found' :=
    exists_of_texts htargets hslot hv hsame
  rw [hfound']
  exact (lateErrors_mono (Nat.le_max_left fuel more) hfound').symm.trans
    (lateErrors_mono (Nat.le_max_right fuel more) hfound)

/-- More references may be followed without a different name. -/
theorem lateName_mono (htargets : ∀ slot < count, (target slot).Grounded (Value.Fit Shows) count)
    {fuel more : Nat} (hle : fuel ≤ more) {slot : Nat} (hslot : slot < count) {name : String}
    (hname : (told world target slotCount text).lateName fuel slot = .ok name) :
    (told world target slotCount text).lateName more slot = .ok name := by
  obtain ⟨name', hname', heq⟩ := passing_lateName (P := True) (fun _ _ => rfl) (fun _ _ => rfl)
    (fun _ _ => passing_refl _ fun _ _ => rfl) htargets hle slot hslot name hname
  exact heq trivial ▸ hname'

/-- As many references as there are slots are enough for a name. -/
theorem lateName_enough
    (htargets : ∀ slot < count, (target slot).Grounded (Value.Fit Shows) count) {more slot : Nat}
    (hcount : count ≤ slotCount) (hslot : slot < count) {name : String}
    (hname : (told world target slotCount text).lateName more slot = .ok name) :
    (told world target slotCount text).lateName slotCount slot = .ok name := by
  have hnamed : ∃ name, (told world target slotCount text).lateName count slot = .ok name := by
    refine enough_of_steady (fun fuel slot =>
      ∃ name, (told world target slotCount text).lateName fuel slot = .ok name)
      (fun slot hslot k l hkl ⟨name, h⟩ => ⟨name, lateName_mono htargets hkl hslot h⟩)
      (fun k hsame slot hslot h => ?_) hslot ⟨name, hname⟩
    obtain ⟨name, h⟩ := h
    have hpassing : passing.Same False ((told world target slotCount text).lateName (k + 2) slot)
        ((told world target slotCount text).lateName (k + 1) slot) := by
      refine (htargets slot hslot).same_nameWith
        (fun v _ => passing_refl _ fun _ => False.elim) fun next hnext found hfound => ?_
      obtain ⟨name, h⟩ := hsame next hnext ⟨found, hfound⟩
      exact ⟨name, h, False.elim⟩
    obtain ⟨name', h', -⟩ := hpassing name h
    exact ⟨name', h'⟩
  obtain ⟨name', hname'⟩ := hnamed
  have heq := (lateName_mono htargets (Nat.le_max_left count more) hslot hname').symm.trans
    (lateName_mono htargets (Nat.le_max_right count more) hslot hname)
  rw [← Except.ok.inj heq]
  exact lateName_mono htargets hcount hslot hname'

/-- The number of slots does not matter for the name of a late reference. -/
theorem lateName_slots (fuel more slot : Nat) :
    (told world target slotCount text).lateName fuel slot =
      (told world target more text).lateName fuel slot := by
  induction fuel generalizing slot with
  | zero => rfl
  | succ fuel ih =>
    have hlate : (told world target slotCount text).lateName fuel =
        (told world target more text).lateName fuel := funext ih
    rw [lateName, lateName, hlate]
    rfl

/-- Among other slots, a type has the same name. -/
theorem passing_name_slots
    (htargets : ∀ slot < count, (target slot).Grounded (Value.Fit Shows) count) {more : Nat}
    (hcount : count ≤ more) {s : Schema} (hs : s.Grounded (Value.Fit Shows) count) :
    passing.Same True ((told world target slotCount text).name s)
      ((told world target more text).name s) := by
  refine hs.same_nameWith (fun _ _ => passing_refl _ fun _ _ => rfl) fun slot hslot name hname => ?_
  rw [lateName_slots _ more] at hname
  exact ⟨name, lateName_enough htargets hcount hslot hname, fun _ => rfl⟩

variable (world slotCount text) in
/-- Among other slots, a check runs alike. -/
theorem alike_told_slots
    (htargets : ∀ slot < count, (target slot).Grounded (Value.Fit Shows) count) {more : Nat}
    (hcount : count ≤ more) :
    Alike passing (told world target slotCount text) (told world target more text)
      (fun s v => s.Grounded (Value.Fit Shows) count ∧ v.Fit Shows) (· = ·)
      fun _ _ _ _ => (· = ·) where
  world := rfl
  inherited := .of_parts (fun _ hs => hs.part) fun _ _ _ hv hstep => hstep.content.fit hv
  reject := by
    rintro s v q _ ⟨hs, -⟩ rfl
    refine passing.bind (passing_refl (R := (· = ·)) _ fun _ => rfl) fun text _ htext => ?_
    refine passing.bind (passing_name_slots htargets hcount hs) fun _ _ hname => ?_
    exact passing.pure (.cons (by rw [htext, hname trivial]) .nil)
  part := by
    rintro s v checks p q _ - - - rfl
    exact passing_refl (x := (told world target slotCount text).segments p.step)
      fun _ => ⟨rfl, fun _ _ he => he⟩
  base _ _ _ _ _ he := he

/-- Among other slots, a check finds the same. -/
theorem errors_slots (htargets : ∀ slot < count, (target slot).Grounded (Value.Fit Shows) count)
    {more : Nat} (hcount : count ≤ more) {s : Schema} (hs : s.Grounded (Value.Fit Shows) count)
    {v : Value} (hv : v.Fit Shows) {path : List String} {found : List Mismatch}
    (hfound : (told world target slotCount text).errors s v path = .ok found) :
    (told world target more text).errors s v path = .ok found := by
  have halike := alike_told_slots world slotCount text htargets hcount
  have hlate : ∀ slot x q₁ q₂, (Schema.late slot).Grounded (Value.Fit Shows) count ∧ x.Fit Shows →
      q₁ = q₂ → passing.Rel (List.Forall₂ (· = ·))
        ((told world target slotCount text).lateErrors ((v.depth + 1) * slotCount) slot x q₁)
        ((told world target more text).lateErrors ((v.depth + 1) * slotCount) slot x q₂) :=
    halike.lateErrors (fun slot x hon => passing.pure (b := target slot)
      ⟨rfl, ⟨htargets slot hon.1.lt, hon.2⟩, fun _ _ _ _ he => he⟩) _
  have hsame := eq_of_passing (passing.mono (fun _ _ => List.forall₂_eq_eq_eq ▸ id)
    (halike.errorsWith hlate s v path path ⟨hs, hv⟩ rfl)) hfound
  have hinherited : Inherited world fun s x =>
      s.Grounded (Value.Fit Shows) count ∧ x.Fit Shows ∧ x.depth ≤ v.depth := by
    refine .of_parts (fun s hs => hs.part) fun x step y hx hstep => ?_
    have hy := hstep.content.fit hx.1
    have hdepth := hstep.content.depth_lt
    exact ⟨hy, hdepth.le.trans hx.2⟩
  refine errorsWith_of_late hinherited (fun slot x path found hon hfound => ?_)
    ⟨hs, hv, le_rfl⟩ hsame
  exact lateErrors_enough htargets hon.2.1
    (Nat.mul_le_mul (Nat.succ_le_succ hon.2.2) hcount) hon.1.lt hfound

/-- A late reference has the name of the type that it stands for. -/
theorem lateName_iff (htargets : ∀ slot < count, (target slot).Grounded (Value.Fit Shows) count)
    (hcount : count ≤ slotCount) {slot : Nat} (hslot : slot < count) {name : String} :
    (told world target slotCount text).lateName slotCount slot = .ok name ↔
      (told world target slotCount text).name (target slot) = .ok name := by
  constructor
  · intro h
    exact lateName_mono htargets (Nat.le_succ slotCount) hslot h
  · intro h
    have hsucc : (told world target slotCount text).lateName (slotCount + 1) slot = .ok name := h
    exact lateName_enough htargets hcount hslot hsucc

/-- A late reference answers what the type answers that it stands for. -/
theorem lateErrors_iff (htargets : ∀ slot < count, (target slot).Grounded (Value.Fit Shows) count)
    {v : Value} (hv : v.Fit Shows) {fuel slot : Nat} (hfuel : (v.depth + 1) * count ≤ fuel)
    (hslot : slot < count) {path : List String} {found : List Mismatch} :
    (told world target slotCount text).lateErrors fuel slot v path = .ok found ↔
      (told world target slotCount text).errorsWith
        ((told world target slotCount text).lateErrors fuel) (target slot) v path = .ok found := by
  constructor
  · intro h
    exact lateErrors_mono (Nat.le_succ fuel) h
  · intro h
    have hsucc : (told world target slotCount text).lateErrors (fuel + 1) slot v path =
        .ok found := h
    exact lateErrors_enough htargets hv hfuel hslot hsucc

/-- What is behind a late reference is what is behind the type that it stands for. -/
theorem settle_late (fuel slot : Nat) :
    (told world target slotCount text).settle (fuel + 1) (.late slot) =
      (told world target slotCount text).settle fuel (target slot) := rfl

/-- Behind a type that is no late reference there is just that type. -/
theorem settle_of_ne_late {s : Schema} (hs : ∀ slot, s ≠ .late slot) (fuel : Nat) :
    (told world target slotCount text).settle fuel s = .ok s := by
  cases s with
  | late slot => exact absurd rfl (hs slot)
  | _ => cases fuel <;> rfl

/-- More references may be followed without coming to a different type. -/
theorem settle_mono {fuel more : Nat} (hle : fuel ≤ more) {s r : Schema}
    (h : (told world target slotCount text).settle fuel s = .ok r) :
    (told world target slotCount text).settle more s = .ok r := by
  induction fuel generalizing more s with
  | zero =>
    cases s with
    | late slot => cases h
    | _ => exact (settle_of_ne_late (by simp) more).trans h
  | succ fuel ih =>
    obtain ⟨more, rfl⟩ : ∃ k, more = k + 1 := ⟨more - 1, by omega⟩
    cases s with
    | late slot =>
      rw [settle_late] at h ⊢
      exact ih (Nat.le_of_succ_le_succ hle) h
    | _ => exact h

/-- As many references as there are slots are enough to come to a type. -/
theorem settle_enough (htargets : ∀ slot < count, (target slot).Grounded (Value.Fit Shows) count)
    (hcount : count ≤ slotCount) {slot more : Nat} (hslot : slot < count) {r : Schema}
    (h : (told world target slotCount text).settle more (.late slot) = .ok r) :
    (told world target slotCount text).settle slotCount (.late slot) = .ok r := by
  have hfound : ∃ r, (told world target slotCount text).settle count (.late slot) = .ok r := by
    refine enough_of_steady (fun fuel slot =>
      ∃ r, (told world target slotCount text).settle fuel (.late slot) = .ok r)
      (fun _ _ k l hkl ⟨r, h⟩ => ⟨r, settle_mono hkl h⟩) (fun k hsame slot hslot h => ?_)
      hslot ⟨r, h⟩
    obtain ⟨r, h⟩ := h
    rw [settle_late] at h ⊢
    have hnext := htargets slot hslot
    generalize target slot = s at h hnext
    cases s with
    | late next => exact hsame next hnext.lt ⟨r, h⟩
    | _ => exact ⟨_, settle_of_ne_late (by simp) k⟩
  obtain ⟨r', h'⟩ := hfound
  have heq := (settle_mono (Nat.le_max_left count more) h').symm.trans
    (settle_mono (Nat.le_max_right count more) h)
  rw [← Except.ok.inj heq]
  exact settle_mono hcount h'

/-- Among other slots, there is the same type behind late references. -/
theorem settled_slots (htargets : ∀ slot < count, (target slot).Grounded (Value.Fit Shows) count)
    {more : Nat} (hcount : count ≤ more) {s r : Schema} (hs : s.Grounded (Value.Fit Shows) count)
    (h : (told world target slotCount text).settled s = .ok r) :
    (told world target more text).settled s = .ok r := by
  have hsame (fuel : Nat) (s : Schema) : (told world target slotCount text).settle fuel s =
      (told world target more text).settle fuel s := by
    induction fuel generalizing s with
    | zero => cases s <;> rfl
    | succ fuel ih =>
      cases s with
      | late slot => exact ih (target slot)
      | _ => rfl
  rw [settled, hsame] at h
  cases s with
  | late slot => exact settle_enough htargets hcount hs.lt h
  | _ => exact (settle_of_ne_late (by simp) more).trans ((settle_of_ne_late (by simp) _).symm.trans h)

/-- What is behind a late reference is behind the type that it stands for, and the other way
round. -/
theorem settled_iff (htargets : ∀ slot < count, (target slot).Grounded (Value.Fit Shows) count)
    (hcount : count ≤ slotCount) {slot : Nat} (hslot : slot < count) {r : Schema} :
    (told world target slotCount text).settled (.late slot) = .ok r ↔
      (told world target slotCount text).settled (target slot) = .ok r := by
  constructor
  · intro h
    exact settle_mono (Nat.le_succ slotCount) h
  · intro h
    exact settle_enough htargets hcount hslot ((settle_late slotCount slot).trans h)

/-- What is behind a type that makes sense makes sense. -/
theorem grounded_of_settle
    (htargets : ∀ slot < count, (target slot).Grounded (Value.Fit Shows) count) {fuel : Nat}
    {s r : Schema} (hs : s.Grounded (Value.Fit Shows) count)
    (h : (told world target slotCount text).settle fuel s = .ok r) :
    r.Grounded (Value.Fit Shows) count := by
  induction fuel generalizing s with
  | zero =>
    cases s with
    | late slot => cases h
    | _ => exact Except.ok.inj h ▸ hs
  | succ fuel ih =>
    cases s with
    | late slot => exact ih (htargets slot hs.lt) h
    | _ => exact Except.ok.inj h ▸ hs

end Surroundings

end Typeward
