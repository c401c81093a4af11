import Mathlib.Data.Finset.Card
import Mathlib.Order.Monotone.Basic
import Typeward.Proofs.Actions
import Typeward.Proofs.AlikeTexts
import Typeward.Proofs.PathShifts

/-!
# Checks without a session

A check in which each late reference stands for a type from the start needs no session: it answers,
or it raises something. What it answers does not depend on the number of references that it may
follow, as long as it answers, and the number that checks are run with is enough: as long as the
value does not get less deep, there are only so many references to be followed, and once one more of
them does not add to those that answer, none ever will.
-/

namespace Typeward

/-- Two steps go together if the second one answers whatever the first one does. -/
def passing : Lifting (Except Raised) (Except Raised) where
  Rel R x y := ∀ a, x = .ok a → ∃ b, y = .ok b ∧ R a b
  pure h := by
    intro a ha
    cases ha
    exact ⟨_, rfl, h⟩
  bind {_ _ _ _ _ _ x _ _ _} h hnext := by
    intro c hc
    cases x with
    | error e => cases hc
    | ok a =>
      obtain ⟨b, rfl, hQ⟩ := h a rfl
      exact hnext a b hQ c hc
  mono hR h a ha := by
    obtain ⟨b, hb, hab⟩ := h a ha
    exact ⟨b, hb, hR a b hab⟩
  raise _ _ h := nomatch h

/-- A step goes together with itself. -/
theorem passing_refl {α : Type} {R : α → α → Prop} (x : Except Raised α) (h : ∀ a, R a a) :
    passing.Rel R x x := fun a ha => ⟨a, ha, h a⟩

/-- What a step answers another one answers. -/
theorem eq_of_passing {α : Type} {x y : Except Raised α} {a : α}
    (h : passing.Rel (· = ·) x y) (ha : x = .ok a) : y = .ok a := by
  obtain ⟨_, hy, rfl⟩ := h a ha
  exact hy

namespace Surroundings

section Passing

variable {cx : Surroundings (Except Raised)} {On : Schema → Value → Prop}
  {late₁ late₂ : Nat → Value → List String → Except Raised (List Mismatch)}

/-- A check goes together with itself. -/
theorem alike_passing (h : Inherited cx.world On) :
    Alike passing cx cx On (· = ·) fun _ _ _ _ => (· = ·) where
  world := rfl
  inherited := h
  reject := by
    rintro s v q _ - rfl
    exact passing_refl _ fun _ => List.forall₂_refl _
  part := by
    rintro s v checks p q _ - - - rfl
    exact passing_refl _ fun _ => ⟨rfl, fun _ _ he => he⟩
  base _ _ _ _ _ he := he

/-- What a check answers it answers, too, where late references answer whatever they did. -/
theorem errorsWith_of_late (h : Inherited cx.world On)
    (hlate : ∀ slot v path found, On (.late slot) v → late₁ slot v path = .ok found →
      late₂ slot v path = .ok found)
    {s : Schema} {v : Value} {path : List String} {found : List Mismatch} (hon : On s v)
    (hfound : cx.errorsWith late₁ s v path = .ok found) :
    cx.errorsWith late₂ s v path = .ok found := by
  refine eq_of_passing (passing.mono (fun _ _ => List.forall₂_eq_eq_eq ▸ id)
    ((alike_passing h).errorsWith (fun slot v q _ hon hq => ?_) s v path path hon rfl)) hfound
  subst hq
  exact fun found hfound => ⟨found, hlate slot v q found hon hfound, List.forall₂_refl _⟩

/-- More references may be followed without a different answer. -/
theorem lateErrors_mono {fuel more : Nat} (hle : fuel ≤ more) {slot : Nat} {v : Value}
    {path : List String} {found : List Mismatch}
    (hfound : cx.lateErrors fuel slot v path = .ok found) :
    cx.lateErrors more slot v path = .ok found := by
  induction fuel generalizing more slot v path found with
  | zero => cases hfound
  | succ fuel ih =>
    obtain ⟨more, rfl⟩ : ∃ k, more = k + 1 := ⟨more - 1, by omega⟩
    rw [lateErrors] at hfound ⊢
    cases hresolve : cx.resolve slot with
    | error e =>
      rw [hresolve] at hfound
      cases hfound
    | ok s =>
      rw [hresolve] at hfound
      have hinherited : Inherited cx.world fun _ _ => True :=
        ⟨fun _ _ _ => trivial, fun _ _ _ => trivial, fun _ _ => trivial⟩
      exact errorsWith_of_late hinherited (fun slot v path found _ h => ih (by omega) h) trivial
        hfound

end Passing

/-- Surroundings in which each late reference stands for a type from the start. How runtime types are
shown is left out. -/
def plain (world : World) (target : Nat → Schema) (slotCount : Nat) :
    Surroundings (Except Raised) where
  world
  resolve slot := .ok (target slot)
  modelText _ := .ok ""
  slotCount

section Plain

variable {world : World} {target : Nat → Schema} {slotCount count : Nat} {Shows : Nat → Prop}

/-- A late reference answers with so many references at most. -/
def Answers (world : World) (target : Nat → Schema) (slotCount fuel slot : Nat) (v : Value) : Prop :=
  ∃ found, (plain world target slotCount).lateErrors fuel slot v [] = .ok found

/-- A late reference that answers with more references answers with them, too. -/
theorem Answers.mono {fuel more slot : Nat} {v : Value} (hle : fuel ≤ more)
    (h : Answers world target slotCount fuel slot v) :
    Answers world target slotCount more slot v := by
  obtain ⟨found, hfound⟩ := h
  exact ⟨found, lateErrors_mono hle hfound⟩

/-- A late reference that answers from one place answers from every place. -/
theorem answers_of_ok {fuel slot : Nat} {v : Value} {path : List String} {found : List Mismatch}
    (h : (plain world target slotCount).lateErrors fuel slot v path = .ok found) :
    Answers world target slotCount fuel slot v := by
  have hpath := (plain world target slotCount).lateErrors_append path fuel slot v []
  rw [List.append_nil, h] at hpath
  cases hstart : (plain world target slotCount).lateErrors fuel slot v [] with
  | error e =>
    rw [hstart] at hpath
    cases hpath
  | ok start => exact ⟨start, hstart⟩

/-- A late reference that answers with so many references answers what it does with others. -/
theorem Answers.eq_ok {fuel other slot : Nat} {v : Value} {path : List String}
    {found : List Mismatch} (h : Answers world target slotCount fuel slot v)
    (hother : (plain world target slotCount).lateErrors other slot v path = .ok found) :
    (plain world target slotCount).lateErrors fuel slot v path = .ok found := by
  obtain ⟨start, hstart⟩ := h
  have hpath := (plain world target slotCount).lateErrors_append path fuel slot v []
  rw [List.append_nil, hstart] at hpath
  have hmax := lateErrors_mono (Nat.le_max_left fuel other) hpath
  have hmax' := lateErrors_mono (Nat.le_max_right fuel other) hother
  rw [hpath]
  exact hmax.symm.trans hmax'

/-- If no reference comes to answer with one more, none does with two. Those of values that are
nested less deep answer already. -/
theorem Answers.settled {v : Value} {fuel : Nat} (hv : v.Fit Shows) {Fits : Value → Prop}
    (htargets : ∀ slot < count, (target slot).Grounded Fits count)
    (hbelow : ∀ x : Value, x.Fit Shows → x.depth < v.depth → ∀ slot < count, ∀ n,
      Answers world target slotCount n slot x → Answers world target slotCount fuel slot x)
    (hsame : ∀ slot < count, Answers world target slotCount (fuel + 1) slot v →
      Answers world target slotCount fuel slot v)
    {slot : Nat} (hslot : slot < count) (h : Answers world target slotCount (fuel + 2) slot v) :
    Answers world target slotCount (fuel + 1) slot v := by
  obtain ⟨found, hfound⟩ := h
  refine ⟨found, ?_⟩
  have hinherited : Inherited world fun s x =>
      s.Grounded Fits count ∧ x.Fit Shows ∧ (x = v ∨ x.depth < v.depth) := by
    refine .of_parts (fun s hs => hs.part) fun x step y hx hstep => ?_
    have hy := hstep.content.fit hx.1
    have hdepth := hstep.content.depth_lt
    refine ⟨hy, .inr ?_⟩
    rcases hx.2 with rfl | hlt
    · exact hdepth
    · exact Nat.lt_trans hdepth hlt
  refine errorsWith_of_late hinherited (fun next x path found' hon hfound' => ?_)
    ⟨htargets slot hslot, hv, .inl rfl⟩ hfound
  obtain ⟨hnext, hx, hcase⟩ := hon
  refine Answers.eq_ok ?_ hfound'
  rcases hcase with rfl | hlt
  · exact hsame next hnext.lt (answers_of_ok hfound')
  · exact hbelow x hx hlt next hnext.lt _ (answers_of_ok hfound')

/-- If more references never take an answer away, and no late reference comes to answer with one more
of them once none did before, then as many references as there are slots are enough: with more of
them, no other late reference answers. -/
theorem enough_of_steady (answers : Nat → Nat → Prop)
    (hmono : ∀ slot < count, ∀ k l, k ≤ l → answers k slot → answers l slot)
    (hsteady : ∀ k, (∀ slot < count, answers (k + 1) slot → answers k slot) →
      ∀ slot < count, answers (k + 2) slot → answers (k + 1) slot)
    {slot : Nat} (hslot : slot < count) {n : Nat} (hn : answers n slot) : answers count slot := by
  classical
  let answering (k : Nat) : Finset Nat := (Finset.range count).filter (answers k)
  have hsub : Monotone answering := fun k l hkl slot => by
    simp only [answering, Finset.mem_filter]
    exact fun h => ⟨h.1, hmono slot (Finset.mem_range.1 h.1) k l hkl h.2⟩
  have hbound (k : Nat) : (answering k).card ≤ count := by
    have hle := Finset.card_filter_le (Finset.range count) (answers k)
    rwa [Finset.card_range] at hle
  have hsettled (k : Nat) (hcard : (answering k).card = (answering (k + 1)).card) :
      (answering (k + 1)).card = (answering (k + 2)).card := by
    have heq := Finset.eq_of_subset_of_card_le (hsub (Nat.le_succ k)) hcard.ge
    refine congrArg Finset.card ((hsub (Nat.le_succ _)).antisymm fun slot hslot => ?_)
    simp only [answering, Finset.mem_filter, Finset.mem_range] at hslot ⊢
    refine ⟨hslot.1, hsteady k (fun next hnext h => ?_) slot hslot.1 hslot.2⟩
    have hmem : next ∈ answering k := by
      rw [heq]
      simpa [answering] using ⟨hnext, h⟩
    simpa [answering, hnext] using hmem
  have hcard := Nat.stabilises_of_monotone (fun k l hkl => Finset.card_le_card (hsub hkl)) hbound
    hsettled (Nat.le_max_left count n)
  have heq := Finset.eq_of_subset_of_card_le (hsub (Nat.le_max_left count n)) hcard.le
  have hmem : slot ∈ answering count := by
    rw [heq]
    simp only [answering, Finset.mem_filter, Finset.mem_range]
    exact ⟨hslot, hmono slot hslot n _ (Nat.le_max_right _ _) hn⟩
  simp only [answering, Finset.mem_filter] at hmem
  exact hmem.2

/-- As many references for each level of the value as there are late references are enough: with more
of them, no other late reference answers. -/
theorem answers_enough {Fits : Value → Prop}
    (htargets : ∀ slot < count, (target slot).Grounded Fits count) (depth : Nat) :
    ∀ v : Value, v.Fit Shows → v.depth = depth → ∀ slot < count, ∀ n,
      Answers world target slotCount n slot v →
      Answers world target slotCount ((v.depth + 1) * count) slot v := by
  induction depth using Nat.strong_induction_on with
  | _ depth ih =>
    rintro v hv rfl slot hslot n hn
    have hbelow (more : Nat) : ∀ x : Value, x.Fit Shows → x.depth < v.depth → ∀ slot < count,
        ∀ n, Answers world target slotCount n slot x →
        Answers world target slotCount (v.depth * count + more) slot x := by
      intro x hx hlt slot hslot n hn
      have hle : (x.depth + 1) * count ≤ v.depth * count := Nat.mul_le_mul_right _ hlt
      exact (ih x.depth hlt x hx rfl slot hslot n hn).mono (by omega)
    rw [Nat.succ_mul]
    -- references are counted from the number that is enough for all parts of the value
    exact enough_of_steady
      (fun more slot => Answers world target slotCount (v.depth * count + more) slot v)
      (fun _ _ k l hkl h => h.mono (by omega))
      (fun k hsame slot hslot h => Answers.settled hv htargets (hbelow k) hsame hslot h) hslot
      (hn.mono (Nat.le_add_left n _))

/-- What a check answers with any number of references it answers with that which checks are run
with. -/
theorem errors_of_errorsWith {Fits : Value → Prop} (hcount : count ≤ slotCount)
    (htargets : ∀ slot < count, (target slot).Grounded Fits count) {s : Schema} {v : Value}
    (hs : s.Grounded Fits count) (hv : v.Fit Shows) {fuel : Nat} {path : List String}
    {found : List Mismatch} (hfound : (plain world target slotCount).errorsWith
      ((plain world target slotCount).lateErrors fuel) s v path = .ok found) :
    (plain world target slotCount).errors s v path = .ok found := by
  have hinherited : Inherited world fun s x =>
      s.Grounded Fits count ∧ x.Fit Shows ∧ x.depth ≤ v.depth := by
    refine .of_parts (fun s hs => hs.part) fun x step y hx hstep => ?_
    have hy := hstep.content.fit hx.1
    have hdepth := hstep.content.depth_lt
    have := hx.2
    exact ⟨hy, by omega⟩
  refine errorsWith_of_late hinherited (fun slot x path' found' hon hfound' => ?_)
    ⟨hs, hv, Nat.le_refl _⟩ hfound
  obtain ⟨hslot, hx, hdepth⟩ := hon
  have henough := answers_enough htargets x.depth x hx rfl slot hslot.lt fuel
    (answers_of_ok hfound')
  have hle : (x.depth + 1) * count ≤ (v.depth + 1) * slotCount :=
    Nat.mul_le_mul (Nat.succ_le_succ hdepth) hcount
  exact (henough.mono hle).eq_ok hfound'

section Slots

variable {more : Nat} {Fits : Value → Prop}

/-- With more references that may be followed, a late reference has the name that it has with
fewer. -/
theorem passing_lateName {cx₁ cx₂ : Surroundings (Except Raised)} {P : Prop}
    (hresolve₁ : ∀ slot < count, cx₁.resolve slot = .ok (target slot))
    (hresolve₂ : ∀ slot < count, cx₂.resolve slot = .ok (target slot))
    (htext : ∀ v, Fits v → passing.Same P (cx₁.valueText v) (cx₂.valueText v))
    (htargets : ∀ slot < count, (target slot).Grounded Fits count) {fuel fuel' : Nat}
    (hfuel : fuel ≤ fuel') :
    ∀ slot < count, passing.Same P (cx₁.lateName fuel slot) (cx₂.lateName fuel' slot) := by
  induction fuel generalizing fuel' with
  | zero => exact fun _ _ _ h => nomatch h
  | succ fuel ih =>
    obtain ⟨fuel', rfl⟩ : ∃ k, fuel' = k + 1 := ⟨fuel' - 1, by omega⟩
    intro slot hslot
    rw [lateName, lateName, hresolve₁ slot hslot, hresolve₂ slot hslot]
    exact (htargets slot hslot).same_nameWith htext (ih (by omega))

/-- Among more slots, a check runs as among fewer. -/
theorem alike_slots (hle : slotCount ≤ more)
    (htargets : ∀ slot < count, (target slot).Grounded Fits count) :
    Alike passing (plain world target slotCount) (plain world target more)
      (fun s _ => s.Grounded Fits count ∧ True) (· = ·) fun _ _ _ _ => (· = ·) where
  world := rfl
  inherited := .of_parts (fun _ hs => hs.part) fun _ _ _ _ _ => trivial
  reject := by
    rintro s v q _ ⟨hs, -⟩ rfl
    have hlate : ∀ slot < count, passing.Same True
        ((plain world target slotCount).lateName slotCount slot)
        ((plain world target more).lateName more slot) := by
      refine passing_lateName (fun _ _ => rfl) (fun _ _ => rfl) (fun _ _ => ?_) htargets hle
      exact passing_refl _ fun _ _ => rfl
    have hname : passing.Same True ((plain world target slotCount).name s)
        ((plain world target more).name s) :=
      hs.same_nameWith (fun _ _ => passing_refl _ fun _ _ => rfl) hlate
    refine passing.bind (passing_refl (R := (· = ·)) _ fun _ => rfl) fun text _ htext => ?_
    refine passing.bind hname fun name₁ name₂ hname => ?_
    exact passing.pure (.cons (by rw [htext, hname trivial]) .nil)
  part := by
    rintro s v checks p q _ - - - rfl
    exact passing_refl (x := (plain world target slotCount).segments p.step)
      fun _ => ⟨rfl, fun _ _ he => he⟩
  base _ _ _ _ _ he := he

/-- Among more slots, a check answers what it does among fewer. -/
theorem errorsWith_slots (hle : slotCount ≤ more)
    (htargets : ∀ slot < count, (target slot).Grounded Fits count) {s : Schema} {v : Value}
    (hs : s.Grounded Fits count) {fuel : Nat} {path : List String} {found : List Mismatch}
    (hfound : (plain world target slotCount).errorsWith
      ((plain world target slotCount).lateErrors fuel) s v path = .ok found) :
    (plain world target more).errorsWith ((plain world target more).lateErrors fuel) s v path =
      .ok found := by
  have h : Alike passing (plain world target slotCount) (plain world target more)
      (fun s _ => s.Grounded Fits count ∧ True) (· = ·) fun _ _ _ _ => (· = ·) :=
    alike_slots hle htargets
  refine eq_of_passing (passing.mono (fun _ _ => List.forall₂_eq_eq_eq ▸ id) (h.errorsWith
    (h.lateErrors (fun slot v hon => ?_) fuel) s v path path ⟨hs, trivial⟩ rfl)) hfound
  intro t ht
  obtain rfl : target slot = t := Except.ok.inj ht
  exact ⟨target slot, rfl, rfl, ⟨htargets slot hon.1.lt, trivial⟩, fun _ _ _ _ he => he⟩

end Slots

end Plain

section Answered

variable {cx : Surroundings (Except Raised)}
  {late : Nat → Value → List String → Except Raised (List Mismatch)} {path : List String}
  {v : Value}

/-- If statements on the members of two lists are equivalent one by one, they are so on all. -/
theorem forall_mem_iff_of_forall₂ {α β : Type} {P : α → Prop} {Q : β → Prop} {as : List α}
    {bs : List β} (h : List.Forall₂ (fun a b => Q b ↔ P a) as bs) :
    (∀ b ∈ bs, Q b) ↔ ∀ a ∈ as, P a := by
  induction h with
  | nil => simp
  | cons hab _ ih => rw [List.forall_mem_cons, List.forall_mem_cons, hab, ih]

/-- What checks of parts find is what each of them finds. -/
theorem errorsOfParts_ok {checks : List PartCheck} {found : List Mismatch}
    (h : cx.errorsOfParts late path checks = .ok found) :
    ∃ founds : List (List Mismatch), found = founds.flatten ∧ List.Forall₂
      (fun p f => ∃ place, cx.errorsWith late p.type p.value place = .ok f) checks founds := by
  induction checks generalizing found with
  | nil =>
    obtain rfl : [] = found := Except.ok.inj h
    exact ⟨[], rfl, .nil⟩
  | cons p rest ih =>
    obtain ⟨segments, -, h⟩ := Except.bind_eq_ok.1 h
    obtain ⟨first, hfirst, h⟩ := Except.bind_eq_ok.1 h
    obtain ⟨more, hmore, h⟩ := Except.bind_eq_ok.1 h
    obtain rfl : first ++ more = found := Except.ok.inj h
    obtain ⟨founds, rfl, hall⟩ := ih hmore
    exact ⟨first :: founds, rfl, .cons ⟨_, hfirst⟩ hall⟩

/-- A value is accepted by a member whose check finds nothing; if none does, each found something. -/
theorem someAccepts_ok {members : List Schema} {b : Bool}
    (h : cx.someAccepts late members v path = .ok b) :
    if b then ∃ c ∈ members, cx.errorsWith late c v path = .ok []
    else ∀ c ∈ members, ∃ found, found ≠ [] ∧ cx.errorsWith late c v path = .ok found := by
  induction members with
  | nil =>
    obtain rfl : false = b := Except.ok.inj h
    simp
  | cons c rest ih =>
    rw [someAccepts] at h
    obtain ⟨found, hfound, h⟩ := Except.bind_eq_ok.1 h
    cases found with
    | nil =>
      obtain rfl : true = b := Except.ok.inj h
      exact ⟨c, List.mem_cons_self, hfound⟩
    | cons e more =>
      have hrest := ih h
      cases b with
      | true =>
        obtain ⟨c', hc', hempty⟩ := hrest
        exact ⟨c', List.mem_cons_of_mem _ hc', hempty⟩
      | false => exact List.forall_mem_cons.2 ⟨⟨_, List.cons_ne_nil e more, hfound⟩, hrest⟩

/-- A type that rejects a value as a whole is found as one mismatch. -/
theorem reject_ok {s : Schema} {found : List Mismatch} (h : cx.reject s v path = .ok found) :
    ∃ e, found = [e] ∧ e.expected = s ∧ e.value = v ∧ e.path = path := by
  obtain ⟨text, -, h⟩ := Except.bind_eq_ok.1 h
  obtain ⟨name, -, h⟩ := Except.bind_eq_ok.1 h
  exact ⟨_, (Except.ok.inj h).symm, rfl, rfl, rfl⟩

/-- The base of a refinement found something, or it did not, and the predicate answered. -/
theorem refinement_ok {s base : Schema} {predicate : Value} {found : List Mismatch}
    (hcourse : s.course cx.world v = .refinement base predicate)
    (h : cx.errorsWith late s v path = .ok found) :
    found ≠ [] ∧ cx.errorsWith late base v path = .ok found ∨
      cx.errorsWith late base v path = .ok [] ∧ ∃ holds, cx.world.holds predicate v = .ok holds ∧
        cx.require holds s v path = .ok found := by
  rw [errorsWith_eq, hcourse] at h
  obtain ⟨ofBase, hbase, h⟩ := Except.bind_eq_ok.1 h
  cases ofBase with
  | nil =>
    dsimp only at h
    cases hholds : cx.world.holds predicate v with
    | error e =>
      rw [hholds] at h
      cases h
    | ok holds =>
      rw [hholds] at h
      exact .inr ⟨hbase, holds, rfl, h⟩
  | cons e more =>
    obtain rfl : e :: more = found := Except.ok.inj h
    exact .inl ⟨List.cons_ne_nil e more, hbase⟩

/-- Every mismatch that a check finds, it finds as the only one of some check that it is made of: of
the value of the mismatch with the type that was expected, from the place of the mismatch. -/
theorem errorsWith_alone {P : Mismatch → Prop}
    (hlate : ∀ slot v path found, late slot v path = .ok found → ∀ e ∈ found, P e)
    (hown : ∀ e, cx.errorsWith late e.expected e.value e.path = .ok [e] → P e) (s : Schema) :
    ∀ v path found, cx.errorsWith late s v path = .ok found → ∀ e ∈ found, P e := by
  induction s using Schema.induction_components with
  | h s ih =>
    intro v path found hfound e he
    have hreject (h : cx.reject s v path = .ok found) : P e := by
      obtain ⟨e', rfl, rfl, rfl, rfl⟩ := reject_ok h
      obtain rfl := List.mem_singleton.1 he
      exact hown e hfound
    have hcheck := hfound
    rw [errorsWith_eq] at hcheck
    cases hcourse : s.course cx.world v with
    | fail e =>
      rw [hcourse] at hcheck
      cases hcheck
    | reject =>
      rw [hcourse] at hcheck
      exact hreject hcheck
    | parts checks =>
      rw [hcourse] at hcheck
      obtain ⟨founds, rfl, hall⟩ := errorsOfParts_ok hcheck
      obtain ⟨part, hpart, he⟩ := List.mem_flatten.1 he
      obtain ⟨p, hp, place, hok⟩ := exists_mem_of_forall₂ hall hpart
      exact ih p.type (Schema.mem_components_of_parts hcourse hp).1 _ _ _ hok e he
    | union members =>
      rw [hcourse] at hcheck
      obtain ⟨b, -, hcheck⟩ := Except.bind_eq_ok.1 hcheck
      cases b with
      | true =>
        obtain rfl : [] = found := Except.ok.inj hcheck
        simp at he
      | false => exact hreject hcheck
    | refinement base predicate =>
      obtain ⟨shown, rfl⟩ := Schema.exists_eq_refinement hcourse
      rcases refinement_ok hcourse hfound with ⟨-, hbase⟩ | ⟨-, holds, -, hrequire⟩
      · exact ih base List.mem_cons_self v path found hbase e he
      · cases holds with
        | true =>
          obtain rfl : [] = found := Except.ok.inj hrequire
          simp at he
        | false => exact hreject hrequire
    | late slot =>
      rw [hcourse] at hcheck
      exact hlate slot v path found hcheck e he

/-- A check that answers finds nothing wrong just when the type accepts the value. -/
theorem errorsWith_verdict {target : Nat → Schema}
    (hlate : ∀ slot v path found, late slot v path = .ok found →
      (found = [] ↔ (target slot).Accepts cx.world target v)) (s : Schema) :
    ∀ v path found, cx.errorsWith late s v path = .ok found →
      (found = [] ↔ s.Accepts cx.world target v) := by
  induction s using Schema.induction_components with
  | h s ih =>
    intro v path found hfound
    have hreject (h : cx.reject s v path = .ok found) (hnot : ¬ s.Accepts cx.world target v) :
        found = [] ↔ s.Accepts cx.world target v := by
      obtain ⟨e, rfl, -⟩ := reject_ok h
      exact iff_of_false (List.cons_ne_nil e []) hnot
    have hcheck := hfound
    rw [errorsWith_eq] at hcheck
    cases hcourse : s.course cx.world v with
    | fail e =>
      rw [hcourse] at hcheck
      cases hcheck
    | reject =>
      rw [hcourse] at hcheck
      exact hreject hcheck (Schema.not_accepts_of_reject hcourse)
    | parts checks =>
      rw [hcourse] at hcheck
      obtain ⟨founds, rfl, hall⟩ := errorsOfParts_ok hcheck
      have hverdicts : List.Forall₂ (fun p f => f = [] ↔ p.type.Accepts cx.world target p.value)
          checks founds := by
        refine ((List.forall₂_and_left _ _).2 ⟨fun _ hp => hp, hall⟩).imp fun p f hf => ?_
        obtain ⟨hp, place, hok⟩ := hf
        exact ih p.type (Schema.mem_components_of_parts hcourse hp).1 _ _ _ hok
      rw [Schema.accepts_iff_of_parts hcourse, List.flatten_eq_nil_iff]
      exact forall_mem_iff_of_forall₂ hverdicts
    | union members =>
      rw [hcourse] at hcheck
      obtain ⟨shown, rfl⟩ := Schema.exists_eq_union hcourse
      obtain ⟨b, hb, hcheck⟩ := Except.bind_eq_ok.1 hcheck
      have hsome := someAccepts_ok hb
      cases b with
      | true =>
        obtain rfl : [] = found := Except.ok.inj hcheck
        obtain ⟨c, hc, hempty⟩ := hsome
        exact iff_of_true rfl (Schema.accepts_union.2 ⟨c, hc, (ih c hc v path [] hempty).1 rfl⟩)
      | false =>
        refine hreject hcheck fun haccepts => ?_
        obtain ⟨c, hc, haccepts⟩ := Schema.accepts_union.1 haccepts
        obtain ⟨found', hne, hok⟩ := hsome c hc
        exact hne ((ih c hc v path found' hok).2 haccepts)
    | refinement base predicate =>
      obtain ⟨shown, rfl⟩ := Schema.exists_eq_refinement hcourse
      rcases refinement_ok hcourse hfound with ⟨hne, hbase⟩ | ⟨hbase, holds, hholds, hrequire⟩
      · have hnot := mt (ih base List.mem_cons_self v path found hbase).2 hne
        exact iff_of_false hne fun haccepts => hnot (Schema.accepts_refinement.1 haccepts).1
      · have hof := (ih base List.mem_cons_self v path [] hbase).1 rfl
        cases holds with
        | true =>
          obtain rfl : [] = found := Except.ok.inj hrequire
          exact iff_of_true rfl (Schema.accepts_refinement.2 ⟨hof, hholds⟩)
        | false =>
          refine hreject hrequire fun haccepts => ?_
          have htrue := (Schema.accepts_refinement.1 haccepts).2
          rw [hholds] at htrue
          cases htrue
    | late slot =>
      rw [hcourse] at hcheck
      obtain rfl := Schema.eq_late hcourse
      rw [Schema.accepts_late]
      exact hlate slot v path found hcheck

end Answered

section Verdicts

variable {world : World} {target : Nat → Schema} {slotCount : Nat}

/-- Every mismatch that a check finds is found by a check of its value with the type that was
expected, from its place, and is the only one there. -/
theorem exists_alone {fuel : Nat} {s : Schema} {v : Value} {path : List String}
    {found : List Mismatch} (hfound : (plain world target slotCount).errorsWith
      ((plain world target slotCount).lateErrors fuel) s v path = .ok found) :
    ∀ e ∈ found, ∃ fuel, (plain world target slotCount).errorsWith
      ((plain world target slotCount).lateErrors fuel) e.expected e.value e.path = .ok [e] := by
  have hlate (fuel : Nat) : ∀ slot v path found,
      (plain world target slotCount).lateErrors fuel slot v path = .ok found → ∀ e ∈ found,
        ∃ fuel, (plain world target slotCount).errorsWith
          ((plain world target slotCount).lateErrors fuel) e.expected e.value e.path = .ok [e] := by
    induction fuel with
    | zero => exact fun _ _ _ _ h => nomatch h
    | succ fuel ih =>
      exact fun slot v path found h => errorsWith_alone ih (fun e he => ⟨fuel, he⟩) _ v path found h
  exact errorsWith_alone (hlate fuel) (fun e he => ⟨fuel, he⟩) s v path found hfound

/-- A mismatch that a check finds alone is found alone from every place. -/
theorem alone_everywhere {fuel : Nat} {e : Mismatch}
    (h : (plain world target slotCount).errorsWith ((plain world target slotCount).lateErrors fuel)
      e.expected e.value e.path = .ok [e]) (path : List String) :
    (plain world target slotCount).errorsWith ((plain world target slotCount).lateErrors fuel)
      e.expected e.value path = .ok [{ e with path }] := by
  have hmoved (path : List String) := (plain world target slotCount).errorsWith_append path fuel
    e.expected e.value []
  have hplace := hmoved e.path
  have hpath := hmoved path
  rw [List.append_nil] at hplace hpath
  rw [h] at hplace
  cases hstart : (plain world target slotCount).errorsWith
      ((plain world target slotCount).lateErrors fuel) e.expected e.value [] with
  | error r =>
    rw [hstart] at hplace
    cases hplace
  | ok start =>
    rw [hstart] at hplace hpath
    obtain ⟨e', rfl, he'⟩ := List.map_eq_singleton_iff.1 (Except.ok.inj hplace).symm
    obtain ⟨value, place, expected, valueText, expectedName⟩ := e'
    have hnil : place = [] := by simpa [Mismatch.under] using congrArg Mismatch.path he'
    subst hnil
    rw [hpath, ← he']
    simp [moved, Mismatch.under]

/-- A check that answers finds nothing wrong just when the type accepts the value. -/
theorem plain_verdict {fuel : Nat} {s : Schema} {v : Value} {path : List String}
    {found : List Mismatch} (hfound : (plain world target slotCount).errorsWith
      ((plain world target slotCount).lateErrors fuel) s v path = .ok found) :
    found = [] ↔ s.Accepts world target v := by
  have hlate (fuel : Nat) : ∀ slot v path found,
      (plain world target slotCount).lateErrors fuel slot v path = .ok found →
        (found = [] ↔ (target slot).Accepts world target v) := by
    induction fuel with
    | zero => exact fun _ _ _ _ h => nomatch h
    | succ fuel ih => exact fun slot v path found h => errorsWith_verdict ih _ v path found h
  exact errorsWith_verdict (hlate fuel) s v path found hfound

end Verdicts

end Surroundings

end Typeward
