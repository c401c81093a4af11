import Typeward.Proofs.Allocation
import Typeward.Proofs.RegistryRuns

/-!
# Fresh names for generated code

Whatever a client does with a new registry, in any order: the search for a name ends, at the first
candidate that is neither reserved nor declared nor found before; a preferred name keeps the name
that was found for it, and no two share one. As in the life cycle of a registry, what holds of a run
is a function of the log of its calls.
-/

namespace Typeward

open Registry

/-- The candidates for a name are tried from a number on, until one is not taken. -/
inductive Tries (taken : String → Prop) (preferred : String) : Nat → String → Prop
  | found {n} (hfree : ¬ taken (candidate preferred n)) :
      Tries taken preferred n (candidate preferred n)
  | next {n name} (htaken : taken (candidate preferred n))
      (h : Tries taken preferred (n + 1) name) : Tries taken preferred n name

namespace Tries

variable {taken taken' : String → Prop} {preferred name : String} {n : Nat}

/-- What is found is not taken. -/
theorem not_taken (h : Tries taken preferred n name) : ¬ taken name := by
  induction h with
  | found hfree => exact hfree
  | next _ _ ih => exact ih

/-- The same is found where the same names are taken. -/
theorem congr (h : Tries taken preferred n name) (htaken : ∀ x, taken x ↔ taken' x) :
    Tries taken' preferred n name := by
  induction h with
  | found hfree => exact .found fun h => hfree ((htaken _).2 h)
  | next hused _ ih => exact .next ((htaken _).1 hused) ih

end Tries

/-- A search that ends at a free name has tried the candidates up to it. -/
theorem tries_firstFree {r : Registry} {preferred : String} {number fuel : Nat}
    (h : r.isTaken (r.firstFree preferred number fuel) = false) :
    Tries (· ∈ r.takenNames) preferred number (r.firstFree preferred number fuel) := by
  induction fuel generalizing number with
  | zero =>
    refine .found fun htaken => ?_
    exact Bool.false_ne_true (h.symm.trans (isTaken_iff.2 htaken))
  | succ fuel ih =>
    unfold firstFree at h ⊢
    dsimp only at h ⊢
    by_cases htaken : r.isTaken (candidate preferred number) = true
    · rw [if_pos htaken] at h ⊢
      exact .next (isTaken_iff.1 htaken) (ih h)
    · rw [if_neg htaken]
      exact .found fun hmem => htaken (isTaken_iff.2 hmem)

/-- The search for a name always ends, at the first candidate that is not taken. -/
theorem tries_allocate {r : Registry} {preferred : String}
    (h : r.allocated.lookup preferred = none) :
    Tries (· ∈ r.takenNames) preferred 0 (r.allocate preferred).1 := by
  unfold allocate
  rw [h]
  exact tries_firstFree (isTaken_firstFree preferred (by simp [takenNames]))

/-- The name that a call was made for, and the one that it found. -/
def Moment.allocated? (m : Moment) : Option (String × String) :=
  match m.call, m.answer with
  | .allocate preferred, .ok (.name name) => some (preferred, name)
  | _, _ => none

/-- The preferred names in a log, each with the name that was found for it. -/
def allocatedIn (log : List Moment) : List (String × String) := log.filterMap Moment.allocated?

/-- The type names that were declared in a log. -/
def declaredIn (log : List Moment) : List String := (log.filterMap Moment.declared?).map (·.name)

/-- A name is taken after the calls of a log: it was reserved from the start, or it was declared, or
found for generated code. -/
def TakenAfter (reserved : List String) (log : List Moment) (name : String) : Prop :=
  name ∈ reserved ∨ name ∈ declaredIn log ∨ name ∈ (allocatedIn log).map (·.2)

/-- What a call for a name answers after the calls of a log: the name that was found before, or else
a new one, the first candidate that is not taken by then. -/
def FoundAfter (reserved : List String) (log : List Moment) (preferred name : String) : Prop :=
  (preferred, name) ∈ allocatedIn log ∨
    preferred ∉ (allocatedIn log).map (·.1) ∧
      Tries (TakenAfter reserved log) preferred 0 name ∧ ¬ TakenAfter reserved log name

/-- What a registry promises about the names for generated code, given the names that were reserved
from the start and the log of a run. -/
structure FreshNames (reserved : List String) (log : List Moment) : Prop where
  /-- Every call for a name is answered. -/
  answered : ∀ (i : Nat) (m : Moment), log[i]? = some m → ∀ preferred,
    m.call = .allocate preferred →
      ∃ name, m.answer = .ok (.name name) ∧ FoundAfter reserved (log.take i) preferred name
  /-- The same names are found for the same preferred names, and different ones for different
  ones. -/
  same : ∀ a ∈ allocatedIn log, ∀ b ∈ allocatedIn log, a.1 = b.1 ↔ a.2 = b.2
  /-- If all names that are ever declared are reserved from the start, none of them is found, be it
  declared before or later. -/
  apart : (∀ x ∈ declaredIn log, x ∈ reserved) → ∀ a ∈ allocatedIn log, a.2 ∉ declaredIn log

section Runs

variable {bindings : List Binding} {reserved : List String} {log : List Moment} {start r : Registry}
  {preferred name : String}

/-- What a registry holds of the names for generated code after the calls of a log. -/
structure Supplied (reserved : List String) (log : List Moment) (r : Registry) : Prop where
  reserved_iff : ∀ x, x ∈ r.reserved ↔ x ∈ reserved ∨ x ∈ (allocatedIn log).map (·.2)
  lookup_iff : ∀ p n, r.allocated.lookup p = some n ↔ (p, n) ∈ allocatedIn log
  distinct : ∀ p p' n, (p, n) ∈ allocatedIn log → (p', n) ∈ allocatedIn log → p = p'
  fresh : ∀ p n, (p, n) ∈ allocatedIn log → n ∉ reserved

/-- The names that a call is made for and finds come last in the log. -/
theorem allocatedIn_concat (log : List Moment) (m : Moment) :
    allocatedIn (log ++ [m]) = allocatedIn log ++ m.allocated?.toList := by
  rw [allocatedIn, List.filterMap_append]
  cases h : m.allocated? <;> simp [allocatedIn, h]

/-- A call for a name is logged with the answer of the registry. -/
theorem call_allocate (r : Registry) (preferred : String) :
    r.call (.allocate preferred) =
      ⟨.allocate preferred, r, .ok (.name (r.allocate preferred).1), (r.allocate preferred).2⟩ :=
  call_of_outcome rfl

/-- No other call reserves or finds a name. -/
theorem call_of_not_allocate {c : RegistryCall} (h : ∀ preferred, c ≠ .allocate preferred) :
    (r.call c).allocated? = none ∧ (r.call c).after.reserved = r.reserved ∧
      (r.call c).after.allocated = r.allocated := by
  have hnone : (r.call c).allocated? = none := by
    unfold Moment.allocated?
    rw [call_call]
    split
    · exact absurd rfl (h _)
    · rfl
  refine ⟨hnone, ?_⟩
  cases hrun : r.outcome c with
  | error fault => simp [call_of_fault hrun]
  | ok out =>
    obtain ⟨answer, r'⟩ := out
    rw [call_of_outcome hrun]
    cases c with
    | allocate preferred => exact absurd rfl (h preferred)
    | declare name isRecursive location =>
      obtain ⟨r'', hdeclare, heq⟩ := Except.bind_eq_ok.1 hrun
      cases heq
      rw [entries_of_declare hdeclare]
      exact ⟨rfl, rfl⟩
    | complete name e =>
      obtain ⟨r'', hcomplete, heq⟩ := Except.bind_eq_ok.1 hrun
      cases heq
      rw [entries_of_complete hcomplete]
      exact ⟨rfl, rfl⟩
    | lookup | resolve | get | definitions =>
      obtain rfl := run_query rfl hrun
      exact ⟨rfl, rfl⟩

namespace Supplied

/-- A name that is found again is the one that was found before. -/
theorem concat_again (h : Supplied reserved log r)
    (hfound : r.allocated.lookup preferred = some name) :
    Supplied reserved (log ++ [r.call (.allocate preferred)])
      (r.call (.allocate preferred)).after := by
  have hallocate : r.allocate preferred = (name, r) := by
    unfold allocate
    rw [hfound]
  have hmem := (h.lookup_iff preferred name).1 hfound
  have hsame : ∀ a, a ∈ allocatedIn (log ++ [r.call (.allocate preferred)]) ↔
      a ∈ allocatedIn log := by
    intro a
    rw [allocatedIn_concat, call_allocate, hallocate]
    simpa [Moment.allocated?] using fun heq : a = (preferred, name) => heq ▸ hmem
  rw [call_allocate, hallocate] at hsame ⊢
  refine ⟨fun x => ?_, fun p n => ?_, fun p p' n hp hp' => ?_, fun p n hp => ?_⟩
  · rw [h.reserved_iff x, List.mem_map, List.mem_map]
    simp only [hsame]
  · rw [h.lookup_iff p n, hsame]
  · exact h.distinct p p' n ((hsame _).1 hp) ((hsame _).1 hp')
  · exact h.fresh p n ((hsame _).1 hp)

/-- A name that is newly found is free. -/
theorem concat_new (h : Supplied reserved log r) (hnew : r.allocated.lookup preferred = none) :
    Supplied reserved (log ++ [r.call (.allocate preferred)])
      (r.call (.allocate preferred)).after := by
  have hpair : r.allocate preferred = ((r.allocate preferred).1, (r.allocate preferred).2) := rfl
  obtain ⟨hfree, -, -, -⟩ := allocate_spec hnew hpair
  generalize hname : (r.allocate preferred).1 = name at hfree
  have hallocate : r.allocate preferred = (name, { r with
      reserved := name :: r.reserved, allocated := (preferred, name) :: r.allocated }) := by
    unfold allocate at hname ⊢
    rw [hnew] at hname ⊢
    obtain rfl := hname
    rfl
  have hunreserved : name ∉ r.reserved := fun hmem => hfree (List.mem_append_left _ hmem)
  have hunused : ∀ p, (p, name) ∉ allocatedIn log := fun p hp =>
    hunreserved ((h.reserved_iff name).2 (.inr (List.mem_map_of_mem hp)))
  have hmore : ∀ a, a ∈ allocatedIn (log ++ [r.call (.allocate preferred)]) ↔
      a ∈ allocatedIn log ∨ a = (preferred, name) := by
    intro a
    rw [allocatedIn_concat, call_allocate, hallocate]
    simp [Moment.allocated?]
  rw [call_allocate, hallocate] at hmore ⊢
  refine ⟨fun x => ?_, fun p n => ?_, fun p p' n hp hp' => ?_, fun p n hp => ?_⟩
  · rw [List.mem_cons, h.reserved_iff x, List.mem_map, List.mem_map]
    simp only [hmore, or_and_right, exists_or, exists_eq_left, eq_comm (a := name)]
    rw [or_comm, or_assoc]
  · rw [List.lookup_cons, hmore, ← h.lookup_iff p n]
    by_cases hp : p = preferred
    · subst hp
      simp [hnew, eq_comm]
    · have hne : (p == preferred) = false := by simpa using hp
      simp [hne, hp]
  · rcases (hmore _).1 hp with hold | hthis <;> rcases (hmore _).1 hp' with hold' | hthis'
    · exact h.distinct p p' n hold hold'
    · exact absurd ((Prod.mk.inj hthis').2 ▸ hold) (hunused p)
    · exact absurd ((Prod.mk.inj hthis).2 ▸ hold') (hunused p')
    · exact (Prod.mk.inj hthis).1.trans (Prod.mk.inj hthis').1.symm
  · rcases (hmore _).1 hp with hold | hthis
    · exact h.fresh p n hold
    · rw [(Prod.mk.inj hthis).2]
      exact fun hmem => hunreserved ((h.reserved_iff name).2 (.inl hmem))

/-- What one call does to the registry it does to the log. -/
theorem concat (h : Supplied reserved log r) (c : RegistryCall) :
    Supplied reserved (log ++ [r.call c]) (r.call c).after := by
  by_cases hc : ∃ preferred, c = .allocate preferred
  · obtain ⟨preferred, rfl⟩ := hc
    cases hlookup : r.allocated.lookup preferred with
    | none => exact h.concat_new hlookup
    | some name => exact h.concat_again hlookup
  · obtain ⟨hnone, hreserved, hallocated⟩ :=
      call_of_not_allocate (r := r) fun preferred heq => hc ⟨preferred, heq⟩
    have hsame : allocatedIn (log ++ [r.call c]) = allocatedIn log := by
      rw [allocatedIn_concat, hnone, Option.toList_none, List.append_nil]
    constructor
    · rw [hreserved, hsame]
      exact h.reserved_iff
    · rw [hallocated, hsame]
      exact h.lookup_iff
    · rw [hsame]
      exact h.distinct
    · rw [hsame]
      exact h.fresh

/-- A new registry has found no names. -/
theorem ofModule (bindings : List Binding) (reserved : List String) :
    Supplied reserved [] (Registry.ofModule bindings reserved) where
  reserved_iff x := by simp [Registry.ofModule, allocatedIn]
  lookup_iff p n := by simp [Registry.ofModule, allocatedIn]
  distinct p p' n hp := by simp [allocatedIn] at hp
  fresh p n hp := by simp [allocatedIn] at hp

/-- The names that are taken in the registry are those that are taken after the log. -/
theorem mem_takenNames (h : Supplied reserved log r) (hr : Recorded log r) (x : String) :
    x ∈ r.takenNames ↔ TakenAfter reserved log x := by
  rw [takenNames, List.mem_append, h.reserved_iff x, hr.entries, names_entriesIn, TakenAfter,
    declaredIn]
  tauto

/-- The next call for a name is answered. -/
theorem answered (h : Supplied reserved log r) (hr : Recorded log r) (preferred : String) :
    ∃ name, (r.call (.allocate preferred)).answer = .ok (.name name) ∧
      FoundAfter reserved log preferred name := by
  rw [call_allocate]
  refine ⟨_, rfl, ?_⟩
  cases hlookup : r.allocated.lookup preferred with
  | some name =>
    have hallocate : (r.allocate preferred).1 = name := by
      unfold allocate
      rw [hlookup]
    rw [hallocate]
    exact .inl ((h.lookup_iff preferred name).1 hlookup)
  | none =>
    have htries := (tries_allocate hlookup).congr (h.mem_takenNames hr)
    refine .inr ⟨fun hmem => ?_, htries, htries.not_taken⟩
    obtain ⟨⟨p, n⟩, hp, rfl⟩ := List.mem_map.1 hmem
    exact Option.some_ne_none n (((h.lookup_iff p n).2 hp).symm.trans hlookup)

end Supplied

/-- A run from a new registry supplies names. -/
theorem Trace.supplied (h : Trace start log r) (hstart : Supplied reserved [] start) :
    Supplied reserved log r := by
  induction h with
  | nil => exact hstart
  | move site _ ih => exact { ih with reserved_iff := ih.reserved_iff }
  | call c _ ih => exact ih.concat c

/-- Each call in a run for a name is answered. -/
theorem Trace.answered (h : Trace start log r) (hsupplied : Supplied reserved [] start)
    (hentries : start.entries = []) :
    ∀ (i : Nat) (m : Moment), log[i]? = some m → ∀ preferred, m.call = .allocate preferred →
      ∃ name, m.answer = .ok (.name name) ∧ FoundAfter reserved (log.take i) preferred name := by
  induction h with
  | nil => simp
  | move site _ ih => exact ih
  | @call log r c h ih =>
    refine forall_getElem?_concat (P := fun sofar m => ∀ preferred, m.call = .allocate preferred →
      ∃ name, m.answer = .ok (.name name) ∧ FoundAfter reserved sofar preferred name) ih ?_
    intro preferred hcall
    rw [call_call] at hcall
    subst hcall
    exact (h.supplied hsupplied).answered (h.recorded hentries) preferred

/-- The names that a run from a new registry finds are fresh. -/
theorem Trace.freshNames (h : Trace start log r) (hsupplied : Supplied reserved [] start)
    (hentries : start.entries = []) : FreshNames reserved log := by
  have hlast := h.supplied hsupplied
  refine ⟨h.answered hsupplied hentries, fun a ha b hb => ⟨fun heq => ?_, fun heq => ?_⟩,
    fun hdeclared a ha hmem => ?_⟩
  · have hfirst := (hlast.lookup_iff a.1 a.2).2 ha
    have hsecond := (hlast.lookup_iff b.1 b.2).2 hb
    exact Option.some.inj (hfirst.symm.trans (heq ▸ hsecond))
  · exact hlast.distinct a.1 b.1 a.2 ha (heq ▸ hb)
  · exact hlast.fresh a.1 a.2 ha (hdeclared a.2 hmem)

end Runs

/-- Whatever names are reserved, and whatever a client does with a new registry, declarations and
calls for names in any order among it: every call for a name is answered, so the search always ends;
the same preferred name is always answered by the same name, and different ones by different names;
a new name is neither reserved nor declared by then nor found before; and if all names that are ever
declared are reserved from the start, no name that is found is declared at any time. -/
theorem generated_names_fresh (bindings : List Binding) (reserved : List String) (script : Script) :
    FreshNames reserved (script.run (Registry.ofModule bindings reserved)).log :=
  (script.trace _).freshNames (.ofModule bindings reserved) rfl

/-- The name that was found for one preferred name is passed over as a candidate for another one,
and so are names that are declared in between. -/
theorem generated_names_fresh_candidates :
    let find (preferred : String) : Script := .call (.allocate preferred)
    let script : Script := .both (find "t") (.both (.call (.declare "u" false none))
      (.both (find "t_1") (.both (find "u") (find "t"))))
    allocatedIn (script.run (Registry.ofModule [] ["t"])).log =
        [("t", "t_1"), ("t_1", "t_1_1"), ("u", "u_1"), ("t", "t_1")] ∧
      FreshNames ["t"] (script.run (Registry.ofModule [] ["t"])).log :=
  ⟨by decide +kernel, generated_names_fresh _ _ _⟩

end Typeward
