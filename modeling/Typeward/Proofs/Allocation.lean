import Mathlib.Data.List.Nodup
import Typeward.Registry

/-!
# Names for generated code

The candidates for a name are all different, so of as many candidates as there are taken names and
one more at least one is free. The registry tries that many, so the name that it finds is free.
-/

namespace Typeward

namespace Registry

/-- The candidates for a name are all different. -/
theorem candidate_injective (preferred : String) : Function.Injective (candidate preferred) := by
  intro m n h
  have hlist := congrArg String.toList h
  cases m with
  | zero =>
    cases n with
    | zero => rfl
    | succ n => simp [candidate] at hlist
  | succ m =>
    cases n with
    | zero => simp [candidate] at hlist
    | succ n =>
      simp only [candidate, String.toList_append] at hlist
      have hdigits := congrArg (Nat.ofDigitChars 10 · 0) (List.append_cancel_left hlist)
      simpa [Nat.toString_eq_ofList_toDigits] using hdigits

/-- The names that are taken. -/
def takenNames (r : Registry) : List String := r.reserved ++ r.entries.map (·.name)

/-- A name is taken if it is among the taken names. -/
theorem isTaken_iff {r : Registry} {name : String} :
    r.isTaken name = true ↔ name ∈ r.takenNames := by
  unfold isTaken takenNames contains get?
  simp [List.find?_isSome]

/-- If what is found is taken, then so are all candidates that were tried. -/
theorem candidate_mem_takenNames {r : Registry} {preferred : String} {number fuel : Nat}
    (h : r.isTaken (r.firstFree preferred number fuel) = true) :
    ∀ i ≤ fuel, candidate preferred (number + i) ∈ r.takenNames := by
  induction fuel generalizing number with
  | zero =>
    intro i hi
    obtain rfl : i = 0 := by omega
    exact isTaken_iff.1 h
  | succ fuel ih =>
    unfold firstFree at h
    dsimp only at h
    split at h
    · rename_i htaken
      intro i hi
      cases i with
      | zero => exact isTaken_iff.1 htaken
      | succ i =>
        have hmem := ih h i (by omega)
        rwa [Nat.add_right_comm, Nat.add_assoc] at hmem
    · rename_i hfree
      exact absurd h hfree

/-- What is found is free if as many candidates are tried as names are taken, and one more. -/
theorem isTaken_firstFree {r : Registry} {fuel : Nat} (preferred : String)
    (hfuel : r.takenNames.length ≤ fuel) :
    r.isTaken (r.firstFree preferred 0 fuel) = false := by
  by_contra htaken
  have hall := candidate_mem_takenNames (Bool.of_not_eq_false htaken)
  have hsubset : (List.range (fuel + 1)).map (candidate preferred) ⊆ r.takenNames := by
    intro name hname
    obtain ⟨i, hi, rfl⟩ := List.mem_map.1 hname
    have hmem := hall i (by simpa [Nat.lt_succ_iff] using hi)
    rwa [Nat.zero_add] at hmem
  have hnodup : ((List.range (fuel + 1)).map (candidate preferred)).Nodup :=
    List.nodup_range.map (candidate_injective preferred)
  have hlength := List.Nodup.length_le_of_subset hnodup hsubset
  simp only [List.length_map, List.length_range] at hlength
  omega

/-- What is found is one of the candidates. -/
theorem exists_firstFree_eq (r : Registry) (preferred : String) (number fuel : Nat) :
    ∃ i, r.firstFree preferred number fuel = candidate preferred i := by
  induction fuel generalizing number with
  | zero => exact ⟨number, rfl⟩
  | succ fuel ih =>
    unfold firstFree
    dsimp only
    split
    · exact ih (number + 1)
    · exact ⟨number, rfl⟩

/-- A name that is newly found for generated code is a candidate that is free. -/
theorem allocate_spec {r r' : Registry} {preferred name : String}
    (hlookup : r.allocated.lookup preferred = none)
    (h : r.allocate preferred = (name, r')) :
    name ∉ r.takenNames ∧ (∃ i, name = candidate preferred i) ∧
      r'.entries = r.entries ∧ r'.bindings = r.bindings := by
  unfold allocate at h
  rw [hlookup] at h
  obtain ⟨rfl, rfl⟩ := Prod.mk.inj h
  refine ⟨?_, exists_firstFree_eq r preferred 0 _, rfl, rfl⟩
  rw [← isTaken_iff, Bool.not_eq_true]
  exact isTaken_firstFree preferred (by simp [takenNames])

end Registry

end Typeward
