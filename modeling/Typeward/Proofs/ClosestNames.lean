import Mathlib.Data.Prod.Lex
import Mathlib.Data.String.Basic
import Typeward.Suggestion

/-!
# The closest names

The suggestions for a name are the first ones of all candidates that are close to it, ranked by
their distance and then by their text. No two names rank alike, so there is just one ranked list of
some candidates: it does not matter in which order they come, and nothing that is left out ranks
before what is suggested.
-/

namespace Typeward

/-- How far a candidate is from a name, whatever the case of their letters. -/
def nameDistance (name candidate : String) : Nat :=
  editDistance (Text.lowerCase name) (Text.lowerCase candidate)

/-- Candidates rank by their distance and then by their text. -/
def nameRank (name candidate : String) : ℕ ×ₗ String :=
  toLex (nameDistance name candidate, candidate)

/-- A candidate can be suggested for a name: it is another one, and within a distance. -/
def IsClose (name : String) (maxDistance : Int) (candidate : String) : Prop :=
  candidate ≠ name ∧ (nameDistance name candidate : Int) ≤ maxDistance

instance (name : String) (maxDistance : Int) : DecidablePred (IsClose name maxDistance) :=
  fun _ => inferInstanceAs (Decidable (_ ∧ _))

/-- What a suggestion is ordered by. -/
def Suggestion.rank (s : Suggestion) : ℕ ×ₗ String := toLex (s.distance, s.name)

/-- Suggestions are in the order of their ranks. -/
theorem Suggestion.atMost_iff {s t : Suggestion} : s.atMost t = true ↔ s.rank ≤ t.rank := by
  simp [atMost, rank, Prod.Lex.toLex_le_toLex]

/-- No two names rank alike. -/
theorem nameRank_injective (name : String) : Function.Injective (nameRank name) :=
  fun _ _ h => congrArg Prod.snd (toLex.injective h)

section Ranked

variable (name : String) (candidates : List String) (maxDistance : Int)

/-- The close candidates, nearest first. -/
def rankedNames : List String := (closeNames name candidates maxDistance).map (·.name)

/-- The ranked names are the close ones among the candidates, as often as they come there. -/
theorem rankedNames_perm :
    (rankedNames name candidates maxDistance).Perm
      (candidates.filter (IsClose name maxDistance ·)) := by
  unfold rankedNames closeNames
  refine ((List.mergeSort_perm _ _).map _).trans (List.Perm.of_eq ?_)
  rw [List.filter_map, List.map_map, List.filter_filter]
  simp only [Function.comp_def, List.map_id']
  refine List.filter_congr fun c _ => ?_
  rw [Bool.eq_iff_iff, Bool.and_eq_true]
  simp only [decide_eq_true_iff]
  exact and_comm

/-- A suggestion has the rank of its name. -/
theorem rank_eq_nameRank {s : Suggestion} (h : s ∈ closeNames name candidates maxDistance) :
    s.rank = nameRank name s.name := by
  unfold closeNames at h
  have hscored := List.mem_of_mem_filter ((List.mergeSort_perm _ _).mem_iff.1 h)
  obtain ⟨candidate, -, rfl⟩ := List.mem_map.1 hscored
  rfl

/-- The ranked names are in the order of their ranks. -/
theorem pairwise_rankedNames :
    (rankedNames name candidates maxDistance).Pairwise (nameRank name · ≤ nameRank name ·) := by
  have hsorted : (closeNames name candidates maxDistance).Pairwise
      fun s t => s.atMost t = true := by
    refine List.pairwise_mergeSort (fun s t u hst htu => ?_) (fun s t => ?_) _
    · exact Suggestion.atMost_iff.2
        ((Suggestion.atMost_iff.1 hst).trans (Suggestion.atMost_iff.1 htu))
    · rw [Bool.or_eq_true, Suggestion.atMost_iff, Suggestion.atMost_iff]
      exact le_total s.rank t.rank
  refine List.pairwise_map.2 (hsorted.imp_of_mem fun {s t} hs ht hst => ?_)
  rw [← rank_eq_nameRank name candidates maxDistance hs,
    ← rank_eq_nameRank name candidates maxDistance ht]
  exact Suggestion.atMost_iff.1 hst

/-- The same candidates in another order are ranked alike. -/
theorem rankedNames_congr {others : List String} (h : candidates.Perm others) :
    rankedNames name candidates maxDistance = rankedNames name others maxDistance := by
  have hsame : (rankedNames name candidates maxDistance).Perm
      (rankedNames name others maxDistance) :=
    ((rankedNames_perm name candidates maxDistance).trans (h.filter _)).trans
      (rankedNames_perm name others maxDistance).symm
  refine hsame.eq_of_pairwise (fun a b _ _ hab hba => ?_)
    (pairwise_rankedNames name candidates maxDistance)
    (pairwise_rankedNames name others maxDistance)
  exact nameRank_injective name (hab.antisymm hba)

/-- What is suggested are the first ranked names. -/
theorem suggest_eq_take (limit : ℕ) :
    suggest name candidates maxDistance limit =
      (rankedNames name candidates maxDistance).take limit := by
  have hlimit : ¬ (limit : Int) < 0 := by omega
  rw [suggest, cutTo, if_neg hlimit, Int.toNat_natCast, List.map_take, rankedNames]

end Ranked

/-- The suggestions for a name do not depend on the order of the candidates. They are candidates, no
more often than there, other than the name itself and within the distance; they are in the order of
their distances and then of their texts; as many as there may be are suggested, or all that are
close; and no close candidate that is left out ranks strictly before one that is suggested. -/
theorem suggest_closest (name : String) (candidates : List String) (maxDistance : Int)
    (limit : ℕ) :
    (∀ others, candidates.Perm others →
      suggest name others maxDistance limit = suggest name candidates maxDistance limit) ∧
    (∀ c, (suggest name candidates maxDistance limit).count c ≤ candidates.count c) ∧
    (∀ c ∈ suggest name candidates maxDistance limit, IsClose name maxDistance c) ∧
    (suggest name candidates maxDistance limit).Pairwise (nameRank name · ≤ nameRank name ·) ∧
    (suggest name candidates maxDistance limit).length =
      min limit (candidates.countP (IsClose name maxDistance ·)) ∧
    ∀ c, IsClose name maxDistance c →
      (suggest name candidates maxDistance limit).count c < candidates.count c →
      ∀ d ∈ suggest name candidates maxDistance limit, ¬ nameRank name c < nameRank name d := by
  have hranked := rankedNames_perm name candidates maxDistance
  have hsorted := pairwise_rankedNames name candidates maxDistance
  simp only [suggest_eq_take]
  refine ⟨fun others h => ?_, fun c => ?_, fun c hc => ?_, ?_, ?_,
    fun c hclose hleft d hd hlt => ?_⟩
  · rw [rankedNames_congr name candidates maxDistance h]
  · calc ((rankedNames name candidates maxDistance).take limit).count c
        ≤ (rankedNames name candidates maxDistance).count c :=
          (List.take_sublist _ _).count_le c
      _ = (candidates.filter (IsClose name maxDistance ·)).count c := hranked.count_eq c
      _ ≤ candidates.count c := List.filter_sublist.count_le c
  · have hmem := hranked.mem_iff.1 (List.mem_of_mem_take hc)
    simpa using (List.mem_filter.1 hmem).2
  · exact hsorted.sublist (List.take_sublist _ _)
  · rw [List.length_take, hranked.length_eq, List.countP_eq_length_filter]
  · have hcount : (rankedNames name candidates maxDistance).count c = candidates.count c := by
      rw [hranked.count_eq, List.count_filter (by simpa using hclose)]
    rw [← List.take_append_drop limit (rankedNames name candidates maxDistance)] at hsorted hcount
    rw [List.count_append] at hcount
    -- The candidate is left out, so it comes among the ranked names behind the ones suggested.
    have hbehind : c ∈ (rankedNames name candidates maxDistance).drop limit :=
      List.count_pos_iff.1 (by omega)
    exact not_lt_of_ge ((List.pairwise_append.1 hsorted).2.2 d hd c hbehind) hlt

/-- Of two candidates that are equally near the one that comes first as a text is suggested, in
whatever order they are given, and the name itself is not. -/
theorem suggest_closest_tie :
    ["Mode", "Node", "Nodes", "Note"].Perm ["Note", "Nodes", "Node", "Mode"] ∧
      suggest "Node" ["Note", "Nodes", "Node", "Mode"] 2 2 =
        suggest "Node" ["Mode", "Node", "Nodes", "Note"] 2 2 ∧
      suggest "Node" ["Mode", "Node", "Nodes", "Note"] 2 2 = ["Mode", "Nodes"] := by
  have hperm : ["Mode", "Node", "Nodes", "Note"].Perm ["Note", "Nodes", "Node", "Mode"] := by
    decide
  have hclose : closeNames "Node" ["Mode", "Node", "Nodes", "Note"] 2 =
      [⟨1, "Mode"⟩, ⟨1, "Nodes"⟩, ⟨1, "Note"⟩] :=
    (List.mergeSort_of_pairwise (by decide +kernel)).trans (by decide +kernel)
  refine ⟨hperm, (suggest_closest "Node" _ 2 2).1 _ hperm, ?_⟩
  rw [suggest, hclose]
  rfl

end Typeward
