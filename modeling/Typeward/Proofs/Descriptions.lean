import Typeward.Proofs.BuildableTypes
import Typeward.Proofs.DenotedTypes
import Typeward.Proofs.OverlongIntegers

/-!
# Types without a description

The fault about a marker that refines nothing describes the type around it. The description shows
the literals in the type, and in the arguments of its references, but of a record only the names of
the fields. So a type has no description just if an integer would be shown that is too long to be
written.
-/

namespace Typeward

namespace StaticType

/-- The types whose descriptions are in that of a type. -/
def shown : StaticType → List StaticType
  | .record .. => []
  | t => t.inner

/-- The description of a type shows an integer. -/
inductive ShowsInteger (n : Int) : StaticType → Prop
  | literal (location) : ShowsInteger n (.literal (.int n) location)
  | part {t u} (hu : u ∈ t.shown) (h : ShowsInteger n u) : ShowsInteger n t

variable {t : StaticType}

/-- What is shown of a type is smaller than the type. -/
theorem sizeOf_lt_of_mem_shown {u : StaticType} (h : u ∈ t.shown) : sizeOf u < sizeOf t := by
  cases t with
  | reference name arguments location =>
    have hargument := List.sizeOf_lt_of_mem (show u ∈ arguments from h)
    simp only [reference.sizeOf_spec]
    omega
  | record => cases h
  | _ => exact sizeOf_lt_of_mem_parts h

/-- Several types lack descriptions if one of them does. -/
theorem describeAll_eq_none_iff {ts : List StaticType} :
    describeAll ts = none ↔ ∃ u ∈ ts, u.describe = none := by
  induction ts with
  | nil => simp [describeAll]
  | cons t rest ih =>
    simp only [List.mem_cons, exists_eq_or_imp, ← ih, describeAll]
    cases t.describe <;> cases describeAll rest <;> simp

/-- A type has no description if it is the literal of an integer that is too long, or if a type that
it shows has none. -/
theorem describe_eq_none_iff_shown :
    t.describe = none ↔ (∃ n location, t = .literal (.int n) location ∧ isOverlong n = true) ∨
      ∃ u ∈ t.shown, u.describe = none := by
  cases t with
  | primitive | generic | marker => simp [describe, shown, inner, parts]
  | literal value location =>
    have hvalue : value.literal = none ↔ _ := Constant.literal_eq_none_iff
    cases hliteral : value.literal with
    | none => simpa [describe, shown, inner, parts, hliteral] using hvalue.1 hliteral
    | some text => simpa [describe, shown, inner, parts, hliteral] using hvalue
  | reference name arguments location =>
    have harguments : describeAll arguments = none ↔ _ := describeAll_eq_none_iff
    cases arguments with
    | nil => simp [describe, shown, inner]
    | cons first rest =>
      rw [describe]
      cases hall : describeAll (first :: rest) <;> simpa [hall, shown, inner] using harguments
  | nullable present location =>
    cases hpresent : present.describe <;> simp [describe, shown, inner, parts, hpresent]
  | array element container location =>
    cases helement : element.describe <;> simp [describe, shown, inner, parts, helement]
  | dict key value location =>
    cases hkey : key.describe <;> cases hvalue : value.describe <;>
      simp [describe, shown, inner, parts, hkey, hvalue]
  | record fields name location =>
    unfold describe
    split <;> simp [shown]
  | union members location | intersection members location =>
    have hmembers : describeAll members = none ↔ _ := describeAll_eq_none_iff
    cases hall : describeAll members <;>
      simpa [describe, shown, inner, parts, hall] using hmembers
  | function params result location =>
    have hparams : describeParams params = none ↔ ∃ u ∈ params.getD [], u.describe = none := by
      cases params with
      | none => simp [describeParams]
      | some params =>
        have hall : describeAll params = none ↔ _ := describeAll_eq_none_iff
        cases hdescribe : describeAll params <;>
          simpa [describeParams, hdescribe] using hall
    rw [show (function params result location).shown = params.getD [] ++ [result] from rfl]
    simp only [List.mem_append, or_and_right, exists_or, ← hparams, List.mem_singleton,
      exists_eq_left]
    cases hall : describeParams params <;> cases hresult : result.describe <;>
      simp [describe, hall, hresult]
  | tuple elements isVariadic location =>
    have helements : describeAll elements = none ↔ _ := describeAll_eq_none_iff
    cases hall : describeAll elements <;>
      simpa [describe, shown, inner, parts, hall] using helements

/-- A type has no description just if it would show an integer that is too long. -/
theorem describe_eq_none_iff (t : StaticType) :
    t.describe = none ↔ ∃ n, isOverlong n = true ∧ t.ShowsInteger n := by
  rw [describe_eq_none_iff_shown]
  constructor
  · rintro (⟨n, location, rfl, hn⟩ | ⟨u, hu, hnone⟩)
    · exact ⟨n, hn, .literal location⟩
    · have := sizeOf_lt_of_mem_shown hu
      obtain ⟨n, hn, hshows⟩ := (describe_eq_none_iff u).1 hnone
      exact ⟨n, hn, .part hu hshows⟩
  · rintro ⟨n, hn, hshows⟩
    cases hshows with
    | literal location => exact .inl ⟨n, location, rfl, hn⟩
    | @part _ u hu hshows =>
      have := sizeOf_lt_of_mem_shown hu
      exact .inr ⟨u, hu, (describe_eq_none_iff u).2 ⟨n, hn, hshows⟩⟩
termination_by sizeOf t

end StaticType

end Typeward
