import Typeward.Proofs.Courses
import Typeward.Value.Text

/-!
# Integers that are too long to be written

A mismatch shows the value that is rejected and the type that rejects it, and its path shows keys of
mappings. An integer that is too long has no text, so a check that has to show it raises that. It can
come from the value or from a literal in the type, and nothing else is without a text.
-/

namespace Typeward

/-- An integer is too long just if it has more decimal digits than are written. -/
theorem isOverlong_iff {n : Int} :
    isOverlong n = true ↔ Nat.pow 10 maxPrintedDigits ≤ n.natAbs := by
  unfold isOverlong
  simp only [Bool.and_eq_true, decide_eq_true_eq, and_iff_right_iff_imp]
  generalize maxPrintedDigits = digits
  intro h
  have hbinary : Nat.pow 2 digits ≤ n.natAbs :=
    Nat.le_trans (Nat.pow_le_pow_left (by omega) digits) h
  have hpos : 0 < Nat.pow 2 digits := Nat.two_pow_pos digits
  exact (Nat.le_log2 (by omega)).2 hbinary

/-- What is at least as great as an integer that is too long is too long. -/
theorem isOverlong_of_natAbs_le {m n : Int} (hle : m.natAbs ≤ n.natAbs)
    (h : isOverlong m = true) : isOverlong n = true :=
  isOverlong_iff.2 (Nat.le_trans (isOverlong_iff.1 h) hle)

/-- A byte is not too long. -/
theorem isOverlong_byte (b : UInt8) : isOverlong b.toNat = false := by
  rw [Bool.eq_false_iff, ne_eq, isOverlong_iff, Int.natAbs_natCast]
  have hbyte := b.toNat_lt
  have hdigits : 3 ≤ maxPrintedDigits := by decide
  generalize maxPrintedDigits = digits at hdigits ⊢
  have hpow : 1000 ≤ Nat.pow 10 digits :=
    show Nat.pow 10 3 ≤ _ from Nat.pow_le_pow_right (by decide) hdigits
  omega

/-- A constant that cannot be written is an integer that is too long. -/
theorem Constant.literal_eq_none_iff {c : Constant} :
    c.literal = Option.none ↔ ∃ n, c = .int n ∧ isOverlong n = true := by
  cases c with
  | int n =>
    unfold literal
    cases hn : isOverlong n <;> simp [hn]
  | bool b => cases b <;> simp [literal]
  | _ => simp [literal]

namespace Value

/-- A value holds an integer that is too long to be written. The integers of a range lie between its
bounds. -/
inductive HoldsOverlong : Value → Prop
  | int {n} (h : isOverlong n = true) : HoldsOverlong (.constant (.int n))
  | range {first stop step n} (hn : n ∈ [first, stop, step]) (h : isOverlong n = true) :
      HoldsOverlong (.range first stop step)
  | element {kind items x} (hx : x ∈ items) (h : HoldsOverlong x) :
      HoldsOverlong (.collection kind items)
  | key {isReadOnly entries e} (he : e ∈ entries) (h : HoldsOverlong e.1) :
      HoldsOverlong (.mapping isReadOnly entries)
  | entry {isReadOnly entries e} (he : e ∈ entries) (h : HoldsOverlong e.2) :
      HoldsOverlong (.mapping isReadOnly entries)
  | content {c content} (h : HoldsOverlong content) : HoldsOverlong (.derived c content)

variable {v x : Value}

/-- What a value is as one of a built-in class holds no other integers. -/
theorem HoldsOverlong.of_plain (h : v.plain.HoldsOverlong) : v.HoldsOverlong := by
  induction v using Value.plain.induct with
  | case1 c content ih => exact .content (ih h)
  | case2 v hv =>
    cases v with
    | derived c content => exact absurd rfl (hv c content)
    | _ => exact h

/-- The integers in what a value contains are in the value. -/
theorem Content.holdsOverlong (h : v.Content x) (hx : x.HoldsOverlong) : v.HoldsOverlong := by
  refine .of_plain ?_
  cases h with
  | element hplain hitem => exact hplain ▸ .element hitem hx
  | key hplain he => exact hplain ▸ .key he hx
  | entry hplain he => exact hplain ▸ .entry he hx
  | missing => cases hx
  | ofRange hplain hn =>
    cases hx with
    | int hlong =>
      rw [hplain]
      rcases hn with hn | hn
      · exact .range List.mem_cons_self (isOverlong_of_natAbs_le hn hlong)
      · exact .range (by simp) (isOverlong_of_natAbs_le hn hlong)
  | byte =>
    cases hx with
    | int hlong => simp [isOverlong_byte] at hlong

/-- A constant without a text holds an integer that is too long. -/
theorem holdsOverlong_of_literal {c : Constant} (h : c.literal = none) :
    (Value.constant c).HoldsOverlong := by
  obtain ⟨n, rfl, hn⟩ := Constant.literal_eq_none_iff.1 h
  exact .int hn

/-- So does a range without a text. -/
theorem holdsOverlong_of_rangeText {first stop step : Int} (h : rangeText first stop step = none) :
    (Value.range first stop step).HoldsOverlong := by
  by_contra hshort
  have hliteral : ∀ n ∈ [first, stop, step], ∃ text, (Constant.int n).literal = some text := by
    intro n hn
    by_contra hnone
    obtain ⟨_, ⟨⟩, hlong⟩ := Constant.literal_eq_none_iff.1 (Option.eq_none_iff_forall_ne_some.2
      fun text htext => hnone ⟨text, htext⟩)
    exact hshort (.range hn hlong)
  simp only [List.forall_mem_cons] at hliteral
  obtain ⟨⟨_, hfirst⟩, ⟨_, hstop⟩, ⟨_, hstep⟩, -⟩ := hliteral
  by_cases hone : step = 1 <;> simp [rangeText, hone, hfirst, hstop, hstep] at h

end Value

namespace Schema

variable {target : Nat → Schema} {s c : Schema} {v x : Value} {slot : Nat}

/-- A literal that is part of a type holds an integer that is too long to be written. -/
def HoldsOverlong (target : Nat → Schema) (s : Schema) : Prop :=
  ∃ value shown, (literal value shown).IsPartOf target s ∧ value.HoldsOverlong

/-- A check of a value against a type may have to show an integer that is too long. -/
def MeetsOverlong (target : Nat → Schema) (s : Schema) (v : Value) : Prop :=
  v.HoldsOverlong ∨ s.HoldsOverlong target

/-- The literals in a part of a type are in the type. -/
theorem HoldsOverlong.of_part (h : c.HoldsOverlong target) (hc : c.IsPartOf target s) :
    s.HoldsOverlong target := by
  obtain ⟨value, shown, hpart, hvalue⟩ := h
  exact ⟨value, shown, hpart.trans hc, hvalue⟩

end Schema

end Typeward
