import Typeward.EditDistance
import Mathlib.Order.Bounds.Basic

/-!
# Edit scripts

The edit distance of two texts is the length of a shortest script of single edits that turns one
into the other. A script is a chain of texts, each made from the one before by inserting, deleting
or substituting one character anywhere. What a script does can be rearranged into an alignment,
which runs along both texts at once and never pays more; alignments can be cut and put together at
any place, so the least cost for two prefixes follows from that for the prefixes one character
shorter. This is the invariant of the rows: the cells of a row are the least costs of one prefix
against all prefixes of the other text.
-/

namespace Typeward

namespace EditDistance

/-- One edit of a text. -/
inductive Edit : List Char → List Char → Prop
  | insert (before after : List Char) (c : Char) : Edit (before ++ after) (before ++ c :: after)
  | delete (before after : List Char) (c : Char) : Edit (before ++ c :: after) (before ++ after)
  | substitute (before after : List Char) (c d : Char) :
      Edit (before ++ c :: after) (before ++ d :: after)

/-- Edits one after the other: so many turn the first text into the second one. -/
inductive Edits : Nat → List Char → List Char → Prop
  | none (a : List Char) : Edits 0 a a
  | more {n : Nat} {a b c : List Char} : Edits n a b → Edit b c → Edits (n + 1) a c

/-- Every edit puts at most one character in the place of at most one. -/
theorem Edit.exists_parts {a b : List Char} (h : Edit a b) :
    ∃ before old new after, a = before ++ (old ++ after) ∧ b = before ++ (new ++ after) ∧
      old.length ≤ 1 ∧ new.length ≤ 1 := by
  cases h with
  | insert before after c => exact ⟨before, [], [c], after, rfl, rfl, by simp, by simp⟩
  | delete before after c => exact ⟨before, [c], [], after, rfl, rfl, by simp, by simp⟩
  | substitute before after c d => exact ⟨before, [c], [d], after, rfl, rfl, by simp, by simp⟩

/-- An edit of what follows a character is an edit. -/
theorem Edit.cons {a b : List Char} (c : Char) (h : Edit a b) : Edit (c :: a) (c :: b) := by
  cases h with
  | insert before after d => exact .insert (c :: before) after d
  | delete before after d => exact .delete (c :: before) after d
  | substitute before after d e => exact .substitute (c :: before) after d e

/-- An edit can be taken back by an edit. -/
theorem Edit.symm {a b : List Char} (h : Edit a b) : Edit b a := by
  cases h with
  | insert before after c => exact .delete before after c
  | delete before after c => exact .insert before after c
  | substitute before after c d => exact .substitute before after d c

theorem Edits.cons {n : Nat} {a b : List Char} (c : Char) (h : Edits n a b) :
    Edits n (c :: a) (c :: b) := by
  induction h with
  | none a => exact .none _
  | more _ edit ih => exact ih.more (edit.cons c)

theorem Edits.trans {m n : Nat} {a b c : List Char} (first : Edits m a b) (second : Edits n b c) :
    Edits (m + n) a c := by
  induction second with
  | none => exact first
  | more _ edit ih => exact (ih first).more edit

theorem Edits.eq_of_zero {a b : List Char} (h : Edits 0 a b) : a = b := by
  cases h
  rfl

theorem Edits.symm {n : Nat} {a b : List Char} (h : Edits n a b) : Edits n b a := by
  induction h with
  | none a => exact .none a
  | @more n a b c _ edit ih =>
    have back : Edits 1 c b := (Edits.none c).more edit.symm
    simpa [Nat.add_comm] using back.trans ih

/-- Two texts side by side, with the number of places that differ: a place holds a character of
each text or of one of them only. -/
inductive Alignment : List Char → List Char → Nat → Prop
  | nil : Alignment [] [] 0
  | keep {a b : List Char} {n : Nat} (c : Char) : Alignment a b n → Alignment (c :: a) (c :: b) n
  | substitute {a b : List Char} {n : Nat} (c d : Char) :
      Alignment a b n → Alignment (c :: a) (d :: b) (n + 1)
  | insert {a b : List Char} {n : Nat} (d : Char) : Alignment a b n → Alignment a (d :: b) (n + 1)
  | delete {a b : List Char} {n : Nat} (c : Char) : Alignment a b n → Alignment (c :: a) b (n + 1)

namespace Alignment

variable {a b : List Char} {n : Nat}

theorem append {a' b' : List Char} {n' : Nat} (h : Alignment a b n) (h' : Alignment a' b' n') :
    Alignment (a ++ a') (b ++ b') (n + n') := by
  induction h with
  | nil => simpa using h'
  | keep c _ ih => exact ih.keep c
  | substitute c d _ ih => simpa [Nat.add_right_comm] using ih.substitute c d
  | insert d _ ih => simpa [Nat.add_right_comm] using ih.insert d
  | delete c _ ih => simpa [Nat.add_right_comm] using ih.delete c

theorem reverse (h : Alignment a b n) : Alignment a.reverse b.reverse n := by
  induction h with
  | nil => exact .nil
  | keep c _ ih => simpa using ih.append (Alignment.nil.keep c)
  | substitute c d _ ih => simpa using ih.append (Alignment.nil.substitute c d)
  | insert d _ ih => simpa using ih.append (Alignment.nil.insert d)
  | delete c _ ih => simpa using ih.append (Alignment.nil.delete c)

/-- Where the second text is cut, the alignment is. -/
theorem split {before after : List Char} (h : Alignment a (before ++ after) n) :
    ∃ a₁ a₂ n₁ n₂, a = a₁ ++ a₂ ∧ n = n₁ + n₂ ∧ Alignment a₁ before n₁ ∧ Alignment a₂ after n₂ := by
  generalize whole : before ++ after = b at h
  induction h generalizing before with
  | nil =>
    obtain ⟨rfl, rfl⟩ := List.append_eq_nil_iff.mp whole
    exact ⟨[], [], 0, 0, rfl, rfl, .nil, .nil⟩
  | keep c rest ih =>
    cases before with
    | nil =>
      obtain rfl : after = _ := whole
      exact ⟨[], _, 0, _, rfl, (Nat.zero_add _).symm, .nil, rest.keep c⟩
    | cons x before =>
      obtain ⟨rfl, tail⟩ := List.cons.inj whole
      obtain ⟨a₁, a₂, n₁, n₂, rfl, rfl, left, right⟩ := ih tail
      exact ⟨x :: a₁, a₂, n₁, n₂, rfl, rfl, left.keep x, right⟩
  | substitute c d rest ih =>
    cases before with
    | nil =>
      obtain rfl : after = _ := whole
      exact ⟨[], _, 0, _, rfl, (Nat.zero_add _).symm, .nil, rest.substitute c d⟩
    | cons x before =>
      obtain ⟨rfl, tail⟩ := List.cons.inj whole
      obtain ⟨a₁, a₂, n₁, n₂, rfl, rfl, left, right⟩ := ih tail
      exact ⟨c :: a₁, a₂, n₁ + 1, n₂, rfl, by omega, left.substitute c x, right⟩
  | insert d rest ih =>
    cases before with
    | nil =>
      obtain rfl : after = _ := whole
      exact ⟨[], _, 0, _, rfl, (Nat.zero_add _).symm, .nil, rest.insert d⟩
    | cons x before =>
      obtain ⟨rfl, tail⟩ := List.cons.inj whole
      obtain ⟨a₁, a₂, n₁, n₂, rfl, rfl, left, right⟩ := ih tail
      exact ⟨a₁, a₂, n₁ + 1, n₂, rfl, by omega, left.insert x, right⟩
  | delete c _ ih =>
    obtain ⟨a₁, a₂, n₁, n₂, rfl, rfl, left, right⟩ := ih whole
    exact ⟨c :: a₁, a₂, n₁ + 1, n₂, rfl, by omega, left.delete c, right⟩

theorem symm (h : Alignment a b n) : Alignment b a n := by
  induction h with
  | nil => exact .nil
  | keep c _ ih => exact ih.keep c
  | substitute c d _ ih => exact ih.substitute d c
  | insert d _ ih => exact ih.delete d
  | delete c _ ih => exact ih.insert c

/-- No more is lost from a text than is paid for. -/
theorem length_le (h : Alignment a b n) : a.length ≤ b.length + n := by
  induction h <;> simp only [List.length_cons, List.length_nil] <;> omega

theorem insertAll (b : List Char) : Alignment [] b b.length := by
  induction b with
  | nil => exact .nil
  | cons d b ih => exact ih.insert d

theorem deleteAll (a : List Char) : Alignment a [] a.length := by
  induction a with
  | nil => exact .nil
  | cons c a ih => exact ih.delete c

theorem self (a : List Char) : Alignment a a 0 := by
  induction a with
  | nil => exact .nil
  | cons c a ih => exact ih.keep c

/-- Any two texts can be aligned at the cost of the longer one. -/
theorem longer : (a b : List Char) → Alignment a b (max a.length b.length)
  | [], b => by simpa using insertAll b
  | a, [] => by simpa using deleteAll a
  | c :: a, d :: b => by simpa [Nat.succ_max_succ] using (longer a b).substitute c d

/-- One more edit costs at most one more place. -/
theorem edit {c : List Char} (h : Alignment a b n) (edit : Edit b c) :
    ∃ m ≤ n + 1, Alignment a c m := by
  obtain ⟨before, old, new, after, rfl, rfl, oldShort, newShort⟩ := edit.exists_parts
  obtain ⟨a₁, a', n₁, n', rfl, rfl, left, rest⟩ := h.split
  obtain ⟨a₂, a₃, n₂, n₃, rfl, rfl, middle, right⟩ := rest.split
  -- What stood against the old part, at most one character longer than it was paid for, is
  -- aligned anew with the new part.
  have short := middle.length_le
  refine ⟨_, ?_, left.append ((longer a₂ new).append right)⟩
  omega

/-- A script gives an alignment that costs no more. -/
theorem exists_of_edits (h : Edits n a b) : ∃ m ≤ n, Alignment a b m := by
  induction h with
  | none a => exact ⟨0, le_rfl, self a⟩
  | more _ step ih =>
    obtain ⟨m, le, aligned⟩ := ih
    obtain ⟨m', le', aligned'⟩ := aligned.edit step
    exact ⟨m', by omega, aligned'⟩

/-- An alignment gives a script of the same cost, from its end to its front. -/
theorem edits (h : Alignment a b n) : Edits n a b := by
  induction h with
  | nil => exact .none []
  | keep c _ ih => exact ih.cons c
  | @substitute a b n c d _ ih => exact (ih.cons c).more (.substitute [] b c d)
  | @insert a b n d _ ih => exact ih.more (.insert [] b d)
  | @delete a b n c _ ih => exact (ih.cons c).more (.delete [] b c)

/-- An alignment of two texts that end with a character each holds both characters in its last
place, or one of them in a place of its own. -/
theorem of_snoc {p q : List Char} {c d : Char} (h : Alignment (p ++ [c]) (q ++ [d]) n) :
    (∃ m, m + 1 ≤ n ∧ Alignment p (q ++ [d]) m) ∨ (∃ m, m + 1 ≤ n ∧ Alignment (p ++ [c]) q m) ∨
      ∃ m, m + (if c = d then 0 else 1) ≤ n ∧ Alignment p q m := by
  have turned : Alignment (c :: p.reverse) (d :: q.reverse) n := by simpa using h.reverse
  cases turned with
  | keep _ rest => exact .inr (.inr ⟨n, by simp, by simpa using rest.reverse⟩)
  | @substitute _ _ m _ _ rest =>
    exact .inr (.inr ⟨m, by split <;> omega, by simpa using rest.reverse⟩)
  | insert _ rest => exact .inr (.inl ⟨_, le_rfl, by simpa using rest.reverse⟩)
  | delete _ rest => exact .inl ⟨_, le_rfl, by simpa using rest.reverse⟩

theorem snoc {p q : List Char} (h : Alignment p q n) (c d : Char) :
    Alignment (p ++ [c]) (q ++ [d]) (n + if c = d then 0 else 1) := by
  by_cases same : c = d
  · subst same
    simpa using h.append (Alignment.nil.keep c)
  · simpa [same] using h.append (Alignment.nil.substitute c d)

end Alignment

/-- The least cost of an alignment. -/
def Cheapest (a b : List Char) (n : Nat) : Prop := IsLeast {m | Alignment a b m} n

theorem cheapest_nil_left (b : List Char) : Cheapest [] b b.length :=
  ⟨Alignment.insertAll b, fun _ aligned => by simpa using aligned.symm.length_le⟩

theorem cheapest_nil_right (a : List Char) : Cheapest a [] a.length :=
  ⟨Alignment.deleteAll a, fun _ aligned => by simpa using aligned.length_le⟩

/-- The least cost for two prefixes from those for the prefixes one character shorter. -/
theorem Cheapest.snoc {p q : List Char} {c d : Char} {upper left diagonal : Nat}
    (hUpper : Cheapest p (q ++ [d]) upper) (hLeft : Cheapest (p ++ [c]) q left)
    (hDiagonal : Cheapest p q diagonal) :
    Cheapest (p ++ [c]) (q ++ [d])
      (min (min (upper + 1) (left + 1)) (diagonal + if c = d then 0 else 1)) := by
  refine ⟨?_, fun n aligned => ?_⟩
  · have delete : Alignment (p ++ [c]) (q ++ [d]) (upper + 1) := by
      simpa using hUpper.1.append (Alignment.nil.delete c)
    have insert : Alignment (p ++ [c]) (q ++ [d]) (left + 1) := by
      simpa using hLeft.1.append (Alignment.nil.insert d)
    have both : Alignment (p ++ [c]) (q ++ [d]) (diagonal + if c = d then 0 else 1) :=
      Alignment.snoc hDiagonal.1 c d
    exact min_rec' (fun n => Alignment (p ++ [c]) (q ++ [d]) n)
      (min_rec' (fun n => Alignment (p ++ [c]) (q ++ [d]) n) delete insert) both
  · obtain ⟨m, paid, aligned⟩ | ⟨m, paid, aligned⟩ | ⟨m, paid, aligned⟩ :=
      Alignment.of_snoc aligned
    · have := hUpper.2 aligned
      omega
    · have := hLeft.2 aligned
      omega
    · have := hDiagonal.2 aligned
      omega

/-- The cells of a row from one prefix of the second text on: those of the prefix `done` and of
every longer one. -/
inductive Row (first : List Char) : List Char → List Char → List Nat → Prop
  | last {done : List Char} {cell : Nat} : Cheapest first done cell → Row first done [] [cell]
  | more {done rest : List Char} {d : Char} {cell : Nat} {row : List Nat} :
      Cheapest first done cell → Row first (done ++ [d]) rest row →
      Row first done (d :: rest) (cell :: row)

namespace Row

variable {first done rest : List Char} {row : List Nat}

/-- The first cell of a row belongs to the shortest of its prefixes. -/
theorem head (h : Row first done rest row) : Cheapest first done (row.headD 0) := by
  cases h with
  | last cell => exact cell
  | more cell _ => exact cell

/-- The last cell of a row belongs to the whole text. -/
theorem getLastD (h : Row first done rest row) :
    Cheapest first (done ++ rest) (row.getLastD 0) := by
  induction h with
  | last cell => simpa using cell
  | @more done rest d cell row _ beyond ih =>
    have nonempty : row ≠ [] := by rintro rfl; cases beyond
    have same : (cell :: row).getLastD 0 = row.getLastD 0 := by
      obtain ⟨next, row, rfl⟩ := List.exists_cons_of_ne_nil nonempty
      simp
    rw [same]
    simpa only [List.append_assoc, List.singleton_append] using ih

/-- Before any character of the first text, every prefix of the second one has to be inserted. -/
theorem ofRange (done rest : List Char) :
    Row [] done rest (List.range' done.length (rest.length + 1)) := by
  induction rest generalizing done with
  | nil => exact .last (cheapest_nil_left done)
  | cons d rest ih =>
    refine .more (cheapest_nil_left done) ?_
    simpa using ih (done ++ [d])

/-- One more character of the first text: the cell of a prefix follows from the cell before it and
the two cells above. -/
theorem extend {left : Nat} {above : List Nat} (c : Char) (h : Row first done rest above)
    (before : Cheapest (first ++ [c]) done left) :
    Row (first ++ [c]) done rest (left :: extendRow c left above rest) := by
  induction h generalizing left with
  | last => exact .last before
  | more diagonal beyond ih =>
    cases beyond with
    | last upper => exact .more before (ih (upper.snoc before diagonal))
    | more upper beyond => exact .more before (ih (upper.snoc before diagonal))

/-- The row behind one more character of the first text. -/
theorem next (c : Char) (h : Row first [] rest row) :
    Row (first ++ [c]) [] rest (nextRow rest row c) := by
  have before : Cheapest (first ++ [c]) [] (row.headD 0 + 1) := by
    have length : first.length = row.headD 0 := (cheapest_nil_right first).unique h.head
    simpa [length] using cheapest_nil_right (first ++ [c])
  exact h.extend c before

/-- The rows of all prefixes of the first text, by induction on what is still to come of it. -/
theorem foldl (more : List Char) (h : Row first [] rest row) :
    Row (first ++ more) [] rest (more.foldl (nextRow rest) row) := by
  induction more generalizing first row with
  | nil => simpa using h
  | cons c more ih => simpa using ih (h.next c)

end Row

/-- The last cell of the last row is the least cost for the two whole texts. -/
theorem cheapest_lastRow (first second : List Char) :
    Cheapest first second ((lastRow first second).getLastD 0) := by
  have start : Row [] [] second (List.range (second.length + 1)) := by
    simpa [List.range_eq_range'] using Row.ofRange [] second
  simpa [lastRow] using (start.foldl first).getLastD

/-- Alignments and scripts have the same least cost. -/
theorem Cheapest.isLeast_edits {a b : List Char} {n : Nat} (h : Cheapest a b n) :
    IsLeast {m | Edits m a b} n := by
  refine ⟨h.1.edits, fun m script => ?_⟩
  obtain ⟨cost, le, aligned⟩ := Alignment.exists_of_edits script
  exact (h.2 aligned).trans le

theorem Cheapest.symm {a b : List Char} {n : Nat} (h : Cheapest a b n) : Cheapest b a n :=
  ⟨h.1.symm, fun _ aligned => h.2 aligned.symm⟩

/-- Whichever of the texts the rows run along, the distance is the least cost. -/
theorem cheapest_editDistance (a b : String) :
    Cheapest a.toList b.toList (editDistance a b) := by
  unfold editDistance
  split
  · exact (cheapest_lastRow b.toList a.toList).symm
  · exact cheapest_lastRow a.toList b.toList

end EditDistance

open EditDistance

/-- The edit distance of two texts is the least number of insertions, deletions and substitutions of
single characters that turn one into the other. It is therefore the same in both directions, zero
just for equal texts, and no longer than a way round over a third text. -/
theorem editDistance_shortest_script :
    (∀ a b : String, IsLeast {n | Edits n a.toList b.toList} (editDistance a b)) ∧
      (∀ a b : String, editDistance a b = editDistance b a) ∧
      (∀ a b : String, editDistance a b = 0 ↔ a = b) ∧
      ∀ a b c : String, editDistance a c ≤ editDistance a b + editDistance b c := by
  have least : ∀ a b : String, IsLeast {n | Edits n a.toList b.toList} (editDistance a b) :=
    fun a b => (cheapest_editDistance a b).isLeast_edits
  refine ⟨least, fun a b => ?_, fun a b => ⟨fun zero => ?_, ?_⟩, fun a b c => ?_⟩
  · exact le_antisymm ((least a b).2 (least b a).1.symm) ((least b a).2 (least a b).1.symm)
  · have script : Edits 0 a.toList b.toList := zero ▸ (least a b).1
    exact String.toList_injective script.eq_of_zero
  · rintro rfl
    exact Nat.le_zero.mp ((least a a).2 (Edits.none a.toList))
  · exact (least a c).2 ((least a b).1.trans (least b c).1)

/-- Two substitutions and an insertion. -/
example : editDistance "kitten" "sitting" = 3 := by decide +kernel

end Typeward
