import Mathlib.Data.Prod.Lex
import Typeward.Proofs.Actions
import Typeward.Source.Literal

/-!
# The order of tokens

A reader moves forward only, so the places that it comes to are in order: every token ends before
the next one starts, and a token that holds a word starts at a character. What a token holds stands
between its own start and end, also when the token is read again by itself.
-/

namespace Typeward

/-- Places are in order by their lines, and on a line by their columns. -/
instance : LinearOrder Pos :=
  LinearOrder.lift' (fun p => toLex (p.line, p.column)) fun p q h => by
    obtain ⟨line, column⟩ := p
    obtain ⟨line', column'⟩ := q
    simpa using h

/-- A place comes before another one if its line does, or its column on the same line. -/
theorem Pos.lt_iff {p q : Pos} :
    p < q ↔ p.line < q.line ∨ p.line = q.line ∧ p.column < q.column :=
  Prod.Lex.lt_iff

/-- As `Pos.lt_iff`, for places that may be the same. -/
theorem Pos.le_iff {p q : Pos} :
    p ≤ q ↔ p.line < q.line ∨ p.line = q.line ∧ p.column ≤ q.column :=
  Prod.Lex.le_iff

namespace Source

namespace Cursor

variable {c c' c'' d : Cursor}

/-- Moving over a character drops it. -/
theorem rest_next (c : Cursor) : c.next.rest = c.rest.tail := by
  unfold next
  split
  · rename_i h
    rw [h]
    rfl
  · rename_i h
    rw [h]
    split <;> rfl

/-- Moving over characters drops them. -/
theorem rest_skip (c : Cursor) (n : Nat) : (c.skip n).rest = c.rest.drop n := by
  induction n generalizing c with
  | zero => rfl
  | succ n ih => rw [skip, ih, rest_next, List.drop_tail]

/-- Where the next character ends: on the next line, if more text follows a newline. -/
theorem pos_next {ch : Char} {rest : List Char} (h : c.rest = ch :: rest) :
    c.next.pos = if ch = '\n' ∧ rest ≠ [] then ⟨c.line + 1, 0⟩
      else ⟨c.line, c.column + ch.utf8Size⟩ := by
  unfold next
  rw [h]
  cases rest with
  | nil => simp [pos]
  | cons x xs =>
    by_cases hch : ch = '\n' <;> simp [pos, hch]

/-- A character moves the place on. -/
theorem pos_lt_next (h : c.rest ≠ []) : c.pos < c.next.pos := by
  obtain ⟨ch, rest, hrest⟩ := List.exists_cons_of_ne_nil h
  have hsize := ch.utf8Size_pos
  rw [pos_next hrest, Pos.lt_iff]
  split
  · exact .inl (Nat.lt_succ_self c.line)
  · exact .inr ⟨rfl, Nat.lt_add_of_pos_right hsize⟩

/-- At the end of the text nothing is moved over. -/
theorem next_of_nil (h : c.rest = []) : c.next = c := by
  unfold next
  rw [h]

/-- The place never moves back. -/
theorem pos_le_next (c : Cursor) : c.pos ≤ c.next.pos := by
  by_cases h : c.rest = []
  · rw [next_of_nil h]
  · exact (pos_lt_next h).le

/-- Moving over some characters and then over others is moving over all of them. -/
theorem skip_add (c : Cursor) (m n : Nat) : c.skip (m + n) = (c.skip m).skip n := by
  induction m generalizing c with
  | zero => rw [Nat.zero_add, skip]
  | succ m ih => rw [Nat.succ_add, skip, ih, skip]

/-- At the end of the text nothing is moved over, however often. -/
theorem skip_of_nil (h : c.rest = []) (n : Nat) : c.skip n = c := by
  induction n with
  | zero => rfl
  | succ n ih => rw [skip, next_of_nil h, ih]

/-- A cursor is reached from another one by moving over characters. -/
def Reaches (c c' : Cursor) : Prop := ∃ n, c' = c.skip n

/-- A cursor is reached from itself. -/
theorem Reaches.refl (c : Cursor) : c.Reaches c := ⟨0, rfl⟩

/-- What is reached from a reached cursor is reached. -/
theorem Reaches.trans (h : c.Reaches c') (h' : c'.Reaches c'') : c.Reaches c'' := by
  obtain ⟨m, rfl⟩ := h
  obtain ⟨n, rfl⟩ := h'
  exact ⟨m + n, (skip_add c m n).symm⟩

/-- The cursor behind some characters is reached. -/
theorem reaches_skip (c : Cursor) (n : Nat) : c.Reaches (c.skip n) := ⟨n, rfl⟩

/-- The cursor behind a character is reached. -/
theorem reaches_next (c : Cursor) : c.Reaches c.next := ⟨1, rfl⟩

/-- The cursor behind characters of a kind is reached. -/
theorem reaches_skipWhile (c : Cursor) (p : Char → Bool) : c.Reaches (c.skipWhile p) :=
  reaches_skip c _

/-- The place does not move back. -/
theorem Reaches.pos_le (h : c.Reaches c') : c.pos ≤ c'.pos := by
  obtain ⟨n, rfl⟩ := h
  induction n generalizing c with
  | zero => exact le_rfl
  | succ n ih => exact (pos_le_next c).trans ih

/-- Behind more characters the place is no earlier. -/
theorem pos_skip_mono (c : Cursor) {m n : Nat} (h : m ≤ n) : (c.skip m).pos ≤ (c.skip n).pos := by
  obtain ⟨k, rfl⟩ := Nat.exists_eq_add_of_le h
  rw [skip_add]
  exact (reaches_skip _ k).pos_le

/-- Behind what a cursor has moved over, the place is a later one. -/
theorem Reaches.pos_lt (h : c.Reaches c') (hmoved : c'.rest.length < c.rest.length) :
    c.pos < c'.pos := by
  obtain ⟨n, rfl⟩ := h
  cases n with
  | zero => exact absurd hmoved (Nat.lt_irrefl _)
  | succ n =>
    have hrest : c.rest ≠ [] := by
      intro hnil
      rw [hnil] at hmoved
      exact absurd hmoved (Nat.not_lt_zero _)
    exact (pos_lt_next hrest).trans_le (reaches_skip c.next n).pos_le

/-- A text that stands in the place of another one: each of its characters is that of the other
text, or both are of a single byte and end no line. A last line feed may stand in the place of
anything. -/
inductive Overlays : List Char → List Char → Prop
  | nil {ds} : Overlays [] ds
  | same {c cs ds} (hmore : cs ≠ [] → ds ≠ []) (h : Overlays cs ds) :
      Overlays (c :: cs) (c :: ds)
  | mark {c d cs ds} (hc : c.utf8Size = 1) (hd : d.utf8Size = 1) (hcline : c ≠ '\n')
      (hdline : d ≠ '\n') (hmore : cs ≠ [] → ds ≠ []) (h : Overlays cs ds) :
      Overlays (c :: cs) (d :: ds)
  | last {d ds} : Overlays ['\n'] (d :: ds)

/-- What stands in the place of a text that stands in the place of another one stands there. -/
theorem Overlays.trans {cs ds es : List Char} (h : Overlays cs ds) (h' : Overlays ds es) :
    Overlays cs es := by
  induction h generalizing es with
  | nil => exact .nil
  | same hmore h ih =>
    cases h' with
    | same hmore' h' => exact .same (fun hcs => hmore' (hmore hcs)) (ih h')
    | mark hc hd hcline hdline hmore' h' =>
      exact .mark hc hd hcline hdline (fun hcs => hmore' (hmore hcs)) (ih h')
    | last =>
      cases h with
      | nil => exact .last
  | mark hc hd hcline hdline hmore h ih =>
    cases h' with
    | same hmore' h' => exact .mark hc hd hcline hdline (fun hcs => hmore' (hmore hcs)) (ih h')
    | mark _ he _ heline hmore' h' =>
      exact .mark hc he hcline heline (fun hcs => hmore' (hmore hcs)) (ih h')
    | last => exact absurd rfl hdline
  | last =>
    cases h' with
    | same | mark | last => exact .last

/-- The first part of a text stands in the place of the text. -/
theorem overlays_of_prefix {cs ds : List Char} (h : cs <+: ds) : Overlays cs ds := by
  induction cs generalizing ds with
  | nil => exact .nil
  | cons c cs ih =>
    obtain ⟨more, rfl⟩ := h
    refine .same (fun hcs => ?_) (ih (List.prefix_append cs more))
    exact List.append_ne_nil_of_left_ne_nil hcs more

/-- A reader of a text that stands in the place of another one comes no further. -/
theorem Overlays.pos_skip_le (h : Overlays c.rest d.rest) (hpos : c.pos ≤ d.pos) (n : Nat) :
    (c.skip n).pos ≤ (d.skip (min n c.rest.length)).pos := by
  induction n generalizing c d with
  | zero => simpa [skip] using hpos
  | succ n ih =>
    generalize hc : c.rest = cs at h
    generalize hd : d.rest = ds at h
    have hline := Pos.le_iff.1 hpos
    simp only [pos] at hline
    cases h with
    | nil =>
      rw [skip_of_nil hc, List.length_nil, Nat.min_zero]
      exact hpos
    | @same ch cs ds hmore h =>
      rw [List.length_cons, Nat.succ_min_succ, skip, skip]
      have hcs : c.next.rest = cs := by rw [rest_next, hc, List.tail_cons]
      have hds : d.next.rest = ds := by rw [rest_next, hd, List.tail_cons]
      have hnext : c.next.pos ≤ d.next.pos := by
        rw [pos_next hc, pos_next hd, Pos.le_iff]
        by_cases hch : ch = '\n'
        · subst hch
          by_cases hnil : cs = []
          · subst hnil
            split <;> grind
          · rw [if_pos ⟨rfl, hnil⟩, if_pos ⟨rfl, hmore hnil⟩]
            grind
        · rw [if_neg fun h => hch h.1, if_neg fun h => hch h.1]
          grind
      have hrest := ih (by rw [hcs, hds]; exact h) hnext
      rwa [hcs] at hrest
    | @mark ch ch' cs ds hsize hsize' hne hne' hmore h =>
      rw [List.length_cons, Nat.succ_min_succ, skip, skip]
      have hcs : c.next.rest = cs := by rw [rest_next, hc, List.tail_cons]
      have hds : d.next.rest = ds := by rw [rest_next, hd, List.tail_cons]
      have hnext : c.next.pos ≤ d.next.pos := by
        rw [pos_next hc, pos_next hd, Pos.le_iff, if_neg fun h => hne h.1,
          if_neg fun h => hne' h.1, hsize, hsize']
        grind
      have hrest := ih (by rw [hcs, hds]; exact h) hnext
      rwa [hcs] at hrest
    | @last ch ds =>
      have hend : c.next.rest = [] := by rw [rest_next, hc, List.tail_cons]
      have hbyte := ch.utf8Size_pos
      have hfeed : ('\n' : Char).utf8Size = 1 := rfl
      rw [List.length_singleton, Nat.succ_min_succ, Nat.min_zero, skip, skip_of_nil hend, skip, skip,
        pos_next hc, pos_next hd, Pos.le_iff, if_neg (by simp)]
      split <;> grind

/-- A cursor stands where another one does, before a text that stands in the place of the other
one's. -/
structure LiesOn (c d : Cursor) : Prop where
  pos : c.pos = d.pos
  rest : Overlays c.rest d.rest

/-- A cursor before the first part of a text. -/
theorem liesOn_of_prefix (hpos : c.pos = d.pos) (h : c.rest <+: d.rest) : c.LiesOn d :=
  ⟨hpos, overlays_of_prefix h⟩

/-- What stands in the place of what stands in the place of a third one stands in that place. -/
theorem LiesOn.trans (h : c.LiesOn c') (h' : c'.LiesOn c'') : c.LiesOn c'' :=
  ⟨h.pos.trans h'.pos, h.rest.trans h'.rest⟩

/-- Two cursors that stand at one place stay together, as long as characters are left. -/
theorem LiesOn.skip (h : c.LiesOn d) {n : Nat} (hleft : (c.skip n).rest ≠ []) :
    (c.skip n).LiesOn (d.skip n) := by
  induction n generalizing c d with
  | zero => exact h
  | succ n ih =>
    refine ih ?_ hleft
    obtain ⟨hpos, hrest⟩ := h
    have hnext : c.next.rest ≠ [] := fun hnil => hleft (by rw [Cursor.skip, rest_skip, hnil]; simp)
    rw [rest_next] at hnext
    have hline : c.line = d.line := congrArg Pos.line hpos
    have hcolumn : c.column = d.column := congrArg Pos.column hpos
    generalize hc : c.rest = cs at hrest hnext
    generalize hd : d.rest = ds at hrest
    cases hrest with
    | nil => exact absurd rfl hnext
    | @same ch cs ds hmore hrest =>
      have hds : ds ≠ [] := hmore hnext
      refine ⟨?_, by rw [rest_next, rest_next, hc, hd]; exact hrest⟩
      rw [pos_next hc, pos_next hd, hline, hcolumn]
      simp [show cs ≠ [] from hnext, hds]
    | @mark ch ch' cs ds hsize hsize' hne hne' hmore hrest =>
      refine ⟨?_, by rw [rest_next, rest_next, hc, hd]; exact hrest⟩
      rw [pos_next hc, pos_next hd, hline, hcolumn, hsize, hsize']
      simp [hne, hne']
    | last => exact absurd rfl hnext

/-- A cursor stands before a character that ends no line. -/
def AtCharacter (c : Cursor) : Prop := ∃ ch rest, c.rest = ch :: rest ∧ ch ≠ '\n'

/-- Before a character the text does not end. -/
theorem AtCharacter.rest_ne_nil (h : c.AtCharacter) : c.rest ≠ [] := by
  obtain ⟨ch, rest, hrest, -⟩ := h
  rw [hrest]
  exact List.cons_ne_nil _ _

/-- What is seen is a character, if it is no line feed. -/
theorem atCharacter_of_sees {p : Char → Bool} (h : c.sees p = true) (hp : p '\n' = false) :
    c.AtCharacter := by
  unfold sees peek at h
  cases hrest : c.rest with
  | nil => simp [hrest] at h
  | cons ch rest =>
    refine ⟨ch, rest, hrest, ?_⟩
    rintro rfl
    simp [hrest, hp] at h

/-- What stands at the place of a character stands at one. -/
theorem LiesOn.atCharacter (h : c.LiesOn d) (hc : c.AtCharacter) : d.AtCharacter := by
  obtain ⟨ch, cs, hcs, hch⟩ := hc
  have hrest := h.rest
  rw [hcs] at hrest
  generalize hd : d.rest = ds at hrest
  cases hrest with
  | same => exact ⟨_, _, hd, hch⟩
  | mark _ _ _ hne => exact ⟨_, _, hd, hne⟩
  | last => exact absurd rfl hch

end Cursor

/-- What stands between two places of a text, and is read again from its own text. -/
structure Token.Within (t : Token) (a b : Pos) : Prop where
  start : a ≤ t.pos
  stop : t.stop ≤ b
  width : t.pos ≤ t.stop
  /-- Words and ends of lines are not empty. -/
  nonempty : t.text ≠ "" ∨ t.kind = .newline → t.pos < t.stop
  inside (n : Nat) : ((stringParts t).start.skip n).pos ≤ t.stop

/-- Tokens that stand between two places, each one behind the end of those before it. -/
structure InRow (ts : List Token) (a b : Pos) : Prop where
  le : a ≤ b
  within : ∀ t ∈ ts, t.Within a b
  ordered : ts.Pairwise fun t u => t.stop ≤ u.pos

/-- A token holds a word: a name, a number, a string or an operator. -/
def Token.IsWord (t : Token) : Prop :=
  t.text ≠ "" ∨ t.kind = .name ∨ t.kind = .number ∨ t.kind = .string

/-- What is no word has no text. -/
theorem Token.text_of_not_isWord {t : Token} (h : ¬ t.IsWord) : t.text = "" :=
  not_not.1 fun hne => h (.inl hne)

/-- A token stands at a character, and its text in the place of what follows. -/
structure Token.StandsAt (t : Token) (c : Cursor) : Prop where
  lies : (stringParts t).start.LiesOn c
  visible : c.AtCharacter

/-- The words among tokens stand at characters behind a cursor. -/
def WordsBehind (start : Cursor) (ts : List Token) : Prop :=
  ∀ t ∈ ts, t.IsWord → ∃ c, start.Reaches c ∧ t.StandsAt c

variable {a b c : Pos} {s s' : LexState}

/-- What stands between two places stands between places around these. -/
theorem Token.Within.mono {a' b' : Pos} {t : Token} (h : t.Within a b) (ha : a' ≤ a)
    (hb : b ≤ b') : t.Within a' b' :=
  { h with start := ha.trans h.start, stop := h.stop.trans hb }

/-- No tokens are in a row. -/
theorem InRow.nil (h : a ≤ b) : InRow [] a b := ⟨h, by simp, .nil⟩

/-- A single token is in a row. -/
theorem InRow.single {t : Token} (h : t.Within a b) : InRow [t] a b :=
  ⟨h.start.trans (h.width.trans h.stop), by simpa using h, List.pairwise_singleton _ _⟩

/-- Rows that follow each other are one row. -/
theorem InRow.append {ts us : List Token} (h : InRow ts a b) (h' : InRow us b c) :
    InRow (ts ++ us) a c := by
  refine ⟨h.le.trans h'.le, fun t ht => ?_, ?_⟩
  · rcases List.mem_append.1 ht with ht | ht
    · exact (h.within t ht).mono le_rfl h'.le
    · exact (h'.within t ht).mono h.le le_rfl
  · refine List.pairwise_append.2 ⟨h.ordered, h'.ordered, fun t ht u hu => ?_⟩
    exact (h.within t ht).stop.trans (h'.within u hu).start

/-- A row stands between places around it. -/
theorem InRow.mono {a' b' : Pos} {ts : List Token} (h : InRow ts a b) (ha : a' ≤ a) (hb : b ≤ b') :
    InRow ts a' b' :=
  ⟨ha.trans (h.le.trans hb), fun t ht => (h.within t ht).mono ha hb, h.ordered⟩

/-- A token between two cursors stands between their places. -/
theorem LexState.within_token (s : LexState) {kind : TokenKind} {start stop : Cursor} (depth : Nat)
    (h : start.Reaches stop) (hkind : kind = .newline → start.pos < stop.pos) :
    (s.token kind start stop depth).Within start.pos stop.pos := by
  have hprefix : start.upTo stop <+: start.rest := List.take_prefix _ _
  refine ⟨le_rfl, le_rfl, h.pos_le, ?_, fun n => ?_⟩
  · rintro (htext | hnewline)
    · refine h.pos_lt ?_
      by_contra hstays
      have hnone : start.rest.length - stop.rest.length = 0 := by omega
      refine htext (congrArg String.ofList (?_ : start.upTo stop = []))
      rw [Cursor.upTo, hnone, List.take_zero]
    · exact hkind hnewline
  · obtain ⟨k, rfl⟩ := h
    let again : Cursor := (stringParts (s.token kind start (start.skip k) depth)).start
    have hrest : again.rest = start.upTo (start.skip k) := String.toList_ofList
    have hagain : Cursor.Overlays again.rest start.rest :=
      Cursor.overlays_of_prefix (hrest ▸ hprefix)
    have hlength : again.rest.length ≤ k := by
      rw [hrest, Cursor.upTo, List.length_take, Cursor.rest_skip, List.length_drop]
      omega
    have hpos : again.pos = start.pos := rfl
    exact (hagain.pos_skip_le hpos.le n).trans (Cursor.pos_skip_mono start (by omega))

/-- A layout token of no width stands at its cursor. -/
theorem LexState.within_mark (s : LexState) (kind : TokenKind) (c : Cursor)
    (hkind : kind ≠ .newline) : (s.mark kind c).Within c.pos c.pos := by
  refine ⟨le_rfl, le_rfl, le_rfl, ?_, fun n => ?_⟩
  · rintro (htext | hnewline)
    · exact absurd rfl htext
    · exact absurd hnewline hkind
  · have hnil : (stringParts (s.mark kind c)).start.rest = [] := rfl
    rw [Cursor.skip_of_nil hnil]
    exact le_rfl

/-- A layout token is no word. -/
theorem LexState.not_isWord_mark (s : LexState) {kind : TokenKind} (c : Cursor)
    (hkind : kind ∉ [.name, .number, .string]) : ¬ (s.mark kind c).IsWord := by
  rintro (htext | hword)
  · exact htext rfl
  · exact hkind (by simpa [mark] using hword)

/-- A token between two cursors stands at the first one, if that is before a character. -/
theorem LexState.standsAt_token (s : LexState) {kind : TokenKind} {start stop : Cursor}
    (depth : Nat) (hstart : start.AtCharacter) :
    (s.token kind start stop depth).StandsAt start := by
  refine ⟨Cursor.liesOn_of_prefix rfl ?_, hstart⟩
  change (String.ofList (start.upTo stop)).toList <+: start.rest
  rw [String.toList_ofList]
  exact List.take_prefix _ _

/-- What a reader finds between two cursors: tokens in a row, the words among them at characters. -/
structure Finds (start stop : Cursor) (ts : List Token) : Prop where
  reached : start.Reaches stop
  row : InRow ts start.pos stop.pos
  words : WordsBehind start ts

/-- No tokens are found between cursors. -/
theorem Finds.nil {start stop : Cursor} (h : start.Reaches stop) : Finds start stop [] :=
  ⟨h, .nil h.pos_le, List.forall_mem_nil _⟩

/-- What is found between cursors and then further on is found together. -/
theorem Finds.append {start middle stop : Cursor} {ts us : List Token} (h : Finds start middle ts)
    (h' : Finds middle stop us) : Finds start stop (ts ++ us) := by
  refine ⟨h.reached.trans h'.reached, h.row.append h'.row, fun t ht hword => ?_⟩
  rcases List.mem_append.1 ht with ht | ht
  · exact h.words t ht hword
  · obtain ⟨c, hc, hat⟩ := h'.words t ht hword
    exact ⟨c, h.reached.trans hc, hat⟩

/-- A layout token is found at its cursor. -/
theorem LexState.finds_mark (s : LexState) {kind : TokenKind} (c : Cursor)
    (hkind : kind ∉ [.name, .number, .string, .newline]) : Finds c c [s.mark kind c] := by
  have hnewline : kind ≠ .newline := fun h => hkind (by simp [h])
  have hword : kind ∉ [.name, .number, .string] := fun h => hkind (List.mem_append_left [_] h)
  refine ⟨.refl c, .single (s.within_mark kind c hnewline), ?_⟩
  exact List.forall_mem_singleton.2 fun h => absurd h (s.not_isWord_mark c hword)

/-- Layout tokens are found at their cursor. -/
theorem LexState.finds_marks (s : LexState) {kind : TokenKind} (c : Cursor) (n : Nat)
    (hkind : kind ∉ [.name, .number, .string, .newline]) :
    Finds c c (List.replicate n (s.mark kind c)) := by
  induction n with
  | zero => exact .nil (.refl c)
  | succ n ih =>
    rw [List.replicate_succ]
    exact (s.finds_mark c hkind).append ih

/-- A token is found between its cursors, if the first one stands before a character. -/
theorem LexState.finds_token (s : LexState) {kind : TokenKind} {start stop : Cursor} (depth : Nat)
    (hkind : kind ≠ .newline) (hstart : start.AtCharacter) (h : start.Reaches stop) :
    Finds start stop [s.token kind start stop depth] := by
  refine ⟨h, .single (s.within_token depth h fun h => absurd h hkind), ?_⟩
  exact List.forall_mem_singleton.2 fun _ => ⟨start, .refl start, s.standsAt_token depth hstart⟩

/-- Digits are read forward. -/
theorem reaches_digitGroups {isDigit : Char → Bool} {reason : String} {c stop : Cursor}
    {fuel : Nat} (h : digitGroups s isDigit reason c fuel = .ok stop) : c.Reaches stop := by
  induction fuel generalizing c with
  | zero =>
    obtain rfl := Except.ok.inj h
    exact .refl c
  | succ fuel ih =>
    have hdigits := c.reaches_skipWhile isDigit
    simp only [digitGroups] at h
    split at h
    · split at h
      · exact (hdigits.trans (Cursor.reaches_next _)).trans (ih h)
      · cases h
    · obtain rfl := Except.ok.inj h
      exact hdigits

/-- The end of a number is where its last digit was. -/
theorem endNumber_eq_ok {c stop : Cursor} {reason : String}
    (h : endNumber s c reason = .ok stop) : stop = c := by
  unfold endNumber at h
  split at h
  · cases h
  · exact (Except.ok.inj h).symm

/-- Numbers with a base are read forward. -/
theorem reaches_basedNumber {isDigit : Char → Bool} {kind : String} {c stop : Cursor}
    (h : basedNumber s isDigit kind c = .ok stop) : c.Reaches stop := by
  unfold basedNumber at h
  simp only at h
  have hstart : c.Reaches (if c.sees (· == '_') then c.next else c) := by
    split
    · exact c.reaches_next
    · exact .refl c
  generalize (if c.sees (· == '_') then c.next else c) = start at h hstart
  split at h
  · split at h <;> cases h
  · obtain ⟨digits, hdigits, h⟩ := Except.bind_eq_ok.1 h
    split at h
    · cases h
    · rw [endNumber_eq_ok h]
      exact hstart.trans (reaches_digitGroups hdigits)

/-- The end of a decimal number is read forward. -/
theorem reaches_numberTail {c stop : Cursor} (h : numberTail s c = .ok stop) :
    c.Reaches stop := by
  unfold numberTail at h
  simp only at h
  have hdigits : c.Reaches
      (if c.next.sees fun d => d == '+' || d == '-' then c.next.next else c.next) := by
    split
    · exact c.reaches_next.trans (Cursor.reaches_next _)
    · exact c.reaches_next
  have hend {d : Cursor} (hd : c.Reaches d)
      (h : (if d.sees fun j => j == 'j' || j == 'J' then
        endNumber s d.next "invalid imaginary literal"
        else endNumber s d "invalid decimal literal") = .ok stop) : c.Reaches stop := by
    split at h
    · rw [endNumber_eq_ok h]
      exact hd.trans d.reaches_next
    · rw [endNumber_eq_ok h]
      exact hd
  generalize (if c.next.sees fun d => d == '+' || d == '-' then c.next.next else c.next) = digits
    at h hdigits
  split at h
  · obtain ⟨d, hd, h⟩ := Except.bind_eq_ok.1 h
    exact hend (hdigits.trans (reaches_digitGroups hd)) h
  · split at h
    · cases h
    · exact hend (.refl c) h

/-- The fraction of a decimal number is read forward. -/
theorem reaches_fractionTail {c stop : Cursor} (h : fractionTail s c = .ok stop) :
    c.Reaches stop := by
  unfold fractionTail at h
  simp only at h
  split at h
  · obtain ⟨d, hd, h⟩ := Except.bind_eq_ok.1 h
    exact (reaches_digitGroups hd).trans (reaches_numberTail h)
  · exact reaches_numberTail h

/-- Numbers are read forward. -/
theorem reaches_numberEnd {c stop : Cursor} (h : numberEnd s c = .ok stop) : c.Reaches stop := by
  unfold numberEnd at h
  simp only at h
  split at h
  · exact (c.reaches_skip 2).trans (reaches_basedNumber h)
  · split at h
    · exact (c.reaches_skip 2).trans (reaches_basedNumber h)
    · split at h
      · exact (c.reaches_skip 2).trans (reaches_basedNumber h)
      · obtain ⟨d, hd, h⟩ := Except.bind_eq_ok.1 h
        have hdigits := reaches_digitGroups hd
        split at h
        · exact (hdigits.trans d.reaches_next).trans (reaches_fractionTail h)
        · split at h
          · exact hdigits.trans (reaches_numberTail h)
          · split at h
            · cases h
            · rw [endNumber_eq_ok h]
              exact hdigits

/-- Strings are read forward. -/
theorem reaches_stringEnd {quote : Char} {size found : Nat} {c stop : Cursor} {fuel : Nat}
    (h : stringEnd quote size found c fuel = some stop) : c.Reaches stop := by
  induction fuel generalizing c found with
  | zero => cases h
  | succ fuel ih =>
    simp only [stringEnd] at h
    split at h
    · obtain rfl := Option.some.inj h
      exact .refl c
    · split at h
      · cases h
      · split at h
        · cases h
        · split at h
          · exact c.reaches_next.trans (ih h)
          · split at h
            · exact (c.reaches_next.trans (Cursor.reaches_next _)).trans (ih h)
            · exact c.reaches_next.trans (ih h)

/-- A line continuation ends behind its newline. -/
theorem reaches_continuationEnd {c stop : Cursor} (h : continuationEnd s c = .ok stop) :
    c.Reaches stop := by
  unfold continuationEnd at h
  split at h
  · cases h
  · split at h
    · cases h
    · obtain rfl := Except.ok.inj h
      exact c.reaches_next

/-- Indentation is read forward. -/
theorem reaches_indentation {i j : Indentation} {fuel : Nat}
    (h : indentation s i fuel = .ok j) : i.stop.Reaches j.stop := by
  induction fuel generalizing i with
  | zero =>
    obtain rfl := Except.ok.inj h
    exact .refl _
  | succ fuel ih =>
    simp only [indentation] at h
    split at h
    · exact i.stop.reaches_next.trans (ih h)
    · exact i.stop.reaches_next.trans (ih h)
    · exact i.stop.reaches_next.trans (ih h)
    · obtain ⟨stop, hstop, h⟩ := Except.bind_eq_ok.1 h
      exact (i.stop.reaches_next.trans (reaches_continuationEnd hstop)).trans (ih h)
    · obtain rfl := Except.ok.inj h
      exact .refl _

/-- The tokens for the indentation of a line are found where it ends. -/
theorem finds_layoutTokens {i : Indentation} {ts : List Token} {indents : List (Nat × Nat)}
    (h : layoutTokens s i = .ok (ts, indents)) : Finds i.stop i.stop ts := by
  unfold layoutTokens at h
  dsimp only at h
  generalize (if i.continued = 0 then i.column else i.continued) = column at h
  generalize (if i.continued = 0 then i.narrow else i.continued) = narrow at h
  split at h
  · split at h
    · cases h
    · obtain ⟨rfl, -⟩ := Prod.mk.inj (Except.ok.inj h)
      exact .nil (.refl _)
  · split at h
    · split at h
      · cases h
      · split at h
        · cases h
        · obtain ⟨rfl, -⟩ := Prod.mk.inj (Except.ok.inj h)
          exact LexState.finds_mark _ _ (by decide)
    · split at h
      · cases h
      · split at h
        · cases h
        · obtain ⟨rfl, -⟩ := Prod.mk.inj (Except.ok.inj h)
          exact LexState.finds_marks _ _ _ (by decide)

/-- A step of the reader finds its tokens between where it starts and where it ends. -/
theorem finds_lexStep {ts : List Token} (h : lexStep s = .ok (ts, s')) :
    Finds s.cursor s'.cursor ts := by
  unfold lexStep at h
  simp only at h
  split at h
  · -- At the start of a line.
    obtain ⟨i, hi, h⟩ := Except.bind_eq_ok.1 h
    have hindented : s.cursor.Reaches i.stop := reaches_indentation hi
    split at h
    · obtain ⟨rfl, rfl⟩ := Prod.mk.inj (Except.ok.inj h)
      exact .nil ((hindented.trans (Cursor.reaches_skipWhile _ _)).trans (Cursor.reaches_next _))
    · split at h
      · obtain ⟨⟨tokens, indents⟩, hlayout, h⟩ := Except.bind_eq_ok.1 h
        obtain ⟨rfl, rfl⟩ := Prod.mk.inj (Except.ok.inj h)
        exact (Finds.nil hindented).append (finds_layoutTokens hlayout)
      · obtain ⟨rfl, rfl⟩ := Prod.mk.inj (Except.ok.inj h)
        exact .nil hindented
  · have hblank := s.cursor.reaches_skipWhile fun c => c == ' ' || c == '\t' || c == '\x0c'
    generalize s.cursor.skipWhile (fun c => c == ' ' || c == '\t' || c == '\x0c') = start
      at h hblank
    have hcomment : start.Reaches
        (if start.sees (· == '#') then start.skipWhile (· != '\n') else start) := by
      split
      · exact start.reaches_skipWhile _
      · exact .refl start
    -- A comment starts at a character, too, though no word does there.
    have hvisible : (if start.sees (· == '#') then start.skipWhile (· != '\n')
        else start).AtCharacter → start.AtCharacter := by
      split
      · rename_i hsees
        exact fun _ => Cursor.atCharacter_of_sees hsees (by decide)
      · exact fun h => h
    generalize (if start.sees (· == '#') then start.skipWhile (· != '\n') else start) = behind
      at h hcomment hvisible
    split at h
    · split at h <;> cases h
    · rename_i rest hnewline
      have hreached : start.Reaches behind.next := hcomment.trans behind.reaches_next
      split at h
      · obtain ⟨rfl, rfl⟩ := Prod.mk.inj (Except.ok.inj h)
        have hends : start.pos < behind.next.pos :=
          hcomment.pos_le.trans_lt (Cursor.pos_lt_next (by simp [hnewline]))
        have hwithin : Token.Within { s.token .newline start behind.next s.brackets.length with
            text := "", reach := ⟨behind.line, behind.chars + 1, s.heldFrom⟩ }
            start.pos behind.next.pos := by
          refine ⟨le_rfl, le_rfl, hends.le, fun _ => hends, fun n => ?_⟩
          rw [Cursor.skip_of_nil rfl]
          exact hends.le
        refine (Finds.nil hblank).append ⟨hreached, .single hwithin, ?_⟩
        refine List.forall_mem_singleton.2 fun hword => ?_
        rcases hword with htext | hkind
        · exact absurd rfl htext
        · exact absurd hkind (by simp [LexState.token])
      · obtain ⟨rfl, rfl⟩ := Prod.mk.inj (Except.ok.inj h)
        exact .nil (hblank.trans hreached)
    · obtain ⟨stop, hstop, h⟩ := Except.bind_eq_ok.1 h
      obtain ⟨rfl, rfl⟩ := Prod.mk.inj (Except.ok.inj h)
      exact .nil ((hblank.trans start.reaches_next).trans (reaches_continuationEnd hstop))
    · rename_i ch rest hne _ hrest
      have hstart : start.AtCharacter := hvisible ⟨ch, rest, hrest, hne⟩
      have hword {kind : TokenKind} {stop : Cursor} {depth : Nat} (hkind : kind ≠ .newline)
          (hstop : start.Reaches stop) :
          Finds s.cursor stop [s.token kind start stop depth] :=
        (Finds.nil hblank).append (s.finds_token depth hkind hstart hstop)
      split at h
      · split at h
        · rename_i stop hend
          obtain ⟨rfl, rfl⟩ := Prod.mk.inj (Except.ok.inj h)
          have hbody := (Cursor.reaches_skip _ _).trans (reaches_stringEnd hend)
          exact hword nofun ((start.reaches_skip _).trans hbody)
        · cases h
      · split at h
        · obtain ⟨-, -, h⟩ := Except.bind_eq_ok.1 h
          obtain ⟨rfl, rfl⟩ := Prod.mk.inj (Except.ok.inj h)
          exact hword nofun (start.reaches_skipWhile _)
        · split at h
          · obtain ⟨stop, hstop, h⟩ := Except.bind_eq_ok.1 h
            obtain ⟨rfl, rfl⟩ := Prod.mk.inj (Except.ok.inj h)
            exact hword nofun (reaches_numberEnd hstop)
          · split at h
            · obtain ⟨stop, hstop, h⟩ := Except.bind_eq_ok.1 h
              obtain ⟨rfl, rfl⟩ := Prod.mk.inj (Except.ok.inj h)
              exact hword nofun (start.reaches_next.trans (reaches_fractionTail hstop))
            · generalize (if longOperators.contains (start.rest.take 3) then 3
                else if pairOperators.contains (start.rest.take 2) then 2 else 1) = width at h
              split at h
              all_goals
                obtain ⟨brackets, -, h⟩ := Except.bind_eq_ok.1 h
                obtain ⟨rfl, rfl⟩ := Prod.mk.inj (Except.ok.inj h)
                exact hword nofun (start.reaches_skip _)

/-- A run of the reader finds more tokens behind those that are found before. -/
theorem exists_finds_lexFrom {start : Cursor} {found : Array Token}
    (h : Finds start s.cursor found.toList) (fuel : Nat) :
    ∃ stop, Finds start stop (lexFrom s found fuel).1.toList := by
  induction fuel generalizing s found with
  | zero => exact ⟨s.cursor, h⟩
  | succ fuel ih =>
    unfold lexFrom
    split
    · rename_i tokens s' hstep
      exact ih (by simpa using h.append (finds_lexStep hstep))
    · refine ⟨s.cursor, ?_⟩
      have hdedents : Finds s.cursor s.cursor
          (List.replicate s.indents.length (s.mark .dedent s.cursor)) :=
        s.finds_marks s.cursor s.indents.length (by decide)
      have hending : Finds s.cursor s.cursor [s.mark .ending s.cursor] :=
        s.finds_mark s.cursor (by decide)
      simpa using (h.append hdedents).append hending
    · exact ⟨s.cursor, h⟩

/-- The tokens of a text are found from its start on. -/
theorem exists_finds_lexText (start : Cursor) (lines : Array String) :
    ∃ stop, Finds start stop (lexText start lines).tokens.toList := by
  let s : LexState := ⟨start, lines, [], [], true, start.line⟩
  have hnil : Finds start s.cursor (#[] : Array Token).toList := .nil (.refl start)
  exact exists_finds_lexFrom hnil (4 * start.rest.length + 8)

end Source

end Typeward
