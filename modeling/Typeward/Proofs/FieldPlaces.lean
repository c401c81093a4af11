import Mathlib.Order.Interval.Set.Basic
import Typeward.Proofs.TokenOrder

/-!
# The places of replacement fields

The fields of a formatted string are read as texts of their own, in round brackets and on a line
that ends behind them. Such a text stands in the place of what the string holds from the brace on:
an expression ends before a character of a single byte, which the closing bracket takes the place
of, and at least a quote follows. So a reader of the field stays inside of the string, and a word
that it finds starts at a character of the string.
-/

namespace Typeward.Source

open Cursor

/-- The text in which the expression of a field is read. -/
def fieldText (expression : List Char) : List Char := '(' :: expression ++ [')', '\n']

/-- A piece of a formatted string, with the fields in it, stands behind a cursor, and the text that
a field is read in stands in the place of the text of the string from the brace on. -/
inductive Piece.Behind (c : Cursor) : Piece → Prop
  | literal {points} : Behind c (.literal points)
  | broken {reason} : Behind c (.broken reason)
  | field {brace expression conversion spec} (hbrace : c.Reaches brace)
      (htext : Overlays (fieldText expression) brace.rest)
      (hspec : ∀ pieces, spec = some pieces → ∀ piece ∈ pieces, Behind c piece) :
      Behind c (.field brace expression conversion spec)

/-- A cursor in a string is reached from a first one, and what is left of the body is followed by a
quote. -/
structure LeftBefore (start c : Cursor) (left : Nat) : Prop where
  reached : start.Reaches c
  quoted : left = 0 ∨ left < c.rest.length

/-- Moving over characters takes them from what is left. -/
theorem LeftBefore.skip {start c : Cursor} {left : Nat} (h : LeftBefore start c left) (n : Nat) :
    LeftBefore start (c.skip n) (left - n) := by
  refine ⟨h.reached.trans (c.reaches_skip n), ?_⟩
  have hquoted := h.quoted
  rw [rest_skip, List.length_drop]
  omega

/-- The expression of a field ends before a character of the text that takes a single byte and is
no line feed. -/
def EndsField (count size : Nat) (cs : List Char) : Prop :=
  ∃ k closer, size = count + k ∧ cs[k]? = some closer ∧ closer.utf8Size = 1 ∧ closer ≠ '\n'

/-- An expression that ends behind a character. -/
theorem EndsField.cons {count size : Nat} {cs : List Char} (h : EndsField (count + 1) size cs)
    (c : Char) : EndsField count size (c :: cs) := by
  obtain ⟨k, closer, rfl, hk, hcloser⟩ := h
  exact ⟨k + 1, closer, by omega, hk, hcloser⟩

/-- An expression that ends here. -/
theorem EndsField.here {c : Char} (hc : ['!', ':', '\x7d', '=', '<', '>'].contains c = true)
    (count : Nat) (cs : List Char) : EndsField count count (c :: cs) := by
  have hall : ∀ c ∈ ['!', ':', '\x7d', '=', '<', '>'], c.utf8Size = 1 ∧ c ≠ '\n' := by
    simp [Char.utf8Size]
  exact ⟨0, c, rfl, rfl, hall c (by simpa using hc)⟩

/-- The expression of a field ends where its length says. -/
theorem endsField_of_fieldLength {s : FieldScan} {count size : Nat} {cs : List Char}
    (h : fieldLength s count cs = .ok size) : EndsField count size cs := by
  fun_induction fieldLength s count cs <;> grind only [EndsField.cons, EndsField.here]

/-- Behind the same characters a text stands in the place of another one if what follows does. -/
theorem overlays_append (cs : List Char) {xs ds : List Char} (h : Overlays xs ds) (hds : ds ≠ []) :
    Overlays (cs ++ xs) (cs ++ ds) := by
  induction cs with
  | nil => exact h
  | cons c cs ih => exact .same (fun _ => List.append_ne_nil_of_right_ne_nil cs hds) ih

/-- The text of a field stands in the place of the text from the brace on, if one more character
follows the one before which the expression ends. -/
theorem overlays_fieldText {size : Nat} {cs : List Char} (hend : EndsField 0 size cs)
    (h : size + 2 ≤ cs.length) : Overlays (fieldText (cs.take size)) ('\x7b' :: cs) := by
  obtain ⟨k, closer, rfl, hcloser, hsize, hline⟩ := hend
  rw [Nat.zero_add] at h ⊢
  obtain ⟨hk, hcloser⟩ := List.getElem?_eq_some_iff.1 hcloser
  have hdrop : cs.drop k = closer :: cs.drop (k + 1) := by
    rw [List.drop_eq_getElem_cons hk, hcloser]
  obtain ⟨quote, more, hmore⟩ : ∃ quote more, cs.drop (k + 1) = quote :: more :=
    List.exists_cons_of_length_pos (by rw [List.length_drop]; omega)
  have hends : Overlays [')', '\n'] (cs.drop k) := by
    rw [hdrop, hmore]
    exact .mark rfl hsize (by decide) hline (fun _ => List.cons_ne_nil _ _) .last
  have hall := overlays_append (cs.take k) hends (hdrop ▸ List.cons_ne_nil _ _)
  rw [List.take_append_drop] at hall
  refine .mark rfl rfl (by decide) (by decide) (fun _ hnil => ?_) hall
  rw [hnil] at hk
  exact absurd hk (Nat.not_lt_zero k)

/-- The field behind a brace in a string stands behind the start of its body. -/
theorem LeftBefore.behind_field {start brace : Cursor} {left size : Nat}
    (h : LeftBefore start brace left) (hbrace : brace.sees (· == '\x7b') = true)
    (hsize : fieldLength {} 0 (brace.next.rest.take (left - 1)) = .ok size)
    {conversion : Option Char} {spec : Option (List Piece)}
    (hspec : ∀ pieces, spec = some pieces → ∀ piece ∈ pieces, piece.Behind start) :
    (Piece.field brace (brace.next.rest.take size) conversion spec).Behind start := by
  refine .field h.reached ?_ hspec
  obtain ⟨rest, hrest⟩ : ∃ rest, brace.rest = '\x7b' :: rest := by
    cases hrest : brace.rest with
    | nil => simp [sees, peek, hrest] at hbrace
    | cons ch rest =>
      obtain rfl : ch = '\x7b' := by simpa [sees, peek, hrest] using hbrace
      exact ⟨rest, rfl⟩
  have hquoted := h.quoted
  have hnext : brace.next.rest = rest := by rw [rest_next, hrest, List.tail_cons]
  rw [hrest, List.length_cons] at hquoted
  rw [hnext] at hsize ⊢
  rw [hrest]
  obtain ⟨k, closer, rfl, hcloser, hclose⟩ := endsField_of_fieldLength hsize
  obtain ⟨hk, -⟩ := List.getElem?_eq_some_iff.1 hcloser
  rw [List.length_take] at hk
  rw [List.getElem?_take] at hcloser
  split at hcloser
  · exact overlays_fieldText ⟨k, closer, rfl, hcloser, hclose⟩ (by omega)
  · cases hcloser

/-- What a formatted string is taken apart into stands behind the start of its body. -/
structure Scanned (start : Cursor) (result : List Piece × Cursor × Nat) : Prop where
  pieces : ∀ piece ∈ result.1, piece.Behind start
  left : LeftBefore start result.2.1 result.2.2

/-- Whatever is found before the scan goes on is found with what the scan finds. -/
theorem Scanned.append {start : Cursor} {before : List Piece} {result : List Piece × Cursor × Nat}
    (h : Scanned start result) (hbefore : ∀ piece ∈ before, piece.Behind start) :
    Scanned start (before ++ result.1, result.2) :=
  ⟨List.forall_mem_append.2 ⟨hbefore, h.pieces⟩, h.left⟩

/-- What is taken apart by cases is taken apart in each of them. -/
theorem Scanned.ite {start : Cursor} {condition : Prop} [Decidable condition]
    {result result' : List Piece × Cursor × Nat} (h : condition → Scanned start result)
    (h' : ¬ condition → Scanned start result') :
    Scanned start (if condition then result else result') := by
  split
  · exact h ‹_›
  · exact h' ‹_›

/-- The pieces of a format specification, if there is one, and what is left behind it. -/
def specificationPieces (isRaw : Bool) (level : Nat) (specified : Bool) (stop : Cursor)
    (room fuel : Nat) : Option (List Piece) × Cursor × Nat :=
  if specified then
    match scanPieces isRaw (level + 1) stop.next (room - 1) fuel with
    | (pieces, stop, room) => (some pieces, stop, room)
  else (none, stop, room)

/-- What is read of a format specification stands behind the start of the body: its pieces, if it is
there, and where it ends. -/
structure Specified (start : Cursor) (result : Option (List Piece) × Cursor × Nat) : Prop where
  pieces : ∀ pieces, result.1 = some pieces → ∀ piece ∈ pieces, piece.Behind start
  left : LeftBefore start result.2.1 result.2.2

/-- A format specification is read behind the start of the body if what is nested is. -/
theorem specified_specificationPieces {isRaw specified : Bool} {level room fuel : Nat}
    {start stop : Cursor} (hleft : LeftBefore start stop room)
    (hnested : ∀ {c : Cursor} {left : Nat}, LeftBefore start c left →
      Scanned start (scanPieces isRaw (level + 1) c left fuel)) :
    Specified start (specificationPieces isRaw level specified stop room fuel) := by
  unfold specificationPieces
  split
  · have hinner := hnested (hleft.skip 1)
    refine ⟨fun pieces hpieces => ?_, hinner.left⟩
    rw [← Option.some.inj hpieces]
    exact hinner.pieces
  · exact ⟨by simp, hleft⟩

/-- A formatted string is taken apart into pieces behind the start of its body. -/
theorem scanned_scanPieces {isRaw : Bool} {level : Nat} {start c : Cursor} {left fuel : Nat}
    (hleft : LeftBefore start c left) : Scanned start (scanPieces isRaw level c left fuel) := by
  induction fuel generalizing level c left with
  | zero => exact ⟨List.forall_mem_nil _, hleft⟩
  | succ fuel ih =>
    have hliteral {condition : Prop} [Decidable condition] {points : List Nat} :
        ∀ piece ∈ if condition then [] else [Piece.literal points], piece.Behind start := by
      split
      · exact List.forall_mem_nil _
      · exact List.forall_mem_singleton.2 .literal
    unfold scanPieces
    extract_lets broken
    have hbroken {before : List Piece} (reason : String)
        (hbefore : ∀ piece ∈ before, piece.Behind start) : Scanned start (broken before reason) :=
      ⟨List.forall_mem_append.2 ⟨hbefore, List.forall_mem_singleton.2 .broken⟩, hleft⟩
    clear_value broken
    split
    · exact hbroken _ (List.forall_mem_nil _)
    rename_i count doubled _
    split
    · exact hbroken _ (List.forall_mem_nil _)
    rename_i points _
    extract_lets count' piece used c' left' inner
    have hpiece : ∀ p ∈ piece, p.Behind start := hliteral
    have hleft' : LeftBefore start c' left' := hleft.skip used
    have hinner : inner = c'.next := rfl
    clear_value piece c' left' inner
    subst hinner
    refine .ite (fun _ => (ih hleft').append hpiece) fun _ => ?_
    refine .ite (fun _ => ⟨hpiece, hleft'⟩) fun _ => ?_
    refine .ite (fun _ => (ih hleft').append hpiece) fun hbrace => ?_
    refine .ite (fun _ => hbroken _ hpiece) fun _ => ?_
    split
    · exact hbroken _ hpiece
    rename_i size hsize
    have hfield (conversion : Option Char) {spec : Option (List Piece)}
        (hspec : ∀ pieces, spec = some pieces → ∀ p ∈ pieces, p.Behind start) :
        ∀ p ∈ [Piece.field c' (c'.next.rest.take size) conversion spec], p.Behind start :=
      List.forall_mem_singleton.2 (hleft'.behind_field (by simpa using hbrace) hsize hspec)
    extract_lets expression stop₁ room₁ equals blanks shown text before stop₂ room₂ converted
      conversion stop₃ room₃ specified
    have hbefore : ∀ p ∈ before, p.Behind start := by
      refine List.forall_mem_append.2 ⟨hpiece, ?_⟩
      unfold text
      split
      · exact List.forall_mem_singleton.2 .literal
      · exact List.forall_mem_nil _
    have hleft₂ : LeftBefore start stop₂ room₂ := by
      have h := ((hleft'.skip 1).skip size).skip (equals + blanks)
      rwa [← Nat.sub_sub] at h
    have hleft₃ : LeftBefore start stop₃ room₃ := by
      unfold stop₃ room₃
      split
      · exact hleft₂.skip 2
      · exact hleft₂
    clear_value before stop₃ room₃ specified
    refine .ite (fun _ => hbroken _ hpiece) fun _ => ?_
    refine .ite (fun _ => ?_) fun _ => ?_
    · exact hbroken _ (List.forall_mem_append.2 ⟨hbefore, hfield none (by simp)⟩)
    have hspecified : Specified start
        (specificationPieces isRaw level specified stop₃ room₃ fuel) :=
      specified_specificationPieces hleft₃ ih
    obtain ⟨⟨spec, stop₄, room₄⟩, heq⟩ : ∃ result,
        specificationPieces isRaw level specified stop₃ room₃ fuel = result := ⟨_, rfl⟩
    rw [heq] at hspecified
    obtain ⟨hspec, hleft₄⟩ := hspecified
    unfold specificationPieces at heq
    rw [heq]
    dsimp -zeta only
    extract_lets shownConversion field
    have hall : ∀ p ∈ before ++ [field], p.Behind start :=
      List.forall_mem_append.2 ⟨hbefore, hfield shownConversion hspec⟩
    refine .ite (fun _ => ⟨hall, hleft₄⟩) fun _ => ?_
    refine .ite (fun _ => hbroken _ hall) fun _ => ?_
    have hmore := (@ih level _ _ (hleft₄.skip 1)).append hall
    rw [List.append_assoc, List.singleton_append] at hmore
    exact hmore

/-- The pieces of a formatted string token stand behind its start. -/
theorem behind_formattedPieces (token : Token) :
    ∀ piece ∈ formattedPieces (stringParts token), piece.Behind (stringParts token).start := by
  have hleft : LeftBefore (stringParts token).start (stringParts token).body
      (stringParts token).length := by
    unfold stringParts
    extract_lets start marks lower opening quote size
    refine ⟨(start.reaches_skip _).trans (opening.reaches_skip size), ?_⟩
    have hsize : 0 < size := by
      unfold size
      split <;> decide
    simp only [rest_skip, List.length_drop]
    omega
  exact (scanned_scanPieces hleft).pieces

/-- A reader of a field in a string token stays between the start and the end of the token. -/
theorem Token.Within.field {token : Token} {a b : Pos} {brace c : Cursor} {expression : List Char}
    (h : token.Within a b) (hbrace : (stringParts token).start.Reaches brace)
    (htext : Overlays (fieldText expression) brace.rest)
    (hc : ({ brace with rest := fieldText expression } : Cursor).Reaches c) :
    token.pos ≤ brace.pos ∧ c.pos ≤ token.stop := by
  refine ⟨hbrace.pos_le, ?_⟩
  obtain ⟨k, rfl⟩ := hc
  have hpos : ({ brace with rest := fieldText expression } : Cursor).pos ≤ brace.pos := le_rfl
  refine (htext.pos_skip_le hpos k).trans ?_
  obtain ⟨n, rfl⟩ := hbrace
  rw [← skip_add]
  exact h.inside _

/-- A word in the fields of a string token starts at a place: a word of a field itself, or one in
the fields of a string in it. -/
inductive Token.Holds : Token → Pos → Prop
  | word {t brace text lines u} (hbrace : (stringParts t).start.Reaches brace)
      (htext : Overlays (fieldText text) brace.rest)
      (hu : u ∈ (lexText { brace with rest := fieldText text } lines).tokens) (hword : u.IsWord) :
      Holds t u.pos
  | inner {t brace text lines u pos} (hbrace : (stringParts t).start.Reaches brace)
      (htext : Overlays (fieldText text) brace.rest)
      (hu : u ∈ (lexText { brace with rest := fieldText text } lines).tokens) (hword : u.IsWord)
      (h : Holds u pos) : Holds t pos

/-- The places of the words in a text, those in the fields of strings included. -/
def Lexed.words (l : Lexed) : Set Pos :=
  {pos | ∃ t ∈ l.tokens, t.IsWord ∧ (t.pos = pos ∨ t.Holds pos)}

/-- A string token holds the words of its fields. -/
theorem Token.Holds.of_mem_words {t : Token} {brace : Cursor} {text : List Char}
    {lines : Array String} {pos : Pos} (hbrace : (stringParts t).start.Reaches brace)
    (htext : Overlays (fieldText text) brace.rest)
    (h : pos ∈ (lexText { brace with rest := fieldText text } lines).words) : t.Holds pos := by
  obtain ⟨u, hu, hword, rfl | hholds⟩ := h
  · exact .word hbrace htext hu hword
  · exact .inner hbrace htext hu hword hholds

/-- The words in the fields of a string token start between its start and its end. -/
theorem Token.Holds.mem_Icc {t : Token} {pos a b : Pos} (h : t.Holds pos) (ht : t.Within a b) :
    pos ∈ Set.Icc t.pos t.stop := by
  have hbetween {t : Token} {brace : Cursor} {text : List Char} {lines : Array String} {u : Token}
      {a b : Pos} (ht : t.Within a b) (hbrace : (stringParts t).start.Reaches brace)
      (htext : Overlays (fieldText text) brace.rest)
      (hu : u ∈ (lexText { brace with rest := fieldText text } lines).tokens) :
      u.Within t.pos t.stop := by
    obtain ⟨stop, hfinds⟩ := exists_finds_lexText { brace with rest := fieldText text } lines
    have hwithin := hfinds.row.within u (Array.mem_toList_iff.2 hu)
    obtain ⟨hstart, hstop⟩ := ht.field hbrace htext hfinds.reached
    exact { hwithin with start := hstart.trans hwithin.start, stop := hwithin.stop.trans hstop }
  induction h generalizing a b with
  | word hbrace htext hu hword =>
    have hwithin := hbetween ht hbrace htext hu
    exact ⟨hwithin.start, hwithin.width.trans hwithin.stop⟩
  | inner hbrace htext hu hword _ ih =>
    have hwithin := hbetween ht hbrace htext hu
    have hpos := ih hwithin
    exact ⟨hwithin.start.trans hpos.1, hpos.2.trans hwithin.stop⟩

/-- A reader of a field in a string token is where the reader of the whole text is. -/
theorem Token.StandsAt.exists_liesOn {t : Token} {c brace d : Cursor} {text : List Char}
    (ht : t.StandsAt c) (hbrace : (stringParts t).start.Reaches brace)
    (htext : Overlays (fieldText text) brace.rest)
    (hd : ({ brace with rest := fieldText text } : Cursor).Reaches d) (hat : d.AtCharacter) :
    ∃ c', c.Reaches c' ∧ d.LiesOn c' := by
  obtain ⟨m, rfl⟩ := hbrace
  obtain ⟨n, rfl⟩ := hd
  have hstart : ({ (stringParts t).start.skip m with rest := fieldText text } : Cursor).LiesOn
      ((stringParts t).start.skip m) := ⟨rfl, htext⟩
  have hfield := hstart.skip hat.rest_ne_nil
  have hleft := (hfield.atCharacter hat).rest_ne_nil
  rw [← skip_add] at hfield hleft
  exact ⟨_, c.reaches_skip _, hfield.trans (ht.lies.skip hleft)⟩

/-- The words in the fields of a string token start at characters behind the start of the token. -/
theorem Token.Holds.exists_cursor {t : Token} {pos : Pos} (h : t.Holds pos) {c : Cursor}
    (ht : t.StandsAt c) : ∃ c', c.Reaches c' ∧ c'.AtCharacter ∧ c'.pos = pos := by
  induction h generalizing c with
  | @word t brace text lines u hbrace htext hu hword =>
    obtain ⟨stop, hfinds⟩ := exists_finds_lexText { brace with rest := fieldText text } lines
    obtain ⟨d, hd, hat⟩ := hfinds.words u (Array.mem_toList_iff.2 hu) hword
    obtain ⟨c', hc', hlies⟩ := ht.exists_liesOn hbrace htext hd hat.visible
    exact ⟨c', hc', hlies.atCharacter hat.visible, (hat.lies.pos.trans hlies.pos).symm⟩
  | @inner t brace text lines u pos hbrace htext hu hword _ ih =>
    obtain ⟨stop, hfinds⟩ := exists_finds_lexText { brace with rest := fieldText text } lines
    obtain ⟨d, hd, hat⟩ := hfinds.words u (Array.mem_toList_iff.2 hu) hword
    obtain ⟨d', hd', hvisible, hpos⟩ := ih hat
    obtain ⟨c', hc', hlies⟩ := ht.exists_liesOn hbrace htext (hd.trans hd') hvisible
    exact ⟨c', hc', hlies.atCharacter hvisible, hlies.pos.symm.trans hpos⟩

/-- The words in a text start at characters of the text. -/
theorem exists_cursor_of_mem_words {start : Cursor} {lines : Array String} {pos : Pos}
    (h : pos ∈ (lexText start lines).words) :
    ∃ c, start.Reaches c ∧ c.AtCharacter ∧ c.pos = pos := by
  obtain ⟨t, ht, hword, hpos⟩ := h
  obtain ⟨stop, hfinds⟩ := exists_finds_lexText start lines
  obtain ⟨c, hc, hat⟩ := hfinds.words t (Array.mem_toList_iff.2 ht) hword
  rcases hpos with rfl | hholds
  · exact ⟨c, hc, hat.visible, hat.lies.pos.symm⟩
  · obtain ⟨c', hc', hvisible, hpos⟩ := hholds.exists_cursor hat
    exact ⟨c', hc.trans hc', hvisible, hpos⟩

end Typeward.Source
