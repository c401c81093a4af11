import Mathlib.Algebra.GroupWithZero.Nat
import Mathlib.Data.List.TakeWhile
import Typeward.Proofs.CleanFailures

/-!
# Excerpts of source

A fault that leaves the compiler shows the line of source that it points into, with a caret under
its place. The place is the start of a node, which is a word of the text, so a character of a line
stands there. Two readings of a text meet. The reader of modules ends a line at a line feed or a
carriage return and counts columns in bytes. The excerpt is taken from the text split at every line
boundary of the Unicode standard, and the caret is set behind as many blanks as the column says. So
the excerpt is the line that the fault lies on, up to the first separator of another kind, if there
is no such separator above it. The caret stands under the start of the node just when nothing but
ASCII stands before it on the line.
-/

namespace Typeward

namespace Text

/-- Whether a character ends a line of an excerpt, but no line of a module. -/
def isSeparator (c : Char) : Bool := isLineBoundary c && c != '\n' && c != '\r'

/-- The part of a line before its first separator. -/
def beforeSeparator (line : List Char) : List Char := line.takeWhile (! isSeparator ·)

/-- A line has no separators in it. -/
def Unbroken (line : List Char) : Prop := ∀ c ∈ line, isSeparator c = false

/-- The line boundaries in a text are all separators. -/
structure OneLine (text : List Char) : Prop where
  feed : '\n' ∉ text
  carriage : '\r' ∉ text

variable {line body rest : List Char}

/-- What follows the first character of a line is in one line. -/
theorem OneLine.tail {c : Char} (h : OneLine (c :: body)) : OneLine body :=
  ⟨fun hc => h.feed (.tail _ hc), fun hc => h.carriage (.tail _ hc)⟩

/-- In a line, the line boundaries are the separators. -/
theorem OneLine.isLineBoundary_eq {c : Char} (h : OneLine body) (hc : c ∈ body) :
    isLineBoundary c = isSeparator c := by
  have hfeed : c ≠ '\n' := fun heq => h.feed (heq ▸ hc)
  have hcarriage : c ≠ '\r' := fun heq => h.carriage (heq ▸ hc)
  cases hboundary : isLineBoundary c <;> simp [isSeparator, hboundary, hfeed, hcarriage]

/-- A line feed ends a line. -/
theorem isLineBoundary_feed : isLineBoundary '\n' = true := by decide

/-- Unified newlines bring the same lines. -/
theorem splitLinesFrom_unifyNewlines (held text : List Char) :
    splitLinesFrom held (unifyNewlines text) = splitLinesFrom held text := by
  have hcarriage : isLineBoundary '\r' = true := by decide
  fun_induction unifyNewlines text generalizing held with
  | case1 => rfl
  | case2 rest ih => simp [splitLinesFrom, isLineBoundary_feed, ih]
  | case3 c rest hne ih =>
    by_cases hc : c = '\r'
    · subst hc
      have hrest : ∀ rest', rest ≠ '\n' :: rest' := fun rest' h => hne rest' rfl h
      rw [splitLinesFrom.eq_3 _ _ _ (fun rest' _ h => hrest rest' h)]
      simp [splitLinesFrom, isLineBoundary_feed, hcarriage, ih]
    · simp [splitLinesFrom, hc, ih]

/-- No carriage return is left when newlines are unified. -/
theorem carriage_notMem_unifyNewlines (text : List Char) : '\r' ∉ unifyNewlines text := by
  fun_induction unifyNewlines text with
  | case1 => exact List.not_mem_nil
  | case2 rest ih => simpa using ih
  | case3 c rest hne ih =>
    by_cases hc : c = '\r'
    · simpa [hc] using ih
    · simpa [hc, Ne.symm hc] using ih

/-- A character of a line is held until the line ends, or ends it. -/
theorem splitLinesFrom_cons {c : Char} (hc : c ≠ '\r') (held rest : List Char) :
    splitLinesFrom held (c :: rest) =
      if isLineBoundary c then held.reverse :: splitLinesFrom [] rest
      else splitLinesFrom (c :: held) rest := by
  rw [splitLinesFrom.eq_3 _ _ _ fun _ h => absurd h hc]

/-- A line without separators is split off as a whole. -/
theorem splitLinesFrom_unbroken (hbody : OneLine body) (h : Unbroken body) (held : List Char) :
    splitLinesFrom held (body ++ '\n' :: rest) =
      (held.reverse ++ body) :: splitLinesFrom [] rest := by
  induction body generalizing held with
  | nil => simp [splitLinesFrom, isLineBoundary_feed]
  | cons c cs ih =>
    have hplain : isLineBoundary c = false :=
      (hbody.isLineBoundary_eq List.mem_cons_self).trans (h c List.mem_cons_self)
    have hc : c ≠ '\r' := fun heq => hbody.carriage (heq ▸ List.mem_cons_self)
    rw [List.cons_append, splitLinesFrom_cons hc, hplain, if_neg Bool.false_ne_true,
      ih hbody.tail fun d hd => h d (.tail _ hd), List.reverse_cons, List.append_assoc,
      List.singleton_append]

/-- Lines without separators are split off one by one. -/
theorem splitLinesFrom_flatMap {lines : List (List Char)}
    (h : ∀ line ∈ lines, OneLine line ∧ Unbroken line) (rest : List Char) :
    splitLinesFrom [] (lines.flatMap (· ++ ['\n']) ++ rest) = lines ++ splitLinesFrom [] rest := by
  induction lines with
  | nil => rfl
  | cons line lines ih =>
    obtain ⟨hline, hunbroken⟩ := h line List.mem_cons_self
    rw [List.flatMap_cons, List.append_assoc, List.append_assoc, List.singleton_append,
      splitLinesFrom_unbroken hline hunbroken, ih fun l hl => h l (.tail _ hl)]
    rfl

/-- The first line of a text that starts with a line feed, or is empty, behind what is held. -/
def Ends (held rest : List Char) : Prop := (rest = [] ∧ held ≠ []) ∨ ∃ more, rest = '\n' :: more

/-- The first line that is split off ends at the first separator, if a separator comes first. -/
theorem head?_splitLinesFrom (held : List Char) (hbody : OneLine body)
    (hends : Ends (held.reverse ++ body) rest) :
    (splitLinesFrom held (body ++ rest)).head? = some (held.reverse ++ beforeSeparator body) := by
  induction body generalizing held with
  | nil =>
    rcases hends with ⟨rfl, hheld⟩ | ⟨more, rfl⟩
    · have hempty : held.isEmpty = false := by simpa using hheld
      simp [splitLinesFrom, beforeSeparator, hempty]
    · simp [splitLinesFrom, beforeSeparator, isLineBoundary_feed]
  | cons c cs ih =>
    have hboundary := hbody.isLineBoundary_eq List.mem_cons_self
    have hc : c ≠ '\r' := fun heq => hbody.carriage (heq ▸ List.mem_cons_self)
    rw [List.cons_append, splitLinesFrom_cons hc, hboundary]
    cases hseparator : isSeparator c with
    | true => simp [beforeSeparator, hseparator]
    | false =>
      have hrest := ih (c :: held) hbody.tail (by simpa [Ends] using hends)
      simpa [beforeSeparator, hseparator] using hrest

end Text

namespace Source

open Text

/-- The lines of a module as its reader counts them, without their ends. -/
def readLines (source : String) : List String := (textLines (moduleText source)).toList

/-- What is held of a line is kept when line feeds are left out. -/
theorem filter_reverse_held {held : List Char} (h : '\n' ∉ held) :
    held.reverse.filter (· != '\n') = held.reverse := by
  refine List.filter_eq_self.2 fun c hc => ?_
  have hne : c ≠ '\n' := fun heq => h (heq ▸ List.mem_reverse.1 hc)
  simpa using hne

/-- A text whose last line is ended consists of its lines, each with a line feed. -/
theorem flatMap_feedLinesFrom (held : List Char) {text : List Char} (hheld : '\n' ∉ held)
    (htext : text.getLast? = some '\n' ∨ text = [] ∧ held = []) :
    (feedLinesFrom held text).flatMap (fun line => line.filter (· != '\n') ++ ['\n']) =
      held.reverse ++ text := by
  induction text generalizing held with
  | nil =>
    obtain ⟨-, rfl⟩ := htext.resolve_left nofun
    rfl
  | cons c cs ih =>
    have hlast : cs.getLast? = some '\n' ∨ cs = [] ∧ c = '\n' := by
      cases cs with
      | nil => simpa using htext
      | cons d ds => simpa using htext
    by_cases hc : c = '\n'
    · subst hc
      have hrest := ih [] List.not_mem_nil (hlast.imp_right fun h => ⟨h.1, rfl⟩)
      simp [feedLinesFrom, hrest, filter_reverse_held hheld]
    · have hrest := ih (c :: held) (by simp [hheld, Ne.symm hc])
        (hlast.imp_right fun h => absurd h.2 hc)
      simpa [feedLinesFrom, hc] using hrest

/-- A module is read with unified newlines, and with a line feed at its end, if it is not empty. -/
theorem moduleText_cases (source : String) :
    (moduleText source = unifyNewlines source.toList ∧
        ((moduleText source).getLast? = some '\n' ∨ moduleText source = [])) ∨
      moduleText source = unifyNewlines source.toList ++ ['\n'] ∧
        (unifyNewlines source.toList).getLast? ≠ some '\n' ∧
        unifyNewlines source.toList ≠ [] := by
  unfold moduleText
  dsimp only
  split
  · rename_i h
    exact .inl ⟨rfl, by simpa using h⟩
  · rename_i h
    exact .inr ⟨rfl, by simpa using h⟩

/-- A module consists of its lines, each with a line feed. -/
theorem flatMap_readLines (source : String) :
    (readLines source).flatMap (·.toList ++ ['\n']) = moduleText source := by
  have htext : (moduleText source).getLast? = some '\n' ∨ moduleText source = [] := by
    rcases moduleText_cases source with ⟨-, h⟩ | ⟨h, -⟩
    · exact h
    · exact .inl (by simp [h])
  have h := flatMap_feedLinesFrom [] List.not_mem_nil (htext.imp_right fun h => ⟨h, rfl⟩)
  simpa [readLines, textLines, feedLines, List.flatMap_map] using h

/-- The boundaries in a line of a module are separators. -/
theorem oneLine_of_mem_readLines {source line : String} (h : line ∈ readLines source) :
    OneLine line.toList := by
  refine ⟨?_, fun hc => ?_⟩
  · obtain ⟨l, -, rfl⟩ : ∃ l ∈ feedLines (moduleText source),
        String.ofList (l.filter (· != '\n')) = line := by simpa [readLines, textLines] using h
    simp
  · have hmem : '\r' ∈ moduleText source := by
      rw [← flatMap_readLines]
      exact List.mem_flatMap.2 ⟨line, h, List.mem_append_left _ hc⟩
    have hnone := carriage_notMem_unifyNewlines source.toList
    rcases moduleText_cases source with ⟨heq, -⟩ | ⟨heq, -⟩ <;> simp_all

/-- A line of a module stands behind those above it and ends at a line feed, or with the text. -/
theorem exists_around_line {source line : String} {n : Nat}
    (h : (readLines source)[n]? = some line) :
    ∃ rest, Ends line.toList rest ∧ unifyNewlines source.toList =
      ((readLines source).take n).flatMap (·.toList ++ ['\n']) ++ (line.toList ++ rest) := by
  obtain ⟨hn, hline⟩ := List.getElem?_eq_some_iff.1 h
  have hlines : moduleText source =
      ((readLines source).take n).flatMap (·.toList ++ ['\n']) ++ (line.toList ++
        '\n' :: ((readLines source).drop (n + 1)).flatMap (·.toList ++ ['\n'])) := by
    rw [← flatMap_readLines]
    conv_lhs =>
      rw [← List.take_append_drop n (readLines source), List.drop_eq_getElem_cons hn, hline]
    simp
  generalize ((readLines source).drop (n + 1)).flatMap (·.toList ++ ['\n']) = below at hlines
  generalize ((readLines source).take n) = above at hlines ⊢
  rcases moduleText_cases source with ⟨heq, -⟩ | ⟨heq, hlast, hne⟩
  · exact ⟨'\n' :: below, .inr ⟨below, rfl⟩, heq ▸ hlines⟩
  · rw [heq] at hlines
    rcases List.eq_nil_or_concat below with rfl | ⟨below, c, rfl⟩
    · -- The line feed is the one that is put behind the text, so the text ends with the line.
      have htext : unifyNewlines source.toList =
          above.flatMap (·.toList ++ ['\n']) ++ line.toList := by
        rw [← List.append_assoc] at hlines
        exact List.append_cancel_right hlines
      refine ⟨[], .inl ⟨rfl, fun hempty => ?_⟩, by simpa using htext⟩
      rw [hempty, List.append_nil] at htext
      rcases List.eq_nil_or_concat above with rfl | ⟨above, l, rfl⟩
      · exact hne htext
      · exact hlast (by simp [htext])
    · have hparts : unifyNewlines source.toList ++ ['\n'] =
          (above.flatMap (·.toList ++ ['\n']) ++ (line.toList ++ '\n' :: below)) ++ [c] := by
        simpa using hlines
      exact ⟨'\n' :: below, .inr ⟨below, rfl⟩, (List.append_inj' hparts rfl).1⟩

/-- Among the lines for excerpts, the one with the number of a line of the module is the part of it
before its first separator, if there are no separators above. -/
theorem getElem?_splitLines {source line : String} {n : Nat}
    (h : (readLines source)[n]? = some line)
    (habove : ∀ l ∈ (readLines source).take n, Unbroken l.toList) :
    (splitLines source)[n]? = some (String.ofList (beforeSeparator line.toList)) := by
  obtain ⟨rest, hends, htext⟩ := exists_around_line h
  have hlength : (((readLines source).take n).map String.toList).length = n := by
    have hn := (List.getElem?_eq_some_iff.1 h).1
    simp [Nat.min_eq_left hn.le]
  have hlines : ∀ l ∈ ((readLines source).take n).map String.toList, OneLine l ∧ Unbroken l := by
    intro l hl
    obtain ⟨shown, hshown, rfl⟩ := List.mem_map.1 hl
    exact ⟨oneLine_of_mem_readLines (List.mem_of_mem_take hshown), habove shown hshown⟩
  have hsplit : splitLinesFrom [] source.toList = ((readLines source).take n).map String.toList ++
      splitLinesFrom [] (line.toList ++ rest) := by
    rw [← splitLinesFrom_unifyNewlines, htext, ← splitLinesFrom_flatMap hlines, List.flatMap_map]
  have hhead := head?_splitLinesFrom [] (oneLine_of_mem_readLines (List.mem_of_getElem? h))
    (by simpa using hends)
  rw [splitLines, hsplit, List.getElem?_map, List.getElem?_append_right hlength.le, hlength,
    Nat.sub_self, ← List.head?_eq_getElem?, hhead]
  rfl

/-- The first line of a text starts with what is held of it. -/
theorem exists_feedLinesFrom (held text : List Char) (h : held ≠ []) :
    ∃ more lines, feedLinesFrom held text = (held.reverse ++ more) :: lines := by
  induction text generalizing held with
  | nil =>
    have hempty : held.isEmpty = false := by simpa using h
    exact ⟨[], [], by simp [feedLinesFrom, hempty]⟩
  | cons c cs ih =>
    by_cases hc : c = '\n'
    · exact ⟨[c], feedLinesFrom [] cs, by simp [feedLinesFrom, hc]⟩
    · obtain ⟨more, lines, hlines⟩ := ih (c :: held) (List.cons_ne_nil _ _)
      exact ⟨c :: more, lines, by simp [feedLinesFrom, hc, hlines]⟩

/-- A character that a cursor reaches, on a line of which the characters before the cursor are held,
stands in one of the lines from there on, behind as many bytes as its column says. -/
theorem exists_line_of_skip {c : Cursor} {held : List Char} (hheld : '\n' ∉ held)
    (hcolumn : (held.map Char.utf8Size).sum = c.column) {n : Nat} (hat : (c.skip n).AtCharacter) :
    ∃ m line k, (feedLinesFrom held c.rest)[m]? = some line ∧ (c.skip n).line = c.line + m ∧
      k < (line.filter (· != '\n')).length ∧
      (((line.filter (· != '\n')).take k).map Char.utf8Size).sum = (c.skip n).column := by
  induction n generalizing c held with
  | zero =>
    obtain ⟨ch, rest, hrest, hch⟩ := hat
    change c.rest = ch :: rest at hrest
    obtain ⟨more, lines, hlines⟩ := exists_feedLinesFrom (ch :: held) rest (List.cons_ne_nil _ _)
    have hline : ((ch :: held).reverse ++ more).filter (· != '\n') =
        held.reverse ++ ch :: more.filter (· != '\n') := by
      simp [List.filter_append, filter_reverse_held hheld, hch]
    refine ⟨0, (ch :: held).reverse ++ more, held.length, ?_, rfl, ?_, ?_⟩
    · simp [hrest, feedLinesFrom, hch, hlines]
    · rw [hline]
      simp
    · rw [hline, ← List.length_reverse, List.take_left, List.map_reverse, List.sum_reverse]
      exact hcolumn
  | succ n ih =>
    cases hrest : c.rest with
    | nil =>
      rw [Cursor.skip_of_nil hrest] at hat
      exact absurd hrest hat.rest_ne_nil
    | cons ch rest =>
      have hnext := Cursor.pos_next hrest
      have hbehind : c.next.rest = rest := by rw [Cursor.rest_next, hrest, List.tail_cons]
      by_cases hch : ch = '\n'
      · subst hch
        have hmore : rest ≠ [] := by
          rintro rfl
          rw [Cursor.skip, Cursor.skip_of_nil hbehind] at hat
          exact hat.rest_ne_nil hbehind
        rw [if_pos ⟨rfl, hmore⟩] at hnext
        have hlineNext : c.next.line = c.line + 1 := congrArg Pos.line hnext
        have hcolumnNext : c.next.column = 0 := congrArg Pos.column hnext
        have hnone : '\n' ∉ ([] : List Char) := List.not_mem_nil
        obtain ⟨m, line, k, hm, hline, hk⟩ := ih hnone hcolumnNext.symm hat
        refine ⟨m + 1, line, k, ?_, ?_, hk⟩
        · rw [hbehind] at hm
          simpa [feedLinesFrom] using hm
        · rw [Cursor.skip, hline, hlineNext]
          omega
      · rw [if_neg fun h => hch h.1] at hnext
        have hlineNext : c.next.line = c.line := congrArg Pos.line hnext
        have hcolumnNext : c.next.column = c.column + ch.utf8Size := congrArg Pos.column hnext
        have hsum : ((ch :: held).map Char.utf8Size).sum = c.next.column := by
          rw [hcolumnNext, ← hcolumn, List.map_cons, List.sum_cons, Nat.add_comm]
        obtain ⟨m, line, k, hm, hline, hk⟩ := ih (by simp [hheld, Ne.symm hch]) hsum hat
        refine ⟨m, line, k, ?_, by rw [Cursor.skip, hline, hlineNext], hk⟩
        rw [hbehind] at hm
        simpa [feedLinesFrom, hch] using hm

/-- Characters come to as many bytes as they are just when they are all ASCII. -/
theorem sum_utf8Size_eq_length {cs : List Char} :
    (cs.map Char.utf8Size).sum = cs.length ↔ ∀ c ∈ cs, c.toNat < 128 := by
  have hsize (c : Char) : c.utf8Size = 1 ↔ c.toNat < 128 := by
    rw [Char.utf8Size_eq_one_iff]
    exact Nat.lt_succ_iff.symm
  have hle (cs : List Char) : cs.length ≤ (cs.map Char.utf8Size).sum := by
    induction cs with
    | nil => exact le_rfl
    | cons c cs ih =>
      have hpos := c.utf8Size_pos
      simp only [List.length_cons, List.map_cons, List.sum_cons]
      omega
  induction cs with
  | nil => simp
  | cons c cs ih =>
    have hpos := c.utf8Size_pos
    have hrest := hle cs
    rw [List.forall_mem_cons, List.map_cons, List.sum_cons, List.length_cons, ← hsize]
    constructor
    · exact fun h => ⟨by omega, ih.1 (by omega)⟩
    · rintro ⟨hc, hcs⟩
      have := ih.2 hcs
      omega

end Source

/-- A place is where a character of the text stands: on a line, with characters before it that come
to as many bytes as the column says. -/
structure Pos.IsAt (pos : Pos) (source line : String) (k : Nat) : Prop where
  counted : 0 < pos.line
  read : (Source.readLines source)[pos.line - 1]? = some line
  inside : k < line.length
  column : ((line.toList.take k).map Char.utf8Size).sum = pos.column

namespace Source

open Text

/-- A word of a module starts at a character of a line of it. -/
theorem exists_isAt_of_mem_wordPlaces {source : String} {pos : Pos} (h : pos ∈ wordPlaces source) :
    ∃ line k, pos.IsAt source line k := by
  obtain ⟨c, ⟨n, rfl⟩, hat, rfl⟩ := exists_cursor_of_mem_words h
  have hnone : '\n' ∉ ([] : List Char) := List.not_mem_nil
  obtain ⟨m, line, k, hm, hline, hk, hcolumn⟩ := exists_line_of_skip hnone rfl hat
  refine ⟨String.ofList (line.filter (· != '\n')), k, ?_, ?_, ?_, ?_⟩
  · rw [Cursor.pos, hline]
    exact Nat.lt_of_lt_of_le Nat.zero_lt_one (Nat.le_add_right 1 m)
  · have hindex : (1 + m) - 1 = m := Nat.add_sub_cancel_left 1 m
    rw [Cursor.pos, hline, hindex]
    have hlines : (feedLines (moduleText source))[m]? = some line := hm
    simp [readLines, textLines, hlines]
  · rwa [← String.length_toList, String.toList_ofList]
  · rw [String.toList_ofList]
    exact hcolumn

/-- Every node of a module that is read from a text starts at a character of a line of the text. -/
theorem exists_isAt_of_starts {source : String} {m : Module} {pos : Pos}
    (hread : parseModule source = .ok m) (h : m.Starts pos) : ∃ line k, pos.IsAt source line k := by
  have hplaced := allPlaced_of_parseModule hread
  refine exists_isAt_of_mem_wordPlaces ?_
  rcases h with ⟨t, ht, rfl⟩ | ⟨n, ⟨t, ht, e, he, hn⟩, rfl⟩
  · exact (hplaced t ht).place
  · exact (hn.everywhere ((hplaced t ht).expressions e he)).here.place

end Source

/-- The column of a place counts the characters before it just when these are all ASCII. -/
theorem Pos.IsAt.column_eq_iff {pos : Pos} {source line : String} {k : Nat}
    (h : pos.IsAt source line k) : pos.column = k ↔ ∀ c ∈ line.toList.take k, c.toNat < 128 := by
  have hlength : (line.toList.take k).length = k := by
    have hinside := h.inside
    rw [List.length_take, String.length_toList]
    omega
  rw [← Source.sum_utf8Size_eq_length, h.column, hlength]

namespace Fault

/-- The message of a fault ends in an excerpt, with a caret under one of its characters, or under
where it would be. -/
def PointsUnder (f : Fault) (excerpt : String) (k : Nat) : Prop :=
  f.message = f.headline ++ "\n    " ++ excerpt ++ "\n" ++
    String.ofList (List.replicate (4 + k) ' ' ++ ['^'])

variable {f : Fault} {file : String} {pos : Pos} {lines : List String} {excerpt : String}

/-- Adding the line of source leaves the place as it is. -/
theorem location_withSource (f : Fault) (lines : List String) :
    (f.withSource lines).location = f.location := by
  unfold withSource
  repeat' split
  all_goals rfl

/-- The line that is added has the number of the place. -/
theorem sourceLine_withSource (hplace : f.location = some (locationOf file pos))
    (hbare : f.sourceLine = none) (hcounted : 0 < pos.line) :
    (f.withSource lines).sourceLine = lines[pos.line - 1]?.map Text.trimEnd := by
  have hline : (1 : Int) ≤ pos.line := by omega
  have hindex : ((pos.line : Int) - 1).toNat = pos.line - 1 := by omega
  unfold withSource
  simp only [hplace, hbare, locationOf, hline, if_true, hindex]
  cases lines[pos.line - 1]? with
  | none => exact hbare
  | some line => rfl

/-- The caret stands behind as many characters of the excerpt as the column counts bytes. -/
theorem pointsUnder_iff (hplace : f.location = some (locationOf file pos))
    (hline : f.sourceLine = some excerpt) (hne : excerpt ≠ "") {k : Nat} :
    f.PointsUnder excerpt k ↔ pos.column = k := by
  have hcaret : caretLine (pos.column + 1) =
      String.ofList (List.replicate (4 + pos.column) ' ' ++ ['^']) := by
    have hblanks : ((4 : Int) + (pos.column + 1) - 1).toNat = 4 + pos.column := by omega
    rw [caretLine, hblanks]
  have hmessage : f.message = f.headline ++ "\n    " ++ excerpt ++ "\n" ++
      String.ofList (List.replicate (4 + pos.column) ' ' ++ ['^']) := by
    simp only [message, hplace, hline, String.isEmpty_iff, hne, if_false, ← hcaret, locationOf]
  rw [PointsUnder, hmessage]
  constructor
  · intro h
    have hsame := String.ofList_injective ((String.append_right_inj _).1 h)
    simpa using congrArg List.length hsame
  · rintro rfl
    rfl

end Fault

section Modules

open Source

variable {options : Options} {source file : String} {m : Module} {f shown : Fault}

/-- The fault of a hint does not know the line of source that it points into. -/
theorem HintContext.FaultsWith.sourceLine_eq {c : HintContext} {e : Expr} (h : c.FaultsWith e f) :
    f.sourceLine = none := by
  cases h with
  | unread h => exact (locates_of_denote_eq_error h).2.2
  | refused h hrefuses =>
    obtain ⟨u, -, hrefuses⟩ := hrefuses
    exact hrefuses.sourceLine_eq

/-- The fault that a module is refused with does not know the line of source that it points into. -/
theorem Refused.sourceLine_eq (hread : readModule source file = .ok m)
    (h : Refused options source file f) : f.sourceLine = none := by
  cases h with
  | lowering h =>
    rw [lower_of_readModule hread] at h
    rcases Except.bind_eq_error.1 h with h | ⟨found, -, h⟩
    · cases hcomments : comments source <;> simp [hcomments, Except.mapError] at h
    · cases loweringFailure_of_lowerTree h with
      | hint hasks h => exact (HintContext.FaultsWith.unread h).sourceLine_eq
      | call he hcall => rfl
  | @planning lowered runtime r hlower hallocate h =>
    have hknows := Registry.KnowsTypes.allocate (.ofModule _ _) hallocate
    obtain ⟨i, d, -, hfault⟩ := planFault_of_plan hknows h
    cases hfault with
    | nested _ h => rw [h]
    | duplicate _ h => rw [h]
    | type _ _ _ hbuild =>
      obtain ⟨u, -, hrefuses⟩ := refusesIn_of_build hbuild
      exact hrefuses.sourceLine_eq

/-- The fault with which a module does not compile that is read from its text points at the start of
a node of the module, which is a character of a line. If no separators stand in the lines above it,
then the excerpt is that line up to its first separator, without the blanks at its end. The caret
stands under the character just when nothing but ASCII stands before it. -/
theorem excerpt_of_fault (hread : parseModule source = .ok m)
    (h : compile options source file = .error (.fault shown)) :
    ∃ pos, m.Starts pos ∧ shown.location = some (locationOf file pos) ∧
      (∃ line k, pos.IsAt source line k) ∧ ∀ line k, pos.IsAt source line k →
        ((∀ l ∈ (readLines source).take (pos.line - 1), Text.Unbroken l.toList) →
          shown.sourceLine =
            some (Text.trimEnd (String.ofList (Text.beforeSeparator line.toList)))) ∧
        ∀ excerpt, shown.sourceLine = some excerpt → excerpt ≠ "" →
          (shown.PointsUnder excerpt k ↔ ∀ c ∈ line.toList.take k, c.toNat < 128) := by
  have hmodule : readModule source file = .ok m := by
    rw [readModule, hread]
    rfl
  rcases compile_eq_error hread h with ⟨f, hrefused, hshown⟩ | ⟨hne, -⟩ | ⟨f, hshown⟩ | ⟨hshown, -⟩
  · obtain rfl := Failure.fault.inj hshown
    obtain ⟨pos, hstarts, hplace⟩ := (hrefused.concerns hmodule).exists_place
    have hshownPlace := (f.location_withSource (Text.splitLines source)).trans hplace
    have hcharacter := exists_isAt_of_starts hread hstarts
    refine ⟨pos, hstarts, hshownPlace, hcharacter, fun line k hat => ⟨fun habove => ?_, ?_⟩⟩
    · rw [Fault.sourceLine_withSource hplace (hrefused.sourceLine_eq hmodule) hat.counted,
        getElem?_splitLines hat.read habove]
      rfl
    · intro excerpt hexcerpt hne
      rw [Fault.pointsUnder_iff hshownPlace hexcerpt hne]
      exact hat.column_eq_iff
  · exact absurd rfl (hne shown)
  · cases hshown
  · cases hshown

end Modules

/-- The text in which nothing has a name does not compile. -/
theorem compile_missing : ∃ near, compile {} missingText "m.py" =
    .error (.fault ⟨.unresolvedType "Node" near, some ⟨1, 10, some "m.py"⟩,
      some "def f(x: \"Node\"): pass"⟩) := by
  rw [compile, lower_missing]
  exact ⟨_, rfl⟩

/-- The text is a line, and the string in it starts at a character of this. -/
theorem isAt_missing : Pos.IsAt ⟨1, 9⟩ missingText "def f(x: \"Node\"): pass" 9 :=
  ⟨by decide, by decide +kernel, by decide +kernel, by decide +kernel⟩

/-- The fault shows the line, and the caret stands under the string. -/
theorem excerpt_of_fault_missing : ∃ shown, compile {} missingText "m.py" = .error (.fault shown) ∧
    shown.sourceLine = some "def f(x: \"Node\"): pass" ∧
    shown.PointsUnder "def f(x: \"Node\"): pass" 9 := by
  obtain ⟨near, hcompile⟩ := compile_missing
  obtain ⟨pos, -, hplace, -, hexcerpt⟩ := excerpt_of_fault parseModule_missing hcompile
  have hsame : locationOf "m.py" ⟨1, 9⟩ = locationOf "m.py" pos := Option.some.inj hplace
  obtain rfl := locationOf_inj.1 hsame
  obtain ⟨hline, hcaret⟩ := hexcerpt _ _ isAt_missing
  refine ⟨_, hcompile, ?_, (hcaret _ rfl (by decide)).2 (isAt_missing.column_eq_iff.1 rfl)⟩
  rw [hline (by simp)]
  exact congrArg some (by decide +kernel)

end Typeward
