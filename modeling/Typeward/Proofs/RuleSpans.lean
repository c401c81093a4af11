import Typeward.Proofs.FieldPlaces
import Typeward.Proofs.ModuleOrder
import Typeward.Proofs.Nodes
import Typeward.Source.Parser

/-!
# What rules read

A rule reads the tokens from a place up to a later one. `Parse.Spans` says what holds of everything
that a rule finds and of the places between which it is read: the start of its first token, and the
start of the next token behind it. A rule opens with a word if it finds nothing where no word is
next.
-/

namespace Typeward.Source

/-- Where a token starts. Behind the last token this is where that one ends. -/
def Lexed.posAt (l : Lexed) (k : Nat) : Pos :=
  match l.tokens[k]? with
  | some t => t.pos
  | none => (l.tokens.back?.map (·.stop)).getD ⟨0, 0⟩

/-- The tokens of a text are in order. -/
def Lexed.Ordered (l : Lexed) : Prop := ∃ a b, InRow l.tokens.toList a b

namespace Lexed

variable {l : Lexed} {j k : Nat} {t : Token}

/-- The place of a token. -/
theorem posAt_of_getElem? (h : l.tokens[k]? = some t) : l.posAt k = t.pos := by
  rw [posAt, h]

/-- A token ends before each later one starts. -/
theorem Ordered.stop_le_posAt (hl : l.Ordered) (h : l.tokens[j]? = some t) (hjk : j < k) :
    t.stop ≤ l.posAt k := by
  obtain ⟨a, b, hrow⟩ := hl
  have hpairs := List.pairwise_iff_getElem.1 hrow.ordered
  obtain ⟨hj, rfl⟩ := Array.getElem?_eq_some_iff.1 h
  by_cases hk : k < l.tokens.size
  · rw [posAt_of_getElem? (Array.getElem?_eq_getElem hk)]
    exact hpairs j k hj hk hjk
  · have hnone : l.tokens[k]? = none := Array.getElem?_eq_none (by omega)
    have hsize : l.tokens.size - 1 < l.tokens.size := by omega
    have hlast : l.tokens.back? = some l.tokens[l.tokens.size - 1] := by
      rw [Array.back?_eq_getElem?, Array.getElem?_eq_getElem]
    rw [posAt, hnone, hlast]
    by_cases hend : j = l.tokens.size - 1
    · subst hend
      exact le_rfl
    · have hbefore := hpairs j (l.tokens.size - 1) hj (by simp; omega) (by omega)
      have hwithin := hrow.within l.tokens[l.tokens.size - 1] (by simp)
      exact hbefore.trans hwithin.width

/-- Tokens start in order. -/
theorem Ordered.posAt_mono (hl : l.Ordered) (hjk : j ≤ k) : l.posAt j ≤ l.posAt k := by
  cases ht : l.tokens[j]? with
  | some t =>
    by_cases heq : j = k
    · rw [heq]
    · obtain ⟨a, b, hrow⟩ := hl
      have hwithin := hrow.within t (Array.mem_toList_iff.2 (Array.mem_of_getElem? ht))
      have hstop := Ordered.stop_le_posAt ⟨a, b, hrow⟩ ht (lt_of_le_of_ne hjk heq)
      rw [posAt_of_getElem? ht]
      exact hwithin.width.trans hstop
  | none =>
    have hj : l.tokens.size ≤ j := Array.getElem?_eq_none_iff.1 ht
    have hk : l.tokens[k]? = none := Array.getElem?_eq_none (by omega)
    rw [posAt, posAt, ht, hk]

/-- The text behind a place has its tokens in order. -/
theorem ordered_lexText (start : Cursor) (lines : Array String) :
    (lexText start lines).Ordered := by
  obtain ⟨stop, hfinds⟩ := exists_finds_lexText start lines
  exact ⟨_, _, hfinds.row⟩

/-- The places of the words between two places in a text. -/
def wordsBetween (l : Lexed) (j k : Nat) : Set Pos := l.words ∩ Set.Icc (l.posAt j) (l.posAt k)

/-- Between places that are closer to each other there are fewer words. -/
theorem Ordered.wordsBetween_subset (hl : l.Ordered) {j' k' : Nat} (hj : j' ≤ j) (hk : k ≤ k') :
    l.wordsBetween j k ⊆ l.wordsBetween j' k' :=
  fun _ h => ⟨h.1, (hl.posAt_mono hj).trans h.2.1, h.2.2.trans (hl.posAt_mono hk)⟩

/-- A word is among the words from its place on. -/
theorem Ordered.mem_wordsBetween (hl : l.Ordered) (h : l.tokens[j]? = some t) (hword : t.IsWord)
    (hjk : j ≤ k) : l.posAt j ∈ l.wordsBetween j k := by
  have hpos : t.pos = l.posAt j := (posAt_of_getElem? h).symm
  exact ⟨⟨t, Array.mem_of_getElem? h, hword, .inl hpos⟩, le_rfl, hl.posAt_mono hjk⟩

end Lexed

namespace Parse

variable {α β : Type}

/-- What two rules find after each other is found by the second one behind what the first one
finds. -/
theorem bind_eq_found {rule : Parse α} {next : α → Parse β} {i : Input} {p q : Place} {y : β} :
    (rule >>= next) i p = .found y q ↔
      ∃ x p', rule i p = .found x p' ∧ next x i p' = .found y q := by
  change Parse.bind rule next i p = _ ↔ _
  unfold Parse.bind
  cases rule i p <;> simp

/-- What follows a value that is found without reading. -/
theorem pure_bind_eq {x : α} {next : α → Parse β} : (pure x >>= next) = next x := rfl

/-- Whatever a rule finds satisfies a condition on where it starts, where the next token behind it
starts, and on what is found. -/
def Spans (rule : Parse α) (P : Pos → Pos → α → Prop) : Prop :=
  ∀ ⦃i p x q⦄, i.lexed.Ordered → rule i p = .found x q →
    p.index ≤ q.index ∧ P (i.lexed.posAt p.index) (i.lexed.posAt q.index) x

/-- A rule never moves back. -/
abbrev Advances (rule : Parse α) : Prop := Spans rule fun _ _ _ => True

variable {rule : Parse α} {next : α → Parse β} {P P' : Pos → Pos → α → Prop}
  {Q : Pos → Pos → β → Prop}

/-- What holds of everything that is found may be weakened. -/
theorem Spans.mono (h : Spans rule P) (hP : ∀ a b x, a ≤ b → P a b x → P' a b x) :
    Spans rule P' := by
  intro i p x q hi hfound
  obtain ⟨hle, hx⟩ := h hi hfound
  exact ⟨hle, hP _ _ _ (hi.posAt_mono hle) hx⟩

/-- A rule of which something is known never moves back. -/
theorem Spans.advances (h : Spans rule P) : Advances rule := h.mono fun _ _ _ _ _ => trivial

/-- A rule that misses finds nothing. -/
theorem spans_miss : Spans miss P := fun i p x q _ hfound => by simp [miss] at hfound

/-- What is found without reading starts and ends at one place. -/
theorem spans_pure {x : α} (h : ∀ a, P a a x) : Spans (pure x) P := by
  intro i p y q _ hfound
  obtain ⟨rfl, rfl⟩ : x = y ∧ p = q := by simpa [pure, Parse.pure] using hfound
  exact ⟨le_rfl, h _⟩

/-- What two rules find after each other. -/
theorem Spans.bind (h : Spans rule P)
    (hnext : ∀ x, Spans (next x) fun b c y => ∀ a ≤ b, P a b x → Q a c y) :
    Spans (rule >>= next) Q := by
  intro i p y q hi hfound
  obtain ⟨x, p', hx, hfound⟩ := bind_eq_found.1 hfound
  obtain ⟨hle, hP⟩ := h hi hx
  obtain ⟨hle', hQ⟩ := hnext x hi hfound
  exact ⟨hle.trans hle', hQ _ (hi.posAt_mono hle) hP⟩

/-- As `Spans.bind`, where nothing is known of what the first rule finds. -/
theorem Advances.bind (h : Advances rule) (hnext : ∀ x, Advances (next x)) :
    Advances (rule >>= next) :=
  Spans.bind h fun x => (hnext x).mono fun _ _ _ _ _ _ _ _ => trivial

/-- As `Advances.bind`, where the first rule is left out unless a condition holds. -/
theorem Advances.unless {c : Prop} [Decidable c] {rule : Parse β} {next : Parse α}
    (h : Advances rule) (hnext : Advances next) :
    Advances (if c then rule >>= fun _ => next else next) := by
  split
  · exact h.bind fun _ => hnext
  · exact hnext

/-- What one of two rules finds. -/
theorem Spans.orElse {other : Parse α} (h : Spans rule P) (hother : Spans other P) :
    Spans (rule <|> other) P := by
  intro i p x q hi hfound
  change Parse.orElse rule (fun _ => other) i p = _ at hfound
  unfold Parse.orElse at hfound
  split at hfound
  · rename_i seen _
    exact @hother i ⟨p.index, seen⟩ x q hi hfound
  · exact h hi hfound

/-- What a rule finds, or nothing without moving. -/
theorem Spans.optional (h : Spans rule P) :
    Spans (optional rule) fun a b found =>
      (found = none → a = b) ∧ ∀ x, found = some x → P a b x := by
  refine Spans.orElse ?_ (spans_pure fun a => ⟨fun _ => rfl, nofun⟩)
  refine Spans.bind h fun x => spans_pure fun b a hle hx => ⟨nofun, fun y hy => ?_⟩
  exact Option.some.inj hy ▸ hx

/-- A condition that holds of nothing, and of what a rule finds before what it holds of, holds of
everything that the rule finds when it is repeated. -/
theorem Spans.many {Q : Pos → Pos → List α → Prop} (h : Spans rule P) (hnil : ∀ a, Q a a [])
    (hcons : ∀ a b c x xs, a ≤ b → b ≤ c → P a b x → Q b c xs → Q a c (x :: xs)) :
    Spans (many rule) Q := by
  have hrepeated (fuel : Nat) : Spans (repeated rule fuel) Q := by
    induction fuel with
    | zero => exact spans_pure hnil
    | succ fuel ih =>
      refine h.optional.bind fun found => ?_
      cases found with
      | none =>
        refine spans_pure fun b a hle hstays => ?_
        rw [hstays.1 rfl]
        exact hnil b
      | some x =>
        refine ih.bind fun xs => spans_pure fun c b hbc hxs a hab hx => ?_
        exact hcons a b c x xs hab hbc (hx.2 x rfl) hxs
  intro i p xs q hi hfound
  exact hrepeated _ hi hfound

/-- Looking ahead reads nothing. -/
theorem spans_ahead (rule : Parse α) : Spans (ahead rule) fun a b _ => a = b := by
  intro i p x q _ hfound
  unfold ahead at hfound
  split at hfound
  · obtain ⟨-, rfl⟩ := Outcome.found.inj hfound
    exact ⟨le_rfl, rfl⟩
  · obtain ⟨-, rfl⟩ := Outcome.found.inj hfound
    exact ⟨le_rfl, rfl⟩
  · cases hfound

/-- Looking for a mistake reads nothing. -/
theorem spans_mistake (rule : Parse Unit) : Spans (mistake rule) fun a b _ => a = b := by
  intro i p x q _ hfound
  unfold mistake at hfound
  split at hfound
  · split at hfound
    · obtain ⟨-, rfl⟩ := Outcome.found.inj hfound
      exact ⟨le_rfl, rfl⟩
    · obtain ⟨-, rfl⟩ := Outcome.found.inj hfound
      exact ⟨le_rfl, rfl⟩
    · cases hfound
  · obtain ⟨-, rfl⟩ := Outcome.found.inj hfound
    exact ⟨le_rfl, rfl⟩

/-- A condition reads nothing. -/
theorem spans_guard (c : Bool) : Spans (guard c) fun a b _ => a = b ∧ c = true := by
  unfold guard
  split
  · exact spans_pure fun a => ⟨rfl, ‹_›⟩
  · exact spans_miss

/-- Faults find nothing. -/
theorem spans_failAt {line column : Nat} {reason : String} : Spans (failAt line column reason) P :=
  fun i p x q _ hfound => by cases hfound

/-- As `spans_failAt`, where a node starts. -/
theorem spans_failAtPos {pos : Pos} {reason : String} : Spans (failAtPos pos reason) P :=
  fun i p x q _ hfound => by cases hfound

/-- As `spans_failAt`, at the last token. -/
theorem spans_failAtLast {reason : String} : Spans (failAtLast reason) P := by
  intro i p x q hi hfound
  unfold failAtLast at hfound
  split at hfound
  · exact spans_failAt hi hfound
  · exact spans_failAt hi hfound

/-- A look at the next token finds it. -/
theorem peek_eq_found {i : Input} {p q : Place} {t : Token} (h : peek i p = .found t q) :
    i.lexed.tokens[p.index]? = some t ∧ q.index = p.index := by
  unfold peek at h
  split at h
  · rename_i t' ht
    obtain ⟨rfl, rfl⟩ := Outcome.found.inj h
    exact ⟨ht, rfl⟩
  · split at h <;> cases h

/-- The next token. -/
theorem spans_peek : Spans peek fun a b t => a = b ∧ t.pos = a := by
  intro i p t q _ hfound
  obtain ⟨ht, hindex⟩ := peek_eq_found hfound
  rw [hindex]
  exact ⟨le_rfl, rfl, (Lexed.posAt_of_getElem? ht).symm⟩

/-- Moving over a token. -/
theorem advances_advance : Advances advance := by
  intro i p x q _ hfound
  obtain ⟨-, rfl⟩ := Outcome.found.inj hfound
  exact ⟨Nat.le_succ _, trivial⟩

/-- A token that is there when a rule starts ends where the next token behind it starts, or
before. -/
theorem within_of_getElem? {i : Input} {k : Nat} {t : Token} (hi : i.lexed.Ordered)
    (ht : i.lexed.tokens[k]? = some t) :
    t.pos = i.lexed.posAt k ∧ t.Within (i.lexed.posAt k) (i.lexed.posAt (k + 1)) := by
  obtain ⟨a, b, hrow⟩ := hi
  have hwithin := hrow.within t (Array.mem_toList_iff.2 (Array.mem_of_getElem? ht))
  have hstop := Lexed.Ordered.stop_le_posAt ⟨a, b, hrow⟩ ht (Nat.lt_succ_self k)
  have hpos := Lexed.posAt_of_getElem? ht
  exact ⟨hpos.symm, { hwithin with start := hpos.le, stop := hstop }⟩

/-- The next token is read if it satisfies a condition. -/
theorem token_eq_found {c : Token → Bool} {i : Input} {p q : Place} {t : Token} (h : (do
      let token ← peek
      guard (c token)
      advance
      return token : Parse Token) i p = .found t q) :
    i.lexed.tokens[p.index]? = some t ∧ q.index = p.index + 1 ∧ c t = true := by
  obtain ⟨u, p', hpeek, h⟩ := bind_eq_found.1 h
  obtain ⟨hu, hindex⟩ := peek_eq_found hpeek
  cases hc : c u with
  | true =>
    rw [hc] at h
    obtain ⟨rfl, rfl⟩ := Outcome.found.inj h
    exact ⟨hu, congrArg (· + 1) hindex, hc⟩
  | false =>
    rw [hc] at h
    cases h

/-- A token that is read ends where the next token behind it starts, or before. -/
theorem spans_token {c : Token → Bool} : Spans (do
      let token ← peek
      guard (c token)
      advance
      return token) fun a b t => t.pos = a ∧ t.Within a b ∧ c t = true := by
  intro i p t q hi hfound
  obtain ⟨ht, hindex, hc⟩ := token_eq_found hfound
  obtain ⟨hpos, hwithin⟩ := within_of_getElem? hi ht
  rw [hindex]
  exact ⟨Nat.le_succ _, hpos, hwithin, hc⟩

/-- A token of a kind. -/
theorem spans_expectKind (kind : TokenKind) :
    Spans (expectKind kind) fun a b t => t.pos = a ∧ t.Within a b ∧ t.kind = kind := by
  refine spans_token.mono fun a b t _ h => ⟨h.1, h.2.1, ?_⟩
  simpa using h.2.2

/-- The place of the next token. -/
theorem spans_here : Spans here fun a b pos => a = b ∧ pos = a :=
  spans_peek.bind fun _ => spans_pure fun _ _ _ h => h

/-- Whether a word is next. -/
theorem spans_sees (text : String) : Spans (sees text) fun a b _ => a = b :=
  spans_peek.bind fun _ => spans_pure fun _ _ _ h => h.1

/-- A word is read if it is next. -/
theorem accept_eq_found {text : String} {i : Input} {p q : Place} {found : Bool}
    (h : accept text i p = .found found q) :
    ∃ t, i.lexed.tokens[p.index]? = some t ∧ (found = false → q.index = p.index) ∧
      (found = true → t.text = text ∧ q.index = p.index + 1) := by
  obtain ⟨seen, p', hsees, h⟩ := bind_eq_found.1 h
  obtain ⟨t, p'', hpeek, hsees⟩ := bind_eq_found.1 hsees
  obtain ⟨ht, hindex⟩ := peek_eq_found hpeek
  obtain ⟨rfl, rfl⟩ := Outcome.found.inj hsees
  refine ⟨t, ht, ?_⟩
  split at h
  · rename_i htext
    obtain ⟨rfl, rfl⟩ := Outcome.found.inj h
    exact ⟨nofun, fun _ => ⟨beq_iff_eq.1 htext, by rw [← hindex]⟩⟩
  · obtain ⟨rfl, rfl⟩ := Outcome.found.inj h
    exact ⟨fun _ => hindex, nofun⟩

/-- A word that is read is not empty. -/
theorem spans_accept (text : String) :
    Spans (accept text) fun a b found =>
      (found = false → a = b) ∧ (found = true → text ≠ "" → a < b) := by
  intro i p found q hi hfound
  obtain ⟨t, ht, hmissed, hread⟩ := accept_eq_found hfound
  obtain ⟨hpos, hwithin⟩ := within_of_getElem? hi ht
  cases found with
  | false =>
    rw [hmissed rfl]
    exact ⟨le_rfl, fun _ => rfl, nofun⟩
  | true =>
    obtain ⟨rfl, hindex⟩ := hread rfl
    rw [hindex]
    refine ⟨Nat.le_succ _, nofun, fun _ hne => ?_⟩
    rw [← hpos]
    exact (hwithin.nonempty (.inl hne)).trans_le hwithin.stop

/-- A word that has to be next is read. -/
theorem spans_expect (text : String) : Spans (expect text) fun a b _ => text ≠ "" → a < b := by
  refine (spans_accept text).bind fun found => ?_
  refine (spans_guard found).mono fun b c _ _ h a _ haccept => ?_
  rw [← h.1]
  exact haccept.2 h.2

/-- As `spans_expect`, where the absence of the word is a fault. -/
theorem spans_force (text : String) : Spans (force text) fun a b _ => text ≠ "" → a < b := by
  refine (spans_accept text).bind fun found => ?_
  cases found with
  | false => exact Spans.bind spans_peek fun _ => spans_failAt
  | true => exact spans_pure fun b a _ h => h.2 rfl

/-- Names are read. -/
theorem advances_name : Advances name := by
  refine Advances.bind spans_peek.advances fun t => ?_
  refine Advances.bind (spans_guard _).advances fun _ => ?_
  exact advances_advance.bind fun _ => spans_pure fun _ => trivial

/-- Whether a name and an operator are next. -/
theorem spans_seesNamed (operator : String) : Spans (seesNamed operator) fun a b _ => a = b := by
  refine spans_peek.bind fun t => ?_
  split
  · refine (spans_ahead _).mono fun b c _ _ hbc a _ hab => ?_
    exact hab.1.trans hbc
  · exact spans_pure fun b a _ hab => hab.1

/-- A rule never moves. -/
def Rests (rule : Parse α) : Prop := ∀ ⦃i p x q⦄, rule i p = .found x q → q.index = p.index

/-- A rule opens with a word: it finds something only where a word is next. -/
def Opens (rule : Parse α) : Prop :=
  ∀ ⦃i p x q⦄, rule i p = .found x q → ∃ t, i.lexed.tokens[p.index]? = some t ∧ t.IsWord

/-- A rule that never moves never moves back. -/
theorem Rests.advances (h : Rests rule) : Advances rule :=
  fun _ _ _ _ _ hfound => ⟨(h hfound).ge, trivial⟩

/-- What is found without reading. -/
theorem rests_pure (x : α) : Rests (pure x : Parse α) := by
  intro i p y q hfound
  obtain ⟨-, rfl⟩ : x = y ∧ p = q := by simpa [pure, Parse.pure] using hfound
  rfl

/-- Two rules that never move do not move after each other. -/
theorem Rests.bind (h : Rests rule) (hnext : ∀ x, Rests (next x)) : Rests (rule >>= next) := by
  intro i p y q hfound
  obtain ⟨x, p', hx, hfound⟩ := bind_eq_found.1 hfound
  exact (hnext x hfound).trans (h hx)

/-- A look at the next token does not move. -/
theorem rests_peek : Rests peek := fun _ _ _ _ hfound => (peek_eq_found hfound).2

/-- The place of the next token. -/
theorem rests_here : Rests here := rests_peek.bind fun _ => rests_pure _

/-- Whether a word is next. -/
theorem rests_sees (text : String) : Rests (sees text) := rests_peek.bind fun _ => rests_pure _

/-- The place before the next token. -/
theorem rests_place : Rests place := by
  intro i p x q hfound
  obtain ⟨-, rfl⟩ := Outcome.found.inj hfound
  rfl

/-- Looking ahead does not move. -/
theorem rests_ahead (rule : Parse α) : Rests (ahead rule) := by
  intro i p x q hfound
  unfold ahead at hfound
  split at hfound
  · obtain ⟨-, rfl⟩ := Outcome.found.inj hfound
    rfl
  · obtain ⟨-, rfl⟩ := Outcome.found.inj hfound
    rfl
  · cases hfound

/-- Looking for a mistake does not move. -/
theorem rests_mistake (rule : Parse Unit) : Rests (mistake rule) := by
  intro i p x q hfound
  unfold mistake at hfound
  split at hfound
  · split at hfound
    · obtain ⟨-, rfl⟩ := Outcome.found.inj hfound
      rfl
    · obtain ⟨-, rfl⟩ := Outcome.found.inj hfound
      rfl
    · cases hfound
  · obtain ⟨-, rfl⟩ := Outcome.found.inj hfound
    rfl

/-- Whether a name and an operator are next. -/
theorem rests_seesNamed (operator : String) : Rests (seesNamed operator) := by
  refine rests_peek.bind fun t => ?_
  split
  · exact rests_ahead _
  · exact rests_pure _

/-- A rule that misses finds nothing. -/
theorem opens_miss : Opens (miss : Parse α) := fun i p x q hfound => by simp [miss] at hfound

/-- What one rule opens with, both open with. -/
theorem Opens.bind (h : Opens rule) : Opens (rule >>= next) := by
  intro i p y q hfound
  obtain ⟨x, p', hx, -⟩ := bind_eq_found.1 hfound
  exact h hx

/-- What a rule opens with behind one that does not move. -/
theorem Rests.opens (h : Rests rule) (hnext : ∀ x, Opens (next x)) : Opens (rule >>= next) := by
  intro i p y q hfound
  obtain ⟨x, p', hx, hfound⟩ := bind_eq_found.1 hfound
  rw [← h hx]
  exact hnext x hfound

/-- Two rules that open with words. -/
theorem Opens.orElse {other : Parse α} (h : Opens rule) (hother : Opens other) :
    Opens (rule <|> other) := by
  intro i p x q hfound
  change Parse.orElse rule (fun _ => other) i p = _ at hfound
  unfold Parse.orElse at hfound
  split at hfound
  · rename_i seen _
    exact @hother i ⟨p.index, seen⟩ x q hfound
  · exact h hfound

/-- What is read behind a look at the next token, where that is no word. -/
theorem opens_peek {next : Token → Parse β} (h : ∀ t, ¬ t.IsWord → Opens (next t)) :
    Opens (peek >>= next) := by
  intro i p y q hfound
  obtain ⟨t, p', hpeek, hnext⟩ := bind_eq_found.1 hfound
  obtain ⟨ht, hindex⟩ := peek_eq_found hpeek
  by_cases hword : t.IsWord
  · exact ⟨t, ht, hword⟩
  · rw [← hindex]
    exact h t hword hnext

/-- What is read behind a word, or where that is not next. -/
theorem opens_accept {text : String} {next : Bool → Parse β} (hne : text ≠ "")
    (h : Opens (next false)) : Opens (accept text >>= next) := by
  intro i p y q hfound
  obtain ⟨found, p', haccept, hnext⟩ := bind_eq_found.1 hfound
  obtain ⟨t, ht, hmissed, hread⟩ := accept_eq_found haccept
  cases found with
  | false =>
    rw [← hmissed rfl]
    exact h hnext
  | true => exact ⟨t, ht, .inl ((hread rfl).1 ▸ hne)⟩

/-- A word that has to be next. -/
theorem opens_expect {text : String} (hne : text ≠ "") : Opens (expect text) :=
  opens_accept hne opens_miss

/-- A name, a number or a string. -/
theorem opens_expectKind {kind : TokenKind} (hkind : kind ∈ [.name, .number, .string]) :
    Opens (expectKind kind) := by
  refine opens_peek fun t hword => ?_
  have hother : (t.kind == kind) = false := by
    refine beq_eq_false_iff_ne.2 fun heq => hword (.inr ?_)
    simpa [heq] using hkind
  rw [hother]
  exact Opens.bind opens_miss

/-- What is found, or nothing, is found by the rule, or without moving. -/
theorem optional_eq_found {i : Input} {p q : Place} {found : Option α}
    (h : optional rule i p = .found found q) :
    (found = none ∧ q.index = p.index) ∨ ∃ x, found = some x ∧ rule i p = .found x q := by
  change Parse.orElse (rule >>= fun x => pure (some x)) (fun _ => pure none) i p = _ at h
  unfold Parse.orElse at h
  split at h
  · obtain ⟨rfl, rfl⟩ := Outcome.found.inj h
    exact .inl ⟨rfl, rfl⟩
  · obtain ⟨x, p', hx, h⟩ := bind_eq_found.1 h
    obtain ⟨rfl, rfl⟩ := Outcome.found.inj h
    exact .inr ⟨x, rfl, hx⟩

/-- What is read behind a repeated rule, or where that finds nothing. -/
theorem Opens.many {next : List α → Parse β} (h : Opens rule) (hnil : Opens (next [])) :
    Opens (many rule >>= next) := by
  intro i p y q hfound
  obtain ⟨xs, p', hmany, hnext⟩ := bind_eq_found.1 hfound
  have hstart : (xs = [] ∧ p'.index = p.index) ∨
      ∃ t, i.lexed.tokens[p.index]? = some t ∧ t.IsWord := by
    unfold Parse.many at hmany
    generalize i.lexed.tokens.size + 1 - p.index = fuel at hmany
    cases fuel with
    | zero =>
      obtain ⟨rfl, rfl⟩ := Outcome.found.inj hmany
      exact .inl ⟨rfl, rfl⟩
    | succ fuel =>
      obtain ⟨found, p'', hfirst, hmany⟩ := bind_eq_found.1 hmany
      rcases optional_eq_found hfirst with ⟨rfl, hindex⟩ | ⟨x, rfl, hx⟩
      · obtain ⟨rfl, rfl⟩ := Outcome.found.inj hmany
        exact .inl ⟨rfl, hindex⟩
      · exact .inr (h hx)
  rcases hstart with ⟨rfl, hindex⟩ | hword
  · rw [← hindex]
    exact hnil hnext
  · exact hword

/-- Names. -/
theorem opens_name : Opens name := by
  refine opens_peek fun t hword => ?_
  have hother : isIdentifier t = false := by
    have hkind : t.kind ≠ .name := fun heq => hword (.inr (.inl heq))
    simp [isIdentifier, hkind]
  rw [hother]
  exact Opens.bind opens_miss

end Parse

variable {α β : Type} [Slots α] [Slots β] {K : Set Pos}

open Slots

/-- An expression starts at a place of a set, and carries no number. -/
structure NodeIn (K : Set Pos) (e : Expr) : Prop where
  place : e.pos ∈ K
  number : e.number? = none

/-- The expressions in a value, with all their parts, start at places of a set and carry no
numbers. -/
def NodesIn (K : Set Pos) {α : Type} [Slots α] (a : α) : Prop :=
  ∀ e ∈ slots a, e.Everywhere (NodeIn K)

/-- A call is found where it starts. -/
theorem eq_pos_of_mem_callSite {e : Expr} {p : Pos} (h : p ∈ e.callSite) : p = e.pos := by
  cases e with
  | call => exact List.mem_singleton.1 h
  | _ => cases h

namespace NodesIn

/-- The calls in a value start at places of the set. -/
theorem places {a : α} (h : NodesIn K a) : ∀ e ∈ slots a, ∀ p ∈ e.calls, p ∈ K := by
  intro e he
  have heverywhere := h e he
  clear he h
  induction heverywhere with
  | @node e here parts ih =>
    intro p hp
    rw [e.calls_eq] at hp
    rcases List.mem_append.1 hp with hp | hp
    · rw [eq_pos_of_mem_callSite hp]
      exact here.place
    · obtain ⟨c, hc, hp⟩ := List.mem_flatMap.1 hp
      exact ih c hc p hp

/-- The expressions in a value carry no numbers. -/
theorem unnumbered {a : α} (h : NodesIn K a) : ∀ e ∈ slots a, e.Unnumbered :=
  fun e he => (h e he).mono fun _ hnode => hnode.number

/-- The nodes in a pair are those in its parts. -/
theorem pair {a : α} {b : β} (ha : NodesIn K a) (hb : NodesIn K b) : NodesIn K (a, b) := by
  intro e he
  rcases BoundedSlots.mem_pair.1 he with he | he
  · exact ha e he
  · exact hb e he

/-- The nodes in the parts of a pair are nodes in the pair. -/
theorem of_pair {a : α} {b : β} (h : NodesIn K (a, b)) : NodesIn K a ∧ NodesIn K b :=
  ⟨fun e he => h e (List.mem_append_left _ he), fun e he => h e (List.mem_append_right _ he)⟩

/-- There are no nodes in what holds no expressions. -/
theorem empty {a : α} (h : slots a = []) : NodesIn K a := by
  intro e he
  rw [h] at he
  exact absurd he List.not_mem_nil

/-- The nodes in a value are those in the value if it may be absent. -/
theorem some {a : α} (h : NodesIn K a) : NodesIn K (Option.some a) := h

/-- The nodes in a list are those in its first element and in the rest. -/
theorem cons {a : α} {as : List α} (ha : NodesIn K a) (has : NodesIn K as) :
    NodesIn K (a :: as) := by
  intro e he
  rcases List.mem_append.1 he with he | he
  · exact ha e he
  · exact has e he

/-- The nodes in a list are those in its elements. -/
theorem list {as : List α} (h : ∀ a ∈ as, NodesIn K a) : NodesIn K as := by
  induction as with
  | nil => exact empty rfl
  | cons a as ih => exact cons (h a List.mem_cons_self) (ih fun a ha => h a (.tail _ ha))

/-- The nodes in an element of a list are nodes in the list. -/
theorem of_mem {a : α} {as : List α} (h : NodesIn K as) (ha : a ∈ as) : NodesIn K a := by
  induction as with
  | nil => exact absurd ha List.not_mem_nil
  | cons a' as ih =>
    rcases List.mem_cons.1 ha with rfl | ha
    · exact fun e he => h e (List.mem_append_left _ he)
    · exact ih (fun e he => h e (List.mem_append_right _ he)) ha

/-- The nodes in a list of pairs are those in the lists of their parts. -/
theorem unzip {entries : List (α × β)} (h : NodesIn K entries) :
    NodesIn K (entries.map (·.1), entries.map (·.2)) := by
  refine pair (list fun a ha => ?_) (list fun b hb => ?_)
  · obtain ⟨entry, hentry, rfl⟩ := List.mem_map.1 ha
    exact (h.of_mem hentry).of_pair.1
  · obtain ⟨entry, hentry, rfl⟩ := List.mem_map.1 hb
    exact (h.of_mem hentry).of_pair.2

/-- The nodes in a value are those in another one with the same expressions. -/
theorem of_slots {a : α} {b : β} (h : NodesIn K a) (heq : slots b = slots a) : NodesIn K b := by
  intro e he
  exact h e (heq ▸ he)

/-- The nodes in two lists are those in both. -/
theorem append {as bs : List α} (ha : NodesIn K as) (hb : NodesIn K bs) : NodesIn K (as ++ bs) := by
  induction as with
  | nil => exact hb
  | cons a as ih =>
    intro e he
    rcases List.mem_append.1 he with he | he
    · exact ha e (List.mem_append_left _ he)
    · exact ih (fun e he => ha e (List.mem_append_right _ he)) e he

/-- The nodes in an expression are the expression itself and those in its parts. -/
theorem node {e : Expr} (hplace : e.pos ∈ K) (hnumber : e.number? = none)
    (hparts : ∀ c ∈ e.children, c.Everywhere (NodeIn K)) : NodesIn K e := by
  intro e' he'
  rw [List.mem_singleton.1 he']
  exact .node ⟨hplace, hnumber⟩ hparts

/-- An expression without parts is the only node in it. -/
theorem leaf {e : Expr} (hplace : e.pos ∈ K) (hnumber : e.number? = none)
    (hparts : e.children = []) : NodesIn K e :=
  node hplace hnumber (by simp [hparts])

end NodesIn

end Typeward.Source
