import Typeward.Proofs.ExpressionPlaces

/-!
# The places of atoms

Strings with their fields, brackets and comprehensions. The nodes in the fields of a string start at
the words that its token holds, so their places are among those that the rule for strings comes to.
-/

namespace Typeward.Source

open Slots Parse

variable {K : Set Pos} {r : Rules}

/-- The words in the fields of a token start at places of a set. -/
def Token.InPlace (K : Set Pos) (t : Token) : Prop := ∀ pos, t.Holds pos → pos ∈ K

/-- The nodes in a part of a string start at places of a set. -/
def StringPart.InPlace (K : Set Pos) : StringPart → Prop
  | .points _ => True
  | .field e => NodesIn K e

/-- The words in the fields of a string are among those that are come to. -/
theorem stays_string : Stays K (expectKind .string) (Token.InPlace K) := by
  intro i p t q hi hfound
  obtain ⟨ht, hindex, hkind⟩ := token_eq_found hfound
  obtain ⟨hpos, hwithin⟩ := within_of_getElem? hi ht
  rw [hindex]
  refine ⟨Nat.le_succ _, fun hK pos hholds => hK ⟨?_, ?_⟩⟩
  · exact ⟨t, Array.mem_of_getElem? ht, .inr (.inr (.inr (beq_iff_eq.1 hkind))), .inr hholds⟩
  · exact Set.Icc_subset_Icc hwithin.start hwithin.stop (hholds.mem_Icc hwithin)

/-- What is run on tokens is found by the rule. -/
theorem exists_of_run {α : Type} {rule : Parse α} {lexed : Lexed} {origin : Nat} {a : α}
    (h : Parse.run rule lexed origin = .ok a) :
    ∃ q, rule ⟨lexed, false, origin⟩ ⟨0, 0⟩ = .found a q := by
  unfold Parse.run at h
  dsimp only at h
  split at h
  · rename_i found q hfound
    obtain rfl := Except.ok.inj h
    exact ⟨q, hfound⟩
  · cases h
  · split at h <;> cases h

/-- The expression of a field in a string token. -/
theorem stays_fieldExpression (h : r.InPlace K) {token : Token} {brace : Cursor} {text : List Char}
    (hbrace : (stringParts token).start.Reaches brace)
    (htext : Cursor.Overlays (fieldText text) brace.rest) (start : Cursor) :
    Stays K (fieldExpression r start brace text) fun e => token.InPlace K → NodesIn K e := by
  intro i p e q _ hfound
  unfold fieldExpression at hfound
  dsimp only at hfound
  split at hfound
  · rename_i e' hrun
    obtain ⟨rfl, rfl⟩ := Outcome.found.inj hfound
    refine ⟨le_rfl, fun _ ht => ?_⟩
    obtain ⟨stop, hread⟩ := exists_of_run hrun
    have hordered := Lexed.ordered_lexText { brace with rest := fieldText text }
      (Array.replicate (brace.line - 1) "" ++ textLines (fieldText text))
    refine ((places_starExpressions h).stays hordered hread).2 fun pos hpos => ?_
    exact ht pos (.of_mem_words hbrace htext hpos.1)
  · cases hfound

/-- The nodes in a joined string are those in its parts. -/
theorem nodesIn_joinParts {pos : Pos} (hpos : pos ∈ K) {marked : Bool} {text : List Nat}
    {parts : List StringPart} (h : ∀ part ∈ parts, part.InPlace K) :
    NodesIn K (joinParts pos marked text parts) := by
  have hbefore (text : List Nat) : NodesIn K
      (if text.isEmpty then [] else [Expr.constant pos (textOfPoints text) marked]) := by
    split
    · exact .empty rfl
    · exact NodesIn.cons (.leaf hpos rfl rfl) (.empty rfl)
  induction parts generalizing text with
  | nil => exact hbefore text
  | cons part rest ih =>
    obtain ⟨hpart, hrest⟩ := List.forall_mem_cons.1 h
    cases part with
    | points more => exact ih hrest
    | field e => exact (hbefore text).append (NodesIn.cons hpart (ih hrest))

mutual

/-- The parts that a piece of a string token comes to. -/
theorem stays_pieceParts (h : r.InPlace K) {token : Token} (start : Cursor) (pos : Pos)
    (marked : Bool) : (piece : Piece) → piece.Behind (stringParts token).start →
      Stays K (pieceParts r start pos marked piece) fun parts =>
        token.InPlace K → pos ∈ K → ∀ part ∈ parts, part.InPlace K
  | .literal points, _ => stays_pure fun _ _ => List.forall_mem_singleton.2 trivial
  | .broken reason, _ => spans_failAtLast.stays
  | .field brace text conversion none, .field hbrace htext hspec => by
    refine (stays_fieldExpression h hbrace htext start).bind fun value => ?_
    refine stays_pure fun hvalue ht hpos => List.forall_mem_singleton.2 ?_
    exact NodesIn.node hpos rfl (NodesIn.pair (hvalue ht) (.empty rfl))
  | .field brace text conversion (some pieces), .field hbrace htext hspec => by
    refine (stays_fieldExpression h hbrace htext start).bind fun value => ?_
    have hpieces := stays_piecesParts h start pos marked pieces (hspec pieces rfl)
    refine hpieces.bind fun parts => stays_pure fun hparts hvalue ht hpos => ?_
    have hspec : NodesIn K (Expr.formatted pos (joinParts pos marked [] parts)) :=
      .node hpos rfl (nodesIn_joinParts hpos (hparts ht hpos))
    exact List.forall_mem_singleton.2 (NodesIn.node hpos rfl ((hvalue ht).pair hspec.some))

/-- The parts that the pieces of a string token come to. -/
theorem stays_piecesParts (h : r.InPlace K) {token : Token} (start : Cursor) (pos : Pos)
    (marked : Bool) : (pieces : List Piece) →
      (∀ piece ∈ pieces, piece.Behind (stringParts token).start) →
      Stays K (piecesParts r start pos marked pieces) fun parts =>
        token.InPlace K → pos ∈ K → ∀ part ∈ parts, part.InPlace K
  | [], _ => stays_pure fun _ _ => List.forall_mem_nil _
  | piece :: rest, hpieces => by
    obtain ⟨hpiece, hrest⟩ := List.forall_mem_cons.1 hpieces
    refine (stays_pieceParts h start pos marked piece hpiece).bind fun first => ?_
    refine (stays_piecesParts h start pos marked rest hrest).bind fun more => ?_
    exact stays_pure fun hmore hfirst ht hpos =>
      List.forall_mem_append.2 ⟨hfirst ht hpos, hmore ht hpos⟩

end

/-- The parts of a string token. -/
theorem stays_tokenParts (h : r.InPlace K) (pos : Pos) (marked : Bool) (token : Token) :
    Stays K (tokenParts r pos marked token (stringParts token)) fun parts =>
      token.InPlace K → pos ∈ K → ∀ part ∈ parts, part.InPlace K := by
  unfold tokenParts
  split
  · exact stays_piecesParts h _ pos marked _ (behind_formattedPieces token)
  · dsimp only
    split
    · exact spans_failAt.stays
    · split
      · exact stays_pure fun _ _ => List.forall_mem_singleton.2 trivial
      · exact spans_failAtLast.stays

/-- The parts of string tokens. -/
theorem stays_tokensParts (h : r.InPlace K) (pos : Pos) (marked isBytes : Bool)
    (tokens : List Token) :
    Stays K (tokensParts r pos marked isBytes tokens) fun parts =>
      (∀ token ∈ tokens, token.InPlace K) → pos ∈ K → ∀ part ∈ parts, part.InPlace K := by
  induction tokens with
  | nil => exact stays_pure fun _ _ => List.forall_mem_nil _
  | cons token rest ih =>
    have hrest (these : List StringPart) : Stays K (do
        return these ++ (← tokensParts r pos marked isBytes rest)) fun parts =>
          (token.InPlace K → pos ∈ K → ∀ part ∈ these, part.InPlace K) →
            (∀ t ∈ token :: rest, t.InPlace K) → pos ∈ K → ∀ part ∈ parts, part.InPlace K := by
      refine ih.bind fun more => stays_pure fun hmore hthese ht hpos => ?_
      obtain ⟨htoken, hrest⟩ := List.forall_mem_cons.1 ht
      exact List.forall_mem_append.2 ⟨hthese htoken hpos, hmore hrest hpos⟩
    refine (stays_tokenParts h pos marked token).bind fun these => ?_
    dsimp only
    split
    · exact Stays.after (fun _ => hrest these) spans_failAtLast
    · exact hrest these

/-- Strings. -/
theorem places_strings (h : r.InPlace K) : Places K (strings r) := by
  refine Reads.here fun pos => ⟨?_, ?_⟩
  · refine (Stays.many stays_string).bind fun tokens => ?_
    dsimp only
    split
    · exact stays_miss
    · refine (stays_tokensParts h pos _ _ _).bind fun parts => ?_
      split
      · exact stays_pure fun _ _ hpos => .leaf hpos rfl rfl
      · split
        · exact stays_pure fun hparts ht hpos =>
            .node hpos rfl (nodesIn_joinParts hpos (hparts ht hpos))
        · exact stays_pure fun _ _ hpos => .leaf hpos rfl rfl
  · exact Opens.many (opens_expectKind (by decide)) opens_miss

/-- Numbers. -/
theorem places_number : Places K number := by
  refine Reads.expectKind (by decide) fun token => ?_
  split
  · exact stays_pure fun hpos => .leaf hpos rfl rfl
  · exact spans_failAt.stays

/-- Names, and the words for constants. -/
theorem places_nameAtom : Places K nameAtom := by
  have hconstant (token : Token) (value : Constant) : Stays K (do
      advance
      return Expr.constant token.pos value false) fun e => token.pos ∈ K → NodesIn K e :=
    Stays.after (fun _ => stays_pure fun hpos => .leaf hpos rfl rfl) advances_advance
  refine Reads.peek (fun token => ?_) fun token hword => ?_
  · dsimp only
    split
    · exact hconstant token _
    · exact hconstant token _
    · exact hconstant token _
    · exact Stays.after (fun id => stays_pure fun hpos => .leaf hpos rfl rfl) advances_name
  · rw [token.text_of_not_isWord hword]
    exact opens_name.bind

/-- What is in front of a closing bracket. -/
theorem stays_close {α : Type} {P : α → Prop} (closer : String) {a : α} (h : P a) :
    Stays K (close closer a) P :=
  Stays.after (fun _ => stays_pure h) (spans_expect _).advances

/-- What is between brackets. -/
theorem stays_bracketed {α : Type} {P : α → Prop} {rule : Parse α} (opener closer : String)
    (h : Stays K rule P) : Stays K (bracketed opener closer rule) P := by
  refine Stays.after (fun _ => ?_) (spans_expect _).advances
  refine h.bind fun a => ?_
  exact Stays.after (fun _ => stays_pure fun ha => ha) (spans_expect _).advances

/-- Targets of assignments. -/
theorem places_singleTarget (h : r.InPlace K) : Places K (singleTarget r) := by
  refine h.primary.first fun e => ?_
  exact Stays.after (fun _ => stays_pure fun he => he) (spans_guard _).advances

/-- Targets of assignments, a star allowed. -/
theorem places_starTarget (h : r.InPlace K) : Places K (starTarget r) := by
  refine Reads.here fun pos => ?_
  refine Reads.accept (by decide) (fun found => ?_) (places_singleTarget h).opens
  split
  · exact (places_singleTarget h).bind fun e => stays_pure fun he hpos => .node hpos rfl he
  · exact (places_singleTarget h).stays.mono fun e he _ => he

/-- The left side of a loop. -/
theorem places_loopTargets (h : r.InPlace K) : Places K (loopTargets r) := by
  refine Reads.orElse ?_ ?_
  · refine (places_tupleOr (places_starTarget h)).first fun target => ?_
    exact Stays.after (fun _ => stays_pure fun ht => ht) (spans_expect _).advances
  · exact Reads.behind (fun _ => reads_miss) (rests_mistake _)

/-- A clause of a comprehension. -/
theorem stays_forClause (h : r.InPlace K) : Stays K (forClause r) (NodesIn K) := by
  refine Stays.after (fun isAsync => ?_) (spans_accept _).advances
  refine Stays.after (fun _ => ?_) (spans_expect _).advances
  refine (places_loopTargets h).bind fun target => ?_
  refine (places_disjunction h).bind fun source => ?_
  have hcondition : Stays K (do expect "if"; disjunction r) (NodesIn K) :=
    Stays.after (fun _ => (places_disjunction h).stays) (spans_expect _).advances
  exact hcondition.list.bind fun conditions => stays_pure fun hconditions hsource htarget =>
    htarget.pair (hsource.pair hconditions)

/-- The clauses of a comprehension. -/
theorem stays_forClauses (h : r.InPlace K) : Stays K (forClauses r) (NodesIn K) :=
  (stays_forClause h).bind fun _ => (stays_forClause h).list.bind fun _ =>
    stays_pure fun hrest hfirst => hfirst.cons hrest

/-- Whether a clause of a comprehension follows. -/
theorem advances_seesClause : Advances seesClause := by
  refine Advances.bind (spans_sees _).advances fun found => ?_
  exact Advances.bind (spans_sees _).advances fun _ => spans_pure fun _ => trivial

/-- The clauses behind an element and the closing bracket. -/
theorem stays_comprehension (h : r.InPlace K) (closer : String) (pos : Pos)
    (kind : ComprehensionKind) (element : Expr) :
    Stays K (do
      let clauses ← forClauses r
      close closer (Expr.comprehension pos kind element clauses)) fun e =>
        NodesIn K element → pos ∈ K → NodesIn K e :=
  (stays_forClauses h).bind fun _ => stays_close _ fun hclauses helement hpos =>
    .node hpos rfl (helement.pair hclauses)

/-- Further values behind a first one. -/
theorem nodesIn_more {first : Expr} {rest : Option (List Expr × Bool)} (hfirst : NodesIn K first)
    (hrest : ∀ found, rest = some found → NodesIn K found.1) :
    NodesIn K (first :: (rest.map (·.1)).getD []) := by
  cases rest with
  | none => exact hfirst.cons (.empty rfl)
  | some found => exact hfirst.cons (hrest found rfl)

/-- What starts with a parenthesis. -/
theorem places_parenthesized (h : r.InPlace K) : Places K (parenthesized r) := by
  refine Reads.here fun pos => Reads.expect (by decide) fun _ => ?_
  refine Stays.after (fun found => ?_) (spans_accept _).advances
  split
  · exact stays_pure fun hpos => .leaf hpos rfl rfl
  · refine Stays.after (fun found => ?_) (spans_sees _).advances
    split
    · exact (places_yieldExpression h).bind fun e => stays_close _ fun he _ => he
    · refine Stays.after (fun power => ?_) spans_peek.advances
      refine Stays.after (fun _ => ?_) (spans_mistake _).advances
      refine (places_starNamed h).bind fun first => ?_
      refine Stays.after (fun found => ?_) (spans_accept _).advances
      split
      · refine (places_starNamed h).listed.stays.maybe.bind fun rest => ?_
        exact stays_close _ fun hrest hfirst hpos => .node hpos rfl (nodesIn_more hfirst hrest)
      · refine Stays.after (fun _ => ?_) (spans_mistake _).advances
        split
        · refine Stays.after (fun _ => ?_) (spans_mistake _).advances
          exact stays_miss
        · refine Stays.after (fun found => ?_) advances_seesClause
          split
          · exact stays_comprehension h _ pos _ first
          · exact stays_close _ fun hfirst _ => hfirst

/-- What starts with a bracket. -/
theorem places_listAtom (h : r.InPlace K) : Places K (listAtom r) := by
  refine Reads.here fun pos => Reads.expect (by decide) fun _ => ?_
  refine Stays.after (fun found => ?_) (spans_accept _).advances
  split
  · exact stays_pure fun hpos => .leaf hpos rfl rfl
  · refine (places_starNamed h).listed.bind fun found => ?_
    obtain ⟨items, comma⟩ := found
    dsimp only
    refine Stays.after (fun _ => ?_) (spans_mistake _).advances
    split
    · rename_i first
      refine Stays.after (fun found => ?_) advances_seesClause
      split
      · exact (stays_comprehension h _ pos _ first).mono fun e he hitems =>
          he (hitems.of_mem List.mem_cons_self)
      · exact stays_close _ fun hitems hpos => .node hpos rfl hitems
    · exact stays_close _ fun hitems hpos => .node hpos rfl hitems

/-- An entry of a dictionary. -/
theorem stays_dictEntry (h : r.InPlace K) : Stays K (dictEntry r) (NodesIn K) := by
  refine Stays.after (fun found => ?_) (spans_accept _).advances
  split
  · exact (places_bitwiseOr h).bind fun e => stays_pure fun he => NodesIn.pair (.empty rfl) he
  · refine h.expression.bind fun key => ?_
    refine Stays.after (fun colon => ?_) spans_peek.advances
    refine Stays.after (fun _ => ?_) (spans_mistake _).advances
    refine Stays.after (fun _ => ?_) (spans_expect _).advances
    refine Stays.after (fun _ => ?_) (spans_mistake _).advances
    exact h.expression.bind fun value => stays_pure fun hvalue hkey => hkey.some.pair hvalue

/-- The rest of a dictionary behind its first entry. -/
theorem stays_dictRest (h : r.InPlace K) (pos : Pos) (first : Option Expr × Expr) :
    Stays K (dictRest r pos first) fun e => NodesIn K first → pos ∈ K → NodesIn K e := by
  have hone : Stays K (do expect ","; dictEntry r) (NodesIn K) :=
    Stays.after (fun _ => stays_dictEntry h) (spans_expect _).advances
  have hentries : Stays K (do
      let rest ← many (do expect ","; dictEntry r)
      let entries := first :: rest
      let _ ← accept ","
      close "\x7d" (Expr.dict pos (entries.map (·.1)) (entries.map (·.2)))) fun e =>
        NodesIn K first → pos ∈ K → NodesIn K e := by
    refine hone.list.bind fun rest => ?_
    refine Stays.after (fun comma => ?_) (spans_accept _).advances
    exact stays_close _ fun hrest hfirst hpos => .node hpos rfl (hfirst.cons hrest).unzip
  unfold dictRest
  dsimp only
  split
  · rename_i key value
    refine Stays.after (fun found => ?_) advances_seesClause
    split
    · refine (stays_forClauses h).bind fun clauses => ?_
      refine stays_close _ fun hclauses hfirst hpos => ?_
      obtain ⟨hkey, hvalue⟩ := hfirst.of_pair
      exact .node hpos rfl (NodesIn.pair (a := key) hkey (hvalue.pair hclauses))
    · exact hentries
  · exact hentries

/-- The rest of a set behind its first element. -/
theorem stays_setRest (h : r.InPlace K) (pos : Pos) (first : Expr) :
    Stays K (setRest r pos first) fun e => NodesIn K first → pos ∈ K → NodesIn K e := by
  have hone : Stays K (do expect ","; starNamed r) (NodesIn K) :=
    Stays.after (fun _ => (places_starNamed h).stays) (spans_expect _).advances
  refine hone.list.bind fun rest => ?_
  refine Stays.after (fun comma => ?_) (spans_accept _).advances
  refine Stays.after (fun _ => ?_) (spans_mistake _).advances
  refine Stays.after (fun found => ?_) advances_seesClause
  split
  · exact (stays_comprehension h _ pos _ first).mono fun e he _ hfirst => he hfirst
  · exact stays_close _ fun hrest hfirst hpos => .node hpos rfl (hfirst.cons hrest)

/-- What starts with a brace. -/
theorem places_braced (h : r.InPlace K) : Places K (braced r) := by
  refine Reads.here fun pos => Reads.expect (by decide) fun _ => ?_
  refine Stays.after (fun found => ?_) (spans_accept _).advances
  split
  · exact stays_pure fun hpos => .leaf hpos rfl rfl
  · refine Stays.after (fun token => ?_) spans_peek.advances
    refine Stays.after (fun found => ?_) (spans_accept _).advances
    split
    · refine (places_bitwiseOr h).bind fun value => ?_
      refine Stays.after (fun _ => ?_) (spans_mistake _).advances
      exact (stays_dictRest h pos (none, value)).mono fun e he hvalue =>
        he (NodesIn.pair (.empty rfl) hvalue)
    · split
      · exact (places_starNamed h).bind fun first => stays_setRest h pos first
      · refine Stays.after (fun found => ?_) (spans_seesNamed _).advances
        split
        · exact (places_walrus h).bind fun first => stays_setRest h pos first
        · refine Stays.after (fun start => ?_) rests_place.advances
          refine h.expression.bind fun first => ?_
          refine Stays.after (fun colon => ?_) spans_peek.advances
          refine Stays.after (fun found => ?_) (spans_accept _).advances
          split
          · refine Stays.after (fun _ => ?_) (spans_mistake _).advances
            refine h.expression.bind fun value => ?_
            exact (stays_dictRest h pos (some first, value)).mono fun e he hvalue hfirst =>
              he (hfirst.some.pair hvalue)
          · refine Stays.after (fun _ => ?_) (spans_mistake _).advances
            refine Stays.after (fun found => ?_) (spans_sees _).advances
            refine Stays.after (fun _ => ?_) (spans_guard _).advances
            exact stays_setRest h pos first

/-- Atoms. -/
theorem places_atom (h : r.InPlace K) : Places K (atom r) := by
  refine Reads.peek (fun token => ?_) fun token hword => ?_
  · split
    · exact places_nameAtom.stays.mono fun e he _ => he
    · exact (places_strings h).stays.mono fun e he _ => he
    · exact places_number.stays.mono fun e he _ => he
    · exact (places_parenthesized h).stays.mono fun e he _ => he
    · exact (places_listAtom h).stays.mono fun e he _ => he
    · exact (places_braced h).stays.mono fun e he _ => he
    · exact Stays.after (fun _ => stays_pure fun hpos => .leaf hpos rfl rfl) advances_advance
    · exact stays_miss
  · split
    · exact (places_nameAtom (K := K)).opens
    · exact (places_strings h).opens
    · exact (places_number (K := K)).opens
    · exact (places_parenthesized h).opens
    · exact (places_listAtom h).opens
    · exact (places_braced h).opens
    · rename_i htext
      exact absurd (.inl (htext ▸ by decide)) hword
    · exact opens_miss

end Typeward.Source
