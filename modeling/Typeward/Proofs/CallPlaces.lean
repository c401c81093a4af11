import Typeward.Proofs.AtomPlaces

/-!
# The places of primaries

An attribute, a subscript and a call start where what they are read behind does. The nodes in the
arguments of calls, in subscripts and in the operands of powers and signs stand behind it.
-/

namespace Typeward.Source

open Slots Parse

variable {K : Set Pos} {r : Rules}

/-- What follows the first colon of a slice. -/
theorem reads_sliceFrom (h : r.InPlace K) (pos : Pos) (lower : Option Expr) :
    Reads K (do
      expect ":"
      let upper ← optional r.expression
      let step ← if ← accept ":" then optional r.expression else pure none
      return Expr.slice pos lower upper step) fun e => NodesIn K lower → pos ∈ K → NodesIn K e := by
  have hbound : Stays K (optional r.expression) (NodesIn K) := h.expression.stays.optional
  refine Reads.expect (by decide) fun _ => ?_
  refine hbound.bind fun upper => ?_
  have hslice (step : Option Expr) : Stays K (pure (Expr.slice pos lower upper step)) fun e =>
      NodesIn K step → NodesIn K upper → NodesIn K lower → pos ∈ K → NodesIn K e :=
    stays_pure fun hstep hupper hlower hpos => .node hpos rfl (hlower.pair (hupper.pair hstep))
  refine Stays.after (fun found => ?_) (spans_accept _).advances
  dsimp only
  split
  · exact hbound.bind hslice
  · exact (hslice none).mono fun e he => he (.empty rfl)

/-- Slices and indices. -/
theorem places_slice (h : r.InPlace K) : Places K (slice r) := by
  refine Reads.look fun token => ?_
  refine Reads.behind (fun start => ?_) rests_place
  dsimp only
  split
  · exact (reads_sliceFrom h token.pos none).mono fun e he => he (.empty rfl)
  · refine Reads.behind (fun found => ?_) (rests_seesNamed _)
    split
    · exact (places_walrus h).mono fun e he _ => he
    · refine h.expression.first fun first => ?_
      refine Stays.after (fun found => ?_) (spans_sees _).advances
      split
      · exact (reads_sliceFrom h token.pos (some first)).stays
      · refine Stays.after (fun _ => ?_) (spans_mistake _).advances
        refine Stays.after (fun found => ?_) (spans_sees _).advances
        refine Stays.after (fun _ => ?_) (spans_guard _).advances
        exact stays_pure fun hfirst _ => hfirst

/-- What stands in the brackets of a subscript. -/
theorem places_slices (h : r.InPlace K) : Places K (slices r) := by
  refine Reads.here fun pos => ?_
  have hitem : Places K (do if ← sees "*" then starredExpression r else slice r) := by
    refine Reads.behind (fun found => ?_) (rests_sees _)
    split
    · exact places_starredExpression h
    · exact places_slice h
  refine hitem.listed.first fun found => ?_
  obtain ⟨items, comma⟩ := found
  dsimp only
  split
  · refine stays_pure fun hitems hpos => ?_
    split
    · exact .node hpos rfl hitems
    · exact hitems.of_mem List.mem_cons_self
  · exact stays_pure fun hitems hpos => .node hpos rfl hitems

/-- The nodes in the arguments of a call start at places of a set. -/
abbrev Arguments.NodesIn (K : Set Pos) (a : Arguments) : Prop :=
  Source.NodesIn K (a.positional, a.keywords)

/-- One more argument without a name. -/
theorem Arguments.NodesIn.positional {before : Arguments} {e : Expr} (h : before.NodesIn K)
    (he : Source.NodesIn K e) :
    Arguments.NodesIn K { before with positional := before.positional ++ [e] } := by
  obtain ⟨hpositional, hkeywords⟩ := h.of_pair
  exact Source.NodesIn.pair (hpositional.append (he.cons (.empty rfl))) hkeywords

/-- One more argument with a name, or an unpacked mapping. -/
theorem Arguments.NodesIn.keyword {before : Arguments} {e : Expr} (h : before.NodesIn K)
    (he : Source.NodesIn K e) (id : Option String) (unpacked : Bool) :
    Arguments.NodesIn K
      { before with keywords := before.keywords ++ [⟨id, e⟩], unpacked := unpacked } := by
  obtain ⟨hpositional, hkeywords⟩ := h.of_pair
  have hkeyword : Source.NodesIn K (Keyword.mk id e) := he
  exact Source.NodesIn.pair hpositional (hkeywords.append (hkeyword.cons (.empty rfl)))

/-- One more argument. -/
theorem stays_argument (h : r.InPlace K) (start : Pos) (isFirst : Bool) (before : Arguments) :
    Stays K (argument r start isFirst before) fun all => before.NodesIn K → all.NodesIn K := by
  refine Stays.after (fun token => ?_) spans_peek.advances
  split
  · split
    · exact Stays.after (fun _ => stays_miss) (spans_mistake _).advances
    · exact (places_starredExpression h).bind fun e => stays_pure fun he hbefore =>
        hbefore.positional he
  · refine Stays.after (fun found => ?_) (spans_accept _).advances
    split
    · exact h.expression.bind fun e => stays_pure fun he hbefore => hbefore.keyword he none true
    · refine Stays.after (fun found => ?_) (spans_seesNamed _).advances
      split
      · refine Stays.after (fun id => ?_) advances_name
        refine Stays.after (fun _ => ?_) (spans_expect _).advances
        refine h.expression.bind fun e => ?_
        refine Stays.after (fun _ => ?_) (spans_mistake _).advances
        exact stays_pure fun he hbefore => hbefore.keyword he (some id) before.unpacked
      · have hpositional (e : Expr) : Stays K (do
            guard (! (← sees ":="))
            mistake do
              guard (← sees "=")
              failAtPos e.pos "an argument's name has to be a name"
            guard (! (← sees "="))
            mistake do
              guard (← seesClause)
              let _ ← forClauses r
              if ! isFirst || (← sees ",") then failAtPos e.pos "a generator needs brackets"
            guard before.keywords.isEmpty
            return { before with positional := before.positional ++ [e] }) fun all =>
              NodesIn K e → before.NodesIn K → Arguments.NodesIn K all := by
          refine Stays.after (fun found => ?_) (spans_sees _).advances
          refine Stays.after (fun _ => ?_) (spans_guard _).advances
          refine Stays.after (fun _ => ?_) (spans_mistake _).advances
          refine Stays.after (fun found => ?_) (spans_sees _).advances
          refine Stays.after (fun _ => ?_) (spans_guard _).advances
          refine Stays.after (fun _ => ?_) (spans_mistake _).advances
          refine Stays.after (fun _ => ?_) (spans_guard _).advances
          exact stays_pure fun he hbefore => hbefore.positional he
        refine Stays.after (fun found => ?_) (spans_seesNamed _).advances
        dsimp only
        split
        · exact (places_walrus h).bind hpositional
        · exact h.expression.bind hpositional

/-- The arguments of a call. -/
theorem stays_arguments (h : r.InPlace K) :
    Stays K (arguments r) (Arguments.NodesIn K) := by
  refine Stays.after (fun start => ?_) spans_here.advances
  have hmore (before : Arguments) : Stays K (moreArguments r start before) fun all =>
      before.NodesIn K → all.NodesIn K :=
    Stays.extend (fun before => Stays.after (fun _ => stays_argument h start false before)
      (spans_expect _).advances) before
  refine (stays_argument h start true {}).bind fun first => ?_
  refine (hmore first).bind fun all => ?_
  refine Stays.after (fun _ => ?_) (spans_mistake _).advances
  refine Stays.after (fun found => ?_) (spans_accept _).advances
  exact stays_pure fun hall hfirst => hall (hfirst (.empty rfl))

/-- A call starts where its function does, and a generator alone in its brackets at these. -/
theorem reads_callOf (h : r.InPlace K) (pos : Pos) (func : Expr) :
    Reads K (callOf r pos func) fun e => NodesIn K func → pos ∈ K → NodesIn K e := by
  have hcall {args : List Expr} {keywords : List (Keyword Expr)} (hpos : pos ∈ K)
      (hfunc : NodesIn K func) (hargs : NodesIn K (args, keywords)) :
      NodesIn K (Expr.call pos func args keywords none) := .node hpos rfl (hfunc.pair hargs)
  refine Reads.here fun bracket => Reads.expect (by decide) fun _ => ?_
  refine Stays.after (fun found => ?_) (spans_accept _).advances
  split
  · exact stays_pure fun _ hfunc hpos => hcall hpos hfunc (.empty rfl)
  · refine (stays_arguments h).bind fun given => ?_
    have hclose : Stays K (close ")" (Expr.call pos func given.positional given.keywords none))
        fun e => given.NodesIn K → bracket ∈ K → NodesIn K func → pos ∈ K → NodesIn K e :=
      stays_close _ fun hgiven _ hfunc hpos => hcall hpos hfunc hgiven
    dsimp only
    split
    · rename_i only hpositional hkeywords
      refine Stays.after (fun found => ?_) advances_seesClause
      split
      · refine (stays_forClauses h).bind fun clauses => ?_
        refine stays_close _ fun hclauses hgiven hbracket hfunc hpos => ?_
        have honly : NodesIn K only := by
          have hmem : only ∈ given.positional := hpositional ▸ List.mem_cons_self
          exact hgiven.of_pair.1.of_mem hmem
        have hgenerator : NodesIn K (Expr.comprehension bracket .generator only clauses) :=
          .node hbracket rfl (honly.pair hclauses)
        exact hcall hpos hfunc (NodesIn.pair (hgenerator.cons (.empty rfl)) (.empty rfl))
      · exact hclose
    · exact hclose

/-- One step from a primary to a longer one, that starts at the same place. -/
theorem stays_primaryStep (h : r.InPlace K) (pos : Pos) (base : Expr) :
    Stays K (primaryStep r pos base) fun e => NodesIn K base → pos ∈ K → NodesIn K e := by
  refine Stays.after (fun token => ?_) spans_peek.advances
  split
  · refine Stays.after (fun _ => ?_) advances_advance
    exact Stays.after (fun id => stays_pure fun hbase hpos => .node hpos rfl hbase) advances_name
  · exact (reads_callOf h pos base).stays
  · exact (stays_bracketed "[" "]" (places_slices h).stays).bind fun index =>
      stays_pure fun hindex hbase hpos => .node hpos rfl (hbase.pair hindex)
  · exact stays_miss

/-- Atoms, their attributes and parts, and calls. -/
theorem places_primary (h : r.InPlace K) : Places K (primary r) := by
  refine Reads.here fun pos => ?_
  exact (places_atom h).first fun first => Stays.extendIf (stays_primaryStep h pos) first

/-- A base with the exponent that is read behind it, if there is one. -/
def powerOf (r : Rules) (pos : Pos) (base : Expr) : Parse Expr := do
  match ← optional (do expect "**"; r.factor) with
  | some e => return .binary pos base .pow e
  | none => return base

/-- Powers, and primaries that are awaited. -/
theorem places_power (h : r.InPlace K) : Places K (power r) := by
  refine Reads.here fun pos => ?_
  have hexponent (base : Expr) :
      Stays K (powerOf r pos base) fun e => NodesIn K base → pos ∈ K → NodesIn K e := by
    have hfactor : Stays K (do expect "**"; r.factor) (NodesIn K) :=
      Stays.after (fun _ => h.factor.stays) (spans_expect _).advances
    refine hfactor.optional.bind fun exponent => ?_
    cases exponent with
    | some e => exact stays_pure fun he hbase hpos => .node hpos rfl (hbase.pair he)
    | none => exact stays_pure fun _ hbase _ => hbase
  refine Reads.accept (by decide) (fun found => ?_) (places_primary h).opens.bind
  dsimp only
  split
  · have hawait : Stays K (Expr.await pos <$> primary r) fun e => pos ∈ K → NodesIn K e :=
      (places_primary h).bind fun e => stays_pure fun he hpos => .node hpos rfl he
    exact hawait.bind fun base => (hexponent base).mono fun e he hbase hpos => he (hbase hpos) hpos
  · exact (places_primary h).bind hexponent

/-- Powers with signs in front. -/
theorem places_factor (h : r.InPlace K) : Places K (factor r) := by
  have hsigned (token : Token) (op : UnaryOp) : Stays K (do
      advance
      return Expr.unary token.pos op (← r.factor)) fun e => token.pos ∈ K → NodesIn K e := by
    refine Stays.after (fun _ => ?_) advances_advance
    exact h.factor.bind fun e => stays_pure fun he hpos => .node hpos rfl he
  refine Reads.peek (fun token => ?_) fun token hword => ?_
  · dsimp only
    split
    · exact hsigned token _
    · exact hsigned token _
    · exact hsigned token _
    · exact (places_power h).stays.mono fun e he _ => he
  · rw [token.text_of_not_isWord hword]
    exact (places_power h).opens

end Typeward.Source
