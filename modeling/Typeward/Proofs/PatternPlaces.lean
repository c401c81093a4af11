import Typeward.Proofs.CallPlaces

/-!
# The places of patterns

The values and keys of patterns are expressions, and what they hold stands where the pattern does.
With this the rules that refer back to each other find nodes only at places of words that they come
to, however deep a text nests.
-/

namespace Typeward.Source

open Slots Parse

variable {K : Set Pos} {r : Rules}

/-- The expressions in patterns are those in a list of them. -/
theorem listParts_eq (items : List Pattern) : Pattern.listParts items = slots items := by
  induction items with
  | nil => rfl
  | cons item rest ih =>
    rw [Pattern.listParts, ih]
    rfl

/-- The nodes in a sequence are those in its items. -/
theorem NodesIn.sequence {items : List Pattern} (h : NodesIn K items) (pos : Pos) :
    NodesIn K (Pattern.sequence pos items) :=
  h.of_slots (listParts_eq items)

/-- The nodes in alternatives are those in each of them. -/
theorem NodesIn.alternatives {items : List Pattern} (h : NodesIn K items) (pos : Pos) :
    NodesIn K (Pattern.alternatives pos items) :=
  h.of_slots (listParts_eq items)

/-- The nodes in a mapping are those in its keys and items. -/
theorem NodesIn.mapping {keys : List Expr} {items : List Pattern} (h : NodesIn K (keys, items))
    (pos : Pos) (remaining : Option String) :
    NodesIn K (Pattern.mapping pos keys items remaining) := by
  refine h.of_slots ?_
  change keys ++ Pattern.listParts items = listSlots keys ++ slots items
  rw [listParts_eq, listSlots_expr]

/-- The nodes in the pattern of a class are those in the class and in the items. -/
theorem NodesIn.ofClass {cls : Expr} {items named : List Pattern}
    (h : NodesIn K (cls, items, named)) (pos : Pos) (names : List String) :
    NodesIn K (Pattern.ofClass pos cls items names named) := by
  refine h.of_slots ?_
  change cls :: (Pattern.listParts items ++ Pattern.listParts named) =
    cls :: (slots items ++ slots named)
  rw [listParts_eq, listParts_eq]

/-- Numbers, with a sign or not. -/
theorem places_signedNumber : Places K signedNumber := by
  refine Reads.here fun pos => ?_
  refine Reads.accept (by decide) (fun found => ?_) (places_number (K := K)).opens
  split
  · exact places_number.bind fun e => stays_pure fun he hpos => .node hpos rfl he
  · exact places_number.stays.mono fun e he _ => he

/-- What is read behind the first number of a literal, and the operator if there is one. -/
def numberBehind (pos : Pos) (first : Expr) : Option BinaryOp → Parse Expr
  | none => return first
  | some op => do
    let real : Bool := match first with
      | .unary _ _ operand => ! isImaginary operand
      | e => ! isImaginary e
    let second ← number
    if ! real then failAtPos first.pos "real number required"
    if ! isImaginary second then failAtPos second.pos "imaginary number required"
    return .binary pos first op second

/-- Numbers, and sums of a real and an imaginary one. -/
theorem places_numberLiteral : Places K numberLiteral := by
  refine Reads.here fun pos => ?_
  refine places_signedNumber.first fun first => ?_
  have hsecond (op : Option BinaryOp) :
      Stays K (numberBehind pos first op) fun e => NodesIn K first → pos ∈ K → NodesIn K e := by
    cases op with
    | none => exact stays_pure fun hfirst _ => hfirst
    | some op =>
      refine places_number.bind fun second => ?_
      refine Stays.unless (Stays.unless ?_ spans_failAtPos) spans_failAtPos
      exact stays_pure fun hsecond hfirst hpos => .node hpos rfl (hfirst.pair hsecond)
  refine Stays.after (fun found => ?_) (spans_accept _).advances
  dsimp only
  split
  · exact Stays.after hsecond (spans_pure fun _ => trivial)
  · refine Stays.after (fun found => ?_) (spans_accept _).advances
    split
    · exact Stays.after hsecond (spans_pure fun _ => trivial)
    · exact Stays.after hsecond (spans_pure fun _ => trivial)

/-- Names, and chains of attributes on them. -/
theorem places_dottedExpression : Places K dottedExpression := by
  refine Reads.here fun pos => Reads.past (fun id => ?_) advances_name opens_name
  have hstep (base : Expr) : Stays K (do
      expect "."
      return Expr.attribute pos base (← name)) fun e =>
        NodesIn K base → pos ∈ K → NodesIn K e := by
    refine Stays.after (fun _ => ?_) (spans_expect _).advances
    exact Stays.after (fun attr => stays_pure fun hbase hpos => .node hpos rfl hbase) advances_name
  exact (Stays.extendIf hstep (Expr.name pos id)).mono fun e he hpos =>
    he (.leaf hpos rfl rfl) hpos

/-- Names that patterns capture are read. -/
theorem advances_captureName : Advances captureName := by
  refine Advances.bind (spans_sees _).advances fun found => ?_
  exact (spans_guard _).advances.bind fun _ => advances_name

/-- Literals that are matched by equality. -/
theorem stays_literalExpression (h : r.InPlace K) : Stays K (literalExpression r) (NodesIn K) := by
  refine Stays.after (fun token => ?_) spans_peek.advances
  split
  · exact (places_strings h).stays
  · exact places_numberLiteral.stays

/-- Keys of mappings. -/
theorem stays_patternKey (h : r.InPlace K) : Stays K (patternKey r) (NodesIn K) := by
  refine Stays.after (fun token => ?_) spans_peek.advances
  split
  · exact places_nameAtom.stays
  · exact places_nameAtom.stays
  · exact places_nameAtom.stays
  · exact (stays_literalExpression h).orElse places_dottedExpression.stays

/-- Constants that are matched by identity. -/
theorem stays_singletonPattern : Stays K singletonPattern (NodesIn K) := by
  refine Stays.after (fun token => ?_) spans_peek.advances
  refine Stays.after (fun _ => ?_) advances_advance
  split
  · exact stays_pure (.empty rfl)
  · exact stays_pure (.empty rfl)
  · exact stays_pure (.empty rfl)
  · exact stays_miss

/-- What a star in a sequence captures. -/
theorem stays_starPattern : Stays K starPattern (NodesIn K) := by
  refine Stays.after (fun pos => ?_) spans_here.advances
  refine Stays.after (fun _ => ?_) (spans_expect _).advances
  refine Stays.after (fun found => ?_) (spans_accept _).advances
  split
  · exact stays_pure (.empty rfl)
  · exact Stays.after (fun id => stays_pure (.empty rfl)) advances_captureName

/-- Items of sequences. -/
theorem stays_sequenceItem (h : r.InPlace K) : Stays K (sequenceItem r) (NodesIn K) := by
  refine Stays.after (fun found => ?_) (spans_sees _).advances
  split
  · exact stays_starPattern
  · exact h.pattern

/-- Sequences in brackets, and patterns in parentheses. -/
theorem stays_bracketedPattern (h : r.InPlace K) (opener closer : String) :
    Stays K (bracketedPattern r opener closer) (NodesIn K) := by
  refine Stays.after (fun pos => ?_) spans_here.advances
  refine Stays.after (fun _ => ?_) (spans_expect _).advances
  refine Stays.after (fun found => ?_) (spans_accept _).advances
  split
  · exact stays_pure (.empty rfl)
  · refine (stays_sequenceItem h).listed.bind fun found => ?_
    obtain ⟨items, comma⟩ := found
    refine Stays.after (fun _ => ?_) (spans_expect _).advances
    dsimp only
    split
    · split
      · refine Stays.after (fun _ => ?_) (spans_guard _).advances
        exact stays_pure fun hitems => hitems.of_mem List.mem_cons_self
      · exact stays_pure fun hitems => hitems.sequence pos
    · exact stays_pure fun hitems => hitems.sequence pos

/-- Mappings. -/
theorem stays_mappingPattern (h : r.InPlace K) : Stays K (mappingPattern r) (NodesIn K) := by
  refine Stays.after (fun pos => ?_) spans_here.advances
  refine Stays.after (fun _ => ?_) (spans_expect _).advances
  have hentry : Stays K (do
      let key ← patternKey r
      expect ":"
      return (key, ← r.pattern)) (NodesIn K) := by
    refine (stays_patternKey h).bind fun key => ?_
    refine Stays.after (fun _ => ?_) (spans_expect _).advances
    exact h.pattern.bind fun item => stays_pure fun hitem hkey => hkey.pair hitem
  refine hentry.separated.optional.bind fun found => ?_
  have hentries : NodesIn K found → NodesIn K (found.getD []) := by
    cases found with
    | none => exact fun _ => .empty rfl
    | some entries => exact fun hentries => hentries
  have hremaining : Advances (do
      if ! (found.getD []).isEmpty then expect ","
      expect "**"
      captureName) :=
    Advances.unless (spans_expect _).advances
      (Advances.bind (spans_expect _).advances fun _ => advances_captureName)
  refine Stays.after (fun remaining => ?_) hremaining.optional
  refine Stays.unless ?_ (spans_accept _).advances
  refine Stays.after (fun _ => ?_) (spans_expect _).advances
  exact stays_pure fun hfound => (hentries hfound).unzip.mapping pos remaining

/-- Patterns for the attributes of a class. -/
theorem stays_classPattern (h : r.InPlace K) (pos : Pos) (cls : Expr) :
    Stays K (classPattern r pos cls) fun p => NodesIn K cls → NodesIn K p := by
  refine Stays.after (fun _ => ?_) (spans_expect _).advances
  have hkeyword : Stays K (do
      let id ← name
      expect "="
      return (id, ← r.pattern)) fun item => NodesIn K item.2 := by
    refine Stays.after (fun id => ?_) advances_name
    refine Stays.after (fun _ => ?_) (spans_expect _).advances
    exact h.pattern.bind fun item => stays_pure fun hitem => hitem
  have hpositional : Stays K (do
      guard (! (← seesNamed "="))
      r.pattern) (NodesIn K) := by
    refine Stays.after (fun found => ?_) (spans_seesNamed _).advances
    exact Stays.after (fun _ => h.pattern) (spans_guard _).advances
  refine hpositional.separated.optional.bind fun found => ?_
  have hitems : NodesIn K found → NodesIn K (found.getD []) := by
    cases found with
    | none => exact fun _ => .empty rfl
    | some items => exact fun hitems => hitems
  have hnamed : Stays K (optional do
      if ! (found.getD []).isEmpty then expect ","
      separated do
        let id ← name
        expect "="
        return (id, ← r.pattern)) fun named =>
          NodesIn K ((named.getD []).map (·.2)) := by
    refine (Stays.unless hkeyword.each (spans_expect _).advances).maybe.mono fun named h => ?_
    refine NodesIn.list fun item hitem => ?_
    obtain ⟨pair, hpair, rfl⟩ := List.mem_map.1 hitem
    cases named with
    | none => exact absurd hpair List.not_mem_nil
    | some named => exact h named rfl pair hpair
  refine hnamed.bind fun named => ?_
  refine Stays.unless (Stays.unless ?_ (spans_mistake _).advances) (spans_accept _).advances
  refine Stays.after (fun _ => ?_) (spans_expect _).advances
  exact stays_pure fun hnamed hfound hcls =>
    NodesIn.ofClass (hcls.pair ((hitems hfound).pair hnamed)) pos _

/-- Patterns that start with a name. -/
theorem stays_namePattern (h : r.InPlace K) : Stays K (namePattern r) (NodesIn K) := by
  refine Stays.after (fun pos => ?_) spans_here.advances
  refine Stays.after (fun found => ?_) (spans_accept _).advances
  split
  · exact stays_pure (.empty rfl)
  · refine places_dottedExpression.bind fun cls => ?_
    refine Stays.after (fun found => ?_) (spans_sees _).advances
    split
    · exact stays_classPattern h pos cls
    · split
      · refine Stays.after (fun found => ?_) (spans_sees _).advances
        refine Stays.after (fun _ => ?_) (spans_guard _).advances
        exact stays_pure fun _ => .empty rfl
      · refine Stays.after (fun found => ?_) (spans_sees _).advances
        refine Stays.after (fun _ => ?_) (spans_guard _).advances
        exact stays_pure fun hcls => hcls

/-- Patterns without alternatives. -/
theorem stays_closedPattern (h : r.InPlace K) : Stays K (closedPattern r) (NodesIn K) := by
  refine Stays.after (fun token => ?_) spans_peek.advances
  split
  · exact stays_singletonPattern
  · exact stays_singletonPattern
  · exact stays_singletonPattern
  · exact stays_namePattern h
  · exact stays_bracketedPattern h _ _
  · exact stays_bracketedPattern h _ _
  · exact stays_mappingPattern h
  · exact (stays_literalExpression h).bind fun e => stays_pure fun he => he

/-- Alternatives. -/
theorem stays_alternatives (h : r.InPlace K) : Stays K (alternatives r) (NodesIn K) := by
  refine Stays.after (fun pos => ?_) spans_here.advances
  refine (stays_closedPattern h).bind fun first => ?_
  have hmore : Stays K (do expect "|"; closedPattern r) (NodesIn K) :=
    Stays.after (fun _ => stays_closedPattern h) (spans_expect _).advances
  refine hmore.list.bind fun rest => stays_pure fun hrest hfirst => ?_
  split
  · exact hfirst
  · exact (hfirst.cons hrest).alternatives pos

/-- Patterns, with a name for what they match or not. -/
theorem stays_pattern (h : r.InPlace K) : Stays K (pattern r) (NodesIn K) := by
  refine Stays.after (fun pos => ?_) spans_here.advances
  refine (stays_alternatives h).bind fun inner => ?_
  refine Stays.after (fun bound => ?_) ?_
  · split
    · exact stays_pure fun hinner => hinner
    · exact stays_pure fun hinner => hinner
  · refine Advances.optional ?_
    refine Advances.bind (spans_expect _).advances fun _ => ?_
    refine Advances.bind (spans_mistake _).advances fun _ => ?_
    refine advances_captureName.bind fun id => ?_
    refine Advances.bind (spans_sees _).advances fun found => ?_
    refine Advances.bind (spans_sees _).advances fun found => ?_
    refine Advances.bind (spans_sees _).advances fun found => ?_
    exact (spans_guard _).advances.bind fun _ => spans_pure fun _ => trivial

/-- The pattern of a case. -/
theorem stays_casePattern (h : r.InPlace K) : Stays K (casePattern r) (NodesIn K) := by
  refine Stays.after (fun pos => ?_) spans_here.advances
  refine (stays_sequenceItem h).listed.bind fun found => ?_
  obtain ⟨items, comma⟩ := found
  dsimp only
  split
  · split
    · exact stays_pure fun hitems => hitems.sequence pos
    · refine Stays.after (fun _ => ?_) (spans_guard _).advances
      exact stays_pure fun hitems => hitems.of_mem List.mem_cons_self
  · exact stays_pure fun hitems => hitems.sequence pos

/-- Nodes are found at places that the rules come to, however deep a text nests. -/
theorem inPlace_rules (n : Nat) : (rules n).InPlace K := by
  induction n with
  | zero => exact ⟨reads_miss, reads_miss, reads_miss, reads_miss, stays_miss⟩
  | succ n ih =>
    exact ⟨places_expression ih, places_inversion ih, places_factor ih, places_primary ih,
      stays_pattern ih⟩

end Typeward.Source
