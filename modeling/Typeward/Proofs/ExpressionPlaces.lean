import Typeward.Proofs.RuleSpans

/-!
# The places of expressions

The nodes in an expression start at words between the place where the expression starts and the
place where the next token starts. The fields of formatted strings are no exception, since a string
token holds all that is read in them.
-/

namespace Typeward.Source

open Slots Parse

variable {α β : Type} {K : Set Pos} {r : Rules}

namespace Parse

/-- What a rule finds satisfies a condition if all places of words that it comes to are in a set. -/
def Stays (K : Set Pos) (rule : Parse α) (P : α → Prop) : Prop :=
  ∀ ⦃i p x q⦄, i.lexed.Ordered → rule i p = .found x q →
    p.index ≤ q.index ∧ (i.lexed.wordsBetween p.index q.index ⊆ K → P x)

/-- As `Stays`, of a rule that opens with a word. -/
structure Reads (K : Set Pos) (rule : Parse α) (P : α → Prop) : Prop where
  stays : Stays K rule P
  opens : Opens rule

/-- A rule opens with a word, and the nodes in what it finds start at words that it comes to. -/
abbrev Places (K : Set Pos) [Slots α] (rule : Parse α) : Prop := Reads K rule (NodesIn K)

variable {rule : Parse α} {next : α → Parse β} {P P' : α → Prop} {Q : β → Prop}

/-- What holds of everything that a rule finds, wherever it comes to. -/
theorem Spans.stays (h : Spans rule fun _ _ => P) : Stays K rule P :=
  fun _ _ _ _ hi hfound => ⟨(h hi hfound).1, fun _ => (h hi hfound).2⟩

/-- What holds of everything that is found may be weakened. -/
theorem Stays.mono (h : Stays K rule P) (hP : ∀ x, P x → P' x) : Stays K rule P' :=
  fun _ _ x _ hi hfound => ⟨(h hi hfound).1, fun hK => hP x ((h hi hfound).2 hK)⟩

/-- A rule never moves back. -/
theorem Stays.advances (h : Stays K rule P) : Advances rule :=
  fun _ _ _ _ hi hfound => ⟨(h hi hfound).1, trivial⟩

/-- What is found without reading. -/
theorem stays_pure {x : α} (h : P x) : Stays K (pure x) P :=
  Spans.stays (spans_pure fun _ => h)

/-- A rule that misses finds nothing. -/
theorem stays_miss : Stays K miss P := Spans.stays spans_miss

/-- What two rules find after each other. -/
theorem Stays.bind (h : Stays K rule P) (hnext : ∀ x, Stays K (next x) fun y => P x → Q y) :
    Stays K (rule >>= next) Q := by
  intro i p y q hi hfound
  obtain ⟨x, p', hx, hfound⟩ := bind_eq_found.1 hfound
  obtain ⟨hle, hP⟩ := h hi hx
  obtain ⟨hle', hQ⟩ := hnext x hi hfound
  refine ⟨hle.trans hle', fun hK => hQ ?_ (hP ?_)⟩
  · exact (hi.wordsBetween_subset hle le_rfl).trans hK
  · exact (hi.wordsBetween_subset le_rfl hle').trans hK

/-- As `Stays.bind`, where nothing is known of what the first rule finds. -/
theorem Stays.after (hnext : ∀ x, Stays K (next x) Q) (h : Advances rule) :
    Stays K (rule >>= next) Q :=
  Stays.bind (P := fun _ => True) (Spans.stays h) fun x => (hnext x).mono fun _ hy _ => hy

/-- As `Stays.after`, where the first rule is left out unless a condition holds. -/
theorem Stays.unless {c : Prop} [Decidable c] {rule : Parse α} {next : Parse β}
    (hnext : Stays K next Q) (h : Advances rule) :
    Stays K (if c then rule >>= fun _ => next else next) Q := by
  split
  · exact Stays.after (fun _ => hnext) h
  · exact hnext

/-- What one of two rules finds. -/
theorem Stays.orElse {other : Parse α} (h : Stays K rule P) (hother : Stays K other P) :
    Stays K (rule <|> other) P := by
  intro i p x q hi hfound
  change Parse.orElse rule (fun _ => other) i p = _ at hfound
  unfold Parse.orElse at hfound
  split at hfound
  · rename_i seen _
    exact @hother i ⟨p.index, seen⟩ x q hi hfound
  · exact h hi hfound

/-- What a rule finds, if it finds something. -/
theorem Stays.maybe (h : Stays K rule P) :
    Stays K (Parse.optional rule) fun found => ∀ x, found = some x → P x := by
  refine Stays.orElse ?_ (stays_pure nofun)
  exact Stays.bind h fun x => stays_pure fun hx y hy => Option.some.inj hy ▸ hx

/-- What a rule finds that reads on from a value as often as it can. -/
theorem Stays.extend {step : α → Parse α} (h : ∀ x, Stays K (step x) fun y => P x → P y) (x : α) :
    Stays K (extend step x) fun y => P x → P y := by
  have hextended (fuel : Nat) : ∀ x, Stays K (extended step x fuel) fun y => P x → P y := by
    induction fuel with
    | zero => exact fun x => stays_pure fun hx => hx
    | succ fuel ih =>
      intro x
      refine (h x).maybe.bind fun found => ?_
      cases found with
      | none => exact stays_pure fun _ hx => hx
      | some y => exact (ih y).mono fun z hz hfound hx => hz (hfound y rfl hx)
  exact fun i p y q hi hfound => hextended _ x hi hfound

/-- As `Stays.extend`, under a condition. -/
theorem Stays.extendIf {c : Prop} {step : α → Parse α}
    (h : ∀ x, Stays K (step x) fun y => P x → c → P y) (x : α) :
    Stays K (Parse.extend step x) fun y => P x → c → P y := by
  have hstep (x : α) : Stays K (step x) fun y => (c → P x) → c → P y :=
    (h x).mono fun y hy hx hc => hy (hx hc) hc
  exact (Stays.extend hstep x).mono fun y hy hx => hy fun _ => hx

/-- What a repeated rule finds. -/
theorem Stays.many (h : Stays K rule P) : Stays K (many rule) fun xs => ∀ x ∈ xs, P x := by
  have hrepeated (fuel : Nat) : Stays K (repeated rule fuel) fun xs => ∀ x ∈ xs, P x := by
    induction fuel with
    | zero => exact stays_pure (List.forall_mem_nil _)
    | succ fuel ih =>
      refine h.maybe.bind fun found => ?_
      cases found with
      | none => exact stays_pure fun _ => List.forall_mem_nil _
      | some x =>
        exact ih.bind fun xs => stays_pure fun hxs hx => List.forall_mem_cons.2 ⟨hx x rfl, hxs⟩
  exact fun i p xs q hi hfound => hrepeated _ hi hfound

/-- What a rule finds with commas between. -/
theorem Stays.each (h : Stays K rule P) : Stays K (separated rule) fun xs => ∀ x ∈ xs, P x := by
  have hmore : Stays K (do expect ","; rule) P :=
    Stays.after (fun _ => h) (spans_expect _).advances
  exact h.bind fun first => hmore.many.bind fun rest => stays_pure fun hrest hfirst =>
    List.forall_mem_cons.2 ⟨hfirst, hrest⟩

/-- A repeated rule never moves back. -/
theorem Advances.many (h : Advances rule) : Advances (many rule) :=
  Spans.many h (fun _ => trivial) fun _ _ _ _ _ _ _ _ _ => trivial

/-- A rule with commas between never moves back. -/
theorem Advances.separated (h : Advances rule) : Advances (separated rule) := by
  have hmore : Advances (do expect ","; rule) := Advances.bind (spans_expect _).advances fun _ => h
  exact h.bind fun first => hmore.many.bind fun rest => spans_pure fun _ => trivial

/-- As `Advances.separated`, with one more comma or without. -/
theorem Advances.listed (h : Advances rule) : Advances (listed rule) :=
  h.separated.bind fun _ => Advances.bind (spans_accept _).advances fun _ =>
    spans_pure fun _ => trivial

/-- A rule that may miss never moves back. -/
theorem Advances.optional (h : Advances rule) : Advances (optional rule) :=
  (Spans.optional h).advances

/-- What a rule finds that opens with a word, and another one behind it. -/
theorem Reads.bind (h : Reads K rule P) (hnext : ∀ x, Stays K (next x) fun y => P x → Q y) :
    Stays K (rule >>= next) Q :=
  h.stays.bind hnext

/-- As `Reads.bind`, with the word that the first rule opens with. -/
theorem Reads.first (h : Reads K rule P) (hnext : ∀ x, Stays K (next x) fun y => P x → Q y) :
    Reads K (rule >>= next) Q :=
  ⟨h.stays.bind hnext, h.opens.bind⟩

/-- A rule never moves back. -/
theorem Reads.advances (h : Reads K rule P) : Advances rule := h.stays.advances

/-- What holds of everything that is found may be weakened. -/
theorem Reads.mono (h : Reads K rule P) (hP : ∀ x, P x → P' x) : Reads K rule P' :=
  ⟨h.stays.mono hP, h.opens⟩

/-- A rule that misses finds nothing. -/
theorem reads_miss : Reads K miss P := ⟨stays_miss, opens_miss⟩

/-- What one of two rules finds. -/
theorem Reads.orElse {other : Parse α} (h : Reads K rule P) (hother : Reads K other P) :
    Reads K (rule <|> other) P :=
  ⟨h.stays.orElse hother.stays, h.opens.orElse hother.opens⟩

/-- What is read behind a word of which nothing is known. -/
theorem Reads.past (hnext : ∀ x, Stays K (next x) Q) (h : Advances rule) (hopens : Opens rule) :
    Reads K (rule >>= next) Q :=
  ⟨Stays.after hnext h, hopens.bind⟩

/-- What is read behind a certain word. -/
theorem Reads.expect {text : String} {next : Unit → Parse β} (hne : text ≠ "")
    (hnext : ∀ x, Stays K (next x) Q) : Reads K (Parse.expect text >>= next) Q :=
  .past hnext (spans_expect text).advances (opens_expect hne)

/-- What is read behind a certain word, or by a rule that opens with one. -/
theorem Reads.accept {text : String} {next : Bool → Parse β} (hne : text ≠ "")
    (hnext : ∀ found, Stays K (next found) Q) (hopens : Opens (next false)) :
    Reads K (Parse.accept text >>= next) Q :=
  ⟨Stays.after hnext (spans_accept text).advances, opens_accept hne hopens⟩

/-- What is read behind a rule that does not move. -/
theorem Reads.behind (hnext : ∀ x, Reads K (next x) Q) (h : Rests rule) :
    Reads K (rule >>= next) Q :=
  ⟨Stays.after (fun x => (hnext x).stays) h.advances, h.opens fun x => (hnext x).opens⟩

/-- A rule that looks at the place of the next token and opens with a word finds a place of the
set. -/
theorem Stays.ofWord {rule : Parse α} {next : α → Parse β} {place : α → Pos}
    (hplace : Spans rule fun a _ x => place x = a)
    (hnext : ∀ x, Stays K (next x) fun y => place x ∈ K → Q y) (hopens : Opens (rule >>= next)) :
    Stays K (rule >>= next) Q := by
  intro i p y q hi hfound
  obtain ⟨t, ht, hword⟩ := hopens hfound
  obtain ⟨x, p', hx, hfound⟩ := bind_eq_found.1 hfound
  obtain ⟨hle, hx⟩ := hplace hi hx
  obtain ⟨hle', hy⟩ := hnext x hi hfound
  refine ⟨hle.trans hle', fun hK => hy ?_ (hK ?_)⟩
  · exact (hi.wordsBetween_subset hle le_rfl).trans hK
  · rw [hx]
    exact hi.mem_wordsBetween ht hword (hle.trans hle')

/-- The place where a rule opens with a word. -/
theorem Reads.here {next : Pos → Parse β}
    (hnext : ∀ pos, Reads K (next pos) fun y => pos ∈ K → Q y) :
    Reads K (Parse.here >>= next) Q := by
  have hopens := rests_here.opens fun pos => (hnext pos).opens
  have hplace : Spans Parse.here fun a _ pos => id pos = a :=
    spans_here.mono fun _ _ _ _ h => h.2
  exact ⟨Stays.ofWord hplace (fun pos => (hnext pos).stays) hopens, hopens⟩

/-- The token that a rule looks at before it reads, if it opens with a word wherever the token is
none. -/
theorem Reads.peek {next : Token → Parse β}
    (hnext : ∀ t, Stays K (next t) fun y => t.pos ∈ K → Q y)
    (hopens : ∀ t, ¬ t.IsWord → Opens (next t)) : Reads K (Parse.peek >>= next) Q :=
  ⟨Stays.ofWord (spans_peek.mono fun _ _ _ _ h => h.2) hnext (opens_peek hopens), opens_peek hopens⟩

/-- As `Reads.peek`, of what opens with a word anyhow. -/
theorem Reads.look {next : Token → Parse β}
    (hnext : ∀ t, Reads K (next t) fun y => t.pos ∈ K → Q y) : Reads K (Parse.peek >>= next) Q :=
  .peek (fun t => (hnext t).stays) fun t _ => (hnext t).opens

/-- The token of a kind that a rule opens with. -/
theorem Reads.expectKind {kind : TokenKind} {next : Token → Parse β}
    (hkind : kind ∈ [.name, .number, .string])
    (hnext : ∀ t, Stays K (next t) fun y => t.pos ∈ K → Q y) :
    Reads K (Parse.expectKind kind >>= next) Q := by
  have hopens : Opens (Parse.expectKind kind >>= next) := (opens_expectKind hkind).bind
  exact ⟨Stays.ofWord ((spans_expectKind kind).mono fun _ _ _ _ h => h.1) hnext hopens, hopens⟩

variable [Slots α]

/-- The nodes in what a rule finds, or in nothing. -/
theorem Stays.optional (h : Stays K rule (NodesIn K)) : Stays K (optional rule) (NodesIn K) := by
  refine h.maybe.mono fun found hfound => ?_
  cases found with
  | none => exact .empty rfl
  | some x => exact (hfound x rfl).some

/-- The nodes in everything that a repeated rule finds. -/
theorem Stays.list (h : Stays K rule (NodesIn K)) : Stays K (Parse.many rule) (NodesIn K) :=
  (Stays.many h).mono fun _ hxs => NodesIn.list hxs

/-- The nodes in values with commas between them. -/
theorem Stays.separated (h : Stays K rule (NodesIn K)) : Stays K (separated rule) (NodesIn K) :=
  h.each.mono fun _ hxs => NodesIn.list hxs

/-- As `Stays.separated`, with one more comma or without. -/
theorem Stays.listed (h : Stays K rule (NodesIn K)) :
    Stays K (listed rule) fun found => NodesIn K found.1 := by
  refine h.separated.bind fun items => ?_
  refine Stays.after (fun comma => ?_) (spans_accept _).advances
  exact stays_pure fun hitems => hitems

/-- As `Stays.listed`, of a rule that opens with a word. -/
theorem Places.listed (h : Places K rule) :
    Reads K (listed rule) fun found => NodesIn K found.1 :=
  ⟨h.stays.listed, h.opens.bind.bind⟩

end Parse

/-- The rules that other rules refer back to find nodes at places that they come to. -/
structure Rules.InPlace (K : Set Pos) (r : Rules) : Prop where
  expression : Places K r.expression
  inversion : Places K r.inversion
  factor : Places K r.factor
  primary : Places K r.primary
  pattern : Stays K r.pattern (NodesIn K)

/-- Operators of one level. -/
theorem places_leftAssociative {operand : Parse Expr} {operators : List (String × BinaryOp)}
    (h : Places K operand) : Places K (leftAssociative operand operators) := by
  refine Reads.here fun pos => ?_
  refine h.first fun first => ?_
  refine Stays.extendIf (fun left => ?_) first
  refine Stays.after (fun token => ?_) spans_peek.advances
  split
  · refine Stays.after (fun _ => ?_) advances_advance
    exact h.bind fun right => stays_pure fun hright hleft hpos =>
      .node hpos rfl (hleft.pair hright)
  · exact stays_miss

/-- The binary operators, up to those that bind least. -/
theorem places_bitwiseOr (h : r.InPlace K) : Places K (bitwiseOr r) := by
  have hproduct : Places K (product r) := places_leftAssociative h.factor
  have hsum : Places K (sum r) := places_leftAssociative hproduct
  have hshift : Places K (shift r) := places_leftAssociative hsum
  have hand : Places K (bitwiseAnd r) := places_leftAssociative hshift
  exact places_leftAssociative (places_leftAssociative hand)

/-- The operators of comparisons are read. -/
theorem advances_comparisonOperator : Advances comparisonOperator := by
  refine Advances.bind spans_peek.advances fun token => ?_
  refine advances_advance.bind fun _ => ?_
  have hpure (c : Comparison) : Advances (pure c) := spans_pure fun _ => trivial
  split
  · exact hpure _
  · exact hpure _
  · exact hpure _
  · exact hpure _
  · exact hpure _
  · exact hpure _
  · exact hpure _
  · exact Advances.bind (spans_expect _).advances fun _ => hpure _
  · refine Advances.bind (spans_accept _).advances fun found => ?_
    split
    · exact hpure _
    · exact hpure _
  · exact spans_miss

/-- Comparisons. -/
theorem places_comparison (h : r.InPlace K) : Places K (comparison r) := by
  refine Reads.here fun pos => ?_
  refine (places_bitwiseOr h).first fun first => ?_
  have hone : Stays K (do return (← comparisonOperator, ← bitwiseOr r)) (NodesIn K) := by
    refine Stays.after (fun op => ?_) advances_comparisonOperator
    exact (places_bitwiseOr h).bind fun e => stays_pure fun he => NodesIn.pair (.empty rfl) he
  refine hone.list.bind fun rest => stays_pure fun hrest hfirst hpos => ?_
  split
  · exact hfirst
  · exact .node hpos rfl (hfirst.pair hrest)

/-- Negations and comparisons. -/
theorem places_inversion (h : r.InPlace K) : Places K (inversion r) := by
  refine Reads.here fun pos => ?_
  refine Reads.accept (by decide) (fun found => ?_) (places_comparison h).opens
  split
  · exact h.inversion.bind fun e => stays_pure fun he hpos => .node hpos rfl he
  · exact (places_comparison h).stays.mono fun e he _ => he

/-- Operands joined by a boolean operator. -/
theorem places_booleanChain {operand : Parse Expr} (h : Places K operand) (word : String)
    (op : BoolOp) : Places K (booleanChain operand word op) := by
  refine Reads.here fun pos => ?_
  refine h.first fun first => ?_
  have hone : Stays K (do expect word; operand) (NodesIn K) :=
    Stays.after (fun _ => h.stays) (spans_expect _).advances
  refine hone.list.bind fun rest => stays_pure fun hrest hfirst hpos => ?_
  split
  · exact hfirst
  · exact .node hpos rfl (hfirst.cons hrest)

/-- Conjunctions and disjunctions. -/
theorem places_disjunction (h : r.InPlace K) : Places K (disjunction r) :=
  places_booleanChain (places_booleanChain (places_inversion h) "and" .and) "or" .or

/-- What stands behind a star, or a value by another rule. -/
theorem places_starOr (h : r.InPlace K) {rule : Parse Expr} (hrule : Places K rule) :
    Places K (starOr r rule) := by
  refine Reads.here fun pos => ?_
  refine Reads.accept (by decide) (fun found => ?_) hrule.opens
  split
  · exact (places_bitwiseOr h).bind fun e => stays_pure fun he hpos => .node hpos rfl he
  · exact hrule.stays.mono fun e he _ => he

/-- One value, or several. -/
theorem places_tupleOr {item : Parse Expr} (h : Places K item) : Places K (tupleOr item) := by
  refine Reads.here fun pos => ?_
  refine h.listed.first fun found => ?_
  obtain ⟨items, comma⟩ := found
  dsimp only
  split
  · rename_i one
    refine stays_pure fun hitems hpos => ?_
    split
    · exact .node hpos rfl hitems
    · exact hitems.of_mem List.mem_cons_self
  · exact stays_pure fun hitems hpos => .node hpos rfl hitems

/-- Values, stars allowed. -/
theorem places_starExpressions (h : r.InPlace K) : Places K (starExpressions r) :=
  places_tupleOr (places_starOr h h.expression)

/-- A name with a value assigned to it. -/
theorem places_walrus (h : r.InPlace K) : Places K (walrus r) := by
  refine Reads.here fun pos => ?_
  refine Reads.past (fun id => ?_) advances_name opens_name
  refine Stays.after (fun _ => ?_) (spans_expect _).advances
  exact h.expression.bind fun e => stays_pure fun he hpos =>
    .node hpos rfl (NodesIn.pair (.leaf hpos rfl rfl) he)

/-- An expression, or a name with a value assigned to it. -/
theorem places_namedExpression (h : r.InPlace K) : Places K (namedExpression r) := by
  refine Reads.behind (fun start => ?_) rests_place
  refine Reads.behind (fun found => ?_) (rests_seesNamed _)
  split
  · exact places_walrus h
  · refine h.expression.first fun e => ?_
    refine Stays.after (fun _ => ?_) (spans_mistake _).advances
    refine Stays.after (fun found => ?_) (spans_sees _).advances
    refine Stays.after (fun _ => ?_) (spans_guard _).advances
    exact stays_pure fun he => he

/-- An expression with a star in front. -/
theorem places_starredExpression (h : r.InPlace K) : Places K (starredExpression r) := by
  refine Reads.here fun pos => Reads.expect (by decide) fun _ => ?_
  exact h.expression.bind fun e => stays_pure fun he hpos => .node hpos rfl he

/-- Values, stars and named values allowed. -/
theorem places_starNamed (h : r.InPlace K) : Places K (starNamed r) :=
  places_starOr h (places_namedExpression h)

/-- The expressions that yield. -/
theorem places_yieldExpression (h : r.InPlace K) : Places K (yieldExpression r) := by
  refine Reads.here fun pos => Reads.expect (by decide) fun _ => ?_
  have hfrom : Stays K (do expect "from"; r.expression) (NodesIn K) :=
    Stays.after (fun _ => h.expression.stays) (spans_expect _).advances
  refine hfrom.optional.bind fun delegated => ?_
  split
  · exact stays_pure fun hvalue hpos => .node hpos rfl hvalue
  · refine (places_starExpressions h).stays.optional.bind fun e => ?_
    exact stays_pure fun he _ hpos => .node hpos rfl he

/-- An expression that yields, or values. -/
theorem places_yieldOrValues (h : r.InPlace K) : Places K (yieldOrValues r) := by
  refine Reads.behind (fun found => ?_) (rests_sees _)
  split
  · exact places_yieldExpression h
  · exact places_starExpressions h

/-- The hint and the initial value of a parameter start at places of a set, with all their parts. -/
abbrev ParameterIn (K : Set Pos) (p : Parameter Expr) : Prop := NodesIn K (p.hint, p.initial)

/-- The hints and the initial values of parameters start at places of a set. -/
structure ParametersIn (K : Set Pos) (ps : Parameters Expr) : Prop where
  positionalOnly : ∀ p ∈ ps.positionalOnly, ParameterIn K p
  positional : ∀ p ∈ ps.positional, ParameterIn K p
  variadic : ∀ p ∈ ps.variadic, ParameterIn K p
  keywordOnly : ∀ p ∈ ps.keywordOnly, ParameterIn K p
  keywordVariadic : ∀ p ∈ ps.keywordVariadic, ParameterIn K p

/-- The initial values of parameters start at places of the set. -/
theorem ParametersIn.nodes {ps : Parameters Expr} (h : ParametersIn K ps) : NodesIn K ps := by
  have hlist {ps : List (Parameter Expr)} (h : ∀ p ∈ ps, ParameterIn K p) : NodesIn K ps :=
    NodesIn.list fun p hp => (h p hp).of_pair.2
  exact (hlist h.keywordOnly).pair ((hlist h.positionalOnly).pair (hlist h.positional))

/-- The hints of parameters stand where these are read. -/
structure ParameterStyle.InPlace (K : Set Pos) (style : ParameterStyle) : Prop where
  hint : Stays K style.hint (NodesIn K)
  variadicHint : Stays K style.variadicHint (NodesIn K)

/-- A parameter holds its hint and its initial value. -/
theorem stays_parameterOf {hint initial : Parse (Option Expr)} (hhint : Stays K hint (NodesIn K))
    (hinitial : Stays K initial (NodesIn K)) :
    Stays K (parameterOf hint initial) (ParameterIn K) := by
  refine Stays.after (fun pos => ?_) spans_here.advances
  refine Stays.after (fun id => ?_) advances_name
  refine hhint.bind fun hint => ?_
  exact hinitial.bind fun initial => stays_pure fun hinitial hhint => hhint.pair hinitial

/-- The initial value of a parameter. -/
theorem stays_initialValue (h : r.InPlace K) (style : ParameterStyle) :
    Stays K (initialValue r style) (NodesIn K) := by
  refine Stays.after (fun token => ?_) spans_peek.advances
  refine Stays.after (fun found => ?_) (spans_accept _).advances
  split
  · exact stays_pure (.empty rfl)
  · refine Stays.after (fun _ => ?_) (spans_mistake _).advances
    exact h.expression.bind fun e => stays_pure fun he => he.some

/-- The end of a parameter is read. -/
theorem advances_parameterEnd (style : ParameterStyle) : Advances (parameterEnd style) := by
  refine Advances.bind (spans_accept _).advances fun found => ?_
  split
  · exact Advances.bind (spans_sees _).advances fun _ => (spans_guard _).advances
  · exact spans_pure fun _ => trivial

variable {style : ParameterStyle}

/-- Parameters without a star. -/
theorem stays_plainParameters (h : r.InPlace K) (hstyle : style.InPlace K) :
    Stays K (plainParameters r style) (∀ p ∈ ·, ParameterIn K p) := by
  refine Stays.many ?_
  refine (stays_parameterOf hstyle.hint (stays_initialValue h style)).bind fun parameter => ?_
  refine Stays.after (fun _ => ?_) (advances_parameterEnd style)
  exact stays_pure fun hparameter => hparameter

/-- The parameter behind two stars. -/
theorem stays_keywordVariadic (hstyle : style.InPlace K) :
    Stays K (keywordVariadic style) (ParameterIn K) := by
  refine Stays.after (fun _ => ?_) (spans_expect _).advances
  refine (stays_parameterOf hstyle.hint (stays_pure (.empty rfl))).bind fun parameter => ?_
  refine Stays.after (fun next => ?_) spans_peek.advances
  refine Stays.after (fun _ => ?_) (spans_mistake _).advances
  refine Stays.after (fun _ => ?_) (spans_mistake _).advances
  exact Stays.after (fun _ => stays_pure fun hparameter => hparameter) (advances_parameterEnd style)

/-- The parameters from a star on, with those before. -/
theorem stays_starParameters (h : r.InPlace K) (hstyle : style.InPlace K)
    (plain positionalOnly : List (Parameter Expr)) :
    Stays K (starParameters r style plain positionalOnly) fun params =>
      (∀ p ∈ plain, ParameterIn K p) → (∀ p ∈ positionalOnly, ParameterIn K p) →
        ParametersIn K params := by
  refine Stays.after (fun found => ?_) (spans_sees _).advances
  split
  · refine (stays_keywordVariadic hstyle).bind fun last => ?_
    exact stays_pure fun hlast hplain honly =>
      ⟨honly, hplain, nofun, List.forall_mem_nil _, fun p hp => Option.some.inj hp ▸ hlast⟩
  · refine Stays.after (fun found => ?_) (spans_sees _).advances
    split
    · refine Stays.after (fun star => ?_) spans_peek.advances
      refine Stays.after (fun _ => ?_) advances_advance
      refine Stays.after (fun found => ?_) (spans_accept _).advances
      split
      · refine Stays.after (fun _ => ?_) (spans_mistake _).advances
        refine (stays_plainParameters h hstyle).bind fun named => ?_
        refine Stays.after (fun _ => ?_) (spans_guard _).advances
        refine (stays_keywordVariadic hstyle).maybe.bind fun last => ?_
        exact stays_pure fun hlast hnamed hplain honly => ⟨honly, hplain, nofun, hnamed, hlast⟩
      · refine Stays.after (fun _ => ?_) (spans_mistake _).advances
        refine (stays_parameterOf hstyle.variadicHint (stays_pure (.empty rfl))).bind
          fun variadic => ?_
        refine Stays.after (fun next => ?_) spans_peek.advances
        refine Stays.after (fun _ => ?_) (spans_mistake _).advances
        refine Stays.after (fun _ => ?_) (advances_parameterEnd style)
        refine (stays_plainParameters h hstyle).bind fun named => ?_
        refine Stays.after (fun _ => ?_) (spans_mistake _).advances
        refine (stays_keywordVariadic hstyle).maybe.bind fun last => ?_
        refine stays_pure fun hlast hnamed hvariadic hplain honly => ?_
        exact ⟨honly, hplain, fun p hp => Option.some.inj hp ▸ hvariadic, hnamed, hlast⟩
    · exact stays_pure fun hplain honly =>
        ⟨honly, hplain, nofun, List.forall_mem_nil _, nofun⟩

/-- The parameters of a function. -/
theorem stays_parameters (h : r.InPlace K) (hstyle : style.InPlace K) :
    Stays K (parameters r style) (ParametersIn K) := by
  refine (stays_plainParameters h hstyle).bind fun first => ?_
  dsimp only
  split
  · refine Stays.after (fun _ => ?_) (spans_mistake _).advances
    exact stays_miss
  · have hslash : Advances (if first.isEmpty then pure false else accept "/") := by
      split
      · exact spans_pure fun _ => trivial
      · exact (spans_accept _).advances
    refine Stays.after (fun found => ?_) hslash
    split
    · refine Stays.after (fun _ => ?_) (advances_parameterEnd style)
      refine (stays_plainParameters h hstyle).bind fun second => ?_
      refine Stays.after (fun _ => ?_) (spans_mistake _).advances
      refine Stays.after (fun _ => ?_) (spans_guard _).advances
      refine Stays.after (fun _ => ?_) (spans_mistake _).advances
      exact stays_starParameters h hstyle second first
    · refine Stays.after (fun _ => ?_) (spans_mistake _).advances
      exact (stays_starParameters h hstyle first []).mono fun params hparams hfirst =>
        hparams hfirst (List.forall_mem_nil _)

/-- Anonymous functions. -/
theorem places_lambda (h : r.InPlace K) : Places K (lambda r) := by
  refine Reads.here fun pos => Reads.expect (by decide) fun _ => ?_
  have hnone : Stays K (pure none : Parse (Option Expr)) (NodesIn K) := stays_pure (.empty rfl)
  refine (stays_parameters h ⟨hnone, hnone⟩).bind fun params => ?_
  refine Stays.after (fun _ => ?_) (spans_expect _).advances
  exact h.expression.bind fun body => stays_pure fun hbody hparams hpos =>
    .node hpos rfl (hparams.nodes.pair hbody)

/-- What an expression is read with that is no anonymous function. -/
def conditionalFrom (r : Rules) (pos : Pos) (quiet : Bool) : Parse Expr := do
  formerStatementMistake r
  let first ← disjunction r
  disjunctionMistakes r quiet first
  let choice ← optional do
    expect "if"
    let test ← disjunction r
    expect "else"
    return Expr.conditional pos test first (← r.expression)
  return choice.getD first

/-- Expressions that are no anonymous functions, from a place on. -/
theorem reads_conditionalFrom (h : r.InPlace K) (pos : Pos) (quiet : Bool) :
    Reads K (conditionalFrom r pos quiet) fun e => pos ∈ K → NodesIn K e := by
  refine Reads.behind (fun _ => ?_) (rests_mistake _)
  refine (places_disjunction h).first fun first => ?_
  refine Stays.after (fun _ => ?_) (spans_mistake _).advances
  have hchoice : Stays K (do
      expect "if"
      let test ← disjunction r
      expect "else"
      return Expr.conditional pos test first (← r.expression)) fun e =>
        NodesIn K first → pos ∈ K → NodesIn K e := by
    refine Stays.after (fun _ => ?_) (spans_expect _).advances
    refine (places_disjunction h).bind fun test => ?_
    refine Stays.after (fun _ => ?_) (spans_expect _).advances
    exact h.expression.bind fun orelse => stays_pure fun horelse htest hfirst hpos =>
      .node hpos rfl (htest.pair (hfirst.pair horelse))
  refine hchoice.maybe.bind fun choice => stays_pure fun hfound hfirst hpos => ?_
  cases choice with
  | none => exact hfirst
  | some e => exact hfound e rfl hfirst hpos

/-- Expressions. -/
theorem places_expression (h : r.InPlace K) : Places K (expression r) := by
  have hquiet (token : Token) : Reads K (do
      let soft := token.kind == .name && softKeywords.contains token.text
      let quiet ← do
        if soft then pure true
        else if isIdentifier token then ahead (do advance; let _ ← expectKind .string)
        else pure false
      conditionalFrom r token.pos quiet) fun e => token.pos ∈ K → NodesIn K e := by
    dsimp only
    split
    · exact Reads.behind (reads_conditionalFrom h _) (rests_pure _)
    · split
      · exact Reads.behind (reads_conditionalFrom h _) (rests_ahead _)
      · exact Reads.behind (reads_conditionalFrom h _) (rests_pure _)
  refine Reads.look fun token => ?_
  split
  · exact (places_lambda h).mono fun e he _ => he
  · exact hquiet token

end Typeward.Source
