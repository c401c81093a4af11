import Typeward.Proofs.PatternPlaces

/-!
# The places of simple statements and headers

What simple statements and the headers of suites hold starts at words that their rules come to, the
hints of functions included.
-/

namespace Typeward.Source

open Slots Parse

variable {K : Set Pos} {r : Rules}

/-- The search for what is not an assignment reads nothing. -/
theorem spans_assignmentMistakes (start : Place) :
    Spans (assignmentMistakes r start) fun a b _ => a = b :=
  spans_mistake _

/-- Further left sides of an assignment, and its value. -/
theorem stays_assignmentRest (h : r.InPlace K) (start : Place) (fuel : Nat)
    (targets : List Expr) :
    Stays K (assignmentRest r start targets fuel) fun t => NodesIn K targets → NodesIn K t := by
  induction fuel generalizing targets with
  | zero => exact stays_miss
  | succ fuel ih =>
    refine Stays.after (fun isYield => ?_) (spans_sees _).advances
    refine (places_yieldOrValues h).bind fun value => ?_
    refine Stays.after (fun found => ?_) (spans_sees _).advances
    split
    · split
      · refine Stays.after (fun _ => ?_) (spans_assignmentMistakes start).advances
        exact Stays.after (fun _ => stays_miss) (spans_mistake _).advances
      · refine Stays.after (fun _ => ?_) (spans_mistake _).advances
        refine Stays.after (fun _ => ?_) (spans_guard _).advances
        refine Stays.after (fun _ => ?_) advances_advance
        exact (ih (targets ++ [value])).mono fun t ht hvalue htargets =>
          ht (htargets.append (hvalue.cons (.empty rfl)))
    · exact stays_pure fun hvalue htargets => htargets.pair hvalue

/-- The number of tokens is told without reading. -/
theorem spans_size : Spans (fun i p => .found i.lexed.tokens.size p) fun a b _ => a = b := by
  intro i p x q _ hfound
  obtain ⟨-, rfl⟩ := Outcome.found.inj hfound
  exact ⟨le_rfl, rfl⟩

/-- Assignments of all kinds, and expressions. -/
theorem places_assignmentOrExpression (h : r.InPlace K) :
    Places K (assignmentOrExpression r) := by
  refine Reads.behind (fun token => ?_) rests_peek
  refine Reads.behind (fun start => ?_) rests_place
  refine (places_starExpressions h).first fun e => ?_
  refine Stays.after (fun next => ?_) spans_peek.advances
  have halone : Stays K (pure (Simple.expression e)) fun t => NodesIn K e → NodesIn K t :=
    stays_pure fun he => he
  split
  · refine Stays.after (fun _ => ?_) (spans_mistake _).advances
    split
    · have hvalue : Stays K (do
          expect "="
          yieldOrValues r) (NodesIn K) :=
        Stays.after (fun _ => (places_yieldOrValues h).stays) (spans_expect _).advances
      have hannotated : Stays K (do
          advance
          let hint ← r.expression
          let value ← optional do
            expect "="
            yieldOrValues r
          return Simple.annotated e hint value (isName e && token.text != "(") none) fun t =>
            NodesIn K e → NodesIn K t := by
        refine Stays.after (fun _ => ?_) advances_advance
        refine h.expression.bind fun hint => ?_
        exact hvalue.optional.bind fun value => stays_pure fun hvalue hhint he =>
          he.pair (hhint.pair hvalue)
      refine hannotated.maybe.bind fun annotated => ?_
      split
      · exact stays_pure fun hfound => hfound _ rfl
      · exact stays_pure fun _ he => he
    · exact halone
  · split
    · have hassigned : Stays K (do
          guard (isTarget e)
          advance
          assignmentRest r start [e] (← fun i p => .found (i.lexed.tokens.size) p)) fun t =>
            NodesIn K e → NodesIn K t := by
        refine Stays.after (fun _ => ?_) (spans_guard _).advances
        refine Stays.after (fun _ => ?_) advances_advance
        refine Stays.after (fun fuel => ?_) spans_size.advances
        exact (stays_assignmentRest h start fuel [e]).mono fun t ht he => ht (he.cons (.empty rfl))
      refine hassigned.maybe.bind fun assigned => ?_
      split
      · exact stays_pure fun hfound => hfound _ rfl
      · refine Stays.after (fun _ => ?_) (spans_assignmentMistakes start).advances
        refine Stays.after (fun _ => ?_) (spans_mistake _).advances
        exact stays_pure fun _ he => he
    · split
      · split
        · refine Stays.after (fun _ => ?_) advances_advance
          exact (places_yieldOrValues h).bind fun value => stays_pure fun hvalue he =>
            he.pair hvalue
        · exact Stays.after (fun _ => halone) (spans_mistake _).advances
      · exact Stays.after (fun _ => halone) (spans_assignmentMistakes start).advances

/-- Names with dots are read. -/
theorem advances_dottedName : Advances dottedName := by
  refine advances_name.bind fun first => ?_
  have hmore : Advances (do expect "."; name) :=
    Advances.bind (spans_expect _).advances fun _ => advances_name
  exact hmore.many.bind fun rest => spans_pure fun _ => trivial

/-- Local names are read. -/
theorem advances_localName : Advances localName :=
  (Advances.bind (spans_expect _).advances fun _ => advances_name).optional

/-- Imports of modules hold no expressions. -/
theorem stays_importModules : Stays K importModules (NodesIn K) := by
  refine Stays.after (fun _ => ?_) (spans_expect _).advances
  refine Stays.after (fun names => stays_pure (.empty rfl)) (Advances.separated ?_)
  exact advances_dottedName.bind fun id => advances_localName.bind fun _ =>
    spans_pure fun _ => trivial

/-- The names of an import from a module are read. -/
theorem advances_importedNames : Advances importedNames := by
  have hitem : Advances (do
      let id ← name
      return ImportName.mk id (← localName)) :=
    advances_name.bind fun id => advances_localName.bind fun _ => spans_pure fun _ => trivial
  refine Advances.bind (spans_accept _).advances fun found => ?_
  split
  · exact spans_pure fun _ => trivial
  · refine Advances.bind (spans_accept _).advances fun found => ?_
    split
    · refine hitem.listed.bind fun found => ?_
      exact Advances.bind (spans_expect _).advances fun _ => spans_pure fun _ => trivial
    · refine hitem.separated.bind fun items => ?_
      refine Advances.bind (spans_sees _).advances fun found => ?_
      split
      · exact Advances.bind (spans_mistake _).advances fun _ => spans_miss
      · exact spans_pure fun _ => trivial

/-- Imports of names from a module hold no expressions. -/
theorem stays_importFrom : Stays K importFrom (NodesIn K) := by
  refine Stays.after (fun _ => ?_) (spans_expect _).advances
  have hdots : Advances (do
      if ← accept "." then return 1
      else
        expect "..."
        return 3) := by
    refine Advances.bind (spans_accept _).advances fun found => ?_
    split
    · exact spans_pure fun _ => trivial
    · exact Advances.bind (spans_expect _).advances fun _ => spans_pure fun _ => trivial
  refine Stays.after (fun dots => ?_) hdots.many
  have hnames (source : Option String) : Stays K (do
      expect "import"
      return Simple.importNames source (← importedNames) (dots.foldl (· + ·) 0)) (NodesIn K) := by
    refine Stays.after (fun _ => ?_) (spans_expect _).advances
    exact Stays.after (fun names => stays_pure (.empty rfl)) advances_importedNames
  dsimp only
  split
  · refine Stays.after hnames ?_
    exact advances_dottedName.bind fun _ => spans_pure fun _ => trivial
  · exact Stays.after hnames advances_dottedName.optional

/-- Deletions. -/
theorem stays_deletion (h : r.InPlace K) : Stays K (deletion r) (NodesIn K) := by
  refine Stays.after (fun _ => ?_) (spans_expect _).advances
  refine Stays.after (fun fuel => ?_) spans_size.advances
  have htarget : Stays K (do
      let e ← r.primary
      guard (invalidDeletion fuel e).isNone
      return e) (NodesIn K) := by
    refine h.primary.bind fun e => ?_
    exact Stays.after (fun _ => stays_pure fun he => he) (spans_guard _).advances
  refine (Stays.optional ?_).bind fun targets => ?_
  · refine htarget.listed.bind fun found => ?_
    obtain ⟨targets, comma⟩ := found
    refine Stays.after (fun next => ?_) spans_peek.advances
    exact Stays.after (fun _ => stays_pure fun hfound => hfound) (spans_guard _).advances
  split
  · exact stays_pure fun hfound => hfound
  · exact Stays.after (fun _ => stays_miss) (spans_mistake _).advances

/-- Simple statements. -/
theorem places_simpleStatement (h : r.InPlace K) : Places K (simpleStatement r) := by
  have hword {s : Simple} (hs : NodesIn K s) : Stays K (do
      advance
      return s) (NodesIn K) :=
    Stays.after (fun _ => stays_pure hs) advances_advance
  have hbehind (word : String) : Stays K (optional (do expect word; r.expression)) (NodesIn K) :=
    Stays.optional (Stays.after (fun _ => h.expression.stays) (spans_expect _).advances)
  refine ⟨Stays.after (fun token => ?_) spans_peek.advances, opens_peek fun token hword => ?_⟩
  · dsimp only
    split
    · refine Stays.after (fun _ => ?_) advances_advance
      exact (places_starExpressions h).stays.optional.bind fun e => stays_pure fun he => he
    · exact stays_importModules
    · exact stays_importFrom
    · refine Stays.after (fun _ => ?_) advances_advance
      refine h.expression.stays.optional.bind fun e => ?_
      split
      · exact stays_pure fun _ => .empty rfl
      · exact (hbehind _).bind fun cause => stays_pure fun hcause he => he.pair hcause
    · exact hword (.empty rfl)
    · exact stays_deletion h
    · refine (places_yieldExpression h).bind fun e => ?_
      refine Stays.after (fun found => ?_) (spans_sees _).advances
      refine Stays.unless ?_ (spans_mistake _).advances
      exact stays_pure fun he => he
    · refine Stays.after (fun _ => ?_) advances_advance
      refine h.expression.bind fun test => ?_
      exact (hbehind _).bind fun message => stays_pure fun hmessage htest => htest.pair hmessage
    · exact hword (.empty rfl)
    · exact hword (.empty rfl)
    · refine Stays.after (fun _ => ?_) advances_advance
      exact Stays.after (fun names => stays_pure (.empty rfl)) advances_name.separated
    · refine Stays.after (fun _ => ?_) advances_advance
      exact Stays.after (fun names => stays_pure (.empty rfl)) advances_name.separated
    · exact (places_assignmentOrExpression h).stays
  · rw [token.text_of_not_isWord hword]
    exact (places_assignmentOrExpression h).opens

/-- Items of `with` statements. -/
theorem stays_withItem (h : r.InPlace K) : Stays K (withItem r) (NodesIn K) := by
  refine h.expression.bind fun context => ?_
  have htarget : Stays K (do
      expect "as"
      let target ← starTarget r
      let next ← peek
      guard ([",", ")", ":"].contains next.text)
      return target) (NodesIn K) := by
    refine Stays.after (fun _ => ?_) (spans_expect _).advances
    refine (places_starTarget h).bind fun target => ?_
    refine Stays.after (fun next => ?_) spans_peek.advances
    exact Stays.after (fun _ => stays_pure fun htarget => htarget) (spans_guard _).advances
  refine htarget.optional.bind fun target => ?_
  refine Stays.unless ?_ (spans_mistake _).advances
  exact stays_pure fun htarget hcontext => hcontext.pair htarget

/-- The items of a `with` statement, in parentheses or not. -/
theorem stays_withItems (h : r.InPlace K) : Stays K ((do
    let (items, _) ← bracketed "(" ")" (listed (withItem r))
    guard (← sees ":")
    return items) <|> separated (withItem r)) (NodesIn K) := by
  refine Stays.orElse ?_ (stays_withItem h).separated
  refine (stays_bracketed "(" ")" (stays_withItem h).listed).bind fun found => ?_
  obtain ⟨items, comma⟩ := found
  refine Stays.after (fun found => ?_) (spans_sees _).advances
  exact Stays.after (fun _ => stays_pure fun hitems => hitems) (spans_guard _).advances

/-- The cases of a `match` statement, a block behind its colon. -/
def caseBlock (r : Rules) (pos : Pos) (subject : Expr) : Parse Stmt := do
  let _ ← expectKind .newline
  mistake do
    let token ← peek
    if token.kind != .indent then failAtLast "expected an indented block"
  let _ ← expectKind .indent
  let first ← caseClause r
  let rest ← many (caseClause r)
  let _ ← expectKind .dedent
  return .compound pos (⟨.subject subject, []⟩ :: first :: rest)

/-- What is read behind the subject of a `match` statement. -/
def behindSubject (r : Rules) (pos : Pos) (subject : Expr) : Parse Stmt := do
  mistake do
    let _ ← expectKind .newline
    failAtLast "expected a colon"
  expect ":"
  caseBlock r pos subject

/-- What is read from the place of a certain word on, if that word is next. -/
theorem stays_seesHere {α : Type} {P : α → Prop} {text : String} {next : Pos → Parse α}
    {other : Parse α} (hne : text ≠ "") (hnext : ∀ pos, Stays K (next pos) fun a => pos ∈ K → P a)
    (hother : Stays K other P) :
    Stays K (do if ← sees text then let pos ← here; next pos else other) P := by
  intro i p a q hi hfound
  obtain ⟨found, p', hsees, hfound⟩ := bind_eq_found.1 hfound
  obtain ⟨t, p'', hpeek, hsees⟩ := bind_eq_found.1 hsees
  obtain ⟨ht, hindex⟩ := peek_eq_found hpeek
  obtain ⟨rfl, rfl⟩ := Outcome.found.inj hsees
  split at hfound
  · rename_i htext
    obtain ⟨pos, q', hhere, hfound⟩ := bind_eq_found.1 hfound
    obtain ⟨hle, -, hpos⟩ := spans_here hi hhere
    obtain ⟨hle', ha⟩ := hnext pos hi hfound
    rw [hindex] at hpos hle
    refine ⟨hle.trans hle', fun hK => ha ?_ (hK ?_)⟩
    · exact (hi.wordsBetween_subset hle le_rfl).trans hK
    · rw [hpos]
      exact hi.mem_wordsBetween ht (.inl (beq_iff_eq.1 htext ▸ hne)) (hle.trans hle')
  · rw [← hindex]
    exact hother hi hfound

/-- The hints of a function's parameters stand where these are read. -/
theorem inPlace_functionParameters (h : r.InPlace K) : (functionParameters r).InPlace K := by
  refine ⟨Stays.optional ?_, Stays.optional ?_⟩
  · exact Stays.after (fun _ => h.expression.stays) (spans_expect _).advances
  · refine Stays.after (fun _ => ?_) (spans_expect _).advances
    refine stays_seesHere (by decide) (fun pos => ?_) h.expression.stays
    refine Stays.after (fun _ => ?_) advances_advance
    exact (places_bitwiseOr h).bind fun e => stays_pure fun he hpos => NodesIn.node hpos rfl he

/-- What a class statement is given in brackets. -/
theorem stays_classArguments (h : r.InPlace K) : Stays K (optional do
    expect "("
    if ← accept ")" then return {}
    else
      let given ← arguments r
      expect ")"
      return given) fun found => (found.getD {}).NodesIn K := by
  have hgiven : Stays K (do
      expect "("
      if ← accept ")" then return {}
      else
        let given ← arguments r
        expect ")"
        return given) (Arguments.NodesIn K) := by
    refine Stays.after (fun _ => ?_) (spans_expect _).advances
    refine Stays.after (fun found => ?_) (spans_accept _).advances
    split
    · exact stays_pure (.empty rfl)
    · refine (stays_arguments h).bind fun given => ?_
      exact Stays.after (fun _ => stays_pure fun hgiven => hgiven) (spans_expect _).advances
  refine hgiven.maybe.mono fun found hfound => ?_
  cases found with
  | none => exact .empty rfl
  | some given => exact hfound given rfl

end Typeward.Source
