import Typeward.Proofs.LoweringRuns
import Typeward.Proofs.StatementPlaces

/-!
# Modules as the parser gives them

In a tree from the parser every node starts at a word of the text, and none carries the number of a
declaration: this holds of the statements, at any depth, and of the expressions in them. The proof
goes through the rules for statements; `Parse.Gives` says what holds of everything that a rule finds
in a text whose words all start at places of a set.
-/

namespace Typeward

open Slots Source

namespace Stmt

variable {K : Set Pos}

/-- A statement and the expressions in it, with all their parts, start at places of a set and carry
no numbers. -/
structure PlacedIn (K : Set Pos) (t : Stmt) : Prop where
  place : t.pos ∈ K
  number : t.number? = none
  expressions : ∀ e ∈ t.expressions, e.Everywhere (NodeIn K)

/-- A statement and all statements in its suites start at places of a set. -/
abbrev Placed (K : Set Pos) (t : Stmt) : Prop := ∀ u ∈ t.nodes, u.PlacedIn K

/-- The statements of a suite and of the suites of its members start at places of a set. -/
def AllPlaced (K : Set Pos) (ts : List Stmt) : Prop := ∀ t ∈ allNodes ts, t.PlacedIn K

/-- Suites stand at places of a set if their members do. -/
theorem allPlaced_of_placed {ts : List Stmt} (h : ∀ t ∈ ts, t.Placed K) : AllPlaced K ts := by
  induction ts with
  | nil => exact List.forall_mem_nil _
  | cons t rest ih =>
    obtain ⟨ht, hrest⟩ := List.forall_mem_cons.1 h
    exact List.forall_mem_append.2 ⟨ht, ih hrest⟩

/-- The members of suites that stand at places of a set do. -/
theorem AllPlaced.placed {ts : List Stmt} (h : AllPlaced K ts) : ∀ t ∈ ts, t.Placed K := by
  induction ts with
  | nil => exact List.forall_mem_nil _
  | cons t rest ih =>
    obtain ⟨ht, hrest⟩ := List.forall_mem_append.1 h
    exact List.forall_mem_cons.2 ⟨ht, ih hrest⟩

/-- Several suites stand at places of a set if each of them does. -/
theorem allPlaced_flatten {suites : List (List Stmt)} (h : ∀ ts ∈ suites, AllPlaced K ts) :
    AllPlaced K suites.flatten := by
  refine allPlaced_of_placed fun t ht => ?_
  obtain ⟨ts, hts, ht⟩ := List.mem_flatten.1 ht
  exact (h ts hts).placed t ht

/-- What stands at places of a set carries no numbers. -/
theorem AllPlaced.unnumbered {ts : List Stmt} (h : AllPlaced K ts) : AllUnnumbered ts := by
  refine fun t ht => ⟨(h t ht).number, fun e he => ?_⟩
  exact ((h t ht).expressions e (mem_expressions_of_mem_held he)).mono fun _ hnode => hnode.number

/-- The header and the suite of a clause stand at places of a set. -/
structure PlacedClause (K : Set Pos) (clause : Clause Stmt) : Prop where
  head : NodesIn K clause.head
  body : AllPlaced K clause.body

/-- A compound statement stands where it starts and where its clauses do. -/
theorem placed_compound {clauses : List (Clause Stmt)} (h : ∀ c ∈ clauses, PlacedClause K c)
    {pos : Pos} (hpos : pos ∈ K) : Placed K (.compound pos clauses) := by
  have hbodies : ∀ u ∈ clauseNodes clauses, u.PlacedIn K := by
    induction clauses with
    | nil => exact List.forall_mem_nil _
    | cons c rest ih =>
      obtain ⟨hc, hrest⟩ := List.forall_mem_cons.1 h
      exact List.forall_mem_append.2 ⟨hc.body, ih hrest⟩
  refine List.forall_mem_cons.2 ⟨⟨hpos, rfl, fun e he => ?_⟩, hbodies⟩
  obtain ⟨c, hc, he⟩ := List.mem_flatMap.1 he
  exact (h c hc).head e he

/-- A condition stands where it starts, and where its test and its suites do. -/
theorem placed_branch {test : Expr} {body orelse : List Stmt} (htest : NodesIn K test)
    (hbody : AllPlaced K body) (horelse : AllPlaced K orelse) {pos : Pos} (hpos : pos ∈ K) :
    Placed K (.branch pos test body orelse) :=
  List.forall_mem_cons.2 ⟨⟨hpos, rfl, htest⟩, List.forall_mem_append.2 ⟨hbody, horelse⟩⟩

mutual

/-- The functions in a statement without numbers have none. -/
theorem unnumbered_functions : {t : Stmt} → (∀ u ∈ t.nodes, u.Unnumbered) →
    Typeward.Unnumbered t.functions
  | .simple .., _ => .nil
  | .function pos head body, h => by
    obtain ⟨hown, hbody⟩ := List.forall_mem_cons.1 h
    exact List.forall_mem_cons.2 ⟨hown.1, AllUnnumbered.functions hbody⟩
  | .classDef pos head body, h =>
    AllUnnumbered.functions (List.forall_mem_cons.1 h).2
  | .branch pos test body orelse, h => by
    obtain ⟨hbody, horelse⟩ := List.forall_mem_append.1 (List.forall_mem_cons.1 h).2
    exact .append (AllUnnumbered.functions hbody) (AllUnnumbered.functions horelse)
  | .compound pos clauses, h =>
    unnumbered_clauseFunctions (List.forall_mem_cons.1 h).2

/-- As `unnumbered_functions`, for statements. -/
theorem AllUnnumbered.functions : {ts : List Stmt} → AllUnnumbered ts →
    Typeward.Unnumbered (allFunctions ts)
  | [], _ => .nil
  | t :: rest, h => by
    obtain ⟨ht, hrest⟩ := List.forall_mem_append.1 h
    exact .append (unnumbered_functions ht) (AllUnnumbered.functions hrest)

/-- As `unnumbered_functions`, for the suites of clauses. -/
theorem unnumbered_clauseFunctions : {clauses : List (Clause Stmt)} →
    (∀ u ∈ clauseNodes clauses, u.Unnumbered) → Typeward.Unnumbered (clauseFunctions clauses)
  | [], _ => .nil
  | ⟨_, body⟩ :: rest, h => by
    obtain ⟨hbody, hrest⟩ := List.forall_mem_append.1 h
    exact .append (AllUnnumbered.functions hbody) (unnumbered_clauseFunctions hrest)

end

end Stmt

namespace Source

variable {K : Set Pos}

/-- The hints and the initial values of parameters are those of each of them. -/
theorem ParametersIn.mem_toList {ps : Parameters Expr} (h : ParametersIn K ps)
    {q : ParameterKind × Parameter Expr} (hq : q ∈ ps.toList) : ParameterIn K q.2 := by
  simp only [Parameters.toList, List.mem_append, List.mem_map, Option.mem_toList] at hq
  rcases hq with (((⟨p, hp, rfl⟩ | ⟨p, hp, rfl⟩) | ⟨p, hp, rfl⟩) | ⟨p, hp, rfl⟩) | ⟨p, hp, rfl⟩
  · exact h.positionalOnly p hp
  · exact h.positional p hp
  · exact h.variadic p hp
  · exact h.keywordOnly p hp
  · exact h.keywordVariadic p hp

/-- The expressions in the header of a function start at places of a set if its decorators, its
parameters and the hint of what it returns do. -/
theorem nodesIn_functionHead {head : FunctionHead} (hdecorators : NodesIn K head.decorators)
    (hparams : ParametersIn K head.params) (hreturns : NodesIn K head.returns) :
    ∀ e ∈ head.expressions, e.Everywhere (NodeIn K) := by
  intro e he
  rcases FunctionHead.mem_expressions.1 he with he | he | he | he
  · exact hdecorators e he
  · obtain ⟨p, hp, hhint⟩ := List.mem_filterMap.1 he
    obtain ⟨q, hq, rfl⟩ := List.mem_map.1 hp
    exact (hparams.mem_toList hq).of_pair.1 e (mem_slots_option.2 hhint)
  · obtain ⟨q, hq, hinitial⟩ := List.mem_filterMap.1 he
    exact (hparams.mem_toList hq).of_pair.2 e (mem_slots_option.2 hinitial)
  · exact hreturns e (mem_slots_option.2 he)

/-- The expressions in the header of a class start at places of a set if what it is given and its
decorators do. -/
theorem nodesIn_classHead {head : ClassHead} (hdecorators : NodesIn K head.decorators)
    (hgiven : NodesIn K (head.bases, head.keywords)) :
    ∀ e ∈ head.expressions, e.Everywhere (NodeIn K) := by
  intro e he
  rcases ClassHead.mem_expressions.1 he with he | he | he
  · exact hgiven.of_pair.1 e he
  · exact hgiven.of_pair.2 e he
  · exact hdecorators e he

namespace Parse

variable {α β : Type} {P P' : α → Prop} {Q : β → Prop}

/-- Whatever a rule finds in a text whose words start at places of a set satisfies a condition. -/
def Gives (K : Set Pos) (rule : Parse α) (P : α → Prop) : Prop :=
  ∀ ⦃i p a q⦄, i.lexed.Ordered → i.lexed.words ⊆ K → rule i p = .found a q → P a

/-- What holds of everything that a rule finds, wherever it comes to. -/
theorem Stays.gives {rule : Parse α} (h : Stays K rule P) : Gives K rule P :=
  fun _ _ _ _ hi hK hfound => (h hi hfound).2 (Set.inter_subset_left.trans hK)

/-- As `Stays.gives`, of a rule that opens with a word. -/
theorem Reads.gives {rule : Parse α} (h : Reads K rule P) : Gives K rule P := h.stays.gives

/-- What is found satisfies two conditions if it satisfies each of them. -/
theorem Gives.and {rule : Parse α} (h : Gives K rule P) (h' : Gives K rule P') :
    Gives K rule fun a => P a ∧ P' a :=
  fun _ _ _ _ hi hK hfound => ⟨h hi hK hfound, h' hi hK hfound⟩

/-- What is found without reading is the value itself. -/
theorem gives_pure {a : α} (h : P a) : Gives K (pure a) P := by
  intro i p b q _ _ hfound
  obtain ⟨rfl, -⟩ : a = b ∧ p = q := by simpa [pure, Parse.pure] using hfound
  exact h

/-- A rule that misses finds nothing. -/
theorem gives_miss : Gives K miss P := by
  intro i p a q _ _ hfound
  simp [miss] at hfound

/-- What two rules find after each other is found by the second one. -/
theorem Gives.bind {rule : Parse α} {next : α → Parse β} (h : Gives K rule P)
    (hnext : ∀ a, P a → Gives K (next a) Q) : Gives K (rule >>= next) Q := by
  intro i p b q hi hK hfound
  obtain ⟨a, p', ha, hfound⟩ := bind_eq_found.1 hfound
  exact hnext a (h hi hK ha) hi hK hfound

/-- As `Gives.bind`, where the first rule may find anything. -/
theorem gives_bind {rule : Parse α} {next : α → Parse β} (hnext : ∀ a, Gives K (next a) Q) :
    Gives K (rule >>= next) Q :=
  Gives.bind (P := fun _ => True) (fun _ _ _ _ _ _ _ => trivial) fun a _ => hnext a

/-- What is found after reading or not reading something more. -/
theorem gives_join {rule : Parse α} {next : α → Parse β} {a : α} {c : Prop} [Decidable c]
    (hnext : ∀ a, Gives K (next a) Q) : Gives K (if c then rule >>= next else next a) Q := by
  split
  · exact gives_bind hnext
  · exact hnext a

/-- What is found after one of two rules. -/
theorem gives_either {first second : Parse α} {next : α → Parse β} {c : Prop} [Decidable c]
    (hfirst : Gives K first P) (hsecond : Gives K second P)
    (hnext : ∀ a, P a → Gives K (next a) Q) :
    Gives K (if c then first >>= next else second >>= next) Q := by
  split
  · exact hfirst.bind hnext
  · exact hsecond.bind hnext

/-- What one of two rules finds satisfies what both give. -/
theorem Gives.orElse {first second : Parse α} (hfirst : Gives K first P)
    (hsecond : Gives K second P) : Gives K (first <|> second) P := by
  intro i p a q hi hK hfound
  change Parse.orElse first (fun _ => second) i p = _ at hfound
  unfold Parse.orElse at hfound
  split at hfound
  · exact hsecond hi hK hfound
  · exact hfirst hi hK hfound

/-- What a rule finds, if it finds something. -/
theorem Gives.optional {rule : Parse α} (h : Gives K rule P) :
    Gives K (optional rule) fun found => ∀ a ∈ found, P a := by
  refine Gives.orElse ?_ (gives_pure (by simp))
  exact h.bind fun a ha => gives_pure (by simpa using ha)

/-- Every value that a repeated rule finds is found by the rule. -/
theorem Gives.many {rule : Parse α} (h : Gives K rule P) : Gives K (many rule) (∀ a ∈ ·, P a) := by
  have hrepeated (fuel : Nat) : Gives K (repeated rule fuel) (∀ a ∈ ·, P a) := by
    induction fuel with
    | zero => exact gives_pure (by simp)
    | succ fuel ih =>
      refine h.optional.bind fun found hfound => ?_
      cases found with
      | none => exact gives_pure (by simp)
      | some a =>
        refine ih.bind fun rest hrest => gives_pure ?_
        simpa using ⟨hfound a rfl, hrest⟩
  intro i p as q hi hK hfound
  exact hrepeated _ hi hK hfound

/-- A rule is at a place of the set where a word is next. -/
theorem mem_of_here {i : Input} {p q : Place} {pos : Pos} {t : Token} (hi : i.lexed.Ordered)
    (hK : i.lexed.words ⊆ K) (hhere : here i p = .found pos q)
    (ht : i.lexed.tokens[p.index]? = some t) (hword : t.IsWord) : pos ∈ K := by
  rw [(spans_here hi hhere).2.2]
  exact hK (hi.mem_wordsBetween ht hword le_rfl).1

/-- What is found from the place on where a rule opens with a word. -/
theorem gives_here {next : Pos → Parse β} (hopens : ∀ pos, Opens (next pos))
    (hnext : ∀ pos, pos ∈ K → Gives K (next pos) Q) : Gives K (here >>= next) Q := by
  intro i p b q hi hK hfound
  obtain ⟨t, ht, hword⟩ := rests_here.opens hopens hfound
  obtain ⟨pos, p', hhere, hfound⟩ := bind_eq_found.1 hfound
  exact hnext pos (mem_of_here hi hK hhere ht hword) hi hK hfound

/-- What is found from the place of a certain word on, if that word is next. -/
theorem gives_hereAccept {text : String} {next : Pos → Bool → Parse β} (hne : text ≠ "")
    (hread : ∀ pos, pos ∈ K → Gives K (next pos true) Q)
    (hmissed : ∀ pos, Gives K (next pos false) Q) :
    Gives K (do let pos ← here; let found ← accept text; next pos found) Q := by
  intro i p b q hi hK hfound
  obtain ⟨pos, p', hhere, hfound⟩ := bind_eq_found.1 hfound
  obtain ⟨found, p'', haccept, hfound⟩ := bind_eq_found.1 hfound
  obtain ⟨t, ht, -, hword⟩ := accept_eq_found haccept
  rw [rests_here hhere] at ht
  cases found with
  | false => exact hmissed pos hi hK hfound
  | true =>
    exact hread pos (mem_of_here hi hK hhere ht (.inl ((hword rfl).1 ▸ hne))) hi hK hfound

end Parse

open Parse

/-- The rules that other rules refer back to find nodes at places of a set, and suites whose
statements stand at such places. -/
structure Rules.Placed (K : Set Pos) (r : Rules) : Prop where
  places : r.InPlace K
  block : Gives K r.block (Stmt.AllPlaced K)

variable {r : Rules}

/-- Further left sides of an assignment, and its value. -/
theorem gives_assignmentRest (start : Place) (targets : List Expr) (fuel : Nat) :
    Gives K (assignmentRest r start targets fuel) fun t => t.number? = none := by
  induction fuel generalizing targets with
  | zero => exact gives_miss
  | succ fuel ih =>
    refine gives_bind fun isYield => gives_bind fun value => gives_bind fun isEquals => ?_
    split
    · split
      · exact gives_bind fun _ => gives_bind fun _ => gives_miss
      · exact gives_bind fun _ => gives_bind fun _ => gives_bind fun _ => ih _
    · exact gives_pure rfl

/-- Assignments of all kinds, and expressions. -/
theorem gives_assignmentOrExpression :
    Gives K (assignmentOrExpression r) fun t => t.number? = none := by
  refine gives_bind fun token => gives_bind fun start => gives_bind fun e => ?_
  refine gives_bind fun next => ?_
  split
  · refine gives_bind fun _ => ?_
    split
    · have hannotated : Gives K (do
          advance
          let hint ← r.expression
          let value ← optional do
            expect "="
            yieldOrValues r
          return Simple.annotated e hint value (isName e && token.text != "(") none) fun t =>
            t.number? = none :=
        gives_bind fun _ => gives_bind fun hint => gives_bind fun value => gives_pure rfl
      refine hannotated.optional.bind fun annotated hfound => ?_
      split
      · exact gives_pure (hfound _ rfl)
      · exact gives_pure rfl
    · exact gives_pure rfl
  · split
    · have hassigned : Gives K (do
          guard (isTarget e)
          advance
          assignmentRest r start [e] (← fun i p => .found (i.lexed.tokens.size) p)) fun t =>
            t.number? = none :=
        gives_bind fun _ => gives_bind fun _ => gives_bind fun fuel =>
          gives_assignmentRest start [e] fuel
      refine hassigned.optional.bind fun assigned hfound => ?_
      split
      · exact gives_pure (hfound _ rfl)
      · exact gives_bind fun _ => gives_bind fun _ => gives_pure rfl
    · split
      · split
        · exact gives_bind fun _ => gives_bind fun value => gives_pure rfl
        · exact gives_bind fun _ => gives_pure rfl
      · exact gives_bind fun _ => gives_pure rfl

/-- Imports of names from a module. -/
theorem gives_importFrom : Gives K importFrom fun t => t.number? = none := by
  refine gives_bind fun _ => gives_bind fun dots => ?_
  dsimp only
  split
  · exact gives_bind fun source => gives_bind fun _ => gives_bind fun names => gives_pure rfl
  · exact gives_bind fun source => gives_bind fun _ => gives_bind fun names => gives_pure rfl

/-- Deletions. -/
theorem gives_deletion : Gives K (deletion r) fun t => t.number? = none := by
  refine gives_bind fun _ => gives_bind fun fuel => gives_bind fun targets => ?_
  split
  · exact gives_pure rfl
  · exact gives_bind fun _ => gives_miss

/-- Simple statements carry no numbers themselves. -/
theorem gives_simpleStatement : Gives K (simpleStatement r) fun t => t.number? = none := by
  have hword {s : Simple} (hs : s.number? = none) : Gives K (do
      advance
      return s) fun t => t.number? = none :=
    gives_bind fun _ => gives_pure hs
  refine gives_bind fun token => ?_
  dsimp only
  split
  · exact gives_bind fun _ => gives_bind fun e => gives_pure rfl
  · exact gives_bind fun _ => gives_bind fun names => gives_pure rfl
  · exact gives_importFrom
  · refine gives_bind fun _ => gives_bind fun e => ?_
    split
    · exact gives_pure rfl
    · exact gives_bind fun cause => gives_pure rfl
  · exact hword rfl
  · exact gives_deletion
  · exact gives_bind fun e => gives_bind fun _ => gives_join (a := ()) fun _ => gives_pure rfl
  · exact gives_bind fun _ => gives_bind fun test => gives_bind fun message => gives_pure rfl
  · exact hword rfl
  · exact hword rfl
  · exact gives_bind fun _ => gives_bind fun names => gives_pure rfl
  · exact gives_bind fun _ => gives_bind fun names => gives_pure rfl
  · exact gives_assignmentOrExpression

/-- Simple statements on one line. -/
theorem gives_simpleStatements (h : r.Placed K) :
    Gives K (simpleStatements r) (Stmt.AllPlaced K) := by
  have hsimple := gives_simpleStatement.and (places_simpleStatement h.places).gives
  have hone : Gives K (do return Stmt.simple (← here) (← simpleStatement r)) (Stmt.Placed K) :=
    gives_here (fun pos => (places_simpleStatement h.places).opens.bind) fun pos hpos =>
      hsimple.bind fun t ht =>
        gives_pure (List.forall_mem_singleton.2 ⟨hpos, ht.1, ht.2⟩)
  refine hone.bind fun first hfirst => ?_
  refine Gives.bind (Gives.many (gives_bind fun _ => hone)) fun rest hrest => ?_
  refine gives_bind fun _ => gives_bind fun _ => gives_pure ?_
  exact Stmt.allPlaced_of_placed (List.forall_mem_cons.2 ⟨hfirst, hrest⟩)

/-- A suite holds what the rules give. -/
theorem gives_suite (h : r.Placed K) : Gives K (suite r) (Stmt.AllPlaced K) :=
  gives_bind fun _ => gives_bind fun _ => gives_bind fun _ => h.block

/-- A suite behind a forced colon holds what the rules give. -/
theorem gives_forcedSuite (h : r.Placed K) : Gives K (forcedSuite r) (Stmt.AllPlaced K) :=
  gives_bind fun _ => gives_bind fun _ => h.block

/-- The `else` suite holds what the rules give. -/
theorem gives_elseSuite (h : r.Placed K) : Gives K (elseSuite r) (Stmt.AllPlaced K) :=
  gives_bind fun _ => gives_forcedSuite h

/-- The alternative of a condition. -/
theorem gives_alternative (h : r.Placed K) (fuel : Nat) :
    Gives K (alternative r fuel) (Stmt.AllPlaced K) := by
  induction fuel with
  | zero => exact gives_pure (List.forall_mem_nil _)
  | succ fuel ih =>
    refine gives_hereAccept (by decide) (fun pos hpos => ?_) fun pos => ?_
    · refine (places_namedExpression h.places).gives.bind fun test htest => ?_
      refine (gives_suite h).bind fun body hbody => ih.bind fun orelse horelse => gives_pure ?_
      have hbranch := Stmt.placed_branch htest hbody horelse hpos
      exact Stmt.allPlaced_of_placed (List.forall_mem_singleton.2 hbranch)
    · refine gives_bind fun isElse => ?_
      split
      · exact gives_elseSuite h
      · exact gives_pure (List.forall_mem_nil _)

/-- What is found from the place of a word on that has to be next. -/
theorem gives_hereExpect {α : Type} {P : α → Prop} {text : String} {next : Pos → Parse α}
    (hne : text ≠ "") (hnext : ∀ pos, pos ∈ K → Gives K (next pos) P) :
    Gives K (do let pos ← here; expect text; next pos) P :=
  gives_here (fun _ => (opens_expect hne).bind) fun pos hpos => gives_bind fun _ => hnext pos hpos

/-- Conditions. -/
theorem gives_branchStatement (h : r.Placed K) :
    Gives K (branchStatement r) (Stmt.Placed K) := by
  refine gives_hereExpect (by decide) fun pos hpos => ?_
  refine (places_namedExpression h.places).gives.bind fun test htest => ?_
  refine (gives_suite h).bind fun body hbody => ?_
  have halternative : Gives K (fun i p => alternative r (i.lexed.tokens.size + 1) i p)
      (Stmt.AllPlaced K) :=
    fun i p ts q hi hK hfound => gives_alternative h _ hi hK hfound
  exact halternative.bind fun orelse horelse =>
    gives_pure (Stmt.placed_branch htest hbody horelse hpos)

/-- A clause whose header holds no expressions. -/
theorem placedClause_bare (head : ClauseHead) {body : List Stmt} (hhead : slots head = [])
    (hbody : Stmt.AllPlaced K body) : Stmt.PlacedClause K ⟨head, body⟩ :=
  ⟨.empty hhead, hbody⟩

/-- An `else` clause. -/
theorem gives_elseClause (h : r.Placed K) :
    Gives K (elseClause r) (∀ c ∈ ·, Stmt.PlacedClause K c) := by
  refine gives_bind fun isElse => ?_
  split
  · refine (gives_elseSuite h).bind fun body hbody => gives_pure ?_
    exact List.forall_mem_singleton.2 (placedClause_bare _ rfl hbody)
  · exact gives_pure (List.forall_mem_nil _)

/-- Loops with a condition. -/
theorem gives_whileStatement (h : r.Placed K) : Gives K (whileStatement r) (Stmt.Placed K) := by
  refine gives_hereExpect (by decide) fun pos hpos => ?_
  refine (places_namedExpression h.places).gives.bind fun test htest => ?_
  refine (gives_suite h).bind fun body hbody => ?_
  refine (gives_elseClause h).bind fun clauses hclauses => gives_pure ?_
  exact Stmt.placed_compound (List.forall_mem_cons.2 ⟨⟨htest, hbody⟩, hclauses⟩) hpos

/-- Loops over a source. -/
theorem gives_forStatement (h : r.Placed K) {pos : Pos} (hpos : pos ∈ K) (isAsync : Bool) :
    Gives K (forStatement r pos isAsync) (Stmt.Placed K) := by
  refine gives_bind fun _ => ?_
  refine (places_loopTargets h.places).gives.bind fun target htarget => ?_
  refine (places_starExpressions h.places).gives.bind fun source hsource => ?_
  refine (gives_forcedSuite h).bind fun body hbody => ?_
  refine (gives_elseClause h).bind fun clauses hclauses => gives_pure ?_
  have hhead : NodesIn K (ClauseHead.forLoop isAsync target source) := htarget.pair hsource
  exact Stmt.placed_compound (List.forall_mem_cons.2 ⟨⟨hhead, hbody⟩, hclauses⟩) hpos

/-- Statements with a context. -/
theorem gives_withStatement (h : r.Placed K) {pos : Pos} (hpos : pos ∈ K) (isAsync : Bool) :
    Gives K (withStatement r pos isAsync) (Stmt.Placed K) := by
  refine gives_bind fun _ => (stays_withItems h.places).gives.bind fun items hitems => ?_
  refine (gives_suite h).bind fun body hbody => gives_pure ?_
  exact Stmt.placed_compound (List.forall_mem_singleton.2 ⟨hitems, hbody⟩) hpos

/-- A handler of exceptions. -/
theorem gives_handler (h : r.Placed K) (isGroup : Bool) :
    Gives K (handler r isGroup) (Stmt.PlacedClause K) := by
  refine gives_bind fun _ => gives_join (a := ()) fun _ => gives_bind fun isBare => ?_
  split
  · exact (gives_suite h).bind fun body hbody => gives_pure (placedClause_bare _ rfl hbody)
  · refine h.places.expression.gives.bind fun kind hkind => ?_
    refine gives_bind fun _ => gives_bind fun id => ?_
    exact (gives_suite h).bind fun body hbody => gives_pure ⟨hkind, hbody⟩

/-- Statements that handle exceptions. -/
theorem gives_tryStatement (h : r.Placed K) : Gives K (tryStatement r) (Stmt.Placed K) := by
  have hnil : Gives K (pure []) (∀ c ∈ ·, Stmt.PlacedClause K c) :=
    gives_pure (List.forall_mem_nil _)
  refine gives_hereExpect (by decide) fun pos hpos => ?_
  refine (gives_forcedSuite h).bind fun body hbody => ?_
  refine gives_bind fun isGroup => ?_
  refine (gives_handler h isGroup).many.bind fun handlers hhandlers => ?_
  refine gives_bind fun _ => gives_either hnil (gives_elseClause h) fun otherwise hotherwise => ?_
  have hend (final : List (Clause Stmt)) (hfinal : ∀ c ∈ final, Stmt.PlacedClause K c) :
      Stmt.Placed K (.compound pos (⟨.tryBody, body⟩ :: handlers ++ otherwise ++ final)) := by
    have hfirst := List.forall_mem_cons.2 ⟨placedClause_bare .tryBody rfl hbody, hhandlers⟩
    refine Stmt.placed_compound (List.forall_mem_append.2 ⟨?_, hfinal⟩) hpos
    exact List.forall_mem_append.2 ⟨hfirst, hotherwise⟩
  refine gives_bind fun hasFinal => ?_
  dsimp only
  split
  · refine (gives_forcedSuite h).bind fun last hlast => ?_
    have hclause := placedClause_bare .finallyBody rfl hlast
    refine Gives.bind (P := fun final => ∀ c ∈ final, Stmt.PlacedClause K c)
      (gives_pure (List.forall_mem_singleton.2 hclause)) fun final hfinal => ?_
    split
    · exact gives_bind fun _ => gives_bind fun _ => gives_pure (hend final hfinal)
    · exact gives_pure (hend final hfinal)
  · refine hnil.bind fun final hfinal => ?_
    split
    · exact gives_bind fun _ => gives_bind fun _ => gives_pure (hend final hfinal)
    · exact gives_pure (hend final hfinal)

/-- A case of a `match` statement. -/
theorem gives_caseClause (h : r.Placed K) : Gives K (caseClause r) (Stmt.PlacedClause K) := by
  have hcondition : Stays K (optional (do expect "if"; namedExpression r)) (NodesIn K) :=
    Stays.optional (Stays.after (fun _ => (places_namedExpression h.places).stays)
      (spans_expect _).advances)
  refine gives_bind fun _ => (stays_casePattern h.places).gives.bind fun chosen hchosen => ?_
  refine hcondition.gives.bind fun condition hcondition => ?_
  exact (gives_suite h).bind fun body hbody => gives_pure ⟨hchosen.pair hcondition, hbody⟩

/-- What is read behind the subject of a `match` statement. -/
theorem gives_cases (h : r.Placed K) {pos : Pos} (hpos : pos ∈ K) {subject : Expr}
    (hsubject : NodesIn K subject) : Gives K (behindSubject r pos subject) (Stmt.Placed K) := by
  refine gives_bind fun _ => gives_bind fun _ => gives_bind fun _ => gives_bind fun _ => ?_
  refine gives_bind fun _ => (gives_caseClause h).bind fun first hfirst => ?_
  refine (gives_caseClause h).many.bind fun rest hrest => ?_
  refine gives_bind fun _ => gives_pure ?_
  have hhead : Stmt.PlacedClause K ⟨.subject subject, []⟩ := ⟨hsubject, List.forall_mem_nil _⟩
  have hcases := List.forall_mem_cons.2 ⟨hfirst, hrest⟩
  exact Stmt.placed_compound (List.forall_mem_cons.2 ⟨hhead, hcases⟩) hpos

/-- Statements that match a value against patterns. -/
theorem gives_matchStatement (h : r.Placed K) : Gives K (matchStatement r) (Stmt.Placed K) := by
  have hvalue : Places K (starNamed r) := places_starNamed h.places
  refine gives_hereExpect (by decide) fun pos hpos => ?_
  refine gives_here (fun start => hvalue.opens.bind) fun start hstart => ?_
  refine hvalue.gives.bind fun first hfirst => gives_bind fun isSeveral => ?_
  dsimp only
  split
  · refine hvalue.listed.stays.maybe.gives.bind fun rest hrest => ?_
    rw [pure_bind_eq]
    exact gives_cases h hpos (.node hstart rfl (nodesIn_more hfirst hrest))
  · refine gives_bind fun _ => ?_
    rw [pure_bind_eq]
    exact gives_cases h hpos hfirst

/-- Definitions of functions. -/
theorem gives_functionStatement (h : r.Placed K) {pos : Pos} (hpos : pos ∈ K) (isAsync : Bool)
    {decorators : List Expr} (hdecorators : NodesIn K decorators) :
    Gives K (functionStatement r pos isAsync decorators) (Stmt.Placed K) := by
  have hparams := stays_parameters h.places (inPlace_functionParameters h.places)
  have hreturns : Stays K (optional (do expect "->"; r.expression)) (NodesIn K) :=
    Stays.optional (Stays.after (fun _ => h.places.expression.stays) (spans_expect _).advances)
  refine gives_bind fun _ => gives_bind fun id => gives_bind fun _ => ?_
  refine hparams.gives.bind fun params hparams => gives_bind fun _ => ?_
  refine hreturns.gives.bind fun returns hreturns => ?_
  refine (gives_forcedSuite h).bind fun body hbody => gives_pure ?_
  exact List.forall_mem_cons.2
    ⟨⟨hpos, rfl, nodesIn_functionHead hdecorators hparams hreturns⟩, hbody⟩

/-- Definitions of classes. -/
theorem gives_classStatement (h : r.Placed K) {decorators : List Expr}
    (hdecorators : NodesIn K decorators) :
    Gives K (classStatement r decorators) (Stmt.Placed K) := by
  refine gives_hereExpect (by decide) fun pos hpos => gives_bind fun id => ?_
  refine (stays_classArguments h.places).gives.bind fun given hgiven => ?_
  refine (gives_suite h).bind fun body hbody => gives_pure ?_
  exact List.forall_mem_cons.2 ⟨⟨hpos, rfl, nodesIn_classHead hdecorators hgiven⟩, hbody⟩

/-- Statements that may start with `async`. -/
theorem gives_asyncStatement (h : r.Placed K) {decorators : List Expr}
    (hdecorators : NodesIn K decorators) :
    Gives K (asyncStatement r decorators) (Stmt.Placed K) := by
  refine gives_here (fun pos => opens_accept (by decide) ?_) fun pos hpos => ?_
  · refine rests_peek.opens fun token => ?_
    split
    · exact (opens_expect (by decide)).bind
    · split
      · exact (opens_expect (by decide)).bind
      · exact opens_miss
    · split
      · exact (opens_expect (by decide)).bind
      · exact opens_miss
    · exact opens_miss
  · refine gives_bind fun isAsync => gives_bind fun token => ?_
    split
    · exact gives_functionStatement h hpos isAsync hdecorators
    · split
      · exact gives_forStatement h hpos isAsync
      · exact gives_miss
    · split
      · exact gives_withStatement h hpos isAsync
      · exact gives_miss
    · exact gives_miss

/-- Definitions behind their decorators. -/
theorem gives_decoratedStatement (h : r.Placed K) :
    Gives K (decoratedStatement r) (Stmt.Placed K) := by
  have hone : Gives K (do
      expect "@"
      let e ← namedExpression r
      let _ ← expectKind .newline
      return e) (NodesIn K) :=
    gives_bind fun _ => (places_namedExpression h.places).gives.bind fun e he =>
      gives_bind fun _ => gives_pure he
  refine hone.many.bind fun decorators hdecorators => gives_bind fun isClass => ?_
  split
  · exact gives_classStatement h (.list hdecorators)
  · split
    · exact gives_miss
    · exact gives_asyncStatement h (.list hdecorators)

/-- One statement, or several on a line. -/
theorem gives_statement (h : r.Placed K) : Gives K (statement r) (Stmt.AllPlaced K) := by
  have hone {rule : Parse Stmt} (hrule : Gives K rule (Stmt.Placed K)) :
      Gives K (do return [← rule]) (Stmt.AllPlaced K) :=
    hrule.bind fun t ht => gives_pure
      (Stmt.allPlaced_of_placed (List.forall_mem_singleton.2 ht))
  have hnone : NodesIn K ([] : List Expr) := .empty rfl
  have hasync := gives_asyncStatement h hnone
  refine gives_bind fun token => ?_
  split
  · exact hone hasync
  · exact hone hasync
  · exact hone hasync
  · exact hone hasync
  · exact hone (gives_decoratedStatement h)
  · exact hone (gives_branchStatement h)
  · exact hone (gives_classStatement h (.empty rfl))
  · exact hone (gives_tryStatement h)
  · exact hone (gives_whileStatement h)
  · exact (hone (gives_matchStatement h)).orElse (gives_simpleStatements h)
  · exact gives_simpleStatements h

/-- Statements up to what is no statement. -/
theorem gives_statements (h : r.Placed K) : Gives K (statements r) (Stmt.AllPlaced K) := by
  refine (gives_statement h).bind fun first hfirst => ?_
  refine (gives_statement h).many.bind fun rest hrest => gives_pure ?_
  have hall : ∀ ts ∈ first :: rest, Stmt.AllPlaced K ts :=
    List.forall_mem_cons.2 ⟨hfirst, hrest⟩
  exact Stmt.allPlaced_flatten hall

/-- A suite on the header's line, or an indented block. -/
theorem gives_block (h : r.Placed K) : Gives K (block r) (Stmt.AllPlaced K) := by
  refine gives_bind fun token => ?_
  split
  · refine gives_bind fun _ => gives_bind fun _ => ?_
    refine (gives_statements h).bind fun body hbody => ?_
    exact gives_bind fun _ => gives_pure hbody
  · exact gives_simpleStatements h

/-- However deep a text nests, what is found in it starts at words. -/
theorem placed_rules (n : Nat) : (rules n).Placed K := by
  refine ⟨inPlace_rules n, ?_⟩
  induction n with
  | zero => exact gives_miss
  | succ n ih => exact fun i p ts q hi hK hfound => gives_block ⟨inPlace_rules n, ih⟩ hi hK hfound

/-- A module. -/
theorem gives_moduleRule (h : r.Placed K) : Gives K (moduleRule r) (Stmt.AllPlaced K) :=
  (gives_statement h).many.bind fun _ hbody =>
    gives_bind fun _ => gives_pure (Stmt.allPlaced_flatten hbody)

/-- What is read from a text is found by the rule in the tokens of the text. -/
theorem exists_found_of_readWith {α : Type} {rule : Rules → Parse α} {source : String} {a : α}
    (h : readWith rule source = .ok a) :
    ∃ n i p q, i.lexed = lexText ⟨1, 0, 0, moduleText source⟩ (textLines (moduleText source)) ∧
      rule (rules n) i p = .found a q := by
  unfold readWith Parse.run at h
  dsimp only at h
  split at h
  · cases h
  · split at h
    · rename_i a' ha
      obtain rfl := Except.ok.inj h
      split at ha
      · rename_i found place hfound
        obtain rfl := Except.ok.inj ha
        exact ⟨_, _, _, _, rfl, hfound⟩
      · cases ha
      · split at ha <;> cases ha
    · cases h

/-- The places of the words in a module. -/
def wordPlaces (source : String) : Set Pos :=
  (lexText ⟨1, 0, 0, moduleText source⟩ (textLines (moduleText source))).words

/-- Everything in a module that is read from a text starts at a word of the text. -/
theorem allPlaced_of_parseModule {source : String} {m : Module}
    (h : parseModule source = .ok m) : Stmt.AllPlaced (wordPlaces source) m := by
  obtain ⟨n, i, p, q, hlexed, hfound⟩ := exists_found_of_readWith h
  have hordered : i.lexed.Ordered := hlexed ▸ Lexed.ordered_lexText _ _
  exact gives_moduleRule (placed_rules n) hordered (hlexed ▸ subset_rfl) hfound

/-- Nothing in a module that is read from a text carries a number. -/
theorem allUnnumbered_of_parseModule {source : String} {m : Module}
    (h : parseModule source = .ok m) : Stmt.AllUnnumbered m :=
  (allPlaced_of_parseModule h).unnumbered

/-- The functions in a module that is read from a text carry no numbers. -/
theorem unnumbered_of_parseModule {source : String} {m : Module}
    (h : parseModule source = .ok m) : Unnumbered (Stmt.allFunctions m) :=
  (allUnnumbered_of_parseModule h).functions

end Source

end Typeward
