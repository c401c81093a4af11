import Typeward.Proofs.StatementPlaces

/-!
# The order of statements

The marks of a module that is read from a text are in the order of their places: statements are read
one after the other, the colon of a header stands behind what the header holds, and the end of a
line behind what stands on it.
-/

namespace Typeward

open Slots

/-- Two marks are in the order of their places: a site before a statement starts before it, and a
site behind the start of a statement does not. -/
def Mark.InOrder : Mark → Mark → Prop
  | .site p, .opens _ q => p < q
  | .opens _ p, .site q => p ≤ q
  | _, _ => True

/-- The marks of a module are in the order of their places. -/
def Module.InOrder (m : Module) : Prop := m.marks.Pairwise Mark.InOrder

/-- A mark stands at a place of a set. The end of a statement has no place of its own. -/
def Mark.StandsIn (K : Set Pos) : Mark → Prop
  | .opens _ pos | .site pos => pos ∈ K
  | .closes .. => True

namespace Source

open Parse

/-- Marks stand at places of a set, in the order of these. -/
structure LaidOut (K : Set Pos) (ms : List Mark) : Prop where
  ordered : ms.Pairwise Mark.InOrder
  stands : ∀ m ∈ ms, m.StandsIn K

namespace LaidOut

variable {J K L : Set Pos} {ms ns : List Mark} {a b c : Pos}

/-- No marks are laid out. -/
theorem nil : LaidOut K [] := ⟨.nil, List.forall_mem_nil _⟩

/-- What stands at places of a set stands at places of a larger one. -/
theorem mono (h : LaidOut J ms) (hJ : J ⊆ K) : LaidOut K ms := by
  refine ⟨h.ordered, fun m hm => ?_⟩
  have hstands := h.stands m hm
  cases m with
  | opens name pos => exact hJ hstands
  | closes name pos => trivial
  | site pos => exact hJ hstands

/-- Marks whose places are in order are in order. -/
theorem inOrder_of_lt {m n : Mark} (hm : m.StandsIn J) (hn : n.StandsIn K)
    (h : ∀ p ∈ J, ∀ q ∈ K, p < q) : m.InOrder n := by
  cases m with
  | opens name pos =>
    cases n with
    | site pos' => exact (h pos hm pos' hn).le
    | _ => trivial
  | closes name pos => trivial
  | site pos =>
    cases n with
    | opens name pos' => exact h pos hm pos' hn
    | _ => trivial

/-- Marks stand behind others if their places do. -/
theorem append (h : LaidOut J ms) (h' : LaidOut K ns) (hbefore : ∀ p ∈ J, ∀ q ∈ K, p < q)
    (hJ : J ⊆ L) (hK : K ⊆ L) : LaidOut L (ms ++ ns) := by
  refine ⟨List.pairwise_append.2 ⟨h.ordered, h'.ordered, fun m hm n hn => ?_⟩, fun m hm => ?_⟩
  · exact inOrder_of_lt (h.stands m hm) (h'.stands n hn) hbefore
  · rcases List.mem_append.1 hm with hm | hm
    · exact (h.mono hJ).stands m hm
    · exact (h'.mono hK).stands m hm

/-- Marks between two places, and others from the second place on. -/
theorem behind (h : LaidOut (Set.Ico a b) ms) (h' : LaidOut (Set.Ico b c) ns) (hab : a ≤ b)
    (hbc : b ≤ c) : LaidOut (Set.Ico a c) (ms ++ ns) :=
  h.append h' (fun _ hp _ hq => hp.2.trans_le hq.1) (Set.Ico_subset_Ico_right hbc)
    (Set.Ico_subset_Ico_left hab)

/-- Marks up to a place, and others behind it. -/
theorem beyond (h : LaidOut (Set.Icc a b) ms) (h' : LaidOut (Set.Ioo b c) ns) (hab : a ≤ b)
    (hbc : b < c) : LaidOut (Set.Ico a c) (ms ++ ns) :=
  h.append h' (fun _ hp _ hq => hp.2.trans_lt hq.1) (fun _ hp => ⟨hp.1, hp.2.trans_lt hbc⟩)
    fun _ hq => ⟨hab.trans hq.1.le, hq.2⟩

/-- Sites are in order wherever they stand. -/
theorem sites {ps : List Pos} (h : ∀ p ∈ ps, p ∈ K) : LaidOut K (ps.map .site) := by
  refine ⟨?_, fun m hm => ?_⟩
  · refine List.pairwise_map.2 (List.pairwise_of_forall fun _ _ => ?_)
    trivial
  · obtain ⟨p, hp, rfl⟩ := List.mem_map.1 hm
    exact h p hp

/-- The start and the end of a statement around what stands behind its start. -/
theorem around (h : LaidOut K ms) (depth : Nat) (name : String) {pos : Pos} (hpos : pos ∈ K)
    (hfirst : ∀ p ∈ K, pos ≤ p) : LaidOut K (marksAround depth name pos ms) := by
  unfold marksAround
  split
  · have hends : LaidOut K (ms ++ [.closes name pos]) := by
      refine ⟨List.pairwise_append.2 ⟨h.ordered, List.pairwise_singleton _ _, ?_⟩, ?_⟩
      · intro m _ n hn
        rw [List.mem_singleton.1 hn]
        cases m <;> trivial
      · refine List.forall_mem_append.2 ⟨h.stands, ?_⟩
        exact List.forall_mem_singleton.2 trivial
    refine ⟨List.pairwise_cons.2 ⟨fun m hm => ?_, hends.ordered⟩,
      List.forall_mem_cons.2 ⟨hpos, hends.stands⟩⟩
    have hstands := hends.stands m hm
    cases m with
    | site p => exact hfirst p hstands
    | _ => trivial
  · exact h

/-- Imports stand where they start. -/
theorem imports (depth : Nat) (names : List String) {pos : Pos} (hpos : pos ∈ K) :
    LaidOut K (names.flatMap fun x => marksAround depth x pos []) := by
  have hmarks : ∀ m ∈ names.flatMap fun x => marksAround depth x pos [],
      ∃ x, m = .opens x pos ∨ m = .closes x pos := by
    intro m hm
    obtain ⟨x, -, hm⟩ := List.mem_flatMap.1 hm
    unfold marksAround at hm
    split at hm
    · exact ⟨x, by simpa using hm⟩
    · exact absurd hm List.not_mem_nil
  refine ⟨List.pairwise_of_forall_mem_list fun m hm n hn => ?_, fun m hm => ?_⟩
  · obtain ⟨x, rfl | rfl⟩ := hmarks m hm
    · obtain ⟨y, rfl | rfl⟩ := hmarks n hn <;> trivial
    · trivial
  · obtain ⟨x, rfl | rfl⟩ := hmarks m hm
    · exact hpos
    · trivial

end LaidOut

/-- Values with marks, inside of so many definitions. -/
class Marked (α : Type) where
  marks (depth : Nat) : α → List Mark

instance : Marked Stmt := ⟨Stmt.marks⟩

instance : Marked (Clause Stmt) :=
  ⟨fun depth clause => sitesIn clause.head ++ Stmt.allMarks depth clause.body⟩

instance : Marked Expr := ⟨fun _ e => sitesIn e⟩

instance {α : Type} [Marked α] : Marked (List α) :=
  ⟨fun depth xs => xs.flatMap (Marked.marks depth)⟩

/-- The marks of statements are those of each of them. -/
theorem allMarks_eq (depth : Nat) (ts : List Stmt) :
    Stmt.allMarks depth ts = Marked.marks depth ts := by
  induction ts with
  | nil => rw [Stmt.allMarks]; rfl
  | cons t ts ih => rw [Stmt.allMarks, ih]; rfl

/-- The marks of clauses are those of each of them. -/
theorem clauseMarks_eq (depth : Nat) (cs : List (Clause Stmt)) :
    Stmt.clauseMarks depth cs = Marked.marks depth cs := by
  induction cs with
  | nil => rw [Stmt.clauseMarks]; rfl
  | cons clause cs ih => rw [Stmt.clauseMarks, ih]; rfl

/-- The marks of expressions are the sites in them. -/
theorem sitesIn_eq (depth : Nat) (es : List Expr) : sitesIn es = Marked.marks depth es := by
  change ((listSlots es).flatMap (·.calls)).map Mark.site = es.flatMap fun e => sitesIn e
  rw [listSlots_expr, List.map_flatMap]
  simp only [sitesIn, slots, List.flatMap_singleton]

/-- A value is laid out at places of a set, inside of however many definitions. -/
def MarksIn (K : Set Pos) {α : Type} [Marked α] (x : α) : Prop :=
  ∀ depth, LaidOut K (Marked.marks depth x)

namespace MarksIn

variable {α : Type} [Marked α] {J K L : Set Pos} {x : α} {xs ys : List α} {a b c : Pos}

/-- What stands at places of a set stands at places of a larger one. -/
theorem mono (h : MarksIn J x) (hJ : J ⊆ K) : MarksIn K x := fun depth => (h depth).mono hJ

/-- No values are laid out. -/
theorem nil : MarksIn K ([] : List α) := fun _ => .nil

/-- One value is laid out as the value is. -/
theorem single (h : MarksIn K x) : MarksIn K [x] := by
  intro depth
  change LaidOut K ([x].flatMap (Marked.marks depth))
  rw [List.flatMap_singleton]
  exact h depth

/-- Values stand behind others if their places do. -/
theorem append (h : MarksIn J xs) (h' : MarksIn K ys) (hbefore : ∀ p ∈ J, ∀ q ∈ K, p < q)
    (hJ : J ⊆ L) (hK : K ⊆ L) : MarksIn L (xs ++ ys) := by
  intro depth
  change LaidOut L ((xs ++ ys).flatMap (Marked.marks depth))
  rw [List.flatMap_append]
  exact (h depth).append (h' depth) hbefore hJ hK

/-- Values between two places, and others from the second place on. -/
theorem behind (h : MarksIn (Set.Ico a b) xs) (h' : MarksIn (Set.Ico b c) ys) (hab : a ≤ b)
    (hbc : b ≤ c) : MarksIn (Set.Ico a c) (xs ++ ys) :=
  h.append h' (fun _ hp _ hq => hp.2.trans_le hq.1) (Set.Ico_subset_Ico_right hbc)
    (Set.Ico_subset_Ico_left hab)

end MarksIn

variable {α β : Type} {J K : Set Pos} {r : Rules} {a b c d : Pos}

/-- What starts at places of a set starts at places of a larger one. -/
theorem NodesIn.mono [Slots α] {x : α} (h : NodesIn J x) (hJ : J ⊆ K) : NodesIn K x :=
  fun e he => (h e he).mono fun _ hnode => ⟨hJ hnode.place, hnode.number⟩

/-- The sites in a value stand where the calls in it start. -/
theorem NodesIn.laidOut [Slots α] {x : α} (h : NodesIn K x) : LaidOut K (sitesIn x) := by
  refine LaidOut.sites fun p hp => ?_
  obtain ⟨e, he, hp⟩ := List.mem_flatMap.1 hp
  exact h.places e he p hp

/-- As `NodesIn.laidOut`, with a site in front. -/
theorem NodesIn.laidOut_cons [Slots α] {x : α} (h : NodesIn K x) {pos : Pos} (hpos : pos ∈ K) :
    LaidOut K (.site pos :: sitesIn x) := by
  have hsites : ∀ p ∈ pos :: (slots x).flatMap (·.calls), p ∈ K := by
    refine List.forall_mem_cons.2 ⟨hpos, fun p hp => ?_⟩
    obtain ⟨e, he, hp⟩ := List.mem_flatMap.1 hp
    exact h.places e he p hp
  exact LaidOut.sites hsites

/-- The sites in a pair are those in its parts. -/
theorem sitesIn_pair [Slots α] [Slots β] (x : α) (y : β) :
    sitesIn (x, y) = sitesIn x ++ sitesIn y := by
  change ((slots x ++ slots y).flatMap (·.calls)).map Mark.site = _
  rw [List.flatMap_append, List.map_append]
  rfl

/-- A simple statement stands where it starts, and what it holds where the calls in it do. -/
theorem NodesIn.simple {t : Simple} (h : NodesIn K t) {pos : Pos} (hpos : pos ∈ K) :
    MarksIn K (Stmt.simple pos t) := by
  intro depth
  change LaidOut K (Stmt.marks depth (.simple pos t))
  rw [Stmt.marks]
  unfold Simple.marks
  split
  · exact LaidOut.imports depth _ hpos
  · exact LaidOut.imports depth _ hpos
  · exact h.laidOut_cons hpos

/-- What a rule finds stands between the places that it is read between. -/
theorem spans_of_stays {P : Set Pos → α → Prop} {rule : Parse α} (h : ∀ K, Stays K rule (P K)) :
    Spans rule fun a b x => P (Set.Icc a b) x := by
  intro i p x q hi hfound
  obtain ⟨hle, hx⟩ := h (Set.Icc (i.lexed.posAt p.index) (i.lexed.posAt q.index)) hi hfound
  exact ⟨hle, hx Set.inter_subset_right⟩

/-- The nodes in what a rule finds start between the places that it is read between. -/
theorem spans_of_places [Slots α] {rule : Parse α} (h : ∀ K, Places K rule) :
    Spans rule fun a b x => NodesIn (Set.Icc a b) x :=
  spans_of_stays fun K => (h K).stays

namespace Parse

variable [Marked α] [Marked β] {rule : Parse α} {next : α → Parse β} {other : Parse β}

/-- What a rule finds is laid out between the places that it is read between, the second one left
out. -/
abbrev KeepsOrder (rule : Parse α) : Prop := Spans rule fun a b x => MarksIn (Set.Ico a b) x

/-- What is read behind something else. -/
theorem KeepsOrder.after {γ : Type} {first : Parse γ} {next : γ → Parse β}
    (hnext : ∀ x, KeepsOrder (next x)) (h : Advances first) : KeepsOrder (first >>= next) := by
  refine Spans.bind h fun x => (hnext x).mono fun b c y _ hy a hab _ => ?_
  exact hy.mono (Set.Ico_subset_Ico_left hab)

/-- What a rule finds is laid out with what stands before. -/
abbrev KeepsBehind (before : α) (rule : Parse β) : Prop :=
  Spans rule fun b c y => ∀ a ≤ b, MarksIn (Set.Ico a b) before → MarksIn (Set.Ico a c) y

/-- As `KeepsOrder.after`, behind what stands before. -/
theorem KeepsBehind.after {γ : Type} {before : α} {first : Parse γ} {next : γ → Parse β}
    (hnext : ∀ x, KeepsBehind before (next x)) (h : Advances first) :
    KeepsBehind before (first >>= next) := by
  refine Spans.bind h fun x => (hnext x).mono fun c d y _ hy b hbc _ a hab hbefore => ?_
  exact hy a (hab.trans hbc) (hbefore.mono (Set.Ico_subset_Ico_right hbc))

/-- What a repeated rule finds. -/
theorem KeepsOrder.many (h : KeepsOrder rule) : KeepsOrder (many rule) :=
  Spans.many h (fun _ => .nil) fun _ _ _ _ _ hab hbc hx hxs => hx.single.behind hxs hab hbc

end Parse

/-- The end of a line is not empty. -/
theorem lt_of_newline {t : Token} (h : t.pos = a ∧ t.Within a b ∧ t.kind = .newline) : a < b := by
  obtain ⟨hstart, hwithin, hkind⟩ := h
  rw [← hstart]
  exact (hwithin.nonempty (.inr hkind)).trans_le hwithin.stop

/-- Simple statements on one line. -/
theorem keepsOrder_simpleStatements (h : ∀ K, r.InPlace K) : KeepsOrder (simpleStatements r) := by
  have hone : Spans (do
      let pos ← here
      return Stmt.simple pos (← simpleStatement r)) fun a b t => MarksIn (Set.Icc a b) t := by
    refine Spans.bind spans_here fun pos => ?_
    refine Spans.bind (spans_of_places fun K => places_simpleStatement (h K)) fun t => ?_
    refine spans_pure fun c b hbc ht a hab hhere => ?_
    obtain ⟨rfl, rfl⟩ := hhere
    exact ht.simple ⟨le_rfl, hbc⟩
  have hmore : Spans (do
      expect ";"
      let pos ← here
      return Stmt.simple pos (← simpleStatement r)) fun a b t => MarksIn (Set.Ioc a b) t := by
    refine Spans.bind (spans_expect _) fun _ => ?_
    refine hone.mono fun b c t hbc ht a hab hsemicolon => ht.mono ?_
    exact fun p hp => ⟨(hsemicolon (by decide)).trans_le hp.1, hp.2⟩
  have hrest := hmore.many (Q := fun a b ts => MarksIn (Set.Ioc a b) ts) (fun a => .nil)
    fun a b c t ts hab hbc ht hts =>
      ht.single.append hts (fun p hp q hq => hp.2.trans_lt hq.1) (Set.Ioc_subset_Ioc_right hbc)
        (Set.Ioc_subset_Ioc_left hab)
  refine Spans.bind hone fun first => ?_
  refine Spans.bind hrest fun rest => ?_
  refine Spans.bind (spans_accept _) fun comma => ?_
  refine Spans.bind (spans_expectKind _) fun newline => ?_
  refine spans_pure fun e d hde hnewline c hcd _ b hbc hrest a hab hfirst => ?_
  have hend : d < e := lt_of_newline hnewline
  refine hfirst.single.append hrest (fun p hp q hq => hp.2.trans_lt hq.1) ?_ ?_
  · exact fun p hp => ⟨hp.1, (hp.2.trans (hbc.trans hcd)).trans_lt hend⟩
  · exact fun p hp => ⟨hab.trans hp.1.le, (hp.2.trans hcd).trans_lt hend⟩

/-- The rules that statements refer back to find nodes where they come to, and the statements of
suites in order. -/
structure Rules.KeepOrder (r : Rules) : Prop where
  places (K : Set Pos) : r.InPlace K
  block : KeepsOrder r.block

/-- A rule reads a suite behind a word. -/
abbrev Parse.ReadsSuite (rule : Parse (List Stmt)) : Prop :=
  Spans rule fun a b body => a < b ∧ MarksIn (Set.Ioo a b) body

/-- A suite stands behind its colon. -/
theorem readsSuite_behindColon (h : r.KeepOrder) {colon : Parse Unit}
    (hcolon : Spans colon fun a b _ => a < b) :
    ReadsSuite (do
      colon
      missingSuite
      r.block) := by
  refine hcolon.bind fun _ => ?_
  refine Spans.bind (spans_mistake _) fun _ => ?_
  refine h.block.mono fun c d body hcd hbody b hbc _ a hab hcolon => ⟨?_, ?_⟩
  · exact hcolon.trans_le (hbc.trans hcd)
  · exact hbody.mono fun p hp => ⟨hcolon.trans_le (hbc.trans hp.1), hp.2⟩

/-- The colon of a header and its suite. -/
theorem readsSuite_suite (h : r.KeepOrder) : ReadsSuite (suite r) := by
  refine Spans.bind (spans_mistake _) fun _ => ?_
  have hcolon : Spans (expect ":") fun a b _ => a < b :=
    (spans_expect _).mono fun a b _ _ hab => hab (by decide)
  refine (readsSuite_behindColon h hcolon).mono fun b c body _ hbody a _ hab => ?_
  rw [hab]
  exact hbody

/-- As `readsSuite_suite`, where nothing but a colon can follow. -/
theorem readsSuite_forcedSuite (h : r.KeepOrder) : ReadsSuite (forcedSuite r) :=
  readsSuite_behindColon h ((spans_force _).mono fun a b _ _ hab => hab (by decide))

/-- The `else` suite of a statement. -/
theorem readsSuite_elseSuite (h : r.KeepOrder) : ReadsSuite (elseSuite r) := by
  refine Spans.bind (spans_expect _) fun _ => ?_
  refine (readsSuite_forcedSuite h).mono fun b c body _ hbody a hab _ => ⟨hab.trans_lt hbody.1, ?_⟩
  exact hbody.2.mono (Set.Ioo_subset_Ioo_left hab)

/-- A suite keeps the order of its statements. -/
theorem Parse.ReadsSuite.keepsOrder {rule : Parse (List Stmt)} (h : ReadsSuite rule) :
    KeepsOrder rule :=
  h.mono fun _ _ _ _ hbody => hbody.2.mono Set.Ioo_subset_Ico_self

/-- A condition stands between its header and its alternative. -/
theorem MarksIn.branch {test : Expr} {body orelse : List Stmt} (htest : NodesIn (Set.Icc a b) test)
    (hbody : b < c ∧ MarksIn (Set.Ioo b c) body) (horelse : MarksIn (Set.Ico c d) orelse)
    (hab : a ≤ b) (hcd : c ≤ d) (pos : Pos) :
    MarksIn (Set.Ico a d) (Stmt.branch pos test body orelse) := by
  intro depth
  change LaidOut (Set.Ico a d) (Stmt.marks depth (.branch pos test body orelse))
  rw [Stmt.marks, allMarks_eq, allMarks_eq]
  have hheader := htest.laidOut.beyond (hbody.2 depth) hab hbody.1
  exact hheader.behind (horelse depth) (hab.trans hbody.1.le) hcd

/-- The alternative of a condition. -/
theorem keepsOrder_alternative (h : r.KeepOrder) (fuel : Nat) : KeepsOrder (alternative r fuel) := by
  induction fuel with
  | zero => exact spans_pure fun _ => .nil
  | succ fuel ih =>
    refine KeepsOrder.after (fun pos => ?_) spans_here.advances
    refine KeepsOrder.after (fun found => ?_) (spans_accept _).advances
    split
    · refine Spans.bind (spans_of_places fun K => places_namedExpression (h.places K)) fun test => ?_
      refine Spans.bind (readsSuite_suite h) fun body => ?_
      refine Spans.bind ih fun orelse => spans_pure fun d c hcd horelse b hbc hbody => ?_
      exact fun a hab htest => (MarksIn.branch htest hbody horelse hab hcd pos).single
    · refine KeepsOrder.after (fun found => ?_) (spans_sees _).advances
      split
      · exact (readsSuite_elseSuite h).keepsOrder
      · exact spans_pure fun _ => .nil

/-- Conditions. -/
theorem keepsOrder_branchStatement (h : r.KeepOrder) : KeepsOrder (branchStatement r) := by
  refine KeepsOrder.after (fun pos => ?_) spans_here.advances
  refine KeepsOrder.after (fun _ => ?_) (spans_expect _).advances
  refine Spans.bind (spans_of_places fun K => places_namedExpression (h.places K)) fun test => ?_
  refine Spans.bind (readsSuite_suite h) fun body => ?_
  have horelse : KeepsOrder fun i p => alternative r (i.lexed.tokens.size + 1) i p :=
    fun i p ts q hi hfound => keepsOrder_alternative h _ hi hfound
  refine Spans.bind horelse fun orelse => spans_pure fun d c hcd horelse b hbc hbody => ?_
  exact fun a hab htest => MarksIn.branch htest hbody horelse hab hcd pos

/-- A clause has its suite behind its header. -/
theorem MarksIn.clause (head : ClauseHead) {body : List Stmt} (hhead : NodesIn (Set.Icc a b) head)
    (hbody : b < c ∧ MarksIn (Set.Ioo b c) body) (hab : a ≤ b) :
    MarksIn (Set.Ico a c) (Clause.mk head body) := by
  intro depth
  change LaidOut (Set.Ico a c) (sitesIn head ++ Stmt.allMarks depth body)
  rw [allMarks_eq]
  exact hhead.laidOut.beyond (hbody.2 depth) hab hbody.1

/-- A compound statement has the marks of its clauses. -/
theorem MarksIn.compound {cs : List (Clause Stmt)} (h : MarksIn K cs) (pos : Pos) :
    MarksIn K (Stmt.compound pos cs) := by
  intro depth
  change LaidOut K (Stmt.marks depth (.compound pos cs))
  rw [Stmt.marks, clauseMarks_eq]
  exact h depth

/-- An `else` clause, if there is one. -/
theorem keepsOrder_elseClause (h : r.KeepOrder) : KeepsOrder (elseClause r) := by
  refine KeepsOrder.after (fun found => ?_) (spans_sees _).advances
  split
  · refine (readsSuite_elseSuite h).bind fun body => spans_pure fun b a hab hbody => ?_
    exact (MarksIn.clause _ (.empty rfl) hbody le_rfl).single
  · exact spans_pure fun _ => .nil

/-- Loops with a condition. -/
theorem keepsOrder_whileStatement (h : r.KeepOrder) : KeepsOrder (whileStatement r) := by
  refine KeepsOrder.after (fun pos => ?_) spans_here.advances
  refine KeepsOrder.after (fun _ => ?_) (spans_expect _).advances
  refine Spans.bind (spans_of_places fun K => places_namedExpression (h.places K)) fun test => ?_
  refine Spans.bind (readsSuite_suite h) fun body => ?_
  refine (keepsOrder_elseClause h).bind fun orelse => spans_pure fun d c hcd horelse => ?_
  intro b hbc hbody a hab htest
  have hloop := MarksIn.clause (.whileLoop test) htest hbody hab
  exact (hloop.single.behind horelse (hab.trans hbc) hcd).compound pos

/-- Loops over a source. -/
theorem keepsOrder_forStatement (h : r.KeepOrder) (pos : Pos) (isAsync : Bool) :
    KeepsOrder (forStatement r pos isAsync) := by
  refine KeepsOrder.after (fun _ => ?_) (spans_expect _).advances
  refine Spans.bind (spans_of_places fun K => places_loopTargets (h.places K)) fun target => ?_
  refine Spans.bind (spans_of_places fun K => places_starExpressions (h.places K)) fun source => ?_
  refine Spans.bind (readsSuite_forcedSuite h) fun body => ?_
  refine (keepsOrder_elseClause h).bind fun orelse => spans_pure fun e d hde horelse => ?_
  intro c hcd hbody b hbc hsource a hab htarget
  have hhead : NodesIn (Set.Icc a c) (ClauseHead.forLoop isAsync target source) := by
    refine NodesIn.pair (htarget.mono ?_) (hsource.mono ?_)
    · exact Set.Icc_subset_Icc_right hbc
    · exact Set.Icc_subset_Icc_left hab
  have hloop := MarksIn.clause _ hhead hbody (hab.trans hbc)
  exact (hloop.single.behind horelse (hab.trans (hbc.trans hcd)) hde).compound pos

/-- Statements with a context. -/
theorem keepsOrder_withStatement (h : r.KeepOrder) (pos : Pos) (isAsync : Bool) :
    KeepsOrder (withStatement r pos isAsync) := by
  refine KeepsOrder.after (fun _ => ?_) (spans_expect _).advances
  refine Spans.bind (spans_of_stays fun K => stays_withItems (h.places K)) fun items => ?_
  refine (readsSuite_suite h).bind fun body => spans_pure fun c b hbc hbody a hab hitems => ?_
  have hclause := MarksIn.clause (.withItems isAsync items) hitems hbody hab
  exact hclause.single.compound pos

/-- Handlers of exceptions. -/
theorem keepsOrder_handler (h : r.KeepOrder) (isGroup : Bool) : KeepsOrder (handler r isGroup) := by
  have hrest : KeepsOrder (do
      if ! isGroup && (← sees ":") then return Clause.mk (.handler false none none) (← suite r)
      else
        let kind ← r.expression
        mistake do
          expect ","
          let _ ← expressions r
          let _ ← localName
          expect ":"
          failAtPos kind.pos "several exceptions need brackets"
        let id ← localName
        return Clause.mk (.handler isGroup (some kind) id) (← suite r)) := by
    refine KeepsOrder.after (fun found => ?_) (spans_sees _).advances
    split
    · refine (readsSuite_suite h).bind fun body => spans_pure fun b a hab hbody => ?_
      exact MarksIn.clause _ (.empty rfl) hbody le_rfl
    · refine Spans.bind (spans_of_places fun K => (h.places K).expression) fun kind => ?_
      refine Spans.bind (spans_mistake _) fun _ => ?_
      refine Spans.bind advances_localName fun id => ?_
      refine (readsSuite_suite h).bind fun body => spans_pure fun e d hde hbody c hcd _ => ?_
      intro b hbc _ a hab hkind
      have hhead : NodesIn (Set.Icc a d) (ClauseHead.handler isGroup (some kind) id) :=
        hkind.mono (Set.Icc_subset_Icc_right (hbc.trans hcd))
      exact MarksIn.clause _ hhead hbody (hab.trans (hbc.trans hcd))
  refine KeepsOrder.after (fun _ => ?_) (spans_expect _).advances
  dsimp only
  split
  · exact KeepsOrder.after (fun _ => hrest) (spans_expect _).advances
  · exact hrest

/-- The end of a statement that handles exceptions, behind other clauses. -/
theorem keepsBehind_finally (h : r.KeepOrder) (pos : Pos) (clauses : List (Clause Stmt))
    (isBare : Bool) :
    KeepsBehind clauses (do
      let final ← do
        if ← accept "finally" then
          let clause : Clause Stmt := ⟨.finallyBody, ← forcedSuite r⟩
          pure [clause]
        else pure []
      if isBare && final.isEmpty then
        mistake do
          guard (! (← sees "except") && ! (← sees "finally"))
          failAtLast "expected a handler"
        miss
      return Stmt.compound pos (clauses ++ final)) := by
  have hend (final : List (Clause Stmt)) : Spans (do
      if isBare && final.isEmpty then
        mistake do
          guard (! (← sees "except") && ! (← sees "finally"))
          failAtLast "expected a handler"
        miss
      return Stmt.compound pos (clauses ++ final)) fun c d t =>
        ∀ b ≤ c, MarksIn (Set.Ico b c) final → ∀ a ≤ b, MarksIn (Set.Ico a b) clauses →
          MarksIn (Set.Ico a d) t := by
    have hall : Spans (pure (Stmt.compound pos (clauses ++ final))) fun c d t =>
        ∀ b ≤ c, MarksIn (Set.Ico b c) final → ∀ a ≤ b, MarksIn (Set.Ico a b) clauses →
          MarksIn (Set.Ico a d) t :=
      spans_pure fun c b hbc hfinal a hab hclauses => (hclauses.behind hfinal hab hbc).compound pos
    dsimp only
    split
    · refine Spans.bind (spans_mistake _) fun _ => ?_
      exact Spans.bind (P := fun _ _ _ => False) spans_miss fun _ =>
        hall.mono fun _ _ _ _ _ _ _ hmissed => hmissed.elim
    · exact hall
  refine KeepsBehind.after (fun found => ?_) (spans_accept _).advances
  dsimp only
  split
  · refine Spans.bind (readsSuite_forcedSuite h) fun body => ?_
    rw [pure_bind_eq]
    refine (hend _).mono fun c d t _ ht b hbc hbody a hab hclauses => ?_
    have hclause := (MarksIn.clause .finallyBody (.empty rfl) hbody le_rfl).single
    exact ht b hbc hclause a hab hclauses
  · rw [pure_bind_eq]
    exact (hend []).mono fun b c t _ ht a hab hclauses => ht b le_rfl .nil a hab hclauses

/-- The suite, the handlers and the `else` clause of a statement that handles exceptions. -/
theorem MarksIn.handled {body : List Stmt} {handlers otherwise : List (Clause Stmt)}
    (hbody : a < b ∧ MarksIn (Set.Ioo a b) body) (hhandlers : MarksIn (Set.Ico b c) handlers)
    (hotherwise : MarksIn (Set.Ico c d) otherwise) (hbc : b ≤ c) (hcd : c ≤ d) :
    MarksIn (Set.Ico a d) (⟨.tryBody, body⟩ :: handlers ++ otherwise) := by
  have hfirst := (MarksIn.clause .tryBody (.empty rfl) hbody le_rfl).single
  exact (hfirst.behind hhandlers hbody.1.le hbc).behind hotherwise (hbody.1.le.trans hbc) hcd

/-- Statements that handle exceptions. -/
theorem keepsOrder_tryStatement (h : r.KeepOrder) : KeepsOrder (tryStatement r) := by
  refine KeepsOrder.after (fun pos => ?_) spans_here.advances
  refine KeepsOrder.after (fun _ => ?_) (spans_expect _).advances
  refine Spans.bind (readsSuite_forcedSuite h) fun body => ?_
  refine Spans.bind (spans_ahead _) fun isGroup => ?_
  refine Spans.bind (KeepsOrder.many (keepsOrder_handler h isGroup)) fun handlers => ?_
  refine Spans.bind (spans_mistake _) fun _ => ?_
  dsimp only
  split
  · rw [pure_bind_eq]
    refine (keepsBehind_finally h pos (⟨.tryBody, body⟩ :: handlers ++ []) _).mono ?_
    intro d e t _ ht d' hd hsame c hcd hhandlers b hbc hsame' a hab hbody
    subst hsame hsame'
    exact ht a (hab.trans hcd) (MarksIn.handled hbody hhandlers .nil hcd le_rfl)
  · refine Spans.bind (keepsOrder_elseClause h) fun otherwise => ?_
    refine (keepsBehind_finally h pos (⟨.tryBody, body⟩ :: handlers ++ otherwise) _).mono ?_
    intro e f t _ ht d hde hotherwise d' hd hsame c hcd hhandlers b hbc hsame' a hab hbody
    subst hsame hsame'
    exact ht a (hab.trans (hcd.trans hde)) (MarksIn.handled hbody hhandlers hotherwise hcd hde)

/-- Cases. -/
theorem keepsOrder_caseClause (h : r.KeepOrder) : KeepsOrder (caseClause r) := by
  refine KeepsOrder.after (fun _ => ?_) (spans_expect _).advances
  refine Spans.bind (spans_of_stays fun K => stays_casePattern (h.places K)) fun chosen => ?_
  have hcondition (K : Set Pos) :
      Stays K (optional (do expect "if"; namedExpression r)) (NodesIn K) :=
    Stays.optional (Stays.after (fun _ => (places_namedExpression (h.places K)).stays)
      (spans_expect _).advances)
  refine Spans.bind (spans_of_stays hcondition) fun condition => ?_
  refine (readsSuite_suite h).bind fun body => spans_pure fun d c hcd hbody b hbc hcondition => ?_
  intro a hab hchosen
  have hhead : NodesIn (Set.Icc a c) (ClauseHead.caseOf chosen condition) := by
    refine NodesIn.pair (hchosen.mono ?_) (hcondition.mono ?_)
    · exact Set.Icc_subset_Icc_right hbc
    · exact Set.Icc_subset_Icc_left hab
  exact MarksIn.clause _ hhead hbody (hab.trans hbc)

/-- What follows the subject of a `match` statement. -/
theorem spans_cases (h : r.KeepOrder) (pos : Pos) (subject : Expr) :
    Spans (behindSubject r pos subject) fun b c t =>
      ∀ a ≤ b, NodesIn (Set.Icc a b) subject → MarksIn (Set.Ico a c) t := by
  have hcases : KeepsBehind [(⟨.subject subject, []⟩ : Clause Stmt)]
      (caseBlock r pos subject) := by
    refine KeepsBehind.after (fun _ => ?_) (spans_expectKind _).advances
    refine KeepsBehind.after (fun _ => ?_) (spans_mistake _).advances
    refine KeepsBehind.after (fun _ => ?_) (spans_expectKind _).advances
    refine Spans.bind (keepsOrder_caseClause h) fun first => ?_
    refine Spans.bind (KeepsOrder.many (keepsOrder_caseClause h)) fun rest => ?_
    refine Spans.bind (spans_expectKind _).advances fun _ => ?_
    refine spans_pure fun e d hde _ c hcd hrest b hbc hfirst a hab hsubject => ?_
    have hall := (hsubject.behind hfirst.single hab hbc).behind hrest (hab.trans hbc) hcd
    exact (hall.mono (Set.Ico_subset_Ico_right hde)).compound pos
  refine Spans.bind (spans_mistake _) fun _ => ?_
  refine Spans.bind (spans_expect _) fun _ => hcases.mono fun d e t _ ht c hcd hcolon => ?_
  intro b _ hbc a hab hsubject
  subst hbc
  have hempty : MarksIn (Set.Ioo b d) ([] : List Stmt) := .nil
  have hclause := MarksIn.clause (.subject subject) hsubject ⟨hcolon (by decide), hempty⟩ hab
  exact ht a (hab.trans hcd) hclause.single

/-- Statements that match a value against patterns. -/
theorem keepsOrder_matchStatement (h : r.KeepOrder) : KeepsOrder (matchStatement r) := by
  refine KeepsOrder.after (fun pos => ?_) spans_here.advances
  refine KeepsOrder.after (fun _ => ?_) (spans_expect _).advances
  refine Spans.bind spans_here fun start => ?_
  have hfirst := spans_of_places fun K => places_starNamed (h.places K)
  refine Spans.bind hfirst fun first => ?_
  refine Spans.bind (spans_accept _) fun found => ?_
  dsimp only
  split
  · have hrest := spans_of_stays fun K => (places_starNamed (h.places K)).listed.stays.maybe
    refine Spans.bind hrest fun rest => ?_
    rw [pure_bind_eq]
    refine (spans_cases h pos _).mono fun d e t _ ht c hcd hrest b hbc _ a hab hfirst => ?_
    intro a' _ hhere
    obtain ⟨rfl, rfl⟩ := hhere
    have hplace : start ∈ Set.Icc start d := ⟨le_rfl, hab.trans (hbc.trans hcd)⟩
    refine ht start hplace.2 (.node hplace rfl (nodesIn_more ?_ fun found hfound => ?_))
    · exact hfirst.mono (Set.Icc_subset_Icc_right (hbc.trans hcd))
    · exact (hrest found hfound).mono (Set.Icc_subset_Icc_left (hab.trans hbc))
  · refine Spans.bind (spans_guard _) fun _ => ?_
    rw [pure_bind_eq]
    refine (spans_cases h pos first).mono fun d e t _ ht c hcd _ b hbc _ a hab hfirst => ?_
    intro a' _ hhere
    obtain ⟨rfl, -⟩ := hhere
    refine ht _ (hab.trans (hbc.trans hcd)) (hfirst.mono ?_)
    exact Set.Icc_subset_Icc_right (hbc.trans hcd)

/-- A function stands behind its decorators, and its suite behind its header. -/
theorem MarksIn.function {head : FunctionHead} {body : List Stmt}
    (hdecorators : MarksIn (Set.Ico a b) head.decorators)
    (hparams : NodesIn (Set.Icc b c) head.params) (hbody : c < d ∧ MarksIn (Set.Ioo c d) body)
    (hab : a ≤ b) (hbc : b ≤ c) (pos : Pos) :
    MarksIn (Set.Ico a d) (Stmt.function pos head body) := by
  intro depth
  change LaidOut (Set.Ico a d) (Stmt.marks depth (.function pos head body))
  rw [Stmt.marks, allMarks_eq, List.append_assoc, sitesIn_eq depth]
  have hinner := hparams.laidOut.beyond (hbody.2 (depth + 1)) hbc hbody.1
  exact (hdecorators depth).behind hinner hab (hbc.trans hbody.1.le)

/-- A class stands behind its decorators, and its suite behind its header. -/
theorem MarksIn.classDef {head : ClassHead} {body : List Stmt}
    (hdecorators : MarksIn (Set.Ico a b) head.decorators)
    (hgiven : NodesIn (Set.Icc b c) (head.bases, head.keywords))
    (hbody : c < d ∧ MarksIn (Set.Ioo c d) body) (hab : a ≤ b) (hbc : b ≤ c) :
    MarksIn (Set.Ico a d) (Stmt.classDef b head body) := by
  intro depth
  change LaidOut (Set.Ico a d) (Stmt.marks depth (.classDef b head body))
  rw [Stmt.marks, allMarks_eq, sitesIn_eq depth]
  have hheader := hgiven.laidOut_cons ⟨le_rfl, hbc⟩
  rw [sitesIn_pair] at hheader
  have hinner := hheader.beyond (hbody.2 (depth + 1)) hbc hbody.1
  have haround := hinner.around depth head.name ⟨le_rfl, hbc.trans_lt hbody.1⟩ fun p hp => hp.1
  exact (hdecorators depth).behind haround hab (hbc.trans hbody.1.le)

/-- Definitions of functions. -/
theorem keepsBehind_functionStatement (h : r.KeepOrder) (pos : Pos) (isAsync : Bool)
    (decorators : List Expr) :
    KeepsBehind decorators (functionStatement r pos isAsync decorators) := by
  refine KeepsBehind.after (fun _ => ?_) (spans_expect _).advances
  refine KeepsBehind.after (fun id => ?_) advances_name
  refine KeepsBehind.after (fun _ => ?_) (spans_force _).advances
  have hparams := spans_of_stays fun K => stays_parameters (h.places K)
    (inPlace_functionParameters (h.places K))
  refine Spans.bind hparams fun params => ?_
  refine Spans.bind (spans_expect _) fun _ => ?_
  have hreturns : Advances (optional (do expect "->"; r.expression)) :=
    Advances.optional (Advances.bind (spans_expect _).advances fun _ =>
      (h.places ∅).expression.advances)
  refine Spans.bind hreturns fun returns => ?_
  refine (readsSuite_forcedSuite h).bind fun body => spans_pure fun f e hef hbody => ?_
  intro d hde _ c hcd _ b hbc hparams a hab hdecorators
  have hheader := hparams.nodes.mono (Set.Icc_subset_Icc_right (hcd.trans hde))
  exact MarksIn.function hdecorators hheader hbody hab (hbc.trans (hcd.trans hde)) pos

/-- Definitions of classes. -/
theorem keepsBehind_classStatement (h : r.KeepOrder) (decorators : List Expr) :
    KeepsBehind decorators (classStatement r decorators) := by
  refine Spans.bind spans_here fun pos => ?_
  refine Spans.bind (spans_expect _) fun _ => ?_
  refine Spans.bind advances_name fun id => ?_
  have hgiven := spans_of_stays fun K => stays_classArguments (h.places K)
  refine Spans.bind hgiven fun given => ?_
  refine (readsSuite_suite h).bind fun body => spans_pure fun g f hfg hbody => ?_
  intro e hef hgiven d hde _ c hcd _ b hbc hhere a hab hdecorators
  obtain ⟨rfl, rfl⟩ := hhere
  have hheader := hgiven.mono (Set.Icc_subset_Icc_left (hcd.trans hde))
  exact MarksIn.classDef hdecorators hheader hbody hab (hcd.trans (hde.trans hef))

/-- Statements that may start with `async`. -/
theorem keepsBehind_asyncStatement (h : r.KeepOrder) (decorators : List Expr) :
    KeepsBehind decorators (asyncStatement r decorators) := by
  refine KeepsBehind.after (fun pos => ?_) spans_here.advances
  refine KeepsBehind.after (fun isAsync => ?_) (spans_accept _).advances
  refine KeepsBehind.after (fun token => ?_) spans_peek.advances
  have hplain {rule : Parse Stmt} (hrule : KeepsOrder rule) :
      KeepsBehind decorators (if decorators.isEmpty then rule else miss) := by
    split
    · exact hrule.mono fun b c t _ ht a hab _ => ht.mono (Set.Ico_subset_Ico_left hab)
    · exact spans_miss
  split
  · exact keepsBehind_functionStatement h pos isAsync decorators
  · exact hplain (keepsOrder_forStatement h pos isAsync)
  · exact hplain (keepsOrder_withStatement h pos isAsync)
  · exact spans_miss

/-- Definitions behind their decorators. -/
theorem keepsOrder_decoratedStatement (h : r.KeepOrder) : KeepsOrder (decoratedStatement r) := by
  have hone : KeepsOrder (do
      expect "@"
      let e ← namedExpression r
      let _ ← expectKind .newline
      return e) := by
    refine KeepsOrder.after (fun _ => ?_) (spans_expect _).advances
    refine Spans.bind (spans_of_places fun K => places_namedExpression (h.places K)) fun e => ?_
    refine Spans.bind (spans_expectKind _) fun newline => ?_
    refine spans_pure fun c b hbc hnewline a hab he depth => he.laidOut.mono fun p hp => ?_
    exact ⟨hp.1, hp.2.trans_lt (lt_of_newline hnewline)⟩
  refine Spans.bind hone.many fun decorators => ?_
  refine KeepsBehind.after (fun found => ?_) (spans_sees _).advances
  split
  · exact keepsBehind_classStatement h decorators
  · split
    · exact spans_miss
    · exact keepsBehind_asyncStatement h decorators

/-- One statement, or several on a line. -/
theorem keepsOrder_statement (h : r.KeepOrder) : KeepsOrder (statement r) := by
  have hone {rule : Parse Stmt} (hrule : KeepsOrder rule) : KeepsOrder (do return [← rule]) :=
    Spans.bind hrule fun t => spans_pure fun b a _ ht => ht.single
  have hsimple := keepsOrder_simpleStatements h.places
  have hasync : KeepsOrder (asyncStatement r []) :=
    (keepsBehind_asyncStatement h []).mono fun b c t _ ht => ht b le_rfl .nil
  have hclass : KeepsOrder (classStatement r []) :=
    (keepsBehind_classStatement h []).mono fun b c t _ ht => ht b le_rfl .nil
  refine KeepsOrder.after (fun token => ?_) spans_peek.advances
  dsimp only
  split
  · exact hone hasync
  · exact hone hasync
  · exact hone hasync
  · exact hone hasync
  · exact hone (keepsOrder_decoratedStatement h)
  · exact hone (keepsOrder_branchStatement h)
  · exact hone hclass
  · exact hone (keepsOrder_tryStatement h)
  · exact hone (keepsOrder_whileStatement h)
  · exact (hone (keepsOrder_matchStatement h)).orElse hsimple
  · exact hsimple

/-- Statements that are read one after the other. -/
theorem keepsOrder_flatten (h : r.KeepOrder) :
    Spans (many (statement r)) fun a b tss => MarksIn (Set.Ico a b) tss.flatten :=
  Spans.many (keepsOrder_statement h) (fun _ => .nil) fun _ _ _ _ _ hab hbc hts htss =>
    hts.behind htss hab hbc

/-- Statements up to what is no statement. -/
theorem keepsOrder_statements (h : r.KeepOrder) : KeepsOrder (statements r) := by
  refine Spans.bind (keepsOrder_statement h) fun first => ?_
  exact (keepsOrder_flatten h).bind fun rest => spans_pure fun c b hbc hrest a hab hfirst =>
    hfirst.behind hrest hab hbc

/-- Suites. -/
theorem keepsOrder_block (h : r.KeepOrder) : KeepsOrder (block r) := by
  refine KeepsOrder.after (fun token => ?_) spans_peek.advances
  split
  · refine KeepsOrder.after (fun _ => ?_) advances_advance
    refine KeepsOrder.after (fun _ => ?_) (spans_expectKind _).advances
    refine Spans.bind (keepsOrder_statements h) fun body => ?_
    refine Spans.bind (spans_expectKind _).advances fun _ => ?_
    exact spans_pure fun c b hbc _ a hab hbody => hbody.mono (Set.Ico_subset_Ico_right hbc)
  · exact keepsOrder_simpleStatements h.places

/-- Suites are read in order, however deep a text nests. -/
theorem keepOrder_rules (n : Nat) : (rules n).KeepOrder := by
  induction n with
  | zero => exact ⟨fun _ => inPlace_rules 0, spans_miss⟩
  | succ n ih => exact ⟨fun _ => inPlace_rules (n + 1), keepsOrder_block ih⟩

/-- A module is read in order. -/
theorem keepsOrder_moduleRule (h : r.KeepOrder) : KeepsOrder (moduleRule r) := by
  refine Spans.bind (keepsOrder_flatten h) fun body => ?_
  refine Spans.bind (spans_expectKind _).advances fun _ => ?_
  exact spans_pure fun c b hbc _ a hab hbody => hbody.mono (Set.Ico_subset_Ico_right hbc)

end Source

/-- The statements of a text and the places for code in them are in the order of their places. -/
theorem inOrder_of_parseModule {source : String} {m : Module}
    (h : Source.parseModule source = .ok m) : m.InOrder := by
  unfold Source.parseModule Source.readWith at h
  dsimp only at h
  split at h
  · cases h
  · split at h
    · rename_i m' hrun
      obtain rfl := Except.ok.inj h
      obtain ⟨q, hfound⟩ := Source.exists_of_run hrun
      have hm := Source.keepsOrder_moduleRule (Source.keepOrder_rules _)
        (Source.Lexed.ordered_lexText _ _) hfound
      have hordered := (hm.2 0).ordered
      rw [← Source.allMarks_eq] at hordered
      exact hordered
    · cases h

end Typeward
