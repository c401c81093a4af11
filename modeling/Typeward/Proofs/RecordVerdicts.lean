import Typeward.Proofs.InheritedFields
import Typeward.Proofs.Plannability
import Typeward.Proofs.VisitedForms

/-!
# Verdicts on records

Both passes over a module have to tell which classes are records. The first one goes by the names of
the records that it has met, the second one by the records that it has declared. They come to the
same statements in the same order, so the verdicts are compared statement by statement: before each
of them both know records of the same names, and it keeps them so.
-/

namespace Typeward

open Registry

/-- A node is a class statement. -/
def Stmt.isClass : Stmt → Bool
  | .classDef .. => true
  | .simple .. | .function .. | .branch .. | .compound .. => false

/-- The names of the classes that nodes declare as records, in order. -/
def Stmt.recordNames (ts : List Stmt) : List String := (recordClasses ts).map (·.head.name)

/-- What a scope calls special forms, and the records above, make an expression the base of a
record: it is the marker of records, or the name of a record above. -/
def Scope.NamesRecord (known : Scope) (above : List Stmt) (base : Expr) : Prop :=
  known.canonical base = some "TypedDict" ∨
    ∃ name ∈ Stmt.recordNames above, base.dotted? = some name

/-- A place in a module is outside of definitions and seen not only by type checkers. -/
def ScopeContext.IsOpen (c : ScopeContext) : Prop := c.depth = 0 ∧ c.guarded = false

instance (c : ScopeContext) : Decidable c.IsOpen := inferInstanceAs (Decidable (_ ∧ _))

/-- A class statement carries the number of the declaration of a record: at module level, with the
name and at the place of the statement. -/
def ClassHead.DeclaresRecord (file : String) (ds : List Declaration) (pos : Pos)
    (head : ClassHead) : Prop :=
  ∃ number fields isRecursive, head.decl = some number ∧
    ds[number]? = some (.type ⟨head.name, .record fields (some head.name)
      (some (locationOf file pos)), isRecursive, true, some (locationOf file pos)⟩)

/-- What becomes of a class statement: its header when the first pass comes to it, and as the second
one leaves it. -/
inductive Visit.Fate (file : String) (known : Scope) (ds : List Declaration) (above : List Stmt)
    (c : ScopeContext) (s : Scope) (pos : Pos) (head head' : ClassHead) : Prop
  /-- It is declared as a record, and no class is bound. -/
  | record (hopen : c.IsOpen) (hbase : ∃ base ∈ head.bases, known.NamesRecord above base)
      (hdeclared : head'.DeclaresRecord file ds pos)
      (hbindings : (s.enterClass file c pos head).bindings = s.bindings)
  /-- It is kept, and the class is bound. -/
  | ordinary (hopen : c.IsOpen) (hbase : ¬ ∃ base ∈ head.bases, known.NamesRecord above base)
      (hkept : head'.decl = none)
      (hbindings : (s.enterClass file c pos head).bindings =
        putBinding s.bindings ⟨head.name, .ofClass, some (locationOf file pos)⟩)
  /-- It stands in a definition or where only type checkers look: it is neither. -/
  | unseen (hclosed : ¬ c.IsOpen) (hkept : head'.decl = none)
      (hbindings : (s.enterClass file c pos head).bindings = s.bindings)

/-- The passes agree on a statement: it is no class to both of them, or a class of one fate. -/
inductive Visit.Agrees (file : String) (known : Scope) (ds : List Declaration)
    (above : List Stmt) : Visit → Stmt → Prop
  | other {v t} (hvisit : v.stmt.isClass = false) (hnode : t.isClass = false) :
      Agrees file known ds above v t
  | classDef {c s pos head body head' body'} (hname : head'.name = head.name)
      (hfate : Fate file known ds above c s pos head head') :
      Agrees file known ds above ⟨c, s, .classDef pos head body⟩ (.classDef pos head' body')

/-- The passes agree on the visits of the one and the nodes of the other, behind some nodes. -/
inductive Agreement (file : String) (known : Scope) (ds : List Declaration) :
    List Stmt → List Visit → List Stmt → Prop
  | nil (above) : Agreement file known ds above [] []
  | cons {above v t vs ts} (here : v.Agrees file known ds above t)
      (behind : Agreement file known ds (above ++ [t]) vs ts) :
      Agreement file known ds above (v :: vs) (t :: ts)

/-- Both passes know records of the same names: those above. -/
structure SameRecords (s : Scope) (σ : LowerState) (above : List Stmt) : Prop where
  collected (x : String) : x ∈ s.recordNames ↔ x ∈ Stmt.recordNames above
  lowered (x : String) : (σ.records.lookup x).isSome ↔ x ∈ Stmt.recordNames above

section Verdicts

variable {file : String} {known s : Scope} {above : List Stmt}

/-- The records above and those that are declared then. -/
@[simp]
theorem Stmt.recordNames_append (ts us : List Stmt) :
    recordNames (ts ++ us) = recordNames ts ++ recordNames us := by
  simp [recordNames, recordClasses]

/-- The record that a node declares, if it does, and those behind it. -/
theorem Stmt.recordNames_cons (t : Stmt) (ts : List Stmt) :
    recordNames (t :: ts) = (t.recordClass?.map (·.head.name)).toList ++ recordNames ts := by
  unfold recordNames recordClasses
  cases h : t.recordClass? with
  | none => rw [List.filterMap_cons_none h]; rfl
  | some k => rw [List.filterMap_cons_some h]; rfl

/-- Nodes without numbers declare no records. -/
theorem Stmt.recordNames_eq_nil {ts : List Stmt} (h : recordClasses ts = []) :
    recordNames ts = [] := by
  rw [recordNames, h, List.map_nil]

/-- The first pass finds a record where a base names one. -/
theorem Scope.isRecord_iff (hforms : s.forms = known.forms)
    (hrecords : ∀ x, x ∈ s.recordNames ↔ x ∈ Stmt.recordNames above) (bases : List Expr) :
    s.isRecord bases = true ↔ ∃ base ∈ bases, known.NamesRecord above base := by
  have hform : "TypedDict" ∉ builtinTypeNames := by decide
  have hmarker (base : Expr) :
      s.canonical base = some "TypedDict" ↔ known.canonical base = some "TypedDict" :=
    ⟨canonical_of_forms_eq hforms hform, canonical_of_forms_eq hforms.symm hform⟩
  simp only [isRecord, List.any_eq_true, Bool.or_eq_true, beq_iff_eq, hmarker, NamesRecord,
    Option.any_eq_true, List.contains_iff_mem, hrecords, and_comm]

/-- The second pass finds a record where a base names one. -/
theorem inheritedFields_isSome_iff {c : LowerContext} {σ : LowerState}
    (hrecords : ∀ x, (σ.records.lookup x).isSome ↔ x ∈ Stmt.recordNames above)
    (bases : List Expr) :
    (inheritedFields c σ.records bases).isSome ↔
      ∃ base ∈ bases, c.scope.NamesRecord above base := by
  have hbase (base : Expr) : (if c.scope.canonical base == some "TypedDict" then some []
      else base.dotted?.bind fun name => σ.records.lookup name).isSome ↔
        c.scope.NamesRecord above base := by
    by_cases hmarker : c.scope.canonical base = some "TypedDict"
    · simp [hmarker, Scope.NamesRecord]
    · rw [if_neg (by simpa using hmarker), Scope.NamesRecord, or_iff_right hmarker]
      simp [Option.isSome_bind, Option.any_eq_true, hrecords, and_comm]
  unfold inheritedFields
  dsimp only
  rw [← exists_congr fun base => and_congr_right fun _ => hbase base]
  split
  · rename_i hempty
    simpa [List.isEmpty_iff, List.filterMap_eq_nil_iff] using hempty
  · rename_i hfound
    simpa [List.isEmpty_iff, List.filterMap_eq_nil_iff, Option.isSome_iff_ne_none] using hfound

/-- Which conditions hold for type checkers alone is a matter of what special forms are called. -/
theorem Scope.isGuard_eq (hforms : s.forms = known.forms) (test : Expr) :
    s.isGuard test = known.isGuard test := by
  have hform : "TYPE_CHECKING" ∉ builtinTypeNames := by decide
  rw [isGuard, isGuard, Bool.eq_iff_iff, beq_iff_eq, beq_iff_eq]
  exact ⟨canonical_of_forms_eq hforms hform, canonical_of_forms_eq hforms.symm hform⟩

end Verdicts

namespace Agreement

variable {file : String} {known : Scope} {ds : List Declaration} {above : List Stmt}
  {vs vs' : List Visit} {ts ts' : List Stmt}

/-- Agreement on some statements and then on those behind them. -/
theorem append (h : Agreement file known ds above vs ts)
    (h' : Agreement file known ds (above ++ ts) vs' ts') :
    Agreement file known ds above (vs ++ vs') (ts ++ ts') := by
  induction h with
  | nil above => simpa using h'
  | @cons above v t vs ts here behind ih =>
    refine .cons here (ih ?_)
    simpa using h'

/-- The passes come to as many statements. -/
theorem length_eq (h : Agreement file known ds above vs ts) : vs.length = ts.length := by
  induction h with
  | nil above => rfl
  | cons here behind ih => rw [List.length_cons, List.length_cons, ih]

/-- The passes agree on each statement, by the nodes above it. -/
theorem agrees (h : Agreement file known ds above vs ts) {i : Nat} {v : Visit} {t : Stmt}
    (hv : vs[i]? = some v) (ht : ts[i]? = some t) :
    v.Agrees file known ds (above ++ ts.take i) t := by
  induction h generalizing i with
  | nil above => cases hv
  | @cons above w u vs ts here behind ih =>
    cases i with
    | zero =>
      obtain rfl := Option.some.inj hv
      obtain rfl := Option.some.inj ht
      simpa using here
    | succ i => simpa using ih hv ht

/-- A visit to a class comes with a node of the class and the fate of both. -/
theorem exists_node (h : Agreement file known ds above vs ts) {i : Nat} {v : Visit} {pos : Pos}
    {head : ClassHead} {body : List Stmt} (hv : vs[i]? = some v)
    (hclass : v.stmt = .classDef pos head body) :
    ∃ head' body', ts[i]? = some (.classDef pos head' body') ∧ head'.name = head.name ∧
      Visit.Fate file known ds (above ++ ts.take i) v.context v.scope pos head head' := by
  obtain ⟨hi, -⟩ := List.getElem?_eq_some_iff.1 hv
  rw [h.length_eq] at hi
  have hagrees := h.agrees hv (List.getElem?_eq_getElem hi)
  generalize hnode : ts[i] = t at hagrees
  cases hagrees with
  | other hvisit => rw [hclass] at hvisit; cases hvisit
  | classDef hname hfate =>
    cases hclass
    exact ⟨_, _, by rw [List.getElem?_eq_getElem hi, hnode], hname, hfate⟩

/-- A node of a class comes with a visit to the class and the fate of both. -/
theorem exists_visit (h : Agreement file known ds above vs ts) {i : Nat} {pos : Pos}
    {head' : ClassHead} {body' : List Stmt} (ht : ts[i]? = some (.classDef pos head' body')) :
    ∃ v head body, vs[i]? = some v ∧ v.stmt = .classDef pos head body ∧
      Visit.Fate file known ds (above ++ ts.take i) v.context v.scope pos head head' := by
  obtain ⟨hi, -⟩ := List.getElem?_eq_some_iff.1 ht
  rw [← h.length_eq] at hi
  have hagrees := h.agrees (List.getElem?_eq_getElem hi) ht
  generalize hvisit : vs[i] = v at hagrees
  cases hagrees with
  | other _ hnode => cases hnode
  | classDef hname hfate =>
    exact ⟨_, _, _, by rw [List.getElem?_eq_getElem hi, hvisit], rfl, hfate⟩

end Agreement

/-- A class is declared just where it is seen and a base makes it a record. -/
theorem Visit.Fate.isSome_iff {file : String} {known : Scope} {ds : List Declaration}
    {above : List Stmt} {c : ScopeContext} {s : Scope} {pos : Pos} {head head' : ClassHead}
    (h : Visit.Fate file known ds above c s pos head head') :
    head'.decl.isSome ↔ c.IsOpen ∧ ∃ base ∈ head.bases, known.NamesRecord above base := by
  cases h with
  | record hopen hbase hdeclared =>
    obtain ⟨number, -, -, hnumber, -⟩ := hdeclared
    simp only [hnumber, Option.isSome_some, hopen, hbase, and_self]
  | ordinary hopen hbase hkept =>
    simp only [hkept, Option.isSome_none, hbase, and_false, Bool.false_eq_true]
  | unseen hclosed hkept =>
    simp only [hkept, Option.isSome_none, hclosed, false_and, Bool.false_eq_true]

namespace Scope

variable {file : String} {c : ScopeContext}

/-- Reserving names leaves the records that are known. -/
@[simp]
theorem recordNames_reserve (s : Scope) (names : List String) :
    (s.reserve names).recordNames = s.recordNames :=
  rfl

/-- Reserving what a value uses leaves the records that are known. -/
@[simp]
theorem recordNames_reserveIn {α : Type} [Slots α] (s : Scope) (a : α) :
    (s.reserveIn a).recordNames = s.recordNames :=
  rfl

/-- Binding a name leaves the records that are known. -/
@[simp]
theorem recordNames_bind (s : Scope) (c : ScopeContext) (name : String) (kind : BindingKind)
    (location : Location) : (s.bind c name kind location).recordNames = s.recordNames := by
  unfold bind
  split <;> rfl

/-- The import of a module leaves the records that are known. -/
theorem recordNames_importModule (s : Scope) (location : Location) (i : ImportName) :
    (s.importModule c location i).recordNames = s.recordNames := by
  have hmodules (modules : List String) :
      (modules.foldl addModule s).recordNames = s.recordNames :=
    List.foldlRecOn (motive := fun s₁ : Scope => s₁.recordNames = s.recordNames) _ _ rfl
      fun _ h _ _ => h
  unfold importModule
  cases i.asName with
  | some name =>
    dsimp only
    repeat' split
    all_goals simp [addModule]
  | none =>
    dsimp only
    split
    · rw [recordNames_bind, recordNames_reserve, hmodules]
    · rw [recordNames_reserve, hmodules]

/-- The import of a name leaves the records that are known. -/
theorem recordNames_importName (s : Scope) (location : Location) (source : String)
    (i : ImportName) : (s.importName c location source i).recordNames = s.recordNames := by
  unfold importName
  dsimp only
  repeat' split
  all_goals simp [addModule]

/-- An assignment leaves the records that are known. -/
theorem recordNames_assignName (s : Scope) (name : String) (value : Expr) :
    (s.assignName c name value).recordNames = s.recordNames := by
  unfold assignName
  dsimp only
  repeat' split
  all_goals rfl

/-- A simple statement leaves the records that are known. -/
theorem recordNames_collectSimple (s : Scope) (pos : Pos) (t : Simple) :
    (collectSimple file c s pos t).recordNames = s.recordNames := by
  unfold collectSimple
  dsimp only
  split
  · exact List.foldlRecOn (motive := fun s₁ : Scope => s₁.recordNames = s.recordNames) _ _ rfl
      fun s₁ h i _ => (recordNames_importModule s₁ _ i).trans h
  · exact List.foldlRecOn (motive := fun s₁ : Scope => s₁.recordNames = s.recordNames) _ _ rfl
      fun s₁ h i _ => (recordNames_importName s₁ _ _ i).trans h
  · rw [recordNames_reserveIn]
    split
    · exact recordNames_assignName ..
    · rfl
  · rw [recordNames_reserveIn]
    split <;> rfl
  · rfl

/-- Entering a function leaves the records that are known. -/
theorem recordNames_enterFunction (s : Scope) (head : FunctionHead) :
    (s.enterFunction c head).recordNames = s.recordNames := by
  rw [enterFunction, recordNames_reserveIn, reserveParameters]
  simp only [recordNames_reserveIn, recordNames_reserve]
  split <;> rfl

/-- The header of a clause leaves the records that are known. -/
theorem recordNames_collectHead (s : Scope) (head : ClauseHead) :
    (s.collectHead head).recordNames = s.recordNames := by
  unfold collectHead
  dsimp only
  split <;> rfl

/-- What a class statement leaves of the records that are known, and of the bindings. -/
theorem enterClass_eq (file : String) (c : ScopeContext) (s : Scope) (pos : Pos)
    (head : ClassHead) :
    ((s.enterClass file c pos head).recordNames, (s.enterClass file c pos head).bindings) =
      if c.IsOpen then
        if s.isRecord head.bases then (insertName s.recordNames head.name, s.bindings)
        else (s.recordNames,
          putBinding s.bindings ⟨head.name, .ofClass, some (locationOf file pos)⟩)
      else (s.recordNames, s.bindings) := by
  have hreserved : (s.reserve [head.name]).isRecord head.bases = s.isRecord head.bases := rfl
  have hbindings (s : Scope) : ((s.reserveIn head.bases).reserveIn head.keywords).bindings =
      s.bindings := rfl
  rw [enterClass, recordNames_reserveIn, recordNames_reserveIn, hbindings, defineClass]
  dsimp only
  rw [isRecord_shadow, hreserved]
  by_cases hopen : c.IsOpen
  · rw [if_pos hopen, if_pos hopen.1, if_neg (Bool.eq_false_iff.1 hopen.2)]
    split
    · rfl
    · rw [recordNames_bind, bind, hopen.2]
      rfl
  · rw [if_neg hopen]
    split
    · rename_i hdepth
      have hguarded : c.guarded = true := by
        simpa [ScopeContext.IsOpen, hdepth] using hopen
      rw [if_pos hguarded]
      rfl
    · rfl

end Scope

namespace Stmt

/-- A class statement without a number, with none in its suite. -/
theorem of_recordClasses_classDef {pos : Pos} {head : ClassHead} {body : List Stmt}
    (h : recordClasses (nodes (.classDef pos head body)) = []) :
    head.decl = none ∧ recordClasses (allNodes body) = [] := by
  simpa [nodes, recordClasses, recordClass?] using h

/-- A condition without numbers in its suites. -/
theorem of_recordClasses_branch {pos : Pos} {test : Expr} {body orelse : List Stmt}
    (h : recordClasses (nodes (.branch pos test body orelse)) = []) :
    recordClasses (allNodes body) = [] ∧ recordClasses (allNodes orelse) = [] := by
  have hboth : recordClasses (allNodes body ++ allNodes orelse) = [] := h
  simpa [recordClasses] using hboth

/-- Statements without numbers. -/
theorem of_recordClasses_cons {t : Stmt} {rest : List Stmt}
    (h : recordClasses (allNodes (t :: rest)) = []) :
    recordClasses t.nodes = [] ∧ recordClasses (allNodes rest) = [] := by
  simpa [allNodes, recordClasses] using h

/-- Clauses without numbers. -/
theorem of_recordClasses_clause {head : ClauseHead} {body : List Stmt} {rest : List (Clause Stmt)}
    (h : recordClasses (clauseNodes (⟨head, body⟩ :: rest)) = []) :
    recordClasses (allNodes body) = [] ∧ recordClasses (clauseNodes rest) = [] := by
  simpa [clauseNodes, recordClasses] using h

end Stmt

namespace ScopeContext

/-- A suite of a definition is not at module level. -/
theorem not_isOpen_inside (c : ScopeContext) : ¬ c.inside.IsOpen := fun h => Nat.succ_ne_zero _ h.1

/-- The suite of a condition is as open as what is around it, unless type checkers alone see it. -/
theorem not_isOpen_enterBranch {c : ScopeContext} (hclosed : ¬ c.IsOpen) (s : Scope)
    (test : Expr) : ¬ (s.enterBranch c test).IsOpen := by
  unfold Scope.enterBranch
  split
  · exact fun h => Bool.noConfusion h.2
  · exact hclosed

end ScopeContext

section Closed

variable (file : String) (known : Scope) (ds : List Declaration)

mutual

/-- Where no records are found, the passes agree on a statement as it is, and the first one learns
of no records. -/
theorem agreement_of_closed_stmt {c : ScopeContext} (hclosed : ¬ c.IsOpen) (above : List Stmt)
    (s : Scope) : (t : Stmt) → Stmt.recordClasses t.nodes = [] →
      Agreement file known ds above (Scope.visits file c s t) t.nodes ∧
        (Scope.collectStmt file c s t).recordNames = s.recordNames
  | .simple pos t, hnone => by
    rw [Scope.visits, Stmt.nodes, Scope.collectStmt]
    exact ⟨.cons (.other rfl rfl) (.nil _), s.recordNames_collectSimple pos t⟩
  | .function pos head body, hnone => by
    obtain ⟨hbody, hnames⟩ := agreement_of_closed c.not_isOpen_inside
      (above ++ [.function pos head body]) (s.enterFunction c head) body hnone
    rw [s.recordNames_enterFunction head] at hnames
    rw [Scope.visits, Stmt.nodes, Scope.collectStmt, Scope.recordNames_reserveIn]
    exact ⟨.cons (.other rfl rfl) hbody, hnames⟩
  | .classDef pos head body, hnone => by
    obtain ⟨hkept, hnone⟩ := Stmt.of_recordClasses_classDef hnone
    have henter := Scope.enterClass_eq file c s pos head
    rw [if_neg hclosed, Prod.mk.injEq] at henter
    obtain ⟨hbody, hnames⟩ := agreement_of_closed c.not_isOpen_inside
      (above ++ [.classDef pos head body]) (s.enterClass file c pos head) body hnone
    rw [henter.1] at hnames
    rw [Scope.visits, Stmt.nodes, Scope.collectStmt, Scope.recordNames_reserveIn]
    exact ⟨.cons (.classDef rfl (.unseen hclosed hkept henter.2)) hbody, hnames⟩
  | .branch pos test body orelse, hnone => by
    obtain ⟨hnone_body, hnone_orelse⟩ := Stmt.of_recordClasses_branch hnone
    obtain ⟨hbody, hnames⟩ := agreement_of_closed
      (ScopeContext.not_isOpen_enterBranch hclosed s test)
      (above ++ [.branch pos test body orelse]) (s.reserveIn test) body hnone_body
    obtain ⟨horelse, hnames'⟩ := agreement_of_closed hclosed
      (above ++ [.branch pos test body orelse] ++ Stmt.allNodes body)
      (Scope.collectAll file (s.enterBranch c test) (s.reserveIn test) body) orelse hnone_orelse
    rw [hnames, Scope.recordNames_reserveIn] at hnames'
    rw [Scope.visits, Stmt.nodes, Scope.collectStmt]
    exact ⟨.cons (.other rfl rfl) (hbody.append horelse), hnames'⟩
  | .compound pos clauses, hnone => by
    obtain ⟨hclauses, hnames⟩ := agreement_of_closed_clauses hclosed
      (above ++ [.compound pos clauses]) s clauses hnone
    rw [Scope.visits, Stmt.nodes, Scope.collectStmt]
    exact ⟨.cons (.other rfl rfl) hclauses, hnames⟩

/-- Where no records are found, the passes agree on statements as they are. -/
theorem agreement_of_closed {c : ScopeContext} (hclosed : ¬ c.IsOpen) (above : List Stmt)
    (s : Scope) : (ts : List Stmt) → Stmt.recordClasses (Stmt.allNodes ts) = [] →
      Agreement file known ds above (Scope.visitsAll file c s ts) (Stmt.allNodes ts) ∧
        (Scope.collectAll file c s ts).recordNames = s.recordNames
  | [], hnone => by
    rw [Scope.visitsAll, Stmt.allNodes, Scope.collectAll]
    exact ⟨.nil above, rfl⟩
  | t :: rest, hnone => by
    obtain ⟨hfirst, hrest⟩ := Stmt.of_recordClasses_cons hnone
    obtain ⟨ht, hnames⟩ := agreement_of_closed_stmt hclosed above s t hfirst
    obtain ⟨hts, hnames'⟩ := agreement_of_closed hclosed (above ++ t.nodes)
      (Scope.collectStmt file c s t) rest hrest
    rw [Scope.visitsAll, Stmt.allNodes, Scope.collectAll]
    exact ⟨ht.append hts, hnames'.trans hnames⟩

/-- Where no records are found, the passes agree on clauses as they are. -/
theorem agreement_of_closed_clauses {c : ScopeContext} (hclosed : ¬ c.IsOpen)
    (above : List Stmt) (s : Scope) : (clauses : List (Clause Stmt)) →
      Stmt.recordClasses (Stmt.clauseNodes clauses) = [] →
      Agreement file known ds above (Scope.visitsClauses file c s clauses)
          (Stmt.clauseNodes clauses) ∧
        (Scope.collectClauses file c s clauses).recordNames = s.recordNames
  | [], hnone => by
    rw [Scope.visitsClauses, Stmt.clauseNodes, Scope.collectClauses]
    exact ⟨.nil above, rfl⟩
  | ⟨head, body⟩ :: rest, hnone => by
    obtain ⟨hfirst, hrest⟩ := Stmt.of_recordClasses_clause hnone
    obtain ⟨hbody, hnames⟩ := agreement_of_closed hclosed above (s.collectHead head) body hfirst
    obtain ⟨hclauses, hnames'⟩ := agreement_of_closed_clauses hclosed
      (above ++ Stmt.allNodes body) (Scope.collectAll file c (s.collectHead head) body) rest hrest
    rw [Scope.visitsClauses, Stmt.clauseNodes, Scope.collectClauses]
    exact ⟨hbody.append hclauses,
      hnames'.trans (hnames.trans (s.recordNames_collectHead head))⟩

end

end Closed

/-- The passes come to a place alike: neither is inside a suite for type checkers alone. -/
structure Alongside (file : String) (known : Scope) (c : ScopeContext) (lc : LowerContext) :
    Prop where
  depth : lc.depth = c.depth
  guarded : c.guarded = false
  scope : lc.scope = known
  location (pos : Pos) : lc.location pos = some (locationOf file pos)

/-- The passes enter the suite of a definition alike. -/
theorem Alongside.inside {file : String} {known : Scope} {c : ScopeContext} {lc : LowerContext}
    (h : Alongside file known c lc) : Alongside file known c.inside lc.inside :=
  ⟨congrArg (· + 1) h.depth, h.guarded, h.scope, h.location⟩

/-- Statements that declare no record leave both passes with the same records. -/
theorem SameRecords.keep {s s' : Scope} {σ σ' : LowerState} {above : List Stmt}
    (h : SameRecords s σ above) (hs : s'.recordNames = s.recordNames)
    (hσ : σ'.records = σ.records) {more : List Stmt} (hmore : Stmt.recordNames more = []) :
    SameRecords s' σ' (above ++ more) := by
  constructor
  · intro x
    rw [hs, h.collected, Stmt.recordNames_append, hmore, List.append_nil]
  · intro x
    rw [hσ, h.lowered, Stmt.recordNames_append, hmore, List.append_nil]

/-- What learns of no records leaves both passes with the same ones. -/
theorem SameRecords.congr {s s' : Scope} {σ σ' : LowerState} {above : List Stmt}
    (h : SameRecords s σ above) (hs : s'.recordNames = s.recordNames)
    (hσ : σ'.records = σ.records) : SameRecords s' σ' above := by
  have hkept : SameRecords s' σ' (above ++ []) := h.keep hs hσ rfl
  rwa [List.append_nil] at hkept

/-- The passes agree on some statements, and are left with the same records. -/
def Agreed (file : String) (known : Scope) (ds : List Declaration) (above : List Stmt)
    (vs : List Visit) (ts : List Stmt) (s : Scope) (σ : LowerState) : Prop :=
  Agreement file known ds above vs ts ∧ SameRecords s σ (above ++ ts)

namespace Agreed

variable {file : String} {known : Scope} {ds : List Declaration} {above ts ts' : List Stmt}
  {vs vs' : List Visit} {s s' : Scope} {σ σ' : LowerState}

/-- Agreement on a statement and then on those in its suites. -/
theorem cons {v : Visit} {t : Stmt} (here : v.Agrees file known ds above t)
    (h : Agreed file known ds (above ++ [t]) vs ts s σ) :
    Agreed file known ds above (v :: vs) (t :: ts) s σ :=
  ⟨.cons here h.1, by simpa using h.2⟩

/-- Agreement on some statements and then on those behind them. -/
theorem append (h : Agreed file known ds above vs ts s σ)
    (h' : Agreed file known ds (above ++ ts) vs' ts' s' σ') :
    Agreed file known ds above (vs ++ vs') (ts ++ ts') s' σ' :=
  ⟨h.1.append h'.1, by simpa using h'.2⟩

/-- What comes behind declares no records. -/
theorem keep (h : Agreed file known ds above vs ts s σ) (hs : s'.recordNames = s.recordNames)
    (hσ : σ'.records = σ.records) : Agreed file known ds above vs ts s' σ' :=
  ⟨h.1, h.2.congr hs hσ⟩

end Agreed

section Both

open Typeward.Action Lower

variable {file : String} {known : Scope} {ds : List Declaration}

/-- Statements that are not seen are left as they are, and both passes agree on them. -/
theorem agreed_of_closed {c : ScopeContext} (hclosed : ¬ c.IsOpen) {above : List Stmt} {s : Scope}
    {σ : LowerState} (hrecords : SameRecords s σ above) {ts : List Stmt}
    (hnone : Stmt.recordClasses (Stmt.allNodes ts) = []) :
    Agreed file known ds above (Scope.visitsAll file c s ts) (Stmt.allNodes ts)
      (Scope.collectAll file c s ts) σ := by
  obtain ⟨hagreement, hnames⟩ := agreement_of_closed file known ds hclosed above s ts hnone
  exact ⟨hagreement, hrecords.keep hnames rfl (Stmt.recordNames_eq_nil hnone)⟩

/-- A class that is declared as a record is found to be one by both passes, and both know its name
then. -/
theorem agreed_record {c : ScopeContext} {lc : LowerContext}
    (halong : Alongside file known c lc) (htop : ∀ d, .type d ∈ ds → d.isTopLevel = true)
    {above : List Stmt} {s : Scope} {σ σ' : LowerState} {pos : Pos} {head : ClassHead}
    {body : List Stmt} {inherited : List (RecordField StaticType)} {number : Nat}
    (hrecords : SameRecords s σ above) (hforms : s.forms = known.forms)
    (hinherited : inheritedFields lc σ.records head.bases = some inherited)
    (hrun : lowerRecord lc pos head body inherited σ = .ok (number, σ'))
    (hwithin : σ'.declarations <+: ds) (hnone : Stmt.recordClasses (Stmt.allNodes body) = []) :
    Agreed file known ds above (Scope.visits file c s (.classDef pos head body))
      (.classDef pos { head with decl := some number } body :: Stmt.allNodes body)
      (Scope.collectStmt file c s (.classDef pos head body)) σ' := by
  obtain ⟨fields, -, hdeclare⟩ := lowerRecord_eq_ok.1 hrun
  obtain ⟨rfl, hdeclared⟩ := declare_eq_ok.1 hdeclare
  have hdeclaration : ds[σ.declarations.length]? = some (.type ⟨head.name,
      .record fields (some head.name) (lc.location pos), lc.isRecursive pos, lc.depth = 0,
      lc.location pos⟩) := by
    obtain ⟨more, hmore⟩ := hwithin
    rw [← hmore, ← hdeclared, List.append_assoc, List.getElem?_append_right (Nat.le_refl _)]
    simp
  have hdepth : c.depth = 0 := by
    have hlevel := htop _ (List.mem_of_getElem? hdeclaration)
    rw [← halong.depth]
    simpa using hlevel
  have hopen : c.IsOpen := ⟨hdepth, halong.guarded⟩
  have hbase : ∃ base ∈ head.bases, known.NamesRecord above base := by
    rw [← halong.scope]
    exact (inheritedFields_isSome_iff hrecords.lowered head.bases).1 (by rw [hinherited]; rfl)
  have henter := Scope.enterClass_eq file c s pos head
  rw [if_pos hopen, if_pos ((Scope.isRecord_iff hforms hrecords.collected _).2 hbase),
    Prod.mk.injEq] at henter
  have hfate : Visit.Fate file known ds above c s pos head
      { head with decl := some σ.declarations.length } := by
    refine .record hopen hbase ⟨_, fields, lc.isRecursive pos, rfl, ?_⟩ henter.2
    rw [hdeclaration, halong.location, decide_eq_true (halong.depth.trans hdepth)]
  have hdeclares : Stmt.recordNames
      [.classDef pos { head with decl := some σ.declarations.length } body] = [head.name] := rfl
  have hsuite : SameRecords (s.enterClass file c pos head) σ' (above ++
      [.classDef pos { head with decl := some σ.declarations.length } body]) := by
    constructor
    · intro x
      rw [henter.1, Scope.mem_insertName, Stmt.recordNames_append, hdeclares, List.mem_append,
        List.mem_singleton, ← hrecords.collected x, or_comm]
    · intro x
      rw [← hdeclared, List.lookup_cons, Stmt.recordNames_append, hdeclares, List.mem_append,
        List.mem_singleton, ← hrecords.lowered x]
      by_cases hx : x = head.name
      · simp [hx]
      · simp [hx, beq_false_of_ne hx]
  rw [Scope.visits, Scope.collectStmt]
  exact .cons (.classDef rfl hfate)
    ((agreed_of_closed c.not_isOpen_inside hsuite hnone).keep (Scope.recordNames_reserveIn _ _) rfl)

/-- A class that is not declared as a record is found to be none by the first pass: where it is
seen, it is bound. -/
theorem fate_of_ordinary {c : ScopeContext} {lc : LowerContext}
    (halong : Alongside file known c lc) {above : List Stmt} {s : Scope} {σ : LowerState}
    (pos : Pos) {head head' : ClassHead} (hkept : head'.decl = none)
    (hrecords : SameRecords s σ above) (hforms : s.forms = known.forms)
    (hinherited : inheritedFields lc σ.records head.bases = none) :
    Visit.Fate file known ds above c s pos head head' ∧
      (s.enterClass file c pos head).recordNames = s.recordNames := by
  have hbase : ¬ ∃ base ∈ head.bases, known.NamesRecord above base := by
    rw [← halong.scope, ← inheritedFields_isSome_iff hrecords.lowered head.bases, hinherited]
    exact Bool.false_ne_true
  have hrecord : ¬ s.isRecord head.bases = true :=
    fun h => hbase ((Scope.isRecord_iff hforms hrecords.collected _).1 h)
  have henter := Scope.enterClass_eq file c s pos head
  rw [if_neg hrecord] at henter
  by_cases hopen : c.IsOpen
  · rw [if_pos hopen, Prod.mk.injEq] at henter
    exact ⟨.ordinary hopen hbase hkept henter.2, henter.1⟩
  · rw [if_neg hopen, Prod.mk.injEq] at henter
    exact ⟨.unseen hopen hkept henter.2, henter.1⟩

mutual

/-- The passes agree on a statement: the first comes to it, and the second lowers it, with the same
records known, and they are left with the same ones. -/
theorem agreed_lowerStmt {c : ScopeContext} {lc : LowerContext}
    (halong : Alongside file known c lc) (htop : ∀ d, .type d ∈ ds → d.isTopLevel = true)
    {above : List Stmt} {s : Scope} {σ σ' : LowerState} : {t t' : Stmt} →
    lowerStmt lc t σ = .ok (t', σ') → σ'.declarations <+: ds → Stmt.recordClasses t.nodes = [] →
    SameRecords s σ above →
    (∀ v ∈ Scope.visits file c s t, v.stmt.asksForms = true → v.scope.forms = known.forms) →
    Agreed file known ds above (Scope.visits file c s t) t'.nodes (Scope.collectStmt file c s t) σ'
  | .simple pos t, t', hrun, hwithin, hnone, hrecords, hforms => by
    obtain ⟨t', hlower, rfl⟩ := lowerStmt_simple_eq_ok.1 hrun
    rw [Scope.visits, Stmt.nodes, Scope.collectStmt]
    exact ⟨.cons (.other rfl rfl) (.nil _),
      hrecords.keep (s.recordNames_collectSimple pos t) (calm_lowerSimple lc pos t hlower).records
        rfl⟩
  | .function pos head body, t', hrun, hwithin, hnone, hrecords, hforms => by
    obtain ⟨decorators, σ₁, hdecorators, params, σ₂, hparams, typed, σ₃, htyped, number, σ₄,
      hnumber, body', hbody, rfl⟩ := lowerStmt_function_eq_ok.1 hrun
    have hquiet : σ.Quiet σ₄ :=
      (((calm_lowerIn lc _ hdecorators).trans (calm_lowerInitials lc _ hparams)).trans
        (calm_lowerParameters lc _ htyped)).trans (calm_declare _ hnumber)
    rw [Scope.visits, List.forall_mem_cons] at hforms
    rw [Scope.visits, Stmt.nodes, Scope.collectStmt]
    refine .cons (.other rfl rfl) ?_
    have hstart : SameRecords (s.enterFunction c head) σ₄ (above ++
        [.function pos { head with decorators, params, decl := some number } body']) :=
      hrecords.keep (s.recordNames_enterFunction head) hquiet.records rfl
    have hsuite := agreed_lowerAll halong.inside htop hbody hwithin hnone hstart hforms.2
    exact hsuite.keep (Scope.recordNames_reserveIn _ _) rfl
  | .classDef pos head body, t', hrun, hwithin, hnone, hrecords, hforms => by
    obtain ⟨hdecl, hnone⟩ := Stmt.of_recordClasses_classDef hnone
    rw [Scope.visits, List.forall_mem_cons] at hforms
    obtain ⟨inherited, hinherited, number, hrecord, rfl⟩ | ⟨hinherited, bases, σ₁, hbases, keywords,
      σ₂, hkeywords, body', σ₃, hbody, decorators, hdecorators, rfl⟩ :=
      lowerStmt_classDef_eq_ok.1 hrun
    · exact agreed_record halong htop hrecords (hforms.1 rfl) hinherited hrecord hwithin hnone
    · have hquiet := (calm_lowerIn lc.inside _ hbases).trans (calm_lowerIn lc.inside _ hkeywords)
      have hquiet' := calm_lowerIn lc.inside _ hdecorators
      obtain ⟨hfate, hnames⟩ : Visit.Fate file known ds above c s pos head
          { head with bases, keywords, decorators } ∧
            (s.enterClass file c pos head).recordNames = s.recordNames :=
        fate_of_ordinary halong pos hdecl hrecords (hforms.1 rfl) hinherited
      have hnode : Stmt.recordNames
          [.classDef pos { head with bases, keywords, decorators } body'] = [] := by
        rw [Stmt.recordNames_cons, Stmt.recordClass?, hdecl]
        rfl
      have hsuite := agreed_lowerAll halong.inside htop hbody
        (hquiet'.declarations.trans hwithin) hnone (hrecords.keep hnames hquiet.records hnode)
        hforms.2
      rw [Scope.visits, Stmt.nodes, Scope.collectStmt]
      exact .cons (.classDef rfl hfate)
        (hsuite.keep (Scope.recordNames_reserveIn _ _) hquiet'.records)
  | .branch pos test body orelse, t', hrun, hwithin, hnone, hrecords, hforms => by
    obtain ⟨hnone, hnone_orelse⟩ := Stmt.of_recordClasses_branch hnone
    rw [Scope.visits, List.forall_mem_cons, List.forall_mem_append] at hforms
    obtain ⟨hhere, hforms, hforms_orelse⟩ := hforms
    have hguard : s.isGuard test = lc.scope.isGuard test := by
      rw [halong.scope]
      exact Scope.isGuard_eq (hhere rfl) test
    have hcollect : Scope.collectStmt file c s (.branch pos test body orelse) =
        Scope.collectAll file c
          (Scope.collectAll file (s.enterBranch c test) (s.reserveIn test) body) orelse := by
      rw [Scope.collectStmt]
      rfl
    rw [Scope.visits, hcollect]
    obtain ⟨htest, orelse', horelse, rfl⟩ | ⟨htest, test', σ₁, hlower, body', σ₂, hbody, orelse',
      horelse, rfl⟩ := lowerStmt_branch_eq_ok.1 hrun
    · have henter : s.enterBranch c test = { c with guarded := true } := by
        rw [Scope.enterBranch, hguard, if_pos htest]
      have hclosed : ¬ (s.enterBranch c test).IsOpen := by
        rw [henter]
        exact fun h => Bool.noConfusion h.2
      have hstart : SameRecords (s.reserveIn test) σ (above ++ [.branch pos test body orelse']) :=
        hrecords.keep (Scope.recordNames_reserveIn _ _) rfl rfl
      have hsuite : Agreed file known ds _ _ _ _ _ := agreed_of_closed hclosed hstart hnone
      exact .cons (.other rfl rfl) (hsuite.append (agreed_lowerAll halong htop horelse hwithin
        hnone_orelse hsuite.2 hforms_orelse))
    · have henter : s.enterBranch c test = c := by
        rw [Scope.enterBranch, hguard, htest, if_neg Bool.false_ne_true]
      rw [henter] at hforms hforms_orelse
      have hstart : SameRecords (s.reserveIn test) σ₁
          (above ++ [.branch pos test' body' orelse']) :=
        hrecords.keep (Scope.recordNames_reserveIn _ _) (calm_lowerIn lc test hlower).records rfl
      have hsuite := agreed_lowerAll halong htop hbody
        (((adds_lowerAll lc orelse).keeps horelse).trans hwithin) hnone hstart hforms
      rw [henter]
      exact .cons (.other rfl rfl)
        (hsuite.append (agreed_lowerAll halong htop horelse hwithin hnone_orelse hsuite.2
          hforms_orelse))
  | .compound pos clauses, t', hrun, hwithin, hnone, hrecords, hforms => by
    obtain ⟨clauses', hclauses, rfl⟩ := lowerStmt_compound_eq_ok.1 hrun
    rw [Scope.visits, List.forall_mem_cons] at hforms
    rw [Scope.visits, Stmt.nodes, Scope.collectStmt]
    exact .cons (.other rfl rfl) (agreed_lowerClauses halong htop hclauses hwithin hnone
      (hrecords.keep rfl rfl rfl) hforms.2)
termination_by structural t => t

/-- The passes agree on statements in order. -/
theorem agreed_lowerAll {c : ScopeContext} {lc : LowerContext}
    (halong : Alongside file known c lc) (htop : ∀ d, .type d ∈ ds → d.isTopLevel = true)
    {above : List Stmt} {s : Scope} {σ σ' : LowerState} : {ts ts' : List Stmt} →
    lowerAll lc ts σ = .ok (ts', σ') → σ'.declarations <+: ds →
    Stmt.recordClasses (Stmt.allNodes ts) = [] → SameRecords s σ above →
    (∀ v ∈ Scope.visitsAll file c s ts, v.stmt.asksForms = true → v.scope.forms = known.forms) →
    Agreed file known ds above (Scope.visitsAll file c s ts) (Stmt.allNodes ts')
      (Scope.collectAll file c s ts) σ'
  | [], ts', hrun, hwithin, hnone, hrecords, hforms => by
    obtain ⟨rfl, rfl⟩ := lowerAll_nil_eq_ok.1 hrun
    rw [Scope.visitsAll, Stmt.allNodes, Scope.collectAll]
    exact ⟨.nil above, by rwa [List.append_nil]⟩
  | t :: rest, ts', hrun, hwithin, hnone, hrecords, hforms => by
    obtain ⟨hfirst, hnone⟩ := Stmt.of_recordClasses_cons hnone
    obtain ⟨t', σ₁, ht, rest', hrest, rfl⟩ := lowerAll_cons_eq_ok.1 hrun
    rw [Scope.visitsAll, List.forall_mem_append] at hforms
    rw [Scope.visitsAll, Stmt.allNodes, Scope.collectAll]
    have hown := agreed_lowerStmt halong htop ht
      (((adds_lowerAll lc rest).keeps hrest).trans hwithin) hfirst hrecords hforms.1
    exact hown.append (agreed_lowerAll halong htop hrest hwithin hnone hown.2 hforms.2)
termination_by structural ts => ts

/-- The passes agree on clauses in order. -/
theorem agreed_lowerClauses {c : ScopeContext} {lc : LowerContext}
    (halong : Alongside file known c lc) (htop : ∀ d, .type d ∈ ds → d.isTopLevel = true)
    {above : List Stmt} {s : Scope} {σ σ' : LowerState} : {clauses clauses' : List (Clause Stmt)} →
    lowerClauses lc clauses σ = .ok (clauses', σ') → σ'.declarations <+: ds →
    Stmt.recordClasses (Stmt.clauseNodes clauses) = [] → SameRecords s σ above →
    (∀ v ∈ Scope.visitsClauses file c s clauses, v.stmt.asksForms = true →
      v.scope.forms = known.forms) →
    Agreed file known ds above (Scope.visitsClauses file c s clauses) (Stmt.clauseNodes clauses')
      (Scope.collectClauses file c s clauses) σ'
  | [], clauses', hrun, hwithin, hnone, hrecords, hforms => by
    obtain ⟨rfl, rfl⟩ := lowerClauses_nil_eq_ok.1 hrun
    rw [Scope.visitsClauses, Stmt.clauseNodes, Scope.collectClauses]
    exact ⟨.nil above, by rwa [List.append_nil]⟩
  | ⟨head, body⟩ :: rest, clauses', hrun, hwithin, hnone, hrecords, hforms => by
    obtain ⟨hfirst, hnone⟩ := Stmt.of_recordClasses_clause hnone
    obtain ⟨head', σ₁, hhead, body', σ₂, hbody, rest', hrest, rfl⟩ :=
      lowerClauses_cons_eq_ok.1 hrun
    rw [Scope.visitsClauses, List.forall_mem_append] at hforms
    rw [Scope.visitsClauses, Stmt.clauseNodes, Scope.collectClauses]
    have hstart : SameRecords (s.collectHead head) σ₁ above :=
      hrecords.congr (s.recordNames_collectHead head) (calm_lowerIn lc head hhead).records
    have hown := agreed_lowerAll halong htop hbody
      (((adds_lowerClauses lc rest).keeps hrest).trans hwithin) hfirst hstart hforms.1
    exact hown.append (agreed_lowerClauses halong htop hrest hwithin hnone hown.2 hforms.2)
termination_by structural clauses => clauses

end

end Both

end Typeward
