import Typeward.Proofs.Plannability

/-!
# The life cycle of a registry

A client calls a registry in any order, inside blocks that tell where code runs; a call that fails
leaves all blocks up to the next place at which the client catches the fault, with whatever it has
done to the registry before. `Script.run` keeps a log of all calls. That a call which fails has done
nothing is `run_perform`. What a registry holds is a function of the log: the names that were declared,
in order, each with the expression by which it was completed. From this and from what one call does
follows what the registry promises to its clients over a whole run.
-/

namespace Typeward

open Registry

/-- A call of a registry. -/
inductive RegistryCall where
  | declare (name : String) (isRecursive : Bool) (location : Option Location)
  | complete (name : String) (expr : TypeExpr)
  | lookup (name : String) (location : Option Location)
  | resolve (reference : TypeExpr)
  | get (name : String)
  | definitions
  | allocate (preferred : String)

/-- What a call answers if it does not fail. -/
inductive RegistryAnswer where
  | entry (entry : Option Entry)
  | entries (entries : List Entry)
  | expr (expr : TypeExpr)
  | name (name : String)

/-- Whether a call only asks. -/
def RegistryCall.isQuery : RegistryCall → Bool
  | .lookup .. | .resolve _ | .get _ | .definitions => true
  | .declare .. | .complete .. | .allocate _ => false

/-- What a call does. -/
def Registry.perform : RegistryCall → Op RegistryAnswer
  | .declare name isRecursive location => do
    declareEntry name isRecursive location
    return .entry ((← get).get? name)
  | .complete name expr => do
    completeEntry name expr
    return .entry ((← get).get? name)
  | .lookup name location => do return .expr (← ofExcept ((← get).lookup name location))
  | .resolve reference => do return .expr (← ofExcept ((← get).resolve reference))
  | .get name => do return .entry ((← get).get? name)
  | .definitions => do return .entries (← get).definitions
  | .allocate preferred => do
    let (name, r) := (← get).allocate preferred
    set r
    return .name name

/-- A call in a run: what the registry was before, what it answered and what it is afterwards. -/
structure Moment where
  call : RegistryCall
  before : Registry
  answer : Except Fault RegistryAnswer
  after : Registry

/-- The fault that a call ended in. -/
def Moment.fault? (m : Moment) : Option Fault :=
  match m.answer with
  | .ok _ => none
  | .error fault => some fault

/-- The call of a registry, which leaves what it leaves also if it fails. -/
def Registry.call (r : Registry) (c : RegistryCall) : Moment :=
  let (answer, after) := (perform c).run.run r
  ⟨c, r, answer, after⟩

/-- What a client does. -/
inductive Script where
  | skip
  | call (call : RegistryCall)
  /-- The client fails for a reason of its own. -/
  | fail (fault : Fault)
  | both (first second : Script)
  /-- What is built inside runs at a place on import, or at no certain time. -/
  | block (site : Option Location) (body : Script)
  /-- A fault inside is caught. -/
  | attempt (body : Script)

/-- A run: the calls so far, the registry, and the fault that is on its way, if there is one. -/
structure RegistryRun where
  log : List Moment
  registry : Registry
  fault : Option Fault

/-- Runs a script. A block that is left, be it by a fault, puts the former place back. -/
def Script.run : Script → Registry → RegistryRun
  | .skip, r => ⟨[], r, none⟩
  | .call c, r => ⟨[r.call c], (r.call c).after, (r.call c).fault?⟩
  | .fail fault, r => ⟨[], r, some fault⟩
  | .both first second, r =>
    let start := first.run r
    match start.fault with
    | some _ => start
    | none =>
      let rest := second.run start.registry
      ⟨start.log ++ rest.log, rest.registry, rest.fault⟩
  | .block site body, r =>
    let inside := body.run (r.evaluatedAt site)
    { inside with registry := inside.registry.evaluatedAt r.site }
  | .attempt body, r => { body.run r with fault := none }

/-- The entry that a call has declared. -/
def Moment.declared? (m : Moment) : Option Entry :=
  match m.call, m.answer with
  | .declare name isRecursive location, .ok _ =>
    some ⟨name, isRecursive, location, .pending, none⟩
  | _, _ => none

/-- The name that a call has completed, and the expression. -/
def Moment.completed? (m : Moment) : Option (String × TypeExpr) :=
  match m.call, m.answer with
  | .complete name expr, .ok _ => some (name, expr)
  | _, _ => none

/-- The expression by which a name was completed in a log. -/
def exprIn (log : List Moment) (name : String) : Option TypeExpr :=
  (log.filterMap Moment.completed?).lookup name

/-- How far the definition of a name has come in a log. -/
def stateIn (log : List Moment) (name : String) : EntryState :=
  if (exprIn log name).isSome then .complete else .pending

/-- The names that were declared in a log, in order, each with the expression by which it was
completed. -/
def entriesIn (log : List Moment) : List Entry :=
  (log.filterMap Moment.declared?).map fun entry =>
    { entry with state := stateIn log entry.name, expr := exprIn log entry.name }

/-- An entry is another one at a later time: it may have become complete, and is the same
otherwise. -/
structure Entry.Continues (old new : Entry) : Prop where
  name : new.name = old.name
  isRecursive : new.isRecursive = old.isRecursive
  location : new.location = old.location
  state : old.state = .complete → new.state = .complete
  expr : ∀ e, old.expr = some e → new.expr = some e

/-- A registry is another one at a later time: each of its entries has kept its place. -/
def Registry.Continues (old new : Registry) : Prop :=
  ∀ (i : Nat) (entry : Entry), old.entries[i]? = some entry →
    ∃ later, new.entries[i]? = some later ∧ entry.Continues later

/-- What a registry promises to its clients, given the log of a run from a new one and the registry
at its end. -/
structure LifeCycle (log : List Moment) (last : Registry) : Prop where
  /-- Names are declared once. -/
  distinct : ∀ m ∈ log, (m.after.entries.map (·.name)).Nodup
  /-- An entry has an expression just when it is complete. -/
  complete : ∀ m ∈ log, ∀ entry ∈ m.after.entries,
    entry.state = .complete ↔ ∃ e, entry.expr = some e
  /-- A call keeps all entries, and so does what follows it. -/
  kept : ∀ m ∈ log, m.before.Continues m.after ∧ m.after.Continues last
  /-- All entries are kept from one call to each later one. -/
  kept_on : log.Pairwise fun m m' => m.after.Continues m'.before
  /-- Names are completed once. -/
  once : ((log.filterMap Moment.completed?).map (·.1)).Nodup
  /-- A call that fails changes nothing. -/
  failed : ∀ m ∈ log, m.fault?.isSome = true → m.after = m.before
  /-- A query changes nothing. -/
  asked : ∀ m ∈ log, m.call.isQuery = true → m.after = m.before
  /-- No call changes where the code that is being built runs. -/
  site : ∀ m ∈ log, m.after.site = m.before.site
  /-- A name that was looked up as that of a complete type is resolved to the expression by which it
  was completed. -/
  resolved : log.Pairwise fun m m' => ∀ name location,
    m.call = .lookup name location → m.answer = .ok (.expr (.name name)) →
    m'.call = .resolve (.name name) → ∃ e, exprIn log name = some e ∧ m'.answer = .ok (.expr e)
  /-- The entries are those of the log so far. -/
  entries : ∀ (i : Nat) (m : Moment), log[i]? = some m → m.before.entries = entriesIn (log.take i)
  /-- The definitions are the complete entries, in the order of their declarations. -/
  definitions : ∀ (i : Nat) (m : Moment), log[i]? = some m → m.call = .definitions →
    m.answer = .ok (.entries ((entriesIn (log.take i)).filter (·.isComplete)))
  /-- The entries at the end are those of the whole log. -/
  last_entries : last.entries = entriesIn log

section Calls

variable {r r' : Registry} {c : RegistryCall}

/-- A call is logged with the registry that it is a call of. -/
@[simp]
theorem call_before : (r.call c).before = r := rfl

/-- A call is logged as what it is. -/
@[simp]
theorem call_call : (r.call c).call = c := rfl

/-- What a call answers if it does not fail, and the registry that it leaves then. -/
def Registry.outcome (r : Registry) : RegistryCall → Except Fault (RegistryAnswer × Registry)
  | .declare name isRecursive location => do
    let r' ← r.declare name isRecursive location
    return (.entry (r'.get? name), r')
  | .complete name expr => do
    let r' ← r.complete name expr
    return (.entry (r'.get? name), r')
  | .lookup name location => do return (.expr (← r.lookup name location), r)
  | .resolve reference => do return (.expr (← r.resolve reference), r)
  | .get name => .ok (.entry (r.get? name), r)
  | .definitions => .ok (.entries r.definitions, r)
  | .allocate preferred => .ok (.name (r.allocate preferred).1, (r.allocate preferred).2)

/-- A declaration that fails has declared nothing. -/
theorem run_declare (r : Registry) (name : String) (isRecursive : Bool)
    (location : Option Location) :
    (declareEntry name isRecursive location).run.run r =
      match r.declare name isRecursive location with
      | .ok r' => (.ok (), r')
      | .error fault => (.error fault, r) := by
  rw [run_declareEntry, declare_eq]
  split <;> rfl

/-- A completion that fails has changed no entry. -/
theorem run_complete (r : Registry) (name : String) (expr : TypeExpr) :
    (completeEntry name expr).run.run r =
      match r.complete name expr with
      | .ok r' => (.ok (), r')
      | .error fault => (.error fault, r) := by
  rw [run_completeEntry, complete_eq]
  cases r.get? name with
  | none => rfl
  | some entry => cases hcomplete : entry.isComplete <;> simp [hcomplete]

/-- A change and then a question do nothing if the change fails and does nothing then. -/
theorem run_ask {op : Op Unit} {x : Except Fault Registry} (ask : Registry → RegistryAnswer)
    (h : op.run.run r = match x with
      | .ok r' => (.ok (), r')
      | .error fault => (.error fault, r)) :
    (do op; return ask (← get) : Op RegistryAnswer).run.run r =
      match (do let r' ← x; return (ask r', r') : Except Fault (RegistryAnswer × Registry)) with
      | .ok (answer, r') => (.ok answer, r')
      | .error fault => (.error fault, r) := by
  rw [ExceptT.run_bind, StateT.run_bind, h]
  cases x <;> rfl

/-- A question that may fail does nothing. -/
theorem run_answer (r : Registry) (ask : Registry → Except Fault TypeExpr) :
    (do return .expr (← ofExcept (ask (← get))) : Op RegistryAnswer).run.run r =
      match (do return (.expr (← ask r), r) : Except Fault (RegistryAnswer × Registry)) with
      | .ok (answer, r') => (.ok answer, r')
      | .error fault => (.error fault, r) := by
  change (do return .expr (← ofExcept (ask r)) : Op RegistryAnswer).run.run r = _
  cases ask r <;> rfl

/-- A call that fails leaves the registry that it found. -/
theorem run_perform (r : Registry) (c : RegistryCall) :
    (perform c).run.run r =
      match r.outcome c with
      | .ok (answer, r') => (.ok answer, r')
      | .error fault => (.error fault, r) := by
  cases c with
  | declare name isRecursive location =>
    exact run_ask (.entry <| ·.get? name) (run_declare r name isRecursive location)
  | complete name expr => exact run_ask (.entry <| ·.get? name) (run_complete r name expr)
  | lookup name location => exact run_answer r (·.lookup name location)
  | resolve reference => exact run_answer r (·.resolve reference)
  | get | definitions | allocate => rfl

/-- A call that does not fail is logged with its answer. -/
theorem call_of_outcome {answer : RegistryAnswer} (h : r.outcome c = .ok (answer, r')) :
    r.call c = ⟨c, r, .ok answer, r'⟩ := by
  unfold Registry.call
  rw [run_perform, h]

/-- A call that fails is logged with its fault, and changes nothing. -/
theorem call_of_fault {fault : Fault} (h : r.outcome c = .error fault) :
    r.call c = ⟨c, r, .error fault, r⟩ := by
  unfold Registry.call
  rw [run_perform, h]

/-- A call that fails changes nothing. -/
theorem after_of_fault (h : (r.call c).fault?.isSome = true) : (r.call c).after = r := by
  cases houtcome : r.outcome c with
  | error fault => rw [call_of_fault houtcome]
  | ok out =>
    rw [call_of_outcome houtcome] at h
    cases h

/-- A query answers the registry that it asks. -/
theorem run_query (h : c.isQuery = true) {answer : RegistryAnswer}
    (hrun : r.outcome c = .ok (answer, r')) : r' = r := by
  cases c with
  | declare | complete | allocate => cases h
  | lookup name location =>
    obtain ⟨e, -, heq⟩ := Except.bind_eq_ok.1 hrun
    cases heq
    rfl
  | resolve reference =>
    obtain ⟨e, -, heq⟩ := Except.bind_eq_ok.1 hrun
    cases heq
    rfl
  | get | definitions =>
    cases hrun
    rfl

/-- A query changes nothing. -/
theorem after_of_query (h : c.isQuery = true) : (r.call c).after = r := by
  cases hrun : r.outcome c with
  | error fault => rw [call_of_fault hrun]
  | ok out =>
    obtain ⟨answer, r'⟩ := out
    rw [call_of_outcome hrun]
    exact run_query h hrun

/-- What a call can do to a registry: nothing to its entries, or put a pending one behind them, or
complete a pending one of them. It also tells which of these it does. -/
inductive CallStep (r : Registry) (m : Moment) : Prop
  | same (hdeclared : m.declared? = none) (hcompleted : m.completed? = none)
      (hentries : m.after.entries = r.entries)
  | declare {entry} (hdeclared : m.declared? = some entry) (hcompleted : m.completed? = none)
      (hfresh : entry.name ∉ r.entries.map (·.name)) (hpending : entry.state = .pending)
      (hexpr : entry.expr = none) (hentries : m.after.entries = r.entries ++ [entry])
  | complete {name e entry} (hdeclared : m.declared? = none)
      (hcompleted : m.completed? = some (name, e)) (hget : r.get? name = some entry)
      (hpending : entry.state = .pending)
      (hentries : m.after.entries = r.entries.map fun entry =>
        if entry.name == name then { entry with expr := some e, state := .complete } else entry)

/-- Only a pending name can be completed. -/
theorem pending_of_complete {name : String} {e : TypeExpr} (h : r.complete name e = .ok r') :
    ∃ entry, r.get? name = some entry ∧ entry.state = .pending := by
  rw [complete_eq] at h
  split at h
  · cases h
  · rename_i entry hget
    split at h
    · cases h
    · rename_i hpending
      refine ⟨entry, hget, ?_⟩
      cases hstate : entry.state with
      | pending => rfl
      | complete => simp [Entry.isComplete, hstate] at hpending

/-- The names for generated code are no entries. -/
theorem entries_of_allocate (r : Registry) (preferred : String) :
    (r.allocate preferred).2.entries = r.entries := by
  unfold Registry.allocate
  split <;> rfl

/-- A call takes one of these steps. -/
theorem callStep (r : Registry) (c : RegistryCall) : CallStep r (r.call c) := by
  cases hrun : r.outcome c with
  | error fault =>
    rw [call_of_fault hrun]
    refine .same ?_ ?_ rfl <;> cases c <;> rfl
  | ok out =>
    obtain ⟨answer, r'⟩ := out
    rw [call_of_outcome hrun]
    cases c with
    | declare name isRecursive location =>
      obtain ⟨r'', hdeclare, heq⟩ := Except.bind_eq_ok.1 hrun
      cases heq
      refine .declare rfl rfl ((exists_declare_iff _ _).1 ⟨_, hdeclare⟩) rfl rfl ?_
      rw [entries_of_declare hdeclare]
    | complete name e =>
      obtain ⟨r'', hcomplete, heq⟩ := Except.bind_eq_ok.1 hrun
      cases heq
      obtain ⟨entry, hget, hpending⟩ := pending_of_complete hcomplete
      refine .complete rfl rfl hget hpending ?_
      rw [entries_of_complete hcomplete]
    | allocate preferred =>
      cases hrun
      exact .same rfl rfl (entries_of_allocate r preferred)
    | lookup | resolve | get | definitions =>
      obtain rfl := run_query rfl hrun
      exact .same rfl rfl rfl

/-- No call changes where the code that is being built runs. -/
theorem call_site (r : Registry) (c : RegistryCall) : (r.call c).after.site = r.site := by
  cases hrun : r.outcome c with
  | error fault => rw [call_of_fault hrun]
  | ok out =>
    obtain ⟨answer, r'⟩ := out
    rw [call_of_outcome hrun]
    cases c with
    | declare name isRecursive location =>
      obtain ⟨r'', hdeclare, heq⟩ := Except.bind_eq_ok.1 hrun
      cases heq
      rw [entries_of_declare hdeclare]
    | complete name e =>
      obtain ⟨r'', hcomplete, heq⟩ := Except.bind_eq_ok.1 hrun
      cases heq
      rw [entries_of_complete hcomplete]
    | allocate preferred =>
      cases hrun
      dsimp only
      unfold Registry.allocate
      split <;> rfl
    | lookup | resolve | get | definitions =>
      obtain rfl := run_query rfl hrun
      rfl

end Calls

/-- What the registry holds after the calls of a log. -/
structure Recorded (log : List Moment) (r : Registry) : Prop where
  entries : r.entries = entriesIn log
  distinct : ((log.filterMap Moment.declared?).map (·.name)).Nodup
  once : ((log.filterMap Moment.completed?).map (·.1)).Nodup
  declared : ∀ p ∈ log.filterMap Moment.completed?,
    p.1 ∈ (log.filterMap Moment.declared?).map (·.name)

section Logs

variable {log : List Moment} {m : Moment} {r : Registry} {n : String}

/-- The entries in a log are those of the declared names. -/
theorem names_entriesIn (log : List Moment) :
    (entriesIn log).map (·.name) = (log.filterMap Moment.declared?).map (·.name) := by
  simp [entriesIn]

/-- A name without an expression is not among those that were completed. -/
theorem exprIn_eq_none_iff :
    exprIn log n = none ↔ n ∉ (log.filterMap Moment.completed?).map (·.1) := by
  rw [exprIn, List.lookup_eq_none_iff]
  simp only [List.mem_map, not_exists, not_and, bne_iff_ne]
  exact forall₂_congr fun p hp => ne_comm

/-- A name keeps its expression when the log grows. -/
theorem exprIn_append {e : TypeExpr} (h : exprIn log n = some e) (more : List Moment) :
    exprIn (log ++ more) n = some e := by
  rw [exprIn, List.filterMap_append, List.lookup_append]
  rw [exprIn] at h
  rw [h]
  rfl

/-- A call that completes nothing leaves the expressions as they are. -/
theorem exprIn_concat (h : m.completed? = none) : exprIn (log ++ [m]) n = exprIn log n := by
  simp [exprIn, h]

/-- A call that completes nothing leaves all names as far as they have come. -/
theorem stateIn_concat (h : m.completed? = none) : stateIn (log ++ [m]) n = stateIn log n := by
  rw [stateIn, stateIn, exprIn_concat h]

/-- A call that completes a pending name gives it its expression. -/
theorem exprIn_concat_of_completed {name : String} {e : TypeExpr}
    (h : m.completed? = some (name, e)) (hpending : exprIn log name = none) :
    exprIn (log ++ [m]) n = if n = name then some e else exprIn log n := by
  have hone : List.filterMap Moment.completed? [m] = [(name, e)] := by simp [h]
  rw [exprIn, List.filterMap_append, List.lookup_append, hone, List.lookup_cons]
  by_cases hn : n = name
  · subst hn
    rw [exprIn] at hpending
    simp [hpending]
  · have hne : (n == name) = false := by simpa using hn
    simp [hn, hne, exprIn]

/-- A name is complete just if it has an expression. -/
theorem stateIn_eq_complete_iff : stateIn log n = .complete ↔ ∃ e, exprIn log n = some e := by
  unfold stateIn
  cases exprIn log n <;> simp

/-- A name is pending just if it has no expression. -/
theorem stateIn_eq_pending_iff : stateIn log n = .pending ↔ exprIn log n = none := by
  unfold stateIn
  cases exprIn log n <;> simp

namespace Recorded

/-- An entry is as far as its name has come, and has the expression by which that was completed. -/
theorem of_mem (h : Recorded log r) {entry : Entry} (hmem : entry ∈ r.entries) :
    entry.state = stateIn log entry.name ∧ entry.expr = exprIn log entry.name := by
  rw [h.entries, entriesIn] at hmem
  obtain ⟨declared, -, rfl⟩ := List.mem_map.1 hmem
  exact ⟨rfl, rfl⟩

/-- The entry of a name is as far as the name has come, and has the expression by which that was
completed. -/
theorem of_get? (h : Recorded log r) {entry : Entry} (hget : r.get? n = some entry) :
    entry.state = stateIn log n ∧ entry.expr = exprIn log n := by
  have hname : entry.name = n := by simpa using List.find?_some hget
  rw [← hname]
  exact h.of_mem (List.mem_of_find?_eq_some hget)

/-- A name with an expression has an entry. -/
theorem exists_get? (h : Recorded log r) {e : TypeExpr} (hn : exprIn log n = some e) :
    ∃ entry, r.get? n = some entry ∧ entry.state = .complete ∧ entry.expr = some e := by
  have hcompleted : n ∈ (log.filterMap Moment.completed?).map (·.1) := by
    by_contra hnone
    rw [exprIn_eq_none_iff.2 hnone] at hn
    cases hn
  obtain ⟨p, hp, rfl⟩ := List.mem_map.1 hcompleted
  have hdeclared := h.declared p hp
  rw [← names_entriesIn, ← h.entries] at hdeclared
  obtain ⟨entry, hentry⟩ :=
    Option.ne_none_iff_exists'.1 (mt get?_eq_none_iff.1 (not_not.2 hdeclared))
  obtain ⟨hstate, hexpr⟩ := h.of_get? hentry
  exact ⟨entry, hentry, hstate.trans (stateIn_eq_complete_iff.2 ⟨e, hn⟩), hexpr.trans hn⟩

/-- A new registry holds nothing. -/
theorem nil (h : r.entries = []) : Recorded [] r := ⟨h, .nil, .nil, by simp⟩

/-- A registry that has the same entries is recorded alike. -/
theorem congr (h : Recorded log r) {r' : Registry} (heq : r'.entries = r.entries) :
    Recorded log r' :=
  ⟨heq.trans h.entries, h.distinct, h.once, h.declared⟩

/-- What one call does to the registry it does to the record. -/
theorem concat (h : Recorded log r) (hstep : CallStep r m) : Recorded (log ++ [m]) m.after := by
  have hnames : r.entries.map (·.name) = (log.filterMap Moment.declared?).map (·.name) := by
    rw [h.entries, names_entriesIn]
  cases hstep with
  | same hdeclared hcompleted hentries =>
    have hnone : [m].filterMap Moment.declared? = [] := by simp [hdeclared]
    have hnone' : [m].filterMap Moment.completed? = [] := by simp [hcompleted]
    refine ⟨?_, ?_, ?_, ?_⟩
    · rw [hentries, h.entries, entriesIn, entriesIn]
      simp only [List.filterMap_append, hnone, List.append_nil, stateIn_concat hcompleted,
        exprIn_concat hcompleted]
    all_goals simp only [List.filterMap_append, hnone, hnone', List.append_nil]
    · exact h.distinct
    · exact h.once
    · exact h.declared
  | @declare entry hdeclared hcompleted hfresh hpending hnone hentries =>
    have hone : [m].filterMap Moment.declared? = [entry] := by simp [hdeclared]
    have hnone' : [m].filterMap Moment.completed? = [] := by simp [hcompleted]
    have hexpr : exprIn log entry.name = none := by
      refine exprIn_eq_none_iff.2 fun hmem => ?_
      obtain ⟨p, hp, hname⟩ := List.mem_map.1 hmem
      exact hfresh (hnames ▸ hname ▸ h.declared p hp)
    refine ⟨?_, ?_, ?_, ?_⟩
    · rw [hentries, h.entries, entriesIn, entriesIn]
      simp only [List.filterMap_append, hone, List.map_append, List.map_cons, List.map_nil,
        stateIn_concat hcompleted, exprIn_concat hcompleted, hexpr, stateIn_eq_pending_iff.2 hexpr,
        ← hpending, ← hnone]
    all_goals simp only [List.filterMap_append, hone, hnone', List.append_nil, List.map_append]
    · refine List.nodup_append.2 ⟨h.distinct, by simp, ?_⟩
      intro a ha b hb heq
      obtain rfl : b = entry.name := by simpa using hb
      exact hfresh (hnames ▸ heq ▸ ha)
    · exact h.once
    · exact fun p hp => List.mem_append_left _ (h.declared p hp)
  | @complete name e entry hdeclared hcompleted hget hpending hentries =>
    have hnone : [m].filterMap Moment.declared? = [] := by simp [hdeclared]
    have hone : [m].filterMap Moment.completed? = [(name, e)] := by simp [hcompleted]
    have hexpr : exprIn log name = none :=
      stateIn_eq_pending_iff.1 ((h.of_get? hget).1.symm.trans hpending)
    refine ⟨?_, ?_, ?_, ?_⟩
    · rw [hentries, h.entries, entriesIn, entriesIn, List.filterMap_append, hnone, List.append_nil,
        List.map_map]
      refine List.map_congr_left fun declared _ => ?_
      simp only [Function.comp_apply, stateIn, exprIn_concat_of_completed hcompleted hexpr,
        beq_iff_eq]
      split <;> rfl
    all_goals simp only [List.filterMap_append, hone, hnone, List.append_nil, List.map_append]
    · exact h.distinct
    · refine List.nodup_append.2 ⟨h.once, by simp, ?_⟩
      intro a ha b hb heq
      obtain rfl : b = name := by simpa using hb
      exact exprIn_eq_none_iff.1 hexpr (heq ▸ ha)
    · intro p hp
      rcases List.mem_append.1 hp with hp | hp
      · exact h.declared p hp
      · obtain rfl := List.mem_singleton.1 hp
        rw [← hnames]
        have hname : entry.name = name := by simpa using List.find?_some hget
        exact hname ▸ List.mem_map_of_mem (List.mem_of_find?_eq_some hget)

end Recorded

end Logs

/-- Entries with the names of others at the same places, which keep what is known of them. -/
theorem CallStep.continues {log : List Moment} {m : Moment} {r : Registry} (h : CallStep r m)
    (hr : Recorded log r) : r.Continues m.after := by
  intro i entry hi
  cases h with
  | same hdeclared hcompleted hentries =>
    rw [hentries]
    exact ⟨entry, hi, rfl, rfl, rfl, id, fun e he => he⟩
  | declare hdeclared hcompleted hfresh hpending hexpr hentries =>
    rw [hentries]
    have hlt := (List.getElem?_eq_some_iff.1 hi).1
    exact ⟨entry, by rw [List.getElem?_append_left hlt, hi], rfl, rfl, rfl, id, fun e he => he⟩
  | @complete name e pending hdeclared hcompleted hget hpending hentries =>
    rw [hentries, List.getElem?_map, hi]
    refine ⟨_, rfl, ?_⟩
    dsimp only
    split
    · rename_i hname
      -- The entry is pending, so that it has no expression to lose.
      have hnone : entry.expr = none := by
        rw [(hr.of_mem (List.mem_of_getElem? hi)).2, beq_iff_eq.1 hname]
        exact stateIn_eq_pending_iff.1 ((hr.of_get? hget).1.symm.trans hpending)
      exact ⟨rfl, rfl, rfl, fun _ => rfl, fun x hx => by rw [hnone] at hx; cases hx⟩
    · exact ⟨rfl, rfl, rfl, id, fun e he => he⟩

/-- A registry continues itself. -/
theorem Registry.continues_refl (r : Registry) : r.Continues r :=
  fun _ entry hi => ⟨entry, hi, rfl, rfl, rfl, id, fun _ he => he⟩

/-- What continues a registry that continues another one continues that one, too. -/
theorem Registry.Continues.trans {r r' r'' : Registry} (h : r.Continues r')
    (h' : r'.Continues r'') : r.Continues r'' := by
  intro i entry hi
  obtain ⟨later, hlater, hname, hrecursive, hlocation, hstate, hexpr⟩ := h i entry hi
  obtain ⟨last, hlast, hname', hrecursive', hlocation', hstate', hexpr'⟩ := h' i later hlater
  exact ⟨last, hlast, hname'.trans hname, hrecursive'.trans hrecursive,
    hlocation'.trans hlocation, fun h => hstate' (hstate h), fun e he => hexpr' e (hexpr e he)⟩

/-- What a client does to a registry: it moves to other places and calls. -/
inductive Trace (start : Registry) : List Moment → Registry → Prop
  | nil : Trace start [] start
  | move {log r} (site) (h : Trace start log r) : Trace start log (r.evaluatedAt site)
  | call {log r} (c) (h : Trace start log r) : Trace start (log ++ [r.call c]) (r.call c).after

/-- What is done after something else is done to the registry that this has left. -/
theorem Trace.trans {start r r' : Registry} {log more : List Moment} (h : Trace start log r)
    (h' : Trace r more r') : Trace start (log ++ more) r' := by
  induction h' with
  | nil => simpa using h
  | move site _ ih => exact ih.move site
  | call c _ ih =>
    rw [← List.append_assoc]
    exact ih.call c

/-- Scripts move and call. -/
theorem Script.trace (script : Script) (r : Registry) :
    Trace r (script.run r).log (script.run r).registry := by
  induction script generalizing r with
  | skip => exact .nil
  | call c => exact Trace.nil.call c
  | fail fault => exact .nil
  | both first second ihfirst ihsecond =>
    rw [Script.run]
    dsimp only
    split
    · exact ihfirst r
    · exact (ihfirst r).trans (ihsecond _)
  | block site body ih => exact (((Trace.nil).move site).trans (ih _)).move r.site
  | attempt body ih => exact ih r

/-- Whatever a client does, and also if it fails in the middle of a block, the registry is left at
the place at which it was. -/
theorem Script.site_run (script : Script) (r : Registry) :
    (script.run r).registry.site = r.site := by
  induction script generalizing r with
  | skip | fail => rfl
  | call c => exact call_site r c
  | both first second ihfirst ihsecond =>
    rw [Script.run]
    dsimp only
    split
    · exact ihfirst r
    · exact (ihsecond _).trans (ihfirst r)
  | block site body ih => rfl
  | attempt body ih => exact ih r

section LifeCycles

variable {start r : Registry} {log : List Moment}

/-- A registry that was new holds what its log records. -/
theorem Trace.recorded (h : Trace start log r) (hstart : start.entries = []) : Recorded log r := by
  induction h with
  | nil => exact .nil hstart
  | move site _ ih => exact ih.congr rfl
  | call c _ ih => exact ih.concat (callStep _ c)

/-- What holds of all members of a list, each with those before it, and of one more with all of
them, holds of the list with that one behind it. -/
theorem forall_getElem?_concat {α : Type} {P : List α → α → Prop} {l : List α} {x : α}
    (h : ∀ (i : Nat) (a : α), l[i]? = some a → P (l.take i) a) (hx : P l x) :
    ∀ (i : Nat) (a : α), (l ++ [x])[i]? = some a → P ((l ++ [x]).take i) a := by
  intro i a hi
  rcases Nat.lt_trichotomy i l.length with hlt | rfl | hgt
  · rw [List.getElem?_append_left hlt] at hi
    rw [List.take_append_of_le_length (Nat.le_of_lt hlt)]
    exact h i a hi
  · rw [List.getElem?_concat_length, Option.some.injEq] at hi
    subst hi
    rwa [List.take_left]
  · rw [List.getElem?_eq_none (by simp; omega)] at hi
    cases hi

/-- A name that is looked up as that of a complete type has an expression in the log. -/
theorem exists_exprIn_of_lookup (hr : Recorded log r) {name : String} {location : Option Location}
    (h : (r.call (.lookup name location)).answer = .ok (.expr (.name name))) :
    ∃ e, exprIn log name = some e := by
  cases hlookup : r.lookup name location with
  | error fault =>
    have hrun : r.outcome (.lookup name location) = .error fault := by
      rw [Registry.outcome, hlookup]
      rfl
    rw [call_of_fault hrun] at h
    cases h
  | ok x =>
    have hrun : r.outcome (.lookup name location) = .ok (.expr x, r) := by
      rw [Registry.outcome, hlookup]
      rfl
    rw [call_of_outcome hrun] at h
    cases h
    rcases lookup_cases hlookup with ⟨entry, hget, ⟨hcomplete, -⟩ | ⟨-, -, heq⟩⟩ |
      ⟨-, ⟨b, -, ⟨-, heq⟩ | ⟨-, heq⟩⟩ | ⟨-, -, heq⟩⟩
    · have hstate : entry.state = .complete := by simpa [Entry.isComplete] using hcomplete
      exact stateIn_eq_complete_iff.1 ((hr.of_get? hget).1.symm.trans hstate)
    all_goals cases heq

/-- A name with an expression in the log is resolved to it. -/
theorem answer_resolve (hr : Recorded log r) {name : String} {e : TypeExpr}
    (h : exprIn log name = some e) :
    (r.call (.resolve (.name name))).answer = .ok (.expr e) := by
  obtain ⟨entry, hget, hstate, hexpr⟩ := hr.exists_get? h
  have hresolve : r.resolve (.name name) = .ok e := by
    simp only [Registry.resolve, hget, hstate, hexpr]
  have hrun : r.outcome (.resolve (.name name)) = .ok (.expr e, r) := by
    rw [Registry.outcome, hresolve]
    rfl
  rw [call_of_outcome hrun]

/-- Names that were looked up as those of complete types have expressions in the log. -/
theorem Trace.exists_exprIn (h : Trace start log r) (hstart : start.entries = []) :
    ∀ m ∈ log, ∀ name location, m.call = .lookup name location →
      m.answer = .ok (.expr (.name name)) → ∃ e, exprIn log name = some e := by
  induction h with
  | nil => simp
  | move site _ ih => exact ih
  | @call log r c h ih =>
    intro m hm name location hcall hanswer
    rcases List.mem_append.1 hm with hm | hm
    · obtain ⟨e, he⟩ := ih m hm name location hcall hanswer
      exact ⟨e, exprIn_append he _⟩
    · obtain rfl := List.mem_singleton.1 hm
      obtain rfl : c = .lookup name location := by simpa using hcall
      obtain ⟨e, he⟩ := exists_exprIn_of_lookup (h.recorded hstart) hanswer
      exact ⟨e, exprIn_append he _⟩

/-- Over a run from a new registry all promises are kept. -/
theorem Trace.lifeCycle (h : Trace start log r) (hstart : start.entries = []) :
    LifeCycle log r := by
  induction h with
  | nil =>
    constructor <;> simp [hstart, entriesIn]
  | move site _ ih => exact { ih with kept := ih.kept, last_entries := ih.last_entries }
  | @call log r c h ih =>
    have hr := h.recorded hstart
    have hstep := callStep r c
    have hr' := hr.concat hstep
    have hcontinues := hstep.continues hr
    have hresolved := h.exists_exprIn hstart
    have hnames : ((r.call c).after.entries.map (·.name)).Nodup := by
      rw [hr'.entries, names_entriesIn]
      exact hr'.distinct
    constructor
    case distinct =>
      exact List.forall_mem_append.2 ⟨ih.distinct, by simpa using hnames⟩
    case complete =>
      refine List.forall_mem_append.2 ⟨ih.complete, ?_⟩
      simp only [List.mem_singleton, forall_eq]
      intro entry hentry
      obtain ⟨hstate, hexpr⟩ := hr'.of_mem hentry
      rw [hstate, hexpr]
      exact stateIn_eq_complete_iff
    case kept =>
      refine List.forall_mem_append.2 ⟨fun m hm => ?_, ?_⟩
      · exact ⟨(ih.kept m hm).1, (ih.kept m hm).2.trans hcontinues⟩
      · simpa using ⟨hcontinues, Registry.continues_refl _⟩
    case kept_on =>
      refine List.pairwise_append.2 ⟨ih.kept_on, List.pairwise_singleton _ _, fun m hm m' hm' => ?_⟩
      obtain rfl := List.mem_singleton.1 hm'
      rw [call_before]
      exact (ih.kept m hm).2
    case once => exact hr'.once
    case failed =>
      refine List.forall_mem_append.2 ⟨ih.failed, ?_⟩
      simpa using fun hfault => after_of_fault hfault
    case asked =>
      refine List.forall_mem_append.2 ⟨ih.asked, ?_⟩
      simpa using fun hquery => after_of_query hquery
    case site => exact List.forall_mem_append.2 ⟨ih.site, by simpa using call_site r c⟩
    case resolved =>
      refine List.pairwise_append.2 ⟨?_, List.pairwise_singleton _ _, fun m hm m' hm' => ?_⟩
      · refine ih.resolved.imp fun hpair name location hcall hanswer hresolve => ?_
        obtain ⟨e, he, hanswer'⟩ := hpair name location hcall hanswer hresolve
        exact ⟨e, exprIn_append he _, hanswer'⟩
      · intro name location hcall hanswer hresolve
        obtain rfl := List.mem_singleton.1 hm'
        obtain rfl : c = .resolve (.name name) := by simpa using hresolve
        obtain ⟨e, he⟩ := hresolved m hm name location hcall hanswer
        exact ⟨e, exprIn_append he _, answer_resolve hr he⟩
    case entries =>
      refine forall_getElem?_concat (P := fun sofar m => m.before.entries = entriesIn sofar)
        ih.entries ?_
      rw [call_before]
      exact hr.entries
    case definitions =>
      refine forall_getElem?_concat (P := fun (sofar : List Moment) (m : Moment) =>
        m.call = .definitions →
          m.answer = .ok (.entries ((entriesIn sofar).filter (·.isComplete)))) ih.definitions ?_
      intro hcall
      obtain rfl : c = .definitions := by simpa using hcall
      rw [← hr.entries]
      rfl
    case last_entries => exact hr'.entries

/-- Whatever a client does with a new registry, in nested blocks and with failing calls: the names
of the entries differ, entries stay where they are and change only when they become complete, once;
calls that fail, and queries, change nothing; a name that was looked up as that of a complete type
is resolved to the expression by which it was completed; the definitions are the complete entries in
the order of their declarations. And whatever a client does with any registry, blocks that are left
by a fault among it, the registry is afterwards at the place at which it was. -/
theorem registry_lifeCycle (bindings : List Binding) (reserved : List String) (script : Script) :
    LifeCycle (script.run (Registry.ofModule bindings reserved)).log
        (script.run (Registry.ofModule bindings reserved)).registry ∧
      ∀ (r : Registry) (part : Script), (part.run r).registry.site = r.site :=
  ⟨(script.trace _).lifeCycle rfl, fun r part => part.site_run r⟩

/-- A name that is declared twice in a block leaves the block and can still be completed. -/
example :
    let again := Script.both (.call (.declare "A" false none)) (.call (.declare "A" true none))
    let script := Script.both (.attempt (.block (some ⟨1, 1, none⟩) (.both again .skip)))
      (.call (.complete "A" (.primitive "Int")))
    ((script.run (Registry.ofModule [] [])).log.map (·.fault?.isSome)) = [false, true, false] :=
  rfl

end LifeCycles

end Typeward
