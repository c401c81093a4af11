import Typeward.Proofs.LoweringRuns
import Typeward.Proofs.Nodes

/-!
# Runs that declare records

Lowering comes to the classes of a module in order. A class that is found to be a record is declared
with the fields of its bases, as far as these are records themselves, and those of its own suite;
nothing else that lowering does touches the records that are known.
-/

namespace Typeward

/-- A class that is declared as a record, with the number of its declaration. -/
structure RecordClass where
  head : ClassHead
  body : List Stmt
  number : Nat

/-- The names of the fields that a suite declares, in order. -/
def Stmt.fieldNames (body : List Stmt) : List String :=
  body.filterMap fun
    | .simple _ (.annotated (.name _ id) ..) => some id
    | _ => none

/-- The record that a statement declares, if it is a class that carries a number. -/
def Stmt.recordClass? : Stmt → Option RecordClass
  | .classDef _ head body => head.decl.map (⟨head, body, ·⟩)
  | _ => none

/-- The records that some statements declare, in order. -/
def Stmt.recordClasses (ts : List Stmt) : List RecordClass := ts.filterMap recordClass?

/-- The fields of a declared record. -/
def Declaration.fields : Declaration → List (RecordField StaticType)
  | .type ⟨_, .record fields .., _, _, _⟩ => fields
  | _ => []

/-- The fields of the record that is declared under a number. -/
def fieldsOf (ds : List Declaration) (number : Nat) : List (RecordField StaticType) :=
  (ds[number]?).elim [] Declaration.fields

/-- The fields that an expression in the header of a class stands for, by the records above. -/
def Scope.baseFields (c : Scope) (records : List (String × List (RecordField StaticType)))
    (base : Expr) : List (RecordField StaticType) :=
  if c.canonical base == some "TypedDict" then []
  else (base.dotted?.bind fun name => records.lookup name).getD []

/-- What is found is what each member comes to, if it comes to anything. -/
theorem flatten_filterMap {α β : Type} (f : α → Option (List β)) (l : List α) :
    (l.filterMap f).flatten = l.flatMap fun a => (f a).getD [] := by
  induction l with
  | nil => rfl
  | cons a rest ih =>
    rw [List.flatMap_cons, ← ih, List.filterMap_cons]
    cases f a with
    | none => rfl
    | some found => rfl

/-- A class inherits the fields of its bases, base after base. -/
theorem inheritedFields_eq {c : LowerContext}
    {records : List (String × List (RecordField StaticType))} {bases : List Expr}
    {inherited : List (RecordField StaticType)}
    (h : inheritedFields c records bases = some inherited) :
    inherited = bases.flatMap (c.scope.baseFields records) := by
  unfold inheritedFields at h
  dsimp only at h
  split at h
  · cases h
  · obtain rfl := Option.some.inj h
    rw [flatten_filterMap]
    refine congrArg bases.flatMap (funext fun base => ?_)
    unfold Scope.baseFields
    split
    · rfl
    · rfl

/-- A stretch of lowering that declares no record. -/
structure LowerState.Quiet (s s' : LowerState) : Prop where
  declarations : s.declarations <+: s'.declarations
  records : s'.records = s.records

namespace LowerState

variable {s s' s'' : LowerState}

/-- Nothing declares no record. -/
theorem Quiet.refl (s : LowerState) : s.Quiet s := ⟨List.prefix_rfl, rfl⟩

/-- Two stretches that declare no record are one. -/
theorem Quiet.trans (h : s.Quiet s') (h' : s'.Quiet s'') : s.Quiet s'' :=
  ⟨h.declarations.trans h'.declarations, h'.records.trans h.records⟩

/-- A class is declared as a record: its fields are those that its bases have come to, and behind
them those of its suite. -/
structure DeclaresRecord (c : Scope) (k : RecordClass) (start next : LowerState) : Prop where
  number : k.number = start.declarations.length
  declared : ∃ d, next.declarations = start.declarations ++ [d]
  records : next.records = (k.head.name, fieldsOf next.declarations k.number) :: start.records
  fields : ∃ own : List (RecordField StaticType), own.map (·.name) = Stmt.fieldNames k.body ∧
    fieldsOf next.declarations k.number =
      (k.head.bases.flatMap (c.baseFields start.records) ++ own).foldl putField []
  /-- The declaration is one of a type, under the name of the class. -/
  type : ∃ d place, next.declarations[k.number]? = some (.type d) ∧ d.name = k.head.name ∧
    d.type = .record (fieldsOf next.declarations k.number) (some k.head.name) place

/-- Lowering declares some records, in order. -/
inductive Collects (c : Scope) : LowerState → List RecordClass → LowerState → Prop
  | quiet {start final} (h : Quiet start final) : Collects c start [] final
  | record {start before next final k ks} (above : Quiet start before)
      (here : DeclaresRecord c k before next) (behind : Collects c next ks final) :
      Collects c start (k :: ks) final

namespace Collects

variable {c : Scope} {ks ks' : List RecordClass}

/-- What is declared behind a stretch without records is declared with it. -/
theorem after_quiet (h : s.Quiet s') (h' : Collects c s' ks s'') : Collects c s ks s'' := by
  cases h' with
  | quiet h' => exact .quiet (h.trans h')
  | record above here behind => exact .record (h.trans above) here behind

/-- What is declared first and what is declared then. -/
theorem append (h : Collects c s ks s') (h' : Collects c s' ks' s'') :
    Collects c s (ks ++ ks') s'' := by
  induction h with
  | quiet h => exact h'.after_quiet h
  | record above here behind ih => exact .record above here (ih h')

/-- A stretch without records at the end changes nothing. -/
theorem before_quiet (h : Collects c s ks s') (h' : s'.Quiet s'') : Collects c s ks s'' := by
  simpa using h.append (.quiet h')

/-- The declarations are there at the end. -/
theorem declarations (h : Collects c s ks s') : s.declarations <+: s'.declarations := by
  induction h with
  | quiet h => exact h.declarations
  | record above here behind ih =>
    obtain ⟨d, hd⟩ := here.declared
    exact (above.declarations.trans ⟨[d], hd.symm⟩).trans ih

end Collects

end LowerState

namespace LowerState.Collects

variable {c : Scope} {s s' : LowerState} {ks above behind : List RecordClass} {k : RecordClass}
  {ds : List Declaration}

/-- The fields of a record that is declared stay its fields. -/
theorem fieldsOf_eq (h : ds <+: s'.declarations) {n : Nat} (hn : n < ds.length) :
    fieldsOf s'.declarations n = fieldsOf ds n := by
  obtain ⟨more, heq⟩ := h
  rw [fieldsOf, fieldsOf, ← heq, List.getElem?_append_left hn]

/-- The number of a record that is declared is one of the numbers that are added. -/
theorem number_mem (h : Collects c s ks s') (hk : k ∈ ks) :
    s.declarations.length ≤ k.number ∧ k.number < s'.declarations.length := by
  induction h with
  | quiet h => exact absurd hk List.not_mem_nil
  | @record start before next final first ks above here behind ih =>
    obtain ⟨d, hd⟩ := here.declared
    have hbefore := above.declarations.length_le
    have hnext := congrArg List.length hd
    rw [List.length_append, List.length_singleton] at hnext
    have hbehind := behind.declarations.length_le
    rcases List.mem_cons.1 hk with rfl | hk
    · rw [here.number]
      omega
    · have hrest := ih hk
      omega

/-- Records have their numbers in order. -/
theorem pairwise_number (h : Collects c s ks s') : ks.Pairwise (·.number < ·.number) := by
  induction h with
  | quiet h => exact .nil
  | @record start before next final first ks above here behind ih =>
    refine .cons (fun k hk => ?_) ih
    obtain ⟨d, hd⟩ := here.declared
    have hnext := congrArg List.length hd
    rw [List.length_append, List.length_singleton] at hnext
    have hrest := (behind.number_mem hk).1
    rw [here.number]
    omega

/-- All records are found by their names, the latest first. -/
theorem records_eq (h : Collects c s ks s') :
    s'.records = (ks.map fun k => (k.head.name, fieldsOf s'.declarations k.number)).reverse ++
      s.records := by
  induction h with
  | quiet h => exact h.records
  | @record start before next final first ks above here behind ih =>
    obtain ⟨d, hd⟩ := here.declared
    have hnext := congrArg List.length hd
    rw [List.length_append, List.length_singleton] at hnext
    have hlt : first.number < next.declarations.length := by
      rw [here.number]
      omega
    rw [ih, here.records, above.records, List.map_cons, List.reverse_cons, List.append_assoc,
      fieldsOf_eq behind.declarations hlt]
    rfl

/-- A record is declared behind those above it. -/
theorem exists_declaresRecord (h : Collects c s (above ++ k :: behind) s') :
    ∃ before next, Collects c s above before ∧ DeclaresRecord c k before next ∧
      Collects c next behind s' := by
  induction above generalizing s with
  | nil =>
    cases h with
    | record first here rest => exact ⟨_, _, .quiet first, here, rest⟩
  | cons k' above ih =>
    cases h with
    | record first here rest =>
      obtain ⟨before, next, habove, hk, hbehind⟩ := ih rest
      exact ⟨before, next, .record first here habove, hk, hbehind⟩

end LowerState.Collects

namespace Lower

open Typeward.Action LowerState

variable {α β : Type}

/-- A lowering declares no record. -/
def Calm (x : Lower α) : Prop := ∀ ⦃s a s'⦄, x s = .ok (a, s') → s.Quiet s'

/-- A lowering that leaves everything as it is declares no record. -/
theorem calm_of_eq {x : Lower α} (h : ∀ ⦃s a s'⦄, x s = .ok (a, s') → s' = s) : Calm x := by
  intro s a s' hx
  rw [h hx]
  exact .refl s

/-- A lowering that finds nothing declares no record. -/
theorem calm_pure (a : α) : Calm (pure a) :=
  calm_of_eq fun _ _ _ h => (pure_eq_ok.1 h).2.symm

/-- One lowering after another declares no record if both declare none. -/
theorem Calm.bind {x : Lower α} {f : α → Lower β} (hx : Calm x) (hf : ∀ a, Calm (f a)) :
    Calm (x >>= f) := by
  intro s b s' h
  obtain ⟨a, s₁, ha, hb⟩ := bind_eq_ok.1 h
  exact (hx ha).trans (hf a hb)

/-- Lowering the members of a list declares no record if lowering each declares none. -/
theorem calm_mapM {f : α → Lower β} {l : List α} (hf : ∀ a ∈ l, Calm (f a)) : Calm (l.mapM f) := by
  induction l with
  | nil => exact calm_pure []
  | cons a rest ih =>
    rw [List.mapM_cons]
    refine (hf a List.mem_cons_self).bind fun b => ?_
    exact (ih fun a ha => hf a (List.mem_cons_of_mem _ ha)).bind fun bs => calm_pure _

/-- Reading a hint declares nothing. -/
theorem calm_lowerHint (c : LowerContext) (hint : Expr) : Calm (lowerHint c hint) :=
  calm_of_eq fun _ _ _ h => (lowerHint_eq_ok.1 h).2.symm

/-- A declaration is no record by itself. -/
theorem calm_declare (d : Declaration) : Calm (declare d) := by
  intro s n s' h
  obtain ⟨-, rfl⟩ := declare_eq_ok.1 h
  exact ⟨List.prefix_append _ _, rfl⟩

/-- A fault answers nothing. -/
theorem calm_lowerFault (c : LowerContext) (e : Expr) (construct : String) :
    Calm (lowerFault c e construct : Lower α) := by
  intro s a s' h
  simp [lowerFault, HintContext.unsupported] at h

/-- A computation without a state declares nothing. -/
theorem calm_ofExcept (x : Except Failure α) : Calm (fun s => do return (← x, s) : Lower α) := by
  refine calm_of_eq fun s a s' h => ?_
  obtain ⟨b, -, hb⟩ := Except.bind_eq_ok.1 h
  simp only [pure, Except.pure, Except.ok.injEq, Prod.mk.injEq] at hb
  exact hb.2.symm

/-- Lowering an expression declares casts only. -/
theorem calm_lowerExpr (c : LowerContext) (e : Expr) : Calm (lowerExpr c e) := by
  fun_induction lowerExpr c e with
  | case1 pos func type value decl h ih =>
    refine (calm_lowerHint c type).bind fun lowered => ?_
    refine (calm_ofExcept _).bind fun label => ?_
    refine (calm_declare _).bind fun number => ?_
    exact ih.bind fun value => calm_pure _
  | case2 e h hne => exact calm_lowerFault c _ _
  | case3 e h ih => exact (calm_mapM fun child _ =>
    ih child.1 (Expr.sizeOf_lt_of_mem_children child.2)).bind fun _ => calm_pure _

/-- Lowering all expressions that a value holds declares casts only. -/
theorem calm_lowerIn [Slots α] (c : LowerContext) (a : α) : Calm (lowerIn c a) :=
  (calm_mapM fun e _ => calm_lowerExpr c e).bind fun _ => calm_pure _

/-- Lowering initial values declares casts only. -/
theorem calm_lowerInitials (c : LowerContext) (params : Parameters Expr) :
    Calm (lowerInitials c params) := by
  refine (calm_lowerIn c _).bind fun positionalOnly => ?_
  refine (calm_lowerIn c _).bind fun positional => ?_
  exact (calm_lowerIn c _).bind fun keywordOnly => calm_pure _

/-- Reading the hints of parameters declares nothing. -/
theorem calm_lowerParameters (c : LowerContext) (params : Parameters Expr) :
    Calm (lowerParameters c params) :=
  calm_of_eq fun _ _ _ h => state_of_lowerParameters h

/-- A simple statement declares no record. -/
theorem calm_lowerSimple (c : LowerContext) (pos : Pos) (t : Simple) :
    Calm (lowerSimple c pos t) := by
  unfold lowerSimple
  split
  · split
    · refine (calm_lowerHint c _).bind fun type => ?_
      exact (calm_declare _).bind fun number => calm_pure _
    · exact calm_lowerIn c _
  · split
    · split
      · refine (calm_lowerHint c _).bind fun lowered => ?_
        exact (calm_declare _).bind fun number => calm_pure _
      · exact calm_lowerFault c _ _
    · exact calm_lowerIn c _
  · exact calm_lowerIn c t

/-- The fields of a suite are put, one after the other, into those that are there. -/
theorem lowerFields_eq_ok {c : LowerContext} {total : Bool}
    {fields out : List (RecordField StaticType)} {body : List Stmt} {s s' : LowerState}
    (h : lowerFields c total fields body s = .ok (out, s')) :
    ∃ own : List (RecordField StaticType), own.map (·.name) = Stmt.fieldNames body ∧
      out = own.foldl putField fields := by
  fun_induction lowerFields c total fields body generalizing s with
  | case1 fields =>
    obtain ⟨rfl, -⟩ := pure_eq_ok.1 h
    exact ⟨[], rfl, rfl⟩
  | case2 fields pos p id hint value bare decl rest ih =>
    obtain ⟨f, s₁, hf, h⟩ := bind_eq_ok.1 h
    obtain ⟨type, s₂, -, hf⟩ := bind_eq_ok.1 hf
    obtain ⟨rfl, -⟩ := pure_eq_ok.1 hf
    obtain ⟨own, hown, rfl⟩ := ih _ h
    refine ⟨_ :: own, ?_, rfl⟩
    rw [List.map_cons, hown]
    rfl
  | case3 fields t rest hne ih =>
    obtain ⟨own, hown, rfl⟩ := ih h
    refine ⟨own, ?_, rfl⟩
    rw [hown, Stmt.fieldNames, Stmt.fieldNames, List.filterMap_cons]
    split
    · rfl
    · rename_i id heq
      split at heq
      · exact absurd rfl (hne _ _ _ _ _ _ _)
      · cases heq

/-- A class is declared with the fields that it inherits and those of its suite. -/
theorem declaresRecord_of_lowerRecord {c : LowerContext} {pos : Pos} {head : ClassHead}
    {body : List Stmt} {inherited : List (RecordField StaticType)} {s s' : LowerState} {n : Nat}
    (h : lowerRecord c pos head body inherited s = .ok (n, s'))
    (hinherited : inheritedFields c s.records head.bases = some inherited) :
    DeclaresRecord c.scope ⟨{ head with decl := some n }, body, n⟩ s s' := by
  obtain ⟨fields, hfields, hdeclare⟩ := lowerRecord_eq_ok.1 h
  obtain ⟨own, hown, rfl⟩ := lowerFields_eq_ok hfields
  obtain ⟨rfl, rfl⟩ := declare_eq_ok.1 hdeclare
  refine ⟨rfl, ⟨_, rfl⟩, ?_, ⟨own, hown, ?_⟩,
    ⟨_, c.location pos, List.getElem?_concat_length, rfl, ?_⟩⟩
  · simp [fieldsOf, Declaration.fields]
  · rw [List.foldl_append, ← inheritedFields_eq hinherited]
    simp [fieldsOf, Declaration.fields]
  · simp [fieldsOf, Declaration.fields]

mutual

/-- Lowering a statement declares the records that come to stand in it. -/
theorem collects_lowerStmt {c : LowerContext} : {t t' : Stmt} → {s s' : LowerState} →
    lowerStmt c t s = .ok (t', s') → Stmt.recordClasses t.nodes = [] →
    Collects c.scope s (Stmt.recordClasses t'.nodes) s'
  | .simple pos t, t', s, s', h, hnone => by
    obtain ⟨t', ht, rfl⟩ := lowerStmt_simple_eq_ok.1 h
    exact .quiet (calm_lowerSimple c pos t ht)
  | .function pos head body, t', s, s', h, hnone => by
    obtain ⟨decorators, s₁, hdecorators, params, s₂, hparams, typed, s₃, htyped, number, s₄,
      hnumber, body', hbody, rfl⟩ := lowerStmt_function_eq_ok.1 h
    have hquiet : s.Quiet s₄ :=
      (((calm_lowerIn c _ hdecorators).trans (calm_lowerInitials c _ hparams)).trans
        (calm_lowerParameters c _ htyped)).trans (calm_declare _ hnumber)
    exact (collects_lowerAll (c := c.inside) hbody hnone).after_quiet hquiet
  | .classDef pos head body, t', s, s', h, hnone => by
    obtain ⟨hhead, hbody_none⟩ : Stmt.recordClass? (.classDef pos head body) = none ∧
        Stmt.recordClasses (Stmt.allNodes body) = [] := by
      simpa [Stmt.nodes, Stmt.recordClasses] using hnone
    obtain ⟨inherited, hrecord, number, hnumber, rfl⟩ | ⟨-, bases, s₁, hbases, keywords, s₂,
      hkeywords, body', s₃, hbody, decorators, hdecorators, rfl⟩ := lowerStmt_classDef_eq_ok.1 h
    · have hhere := declaresRecord_of_lowerRecord hnumber hrecord
      have hnodes : Stmt.recordClasses
          (Stmt.nodes (.classDef pos { head with decl := some number } body)) =
          [⟨{ head with decl := some number }, body, number⟩] := by
        rw [Stmt.nodes, Stmt.recordClasses, List.filterMap_cons]
        exact congrArg (_ :: ·) hbody_none
      rw [hnodes]
      exact .record (.refl s) hhere (.quiet (.refl _))
    · have hdecl : head.decl = none := by simpa [Stmt.recordClass?] using hhead
      have hnodes : Stmt.recordClasses
          (Stmt.nodes (.classDef pos { head with bases, keywords, decorators } body')) =
          Stmt.recordClasses (Stmt.allNodes body') := by
        rw [Stmt.nodes, Stmt.recordClasses, List.filterMap_cons]
        simp [Stmt.recordClass?, hdecl, Stmt.recordClasses]
      rw [hnodes]
      have hquiet := (calm_lowerIn c.inside _ hbases).trans (calm_lowerIn c.inside _ hkeywords)
      exact ((collects_lowerAll (c := c.inside) hbody hbody_none).after_quiet hquiet).before_quiet
        (calm_lowerIn c.inside _ hdecorators)
  | .branch pos test body orelse, t', s, s', h, hnone => by
    obtain ⟨hbody_none, horelse_none⟩ : Stmt.recordClasses (Stmt.allNodes body) = [] ∧
        Stmt.recordClasses (Stmt.allNodes orelse) = [] := by
      have hboth : Stmt.recordClasses (Stmt.allNodes body ++ Stmt.allNodes orelse) = [] := hnone
      simpa [Stmt.recordClasses] using hboth
    have hnodes (test : Expr) (body orelse : List Stmt) :
        Stmt.recordClasses (Stmt.nodes (.branch pos test body orelse)) =
          Stmt.recordClasses (Stmt.allNodes body) ++ Stmt.recordClasses (Stmt.allNodes orelse) := by
      exact List.filterMap_append
    obtain ⟨-, orelse', horelse, rfl⟩ | ⟨-, test', s₁, htest, body', s₂, hbody, orelse', horelse,
      rfl⟩ := lowerStmt_branch_eq_ok.1 h
    · rw [hnodes, hbody_none]
      exact collects_lowerAll horelse horelse_none
    · rw [hnodes]
      exact ((collects_lowerAll hbody hbody_none).append
        (collects_lowerAll horelse horelse_none)).after_quiet (calm_lowerIn c _ htest)
  | .compound pos clauses, t', s, s', h, hnone => by
    obtain ⟨clauses', hclauses, rfl⟩ := lowerStmt_compound_eq_ok.1 h
    exact collects_lowerClauses hclauses hnone

/-- Lowering statements declares the records that come to stand in them. -/
theorem collects_lowerAll {c : LowerContext} : {ts ts' : List Stmt} → {s s' : LowerState} →
    lowerAll c ts s = .ok (ts', s') → Stmt.recordClasses (Stmt.allNodes ts) = [] →
    Collects c.scope s (Stmt.recordClasses (Stmt.allNodes ts')) s'
  | [], ts', s, s', h, hnone => by
    obtain ⟨rfl, rfl⟩ := lowerAll_nil_eq_ok.1 h
    exact .quiet (.refl s)
  | t :: rest, ts', s, s', h, hnone => by
    obtain ⟨hfirst, hrest_none⟩ : Stmt.recordClasses t.nodes = [] ∧
        Stmt.recordClasses (Stmt.allNodes rest) = [] := by
      simpa [Stmt.allNodes, Stmt.recordClasses] using hnone
    obtain ⟨t', s₁, ht, rest', hrest, rfl⟩ := lowerAll_cons_eq_ok.1 h
    rw [Stmt.allNodes, Stmt.recordClasses, List.filterMap_append]
    exact (collects_lowerStmt ht hfirst).append (collects_lowerAll hrest hrest_none)

/-- Lowering clauses declares the records that come to stand in them. -/
theorem collects_lowerClauses {c : LowerContext} : {clauses clauses' : List (Clause Stmt)} →
    {s s' : LowerState} → lowerClauses c clauses s = .ok (clauses', s') →
    Stmt.recordClasses (Stmt.clauseNodes clauses) = [] →
    Collects c.scope s (Stmt.recordClasses (Stmt.clauseNodes clauses')) s'
  | [], clauses', s, s', h, hnone => by
    obtain ⟨rfl, rfl⟩ := lowerClauses_nil_eq_ok.1 h
    exact .quiet (.refl s)
  | ⟨head, body⟩ :: rest, clauses', s, s', h, hnone => by
    obtain ⟨hfirst, hrest_none⟩ : Stmt.recordClasses (Stmt.allNodes body) = [] ∧
        Stmt.recordClasses (Stmt.clauseNodes rest) = [] := by
      simpa [Stmt.clauseNodes, Stmt.recordClasses] using hnone
    obtain ⟨head', s₁, hhead, body', s₂, hbody, rest', hrest, rfl⟩ := lowerClauses_cons_eq_ok.1 h
    rw [Stmt.clauseNodes, Stmt.recordClasses, List.filterMap_append]
    exact ((collects_lowerAll hbody hfirst).append
      (collects_lowerClauses hrest hrest_none)).after_quiet (calm_lowerIn c _ hhead)

end

end Lower

end Typeward
