import Typeward.Proofs.DeclaredTypes
import Typeward.Proofs.HintFaults

/-!
# What lowering asks for

The hints of a module are the expressions that lowering reads as types: hints of parameters and of
fields, values of aliases, and the arguments of inspections and casts. Every type that a module
declares is one that a hint denotes, or a record of such types. Lowering fails if a hint denotes
nothing, if a cast or an inspection has other arguments than it takes, or if the source of the value
that is cast cannot be shown.
-/

namespace Typeward

open Source Slots

/-- What holds everywhere in an expression holds of what stands in it. -/
theorem Expr.StandsIn.everywhere {P : Expr → Prop} {n e : Expr} (hn : n.StandsIn e)
    (h : e.Everywhere P) : n.Everywhere P := by
  induction hn with
  | self => exact h
  | part hc _ ih => exact ih (h.of_mem_children hc)

namespace Module

variable {m : Module}

/-- An expression stands somewhere in a module. -/
def Has (m : Module) (n : Expr) : Prop :=
  ∃ t ∈ Stmt.allNodes m, ∃ e ∈ t.expressions, n.StandsIn e

/-- A node of a module, a statement or an expression, starts at a place. -/
def Starts (m : Module) (pos : Pos) : Prop :=
  (∃ t ∈ Stmt.allNodes m, t.pos = pos) ∨ ∃ n : Expr, m.Has n ∧ n.pos = pos

/-- What stands in an expression of a module stands in the module. -/
theorem Has.part {n e : Expr} (h : m.Has e) (hn : n.StandsIn e) : m.Has n := by
  obtain ⟨t, ht, root, hroot, he⟩ := h
  exact ⟨t, ht, root, hroot, hn.trans he⟩

/-- The parts of an expression of a module stand in the module. -/
theorem Has.child {n e : Expr} (h : m.Has e) (hn : n ∈ e.children) : m.Has n :=
  h.part (.part hn .self)

/-- What a statement holds stands in the module of the statement. -/
theorem has_of_mem_held {t : Stmt} {e : Expr} (ht : t ∈ Stmt.allNodes m) (he : e ∈ t.held) :
    m.Has e :=
  ⟨t, ht, e, Stmt.mem_expressions_of_mem_held he, .self⟩

end Module

/-- How a hint of a field is read: whether the field may be absent, unless the hint says so that is
so when not all fields are required, and the hint of its type. -/
def Scope.readField (s : Scope) (total : Bool) (hint : Expr) : Bool × Expr :=
  match hint with
  | .subscript _ base index =>
    match s.canonical base with
    | some "Required" => (false, index)
    | some "NotRequired" => (true, index)
    | _ => (! total, hint)
  | _ => (! total, hint)

/-- The hint of the type of a field stands in the hint of the field. -/
theorem Scope.standsIn_readField {s : Scope} {total : Bool} {hint : Expr} :
    (s.readField total hint).2.StandsIn hint := by
  unfold readField
  split
  · have hindex {pos : Pos} {base index : Expr} : index.StandsIn (.subscript pos base index) :=
      .part (by simp [Expr.children, slots]) .self
    split
    · exact hindex
    · exact hindex
    · exact .self
  · exact .self

/-- A statement asks for the type of a hint. -/
inductive Stmt.Asks (s : Scope) : Stmt → Expr → Prop
  | parameter {pos head body kind name hint} (h : (kind, name, some hint) ∈ head.params.signature) :
      Asks s (.function pos head body) hint
  | field {pos head body p q name hint value bare decl total}
      (h : .simple p (.annotated (.name q name) hint value bare decl) ∈ body) :
      Asks s (.classDef pos head body) (s.readField total hint).2
  | aliasOf {pos p name hint value bare decl} (h : s.canonical hint = some "TypeAlias") :
      Asks s (.simple pos (.annotated (.name p name) hint (some value) bare decl)) value
  | inspection {pos p name q func type number decl} (h : s.canonical func = some "reify") :
      Asks s (.simple pos (.assign [.name p name] (.call q func [type] [] number) decl)) type
  | cast {t root pos func type value decl} (hroot : root ∈ t.expressions)
      (hcall : Expr.StandsIn (.call pos func [type, value] [] decl) root)
      (h : s.canonical func = some "cast") : Asks s t type

/-- A module asks for the type of a hint. -/
def Module.Asks (m : Module) (s : Scope) (hint : Expr) : Prop :=
  ∃ t ∈ Stmt.allNodes m, t.Asks s hint

/-- A statement is one of its nodes. -/
theorem Stmt.mem_nodes_self (t : Stmt) : t ∈ t.nodes := by
  cases t <;> simp [nodes]

/-- The members of a suite are among its nodes. -/
theorem Stmt.mem_allNodes_of_mem {ts : List Stmt} {t : Stmt} (h : t ∈ ts) : t ∈ allNodes ts := by
  induction ts with
  | nil => cases h
  | cons u rest ih =>
    rcases List.mem_cons.1 h with rfl | h
    · exact List.mem_append_left _ (mem_nodes_self t)
    · exact List.mem_append_right _ (ih h)

mutual

/-- The nodes of a statement in a suite of another one are nodes of that one. -/
theorem Stmt.mem_nodes_trans : {s t u : Stmt} → u ∈ t.nodes → t ∈ s.nodes → u ∈ s.nodes
  | .simple pos s, t, u, hu, ht => by
    rwa [List.mem_singleton.1 ht] at hu
  | .function pos head body, t, u, hu, ht => by
    rcases List.mem_cons.1 ht with rfl | ht
    · exact hu
    · exact List.mem_cons_of_mem _ (mem_allNodes_trans hu ht)
  | .classDef pos head body, t, u, hu, ht => by
    rcases List.mem_cons.1 ht with rfl | ht
    · exact hu
    · exact List.mem_cons_of_mem _ (mem_allNodes_trans hu ht)
  | .branch pos test body orelse, t, u, hu, ht => by
    rcases List.mem_cons.1 ht with rfl | ht
    · exact hu
    · refine List.mem_cons_of_mem _ ?_
      rcases List.mem_append.1 ht with ht | ht
      · exact List.mem_append_left _ (mem_allNodes_trans hu ht)
      · exact List.mem_append_right _ (mem_allNodes_trans hu ht)
  | .compound pos clauses, t, u, hu, ht => by
    rcases List.mem_cons.1 ht with rfl | ht
    · exact hu
    · exact List.mem_cons_of_mem _ (mem_clauseNodes_trans hu ht)

/-- The nodes of a node of a suite are nodes of the suite. -/
theorem Stmt.mem_allNodes_trans : {ts : List Stmt} → {t u : Stmt} → u ∈ t.nodes →
    t ∈ allNodes ts → u ∈ allNodes ts
  | s :: rest, t, u, hu, ht => by
    rcases List.mem_append.1 ht with ht | ht
    · exact List.mem_append_left _ (mem_nodes_trans hu ht)
    · exact List.mem_append_right _ (mem_allNodes_trans hu ht)

/-- The nodes of a node of clauses are nodes of the clauses. -/
theorem Stmt.mem_clauseNodes_trans : {clauses : List (Clause Stmt)} → {t u : Stmt} →
    u ∈ t.nodes → t ∈ clauseNodes clauses → u ∈ clauseNodes clauses
  | ⟨head, body⟩ :: rest, t, u, hu, ht => by
    rcases List.mem_append.1 ht with ht | ht
    · exact List.mem_append_left _ (mem_allNodes_trans hu ht)
    · exact List.mem_append_right _ (mem_clauseNodes_trans hu ht)

end

/-- The hints of a module stand in it. -/
theorem Module.Asks.has {m : Module} {s : Scope} {hint : Expr} (h : m.Asks s hint) :
    m.Has hint := by
  obtain ⟨t, ht, hasks⟩ := h
  cases hasks with
  | @parameter pos head body kind name _ h =>
    refine ⟨_, ht, hint, FunctionHead.mem_expressions.2 (.inr (.inl ?_)), .self⟩
    exact List.mem_filterMap.2 ⟨_, h, rfl⟩
  | @field pos head body p q name hint value bare decl total h =>
    have hbody := List.mem_cons_of_mem (.classDef pos head body) (Stmt.mem_allNodes_of_mem h)
    exact ⟨_, Stmt.mem_allNodes_trans hbody ht, hint, by simp [Stmt.expressions, slots],
      Scope.standsIn_readField⟩
  | aliasOf h => exact ⟨_, ht, hint, by simp [Stmt.expressions, slots], .self⟩
  | @inspection pos p name q func _ number decl h =>
    refine ⟨_, ht, .call q func [hint] [] number, by simp [Stmt.expressions, slots], ?_⟩
    exact .part (by simp [Expr.children, slots, listSlots]) .self
  | @cast t root pos func _ value decl hroot hcall h =>
    refine ⟨_, ht, root, hroot, Expr.StandsIn.trans ?_ hcall⟩
    exact .part (by simp [Expr.children, slots, listSlots]) .self

/-- Whether an expression is a call. -/
def Expr.isCall : Expr → Bool
  | .call .. => true
  | _ => false

/-- What calls a special form is a call. -/
theorem isCall_of_callsSpecial {c : LowerContext} {special : String} {e : Expr}
    (h : callsSpecial c special e = true) : e.isCall = true := by
  cases e with
  | call => rfl
  | _ => cases h

/-- A type is one that a hint of a module denotes. -/
def HintContext.Reads (k : HintContext) (m : Module) (t : StaticType) : Prop :=
  ∃ hint, m.Asks k.scope hint ∧ k.denote hint = .ok t

/-- A type is one that a hint of a module denotes, or a record of such types. -/
inductive HintContext.Draws (k : HintContext) (m : Module) : StaticType → Prop
  | hint {t} (h : k.Reads m t) : Draws k m t
  | record {fields name location} (h : ∀ f ∈ fields, k.Reads m f.type) :
      Draws k m (.record fields name location)

/-- Why the lowering of a module fails: a hint denotes nothing, the arguments of a call are not
those that a cast or an inspection takes, or the source of an expression cannot be shown. -/
inductive HintContext.LoweringFailure (k : HintContext) (m : Module) : Failure → Prop
  | hint {hint failure} (hasks : m.Asks k.scope hint) (h : k.denote hint = .error failure) :
      LoweringFailure k m failure
  | call {e construct} (he : m.Has e) (hcall : e.isCall = true) :
      LoweringFailure k m (.fault ⟨.unsupported construct, some (k.location e.pos), none⟩)
  | unprintable (fault) : LoweringFailure k m (.unprintable (.tree fault))

/-- What lowering has found comes from the hints of a module, and types are declared at
statements. -/
structure LowerState.ComesFrom (k : HintContext) (m : Module) (s : LowerState) : Prop where
  types : ∀ d ∈ s.declarations, ∀ t ∈ d.types, k.Draws m t
  places : ∀ t, .type t ∈ s.declarations →
    ∃ u ∈ Stmt.allNodes m, t.location = some (k.location u.pos)
  records : ∀ r ∈ s.records, ∀ f ∈ r.2, k.Reads m f.type

/-- The members of a list into which a field is put are the former ones and the field. -/
theorem mem_putField {fields : List (RecordField StaticType)} {f g : RecordField StaticType}
    (h : g ∈ putField fields f) : g ∈ fields ∨ g = f := by
  unfold putField at h
  split at h
  · obtain ⟨old, hold, rfl⟩ := List.mem_map.1 h
    split
    · exact .inr rfl
    · exact .inl hold
  · rcases List.mem_append.1 h with h | h
    · exact .inl h
    · exact .inr (List.mem_singleton.1 h)

/-- The members of a list into which fields are put are the former ones and the fields. -/
theorem mem_foldl_putField {more fields : List (RecordField StaticType)}
    {g : RecordField StaticType} (h : g ∈ more.foldl putField fields) : g ∈ fields ∨ g ∈ more := by
  induction more generalizing fields with
  | nil => exact .inl h
  | cons f rest ih =>
    rcases ih h with h | h
    · rcases mem_putField h with h | rfl
      · exact .inl h
      · exact .inr List.mem_cons_self
    · exact .inr (List.mem_cons_of_mem _ h)

/-- The fields that a class inherits are those of records. -/
theorem mem_of_inheritedFields {c : LowerContext}
    {records : List (String × List (RecordField StaticType))} {bases : List Expr}
    {fields : List (RecordField StaticType)} (h : inheritedFields c records bases = some fields)
    {f : RecordField StaticType} (hf : f ∈ fields) : ∃ r ∈ records, f ∈ r.2 := by
  unfold inheritedFields at h
  dsimp only at h
  split at h
  · cases h
  · obtain rfl := Option.some.inj h
    obtain ⟨found, hfound, hf⟩ := List.mem_flatten.1 hf
    obtain ⟨base, -, hbase⟩ := List.mem_filterMap.1 hfound
    split at hbase
    · obtain rfl := Option.some.inj hbase
      exact absurd hf List.not_mem_nil
    · obtain ⟨name, -, hname⟩ := Option.bind_eq_some_iff.1 hbase
      exact ⟨_, mem_of_lookup hname, hf⟩

/-- A field is read as its hint says. -/
theorem lowerField_eq (c : LowerContext) (total : Bool) (pos : Pos) (name : String) (hint : Expr) :
    lowerField c total pos name hint = do
      return ⟨name, ← lowerHint c (c.scope.readField total hint).2,
        (c.scope.readField total hint).1, c.location pos⟩ := by
  unfold lowerField
  split
  rename_i isOptional type heq
  have hread : c.scope.readField total hint = (isOptional, type) := heq
  rw [hread]

namespace Lower

open Typeward.Action

variable {α β : Type} {k : HintContext} {m : Module} {P : α → Prop} {Q : β → Prop}

/-- From what comes from the hints of a module, a lowering comes to what does, and its answer is as
told; or else it fails for one of the reasons. -/
def Traces (k : HintContext) (m : Module) (x : Lower α) (P : α → Prop) : Prop :=
  ∀ ⦃s⦄, s.ComesFrom k m →
    (∀ ⦃failure⦄, x s = .error failure → k.LoweringFailure m failure) ∧
      ∀ ⦃a s'⦄, x s = .ok (a, s') → s'.ComesFrom k m ∧ P a

/-- A lowering of which nothing more is told. -/
abbrev Follows (k : HintContext) (m : Module) (x : Lower α) : Prop := Traces k m x fun _ => True

/-- A lowering that answers whatever it has found before does not fail. -/
theorem traces_of_ok {x : Lower α} {answer : LowerState → α} {next : LowerState → LowerState}
    (h : ∀ s, x s = .ok (answer s, next s))
    (hnext : ∀ s, s.ComesFrom k m → (next s).ComesFrom k m ∧ P (answer s)) : Traces k m x P := by
  refine fun s hs => ⟨fun failure hf => ?_, fun a s' ha => ?_⟩
  · rw [h] at hf
    cases hf
  · rw [h] at ha
    obtain ⟨rfl, rfl⟩ := Prod.mk.inj (Except.ok.inj ha)
    exact hnext s hs

/-- A lowering that finds nothing answers its result. -/
theorem traces_pure {a : α} (h : P a) : Traces k m (pure a) P :=
  traces_of_ok (fun _ => rfl) fun _ hs => ⟨hs, h⟩

/-- One lowering after another fails as the first one does, or as the second one does given the
answer of the first. -/
theorem Traces.bind {x : Lower α} {f : α → Lower β} (hx : Traces k m x P)
    (hf : ∀ a, P a → Traces k m (f a) Q) : Traces k m (x >>= f) Q := by
  refine fun s hs => ⟨fun failure h => ?_, fun b s' h => ?_⟩
  · rcases bind_eq_error.1 h with h | ⟨a, s₁, ha, h⟩
    · exact (hx hs).1 h
    · obtain ⟨hs₁, hP⟩ := (hx hs).2 ha
      exact (hf a hP hs₁).1 h
  · obtain ⟨a, s₁, ha, hb⟩ := bind_eq_ok.1 h
    obtain ⟨hs₁, hP⟩ := (hx hs).2 ha
    exact (hf a hP hs₁).2 hb

/-- As `Traces.bind`, where the first answer does not matter. -/
theorem Traces.after {x : Lower α} {f : α → Lower β} (hx : Traces k m x P)
    (hf : ∀ a, Traces k m (f a) Q) : Traces k m (x >>= f) Q :=
  hx.bind fun a _ => hf a

/-- What is told of the members of a list is told of all answers. -/
theorem traces_mapM {f : α → Lower β} {l : List α} (hf : ∀ a ∈ l, Traces k m (f a) Q) :
    Traces k m (l.mapM f) fun bs => ∀ b ∈ bs, Q b := by
  induction l with
  | nil => exact traces_pure nofun
  | cons a rest ih =>
    rw [List.mapM_cons]
    refine (hf a List.mem_cons_self).bind fun b hb => ?_
    refine (ih fun a ha => hf a (List.mem_cons_of_mem _ ha)).bind fun bs hbs => ?_
    exact traces_pure (List.forall_mem_cons.2 ⟨hb, hbs⟩)

/-- A hint of the module is read. -/
theorem traces_lowerHint {c : LowerContext} {hint : Expr} (h : m.Asks c.scope hint) :
    Traces c.hints m (lowerHint c hint) (c.hints.Reads m) := by
  refine fun s hs => ⟨fun failure hf => ?_, fun t s' ht => ?_⟩
  · rcases Except.bind_eq_error.1 hf with hf | ⟨t, -, hf⟩
    · exact .hint h hf
    · cases hf
  · obtain ⟨hdenote, rfl⟩ := lowerHint_eq_ok.1 ht
    exact ⟨hs, hint, h, hdenote⟩

/-- A declaration of types that come from the hints of the module is added. -/
theorem follows_declare {d : Declaration} (htypes : ∀ t ∈ d.types, k.Draws m t)
    (hplaces : ∀ t, d = .type t → ∃ u ∈ Stmt.allNodes m, t.location = some (k.location u.pos)) :
    Follows k m (declare d) := by
  refine traces_of_ok (fun _ => rfl) fun s hs => ?_
  refine ⟨⟨fun d' hd' => ?_, fun t ht => ?_, hs.records⟩, trivial⟩
  · rcases List.mem_append.1 hd' with hd' | hd'
    · exact hs.types d' hd'
    · rwa [List.mem_singleton.1 hd']
  · rcases List.mem_append.1 ht with ht | ht
    · exact hs.places t ht
    · exact hplaces t (List.mem_singleton.1 ht).symm

/-- A fault about a call in the module. -/
theorem traces_lowerFault {c : LowerContext} {e : Expr} (he : m.Has e) (hcall : e.isCall = true)
    (construct : String) :
    Traces c.hints m (lowerFault c e construct : Lower α) P := by
  refine fun s hs => ⟨fun failure h => ?_, fun a s' h => ?_⟩
  · obtain rfl := Except.error.inj h
    exact .call he hcall
  · cases h

/-- The source of an expression. -/
theorem follows_text (e : Expr) :
    Follows k m (fun s => do return (← HintContext.text e, s) : Lower String) := by
  refine fun s hs => ⟨fun failure h => ?_, fun source s' h => ?_⟩
  · rcases Except.bind_eq_error.1 h with h | ⟨source, -, h⟩
    · obtain ⟨fault, -, rfl⟩ := HintContext.text_eq_error h
      exact .unprintable fault
    · cases h
  · obtain ⟨shown, -, h⟩ := Except.bind_eq_ok.1 h
    obtain ⟨-, rfl⟩ := Prod.mk.inj (Except.ok.inj h)
    exact ⟨hs, trivial⟩

/-- The casts in an expression of the module. -/
theorem follows_lowerExpr {c : LowerContext} {e : Expr} (he : m.Has e) :
    Follows c.hints m (lowerExpr c e) := by
  fun_induction lowerExpr c e with
  | case1 pos func type value decl h ih =>
    obtain ⟨t, ht, root, hroot, hcall⟩ := id he
    have hcast : c.scope.canonical func = some "cast" := by simpa [callsSpecial] using h
    refine (traces_lowerHint ⟨t, ht, .cast hroot hcall hcast⟩).bind fun lowered hlowered => ?_
    refine (follows_text value).after fun label => ?_
    have hdeclare : Follows c.hints m (declare (.cast ⟨lowered, label, c.location pos⟩)) :=
      follows_declare (by simpa [Declaration.types] using .hint hlowered) (by simp)
    refine hdeclare.after fun number => ?_
    have hvalue : m.Has value := he.child (by simp [Expr.children, slots, listSlots])
    exact (ih hvalue).after fun value => traces_pure trivial
  | case2 e hne h => exact traces_lowerFault he (isCall_of_callsSpecial h) _
  | case3 e h ih =>
    have hparts (n : { n // n ∈ e.children }) : Follows c.hints m (lowerExpr c n.1) :=
      ih n.1 (Expr.sizeOf_lt_of_mem_children n.2) (he.child n.2)
    exact (traces_mapM fun n _ => hparts n).after fun es => traces_pure trivial

/-- The casts in a value whose expressions stand in the module. -/
theorem follows_lowerIn [Slots α] {c : LowerContext} {a : α} (h : ∀ e ∈ slots a, m.Has e) :
    Follows c.hints m (lowerIn c a) :=
  (traces_mapM fun e he => follows_lowerExpr (h e he)).after fun _ => traces_pure trivial

/-- The casts in the initial values of parameters. -/
theorem follows_lowerInitials {c : LowerContext} {params : Parameters Expr}
    (h : ∀ e ∈ slots params, m.Has e) : Follows c.hints m (lowerInitials c params) := by
  refine (follows_lowerIn fun e he => h e ?_).after fun positionalOnly => ?_
  · exact BoundedSlots.mem_pair.2 (.inr (BoundedSlots.mem_pair.2 (.inl he)))
  refine (follows_lowerIn fun e he => h e ?_).after fun positional => ?_
  · exact BoundedSlots.mem_pair.2 (.inr (BoundedSlots.mem_pair.2 (.inr he)))
  refine (follows_lowerIn fun e he => h e ?_).after fun keywordOnly => traces_pure trivial
  exact BoundedSlots.mem_pair.2 (.inl he)

/-- The hints of the parameters of a function. -/
theorem traces_lowerParameters {c : LowerContext} {params : Parameters Expr}
    (h : ∀ kind name hint, (kind, name, some hint) ∈ params.signature → m.Asks c.scope hint) :
    Traces c.hints m (lowerParameters c params) fun typed =>
      ∀ p ∈ typed, ∀ t ∈ p.type, c.hints.Reads m t := by
  refine traces_mapM fun q hq => ?_
  obtain ⟨kind, p⟩ := q
  refine Traces.bind (P := fun type => ∀ t ∈ type, c.hints.Reads m t) ?_ fun _ h => traces_pure h
  cases hhint : p.hint with
  | none => exact traces_pure nofun
  | some hint =>
    have hasks : m.Asks c.scope hint :=
      h kind p.name hint (List.mem_map.2 ⟨(kind, p), hq, by rw [hhint]⟩)
    refine (traces_lowerHint hasks).bind fun t ht => traces_pure fun u hu => ?_
    rwa [← Option.mem_some.1 hu]

/-- The fields that the suite of a class of the module adds to others. -/
theorem traces_lowerFields {c : LowerContext} {pos : Pos} {head : ClassHead} {body ts : List Stmt}
    (hclass : .classDef pos head body ∈ Stmt.allNodes m) (hts : ∀ t ∈ ts, t ∈ body) (total : Bool)
    {fields : List (RecordField StaticType)} (hfields : ∀ f ∈ fields, c.hints.Reads m f.type) :
    Traces c.hints m (lowerFields c total fields ts) fun fields =>
      ∀ f ∈ fields, c.hints.Reads m f.type := by
  fun_induction lowerFields c total fields ts with
  | case1 fields => exact traces_pure hfields
  | case2 fields pos p id hint value bare decl rest ih =>
    have hasks : m.Asks c.scope (c.scope.readField total hint).2 :=
      ⟨_, hclass, .field (hts _ List.mem_cons_self)⟩
    rw [lowerField_eq]
    simp only [bind_assoc, pure_bind]
    refine (traces_lowerHint hasks).bind fun t ht => ?_
    refine ih _ (fun t ht => hts t (List.mem_cons_of_mem _ ht)) fun g hg => ?_
    rcases mem_putField hg with hg | rfl
    · exact hfields g hg
    · exact ht
  | case3 fields t rest hne ih =>
    exact ih (fun t ht => hts t (List.mem_cons_of_mem _ ht)) hfields

/-- The record that a class of the module declares. -/
theorem follows_lowerRecord {c : LowerContext} {pos : Pos} {head : ClassHead} {body : List Stmt}
    (hclass : .classDef pos head body ∈ Stmt.allNodes m)
    {inherited : List (RecordField StaticType)}
    (hinherited : ∀ f ∈ inherited, c.hints.Reads m f.type) :
    Follows c.hints m (lowerRecord c pos head body inherited) := by
  have hstart : ∀ f ∈ inherited.foldl putField [], c.hints.Reads m f.type := fun f hf =>
    hinherited f ((mem_foldl_putField hf).resolve_left List.not_mem_nil)
  refine (traces_lowerFields hclass (fun _ => id) _ hstart).bind fun fields hfields => ?_
  have hmodify : Follows c.hints m (modify fun s =>
      { s with records := (head.name, fields) :: s.records } : Lower Unit) :=
    traces_of_ok (fun _ => rfl) fun s hs =>
      ⟨⟨hs.types, hs.places, List.forall_mem_cons.2 ⟨hfields, hs.records⟩⟩, trivial⟩
  refine hmodify.after fun _ => follows_declare ?_ ?_
  · simpa [Declaration.types] using .record hfields
  · rintro _ ⟨⟩
    exact ⟨_, hclass, rfl⟩

/-- A simple statement of the module. -/
theorem follows_lowerSimple {c : LowerContext} {pos : Pos} {t : Simple}
    (ht : .simple pos t ∈ Stmt.allNodes m) : Follows c.hints m (lowerSimple c pos t) := by
  have hin : Follows c.hints m (lowerIn c t) :=
    follows_lowerIn fun e he => Module.has_of_mem_held ht he
  unfold lowerSimple
  split
  · split
    · rename_i halias
      have hasks : m.Asks c.scope _ := ⟨_, ht, .aliasOf (by simpa using halias)⟩
      refine (traces_lowerHint hasks).bind fun type htype => ?_
      refine Traces.after (follows_declare ?_ ?_) fun number => traces_pure trivial
      · simpa [Declaration.types] using .hint htype
      · rintro _ ⟨⟩
        exact ⟨_, ht, rfl⟩
    · exact hin
  · rename_i p id value decl
    split
    · rename_i hreify
      split
      · rename_i q func type number
        have hspecial : c.scope.canonical func = some "reify" := by
          simpa [callsSpecial] using hreify
        have hasks : m.Asks c.scope type := ⟨_, ht, .inspection hspecial⟩
        refine (traces_lowerHint hasks).bind fun lowered hlowered => ?_
        refine Traces.after (follows_declare ?_ (by simp)) fun number => traces_pure trivial
        simpa [Declaration.types] using .hint hlowered
      · refine traces_lowerFault (Module.has_of_mem_held ht ?_) (isCall_of_callsSpecial hreify) _
        simp [Stmt.held, slots]
    · exact hin
  · exact hin

mutual

/-- A statement of the module. -/
theorem follows_lowerStmt {c : LowerContext} : {t : Stmt} →
    (∀ u ∈ t.nodes, u ∈ Stmt.allNodes m) → Follows c.hints m (lowerStmt c t)
  | .simple pos t, ht => by
    rw [lowerStmt]
    exact (follows_lowerSimple (ht _ List.mem_cons_self)).after fun t => traces_pure trivial
  | .function pos head body, ht => by
    have hfunction := ht _ List.mem_cons_self
    have hheld : ∀ e ∈ (Stmt.function pos head body).held, m.Has e :=
      fun e => Module.has_of_mem_held hfunction
    rw [lowerStmt]
    refine (follows_lowerIn fun e he => hheld e (List.mem_append_left _ he)).after
      fun decorators => ?_
    refine (follows_lowerInitials fun e he => hheld e (List.mem_append_right _ he)).after
      fun params => ?_
    refine Traces.bind (traces_lowerParameters fun kind name hint h =>
      ⟨_, hfunction, .parameter h⟩) fun typed htyped => ?_
    refine Traces.after (follows_declare (fun t ht => ?_) (by simp)) fun number => ?_
    · obtain ⟨p, hp, ht⟩ := List.mem_filterMap.1 ht
      exact .hint (htyped p hp t ht)
    · have hbody := follows_lowerAll (c := c.inside) fun u hu => ht u (List.mem_cons_of_mem _ hu)
      exact Traces.after hbody fun body => traces_pure trivial
  | .classDef pos head body, ht => by
    have hclass := ht _ List.mem_cons_self
    have hheld : ∀ e ∈ (Stmt.classDef pos head body).held, m.Has e :=
      fun e => Module.has_of_mem_held hclass
    have hget : Traces c.hints m (get : Lower LowerState) (·.ComesFrom c.hints m) :=
      traces_of_ok (fun _ => rfl) fun s hs => ⟨hs, hs⟩
    rw [lowerStmt]
    refine hget.bind fun s hs => ?_
    split
    · rename_i inherited hinherited
      refine (follows_lowerRecord hclass fun f hf => ?_).after fun _ => traces_pure trivial
      obtain ⟨r, hr, hf⟩ := mem_of_inheritedFields hinherited hf
      exact hs.records r hr f hf
    · refine Traces.after (follows_lowerIn (c := c.inside) fun e he => hheld e ?_) fun bases => ?_
      · exact List.mem_append_left _ (List.mem_append_left _ he)
      refine Traces.after (follows_lowerIn (c := c.inside) fun e he => hheld e ?_)
        fun keywords => ?_
      · exact List.mem_append_left _ (List.mem_append_right _ he)
      have hbody := follows_lowerAll (c := c.inside) fun u hu => ht u (List.mem_cons_of_mem _ hu)
      refine Traces.after hbody fun body => ?_
      refine Traces.after (follows_lowerIn (c := c.inside) fun e he => hheld e ?_)
        fun decorators => traces_pure trivial
      exact List.mem_append_right _ he
  | .branch pos test body orelse, ht => by
    have hbody := follows_lowerAll (c := c) fun u hu =>
      ht u (List.mem_cons_of_mem _ (List.mem_append_left _ hu))
    have horelse := follows_lowerAll (c := c) fun u hu =>
      ht u (List.mem_cons_of_mem _ (List.mem_append_right _ hu))
    rw [lowerStmt]
    split
    · exact horelse.after fun orelse => traces_pure trivial
    · have htest : Follows c.hints m (lowerIn c test) := follows_lowerIn fun e he =>
        Module.has_of_mem_held (ht _ List.mem_cons_self) he
      refine htest.after fun test => hbody.after fun body => ?_
      exact horelse.after fun orelse => traces_pure trivial
  | .compound pos clauses, ht => by
    rw [lowerStmt]
    refine (follows_lowerClauses (fun cl hcl e he => ?_) fun u hu =>
      ht u (List.mem_cons_of_mem _ hu)).after fun clauses => traces_pure trivial
    exact Module.has_of_mem_held (ht _ List.mem_cons_self) (List.mem_flatMap.2 ⟨cl, hcl, he⟩)

/-- Statements of the module. -/
theorem follows_lowerAll {c : LowerContext} : {ts : List Stmt} →
    (∀ u ∈ Stmt.allNodes ts, u ∈ Stmt.allNodes m) → Follows c.hints m (lowerAll c ts)
  | [], ht => by
    rw [lowerAll]
    exact traces_pure trivial
  | t :: rest, ht => by
    rw [lowerAll]
    refine (follows_lowerStmt fun u hu => ht u (List.mem_append_left _ hu)).after fun first => ?_
    exact (follows_lowerAll fun u hu => ht u (List.mem_append_right _ hu)).after
      fun rest => traces_pure trivial

/-- Clauses of a statement of the module. -/
theorem follows_lowerClauses {c : LowerContext} : {clauses : List (Clause Stmt)} →
    (∀ cl ∈ clauses, ∀ e ∈ slots cl.head, m.Has e) →
    (∀ u ∈ Stmt.clauseNodes clauses, u ∈ Stmt.allNodes m) →
    Follows c.hints m (lowerClauses c clauses)
  | [], hheads, ht => by
    rw [lowerClauses]
    exact traces_pure trivial
  | ⟨head, body⟩ :: rest, hheads, ht => by
    rw [lowerClauses]
    refine (follows_lowerIn (hheads _ List.mem_cons_self)).after fun head => ?_
    refine (follows_lowerAll fun u hu => ht u (List.mem_append_left _ hu)).after fun body => ?_
    exact (follows_lowerClauses (fun cl hcl => hheads cl (List.mem_cons_of_mem _ hcl))
      fun u hu => ht u (List.mem_append_right _ hu)).after fun rest => traces_pure trivial

end

end Lower

section Trees

variable {tree : Module} {file : String} {comments : List (Nat × String)} {options : Options}

/-- The lowering of a tree follows the hints in it. -/
theorem follows_lowerTree : Lower.Follows ⟨Scope.ofModule file tree, file, none⟩ tree
    (lowerAll ⟨⟨Scope.ofModule file tree, file, none⟩, comments, options.recursiveMarker, 0⟩
      tree) :=
  Lower.follows_lowerAll (c := ⟨⟨Scope.ofModule file tree, file, none⟩, _, _, _⟩) fun _ => id

/-- Nothing has been found before. -/
theorem comesFrom_empty {k : HintContext} {m : Module} : LowerState.ComesFrom k m {} :=
  ⟨nofun, nofun, nofun⟩

/-- A tree that is not lowered fails for one of the reasons. -/
theorem loweringFailure_of_lowerTree {failure : Failure}
    (h : lowerTree tree file comments options = .error failure) :
    HintContext.LoweringFailure ⟨Scope.ofModule file tree, file, none⟩ tree failure := by
  rcases Except.bind_eq_error.1 h with h | ⟨out, -, h⟩
  · exact (follows_lowerTree comesFrom_empty).1 h
  · cases h

/-- What a tree declares comes from its hints. -/
theorem comesFrom_of_lowerTree {lowered : Lowered}
    (h : lowerTree tree file comments options = .ok lowered) :
    ∃ s, LowerState.ComesFrom ⟨Scope.ofModule file tree, file, none⟩ tree s ∧
      lowered.declarations = s.declarations := by
  obtain ⟨⟨tree', s⟩, hrun, h⟩ := Except.bind_eq_ok.1 h
  obtain rfl := Except.ok.inj h
  exact ⟨s, ((follows_lowerTree comesFrom_empty).2 hrun).1, rfl⟩

end Trees

end Typeward
