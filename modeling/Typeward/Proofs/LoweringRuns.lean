import Typeward.Lowering
import Typeward.Proofs.Actions

/-!
# Runs of lowering

Lowering walks through a module and adds declarations at the end of a list, so a number that is
given to a node stays the number of the declaration that it was given for. What it declares to be
bound is bound in the module. The functions of a lowered module carry the numbers of their own
signatures.
-/

namespace Typeward

mutual

/-- The headers of the functions in a statement, at any depth. -/
def Stmt.functions : Stmt → List FunctionHead
  | .simple .. => []
  | .function _ head body => head :: allFunctions body
  | .classDef _ _ body => allFunctions body
  | .branch _ _ body orelse => allFunctions body ++ allFunctions orelse
  | .compound _ clauses => clauseFunctions clauses

/-- The headers of the functions in statements. -/
def Stmt.allFunctions : List Stmt → List FunctionHead
  | [] => []
  | t :: rest => t.functions ++ allFunctions rest

/-- The headers of the functions in the suites of clauses. -/
def Stmt.clauseFunctions : List (Clause Stmt) → List FunctionHead
  | [] => []
  | ⟨_, body⟩ :: rest => allFunctions body ++ clauseFunctions rest

end

/-- Functions carry no numbers. -/
def Unnumbered (fs : List FunctionHead) : Prop := ∀ f ∈ fs, f.decl = none

/-- No functions carry no numbers. -/
theorem Unnumbered.nil : Unnumbered [] := by simp [Unnumbered]

/-- Functions on both sides carry no numbers. -/
theorem Unnumbered.append {fs gs : List FunctionHead} (hfs : Unnumbered fs)
    (hgs : Unnumbered gs) : Unnumbered (fs ++ gs) := by
  intro f hf
  rcases List.mem_append.1 hf with hf | hf
  · exact hfs f hf
  · exact hgs f hf

/-- A parameter is declared under its own name and kind, with the type that its hint denotes. -/
structure DeclaresParameter (c : HintContext) (q : ParameterKind × String × Option Expr)
    (p : TypedParameter) : Prop where
  kind : p.kind = q.1
  name : p.name = q.2.1
  type : ∀ t, p.type = some t ↔ ∃ hint, q.2.2 = some hint ∧ c.denote hint = .ok t

/-- A declaration is that of a function with given parameters. -/
def DeclaresFunction (c : HintContext) (f : FunctionHead) (d : FunctionDeclaration) : Prop :=
  List.Forall₂ (DeclaresParameter c) f.params.signature d.params

/-- The functions that carry numbers are declared under them. -/
def NumberedIn (c : HintContext) (fs : List FunctionHead) (ds : List Declaration) : Prop :=
  ∀ f ∈ fs, ∀ k, f.decl = some k →
    ∃ d, ds[k]? = some (.function d) ∧ DeclaresFunction c f d

namespace NumberedIn

variable {c : HintContext} {fs gs : List FunctionHead} {ds ds' : List Declaration}

/-- Functions without numbers need no declarations. -/
theorem of_unnumbered (h : Unnumbered fs) : NumberedIn c fs ds := by
  intro f hf k hk
  simp [h f hf] at hk

/-- Functions stay declared when declarations are added at the end. -/
theorem mono (h : NumberedIn c fs ds) (hds : ds <+: ds') : NumberedIn c fs ds' := by
  intro f hf k hk
  obtain ⟨d, hd, hdeclares⟩ := h f hf k hk
  obtain ⟨more, rfl⟩ := hds
  obtain ⟨hlt, -⟩ := List.getElem?_eq_some_iff.1 hd
  exact ⟨d, by rw [List.getElem?_append_left hlt, hd], hdeclares⟩

/-- Functions on both sides are declared. -/
theorem append (hfs : NumberedIn c fs ds) (hgs : NumberedIn c gs ds) :
    NumberedIn c (fs ++ gs) ds := by
  intro f hf
  rcases List.mem_append.1 hf with hf | hf
  · exact hfs f hf
  · exact hgs f hf

end NumberedIn

/-- The name that the code for a declaration binds, if it binds one. -/
def Declaration.bound? : Declaration → Option String
  | .type d => some d.name
  | .reify d => some d.target
  | .function _ | .cast _ => none

namespace Lower

open Typeward.Action

variable {α β : Type} {N : String → Prop}

/-- A lowering adds declarations at the end and changes none. The names that it declares to be bound
satisfy a condition. -/
def Adds (N : String → Prop) (x : Lower α) : Prop :=
  ∀ ⦃s a s'⦄, x s = .ok (a, s') →
    ∃ new, s'.declarations = s.declarations ++ new ∧ ∀ d ∈ new, ∀ x ∈ d.bound?, N x

/-- A lowering keeps the declarations that are there. -/
theorem Adds.keeps {x : Lower α} (h : Adds N x) {s s' : LowerState} {a : α}
    (hx : x s = .ok (a, s')) : s.declarations <+: s'.declarations := by
  obtain ⟨new, heq, -⟩ := h hx
  exact ⟨new, heq.symm⟩

/-- A lowering that leaves the declarations as they are adds nothing. -/
theorem adds_of_eq {x : Lower α}
    (h : ∀ ⦃s a s'⦄, x s = .ok (a, s') → s'.declarations = s.declarations) : Adds N x := by
  intro s a s' hx
  exact ⟨[], by rw [h hx, List.append_nil], by simp⟩

/-- Names that satisfy a condition satisfy a weaker one. -/
theorem Adds.mono {M : String → Prop} {x : Lower α} (h : Adds M x) (hMN : ∀ x, M x → N x) :
    Adds N x := by
  intro s a s' hx
  obtain ⟨new, heq, hnew⟩ := h hx
  exact ⟨new, heq, fun d hd x hx => hMN x (hnew d hd x hx)⟩

/-- A lowering that finds nothing adds nothing. -/
theorem adds_pure (a : α) : Adds N (pure a) :=
  adds_of_eq fun s b s' h => by rw [(pure_eq_ok.1 h).2]

/-- One lowering after another adds what both add. -/
theorem Adds.bind {x : Lower α} {f : α → Lower β} (hx : Adds N x) (hf : ∀ a, Adds N (f a)) :
    Adds N (x >>= f) := by
  intro s b s' h
  obtain ⟨a, s₁, ha, hb⟩ := bind_eq_ok.1 h
  obtain ⟨first, hfirst, hN⟩ := hx ha
  obtain ⟨second, hsecond, hN'⟩ := hf a hb
  refine ⟨first ++ second, by rw [hsecond, hfirst, List.append_assoc], ?_⟩
  intro d hd
  rcases List.mem_append.1 hd with hd | hd
  · exact hN d hd
  · exact hN' d hd

/-- Lowering the members of a list in order adds what is added for each. -/
theorem adds_mapM {f : α → Lower β} {l : List α} (hf : ∀ a ∈ l, Adds N (f a)) :
    Adds N (l.mapM f) := by
  induction l with
  | nil => exact adds_pure []
  | cons a rest ih =>
    rw [List.mapM_cons]
    refine (hf a List.mem_cons_self).bind fun b => ?_
    refine (ih fun a ha => hf a (List.mem_cons_of_mem _ ha)).bind fun bs => ?_
    exact adds_pure _

/-- Reading a hint answers the type that it denotes. -/
theorem lowerHint_eq_ok {c : LowerContext} {hint : Expr} {s s' : LowerState} {t : StaticType} :
    lowerHint c hint s = .ok (t, s') ↔ c.hints.denote hint = .ok t ∧ s = s' := by
  unfold lowerHint
  rw [Except.bind_eq_ok]
  simp [pure, Except.pure]

/-- Actions that leave the state do so for all members of a list. -/
theorem state_of_mapM {f : α → Lower β} {l : List α}
    (hf : ∀ a ∈ l, ∀ ⦃s b s'⦄, f a s = .ok (b, s') → s' = s) {s s' : LowerState} {bs : List β}
    (h : l.mapM f s = .ok (bs, s')) : s' = s := by
  induction l generalizing s bs with
  | nil => exact (pure_eq_ok.1 h).2.symm
  | cons a rest ih =>
    rw [List.mapM_cons] at h
    obtain ⟨b, s₁, hfirst, h⟩ := bind_eq_ok.1 h
    obtain ⟨more, s₂, hrest, h⟩ := bind_eq_ok.1 h
    obtain ⟨-, rfl⟩ := pure_eq_ok.1 h
    rw [ih (fun a ha => hf a (List.mem_cons_of_mem _ ha)) hrest, hf a List.mem_cons_self hfirst]

/-- Reading the hints of parameters leaves the state. -/
theorem state_of_lowerParameters {c : LowerContext} {ps : Parameters Expr}
    {typed : List TypedParameter} {s s' : LowerState}
    (h : lowerParameters c ps s = .ok (typed, s')) : s' = s := by
  refine state_of_mapM ?_ h
  rintro ⟨kind, p⟩ - s q s' h
  obtain ⟨type, s₁, htype, h⟩ := bind_eq_ok.1 h
  obtain ⟨-, rfl⟩ := pure_eq_ok.1 h
  cases hhint : p.hint with
  | none =>
    rw [hhint] at htype
    exact (pure_eq_ok.1 htype).2.symm
  | some hint =>
    rw [hhint, Option.mapM_some, map_eq_pure_bind] at htype
    obtain ⟨u, s₂, hu, htype⟩ := bind_eq_ok.1 htype
    obtain ⟨-, rfl⟩ := pure_eq_ok.1 htype
    exact (lowerHint_eq_ok.1 hu).2.symm

/-- Reading the fields of a record leaves the state. -/
theorem state_of_lowerFields {c : LowerContext} {total : Bool}
    {fields fields' : List (RecordField StaticType)} {body : List Stmt} {s s' : LowerState}
    (h : lowerFields c total fields body s = .ok (fields', s')) : s' = s := by
  fun_induction lowerFields c total fields body generalizing s with
  | case1 fields => exact (pure_eq_ok.1 h).2.symm
  | case2 fields pos p id hint value bare decl rest ih =>
    obtain ⟨field, s₁, hfield, h⟩ := bind_eq_ok.1 h
    obtain ⟨t, s₂, ht, hfield⟩ := bind_eq_ok.1 hfield
    obtain ⟨-, rfl⟩ := pure_eq_ok.1 hfield
    rw [ih field h, (lowerHint_eq_ok.1 ht).2]
  | case3 fields t rest hne ih => exact ih h

/-- Reading a hint adds nothing. -/
theorem adds_lowerHint (c : LowerContext) (hint : Expr) : Adds N (lowerHint c hint) :=
  adds_of_eq fun s t s' h => by rw [(lowerHint_eq_ok.1 h).2]

/-- Looking at what was found so far adds nothing. -/
theorem adds_get : Adds N (get : Lower LowerState) :=
  adds_of_eq fun s a s' h => by rw [(pure_eq_ok.1 h).2]

/-- A declaration is added at the end, and its number is the place that it is added at. -/
theorem declare_eq_ok {d : Declaration} {s s' : LowerState} {n : Nat} :
    declare d s = .ok (n, s') ↔
      s.declarations.length = n ∧ { s with declarations := s.declarations ++ [d] } = s' := by
  simp [declare]

/-- A declaration adds itself. -/
theorem adds_declare {d : Declaration} (h : ∀ x ∈ d.bound?, N x) : Adds N (declare d) := by
  intro s n s' hs
  obtain ⟨-, rfl⟩ := declare_eq_ok.1 hs
  refine ⟨[d], rfl, ?_⟩
  intro d' hd'
  rwa [List.mem_singleton.1 hd']

/-- A declaration has the number that it is found under. -/
theorem getElem?_of_declare {d : Declaration} {s s' : LowerState} {n : Nat}
    (h : declare d s = .ok (n, s')) : s'.declarations[n]? = some d := by
  obtain ⟨rfl, rfl⟩ := declare_eq_ok.1 h
  simp

/-- A fault answers nothing. -/
theorem adds_lowerFault (c : LowerContext) (e : Expr) (construct : String) :
    Adds N (lowerFault c e construct : Lower α) := by
  intro s a s' h
  simp [lowerFault, HintContext.unsupported] at h

/-- A computation without a state adds nothing. -/
theorem adds_ofExcept (x : Except Failure α) :
    Adds N (fun s => do return (← x, s) : Lower α) := by
  refine adds_of_eq fun s a s' h => ?_
  obtain ⟨b, -, hb⟩ := Except.bind_eq_ok.1 h
  simp only [pure, Except.pure, Except.ok.injEq, Prod.mk.injEq] at hb
  rw [hb.2]

/-- Lowering all expressions that a value holds adds what is added for each. -/
theorem adds_slots_mapM [Slots α] {f : Expr → Lower Expr} (hf : ∀ e, Adds N (f e)) (a : α) :
    Adds N (Slots.mapM f a) :=
  (adds_mapM fun e _ => hf e).bind fun _ => adds_pure _

/-- Lowering the parts of an expression adds what is added for each. -/
theorem adds_mapChildren {e : Expr} {f : (c : Expr) → sizeOf c < sizeOf e → Lower Expr}
    (hf : ∀ c h, Adds N (f c h)) : Adds N (e.mapChildren f) :=
  (adds_mapM fun c _ => hf c.1 _).bind fun _ => adds_pure _

/-- Lowering an expression adds the casts in it, which bind nothing. -/
theorem adds_lowerExpr (c : LowerContext) (e : Expr) : Adds N (lowerExpr c e) := by
  fun_induction lowerExpr c e with
  | case1 pos func type value decl h ih =>
    refine (adds_lowerHint c type).bind fun lowered => ?_
    refine (adds_ofExcept _).bind fun label => ?_
    refine (adds_declare (by simp [Declaration.bound?])).bind fun number => ?_
    exact ih.bind fun value => adds_pure _
  | case2 e h hne => exact adds_lowerFault c _ _
  | case3 e h ih => exact adds_mapChildren ih

/-- Lowering all expressions that a value holds adds the casts in them. -/
theorem adds_lowerIn [Slots α] (c : LowerContext) (a : α) : Adds N (lowerIn c a) :=
  adds_slots_mapM (adds_lowerExpr c) a

/-- Lowering initial values adds the casts in them. -/
theorem adds_lowerInitials (c : LowerContext) (params : Parameters Expr) :
    Adds N (lowerInitials c params) := by
  refine (adds_lowerIn c _).bind fun positionalOnly => ?_
  refine (adds_lowerIn c _).bind fun positional => ?_
  exact (adds_lowerIn c _).bind fun keywordOnly => adds_pure _

/-- Reading the hints of parameters adds nothing. -/
theorem adds_lowerParameters (c : LowerContext) (params : Parameters Expr) :
    Adds N (lowerParameters c params) :=
  adds_of_eq fun s typed s' h => by rw [state_of_lowerParameters h]

/-- A record is declared with its fields, and known by them. -/
theorem lowerRecord_eq_ok {c : LowerContext} {pos : Pos} {head : ClassHead} {body : List Stmt}
    {inherited : List (RecordField StaticType)} {s s' : LowerState} {n : Nat} :
    lowerRecord c pos head body inherited s = .ok (n, s') ↔
      ∃ fields, lowerFields c (isTotal head.keywords) (inherited.foldl putField []) body s =
          .ok (fields, s) ∧
        declare (.type ⟨head.name, .record fields (some head.name) (c.location pos),
          c.isRecursive pos, c.depth = 0, c.location pos⟩)
          { s with records := (head.name, fields) :: s.records } = .ok (n, s') := by
  have hmodify {f : LowerState → LowerState} {x : Lower Nat} {s : LowerState} :
      (modify f >>= fun _ => x) s = x (f s) := rfl
  unfold lowerRecord
  simp only [bind_eq_ok (s := s), hmodify]
  constructor
  · rintro ⟨fields, s₁, hfields, hdeclare⟩
    obtain rfl := state_of_lowerFields hfields
    exact ⟨fields, hfields, hdeclare⟩
  · rintro ⟨fields, hfields, hdeclare⟩
    exact ⟨fields, s, hfields, hdeclare⟩

/-- The declaration of a record, which binds the name of the class, is added at the end. -/
theorem adds_lowerRecord (c : LowerContext) (pos : Pos) (head : ClassHead) (body : List Stmt)
    (inherited : List (RecordField StaticType)) :
    Adds (· = head.name) (lowerRecord c pos head body inherited) := by
  intro s n s' h
  obtain ⟨fields, -, hdeclare⟩ := lowerRecord_eq_ok.1 h
  obtain ⟨-, rfl⟩ := declare_eq_ok.1 hdeclare
  refine ⟨[_], rfl, fun d hd => ?_⟩
  rw [List.mem_singleton.1 hd]
  simp [Declaration.bound?]

/-- Lowering a simple statement adds a declaration that binds one of its targets, or its casts. -/
theorem adds_lowerSimple (c : LowerContext) (pos : Pos) (t : Simple) :
    Adds (fun x => ∃ e ∈ t.targets, e.Targets x) (lowerSimple c pos t) := by
  unfold lowerSimple
  split
  · split
    · refine (adds_lowerHint c _).bind fun type => ?_
      refine (adds_declare ?_).bind fun number => adds_pure _
      rintro x ⟨⟩
      exact ⟨_, List.mem_singleton_self _, .name⟩
    · exact adds_lowerIn c _
  · split
    · split
      · refine (adds_lowerHint c _).bind fun lowered => ?_
        refine (adds_declare ?_).bind fun number => adds_pure _
        rintro x ⟨⟩
        exact ⟨_, List.mem_singleton_self _, .name⟩
      · exact adds_lowerFault c _ _
    · exact adds_lowerIn c _
  · exact adds_lowerIn c t

mutual

/-- Lowering a statement adds declarations that bind what the statement binds. -/
theorem adds_lowerStmt (c : LowerContext) : (t : Stmt) → Adds t.Binds (lowerStmt c t)
  | .simple pos t => by
    rw [lowerStmt]
    refine ((adds_lowerSimple c pos t).mono ?_).bind fun t => adds_pure _
    rintro x ⟨e, he, h⟩
    exact .target he h
  | .function pos head body => by
    rw [lowerStmt]
    refine (adds_lowerIn c _).bind fun decorators => ?_
    refine (adds_lowerInitials c _).bind fun params => ?_
    refine (adds_lowerParameters c _).bind fun typed => ?_
    refine (adds_declare (by simp [Declaration.bound?])).bind fun number => ?_
    refine ((adds_lowerAll c.inside body).mono ?_).bind fun body => adds_pure _
    rintro x ⟨t, ht, h⟩
    exact .functionBody ht h
  | .classDef pos head body => by
    rw [lowerStmt]
    refine Adds.bind adds_get fun s => ?_
    split
    · refine ((adds_lowerRecord c pos head body _).mono ?_).bind fun number => adds_pure _
      rintro x rfl
      exact .classDef rfl
    · refine (adds_lowerIn c.inside _).bind fun bases => ?_
      refine (adds_lowerIn c.inside _).bind fun keywords => ?_
      refine ((adds_lowerAll c.inside body).mono ?_).bind fun body => ?_
      · rintro x ⟨t, ht, h⟩
        exact .classBody ht h
      · exact (adds_lowerIn c.inside _).bind fun decorators => adds_pure _
  | .branch pos test body orelse => by
    rw [lowerStmt]
    have hbody : Adds (Stmt.branch pos test body orelse).Binds (lowerAll c body) := by
      refine (adds_lowerAll c body).mono ?_
      rintro x ⟨t, ht, h⟩
      exact .body ht h
    have horelse : Adds (Stmt.branch pos test body orelse).Binds (lowerAll c orelse) := by
      refine (adds_lowerAll c orelse).mono ?_
      rintro x ⟨t, ht, h⟩
      exact .orelse ht h
    split
    · exact horelse.bind fun orelse => adds_pure _
    · refine (adds_lowerIn c test).bind fun test => ?_
      exact hbody.bind fun body => horelse.bind fun orelse => adds_pure _
  | .compound pos clauses => by
    rw [lowerStmt]
    refine ((adds_lowerClauses c clauses).mono ?_).bind fun clauses => adds_pure _
    rintro x ⟨clause, hclause, t, ht, h⟩
    exact .clauseBody hclause ht h

/-- Lowering statements adds declarations that bind what one of them binds. -/
theorem adds_lowerAll (c : LowerContext) :
    (ts : List Stmt) → Adds (fun x => ∃ t ∈ ts, t.Binds x) (lowerAll c ts)
  | [] => by
    rw [lowerAll]
    exact adds_pure []
  | t :: rest => by
    rw [lowerAll]
    refine ((adds_lowerStmt c t).mono ?_).bind fun first => ?_
    · intro x h
      exact ⟨t, List.mem_cons_self, h⟩
    · refine ((adds_lowerAll c rest).mono ?_).bind fun rest => adds_pure _
      rintro x ⟨u, hu, h⟩
      exact ⟨u, List.mem_cons_of_mem _ hu, h⟩

/-- Lowering clauses adds declarations that bind what one of their suites binds. -/
theorem adds_lowerClauses (c : LowerContext) : (clauses : List (Clause Stmt)) →
    Adds (fun x => ∃ clause ∈ clauses, ∃ t ∈ clause.body, t.Binds x) (lowerClauses c clauses)
  | [] => by
    rw [lowerClauses]
    exact adds_pure []
  | ⟨head, body⟩ :: rest => by
    rw [lowerClauses]
    refine (adds_lowerIn c head).bind fun head' => ?_
    refine ((adds_lowerAll c body).mono ?_).bind fun body' => ?_
    · rintro x ⟨t, ht, h⟩
      exact ⟨_, List.mem_cons_self, t, ht, h⟩
    · refine ((adds_lowerClauses c rest).mono ?_).bind fun rest' => adds_pure _
      rintro x ⟨clause, hclause, h⟩
      exact ⟨clause, List.mem_cons_of_mem _ hclause, h⟩

end

section Runs

variable {c : LowerContext} {pos : Pos} {s s' : LowerState} {u : Stmt}

/-- The initial values of parameters are lowered by position first. -/
theorem lowerInitials_eq_ok {params params' : Parameters Expr} :
    lowerInitials c params s = .ok (params', s') ↔
      ∃ positionalOnly s₁, lowerIn c params.positionalOnly s = .ok (positionalOnly, s₁) ∧
      ∃ positional s₂, lowerIn c params.positional s₁ = .ok (positional, s₂) ∧
      ∃ keywordOnly, lowerIn c params.keywordOnly s₂ = .ok (keywordOnly, s') ∧
        { params with positionalOnly, positional, keywordOnly } = params' := by
  unfold lowerInitials
  simp only [bind_eq_ok, pure_eq_ok, exists_eq_right_right]

/-- A simple statement is lowered by itself. -/
theorem lowerStmt_simple_eq_ok {t : Simple} :
    lowerStmt c (.simple pos t) s = .ok (u, s') ↔
      ∃ t', lowerSimple c pos t s = .ok (t', s') ∧ .simple pos t' = u := by
  rw [lowerStmt]
  simp only [bind_eq_ok, pure_eq_ok, exists_eq_right_right]

/-- A function is declared between its header and its suite. -/
theorem lowerStmt_function_eq_ok {head : FunctionHead} {body : List Stmt} :
    lowerStmt c (.function pos head body) s = .ok (u, s') ↔
      ∃ decorators s₁, lowerIn c head.decorators s = .ok (decorators, s₁) ∧
      ∃ params s₂, lowerInitials c head.params s₁ = .ok (params, s₂) ∧
      ∃ typed s₃, lowerParameters c head.params s₂ = .ok (typed, s₃) ∧
      ∃ number s₄, declare (.function ⟨head.name, typed, c.location pos⟩) s₃ = .ok (number, s₄) ∧
      ∃ body', lowerAll c.inside body s₄ = .ok (body', s') ∧
        .function pos { head with decorators, params, decl := some number } body' = u := by
  rw [lowerStmt]
  simp only [bind_eq_ok, pure_eq_ok, exists_eq_right_right]

/-- A class is declared if it inherits from a record, and walked through otherwise. -/
theorem lowerStmt_classDef_eq_ok {head : ClassHead} {body : List Stmt} :
    lowerStmt c (.classDef pos head body) s = .ok (u, s') ↔
      (∃ inherited, inheritedFields c s.records head.bases = some inherited ∧
        ∃ number, lowerRecord c pos head body inherited s = .ok (number, s') ∧
          .classDef pos { head with decl := some number } body = u) ∨
      inheritedFields c s.records head.bases = none ∧
        ∃ bases s₁, lowerIn c.inside head.bases s = .ok (bases, s₁) ∧
        ∃ keywords s₂, lowerIn c.inside head.keywords s₁ = .ok (keywords, s₂) ∧
        ∃ body' s₃, lowerAll c.inside body s₂ = .ok (body', s₃) ∧
        ∃ decorators, lowerIn c.inside head.decorators s₃ = .ok (decorators, s') ∧
          .classDef pos { head with bases, keywords, decorators } body' = u := by
  have hget {f : LowerState → Lower Stmt} : (get >>= f) s = f s s := rfl
  rw [lowerStmt, hget]
  cases inheritedFields c s.records head.bases with
  | some inherited =>
    simp only [bind_eq_ok, pure_eq_ok, exists_eq_right_right, Option.some.injEq, exists_eq_left',
      reduceCtorEq, false_and, or_false]
  | none =>
    simp only [bind_eq_ok, pure_eq_ok, exists_eq_right_right, reduceCtorEq, false_and, exists_false,
      false_or, true_and]

/-- What only type checkers see is left alone. -/
theorem lowerStmt_branch_eq_ok {test : Expr} {body orelse : List Stmt} :
    lowerStmt c (.branch pos test body orelse) s = .ok (u, s') ↔
      (c.scope.isGuard test = true ∧ ∃ orelse', lowerAll c orelse s = .ok (orelse', s') ∧
        .branch pos test body orelse' = u) ∨
      c.scope.isGuard test = false ∧
        ∃ test' s₁, lowerIn c test s = .ok (test', s₁) ∧
        ∃ body' s₂, lowerAll c body s₁ = .ok (body', s₂) ∧
        ∃ orelse', lowerAll c orelse s₂ = .ok (orelse', s') ∧
          .branch pos test' body' orelse' = u := by
  rw [lowerStmt]
  cases c.scope.isGuard test with
  | true =>
    simp only [if_true, bind_eq_ok, pure_eq_ok, exists_eq_right_right, true_and, reduceCtorEq,
      false_and, or_false]
  | false =>
    simp only [Bool.false_eq_true, if_false, bind_eq_ok, pure_eq_ok, exists_eq_right_right,
      false_and, false_or, true_and]

/-- Clauses are lowered in order. -/
theorem lowerStmt_compound_eq_ok {clauses : List (Clause Stmt)} :
    lowerStmt c (.compound pos clauses) s = .ok (u, s') ↔
      ∃ clauses', lowerClauses c clauses s = .ok (clauses', s') ∧ .compound pos clauses' = u := by
  rw [lowerStmt]
  simp only [bind_eq_ok, pure_eq_ok, exists_eq_right_right]

/-- No statements are lowered to none. -/
theorem lowerAll_nil_eq_ok {us : List Stmt} :
    lowerAll c [] s = .ok (us, s') ↔ [] = us ∧ s = s' := by
  rw [lowerAll, pure_eq_ok]

/-- The first statement is lowered before the others. -/
theorem lowerAll_cons_eq_ok {t : Stmt} {rest us : List Stmt} :
    lowerAll c (t :: rest) s = .ok (us, s') ↔
      ∃ t' s₁, lowerStmt c t s = .ok (t', s₁) ∧
      ∃ rest', lowerAll c rest s₁ = .ok (rest', s') ∧ t' :: rest' = us := by
  rw [lowerAll]
  simp only [bind_eq_ok, pure_eq_ok, exists_eq_right_right]

/-- No clauses are lowered to none. -/
theorem lowerClauses_nil_eq_ok {us : List (Clause Stmt)} :
    lowerClauses c [] s = .ok (us, s') ↔ [] = us ∧ s = s' := by
  rw [lowerClauses, pure_eq_ok]

/-- The head of a clause is lowered before its suite, and that before the other clauses. -/
theorem lowerClauses_cons_eq_ok {head : ClauseHead} {body : List Stmt}
    {rest us : List (Clause Stmt)} :
    lowerClauses c (⟨head, body⟩ :: rest) s = .ok (us, s') ↔
      ∃ head' s₁, lowerIn c head s = .ok (head', s₁) ∧
      ∃ body' s₂, lowerAll c body s₁ = .ok (body', s₂) ∧
      ∃ rest', lowerClauses c rest s₂ = .ok (rest', s') ∧ ⟨head', body'⟩ :: rest' = us := by
  rw [lowerClauses]
  simp only [bind_eq_ok, pure_eq_ok, exists_eq_right_right]

end Runs

/-- Lowering initial values leaves what callers see of parameters. -/
theorem map_of_lowerIn {c : LowerContext} {ps ps' : List (Parameter Expr)} {s s' : LowerState}
    (h : lowerIn c ps s = .ok (ps', s')) :
    ps'.map (fun p => (p.name, p.hint)) = ps.map fun p => (p.name, p.hint) := by
  obtain ⟨es, s₁, -, h⟩ := bind_eq_ok.1 h
  obtain ⟨rfl, -⟩ := pure_eq_ok.1 h
  exact map_refill_parameters ps es

/-- Lowering initial values leaves the signature. -/
theorem signature_of_lowerInitials {c : LowerContext} {params params' : Parameters Expr}
    {s s' : LowerState} (h : lowerInitials c params s = .ok (params', s')) :
    params'.signature = params.signature := by
  obtain ⟨positionalOnly, s₁, hpositionalOnly, positional, s₂, hpositional, keywordOnly,
    hkeywordOnly, rfl⟩ := lowerInitials_eq_ok.1 h
  exact signature_congr (map_of_lowerIn hpositionalOnly) (map_of_lowerIn hpositional) rfl
    (map_of_lowerIn hkeywordOnly) rfl

/-- The parameters of a function are declared in order. -/
theorem forall₂_of_lowerParameters {c : LowerContext} {params : Parameters Expr}
    {typed : List TypedParameter} {s s' : LowerState}
    (h : lowerParameters c params s = .ok (typed, s')) :
    List.Forall₂ (DeclaresParameter c.hints) params.signature typed := by
  refine List.forall₂_map_left_iff.2 (answers_mapM ?_ h)
  rintro ⟨kind, p⟩ - s p' s' h
  obtain ⟨type, s₁, htype, h⟩ := bind_eq_ok.1 h
  obtain ⟨rfl, -⟩ := pure_eq_ok.1 h
  refine ⟨rfl, rfl, fun t => ?_⟩
  cases hhint : p.hint with
  | none =>
    rw [hhint] at htype
    obtain ⟨rfl, -⟩ := pure_eq_ok.1 htype
    simp
  | some hint =>
    rw [hhint, Option.mapM_some, map_eq_pure_bind] at htype
    obtain ⟨u, s₂, hu, htype⟩ := bind_eq_ok.1 htype
    obtain ⟨rfl, -⟩ := pure_eq_ok.1 htype
    obtain ⟨hu, -⟩ := lowerHint_eq_ok.1 hu
    simp [hu]

mutual

/-- Lowering numbers the functions of a statement by their declarations. -/
theorem numberedIn_of_lowerStmt {c : LowerContext} :
    {t t' : Stmt} → {s s' : LowerState} → lowerStmt c t s = .ok (t', s') →
    Unnumbered t.functions → NumberedIn c.hints t'.functions s'.declarations
  | .simple pos t, t', s, s', h, hnone => by
    obtain ⟨t', -, rfl⟩ := lowerStmt_simple_eq_ok.1 h
    exact .of_unnumbered hnone
  | .function pos head body, t', s, s', h, hnone => by
    obtain ⟨decorators, s₁, -, params, s₂, hparams, typed, s₃, htyped, number, s₄, hnumber, body',
      hbody, rfl⟩ := lowerStmt_function_eq_ok.1 h
    have hinner : NumberedIn c.hints (Stmt.allFunctions body') s'.declarations :=
      numberedIn_of_lowerAll (c := c.inside) hbody fun f hf =>
        hnone f (List.mem_cons_of_mem _ hf)
    have hown : NumberedIn c.hints [{ head with decorators, params, decl := some number }]
        s₄.declarations := by
      rintro f hf k hk
      obtain rfl := List.mem_singleton.1 hf
      obtain rfl := Option.some.inj hk
      refine ⟨_, getElem?_of_declare hnumber, ?_⟩
      unfold DeclaresFunction
      rw [signature_of_lowerInitials hparams]
      exact forall₂_of_lowerParameters htyped
    exact .append (hown.mono ((adds_lowerAll _ _).keeps hbody)) hinner
  | .classDef pos head body, t', s, s', h, hnone => by
    obtain ⟨inherited, -, number, -, rfl⟩ | ⟨-, bases, s₁, -, keywords, s₂, -, body', s₃, hbody,
      decorators, hdecorators, rfl⟩ := lowerStmt_classDef_eq_ok.1 h
    · exact .of_unnumbered hnone
    · have hprefix := (adds_lowerIn (N := fun _ => False) _ _).keeps hdecorators
      exact (numberedIn_of_lowerAll hbody hnone).mono hprefix
  | .branch pos test body orelse, t', s, s', h, hnone => by
    have hnone_body : Unnumbered (Stmt.allFunctions body) := fun f hf =>
      hnone f (List.mem_append_left _ hf)
    have hnone_orelse : Unnumbered (Stmt.allFunctions orelse) := fun f hf =>
      hnone f (List.mem_append_right _ hf)
    obtain ⟨-, orelse', horelse, rfl⟩ | ⟨-, test', s₁, -, body', s₂, hbody, orelse', horelse, rfl⟩ :=
      lowerStmt_branch_eq_ok.1 h
    · exact .append (.of_unnumbered hnone_body) (numberedIn_of_lowerAll horelse hnone_orelse)
    · refine .append ?_ (numberedIn_of_lowerAll horelse hnone_orelse)
      have hkept := (adds_lowerAll _ _).keeps horelse
      exact (numberedIn_of_lowerAll hbody hnone_body).mono hkept
  | .compound pos clauses, t', s, s', h, hnone => by
    obtain ⟨clauses', hclauses, rfl⟩ := lowerStmt_compound_eq_ok.1 h
    exact numberedIn_of_lowerClauses hclauses hnone

/-- Lowering numbers the functions of statements by their declarations. -/
theorem numberedIn_of_lowerAll {c : LowerContext} :
    {ts ts' : List Stmt} → {s s' : LowerState} → lowerAll c ts s = .ok (ts', s') →
    Unnumbered (Stmt.allFunctions ts) →
    NumberedIn c.hints (Stmt.allFunctions ts') s'.declarations
  | [], ts', s, s', h, hnone => by
    obtain ⟨rfl, -⟩ := lowerAll_nil_eq_ok.1 h
    exact .of_unnumbered hnone
  | t :: rest, ts', s, s', h, hnone => by
    obtain ⟨t', s₁, ht, rest', hrest, rfl⟩ := lowerAll_cons_eq_ok.1 h
    refine .append ?_ (numberedIn_of_lowerAll hrest fun f hf =>
      hnone f (List.mem_append_right _ hf))
    exact (numberedIn_of_lowerStmt ht fun f hf =>
      hnone f (List.mem_append_left _ hf)).mono ((adds_lowerAll _ _).keeps hrest)

/-- Lowering numbers the functions in clauses by their declarations. -/
theorem numberedIn_of_lowerClauses {c : LowerContext} :
    {clauses clauses' : List (Clause Stmt)} → {s s' : LowerState} →
    lowerClauses c clauses s = .ok (clauses', s') →
    Unnumbered (Stmt.clauseFunctions clauses) →
    NumberedIn c.hints (Stmt.clauseFunctions clauses') s'.declarations
  | [], clauses', s, s', h, hnone => by
    obtain ⟨rfl, -⟩ := lowerClauses_nil_eq_ok.1 h
    exact .of_unnumbered hnone
  | ⟨head, body⟩ :: rest, clauses', s, s', h, hnone => by
    obtain ⟨head', s₁, -, body', s₂, hbody, rest', hrest, rfl⟩ := lowerClauses_cons_eq_ok.1 h
    refine .append ?_ (numberedIn_of_lowerClauses hrest fun f hf =>
      hnone f (List.mem_append_right _ hf))
    exact (numberedIn_of_lowerAll hbody fun f hf =>
      hnone f (List.mem_append_left _ hf)).mono ((adds_lowerClauses _ _).keeps hrest)

end

/-- The functions of a lowered module carry the numbers of their declarations. -/
theorem numberedIn_of_lowerTree {tree : Module} {file : String} {comments : List (Nat × String)}
    {options : Options} {lowered : Lowered}
    (h : lowerTree tree file comments options = .ok lowered)
    (hnone : Unnumbered (Stmt.allFunctions tree)) :
    NumberedIn ⟨lowered.scope, file, none⟩ (Stmt.allFunctions lowered.tree)
      lowered.declarations := by
  unfold lowerTree at h
  obtain ⟨⟨tree', s⟩, htree, h⟩ := Except.bind_eq_ok.1 h
  obtain rfl := Except.ok.inj h
  exact numberedIn_of_lowerAll htree hnone

end Lower

end Typeward
