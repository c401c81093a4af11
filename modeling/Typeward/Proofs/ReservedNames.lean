import Typeward.Proofs.Occurrences

/-!
# Reserved names

The pass that collects the scope of a module reserves every name that stands somewhere in the
module. Names are never given back, and only reserved names are bound.
-/

namespace Typeward

open Slots

namespace Registry

/-- A binding takes the place of one of its name, or is added. -/
theorem mem_putBinding {bindings : List Binding} {b b' : Binding}
    (h : b' ∈ putBinding bindings b) : b' = b ∨ b' ∈ bindings := by
  unfold putBinding at h
  split at h
  · obtain ⟨old, hold, rfl⟩ := List.mem_map.1 h
    split
    · exact .inl rfl
    · exact .inr hold
  · rcases List.mem_append.1 h with h | h
    · exact .inr h
    · exact .inl (List.mem_singleton.1 h)

end Registry

namespace Scope

variable {x : String}

/-- Inserting a name keeps those that are there. -/
theorem mem_insertName {name : String} {reserved : List String} :
    x ∈ insertName reserved name ↔ x = name ∨ x ∈ reserved := by
  unfold insertName
  split
  · rename_i hname
    have hmem : name ∈ reserved := by simpa using hname
    exact ⟨.inr, fun h => h.elim (· ▸ hmem) id⟩
  · exact List.mem_cons

/-- Inserting names keeps those that are there and adds the others. -/
theorem mem_foldl_insertName {names reserved : List String} :
    x ∈ names.foldl insertName reserved ↔ x ∈ names ∨ x ∈ reserved := by
  induction names generalizing reserved with
  | nil => simp
  | cons name rest ih =>
    rw [List.foldl_cons, ih, mem_insertName, List.mem_cons]
    exact ⟨fun h => h.elim (.inl ∘ .inr) fun h => h.elim (.inl ∘ .inl) .inr,
      fun h => h.elim (fun h => h.elim (.inr ∘ .inl) .inl) (.inr ∘ .inr)⟩

/-- A name is reserved if it is among the names to reserve, or was reserved before. -/
theorem mem_reserve {s : Scope} {names : List String} :
    x ∈ (s.reserve names).reserved ↔ x ∈ names ∨ x ∈ s.reserved :=
  mem_foldl_insertName

/-- A name is reserved if it is used in a value, or was reserved before. -/
theorem mem_reserveIn {α : Type} [Slots α] {s : Scope} {a : α} :
    x ∈ (s.reserveIn a).reserved ↔ (∃ e ∈ slots a, x ∈ e.names) ∨ x ∈ s.reserved := by
  rw [reserveIn, mem_reserve, List.mem_flatMap]

/-- A scope keeps its reserved names, and what is bound in it anew is reserved. -/
structure Grows (s s' : Scope) : Prop where
  reserved : ∀ x ∈ s.reserved, x ∈ s'.reserved
  bindings : ∀ b ∈ s'.bindings, b.name ∈ s'.reserved ∨ b.name ∈ s.bindings.map (·.name)

/-- A scope that changes neither what is reserved nor what is bound grows. -/
theorem grows_of_eq {s s' : Scope} (hreserved : s'.reserved = s.reserved)
    (hbindings : s'.bindings = s.bindings) : s.Grows s' where
  reserved := fun _ hx => hreserved ▸ hx
  bindings := fun _ hb => .inr (List.mem_map_of_mem (hbindings ▸ hb))

/-- A scope that grows twice grows. -/
theorem Grows.trans {s s' s'' : Scope} (h : s.Grows s') (h' : s'.Grows s'') : s.Grows s'' where
  reserved := fun x hx => h'.reserved x (h.reserved x hx)
  bindings := by
    intro b hb
    rcases h'.bindings b hb with hb | hb
    · exact .inl hb
    · obtain ⟨b', hb', heq⟩ := List.mem_map.1 hb
      rcases h.bindings b' hb' with hb' | hb'
      · exact .inl (heq ▸ h'.reserved _ hb')
      · exact .inr (heq ▸ hb')

/-- A scope grows into itself. -/
theorem grows_refl (s : Scope) : s.Grows s := grows_of_eq rfl rfl

/-- Reserving names lets a scope grow. -/
theorem grows_reserve (s : Scope) (names : List String) : s.Grows (s.reserve names) where
  reserved := fun _ hx => mem_reserve.2 (.inr hx)
  bindings := fun _ hb => .inr (List.mem_map_of_mem hb)

/-- Reserving what a value uses lets a scope grow. -/
theorem grows_reserveIn {α : Type} [Slots α] (s : Scope) (a : α) : s.Grows (s.reserveIn a) :=
  grows_reserve s _

/-- Binding a reserved name lets a scope grow. -/
theorem grows_bind {s : Scope} (c : ScopeContext) {name : String} (kind : BindingKind)
    (location : Location) (hname : name ∈ s.reserved) : s.Grows (s.bind c name kind location) := by
  unfold bind
  split
  · exact grows_of_eq rfl rfl
  · refine ⟨fun _ hx => hx, fun b hb => ?_⟩
    rcases Registry.mem_putBinding hb with rfl | hb
    · exact .inl hname
    · exact .inr (List.mem_map_of_mem hb)

/-- Collecting with several values in order lets a scope grow if each of them does. -/
theorem grows_foldl {α : Type} {f : Scope → α → Scope} (hf : ∀ s a, Grows s (f s a))
    (s : Scope) (as : List α) : s.Grows (as.foldl f s) := by
  induction as generalizing s with
  | nil => exact grows_refl s
  | cons a rest ih => exact (hf s a).trans (ih (f s a))

/-- What one of several values reserves stays reserved. -/
theorem mem_foldl_reserved {α : Type} {f : Scope → α → Scope} {P : α → Prop}
    (hf : ∀ s a, Grows s (f s a)) (hP : ∀ s a, P a → x ∈ (f s a).reserved) (s : Scope)
    {as : List α} (h : ∃ a ∈ as, P a) : x ∈ (as.foldl f s).reserved := by
  obtain ⟨a, ha, hpa⟩ := h
  induction as generalizing s with
  | nil => simp at ha
  | cons b rest ih =>
    rcases List.mem_cons.1 ha with rfl | ha
    · exact (grows_foldl hf _ rest).reserved x (hP s a hpa)
    · exact ih (f s b) ha

/-- The import of a module reserves its local name. -/
theorem mem_importModule {s : Scope} {c : ScopeContext} {location : Location} {i : ImportName} :
    i.asName.getD (Registry.rootOf i.name) ∈ (s.importModule c location i).reserved ∧
      s.Grows (s.importModule c location i) := by
  have hmodule (s : Scope) (name : String) : s.Grows (s.addModule name) := grows_of_eq rfl rfl
  have hown (s₁ : Scope) (hs₁ : s.Grows s₁) (name : String) (isBound : Bool) :
      name ∈ (if isBound then (s₁.reserve [name]).bind c name .ofModule location
        else s₁.reserve [name]).reserved ∧
      s.Grows (if isBound then (s₁.reserve [name]).bind c name .ofModule location
        else s₁.reserve [name]) := by
    have hname : name ∈ (s₁.reserve [name]).reserved :=
      mem_reserve.2 (.inl (List.mem_singleton_self name))
    have hreserve := hs₁.trans (grows_reserve s₁ [name])
    split
    · have hbind := grows_bind c .ofModule location hname
      exact ⟨hbind.reserved _ hname, hreserve.trans hbind⟩
    · exact ⟨hname, hreserve⟩
  unfold importModule
  cases i.asName with
  | some name =>
    dsimp only [Option.getD_some]
    refine hown _ ?_ name _
    split
    · exact hmodule s name
    · exact grows_refl s
  | none => exact hown _ (grows_foldl hmodule s _) _ _

/-- The import of a name from a module reserves its local name. -/
theorem mem_importName {s : Scope} {c : ScopeContext} {location : Location} {source : String}
    {i : ImportName} :
    (i.name ≠ "*" → i.asName.getD i.name ∈ (s.importName c location source i).reserved) ∧
      s.Grows (s.importName c location source i) := by
  unfold importName
  split
  · rename_i hstar
    exact ⟨fun hne => absurd hstar hne, grows_refl s⟩
  · dsimp only
    have hname : i.asName.getD i.name ∈ (s.reserve [i.asName.getD i.name]).reserved :=
      mem_reserve.2 (.inl (List.mem_singleton_self _))
    have hreserve := grows_reserve s [i.asName.getD i.name]
    repeat' split
    · exact ⟨fun _ => hname, hreserve⟩
    · exact ⟨fun _ => hname, hreserve.trans (grows_of_eq rfl rfl)⟩
    · exact ⟨fun _ => hname, hreserve.trans (grows_of_eq rfl rfl)⟩
    · have hbind := grows_bind c .ofImport location hname
      exact ⟨fun _ => hbind.reserved _ hname, hreserve.trans hbind⟩
    · exact ⟨fun _ => hname, hreserve⟩

/-- An assignment to a name lets a scope grow. -/
theorem grows_assignName (s : Scope) (c : ScopeContext) (name : String) (value : Expr) :
    s.Grows (s.assignName c name value) := by
  unfold assignName
  dsimp only
  refine grows_of_eq ?_ ?_ <;> repeat' split
  all_goals rfl

/-- A class statement reserves the name of the class. -/
theorem mem_defineClass {s : Scope} {c : ScopeContext} {location : Location} {head : ClassHead} :
    head.name ∈ (s.defineClass c location head).reserved ∧
      s.Grows (s.defineClass c location head) := by
  have hname : head.name ∈ (s.reserve [head.name]).reserved :=
    mem_reserve.2 (.inl (List.mem_singleton_self _))
  have hreserve := grows_reserve s [head.name]
  unfold defineClass
  dsimp only
  repeat' split
  · exact ⟨hname, hreserve.trans (grows_of_eq rfl rfl)⟩
  · exact ⟨hname, hreserve.trans (grows_of_eq rfl rfl)⟩
  · have hshadow : (s.reserve [head.name]).Grows ((s.reserve [head.name]).shadow head.name) :=
      grows_of_eq rfl rfl
    have hbind : Grows _ (((s.reserve [head.name]).shadow head.name).bind c head.name .ofClass
      location) := grows_bind c .ofClass location hname
    exact ⟨hbind.reserved _ hname, (hreserve.trans hshadow).trans hbind⟩
  · exact ⟨hname, hreserve⟩

/-- The parameters of a function reserve their names, and those in their hints and initial
values. -/
theorem mem_reserveParameters {s : Scope} {params : Parameters Expr} :
    x ∈ (s.reserveParameters params).reserved ↔
      (∃ e ∈ params.initials, x ∈ e.names) ∨
        (∃ e ∈ params.signature.filterMap (·.2.2), x ∈ e.names) ∨ x ∈ params.names ∨
          x ∈ s.reserved := by
  have hhints : (params.toList.map (·.2)).filterMap (·.hint) =
      params.signature.filterMap (·.2.2) := by
    rw [Parameters.signature, List.filterMap_map, List.filterMap_map]
    rfl
  have hinitials : (params.toList.map (·.2)).filterMap (·.initial) = params.initials := by
    rw [Parameters.initials, List.filterMap_map]
    rfl
  have hnames : (params.toList.map (·.2)).map (·.name) = params.names := by
    rw [Parameters.names, Parameters.signature, List.map_map, List.map_map]
    rfl
  have hslots (es : List Expr) : slots es = es := listSlots_expr es
  unfold reserveParameters
  dsimp only
  rw [mem_reserveIn, mem_reserveIn, mem_reserve, hslots, hslots, hhints, hinitials, hnames]

/-- The parameters of a function let a scope grow. -/
theorem grows_reserveParameters (s : Scope) (params : Parameters Expr) :
    s.Grows (s.reserveParameters params) :=
  ((grows_reserve s _).trans (grows_reserveIn _ _)).trans (grows_reserveIn _ _)

/-- A simple statement lets a scope grow. -/
theorem grows_collectSimple (file : String) (c : ScopeContext) (s : Scope) (pos : Pos)
    (t : Simple) : s.Grows (s.collectSimple file c pos t) := by
  unfold collectSimple
  dsimp only
  split
  · exact grows_foldl (fun s i => mem_importModule.2) s _
  · exact grows_foldl (fun s i => mem_importName.2) s _
  · refine Grows.trans ?_ (grows_reserveIn _ _)
    split
    · exact grows_assignName s c _ _
    · exact grows_refl s
  · refine Grows.trans ?_ (grows_reserveIn _ _)
    split
    · exact grows_of_eq rfl rfl
    · exact grows_refl s
  · exact grows_reserveIn s t

/-- A simple statement reserves the names in its expressions. -/
theorem mem_collectSimple_of_slots {file : String} {c : ScopeContext} {s : Scope} {pos : Pos}
    {t : Simple} {e : Expr} (he : e ∈ slots t) (hx : x ∈ e.names) :
    x ∈ (s.collectSimple file c pos t).reserved := by
  unfold collectSimple
  dsimp only
  split
  · exact absurd he List.not_mem_nil
  · exact absurd he List.not_mem_nil
  · exact mem_reserveIn.2 (.inl ⟨e, he, hx⟩)
  · exact mem_reserveIn.2 (.inl ⟨e, he, hx⟩)
  · exact mem_reserveIn.2 (.inl ⟨e, he, hx⟩)

/-- A simple statement reserves the local names that it imports. -/
theorem mem_collectSimple_of_imported {file : String} {c : ScopeContext} {s : Scope} {pos : Pos}
    {t : Simple} (hx : x ∈ t.imported) : x ∈ (s.collectSimple file c pos t).reserved := by
  cases t with
  | importModules names =>
    obtain ⟨i, hi, rfl⟩ := List.mem_map.1 hx
    refine mem_foldl_reserved (P := fun j => j = i) (fun s i => mem_importModule.2) ?_ s
      ⟨i, hi, rfl⟩
    rintro s j rfl
    exact mem_importModule.1
  | importNames source names level =>
    obtain ⟨i, hi, rfl⟩ := List.mem_map.1 hx
    obtain ⟨hi, hne⟩ := List.mem_filter.1 hi
    refine mem_foldl_reserved (P := fun j => j = i) (fun s i => mem_importName.2) ?_ s
      ⟨i, hi, rfl⟩
    rintro s j rfl
    exact mem_importName.1 (by simpa using hne)
  | _ => exact absurd hx List.not_mem_nil

/-- The header of a clause lets a scope grow. -/
theorem grows_collectHead (s : Scope) (head : ClauseHead) : s.Grows (s.collectHead head) := by
  unfold collectHead
  dsimp only
  split
  · exact (grows_reserveIn s _).trans (grows_reserve _ _)
  · exact (grows_reserveIn s _).trans (grows_reserve _ _)
  · exact grows_reserveIn s _

/-- The header of a clause reserves the names in its expressions. -/
theorem mem_collectHead_of_slots {s : Scope} {head : ClauseHead} {e : Expr}
    (he : e ∈ slots head) (hx : x ∈ e.names) : x ∈ (s.collectHead head).reserved := by
  have hslots : x ∈ (s.reserveIn head).reserved := mem_reserveIn.2 (.inl ⟨e, he, hx⟩)
  unfold collectHead
  dsimp only
  split
  · exact mem_reserve.2 (.inr hslots)
  · exact mem_reserve.2 (.inr hslots)
  · exact hslots

/-- The header of a clause reserves the names that it gives. -/
theorem mem_collectHead_of_captures {s : Scope} {head : ClauseHead} (h : head.Captures x) :
    x ∈ (s.collectHead head).reserved := by
  cases h with
  | handler => exact mem_reserve.2 (.inl (List.mem_singleton_self x))
  | pattern h => exact mem_reserve.2 (.inl h.mem_bound)

mutual

/-- A statement lets a scope grow. -/
theorem grows_collectStmt (file : String) (c : ScopeContext) (s : Scope) :
    (t : Stmt) → s.Grows (collectStmt file c s t)
  | .simple pos t => grows_collectSimple file c s pos t
  | .function pos head body => by
    rw [collectStmt]
    have hname : s.Grows (if c.depth = 0 then (s.reserve [head.name]).shadow head.name
        else s.reserve [head.name]) := by
      refine (grows_reserve s [head.name]).trans ?_
      split
      · exact grows_of_eq rfl rfl
      · exact grows_refl _
    have hparams := hname.trans (grows_reserveParameters _ head.params)
    refine (hparams.trans (grows_reserveIn _ head.returns)).trans ?_
    exact (grows_collectAll file c.inside _ body).trans (grows_reserveIn _ _)
  | .classDef pos head body => by
    rw [collectStmt]
    let s₁ := s.defineClass c (locationOf file pos) head
    have hclass : s.Grows s₁ := mem_defineClass.2
    have hbases := hclass.trans (grows_reserveIn s₁ head.bases)
    refine (hbases.trans (grows_reserveIn _ head.keywords)).trans ?_
    exact (grows_collectAll file c.inside _ body).trans (grows_reserveIn _ _)
  | .branch pos test body orelse => by
    rw [collectStmt]
    exact (grows_reserveIn s test).trans
      ((grows_collectAll file _ _ body).trans (grows_collectAll file c _ orelse))
  | .compound pos clauses => by
    rw [collectStmt]
    exact grows_collectClauses file c s clauses

/-- Statements let a scope grow. -/
theorem grows_collectAll (file : String) (c : ScopeContext) (s : Scope) :
    (ts : List Stmt) → s.Grows (collectAll file c s ts)
  | [] => by
    rw [collectAll]
    exact grows_refl s
  | t :: rest => by
    rw [collectAll]
    exact (grows_collectStmt file c s t).trans (grows_collectAll file c _ rest)

/-- Clauses let a scope grow. -/
theorem grows_collectClauses (file : String) (c : ScopeContext) (s : Scope) :
    (clauses : List (Clause Stmt)) → s.Grows (collectClauses file c s clauses)
  | [] => by
    rw [collectClauses]
    exact grows_refl s
  | ⟨head, body⟩ :: rest => by
    rw [collectClauses]
    exact ((grows_collectHead s head).trans (grows_collectAll file c _ body)).trans
      (grows_collectClauses file c _ rest)

end

mutual

/-- A statement reserves the names that stand in it. -/
theorem mem_collectStmt (file : String) (c : ScopeContext) (s : Scope) :
    (t : Stmt) → t.Mentions x → x ∈ (collectStmt file c s t).reserved
  | .simple pos t, h => by
    rw [collectStmt]
    cases h with
    | expression he h => exact mem_collectSimple_of_slots he h.mem_names
    | target he h => exact h.elim
    | imported h => exact mem_collectSimple_of_imported h
  | .function pos head body, h => by
    rw [collectStmt]
    let s₁ := if c.depth = 0 then (s.reserve [head.name]).shadow head.name
      else s.reserve [head.name]
    have hname : head.name ∈ s₁.reserved := by
      have hmem : head.name ∈ (s.reserve [head.name]).reserved :=
        mem_reserve.2 (.inl (List.mem_singleton_self _))
      simp only [s₁]
      split
      · exact hmem
      · exact hmem
    have hparams := grows_reserveParameters s₁ head.params
    have hreturns := grows_reserveIn (s₁.reserveParameters head.params) head.returns
    have hbody := grows_collectAll file c.inside
      ((s₁.reserveParameters head.params).reserveIn head.returns) body
    have hdecorators := grows_reserveIn (collectAll file c.inside
      ((s₁.reserveParameters head.params).reserveIn head.returns) body) head.decorators
    have hrest := hreturns.trans (hbody.trans hdecorators)
    cases h with
    | function h => exact (hparams.trans hrest).reserved x (h ▸ hname)
    | parameter h =>
      exact hrest.reserved x (mem_reserveParameters.2 (.inr (.inr (.inl h))))
    | @signature pos head body e he h =>
      rcases FunctionHead.mem_expressions.1 he with he | he | he | he
      · exact mem_reserveIn.2 (.inl ⟨e, he, h.mem_names⟩)
      · exact hrest.reserved x (mem_reserveParameters.2 (.inr (.inl ⟨e, he, h.mem_names⟩)))
      · exact hrest.reserved x (mem_reserveParameters.2 (.inl ⟨e, he, h.mem_names⟩))
      · have hslots : e ∈ slots head.returns := mem_slots_option.2 he
        exact (hbody.trans hdecorators).reserved x
          (mem_reserveIn.2 (.inl ⟨e, hslots, h.mem_names⟩))
    | functionBody ht h =>
      exact hdecorators.reserved x (mem_collectAll file c.inside _ body ⟨_, ht, h⟩)
  | .classDef pos head body, h => by
    rw [collectStmt]
    let s₁ := s.defineClass c (locationOf file pos) head
    have hbases := grows_reserveIn s₁ head.bases
    have hkeywords := grows_reserveIn (s₁.reserveIn head.bases) head.keywords
    have hbody := grows_collectAll file c.inside
      ((s₁.reserveIn head.bases).reserveIn head.keywords) body
    have hdecorators := grows_reserveIn (collectAll file c.inside
      ((s₁.reserveIn head.bases).reserveIn head.keywords) body) head.decorators
    have hrest := hbody.trans hdecorators
    cases h with
    | classDef h =>
      exact (hbases.trans (hkeywords.trans hrest)).reserved x (h ▸ mem_defineClass.1)
    | @base pos head body e he h =>
      rcases ClassHead.mem_expressions.1 he with he | he | he
      · exact (hkeywords.trans hrest).reserved x (mem_reserveIn.2 (.inl ⟨e, he, h.mem_names⟩))
      · exact hrest.reserved x (mem_reserveIn.2 (.inl ⟨e, he, h.mem_names⟩))
      · exact mem_reserveIn.2 (.inl ⟨e, he, h.mem_names⟩)
    | classBody ht h =>
      exact hdecorators.reserved x (mem_collectAll file c.inside _ body ⟨_, ht, h⟩)
  | .branch pos test body orelse, h => by
    rw [collectStmt]
    cases h with
    | test h =>
      have htest : x ∈ (s.reserveIn test).reserved :=
        mem_reserveIn.2 (.inl ⟨test, List.mem_singleton_self test, h.mem_names⟩)
      exact ((grows_collectAll file _ _ body).trans
        (grows_collectAll file c _ orelse)).reserved x htest
    | body ht h =>
      exact (grows_collectAll file c _ orelse).reserved x
        (mem_collectAll file _ _ body ⟨_, ht, h⟩)
    | orelse ht h => exact mem_collectAll file c _ orelse ⟨_, ht, h⟩
  | .compound pos clauses, h => by
    rw [collectStmt]
    cases h with
    | header hc he h => exact mem_collectClauses file c s clauses ⟨_, hc, .inl ⟨_, he, h⟩⟩
    | headerTarget hc he h => exact h.elim
    | captured hc h => exact mem_collectClauses file c s clauses ⟨_, hc, .inr (.inl h)⟩
    | clauseBody hc ht h =>
      exact mem_collectClauses file c s clauses ⟨_, hc, .inr (.inr ⟨_, ht, h⟩)⟩

/-- Statements reserve the names that stand in them. -/
theorem mem_collectAll (file : String) (c : ScopeContext) (s : Scope) :
    (ts : List Stmt) → (∃ t ∈ ts, t.Mentions x) → x ∈ (collectAll file c s ts).reserved
  | [], h => by simp at h
  | t :: rest, h => by
    rw [collectAll]
    obtain ⟨u, hu, h⟩ := h
    rcases List.mem_cons.1 hu with heq | hu
    · exact (grows_collectAll file c _ rest).reserved x (mem_collectStmt file c s t (heq ▸ h))
    · exact mem_collectAll file c _ rest ⟨u, hu, h⟩

/-- Clauses reserve the names that stand in their headers and suites. -/
theorem mem_collectClauses (file : String) (c : ScopeContext) (s : Scope) :
    (clauses : List (Clause Stmt)) →
    (∃ d ∈ clauses, (∃ e ∈ slots d.head, e.Mentions x) ∨ d.head.Captures x ∨
      ∃ t ∈ d.body, t.Mentions x) → x ∈ (collectClauses file c s clauses).reserved
  | [], h => by simp at h
  | ⟨head, body⟩ :: rest, h => by
    rw [collectClauses]
    obtain ⟨d, hd, h⟩ := h
    rcases List.mem_cons.1 hd with heq | hd
    · subst heq
      refine (grows_collectClauses file c _ rest).reserved x ?_
      rcases h with ⟨e, he, h⟩ | h | h
      · exact (grows_collectAll file c _ body).reserved x
          (mem_collectHead_of_slots he h.mem_names)
      · exact (grows_collectAll file c _ body).reserved x (mem_collectHead_of_captures h)
      · exact mem_collectAll file c _ body h
    · exact mem_collectClauses file c _ rest ⟨d, hd, h⟩

end

/-- The scope of a module reserves the names that stand in the module. -/
theorem mem_reserved_ofModule {file : String} {m : Module} (h : m.Mentions x) :
    x ∈ (ofModule file m).reserved :=
  mem_collectAll file _ _ m h

/-- The scope of a module binds only names that it reserves. -/
theorem binding_mem_reserved_ofModule {file : String} {m : Module} {b : Binding}
    (hb : b ∈ (ofModule file m).bindings) : b.name ∈ (ofModule file m).reserved := by
  rcases (grows_collectAll file ⟨0, false⟩ {} m).bindings b hb with hb | hb
  · exact hb
  · simp at hb

end Scope

end Typeward
