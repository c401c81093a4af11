import Typeward.Proofs.ModuleOrder
import Typeward.Proofs.ScopedReferences
import Typeward.Proofs.SpecialForms

/-!
# What is collected of a module

One pass over a module notes which names hide a builtin name, which are bound only where type
checkers look, and which are classes and imports. What it notes of a name depends on the statements
that it visits outside of definitions, each in the scope that it has got so far. `Module.visits`
lists them, and a name is noted just if a statement on the list has it in the right way.
-/

namespace Typeward

open Slots

/-- A statement that a pass comes to: where it stands, and the scope so far. -/
structure Visit where
  context : ScopeContext
  scope : Scope
  stmt : Stmt

namespace Scope

/-- The scope in which the suite of a function is visited. -/
def enterFunction (c : ScopeContext) (s : Scope) (head : FunctionHead) : Scope :=
  let s := s.reserve [head.name]
  let s := if c.depth = 0 then s.shadow head.name else s
  (s.reserveParameters head.params).reserveIn head.returns

/-- The scope in which the suite of a class is visited. -/
def enterClass (file : String) (c : ScopeContext) (s : Scope) (pos : Pos) (head : ClassHead) :
    Scope :=
  ((s.defineClass c (locationOf file pos) head).reserveIn head.bases).reserveIn head.keywords

/-- Where the suite of a condition stands. -/
def enterBranch (c : ScopeContext) (s : Scope) (test : Expr) : ScopeContext :=
  if s.isGuard test then { c with guarded := true } else c

mutual

/-- The visits to a statement and to its suites, in order. -/
def visits (file : String) (c : ScopeContext) (s : Scope) : Stmt → List Visit
  | .simple pos t => [⟨c, s, .simple pos t⟩]
  | .function pos head body =>
    ⟨c, s, .function pos head body⟩ :: visitsAll file c.inside (s.enterFunction c head) body
  | .classDef pos head body =>
    ⟨c, s, .classDef pos head body⟩ :: visitsAll file c.inside (s.enterClass file c pos head) body
  | .branch pos test body orelse =>
    ⟨c, s, .branch pos test body orelse⟩ ::
      (visitsAll file (s.enterBranch c test) (s.reserveIn test) body ++
        visitsAll file c (collectAll file (s.enterBranch c test) (s.reserveIn test) body) orelse)
  | .compound pos clauses => ⟨c, s, .compound pos clauses⟩ :: visitsClauses file c s clauses

/-- The visits to statements in order. -/
def visitsAll (file : String) (c : ScopeContext) (s : Scope) : List Stmt → List Visit
  | [] => []
  | t :: rest => visits file c s t ++ visitsAll file c (collectStmt file c s t) rest

/-- The visits to clauses in order. -/
def visitsClauses (file : String) (c : ScopeContext) (s : Scope) :
    List (Clause Stmt) → List Visit
  | [] => []
  | ⟨head, body⟩ :: rest =>
    visitsAll file c (s.collectHead head) body ++
      visitsClauses file c (collectAll file c (s.collectHead head) body) rest

end

/-- What a scope notes of names, but for the special forms and the reserved names. -/
def tables (s : Scope) : List String × List String × List String × List Binding :=
  (s.shadowed, s.typeOnly, s.generics, s.bindings)

end Scope

/-- The local name of an imported module, if it is no special one. -/
def ImportName.plainModule? (i : ImportName) : Option String :=
  if specialModules.contains i.name then none
  else some (i.asName.getD (Registry.rootOf i.name))

/-- The local name of what is imported from a module, if it is nothing special. -/
def ImportName.plainName? (source : String) (i : ImportName) : Option String :=
  if i.name = "*" ∨ source = "__future__" ∨ specialModules.contains source ∨
      specialModules.contains (source ++ "." ++ i.name) then none
  else some (i.asName.getD i.name)

/-- The local names of the modules that a statement imports, and of what it imports from modules,
but for what is special. -/
def Simple.plainImports : Simple → List String
  | .importModules names => names.filterMap ImportName.plainModule?
  | .importNames source names _ => names.filterMap (ImportName.plainName? (source.getD ""))
  | _ => []

/-- The name that an assignment to one name alone is to. -/
def Simple.assigned? : Simple → Option String
  | .assign [.name _ id] _ _ => some id
  | _ => none

/-- The name that is annotated. -/
def Simple.annotated? : Simple → Option String
  | .annotated (.name _ id) .. => some id
  | _ => none

namespace Scope

variable {file : String}

/-- Reserving names notes nothing of them. -/
@[simp]
theorem tables_reserve (s : Scope) (names : List String) : (s.reserve names).tables = s.tables :=
  rfl

/-- Reserving what a value uses notes nothing of it. -/
@[simp]
theorem tables_reserveIn {α : Type} [Slots α] (s : Scope) (a : α) :
    (s.reserveIn a).tables = s.tables :=
  rfl

/-- What is bound depends only on what was noted before. -/
theorem tables_bind {s s' : Scope} (h : s'.tables = s.tables) (c : ScopeContext) (name : String)
    (kind : BindingKind) (location : Location) :
    (s'.bind c name kind location).tables = (s.bind c name kind location).tables := by
  simp only [tables, Prod.mk.injEq] at h
  obtain ⟨hshadowed, htypeOnly, hgenerics, hbindings⟩ := h
  unfold bind
  split
  · simp [tables, addTypeOnly, hshadowed, htypeOnly, hgenerics, hbindings]
  · simp [tables, hshadowed, htypeOnly, hgenerics, hbindings]

/-- The import of a module binds its local name outside of definitions, if it is no special one. -/
theorem tables_importModule (s : Scope) (c : ScopeContext) (location : Location) (i : ImportName) :
    (s.importModule c location i).tables =
      match i.plainModule? with
      | some name => if c.depth = 0 then (s.bind c name .ofModule location).tables else s.tables
      | none => s.tables := by
  have hown (s₁ : Scope) (h : s₁.tables = s.tables) (name : String) :
      (if c.depth = 0 && ! Typeward.specialModules.contains i.name then
        (s₁.reserve [name]).bind c name .ofModule location else s₁.reserve [name]).tables =
      match if Typeward.specialModules.contains i.name then none else some name with
      | some name => if c.depth = 0 then (s.bind c name .ofModule location).tables else s.tables
      | none => s.tables := by
    have hreserved : (s₁.reserve [name]).tables = s.tables := h
    cases Typeward.specialModules.contains i.name with
    | true => simpa using hreserved
    | false =>
      by_cases hdepth : c.depth = 0
      · simpa [hdepth] using tables_bind hreserved c name .ofModule location
      · simpa [hdepth] using hreserved
  unfold importModule ImportName.plainModule?
  cases i.asName with
  | some name =>
    refine hown _ ?_ name
    split <;> rfl
  | none =>
    refine hown _ ?_ _
    exact List.foldlRecOn (motive := fun s₁ : Scope => s₁.tables = s.tables) _ _ rfl
      fun _ h _ _ => h

/-- The import of a name from a module binds the local one outside of definitions, if it is nothing
special. -/
theorem tables_importName (s : Scope) (c : ScopeContext) (location : Location) (source : String)
    (i : ImportName) :
    (s.importName c location source i).tables =
      match i.plainName? source with
      | some name => if c.depth = 0 then (s.bind c name .ofImport location).tables else s.tables
      | none => s.tables := by
  have hreserved : (s.reserve [i.asName.getD i.name]).tables = s.tables := rfl
  unfold importName ImportName.plainName?
  by_cases hstar : i.name = "*"
  · simp [hstar]
  by_cases hfuture : source = "__future__"
  · simp [hstar, hfuture, hreserved]
  by_cases hsource : Typeward.specialModules.contains source
  · simp only [hstar, hfuture, hsource, if_true, if_false, false_or, true_or]
    exact hreserved
  by_cases hmodule : Typeward.specialModules.contains (source ++ "." ++ i.name)
  · simp only [hstar, hfuture, hsource, hmodule, if_true, if_false, or_true, Bool.false_eq_true]
    exact hreserved
  by_cases hdepth : c.depth = 0
  · simp only [hstar, hfuture, hsource, hmodule, hdepth, if_true, if_false, or_self,
      Bool.false_eq_true]
    exact tables_bind hreserved c _ .ofImport location
  · simp only [hstar, hfuture, hsource, hmodule, hdepth, if_false, or_self, Bool.false_eq_true]
    exact hreserved

/-- Entering a function outside of definitions notes that its name hides a builtin one. -/
theorem tables_enterFunction (c : ScopeContext) (s : Scope) (head : FunctionHead) :
    (s.enterFunction c head).tables =
      (if c.depth = 0 then s.shadow head.name else s).tables := by
  rw [enterFunction, tables_reserveIn, reserveParameters]
  simp only [tables_reserveIn, tables_reserve]
  by_cases hdepth : c.depth = 0
  · simp only [hdepth, if_true]
    rfl
  · simp only [hdepth, if_false]
    rfl

/-- Which classes are records does not depend on what names hide builtin ones. -/
theorem isRecord_shadow (s : Scope) (name : String) (bases : List Expr) :
    (s.shadow name).isRecord bases = s.isRecord bases := by
  have hmarker (base : Expr) : ((s.shadow name).canonical base == some "TypedDict") =
      (s.canonical base == some "TypedDict") := by
    have hform : "TypedDict" ∉ builtinTypeNames := by decide
    have hforms : (s.shadow name).forms = s.forms := rfl
    rw [Bool.eq_iff_iff, beq_iff_eq, beq_iff_eq]
    exact ⟨canonical_of_forms_eq hforms hform, canonical_of_forms_eq hforms.symm hform⟩
  unfold isRecord
  simp only [hmarker]
  rfl

/-- Entering a class outside of definitions notes that its name hides a builtin one and, if it is no
record, that it is bound. -/
theorem tables_enterClass (file : String) (c : ScopeContext) (s : Scope) (pos : Pos)
    (head : ClassHead) :
    (s.enterClass file c pos head).tables =
      (if c.depth ≠ 0 then s
      else if c.guarded then (s.shadow head.name).addTypeOnly head.name
      else if s.isRecord head.bases then s.shadow head.name
      else (s.shadow head.name).bind c head.name .ofClass (locationOf file pos)).tables := by
  have hreserved : (s.reserve [head.name]).isRecord head.bases = s.isRecord head.bases := rfl
  rw [enterClass, tables_reserveIn, tables_reserveIn, defineClass]
  by_cases hdepth : c.depth = 0
  · simp only [hdepth, if_true, ne_eq, not_true_eq_false, if_false, isRecord_shadow, hreserved]
    by_cases hguarded : c.guarded = true
    · simp only [hguarded, if_true]
      rfl
    · simp only [hguarded, Bool.false_eq_true, if_false]
      by_cases hrecord : s.isRecord head.bases = true
      · simp only [hrecord, if_true]
        rfl
      · simp only [hrecord, Bool.false_eq_true, if_false]
        have hsame : ((s.reserve [head.name]).shadow head.name).tables =
            (s.shadow head.name).tables := rfl
        exact tables_bind hsame c ..
  · simp only [hdepth, if_false, ne_eq, not_false_eq_true, if_true]
    rfl

/-- How a condition on scopes changes with the notes that a pass makes: when a name is bound,
assigned, annotated, or made to hide a builtin one. -/
structure Changes (T : Scope → Prop)
    (Binds Assigned Annotated Hides : ScopeContext → String → Prop) : Prop where
  tables {s s' : Scope} (h : s'.tables = s.tables) : T s' ↔ T s
  bind (c s x kind location) : T (bind s c x kind location) ↔ T s ∨ Binds c x
  assign (c s x value) : T (assignName s c x value) ↔ T s ∨ Assigned c x
  annotate (c s x) : T (if c.guarded then addTypeOnly s x else s) ↔ T s ∨ Annotated c x
  hide (c s x) : T (shadow s x) ↔ T s ∨ Hides c x

end Scope

/-- A visit to a statement outside of definitions makes one of the notes. -/
def Visit.Notes (Binds Assigned Annotated Hides : ScopeContext → String → Prop) (v : Visit) :
    Prop :=
  v.context.depth = 0 ∧
    match v.stmt with
    | .simple _ t => (∃ x ∈ t.assigned?, Assigned v.context x) ∨
        (∃ x ∈ t.annotated?, Annotated v.context x) ∨ ∃ x ∈ t.plainImports, Binds v.context x
    | .function _ head _ => Hides v.context head.name
    | .classDef _ head _ => Hides v.context head.name ∨
        if v.context.guarded then Annotated v.context head.name
        else v.scope.isRecord head.bases = false ∧ Binds v.context head.name
    | .branch .. | .compound .. => False

namespace Scope.Changes

variable {file : String} {T : Scope → Prop}
  {Binds Assigned Annotated Hides : ScopeContext → String → Prop}

/-- Imports change a condition by the names that they bind, one after the other. -/
theorem foldl_imports (h : Changes T Binds Assigned Annotated Hides) {c : ScopeContext}
    {kind : BindingKind} {location : Location} {step : Scope → ImportName → Scope}
    {name? : ImportName → Option String}
    (hstep : ∀ s i, (step s i).tables =
      match name? i with
      | some x => if c.depth = 0 then (s.bind c x kind location).tables else s.tables
      | none => s.tables)
    (s : Scope) (names : List ImportName) :
    T (names.foldl step s) ↔ T s ∨ c.depth = 0 ∧ ∃ x ∈ names.filterMap name?, Binds c x := by
  induction names generalizing s with
  | nil => simp
  | cons i rest ih =>
    have htables := hstep s i
    rw [List.foldl_cons, ih]
    cases hname : name? i with
    | none =>
      simp only [hname] at htables
      rw [List.filterMap_cons_none hname, h.tables htables]
    | some x =>
      simp only [hname] at htables
      rw [List.filterMap_cons_some hname]
      by_cases hdepth : c.depth = 0
      · rw [if_pos hdepth] at htables
        simp [hdepth, h.tables htables, h.bind, or_assoc]
      · rw [if_neg hdepth] at htables
        simp [hdepth, h.tables htables]

/-- A simple statement changes a condition by what it assigns, annotates or imports. -/
theorem simple (h : Changes T Binds Assigned Annotated Hides) (c : ScopeContext) (s : Scope)
    (pos : Pos) (t : Simple) :
    T (collectSimple file c s pos t) ↔
      T s ∨ Visit.Notes Binds Assigned Annotated Hides ⟨c, s, .simple pos t⟩ := by
  have hreserved {α : Type} [Slots α] (s : Scope) (a : α) : T (s.reserveIn a) ↔ T s := h.tables rfl
  unfold Visit.Notes collectSimple
  dsimp only
  split
  · rename_i names
    have hnames := h.foldl_imports
      (fun s i => s.tables_importModule c (locationOf file pos) i) s names
    simpa [Simple.assigned?, Simple.annotated?, Simple.plainImports] using hnames
  · rename_i source names level
    have hnames := h.foldl_imports
      (fun s i => s.tables_importName c (locationOf file pos) (source.getD "") i) s names
    simpa [Simple.assigned?, Simple.annotated?, Simple.plainImports] using hnames
  · rename_i p x value decl
    rw [hreserved]
    by_cases hdepth : c.depth = 0
    · simp [hdepth, h.assign, Simple.assigned?, Simple.annotated?, Simple.plainImports]
    · simp [hdepth]
  · rename_i p x hint value bare decl
    rw [hreserved]
    by_cases hdepth : c.depth = 0
    · have hown := h.annotate c s x
      simpa [hdepth, Simple.assigned?, Simple.annotated?, Simple.plainImports] using hown
    · simp [hdepth]
  · rename_i hmodules hnames hassigned hannotated
    rw [hreserved]
    have hnone : t.assigned? = none ∧ t.annotated? = none ∧ t.plainImports = [] := by
      refine ⟨?_, ?_, ?_⟩
      · unfold Simple.assigned?
        split
        · exact absurd rfl (hassigned _ _ _ _)
        · rfl
      · unfold Simple.annotated?
        split
        · exact absurd rfl (hannotated _ _ _ _ _ _)
        · rfl
      · unfold Simple.plainImports
        split
        · exact absurd rfl (hmodules _)
        · exact absurd rfl (hnames _ _ _)
        · rfl
    simp [hnone]

/-- Entering a function changes a condition by the name of the function. -/
theorem function (h : Changes T Binds Assigned Annotated Hides) (c : ScopeContext) (s : Scope)
    (pos : Pos) (head : FunctionHead) (body : List Stmt) :
    T (s.enterFunction c head) ↔
      T s ∨ Visit.Notes Binds Assigned Annotated Hides ⟨c, s, .function pos head body⟩ := by
  rw [h.tables (tables_enterFunction c s head), Visit.Notes]
  by_cases hdepth : c.depth = 0
  · simp [hdepth, h.hide c]
  · simp [hdepth]

/-- Entering a class changes a condition by the name of the class. -/
theorem classDef (h : Changes T Binds Assigned Annotated Hides) (c : ScopeContext) (s : Scope)
    (pos : Pos) (head : ClassHead) (body : List Stmt) :
    T (s.enterClass file c pos head) ↔
      T s ∨ Visit.Notes Binds Assigned Annotated Hides ⟨c, s, .classDef pos head body⟩ := by
  rw [h.tables (tables_enterClass file c s pos head), Visit.Notes]
  by_cases hdepth : c.depth = 0
  · by_cases hguarded : c.guarded = true
    · have hnote := h.annotate c (s.shadow head.name) head.name
      rw [if_pos hguarded] at hnote
      simp [hdepth, hguarded, hnote, h.hide c, or_assoc]
    · by_cases hrecord : s.isRecord head.bases = true
      · simp [hdepth, hguarded, hrecord, h.hide c]
      · simp [hdepth, hguarded, hrecord, h.bind, h.hide c, or_assoc]
  · simp [hdepth]

mutual

/-- A statement changes a condition by the notes that visits make. -/
theorem collectStmt_iff (h : Changes T Binds Assigned Annotated Hides) (c : ScopeContext)
    (s : Scope) : (t : Stmt) → (T (collectStmt file c s t) ↔
      T s ∨ ∃ v ∈ visits file c s t, v.Notes Binds Assigned Annotated Hides)
  | .simple pos t => by
    rw [collectStmt, h.simple c s pos t, visits]
    simp
  | .function pos head body => by
    have hdecorators : T (collectStmt file c s (.function pos head body)) ↔
        T (collectAll file c.inside (s.enterFunction c head) body) := by
      rw [collectStmt]
      exact h.tables rfl
    rw [hdecorators, collectAll_iff h, h.function c s pos head body, visits, or_assoc]
    simp
  | .classDef pos head body => by
    have hdecorators : T (collectStmt file c s (.classDef pos head body)) ↔
        T (collectAll file c.inside (s.enterClass file c pos head) body) := by
      rw [collectStmt]
      exact h.tables rfl
    rw [hdecorators, collectAll_iff h, h.classDef c s pos head body, visits, or_assoc]
    simp
  | .branch pos test body orelse => by
    have htest : T (s.reserveIn test) ↔ T s := h.tables rfl
    have hbranch : collectStmt file c s (.branch pos test body orelse) =
        collectAll file c (collectAll file (s.enterBranch c test) (s.reserveIn test) body)
          orelse := by
      rw [collectStmt]
      rfl
    rw [hbranch, collectAll_iff h, collectAll_iff h, htest, visits, or_assoc]
    simp [Visit.Notes, or_and_right, exists_or]
  | .compound pos clauses => by
    rw [collectStmt, collectClauses_iff h, visits]
    simp [Visit.Notes]

/-- Statements change a condition by the notes that visits make. -/
theorem collectAll_iff (h : Changes T Binds Assigned Annotated Hides) (c : ScopeContext)
    (s : Scope) : (ts : List Stmt) → (T (collectAll file c s ts) ↔
      T s ∨ ∃ v ∈ visitsAll file c s ts, v.Notes Binds Assigned Annotated Hides)
  | [] => by simp [collectAll, visitsAll]
  | t :: rest => by
    rw [collectAll, collectAll_iff h, collectStmt_iff h, visitsAll, or_assoc]
    simp [or_and_right, exists_or]

/-- Clauses change a condition by the notes that visits make. -/
theorem collectClauses_iff (h : Changes T Binds Assigned Annotated Hides) (c : ScopeContext)
    (s : Scope) : (clauses : List (Clause Stmt)) → (T (collectClauses file c s clauses) ↔
      T s ∨ ∃ v ∈ visitsClauses file c s clauses, v.Notes Binds Assigned Annotated Hides)
  | [] => by simp [collectClauses, visitsClauses]
  | ⟨head, body⟩ :: rest => by
    have hhead : T (s.collectHead head) ↔ T s := by
      apply h.tables
      unfold collectHead
      dsimp only
      split <;> rfl
    rw [collectClauses, collectClauses_iff h, collectAll_iff h, hhead, visitsClauses, or_assoc]
    simp [or_and_right, exists_or]

end

end Scope.Changes

namespace Scope

/-- An assignment to a name notes that it hides a builtin one and, if only type checkers see it,
that it has no value. -/
theorem noted_assignName (s : Scope) (c : ScopeContext) (x : String) (value : Expr) :
    (s.assignName c x value).shadowed = insertName s.shadowed x ∧
      (s.assignName c x value).typeOnly =
        if c.guarded then insertName s.typeOnly x else s.typeOnly := by
  unfold assignName
  dsimp only
  repeat' split
  all_goals exact ⟨rfl, rfl⟩

/-- A binding of a name is there after one is put in just if it was there, or is the one. -/
theorem any_putBinding (n : String) (bindings : List Binding) (b : Binding) :
    (Registry.putBinding bindings b).any (·.name == n) = true ↔
      bindings.any (·.name == n) = true ∨ n = b.name := by
  have hfound := Registry.find?_putBinding bindings b n
  rw [← List.isSome_find?, ← List.isSome_find?, hfound]
  by_cases hname : b.name = n
  · simp [hname]
  · simp [hname, Ne.symm hname]

/-- Whether a name hides a builtin one changes when it is assigned or made to hide one. -/
theorem changes_shadowed (n : String) : Changes (fun s => n ∈ s.shadowed) (fun _ _ => False)
    (fun _ x => n = x) (fun _ _ => False) fun _ x => n = x where
  tables h := iff_of_eq (congrArg (fun tables => n ∈ tables.1) h)
  bind c s x kind location := by
    unfold bind
    split <;> simp [addTypeOnly]
  assign c s x value := by rw [(noted_assignName s c x value).1, mem_insertName, or_comm]
  annotate c s x := by split <;> simp [addTypeOnly]
  hide c s x := by rw [shadow, mem_insertName, or_comm]

/-- Whether a name has no value when the module runs changes when it is bound, assigned or annotated
where only type checkers look. -/
theorem changes_typeOnly (n : String) : Changes (fun s => n ∈ s.typeOnly)
    (fun c x => c.guarded = true ∧ n = x) (fun c x => c.guarded = true ∧ n = x)
    (fun c x => c.guarded = true ∧ n = x) fun _ _ => False where
  tables h := iff_of_eq (congrArg (fun tables => n ∈ tables.2.1) h)
  bind c s x kind location := by
    unfold bind
    split <;> rename_i hguarded <;> simp [hguarded, addTypeOnly, mem_insertName, or_comm]
  assign c s x value := by
    rw [(noted_assignName s c x value).2]
    split <;> rename_i hguarded <;> simp [hguarded, mem_insertName, or_comm]
  annotate c s x := by
    split <;> rename_i hguarded <;> simp [hguarded, addTypeOnly, mem_insertName, or_comm]
  hide c s x := by simp [shadow]

/-- Whether a name is that of a class or an import changes when it is bound where not only type
checkers look. -/
theorem changes_bindings (n : String) : Changes (fun s => s.bindings.any (·.name == n) = true)
    (fun c x => c.guarded = false ∧ n = x) (fun _ _ => False) (fun _ _ => False)
    fun _ _ => False where
  tables h := iff_of_eq (congrArg (fun tables => tables.2.2.2.any (·.name == n) = true) h)
  bind c s x kind location := by
    unfold bind
    split <;> rename_i hguarded
    · simp [hguarded, addTypeOnly]
    · rw [any_putBinding]
      simp [hguarded]
  assign c s x value := by rw [bindings_assignName, or_false]
  annotate c s x := by split <;> simp [addTypeOnly]
  hide c s x := by simp [shadow]

end Scope

/-- The names that a statement hides builtin names by. -/
def Stmt.hidden : Stmt → List String
  | .function _ head _ => [head.name]
  | .classDef _ head _ => [head.name]
  | .simple _ t => t.assigned?.toList
  | .branch .. | .compound .. => []

/-- The names that have no value when the module runs if only type checkers see the statement. -/
def Stmt.given : Stmt → List String
  | .classDef _ head _ => [head.name]
  | .simple _ t => t.assigned?.toList ++ t.annotated?.toList ++ t.plainImports
  | .function .. | .branch .. | .compound .. => []

/-- The classes that are no records, and the imports that are nothing special. -/
def Visit.bound (v : Visit) : List String :=
  match v.stmt with
  | .classDef _ head _ => if v.scope.isRecord head.bases then [] else [head.name]
  | .simple _ t => t.plainImports
  | .function .. | .branch .. | .compound .. => []

namespace Module

/-- The statements that a pass over a module comes to. -/
def visits (file : String) (m : Module) : List Visit := Scope.visitsAll file ⟨0, false⟩ {} m

/-- Outside of definitions, a function or a class has a name, or it is assigned alone. -/
def HidesBuiltin (file : String) (m : Module) (n : String) : Prop :=
  ∃ v ∈ visits file m, v.context.depth = 0 ∧ n ∈ v.stmt.hidden

/-- Outside of definitions and where only type checkers look, a class has a name, or it is assigned
alone, annotated, or imported as nothing special. -/
def BindsGuarded (file : String) (m : Module) (n : String) : Prop :=
  ∃ v ∈ visits file m, v.context.depth = 0 ∧ v.context.guarded = true ∧ n ∈ v.stmt.given

/-- Outside of definitions and where not only type checkers look, a class that is no record has a
name, or it is imported as nothing special. -/
def BindsUnguarded (file : String) (m : Module) (n : String) : Prop :=
  ∃ v ∈ visits file m, v.context.depth = 0 ∧ v.context.guarded = false ∧ n ∈ v.bound

/-- A name is bound where only type checkers look, and by no class or import elsewhere. -/
def Erases (file : String) (m : Module) (n : String) : Prop :=
  m.BindsGuarded file n ∧ ¬ m.BindsUnguarded file n

end Module

section Modules

variable (file : String) (m : Module) (n : String)

/-- A name hides a builtin one just if a statement of the module hides it. -/
theorem mem_shadowed_ofModule :
    n ∈ (Scope.ofModule file m).shadowed ↔ m.HidesBuiltin file n := by
  have hnotes (v : Visit) : v.Notes (fun _ _ => False) (fun _ x => n = x) (fun _ _ => False)
      (fun _ x => n = x) ↔ v.context.depth = 0 ∧ n ∈ v.stmt.hidden := by
    obtain ⟨c, s, t⟩ := v
    cases t <;> simp [Visit.Notes, Stmt.hidden]
  rw [Scope.ofModule, (Scope.changes_shadowed n).collectAll_iff]
  simp only [List.not_mem_nil, false_or, hnotes]
  rfl

/-- A name is among those that are bound where only type checkers look just if a statement of the
module binds it there. -/
theorem mem_typeOnly_ofModule :
    n ∈ (Scope.ofModule file m).typeOnly ↔ m.BindsGuarded file n := by
  have hnotes (v : Visit) : v.Notes (fun c x => c.guarded = true ∧ n = x)
      (fun c x => c.guarded = true ∧ n = x) (fun c x => c.guarded = true ∧ n = x)
      (fun _ _ => False) ↔
        v.context.depth = 0 ∧ v.context.guarded = true ∧ n ∈ v.stmt.given := by
    obtain ⟨c, s, t⟩ := v
    cases hguarded : c.guarded <;> cases t <;>
      simp [Visit.Notes, Stmt.given, hguarded]
  rw [Scope.ofModule, (Scope.changes_typeOnly n).collectAll_iff]
  simp only [List.not_mem_nil, false_or, hnotes]
  rfl

/-- A name is that of a class or an import just if it is bound where not only type checkers look. -/
theorem any_bindings_ofModule :
    (Scope.ofModule file m).bindings.any (·.name == n) = true ↔ m.BindsUnguarded file n := by
  have hnotes (v : Visit) : v.Notes (fun c x => c.guarded = false ∧ n = x) (fun _ _ => False)
      (fun _ _ => False) (fun _ _ => False) ↔
        v.context.depth = 0 ∧ v.context.guarded = false ∧ n ∈ v.bound := by
    obtain ⟨c, s, t⟩ := v
    cases hguarded : c.guarded <;> cases t <;>
      simp [Visit.Notes, Visit.bound, hguarded]
  rw [Scope.ofModule, (Scope.changes_bindings n).collectAll_iff]
  simp only [List.any_nil, Bool.false_eq_true, false_or, hnotes]
  rfl

/-- A name, possibly with dots, has no value when the module runs just if its root is bound where
only type checkers look and no class or import binds it elsewhere. -/
theorem isTypeOnly_ofModule (name : String) :
    (Scope.ofModule file m).isTypeOnly name = true ↔ m.Erases file (Registry.rootOf name) := by
  rw [Scope.isTypeOnly, Bool.and_eq_true, List.contains_iff_mem, mem_typeOnly_ofModule,
    Module.Erases, ← any_bindings_ofModule]
  simp

/-- A name, possibly with dots, has a value when the module runs unless its root is erased. -/
theorem isTypeOnly_ofModule_eq_false (name : String) :
    (Scope.ofModule file m).isTypeOnly name = false ↔ ¬ m.Erases file (Registry.rootOf name) := by
  rw [← isTypeOnly_ofModule, Bool.not_eq_true]

end Modules

end Typeward
