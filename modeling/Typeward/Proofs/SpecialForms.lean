import Typeward.Proofs.Nodes
import Typeward.Proofs.ReservedNames

/-!
# What special forms are called

The local names of special forms and of the modules that export them depend on the imports of a
module, taken in source order, and on nothing else in it. So does which special form an expression
refers to, but for the builtin types, which other statements can hide.
-/

namespace Typeward

open Slots

/-- The statement that imports something, if a node is one. -/
def Stmt.import? : Stmt → Option Simple
  | .simple _ (.importModules names) => some (.importModules names)
  | .simple _ (.importNames source names level) => some (.importNames source names level)
  | _ => none

/-- The imports in a suite and in the suites of its members, in source order. -/
def Stmt.imports (ts : List Stmt) : List Simple := (allNodes ts).filterMap import?

/-- The imports in suites after each other are those in both. -/
theorem Stmt.imports_append (ts us : List Stmt) :
    imports (ts ++ us) = imports ts ++ imports us := by
  induction ts with
  | nil => rfl
  | cons t rest ih =>
    have hcons (rest : List Stmt) :
        imports (t :: rest) = t.nodes.filterMap import? ++ imports rest :=
      List.filterMap_append
    rw [List.cons_append, hcons, hcons, ih, List.append_assoc]

/-- The local names of special forms, the latest first, and of the modules that export them. -/
structure Forms where
  names : List (String × String)
  modules : List String

namespace Forms

/-- The names after the import of a module. -/
def importModule (f : Forms) (i : ImportName) : Forms :=
  match i.asName with
  | some name =>
    if specialModules.contains i.name then { f with modules := insertName f.modules name } else f
  | none =>
    let below (m : String) : Bool := m == i.name || m.startsWith (i.name ++ ".")
    { f with modules := (specialModules.filter below).foldl insertName f.modules }

/-- The names after the import of a name from a module. -/
def importName (source : String) (f : Forms) (i : ImportName) : Forms :=
  let name := i.asName.getD i.name
  if i.name = "*" ∨ source = "__future__" then f
  else if specialModules.contains source then { f with names := (name, i.name) :: f.names }
  else if specialModules.contains (source ++ "." ++ i.name) then
    { f with modules := insertName f.modules name }
  else f

/-- The names after a statement. -/
def take (f : Forms) : Simple → Forms
  | .importModules names => names.foldl importModule f
  | .importNames source names _ => names.foldl (importName (source.getD "")) f
  | _ => f

end Forms

namespace Scope

/-- What a scope calls special forms and the modules that export them. -/
def forms (s : Scope) : Forms := ⟨s.specialNames, s.specialModules⟩

/-- Scopes that call special forms alike find the same special form, if it is no builtin type. -/
theorem canonical_of_forms_eq {s s' : Scope} (h : s.forms = s'.forms) {form : String}
    (hform : form ∉ builtinTypeNames) {e : Expr} (he : s.canonical e = some form) :
    s'.canonical e = some form := by
  obtain ⟨hnames, hmodules⟩ := Forms.mk.inj h
  match e, he with
  | .name pos id, he =>
    simp only [canonical, ← hnames] at he ⊢
    cases hlookup : s.specialNames.lookup id with
    | some special => rwa [hlookup] at he
    | none =>
      simp only [hlookup] at he
      split at he
      · rename_i hbuiltin
        obtain rfl := Option.some.inj he
        rw [Bool.and_eq_true, List.contains_iff_mem] at hbuiltin
        exact absurd hbuiltin.1 hform
      · cases he
  | .attribute pos base attr, he =>
    simpa only [canonical, ← hmodules] using he

/-- Reserving names keeps the names of special forms. -/
@[simp] theorem forms_reserve (s : Scope) (names : List String) :
    (s.reserve names).forms = s.forms :=
  rfl

/-- Reserving what a value uses keeps the names of special forms. -/
@[simp] theorem forms_reserveIn {α : Type} [Slots α] (s : Scope) (a : α) :
    (s.reserveIn a).forms = s.forms :=
  rfl

/-- Hiding a builtin name keeps the names of special forms. -/
@[simp] theorem forms_shadow (s : Scope) (name : String) : (s.shadow name).forms = s.forms := rfl

/-- The parameters of a function keep the names of special forms. -/
@[simp] theorem forms_reserveParameters (s : Scope) (params : Parameters Expr) :
    (s.reserveParameters params).forms = s.forms := by
  simp only [reserveParameters, forms_reserveIn, forms_reserve]

/-- Binding a name keeps the names of special forms. -/
theorem forms_bind (s : Scope) (c : ScopeContext) (name : String) (kind : BindingKind)
    (location : Location) : (s.bind c name kind location).forms = s.forms := by
  unfold bind
  split <;> rfl

/-- An assignment keeps the names of special forms. -/
theorem forms_assignName (s : Scope) (c : ScopeContext) (name : String) (value : Expr) :
    (s.assignName c name value).forms = s.forms := by
  unfold assignName
  dsimp only
  repeat' split
  all_goals rfl

/-- A class statement keeps the names of special forms. -/
theorem forms_defineClass (s : Scope) (c : ScopeContext) (location : Location) (head : ClassHead) :
    (s.defineClass c location head).forms = s.forms := by
  unfold defineClass
  dsimp only
  repeat' split
  · rfl
  · rfl
  · exact forms_bind ..
  · rfl

/-- The header of a clause keeps the names of special forms. -/
theorem forms_collectHead (s : Scope) (head : ClauseHead) :
    (s.collectHead head).forms = s.forms := by
  unfold collectHead
  dsimp only
  split <;> rfl

/-- The import of a module changes the names of special forms as it says. -/
theorem forms_importModule (s : Scope) (c : ScopeContext) (location : Location) (i : ImportName) :
    (s.importModule c location i).forms = s.forms.importModule i := by
  have hmodules (modules : List String) (s : Scope) :
      (modules.foldl addModule s).forms =
        ⟨s.specialNames, modules.foldl insertName s.specialModules⟩ := by
    induction modules generalizing s with
    | nil => rfl
    | cons m rest ih => exact ih (s.addModule m)
  have hrest (s₁ : Scope) (name : String) (isBound : Bool) :
      (if isBound then (s₁.reserve [name]).bind c name .ofModule location
        else s₁.reserve [name]).forms = s₁.forms := by
    split
    · exact forms_bind ..
    · rfl
  unfold importModule Forms.importModule
  cases i.asName with
  | some name =>
    refine (hrest _ name _).trans ?_
    dsimp only
    split <;> rfl
  | none => exact (hrest _ _ _).trans (hmodules _ s)

/-- The import of a name changes the names of special forms as it says. -/
theorem forms_importName (s : Scope) (c : ScopeContext) (location : Location) (source : String)
    (i : ImportName) : (s.importName c location source i).forms = s.forms.importName source i := by
  unfold importName Forms.importName
  by_cases hstar : i.name = "*"
  · rw [if_pos hstar, if_pos (Or.inl hstar)]
  · by_cases hfuture : source = "__future__"
    · subst hfuture
      rw [if_neg hstar, if_pos (Or.inr rfl)]
      dsimp only
      rw [if_pos rfl, forms_reserve]
    · rw [if_neg hstar, if_neg (not_or.2 ⟨hstar, hfuture⟩)]
      dsimp only
      rw [if_neg hfuture]
      repeat' split
      · rfl
      · rfl
      · exact forms_bind ..
      · rfl

/-- A simple statement changes the names of special forms only if it is an import. -/
theorem forms_collectSimple (file : String) (c : ScopeContext) (s : Scope) (pos : Pos)
    (t : Simple) : (s.collectSimple file c pos t).forms = s.forms.take t := by
  have hfoldl {f : Scope → ImportName → Scope} {g : Forms → ImportName → Forms}
      (h : ∀ s i, (f s i).forms = g s.forms i) (names : List ImportName) (s : Scope) :
      (names.foldl f s).forms = names.foldl g s.forms := by
    induction names generalizing s with
    | nil => rfl
    | cons i rest ih => rw [List.foldl_cons, ih, h, List.foldl_cons]
  unfold collectSimple
  dsimp only
  split
  · exact hfoldl (fun s i => forms_importModule s c _ i) _ s
  · exact hfoldl (fun s i => forms_importName s c _ _ i) _ s
  · rename_i pos' id value decl
    change (ite _ (s.assignName c id value) s).forms = s.forms
    split
    · exact forms_assignName ..
    · rfl
  · rename_i pos' id hint value bare decl
    change (ite _ (s.addTypeOnly id) s).forms = s.forms
    split <;> rfl
  · rename_i hmodules hnames _ _
    cases t with
    | importModules names => exact absurd rfl (hmodules names)
    | importNames source names level => exact absurd rfl (hnames source names level)
    | _ => rfl

mutual

/-- A statement changes the names of special forms by the imports in it. -/
theorem forms_collectStmt (file : String) : (c : ScopeContext) → (s : Scope) → (t : Stmt) →
    (collectStmt file c s t).forms = (t.nodes.filterMap Stmt.import?).foldl Forms.take s.forms
  | c, s, .simple pos t => by
    rw [collectStmt, forms_collectSimple]
    cases t with
    | importModules names => rfl
    | importNames source names level => rfl
    | _ => rfl
  | c, s, .function pos head body => by
    have hhead (s₁ : Scope) :
        (if c.depth = 0 then s₁.shadow head.name else s₁).forms = s₁.forms := by
      split <;> rfl
    rw [collectStmt]
    rw [forms_reserveIn, forms_collectAll file c.inside _ body, forms_reserveIn,
      forms_reserveParameters, hhead, forms_reserve]
    rfl
  | c, s, .classDef pos head body => by
    rw [collectStmt]
    rw [forms_reserveIn, forms_collectAll file c.inside _ body, forms_reserveIn, forms_reserveIn,
      forms_defineClass]
    rfl
  | c, s, .branch pos test body orelse => by
    rw [collectStmt]
    rw [forms_collectAll file c _ orelse, forms_collectAll file _ _ body, forms_reserveIn,
      Stmt.imports, Stmt.imports, ← List.foldl_append, ← List.filterMap_append]
    rfl
  | c, s, .compound pos clauses => by
    rw [collectStmt]
    exact forms_collectClauses file c s clauses

/-- Statements change the names of special forms by the imports in them. -/
theorem forms_collectAll (file : String) : (c : ScopeContext) → (s : Scope) → (ts : List Stmt) →
    (collectAll file c s ts).forms = (Stmt.imports ts).foldl Forms.take s.forms
  | c, s, [] => rfl
  | c, s, t :: rest => by
    rw [collectAll, forms_collectAll file c _ rest, forms_collectStmt file c s t, Stmt.imports,
      Stmt.imports, Stmt.allNodes, List.filterMap_append, List.foldl_append]

/-- Clauses change the names of special forms by the imports in them. -/
theorem forms_collectClauses (file : String) : (c : ScopeContext) → (s : Scope) →
    (clauses : List (Clause Stmt)) → (collectClauses file c s clauses).forms =
      ((Stmt.clauseNodes clauses).filterMap Stmt.import?).foldl Forms.take s.forms
  | c, s, [] => rfl
  | c, s, ⟨head, body⟩ :: rest => by
    rw [collectClauses, forms_collectClauses file c _ rest, forms_collectAll file c _ body,
      forms_collectHead, Stmt.imports, Stmt.clauseNodes, List.filterMap_append, List.foldl_append]

end

/-- What a module calls special forms depends on its imports. -/
theorem forms_ofModule (file : String) (m : Module) :
    (ofModule file m).forms = (Stmt.imports m).foldl Forms.take ⟨[], []⟩ :=
  forms_collectAll file _ _ m

end Scope

namespace Forms

variable {f : Forms} {x : String}

/-- A local name of a special module that the import of a module adds is the name of a special
module or the local name of the import. -/
theorem mem_modules_importModule {i : ImportName} (hx : x ∈ (f.importModule i).modules) :
    x ∈ f.modules ∨ x ∈ specialModules ∨ x = i.asName.getD (Registry.rootOf i.name) := by
  unfold importModule at hx
  split at hx
  · rename_i name hname
    split at hx
    · rcases Scope.mem_insertName.1 hx with rfl | hx
      · rw [hname]
        exact .inr (.inr rfl)
      · exact .inl hx
    · exact .inl hx
  · rcases Scope.mem_foldl_insertName.1 hx with hx | hx
    · exact .inr (.inl (List.mem_filter.1 hx).1)
    · exact .inl hx

/-- A local name of a special module that the import of a name adds is the local name of the
import. -/
theorem mem_modules_importName {source : String} {i : ImportName}
    (hx : x ∈ (f.importName source i).modules) :
    x ∈ f.modules ∨ i.name ≠ "*" ∧ x = i.asName.getD i.name := by
  unfold importName at hx
  dsimp only at hx
  split at hx
  · exact .inl hx
  · rename_i hname
    split at hx
    · exact .inl hx
    · split at hx
      · rcases Scope.mem_insertName.1 hx with rfl | hx
        · exact .inr ⟨fun hstar => hname (.inl hstar), rfl⟩
        · exact .inl hx
      · exact .inl hx

/-- What several steps add to the local names of special modules is added by one of them. -/
theorem mem_modules_foldl {α : Type} {step : Forms → α → Forms} {P : α → Prop}
    (hstep : ∀ f a, x ∈ (step f a).modules → x ∈ f.modules ∨ P a) {as : List α}
    (hx : x ∈ (as.foldl step f).modules) : x ∈ f.modules ∨ ∃ a ∈ as, P a := by
  induction as generalizing f with
  | nil => exact .inl hx
  | cons a rest ih =>
    rcases ih hx with hx | ⟨b, hb, hP⟩
    · exact (hstep f a hx).imp_right fun hP => ⟨a, List.mem_cons_self, hP⟩
    · exact .inr ⟨b, List.mem_cons_of_mem _ hb, hP⟩

/-- A local name of a special module that a statement adds is the name of a special module, or the
statement imports it. -/
theorem mem_modules_take {t : Simple} (hx : x ∈ (f.take t).modules) :
    x ∈ f.modules ∨ x ∈ specialModules ∨ x ∈ t.imported := by
  cases t with
  | importModules names =>
    have hstep (f : Forms) (i : ImportName) (h : x ∈ (f.importModule i).modules) :=
      mem_modules_importModule h
    rcases mem_modules_foldl hstep hx with hx | ⟨i, hi, hx | hx⟩
    · exact .inl hx
    · exact .inr (.inl hx)
    · exact .inr (.inr (List.mem_map.2 ⟨i, hi, hx.symm⟩))
  | importNames source names level =>
    have hstep (f : Forms) (i : ImportName)
        (h : x ∈ (f.importName (source.getD "") i).modules) := mem_modules_importName h
    rcases mem_modules_foldl hstep hx with hx | ⟨i, hi, hstar, hx⟩
    · exact .inl hx
    · have hmem : i ∈ names.filter (·.name ≠ "*") := List.mem_filter.2 ⟨hi, by simpa using hstar⟩
      exact .inr (.inr (List.mem_map.2 ⟨i, hmem, hx.symm⟩))
  | _ => exact .inl hx

end Forms

/-- A local name of a special module stands in the module that imports it, or is the name of a
special module. -/
theorem mentions_of_mem_modules {file x : String} {m : Module}
    (hx : x ∈ (Scope.ofModule file m).specialModules) : x ∈ specialModules ∨ m.Mentions x := by
  have hforms : x ∈ ((Stmt.imports m).foldl Forms.take ⟨[], []⟩).modules := by
    rw [← Scope.forms_ofModule file m]
    exact hx
  have hstep (f : Forms) (t : Simple) (h : x ∈ (f.take t).modules) := Forms.mem_modules_take h
  rcases Forms.mem_modules_foldl hstep hforms with hx | ⟨t, ht, hx | hx⟩
  · exact absurd hx List.not_mem_nil
  · exact .inl hx
  · obtain ⟨u, hu, himport⟩ := List.mem_filterMap.1 ht
    refine .inr (Stmt.mentions_of_mem_allNodes hu ?_)
    unfold Stmt.import? at himport
    split at himport
    · obtain rfl := Option.some.inj himport
      exact .imported hx
    · obtain rfl := Option.some.inj himport
      exact .imported hx
    · cases himport

end Typeward
