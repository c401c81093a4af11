import Typeward.Proofs.ReservedNames

/-!
# The order of a module

A module is evaluated from its first line to its last one. What matters for names is where the
statements start and end that bind names outside of definitions, and where code can be spliced in
between. Everything that a module binds is bound by such a statement, at the place where the
statement starts.
-/

namespace Typeward

open Slots
open scoped List

/-- What stands at a place of a module. -/
inductive Mark where
  /-- A statement outside of definitions that binds a name starts. -/
  | opens (name : String) (pos : Pos)
  /-- The statement ends. -/
  | closes (name : String) (pos : Pos)
  /-- Code can be spliced in. -/
  | site (pos : Pos)
deriving DecidableEq

/-- Where an expression starts, if it is a call. -/
def Expr.callSite : Expr → List Pos
  | .call pos .. => [pos]
  | _ => []

/-- Where the calls in an expression start. -/
def Expr.calls (e : Expr) : List Pos := e.callSite ++ e.collectChildren fun c _ => c.calls
termination_by sizeOf e

/-- The calls in an expression are its own place, if it is a call, and those in its parts. -/
theorem Expr.calls_eq (e : Expr) : e.calls = e.callSite ++ e.children.flatMap (·.calls) := by
  rw [calls, collectChildren, List.flatMap_def, List.flatMap_def, List.attach_map_val]

/-- The sites in a value: the calls in its expressions. -/
def sitesIn {α : Type} [Slots α] (a : α) : List Mark := ((slots a).flatMap (·.calls)).map .site

/-- The start and the end of a statement that binds a name, if it stands outside of definitions,
around what stands inside of it. -/
def marksAround (depth : Nat) (name : String) (pos : Pos) (inner : List Mark) : List Mark :=
  if depth = 0 then .opens name pos :: inner ++ [.closes name pos] else inner

/-- A simple statement. -/
def Simple.marks (depth : Nat) (pos : Pos) (t : Simple) : List Mark :=
  match t with
  | .importModules _ | .importNames .. => t.imported.flatMap fun x => marksAround depth x pos []
  | t => .site pos :: sitesIn t

mutual

/-- A statement with its suites, inside of so many definitions. -/
def Stmt.marks (depth : Nat) : Stmt → List Mark
  | .simple pos t => t.marks depth pos
  | .function _ head body =>
    sitesIn head.decorators ++ sitesIn head.params ++ allMarks (depth + 1) body
  | .classDef pos head body =>
    let inner := sitesIn head.bases ++ sitesIn head.keywords ++ allMarks (depth + 1) body
    sitesIn head.decorators ++ marksAround depth head.name pos (.site pos :: inner)
  | .branch _ test body orelse => sitesIn test ++ allMarks depth body ++ allMarks depth orelse
  | .compound _ clauses => clauseMarks depth clauses

/-- Statements in order. -/
def Stmt.allMarks (depth : Nat) : List Stmt → List Mark
  | [] => []
  | t :: rest => t.marks depth ++ allMarks depth rest

/-- Clauses in order. -/
def Stmt.clauseMarks (depth : Nat) : List (Clause Stmt) → List Mark
  | [] => []
  | ⟨head, body⟩ :: rest => sitesIn head ++ allMarks depth body ++ clauseMarks depth rest

end

/-- A module from its start to its end. -/
def Module.marks (m : Module) : List Mark := Stmt.allMarks 0 m

/-- A binding is made by a statement that starts at its place. -/
def Binding.MadeIn (file : String) (ms : List Mark) (b : Binding) : Prop :=
  ∃ pos, b.location = some (locationOf file pos) ∧
    [.opens b.name pos, .closes b.name pos] <+ ms

/-- A binding is made in whatever contains the statement. -/
theorem Binding.MadeIn.mono {file : String} {ms ms' : List Mark} {b : Binding}
    (h : b.MadeIn file ms) (hms : ms <+ ms') : b.MadeIn file ms' := by
  obtain ⟨pos, hpos, hb⟩ := h
  exact ⟨pos, hpos, hb.trans hms⟩

/-- A statement outside of definitions starts and ends around what is inside of it. -/
theorem sublist_marksAround (name : String) (pos : Pos) (inner : List Mark) :
    [.opens name pos, .closes name pos] <+ marksAround 0 name pos inner :=
  (List.sublist_append_right inner _).cons_cons _

/-- What stands inside of a statement stands between its start and its end. -/
theorem sublist_marksAround_inner (depth : Nat) (name : String) (pos : Pos) (inner : List Mark) :
    inner <+ marksAround depth name pos inner := by
  unfold marksAround
  split
  · exact (List.sublist_append_left inner _).trans (List.sublist_cons_self _ _)
  · exact List.Sublist.refl inner

namespace Scope

/-- The bindings that a scope gets anew are made by statements. -/
def Binds (file : String) (ms : List Mark) (s s' : Scope) : Prop :=
  ∀ b ∈ s'.bindings, b ∈ s.bindings ∨ b.MadeIn file ms

variable {file : String} {ms ms' : List Mark} {s s' s'' : Scope}

/-- A scope that binds nothing anew needs no statements. -/
theorem binds_of_eq (h : s'.bindings = s.bindings) : s.Binds file ms s' :=
  fun _ hb => .inl (h ▸ hb)

/-- Bindings are made by statements of whatever contains these. -/
theorem Binds.mono (h : s.Binds file ms s') (hms : ms <+ ms') : s.Binds file ms' s' :=
  fun b hb => (h b hb).imp_right (·.mono hms)

/-- Bindings are made one after the other. -/
theorem Binds.trans (h : s.Binds file ms s') (h' : s'.Binds file ms s'') :
    s.Binds file ms s'' := by
  intro b hb
  rcases h' b hb with hb | hb
  · exact h b hb
  · exact .inr hb

/-- Reserving what a value uses binds nothing. -/
theorem bindings_reserveIn {α : Type} [Slots α] (s : Scope) (a : α) :
    (s.reserveIn a).bindings = s.bindings := rfl

/-- As `bindings_reserveIn`, after other statements. -/
theorem Binds.reserveIn {α : Type} [Slots α] (h : s.Binds file ms s') (a : α) :
    s.Binds file ms (s'.reserveIn a) :=
  h

/-- What is bound after nothing is bound. -/
theorem Binds.after_eq (h : s'.Binds file ms s'') (heq : s'.bindings = s.bindings) :
    s.Binds file ms s'' :=
  fun b hb => (h b hb).imp_left fun hb => heq ▸ hb

/-- A name is bound by the statement around. -/
theorem binds_bind (s : Scope) (c : ScopeContext) (name : String) (kind : BindingKind) (pos : Pos)
    (inner : List Mark) (h : c.depth = 0) :
    s.Binds file (marksAround c.depth name pos inner)
      (s.bind c name kind (locationOf file pos)) := by
  unfold bind
  split
  · exact binds_of_eq rfl
  · intro b hb
    rcases Registry.mem_putBinding hb with rfl | hb
    · exact .inr ⟨pos, rfl, h ▸ sublist_marksAround name pos inner⟩
    · exact .inl hb

/-- The import of a module binds its local name. -/
theorem binds_importModule (s : Scope) (c : ScopeContext) (pos : Pos) (i : ImportName) :
    s.Binds file (marksAround c.depth (i.asName.getD (Registry.rootOf i.name)) pos [])
      (s.importModule c (locationOf file pos) i) := by
  have hown (s₁ : Scope) (hs₁ : s₁.bindings = s.bindings) (name : String) (isSpecial : Bool) :
      s.Binds file (marksAround c.depth name pos [])
        (if c.depth = 0 && ! isSpecial then
          (s₁.reserve [name]).bind c name .ofModule (locationOf file pos)
        else s₁.reserve [name]) := by
    split
    · rename_i h
      have hdepth : c.depth = 0 := by simp_all
      exact (binds_bind _ c name .ofModule pos [] hdepth).after_eq hs₁
    · exact binds_of_eq hs₁
  unfold importModule
  cases i.asName with
  | some name =>
    refine hown _ ?_ name _
    split <;> rfl
  | none =>
    refine hown _ ?_ _ _
    exact List.foldlRecOn (motive := fun s₁ : Scope => s₁.bindings = s.bindings) _ _ rfl
      fun _ h _ _ => h

/-- The import of a name from a module binds its local name. -/
theorem binds_importName (s : Scope) (c : ScopeContext) (pos : Pos) (source : String)
    (i : ImportName) (hstar : i.name ≠ "*") :
    s.Binds file (marksAround c.depth (i.asName.getD i.name) pos [])
      (s.importName c (locationOf file pos) source i) := by
  unfold importName
  rw [if_neg hstar]
  dsimp only
  repeat' split
  · exact binds_of_eq rfl
  · exact binds_of_eq rfl
  · exact binds_of_eq rfl
  · rename_i hdepth
    exact (binds_bind _ c _ .ofImport pos [] hdepth).after_eq rfl
  · exact binds_of_eq rfl

/-- Several names are bound one after the other. -/
theorem binds_foldl {α : Type} {f : Scope → α → Scope} {g : α → List Mark} {as : List α}
    (hf : ∀ (s : Scope), ∀ a ∈ as, s.Binds file (g a) (f s a)) (s : Scope) :
    s.Binds file (as.flatMap g) (as.foldl f s) := by
  induction as generalizing s with
  | nil => exact binds_of_eq rfl
  | cons a rest ih =>
    rw [List.flatMap_cons]
    refine ((hf s a List.mem_cons_self).mono (List.sublist_append_left _ _)).trans ?_
    refine Binds.mono ?_ (List.sublist_append_right _ _)
    exact ih (fun s b hb => hf s b (List.mem_cons_of_mem _ hb)) _

/-- A star import binds no name that is known. -/
theorem importName_star (s : Scope) (c : ScopeContext) (location : Location) (source : String)
    {i : ImportName} (h : i.name = "*") : s.importName c location source i = s := by
  rw [importName, if_pos h]

/-- A class statement binds the name of the class. -/
theorem binds_defineClass (s : Scope) (c : ScopeContext) (pos : Pos) (head : ClassHead)
    (inner : List Mark) :
    s.Binds file (marksAround c.depth head.name pos inner)
      (s.defineClass c (locationOf file pos) head) := by
  unfold defineClass
  dsimp only
  repeat' split
  · exact binds_of_eq rfl
  · exact binds_of_eq rfl
  · rename_i hdepth _ _
    exact (binds_bind _ c head.name .ofClass pos inner hdepth).after_eq rfl
  · exact binds_of_eq rfl

/-- An assignment binds no class and no import. -/
theorem bindings_assignName (s : Scope) (c : ScopeContext) (name : String) (value : Expr) :
    (s.assignName c name value).bindings = s.bindings := by
  unfold assignName
  dsimp only
  repeat' split
  all_goals rfl

/-- A simple statement binds what it imports. -/
theorem binds_collectSimple (s : Scope) (c : ScopeContext) (pos : Pos) (t : Simple) :
    s.Binds file (t.marks c.depth pos) (s.collectSimple file c pos t) := by
  unfold collectSimple
  dsimp only
  split
  · rename_i names
    simp only [Simple.marks, Simple.imported, List.flatMap_map]
    exact binds_foldl (fun s i _ => binds_importModule s c pos i) s
  · rename_i source names level
    have hnames : names.foldl (fun s i => s.importName c (locationOf file pos)
        (source.getD "") i) s = (names.filter (·.name ≠ "*")).foldl
          (fun s i => s.importName c (locationOf file pos) (source.getD "") i) s := by
      rw [List.foldl_filter]
      congr 1
      funext s i
      split
      · rfl
      · rename_i hstar
        exact importName_star s c _ _ (by simpa using hstar)
    simp only [Simple.marks, Simple.imported, List.flatMap_map]
    rw [hnames]
    exact binds_foldl (fun s i hi => binds_importName s c pos _ i (by simp_all)) s
  · split
    · exact binds_of_eq (bindings_assignName s c _ _)
    · exact binds_of_eq rfl
  · refine binds_of_eq ?_
    split <;> rfl
  · exact binds_of_eq rfl

/-- The parameters of a function bind nothing outside of it. -/
theorem bindings_reserveParameters (s : Scope) (params : Parameters Expr) :
    (s.reserveParameters params).bindings = s.bindings := by
  simp only [reserveParameters, bindings_reserveIn, reserve]

/-- The header of a clause binds no class and no import. -/
theorem bindings_collectHead (s : Scope) (head : ClauseHead) :
    (s.collectHead head).bindings = s.bindings := by
  unfold collectHead
  dsimp only
  split <;> rfl

mutual

/-- A statement binds what it starts and ends around. -/
theorem binds_collectStmt (s : Scope) (c : ScopeContext) :
    (t : Stmt) → s.Binds file (t.marks c.depth) (collectStmt file c s t)
  | .simple pos t => by
    rw [collectStmt]
    exact binds_collectSimple s c pos t
  | .function pos head body => by
    rw [collectStmt]
    have hbody (s₁ : Scope) (hs₁ : s₁.bindings = s.bindings) :
        s.Binds file ((Stmt.function pos head body).marks c.depth)
          ((collectAll file c.inside s₁ body).reserveIn head.decorators) := by
      have hinner : s₁.Binds file (Stmt.allMarks (c.depth + 1) body)
          (collectAll file c.inside s₁ body) := binds_collectAll s₁ c.inside body
      refine Binds.reserveIn ?_ head.decorators
      exact (hinner.mono (List.sublist_append_right _ _)).after_eq hs₁
    refine hbody _ ?_
    rw [bindings_reserveIn, bindings_reserveParameters]
    split <;> rfl
  | .classDef pos head body => by
    rw [collectStmt]
    have hbody (s₁ : Scope)
        (hs₁ : s.Binds file ((Stmt.classDef pos head body).marks c.depth) s₁) :
        s.Binds file ((Stmt.classDef pos head body).marks c.depth)
          ((collectAll file c.inside s₁ body).reserveIn head.decorators) := by
      have hinner : s₁.Binds file (Stmt.allMarks (c.depth + 1) body)
          (collectAll file c.inside s₁ body) := binds_collectAll s₁ c.inside body
      refine Binds.reserveIn (hs₁.trans (hinner.mono ?_)) head.decorators
      refine List.Sublist.trans ?_ (List.sublist_append_right _ _)
      refine List.Sublist.trans ?_ (sublist_marksAround_inner _ _ _ _)
      exact (List.sublist_append_right _ _).trans (List.sublist_cons_self _ _)
    refine hbody _ (Binds.reserveIn (Binds.reserveIn ?_ head.bases) head.keywords)
    exact (binds_defineClass s c pos head _).mono (List.sublist_append_right _ _)
  | .branch pos test body orelse => by
    rw [collectStmt]
    have hinner (c' : ScopeContext) (hc' : c'.depth = c.depth) : (s.reserveIn test).Binds file
        (Stmt.allMarks c.depth body) (collectAll file c' (s.reserveIn test) body) := by
      rw [← hc']
      exact binds_collectAll (s.reserveIn test) c' body
    have hrest (s₁ : Scope) : s₁.Binds file (Stmt.allMarks c.depth orelse)
        (collectAll file c s₁ orelse) := binds_collectAll s₁ c orelse
    have hbody := (hinner (if s.isGuard test then { c with guarded := true } else c)
      (by split <;> rfl)).after_eq (s := s) rfl
    refine (hbody.mono ?_).trans ((hrest _).mono (List.sublist_append_right _ _))
    exact (List.sublist_append_right _ _).trans (List.sublist_append_left _ _)
  | .compound pos clauses => by
    rw [collectStmt]
    exact binds_collectClauses s c clauses

/-- Statements bind what one of them binds. -/
theorem binds_collectAll (s : Scope) (c : ScopeContext) :
    (ts : List Stmt) → s.Binds file (Stmt.allMarks c.depth ts) (collectAll file c s ts)
  | [] => by
    rw [collectAll]
    exact binds_of_eq rfl
  | t :: rest => by
    rw [collectAll]
    refine ((binds_collectStmt s c t).mono (List.sublist_append_left _ _)).trans ?_
    exact (binds_collectAll _ c rest).mono (List.sublist_append_right _ _)

/-- Clauses bind what one of their suites binds. -/
theorem binds_collectClauses (s : Scope) (c : ScopeContext) : (clauses : List (Clause Stmt)) →
    s.Binds file (Stmt.clauseMarks c.depth clauses) (collectClauses file c s clauses)
  | [] => by
    rw [collectClauses]
    exact binds_of_eq rfl
  | ⟨head, body⟩ :: rest => by
    rw [collectClauses]
    have hbody := (binds_collectAll (s.collectHead head) c body).after_eq
      (bindings_collectHead s head)
    have hfirst := (List.sublist_append_right (sitesIn head) (Stmt.allMarks c.depth body)).trans
      (List.sublist_append_left _ (Stmt.clauseMarks c.depth rest))
    refine (hbody.mono hfirst).trans ?_
    exact (binds_collectClauses _ c rest).mono (List.sublist_append_right _ _)

end

end Scope

/-- Every binding of a module is made by one of its statements. -/
theorem madeIn_of_mem_bindings {file : String} {m : Module} {b : Binding}
    (h : b ∈ (Scope.ofModule file m).bindings) : b.MadeIn file m.marks := by
  rcases Scope.binds_collectAll {} ⟨0, false⟩ m b h with hb | hb
  · exact absurd hb List.not_mem_nil
  · exact hb

end Typeward
