import Typeward.Proofs.CollectedNames

/-!
# Special forms at the visits of a pass

The first pass over a module calls special forms as the imports above a statement say. A module that
makes all of its imports of special modules before the first class and the first condition calls
them, at each class and at each condition, as it does at its end.
-/

namespace Typeward

/-- An import makes a special module known: one that it names, or one in the package that it
names. -/
def ImportName.isSpecial (i : ImportName) : Bool :=
  specialModules.any fun m => m == i.name || i.asName.isNone && m.startsWith (i.name ++ ".")

/-- The import of a name from a module takes it from a special one, or it is one. -/
def ImportName.isSpecialIn (source : String) (i : ImportName) : Bool :=
  i.name != "*" && (specialModules.contains source ||
    specialModules.contains (source ++ "." ++ i.name))

/-- A statement imports special modules, or something from them. -/
def Simple.importsSpecial : Simple → Bool
  | .importModules names => names.any ImportName.isSpecial
  | .importNames source names _ => names.any (ImportName.isSpecialIn (source.getD ""))
  | _ => false

/-- A node imports special modules, or something from them. -/
def Stmt.importsSpecial (t : Stmt) : Bool := t.import?.any Simple.importsSpecial

/-- Whether it matters to a statement what special forms are called: it is a class or a
condition. -/
def Stmt.asksForms : Stmt → Bool
  | .classDef .. | .branch .. => true
  | .simple .. | .function .. | .compound .. => false

/-- Every import of a special module, at any depth, stands before every class and every
condition. -/
def Module.ImportsFirst (m : Module) : Prop :=
  (Stmt.allNodes m).Pairwise fun above below =>
    below.importsSpecial = true → above.asksForms = false

namespace Forms

/-- The names after a node. -/
def after (f : Forms) (t : Stmt) : Forms := t.import?.elim f f.take

/-- The import of a module that is not special, and no package of one, keeps the names. -/
theorem importModule_eq {f : Forms} {i : ImportName} (h : i.isSpecial = false) :
    f.importModule i = f := by
  rw [ImportName.isSpecial, List.any_eq_false] at h
  unfold importModule
  cases hname : i.asName with
  | some name =>
    have hplain : specialModules.contains i.name = false := by
      refine Bool.eq_false_iff.2 fun hspecial => ?_
      have hsame := h i.name (List.contains_iff_mem.1 hspecial)
      simp at hsame
    simp only [hplain, Bool.false_eq_true, if_false]
  | none =>
    have hnone : (specialModules.filter fun m => m == i.name || m.startsWith (i.name ++ ".")) =
        [] := by
      refine List.filter_eq_nil_iff.2 fun m hm => ?_
      simpa only [hname, Option.isNone_none, Bool.true_and] using h m hm
    simp only [hnone, List.foldl_nil]

/-- The import of a name that is not special keeps the names. -/
theorem importName_eq {f : Forms} {source : String} {i : ImportName}
    (h : i.isSpecialIn source = false) : f.importName source i = f := by
  unfold importName
  dsimp only
  split
  · rfl
  · rename_i hname
    have hstar : (i.name != "*") = true := bne_iff_ne.2 fun hstar => hname (.inl hstar)
    rw [ImportName.isSpecialIn, hstar, Bool.true_and, Bool.or_eq_false_iff] at h
    simp only [h.1, h.2, Bool.false_eq_true, if_false]

/-- A statement that imports nothing special keeps the names. -/
theorem take_eq {f : Forms} {t : Simple} (h : t.importsSpecial = false) : f.take t = f := by
  have hfoldl {step : Forms → ImportName → Forms} {names : List ImportName}
      (hstep : ∀ f, ∀ i ∈ names, step f i = f) : names.foldl step f = f :=
    List.foldlRecOn (motive := fun f' => f' = f) _ _ rfl fun f' hf' i hi =>
      (hstep f' i hi).trans hf'
  cases t with
  | importModules names =>
    rw [Simple.importsSpecial, List.any_eq_false] at h
    exact hfoldl fun f i hi => importModule_eq (Bool.eq_false_iff.2 (h i hi))
  | importNames source names level =>
    rw [Simple.importsSpecial, List.any_eq_false] at h
    exact hfoldl fun f i hi => importName_eq (Bool.eq_false_iff.2 (h i hi))
  | _ => rfl

/-- A node that imports nothing special keeps the names. -/
theorem after_eq {f : Forms} {t : Stmt} (h : t.importsSpecial = false) : f.after t = f := by
  unfold after
  unfold Stmt.importsSpecial at h
  cases himport : t.import? with
  | none => rfl
  | some u =>
    rw [himport] at h
    exact take_eq h

end Forms

namespace Scope

variable (file : String)

mutual

/-- The visits to a statement are those to its nodes. -/
theorem map_stmt_visits (c : ScopeContext) (s : Scope) : (t : Stmt) →
    (visits file c s t).map (·.stmt) = t.nodes
  | .simple pos t => by simp [visits, Stmt.nodes]
  | .function pos head body => by
    simp [visits, Stmt.nodes, map_stmt_visitsAll]
  | .classDef pos head body => by
    simp [visits, Stmt.nodes, map_stmt_visitsAll]
  | .branch pos test body orelse => by
    simp [visits, Stmt.nodes, map_stmt_visitsAll]
  | .compound pos clauses => by
    simp [visits, Stmt.nodes, map_stmt_visitsClauses]

/-- The visits to statements are those to their nodes. -/
theorem map_stmt_visitsAll (c : ScopeContext) (s : Scope) : (ts : List Stmt) →
    (visitsAll file c s ts).map (·.stmt) = Stmt.allNodes ts
  | [] => by simp [visitsAll, Stmt.allNodes]
  | t :: rest => by simp [visitsAll, Stmt.allNodes, map_stmt_visits, map_stmt_visitsAll]

/-- The visits to clauses are those to their nodes. -/
theorem map_stmt_visitsClauses (c : ScopeContext) (s : Scope) : (clauses : List (Clause Stmt)) →
    (visitsClauses file c s clauses).map (·.stmt) = Stmt.clauseNodes clauses
  | [] => by simp [visitsClauses, Stmt.clauseNodes]
  | ⟨head, body⟩ :: rest => by
    simp [visitsClauses, Stmt.clauseNodes, map_stmt_visitsAll, map_stmt_visitsClauses]

end

/-- Visits call special forms as those before them have left it. -/
inductive Threads : Forms → List Visit → Forms → Prop
  | nil (f) : Threads f [] f
  | cons {f v vs f'} (here : v.scope.forms = f) (behind : Threads (f.after v.stmt) vs f') :
      Threads f (v :: vs) f'

namespace Threads

variable {f f' f'' : Forms} {vs vs' : List Visit}

/-- Visits after each other. -/
theorem append (h : Threads f vs f') (h' : Threads f' vs' f'') : Threads f (vs ++ vs') f'' := by
  induction h with
  | nil f => exact h'
  | cons here behind ih => exact .cons here (ih h')

/-- Visits to what imports nothing special leave the names. -/
theorem eq_of_plain (h : Threads f vs f') (hplain : ∀ v ∈ vs, v.stmt.importsSpecial = false) :
    f' = f := by
  induction h with
  | nil f => rfl
  | @cons f v vs f' here behind ih =>
    rw [ih fun w hw => hplain w (List.mem_cons_of_mem _ hw)]
    exact Forms.after_eq (hplain v List.mem_cons_self)

/-- Where nothing special is imported below a class or a condition, a visit to one calls special
forms as the last visit leaves it. -/
theorem forms_eq (h : Threads f vs f')
    (hfirst : vs.Pairwise fun above below =>
      below.stmt.importsSpecial = true → above.stmt.asksForms = false)
    {v : Visit} (hv : v ∈ vs) (hasks : v.stmt.asksForms = true) : v.scope.forms = f' := by
  induction h with
  | nil f => cases hv
  | @cons f w vs f' here behind ih =>
    rcases List.mem_cons.1 hv with rfl | hv
    · have hplain : ∀ u ∈ vs, u.stmt.importsSpecial = false := fun u hu =>
        Bool.eq_false_iff.2 fun hspecial => by
          rw [List.rel_of_pairwise_cons hfirst hu hspecial] at hasks
          cases hasks
      have hown : v.stmt.importsSpecial = false := by
        cases hstmt : v.stmt with
        | simple pos t => rw [hstmt] at hasks; cases hasks
        | _ => rfl
      rw [behind.eq_of_plain hplain, Forms.after_eq hown, here]
    · exact ih hfirst.of_cons hv

end Threads

mutual

/-- A visit to a statement, and those to its suites, call special forms as the ones before. -/
theorem threads_visits (c : ScopeContext) (s : Scope) : (t : Stmt) →
    Threads s.forms (visits file c s t) (collectStmt file c s t).forms
  | .simple pos t => by
    rw [visits, collectStmt, forms_collectSimple]
    refine .cons rfl ?_
    have hafter : s.forms.after (.simple pos t) = s.forms.take t := by
      cases t <;> rfl
    rw [hafter]
    exact .nil _
  | .function pos head body => by
    have hbody := threads_visitsAll c.inside (s.enterFunction c head) body
    have henter : (s.enterFunction c head).forms = s.forms := by
      rw [enterFunction, forms_reserveIn, forms_reserveParameters]
      split <;> rfl
    rw [henter] at hbody
    rw [visits, collectStmt, forms_reserveIn]
    exact .cons rfl hbody
  | .classDef pos head body => by
    have hbody := threads_visitsAll c.inside (s.enterClass file c pos head) body
    rw [enterClass, forms_reserveIn, forms_reserveIn, forms_defineClass] at hbody
    rw [visits, collectStmt, forms_reserveIn]
    exact .cons rfl hbody
  | .branch pos test body orelse => by
    have hbody := threads_visitsAll (s.enterBranch c test) (s.reserveIn test) body
    rw [visits, collectStmt]
    exact .cons rfl (hbody.append (threads_visitsAll c _ orelse))
  | .compound pos clauses => by
    rw [visits, collectStmt]
    exact .cons rfl (threads_visitsClauses c s clauses)

/-- Visits to statements in order call special forms as the ones before. -/
theorem threads_visitsAll (c : ScopeContext) (s : Scope) : (ts : List Stmt) →
    Threads s.forms (visitsAll file c s ts) (collectAll file c s ts).forms
  | [] => by
    rw [visitsAll, collectAll]
    exact .nil _
  | t :: rest => by
    rw [visitsAll, collectAll]
    exact (threads_visits c s t).append (threads_visitsAll c _ rest)

/-- Visits to clauses in order call special forms as the ones before. -/
theorem threads_visitsClauses (c : ScopeContext) (s : Scope) : (clauses : List (Clause Stmt)) →
    Threads s.forms (visitsClauses file c s clauses) (collectClauses file c s clauses).forms
  | [] => by
    rw [visitsClauses, collectClauses]
    exact .nil _
  | ⟨head, body⟩ :: rest => by
    have hbody := threads_visitsAll c (s.collectHead head) body
    rw [forms_collectHead] at hbody
    rw [visitsClauses, collectClauses]
    exact hbody.append (threads_visitsClauses c _ rest)

end

end Scope

instance (m : Module) : Decidable m.ImportsFirst := inferInstanceAs (Decidable (List.Pairwise _ _))

/-- In a module that imports special modules first, a visit to a class or to a condition calls
special forms as the whole module does. -/
theorem Module.forms_of_visit {file : String} {m : Module} (hfirst : m.ImportsFirst) {v : Visit}
    (hv : v ∈ m.visits file) (hasks : v.stmt.asksForms = true) :
    v.scope.forms = (Scope.ofModule file m).forms := by
  have hthreads := Scope.threads_visitsAll file ⟨0, false⟩ {} m
  refine hthreads.forms_eq ?_ hv hasks
  rw [ImportsFirst, ← Scope.map_stmt_visitsAll file ⟨0, false⟩ {} m,
    List.pairwise_map] at hfirst
  exact hfirst

end Typeward
