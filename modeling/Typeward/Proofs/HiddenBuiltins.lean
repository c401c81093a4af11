import Typeward.Proofs.CollectedNames
import Typeward.Proofs.HintReadings

/-!
# Builtin names that a module hides

A builtin name with a meaning of its own loses it when a class or a function has the name, or when
it is assigned alone. Then it refers to what the module binds, wherever it is used in a hint. Other
ways to bind the name hide nothing: it still denotes the builtin type.
-/

namespace Typeward

/-- The local names of what a statement imports from special modules. -/
def Simple.specialImports : Simple → List String
  | .importNames source names _ =>
    if source.getD "" ∈ specialModules then
      (names.filter (·.name ≠ "*")).map fun i => i.asName.getD i.name
    else []
  | _ => []

/-- The local names of what a module imports from special modules. -/
def Module.specialImports (m : Module) : List String :=
  (Stmt.imports m).flatMap (·.specialImports)

namespace Forms

/-- What every step of several ones adds to the local names of special forms. -/
theorem mem_names_foldl {α : Type} {x : String} {step : Forms → α → Forms} {P : α → Prop}
    (hstep : ∀ f a, x ∈ (step f a).names.map Prod.fst ↔ x ∈ f.names.map Prod.fst ∨ P a)
    (as : List α) (f : Forms) :
    x ∈ (as.foldl step f).names.map Prod.fst ↔ x ∈ f.names.map Prod.fst ∨ ∃ a ∈ as, P a := by
  induction as generalizing f with
  | nil => simp
  | cons a rest ih =>
    rw [List.foldl_cons, ih, hstep, or_assoc]
    simp

/-- The import of a module adds no local name of a special form. -/
theorem names_importModule (f : Forms) (i : ImportName) : (f.importModule i).names = f.names := by
  unfold importModule
  split
  · split <;> rfl
  · rfl

/-- The import of a name from a special module adds its local name. -/
theorem mem_names_importName {x source : String} (f : Forms) (i : ImportName) :
    x ∈ (f.importName source i).names.map Prod.fst ↔ x ∈ f.names.map Prod.fst ∨
      source ∈ specialModules ∧ i.name ≠ "*" ∧ i.asName.getD i.name = x := by
  have hfuture : "__future__" ∉ specialModules := by decide
  unfold importName
  dsimp only
  split
  · rename_i hskip
    have hnone : ¬ (source ∈ specialModules ∧ i.name ≠ "*" ∧ i.asName.getD i.name = x) := by
      rintro ⟨hspecial, hstar, -⟩
      rcases hskip with hname | rfl
      · exact hstar hname
      · exact hfuture hspecial
    rw [or_iff_left hnone]
  · rename_i hskip
    have hstar : i.name ≠ "*" := fun h => hskip (.inl h)
    split
    · rename_i hspecial
      have hspecial : source ∈ specialModules := List.contains_iff_mem.1 hspecial
      rw [List.map_cons, List.mem_cons, or_comm]
      simp [hspecial, hstar, eq_comm]
    · rename_i hspecial
      have hspecial : source ∉ specialModules := fun h => hspecial (List.contains_iff_mem.2 h)
      split <;> simp [hspecial]

/-- A statement adds the local names of what it imports from special modules. -/
theorem mem_names_take {x : String} (f : Forms) (t : Simple) :
    x ∈ (f.take t).names.map Prod.fst ↔ x ∈ f.names.map Prod.fst ∨ x ∈ t.specialImports := by
  cases t with
  | importModules names =>
    have hnone (f : Forms) : (f.take (.importModules names)).names = f.names :=
      List.foldlRecOn (motive := fun g : Forms => g.names = f.names) _ _ rfl
        fun g hg i _ => (names_importModule g i).trans hg
    rw [hnone]
    simp [Simple.specialImports]
  | importNames source names level =>
    rw [take, mem_names_foldl fun f i => mem_names_importName f i]
    by_cases hspecial : source.getD "" ∈ specialModules <;>
      simp [Simple.specialImports, hspecial, and_assoc]
  | _ => simp [take, Simple.specialImports]

end Forms

/-- A name stands for a special form just if it is imported from a special module. -/
theorem lookup_specialNames_ofModule (file : String) (m : Module) (n : String) :
    (Scope.ofModule file m).specialNames.lookup n = none ↔ n ∉ m.specialImports := by
  have hnames : (Scope.ofModule file m).specialNames =
      ((Stmt.imports m).foldl Forms.take ⟨[], []⟩).names :=
    congrArg Forms.names (Scope.forms_ofModule file m)
  have hmem := Forms.mem_names_foldl (fun f t => Forms.mem_names_take (x := n) f t)
    (Stmt.imports m) ⟨[], []⟩
  rw [← hnames] at hmem
  rw [Module.specialImports, List.mem_flatMap, ← not_iff_not, not_not, List.lookup_eq_none_iff]
  simpa using hmem

/-- What a name denotes that is no special form is no builtin type. -/
theorem Scope.NameReading.not_isBuiltin {s : Scope} {e : Expr} {n name : String} {t : StaticType}
    (h : s.NameReading e name t) (hn : n ∈ builtinTypeNames) : ¬ t.IsBuiltin n := by
  have hany : ∀ n ∈ builtinTypeNames, primitiveNames.lookup n ≠ some "any" := by decide
  cases h with
  | parameter => exact id
  | erased => exact hany n hn
  | reference => exact id

/-- A builtin name has its meaning just if nothing hides it. -/
theorem Scope.canonical_builtin {s : Scope} {n : String} (hn : n ∈ builtinTypeNames)
    (hspecial : s.specialNames.lookup n = none) (pos : Pos) :
    s.canonical (.name pos n) = if n ∈ s.shadowed then none else some n := by
  by_cases hhidden : n ∈ s.shadowed <;> simp [canonical, hspecial, hhidden, hn]

/-- Wherever a hint of a module uses a builtin name that is not imported from a special module, it
denotes the builtin type just if no class and no function has the name and it is not assigned alone,
outside of definitions. If one does, it is a reference to the name, unless it is a type parameter
that stands alone or is bound where only type checkers look and by no class or import elsewhere. -/
theorem builtin_denoted_iff {file : String} {m : Module} {anchor : Option Pos} {n : String}
    {e e' : Expr} {c' : HintContext} {pos : Pos} {t : StaticType} (hn : n ∈ builtinTypeNames)
    (hspecial : n ∉ m.specialImports) (huse : e'.head = .name pos n)
    (hcomes : HintContext.ComesTo ⟨Scope.ofModule file m, file, anchor⟩ e c' e')
    (hdenote : HintContext.denote ⟨Scope.ofModule file m, file, anchor⟩ e = .ok t) :
    ∃ t', c'.denote e' = .ok t' ∧ t'.StandsIn t ∧
      (t'.IsBuiltin n ↔ ¬ m.HidesBuiltin file n) ∧
      ((∃ arguments location, t' = .reference n arguments location) ↔ m.HidesBuiltin file n ∧
        ¬ (Scope.ofModule file m).ReadsParameter e' n ∧ ¬ m.Erases file n) := by
  obtain ⟨t', ht', hstands⟩ := HintContext.denote_of_comesTo hcomes hdenote
  refine ⟨t', ht', hstands, ?_⟩
  have hscope : c'.scope = Scope.ofModule file m := hcomes.scope_eq
  have hlookup := (lookup_specialNames_ofModule file m n).2 hspecial
  have hcanonical := Scope.canonical_builtin hn hlookup pos
  rw [← hscope, ← huse] at hcanonical
  have hshadowed : n ∈ c'.scope.shadowed ↔ m.HidesBuiltin file n := by
    rw [hscope, mem_shadowed_ofModule]
  have hname : e'.head.dotted? = some n := by rw [huse, Expr.dotted?]
  by_cases hhidden : m.HidesBuiltin file n
  · rw [if_pos (hshadowed.2 hhidden)] at hcanonical
    have hreading := HintContext.nameReading_of_denote hname hcanonical ht'
    have hroot : ∀ n ∈ builtinTypeNames, Registry.rootOf n = n := by decide
    rw [hscope] at hreading
    rw [hreading.isReference_iff, isTypeOnly_ofModule_eq_false, hroot n hn]
    exact ⟨by simpa [hhidden] using hreading.not_isBuiltin hn, by simp [hhidden]⟩
  · rw [if_neg (mt hshadowed.1 hhidden)] at hcanonical
    have hbuiltin := HintContext.isBuiltin_of_denote hn hname hcanonical ht'
    refine ⟨by simpa [hhidden] using hbuiltin, ?_⟩
    have hreference : ¬ ∃ arguments location, t' = .reference n arguments location := by
      rintro ⟨arguments, location, rfl⟩
      exact hbuiltin
    simp [hhidden, hreference]

/-- A list of a builtin type, as the hint of a parameter. -/
def listHint : Expr := .subscript ⟨2, 9⟩ (.name ⟨2, 9⟩ "list") (.name ⟨2, 14⟩ "int")

/-- The tree of a class with a builtin name, and of a function that takes a list of its members. -/
def intTree : Module :=
  [.classDef ⟨1, 0⟩ ⟨"int", [], [], [], none⟩ [.simple ⟨1, 11⟩ .pass],
    .function ⟨2, 0⟩
      ⟨false, "f", ⟨[], [⟨⟨2, 6⟩, "x", some listHint, none⟩], none, [], none⟩, none, [], none⟩
      [.simple ⟨2, 21⟩ .pass]]

/-- What is known of the names in the module. -/
def intScope : Scope :=
  { bindings := [⟨"int", .ofClass, some ⟨1, 1, some "m.py"⟩⟩], shadowed := ["f", "int"],
    reserved := ["list", "x", "f", "int"] }

/-- The name is collected as one that hides a builtin type. -/
theorem ofModule_intTree : Scope.ofModule "m.py" intTree = intScope := by
  with_unfolding_all rfl

/-- The hint denotes a list of references to the class. -/
theorem denote_listHint : (⟨intScope, "m.py", none⟩ : HintContext).denote listHint =
    .ok (.array (.reference "int" [] (some ⟨2, 15, some "m.py"⟩)) "list"
      (some ⟨2, 10, some "m.py"⟩)) := by
  let c : HintContext := ⟨intScope, "m.py", none⟩
  have hform : c.form listHint = .composed [.name ⟨2, 14⟩ "int"]
      (c.ofOne listHint (.array · "list" (some ⟨2, 10, some "m.py"⟩))) := by
    unfold HintContext.form
    rfl
  have hpart : c.denote (.name ⟨2, 14⟩ "int") =
      .ok (.reference "int" [] (some ⟨2, 15, some "m.py"⟩)) :=
    HintContext.denote_of_form_done (by with_unfolding_all rfl)
  rw [HintContext.denote_of_form_composed hform, List.mapM_cons, hpart]
  rfl

/-- The name is a reference to the class where the list has it. -/
theorem builtin_denoted_iff_int :
    ∃ t', (⟨intScope, "m.py", none⟩ : HintContext).denote (.name ⟨2, 14⟩ "int") = .ok t' ∧
      ¬ t'.IsBuiltin "int" ∧ ∃ arguments location, t' = .reference "int" arguments location := by
  have hpart : HintContext.ComesTo ⟨Scope.ofModule "m.py" intTree, "m.py", none⟩ listHint
      ⟨Scope.ofModule "m.py" intTree, "m.py", none⟩ (.name ⟨2, 14⟩ "int") := by
    rw [ofModule_intTree]
    exact .part (by unfold HintContext.form; rfl) List.mem_cons_self (.self ..)
  have hdenote := denote_listHint
  rw [← ofModule_intTree] at hdenote ⊢
  have hhides : intTree.HidesBuiltin "m.py" "int" :=
    ⟨_, List.mem_cons_self, rfl, List.mem_cons_self⟩
  have hbinds : intTree.BindsUnguarded "m.py" "int" :=
    ⟨_, List.mem_cons_self, rfl, rfl, List.mem_cons_self⟩
  obtain ⟨t', ht', -, hbuiltin, hreference⟩ :=
    builtin_denoted_iff (by decide) (by with_unfolding_all decide) rfl hpart hdenote
  refine ⟨t', ht', fun h => hbuiltin.1 h hhides, hreference.2 ⟨hhides, ?_, fun h => h.2 hbinds⟩⟩
  rw [ofModule_intTree]
  exact fun h => absurd h.2 List.not_mem_nil

end Typeward
