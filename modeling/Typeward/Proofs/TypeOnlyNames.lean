import Typeward.Proofs.CollectedNames
import Typeward.Proofs.HintReadings
import Typeward.Proofs.ReifiedTypes

/-!
# Names that have no value when a module runs

A name that a module binds where only type checkers look has no value when the module runs, unless
a class or an import binds it elsewhere, too. A hint cannot be checked against such a name and takes
anything instead. Records, aliases and functions elsewhere do not keep a name from this.
-/

namespace Typeward

/-- Wherever a hint of a module uses a name that is no special form and no type parameter that
stands alone, it takes anything just if the root of the name is bound where only type checkers look
and by no class or import elsewhere. Otherwise it is a reference to the name, and what is built for
it is a check against the type of the name as soon as this is defined. -/
theorem name_erased_iff {file : String} {m : Module} {anchor : Option Pos} {name : String}
    {e e' : Expr} {c' : HintContext} {t : StaticType} (huse : e'.head.dotted? = some name)
    (hplain : (Scope.ofModule file m).canonical e'.head = none)
    (hparameter : ¬ (Scope.ofModule file m).ReadsParameter e' name)
    (hcomes : HintContext.ComesTo ⟨Scope.ofModule file m, file, anchor⟩ e c' e')
    (hdenote : HintContext.denote ⟨Scope.ofModule file m, file, anchor⟩ e = .ok t) :
    ∃ t', c'.denote e' = .ok t' ∧ t'.StandsIn t ∧
      ((∃ location, t' = .primitive "any" location) ↔ m.Erases file (Registry.rootOf name)) ∧
      ((∃ arguments location, t' = .reference name arguments location) ↔
        ¬ m.Erases file (Registry.rootOf name)) ∧
      ∀ r : Registry, (build r t').outcome = .ok (.name name) ↔
        (∃ known, r.get? name = some known ∧ known.isComplete = true) ∧
          ¬ m.Erases file (Registry.rootOf name) := by
  obtain ⟨t', ht', hstands⟩ := HintContext.denote_of_comesTo hcomes hdenote
  have hscope : c'.scope = Scope.ofModule file m := hcomes.scope_eq
  have hreading := HintContext.nameReading_of_denote huse (hscope ▸ hplain) ht'
  rw [hscope] at hreading
  have hany : (∃ location, t' = .primitive "any" location) ↔
      m.Erases file (Registry.rootOf name) := by
    rw [hreading.isAny_iff, isTypeOnly_ofModule, and_iff_right hparameter]
  have hreference : (∃ arguments location, t' = .reference name arguments location) ↔
      ¬ m.Erases file (Registry.rootOf name) := by
    rw [hreading.isReference_iff, isTypeOnly_ofModule_eq_false, and_iff_right hparameter]
  refine ⟨t', ht', hstands, hany, hreference, fun r => ?_⟩
  have hleaves : (∃ arguments location, t'.leaves = [.reference name arguments location]) ↔
      ∃ arguments location, t' = .reference name arguments location := by
    cases hreading <;> simp [StaticType.leaves]
  rw [build_eq_name_iff, hleaves, hreference]

/-- The tree of a module that imports a name for type checkers and declares a record of that name
elsewhere, and of a function whose parameter has it as its hint. -/
def guardTree : Module :=
  [.simple ⟨1, 0⟩
      (.importNames (some "typing") [⟨"TYPE_CHECKING", none⟩, ⟨"TypedDict", none⟩] 0),
    .branch ⟨2, 0⟩ (.name ⟨2, 3⟩ "TYPE_CHECKING")
      [.simple ⟨3, 4⟩ (.importNames (some "models") [⟨"Person", none⟩] 0)]
      [.classDef ⟨5, 4⟩ ⟨"Person", [.name ⟨5, 17⟩ "TypedDict"], [], [], none⟩
        [.simple ⟨6, 8⟩ (.annotated (.name ⟨6, 8⟩ "name") (.name ⟨6, 14⟩ "str") none true none)]],
    .function ⟨7, 0⟩
      ⟨false, "f", ⟨[], [⟨⟨7, 6⟩, "p", some (.name ⟨7, 9⟩ "Person"), none⟩], none, [], none⟩, none,
        [], none⟩ [.simple ⟨7, 18⟩ .pass]]

/-- What is known of the names in the module. -/
def guardScope : Scope :=
  { specialNames := [("TypedDict", "TypedDict"), ("TYPE_CHECKING", "TYPE_CHECKING")]
    recordNames := ["Person"], typeOnly := ["Person"], shadowed := ["f", "Person"],
    reserved := ["p", "f", "str", "name", "Person", "TypedDict", "TYPE_CHECKING"] }

/-- The name is collected as that of a record and as one that has no value when the module runs. -/
theorem ofModule_guardTree : Scope.ofModule "m.py" guardTree = guardScope := by
  with_unfolding_all rfl

/-- The parameter takes anything, although the module declares the record. -/
theorem name_erased_iff_guardTree :
    ∃ t, (⟨guardScope, "m.py", none⟩ : HintContext).denote (.name ⟨7, 9⟩ "Person") = .ok t ∧
      ∀ r : Registry, (build r t).outcome ≠ .ok (.name "Person") := by
  have hdenote : (⟨guardScope, "m.py", none⟩ : HintContext).denote (.name ⟨7, 9⟩ "Person") =
      .ok (.primitive "any" (some ⟨7, 10, some "m.py"⟩)) :=
    HintContext.denote_of_form_done (by with_unfolding_all rfl)
  rw [← ofModule_guardTree] at hdenote ⊢
  have hparameter : "Person" ∉ (Scope.ofModule "m.py" guardTree).generics := by
    rw [ofModule_guardTree]
    exact List.not_mem_nil
  have herases : guardTree.Erases "m.py" "Person" := by
    rw [Module.Erases, ← mem_typeOnly_ofModule, ← any_bindings_ofModule, ofModule_guardTree]
    exact ⟨List.mem_cons_self, Bool.false_ne_true⟩
  obtain ⟨t, ht, -, -, -, hbuild⟩ :=
    name_erased_iff rfl (by with_unfolding_all rfl) (fun h => hparameter h.2) (.self ..) hdenote
  exact ⟨t, ht, fun r hr => ((hbuild r).1 hr).2 herases⟩

end Typeward
