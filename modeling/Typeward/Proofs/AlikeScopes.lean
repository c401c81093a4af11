import Typeward.Proofs.PlacelessCode
import Typeward.Scope.Collect

/-!
# Scopes that are alike

Reading a hint takes a few facts from a scope: what special forms and builtin types are called, which
names are type parameters, and which have no value when the module runs. Scopes are alike if they
agree on these. They may reserve different names, and bind the same names in different places. What
statements do to scopes keeps them alike.
-/

namespace Typeward

open Slots

namespace Scope

/-- Two scopes differ in nothing but the names that they reserve and the bindings themselves, whose
names agree. -/
structure Alike (s s' : Scope) : Prop where
  specialNames : s.specialNames = s'.specialNames
  specialModules : s.specialModules = s'.specialModules
  generics : s.generics = s'.generics
  recordNames : s.recordNames = s'.recordNames
  typeOnly : s.typeOnly = s'.typeOnly
  shadowed : s.shadowed = s'.shadowed
  bindings : s.bindings.map (·.name) = s'.bindings.map (·.name)

variable {s s' : Scope}

/-- The special form or builtin type that goes by what a name or an attribute refers to. -/
def canonicalOf (s : Scope) : Option (Option (Option String) × String) → Option String
  | some (none, id) =>
    (s.specialNames.lookup id).or
      (if builtinTypeNames.contains id && ! s.shadowed.contains id then some id else none)
  | some (some (some name), attr) => if s.specialModules.contains name then some attr else none
  | _ => none

/-- A special form or a builtin type is told by what refers to it. -/
theorem canonical_eq_canonicalOf (s : Scope) (e : Expr) :
    s.canonical e = s.canonicalOf e.designator? := by
  cases e with
  | name pos id =>
    rw [canonical, Expr.designator?, canonicalOf]
    cases s.specialNames.lookup id <;> rfl
  | «attribute» pos base attr =>
    rw [canonical, Expr.designator?]
    cases base.dotted? <;> rfl
  | _ => rfl

/-- What refers to the same thing is the same special form or builtin type in scopes that are
alike. -/
theorem Alike.canonical_eq (h : s.Alike s') {e e' : Expr} (he : e.designator? = e'.designator?) :
    s.canonical e = s'.canonical e' := by
  rw [canonical_eq_canonicalOf, canonical_eq_canonicalOf, he]
  unfold canonicalOf
  rw [h.specialNames, h.specialModules, h.shadowed]

/-- The same code is the same special form or builtin type in scopes that are alike. -/
theorem Alike.canonical_of_sameCode (h : s.Alike s') {e e' : Expr} (he : e.SameCode e') :
    s.canonical e = s'.canonical e' :=
  h.canonical_eq he.designator?_eq.2

/-- The names that have no value when the module runs are the same. -/
theorem Alike.isTypeOnly_eq (h : s.Alike s') (name : String) :
    s.isTypeOnly name = s'.isTypeOnly name := by
  have hany (s : Scope) : s.bindings.any (·.name == Registry.rootOf name) =
      (s.bindings.map (·.name)).any (· == Registry.rootOf name) := by
    rw [List.any_map]
    rfl
  rw [isTypeOnly, isTypeOnly, h.typeOnly, hany, hany, h.bindings]

/-- Reserving names keeps scopes alike. -/
theorem Alike.reserve (h : s.Alike s') (names names' : List String) :
    (s.reserve names).Alike (s'.reserve names') :=
  ⟨h.specialNames, h.specialModules, h.generics, h.recordNames, h.typeOnly, h.shadowed, h.bindings⟩

/-- Reserving what values use keeps scopes alike. -/
theorem Alike.reserveIn (h : s.Alike s') {α β : Type} [Slots α] [Slots β] (a : α) (b : β) :
    (s.reserveIn a).Alike (s'.reserveIn b) :=
  h.reserve _ _

/-- So does noting that a name has no value when the module runs. -/
theorem Alike.addTypeOnly (h : s.Alike s') (name : String) :
    (s.addTypeOnly name).Alike (s'.addTypeOnly name) :=
  ⟨h.specialNames, h.specialModules, h.generics, h.recordNames,
    congrArg (insertName · name) h.typeOnly, h.shadowed, h.bindings⟩

/-- So does noting that a name hides a builtin one. -/
theorem Alike.shadow (h : s.Alike s') (name : String) : (s.shadow name).Alike (s'.shadow name) :=
  ⟨h.specialNames, h.specialModules, h.generics, h.recordNames, h.typeOnly,
    congrArg (insertName · name) h.shadowed, h.bindings⟩

/-- So does making a local name stand for a special module. -/
theorem Alike.addModule (h : s.Alike s') (name : String) :
    (s.addModule name).Alike (s'.addModule name) :=
  ⟨h.specialNames, congrArg (insertName · name) h.specialModules, h.generics, h.recordNames,
    h.typeOnly, h.shadowed, h.bindings⟩

/-- The names of bindings after one is put in depend on the names before. -/
theorem map_name_putBinding (bindings : List Binding) (b : Binding) :
    (Registry.putBinding bindings b).map (·.name) =
      if (bindings.map (·.name)).any (· == b.name) then bindings.map (·.name)
      else bindings.map (·.name) ++ [b.name] := by
  have hany : bindings.any (·.name == b.name) =
      (bindings.map (·.name)).any (· == b.name) := by
    rw [List.any_map]
    rfl
  rw [Registry.putBinding, ← hany]
  split
  · rw [List.map_map]
    refine List.map_congr_left fun old _ => ?_
    by_cases hname : old.name = b.name
    · simp [hname]
    · simp [hname]
  · rw [List.map_append]
    rfl

/-- Binding a name keeps scopes alike, wherever it is bound. -/
theorem Alike.bind (h : s.Alike s') (c : ScopeContext) (name : String) (kind : BindingKind)
    (location location' : Location) :
    (s.bind c name kind location).Alike (s'.bind c name kind location') := by
  unfold Scope.bind
  split
  · exact h.addTypeOnly name
  · refine ⟨h.specialNames, h.specialModules, h.generics, h.recordNames, h.typeOnly, h.shadowed, ?_⟩
    rw [map_name_putBinding, map_name_putBinding, h.bindings]

/-- Folds whose steps keep scopes alike do so as well. -/
theorem Alike.foldl {α : Type} {step step' : Scope → α → Scope}
    (hstep : ∀ s s' : Scope, s.Alike s' → ∀ a, (step s a).Alike (step' s' a)) :
    ∀ (as : List α) {s s' : Scope}, s.Alike s' → (as.foldl step s).Alike (as.foldl step' s')
  | [], _, _, h => h
  | a :: rest, _, _, h => Alike.foldl hstep rest (hstep _ _ h a)

/-- The import of a module keeps scopes alike. -/
theorem Alike.importModule (h : s.Alike s') (c : ScopeContext) (location location' : Location)
    (i : ImportName) :
    (s.importModule c location i).Alike (s'.importModule c location' i) := by
  have hown {s₁ s₁' : Scope} (h₁ : s₁.Alike s₁') (name : String) (isBound : Bool) :
      (if isBound then (s₁.reserve [name]).bind c name .ofModule location
        else s₁.reserve [name]).Alike
      (if isBound then (s₁'.reserve [name]).bind c name .ofModule location'
        else s₁'.reserve [name]) := by
    split
    · exact (h₁.reserve _ _).bind c name _ location location'
    · exact h₁.reserve _ _
  unfold Scope.importModule
  cases i.asName with
  | some name =>
    refine hown ?_ name _
    split
    · exact h.addModule name
    · exact h
  | none => exact hown (Alike.foldl (fun _ _ h m => h.addModule m) _ h) _ _

/-- The import of a name keeps scopes alike. -/
theorem Alike.importName (h : s.Alike s') (c : ScopeContext) (location location' : Location)
    (source : String) (i : ImportName) :
    (s.importName c location source i).Alike (s'.importName c location' source i) := by
  have hreserved := h.reserve [i.asName.getD i.name] [i.asName.getD i.name]
  unfold Scope.importName
  dsimp only
  split
  · exact h
  split
  · exact hreserved
  split
  · exact ⟨congrArg (_ :: ·) hreserved.specialNames, h.specialModules, h.generics, h.recordNames,
      h.typeOnly, h.shadowed, h.bindings⟩
  split
  · exact hreserved.addModule _
  split
  · exact hreserved.bind c _ _ location location'
  · exact hreserved

/-- Whether a value makes a type parameter. -/
def makesParameter (s : Scope) : Expr → Bool
  | .call _ func .. => (s.canonical func).any parameterFactories.contains
  | _ => false

/-- An assignment keeps scopes alike if both values make type parameters or none does. -/
theorem Alike.assignName (h : s.Alike s') (c : ScopeContext) (name : String) {value value' : Expr}
    (hvalue : s.makesParameter value = s'.makesParameter value') :
    (s.assignName c name value).Alike (s'.assignName c name value') := by
  have hassign (s : Scope) (value : Expr) : s.assignName c name value =
      let s₁ := if s.makesParameter value then { s with generics := insertName s.generics name }
        else s
      if c.guarded then (s₁.shadow name).addTypeOnly name else s₁.shadow name := by
    unfold Scope.assignName makesParameter
    cases value <;> rfl
  have hparameter : (if s.makesParameter value then
        { s with generics := insertName s.generics name } else s).Alike
      (if s'.makesParameter value' then
        { s' with generics := insertName s'.generics name } else s') := by
    rw [hvalue]
    split
    · exact ⟨h.specialNames, h.specialModules, congrArg (insertName · name) h.generics,
        h.recordNames, h.typeOnly, h.shadowed, h.bindings⟩
    · exact h
  rw [hassign, hassign]
  dsimp only
  split
  · exact (hparameter.shadow name).addTypeOnly name
  · exact hparameter.shadow name

/-- A class statement keeps scopes alike if both make records or none does. -/
theorem Alike.defineClass (h : s.Alike s') (c : ScopeContext) (location location' : Location)
    {head head' : ClassHead} (hname : head.name = head'.name)
    (hrecord : ∀ t t' : Scope, t.Alike t' → t.isRecord head.bases = t'.isRecord head'.bases) :
    (s.defineClass c location head).Alike (s'.defineClass c location' head') := by
  have hreserved := h.reserve [head.name] [head'.name]
  have hshadowed := hreserved.shadow head'.name
  unfold Scope.defineClass
  dsimp only
  rw [hname] at hreserved hshadowed ⊢
  rw [hrecord _ _ hshadowed]
  split
  · split
    · exact hshadowed.addTypeOnly _
    · split
      · exact ⟨hshadowed.specialNames, hshadowed.specialModules, hshadowed.generics,
          congrArg (insertName · head'.name) hshadowed.recordNames, hshadowed.typeOnly,
          hshadowed.shadowed, hshadowed.bindings⟩
      · exact hshadowed.bind c _ _ location location'
  · exact hreserved

end Scope

end Typeward
