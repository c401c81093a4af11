import Typeward.Proofs.DenotedTypes
import Typeward.Proofs.ImportSafety

/-!
# The hints in a hint

Reading a hint comes to other hints: the one that it quotes, or those that its type is made of. All
are read against the scope of the module. If the hint denotes a type, so do they, and their types
stand in it, as arguments of references that are erased later or elsewhere.

What a hint that is a name denotes, with or without arguments in brackets, depends on the name and
the scope alone: a builtin type, a type parameter, anything, or a reference.
-/

namespace Typeward

open HintContext

namespace StaticType

/-- A type stands in another one, at any depth and possibly in erased arguments. -/
inductive StandsIn (u : StaticType) : StaticType → Prop
  | self : StandsIn u u
  | inner {c t} (hc : c ∈ t.inner) (h : StandsIn u c) : StandsIn u t

/-- The types that a type is or has directly in it. -/
def Holds (t u : StaticType) : Prop := u = t ∨ u ∈ t.inner

/-- What stands in a type that another one is or has directly in it stands in that one. -/
theorem StandsIn.of_holds {t u v : StaticType} (h : v.StandsIn u) (hu : t.Holds u) :
    v.StandsIn t := by
  rcases hu with rfl | hu
  · exact h
  · exact .inner hu h

end StaticType

namespace HintContext

/-- Reading a hint comes to another one, or to itself. -/
inductive ComesTo : HintContext → Expr → HintContext → Expr → Prop
  | self (c e) : ComesTo c e c e
  | quoted {c e pos text inner c' e'} (hform : c.form e = .quoted pos text)
      (hread : readQuoted text = .ok inner)
      (h : ComesTo { c with anchor := some (c.anchor.getD pos) } inner.1 c' e') : ComesTo c e c' e'
  | part {c e parts finish a c' e'} (hform : c.form e = .composed parts finish) (ha : a ∈ parts)
      (h : ComesTo c a c' e') : ComesTo c e c' e'

/-- All hints are read against the same scope. -/
theorem ComesTo.scope_eq {c c' : HintContext} {e e' : Expr} (h : c.ComesTo e c' e') :
    c'.scope = c.scope := by
  induction h with
  | self => rfl
  | quoted _ _ _ ih => exact ih
  | part _ _ _ ih => exact ih

variable {c : HintContext} {e : Expr} {t : StaticType}

/-- A type that is made of others has them in it. -/
def Form.Holds : Form → Prop
  | .composed _ finish => ∀ types t, finish types = .ok t → ∀ u ∈ types, t.Holds u
  | _ => True

/-- A type made of exactly one other has it in it. -/
theorem holds_ofOne {make : StaticType → StaticType} {parts : List Expr}
    (hmake : ∀ u, (make u).Holds u) : Form.Holds (.composed parts (c.ofOne e make)) := by
  intro types t h u hu
  obtain ⟨v, rfl, rfl⟩ := ofOne_eq_ok h
  obtain rfl := List.mem_singleton.1 hu
  exact hmake u

/-- A type made of exactly two others has them in it. -/
theorem holds_ofTwo {make : StaticType → StaticType → StaticType} {parts : List Expr}
    (hmake : ∀ u v, (make u v).Holds u ∧ (make u v).Holds v) :
    Form.Holds (.composed parts (c.ofTwo e make)) := by
  intro types t h u hu
  obtain ⟨v, w, rfl, rfl⟩ := ofTwo_eq_ok h
  rcases List.mem_pair.1 hu with rfl | rfl
  · exact (hmake u w).1
  · exact (hmake v u).2

/-- A type that is made of others without any condition has them in it. -/
theorem holds_of_inner {make : List StaticType → StaticType} {parts : List Expr}
    (hmake : ∀ types, (make types).inner = types) :
    Form.Holds (.composed parts fun types => .ok (make types)) := by
  intro types t h u hu
  obtain rfl := Except.ok.inj h
  exact .inr ((hmake types).symm ▸ hu)

/-- A function type has its parameters and its result in it. -/
theorem holds_callableForm {params result : Expr} :
    Form.Holds (c.callableForm e params result) := by
  have hresult (u : StaticType) (location : Option Location) :
      (StaticType.function none u location).Holds u :=
    .inr (by simp [StaticType.inner, StaticType.parts])
  unfold callableForm
  dsimp only
  split
  · exact holds_ofOne fun u => hresult u _
  · intro types t h u hu
    dsimp only at h
    split at h
    · rename_i result params
      obtain rfl := Except.ok.inj h
      refine .inr ?_
      simpa [StaticType.inner, StaticType.parts, or_comm] using hu
    · exact absurd h expected_ne_ok
  · split
    · exact holds_ofOne fun u => hresult u _
    · exact fun types t h => absurd h refuse_ne_ok

/-- A tuple type has its elements in it. -/
theorem holds_tupleForm {arguments : List Expr} : Form.Holds (c.tupleForm e arguments) := by
  unfold tupleForm
  dsimp only
  split
  · trivial
  · exact holds_ofOne fun u => .inr (by simp [StaticType.inner, StaticType.parts])
  · exact holds_of_inner fun types => rfl

/-- An annotated type is the type in front of the markers, or has it in it. -/
theorem holds_annotatedForm {arguments : List Expr} : Form.Holds (c.annotatedForm e arguments) := by
  unfold annotatedForm
  split
  · trivial
  · intro types t h u hu
    obtain ⟨markers, -, h⟩ := Except.bind_eq_ok.1 h
    split at h
    · obtain rfl := Except.ok.inj h
      exact .inl (List.mem_singleton.1 hu)
    · obtain rfl := Except.ok.inj h
      exact .inr (List.mem_append_left _ hu)

/-- A special form with arguments has the types that it is made of in it. -/
theorem holds_specialForm {special : String} {index : Expr} :
    Form.Holds (c.specialForm e special index) := by
  unfold specialForm
  dsimp only
  split
  · split
    · exact holds_ofOne fun u => .inr (by simp [StaticType.inner, StaticType.parts])
    · trivial
  split
  · exact holds_of_inner fun types => rfl
  split
  · split
    · exact holds_ofOne fun u => .inr (by simp [StaticType.inner, StaticType.parts])
    · trivial
  split
  · split
    · exact holds_ofTwo fun u v => by simp [StaticType.Holds, StaticType.inner, StaticType.parts]
    · trivial
  split
  · exact holds_tupleForm
  split
  · split
    · exact holds_callableForm
    · trivial
  split
  · trivial
  split
  · exact holds_annotatedForm
  split
  · exact holds_of_inner fun types => rfl
  split <;> trivial

/-- Whatever form a hint has, its type has the types that it is made of in it. -/
theorem holds_form : Form.Holds (c.form e) := by
  unfold form
  dsimp only
  split
  · trivial
  · trivial
  · trivial
  · exact holds_of_inner fun types => rfl
  · trivial
  · trivial
  · split
    · unfold genericForm
      dsimp only
      split
      · trivial
      · split
        · trivial
        · exact holds_of_inner fun types => rfl
    · exact holds_specialForm
  · trivial

/-- If a hint denotes a type, every hint that reading it comes to denotes one that stands in it. -/
theorem denote_of_comesTo {c' : HintContext} {e' : Expr} (h : c.ComesTo e c' e')
    (hdenote : c.denote e = .ok t) : ∃ t', c'.denote e' = .ok t' ∧ t'.StandsIn t := by
  induction h generalizing t with
  | self => exact ⟨t, hdenote, .self⟩
  | quoted hform hread _ ih =>
    rw [denote_of_form_quoted hform hread] at hdenote
    exact ih hdenote
  | @part c e parts finish a c' e' hform ha _ ih =>
    rw [denote_of_form_composed hform] at hdenote
    obtain ⟨types, htypes, hfinish⟩ := Except.bind_eq_ok.1 hdenote
    obtain ⟨u, hu, ha⟩ := exists_mem_of_mapM htypes ha
    obtain ⟨t', ht', hstands⟩ := ih ha
    have hholds : Form.Holds (c.form e) := holds_form
    rw [hform] at hholds
    exact ⟨t', ht', hstands.of_holds (hholds types t hfinish u hu)⟩

/-- All types that a form, which quotes no hint, can come to satisfy a condition. -/
def Form.Answers (P : StaticType → Prop) : Form → Prop
  | .done result => ∀ t, result = .ok t → P t
  | .quoted .. => False
  | .composed _ finish => ∀ types t, finish types = .ok t → P t

/-- A hint denotes what its form can come to. -/
theorem of_answers {P : StaticType → Prop} (h : (c.form e).Answers P)
    (hdenote : c.denote e = .ok t) : P t := by
  cases hform : c.form e with
  | done result =>
    rw [hform] at h
    rw [denote_of_form_done hform] at hdenote
    exact h t hdenote
  | quoted pos text =>
    rw [hform] at h
    exact h.elim
  | composed parts finish =>
    rw [hform] at h
    rw [denote_of_form_composed hform] at hdenote
    obtain ⟨types, -, hfinish⟩ := Except.bind_eq_ok.1 hdenote
    exact h types t hfinish

/-- A fault is no type. -/
theorem answers_of_ne_ok {P : StaticType → Prop} {result : Except Failure StaticType}
    (h : ∀ t, result ≠ .ok t) : (Form.done result).Answers P :=
  fun t ht => absurd ht (h t)

/-- A type made of exactly one other is made so. -/
theorem answers_ofOne {P : StaticType → Prop} {make : StaticType → StaticType} {parts : List Expr}
    (hmake : ∀ u, P (make u)) : Form.Answers P (.composed parts (c.ofOne e make)) := by
  intro types t h
  obtain ⟨u, rfl, rfl⟩ := ofOne_eq_ok h
  exact hmake u

/-- A type made of exactly two others is made so. -/
theorem answers_ofTwo {P : StaticType → Prop} {make : StaticType → StaticType → StaticType}
    {parts : List Expr} (hmake : ∀ u v, P (make u v)) :
    Form.Answers P (.composed parts (c.ofTwo e make)) := by
  intro types t h
  obtain ⟨u, v, rfl, rfl⟩ := ofTwo_eq_ok h
  exact hmake u v

end HintContext

/-- What names a type, without the arguments in brackets. -/
def Expr.head : Expr → Expr
  | .subscript _ base _ => base
  | e => e

/-- An expression has arguments in brackets. -/
def Expr.hasArguments : Expr → Bool
  | .subscript .. => true
  | _ => false

/-- A type is the builtin one of a name. -/
def StaticType.IsBuiltin (n : String) : StaticType → Prop
  | .primitive name _ => primitiveNames.lookup n = some name
  | .array _ container _ => arrayContainers.lookup n = some container
  | .dict .. => n ∈ dictNames
  | .tuple .. => n ∈ tupleNames
  | _ => False

/-- A name that stands alone is a type parameter. -/
def Scope.ReadsParameter (s : Scope) (e : Expr) (name : String) : Prop :=
  e.hasArguments = false ∧ name ∈ s.generics

/-- What a name denotes that is no special form: a type parameter if it stands alone, anything if it
has no value when the module runs, and otherwise a reference. -/
inductive Scope.NameReading (s : Scope) (e : Expr) (name : String) : StaticType → Prop
  | parameter {location} (hname : s.ReadsParameter e name) :
      NameReading s e name (.generic name location)
  | erased {location} (hname : ¬ s.ReadsParameter e name) (h : s.isTypeOnly name = true) :
      NameReading s e name (.primitive "any" location)
  | reference {arguments location} (hname : ¬ s.ReadsParameter e name)
      (h : s.isTypeOnly name = false) : NameReading s e name (.reference name arguments location)

namespace Scope.NameReading

variable {s : Scope} {e : Expr} {name : String} {t : StaticType}

/-- A name that is no special form is a reference unless it is a type parameter or has no value when
the module runs. -/
theorem isReference_iff (h : s.NameReading e name t) :
    (∃ arguments location, t = .reference name arguments location) ↔
      ¬ s.ReadsParameter e name ∧ s.isTypeOnly name = false := by
  cases h with
  | parameter hname => simp [hname]
  | erased hname h => simp [h]
  | reference hname h => simp [hname, h]

/-- A name that is no special form is anything if it has no value when the module runs, unless it is
a type parameter. -/
theorem isAny_iff (h : s.NameReading e name t) :
    (∃ location, t = .primitive "any" location) ↔
      ¬ s.ReadsParameter e name ∧ s.isTypeOnly name = true := by
  cases h with
  | parameter hname => simp [hname]
  | erased hname h => simp [hname, h]
  | reference hname h => simp [h]

end Scope.NameReading

namespace HintContext

variable {c : HintContext} {e : Expr} {t : StaticType} {name : String}

/-- A hint that a name is the head of is the name alone, or it has arguments. -/
theorem form_of_head (h : e.head.dotted? = some name) :
    (e.head = e ∧ e.hasArguments = false ∧ c.form e = .done (c.denoteName e)) ∨
      ∃ index, e.hasArguments = true ∧
        (c.scope.canonical e.head = none → c.form e = c.genericForm e e.head index) ∧
        ∀ special, c.scope.canonical e.head = some special →
          c.form e = c.specialForm e special index := by
  cases e with
  | name pos id =>
    unfold form
    exact .inl ⟨rfl, rfl, rfl⟩
  | «attribute» pos base attr =>
    unfold form
    exact .inl ⟨rfl, rfl, rfl⟩
  | subscript pos base index =>
    unfold form
    refine .inr ⟨index, rfl, fun hplain => ?_, fun special hspecial => ?_⟩
    · have hbase : c.scope.canonical base = none := hplain
      simp only [hbase, Expr.head]
    · have hbase : c.scope.canonical base = some special := hspecial
      simp only [hbase]
  | _ => cases h

/-- A name that is no special form is read as such, with or without arguments. -/
theorem nameReading_of_denote (hname : e.head.dotted? = some name)
    (hplain : c.scope.canonical e.head = none) (h : c.denote e = .ok t) :
    c.scope.NameReading e name t := by
  refine of_answers ?_ h
  rcases form_of_head hname with ⟨hhead, hbare, hform⟩ | ⟨index, harguments, hform, -⟩
  · rw [hform]
    intro t ht
    rw [hhead] at hname hplain
    simp only [denoteName, hplain, hname] at ht
    split at ht
    · rename_i hgeneric
      obtain rfl := Except.ok.inj ht
      exact .parameter ⟨hbare, List.contains_iff_mem.1 hgeneric⟩
    · rename_i hgeneric
      have hnone : ¬ c.scope.ReadsParameter e name :=
        fun h => hgeneric (List.contains_iff_mem.2 h.2)
      split at ht
      · rename_i htypeOnly
        obtain rfl := Except.ok.inj ht
        exact .erased hnone htypeOnly
      · rename_i htypeOnly
        obtain rfl := Except.ok.inj ht
        exact .reference hnone (Bool.eq_false_iff.2 htypeOnly)
  · have hnone : ¬ c.scope.ReadsParameter e name := by simp [Scope.ReadsParameter, harguments]
    rw [hform hplain]
    simp only [genericForm, hname]
    split
    · rename_i htypeOnly
      intro t ht
      obtain rfl := Except.ok.inj ht
      exact .erased hnone htypeOnly
    · rename_i htypeOnly
      intro types t ht
      obtain rfl := Except.ok.inj ht
      exact .reference hnone (Bool.eq_false_iff.2 htypeOnly)

/-- The name of a builtin type makes that type with the arguments that it has. -/
theorem answers_builtin {n : String} {index : Expr} (hn : n ∈ builtinTypeNames) :
    (c.specialForm e n index).Answers (StaticType.IsBuiltin n) := by
  have hforms : ∀ n ∈ builtinTypeNames, n ≠ "Optional" ∧ n ≠ "Union" ∧ n ≠ "Callable" ∧
      n ≠ "Literal" ∧ n ≠ "Annotated" ∧ n ≠ "Intersection" ∧ n ≠ "Refinement" := by decide
  obtain ⟨hoptional, hunion, hcallable, hliteral, hannotated, hintersection, hrefinement⟩ :=
    hforms n hn
  unfold specialForm
  simp only [hoptional, hunion, hcallable, hliteral, hannotated, hintersection, hrefinement,
    if_false]
  split
  · rename_i container hcontainer
    split
    · exact answers_ofOne fun u => hcontainer
    · exact answers_of_ne_ok fun t => expected_ne_ok
  split
  · rename_i hdict
    split
    · exact answers_ofTwo fun u v => List.contains_iff_mem.1 hdict
    · exact answers_of_ne_ok fun t => expected_ne_ok
  split
  · rename_i htuple
    have htuple : n ∈ tupleNames := List.contains_iff_mem.1 htuple
    unfold tupleForm
    dsimp only
    split
    · intro t ht
      obtain rfl := Except.ok.inj ht
      exact htuple
    · exact answers_ofOne fun u => htuple
    · intro types t ht
      obtain rfl := Except.ok.inj ht
      exact htuple
  · exact answers_of_ne_ok fun t => refuse_ne_ok

/-- The name of a builtin type denotes it, with or without arguments. -/
theorem isBuiltin_of_denote {n : String} (hn : n ∈ builtinTypeNames)
    (hname : e.head.dotted? = some name) (hspecial : c.scope.canonical e.head = some n)
    (h : c.denote e = .ok t) : t.IsBuiltin n := by
  refine of_answers ?_ h
  rcases form_of_head hname with ⟨hhead, -, hform⟩ | ⟨index, -, -, hform⟩
  · rw [hform]
    intro t ht
    rw [hhead] at hspecial
    simp only [denoteName, hspecial] at ht
    split at ht
    · rename_i hprimitive
      obtain rfl := Except.ok.inj ht
      exact hprimitive
    · rename_i hcontainer
      obtain rfl := Except.ok.inj ht
      exact hcontainer
    · split at ht
      · rename_i htuple
        obtain rfl := Except.ok.inj ht
        exact List.contains_iff_mem.1 htuple
      · exact absurd ht refuse_ne_ok
  · rw [hform n hspecial]
    exact answers_builtin hn

end HintContext

end Typeward
