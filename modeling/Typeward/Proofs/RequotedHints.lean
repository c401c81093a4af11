import Typeward.Proofs.AlikeHints
import Typeward.Proofs.LoweringFaults

/-!
# Hints written in strings

A hint may be written in a string, and so may the types in it, strings in strings included. This
changes nothing but the places in the type, which are those of the strings.
-/

namespace Typeward

open HintContext StaticType

/-- The first hint is the second one with types in it written in strings. Neither the places of nodes
matter nor how often a type is quoted. -/
inductive Expr.Requoted (s : Scope) : Expr → Expr → Prop
  | same {e e'} (h : e.SameCode e') : Requoted s e e'
  | quoted {pos text marked inner e'} (hread : readQuoted text = .ok inner)
      (h : Requoted s inner.1 e') : Requoted s (.constant pos (.text text) marked) e'
  | union {pos pos' left left' right right'} (hleft : Requoted s left left')
      (hright : Requoted s right right') :
      Requoted s (.binary pos left .bitOr right) (.binary pos' left' .bitOr right')
  | subscript {pos pos' base base' index index'} (hbase : base.SameCode base')
      (hindex : IndexAlike (Requoted s) (s.canonical base) index index') :
      Requoted s (.subscript pos base index) (.subscript pos' base' index')

namespace HintContext

variable {P Q : Expr → Expr → Prop}

/-- What stands for parameters goes together under whatever follows for its hints. -/
theorem ParamsAlike.imp (hPQ : ∀ a a', P a a' → Q a a') {params params' : Expr}
    (h : ParamsAlike P params params') : ParamsAlike Q params params' := by
  cases h with
  | same h => exact .same h
  | list h => exact .list (h.imp hPQ)

/-- What stands in brackets goes together under whatever follows for its hints. -/
theorem IndexAlike.imp (hPQ : ∀ a a', P a a' → Q a a') {special : Option String}
    {index index' : Expr} (h : IndexAlike P special index index') :
    IndexAlike Q special index index' := by
  cases h with
  | same h => exact .same h
  | arguments h => exact .arguments (h.imp hPQ)
  | types hspecial h htuple => exact .types hspecial (h.imp hPQ) htuple
  | callable hspecial hindex hindex' hparams hresult =>
    exact .callable hspecial hindex hindex' (hparams.imp hPQ) (hPQ _ _ hresult)
  | miscounted hspecial h hlength => exact .miscounted hspecial (h.imp hPQ) hlength
  | annotated hspecial hindex hindex' hfirst hrest =>
    exact .annotated hspecial hindex hindex' (hPQ _ _ hfirst) hrest

end HintContext

/-- What holds of the same code, and of hints that are put together from ones of which it holds,
holds of hints of which one is the other with types written in strings. -/
theorem Expr.Requoted.induct {s : Scope} {Q : Expr → Expr → Prop}
    (same : ∀ {e e'}, e.SameCode e' → Q e e')
    (quoted : ∀ {pos text marked inner e'}, readQuoted text = .ok inner → Q inner.1 e' →
      Q (.constant pos (.text text) marked) e')
    (union : ∀ {pos pos' left left' right right'}, Q left left' → Q right right' →
      Q (.binary pos left .bitOr right) (.binary pos' left' .bitOr right'))
    (subscript : ∀ {pos pos' base base' index index'}, base.SameCode base' →
      IndexAlike Q (s.canonical base) index index' →
      Q (.subscript pos base index) (.subscript pos' base' index')) {e e' : Expr}
    (h : e.Requoted s e') : Q e e' :=
  @Requoted.rec s (fun e e' _ => Q e e') (fun special index index' _ => IndexAlike Q special index index')
    (fun as as' _ => List.Forall₂ Q as as') (fun params params' _ => ParamsAlike Q params params')
    same (fun hread _ h => quoted hread h) (fun _ _ hleft hright => union hleft hright)
    (fun hbase _ hindex => subscript hbase hindex) .same (fun _ h => .arguments h)
    (fun hspecial _ htuple h => .types hspecial h htuple)
    (fun hspecial hindex hindex' _ _ hparams hresult =>
      .callable hspecial hindex hindex' hparams hresult)
    (fun hspecial _ hlength h => .miscounted hspecial h hlength)
    (fun hspecial hindex hindex' _ hrest hfirst => .annotated hspecial hindex hindex' hfirst hrest)
    .nil (fun _ _ hfirst hrest => .cons hfirst hrest) .same (fun _ h => .list h) e e' h

namespace HintContext

variable {c c' : HintContext} {e e' : Expr}

/-- Only a string is read as what is quoted in it. -/
theorem exists_constant_of_form_quoted {pos : Pos} {text : String}
    (h : c.form e = .quoted pos text) : ∃ marked, e = .constant pos (.text text) marked := by
  have htells : (c.form e).Tells c e := tells_form
  rw [h] at htells
  exact htells

/-- Hints of which one is the other with types in it written in strings go together. -/
theorem agree_denote_of_requoted (hscope : c.scope.Alike c'.scope) (h : e.Requoted c.scope e') :
    Agree SameType (c.denote e) (c'.denote e') := by
  refine h.induct (Q := fun e e' => ∀ d d' : HintContext, d.scope = c.scope →
    d.scope.Alike d'.scope → Agree SameType (d.denote e) (d'.denote e'))
    ?same ?quoted ?union ?subscript c c' rfl hscope
  case same =>
    exact fun h d d' _ hscope => agree_denote_of_sameCode hscope h
  case quoted =>
    intro pos text marked inner e' hread ih d d' hd hscope
    rw [denote_of_form_quoted (by unfold form; rfl) hread]
    exact ih _ d' hd hscope
  case union =>
    intro pos pos' left left' right right' hleft hright d d' hd hscope
    refine agree_of_alike ?_ fun p p' text inner hquoted => ?_
    · unfold form
      exact .composed (.cons (hleft d d' hd hscope) (.cons (hright d d' hd hscope) .nil))
        fun ts ts' hts => .ok (congrArg (StaticType.union · none) (allPlacedAt_eq hts))
    · obtain ⟨marked, heq⟩ := exists_constant_of_form_quoted hquoted
      cases heq
  case subscript =>
    intro pos pos' base base' index index' hbase hindex d d' hd hscope
    have hindex' : IndexAlike (fun a a' => Agree SameType (d.denote a) (d'.denote a'))
        (d.scope.canonical base) index index' :=
      hd ▸ hindex.imp fun a a' ha => ha d d' hd hscope
    have hsame (a a' : Expr) (ha : a.SameCode a') : Agree SameType (d.denote a) (d'.denote a') :=
      agree_denote_of_sameCode hscope ha
    refine agree_of_alike (alike_subscript hsame hscope hbase hindex')
      fun p p' text inner hquoted => ?_
    obtain ⟨marked, heq⟩ := exists_constant_of_form_quoted hquoted
    cases heq

/-- All of the type that a string denotes lies where the string does. -/
theorem location_of_denote_string {pos : Pos} {text : String} {marked : Bool} {t u : StaticType}
    (h : c.denote (.constant pos (.text text) marked) = .ok t) (hu : u.StandsIn t) :
    u.location = some (c.location pos) := by
  obtain ⟨n, hn, hplace⟩ := locates_of_denote h hu
  cases hn with
  | self => exact hplace
  | part hc => exact absurd hc List.not_mem_nil

end HintContext

/-- The special forms that say whether the field of a record is required. -/
def fieldMarks : List String := ["Required", "NotRequired"]

/-- Whether a hint says whether its field is required. -/
def Scope.marksField (s : Scope) : Expr → Bool
  | .subscript _ base _ => (s.canonical base).any fieldMarks.contains
  | _ => false

/-- The first hint of a field is the second one with types in it written in strings. What says
whether the field is required stays outside of the strings. -/
inductive Expr.FieldRequoted (s : Scope) : Expr → Expr → Prop
  | marked {pos pos' base base' index index'} (hbase : base.SameCode base')
      (hmarks : (s.canonical base).any fieldMarks.contains = true)
      (hindex : index.Requoted s index') :
      FieldRequoted s (.subscript pos base index) (.subscript pos' base' index')
  | plain {hint hint'} (hplain : s.marksField hint' = false) (h : hint.Requoted s hint') :
      FieldRequoted s hint hint'

namespace Scope

variable {s s' : Scope}

/-- A scope is like itself. -/
theorem Alike.refl (s : Scope) : s.Alike s := ⟨rfl, rfl, rfl, rfl, rfl, rfl, rfl⟩

/-- Whether a hint says whether its field is required is the same for the same code. -/
theorem Alike.marksField_eq (hscope : s.Alike s') {e e' : Expr} (h : e.SameCode e') :
    s.marksField e = s'.marksField e' := by
  have hother {s : Scope} {e : Expr} (he : ¬ ∃ pos base index, e = .subscript pos base index) :
      s.marksField e = false := by
    cases e with
    | subscript pos base index => exact absurd ⟨pos, base, index, rfl⟩ he
    | _ => rfl
  by_cases hsubscript : ∃ pos base index, e = .subscript pos base index
  · obtain ⟨pos, base, index, rfl⟩ := hsubscript
    obtain ⟨q, base', index', rfl, hbase, -⟩ := h.of_subscript
    rw [marksField, marksField, hscope.canonical_of_sameCode hbase]
  · rw [hother hsubscript, hother (mt (exists_subscript_iff h).2 hsubscript)]

/-- What says whether a field is required stays outside of the strings in its hint. -/
theorem marksField_of_requoted {hint hint' : Expr} (h : hint.Requoted s hint')
    (hplain : s.marksField hint' = false) : s.marksField hint = false := by
  cases h with
  | same h => rwa [(Alike.refl s).marksField_eq h]
  | quoted | union => rfl
  | subscript hbase =>
    rw [marksField, (Alike.refl s).canonical_of_sameCode hbase]
    exact hplain

/-- A hint that says nothing of its field is the hint of a type. -/
theorem readField_of_plain {hint : Expr} (hplain : s.marksField hint = false) (total : Bool) :
    s.readField total hint = (! total, hint) := by
  unfold readField
  split
  · rw [marksField] at hplain
    split
    · rename_i hspecial
      rw [hspecial] at hplain
      cases hplain
    · rename_i hspecial
      rw [hspecial] at hplain
      cases hplain
    · rfl
  · rfl

/-- There are two special forms that say whether a field is required. -/
theorem canonical_of_marks {base : Expr}
    (hmarks : (s.canonical base).any fieldMarks.contains = true) :
    s.canonical base = some "Required" ∨ s.canonical base = some "NotRequired" := by
  cases hspecial : s.canonical base with
  | none =>
    rw [hspecial] at hmarks
    cases hmarks
  | some special =>
    rw [hspecial] at hmarks
    have hmember : special = "Required" ∨ special = "NotRequired" := by
      simpa [fieldMarks] using hmarks
    exact hmember.imp (congrArg some) (congrArg some)

/-- A hint that says whether its field is required has the hint of a type in its brackets. -/
theorem readField_of_marked {pos : Pos} {base index : Expr}
    (hmarks : (s.canonical base).any fieldMarks.contains = true) (total : Bool) :
    s.readField total (.subscript pos base index) =
      (s.canonical base == some "NotRequired", index) := by
  unfold readField
  dsimp only
  rcases canonical_of_marks hmarks with hspecial | hspecial
  · rw [hspecial]
    rfl
  · rw [hspecial]
    rfl

/-- Hints of fields of which one is the other with types written in strings say the same about the
field, and the hints of the types are related so, too. -/
theorem readField_of_requoted (hscope : s.Alike s') {hint hint' : Expr}
    (h : hint.FieldRequoted s hint') (total : Bool) :
    (s.readField total hint).1 = (s'.readField total hint').1 ∧
      (s.readField total hint).2.Requoted s (s'.readField total hint').2 := by
  cases h with
  | marked hbase hmarks hindex =>
    have hcanonical := hscope.canonical_of_sameCode hbase
    rw [readField_of_marked hmarks, readField_of_marked (hcanonical ▸ hmarks), hcanonical]
    exact ⟨rfl, hindex⟩
  | plain hplain h =>
    have hplain' := (hscope.marksField_eq (rfl : hint'.SameCode hint')).symm.trans hplain
    rw [readField_of_plain (marksField_of_requoted h hplain), readField_of_plain hplain']
    exact ⟨rfl, h⟩

end Scope

namespace HintContext

variable {c : HintContext} {e : Expr}

/-- What says whether a field is required denotes no type. -/
theorem denote_ne_ok_of_marksField (hmarks : c.scope.marksField e = true) {t : StaticType} :
    c.denote e ≠ .ok t := by
  cases e with
  | subscript pos base index =>
    have hform : c.form (.subscript pos base index) =
        .done (c.refuse (.subscript pos base index)) := by
      unfold form
      dsimp only
      rcases Scope.canonical_of_marks hmarks with hspecial | hspecial
      · rw [hspecial]
        rfl
      · rw [hspecial]
        rfl
    rw [denote_of_form_done hform]
    exact refuse_ne_ok
  | _ => cases hmarks

/-- Nor does it in a string. -/
theorem denote_string_ne_ok_of_marksField {pos : Pos} {text : String} {marked : Bool}
    {inner : { e : Expr // e.textSize < text.length }} (hread : readQuoted text = .ok inner)
    (hmarks : c.scope.marksField inner.1 = true) {t : StaticType} :
    c.denote (.constant pos (.text text) marked) ≠ .ok t := by
  rw [denote_of_form_quoted (by unfold form; rfl) hread]
  exact denote_ne_ok_of_marksField (c := { c with anchor := some (c.anchor.getD pos) }) hmarks

end HintContext

end Typeward
