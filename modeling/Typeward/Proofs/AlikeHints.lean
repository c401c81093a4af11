import Typeward.Proofs.AlikeScopes
import Typeward.Proofs.CleanFailures

/-!
# Hints that are alike

Two hints go together if both denote types, which are the same but for their places, or neither
does. What a hint denotes is made of what its parts denote, so hints of one form go together if
their parts do. Hints that are the same code go together: their places do not matter.
-/

namespace Typeward

open Source

/-- Two outcomes go together: both are answers, which are related, or both are failures. -/
inductive Agree {α β : Type} (R : α → β → Prop) : Except Failure α → Except Failure β → Prop
  | ok {a b} (h : R a b) : Agree R (.ok a) (.ok b)
  | error (failure failure') : Agree R (.error failure) (.error failure')

namespace Agree

variable {α β γ δ : Type} {R : α → β → Prop} {Q : γ → δ → Prop}

/-- Outcomes of which neither is an answer go together. -/
theorem of_ne_ok {x : Except Failure α} {y : Except Failure β} (hx : ∀ a, x ≠ .ok a)
    (hy : ∀ b, y ≠ .ok b) : Agree R x y := by
  cases x with
  | ok a => exact absurd rfl (hx a)
  | error failure =>
    cases y with
    | ok b => exact absurd rfl (hy b)
    | error failure' => exact .error failure failure'

/-- What is made of outcomes that go together goes together. -/
theorem bind {x : Except Failure α} {y : Except Failure β} {f : α → Except Failure γ}
    {g : β → Except Failure δ} (h : Agree R x y) (hfg : ∀ a b, R a b → Agree Q (f a) (g b)) :
    Agree Q (x >>= f) (y >>= g) := by
  cases h with
  | ok h => exact hfg _ _ h
  | error failure failure' => exact .error failure failure'

/-- What is made of members that go together one by one goes together. -/
theorem mapM {ι κ : Type} {f : ι → Except Failure α} {g : κ → Except Failure β} {as : List ι}
    {bs : List κ} (h : List.Forall₂ (fun a b => Agree R (f a) (g b)) as bs) :
    Agree (List.Forall₂ R) (as.mapM f) (bs.mapM g) := by
  induction h with
  | nil => exact .ok .nil
  | cons hfirst _ ih =>
    rw [List.mapM_cons, List.mapM_cons]
    exact hfirst.bind fun a b hab => ih.bind fun as bs hrest => .ok (.cons hab hrest)

end Agree

/-- Two ways to find the type of a hint go together: if the types of the parts do, so does the type
that is made of them. -/
inductive HintContext.Form.Alike (P : Expr → Expr → Prop) : Form → Form → Prop
  | done {result result'} (h : Agree StaticType.SameType result result') :
      Alike P (.done result) (.done result')
  | quoted (pos pos' text) : Alike P (.quoted pos text) (.quoted pos' text)
  | composed {parts parts' finish finish'} (hparts : List.Forall₂ P parts parts')
      (hfinish : ∀ types types', List.Forall₂ StaticType.SameType types types' →
        Agree StaticType.SameType (finish types) (finish' types')) :
      Alike P (.composed parts finish) (.composed parts' finish')

/-- Forms whose parts are related are alike under whatever follows from that. -/
theorem HintContext.Form.Alike.imp {P Q : Expr → Expr → Prop} {f f' : Form} (h : f.Alike P f')
    (hPQ : f.AllParts fun a => ∀ a', P a a' → Q a a') : f.Alike Q f' := by
  cases h with
  | done h => exact .done h
  | quoted pos pos' text => exact .quoted pos pos' text
  | composed hparts hfinish =>
    refine .composed (List.Forall₂.imp ?_ ((List.forall₂_and_left _ _).2 ⟨hPQ, hparts⟩)) hfinish
    exact fun a a' ha => ha.1 a' ha.2

namespace HintContext

open StaticType

variable {c c' : HintContext} {e e' : Expr}

/-- Two hints that are both refused go together. -/
theorem agree_refuse {α : Type} {R : α → α → Prop} : Agree R (c.refuse e) (c'.refuse e') :=
  .of_ne_ok (fun _ => refuse_ne_ok) fun _ => refuse_ne_ok

/-- Two hints with a wrong number of arguments go together. -/
theorem agree_expected {α : Type} {R : α → α → Prop} {count : Nat} :
    Agree R (c.expected e count) (c'.expected e' count) :=
  .of_ne_ok (fun _ => expected_ne_ok) fun _ => expected_ne_ok

/-- The special forms whose brackets hold something else than types, each on its own. -/
def structuredForms : List String := ["Callable", "Literal", "Annotated", "Refinement"]

/-- Whether what stands in the brackets of a special form are types, each on its own. -/
def holdsTypes (special : String) : Bool := ! structuredForms.contains special

/-- The brackets of a special form hold types if none of the structured ones has what tells it. -/
theorem holdsTypes_of_tells {special : String} (tells : String → Bool) (h : tells special = true)
    (hnone : structuredForms.all (! tells ·) = true) : holdsTypes special = true := by
  have hnot : special ∉ structuredForms := fun hmem => by
    have := List.all_eq_true.1 hnone special hmem
    rw [h] at this
    cases this
  simpa [holdsTypes] using hnot

/-- Whether an argument says what tuples are meant and is no type itself. -/
def marksTuple : Expr → Bool
  | .constant _ .ellipsis _ | .display _ .tuple [] => true
  | _ => false

/-- What stands for the parameters in function types goes together: lists of hints that do, or the
same code. -/
inductive ParamsAlike (P : Expr → Expr → Prop) : Expr → Expr → Prop
  | same {params params'} (h : params.SameCode params') : ParamsAlike P params params'
  | list {pos pos' ps ps'} (h : List.Forall₂ P ps ps') :
      ParamsAlike P (.display pos .list ps) (.display pos' .list ps')

/-- What stands in the brackets of a subscript goes together, given what the subscript is one of. -/
inductive IndexAlike (P : Expr → Expr → Prop) : Option String → Expr → Expr → Prop
  | same {special index index'} (h : index.SameCode index') : IndexAlike P special index index'
  | arguments {index index'}
      (h : List.Forall₂ P (subscriptArguments index) (subscriptArguments index')) :
      IndexAlike P none index index'
  | types {special index index'} (hspecial : holdsTypes special = true)
      (h : List.Forall₂ P (subscriptArguments index) (subscriptArguments index'))
      (htuple : tupleNames.contains special = true →
        List.Forall₂ (fun a a' => marksTuple a ∨ marksTuple a' → a.SameCode a')
          (subscriptArguments index) (subscriptArguments index')) :
      IndexAlike P (some special) index index'
  | callable {special index index' params params' result result'} (hspecial : special = "Callable")
      (hindex : subscriptArguments index = [params, result])
      (hindex' : subscriptArguments index' = [params', result'])
      (hparams : ParamsAlike P params params') (hresult : P result result') :
      IndexAlike P (some special) index index'
  | miscounted {special index index'} (hspecial : special = "Callable")
      (h : List.Forall₂ P (subscriptArguments index) (subscriptArguments index'))
      (hlength : (subscriptArguments index).length ≠ 2) : IndexAlike P (some special) index index'
  | annotated {special index index' a a' rest rest'} (hspecial : special = "Annotated")
      (hindex : subscriptArguments index = a :: rest)
      (hindex' : subscriptArguments index' = a' :: rest') (hfirst : P a a')
      (hrest : List.Forall₂ Expr.SameCode rest rest') : IndexAlike P (some special) index index'

section Forms

variable {P : Expr → Expr → Prop} {as as' : List Expr}

/-- A type made of exactly one other goes together with one that is made in the same way. -/
theorem agree_ofOne {make make' : StaticType → StaticType}
    (h : ∀ t t', t.SameType t' → (make t).SameType (make' t')) {types types' : List StaticType}
    (htypes : List.Forall₂ SameType types types') :
    Agree SameType (c.ofOne e make types) (c'.ofOne e' make' types') := by
  cases htypes with
  | nil => exact agree_expected
  | cons hfirst hrest =>
    cases hrest with
    | nil => exact .ok (h _ _ hfirst)
    | cons => exact agree_expected

/-- A type made of exactly two others goes together with one that is made in the same way. -/
theorem agree_ofTwo {make make' : StaticType → StaticType → StaticType}
    (h : ∀ t t' u u', t.SameType t' → u.SameType u' → (make t u).SameType (make' t' u'))
    {types types' : List StaticType} (htypes : List.Forall₂ SameType types types') :
    Agree SameType (c.ofTwo e make types) (c'.ofTwo e' make' types') := by
  cases htypes with
  | nil => exact agree_expected
  | cons hfirst hrest =>
    cases hrest with
    | nil => exact agree_expected
    | cons hsecond hrest =>
      cases hrest with
      | nil => exact .ok (h _ _ _ _ hfirst hsecond)
      | cons => exact agree_expected

/-- The same code as a name goes together with it. -/
theorem agree_denoteName (hscope : c.scope.Alike c'.scope) (he : e.SameCode e') :
    Agree SameType (c.denoteName e) (c'.denoteName e') := by
  unfold denoteName
  dsimp only
  rw [hscope.canonical_of_sameCode he, he.designator?_eq.1, hscope.generics]
  simp only [hscope.isTypeOnly_eq]
  cases c'.scope.canonical e' with
  | some special =>
    dsimp only
    cases primitiveNames.lookup special with
    | some primitive => exact .ok rfl
    | none =>
      cases arrayContainers.lookup special with
      | some container => exact .ok rfl
      | none =>
        dsimp only
        split
        · exact .ok rfl
        · exact agree_refuse
  | none =>
    cases e'.dotted? with
    | none => exact agree_refuse
    | some name =>
      dsimp only
      split
      · exact .ok rfl
      · split
        · exact .ok rfl
        · exact .ok rfl

/-- A value in a literal type goes together with the same code elsewhere. -/
theorem agree_denoteLiteral_placedAt (pos : Pos) (a : Expr) :
    Agree SameType (c.denoteLiteral a) (c'.denoteLiteral (a.placedAt pos)) := by
  have hrefused {a a' : Expr} : Agree SameType
      (do c.unsupported a ("literal value '" ++ (← text a) ++ "'"))
      (do c'.unsupported a' ("literal value '" ++ (← text a') ++ "'")) := by
    refine .of_ne_ok (fun t h => ?_) fun t h => ?_
    · obtain ⟨source, -, h⟩ := Except.bind_eq_ok.1 h
      exact unsupported_ne_ok h
    · obtain ⟨source, -, h⟩ := Except.bind_eq_ok.1 h
      exact unsupported_ne_ok h
  rw [Expr.placedAt_eq]
  cases a with
  | constant p value marked =>
    cases value with
    | none | bool | int | text | surrogates | bytes => exact .ok rfl
    | float | complex | ellipsis => exact hrefused
  | unary p op operand =>
    cases op with
    | minus =>
      change Agree SameType _ (c'.denoteLiteral (.unary pos .minus (operand.placedAt pos)))
      rw [Expr.placedAt_eq]
      cases operand with
      | constant q value marked =>
        cases value with
        | int | bool => exact .ok rfl
        | _ => exact hrefused
      | _ => exact hrefused
    | _ => exact hrefused
  | _ => exact hrefused

/-- Outcomes of which the types are the same go together with what goes together with them. -/
theorem agree_trans {x y z : Except Failure StaticType} (hxy : Agree SameType x y)
    (hzy : Agree SameType z y) : Agree SameType x z := by
  cases hxy with
  | ok h =>
    cases hzy with
    | ok h' => exact .ok (h.trans h'.symm)
  | error =>
    cases hzy with
    | error => exact .error _ _

/-- Values in literal types that are the same code go together. -/
theorem agree_denoteLiteral {a a' : Expr} (h : a.SameCode a') :
    Agree SameType (c.denoteLiteral a) (c'.denoteLiteral a') := by
  have hleft : Agree SameType (c.denoteLiteral a) (c.denoteLiteral (a.placedAt .nowhere)) :=
    agree_denoteLiteral_placedAt .nowhere a
  have hright : Agree SameType (c'.denoteLiteral a') (c.denoteLiteral (a'.placedAt .nowhere)) :=
    agree_denoteLiteral_placedAt .nowhere a'
  rw [← h] at hright
  exact agree_trans hleft hright

/-- Markers of refinements that are the same code go together. -/
theorem agree_denoteMarker {whole whole' index index' : Expr} (h : index.SameCode index') :
    Agree SameType (c.denoteMarker whole index) (c'.denoteMarker whole' index') := by
  unfold denoteMarker
  rw [h.designator?_eq.1]
  cases index'.dotted? with
  | some predicate => exact .ok rfl
  | none =>
    refine .of_ne_ok (fun t h => ?_) fun t h => ?_
    · obtain ⟨source, -, h⟩ := Except.bind_eq_ok.1 h
      exact unsupported_ne_ok h
    · obtain ⟨source, -, h⟩ := Except.bind_eq_ok.1 h
      exact unsupported_ne_ok h

/-- The same code is a subscript or is none. -/
theorem exists_subscript_iff {a a' : Expr} (h : a.SameCode a') :
    (∃ p base index, a = .subscript p base index) ↔
      ∃ p base index, a' = .subscript p base index := by
  constructor
  · rintro ⟨p, base, index, rfl⟩
    obtain ⟨q, base', index', rfl, -, -⟩ := h.of_subscript
    exact ⟨q, base', index', rfl⟩
  · rintro ⟨p, base, index, rfl⟩
    obtain ⟨q, base', index', rfl, -, -⟩ := Expr.SameCode.of_subscript h.symm
    exact ⟨q, base', index', rfl⟩

/-- The same code is a marker or is none. -/
theorem isMarker_eq (hscope : c.scope.Alike c'.scope) {a a' : Expr} (h : a.SameCode a') :
    c.isMarker a = c'.isMarker a' := by
  have hother {d : HintContext} {b : Expr} (hb : ¬ ∃ p base index, b = .subscript p base index) :
      d.isMarker b = false := by
    cases b with
    | subscript p base index => exact absurd ⟨p, base, index, rfl⟩ hb
    | _ => rfl
  by_cases hsubscript : ∃ p base index, a = .subscript p base index
  · obtain ⟨p, base, index, rfl⟩ := hsubscript
    obtain ⟨q, base', index', rfl, hbase, -⟩ := h.of_subscript
    rw [isMarker, isMarker, hscope.canonical_of_sameCode hbase]
  · rw [hother hsubscript, hother (mt (exists_subscript_iff h).2 hsubscript)]

/-- What is a marker is a subscript. -/
theorem exists_subscript_of_isMarker {a : Expr} (h : c.isMarker a = true) :
    ∃ p base index, a = .subscript p base index := by
  cases a with
  | subscript p base index => exact ⟨p, base, index, rfl⟩
  | _ => cases h

/-- Markers behind annotated types that are the same code go together. -/
theorem agree_denoteMarkers (hscope : c.scope.Alike c'.scope)
    (h : List.Forall₂ Expr.SameCode as as') :
    Agree (List.Forall₂ SameType) (c.denoteMarkers as) (c'.denoteMarkers as') := by
  have hfiltered : List.Forall₂ Expr.SameCode (as.filter c.isMarker) (as'.filter c'.isMarker) :=
    List.rel_filter (fun a a' ha => iff_of_eq (congrArg (· = true) (isMarker_eq hscope ha))) h
  have hmarkers : List.Forall₂ (fun a a' => c.isMarker a = true ∧ a.SameCode a')
      (as.filter c.isMarker) (as'.filter c'.isMarker) :=
    (List.forall₂_and_left _ _).2 ⟨fun a ha => (List.mem_filter.1 ha).2, hfiltered⟩
  refine Agree.mapM (hmarkers.imp ?_)
  rintro a a' ⟨hmarker, ha⟩
  obtain ⟨p, base, index, rfl⟩ := exists_subscript_of_isMarker hmarker
  obtain ⟨q, base', index', rfl, -, hindex⟩ := ha.of_subscript
  exact agree_denoteMarker hindex

/-- The arguments of subscripts that are the same code are the same code one by one. -/
theorem forall₂_subscriptArguments {index index' : Expr} (h : index.SameCode index') :
    List.Forall₂ Expr.SameCode (subscriptArguments index) (subscriptArguments index') := by
  have hsingle {a : Expr} (ha : ∀ pos elements, a ≠ .display pos .tuple elements) :
      subscriptArguments a = [a] := by
    unfold subscriptArguments
    split
    · exact absurd rfl (ha _ _)
    · rfl
  by_cases htuple : ∃ pos elements, index = .display pos .tuple elements
  · obtain ⟨pos, elements, rfl⟩ := htuple
    obtain ⟨q, elements', rfl, helements⟩ := h.of_display
    exact helements
  · rw [hsingle fun pos elements heq => htuple ⟨pos, elements, heq⟩, hsingle]
    · exact .cons h .nil
    · rintro q elements' rfl
      obtain ⟨pos, elements, rfl, -⟩ := Expr.SameCode.of_display h.symm
      exact htuple ⟨pos, elements, rfl⟩

/-- The form of a tuple type of any length. -/
theorem tupleForm_variadic {a : Expr} {pos : Pos} {marked : Bool} :
    c.tupleForm e [a, .constant pos .ellipsis marked] =
      .composed [a] (c.ofOne e fun t => .tuple [t] true (some (c.location e.pos))) := by
  simp only [tupleForm]

/-- Tuple types whose arguments go together do so, if the arguments that say what tuples are meant
are the same. -/
theorem alike_tupleForm (h : List.Forall₂ P as as')
    (hmarks : List.Forall₂ (fun a a' => marksTuple a ∨ marksTuple a' → a.SameCode a') as as') :
    Form.Alike P (c.tupleForm e as) (c'.tupleForm e' as') := by
  have hvariadic {a a' : Expr} (ha : P a a') : Form.Alike P
      (.composed [a] (c.ofOne e fun t => .tuple [t] true (some (c.location e.pos))))
      (.composed [a'] (c'.ofOne e' fun t => .tuple [t] true (some (c'.location e'.pos)))) := by
    refine .composed (.cons ha .nil) fun types types' htypes => agree_ofOne ?_ htypes
    exact fun t t' ht => congrArg (StaticType.tuple [·] true none) ht
  unfold tupleForm
  dsimp only
  split
  · cases hmarks with
    | cons hfirst hrest =>
      cases hrest
      obtain ⟨q, elements, rfl, helements⟩ := (hfirst (.inl rfl)).of_display
      cases helements
      exact .done (.ok rfl)
  · cases hmarks with
    | cons hfirst hrest =>
      cases hrest with
      | cons hsecond hrest =>
        cases hrest
        obtain ⟨q, rfl⟩ := (hsecond (.inl rfl)).of_constant
        cases h with
        | cons ha =>
          change Form.Alike P _ (c'.tupleForm e' [_, .constant q .ellipsis _])
          rw [tupleForm_variadic]
          exact hvariadic ha
  · rename_i hunit hmarked
    split
    · cases hmarks with
      | cons hfirst hrest =>
        cases hrest
        obtain ⟨q, elements, rfl, helements⟩ := Expr.SameCode.of_display (hfirst (.inr rfl)).symm
        cases helements
        exact absurd rfl (hunit q)
    · cases hmarks with
      | cons hfirst hrest =>
        cases hrest with
        | cons hsecond hrest =>
          cases hrest
          obtain ⟨q, rfl⟩ := Expr.SameCode.of_constant (hsecond (.inr rfl)).symm
          exact absurd rfl (hmarked _ _ _)
    · exact .composed h fun types types' htypes =>
        .ok (congrArg (StaticType.tuple · false none) (allPlacedAt_eq htypes))

/-- The form of a function type whose parameters are neither left open nor listed. -/
theorem callableForm_of_other {params result : Expr}
    (hellipsis : ∀ pos marked, params ≠ .constant pos .ellipsis marked)
    (hlist : ∀ pos ps, params ≠ .display pos .list ps) :
    c.callableForm e params result =
      if params.dotted?.any c.scope.generics.contains then
        .composed [result] (c.ofOne e (.function none · (some (c.location e.pos))))
      else .composed [result] fun _ => c.refuse e := by
  unfold callableForm
  dsimp only
  split
  · exact absurd rfl (hellipsis _ _)
  · exact absurd rfl (hlist _ _)
  · rfl

/-- Function types go together if their results and their parameters do. -/
theorem alike_callableForm (hP : ∀ a a', a.SameCode a' → P a a') (hscope : c.scope.Alike c'.scope)
    {params params' result result' : Expr} (hparams : ParamsAlike P params params')
    (hresult : P result result') :
    Form.Alike P (c.callableForm e params result) (c'.callableForm e' params' result') := by
  have hany : Form.Alike P
      (.composed [result] (c.ofOne e (.function none · (some (c.location e.pos)))))
      (.composed [result'] (c'.ofOne e' (.function none · (some (c'.location e'.pos))))) := by
    refine .composed (.cons hresult .nil) fun types types' htypes => agree_ofOne ?_ htypes
    exact fun t t' ht => congrArg (StaticType.function none · none) ht
  have hlisted (pos pos' : Pos) {ps ps' : List Expr} (h : List.Forall₂ P ps ps') :
      Form.Alike P (c.callableForm e (.display pos .list ps) result)
        (c'.callableForm e' (.display pos' .list ps') result') := by
    refine .composed (.cons hresult h) fun types types' htypes => ?_
    cases htypes with
    | nil => exact agree_expected
    | cons hfirst hrest =>
      exact .ok (congrArg₂ (fun params result => StaticType.function (some params) result none)
        (allPlacedAt_eq hrest) hfirst)
  cases hparams with
  | list h => exact hlisted _ _ h
  | same h =>
    by_cases hellipsis : ∃ pos marked, params = .constant pos .ellipsis marked
    · obtain ⟨pos, marked, rfl⟩ := hellipsis
      obtain ⟨q, rfl⟩ := h.of_constant
      exact hany
    by_cases hlist : ∃ pos ps, params = .display pos .list ps
    · obtain ⟨pos, ps, rfl⟩ := hlist
      obtain ⟨q, ps', rfl, hps⟩ := h.of_display
      exact hlisted pos q (hps.imp hP)
    rw [callableForm_of_other (fun pos marked heq => hellipsis ⟨pos, marked, heq⟩)
        fun pos ps heq => hlist ⟨pos, ps, heq⟩,
      callableForm_of_other, h.designator?_eq.1, hscope.generics]
    · split
      · exact hany
      · exact .composed (.cons hresult .nil) fun types types' htypes => agree_refuse
    · rintro q marked rfl
      obtain ⟨pos, rfl⟩ := Expr.SameCode.of_constant h.symm
      exact hellipsis ⟨pos, marked, rfl⟩
    · rintro q ps' rfl
      obtain ⟨pos, ps, rfl, -⟩ := Expr.SameCode.of_display h.symm
      exact hlist ⟨pos, ps, rfl⟩

/-- Annotated types go together if the types do that are annotated. -/
theorem alike_annotatedForm (hscope : c.scope.Alike c'.scope) {a a' : Expr} (ha : P a a')
    (hrest : List.Forall₂ Expr.SameCode as as') :
    Form.Alike P (c.annotatedForm e (a :: as)) (c'.annotatedForm e' (a' :: as')) := by
  refine .composed (.cons ha .nil) fun types types' htypes => ?_
  refine (agree_denoteMarkers hscope hrest).bind fun markers markers' hmarkers => ?_
  have hmany : SameType (.intersection (types ++ markers) (some (c.location e.pos)))
      (.intersection (types' ++ markers') (some (c'.location e'.pos))) :=
    congrArg (StaticType.intersection · none)
      (allPlacedAt_eq (List.rel_append htypes hmarkers))
  cases htypes with
  | nil => exact .ok hmany
  | cons hfirst htypes =>
    cases htypes with
    | cons => exact .ok hmany
    | nil =>
      cases hmarkers with
      | nil => exact .ok hfirst
      | cons => exact .ok hmany

/-- Literal types of the same code go together. -/
theorem alike_literalForm (h : List.Forall₂ Expr.SameCode as as') :
    Form.Alike P (c.literalForm e as) (c'.literalForm e' as') := by
  refine .done ((Agree.mapM (h.imp fun a a' => agree_denoteLiteral)).bind fun ts ts' hts => ?_)
  have hmany : SameType (.union ts (some (c.location e.pos)))
      (.union ts' (some (c'.location e'.pos))) :=
    congrArg (StaticType.union · none) (allPlacedAt_eq hts)
  cases hts with
  | nil => exact .ok hmany
  | cons hfirst hrest =>
    cases hrest with
    | nil => exact .ok hfirst
    | cons => exact .ok hmany

/-- The types in the brackets behind a special form go together. -/
theorem IndexAlike.forall₂ (hP : ∀ a a', a.SameCode a' → P a a') {special : String}
    {index index' : Expr} (hspecial : holdsTypes special = true)
    (h : IndexAlike P (some special) index index') :
    List.Forall₂ P (subscriptArguments index) (subscriptArguments index') := by
  cases h with
  | same h => exact (forall₂_subscriptArguments h).imp hP
  | types _ h => exact h
  | callable hother | miscounted hother | annotated hother =>
    subst hother
    exact absurd hspecial (by decide)

/-- The arguments of a tuple type that say what tuples are meant are the same. -/
theorem IndexAlike.forall₂_marksTuple {special : String} {index index' : Expr}
    (h : IndexAlike P (some special) index index') (hspecial : tupleNames.contains special = true) :
    List.Forall₂ (fun a a' => marksTuple a ∨ marksTuple a' → a.SameCode a')
      (subscriptArguments index) (subscriptArguments index') := by
  cases h with
  | same h => exact (forall₂_subscriptArguments h).imp fun _ _ ha => Function.const _ ha
  | types _ _ htuple => exact htuple hspecial
  | callable hother | miscounted hother | annotated hother =>
    subst hother
    exact absurd hspecial (by decide)

/-- A function type with parameters and a result. -/
theorem specialForm_callable {index params result : Expr}
    (h : subscriptArguments index = [params, result]) :
    c.specialForm e "Callable" index = c.callableForm e params result := by
  unfold specialForm
  dsimp only
  rw [h]
  with_unfolding_all rfl

/-- A function type with another number of arguments. -/
theorem specialForm_miscounted {index : Expr} (h : (subscriptArguments index).length ≠ 2) :
    c.specialForm e "Callable" index = .done (c.expected e 2) := by
  unfold specialForm
  dsimp only
  generalize subscriptArguments index = as at h ⊢
  rcases as with _ | ⟨params, _ | ⟨result, _ | ⟨other, rest⟩⟩⟩
  · with_unfolding_all rfl
  · with_unfolding_all rfl
  · exact absurd rfl h
  · with_unfolding_all rfl

/-- Function types go together if what stands in their brackets does. -/
theorem alike_callable (hP : ∀ a a', a.SameCode a' → P a a') (hscope : c.scope.Alike c'.scope)
    {index index' : Expr} (h : IndexAlike P (some "Callable") index index') :
    Form.Alike P (c.specialForm e "Callable" index) (c'.specialForm e' "Callable" index') := by
  have hmiscounted (hlength : (subscriptArguments index).length ≠ 2)
      (heq : (subscriptArguments index).length = (subscriptArguments index').length) :
      Form.Alike P (c.specialForm e "Callable" index) (c'.specialForm e' "Callable" index') := by
    rw [specialForm_miscounted hlength, specialForm_miscounted (heq ▸ hlength)]
    exact .done agree_expected
  cases h with
  | same h =>
    have hall := forall₂_subscriptArguments h
    by_cases hlength : (subscriptArguments index).length = 2
    · obtain ⟨params, result, hindex⟩ := List.length_eq_two.1 hlength
      obtain ⟨params', result', hindex'⟩ := List.length_eq_two.1 (hall.length_eq ▸ hlength)
      rw [hindex, hindex'] at hall
      rw [specialForm_callable hindex, specialForm_callable hindex']
      cases hall with
      | cons hparams hall =>
        cases hall with
        | cons hresult => exact alike_callableForm hP hscope (.same hparams) (hP _ _ hresult)
    · exact hmiscounted hlength hall.length_eq
  | callable _ hindex hindex' hparams hresult =>
    rw [specialForm_callable hindex, specialForm_callable hindex']
    exact alike_callableForm hP hscope hparams hresult
  | miscounted _ hall hlength => exact hmiscounted hlength hall.length_eq
  | types hother | annotated hother => exact absurd hother (by decide)

/-- Annotated types go together if what stands in their brackets does. -/
theorem alike_annotated (hP : ∀ a a', a.SameCode a' → P a a') (hscope : c.scope.Alike c'.scope)
    {index index' : Expr} (h : IndexAlike P (some "Annotated") index index') :
    Form.Alike P (c.annotatedForm e (subscriptArguments index))
      (c'.annotatedForm e' (subscriptArguments index')) := by
  cases h with
  | same h =>
    have hall := forall₂_subscriptArguments h
    generalize subscriptArguments index = as at hall ⊢
    generalize subscriptArguments index' = as' at hall ⊢
    cases hall with
    | nil => exact .done (.error _ _)
    | cons hfirst hrest => exact alike_annotatedForm hscope (hP _ _ hfirst) hrest
  | annotated _ hindex hindex' hfirst hrest =>
    rw [hindex, hindex']
    exact alike_annotatedForm hscope hfirst hrest
  | types hother | callable hother | miscounted hother => exact absurd hother (by decide)

/-- Special forms with arguments go together if what stands in their brackets does. -/
theorem alike_specialForm (hP : ∀ a a', a.SameCode a' → P a a') (hscope : c.scope.Alike c'.scope)
    {special : String} {index index' : Expr} (h : IndexAlike P (some special) index index') :
    Form.Alike P (c.specialForm e special index) (c'.specialForm e' special index') := by
  have hrefused {count : Nat} :
      Form.Alike P (.done (c.expected e count)) (.done (c'.expected e' count)) :=
    .done agree_expected
  have htypes (tells : String → Bool) (htells : tells special = true)
      (hnone : structuredForms.all (! tells ·) = true) :=
    h.forall₂ hP (holdsTypes_of_tells tells htells hnone)
  unfold specialForm
  dsimp only
  split
  · rename_i hspecial
    have hall := htypes (· == "Optional") (beq_iff_eq.2 hspecial) (by decide)
    rw [hall.length_eq]
    split
    · refine .composed hall fun ts ts' hts => agree_ofOne ?_ hts
      exact fun t t' ht => congrArg (StaticType.nullable · none) ht
    · exact hrefused
  split
  · rename_i hspecial
    exact .composed (htypes (· == "Union") (beq_iff_eq.2 hspecial) (by decide))
      fun ts ts' hts => .ok (congrArg (StaticType.union · none) (allPlacedAt_eq hts))
  split
  · rename_i container hcontainer
    have hall := htypes (fun name => (arrayContainers.lookup name).isSome) (by rw [hcontainer]; rfl)
      (by decide)
    rw [hall.length_eq]
    split
    · refine .composed hall fun ts ts' hts => agree_ofOne ?_ hts
      exact fun t t' ht => congrArg (StaticType.array · container none) ht
    · exact hrefused
  split
  · rename_i hspecial
    have hall := htypes dictNames.contains hspecial (by decide)
    rw [hall.length_eq]
    split
    · refine .composed hall fun ts ts' hts => agree_ofTwo ?_ hts
      exact fun t t' u u' ht hu => congrArg₂ (StaticType.dict · · none) ht hu
    · exact hrefused
  split
  · rename_i hspecial
    exact alike_tupleForm (htypes tupleNames.contains hspecial (by decide))
      (h.forall₂_marksTuple hspecial)
  split
  · rename_i hspecial
    subst hspecial
    exact alike_callable hP hscope h
  split
  · rename_i hspecial
    subst hspecial
    cases h with
    | same h => exact alike_literalForm (forall₂_subscriptArguments h)
    | types hother | callable hother | miscounted hother | annotated hother =>
      exact absurd hother (by decide)
  split
  · rename_i hspecial
    subst hspecial
    exact alike_annotated hP hscope h
  split
  · rename_i hspecial
    exact .composed (htypes (· == "Intersection") (beq_iff_eq.2 hspecial) (by decide))
      fun ts ts' hts => .ok (congrArg (StaticType.intersection · none) (allPlacedAt_eq hts))
  split
  · rename_i hspecial
    subst hspecial
    cases h with
    | same h => exact .done (agree_denoteMarker h)
    | types hother | callable hother | miscounted hother | annotated hother =>
      exact absurd hother (by decide)
  · exact .done agree_refuse

/-- Names with arguments go together if what stands in the brackets does. -/
theorem alike_genericForm (hP : ∀ a a', a.SameCode a' → P a a') (hscope : c.scope.Alike c'.scope)
    {base base' index index' : Expr} (hbase : base.SameCode base')
    (h : IndexAlike P none index index') :
    Form.Alike P (c.genericForm e base index) (c'.genericForm e' base' index') := by
  unfold genericForm
  dsimp only
  rw [hbase.designator?_eq.1]
  cases base'.dotted? with
  | none => exact .done agree_refuse
  | some name =>
    dsimp only
    rw [hscope.isTypeOnly_eq]
    split
    · exact .done (.ok rfl)
    · refine .composed ?_ fun ts ts' hts =>
        .ok (congrArg (StaticType.reference name · none) (allPlacedAt_eq hts))
      cases h with
      | same h => exact (forall₂_subscriptArguments h).imp hP
      | arguments h => exact h

/-- Subscripts of the same code go together if what stands in their brackets does. -/
theorem alike_subscript (hP : ∀ a a', a.SameCode a' → P a a') (hscope : c.scope.Alike c'.scope)
    {pos pos' : Pos} {base base' index index' : Expr} (hbase : base.SameCode base')
    (h : IndexAlike P (c.scope.canonical base) index index') :
    Form.Alike P (c.form (.subscript pos base index)) (c'.form (.subscript pos' base' index')) := by
  have hcanonical := hscope.canonical_of_sameCode hbase
  unfold form
  dsimp only
  rw [← hcanonical]
  cases hspecial : c.scope.canonical base with
  | none => exact alike_genericForm hP hscope hbase (hspecial ▸ h)
  | some special => exact alike_specialForm hP hscope (hspecial ▸ h)

end Forms

/-- Whether an expression has one of the forms of hints. -/
def mayDenote : Expr → Bool
  | .constant _ .none _ | .constant _ (.text _) _ | .constant _ (.surrogates _) _ => true
  | .name .. | .attribute .. | .subscript .. | .binary _ _ .bitOr _ => true
  | _ => false

/-- What has none of the forms of hints is refused. -/
theorem form_of_not_mayDenote (h : mayDenote e = false) : c.form e = .done (c.refuse e) := by
  unfold form
  dsimp only
  split
  all_goals first
    | rfl
    | cases h

/-- The same code has one of the forms of hints or has none. -/
theorem mayDenote_eq (h : e.SameCode e') : mayDenote e = mayDenote e' := by
  have hplaced (e : Expr) : mayDenote (e.placedAt .nowhere) = mayDenote e := by
    rw [Expr.placedAt_eq]
    cases e with
    | constant pos value marked => cases value <;> rfl
    | binary pos left op right => cases op <;> rfl
    | _ => rfl
  rw [← hplaced e, ← hplaced e', h]

/-- The same code has the same form. -/
theorem alike_form (hscope : c.scope.Alike c'.scope) (h : e.SameCode e') :
    Form.Alike Expr.SameCode (c.form e) (c'.form e') := by
  have hnames {e e' : Expr} (h : e.SameCode e') :
      Form.Alike Expr.SameCode (.done (c.denoteName e)) (.done (c'.denoteName e')) :=
    .done (agree_denoteName hscope h)
  cases hmay : mayDenote e with
  | false =>
    rw [form_of_not_mayDenote hmay, form_of_not_mayDenote ((mayDenote_eq h).symm.trans hmay)]
    exact .done agree_refuse
  | true =>
    cases e with
    | name pos id =>
      obtain ⟨q, rfl⟩ := h.of_name
      unfold form
      exact hnames h
    | «attribute» pos base attr =>
      obtain ⟨q, base', rfl, -⟩ := h.of_attribute
      unfold form
      exact hnames h
    | subscript pos base index =>
      obtain ⟨q, base', index', rfl, hbase, hindex⟩ := h.of_subscript
      exact alike_subscript (fun _ _ => id) hscope hbase (.same hindex)
    | binary pos left op right =>
      obtain ⟨q, left', right', rfl, hleft, hright⟩ := h.of_binary
      cases op with
      | bitOr =>
        unfold form
        exact .composed (.cons hleft (.cons hright .nil)) fun ts ts' hts =>
          .ok (congrArg (StaticType.union · none) (allPlacedAt_eq hts))
      | _ => cases hmay
    | constant pos value marked =>
      obtain ⟨q, rfl⟩ := h.of_constant
      unfold form
      cases value with
      | none => exact .done (.ok rfl)
      | text text => exact .quoted pos q text
      | surrogates points => exact .done (.error _ _)
      | _ => cases hmay
    | _ => cases hmay

/-- Hints with forms that are alike go together if their parts do, and what they quote does. -/
theorem agree_of_alike (h : (c.form e).Alike (fun a a' => Agree SameType (c.denote a) (c'.denote a'))
      (c'.form e'))
    (hquoted : ∀ pos pos' text inner, c.form e = .quoted pos text → readQuoted text = .ok inner →
      Agree SameType ({ c with anchor := some (c.anchor.getD pos) }.denote inner.1)
        ({ c' with anchor := some (c'.anchor.getD pos') }.denote inner.1)) :
    Agree SameType (c.denote e) (c'.denote e') := by
  generalize hform : c.form e = form at h
  generalize hform' : c'.form e' = form' at h
  cases h with
  | done h =>
    rw [denote_of_form_done hform, denote_of_form_done hform']
    exact h
  | quoted pos pos' text =>
    cases hread : readQuoted text with
    | error failure =>
      rw [denote_of_form_quoted_error hform hread, denote_of_form_quoted_error hform' hread]
      exact .error _ _
    | ok inner =>
      rw [denote_of_form_quoted hform hread, denote_of_form_quoted hform' hread]
      exact hquoted pos pos' text inner hform hread
  | composed hparts hfinish =>
    rw [denote_of_form_composed hform, denote_of_form_composed hform']
    exact (Agree.mapM hparts).bind hfinish

/-- Hints that are the same code go together, in scopes that are alike. -/
theorem agree_denote_of_sameCode (hscope : c.scope.Alike c'.scope) (h : e.SameCode e') :
    Agree SameType (c.denote e) (c'.denote e') := by
  induction c, e using denote.induct generalizing c' e' with
  | case1 c e result hform =>
    refine agree_of_alike ((alike_form hscope h).imp ?_) fun pos pos' text inner hquoted => ?_
    · rw [hform]
      trivial
    · cases hform.symm.trans hquoted
  | case2 c e pos text hform unread hread =>
    refine agree_of_alike ((alike_form hscope h).imp ?_) fun p p' s inner hquoted hread' => ?_
    · rw [hform]
      trivial
    · obtain ⟨rfl, rfl⟩ := Form.quoted.inj (hform.symm.trans hquoted)
      cases hread.symm.trans hread'
  | case3 c e pos text hform inner hinner hread hlength ih =>
    refine agree_of_alike ((alike_form hscope h).imp ?_) fun p p' s inner hquoted hread' => ?_
    · rw [hform]
      trivial
    · obtain ⟨rfl, rfl⟩ := Form.quoted.inj (hform.symm.trans hquoted)
      obtain rfl := Except.ok.inj (hread.symm.trans hread')
      exact ih hscope rfl
  | case4 c e parts finish hform ih =>
    refine agree_of_alike ((alike_form hscope h).imp ?_) fun pos pos' text inner hquoted => ?_
    · rw [hform]
      exact fun a ha a' hsame => ih ⟨a, ha⟩ hscope hsame
    · cases hform.symm.trans hquoted

end HintContext

end Typeward
