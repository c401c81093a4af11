import Mathlib.Data.List.Forall2
import Typeward.Build

/-!
# What a type is built to

The builder walks through a type, may fail on the way and records refinements. `Shaped` says what
it answers when it does not fail, one rule for each form of a type and without the recording.
Everything that is proved about built expressions is proved by induction on these rules.
-/

namespace Typeward

namespace Built

variable {α β : Type}

/-- A build that meets nothing answers its result. -/
@[simp]
theorem outcome_pure (a : α) : (pure a : Built α).outcome = .ok a := rfl

/-- A result that may be a fault is answered as it is. -/
@[simp]
theorem outcome_ofExcept (x : Except Fault α) : (ofExcept x).outcome = x := rfl

/-- A fault answers nothing. -/
@[simp]
theorem outcome_fail (fault : Fault) : (fail fault : Built α).outcome = .error fault := rfl

/-- Recording a refinement cannot fail. -/
@[simp]
theorem outcome_record (request : RefinementRequest) : (record request).outcome = .ok () := rfl

/-- One build after another answers a result exactly when both do. -/
@[simp]
theorem outcome_bind_eq_ok {x : Built α} {f : α → Built β} {b : β} :
    (x >>= f).outcome = .ok b ↔ ∃ a, x.outcome = .ok a ∧ (f a).outcome = .ok b := by
  change (Built.bind x f).outcome = .ok b ↔ _
  unfold Built.bind
  cases x.outcome <;> simp

end Built

/-- A fault about a construct answers nothing. -/
@[simp]
theorem outcome_unsupportedAt {α : Type} (construct : String) (location : Option Location) :
    (unsupportedAt construct location : Built α).outcome =
      .error ⟨.unsupported construct, location, none⟩ := rfl

/-- A marker that does not refine exactly one type is refused. -/
theorem misplaced_ne_ok {members : List StaticType} {location : Option Location} {s : Shape} :
    (misplaced members location).outcome ≠ .ok s := by
  unfold misplaced
  split <;> simp

/-- The options of a list type; a plain list needs none. -/
def containerOptions (container : String) : List (String × Constant) :=
  if container = "list" then [] else [("container", .text container)]

/-- The options of a tuple type; one of fixed length needs none. -/
def lengthOptions (isVariadic : Bool) : List (String × Constant) :=
  if isVariadic then [("variadic", .bool true)] else []

/-- The property that a field is built to from the shape of its type. -/
def propertyOf (f : RecordField StaticType) (s : Shape) : TypeExpr :=
  fieldExpr f.name f.isOptional s.toExpr

/-- The name and the expression of the property that a field is built to. -/
def namedProperty (f : RecordField StaticType) (s : Shape) : String × TypeExpr :=
  (f.name, if f.isOptional && ! s.toExpr.isMaybe then .combine .maybe [s.toExpr] else s.toExpr)

/-- The properties that fields are built to, by their names and expressions. -/
theorem zipWith_propertyOf (fields : List (RecordField StaticType)) (shapes : List Shape) :
    fields.zipWith propertyOf shapes =
      (fields.zipWith namedProperty shapes).map fun f => .field f.1 f.2 := by
  rw [List.map_zipWith]
  rfl

/-- What types are built to, against a registry. -/
inductive Shaped (r : Registry) : StaticType → Shape → Prop
  | primitive {name export_ location} (h : runtimePrimitives.lookup name = some export_) :
      Shaped r (.primitive name location) (.single (.primitive export_) (name == "none"))
  | literal (value location) :
      Shaped r (.literal value location)
        (.single (.combine .literal [.constant value]) (value == .none))
  | generic (name location) : Shaped r (.generic name location) (.single (.primitive "Any") false)
  | reference {name arguments location e} (h : r.lookup name location = .ok e) :
      Shaped r (.reference name arguments location) (.single e false)
  | nullable {inner location s} (h : Shaped r inner s) :
      Shaped r (.nullable inner location) (.alternatives (s.toAlternatives ++ [none]))
  | array {element container location s} (h : Shaped r element s) :
      Shaped r (.array element container location)
        (.single (.call .list [s.toExpr] none (containerOptions container)) false)
  | dict {key value location s s'} (hkey : Shaped r key s) (hvalue : Shaped r value s') :
      Shaped r (.dict key value location) (.single (.combine .dict [s.toExpr, s'.toExpr]) false)
  | record {fields shown location shapes} (hlength : fields.length = shapes.length)
      (h : ∀ p ∈ fields.zip shapes, Shaped r p.1.type p.2) :
      Shaped r (.record fields shown location)
        (.single (.call .interface (fields.zipWith propertyOf shapes) shown []) false)
  | union {members location shapes} (hlength : members.length = shapes.length)
      (h : ∀ p ∈ members.zip shapes, Shaped r p.1 p.2) :
      Shaped r (.union members location) (.alternatives (shapes.flatMap Shape.toAlternatives))
  | intersection {members location shapes} (hmarker : ∀ t ∈ members, t.isMarker = false)
      (hlength : members.length = shapes.length)
      (h : ∀ p ∈ members.zip shapes, Shaped r p.1 p.2) :
      Shaped r (.intersection members location)
        (.single (.combine .intersection (shapes.map Shape.toExpr)) false)
  | markedLeft {predicate place base location s} (h : Shaped r base s) :
      Shaped r (.intersection [.marker predicate place, base] location)
        (.single (.combine .refinement [s.toExpr, .predicate predicate]) false)
  | markedRight {predicate place base location s} (h : Shaped r base s) :
      Shaped r (.intersection [base, .marker predicate place] location)
        (.single (.combine .refinement [s.toExpr, .predicate predicate]) false)
  | anyFunction {result location s} (h : Shaped r result s) :
      Shaped r (.function none result location)
        (.single (.call .func [s.toExpr] none [("any_params", .bool true)]) false)
  | function {params result location shapes s} (hresult : Shaped r result s)
      (hlength : params.length = shapes.length)
      (h : ∀ p ∈ params.zip shapes, Shaped r p.1 p.2) :
      Shaped r (.function (some params) result location)
        (.single (.combine .func (shapes.map Shape.toExpr ++ [s.toExpr])) false)
  | tuple {elements isVariadic location shapes} (hlength : elements.length = shapes.length)
      (h : ∀ p ∈ elements.zip shapes, Shaped r p.1 p.2) :
      Shaped r (.tuple elements isVariadic location)
        (.single (.call .tuple (shapes.map Shape.toExpr) none (lengthOptions isVariadic)) false)

/-- Shapes of several types, each of its own. -/
def ShapedAll (r : Registry) (ts : List StaticType) (shapes : List Shape) : Prop :=
  ts.length = shapes.length ∧ ∀ p ∈ ts.zip shapes, Shaped r p.1 p.2

/-- No types have no shapes. -/
theorem ShapedAll.nil (r : Registry) : ShapedAll r [] [] := ⟨rfl, by simp⟩

/-- One more type has one more shape. -/
theorem ShapedAll.cons {r : Registry} {t : StaticType} {s : Shape} {ts : List StaticType}
    {shapes : List Shape} (h : Shaped r t s) (hrest : ShapedAll r ts shapes) :
    ShapedAll r (t :: ts) (s :: shapes) := by
  refine ⟨by simp [hrest.1], ?_⟩
  intro p hp
  rcases List.mem_cons.1 hp with rfl | hp
  · exact h
  · exact hrest.2 p hp

mutual

/-- What the builder answers for a type follows the rules. -/
theorem shaped_of_outcome {r : Registry} : {t : StaticType} → {s : Shape} →
    (shape r t).outcome = .ok s → Shaped r t s
  | .primitive name location, s, h => by
    rw [shape] at h
    split at h
    · rename_i hlookup
      obtain rfl := Except.ok.inj h
      exact .primitive hlookup
    · simp at h
  | .literal value location, s, h => by
    simp only [shape, Built.outcome_pure, Except.ok.injEq] at h
    exact h ▸ .literal value location
  | .generic name location, s, h => by
    simp only [shape, single, Built.outcome_pure, Except.ok.injEq] at h
    exact h ▸ .generic name location
  | .reference name arguments location, s, h => by
    simp only [shape, single, Built.outcome_bind_eq_ok, Built.outcome_ofExcept,
      Built.outcome_pure, Except.ok.injEq] at h
    obtain ⟨e, he, rfl⟩ := h
    exact .reference he
  | .marker predicate location, s, h => by simp [shape] at h
  | .nullable inner location, s, h => by
    simp only [shape, Built.outcome_bind_eq_ok, Built.outcome_pure, Except.ok.injEq] at h
    obtain ⟨s', hs', rfl⟩ := h
    exact .nullable (shaped_of_outcome hs')
  | .array element container location, s, h => by
    simp only [shape, single, Built.outcome_bind_eq_ok, Built.outcome_pure,
      Except.ok.injEq] at h
    obtain ⟨s', hs', rfl⟩ := h
    exact .array (shaped_of_outcome hs')
  | .dict key value location, s, h => by
    simp only [shape, single, Built.outcome_bind_eq_ok, Built.outcome_pure,
      Except.ok.injEq] at h
    obtain ⟨s₁, h₁, s₂, h₂, rfl⟩ := h
    exact .dict (shaped_of_outcome h₁) (shaped_of_outcome h₂)
  | .record fields shown location, s, h => by
    simp only [shape, single, Built.outcome_bind_eq_ok, Built.outcome_pure,
      Except.ok.injEq] at h
    obtain ⟨props, hprops, rfl⟩ := h
    obtain ⟨shapes, hlength, hshapes, rfl⟩ := shaped_of_fields hprops
    exact .record hlength hshapes
  | .union members location, s, h => by
    simp only [shape, Built.outcome_bind_eq_ok, Built.outcome_pure, Except.ok.injEq] at h
    obtain ⟨alternatives, halternatives, rfl⟩ := h
    obtain ⟨shapes, hshapes, rfl⟩ := shaped_of_members halternatives
    exact .union hshapes.1 hshapes.2
  | .intersection members location, s, h => by
    rw [shape.eq_def] at h
    dsimp only at h
    split at h
    · rename_i hmarker
      simp only [single, Built.outcome_bind_eq_ok, Built.outcome_pure, Except.ok.injEq] at h
      obtain ⟨exprs, hexprs, rfl⟩ := h
      obtain ⟨shapes, hshapes, rfl⟩ := shaped_of_all hexprs
      exact .intersection (by simpa using hmarker) hshapes.1 hshapes.2
    · split at h
      · split at h
        · exact absurd h misplaced_ne_ok
        · simp only [refine, Built.outcome_bind_eq_ok, Built.outcome_record, Built.outcome_pure,
            Except.ok.injEq] at h
          obtain ⟨s', hs', _, _, rfl⟩ := h
          exact .markedLeft (shaped_of_outcome hs')
      · split at h
        · exact absurd h misplaced_ne_ok
        · simp only [refine, Built.outcome_bind_eq_ok, Built.outcome_record, Built.outcome_pure,
            Except.ok.injEq] at h
          obtain ⟨s', hs', _, _, rfl⟩ := h
          exact .markedRight (shaped_of_outcome hs')
      · exact absurd h misplaced_ne_ok
  | .function none result location, s, h => by
    simp only [shape, shapeParams, single, Built.outcome_bind_eq_ok, Built.outcome_pure,
      Except.ok.injEq] at h
    obtain ⟨s', hs', _, rfl, h⟩ := h
    obtain rfl := Except.ok.inj h
    exact .anyFunction (shaped_of_outcome hs')
  | .function (some params) result location, s, h => by
    simp only [shape, shapeParams, single, Built.outcome_bind_eq_ok, Built.outcome_pure,
      Except.ok.injEq] at h
    obtain ⟨s', hs', _, ⟨exprs, hexprs, rfl⟩, h⟩ := h
    obtain rfl := Except.ok.inj h
    obtain ⟨shapes, hshapes, rfl⟩ := shaped_of_all hexprs
    exact .function (shaped_of_outcome hs') hshapes.1 hshapes.2
  | .tuple elements isVariadic location, s, h => by
    simp only [shape, single, Built.outcome_bind_eq_ok, Built.outcome_pure,
      Except.ok.injEq] at h
    obtain ⟨exprs, hexprs, rfl⟩ := h
    obtain ⟨shapes, hshapes, rfl⟩ := shaped_of_all hexprs
    exact .tuple hshapes.1 hshapes.2

/-- What the builder answers for several types follows the rules. -/
theorem shaped_of_all {r : Registry} : {ts : List StaticType} → {es : List TypeExpr} →
    (shapeAll r ts).outcome = .ok es →
    ∃ shapes, ShapedAll r ts shapes ∧ es = shapes.map Shape.toExpr
  | [], es, h => by
    simp only [shapeAll, Built.outcome_pure, Except.ok.injEq] at h
    exact ⟨[], .nil r, by simp [← h]⟩
  | t :: rest, es, h => by
    simp only [shapeAll, Built.outcome_bind_eq_ok, Built.outcome_pure, Except.ok.injEq] at h
    obtain ⟨s, hs, more, hmore, rfl⟩ := h
    obtain ⟨shapes, hshapes, rfl⟩ := shaped_of_all hmore
    exact ⟨s :: shapes, .cons (shaped_of_outcome hs) hshapes, rfl⟩

/-- What the builder answers for the members of a union follows the rules. -/
theorem shaped_of_members {r : Registry} : {ts : List StaticType} → {a : Alternatives} →
    (shapeMembers r ts).outcome = .ok a →
    ∃ shapes, ShapedAll r ts shapes ∧ a = shapes.flatMap Shape.toAlternatives
  | [], a, h => by
    simp only [shapeMembers, Built.outcome_pure, Except.ok.injEq] at h
    exact ⟨[], .nil r, by simp [← h]⟩
  | t :: rest, a, h => by
    simp only [shapeMembers, Built.outcome_bind_eq_ok, Built.outcome_pure, Except.ok.injEq] at h
    obtain ⟨s, hs, more, hmore, rfl⟩ := h
    obtain ⟨shapes, hshapes, rfl⟩ := shaped_of_members hmore
    exact ⟨s :: shapes, .cons (shaped_of_outcome hs) hshapes, rfl⟩

/-- What the builder answers for the fields of a record follows the rules. -/
theorem shaped_of_fields {r : Registry} : {fields : List (RecordField StaticType)} →
    {es : List TypeExpr} → (shapeFields r fields).outcome = .ok es →
    ∃ shapes, fields.length = shapes.length ∧
      (∀ p ∈ fields.zip shapes, Shaped r p.1.type p.2) ∧ es = fields.zipWith propertyOf shapes
  | [], es, h => by
    simp only [shapeFields, Built.outcome_pure, Except.ok.injEq] at h
    exact ⟨[], rfl, by simp, by simp [← h]⟩
  | ⟨name, type, isOptional, location⟩ :: rest, es, h => by
    simp only [shapeFields, Built.outcome_bind_eq_ok, Built.outcome_pure, Except.ok.injEq] at h
    obtain ⟨s, hs, more, hmore, rfl⟩ := h
    obtain ⟨shapes, hlength, hshapes, rfl⟩ := shaped_of_fields hmore
    refine ⟨s :: shapes, by simp [hlength], ?_, rfl⟩
    intro p hp
    rcases List.mem_cons.1 hp with rfl | hp
    · exact shaped_of_outcome hs
    · exact hshapes p hp

end

/-- An expression that is built for a type is that of its shape. -/
theorem shaped_of_build {r : Registry} {t : StaticType} {e : TypeExpr}
    (h : (build r t).outcome = .ok e) : ∃ s, Shaped r t s ∧ e = s.toExpr := by
  simp only [build, Built.outcome_bind_eq_ok, Built.outcome_pure, Except.ok.injEq] at h
  obtain ⟨s, hs, rfl⟩ := h
  exact ⟨s, shaped_of_outcome hs, rfl⟩

/-- A type that is inspected is built, and shows the kind and the parts of what is built or of the
definition that this refers to. -/
theorem build_of_reify {r : Registry} {t : StaticType} {x : TypeExpr}
    (h : (reify r t).outcome = .ok x) :
    ∃ e definition, (build r t).outcome = .ok e ∧
      (definition = e ∨ r.resolve e = .ok definition) ∧
      x = .reified e definition.kind definition.components := by
  rw [reify, Built.outcome_bind_eq_ok] at h
  obtain ⟨e, he, h⟩ := h
  dsimp only at h
  split at h
  · split at h
    · simp only [Built.outcome_bind_eq_ok, Built.outcome_ofExcept, Built.outcome_pure,
        Except.ok.injEq] at h
      obtain ⟨definition, hdefinition, rfl⟩ := h
      exact ⟨_, definition, he, .inr hdefinition, rfl⟩
    · obtain rfl := Except.ok.inj h
      exact ⟨_, _, he, .inl rfl, rfl⟩
  · obtain rfl := Except.ok.inj h
    exact ⟨_, _, he, .inl rfl, rfl⟩

end Typeward
