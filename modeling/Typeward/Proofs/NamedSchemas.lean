import Typeward.Proofs.BuiltForms
import Typeward.Proofs.PlacelessCode
import Typeward.Schema.Session

/-!
# What type expressions stand for

Where every name stands for one type, whenever it is looked up, so does every type expression: the
type that its combinators make of what the names in it stand for. What a type is built to depends on
the place where it is built, since a name may be finished there or not, and be bound there or below.
But it stands for the same type everywhere.
-/

namespace Typeward

open Registry

/-- What the names in type expressions stand for: the types, and the functions that refine them. -/
structure Naming where
  type : String → Schema
  predicate : String → Value

namespace TypeExpr

/-- The name of a property. -/
def propertyName : TypeExpr → String
  | .field shown _ => shown
  | _ => ""

/-- The container that the options of a list type tell. -/
def containerIn : List (String × Constant) → String
  | (_, .text container) :: _ => container
  | _ => "list"

/-- The type that a call makes of types for its arguments, by what the names in these stand for. -/
def callSchema (n : Naming) (c : Combinator) (es : List TypeExpr) (ts : List Schema)
    (shown : Option String) (options : List (String × Constant)) : Schema :=
  let first := ts.headD default
  let last := ts.getLastD default
  match c with
  | .primitive => default
  | .irreducible => n.type (match es with | [.name x] => x | _ => "")
  | .maybe => .maybe first shown
  | .list => .list first (containerIn options) shown
  | .dict => .dict first last shown
  | .interface => .interface ((es.map propertyName).zip ts) shown
  | .union => .union ts shown
  | .intersection => .intersection ts shown
  | .refinement => .refinement first (match es with
    | [_, .predicate q] => n.predicate q
    | _ => default) shown
  | .tuple => .tuple ts (! options.isEmpty) shown
  | .func => .func (if options.isEmpty then some ts.dropLast else none) last shown
  | .literal => .literal (match es with
    | [.constant c] => .constant c
    | _ => default) shown

mutual

/-- The type that an expression stands for. -/
def schema (n : Naming) : TypeExpr → Schema
  | .primitive exported => .irreducible exported ((primitives.lookup exported).getD .anything)
  | .name x | .deferred x => n.type x
  | .delayed e | .field _ e | .reified e .. => e.schema n
  | .call c es shown options => callSchema n c es (schemas n es) shown options
  | .predicate _ | .constant _ => default

/-- The types that expressions stand for. -/
def schemas (n : Naming) : List TypeExpr → List Schema
  | [] => []
  | e :: rest => e.schema n :: schemas n rest

end

variable {n : Naming} {e : TypeExpr} {es : List TypeExpr} {shown : Option String}

-- The equations are made here, once for all lemmas that follow.
attribute [local simp] callSchema schema

/-- Expressions stand for types one by one. -/
@[simp]
theorem schemas_eq_map (es : List TypeExpr) : schemas n es = es.map (schema n) := by
  induction es with
  | nil => rfl
  | cons e rest ih => rw [schemas, ih, List.map_cons]

/-- A list type stands for the lists of what its argument stands for. -/
@[simp]
theorem schema_list (container : String) :
    (call .list [e] shown (containerOptions container)).schema n =
      .list (e.schema n) container shown := by
  by_cases h : container = "list"
  · simp [schema, callSchema, containerOptions, containerIn, h]
  · simp [schema, callSchema, containerOptions, containerIn, h]

/-- An interface stands for one of the same properties. -/
@[simp]
theorem schema_interface (fields : List (String × TypeExpr)) :
    (call .interface (fields.map fun f => .field f.1 f.2) shown []).schema n =
      .interface (fields.map fun f => (f.1, f.2.schema n)) shown := by
  simp only [schema, callSchema, schemas_eq_map, List.map_map, List.zip_map', Function.comp_def,
    propertyName]

/-- A primitive type stands for the test of its name. -/
theorem schema_primitive {exported : String} {test : Test}
    (h : primitives.lookup exported = some test) :
    (TypeExpr.primitive exported).schema n = .irreducible exported test := by
  rw [schema, h, Option.getD_some]

/-- A union stands for one of what its arguments stand for. -/
theorem schema_union : (call .union es shown []).schema n = .union (es.map (schema n)) shown := by
  rw [schema, schemas_eq_map, callSchema]

/-- An intersection stands for one of what its arguments stand for. -/
theorem schema_intersection :
    (call .intersection es shown []).schema n = .intersection (es.map (schema n)) shown := by
  rw [schema, schemas_eq_map, callSchema]

/-- A tuple type stands for one of what its arguments stand for. -/
@[simp]
theorem schema_tuple (isVariadic : Bool) :
    (call .tuple es shown (lengthOptions isVariadic)).schema n =
      .tuple (es.map (schema n)) isVariadic shown := by
  cases isVariadic with
  | true => simp [schema, callSchema, lengthOptions]
  | false => simp [schema, callSchema, lengthOptions]

/-- A function type stands for one of what its parameters and its result stand for. -/
@[simp]
theorem schema_function (result : TypeExpr) :
    (call .func (es ++ [result]) shown []).schema n =
      .func (some (es.map (schema n))) (result.schema n) shown := by
  simp [schema, callSchema]

/-- A refinement stands for one by the function that its predicate stands for. -/
@[simp]
theorem schema_refinement (q : String) :
    (call .refinement [e, .predicate q] shown []).schema n =
      .refinement (e.schema n) (n.predicate q) shown := rfl

/-- What tells how an expression is used in others: the type that it stands for, and whether it
calls the combinator that admits the absence of a value. -/
def key (n : Naming) (e : TypeExpr) : Schema × Bool := (e.schema n, e.isMaybe)

end TypeExpr

open TypeExpr

/-- The key of the expression that alternatives with such keys come to. -/
def joinedKey (ks : List (Option (Schema × Bool))) : Schema × Bool :=
  let present := ks.filterMap id
  if ks.all (·.isSome) then
    match present with
    | [only] => only
    | _ => (.union (present.map (·.1)) none, false)
  else
    match present with
    | [] => (.irreducible "Nil" .absence, false)
    | [only] => (.maybe only.1 none, true)
    | _ => (.maybe (.union (present.map (·.1)) none) none, true)

/-- What tells how a shape is used in others. -/
inductive Shape.Key where
  | alternatives (members : List (Option (Schema × Bool)))
  | single (key : Schema × Bool) (isNone : Bool)

namespace Shape

variable {n : Naming} {s s' : Shape}

/-- The key of a shape. -/
def key (n : Naming) : Shape → Key
  | .alternatives members => .alternatives (members.map (Option.map (TypeExpr.key n)))
  | .single expr isNone => .single (expr.key n) isNone

/-- The keys of the alternatives of a shape. -/
def Key.toAlternatives : Key → List (Option (Schema × Bool))
  | .alternatives members => members
  | .single key isNone => if isNone then [none] else [some key]

/-- The key of the expression of a shape. -/
def Key.toExpr : Key → Schema × Bool
  | .alternatives members => joinedKey members
  | .single key _ => key

/-- The keys of alternatives are those that the key of the shape tells. -/
theorem map_key_toAlternatives (s : Shape) :
    s.toAlternatives.map (Option.map (TypeExpr.key n)) = (s.key n).toAlternatives := by
  cases s with
  | alternatives members => rfl
  | single expr isNone => cases isNone <;> rfl

/-- The key of the expression is the one that the key of the shape tells. -/
theorem key_toExpr (s : Shape) : s.toExpr.key n = (s.key n).toExpr := by
  cases s with
  | single expr isNone => rfl
  | alternatives members =>
    have hall : (members.map (Option.map (TypeExpr.key n))).all (·.isSome) =
        members.all (·.isSome) := by
      simp [List.all_map, Function.comp_def]
    have hpresent : (members.map (Option.map (TypeExpr.key n))).filterMap id =
        (members.filterMap id).map (TypeExpr.key n) := by
      rw [List.filterMap_map, List.map_filterMap]
      rfl
    simp only [toExpr, Alternatives.toExpr, Shape.key, Key.toExpr, joinedKey, hall, hpresent]
    generalize members.filterMap id = present
    split
    · obtain _ | ⟨only, _ | ⟨second, rest⟩⟩ := present
      · rfl
      · rfl
      · simp [TypeExpr.key, combine, schema, callSchema, isMaybe]
    · obtain _ | ⟨only, _ | ⟨second, rest⟩⟩ := present
      · rfl
      · rfl
      · simp [TypeExpr.key, combine, schema, callSchema, isMaybe]

/-- Shapes with the same key come to expressions with the same key. -/
theorem key_toExpr_congr (h : s.key n = s'.key n) : s.toExpr.key n = s'.toExpr.key n := by
  rw [key_toExpr, key_toExpr, h]

/-- Shapes with the same key come to expressions that stand for the same type. -/
theorem schema_toExpr_congr (h : s.key n = s'.key n) :
    s.toExpr.schema n = s'.toExpr.schema n :=
  congrArg Prod.fst (key_toExpr_congr h)

end Shape

section Rebuilt

variable {n : Naming} {r r' : Registry}

/-- However a reference is built, it stands for what its name stands for. -/
theorem key_of_lookup {x : String} {location : Option Location} {e : TypeExpr}
    (h : r.lookup x location = .ok e) : e.key n = (n.type x, false) := by
  obtain ⟨_, _, ⟨_, rfl⟩ | ⟨_, _, rfl⟩⟩ | ⟨_, ⟨_, _, ⟨_, rfl⟩ | ⟨_, rfl⟩⟩ | ⟨_, _, rfl⟩⟩ :=
    lookup_cases h
  all_goals rfl

/-- What a reference is built to does not depend on the place that it is written at. -/
theorem lookup_placed {x : String} {location place : Option Location} {e : TypeExpr}
    (h : r.lookup x location = .ok e) : r.lookup x place = .ok e := by
  unfold lookup at h ⊢
  cases hget : r.get? x with
  | some entry =>
    simp only [hget] at h ⊢
    cases hcomplete : entry.isComplete <;> cases hrecursive : entry.isRecursive <;>
      simp_all
  | none =>
    cases hb : r.binding? (rootOf x) with
    | none =>
      simp only [hget, hb] at h ⊢
      split at h
      · rename_i hbuiltin
        rw [if_pos hbuiltin, h]
      · cases h
    | some b =>
      simp only [hget, hb] at h ⊢
      split at h
      · cases h
      · rename_i hmodule
        rw [if_neg hmodule, h]

/-- The types of fields are moved field by field. -/
theorem fieldsPlacedAt_eq_map (place : Option Location) (fields : List (RecordField StaticType)) :
    StaticType.fieldsPlacedAt place fields =
      fields.map fun f => ⟨f.name, f.type.placedAt place, f.isOptional, place⟩ := by
  induction fields with
  | nil => rfl
  | cons f rest ih => rw [StaticType.fieldsPlacedAt, ih, List.map_cons]

open StaticType in
/-- What a type is built to does not depend on the places that it is written at. -/
theorem Shaped.placedAt {t : StaticType} {s : Shape} (place : Option Location) (h : Shaped r t s) :
    Shaped r (t.placedAt place) s := by
  have hzip {ts : List StaticType} {shapes : List Shape}
      (h : ∀ p ∈ ts.zip shapes, Shaped r (p.1.placedAt place) p.2) :
      ∀ p ∈ (ts.map (·.placedAt place)).zip shapes, Shaped r p.1 p.2 := by
    rw [List.zip_map_left]
    exact List.forall_mem_map.2 h
  induction h with
  | primitive h => exact .primitive h
  | literal value location => exact .literal value place
  | generic name location => exact .generic name place
  | reference h => exact .reference (lookup_placed h)
  | nullable h ih => exact .nullable ih
  | array h ih => exact .array ih
  | dict hkey hvalue ihkey ihvalue => exact .dict ihkey ihvalue
  | @record fields shown location shapes hlength h ih =>
    rw [StaticType.placedAt, fieldsPlacedAt_eq_map]
    have hproperties : fields.zipWith propertyOf shapes = (fields.map fun f =>
        (⟨f.name, f.type.placedAt place, f.isOptional, place⟩ : RecordField StaticType)).zipWith
          propertyOf shapes := by
      rw [List.zipWith_map_left]
      rfl
    rw [hproperties]
    refine .record (by simpa using hlength) ?_
    rw [List.zip_map_left]
    exact List.forall_mem_map.2 ih
  | union hlength h ih =>
    rw [StaticType.placedAt, allPlacedAt_eq_map]
    exact .union (by simpa using hlength) (hzip ih)
  | @intersection members location shapes hmarker hlength h ih =>
    rw [StaticType.placedAt, allPlacedAt_eq_map]
    refine .intersection (List.forall_mem_map.2 fun t ht => ?_) (by simpa using hlength) (hzip ih)
    have hplain := hmarker t ht
    cases t with
    | marker => cases hplain
    | _ => rfl
  | markedLeft h ih => exact .markedLeft ih
  | markedRight h ih => exact .markedRight ih
  | anyFunction h ih => exact .anyFunction ih
  | function hresult hlength h ihresult ih =>
    rw [StaticType.placedAt, paramsPlacedAt, allPlacedAt_eq_map]
    exact .function ihresult (by simpa using hlength) (hzip ih)
  | tuple hlength h ih =>
    rw [StaticType.placedAt, allPlacedAt_eq_map]
    exact .tuple (by simpa using hlength) (hzip ih)

/-- What the property of a field stands for, by the key of the shape of its type. -/
def RecordField.keySchema (f : RecordField StaticType) (k : Shape.Key) : Schema :=
  if f.isOptional && ! k.toExpr.2 then .maybe k.toExpr.1 none else k.toExpr.1

/-- The property of a field stands for what the key of the shape of its type tells. -/
theorem schema_namedProperty (f : RecordField StaticType) (s : Shape) :
    (namedProperty f s).2.schema n = f.keySchema (s.key n) := by
  have hkey := Shape.key_toExpr (n := n) s
  have hschema : s.toExpr.schema n = (s.key n).toExpr.1 := congrArg Prod.fst hkey
  have hmaybe : s.toExpr.isMaybe = (s.key n).toExpr.2 := congrArg Prod.snd hkey
  unfold namedProperty RecordField.keySchema
  rw [hmaybe, ← hschema]
  split
  · rfl
  · rfl

/-- A record is built to what stands for an interface of what its fields stand for. -/
theorem schema_record (fields : List (RecordField StaticType)) (shapes : List Shape)
    (shown : Option String) :
    (call .interface (fields.zipWith propertyOf shapes) shown []).schema n =
      .interface (fields.zipWith (fun f k => (f.name, f.keySchema k)) (shapes.map (Shape.key n)))
        shown := by
  rw [zipWith_propertyOf, schema_interface, List.map_zipWith, List.zipWith_map_right]
  simp only [schema_namedProperty]
  rfl

/-- Shapes of the same types, one by one, have the same keys. -/
theorem map_key_eq {α : Type} (type : α → StaticType) {as : List α} {shapes shapes' : List Shape}
    (hlength : as.length = shapes.length) (hlength' : as.length = shapes'.length)
    (h : ∀ p ∈ as.zip shapes, ∀ s', Shaped r' (type p.1) s' → p.2.key n = s'.key n)
    (h' : ∀ p ∈ as.zip shapes', Shaped r' (type p.1) p.2) :
    shapes.map (Shape.key n) = shapes'.map (Shape.key n) := by
  induction as generalizing shapes shapes' with
  | nil =>
    rw [List.length_eq_zero_iff.1 hlength.symm, List.length_eq_zero_iff.1 hlength'.symm]
  | cons a as ih =>
    obtain ⟨s, shapes, rfl⟩ := List.exists_cons_of_length_eq_add_one hlength.symm
    obtain ⟨s', shapes', rfl⟩ := List.exists_cons_of_length_eq_add_one hlength'.symm
    rw [List.zip_cons_cons] at h h'
    rw [List.map_cons, List.map_cons]
    congr 1
    · exact h (a, s) List.mem_cons_self s' (h' (a, s') List.mem_cons_self)
    · exact ih (Nat.succ.inj hlength) (Nat.succ.inj hlength')
        (fun p hp => h p (List.mem_cons_of_mem _ hp)) fun p hp => h' p (List.mem_cons_of_mem _ hp)

/-- Expressions of shapes stand for what the keys of the shapes tell. -/
theorem map_schema_toExpr (shapes : List Shape) :
    (shapes.map Shape.toExpr).map (schema n) =
      (shapes.map (Shape.key n)).map fun k => k.toExpr.1 := by
  rw [List.map_map, List.map_map]
  exact List.map_congr_left fun s _ => congrArg Prod.fst (Shape.key_toExpr s)

/-- A call of a combinator has a key that is told by what it stands for. -/
theorem key_single_call {c : Combinator} {es es' : List TypeExpr} {shown : Option String}
    {options : List (String × Constant)}
    (h : (call c es shown options).schema n = (call c es' shown options).schema n) :
    (Shape.single (call c es shown options) false).key n =
      (Shape.single (call c es' shown options) false).key n := by
  have hmaybe : (call c es shown options).isMaybe = (call c es' shown options).isMaybe := by
    cases c <;> rfl
  simp only [Shape.key, TypeExpr.key, h, hmaybe]

/-- What a type is built to has the same key everywhere. -/
theorem Shaped.key_eq {t : StaticType} {s s' : Shape} (h : Shaped r t s) (h' : Shaped r' t s') :
    s.key n = s'.key n := by
  induction h generalizing s' with
  | primitive h =>
    cases h' with
    | primitive h' =>
      obtain rfl := Option.some.inj (h.symm.trans h')
      rfl
  | literal value location =>
    cases h'
    rfl
  | generic shown location =>
    cases h'
    rfl
  | reference h =>
    cases h' with
    | reference h' => simp only [Shape.key, key_of_lookup h, key_of_lookup h']
  | nullable h ih =>
    cases h' with
    | nullable h' =>
      rw [Shape.key, Shape.key, List.map_append, List.map_append, Shape.map_key_toAlternatives,
        Shape.map_key_toAlternatives, ih h']
  | array h ih =>
    cases h' with
    | array h' =>
      refine key_single_call ?_
      rw [schema_list, schema_list, Shape.schema_toExpr_congr (ih h')]
  | dict hkey hvalue ihkey ihvalue =>
    cases h' with
    | dict hkey' hvalue' =>
      refine key_single_call ?_
      simp only [schema, schemas_eq_map, List.map_cons, List.map_nil,
        Shape.schema_toExpr_congr (ihkey hkey'), Shape.schema_toExpr_congr (ihvalue hvalue')]
      rfl
  | @record fields shown location shapes hlength h ih =>
    cases h' with
    | @record _ _ _ shapes' hlength' h' =>
      refine key_single_call ?_
      have hkeys : shapes.map (Shape.key n) = shapes'.map (Shape.key n) :=
        map_key_eq (fun f : RecordField StaticType => f.type) hlength hlength'
          (fun p hp s' hs' => ih p hp hs') h'
      rw [schema_record, schema_record, hkeys]
  | @union members location shapes hlength h ih =>
    cases h' with
    | @union _ _ shapes' hlength' h' =>
      have hkeys : shapes.map (Shape.key n) = shapes'.map (Shape.key n) :=
        map_key_eq id hlength hlength' (fun p hp s' hs' => ih p hp hs') h'
      have hmembers (shapes : List Shape) :
          (shapes.flatMap Shape.toAlternatives).map (Option.map (TypeExpr.key n)) =
            (shapes.map (Shape.key n)).flatMap Shape.Key.toAlternatives := by
        rw [List.map_flatMap, List.flatMap_map, funext Shape.map_key_toAlternatives]
      rw [Shape.key, Shape.key, hmembers, hmembers, hkeys]
  | @intersection members location shapes hmarker hlength h ih =>
    cases h' with
    | @intersection _ _ shapes' hmarker' hlength' h' =>
      have hkeys : shapes.map (Shape.key n) = shapes'.map (Shape.key n) :=
        map_key_eq id hlength hlength' (fun p hp s' hs' => ih p hp hs') h'
      refine key_single_call ?_
      simp only [schema, schemas_eq_map, map_schema_toExpr, hkeys]
      rfl
    | markedLeft h' => exact absurd (hmarker _ List.mem_cons_self) nofun
    | markedRight h' =>
      exact absurd (hmarker _ (List.mem_cons_of_mem _ List.mem_cons_self)) nofun
  | markedLeft h ih =>
    cases h' with
    | intersection hmarker' => exact absurd (hmarker' _ List.mem_cons_self) nofun
    | markedLeft h' =>
      refine key_single_call ?_
      rw [schema_refinement, schema_refinement, Shape.schema_toExpr_congr (ih h')]
    | markedRight h' => cases h
  | markedRight h ih =>
    cases h' with
    | intersection hmarker' =>
      exact absurd (hmarker' _ (List.mem_cons_of_mem _ List.mem_cons_self)) nofun
    | markedLeft h' => cases h
    | markedRight h' =>
      refine key_single_call ?_
      rw [schema_refinement, schema_refinement, Shape.schema_toExpr_congr (ih h')]
  | anyFunction h ih =>
    cases h' with
    | anyFunction h' =>
      refine key_single_call ?_
      simp only [schema, schemas_eq_map, List.map_cons, List.map_nil,
        Shape.schema_toExpr_congr (ih h')]
      rfl
  | @function params result location shapes s hresult hlength h ihresult ih =>
    cases h' with
    | @function _ _ _ shapes' s' hresult' hlength' h' =>
      have hkeys : shapes.map (Shape.key n) = shapes'.map (Shape.key n) :=
        map_key_eq id hlength hlength' (fun p hp s' hs' => ih p hp hs') h'
      refine key_single_call ?_
      rw [schema_function, schema_function, map_schema_toExpr, map_schema_toExpr, hkeys,
        Shape.schema_toExpr_congr (ihresult hresult')]
  | @tuple elements isVariadic location shapes hlength h ih =>
    cases h' with
    | @tuple _ _ _ shapes' hlength' h' =>
      have hkeys : shapes.map (Shape.key n) = shapes'.map (Shape.key n) :=
        map_key_eq id hlength hlength' (fun p hp s' hs' => ih p hp hs') h'
      refine key_single_call ?_
      rw [schema_tuple, schema_tuple, map_schema_toExpr, map_schema_toExpr, hkeys]

/-- So has what is built for two types that differ in nothing but the places they are written at. -/
theorem Shaped.key_eq_of_sameType {t t' : StaticType} {s s' : Shape} (h : Shaped r t s)
    (h' : Shaped r' t' s') (hsame : t.SameType t') : s.key n = s'.key n := by
  have hplaced := h'.placedAt none
  rw [← show t.placedAt none = t'.placedAt none from hsame] at hplaced
  exact (h.placedAt none).key_eq hplaced

end Rebuilt

end Typeward
