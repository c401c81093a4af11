import Typeward.Proofs.Realizations
import Typeward.Proofs.Verdicts
import Typeward.Sample

/-!
# Compilation preserves the meaning of types

An expression that is built for a type is evaluated, where the module is imported, to a runtime type
that accepts just the values that belong to the type, whenever checks are run later. The builder does
not go along with the type: it flattens unions and takes the absence of a value out of them. So the
meaning of a type is followed through shapes, the alternatives of which together mean what the type
means.
-/

namespace Typeward

/-- A value that equals the absent one is it, after extensions are left aside. -/
theorem Value.plain_eq_absent_of_equals {v : Value} (h : v.equals .absent = true) :
    v.plain = .absent := by
  induction v using Value.plain.induct with
  | case1 c content ih =>
    rw [equals] at h
    exact ih h
  | case2 v hv =>
    cases v with
    | derived c content => exact absurd rfl (hv c content)
    | constant c => cases c <;> simp_all [equals, absent, plain, Constant.equals, Constant.numeral?]
    | _ => simp [equals, absent, plain, bytes?] at h

/-- The values like the absent one are just it. -/
theorem Value.Fit.isSameLiteral_none_iff {Shows : Nat → Prop} {v : Value} (h : v.Fit Shows) :
    v.isSameLiteral (.constant .none) = true ↔ v.isAbsent = true := by
  constructor
  · intro hsame
    rw [h.isAbsent_iff]
    refine plain_eq_absent_of_equals ?_
    simp only [isSameLiteral, Bool.and_eq_true] at hsame
    exact hsame.2
  · intro habsent
    unfold isAbsent at habsent
    split at habsent
    · simp [isSameLiteral, equals, Value.plain, Constant.equals, Constant.numeral?]
    · simp at habsent

/-- The values that pass the test for the absent one are just it. -/
theorem Value.Fit.accepts_absence_iff {Shows : Nat → Prop} {v : Value} (h : v.Fit Shows)
    (world : World) : Test.absence.accepts world v = true ↔ v.isAbsent = true := by
  rw [h.isAbsent_iff]
  unfold Test.accepts
  split <;> simp_all [absent]

/-- The primitive types of the builder are those of the library, with the tests that they should
have. -/
theorem exists_primitiveTest {name export_ : String}
    (h : runtimePrimitives.lookup name = some export_) :
    ∃ test, StaticType.primitiveTest? name = some test ∧ primitives.lookup export_ = some test := by
  have hmem : (name, export_) ∈ runtimePrimitives := by
    obtain ⟨before, after, heq, -⟩ := List.lookup_eq_some_iff.1 h
    exact heq ▸ List.mem_append_right before List.mem_cons_self
  simp only [runtimePrimitives, List.mem_cons, Prod.mk.injEq, List.not_mem_nil, or_false] at hmem
  rcases hmem with ⟨rfl, rfl⟩ | ⟨rfl, rfl⟩ | ⟨rfl, rfl⟩ | ⟨rfl, rfl⟩ | ⟨rfl, rfl⟩ | ⟨rfl, rfl⟩ |
    ⟨rfl, rfl⟩ | ⟨rfl, rfl⟩ | ⟨rfl, rfl⟩ | ⟨rfl, rfl⟩ | ⟨rfl, rfl⟩
  all_goals exact ⟨_, rfl, rfl⟩

variable {runtime : String} {r : Registry} {μ : Meaning} {start later : Session}
  {target : Nat → Schema} {P : Value → Prop}

/-- An alternative of a union means a set of values, and is not itself optional; the absence of a
value means the absent one. -/
def RealizesAlternative (runtime : String) (world : World) (start later : Session)
    (target : Nat → Schema) (P : Value → Prop) : Option TypeExpr → Prop
  | some e => e.isMaybe = false ∧ e.Realizes runtime world start later target P
  | none => ∀ v, FitsLater world later target v → (P v ↔ v.isAbsent = true)

/-- Alternatives together mean a set of values. -/
def Alternatives.Realizes (runtime : String) (world : World) (start later : Session)
    (target : Nat → Schema) (P : Value → Prop) (members : Alternatives) : Prop :=
  ∃ Ps, List.Forall₂ (RealizesAlternative runtime world start later target) Ps members ∧
    ∀ v, FitsLater world later target v → (P v ↔ ∃ Q ∈ Ps, Q v)

/-- A shape means a set of values. A single expression is not optional; one that is told to be the
absence of a value means that. -/
def Shape.Realizes (runtime : String) (world : World) (start later : Session)
    (target : Nat → Schema) (P : Value → Prop) : Shape → Prop
  | .alternatives members => members.Realizes runtime world start later target P
  | .single e isNone => RealizesAlternative runtime world start later target P (some e) ∧
      (isNone = true → RealizesAlternative runtime world start later target P none)

/-- The shape of a type as part of a union means what the type means. -/
theorem Shape.Realizes.toAlternatives {s : Shape}
    (h : s.Realizes runtime μ.world start later target P) :
    s.toAlternatives.Realizes runtime μ.world start later target P := by
  cases s with
  | alternatives members => exact h
  | single e isNone =>
    obtain ⟨hrealizes, hnone⟩ := h
    refine ⟨[P], ?_, by simp⟩
    cases isNone with
    | true => exact .cons (hnone rfl) .nil
    | false => exact .cons hrealizes .nil

/-- Alternatives behind others add what they mean. -/
theorem Alternatives.Realizes.append {Q : Value → Prop} {members members' : Alternatives}
    (h : members.Realizes runtime μ.world start later target P)
    (h' : members'.Realizes runtime μ.world start later target Q) :
    Alternatives.Realizes runtime μ.world start later target (fun v => P v ∨ Q v)
      (members ++ members') := by
  obtain ⟨Ps, hPs, hP⟩ := h
  obtain ⟨Qs, hQs, hQ⟩ := h'
  refine ⟨Ps ++ Qs, List.rel_append hPs hQs, fun v hv => ?_⟩
  refine (or_congr (hP v hv) (hQ v hv)).trans ?_
  simp only [List.mem_append, or_and_right, exists_or]

/-- The absence of a value is the absent one. -/
theorem Alternatives.realizes_none :
    Alternatives.Realizes runtime μ.world start later target (fun v => v.isAbsent = true) [none] :=
  ⟨[fun v => v.isAbsent = true], .cons (fun _ _ => .rfl) .nil, by simp⟩

/-- The alternatives of several types mean what any of the types means. -/
theorem Alternatives.realizes_flatMap {Ps : List (Value → Prop)} {shapes : List Shape}
    (h : List.Forall₂ (Shape.Realizes runtime μ.world start later target) Ps shapes) :
    Alternatives.Realizes runtime μ.world start later target (fun v => ∃ P ∈ Ps, P v)
      (shapes.flatMap Shape.toAlternatives) := by
  induction h with
  | nil => exact ⟨[], .nil, by simp⟩
  | cons h hrest ih =>
    obtain ⟨Qs, hQs, hiff⟩ := h.toAlternatives.append ih
    exact ⟨Qs, hQs, fun v hv => (List.exists_mem_cons_iff _ _ _).trans (hiff v hv)⟩

/-- The present alternatives mean what all of them mean, but for the absence of a value. -/
theorem exists_present {Ps : List (Value → Prop)} {members : Alternatives}
    (h : List.Forall₂ (RealizesAlternative runtime μ.world start later target) Ps members) :
    ∃ Qs, List.Forall₂ (TypeExpr.Realizes runtime μ.world start later target) Qs
        (members.filterMap id) ∧
      ∀ v, FitsLater μ.world later target v → ((∃ P ∈ Ps, P v) ↔
        (∃ Q ∈ Qs, Q v) ∨ (members.all (·.isSome) = false ∧ v.isAbsent = true)) := by
  induction h with
  | nil => exact ⟨[], .nil, by simp⟩
  | @cons P member Ps members hmember hrest ih =>
    obtain ⟨Qs, hQs, hiff⟩ := ih
    cases member with
    | some e =>
      refine ⟨P :: Qs, .cons hmember.2 hQs, fun v hv => ?_⟩
      rw [List.exists_mem_cons_iff, List.exists_mem_cons_iff, hiff v hv, or_assoc]
      simp
    | none =>
      refine ⟨Qs, hQs, fun v hv => ?_⟩
      rw [List.exists_mem_cons_iff, hiff v hv, hmember v hv]
      simp only [List.all_cons, Option.isSome_none, Bool.false_and, true_and]
      constructor
      · rintro (habsent | hQ | ⟨-, habsent⟩)
        · exact .inr habsent
        · exact .inl hQ
        · exact .inr habsent
      · rintro (hQ | habsent)
        · exact .inr (.inl hQ)
        · exact .inl habsent

/-- The only one of the present alternatives is not itself optional. -/
theorem not_isMaybe_of_present {Ps : List (Value → Prop)} {members : Alternatives} {e : TypeExpr}
    (h : List.Forall₂ (RealizesAlternative runtime μ.world start later target) Ps members)
    (he : e ∈ members.filterMap id) : e.isMaybe = false := by
  have hmem : some e ∈ members := by simpa using he
  obtain ⟨P, -, hP⟩ := exists_mem_of_forall₂ h hmem
  exact hP.1

/-- The expression of a shape means what the shape means; if it is optional, this includes the absent
value. -/
theorem Shape.Realizes.toExpr (hstart : (Session.start start.names).Extends start)
    (hlibrary : start.names.lookup runtime = some .library) {s : Shape}
    (h : s.Realizes runtime μ.world start later target P) :
    s.toExpr.Realizes runtime μ.world start later target P ∧
      (s.toExpr.isMaybe = true → ∀ v, FitsLater μ.world later target v → v.isAbsent = true → P v) := by
  cases s with
  | single e isNone =>
    obtain ⟨⟨hmaybe, hrealizes⟩, -⟩ := h
    refine ⟨hrealizes, fun hmaybe' => ?_⟩
    rw [Shape.toExpr, hmaybe] at hmaybe'
    cases hmaybe'
  | alternatives members =>
    obtain ⟨Ps, hPs, hiff⟩ := h
    obtain ⟨Qs, hQs, hpresent⟩ := exists_present hPs
    have hmaybe : ∀ e ∈ members.filterMap id, e.isMaybe = false :=
      fun e he => not_isMaybe_of_present hPs he
    have hP : ∀ v, FitsLater μ.world later target v → (P v ↔
        (∃ Q ∈ Qs, Q v) ∨ (members.all (·.isSome) = false ∧ v.isAbsent = true)) :=
      fun v hv => (hiff v hv).trans (hpresent v hv)
    simp only [Shape.toExpr, Alternatives.toExpr]
    generalize members.filterMap id = present at hQs hmaybe
    split
    · rename_i hall
      simp only [hall, Bool.true_eq_false, false_and, or_false] at hP
      split
      · rename_i only
        obtain ⟨Q, Qs, hQ, hrest, rfl⟩ := List.forall₂_cons_right_iff.1 hQs
        obtain rfl := List.forall₂_nil_right_iff.1 hrest
        refine ⟨hQ.congr fun v hv => by simp [hP v hv], fun hmaybe' => ?_⟩
        rw [hmaybe only List.mem_cons_self] at hmaybe'
        cases hmaybe'
      · exact ⟨(realizes_union hlibrary hQs).congr fun v hv => (hP v hv).symm,
          fun hmaybe' => absurd hmaybe' Bool.false_ne_true⟩
    · rename_i hall
      simp only [Bool.not_eq_true] at hall
      simp only [hall, true_and] at hP
      refine ⟨?_, fun _ v hv habsent => (hP v hv).2 (.inr habsent)⟩
      split
      · obtain rfl := List.forall₂_nil_right_iff.1 hQs
        have hnil : primitives.lookup "Nil" = some .absence := rfl
        refine (realizes_primitive hlibrary hstart hnil).congr fun v hv => ?_
        rw [hP v hv, hv.accepts_absence_iff]
        simp
      · obtain ⟨Q, Qs, hQ, hrest, rfl⟩ := List.forall₂_cons_right_iff.1 hQs
        obtain rfl := List.forall₂_nil_right_iff.1 hrest
        refine (realizes_maybe hlibrary hQ).congr fun v hv => ?_
        rw [hP v hv, or_comm]
        simp
      · refine (realizes_maybe hlibrary (realizes_union hlibrary hQs)).congr fun v hv => ?_
        rw [hP v hv, or_comm]

/-- A single expression that is not the absence of a value means a set of values. -/
theorem Shape.realizes_single {e : TypeExpr} (hmaybe : e.isMaybe = false)
    (h : e.Realizes runtime μ.world start later target P) :
    (Shape.single e false).Realizes runtime μ.world start later target P :=
  ⟨⟨hmaybe, h⟩, nofun⟩

/-- Expressions of shapes mean what the shapes mean. -/
theorem forall₂_toExpr (hstart : (Session.start start.names).Extends start)
    (hlibrary : start.names.lookup runtime = some .library) {ts : List StaticType}
    {shapes : List Shape} (h : List.Forall₂
      (fun t s => Shape.Realizes runtime μ.world start later target (t.Denotes μ) s) ts shapes) :
    List.Forall₂ (TypeExpr.Realizes runtime μ.world start later target)
      (ts.map (StaticType.Denotes μ)) (shapes.map Shape.toExpr) := by
  rw [List.forall₂_map_left_iff, List.forall₂_map_right_iff]
  exact h.imp fun t s hs => (hs.toExpr hstart hlibrary).1

/-- What a field of a record means: the values of its type, and the absent one if it is optional. -/
def RecordField.Denotes (μ : Meaning) (f : RecordField StaticType) (v : Value) : Prop :=
  f.type.Denotes μ v ∨ f.isOptional = true ∧ v.isAbsent = true

/-- The property that a field is built to means what the field means. -/
theorem realizes_namedProperty (hstart : (Session.start start.names).Extends start)
    (hlibrary : start.names.lookup runtime = some .library) {f : RecordField StaticType} {s : Shape}
    (h : s.Realizes runtime μ.world start later target (f.type.Denotes μ)) :
    (namedProperty f s).2.Realizes runtime μ.world start later target (f.Denotes μ) := by
  obtain ⟨hrealizes, hmaybe⟩ := h.toExpr hstart hlibrary
  unfold namedProperty
  cases hoptional : f.isOptional with
  | false =>
    refine hrealizes.congr fun v hv => ?_
    simp [RecordField.Denotes, hoptional]
  | true =>
    simp only [Bool.true_and, Bool.not_eq_true']
    split
    · refine (realizes_maybe hlibrary hrealizes).congr fun v hv => ?_
      simp [RecordField.Denotes, hoptional, or_comm]
    · rename_i hisMaybe
      refine hrealizes.congr fun v hv => ?_
      simp only [RecordField.Denotes, hoptional, true_and]
      exact ⟨.inl, fun hv' => hv'.elim id (hmaybe (by simpa using hisMaybe) v hv)⟩

/-- The properties that fields are built to mean what the fields mean. -/
theorem realizes_record (hstart : (Session.start start.names).Extends start)
    (hlibrary : start.names.lookup runtime = some .library)
    {fields : List (RecordField StaticType)} {shapes : List Shape} {shown : Option String}
    (hnames : (fields.map (·.name)).Nodup) (h : List.Forall₂ (fun f s =>
      Shape.Realizes runtime μ.world start later target (f.type.Denotes μ) s) fields shapes) :
    (TypeExpr.call .interface (fields.zipWith propertyOf shapes) shown []).Realizes runtime μ.world
      start later target (fun v => ∃ entries, v.entries? = some entries ∧
        ∀ f ∈ fields, f.Denotes μ (Value.property entries f.name)) := by
  have hproperties : (fields.zipWith namedProperty shapes).map (·.1) = fields.map (·.name) ∧
      List.Forall₂ (TypeExpr.Realizes runtime μ.world start later target)
        (fields.map (RecordField.Denotes μ)) ((fields.zipWith namedProperty shapes).map (·.2)) := by
    clear hnames
    induction h with
    | nil => exact ⟨rfl, .nil⟩
    | cons h hrest ih =>
      refine ⟨congrArg _ ih.1, .cons ?_ ih.2⟩
      exact realizes_namedProperty hstart hlibrary h
  rw [zipWith_propertyOf]
  refine (realizes_interface hlibrary (hproperties.1 ▸ hnames) hproperties.2).congr fun v _ => ?_
  rw [hproperties.1, List.zip_map']
  simp only [List.forall_mem_map]

/-- References are not built to optional types. -/
theorem isMaybe_of_lookup {name : String} {location : Option Location} {e : TypeExpr}
    (h : r.lookup name location = .ok e) : e.isMaybe = false := by
  obtain ⟨_, _, ⟨_, rfl⟩ | ⟨_, _, rfl⟩⟩ | ⟨_, ⟨_, _, ⟨_, rfl⟩ | ⟨_, rfl⟩⟩ | ⟨_, _, rfl⟩⟩ :=
    lookup_cases h
  all_goals rfl

/-- What types in another one are built to means what they mean, if this is known of each in turn. -/
theorem forall₂_realizes {t : StaticType} (hT : t.WellFormed)
    (henv : Environment runtime r μ start later target t) {α : Type} (type : α → StaticType)
    {xs : List α} {shapes : List Shape} (hparts : ∀ x ∈ xs, type x ∈ t.parts)
    (hlength : xs.length = shapes.length)
    (ih : ∀ p ∈ xs.zip shapes, (type p.1).WellFormed →
      Environment runtime r μ start later target (type p.1) →
      p.2.Realizes runtime μ.world start later target ((type p.1).Denotes μ)) :
    List.Forall₂ (fun x s => Shape.Realizes runtime μ.world start later target
      ((type x).Denotes μ) s) xs shapes := by
  refine List.forall₂_iff_zip.2 ⟨hlength, fun {x s} hp => ?_⟩
  have hx := hparts x (List.of_mem_zip hp).1
  exact ih (x, s) hp (hT.part hx) (henv.part hx)

/-- What a type is built to means what the type means. -/
theorem Shaped.realizes {t : StaticType} {s : Shape} (h : Shaped r t s) :
    t.WellFormed → Environment runtime r μ start later target t →
      s.Realizes runtime μ.world start later target (t.Denotes μ) := by
  induction h with
  | @primitive name export_ location h =>
    intro _ henv
    obtain ⟨test, htest, hlookup⟩ := exists_primitiveTest h
    have hdenotes (v : Value) : test.accepts μ.world v = true ↔
        (StaticType.primitive name location).Denotes μ v := by
      simp [StaticType.Denotes, htest]
    refine ⟨⟨rfl, (realizes_primitive henv.library henv.started hlookup).congr
      fun v _ => hdenotes v⟩, fun hnone v hv => ?_⟩
    obtain rfl := beq_iff_eq.1 hnone
    obtain rfl := Option.some.inj htest
    rw [← hdenotes, hv.accepts_absence_iff]
  | literal value location =>
    intro _ henv
    have hdenotes (v : Value) : v.isSameLiteral (.constant value) = true ↔
        (StaticType.literal value location).Denotes μ v := by
      simp [StaticType.Denotes]
    refine ⟨⟨rfl, (realizes_literal henv.library value).congr fun v _ => hdenotes v⟩,
      fun hnone v hv => ?_⟩
    obtain rfl := beq_iff_eq.1 hnone
    rw [← hdenotes, hv.isSameLiteral_none_iff]
  | generic name location =>
    intro _ henv
    have hany : primitives.lookup "Any" = some .anything := rfl
    refine Shape.realizes_single rfl ?_
    refine (realizes_primitive henv.library henv.started hany).congr fun v _ => ?_
    simp [StaticType.Denotes, Test.accepts]
  | reference h =>
    intro _ henv
    refine Shape.realizes_single (isMaybe_of_lookup h) ?_
    refine (realizes_reference henv h).congr fun v _ => ?_
    rw [StaticType.Denotes]
  | nullable h ih =>
    intro hT henv
    have hinner := ih (hT.part List.mem_cons_self) (henv.part List.mem_cons_self)
    obtain ⟨Ps, hPs, hiff⟩ := hinner.toAlternatives.append Alternatives.realizes_none
    refine ⟨Ps, hPs, fun v hv => ?_⟩
    rw [StaticType.Denotes, ← hiff v hv, or_comm]
  | array h ih =>
    intro hT henv
    have helement := ih (hT.part List.mem_cons_self) (henv.part List.mem_cons_self)
    refine Shape.realizes_single rfl ?_
    refine (realizes_list henv.library (helement.toExpr henv.started henv.library).1
      (hT _ .self)).congr fun v _ => ?_
    rw [StaticType.Denotes]
  | @dict key value location s s' hkey hvalue ihkey ihvalue =>
    intro hT henv
    have hvalueMem : value ∈ (StaticType.dict key value location).parts :=
      List.mem_cons_of_mem _ List.mem_cons_self
    have hkeys := ihkey (hT.part List.mem_cons_self) (henv.part List.mem_cons_self)
    have hvalues := ihvalue (hT.part hvalueMem) (henv.part hvalueMem)
    refine Shape.realizes_single rfl ?_
    refine (realizes_dict henv.library (hkeys.toExpr henv.started henv.library).1
      (hvalues.toExpr henv.started henv.library).1).congr fun v _ => ?_
    rw [StaticType.Denotes]
  | @record fields shown location shapes hlength h ih =>
    intro hT henv
    have hfields := forall₂_realizes hT henv (fun f : RecordField StaticType => f.type)
      (fun f hf => List.mem_map_of_mem hf) hlength ih
    refine Shape.realizes_single rfl ?_
    refine (realizes_record henv.started henv.library (hT _ .self) hfields).congr fun v _ => ?_
    rw [StaticType.Denotes]
    rfl
  | @union members location shapes hlength h ih =>
    intro hT henv
    have hmembers := forall₂_realizes hT henv id (fun _ ht => ht) hlength ih
    have hmeans : List.Forall₂ (Shape.Realizes runtime μ.world start later target)
        (members.map (StaticType.Denotes μ)) shapes := List.forall₂_map_left_iff.2 hmembers
    obtain ⟨Ps, hPs, hiff⟩ := Alternatives.realizes_flatMap hmeans
    refine ⟨Ps, hPs, fun v hv => ?_⟩
    rw [StaticType.Denotes, ← hiff v hv]
    simp
  | @intersection members location shapes hmarker hlength h ih =>
    intro hT henv
    have hmembers := forall₂_toExpr henv.started henv.library
      (forall₂_realizes hT henv id (fun _ ht => ht) hlength ih)
    refine Shape.realizes_single rfl ?_
    refine (realizes_intersection henv.library hmembers).congr fun v _ => ?_
    rw [StaticType.Denotes]
    simp only [StaticType.parts, List.forall_mem_map]
  | @markedLeft predicate place base location s h ih =>
    intro hT henv
    have hbaseMem : base ∈
        (StaticType.intersection [.marker predicate place, base] location).parts := by
      simp [StaticType.parts]
    have hbase := ih (hT.part hbaseMem) (henv.part hbaseMem)
    obtain ⟨f, hread, hf⟩ := henv.predicates predicate place (.part List.mem_cons_self .self)
    refine Shape.realizes_single rfl ?_
    refine (realizes_refinement henv.library (hbase.toExpr henv.started henv.library).1 hread
      hf).congr fun v _ => ?_
    simp [StaticType.Denotes, and_comm]
  | @markedRight predicate place base location s h ih =>
    intro hT henv
    have hmarkerMem : StaticType.marker predicate place ∈
        (StaticType.intersection [base, .marker predicate place] location).parts := by
      simp [StaticType.parts]
    have hbase := ih (hT.part List.mem_cons_self) (henv.part List.mem_cons_self)
    obtain ⟨f, hread, hf⟩ := henv.predicates predicate place (.part hmarkerMem .self)
    refine Shape.realizes_single rfl ?_
    refine (realizes_refinement henv.library (hbase.toExpr henv.started henv.library).1 hread
      hf).congr fun v _ => ?_
    simp [StaticType.Denotes]
  | @anyFunction result location s h ih =>
    intro hT henv
    have hresult := ih (hT.part List.mem_cons_self) (henv.part List.mem_cons_self)
    refine Shape.realizes_single rfl ?_
    refine (realizes_anyFunction henv.library
      (hresult.toExpr henv.started henv.library).1).congr fun v _ => ?_
    rw [StaticType.Denotes]
  | @function params result location shapes s hresult hlength h ihresult ih =>
    intro hT henv
    have hresultMem : result ∈ (StaticType.function (some params) result location).parts := by
      simp [StaticType.parts]
    have hparams := forall₂_toExpr henv.started henv.library (forall₂_realizes hT henv id
      (fun t ht => List.mem_append_left _ ht) hlength ih)
    have hresult := ihresult (hT.part hresultMem) (henv.part hresultMem)
    refine Shape.realizes_single rfl ?_
    refine (realizes_function henv.library hparams
      (hresult.toExpr henv.started henv.library).1).congr fun v _ => ?_
    rw [StaticType.Denotes]
  | @tuple elements isVariadic location shapes hlength h ih =>
    intro hT henv
    have helements := forall₂_toExpr henv.started henv.library
      (forall₂_realizes hT henv id (fun _ ht => ht) hlength ih)
    refine Shape.realizes_single rfl ?_
    cases isVariadic with
    | true =>
      obtain ⟨element, rfl⟩ := hT _ .self rfl
      obtain ⟨e, es, helement, hrest, heq⟩ := List.forall₂_cons_left_iff.1 helements
      obtain rfl := List.forall₂_nil_left_iff.1 hrest
      rw [heq]
      refine (realizes_repeated henv.library helement).congr fun v _ => ?_
      simp [StaticType.Denotes]
    | false =>
      refine (realizes_tuple henv.library helements).congr fun v _ => ?_
      rw [StaticType.Denotes, List.length_map]
      simp only [StaticType.parts, List.zip_map_left, List.forall_mem_map, Prod.map, id,
        Bool.false_eq_true, if_false]

/-- Compilation of types preserves their meaning. An expression that is built for a well-formed type
can be rendered, and where the module is imported it is evaluated to a runtime type. In every later
session of the environment, the check of a value that can occur against this type ends, and it finds
nothing wrong just when the value belongs to the type. Only a check that meets an integer that is too
long to be shown may raise that instead: it would stand in the path of a key or in the message of a
mismatch. -/
theorem build_preserves_meaning {t : StaticType} {e : TypeExpr} (ht : t.WellFormed)
    (hbuild : (build r t).outcome = .ok e)
    (henv : Environment runtime r μ start later target t) :
    ∃ x, render runtime e = .ok x ∧
      Yields (Inspection.evaluate μ.world x) start fun o s => ∃ type schema, o = .value type ∧
        s.IsModel type schema ∧
        (s.Kept later → ∀ v, FitsLater μ.world later target v → ∀ path,
          (Yields (Inspection.errors μ.world type v path) later fun found _ =>
            found = [] ↔ t.Denotes μ v) ∨
          schema.MeetsOverlong target v ∧
            ∃ s', (Inspection.errors μ.world type v path).run later = (.error .unfitValue, s')) := by
  obtain ⟨shape, hshaped, rfl⟩ := shaped_of_build hbuild
  have hrealizes := (hshaped.realizes ht henv).toExpr henv.started henv.library
  obtain ⟨⟨x, hx, hevaluates⟩, -⟩ := hrealizes
  refine ⟨x, hx, ?_⟩
  refine (start.reads_surroundings μ.world).yields_bind
    ((hevaluates _ start (.refl start)).mono ?_)
  rintro o s ⟨-, type, schema, rfl, hmodel, hmeans⟩
  refine ⟨type, schema, rfl, hmodel, fun hkept v hv path => ?_⟩
  obtain ⟨hcovers, hiff⟩ := hmeans hkept
  refine (henv.sound.errors_cases (hmodel.kept hkept) hcovers hv path).imp_left fun h => ?_
  exact h.mono fun found _ hfound => hfound.trans (hiff v hv)

/-- A type of trees: mappings from texts to trees, known under its name. -/
def treeSchema : Schema := .dict (.irreducible "Str" .text) (.late 0) (some "Tree")

/-- Types are looked up where trees are defined, and a function that tells what can be called. -/
def treeNames : List (String × Object) :=
  [("Tree", .value (.model 11)), ("callable", .value (.function (.builtin "callable"))),
    ("t", .library)]

/-- A session in which trees are defined, with some more types. -/
def treeSession (more : List Schema) : Session where
  names := treeNames
  models := ((Session.start []).models.toList ++ [.late 0, treeSchema] ++ more).toArray
  slots := #[⟨.name .synthetic "Tree", none⟩]

/-- A tree, the absent value, or something that can be called. -/
def treeHint : StaticType :=
  .union [.nullable (.reference "Tree" [] none) none,
    .intersection [.primitive "object" none, .marker "callable" none] none] none

/-- Trees are what the type of trees accepts. -/
def treeMeaning : Meaning where
  world := Sample.world
  named _ v := treeSchema.Accepts Sample.world (fun _ => treeSchema) v
  predicate _ v := Sample.isCallable v

/-- A session with trees is sound: the late reference stands for the type of trees. -/
theorem treeSession_sound (more : List Schema) :
    (treeSession more).Sound Sample.world fun _ => treeSchema where
  checked := by
    refine ⟨.refl _, fun slot l number hslot hl hfound => ?_⟩
    obtain rfl : slot = 0 := Nat.lt_one_iff.1 hslot
    obtain rfl := Option.some.inj hl
    cases hfound
  evaluates := by
    intro slot l hl text s' hs'
    obtain rfl : slot = 0 := Nat.lt_one_iff.1 (Array.getElem?_eq_some_iff.1 hl).1
    obtain rfl := Option.some.inj hl
    have hread : s'.names.lookup "Tree" = some (.value (.model 11)) := by
      rw [hs'.goesOn.names]
      rfl
    refine ⟨_, s', reads_lookupName hread, hs', _, rfl, 11, rfl, ?_⟩
    exact hs'.goesOn.kept.models 11 treeSchema (by simp [treeSession, Session.start, primitives])
  covers := by
    intro slot hslot
    refine .intro trivial fun c hc => ?_
    have hc : c = .irreducible "Str" .text ∨ c = .late 0 := by
      simpa [treeSchema, Schema.components] using hc
    rcases hc with rfl | rfl
    · exact .intro trivial (by simp [Schema.components])
    · exact .intro (Nat.zero_lt_one) (by simp [Schema.components])
  meets := ⟨fun _ => 0, fun i hi => ⟨Nat.zero_lt_one, fun j hj => nomatch hj⟩⟩
  cites := ⟨fun _ => 0, fun i hi => ⟨Nat.zero_lt_one, fun j hj => by
    cases hj with
    | part hshown hc h => cases hshown⟩⟩

/-- What is made for the hint in a session with trees. -/
def treeHintSchemas : List Schema :=
  [.refinement (.irreducible "Any" .anything) (.function (.builtin "callable")) none,
    .union [treeSchema, .refinement (.irreducible "Any" .anything)
      (.function (.builtin "callable")) none] none,
    .maybe (.union [treeSchema, .refinement (.irreducible "Any" .anything)
      (.function (.builtin "callable")) none] none) none]

/-- Trees are declared. -/
def treeRegistry : Registry where
  entries := [⟨"Tree", true, none, .complete, some (.named (.combine .dict [.primitive "Str", .deferred "Tree"]) "Tree")⟩]

/-- The types in the hint. -/
theorem includes_treeHint {u : StaticType} (h : StaticType.Includes u treeHint) :
    u = treeHint ∨ u = .nullable (.reference "Tree" [] none) none ∨ u = .reference "Tree" [] none ∨
      u = .intersection [.primitive "object" none, .marker "callable" none] none ∨
      u = .primitive "object" none ∨ u = .marker "callable" none := by
  cases h with
  | self => exact .inl rfl
  | part hc h =>
    rcases List.mem_cons.1 hc with rfl | hc
    · cases h with
      | self => exact .inr (.inl rfl)
      | part hc h =>
        obtain rfl := List.mem_singleton.1 hc
        cases h with
        | self => exact .inr (.inr (.inl rfl))
        | part hc h => exact nomatch hc
    · obtain rfl := List.mem_singleton.1 hc
      cases h with
      | self => exact .inr (.inr (.inr (.inl rfl)))
      | part hc h =>
        rcases List.mem_cons.1 hc with rfl | hc
        · cases h with
          | self => exact .inr (.inr (.inr (.inr (.inl rfl))))
          | part hc h => exact nomatch hc
        · obtain rfl := List.mem_singleton.1 hc
          cases h with
          | self => exact .inr (.inr (.inr (.inr (.inr rfl))))
          | part hc h => exact nomatch hc

/-- In a session with trees the names in the hint mean what they should. -/
theorem treeEnvironment : Environment "t" treeRegistry treeMeaning (treeSession [])
    (treeSession treeHintSchemas) (fun _ => treeSchema) treeHint where
  started := by
    refine ⟨rfl, fun number s hs => ?_, fun slot l hl => nomatch hl⟩
    have hmodels : (treeSession []).models =
        (Session.start treeNames).models ++ #[.late 0, treeSchema] := rfl
    rw [hmodels]
    exact (Array.getElem?_append_left (Array.getElem?_eq_some_iff.1 hs).1).trans hs
  library := rfl
  libraryLater := rfl
  sound := treeSession_sound treeHintSchemas
  names := by
    intro name arguments location h
    obtain ⟨rfl, -⟩ : name = "Tree" ∧ arguments = [] ∧ location = none := by
      simpa [treeHint] using includes_treeHint h
    refine ⟨treeSchema, ⟨.ofType rfl ⟨11, rfl, rfl⟩, fun _ => ⟨_, rfl, 11, rfl, rfl⟩⟩, ?_⟩
    exact ⟨(treeSession_sound treeHintSchemas).covers 0 Nat.zero_lt_one, fun _ _ => .rfl⟩
  predicates := by
    intro name location h
    obtain ⟨rfl, -⟩ : name = "callable" ∧ location = none := by
      simpa [treeHint] using includes_treeHint h
    exact ⟨_, rfl, fun v => rfl⟩

/-- What the hint becomes shows no integers. -/
theorem not_holdsOverlong_treeHint :
    ¬ (Schema.maybe (.union [treeSchema, .refinement (.irreducible "Any" .anything)
      (.function (.builtin "callable")) none] none) none).HoldsOverlong fun _ => treeSchema := by
  rintro ⟨value, shown, hpart, -⟩
  have hmem : Schema.literal value shown ∈ [.irreducible "Any" .anything,
      .irreducible "Str" .text, .late 0, treeSchema] ++ treeHintSchemas := by
    refine hpart.inherited (P := (· ∈ _)) (by simp [treeHintSchemas]) (fun s hs c hc => ?_)
      fun _ _ => by simp
    simp only [treeHintSchemas, treeSchema, List.cons_append, List.nil_append, List.mem_cons,
      List.not_mem_nil, or_false] at hs
    rcases hs with rfl | rfl | rfl | rfl | rfl | rfl | rfl
    all_goals simp only [Schema.components, List.mem_cons, List.not_mem_nil, or_false] at hc
    all_goals try rcases hc with rfl | rfl
    all_goals simp [treeHintSchemas, treeSchema]
  simp [treeHintSchemas, treeSchema] at hmem

/-- In a session with trees, what is built for the hint becomes a type that accepts just trees, the
absent value and what can be called. -/
theorem build_preserves_meaning_tree :
    ∃ x s type, render "t" (.combine .maybe [.combine .union [.name "Tree",
        .combine .refinement [.primitive "Any", .predicate "callable"]]]) = .ok x ∧
      (Inspection.evaluate Sample.world x).run (treeSession []) = (.ok (.value type), s) ∧
      s.Kept (treeSession treeHintSchemas) ∧
      ∀ v, FitsLater Sample.world (treeSession treeHintSchemas) (fun _ => treeSchema) v →
        ¬ v.HoldsOverlong → ∀ path,
          Yields (Inspection.errors Sample.world type v path) (treeSession treeHintSchemas)
            fun found _ => found = [] ↔ treeHint.Denotes treeMeaning v := by
  have hwellFormed : treeHint.WellFormed := by
    intro u hu
    obtain rfl | rfl | rfl | rfl | rfl | rfl := includes_treeHint hu
    all_goals exact trivial
  obtain ⟨x, hx, o, s, hrun, type, schema, rfl, hmodel, hchecks⟩ :=
    build_preserves_meaning hwellFormed rfl treeEnvironment
  obtain rfl := Except.ok.inj hx
  obtain ⟨rfl, rfl⟩ : s = treeSession treeHintSchemas ∧ type = .model 14 := by
    obtain ⟨hvalue, hs⟩ := Prod.mk.inj hrun
    exact ⟨hs.symm, (Object.value.inj (Except.ok.inj hvalue)).symm⟩
  have hkept := Session.Kept.refl (treeSession treeHintSchemas)
  refine ⟨_, _, _, rfl, hrun, hkept, fun v hv hshort path => ?_⟩
  refine (hchecks hkept v hv path).resolve_right ?_
  rintro ⟨hlong | hlong, -⟩
  · exact hshort hlong
  · refine not_holdsOverlong_treeHint ?_
    obtain rfl := hmodel.unique ⟨14, rfl, rfl⟩
    exact hlong

end Typeward
