import Typeward.Enforcement
import Typeward.Proofs.DefinitionRuns
import Typeward.Proofs.ImportSafety
import Typeward.Proofs.InheritedFields

/-!
# Record inheritance is structural subtyping

A class has the fields of its ancestors, and its type is an interface that has their properties: the
types of the fields are built again where the class is defined, but they stand there for what they
stand for in the ancestors. So the type of an ancestor accepts what the type of the class does.
-/

namespace Typeward

open Registry TypeExpr StaticType Relation

/-- An entry of a plan defines the type of a record: an interface with a property for each field,
built against a registry. -/
structure PlanEntry.DefinesRecord (entry : PlanEntry) (l : Lowered) (k : RecordClass)
    (r : Registry) (shapes : List Shape) : Prop where
  mode : entry.mode = .define
  label : entry.label = some k.head.name
  length : (l.fields k).length = shapes.length
  shaped : ∀ p ∈ (l.fields k).zip shapes, Shaped r p.1.type p.2
  expr : entry.expr =
    .call .interface ((l.fields k).zipWith propertyOf shapes) (some k.head.name) []

section Plan

variable {options : Options} {source file : String} {l : Lowered} {c : CompiledTree}
  {k : RecordClass}

/-- A record has one entry in the plan, which defines its type. -/
theorem exists_definesRecord (hlower : lower source file options = .ok l)
    (hcompile : compileLowered options l = .ok c) (hk : k ∈ l.recordClasses) :
    ∃ entry r shapes, c.plan.ofDeclaration k.number = [entry] ∧
      entry.DefinesRecord l k r shapes := by
  obtain ⟨d, place, hd, hname, htype⟩ := Lowered.exists_declaration hlower hk
  obtain ⟨runtime, r, r', -, hplan, -, -⟩ := compileLowered_eq_ok hcompile
  obtain ⟨r₁, r₂, hstep⟩ := (planRun_of_plan hplan).exists_step hd
  rw [Nat.zero_add] at hstep
  generalize hentries : c.plan.entries.filter (·.source = k.number) = entries at hstep
  cases hstep with
  | @define d e declared r₂ htop hdeclare hbuild hcomplete =>
    obtain ⟨s, hs, rfl⟩ := shaped_of_build hbuild
    rw [htype] at hs
    cases hs with
    | @record fields shown location shapes hlength hshaped =>
      exact ⟨_, _, shapes, hentries, rfl, congrArg some hname, hlength, hshaped, rfl⟩

end Plan

/-- The properties that the fields of a record stand for, by the keys of their shapes. -/
def recordProperties (n : Naming) (fields : List (RecordField StaticType)) (shapes : List Shape) :
    List (String × Schema) :=
  fields.zipWith (fun f k => (f.name, f.keySchema k)) (shapes.map (Shape.key n))

section Properties

variable {n : Naming} {r r' : Registry} {fields fields' : List (RecordField StaticType)}
  {shapes shapes' : List Shape}

/-- A record that has the fields of another one has its properties, wherever the two are built. -/
theorem recordProperties_subset (hlength : fields.length = shapes.length)
    (hshaped : ∀ p ∈ fields.zip shapes, Shaped r p.1.type p.2)
    (hshaped' : ∀ p ∈ fields'.zip shapes', Shaped r' p.1.type p.2)
    (hfields : ∀ f ∈ fields', ∃ g ∈ fields, SameField f g) :
    recordProperties n fields' shapes' ⊆ recordProperties n fields shapes := by
  intro property hproperty
  rw [recordProperties, List.zipWith_map_right, ← List.map_uncurry_zip_eq_zipWith] at hproperty ⊢
  obtain ⟨⟨f, s'⟩, hf, rfl⟩ := List.mem_map.1 hproperty
  obtain ⟨g, hg, hsame⟩ := hfields f (List.of_mem_zip hf).1
  obtain ⟨i, hi, rfl⟩ := List.getElem_of_mem hg
  have hmem : (fields[i], shapes[i]) ∈ fields.zip shapes := by
    rw [← List.getElem_zip (h := by simp; omega)]
    exact List.getElem_mem _
  have hkey : s'.key n = shapes[i].key n :=
    (hshaped' _ hf).key_eq_of_sameType (hshaped _ hmem) hsame.type
  refine List.mem_map.2 ⟨_, hmem, ?_⟩
  simp only [Function.uncurry_apply_pair, hkey, hsame.name, RecordField.keySchema, hsame.isOptional]

end Properties

namespace Plan.Runs

variable {options : Options} {source file : String} {l : Lowered} {c : CompiledTree}
  {k child parent : RecordClass} {world : World} {target : Nat → Schema} {Shows : Nat → Prop}
  {n : Naming} {start : Nat → Session} {later : Session}

/-- In a run, the name of a record stands for a type that differs at most in late references from
the interface with the properties of the record. -/
theorem exists_type_of_record (hlower : lower source file options = .ok l)
    (hcompile : compileLowered options l = .ok c) (hk : k ∈ l.recordClasses) {entry : PlanEntry}
    {r : Registry} {shapes : List Shape} (hentry : entry ∈ c.plan.entries)
    (hdefines : entry.DefinesRecord l k r shapes)
    (hruns : c.plan.Runs c.runtime world target Shows n start later) :
    ∃ type t, later.read k.head.name = some (.value type) ∧ later.IsModel type t ∧
      t.StandsFor target Shows later.slots.size
        (.interface (recordProperties n (l.fields k) shapes) (some k.head.name)) := by
  obtain ⟨i, hi⟩ := List.mem_iff_getElem?.1 hentry
  obtain ⟨type, hread, hmodel⟩ := hruns.knows_later hi hdefines.mode hdefines.label
  refine ⟨type, _, hread, hmodel, ?_⟩
  obtain ⟨d, place, hd, -, htype⟩ := Lowered.exists_declaration hlower hk
  have hwellFormed : d.type.WellFormed :=
    (wellMade_of_lower hlower _ (List.mem_of_getElem? hd) d.type List.mem_cons_self).wellFormed
  rw [htype] at hwellFormed
  obtain ⟨runtime, r₀, r', hallocate, hplan, -, -⟩ := compileLowered_eq_ok hcompile
  have hscoped := (planRun_of_plan hplan).wellScoped
    (Registry.KnowsTypes.allocate (.ofModule l.scope.bindings l.scope.reserved) hallocate)
  have hsettles : entry.expr.Settles c.runtime (start i) later target Shows n := by
    rw [hdefines.expr]
    exact (Shaped.record hdefines.length hdefines.shaped).settles
      (hruns.opens hi hdefines.mode) hwellFormed
  have hstands := hruns.standsFor hscoped hi hdefines.mode hdefines.label hsettles
  rwa [hdefines.expr, schema_record] at hstands

/-- In a run, the type of a class accepts no more than the type of each ancestor, if the class and
all above it conserve their fields. -/
theorem accepts_of_ancestor (hlower : lower source file options = .ok l)
    (hcompile : compileLowered options l = .ok c)
    (hruns : c.plan.Runs c.runtime world target Shows n start later)
    (hconserves : ∀ k, ReflTransGen l.Inherits child k → l.Conserves k)
    (hparent : TransGen l.Inherits child parent) :
    ∃ type type', later.read child.head.name = some (.value type) ∧
      later.read parent.head.name = some (.value type') ∧
      ∀ v, v.Fit Shows → ∀ s₁ s₂ s', later.Checked target s₁ → later.Checked target s₂ →
        (Inspection.accepts world type v).run s₁ = (.ok true, s') →
        Yields (Inspection.accepts world type' v) s₂ fun accepts _ => accepts = true := by
  have hchild : child ∈ l.recordClasses := by
    obtain ⟨middle, hinherits, -⟩ := TransGen.head'_iff.1 hparent
    exact hinherits.1
  have hparent_mem : parent ∈ l.recordClasses := by
    obtain ⟨middle, -, hinherits⟩ := TransGen.tail'_iff.1 hparent
    exact hinherits.mem
  have hmem {k : RecordClass} {entry : PlanEntry} (h : c.plan.ofDeclaration k.number = [entry]) :
      entry ∈ c.plan.entries :=
    List.mem_of_mem_filter (h ▸ List.mem_singleton_self entry)
  obtain ⟨entry, r, shapes, hentry, hdefines⟩ := exists_definesRecord hlower hcompile hchild
  obtain ⟨entry', r', shapes', hentry', hdefines'⟩ :=
    exists_definesRecord hlower hcompile hparent_mem
  obtain ⟨type, t, hread, hmodel, hstands⟩ :=
    exists_type_of_record hlower hcompile hchild (hmem hentry) hdefines hruns
  obtain ⟨type', t', hread', hmodel', hstands'⟩ :=
    exists_type_of_record hlower hcompile hparent_mem (hmem hentry') hdefines' hruns
  have hsubset := recordProperties_subset (n := n) hdefines.length hdefines.shaped hdefines'.shaped
    fun f hf => Lowered.exists_sameField_of_ancestor hlower hconserves hparent hf
  refine ⟨type, type', hread, hread', fun v hv s₁ s₂ s' hs₁ hs₂ haccepts => ?_⟩
  exact hruns.settled.accepts_of_subset hmodel hmodel' hstands hstands' hsubset hv hs₁ hs₂ haccepts

end Plan.Runs

/-- Record inheritance is structural subtyping. The fields of a record have different names, those
of its bases, in order, before its own. If a class and all above it conserve their fields, the class
has every field of each ancestor, and when the definitions of the module have been run, the type of
the ancestor accepts every value that the type of the class accepts. -/
theorem record_inheritance {options : Options} {source file : String} {l : Lowered}
    {c : CompiledTree} (hlower : lower source file options = .ok l)
    (hcompile : compileLowered options l = .ok c) :
    (∀ k ∈ l.recordClasses, ((l.fields k).map (·.name)).Nodup ∧ (l.fields k).map (·.name) =
      ((l.inherited k).map (·.name) ++ Stmt.fieldNames k.body).eraseDups) ∧
    ∀ child parent, (∀ k, ReflTransGen l.Inherits child k → l.Conserves k) →
      TransGen l.Inherits child parent →
      (∀ f ∈ l.fields parent, ∃ g ∈ l.fields child, SameField f g) ∧
      ∀ world target Shows n start later, c.plan.Runs c.runtime world target Shows n start later →
        ∃ type type', later.read child.head.name = some (.value type) ∧
          later.read parent.head.name = some (.value type') ∧
          ∀ v, v.Fit Shows → ∀ s₁ s₂ s', later.Checked target s₁ → later.Checked target s₂ →
            (Inspection.accepts world type v).run s₁ = (.ok true, s') →
            Yields (Inspection.accepts world type' v) s₂ fun accepts _ => accepts = true := by
  refine ⟨fun k hk => ⟨Lowered.nodup_fields hlower hk, Lowered.map_name_fields hlower hk⟩, ?_⟩
  intro child parent hconserves hparent
  refine ⟨fun f hf => Lowered.exists_sameField_of_ancestor hlower hconserves hparent hf, ?_⟩
  intro world target Shows n start later hruns
  exact hruns.accepts_of_ancestor hlower hcompile hconserves hparent

/-- Only a base that is written as a name is looked up: a record with other bases has the fields of
its own suite alone, also if one of them is an instance of a generic record. -/
theorem Lowered.map_name_fields_of_unnamed {options : Options} {source file : String} {l : Lowered}
    {k : RecordClass} (hlower : lower source file options = .ok l) (hk : k ∈ l.recordClasses)
    (hbases : ∀ base ∈ k.head.bases, l.scope.canonical base = some "TypedDict" ∨
      base.dotted? = none) :
    (l.fields k).map (·.name) = (Stmt.fieldNames k.body).eraseDups := by
  have hnone : l.inherited k = [] := by
    refine List.flatMap_eq_nil_iff.2 fun base hbase => ?_
    rcases hbases base hbase with hrecord | hunnamed
    · rw [base?, hrecord]
      rfl
    · rw [base?, hunnamed]
      split <;> rfl
  rw [map_name_fields hlower hk, hnone, List.map_nil, List.nil_append]

section Lowering

variable {context : LowerContext}

/-- A hint that names a type is lowered to that type. -/
theorem lowerHint_of_form {hint : Expr} {t : StaticType}
    (h : context.hints.form hint = .done (.ok t)) : lowerHint context hint = pure t := by
  funext s
  rw [lowerHint, HintContext.denote_of_form_done h]
  rfl

/-- In a module without comments nothing is marked as recursive. -/
theorem isRecursive_of_no_comments (hcomments : context.comments = [])
    (hmarker : context.recursiveMarker = "recursive") (pos : Pos) :
    context.isRecursive pos = false := by
  rw [LowerContext.isRecursive, hcomments, hmarker]
  change (Text.lowerCase "" == Text.lowerCase "recursive" ||
    Text.lowerCase "" == Text.lowerCase "recursive") = false
  decide +kernel

end Lowering

/-- The suite of a record with one field. -/
def fieldSuite (line : Nat) (name type : String) : List Stmt :=
  [.simple ⟨line, 4⟩ (.annotated (.name ⟨line, 4⟩ name) (.name ⟨line, 7⟩ type) none true none)]

/-- A place in a module. -/
def recordPlace (line column : Int) : Option Location := some ⟨line, column, some "m.py"⟩

/-- The only field of a suite. -/
def recordField (line : Int) (name : String) (type : Option Location → StaticType) :
    RecordField StaticType :=
  ⟨name, type (recordPlace line 8), false, recordPlace line 5⟩

/-- A record at the level of a module. -/
def recordType (line : Int) (name : String) (fields : List (RecordField StaticType)) :
    TypeDeclaration :=
  ⟨name, .record fields (some name) (recordPlace line 1), false, true, recordPlace line 1⟩

section GenericModule

/-- A module with a generic record, and with a record that has an instance of it as a base. -/
def genericText : String :=
  "from typing import TypedDict, Generic, AnyStr\n" ++
    "class P(TypedDict, Generic[AnyStr]):\n    e: int\nclass C(P[str], TypedDict):\n    y: int\n"

/-- The tree of the module, where the records carry numbers. -/
def genericTree (number : Nat → Option Nat) : Module :=
  [.simple ⟨1, 0⟩ (.importNames (some "typing")
      [⟨"TypedDict", none⟩, ⟨"Generic", none⟩, ⟨"AnyStr", none⟩] 0),
    .classDef ⟨2, 0⟩ ⟨"P", [.name ⟨2, 8⟩ "TypedDict",
        .subscript ⟨2, 19⟩ (.name ⟨2, 19⟩ "Generic") (.name ⟨2, 27⟩ "AnyStr")], [], [], number 0⟩
      (fieldSuite 3 "e" "int"),
    .classDef ⟨4, 0⟩ ⟨"C", [.subscript ⟨4, 8⟩ (.name ⟨4, 8⟩ "P") (.name ⟨4, 10⟩ "str"),
        .name ⟨4, 16⟩ "TypedDict"], [], [], number 1⟩
      (fieldSuite 5 "y" "int")]

/-- Whether a module has the two records at their places, and nothing else. -/
def isGenericTree : Module → Bool
  | [.simple ⟨1, 0⟩ (.importNames (some "typing")
        [⟨"TypedDict", none⟩, ⟨"Generic", none⟩, ⟨"AnyStr", none⟩] 0),
    .classDef ⟨2, 0⟩ ⟨"P", [.name ⟨2, 8⟩ "TypedDict",
        .subscript ⟨2, 19⟩ (.name ⟨2, 19⟩ "Generic") (.name ⟨2, 27⟩ "AnyStr")], [], [], none⟩
      [.simple ⟨3, 4⟩ (.annotated (.name ⟨3, 4⟩ "e") (.name ⟨3, 7⟩ "int") none true none)],
    .classDef ⟨4, 0⟩ ⟨"C", [.subscript ⟨4, 8⟩ (.name ⟨4, 8⟩ "P") (.name ⟨4, 10⟩ "str"),
        .name ⟨4, 16⟩ "TypedDict"], [], [], none⟩
      [.simple ⟨5, 4⟩ (.annotated (.name ⟨5, 4⟩ "y") (.name ⟨5, 7⟩ "int") none true none)]] => true
  | _ => false

/-- The module as the compiler sees it. -/
def genericModule : Lowered where
  file := "m.py"
  scope :=
    { specialNames := [("AnyStr", "AnyStr"), ("Generic", "Generic"), ("TypedDict", "TypedDict")]
      recordNames := ["C", "P"]
      shadowed := ["C", "P"]
      reserved := ["y", "str", "C", "int", "e", "P", "AnyStr", "Generic", "TypedDict"] }
  declarations :=
    [.type (recordType 2 "P" [recordField 3 "e" (.primitive "int")]),
      .type (recordType 4 "C" [recordField 5 "y" (.primitive "int")])]
  tree := genericTree some

/-- The tree of the module is read from its text. -/
theorem parseModule_generic :
    Source.parseModule genericText = .ok (genericTree fun _ => none) := by
  have hread : (Source.parseModule genericText).toOption.any isGenericTree = true := by
    decide +kernel
  refine Except.eq_ok_of_any hread fun m hm => ?_
  unfold isGenericTree at hm
  split at hm
  · rfl
  · cases hm

set_option maxRecDepth 4000 in
/-- The module is lowered from its tree. -/
theorem lowerTree_generic :
    lowerTree (genericTree fun _ => none) "m.py" [] {} = .ok genericModule := by
  let context : LowerContext := ⟨⟨genericModule.scope, "m.py", none⟩, [], "recursive", 0⟩
  have hint (line : Nat) : lowerHint context (.name ⟨line, 7⟩ "int") =
      pure (.primitive "int" (recordPlace line 8)) :=
    lowerHint_of_form (by with_unfolding_all rfl)
  have hplain (pos : Pos) : context.isRecursive pos = false :=
    isRecursive_of_no_comments rfl rfl pos
  have hscope : Scope.ofModule "m.py" (genericTree fun _ => none) = genericModule.scope := by
    with_unfolding_all rfl
  have htree : lowerAll context (genericTree fun _ => none) {} =
      .ok (genericModule.tree, ⟨genericModule.declarations,
        [("C", [recordField 5 "y" (.primitive "int")]),
          ("P", [recordField 3 "e" (.primitive "int")])]⟩) := by
    simp only [genericTree, fieldSuite, lowerAll, lowerStmt, lowerRecord, lowerFields, lowerField,
      hint, hplain]
    rfl
  rw [lowerTree, hscope]
  exact Except.bind_eq_ok.2 ⟨_, htree, rfl⟩

/-- The module is lowered from its text. -/
theorem lower_generic : lower genericText "m.py" {} = .ok genericModule := by
  have hnone : (Source.comments genericText).toOption.any List.isEmpty = true := by decide +kernel
  have hcomments : Source.comments genericText = .ok [] :=
    Except.eq_ok_of_any hnone fun _ => List.isEmpty_iff.1
  rw [lower, readModule, parseModule_generic, hcomments]
  exact lowerTree_generic

/-- A record may have an instance of a generic record as a base and lack its fields. -/
theorem instance_fields_missing : ∃ l c parent child, lower genericText "m.py" {} = .ok l ∧
    compileLowered {} l = .ok c ∧ l.recordClasses = [parent, child] ∧ parent.head.name = "P" ∧
    child.head.bases = [.subscript ⟨4, 8⟩ (.name ⟨4, 8⟩ "P") (.name ⟨4, 10⟩ "str"),
      .name ⟨4, 16⟩ "TypedDict"] ∧
    (l.fields parent).map (·.name) = ["e"] ∧ (l.fields child).map (·.name) = ["y"] := by
  obtain ⟨c, hcompile⟩ : ∃ c, compileLowered {} genericModule = .ok c := ⟨_, rfl⟩
  exact ⟨_, c, _, _, lower_generic, hcompile, rfl, rfl, rfl, rfl, rfl⟩

end GenericModule

/-- The header of a class with one base. -/
def recordHead (line : Nat) (name base : String) (number : Option Nat) : ClassHead :=
  ⟨name, [.name ⟨line, 7 + name.length⟩ base], [], [], number⟩

/-- A module with three records: the field of the first one has a builtin class as its type, the
second one has a given name, and the last one extends the first one. -/
def recordText (second : String) : String :=
  "from typing import TypedDict\nclass P(TypedDict):\n    e: range\nclass " ++ second ++
    "(TypedDict):\n    x: int\nclass C(P):\n    y: int\n"

/-- The tree of the module, where the records carry numbers. -/
def recordTree (second : String) (number : Nat → Option Nat) : Module :=
  [.simple ⟨1, 0⟩ (.importNames (some "typing") [⟨"TypedDict", none⟩] 0),
    .classDef ⟨2, 0⟩ (recordHead 2 "P" "TypedDict" (number 0)) (fieldSuite 3 "e" "range"),
    .classDef ⟨4, 0⟩ (recordHead 4 second "TypedDict" (number 1)) (fieldSuite 5 "x" "int"),
    .classDef ⟨6, 0⟩ (recordHead 6 "C" "P" (number 2)) (fieldSuite 7 "y" "int")]

/-- Whether a module has the three records at their places, and nothing else. -/
def isRecordTree (second : String) : Module → Bool
  | [.simple ⟨1, 0⟩ (.importNames (some "typing") [⟨"TypedDict", none⟩] 0),
    .classDef ⟨2, 0⟩ ⟨"P", [.name ⟨2, 8⟩ "TypedDict"], [], [], none⟩
      [.simple ⟨3, 4⟩ (.annotated (.name ⟨3, 4⟩ "e") (.name ⟨3, 7⟩ "range") none true none)],
    .classDef ⟨4, 0⟩ ⟨given, [.name ⟨4, column⟩ "TypedDict"], [], [], none⟩
      [.simple ⟨5, 4⟩ (.annotated (.name ⟨5, 4⟩ "x") (.name ⟨5, 7⟩ "int") none true none)],
    .classDef ⟨6, 0⟩ ⟨"C", [.name ⟨6, 8⟩ "P"], [], [], none⟩
      [.simple ⟨7, 4⟩ (.annotated (.name ⟨7, 4⟩ "y") (.name ⟨7, 7⟩ "int") none true none)]] =>
    given == second && column == 7 + second.length
  | _ => false

/-- What is known of the names in the module. -/
def recordScope (second : String) : Scope where
  specialNames := [("TypedDict", "TypedDict")]
  recordNames := ["C", second, "P"]
  shadowed := ["C", second, "P"]
  reserved := "y" :: "C" :: "int" :: "x" :: insertName ["range", "e", "P", "TypedDict"] second

/-- The field of the first record, which the last one inherits. -/
def inheritedField : RecordField StaticType := recordField 3 "e" (.reference "range" [])

/-- The first record of the module. -/
def ancestorType : TypeDeclaration := recordType 2 "P" [inheritedField]

/-- The second record of the module. -/
def secondType (second : String) : TypeDeclaration :=
  recordType 4 second [recordField 5 "x" (.primitive "int")]

/-- The last record of the module. -/
def childType : TypeDeclaration :=
  recordType 6 "C" [inheritedField, recordField 7 "y" (.primitive "int")]

/-- The module as the compiler sees it. -/
def recordModule (second : String) : Lowered where
  file := "m.py"
  scope := recordScope second
  declarations := [.type ancestorType, .type (secondType second), .type childType]
  tree := recordTree second some

/-- The first record of the module. -/
def ancestorClass : RecordClass :=
  ⟨recordHead 2 "P" "TypedDict" (some 0), fieldSuite 3 "e" "range", 0⟩

/-- The last record of the module. -/
def childClass : RecordClass := ⟨recordHead 6 "C" "P" (some 2), fieldSuite 7 "y" "int", 2⟩

section Module

variable {second : String}

/-- The records of the module. -/
theorem recordClasses_recordModule : (recordModule second).recordClasses =
    [ancestorClass, ⟨recordHead 4 second "TypedDict" (some 1), fieldSuite 5 "x" "int", 1⟩,
      childClass] := rfl

variable (hsecond : second = "range" ∨ second = "Span")

include hsecond

/-- The tree of the module is read from its text. -/
theorem parseModule_record :
    Source.parseModule (recordText second) = .ok (recordTree second fun _ => none) := by
  -- Trees have no decidable equality, so the tree that is read is looked at.
  have hread :
      (Source.parseModule (recordText second)).toOption.any (isRecordTree second) = true := by
    rcases hsecond with rfl | rfl <;> decide +kernel
  refine Except.eq_ok_of_any hread fun m hm => ?_
  unfold isRecordTree at hm
  split at hm
  · obtain ⟨hgiven, hcolumn⟩ := Bool.and_eq_true_iff.1 hm
    obtain rfl := eq_of_beq hgiven
    obtain rfl := eq_of_beq hcolumn
    rfl
  · cases hm

set_option maxRecDepth 4000 in
/-- The module is lowered from its tree. -/
theorem lowerTree_record :
    lowerTree (recordTree second fun _ => none) "m.py" [] {} = .ok (recordModule second) := by
  let context : LowerContext := ⟨⟨recordScope second, "m.py", none⟩, [], "recursive", 0⟩
  have hrange : lowerHint context (.name ⟨3, 7⟩ "range") =
      pure (.reference "range" [] (recordPlace 3 8)) := by
    refine lowerHint_of_form ?_
    rcases hsecond with rfl | rfl <;> with_unfolding_all rfl
  have hx : lowerHint context (.name ⟨5, 7⟩ "int") = pure (.primitive "int" (recordPlace 5 8)) := by
    refine lowerHint_of_form ?_
    rcases hsecond with rfl | rfl <;> with_unfolding_all rfl
  have hy : lowerHint context (.name ⟨7, 7⟩ "int") = pure (.primitive "int" (recordPlace 7 8)) := by
    refine lowerHint_of_form ?_
    rcases hsecond with rfl | rfl <;> with_unfolding_all rfl
  have hscope : Scope.ofModule "m.py" (recordTree second fun _ => none) = recordScope second := by
    rcases hsecond with rfl | rfl <;> with_unfolding_all rfl
  have hplain (pos : Pos) : context.isRecursive pos = false :=
    isRecursive_of_no_comments rfl rfl pos
  have htree : lowerAll context (recordTree second fun _ => none) {} =
      .ok ((recordModule second).tree, ⟨(recordModule second).declarations,
        [("C", [inheritedField, recordField 7 "y" (.primitive "int")]),
          (second, [recordField 5 "x" (.primitive "int")]), ("P", [inheritedField])]⟩) := by
    simp only [recordTree, recordHead, fieldSuite, lowerAll, lowerStmt, lowerRecord, lowerFields,
      lowerField, hrange, hx, hy, hplain]
    rcases hsecond with rfl | rfl
    · rfl
    · rfl
  rw [lowerTree, hscope]
  exact Except.bind_eq_ok.2 ⟨_, htree, rfl⟩

/-- The module is lowered from its text. -/
theorem lower_record : lower (recordText second) "m.py" {} = .ok (recordModule second) := by
  have hnone : (Source.comments (recordText second)).toOption.any List.isEmpty = true := by
    rcases hsecond with rfl | rfl <;> decide +kernel
  have hcomments : Source.comments (recordText second) = .ok [] :=
    Except.eq_ok_of_any hnone fun _ => List.isEmpty_iff.1
  rw [lower, readModule, parseModule_record hsecond, hcomments]
  exact lowerTree_record hsecond

/-- No record of the module redeclares a field. -/
theorem recordModule_conserves :
    ∀ k ∈ (recordModule second).recordClasses, (recordModule second).Conserves k := by
  have hnone {k : RecordClass} (h : (recordModule second).inherited k = []) :
      (recordModule second).Conserves k := ⟨by simp [h], by simp [h]⟩
  have hchild : (recordModule second).inherited childClass = [inheritedField] := by
    rcases hsecond with rfl | rfl <;> rfl
  have hconserves : (recordModule second).Conserves childClass := by
    constructor
    · rw [hchild]
      simp [inheritedField, recordField, childClass, fieldSuite, Stmt.fieldNames]
    · rw [hchild]
      intro f hf g hg _
      rw [List.mem_singleton.1 hf, List.mem_singleton.1 hg]
      exact ⟨rfl, rfl, rfl⟩
  simp only [recordClasses_recordModule, List.forall_mem_cons]
  refine ⟨hnone ?_, hnone ?_, hconserves, List.forall_mem_nil _⟩
  · rcases hsecond with rfl | rfl <;> rfl
  · rcases hsecond with rfl | rfl <;> rfl

/-- The last record of the module extends the first one. -/
theorem recordModule_inherits : (recordModule second).Inherits childClass ancestorClass := by
  refine ⟨by simp [recordClasses_recordModule], _, List.mem_singleton_self _, ?_⟩
  rcases hsecond with rfl | rfl <;> rfl

end Module

/-- The definition of a record with given properties. -/
def recordEntry (d : TypeDeclaration) (number : Nat) (properties : List TypeExpr) : PlanEntry :=
  ⟨.type d, .call .interface properties (some d.name) [], .define, some d.name, number⟩

/-- The plan of the module, where the inherited field is built to a given expression. -/
def recordPlan (second : String) (inherited : TypeExpr) : Plan where
  entries :=
    [recordEntry ancestorType 0 [.field "e" (classCheck "range")],
      recordEntry (secondType second) 1 [.field "x" (.primitive "Int")],
      recordEntry childType 2 [.field "e" inherited, .field "y" (.primitive "Int")]]
  refinements := []

/-- The module compiles to its plan. -/
theorem compileLowered_record {inherited : TypeExpr} {second : String}
    (h : second = "range" ∧ inherited = .name "range" ∨
      second = "Span" ∧ inherited = classCheck "range") :
    ∃ c, compileLowered {} (recordModule second) = .ok c ∧ c.runtime = "t" ∧
      c.plan = recordPlan second inherited := by
  obtain ⟨r, hallocate⟩ : ∃ r, (Registry.ofModule (recordScope second).bindings
      (recordScope second).reserved).allocate "t" = ("t", r) := by
    rcases h with ⟨rfl, rfl⟩ | ⟨rfl, rfl⟩ <;> exact ⟨_, rfl⟩
  obtain ⟨r', hplan⟩ : ∃ r', plan r (recordModule second).declarations =
      .ok (recordPlan second inherited, r') := by
    obtain rfl := congrArg Prod.snd hallocate
    rcases h with ⟨rfl, rfl⟩ | ⟨rfl, rfl⟩ <;> exact ⟨_, rfl⟩
  obtain ⟨spliced, hspliced⟩ : ∃ spliced, splice (.ofOptions {} (some "t"))
      (recordPlan second inherited) "typecomb.runtime" (recordModule second).tree =
        .ok spliced := by
    rcases h with ⟨rfl, rfl⟩ | ⟨rfl, rfl⟩ <;> exact ⟨_, rfl⟩
  refine ⟨⟨spliced, recordPlan second inherited, r'.definitions.map (·.name), "t"⟩, ?_, rfl, rfl⟩
  simp only [compileLowered, recordModule, hallocate]
  exact Except.bind_eq_ok.2 ⟨_, Except.mapError_eq_ok.2 hplan,
    Except.bind_eq_ok.2 ⟨_, hspliced, rfl⟩⟩

/-- The type of ranges. -/
def rangeSchema : Schema := .irreducible "range" (.instanceOf (.builtin "range"))

/-- The type of the second record. -/
def secondSchema (second : String) : Schema :=
  .interface [("x", .irreducible "Int" .integer)] (some second)

/-- The type of the first record. -/
def ancestorSchema : Schema := .interface [("e", rangeSchema)] (some "P")

/-- The type of the last record, where the inherited field has a given type. -/
def childSchema (t : Schema) : Schema :=
  .interface [("e", t), ("y", .irreducible "Int" .integer)] (some "C")

/-- What the names in the definitions stand for, where the second record takes no other name. -/
def spanNaming : Naming where
  type name := if name = "range" then rangeSchema else if name = "P" then ancestorSchema
    else if name = "Span" then secondSchema "Span" else childSchema rangeSchema
  predicate _ := .absent

/-- A session on the way through the definitions: so many names are still missing, and so many types
were made. -/
def spanSession (missing made : Nat) : Session where
  names := [("C", .value (.model 14)), ("Span", .value (.model 12)), ("P", .value (.model 11))].drop
    missing ++ [("t", .library), ("range", .value (.ofClass (.builtin "range")))]
  models := ((Session.start []).models.toList ++ [rangeSchema, ancestorSchema, secondSchema "Span",
    rangeSchema, childSchema rangeSchema].take made).toArray

/-- The sessions that the definitions are evaluated in. -/
def spanStart : Nat → Session
  | 0 => spanSession 3 0
  | 1 => spanSession 2 2
  | _ => spanSession 1 3

/-- What has been made stays. -/
theorem spanSession_kept {missing missing' made made' : Nat} (h : made ≤ made') :
    (spanSession missing made).Kept (spanSession missing' made') := by
  refine ⟨fun number t ht => ?_, nofun⟩
  simp only [spanSession, List.getElem?_toArray, List.getElem?_append, List.getElem?_take] at ht ⊢
  split_ifs at ht ⊢ with hstart hnew hnew'
  · exact ht
  · exact ht
  · omega

/-- What a record with builtin types uses. -/
theorem TypeExpr.Uses.of_builtinRecord {x : TypeExpr} {properties : List TypeExpr}
    {shown : Option String} (h : x.Uses (.call .interface properties shown []))
    (hproperties : ∀ e ∈ properties, ∃ name t, e = .field name t ∧
      (t = classCheck "range" ∨ t = .primitive "Int")) :
    (∃ properties, x = .call .interface properties shown []) ∨ (∃ name t, x = .field name t) ∨
      x = classCheck "range" ∨ x = .primitive "Int" := by
  cases h with
  | self => exact .inl ⟨_, rfl⟩
  | call _ he h =>
    obtain ⟨name, t, rfl, ht⟩ := hproperties _ he
    cases h with
    | self => exact .inr (.inl ⟨_, _, rfl⟩)
    | field h =>
      rcases ht with rfl | rfl
      · cases h with
        | self => exact .inr (.inr (.inl rfl))
        | call hc => exact absurd rfl hc
      · cases h
        exact .inr (.inr (.inr rfl))

/-- A record with builtin types is evaluated. -/
theorem recordEntry_evaluated {d : TypeDeclaration} {number missing made : Nat}
    {properties : List TypeExpr} (model made' : Nat)
    (hproperties : ∀ e ∈ properties, ∃ name t, e = .field name t ∧
      (t = classCheck "range" ∨ t = .primitive "Int"))
    (hmade : made' ≤ 5)
    (hrun : ∃ x, render "t" (recordEntry d number properties).expr = .ok x ∧
      (Inspection.evaluate Sample.world x).run (spanSession missing made) =
        (.ok (.value (.model model)), spanSession missing made'))
    (hmodel : (spanSession missing made').models[model]? = some (spanNaming.type d.name))
    (hlibrary : (spanSession missing made).names.lookup "t" = some .library)
    (hrange : (spanSession missing made).read "range" = some (.value (.ofClass (.builtin "range"))))
    (hread : (spanSession 0 5).read d.name = some (.value (.model model))) :
    (recordEntry d number properties).Evaluated "t" Sample.world spanNaming
      (spanSession missing made) (spanSession 0 5) where
  started := by
    refine ⟨rfl, ?_⟩
    change (spanSession missing 0).Kept (spanSession missing made)
    exact spanSession_kept (Nat.zero_le made)
  library := hlibrary
  checked x hx := by
    rcases hx.of_builtinRecord hproperties with ⟨_, h⟩ | ⟨_, _, h⟩ | h | h
    · cases h
    · cases h
    · obtain rfl : x = "range" := by cases h; rfl
      exact .ofClass (c := .builtin "range") hrange
    · cases h
  delayed x hx := by
    rcases hx.of_builtinRecord hproperties with ⟨_, h⟩ | ⟨_, _, h⟩ | h | h <;> cases h
  predicates x hx := by
    rcases hx.of_builtinRecord hproperties with ⟨_, h⟩ | ⟨_, _, h⟩ | h | h <;> cases h
  bound name hname := by
    obtain rfl := Option.some.inj hname
    obtain ⟨x, hx, hrun⟩ := hrun
    exact ⟨x, _, _, hx, hrun, spanSession_kept hmade, ⟨_, rfl, hmodel⟩, hread⟩

/-- The definitions of the module are run. -/
theorem recordPlan_runs : (recordPlan "Span" (classCheck "range")).Runs "t" Sample.world
    (fun _ => rangeSchema) (fun _ => False) spanNaming spanStart (spanSession 0 5) where
  settled :=
    { checked := ⟨.refl _, fun _ _ _ hslot => nomatch hslot⟩
      evaluates := nofun
      grounded := nofun
      shows := fun _ h => h.elim }
  library := by with_unfolding_all rfl
  grounded x := by
    have hatom (name : String) (test : Test) :
        (Schema.irreducible name test).Grounded (Value.Fit fun _ => False) 0 :=
      .of_parts nofun nofun nofun
    have hrecord {props : List (String × Schema)} {shown : Option String}
        (h : ∀ c ∈ props.map (·.2), c.Grounded (Value.Fit fun _ => False) 0) :
        (Schema.interface props shown).Grounded (Value.Fit fun _ => False) 0 :=
      .of_parts nofun nofun h
    unfold spanNaming
    dsimp only
    split_ifs
    · exact hatom _ _
    · exact hrecord (by simpa [rangeSchema] using hatom _ _)
    · exact hrecord (by simpa using hatom _ _)
    · exact hrecord (by simpa [rangeSchema] using ⟨hatom _ _, hatom _ _⟩)
  evaluated := by
    rintro (_ | _ | _ | i) entry hentry -
    · obtain rfl := Option.some.inj hentry
      exact recordEntry_evaluated 11 2 (by simp) (by omega)
        ⟨_, rfl, by with_unfolding_all rfl⟩ rfl rfl (by with_unfolding_all rfl) rfl
    · obtain rfl := Option.some.inj hentry
      exact recordEntry_evaluated 12 3 (by simp) (by omega)
        ⟨_, rfl, by with_unfolding_all rfl⟩ rfl rfl (by with_unfolding_all rfl) rfl
    · obtain rfl := Option.some.inj hentry
      exact recordEntry_evaluated 14 5 (by simp) (by omega)
        ⟨_, rfl, by with_unfolding_all rfl⟩ rfl rfl (by with_unfolding_all rfl) rfl
    · cases hentry
  known := by
    intro i j entry entry' name hij hentry _ hname hentry' _
    have hj : j < 3 := (List.getElem?_eq_some_iff.1 hentry').1
    obtain ⟨rfl, rfl⟩ | ⟨rfl, rfl⟩ | ⟨rfl, rfl⟩ :
        i = 0 ∧ j = 1 ∨ i = 0 ∧ j = 2 ∨ i = 1 ∧ j = 2 := by omega
    all_goals
      obtain rfl := Option.some.inj hentry
      obtain rfl := Option.some.inj hname
      exact ⟨_, rfl, _, rfl, rfl⟩

/-- A value with a range, for the last record of the module. -/
def spanValue : Value :=
  .mapping false [(.ofText "e", .range 0 3 1), (.ofText "y", .ofInt 1)]

/-- Where no name changes what it stands for, the first record of the module accepts what the last
one accepts. -/
theorem record_inheritance_span : ∃ c,
    lower (recordText "Span") "m.py" {} = .ok (recordModule "Span") ∧
    compileLowered {} (recordModule "Span") = .ok c ∧
    ((recordModule "Span").fields childClass).map (·.name) = ["e", "y"] ∧
    (∃ g ∈ (recordModule "Span").fields childClass, SameField inheritedField g) ∧
    c.plan.Runs c.runtime Sample.world (fun _ => rangeSchema) (fun _ => False) spanNaming spanStart
      (spanSession 0 5) ∧
    (spanSession 0 5).read "C" = some (.value (.model 14)) ∧
    (Inspection.accepts Sample.world (.model 14) spanValue).run (spanSession 0 5) =
      (.ok true, spanSession 0 5) ∧
    (spanSession 0 5).read "P" = some (.value (.model 11)) ∧
    Yields (Inspection.accepts Sample.world (.model 11) spanValue) (spanSession 0 5)
      fun accepts _ => accepts = true := by
  have hsecond : "Span" = "range" ∨ "Span" = "Span" := .inr rfl
  have hlower := lower_record hsecond
  obtain ⟨c, hcompile, hruntime, hplan⟩ := compileLowered_record (.inr ⟨rfl, rfl⟩)
  have hinherits := recordModule_inherits hsecond
  have hconserves : ∀ k, ReflTransGen (recordModule "Span").Inherits childClass k →
      (recordModule "Span").Conserves k := by
    intro k hk
    refine recordModule_conserves hsecond k ?_
    rcases hk.cases_tail with rfl | ⟨_, -, hlast⟩
    · exact hinherits.1
    · exact hlast.mem
  have hruns : c.plan.Runs c.runtime Sample.world (fun _ => rangeSchema) (fun _ => False) spanNaming
      spanStart (spanSession 0 5) := by
    rw [hruntime, hplan]
    exact recordPlan_runs
  obtain ⟨hlists, hhierarchy⟩ := record_inheritance hlower hcompile
  obtain ⟨hfields, hchecks⟩ := hhierarchy _ _ hconserves (.single hinherits)
  obtain ⟨type, type', hread, hread', hsub⟩ := hchecks _ _ _ _ _ _ hruns
  have hchild : (spanSession 0 5).read "C" = some (.value (.model 14)) := rfl
  have hancestor : (spanSession 0 5).read "P" = some (.value (.model 11)) := rfl
  obtain rfl := Object.value.inj (Option.some.inj (hread.symm.trans hchild))
  obtain rfl := Object.value.inj (Option.some.inj (hread'.symm.trans hancestor))
  have haccepts : (Inspection.accepts Sample.world (.model 14) spanValue).run (spanSession 0 5) =
      (.ok true, spanSession 0 5) := by
    with_unfolding_all rfl
  have hfit : spanValue.Fit fun _ => False :=
    .mapping (by simp [Value.ofText, Value.Fit.constant])
      (by simp [Value.ofInt, Value.Fit.constant, Value.Fit.range])
  have hstart := hruns.settled.checked
  exact ⟨c, hlower, hcompile, (hlists _ hinherits.1).2, hfields _ (List.mem_singleton_self _),
    hruns, hchild, haccepts, hancestor, hsub _ hfit _ _ _ hstart hstart haccepts⟩

/-- The names and the types when the definitions of the module have been run, where the second
record takes the name of the class. -/
def shadowedSession : Session where
  names := [("C", .value (.model 13)), ("range", .value (.model 12)), ("P", .value (.model 11))] ++
    Enforcement.openNames "t"
  models := (Session.start []).models ++
    #[rangeSchema, ancestorSchema, secondSchema "range", childSchema (secondSchema "range")]

/-- A value for the last record, with one for the second record in it. -/
def shadowedValue : Value :=
  .mapping false [(.ofText "e", .mapping false [(.ofText "x", .ofInt 1)]), (.ofText "y", .ofInt 1)]

/-- A class may take the name of a builtin class. Above it, the name stands for the builtin class,
and below it, also in inherited fields, for the class: so a record may accept what its base
rejects. -/
theorem inherited_field_shadowed : ∃ l c, lower (recordText "range") "m.py" {} = .ok l ∧
    compileLowered {} l = .ok c ∧ l.scope.bindings = [] ∧ (∀ k ∈ l.recordClasses, l.Conserves k) ∧
    l.Inherits childClass ancestorClass ∧ ∃ s e,
      (Enforcement.defineAll (.ofOptions {} (some c.runtime)) c.plan).run
          (.start (Enforcement.openNames c.runtime)) =
        (.ok [("P", .ok "P"), ("range", .ok "range"), ("C", .ok "C")], s) ∧
      (Enforcement.checkNamed "C" shadowedValue).run s = (.ok shadowedValue, s) ∧
      (Enforcement.checkNamed "P" shadowedValue).run s = (.error (.invalid e), s) ∧
      e.path = ["P", "e"] ∧ e.expectedName = "range" := by
  obtain ⟨c, hcompile, hruntime, hplan⟩ := compileLowered_record (.inl ⟨rfl, rfl⟩)
  refine ⟨_, c, lower_record (.inl rfl), hcompile, rfl, recordModule_conserves (.inl rfl),
    recordModule_inherits (.inl rfl), ?_⟩
  rw [hruntime, hplan]
  exact ⟨shadowedSession, _, by with_unfolding_all rfl, by with_unfolding_all rfl,
    by with_unfolding_all rfl, by with_unfolding_all rfl, by with_unfolding_all rfl⟩

end Typeward
