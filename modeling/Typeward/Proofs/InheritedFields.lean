import Mathlib.Data.List.Induction
import Mathlib.Logic.Relation
import Typeward.Proofs.DeclaredTypes
import Typeward.Proofs.LoweringFaults
import Typeward.Proofs.ParsedModules
import Typeward.Proofs.PlacelessCode
import Typeward.Proofs.RecordRuns

/-!
# Inherited fields

What the records of a module inherit. The fields of a record are those of its bases, base after
base, and then those of its own suite: every name stands where it came first. So where no class
redeclares an inherited field, and the bases of a class do not disagree on one, a class has every
field of each of its ancestors.
-/

namespace Typeward

namespace Lowered

/-- The records that a module declares, in order. -/
def recordClasses (l : Lowered) : List RecordClass := Stmt.recordClasses (Stmt.allNodes l.tree)

/-- The fields of a record. -/
def fields (l : Lowered) (k : RecordClass) : List (RecordField StaticType) :=
  fieldsOf l.declarations k.number

/-- The record that a base of a class names: the last one of its name above the class. -/
def base? (l : Lowered) (child : RecordClass) (base : Expr) : Option RecordClass :=
  if l.scope.canonical base == some "TypedDict" then none
  else base.dotted?.bind fun name =>
    (l.recordClasses.filter (·.number < child.number)).reverse.find? (·.head.name == name)

/-- A record has another one as a base. -/
def Inherits (l : Lowered) (child parent : RecordClass) : Prop :=
  child ∈ l.recordClasses ∧ ∃ base ∈ child.head.bases, l.base? child base = some parent

/-- The fields of the bases of a record, in order. -/
def inherited (l : Lowered) (k : RecordClass) : List (RecordField StaticType) :=
  k.head.bases.flatMap fun base => (l.base? k base).elim [] l.fields

open StaticType in
/-- A class redeclares no inherited field, and its bases do not disagree on one. -/
structure Conserves (l : Lowered) (k : RecordClass) : Prop where
  fresh : ∀ f ∈ l.inherited k, f.name ∉ Stmt.fieldNames k.body
  agree : ∀ f ∈ l.inherited k, ∀ g ∈ l.inherited k, f.name = g.name → SameField f g

end Lowered

section Fields

variable {fields : List (RecordField StaticType)} {f : RecordField StaticType}

/-- A name that comes again behind a list without repetitions is left out. -/
theorem eraseDups_snoc (names : List String) (name : String) :
    (names ++ [name]).eraseDups =
      if name ∈ names then names.eraseDups else names.eraseDups ++ [name] := by
  rw [List.eraseDups_append]
  by_cases h : name ∈ names
  · simp [List.removeAll, h]
  · simp [List.removeAll, h, List.eraseDups_cons]

/-- Putting a field into a list adds its name at the end, if it is not there. -/
theorem map_name_putField :
    (putField fields f).map (·.name) =
      if f.name ∈ fields.map (·.name) then fields.map (·.name)
      else fields.map (·.name) ++ [f.name] := by
  unfold putField
  by_cases h : f.name ∈ fields.map (·.name)
  · have hany : fields.any (·.name == f.name) = true := by simpa using h
    rw [if_pos hany, if_pos h, map_name_of_replace]
  · have hany : ¬ fields.any (·.name == f.name) = true := by simpa using h
    rw [if_neg hany, if_neg h, List.map_append, List.map_singleton]

/-- Of fields that are put together each name stands where it came first. -/
theorem map_name_foldl_putField (fs : List (RecordField StaticType)) :
    (fs.foldl putField []).map (·.name) = (fs.map (·.name)).eraseDups := by
  induction fs using List.reverseRecOn with
  | nil => rfl
  | append_singleton fs f ih =>
    have hmem : f.name ∈ (fs.map (·.name)).eraseDups ↔ f.name ∈ fs.map (·.name) :=
      List.mem_eraseDups
    rw [List.foldl_append, List.foldl_cons, List.foldl_nil, map_name_putField, ih, List.map_append,
      List.map_singleton, eraseDups_snoc]
    simp only [hmem]

/-- Names without their repetitions are different from each other. -/
theorem nodup_eraseDups (names : List String) : names.eraseDups.Nodup := by
  induction names using List.reverseRecOn with
  | nil => exact List.nodup_nil
  | append_singleton names name ih =>
    rw [eraseDups_snoc]
    split
    · exact ih
    · rename_i h
      have hnew : name ∉ names.eraseDups := fun hname => h (List.mem_eraseDups.1 hname)
      refine List.nodup_append.2 ⟨ih, by simp, fun a ha b hb heq => ?_⟩
      exact hnew (List.mem_singleton.1 hb ▸ heq ▸ ha)

/-- A field that is put together with others is there by its name. -/
theorem exists_mem_foldl_putField {fs : List (RecordField StaticType)} (hf : f ∈ fs) :
    ∃ g ∈ fs.foldl putField [], g.name = f.name := by
  have hname : f.name ∈ (fs.foldl putField []).map (·.name) := by
    rw [map_name_foldl_putField]
    exact List.mem_eraseDups.2 (List.mem_map_of_mem hf)
  simpa using hname

end Fields

/-- A name is looked up among records as the last one of them that has it. -/
theorem lookup_map_reverse (ks : List RecordClass)
    (fields : RecordClass → List (RecordField StaticType)) (name : String) :
    ((ks.map fun k => (k.head.name, fields k)).reverse).lookup name =
      (ks.reverse.find? (·.head.name == name)).map fields := by
  rw [← List.map_reverse]
  induction ks.reverse with
  | nil => rfl
  | cons k rest ih =>
    rw [List.map_cons, List.lookup_cons, List.find?_cons, BEq.comm, ih]
    cases k.head.name == name with
    | true => rfl
    | false => rfl

namespace Lowered

variable {options : Options} {source file : String} {l : Lowered} {child parent k : RecordClass}

open LowerState LowerState.Collects

/-- A module as it is read declares no records yet. -/
theorem recordClasses_of_readModule {m : Module} (h : readModule source file = .ok m) :
    Stmt.recordClasses (Stmt.allNodes m) = [] := by
  refine List.filterMap_eq_nil_iff.2 fun t ht => ?_
  have hnumber := (Source.allUnnumbered_of_parseModule (Except.mapError_eq_ok.1 h) t ht).1
  cases t with
  | classDef pos head body => exact Option.map_eq_none_iff.2 hnumber
  | simple _ _ | function _ _ _ | branch _ _ _ _ | compound _ _ => rfl

/-- The records of a module are declared in order, from nothing. -/
theorem exists_collects (h : lower source file options = .ok l) :
    ∃ s, Collects l.scope {} l.recordClasses s ∧ s.declarations = l.declarations := by
  unfold lower at h
  obtain ⟨tree, htree, h⟩ := Except.bind_eq_ok.1 h
  obtain ⟨found, -, h⟩ := Except.bind_eq_ok.1 h
  unfold lowerTree at h
  obtain ⟨⟨tree', s⟩, hrun, h⟩ := Except.bind_eq_ok.1 h
  obtain rfl := Except.ok.inj h
  exact ⟨s, Lower.collects_lowerAll hrun (recordClasses_of_readModule htree), rfl⟩

/-- In a list in order the members below one of them are those before it. -/
theorem filter_lt_eq {above behind : List RecordClass} {k : RecordClass}
    (h : (above ++ k :: behind).Pairwise (·.number < ·.number)) :
    (above ++ k :: behind).filter (·.number < k.number) = above := by
  obtain ⟨-, hbehind, habove⟩ := List.pairwise_append.1 h
  have hfirst : above.filter (·.number < k.number) = above :=
    List.filter_eq_self.2 fun j hj => by simpa using habove j hj k List.mem_cons_self
  have hrest : (k :: behind).filter (·.number < k.number) = [] := by
    refine List.filter_eq_nil_iff.2 fun j hj => ?_
    rcases List.mem_cons.1 hj with rfl | hj
    · simp
    · have hlt := List.rel_of_pairwise_cons hbehind hj
      simpa using hlt.le
  rw [List.filter_append, hfirst, hrest, List.append_nil]

/-- The fields of a record are those of its bases, base after base, and then those of its suite, put
together one after the other. -/
theorem fields_eq (h : lower source file options = .ok l) (hk : k ∈ l.recordClasses) :
    ∃ own : List (RecordField StaticType), own.map (·.name) = Stmt.fieldNames k.body ∧
      l.fields k = (l.inherited k ++ own).foldl putField [] := by
  obtain ⟨s, hcollects, hdeclarations⟩ := exists_collects h
  obtain ⟨above, behind, hks⟩ := List.append_of_mem hk
  have hpairwise := hcollects.pairwise_number
  rw [hks] at hcollects hpairwise
  obtain ⟨before, next, habove, hhere, hbehind⟩ := hcollects.exists_declaresRecord
  obtain ⟨own, hown, hfields⟩ := hhere.fields
  obtain ⟨d, hd⟩ := hhere.declared
  have hlength : next.declarations.length = before.declarations.length + 1 := by
    rw [hd, List.length_append, List.length_singleton]
  have hprefix : before.declarations <+: s.declarations :=
    (List.prefix_append _ [d]).trans (hd ▸ hbehind.declarations)
  have hrecords : before.records = (above.map fun j => (j.head.name, l.fields j)).reverse := by
    rw [habove.records_eq, List.append_nil]
    refine congrArg List.reverse (List.map_congr_left fun j hj => ?_)
    rw [fields, ← hdeclarations, fieldsOf_eq hprefix (habove.number_mem hj).2]
  have hbase (base : Expr) :
      l.scope.baseFields before.records base = (l.base? k base).elim [] l.fields := by
    rw [Scope.baseFields, hrecords, base?, hks, filter_lt_eq hpairwise]
    split
    · rfl
    · cases base.dotted? with
      | none => rfl
      | some name =>
        rw [Option.bind_some, Option.bind_some, lookup_map_reverse]
        cases above.reverse.find? (·.head.name == name) with
        | none => rfl
        | some parent => rfl
  have hnumber : k.number < next.declarations.length := by
    rw [hlength, hhere.number]
    omega
  refine ⟨own, hown, ?_⟩
  rw [fields, ← hdeclarations, fieldsOf_eq hbehind.declarations hnumber, hfields, funext hbase]
  rfl

/-- A record is declared as a type with its fields, under the name of the class. -/
theorem exists_declaration (h : lower source file options = .ok l) (hk : k ∈ l.recordClasses) :
    ∃ d place, l.declarations[k.number]? = some (.type d) ∧ d.name = k.head.name ∧
      d.type = .record (l.fields k) (some k.head.name) place := by
  obtain ⟨s, hcollects, hdeclarations⟩ := exists_collects h
  obtain ⟨above, behind, hks⟩ := List.append_of_mem hk
  rw [hks] at hcollects
  obtain ⟨before, next, -, hhere, hbehind⟩ := hcollects.exists_declaresRecord
  obtain ⟨d, place, hd, hname, htype⟩ := hhere.type
  obtain ⟨hnumber, -⟩ := List.getElem?_eq_some_iff.1 hd
  rw [← fieldsOf_eq hbehind.declarations hnumber, hdeclarations] at htype
  obtain ⟨more, hmore⟩ := hbehind.declarations
  refine ⟨d, place, ?_, hname, htype⟩
  rw [← hdeclarations, ← hmore, List.getElem?_append_left hnumber, hd]

/-- The names of the fields of a record differ. -/
theorem nodup_fields (h : lower source file options = .ok l) (hk : k ∈ l.recordClasses) :
    ((l.fields k).map (·.name)).Nodup := by
  obtain ⟨own, -, hfields⟩ := fields_eq h hk
  rw [hfields, map_name_foldl_putField]
  exact nodup_eraseDups _

/-- The names of the fields of a record are those of its bases, in order, and then those of its
suite, each where it came first. -/
theorem map_name_fields (h : lower source file options = .ok l) (hk : k ∈ l.recordClasses) :
    (l.fields k).map (·.name) =
      ((l.inherited k).map (·.name) ++ Stmt.fieldNames k.body).eraseDups := by
  obtain ⟨own, hown, hfields⟩ := fields_eq h hk
  rw [hfields, map_name_foldl_putField, List.map_append, hown]

open StaticType

/-- What a class that conserves its fields inherits is a field of it. -/
theorem Conserves.exists_sameField (h : lower source file options = .ok l)
    (hk : k ∈ l.recordClasses) (hconserves : l.Conserves k) {f : RecordField StaticType}
    (hf : f ∈ l.inherited k) : ∃ g ∈ l.fields k, SameField f g := by
  obtain ⟨own, hown, hfields⟩ := fields_eq h hk
  rw [hfields]
  obtain ⟨g, hg, hname⟩ := exists_mem_foldl_putField (List.mem_append_left own hf)
  refine ⟨g, hg, ?_⟩
  have hmem : g ∈ l.inherited k ++ own := by
    rcases mem_foldl_putField hg with hg | hg
    · exact absurd hg List.not_mem_nil
    · exact hg
  rcases List.mem_append.1 hmem with hg | hg
  · exact hconserves.agree f hf g hg hname.symm
  · refine absurd ?_ (hconserves.fresh f hf)
    rw [← hname, ← hown]
    exact List.mem_map_of_mem hg

/-- A class inherits the fields of its bases. -/
theorem mem_inherited (h : l.Inherits child parent) {f : RecordField StaticType}
    (hf : f ∈ l.fields parent) : f ∈ l.inherited child := by
  obtain ⟨-, base, hbase, hparent⟩ := h
  refine List.mem_flatMap.2 ⟨base, hbase, ?_⟩
  rwa [hparent]

/-- A base of a record is a record. -/
theorem Inherits.mem (h : l.Inherits child parent) : parent ∈ l.recordClasses := by
  obtain ⟨-, base, hbase, hparent⟩ := h
  unfold base? at hparent
  split at hparent
  · cases hparent
  · obtain ⟨name, -, hparent⟩ := Option.bind_eq_some_iff.1 hparent
    exact (List.mem_filter.1 (List.mem_reverse.1 (List.mem_of_find?_eq_some hparent))).1

open Relation

/-- Where a class and all above it conserve their fields, the class has every field of each of its
ancestors. -/
theorem exists_sameField_of_ancestor (h : lower source file options = .ok l)
    (hconserves : ∀ k, ReflTransGen l.Inherits child k → l.Conserves k)
    (hparent : TransGen l.Inherits child parent) {f : RecordField StaticType}
    (hf : f ∈ l.fields parent) : ∃ g ∈ l.fields child, SameField f g := by
  induction hparent using TransGen.head_induction_on with
  | single hinherits =>
    exact (hconserves _ .refl).exists_sameField h hinherits.1 (mem_inherited hinherits hf)
  | @head child middle hinherits hrest ih =>
    obtain ⟨g, hg, hfg⟩ := ih fun k hk => hconserves k (.head hinherits hk)
    obtain ⟨g', hg', hgg'⟩ :=
      (hconserves _ .refl).exists_sameField h hinherits.1 (mem_inherited hinherits hg)
    exact ⟨g', hg', hfg.name.trans hgg'.name, hfg.type.trans hgg'.type,
      hfg.isOptional.trans hgg'.isOptional⟩

end Lowered

end Typeward
