import Typeward.Proofs.DenotedTypes
import Typeward.Proofs.LoweringRuns
import Typeward.Proofs.Plannability

/-!
# Types that modules declare

Lowering reads hints, and puts the fields of records together from those of their bases. The names
of fields that come together this way differ, since a later field takes the place of an earlier one.
So all declarations of a module are of well-made types.
-/

namespace Typeward

open Source StaticType

/-- The fields of a well-made record: their names differ, and their types are well made. -/
structure WellMadeFields (fields : List (RecordField StaticType)) : Prop where
  nodup : (fields.map (·.name)).Nodup
  types : ∀ f ∈ fields, f.type.WellMade

/-- What lowering has found holds well-made types only. -/
structure LowerState.WellMade (s : LowerState) : Prop where
  declarations : ∀ d ∈ s.declarations, ∀ t ∈ d.types, t.WellMade
  records : ∀ r ∈ s.records, WellMadeFields r.2

section Fields

variable {fields : List (RecordField StaticType)} {f : RecordField StaticType}

/-- No fields are those of an empty record. -/
theorem wellMadeFields_nil : WellMadeFields [] := ⟨List.nodup_nil, nofun⟩

/-- A record of such fields is well made. -/
theorem WellMadeFields.record (h : WellMadeFields fields) {name : Option String}
    {location : Option Location} : (StaticType.record fields name location).WellMade := by
  refine .node h.nodup fun t ht => ?_
  obtain ⟨f, hf, rfl⟩ := List.mem_map.1 ht
  exact h.types f hf

/-- A field that takes the place of another one leaves the names as they are. -/
theorem map_name_of_replace :
    (fields.map fun old => if old.name == f.name then f else old).map (·.name) =
      fields.map (·.name) := by
  rw [List.map_map]
  refine List.map_congr_left fun old _ => ?_
  by_cases h : old.name = f.name
  · simp [h]
  · simp [h]

/-- Fields stay those of a well-made record if one of a well-made type is put into them. -/
theorem WellMadeFields.put (h : WellMadeFields fields) (hf : f.type.WellMade) :
    WellMadeFields (putField fields f) := by
  unfold putField
  split
  · refine ⟨by rw [map_name_of_replace]; exact h.nodup, fun g hg => ?_⟩
    obtain ⟨old, hold, rfl⟩ := List.mem_map.1 hg
    split
    · exact hf
    · exact h.types old hold
  · rename_i hnew
    have hname : f.name ∉ fields.map (·.name) := by simpa using hnew
    constructor
    · rw [List.map_append]
      exact List.nodup_append.2 ⟨h.nodup, by simp, by simpa using hname⟩
    · intro g hg
      rcases List.mem_append.1 hg with hg | hg
      · exact h.types g hg
      · rwa [List.mem_singleton.1 hg]

/-- Fields that are put together one after the other are those of a well-made record. -/
theorem WellMadeFields.foldl (h : WellMadeFields fields) {more : List (RecordField StaticType)}
    (hmore : ∀ f ∈ more, f.type.WellMade) : WellMadeFields (more.foldl putField fields) := by
  induction more generalizing fields with
  | nil => exact h
  | cons f rest ih =>
    have hput := h.put (hmore f List.mem_cons_self)
    exact ih hput fun g hg => hmore g (List.mem_cons_of_mem _ hg)

/-- The fields that a class inherits from well-made records are of well-made types. -/
theorem wellMade_of_inheritedFields {c : LowerContext}
    {records : List (String × List (RecordField StaticType))} {bases : List Expr}
    (hrecords : ∀ r ∈ records, WellMadeFields r.2)
    (h : inheritedFields c records bases = some fields) : ∀ f ∈ fields, f.type.WellMade := by
  unfold inheritedFields at h
  dsimp only at h
  split at h
  · cases h
  · obtain rfl := Option.some.inj h
    intro f hf
    obtain ⟨found, hfound, hf⟩ := List.mem_flatten.1 hf
    obtain ⟨base, -, hbase⟩ := List.mem_filterMap.1 hfound
    split at hbase
    · obtain rfl := Option.some.inj hbase
      exact absurd hf List.not_mem_nil
    · obtain ⟨name, -, hname⟩ := Option.bind_eq_some_iff.1 hbase
      exact (hrecords _ (mem_of_lookup hname)).types f hf

end Fields

namespace Lower

open Typeward.Action

variable {α β : Type} {P : α → Prop} {Q : β → Prop}

/-- From what holds well-made types only, a lowering comes to what does, and its answer is as
told. -/
def Upholds (x : Lower α) (P : α → Prop) : Prop :=
  ∀ ⦃s a s'⦄, s.WellMade → x s = .ok (a, s') → s'.WellMade ∧ P a

/-- A lowering that finds nothing upholds its answer. -/
theorem upholds_pure {a : α} (h : P a) : Upholds (pure a) P := by
  intro s b s' hs hb
  obtain ⟨rfl, rfl⟩ := pure_eq_ok.1 hb
  exact ⟨hs, h⟩

/-- One lowering after another upholds what the second one does, given the answer of the first. -/
theorem Upholds.bind {x : Lower α} {f : α → Lower β} (hx : Upholds x P)
    (hf : ∀ a, P a → Upholds (f a) Q) : Upholds (x >>= f) Q := by
  intro s b s' hs h
  obtain ⟨a, s₁, ha, hb⟩ := bind_eq_ok.1 h
  obtain ⟨hs₁, hP⟩ := hx hs ha
  exact hf a hP hs₁ hb

/-- A lowering of which nothing more is told. -/
abbrev Sustains (x : Lower α) : Prop := Upholds x fun _ => True

/-- As `Upholds.bind`, where the first answer does not matter. -/
theorem Upholds.after {x : Lower α} {f : α → Lower β} (hx : Upholds x P)
    (hf : ∀ a, Upholds (f a) Q) : Upholds (x >>= f) Q :=
  hx.bind fun a _ => hf a

/-- What is upheld for the members of a list is upheld for all answers. -/
theorem upholds_mapM {f : α → Lower β} {l : List α} (hf : ∀ a ∈ l, Upholds (f a) Q) :
    Upholds (l.mapM f) fun bs => ∀ b ∈ bs, Q b := by
  induction l with
  | nil => exact upholds_pure nofun
  | cons a rest ih =>
    rw [List.mapM_cons]
    refine (hf a List.mem_cons_self).bind fun b hb => ?_
    refine (ih fun a ha => hf a (List.mem_cons_of_mem _ ha)).bind fun bs hbs => ?_
    exact upholds_pure (List.forall_mem_cons.2 ⟨hb, hbs⟩)

/-- A lowering that leaves what was found as it is sustains it. -/
theorem sustains_of_eq {x : Lower α} (h : ∀ ⦃s a s'⦄, x s = .ok (a, s') → s' = s) :
    Sustains x := by
  intro s a s' hs hx
  rw [h hx]
  exact ⟨hs, trivial⟩

/-- A hint is lowered to a well-made type. -/
theorem upholds_lowerHint (c : LowerContext) (hint : Expr) :
    Upholds (lowerHint c hint) StaticType.WellMade := by
  intro s t s' hs h
  obtain ⟨ht, rfl⟩ := lowerHint_eq_ok.1 h
  exact ⟨hs, c.hints.wellMade_of_denote ht⟩

/-- A declaration of well-made types is added. -/
theorem sustains_declare {d : Declaration} (h : ∀ t ∈ d.types, t.WellMade) :
    Sustains (declare d) := by
  intro s n s' hs hn
  obtain ⟨-, rfl⟩ := declare_eq_ok.1 hn
  refine ⟨⟨fun d' hd' => ?_, hs.records⟩, trivial⟩
  rcases List.mem_append.1 hd' with hd' | hd'
  · exact hs.declarations d' hd'
  · rwa [List.mem_singleton.1 hd']

/-- A fault answers nothing. -/
theorem upholds_lowerFault (c : LowerContext) (e : Expr) (construct : String) :
    Upholds (lowerFault c e construct : Lower α) P := by
  intro s a s' hs h
  simp [lowerFault, HintContext.unsupported] at h

/-- A computation without a state sustains what was found. -/
theorem sustains_ofExcept (x : Except Failure α) :
    Sustains (fun s => do return (← x, s) : Lower α) := by
  refine sustains_of_eq fun s a s' h => ?_
  obtain ⟨b, -, hb⟩ := Except.bind_eq_ok.1 h
  simp only [pure, Except.pure, Except.ok.injEq, Prod.mk.injEq] at hb
  exact hb.2.symm

/-- The casts in an expression are to well-made types. -/
theorem sustains_lowerExpr (c : LowerContext) (e : Expr) : Sustains (lowerExpr c e) := by
  fun_induction lowerExpr c e with
  | case1 pos func type value decl h ih =>
    refine (upholds_lowerHint c type).bind fun lowered hlowered => ?_
    refine (sustains_ofExcept _).after fun label => ?_
    have hcast : Sustains (declare (.cast ⟨lowered, label, c.location pos⟩)) :=
      sustains_declare (by simpa [Declaration.types] using hlowered)
    exact hcast.after fun number => ih.after fun value => upholds_pure trivial
  | case2 e h hne => exact upholds_lowerFault c _ _
  | case3 e h ih =>
    have hparts (c : { c // c ∈ e.children }) : Sustains (lowerExpr _ c.1) :=
      ih c.1 (Expr.sizeOf_lt_of_mem_children c.2)
    exact (upholds_mapM fun c _ => hparts c).after fun es => upholds_pure trivial

/-- The casts in a value are to well-made types. -/
theorem sustains_lowerIn [Slots α] (c : LowerContext) (a : α) : Sustains (lowerIn c a) :=
  (upholds_mapM fun e _ => sustains_lowerExpr c e).after fun _ => upholds_pure trivial

/-- The casts in initial values are to well-made types. -/
theorem sustains_lowerInitials (c : LowerContext) (params : Parameters Expr) :
    Sustains (lowerInitials c params) := by
  refine (sustains_lowerIn c _).after fun positionalOnly => ?_
  refine (sustains_lowerIn c _).after fun positional => ?_
  exact (sustains_lowerIn c _).after fun keywordOnly => upholds_pure trivial

/-- The types of parameters are well made. -/
theorem upholds_lowerParameters (c : LowerContext) (params : Parameters Expr) :
    Upholds (lowerParameters c params) fun typed => ∀ p ∈ typed, ∀ t ∈ p.type, t.WellMade := by
  refine upholds_mapM fun q _ => ?_
  obtain ⟨kind, p⟩ := q
  refine Upholds.bind (P := fun type => ∀ t ∈ type, t.WellMade) ?_ fun _ h => upholds_pure h
  cases p.hint with
  | none => exact upholds_pure nofun
  | some hint =>
    refine (upholds_lowerHint c hint).bind fun t ht => upholds_pure fun u hu => ?_
    rwa [← Option.mem_some.1 hu]

/-- The type of a field is well made. -/
theorem upholds_lowerField (c : LowerContext) (total : Bool) (pos : Pos) (name : String)
    (hint : Expr) :
    Upholds (lowerField c total pos name hint) fun f => f.type.WellMade :=
  (upholds_lowerHint c _).bind fun _ ht => upholds_pure ht

/-- The fields of a record are those of a well-made one if the inherited ones are. -/
theorem upholds_lowerFields (c : LowerContext) (total : Bool)
    {fields : List (RecordField StaticType)} (hfields : WellMadeFields fields)
    (body : List Stmt) : Upholds (lowerFields c total fields body) WellMadeFields := by
  fun_induction lowerFields c total fields body with
  | case1 fields => exact upholds_pure hfields
  | case2 fields pos p id hint value bare decl rest ih =>
    refine (upholds_lowerField c total pos id hint).bind fun f hf => ?_
    exact ih f (hfields.put hf)
  | case3 fields t rest hne ih => exact ih hfields

/-- The record that a class declares is well made if it inherits fields of well-made types. -/
theorem sustains_lowerRecord (c : LowerContext) (pos : Pos) (head : ClassHead) (body : List Stmt)
    {inherited : List (RecordField StaticType)} (hinherited : ∀ f ∈ inherited, f.type.WellMade) :
    Sustains (lowerRecord c pos head body inherited) := by
  have hstart := wellMadeFields_nil.foldl hinherited
  refine (upholds_lowerFields c _ hstart body).bind fun fields hfields => ?_
  have hmodify : Sustains (modify fun s =>
      { s with records := (head.name, fields) :: s.records }) := by
    intro s a s' hs h
    obtain ⟨-, rfl⟩ := by simpa [modify, modifyGet, MonadStateOf.modifyGet, StateT.modifyGet, pure,
      Except.pure] using h
    exact ⟨⟨hs.declarations, List.forall_mem_cons.2 ⟨hfields, hs.records⟩⟩, trivial⟩
  refine hmodify.after fun _ => sustains_declare ?_
  simpa [Declaration.types] using hfields.record

/-- A simple statement declares well-made types. -/
theorem sustains_lowerSimple (c : LowerContext) (pos : Pos) (t : Simple) :
    Sustains (lowerSimple c pos t) := by
  have hdeclare {d : Declaration} {f : Nat → Simple} {type : StaticType} (htype : type.WellMade)
      (hd : d.types = [type]) : Sustains (do return f (← declare d)) := by
    refine Upholds.after (sustains_declare ?_) fun _ => upholds_pure trivial
    simpa [hd] using htype
  unfold lowerSimple
  split
  · split
    · exact (upholds_lowerHint c _).bind fun type htype => hdeclare htype rfl
    · exact sustains_lowerIn c _
  · split
    · split
      · exact (upholds_lowerHint c _).bind fun type htype => hdeclare htype rfl
      · exact upholds_lowerFault c _ _
    · exact sustains_lowerIn c _
  · exact sustains_lowerIn c t

mutual

/-- A statement declares well-made types. -/
theorem sustains_lowerStmt (c : LowerContext) : (t : Stmt) → Sustains (lowerStmt c t)
  | .simple pos t => by
    rw [lowerStmt]
    exact (sustains_lowerSimple c pos t).after fun t => upholds_pure trivial
  | .function pos head body => by
    rw [lowerStmt]
    refine (sustains_lowerIn c _).after fun decorators => ?_
    refine (sustains_lowerInitials c _).after fun params => ?_
    refine (upholds_lowerParameters c _).bind fun typed htyped => ?_
    refine Upholds.after (sustains_declare fun t ht => ?_) fun number => ?_
    · obtain ⟨p, hp, ht⟩ := List.mem_filterMap.1 ht
      exact htyped p hp t ht
    · exact (sustains_lowerAll c.inside body).after fun body => upholds_pure trivial
  | .classDef pos head body => by
    rw [lowerStmt]
    have hget : Upholds (get : Lower LowerState) LowerState.WellMade := by
      intro s a s' hs h
      obtain ⟨rfl, rfl⟩ := pure_eq_ok.1 h
      exact ⟨hs, hs⟩
    refine hget.bind fun s hs => ?_
    split
    · rename_i inherited hinherited
      have hfields := wellMade_of_inheritedFields hs.records hinherited
      exact (sustains_lowerRecord c pos head body hfields).after fun _ => upholds_pure trivial
    · refine (sustains_lowerIn c.inside _).after fun bases => ?_
      refine (sustains_lowerIn c.inside _).after fun keywords => ?_
      refine (sustains_lowerAll c.inside body).after fun body => ?_
      exact (sustains_lowerIn c.inside _).after fun decorators => upholds_pure trivial
  | .branch pos test body orelse => by
    rw [lowerStmt]
    split
    · exact (sustains_lowerAll c orelse).after fun orelse => upholds_pure trivial
    · refine (sustains_lowerIn c test).after fun test => ?_
      refine (sustains_lowerAll c body).after fun body => ?_
      exact (sustains_lowerAll c orelse).after fun orelse => upholds_pure trivial
  | .compound pos clauses => by
    rw [lowerStmt]
    exact (sustains_lowerClauses c clauses).after fun clauses => upholds_pure trivial

/-- Statements declare well-made types. -/
theorem sustains_lowerAll (c : LowerContext) : (ts : List Stmt) → Sustains (lowerAll c ts)
  | [] => by
    rw [lowerAll]
    exact upholds_pure trivial
  | t :: rest => by
    rw [lowerAll]
    refine (sustains_lowerStmt c t).after fun first => ?_
    exact (sustains_lowerAll c rest).after fun rest => upholds_pure trivial

/-- Clauses declare well-made types. -/
theorem sustains_lowerClauses (c : LowerContext) :
    (clauses : List (Clause Stmt)) → Sustains (lowerClauses c clauses)
  | [] => by
    rw [lowerClauses]
    exact upholds_pure trivial
  | ⟨head, body⟩ :: rest => by
    rw [lowerClauses]
    refine (sustains_lowerIn c head).after fun head => ?_
    refine (sustains_lowerAll c body).after fun body => ?_
    exact (sustains_lowerClauses c rest).after fun rest => upholds_pure trivial

end

end Lower

/-- A module declares well-made types only. -/
theorem wellMade_of_lower {source file : String} {options : Options} {lowered : Lowered}
    (h : lower source file options = .ok lowered) :
    ∀ d ∈ lowered.declarations, ∀ t ∈ d.types, t.WellMade := by
  unfold lower at h
  obtain ⟨tree, -, h⟩ := Except.bind_eq_ok.1 h
  obtain ⟨found, -, h⟩ := Except.bind_eq_ok.1 h
  unfold lowerTree at h
  obtain ⟨⟨tree', state⟩, hrun, h⟩ := Except.bind_eq_ok.1 h
  obtain rfl := Except.ok.inj h
  have hstart : LowerState.WellMade {} := ⟨nofun, nofun⟩
  exact (Lower.sustains_lowerAll _ tree hstart hrun).1.declarations

end Typeward
