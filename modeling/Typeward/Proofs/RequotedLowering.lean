import Typeward.Proofs.RequotedModules
import Typeward.Proofs.SettledTrees

/-!
# Lowering modules with types written in strings

Two modules of which one is the other with types written in strings are lowered in step: a step fails
for both, or comes to states that are the same but for places and the labels of casts.
-/

namespace Typeward

open Source Slots StaticType HintContext

/-- Parameters with types are the same but for places. -/
structure TypedParameter.Same (p p' : TypedParameter) : Prop where
  name : p.name = p'.name
  type : Option.Rel SameType p.type p'.type
  kind : p.kind = p'.kind

/-- Declarations are the same but for places and the labels of casts. -/
inductive Declaration.Same : Declaration → Declaration → Prop
  | type {d d'} (hname : d.name = d'.name) (htype : d.type.SameType d'.type)
      (hrecursive : d.isRecursive = d'.isRecursive) (htop : d.isTopLevel = d'.isTopLevel) :
      Declaration.Same (.type d) (.type d')
  | function {d d'} (hname : d.name = d'.name)
      (hparams : List.Forall₂ TypedParameter.Same d.params d'.params) :
      Declaration.Same (.function d) (.function d')
  | cast {d d'} (htype : d.type.SameType d'.type) : Declaration.Same (.cast d) (.cast d')
  | reify {d d'} (htarget : d.target = d'.target) (htype : d.type.SameType d'.type) :
      Declaration.Same (.reify d) (.reify d')

/-- Records of one name have the same fields. -/
structure SameRecord (r r' : String × List (RecordField StaticType)) : Prop where
  name : r.1 = r'.1
  fields : List.Forall₂ SameField r.2 r'.2

/-- What has been found is the same but for places and the labels of casts. -/
structure LowerState.Same (s s' : LowerState) : Prop where
  declarations : List.Forall₂ Declaration.Same s.declarations s'.declarations
  records : List.Forall₂ SameRecord s.records s'.records

/-- Modules are lowered against scopes that are alike, and definitions are around a place alike. -/
structure LowerContext.Alike (c c' : LowerContext) : Prop where
  scope : c.scope.Alike c'.scope
  depth : c.depth = c'.depth

/-- So they are inside of a definition. -/
theorem LowerContext.Alike.inside {c c' : LowerContext} (h : c.Alike c') :
    c.inside.Alike c'.inside :=
  ⟨h.scope, congrArg (· + 1) h.depth⟩

/-- Fields that are the same are put into lists that are. -/
theorem forall₂_putField {fields fields' : List (RecordField StaticType)}
    {f f' : RecordField StaticType} (h : List.Forall₂ SameField fields fields')
    (hf : SameField f f') : List.Forall₂ SameField (putField fields f) (putField fields' f') := by
  have hany : fields.any (·.name == f.name) = fields'.any (·.name == f'.name) := by
    rw [hf.name]
    induction h with
    | nil => rfl
    | cons hfirst _ ih => rw [List.any_cons, List.any_cons, hfirst.name, ih]
  unfold putField
  rw [hany]
  split
  · refine List.forall₂_map_left_iff.2 (List.forall₂_map_right_iff.2 (h.imp fun old old' hold => ?_))
    rw [hold.name, hf.name]
    split
    · exact hf
    · exact hold
  · exact List.rel_append h (.cons hf .nil)

/-- Fields that are the same are put into lists one after the other. -/
theorem forall₂_foldl_putField {more more' fields fields' : List (RecordField StaticType)}
    (hmore : List.Forall₂ SameField more more') (h : List.Forall₂ SameField fields fields') :
    List.Forall₂ SameField (more.foldl putField fields) (more'.foldl putField fields') := by
  induction hmore generalizing fields fields' with
  | nil => exact h
  | cons hfirst _ ih => exact ih (forall₂_putField h hfirst)

/-- Records that are the same are looked up under the same names. -/
theorem rel_lookup {records records' : List (String × List (RecordField StaticType))}
    (h : List.Forall₂ SameRecord records records') (name : String) :
    Option.Rel (List.Forall₂ SameField) (records.lookup name) (records'.lookup name) := by
  induction h with
  | nil => exact .none
  | @cons r r' rest rest' hfirst _ ih =>
    obtain ⟨name₁, fields⟩ := r
    obtain ⟨name₂, fields'⟩ := r'
    obtain rfl : name₁ = name₂ := hfirst.name
    rw [List.lookup_cons, List.lookup_cons]
    cases name == name₁ with
    | true => exact .some hfirst.fields
    | false => exact ih

/-- Classes inherit the same fields, or none is a record. -/
theorem rel_inheritedFields {c c' : LowerContext} (hscope : c.scope.Alike c'.scope) {u : Scope}
    {records records' : List (String × List (RecordField StaticType))} {bases bases' : List Expr}
    (hrecords : List.Forall₂ SameRecord records records')
    (hbases : List.Forall₂ (Expr.CodeRequoted u) bases bases') :
    Option.Rel (List.Forall₂ SameField) (inheritedFields c records bases)
      (inheritedFields c' records' bases') := by
  have hbase (base base' : Expr) (h : base.CodeRequoted u base') :
      Option.Rel (List.Forall₂ SameField)
        (if c.scope.canonical base == some "TypedDict" then some []
          else base.dotted?.bind fun name => records.lookup name)
        (if c'.scope.canonical base' == some "TypedDict" then some []
          else base'.dotted?.bind fun name => records'.lookup name) := by
    rw [hscope.canonical_eq h.designator?_eq.2, h.designator?_eq.1]
    split
    · exact .some .nil
    · cases base'.dotted? with
      | none => exact .none
      | some name => exact rel_lookup hrecords name
  have hflatten (found found' : List (List (RecordField StaticType)))
      (h : List.Forall₂ (List.Forall₂ SameField) found found') :
      Option.Rel (List.Forall₂ SameField) (if found.isEmpty then none else some found.flatten)
        (if found'.isEmpty then none else some found'.flatten) := by
    cases h with
    | nil => exact .none
    | cons h hrest => exact .some (List.rel_flatten (.cons h hrest))
  exact hflatten _ _ (List.rel_filterMap hbase hbases)

/-- A class is known as a record, or as none, whichever of the modules it stands in. -/
theorem inheritedFields_of_known {c c' : LowerContext} (hscope : c.scope.Alike c'.scope)
    {s s' : LowerState} (hs : s.Same s') {u : Scope} {bases bases' : List Expr}
    (hbases : List.Forall₂ (Expr.CodeRequoted u) bases bases') :
    if isKnownRecord c (s.records.map (·.1)) bases then
      ∃ inherited inherited', inheritedFields c s.records bases = some inherited ∧
        inheritedFields c' s'.records bases' = some inherited' ∧
        List.Forall₂ SameField inherited inherited'
    else inheritedFields c s.records bases = none ∧ inheritedFields c' s'.records bases' = none := by
  have hinherited := rel_inheritedFields hscope hs.records hbases
  rw [← Lower.isSome_inheritedFields]
  generalize inheritedFields c s.records bases = inherited at hinherited ⊢
  generalize inheritedFields c' s'.records bases' = inherited' at hinherited ⊢
  cases hinherited with
  | none => exact ⟨rfl, rfl⟩
  | some hinherited => exact ⟨_, _, rfl, rfl, hinherited⟩

namespace Lower

open Typeward.Action

variable {α β γ δ : Type} {R : α → β → Prop} {Q : γ → δ → Prop} {known known' known'' : List String}

/-- From states that are the same, two lowerings both fail, or come to states that are the same with
answers that are related. The names of the records known before them and behind them are followed. -/
def Together (known known' : List String) (R : α → β → Prop) (x : Lower α) (y : Lower β) : Prop :=
  ∀ ⦃s s'⦄, s.Same s' → s.records.map (·.1) = known →
    Agree (fun p q => R p.1 q.1 ∧ p.2.Same q.2 ∧ p.2.records.map (·.1) = known') (x s) (y s')

/-- Lowerings in step of whose answers nothing is told. -/
abbrev InStep (known known' : List String) (x : Lower α) (y : Lower β) : Prop :=
  Together known known' (fun _ _ => True) x y

/-- Lowerings that find nothing answer what is related. -/
theorem together_pure {a : α} {b : β} (h : R a b) : Together known known R (pure a) (pure b) :=
  fun _ _ hs hknown => .ok ⟨h, hs, hknown⟩

/-- Lowerings one after the other go in step if both do. -/
theorem Together.bind {x : Lower α} {y : Lower β} {f : α → Lower γ} {g : β → Lower δ}
    (hxy : Together known known' R x y) (hfg : ∀ a b, R a b → Together known' known'' Q (f a) (g b)) :
    Together known known'' Q (x >>= f) (y >>= g) := by
  intro s s' hs hknown
  exact (hxy hs hknown).bind fun p q h => hfg p.1 q.1 h.1 h.2.1 h.2.2

/-- Lowerings that fail go in step. -/
theorem together_of_error {x : Lower α} {y : Lower β} (hx : ∀ s, ∃ failure, x s = .error failure)
    (hy : ∀ s, ∃ failure, y s = .error failure) : Together known known' R x y := by
  intro s s' _ _
  obtain ⟨failure, hfailure⟩ := hx s
  obtain ⟨failure', hfailure'⟩ := hy s'
  rw [hfailure, hfailure']
  exact .error failure failure'

/-- The members of two lists are lowered in step if they are one by one. -/
theorem together_mapM {ι κ : Type} {f : ι → Lower α} {g : κ → Lower β} {as : List ι} {bs : List κ}
    (h : List.Forall₂ (fun a b => Together known known R (f a) (g b)) as bs) :
    Together known known (List.Forall₂ R) (as.mapM f) (bs.mapM g) := by
  induction h with
  | nil => exact together_pure .nil
  | cons hfirst _ ih =>
    rw [List.mapM_cons, List.mapM_cons]
    exact hfirst.bind fun a b hab => ih.bind fun as bs hrest => together_pure (.cons hab hrest)

/-- What depends on the state goes in step if it does for states that are the same. -/
theorem together_get_bind {f : LowerState → Lower α} {g : LowerState → Lower β}
    (h : ∀ s s', s.Same s' → s.records.map (·.1) = known → Together known known' R (f s) (g s')) :
    Together known known' R (get >>= f) (get >>= g) :=
  fun s s' hs hknown => h s s' hs hknown hs hknown

/-- Declarations that are the same are added in step. -/
theorem inStep_declare {d d' : Declaration} (h : d.Same d') :
    InStep known known (declare d) (declare d') :=
  fun _ _ hs hknown => .ok ⟨trivial, ⟨List.rel_append hs.declarations (.cons h .nil), hs.records⟩,
    hknown⟩

section Lowerings

variable {c c' : LowerContext}

/-- Faults about constructs go in step. -/
theorem together_lowerFault {e e' : Expr} {construct construct' : String} :
    Together known known' R (lowerFault c e construct) (lowerFault c' e' construct') :=
  together_of_error (fun _ => ⟨_, rfl⟩) fun _ => ⟨_, rfl⟩

/-- Hints of which one is the other with types in it written in strings are read in step. -/
theorem together_lowerHint (hc : c.Alike c') {hint hint' : Expr}
    (h : hint.Requoted c.scope hint') :
    Together known known SameType (lowerHint c hint) (lowerHint c' hint') :=
  fun _ _ hs hknown => (agree_denote_of_requoted hc.scope h).bind fun _ _ ht => .ok ⟨ht, hs, hknown⟩

/-- Sources that can be shown alike are shown in step. -/
theorem inStep_text {e e' : Expr} (h : ShownAlike e e') :
    InStep known known (fun s => do return (← HintContext.text e, s) : Lower String)
      (fun s => do return (← HintContext.text e', s) : Lower String) := by
  intro s s' hs hknown
  cases htext : HintContext.text e with
  | ok label =>
    obtain ⟨label', htext'⟩ := h.1 ⟨label, htext⟩
    rw [htext']
    exact .ok ⟨trivial, hs, hknown⟩
  | error failure =>
    cases htext' : HintContext.text e' with
    | ok label' =>
      obtain ⟨label, hlabel⟩ := h.2 ⟨label', htext'⟩
      cases htext.symm.trans hlabel
    | error failure' => exact .error _ _

/-- A cast is lowered as its type and its value are. -/
theorem lowerExpr_cast {pos : Pos} {func type value : Expr} {decl : Option Nat}
    (hcast : c.scope.canonical func = some "cast") :
    lowerExpr c (.call pos func [type, value] [] decl) = do
      let lowered ← lowerHint c type
      let label ← fun s => return (← HintContext.text value, s)
      let number ← declare (.cast ⟨lowered, label, c.location pos⟩)
      let value ← lowerExpr c value
      return .call pos func [type, value] [] (some number) := by
  have hcalls : callsSpecial c "cast" (.call pos func [type, value] [] decl) = true := by
    simp [callsSpecial, hcast]
  rw [lowerExpr.eq_def, hcalls, if_pos rfl]

/-- A cast with other arguments than it takes is a fault. -/
theorem lowerExpr_malformed {e : Expr} (hcalls : callsSpecial c "cast" e = true)
    (hcast : ¬ e.IsCast c.scope) :
    lowerExpr c e = lowerFault c e "cast() takes a type and a value" := by
  rw [lowerExpr.eq_def, hcalls, if_pos rfl]
  split
  · rename_i pos func type value decl
    exact absurd ⟨pos, func, type, value, decl, rfl, by simpa [callsSpecial] using hcalls⟩ hcast
  · rfl

/-- Any other expression is lowered as its parts are. -/
theorem lowerExpr_parts {e : Expr} (hcalls : callsSpecial c "cast" e = false) :
    lowerExpr c e = do return e.withChildren (← e.children.mapM (lowerExpr c)) := by
  rw [lowerExpr.eq_def, hcalls, if_neg Bool.false_ne_true, Expr.mapChildren_eq]

/-- Code that refers to the same things calls special forms alike. -/
theorem callsSpecial_eq (hc : c.Alike c') {u : Scope} {e e' : Expr} (h : e.CodeRequoted u e')
    (special : String) : callsSpecial c special e = callsSpecial c' special e' := by
  have hcallee (c : LowerContext) (e : Expr) : callsSpecial c special e =
      e.callee?.any fun func => c.scope.canonical func == some special := by
    cases e <;> rfl
  have hrel := h.rel_callee?
  rw [hcallee, hcallee]
  generalize e.callee? = callee at hrel ⊢
  generalize e'.callee? = callee' at hrel ⊢
  cases hrel with
  | none => rfl
  | some hfunc => rw [Option.any_some, Option.any_some, hc.scope.canonical_eq hfunc]

/-- What becomes a cast when types in it are taken out of strings is one before. -/
theorem isCast_of_requoted {s s' : Scope} (hscope : s.Alike s') {e e' : Expr}
    (h : e.CodeRequoted s e') (hcast : e'.IsCast s') : e.IsCast s := by
  obtain ⟨pos', func', type', value', decl', rfl, hcanonical⟩ := hcast
  obtain ⟨pos, func, args, keywords, decl, rfl, hfunc, hargs, hkeywords⟩ := h.exists_call
  obtain ⟨type, value, rfl⟩ := List.length_eq_two.1 hargs
  obtain rfl := List.length_eq_zero_iff.1 hkeywords
  exact ⟨pos, func, type, value, decl, rfl, (hscope.canonical_eq hfunc).trans hcanonical⟩

/-- Code of which one is the other with types written in strings is lowered in step. -/
theorem inStep_lowerExpr (hc : c.Alike c') {e e' : Expr} (h : e.CodeRequoted c.scope e') :
    InStep known known (lowerExpr c e) (lowerExpr c' e') := by
  refine h.induct (Q := fun e e' => InStep known known (lowerExpr c e) (lowerExpr c' e')) ?cast ?parts
  case cast =>
    intro pos pos' func func' type type' value value' decl decl' hcast hfunc htype hshown hvalue
    have hcast' : c'.scope.canonical func' = some "cast" :=
      (hc.scope.canonical_of_sameCode hfunc).symm.trans hcast
    rw [lowerExpr_cast hcast, lowerExpr_cast hcast']
    refine (together_lowerHint hc htype).bind fun t t' ht => ?_
    refine (inStep_text hshown).bind fun label label' _ => ?_
    refine (inStep_declare (.cast ht)).bind fun number number' _ => ?_
    exact hvalue.bind fun value value' _ => together_pure trivial
  case parts =>
    intro e e' h hcast hshell hparts
    have hcalls := callsSpecial_eq hc h "cast"
    cases hspecial : callsSpecial c "cast" e with
    | true =>
      have hcast' := mt (isCast_of_requoted hc.scope h) hcast
      rw [lowerExpr_malformed hspecial hcast, lowerExpr_malformed (hcalls.symm.trans hspecial) hcast']
      exact together_lowerFault
    | false =>
      rw [lowerExpr_parts hspecial, lowerExpr_parts (hcalls.symm.trans hspecial)]
      exact (together_mapM hparts).bind fun es es' _ => together_pure trivial

/-- The code in values is lowered in step. -/
theorem inStep_lowerIn [Slots α] [Slots β] (hc : c.Alike c') {a : α} {b : β}
    (h : List.Forall₂ (Expr.CodeRequoted c.scope) (slots a) (slots b)) :
    InStep known known (lowerIn c a) (lowerIn c' b) :=
  (together_mapM (h.imp fun _ _ he => inStep_lowerExpr hc he)).bind fun _ _ _ => together_pure trivial

/-- Optional expressions that are related hold expressions that are. -/
theorem forall₂_slots_option {P : Expr → Expr → Prop} {a b : Option Expr} (h : Option.Rel P a b) :
    List.Forall₂ P (slots a) (slots b) := by
  cases h with
  | none => exact .nil
  | some h => exact .cons h .nil

/-- Members that are related hold expressions that are. -/
theorem forall₂_slots_list [Slots α] [Slots β] {P : Expr → Expr → Prop} {as : List α} {bs : List β}
    (hR : ∀ a b, R a b → List.Forall₂ P (slots a) (slots b)) (h : List.Forall₂ R as bs) :
    List.Forall₂ P (slots as) (slots bs) := by
  induction h with
  | nil => exact .nil
  | cons hfirst _ ih => exact List.rel_append (hR _ _ hfirst) ih

/-- Expressions that are related one by one hold expressions that are. -/
theorem forall₂_slots_exprs {P : Expr → Expr → Prop} {es es' : List Expr}
    (h : List.Forall₂ P es es') : List.Forall₂ P (slots es) (slots es') :=
  forall₂_slots_list (fun _ _ he => .cons he .nil) h

/-- The initial values of parameters are lowered in step. -/
theorem inStep_lowerInitials (hc : c.Alike c') {ps ps' : Parameters Expr}
    (h : ps.Requoted c.scope ps') :
    InStep known known (lowerInitials c ps) (lowerInitials c' ps') := by
  have hin {qs qs' : List (Parameter Expr)} (h : List.Forall₂ (Parameter.Requoted c.scope) qs qs') :
      InStep known known (lowerIn c qs) (lowerIn c' qs') :=
    inStep_lowerIn hc (forall₂_slots_list (fun p p' hp => forall₂_slots_option hp.initial) h)
  refine (hin h.positionalOnly).bind fun only only' _ => ?_
  refine (hin h.positional).bind fun positional positional' _ => ?_
  exact (hin h.keywordOnly).bind fun keywordOnly keywordOnly' _ => together_pure trivial

/-- Parameters in declared order are of the same kinds. -/
theorem forall₂_toList {s : Scope} {ps ps' : Parameters Expr} (h : ps.Requoted s ps') :
    List.Forall₂ (fun q q' => q.1 = q'.1 ∧ q.2.Requoted s q'.2) ps.toList ps'.toList := by
  have hkind (kind : ParameterKind) {qs qs' : List (Parameter Expr)}
      (h : List.Forall₂ (Parameter.Requoted s) qs qs') :
      List.Forall₂ (fun q q' => q.1 = q'.1 ∧ q.2.Requoted s q'.2) (qs.map (kind, ·))
        (qs'.map (kind, ·)) :=
    List.forall₂_map_left_iff.2 (List.forall₂_map_right_iff.2 (h.imp fun p p' hp => ⟨rfl, hp⟩))
  have hoption {q q' : Option (Parameter Expr)} (h : Option.Rel (Parameter.Requoted s) q q') :
      List.Forall₂ (Parameter.Requoted s) q.toList q'.toList := by
    cases h with
    | none => exact .nil
    | some h => exact .cons h .nil
  exact List.rel_append (List.rel_append (List.rel_append (List.rel_append
    (hkind _ h.positionalOnly) (hkind _ h.positional)) (hkind _ (hoption h.variadic)))
    (hkind _ h.keywordOnly)) (hkind _ (hoption h.keywordVariadic))

/-- The hints of parameters are read in step. -/
theorem together_lowerParameters (hc : c.Alike c') {ps ps' : Parameters Expr}
    (h : ps.Requoted c.scope ps') :
    Together known known (List.Forall₂ TypedParameter.Same) (lowerParameters c ps)
      (lowerParameters c' ps') := by
  refine together_mapM ((forall₂_toList h).imp ?_)
  rintro ⟨kind, p⟩ ⟨kind', p'⟩ ⟨rfl, hp⟩
  have htype : Together known known (Option.Rel SameType) (p.hint.mapM (lowerHint c))
      (p'.hint.mapM (lowerHint c')) := by
    have hhint := hp.hint
    generalize p.hint = hint at hhint ⊢
    generalize p'.hint = hint' at hhint ⊢
    cases hhint with
    | none => exact together_pure .none
    | some hhint =>
      rw [Option.mapM_some, Option.mapM_some, map_eq_pure_bind, map_eq_pure_bind]
      exact (together_lowerHint hc hhint).bind fun t t' ht => together_pure (.some ht)
  exact htype.bind fun type type' ht => together_pure ⟨hp.name, ht, rfl⟩

/-- The hint of a field is read in step. -/
theorem together_lowerField (hc : c.Alike c') {hint hint' : Expr}
    (h : hint.FieldRequoted c.scope hint') (total : Bool) (pos pos' : Pos) (name : String) :
    Together known known SameField (lowerField c total pos name hint)
      (lowerField c' total pos' name hint') := by
  obtain ⟨hoptional, htype⟩ := Scope.readField_of_requoted hc.scope h total
  rw [lowerField_eq, lowerField_eq]
  exact (together_lowerHint hc htype).bind fun t t' ht => together_pure ⟨rfl, ht, hoptional⟩

/-- What is no field adds none. -/
theorem lowerFields_other {total : Bool} {fields : List (RecordField StaticType)} {t : Stmt}
    {rest : List Stmt} (h : t.isField = false) :
    lowerFields c total fields (t :: rest) = lowerFields c total fields rest := by
  cases t with
  | simple pos t =>
    cases t with
    | annotated target =>
      cases target with
      | name => cases h
      | _ => rfl
    | _ => rfl
  | _ => rfl

/-- What is no field is none when types in it are taken out of strings. -/
theorem isField_of_requoted {t t' : Stmt} (h : t.Requoted c c' known t' known')
    (hother : t.isField = false) : t'.isField = false := by
  cases h with
  | simple h =>
    cases h with
    | typeAlias => cases hother
    | reify | assign => rfl
    | @annotated target target' hint hint' value value' bare bare' decl decl' _ htarget =>
      cases target' with
      | name q id =>
        obtain ⟨p, rfl⟩ := htarget.exists_name
        cases hother
      | _ => rfl
    | other hassignment hshell =>
      rename_i u u' _
      have hassignment' := (Simple.isAssignment_eq_of_shell hshell).1.symm.trans hassignment
      cases u' with
      | annotated => cases hassignment'
      | _ => rfl
  | _ => rfl

/-- The fields of records are read in step. -/
theorem together_lowerFields (hc : c.Alike c') (total : Bool) {ts ts' : List Stmt}
    {fields fields' : List (RecordField StaticType)}
    (hfields : List.Forall₂ SameField fields fields') (h : Stmt.MembersRequoted c c' ts ts') :
    Together known known (List.Forall₂ SameField) (lowerFields c total fields ts)
      (lowerFields c' total fields' ts') := by
  induction ts generalizing ts' fields fields' with
  | nil =>
    cases h
    exact together_pure hfields
  | cons t ts ih =>
    cases h with
    | field hhint hrest =>
      rw [lowerFields, lowerFields]
      exact (together_lowerField hc hhint total _ _ _).bind fun f f' hf =>
        ih (forall₂_putField hfields hf) hrest
    | other hother hfirst hrest =>
      rw [lowerFields_other hother, lowerFields_other (isField_of_requoted hfirst hother)]
      exact ih hfields hrest

/-- What is gathered from related members with related steps is the same. -/
theorem foldl_eq_of_forall₂ {f : γ → α → γ} {g : γ → β → γ} (hfg : ∀ c a b, R a b → f c a = g c b)
    {as : List α} {bs : List β} (h : List.Forall₂ R as bs) (c : γ) : as.foldl f c = bs.foldl g c := by
  induction h generalizing c with
  | nil => rfl
  | cons hfirst _ ih =>
    rw [List.foldl_cons, List.foldl_cons, hfg _ _ _ hfirst]
    exact ih _

/-- Keywords that are the same but for types in them say alike whether fields are required. -/
theorem isTotal_eq {s : Scope} {keywords keywords' : List (Keyword Expr)}
    (h : List.Forall₂ (Keyword.Requoted s) keywords keywords') :
    isTotal keywords = isTotal keywords' := by
  unfold isTotal
  refine foldl_eq_of_forall₂ (fun total k k' hk => ?_) h true
  obtain ⟨name, value⟩ := k
  obtain ⟨name', value'⟩ := k'
  obtain rfl : name = name' := hk.name
  have hvalue : value.CodeRequoted s value' := hk.value
  dsimp only
  by_cases hconstant : ∃ pos constant marked, value = .constant pos constant marked
  · obtain ⟨pos, constant, marked, rfl⟩ := hconstant
    obtain ⟨q, rfl⟩ := hvalue.of_constant
    split
    · rename_i heq
      cases heq
      rfl
    · rename_i hname
      split
      · exact absurd rfl (hname _ _ _ rfl)
      · rfl
  · split
    · exact absurd ⟨_, _, _, rfl⟩ hconstant
    · split
      · obtain ⟨p, rfl⟩ := hvalue.exists_constant
        exact absurd ⟨_, _, _, rfl⟩ hconstant
      · rfl

/-- Records are declared in step, and known from then on. -/
theorem inStep_lowerRecord (hc : c.Alike c') {pos pos' : Pos} {head head' : ClassHead}
    {body body' : List Stmt} {inherited inherited' : List (RecordField StaticType)}
    (hmarked : c.isRecursive pos = c'.isRecursive pos') (hname : head.name = head'.name)
    (hkeywords : List.Forall₂ (Keyword.Requoted c.scope) head.keywords head'.keywords)
    (hbody : Stmt.MembersRequoted c c' body body')
    (hinherited : List.Forall₂ SameField inherited inherited') :
    InStep known (head.name :: known) (lowerRecord c pos head body inherited)
      (lowerRecord c' pos' head' body' inherited') := by
  unfold lowerRecord
  rw [isTotal_eq hkeywords]
  have hstart := forall₂_foldl_putField hinherited .nil
  refine (together_lowerFields hc _ hstart hbody).bind fun fields fields' hfields => ?_
  have hmodify : InStep known (head.name :: known)
      (modify fun s => { s with records := (head.name, fields) :: s.records } : Lower Unit)
      (modify fun s => { s with records := (head'.name, fields') :: s.records } : Lower Unit) :=
    fun s s' hs hknown => .ok ⟨trivial, ⟨hs.declarations, .cons ⟨hname, hfields⟩ hs.records⟩,
      congrArg (head.name :: ·) hknown⟩
  refine hmodify.bind fun _ _ _ => inStep_declare (.type hname ?_ hmarked (by rw [hc.depth]))
  exact congrArg₂ (fun fields name => StaticType.record fields name none)
    (fieldsPlacedAt_eq hfields) (congrArg some hname)

/-- An inspection with other arguments than it takes is a fault. -/
theorem lowerSimple_malformed {pos p : Pos} {id : String} {value : Expr} {decl : Option Nat}
    (hcalls : callsSpecial c "reify" value = true)
    (hreify : ∀ q func type number, value ≠ .call q func [type] [] number) :
    lowerSimple c pos (.assign [.name p id] value decl) =
      lowerFault c value "reify() takes exactly one type" := by
  unfold lowerSimple
  dsimp only
  rw [hcalls, if_pos rfl]
  split
  · exact absurd rfl (hreify _ _ _ _)
  · rfl

/-- An assignment that asks for a model is to one name. -/
theorem exists_name_of_declares {targets : List Expr} {value : Expr} {decl : Option Nat}
    (h : (Simple.assign targets value decl).declares c = true) :
    ∃ p id, targets = [.name p id] ∧ callsSpecial c "reify" value = true := by
  unfold Simple.declares at h
  split at h
  · rename_i heq
    cases heq
  · rename_i heq
    cases heq
    exact ⟨_, _, rfl, h⟩
  · cases h

/-- Assignments of values that refer to the same things ask for models alike. -/
theorem declares_assign_eq (hc : c.Alike c') {u : Scope} {targets targets' : List Expr}
    {value value' : Expr} (htargets : List.Forall₂ (Expr.CodeRequoted u) targets targets')
    (hvalue : value.CodeRequoted u value') (decl decl' : Option Nat) :
    (Simple.assign targets value decl).declares c =
      (Simple.assign targets' value' decl').declares c' := by
  refine Bool.eq_iff_iff.2 ⟨fun h => ?_, fun h => ?_⟩
  · obtain ⟨p, id, rfl, hcalls⟩ := exists_name_of_declares h
    cases htargets with
    | cons hfirst hrest =>
      cases hrest
      obtain ⟨q, rfl⟩ := hfirst.of_name
      exact (callsSpecial_eq hc hvalue "reify").symm.trans hcalls
  · obtain ⟨q, id, rfl, hcalls⟩ := exists_name_of_declares h
    cases htargets with
    | cons hfirst hrest =>
      cases hrest
      obtain ⟨p, rfl⟩ := hfirst.exists_name
      exact (callsSpecial_eq hc hvalue "reify").trans hcalls

/-- An annotation that declares nothing still declares nothing when types in it are taken out of
strings. -/
theorem declares_annotated_eq_false (hscope : c.scope.Alike c'.scope) {u : Scope}
    {target target' hint hint' : Expr} {value value' : Option Expr}
    (halias : ∀ p id v, target = .name p id → value = some v →
      c.scope.canonical hint ≠ some "TypeAlias")
    (htarget : target.CodeRequoted u target') (hhint : hint.CodeRequoted u hint')
    (hvalue : Option.Rel (Expr.CodeRequoted u) value value') {bare bare' : Bool}
    {decl decl' : Option Nat} :
    (Simple.annotated target hint value bare decl).declares c = false ∧
      (Simple.annotated target' hint' value' bare' decl').declares c' = false := by
  have hcanonical := hscope.canonical_eq hhint.designator?_eq.2
  have hnone (d : LowerContext) {target hint : Expr} {value : Option Expr} {bare : Bool}
      {decl : Option Nat} (h : ∀ p id v, target = .name p id → value = some v →
        d.scope.canonical hint ≠ some "TypeAlias") :
      (Simple.annotated target hint value bare decl).declares d = false := by
    cases target with
    | name p id =>
      cases value with
      | none => rfl
      | some v => exact beq_eq_false_iff_ne.2 (h p id v rfl rfl)
    | _ => rfl
  refine ⟨hnone c halias, hnone c' ?_⟩
  rintro q id v' rfl rfl
  obtain ⟨p, rfl⟩ := htarget.exists_name
  cases hvalue with
  | some => exact hcanonical ▸ halias p id _ rfl rfl

/-- What assigns nothing declares nothing. -/
theorem declares_eq_false {t : Simple} (h : t.isAssignment = false) : t.declares c = false := by
  cases t with
  | assign | annotated => cases h
  | _ => rfl

/-- What becomes a call with one argument when types in it are taken out of strings is one before.
-/
theorem ne_call_of_requoted {u : Scope} {e e' : Expr} (h : e.CodeRequoted u e')
    (hne : ∀ q func type number, e ≠ .call q func [type] [] number) (q : Pos) (func type : Expr)
    (number : Option Nat) : e' ≠ .call q func [type] [] number := by
  rintro rfl
  obtain ⟨pos, func₀, args, keywords, decl, rfl, -, hargs, hkeywords⟩ := h.exists_call
  obtain ⟨arg, rfl⟩ := List.length_eq_one_iff.1 hargs
  obtain rfl := List.length_eq_zero_iff.1 hkeywords
  exact hne _ _ _ _ rfl

/-- Simple statements are lowered in step. -/
theorem inStep_lowerSimple (hc : c.Alike c') {pos pos' : Pos} {t t' : Simple}
    (h : t.Requoted c c' pos pos' t') :
    InStep known known (lowerSimple c pos t) (lowerSimple c' pos' t') := by
  cases h with
  | typeAlias hhint hsame hmarked hvalue =>
    have hhint' := (hc.scope.canonical_of_sameCode hsame).symm.trans hhint
    unfold lowerSimple
    dsimp only
    rw [hhint, hhint', if_pos (beq_self_eq_true _), if_pos (beq_self_eq_true _)]
    refine (together_lowerHint hc hvalue).bind fun u u' hu => ?_
    refine Together.bind (inStep_declare ?_) fun _ _ _ => together_pure trivial
    exact .type rfl hu hmarked (by rw [hc.depth])
  | reify hfunc hsame htype =>
    have hfunc' := (hc.scope.canonical_of_sameCode hsame).symm.trans hfunc
    unfold lowerSimple
    dsimp only
    rw [callsSpecial, callsSpecial, hfunc, hfunc', if_pos (beq_self_eq_true _),
      if_pos (beq_self_eq_true _)]
    refine (together_lowerHint hc htype).bind fun u u' hu => ?_
    exact Together.bind (inStep_declare (.reify rfl hu)) fun _ _ _ => together_pure trivial
  | @assign targets targets' value value' decl decl' hreify htargets hvalue =>
    have hdeclares := declares_assign_eq hc htargets hvalue decl decl'
    cases hdeclared : (Simple.assign targets value decl).declares c with
    | false =>
      rw [lowerSimple_eq hdeclared, lowerSimple_eq (hdeclares.symm.trans hdeclared)]
      have htargets' : List.Forall₂ (Expr.CodeRequoted c.scope) (slots targets) (slots targets') :=
        forall₂_slots_exprs htargets
      exact inStep_lowerIn hc (List.rel_append htargets' (.cons hvalue .nil))
    | true =>
      obtain ⟨p, id, rfl, hcalls⟩ := exists_name_of_declares hdeclared
      cases htargets with
      | cons hfirst hrest =>
        cases hrest
        obtain ⟨q, rfl⟩ := hfirst.of_name
        have hcalls' := (callsSpecial_eq hc hvalue "reify").symm.trans hcalls
        have hne : ∀ q func type number, value ≠ .call q func [type] [] number := by
          rintro q func type number rfl
          exact hreify _ _ _ _ _ _ rfl rfl (by simpa [callsSpecial] using hcalls)
        rw [lowerSimple_malformed hcalls hne,
          lowerSimple_malformed hcalls' (ne_call_of_requoted hvalue hne)]
        exact together_lowerFault (R := fun _ _ => True)
  | @annotated target target' hint hint' value value' bare bare' decl decl' halias htarget hhint
      hvalue =>
    obtain ⟨hdeclares, hdeclares'⟩ :=
      declares_annotated_eq_false hc.scope halias htarget hhint hvalue
    rw [lowerSimple_eq hdeclares, lowerSimple_eq hdeclares']
    exact inStep_lowerIn hc (.cons htarget (.cons hhint (forall₂_slots_option hvalue)))
  | other hother hshell hslots =>
    have hother' := (Simple.isAssignment_eq_of_shell hshell).1.symm.trans hother
    rw [lowerSimple_eq (declares_eq_false hother), lowerSimple_eq (declares_eq_false hother')]
    exact inStep_lowerIn hc hslots

/-- Conditions that refer to the same thing hold for type checkers alone alike. -/
theorem isGuard_eq {s s' u : Scope} (hscope : s.Alike s') {test test' : Expr}
    (h : test.CodeRequoted u test') : s.isGuard test = s'.isGuard test' := by
  rw [Scope.isGuard, Scope.isGuard, hscope.canonical_eq h.designator?_eq.2]

end Lowerings

mutual

/-- Statements of which one is the other with types written in strings are lowered in step. -/
theorem inStep_lowerStmt {c c' : LowerContext} (hc : c.Alike c') {known known' : List String}
    {t t' : Stmt} :
    t.Requoted c c' known t' known' → InStep known known' (lowerStmt c t) (lowerStmt c' t')
  | .simple h => by
    rw [lowerStmt, lowerStmt]
    exact (inStep_lowerSimple hc h).bind fun _ _ _ => together_pure trivial
  | .function hname hdecorators hparams hbody => by
    rw [lowerStmt, lowerStmt]
    refine (inStep_lowerIn hc (forall₂_slots_exprs hdecorators)).bind fun _ _ _ => ?_
    refine (inStep_lowerInitials hc hparams).bind fun _ _ _ => ?_
    refine (together_lowerParameters hc hparams).bind fun typed typed' htyped => ?_
    refine Together.bind (inStep_declare (.function hname htyped)) fun _ _ _ => ?_
    exact (inStep_lowerAll hc.inside hbody).bind fun _ _ _ => together_pure trivial
  | @Stmt.Requoted.record _ _ _ pos pos' head head' _ _ hrecord hmarked hname hbases hkeywords
      hbody => by
    rw [lowerStmt, lowerStmt]
    refine together_get_bind fun s s' hs hknown => ?_
    have hinherited := inheritedFields_of_known hc.scope hs hbases
    rw [hknown, hrecord] at hinherited
    obtain ⟨inherited, inherited', heq, heq', hsame⟩ := hinherited
    rw [heq, heq']
    exact (inStep_lowerRecord hc hmarked hname hkeywords hbody hsame).bind
      fun _ _ _ => together_pure trivial
  | @Stmt.Requoted.classDef _ _ _ _ pos pos' head head' _ _ hrecord hname hbases hkeywords hbody
      hdecorators => by
    rw [lowerStmt, lowerStmt]
    refine together_get_bind fun s s' hs hknown => ?_
    have hinherited := inheritedFields_of_known hc.scope hs hbases
    rw [hknown, hrecord] at hinherited
    obtain ⟨heq, heq'⟩ := hinherited
    rw [heq, heq']
    refine (inStep_lowerIn hc.inside (forall₂_slots_exprs hbases)).bind fun _ _ _ => ?_
    refine Together.bind (inStep_lowerIn hc.inside (forall₂_slots_list
      (fun k k' hk => .cons hk.value .nil) hkeywords)) fun _ _ _ => ?_
    refine (inStep_lowerAll hc.inside hbody).bind fun _ _ _ => ?_
    exact (inStep_lowerIn hc.inside (forall₂_slots_exprs hdecorators)).bind
      fun _ _ _ => together_pure trivial
  | @Stmt.Requoted.guarded _ _ _ _ _ _ _ _ test test' _ _ _ _ hguard htest hbody horelse => by
    have hguard' : c'.scope.isGuard test' = true := isGuard_eq hc.scope htest ▸ hguard
    rw [lowerStmt, lowerStmt, hguard, hguard', if_pos rfl, if_pos rfl]
    exact (inStep_lowerAll hc horelse).bind fun _ _ _ => together_pure trivial
  | @Stmt.Requoted.branch _ _ _ _ _ _ _ test test' _ _ _ _ hguard htest hbody horelse => by
    have hguard' : c'.scope.isGuard test' = false := isGuard_eq hc.scope htest ▸ hguard
    rw [lowerStmt, lowerStmt, hguard, hguard', if_neg Bool.false_ne_true,
      if_neg Bool.false_ne_true]
    refine Together.bind (inStep_lowerIn hc (.cons htest .nil)) fun _ _ _ => ?_
    refine (inStep_lowerAll hc hbody).bind fun _ _ _ => ?_
    exact (inStep_lowerAll hc horelse).bind fun _ _ _ => together_pure trivial
  | .compound h => by
    rw [lowerStmt, lowerStmt]
    exact (inStep_lowerClauses hc h).bind fun _ _ _ => together_pure trivial

/-- Suites of which one is the other with types written in strings are lowered in step. -/
theorem inStep_lowerAll {c c' : LowerContext} (hc : c.Alike c') {known known' : List String}
    {ts ts' : List Stmt} : Stmt.AllRequoted c c' known ts ts' known' →
      InStep known known' (lowerAll c ts) (lowerAll c' ts')
  | .nil => by
    rw [lowerAll, lowerAll]
    exact together_pure trivial
  | .cons hfirst hrest => by
    rw [lowerAll, lowerAll]
    refine (inStep_lowerStmt hc hfirst).bind fun _ _ _ => ?_
    exact (inStep_lowerAll hc hrest).bind fun _ _ _ => together_pure trivial

/-- Clauses of which one is the other with types written in strings are lowered in step. -/
theorem inStep_lowerClauses {c c' : LowerContext} (hc : c.Alike c') {known known' : List String}
    {clauses clauses' : List (Clause Stmt)} :
    Stmt.ClausesRequoted c c' known clauses clauses' known' →
      InStep known known' (lowerClauses c clauses) (lowerClauses c' clauses')
  | .nil => by
    rw [lowerClauses, lowerClauses]
    exact together_pure trivial
  | .cons hhead hbody hrest => by
    rw [lowerClauses, lowerClauses]
    refine (inStep_lowerIn hc hhead).bind fun _ _ _ => ?_
    refine (inStep_lowerAll hc hbody).bind fun _ _ _ => ?_
    exact (inStep_lowerClauses hc hrest).bind fun _ _ _ => together_pure trivial

end

end Lower

end Typeward
