import Mathlib.Logic.Relation
import Typeward.Proofs.LibraryCalls
import Typeward.Proofs.MetReferences

/-!
# Productive types

When the definitions of a module have been evaluated, the late references in the session have an
order: that of the types that they are to. A type meets none below its own, and its own only if it
refers to itself at once. So a check against a type that refers to itself only below guards does not
come back to the type with the same value.
-/

namespace Typeward

open Registry TypeExpr

/-- The definitions of a plan have been evaluated on the way to a session: each of them in a session
in which the types above were known, and the type that it was evaluated to is still there. A late
reference to a type of the plan is followed to that type, and one to a class to a type that meets no
late reference. -/
structure Plan.Ran (p : Plan) (runtime : String) (later : Session) (target : Nat → Schema)
    (defined : String → Schema) : Prop where
  definitions : ∀ (i : Nat) (entry : PlanEntry) (name : String), p.entries[i]? = some entry →
    entry.mode = .define → entry.label = some name → ∃ s text x v s',
      s.Prepared runtime (definedNames (p.entries.take i)) defined entry.expr ∧
      render runtime entry.expr = .ok x ∧ (evaluateWith text x).run s = (.ok (.value v), s') ∧
      s'.IsModel v (defined name) ∧ s'.Kept later
  types : ∀ (slot : Nat) (l : Slot) (name : String), later.slots[slot]? = some l →
    l.body = dottedExpr name → name ∈ definedNames p.entries → target slot = defined name
  classes : ∀ (slot : Nat) (l : Slot) (name : String), later.slots[slot]? = some l →
    l.body = classExpr runtime name → ∀ next, ¬ (target slot).Meets next

/-- A late reference of a session is to a class, or to one of some types. -/
def Session.RefersTo (later : Session) (runtime : String) (names : List String) (slot : Nat) :
    Prop :=
  ∃ l, later.slots[slot]? = some l ∧
    ((∃ name, l.body = classExpr runtime name) ∨ ∃ name ∈ names, l.body = dottedExpr name)

/-- The names that entries define. -/
theorem mem_definedNames_take {entries : List PlanEntry} {i : Nat} {name : String} :
    name ∈ definedNames (entries.take i) ↔ ∃ j < i, ∃ entry, entries[j]? = some entry ∧
      entry.mode = .define ∧ entry.label = some name := by
  simp only [definedNames, List.mem_filterMap, List.mem_filter, decide_eq_true_eq]
  constructor
  · rintro ⟨entry, ⟨hmem, hmode⟩, hlabel⟩
    obtain ⟨j, hj⟩ := List.mem_iff_getElem?.1 hmem
    rw [List.getElem?_take] at hj
    split at hj
    · exact ⟨j, by assumption, entry, hj, hmode, hlabel⟩
    · cases hj
  · rintro ⟨j, hj, entry, hentry, hmode, hlabel⟩
    refine ⟨entry, ⟨List.mem_iff_getElem?.2 ⟨j, ?_⟩, hmode⟩, hlabel⟩
    rw [List.getElem?_take, if_pos hj, hentry]

/-- What is defined above a place is defined in the whole. -/
theorem mem_definedNames_of_take {entries : List PlanEntry} {i : Nat} {name : String}
    (h : name ∈ definedNames (entries.take i)) : name ∈ definedNames entries := by
  rw [← List.take_append_drop i entries, definedNames_append]
  exact List.mem_append_left _ h

/-- A late reference to one of the types above a place is to one of those above a later place. -/
theorem Session.RefersTo.mono {later : Session} {runtime : String} {entries : List PlanEntry}
    {i j slot : Nat} (h : later.RefersTo runtime (definedNames (entries.take j)) slot)
    (hj : j ≤ i) : later.RefersTo runtime (definedNames (entries.take i)) slot := by
  obtain ⟨l, hl, hbody⟩ := h
  refine ⟨l, hl, hbody.imp_right ?_⟩
  rintro ⟨name, hname, hbody⟩
  obtain ⟨k, hk, hfound⟩ := mem_definedNames_take.1 hname
  exact ⟨name, mem_definedNames_take.2 ⟨k, Nat.lt_of_lt_of_le hk hj, hfound⟩, hbody⟩

/-- Chains of attributes on names are the same only if the names and the attributes are. -/
theorem foldl_attribute_inj {a b : String} {ps qs : List String}
    (h : ps.foldl (Expr.attribute .synthetic · ·) (.name .synthetic a) =
      qs.foldl (Expr.attribute .synthetic · ·) (.name .synthetic b)) : a = b ∧ ps = qs := by
  induction ps using List.reverseRecOn generalizing qs with
  | nil =>
    induction qs using List.reverseRecOn with
    | nil => simpa using h
    | append_singleton qs q _ => simp at h
  | append_singleton ps p ih =>
    induction qs using List.reverseRecOn with
    | nil => simp at h
    | append_singleton qs q _ =>
      simp only [List.foldl_append, List.foldl_cons, List.foldl_nil, Expr.attribute.injEq,
        true_and] at h
      obtain ⟨rfl, rfl⟩ := ih h.1
      exact ⟨rfl, by rw [h.2]⟩

/-- Names with dots are told apart by their code. -/
theorem dottedExpr_injective : Function.Injective dottedExpr := by
  intro a b h
  obtain ⟨ps, hps⟩ := Expr.Reads.exists_nameParts_eq a
  obtain ⟨qs, hqs⟩ := Expr.Reads.exists_nameParts_eq b
  unfold dottedExpr at h
  rw [hps, hqs] at h
  obtain ⟨hroot, hrest⟩ := foldl_attribute_inj h
  rw [← intercalate_nameParts a, ← intercalate_nameParts b, hps, hqs, hroot, hrest]

/-- The code of a name is no check against a class. -/
theorem dottedExpr_ne_classExpr {runtime a b : String} : dottedExpr a ≠ classExpr runtime b := by
  obtain ⟨ps, hps⟩ := Expr.Reads.exists_nameParts_eq a
  unfold dottedExpr
  rw [hps]
  dsimp only
  induction ps using List.reverseRecOn with
  | nil => nofun
  | append_singleton ps p _ => simp [classExpr, callExpr]

/-- A check against a class that is given a display name is evaluated to nothing. -/
theorem not_gets_named_classCheck {start : Session} {runtime name shown : String} {x : Expr}
    (hlibrary : start.names.lookup runtime = some .library)
    (hx : render runtime ((classCheck name).named shown) = .ok x) :
    x.Gets start fun _ _ => False := by
  have hrender : render runtime ((classCheck name).named shown) = .ok (callExpr
      (runtimeExpr runtime "irreducible") [dottedExpr name] (callKeywords (some shown) [])) :=
    render_irreducible runtime name (some shown)
  obtain rfl := Except.ok.inj (hrender.symm.trans hx)
  refine gets_call hlibrary rfl (fun _ _ => (gets_dottedExpr name).argument) ?_
  rintro text s _ ⟨o, rfl, -⟩
  have hbind : LibraryFunction.irreducible.signature.bind [o]
      (constantObjects (namedConstants (some shown) [])) = none := rfl
  rw [Object.call, hbind]
  exact .throw

namespace Plan.Ran

variable {p : Plan} {runtime : String} {later : Session} {target : Nat → Schema}
  {defined : String → Schema} {i : Nat} {entry : PlanEntry} {name : String} {slot next : Nat}

/-- A type that is defined meets only what its definition may meet. -/
theorem mayMeet (h : p.Ran runtime later target defined) (hentry : p.entries[i]? = some entry)
    (hmode : entry.mode = .define) (hlabel : entry.label = some name) {e : TypeExpr} {shown : String}
    (he : BuiltForm e) (hexpr : entry.expr = e.named shown) (hslot : (defined name).Meets slot) :
    entry.expr.MayMeet runtime (definedNames (p.entries.take i)) defined later slot := by
  obtain ⟨s, text, x, v, s', hprepared, hx, hrun, hmodel, hkept⟩ :=
    h.definitions i entry name hentry hmode hlabel
  rw [hexpr] at hx ⊢
  rcases he.named shown with ⟨c, rfl⟩ | ⟨hnamed, -⟩
  · obtain ⟨-, hnone⟩ := not_gets_named_classCheck hprepared.library hx text s (.refl s) _ s' hrun
    exact hnone.elim
  · obtain ⟨x', hx', hclears⟩ := hnamed.clears (hexpr ▸ hprepared)
    obtain rfl := Except.ok.inj (hx.symm.trans hx')
    obtain ⟨-, hclear⟩ := hclears text s (.refl s) _ s' hrun
    exact hclear.of_isModel hmodel hkept hslot

section Planned

variable {bindings : List Binding} {reserved : List String} {declarations : List Declaration}
  {r : Registry} (hplan : plan (ofModule bindings reserved) declarations = .ok (p, r))

include hplan

/-- What a type meets that is defined is a late reference to a class or to a type above, or its own
if its definition exposes it. -/
theorem refersTo_of_meets (h : p.Ran runtime later target defined)
    (hentry : p.entries[i]? = some entry) (hmode : entry.mode = .define)
    (hlabel : entry.label = some name) (hslot : (defined name).Meets slot) :
    later.RefersTo runtime (definedNames (p.entries.take i)) slot ∨
      (deferred name).Exposed entry.expr ∧
        ∃ l, later.slots[slot]? = some l ∧ l.body = dottedExpr name := by
  induction i using Nat.strongRecOn generalizing entry name with
  | ind i ih =>
    obtain ⟨d, known, declared, e, hd⟩ := exists_defines_of_plan hplan hentry hmode
    rcases h.mayMeet hentry hmode hlabel (builtForm_of_build hd.builds) hd.expr hslot with
      ⟨above, habove, hmeets⟩ | ⟨l, hl, hclass | ⟨y, hy, hbody⟩⟩
    · obtain ⟨j, hj, entry', hentry', hmode', hlabel'⟩ := mem_definedNames_take.1 habove
      rcases ih j hj hentry' hmode' hlabel' hmeets with hbelow | ⟨-, l, hl, hbody⟩
      · exact .inl (hbelow.mono (Nat.le_of_lt hj))
      · exact .inl ⟨l, hl, .inr ⟨above, habove, hbody⟩⟩
    · exact .inl ⟨l, hl, .inl hclass⟩
    · obtain ⟨rfl, -⟩ := hd.late hy.includes
      obtain rfl := Option.some.inj (hd.label.symm.trans hlabel)
      exact .inr ⟨hy, l, hl, hbody⟩

/-- From late references to classes and to types above a place, only such are met. -/
theorem refersTo_of_refersTo (h : p.Ran runtime later target defined)
    (hslot : later.RefersTo runtime (definedNames (p.entries.take i)) slot)
    (hnext : (target slot).Meets next) :
    later.RefersTo runtime (definedNames (p.entries.take i)) next := by
  obtain ⟨l, hl, ⟨name, hbody⟩ | ⟨name, hname, hbody⟩⟩ := hslot
  · exact absurd hnext (h.classes slot l name hl hbody next)
  · rw [h.types slot l name hl hbody (mem_definedNames_of_take hname)] at hnext
    obtain ⟨j, hj, entry, hentry, hmode, hlabel⟩ := mem_definedNames_take.1 hname
    rcases refersTo_of_meets hplan h hentry hmode hlabel hnext with hbelow | ⟨-, l, hl, hbody⟩
    · exact hbelow.mono (Nat.le_of_lt hj)
    · exact ⟨l, hl, .inr ⟨name, hname, hbody⟩⟩

/-- From the late reference to a type whose definition does not expose it, none to the type is met.
-/
theorem not_transGen_meets (h : p.Ran runtime later target defined)
    (hentry : p.entries[i]? = some entry) (hmode : entry.mode = .define)
    (hlabel : entry.label = some name) (hguarded : ¬ (deferred name).Exposed entry.expr)
    {l : Slot} (hl : later.slots[slot]? = some l) (hbody : l.body = dottedExpr name) :
    ¬ Relation.TransGen (fun slot next => (target slot).Meets next) slot slot := by
  obtain ⟨d, known, declared, e, hd⟩ := exists_defines_of_plan hplan hentry hmode
  obtain rfl := Option.some.inj (hd.label.symm.trans hlabel)
  have hdefined : d.name ∈ definedNames p.entries :=
    mem_definedNames_of_take
      (mem_definedNames_take.2 ⟨i, Nat.lt_succ_self i, entry, hentry, hmode, hlabel⟩)
  have hbelow (next : Nat)
      (hnext : Relation.TransGen (fun slot next => (target slot).Meets next) slot next) :
      later.RefersTo runtime (definedNames (p.entries.take i)) next := by
    induction hnext with
    | single hmeets =>
      rw [h.types slot l d.name hl hbody hdefined] at hmeets
      exact (refersTo_of_meets hplan h hentry hmode hlabel hmeets).resolve_right
        fun hexposed => hguarded hexposed.1
    | tail _ hmeets ih => exact refersTo_of_refersTo hplan h ih hmeets
  intro hcircle
  obtain ⟨l', hl', hslot⟩ := hbelow slot hcircle
  obtain rfl := Option.some.inj (hl.symm.trans hl')
  rcases hslot with ⟨name, hclass⟩ | ⟨name, hname, hother⟩
  · exact dottedExpr_ne_classExpr (hbody.symm.trans hclass)
  · obtain rfl := dottedExpr_injective (hbody.symm.trans hother)
    exact hd.fresh hname

end Planned

end Plan.Ran

/-- Recursion is productive where a type does not refer to itself at once. In the plan of a module, a
late reference in the definition of a type is to the type, which is marked recursive. It is below a
guard wherever it stands, just if the type does not refer to itself at once. Then, once the
definitions have been evaluated, no check against the type comes back to the type with the same
value. -/
theorem recursion_productive {bindings : List Binding} {reserved : List String}
    {declarations : List Declaration} {p : Plan} {r : Registry}
    (h : plan (ofModule bindings reserved) declarations = .ok (p, r)) {entry : PlanEntry}
    (hentry : entry ∈ p.ofMode .define) :
    ∃ d, entry.site = .type d ∧ entry.label = some d.name ∧
      (∀ y, (deferred y).Includes entry.expr → y = d.name ∧ d.isRecursive = true) ∧
      ((∀ y, ¬ (deferred y).Exposed entry.expr) ↔ ¬ d.type.RefersAtOnce d.name) ∧
      (¬ d.type.RefersAtOnce d.name → ∀ runtime later target defined,
        p.Ran runtime later target defined → ∀ (slot : Nat) (l : Slot),
          later.slots[slot]? = some l → l.body = dottedExpr d.name →
          ¬ Relation.TransGen (fun slot next => (target slot).Meets next) slot slot) := by
  obtain ⟨d, hsite, hlabel, hlate, hguarded⟩ := p.guarded_iff h hentry
  refine ⟨d, hsite, hlabel, hlate, hguarded, ?_⟩
  intro honce runtime later target defined hran slot l hl hbody
  obtain ⟨hmem, hmode⟩ := List.mem_filter.1 hentry
  obtain ⟨i, hi⟩ := List.mem_iff_getElem?.1 hmem
  exact hran.not_transGen_meets h hi (by simpa using hmode) hlabel (hguarded.2 honce d.name) hl hbody

/-- The declaration of trees, as dictionaries of trees. -/
def treeDeclaration : TypeDeclaration :=
  ⟨"Tree", .dict (.primitive "str" none) (.reference "Tree" [] none) none, true, true, none⟩

/-- Trees have been defined on the way to the session of trees. -/
theorem treeSession_ran {p : Plan} {d : TypeDeclaration} {number : Nat}
    (hentries : p.entries = [⟨.type d,
      .call .dict [.primitive "Str", .deferred "Tree"] (some "Tree") [], .define, some "Tree",
      number⟩]) :
    p.Ran "t" (treeSession []) (fun _ => treeSchema) (fun _ => treeSchema) where
  definitions := by
    intro i entry name hentry _ _
    rw [hentries] at hentry ⊢
    obtain rfl := List.mem_singleton.1 (List.mem_of_getElem? hentry)
    have hnames (name : String) : ¬ (TypeExpr.name name).Includes
        (.call .dict [.primitive "Str", .deferred "Tree"] (some "Tree") []) := by
      rw [includes_iff]
      simp [parts, includes_iff (e := primitive _), includes_iff (e := deferred _)]
    refine ⟨Session.start [("t", .library)], fun _ => return "", _, .model 11, _,
      ⟨.refl _, rfl, fun name _ hname => absurd hname (hnames name)⟩, rfl, rfl, ⟨11, rfl, rfl⟩, ?_⟩
    exact ⟨fun _ _ h => h, fun slot l hl => ⟨l, hl, rfl⟩⟩
  types := fun _ _ _ _ _ _ => rfl
  classes := fun slot l name _ _ next hnext => nomatch hnext

/-- Trees refer to trees below a guard, so a check against trees does not come back to trees with the
same value. -/
theorem recursion_productive_tree :
    ∃ p r, plan (ofModule [] []) [.type treeDeclaration] = .ok (p, r) ∧
      p.Ran "t" (treeSession []) (fun _ => treeSchema) (fun _ => treeSchema) ∧
      (∃ entry ∈ p.ofMode .define,
        entry.expr = .call .dict [.primitive "Str", .deferred "Tree"] (some "Tree") [] ∧
        ∀ y, ¬ (deferred y).Exposed entry.expr) ∧
      ¬ Relation.TransGen (fun _ next => treeSchema.Meets next) 0 0 := by
  have hplan : ∃ p r, plan (ofModule [] []) [.type treeDeclaration] = .ok (p, r) ∧
      p.entries = [⟨.type treeDeclaration,
        .call .dict [.primitive "Str", .deferred "Tree"] (some "Tree") [], .define, some "Tree", 0⟩] :=
    ⟨_, _, rfl, rfl⟩
  obtain ⟨p, r, hplan, hentries⟩ := hplan
  have hran := treeSession_ran hentries
  have hentry : ⟨.type treeDeclaration,
      .call .dict [.primitive "Str", .deferred "Tree"] (some "Tree") [], .define, some "Tree", 0⟩ ∈
        p.ofMode .define := by
    simp [Plan.ofMode, hentries]
  obtain ⟨d, hsite, -, -, hguarded, hproductive⟩ := recursion_productive hplan hentry
  obtain rfl := Site.type.inj hsite
  have honce : ¬ treeDeclaration.type.RefersAtOnce treeDeclaration.name := nofun
  exact ⟨p, r, hplan, hran, ⟨_, hentry, rfl, hguarded.2 honce⟩,
    hproductive honce "t" (treeSession []) _ _ hran 0 _ rfl rfl⟩

end Typeward
