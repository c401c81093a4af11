import Mathlib.Data.Finset.Card
import Mathlib.Logic.Relation
import Typeward.Proofs.BlamedPlaces
import Typeward.Proofs.SturdySessions

/-!
# Checks against types that refer to themselves

Types may refer to themselves and to each other by late references. A check of a value against such
a type ends if the references are guarded: no circle of them is followed without going down in the
value. Texts and names end, too, if each type that is referred to carries a display name.

A late reference that is met has a rank: the number of references that can follow with the same
value. The rank decreases along every reference, and starts again where the value gets less deep.
-/

namespace Typeward

/-- Where nothing leads back to itself among so many numbers, ranks decrease along what leads on: the
rank is how much can be reached. -/
theorem ranked_of_acyclic {count : Nat} {Leads : Nat → Nat → Prop}
    (hlt : ∀ i < count, ∀ j, Leads i j → j < count)
    (hacyclic : ∀ i < count, ¬ Relation.TransGen Leads i i) : Ranked count Leads := by
  classical
  let reached (i : Nat) : Finset Nat := {j ∈ Finset.range count | Relation.TransGen Leads i j}
  refine ⟨fun i => (reached i).card, fun i hi => ⟨?_, fun j hj => ?_⟩⟩
  · have hmissing : reached i ⊂ Finset.range count :=
      Finset.filter_ssubset.2 ⟨i, Finset.mem_range.2 hi, hacyclic i hi⟩
    simpa using Finset.card_lt_card hmissing
  · have hlower : reached j ⊆ reached i := by
      intro k hk
      obtain ⟨hcount, hreached⟩ := Finset.mem_filter.1 hk
      exact Finset.mem_filter.2 ⟨hcount, .head hj hreached⟩
    have hmem : j ∈ reached i :=
      Finset.mem_filter.2 ⟨Finset.mem_range.2 (hlt i hi j hj), .single hj⟩
    have hnot : j ∉ reached j := fun h => hacyclic j (hlt i hi j hj) (Finset.mem_filter.1 h).2
    exact Finset.card_lt_card (Finset.ssubset_iff_subset_ne.2 ⟨hlower, fun h => hnot (h ▸ hmem)⟩)

/-- A value that can occur can occur where more runtime types can be shown. -/
theorem Value.Fit.mono {Shows Shows' : Nat → Prop} {v : Value} (hv : v.Fit Shows)
    (h : ∀ n, Shows n → Shows' n) : v.Fit Shows' := by
  induction hv with
  | collection _ ih => exact .collection ih
  | mapping _ _ ihkeys ihvalues => exact .mapping ihkeys ihvalues
  | derived hcontent _ ih => exact .derived hcontent ih
  | model hn => exact .model (h _ hn)
  | _ => constructor

namespace Schema

variable {world : World} {s : Schema} {v : Value}

/-- A check that fails by itself misses something that is looked up. -/
theorem isLookup_of_course {e : Raised} (h : s.course world v = .fail e) : e.IsLookup := by
  cases s
  all_goals simp only [course, Course.ofBool, Course.ofParts] at h
  case list element container shown =>
    cases hitems : v.elementsIn container with
    | error e' =>
      rw [hitems] at h
      obtain rfl := Course.fail.inj h
      unfold Value.elementsIn at hitems
      split at hitems <;> cases hitems
      trivial
    | ok items =>
      rw [hitems] at h
      cases items <;> cases h
  case tuple elements isVariadic shown =>
    repeat' split at h
    all_goals cases h
    trivial
  all_goals (repeat' split at h) <;> cases h

/-- The predicates in a type answer, whatever the value. -/
def Answering (world : World) (target : Nat → Schema) (whole : Schema) : Prop :=
  ∀ base predicate shown, (refinement base predicate shown).IsPartOf target whole →
    ∀ v, ∃ b, world.holds predicate v = .ok b

/-- Something that a type looks up is missing: the container of a list type in it, or the element of
a tuple type of any length. -/
def Lacks (target : Nat → Schema) (whole : Schema) (e : Raised) : Prop :=
  e.IsLookup ∧ ∃ part : Schema, part.IsPartOf target whole ∧ ¬ part.Provides

end Schema

namespace Surroundings

/-- Late references lead to one type each, whenever they are followed, and these types carry display
names. -/
structure Named (cx : Surroundings Run) (I : Session → Prop) (target : Nat → Schema)
    (slotCount : Nat) : Prop where
  slots : slotCount ≤ cx.slotCount
  resolves : ∀ slot < slotCount, Ensures I (cx.resolve slot) (· = target slot)
  named : ∀ slot < slotCount, (target slot).shown?.isSome = true

/-- In settled surroundings the types that late references lead to carry display names, and no circle
of references is followed with the same value. -/
structure Guarded (cx : Surroundings Run) (I : Session → Prop) (Told : Raised → Prop)
    (target : Nat → Schema) (slotCount : Nat) (Shows : Nat → Prop) : Prop
    extends cx.Settled I Told target slotCount Shows, cx.Named I target slotCount where
  meets : Ranked slotCount fun slot next => (target slot).Meets next

variable {cx : Surroundings Run} {I : Session → Prop} {Told : Raised → Prop}
  {target : Nat → Schema} {slotCount : Nat} {Shows : Nat → Prop} {s whole : Schema}

/-- A type can be named if its literals can be shown: its name shows at most the display names of late
references. -/
theorem Named.finishes_name (h : cx.Named I target slotCount)
    (hs : s.Grounded (fun v => Finishes I Told (cx.valueText v)) slotCount) :
    Finishes I Told (cx.name s) := by
  refine hs.finishes_nameWith fun slot hcites => ?_
  have hslot := hs.lt_of_cites hcites
  have hslots := h.slots
  obtain ⟨fuel, hfuel⟩ : ∃ k, cx.slotCount = k + 1 := ⟨cx.slotCount - 1, by omega⟩
  rw [hfuel]
  refine (h.resolves slot hslot).ends.bind fun t ht => ?_
  subst ht
  exact Schema.finishes_nameWith_of_shown (h.named slot hslot)

/-- Checks of values that can occur against parts of a type come to an end, if what the type lacks may
be raised, and that an integer in it is too long. -/
theorem Guarded.terminating (h : cx.Guarded I Told target slotCount Shows)
    (hwhole : whole.Grounded (Value.Fit Shows) slotCount)
    (hanswering : whole.Answering cx.world target) (hlacks : ∀ e, whole.Lacks target e → Told e)
    (hlong : whole.HoldsOverlong target → Told .unfitValue) :
    cx.Terminating I Told target slotCount fun s v =>
      s.IsPartOf target whole ∧ v.Tellable Shows Told := by
  have htext (v : Value) (hv : v.Tellable Shows Told) : Finishes I Told (cx.valueText v) :=
    hv.finishes_textWith h.shows
  have hgrounded {s : Schema} (hs : s.IsPartOf target whole) :
      s.Grounded (Value.Fit Shows) slotCount := hs.grounded hwhole h.grounded
  exact
    { inherited := .of_parts (fun s hs c hc => Schema.IsPartOf.trans (.component hc .self) hs)
        fun _ _ _ hv hstep => hv.content hstep.content
      fails := fun hon hcourse => hlacks _ ⟨Schema.isLookup_of_course hcourse, _, hon.1,
        fun hprovides => hprovides.course_ne_fail hcourse⟩
      holds := fun {base predicate shown v e} hon hholds => by
        obtain ⟨b, hb⟩ := hanswering base predicate shown hon.1 v
        rw [hholds] at hb
        cases hb
      reject := fun {s v} hon path => by
        have hnamed := (hgrounded hon.1).tellable fun hpart => hlong (hpart.of_part hon.1)
        exact finishes_reject (htext v hon.2) (h.finishes_name (hnamed.mono htext))
      segments := fun hon hstep => finishes_stepsTo htext hon.2 hstep
      slots := h.slots
      lt := fun hon => (hgrounded hon.1).lt
      resolves := h.toNamed.resolves
      follows := fun hon => ⟨Schema.IsPartOf.trans (.late .self) hon.1, hon.2⟩
      meets := h.meets }

end Surroundings

namespace Session

variable {world : World} {target : Nat → Schema} {s s' : Session}

/-- In a session, late references stand for types that are guarded. -/
structure Guarded (s : Session) (target : Nat → Schema) : Prop extends s.Resolves target where
  /-- The values of literals hold none but runtime types that were made before. -/
  models : ∀ (number : Nat) (t : Schema), s.models[number]? = some t →
    t.Grounded (Value.Fit (· < number)) s.slots.size
  targets : ∀ slot < s.slots.size,
    (target slot).Grounded (Value.Fit (· < s.models.size)) s.slots.size
  /-- Each type that is referred to carries a display name. -/
  named : ∀ slot < s.slots.size, (target slot).shown?.isSome = true
  /-- Every circle of references goes down in the value: through a list type, a dictionary type, an
  interface or a tuple type. -/
  guarded : ∀ slot < s.slots.size,
    ¬ Relation.TransGen (fun slot next => (target slot).Meets next) slot slot

/-- A literal in a type of the session holds an integer that is too long to be written. -/
def HoldsOverlong (s : Session) (target : Nat → Schema) : Prop :=
  ∃ (number : Nat) (t : Schema), s.models[number]? = some t ∧ t.HoldsOverlong target

variable {Told : Raised → Prop}

/-- A runtime type that was made before the session went on can be shown, up to integers. -/
theorem Guarded.finishes_modelText (h : s.Guarded target) {slotCount : Nat}
    (hslots : s.slots.size ≤ slotCount) (hlong : s.HoldsOverlong target → Told .unfitValue)
    (fuel : Nat) : ∀ number < fuel, number < s.models.size →
      Finishes (s.Checked target) Told (modelText world slotCount fuel number) := by
  induction fuel with
  | zero => intro number hfuel; omega
  | succ fuel ih =>
    intro number hfuel hnumber
    obtain ⟨t, hmodel⟩ : ∃ t, s.models[number]? = some t := ⟨_, Array.getElem?_eq_getElem hnumber⟩
    have hgrounded := h.models number t hmodel
    let cx := surroundingsWith world slotCount (modelText world slotCount fuel)
    have hnamed : cx.Named (s.Checked target) target s.slots.size :=
      ⟨hslots, fun _ hslot => h.ensures_findLate hslot, h.named⟩
    have hname : Finishes (s.Checked target) Told (cx.name t) := by
      have htellable := hgrounded.tellable fun hpart => hlong ⟨number, t, hmodel, hpart⟩
      refine hnamed.finishes_name (htellable.mono fun v hv => ?_)
      exact hv.finishes_textWith fun n hn => ih n (by omega) (by omega)
    have hschema : Ensures (s.Checked target) (schemaOf (.model number)) (· = t) :=
      fun s' hs' => ⟨t, s', reads_schemaOf ⟨number, rfl, hs'.goesOn.kept.models number t hmodel⟩,
        hs', rfl⟩
    refine hschema.ends.bind fun u hu => ?_
    subst hu
    cases u with
    | late slot =>
      have hslot := hgrounded.lt
      have hshown : Finishes (s.Checked target) Told (cx.name (target slot)) :=
        Schema.finishes_nameWith_of_shown (h.named slot hslot)
      -- what is found is looked up in the same session
      intro s' hs'
      rw [(Reads.get s').run_bind]
      split
      · rename_i body found hl
        rw [(reads_schemaOf ⟨found, rfl, hs'.found slot _ found hslot hl rfl⟩).run_bind]
        exact hshown.map _ s' hs'
      · exact Ends.pure trivial s' hs'
    | _ => exact hname.map _

/-- A session with guarded types is settled, if it may be raised that an integer in one of them is too
long. -/
theorem Guarded.settled (h : s.Guarded target) (hs' : s.Checked target s')
    (hlong : s.HoldsOverlong target → Told .unfitValue) :
    (s'.checking world).Settled (s.Checked target) Told target s.slots.size
      (· < s.models.size) where
  resolves _ hslot := h.ensures_findLate hslot
  grounded := h.targets
  shows number hnumber := by
    have hmodel := hs'.goesOn.kept.models number _ (Array.getElem?_eq_getElem hnumber)
    have hlater := (Array.getElem?_eq_some_iff.1 hmodel).1
    exact h.finishes_modelText hs'.goesOn.slots_size_le hlong _ number hlater hnumber

/-- The surroundings of checks in a session with guarded types, also when it has gone on. -/
theorem Guarded.surroundings (h : s.Guarded target) (hs' : s.Checked target s')
    (hlong : s.HoldsOverlong target → Told .unfitValue) :
    (s'.checking world).Guarded (s.Checked target) Told target s.slots.size
      (· < s.models.size) where
  toSettled := h.settled hs' hlong
  slots := hs'.goesOn.slots_size_le
  named := h.named
  meets := by
    refine ranked_of_acyclic (fun slot hslot next hnext => ?_) h.guarded
    exact (hnext.isPartOf.grounded (h.targets slot hslot) h.targets).lt

/-- A session resolves late references to the types that their names are bound to. -/
theorem resolves_of_names (h : ∀ (slot : Nat) (l : Slot), s.slots[slot]? = some l → l.found = none ∧
    ∃ name v, l.body = dottedExpr name ∧ s.read name = some (.value v) ∧
      s.IsModel v (target slot)) : s.Resolves target where
  checked := by
    refine ⟨.refl s, fun slot l number _ hl hfound => ?_⟩
    rw [(h slot l hl).1] at hfound
    cases hfound
  evaluates := by
    intro slot l hl text s' hs'
    obtain ⟨-, name, v, hbody, hread, hmodel⟩ := h slot l hl
    have hread' : s'.read name = some (.value v) := by
      rw [← hread, Session.read, Session.read, hs'.goesOn.names]
    rw [hbody]
    exact ⟨_, s', reads_dottedExpr hread', hs', v, rfl, hmodel.kept hs'.goesOn.kept⟩

/-- Every check of a value against a type of a session ends, if late references in the session stand
for types with display names, no circle of references is followed without going down in the value,
and the predicates in the type answer: the check answers what it finds, which is nothing just when
the type accepts the value. The only things that it may raise instead are that something is missing
which the type itself looks up, and that an integer is too long to be shown, which is in the value or
in a literal of the session. -/
theorem guarded_checks_end (h : s.Guarded target) (hs' : s.Checked target s') {t : Schema}
    {type v : Value} (htype : s.IsModel type t) (hanswering : t.Answering world target)
    (hv : v.Fit (· < s.models.size)) (path : List String) :
    ∃ s'', s.Checked target s'' ∧
      ((∃ found, (Inspection.errors world type v path).run s' = (.ok found, s'') ∧
          (found = [] ↔ t.Accepts world target v)) ∨
        (∃ e, t.Lacks target e ∧
          (Inspection.errors world type v path).run s' = (.error e, s'')) ∨
        (v.HoldsOverlong ∨ s.HoldsOverlong target) ∧
          (Inspection.errors world type v path).run s' = (.error .unfitValue, s'')) := by
  obtain ⟨number, rfl, hmodel⟩ := htype
  have hnumber := (Array.getElem?_eq_some_iff.1 hmodel).1
  have ht : t.Grounded (Value.Fit (· < s.models.size)) s.slots.size :=
    (h.models number t hmodel).mono fun v hv => hv.mono fun n hn => Nat.lt_trans hn hnumber
  let Told (e : Raised) : Prop :=
    t.Lacks target e ∨ (v.HoldsOverlong ∨ s.HoldsOverlong target) ∧ e = .unfitValue
  have hlong : s.HoldsOverlong target → Told .unfitValue := fun hheld => .inr ⟨.inr hheld, rfl⟩
  have hsurroundings : (s'.checking world).Guarded (s.Checked target) Told target s.slots.size
      (· < s.models.size) := h.surroundings hs' hlong
  have hterminating := hsurroundings.terminating ht hanswering (fun _ => .inl)
    fun hpart => hlong ⟨number, t, hmodel, hpart⟩
  have hends : Ends (s.Checked target) Told ((s'.checking world).errors t v path)
      fun found => found = [] ↔ t.Accepts world target v :=
    hsurroundings.toSettled.ends_errors ht hv
      (hterminating.finishes_errors ⟨.self, hv, fun hheld => .inr ⟨.inl hheld, rfl⟩⟩)
  rw [run_errors ⟨number, rfl, hs'.goesOn.kept.models number t hmodel⟩]
  obtain ⟨s'', hs'', ⟨found, hverdict, hfound⟩ | ⟨e, hlacks | ⟨hheld, rfl⟩, herror⟩⟩ :=
    hends.cases hs'
  · exact ⟨s'', hs'', .inl ⟨found, hfound, hverdict⟩⟩
  · exact ⟨s'', hs'', .inr (.inl ⟨e, hlacks, herror⟩)⟩
  · exact ⟨s'', hs'', .inr (.inr ⟨hheld, herror⟩)⟩

end Session

/-- What is to be done: nothing, what a function does, or several things. -/
def actionSchema : Schema :=
  .maybe (.union [.refinement (.irreducible "Any" .anything) (.function (.builtin "callable")) none,
    .late 0] none) (some "Action")

/-- Several things that are to be done. -/
def actionsSchema : Schema := .list (.late 1) "list" (some "Actions")

/-- The types that refer to each other. -/
def actionTarget (slot : Nat) : Schema := if slot = 0 then actionsSchema else actionSchema

/-- The types of actions with the types in them. -/
def actionSchemas : List Schema :=
  [.refinement (.irreducible "Any" .anything) (.function (.builtin "callable")) none, .late 0,
    .union [.refinement (.irreducible "Any" .anything) (.function (.builtin "callable")) none,
      .late 0] none, actionSchema, .late 1, actionsSchema]

/-- A session in which actions are defined. -/
def actionSession : Session where
  names := [("Action", .value (.model 13)), ("Actions", .value (.model 15))]
  models := ((Session.start []).models.toList ++ actionSchemas).toArray
  slots := #[⟨dottedExpr "Actions", none⟩, ⟨dottedExpr "Action", none⟩]

/-- The types of actions hold no literals, and no late references but those two. -/
theorem actions_grounded : ∀ t ∈ actionSchemas, t.Grounded (fun _ => False) 2 := by
  have hleaf (name : String) (test : Test) :
      (Schema.irreducible name test).Grounded (fun _ => False) 2 :=
    .of_parts (by simp) (by simp) (by simp [Schema.components])
  have hlate {slot : Nat} (h : slot < 2) : (Schema.late slot).Grounded (fun _ => False) 2 :=
    .intro (by simp) (fun _ heq => Schema.late.inj heq ▸ h) (by simp [Schema.components])
  have hcallable : (Schema.refinement (.irreducible "Any" .anything)
      (.function (.builtin "callable")) none).Grounded (fun _ => False) 2 :=
    .of_parts (by simp) (by simp) (by simpa [Schema.components] using hleaf "Any" .anything)
  have hunion : (Schema.union [.refinement (.irreducible "Any" .anything)
      (.function (.builtin "callable")) none, .late 0] none).Grounded (fun _ => False) 2 :=
    .of_parts (by simp) (by simp)
      (by simpa [Schema.components] using ⟨hcallable, hlate Nat.zero_lt_two⟩)
  have haction : actionSchema.Grounded (fun _ => False) 2 :=
    .of_parts (by simp [actionSchema]) (by simp [actionSchema])
      (by simpa [actionSchema, Schema.components] using hunion)
  have hactions : actionsSchema.Grounded (fun _ => False) 2 :=
    .of_parts (by simp [actionsSchema]) (by simp [actionsSchema])
      (by simpa [actionsSchema, Schema.components] using hlate Nat.one_lt_two)
  simp only [actionSchemas, List.forall_mem_cons]
  exact ⟨hcallable, hlate Nat.zero_lt_two, hunion, haction, hlate Nat.one_lt_two, hactions,
    List.forall_mem_nil _⟩

/-- Actions are guarded: several of them are met only in a list. -/
theorem actionSession_guarded : actionSession.Guarded actionTarget where
  toResolves := by
    refine Session.resolves_of_names fun slot l hl => ?_
    have hslot : slot < 2 := (Array.getElem?_eq_some_iff.1 hl).1
    obtain rfl | rfl : slot = 0 ∨ slot = 1 := by omega
    · obtain rfl := Option.some.inj hl
      exact ⟨rfl, "Actions", .model 15, rfl, rfl, 15, rfl, rfl⟩
    · obtain rfl := Option.some.inj hl
      exact ⟨rfl, "Action", .model 13, rfl, rfl, 13, rfl, rfl⟩
  models := by
    intro number t ht
    have hmem : t ∈ (Session.start []).models.toList ++ actionSchemas :=
      List.mem_toArray.1 (Array.mem_of_getElem? ht)
    have hgrounded : t.Grounded (fun _ => False) 2 := by
      rcases List.mem_append.1 hmem with hstart | haction
      · obtain ⟨⟨name, test⟩, -, rfl⟩ : ∃ p ∈ primitives, Schema.irreducible p.1 p.2 = t := by
          simpa [Session.start] using hstart
        exact .of_parts (by simp) (by simp) (by simp [Schema.components])
      · exact actions_grounded t haction
    exact hgrounded.mono fun _ h => h.elim
  targets := by
    intro slot _
    have hgrounded : (actionTarget slot).Grounded (fun _ => False) 2 := by
      unfold actionTarget
      split <;> exact actions_grounded _ (by simp [actionSchemas])
    exact hgrounded.mono fun _ h => h.elim
  named := by
    intro slot _
    unfold actionTarget
    split <;> rfl
  guarded := by
    -- the list type meets no reference with its value, and the other type meets just that one
    have hlist (next : Nat) : ¬ (actionTarget 0).Meets next := by rintro ⟨⟩
    have hother {next : Nat} (h : (actionTarget 1).Meets next) : next = 0 := by
      cases h with
      | maybe h =>
        cases h with
        | union hs h =>
          rcases List.mem_pair.1 hs with rfl | rfl
          · cases h with
            | refinement h => cases h
          · cases h
            rfl
    intro slot hslot hcircle
    obtain rfl | rfl : slot = 0 ∨ slot = 1 := by
      have : slot < 2 := hslot
      omega
    · obtain ⟨next, hnext, -⟩ := Relation.TransGen.head'_iff.1 hcircle
      exact hlist next hnext
    · obtain ⟨next, hnext, hrest⟩ := Relation.TransGen.head'_iff.1 hcircle
      obtain rfl := hother hnext
      rcases Relation.ReflTransGen.cases_head hrest with heq | ⟨next, hnext, -⟩
      · cases heq
      · exact hlist next hnext

/-- The only predicate in the types of actions tells what can be called, and always answers. -/
theorem actions_answering : actionSchema.Answering Sample.world actionTarget := by
  intro base predicate shown hpart
  have hmem : Schema.refinement base predicate shown ∈
      Schema.irreducible "Any" .anything :: actionSchemas := by
    refine hpart.inherited (P := (· ∈ Schema.irreducible "Any" .anything :: actionSchemas))
      (by simp [actionSchemas]) (fun s hs c hc => ?_) fun slot _ => ?_
    · simp only [actionSchemas, actionSchema, actionsSchema, List.mem_cons, List.not_mem_nil,
        or_false] at hs
      rcases hs with rfl | rfl | rfl | rfl | rfl | rfl | rfl
      all_goals
        simp only [Schema.components, List.mem_cons, List.not_mem_nil, or_false] at hc
      all_goals try rcases hc with rfl | rfl
      all_goals simp [actionSchemas]
    · unfold actionTarget
      split <;> simp [actionSchemas]
  obtain ⟨-, rfl, -⟩ : base = .irreducible "Any" .anything ∧
      predicate = .function (.builtin "callable") ∧ shown = none := by
    simpa [actionSchemas, actionSchema, actionsSchema] using hmem
  exact fun v => ⟨_, rfl⟩

/-- The check of a list with a function, nothing and a list with a number in it ends, though the
types refer to each other: the number is nothing that is to be done. -/
theorem guarded_checks_end_actions : ∃ found s', actionSession.Checked actionTarget s' ∧
    (Inspection.errors Sample.world (.model 13) (.collection .list [.function (.builtin "callable"),
      .absent, .collection .list [.ofInt 3]]) ["todo"]).run actionSession = (.ok found, s') ∧
    (found = [] ↔ actionSchema.Accepts Sample.world actionTarget (.collection .list
      [.function (.builtin "callable"), .absent, .collection .list [.ofInt 3]])) ∧
    found.map (·.path) = [["todo"]] := by
  have hfit : (Value.collection .list [.function (.builtin "callable"), .absent,
      .collection .list [.ofInt 3]]).Fit (· < actionSession.models.size) := by
    refine .collection ?_
    simp only [List.forall_mem_cons]
    refine ⟨.function _, .constant _, .collection ?_, nofun⟩
    simp only [List.forall_mem_cons]
    exact ⟨.constant _, nofun⟩
  obtain ⟨found, s', hrun, hpaths⟩ : ∃ found s', (Inspection.errors Sample.world (.model 13)
      (.collection .list [.function (.builtin "callable"), .absent,
        .collection .list [.ofInt 3]]) ["todo"]).run actionSession = (.ok found, s') ∧
      found.map (·.path) = [["todo"]] := ⟨_, _, rfl, rfl⟩
  obtain ⟨s'', hs'', ⟨found', hrun', hverdict⟩ | ⟨e, -, herror⟩ | ⟨-, herror⟩⟩ :=
    Session.guarded_checks_end actionSession_guarded actionSession_guarded.checked
      ⟨13, rfl, rfl⟩ actions_answering hfit ["todo"]
  · obtain ⟨heq, -⟩ := Prod.mk.inj (hrun.symm.trans hrun')
    obtain rfl := Except.ok.inj heq
    exact ⟨found, s'', hs'', hrun', hverdict, hpaths⟩
  all_goals
    rw [hrun] at herror
    cases herror

end Typeward
