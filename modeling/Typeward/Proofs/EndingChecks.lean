import Typeward.Proofs.AlikeChecks
import Typeward.Proofs.Steps

/-!
# Checks that come to an end

A text, a name or a check is made of steps of a session. It ends if they do, and it raises nothing but
what they may raise. What is left to show of a check is that its late references come to an end: a
reference is met with a value of some depth; each time that the value gets less deep there is room for
as many references as there are slots, and in between the ranks of the references decrease.
-/

namespace Typeward

/-- Everything that follows according to a relation among so many numbers comes to an end: there are
ranks that decrease along it. -/
def Ranked (count : Nat) (Leads : Nat → Nat → Prop) : Prop :=
  ∃ rank : Nat → Nat, ∀ i < count, rank i < count ∧ ∀ j, Leads i j → rank j < rank i

variable {I : Session → Prop} {Told : Raised → Prop}

section Texts

variable {modelText : Nat → Run String}

/-- A text is written, unless it is missing. -/
theorem finishes_orUnfit {text : Option String} (h : text = none → Told .unfitValue) :
    Finishes I Told (Value.orUnfit text) := by
  cases text with
  | none => exact .throw (h rfl)
  | some text => exact .pure trivial

/-- The texts of values are made if each of them is. -/
theorem finishes_textsWith {vs : List Value}
    (h : ∀ v ∈ vs, Finishes I Told (v.textWith modelText)) :
    Finishes I Told (Value.textsWith modelText vs) := by
  induction vs with
  | nil => exact .pure trivial
  | cons v rest ih =>
    refine (h v List.mem_cons_self).after fun first => ?_
    exact (ih fun w hw => h w (List.mem_cons_of_mem _ hw)).map _

/-- The texts of entries are made if those of each key and each value are. -/
theorem finishes_entryTextsWith {entries : List (Value × Value)}
    (hkeys : ∀ e ∈ entries, Finishes I Told (e.1.textWith modelText))
    (hvalues : ∀ e ∈ entries, Finishes I Told (e.2.textWith modelText)) :
    Finishes I Told (Value.entryTextsWith modelText entries) := by
  induction entries with
  | nil => exact .pure trivial
  | cons e rest ih =>
    refine (hkeys e List.mem_cons_self).after fun key => ?_
    refine (hvalues e List.mem_cons_self).after fun value => ?_
    exact (ih (fun x hx => hkeys x (List.mem_cons_of_mem _ hx))
      fun x hx => hvalues x (List.mem_cons_of_mem _ hx)).map _

/-- The text of a value as part of a path is made if its text is. -/
theorem finishes_bareTextWith {v : Value} (h : Finishes I Told (v.textWith modelText)) :
    Finishes I Told (v.bareTextWith modelText) := by
  unfold Value.bareTextWith
  split
  · exact .pure trivial
  · exact h

end Texts

namespace Schema

variable {late : Nat → Run String} {text : Value → Run String} {s : Schema}

/-- A name is shown if it need not be made or is made. -/
theorem finishes_displayOr {shown : Option String} {default : Run String}
    (h : shown.filter (· ≠ "") = none → Finishes I Told default) :
    Finishes I Told (displayOr shown default) := by
  unfold displayOr
  split
  · exact .pure trivial
  · rename_i hnone
    exact h hnone

/-- Names are made if each of them is. -/
theorem finishes_namesWith {members : List Schema}
    (h : ∀ s ∈ members, Finishes I Told (s.nameWith late text)) :
    Finishes I Told (namesWith late text members) := by
  induction members with
  | nil => exact .pure trivial
  | cons s rest ih =>
    refine (h s List.mem_cons_self).after fun first => ?_
    exact (ih fun c hc => h c (List.mem_cons_of_mem _ hc)).map _

/-- The names of properties are made if each of them is. -/
theorem finishes_propertyNamesWith {props : List (String × Schema)}
    (h : ∀ p ∈ props, Finishes I Told (p.2.nameWith late text)) :
    Finishes I Told (propertyNamesWith late text props) := by
  induction props with
  | nil => exact .pure trivial
  | cons p rest ih =>
    refine (h p List.mem_cons_self).after fun first => ?_
    exact (ih fun c hc => h c (List.mem_cons_of_mem _ hc)).map _

/-- The name of a type is made if those of the types in it are, which are asked for only if it has no
display name. -/
theorem finishes_nameWith
    (hparts : s.shown? = none → ∀ c ∈ s.components, Finishes I Told (c.nameWith late text))
    (htext : ∀ value shown, s = .literal value shown → s.shown? = none → Finishes I Told (text value))
    (hlate : ∀ slot, s = .late slot → Finishes I Told (late slot)) :
    Finishes I Told (s.nameWith late text) := by
  cases s with
  | irreducible name test => exact .pure trivial
  | maybe inner shown =>
    exact finishes_displayOr fun hshown => (hparts hshown inner (by simp [components])).map _
  | list element container shown =>
    exact finishes_displayOr fun hshown => (hparts hshown element (by simp [components])).map _
  | dict key value shown =>
    refine finishes_displayOr fun hshown => ?_
    refine (hparts hshown key (by simp [components])).after fun _ => ?_
    exact (hparts hshown value (by simp [components])).map _
  | interface props shown =>
    refine finishes_displayOr fun hshown => (finishes_propertyNamesWith fun p hp => ?_).map _
    exact hparts hshown p.2 (List.mem_map_of_mem hp)
  | union members shown =>
    exact finishes_displayOr fun hshown => (finishes_namesWith (hparts hshown)).map _
  | intersection members shown =>
    exact finishes_displayOr fun hshown => (finishes_namesWith (hparts hshown)).map _
  | refinement base predicate shown =>
    exact finishes_displayOr fun hshown => (hparts hshown base (by simp [components])).map _
  | tuple elements isVariadic shown =>
    exact finishes_displayOr fun hshown => (finishes_namesWith (hparts hshown)).map _
  | func params result shown =>
    have hresult (hshown : shown.filter (· ≠ "") = none) :
        Finishes I Told (result.nameWith late text) := hparts hshown result (by simp [components])
    cases params with
    | none => exact finishes_displayOr fun hshown => (hresult hshown).map _
    | some params =>
      refine finishes_displayOr fun hshown => ?_
      have hparams : ∀ p ∈ params, Finishes I Told (p.nameWith late text) :=
        fun p hp => hparts hshown p (by simp [components, hp])
      exact (finishes_namesWith hparams).after fun _ => (hresult hshown).map _
  | literal value shown => exact finishes_displayOr (htext value shown rfl)
  | late slot => exact hlate slot rfl

/-- A type with a display name is shown by it. -/
theorem finishes_nameWith_of_shown (h : s.shown?.isSome = true) :
    Finishes I Told (s.nameWith late text) := by
  have hshown : s.shown? ≠ none := Option.isSome_iff_ne_none.1 h
  refine finishes_nameWith (fun hnone => absurd hnone hshown)
    (fun _ _ _ hnone => absurd hnone hshown) ?_
  rintro slot rfl
  exact absurd rfl hshown

/-- The name of a type is made if the texts of the literals in it are, and the names of the late
references that it shows. -/
theorem Grounded.finishes_nameWith {slotCount : Nat}
    (hs : s.Grounded (fun v => Finishes I Told (text v)) slotCount)
    (hlate : ∀ slot, s.Cites slot → Finishes I Told (late slot)) :
    Finishes I Told (s.nameWith late text) := by
  induction hs with
  | @intro s hliteral hslot hparts ih =>
    refine Schema.finishes_nameWith (fun hshown c hc => ?_)
      (fun value shown heq _ => hliteral value shown heq) fun slot heq => ?_
    · exact ih c hc fun slot hcites => hlate slot (.part hshown hc hcites)
    · exact hlate slot (heq ▸ .late)

end Schema

namespace Surroundings

variable {cx : Surroundings Run} {late : Nat → Value → List String → Run (List Mismatch)}
  {path : List String} {v : Value}

/-- A type can reject a value if both can be shown. -/
theorem finishes_reject {s : Schema} (htext : Finishes I Told (cx.valueText v))
    (hname : Finishes I Told (cx.name s)) : Finishes I Told (cx.reject s v path) :=
  htext.after fun _ => hname.map _

/-- Checks of parts end if each of them does. -/
theorem finishes_errorsOfParts {checks : List PartCheck}
    (hsegments : ∀ p ∈ checks, Finishes I Told (cx.segments p.step))
    (hchecks : ∀ p ∈ checks, ∀ path, Finishes I Told (cx.errorsWith late p.type p.value path)) :
    Finishes I Told (cx.errorsOfParts late path checks) := by
  induction checks with
  | nil => exact .pure trivial
  | cons p rest ih =>
    refine (hsegments p List.mem_cons_self).after fun segments => ?_
    refine (hchecks p List.mem_cons_self _).after fun first => ?_
    exact (ih (fun q hq => hsegments q (List.mem_cons_of_mem _ hq))
      fun q hq => hchecks q (List.mem_cons_of_mem _ hq)).map _

/-- Members are tried to the end if each check of them ends. -/
theorem finishes_someAccepts {members : List Schema}
    (h : ∀ c ∈ members, Finishes I Told (cx.errorsWith late c v path)) :
    Finishes I Told (cx.someAccepts late members v path) := by
  induction members with
  | nil => exact .pure trivial
  | cons c rest ih =>
    rw [someAccepts]
    refine (h c List.mem_cons_self).after fun found => ?_
    split
    · exact .pure trivial
    · exact ih fun c hc => h c (List.mem_cons_of_mem _ hc)

/-- All that checks in question do besides following late references ends. -/
structure Ending (cx : Surroundings Run) (I : Session → Prop) (Told : Raised → Prop)
    (On : Schema → Value → Prop) : Prop where
  inherited : Inherited cx.world On
  fails : ∀ {s v e}, On s v → s.course cx.world v = .fail e → Told e
  holds : ∀ {base predicate shown v e}, On (.refinement base predicate shown) v →
    cx.world.holds predicate v = .error e → Told e
  reject : ∀ {s v}, On s v → ∀ path, Finishes I Told (cx.reject s v path)
  segments : ∀ {s v step x}, On s v → v.StepsTo step x → Finishes I Told (cx.segments (some step))

variable {On : Schema → Value → Prop} {target : Nat → Schema} {s : Schema}

/-- A check ends if the late references do that it follows with its value, and all do with values
that are nested less deep. -/
theorem Ending.finishes_errorsWith (h : cx.Ending I Told On) (s : Schema) : ∀ v path, On s v →
    (∀ slot x, On (.late slot) x → s.Meets slot ∧ x = v ∨ x.depth < v.depth → ∀ path,
      Finishes I Told (late slot x path)) →
    Finishes I Told (cx.errorsWith late s v path) := by
  induction s using Schema.induction_components with
  | h s ih =>
    intro v path hon hlate
    have hrequire (condition : Bool) : Finishes I Told (cx.require condition s v path) := by
      cases condition with
      | true => exact .pure trivial
      | false => exact h.reject hon path
    -- with the same value, a part meets no references but those of the whole type
    have hsame (c : Schema) (hc : c ∈ s.components) (honPart : On c v)
        (hmeets : ∀ slot, c.Meets slot → s.Meets slot) (path : List String) :
        Finishes I Told (cx.errorsWith late c v path) :=
      ih c hc v path honPart fun slot x hx hcase =>
        hlate slot x hx (hcase.imp_left fun hmet => ⟨hmeets slot hmet.1, hmet.2⟩)
    rw [errorsWith_eq]
    cases hcourse : s.course cx.world v with
    | fail e => exact .throw (h.fails hon hcourse)
    | reject => exact h.reject hon path
    | parts checks =>
      refine finishes_errorsOfParts (fun p hp => ?_) fun p hp path => ?_
      · obtain ⟨-, hof⟩ := Schema.mem_components_of_parts hcourse hp
        obtain ⟨step, type, x⟩ := p
        cases step with
        | none => exact .pure trivial
        | some step => exact h.segments hon hof
      · obtain ⟨hc, hof⟩ := Schema.mem_components_of_parts hcourse hp
        have honPart := h.inherited.part hon hcourse hp
        have hmeets (slot : Nat) (hwhole : p.step = none) (hslot : p.type.Meets slot) :
            s.Meets slot := Schema.meets_of_parts hcourse hp hwhole hslot
        obtain ⟨step, type, x⟩ := p
        cases step with
        | none =>
          obtain rfl : x = v := hof
          exact hsame type hc honPart (fun slot => hmeets slot rfl) path
        | some step =>
          have hdepth := (show v.StepsTo step x from hof).content.depth_lt
          refine ih type hc x path honPart fun slot y hy hcase => hlate slot y hy (.inr ?_)
          rcases hcase with ⟨-, rfl⟩ | hlt
          · exact hdepth
          · exact Nat.lt_trans hlt hdepth
    | union members =>
      have hmember := fun c => h.inherited.member (c := c) hon hcourse
      obtain ⟨shown, rfl⟩ := Schema.exists_eq_union hcourse
      refine (finishes_someAccepts fun c hc => ?_).after fun accepted => ?_
      · exact hsame c hc (hmember c hc) (fun slot => .union hc) path
      · cases accepted with
        | true => exact .pure trivial
        | false => exact h.reject hon path
    | refinement base predicate =>
      have honBase := h.inherited.base hon hcourse
      obtain ⟨shown, rfl⟩ := Schema.exists_eq_refinement hcourse
      refine (hsame base List.mem_cons_self honBase (fun slot => .refinement) path).after
        fun found => ?_
      cases found with
      | cons e rest => exact .pure trivial
      | nil =>
        dsimp only
        cases hholds : cx.world.holds predicate v with
        | error e => exact .throw (h.holds hon hholds)
        | ok holds => exact hrequire holds
    | late slot =>
      obtain rfl := Schema.eq_late hcourse
      exact hlate slot v hon (.inl ⟨.late, rfl⟩) path

/-- Checks in question come to an end: late references, which are among so many, lead to types that
are in question, too, and those that are followed with the same value come to an end. -/
structure Terminating (cx : Surroundings Run) (I : Session → Prop) (Told : Raised → Prop)
    (target : Nat → Schema) (count : Nat) (On : Schema → Value → Prop) : Prop
    extends cx.Ending I Told On where
  slots : count ≤ cx.slotCount
  lt : ∀ {slot v}, On (.late slot) v → slot < count
  resolves : ∀ slot < count, Ensures I (cx.resolve slot) (· = target slot)
  follows : ∀ {slot v}, On (.late slot) v → On (target slot) v
  meets : Ranked count fun slot next => (target slot).Meets next

variable {count : Nat}

/-- A late reference comes to an end if enough references may be followed for its rank and for the
depth of the value. -/
theorem Terminating.finishes_lateErrors (h : cx.Terminating I Told target count On)
    {rank : Nat → Nat} (hrank : ∀ slot < count, rank slot < count ∧
      ∀ next, (target slot).Meets next → rank next < rank slot) :
    ∀ fuel slot v, On (.late slot) v → v.depth * cx.slotCount + rank slot < fuel → ∀ path,
      Finishes I Told (cx.lateErrors fuel slot v path) := by
  have hslots := h.slots
  intro fuel
  induction fuel with
  | zero => intro slot v _ hfuel; omega
  | succ fuel ih =>
    intro slot v hon hfuel path
    refine (h.resolves slot (h.lt hon)).ends.bind fun t ht => ?_
    subst ht
    refine h.finishes_errorsWith _ v path (h.follows hon) fun next x hx hcase => ih next x hx ?_
    rcases hcase with ⟨hmeets, rfl⟩ | hdepth
    · have hless := (hrank slot (h.lt hon)).2 next hmeets
      omega
    · have hless := (hrank next (h.lt hx)).1
      have hmul : (x.depth + 1) * cx.slotCount ≤ v.depth * cx.slotCount :=
        Nat.mul_le_mul_right _ hdepth
      rw [Nat.succ_mul] at hmul
      omega

/-- A check in question ends. -/
theorem Terminating.finishes_errors (h : cx.Terminating I Told target count On) (hon : On s v) :
    Finishes I Told (cx.errors s v path) := by
  obtain ⟨rank, hrank⟩ := h.meets
  refine h.finishes_errorsWith s v path hon fun slot x hx hcase => ?_
  have hdepth : x.depth ≤ v.depth := by
    rcases hcase with ⟨-, rfl⟩ | hlt
    · exact Nat.le_refl _
    · exact Nat.le_of_lt hlt
  have hless := (hrank slot (h.lt hx)).1
  have hslots := h.slots
  have hmul : x.depth * cx.slotCount ≤ v.depth * cx.slotCount := Nat.mul_le_mul_right _ hdepth
  refine h.finishes_lateErrors hrank _ slot x hx ?_
  rw [Nat.succ_mul]
  omega

end Surroundings

end Typeward
