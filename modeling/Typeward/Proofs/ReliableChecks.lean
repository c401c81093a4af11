import Typeward.Proofs.EndingChecks
import Typeward.Proofs.OverlongIntegers

/-!
# Checks in reliable surroundings

A check of a value that can occur against a type that makes sense ends. The surroundings of the check
must be reliable: each late reference leads to one type, whenever it is followed, and following
references without going down in the value, or for the name of a type, comes to an end. All that can
be raised then is that an integer is too long to be shown.
-/

namespace Typeward

variable {I : Session → Prop} {Told : Raised → Prop}

namespace Surroundings

/-- A runtime type can be shown. -/
abbrev Shows (cx : Surroundings Run) (I : Session → Prop) (number : Nat) : Prop :=
  Succeeds I (cx.modelText number)

/-- A type can be checked and shown in surroundings. -/
abbrev Covers (cx : Surroundings Run) (I : Session → Prop) (s : Schema) : Prop :=
  s.Proper cx.world (Value.Fit (cx.Shows I)) cx.slotCount

/-- Late references lead to types that can be checked and shown, and come to an end. -/
structure Reliable (cx : Surroundings Run) (I : Session → Prop) (target : Nat → Schema) :
    Prop where
  resolves : ∀ slot < cx.slotCount, Ensures I (cx.resolve slot) (· = target slot)
  covers : ∀ slot < cx.slotCount, cx.Covers I (target slot)
  /-- Checks come to an end. -/
  meets : Ranked cx.slotCount fun slot next => (target slot).Meets next
  /-- Names come to an end. -/
  cites : Ranked cx.slotCount fun slot next => (target slot).Cites next

end Surroundings

variable {Shows : Nat → Prop}

/-- A value can occur, and if it holds an integer that is too long, this may be raised. -/
structure Value.Tellable (Shows : Nat → Prop) (Told : Raised → Prop) (v : Value) : Prop where
  fit : v.Fit Shows
  overlong : v.HoldsOverlong → Told .unfitValue

/-- So it is with what the value contains. -/
theorem Value.Tellable.content {v x : Value} (h : v.Tellable Shows Told) (hx : v.Content x) :
    x.Tellable Shows Told :=
  ⟨hx.fit h.fit, fun hlong => h.overlong (hx.holdsOverlong hlong)⟩

/-- The text of such a value is made, or that is raised, if those of runtime types are. -/
theorem Value.Tellable.finishes_textWith {modelText : Nat → Run String} {v : Value}
    (h : v.Tellable Shows Told) (hshows : ∀ n, Shows n → Finishes I Told (modelText n)) :
    Finishes I Told (v.textWith modelText) := by
  obtain ⟨hfit, hlong⟩ := h
  induction hfit with
  | collection _ ih =>
    exact (finishes_textsWith fun x hx => ih x hx fun h => hlong (.element hx h)).map _
  | mapping _ _ ihkeys ihvalues =>
    exact (finishes_entryTextsWith (fun e he => ihkeys e he fun h => hlong (.key he h))
      fun e he => ihvalues e he fun h => hlong (.entry he h)).map _
  | derived _ _ ih => exact ih fun h => hlong (.content h)
  | model hn => exact hshows _ hn
  | constant c => exact finishes_orUnfit fun h => hlong (holdsOverlong_of_literal h)
  | range => exact finishes_orUnfit fun h => hlong (holdsOverlong_of_rangeText h)
  | _ => exact .pure trivial

/-- The values of literals in a type can occur, and if they hold an integer that is too long, this may
be raised. -/
theorem Schema.Grounded.tellable {target : Nat → Schema} {s : Schema} {slotCount : Nat}
    (hs : s.Grounded (Value.Fit Shows) slotCount)
    (hlong : s.HoldsOverlong target → Told .unfitValue) :
    s.Grounded (Value.Tellable Shows Told) slotCount := by
  induction hs with
  | @intro s hliteral hslot _ ih =>
    refine ⟨fun value shown heq => ⟨hliteral value shown heq, fun h => hlong ?_⟩, hslot,
      fun c hc => ih c hc fun h => hlong (h.of_part (.component hc .self))⟩
    exact ⟨value, shown, heq ▸ .self, h⟩

namespace Surroundings

variable {cx : Surroundings Run} {target : Nat → Schema} {s : Schema} {v : Value}
  {path : List String}

/-- A step to a part of a value that can be shown can be written in a path. -/
theorem finishes_stepsTo {step : Step} {x : Value}
    (htext : ∀ x : Value, x.Tellable Shows Told → Finishes I Told (cx.valueText x))
    (hv : v.Tellable Shows Told) (hstep : v.StepsTo step x) :
    Finishes I Told (cx.segments (some step)) := by
  cases hstep with
  | element | tuple | property => exact .pure trivial
  | key hentries he =>
    exact (htext _ (hv.content (Value.StepsTo.key hentries he).content)).map _
  | entry hentries he =>
    have hkey := hv.content (Value.StepsTo.key hentries he).content
    exact (finishes_bareTextWith (htext _ hkey)).map _

namespace Reliable

/-- A value that can occur can be shown, up to integers. -/
theorem finishes_valueText (hv : v.Tellable (cx.Shows I) Told) : Finishes I Told (cx.valueText v) :=
  hv.finishes_textWith fun _ hn => hn.ends

/-- A late reference can be named if enough references may be followed for its rank. -/
theorem finishes_lateName (h : cx.Reliable I target) {rank : Nat → Nat}
    (hrank : ∀ slot < cx.slotCount, rank slot < cx.slotCount ∧
      ∀ next, (target slot).Cites next → rank next < rank slot) :
    ∀ fuel, ∀ slot < cx.slotCount, ((target slot).HoldsOverlong target → Told .unfitValue) →
      rank slot < fuel → Finishes I Told (cx.lateName fuel slot) := by
  intro fuel
  induction fuel with
  | zero => intro slot _ _ hfuel; omega
  | succ fuel ih =>
    intro slot hslot hlong hfuel
    refine (h.resolves slot hslot).ends.bind fun t ht => ?_
    subst ht
    have hgrounded := (h.covers slot hslot).grounded.tellable hlong
    refine (hgrounded.mono fun _ => finishes_valueText).finishes_nameWith fun next hnext => ?_
    have hlt := (hrank slot hslot).2 next hnext
    refine ih next ((h.covers slot hslot).grounded.lt_of_cites hnext) (fun hnextLong => hlong ?_) (by omega)
    exact hnextLong.of_part (Schema.IsPartOf.trans (.late .self) hnext.isPartOf)

/-- A type can be named, up to integers. -/
theorem finishes_name (h : cx.Reliable I target) (hs : cx.Covers I s)
    (hlong : s.HoldsOverlong target → Told .unfitValue) : Finishes I Told (cx.name s) := by
  obtain ⟨rank, hrank⟩ := h.cites
  refine ((hs.grounded.tellable hlong).mono fun _ => finishes_valueText).finishes_nameWith
    fun slot hslot => ?_
  have hlt := hs.grounded.lt_of_cites hslot
  refine h.finishes_lateName hrank _ slot hlt (fun hlate => hlong ?_) (hrank slot hlt).1
  exact hlate.of_part (Schema.IsPartOf.trans (.late .self) hslot.isPartOf)

/-- Checks come to an end of values that can occur against types that make sense. -/
theorem terminating (h : cx.Reliable I target) :
    cx.Terminating I Told target cx.slotCount fun s v =>
      (cx.Covers I s ∧ (s.HoldsOverlong target → Told .unfitValue)) ∧
        v.Tellable (cx.Shows I) Told where
  inherited := by
    refine .of_parts (fun s hs c hc => ⟨hs.1.part hc, fun h => hs.2 ?_⟩)
      fun _ _ _ hv hstep => hv.content hstep.content
    exact h.of_part (.component hc .self)
  fails hon hcourse := absurd hcourse hon.1.1.provides.course_ne_fail
  holds hon hholds := by
    obtain ⟨b, hb⟩ := hon.1.1.answers _
    rw [hholds] at hb
    cases hb
  reject hon _ := finishes_reject (finishes_valueText hon.2) (h.finishes_name hon.1.1 hon.1.2)
  segments hon hstep := finishes_stepsTo (fun _ => finishes_valueText) hon.2 hstep
  slots := Nat.le_refl _
  lt hon := hon.1.1.grounded.lt
  resolves := h.resolves
  follows hon := ⟨⟨h.covers _ hon.1.1.grounded.lt, fun hlong => hon.1.2 (hlong.of_part (.late .self))⟩,
    hon.2⟩
  meets := h.meets

/-- A check of a value that can occur against a type that makes sense ends, and raises at most that
an integer in the value or in the type is too long. -/
theorem finishes_errors (h : cx.Reliable I target) (hs : cx.Covers I s)
    (hv : v.Fit (cx.Shows I)) :
    Finishes I (fun e => e = .unfitValue ∧ s.MeetsOverlong target v) (cx.errors s v path) :=
  h.terminating.finishes_errors
    ⟨⟨hs, fun hlong => ⟨rfl, .inr hlong⟩⟩, hv, fun hlong => ⟨rfl, .inl hlong⟩⟩

end Reliable

end Surroundings

end Typeward
