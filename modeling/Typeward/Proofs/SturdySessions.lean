import Typeward.Proofs.EndingChecks
import Typeward.Proofs.SturdyCode

/-!
# Sessions in which nothing that is looked up is missing

While values are checked, the runtime library looks up the containers of list types and the elements
of tuple types of any length. In a sturdy session all types provide these, and so do all types that
its late references lead to, because the code of these is sturdy. A safe step keeps a session
sturdy, whatever comes of it, and misses nothing that is looked up; it may raise anything else.
Names and texts are made by safe steps, and values are checked by safe steps.
-/

namespace Typeward

/-- What is raised where something that the library looks up is missing. -/
def Raised.IsLookup : Raised → Prop
  | .unknownContainer _ | .noElement => True
  | _ => False

/-- Nothing that is looked up is missing, unless this is what a predicate of the program raises. -/
def World.Allows (world : World) (e : Raised) : Prop :=
  e.IsLookup → ∃ predicate v, world.holds predicate v = .error e

/-- What is looked up for a type and for the types in it is there. -/
inductive Schema.Sturdy : Schema → Prop
  | intro {s} (hown : s.Provides) (hparts : ∀ c ∈ s.components, Sturdy c) : Sturdy s

/-- What is looked up for the types in a type is there. -/
theorem Schema.Sturdy.part {s : Schema} (h : s.Sturdy) : ∀ c ∈ s.components, c.Sturdy := by
  cases h with
  | intro _ hparts => exact hparts

/-- What is looked up for a type on its own is there if it is for the whole of it. -/
theorem Schema.Sturdy.provides {s : Schema} (h : s.Sturdy) : s.Provides := by
  cases h with
  | intro hown _ => exact hown

/-- What is looked up is there for all types in a session, and for those that come of its code. -/
structure Session.Sturdy (s : Session) : Prop where
  models : ∀ (number : Nat) (t : Schema), s.models[number]? = some t → t.Sturdy
  slots : ∀ (slot : Nat) (l : Slot), s.slots[slot]? = some l → l.body.Sturdy

variable {α : Type} {world : World}

/-- From a sturdy session, a step ends in a sturdy one, and misses nothing that is looked up. What
it answers is as told. -/
abbrev Guards (world : World) (step : Run α) (P : α → Prop) : Prop :=
  Ends Session.Sturdy world.Allows step P

/-- A step ends in a sturdy session and misses nothing that is looked up. -/
abbrev Safe (world : World) (step : Run α) : Prop := Finishes Session.Sturdy world.Allows step

/-- A step may raise something else than that a lookup fails. -/
theorem Guards.raise {P : α → Prop} {e : Raised} (h : ¬ e.IsLookup) :
    Guards world (throw e : Run α) P :=
  .throw fun hlookup => absurd hlookup h

section Texts

variable {modelText : Nat → Run String}

/-- It is no lookup that fails where a text is missing. -/
theorem safe_orUnfit (text : Option String) : Safe world (Value.orUnfit text) :=
  finishes_orUnfit fun _ hlookup => hlookup.elim

mutual

/-- The text of a value is made by a safe step if those of the types in it are. -/
theorem safe_textWith (h : ∀ n, Safe world (modelText n)) :
    (v : Value) → Safe world (v.textWith modelText)
  | .collection _ items => (safe_textsWith h items).map _
  | .mapping _ entries => (safe_entryTextsWith h entries).map _
  | .derived _ content => safe_textWith h content
  | .model number => h number
  | .constant c => safe_orUnfit c.literal
  | .range first stop step => safe_orUnfit (Value.rangeText first stop step)
  | .byteArray _ | .function _ | .ofClass _ | .object _ => .pure trivial

/-- The texts of several values are made by a safe step. -/
theorem safe_textsWith (h : ∀ n, Safe world (modelText n)) :
    (vs : List Value) → Safe world (Value.textsWith modelText vs)
  | [] => .pure trivial
  | v :: rest => (safe_textWith h v).after fun _ => (safe_textsWith h rest).map _

/-- The texts of entries are made by a safe step. -/
theorem safe_entryTextsWith (h : ∀ n, Safe world (modelText n)) :
    (entries : List (Value × Value)) → Safe world (Value.entryTextsWith modelText entries)
  | [] => .pure trivial
  | (k, v) :: rest =>
    (safe_textWith h k).after fun _ =>
      (safe_textWith h v).after fun _ => (safe_entryTextsWith h rest).map _

end

end Texts

/-- The name of a type is made by a safe step if those of late references and the texts of values
are. -/
theorem safe_nameWith {late : Nat → Run String} {text : Value → Run String}
    (hlate : ∀ slot, Safe world (late slot)) (htext : ∀ v, Safe world (text v)) (s : Schema) :
    Safe world (s.nameWith late text) := by
  induction s using Schema.induction_components with
  | h s ih =>
    exact Schema.finishes_nameWith (fun _ => ih) (fun value _ _ _ => htext value)
      fun slot _ => hlate slot

/-- Surroundings in which late references lead to types for which what is looked up is there, and
types are shown, all by safe steps. -/
structure Surroundings.Secure (cx : Surroundings Run) : Prop where
  resolve : ∀ slot, Guards cx.world (cx.resolve slot) Schema.Sturdy
  modelText : ∀ number, Safe cx.world (cx.modelText number)

namespace Surroundings

variable {cx : Surroundings Run} {late : Nat → Value → List String → Run (List Mismatch)}

namespace Secure

/-- The text of a value is made by a safe step. -/
theorem valueText (h : cx.Secure) (v : Value) : Safe cx.world (cx.valueText v) :=
  safe_textWith h.modelText v

/-- Nothing that is looked up is missing where a name comes back to itself. -/
theorem allows_endless : world.Allows .endless := nofun

/-- The name of a late reference is made by a safe step. -/
theorem lateName (h : cx.Secure) (fuel slot : Nat) : Safe cx.world (cx.lateName fuel slot) := by
  induction fuel generalizing slot with
  | zero => exact .throw allows_endless
  | succ fuel ih => exact (h.resolve slot).after fun s => safe_nameWith ih h.valueText s

/-- The name of a type is made by a safe step. -/
theorem name (h : cx.Secure) (s : Schema) : Safe cx.world (cx.name s) :=
  safe_nameWith (h.lateName cx.slotCount) h.valueText s

/-- The step to a part is written in a path by a safe step. -/
theorem segments (h : cx.Secure) (step : Option Step) : Safe cx.world (cx.segments step) := by
  unfold Surroundings.segments
  split
  · exact .pure trivial
  · exact .pure trivial
  · exact (h.valueText _).map _
  · exact (finishes_bareTextWith (h.valueText _)).map _
  · exact .pure trivial

/-- What checks do is safe if what is looked up for their types is there. -/
theorem ending (h : cx.Secure) :
    cx.Ending Session.Sturdy cx.world.Allows fun s _ => s.Sturdy where
  inherited := .of_types fun _ hs => hs.part
  fails hs hcourse := absurd hcourse hs.provides.course_ne_fail
  holds _ hholds _ := ⟨_, _, hholds⟩
  reject _ _ := finishes_reject (h.valueText _) (h.name _)
  segments _ _ := h.segments _

/-- A check is safe if what is looked up is there and late references are followed by safe steps. -/
theorem errorsWith (h : cx.Secure) (hlate : ∀ slot v path, Safe cx.world (late slot v path))
    {s : Schema} (hs : s.Sturdy) (v : Value) (path : List String) :
    Safe cx.world (cx.errorsWith late s v path) :=
  h.ending.finishes_errorsWith s v path hs fun slot x _ _ => hlate slot x

/-- A late reference is followed by safe steps. -/
theorem lateErrors (h : cx.Secure) (fuel slot : Nat) (v : Value) (path : List String) :
    Safe cx.world (cx.lateErrors fuel slot v path) := by
  induction fuel generalizing slot v path with
  | zero => exact .throw allows_endless
  | succ fuel ih => exact (h.resolve slot).bind fun s hs => h.errorsWith ih hs v path

/-- A check is safe if what is looked up for its type is there. -/
theorem errors (h : cx.Secure) {s : Schema} (hs : s.Sturdy) (v : Value) (path : List String) :
    Safe cx.world (cx.errors s v path) :=
  h.errorsWith (h.lateErrors _) hs v path

end Secure

end Surroundings

end Typeward
