import Typeward.Proofs.Courses

/-!
# Types of one form

Two types of one form are alike in everything but the types that they are made of. A check of a value
against the one takes the same course as against the other, and goes on with the same parts of the
value, against the types that correspond.
-/

namespace Typeward

namespace Schema

/-- Two types are of one form, and their parts are related one by one. -/
inductive Parallel (R : Schema → Schema → Prop) : Schema → Schema → Prop
  | irreducible (name : String) (test : Test) :
      Parallel R (.irreducible name test) (.irreducible name test)
  | maybe {a b shown} (h : R a b) : Parallel R (.maybe a shown) (.maybe b shown)
  | list {a b container shown} (h : R a b) :
      Parallel R (.list a container shown) (.list b container shown)
  | dict {a b c d shown} (hkey : R a b) (hvalue : R c d) :
      Parallel R (.dict a c shown) (.dict b d shown)
  | interface {props props' shown}
      (h : List.Forall₂ (fun p q => p.1 = q.1 ∧ R p.2 q.2) props props') :
      Parallel R (.interface props shown) (.interface props' shown)
  | union {members members' shown} (h : List.Forall₂ R members members') :
      Parallel R (.union members shown) (.union members' shown)
  | intersection {members members' shown} (h : List.Forall₂ R members members') :
      Parallel R (.intersection members shown) (.intersection members' shown)
  | refinement {a b predicate shown} (h : R a b) :
      Parallel R (.refinement a predicate shown) (.refinement b predicate shown)
  | tuple {elements elements' isVariadic shown} (h : List.Forall₂ R elements elements') :
      Parallel R (.tuple elements isVariadic shown) (.tuple elements' isVariadic shown)
  /-- Functions that take any arguments. -/
  | anyFunc {a b shown} (h : R a b) : Parallel R (.func none a shown) (.func none b shown)
  | func {params params' a b shown} (hparams : List.Forall₂ R params params') (h : R a b) :
      Parallel R (.func (some params) a shown) (.func (some params') b shown)
  | literal (value : Value) (shown : Option String) :
      Parallel R (.literal value shown) (.literal value shown)
  | late (slot : Nat) : Parallel R (.late slot) (.late slot)

namespace Parallel

variable {R R' : Schema → Schema → Prop} {s s' : Schema}

/-- What relates the parts may be weakened. -/
theorem mono (h : s.Parallel R s') (hR : ∀ a b, R a b → R' a b) : s.Parallel R' s' := by
  cases h with
  | irreducible name test => exact .irreducible name test
  | maybe h => exact .maybe (hR _ _ h)
  | list h => exact .list (hR _ _ h)
  | dict hkey hvalue => exact .dict (hR _ _ hkey) (hR _ _ hvalue)
  | interface h => exact .interface (h.imp fun _ _ hp => ⟨hp.1, hR _ _ hp.2⟩)
  | union h => exact .union (h.imp hR)
  | intersection h => exact .intersection (h.imp hR)
  | refinement h => exact .refinement (hR _ _ h)
  | tuple h => exact .tuple (h.imp hR)
  | anyFunc h => exact .anyFunc (hR _ _ h)
  | func hparams h => exact .func (hparams.imp hR) (hR _ _ h)
  | literal value shown => exact .literal value shown
  | late slot => exact .late slot

/-- The second type is of the form of the first one. -/
theorem flip (h : s.Parallel R s') : s'.Parallel (fun a b => R b a) s := by
  cases h with
  | irreducible name test => exact .irreducible name test
  | maybe h => exact .maybe h
  | list h => exact .list h
  | dict hkey hvalue => exact .dict hkey hvalue
  | interface h => exact .interface (h.flip.imp fun _ _ hp => ⟨hp.1.symm, hp.2⟩)
  | union h => exact .union h.flip
  | intersection h => exact .intersection h.flip
  | refinement h => exact .refinement h
  | tuple h => exact .tuple h.flip
  | anyFunc h => exact .anyFunc h
  | func hparams h => exact .func hparams.flip h
  | literal value shown => exact .literal value shown
  | late slot => exact .late slot

/-- A type is of its own form. -/
theorem refl (s : Schema) (h : ∀ c ∈ s.components, R c c) : s.Parallel R s := by
  have hall {members : List Schema} (h : ∀ c ∈ members, R c c) : List.Forall₂ R members members :=
    List.forall₂_same.2 h
  cases s with
  | irreducible name test => exact .irreducible name test
  | maybe inner shown => exact .maybe (h inner (by simp [components]))
  | list element container shown => exact .list (h element (by simp [components]))
  | dict key value shown =>
    exact .dict (h key (by simp [components])) (h value (by simp [components]))
  | interface props shown =>
    exact .interface (List.forall₂_same.2 fun p hp => ⟨rfl, h p.2 (List.mem_map_of_mem hp)⟩)
  | union members shown => exact .union (hall h)
  | intersection members shown => exact .intersection (hall h)
  | refinement base predicate shown => exact .refinement (h base (by simp [components]))
  | tuple elements isVariadic shown => exact .tuple (hall h)
  | func params result shown =>
    have hresult := h result (by simp [components])
    cases params with
    | none => exact .anyFunc hresult
    | some params => exact .func (hall fun c hc => h c (by simp [components, hc])) hresult
  | literal value shown => exact .literal value shown
  | late slot => exact .late slot

/-- What is related is part of the one type and part of the other one. -/
theorem mem (h : s.Parallel R s') :
    s.Parallel (fun a b => R a b ∧ a ∈ s.components ∧ b ∈ s'.components) s' := by
  have hall {members members' all all' : List Schema} (h : List.Forall₂ R members members')
      (hsub : members ⊆ all) (hsub' : members' ⊆ all') :
      List.Forall₂ (fun a b => R a b ∧ a ∈ all ∧ b ∈ all') members members' := by
    refine List.forall₂_iff_zip.2 ⟨h.length_eq, fun {a b} hab => ?_⟩
    obtain ⟨ha, hb⟩ := List.of_mem_zip hab
    exact ⟨(List.forall₂_iff_zip.1 h).2 hab, hsub ha, hsub' hb⟩
  cases h with
  | irreducible name test => exact .irreducible name test
  | maybe h => exact .maybe ⟨h, by simp [components], by simp [components]⟩
  | list h => exact .list ⟨h, by simp [components], by simp [components]⟩
  | dict hkey hvalue =>
    exact .dict ⟨hkey, by simp [components], by simp [components]⟩
      ⟨hvalue, by simp [components], by simp [components]⟩
  | interface h =>
    refine .interface (List.forall₂_iff_zip.2 ⟨h.length_eq, fun {p q} hpq => ?_⟩)
    obtain ⟨hp, hq⟩ := List.of_mem_zip hpq
    obtain ⟨hkey, hR⟩ := (List.forall₂_iff_zip.1 h).2 hpq
    exact ⟨hkey, hR, List.mem_map_of_mem hp, List.mem_map_of_mem hq⟩
  | union h => exact .union (hall h (fun _ h => h) fun _ h => h)
  | intersection h => exact .intersection (hall h (fun _ h => h) fun _ h => h)
  | refinement h => exact .refinement ⟨h, by simp [components], by simp [components]⟩
  | tuple h => exact .tuple (hall h (fun _ h => h) fun _ h => h)
  | anyFunc h => exact .anyFunc ⟨h, by simp [components], by simp [components]⟩
  | func hparams h =>
    refine .func (hall hparams ?_ ?_) ⟨h, by simp [components], by simp [components]⟩
    all_goals exact List.subset_append_left _ _
  | literal value shown => exact .literal value shown
  | late slot => exact .late slot

/-- Types of one form are of one kind, and made of related types one by one. -/
theorem kind_components (h : s.Parallel R s') :
    s.kind = s'.kind ∧ List.Forall₂ R s.components s'.components := by
  have hprops {props props' : List (String × Schema)}
      (h : List.Forall₂ (fun p q => p.1 = q.1 ∧ R p.2 q.2) props props') :
      List.Forall₂ R (props.map (·.2)) (props'.map (·.2)) := by
    rw [List.forall₂_map_left_iff, List.forall₂_map_right_iff]
    exact h.imp fun _ _ hp => hp.2
  cases h with
  | irreducible | literal | late => exact ⟨rfl, .nil⟩
  | maybe h | list h | refinement h | anyFunc h => exact ⟨rfl, .cons h .nil⟩
  | dict hkey hvalue => exact ⟨rfl, .cons hkey (.cons hvalue .nil)⟩
  | interface h => exact ⟨rfl, hprops h⟩
  | union h | intersection h | tuple h => exact ⟨rfl, h⟩
  | func hparams h => exact ⟨rfl, List.rel_append hparams (.cons h .nil)⟩

end Parallel

end Schema

/-- Two checks are of the same part of a value, against related types. -/
structure PartCheck.Parallel (R : Schema → Schema → Prop) (p q : PartCheck) : Prop where
  step : p.step = q.step
  value : p.value = q.value
  type : R p.type q.type

/-- Two checks go on alike, against related types. -/
inductive Course.Parallel (R : Schema → Schema → Prop) : Course → Course → Prop
  | fail (e : Raised) : Parallel R (.fail e) (.fail e)
  | reject : Parallel R .reject .reject
  | parts {checks checks'} (h : List.Forall₂ (PartCheck.Parallel R) checks checks') :
      Parallel R (.parts checks) (.parts checks')
  | union {members members'} (h : List.Forall₂ R members members') :
      Parallel R (.union members) (.union members')
  | refinement {a b predicate} (h : R a b) :
      Parallel R (.refinement a predicate) (.refinement b predicate)
  | late (slot : Nat) : Parallel R (.late slot) (.late slot)

namespace PartCheck

variable {R : Schema → Schema → Prop}

/-- The same elements are checked against related types. -/
theorem parallel_ofElements {a b : Schema} (h : R a b) (items : List Value) :
    List.Forall₂ (PartCheck.Parallel R) (ofElements a items) (ofElements b items) := by
  refine List.forall₂_iff_get.2 ⟨by simp [ofElements], fun i hi hi' => ?_⟩
  simp only [ofElements, List.get_eq_getElem, List.getElem_mapIdx]
  exact ⟨rfl, rfl, h⟩

/-- The same entries are checked against related types. -/
theorem parallel_ofEntries {a b c d : Schema} (hkey : R a b) (hvalue : R c d)
    (entries : List (Value × Value)) :
    List.Forall₂ (PartCheck.Parallel R) (ofEntries a c entries) (ofEntries b d entries) := by
  induction entries with
  | nil => exact .nil
  | cons e rest ih => exact .cons ⟨rfl, rfl, hkey⟩ (.cons ⟨rfl, rfl, hvalue⟩ ih)

/-- The same properties are checked against related types. -/
theorem parallel_ofProperties {props props' : List (String × Schema)}
    (h : List.Forall₂ (fun p q => p.1 = q.1 ∧ R p.2 q.2) props props')
    (entries : List (Value × Value)) :
    List.Forall₂ (PartCheck.Parallel R) (ofProperties props entries)
      (ofProperties props' entries) := by
  rw [ofProperties, ofProperties, List.forall₂_map_left_iff, List.forall₂_map_right_iff]
  exact h.imp fun p q hp => ⟨by rw [hp.1], by rw [hp.1], hp.2⟩

/-- The elements of a tuple are checked against related types one by one. -/
theorem parallel_ofEach {elements elements' : List Schema} (h : List.Forall₂ R elements elements')
    (items : List Value) :
    List.Forall₂ (PartCheck.Parallel R) (ofEach elements items) (ofEach elements' items) := by
  have hlength := h.length_eq
  refine List.forall₂_iff_get.2 ⟨by simp [ofEach, hlength], fun i hi hi' => ?_⟩
  have hi : i < elements.length := by
    simp only [ofEach, List.length_mapIdx, List.length_zip] at hi
    omega
  simp only [ofEach, List.get_eq_getElem, List.getElem_mapIdx, List.getElem_zip]
  exact ⟨rfl, rfl, (List.forall₂_iff_get.1 h).2 i hi (hlength ▸ hi)⟩

/-- A value is checked against related types one by one. -/
theorem parallel_ofAll {members members' : List Schema} (h : List.Forall₂ R members members')
    (v : Value) : List.Forall₂ (PartCheck.Parallel R) (ofAll members v) (ofAll members' v) := by
  rw [ofAll, ofAll, List.forall₂_map_left_iff, List.forall₂_map_right_iff]
  exact h.imp fun _ _ hR => ⟨rfl, rfl, hR⟩

end PartCheck

/-- A condition on a value leads on alike. -/
theorem Course.parallel_ofBool {R : Schema → Schema → Prop} (condition : Bool) :
    Course.Parallel R (.ofBool condition) (.ofBool condition) := by
  cases condition with
  | true => exact .parts .nil
  | false => exact .reject

/-- The parts of a value, if it has any, lead on alike. -/
theorem Course.parallel_ofParts {R : Schema → Schema → Prop} {α : Type} (parts : Option α)
    {checks checks' : α → List PartCheck}
    (h : ∀ x, List.Forall₂ (PartCheck.Parallel R) (checks x) (checks' x)) :
    Course.Parallel R (.ofParts parts checks) (.ofParts parts checks') := by
  cases parts with
  | some x => exact .parts (h x)
  | none => exact .reject

/-- Checks of a value against types of one form go on alike. -/
theorem Schema.Parallel.course {R : Schema → Schema → Prop} {s s' : Schema} (h : s.Parallel R s')
    (world : World) (v : Value) : Course.Parallel R (s.course world v) (s'.course world v) := by
  cases h with
  | irreducible name test => exact Course.parallel_ofBool _
  | maybe h =>
    refine .parts ?_
    split
    · exact .nil
    · exact PartCheck.parallel_ofAll (.cons h .nil) v
  | @list a b container shown h =>
    simp only [Schema.course]
    cases v.elementsIn container with
    | error e => exact .fail e
    | ok items => exact Course.parallel_ofParts items (PartCheck.parallel_ofElements h)
  | dict hkey hvalue =>
    exact Course.parallel_ofParts _ (PartCheck.parallel_ofEntries hkey hvalue)
  | interface h => exact Course.parallel_ofParts _ (PartCheck.parallel_ofProperties h)
  | union h => exact .union h
  | intersection h => exact .parts (PartCheck.parallel_ofAll h v)
  | refinement h => exact .refinement h
  | @tuple elements elements' isVariadic shown h =>
    simp only [Schema.course]
    cases v.tuple? with
    | none => exact .reject
    | some items =>
      have hlength := h.length_eq
      cases isVariadic with
      | true =>
        cases h with
        | nil => exact .fail .noElement
        | cons hfirst _ => exact .parts (PartCheck.parallel_ofElements hfirst items)
      | false =>
        simp only [Bool.false_eq_true, if_false, hlength]
        split
        · exact .parts (PartCheck.parallel_ofEach h items)
        · exact .reject
  | anyFunc h | func hparams h => exact Course.parallel_ofBool _
  | literal value shown => exact Course.parallel_ofBool _
  | late slot => exact .late slot

end Typeward
