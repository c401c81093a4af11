import Typeward.Proofs.BlamedPlaces
import Typeward.Proofs.EvaluatedNames
import Typeward.Proofs.ExposedReferences
import Typeward.Proofs.HookBookkeeping

/-!
# Late references that definitions meet

The type that a definition is evaluated to meets a late reference, with the value that it checks,
only if the definition exposes it, or a type above meets it, or it is a check against a class that is
bound later. So a type that does not refer to itself at once is not met again in a check with the
same value: from it, only types above are met.
-/

namespace Typeward

open Registry TypeExpr

variable {α β : Type}

/-- Whenever a step answers from a session, the session has gone on, and what is told holds of the
answer. -/
def Answers (s : Session) (x : Run α) (P : Session → α → Prop) : Prop :=
  ∀ a s', x.run s = (.ok a, s') → s.Extends s' ∧ P s' a

namespace Answers

variable {s : Session} {x : Run α} {f : α → Run β} {P P' : Session → α → Prop}
  {Q : Session → β → Prop}

/-- A step that changes nothing answers its result. -/
theorem pure {a : α} (h : P s a) : Answers s (pure a) P := by
  rintro a' s' hrun
  obtain ⟨ha, rfl⟩ := Prod.mk.inj hrun
  obtain rfl := Except.ok.inj ha
  exact ⟨.refl s, h⟩

/-- A step that raises something answers nothing. -/
theorem throw {e : Raised} : Answers s (throw e : Run α) P := nofun

/-- A step answers what the steps that it is made of answer. -/
theorem bind (hx : Answers s x P) (hf : ∀ a s', s.Extends s' → P s' a → Answers s' (f a) Q) :
    Answers s (x >>= f) Q := by
  intro b s'' hrun
  rcases hfirst : x.run s with ⟨e | a, s'⟩
  · rw [run_bind_of_error hfirst] at hrun
    cases hrun
  · rw [run_bind_of_ok hfirst] at hrun
    obtain ⟨hextends, ha⟩ := hx a s' hfirst
    obtain ⟨hextends', hb⟩ := hf a s' hextends ha b s'' hrun
    exact ⟨hextends.trans hextends', hb⟩

/-- What is told of an answer may be told less exactly. -/
theorem mono (hx : Answers s x P) (h : ∀ s' a, P s' a → P' s' a) : Answers s x P' :=
  fun a s' hrun => ⟨(hx a s' hrun).1, h s' a (hx a s' hrun).2⟩

/-- A step answers what it yields. -/
theorem of_yields (hx : Yields x s fun a s' => s.Extends s' ∧ P s' a) : Answers s x P := by
  intro a s' hrun
  obtain ⟨a', s'', hrun', h⟩ := hx
  obtain ⟨ha, rfl⟩ := Prod.mk.inj (hrun.symm.trans hrun')
  obtain rfl := Except.ok.inj ha
  exact h

/-- After a step that leaves the session as it is, the next one starts from the same. -/
theorem reads_bind {a : α} (hx : Reads x s a) (hf : Answers s (f a) Q) : Answers s (x >>= f) Q := by
  unfold Answers
  rw [hx.run_bind]
  exact hf

end Answers

/-- What raises something in the end answers nothing. -/
theorem answers_throw_after {s : Session} {x : Run α} {P : Session → β → Prop} {e : α → Raised} :
    Answers s (x >>= fun a => (throw (e a) : Run β)) P := by
  intro b s' hrun
  rcases hfirst : x.run s with ⟨raised | a, s''⟩
  · rw [run_bind_of_error hfirst] at hrun
    cases hrun
  · rw [run_bind_of_ok hfirst] at hrun
    cases hrun

section Found

variable {s : Session}

/-- A type that is found has a model. -/
theorem answers_schemaOf (v : Value) : Answers s (schemaOf v) fun s' t => s'.IsModel v t := by
  unfold schemaOf
  split
  · rename_i number
    refine Answers.reads_bind (.get s) ?_
    split
    · rename_i t ht
      exact .pure ⟨number, rfl, ht⟩
    · exact .throw
  · exact .throw

/-- A type that an object is has a model, which the object is. -/
theorem answers_toSchema (o : Object) :
    Answers s o.toSchema fun s' t => ∃ v, o = .value v ∧ s'.IsModel v t := by
  unfold Object.toSchema
  split
  · rename_i v
    exact (answers_schemaOf v).mono fun _ t ht => ⟨v, rfl, ht⟩
  · exact .throw

/-- A value that an object is. -/
theorem answers_toValue (o : Object) : Answers s o.toValue fun _ v => o = .value v := by
  unfold Object.toValue
  split
  · exact .pure rfl
  · exact .throw

/-- Types that are found have models. -/
theorem answers_schemasOf (vs : List Value) :
    Answers s (schemasOf vs) fun s' ts => List.Forall₂ s'.IsModel vs ts := by
  unfold schemasOf
  induction vs generalizing s with
  | nil => exact .pure .nil
  | cons v rest ih =>
    rw [List.mapM_cons]
    refine (answers_schemaOf v).bind fun t s' _ ht => ih.bind fun ts s'' hextends hts => .pure ?_
    exact .cons (ht.kept hextends.kept) hts

/-- Types that an object lists have models, which the object lists. -/
theorem answers_toSchemas (o : Object) : Answers s o.toSchemas fun s' ts =>
    ∃ k vs, o = .value (.collection k vs) ∧ List.Forall₂ s'.IsModel vs ts := by
  refine (answers_toValue o).bind fun v s' _ hv => ?_
  subst hv
  split
  · rename_i k items
    exact (answers_schemasOf items).mono fun _ ts hts => ⟨k, items, rfl, hts⟩
  · exact .throw

/-- Properties are found of which nothing is told. -/
theorem answers_toProperties (entries : List (Value × Value)) :
    Answers s (toProperties entries) fun _ _ => True := by
  induction entries generalizing s with
  | nil => exact .pure trivial
  | cons entry rest ih =>
    rw [toProperties.eq_def]
    split
    · exact .pure trivial
    · rename_i key v more heq
      obtain ⟨-, rfl⟩ := List.cons.inj heq
      exact (answers_schemaOf v).bind fun _ _ _ _ => ih.bind fun _ _ _ _ => .pure trivial
    · exact .throw

end Found

/-- If an object is a type, it meets just some of the late references, provided that the session is
kept in a later one. -/
def Clear (later : Session) (Q : Nat → Prop) (s : Session) (o : Object) : Prop :=
  ∀ number, o = .value (.model number) → ∃ t, s.models[number]? = some t ∧
    (s.Kept later → ∀ slot, t.Meets slot → Q slot)

section Clear

variable {later s : Session} {Q Q' : Nat → Prop} {o : Object} {v : Value} {t : Schema}

/-- What is clear stays clear. -/
theorem lasts_clear : Lasts (Clear later Q) := by
  intro s s' o hextends ho number hnumber
  obtain ⟨t, ht, hmeets⟩ := ho number hnumber
  exact ⟨t, hextends.kept.models number t ht, fun hkept => hmeets (hextends.kept.trans hkept)⟩

/-- What is clear of some references is clear of fewer. -/
theorem Clear.mono (h : Clear later Q s o) (hQ : ∀ slot, Q slot → Q' slot) :
    Clear later Q' s o := by
  intro number hnumber
  obtain ⟨t, ht, hmeets⟩ := h number hnumber
  exact ⟨t, ht, fun hkept slot hslot => hQ slot (hmeets hkept slot hslot)⟩

/-- The type that a clear object is meets just those late references. -/
theorem Clear.of_isModel (h : Clear later Q s (.value v)) (hv : s.IsModel v t)
    (hkept : s.Kept later) {slot : Nat} (hslot : t.Meets slot) : Q slot := by
  obtain ⟨number, rfl, ht⟩ := hv
  obtain ⟨t', ht', hmeets⟩ := h number rfl
  obtain rfl := Option.some.inj (ht.symm.trans ht')
  exact hmeets hkept slot hslot

/-- The model of a type that meets just some late references is clear. -/
theorem clear_of_isModel (hv : s.IsModel v t)
    (h : s.Kept later → ∀ slot, t.Meets slot → Q slot) : Clear later Q s (.value v) := by
  obtain ⟨number, rfl, ht⟩ := hv
  rintro number' hnumber
  obtain rfl := Value.model.inj (Object.value.inj hnumber)
  exact ⟨t, ht, h⟩

/-- A type that is made is clear if it meets just those late references. -/
theorem answers_make (h : s.Kept later → ∀ slot, t.Meets slot → Q slot) :
    Answers s (do return Object.value (← make t)) (Clear later Q) := by
  refine (Answers.of_yields (yields_make s t)).bind fun v s' hextends hv => .pure ?_
  exact clear_of_isModel hv fun hkept => h (hextends.kept.trans hkept)

end Clear

/-- In every session that goes on from one, something holds of what an expression is evaluated to, if
it is evaluated to anything. -/
def Expr.Gets (start : Session) (P : Session → Object → Prop) (x : Expr) : Prop :=
  ∀ text s, start.Extends s → Answers s (evaluateWith text x) P

/-- In every session that goes on from one, an expression is evaluated to clear objects only. -/
abbrev Expr.Clears (start later : Session) (Q : Nat → Prop) (x : Expr) : Prop :=
  x.Gets start (Clear later Q)

section Evaluated

variable {start later s : Session} {text : Value → Run String} {x y : Expr} {xs : List Expr}
  {P P' : Session → Object → Prop} {Q : Nat → Prop} {runtime : String} {shown : Option String}

/-- One argument is evaluated. -/
theorem Expr.Gets.argument (hx : x.Gets start P) (hs : start.Extends s) :
    Answers s (evaluateObjects text [x]) fun s' os => ∃ o, os = [o] ∧ P s' o :=
  (hx text s hs).bind fun o _ _ ho => .pure ⟨o, rfl, ho⟩

/-- Two arguments are evaluated. -/
theorem Expr.Gets.arguments (hx : x.Gets start P) (hy : y.Gets start P') (hlasts : Lasts P)
    (hs : start.Extends s) :
    Answers s (evaluateObjects text [x, y]) fun s' os => ∃ o o', os = [o, o'] ∧ P s' o ∧ P' s' o' := by
  refine (hx text s hs).bind fun o s' hextends ho => ?_
  refine (hy.argument (hs.trans hextends)).bind fun os s'' hextends' ⟨o', hos, ho'⟩ => .pure ?_
  subst hos
  exact ⟨o, o', rfl, hlasts s' s'' o hextends' ho, ho'⟩

/-- Several expressions are evaluated. -/
theorem answers_evaluateAll (h : ∀ x ∈ xs, x.Gets start P) (hlasts : Lasts P)
    (hs : start.Extends s) :
    Answers s (evaluateAll text xs) fun s' vs => ∀ v ∈ vs, P s' (.value v) := by
  induction xs generalizing s with
  | nil => exact .pure nofun
  | cons x rest ih =>
    refine (h x List.mem_cons_self text s hs).bind fun o s' hextends ho => ?_
    refine (answers_toValue o).bind fun v s'' hextends' hv => ?_
    have hs'' := (hs.trans hextends).trans hextends'
    refine (ih (fun x hx => h x (List.mem_cons_of_mem _ hx)) hs'').bind
      fun vs t hextends'' hvs => .pure ?_
    subst hv
    exact List.forall_mem_cons.2
      ⟨hlasts s' t _ (hextends'.trans hextends'') ho, hvs⟩

/-- A list display is evaluated to a list. -/
theorem gets_listExpr (h : ∀ x ∈ xs, x.Gets start P) (hlasts : Lasts P) :
    (listExpr xs).Gets start fun s o =>
      ∃ vs, o = .value (.collection .list vs) ∧ ∀ v ∈ vs, P s (.value v) := by
  intro text s hs
  rw [listExpr, evaluateWith]
  exact (answers_evaluateAll h hlasts hs).bind fun vs _ _ hvs => .pure ⟨vs, rfl, hvs⟩

/-- The keys of a dictionary display are found. -/
theorem answers_constantKeys (keys : List (Option Expr)) :
    Answers s (constantKeys keys) fun _ _ => True := by
  induction keys generalizing s with
  | nil => exact .pure trivial
  | cons key rest ih =>
    rw [constantKeys.eq_def]
    split
    · exact .pure trivial
    · rename_i heq
      obtain ⟨-, rfl⟩ := List.cons.inj heq
      exact ih.bind fun _ _ _ _ => .pure trivial
    · exact .throw

/-- A dictionary display is evaluated to something. -/
theorem gets_dict {keys : List (Option Expr)} (h : ∀ x ∈ xs, x.Gets start P) (hlasts : Lasts P) :
    (Expr.dict .synthetic keys xs).Gets start fun _ _ => True := by
  intro text s hs
  rw [evaluateWith]
  refine (answers_constantKeys keys).bind fun _ s' hextends _ => ?_
  exact (answers_evaluateAll h hlasts (hs.trans hextends)).bind fun _ _ _ _ => .pure trivial

/-- What an object has under a name. -/
theorem answers_attribute (o : Object) (name : String) :
    Answers s (o.attribute name) fun _ m => o.member? name = some m := by
  unfold Object.attribute Object.member?
  split
  · split
    · rename_i member hmember
      exact .pure hmember
    · exact .throw
  · split
    · rename_i v hv
      exact .pure (congrArg (Option.map Object.value) hv)
    · exact .throw
  · exact .throw

/-- A name is evaluated to what it stands for. -/
theorem gets_dottedExpr (name : String) :
    (dottedExpr name).Gets start fun _ o => start.read name = some o := by
  intro text s hs
  -- the chain of attributes is followed from a base that is evaluated to something
  have hchain (rest : List String) : ∀ (base : Expr) (found : Option Object),
      Answers s (evaluateWith text base) (fun _ o => found = some o) →
      Answers s (evaluateWith text (rest.foldl (.attribute .synthetic · ·) base))
        fun _ o => rest.foldl (fun o part => o.bind (·.member? part)) found = some o := by
    induction rest with
    | nil => exact fun base found hbase => hbase
    | cons part rest ih =>
      intro base found hbase
      refine ih _ _ ?_
      rw [evaluateWith]
      refine hbase.bind fun o s' _ ho => (answers_attribute o part).mono fun _ m hm => ?_
      rw [ho]
      exact hm
  have hfirst (first : String) : Answers s (evaluateWith text (.name .synthetic first))
      fun _ o => start.names.lookup first = some o := by
    rw [evaluateWith, ← hs.names]
    refine Answers.reads_bind (.get s) ?_
    split
    · rename_i o ho
      exact .pure ho
    · exact .throw
  obtain ⟨rest, hparts⟩ := Expr.Reads.exists_nameParts_eq name
  unfold dottedExpr Session.read
  rw [hparts]
  exact hchain rest _ _ (hfirst _)

/-- A clear object is used as a type that is clear. -/
theorem answers_irreducibleOf {o : Object} (ho : Clear later Q s o) :
    Answers s (irreducibleOf text o) fun s' v => Clear later Q s' (.value v) := by
  unfold irreducibleOf
  split
  · exact .pure ho
  · refine (Answers.of_yields (yields_make s _)).mono fun s' v hmodel => ?_
    exact clear_of_isModel hmodel nofun
  · exact answers_throw_after

section Calls

variable (hlibrary : start.names.lookup runtime = some .library)

include hlibrary

/-- What a function of the library answers for arguments is what its call is evaluated to. -/
theorem gets_call {function : String} {f : LibraryFunction} {arguments : List Expr}
    {options : List (String × Constant)} {A : Session → List Object → Prop}
    (hf : libraryMember? function = some (.libraryFunction f))
    (harguments : ∀ text s, start.Extends s → Answers s (evaluateObjects text arguments) A)
    (hcall : ∀ text s os, A s os → Answers s (Object.call text (.libraryFunction f) os
      (constantObjects (namedConstants shown options))) P) :
    (callExpr (runtimeExpr runtime function) arguments (callKeywords shown options)).Gets start
      P := by
  intro text s hs
  rw [callExpr, evaluateWith]
  refine .reads_bind (reads_runtimeExpr (hs.names ▸ hlibrary) hf) ?_
  refine (harguments text s hs).bind fun os s' _ hos => ?_
  exact .reads_bind (reads_callKeywords s' shown options) (hcall text s' os hos)

/-- An optional type is clear if its type is. -/
theorem clears_maybe (hx : x.Clears start later Q) :
    (callExpr (runtimeExpr runtime "maybe") [x] (callKeywords shown [])).Clears start later Q := by
  refine gets_call hlibrary rfl (fun _ _ => hx.argument) ?_
  rintro text s _ ⟨o, rfl, ho⟩
  rw [call_maybe]
  refine (answers_toSchema o).bind fun t s' hextends ⟨v, hv, hmodel⟩ => ?_
  subst hv
  refine answers_make fun hkept slot hslot => ?_
  cases hslot with
  | maybe h => exact (lasts_clear s s' _ hextends ho).of_isModel hmodel hkept h

/-- A refinement is clear if its base is. -/
theorem clears_refinement (hx : x.Clears start later Q) (hy : y.Gets start P) :
    (callExpr (runtimeExpr runtime "refinement") [x, y] (callKeywords shown [])).Clears start later
      Q := by
  refine gets_call hlibrary rfl (fun _ _ => hx.arguments hy lasts_clear) ?_
  rintro text s _ ⟨o, o', rfl, ho, -⟩
  rw [call_refinement]
  refine (answers_toSchema o).bind fun t s' hextends ⟨v, hv, hmodel⟩ => ?_
  refine (answers_toValue o').bind fun predicate s'' hextends' _ => ?_
  subst hv
  refine answers_make fun hkept slot hslot => ?_
  cases hslot with
  | refinement h =>
    exact (lasts_clear s s' _ hextends ho).of_isModel hmodel (hextends'.kept.trans hkept) h

/-- A type that meets what the types meet that it is made of is clear if they are. -/
theorem clears_listed {function : String} {f : LibraryFunction}
    {made : List Schema → Option String → Schema}
    (hf : libraryMember? function = some (.libraryFunction f))
    (hsignature : f.signature = ⟨["types", "name"], 1⟩)
    (happly : ∀ text types given, f.apply text [some types, given] =
      do return .value (← make (made (← types.toSchemas) (shownName given))))
    (hmade : ∀ ts slot, (made ts shown).Meets slot → ∃ t ∈ ts, t.Meets slot)
    (hxs : ∀ x ∈ xs, x.Clears start later Q) :
    (callExpr (runtimeExpr runtime function) [listExpr xs] (callKeywords shown [])).Clears start
      later Q := by
  refine gets_call hlibrary hf (fun _ _ => (gets_listExpr hxs lasts_clear).argument) ?_
  rintro text s _ ⟨_, rfl, vs, rfl, hvs⟩
  rw [call_listed hsignature happly]
  refine (answers_toSchemas _).bind fun ts s' hextends ⟨k, vs', hv, hmodels⟩ => ?_
  obtain ⟨-, rfl⟩ := Value.collection.inj (Object.value.inj hv)
  refine answers_make fun hkept slot hslot => ?_
  obtain ⟨t, ht, hmeets⟩ := hmade ts slot hslot
  obtain ⟨v, hv, hmodel⟩ := exists_mem_of_forall₂ hmodels ht
  exact (lasts_clear s s' _ hextends (hvs v hv)).of_isModel hmodel hkept hmeets

/-- A union is clear if its members are. -/
theorem clears_union (hxs : ∀ x ∈ xs, x.Clears start later Q) :
    (callExpr (runtimeExpr runtime "union") [listExpr xs] (callKeywords shown [])).Clears start
      later Q := by
  refine clears_listed hlibrary rfl rfl (fun _ _ _ => rfl) (fun ts slot h => ?_) hxs
  cases h with
  | union ht hslot => exact ⟨_, ht, hslot⟩

/-- An intersection is clear if its members are. -/
theorem clears_intersection (hxs : ∀ x ∈ xs, x.Clears start later Q) :
    (callExpr (runtimeExpr runtime "intersection") [listExpr xs] (callKeywords shown [])).Clears
      start later Q := by
  refine clears_listed hlibrary rfl rfl (fun _ _ _ => rfl) (fun ts slot h => ?_) hxs
  cases h with
  | intersection ht hslot => exact ⟨_, ht, hslot⟩

/-- A list type is clear. -/
theorem clears_list {container : String} (hx : x.Gets start P) :
    (callExpr (runtimeExpr runtime "list_of") [x]
      (callKeywords shown (containerOptions container))).Clears start later Q := by
  refine gets_call hlibrary rfl (fun _ _ => hx.argument) ?_
  rintro text s _ ⟨o, rfl, -⟩
  rw [call_list]
  exact (answers_toSchema o).bind fun _ _ _ _ => answers_make nofun

/-- A dictionary type is clear. -/
theorem clears_dict (hx : x.Gets start P) (hlasts : Lasts P) (hy : y.Gets start P') :
    (callExpr (runtimeExpr runtime "dict_of") [x, y] (callKeywords shown [])).Clears start later
      Q := by
  refine gets_call hlibrary rfl (fun _ _ => hx.arguments hy hlasts) ?_
  rintro text s _ ⟨o, o', rfl, -, -⟩
  rw [call_dict]
  refine (answers_toSchema o).bind fun _ _ _ _ => ?_
  exact (answers_toSchema o').bind fun _ _ _ _ => answers_make nofun

/-- An interface is clear. -/
theorem clears_interface (hx : x.Gets start P) :
    (callExpr (runtimeExpr runtime "interface") [x] (callKeywords shown [])).Clears start later
      Q := by
  refine gets_call hlibrary rfl (fun _ _ => hx.argument) ?_
  rintro text s _ ⟨o, rfl, -⟩
  rw [call_interface]
  refine (answers_toValue o).bind fun v _ _ _ => ?_
  split
  · exact (answers_toProperties _).bind fun _ _ _ _ => answers_make fun _ _ h => by cases h
  · exact .throw

/-- A tuple type is clear. -/
theorem clears_tuple {isVariadic : Bool} (hx : x.Gets start P) :
    (callExpr (runtimeExpr runtime "tuple_of") [x]
      (callKeywords shown (lengthOptions isVariadic))).Clears start later Q := by
  refine gets_call hlibrary rfl (fun _ _ => hx.argument) ?_
  rintro text s _ ⟨o, rfl, -⟩
  rw [call_tuple]
  exact (answers_toSchemas o).bind fun _ _ _ _ => answers_make nofun

/-- A function type with given parameters is clear. -/
theorem clears_function (hxs : ∀ x ∈ xs, x.Gets start P) (hlasts : Lasts P)
    (hy : y.Gets start P') :
    (callExpr (runtimeExpr runtime "func") [listExpr xs, y] (callKeywords shown [])).Clears start
      later Q := by
  have hlist : (listExpr xs).Gets start fun _ o => ∃ vs, o = .value (.collection .list vs) := by
    intro text s hs
    exact (gets_listExpr hxs hlasts text s hs).mono fun _ _ ⟨vs, hvs, _⟩ => ⟨vs, hvs⟩
  refine gets_call hlibrary rfl (fun _ _ => hlist.arguments hy fun _ _ _ _ h => h) ?_
  rintro text s _ ⟨_, o, rfl, ⟨vs, rfl⟩, -⟩
  rw [call_function]
  refine (answers_toSchemas _).bind fun _ _ _ _ => ?_
  exact (answers_toSchema o).bind fun _ _ _ _ => answers_make nofun

/-- A function type with any parameters is clear. -/
theorem clears_anyFunction (hy : y.Gets start P) :
    (callExpr (runtimeExpr runtime "func") [constantExpr .none, y]
      (callKeywords shown [("any_params", .bool true)])).Clears start later Q := by
  have hnone : (constantExpr .none).Gets start fun _ o => o = .value (.constant .none) :=
    fun _ _ _ => .pure rfl
  refine gets_call hlibrary rfl (fun _ _ => hnone.arguments hy fun _ _ _ _ h => h) ?_
  rintro text s _ ⟨_, o, rfl, rfl, -⟩
  rw [call_anyFunction]
  exact (answers_toSchema o).bind fun _ _ _ _ => answers_make nofun

/-- The type of a value is clear. -/
theorem clears_literal {c : Constant} :
    (callExpr (runtimeExpr runtime "literal") [constantExpr c] (callKeywords shown [])).Clears start
      later Q := by
  have hconstant : (constantExpr c).Gets start fun _ _ => True := fun _ _ _ => .pure trivial
  refine gets_call hlibrary rfl (fun _ _ => hconstant.argument) ?_
  rintro text s _ ⟨o, rfl, -⟩
  rw [call_literal]
  exact (answers_toValue o).bind fun _ _ _ _ => answers_make nofun

/-- A late reference is clear of all but its slot, which has its expression in a later session. -/
theorem clears_lateExpr {body : Expr}
    (hQ : ∀ (slot : Nat) (l : Slot), later.slots[slot]? = some l → l.body = body → Q slot) :
    (lateExpr runtime body).Clears start later Q := by
  have hthunk : (Expr.lambda .synthetic .none body).Gets start fun _ o => o = .thunk body :=
    fun _ _ _ => .pure rfl
  change (callExpr (runtimeExpr runtime "lazy") _ (callKeywords none [])).Clears start later Q
  refine gets_call hlibrary rfl (fun _ _ => hthunk.argument) ?_
  rintro text s _ ⟨_, rfl, rfl⟩
  rw [call_late]
  refine (Answers.of_yields (yields_makeLate s body)).bind
    fun v s' _ ⟨slot, l, hmodel, hl, hbody⟩ => .pure ?_
  refine clear_of_isModel hmodel fun hkept slot' hslot => ?_
  cases hslot
  obtain ⟨l', hl', hbody'⟩ := hkept.slots slot l hl
  exact hQ slot l' hl' (hbody'.trans hbody)

/-- A check against a class is clear if what the name of the class stands for is. -/
theorem clears_irreducible (hx : x.Clears start later Q) :
    (callExpr (runtimeExpr runtime "irreducible") [x] (callKeywords none [])).Clears start later
      Q := by
  refine gets_call hlibrary rfl (fun _ _ => hx.argument) ?_
  rintro text s _ ⟨o, rfl, ho⟩
  rw [call_irreducible]
  exact (answers_irreducibleOf ho).bind fun _ _ _ hv => .pure hv

end Calls

end Evaluated

/-- The code for a check against a class. -/
def classExpr (runtime name : String) : Expr :=
  callExpr (runtimeExpr runtime "irreducible") [dottedExpr name] (callKeywords none [])

/-- A session in which an expression can be evaluated: the library has its alias, and a name in the
expression that stands for a runtime type stands for one that is known under it, or for one that
meets no late reference. -/
structure Session.Prepared (s : Session) (runtime : String) (known : List String)
    (defined : String → Schema) (e : TypeExpr) : Prop where
  started : (Session.start s.names).Extends s
  library : s.names.lookup runtime = some .library
  types : ∀ name number, (TypeExpr.name name).Includes e →
    s.read name = some (.value (.model number)) → ∃ t, s.models[number]? = some t ∧
      (name ∈ known ∧ t = defined name ∨ ∀ slot, ¬ t.Meets slot)

/-- The late references that an expression may meet: those that known types meet, checks against
classes, and those that it exposes. -/
def TypeExpr.MayMeet (e : TypeExpr) (runtime : String) (known : List String)
    (defined : String → Schema) (later : Session) (slot : Nat) : Prop :=
  (∃ name ∈ known, (defined name).Meets slot) ∨ ∃ l, later.slots[slot]? = some l ∧
    ((∃ name, l.body = classExpr runtime name) ∨
      ∃ y, (deferred y).Exposed e ∧ l.body = dottedExpr y)

section Definitions

variable {start later : Session} {runtime : String} {known : List String}
  {defined : String → Schema} {Q : Nat → Prop} {e e' : TypeExpr} {slot : Nat}

/-- A session that is prepared for an expression is prepared for its parts. -/
theorem Session.Prepared.part (h : start.Prepared runtime known defined e) (he : e' ∈ e.parts) :
    start.Prepared runtime known defined e' where
  started := h.started
  library := h.library
  types name number hname := h.types name number (.part he hname)

/-- An expression may meet what another one may meet that exposes less. -/
theorem TypeExpr.MayMeet.mono (h : e.MayMeet runtime known defined later slot)
    (he : ∀ y, (deferred y).Exposed e → (deferred y).Exposed e') :
    e'.MayMeet runtime known defined later slot := by
  rcases h with hknown | ⟨l, hl, hclass | ⟨y, hy, hbody⟩⟩
  · exact .inl hknown
  · exact .inr ⟨l, hl, .inl hclass⟩
  · exact .inr ⟨l, hl, .inr ⟨y, he y hy, hbody⟩⟩

/-- A type that the library offers is in every session, and meets no late reference. -/
theorem exists_model_of_libraryMember {name : String} {number : Nat}
    (h : libraryMember? name = some (.value (.model number))) (names : List (String × Object)) :
    ∃ t, (Session.start names).models[number]? = some t ∧ ∀ slot, ¬ t.Meets slot := by
  unfold libraryMember? at h
  split at h
  · rename_i v hv
    obtain rfl := Object.value.inj (Option.some.inj h)
    obtain ⟨number', hnumber, heq⟩ := Option.map_eq_some_iff.1 hv
    obtain rfl := Value.model.inj heq
    have hlt := (List.findIdx?_eq_some_iff_getElem.1 hnumber).1
    have hmodel : (Session.start names).models[number']? =
        some (.irreducible primitives[number'].1 primitives[number'].2) := by
      simp [Session.start, hlt]
    exact ⟨_, hmodel, fun slot h => by cases h⟩
  · simp at h

/-- A primitive type of the library is clear. -/
theorem clears_primitive (h : start.Prepared runtime known defined e) (name : String) :
    (runtimeExpr runtime name).Clears start later Q := by
  intro text s hs
  rw [runtimeExpr, evaluateWith, evaluateWith]
  have hlibrary : s.names.lookup runtime = some .library := hs.names ▸ h.library
  refine .reads_bind (reads_lookupName hlibrary) ?_
  intro o s' hrun
  obtain ⟨hextends, hmember⟩ := answers_attribute .library name o s' hrun
  refine ⟨hextends, ?_⟩
  rintro number rfl
  obtain ⟨t, ht, hmeets⟩ := exists_model_of_libraryMember hmember start.names
  have hkept := (h.started.trans (hs.trans hextends)).kept
  exact ⟨t, hkept.models number t ht, fun _ slot hslot => absurd hslot (hmeets slot)⟩

/-- What a name stands for is clear but for what the known types meet. -/
theorem clears_dottedExpr {name : String}
    (h : start.Prepared runtime known defined (.name name))
    (hQ : ∀ name ∈ known, ∀ slot, (defined name).Meets slot → Q slot) :
    (dottedExpr name).Clears start later Q := by
  intro text s hs o s' hrun
  obtain ⟨hextends, hread⟩ := gets_dottedExpr name text s hs o s' hrun
  refine ⟨hextends, ?_⟩
  rintro number rfl
  obtain ⟨t, ht, hmeets⟩ := h.types name number .self hread
  refine ⟨t, (hs.trans hextends).kept.models number t ht, fun _ slot hslot => ?_⟩
  rcases hmeets with ⟨hname, rfl⟩ | hnone
  · exact hQ name hname slot hslot
  · exact absurd hslot (hnone slot)

/-- A check against a class is rendered. -/
theorem render_classCheck (runtime name : String) :
    render runtime (classCheck name) = .ok (classExpr runtime name) :=
  render_irreducible runtime name none

/-- What is evaluated to clear objects only is clear of fewer references, too. -/
theorem Expr.Clears.mono {x : Expr} {Q' : Nat → Prop} (hx : x.Clears start later Q)
    (hQ : ∀ slot, Q slot → Q' slot) : x.Clears start later Q' :=
  fun text s hs => (hx text s hs).mono fun _ _ ho => ho.mono hQ

/-- The arguments of a call that is no guard are rendered and evaluated to types only that meet what
the call may meet. -/
theorem exists_renderedAll_clears {c : Combinator} {es : List TypeExpr} (shown : Option String)
    (hc : c.isGuard = false)
    (h : ∀ e ∈ es, ∃ x, render runtime e = .ok x ∧
      x.Clears start later (e.MayMeet runtime known defined later)) :
    ∃ xs, RenderedAll runtime es xs ∧ ∀ x ∈ xs,
      x.Clears start later ((call c es shown []).MayMeet runtime known defined later) := by
  refine exists_renderedAll fun e he => ?_
  obtain ⟨x, hx, hclears⟩ := h e he
  exact ⟨x, hx, hclears.mono fun _ hslot => hslot.mono fun y hy => exposed_call.2 ⟨hc, e, he, hy⟩⟩

/-- Expressions are rendered and evaluated to something. -/
theorem exists_renderedAll_gets {es : List TypeExpr}
    (h : ∀ e ∈ es, ∃ x, render runtime e = .ok x ∧
      x.Clears start later (e.MayMeet runtime known defined later)) :
    ∃ xs, RenderedAll runtime es xs ∧ ∀ x ∈ xs, x.Clears start later fun _ => True := by
  refine exists_renderedAll fun e he => ?_
  obtain ⟨x, hx, hclears⟩ := h e he
  exact ⟨x, hx, hclears.mono fun _ _ => trivial⟩

/-- A built expression is evaluated to types only that meet what it may meet. -/
theorem BuiltForm.clears (he : BuiltForm e) (h : start.Prepared runtime known defined e) :
    ∃ x, render runtime e = .ok x ∧
      x.Clears start later (e.MayMeet runtime known defined later) := by
  have hlibrary := h.library
  have hknown (e : TypeExpr) : ∀ name ∈ known, ∀ slot, (defined name).Meets slot →
      e.MayMeet runtime known defined later slot :=
    fun name hname slot hslot => .inl ⟨name, hname, hslot⟩
  induction he with
  | primitive name => exact ⟨_, rfl, clears_primitive h name⟩
  | name name => exact ⟨_, rfl, clears_dottedExpr h (hknown _)⟩
  | deferred name =>
    refine ⟨_, rfl, clears_lateExpr hlibrary fun slot l hl hbody => ?_⟩
    exact .inr ⟨l, hl, .inr ⟨name, by simp, hbody⟩⟩
  | classCheck name =>
    have hname := h.part (List.mem_singleton_self (TypeExpr.name name))
    exact ⟨_, render_classCheck runtime name,
      clears_irreducible hlibrary (clears_dottedExpr hname (hknown _))⟩
  | delayed name =>
    refine ⟨lateExpr runtime (classExpr runtime name), ?_,
      clears_lateExpr hlibrary fun slot l hl hbody => ?_⟩
    · rw [render, render_classCheck]
      rfl
    · exact .inr ⟨l, hl, .inl ⟨name, hbody⟩⟩
  | literal value shown =>
    exact ⟨_, render_positional (by simp) rfl (.cons rfl .nil), clears_literal hlibrary⟩
  | maybe he ih =>
    obtain ⟨x, hx, hclears⟩ := ih (h.part List.mem_cons_self)
    refine ⟨_, render_positional (by simp) rfl (.cons hx .nil), clears_maybe hlibrary ?_⟩
    exact hclears.mono fun _ hslot => hslot.mono fun y hy => by simp [Combinator.isGuard, hy]
  | refinement he ih =>
    obtain ⟨x, hx, hclears⟩ := ih (h.part List.mem_cons_self)
    refine ⟨_, render_positional (by simp) rfl (.cons hx (.cons rfl .nil)),
      clears_refinement hlibrary ?_ (gets_dottedExpr _)⟩
    exact hclears.mono fun _ hslot => hslot.mono fun y hy => by simp [Combinator.isGuard, hy]
  | @union es shown he ih =>
    obtain ⟨xs, hxs, hclears⟩ := exists_renderedAll_clears (c := .union) shown rfl
      fun e he => ih e he (h.part he)
    exact ⟨_, render_listed (by simp) rfl hxs, clears_union hlibrary hclears⟩
  | @intersection es shown he ih =>
    obtain ⟨xs, hxs, hclears⟩ := exists_renderedAll_clears (c := .intersection) shown rfl
      fun e he => ih e he (h.part he)
    exact ⟨_, render_listed (by simp) rfl hxs, clears_intersection hlibrary hclears⟩
  | list he ih =>
    obtain ⟨x, hx, hclears⟩ := ih (h.part List.mem_cons_self)
    exact ⟨_, render_positional (by simp) rfl (.cons hx .nil), clears_list hlibrary hclears⟩
  | dict hkey hvalue ihkey ihvalue =>
    obtain ⟨x, hx, hclears⟩ := ihkey (h.part List.mem_cons_self)
    obtain ⟨y, hy, hclears'⟩ := ihvalue (h.part (List.mem_cons_of_mem _ List.mem_cons_self))
    exact ⟨_, render_positional (by simp) rfl (.cons hx (.cons hy .nil)),
      clears_dict hlibrary hclears lasts_clear hclears'⟩
  | @interface fields shown he ih =>
    have hfields : ∀ f ∈ fields, start.Prepared runtime known defined f.2 := fun f hf =>
      (h.part (List.mem_map_of_mem hf)).part List.mem_cons_self
    obtain ⟨xs, hxs, hclears⟩ :=
      exists_renderedAll_gets (List.forall_mem_map.2 fun f hf => ih f hf (hfields f hf))
    exact ⟨_, render_interface hxs, clears_interface hlibrary (gets_dict hclears lasts_clear)⟩
  | anyFunction he ih =>
    obtain ⟨x, hx, hclears⟩ := ih (h.part List.mem_cons_self)
    exact ⟨_, render_anyFunction hx, clears_anyFunction hlibrary hclears⟩
  | function hparams hresult ihparams ihresult =>
    obtain ⟨xs, hxs, hclears⟩ := exists_renderedAll_gets fun e he =>
      ihparams e he (h.part (List.mem_append_left _ he))
    obtain ⟨x, hx, hclears'⟩ := ihresult (h.part (List.mem_append_right _ List.mem_cons_self))
    exact ⟨_, render_function hxs hx, clears_function hlibrary hclears lasts_clear hclears'⟩
  | tuple he ih =>
    obtain ⟨xs, hxs, hclears⟩ := exists_renderedAll_gets fun e he => ih e he (h.part he)
    exact ⟨_, render_listed (by simp) rfl hxs,
      clears_tuple hlibrary (gets_listExpr hclears lasts_clear)⟩

end Definitions

end Typeward
