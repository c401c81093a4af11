import Typeward.Proofs.Evaluations
import Typeward.Proofs.SturdySessions

/-!
# The evaluation of sturdy code

In a sturdy session, sturdy code is evaluated by a safe step: what it calls of the library makes
types for which what is looked up is there. So late references are followed by safe steps, and
checks in a sturdy session miss nothing that is looked up.
-/

namespace Typeward

variable {world : World} {text : Value → Run String}

/-- The type that a value is provides what is looked up. -/
theorem guards_schemaOf (v : Value) : Guards world (schemaOf v) Schema.Sturdy := by
  unfold schemaOf
  split
  · refine Ends.get.bind fun s hs => ?_
    split
    · rename_i hmodel
      exact .pure (hs.models _ _ hmodel)
    · exact Guards.raise id
  · exact Guards.raise id

/-- A type for which what is looked up is there is made by a safe step. -/
theorem safe_make {t : Schema} (ht : t.Sturdy) : Safe world (make t) := by
  refine Ends.get.bind fun s hs => ?_
  have hs' : Session.Sturdy { s with models := s.models.push t } := by
    refine ⟨fun number u hu => ?_, hs.slots⟩
    rw [Array.getElem?_push] at hu
    split at hu
    · rwa [← Option.some.inj hu]
    · exact hs.models number u hu
  exact (Ends.set hs').map _

/-- A type that is made is answered. -/
theorem safe_makeType {t : Schema} (ht : t.Sturdy) :
    Safe world (do return Object.value (← make t)) :=
  (safe_make ht).map _

/-- A late reference to sturdy code is made by a safe step. -/
theorem safe_makeLate {body : Expr} (hbody : body.Sturdy) : Safe world (makeLate body) := by
  refine Ends.get.bind fun s hs => ?_
  have hs' : Session.Sturdy { s with slots := s.slots.push { body } } := by
    refine ⟨hs.models, fun slot l hl => ?_⟩
    rw [Array.getElem?_push] at hl
    split at hl
    · rwa [← Option.some.inj hl]
    · exact hs.slots slot l hl
  exact (Ends.set hs').after fun _ => safe_make (.intro trivial (List.forall_mem_nil _))

/-- The types of properties provide what is looked up. -/
theorem guards_toProperties (entries : List (Value × Value)) :
    Guards world (toProperties entries) fun props => ∀ p ∈ props, p.2.Sturdy := by
  fun_induction toProperties entries with
  | case1 => exact .pure nofun
  | case2 key v rest ih =>
    refine (guards_schemaOf v).bind fun s hs => ih.bind fun props hprops => .pure ?_
    exact List.forall_mem_cons.2 ⟨hs, hprops⟩
  | case3 => exact Guards.raise id

/-- The type that an object is provides what is looked up. -/
theorem guards_toSchema (o : Object) : Guards world o.toSchema Schema.Sturdy := by
  unfold Object.toSchema
  split
  · exact guards_schemaOf _
  · exact Guards.raise id

/-- An object is a value, or this is complained about. -/
theorem safe_toValue (o : Object) : Safe world o.toValue := by
  unfold Object.toValue
  split
  · exact .pure trivial
  · exact Guards.raise id

/-- The types that an object lists provide what is looked up. -/
theorem guards_toSchemas (o : Object) :
    Guards world o.toSchemas fun ts => ∀ t ∈ ts, t.Sturdy := by
  refine (safe_toValue o).after fun v => ?_
  split
  · exact (Ends.mapM fun v _ => guards_schemaOf v).mono fun ts hts => hts.2
  · exact Guards.raise id

/-- There are as many types as an object lists. -/
theorem guards_toSchemas_list (vs : List Value) :
    Guards world (Object.value (.collection .list vs)).toSchemas
      fun ts => ts.length = vs.length ∧ ∀ t ∈ ts, t.Sturdy :=
  (Ends.pure (P := (· = .collection .list vs)) rfl).bind fun v hv => by
    subst hv
    exact Ends.mapM fun v _ => guards_schemaOf v

/-- The text of an object is made by a safe step if the texts of values are. -/
theorem safe_objectText (htext : ∀ v, Safe world (text v)) (o : Object) :
    Safe world (o.textWith text) := by
  unfold Object.textWith
  split
  · exact htext _
  all_goals exact .pure trivial

/-- An object is used as a type by a safe step. -/
theorem safe_irreducibleOf (htext : ∀ v, Safe world (text v)) (o : Object) :
    Safe world (irreducibleOf text o) := by
  unfold irreducibleOf
  split
  · exact .pure trivial
  · exact safe_make (.intro trivial (List.forall_mem_nil _))
  · exact (safe_objectText htext o).after fun _ => Guards.raise id

/-- A function of the library is called safely unless something is looked up for what it makes. -/
theorem safe_apply (htext : ∀ v, Safe world (text v)) {f : LibraryFunction} (hlist : f ≠ .list)
    (htuple : f ≠ .tuple) (hlate : f ≠ .late) (bound : List (Option Object)) :
    Safe world (f.apply text bound) := by
  unfold LibraryFunction.apply
  split
  · exact (safe_irreducibleOf htext _).map _
  · refine (guards_toSchema _).bind fun t ht => safe_makeType ?_
    exact .intro trivial (by simpa [Schema.components] using ht)
  · exact absurd rfl hlist
  · refine (guards_toSchema _).bind fun t ht => (guards_toSchema _).bind fun u hu => ?_
    exact safe_makeType (.intro trivial (by simpa [Schema.components] using ⟨ht, hu⟩))
  · refine (safe_toValue _).after fun v => ?_
    split
    · refine (guards_toProperties _).bind fun props hprops => safe_makeType ?_
      exact .intro trivial (List.forall_mem_map.2 hprops)
    · exact Guards.raise id
  · exact (guards_toSchemas _).bind fun ts hts => safe_makeType (.intro trivial hts)
  · exact (guards_toSchemas _).bind fun ts hts => safe_makeType (.intro trivial hts)
  · refine (guards_toSchema _).bind fun t ht => (safe_toValue _).after fun v => ?_
    exact safe_makeType (.intro trivial (by simpa [Schema.components] using ht))
  · exact absurd rfl htuple
  · -- the type is made of the result once the parameters are found, if there are any
    have hmake (params : Option (List Schema)) (hparams : ∀ t ∈ params.getD [], t.Sturdy)
        (result : Object) (shown : Option String) : Safe world (do
          return Object.value (← make (.func params (← result.toSchema) shown))) := by
      refine (guards_toSchema result).bind fun t ht => safe_makeType (.intro trivial ?_)
      exact List.forall_mem_append.2 ⟨hparams, by simpa using ht⟩
    dsimp only
    split
    · exact hmake none (List.forall_mem_nil _) _ _
    · exact (guards_toSchemas _).bind fun ts hts => hmake (some ts) hts _ _
  · exact (safe_toValue _).after fun v => safe_makeType (.intro trivial (List.forall_mem_nil _))
  · exact absurd rfl hlate
  · exact .pure trivial
  · exact Guards.raise id

/-- What the form of an expression tells of what it is evaluated to. -/
def Expr.Shows (e : Expr) (o : Object) : Prop :=
  match e with
  | .display _ .list elements =>
    ∃ vs, o = .value (.collection .list vs) ∧ vs.length = elements.length
  | .lambda _ _ body => o = .thunk body
  | _ => True

/-- What the runtime library offers under a name is called by that name. -/
theorem guards_attribute (o : Object) (function : String) :
    Guards world (o.attribute function) fun m =>
      ∀ f, m = .libraryFunction f → LibraryFunction.named.lookup function = some f := by
  unfold Object.attribute
  split
  · split
    · rename_i member hmember
      refine .pure fun f hf => ?_
      subst hf
      unfold libraryMember? at hmember
      split at hmember
      · cases hmember
      · simpa using hmember
    · exact Guards.raise id
  · split
    · refine .pure fun f hf => ?_
      cases hf
    · exact Guards.raise id
  · exact Guards.raise id

/-- What a name is bound to is found by a safe step. -/
theorem safe_lookupName (name : String) : Safe world (lookupName name) := by
  refine Ends.get.after fun s => ?_
  split
  · exact .pure trivial
  · exact Guards.raise id

/-- The keys of a dictionary are found by a safe step. -/
theorem safe_constantKeys (keys : List (Option Expr)) : Safe world (constantKeys keys) := by
  fun_induction constantKeys keys with
  | case1 => exact .pure trivial
  | case2 pos c isPrefixed rest ih => exact ih.map _
  | case3 => exact Guards.raise id

/-- A call for a list type of a container that there is makes a type that provides it. -/
theorem safe_callList {arguments : List Expr} (hlength : arguments.length = 1) {container : String}
    (hcontainer : container ∈ Schema.containers) {shown : Option String} {os : List Object}
    (hos : List.Forall₂ Expr.Shows arguments os) :
    Safe world (Object.call text (.libraryFunction .list) os
      (constantObjects (namedConstants shown (containerOptions container)))) := by
  obtain ⟨o, rfl⟩ := List.length_eq_one_iff.1 (hos.length_eq ▸ hlength)
  rw [call_list]
  refine (guards_toSchema o).bind fun t ht => safe_makeType (.intro hcontainer ?_)
  simpa [Schema.components] using ht

/-- A call for a tuple type makes a type that provides its element if it is of any length. -/
theorem safe_callTuple {elements : List Expr} {isVariadic : Bool}
    (hlength : isVariadic = true → elements.length = 1) {shown : Option String} {os : List Object}
    (hos : List.Forall₂ Expr.Shows [listExpr elements] os) :
    Safe world (Object.call text (.libraryFunction .tuple) os
      (constantObjects (namedConstants shown (lengthOptions isVariadic)))) := by
  cases hos with
  | cons ho hrest =>
    cases hrest
    obtain ⟨vs, rfl, hvs⟩ := ho
    rw [call_tuple]
    refine (guards_toSchemas_list vs).bind fun ts hts => safe_makeType (.intro ?_ hts.2)
    intro hvariadic
    have hts' : ts.length = 1 := (hts.1.trans hvs).trans (hlength hvariadic)
    exact List.ne_nil_of_length_eq_add_one hts'

/-- A call for a late reference makes one to sturdy code. -/
theorem safe_callLate {body : Expr} (hbody : body.Sturdy) {shown : Option String} {os : List Object}
    (hos : List.Forall₂ Expr.Shows [.lambda .synthetic .none body] os) :
    Safe world (Object.call text (.libraryFunction .late) os
      (constantObjects (namedConstants shown []))) := by
  cases hos with
  | cons ho hrest =>
    cases hrest
    subst ho
    cases shown with
    | none =>
      rw [call_late]
      exact (safe_makeLate hbody).map _
    | some name => exact Guards.raise id

/-- A call that provides what is looked up is safe. -/
theorem safe_call (htext : ∀ v, Safe world (text v)) {function : String} {arguments : List Expr}
    {options : List (String × Constant)} (hown : Provided function arguments options)
    (harguments : ∀ e ∈ arguments, e.Sturdy) {shown : Option String} {o : Object}
    (ho : ∀ f, o = .libraryFunction f → LibraryFunction.named.lookup function = some f)
    {os : List Object} (hos : List.Forall₂ Expr.Shows arguments os) :
    Safe world (o.call text os (constantObjects (namedConstants shown options))) := by
  cases o with
  | libraryFunction f =>
    have hnamed : (function, f) ∈ LibraryFunction.named := mem_of_lookup (ho f rfl)
    by_cases hlist : f = .list
    · subst hlist
      have hfunction : function = "list_of" := by simpa [LibraryFunction.named] using hnamed
      obtain ⟨hlength, container, hcontainer, rfl⟩ := hown.list hfunction
      exact safe_callList hlength hcontainer hos
    by_cases htuple : f = .tuple
    · subst htuple
      have hfunction : function = "tuple_of" := by simpa [LibraryFunction.named] using hnamed
      obtain ⟨elements, isVariadic, rfl, rfl, hlength⟩ := hown.tuple hfunction
      exact safe_callTuple hlength hos
    by_cases hlate : f = .late
    · subst hlate
      have hfunction : function = "lazy" := by simpa [LibraryFunction.named] using hnamed
      obtain ⟨body, rfl, rfl⟩ := hown.late hfunction
      cases harguments _ List.mem_cons_self with
      | thunk hbody => exact safe_callLate hbody hos
    rw [Object.call]
    split
    · exact safe_apply htext hlist htuple hlate _
    · exact Guards.raise id
  | _ => exact Guards.raise id

/-- Several expressions are evaluated to as many values by safe steps. -/
theorem guards_evaluateAll {es : List Expr} (h : ∀ e ∈ es, Safe world (evaluateWith text e)) :
    Guards world (evaluateAll text es) (·.length = es.length) := by
  induction es with
  | nil => exact .pure rfl
  | cons e rest ih =>
    refine (h e List.mem_cons_self).after fun o => (safe_toValue o).after fun v => ?_
    refine (ih fun e he => h e (List.mem_cons_of_mem _ he)).bind fun vs hvs => .pure ?_
    exact congrArg (· + 1) hvs

/-- Several expressions are evaluated by safe steps. -/
theorem guards_evaluateObjects {es : List Expr}
    (h : ∀ e ∈ es, Guards world (evaluateWith text e) e.Shows) :
    Guards world (evaluateObjects text es) (List.Forall₂ Expr.Shows es) := by
  induction es with
  | nil => exact .pure .nil
  | cons e rest ih =>
    refine (h e List.mem_cons_self).bind fun o ho => ?_
    refine (ih fun e he => h e (List.mem_cons_of_mem _ he)).bind fun os hos => .pure ?_
    exact .cons ho hos

/-- Sturdy code is evaluated by a safe step. -/
theorem guards_evaluateWith (htext : ∀ v, Safe world (text v)) {e : Expr} (h : e.Sturdy) :
    Guards world (evaluateWith text e) e.Shows := by
  induction h with
  | name id =>
    rw [evaluateWith]
    exact safe_lookupName id
  | access attr h ih =>
    rw [evaluateWith]
    exact ih.anyhow.after fun o => (guards_attribute o attr).anyhow
  | constant value => exact .pure trivial
  | list h ih =>
    rw [listExpr, evaluateWith]
    refine (guards_evaluateAll fun e he => (ih e he).anyhow).bind fun vs hvs => .pure ?_
    exact ⟨vs, rfl, hvs⟩
  | properties names h ih =>
    rw [evaluateWith]
    refine (safe_constantKeys _).after fun keys => ?_
    exact (guards_evaluateAll fun e he => (ih e he).anyhow).map _
  | thunk h => exact .pure rfl
  | call runtime shown hown h ih =>
    rw [callExpr, evaluateWith, runtimeExpr, evaluateWith]
    refine Ends.bind (P := _) ((safe_lookupName runtime).after fun o => guards_attribute o _)
      fun o ho => ?_
    refine (guards_evaluateObjects ih).bind fun os hos => ?_
    refine (Ends.of_reads fun s => reads_callKeywords s shown _).bind fun keywords hkeywords => ?_
    subst hkeywords
    exact safe_call htext hown h ho hos

/-- What is found for a late reference is kept in a sturdy session. -/
theorem Session.Sturdy.keepFound {s : Session} (hs : s.Sturdy) (slot number : Nat) :
    Session.Sturdy { s with slots := s.slots.modify slot ({ · with found := number }) } := by
  refine ⟨hs.models, fun i l hl => ?_⟩
  rw [Array.getElem?_modify] at hl
  split at hl
  · obtain ⟨l', hl', rfl⟩ := Option.map_eq_some_iff.1 hl
    exact hs.slots i l' hl'
  · exact hs.slots i l hl

/-- A late reference is followed by a safe step. -/
theorem safe_findLate (htext : ∀ v, Safe world (text v)) (slot : Nat) :
    Safe world (findLate text slot) := by
  refine Ends.get.bind fun s hs => ?_
  split
  · exact Guards.raise id
  · exact .pure trivial
  · rename_i body hslot
    refine (guards_evaluateWith htext (hs.slots slot _ hslot)).after fun o => ?_
    split
    · exact (Ends.modify fun _ hfollowed => hfollowed.keepFound slot _).map _
    · exact Guards.raise id

/-- The surroundings of a check are secure if types are shown by safe steps. -/
theorem secure_surroundingsWith {slotCount : Nat} {modelText : Nat → Run String}
    (h : ∀ n, Safe world (modelText n)) : (surroundingsWith world slotCount modelText).Secure where
  resolve slot := (safe_findLate (safe_textWith h) slot).after fun _ => guards_schemaOf _
  modelText := h

/-- Types are shown by safe steps. -/
theorem safe_modelText (slotCount fuel number : Nat) :
    Safe world (modelText world slotCount fuel number) := by
  induction fuel generalizing number with
  | zero => exact Guards.raise id
  | succ fuel ih =>
    have hsecure : (surroundingsWith world slotCount _).Secure := secure_surroundingsWith ih
    refine (guards_schemaOf _).bind fun t ht => ?_
    split
    · refine Ends.get.after fun s => ?_
      split
      · exact (guards_schemaOf _).after fun found => (hsecure.name found).map _
      · exact .pure trivial
    · exact (hsecure.name _).map _

/-- The surroundings of a check in a session are secure. -/
theorem guards_surroundings :
    Guards world (surroundings world) fun cx => cx.Secure ∧ cx.world = world :=
  Ends.get.after fun _ => .pure ⟨secure_surroundingsWith (safe_modelText _ _), rfl⟩

end Typeward
