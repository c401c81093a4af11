import Typeward.Proofs.GrowingSessions
import Typeward.Proofs.Renderings

/-!
# The evaluation of type expressions

What each call of the runtime library makes, by the types that its arguments are evaluated to. What
a part was evaluated to is still there when the call that it is a part of is made, because a session
only grows.
-/

namespace Typeward

/-- The constants that the keyword arguments of a call give. -/
def namedConstants (shown : Option String) (options : List (String × Constant)) :
    List (String × Constant) :=
  (options.filter fun option => option.1 != "any_params") ++
    (shown.map fun name => ("name", Constant.text name)).toList

/-- Keyword arguments as they are passed on. -/
def constantObjects (options : List (String × Constant)) : List (String × Object) :=
  options.map fun option => (option.1, .value (.constant option.2))

/-- A display name as it is passed on. -/
def shownObject (shown : Option String) : Option Object :=
  shown.map fun name => .value (.ofText name)

/-- A display name that is passed on is the one that is given. -/
@[simp]
theorem shownName_shownObject (shown : Option String) : shownName (shownObject shown) = shown := by
  cases shown <;> rfl

/-- The keyword arguments of a call are passed on. -/
theorem reads_callKeywords {text : Value → Run String} (s : Session) (shown : Option String)
    (options : List (String × Constant)) :
    Reads (evaluateKeywords text (callKeywords shown options)) s
      (constantObjects (namedConstants shown options)) := by
  have heq : callKeywords shown options = (namedConstants shown options).map fun option =>
      ⟨some option.1, constantExpr option.2⟩ := by
    cases shown <;> simp [callKeywords, namedConstants]
  rw [heq]
  generalize namedConstants shown options = constants
  induction constants with
  | nil => exact .pure [] s
  | cons option rest ih => exact (Reads.pure _ s).bind (ih.bind (.pure _ s))

/-- The keys of an interface are its names. -/
theorem reads_propertyKeys (s : Session) (fields : List (String × TypeExpr)) :
    Reads (constantKeys (propertyKeys fields)) s (fields.map fun f => .ofText f.1) := by
  induction fields with
  | nil => exact .pure [] s
  | cons f rest ih => exact ih.bind (.pure _ s)

/-- In every session that goes on from one, an expression is evaluated to something, and the
session goes on. -/
def Expr.Evaluates (start : Session) (Q : Session → Object → Prop) (x : Expr) : Prop :=
  ∀ text s, start.Extends s → Yields (evaluateWith text x) s fun o s' => s.Extends s' ∧ Q s' o

/-- An object is the model of a type of which something holds, provided that the session is kept in a
later one. -/
def IsType (later : Session) (R : Schema → Prop) (s : Session) (o : Object) : Prop :=
  ∃ v t, o = .value v ∧ s.IsModel v t ∧ (s.Kept later → R t)

/-- An object is a list of models of types, of each of which something holds, provided that the
session is kept in a later one. -/
def AreTypes (later : Session) (Rs : List (Schema → Prop)) (s : Session) (o : Object) : Prop :=
  ∃ vs ts, o = .value (.collection .list vs) ∧ List.Forall₂ s.IsModel vs ts ∧
    (s.Kept later → List.Forall₂ (fun R t => R t) Rs ts)

/-- What holds of an object goes on to hold. -/
def Lasts (Q : Session → Object → Prop) : Prop := ∀ s s' o, s.Extends s' → Q s o → Q s' o

/-- The model of a type stays one. -/
theorem lasts_isType {later : Session} {R : Schema → Prop} : Lasts (IsType later R) := by
  rintro s s' o hextends ⟨v, t, rfl, hmodel, hR⟩
  exact ⟨v, t, rfl, hmodel.kept hextends.kept, fun hkept => hR (hextends.kept.trans hkept)⟩

/-- A list of models of types stays one. -/
theorem lasts_areTypes {later : Session} {Rs : List (Schema → Prop)} :
    Lasts (AreTypes later Rs) := by
  rintro s s' o hextends ⟨vs, ts, rfl, hmodels, hRs⟩
  exact ⟨vs, ts, rfl, hmodels.imp fun v t hv => hv.kept hextends.kept,
    fun hkept => hRs (hextends.kept.trans hkept)⟩

namespace Expr.Evaluates

variable {start : Session} {Q Q' R : Session → Object → Prop} {x y : Expr}
  {text : Value → Run String} {s : Session}

/-- What is evaluated may be told less exactly. -/
theorem mono (hx : x.Evaluates start Q) (h : ∀ s o, Q s o → Q' s o) : x.Evaluates start Q' := by
  intro text s hs
  refine (hx text s hs).mono fun o s' ho => ?_
  exact ⟨ho.1, h s' o ho.2⟩

/-- One argument is evaluated. -/
theorem argument (hx : x.Evaluates start Q) (hs : start.Extends s) :
    Yields (evaluateObjects text [x]) s fun os s' => s.Extends s' ∧ ∃ o, os = [o] ∧ Q s' o := by
  refine (hx text s hs).bind fun o s' ho => .pure ?_
  exact ⟨ho.1, o, rfl, ho.2⟩

/-- Two arguments are evaluated. -/
theorem arguments (hx : x.Evaluates start Q) (hy : y.Evaluates start Q') (hlasts : Lasts Q)
    (hs : start.Extends s) :
    Yields (evaluateObjects text [x, y]) s fun os s' =>
      s.Extends s' ∧ ∃ o o', os = [o, o'] ∧ Q s' o ∧ Q' s' o' := by
  refine (hx text s hs).bind fun o s' ho => ?_
  refine (hy.argument (hs.trans ho.1)).bind fun os s'' ⟨hextends, o', hos, ho'⟩ => .pure ?_
  subst hos
  exact ⟨ho.1.trans hextends, o, o', rfl, hlasts s' s'' o hextends ho.2, ho'⟩

end Expr.Evaluates

/-- The models of types that expressions are evaluated to. -/
theorem yields_evaluateAll {start later : Session} {Rs : List (Schema → Prop)} {xs : List Expr}
    {text : Value → Run String}
    (h : List.Forall₂ (fun R x => x.Evaluates start (IsType later R)) Rs xs) :
    ∀ s, start.Extends s → Yields (evaluateAll text xs) s fun vs s' => s.Extends s' ∧
      ∃ ts, List.Forall₂ s'.IsModel vs ts ∧
        (s'.Kept later → List.Forall₂ (fun R t => R t) Rs ts) := by
  induction h with
  | nil => exact fun s _ => .pure ⟨.refl s, [], .nil, fun _ => .nil⟩
  | cons hx hxs ih =>
    intro s hs
    refine Yields.bind (hx text s hs) ?_
    rintro _ s' ⟨hextends, v, t, rfl, hmodel, hR⟩
    refine (ih s' (hs.trans hextends)).bind ?_
    rintro vs s'' ⟨hextends', ts, hmodels, hRs⟩
    refine .pure ⟨hextends.trans hextends', t :: ts, ?_, fun hkept => ?_⟩
    · exact .cons (hmodel.kept hextends'.kept) hmodels
    · exact .cons (hR (hextends'.kept.trans hkept)) (hRs hkept)

section Displays

variable {start later : Session} {Rs : List (Schema → Prop)} {xs : List Expr}

/-- A constant is evaluated to itself. -/
theorem evaluates_constantExpr (c : Constant) :
    (constantExpr c).Evaluates start fun _ o => o = .value (.constant c) := by
  intro text s hs
  exact ⟨_, s, rfl, .refl s, rfl⟩

/-- A name with dots is evaluated to what it stands for. -/
theorem evaluates_dottedExpr {name : String} {o : Object} (h : start.read name = some o) :
    (dottedExpr name).Evaluates start fun _ found => found = o := by
  intro text s hs
  have hread : s.read name = some o := by
    rw [← h, Session.read, Session.read, hs.names]
  exact ⟨o, s, reads_dottedExpr hread, .refl s, rfl⟩

/-- A list display of types is evaluated to a list of them. -/
theorem evaluates_listExpr
    (h : List.Forall₂ (fun R x => x.Evaluates start (IsType later R)) Rs xs) :
    (listExpr xs).Evaluates start (AreTypes later Rs) := by
  intro text s hs
  rw [listExpr, evaluateWith]
  refine (yields_evaluateAll h s hs).bind ?_
  rintro vs s' ⟨hextends, ts, hmodels, hRs⟩
  exact .pure ⟨hextends, vs, ts, rfl, hmodels, hRs⟩

/-- Entries with different keys stay as they are when they are put into a mapping. -/
theorem distinctEntries_eq_self {entries : List (Value × Value)}
    (h : entries.Pairwise fun e f => e.1.equals f.1 = false) :
    Value.distinctEntries entries = entries := by
  have hinsert (key value : Value) : ∀ found : List (Value × Value),
      (∀ e ∈ found, e.1.equals key = false) →
      Value.insertEntry key value found = found ++ [(key, value)] := by
    intro found
    induction found with
    | nil => exact fun _ => rfl
    | cons e rest ih =>
      intro hfound
      rw [Value.insertEntry, hfound e List.mem_cons_self,
        ih fun f hf => hfound f (List.mem_cons_of_mem _ hf)]
      rfl
  have hfold : ∀ found, (found ++ entries).Pairwise (fun e f => e.1.equals f.1 = false) →
      entries.foldl (fun found e => Value.insertEntry e.1 e.2 found) found = found ++ entries := by
    clear h
    induction entries with
    | nil => simp
    | cons e rest ih =>
      intro found hfound
      have hbefore : ∀ f ∈ found, f.1.equals e.1 = false := fun f hf =>
        (List.pairwise_append.1 hfound).2.2 f hf e List.mem_cons_self
      rw [List.foldl_cons, hinsert e.1 e.2 found hbefore, ih _ (by simpa using hfound)]
      simp
  exact hfold [] h

/-- Texts are equal as values just when they are the same. -/
theorem equals_ofText (a b : String) :
    (Value.ofText a).equals (Value.ofText b) = decide (a = b) := by
  simp [Value.ofText, Value.equals, Value.plain, Constant.equals, Constant.numeral?]

/-- An object is a mapping from names to models of types, of each of which something holds, provided
that the session is kept in a later one. -/
def AreProperties (later : Session) (names : List String) (Rs : List (Schema → Prop)) (s : Session)
    (o : Object) : Prop :=
  ∃ vs ts, o = .value (.mapping false ((names.map Value.ofText).zip vs)) ∧
    List.Forall₂ s.IsModel vs ts ∧ (s.Kept later → List.Forall₂ (fun R t => R t) Rs ts)

/-- A dictionary display of types under different names is evaluated to a mapping to them. -/
theorem evaluates_properties {fields : List (String × TypeExpr)}
    (hnames : (fields.map (·.1)).Nodup)
    (h : List.Forall₂ (fun R x => x.Evaluates start (IsType later R)) Rs xs) :
    (Expr.dict .synthetic (propertyKeys fields) xs).Evaluates start
      (AreProperties later (fields.map (·.1)) Rs) := by
  intro text s hs
  rw [evaluateWith]
  refine (reads_propertyKeys s fields).yields_bind ((yields_evaluateAll h s hs).bind ?_)
  rintro vs s' ⟨hextends, ts, hmodels, hRs⟩
  refine .pure ⟨hextends, vs, ts, ?_, hmodels, hRs⟩
  have hkeys : (fields.map fun f => Value.ofText f.1) = (fields.map (·.1)).map Value.ofText := by
    rw [List.map_map]
    rfl
  rw [hkeys]
  generalize fields.map (·.1) = names at hnames
  congr 2
  refine distinctEntries_eq_self ?_
  clear hRs
  induction names generalizing vs ts with
  | nil => exact .nil
  | cons name names ih =>
    cases hmodels with
    | nil => exact .nil
    | cons hv hvs =>
      rw [List.nodup_cons] at hnames
      refine .cons (fun e he => ?_) (ih _ _ hvs hnames.2)
      obtain ⟨other, hother, hkey⟩ := List.mem_map.1 (List.of_mem_zip he).1
      rw [← hkey, equals_ofText, decide_eq_false_iff_not]
      rintro rfl
      exact hnames.1 hother

end Displays

section Calls

attribute [local simp] LibraryFunction.apply

variable {start later : Session} {runtime : String} {text : Value → Run String} {s : Session}
  {x y : Expr} {Q Q' : Session → Object → Prop} {R R' : Schema → Prop} {shown : Option String}

/-- A type that is made is one of which something holds, provided that this is known in time. -/
theorem yields_makeType {t : Schema} (hR : s.Kept later → R t) :
    Yields (do return .value (← make t)) s fun o s' => s.Extends s' ∧ IsType later R s' o := by
  refine (yields_make s t).bind fun v s' ⟨hextends, hmodel⟩ => .pure ?_
  exact ⟨hextends, v, t, rfl, hmodel, fun hkept => hR (hextends.kept.trans hkept)⟩

/-- A call of a function of the library with arguments that fit applies it. -/
theorem call_libraryFunction {f : LibraryFunction} {os : List Object}
    {keywords : List (String × Object)} {bound : List (Option Object)}
    (h : f.signature.bind os keywords = some bound) :
    Object.call text (.libraryFunction f) os keywords = f.apply text bound := by
  rw [Object.call, h]

/-- A call for a list type makes one, of the container that is given. -/
theorem call_list {container : String} (o : Object) :
    Object.call text (.libraryFunction .list) [o]
        (constantObjects (namedConstants shown (containerOptions container))) =
      (do return .value (← make (.list (← o.toSchema) container shown))) := by
  obtain ⟨given, hbind, hgiven⟩ : ∃ given, LibraryFunction.list.signature.bind [o]
      (constantObjects (namedConstants shown (containerOptions container))) =
        some [some o, given, shownObject shown] ∧
      (shownName given).getD "list" = container := by
    unfold containerOptions
    split
    · rename_i hlist
      exact ⟨none, by cases shown <;> rfl, hlist.symm⟩
    · exact ⟨some (.value (.ofText container)), by cases shown <;> rfl, rfl⟩
  rw [call_libraryFunction hbind, LibraryFunction.apply, shownName_shownObject, hgiven]

/-- A call for a tuple type makes one, of any length if that is asked for. -/
theorem call_tuple {isVariadic : Bool} (o : Object) :
    Object.call text (.libraryFunction .tuple) [o]
        (constantObjects (namedConstants shown (lengthOptions isVariadic))) =
      (do return .value (← make (.tuple (← o.toSchemas) isVariadic shown))) := by
  cases isVariadic with
  | true =>
    have hbind : LibraryFunction.tuple.signature.bind [o]
        (constantObjects (namedConstants shown (lengthOptions true))) =
          some [some o, some (.value (.constant (.bool true))), shownObject shown] := by
      cases shown <;> rfl
    rw [call_libraryFunction hbind, LibraryFunction.apply, shownName_shownObject]
    rfl
  | false =>
    have hbind : LibraryFunction.tuple.signature.bind [o]
        (constantObjects (namedConstants shown (lengthOptions false))) =
          some [some o, none, shownObject shown] := by
      cases shown <;> rfl
    rw [call_libraryFunction hbind]
    simp only [LibraryFunction.apply, shownName_shownObject]

/-- A call for a late reference makes one. -/
theorem call_late {body : Expr} :
    Object.call text (.libraryFunction .late) [.thunk body]
        (constantObjects (namedConstants none [])) =
      (do return .value (← makeLate body)) := by
  have hbind : LibraryFunction.late.signature.bind [.thunk body]
      (constantObjects (namedConstants none [])) = some [some (.thunk body)] := rfl
  rw [call_libraryFunction hbind, LibraryFunction.apply]

/-- A call for an optional type makes one. -/
theorem call_maybe (o : Object) :
    Object.call text (.libraryFunction .maybe) [o] (constantObjects (namedConstants shown [])) =
      (do return .value (← make (.maybe (← o.toSchema) shown))) := by
  have hbind : LibraryFunction.maybe.signature.bind [o]
      (constantObjects (namedConstants shown [])) = some [some o, shownObject shown] := by
    cases shown <;> rfl
  rw [call_libraryFunction hbind, LibraryFunction.apply, shownName_shownObject]

/-- A call for a dictionary type makes one. -/
theorem call_dict (o o' : Object) :
    Object.call text (.libraryFunction .dict) [o, o'] (constantObjects (namedConstants shown [])) =
      (do
        let key ← o.toSchema
        return .value (← make (.dict key (← o'.toSchema) shown))) := by
  have hbind : LibraryFunction.dict.signature.bind [o, o']
      (constantObjects (namedConstants shown [])) = some [some o, some o', shownObject shown] := by
    cases shown <;> rfl
  rw [call_libraryFunction hbind, LibraryFunction.apply, shownName_shownObject]

/-- A call for an interface makes one of the properties that a dictionary gives. -/
theorem call_interface (o : Object) :
    Object.call text (.libraryFunction .interface) [o] (constantObjects (namedConstants shown [])) =
      (do
        match ← o.toValue with
        | .mapping _ entries => return .value (← make (.interface (← toProperties entries) shown))
        | _ => throw .misfit) := by
  have hbind : LibraryFunction.interface.signature.bind [o]
      (constantObjects (namedConstants shown [])) = some [some o, shownObject shown] := by
    cases shown <;> rfl
  rewrite [call_libraryFunction hbind, LibraryFunction.apply, shownName_shownObject]
  rfl

/-- A call for a type of several others makes one of those that are listed. -/
theorem call_listed {f : LibraryFunction} {made : List Schema → Option String → Schema}
    (hsignature : f.signature = ⟨["types", "name"], 1⟩)
    (happly : ∀ text types given, f.apply text [some types, given] =
      do return .value (← make (made (← types.toSchemas) (shownName given)))) (o : Object) :
    Object.call text (.libraryFunction f) [o] (constantObjects (namedConstants shown [])) =
      (do return .value (← make (made (← o.toSchemas) shown))) := by
  have hbind : f.signature.bind [o] (constantObjects (namedConstants shown [])) =
      some [some o, shownObject shown] := by
    rw [hsignature]
    cases shown <;> rfl
  rw [call_libraryFunction hbind, happly, shownName_shownObject]

/-- A call for a refinement makes one. -/
theorem call_refinement (o o' : Object) :
    Object.call text (.libraryFunction .refinement) [o, o']
        (constantObjects (namedConstants shown [])) =
      (do
        let base ← o.toSchema
        return .value (← make (.refinement base (← o'.toValue) shown))) := by
  have hbind : LibraryFunction.refinement.signature.bind [o, o']
      (constantObjects (namedConstants shown [])) = some [some o, some o', shownObject shown] := by
    cases shown <;> rfl
  rw [call_libraryFunction hbind, LibraryFunction.apply, shownName_shownObject]

/-- A call for a function type with given parameters makes one. -/
theorem call_function {k : Collection} (vs : List Value) (o : Object) :
    Object.call text (.libraryFunction .func) [.value (.collection k vs), o]
        (constantObjects (namedConstants shown [])) =
      (do
        let params ← (Object.value (.collection k vs)).toSchemas
        return .value (← make (.func (some params) (← o.toSchema) shown))) := by
  have hbind : LibraryFunction.func.signature.bind [.value (.collection k vs), o]
      (constantObjects (namedConstants shown [])) =
        some [some (.value (.collection k vs)), some o, shownObject shown] := by
    cases shown <;> rfl
  rw [call_libraryFunction hbind]
  simp only [LibraryFunction.apply, shownName_shownObject]
  rfl

/-- A call for a function type with any parameters makes one. -/
theorem call_anyFunction (o : Object) :
    Object.call text (.libraryFunction .func) [.value (.constant .none), o]
        (constantObjects (namedConstants shown [("any_params", .bool true)])) =
      (do return .value (← make (.func none (← o.toSchema) shown))) := by
  have hbind : LibraryFunction.func.signature.bind [.value (.constant .none), o]
      (constantObjects (namedConstants shown [("any_params", .bool true)])) =
        some [some (.value (.constant .none)), some o, shownObject shown] := by
    cases shown <;> rfl
  rw [call_libraryFunction hbind, LibraryFunction.apply, shownName_shownObject]
  simp only [pure_bind]

/-- A call for the type of a value makes it. -/
theorem call_literal (o : Object) :
    Object.call text (.libraryFunction .literal) [o] (constantObjects (namedConstants shown [])) =
      (do return .value (← make (.literal (← o.toValue) shown))) := by
  have hbind : LibraryFunction.literal.signature.bind [o]
      (constantObjects (namedConstants shown [])) = some [some o, shownObject shown] := by
    cases shown <;> rfl
  rw [call_libraryFunction hbind, LibraryFunction.apply, shownName_shownObject]

/-- A call for a check against a class uses it as a type. -/
theorem call_irreducible (o : Object) :
    Object.call text (.libraryFunction .irreducible) [o]
        (constantObjects (namedConstants none [])) =
      (do return .value (← irreducibleOf text o)) := by
  have hbind : LibraryFunction.irreducible.signature.bind [o]
      (constantObjects (namedConstants none [])) = some [some o] := rfl
  rw [call_libraryFunction hbind, LibraryFunction.apply]

/-- A call with one argument by position. -/
theorem Expr.Evaluates.call {function : String} {f : LibraryFunction}
    {options : List (String × Constant)} {Q' : Session → Object → Prop}
    (hx : x.Evaluates start Q) (hruntime : start.names.lookup runtime = some .library)
    (hf : libraryMember? function = some (.libraryFunction f))
    (hcall : ∀ text s o, Q s o → Yields (Object.call text (.libraryFunction f) [o]
      (constantObjects (namedConstants shown options))) s fun o' s' => s.Extends s' ∧ Q' s' o') :
    (callExpr (runtimeExpr runtime function) [x] (callKeywords shown options)).Evaluates start
      Q' := by
  intro text s hs
  rw [callExpr, evaluateWith]
  refine (reads_runtimeExpr (hs.names ▸ hruntime) hf).yields_bind ((hx.argument hs).bind ?_)
  rintro _ s' ⟨hextends, o, rfl, ho⟩
  refine (reads_callKeywords s' shown options).yields_bind ((hcall text s' o ho).mono ?_)
  rintro o' s'' ⟨hextends', ho'⟩
  exact ⟨hextends.trans hextends', ho'⟩

/-- A call with two arguments by position. -/
theorem Expr.Evaluates.callTwo {function : String} {f : LibraryFunction}
    {options : List (String × Constant)} {P : Session → Object → Prop}
    (hx : x.Evaluates start Q) (hy : y.Evaluates start Q') (hlasts : Lasts Q)
    (hruntime : start.names.lookup runtime = some .library)
    (hf : libraryMember? function = some (.libraryFunction f))
    (hcall : ∀ text s o o', Q s o → Q' s o' → Yields (Object.call text (.libraryFunction f) [o, o']
      (constantObjects (namedConstants shown options))) s fun o'' s' => s.Extends s' ∧ P s' o'') :
    (callExpr (runtimeExpr runtime function) [x, y] (callKeywords shown options)).Evaluates start
      P := by
  intro text s hs
  rw [callExpr, evaluateWith]
  refine (reads_runtimeExpr (hs.names ▸ hruntime) hf).yields_bind ?_
  refine (hx.arguments hy hlasts hs).bind ?_
  rintro _ s' ⟨hextends, o, o', rfl, ho, ho'⟩
  refine (reads_callKeywords s' shown options).yields_bind ((hcall text s' o o' ho ho').mono ?_)
  rintro o'' s'' ⟨hextends', ho''⟩
  exact ⟨hextends.trans hextends', ho''⟩

/-- An optional type is made. -/
theorem evaluates_maybe (hruntime : start.names.lookup runtime = some .library)
    (hx : x.Evaluates start (IsType later R)) (hR : ∀ t, R t → R' (.maybe t shown)) :
    (callExpr (runtimeExpr runtime "maybe") [x] (callKeywords shown [])).Evaluates start
      (IsType later R') := by
  refine hx.call hruntime rfl ?_
  rintro text s _ ⟨v, t, rfl, hmodel, ht⟩
  rw [call_maybe]
  exact (reads_schemaOf hmodel).yields_bind (yields_makeType fun hkept => hR t (ht hkept))

/-- A list type is made. -/
theorem evaluates_list {container : String} (hruntime : start.names.lookup runtime = some .library)
    (hx : x.Evaluates start (IsType later R)) (hR : ∀ t, R t → R' (.list t container shown)) :
    (callExpr (runtimeExpr runtime "list_of") [x]
      (callKeywords shown (containerOptions container))).Evaluates start (IsType later R') := by
  refine hx.call hruntime rfl ?_
  rintro text s _ ⟨v, t, rfl, hmodel, ht⟩
  rw [call_list]
  exact (reads_schemaOf hmodel).yields_bind (yields_makeType fun hkept => hR t (ht hkept))

/-- A dictionary type is made. -/
theorem evaluates_dict (hruntime : start.names.lookup runtime = some .library)
    (hx : x.Evaluates start (IsType later R)) (hy : y.Evaluates start (IsType later R'))
    {P : Schema → Prop} (hP : ∀ t u, R t → R' u → P (.dict t u shown)) :
    (callExpr (runtimeExpr runtime "dict_of") [x, y] (callKeywords shown [])).Evaluates start
      (IsType later P) := by
  refine hx.callTwo hy lasts_isType hruntime rfl ?_
  rintro text s _ _ ⟨v, t, rfl, hv, ht⟩ ⟨w, u, rfl, hw, hu⟩
  rw [call_dict]
  refine (reads_schemaOf hv).yields_bind ((reads_schemaOf hw).yields_bind ?_)
  exact yields_makeType fun hkept => hP t u (ht hkept) (hu hkept)

/-- An interface is made. -/
theorem evaluates_interface {names : List String} {Rs : List (Schema → Prop)}
    (hruntime : start.names.lookup runtime = some .library)
    (hx : x.Evaluates start (AreProperties later names Rs))
    (hR : ∀ ts, List.Forall₂ (fun R t => R t) Rs ts → R' (.interface (names.zip ts) shown)) :
    (callExpr (runtimeExpr runtime "interface") [x] (callKeywords shown [])).Evaluates start
      (IsType later R') := by
  refine hx.call hruntime rfl ?_
  rintro text s _ ⟨vs, ts, rfl, hmodels, hts⟩
  rw [call_interface]
  refine (Reads.pure _ s).yields_bind ((reads_toProperties hmodels).yields_bind ?_)
  exact yields_makeType fun hkept => hR ts (hts hkept)

/-- The types in a list of models are found. -/
theorem reads_toSchemas {vs : List Value} {ts : List Schema} (h : List.Forall₂ s.IsModel vs ts) :
    Reads (Object.value (.collection .list vs)).toSchemas s ts :=
  (Reads.pure (Value.collection .list vs) s).bind (reads_schemasOf h)

/-- A type of several others is made by a function that takes nothing but their list. -/
theorem evaluates_listed {function : String} {f : LibraryFunction} {Rs : List (Schema → Prop)}
    {made : List Schema → Option String → Schema}
    (hruntime : start.names.lookup runtime = some .library)
    (hf : libraryMember? function = some (.libraryFunction f))
    (hsignature : f.signature = ⟨["types", "name"], 1⟩)
    (happly : ∀ text types given, f.apply text [some types, given] =
      do return .value (← make (made (← types.toSchemas) (shownName given))))
    (hx : x.Evaluates start (AreTypes later Rs))
    (hR : ∀ ts, List.Forall₂ (fun R t => R t) Rs ts → R' (made ts shown)) :
    (callExpr (runtimeExpr runtime function) [x] (callKeywords shown [])).Evaluates start
      (IsType later R') := by
  refine hx.call hruntime hf ?_
  rintro text s _ ⟨vs, ts, rfl, hmodels, hts⟩
  rw [call_listed hsignature happly]
  refine (reads_toSchemas hmodels).yields_bind ?_
  exact yields_makeType fun hkept => hR ts (hts hkept)

/-- A tuple type is made. -/
theorem evaluates_tuple {isVariadic : Bool} {Rs : List (Schema → Prop)}
    (hruntime : start.names.lookup runtime = some .library)
    (hx : x.Evaluates start (AreTypes later Rs))
    (hR : ∀ ts, List.Forall₂ (fun R t => R t) Rs ts → R' (.tuple ts isVariadic shown)) :
    (callExpr (runtimeExpr runtime "tuple_of") [x]
      (callKeywords shown (lengthOptions isVariadic))).Evaluates start (IsType later R') := by
  refine hx.call hruntime rfl ?_
  rintro text s _ ⟨vs, ts, rfl, hmodels, hts⟩
  rw [call_tuple]
  exact (reads_toSchemas hmodels).yields_bind (yields_makeType fun hkept => hR ts (hts hkept))

/-- A function type with given parameters is made. -/
theorem evaluates_function {Rs : List (Schema → Prop)}
    (hruntime : start.names.lookup runtime = some .library)
    (hx : x.Evaluates start (AreTypes later Rs)) (hy : y.Evaluates start (IsType later R))
    (hR : ∀ ts t, List.Forall₂ (fun R t => R t) Rs ts → R t → R' (.func (some ts) t shown)) :
    (callExpr (runtimeExpr runtime "func") [x, y] (callKeywords shown [])).Evaluates start
      (IsType later R') := by
  refine hx.callTwo hy lasts_areTypes hruntime rfl ?_
  rintro text s _ _ ⟨vs, ts, rfl, hmodels, hts⟩ ⟨v, t, rfl, hv, ht⟩
  rw [call_function]
  refine (reads_toSchemas hmodels).yields_bind ((reads_schemaOf hv).yields_bind ?_)
  exact yields_makeType fun hkept => hR ts t (hts hkept) (ht hkept)

/-- A function type with any parameters is made. -/
theorem evaluates_anyFunction (hruntime : start.names.lookup runtime = some .library)
    (hy : y.Evaluates start (IsType later R)) (hR : ∀ t, R t → R' (.func none t shown)) :
    (callExpr (runtimeExpr runtime "func") [constantExpr .none, y]
      (callKeywords shown [("any_params", .bool true)])).Evaluates start (IsType later R') := by
  refine (evaluates_constantExpr .none).callTwo hy (fun _ _ _ _ h => h) hruntime rfl ?_
  rintro text s _ _ rfl ⟨v, t, rfl, hv, ht⟩
  rw [call_anyFunction]
  exact (reads_schemaOf hv).yields_bind (yields_makeType fun hkept => hR t (ht hkept))

/-- A refinement is made by a predicate that a name stands for. -/
theorem evaluates_refinement {name : String} {predicate : Value}
    (hruntime : start.names.lookup runtime = some .library)
    (hx : x.Evaluates start (IsType later R))
    (hpredicate : start.read name = some (.value predicate))
    (hR : ∀ t, R t → R' (.refinement t predicate shown)) :
    (callExpr (runtimeExpr runtime "refinement") [x, dottedExpr name]
      (callKeywords shown [])).Evaluates start (IsType later R') := by
  refine hx.callTwo (evaluates_dottedExpr hpredicate) lasts_isType hruntime rfl ?_
  rintro text s _ _ ⟨v, t, rfl, hv, ht⟩ rfl
  rw [call_refinement]
  refine (reads_schemaOf hv).yields_bind ((Reads.pure predicate s).yields_bind ?_)
  exact yields_makeType fun hkept => hR t (ht hkept)

/-- The type of a value is made. -/
theorem evaluates_literal {c : Constant} (hruntime : start.names.lookup runtime = some .library)
    (hR : R (.literal (.constant c) shown)) :
    (callExpr (runtimeExpr runtime "literal") [constantExpr c] (callKeywords shown [])).Evaluates
      start (IsType later R) := by
  refine (evaluates_constantExpr c).call hruntime rfl ?_
  rintro text s _ rfl
  rw [call_literal]
  exact (Reads.pure (Value.constant c) s).yields_bind (yields_makeType fun _ => hR)

/-- A late reference is made. What holds of it may depend on its slot, which has its expression in a
later session. -/
theorem evaluates_lateExpr {body : Expr} (hruntime : start.names.lookup runtime = some .library)
    (hR : ∀ (slot : Nat) (l : Slot), later.slots[slot]? = some l → l.body = body → R (.late slot)) :
    (lateExpr runtime body).Evaluates start (IsType later R) := by
  have hthunk : (Expr.lambda .synthetic .none body).Evaluates start
      fun _ o => o = .thunk body := fun text s _ => ⟨_, s, rfl, .refl s, rfl⟩
  change (callExpr (runtimeExpr runtime "lazy") _ (callKeywords none [])).Evaluates start _
  refine hthunk.call hruntime rfl ?_
  rintro text s _ rfl
  rw [call_late]
  refine (yields_makeLate s body).bind fun v s' ⟨hextends, slot, l, hmodel, hl, hbody⟩ => .pure ?_
  refine ⟨hextends, v, _, rfl, hmodel, fun hkept => ?_⟩
  obtain ⟨l', hl', hbody'⟩ := hkept.slots slot l hl
  exact hR slot l' hl' (hbody'.trans hbody)

end Calls

/-- In every session that goes on from one, an expression is evaluated to the model of a type. -/
abbrev Expr.EvaluatesTo (start : Session) (t : Schema) (x : Expr) : Prop :=
  x.Evaluates start fun s o => ∃ v, o = .value v ∧ s.IsModel v t

section Types

variable {start later : Session} {runtime name : String} {t : Schema} {x : Expr}

/-- What holds of the type that an expression is evaluated to may be asked for later. -/
theorem Expr.EvaluatesTo.isType (hx : x.EvaluatesTo start t) {R : Schema → Prop} (hR : R t) :
    x.Evaluates start (IsType later R) := by
  refine hx.mono fun s o ⟨v, ho, hmodel⟩ => ?_
  exact ⟨v, t, ho, hmodel, fun _ => hR⟩

/-- A name that stands for a type is evaluated to it. -/
theorem evaluatesTo_dottedExpr {v : Value} (hread : start.read name = some (.value v))
    (hmodel : start.IsModel v t) : (dottedExpr name).EvaluatesTo start t := by
  intro text s hs
  refine (evaluates_dottedExpr hread text s hs).mono fun o s' ⟨hextends, ho⟩ => ?_
  exact ⟨hextends, v, ho, hmodel.kept (hs.trans hextends).kept⟩

/-- A check against what a name gives is evaluated to the type that it gives. -/
theorem evaluatesTo_classCheck (hruntime : start.names.lookup runtime = some .library)
    (h : start.Gives name t) :
    (callExpr (runtimeExpr runtime "irreducible") [dottedExpr name]
      (callKeywords none [])).EvaluatesTo start t := by
  cases h with
  | @ofType v t hread hmodel =>
    have harg := evaluatesTo_dottedExpr hread hmodel
    refine harg.call hruntime rfl ?_
    rintro text s _ ⟨w, rfl, number, rfl, ht⟩
    rw [call_irreducible]
    exact (Reads.pure _ s).yields_bind (.pure ⟨.refl s, _, rfl, number, rfl, ht⟩)
  | @ofClass c hread =>
    refine (evaluates_dottedExpr hread).call hruntime rfl ?_
    rintro text s _ rfl
    rw [call_irreducible]
    refine (yields_make s _).bind fun v s' ⟨hextends, hmodel⟩ => .pure ?_
    exact ⟨hextends, v, rfl, hmodel⟩

/-- A primitive type is offered by the library, and its model is in every session. -/
theorem exists_primitive {test : Test} (h : primitives.lookup name = some test)
    (names : List (String × Object)) :
    ∃ v, libraryMember? name = some (.value v) ∧
      (Session.start names).IsModel v (.irreducible name test) := by
  have hmem : (name, test) ∈ primitives := by
    obtain ⟨before, after, heq, -⟩ := List.lookup_eq_some_iff.1 h
    exact heq ▸ List.mem_append_right before List.mem_cons_self
  simp only [primitives, List.mem_cons, Prod.mk.injEq, List.not_mem_nil, or_false] at hmem
  rcases hmem with ⟨rfl, rfl⟩ | ⟨rfl, rfl⟩ | ⟨rfl, rfl⟩ | ⟨rfl, rfl⟩ | ⟨rfl, rfl⟩ | ⟨rfl, rfl⟩ |
    ⟨rfl, rfl⟩ | ⟨rfl, rfl⟩ | ⟨rfl, rfl⟩ | ⟨rfl, rfl⟩
  all_goals exact ⟨_, rfl, _, rfl, rfl⟩

/-- The name of a primitive type is evaluated to it. -/
theorem evaluatesTo_primitive {test : Test} (hstart : (Session.start start.names).Extends start)
    (hruntime : start.names.lookup runtime = some .library)
    (h : primitives.lookup name = some test) :
    (runtimeExpr runtime name).EvaluatesTo start (.irreducible name test) := by
  obtain ⟨v, hmember, hmodel⟩ := exists_primitive h start.names
  intro text s hs
  have hread : Reads (evaluateWith text (runtimeExpr runtime name)) s (.value v) :=
    reads_runtimeExpr (hs.names ▸ hruntime) hmember
  exact ⟨_, s, hread, .refl s, v, rfl, hmodel.kept (hstart.trans hs).kept⟩

end Types

end Typeward
