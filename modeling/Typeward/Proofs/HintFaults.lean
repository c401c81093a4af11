import Typeward.Proofs.HintReadings
import Typeward.Proofs.PlanFaults

/-!
# Places of hints

All that comes of a hint lies somewhere in it: every type in the type that it denotes, and every
fault that keeps it from denoting one, has the place of one of its nodes. Nothing but a string
stands in a string, so what comes of a quoted hint lies where the string does.

Apart from faults, a hint fails when the source of an expression cannot be shown, and by three
accidents: an annotated type without arguments, a string with a surrogate in it and a quoted null
character.
-/

namespace Typeward

open HintContext

/-- An expression is another one or stands in it. -/
inductive Expr.StandsIn (n : Expr) : Expr → Prop
  | self : StandsIn n n
  | part {e c} (hc : c ∈ e.children) (h : StandsIn n c) : StandsIn n e

/-- What stands in an expression stands in all that this one stands in. -/
theorem Expr.StandsIn.trans {a b e : Expr} (hab : a.StandsIn b) (hbe : b.StandsIn e) :
    a.StandsIn e := by
  induction hbe with
  | self => exact hab
  | part hc _ ih => exact .part hc ih

/-- The arguments of a subscript stand in it. -/
theorem Expr.standsIn_of_mem_arguments {pos : Pos} {base index a : Expr}
    (h : a ∈ subscriptArguments index) : a.StandsIn (.subscript pos base index) := by
  have hindex : index.StandsIn (.subscript pos base index) :=
    .part (by simp [children, Slots.slots]) .self
  refine Expr.StandsIn.trans ?_ hindex
  unfold subscriptArguments at h
  split at h
  · exact .part ((listSlots_expr _).symm ▸ h : a ∈ Slots.listSlots _) .self
  · rw [List.mem_singleton.1 h]
    exact .self

/-- The members of a list in brackets stand in it. -/
theorem Expr.standsIn_of_mem_elements {pos : Pos} {kind : DisplayKind} {elements : List Expr}
    {a : Expr} (h : a ∈ elements) : a.StandsIn (.display pos kind elements) :=
  .part ((listSlots_expr elements).symm ▸ h : a ∈ Slots.listSlots elements) .self

/-- What stands in a type is the type or stands in one that is directly in it. -/
theorem StaticType.StandsIn.eq_or_inner {u t : StaticType} (h : u.StandsIn t) :
    u = t ∨ ∃ c ∈ t.inner, u.StandsIn c := by
  cases h with
  | self => exact .inl rfl
  | inner hc h => exact .inr ⟨_, hc, h⟩

/-- The parts of a type stand directly in it. -/
theorem StaticType.mem_inner_of_mem_parts {t p : StaticType} (h : p ∈ t.parts) : p ∈ t.inner := by
  cases t with
  | reference => simp [StaticType.parts] at h
  | _ => exact h

/-- What is in a type outside of erased arguments stands in it. -/
theorem StaticType.Includes.standsIn {u t : StaticType} (h : u.Includes t) : u.StandsIn t := by
  induction h with
  | self => exact .self
  | part hp _ ih => exact .inner (StaticType.mem_inner_of_mem_parts hp) ih

namespace HintContext

/-- A place is that of a node in a hint. -/
def Locates (c : HintContext) (e : Expr) (place : Option Location) : Prop :=
  ∃ n : Expr, n.StandsIn e ∧ place = some (c.location n.pos)

/-- An accident: reading a hint fails, whatever the hints in it are, and no fault says why. -/
inductive Accident (c : HintContext) : Expr → Failure → Prop
  | nothingAnnotated {pos base index} (hbase : c.scope.canonical base = some "Annotated")
      (hindex : subscriptArguments index = []) :
      Accident c (.subscript pos base index) .nothingAnnotated
  | surrogateText (pos s marked) : Accident c (.constant pos (.surrogates s) marked) .surrogateText
  | nullCharacter {pos text marked} (h : readQuoted text = .error .nullCharacter) :
      Accident c (.constant pos (.text text) marked) .nullCharacter

/-- What a hint may fail with on its own. -/
inductive FailsWith (c : HintContext) (e : Expr) : Failure → Prop
  | fault {f : Fault} (hplace : c.Locates e f.location) (hkind : f.cause.kind ≠ .unresolvedType)
      (hbare : f.sourceLine = none) : FailsWith c e (.fault f)
  | unprintable (fault) : FailsWith c e (.unprintable (.tree fault))
  | accident {failure} (h : c.Accident e failure) : FailsWith c e failure

/-- All types in a type stand in given ones, or lie in a hint. -/
def LaysOut (c : HintContext) (e : Expr) (given : List StaticType) (t : StaticType) : Prop :=
  ∀ u : StaticType, u.StandsIn t → (∃ v ∈ given, u.StandsIn v) ∨ c.Locates e u.location

/-- A result made of given types lies in a hint, as do its faults. -/
structure Tells (c : HintContext) (e : Expr) (given : List StaticType)
    (result : Except Failure StaticType) : Prop where
  type : ∀ t, result = .ok t → c.LaysOut e given t
  failure : ∀ failure, result = .error failure → c.FailsWith e failure

/-- All that comes of a form lies in a hint, if the parts of the form stand in it. -/
def Form.Tells (c : HintContext) (e : Expr) : Form → Prop
  | .done result => c.Tells e [] result
  | .quoted pos text => ∃ marked, e = .constant pos (.text text) marked
  | .composed parts finish =>
    (∀ a ∈ parts, a.StandsIn e) ∧ ∀ types, c.Tells e types (finish types)

section Results

variable {c : HintContext} {e : Expr} {given : List StaticType} {t : StaticType}

/-- The node of a hint lies in the hint. -/
theorem locates_self : c.Locates e (some (c.location e.pos)) := ⟨e, .self, rfl⟩

/-- A given type brings no new places. -/
theorem laysOut_of_mem (h : t ∈ given) : c.LaysOut e given t :=
  fun _ hu => .inl ⟨t, h, hu⟩

/-- A type that lies in a hint, with types in it that do, brings places in the hint. -/
theorem laysOut_of_inner (hplace : c.Locates e t.location)
    (hinner : ∀ v ∈ t.inner, c.LaysOut e given v) : c.LaysOut e given t := by
  intro u hu
  rcases hu.eq_or_inner with rfl | ⟨v, hv, hu⟩
  · exact .inr hplace
  · exact hinner v hv u hu

/-- A type without types in it. -/
theorem laysOut_of_leaf (hplace : c.Locates e t.location) (hinner : t.inner = []) :
    c.LaysOut e given t :=
  laysOut_of_inner hplace (by simp [hinner])

/-- A type that is made of given types. -/
theorem laysOut_of_given (hplace : c.Locates e t.location) (hinner : ∀ v ∈ t.inner, v ∈ given) :
    c.LaysOut e given t :=
  laysOut_of_inner hplace fun v hv => laysOut_of_mem (hinner v hv)

/-- A type is a result. -/
theorem tells_ok (h : c.LaysOut e given t) : c.Tells e given (.ok t) :=
  ⟨fun _ ht => Except.ok.inj ht ▸ h, fun _ hf => nomatch hf⟩

/-- What a hint may fail with is a result. -/
theorem tells_error {failure : Failure} (h : c.FailsWith e failure) :
    c.Tells e given (.error failure) :=
  ⟨fun _ ht => (nomatch ht), fun _ hf => Except.error.inj hf ▸ h⟩

/-- A fault about a node of the hint. -/
theorem failsWith_unsupported {n : Expr} (hn : n.StandsIn e) {α : Type} {construct : String}
    {failure : Failure} (h : (c.unsupported n construct : Except Failure α) = .error failure) :
    c.FailsWith e failure := by
  obtain rfl := Except.error.inj h
  exact .fault ⟨n, hn, rfl⟩ (by simp [Cause.kind]) rfl

/-- The source of an expression is missing only if it cannot be printed. -/
theorem text_eq_error {shown : Expr} {failure : Failure} (h : text shown = .error failure) :
    ∃ fault, Source.printExpr false .test shown = .error fault ∧
      failure = .unprintable (.tree fault) := by
  unfold text at h
  cases hprint : Source.printExpr false .test shown with
  | ok source => simp [hprint, Except.mapError] at h
  | error fault =>
    simp only [hprint, Except.mapError, Except.error.injEq] at h
    exact ⟨fault, rfl, h.symm⟩

/-- A fault about a node of the hint in which the source of an expression is shown. -/
theorem failsWith_shown {n shown : Expr} (hn : n.StandsIn e) {α : Type} (words : String → String)
    {failure : Failure}
    (h : (do c.unsupported n (words (← text shown)) : Except Failure α) = .error failure) :
    c.FailsWith e failure := by
  rcases Except.bind_eq_error.1 h with h | ⟨source, -, h⟩
  · obtain ⟨fault, -, rfl⟩ := text_eq_error h
    exact .unprintable fault
  · exact failsWith_unsupported hn h

/-- A fault about an expression of the hint, which is shown. -/
theorem failsWith_refuse {n : Expr} (hn : n.StandsIn e) {α : Type} {failure : Failure}
    (h : (c.refuse n : Except Failure α) = .error failure) : c.FailsWith e failure :=
  failsWith_shown hn (fun source => "'" ++ source ++ "'") h

/-- The hint is refused. -/
theorem tells_refuse : c.Tells e given (c.refuse e) :=
  ⟨fun _ h => absurd h refuse_ne_ok, fun _ h => failsWith_refuse .self h⟩

/-- The hint has a wrong number of arguments. -/
theorem tells_expected {count : Nat} : c.Tells e given (c.expected e count) :=
  ⟨fun _ h => absurd h expected_ne_ok, fun _ h => failsWith_shown .self (fun source =>
    "'" ++ source ++ "' (expected " ++ toString count ++ " type argument(s))") h⟩

/-- A type made of exactly one other. -/
theorem tells_ofOne {make : StaticType → StaticType}
    (hplace : ∀ u, (make u).location = some (c.location e.pos))
    (hinner : ∀ u, (make u).inner = [u]) (types : List StaticType) :
    c.Tells e types (c.ofOne e make types) := by
  unfold ofOne
  split
  · rename_i u
    exact tells_ok (laysOut_of_given (hplace u ▸ locates_self) (by simp [hinner]))
  · exact tells_expected

/-- A type made of exactly two others. -/
theorem tells_ofTwo {make : StaticType → StaticType → StaticType}
    (hplace : ∀ u v, (make u v).location = some (c.location e.pos))
    (hinner : ∀ u v, (make u v).inner = [u, v]) (types : List StaticType) :
    c.Tells e types (c.ofTwo e make types) := by
  unfold ofTwo
  split
  · rename_i u v
    exact tells_ok (laysOut_of_given (hplace u v ▸ locates_self) (by simp [hinner]))
  · exact tells_expected

/-- A type made of others without any condition. -/
theorem tells_of_inner {make : List StaticType → StaticType}
    (hplace : ∀ types, (make types).location = some (c.location e.pos))
    (hinner : ∀ types, (make types).inner = types) (types : List StaticType) :
    c.Tells e types (.ok (make types)) :=
  tells_ok (laysOut_of_given (hplace types ▸ locates_self) (by simp [hinner]))

/-- A name as a type. -/
theorem tells_denoteName : c.Tells e [] (c.denoteName e) := by
  have hleaf {t : StaticType} (hplace : t.location = some (c.location e.pos))
      (hinner : t.inner = []) : c.LaysOut e [] t :=
    laysOut_of_leaf (hplace ▸ locates_self) hinner
  unfold denoteName
  dsimp only
  split
  · split
    · exact tells_ok (hleaf rfl rfl)
    · refine tells_ok (laysOut_of_inner locates_self fun v hv => ?_)
      obtain rfl := List.mem_singleton.1 hv
      exact hleaf rfl rfl
    · split
      · refine tells_ok (laysOut_of_inner locates_self fun v hv => ?_)
        obtain rfl := List.mem_singleton.1 hv
        exact hleaf rfl rfl
      · exact tells_refuse
  · split
    · exact tells_refuse
    · split
      · exact tells_ok (hleaf rfl rfl)
      · split <;> exact tells_ok (hleaf rfl rfl)

/-- A value in a literal type of the hint. -/
theorem tells_denoteLiteral {n : Expr} (hn : n.StandsIn e) : c.Tells e [] (c.denoteLiteral n) := by
  have hplace : c.Locates e (some (c.location n.pos)) := ⟨n, hn, rfl⟩
  have hrefused : c.Tells e [] (do c.unsupported n ("literal value '" ++ (← text n) ++ "'")) := by
    refine ⟨fun t h => ?_, fun failure h => failsWith_shown hn
      (fun source => "literal value '" ++ source ++ "'") h⟩
    obtain ⟨source, -, h⟩ := Except.bind_eq_ok.1 h
    exact absurd h unsupported_ne_ok
  unfold denoteLiteral
  dsimp only
  split
  · rename_i value _
    cases value with
    | none | bool | int | text | surrogates | bytes => exact tells_ok (laysOut_of_leaf hplace rfl)
    | float | complex | ellipsis => exact hrefused
  · exact tells_ok (laysOut_of_leaf hplace rfl)
  · exact tells_ok (laysOut_of_leaf hplace rfl)
  · exact hrefused

/-- A marker of a refinement in the hint. -/
theorem tells_denoteMarker {n index : Expr} (hn : n.StandsIn e) :
    c.Tells e [] (c.denoteMarker n index) := by
  unfold denoteMarker
  split
  · exact tells_ok (laysOut_of_leaf ⟨n, hn, rfl⟩ rfl)
  · refine ⟨fun t h => ?_, fun failure h => failsWith_shown hn
      (fun source => "refinement predicate '" ++ source ++ "'") h⟩
    obtain ⟨source, -, h⟩ := Except.bind_eq_ok.1 h
    exact absurd h unsupported_ne_ok

/-- A computation that is made for the members of a list fails for one of them. -/
theorem exists_mem_of_mapM_eq_error {α β ε : Type} {f : α → Except ε β} {as : List α}
    {failure : ε} (h : as.mapM f = .error failure) : ∃ a ∈ as, f a = .error failure := by
  induction as with
  | nil => cases h
  | cons a rest ih =>
    rw [List.mapM_cons] at h
    rcases Except.bind_eq_error.1 h with h | ⟨b, -, h⟩
    · exact ⟨a, List.mem_cons_self, h⟩
    · rcases Except.bind_eq_error.1 h with h | ⟨bs, -, h⟩
      · obtain ⟨a', ha', hfails⟩ := ih h
        exact ⟨a', List.mem_cons_of_mem _ ha', hfails⟩
      · cases h

/-- A type made of types that are denoted one by one by nodes of the hint. -/
theorem tells_mapM_bind {f : Expr → Except Failure StaticType} {as : List Expr}
    {finish : List StaticType → Except Failure StaticType} (hf : ∀ a ∈ as, c.Tells e [] (f a))
    (hfinish : ∀ ts, (∀ t ∈ ts, c.LaysOut e [] t) → c.Tells e given (finish ts)) :
    c.Tells e given (as.mapM f >>= finish) := by
  refine ⟨fun t h => ?_, fun failure h => ?_⟩
  · obtain ⟨ts, hts, h⟩ := Except.bind_eq_ok.1 h
    have hall := forall_mem_of_mapM (fun a ha t ht => (hf a ha).type t ht) hts
    exact (hfinish ts hall).type t h
  · rcases Except.bind_eq_error.1 h with h | ⟨ts, hts, h⟩
    · obtain ⟨a, ha, hfails⟩ := exists_mem_of_mapM_eq_error h
      exact (hf a ha).failure failure hfails
    · have hall := forall_mem_of_mapM (fun a ha t ht => (hf a ha).type t ht) hts
      exact (hfinish ts hall).failure failure h

/-- What brings no places but those in a hint does so whatever else is given. -/
theorem LaysOut.mono (h : c.LaysOut e [] t) : c.LaysOut e given t :=
  fun u hu => .inr ((h u hu).resolve_left (by simp))

end Results

section Forms

variable {c : HintContext} {e : Expr}

/-- A literal type. -/
theorem tells_literalForm {arguments : List Expr} (h : ∀ a ∈ arguments, a.StandsIn e) :
    (c.literalForm e arguments).Tells c e := by
  refine tells_mapM_bind (fun a ha => tells_denoteLiteral (h a ha)) fun values hvalues => ?_
  split
  · exact tells_ok (hvalues _ List.mem_cons_self)
  · exact tells_ok (laysOut_of_inner locates_self hvalues)

/-- An annotated type. -/
theorem tells_annotatedForm {pos : Pos} {base index : Expr}
    (hbase : c.scope.canonical base = some "Annotated") :
    (c.annotatedForm (.subscript pos base index) (subscriptArguments index)).Tells c
      (.subscript pos base index) := by
  have hstands : ∀ a ∈ subscriptArguments index, a.StandsIn (.subscript pos base index) :=
    fun _ => Expr.standsIn_of_mem_arguments
  unfold annotatedForm
  split
  · rename_i hindex
    exact tells_error (.accident (.nothingAnnotated hbase hindex))
  · rename_i a rest harguments
    rw [harguments] at hstands
    refine ⟨by simpa using hstands a List.mem_cons_self, fun types => ?_⟩
    refine tells_mapM_bind (fun m hm => ?_) fun markers hmarkers => ?_
    · have hm := hstands m (List.mem_cons_of_mem _ (List.mem_filter.1 hm).1)
      split
      · exact tells_denoteMarker hm
      · exact ⟨fun t h => absurd h refuse_ne_ok, fun failure h => failsWith_refuse hm h⟩
    · split
      · exact tells_ok (laysOut_of_mem List.mem_cons_self)
      · refine tells_ok (laysOut_of_inner locates_self fun v hv => ?_)
        rcases List.mem_append.1 hv with hv | hv
        · exact laysOut_of_mem hv
        · exact (hmarkers v hv).mono

/-- A function type. -/
theorem tells_callableForm {params result : Expr} (hparams : params.StandsIn e)
    (hresult : result.StandsIn e) : (c.callableForm e params result).Tells c e := by
  have hany : (Form.composed [result] (c.ofOne e
      (.function none · (some (c.location e.pos))))).Tells c e :=
    ⟨by simpa using hresult,
      tells_ofOne (fun u => rfl) fun u => by simp [StaticType.inner, StaticType.parts]⟩
  unfold callableForm
  dsimp only
  split
  · exact hany
  · rename_i pos elements
    refine ⟨List.forall_mem_cons.2 ⟨hresult, fun a ha => ?_⟩, fun types => ?_⟩
    · exact (Expr.standsIn_of_mem_elements ha).trans hparams
    · dsimp only
      split
      · refine tells_ok (laysOut_of_given locates_self ?_)
        simp [StaticType.inner, StaticType.parts, or_comm]
      · exact tells_expected
  · split
    · exact hany
    · exact ⟨by simpa using hresult, fun types => tells_refuse⟩

/-- A tuple type. -/
theorem tells_tupleForm {arguments : List Expr} (h : ∀ a ∈ arguments, a.StandsIn e) :
    (c.tupleForm e arguments).Tells c e := by
  unfold tupleForm
  dsimp only
  split
  · exact tells_ok (laysOut_of_leaf locates_self rfl)
  · rename_i a pos marked
    exact ⟨by simpa using h a List.mem_cons_self, tells_ofOne (fun u => rfl) fun u => rfl⟩
  · exact ⟨h, tells_of_inner (fun types => rfl) fun types => rfl⟩

/-- A special form with arguments. -/
theorem tells_specialForm {pos : Pos} {base index : Expr} {special : String}
    (hbase : c.scope.canonical base = some special) :
    (c.specialForm (.subscript pos base index) special index).Tells c
      (.subscript pos base index) := by
  have hstands : ∀ a ∈ subscriptArguments index, a.StandsIn (.subscript pos base index) :=
    fun _ => Expr.standsIn_of_mem_arguments
  have hexpected {count : Nat} :
      (Form.done (c.expected (.subscript pos base index) count)).Tells c
        (.subscript pos base index) := tells_expected
  unfold specialForm
  dsimp only
  split
  · split
    · exact ⟨hstands, tells_ofOne (fun u => rfl) fun u => rfl⟩
    · exact hexpected
  split
  · exact ⟨hstands, tells_of_inner (fun types => rfl) fun types => rfl⟩
  split
  · split
    · exact ⟨hstands, tells_ofOne (fun u => rfl) fun u => rfl⟩
    · exact hexpected
  split
  · split
    · exact ⟨hstands, tells_ofTwo (fun u v => rfl) fun u v => rfl⟩
    · exact hexpected
  split
  · exact tells_tupleForm hstands
  split
  · split
    · rename_i params result harguments
      rw [harguments] at hstands
      exact tells_callableForm (hstands params (by simp)) (hstands result (by simp))
    · exact hexpected
  split
  · exact tells_literalForm hstands
  split
  · rename_i hannotated
    exact tells_annotatedForm (hannotated ▸ hbase)
  split
  · exact ⟨hstands, tells_of_inner (fun types => rfl) fun types => rfl⟩
  split
  · exact tells_denoteMarker .self
  · exact tells_refuse

/-- A name with arguments. -/
theorem tells_genericForm {pos : Pos} {base index : Expr} :
    (c.genericForm (.subscript pos base index) base index).Tells c
      (.subscript pos base index) := by
  unfold genericForm
  dsimp only
  split
  · exact tells_refuse
  · split
    · exact tells_ok (laysOut_of_leaf locates_self rfl)
    · exact ⟨fun _ => Expr.standsIn_of_mem_arguments,
        tells_of_inner (fun types => rfl) fun types => rfl⟩

/-- Whatever form a hint has, what comes of it lies in the hint. -/
theorem tells_form : (c.form e).Tells c e := by
  unfold form
  dsimp only
  split
  · exact tells_ok (laysOut_of_leaf locates_self rfl)
  · exact ⟨_, rfl⟩
  · exact tells_error (.accident (.surrogateText ..))
  · rename_i pos left right
    refine ⟨fun a ha => .part ?_ .self, tells_of_inner (fun types => rfl) fun types => rfl⟩
    simpa [Expr.children, Slots.slots] using ha
  · exact tells_denoteName
  · exact tells_denoteName
  · split
    · exact tells_genericForm
    · rename_i special hbase
      exact tells_specialForm hbase
  · exact tells_refuse

end Forms

section Readings

variable {c c' : HintContext} {e e' : Expr}

/-- Where a hint is quoted, all places are that of the string. -/
theorem location_quoted (c : HintContext) (pos other : Pos) :
    ({ c with anchor := some (c.anchor.getD pos) } : HintContext).location other =
      c.location pos := by
  simp [location]

/-- What reading a hint comes to lies in the hint. -/
theorem Locates.of_comesTo (h : c.ComesTo e c' e') {place : Option Location}
    (hplace : c'.Locates e' place) : c.Locates e place := by
  induction h with
  | self => exact hplace
  | @quoted c e pos text inner c' e' hform hread _ ih =>
    have htells : (c.form e).Tells c e := tells_form
    rw [hform] at htells
    obtain ⟨marked, rfl⟩ := htells
    obtain ⟨n, -, rfl⟩ := ih hplace
    exact ⟨_, .self, congrArg some (location_quoted c pos n.pos)⟩
  | @part c e parts finish a c' e' hform ha _ ih =>
    have htells : (c.form e).Tells c e := tells_form
    rw [hform] at htells
    obtain ⟨n, hn, rfl⟩ := ih hplace
    exact ⟨n, hn.trans (htells.1 a ha), rfl⟩

/-- All types in the type that a hint denotes lie in the hint. -/
theorem locates_of_denote {t u : StaticType} (h : c.denote e = .ok t) (hu : u.StandsIn t) :
    c.Locates e u.location := by
  fun_induction denote c e generalizing t with
  | case1 c e result hform =>
    have htells : (c.form e).Tells c e := tells_form
    rw [hform] at htells
    exact (htells.type t h u hu).resolve_left (by simp)
  | case2 => cases h
  | case3 c e pos text hform inner hinner hread hlength ih =>
    obtain ⟨n, hn, hplace⟩ := ih h hu
    exact .of_comesTo (.quoted hform hread (.self _ _)) ⟨n, hn, hplace⟩
  | case4 c e parts finish hform ih =>
    have htells : (c.form e).Tells c e := tells_form
    rw [hform] at htells
    obtain ⟨types, htypes, h⟩ := Except.bind_eq_ok.1 h
    rcases (htells.2 types).type t h u hu with ⟨v, hv, hu⟩ | hplace
    · obtain ⟨a, -, ha⟩ := exists_mem_of_forall₂ (forall₂_of_mapM htypes) hv
      exact .of_comesTo (.part hform a.2 (.self _ _)) (ih a ha hu)
    · exact hplace

/-- A hint that denotes nothing comes to one that fails on its own. -/
theorem exists_failsWith_of_denote {failure : Failure} (h : c.denote e = .error failure) :
    ∃ c' e', c.ComesTo e c' e' ∧ c'.FailsWith e' failure := by
  fun_induction denote c e with
  | case1 c e result hform =>
    have htells : (c.form e).Tells c e := tells_form
    rw [hform] at htells
    exact ⟨c, e, .self c e, htells.failure failure h⟩
  | case2 c e pos text hform unread hread =>
    have htells : (c.form e).Tells c e := tells_form
    rw [hform] at htells
    obtain ⟨marked, rfl⟩ := htells
    refine ⟨c, _, .self c _, ?_⟩
    obtain rfl := Except.error.inj h
    cases unread with
    | nullCharacter => exact .accident (.nullCharacter hread)
    | malformed m => exact .fault locates_self (by simp [Cause.kind]) rfl
  | case3 c e pos text hform inner hinner hread hlength ih =>
    obtain ⟨c', e', hcomes, hfails⟩ := ih h
    exact ⟨c', e', .quoted hform hread hcomes, hfails⟩
  | case4 c e parts finish hform ih =>
    rcases Except.bind_eq_error.1 h with h | ⟨types, -, h⟩
    · obtain ⟨a, -, ha⟩ := exists_mem_of_mapM_eq_error h
      obtain ⟨c', e', hcomes, hfails⟩ := ih a ha
      exact ⟨c', e', .part hform a.2 hcomes, hfails⟩
    · have htells : (c.form e).Tells c e := tells_form
      rw [hform] at htells
      exact ⟨c, e, .self c e, (htells.2 types).failure failure h⟩

/-- A fault that keeps a hint from denoting a type lies in the hint and is never that nothing has a
name, and the line of source that it points into is left open. -/
theorem locates_of_denote_eq_error {f : Fault} (h : c.denote e = .error (.fault f)) :
    c.Locates e f.location ∧ f.cause.kind ≠ .unresolvedType ∧ f.sourceLine = none := by
  obtain ⟨c', e', hcomes, hfails⟩ := exists_failsWith_of_denote h
  cases hfails with
  | fault hplace hkind hbare => exact ⟨hplace.of_comesTo hcomes, hkind, hbare⟩
  | accident h => cases h

/-- A hint that denotes nothing, without a fault that says why, has a source that cannot be shown,
or comes to an accident. -/
theorem accident_of_denote {failure : Failure} (h : c.denote e = .error failure) :
    (∃ f, failure = .fault f) ∨ (∃ fault, failure = .unprintable (.tree fault)) ∨
      ∃ c' e', c.ComesTo e c' e' ∧ c'.Accident e' failure := by
  obtain ⟨c', e', hcomes, hfails⟩ := exists_failsWith_of_denote h
  cases hfails with
  | fault => exact .inl ⟨_, rfl⟩
  | unprintable => exact .inr (.inl ⟨_, rfl⟩)
  | accident h => exact .inr (.inr ⟨c', e', hcomes, h⟩)

end Readings

end HintContext

end Typeward
