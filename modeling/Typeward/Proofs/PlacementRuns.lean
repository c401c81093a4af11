import Typeward.Proofs.LibraryCalls
import Typeward.Proofs.Overwriting
import Typeward.Proofs.Placements
import Typeward.Proofs.SplicedNames

/-!
# Runs of splicing

What is placed is what splicing answers: given a lowered form, splicing succeeds, answers the
compiled form, and records just the entries whose code is in it, each once. The walk visits the
sites in another order than the plan, so the order of the records is left open.
-/

namespace Typeward

open Slots
open scoped List

/-- The parts of an expression are transformed as a list. -/
theorem Expr.mapChildren_eq {m : Type → Type} [Monad m] [LawfulMonad m] (e : Expr)
    (f : Expr → m Expr) :
    e.mapChildren (fun c _ => f c) = do return e.withChildren (← e.children.mapM f) := by
  have hmapM : (e.children.attach.mapM fun c => f c.1) = e.children.attach.unattach.mapM f :=
    List.mapM_subtype fun _ _ => rfl
  rw [List.unattach_attach] at hmapM
  unfold Expr.mapChildren
  rw [hmapM]

namespace Splice

variable {α β : Type}

/-- An action answers a result and records entries, in some order, behind those recorded before. -/
def Emits (y : Splice α) (a : α) (entries : List PlanEntry) : Prop :=
  ∀ log, ∃ log', y log = .ok (a, log') ∧ log'.Perm (log ++ entries)

variable {y : Splice α} {a : α} {first second : List PlanEntry}

/-- An action that does nothing records nothing. -/
theorem emits_pure (a : α) : Emits (pure a) a [] := by
  intro log
  exact ⟨log, rfl, by simp⟩

/-- Two actions after each other record what each of them records. -/
theorem Emits.bind {f : α → Splice β} {b : β} (hy : Emits y a first)
    (hf : Emits (f a) b second) : Emits (y >>= f) b (first ++ second) := by
  intro log
  obtain ⟨log₁, hrun₁, hperm₁⟩ := hy log
  obtain ⟨log₂, hrun₂, hperm₂⟩ := hf log₁
  have hrun : (y >>= f) log = .ok (b, log₂) := Action.bind_eq_ok.2 ⟨a, log₁, hrun₁, hrun₂⟩
  have hperm : log₂.Perm (log ++ (first ++ second)) := by
    rw [← List.append_assoc]
    exact hperm₂.trans (hperm₁.append_right second)
  exact ⟨log₂, hrun, hperm⟩

/-- The order of what is recorded is left open. -/
theorem Emits.perm (hy : Emits y a first) (hperm : first.Perm second) : Emits y a second := by
  intro log
  obtain ⟨log', hrun, hlog⟩ := hy log
  exact ⟨log', hrun, hlog.trans (hperm.append_left log)⟩

/-- An action behind one that records nothing is the only one to record. -/
theorem Emits.silent_bind {f : α → Splice β} {b : β} (hy : Emits y a [])
    (hf : Emits (f a) b first) : Emits (y >>= f) b first := hy.bind hf

/-- An action that does nothing behind another one answers its own result. -/
theorem Emits.bind_pure {f : α → Splice β} {b : β} (hy : Emits y a first) (hf : f a = pure b) :
    Emits (y >>= f) b first := by
  have hbind := hy.bind (hf ▸ emits_pure b)
  rwa [List.append_nil] at hbind

/-- An action whose result is changed afterwards records the same. -/
theorem Emits.map {f : α → β} (hy : Emits y a first) :
    Emits (do return f (← y)) (f a) first := hy.bind_pure rfl

/-- An action on the members of a list records what it records for each. -/
theorem emits_mapM_cons {f : α → Splice β} {l : List α} {b : β} {bs : List β}
    (ha : Emits (f a) b first) (hl : Emits (l.mapM f) bs second) :
    Emits ((a :: l).mapM f) (b :: bs) (first ++ second) := by
  rw [List.mapM_cons]
  exact ha.bind hl.map

/-- An action that answers each member of a list and records nothing answers the list. -/
theorem emits_mapM_self {f : α → Splice α} {l : List α} (h : ∀ a ∈ l, Emits (f a) a []) :
    Emits (l.mapM f) l [] := by
  induction l with
  | nil => exact emits_pure []
  | cons a rest ih =>
    have hrest := ih fun b hb => h b (List.mem_cons_of_mem _ hb)
    exact emits_mapM_cons (h a List.mem_cons_self) hrest

end Splice

open Splice

namespace Emitter

variable {m : Emitter} {entry : PlanEntry}

/-- Whether the code for an entry counts as emitted: that for checks only where there are checks. -/
def counts (m : Emitter) (entry : PlanEntry) : Bool :=
  ! (m.skipAsserts && decide (entry.mode = .assert))

/-- The entries whose code counts as emitted. -/
def counted (m : Emitter) (entries : List PlanEntry) : List PlanEntry := entries.filter m.counts

/-- Entries count one by one. -/
theorem counted_append (m : Emitter) (first more : List PlanEntry) :
    m.counted (first ++ more) = m.counted first ++ m.counted more :=
  List.filter_append ..

/-- The first entry counts like an entry alone. -/
theorem counted_cons (m : Emitter) (entry : PlanEntry) (more : List PlanEntry) :
    m.counted (entry :: more) = m.counted [entry] ++ m.counted more :=
  m.counted_append [entry] more

/-- Where there are checks all entries count. -/
theorem counted_eq_self (hskip : m.skipAsserts = false) (entries : List PlanEntry) :
    m.counted entries = entries := by
  simp [counted, counts, hskip]

/-- The code for a cast takes the place of the call. -/
theorem emit_cast {d : CastDeclaration} {code : Expr} (value : Expr)
    (hsite : entry.site = .cast d) (hmode : entry.mode = .assert)
    (hcode : m.render entry.expr = .ok code) :
    m.emit entry (some value) =
      .ok ⟨some (.expression (m.castCode entry code value)), m.counts entry⟩ := by
  cases hskip : m.skipAsserts with
  | true => simp [emit, castCode, counts, hsite, hmode, hskip]
  | false =>
    simp only [emit, check, castCode, counts, hsite, hmode, hskip, hcode]
    rfl

/-- The code for a type binds the label of the entry. -/
theorem emit_define {code : Expr} {value : Option Expr} (hmode : entry.mode = .define)
    (hcode : m.render entry.expr = .ok code) :
    m.emit entry value = .ok ⟨some (.binding entry.label code), m.counts entry⟩ := by
  have hcounts : m.counts entry = true := by simp [counts, hmode]
  rw [hcounts]
  simp only [emit, hmode, hcode]
  rfl

/-- The code for an inspected type binds the label of the entry to the model. -/
theorem emit_reify {code : Expr} {value : Option Expr} (hmode : entry.mode = .reify)
    (hcode : m.render entry.expr = .ok code) :
    m.emit entry value =
      .ok ⟨some (.binding entry.label (callExpr (runtimeExpr m.runtime "reify") [code] [])),
        m.counts entry⟩ := by
  have hcounts : m.counts entry = true := by simp [counts, hmode]
  rw [hcounts]
  simp only [emit, hmode, hcode]
  rfl

/-- Where there are checks a parameter is checked by a statement. -/
theorem emit_parameter {p : TypedParameter} {type : Expr} (hskip : m.skipAsserts = false)
    (hsite : entry.site = .parameter p) (hmode : entry.mode = .assert)
    (htype : m.render entry.expr = .ok type) :
    m.emit entry none =
      .ok ⟨some (.statement (checkExpr m.runtime (.name .synthetic p.name) type entry.label)),
        m.counts entry⟩ := by
  simp only [emit, check, counts, hmode, hsite, hskip, htype]
  rfl

/-- Where there are no checks there is no code for a parameter. -/
theorem emit_parameter_skipped {p : TypedParameter} (hskip : m.skipAsserts = true)
    (hsite : entry.site = .parameter p) (hmode : entry.mode = .assert) :
    m.emit entry none = .ok ⟨none, m.counts entry⟩ := by
  simp [emit, counts, hmode, hsite, hskip]

end Emitter

namespace Plan.Holds

variable {p : Plan} {number : Nat} {entry : PlanEntry}

/-- The entry for a cast is a check at the cast. -/
theorem cast_eq {d : CastDeclaration} (h : p.Holds number (.cast d) [entry]) :
    entry.site = .cast d ∧ entry.mode = .assert := by
  obtain ⟨r, r', hstep⟩ := h.step
  cases hstep with
  | cast hbuild => exact ⟨rfl, rfl⟩

/-- The entry for a type defines its name. -/
theorem type_eq {d : TypeDeclaration} (h : p.Holds number (.type d) [entry]) :
    entry.mode = .define ∧ entry.label = some d.name := by
  obtain ⟨r, r', hstep⟩ := h.step
  cases hstep with
  | define htop hdeclare hbuild hcomplete => exact ⟨rfl, rfl⟩

/-- The entry for an inspected type binds its target. -/
theorem reify_eq {d : ReifyDeclaration} (h : p.Holds number (.reify d) [entry]) :
    entry.mode = .reify ∧ entry.label = some d.target := by
  obtain ⟨r, r', hstep⟩ := h.step
  cases hstep with
  | reify hbuild => exact ⟨rfl, rfl⟩

/-- The entries for a function check its parameters. -/
theorem function_eq {d : FunctionDeclaration} {entries : List PlanEntry}
    (h : p.Holds number (.function d) entries) :
    ∀ entry ∈ entries, entry.mode = .assert ∧ ∃ q, entry.site = .parameter q := by
  obtain ⟨r, r', hstep⟩ := h.step
  cases hstep with
  | function hentries =>
    intro entry hentry
    obtain ⟨q, -, t, e, -, -, rfl⟩ := exists_mem_of_forall₂ hentries hentry
    exact ⟨rfl, q, rfl⟩

/-- The single entry of a declaration is the one that a splicer finds. -/
theorem entry?_eq {k : Splicer} {d : Declaration} (h : k.plan.Holds number d [entry]) :
    k.entry? number = some entry := by
  rw [Splicer.entry?, h.entries_eq]
  rfl

end Plan.Holds

namespace Splicer

variable {k : Splicer} {c : LowerContext}

/-- Emitting code records the entry if the code counts. -/
theorem emits_emit {entry : PlanEntry} {value : Option Expr} {fragment : Option Fragment}
    (h : k.emitter.emit entry value = .ok ⟨fragment, k.emitter.counts entry⟩) :
    Emits (k.emit entry value) fragment (k.emitter.counted [entry]) := by
  intro log
  have hrun : k.emit entry value log =
      .ok (fragment, if k.emitter.counts entry then log ++ [entry] else log) := by
    rw [emit, h]
    rfl
  refine ⟨_, hrun, ?_⟩
  cases hcounts : k.emitter.counts entry <;> simp [Emitter.counted, hcounts]

/-- A call that carries a number becomes the code for its entry. -/
def replaceCast (k : Splicer) (e : Expr) : Splice Expr :=
  match e with
  | .call _ _ [_, value] [] (some number) =>
    match k.entry? number with
    | none => return e
    | some entry => do
      match ← k.emit entry (some value) with
      | some (.expression replacement) => return replacement
      | _ => return e
  | _ => return e

/-- The parts of an expression are spliced first. -/
theorem spliceExpr_eq (k : Splicer) (e : Expr) :
    k.spliceExpr e =
      e.children.mapM k.spliceExpr >>= fun es => k.replaceCast (e.withChildren es) := by
  rw [spliceExpr.eq_def, Expr.mapChildren_eq]
  simp only [bind_assoc, pure_bind]
  rfl

/-- An expression without a number stays. -/
theorem replaceCast_eq {e : Expr} (h : e.number? = none) : k.replaceCast e = pure e := by
  unfold replaceCast
  split
  · cases h
  · rfl

/-- An expression in which nothing carries a number is spliced to itself. -/
theorem emits_of_unnumbered {e : Expr} (h : e.Unnumbered) : Emits (k.spliceExpr e) e [] := by
  induction h with
  | @node e here parts ih =>
    rw [spliceExpr_eq]
    have hparts : Emits (e.children.mapM k.spliceExpr) e.children [] := emits_mapM_self ih
    refine hparts.bind_pure ?_
    rw [Expr.withChildren_children]
    exact replaceCast_eq here

/-- The three lists of expressions have one length. -/
theorem PlacesExprs.length_eq {es es' us : List Expr} {entries : List PlanEntry}
    (h : k.PlacesExprs c es es' entries us) : es'.length = es.length ∧ us.length = es.length := by
  induction es generalizing es' entries us with
  | nil => cases h with | nil => exact ⟨rfl, rfl⟩
  | cons e rest ih =>
    cases h with
    | cons hfirst hrest =>
      obtain ⟨hlowered, hplaced⟩ := ih hrest
      exact ⟨congrArg (· + 1) hlowered, congrArg (· + 1) hplaced⟩

/-- What is placed in a list is placed for a member of the former list. -/
theorem PlacesExprs.exists_of_mem {es es' us : List Expr} {entries : List PlanEntry} {u : Expr}
    (h : k.PlacesExprs c es es' entries us) (hu : u ∈ us) :
    ∃ e ∈ es, ∃ e' ∈ es', ∃ first, k.PlacesExpr c e e' first u := by
  induction es generalizing es' entries us with
  | nil =>
    cases h with
    | nil => exact absurd hu List.not_mem_nil
  | cons e rest ih =>
    cases h with
    | cons hfirst hrest =>
      rcases List.mem_cons.1 hu with rfl | hu
      · exact ⟨e, List.mem_cons_self, _, List.mem_cons_self, _, hfirst⟩
      · obtain ⟨f, hf, f', hf', hplaces⟩ := ih hrest hu
        exact ⟨f, List.mem_cons_of_mem _ hf, f', List.mem_cons_of_mem _ hf', hplaces⟩

/-- A cast records its entry behind those of its value. -/
theorem emits_cast {pos : Pos} {func type value u code : Expr} {number : Nat} {d : CastDeclaration}
    {entry : PlanEntry} {entries : List PlanEntry} (hfunc : func.Unnumbered)
    (htype : type.Unnumbered) (hentry : k.plan.Holds number (.cast d) [entry])
    (hcode : k.emitter.render entry.expr = .ok code)
    (hvalue : Emits (k.spliceExpr value) u (k.emitter.counted entries)) :
    Emits (k.spliceExpr (.call pos func [type, value] [] (some number)))
      (k.emitter.castCode entry code u) (k.emitter.counted (entry :: entries)) := by
  have hparts : Emits ([func, type, value].mapM k.spliceExpr) [func, type, u]
      ([] ++ ([] ++ (k.emitter.counted entries ++ []))) :=
    emits_mapM_cons (emits_of_unnumbered hfunc) (emits_mapM_cons (emits_of_unnumbered htype)
      (emits_mapM_cons hvalue (emits_pure [])))
  have hcast : Emits (k.replaceCast (.call pos func [type, u] [] (some number)))
      (k.emitter.castCode entry code u) (k.emitter.counted [entry]) := by
    obtain ⟨hsite, hmode⟩ := hentry.cast_eq
    have hemit := emits_emit (Emitter.emit_cast u hsite hmode hcode)
    simp only [replaceCast, hentry.entry?_eq]
    exact hemit.bind_pure rfl
  have hperm : [] ++ ([] ++ (k.emitter.counted entries ++ [])) ++ k.emitter.counted [entry] ~
      k.emitter.counted (entry :: entries) := by
    rw [k.emitter.counted_cons entry entries]
    simpa using List.perm_append_comm
  rw [spliceExpr_eq]
  exact (hparts.bind hcast).perm hperm

/-- Any other expression records what its parts record. -/
theorem emits_parts {e : Expr} {es us : List Expr} {entries : List PlanEntry}
    (hnumber : e.number? = none) (hes : es.length = e.children.length)
    (hus : us.length = e.children.length) (h : Emits (es.mapM k.spliceExpr) us entries) :
    Emits (k.spliceExpr (e.withChildren es)) (e.withChildren us) entries := by
  rw [spliceExpr_eq, Expr.children_withChildren _ _ hes]
  refine h.bind_pure ?_
  rw [Expr.withChildren_withChildren _ hes hus]
  exact replaceCast_eq (by rw [Expr.number?_withChildren, hnumber])

mutual

/-- Splicing answers an expression that is placed. -/
theorem PlacesExpr.emits {e e' u : Expr} {entries : List PlanEntry} :
    k.PlacesExpr c e e' entries u → Emits (k.spliceExpr e') u (k.emitter.counted entries)
  | .cast _ hfunc htype _ _ hentry hcode hvalue =>
    emits_cast hfunc htype hentry hcode hvalue.emits
  | .parts _ hnumber hparts =>
    emits_parts hnumber hparts.length_eq.1 hparts.length_eq.2 hparts.emits

/-- Splicing answers expressions that are placed. -/
theorem PlacesExprs.emits {es es' us : List Expr} {entries : List PlanEntry} :
    k.PlacesExprs c es es' entries us →
    Emits (es'.mapM k.spliceExpr) us (k.emitter.counted entries)
  | .nil => emits_pure []
  | .cons hfirst hrest => by
    rw [Emitter.counted_append]
    exact emits_mapM_cons hfirst.emits hrest.emits

end

section In

variable {α : Type} [Slots α]

/-- Splicing answers a value in which expressions are placed. -/
theorem PlacesIn.emits [OverwritingSlots α] {a a' b : α} {entries : List PlanEntry}
    (h : k.PlacesIn c a a' entries b) : Emits (k.spliceIn a') b (k.emitter.counted entries) := by
  cases h with
  | @intro es' _ us h =>
    obtain ⟨hes, hus⟩ := h.length_eq
    have hmapM := h.emits
    unfold spliceIn Slots.mapM
    rw [slots_refill a es' hes]
    refine hmapM.bind_pure ?_
    rw [OverwritingSlots.refill_refill a es' us hes hus]

/-- A value without numbers is spliced to itself. -/
theorem emits_spliceIn_self {a : α} (h : ∀ e ∈ slots a, e.Unnumbered) :
    Emits (k.spliceIn a) a [] := by
  refine (emits_mapM_self fun e he => emits_of_unnumbered (h e he)).bind_pure ?_
  rw [refill_slots]

end In

/-- Expressions are placed one list after the other. -/
theorem PlacesExprs.append {es es' us fs fs' vs : List Expr} {first more : List PlanEntry}
    (hes : k.PlacesExprs c es es' first us) (hfs : k.PlacesExprs c fs fs' more vs) :
    k.PlacesExprs c (es ++ fs) (es' ++ fs') (first ++ more) (us ++ vs) := by
  induction es generalizing es' us first with
  | nil => cases hes with | nil => exact hfs
  | cons e rest ih =>
    cases hes with
    | cons he hrest =>
      rw [List.append_assoc]
      exact .cons he (ih hrest)

/-- The two parts of a pair are filled one after the other. -/
theorem refill_pair {α β : Type} [Slots α] [Slots β] {a : α} {b : β} {es fs : List Expr}
    (h : es.length = (slots a).length) : refill (a, b) (es ++ fs) = (refill a es, refill b fs) := by
  change (refill a ((es ++ fs).take _), refill b ((es ++ fs).drop _)) = _
  rw [← h, List.take_left, List.drop_left]

/-- The parameters of a function are filled in the order of visits, those for keywords first. -/
theorem refill_parameters {ps : Parameters Expr} {es fs gs : List Expr}
    (hes : es.length = (slots ps.keywordOnly).length)
    (hfs : fs.length = (slots ps.positionalOnly).length) :
    refill ps (es ++ (fs ++ gs)) =
      { ps with
        positionalOnly := refill ps.positionalOnly fs
        positional := refill ps.positional gs
        keywordOnly := refill ps.keywordOnly es } := by
  have hparts : refill (ps.keywordOnly, ps.positionalOnly, ps.positional) (es ++ (fs ++ gs)) =
      (refill ps.keywordOnly es, refill ps.positionalOnly fs, refill ps.positional gs) := by
    rw [refill_pair hes, refill_pair hfs]
  exact congrArg (fun q : List (Parameter Expr) × List (Parameter Expr) × List (Parameter Expr) =>
    { ps with keywordOnly := q.1, positionalOnly := q.2.1, positional := q.2.2 }) hparts

/-- The initial values of parameters are the expressions that the parameters hold, in another
order. -/
theorem PlacesParameters.placesIn {ps ps' qs : Parameters Expr} {entries : List PlanEntry}
    (h : k.PlacesParameters c ps ps' entries qs) :
    ∃ held : List PlanEntry, held ~ entries ∧ k.PlacesIn c ps ps' held qs := by
  cases h with
  | @intro _ _ first _ _ second _ _ third honly hpositional hkeywordOnly =>
    cases honly with
    | @intro es₁ _ us₁ honly =>
      cases hpositional with
      | @intro es₂ _ us₂ hpositional =>
        cases hkeywordOnly with
        | @intro es₃ _ us₃ hkeywordOnly =>
          obtain ⟨hes₁, hus₁⟩ := honly.length_eq
          obtain ⟨hes₃, hus₃⟩ := hkeywordOnly.length_eq
          have hplaces := PlacesIn.intro (a := ps) (hkeywordOnly.append (honly.append hpositional))
          rw [refill_parameters hes₃ hes₁, refill_parameters hus₃ hus₁] at hplaces
          have hperm : third ++ (first ++ second) ~ first ++ (second ++ third) := by
            rw [← List.append_assoc first]
            exact List.perm_append_comm
          exact ⟨_, hperm, hplaces⟩

/-- A statement without a number is spliced expression by expression. -/
theorem spliceSimple_eq {t : Simple} (h : t.number? = none) : k.spliceSimple t = k.spliceIn t := by
  unfold spliceSimple
  split
  · cases h
  · cases h
  · rfl

/-- The code for an entry that binds a name takes the place of its statement. -/
theorem emits_spliceBinding {number : Nat} {entry : PlanEntry} {name : String} {code : Expr}
    (given : Simple) (hentry : k.entry? number = some entry)
    (hemit : k.emitter.emit entry none =
      .ok ⟨some (.binding (some name) code), k.emitter.counts entry⟩) :
    Emits (k.spliceBinding number given) (.assign [.name .synthetic name] code none)
      (k.emitter.counted [entry]) := by
  simp only [spliceBinding, hentry]
  exact (emits_emit hemit).bind_pure rfl

/-- Splicing answers a simple statement that is placed. -/
theorem PlacesSimple.emits {pos : Pos} {t t' u : Simple} {entries : List PlanEntry}
    (h : k.PlacesSimple c pos t t' entries u) :
    Emits (k.spliceSimple t') u (k.emitter.counted entries) := by
  cases h with
  | typeAlias hhint hdenote hentry hcode =>
    obtain ⟨hmode, hlabel⟩ := hentry.type_eq
    exact emits_spliceBinding _ hentry.entry?_eq (hlabel ▸ Emitter.emit_define hmode hcode)
  | reify hfunc hdenote hentry hcode =>
    obtain ⟨hmode, hlabel⟩ := hentry.reify_eq
    exact emits_spliceBinding _ hentry.entry?_eq (hlabel ▸ Emitter.emit_reify hmode hcode)
  | other hdeclares hnumber h =>
    have hin := h.emits
    cases h with
    | intro h =>
      rwa [spliceSimple_eq (by rw [Simple.number?_refill, hnumber])]

/-- Splicing answers the checks of a function. -/
theorem PlacesChecks.emits {pos : Pos} {entries : List PlanEntry} {ts : List Stmt}
    (hentries : ∀ entry ∈ entries, entry.mode = .assert ∧ ∃ q, entry.site = .parameter q)
    (h : k.PlacesChecks pos entries ts) :
    Emits (k.spliceChecks pos entries) ts (k.emitter.counted entries) := by
  cases h with
  | skipped hskip =>
    induction entries with
    | nil => exact emits_pure []
    | cons entry rest ih =>
      obtain ⟨⟨hmode, q, hsite⟩, hrest⟩ := List.forall_mem_cons.1 hentries
      have hemit := emits_emit (Emitter.emit_parameter_skipped hskip hsite hmode)
      rw [k.emitter.counted_cons entry rest]
      exact hemit.bind ((ih hrest).bind_pure rfl)
  | checked hskip h =>
    induction h with
    | nil => exact emits_pure []
    | @cons entry t rest ts hcheck hall ih =>
      obtain ⟨⟨hmode, -⟩, hrest⟩ := List.forall_mem_cons.1 hentries
      obtain ⟨p, type, hsite, htype, rfl⟩ := hcheck
      have hemit := emits_emit (Emitter.emit_parameter hskip hsite hmode htype)
      rw [k.emitter.counted_cons entry rest]
      exact hemit.bind ((ih hrest).bind_pure rfl)

/-- Statements are put behind the documentation of a suite. -/
theorem insertBehindDocstring_eq (ts body : List Stmt) :
    insertBehindDocstring ts body =
      body.take (docstringLength body) ++ ts ++ body.drop (docstringLength body) := rfl

/-- A suite is documented if its first statement is a text. -/
theorem docstring?_cons_isSome {t : Stmt} {rest : List Stmt} :
    (docstring? (t :: rest)).isSome = true ↔ ∃ pos q value marked,
      t = .simple pos (.expression (.constant q value marked)) ∧ value.isText = true := by
  unfold docstring?
  constructor
  · intro h
    split at h
    · rename_i heq
      obtain ⟨rfl, -⟩ := List.cons.inj heq
      split at h
      · exact ⟨_, _, _, _, rfl, ‹_›⟩
      · cases h
    · cases h
  · rintro ⟨pos, q, value, marked, rfl, htext⟩
    simp [htext]

section Checked

variable (hskip : k.emitter.skipAsserts = false)

include hskip

/-- Where there are checks, an expression becomes a constant if it is one. -/
theorem PlacesExpr.constant_iff {e e' u : Expr} {entries : List PlanEntry}
    (h : k.PlacesExpr c e e' entries u) {pos : Pos} {value : Constant} {marked : Bool} :
    u = .constant pos value marked ↔ e = .constant pos value marked := by
  cases h with
  | cast => simp [Emitter.castCode, hskip, checkExpr, callExpr]
  | parts => cases e <;> simp [Expr.withChildren]

/-- Where there are checks, a simple statement becomes a constant if it is one. -/
theorem PlacesSimple.constant_iff {pos : Pos} {t t' u : Simple} {entries : List PlanEntry}
    (h : k.PlacesSimple c pos t t' entries u) {q : Pos} {value : Constant} {marked : Bool} :
    u = .expression (.constant q value marked) ↔ t = .expression (.constant q value marked) := by
  cases h with
  | typeAlias | reify => simp
  | other hdeclares hnumber h =>
    cases h with
    | intro h =>
      cases t with
      | expression e =>
        have hone : k.PlacesExprs c [e] _ _ _ := h
        cases hone with
        | cons hfirst hrest =>
          cases hrest with
          | nil => simpa [refill] using hfirst.constant_iff hskip
      | _ => simp [refill]

/-- Where there are checks, a suite keeps its documentation. -/
theorem PlacesAll.docstringLength_eq {known known' : List String} {ts ts' us : List Stmt}
    {entries : List PlanEntry} (h : k.PlacesAll c known ts ts' entries us known') :
    docstringLength us = docstringLength ts := by
  cases h with
  | nil => rfl
  | @cons c known known₁ known' t t' u ts ts' us first more hfirst hrest =>
    have hconstant (pos q : Pos) (value : Constant) (marked : Bool) :
        u = .simple pos (.expression (.constant q value marked)) ↔
          t = .simple pos (.expression (.constant q value marked)) := by
      cases hfirst with
      | simple h => simp [h.constant_iff hskip]
      | function | record | classDef | guarded | branch | compound => simp
    have hsome : (docstring? (u :: us)).isSome = (docstring? (t :: ts)).isSome := by
      rw [Bool.eq_iff_iff, docstring?_cons_isSome, docstring?_cons_isSome]
      simp only [hconstant]
    rw [docstringLength, hsome, docstringLength]

end Checked

/-- Checks stand behind the documentation that the body has in the former module. -/
theorem PlacesChecks.insert_eq {pos : Pos} {known known' : List String}
    {body body' us checks : List Stmt} {entries third : List PlanEntry}
    (hchecks : k.PlacesChecks pos entries checks)
    (hbody : k.PlacesAll c known body body' third us known') :
    us.take (docstringLength body) ++ checks ++ us.drop (docstringLength body) =
      insertBehindDocstring checks us := by
  rw [insertBehindDocstring_eq]
  cases hchecks with
  | skipped hskip => simp
  | checked hskip h => rw [hbody.docstringLength_eq hskip]

mutual

/-- A statement in which nothing carries a number is spliced to itself. -/
theorem emits_stmt_of_unnumbered : (t : Stmt) → (∀ u ∈ t.nodes, u.Unnumbered) →
    Emits (k.spliceStmt t) t []
  | .simple pos t, h => by
    obtain ⟨hnumber, hheld⟩ := h _ (List.mem_singleton_self _)
    rw [spliceStmt, spliceSimple_eq hnumber]
    exact (emits_spliceIn_self hheld).map
  | .function pos ⟨isAsync, name, params, returns, decorators, decl⟩ body, h => by
    obtain ⟨⟨hnumber, hheld⟩, hbody⟩ := List.forall_mem_cons.1 h
    obtain rfl : decl = none := hnumber
    obtain ⟨hdecorators, hparams⟩ := List.forall_mem_append.1 hheld
    rw [spliceStmt]
    refine (emits_spliceIn_self hparams).silent_bind ?_
    refine (emits_all_of_unnumbered body hbody).silent_bind ?_
    exact (emits_spliceIn_self hdecorators).bind_pure rfl
  | .classDef pos ⟨name, bases, keywords, decorators, decl⟩ body, h => by
    obtain ⟨⟨hnumber, hheld⟩, hbody⟩ := List.forall_mem_cons.1 h
    obtain rfl : decl = none := hnumber
    obtain ⟨hheld, hdecorators⟩ := List.forall_mem_append.1 hheld
    obtain ⟨hbases, hkeywords⟩ := List.forall_mem_append.1 hheld
    rw [spliceStmt]
    refine (emits_spliceIn_self hbases).silent_bind ?_
    refine (emits_spliceIn_self hkeywords).silent_bind ?_
    refine (emits_all_of_unnumbered body hbody).silent_bind ?_
    exact (emits_spliceIn_self hdecorators).map
  | .branch pos test body orelse, h => by
    obtain ⟨⟨-, htest⟩, hsuites⟩ := List.forall_mem_cons.1 h
    obtain ⟨hbody, horelse⟩ := List.forall_mem_append.1 hsuites
    rw [spliceStmt]
    refine (emits_spliceIn_self htest).silent_bind ?_
    refine (emits_all_of_unnumbered body hbody).silent_bind ?_
    exact (emits_all_of_unnumbered orelse horelse).map
  | .compound pos clauses, h => by
    obtain ⟨⟨-, hheld⟩, hclauses⟩ := List.forall_mem_cons.1 h
    have hheads : ∀ clause ∈ clauses, ∀ e ∈ slots clause.head, e.Unnumbered :=
      fun clause hclause e he => hheld e (List.mem_flatMap.2 ⟨clause, hclause, he⟩)
    rw [spliceStmt]
    exact (emits_clauses_of_unnumbered clauses hheads hclauses).map

/-- Statements in which nothing carries a number are spliced to themselves. -/
theorem emits_all_of_unnumbered : (ts : List Stmt) → Stmt.AllUnnumbered ts →
    Emits (k.spliceAll ts) ts []
  | [], _ => by
    rw [spliceAll]
    exact emits_pure []
  | t :: rest, h => by
    obtain ⟨hfirst, hrest⟩ := List.forall_mem_append.1 h
    rw [spliceAll]
    refine (emits_stmt_of_unnumbered t hfirst).silent_bind ?_
    exact (emits_all_of_unnumbered rest hrest).map

/-- Clauses in which nothing carries a number are spliced to themselves. -/
theorem emits_clauses_of_unnumbered : (clauses : List (Clause Stmt)) →
    (∀ clause ∈ clauses, ∀ e ∈ slots clause.head, e.Unnumbered) →
    (∀ u ∈ Stmt.clauseNodes clauses, u.Unnumbered) → Emits (k.spliceClauses clauses) clauses []
  | [], _, _ => by
    rw [spliceClauses]
    exact emits_pure []
  | ⟨head, body⟩ :: rest, hheads, h => by
    obtain ⟨hhead, hheads⟩ := List.forall_mem_cons.1 hheads
    obtain ⟨hbody, hrest⟩ := List.forall_mem_append.1 h
    rw [spliceClauses]
    refine (emits_spliceIn_self hhead).silent_bind ?_
    refine (emits_all_of_unnumbered body hbody).silent_bind ?_
    exact (emits_clauses_of_unnumbered rest hheads hrest).map

end

/-- A function records the entries of its initial values, its body, its decorators and its own. -/
theorem emits_function {pos : Pos} {head : FunctionHead} {decorators decorators' : List Expr}
    {params params' : Parameters Expr} {number : Nat} {body us checks : List Stmt}
    {d : FunctionDeclaration} {first second third entries : List PlanEntry}
    (hentries : k.plan.Holds number (.function d) entries)
    (hdecorators : Emits (k.spliceIn decorators) decorators' (k.emitter.counted first))
    (hparams : Emits (k.spliceIn params) params' (k.emitter.counted second))
    (hchecks : Emits (k.spliceChecks pos entries) checks (k.emitter.counted entries))
    (hbody : Emits (k.spliceAll body) us (k.emitter.counted third)) :
    Emits (k.spliceStmt (.function pos { head with decorators, params, decl := some number } body))
      (.function pos
        (stripHints { head with decorators := decorators', params := params', decl := some number })
        (insertBehindDocstring checks us))
      (k.emitter.counted (first ++ (second ++ (entries ++ third)))) := by
  have hperm : k.emitter.counted second ++
        (k.emitter.counted third ++ (k.emitter.counted first ++ k.emitter.counted entries)) ~
      k.emitter.counted (first ++ (second ++ (entries ++ third))) := by
    simp only [Emitter.counted_append]
    calc k.emitter.counted second ++
          (k.emitter.counted third ++ (k.emitter.counted first ++ k.emitter.counted entries))
      _ ~ k.emitter.counted second ++
          (k.emitter.counted first ++ (k.emitter.counted third ++ k.emitter.counted entries)) :=
        (List.perm_append_comm_assoc ..).append_left _
      _ ~ k.emitter.counted first ++
          (k.emitter.counted second ++ (k.emitter.counted third ++ k.emitter.counted entries)) :=
        List.perm_append_comm_assoc ..
      _ ~ k.emitter.counted first ++
          (k.emitter.counted second ++ (k.emitter.counted entries ++ k.emitter.counted third)) :=
        (List.perm_append_comm.append_left _).append_left _
  rw [spliceStmt]
  refine Emits.perm ?_ hperm
  refine hparams.bind (hbody.bind (hdecorators.bind ?_))
  simp only [hentries.entries_eq]
  exact hchecks.bind_pure rfl

mutual

/-- Splicing answers a statement that is placed. -/
theorem PlacesStmt.emits {c : LowerContext} {known known' : List String} {t t' u : Stmt}
    {entries : List PlanEntry} : k.PlacesStmt c known t t' entries u known' →
    Emits (k.spliceStmt t') u (k.emitter.counted entries)
  | .simple h => by
    rw [spliceStmt]
    exact h.emits.map
  | .function hnumber hdecorators hparams htyped hentries hchecks hbody => by
    obtain ⟨held, hperm, hparams⟩ := hparams.placesIn
    have hinitials := hparams.emits.perm (hperm.filter _)
    rw [hchecks.insert_eq hbody]
    exact emits_function hentries hdecorators.emits hinitials
      (hchecks.emits hentries.function_eq) hbody.emits
  | .record hrecord hentry hcode => by
    obtain ⟨hmode, hlabel⟩ := hentry.type_eq
    rw [spliceStmt]
    exact (emits_spliceBinding _ hentry.entry?_eq
      (hlabel ▸ Emitter.emit_define hmode hcode)).bind_pure rfl
  | .classDef hrecord hnumber hbases hkeywords hbody hdecorators => by
    rw [spliceStmt]
    simp only [hnumber, Emitter.counted_append]
    exact hbases.emits.bind (hkeywords.emits.bind (hbody.emits.bind hdecorators.emits.map))
  | .guarded hguard htest hbody horelse => by
    rw [spliceStmt]
    refine (emits_spliceIn_self (List.forall_mem_singleton.2 htest)).silent_bind ?_
    exact (emits_all_of_unnumbered _ hbody).silent_bind horelse.emits.map
  | .branch hguard htest hbody horelse => by
    rw [spliceStmt]
    simp only [Emitter.counted_append]
    exact htest.emits.bind (hbody.emits.bind horelse.emits.map)
  | .compound h => by
    rw [spliceStmt]
    exact h.emits.map

/-- Splicing answers statements that are placed. -/
theorem PlacesAll.emits {c : LowerContext} {known known' : List String} {ts ts' us : List Stmt}
    {entries : List PlanEntry} : k.PlacesAll c known ts ts' entries us known' →
    Emits (k.spliceAll ts') us (k.emitter.counted entries)
  | .nil => by
    rw [spliceAll]
    exact emits_pure []
  | .cons hfirst hrest => by
    rw [spliceAll, Emitter.counted_append]
    exact hfirst.emits.bind hrest.emits.map

/-- Splicing answers clauses that are placed. -/
theorem PlacesClauses.emits {c : LowerContext} {known known' : List String}
    {clauses clauses' us : List (Clause Stmt)} {entries : List PlanEntry} :
    k.PlacesClauses c known clauses clauses' entries us known' →
    Emits (k.spliceClauses clauses') us (k.emitter.counted entries)
  | .nil => by
    rw [spliceClauses]
    exact emits_pure []
  | .cons hhead hbody hrest => by
    rw [spliceClauses]
    simp only [Emitter.counted_append]
    exact hhead.emits.bind (hbody.emits.bind hrest.emits.map)

end

end Splicer

end Typeward
