import Typeward.Proofs.LoweredPlacements
import Typeward.Proofs.ModuleOrder

/-!
# The sites of declarations

Everything that lowering declares and that runs on import has one of the sites of the module, and
the definitions of types stand in their order: the site of a definition comes before those of all
declarations behind it.
-/

namespace Typeward

open Slots
open scoped List

/-- Where the code for a declaration runs, if it runs on import. -/
def Declaration.site? : Declaration → Option Location
  | .type d => d.location
  | .cast d => d.location
  | .reify d => d.location
  | .function _ => none

/-- A declaration defines a type outside of other definitions. -/
def Declaration.IsDefinition : Declaration → Prop
  | .type d => d.isTopLevel = true
  | _ => False

/-- Whether the code for a declaration runs on import, it runs at one of the sites. -/
def Declaration.RunsIn (file : String) (ms : List Mark) (d : Declaration) : Prop :=
  (∃ f, d = .function f) ∨ ∃ pos, d.site? = some (locationOf file pos) ∧ .site pos ∈ ms

/-- The site of a definition comes before that of another declaration. -/
def Declaration.Precedes (file : String) (ms : List Mark) (d d' : Declaration) : Prop :=
  d.IsDefinition → ∀ p p', d.site? = some (locationOf file p) →
    d'.site? = some (locationOf file p') → [.site p, .site p'] <+ ms

/-- Declarations that define no types have sites. -/
def Contained (file : String) (ms : List Mark) (ds : List Declaration) : Prop :=
  ∀ d ∈ ds, ¬ d.IsDefinition ∧ d.RunsIn file ms

/-- Declarations have sites, the definitions of types in order. Inside of other definitions there
are none of types. -/
structure Sited (file : String) (depth : Nat) (ms : List Mark) (ds : List Declaration) : Prop where
  runs : ∀ d ∈ ds, d.RunsIn file ms
  ordered : ds.Pairwise (·.Precedes file ms)
  inner : depth ≠ 0 → ∀ d ∈ ds, ¬ d.IsDefinition

section Sites

variable {file : String} {depth : Nat} {ms ms' : List Mark} {d : Declaration}
  {ds ds' : List Declaration}

/-- Places of different nodes are different. -/
theorem locationOf_inj {p q : Pos} : locationOf file p = locationOf file q ↔ p = q := by
  obtain ⟨line, column⟩ := p
  obtain ⟨line', column'⟩ := q
  simp only [locationOf, Location.mk.injEq, Pos.mk.injEq, and_true]
  omega

/-- A site is one of whatever contains it. -/
theorem Declaration.RunsIn.mono (h : d.RunsIn file ms) (hms : ms ⊆ ms') : d.RunsIn file ms' :=
  h.imp_right fun ⟨pos, hpos, hsite⟩ => ⟨pos, hpos, hms hsite⟩

/-- The place of a declaration is a site of the values that it stands in. -/
theorem Declaration.RunsIn.mem (h : d.RunsIn file ms) {p : Pos}
    (hp : d.site? = some (locationOf file p)) : .site p ∈ ms := by
  obtain ⟨f, rfl⟩ | ⟨pos, hpos, hsite⟩ := h
  · cases hp
  · have heq := locationOf_inj.1 (Option.some.inj (hp.symm.trans hpos))
    rwa [heq]

/-- No declarations have sites. -/
theorem contained_nil : Contained file ms [] := fun _ hd => absurd hd List.not_mem_nil

/-- Declarations on both sides have sites. -/
theorem Contained.append (h : Contained file ms ds) (h' : Contained file ms ds') :
    Contained file ms (ds ++ ds') := by
  intro d hd
  rcases List.mem_append.1 hd with hd | hd
  · exact h d hd
  · exact h' d hd

/-- Sites are those of whatever contains them. -/
theorem Contained.mono (h : Contained file ms ds) (hms : ms ⊆ ms') : Contained file ms' ds :=
  fun d hd => ⟨(h d hd).1, (h d hd).2.mono hms⟩

/-- Where no types are defined, nothing has to be in order. -/
theorem Contained.sited (h : Contained file ms ds) : Sited file depth ms ds where
  runs := fun d hd => (h d hd).2
  ordered := List.pairwise_of_forall_mem_list fun d hd _ _ hdefinition =>
    absurd hdefinition (h d hd).1
  inner := fun _ d hd => (h d hd).1

/-- Inside of definitions no types are defined. -/
theorem Sited.contained (h : Sited file depth ms ds) (hdepth : depth ≠ 0) :
    Contained file ms ds :=
  fun d hd => ⟨h.inner hdepth d hd, h.runs d hd⟩

/-- The sites of whatever contains them are in the same order. -/
theorem Sited.mono (h : Sited file depth ms ds) (hms : ms <+ ms') : Sited file depth ms' ds where
  runs := fun d hd => (h.runs d hd).mono hms.subset
  ordered := h.ordered.imp fun hprecedes hdefinition p p' hp hp' =>
    (hprecedes hdefinition p p' hp hp').trans hms
  inner := h.inner

/-- One declaration after others has a later site. -/
theorem Sited.append (h : Sited file depth ms ds) (h' : Sited file depth ms' ds') :
    Sited file depth (ms ++ ms') (ds ++ ds') := by
  have hleft := h.mono (List.sublist_append_left ms ms')
  have hright := h'.mono (List.sublist_append_right ms ms')
  refine ⟨?_, ?_, ?_⟩
  · intro d hd
    rcases List.mem_append.1 hd with hd | hd
    · exact hleft.runs d hd
    · exact hright.runs d hd
  · refine List.pairwise_append.2 ⟨hleft.ordered, hright.ordered, ?_⟩
    intro d hd d' hd' _ p p' hp hp'
    have hfirst : [.site p] <+ ms := List.singleton_sublist.2 ((h.runs d hd).mem hp)
    exact hfirst.append (List.singleton_sublist.2 ((h'.runs d' hd').mem hp'))
  · intro hdepth d hd
    rcases List.mem_append.1 hd with hd | hd
    · exact hleft.inner hdepth d hd
    · exact hright.inner hdepth d hd

/-- A single declaration has to be in order with nothing. -/
theorem sited_singleton (h : d.RunsIn file ms) (hinner : depth ≠ 0 → ¬ d.IsDefinition) :
    Sited file depth ms [d] where
  runs := by simpa using h
  ordered := List.pairwise_singleton _ _
  inner := by simpa using hinner

end Sites

namespace Lower

open Typeward.Action

variable {α β : Type} {P Q R : List Declaration → Prop}

/-- What a lowering declares satisfies a condition. -/
def Declares (P : List Declaration → Prop) (x : Lower α) : Prop :=
  ∀ ⦃s a s'⦄, x s = .ok (a, s') → ∃ new, s'.declarations = s.declarations ++ new ∧ P new

/-- What satisfies a condition satisfies a weaker one. -/
theorem Declares.mono {x : Lower α} (h : Declares P x) (hPQ : ∀ ds, P ds → Q ds) :
    Declares Q x := by
  intro s a s' hx
  obtain ⟨new, heq, hnew⟩ := h hx
  exact ⟨new, heq, hPQ new hnew⟩

/-- One lowering after another declares what both declare. -/
theorem Declares.bind {x : Lower α} {f : α → Lower β} (hx : Declares P x)
    (hf : ∀ a, Declares Q (f a)) (hPQ : ∀ ds ds', P ds → Q ds' → R (ds ++ ds')) :
    Declares R (x >>= f) := by
  intro s b s' h
  obtain ⟨a, s₁, ha, hb⟩ := bind_eq_ok.1 h
  obtain ⟨first, hfirst, hP⟩ := hx ha
  obtain ⟨second, hsecond, hQ⟩ := hf a hb
  exact ⟨first ++ second, by rw [hsecond, hfirst, List.append_assoc], hPQ _ _ hP hQ⟩

/-- A lowering that leaves the declarations as they are declares what is declared after it. -/
theorem Declares.after {x : Lower α} {f : α → Lower β} (hf : ∀ a, Declares P (f a))
    (hx : ∀ ⦃s a s'⦄, x s = .ok (a, s') → s'.declarations = s.declarations) :
    Declares P (x >>= f) := by
  intro s b s' h
  obtain ⟨a, s₁, ha, hb⟩ := bind_eq_ok.1 h
  obtain ⟨new, hnew, hP⟩ := hf a hb
  exact ⟨new, by rw [hnew, hx ha], hP⟩

/-- What is made of an answer declares nothing more. -/
theorem Declares.map {x : Lower α} (hx : Declares P x) (f : α → β) :
    Declares P (do return f (← x)) := by
  intro s b s' h
  obtain ⟨a, s₁, ha, hb⟩ := bind_eq_ok.1 h
  obtain ⟨-, rfl⟩ := pure_eq_ok.1 hb
  exact hx ha

/-- A declaration is declared. -/
theorem declares_declare {d : Declaration} (h : P [d]) : Declares P (declare d) := by
  intro s n s' hs
  obtain ⟨-, rfl⟩ := declare_eq_ok.1 hs
  exact ⟨[d], rfl, h⟩

/-- A fault declares nothing. -/
theorem declares_lowerFault (c : LowerContext) (e : Expr) (construct : String) :
    Declares P (lowerFault c e construct : Lower α) := by
  intro s a s' h
  simp [lowerFault, HintContext.unsupported] at h

variable {c : LowerContext} {ms ms' : List Mark}

/-- The casts in several values have their sites. -/
theorem Declares.bindContained {file : String} {x : Lower α} {f : α → Lower β}
    (hx : Declares (Contained file ms) x) (hf : ∀ a, Declares (Contained file ms) (f a)) :
    Declares (Contained file ms) (x >>= f) :=
  hx.bind hf fun _ _ h h' => h.append h'

/-- Doing nothing declares nothing. -/
theorem declares_pure {file : String} (a : α) :
    Declares (Contained file ms) (pure a : Lower α) := by
  intro s b s' h
  obtain ⟨-, rfl⟩ := pure_eq_ok.1 h
  exact ⟨[], (List.append_nil _).symm, contained_nil⟩

/-- What is declared for the members of a list has its sites if that for each of them has. -/
theorem declares_mapM {file : String} {f : α → Lower β} {l : List α}
    (hf : ∀ a ∈ l, Declares (Contained file ms) (f a)) :
    Declares (Contained file ms) (l.mapM f) := by
  induction l with
  | nil => exact declares_pure []
  | cons a rest ih =>
    rw [List.mapM_cons]
    refine (hf a List.mem_cons_self).bindContained fun b => ?_
    exact (ih fun a ha => hf a (List.mem_cons_of_mem _ ha)).map (b :: ·)

/-- A node outside of quotes stands at its own place. -/
theorem location_eq (hanchor : c.hints.anchor = none) (pos : Pos) :
    c.location pos = some (locationOf c.hints.file pos) := by
  rw [LowerContext.location, HintContext.location, hanchor]
  rfl

/-- The calls in a part of an expression are calls in the expression. -/
theorem calls_subset_of_mem_children {e e' : Expr} (h : e' ∈ e.children) :
    e'.calls ⊆ e.calls := by
  rw [e.calls_eq]
  exact fun p hp => List.mem_append_right _ (List.mem_flatMap.2 ⟨e', h, hp⟩)

/-- The casts in an expression are declared at its calls. -/
theorem contained_lowerExpr (hanchor : c.hints.anchor = none) (e : Expr) :
    Declares (Contained c.hints.file (e.calls.map .site)) (lowerExpr c e) := by
  fun_induction lowerExpr c e with
  | case1 pos func type value decl h ih =>
    have hvalue : value ∈ (Expr.call pos func [type, value] [] decl).children :=
      List.mem_cons_of_mem _ (List.mem_cons_of_mem _ List.mem_cons_self)
    have hpos : pos ∈ (Expr.call pos func [type, value] [] decl).calls := by
      rw [Expr.calls_eq]
      exact List.mem_append_left _ (List.mem_singleton_self pos)
    refine Declares.after (fun t => ?_) fun s t s' ht => by rw [(lowerHint_eq_ok.1 ht).2]
    refine Declares.after (fun label => ?_) fun s label s' hlabel => ?_
    · refine Declares.bindContained (declares_declare ?_) fun number => ?_
      · intro d hd
        rw [List.mem_singleton.1 hd]
        exact ⟨not_false, .inr ⟨pos, location_eq hanchor pos, List.mem_map_of_mem hpos⟩⟩
      · refine (ih.mono fun ds hds => hds.mono ?_).map _
        exact List.map_subset _ (calls_subset_of_mem_children hvalue)
    · obtain ⟨text, -, hstate⟩ := Except.bind_eq_ok.1 hlabel
      simp only [pure, Except.pure, Except.ok.injEq, Prod.mk.injEq] at hstate
      rw [hstate.2]
  | case2 e h hne => exact declares_lowerFault c _ _
  | case3 e h ih =>
    refine (declares_mapM fun e' _ => ?_).map _
    refine (ih e'.1 (Expr.sizeOf_lt_of_mem_children e'.2)).mono fun ds hds => hds.mono ?_
    exact List.map_subset _ (calls_subset_of_mem_children e'.2)

/-- The casts in a value are declared at its calls. -/
theorem contained_lowerIn [Slots α] (hanchor : c.hints.anchor = none) (a : α) :
    Declares (Contained c.hints.file (sitesIn a)) (lowerIn c a) := by
  refine (declares_mapM fun e he => ?_).map _
  refine (contained_lowerExpr hanchor e).mono fun ds hds => hds.mono ?_
  refine List.map_subset _ fun p hp => ?_
  exact List.mem_flatMap.2 ⟨e, he, hp⟩

/-- The casts in initial values are declared at the calls in the parameters. -/
theorem contained_lowerInitials (hanchor : c.hints.anchor = none) (params : Parameters Expr) :
    Declares (Contained c.hints.file (sitesIn params)) (lowerInitials c params) := by
  have hpart (ps : List (Parameter Expr)) (hps : slots ps ⊆ slots params) :
      Declares (Contained c.hints.file (sitesIn params)) (lowerIn c ps) := by
    refine (contained_lowerIn hanchor ps).mono fun ds hds => hds.mono ?_
    refine List.map_subset _ fun p hp => ?_
    obtain ⟨e, he, hp⟩ := List.mem_flatMap.1 hp
    exact List.mem_flatMap.2 ⟨e, hps he, hp⟩
  refine (hpart params.positionalOnly ?_).bindContained fun positionalOnly => ?_
  · exact fun e he => List.mem_append_right _ (List.mem_append_left _ he)
  · refine (hpart params.positional ?_).bindContained fun positional => ?_
    · exact fun e he => List.mem_append_right _ (List.mem_append_right _ he)
    · refine (hpart params.keywordOnly ?_).map _
      exact fun e he => List.mem_append_left _ he

/-- A simple statement declares a type or a binding at its start, or the casts in it. -/
theorem sited_lowerSimple (hanchor : c.hints.anchor = none) (pos : Pos) (t : Simple) :
    Declares (Sited c.hints.file c.depth (t.marks c.depth pos)) (lowerSimple c pos t) := by
  have hin (t : Simple) (ms : List Mark) (h : sitesIn t ⊆ ms) :
      Declares (Sited c.hints.file c.depth ms) (lowerIn c t) :=
    (contained_lowerIn hanchor t).mono fun ds hds => (hds.mono h).sited
  unfold lowerSimple
  split
  · split
    · refine Declares.after (fun type => ?_) fun s t s' ht => by rw [(lowerHint_eq_ok.1 ht).2]
      refine Declares.map (declares_declare (sited_singleton ?_ ?_)) _
      · exact .inr ⟨pos, location_eq hanchor pos, List.mem_cons_self⟩
      · intro hdepth htop
        exact hdepth (of_decide_eq_true htop)
    · exact hin _ _ (List.subset_cons_self _ _)
  · split
    · split
      · refine Declares.after (fun type => ?_) fun s t s' ht => by rw [(lowerHint_eq_ok.1 ht).2]
        refine Declares.map (declares_declare (sited_singleton ?_ ?_)) _
        · exact .inr ⟨pos, location_eq hanchor pos, List.mem_cons_self⟩
        · exact fun _ => nofun
      · exact declares_lowerFault c _ _
    · exact hin _ _ (List.subset_cons_self _ _)
  · refine hin t _ ?_
    unfold Simple.marks
    split
    · exact List.nil_subset _
    · exact List.nil_subset _
    · exact List.subset_cons_self _ _

/-- A record is declared at the start of its class statement. -/
theorem sited_lowerRecord (hanchor : c.hints.anchor = none) (pos : Pos) (head : ClassHead)
    (body : List Stmt) (inherited : List (RecordField StaticType)) (h : .site pos ∈ ms) :
    Declares (Sited c.hints.file c.depth ms) (lowerRecord c pos head body inherited) := by
  intro s n s' hrun
  obtain ⟨fields, -, hdeclare⟩ := lowerRecord_eq_ok.1 hrun
  obtain ⟨-, rfl⟩ := declare_eq_ok.1 hdeclare
  refine ⟨[_], rfl, sited_singleton ?_ ?_⟩
  · exact .inr ⟨pos, location_eq hanchor pos, h⟩
  · intro hdepth htop
    exact hdepth (of_decide_eq_true htop)

/-- Statements one after the other declare what both declare, in order. -/
theorem Declares.bindSited {file : String} {depth : Nat} {x : Lower α} {f : α → Lower β}
    (hx : Declares (Sited file depth ms) x) (hf : ∀ a, Declares (Sited file depth ms') (f a)) :
    Declares (Sited file depth (ms ++ ms')) (x >>= f) :=
  hx.bind hf fun _ _ h h' => h.append h'

mutual

/-- What a statement declares has its sites, in order. -/
theorem sited_lowerStmt {c : LowerContext} (hanchor : c.hints.anchor = none) :
    (t : Stmt) → Declares (Sited c.hints.file c.depth (t.marks c.depth)) (lowerStmt c t)
  | .simple pos t => by
    rw [lowerStmt]
    exact (sited_lowerSimple hanchor pos t).map _
  | .function pos head body => by
    rw [lowerStmt]
    have hinside : c.inside.hints.anchor = none := hanchor
    let ms := (Stmt.function pos head body).marks c.depth
    have hbody : Declares (Contained c.hints.file ms) (lowerAll c.inside body) := by
      refine (sited_lowerAll hinside body).mono fun ds hds => ?_
      exact (hds.contained (Nat.succ_ne_zero _)).mono (List.subset_append_right _ _)
    have hdecorators : Declares (Contained c.hints.file ms) (lowerIn c head.decorators) := by
      refine (contained_lowerIn hanchor head.decorators).mono fun ds hds => hds.mono ?_
      exact List.Subset.trans (List.subset_append_left _ _) (List.subset_append_left _ _)
    have hparams : Declares (Contained c.hints.file ms) (lowerInitials c head.params) := by
      refine (contained_lowerInitials hanchor head.params).mono fun ds hds => hds.mono ?_
      exact List.Subset.trans (List.subset_append_right _ _) (List.subset_append_left _ _)
    have hfunction (typed : List TypedParameter) : Declares (Contained c.hints.file ms)
        (declare (.function ⟨head.name, typed, c.location pos⟩)) := by
      refine declares_declare fun d hd => ?_
      rw [List.mem_singleton.1 hd]
      exact ⟨not_false, .inl ⟨_, rfl⟩⟩
    refine Declares.mono ?_ fun ds hds => Contained.sited hds
    refine hdecorators.bindContained fun decorators => hparams.bindContained fun params => ?_
    refine Declares.after (fun typed => ?_) fun s typed s' h => by rw [state_of_lowerParameters h]
    exact (hfunction typed).bindContained fun number => hbody.map _
  | .classDef pos head body => by
    rw [lowerStmt]
    have hinside : c.inside.hints.anchor = none := hanchor
    let ms := (Stmt.classDef pos head body).marks c.depth
    have haround : marksAround c.depth head.name pos (.site pos :: (sitesIn head.bases ++
        sitesIn head.keywords ++ Stmt.allMarks (c.depth + 1) body)) ⊆ ms :=
      List.subset_append_right _ _
    have hinner : .site pos :: (sitesIn head.bases ++ sitesIn head.keywords ++
        Stmt.allMarks (c.depth + 1) body) ⊆ ms :=
      List.Subset.trans (sublist_marksAround_inner _ _ _ _).subset haround
    refine Declares.after (fun s => ?_) fun s a s' h => by rw [(pure_eq_ok.1 h).2]
    split
    · exact (sited_lowerRecord hanchor pos head body _ (hinner List.mem_cons_self)).map _
    · have hsites := List.Subset.trans (List.subset_cons_self _ _) hinner
      have hbases : Declares (Contained c.hints.file ms) (lowerIn c.inside head.bases) := by
        refine (contained_lowerIn hinside head.bases).mono fun ds hds => hds.mono ?_
        refine List.Subset.trans ?_ hsites
        exact List.Subset.trans (List.subset_append_left _ _) (List.subset_append_left _ _)
      have hkeywords : Declares (Contained c.hints.file ms) (lowerIn c.inside head.keywords) := by
        refine (contained_lowerIn hinside head.keywords).mono fun ds hds => hds.mono ?_
        refine List.Subset.trans ?_ hsites
        exact List.Subset.trans (List.subset_append_right _ _) (List.subset_append_left _ _)
      have hbody : Declares (Contained c.hints.file ms) (lowerAll c.inside body) := by
        refine (sited_lowerAll hinside body).mono fun ds hds => ?_
        refine (hds.contained (Nat.succ_ne_zero _)).mono ?_
        exact List.Subset.trans (List.subset_append_right _ _) hsites
      have hdecorators : Declares (Contained c.hints.file ms)
          (lowerIn c.inside head.decorators) := by
        refine (contained_lowerIn hinside head.decorators).mono fun ds hds => hds.mono ?_
        exact List.subset_append_left _ _
      refine Declares.mono ?_ fun ds hds => Contained.sited hds
      refine hbases.bindContained fun bases => hkeywords.bindContained fun keywords => ?_
      exact hbody.bindContained fun body => hdecorators.map _
  | .branch pos test body orelse => by
    rw [lowerStmt]
    have horelse := sited_lowerAll (c := c) hanchor orelse
    split
    · refine Declares.map ?_ _
      exact horelse.mono fun ds hds => hds.mono (List.sublist_append_right _ _)
    · have htest : Declares (Sited c.hints.file c.depth (sitesIn test)) (lowerIn c test) :=
        (contained_lowerIn hanchor test).mono fun ds hds => hds.sited
      have hrest (test : Expr) := (sited_lowerAll (c := c) hanchor body).bindSited
        fun body => horelse.map (Stmt.branch pos test body)
      rw [Stmt.marks, List.append_assoc]
      exact htest.bindSited hrest
  | .compound pos clauses => by
    rw [lowerStmt]
    exact (sited_lowerClauses hanchor clauses).map _

/-- What statements declare has its sites, in order. -/
theorem sited_lowerAll {c : LowerContext} (hanchor : c.hints.anchor = none) :
    (ts : List Stmt) → Declares (Sited c.hints.file c.depth (Stmt.allMarks c.depth ts))
      (lowerAll c ts)
  | [] => by
    rw [lowerAll]
    exact (declares_pure []).mono fun ds hds => Contained.sited hds
  | t :: rest => by
    rw [lowerAll]
    exact (sited_lowerStmt hanchor t).bindSited fun t' =>
      (sited_lowerAll hanchor rest).map (t' :: ·)

/-- What clauses declare has its sites, in order. -/
theorem sited_lowerClauses {c : LowerContext} (hanchor : c.hints.anchor = none) :
    (clauses : List (Clause Stmt)) →
      Declares (Sited c.hints.file c.depth (Stmt.clauseMarks c.depth clauses))
        (lowerClauses c clauses)
  | [] => by
    rw [lowerClauses]
    exact (declares_pure []).mono fun ds hds => Contained.sited hds
  | ⟨head, body⟩ :: rest => by
    rw [lowerClauses]
    have hhead : Declares (Sited c.hints.file c.depth (sitesIn head)) (lowerIn c head) :=
      (contained_lowerIn hanchor head).mono fun ds hds => hds.sited
    have hrest (head : ClauseHead) := (sited_lowerAll (c := c) hanchor body).bindSited
      fun body => (sited_lowerClauses (c := c) hanchor rest).map (⟨head, body⟩ :: ·)
    rw [Stmt.clauseMarks, List.append_assoc]
    exact hhead.bindSited hrest

end

/-- What a module declares has sites in it, the definitions of its types in order. -/
theorem sited_of_lowerTree {tree : Module} {file : String} {comments : List (Nat × String)}
    {options : Options} {lowered : Lowered}
    (h : lowerTree tree file comments options = .ok lowered) :
    Sited file 0 tree.marks lowered.declarations := by
  unfold lowerTree at h
  obtain ⟨⟨tree', s⟩, htree, h⟩ := Except.bind_eq_ok.1 h
  obtain rfl := Except.ok.inj h
  obtain ⟨new, hnew, hsited⟩ := sited_lowerAll rfl tree htree
  rw [List.nil_append] at hnew
  exact hnew ▸ hsited

end Lower

end Typeward
