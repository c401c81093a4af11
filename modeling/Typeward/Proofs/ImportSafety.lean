import Typeward.Proofs.Captures
import Typeward.Proofs.DeclarationSites
import Typeward.Proofs.EvaluatedNames
import Typeward.Proofs.ExactSplicing
import Typeward.Proofs.StatementOrder

/-!
# What is there when a module is imported

Code that runs on import finds what it reads at once: the classes and imports that it evaluates are
bound by statements that end before it, or stand around it. It reads late what is bound behind it.
-/

namespace Typeward

open Registry Source
open scoped List

/-- An entry of a plan stands where its declaration does, and defines a type if the declaration
does. -/
structure Declaration.Makes (d : Declaration) (entry : PlanEntry) : Prop where
  site : entry.site.location? = d.site?
  definition : entry.mode = .define → d.IsDefinition
  function : ∀ f, d = .function f → ∃ p, entry.site = .parameter p

/-- The entries of a step are made by its declaration. -/
theorem PlanStep.makes {r r' : Registry} {number : Nat} {d : Declaration}
    {entries : List PlanEntry} (h : PlanStep r number d entries r') :
    ∀ entry ∈ entries, d.Makes entry := by
  intro entry hentry
  cases h with
  | define htop =>
    obtain rfl := List.mem_singleton.1 hentry
    exact ⟨rfl, fun _ => htop, nofun⟩
  | function h =>
    obtain ⟨p, -, t, e, -, -, rfl⟩ := exists_mem_of_forall₂ h hentry
    exact ⟨rfl, nofun, fun _ _ => ⟨p, rfl⟩⟩
  | cast | reify =>
    obtain rfl := List.mem_singleton.1 hentry
    exact ⟨rfl, nofun, nofun⟩

/-- A step that defines a type has no other entries. -/
theorem PlanStep.pairwise {r r' : Registry} {number : Nat} {d : Declaration}
    {entries : List PlanEntry} {R : PlanEntry → PlanEntry → Prop}
    (h : PlanStep r number d entries r') :
    entries.Pairwise fun e e' => e.mode = .define → R e e' := by
  cases h with
  | define | cast | reify => exact List.pairwise_singleton _ _
  | function h =>
    refine List.pairwise_of_forall_mem_list fun e he _ _ hmode => ?_
    obtain ⟨p, -, t, x, -, -, rfl⟩ := exists_mem_of_forall₂ h he
    cases hmode

/-- The entries of a run are made by its declarations. -/
theorem PlanRun.exists_makes {r r' : Registry} {number : Nat} {ds : List Declaration}
    {entries : List PlanEntry} (h : PlanRun r number ds entries r') :
    ∀ entry ∈ entries, ∃ d ∈ ds, d.Makes entry := by
  induction h with
  | nil => simp
  | @cons r number d ds first r₁ more r₂ hstep hrun ih =>
    intro entry hentry
    rcases List.mem_append.1 hentry with hentry | hentry
    · exact ⟨d, List.mem_cons_self, hstep.makes entry hentry⟩
    · obtain ⟨d', hd', hmakes⟩ := ih entry hentry
      exact ⟨d', List.mem_cons_of_mem _ hd', hmakes⟩

/-- The definitions in a run are made by declarations before those of the entries behind them. -/
theorem PlanRun.pairwise {r r' : Registry} {number : Nat} {ds : List Declaration}
    {entries : List PlanEntry} {R : Declaration → Declaration → Prop}
    (h : PlanRun r number ds entries r') (hds : ds.Pairwise R) :
    entries.Pairwise fun e e' => e.mode = .define →
      ∃ d ∈ ds, ∃ d', R d d' ∧ d.Makes e ∧ d'.Makes e' := by
  induction h with
  | nil => exact .nil
  | @cons r number d ds first r₁ more r₂ hstep hrun ih =>
    obtain ⟨hfirst, hrest⟩ := List.pairwise_cons.1 hds
    refine List.pairwise_append.2 ⟨hstep.pairwise, (ih hrest).imp ?_, fun e he e' he' _ => ?_⟩
    · intro e e' h hmode
      obtain ⟨d₁, hd₁, hmakes⟩ := h hmode
      exact ⟨d₁, List.mem_cons_of_mem _ hd₁, hmakes⟩
    · obtain ⟨d', hd', hmakes⟩ := hrun.exists_makes e' he'
      exact ⟨d, List.mem_cons_self, d', hfirst d' hd', hstep.makes e he, hmakes⟩

/-- The statement that binds a name from a place on ends before a site. -/
def Module.EndsBefore (m : Module) (name : String) (pos site : Pos) : Prop :=
  [.closes name pos, .site site] <+ m.marks

/-- The statement that binds a name from a place on stands around a site. -/
def Module.Encloses (m : Module) (name : String) (pos site : Pos) : Prop :=
  [.opens name pos, .site site, .closes name pos] <+ m.marks

/-- The statement that binds a name from a place on starts behind a site. -/
def Module.StartsBehind (m : Module) (name : String) (pos site : Pos) : Prop :=
  [.site site, .opens name pos] <+ m.marks

/-- A member of a list stands before, between or behind two others. -/
theorem sublist_of_mem {α : Type} {l : List α} {a b c : α} (h : [a, b] <+ l) (hc : c ∈ l)
    (ha : c ≠ a) (hb : c ≠ b) : [c, a, b] <+ l ∨ [a, c, b] <+ l ∨ [a, b, c] <+ l := by
  obtain ⟨first, second, rfl, hfirst, hsecond⟩ := List.cons_sublist_iff.1 h
  obtain ⟨l₁, l₂, rfl⟩ := List.append_of_mem hfirst
  obtain ⟨l₃, l₄, rfl⟩ := List.append_of_mem (List.singleton_sublist.1 hsecond)
  have hmem : c ∈ l₁ ∨ c ∈ l₂ ++ l₃ ∨ c ∈ l₄ := by
    simp only [List.mem_append, List.mem_cons, ha, hb, false_or] at hc
    rw [List.mem_append]
    tauto
  have heq : l₁ ++ a :: l₂ ++ (l₃ ++ b :: l₄) =
      l₁ ++ ([a] ++ ((l₂ ++ l₃) ++ ([b] ++ l₄))) := by simp
  have hin {x y z : List α} (hx : x <+ l₁) (hy : y <+ l₂ ++ l₃) (hz : z <+ l₄) :
      x ++ ([a] ++ (y ++ ([b] ++ z))) <+ l₁ ++ a :: l₂ ++ (l₃ ++ b :: l₄) := by
    rw [heq]
    exact hx.append ((List.Sublist.refl [a]).append (hy.append ((List.Sublist.refl [b]).append hz)))
  rcases hmem with hc | hc | hc
  · exact .inl (hin (List.singleton_sublist.2 hc) (List.nil_sublist _) (List.nil_sublist _))
  · exact .inr (.inl (hin (List.nil_sublist _) (List.singleton_sublist.2 hc) (List.nil_sublist _)))
  · exact .inr (.inr (hin (List.nil_sublist _) (List.nil_sublist _) (List.singleton_sublist.2 hc)))

variable {m : Module} {name : String} {pos site : Pos}

/-- A statement ends before a site or stands around it, or starts behind it. Which of both is the
case can be told from the places alone. -/
theorem Module.InOrder.cases (h : m.InOrder)
    (hname : [.opens name pos, .closes name pos] <+ m.marks) (hsite : .site site ∈ m.marks) :
    (m.EndsBefore name pos site ∨ m.Encloses name pos site) ∧ pos ≤ site ∨
      m.StartsBehind name pos site ∧ site < pos := by
  rcases sublist_of_mem hname hsite nofun nofun with hin | hin | hin
  · have hpair : Mark.InOrder (.site site) (.opens name pos) :=
      List.rel_of_pairwise_cons (h.sublist hin) List.mem_cons_self
    exact .inr ⟨(List.sublist_append_left [_, _] [_]).trans hin, hpair⟩
  · have hpair : Mark.InOrder (.opens name pos) (.site site) :=
      List.rel_of_pairwise_cons (h.sublist hin) List.mem_cons_self
    exact .inl ⟨.inr hin, hpair⟩
  · have hpair : Mark.InOrder (.opens name pos) (.site site) :=
      List.rel_of_pairwise_cons (h.sublist hin) (List.mem_cons_of_mem _ List.mem_cons_self)
    exact .inl ⟨.inl ((List.sublist_cons_self _ _).trans hin), hpair⟩

/-- A name that code at a site of a module reads has a value when the code runs on import. -/
inductive Available (m : Module) (file : String) (bindings : List Binding)
    (above : List PlanEntry) (entry : PlanEntry) (site : Pos) (name : String) : Prop
  /-- A builtin class that the module does not bind. -/
  | builtin (h : name ∈ builtinClasses) (hfree : ∀ b ∈ bindings, b.name ≠ name)
  /-- A type whose definition has an earlier site. -/
  | defined {e n pos} (he : e ∈ above) (hmode : e.mode = .define) (hlabel : e.label = some n)
      (hname : rootOf n = name) (hpos : e.site.location? = some (locationOf file pos))
      (h : [.site pos, .site site] <+ m.marks)
  /-- A class or an import, bound by a statement that ends before the site. -/
  | bound {b pos} (hb : b ∈ bindings) (hname : b.name = name)
      (hpos : b.location = some (locationOf file pos)) (h : m.EndsBefore name pos site)
  /-- A class, where the site stands inside of its statement. -/
  | inside {b pos} (hb : b ∈ bindings) (hname : b.name = name)
      (hpos : b.location = some (locationOf file pos)) (h : m.Encloses name pos site)
  /-- A predicate. -/
  | predicate {p} (h : entry.expr.Tests p) (hname : rootOf p = name)

/-- A name that code at a site of a module reads late: that of the recursive type that the code
defines, or one that is bound by a statement behind the site. -/
inductive Awaited (m : Module) (file : String) (bindings : List Binding) (entry : PlanEntry)
    (site : Pos) (name : String) : Prop
  | own {n} (hmode : entry.mode = .define) (hlabel : entry.label = some n)
      (hname : rootOf n = name)
  | behind {b pos} (hb : b ∈ bindings) (hname : b.name = name)
      (hpos : b.location = some (locationOf file pos)) (h : m.StartsBehind name pos site)

/-- Places in a file are in the order of the nodes. -/
theorem before_iff {file : String} {p q : Pos} {place place' : Location}
    (hp : place = locationOf file p) (hq : place' = locationOf file q) :
    place.line < place'.line ∨ place.line = place'.line ∧ place.column < place'.column ↔
      p < q := by
  subst hp hq
  simp only [locationOf, Pos.lt_iff]
  omega

/-- A new alias of the library changes nothing of what a registry knows. -/
theorem Registry.KnowsTypes.allocate {r r' : Registry} {bindings : List Binding}
    {above : List PlanEntry} {preferred name : String} (h : r.KnowsTypes bindings above)
    (hallocate : r.allocate preferred = (name, r')) : r'.KnowsTypes bindings above := by
  unfold Registry.allocate at hallocate
  split at hallocate
  · obtain ⟨-, rfl⟩ := Prod.mk.inj hallocate
    exact h
  · obtain ⟨-, rfl⟩ := Prod.mk.inj hallocate
    exact ⟨h.names, h.complete, h.defined, h.binding, h.site⟩

/-- A class that an entry of a plan may refer to is bound by the module, or a builtin class that no
binding hides. -/
theorem find?_cases {bindings : List Binding} {n : String}
    (h : (∃ b ∈ bindings, b.name = rootOf n) ∨ n ∈ builtinClasses) :
    (∃ b ∈ bindings, b.name = rootOf n ∧ bindings.reverse.find? (·.name == rootOf n) = some b) ∨
      rootOf n ∈ builtinClasses ∧ ∀ b ∈ bindings, b.name ≠ rootOf n := by
  cases hfound : bindings.reverse.find? (·.name == rootOf n) with
  | some b =>
    have hb := List.mem_reverse.1 (List.mem_of_find?_eq_some hfound)
    exact .inl ⟨b, hb, by simpa using List.find?_some hfound, rfl⟩
  | none =>
    have hfree : ∀ b ∈ bindings, b.name ≠ rootOf n := fun b hb => by
      simpa using List.find?_eq_none.1 hfound b (List.mem_reverse.2 hb)
    rcases h with ⟨b, hb, hname⟩ | hbuiltin
    · exact absurd hname (hfree b hb)
    · rw [rootOf_builtinClass hbuiltin] at hfree ⊢
      exact .inr ⟨hbuiltin, hfree⟩

section Reading

variable {tree : Module} {file : String} {above : List PlanEntry} {entry : PlanEntry}
  {bindings : List Binding} {site : Pos} {n : String}

/-- A class that is not bound later is bound by a statement that ends before the site or stands
around it, or it is a builtin class. -/
theorem available_of_class (horder : tree.InOrder)
    (hbindings : ∀ b ∈ bindings, b.MadeIn file tree.marks) (hmark : .site site ∈ tree.marks)
    (hlocation : entry.site.location? = some (locationOf file site))
    (h : (entry.scoping bindings above).Class n)
    (hnow : ¬ (entry.scoping bindings above).BoundLater n) :
    Available tree file bindings above entry site (rootOf n) := by
  rcases find?_cases h.1 with ⟨b, hb, hname, hfound⟩ | ⟨hbuiltin, hfree⟩
  · obtain ⟨pos, hpos, hmade⟩ := hbindings b hb
    rw [hname] at hmade
    rcases horder.cases hmade hmark with ⟨hends | hencloses, -⟩ | ⟨-, hbefore⟩
    · exact .bound hb hname hpos hends
    · exact .inside hb hname hpos hencloses
    · exact absurd ⟨b, _, _, hfound, hpos, hlocation, (before_iff rfl rfl).2 hbefore⟩ hnow
  · exact .builtin hbuiltin hfree

/-- A class that is bound later is bound by a statement behind the site. -/
theorem awaited_of_class (horder : tree.InOrder)
    (hbindings : ∀ b ∈ bindings, b.MadeIn file tree.marks) (hmark : .site site ∈ tree.marks)
    (hlocation : entry.site.location? = some (locationOf file site))
    (h : (entry.scoping bindings above).BoundLater n) :
    Awaited tree file bindings entry site (rootOf n) := by
  obtain ⟨b, place, place', hfound, hplace, hplace', hbelow⟩ := h
  obtain rfl := Option.some.inj (hlocation.symm.trans hplace')
  have hb := List.mem_reverse.1 (List.mem_of_find?_eq_some hfound)
  have hname : b.name = rootOf n := by simpa using List.find?_some hfound
  obtain ⟨pos, hpos, hmade⟩ := hbindings b hb
  rw [hname] at hmade
  have hbefore := (before_iff rfl (Option.some.inj (hplace.symm.trans hpos))).1 hbelow
  rcases horder.cases hmade hmark with ⟨-, hnot⟩ | ⟨hbehind, -⟩
  · exact absurd hbefore hnot.not_gt
  · exact .behind hb hname hpos hbehind

end Reading

/-- The site of the definition of a type comes before the sites of the entries below it. -/
theorem exists_definition_above {r r' : Registry} {ds : List Declaration}
    {entries : List PlanEntry} {file : String} {ms : List Mark} {i : Nat} {entry : PlanEntry}
    {site : Pos} {n : String} (hrun : PlanRun r 0 ds entries r') (hsited : Sited file 0 ms ds)
    (hentry : entries[i]? = some entry)
    (hlocation : entry.site.location? = some (locationOf file site))
    (hn : n ∈ definedNames (entries.take i)) :
    ∃ e ∈ entries.take i, e.mode = .define ∧ e.label = some n ∧
      ∃ pos, e.site.location? = some (locationOf file pos) ∧ [.site pos, .site site] <+ ms := by
  obtain ⟨e, he, hlabel⟩ := List.mem_filterMap.1 hn
  obtain ⟨he, hmode⟩ := List.mem_filter.1 he
  have hmode : e.mode = .define := by simpa using hmode
  obtain ⟨hi, hget⟩ := List.getElem?_eq_some_iff.1 hentry
  have hsplit : entries = entries.take i ++ entry :: entries.drop (i + 1) := by
    rw [← hget, List.getElem_cons_drop, List.take_append_drop]
  have hpairs := hrun.pairwise hsited.ordered
  rw [hsplit] at hpairs
  obtain ⟨-, -, hcross⟩ := List.pairwise_append.1 hpairs
  obtain ⟨d, hd, d', hprecedes, hmakes, hmakes'⟩ := hcross e he entry List.mem_cons_self hmode
  have hdefinition := hmakes.definition hmode
  rcases hsited.runs d hd with ⟨f, rfl⟩ | ⟨pos, hpos, -⟩
  · exact absurd hdefinition nofun
  · refine ⟨e, he, hmode, hlabel, pos, hmakes.site.trans hpos, ?_⟩
    exact hprecedes hdefinition pos site hpos (hmakes'.site.symm.trans hlocation)

/-- In a module that compiles, code that runs on import reads at once only what is there: types that
are defined above, classes and imports whose statements end before the code or stand around it,
builtin classes, and predicates, wherever these are bound. It reads late only the type that it
defines, and what is bound behind it. -/
theorem reads_available {source file : String} {options : Options} {lowered : Lowered}
    {c : CompiledTree} (hlowered : lower source file options = .ok lowered)
    (hcompile : compileLowered options lowered = .ok c) {i : Nat} {entry : PlanEntry}
    (hentry : c.plan.entries[i]? = some entry) (hsite : ∀ p, entry.site ≠ .parameter p) :
    ∃ tree site, Source.parseModule source = .ok tree ∧
      entry.site.location? = some (locationOf file site) ∧ .site site ∈ tree.marks ∧
      ∀ code name, render c.runtime entry.expr = .ok code →
        (code.Reads name false → name = c.runtime ∨
          Available tree file lowered.scope.bindings (c.plan.entries.take i) entry site name) ∧
        (code.Reads name true → name = c.runtime ∨
          Awaited tree file lowered.scope.bindings entry site name) := by
  obtain ⟨tree, found, hread, hlower⟩ := lower_eq_ok hlowered
  have hparsed : Source.parseModule source = .ok tree := Except.mapError_eq_ok.1 hread
  have horder := inOrder_of_parseModule hparsed
  obtain ⟨runtime, r, r', hallocate, hplan, -, -⟩ := compileLowered_eq_ok hcompile
  have hrun := planRun_of_plan hplan
  have hsited := Lower.sited_of_lowerTree hlower
  have hbindings : ∀ b ∈ lowered.scope.bindings, b.MadeIn file tree.marks := by
    obtain ⟨s, -, -, hscope, -⟩ := lowerTree_eq_ok hlower
    rw [hscope]
    exact fun b => madeIn_of_mem_bindings
  obtain ⟨d, hd, hmakes⟩ := hrun.exists_makes entry (List.mem_of_getElem? hentry)
  obtain ⟨site, hlocation, hmark⟩ : ∃ site, d.site? = some (locationOf file site) ∧
      .site site ∈ tree.marks := by
    rcases hsited.runs d hd with ⟨f, rfl⟩ | hruns
    · obtain ⟨p, hp⟩ := hmakes.function f rfl
      exact absurd hp (hsite p)
    · exact hruns
  rw [← hmakes.site] at hlocation
  have hknows := Registry.KnowsTypes.allocate (.ofModule lowered.scope.bindings
    lowered.scope.reserved) hallocate
  have hscoped := hrun.wellScoped hknows i entry hentry
  rw [List.nil_append] at hscoped
  refine ⟨tree, site, hparsed, hlocation, hmark, fun code name hrender =>
    ⟨fun hreads => ?_, fun hreads => ?_⟩⟩
  · cases hscoped.readAs hrender hreads with
    | library h => exact .inl h
    | defined h hname =>
      obtain ⟨e, he, hmode, hlabel, pos, hpos, hin⟩ :=
        exists_definition_above hrun hsited hentry hlocation h
      exact .inr (.defined he hmode hlabel hname hpos hin)
    | bound h hnow hname =>
      subst hname
      exact .inr (available_of_class horder hbindings hmark hlocation h hnow)
    | predicate h hname => exact .inr (.predicate h hname)
  · cases hscoped.readAs hrender hreads with
    | library h => exact .inl h
    | own h hname => exact .inr (.own h.1 h.2.1 hname)
    | unbound h hlater hname =>
      subst hname
      exact .inr (awaited_of_class horder hbindings hmark hlocation hlater)

/-- The tree of an import, and of a class with an inspection of itself in its suite. -/
def nodeTree (decl : Option Nat) : Module :=
  [.simple ⟨1, 0⟩ (.importNames (some "typecomb.markers") [⟨"reify", none⟩] 0),
    .classDef ⟨2, 0⟩ ⟨"Node", [], [], [], none⟩
      [.simple ⟨3, 4⟩ (.assign [.name ⟨3, 4⟩ "first"]
        (.call ⟨3, 12⟩ (.name ⟨3, 12⟩ "reify") [.constant ⟨3, 18⟩ (.text "Node") false] [] none)
        decl)]]

/-- What is known of the names in the module. -/
def nodeScope : Scope :=
  { specialNames := [("reify", "reify")]
    bindings := [⟨"Node", .ofClass, some ⟨2, 1, some "m.py"⟩⟩]
    shadowed := ["Node"], reserved := ["first", "Node", "reify"] }

/-- The module as the compiler sees it. -/
def nodeModule : Lowered where
  file := "m.py"
  declarations := [.reify ⟨"first", .reference "Node" [] (some ⟨3, 19, some "m.py"⟩),
    some ⟨3, 5, some "m.py"⟩⟩]
  scope := nodeScope
  tree := nodeTree (some 0)

/-- Whether a module is the one of `nodeTree`, as it is read. -/
def isNodeTree : Module → Bool
  | [.simple ⟨1, 0⟩ (.importNames (some "typecomb.markers") [⟨"reify", none⟩] 0),
      .classDef ⟨2, 0⟩ ⟨"Node", [], [], [], none⟩
        [.simple ⟨3, 4⟩ (.assign [.name ⟨3, 4⟩ "first"]
          (.call ⟨3, 12⟩ (.name ⟨3, 12⟩ "reify") [.constant ⟨3, 18⟩ (.text "Node") false] [] none)
          none)]] => true
  | _ => false

/-- The tree is read from its text. -/
theorem parseModule_node :
    parseModule "from typecomb.markers import reify\nclass Node:\n    first = reify(\"Node\")\n" =
      .ok (nodeTree none) := by
  have hread : (parseModule
      "from typecomb.markers import reify\nclass Node:\n    first = reify(\"Node\")\n").toOption.any
        isNodeTree = true := by
    decide +kernel
  refine Except.eq_ok_of_any hread fun m hm => ?_
  unfold isNodeTree at hm
  split at hm
  · rfl
  · cases hm

/-- Whether an expression is a name at a place. -/
def Expr.isNameAt (pos : Pos) (id : String) : Expr → Bool
  | .name p x => p = pos && x = id
  | _ => false

/-- The name at a place passes its test alone. -/
theorem Expr.eq_of_isNameAt {e : Expr} {pos : Pos} {id : String}
    (h : e.isNameAt pos id = true) : e = .name pos id := by
  unfold isNameAt at h
  split at h
  · obtain ⟨rfl, rfl⟩ := by simpa using h
    rfl
  · cases h

/-- The hint is read from its quotes. -/
theorem parseExpression_node : parseExpression "Node" = .ok (.name ⟨1, 0⟩ "Node") := by
  have hread : (parseExpression "Node").toOption.any (·.isNameAt ⟨1, 0⟩ "Node") = true := by
    decide +kernel
  exact Except.eq_ok_of_any hread fun _ => Expr.eq_of_isNameAt

/-- What stands in the quotes is the name. -/
theorem readQuoted_node :
    ∃ hsize, readQuoted "Node" = .ok ⟨.name ⟨1, 0⟩ "Node", hsize⟩ := by
  have htrim : Text.trim "Node" = "Node" := by decide +kernel
  have hsize : (Expr.name ⟨1, 0⟩ "Node").textSize < "Node".length := by
    with_unfolding_all decide +kernel
  refine ⟨hsize, ?_⟩
  unfold readQuoted
  rw [htrim, parseExpression_node]
  exact dif_pos hsize

/-- The quoted hint denotes the class. -/
theorem denote_node : (⟨nodeScope, "m.py", none⟩ : HintContext).denote
    (.constant ⟨3, 18⟩ (.text "Node") false) =
      .ok (.reference "Node" [] (some ⟨3, 19, some "m.py"⟩)) := by
  have hquoted : (⟨nodeScope, "m.py", none⟩ : HintContext).form
      (.constant ⟨3, 18⟩ (.text "Node") false) = .quoted ⟨3, 18⟩ "Node" := by
    unfold HintContext.form
    rfl
  obtain ⟨hsize, hread⟩ := readQuoted_node
  rw [HintContext.denote_of_form_quoted hquoted hread]
  exact HintContext.denote_of_form_done (by with_unfolding_all rfl)

/-- The inspection is lowered. -/
theorem lowerTree_node : lowerTree (nodeTree none) "m.py" [] {} = .ok nodeModule := by
  let context : LowerContext := ⟨⟨nodeScope, "m.py", none⟩, [], "recursive", 0⟩
  have hscope : Scope.ofModule "m.py" (nodeTree none) = nodeScope := by with_unfolding_all rfl
  have hlowered : lowerHint context.inside (.constant ⟨3, 18⟩ (.text "Node") false) =
      pure (.reference "Node" [] (some ⟨3, 19, some "m.py"⟩)) := by
    funext s
    rw [lowerHint]
    change (do return (← (⟨nodeScope, "m.py", none⟩ : HintContext).denote _, s)) = _
    rw [denote_node]
    rfl
  have hspecial : callsSpecial context.inside "reify" (.call ⟨3, 12⟩ (.name ⟨3, 12⟩ "reify")
      [.constant ⟨3, 18⟩ (.text "Node") false] [] none) = true := rfl
  have htree : lowerAll context (nodeTree none) {} =
      .ok (nodeModule.tree, ⟨nodeModule.declarations, []⟩) := by
    simp only [nodeTree, lowerAll, lowerStmt, lowerSimple, hspecial, hlowered, if_true]
    rfl
  rw [lowerTree, hscope]
  exact Except.bind_eq_ok.2 ⟨_, htree, rfl⟩

/-- The module is lowered from its text. -/
theorem lower_node :
    lower "from typecomb.markers import reify\nclass Node:\n    first = reify(\"Node\")\n" "m.py" {} =
      .ok nodeModule := by
  have hcomments : comments
      "from typecomb.markers import reify\nclass Node:\n    first = reify(\"Node\")\n" = .ok [] := by
    decide +kernel
  rw [lower, readModule, parseModule_node, hcomments]
  exact lowerTree_node

/-- The marks of the module. -/
theorem marks_node : (nodeTree none).marks =
    [.opens "reify" ⟨1, 0⟩, .closes "reify" ⟨1, 0⟩, .opens "Node" ⟨2, 0⟩, .site ⟨2, 0⟩,
      .site ⟨3, 4⟩, .site ⟨3, 12⟩, .closes "Node" ⟨2, 0⟩] := by
  have hname (pos : Pos) (id : String) : (Expr.name pos id).calls = [] := by
    rw [Expr.calls_eq]
    rfl
  have hquoted : (Expr.constant ⟨3, 18⟩ (.text "Node") false).calls = [] := by
    rw [Expr.calls_eq]
    rfl
  have hcall : (Expr.call ⟨3, 12⟩ (.name ⟨3, 12⟩ "reify")
      [.constant ⟨3, 18⟩ (.text "Node") false] [] none).calls = [⟨3, 12⟩] := by
    rw [Expr.calls_eq]
    change [⟨3, 12⟩] ++ [Expr.name ⟨3, 12⟩ "reify",
      .constant ⟨3, 18⟩ (.text "Node") false].flatMap (·.calls) = _
    rw [List.flatMap_cons, List.flatMap_cons, hname, hquoted]
    rfl
  have hsites : sitesIn (Simple.assign [.name ⟨3, 4⟩ "first"] (.call ⟨3, 12⟩ (.name ⟨3, 12⟩ "reify")
      [.constant ⟨3, 18⟩ (.text "Node") false] [] none) none) = [.site ⟨3, 12⟩] := by
    change List.map _ ([Expr.name ⟨3, 4⟩ "first", .call _ _ _ _ _].flatMap (·.calls)) = _
    rw [List.flatMap_cons, List.flatMap_cons, hname, hcall]
    rfl
  rw [Module.marks, nodeTree, Stmt.allMarks, Stmt.allMarks, Stmt.allMarks, Stmt.marks, Stmt.marks,
    Stmt.allMarks, Stmt.allMarks, Stmt.marks]
  change _ ++ (_ ++ _ ++ _) = _
  simp only [Simple.marks, hsites]
  rfl

/-- The module compiles, with code in its plan that reads the class at once. -/
theorem compile_node :
    ∃ c, compileLowered {} nodeModule = .ok c ∧ c.runtime = "t" ∧
      ∃ entry, c.plan.entries[0]? = some entry ∧
        entry.site.location? = some (locationOf "m.py" ⟨3, 4⟩) ∧
        (∀ p, entry.site ≠ .parameter p) ∧
        ∃ code, render "t" entry.expr = .ok code ∧ code.Reads "Node" false := by
  refine ⟨_, rfl, rfl, _, rfl, rfl, nofun, _, rfl, ?_⟩
  exact .part (.tail _ List.mem_cons_self) .name

/-- The inspection of a class in its own suite stands inside of the statement that binds the class,
and reads the class at once. -/
theorem reads_available_node :
    ∃ c entry code,
      lower "from typecomb.markers import reify\nclass Node:\n    first = reify(\"Node\")\n" "m.py" {} =
        .ok nodeModule ∧ compileLowered {} nodeModule = .ok c ∧
      c.plan.entries[0]? = some entry ∧ (∀ p, entry.site ≠ .parameter p) ∧
      render c.runtime entry.expr = .ok code ∧ code.Reads "Node" false ∧
      Available (nodeTree none) "m.py" nodeScope.bindings [] entry ⟨3, 4⟩ "Node" ∧
      (nodeTree none).Encloses "Node" ⟨2, 0⟩ ⟨3, 4⟩ ∧
      ¬ (nodeTree none).EndsBefore "Node" ⟨2, 0⟩ ⟨3, 4⟩ := by
  obtain ⟨c, hcompile, hruntime, entry, hentry, hlocation, hsite, code, hrender, hreads⟩ :=
    compile_node
  obtain ⟨tree, site, hparsed, hlocation', hmark, hnames⟩ :=
    reads_available lower_node hcompile hentry hsite
  have htree : tree = nodeTree none := Except.ok.inj (hparsed.symm.trans parseModule_node)
  have heq : site = ⟨3, 4⟩ := locationOf_inj.1 (Option.some.inj (hlocation'.symm.trans hlocation))
  subst htree heq
  rw [hruntime] at hnames
  refine ⟨c, entry, code, lower_node, hcompile, hentry, hsite, ?_, hreads, ?_, ?_, ?_⟩
  · rw [hruntime, hrender]
  · exact ((hnames code "Node" hrender).1 hreads).resolve_left (by decide)
  · rw [Module.Encloses, marks_node]
    decide
  · rw [Module.EndsBefore, marks_node]
    decide

end Typeward
