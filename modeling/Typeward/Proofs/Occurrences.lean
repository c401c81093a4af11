import Typeward.Scope.Collect

/-!
# Occurrences of names in a module

Where a name occurs in the tree of a module: it is read or bound by an expression, or it is the name
of a definition, a parameter, an import, a handled exception or a captured part of a subject. A name
is bound where it is a target of an assignment, or occurs in one of the other ways.
-/

namespace Typeward

open Slots

/-- What callers of a function see of its parameters, without their initial values. -/
def Parameters.signature (ps : Parameters Expr) :
    List (ParameterKind × String × Option Expr) :=
  ps.toList.map fun q => (q.1, q.2.name, q.2.hint)

/-- The names of parameters. -/
def Parameters.names (ps : Parameters Expr) : List String := ps.signature.map (·.2.1)

/-- The initial values of parameters. -/
def Parameters.initials (ps : Parameters Expr) : List Expr := ps.toList.filterMap (·.2.initial)

/-- The names that stand in the node of an expression itself: a name that is read or bound, and the
parameters of a function without a name. -/
def Expr.own : Expr → List String
  | .name _ id => [id]
  | .lambda _ params _ => params.names
  | _ => []

/-- A name stands somewhere in an expression. -/
inductive Expr.Mentions (x : String) : Expr → Prop
  | own {e} (h : x ∈ e.own) : Mentions x e
  | part {e c} (hc : c ∈ e.children) (h : Mentions x c) : Mentions x e

/-- An expression on the left side of an assignment binds a name. -/
inductive Expr.Targets (x : String) : Expr → Prop
  | name {pos} : Targets x (.name pos x)
  | element {pos kind elements e} (he : e ∈ elements) (h : Targets x e) :
      Targets x (.display pos kind elements)
  | starred {pos value} (h : Targets x value) : Targets x (.starred pos value)

/-- An expression binds a name while it is evaluated. -/
inductive Expr.Binds (x : String) : Expr → Prop
  | walrus {pos target value} (h : target.Targets x) : Binds x (.walrus pos target value)
  | parameter {pos params body} (h : x ∈ params.names) : Binds x (.lambda pos params body)
  | clause {pos kind element clauses c} (hc : c ∈ clauses) (h : c.target.Targets x) :
      Binds x (.comprehension pos kind element clauses)
  | dictClause {pos key value clauses c} (hc : c ∈ clauses) (h : c.target.Targets x) :
      Binds x (.dictComprehension pos key value clauses)
  | part {e c} (hc : c ∈ e.children) (h : Binds x c) : Binds x e

/-- A pattern gives a name to a part of the subject. -/
inductive Pattern.Captures (x : String) : Pattern → Prop
  | item {pos items p} (hp : p ∈ items) (h : Captures x p) : Captures x (.sequence pos items)
  | alternative {pos items p} (hp : p ∈ items) (h : Captures x p) :
      Captures x (.alternatives pos items)
  | entry {pos keys items rest p} (hp : p ∈ items) (h : Captures x p) :
      Captures x (.mapping pos keys items rest)
  | rest {pos keys items} : Captures x (.mapping pos keys items (some x))
  | argument {pos cls items names named p} (hp : p ∈ items) (h : Captures x p) :
      Captures x (.ofClass pos cls items names named)
  | keyword {pos cls items names named p} (hp : p ∈ named) (h : Captures x p) :
      Captures x (.ofClass pos cls items names named)
  | star {pos} : Captures x (.star pos (some x))
  | whole {pos inner} : Captures x (.capture pos inner (some x))
  | inner {pos p name} (h : Captures x p) : Captures x (.capture pos (some p) name)

/-- The local names that a simple statement imports; those of a star import are not known. -/
def Simple.imported : Simple → List String
  | .importModules names => names.map fun i => i.asName.getD (Registry.rootOf i.name)
  | .importNames _ names _ =>
    (names.filter (·.name ≠ "*")).map fun i => i.asName.getD i.name
  | _ => []

/-- The left sides of a simple statement. -/
def Simple.targets : Simple → List Expr
  | .assign targets .. | .delete targets => targets
  | .augmented target .. | .annotated target .. => [target]
  | _ => []

/-- The left sides in the header of a clause. -/
def ClauseHead.targets : ClauseHead → List Expr
  | .forLoop _ target _ => [target]
  | .withItems _ items => items.filterMap (·.target)
  | _ => []

/-- The header of a clause gives a name to an exception or to a part of a subject. -/
inductive ClauseHead.Captures (x : String) : ClauseHead → Prop
  | handler {isGroup kind} : Captures x (.handler isGroup kind (some x))
  | pattern {p guard} (h : p.Captures x) : Captures x (.caseOf p guard)

/-- The expressions in the header of a function. -/
def FunctionHead.expressions (f : FunctionHead) : List Expr :=
  f.decorators ++ f.params.signature.filterMap (·.2.2) ++ f.params.initials ++ f.returns.toList

/-- The expressions in the header of a class. -/
def ClassHead.expressions (c : ClassHead) : List Expr :=
  c.bases ++ c.keywords.map (·.value) ++ c.decorators

/-- A name stands somewhere in a statement: in one of its expressions, as far as `E` finds it, on a
left side, as far as `T` finds it, or in one of the other ways in which statements name things. -/
inductive Stmt.Names (E T : Expr → Prop) (x : String) : Stmt → Prop
  | expression {pos t e} (he : e ∈ slots t) (h : E e) : Names E T x (.simple pos t)
  | target {pos t e} (he : e ∈ t.targets) (h : T e) : Names E T x (.simple pos t)
  | imported {pos t} (h : x ∈ t.imported) : Names E T x (.simple pos t)
  | function {pos head body} (h : head.name = x) : Names E T x (.function pos head body)
  | parameter {pos head body} (h : x ∈ head.params.names) : Names E T x (.function pos head body)
  | signature {pos head body e} (he : e ∈ head.expressions) (h : E e) :
      Names E T x (.function pos head body)
  | functionBody {pos head body t} (ht : t ∈ body) (h : Names E T x t) :
      Names E T x (.function pos head body)
  | classDef {pos head body} (h : head.name = x) : Names E T x (.classDef pos head body)
  | base {pos head body e} (he : e ∈ head.expressions) (h : E e) :
      Names E T x (.classDef pos head body)
  | classBody {pos head body t} (ht : t ∈ body) (h : Names E T x t) :
      Names E T x (.classDef pos head body)
  | test {pos test body orelse} (h : E test) : Names E T x (.branch pos test body orelse)
  | body {pos test body orelse t} (ht : t ∈ body) (h : Names E T x t) :
      Names E T x (.branch pos test body orelse)
  | orelse {pos test body orelse t} (ht : t ∈ orelse) (h : Names E T x t) :
      Names E T x (.branch pos test body orelse)
  | header {pos clauses c e} (hc : c ∈ clauses) (he : e ∈ slots c.head) (h : E e) :
      Names E T x (.compound pos clauses)
  | headerTarget {pos clauses c e} (hc : c ∈ clauses) (he : e ∈ c.head.targets) (h : T e) :
      Names E T x (.compound pos clauses)
  | captured {pos clauses c} (hc : c ∈ clauses) (h : c.head.Captures x) :
      Names E T x (.compound pos clauses)
  | clauseBody {pos clauses c t} (hc : c ∈ clauses) (ht : t ∈ c.body) (h : Names E T x t) :
      Names E T x (.compound pos clauses)

/-- A name is read or bound somewhere in a statement. -/
abbrev Stmt.Mentions (x : String) : Stmt → Prop := Stmt.Names (Expr.Mentions x) (fun _ => False) x

/-- A name is bound somewhere in a statement. -/
abbrev Stmt.Binds (x : String) : Stmt → Prop := Stmt.Names (Expr.Binds x) (Expr.Targets x) x

/-- A name is read or bound somewhere in a module. -/
def Module.Mentions (x : String) (m : Module) : Prop := ∃ t ∈ m, t.Mentions x

/-- A name is bound somewhere in a module. -/
def Module.Binds (x : String) (m : Module) : Prop := ∃ t ∈ m, t.Binds x

/-- A list of expressions holds its members. -/
theorem mem_slots_list {es : List Expr} {e : Expr} : e ∈ slots es ↔ e ∈ es := by
  rw [show slots es = es from listSlots_expr es]

/-- Keyword arguments hold their values. -/
theorem mem_slots_keywords {keywords : List (Keyword Expr)} {e : Expr} :
    e ∈ slots keywords ↔ ∃ k ∈ keywords, e = k.value := by
  have hslots : listSlots keywords = keywords.map (·.value) := by
    induction keywords with
    | nil => rfl
    | cons k rest ih => exact congrArg (k.value :: ·) ih
  rw [show slots keywords = keywords.map (·.value) from hslots]
  simp [eq_comm]

/-- What may be absent holds an expression if it is there and is the expression. -/
theorem mem_slots_option {o : Option Expr} {e : Expr} : e ∈ slots o ↔ o = some e := by
  cases o with
  | none => exact iff_of_false List.not_mem_nil nofun
  | some a =>
    have hslots : slots (some a) = [a] := rfl
    rw [hslots, List.mem_singleton, Option.some.injEq]
    exact eq_comm

/-- Parameters hold their initial values. -/
theorem mem_slots_parameters {ps : List (Parameter Expr)} {e : Expr} :
    e ∈ slots ps ↔ ∃ p ∈ ps, p.initial = some e := by
  induction ps with
  | nil => exact iff_of_false List.not_mem_nil (by simp)
  | cons p rest ih =>
    have hcons : slots (p :: rest) = slots p.initial ++ slots rest := rfl
    rw [hcons, List.mem_append, ih, mem_slots_option]
    simp

/-- The initial values of parameters are those of the parameters in its parts. -/
theorem mem_initials {ps : Parameters Expr} {e : Expr} :
    e ∈ ps.initials ↔ e ∈ slots ps.positionalOnly ∨ e ∈ slots ps.positional ∨
      ps.variadic.bind (·.initial) = some e ∨ e ∈ slots ps.keywordOnly ∨
        ps.keywordVariadic.bind (·.initial) = some e := by
  have htagged (kind : ParameterKind) (qs : List (Parameter Expr)) :
      (qs.map (Prod.mk kind)).filterMap (·.2.initial) = qs.filterMap (·.initial) := by
    rw [List.filterMap_map]
    rfl
  have hoptional (o : Option (Parameter Expr)) :
      e ∈ o.toList.filterMap (·.initial) ↔ o.bind (·.initial) = some e := by
    cases o <;> simp
  unfold Parameters.initials Parameters.toList
  simp only [List.filterMap_append, htagged, List.mem_append, hoptional, or_assoc]
  simp only [mem_slots_parameters, List.mem_filterMap]

/-- The expressions in the header of a function are its decorators, its hints, and its initial
values. -/
theorem FunctionHead.mem_expressions {f : FunctionHead} {e : Expr} :
    e ∈ f.expressions ↔ e ∈ slots f.decorators ∨ e ∈ f.params.signature.filterMap (·.2.2) ∨
      e ∈ f.params.initials ∨ f.returns = some e := by
  unfold expressions
  simp only [List.mem_append, Option.mem_toList, mem_slots_list, or_assoc]

/-- The expressions in the header of a class are its bases, its keywords and its decorators. -/
theorem ClassHead.mem_expressions {c : ClassHead} {e : Expr} :
    e ∈ c.expressions ↔ e ∈ slots c.bases ∨ e ∈ slots c.keywords ∨ e ∈ slots c.decorators := by
  unfold expressions
  simp only [List.mem_append, List.mem_map, mem_slots_list, mem_slots_keywords, or_assoc, eq_comm]

/-- Other initial values leave what callers see of parameters. -/
theorem map_refill_parameters (ps : List (Parameter Expr)) (es : List Expr) :
    (refill ps es).map (fun p => (p.name, p.hint)) = ps.map fun p => (p.name, p.hint) := by
  change (listRefill ps es).map _ = _
  induction ps generalizing es with
  | nil => rfl
  | cons p rest ih => exact congrArg ((p.name, p.hint) :: ·) (ih _)

/-- Parameters that callers see alike have one signature. -/
theorem signature_congr {ps ps' : Parameters Expr}
    (hpositionalOnly : ps'.positionalOnly.map (fun p => (p.name, p.hint)) =
      ps.positionalOnly.map fun p => (p.name, p.hint))
    (hpositional : ps'.positional.map (fun p => (p.name, p.hint)) =
      ps.positional.map fun p => (p.name, p.hint))
    (hvariadic : ps'.variadic = ps.variadic)
    (hkeywordOnly : ps'.keywordOnly.map (fun p => (p.name, p.hint)) =
      ps.keywordOnly.map fun p => (p.name, p.hint))
    (hkeywordVariadic : ps'.keywordVariadic = ps.keywordVariadic) :
    ps'.signature = ps.signature := by
  have htagged (kind : ParameterKind) {qs qs' : List (Parameter Expr)}
      (h : qs'.map (fun p => (p.name, p.hint)) = qs.map fun p => (p.name, p.hint)) :
      qs'.map (fun p => (kind, p.name, p.hint)) = qs.map fun p => (kind, p.name, p.hint) := by
    simpa [Function.comp_def] using congrArg (List.map (Prod.mk kind)) h
  simp only [Parameters.signature, Parameters.toList, List.map_append, List.map_map,
    Function.comp_def]
  rw [htagged .positionalOnly hpositionalOnly, htagged .positional hpositional,
    htagged .keywordOnly hkeywordOnly, hvariadic, hkeywordVariadic]

/-- Other initial values leave the signature. -/
theorem signature_refill (ps : Parameters Expr) (es : List Expr) :
    (refill ps es).signature = ps.signature :=
  signature_congr (map_refill_parameters _ _) (map_refill_parameters _ _) rfl
    (map_refill_parameters _ _) rfl

namespace Expr

variable {x : String}

/-- With other parts, the same names stand in the node of an expression. -/
theorem own_withChildren (e : Expr) (es : List Expr) : (e.withChildren es).own = e.own := by
  cases e with
  | lambda pos params body => exact congrArg (List.map (·.2.1)) (signature_refill params _)
  | _ => rfl

/-- A name stands in an expression if it stands in its node or in one of its parts. -/
theorem mentions_iff {e : Expr} :
    e.Mentions x ↔ x ∈ e.own ∨ ∃ c ∈ e.children, c.Mentions x :=
  ⟨fun | .own h => .inl h | .part hc h => .inr ⟨_, hc, h⟩,
    fun | .inl h => .own h | .inr ⟨_, hc, h⟩ => .part hc h⟩

/-- A target stands in the node or is a part that is a target. -/
theorem Targets.own_or_part {e : Expr} (h : e.Targets x) :
    x ∈ e.own ∨ ∃ c ∈ e.children, c.Targets x := by
  cases h with
  | name => exact .inl (List.mem_singleton_self x)
  | @element pos kind elements c hc h =>
    have hpart : c ∈ listSlots elements := (listSlots_expr elements).symm ▸ hc
    exact .inr ⟨c, hpart, h⟩
  | @starred pos value h => exact .inr ⟨value, List.mem_singleton_self value, h⟩

/-- The left side of a clause of a comprehension is among the expressions of the clauses. -/
theorem target_mem_listSlots {clauses : List (ForClause Expr)} {c : ForClause Expr}
    (hc : c ∈ clauses) : c.target ∈ listSlots clauses := by
  induction clauses with
  | nil => simp at hc
  | cons d rest ih =>
    rcases List.mem_cons.1 hc with rfl | hc
    · exact List.mem_append_left _ (List.mem_append_left _ (List.mem_singleton_self _))
    · exact List.mem_append_right _ (ih hc)

/-- A name that is bound stands in the node, or a part binds it or is a target. -/
theorem Binds.own_or_part {e : Expr} (h : e.Binds x) :
    x ∈ e.own ∨ ∃ c ∈ e.children, c.Targets x ∨ c.Binds x := by
  cases h with
  | @walrus pos target value h =>
    exact .inr ⟨target, List.mem_append_left _ (List.mem_singleton_self _), .inl h⟩
  | parameter h => exact .inl h
  | @clause pos kind element clauses c hc h =>
    exact .inr ⟨c.target, List.mem_append_right _ (target_mem_listSlots hc), .inl h⟩
  | @dictClause pos key value clauses c hc h =>
    have hpart := List.mem_append_right (slots value) (target_mem_listSlots hc)
    exact .inr ⟨c.target, List.mem_append_right _ hpart, .inl h⟩
  | part hc h => exact .inr ⟨_, hc, .inr h⟩

/-- A target mentions the names that it binds. -/
theorem Targets.mentions {e : Expr} (h : e.Targets x) : e.Mentions x := by
  induction h with
  | name => exact .own (List.mem_singleton_self x)
  | @element pos kind elements c hc h ih =>
    exact .part ((listSlots_expr elements).symm ▸ hc : c ∈ listSlots elements) ih
  | @starred pos value h ih => exact .part (List.mem_singleton_self value) ih

/-- An expression mentions the names that it binds. -/
theorem Binds.mentions {e : Expr} (h : e.Binds x) : e.Mentions x := by
  induction h with
  | part hc h ih => exact .part hc ih
  | @walrus pos target value h =>
    exact .part (List.mem_append_left _ (List.mem_singleton_self _)) h.mentions
  | parameter h => exact .own h
  | @clause pos kind element clauses c hc h =>
    exact .part (List.mem_append_right _ (target_mem_listSlots hc)) h.mentions
  | @dictClause pos key value clauses c hc h =>
    have hpart := List.mem_append_right (slots value) (target_mem_listSlots hc)
    exact .part (List.mem_append_right _ hpart) h.mentions

/-- The names of an expression are those in its node and those of its parts. -/
theorem names_eq (e : Expr) : e.names = e.own ++ e.collectChildren fun c _ => c.names := by
  rw [names.eq_def]
  cases e <;> simp [own, Parameters.names, Parameters.signature, Function.comp_def]

/-- A name that stands in an expression is among its names. -/
theorem Mentions.mem_names {e : Expr} (h : e.Mentions x) : x ∈ e.names := by
  induction h with
  | own h =>
    rw [names_eq]
    exact List.mem_append_left _ h
  | @part e c hc h ih =>
    rw [names_eq]
    refine List.mem_append_right _ ?_
    simp only [collectChildren, List.mem_flatMap, List.mem_attach, true_and, Subtype.exists]
    exact ⟨c, hc, ih⟩

end Expr

namespace Pattern

variable {x : String}

/-- The names that several patterns bind are those that each of them binds. -/
theorem mem_listBound {ps : List Pattern} : x ∈ listBound ps ↔ ∃ p ∈ ps, x ∈ p.bound := by
  induction ps with
  | nil => simp [listBound]
  | cons p rest ih => simp [listBound, ih]

/-- The names that a pattern gives to parts of the subject are those that it binds. -/
theorem Captures.mem_bound {p : Pattern} (h : p.Captures x) : x ∈ p.bound := by
  induction h with
  | item hp h ih => exact mem_listBound.2 ⟨_, hp, ih⟩
  | alternative hp h ih => exact mem_listBound.2 ⟨_, hp, ih⟩
  | entry hp h ih => exact List.mem_append_left _ (mem_listBound.2 ⟨_, hp, ih⟩)
  | rest => exact List.mem_append_right _ (List.mem_singleton_self x)
  | argument hp h ih => exact List.mem_append_left _ (mem_listBound.2 ⟨_, hp, ih⟩)
  | keyword hp h ih => exact List.mem_append_right _ (mem_listBound.2 ⟨_, hp, ih⟩)
  | star => exact List.mem_singleton_self x
  | whole => exact List.mem_append_right _ (List.mem_singleton_self x)
  | inner h ih => exact List.mem_append_left _ ih

mutual

/-- With other expressions a pattern gives no other names. -/
theorem captures_of_withParts : (p : Pattern) → (es : List Expr) →
    (p.withParts es).Captures x → p.Captures x
  | .value .., es, h => by cases h
  | .singleton .., es, h => by cases h
  | .star .., es, h => h
  | .sequence pos items, es, h => by
    cases h with
    | item hp h =>
      obtain ⟨q, hq, h⟩ := captures_of_listWithParts items _ ⟨_, hp, h⟩
      exact .item hq h
  | .alternatives pos items, es, h => by
    cases h with
    | alternative hp h =>
      obtain ⟨q, hq, h⟩ := captures_of_listWithParts items _ ⟨_, hp, h⟩
      exact .alternative hq h
  | .mapping pos keys items rest, es, h => by
    cases h with
    | entry hp h =>
      obtain ⟨q, hq, h⟩ := captures_of_listWithParts items _ ⟨_, hp, h⟩
      exact .entry hq h
    | rest => exact .rest
  | .ofClass pos cls items names named, es, h => by
    cases h with
    | argument hp h =>
      obtain ⟨q, hq, h⟩ := captures_of_listWithParts items _ ⟨_, hp, h⟩
      exact .argument hq h
    | keyword hp h =>
      obtain ⟨q, hq, h⟩ := captures_of_listWithParts named _ ⟨_, hp, h⟩
      exact .keyword hq h
  | .capture pos inner name, es, h => by
    cases inner with
    | none => exact h
    | some p =>
      generalize hwhole : withParts (.capture pos (some p) name) es = whole at h
      cases h with
      | whole =>
        obtain rfl : name = some x := (Pattern.capture.inj hwhole).2.2
        exact .whole
      | inner h =>
        obtain rfl := Option.some.inj (Pattern.capture.inj hwhole).2.1
        exact .inner (captures_of_withParts p es h)
      | _ => simp [withParts] at hwhole

/-- With other expressions several patterns give no other names. -/
theorem captures_of_listWithParts : (ps : List Pattern) → (es : List Expr) →
    (∃ p ∈ listWithParts ps es, p.Captures x) → ∃ p ∈ ps, p.Captures x
  | [], es, h => by simp [listWithParts] at h
  | p :: rest, es, ⟨q, hq, h⟩ => by
    rcases List.mem_cons.1 hq with rfl | hq
    · exact ⟨p, List.mem_cons_self, captures_of_withParts p _ h⟩
    · obtain ⟨r, hr, h⟩ := captures_of_listWithParts rest _ ⟨q, hq, h⟩
      exact ⟨r, List.mem_cons_of_mem _ hr, h⟩

end

end Pattern

/-- The left sides of a simple statement are among its expressions. -/
theorem Simple.mem_slots_of_targets {t : Simple} {e : Expr} (he : e ∈ t.targets) : e ∈ slots t := by
  cases t with
  | assign targets value decl => exact List.mem_append_left _ (mem_slots_list.2 he)
  | delete targets => exact mem_slots_list.2 he
  | augmented target op value => exact List.mem_append_left _ he
  | annotated target hint value bare decl => exact List.mem_append_left _ he
  | _ => exact absurd he List.not_mem_nil

/-- With other expressions a simple statement imports the same names. -/
theorem Simple.imported_refill (t : Simple) (es : List Expr) :
    (refill t es).imported = t.imported := by
  cases t <;> rfl

/-- The left sides in the header of a clause are among its expressions. -/
theorem ClauseHead.mem_slots_of_targets {head : ClauseHead} {e : Expr} (he : e ∈ head.targets) :
    e ∈ slots head := by
  cases head with
  | forLoop isAsync target source => exact List.mem_append_left _ he
  | withItems isAsync items =>
    have hitems : e ∈ listSlots items := by
      simp only [targets] at he
      induction items with
      | nil => simp at he
      | cons i rest ih =>
        rw [List.filterMap_cons] at he
        cases htarget : i.target with
        | none =>
          rw [htarget] at he
          exact List.mem_append_right _ (ih he)
        | some target =>
          rw [htarget] at he
          rcases List.mem_cons.1 he with rfl | he
          · have hown : e ∈ slots i.context ++ slots i.target :=
              List.mem_append_right _ (mem_slots_option.2 htarget)
            exact List.mem_append_left _ hown
          · exact List.mem_append_right _ (ih he)
    exact hitems
  | _ => exact absurd he List.not_mem_nil

/-- With other expressions the header of a clause gives no other names. -/
theorem ClauseHead.captures_of_refill {x : String} {head : ClauseHead} {es : List Expr}
    (h : (refill head es).Captures x) : head.Captures x := by
  cases head with
  | handler isGroup kind name =>
    cases h with
    | handler => exact .handler
  | caseOf p guard =>
    cases h with
    | pattern h => exact .pattern (Pattern.captures_of_withParts p _ h)
  | _ => cases h

/-- What is bound somewhere in a statement stands in it. -/
theorem Stmt.Binds.mentions {x : String} {t : Stmt} (h : t.Binds x) : t.Mentions x := by
  induction h with
  | expression he h => exact .expression he h.mentions
  | target he h => exact .expression (Simple.mem_slots_of_targets he) h.mentions
  | imported h => exact .imported h
  | function h => exact .function h
  | parameter h => exact .parameter h
  | signature he h => exact .signature he h.mentions
  | functionBody ht h ih => exact .functionBody ht ih
  | classDef h => exact .classDef h
  | base he h => exact .base he h.mentions
  | classBody ht h ih => exact .classBody ht ih
  | test h => exact .test h.mentions
  | body ht h ih => exact .body ht ih
  | orelse ht h ih => exact .orelse ht ih
  | header hc he h => exact .header hc he h.mentions
  | headerTarget hc he h => exact .header hc (ClauseHead.mem_slots_of_targets he) h.mentions
  | captured hc h => exact .captured hc h
  | clauseBody hc ht h ih => exact .clauseBody hc ht ih

/-- What is bound somewhere in a module stands in it. -/
theorem Module.Binds.mentions {x : String} {m : Module} (h : m.Binds x) : m.Mentions x := by
  obtain ⟨t, ht, hx⟩ := h
  exact ⟨t, ht, Stmt.Binds.mentions hx⟩

end Typeward
