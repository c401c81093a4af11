import Typeward.Failure
import Typeward.Scope.Collect
import Typeward.Source.Parser

/-!
# Hints

Reads annotations as static types. A string stands for the expression written in it; all of
the resulting type then lies where the string does.
-/

namespace Typeward

open Source

/-- The length of the longest text in an expression. -/
def Expr.textSize (e : Expr) : Nat :=
  let own :=
    match e with
    | .constant _ (.text s) _ => s.length
    | _ => 0
  (e.collectChildren fun c _ => [c.textSize]).foldl max own
termination_by sizeOf e

/-- A running maximum is at least its start and at least each number that it takes in. -/
theorem le_foldl_max (l : List Nat) (n : Nat) :
    n ≤ l.foldl max n ∧ ∀ k ∈ l, k ≤ l.foldl max n := by
  induction l generalizing n with
  | nil => simp
  | cons a rest ih =>
    have h := ih (max n a)
    refine ⟨by simp only [List.foldl_cons]; omega, fun k hk => ?_⟩
    rcases List.mem_cons.1 hk with rfl | hk
    · simp only [List.foldl_cons]
      omega
    · exact h.2 k hk

/-- No part of an expression holds a longer text. -/
theorem Expr.textSize_le_of_mem_children {e c : Expr} (h : c ∈ e.children) :
    c.textSize ≤ e.textSize := by
  rw [textSize.eq_def e]
  refine (le_foldl_max _ _).2 _ ?_
  simp only [Expr.collectChildren, List.mem_flatMap, List.mem_attach, List.mem_singleton, true_and,
    Subtype.exists]
  exact ⟨c, h, rfl⟩

/-- An expression is below another one if the texts in it are shorter, or else if it is smaller.
This is what the reading goes down along: quoted expressions have shorter texts than the text that
they are quoted in. -/
def Expr.IsBelow (c e : Expr) : Prop :=
  Prod.Lex (· < ·) (· < ·) (c.textSize, sizeOf c) (e.textSize, sizeOf e)

/-- The parts of an expression are below it. -/
theorem Expr.isBelow_of_mem_children {e c : Expr} (h : c ∈ e.children) : c.IsBelow e := by
  rcases Nat.lt_or_eq_of_le (textSize_le_of_mem_children h) with hlt | heq
  · exact .left _ _ hlt
  · unfold IsBelow
    rw [heq]
    exact .right _ (sizeOf_lt_of_mem_children h)

/-- What is below a part of an expression is below the expression. -/
theorem Expr.IsBelow.trans {a b c : Expr} (h₁ : a.IsBelow b) (h₂ : b.IsBelow c) : a.IsBelow c := by
  unfold IsBelow at *
  simp only [Prod.lex_def] at *
  omega

/-- The expressions between the brackets of a subscript. -/
def subscriptArguments : Expr → List Expr
  | .display _ .tuple elements => elements
  | e => [e]

/-- The elements of a display are below it. -/
theorem Expr.isBelow_of_mem_elements {pos : Pos} {kind : DisplayKind} {elements : List Expr}
    {a : Expr} (h : a ∈ elements) : a.IsBelow (.display pos kind elements) :=
  isBelow_of_mem_children ((listSlots_expr elements).symm ▸ h : a ∈ Slots.listSlots elements)

/-- What stands between the brackets of a subscript is below it. -/
theorem isBelow_of_mem_arguments {pos : Pos} {base index a : Expr}
    (h : a ∈ subscriptArguments index) : a.IsBelow (.subscript pos base index) := by
  have hindex : index.IsBelow (.subscript pos base index) :=
    Expr.isBelow_of_mem_children (by simp [Expr.children, Slots.slots])
  unfold subscriptArguments at h
  split at h
  · exact (Expr.isBelow_of_mem_elements h).trans hindex
  · rwa [List.mem_singleton.1 h]

/-- Reads the expression in a quoted hint. A literal is shorter than the text it is written in, so
the test never fails; it bounds how deep quotes can nest. -/
@[irreducible] def readQuoted (text : String) :
    Except ReadFailure { e : Expr // e.textSize < text.length } :=
  match parseExpression (Text.trim text) with
  | .error failure => .error failure
  | .ok e =>
    if h : e.textSize < text.length then .ok ⟨e, h⟩
    else .error (.malformed ⟨1, 1, text, "literal is too long"⟩)

/-- The primitive types by the names that they go by without arguments. -/
def primitiveNames : List (String × String) :=
  [("int", "int"), ("float", "float"), ("complex", "complex"), ("str", "str"), ("bytes", "bytes"),
    ("bool", "bool"), ("object", "object"), ("Any", "any"), ("NoneType", "none"),
    ("Callable", "function"), ("dict", "dict"), ("Dict", "dict"), ("Mapping", "dict"),
    ("MutableMapping", "dict")]

/-- The kinds of containers by the names that they go by. -/
def arrayContainers : List (String × String) :=
  [("list", "list"), ("List", "list"), ("Sequence", "sequence"), ("MutableSequence", "sequence"),
    ("set", "set"), ("Set", "set"), ("frozenset", "set"), ("FrozenSet", "set"),
    ("AbstractSet", "set"), ("MutableSet", "set")]

/-- The names of dictionary types. -/
def dictNames : List String := ["dict", "Dict", "Mapping", "MutableMapping"]

/-- The names of tuple types. -/
def tupleNames : List String := ["tuple", "Tuple"]

/-- What hints are read against: the scope of the module, its file, and the place of the string that
the hint is quoted in, if it is. -/
structure HintContext where
  scope : Scope
  file : String
  anchor : Option Pos := none

namespace HintContext

/-- The place of a node. -/
def location (c : HintContext) (pos : Pos) : Location := locationOf c.file (c.anchor.getD pos)

/-- An expression as source. -/
def text (e : Expr) : Except Failure String := (printExpr false .test e).mapError .ofPrint

/-- A fault about a construct, in words of its own. -/
def unsupported {α : Type} (c : HintContext) (e : Expr) (construct : String) : Except Failure α :=
  .error (.fault ⟨.unsupported construct, some (c.location e.pos), none⟩)

/-- A fault about an expression, which is shown. -/
def refuse {α : Type} (c : HintContext) (e : Expr) : Except Failure α := do
  c.unsupported e ("'" ++ (← text e) ++ "'")

/-- A wrong number of arguments. -/
def expected {α : Type} (c : HintContext) (e : Expr) (count : Nat) : Except Failure α := do
  c.unsupported e ("'" ++ (← text e) ++ "' (expected " ++ toString count ++ " type argument(s))")

/-- A name or an attribute as a type. -/
def denoteName (c : HintContext) (e : Expr) : Except Failure StaticType :=
  let location := some (c.location e.pos)
  match c.scope.canonical e with
  | some special =>
    match primitiveNames.lookup special, arrayContainers.lookup special with
    | some primitive, _ => .ok (.primitive primitive location)
    | none, some container => .ok (.array (.primitive "any" location) container location)
    | none, none =>
      if tupleNames.contains special then .ok (.tuple [.primitive "any" location] true location)
      else c.refuse e
  | none =>
    match e.dotted? with
    | none => c.refuse e
    | some name =>
      if c.scope.generics.contains name then .ok (.generic name location)
      else if c.scope.isTypeOnly name then .ok (.primitive "any" location)
      else .ok (.reference name [] location)

/-- A value in a literal type. -/
def denoteLiteral (c : HintContext) (e : Expr) : Except Failure StaticType := do
  let location := some (c.location e.pos)
  let refused : Except Failure StaticType := do
    c.unsupported e ("literal value '" ++ (← text e) ++ "'")
  match e with
  | .constant _ value _ =>
    match value with
    | .none => return .primitive "none" location
    | .bool _ | .int _ | .text _ | .surrogates _ | .bytes _ => return .literal value location
    | .float _ | .complex .. | .ellipsis => refused
  | .unary _ .minus (.constant _ (.int n) _) => return .literal (.int (-n)) location
  | .unary _ .minus (.constant _ (.bool b) _) =>
    return .literal (.int (if b then -1 else 0)) location
  | _ => refused

/-- Whether an expression is a marker of a refinement. -/
def isMarker (c : HintContext) : Expr → Bool
  | .subscript _ base _ => c.scope.canonical base == some "Refinement"
  | _ => false

/-- A marker of a refinement; `whole` is the subscript and `index` what stands in its brackets. -/
def denoteMarker (c : HintContext) (whole index : Expr) : Except Failure StaticType :=
  match index.dotted? with
  | some predicate => .ok (.marker predicate (some (c.location whole.pos)))
  | none => do c.unsupported whole ("refinement predicate '" ++ (← text index) ++ "'")

/-- The markers among the arguments behind an annotated type. -/
def denoteMarkers (c : HintContext) (arguments : List Expr) :
    Except Failure (List StaticType) :=
  (arguments.filter c.isMarker).mapM fun a =>
    match a with
    | .subscript _ _ index => c.denoteMarker a index
    | _ => c.refuse a

/-- The fault of a quoted hint that does not parse. -/
def unreadable (c : HintContext) (pos : Pos) (text : String) : ReadFailure → Failure
  | .nullCharacter => .nullCharacter
  | .malformed m =>
    .fault ⟨.malformedReference (Text.quoted text) m.reason, some (c.location pos), none⟩

/-- How the type of a hint is found. -/
inductive Form where
  /-- Without looking at other hints. -/
  | done (result : Except Failure StaticType)
  /-- As the hint that is quoted. -/
  | quoted (pos : Pos) (text : String)
  /-- From the types of other hints, which are found in order. -/
  | composed (parts : List Expr) (finish : List StaticType → Except Failure StaticType)

/-- A type made of exactly one other. -/
def ofOne (c : HintContext) (e : Expr) (make : StaticType → StaticType) :
    List StaticType → Except Failure StaticType
  | [t] => .ok (make t)
  | _ => c.expected e 1

/-- A type made of exactly two others. -/
def ofTwo (c : HintContext) (e : Expr) (make : StaticType → StaticType → StaticType) :
    List StaticType → Except Failure StaticType
  | [t, u] => .ok (make t u)
  | _ => c.expected e 2

/-- A function type: the result is read before the parameters. -/
def callableForm (c : HintContext) (e params result : Expr) : Form :=
  let location := some (c.location e.pos)
  match params with
  | .constant _ .ellipsis _ => .composed [result] (c.ofOne e (.function none · location))
  | .display _ .list elements =>
    .composed (result :: elements) fun types =>
      match types with
      | result :: params => .ok (.function (some params) result location)
      | [] => c.expected e 2
  | _ =>
    if params.dotted?.any c.scope.generics.contains then
      .composed [result] (c.ofOne e (.function none · location))
    else .composed [result] fun _ => c.refuse e

/-- A tuple type: of no elements, of elements of one type, or of given elements. -/
def tupleForm (c : HintContext) (e : Expr) (arguments : List Expr) : Form :=
  let location := some (c.location e.pos)
  match arguments with
  | [.display _ .tuple []] => .done (.ok (.tuple [] false location))
  | [a, .constant _ .ellipsis _] => .composed [a] (c.ofOne e fun t => .tuple [t] true location)
  | _ => .composed arguments fun types => .ok (.tuple types false location)

/-- An annotated type: the markers behind it refine it. -/
def annotatedForm (c : HintContext) (e : Expr) (arguments : List Expr) : Form :=
  match arguments with
  | [] => .done (.error .nothingAnnotated)
  | a :: rest =>
    .composed [a] fun types => do
      match types, ← c.denoteMarkers rest with
      | [base], [] => return base
      | _, markers => return .intersection (types ++ markers) (some (c.location e.pos))

/-- A literal type of one value or several. -/
def literalForm (c : HintContext) (e : Expr) (arguments : List Expr) : Form :=
  .done do
    match ← arguments.mapM c.denoteLiteral with
    | [only] => return only
    | values => return .union values (some (c.location e.pos))

/-- A special form with arguments in brackets. -/
def specialForm (c : HintContext) (e : Expr) (special : String) (index : Expr) : Form :=
  let location := some (c.location e.pos)
  let arguments := subscriptArguments index
  let counted (count : Nat) (form : Form) : Form :=
    if arguments.length = count then form else .done (c.expected e count)
  if special = "Optional" then
    counted 1 (.composed arguments (c.ofOne e (.nullable · location)))
  else if special = "Union" then .composed arguments fun types => .ok (.union types location)
  else if let some container := arrayContainers.lookup special then
    counted 1 (.composed arguments (c.ofOne e (.array · container location)))
  else if dictNames.contains special then
    counted 2 (.composed arguments (c.ofTwo e (.dict · · location)))
  else if tupleNames.contains special then c.tupleForm e arguments
  else if special = "Callable" then
    match arguments with
    | [params, result] => c.callableForm e params result
    | _ => .done (c.expected e 2)
  else if special = "Literal" then c.literalForm e arguments
  else if special = "Annotated" then c.annotatedForm e arguments
  else if special = "Intersection" then
    .composed arguments fun types => .ok (.intersection types location)
  else if special = "Refinement" then .done (c.denoteMarker e index)
  else .done (c.refuse e)

/-- A name with arguments in brackets. -/
def genericForm (c : HintContext) (e base index : Expr) : Form :=
  let location := some (c.location e.pos)
  match base.dotted? with
  | none => .done (c.refuse e)
  | some name =>
    if c.scope.isTypeOnly name then .done (.ok (.primitive "any" location))
    else .composed (subscriptArguments index) fun types => .ok (.reference name types location)

/-- How the type of a hint is found. -/
@[irreducible] def form (c : HintContext) (e : Expr) : Form :=
  let location := some (c.location e.pos)
  match e with
  | .constant _ .none _ => .done (.ok (.primitive "none" location))
  | .constant pos (.text text) _ => .quoted pos text
  | .constant _ (.surrogates _) _ => .done (.error .surrogateText)
  | .binary _ left .bitOr right =>
    .composed [left, right] fun types => .ok (.union types location)
  | .name .. | .attribute .. => .done (c.denoteName e)
  | .subscript _ base index =>
    match c.scope.canonical base with
    | none => c.genericForm e base index
    | some special => c.specialForm e special index
  | _ => .done (c.refuse e)

/-- All parts of a form satisfy a condition. -/
def Form.AllParts (P : Expr → Prop) : Form → Prop
  | .composed parts _ => ∀ a ∈ parts, P a
  | _ => True

/-- The parts of a tuple type are among its arguments. -/
theorem allParts_tupleForm {P : Expr → Prop} (c : HintContext) (e : Expr) {arguments : List Expr}
    (h : ∀ a ∈ arguments, P a) : (c.tupleForm e arguments).AllParts P := by
  unfold tupleForm
  split
  · trivial
  · exact fun a ha => h a (by simp_all)
  · exact h

/-- The parts of an annotated type are among its arguments. -/
theorem allParts_annotatedForm {P : Expr → Prop} (c : HintContext) (e : Expr)
    {arguments : List Expr} (h : ∀ a ∈ arguments, P a) :
    (c.annotatedForm e arguments).AllParts P := by
  unfold annotatedForm
  split
  · trivial
  · exact fun a ha => h a (by simp_all)

/-- The parts of a function type are its result and the members of its parameter list. -/
theorem allParts_callableForm {P : Expr → Prop} (c : HintContext) (e : Expr) {params result : Expr}
    (hresult : P result) (hparams : ∀ pos elements, params = .display pos .list elements →
      ∀ p ∈ elements, P p) : (c.callableForm e params result).AllParts P := by
  unfold callableForm
  dsimp only
  split
  · exact fun a ha => by simp_all
  · rename_i pos elements
    intro a ha
    rcases List.mem_cons.1 ha with rfl | ha
    · exact hresult
    · exact hparams pos elements rfl a ha
  · split <;> exact fun a ha => by simp_all

/-- The parts of a subscript with a meaning of its own are below it. -/
theorem allParts_specialForm (c : HintContext) {pos : Pos} {base index : Expr} (special : String) :
    (c.specialForm (.subscript pos base index) special index).AllParts
      (·.IsBelow (.subscript pos base index)) := by
  have h : ∀ a ∈ subscriptArguments index, a.IsBelow (.subscript pos base index) :=
    fun _ => isBelow_of_mem_arguments
  unfold specialForm
  dsimp only
  repeat' split
  all_goals first
    | exact h
    | exact c.allParts_tupleForm _ h
    | exact c.allParts_annotatedForm _ h
    | trivial
    | skip
  rename_i params result heq
  rw [heq] at h
  refine c.allParts_callableForm _ (h _ (by simp)) fun p elements hp a ha => ?_
  subst hp
  exact (Expr.isBelow_of_mem_elements ha).trans (h _ List.mem_cons_self)

/-- The parts of a hint are below it. -/
theorem allParts_form (c : HintContext) (e : Expr) : (c.form e).AllParts (·.IsBelow e) := by
  unfold form
  dsimp only
  split
  · trivial
  · trivial
  · trivial
  · intro a ha
    refine Expr.isBelow_of_mem_children ?_
    simpa [Expr.children, Slots.slots] using ha
  · trivial
  · trivial
  · split
    · unfold genericForm
      dsimp only
      repeat' split
      · trivial
      · trivial
      · exact fun _ => isBelow_of_mem_arguments
    · exact c.allParts_specialForm _
  · trivial

/-- A quoted hint is no longer than the longest text in it. -/
theorem length_le_of_form_quoted {c : HintContext} {e : Expr} {pos : Pos} {text : String}
    (h : c.form e = .quoted pos text) : text.length ≤ e.textSize := by
  have : ∃ marked, e = .constant pos (.text text) marked := by
    have hspecial (special : String) (index : Expr) :
        c.specialForm e special index ≠ .quoted pos text := by
      unfold specialForm tupleForm callableForm literalForm annotatedForm
      dsimp only
      repeat' split
      all_goals simp
    unfold form genericForm at h
    dsimp only at h
    repeat' split at h
    all_goals first
      | (cases h; exact ⟨_, rfl⟩)
      | exact absurd h (by simp)
      | exact absurd h (hspecial _ _)
  obtain ⟨marked, rfl⟩ := this
  rw [Expr.textSize.eq_def]
  exact (le_foldl_max _ _).1

/-- The type that a hint denotes. -/
def denote (c : HintContext) (e : Expr) : Except Failure StaticType :=
  match h : c.form e with
  | .done result => result
  | .quoted pos text =>
    match readQuoted text with
    | .error failure => .error (c.unreadable pos text failure)
    | .ok ⟨inner, _⟩ =>
      have := length_le_of_form_quoted h
      denote { c with anchor := some (c.anchor.getD pos) } inner
  | .composed parts finish => do
    finish (← parts.attach.mapM fun a => denote c a.1)
termination_by (e.textSize, sizeOf e)
decreasing_by
  · exact .left _ _ (by omega)
  · have hparts := c.allParts_form e
    rw [h] at hparts
    exact hparts a.1 a.2

end HintContext

end Typeward
