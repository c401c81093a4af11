import Typeward.Proofs.FaultPlaces
import Typeward.Proofs.RequotedLowering

/-!
# Quoted annotations

A module with types written in strings lowers like the module without the strings. The types are the
same but for their places: a type that is written in a string lies where the string does. What says
whether a field is required has to stay outside of the strings.
-/

namespace Typeward

open Source HintContext

/-- What a module is lowered with. -/
def LowerContext.ofModule (m : Module) (file : String) (found : List (Nat × String))
    (options : Options) : LowerContext :=
  ⟨⟨Scope.ofModule file m, file, none⟩, found, options.recursiveMarker, 0⟩

/-- The first module is the second one with types written in strings. -/
def Module.Requoted (m m' : Module) (file : String) (found found' : List (Nat × String))
    (options : Options) : Prop :=
  ∃ known, Stmt.AllRequoted (.ofModule m file found options) (.ofModule m' file found' options) []
    m m' known

/-- Modules declare the same but for places and the labels of casts. -/
def Lowered.Same (l l' : Lowered) : Prop :=
  List.Forall₂ Declaration.Same l.declarations l'.declarations

section Modules

variable {m m' : Module} {source source' file : String} {found found' : List (Nat × String)}
  {options : Options}

/-- Modules of which one is the other with types written in strings are lowered against scopes that
are alike. -/
theorem Module.Requoted.alike (h : m.Requoted m' file found found' options) :
    (LowerContext.ofModule m file found options).Alike (.ofModule m' file found' options) := by
  obtain ⟨known, h⟩ := h
  exact ⟨(Scope.Alike.refl {}).collectAll file ⟨0, false⟩ h, rfl⟩

/-- Modules of which one is the other with types written in strings lower alike. -/
theorem agree_lowerTree (h : m.Requoted m' file found found' options) :
    Agree Lowered.Same (lowerTree m file found options) (lowerTree m' file found' options) := by
  have hscope := h.alike
  obtain ⟨known, h⟩ := h
  have hempty : LowerState.Same {} {} := ⟨.nil, .nil⟩
  have hstep := Lower.inStep_lowerAll hscope h hempty rfl
  exact hstep.bind fun p p' hp => .ok hp.2.1.declarations

/-- Modules lower alike if one is the other with types written in strings, whatever the places. All
of the type that a string denotes lies where the string does, in whichever strings the string itself
stands. But a string around what says whether a field is required denotes no type. -/
theorem quoting_changes_nothing (hread : parseModule source = .ok m)
    (hread' : parseModule source' = .ok m') (hfound : comments source = .ok found)
    (hfound' : comments source' = .ok found') (h : m.Requoted m' file found found' options) :
    Agree Lowered.Same (lower source file options) (lower source' file options) ∧
    ∀ (c : HintContext) (pos : Pos) (text : String) (marked : Bool),
      (∀ t u : StaticType, c.denote (.constant pos (.text text) marked) = .ok t → u.StandsIn t →
        u.location = some (c.location pos)) ∧
      ∀ inner, readQuoted text = .ok inner → c.scope.marksField inner.1 = true →
        ∀ t, c.denote (.constant pos (.text text) marked) ≠ .ok t := by
  have hlower {source : String} {m : Module} {found : List (Nat × String)}
      (hread : parseModule source = .ok m) (hfound : comments source = .ok found) :
      lower source file options = lowerTree m file found options := by
    rw [lower, readModule, hread, hfound]
    rfl
  refine ⟨?_, fun c pos text marked => ⟨fun t u ht hu => ?_, fun inner hinner hmarks t => ?_⟩⟩
  · rw [hlower hread hfound, hlower hread' hfound']
    exact agree_lowerTree h
  · exact location_of_denote_string ht hu
  · exact denote_string_ne_ok_of_marksField hinner hmarks

end Modules

/-- A text of a module with a hint in a string, and a type in the hint in a string of its own. -/
def nestedText : String := "def f(x: \"list['int']\"): pass\n"

/-- The text of the module without the strings. -/
def unquotedText : String := "def f(x: list[int]): pass\n"

/-- A module of a function whose parameter has a hint. -/
def hintedTree (hint : Expr) (pos : Pos) : Module :=
  [.function ⟨1, 0⟩
    ⟨false, "f", ⟨[], [⟨⟨1, 6⟩, "x", some hint, none⟩], none, [], none⟩, none, [], none⟩
    [.simple pos .pass]]

/-- Whether a module is that of a function whose parameter has a hint which passes a test. -/
def isHintedTree (test : Expr → Bool) (pos : Pos) : Module → Bool
  | [.function ⟨1, 0⟩
      ⟨false, "f", ⟨[], [⟨⟨1, 6⟩, "x", some hint, none⟩], none, [], none⟩, none, [], none⟩
      [.simple q .pass]] => test hint && q = pos
  | _ => false

/-- Whether an expression is a string at a place. -/
def Expr.isTextAt (pos : Pos) (text : String) : Expr → Bool
  | .constant p (.text s) false => p = pos && s = text
  | _ => false

/-- Whether an expression is a list type with an element that passes a test. -/
def Expr.isListOf (start : Pos) (test : Expr → Bool) : Expr → Bool
  | .subscript p (.name q "list") element => p = start && q = start && test element
  | _ => false

section Tests

variable {test : Expr → Bool} {e element : Expr} {pos start : Pos} {text : String} {m : Module}

/-- The string at a place passes its test alone. -/
theorem Expr.eq_of_isTextAt (h : e.isTextAt pos text = true) :
    e = .constant pos (.text text) false := by
  unfold isTextAt at h
  split at h
  · obtain ⟨rfl, rfl⟩ := by simpa using h
    rfl
  · cases h

/-- The list type at a place passes its test alone. -/
theorem Expr.eq_of_isListOf (htest : ∀ e, test e = true → e = element)
    (h : e.isListOf start test = true) :
    e = .subscript start (.name start "list") element := by
  unfold isListOf at h
  split at h
  · obtain ⟨⟨rfl, rfl⟩, helement⟩ := by simpa using h
    rw [htest _ helement]
  · cases h

/-- The module with a hint passes its test alone. -/
theorem eq_hintedTree {hint : Expr} (htest : ∀ e, test e = true → e = hint)
    (h : isHintedTree test pos m = true) : m = hintedTree hint pos := by
  unfold isHintedTree at h
  split at h
  · obtain ⟨hhint, rfl⟩ := by simpa using h
    rw [htest _ hhint]
    rfl
  · cases h

end Tests

/-- The element of the list without the string. -/
def plainList (start pos : Pos) : Expr :=
  .subscript start (.name start "list") (.name pos "int")

/-- The element of the list in a string of its own. -/
def quotedList : Expr :=
  .subscript ⟨1, 0⟩ (.name ⟨1, 0⟩ "list") (.constant ⟨1, 5⟩ (.text "int") false)

/-- A hint is read from its string as an expression is. -/
theorem readQuoted_of_parseExpression {text : String} {e : Expr} (htrim : Text.trim text = text)
    (hparse : parseExpression text = .ok e) (hsize : e.textSize < text.length) :
    readQuoted text = .ok ⟨e, hsize⟩ := by
  unfold readQuoted
  rw [htrim, hparse]
  exact dif_pos hsize

/-- The trees are read from the texts, and the hints from their strings. -/
theorem nested_read :
    parseModule nestedText =
      .ok (hintedTree (.constant ⟨1, 9⟩ (.text "list['int']") false) ⟨1, 25⟩) ∧
    parseModule unquotedText = .ok (hintedTree (plainList ⟨1, 9⟩ ⟨1, 14⟩) ⟨1, 21⟩) ∧
    (∃ hsize, readQuoted "list['int']" = .ok ⟨quotedList, hsize⟩) ∧
    ∃ hsize, readQuoted "int" = .ok ⟨.name ⟨1, 0⟩ "int", hsize⟩ := by
  have hnested : (parseModule nestedText).toOption.any
      (isHintedTree (·.isTextAt ⟨1, 9⟩ "list['int']") ⟨1, 25⟩) = true := by decide +kernel
  have hunquoted : (parseModule unquotedText).toOption.any
      (isHintedTree (Expr.isListOf ⟨1, 9⟩ (·.isNameAt ⟨1, 14⟩ "int")) ⟨1, 21⟩) = true := by
    decide +kernel
  have hlist : (parseExpression "list['int']").toOption.any
      (Expr.isListOf ⟨1, 0⟩ (·.isTextAt ⟨1, 5⟩ "int")) = true := by decide +kernel
  have hint : (parseExpression "int").toOption.any (·.isNameAt ⟨1, 0⟩ "int") = true := by
    decide +kernel
  have hlist' : parseExpression "list['int']" = .ok quotedList :=
    Except.eq_ok_of_any hlist fun _ => Expr.eq_of_isListOf fun _ => Expr.eq_of_isTextAt
  have hint' : parseExpression "int" = .ok (.name ⟨1, 0⟩ "int") :=
    Except.eq_ok_of_any hint fun _ => Expr.eq_of_isNameAt
  refine ⟨?_, ?_, ⟨?_, ?_⟩, ⟨?_, ?_⟩⟩
  · exact Except.eq_ok_of_any hnested fun _ => eq_hintedTree fun _ => Expr.eq_of_isTextAt
  · exact Except.eq_ok_of_any hunquoted fun _ =>
      eq_hintedTree fun _ => Expr.eq_of_isListOf fun _ => Expr.eq_of_isNameAt
  · with_unfolding_all decide +kernel
  · exact readQuoted_of_parseExpression (by decide +kernel) hlist' _
  · with_unfolding_all decide +kernel
  · exact readQuoted_of_parseExpression (by decide +kernel) hint' _

/-- What is known of the names in the module. -/
def nestedScope : Scope := { shadowed := ["f"], reserved := ["x", "f"] }

/-- The hint in the string is the one without strings, but for the string around its element. -/
theorem requoted_quotedList {start pos : Pos} :
    quotedList.Requoted nestedScope (plainList start pos) := by
  obtain ⟨-, -, -, hsize, hread⟩ := nested_read
  have hname (p p' : Pos) (id : String) : (Expr.name p id).SameCode (.name p' id) := by
    rw [Expr.SameCode, Expr.placedAt_eq, Expr.placedAt_eq]
    rfl
  have helement : (Expr.constant ⟨1, 5⟩ (.text "int") false).Requoted nestedScope
      (.name pos "int") :=
    .quoted hread (.same (hname _ _ _))
  have hindex : HintContext.IndexAlike (Expr.Requoted nestedScope) (some "list")
      (.constant ⟨1, 5⟩ (.text "int") false) (.name pos "int") :=
    .types (by decide +kernel) (.cons helement .nil) fun htuple => by
      simp [tupleNames] at htuple
  exact .subscript (hname _ _ _) hindex

/-- The function with its hint in strings is the one without the strings. -/
theorem requoted_nested : Module.Requoted
    (hintedTree (.constant ⟨1, 9⟩ (.text "list['int']") false) ⟨1, 25⟩)
    (hintedTree (plainList ⟨1, 9⟩ ⟨1, 14⟩) ⟨1, 21⟩) "m.py" [] [] {} := by
  let tree := hintedTree (.constant ⟨1, 9⟩ (.text "list['int']") false) ⟨1, 25⟩
  have hscope : (LowerContext.ofModule tree "m.py" [] {}).scope = nestedScope := by
    with_unfolding_all rfl
  obtain ⟨-, -, ⟨hsize, hread⟩, -⟩ := nested_read
  have hhint : (Expr.constant ⟨1, 9⟩ (.text "list['int']") false).Requoted nestedScope
      (plainList ⟨1, 9⟩ ⟨1, 14⟩) :=
    .quoted hread requoted_quotedList
  refine ⟨[], .cons (.function rfl .nil ?_ ?_) .nil⟩
  · exact hscope ▸ ⟨.nil, .cons ⟨rfl, .some hhint, .none⟩ .nil, .none, .nil, .none⟩
  · exact .cons (.simple (.other rfl rfl .nil)) .nil

/-- The function declares the same with its hint in strings and without. -/
theorem quoting_changes_nothing_nested :
    Agree Lowered.Same (lower nestedText "m.py" {}) (lower unquotedText "m.py" {}) :=
  (quoting_changes_nothing nested_read.1 nested_read.2.1 (by decide +kernel)
    (by decide +kernel) requoted_nested).1

end Typeward
