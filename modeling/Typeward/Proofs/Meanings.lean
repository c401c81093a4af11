import Typeward.Schema.Session
import Typeward.Proofs.Acceptance
import Typeward.StaticType

/-!
# What types mean

The meaning of a static type is the set of values that belong to it, composed from the meanings of
its parts. Names have the meanings that they are given. Nothing here refers to how a type is built,
rendered or checked.
-/

namespace Typeward

/-- What the names in types mean, and which values can be called or are instances of a class. -/
structure Meaning where
  world : World
  /-- Which values belong to the type or to the class that a name stands for. -/
  named : String → Value → Prop
  /-- Which values a predicate holds of. -/
  predicate : String → Value → Bool

namespace StaticType

/-- What decides membership in a primitive type. Booleans are integers, but no numbers. -/
def primitiveTest? : String → Option Test
  | "int" => some .integer
  | "float" => some .number
  | "complex" => some .complex
  | "str" => some .text
  | "bytes" => some .bytes
  | "bool" => some .boolean
  | "none" => some .absence
  | "any" | "object" => some .anything
  | "function" => some .callable
  | "dict" => some .mapping
  | _ => none

/-- The types that a type is made of. Erased arguments are not among them. -/
def parts : StaticType → List StaticType
  | .nullable inner _ => [inner]
  | .array element _ _ => [element]
  | .dict key value _ => [key, value]
  | .record fields _ _ => fields.map (·.type)
  | .union members _ | .intersection members _ | .tuple members _ _ => members
  | .function params result _ => params.getD [] ++ [result]
  | .primitive .. | .literal .. | .generic .. | .reference .. | .marker .. => []

/-- A type is in another one, outside of erased arguments. -/
inductive Includes (u : StaticType) : StaticType → Prop
  | self : Includes u u
  | part {t c} (hc : c ∈ t.parts) (h : Includes u c) : Includes u t

/-- A type on its own, whatever its parts, is one that annotations denote: its container exists, the
names of its fields differ, and a tuple of any length has one type of elements. -/
def IsRegular : StaticType → Prop
  | .array _ container _ => container ∈ Schema.containers
  | .record fields _ _ => (fields.map (·.name)).Nodup
  | .tuple elements isVariadic _ => isVariadic = true → ∃ element, elements = [element]
  | _ => True

/-- A type and all types in it are ones that annotations denote. -/
def WellFormed (t : StaticType) : Prop := ∀ u, Includes u t → u.IsRegular

/-- The parts of a well-formed type are well formed. -/
theorem WellFormed.part {t c : StaticType} (h : t.WellFormed) (hc : c ∈ t.parts) : c.WellFormed :=
  fun u hu => h u (.part hc hu)

/-- A type is well formed if it is regular and its parts are well formed. -/
theorem WellFormed.intro {t : StaticType} (hown : t.IsRegular)
    (hparts : ∀ c ∈ t.parts, c.WellFormed) : t.WellFormed := by
  intro u hu
  cases hu with
  | self => exact hown
  | part hc h => exact hparts _ hc u h

/-- Which values belong to a type. -/
def Denotes (μ : Meaning) : StaticType → Value → Prop
  | .primitive name _, v => ∃ test, primitiveTest? name = some test ∧ test.accepts μ.world v = true
  | .literal value _, v => v.isSameLiteral (.constant value) = true
  | .generic .., _ => True
  | .reference name _ _, v => μ.named name v
  | .marker predicate _, v => μ.predicate predicate v = true
  | .nullable inner _, v => v.isAbsent = true ∨ inner.Denotes μ v
  | .array element container _, v => ∃ items, v.elementsIn container = .ok (some items) ∧
      ∀ x ∈ items, element.Denotes μ x
  | .dict key value _, v => ∃ entries, v.entries? = some entries ∧
      (∀ e ∈ entries, key.Denotes μ e.1) ∧ ∀ e ∈ entries, value.Denotes μ e.2
  | .record fields _ _, v => ∃ entries, v.entries? = some entries ∧
      ∀ f, ∀ _ : f ∈ fields, f.type.Denotes μ (Value.property entries f.name) ∨
        f.isOptional = true ∧ (Value.property entries f.name).isAbsent = true
  | .union members _, v => ∃ t, ∃ _ : t ∈ members, t.Denotes μ v
  | .intersection members _, v => ∀ t, ∀ _ : t ∈ members, t.Denotes μ v
  | .function .., v => μ.world.isCallable v = true
  | .tuple elements isVariadic _, v => ∃ items, v.tuple? = some items ∧
      if isVariadic then ∀ t, ∀ _ : t ∈ elements, ∀ x ∈ items, t.Denotes μ x
      else items.length = elements.length ∧
        ∀ p, ∀ _ : p ∈ elements.zip items, p.1.Denotes μ p.2
termination_by t => sizeOf t
decreasing_by
  all_goals simp_wf
  all_goals try omega
  · have hlt := List.sizeOf_lt_of_mem ‹f ∈ fields›
    rw [RecordField.mk.sizeOf_spec] at hlt
    omega
  · have hlt := List.sizeOf_lt_of_mem ‹t ∈ members›
    omega
  · have hlt := List.sizeOf_lt_of_mem ‹t ∈ members›
    omega
  · have hlt := List.sizeOf_lt_of_mem ‹t ∈ elements›
    omega
  · have hlt := List.sizeOf_lt_of_mem (List.of_mem_zip ‹p ∈ elements.zip items›).1
    omega

end StaticType

end Typeward
