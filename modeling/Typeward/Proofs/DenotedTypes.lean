import Typeward.Build
import Typeward.Hint
import Typeward.Proofs.Actions
import Typeward.Proofs.Meanings

/-!
# Types that hints denote

The builder looks the name of a primitive up in a table, and the runtime library looks up the name
of a container and the element of a tuple of any length. A hint denotes only types for which these
are found. This holds of all types inside them, too, down to the arguments of references, which are
erased later.
-/

namespace Typeward

/-- Whether a constant is one that a literal type can be of: text, bytes or an integer. -/
def Constant.isLiteral : Constant → Bool
  | .bool _ | .int _ | .text _ | .surrogates _ | .bytes _ => true
  | _ => false

namespace StaticType

/-- The types that stand directly in a type, erased arguments included. -/
def inner : StaticType → List StaticType
  | .reference _ arguments _ => arguments
  | t => t.parts

/-- What is looked up for a type on its own, whatever stands in it, is found. -/
def IsWellMade : StaticType → Prop
  | .primitive name _ => (runtimePrimitives.lookup name).isSome
  | .literal value _ => value.isLiteral
  | .array _ container _ => container ∈ Schema.containers
  | .record fields _ _ => (fields.map (·.name)).Nodup
  | .tuple elements isVariadic _ => isVariadic = true → ∃ element, elements = [element]
  | _ => True

/-- What is looked up for a type and for all types in it is found. -/
inductive WellMade : StaticType → Prop
  | node {t} (here : t.IsWellMade) (inside : ∀ c ∈ t.inner, WellMade c) : WellMade t

variable {t : StaticType} {location : Option Location}

/-- What is looked up for a well-made type is found. -/
theorem WellMade.here (h : t.WellMade) : t.IsWellMade := by
  cases h with
  | node here inside => exact here

/-- The types in a well-made type are well made. -/
theorem WellMade.of_mem_parts (h : t.WellMade) {c : StaticType} (hc : c ∈ t.parts) :
    c.WellMade := by
  cases h with
  | node here inside =>
    refine inside c ?_
    cases t with
    | reference => exact absurd hc List.not_mem_nil
    | _ => exact hc

/-- A well-made type is well formed. -/
theorem WellMade.wellFormed (h : t.WellMade) : t.WellFormed := by
  induction h with
  | @node t here inside ih =>
    refine .intro ?_ fun c hc => ih c ?_
    · cases t <;> first | exact here | trivial
    · cases t with
      | reference => exact absurd hc List.not_mem_nil
      | _ => exact hc

/-- A primitive type in the table is well made. -/
theorem wellMade_primitive {name : String} (h : (runtimePrimitives.lookup name).isSome) :
    (primitive name location).WellMade :=
  .node h fun _ hc => absurd hc List.not_mem_nil

/-- A list type of a container that exists is well made if its element is. -/
theorem WellMade.array (h : t.WellMade) {container : String}
    (hcontainer : container ∈ Schema.containers) : (array t container location).WellMade :=
  .node hcontainer (by simpa [inner, parts] using h)

/-- A tuple type of any length is well made if its element is. -/
theorem WellMade.variadic (h : t.WellMade) : (tuple [t] true location).WellMade :=
  .node (fun _ => ⟨t, rfl⟩) (by simpa [inner, parts] using h)

/-- A mapping type is well made if the types of its keys and values are. -/
theorem WellMade.dict {value : StaticType} (h : t.WellMade) (hvalue : value.WellMade) :
    (dict t value location).WellMade :=
  .node trivial (by simpa [inner, parts] using ⟨h, hvalue⟩)

/-- A union or an intersection of well-made types is well made. -/
theorem wellMade_of_members {members : List StaticType} (h : ∀ m ∈ members, m.WellMade) :
    (union members location).WellMade ∧ (intersection members location).WellMade :=
  ⟨.node trivial h, .node trivial h⟩

end StaticType

open StaticType

/-- What a table lists under a name is listed. -/
theorem mem_of_lookup {α : Type} {table : List (String × α)} {name : String} {a : α}
    (h : table.lookup name = some a) : (name, a) ∈ table := by
  induction table with
  | nil => cases h
  | cons entry rest ih =>
    rw [List.lookup_cons] at h
    split at h
    · rename_i heq
      obtain rfl := Option.some.inj h
      rw [eq_of_beq heq]
      exact List.mem_cons_self
    · exact List.mem_cons_of_mem _ (ih h)

/-- The names of primitive types stand for primitives that the runtime library has. -/
theorem isSome_lookup_of_primitiveNames {special name : String}
    (h : primitiveNames.lookup special = some name) : (runtimePrimitives.lookup name).isSome := by
  have hall : ∀ entry ∈ primitiveNames, (runtimePrimitives.lookup entry.2).isSome := by decide
  exact hall _ (mem_of_lookup h)

/-- The names of list types stand for containers that exist. -/
theorem mem_containers_of_arrayContainers {special container : String}
    (h : arrayContainers.lookup special = some container) : container ∈ Schema.containers := by
  have hall : ∀ entry ∈ arrayContainers, entry.2 ∈ Schema.containers := by decide
  exact hall _ (mem_of_lookup h)

namespace HintContext

variable {c : HintContext} {e : Expr} {t : StaticType}

/-- What a hint denotes, by its form. -/
theorem denote_eq_form : c.denote e =
    match c.form e with
    | .done result => result
    | .quoted pos text =>
      match readQuoted text with
      | .error unread => .error (c.unreadable pos text unread)
      | .ok hint => { c with anchor := some (c.anchor.getD pos) }.denote hint.1
    | .composed parts finish => parts.mapM c.denote >>= finish := by
  rw [denote.eq_def]
  -- The hypotheses of the three cases are the form that the right side matches on.
  split
  · rename_i hform
    simp only [hform]
  · rename_i hform
    simp only [hform]
    cases readQuoted _ <;> rfl
  · rename_i parts finish hform
    have hmapM : (parts.attach.mapM fun a => c.denote a.1) = parts.attach.unattach.mapM c.denote :=
      List.mapM_subtype fun _ _ => rfl
    simp only [hform, hmapM, List.unattach_attach]

/-- A hint that is read without looking at other hints denotes what is read. -/
theorem denote_of_form_done {result : Except Failure StaticType} (h : c.form e = .done result) :
    c.denote e = result := by
  rw [denote_eq_form, h]

/-- A quoted hint denotes what the hint in the quotes does. -/
theorem denote_of_form_quoted {pos : Pos} {text : String}
    {inner : { e : Expr // e.textSize < text.length }} (h : c.form e = .quoted pos text)
    (hread : readQuoted text = .ok inner) :
    c.denote e = { c with anchor := some (c.anchor.getD pos) }.denote inner.1 := by
  rw [denote_eq_form, h]
  simp only [hread]

/-- A quoted hint that is not read denotes nothing. -/
theorem denote_of_form_quoted_error {pos : Pos} {text : String} {unread : Source.ReadFailure}
    (h : c.form e = .quoted pos text) (hread : readQuoted text = .error unread) :
    c.denote e = .error (c.unreadable pos text unread) := by
  rw [denote_eq_form, h]
  simp only [hread]

/-- A hint that is read from other hints denotes what is made of their types. -/
theorem denote_of_form_composed {parts : List Expr}
    {finish : List StaticType → Except Failure StaticType} (h : c.form e = .composed parts finish) :
    c.denote e = parts.mapM c.denote >>= finish := by
  rw [denote_eq_form, h]

/-- A fault about a construct answers nothing. -/
theorem unsupported_ne_ok {α : Type} {construct : String} {a : α} :
    c.unsupported e construct ≠ .ok a := by
  simp [unsupported]

/-- A fault about an expression answers nothing. -/
theorem refuse_ne_ok {α : Type} {a : α} : c.refuse e ≠ .ok a := by
  intro h
  obtain ⟨text, -, h⟩ := Except.bind_eq_ok.1 h
  exact unsupported_ne_ok h

/-- A wrong number of arguments answers nothing. -/
theorem expected_ne_ok {α : Type} {count : Nat} {a : α} : c.expected e count ≠ .ok a := by
  intro h
  obtain ⟨text, -, h⟩ := Except.bind_eq_ok.1 h
  exact unsupported_ne_ok h

/-- A type with no types in it is well made if what is looked up for it is found. -/
theorem wellMade_of_leaf (here : t.IsWellMade) (hinner : t.inner = []) : t.WellMade :=
  .node here fun _ hc => absurd (hinner ▸ hc) List.not_mem_nil

/-- A name denotes a well-made type. -/
theorem wellMade_of_denoteName (h : c.denoteName e = .ok t) : t.WellMade := by
  have hany {location : Option Location} : (primitive "any" location).WellMade :=
    wellMade_primitive (by decide)
  unfold denoteName at h
  dsimp only at h
  split at h
  · split at h
    · rename_i hprimitive
      obtain rfl := Except.ok.inj h
      exact wellMade_primitive (isSome_lookup_of_primitiveNames hprimitive)
    · rename_i hcontainer
      obtain rfl := Except.ok.inj h
      exact hany.array (mem_containers_of_arrayContainers hcontainer)
    · split at h
      · obtain rfl := Except.ok.inj h
        exact hany.variadic
      · exact absurd h refuse_ne_ok
  · split at h
    · exact absurd h refuse_ne_ok
    · split at h
      · obtain rfl := Except.ok.inj h
        exact wellMade_of_leaf trivial rfl
      · split at h
        · obtain rfl := Except.ok.inj h
          exact hany
        · obtain rfl := Except.ok.inj h
          exact wellMade_of_leaf trivial rfl

/-- A value in a literal type denotes a well-made type. -/
theorem wellMade_of_denoteLiteral (h : c.denoteLiteral e = .ok t) : t.WellMade := by
  have hliteral {value : Constant} (hvalue : value.isLiteral = true) {location : Option Location} :
      (literal value location).WellMade := wellMade_of_leaf hvalue rfl
  have hrefused : ¬ (do c.unsupported e ("literal value '" ++ (← text e) ++ "'")) = .ok t := by
    intro h
    obtain ⟨text, -, h⟩ := Except.bind_eq_ok.1 h
    exact unsupported_ne_ok h
  unfold denoteLiteral at h
  dsimp only at h
  split at h
  · rename_i value _
    cases value with
    | none =>
      obtain rfl := Except.ok.inj h
      exact wellMade_primitive (by decide)
    | bool | int | text | surrogates | bytes =>
      obtain rfl := Except.ok.inj h
      exact hliteral rfl
    | float | complex | ellipsis => exact absurd h hrefused
  · obtain rfl := Except.ok.inj h
    exact hliteral rfl
  · obtain rfl := Except.ok.inj h
    exact hliteral rfl
  · exact absurd h hrefused

/-- A marker of a refinement denotes a well-made type. -/
theorem wellMade_of_denoteMarker {whole index : Expr} (h : c.denoteMarker whole index = .ok t) :
    t.WellMade := by
  unfold denoteMarker at h
  split at h
  · obtain rfl := Except.ok.inj h
    exact wellMade_of_leaf trivial rfl
  · obtain ⟨text, -, h⟩ := Except.bind_eq_ok.1 h
    exact absurd h unsupported_ne_ok

/-- Results that are found one by one are those for the members of a list, in order. -/
theorem forall₂_of_mapM {α β ε : Type} {f : α → Except ε β} {as : List α} {bs : List β}
    (h : as.mapM f = .ok bs) : List.Forall₂ (fun a b => f a = .ok b) as bs := by
  induction as generalizing bs with
  | nil =>
    obtain rfl := Except.ok.inj h
    exact .nil
  | cons a rest ih =>
    rw [List.mapM_cons] at h
    obtain ⟨first, hfirst, h⟩ := Except.bind_eq_ok.1 h
    obtain ⟨more, hmore, h⟩ := Except.bind_eq_ok.1 h
    obtain rfl := Except.ok.inj h
    exact .cons hfirst (ih hmore)

/-- Results that are found one by one are found for each member. -/
theorem exists_mem_of_mapM {α β ε : Type} {f : α → Except ε β} {as : List α} {bs : List β}
    (h : as.mapM f = .ok bs) {a : α} (ha : a ∈ as) : ∃ b ∈ bs, f a = .ok b := by
  obtain ⟨b, hb, heq⟩ := exists_mem_of_forall₂ (forall₂_of_mapM h).flip ha
  exact ⟨b, hb, heq⟩

/-- Types that are denoted one by one have what each of them has. -/
theorem forall_mem_of_mapM {α : Type} {f : α → Except Failure StaticType} {P : StaticType → Prop}
    {as : List α} {ts : List StaticType} (hf : ∀ a ∈ as, ∀ t, f a = .ok t → P t)
    (h : as.mapM f = .ok ts) : ∀ t ∈ ts, P t := by
  intro t ht
  obtain ⟨a, ha, heq⟩ := exists_mem_of_forall₂ (forall₂_of_mapM h) ht
  exact hf a ha t heq

/-- The markers behind an annotated type denote well-made types. -/
theorem wellMade_of_denoteMarkers {arguments : List Expr} {ts : List StaticType}
    (h : c.denoteMarkers arguments = .ok ts) : ∀ t ∈ ts, t.WellMade := by
  refine forall_mem_of_mapM (fun a _ t ht => ?_) h
  split at ht
  · exact wellMade_of_denoteMarker ht
  · exact absurd ht refuse_ne_ok

/-- What comes of a form is well made if this holds of the types that it is composed of. -/
def Form.MakesWell : Form → Prop
  | .done result => ∀ t, result = .ok t → t.WellMade
  | .quoted .. => True
  | .composed _ finish =>
    ∀ types t, (∀ u ∈ types, u.WellMade) → finish types = .ok t → t.WellMade

/-- A fault makes no type. -/
theorem makesWell_of_ne_ok {result : Except Failure StaticType} (h : ∀ t, result ≠ .ok t) :
    (Form.done result).MakesWell :=
  fun t ht => absurd ht (h t)

/-- A type made of exactly one other is made of what is given. -/
theorem ofOne_eq_ok {make : StaticType → StaticType} {types : List StaticType}
    (h : c.ofOne e make types = .ok t) : ∃ u, types = [u] ∧ t = make u := by
  unfold ofOne at h
  split at h
  · exact ⟨_, rfl, (Except.ok.inj h).symm⟩
  · exact absurd h expected_ne_ok

/-- A type made of exactly two others is made of what is given. -/
theorem ofTwo_eq_ok {make : StaticType → StaticType → StaticType} {types : List StaticType}
    (h : c.ofTwo e make types = .ok t) : ∃ u v, types = [u, v] ∧ t = make u v := by
  unfold ofTwo at h
  split at h
  · exact ⟨_, _, rfl, (Except.ok.inj h).symm⟩
  · exact absurd h expected_ne_ok

/-- A type made of exactly one well-made type. -/
theorem wellMade_of_ofOne {make : StaticType → StaticType} {types : List StaticType}
    (hmake : ∀ u : StaticType, u.WellMade → (make u).WellMade) (htypes : ∀ u ∈ types, u.WellMade)
    (h : c.ofOne e make types = .ok t) : t.WellMade := by
  obtain ⟨u, rfl, rfl⟩ := ofOne_eq_ok h
  exact hmake u (htypes u List.mem_cons_self)

/-- A mapping type is made well. -/
theorem makesWell_dict {arguments : List Expr} {location : Option Location} :
    (Form.composed arguments (c.ofTwo e (.dict · · location))).MakesWell := by
  intro types t htypes h
  obtain ⟨key, value, rfl, rfl⟩ := ofTwo_eq_ok h
  exact (htypes key (by simp)).dict (htypes value (by simp))

/-- A function type is made well. -/
theorem makesWell_callableForm {params result : Expr} :
    (c.callableForm e params result).MakesWell := by
  have hany {location : Option Location} {arguments : List Expr} :
      (Form.composed arguments (c.ofOne e (.function none · location))).MakesWell := by
    intro types t htypes h
    refine wellMade_of_ofOne (fun u hu => ?_) htypes h
    exact .node trivial (by simpa [StaticType.inner, parts] using hu)
  unfold callableForm
  dsimp only
  split
  · exact hany
  · intro types t htypes h
    dsimp only at h
    split at h
    · rename_i result params
      obtain rfl := Except.ok.inj h
      obtain ⟨hresult, hparams⟩ := List.forall_mem_cons.1 htypes
      refine .node trivial fun u hu => ?_
      rcases List.mem_append.1 hu with hu | hu
      · exact hparams u hu
      · rwa [List.mem_singleton.1 hu]
    · exact absurd h expected_ne_ok
  · split
    · exact hany
    · exact fun types t _ h => absurd h refuse_ne_ok

/-- A tuple type is made well. -/
theorem makesWell_tupleForm {arguments : List Expr} : (c.tupleForm e arguments).MakesWell := by
  unfold tupleForm
  dsimp only
  split
  · intro t h
    obtain rfl := Except.ok.inj h
    exact .node nofun nofun
  · exact fun types t htypes h => wellMade_of_ofOne (fun u hu => hu.variadic) htypes h
  · intro types t htypes h
    obtain rfl := Except.ok.inj h
    exact .node nofun htypes

/-- An annotated type is made well. -/
theorem makesWell_annotatedForm {arguments : List Expr} :
    (c.annotatedForm e arguments).MakesWell := by
  unfold annotatedForm
  split
  · exact makesWell_of_ne_ok (by simp)
  · intro types t htypes h
    obtain ⟨markers, hmarkers, h⟩ := Except.bind_eq_ok.1 h
    split at h
    · obtain rfl := Except.ok.inj h
      exact htypes _ List.mem_cons_self
    · obtain rfl := Except.ok.inj h
      exact (wellMade_of_members (List.forall_mem_append.2
        ⟨htypes, wellMade_of_denoteMarkers hmarkers⟩)).2

/-- A literal type is made well. -/
theorem makesWell_literalForm {arguments : List Expr} :
    (c.literalForm e arguments).MakesWell := by
  intro t h
  obtain ⟨values, hvalues, h⟩ := Except.bind_eq_ok.1 h
  have hall := forall_mem_of_mapM (fun a _ t => wellMade_of_denoteLiteral) hvalues
  split at h
  · obtain rfl := Except.ok.inj h
    exact hall _ List.mem_cons_self
  · obtain rfl := Except.ok.inj h
    exact (wellMade_of_members hall).1

/-- A special form with arguments is made well. -/
theorem makesWell_specialForm {special : String} {index : Expr} :
    (c.specialForm e special index).MakesWell := by
  have hexpected {count : Nat} : (Form.done (c.expected e count)).MakesWell :=
    makesWell_of_ne_ok fun t => expected_ne_ok
  unfold specialForm
  dsimp only
  split
  · split
    · intro types t htypes h
      refine wellMade_of_ofOne (fun u hu => ?_) htypes h
      exact .node trivial (by simpa [StaticType.inner, parts] using hu)
    · exact hexpected
  split
  · intro types t htypes h
    obtain rfl := Except.ok.inj h
    exact (wellMade_of_members htypes).1
  split
  · rename_i container hcontainer
    split
    · intro types t htypes h
      refine wellMade_of_ofOne (fun u hu => ?_) htypes h
      exact hu.array (mem_containers_of_arrayContainers hcontainer)
    · exact hexpected
  split
  · split
    · exact makesWell_dict
    · exact hexpected
  split
  · exact makesWell_tupleForm
  split
  · split
    · exact makesWell_callableForm
    · exact hexpected
  split
  · exact makesWell_literalForm
  split
  · exact makesWell_annotatedForm
  split
  · intro types t htypes h
    obtain rfl := Except.ok.inj h
    exact (wellMade_of_members htypes).2
  split
  · exact fun t => wellMade_of_denoteMarker
  · exact makesWell_of_ne_ok fun t => refuse_ne_ok

/-- A name with arguments is made well. -/
theorem makesWell_genericForm {base index : Expr} : (c.genericForm e base index).MakesWell := by
  unfold genericForm
  dsimp only
  split
  · exact makesWell_of_ne_ok fun t => refuse_ne_ok
  · split
    · intro t h
      obtain rfl := Except.ok.inj h
      exact wellMade_primitive (by decide)
    · intro types t htypes h
      obtain rfl := Except.ok.inj h
      exact .node trivial htypes

/-- Whatever form a hint has, its type is made well. -/
theorem makesWell_form : (c.form e).MakesWell := by
  unfold form
  dsimp only
  split
  · intro t h
    obtain rfl := Except.ok.inj h
    exact wellMade_primitive (by decide)
  · trivial
  · exact makesWell_of_ne_ok (by simp)
  · intro types t htypes h
    obtain rfl := Except.ok.inj h
    exact (wellMade_of_members htypes).1
  · exact fun t => wellMade_of_denoteName
  · exact fun t => wellMade_of_denoteName
  · split
    · exact makesWell_genericForm
    · exact makesWell_specialForm
  · exact makesWell_of_ne_ok fun t => refuse_ne_ok

/-- Hints denote well-made types. -/
theorem wellMade_of_denote (h : c.denote e = .ok t) : t.WellMade := by
  fun_induction denote c e generalizing t with
  | case1 c e result hform =>
    have hmakes : (c.form e).MakesWell := makesWell_form
    rw [hform] at hmakes
    exact hmakes t h
  | case2 => cases h
  | case3 c e pos text hform inner hinner hread hlength ih => exact ih h
  | case4 c e parts finish hform ih =>
    have hmakes : (c.form e).MakesWell := makesWell_form
    rw [hform] at hmakes
    obtain ⟨types, htypes, h⟩ := Except.bind_eq_ok.1 h
    exact hmakes types t (forall_mem_of_mapM (fun a _ u hu => ih a hu) htypes) h

end HintContext

end Typeward
