import Typeward.Proofs.BuildableTypes
import Typeward.Proofs.PlanRuns

/-!
# Refinement requests

A plan holds expressions and, apart from them, the refinements that were met while they were built.
The expressions are put together, flattened, made optional and renamed on the way, the requests are
only appended to a log. `Mirrors` says that the log has one request for each refining call that an
expression ends up with, and one for each predicate that stands in the type it was built from. The
two differ in order inside of one expression: the result of a function is built before its
parameters and a base type before what refines it. They agree in the order of the entries.
-/

namespace Typeward

namespace TypeExpr

mutual

/-- The arguments of the calls in an expression that refine a type. Of an inspected type counts the
expression, not what is shown of it. -/
def refinementCalls : TypeExpr → List (List TypeExpr)
  | .call .refinement arguments _ _ => arguments :: refinementCallsOf arguments
  | .call _ arguments _ _ => refinementCallsOf arguments
  | .delayed e | .field _ e | .reified e _ _ => e.refinementCalls
  | .primitive _ | .name _ | .deferred _ | .predicate _ | .constant _ => []

/-- The arguments of the calls in several expressions that refine a type. -/
def refinementCallsOf : List TypeExpr → List (List TypeExpr)
  | [] => []
  | e :: rest => e.refinementCalls ++ refinementCallsOf rest

end

/-- The refining calls in several expressions are those in each of them, in order. -/
theorem refinementCallsOf_eq (es : List TypeExpr) :
    refinementCallsOf es = es.flatMap refinementCalls := by
  induction es with
  | nil => rfl
  | cons e rest ih => rw [refinementCallsOf, ih, List.flatMap_cons]

/-- A call that refines nothing has the refining calls of its arguments. -/
theorem refinementCalls_call {combinator : Combinator} (h : combinator ≠ .refinement)
    (arguments : List TypeExpr) (shown : Option String) (options : List (String × Constant)) :
    (call combinator arguments shown options).refinementCalls =
      arguments.flatMap refinementCalls := by
  cases combinator with
  | refinement => exact absurd rfl h
  | _ => exact refinementCallsOf_eq arguments

/-- A refinement is one refining call more than its base has. -/
theorem refinementCalls_refinement (base : TypeExpr) (predicate : String) :
    (combine .refinement [base, .predicate predicate]).refinementCalls =
      [base, .predicate predicate] :: base.refinementCalls := by
  simp [combine, refinementCalls, refinementCallsOf]

/-- A display name changes no refining call. -/
@[simp]
theorem refinementCalls_named (e : TypeExpr) (shown : String) :
    (e.named shown).refinementCalls = e.refinementCalls := by
  unfold named
  split
  · rename_i combinator arguments options
    cases combinator <;> rfl
  · rfl

end TypeExpr

/-- The refining calls are gathered from an expression. -/
theorem gathers_refinementCalls : TypeExpr.Gathers TypeExpr.refinementCalls where
  primitive _ := rfl
  constant _ := rfl
  field _ _ := rfl
  call hc := TypeExpr.refinementCalls_call hc

/-- A reference refines nothing. -/
theorem refinementCalls_of_lookup {r : Registry} {name : String} {location : Option Location}
    {e : TypeExpr} (h : r.lookup name location = .ok e) : e.refinementCalls = [] := by
  rcases lookup_cases h with ⟨entry, -, ⟨-, rfl⟩ | ⟨-, -, rfl⟩⟩ |
    ⟨-, ⟨b, -, ⟨-, rfl⟩ | ⟨-, rfl⟩⟩ | ⟨-, -, rfl⟩⟩ <;> rfl

namespace StaticType

/-- The predicate that a type is, with its place. -/
def ownMarker : StaticType → List (String × Option Location)
  | .marker predicate location => [(predicate, location)]
  | _ => []

/-- The predicates in a type with their places, outside of erased arguments. -/
def markers (t : StaticType) : List (String × Option Location) :=
  t.ownMarker ++ t.parts.attach.flatMap fun p => p.1.markers
termination_by sizeOf t
decreasing_by exact sizeOf_lt_of_mem_parts p.2

/-- The predicates in a type are the one that it is and those in its parts. -/
theorem markers_eq (t : StaticType) : t.markers = t.ownMarker ++ t.parts.flatMap markers := by
  rw [markers, List.flatMap_subtype fun _ _ => rfl, List.unattach_attach]

/-- The predicates in an intersection are those in its members. -/
theorem markers_intersection (members : List StaticType) (location : Option Location) :
    (intersection members location).markers = members.flatMap markers := by
  rw [markers_eq]
  rfl

end StaticType

/-- The arguments of the call that a request is for. -/
def RefinementRequest.arguments (q : RefinementRequest) : List TypeExpr :=
  [q.base, .predicate q.predicate]

/-- The predicate of a request with its place. -/
def RefinementRequest.marker (q : RefinementRequest) : String × Option Location :=
  (q.predicate, q.location)

/-- Requests mirror refining calls and the predicates they come from: they are the same ones, each
as often, up to their order. -/
structure Mirrors (requests : List RefinementRequest) (calls : List (List TypeExpr))
    (markers : List (String × Option Location)) : Prop where
  calls : (requests.map RefinementRequest.arguments).Perm calls
  markers : (requests.map RefinementRequest.marker).Perm markers

namespace Mirrors

variable {requests more : List RefinementRequest} {calls calls' : List (List TypeExpr)}
  {markers markers' : List (String × Option Location)}

/-- No requests mirror nothing. -/
theorem nil : Mirrors [] [] [] := ⟨.nil, .nil⟩

/-- A request mirrors the call that it is for. -/
theorem request (q : RefinementRequest) : Mirrors [q] [q.arguments] [q.marker] := ⟨.rfl, .rfl⟩

/-- Requests after others mirror what follows. -/
theorem append (h : Mirrors requests calls markers) (h' : Mirrors more calls' markers') :
    Mirrors (requests ++ more) (calls ++ calls') (markers ++ markers') := by
  constructor
  · rw [List.map_append]
    exact h.calls.append h'.calls
  · rw [List.map_append]
    exact h.markers.append h'.markers

/-- The order of what is mirrored does not count. -/
theorem perm (h : Mirrors requests calls markers) (hcalls : calls.Perm calls')
    (hmarkers : markers.Perm markers') : Mirrors requests calls' markers' :=
  ⟨h.calls.trans hcalls, h.markers.trans hmarkers⟩

end Mirrors

section Building

variable {r : Registry}

/-- What two builds meet, one after the other. -/
theorem Built.requests_bind {α β : Type} {x : Built α} {f : α → Built β} {a : α}
    (h : x.outcome = .ok a) : (x >>= f).requests = x.requests ++ (f a).requests := by
  change (Built.bind x f).requests = _
  simp [Built.bind, h]

/-- A build that meets nothing. -/
@[simp]
theorem Built.requests_pure {α : Type} (a : α) : (pure a : Built α).requests = [] := rfl

/-- Builds for the members of a list, each of which answers, meet what each of them meets. -/
theorem Built.requests_traverse {α β γ : Type} {build : List α → Built β} (step : α → Built γ)
    {start : β} (put : α → γ → β → β) (hnil : build [] = pure start)
    (hcons : ∀ x rest, build (x :: rest) = do
      let first ← step x
      let more ← build rest
      return put x first more)
    {xs : List α} (h : ∀ x ∈ xs, ∃ a, (step x).outcome = .ok a) :
    (∃ b, (build xs).outcome = .ok b) ∧
      (build xs).requests = xs.flatMap fun x => (step x).requests := by
  induction xs with
  | nil =>
    rw [hnil]
    exact ⟨⟨start, rfl⟩, rfl⟩
  | cons x rest ih =>
    obtain ⟨a, ha⟩ := h x List.mem_cons_self
    obtain ⟨⟨b, hb⟩, hrest⟩ := ih fun y hy => h y (List.mem_cons_of_mem _ hy)
    rw [hcons]
    constructor
    · exact ⟨put x a b, by simp [ha, hb]⟩
    · rw [requests_bind ha, requests_bind hb, requests_pure, hrest, List.flatMap_cons,
        List.append_nil]

variable {ts : List StaticType} {shapes : List Shape}

/-- The builder answers for types that have shapes. -/
theorem ShapedAll.exists_outcome (h : ShapedAll r ts shapes) :
    ∀ t ∈ ts, ∃ s, (shape r t).outcome = .ok s :=
  forall_mem_of_forall_mem_zip h.1 fun p hp => ⟨p.2, (h.2 p hp).outcome⟩

/-- What is met in several types is met in each of them, in order. -/
theorem requests_shapeAll (h : ShapedAll r ts shapes) :
    (shapeAll r ts).requests = ts.flatMap fun t => (shape r t).requests :=
  (Built.requests_traverse (shape r) (fun _ s es => s.toExpr :: es) (by rw [shapeAll])
    (fun t rest => by rw [shapeAll]) h.exists_outcome).2

/-- What is met in the members of a union is met in each of them, in order. -/
theorem requests_shapeMembers (h : ShapedAll r ts shapes) :
    (shapeMembers r ts).requests = ts.flatMap fun t => (shape r t).requests :=
  (Built.requests_traverse (shape r) (fun _ s more => s.toAlternatives ++ more)
    (by rw [shapeMembers]) (fun t rest => by rw [shapeMembers]) h.exists_outcome).2

/-- What is met in the fields of a record is met in the types of each of them, in order. -/
theorem requests_shapeFields {fields : List (RecordField StaticType)}
    (hlength : fields.length = shapes.length)
    (h : ∀ p ∈ fields.zip shapes, Shaped r p.1.type p.2) :
    (shapeFields r fields).requests = fields.flatMap fun f => (shape r f.type).requests :=
  (Built.requests_traverse (fun f => shape r f.type) (fun f s es => propertyOf f s :: es)
    (by rw [shapeFields]) (fun f rest => by rw [shapeFields]; rfl)
    (forall_mem_of_forall_mem_zip hlength fun p hp => ⟨p.2, (h p hp).outcome⟩)).2

/-- What is met in several types, each of which has its own shape, mirrors what the shapes come
to. -/
theorem Mirrors.flatMap {α : Type} (type : α → StaticType) {xs : List α}
    (hlength : xs.length = shapes.length)
    (h : ∀ p ∈ xs.zip shapes, Mirrors (shape r (type p.1)).requests p.2.toExpr.refinementCalls
      (type p.1).markers) :
    Mirrors (xs.flatMap fun x => (shape r (type x)).requests)
      (shapes.flatMap fun s => s.toExpr.refinementCalls)
      (xs.flatMap fun x => (type x).markers) := by
  induction xs generalizing shapes with
  | nil =>
    obtain rfl := List.length_eq_zero_iff.1 hlength.symm
    exact nil
  | cons x rest ih =>
    obtain ⟨s, shapes, rfl⟩ := List.exists_cons_of_length_eq_add_one hlength.symm
    simp only [List.zip_cons_cons, List.forall_mem_cons] at h
    have hrest := ih (by simpa using hlength) h.2
    simpa only [List.flatMap_cons] using h.1.append hrest

/-- A refinement is recorded as it is made. -/
@[simp]
theorem requests_refine (predicate : String) (place : Option Location) (base : TypeExpr) :
    (refine predicate place base).requests = [⟨base, predicate, place⟩] := rfl

/-- What is met while a refined type is built is what is met in its base, then its own refinement.
The call comes before those in the base. -/
theorem Shaped.mirrors_refined {predicate : String} {place location : Option Location}
    {base : StaticType} {members : List StaticType} {s : Shape} (h : Shaped r base s)
    (hmembers : members = [.marker predicate place, base] ∨
      members = [base, .marker predicate place])
    (hbase : Mirrors (shape r base).requests s.toExpr.refinementCalls base.markers) :
    Mirrors (shape r (.intersection members location)).requests
      (TypeExpr.combine .refinement [s.toExpr, .predicate predicate]).refinementCalls
      (StaticType.intersection members location).markers := by
  have hplain := h.isMarker_eq_false
  have hmarker : (StaticType.marker predicate place).isMarker = true := rfl
  have hmarked : (StaticType.marker predicate place).markers = [(predicate, place)] := by
    simp [StaticType.markers_eq, StaticType.ownMarker, StaticType.parts]
  have hrequests : (shape r (.intersection members location)).requests =
      (shape r base).requests ++ [⟨s.toExpr, predicate, place⟩] := by
    rw [shape.eq_def]
    rcases hmembers with rfl | rfl
    · simp [hmarker, hplain, Built.requests_bind h.outcome]
    · cases base with
      | marker => cases hplain
      | _ => simp [hmarker, hplain, Built.requests_bind h.outcome]
  have hcalls : (s.toExpr.refinementCalls ++ [[s.toExpr, .predicate predicate]]).Perm
      (TypeExpr.combine .refinement [s.toExpr, .predicate predicate]).refinementCalls := by
    rw [TypeExpr.refinementCalls_refinement]
    exact List.perm_append_singleton _ _
  have hmarkers : (base.markers ++ [(predicate, place)]).Perm
      (StaticType.intersection members location).markers := by
    rw [StaticType.markers_intersection]
    rcases hmembers with rfl | rfl
    · simp [hmarked]
    · simp [hmarked]
  rw [hrequests]
  exact (hbase.append (.request ⟨s.toExpr, predicate, place⟩)).perm hcalls hmarkers

/-- What is met while a type is built mirrors the refining calls of the expression and the
predicates in the type. -/
theorem Shaped.mirrors {t : StaticType} {s : Shape} (h : Shaped r t s) :
    Mirrors (shape r t).requests s.toExpr.refinementCalls t.markers := by
  -- The markers of a form are those of its parts; only what is marked has one of its own.
  induction h with
  | primitive h =>
    rw [StaticType.markers_eq, shape, h]
    exact Mirrors.nil
  | literal | generic =>
    rw [StaticType.markers_eq]
    exact Mirrors.nil
  | reference h =>
    rw [StaticType.markers_eq, Shape.toExpr, refinementCalls_of_lookup h, shape, h]
    exact Mirrors.nil
  | nullable h ih =>
    rw [shape, Built.requests_bind h.outcome, StaticType.markers_eq, Shape.toExpr,
      gathers_refinementCalls.toExpr, List.filterMap_append, List.flatMap_append,
      gathers_refinementCalls.toAlternatives h]
    simpa [StaticType.ownMarker, StaticType.parts] using ih
  | array h ih =>
    rw [shape, Built.requests_bind h.outcome, StaticType.markers_eq, Shape.toExpr,
      TypeExpr.refinementCalls_call (by decide)]
    simpa [single, StaticType.ownMarker, StaticType.parts] using ih
  | dict hkey hvalue ihkey ihvalue =>
    rw [shape, Built.requests_bind hkey.outcome, Built.requests_bind hvalue.outcome,
      StaticType.markers_eq, Shape.toExpr, TypeExpr.combine,
      TypeExpr.refinementCalls_call (by decide)]
    simpa [single, StaticType.ownMarker, StaticType.parts] using ihkey.append ihvalue
  | record hlength h ih =>
    have houtcome := outcome_shapeFields hlength fun p hp => (h p hp).outcome
    have hfields := Mirrors.flatMap (·.type) hlength ih
    rw [shape, Built.requests_bind houtcome, requests_shapeFields hlength h,
      StaticType.markers_eq, Shape.toExpr, TypeExpr.refinementCalls_call (by decide),
      gathers_refinementCalls.zipWith_propertyOf hlength]
    simpa [single, StaticType.ownMarker, StaticType.parts, List.flatMap_map] using hfields
  | union hlength h ih =>
    have houtcome := outcome_shapeMembers hlength fun p hp => (h p hp).outcome
    have hmembers := Mirrors.flatMap id hlength ih
    rw [shape, Built.requests_bind houtcome, requests_shapeMembers ⟨hlength, h⟩,
      StaticType.markers_eq, Shape.toExpr, gathers_refinementCalls.toExpr,
      gathers_refinementCalls.flatMap_toAlternatives ⟨hlength, h⟩]
    simpa [StaticType.ownMarker, StaticType.parts] using hmembers
  | @intersection members location shapes hplain hlength h ih =>
    have hany : members.any (·.isMarker) = false := by simpa using hplain
    have houtcome := outcome_shapeAll hlength fun p hp => (h p hp).outcome
    have hmembers := Mirrors.flatMap id hlength ih
    rw [shape.eq_def, StaticType.markers_eq, Shape.toExpr, TypeExpr.combine,
      TypeExpr.refinementCalls_call (by decide)]
    dsimp only
    rw [hany, Bool.not_false, if_pos rfl, Built.requests_bind houtcome,
      requests_shapeAll ⟨hlength, h⟩]
    simpa [single, StaticType.ownMarker, StaticType.parts, List.flatMap_map] using hmembers
  | markedLeft h ih => exact h.mirrors_refined (.inl rfl) ih
  | markedRight h ih => exact h.mirrors_refined (.inr rfl) ih
  | anyFunction h ih =>
    have hparams : (shapeParams r none).outcome = .ok none := rfl
    rw [shape, Built.requests_bind h.outcome, Built.requests_bind hparams, StaticType.markers_eq,
      Shape.toExpr, TypeExpr.refinementCalls_call (by decide)]
    simpa [shapeParams, single, StaticType.ownMarker, StaticType.parts] using ih
  | @function params result location shapes s hresult hlength h ihresult ih =>
    have houtcome := outcome_shapeAll hlength fun p hp => (h p hp).outcome
    have hparams : (shapeParams r (some params)).outcome =
        .ok (some (shapes.map Shape.toExpr)) := by
      simp [shapeParams, houtcome]
    have hall := ihresult.append (Mirrors.flatMap id hlength ih)
    rw [shape, Built.requests_bind hresult.outcome, Built.requests_bind hparams, shapeParams,
      Built.requests_bind houtcome, requests_shapeAll ⟨hlength, h⟩, StaticType.markers_eq,
      Shape.toExpr, TypeExpr.combine, TypeExpr.refinementCalls_call (by decide)]
    have hcalls : (s.toExpr.refinementCalls ++
        shapes.flatMap fun s => s.toExpr.refinementCalls).Perm
        ((shapes.map Shape.toExpr ++ [s.toExpr]).flatMap TypeExpr.refinementCalls) := by
      simpa [List.flatMap_map] using List.perm_append_comm
    have hmarkers : (result.markers ++ params.flatMap StaticType.markers).Perm
        ((StaticType.function (some params) result location).parts.flatMap StaticType.markers) := by
      simpa [StaticType.parts] using List.perm_append_comm
    simpa [single, StaticType.ownMarker] using hall.perm hcalls hmarkers
  | tuple hlength h ih =>
    have houtcome := outcome_shapeAll hlength fun p hp => (h p hp).outcome
    have helements := Mirrors.flatMap id hlength ih
    rw [shape, Built.requests_bind houtcome, requests_shapeAll ⟨hlength, h⟩,
      StaticType.markers_eq, Shape.toExpr, TypeExpr.refinementCalls_call (by decide)]
    simpa [single, StaticType.ownMarker, StaticType.parts, List.flatMap_map] using helements

/-- What is met while an expression is built mirrors its refining calls. -/
theorem mirrors_of_build {t : StaticType} {e : TypeExpr} (h : (build r t).outcome = .ok e) :
    Mirrors (build r t).requests e.refinementCalls t.markers := by
  obtain ⟨s, hs, rfl⟩ := shaped_of_build h
  rw [build, Built.requests_bind hs.outcome, Built.requests_pure, List.append_nil]
  exact hs.mirrors

/-- Looking up what an inspected type is refines nothing. -/
theorem requests_reify {t : StaticType} {e : TypeExpr} (h : (build r t).outcome = .ok e) :
    (reify r t).requests = (build r t).requests := by
  have hshown (shown : Except Fault TypeExpr) : (do
      let definition ← Built.ofExcept shown
      return TypeExpr.reified e definition.kind definition.components : Built TypeExpr).requests =
        [] := by
    cases shown <;> rfl
  rw [reify, Built.requests_bind h]
  dsimp only
  split
  · split
    · rw [hshown, List.append_nil]
    · exact List.append_nil _
  · exact List.append_nil _

/-- What is met while an inspected type is built mirrors the refining calls of its expression. -/
theorem mirrors_of_reify {t : StaticType} {x : TypeExpr} (h : (reify r t).outcome = .ok x) :
    Mirrors (reify r t).requests x.refinementCalls t.markers := by
  obtain ⟨e, definition, he, -, rfl⟩ := build_of_reify h
  rw [requests_reify he, TypeExpr.refinementCalls]
  exact mirrors_of_build he

end Building

/-- The hint that an entry is emitted for. -/
def Site.hint? : Site → Option StaticType
  | .type d => some d.type
  | .parameter p => p.type
  | .cast d => some d.type
  | .reify d => some d.type
  | .function _ => none

/-- The predicates in the hint that an entry is emitted for. -/
def Site.markers (site : Site) : List (String × Option Location) :=
  site.hint?.elim [] StaticType.markers

/-- Requests mirror an entry: the refining calls in its expression and the predicates in its
hint. -/
def PlanEntry.MirroredBy (entry : PlanEntry) (requests : List RefinementRequest) : Prop :=
  Mirrors requests entry.expr.refinementCalls entry.site.markers

/-- A parameter that takes what is left refines just what its hint does. -/
theorem markers_receivedType (kind : ParameterKind) (t : StaticType) (location : Option Location) :
    (receivedType kind t location).markers = t.markers := by
  cases kind with
  | variadic =>
    rw [receivedType, StaticType.markers_eq]
    simp [StaticType.ownMarker, StaticType.parts]
  | keywordVariadic =>
    have hkey : (StaticType.primitive "str" none).markers = [] := by
      rw [StaticType.markers_eq]
      rfl
    rw [receivedType, StaticType.markers_eq]
    simp [StaticType.ownMarker, StaticType.parts, hkey]
  | _ => rfl

/-- Entries are mirrored by what a planner has met since a state: each by its own requests, in the
order of the entries. -/
def PlanState.Mirrored (s : PlanState) (entries : List PlanEntry) (s' : PlanState) : Prop :=
  ∃ groups : List (List RefinementRequest),
    s'.refinements = s.refinements ++ groups.flatten ∧
      List.Forall₂ PlanEntry.MirroredBy entries groups

namespace PlanState

variable {s s₁ s₂ s' : PlanState} {number : Nat}

/-- No entries are mirrored by nothing. -/
theorem Mirrored.nil (s : PlanState) : s.Mirrored [] s := ⟨[], by simp, .nil⟩

/-- Taking a build into account adds what it met. -/
theorem refinements_of_take {α : Type} {b : Built α} {a : α} (h : s.take b = .ok (a, s')) :
    s'.refinements = s.refinements ++ b.requests := by
  unfold take at h
  obtain ⟨a', -, h⟩ := Except.bind_eq_ok.1 h
  simp only [pure, Except.pure, Except.ok.injEq, Prod.mk.injEq] at h
  rw [← h.2]

/-- One entry is mirrored by what was met for it. -/
theorem Mirrored.single {entry : PlanEntry} {requests : List RefinementRequest}
    (hmet : s'.refinements = s.refinements ++ requests) (h : entry.MirroredBy requests) :
    s.Mirrored [entry] s' :=
  ⟨[requests], by simpa using hmet, .cons h .nil⟩

/-- Entries after others are mirrored in order. -/
theorem Mirrored.append {entries more : List PlanEntry} (h : s.Mirrored entries s₁)
    (hmore : s₁.Mirrored more s₂) : s.Mirrored (entries ++ more) s₂ := by
  obtain ⟨groups, hgroups, hentries⟩ := h
  obtain ⟨groups', hgroups', hentries'⟩ := hmore
  refine ⟨groups ++ groups', ?_, List.rel_append hentries hentries'⟩
  rw [hgroups', hgroups, List.flatten_append, List.append_assoc]

/-- The checks of parameters are mirrored in order. -/
theorem mirrored_of_planParameters {ps : List TypedParameter} {entries : List PlanEntry}
    (h : planParameters s number ps = .ok (entries, s')) : s.Mirrored entries s' := by
  induction ps generalizing s entries with
  | nil =>
    simp only [planParameters, Except.ok.injEq, Prod.mk.injEq] at h
    obtain ⟨rfl, rfl⟩ := h
    exact .nil s
  | cons p rest ih =>
    rw [planParameters.eq_def] at h
    dsimp only at h
    split at h
    · exact ih h
    · rename_i t ht
      obtain ⟨⟨e, s₁⟩, htake, h⟩ := Except.bind_eq_ok.1 h
      obtain ⟨⟨more, s₂⟩, hmore, h⟩ := Except.bind_eq_ok.1 h
      simp only [pure, Except.pure, Except.ok.injEq, Prod.mk.injEq] at h
      obtain ⟨rfl, rfl⟩ := h
      have hbuild := mirrors_of_build (take_eq_ok htake).1
      rw [markers_receivedType] at hbuild
      have hmarkers : (Site.parameter p).markers = t.markers := by
        simp [Site.markers, Site.hint?, ht]
      have hentry : PlanEntry.MirroredBy ⟨.parameter p, e, .assert, some p.name, number⟩
          (build s.registry (receivedType p.kind t p.location)).requests := by
        rw [PlanEntry.MirroredBy, hmarkers]
        exact hbuild
      exact (Mirrored.single (refinements_of_take htake) hentry).append (ih hmore)

/-- The entries of a declaration are mirrored in order. -/
theorem mirrored_of_planDeclaration {d : Declaration} {entries : List PlanEntry}
    (h : planDeclaration s number d = .ok (entries, s')) : s.Mirrored entries s' := by
  cases d with
  | type d =>
    simp only [planDeclaration, planType] at h
    split at h
    · simp at h
    · obtain ⟨r₁, -, h⟩ := Except.bind_eq_ok.1 h
      obtain ⟨⟨e, s₁⟩, htake, h⟩ := Except.bind_eq_ok.1 h
      obtain ⟨r₂, -, h⟩ := Except.bind_eq_ok.1 h
      simp only [pure, Except.pure, Except.ok.injEq, Prod.mk.injEq] at h
      obtain ⟨rfl, rfl⟩ := h
      have hbuild := mirrors_of_build (take_eq_ok htake).1
      have hentry : PlanEntry.MirroredBy ⟨.type d, e.named d.name, .define, some d.name, number⟩
          (build (r₁.evaluatedAt d.location) d.type).requests := by
        rw [PlanEntry.MirroredBy, TypeExpr.refinementCalls_named]
        exact hbuild
      have hmet := refinements_of_take htake
      exact Mirrored.single hmet hentry
  | function d => exact mirrored_of_planParameters h
  | cast d =>
    obtain ⟨⟨e, s₁⟩, htake, h⟩ := Except.bind_eq_ok.1 h
    simp only [pure, Except.pure, Except.ok.injEq, Prod.mk.injEq] at h
    obtain ⟨rfl, rfl⟩ := h
    exact Mirrored.single (refinements_of_take htake) (mirrors_of_build (take_eq_ok htake).1)
  | reify d =>
    obtain ⟨⟨e, s₁⟩, htake, h⟩ := Except.bind_eq_ok.1 h
    simp only [pure, Except.pure, Except.ok.injEq, Prod.mk.injEq] at h
    obtain ⟨rfl, rfl⟩ := h
    exact Mirrored.single (refinements_of_take htake) (mirrors_of_reify (take_eq_ok htake).1)

/-- The entries of declarations are mirrored in order. -/
theorem mirrored_of_planFrom {ds : List Declaration} {entries : List PlanEntry}
    (h : planFrom s number ds = .ok (entries, s')) : s.Mirrored entries s' := by
  induction ds generalizing s number entries with
  | nil =>
    simp only [planFrom, Except.ok.injEq, Prod.mk.injEq] at h
    obtain ⟨rfl, rfl⟩ := h
    exact .nil s
  | cons d rest ih =>
    rw [planFrom] at h
    obtain ⟨⟨first, s₁⟩, hfirst, h⟩ := Except.bind_eq_ok.1 h
    obtain ⟨⟨more, s₂⟩, hmore, h⟩ := Except.bind_eq_ok.1 h
    simp only [pure, Except.pure, Except.ok.injEq, Prod.mk.injEq] at h
    obtain ⟨rfl, rfl⟩ := h
    exact (mirrored_of_planDeclaration hfirst).append (ih hmore)

end PlanState

/-- The refinements of a plan mirror its entries: they fall into groups, one for each entry and in
their order. A group holds one request for each refining call in the expression of its entry, with
the base and the predicate of the call, and no other; and these are the predicates in the hint,
outside of erased arguments. -/
theorem plan_refinements {r r' : Registry} {declarations : List Declaration} {p : Plan}
    (h : plan r declarations = .ok (p, r')) :
    ∃ groups : List (List RefinementRequest), p.refinements = groups.flatten ∧
      List.Forall₂ PlanEntry.MirroredBy p.entries groups := by
  unfold plan at h
  obtain ⟨⟨entries, s⟩, hentries, h⟩ := Except.bind_eq_ok.1 h
  simp only [pure, Except.pure, Except.ok.injEq, Prod.mk.injEq] at h
  obtain ⟨rfl, rfl⟩ := h
  obtain ⟨groups, hgroups, hmirrored⟩ := PlanState.mirrored_of_planFrom hentries
  exact ⟨groups, by simpa using hgroups, hmirrored⟩

/-- Numbers that a predicate narrows. -/
def narrowed (predicate : String) : StaticType :=
  .intersection [.marker predicate none, .primitive "int" none] none

/-- A type that may be a narrowed number or absent; a function whose parameters are a function of
narrowed numbers, a number narrowed twice, and the type with an argument that is erased; a model. -/
def narrowingDeclarations : List Declaration :=
  [.type ⟨"Size", .nullable (.union [narrowed "positive", .primitive "str" none] none) none, false,
      true, none⟩,
    .function ⟨"f", [⟨"g", some (.function (some [narrowed "even"]) (narrowed "odd") none),
        .positional, none⟩,
      ⟨"n", some (.intersection [narrowed "small", .marker "prime" none] none), .variadic, none⟩,
      ⟨"size", some (.reference "Size" [narrowed "lost"] none), .positional, none⟩], none⟩,
    .reify ⟨"Model", narrowed "perfect", none⟩]

/-- All predicates but the one in the erased argument are requested, that of a result before that of
a parameter and that of a base before what narrows it further. -/
theorem plan_refinements_narrowing : ∃ p r,
    plan (Registry.ofModule [] []) narrowingDeclarations = .ok (p, r) ∧
    (∃ groups : List (List RefinementRequest), p.refinements = groups.flatten ∧
      List.Forall₂ PlanEntry.MirroredBy p.entries groups) ∧
    p.refinements.map (·.predicate) = ["positive", "odd", "even", "small", "prime", "perfect"] ∧
    p.entries.map (fun entry => entry.expr.refinementCalls.length) = [1, 2, 2, 0, 1] := by
  have hplan : ∃ p r, plan (Registry.ofModule [] []) narrowingDeclarations = .ok (p, r) ∧
      p.refinements.map (·.predicate) = ["positive", "odd", "even", "small", "prime", "perfect"] ∧
      p.entries.map (fun entry => entry.expr.refinementCalls.length) = [1, 2, 2, 0, 1] :=
    ⟨_, _, rfl, rfl, rfl⟩
  obtain ⟨p, r, hplan, hpredicates, hcalls⟩ := hplan
  exact ⟨p, r, hplan, plan_refinements hplan, hpredicates, hcalls⟩

end Typeward
