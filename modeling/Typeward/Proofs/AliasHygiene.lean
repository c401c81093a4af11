import Typeward.Proofs.Allocation
import Typeward.Proofs.Captures
import Typeward.Proofs.KnownNames
import Typeward.Proofs.LoweredNames
import Typeward.Proofs.ReservedNames
import Typeward.Proofs.SplicedNames

/-!
# The alias of the runtime library

The alias is none of the reserved names, and these are all names that stand in the module. What a
plan reads is declared or bound in the module or builtin, so it does not start with the alias, and
what splicing binds stands in the module already. In the compiled module the alias means the library
and nothing else.
-/

namespace Typeward

open Registry

/-- A name that starts otherwise than the candidates for the preferred alias is none of them. -/
theorem ne_candidate {x : String} (hwhole : x ≠ "t") (hstart : x.toList.take 2 ≠ ['t', '_'])
    (i : Nat) : x ≠ candidate "t" i := by
  cases i with
  | zero => exact hwhole
  | succ i =>
    rintro rfl
    simp [candidate] at hstart

/-- No builtin class starts like a candidate for the preferred alias. -/
theorem rootOf_ne_candidate {n : String} (hn : n ∈ builtinClasses) (i : Nat) :
    rootOf n ≠ candidate "t" i := by
  have hstart : ∀ n ∈ builtinClasses, n ≠ "t" ∧ n.toList.take 2 ≠ ['t', '_'] := by
    decide +kernel
  obtain ⟨hwhole, hnumbered⟩ := hstart n hn
  rw [rootOf_builtinClass hn]
  exact ne_candidate hwhole hnumbered i

/-- No module that exports special forms is called like a candidate for the preferred alias. -/
theorem candidate_not_mem_specialModules (i : Nat) : candidate "t" i ∉ specialModules := by
  have hstart : ∀ x ∈ specialModules, x ≠ "t" ∧ x.toList.take 2 ≠ ['t', '_'] := by decide
  intro hi
  obtain ⟨hwhole, hnumbered⟩ := hstart _ hi
  exact ne_candidate hwhole hnumbered i rfl

/-- What an emitter is given as its alias is its alias, unless it is empty. -/
theorem Emitter.runtime_ofOptions {options : Options} {runtime : String} (h : runtime ≠ "") :
    (Emitter.ofOptions options (some runtime)).runtime = runtime := by
  unfold ofOptions
  split
  · rename_i heq
    simp at heq
  · rename_i heq
    exact absurd (Option.some.inj heq) h
  · rename_i heq
    exact (Option.some.inj heq).symm

/-- No candidate for a name is empty if the name is not. -/
theorem candidate_ne_empty {preferred : String} (h : preferred ≠ "") (i : Nat) :
    candidate preferred i ≠ "" := by
  cases i with
  | zero => exact h
  | succ i =>
    intro heq
    have hlist := congrArg String.toList heq
    simp [candidate] at hlist

/-- The alias of the runtime library is a candidate for the preferred one, and stands nowhere in the
module that it is allocated for. -/
theorem runtime_spec {tree : Module} {file : String} {options : Options} {runtime : String}
    {r : Registry}
    (h : (Registry.ofModule (Scope.ofModule file tree).bindings
      (Scope.ofModule file tree).reserved).allocate options.runtimeAlias = (runtime, r)) :
    (∃ i, (Emitter.ofOptions options (some runtime)).runtime = candidate options.runtimeAlias i) ∧
      ¬ tree.Mentions (Emitter.ofOptions options (some runtime)).runtime := by
  obtain ⟨hfree, ⟨i, hcandidate⟩, -, -⟩ := allocate_spec rfl h
  have hruntime : (Emitter.ofOptions options (some runtime)).runtime = runtime := by
    by_cases hempty : runtime = ""
    · -- Only the empty alias has an empty candidate, and it stands for itself.
      subst hempty
      by_contra halias
      exact candidate_ne_empty halias i hcandidate.symm
    · exact Emitter.runtime_ofOptions hempty
  rw [hruntime]
  exact ⟨⟨i, hcandidate⟩, fun hmentions =>
    hfree (List.mem_append_left _ (Scope.mem_reserved_ofModule hmentions))⟩

/-- The names that are bound in the registry of a module are reserved in its scope. -/
theorem binding_mem_reserved {file x : String} {m : Module}
    (hx : x ∈ (Registry.ofModule (Scope.ofModule file m).bindings
      (Scope.ofModule file m).reserved).bindings.map (·.name)) :
    x ∈ (Scope.ofModule file m).reserved := by
  have hall (bs old : List Binding) : ∀ b ∈ bs.foldl putBinding old, b ∈ bs ∨ b ∈ old := by
    induction bs generalizing old with
    | nil => simp
    | cons b rest ih =>
      intro b' hb'
      rcases ih _ b' hb' with hb' | hb'
      · exact .inl (List.mem_cons_of_mem _ hb')
      · rcases mem_putBinding hb' with rfl | hb'
        · exact .inl List.mem_cons_self
        · exact .inr hb'
  obtain ⟨b, hb, rfl⟩ := List.mem_map.1 hx
  rcases hall _ _ b hb with hb | hb
  · exact Scope.binding_mem_reserved_ofModule hb
  · simp at hb

/-- With the usual preferred alias, the alias of the runtime library stands nowhere in a module that
compiles, no reference in the plan starts with it, and nothing in the compiled module binds it but
the import of the library, if there is one. A reference to a declared type has the name of the type,
which is an identifier. -/
theorem alias_hygienic {tree : Module} {file : String} {comments : List (Nat × String)}
    {options : Options} {lowered : Lowered} {c : CompiledTree}
    (halias : options.runtimeAlias = ({} : Options).runtimeAlias)
    (hlower : lowerTree tree file comments options = .ok lowered)
    (hcompile : compileLowered options lowered = .ok c) :
    ¬ tree.Mentions c.runtime ∧
      (∀ entry ∈ c.plan.entries, ∀ n, entry.expr.Reads n → (tree.Mentions n → rootOf n = n) →
        rootOf n ≠ c.runtime) ∧
      ∃ m : Module, ¬ m.Binds c.runtime ∧
        (c.spliced.emitted = [] ∧ c.spliced.tree = m ∨
          c.spliced.tree = insertImport (runtimeImport c.runtime options.runtimeModule) m) := by
  obtain ⟨runtime, r, r', hallocate, hplan, hsplice, hruntime⟩ := compileLowered_eq_ok hcompile
  have hscope : lowered.scope = Scope.ofModule file tree := by
    unfold lowerTree at hlower
    obtain ⟨⟨tree', s⟩, -, h⟩ := Except.bind_eq_ok.1 hlower
    obtain rfl := Except.ok.inj h
    rfl
  obtain ⟨hfree, ⟨i, hcandidate⟩, hentries, hbindings⟩ := allocate_spec rfl hallocate
  rw [halias] at hcandidate
  have hname : c.runtime = runtime := by
    rw [hruntime]
    refine Emitter.runtime_ofOptions ?_
    rw [hcandidate]
    exact candidate_ne_empty (by decide) i
  have hreserved : c.runtime ∉ (Scope.ofModule file tree).reserved := by
    intro hmem
    refine hfree (List.mem_append_left _ ?_)
    rw [← hname, hscope]
    exact hmem
  have hmention : ¬ tree.Mentions c.runtime :=
    fun hx => hreserved (Scope.mem_reserved_ofModule hx)
  have hdeclared {d : Declaration} {n : String} (hd : d ∈ lowered.declarations)
      (hn : d.bound? = some n) : tree.Mentions n :=
    (Lower.binds_of_mem_declarations hlower hd hn).mentions
  have hclosed : r.Closed := by
    intro entry hentry
    rw [hentries] at hentry
    exact absurd hentry List.not_mem_nil
  obtain ⟨hextends, hknown⟩ := (planRun_of_plan hplan).known hclosed
  refine ⟨hmention, ?_, ?_⟩
  · intro entry hentry n hreads hidentifier
    rcases (hknown entry hentry).1 n hreads with hn | hn | hn
    · rcases hextends.added n hn with hn | ⟨d, hd, hn⟩
      · rw [hentries] at hn
        exact absurd hn List.not_mem_nil
      · intro heq
        have hmentions := hdeclared hd hn
        rw [hidentifier hmentions] at heq
        exact hmention (heq ▸ hmentions)
    · rw [hextends.bindings, hbindings, hscope] at hn
      intro heq
      exact hreserved (heq ▸ binding_mem_reserved hn)
    · rw [hname, hcandidate]
      exact rootOf_ne_candidate hn i
  · obtain ⟨m, hbinds, hspliced⟩ := exists_binds_of_splice hsplice
    rw [← hruntime] at hspliced
    refine ⟨m, fun hx => ?_, hspliced⟩
    rcases hbinds _ hx with hx | ⟨entry, hentry, hmode, hlabel⟩
    · exact hmention (Lower.mentions_of_lowerTree hlower hx)
    · obtain ⟨d, hd, heq⟩ := (hknown entry hentry).2 hmode
      exact hmention (hdeclared hd (heq.symm.trans hlabel))

/-- What is known of the names in a module whose class has the preferred alias as its name. -/
def clashScope : Scope :=
  { bindings := [⟨"t", .ofClass, some ⟨1, 1, some "m.py"⟩⟩], shadowed := ["f", "t"],
    reserved := ["x", "f", "t"] }

/-- The hint denotes the class. -/
theorem denote_clash : (⟨clashScope, "m.py", none⟩ : HintContext).denote (.name ⟨2, 14⟩ "t") =
    .ok (.reference "t" [] (some ⟨2, 15, some "m.py"⟩)) :=
  HintContext.denote_of_form_done (by with_unfolding_all rfl)

/-- The module compiles, with one reference in its plan. -/
theorem compile_clash :
    ∃ c, compileLowered {} (classModule "t" "x" clashScope) = .ok c ∧ c.runtime = "t_1" ∧
      c.spliced.emitted ≠ [] ∧ ∃ entry ∈ c.plan.entries, entry.expr = classCheck "t" :=
  ⟨_, rfl, rfl, List.cons_ne_nil _ _, _, List.mem_cons_self, rfl⟩

/-- Next to a class with the preferred alias as its name the library gets another alias. -/
theorem alias_hygienic_clash :
    ∃ c, lowerTree (classTree "t" "x") "m.py" [] {} = .ok (classModule "t" "x" clashScope) ∧
      compileLowered {} (classModule "t" "x" clashScope) = .ok c ∧ c.runtime = "t_1" ∧
      ¬ (classTree "t" "x").Mentions c.runtime ∧
      (∃ entry ∈ c.plan.entries, entry.expr.Reads "t" ∧ rootOf "t" ≠ c.runtime) ∧
      ∃ m : Module, ¬ m.Binds c.runtime ∧
        c.spliced.tree = insertImport (runtimeImport "t_1" "typecomb.runtime") m := by
  have hscope : Scope.ofModule "m.py" (classTree "t" "x") = clashScope := by
    with_unfolding_all rfl
  have hlower := lowerTree_classTree hscope denote_clash
  obtain ⟨c, hcompile, hruntime, hemitted, entry, hentry, hexpr⟩ := compile_clash
  obtain ⟨hmention, hreads, m, hbinds, hspliced⟩ := alias_hygienic rfl hlower hcompile
  refine ⟨c, hlower, hcompile, hruntime, hmention, ⟨entry, hentry, ?_⟩, m, hbinds, ?_⟩
  · have hread : entry.expr.Reads "t" := hexpr ▸ .call List.mem_cons_self .name
    exact ⟨hread, hreads entry hentry "t" hread fun _ => by decide⟩
  · rcases hspliced with ⟨hnone, -⟩ | hspliced
    · exact absurd hnone hemitted
    · rwa [hruntime] at hspliced

end Typeward
