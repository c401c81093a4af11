import Mathlib.Data.List.Induction
import Mathlib.Data.List.Nodup
import Typeward.ImportHook

/-!
# The bookkeeping of finders

Finders are installed and removed in any order, and two lists are kept of them: the search path, in
which the latest stands first, and the list of the installed ones, in which it stands last. One
invariant ties the two together. From it follows which finder compiles a module: the latest one that
is still installed and is for a package around the module.
-/

namespace Typeward

/-- A name is its parts with dots between them. -/
theorem intercalate_nameParts (name : String) : ".".intercalate (nameParts name) = name := by
  have hne : ∀ part cs, namePartsFrom part cs ≠ [] := by
    intro part cs
    induction cs generalizing part with
    | nil => simp [namePartsFrom]
    | cons c rest ih =>
      rw [namePartsFrom]
      split
      · simp
      · exact ih _
  have hfrom : ∀ part cs, (".".intercalate (namePartsFrom part cs)).toList = part.reverse ++ cs := by
    intro part cs
    induction cs generalizing part with
    | nil => simp [namePartsFrom]
    | cons c rest ih =>
      rw [namePartsFrom]
      split
      · rename_i hdot
        rw [String.intercalate_cons_of_ne_nil (hne _ _), String.toList_append, ih, hdot]
        simp
      · rw [ih]
        simp
  have h := hfrom [] name.toList
  rw [List.reverse_nil, List.nil_append] at h
  exact String.toList_inj.1 h

/-- The parts of a name with a dot in it are those on its left and those on its right. -/
theorem namePartsFrom_append (part cs rest : List Char) :
    namePartsFrom part (cs ++ '.' :: rest) = namePartsFrom part cs ++ namePartsFrom [] rest := by
  induction cs generalizing part with
  | nil => simp [namePartsFrom]
  | cons c cs ih =>
    rw [List.cons_append, namePartsFrom, namePartsFrom]
    split
    · rw [ih, List.cons_append]
    · exact ih _

/-- A name is that of a package or of something in it just when the parts of the package are the
first ones of the name. -/
theorem nameParts_prefix_iff (package name : String) :
    nameParts package <+: nameParts name ↔ name = package ∨ (package ++ ".").toList <+: name.toList := by
  constructor
  · rintro ⟨more, hmore⟩
    rcases eq_or_ne more [] with rfl | hne
    · refine .inl ?_
      rw [← intercalate_nameParts name, ← hmore, List.append_nil, intercalate_nameParts]
    · refine .inr ?_
      have hpackage : nameParts package ≠ [] := by
        intro hnil
        have hempty := intercalate_nameParts package
        rw [hnil] at hempty
        subst hempty
        exact absurd hnil (by decide)
      have hname : name = (package ++ ".") ++ ".".intercalate more := by
        rw [← intercalate_nameParts name, ← hmore,
          String.intercalate_append_of_ne_nil hpackage hne, intercalate_nameParts]
      have htext : name.toList = (package ++ ".").toList ++ (".".intercalate more).toList := by
        rw [← String.toList_append, ← hname]
      exact htext ▸ List.prefix_append _ _
  · rintro (rfl | ⟨rest, hrest⟩)
    · exact List.prefix_refl _
    · refine ⟨namePartsFrom [] rest, ?_⟩
      rw [nameParts, nameParts, ← hrest, String.toList_append, List.append_assoc]
      exact (namePartsFrom_append [] package.toList rest).symm

/-- A finder is for a module: the parts of one of its packages are the first ones of the name. -/
def Finder.Covers (f : Finder) (name : String) : Prop :=
  ∃ package ∈ f.packages, nameParts package <+: nameParts name

/-- A finder selects the modules that it is for. -/
theorem Finder.selects_iff (f : Finder) (name : String) : f.selects name = true ↔ f.Covers name := by
  simp only [selects, Covers, List.any_eq_true, Bool.or_eq_true, decide_eq_true_eq,
    String.startsWith_string_iff, nameParts_prefix_iff]

namespace Hook

/-- What a program does with finders. -/
inductive Action where
  | install (f : Finder)
  /-- Removes the finder with a number, or all finders. -/
  | uninstall (number : Option Nat)

/-- The finders after an action. -/
def act (h : Hook) : Action → Hook
  | .install f => h.install f
  | .uninstall number => h.uninstall number

/-- The finders after actions that start from a search path of other searchers. -/
def after (others : List String) (actions : List Action) : Hook :=
  actions.foldl act { path := others.map .other }

/-- The finders that actions install, in order. -/
def installs (actions : List Action) : List Finder :=
  actions.filterMap fun a =>
    match a with
    | .install f => some f
    | .uninstall _ => none

/-- A finder with a number is installed by actions, and not removed by a later one, neither alone nor
with all others. -/
def Live (actions : List Action) (number : Nat) (f : Finder) : Prop :=
  ∃ before later, actions = before ++ .install f :: later ∧ (installs before).length = number ∧
    .uninstall none ∉ later ∧ .uninstall (some number) ∉ later

/-- The two lists agree: the installed finders stand in front of the search path, the latest first,
and behind them the other searchers, as they were. Every installed finder has a number of its own,
in the order of installation. -/
structure Consistent (h : Hook) (others : List String) : Prop where
  path : h.path = h.installed.reverse.map .finder ++ others.map .other
  increasing : h.installed.Pairwise (· < ·)
  numbered : ∀ n ∈ h.installed, n < h.finders.length

variable {h : Hook} {others : List String}

/-- Without finders the lists agree. -/
theorem consistent_empty (others : List String) :
    Consistent { path := others.map .other } others :=
  ⟨rfl, .nil, nofun⟩

/-- Installing a finder keeps the lists in agreement. -/
theorem Consistent.install (hc : h.Consistent others) (f : Finder) :
    (h.install f).Consistent others := by
  refine ⟨?_, ?_, fun n hn => ?_⟩
  · simp [Hook.install, hc.path]
  · refine List.pairwise_append.2 ⟨hc.increasing, List.pairwise_singleton _ _, fun n hn m hm => ?_⟩
    rw [List.mem_singleton.1 hm]
    exact hc.numbered n hn
  · simp only [Hook.install, List.mem_append, List.mem_singleton, List.length_append,
      List.length_singleton] at hn ⊢
    rcases hn with hn | rfl
    · have := hc.numbered n hn
      omega
    · omega

/-- An installed finder is installed once. -/
theorem Consistent.nodup (hc : h.Consistent others) : h.installed.Nodup :=
  hc.increasing.imp Nat.ne_of_lt

/-- What stands on the path for a finder is removed with it, and nothing else. -/
theorem Consistent.erase_path (hc : h.Consistent others) (number : Nat) :
    h.path.erase (.finder number) =
      (h.installed.erase number).reverse.map .finder ++ others.map .other := by
  have hothers : Searcher.finder number ∉ others.map .other := by simp
  have hinjective : Function.Injective Searcher.finder := fun _ _ heq => Searcher.finder.inj heq
  have hreverse : h.installed.reverse.erase number = (h.installed.erase number).reverse := by
    have hnodup := List.nodup_reverse.2 hc.nodup
    rw [hnodup.erase_eq_filter, hc.nodup.erase_eq_filter, List.filter_reverse]
  rw [hc.path]
  by_cases hmem : Searcher.finder number ∈ h.installed.reverse.map .finder
  · rw [List.erase_append_left _ hmem, ← List.map_erase hinjective, hreverse]
  · have hnot : number ∉ h.installed := by simpa using hmem
    rw [List.erase_append_right _ hmem, List.erase_of_not_mem hothers,
      List.erase_of_not_mem hnot]

/-- Removing a finder keeps the lists in agreement, whether it is installed or not. -/
theorem Consistent.remove (hc : h.Consistent others) (number : Nat) :
    (h.remove number).Consistent others :=
  ⟨hc.erase_path number, hc.increasing.sublist List.erase_sublist,
    fun n hn => hc.numbered n (List.mem_of_mem_erase hn)⟩

/-- Removing finders one after the other keeps the lists in agreement, takes these finders away and
leaves the rest. -/
theorem Consistent.foldl_remove (hc : h.Consistent others) (numbers : List Nat) :
    (numbers.foldl Hook.remove h).Consistent others ∧
      (numbers.foldl Hook.remove h).finders = h.finders ∧
      ∀ n, n ∈ (numbers.foldl Hook.remove h).installed ↔ n ∈ h.installed ∧ n ∉ numbers := by
  induction numbers generalizing h with
  | nil => exact ⟨hc, rfl, by simp⟩
  | cons number rest ih =>
    obtain ⟨hconsistent, hfinders, hmem⟩ := ih (hc.remove number)
    refine ⟨hconsistent, hfinders, fun n => (hmem n).trans ?_⟩
    rw [Hook.remove, hc.nodup.mem_erase_iff, List.mem_cons]
    tauto

/-- Removing one finder or all of them keeps the lists in agreement and takes away what it should. -/
theorem Consistent.uninstall (hc : h.Consistent others) (target : Option Nat) :
    (h.uninstall target).Consistent others ∧ (h.uninstall target).finders = h.finders ∧
      ∀ n, n ∈ (h.uninstall target).installed ↔
        n ∈ h.installed ∧ target ≠ none ∧ target ≠ some n := by
  cases target with
  | some number =>
    refine ⟨hc.remove number, rfl, fun n => ?_⟩
    simp only [Hook.uninstall, Hook.remove, hc.nodup.mem_erase_iff]
    simp [and_comm, eq_comm]
  | none =>
    obtain ⟨hconsistent, hfinders, hmem⟩ := hc.foldl_remove h.installed
    exact ⟨hconsistent, hfinders, fun n => (hmem n).trans (by simp)⟩

/-- One more action installs a finder with the next number, or removes finders. -/
theorem live_concat_install {actions : List Action} {f g : Finder} {n : Nat} :
    Live (actions ++ [.install g]) n f ↔
      Live actions n f ∨ n = (installs actions).length ∧ f = g := by
  constructor
  · rintro ⟨before, later, heq, hnumber, hall, hone⟩
    rcases List.eq_nil_or_concat later with rfl | ⟨later, a, rfl⟩
    · obtain ⟨rfl, hlast⟩ := List.append_inj' heq rfl
      exact .inr ⟨hnumber.symm, (Action.install.inj (List.singleton_inj.1 hlast)).symm⟩
    · rw [List.concat_eq_append, ← List.cons_append, ← List.append_assoc] at heq
      obtain ⟨rfl, -⟩ := List.append_inj' heq rfl
      refine .inl ⟨before, later, rfl, hnumber, fun hmem => hall ?_, fun hmem => hone ?_⟩
      all_goals simp [hmem]
  · rintro (⟨before, later, rfl, hnumber, hall, hone⟩ | ⟨rfl, rfl⟩)
    · exact ⟨before, later ++ [.install g], by simp, hnumber, by simp [hall], by simp [hone]⟩
    · exact ⟨actions, [], rfl, rfl, by simp, by simp⟩

/-- A removal leaves the finders live that it is not about. -/
theorem live_concat_uninstall {actions : List Action} {f : Finder} {n : Nat} {target : Option Nat} :
    Live (actions ++ [.uninstall target]) n f ↔
      Live actions n f ∧ target ≠ none ∧ target ≠ some n := by
  constructor
  · rintro ⟨before, later, heq, hnumber, hall, hone⟩
    rcases List.eq_nil_or_concat later with rfl | ⟨later, a, rfl⟩
    · obtain ⟨-, hlast⟩ := List.append_inj' heq rfl
      exact absurd (List.singleton_inj.1 hlast) nofun
    · rw [List.concat_eq_append, ← List.cons_append, ← List.append_assoc] at heq
      obtain ⟨rfl, hlast⟩ := List.append_inj' heq rfl
      obtain rfl := List.singleton_inj.1 hlast
      simp only [List.concat_eq_append, List.mem_append, List.mem_singleton, not_or] at hall hone
      refine ⟨⟨before, later, rfl, hnumber, hall.1, hone.1⟩, fun htarget => ?_, fun htarget => ?_⟩
      · exact hall.2 (by rw [htarget])
      · exact hone.2 (by rw [htarget])
  · rintro ⟨⟨before, later, rfl, hnumber, hall, hone⟩, hnone, hsome⟩
    refine ⟨before, later ++ [.uninstall target], by simp, hnumber, ?_, ?_⟩
    · simp [hall, hnone.symm]
    · simp [hone, hsome.symm]

/-- After any actions the lists agree, and the installed finders are the live ones. -/
theorem after_spec (others : List String) (actions : List Action) :
    (after others actions).Consistent others ∧
      (after others actions).finders = installs actions ∧
      ∀ n f, Live actions n f ↔ n ∈ (after others actions).installed ∧
        (after others actions).finders[n]? = some f := by
  induction actions using List.reverseRecOn with
  | nil => exact ⟨consistent_empty others, rfl, by simp [Live, after]⟩
  | append_singleton actions a ih =>
    obtain ⟨hconsistent, hfinders, hlive⟩ := ih
    have hstep : after others (actions ++ [a]) = (after others actions).act a := by
      simp [after]
    rw [hstep]
    cases a with
    | install g =>
      have hinstalls : installs (actions ++ [.install g]) = installs actions ++ [g] := by
        simp [installs]
      refine ⟨hconsistent.install g, by rw [hinstalls, ← hfinders]; rfl, fun n f => ?_⟩
      rw [live_concat_install, hlive, ← hfinders]
      simp only [act, install, List.mem_append, List.mem_singleton]
      constructor
      · rintro (⟨hn, hf⟩ | ⟨rfl, rfl⟩)
        · refine ⟨.inl hn, ?_⟩
          rw [List.getElem?_append_left (hconsistent.numbered n hn), hf]
        · exact ⟨.inr rfl, by simp⟩
      · rintro ⟨hn | rfl, hf⟩
        · rw [List.getElem?_append_left (hconsistent.numbered n hn)] at hf
          exact .inl ⟨hn, hf⟩
        · exact .inr ⟨rfl, by simpa [eq_comm] using hf⟩
    | uninstall target =>
      have hinstalls : installs (actions ++ [.uninstall target]) = installs actions := by
        simp [installs]
      obtain ⟨hconsistent', hfinders', hmem⟩ := hconsistent.uninstall target
      refine ⟨hconsistent', by rw [hinstalls, ← hfinders]; exact hfinders', fun n f => ?_⟩
      rw [live_concat_uninstall, hlive, act, hmem, hfinders']
      tauto

/-- The finders are asked in the order of the path. -/
theorem Consistent.order_eq (hc : h.Consistent others) : h.order = h.installed.reverse := by
  rw [order, hc.path, List.filterMap_append, List.filterMap_map, List.filterMap_map]
  simp

variable {files : Files} {name path : String} {bytes : List UInt8}

/-- The first finder that is for a module whose source is found compiles it. -/
theorem loadFrom_of_covers {number : Nat} {f : Finder} {before behind : List Nat}
    (hsource : findModule files name = .ok (some (.source path bytes)))
    (hf : h.finders[number]? = some f) (hcovers : f.Covers name)
    (hbefore : ∀ n ∈ before, ∀ g, h.finders[n]? = some g → ¬ g.Covers name) :
    h.loadFrom files name (before ++ number :: behind) =
      (compileModule f.options path bytes).map fun code => some ⟨number, some code⟩ := by
  induction before with
  | nil =>
    rw [List.nil_append, loadFrom, hf]
    simp only [(f.selects_iff name).2 hcovers, if_true, hsource]
    cases hcode : compileModule f.options path bytes with
    | error e => simp only [bind, Except.bind, hcode, Except.map]
    | ok code => simp only [bind, Except.bind, pure, Except.pure, hcode, Except.map]
  | cons n rest ih =>
    have hrest := ih fun m hm => hbefore m (List.mem_cons_of_mem _ hm)
    rw [List.cons_append, loadFrom]
    cases hg : h.finders[n]? with
    | none => exact hrest
    | some g =>
      have hnot : g.selects name = false :=
        Bool.eq_false_iff.2 fun hselects =>
          hbefore n List.mem_cons_self g hg ((g.selects_iff name).1 hselects)
      simp only [hnot, Bool.false_eq_true, if_false]
      exact hrest

/-- A module that no finder is for is loaded by none. -/
theorem loadFrom_of_not_covers {numbers : List Nat}
    (hnone : ∀ n ∈ numbers, ∀ g, h.finders[n]? = some g → ¬ g.Covers name) :
    h.loadFrom files name numbers = .ok none := by
  induction numbers with
  | nil => rfl
  | cons n rest ih =>
    have hrest := ih fun m hm => hnone m (List.mem_cons_of_mem _ hm)
    rw [loadFrom]
    cases hg : h.finders[n]? with
    | none => exact hrest
    | some g =>
      have hnot : g.selects name = false :=
        Bool.eq_false_iff.2 fun hselects =>
          hnone n List.mem_cons_self g hg ((g.selects_iff name).1 hselects)
      simp only [hnot, Bool.false_eq_true, if_false]
      exact hrest

/-- After any actions of installing and removing finders, the finders on the search path are the
installed ones that have not been removed, each once and the latest first, and behind them stand the
other searchers as they stood before. A module whose source is found is compiled if some installed
finder is for a package around it, and then with the options of the latest such finder; otherwise no
finder knows it. -/
theorem finders_bookkept (others : List String) (actions : List Action) :
    (after others actions).path =
        (after others actions).installed.reverse.map .finder ++ others.map .other ∧
      (after others actions).order = (after others actions).installed.reverse ∧
      (after others actions).installed.Pairwise (· < ·) ∧
      (∀ n, n ∈ (after others actions).installed ↔ ∃ f, Live actions n f) ∧
      ∀ files name path bytes, findModule files name = .ok (some (.source path bytes)) →
        ((∃ n f, Live actions n f ∧ f.Covers name) → ∃ n f, Live actions n f ∧ f.Covers name ∧
          (∀ m g, Live actions m g → g.Covers name → m ≤ n) ∧
          (after others actions).load files name =
            (compileModule f.options path bytes).map fun code => some ⟨n, some code⟩) ∧
        ((¬ ∃ n f, Live actions n f ∧ f.Covers name) →
          (after others actions).load files name = .ok none) := by
  classical
  obtain ⟨hconsistent, -, hlive⟩ := after_spec others actions
  have hfinder : ∀ n ∈ (after others actions).installed,
      ∃ f, (after others actions).finders[n]? = some f := fun n hn =>
    ⟨_, List.getElem?_eq_getElem (hconsistent.numbered n hn)⟩
  refine ⟨hconsistent.path, hconsistent.order_eq, hconsistent.increasing, fun n => ?_, ?_⟩
  · constructor
    · intro hn
      obtain ⟨f, hf⟩ := hfinder n hn
      exact ⟨f, (hlive n f).2 ⟨hn, hf⟩⟩
    · rintro ⟨f, hf⟩
      exact ((hlive n f).1 hf).1
  · intro files name path bytes hsource
    rw [load, hconsistent.order_eq]
    constructor
    · rintro ⟨n, f, hf, hcovers⟩
      have hsome : ((after others actions).installed.reverse.find?
          fun n => ∃ f, Live actions n f ∧ f.Covers name).isSome :=
        List.find?_isSome.2
          ⟨n, List.mem_reverse.2 ((hlive n f).1 hf).1, decide_eq_true ⟨f, hf, hcovers⟩⟩
      obtain ⟨n, hn⟩ := Option.isSome_iff_exists.1 hsome
      obtain ⟨hcovering, before, behind, heq, hbefore⟩ := List.find?_eq_some_iff_append.1 hn
      obtain ⟨f, hf, hcovers⟩ := of_decide_eq_true hcovering
      replace hbefore : ∀ m ∈ before, ¬ ∃ g, Live actions m g ∧ g.Covers name := fun m hm hg => by
        simpa [hg] using hbefore m hm
      refine ⟨n, f, hf, hcovers, fun m g hg hcovers' => ?_, ?_⟩
      · have hm : m ∈ before ++ n :: behind := heq ▸ List.mem_reverse.2 ((hlive m g).1 hg).1
        have hdecreasing : (before ++ n :: behind).Pairwise (· > ·) :=
          heq ▸ List.pairwise_reverse.2 hconsistent.increasing
        rcases List.mem_append.1 hm with hm | hm
        · exact absurd ⟨g, hg, hcovers'⟩ (hbefore m hm)
        · rcases List.mem_cons.1 hm with rfl | hm
          · exact Nat.le_refl m
          · have hrest := (List.pairwise_append.1 hdecreasing).2.1
            exact Nat.le_of_lt ((List.pairwise_cons.1 hrest).1 m hm)
      · rw [heq]
        refine loadFrom_of_covers hsource ((hlive n f).1 hf).2 hcovers fun m hm g hg hcovers' => ?_
        have hinstalled : m ∈ (after others actions).installed :=
          List.mem_reverse.1 (heq ▸ List.mem_append_left _ hm)
        exact hbefore m hm ⟨g, (hlive m g).2 ⟨hinstalled, hg⟩, hcovers'⟩
    · intro hnone
      refine loadFrom_of_not_covers fun n hn g hg hcovers => hnone ⟨n, g, ?_, hcovers⟩
      exact (hlive n g).2 ⟨List.mem_reverse.1 hn, hg⟩

/-- A module of a package that two finders are for is compiled with the options of the one that stays
when the other is removed. -/
theorem remaining_finder_compiles :
    (after ["frozen"] [.install ⟨["app"], {}⟩, .install ⟨["app.models"], { skipAsserts := true }⟩,
        .uninstall (some 1)]).load [("app/models.py", [120])] "app.models" =
      (compileModule {} "app/models.py" [120]).map fun code => some ⟨0, some code⟩ := by
  have hplace : modulePlace "app.models" = ("app", "models") := by decide +kernel
  have hpackage : findAt? [("app/models.py", [120])] "app/models/__init__" = none := by
    decide +kernel
  have hfile : findAt? [("app/models.py", [120])] "app/models" =
      some (.source "app/models.py" [120]) := by
    simp +decide [findAt?, Files.content?]
  have hsource : findModule [("app/models.py", [120])] "app.models" =
      .ok (some (.source "app/models.py" [120])) := by
    simp +decide [findModule, hplace, hpackage, hfile, Files.join, Files.isDirectory]
  obtain ⟨-, -, -, hinstalled, hload⟩ := finders_bookkept ["frozen"] [.install ⟨["app"], {}⟩,
    .install ⟨["app.models"], { skipAsserts := true }⟩, .uninstall (some 1)]
  have hlive := (after_spec ["frozen"] [.install ⟨["app"], {}⟩,
    .install ⟨["app.models"], { skipAsserts := true }⟩, .uninstall (some 1)]).2.2
  have happ : Finder.Covers ⟨["app"], {}⟩ "app.models" :=
    ⟨"app", by simp, (nameParts_prefix_iff _ _).2 (.inr ⟨"models".toList, by decide⟩)⟩
  obtain ⟨n, f, hf, -, -, heq⟩ := (hload _ _ _ _ hsource).1
    ⟨0, _, (hlive 0 ⟨["app"], {}⟩).2 ⟨by decide, rfl⟩, happ⟩
  obtain ⟨hn, hnumber⟩ := (hlive n f).1 hf
  obtain rfl : n = 0 := List.mem_singleton.1 hn
  obtain rfl : (⟨["app"], {}⟩ : Finder) = f := Option.some.inj hnumber
  exact heq

end Hook

end Typeward
