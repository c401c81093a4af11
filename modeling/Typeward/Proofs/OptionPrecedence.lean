import Typeward.Configuration
import Typeward.Proofs.Actions

/-!
# Option precedence

A configuration file sets options entry by entry. The first entry that offends is reported; without
one, the last entry for an option prevails over earlier ones and over the default, and the variable
of the environment prevails over all of them. `Reflects` says of the options found so far which
entries they come from: each entry keeps it, so it holds of the options of a whole table.
-/

namespace Typeward

/-- What is answered is what there is without a failure. -/
theorem Except.toOption_eq_some {ε α : Type} {x : Except ε α} {a : α} :
    x.toOption = some a ↔ x = .ok a := by
  cases x <;> simp [Except.toOption]

/-- The boolean that is set, if the setting is one. -/
def Setting.boolean? : Setting → Option Bool
  | .boolean b => some b
  | _ => none

/-- The text that is set, if the setting is one. -/
def Setting.text? : Setting → Option String
  | .text s => some s
  | _ => none

/-- Just booleans have their type. -/
theorem Setting.typeName_eq_bool {value : Setting} :
    value.typeName = "bool" ↔ ∃ b, value = .boolean b := by
  cases value <;> simp [Setting.typeName]

/-- Just texts have their type. -/
theorem Setting.typeName_eq_str {value : Setting} :
    value.typeName = "str" ↔ ∃ s, value = .text s := by
  cases value <;> simp [Setting.typeName]

namespace Options

/-- The names of the options. -/
def optionNames : List String :=
  ["skip_asserts", "runtime_module", "runtime_alias", "recursive_marker"]

/-- The type that the settings of an option have. -/
def settingType (name : String) : String :=
  if name = "skip_asserts" then "bool" else "str"

/-- What is wrong with an entry of a table: its key is the name of no option in either spelling, or
its setting has another type than the option. -/
def offence? (entry : String × Setting) : Option Cause :=
  let name := normalKey entry.1
  if name ∉ optionNames then some (.unknownOption entry.1)
  else if entry.2.typeName ≠ settingType name then
    some (.mistypedOption entry.1 (settingType name) entry.2.typeName)
  else none

/-- The setting of the last entry for an option, in either spelling. -/
def lastSetting? (name : String) (settings : List (String × Setting)) : Option Setting :=
  (settings.reverse.find? fun entry => normalKey entry.1 = name).map Prod.snd

/-- The words for true, in lower case. -/
def trueWords : List String := ["1", "true", "yes", "on"]

/-- The words for false, in lower case; no word at all is one. -/
def falseWords : List String := ["0", "false", "no", "off", ""]

/-- A word without the blanks around it, in lower case. -/
def plainWord (word : String) : String := Text.lowerCase (Text.trim word)

/-- What is wrong with the variable of the environment: it is set to text that is no boolean
word. -/
def variableOffence? (environment : List (String × String)) : Option Cause :=
  (environment.lookup skipVariable).bind fun word =>
    if plainWord word ∈ trueWords ++ falseWords then none
    else some (.mistypedVariable skipVariable word)

/-- What the environment sets, if its variable is there. -/
def variableSetting? (environment : List (String × String)) : Option Bool :=
  (environment.lookup skipVariable).map fun word => decide (plainWord word ∈ trueWords)

/-- The entries of a configuration file that can be read: those of its table of options, in their
order, and none if the file is not there. -/
def entries? : Option String → Option (List (String × Setting))
  | none => some []
  | some text => do
    let document ← (Toml.read text).toOption
    let tool ← (tableAt "tool" document).toOption
    let table ← (tableAt "typecomb" tool).toOption
    return table.map fun (key, node) => (key, .ofNode node)

/-- The last entry for an option is the new one, if that is for it. -/
theorem lastSetting?_concat (name : String) (settings : List (String × Setting))
    (entry : String × Setting) :
    lastSetting? name (settings ++ [entry]) =
      if normalKey entry.1 = name then some entry.2 else lastSetting? name settings := by
  by_cases hname : normalKey entry.1 = name <;> simp [lastSetting?, hname]

/-- The type that the settings of a known option have. -/
theorem settingType_of_known {name : String} (h : name ∈ optionNames) :
    (name = "skip_asserts" ∧ settingType name = "bool") ∨
      ((name = "runtime_module" ∨ name = "runtime_alias" ∨ name = "recursive_marker") ∧
        settingType name = "str") := by
  simp only [optionNames, List.mem_cons, List.not_mem_nil, or_false] at h
  rcases h with rfl | rfl | rfl | rfl <;> simp [settingType]

/-- An entry for a known option whose setting has another type is reported. -/
theorem set_of_mistyped (options : Options) {key : String} {value : Setting}
    (hknown : normalKey key ∈ optionNames)
    (htype : value.typeName ≠ settingType (normalKey key)) :
    options.set key value =
      .error ⟨.mistypedOption key (settingType (normalKey key)) value.typeName, none, none⟩ := by
  unfold set
  rcases settingType_of_known hknown with
    ⟨hname, hexpected⟩ | ⟨hname | hname | hname, hexpected⟩ <;>
    rw [hexpected] at htype ⊢ <;> rw [hname] <;>
    cases value <;> first | rfl | exact absurd rfl htype

/-- An entry that offends is reported. -/
theorem set_of_offence {entry : String × Setting} {cause : Cause} (options : Options)
    (h : offence? entry = some cause) :
    options.set entry.1 entry.2 = .error ⟨cause, none, none⟩ := by
  obtain ⟨key, value⟩ := entry
  by_cases hknown : normalKey key ∈ optionNames
  · by_cases htype : value.typeName = settingType (normalKey key)
    · simp [offence?, hknown, htype] at h
    · rw [set_of_mistyped options hknown htype]
      simpa [offence?, hknown, htype] using h
  · simp only [offence?, hknown, not_false_eq_true, if_true, Option.some.injEq] at h
    simp only [optionNames, List.mem_cons, List.not_mem_nil, or_false, not_or] at hknown
    obtain ⟨hskip, hmodule, halias, hmarker⟩ := hknown
    -- One case for each form of an entry: two for each name that is known.
    unfold set
    split
    · exact (hskip ‹_›).elim
    · exact (hskip ‹_›).elim
    · exact (hmodule ‹_›).elim
    · exact (hmodule ‹_›).elim
    · exact (halias ‹_›).elim
    · exact (halias ‹_›).elim
    · exact (hmarker ‹_›).elim
    · exact (hmarker ‹_›).elim
    · rw [h]

/-- The options come from the entries of a table: each is what its last entry sets, and the default
without one. -/
structure Reflects (options : Options) (settings : List (String × Setting)) : Prop where
  skipAsserts : options.skipAsserts =
    ((lastSetting? "skip_asserts" settings).bind Setting.boolean?).getD ({} : Options).skipAsserts
  runtimeModule : options.runtimeModule =
    ((lastSetting? "runtime_module" settings).bind Setting.text?).getD ({} : Options).runtimeModule
  runtimeAlias : options.runtimeAlias =
    ((lastSetting? "runtime_alias" settings).bind Setting.text?).getD ({} : Options).runtimeAlias
  recursiveMarker : options.recursiveMarker =
    ((lastSetting? "recursive_marker" settings).bind Setting.text?).getD
      ({} : Options).recursiveMarker

/-- Without entries there are the defaults. -/
theorem Reflects.nil : Reflects {} [] := ⟨rfl, rfl, rfl, rfl⟩

/-- An entry that does not offend is for an option and has its type. -/
theorem exists_setting_of_fine {key : String} {value : Setting}
    (hfine : offence? (key, value) = none) :
    (normalKey key = "skip_asserts" ∧ ∃ b, value = .boolean b) ∨
      ((normalKey key = "runtime_module" ∨ normalKey key = "runtime_alias" ∨
        normalKey key = "recursive_marker") ∧ ∃ s, value = .text s) := by
  have hknown : normalKey key ∈ optionNames := by
    by_contra hunknown
    simp [offence?, hunknown] at hfine
  have htype : value.typeName = settingType (normalKey key) := by
    by_contra hmistyped
    simp [offence?, hknown, hmistyped] at hfine
  rcases settingType_of_known hknown with ⟨hname, hexpected⟩ | ⟨hname, hexpected⟩
  · exact .inl ⟨hname, Setting.typeName_eq_bool.1 (htype.trans hexpected)⟩
  · exact .inr ⟨hname, Setting.typeName_eq_str.1 (htype.trans hexpected)⟩

/-- An entry that does not offend is taken into account, and it is the last one from then on. -/
theorem Reflects.set {options : Options} {settings : List (String × Setting)}
    {entry : String × Setting} (h : Reflects options settings) (hfine : offence? entry = none) :
    ∃ options', options.set entry.1 entry.2 = .ok options' ∧
      Reflects options' (settings ++ [entry]) := by
  obtain ⟨key, value⟩ := entry
  obtain ⟨hskip, hmodule, halias, hmarker⟩ := h
  rcases exists_setting_of_fine hfine with
    ⟨hname, b, rfl⟩ | ⟨hname | hname | hname, s, rfl⟩
  · refine ⟨{ options with skipAsserts := b }, by unfold Options.set; rw [hname]; rfl, ?_⟩
    constructor <;> simp [lastSetting?_concat, Setting.boolean?, *]
  · refine ⟨{ options with runtimeModule := s }, by unfold Options.set; rw [hname]; rfl, ?_⟩
    constructor <;> simp [lastSetting?_concat, Setting.text?, *]
  · refine ⟨{ options with runtimeAlias := s }, by unfold Options.set; rw [hname]; rfl, ?_⟩
    constructor <;> simp [lastSetting?_concat, Setting.text?, *]
  · refine ⟨{ options with recursiveMarker := s }, by unfold Options.set; rw [hname]; rfl, ?_⟩
    constructor <;> simp [lastSetting?_concat, Setting.text?, *]

/-- Entries that do not offend are taken into account one after another. -/
theorem Reflects.foldlM {options : Options} {done settings : List (String × Setting)}
    (h : Reflects options done) (hfine : ∀ entry ∈ settings, offence? entry = none) :
    ∃ options', settings.foldlM (fun options (key, value) => options.set key value) options =
        .ok options' ∧ Reflects options' (done ++ settings) := by
  induction settings generalizing options done with
  | nil => exact ⟨options, rfl, by rwa [List.append_nil]⟩
  | cons entry rest ih =>
    obtain ⟨next, hset, hnext⟩ := h.set (hfine entry List.mem_cons_self)
    obtain ⟨options', hrun, hoptions'⟩ :=
      ih hnext fun entry' h' => hfine entry' (List.mem_cons_of_mem _ h')
    rw [List.append_assoc, List.singleton_append] at hoptions'
    exact ⟨options', by rw [List.foldlM_cons]; exact Except.bind_eq_ok.2 ⟨next, hset, hrun⟩,
      hoptions'⟩

/-- A table without offences sets the options that its last entries ask for. -/
theorem ofTable_eq_ok {settings : List (String × Setting)}
    (hfine : ∀ entry ∈ settings, offence? entry = none) :
    ∃ options, ofTable settings = .ok options ∧ Reflects options settings :=
  Reflects.nil.foldlM hfine

/-- The first entry that offends is reported. -/
theorem ofTable_eq_error {before after : List (String × Setting)} {entry : String × Setting}
    {cause : Cause} (hbefore : ∀ entry ∈ before, offence? entry = none)
    (hentry : offence? entry = some cause) :
    ofTable (before ++ entry :: after) = .error ⟨cause, none, none⟩ := by
  obtain ⟨options, hoptions, -⟩ := ofTable_eq_ok hbefore
  rw [ofTable, List.foldlM_append]
  refine Except.bind_eq_error.2 (.inr ⟨options, hoptions, ?_⟩)
  rw [List.foldlM_cons]
  exact Except.bind_eq_error.2 (.inl (set_of_offence options hentry))

/-- A word stands for a boolean when it is in one of the two lists. -/
theorem booleanWord_eq (word : String) :
    booleanWord word =
      if plainWord word ∈ trueWords then some true
      else if plainWord word ∈ falseWords then some false
      else none := by
  simp only [booleanWord, List.contains_iff_mem, plainWord, trueWords, falseWords]
  congr

/-- A variable that is no boolean word is reported. -/
theorem withEnvironment_of_offence {environment : List (String × String)} {cause : Cause}
    (options : Options) (h : variableOffence? environment = some cause) :
    options.withEnvironment environment = .error ⟨cause, none, none⟩ := by
  obtain ⟨word, hword, hcause⟩ := Option.bind_eq_some_iff.1 h
  by_cases hknown : plainWord word ∈ trueWords ++ falseWords
  · simp [hknown] at hcause
  · simp only [hknown, if_false, Option.some.injEq] at hcause
    rw [List.mem_append, not_or] at hknown
    have hnone : booleanWord word = none := by
      rw [booleanWord_eq, if_neg hknown.1, if_neg hknown.2]
    simp only [withEnvironment, hword, hnone, hcause]

/-- A variable that is no offence prevails over the table, and nothing else changes. -/
theorem withEnvironment_of_fine {environment : List (String × String)} (options : Options)
    (h : variableOffence? environment = none) :
    options.withEnvironment environment = .ok { options with
      skipAsserts := (variableSetting? environment).getD options.skipAsserts } := by
  cases hword : environment.lookup skipVariable with
  | none => simp only [withEnvironment, variableSetting?, hword, Option.map_none, Option.getD_none]
  | some word =>
    have hknown : plainWord word ∈ trueWords ++ falseWords := by
      by_contra hunknown
      simp only [variableOffence?, hword, Option.bind_some, hunknown, if_false] at h
      cases h
    have hmeant : booleanWord word = some (decide (plainWord word ∈ trueWords)) := by
      rw [booleanWord_eq]
      rcases List.mem_append.1 hknown with htrue | hfalse
      · simp only [htrue, if_true, decide_true]
      · by_cases htrue : plainWord word ∈ trueWords <;> simp [htrue, hfalse]
    simp only [withEnvironment, hword, hmeant, variableSetting?, Option.map_some, Option.getD_some]

/-- Applying the environment a second time changes nothing. -/
theorem withEnvironment_idem {options applied : Options} {environment : List (String × String)}
    (h : options.withEnvironment environment = .ok applied) :
    applied.withEnvironment environment = .ok applied := by
  cases hvariable : variableOffence? environment with
  | some cause => rw [withEnvironment_of_offence options hvariable] at h; cases h
  | none =>
    rw [withEnvironment_of_fine options hvariable] at h
    rw [withEnvironment_of_fine applied hvariable, ← Except.ok.inj h]
    cases variableSetting? environment <;> rfl

/-- Loading takes the entries of the file into account, and then the environment. -/
theorem load_eq (file : String) {text? : Option String} {settings : List (String × Setting)}
    (environment : List (String × String)) (hsettings : entries? text? = some settings) :
    load file text? environment =
      (ofTable settings >>= (·.withEnvironment environment)).mapError .fault := by
  cases text? with
  | none =>
    cases hsettings
    rfl
  | some text =>
    obtain ⟨document, hread, htail⟩ := Option.bind_eq_some_iff.1 hsettings
    obtain ⟨tool, htool, htail⟩ := Option.bind_eq_some_iff.1 htail
    obtain ⟨table, htable, hentries⟩ := Option.bind_eq_some_iff.1 htail
    rw [Except.toOption_eq_some] at hread htool htable
    cases hentries
    have hdocument : ofDocument file text = (ofTable
        (table.map fun (key, node) => (key, Setting.ofNode node))).mapError .fault := by
      simp only [ofDocument, hread, htool, htable, Bind.bind, Except.bind, pure, Except.pure]
    simp only [load, hdocument]
    cases ofTable (table.map fun (key, node) => (key, Setting.ofNode node)) <;> rfl

section Load

variable {text? : Option String} {settings : List (String × Setting)}
  {environment : List (String × String)}

/-- The first entry that offends is what loading reports. -/
theorem load_of_entry_offence (file : String) {before after : List (String × Setting)}
    {entry : String × Setting} {cause : Cause}
    (hsettings : entries? text? = some (before ++ entry :: after))
    (hbefore : ∀ earlier ∈ before, offence? earlier = none)
    (hentry : offence? entry = some cause) :
    load file text? environment = .error (.fault ⟨cause, none, none⟩) := by
  rw [load_eq file environment hsettings, ofTable_eq_error hbefore hentry]
  rfl

/-- In a table without offences it is the variable that loading reports. -/
theorem load_of_variable_offence (file : String) {cause : Cause}
    (hsettings : entries? text? = some settings)
    (hfine : ∀ entry ∈ settings, offence? entry = none)
    (hvariable : variableOffence? environment = some cause) :
    load file text? environment = .error (.fault ⟨cause, none, none⟩) := by
  obtain ⟨options, htable, -⟩ := ofTable_eq_ok hfine
  rw [load_eq file environment hsettings, htable]
  exact congrArg (Except.mapError _) (withEnvironment_of_offence options hvariable)

/-- Without any offence loading answers what the last entries ask for, under the environment. -/
theorem load_of_fine (file : String) (hsettings : entries? text? = some settings)
    (hfine : ∀ entry ∈ settings, offence? entry = none)
    (hvariable : variableOffence? environment = none) :
    ∃ options, Reflects options settings ∧ load file text? environment = .ok { options with
      skipAsserts := (variableSetting? environment).getD options.skipAsserts } := by
  obtain ⟨options, htable, hreflects⟩ := ofTable_eq_ok hfine
  refine ⟨options, hreflects, ?_⟩
  rw [load_eq file environment hsettings, htable]
  exact congrArg (Except.mapError _) (withEnvironment_of_fine options hvariable)

/-- What offends is about the configuration. -/
theorem kind_of_offence {entry : String × Setting} {cause : Cause}
    (h : offence? entry = some cause) : cause.kind = .configuration := by
  simp only [offence?] at h
  split_ifs at h <;> cases h <;> rfl

/-- A variable that offends is about the configuration. -/
theorem kind_of_variableOffence {cause : Cause} (h : variableOffence? environment = some cause) :
    cause.kind = .configuration := by
  obtain ⟨word, -, hcause⟩ := Option.bind_eq_some_iff.1 h
  split_ifs at hcause
  cases hcause
  rfl

/-- A table with an offence has a first one. -/
theorem exists_first_offence (h : ∃ entry ∈ settings, (offence? entry).isSome) :
    ∃ before entry after cause, settings = before ++ entry :: after ∧
      (∀ earlier ∈ before, offence? earlier = none) ∧ offence? entry = some cause := by
  obtain ⟨entry, hfound⟩ := Option.isSome_iff_exists.1 (List.find?_isSome.2 h)
  obtain ⟨hentry, before, after, rfl, hbefore⟩ := List.find?_eq_some_iff_append.1 hfound
  obtain ⟨cause, hcause⟩ := Option.isSome_iff_exists.1 hentry
  refine ⟨before, entry, after, cause, rfl, ?_, hcause⟩
  intro earlier hearlier
  simpa using hbefore earlier hearlier

/-- In a table without an offence no entry offends. -/
theorem fine_of_not_exists (h : ¬ ∃ entry ∈ settings, (offence? entry).isSome) :
    ∀ entry ∈ settings, offence? entry = none := fun entry hentry =>
  Option.not_isSome_iff_eq_none.1 fun hoffends => h ⟨entry, hentry, hoffends⟩

/-- Loading the options of a table under an environment. It fails for the configuration just when
an entry or the variable offends. The first entry that does is reported, and the variable if none
does. Otherwise the variable decides over assertions, then the last entry for it, then the default;
every other option is that of its last entry, or else the default. Applying the environment again
changes nothing. -/
theorem load_precedence (file : String) (environment : List (String × String))
    (hsettings : entries? text? = some settings) :
    ((∃ fault, load file text? environment = .error (.fault fault) ∧
        fault.cause.kind = .configuration) ↔
      (∃ entry ∈ settings, (offence? entry).isSome) ∨ (variableOffence? environment).isSome) ∧
    (∀ before entry after cause, settings = before ++ entry :: after →
      (∀ earlier ∈ before, offence? earlier = none) → offence? entry = some cause →
      load file text? environment = .error (.fault ⟨cause, none, none⟩)) ∧
    (∀ cause, (∀ entry ∈ settings, offence? entry = none) →
      variableOffence? environment = some cause →
      load file text? environment = .error (.fault ⟨cause, none, none⟩)) ∧
    ((∀ entry ∈ settings, offence? entry = none) → variableOffence? environment = none →
      ∃ options, load file text? environment = .ok options ∧
        options.skipAsserts = ((variableSetting? environment).or
          ((lastSetting? "skip_asserts" settings).bind Setting.boolean?)).getD
            ({} : Options).skipAsserts ∧
        options.runtimeModule = ((lastSetting? "runtime_module" settings).bind
          Setting.text?).getD ({} : Options).runtimeModule ∧
        options.runtimeAlias = ((lastSetting? "runtime_alias" settings).bind
          Setting.text?).getD ({} : Options).runtimeAlias ∧
        options.recursiveMarker = ((lastSetting? "recursive_marker" settings).bind
          Setting.text?).getD ({} : Options).recursiveMarker) ∧
    ∀ options applied : Options, options.withEnvironment environment = .ok applied →
      applied.withEnvironment environment = .ok applied := by
  refine ⟨⟨?fails, ?offends⟩, ?first, ?environment, ?fine, fun _ _ => withEnvironment_idem⟩
  case fails =>
    rintro ⟨fault, hfault, -⟩
    by_contra hnone
    rw [not_or] at hnone
    obtain ⟨options, -, hload⟩ := load_of_fine file hsettings (fine_of_not_exists hnone.1)
      (Option.not_isSome_iff_eq_none.1 hnone.2)
    rw [hload] at hfault
    cases hfault
  case offends =>
    intro hoffends
    by_cases hentry : ∃ entry ∈ settings, (offence? entry).isSome
    · obtain ⟨before, entry, after, cause, rfl, hbefore, hcause⟩ := exists_first_offence hentry
      exact ⟨_, load_of_entry_offence file hsettings hbefore hcause, kind_of_offence hcause⟩
    · obtain ⟨cause, hcause⟩ := Option.isSome_iff_exists.1 (hoffends.resolve_left hentry)
      exact ⟨_, load_of_variable_offence file hsettings (fine_of_not_exists hentry) hcause,
        kind_of_variableOffence hcause⟩
  case first =>
    rintro before entry after cause rfl hbefore hcause
    exact load_of_entry_offence file hsettings hbefore hcause
  case environment => exact fun cause hfine => load_of_variable_offence file hsettings hfine
  case fine =>
    intro hfine hvariable
    obtain ⟨options, hreflects, hload⟩ := load_of_fine file hsettings hfine hvariable
    refine ⟨_, hload, ?_, hreflects.runtimeModule, hreflects.runtimeAlias,
      hreflects.recursiveMarker⟩
    rw [hreflects.skipAsserts]
    cases variableSetting? environment <;> rfl

end Load

/-- Both spellings of one key, the later one prevailing, under an environment that has the last
word. -/
theorem load_precedence_spellings :
    let text := "[tool.typecomb]\nruntime_alias = \"a\"\nskip-asserts = true\n" ++
      "runtime-alias = \"b\"\n"
    ∃ options, load "pyproject.toml" (some text) [(skipVariable, " OFF ")] = .ok options ∧
      options.skipAsserts = false ∧ options.runtimeAlias = "b" := by
  intro text
  have hsettings : entries? (some text) = some [("runtime_alias", .text "a"),
      ("skip-asserts", .boolean true), ("runtime-alias", .text "b")] := by decide +kernel
  have hload := load_precedence "pyproject.toml" [(skipVariable, " OFF ")] hsettings
  obtain ⟨options, hoptions, hskip, -, halias, -⟩ :=
    hload.2.2.2.1 (by decide +kernel) (by decide +kernel)
  exact ⟨options, hoptions, hskip.trans (by decide +kernel), halias.trans (by decide +kernel)⟩

end Options

end Typeward
