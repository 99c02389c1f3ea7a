import Stargazer.Settings.Options

set_option relaxedAutoImplicit false
set_option autoImplicit false

/-!
# Reading the options

For each node at most one option is read, and what it does to the settings does not depend on what the
settings are.  So the settings that are read are those before with the changes of the nodes, and each
field is changed by the nodes of one option only.

## Main definitions

* `Stargazer.nodeChanges` — the changes of a node, if it is accepted.
* `Stargazer.SettingsField.option` — the option a field belongs to.

## Main results

* `Stargazer.readNodes_eq_ok_iff` — when the nodes are accepted, and what the settings are then.
* `Stargazer.value_readNodes` — a field is changed by the nodes of its own option.
* `Stargazer.readNodes_of_sameOptions` — the order of nodes of different names does not matter.
-/

namespace Stargazer

open Fields (changesOf)

variable {isDir : List Char → Bool}

/-! ## One node -/

/-- The names of the options differ, also if the case of their letters does not matter. -/
theorem settingsOptions_nodup :
    (settingsOptions.map fun option => CString.foldCase option.name.toList).Nodup := by
  decide +kernel

/-- The option of a name. -/
def optionOf (name : List Char) : Option SettingsOption :=
  settingsOptions.find? fun option => isOption option.name name

/-- What an option makes of the settings. -/
def applyOption (isDir : List Char → Bool) (node : SettingsNode) (option : SettingsOption) (r : Reading) :
    Option (Except (List Char × Reading) Reading) :=
  match option.read isDir r.storeModulesCount node with
  | none => none
  | some (.error message) => some (.error (message, r))
  | some (.ok changes) => some (.ok
      { settings := SettingsImpl.fields.modifyAll r.settings changes
        storeModulesCount :=
          if option.name = "StoreModule" then r.storeModulesCount + 1 else r.storeModulesCount })

theorem readNode_of_none {node : SettingsNode} {options : List SettingsOption}
    (h : ∀ option ∈ options, isOption option.name node.name = false) (r : Reading) :
    readNode isDir node options r = some (.ok r) := by
  induction options with
  | nil => rfl
  | cons option options ih =>
    rw [readNode, if_neg (by simp [h option List.mem_cons_self])]
    exact ih fun o ho => h o (List.mem_cons_of_mem option ho)

/-- The options of a list, if their names differ. -/
theorem readNode_eq {node : SettingsNode} {options : List SettingsOption}
    (hnodup : (options.map fun option => CString.foldCase option.name.toList).Nodup) (r : Reading) :
    readNode isDir node options r =
      match options.find? fun option => isOption option.name node.name with
      | none => some (.ok r)
      | some option => applyOption isDir node option r := by
  induction options with
  | nil => rfl
  | cons option options ih =>
    rw [List.map_cons, List.nodup_cons] at hnodup
    rw [readNode, List.find?_cons]
    by_cases hname : isOption option.name node.name = true
    · -- the options behind this one have other names
      have hrest : ∀ o ∈ options, isOption o.name node.name = false := by
        intro o ho
        rw [isOption, beq_eq_false_iff_ne]
        intro heq
        apply hnodup.1
        rw [← beq_iff_eq.mp hname, heq]
        exact List.mem_map_of_mem ho
      rw [if_pos hname, hname]
      simp only [applyOption]
      cases option.read isDir r.storeModulesCount node with
      | none => rfl
      | some result =>
        cases result with
        | error message => rfl
        | ok changes => exact readNode_of_none hrest _
    · rw [if_neg hname, Bool.eq_false_iff.mpr hname]
      exact ih hnodup.2

/-- One round of the loop. -/
theorem readNode_settingsOptions (node : SettingsNode) (r : Reading) :
    readNode isDir node settingsOptions r =
      match optionOf node.name with
      | none => some (.ok r)
      | some option => applyOption isDir node option r :=
  readNode_eq settingsOptions_nodup r

/-! ## What an option sets -/

/-- The option that sets a field. -/
def SettingsField.option : SettingsField → SettingsOption
  | .text .scriptsDir => scriptDirOption
  | .text .logFile => logFileOption
  | .text .pidFile => pidFileOption
  | .text .modulesPath => modulesPathOption
  | .text .rules => rulesOption
  | .text .monitorDir => monitorDirOption
  | .number .statWritePeriod => statWritePeriodOption
  | .number .stgExecMsgKey => execMsgKeyOption
  | .number .executersNum => executersNumOption
  | .number .dayFee => dayFeeOption
  | .number .dayResetTraff => dayResetTraffOption
  | .number .messageTimeout => messageTimeoutOption
  | .number .feeChargeType => feeChargeTypeOption
  | .flag .fullFee => fullFeeOption
  | .flag .spreadFee => spreadFeeOption
  | .flag .freeMbAllowInet => freeMbAllowInetOption
  | .flag .dayFeeIsLastDay => dayFeeIsLastDayOption
  | .flag .stopOnError => stopOnErrorOption
  | .flag .writeFreeMbTraffCost => writeFreeMbTraffCostOption
  | .flag .showFeeInCash => showFeeInCashOption
  | .flag .reconnectOnTariffChange => reconnectOnTariffChangeOption
  | .flag .disableSessionLog => disableSessionLogOption
  | .monitoring => monitorDirOption
  | .detailStatWritePeriod => detailStatWritePeriodOption
  | .dirName _ => dirNamesOption
  | .filterParamsLog => filterParamsLogOption
  | .scriptParams => scriptParamsOption
  | .modulesSettings => modulesOption
  | .storeModuleSettings => storeModuleOption

/-- A change of a field of an option.  Script parameters and modules are added, the other fields are
set. -/
structure OwnChange (option : SettingsOption) (e : SettingsChange) : Prop where
  own : e.1.option.name = option.name
  sets : e.1 ≠ .scriptParams → e.1 ≠ .modulesSettings → ∃ v, e = setField e.1 v

/-- An option that changes fields of its own only. -/
def SettingsOption.SetsOwn (option : SettingsOption) : Prop :=
  ∀ isDir count node changes, option.read isDir count node = some (.ok changes) →
    ∀ e ∈ changes, OwnChange option e

theorem ownChange_setField {option : SettingsOption} (f : SettingsField)
    (h : f.option.name = option.name) (v : f.Value) : OwnChange option (setField f v) :=
  ⟨h, fun _ _ => ⟨v, rfl⟩⟩

theorem setsOwn_textOption {name : String} {f : SettingsText}
    (h : (SettingsField.text f).option.name = name) : (textOption name f).SetsOwn := by
  intro isDir count node changes hread e he
  obtain ⟨value, -, heq⟩ := Option.map_eq_some_iff.mp hread
  obtain rfl := Except.ok.inj heq
  obtain rfl := List.mem_singleton.mp he
  exact ownChange_setField _ h value

theorem setsOwn_parsedOption {name : String} {f : SettingsField} {parse : List Char → Option f.Value}
    (h : f.option.name = name) : (parsedOption name f parse).SetsOwn := by
  intro isDir count node changes hread e he
  obtain ⟨value, -, heq⟩ := Option.map_eq_some_iff.mp hread
  cases hparse : parse value with
  | none =>
    rw [hparse] at heq
    cases heq
  | some v =>
    rw [hparse] at heq
    obtain rfl := Except.ok.inj heq
    obtain rfl := List.mem_singleton.mp he
    exact ownChange_setField f h v

theorem setsOwn_detailStatWritePeriodOption : detailStatWritePeriodOption.SetsOwn := by
  intro isDir count node changes hread e he
  replace hread := Option.some.inj hread
  cases hperiod : toPeriod node.values.head? with
  | error message =>
    rw [hperiod] at hread
    cases hread
  | ok v =>
    rw [hperiod] at hread
    obtain rfl := Except.ok.inj hread
    obtain rfl := List.mem_singleton.mp he
    exact ownChange_setField .detailStatWritePeriod rfl v

theorem setsOwn_monitorDirOption : monitorDirOption.SetsOwn := by
  intro isDir count node changes hread e he
  obtain ⟨value, -, heq⟩ := Option.map_eq_some_iff.mp hread
  obtain rfl := Except.ok.inj heq
  rcases List.mem_pair.mp he with rfl | rfl
  · exact ownChange_setField (.text .monitorDir) rfl value
  · exact ownChange_setField .monitoring rfl (isDir value)

theorem setsOwn_filterParamsLogOption : filterParamsLogOption.SetsOwn := by
  intro isDir count node changes hread e he
  obtain rfl := Except.ok.inj (Option.some.inj hread)
  obtain rfl := List.mem_singleton.mp he
  exact ownChange_setField .filterParamsLog rfl node.values

theorem setsOwn_dirNamesOption : dirNamesOption.SetsOwn := by
  intro isDir count node changes hread e he
  obtain rfl := Except.ok.inj (Option.some.inj hread)
  split_ifs at he
  · obtain ⟨dir, -, he⟩ := List.mem_filterMap.mp he
    obtain ⟨value, -, rfl⟩ := Option.map_eq_some_iff.mp he
    exact ownChange_setField (.dirName dir) rfl value
  · cases he

theorem setsOwn_storeModuleOption : storeModuleOption.SetsOwn := by
  intro isDir count node changes hread e he
  replace hread := Option.some.inj hread
  split at hread
  · cases hread
  · split_ifs at hread
    split at hread
    · cases hread
    · obtain rfl := Except.ok.inj hread
      obtain rfl := List.mem_singleton.mp he
      exact ownChange_setField .storeModuleSettings rfl _

theorem setsOwn_modulesOption : modulesOption.SetsOwn := by
  intro isDir count node changes hread e he
  replace hread := Option.some.inj hread
  split at hread
  · cases hread
  · cases hmodules : readModules node.params with
    | error message =>
      rw [hmodules] at hread
      cases hread
    | ok modules =>
      rw [hmodules] at hread
      obtain rfl := Except.ok.inj hread
      obtain rfl := List.mem_singleton.mp he
      exact ⟨rfl, fun _ hne => absurd rfl hne⟩

theorem setsOwn_scriptParamsOption : scriptParamsOption.SetsOwn := by
  intro isDir count node changes hread e he
  obtain rfl := Except.ok.inj (Option.some.inj hread)
  obtain rfl := List.mem_singleton.mp he
  exact ⟨rfl, fun hne => absurd rfl hne⟩

/-- **Every option changes fields of its own only.** -/
theorem setsOwn_of_mem {option : SettingsOption} (h : option ∈ settingsOptions) : option.SetsOwn := by
  simp only [settingsOptions, List.mem_cons, List.not_mem_nil, or_false] at h
  rcases h with rfl | rfl | rfl | rfl | rfl | rfl | rfl | rfl | rfl | rfl | rfl | rfl | rfl | rfl | rfl |
    rfl | rfl | rfl | rfl | rfl | rfl | rfl | rfl | rfl | rfl | rfl | rfl | rfl
  case inr.inr.inr.inr.inr.inl => exact setsOwn_detailStatWritePeriodOption
  all_goals first
    | exact setsOwn_textOption rfl
    | exact setsOwn_parsedOption rfl
    | exact setsOwn_monitorDirOption
    | exact setsOwn_filterParamsLogOption
    | exact setsOwn_dirNamesOption
    | exact setsOwn_storeModuleOption
    | exact setsOwn_modulesOption
    | exact setsOwn_scriptParamsOption

/-- Only `StoreModule` looks at how many there have been. -/
theorem read_count {option : SettingsOption} (h : option ∈ settingsOptions)
    (hname : option.name ≠ "StoreModule") (count : ℕ) (node : SettingsNode) :
    option.read isDir count node = option.read isDir 0 node := by
  simp only [settingsOptions, List.mem_cons, List.not_mem_nil, or_false] at h
  rcases h with rfl | rfl | rfl | rfl | rfl | rfl | rfl | rfl | rfl | rfl | rfl | rfl | rfl | rfl | rfl |
    rfl | rfl | rfl | rfl | rfl | rfl | rfl | rfl | rfl | rfl | rfl | rfl | rfl <;>
    first
    | rfl
    | exact absurd rfl hname

/-! ## The loop -/

/-- Options of names that do not differ. -/
theorem option_eq_of_foldCase {option option' : SettingsOption} (h : option ∈ settingsOptions)
    (h' : option' ∈ settingsOptions)
    (hname : CString.foldCase option.name.toList = CString.foldCase option'.name.toList) :
    option = option' :=
  List.inj_on_of_nodup_map settingsOptions_nodup h h' hname

theorem find?_isOption_iff {options : List SettingsOption}
    (hnodup : (options.map fun option => CString.foldCase option.name.toList).Nodup) {name : List Char}
    {option : SettingsOption} :
    (options.find? fun o => isOption o.name name) = some option ↔
      option ∈ options ∧ isOption option.name name = true := by
  constructor
  · intro h
    have hname := List.find?_some h
    exact ⟨List.mem_of_find?_eq_some h, hname⟩
  · rintro ⟨hmem, hname⟩
    cases hfind : options.find? fun o => isOption o.name name with
    | none => exact absurd hname (List.find?_eq_none.mp hfind option hmem)
    | some option' =>
      have hname' := List.find?_some hfind
      have hmem' := List.mem_of_find?_eq_some hfind
      have heq : option = option' := List.inj_on_of_nodup_map hnodup hmem hmem'
        ((beq_iff_eq.mp hname).symm.trans (beq_iff_eq.mp hname'))
      rw [heq]

/-- The option of a name is the one that has it. -/
theorem optionOf_eq_some_iff {name : List Char} {option : SettingsOption} :
    optionOf name = some option ↔ option ∈ settingsOptions ∧ isOption option.name name = true :=
  find?_isOption_iff settingsOptions_nodup

/-- The changes of a node, if it is accepted. -/
def nodeChanges (isDir : List Char → Bool) (node : SettingsNode) : Option (List SettingsChange) :=
  match optionOf node.name with
  | none => some []
  | some option =>
    match option.read isDir 0 node with
    | some (.ok changes) => some changes
    | _ => none

/-- The changes of a node that is accepted. -/
def changesD (isDir : List Char → Bool) (node : SettingsNode) : List SettingsChange :=
  (nodeChanges isDir node).getD []

/-- Is a node a `StoreModule`? -/
def isStoreModule (node : SettingsNode) : Bool := isOption "StoreModule" node.name

theorem read_storeModuleOption_iff {count : ℕ} {node : SettingsNode} {changes : List SettingsChange} :
    storeModuleOption.read isDir count node = some (.ok changes) ↔
      count = 0 ∧ storeModuleOption.read isDir 0 node = some (.ok changes) := by
  rcases eq_or_ne count 0 with rfl | hcount
  · simp
  · refine iff_of_false ?_ fun h => hcount h.1
    simp only [storeModuleOption, Option.some.injEq]
    split
    · nofun
    · rw [if_pos hcount]
      nofun

theorem applyOption_eq_ok_iff {node : SettingsNode} {option : SettingsOption} {r r' : Reading} :
    applyOption isDir node option r = some (.ok r') ↔
      ∃ changes, option.read isDir r.storeModulesCount node = some (.ok changes) ∧
        { settings := SettingsImpl.fields.modifyAll r.settings changes
          storeModulesCount := if option.name = "StoreModule" then r.storeModulesCount + 1
            else r.storeModulesCount } = r' := by
  rw [applyOption]
  cases option.read isDir r.storeModulesCount node with
  | none => simp
  | some result => cases result <;> simp

theorem nodeChanges_eq_some_iff {node : SettingsNode} {option : SettingsOption}
    (h : optionOf node.name = some option) {changes : List SettingsChange} :
    nodeChanges isDir node = some changes ↔ option.read isDir 0 node = some (.ok changes) := by
  rw [nodeChanges, h]
  simp only
  cases option.read isDir 0 node with
  | none => simp
  | some result => cases result <;> simp

/-- What a node adds to `storeModulesCount`. -/
theorem isStoreModule_iff {node : SettingsNode} {option : SettingsOption}
    (h : optionOf node.name = some option) :
    isStoreModule node = true ↔ option.name = "StoreModule" := by
  have hmem := (optionOf_eq_some_iff.mp h).1
  constructor
  · intro hyes
    have hstore : optionOf node.name = some storeModuleOption :=
      optionOf_eq_some_iff.mpr ⟨by simp [settingsOptions], hyes⟩
    rw [Option.some.inj (h.symm.trans hstore)]
    rfl
  · intro hname
    have hyes := (optionOf_eq_some_iff.mp h).2
    rwa [hname] at hyes

/-- When a round of the loop accepts its node, and what it does. -/
theorem readNode_eq_ok_iff {node : SettingsNode} {r r' : Reading} :
    readNode isDir node settingsOptions r = some (.ok r') ↔
      ∃ changes, nodeChanges isDir node = some changes ∧
        (isStoreModule node = true → r.storeModulesCount = 0) ∧
        { settings := SettingsImpl.fields.modifyAll r.settings changes
          storeModulesCount := r.storeModulesCount + [node].countP isStoreModule } = r' := by
  rw [readNode_settingsOptions]
  cases hoption : optionOf node.name with
  | none =>
    have hnot : isStoreModule node = false := by
      rw [Bool.eq_false_iff]
      intro hyes
      have hstore : optionOf node.name = some storeModuleOption :=
        optionOf_eq_some_iff.mpr ⟨by simp [settingsOptions], hyes⟩
      rw [hoption] at hstore
      cases hstore
    simp [nodeChanges, hoption, hnot, Fields.modifyAll]
  | some option =>
    have hstore := isStoreModule_iff hoption
    simp only [applyOption_eq_ok_iff, nodeChanges_eq_some_iff hoption, List.countP_cons, List.countP_nil]
    apply exists_congr
    intro changes
    by_cases hname : option.name = "StoreModule"
    · obtain rfl : option = storeModuleOption :=
        option_eq_of_foldCase (optionOf_eq_some_iff.mp hoption).1 (by simp [settingsOptions])
          (by rw [hname]; rfl)
      rw [read_storeModuleOption_iff, if_pos hname, hstore.mpr hname]
      simp only [forall_const, if_true, Nat.zero_add]
      exact and_assoc.trans and_left_comm
    · have hnot : isStoreModule node = false := Bool.eq_false_iff.mpr fun h => hname (hstore.mp h)
      rw [read_count (optionOf_eq_some_iff.mp hoption).1 hname, if_neg hname, hnot]
      simp

theorem readNodes_cons_eq_ok_iff {node : SettingsNode} {nodes : List SettingsNode} {r r' : Reading} :
    readNodes isDir (node :: nodes) r = some (.ok r') ↔
      ∃ r₁, readNode isDir node settingsOptions r = some (.ok r₁) ∧
        readNodes isDir nodes r₁ = some (.ok r') := by
  rw [readNodes]
  cases readNode isDir node settingsOptions r with
  | none => simp
  | some result => cases result <;> simp

/-- **When the nodes are accepted, and what the settings are then**: every node is accepted by itself, and
there is one `StoreModule` at most. -/
theorem readNodes_eq_ok_iff {nodes : List SettingsNode} {r r' : Reading} (hr : r.storeModulesCount ≤ 1) :
    readNodes isDir nodes r = some (.ok r') ↔
      (∀ node ∈ nodes, (nodeChanges isDir node).isSome = true) ∧
        r.storeModulesCount + nodes.countP isStoreModule ≤ 1 ∧
        { settings := SettingsImpl.fields.modifyAll r.settings (nodes.flatMap (changesD isDir))
          storeModulesCount := r.storeModulesCount + nodes.countP isStoreModule } = r' := by
  induction nodes generalizing r with
  | nil => simp [readNodes, Fields.modifyAll, hr]
  | cons node nodes ih =>
    simp only [readNodes_cons_eq_ok_iff, readNode_eq_ok_iff]
    have hcount : (node :: nodes).countP isStoreModule =
        [node].countP isStoreModule + nodes.countP isStoreModule := by
      rw [← List.countP_append, List.singleton_append]
    have hone : [node].countP isStoreModule ≤ 1 := List.countP_le_length
    have hpos : [node].countP isStoreModule = 0 ↔ ¬isStoreModule node = true := by simp
    rw [List.forall_mem_cons, List.flatMap_cons, Fields.modifyAll_append, hcount]
    constructor
    · rintro ⟨_, ⟨changes, hchanges, hstore, rfl⟩, hrest⟩
      have hle : r.storeModulesCount + [node].countP isStoreModule ≤ 1 := by
        by_cases hnode : isStoreModule node = true
        · have := hstore hnode
          omega
        · have := hpos.mpr hnode
          omega
      obtain ⟨haccepted, hcounts, rfl⟩ := (ih hle).mp hrest
      refine ⟨⟨by rw [hchanges]; rfl, haccepted⟩, by simp only at hcounts; omega, ?_⟩
      simp only [changesD, hchanges, Option.getD_some, Nat.add_assoc]
    · rintro ⟨⟨hnode, haccepted⟩, hcounts, rfl⟩
      obtain ⟨changes, hchanges⟩ := Option.isSome_iff_exists.mp hnode
      refine ⟨_, ⟨changes, hchanges, ?_, rfl⟩, ?_⟩
      · intro hstore
        have : [node].countP isStoreModule ≠ 0 := fun h => hpos.mp h hstore
        omega
      · rw [ih (by simp only; omega)]
        refine ⟨haccepted, by simp only; omega, ?_⟩
        simp only [changesD, hchanges, Option.getD_some, Nat.add_assoc]

/-! ## The fields -/

/-- The nodes of an option. -/
def ofOption (option : SettingsOption) (nodes : List SettingsNode) : List SettingsNode :=
  nodes.filter fun node => isOption option.name node.name

/-- A node changes fields of its own option. -/
theorem ownChange_of_mem_changesD {node : SettingsNode} {e : SettingsChange}
    (he : e ∈ changesD isDir node) : isOption e.1.option.name node.name = true ∧
      (e.1 ≠ .scriptParams → e.1 ≠ .modulesSettings → ∃ v, e = setField e.1 v) := by
  cases hchanges : nodeChanges isDir node with
  | none => simp [changesD, hchanges] at he
  | some changes =>
    rw [changesD, hchanges, Option.getD_some] at he
    cases hoption : optionOf node.name with
    | none =>
      rw [nodeChanges, hoption] at hchanges
      obtain rfl := Option.some.inj hchanges
      cases he
    | some option =>
      obtain ⟨hmem, hname⟩ := optionOf_eq_some_iff.mp hoption
      have hown := setsOwn_of_mem hmem _ _ _ _ ((nodeChanges_eq_some_iff hoption).mp hchanges) e he
      rw [hown.own]
      exact ⟨hname, hown.sets⟩

/-- The changes of a field are those of the nodes of its option. -/
theorem changesOf_flatMap (f : SettingsField) (nodes : List SettingsNode) :
    changesOf f (nodes.flatMap (changesD isDir)) =
      changesOf f ((ofOption f.option nodes).flatMap (changesD isDir)) := by
  induction nodes with
  | nil => rfl
  | cons node nodes ih =>
    have hcons : ofOption f.option (node :: nodes) =
        if isOption f.option.name node.name then node :: ofOption f.option nodes
        else ofOption f.option nodes := List.filter_cons
    rw [List.flatMap_cons, Fields.changesOf_append, ih, hcons]
    by_cases hname : isOption f.option.name node.name = true
    · rw [if_pos hname, List.flatMap_cons, Fields.changesOf_append]
    · rw [if_neg hname, Fields.changesOf_eq_nil, List.nil_append]
      intro hf
      obtain ⟨e, he, rfl⟩ := List.mem_map.mp hf
      exact hname (ownChange_of_mem_changesD he).1

/-- **A field is changed by the nodes of its own option.** -/
theorem value_readNodes {nodes : List SettingsNode} {r r' : Reading} (hr : r.storeModulesCount ≤ 1)
    (h : readNodes isDir nodes r = some (.ok r')) (f : SettingsField) :
    r'.settings.value f = (changesOf f ((ofOption f.option nodes).flatMap (changesD isDir))).foldl
      (fun v g => g v) (r.settings.value f) := by
  obtain ⟨-, -, rfl⟩ := (readNodes_eq_ok_iff hr).mp h
  rw [← changesOf_flatMap]
  exact SettingsImpl.fields.value_modifyAll f r.settings _

/-- What no option sets. -/
theorem modifyAll_other (s : SettingsImpl) (changes : List SettingsChange) :
    (SettingsImpl.fields.modifyAll s changes).strError = s.strError ∧
      (SettingsImpl.fields.modifyAll s changes).confDir = s.confDir := by
  induction changes generalizing s with
  | nil => exact ⟨rfl, rfl⟩
  | cons e changes ih =>
    have hput : (s.put e.1 (e.2 (s.value e.1))).strError = s.strError ∧
        (s.put e.1 (e.2 (s.value e.1))).confDir = s.confDir := by
      obtain ⟨f, g⟩ := e
      cases f <;> exact ⟨rfl, rfl⟩
    have hrest := ih (s.put e.1 (e.2 (s.value e.1)))
    exact ⟨hrest.1.trans hput.1, hrest.2.trans hput.2⟩

/-! ## The order of the nodes -/

/-- For each option, the nodes of its name are the same, in the same order. -/
def SameOptions (nodes nodes' : List SettingsNode) : Prop :=
  ∀ option ∈ settingsOptions, ofOption option nodes = ofOption option nodes'

theorem SameOptions.symm {nodes nodes' : List SettingsNode} (h : SameOptions nodes nodes') :
    SameOptions nodes' nodes := fun option hoption => (h option hoption).symm

theorem SettingsField.option_mem (f : SettingsField) : f.option ∈ settingsOptions := by
  rcases f with f | f | f | _ | _ | _ | _ | _ | _ | _
  case text => cases f <;> simp [SettingsField.option, settingsOptions]
  case number => cases f <;> simp [SettingsField.option, settingsOptions]
  case flag => cases f <;> simp [SettingsField.option, settingsOptions]
  all_goals simp [SettingsField.option, settingsOptions]

/-- **The order of nodes of different names does not matter.** -/
theorem readNodes_of_sameOptions {nodes nodes' : List SettingsNode} (h : SameOptions nodes nodes')
    {r r' : Reading} (hr : r.storeModulesCount ≤ 1) (hread : readNodes isDir nodes r = some (.ok r')) :
    readNodes isDir nodes' r = some (.ok r') := by
  obtain ⟨haccepted, hcount, rfl⟩ := (readNodes_eq_ok_iff hr).mp hread
  have hcounts : nodes'.countP isStoreModule = nodes.countP isStoreModule := by
    have hstore := h storeModuleOption (by simp [settingsOptions])
    rw [List.countP_eq_length_filter, List.countP_eq_length_filter]
    exact congrArg List.length hstore.symm
  rw [readNodes_eq_ok_iff hr, hcounts]
  refine ⟨fun node hnode => ?_, hcount, ?_⟩
  · cases hoption : optionOf node.name with
    | none => rw [nodeChanges, hoption]; rfl
    | some option =>
      obtain ⟨hmem, hname⟩ := optionOf_eq_some_iff.mp hoption
      have hnode' : node ∈ ofOption option nodes' := List.mem_filter.mpr ⟨hnode, hname⟩
      rw [← h option hmem] at hnode'
      exact haccepted node (List.mem_filter.mp hnode').1
  · congr 1
    have hother := modifyAll_other r.settings (nodes.flatMap (changesD isDir))
    have hother' := modifyAll_other r.settings (nodes'.flatMap (changesD isDir))
    refine SettingsImpl.ext_value (hother'.1.trans hother.1.symm) (hother'.2.trans hother.2.symm)
      fun f => ?_
    have hvalue := SettingsImpl.fields.value_modifyAll f r.settings
    calc (SettingsImpl.fields.modifyAll r.settings (nodes'.flatMap (changesD isDir))).value f
        = (changesOf f (nodes'.flatMap (changesD isDir))).foldl (fun v g => g v)
            (r.settings.value f) := hvalue _
      _ = (changesOf f (nodes.flatMap (changesD isDir))).foldl (fun v g => g v)
            (r.settings.value f) := by
          rw [changesOf_flatMap, changesOf_flatMap f nodes, h f.option f.option_mem]
      _ = (SettingsImpl.fields.modifyAll r.settings (nodes.flatMap (changesD isDir))).value f :=
          (hvalue _).symm

end Stargazer
