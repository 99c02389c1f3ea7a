import Stargazer.Basic
import Stargazer.Dotconf.Document
import Stargazer.Lib.Fields
import Stargazer.Numbers

set_option relaxedAutoImplicit false
set_option autoImplicit false

/-!
# The options of the server

`SettingsImpl::ReadSettings` goes through the nodes of `stargazer.conf` that are not inside of another
one, and for each of them through the options it knows.

Where a text is made of the value of an option that has none, there is no result.

## Main definitions

* `Stargazer.SettingsImpl` — the settings, with the fields of one type together;
  `Stargazer.SettingsImpl.fields` — its fields.
* `Stargazer.SettingsNode` — what is looked at of a node.
* `Stargazer.SettingsOption` — an option; `Stargazer.settingsOptions` — the options, in their order.
* `Stargazer.readNode`, `Stargazer.readNodes` — the loop.
* `Stargazer.SettingsImpl.readSettings` — `ReadSettings`.
-/

namespace Stargazer

/-! ## The settings -/

/-- `DETAIL_STAT_PERIOD`. -/
inductive DetailStatPeriod
  | dsPeriod_1
  | dsPeriod_1_2
  | dsPeriod_1_4
  | dsPeriod_1_6
  deriving DecidableEq

/-- `ModuleSettings`. -/
structure ModuleSettings where
  moduleName : List Char := []
  moduleParams : List ParamValue := []

/-- The fields that are texts. -/
inductive SettingsText
  | scriptsDir
  | logFile
  | pidFile
  | modulesPath
  | rules
  | monitorDir
  deriving DecidableEq

/-- The fields that are numbers. -/
inductive SettingsNumber
  | statWritePeriod
  | stgExecMsgKey
  | executersNum
  | dayFee
  | dayResetTraff
  | messageTimeout
  | feeChargeType
  deriving DecidableEq

/-- The fields that are set by `yes` and `no`. -/
inductive SettingsFlag
  | fullFee
  | spreadFee
  | freeMbAllowInet
  | dayFeeIsLastDay
  | stopOnError
  | writeFreeMbTraffCost
  | showFeeInCash
  | reconnectOnTariffChange
  | disableSessionLog
  deriving DecidableEq

/-- `SettingsImpl`. -/
structure SettingsImpl where
  strError : List Char := []
  confDir : List Char
  text : SettingsText → List Char
  number : SettingsNumber → BitVec 32
  flag : SettingsFlag → Bool
  monitoring : Bool := false
  detailStatWritePeriod : DetailStatPeriod := .dsPeriod_1_6
  dirName : Dir → List Char := fun _ => []
  filterParamsLog : List (List Char) := [['*']]
  scriptParams : List (List Char) := []
  modulesSettings : List ModuleSettings := []
  storeModuleSettings : ModuleSettings := {}

/-- The constructor. -/
def SettingsImpl.init (cd : List Char) : SettingsImpl :=
  let confDir := if cd = [] then "/etc/stargazer".toList else cd
  { confDir
    text := fun
      | .scriptsDir => confDir
      | .logFile => "/var/log/stargazer.log".toList
      | .pidFile => "/var/run/stargazer.pid".toList
      | .modulesPath => "/usr/lib/stg".toList
      | .rules => confDir ++ "/rules".toList
      | .monitorDir => "/var/stargazer/monitoring".toList
    number := fun
      | .statWritePeriod => 10
      | .stgExecMsgKey => 5555
      | .executersNum => 1
      | .dayFee => 0
      | .dayResetTraff => 0
      | .messageTimeout => 0
      | .feeChargeType => 0
    flag := fun
      | .stopOnError => true
      | .showFeeInCash => true
      | _ => false }

/-- A field that the options set. -/
inductive SettingsField
  | text (f : SettingsText)
  | number (f : SettingsNumber)
  | flag (f : SettingsFlag)
  | monitoring
  | detailStatWritePeriod
  | dirName (dir : Dir)
  | filterParamsLog
  | scriptParams
  | modulesSettings
  | storeModuleSettings
  deriving DecidableEq

/-- What a field holds. -/
abbrev SettingsField.Value : SettingsField → Type
  | text _ => List Char
  | number _ => BitVec 32
  | flag _ => Bool
  | monitoring => Bool
  | detailStatWritePeriod => DetailStatPeriod
  | dirName _ => List Char
  | filterParamsLog => List (List Char)
  | scriptParams => List (List Char)
  | modulesSettings => List ModuleSettings
  | storeModuleSettings => ModuleSettings

namespace SettingsImpl

/-- What a field of the settings holds. -/
def value (s : SettingsImpl) : (f : SettingsField) → f.Value
  | .text f => s.text f
  | .number f => s.number f
  | .flag f => s.flag f
  | .monitoring => s.monitoring
  | .detailStatWritePeriod => s.detailStatWritePeriod
  | .dirName dir => s.dirName dir
  | .filterParamsLog => s.filterParamsLog
  | .scriptParams => s.scriptParams
  | .modulesSettings => s.modulesSettings
  | .storeModuleSettings => s.storeModuleSettings

/-- A field is set. -/
def put (s : SettingsImpl) : (f : SettingsField) → f.Value → SettingsImpl
  | .text f, v => { s with text := Function.update s.text f v }
  | .number f, v => { s with number := Function.update s.number f v }
  | .flag f, v => { s with flag := Function.update s.flag f v }
  | .monitoring, v => { s with monitoring := v }
  | .detailStatWritePeriod, v => { s with detailStatWritePeriod := v }
  | .dirName dir, v => { s with dirName := Function.update s.dirName dir v }
  | .filterParamsLog, v => { s with filterParamsLog := v }
  | .scriptParams, v => { s with scriptParams := v }
  | .modulesSettings, v => { s with modulesSettings := v }
  | .storeModuleSettings, v => { s with storeModuleSettings := v }

/-- The fields of the settings. -/
def fields : Fields SettingsField SettingsField.Value SettingsImpl where
  value f s := s.value f
  put f v s := s.put f v
  value_put f v s := by
    cases f <;> simp [value, put]
  value_put_of_ne {f g} hne v s := by
    cases f <;> cases g <;> first
      | rfl
      | exact absurd rfl hne
      | exact Function.update_of_ne (fun h => hne (congrArg _ h)) _ _

/-- Settings with the same fields, errors and place of the files are the same. -/
theorem ext_value {s s' : SettingsImpl} (herror : s.strError = s'.strError) (hdir : s.confDir = s'.confDir)
    (h : ∀ f, s.value f = s'.value f) : s = s' := by
  obtain ⟨e, d, text, number, flag, m, p, dirName, l, sp, ms, sm⟩ := s
  obtain ⟨e', d', text', number', flag', m', p', dirName', l', sp', ms', sm'⟩ := s'
  obtain rfl : e = e' := herror
  obtain rfl : d = d' := hdir
  obtain rfl : text = text' := funext fun f => h (.text f)
  obtain rfl : number = number' := funext fun f => h (.number f)
  obtain rfl : flag = flag' := funext fun f => h (.flag f)
  obtain rfl : m = m' := h .monitoring
  obtain rfl : p = p' := h .detailStatWritePeriod
  obtain rfl : dirName = dirName' := funext fun dir => h (.dirName dir)
  obtain rfl : l = l' := h .filterParamsLog
  obtain rfl : sp = sp' := h .scriptParams
  obtain rfl : ms = ms' := h .modulesSettings
  obtain rfl : sm = sm' := h .storeModuleSettings
  rfl

end SettingsImpl

/-! ## Nodes -/

/-- What is looked at of a node: besides its name and values, the nodes inside of it. -/
structure SettingsNode where
  name : List Char
  values : List (List Char) := []
  /-- `getChildNode` is not null. -/
  hasChild : Bool := false
  /-- `toPVS` -/
  params : List ParamValue := []
  /-- The values of what `findNode` finds inside. -/
  find : List Char → Option (List (List Char)) := fun _ => none

/-- What is looked at of the node at a place. -/
def settingsNode (env : DotconfEnv) (conf : DotconfDocument) (i : ℕ) (node : DotconfNode) : SettingsNode where
  name := node.name
  values := node.values
  hasChild := node.childNode.isSome
  params := toPVS conf.nodeTree conf.nodeTree.length node.childNode
  find := fun name => do
    let place ← conf.findNode env name (some i) none
    let found ← conf.nodeTree[place]?
    pure found.values

/-- The nodes from one on that follow one another.  The fuel counts nodes. -/
def settingsNodes (env : DotconfEnv) (conf : DotconfDocument) : ℕ → Option ℕ → List SettingsNode
  | 0, _ => []
  | _ + 1, none => []
  | fuel + 1, some i =>
    match conf.nodeTree[i]? with
    | none => []
    | some node => settingsNode env conf i node :: settingsNodes env conf fuel node.nextNode

/-! ## The options -/

/-- Does a name belong to an option? -/
def isOption (option : String) (name : List Char) : Bool :=
  CString.foldCase name == CString.foldCase option.toList

/-- `ParseYesNo`. -/
def parseYesNo (str : List Char) : Option Bool :=
  if CString.foldCase (str.take 3) = CString.foldCase "yes".toList then some true
  else if CString.foldCase (str.take 2) = CString.foldCase "no".toList then some false
  else none

/-- `toPeriod`, with the text of the error it throws. -/
def toPeriod (value : Option (List Char)) : Except (List Char) DetailStatPeriod :=
  match value with
  | none => .error "No detail stat period value.".toList
  | some period =>
    if period = "1".toList then .ok .dsPeriod_1
    else if period = "1/2".toList then .ok .dsPeriod_1_2
    else if period = "1/4".toList then .ok .dsPeriod_1_4
    else if period = "1/6".toList then .ok .dsPeriod_1_6
    else .error ("Invalid detail stat period value: '".toList ++ period ++
      "'. Should be one of '1', '1/2', '1/4' or '1/6'.".toList)

/-- A change of a field of the settings. -/
abbrev SettingsChange := Fields.Change SettingsField.Value

/-- A field is set. -/
def setField (f : SettingsField) (v : f.Value) : SettingsChange := ⟨f, fun _ => v⟩

/-- An option: its name and what is done for a node of that name.  That is an error or changes of the
settings, or there is no result.  `isDir` is what `lstat` says. -/
structure SettingsOption where
  name : String
  read : (isDir : List Char → Bool) → (storeModulesCount : ℕ) → SettingsNode →
    Option (Except (List Char) (List SettingsChange))

/-- An option whose value is taken as it is. -/
def textOption (name : String) (f : SettingsText) : SettingsOption where
  name
  read _ _ node := node.values.head?.map fun value => .ok [setField (.text f) value]

/-- An option whose value is parsed. -/
def parsedOption (name : String) (f : SettingsField) (parse : List Char → Option f.Value) :
    SettingsOption where
  name
  read _ _ node := node.values.head?.map fun value =>
    match parse value with
    | none => .error ("Incorrect ".toList ++ name.toList ++ " value: '".toList ++ value ++ ['\''])
    | some v => .ok [setField f v]

/-- An option that is `yes` or `no`. -/
def yesNoOption (name : String) (f : SettingsFlag) : SettingsOption :=
  parsedOption name (.flag f) parseYesNo

/-- An option in a range. -/
def rangeOption (name : String) (f : SettingsNumber) (min max : BitVec 32) : SettingsOption :=
  parsedOption name (.number f) (parseUnsignedInRange min max)

def scriptDirOption := textOption "ScriptDir" .scriptsDir

def logFileOption := textOption "LogFile" .logFile

def pidFileOption := textOption "PIDFile" .pidFile

def modulesPathOption := textOption "ModulesPath" .modulesPath

def rulesOption := textOption "Rules" .rules

def detailStatWritePeriodOption : SettingsOption where
  name := "DetailStatWritePeriod"
  read _ _ node := some ((toPeriod node.values.head?).map fun v => [setField .detailStatWritePeriod v])

def statWritePeriodOption := rangeOption "StatWritePeriod" .statWritePeriod 1 1440

def execMsgKeyOption := parsedOption "ExecMsgKey" (.number .stgExecMsgKey) (str2xTemplate 32)

def executersNumOption := rangeOption "ExecutersNum" .executersNum 1 1024

def dayFeeOption := rangeOption "DayFee" .dayFee 0 31

def fullFeeOption := yesNoOption "FullFee" .fullFee

def dayResetTraffOption := rangeOption "DayResetTraff" .dayResetTraff 0 31

def spreadFeeOption := yesNoOption "SpreadFee" .spreadFee

def freeMbAllowInetOption := yesNoOption "FreeMbAllowInet" .freeMbAllowInet

def dayFeeIsLastDayOption := yesNoOption "DayFeeIsLastDay" .dayFeeIsLastDay

def stopOnErrorOption := yesNoOption "StopOnError" .stopOnError

def writeFreeMbTraffCostOption := yesNoOption "WriteFreeMbTraffCost" .writeFreeMbTraffCost

def showFeeInCashOption := yesNoOption "ShowFeeInCash" .showFeeInCash

def monitorDirOption : SettingsOption where
  name := "MonitorDir"
  read isDir _ node := node.values.head?.map fun value =>
    .ok [setField (.text .monitorDir) value, setField .monitoring (isDir value)]

def messageTimeoutOption :=
  parsedOption "MessageTimeout" (.number .messageTimeout) (str2xTemplate 32)

def feeChargeTypeOption := rangeOption "FeeChargeType" .feeChargeType 0 3

def reconnectOnTariffChangeOption := yesNoOption "ReconnectOnTariffChange" .reconnectOnTariffChange

def disableSessionLogOption := yesNoOption "DisableSessionLog" .disableSessionLog

def filterParamsLogOption : SettingsOption where
  name := "FilterParamsLog"
  read _ _ node := some (.ok [setField .filterParamsLog node.values])

def dirNamesOption : SettingsOption where
  name := "DirNames"
  read _ _ node := some (.ok (
    if node.hasChild then
      (List.finRange dirNum).filterMap fun (dir : Dir) =>
        ((node.find ("DirName".toList ++ Nat.toDigits 10 dir.val)).bind List.head?).map
          fun value => setField (.dirName dir) value
    else []))

def storeModuleOption : SettingsOption where
  name := "StoreModule"
  read _ storeModulesCount node := some (
    match node.values with
    | _ :: value :: _ => .error ("Unexpected '".toList ++ value ++ "'.".toList)
    | values =>
      if storeModulesCount ≠ 0 then .error "Should be only one StoreModule.".toList
      else
        match values with
        | [] => .error "No module name in the StoreModule section.".toList
        | moduleName :: _ => .ok [setField .storeModuleSettings ⟨moduleName, node.params⟩])

/-- The loop over the nodes inside of `Modules`. -/
def readModules : List ParamValue → Except (List Char) (List ModuleSettings)
  | [] => .ok []
  | .mk param value sections :: params =>
    if isOption "Module" param then
      match value with
      | [] => .error "No module name in the Module section.".toList
      | moduleName :: _ => (readModules params).map (⟨moduleName, sections⟩ :: ·)
    else readModules params

def modulesOption : SettingsOption where
  name := "Modules"
  read _ _ node := some (
    match node.values with
    | value :: _ => .error ("Unexpected '".toList ++ value ++ "'.".toList)
    | [] => (readModules node.params).map fun modules => [⟨.modulesSettings, (· ++ modules)⟩])

def scriptParamsOption : SettingsOption where
  name := "ScriptParams"
  read _ _ node := some (.ok [⟨.scriptParams, (· ++ node.values)⟩])

/-- The options in the order of `ReadSettings`. -/
def settingsOptions : List SettingsOption :=
  [scriptDirOption, logFileOption, pidFileOption, modulesPathOption, rulesOption,
    detailStatWritePeriodOption, statWritePeriodOption, execMsgKeyOption, executersNumOption,
    dayFeeOption, fullFeeOption, dayResetTraffOption, spreadFeeOption, freeMbAllowInetOption,
    dayFeeIsLastDayOption, stopOnErrorOption, writeFreeMbTraffCostOption, showFeeInCashOption,
    monitorDirOption, messageTimeoutOption, feeChargeTypeOption, reconnectOnTariffChangeOption,
    disableSessionLogOption, filterParamsLogOption, dirNamesOption, storeModuleOption, modulesOption,
    scriptParamsOption]

/-! ## Reading -/

/-- The settings while they are read, and `storeModulesCount`. -/
structure Reading where
  settings : SettingsImpl
  storeModulesCount : ℕ := 0

/-- One round of the loop: the options whose name is that of the node. -/
def readNode (isDir : List Char → Bool) (node : SettingsNode) : List SettingsOption → Reading →
    Option (Except (List Char × Reading) Reading)
  | [], r => some (.ok r)
  | option :: options, r =>
    if isOption option.name node.name then
      match option.read isDir r.storeModulesCount node with
      | none => none
      | some (.error message) => some (.error (message, r))
      | some (.ok changes) =>
        readNode isDir node options
          { settings := SettingsImpl.fields.modifyAll r.settings changes
            storeModulesCount :=
              if option.name = "StoreModule" then r.storeModulesCount + 1 else r.storeModulesCount }
    else readNode isDir node options r

/-- The loop of `ReadSettings`. -/
def readNodes (isDir : List Char → Bool) : List SettingsNode → Reading →
    Option (Except (List Char × Reading) Reading)
  | [], r => some (.ok r)
  | node :: nodes, r =>
    match readNode isDir node settingsOptions r with
    | some (.ok r) => readNodes isDir nodes r
    | other => other

/-- The options that have to be there. -/
def requiredOptions : List (List Char) :=
  ["ModulesPath".toList, "Modules".toList, "StoreModule".toList, "Rules".toList, "LogFile".toList,
    "DetailStatWritePeriod".toList, "DayFee".toList, "DayResetTraff".toList, "SpreadFee".toList,
    "FreeMbAllowInet".toList, "DayFeeIsLastDay".toList, "WriteFreeMbTraffCost".toList]

/-- What `ReadSettings` reads: the files, what `lstat` says, and how many nodes are looked at for files
that they include. -/
structure SettingsEnv where
  files : DotconfEnv
  isDir : List Char → Bool
  fuel : ℕ

/-- The file of the settings. -/
def SettingsImpl.confFile (s : SettingsImpl) : List Char := s.confDir ++ "/stargazer.conf".toList

/-- The settings after the loop, and the result. -/
def SettingsImpl.ofReading : Except (List Char × Reading) Reading → SettingsImpl × ℤ
  | .ok r => (r.settings, 0)
  | .error (message, r) => ({ r.settings with strError := message }, -1)

/-- The nodes of the file, `some none` if it cannot be read. -/
def fileNodes (env : SettingsEnv) (confFile : List Char) : Option (Option (List SettingsNode)) :=
  let files := { env.files with caseSensitive := false }
  (DotconfDocument.setContent files env.fuel requiredOptions confFile).map fun r =>
    if r.2 ≠ 0 then none
    else some (settingsNodes files r.1 r.1.nodeTree.length r.1.getFirstNode)

/-- `ReadSettings`: the settings and the result. -/
def SettingsImpl.readSettings (env : SettingsEnv) (s : SettingsImpl) : Option (SettingsImpl × ℤ) :=
  let s := { s with modulesSettings := [] }
  (fileNodes env s.confFile).bind fun
    | none => some ({ s with strError := "Cannot read file ".toList ++ s.confFile }, -1)
    | some nodes => (readNodes env.isDir nodes { settings := s }).map SettingsImpl.ofReading

/-- `SIGHUP`: the new settings if they are accepted, otherwise the old ones. -/
def SettingsImpl.reload (env : SettingsEnv) (settings : SettingsImpl) : Option SettingsImpl :=
  (settings.readSettings env).map fun newSettings =>
    if newSettings.2 ≠ 0 then settings else newSettings.1

end Stargazer
