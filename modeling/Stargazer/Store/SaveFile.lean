import Stargazer.Lib.Replace
import Stargazer.Store.Admins
import Stargazer.Store.Services
import Stargazer.Store.Tariffs
import Stargazer.Store.UserStat

set_option relaxedAutoImplicit false
set_option autoImplicit false

/-!
# Saving files

`CONFIGFILE` (`conffiles.cpp`) writes its parameters into a file with the number of the process at the end
of its name and renames it.  This is done by the destructor, which drops the result, and the streams are
not asked whether the text was written.  The five functions of `file_store.cpp` that save something return
zero before: they fail only where the file that is there cannot be understood.

`chmod` and `chown` change neither the text of a file nor a result.

## Main definitions

* `Stargazer.FileOps` — what becomes of the operations on files, which is arbitrary.
* `Stargazer.ConfigFile` — the object; `Stargazer.ConfigFile.flushFile`, `Stargazer.ConfigFile.destruct`.
* `Stargazer.SaveCall` — a call of one of the five functions; `Stargazer.SaveCall.run` — the call.
* `Stargazer.SaveCall.Truthful` — its result says what became of the file.
* `Stargazer.SaveCall.Works` — the file is written, or need not be.

## Main results

* `Stargazer.SaveCall.truthful_iff_works` — the result is right iff the file is written, or need not be.
* `Stargazer.SaveCall.run_of_works` — if all operations work, the file has the values.
-/

namespace Stargazer

open DiskFile

/-! ## The object -/

/-- What becomes of the operations on files. -/
structure FileOps where
  /-- The file can be opened to be read. -/
  reads : Bool
  /-- The temporary file can be opened. -/
  opens : Bool
  /-- The number of characters of the text that reach the temporary file. -/
  room : ℕ
  /-- It can be renamed. -/
  renames : Bool
  /-- `getpid()`. -/
  pid : ℕ

/-- What the constructor of a stream finds. -/
def FileOps.input (ops : FileOps) (disk : Disk String Char) (fileName : String) : Option (List Char) :=
  if ops.reads then disk fileName else none

/-- `EIO`. -/
def eio : ℤ := 5

/-- `CONFIGFILE`. -/
structure ConfigFile where
  /-- `param_val`. -/
  paramVal : Params
  fileName : String
  error : ℤ
  changed : Bool

namespace ConfigFile

/-- The loop of the constructor, with `error`. -/
def readLines (m : Params) : List (List Char) → Params × ℤ
  | [] => (m, 0)
  | line :: lines =>
    match loadLine m line with
    | none => (m, -1)
    | some m => readLines m lines

/-- `CONFIGFILE::CONFIGFILE`. -/
def construct (file : Option (List Char)) (fileName : String) (nook : Bool) : ConfigFile :=
  match file with
  | none => ⟨.empty, fileName, if nook then 0 else -1, false⟩
  | some text =>
    ⟨(readLines .empty (getlines text)).1, fileName, (readLines .empty (getlines text)).2, false⟩

/-- `WriteString`, `WriteInt`, `WriteDouble` and `WriteTime`, with the text of the value. -/
def write (cf : ConfigFile) (e : List Char × List Char) : ConfigFile :=
  { cf with paramVal := cf.paramVal.insert e.1 e.2, changed := true }

/-- What is put into the stream for an entry. -/
def lineTexts (e : List Char × List Char) : List (List Char) := [e.1, ['='], e.2, ['\n']]

/-- `CONFIGFILE::Flush(path)`. -/
def flushTo (cf : ConfigFile) (ops : FileOps) (disk : Disk String Char) (path : String) :
    ℤ × ConfigFile × Disk String Char :=
  if ops.opens then
    let f := (OutStream.start ops.room).putAll (cf.paramVal.entries.flatMap lineTexts)
    (0, cf, Function.update disk path (some f.content))
  else (eio, { cf with error := eio }, disk)

/-- The temporary file: `pid` has room for five digits. -/
def tempName (cf : ConfigFile) (pid : ℕ) : String :=
  cf.fileName ++ "." ++ String.ofList ((CString.printInt pid).take 5)

/-- `CONFIGFILE::Flush()`. -/
def flushFile (cf : ConfigFile) (ops : FileOps) (disk : Disk String Char) :
    ℤ × ConfigFile × Disk String Char :=
  if cf.changed then
    match cf.flushTo ops disk (cf.tempName ops.pid) with
    | (res, cf, disk) =>
      if res ≠ 0 then (-1, cf, disk)
      else if ops.renames then (0, { cf with changed := false }, rename disk (cf.tempName ops.pid) cf.fileName)
      else (-1, cf, disk)
  else (0, cf, disk)

/-- `CONFIGFILE::~CONFIGFILE`, which drops the result. -/
def destruct (cf : ConfigFile) (ops : FileOps) (disk : Disk String Char) : Disk String Char :=
  (cf.flushFile ops disk).2.2

/-! ## What the object does -/

theorem readLines_of_some {ls : List (List Char)} {m m' : Params} (h : ls.foldlM loadLine m = some m') :
    readLines m ls = (m', 0) := by
  induction ls generalizing m with
  | nil => rw [readLines, Option.some.inj h]
  | cons l ls ih =>
    obtain ⟨m₁, hm₁, hrest⟩ := Option.bind_eq_some_iff.mp h
    rw [readLines, hm₁]
    exact ih hrest

theorem readLines_of_none {ls : List (List Char)} {m : Params} (h : ls.foldlM loadLine m = none) :
    (readLines m ls).2 = -1 := by
  induction ls generalizing m with
  | nil => cases h
  | cons l ls ih =>
    rw [readLines]
    cases hl : loadLine m l with
    | none => rfl
    | some m₁ =>
      rw [List.foldlM_cons, hl] at h
      exact ih h

/-- The object of a file that is understood. -/
theorem construct_of_some {file : Option (List Char)} {m : Params} (fileName : String)
    (h : load file true = some m) : construct file fileName true = ⟨m, fileName, 0, false⟩ := by
  cases file with
  | none => rw [construct, ← Option.some.inj h, if_pos rfl]
  | some text => rw [construct, readLines_of_some h]

/-- The object of a file that is not has an error, and nothing to write. -/
theorem construct_of_none {file : Option (List Char)} (fileName : String) (h : load file true = none) :
    (construct file fileName true).error ≠ 0 ∧ (construct file fileName true).changed = false := by
  cases file with
  | none => cases h
  | some text =>
    rw [construct, readLines_of_none h]
    exact ⟨(by decide : (-1 : ℤ) ≠ 0), rfl⟩

/-- The object after writes. -/
theorem foldl_write (writes : List (List Char × List Char)) (cf : ConfigFile) :
    writes.foldl write cf =
      { cf with
        paramVal := cf.paramVal.insertAll writes
        changed := cf.changed || !writes.isEmpty } := by
  induction writes generalizing cf with
  | nil => simp [OrderedMap.insertAll]
  | cons e writes ih =>
    rw [List.foldl_cons, ih]
    simp [write, OrderedMap.insertAll]

theorem flatten_lineTexts (m : Params) : (m.entries.flatMap lineTexts).flatten = flush m := by
  unfold flush
  induction m.entries with
  | nil => rfl
  | cons e l ih =>
    rw [List.flatMap_cons, List.flatMap_cons, List.flatten_append, ih]
    simp [lineTexts]

theorem tempName_ne (cf : ConfigFile) (pid : ℕ) : cf.tempName pid ≠ cf.fileName := by
  intro h
  have hlen := congrArg (fun s : String => s.toList.length) h
  simp only [tempName, String.toList_append, List.length_append] at hlen
  have hdot : ".".toList.length = 1 := rfl
  omega

/-- An object that was not changed writes nothing. -/
theorem destruct_of_not_changed {cf : ConfigFile} (h : cf.changed = false) (ops : FileOps)
    (disk : Disk String Char) : cf.destruct ops disk = disk := by
  unfold destruct flushFile
  rw [h]
  rfl

/-- **What the destructor does to the file**: it is replaced by the beginning of the text for which there
is room, or left as it is. -/
theorem destruct_fileName {cf : ConfigFile} (h : cf.changed = true) (ops : FileOps) (disk : Disk String Char) :
    cf.destruct ops disk cf.fileName =
      if ops.opens = true ∧ ops.renames = true then some ((flush cf.paramVal).take ops.room)
      else disk cf.fileName := by
  have hne := cf.tempName_ne ops.pid
  unfold destruct flushFile
  rw [if_pos h]
  by_cases hopens : ops.opens = true
  · have hto : cf.flushTo ops disk (cf.tempName ops.pid) =
        (0, cf, Function.update disk (cf.tempName ops.pid) (some ((flush cf.paramVal).take ops.room))) := by
      unfold flushTo
      rw [if_pos hopens, ← flatten_lineTexts]
      dsimp only
      rw [OutStream.putAll_content rfl]
      rfl
    rw [hto]
    dsimp only
    rw [if_neg (not_not.mpr rfl)]
    by_cases hrenames : ops.renames = true
    · rw [if_pos hrenames, if_pos ⟨hopens, hrenames⟩]
      dsimp only
      rw [rename_target _ hne, Function.update_self]
    · rw [if_neg hrenames, if_neg fun h => hrenames h.2]
      exact Function.update_of_ne hne.symm _ _
  · have hto : cf.flushTo ops disk (cf.tempName ops.pid) = (eio, { cf with error := eio }, disk) := by
      unfold flushTo
      rw [if_neg hopens]
    rw [hto, if_neg fun h => hopens h.1]
    dsimp only
    rw [if_pos (by decide : eio ≠ 0)]

end ConfigFile

/-! ## The functions of the store -/

/-- The directories of the store. -/
structure StoreSettings where
  usersDir : String
  adminsDir : String
  tariffsDir : String
  servicesDir : String

namespace StoreSettings

/-- What the five functions have in common: the file, `m_errorStr` and what is written. -/
def save (ops : FileOps) (disk : Disk String Char) (fileName errorStr : String)
    (writes : List (List Char × List Char)) : Except String Unit × Disk String Char :=
  let cf := ConfigFile.construct (ops.input disk fileName) fileName true
  if cf.error ≠ 0 then (.error errorStr, cf.destruct ops disk)
  else (.ok (), (writes.foldl ConfigFile.write cf).destruct ops disk)

/-- A file that is not understood is left, and the call fails. -/
theorem save_of_none {ops : FileOps} {disk : Disk String Char} {fileName : String} (errorStr : String)
    (writes : List (List Char × List Char))
    (h : ConfigFile.load (ops.input disk fileName) true = none) :
    save ops disk fileName errorStr writes = (.error errorStr, disk) := by
  obtain ⟨herror, hchanged⟩ := ConfigFile.construct_of_none fileName h
  unfold save
  rw [if_pos herror, ConfigFile.destruct_of_not_changed hchanged]

/-- **Every other call succeeds**, and the file is replaced by the beginning of the text for which there
is room, or left as it is. -/
theorem save_of_some {ops : FileOps} {disk : Disk String Char} {fileName : String} (errorStr : String)
    {writes : List (List Char × List Char)} {m : Params} (hwrites : writes ≠ [])
    (h : ConfigFile.load (ops.input disk fileName) true = some m) :
    (save ops disk fileName errorStr writes).1 = .ok () ∧
      (save ops disk fileName errorStr writes).2 fileName =
        if ops.opens = true ∧ ops.renames = true then
          some ((ConfigFile.flush (m.insertAll writes)).take ops.room)
        else disk fileName := by
  unfold save
  rw [ConfigFile.construct_of_some fileName h, if_neg (not_not.mpr rfl)]
  refine ⟨rfl, ?_⟩
  have hchanged : (false || !writes.isEmpty) = true := by
    rw [Bool.false_or, Bool.not_eq_true', List.isEmpty_eq_false_iff]
    exact hwrites
  dsimp only
  rw [ConfigFile.foldl_write]
  exact ConfigFile.destruct_fileName hchanged ops disk

variable (st : StoreSettings) (lib : CDouble) (ops : FileOps) (disk : Disk String Char)

/-- `FILES_STORE::SaveUserConf`. -/
def saveUserConf (conf : UserConf) (login : String) : Except String Unit × Disk String Char :=
  save ops disk (st.usersDir ++ "/" ++ login ++ "/conf") ("User '" ++ login ++ "' conf not written\n")
    (conf.writes lib)

/-- `FILES_STORE::SaveUserStat`. -/
def saveUserStat (stat : UserStat) (login : String) : Except String Unit × Disk String Char :=
  save ops disk (st.usersDir ++ "/" ++ login ++ "/stat") ("User '" ++ login ++ "' stat not written\n")
    (FilesStore.statWrites lib stat)

/-- `FILES_STORE::SaveAdmin`. -/
def saveAdmin (ac : AdminConf) : Except String Unit × Disk String Char :=
  let fileName := st.adminsDir ++ "/" ++ ac.login ++ ".adm"
  save ops disk fileName ("Cannot write admin " ++ ac.login ++ ". " ++ fileName) (AdminFile.adminWrites ac)

/-- `FILES_STORE::SaveTariff`. -/
def saveTariff (td : TariffData) (tariffName : String) : Except String Unit × Disk String Char :=
  save ops disk (st.tariffsDir ++ "/" ++ tariffName ++ ".tf") ("Error writing tariff " ++ tariffName)
    (FilesStore.tariffWrites lib td)

/-- `FILES_STORE::SaveService`. -/
def saveService (conf : FullServiceConf) : Except String Unit × Disk String Char :=
  let fileName := st.servicesDir ++ "/" ++ conf.name ++ ".serv"
  save ops disk fileName ("Cannot write service " ++ conf.name ++ ". " ++ fileName)
    (FilesStore.serviceWrites lib conf)

end StoreSettings

/-- A call of one of the five functions. -/
inductive SaveCall
  | userConf (conf : UserConf) (login : String)
  | userStat (stat : UserStat) (login : String)
  | admin (ac : AdminConf)
  | tariff (td : TariffData) (tariffName : String)
  | service (conf : FullServiceConf)

namespace SaveCall

/-- The call: what it returns, and the files afterwards. -/
def run (st : StoreSettings) (lib : CDouble) (ops : FileOps) (disk : Disk String Char) :
    SaveCall → Except String Unit × Disk String Char
  | userConf conf login => st.saveUserConf lib ops disk conf login
  | userStat stat login => st.saveUserStat lib ops disk stat login
  | admin ac => st.saveAdmin ops disk ac
  | tariff td tariffName => st.saveTariff lib ops disk td tariffName
  | service conf => st.saveService lib ops disk conf

/-- The file. -/
def fileName (st : StoreSettings) : SaveCall → String
  | userConf _ login => st.usersDir ++ "/" ++ login ++ "/conf"
  | userStat _ login => st.usersDir ++ "/" ++ login ++ "/stat"
  | admin ac => st.adminsDir ++ "/" ++ ac.login ++ ".adm"
  | tariff _ tariffName => st.tariffsDir ++ "/" ++ tariffName ++ ".tf"
  | service conf => st.servicesDir ++ "/" ++ conf.name ++ ".serv"

/-- `m_errorStr` after a failure. -/
def errorStr (st : StoreSettings) : SaveCall → String
  | userConf _ login => "User '" ++ login ++ "' conf not written\n"
  | userStat _ login => "User '" ++ login ++ "' stat not written\n"
  | admin ac => "Cannot write admin " ++ ac.login ++ ". " ++ (st.adminsDir ++ "/" ++ ac.login ++ ".adm")
  | tariff _ tariffName => "Error writing tariff " ++ tariffName
  | service conf =>
    "Cannot write service " ++ conf.name ++ ". " ++ (st.servicesDir ++ "/" ++ conf.name ++ ".serv")

/-- The parameters and their values. -/
def writes (lib : CDouble) : SaveCall → List (List Char × List Char)
  | userConf conf _ => conf.writes lib
  | userStat stat _ => FilesStore.statWrites lib stat
  | admin ac => AdminFile.adminWrites ac
  | tariff td _ => FilesStore.tariffWrites lib td
  | service conf => FilesStore.serviceWrites lib conf

variable (st : StoreSettings) (lib : CDouble) (ops : FileOps) (disk : Disk String Char) (call : SaveCall)

/-- **The file is to be** a line for each parameter: those written, and the others as they were read. -/
def Wanted (text : List Char) : Prop :=
  ∃ m, ConfigFile.load (ops.input disk (call.fileName st)) true = some m ∧
    text = ConfigFile.flush (m.insertAll (call.writes lib))

/-- **The result says what became of the file**: after a success it holds the values written, and after
a failure it is as it was. -/
def Truthful : Prop :=
  ((call.run st lib ops disk).1 = .ok () →
      ∃ text, call.Wanted st lib ops disk text ∧
        (call.run st lib ops disk).2 (call.fileName st) = some text) ∧
    ∀ e, (call.run st lib ops disk).1 = .error e →
      (call.run st lib ops disk).2 (call.fileName st) = disk (call.fileName st)

/-- **The file is written**: the temporary file is opened, all of the text reaches it and it is renamed.
Or it need not be: the file that is there is not understood, or is not replaced but has the text. -/
def Works : Prop :=
  ∀ text, call.Wanted st lib ops disk text →
    ((ops.opens = true ∧ ops.renames = true) ∧ text.length ≤ ops.room) ∨
      (¬ (ops.opens = true ∧ ops.renames = true) ∧ disk (call.fileName st) = some text)

/-! ## The results -/

theorem run_eq : call.run st lib ops disk =
    StoreSettings.save ops disk (call.fileName st) (call.errorStr st) (call.writes lib) := by
  cases call <;> rfl

/-- Every function writes something. -/
theorem writes_ne_nil : call.writes lib ≠ [] := by
  cases call with
  | userConf conf login => exact List.cons_ne_nil _ _
  | userStat stat login => exact List.append_ne_nil_of_right_ne_nil _ (List.cons_ne_nil _ _)
  | admin ac => exact List.cons_ne_nil _ _
  | tariff td tariffName => exact List.append_ne_nil_of_right_ne_nil _ (List.cons_ne_nil _ _)
  | service conf => exact List.cons_ne_nil _ _

/-- **The result of a save says what became of the file** iff the file is written, or need not be. -/
theorem truthful_iff_works : call.Truthful st lib ops disk ↔ call.Works st lib ops disk := by
  unfold Truthful Works
  rw [run_eq]
  cases hload : ConfigFile.load (ops.input disk (call.fileName st)) true with
  | none =>
    rw [StoreSettings.save_of_none _ _ hload]
    refine iff_of_true ⟨fun h => (by cases h), fun _ _ => rfl⟩ ?_
    rintro text ⟨m, hm, -⟩
    cases hload.symm.trans hm
  | some m =>
    obtain ⟨hok, hfile⟩ := StoreSettings.save_of_some (call.errorStr st) (call.writes_ne_nil lib) hload
    have hwanted : ∀ text, call.Wanted st lib ops disk text ↔
        text = ConfigFile.flush (m.insertAll (call.writes lib)) := by
      intro text
      constructor
      · rintro ⟨m', hm', rfl⟩
        rw [Option.some.inj (hload.symm.trans hm')]
      · rintro rfl
        exact ⟨m, hload, rfl⟩
    rw [hok, hfile]
    constructor
    · rintro ⟨hwritten, -⟩ text htext
      obtain ⟨text', htext', heq⟩ := hwritten rfl
      obtain rfl := ((hwanted text).mp htext).trans ((hwanted text').mp htext').symm
      by_cases hops : ops.opens = true ∧ ops.renames = true
      · rw [if_pos hops, ← (hwanted text).mp htext] at heq
        exact .inl ⟨hops, List.take_eq_self_iff text |>.mp (Option.some.inj heq)⟩
      · rw [if_neg hops] at heq
        exact .inr ⟨hops, heq⟩
    · intro hworks
      refine ⟨fun _ => ⟨_, (hwanted _).mpr rfl, ?_⟩, fun e he => (by cases he)⟩
      rcases hworks _ ((hwanted _).mpr rfl) with ⟨hops, hroom⟩ | ⟨hops, hsame⟩
      · rw [if_pos hops, List.take_of_length_le hroom]
      · rw [if_neg hops, hsame]

/-- A service. -/
def Sample.vpn : SaveCall := .service { name := "vpn", comment := "", cost := 1, payDay := 1 }

/-- Its file. -/
def Sample.oldDisk : Disk String Char := fun fileName =>
  if fileName = "s/vpn.serv" then some "name=old\n".toList else none

/-- The directories. -/
def Sample.dirs : StoreSettings := ⟨"u", "a", "t", "s"⟩

/-- With room for nine characters the values that were in the file are lost, and where the temporary file
is not renamed nothing is saved.  Both calls succeed. -/
theorem not_truthful :
    (Sample.vpn.run Sample.dirs .whole ⟨true, true, 9, true, 7⟩ Sample.oldDisk).1 = .ok () ∧
      (Sample.vpn.run Sample.dirs .whole ⟨true, true, 9, true, 7⟩ Sample.oldDisk).2 "s/vpn.serv" =
        some "comment=\n".toList ∧
      (Sample.vpn.run Sample.dirs .whole ⟨true, true, 99, false, 7⟩ Sample.oldDisk).1 = .ok () ∧
      (Sample.vpn.run Sample.dirs .whole ⟨true, true, 99, false, 7⟩ Sample.oldDisk).2 "s/vpn.serv" =
        some "name=old\n".toList ∧
      ¬ ∀ st lib ops disk, ∀ call : SaveCall, call.Truthful st lib ops disk := by
  refine ⟨rfl, by decide, rfl, by decide, fun h => ?_⟩
  obtain ⟨text, ⟨m, hm, rfl⟩, hfile⟩ :=
    (h Sample.dirs .whole ⟨true, true, 99, false, 7⟩ Sample.oldDisk Sample.vpn).1 rfl
  have hread : ConfigFile.load (some "name=old\n".toList) true =
      some (OrderedMap.empty.insert "name".toList "old".toList) := rfl
  obtain rfl := Option.some.inj (hread.symm.trans hm)
  exact absurd hfile (by decide)

/-! ## The functions without failures -/

/-- The file after a call whose operations all work, or `m_errorStr`. -/
def savedText (st : StoreSettings) (lib : CDouble) (call : SaveCall) (file : Option (List Char)) :
    Except String (List Char) :=
  match ConfigFile.load file true with
  | none => .error (call.errorStr st)
  | some m => .ok (ConfigFile.flush (m.insertAll (call.writes lib)))

/-- **If all operations work**, the file has the text, or the call fails. -/
theorem run_of_works (hops : ops.reads = true ∧ ops.opens = true ∧ ops.renames = true)
    (hroom : ∀ text, call.Wanted st lib ops disk text → text.length ≤ ops.room) :
    match call.savedText st lib (disk (call.fileName st)) with
    | .error e => call.run st lib ops disk = (.error e, disk)
    | .ok text => (call.run st lib ops disk).1 = .ok () ∧
        (call.run st lib ops disk).2 (call.fileName st) = some text := by
  have hinput : ops.input disk (call.fileName st) = disk (call.fileName st) := if_pos hops.1
  unfold savedText
  rw [run_eq, ← hinput]
  cases hload : ConfigFile.load (ops.input disk (call.fileName st)) true with
  | none => exact StoreSettings.save_of_none _ _ hload
  | some m =>
    obtain ⟨hok, hfile⟩ := StoreSettings.save_of_some (call.errorStr st) (call.writes_ne_nil lib) hload
    refine ⟨hok, hfile.trans ?_⟩
    rw [if_pos hops.2, List.take_of_length_le (hroom _ ⟨m, hload, rfl⟩)]

theorem savedText_userConf (st₀ : FilesStore) (conf : UserConf) (login : String) :
    st₀.saveUserConf lib conf login =
      ((userConf conf login).savedText st lib (st₀.files (st₀.confFile login))).map fun text =>
        { st₀ with files := Function.update st₀.files (st₀.confFile login) (some text) } := by
  unfold FilesStore.saveUserConf savedText
  cases ConfigFile.load (st₀.files (st₀.confFile login)) true <;> rfl

theorem savedText_userStat (st₀ : FilesStore) (stat : UserStat) (login : String) :
    st₀.saveUserStat lib stat login =
      ((userStat stat login).savedText st lib (st₀.files (st₀.statFile login))).map fun text =>
        { st₀ with files := Function.update st₀.files (st₀.statFile login) (some text) } := by
  unfold FilesStore.saveUserStat savedText
  cases ConfigFile.load (st₀.files (st₀.statFile login)) true <;> rfl

theorem savedText_admin (ac : AdminConf) (file : Option (List Char)) :
    (admin ac).savedText st lib file = AdminFile.saveAdmin ac ((admin ac).fileName st) file := rfl

theorem savedText_tariff (td : TariffData) (file : Option (List Char)) :
    (tariff td td.tariffConf.name).savedText st lib file = FilesStore.saveTariff lib td file := rfl

theorem savedText_service (conf : FullServiceConf) (file : Option (List Char)) :
    (service conf).savedText st lib file = FilesStore.saveService lib st.servicesDir conf file := by
  have herror : (service conf).errorStr st =
      "Cannot write service " ++ conf.name ++ ". " ++ st.servicesDir ++ "/" ++ conf.name ++ ".serv" := by
    show "Cannot write service " ++ conf.name ++ ". " ++ (st.servicesDir ++ "/" ++ conf.name ++ ".serv") = _
    rw [← String.append_assoc, ← String.append_assoc, ← String.append_assoc]
  unfold savedText FilesStore.saveService
  rw [herror]
  cases ConfigFile.load file true with
  | none => rfl
  | some m => rfl

end SaveCall

end Stargazer
