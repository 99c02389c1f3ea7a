import Stargazer.Store.ConfigFile
import Stargazer.Users.UserIPs

set_option relaxedAutoImplicit false
set_option autoImplicit false

/-!
# User configurations in the file store

`FILES_STORE::SaveUserConf` and `FILES_STORE::RestoreUserConf` (`file_store.cpp`).  A configuration
is saved over the file that is there: parameters it does not know stay.  It is restored from that
file, or from its copy with the extension `.bak` if that fails.

The fields `corp` and `services` are neither saved nor restored, the address list is saved without
its masks, and the texts pass through the format of configuration files as they are.  There is no
result of restoring where an address does not fit the buffer of `UserIPs::parse`.  The file that
`Flush` writes first and renames is not modelled, nor are owner and mode of the files.

## Main definitions

* `Stargazer.UserConf` — a configuration (`include/stg/user_conf.h`).
* `Stargazer.FilesStore` — the settings of the store and its files.
* `Stargazer.FilesStore.saveUserConf`, `Stargazer.FilesStore.restoreUserConf`.
* `Stargazer.UserConf.SameAs` — equality of everything but `credit`, with address lists compared by
  their members.

## Main results

* `Stargazer.FilesStore.userConf_survives_iff` — when a configuration survives.
-/

namespace Stargazer

/-- `USERDATA_NUM`. -/
abbrev userdataNum : ℕ := 10

/-- `UserConf`. -/
structure UserConf where
  /-- `password`. -/
  password : String := ""
  /-- `passive`. -/
  passive : BitVec 32 := 0
  /-- `disabled`. -/
  disabled : BitVec 32 := 0
  /-- `disabledDetailStat`. -/
  disabledDetailStat : BitVec 32 := 0
  /-- `alwaysOnline`. -/
  alwaysOnline : BitVec 32 := 0
  /-- `tariffName`. -/
  tariffName : String := ""
  /-- `address`. -/
  address : String := ""
  /-- `phone`. -/
  phone : String := ""
  /-- `email`. -/
  email : String := ""
  /-- `note`. -/
  note : String := ""
  /-- `realName`. -/
  realName : String := ""
  /-- `corp`. -/
  corp : String := ""
  /-- `services`. -/
  services : List String := []
  /-- `group`. -/
  group : String := ""
  /-- `credit`. -/
  credit : Money := 0
  /-- `nextTariff`. -/
  nextTariff : String := ""
  /-- `userdata`. -/
  userdata : Fin userdataNum → String := fun _ => ""
  /-- `creditExpire`. -/
  creditExpire : BitVec 64 := 0
  /-- `ips`. -/
  ips : UserIPs := []

namespace UserConf

/-- The texts that are saved. -/
def savedTexts (conf : UserConf) : List String :=
  [conf.password, conf.tariffName, conf.address, conf.phone, conf.email, conf.note, conf.realName,
    conf.group, conf.nextTariff] ++ (List.finRange userdataNum).map conf.userdata

/-- All texts of a configuration. -/
def texts (conf : UserConf) : List String := conf.savedTexts ++ conf.corp :: conf.services

/-- Two configurations are the same up to `credit`; address lists are compared by their members. -/
def SameAs (shifted : BitVec 32) (a b : UserConf) : Prop :=
  { a with credit := 0, ips := [] } = { b with credit := 0, ips := [] } ∧
    ∀ ip, a.ips.find shifted ip = b.ips.find shifted ip

theorem SameAs.password {shifted : BitVec 32} {a b : UserConf} (h : a.SameAs shifted b) :
    a.password = b.password := by
  have := congrArg UserConf.password h.1
  exact this

theorem SameAs.tariffName {shifted : BitVec 32} {a b : UserConf} (h : a.SameAs shifted b) :
    a.tariffName = b.tariffName := by
  have := congrArg UserConf.tariffName h.1
  exact this

/-- What `SaveUserConf` writes. -/
def writes (lib : CDouble) (conf : UserConf) : List (List Char × List Char) :=
  [ConfigFile.writeString "Password" conf.password,
    ConfigFile.writeInt "Passive" conf.passive.toInt,
    ConfigFile.writeInt "Down" conf.disabled.toInt,
    ConfigFile.writeInt "DisabledDetailStat" conf.disabledDetailStat.toInt,
    ConfigFile.writeInt "AlwaysOnline" conf.alwaysOnline.toInt,
    ConfigFile.writeString "Tariff" conf.tariffName,
    ConfigFile.writeString "Address" conf.address,
    ConfigFile.writeString "Phone" conf.phone,
    ConfigFile.writeString "Email" conf.email,
    ConfigFile.writeString "Note" conf.note,
    ConfigFile.writeString "RealName" conf.realName,
    ConfigFile.writeString "Group" conf.group,
    ConfigFile.writeDouble lib "Credit" conf.credit,
    ConfigFile.writeString "TariffChange" conf.nextTariff] ++
  ((List.finRange userdataNum).map fun i =>
    ConfigFile.writeString ("Userdata" ++ toString i) (conf.userdata i)) ++
  [ConfigFile.writeInt "CreditExpire" conf.creditExpire.toInt,
    ConfigFile.writeString "IP" conf.ips.toString]

end UserConf

/-- The file store: its settings and its files. -/
structure FilesStore where
  /-- `GetUsersDir()`. -/
  usersDir : String
  /-- `GetReadBak()`. -/
  readBak : Bool
  /-- The texts of the files, by their names. -/
  files : String → Option (List Char)

namespace FilesStore

open ConfigFile

/-- The name of the file with the configuration of a user. -/
def confFile (st : FilesStore) (login : String) : String := st.usersDir ++ "/" ++ login ++ "/conf"

/-- `FILES_STORE::SaveUserConf`: the store afterwards, or `m_errorStr`. -/
def saveUserConf (lib : CDouble) (st : FilesStore) (conf : UserConf) (login : String) :
    Except String FilesStore :=
  match load (st.files (st.confFile login)) true with
  | none => .error ("User '" ++ login ++ "' conf not written\n")
  | some cfstat => .ok { st with
      files := Function.update st.files (st.confFile login)
        (some (flush (cfstat.insertAll (conf.writes lib)))) }

/-- What `FILES_STORE::RestoreUserConf` puts into `*conf` if it succeeds. -/
def fillUserConf (lib : CDouble) (conf : UserConf) (ips : UserIPs) (cf : Params) : UserConf :=
  let text (param : String) : String := String.ofList (readString cf param []).2
  { conf with
    password := text "Password"
    tariffName := text "tariff"
    ips := ips
    alwaysOnline := (readInt cf "alwaysOnline" 0).2
    disabled := (readInt cf "down" 0).2
    passive := (readInt cf "passive" 0).2
    disabledDetailStat := (readInt cf "DisabledDetailStat" 0).2
    creditExpire := BitVec.ofInt 64 (readTime cf "CreditExpire" 0).2
    nextTariff := text "TariffChange"
    group := text "Group"
    realName := text "RealName"
    address := text "Address"
    phone := text "Phone"
    note := text "Note"
    email := text "email"
    userdata := fun i => text ("Userdata" ++ toString i)
    credit := (readDouble lib cf "Credit" 0).2 }

/-- `FILES_STORE::RestoreUserConf` for one file: what becomes of `*conf`, or `m_errorStr`. -/
def restoreUserConfFile (lib : CDouble) (env : IPEnv) (conf : UserConf) (login : String)
    (file : Option (List Char)) : Option (Except String UserConf) :=
  let error (text : String) : Option (Except String UserConf) :=
    some (.error ("User '" ++ login ++ "' " ++ text))
  match load file false with
  | none => error "data not read."
  | some cf =>
    if (readString cf "Password" []).1 < 0 then error "data not read. Parameter Password."
    else if (readString cf "Password" []).2 = [] then error "password is blank."
    else if (readString cf "tariff" []).1 < 0 then error "data not read. Parameter Tariff."
    else if (readString cf "tariff" []).2 = [] then error "tariff is blank."
    else
      -- `UserIPs::parse` never throws
      match UserIPs.parse env (readString cf "IP" ['?']).2 with
      | none => none
      | some ips =>
        if (readInt cf "alwaysOnline" 0).1 ≠ 0 then error "data not read. Parameter AlwaysOnline."
        else if (readInt cf "down" 0).1 ≠ 0 then error "data not read. Parameter Down."
        else if (readInt cf "passive" 0).1 ≠ 0 then error "data not read. Parameter Passive."
        else if (readDouble lib cf "Credit" 0).1 ≠ 0 then error "data not read. Parameter Credit."
        else some (.ok (fillUserConf lib conf ips cf))

/-- `FILES_STORE::RestoreUserConf`.  The second attempt sets every field the first one may have
set.  Is `errno` `ERANGE` when the addresses of a file are read? -/
def restoreUserConf (lib : CDouble) (shifted : BitVec 32) (isRange : String → Bool) (st : FilesStore)
    (conf : UserConf) (login : String) : Option (Except String UserConf) :=
  let restore (path : String) : Option (Except String UserConf) :=
    restoreUserConfFile lib ⟨shifted, isRange path⟩ conf login (st.files path)
  match restore (st.confFile login) with
  | none => none
  | some (.ok conf) => some (.ok conf)
  | some (.error e) =>
    if st.readBak = false then some (.error e) else restore (st.confFile login ++ ".bak")

/-! ## What is restored from a saved file -/

theorem plain_toString (ips : UserIPs) :
    '\n' ∉ (UserIPs.toString ips).toList ∧ Plain (UserIPs.toString ips).toList := by
  cases ips with
  | nil => decide
  | cons im ips =>
    by_cases him : im.ip = 0
    · simp only [UserIPs.toString, if_pos him]
      decide
    · refine plain_of_forall fun c hc hmem => ?_
      rcases UserIPs.mem_toString him hc with hc | hc <;> fin_cases hmem <;>
        exact absurd hc (by decide)

/-- The parameters a configuration is saved under. -/
def userParams : List String :=
  ["Password", "Passive", "Down", "DisabledDetailStat", "AlwaysOnline", "Tariff", "Address", "Phone",
    "Email", "Note", "RealName", "Group", "Credit", "TariffChange", "Userdata0", "Userdata1",
    "Userdata2", "Userdata3", "Userdata4", "Userdata5", "Userdata6", "Userdata7", "Userdata8",
    "Userdata9", "CreditExpire", "IP"]

theorem map_fst_writes (lib : CDouble) (conf : UserConf) :
    (conf.writes lib).map Prod.fst = userParams.map String.toList := by
  rfl

/-- The parameters can be told apart by `strcasecmp`. -/
theorem nodup_writes (lib : CDouble) (conf : UserConf) :
    ((conf.writes lib).map fun e => CString.foldCase e.1).Nodup := by
  have hmap : (conf.writes lib).map (fun e => CString.foldCase e.1) =
      ((conf.writes lib).map Prod.fst).map CString.foldCase := by rw [List.map_map]; rfl
  rw [hmap, map_fst_writes]
  decide +kernel

/-- The parameters are as a file can have them. -/
theorem paramOk_writes (lib : CDouble) (conf : UserConf) :
    ∀ e ∈ conf.writes lib, ParamOk e.1 := by
  have hall : ∀ k ∈ userParams.map String.toList, ParamOk k := by decide +kernel
  intro e he
  exact hall _ (map_fst_writes lib conf ▸ List.mem_map_of_mem he)

/-- No value that is written contains an end of line if no text does. -/
theorem notMem_writes (lib : CDouble) {conf : UserConf}
    (h : ∀ s ∈ conf.savedTexts, '\n' ∉ s.toList) : ∀ e ∈ conf.writes lib, '\n' ∉ e.2 := by
  have hint : ∀ z, '\n' ∉ CString.printInt z := fun z => (plain_printInt z).1
  simp only [UserConf.savedTexts, UserConf.writes, List.forall_mem_append, List.forall_mem_cons,
    List.forall_mem_map, writeString, writeInt, writeDouble] at h ⊢
  simp [h, hint, (plain_print lib conf.credit).1, (plain_toString conf.ips).1]

/-- What is restored into `conf₀` where `conf` was saved. -/
def restored (lib : CDouble) (conf₀ conf : UserConf) : UserConf :=
  let text (s : String) : String := String.ofList (clean s.toList)
  { conf with
    password := text conf.password
    tariffName := text conf.tariffName
    address := text conf.address
    phone := text conf.phone
    email := text conf.email
    note := text conf.note
    realName := text conf.realName
    corp := conf₀.corp
    services := conf₀.services
    group := text conf.group
    credit := (lib.strtod (lib.print conf.credit)).1
    nextTariff := text conf.nextTariff
    userdata := fun i => text (conf.userdata i)
    ips := UserIPs.reread conf.ips }

/-- **Restoring from a saved file** fails if nothing is left of the password or of the tariff. -/
theorem restoreUserConfFile_saved (lib : CDouble) (env : IPEnv) (conf₀ conf : UserConf) (login : String)
    {file : Option (List Char)} {m : Params} (hload : load file false = some m)
    (hm : Saved (conf.writes lib) m) :
    restoreUserConfFile lib env conf₀ login file =
      if clean conf.password.toList = [] then
        some (.error ("User '" ++ login ++ "' password is blank."))
      else if clean conf.tariffName.toList = [] then
        some (.error ("User '" ++ login ++ "' tariff is blank."))
      else some (.ok (restored lib conf₀ conf)) := by
  have htext : ∀ (param key : String) (v : String), writeString key v ∈ conf.writes lib →
      CString.foldCase param.toList = CString.foldCase key.toList → ∀ d,
        readString m param d = (0, clean v.toList) := fun _ _ _ hw hk d => hm.readString hw hk d
  have hint : ∀ (param key : String) (x : BitVec 32), writeInt key x.toInt ∈ conf.writes lib →
      CString.foldCase param.toList = CString.foldCase key.toList → ∀ d,
        readInt m param d = (0, x) := by
    intro param key x hw hk d
    rw [hm.readInt hw hk (by have := x.le_toInt; simpa using this)
      (by have := x.toInt_lt; simpa using this), BitVec.ofInt_toInt]
  have hmem : ∀ (i : ℕ) {e : List Char × List Char}, (conf.writes lib)[i]? = some e →
      e ∈ conf.writes lib := fun _ _ h => List.mem_of_getElem? h
  have htime : readTime m "CreditExpire" 0 = (0, conf.creditExpire.toInt) := by
    have hw : writeInt "CreditExpire" conf.creditExpire.toInt ∈ conf.writes lib := hmem 24 rfl
    exact hm.readTime hw rfl (by have := conf.creditExpire.le_toInt; simpa using this)
      (by have := conf.creditExpire.toInt_lt; simpa using this) _
  have hcredit : readDouble lib m "Credit" 0 = (0, (lib.strtod (lib.print conf.credit)).1) := by
    have hw : writeDouble lib "Credit" conf.credit ∈ conf.writes lib := hmem 12 rfl
    exact hm.readDouble lib hw rfl _
  have hdata : ∀ i, readString m ("Userdata" ++ toString i) [] =
      (0, clean (conf.userdata i).toList) := by
    intro i
    refine htext _ ("Userdata" ++ toString i) _ ?_ rfl _
    exact List.mem_append_left _ (List.mem_append_right _
      (List.mem_map_of_mem (List.mem_finRange i)))
  have hips : readString m "IP" ['?'] = (0, conf.ips.toString.toList) := by
    rw [htext "IP" "IP" conf.ips.toString (hmem 25 rfl) rfl,
      clean_eq_self_iff.mpr (plain_toString conf.ips).2]
  simp only [restoreUserConfFile, fillUserConf, hload,
    htext "Password" "Password" conf.password (hmem 0 rfl) rfl,
    htext "tariff" "Tariff" conf.tariffName (hmem 5 rfl) (by decide),
    htext "TariffChange" "TariffChange" conf.nextTariff (hmem 13 rfl) rfl,
    htext "Group" "Group" conf.group (hmem 11 rfl) rfl,
    htext "RealName" "RealName" conf.realName (hmem 10 rfl) rfl,
    htext "Address" "Address" conf.address (hmem 6 rfl) rfl,
    htext "Phone" "Phone" conf.phone (hmem 7 rfl) rfl,
    htext "Note" "Note" conf.note (hmem 9 rfl) rfl,
    htext "email" "Email" conf.email (hmem 8 rfl) (by decide),
    hint "alwaysOnline" "AlwaysOnline" conf.alwaysOnline (hmem 4 rfl) (by decide),
    hint "down" "Down" conf.disabled (hmem 2 rfl) (by decide),
    hint "passive" "Passive" conf.passive (hmem 1 rfl) (by decide),
    hint "DisabledDetailStat" "DisabledDetailStat" conf.disabledDetailStat
      (hmem 3 rfl) rfl,
    htime, hcredit, hdata, hips, UserIPs.parse_toString]
  simp [restored, String.append_assoc]

/-- A check that was passed. -/
theorem ok_of_ite {α ε : Type} {c : Prop} [Decidable c] {e : ε} {x : Option (Except ε α)} {a : α}
    (h : (if c then some (.error e) else x) = some (.ok a)) : x = some (.ok a) := by
  split_ifs at h
  · cases h
  · exact h

/-- What is restored from any file is plain. -/
theorem plain_of_restoreUserConfFile {lib : CDouble} {env : IPEnv} {conf₀ conf : UserConf}
    {login : String} {file : Option (List Char)}
    (h : restoreUserConfFile lib env conf₀ login file = some (.ok conf)) :
    Plain conf.password.toList ∧ Plain conf.tariffName.toList := by
  unfold restoreUserConfFile at h
  cases hload : load file false with
  | none =>
    rw [hload] at h
    cases h
  | some cf =>
    have hplain : ∀ param, Plain (readString cf param []).2 := fun param =>
      (valueOk_readString hload param (by decide)).2
    simp only [hload] at h
    iterate 4 replace h := ok_of_ite h
    cases hips : UserIPs.parse env (readString cf "IP" ['?']).2 with
    | none =>
      rw [hips] at h
      cases h
    | some ips =>
      simp only [hips] at h
      iterate 4 replace h := ok_of_ite h
      obtain rfl := Except.ok.inj (Option.some.inj h)
      simp only [fillUserConf, String.toList_ofList]
      exact ⟨hplain _, hplain _⟩

theorem plain_of_restoreUserConf {lib : CDouble} {shifted : BitVec 32} {isRange : String → Bool}
    {st : FilesStore} {conf₀ conf : UserConf} {login : String}
    (h : st.restoreUserConf lib shifted isRange conf₀ login = some (.ok conf)) :
    Plain conf.password.toList ∧ Plain conf.tariffName.toList := by
  unfold restoreUserConf at h
  dsimp only at h
  split at h
  · cases h
  · next hok => exact plain_of_restoreUserConfFile (h ▸ hok)
  · split_ifs at h
    · cases h
    · exact plain_of_restoreUserConfFile h

/-- A text survives iff it is plain. -/
theorem ofList_clean_iff (s : String) : String.ofList (clean s.toList) = s ↔ Plain s.toList := by
  rw [← clean_eq_self_iff]
  constructor
  · intro h
    have := congrArg String.toList h
    rwa [String.toList_ofList] at this
  · intro h
    rw [h, String.ofList_toList]

/-- What a configuration has to be like to survive: its texts are plain, the fields that are not
saved are those of the configuration it is restored into, and the addresses survive. -/
def Storable (shifted : BitVec 32) (conf₀ conf : UserConf) : Prop :=
  (∀ s ∈ conf.savedTexts, Plain s.toList) ∧ conf.corp = conf₀.corp ∧
    conf.services = conf₀.services ∧
    (conf.ips.isAnyIP = true ∨
      ∀ ip, conf.ips.find shifted ip = true → ip ≠ inaddrNone ∧ ∃ im ∈ conf.ips, im.ip = ip)

/-- What is restored is what was saved iff the configuration is storable. -/
theorem sameAs_restored_iff (lib : CDouble) (shifted : BitVec 32) (conf₀ conf : UserConf) :
    (restored lib conf₀ conf).SameAs shifted conf ↔ Storable shifted conf₀ conf := by
  unfold UserConf.SameAs Storable
  rw [← UserIPs.find_reread_iff, ← and_assoc, ← and_assoc]
  refine and_congr ?_ Iff.rfl
  simp only [restored, UserConf.mk.injEq, ofList_clean_iff, funext_iff, UserConf.savedTexts,
    List.forall_mem_append, List.forall_mem_cons, List.forall_mem_map, List.mem_finRange,
    true_and, and_true, List.not_mem_nil, false_imp_iff, implies_true, forall_const,
    eq_comm (a := conf₀.corp), eq_comm (a := conf₀.services)]
  tauto

/-- **When a configuration survives the file store.** A configuration with a password and a tariff
and without ends of lines in its texts is saved and restored as it was exactly if the file that is
there can be read and the configuration is storable.

**Proof sketch.** What is saved is found again without comments and blanks
(`ConfigFile.exists_load_save`).  If nothing is left of the password or of the tariff the copy of
the file is read, but what is found in any file is plain, and they are not. -/
theorem userConf_survives_iff (lib : CDouble) (shifted : BitVec 32) (isRange : String → Bool)
    (st : FilesStore) (login : String) (conf₀ conf : UserConf) (hpassword : conf.password ≠ "") (htariff : conf.tariffName ≠ "")
    (htexts : ∀ s ∈ conf.texts, '\x00' ∉ s.toList ∧ '\n' ∉ s.toList) :
    (∃ st' conf', st.saveUserConf lib conf login = .ok st' ∧
        st'.restoreUserConf lib shifted isRange conf₀ login = some (.ok conf') ∧
        conf'.SameAs shifted conf) ↔
      (load (st.files (st.confFile login)) true).isSome ∧ Storable shifted conf₀ conf := by
  cases hload : load (st.files (st.confFile login)) true with
  | none => simp [saveUserConf, hload]
  | some cfstat =>
    have hlines : ∀ s ∈ conf.savedTexts, '\n' ∉ s.toList := fun s hs =>
      (htexts s (List.mem_append_left _ hs)).2
    obtain ⟨m, hm, hsaved⟩ := exists_load_save (paramOk_of_load hload)
      (fun e he => ⟨paramOk_writes lib conf e he, notMem_writes lib hlines e he⟩)
      (nodup_writes lib conf) false
    have hfile := restoreUserConfFile_saved lib ⟨shifted, isRange (st.confFile login)⟩ conf₀ conf login hm
      hsaved
    have hne : ∀ {s : String}, s ≠ "" → Plain s.toList → clean s.toList ≠ [] := by
      intro s hs hplain
      rw [clean_eq_self_iff.mpr hplain]
      simpa using hs
    simp only [saveUserConf, hload, Except.ok.injEq, Option.isSome_some, true_and, exists_and_left,
      exists_eq_left']
    constructor
    · rintro ⟨conf', hrestore, hsame⟩
      have hplain : Plain conf.password.toList ∧ Plain conf.tariffName.toList := by
        rw [← hsame.password, ← hsame.tariffName]
        exact plain_of_restoreUserConf hrestore
      rw [if_neg (hne hpassword hplain.1), if_neg (hne htariff hplain.2)] at hfile
      simp only [restoreUserConf, confFile, Function.update_self] at hrestore hfile
      rw [hfile] at hrestore
      obtain rfl := Except.ok.inj (Option.some.inj hrestore)
      exact (sameAs_restored_iff lib shifted conf₀ conf).mp hsame
    · intro hstorable
      have hplain := hstorable.1
      rw [if_neg (hne hpassword (hplain _ (by simp [UserConf.savedTexts]))),
        if_neg (hne htariff (hplain _ (by simp [UserConf.savedTexts])))] at hfile
      refine ⟨restored lib conf₀ conf, ?_, (sameAs_restored_iff lib shifted conf₀ conf).mpr hstorable⟩
      simp only [restoreUserConf, confFile, Function.update_self] at hfile ⊢
      rw [hfile]

/-- A store without files. -/
def Sample.filesStore : FilesStore := ⟨"/var/stargazer/users", true, fun _ => none⟩

/-- A user with one address and a note. -/
def Sample.plainConf : UserConf :=
  { password := "secret", tariffName := "flat", note := "first floor = 1",
    ips := [⟨0x0101A8C0, 32⟩], creditExpire := -1 }

/-- A user with one address survives. -/
theorem userConf_survives_one_address :
    ∃ st' conf', Sample.filesStore.saveUserConf .whole Sample.plainConf "alice" = .ok st' ∧
      st'.restoreUserConf .whole (BitVec.allOnes 32) (fun _ => true) {} "alice" = some (.ok conf') ∧
      conf'.SameAs (BitVec.allOnes 32) Sample.plainConf := by
  refine (userConf_survives_iff .whole _ _ Sample.filesStore "alice" {} Sample.plainConf (by decide)
    (by decide) (by decide)).mpr ⟨rfl, by decide, rfl, rfl, .inr fun ip hip => ?_⟩
  have hmap : Sample.plainConf.ips = Sample.plainConf.ips.map fun im => ⟨im.ip, 32⟩ := rfl
  rw [hmap, UserIPs.find_map_iff (by decide)] at hip
  obtain ⟨im, him, rfl⟩ := hip
  obtain rfl := List.mem_singleton.mp him
  exact ⟨by decide, by decide⟩

/-- A note with a number sign, a corporation and a network. -/
def Sample.lostConf : UserConf :=
  { password := "secret", tariffName := "flat", note := "flat #3", corp := "acme",
    ips := [⟨0x0001A8C0, 24⟩] }

/-- The note is cut, the corporation is gone and of the network only its first address is left. -/
theorem userConf_lost :
    (∀ s ∈ Sample.lostConf.texts, '\x00' ∉ s.toList ∧ '\n' ∉ s.toList) ∧
    ((Sample.filesStore.saveUserConf .whole Sample.lostConf "alice").toOption.bind fun st =>
        (st.restoreUserConf .whole (BitVec.allOnes 32) (fun _ => false) {} "alice").bind
          Except.toOption).map
          (fun conf => (conf.note, conf.corp, conf.ips.find (BitVec.allOnes 32) 0x4D01A8C0)) =
      some ("flat", "", false) ∧
    Sample.lostConf.ips.find (BitVec.allOnes 32) 0x4D01A8C0 = true ∧
    ¬ ∃ st' conf', Sample.filesStore.saveUserConf .whole Sample.lostConf "alice" = .ok st' ∧
      st'.restoreUserConf .whole (BitVec.allOnes 32) (fun _ => false) {} "alice" = some (.ok conf') ∧
      conf'.SameAs (BitVec.allOnes 32) Sample.lostConf := by
  have hrun : ((Sample.filesStore.saveUserConf .whole Sample.lostConf "alice").toOption.bind
      fun st => (st.restoreUserConf .whole (BitVec.allOnes 32) (fun _ => false) {} "alice").bind
        Except.toOption).map
        (fun conf => (conf.note, conf.corp, conf.ips.find (BitVec.allOnes 32) 0x4D01A8C0)) =
      some ("flat", "", false) := by
    decide +kernel
  refine ⟨by decide, hrun, by decide, ?_⟩
  rintro ⟨st', conf', hsave, hrestore, hsame⟩
  rw [hsave] at hrun
  simp only [Except.toOption, Option.bind_some, hrestore, Option.map_some, Option.some.injEq,
    Prod.mk.injEq] at hrun
  have hfind := hsame.2 0x4D01A8C0
  rw [hrun.2.2] at hfind
  exact absurd hfind (by decide)

end FilesStore

end Stargazer
