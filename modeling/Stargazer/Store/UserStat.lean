import Stargazer.Store.UserConf

set_option relaxedAutoImplicit false
set_option autoImplicit false

/-!
# User statistics in the file store

`FILES_STORE::SaveUserStat` and `FILES_STORE::RestoreUserStat` (`file_store.cpp`).  The counters of a
month are unsigned words of 64 bits.  They are written as signed numbers and read with `strtoull`,
which wraps negative numbers around, so that all of them come back.

The counters of the session are neither saved nor restored and are left out, as are owner and mode
of the file.

## Main definitions

* `Stargazer.UserStat` — the statistics that are saved (`include/stg/user_stat.h`).
* `Stargazer.FilesStore.saveUserStat`, `Stargazer.FilesStore.restoreUserStat`.

## Main results

* `Stargazer.FilesStore.restoreTraffic_saved` — the counters that are read from a saved file.
* `Stargazer.FilesStore.userStat_survives` — counters and times are restored as they were saved.
-/

namespace Stargazer

/-- `UserStat`. -/
structure UserStat where
  /-- `monthUp`. -/
  monthUp : DirTraff := 0
  /-- `monthDown`. -/
  monthDown : DirTraff := 0
  /-- `cash`. -/
  cash : Money := 0
  /-- `freeMb`. -/
  freeMb : Money := 0
  /-- `lastCashAdd`. -/
  lastCashAdd : Money := 0
  /-- `lastCashAddTime`. -/
  lastCashAddTime : BitVec 64 := 0
  /-- `passiveTime`. -/
  passiveTime : BitVec 64 := 0
  /-- `lastActivityTime`. -/
  lastActivityTime : BitVec 64 := 0

namespace FilesStore

open ConfigFile

/-! ## Saving -/

/-- The name of the file with the statistics of a user. -/
def statFile (st : FilesStore) (login : String) : String := st.usersDir ++ "/" ++ login ++ "/stat"

/-- What `SaveUserStat` writes for one direction; `WriteInt` takes an `int64_t`. -/
def traffWrites (stat : UserStat) (dir : Dir) : List (List Char × List Char) :=
  [writeInt ("D" ++ toString dir.val) (stat.monthDown dir).toInt,
    writeInt ("U" ++ toString dir.val) (stat.monthUp dir).toInt]

/-- What `SaveUserStat` writes. -/
def statWrites (lib : CDouble) (stat : UserStat) : List (List Char × List Char) :=
  (List.finRange dirNum).flatMap (traffWrites stat) ++
  [writeDouble lib "Cash" stat.cash, writeDouble lib "FreeMb" stat.freeMb,
    writeDouble lib "LastCashAdd" stat.lastCashAdd,
    writeInt "LastCashAddTime" stat.lastCashAddTime.toInt,
    writeInt "PassiveTime" stat.passiveTime.toInt,
    writeInt "LastActivityTime" stat.lastActivityTime.toInt]

/-- `FILES_STORE::SaveUserStat`: the store afterwards, or `m_errorStr`. -/
def saveUserStat (lib : CDouble) (st : FilesStore) (stat : UserStat) (login : String) :
    Except String FilesStore :=
  match load (st.files (st.statFile login)) true with
  | none => .error ("User '" ++ login ++ "' stat not written\n")
  | some cfstat => .ok { st with
      files := Function.update st.files (st.statFile login)
        (some (flush (cfstat.insertAll (statWrites lib stat)))) }

/-! ## Restoring -/

/-- A parameter that must be there and must be a number. -/
def readStat {α : Type} (login param : String) (read : ℤ × α) : Except String α :=
  if read.1 ≠ 0 then .error ("User '" ++ login ++ "' stat not read. Parameter " ++ param)
  else .ok read.2

/-- The loop of `RestoreUserStat` over the directions. -/
def restoreTraffic (login : String) (cf : Params) : List Dir → UserStat → Except String UserStat
  | [], stat => .ok stat
  | dir :: dirs, stat => do
    let down ← readStat login ("D" ++ toString dir.val)
      (readULongLongInt cf ("D" ++ toString dir.val) 0)
    let up ← readStat login ("U" ++ toString dir.val)
      (readULongLongInt cf ("U" ++ toString dir.val) 0)
    restoreTraffic login cf dirs { stat with
      monthDown := Function.update stat.monthDown dir down
      monthUp := Function.update stat.monthUp dir up }

/-- `FILES_STORE::RestoreUserStat` for one file: what becomes of `*stat`, or `m_errorStr`. -/
def restoreUserStatFile (lib : CDouble) (stat : UserStat) (login fileName : String)
    (file : Option (List Char)) : Except String UserStat :=
  match load file false with
  | none => .error ("User '" ++ login ++ "' stat not read. Cannot open file " ++ fileName ++ ".")
  | some cf => do
    let stat ← restoreTraffic login cf (List.finRange dirNum) stat
    let cash ← readStat login "Cash" (readDouble lib cf "Cash" 0)
    let freeMb ← readStat login "FreeMb" (readDouble lib cf "FreeMb" 0)
    let lastCashAddTime ← readStat login "LastCashAddTime" (readTime cf "LastCashAddTime" 0)
    let passiveTime ← readStat login "PassiveTime" (readTime cf "PassiveTime" 0)
    let lastCashAdd ← readStat login "LastCashAdd" (readDouble lib cf "LastCashAdd" 0)
    let lastActivityTime ← readStat login "LastActivityTime" (readTime cf "LastActivityTime" 0)
    return { stat with
      cash, freeMb, lastCashAdd
      lastCashAddTime := BitVec.ofInt 64 lastCashAddTime
      passiveTime := BitVec.ofInt 64 passiveTime
      lastActivityTime := BitVec.ofInt 64 lastActivityTime }

/-- `FILES_STORE::RestoreUserStat`.  The second attempt sets every field the first one may have
set. -/
def restoreUserStat (lib : CDouble) (st : FilesStore) (stat : UserStat) (login : String) :
    Except String UserStat :=
  let fileName := st.statFile login
  match restoreUserStatFile lib stat login fileName (st.files fileName) with
  | .ok stat => .ok stat
  | .error e =>
    if st.readBak = false then .error e
    else restoreUserStatFile lib stat login (fileName ++ ".bak") (st.files (fileName ++ ".bak"))

/-! ## Restoring what was saved -/

/-- The parameters of the statistics can be told apart and are as a file can have them. -/
theorem statWrites_ok (lib : CDouble) (stat : UserStat) :
    ((statWrites lib stat).map fun e => CString.foldCase e.1).Nodup ∧
      ∀ e ∈ statWrites lib stat, ParamOk e.1 := by
  have hkeys : (statWrites lib stat).map Prod.fst = (statWrites .whole {}).map Prod.fst := by
    simp only [statWrites, List.map_append, List.map_flatMap]
    rfl
  have hnodup : (((statWrites .whole {}).map Prod.fst).map CString.foldCase).Nodup := by
    decide +kernel
  have hok : ∀ k ∈ (statWrites .whole {}).map Prod.fst, ParamOk k := by decide +kernel
  refine ⟨?_, fun e he => hok _ (hkeys ▸ List.mem_map_of_mem he)⟩
  rw [← hkeys, List.map_map] at hnodup
  exact hnodup

/-- No value that is written contains the end of a line. -/
theorem statWrites_lines (lib : CDouble) (stat : UserStat) :
    ∀ e ∈ statWrites lib stat, '\n' ∉ e.2 := by
  have hint : ∀ z, '\n' ∉ CString.printInt z := fun z => (plain_printInt z).1
  have hdouble : ∀ x, '\n' ∉ lib.print x := fun x => (plain_print lib x).1
  intro e he
  rcases List.mem_append.mp he with he | he
  · obtain ⟨dir, -, he⟩ := List.mem_flatMap.mp he
    simp only [traffWrites, writeInt, List.mem_cons, List.not_mem_nil, or_false] at he
    rcases he with rfl | rfl
    · exact hint _
    · exact hint _
  · simp only [writeInt, writeDouble, List.mem_cons, List.not_mem_nil, or_false] at he
    rcases he with rfl | rfl | rfl | rfl | rfl | rfl
    · exact hdouble _
    · exact hdouble _
    · exact hdouble _
    · exact hint _
    · exact hint _
    · exact hint _

theorem readStat_zero {α : Type} (login param : String) (a : α) :
    readStat login param (0, a) = .ok a := rfl

/-- **The counters that are read from a saved file** are those that were saved; the counters of
other directions stay.

**Proof sketch.** Induction on the directions. -/
theorem restoreTraffic_saved (lib : CDouble) (login : String) {stat : UserStat} {m : Params}
    (hm : Saved (statWrites lib stat) m) (dirs : List Dir) (stat₀ : UserStat) :
    restoreTraffic login m dirs stat₀ = .ok { stat₀ with
      monthDown := fun dir => if dir ∈ dirs then stat.monthDown dir else stat₀.monthDown dir
      monthUp := fun dir => if dir ∈ dirs then stat.monthUp dir else stat₀.monthUp dir } := by
  induction dirs generalizing stat₀ with
  | nil => simp [restoreTraffic]
  | cons dir dirs ih =>
    have hmem : ∀ e ∈ traffWrites stat dir, e ∈ statWrites lib stat := fun e he =>
      List.mem_append_left _ (List.mem_flatMap.mpr ⟨dir, List.mem_finRange dir, he⟩)
    have hdown := hm.readULongLongInt (hmem _ List.mem_cons_self) rfl 0
    have hup := hm.readULongLongInt (hmem _ (List.mem_cons_of_mem _ List.mem_cons_self)) rfl 0
    have hupdate : ∀ f g : DirTraff,
        (fun d => if d ∈ dirs then f d else Function.update g dir (f dir) d) =
          fun d => if d ∈ dir :: dirs then f d else g d := by
      intro f g
      funext d
      by_cases hd : d = dir
      · subst hd
        simp
      · simp [hd]
    rw [restoreTraffic, hdown, hup, readStat_zero, readStat_zero, ok_bind, ok_bind, ih]
    simp only [hupdate]

/-- **Counters and times survive the file store**: what is restored after the statistics were saved
has the same counters in all directions and the same times, whatever was in the file before. -/
theorem userStat_survives (lib : CDouble) (st : FilesStore) (login : String) (stat₀ stat : UserStat)
    {st' : FilesStore} (hsave : st.saveUserStat lib stat login = .ok st') :
    ∃ stat', st'.restoreUserStat lib stat₀ login = .ok stat' ∧
      stat'.monthUp = stat.monthUp ∧ stat'.monthDown = stat.monthDown ∧
      stat'.lastCashAddTime = stat.lastCashAddTime ∧ stat'.passiveTime = stat.passiveTime ∧
      stat'.lastActivityTime = stat.lastActivityTime := by
  unfold saveUserStat at hsave
  cases hload : load (st.files (st.statFile login)) true with
  | none =>
    rw [hload] at hsave
    cases hsave
  | some cfstat =>
    rw [hload] at hsave
    obtain rfl := Except.ok.inj hsave
    obtain ⟨hnodup, hok⟩ := statWrites_ok lib stat
    obtain ⟨m, hm, hsaved⟩ := exists_load_save (paramOk_of_load hload)
      (fun e he => ⟨hok e he, statWrites_lines lib stat e he⟩) hnodup false
    have hmem : ∀ (i : ℕ) {e : List Char × List Char}, (statWrites lib stat)[i]? = some e →
        e ∈ statWrites lib stat := fun _ _ h => List.mem_of_getElem? h
    have htime : ∀ (param : String) (x : BitVec 64), writeInt param x.toInt ∈ statWrites lib stat →
        readTime m param 0 = (0, x.toInt) := fun param x hw =>
      hsaved.readTime hw rfl (by simpa using x.le_toInt) (by simpa using x.toInt_lt) 0
    have hcash := hsaved.readDouble lib (hmem 20 rfl) rfl 0
    have hfreeMb := hsaved.readDouble lib (hmem 21 rfl) rfl 0
    have hlastCashAdd := hsaved.readDouble lib (hmem 22 rfl) rfl 0
    have htraff := restoreTraffic_saved lib login hsaved (List.finRange dirNum) stat₀
    simp only [List.mem_finRange, if_true] at htraff
    simp only [restoreUserStat, statFile, Function.update_self, restoreUserStatFile, hm, htraff,
      hcash, hfreeMb, hlastCashAdd, htime _ _ (hmem 23 rfl), htime _ _ (hmem 24 rfl),
      htime _ _ (hmem 25 rfl), readStat_zero, ok_bind, BitVec.ofInt_toInt]
    exact ⟨_, rfl, rfl, rfl, rfl, rfl, rfl⟩

/-- Counters beyond the signed numbers. -/
def Sample.largeStat : UserStat :=
  { monthUp := fun _ => 2 ^ 63, monthDown := fun _ => BitVec.allOnes 64, lastCashAddTime := -1,
    passiveTime := 2 ^ 63 - 1, lastActivityTime := 2 ^ 63 }

/-- Counters beyond the signed numbers survive. -/
theorem userStat_survives_large :
    ∃ st' stat', Sample.filesStore.saveUserStat .whole Sample.largeStat "alice" = .ok st' ∧
      st'.restoreUserStat .whole {} "alice" = .ok stat' ∧ stat'.monthUp = fun _ => 2 ^ 63 := by
  obtain ⟨st', hst'⟩ : ∃ st', Sample.filesStore.saveUserStat .whole Sample.largeStat "alice" =
      .ok st' := ⟨_, rfl⟩
  obtain ⟨stat', hrestore, hup, -⟩ :=
    userStat_survives .whole Sample.filesStore "alice" {} Sample.largeStat hst'
  exact ⟨st', stat', hst', hrestore, hup⟩

end FilesStore

end Stargazer
