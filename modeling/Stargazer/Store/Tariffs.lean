import Stargazer.Common
import Stargazer.Store.Services
import Stargazer.Tariffs.TariffsImpl

set_option relaxedAutoImplicit false
set_option autoImplicit false

/-!
# Tariffs in the file store

`FILES_STORE::SaveTariff` and `FILES_STORE::RestoreTariff` (`file_store.cpp`).  A tariff is restored
under the name of its file; the prices of the ten directions, the fees and the type of the traffic
must be in the file, the parameters that came later have defaults.

## Main definitions

* `Stargazer.FilesStore.saveTariff`, `Stargazer.FilesStore.restoreTariff`.
* `Stargazer.tariffFormat`, `Stargazer.tariffLoss` — tariffs as entries that are mirrored in files.
* `Stargazer.TariffFiles`, `Stargazer.TariffFiles.step` — the registry with its files.

## Main results

* `Stargazer.FilesStore.restoreTariff_saveTariff` — what is restored of a tariff that was saved.
* `Stargazer.TariffFiles.mirror_step` — the operations of the registry and the store mirror each
  other.
* `Stargazer.TariffFiles.restarts_iff_mirror` — `TariffsImpl::ReadTariffs` is a restart of the
  mirror.
* `Stargazer.tariff_survives_iff` — when tariffs with times of the day survive the store.
-/

namespace Stargazer

open ConfigFile

/-- `pt_mega`. -/
def ptMega : Money := 1024 * 1024

namespace FilesStore

/-! ## Saving -/

/-- A parameter of a direction. -/
def dirParam (param : String) (dir : Dir) : String := param ++ toString dir.val

/-- What `SaveTariff` writes for one direction. -/
def dirPriceWrites (lib : CDouble) (dir : Dir) (p : DirPriceData) :
    List (List Char × List Char) :=
  [writeDouble lib (dirParam "PriceDayA" dir) (p.priceDayA * ptMega),
    writeDouble lib (dirParam "PriceDayB" dir) (p.priceDayB * ptMega),
    writeDouble lib (dirParam "PriceNightA" dir) (p.priceNightA * ptMega),
    writeDouble lib (dirParam "PriceNightB" dir) (p.priceNightB * ptMega),
    writeInt (dirParam "Threshold" dir) p.threshold,
    writeString (dirParam "Time" dir)
      (String.ofList (timeText p.hDay p.mDay p.hNight p.mNight)),
    writeInt (dirParam "NoDiscount" dir) p.noDiscount,
    writeInt (dirParam "SinglePrice" dir) p.singlePrice]

/-- What `SaveTariff` writes behind the directions. -/
def tariffConfWrites (lib : CDouble) (conf : TariffConf) : List (List Char × List Char) :=
  [writeDouble lib "PassiveCost" conf.passiveCost, writeDouble lib "Fee" conf.fee,
    writeDouble lib "Free" conf.free, writeString "TraffType" conf.traffType.toString,
    writeString "Period" conf.period.toString,
    writeString "ChangePolicy" conf.changePolicy.toString,
    writeInt "ChangePolicyTimeout" conf.changePolicyTimeout]

/-- What `SaveTariff` writes. -/
def tariffWrites (lib : CDouble) (td : TariffData) : List (List Char × List Char) :=
  (List.finRange dirNum).flatMap (fun dir => dirPriceWrites lib dir (td.dirPrice dir)) ++
    tariffConfWrites lib td.tariffConf

/-- `FILES_STORE::SaveTariff`: the file afterwards, or `m_errorStr`. -/
def saveTariff (lib : CDouble) (td : TariffData) (file : Option (List Char)) :
    Except String (List Char) :=
  match load file true with
  | none => .error ("Error writing tariff " ++ td.tariffConf.name)
  | some cf => .ok (flush (cf.insertAll (tariffWrites lib td)))

/-! ## Restoring -/

/-- How `RestoreTariff` can fail. -/
inductive RestoreError
  /-- `m_errorStr`. -/
  | message (text : String)
  /-- The text of a time span overflows a buffer. -/
  | overflow

/-- A parameter that must be there; only a missing one is an error, a number that cannot be read
counts as its default. -/
def require {α : Type} (tariffName param : String) (read : ℤ × α) : Except RestoreError α :=
  if read.1 < 0 then
    .error (.message ("Cannot read tariff " ++ tariffName ++ ". Parameter " ++ param))
  else .ok read.2

/-- `ParseTariffTimeStr` in `RestoreTariff`, which does not look at its result: where it fails, the
numbers it has not stored stay what they are in a new tariff. -/
def restoreTime (isRange : Bool) (str : List Char) : Except RestoreError (ℤ × ℤ × ℤ × ℤ) :=
  match parseTariffTimeStr isRange str with
  | none => .error .overflow
  | some (.ok time) => .ok time
  | some (.error stored) =>
    .ok (stored.getD 0 0, stored.getD 1 0, stored.getD 2 0, stored.getD 3 0)

/-- One round of the loop of `RestoreTariff`; is `errno` `ERANGE` at its beginning? -/
def restoreDirPrice (lib : CDouble) (tariffName : String) (conf : Params) (isRange : Bool) (dir : Dir) :
    Except RestoreError DirPriceData := do
  let str ← require tariffName (dirParam "Time" dir)
    (readString conf (dirParam "Time" dir) "00:00-00:00".toList)
  let (hDay, mDay, hNight, mNight) ← restoreTime isRange str
  let priceDayA ← require tariffName (dirParam "PriceDayA" dir)
    (readDouble lib conf (dirParam "PriceDayA" dir) 0)
  let priceDayB ← require tariffName (dirParam "PriceDayB" dir)
    (readDouble lib conf (dirParam "PriceDayB" dir) 0)
  let priceNightA ← require tariffName (dirParam "PriceNightA" dir)
    (readDouble lib conf (dirParam "PriceNightA" dir) 0)
  let priceNightB ← require tariffName (dirParam "PriceNightB" dir)
    (readDouble lib conf (dirParam "PriceNightB" dir) 0)
  let threshold ← require tariffName (dirParam "Threshold" dir)
    (readInt conf (dirParam "Threshold" dir) 0)
  let singlePrice ← require tariffName (dirParam "SinglePrice" dir)
    (readInt conf (dirParam "SinglePrice" dir) 0)
  let noDiscount ← require tariffName (dirParam "NoDiscount" dir)
    (readInt conf (dirParam "NoDiscount" dir) 0)
  return { hDay, mDay, hNight, mNight
           priceDayA := priceDayA / (1024 * 1024), priceDayB := priceDayB / (1024 * 1024)
           priceNightA := priceNightA / (1024 * 1024), priceNightB := priceNightB / (1024 * 1024)
           threshold := threshold.toInt, singlePrice := singlePrice.toInt
           noDiscount := noDiscount.toInt }

/-- Does `ReadDouble` set `errno` to `ERANGE`? -/
def doubleRange (lib : CDouble) : Params → String → Bool :=
  scanRange fun v => lib.range (CString.cut v)

/-- Does `ReadInt`? -/
def intRange : Params → String → Bool := scanRange fun v => strtolErrno 0 v = erange

/-- Does one round set `errno` to `ERANGE`?  The numbers of a time span are too short for that. -/
def dirPriceRange (lib : CDouble) (conf : Params) (dir : Dir) : Bool :=
  ["PriceDayA", "PriceDayB", "PriceNightA", "PriceNightB"].any (fun param =>
      doubleRange lib conf (dirParam param dir)) ||
    ["Threshold", "SinglePrice", "NoDiscount"].any fun param => intRange conf (dirParam param dir)

/-- What `RestoreTariff` reads behind the directions. -/
def restoreTariffConf (lib : CDouble) (tariffName : String) (conf : Params) :
    Except RestoreError TariffConf := do
  let fee ← require tariffName "Fee" (readDouble lib conf "Fee" 0)
  let free ← require tariffName "Free" (readDouble lib conf "Free" 0)
  let passiveCost ← require tariffName "PassiveCost" (readDouble lib conf "PassiveCost" 0)
  let str ← require tariffName "TraffType" (readString conf "TraffType" [])
  return { name := tariffName, fee, free, passiveCost, traffType := TraffType.parse str
           period := if (readString conf "Period" "month".toList).1 < 0 then .month
             else Period.parse (readString conf "Period" "month".toList).2
           changePolicy := if (readString conf "ChangePolicy" "allow".toList).1 < 0 then .allow
             else ChangePolicy.parse (readString conf "ChangePolicy" "allow".toList).2
           changePolicyTimeout := (readTime conf "ChangePolicyTimeout" 0).2 }

/-- The rounds of the loop of `RestoreTariff`, which stops at the first error. -/
def restoreDirPrices (lib : CDouble) (tariffName : String) (conf : Params) :
    Bool → List Dir → (Dir → DirPriceData) → Except RestoreError (Dir → DirPriceData)
  | _, [], prices => .ok prices
  | isRange, dir :: dirs, prices => do
    let p ← restoreDirPrice lib tariffName conf isRange dir
    restoreDirPrices lib tariffName conf (isRange || dirPriceRange lib conf dir) dirs
      (Function.update prices dir p)

/-- `FILES_STORE::RestoreTariff`; `path` is the directory, and `isRange` tells whether `errno` is
`ERANGE` when the file has been read. -/
def restoreTariff (lib : CDouble) (path tariffName : String) (isRange : Bool)
    (file : Option (List Char)) : Except RestoreError TariffData :=
  match load file false with
  | none => .error (.message ("Cannot read file " ++ path ++ "/" ++ tariffName ++ ".tf"))
  | some conf => do
    let dirPrice ← restoreDirPrices lib tariffName conf isRange (List.finRange dirNum) fun _ => {}
    let tariffConf ← restoreTariffConf lib tariffName conf
    return { tariffConf, dirPrice }

/-! ## Restoring what was saved -/

theorem require_of_nonneg {α : Type} (tariffName param : String) (a : α) :
    require tariffName param (0, a) = .ok a := rfl

/-- A price that went through a file. -/
def restoredPrice (lib : CDouble) (price : Money) : Money :=
  (lib.strtod (lib.print (price * ptMega))).1 / (1024 * 1024)

/-- The prices of a direction that went through a file; of its time span only the first number is
restored where `errno` is `ERANGE`. -/
def restoredDirPrice (lib : CDouble) (isRange : Bool) (p : DirPriceData) : DirPriceData :=
  { p with
    mDay := if isRange then 0 else p.mDay
    hNight := if isRange then 0 else p.hNight
    mNight := if isRange then 0 else p.mNight
    priceDayA := restoredPrice lib p.priceDayA
    priceDayB := restoredPrice lib p.priceDayB
    priceNightA := restoredPrice lib p.priceNightA
    priceNightB := restoredPrice lib p.priceNightB }

/-- What can be restored of a direction: a time span has no signs and short numbers. -/
structure DirPriceStorable (p : DirPriceData) : Prop where
  /-- Hour of the start of the day. -/
  hDay : IsTimePart p.hDay
  /-- Minute of the start of the day. -/
  mDay : IsTimePart p.mDay
  /-- Hour of the start of the night. -/
  hNight : IsTimePart p.hNight
  /-- Minute of the start of the night. -/
  mNight : IsTimePart p.mNight
  /-- An `int`. -/
  threshold : IsInt p.threshold
  /-- An `int`. -/
  singlePrice : IsInt p.singlePrice
  /-- An `int`. -/
  noDiscount : IsInt p.noDiscount

/-- A time span is plain. -/
theorem plain_timeText (h1 m1 h2 m2 : ℤ) :
    '\n' ∉ timeText h1 m1 h2 m2 ∧ Plain (timeText h1 m1 h2 m2) := by
  have hint : ∀ (z : ℤ) (c : Char), c ∈ CString.printInt z → c ∉ ['\n', '#', ' ', '\t'] := by
    intro z c hc hmem
    rcases CString.mem_printInt hc with rfl | hc
    · exact absurd hmem (by decide)
    · fin_cases hmem <;> exact absurd hc (by decide)
  refine plain_of_forall fun c hc => ?_
  simp only [timeText, List.mem_append, List.mem_cons] at hc
  rcases hc with hc | rfl | hc | rfl | hc | rfl | hc
  · exact hint _ c hc
  · decide
  · exact hint _ c hc
  · decide
  · exact hint _ c hc
  · decide
  · exact hint _ c hc

/-- **The prices of a direction are restored** but for their rounding. -/
theorem restoreDirPrice_of_saved (lib : CDouble) (tariffName : String) (isRange : Bool) {m : Params}
    {dir : Dir} {p : DirPriceData} {writes : List (List Char × List Char)} (hsaved : Saved writes m)
    (hsub : dirPriceWrites lib dir p ⊆ writes) (hp : DirPriceStorable p) :
    restoreDirPrice lib tariffName m isRange dir = .ok (restoredDirPrice lib isRange p) := by
  have hmem : ∀ (i : ℕ) {e : List Char × List Char},
      (dirPriceWrites lib dir p)[i]? = some e → e ∈ writes :=
    fun _ _ h => hsub (List.mem_of_getElem? h)
  have htime : readString m (dirParam "Time" dir) "00:00-00:00".toList =
      (0, timeText p.hDay p.mDay p.hNight p.mNight) := by
    rw [hsaved.readString (hmem 5 rfl) rfl, String.toList_ofList,
      clean_eq_self_iff.mpr (plain_timeText _ _ _ _).2]
  have hdayA := hsaved.readDouble lib (hmem 0 rfl) rfl 0
  have hdayB := hsaved.readDouble lib (hmem 1 rfl) rfl 0
  have hnightA := hsaved.readDouble lib (hmem 2 rfl) rfl 0
  have hnightB := hsaved.readDouble lib (hmem 3 rfl) rfl 0
  have hthreshold := hsaved.readInt (hmem 4 rfl) rfl hp.threshold.1 hp.threshold.2 0
  have hno := hsaved.readInt (hmem 6 rfl) rfl hp.noDiscount.1 hp.noDiscount.2 0
  have hsingle := hsaved.readInt (hmem 7 rfl) rfl hp.singlePrice.1 hp.singlePrice.2 0
  have hspan : restoreTime isRange (timeText p.hDay p.mDay p.hNight p.mNight) =
      .ok (p.hDay, if isRange then 0 else p.mDay, if isRange then 0 else p.hNight,
        if isRange then 0 else p.mNight) := by
    rw [restoreTime, parseTariffTimeStr_timeText isRange hp.hDay hp.mDay hp.hNight hp.mNight]
    cases isRange <;> rfl
  simp only [restoreDirPrice, htime, hdayA, hdayB, hnightA, hnightB, hthreshold, hno, hsingle,
    require_of_nonneg, hspan, ok_bind, toInt_ofInt_of_isInt hp.threshold,
    toInt_ofInt_of_isInt hp.noDiscount, toInt_ofInt_of_isInt hp.singlePrice]
  rfl

/-- What was saved of a direction does not set `errno`. -/
theorem dirPriceRange_of_saved (lib : CDouble) {m : Params} {dir : Dir} {p : DirPriceData}
    {writes : List (List Char × List Char)} (hsaved : Saved writes m)
    (hsub : dirPriceWrites lib dir p ⊆ writes) (hp : DirPriceStorable p) :
    dirPriceRange lib m dir = false := by
  have hmem : ∀ (i : ℕ) {e : List Char × List Char},
      (dirPriceWrites lib dir p)[i]? = some e → e ∈ writes :=
    fun _ _ h => hsub (List.mem_of_getElem? h)
  have hdouble : ∀ {i : ℕ} {param : String} {x : Money},
      (dirPriceWrites lib dir p)[i]? = some (writeDouble lib param x) →
        doubleRange lib m param = false := by
    intro i param x hi
    refine hsaved.scanRange (hmem i hi) rfl (plain_print lib x).2 ?_
    rw [CString.cut_eq_self fun hc => lib.print_plain x _ hc (by simp), lib.range_print]
  have hint : ∀ {i : ℕ} {param : String} {z : ℤ}, IsInt z →
      (dirPriceWrites lib dir p)[i]? = some (writeInt param z) → intRange m param = false := by
    intro i param z hz hi
    refine hsaved.scanRange (hmem i hi) rfl (plain_printInt z).2 ?_
    have htime : IsTime z := ⟨by have := hz.1; omega, by have := hz.2; omega⟩
    rw [strtolErrno, CString.scanLong_printInt, if_neg (not_not.mpr (clampLong_of_isTime htime))]
    decide
  have hdayA := @hdouble 0 _ _ rfl
  have hdayB := @hdouble 1 _ _ rfl
  have hnightA := @hdouble 2 _ _ rfl
  have hnightB := @hdouble 3 _ _ rfl
  have hthreshold := @hint 4 _ _ hp.threshold rfl
  have hno := @hint 6 _ _ hp.noDiscount rfl
  have hsingle := @hint 7 _ _ hp.singlePrice rfl
  simp only [dirPriceRange, List.any_cons, List.any_nil, hdayA, hdayB, hnightA, hnightB, hthreshold, hno,
    hsingle, Bool.or_self]

/-- **A time span** that was restored has short numbers, and only the first of them where `errno` was
`ERANGE`. -/
theorem of_restoreTime {isRange : Bool} {str : List Char} {h1 m1 h2 m2 : ℤ}
    (h : restoreTime isRange str = .ok (h1, m1, h2, m2)) :
    (IsTimePart h1 ∧ IsTimePart m1 ∧ IsTimePart h2 ∧ IsTimePart m2) ∧
      (isRange = true → m1 = 0 ∧ h2 = 0 ∧ m2 = 0) := by
  have hzero : IsTimePart 0 := by decide
  obtain ⟨hok, herror⟩ := @parseTariffTimeStr_range isRange str
  unfold restoreTime at h
  split at h
  · cases h
  next time hparse =>
    obtain rfl := Except.ok.inj h
    obtain ⟨hrange, hparts⟩ := hok _ _ _ _ hparse
    exact ⟨hparts, fun hr => absurd (hrange.symm.trans hr) Bool.false_ne_true⟩
  next stored hparse =>
    obtain ⟨rfl, rfl, rfl, rfl⟩ : stored.getD 0 0 = h1 ∧ stored.getD 1 0 = m1 ∧
        stored.getD 2 0 = h2 ∧ stored.getD 3 0 = m2 := by simpa using h
    obtain rfl | ⟨-, z, hz, rfl⟩ := herror stored hparse
    · exact ⟨⟨hzero, hzero, hzero, hzero⟩, fun _ => ⟨rfl, rfl, rfl⟩⟩
    · exact ⟨⟨hz, hzero, hzero, hzero⟩, fun _ => ⟨rfl, rfl, rfl⟩⟩

/-- Of a time span only the first number is not zero. -/
def FirstOnly (p : DirPriceData) : Prop := p.mDay = 0 ∧ p.hNight = 0 ∧ p.mNight = 0

instance (p : DirPriceData) : Decidable (FirstOnly p) := inferInstanceAs (Decidable (_ ∧ _ ∧ _))

/-- What is restored of a direction can be restored. -/
theorem storable_of_restoreDirPrice {lib : CDouble} {tariffName : String} {m : Params} {isRange : Bool}
    {dir : Dir} {p : DirPriceData} (h : restoreDirPrice lib tariffName m isRange dir = .ok p) :
    DirPriceStorable p ∧ (isRange = true → FirstOnly p) := by
  simp only [restoreDirPrice, bind_eq_ok_iff] at h
  obtain ⟨str, -, ⟨h1, m1, h2, m2⟩, htime, dayA, -, dayB, -, nightA, -, nightB, -, threshold, -,
    single, -, no, -, h⟩ := h
  obtain rfl := Except.ok.inj h
  obtain ⟨hspan, hfirst⟩ := of_restoreTime htime
  exact ⟨⟨hspan.1, hspan.2.1, hspan.2.2.1, hspan.2.2.2, isInt_toInt _, isInt_toInt _, isInt_toInt _⟩,
    hfirst⟩

/-- Where the first number of a time span is all there is, `errno` does not matter. -/
theorem restoreTime_of_first {isRange : Bool} {str : List Char} {h1 m1 h2 m2 : ℤ}
    (h : restoreTime isRange str = .ok (h1, m1, h2, m2)) (hfirst : m1 = 0 ∧ h2 = 0 ∧ m2 = 0) :
    restoreTime true str = .ok (h1, m1, h2, m2) := by
  cases isRange with
  | true => exact h
  | false =>
    obtain ⟨rfl, rfl, rfl⟩ := hfirst
    unfold restoreTime at h ⊢
    split at h
    · cases h
    next time hparse =>
      obtain rfl := Except.ok.inj h
      rw [parseTariffTimeStr_erange.1 _ hparse]
      rfl
    next stored hparse =>
      rw [parseTariffTimeStr_erange.2 _ hparse]
      exact h

/-- Nor does it matter for the direction. -/
theorem restoreDirPrice_of_first {lib : CDouble} {tariffName : String} {m : Params} {isRange : Bool}
    {dir : Dir} {p : DirPriceData} (h : restoreDirPrice lib tariffName m isRange dir = .ok p)
    (hfirst : FirstOnly p) : restoreDirPrice lib tariffName m true dir = .ok p := by
  simp only [restoreDirPrice, bind_eq_ok_iff] at h ⊢
  obtain ⟨str, hstr, ⟨h1, m1, h2, m2⟩, htime, hrest⟩ := h
  refine ⟨str, hstr, (h1, m1, h2, m2), restoreTime_of_first htime ?_, hrest⟩
  obtain ⟨dayA, -, dayB, -, nightA, -, nightB, -, threshold, -, single, -, no, -, hp⟩ := hrest
  obtain rfl := Except.ok.inj hp
  exact hfirst

/-- `errno` when a direction is restored. -/
def rangeAt (lib : CDouble) (conf : Params) (isRange : Bool) (dirs : List Dir) (dir : Dir) : Bool :=
  isRange || (dirs.takeWhile (· ≠ dir)).any (dirPriceRange lib conf)

/-- The loop over the directions: it succeeds iff every round does. -/
theorem restoreDirPrices_eq_ok_iff {lib : CDouble} {tariffName : String} {m : Params} {isRange : Bool}
    {dirs : List Dir} (hdirs : dirs.Nodup) {prices prices' : Dir → DirPriceData} :
    restoreDirPrices lib tariffName m isRange dirs prices = .ok prices' ↔
      (∀ dir ∈ dirs,
        restoreDirPrice lib tariffName m (rangeAt lib m isRange dirs dir) dir = .ok (prices' dir)) ∧
        ∀ dir ∉ dirs, prices' dir = prices dir := by
  induction dirs generalizing isRange prices with
  | nil =>
    simp only [restoreDirPrices, Except.ok.injEq, List.not_mem_nil, false_imp_iff, implies_true,
      true_and, not_false_eq_true, true_imp_iff]
    exact ⟨fun h dir => h ▸ rfl, fun h => funext fun dir => (h dir).symm⟩
  | cons dir dirs ih =>
    obtain ⟨hdir, hdirs⟩ := List.nodup_cons.mp hdirs
    have hfirst : rangeAt lib m isRange (dir :: dirs) dir = isRange := by simp [rangeAt]
    have hrest : ∀ d ∈ dirs, rangeAt lib m isRange (dir :: dirs) d =
        rangeAt lib m (isRange || dirPriceRange lib m dir) dirs d := by
      intro d hd
      have hne : dir ≠ d := fun h => hdir (h ▸ hd)
      simp [rangeAt, hne, Bool.or_assoc]
    simp only [restoreDirPrices, bind_eq_ok_iff, ih hdirs]
    constructor
    · rintro ⟨p, hp, hall, hother⟩
      have hself : prices' dir = p := by rw [hother dir hdir, Function.update_self]
      refine ⟨fun d hd => ?_, fun d hd => ?_⟩
      · rcases List.mem_cons.mp hd with rfl | hd
        · rw [hfirst, hp, hself]
        · rw [hrest d hd]
          exact hall d hd
      · rw [List.mem_cons, not_or] at hd
        rw [hother d hd.2, Function.update_of_ne hd.1]
    · rintro ⟨hall, hother⟩
      refine ⟨prices' dir, hfirst ▸ hall dir List.mem_cons_self,
        fun d hd => hrest d hd ▸ hall d (List.mem_cons_of_mem _ hd), fun d hd => ?_⟩
      by_cases hdd : d = dir
      · rw [hdd, Function.update_self]
      · rw [Function.update_of_ne hdd]
        exact hother d (by simp [hdd, hd])

/-- All directions are restored. -/
theorem restoreDirPrices_finRange {lib : CDouble} {tariffName : String} {m : Params} {isRange : Bool}
    {prices prices' : Dir → DirPriceData} :
    restoreDirPrices lib tariffName m isRange (List.finRange dirNum) prices = .ok prices' ↔
      ∀ dir, restoreDirPrice lib tariffName m (rangeAt lib m isRange (List.finRange dirNum) dir) dir =
        .ok (prices' dir) := by
  rw [restoreDirPrices_eq_ok_iff (List.nodup_finRange _)]
  simp

/-- **The rest of a tariff is restored** but for the rounding of the fees. -/
theorem restoreTariffConf_of_saved (lib : CDouble) {m : Params} {conf : TariffConf}
    {writes : List (List Char × List Char)} (hsaved : Saved writes m)
    (hsub : tariffConfWrites lib conf ⊆ writes) (htimeout : IsTime conf.changePolicyTimeout) :
    restoreTariffConf lib conf.name m = .ok { conf with
      fee := (lib.strtod (lib.print conf.fee)).1
      free := (lib.strtod (lib.print conf.free)).1
      passiveCost := (lib.strtod (lib.print conf.passiveCost)).1 } := by
  have hmem : ∀ (i : ℕ) {e : List Char × List Char},
      (tariffConfWrites lib conf)[i]? = some e → e ∈ writes :=
    fun _ _ h => hsub (List.mem_of_getElem? h)
  have hpassive := hsaved.readDouble lib (hmem 0 rfl) rfl 0
  have hfee := hsaved.readDouble lib (hmem 1 rfl) rfl 0
  have hfree := hsaved.readDouble lib (hmem 2 rfl) rfl 0
  have htraff : readString m "TraffType" [] = (0, conf.traffType.toString.toList) := by
    rw [hsaved.readString (hmem 3 rfl) rfl, clean_eq_self_iff.mpr]
    cases conf.traffType <;> decide
  have hperiod : readString m "Period" "month".toList = (0, conf.period.toString.toList) := by
    rw [hsaved.readString (hmem 4 rfl) rfl, clean_eq_self_iff.mpr]
    cases conf.period <;> decide
  have hpolicy : readString m "ChangePolicy" "allow".toList =
      (0, conf.changePolicy.toString.toList) := by
    rw [hsaved.readString (hmem 5 rfl) rfl, clean_eq_self_iff.mpr]
    cases conf.changePolicy <;> decide
  have htime := hsaved.readTime (hmem 6 rfl) rfl htimeout.1 htimeout.2 0
  simp only [restoreTariffConf, hpassive, hfee, hfree, htraff, hperiod, hpolicy, htime,
    require_of_nonneg, ok_bind, TraffType.parse_toString, Period.parse_toString,
    ChangePolicy.parse_toString, lt_self_iff_false, if_false]
  rfl

/-- What can be restored of a tariff. -/
structure TariffStorable (td : TariffData) : Prop where
  /-- The directions. -/
  dirPrice : ∀ dir, DirPriceStorable (td.dirPrice dir)
  /-- A `time_t`. -/
  changePolicyTimeout : IsTime td.tariffConf.changePolicyTimeout

/-- A tariff that went through a file. -/
def restoredTariff (lib : CDouble) (isRange : Bool) (td : TariffData) : TariffData where
  tariffConf := { td.tariffConf with
    fee := (lib.strtod (lib.print td.tariffConf.fee)).1
    free := (lib.strtod (lib.print td.tariffConf.free)).1
    passiveCost := (lib.strtod (lib.print td.tariffConf.passiveCost)).1 }
  dirPrice dir := restoredDirPrice lib isRange (td.dirPrice dir)

/-- The parameters of a tariff can be told apart and are as a file can have them. -/
theorem tariffWrites_ok (lib : CDouble) (td : TariffData) :
    ((tariffWrites lib td).map fun e => CString.foldCase e.1).Nodup ∧
      ∀ e ∈ tariffWrites lib td, ParamOk e.1 := by
  have hkeys : (tariffWrites lib td).map Prod.fst = (tariffWrites .whole
      (TariffImpl.ofName "")).map Prod.fst := by
    simp only [tariffWrites, List.map_append, List.map_flatMap]
    rfl
  have hnodup : (((tariffWrites .whole (TariffImpl.ofName "")).map Prod.fst).map
      CString.foldCase).Nodup := by decide +kernel
  have hok : ∀ k ∈ (tariffWrites .whole (TariffImpl.ofName "")).map Prod.fst, ParamOk k := by
    decide +kernel
  refine ⟨?_, fun e he => hok _ (hkeys ▸ List.mem_map_of_mem he)⟩
  rw [← hkeys, List.map_map] at hnodup
  exact hnodup

/-- No value that is written contains the end of a line. -/
theorem tariffWrites_lines (lib : CDouble) (td : TariffData) :
    ∀ e ∈ tariffWrites lib td, '\n' ∉ e.2 := by
  have htraff : '\n' ∉ td.tariffConf.traffType.toString.toList := by
    cases td.tariffConf.traffType <;> decide
  have hperiod : '\n' ∉ td.tariffConf.period.toString.toList := by
    cases td.tariffConf.period <;> decide
  have hpolicy : '\n' ∉ td.tariffConf.changePolicy.toString.toList := by
    cases td.tariffConf.changePolicy <;> decide
  have hdir : ∀ dir, ∀ e ∈ dirPriceWrites lib dir (td.dirPrice dir), '\n' ∉ e.2 := by
    intro dir
    simp [dirPriceWrites, writeString, writeDouble, writeInt, (plain_print lib _).1,
      (plain_printInt _).1, (plain_timeText _ _ _ _).1]
  have hconf : ∀ e ∈ tariffConfWrites lib td.tariffConf, '\n' ∉ e.2 := by
    simp [tariffConfWrites, writeString, writeDouble, writeInt, (plain_print lib _).1,
      (plain_printInt _).1, htraff, hperiod, hpolicy]
  intro e he
  rcases List.mem_append.mp he with he | he
  · obtain ⟨dir, -, he⟩ := List.mem_flatMap.mp he
    exact hdir dir e he
  · exact hconf e he

/-- **A tariff is restored** from the file it was saved to, but for its prices and fees, and for all but
the first numbers of its time spans where `errno` was `ERANGE`. -/
theorem restoreTariff_saveTariff (lib : CDouble) {td : TariffData} {file : Option (List Char)}
    {text : List Char} (hsave : saveTariff lib td file = .ok text) (htd : TariffStorable td)
    (path : String) (isRange : Bool) :
    restoreTariff lib path td.tariffConf.name isRange (some text) =
      .ok (restoredTariff lib isRange td) := by
  unfold saveTariff at hsave
  cases hload : load file true with
  | none =>
    rw [hload] at hsave
    cases hsave
  | some cf =>
    rw [hload] at hsave
    obtain rfl := Except.ok.inj hsave
    obtain ⟨hnodup, hok⟩ := tariffWrites_ok lib td
    obtain ⟨m, hm, hsaved⟩ := exists_load_save (paramOk_of_load hload)
      (fun e he => ⟨hok e he, tariffWrites_lines lib td e he⟩) hnodup false
    have hsub : ∀ dir, dirPriceWrites lib dir (td.dirPrice dir) ⊆ tariffWrites lib td := fun dir e he =>
      List.mem_append_left _ (List.mem_flatMap.mpr ⟨dir, List.mem_finRange dir, he⟩)
    have hrange : ∀ dir, rangeAt lib m isRange (List.finRange dirNum) dir = isRange := by
      intro dir
      have hnone : ∀ d, dirPriceRange lib m d = false := fun d =>
        dirPriceRange_of_saved lib hsaved (hsub d) (htd.dirPrice d)
      simp [rangeAt, hnone]
    have hdirs : restoreDirPrices lib td.tariffConf.name m isRange (List.finRange dirNum)
        (fun _ => {}) = .ok fun dir => restoredDirPrice lib isRange (td.dirPrice dir) := by
      refine restoreDirPrices_finRange.mpr fun dir => ?_
      rw [hrange dir]
      exact restoreDirPrice_of_saved lib _ isRange hsaved (hsub dir) (htd.dirPrice dir)
    have hconf := restoreTariffConf_of_saved lib hsaved
      (List.subset_append_right _ (tariffConfWrites lib td.tariffConf)) htd.changePolicyTimeout
    simp only [restoreTariff, hm, hdirs, hconf, ok_bind]
    rfl

/-- What is restored can be restored, and of its time spans only the first numbers are not zero where
`errno` was `ERANGE`. -/
theorem storable_of_restoreTariff {lib : CDouble} {path tariffName : String} {isRange : Bool}
    {file : Option (List Char)} {td : TariffData}
    (h : restoreTariff lib path tariffName isRange file = .ok td) :
    TariffStorable td ∧ td.tariffConf.name = tariffName ∧
      (isRange = true → ∀ dir, FirstOnly (td.dirPrice dir)) := by
  unfold restoreTariff at h
  cases hload : load file false with
  | none =>
    rw [hload] at h
    cases h
  | some m =>
    simp only [hload, bind_eq_ok_iff] at h
    obtain ⟨prices, hprices, conf, hconf, h⟩ := h
    obtain rfl := Except.ok.inj h
    have hdir := fun dir => storable_of_restoreDirPrice (restoreDirPrices_finRange.mp hprices dir)
    simp only [restoreTariffConf, bind_eq_ok_iff] at hconf
    obtain ⟨fee, -, free, -, passive, -, str, -, hconf⟩ := hconf
    obtain rfl := Except.ok.inj hconf
    refine ⟨⟨fun dir => (hdir dir).1, ?_⟩, rfl, fun hr dir => (hdir dir).2 (by rw [hr]; rfl)⟩
    change IsTime (readTime m "ChangePolicyTimeout" 0).2
    unfold readTime readNumber
    cases m.lookup "ChangePolicyTimeout".toList with
    | none => decide
    | some v =>
      dsimp only
      split_ifs
      · decide
      · exact isTime_clampLong _

/-- Where the first numbers of its time spans are all there is, `errno` does not matter for a tariff. -/
theorem restoreTariff_of_first {lib : CDouble} {path tariffName : String} {file : Option (List Char)}
    {td : TariffData} (h : restoreTariff lib path tariffName false file = .ok td)
    (hfirst : ∀ dir, FirstOnly (td.dirPrice dir)) :
    restoreTariff lib path tariffName true file = .ok td := by
  unfold restoreTariff at h ⊢
  cases hload : load file false with
  | none =>
    rw [hload] at h
    cases h
  | some m =>
    simp only [hload, bind_eq_ok_iff] at h ⊢
    obtain ⟨prices, hprices, conf, hconf, h⟩ := h
    obtain rfl := Except.ok.inj h
    refine ⟨prices, restoreDirPrices_finRange.mpr fun dir => ?_, conf, hconf, rfl⟩
    exact restoreDirPrice_of_first (restoreDirPrices_finRange.mp hprices dir) (hfirst dir)

/-- Nothing is restored from an empty file. -/
theorem restoreTariff_nil (lib : CDouble) (path tariffName : String) (isRange : Bool) :
    restoreTariff lib path tariffName isRange (some []) = .error (.message
      ("Cannot read tariff " ++ tariffName ++ ". Parameter " ++ dirParam "Time" 0)) := by
  have hload : load (some []) false = some .empty := rfl
  have hdir : restoreDirPrice lib tariffName .empty isRange 0 = .error (.message
      ("Cannot read tariff " ++ tariffName ++ ". Parameter " ++ dirParam "Time" 0)) := rfl
  simp only [restoreTariff, hload, List.finRange_succ, restoreDirPrices, hdir]
  rfl

end FilesStore

/-- What is to be restored of a tariff: everything but the numbers of type `double`. -/
def tariffView (td : TariffData) : TariffData where
  tariffConf := { td.tariffConf with fee := 0, free := 0, passiveCost := 0 }
  dirPrice dir := { td.dirPrice dir with
    priceDayA := 0, priceDayB := 0, priceNightA := 0, priceNightB := 0 }

theorem tariffStorable_view {td : TariffData} :
    FilesStore.TariffStorable (tariffView td) ↔ FilesStore.TariffStorable td :=
  ⟨fun h => ⟨fun dir => ⟨(h.1 dir).1, (h.1 dir).2, (h.1 dir).3, (h.1 dir).4, (h.1 dir).5,
    (h.1 dir).6, (h.1 dir).7⟩, h.2⟩,
    fun h => ⟨fun dir => ⟨(h.1 dir).1, (h.1 dir).2, (h.1 dir).3, (h.1 dir).4, (h.1 dir).5,
    (h.1 dir).6, (h.1 dir).7⟩, h.2⟩⟩

/-- Tariffs as entries that are mirrored in files, while `errno` is not `ERANGE`. -/
def tariffFormat (lib : CDouble) (path : String) :
    Mirror.Format String TariffData (List Char) TariffData where
  name := TariffImpl.getName
  view := tariffView
  blank := []
  save f x := (FilesStore.saveTariff lib x f).toOption
  restore n c := (FilesStore.restoreTariff lib path n false (some c)).toOption
  listed n := n ≠ ""
  Storable := FilesStore.TariffStorable
  name_eq h := by
    have := congrArg TariffImpl.getName h
    exact this
  restore_blank n := by rw [FilesStore.restoreTariff_nil]; rfl
  storable_of_restore h :=
    tariffStorable_view.mpr (FilesStore.storable_of_restoreTariff (toOption_eq_some_iff.mp h)).1
  restore_save h hst :=
    ⟨_, toOption_eq_some_iff.mpr (FilesStore.restoreTariff_saveTariff lib
      (toOption_eq_some_iff.mp h) (tariffStorable_view.mp hst) path false), rfl⟩

/-- Where `errno` is `ERANGE`, only the first numbers of time spans are restored; `isRange` tells of every
tariff whether it is when its file has been read. -/
def tariffLoss (lib : CDouble) (path : String) (isRange : String → Bool) :
    Mirror.Loss (tariffFormat lib path) where
  restore n c := (FilesStore.restoreTariff lib path n (isRange n) (some c)).toOption
  Spared td := isRange td.tariffConf.name = true → ∀ dir, FilesStore.FirstOnly (td.dirPrice dir)
  restore_blank n := by
    change (FilesStore.restoreTariff lib path n (isRange n) (some [])).toOption = none
    rw [FilesStore.restoreTariff_nil]
    rfl
  spared_of_restore h := by
    obtain ⟨hst, rfl, hfirst⟩ := FilesStore.storable_of_restoreTariff (toOption_eq_some_iff.mp h)
    exact ⟨tariffStorable_view.mpr hst, hfirst⟩
  restore_of_spared {n c a} h hspared := by
    have hrestore := toOption_eq_some_iff.mp h
    have hname : a.tariffConf.name = n := (FilesStore.storable_of_restoreTariff hrestore).2.1
    refine ⟨a, toOption_eq_some_iff.mpr ?_, rfl⟩
    cases hr : isRange n with
    | false => exact hrestore
    | true => exact FilesStore.restoreTariff_of_first hrestore (hspared (hname.symm ▸ hr))

/-! ## The registry of tariffs with its files -/

/-- The registry of tariffs and their directory. -/
structure TariffFiles where
  /-- The registry. -/
  registry : TariffsImpl := {}
  /-- The directory. -/
  files : Files := fun _ => none

/-- The operations on tariffs. -/
inductive TariffOp
  /-- `TariffsImpl::Add`. -/
  | add (priv : Priv) (name : String)
  /-- `TariffsImpl::Del`. -/
  | del (priv : Priv) (name : String)
  /-- `TariffsImpl::Chg`. -/
  | chg (priv : Priv) (td : TariffData)

/-- The operation of the mirror. -/
def TariffOp.mirror : TariffOp → Mirror.Op String TariffData
  | .add _ name => .add (TariffImpl.ofName name)
  | .del _ name => .del name
  | .chg _ td => .change td

namespace TariffFiles

section Operations

variable (lib : CDouble) (path : String)

/-- An operation with its effect on the files, `none` if it is not successful. -/
def step (s : TariffFiles) : TariffOp → Option TariffFiles
  | .add priv name =>
    match s.registry.add priv none name with
    | (true, r) => some ⟨r, Function.update s.files (entryFile ".tf" name) (some [])⟩
    | (false, _) => none
  | .del priv name =>
    match s.registry.del priv none name with
    | (true, r) => some ⟨r, Function.update s.files (entryFile ".tf" name) none⟩
    | (false, _) => none
  | .chg priv td =>
    match FilesStore.saveTariff lib td (s.files (entryFile ".tf" td.tariffConf.name)) with
    | .error _ => none
    | .ok text =>
      match s.registry.chg priv none td with
      | (true, r) =>
        some ⟨r, Function.update s.files (entryFile ".tf" td.tariffConf.name) (some text)⟩
      | (false, _) => none

/-- `TariffsImpl::ReadTariffs` for the files in a directory; `isRange` tells of every tariff whether
`errno` is `ERANGE` when its file has been read. -/
def read (isRange : String → Bool) (files : Files) (ls : List (List Char)) : Bool × TariffsImpl :=
  readLoop (fun n => FilesStore.restoreTariff lib path n (isRange n) (files (entryFile ".tf" n)))
    TariffsImpl.pushBack (getFileList ls ".tf") {}

/-- Reading the registry again succeeds and gives the tariffs that are there, up to their prices and
fees. -/
def Restarts (isRange : String → Bool) (s : TariffFiles) (ls : List (List Char)) : Prop :=
  (read lib path isRange s.files ls).1 = false ∧
    ((read lib path isRange s.files ls).2.tariffs.map tariffView).Perm
      (s.registry.tariffs.map tariffView)

/-- The registry as a mirror. -/
def mirror (s : TariffFiles) : Mirror.State String TariffData (List Char) :=
  ⟨s.registry.tariffs, fun n => s.files (entryFile ".tf" n)⟩

end Operations

variable {lib : CDouble} {path : String}

theorem tariffs_pushBack (r : TariffsImpl) (t : TariffImpl) :
    (r.pushBack t).tariffs = r.tariffs ++ [t] := by
  simp only [TariffsImpl.pushBack]
  split_ifs <;> rfl

/-- **Registry and store mirror each other**: what a successful operation does. -/
theorem mirror_step {s s' : TariffFiles} {op : TariffOp} (h : s.step lib op = some s') :
    Mirror.Step (tariffFormat lib path) s.mirror op.mirror s'.mirror := by
  cases op with
  | add priv n =>
    simp only [step, TariffsImpl.add] at h
    split_ifs at h with hpriv
    cases hfind : s.registry.findIdx n with
    | some i =>
      rw [hfind] at h
      cases h
    | none =>
      rw [hfind] at h
      obtain rfl := Option.some.inj h
      refine ⟨TariffsImpl.findIdx_eq_none.mp hfind, ?_, update_entryFile _ _ _ _⟩
      change (s.registry.pushBack (TariffImpl.ofName n)).tariffs.Perm _
      rw [tariffs_pushBack]
      exact List.perm_append_singleton _ _
  | del priv n =>
    simp only [step, TariffsImpl.del] at h
    split_ifs at h with hpriv
    cases hfind : s.registry.findIdx n with
    | none =>
      rw [hfind] at h
      cases h
    | some i =>
      rw [hfind] at h
      obtain rfl := Option.some.inj h
      obtain ⟨x, hx, hname⟩ := TariffsImpl.getName_of_findIdx hfind
      obtain ⟨hi, rfl⟩ := List.getElem?_eq_some_iff.mp hx
      exact ⟨_, hname, (List.getElem_cons_eraseIdx_perm hi).symm, update_entryFile _ _ _ _⟩
  | chg priv td =>
    simp only [step] at h
    cases hsave : FilesStore.saveTariff lib td
        (s.files (entryFile ".tf" td.tariffConf.name)) with
    | error e =>
      rw [hsave] at h
      cases h
    | ok text =>
      simp only [hsave, TariffsImpl.chg] at h
      split_ifs at h with hpriv
      cases hfind : s.registry.findIdx td.tariffConf.name with
      | none =>
        rw [hfind] at h
        cases h
      | some i =>
        rw [hfind] at h
        obtain rfl := Option.some.inj h
        obtain ⟨x, hx, hname⟩ := TariffsImpl.getName_of_findIdx hfind
        obtain ⟨hi, rfl⟩ := List.getElem?_eq_some_iff.mp hx
        exact ⟨_, s.registry.tariffs.eraseIdx i, text, hname,
          (List.getElem_cons_eraseIdx_perm hi).symm, List.set_perm_cons_eraseIdx hi td,
          toOption_eq_some_iff.mpr hsave, update_entryFile _ _ _ _⟩

/-- The tariffs that are pushed into a registry. -/
theorem tariffs_foldl_pushBack (l : List TariffData) (r : TariffsImpl) :
    (l.foldl TariffsImpl.pushBack r).tariffs = r.tariffs ++ l := by
  induction l generalizing r with
  | nil => simp
  | cons x l ih =>
    rw [List.foldl_cons, ih, tariffs_pushBack]
    simp

/-- **`TariffsImpl::ReadTariffs` is a restart of the mirror.** -/
theorem restarts_iff_mirror {isRange : String → Bool} {s : TariffFiles} {ls : List (List Char)}
    (hls : ReadDir s.files ls) :
    Restarts lib path isRange s ls ↔
      Mirror.Restarts (tariffLoss lib path isRange).format s.mirror (getFileList ls ".tf") := by
  have hall := forall₂_restore_iff hls ".tf" fun n =>
    FilesStore.restoreTariff lib path n (isRange n)
  have hdata : ∀ l : List TariffData,
      (l.foldl TariffsImpl.pushBack ({} : TariffsImpl)).tariffs = l := fun l =>
    tariffs_foldl_pushBack l {}
  constructor
  · rintro ⟨hok, hperm⟩
    obtain ⟨l, hl, hr⟩ := readLoop_eq_iff.mp (Prod.ext hok rfl :
      read lib path isRange s.files ls = (false, (read lib path isRange s.files ls).2))
    rw [hr, hdata] at hperm
    exact ⟨l, (hall l).mp hl, hperm⟩
  · rintro ⟨l, hl, hperm⟩
    have hread : read lib path isRange s.files ls = (false, l.foldl TariffsImpl.pushBack {}) :=
      readLoop_eq_iff.mpr ⟨l, (hall l).mpr hl, rfl⟩
    refine ⟨congrArg Prod.fst hread, ?_⟩
    rw [hread, hdata]
    exact hperm

end TariffFiles

/-! ## Tariffs with times of the day -/

/-- The time span of a direction consists of two times of the day. -/
structure DirPriceData.IsTimeSpan (p : DirPriceData) : Prop where
  /-- Hour of the start of the day. -/
  hDay : 0 ≤ p.hDay ∧ p.hDay < 24
  /-- Minute of the start of the day. -/
  mDay : 0 ≤ p.mDay ∧ p.mDay < 60
  /-- Hour of the start of the night. -/
  hNight : 0 ≤ p.hNight ∧ p.hNight < 24
  /-- Minute of the start of the night. -/
  mNight : 0 ≤ p.mNight ∧ p.mNight < 60

/-- Times of the day can be restored. -/
theorem DirPriceData.IsTimeSpan.storable {p : DirPriceData} (h : p.IsTimeSpan)
    (hthreshold : IsInt p.threshold) (hsingle : IsInt p.singlePrice) (hno : IsInt p.noDiscount) :
    FilesStore.DirPriceStorable p := by
  have hpart : ∀ {z b : ℤ}, b ≤ 60 → 0 ≤ z ∧ z < b → IsTimePart z := by
    intro z b hb hz
    unfold IsTimePart
    omega
  exact ⟨hpart (by decide) h.hDay, hpart (by decide) h.mDay, hpart (by decide) h.hNight,
    hpart (by decide) h.mNight, hthreshold, hsingle, hno⟩

/-- **When tariffs survive the file store**: everything but the numbers of type `double` is restored as
it was saved, whatever was in the file before, iff `errno` is not `ERANGE` or nothing is lost then. -/
theorem tariff_survives_iff (lib : CDouble) (td : TariffData)
    (htime : ∀ dir, (td.dirPrice dir).IsTimeSpan)
    (hint : ∀ dir, IsInt (td.dirPrice dir).threshold ∧ IsInt (td.dirPrice dir).singlePrice ∧
      IsInt (td.dirPrice dir).noDiscount)
    (htimeout : IsTime td.tariffConf.changePolicyTimeout) (file : Option (List Char))
    {text : List Char} (hsave : FilesStore.saveTariff lib td file = .ok text) (path : String)
    (isRange : Bool) :
    (∃ td', FilesStore.restoreTariff lib path td.tariffConf.name isRange (some text) = .ok td' ∧
      tariffView td' = tariffView td) ↔
        (isRange = true → ∀ dir, FilesStore.FirstOnly (td.dirPrice dir)) := by
  have hdir : ∀ dir, FilesStore.DirPriceStorable (td.dirPrice dir) := fun dir =>
    (htime dir).storable (hint dir).1 (hint dir).2.1 (hint dir).2.2
  have hrestore := FilesStore.restoreTariff_saveTariff lib hsave ⟨hdir, htimeout⟩ path
  constructor
  · rintro ⟨td', htd', hview⟩ hr dir
    have hfirst := (FilesStore.storable_of_restoreTariff htd').2.2 hr dir
    have hprice := congrArg (fun t => TariffData.dirPrice t dir) hview
    refine ⟨?_, ?_, ?_⟩
    · exact (congrArg DirPriceData.mDay hprice).symm.trans hfirst.1
    · exact (congrArg DirPriceData.hNight hprice).symm.trans hfirst.2.1
    · exact (congrArg DirPriceData.mNight hprice).symm.trans hfirst.2.2
  · intro hfirst
    cases isRange with
    | false => exact ⟨_, hrestore false, rfl⟩
    | true =>
      refine ⟨_, FilesStore.restoreTariff_of_first (hrestore false) fun dir => ?_, rfl⟩
      exact hfirst rfl dir

/-- Cheap nights, and a negative threshold. -/
def Sample.nightPrice : DirPriceData :=
  { hDay := 9, mDay := 5, hNight := 22, mNight := 30, threshold := -1, singlePrice := 1 }

/-- A tariff with cheap nights. -/
def Sample.nightTariff : TariffData :=
  { TariffImpl.ofName "night" with dirPrice := fun _ => Sample.nightPrice }

/-- What the tariff with cheap nights is made of. -/
theorem Sample.nightTariff_ok : (∀ dir, (Sample.nightTariff.dirPrice dir).IsTimeSpan) ∧
    (∀ dir, IsInt (Sample.nightTariff.dirPrice dir).threshold ∧
      IsInt (Sample.nightTariff.dirPrice dir).singlePrice ∧
      IsInt (Sample.nightTariff.dirPrice dir).noDiscount) ∧
    IsTime Sample.nightTariff.tariffConf.changePolicyTimeout := by
  have hspan : Sample.nightPrice.IsTimeSpan := ⟨by decide, by decide, by decide, by decide⟩
  have hint : IsInt (-1) ∧ IsInt 1 ∧ IsInt 0 := by decide
  have htimeout : IsTime 0 := by decide
  exact ⟨fun _ => hspan, fun _ => hint, htimeout⟩

/-- A tariff with cheap nights survives. -/
theorem tariff_survives_night :
    ∃ text td', FilesStore.saveTariff .whole Sample.nightTariff none = .ok text ∧
      FilesStore.restoreTariff .whole "tariffs" "night" false (some text) = .ok td' ∧
      tariffView td' = tariffView Sample.nightTariff := by
  obtain ⟨text, htext⟩ : ∃ text, FilesStore.saveTariff .whole Sample.nightTariff none = .ok text :=
    ⟨_, rfl⟩
  obtain ⟨hspan, hint, htimeout⟩ := Sample.nightTariff_ok
  obtain ⟨td', hrestore, hview⟩ := (tariff_survives_iff .whole Sample.nightTariff hspan hint htimeout none
    htext "tariffs" false).mpr fun h => (by cases h)
  exact ⟨text, td', htext, hrestore, hview⟩

/-- **The times of a tariff are lost** where a number beyond `unsigned long` was read before, as in the
file of an administrator. -/
theorem tariff_times_lost :
    ¬ ∀ text, FilesStore.saveTariff .whole Sample.nightTariff none = .ok text →
      ∃ td', FilesStore.restoreTariff .whole "tariffs" "night"
          (strtoulErrno 0 "99999999999999999999".toList = erange) (some text) = .ok td' ∧
        tariffView td' = tariffView Sample.nightTariff := by
  intro h
  obtain ⟨text, htext⟩ : ∃ text, FilesStore.saveTariff .whole Sample.nightTariff none = .ok text :=
    ⟨_, rfl⟩
  have hrange : decide (strtoulErrno 0 "99999999999999999999".toList = erange) = true := by decide
  obtain ⟨td', htd', hview⟩ := h text htext
  rw [hrange] at htd'
  have hfirst := (FilesStore.storable_of_restoreTariff htd').2.2 rfl 0
  have hminute : (td'.dirPrice 0).mDay = 5 :=
    congrArg (fun t => (TariffData.dirPrice t 0).mDay) hview
  exact absurd (hminute.symm.trans hfirst.1) (by decide)

end Stargazer
