import Stargazer.Lib.XmlRpc
import Stargazer.Lib.Halting
import Stargazer.RpcConfig.UserHelper
import Mathlib.Tactic.Ring

set_option relaxedAutoImplicit false
set_option autoImplicit false

/-!
# Structures of any shape

`USER_HELPER::SetUserInfo` and `TARIFF_HELPER::SetTariffInfo` (`plugins/configuration/rpcconfig`) get a
structure that may have any shape.  A member of another type than the one it is taken for ends the call
by an exception; an array that is too short is read behind its end.  In `Stargazer.RpcConfig.UserHelper`
there is only what happens to a structure that is as it should be.

A call is over (`stopped`) at an exception, and has `failed` where it reads behind an array.

## Main definitions

* `Stargazer.UserHelper.setUserStruct` — `SetUserInfo` for a structure.
* `Stargazer.TariffHelper.getTariffInfo`, `Stargazer.TariffHelper.setTariffInfo`.
* `Stargazer.UserHelper.Safe`, `Stargazer.TariffHelper.Safe` — nothing goes wrong with a structure.
* `Stargazer.TariffHelper.RoundTrips` — a tariff comes through.

## Main results

* `Stargazer.UserHelper.safe_iff`, `Stargazer.TariffHelper.safe_iff` — when nothing goes wrong.
* `Stargazer.TariffHelper.roundTrips` — every tariff comes through.
* `Stargazer.rpc_structures_safe_iff` — when everything is right.
-/

namespace Stargazer

open XmlRpc

/-! ## Tariffs -/

/-- `formatTime` and `readTime`: what is printed is read back. -/
structure TimeText where
  formatTime : Time → String
  readTime : String → Time
  readTime_formatTime : ∀ t, readTime (formatTime t) = t

/-- Times as decimal numbers. -/
def TimeText.decimal : TimeText where
  formatTime := fun t => String.ofList (CString.printInt t)
  readTime := fun text => (CString.scanLong text.toList).1
  readTime_formatTime := fun t => by simp [CString.scanLong_printInt]

/-- The values of the enumeration. -/
def TraffType.number : TraffType → ℤ
  | .up => 0
  | .down => 1
  | .upDown => 2
  | .max => 3

namespace TariffHelper

/-- `TariffData`, with the type of the traffic as the number it is. -/
structure Data where
  name : String
  fee : Money
  free : Money
  passiveCost : Money
  traffType : ℤ
  period : Period
  changePolicy : ChangePolicy
  changePolicyTimeout : Time
  dirPrice : Dir → DirPriceData

/-- The data of a tariff. -/
def Data.ofTariff (td : TariffData) : Data where
  name := td.tariffConf.name
  fee := td.tariffConf.fee
  free := td.tariffConf.free
  passiveCost := td.tariffConf.passiveCost
  traffType := td.tariffConf.traffType.number
  period := td.tariffConf.period
  changePolicy := td.tariffConf.changePolicy
  changePolicyTimeout := td.tariffConf.changePolicyTimeout
  dirPrice := td.dirPrice

/-- The structure of a direction. -/
def priceStruct (p : DirPriceData) : Value := .struct
  [("hday", .int p.hDay), ("mday", .int p.mDay), ("hnight", .int p.hNight), ("mnight", .int p.mNight),
    ("pricedaya", .double (p.priceDayA * 1024 * 1024)),
    ("pricedayb", .double (p.priceDayB * 1024 * 1024)),
    ("pricenighta", .double (p.priceNightA * 1024 * 1024)),
    ("pricenightb", .double (p.priceNightB * 1024 * 1024)), ("threshold", .int p.threshold),
    ("singleprice", .boolean (p.singlePrice ≠ 0)), ("nodiscount", .boolean (p.noDiscount ≠ 0))]

/-- `TARIFF_HELPER::GetTariffInfo`. -/
def getTariffInfo (tt : TimeText) (data : Data) : Value := .struct
  [("result", .boolean true), ("name", .string data.name), ("fee", .double data.fee),
    ("freemb", .double data.free), ("passivecost", .double data.passiveCost),
    ("traffType", .int data.traffType), ("period", .string data.period.toString),
    ("changePolicy", .string data.changePolicy.toString),
    ("changePolicyTimeout", .string (tt.formatTime data.changePolicyTimeout)),
    ("dirprices", .array ((List.finRange 10).map fun i => priceStruct (data.dirPrice i)))]

/-- The direction that a structure describes; `none` is an exception. -/
def readPrice (v : Value) : Option DirPriceData := do
  let m ← v.struct?
  let mDay ← field m "mday" Value.int?
  let hDay ← field m "hday" Value.int?
  let mNight ← field m "mnight" Value.int?
  let hNight ← field m "hnight" Value.int?
  let priceDayA ← field m "pricedaya" Value.double?
  let priceDayB ← field m "pricedayb" Value.double?
  let priceNightA ← field m "pricenighta" Value.double?
  let priceNightB ← field m "pricenightb" Value.double?
  let threshold ← field m "threshold" Value.int?
  let singlePrice ← field m "singleprice" Value.boolean?
  let noDiscount ← field m "nodiscount" Value.boolean?
  return { hDay, mDay, hNight, mNight, threshold
           priceDayA := priceDayA / 1024 / 1024
           priceDayB := priceDayB / 1024 / 1024
           priceNightA := priceNightA / 1024 / 1024
           priceNightB := priceNightB / 1024 / 1024
           singlePrice := UserHelper.boolInt singlePrice
           noDiscount := UserHelper.boolInt noDiscount }

/-- The members of the structure but for `dirprices`; `none` is an exception. -/
def readConf (tt : TimeText) (m : List (String × Value)) (data : Data) : Option Data := do
  let fee ← member m "fee" Value.double? data.fee
  let free ← member m "freemb" Value.double? data.free
  let passiveCost ← member m "passivecost" Value.double? data.passiveCost
  let traffType ← member m "traffType" Value.int? data.traffType
  let period ← member m "period" (fun v => v.string?.map fun s => Period.parse s.toList) data.period
  let changePolicy ←
    member m "changePolicy" (fun v => v.string?.map fun s => ChangePolicy.parse s.toList) data.changePolicy
  let changePolicyTimeout ←
    member m "changePolicyTimeout" (fun v => v.string?.map tt.readTime) data.changePolicyTimeout
  return { data with fee, free, passiveCost, traffType, period, changePolicy, changePolicyTimeout }

/-- One direction. -/
def readDir (prices : List Value) (data : Data) (i : Dir) : Halting Data :=
  match prices[i.val]? with
  | none => .failed
  | some v =>
    match readPrice v with
    | none => .stopped
    | some p => .going { data with dirPrice := Function.update data.dirPrice i p }

/-- The member `dirprices`. -/
def readPrices (m : List (String × Value)) (data : Data) : Halting Data :=
  match m.lookup "dirprices" with
  | none => .going data
  | some v =>
    match v.array? with
    | none => .stopped
    | some prices => Halting.run (readDir prices) data (List.finRange 10)

/-- `TARIFF_HELPER::SetTariffInfo`. -/
def setTariffInfo (tt : TimeText) (info : Value) (data : Data) : Halting Data :=
  match info.struct? with
  | none => .stopped
  | some m =>
    match readConf tt m data with
    | none => .stopped
    | some data => readPrices m data

/-- The type of the traffic is one of the enumeration. -/
def Data.Defined (data : Data) : Prop := ∃ t : TraffType, data.traffType = t.number

/-- **Nothing goes wrong with a structure**, whichever tariff it is for: no price is read behind the
array, and the type of the traffic is one of the enumeration. -/
def Safe (tt : TimeText) (info : Value) : Prop :=
  ∀ data : Data, data.Defined → setTariffInfo tt info data ≠ .failed ∧
    ∀ data', setTariffInfo tt info data = .going data' → data'.Defined

/-- The numbers, flags and enumerations of a tariff. -/
structure SameNumbers (data' data : Data) : Prop where
  traffType : data'.traffType = data.traffType
  period : data'.period = data.period
  changePolicy : data'.changePolicy = data.changePolicy
  changePolicyTimeout : data'.changePolicyTimeout = data.changePolicyTimeout
  hDay : ∀ i, (data'.dirPrice i).hDay = (data.dirPrice i).hDay
  mDay : ∀ i, (data'.dirPrice i).mDay = (data.dirPrice i).mDay
  hNight : ∀ i, (data'.dirPrice i).hNight = (data.dirPrice i).hNight
  mNight : ∀ i, (data'.dirPrice i).mNight = (data.dirPrice i).mNight
  threshold : ∀ i, (data'.dirPrice i).threshold = (data.dirPrice i).threshold
  singlePrice : ∀ i, (data'.dirPrice i).singlePrice = (data.dirPrice i).singlePrice
  noDiscount : ∀ i, (data'.dirPrice i).noDiscount = (data.dirPrice i).noDiscount

/-- The flags of all directions are zero or one. -/
def Flags (td : TariffData) : Prop :=
  ∀ i, ((td.dirPrice i).singlePrice = 0 ∨ (td.dirPrice i).singlePrice = 1) ∧
    ((td.dirPrice i).noDiscount = 0 ∨ (td.dirPrice i).noDiscount = 1)

/-- **A tariff comes through**, whatever was there before. -/
def RoundTrips (tt : TimeText) (td : TariffData) (data : Data) : Prop :=
  Flags td → ∃ data', setTariffInfo tt (getTariffInfo tt (.ofTariff td)) data = .going data' ∧
    SameNumbers data' (.ofTariff td)

/-! ### What can be read -/

/-- Every member of a tariff that is there, but for the prices, has its type. -/
structure ConfTyped (m : List (String × Value)) : Prop where
  fee : Typed m "fee" Value.double?
  freemb : Typed m "freemb" Value.double?
  passivecost : Typed m "passivecost" Value.double?
  traffType : Typed m "traffType" Value.int?
  period : Typed m "period" Value.string?
  changePolicy : Typed m "changePolicy" Value.string?
  changePolicyTimeout : Typed m "changePolicyTimeout" Value.string?

/-- Every member of a direction is there, and has its type. -/
structure PriceTyped (v : Value) : Prop where
  isStruct : v.struct?.isSome = true
  ints : ∀ m, v.struct? = some m → ∀ name ∈ ["mday", "hday", "mnight", "hnight", "threshold"],
    (field m name Value.int?).isSome = true
  doubles : ∀ m, v.struct? = some m →
    ∀ name ∈ ["pricedaya", "pricedayb", "pricenighta", "pricenightb"],
      (field m name Value.double?).isSome = true
  flags : ∀ m, v.struct? = some m → ∀ name ∈ ["singleprice", "nodiscount"],
    (field m name Value.boolean?).isSome = true

/-- The prices that are there for a direction have their types. -/
def PricesTyped (m : List (String × Value)) : Prop :=
  ∀ v, m.lookup "dirprices" = some v →
    ∃ prices, v.array? = some prices ∧ ∀ p ∈ prices.take 10, PriceTyped p

/-- There are prices for all directions, or none. -/
def EnoughPrices (m : List (String × Value)) : Prop :=
  ∀ prices, m.lookup "dirprices" = some (.array prices) → 10 ≤ prices.length

/-- The type of the traffic is one of the enumeration, if it is there. -/
def TypeDefined (m : List (String × Value)) : Prop :=
  ∀ z, m.lookup "traffType" = some (.int z) → ∃ t : TraffType, z = t.number

/-- If there is no exception, then there are prices for all directions or none, and the type of the
traffic is one. -/
def InRange (info : Value) : Prop :=
  ∀ m, info.struct? = some m → ConfTyped m → PricesTyped m → EnoughPrices m ∧ TypeDefined m

section

variable {tt : TimeText} {m : List (String × Value)} {data data' : Data}

theorem typed_map_iff {α β : Type} {name : String} {conv : Value → Option α} {f : α → β} :
    Typed m name (fun v => (conv v).map f) ↔ Typed m name conv := by
  simp only [Typed, Option.isSome_map]

/-- The members but for the prices. -/
theorem exists_readConf_iff : (∃ data', readConf tt m data = some data') ↔ ConfTyped m := by
  constructor
  · rintro ⟨data', h⟩
    obtain ⟨_, h1, h⟩ := Option.bind_eq_some_iff.mp h
    obtain ⟨_, h2, h⟩ := Option.bind_eq_some_iff.mp h
    obtain ⟨_, h3, h⟩ := Option.bind_eq_some_iff.mp h
    obtain ⟨_, h4, h⟩ := Option.bind_eq_some_iff.mp h
    obtain ⟨_, h5, h⟩ := Option.bind_eq_some_iff.mp h
    obtain ⟨_, h6, h⟩ := Option.bind_eq_some_iff.mp h
    obtain ⟨_, h7, h⟩ := Option.bind_eq_some_iff.mp h
    exact ⟨exists_member_iff.mp ⟨_, h1⟩, exists_member_iff.mp ⟨_, h2⟩, exists_member_iff.mp ⟨_, h3⟩,
      exists_member_iff.mp ⟨_, h4⟩, typed_map_iff.mp (exists_member_iff.mp ⟨_, h5⟩),
      typed_map_iff.mp (exists_member_iff.mp ⟨_, h6⟩), typed_map_iff.mp (exists_member_iff.mp ⟨_, h7⟩)⟩
  · rintro ⟨h1, h2, h3, h4, h5, h6, h7⟩
    obtain ⟨_, h1⟩ := exists_member_iff.mpr h1
    obtain ⟨_, h2⟩ := exists_member_iff.mpr h2
    obtain ⟨_, h3⟩ := exists_member_iff.mpr h3
    obtain ⟨_, h4⟩ := exists_member_iff.mpr h4
    obtain ⟨_, h5⟩ := exists_member_iff.mpr (typed_map_iff.mpr h5)
    obtain ⟨_, h6⟩ := exists_member_iff.mpr (typed_map_iff.mpr h6)
    obtain ⟨_, h7⟩ := exists_member_iff.mpr (typed_map_iff.mpr h7)
    unfold readConf
    rw [h1, h2, h3, h4, h5, h6, h7]
    exact ⟨_, rfl⟩

/-- The type of the traffic is the one that was there, or the one of the structure. -/
theorem traffType_readConf (h : readConf tt m data = some data') :
    member m "traffType" Value.int? data.traffType = some data'.traffType := by
  obtain ⟨_, h1, h⟩ := Option.bind_eq_some_iff.mp h
  obtain ⟨_, h2, h⟩ := Option.bind_eq_some_iff.mp h
  obtain ⟨_, h3, h⟩ := Option.bind_eq_some_iff.mp h
  obtain ⟨_, h4, h⟩ := Option.bind_eq_some_iff.mp h
  obtain ⟨_, h5, h⟩ := Option.bind_eq_some_iff.mp h
  obtain ⟨_, h6, h⟩ := Option.bind_eq_some_iff.mp h
  obtain ⟨_, h7, h⟩ := Option.bind_eq_some_iff.mp h
  obtain rfl := Option.some.inj h
  exact h4

/-- The structure of a direction. -/
theorem exists_readPrice_iff {v : Value} : (∃ p, readPrice v = some p) ↔ PriceTyped v := by
  constructor
  · rintro ⟨p, h⟩
    obtain ⟨m, hm, h⟩ := Option.bind_eq_some_iff.mp h
    obtain ⟨_, h1, h⟩ := Option.bind_eq_some_iff.mp h
    obtain ⟨_, h2, h⟩ := Option.bind_eq_some_iff.mp h
    obtain ⟨_, h3, h⟩ := Option.bind_eq_some_iff.mp h
    obtain ⟨_, h4, h⟩ := Option.bind_eq_some_iff.mp h
    obtain ⟨_, h5, h⟩ := Option.bind_eq_some_iff.mp h
    obtain ⟨_, h6, h⟩ := Option.bind_eq_some_iff.mp h
    obtain ⟨_, h7, h⟩ := Option.bind_eq_some_iff.mp h
    obtain ⟨_, h8, h⟩ := Option.bind_eq_some_iff.mp h
    obtain ⟨_, h9, h⟩ := Option.bind_eq_some_iff.mp h
    obtain ⟨_, h10, h⟩ := Option.bind_eq_some_iff.mp h
    obtain ⟨_, h11, h⟩ := Option.bind_eq_some_iff.mp h
    refine ⟨by rw [hm]; rfl, ?_, ?_, ?_⟩
    · intro m' hm'
      obtain rfl := Option.some.inj (hm.symm.trans hm')
      simp [h1, h2, h3, h4, h9]
    · intro m' hm'
      obtain rfl := Option.some.inj (hm.symm.trans hm')
      simp [h5, h6, h7, h8]
    · intro m' hm'
      obtain rfl := Option.some.inj (hm.symm.trans hm')
      simp [h10, h11]
  · rintro ⟨hstruct, hints, hdoubles, hflags⟩
    obtain ⟨m, hm⟩ := Option.isSome_iff_exists.mp hstruct
    have hints := hints m hm
    have hdoubles := hdoubles m hm
    have hflags := hflags m hm
    simp only [List.forall_mem_cons, Option.isSome_iff_exists] at hints hdoubles hflags
    obtain ⟨⟨_, h1⟩, ⟨_, h2⟩, ⟨_, h3⟩, ⟨_, h4⟩, ⟨_, h9⟩, -⟩ := hints
    obtain ⟨⟨_, h5⟩, ⟨_, h6⟩, ⟨_, h7⟩, ⟨_, h8⟩, -⟩ := hdoubles
    obtain ⟨⟨_, h10⟩, ⟨_, h11⟩, -⟩ := hflags
    unfold readPrice
    rw [hm, Option.bind_eq_bind, Option.bind_some, h1, h2, h3, h4, h5, h6, h7, h8, h9, h10, h11]
    exact ⟨_, rfl⟩

/-- **The directions one after another** read the array of the prices. -/
theorem readsArray_readDir (prices : List Value) :
    Halting.ReadsArray (readDir prices) prices PriceTyped where
  behind := by
    intro data i hnone
    unfold readDir
    rw [hnone]
  next := by
    intro data i v hv htyped
    obtain ⟨p, hp⟩ := exists_readPrice_iff.mpr htyped
    refine ⟨{ data with dirPrice := Function.update data.dirPrice i p }, ?_⟩
    simp only [readDir, hv, hp]
  other := by
    intro data i v hv htyped
    have hp : readPrice v = none :=
      Option.eq_none_iff_forall_not_mem.mpr fun p hp => htyped (exists_readPrice_iff.mp ⟨p, hp⟩)
    simp only [readDir, hv, hp]

/-- The prices change nothing but the prices. -/
theorem run_readDir_eq_going {prices : List Value} {dirs : List Dir}
    (h : Halting.run (readDir prices) data dirs = .going data') :
    data' = { data with dirPrice := data'.dirPrice } ∧
      ∀ i, (i ∈ dirs → ∃ v, prices[i.val]? = some v ∧ readPrice v = some (data'.dirPrice i)) ∧
        (i ∉ dirs → data'.dirPrice i = data.dirPrice i) := by
  induction dirs generalizing data with
  | nil =>
    obtain rfl := Halting.going.inj h
    exact ⟨rfl, fun i => ⟨fun hi => (by cases hi), fun _ => rfl⟩⟩
  | cons j dirs ih =>
    rw [Halting.run] at h
    cases hv : prices[j.val]? with
    | none =>
      simp only [readDir, hv] at h
      cases h
    | some v =>
      cases hp : readPrice v with
      | none =>
        simp only [readDir, hv, hp] at h
        cases h
      | some p =>
        simp only [readDir, hv, hp] at h
        obtain ⟨hsame, hdirs⟩ := ih h
        refine ⟨hsame, fun i => ⟨fun hi => ?_, fun hi => ?_⟩⟩
        · by_cases hmem : i ∈ dirs
          · exact (hdirs i).1 hmem
          · obtain rfl := (List.mem_cons.mp hi).resolve_right hmem
            refine ⟨v, hv, hp.trans (congrArg some ?_)⟩
            rw [(hdirs i).2 hmem]
            exact (Function.update_self i p data.dirPrice).symm
        · obtain ⟨hne, hmem⟩ := not_or.mp fun h => hi (List.mem_cons.mpr h)
          rw [(hdirs i).2 hmem]
          exact Function.update_of_ne hne p data.dirPrice

/-! ### When nothing goes wrong -/

/-- The prices: they are read, or something behind them is, or there is an exception. -/
theorem readPrices_cases (m : List (String × Value)) (data : Data) :
    (PricesTyped m ∧ EnoughPrices m ∧
        ∃ data', readPrices m data = .going data' ∧ data'.traffType = data.traffType) ∨
      (PricesTyped m ∧ ¬ EnoughPrices m ∧ readPrices m data = .failed) ∨
        (¬ PricesTyped m ∧ readPrices m data = .stopped) := by
  unfold readPrices
  cases hv : m.lookup "dirprices" with
  | none =>
    refine .inl ⟨fun v hv' => ?_, fun prices hv' => ?_, data, rfl, rfl⟩
    · cases hv.symm.trans hv'
    · cases hv.symm.trans hv'
  | some v =>
    cases hprices : v.array? with
    | none =>
      refine .inr (.inr ⟨fun h => ?_, by simp only [hprices]⟩)
      obtain ⟨prices, hprices', -⟩ := h v hv
      cases hprices.symm.trans hprices'
    | some prices =>
      have hvalue : v = .array prices := by
        cases v with
        | array l => rw [show l = prices from Option.some.inj hprices]
        | int z => cases hprices
        | boolean b => cases hprices
        | double x => cases hprices
        | string s => cases hprices
        | struct m => cases hprices
        | other => cases hprices
      have htyped : PricesTyped m ↔ ∀ p ∈ prices.take 10, PriceTyped p := by
        refine ⟨fun h => ?_, fun h v' hv' => ?_⟩
        · obtain ⟨prices', hprices', hall⟩ := h v hv
          obtain rfl := Option.some.inj (hprices.symm.trans hprices')
          exact hall
        · obtain rfl := Option.some.inj (hv.symm.trans hv')
          exact ⟨prices, hprices, h⟩
      have henough : EnoughPrices m ↔ 10 ≤ prices.length := by
        refine ⟨fun h => h prices (hvalue ▸ hv), fun h prices' hv' => ?_⟩
        obtain rfl := Value.array.inj (hvalue.symm.trans (Option.some.inj (hv.symm.trans hv')))
        exact h
      rw [htyped, henough]
      simp only [hprices]
      rcases (readsArray_readDir prices).run_cases data with
        ⟨hlen, hall, data', hgoing⟩ | ⟨hlen, hall, hfailed⟩ | ⟨⟨p, hp, hbad⟩, hstopped⟩
      · refine .inl ⟨hall, hlen, data', hgoing, ?_⟩
        rw [(run_readDir_eq_going hgoing).1]
      · exact .inr (.inl ⟨fun p hp => hall p (List.mem_of_mem_take hp), Nat.not_le.mpr hlen, hfailed⟩)
      · exact .inr (.inr ⟨fun h => hbad (h p hp), hstopped⟩)

variable (tt) in
/-- The type of the traffic is one of the enumeration after the members have been read. -/
theorem forall_defined_readConf_iff (htyped : ConfTyped m) :
    (∀ data data' : Data, data.Defined → readConf tt m data = some data' → data'.Defined) ↔
      TypeDefined m := by
  constructor
  · intro h z hz
    have hsample : (Data.ofTariff (TariffImpl.ofName "")).Defined := ⟨.upDown, rfl⟩
    obtain ⟨data', hdata'⟩ :
        ∃ data', readConf tt m (Data.ofTariff (TariffImpl.ofName "")) = some data' :=
      exists_readConf_iff.mpr htyped
    have htype := traffType_readConf hdata'
    unfold member at htype
    rw [hz] at htype
    obtain rfl : z = data'.traffType := Option.some.inj htype
    exact h _ _ hsample hdata'
  · intro h data data' hdefined hdata'
    have htype := traffType_readConf hdata'
    unfold member at htype
    unfold Data.Defined
    cases hv : m.lookup "traffType" with
    | none =>
      rw [hv] at htype
      rw [← show data.traffType = data'.traffType from Option.some.inj htype]
      exact hdefined
    | some v =>
      rw [hv] at htype
      cases v with
      | int z =>
        rw [← show z = data'.traffType from Option.some.inj htype]
        exact h z hv
      | boolean b => cases htype
      | double x => cases htype
      | string s => cases htype
      | array l => cases htype
      | struct m => cases htype
      | other => cases htype

end

/-- **When nothing goes wrong with a structure.** -/
theorem safe_iff (tt : TimeText) (info : Value) : Safe tt info ↔ InRange info := by
  unfold Safe setTariffInfo InRange
  cases info.struct? with
  | none =>
    refine iff_of_true (fun data _ => ⟨Halting.stopped_ne_failed, fun _ h => by cases h⟩) fun m hm => ?_
    cases hm
  | some m =>
    have hone : (∀ m', some m = some m' → ConfTyped m' → PricesTyped m' → EnoughPrices m' ∧
        TypeDefined m') ↔ (ConfTyped m → PricesTyped m → EnoughPrices m ∧ TypeDefined m) :=
      ⟨fun h => h m rfl, fun h m' hm => Option.some.inj hm ▸ h⟩
    rw [hone]
    dsimp only
    by_cases htyped : ConfTyped m
    · rw [forall_prop_of_true htyped, ← forall_defined_readConf_iff tt htyped]
      constructor
      · intro h hprices
        have hgoing : ∀ data data' : Data, data.Defined → readConf tt m data = some data' →
            EnoughPrices m ∧ data'.Defined := by
          intro data data' hdefined hdata'
          obtain ⟨hnot, hall⟩ := h data hdefined
          rw [hdata'] at hnot hall
          rcases readPrices_cases m data' with
            ⟨-, henough, data'', hgoing, htype⟩ | ⟨-, -, hfailed⟩ | ⟨hbad, -⟩
          · obtain ⟨t, ht⟩ := hall data'' hgoing
            exact ⟨henough, t, htype.symm.trans ht⟩
          · exact absurd hfailed hnot
          · exact absurd hprices hbad
        refine ⟨?_, fun data data' hdefined hdata' => (hgoing data data' hdefined hdata').2⟩
        obtain ⟨data', hdata'⟩ :
            ∃ data', readConf tt m (Data.ofTariff (TariffImpl.ofName "")) = some data' :=
          exists_readConf_iff.mpr htyped
        exact (hgoing _ _ ⟨.upDown, rfl⟩ hdata').1
      · intro h data hdefined
        obtain ⟨data', hdata'⟩ : ∃ data', readConf tt m data = some data' :=
          exists_readConf_iff.mpr htyped
        rw [hdata']
        dsimp only
        rcases readPrices_cases m data' with
          ⟨hprices, -, data'', hgoing, htype⟩ | ⟨hprices, hnot, -⟩ | ⟨-, hstopped⟩
        · rw [hgoing]
          refine ⟨Halting.going_ne_failed _, fun d hd => ?_⟩
          obtain rfl := Halting.going.inj hd
          obtain ⟨t, ht⟩ := (h hprices).2 data data' hdefined hdata'
          exact ⟨t, htype.trans ht⟩
        · exact absurd (h hprices).1 hnot
        · rw [hstopped]
          exact ⟨Halting.stopped_ne_failed, fun d hd => by cases hd⟩
    · refine iff_of_true (fun data _ => ?_) fun h => absurd h htyped
      have hnone : readConf tt m data = none :=
        Option.eq_none_iff_forall_not_mem.mpr fun data' h => htyped (exists_readConf_iff.mp ⟨data', h⟩)
      rw [hnone]
      exact ⟨Halting.stopped_ne_failed, fun d hd => by cases hd⟩

/-! ### The round trip -/

/-- The members of a direction. -/
theorem exists_struct_priceStruct (p : DirPriceData) :
    ∃ m, (priceStruct p).struct? = some m ∧
      field m "mday" Value.int? = some p.mDay ∧
      field m "hday" Value.int? = some p.hDay ∧
      field m "mnight" Value.int? = some p.mNight ∧
      field m "hnight" Value.int? = some p.hNight ∧
      field m "pricedaya" Value.double? = some (p.priceDayA * 1024 * 1024) ∧
      field m "pricedayb" Value.double? = some (p.priceDayB * 1024 * 1024) ∧
      field m "pricenighta" Value.double? = some (p.priceNightA * 1024 * 1024) ∧
      field m "pricenightb" Value.double? = some (p.priceNightB * 1024 * 1024) ∧
      field m "threshold" Value.int? = some p.threshold ∧
      field m "singleprice" Value.boolean? = some (decide (p.singlePrice ≠ 0)) ∧
      field m "nodiscount" Value.boolean? = some (decide (p.noDiscount ≠ 0)) := by
  refine ⟨_, rfl, ?_⟩
  simp only [field, List.lookup_cons_self, lookup_cons_of_ne, ne_eq, String.reduceEq, not_false_eq_true,
    Option.bind_some, Value.int?_int, Value.double?_double, Value.boolean?_boolean, and_self]

/-- The prices of a direction come through. -/
theorem readPrice_priceStruct (p : DirPriceData)
    (hsingle : p.singlePrice = 0 ∨ p.singlePrice = 1) (hno : p.noDiscount = 0 ∨ p.noDiscount = 1) :
    readPrice (priceStruct p) = some p := by
  have hmoney (x : Money) : x * 1024 * 1024 / 1024 / 1024 = x := by ring
  have hflag (z : ℤ) (hz : z = 0 ∨ z = 1) : UserHelper.boolInt (decide (z ≠ 0)) = z := by
    rcases hz with rfl | rfl <;> rfl
  obtain ⟨m, hm, h1, h2, h3, h4, h5, h6, h7, h8, h9, h10, h11⟩ := exists_struct_priceStruct p
  unfold readPrice
  rw [hm, Option.bind_eq_bind, Option.bind_some, h1, h2, h3, h4, h5, h6, h7, h8, h9, h10, h11]
  calc
    _ = some { p with
        priceDayA := p.priceDayA * 1024 * 1024 / 1024 / 1024
        priceDayB := p.priceDayB * 1024 * 1024 / 1024 / 1024
        priceNightA := p.priceNightA * 1024 * 1024 / 1024 / 1024
        priceNightB := p.priceNightB * 1024 * 1024 / 1024 / 1024
        singlePrice := UserHelper.boolInt (decide (p.singlePrice ≠ 0))
        noDiscount := UserHelper.boolInt (decide (p.noDiscount ≠ 0)) } := rfl
    _ = some p := by rw [hmoney, hmoney, hmoney, hmoney, hflag _ hsingle, hflag _ hno]

/-- The members of a tariff come through. -/
theorem exists_readConf_getTariffInfo (tt : TimeText) (td : TariffData) (data : Data) :
    ∃ m data', (getTariffInfo tt (.ofTariff td)).struct? = some m ∧
      readConf tt m data = some data' ∧ data'.traffType = td.tariffConf.traffType.number ∧
      data'.period = td.tariffConf.period ∧ data'.changePolicy = td.tariffConf.changePolicy ∧
      data'.changePolicyTimeout = td.tariffConf.changePolicyTimeout ∧
      m.lookup "dirprices" = some (.array ((List.finRange 10).map fun i => priceStruct (td.dirPrice i))) := by
  refine ⟨_, { Data.ofTariff td with name := data.name, dirPrice := data.dirPrice }, rfl, ?_, rfl, rfl,
    rfl, rfl, ?_⟩
  · unfold readConf member
    simp only [List.lookup_cons_self, lookup_cons_of_ne, ne_eq, String.reduceEq, not_false_eq_true,
      Option.elim_some, Value.int?, Value.double?, Value.string?, Option.map_some, Option.bind_eq_bind,
      Option.bind_some, tt.readTime_formatTime, Period.parse_toString, ChangePolicy.parse_toString]
    rfl
  · simp only [List.lookup_cons_self, lookup_cons_of_ne, ne_eq, String.reduceEq, not_false_eq_true]
    rfl

/-- **A tariff comes through.** -/
theorem roundTrips (tt : TimeText) (td : TariffData) (data : Data) : RoundTrips tt td data := by
  intro hflags
  obtain ⟨m, data₁, hstruct, hconf, htype, hperiod, hpolicy, htimeout, hprices⟩ :=
    exists_readConf_getTariffInfo tt td data
  have hread (i : Dir) : readPrice (priceStruct (td.dirPrice i)) = some (td.dirPrice i) :=
    readPrice_priceStruct _ (hflags i).1 (hflags i).2
  obtain ⟨data', hgoing⟩ : ∃ data', Halting.run
      (readDir ((List.finRange 10).map fun i => priceStruct (td.dirPrice i))) data₁ (List.finRange 10) =
        .going data' := by
    refine ((readsArray_readDir _).exists_run_eq_going_iff data₁).mpr ⟨?_, fun p hp => ?_⟩
    · rw [List.length_map, List.length_finRange]
    · obtain ⟨i, -, rfl⟩ := List.mem_map.mp (List.mem_of_mem_take hp)
      exact exists_readPrice_iff.mp ⟨_, hread i⟩
  obtain ⟨hsame, hdirs⟩ := run_readDir_eq_going hgoing
  have hdir (i : Dir) : data'.dirPrice i = td.dirPrice i := by
    obtain ⟨v, hv, hp⟩ := (hdirs i).1 (List.mem_finRange i)
    have hi : i.val < (List.finRange 10).length := by
      rw [List.length_finRange]
      exact i.isLt
    rw [List.getElem?_map, List.getElem?_eq_getElem hi, List.getElem_finRange] at hv
    obtain rfl := Option.some.inj hv
    exact Option.some.inj (hp.symm.trans (hread i))
  refine ⟨data', ?_, ?_⟩
  · unfold setTariffInfo readPrices
    rw [hstruct]
    dsimp only
    rw [hconf]
    dsimp only
    rw [hprices]
    exact hgoing
  · rw [hsame]
    exact ⟨htype, hperiod, hpolicy, htimeout, fun i => congrArg _ (hdir i), fun i => congrArg _ (hdir i),
      fun i => congrArg _ (hdir i), fun i => congrArg _ (hdir i), fun i => congrArg _ (hdir i),
      fun i => congrArg _ (hdir i), fun i => congrArg _ (hdir i)⟩

end TariffHelper

/-! ## Users -/

namespace UserHelper

/-- A member that is taken for a value of a type and becomes a change. -/
def one {α : Type} (m : List (String × Value)) (name : String) (conv : Value → Option α)
    (f : α → Change) : List (Halting Change) :=
  (m.lookup name).toList.map fun v => (Halting.ofOption (conv v)).map f

/-- A text of the member `userdata`. -/
def readText (iconv : String → String) (udata : List Value) (i : Fin 10) : Halting Change :=
  match udata[i.val]? with
  | none => .failed
  | some v => (Halting.ofOption v.string?).map fun text => .text (.userdata i) (iconv text)

/-- The member `userdata`. -/
def userdataSteps (iconv : String → String) (m : List (String × Value)) : List (Halting Change) :=
  match m.lookup "userdata" with
  | none => []
  | some v =>
    match v.array? with
    | none => [.stopped]
    | some udata => (List.finRange 10).map (readText iconv udata)

/-- The counters of an array, of which there are at most as many read as there are directions. -/
def months? (v : Value) : Option (List String) := v.array?.bind fun l => (l.take 10).mapM Value.string?

/-- The member `traff`. -/
def traffSteps (errno : InfoErrno) (m : List (String × Value)) : List (Halting Change) :=
  match m.lookup "traff" with
  | none => []
  | some v =>
    match v.struct? with
    | none => [.stopped]
    | some traff =>
      one traff "mu" months? (fun data => .up (readMonth errno.mu data)) ++
        one traff "md" months? fun data => .down (readMonth errno.md data)

/-- The members before `userdata`, in the order of `SetUserInfo`; the addresses have been read. -/
def firstSteps (iconv : String → String) (ips : Option UserIPs) (m : List (String × Value)) :
    List (Halting Change) :=
  ips.toList.map (fun ips => .going (.ips ips)) ++
  one m "aonline" Value.boolean? (fun v => .alwaysOnline (boolInt v)) ++
  one m "password" Value.string? (.text .password) ++
  one m "address" Value.string? (fun v => .text .address (iconv v)) ++
  one m "phone" Value.string? (fun v => .text .phone (iconv v)) ++
  one m "email" Value.string? (fun v => .text .email (iconv v)) ++
  one m "cash" Value.double? (.cash false) ++
  one m "creditexpire" Value.int? .creditExpire ++
  one m "credit" Value.double? .credit ++
  one m "freemb" Value.double? .freeMb ++
  one m "down" Value.boolean? (fun v => .disabled (boolInt v)) ++
  one m "passive" Value.boolean? (fun v => .passive (boolInt v)) ++
  one m "disableddetailstat" Value.boolean? (fun v => .disabledDetailStat (boolInt v)) ++
  one m "name" Value.string? (fun v => .text .realName (iconv v)) ++
  one m "group" Value.string? (fun v => .text .group (iconv v)) ++
  one m "note" Value.string? (fun v => .text .note (iconv v))

/-- The members but for the tariff. -/
def steps (iconv : String → String) (errno : InfoErrno) (ips : Option UserIPs)
    (m : List (String × Value)) : List (Halting Change) :=
  firstSteps iconv ips m ++ (userdataSteps iconv m ++ traffSteps errno m)

/-- The properties one after another, up to the first that may not be set. -/
def setSteps (env : Env) (priv : Priv) : UserRecord → List (Halting Change) → Halting (Bool × UserRecord)
  | u, [] => .going (true, u)
  | u, .going c :: cs =>
    match setNew env priv u c with
    | (false, u) => .going (false, u)
    | (true, u) => setSteps env priv u cs
  | _, .stopped :: _ => .stopped
  | _, .failed :: _ => .failed

/-- The member `tariff`. -/
def tariffStep (env : Env) (priv : Priv) (m : List (String × Value)) :
    Bool × UserRecord → Halting (Bool × UserRecord)
  | (false, u) => .going (false, u)
  | (true, u) =>
    match m.lookup "tariff" with
    | none => .going (true, u)
    | some v =>
      match v.string? with
      | none => .stopped
      | some text => Halting.ofOption (setTariff env priv text u)

/-- `USER_HELPER::SetUserInfo` for a structure. -/
def setUserStruct (env : Env) (priv : Priv) (iconv : String → String) (errno : InfoErrno) (login : String)
    (info : Value) (s : UserList) (i : Fin s.users.length) : Halting (Bool × UserRecord) :=
  match info.struct? with
  | none => .stopped
  | some m =>
    match member m "aonline" (fun v => v.boolean?.map some) none,
      member m "ips" (fun v => v.string?.map some) none with
    | some aonline, some text =>
      match text.mapM (firstIPs env.shifted errno) with
      | none => .stopped
      | some first =>
        if leadsToForbidden aonline first (s.users.get i) then .going (false, s.users.get i)
        else
          match text.mapM (secondIPs env.shifted errno) with
          | none => .stopped
          | some ips =>
            if inUse env.shifted s login ips then .going (false, s.users.get i)
            else
              match setSteps env priv (s.users.get i) (steps iconv errno ips m) with
              | .going r => tariffStep env priv m r
              | .stopped => .stopped
              | .failed => .failed
    | _, _ => .stopped

/-- **Nothing goes wrong with a structure**, whoever sends it, whichever user it is for and whatever
`errno` is: no text is read behind the array. -/
def Safe (info : Value) : Prop :=
  ∀ env priv iconv errno login (s : UserList) (i : Fin s.users.length),
    setUserStruct env priv iconv errno login info s i ≠ .failed

/-- Every member before `userdata` that is there has its type. -/
structure FirstTyped (m : List (String × Value)) : Prop where
  strings : ∀ name ∈ ["ips", "password", "address", "phone", "email", "name", "group", "note"],
    Typed m name Value.string?
  booleans : ∀ name ∈ ["aonline", "down", "passive", "disableddetailstat"],
    Typed m name Value.boolean?
  doubles : ∀ name ∈ ["cash", "credit", "freemb"], Typed m name Value.double?
  ints : Typed m "creditexpire" Value.int?

/-- The structure does not ask for a user who is always online with several addresses, and its addresses
fit their buffer, with one `errno` at least. -/
def Allowed (m : List (String × Value)) : Prop :=
  ∀ text, m.lookup "ips" = some (.string text) →
    ∃ env ips, UserIPs.parse env text.toList = some ips ∧
      (m.lookup "aonline" = some (.boolean true) → ips.onlyOneIP = true)

/-- There are as many texts as there are properties for them, or there is something else in between. -/
def EnoughTexts (m : List (String × Value)) : Prop :=
  ∀ udata, m.lookup "userdata" = some (.array udata) → (∀ v ∈ udata, v.string?.isSome = true) →
    10 ≤ udata.length

/-- If the texts are read, then there are enough of them. -/
def InRange (info : Value) : Prop :=
  ∀ m, info.struct? = some m → FirstTyped m → Allowed m → EnoughTexts m

/-! ### The steps -/

/-- What becomes of some steps if none of them is refused. -/
def outcome (l : List (Halting Change)) : Halting Unit :=
  Halting.run (fun (_ : Unit) (x : Halting Change) => x.map fun _ => ()) () l

section Steps

variable {env : Env} {priv : Priv} {iconv : String → String} {errno : InfoErrno} {ips : Option UserIPs}
  {m : List (String × Value)}

theorem outcome_append (l l' : List (Halting Change)) :
    outcome (l ++ l') =
      match outcome l with
      | .going _ => outcome l'
      | .stopped => .stopped
      | .failed => .failed := by
  unfold outcome
  rw [Halting.run_append]
  cases Halting.run (fun (_ : Unit) (x : Halting Change) => x.map fun _ => ()) () l <;> rfl

variable (env priv) in
/-- Some steps fail only if they fail with nothing refused. -/
theorem setSteps_ne_failed {l : List (Halting Change)} (h : outcome l ≠ .failed) (u : UserRecord) :
    setSteps env priv u l ≠ .failed := by
  induction l generalizing u with
  | nil => exact Halting.going_ne_failed _
  | cons x l ih =>
    cases x with
    | going c =>
      rw [setSteps]
      cases setNew env priv u c with
      | mk ok u' =>
        cases ok with
        | false => exact Halting.going_ne_failed _
        | true => exact ih h u'
    | stopped => exact Halting.stopped_ne_failed
    | failed => exact absurd rfl h

/-- For an administrator who may do everything nothing is refused. -/
theorem setSteps_full_eq_failed {l : List (Halting Change)} (h : outcome l = .failed) (u : UserRecord) :
    setSteps env Priv.full u l = .failed := by
  induction l generalizing u with
  | nil => cases h
  | cons x l ih =>
    cases x with
    | going c =>
      have hmay : c.maySet Priv.full = true := Priv.maySet_full _ _ _
      obtain ⟨u', hu'⟩ : ∃ u', setNew env Priv.full u c = (true, u') := by
        unfold setNew
        split_ifs <;> exact ⟨_, rfl⟩
      rw [setSteps, hu']
      exact ih h u'
    | stopped => cases h
    | failed => rfl

/-- Some steps are gone through if a condition holds, and otherwise there is an exception. -/
def Decides (P : Prop) (l : List (Halting Change)) : Prop :=
  (P ∧ outcome l = .going ()) ∨ (¬ P ∧ outcome l = .stopped)

theorem Decides.append {P Q : Prop} {l l' : List (Halting Change)} (h : Decides P l)
    (h' : Decides Q l') : Decides (P ∧ Q) (l ++ l') := by
  unfold Decides
  rw [outcome_append]
  rcases h with ⟨hp, hl⟩ | ⟨hp, hl⟩
  · rw [hl, and_iff_right hp]
    exact h'
  · rw [hl]
    exact .inr ⟨fun h => hp h.1, rfl⟩

theorem Decides.congr {P Q : Prop} {l : List (Halting Change)} (hpq : P ↔ Q) (h : Decides P l) :
    Decides Q l := by
  unfold Decides at h ⊢
  rwa [← hpq]

theorem Decides.ne_failed {P : Prop} {l : List (Halting Change)} (h : Decides P l) :
    outcome l ≠ .failed := by
  rcases h with ⟨-, hl⟩ | ⟨-, hl⟩
  · rw [hl]
    exact Halting.going_ne_failed _
  · rw [hl]
    exact Halting.stopped_ne_failed

/-- A member that is there has its type, or there is an exception. -/
theorem decides_one {α : Type} {name : String} {conv : Value → Option α} {f : α → Change} :
    Decides (Typed m name conv) (one m name conv f) := by
  unfold one Typed
  cases hv : m.lookup name with
  | none => exact .inl ⟨fun v h => (by cases h), rfl⟩
  | some v =>
    cases hconv : conv v with
    | none =>
      refine .inr ⟨fun h => ?_, ?_⟩
      · have := h v rfl
        rw [hconv] at this
        cases this
      · simp only [Option.toList_some, List.map_cons, hconv]
        rfl
    | some a =>
      refine .inl ⟨fun v' hv' => ?_, ?_⟩
      · obtain rfl := Option.some.inj hv'
        rw [hconv]
        rfl
      · simp only [Option.toList_some, List.map_cons, hconv]
        rfl

/-- Addresses that have been read. -/
theorem decides_ips : Decides True (ips.toList.map fun ips => Halting.going (.ips ips)) := by
  cases ips <;> exact .inl ⟨trivial, rfl⟩

variable (iconv ips) in
/-- **The members before the texts.** -/
theorem decides_firstSteps (hips : Typed m "ips" Value.string?) :
    Decides (FirstTyped m) (firstSteps iconv ips m) := by
  unfold firstSteps
  refine Decides.congr ?_ (((((((((((((((decides_ips.append decides_one).append decides_one).append
    decides_one).append decides_one).append decides_one).append decides_one).append
    decides_one).append decides_one).append decides_one).append decides_one).append
    decides_one).append decides_one).append decides_one).append decides_one).append decides_one)
  constructor
  · rintro ⟨⟨⟨⟨⟨⟨⟨⟨⟨⟨⟨⟨⟨⟨⟨-, b1⟩, h2⟩, h3⟩, h4⟩, h5⟩, d1⟩, hints⟩, d2⟩, d3⟩, b2⟩, b3⟩, b4⟩, h6⟩, h7⟩, h8⟩
    refine ⟨?_, ?_, ?_, hints⟩
    · simp only [List.forall_mem_cons]
      exact ⟨hips, h2, h3, h4, h5, h6, h7, h8, fun _ h => by cases h⟩
    · simp only [List.forall_mem_cons]
      exact ⟨b1, b2, b3, b4, fun _ h => by cases h⟩
    · simp only [List.forall_mem_cons]
      exact ⟨d1, d2, d3, fun _ h => by cases h⟩
  · rintro ⟨hstrings, hbooleans, hdoubles, hints⟩
    simp only [List.forall_mem_cons] at hstrings hbooleans hdoubles
    obtain ⟨-, h2, h3, h4, h5, h6, h7, h8, -⟩ := hstrings
    obtain ⟨b1, b2, b3, b4, -⟩ := hbooleans
    obtain ⟨d1, d2, d3, -⟩ := hdoubles
    exact ⟨⟨⟨⟨⟨⟨⟨⟨⟨⟨⟨⟨⟨⟨⟨trivial, b1⟩, h2⟩, h3⟩, h4⟩, h5⟩, d1⟩, hints⟩, d2⟩, d3⟩, b2⟩, b3⟩, b4⟩, h6⟩, h7⟩, h8⟩

/-- The counters. -/
theorem outcome_traffSteps_ne_failed : outcome (traffSteps errno m) ≠ .failed := by
  unfold traffSteps
  cases m.lookup "traff" with
  | none => exact Halting.going_ne_failed _
  | some v =>
    cases hv : v.struct? with
    | none =>
      simp only [hv]
      exact Halting.stopped_ne_failed
    | some traff =>
      simp only [hv]
      exact (decides_one.append decides_one).ne_failed

/-- The texts are read as an array. -/
theorem readsArray_readText (iconv : String → String) (udata : List Value) :
    Halting.ReadsArray (fun (_ : Unit) i => (readText iconv udata i).map fun _ => ()) udata
      fun v => v.string?.isSome = true where
  behind := by
    intro _ i hnone
    unfold readText
    rw [hnone]
    rfl
  next := by
    intro _ i v hv hgood
    obtain ⟨text, htext⟩ := Option.isSome_iff_exists.mp hgood
    refine ⟨(), ?_⟩
    simp only [readText, hv, htext]
    rfl
  other := by
    intro _ i v hv hbad
    have hnone : v.string? = none := Option.not_isSome_iff_eq_none.mp hbad
    simp only [readText, hv, hnone]
    rfl

variable (iconv) in
/-- **When a text is read behind the array.** -/
theorem outcome_userdataSteps_eq_failed_iff :
    outcome (userdataSteps iconv m) = .failed ↔ ¬ EnoughTexts m := by
  unfold userdataSteps EnoughTexts
  cases hv : m.lookup "userdata" with
  | none =>
    refine iff_of_false (fun h => by cases h) (not_not.mpr fun udata h => ?_)
    cases h
  | some v =>
    have hcases : (∃ udata, v = .array udata) ∨ v.array? = none ∧ ∀ udata, v ≠ .array udata := by
      cases v with
      | array udata => exact .inl ⟨udata, rfl⟩
      | int z => exact .inr ⟨rfl, fun udata h => by cases h⟩
      | boolean b => exact .inr ⟨rfl, fun udata h => by cases h⟩
      | double x => exact .inr ⟨rfl, fun udata h => by cases h⟩
      | string s => exact .inr ⟨rfl, fun udata h => by cases h⟩
      | struct m => exact .inr ⟨rfl, fun udata h => by cases h⟩
      | other => exact .inr ⟨rfl, fun udata h => by cases h⟩
    rcases hcases with ⟨udata, rfl⟩ | ⟨hnone, hne⟩
    · have hrun : outcome ((List.finRange 10).map (readText iconv udata)) =
          Halting.run (fun (_ : Unit) i => (readText iconv udata i).map fun _ => ()) ()
            (List.finRange 10) := Halting.run_map _ _ () _
      simp only [Value.array?]
      rw [hrun, (readsArray_readText iconv udata).run_eq_failed_iff]
      constructor
      · rintro ⟨hlen, hall⟩ h
        have := h udata rfl hall
        omega
      · intro h
        push Not at h
        obtain ⟨udata', hudata', hall, hlen⟩ := h
        obtain rfl := Value.array.inj (Option.some.inj hudata')
        exact ⟨hlen, hall⟩
    · simp only [hnone]
      refine iff_of_false (fun h => by cases h) (not_not.mpr fun udata h => ?_)
      exact absurd (Option.some.inj h) (hne udata)

/-- **When the steps fail.** -/
theorem outcome_steps_eq_failed_iff (hips : Typed m "ips" Value.string?) :
    outcome (steps iconv errno ips m) = .failed ↔ FirstTyped m ∧ ¬ EnoughTexts m := by
  rw [← outcome_userdataSteps_eq_failed_iff iconv]
  unfold steps
  rw [outcome_append]
  rcases decides_firstSteps iconv ips hips with ⟨hfirst, hgoing⟩ | ⟨hfirst, hstopped⟩
  · rw [hgoing, and_iff_right hfirst]
    dsimp only
    rw [outcome_append]
    cases outcome (userdataSteps iconv m) with
    | going _ => exact iff_of_false outcome_traffSteps_ne_failed fun h => by cases h
    | stopped => exact iff_of_false (fun h => by cases h) fun h => by cases h
    | failed => exact iff_of_true rfl rfl
  · rw [hstopped]
    exact iff_of_false (fun h => by cases h) fun h => hfirst h.1

end Steps

/-! ### A structure as it should be -/

/-- A structure describes a change of a user: its members are the parts of the change that there are. -/
structure Describes (m : List (String × Value)) (info : UserInfo) : Prop where
  ips : m.lookup "ips" = info.ips.map .string
  aonline : m.lookup "aonline" = info.aonline.map .boolean
  password : m.lookup "password" = info.password.map .string
  address : m.lookup "address" = info.address.map .string
  phone : m.lookup "phone" = info.phone.map .string
  email : m.lookup "email" = info.email.map .string
  cash : m.lookup "cash" = info.cash.map .double
  creditexpire : m.lookup "creditexpire" = info.creditexpire.map fun v => .int v.toInt
  credit : m.lookup "credit" = info.credit.map .double
  freemb : m.lookup "freemb" = info.freemb.map .double
  down : m.lookup "down" = info.down.map .boolean
  passive : m.lookup "passive" = info.passive.map .boolean
  disableddetailstat : m.lookup "disableddetailstat" = info.disableddetailstat.map .boolean
  name : m.lookup "name" = info.name.map .string
  group : m.lookup "group" = info.group.map .string
  note : m.lookup "note" = info.note.map .string
  userdata : m.lookup "userdata" =
    info.userdata.map fun text => .array ((List.finRange 10).map fun i => .string (text i))
  traff : ∃ traff, m.lookup "traff" = some (.struct traff) ∧
    traff.lookup "mu" = info.mu.map (fun data => .array (data.map .string)) ∧
    traff.lookup "md" = info.md.map fun data => .array (data.map .string)
  tariff : m.lookup "tariff" = info.tariff.map .string

section Describes

variable {m : List (String × Value)} {info : UserInfo} {iconv : String → String}

/-- A member of a change. -/
theorem one_eq {α β : Type} {name : String} {conv : Value → Option α} {f : α → Change} {o : Option β}
    {enc : β → Value} {g : β → α} (h : m.lookup name = o.map enc) (henc : ∀ b, conv (enc b) = some (g b)) :
    one m name conv f = (o.toList.map fun b => f (g b)).map .going := by
  unfold one
  rw [h]
  cases o with
  | none => rfl
  | some b =>
    simp only [Option.map_some, Option.toList_some, List.map_cons, List.map_nil, henc]
    rfl

/-- The counters that are read are those of the directions. -/
theorem months?_array (data : List String) :
    months? (.array (data.map .string)) = some (data.take 10) := by
  have hall : ∀ l : List String, (l.map Value.string).mapM Value.string? = some l := by
    intro l
    induction l with
    | nil => rfl
    | cons s l ih =>
      rw [List.map_cons, List.mapM_cons, ih]
      rfl
  show ((data.map Value.string).take 10).mapM Value.string? = _
  rw [← List.map_take, hall]

/-- The counters behind the others are not looked at. -/
theorem readCounters_take (isRange : Bool) (data : List String) (n : ℕ) :
    readCounters isRange (data.take n) = (readCounters isRange data).take n := by
  induction data generalizing isRange n with
  | nil => cases n <;> rfl
  | cons text data ih =>
    cases n with
    | zero => rfl
    | succ n => rw [List.take_succ_cons, readCounters, readCounters, List.take_succ_cons, ih]

theorem readMonth_take (isRange : Bool) (data : List String) :
    readMonth isRange (data.take 10) = readMonth isRange data := by
  funext i
  have hi : i.val < 10 := i.isLt
  rw [readMonth, readMonth, readCounters_take, List.getElem?_take_of_lt hi]

/-- **The steps** of a change are its changes. -/
theorem steps_eq (h : Describes m info) (errno : InfoErrno) (ips : Option UserIPs) :
    steps iconv errno ips m = (fields iconv errno ips info).map .going := by
  have htraff : traffSteps errno m =
      (info.mu.toList.map (fun data => Change.up (readMonth errno.mu data)) ++
        info.md.toList.map (fun data => Change.down (readMonth errno.md data))).map .going := by
    obtain ⟨traff, htraff, hmu, hmd⟩ := h.traff
    unfold traffSteps
    rw [htraff]
    simp only [Value.struct?]
    rw [one_eq hmu months?_array, one_eq hmd months?_array, List.map_append]
    simp only [readMonth_take]
  have huserdata : userdataSteps iconv m =
      (info.userdata.toList.flatMap fun v =>
        (List.finRange 10).map fun i => Change.text (.userdata i) (iconv (v i))).map .going := by
    unfold userdataSteps
    rw [h.userdata]
    cases info.userdata with
    | none => rfl
    | some text =>
      simp only [Option.map_some, Value.array?, Option.toList_some, List.flatMap_cons,
        List.flatMap_nil, List.append_nil, List.map_map]
      apply List.map_congr_left
      intro i _
      have hi : i.val < (List.finRange 10).length := by
        rw [List.length_finRange]
        exact i.isLt
      unfold readText
      rw [List.getElem?_map, List.getElem?_eq_getElem hi, List.getElem_finRange]
      rfl
  have hips : ips.toList.map (fun ips => Halting.going (.ips ips)) =
      (ips.toList.map Change.ips).map .going := by rw [List.map_map]; rfl
  unfold steps firstSteps fields
  rw [hips, one_eq h.aonline Value.boolean?_boolean,
    one_eq h.password Value.string?_string, one_eq h.address Value.string?_string,
    one_eq h.phone Value.string?_string, one_eq h.email Value.string?_string,
    one_eq h.cash Value.double?_double, one_eq h.creditexpire fun v => Value.int?_int v.toInt,
    one_eq h.credit Value.double?_double, one_eq h.freemb Value.double?_double,
    one_eq h.down Value.boolean?_boolean, one_eq h.passive Value.boolean?_boolean,
    one_eq h.disableddetailstat Value.boolean?_boolean, one_eq h.name Value.string?_string,
    one_eq h.group Value.string?_string, one_eq h.note Value.string?_string, huserdata, htraff]
  simp only [List.map_append, List.append_assoc]

/-- Steps that are changes are set as these are. -/
theorem setSteps_map_going (env : Env) (priv : Priv) (u : UserRecord) (cs : List Change) :
    setSteps env priv u (cs.map .going) = .going (setAllNew env priv u cs) := by
  induction cs generalizing u with
  | nil => rfl
  | cons c cs ih =>
    rw [List.map_cons, setSteps, setAllNew]
    cases setNew env priv u c with
    | mk ok u' =>
      cases ok with
      | false => rfl
      | true => exact ih u'

/-- **A structure that describes a change** is handled as the change. -/
theorem setUserStruct_eq (env : Env) (priv : Priv) (errno : InfoErrno) (login : String)
    (h : Describes m info) (s : UserList) (i : Fin s.users.length) :
    setUserStruct env priv iconv errno login (.struct m) s i =
      Halting.ofOption (setUserInfo env priv iconv errno login info s i) := by
  have haonline : member m "aonline" (fun v => v.boolean?.map some) none = some info.aonline := by
    unfold member
    rw [h.aonline]
    cases info.aonline <;> rfl
  have hips : member m "ips" (fun v => v.string?.map some) none = some info.ips := by
    unfold member
    rw [h.ips]
    cases info.ips <;> rfl
  unfold setUserStruct setUserInfo
  simp only [Value.struct?, haonline, hips, steps_eq h, setSteps_map_going]
  cases info.ips.mapM (firstIPs env.shifted errno) with
  | none => rfl
  | some first =>
    dsimp only
    split_ifs
    · rfl
    cases info.ips.mapM (secondIPs env.shifted errno) with
    | none => rfl
    | some ips =>
      dsimp only
      split_ifs
      · rfl
      cases setAllNew env priv (s.users.get i) (fields iconv errno ips info) with
      | mk ok u =>
        cases ok with
        | false => rfl
        | true =>
          simp only [tariffStep, h.tariff]
          cases info.tariff <;> rfl

end Describes

/-! ### When nothing goes wrong -/

theorem tariffStep_ne_failed (env : Env) (priv : Priv) (m : List (String × Value))
    (r : Bool × UserRecord) : tariffStep env priv m r ≠ .failed := by
  obtain ⟨ok, u⟩ := r
  unfold tariffStep
  cases ok with
  | false => exact Halting.going_ne_failed _
  | true =>
    cases m.lookup "tariff" with
    | none => exact Halting.going_ne_failed _
    | some v =>
      cases hv : v.string? with
      | none =>
        simp only [hv]
        exact Halting.stopped_ne_failed
      | some text =>
        simp only [hv]
        cases setTariff env priv text u with
        | none => exact Halting.stopped_ne_failed
        | some r => exact Halting.going_ne_failed r

/-- What the two members are that are read first. -/
theorem member_map_some {α : Type} {m : List (String × Value)} {name : String} {conv : Value → Option α}
    {o : Option α} (h : member m name (fun v => (conv v).map some) none = some o) :
    (o = none ∧ m.lookup name = none) ∨ ∃ v a, o = some a ∧ m.lookup name = some v ∧ conv v = some a := by
  unfold member at h
  cases hv : m.lookup name with
  | none =>
    rw [hv] at h
    exact .inl ⟨(Option.some.inj h).symm, rfl⟩
  | some v =>
    rw [hv] at h
    obtain ⟨a, ha, rfl⟩ := Option.map_eq_some_iff.mp h
    exact .inr ⟨v, a, rfl, rfl, ha⟩

theorem eq_boolean_of_boolean? {v : Value} {b : Bool} (h : v.boolean? = some b) : v = .boolean b := by
  cases v with
  | boolean b' => rw [show b' = b from Option.some.inj h]
  | _ => cases h

theorem eq_string_of_string? {v : Value} {s : String} (h : v.string? = some s) : v = .string s := by
  cases v with
  | string s' => rw [show s' = s from Option.some.inj h]
  | _ => cases h

/-- What is read of the addresses, if they are there. -/
theorem mapM_eq_some_iff {read : String → Option UserIPs} {text : Option String} {ips : Option UserIPs} :
    text.mapM read = some ips ↔
      (text = none ∧ ips = none) ∨ ∃ t l, text = some t ∧ ips = some l ∧ read t = some l := by
  cases text with
  | none => simp [eq_comm]
  | some t =>
    cases hread : read t with
    | none => simp [hread]
    | some l => simp [hread, eq_comm]

/-- The test for a forbidden state is passed only by a structure that does not ask for one. -/
theorem allowed_of_leadsToForbidden {m : List (String × Value)} {aonline : Option Bool}
    {text : Option String} {shifted : BitVec 32} {errno : InfoErrno} {first : Option UserIPs}
    {u : UserRecord}
    (haonline : member m "aonline" (fun v => v.boolean?.map some) none = some aonline)
    (htext : member m "ips" (fun v => v.string?.map some) none = some text)
    (hfirst : text.mapM (firstIPs shifted errno) = some first)
    (h : leadsToForbidden aonline first u = false) : Allowed m := by
  intro t ht
  rcases member_map_some htext with ⟨-, hnone⟩ | ⟨v', t', rfl, hv', hconv'⟩
  · cases ht.symm.trans hnone
  obtain rfl := Option.some.inj (ht.symm.trans hv')
  obtain rfl : t = t' := Option.some.inj hconv'
  rcases mapM_eq_some_iff.mp hfirst with ⟨hnone, -⟩ | ⟨t', l, ht', rfl, hread⟩
  · cases hnone
  obtain rfl := Option.some.inj ht'
  refine ⟨_, l, hread, fun honline => ?_⟩
  rcases member_map_some haonline with ⟨-, hnone⟩ | ⟨v, online, rfl, hv, hconv⟩
  · cases honline.symm.trans hnone
  · obtain rfl := Option.some.inj (honline.symm.trans hv)
    obtain rfl : true = online := Option.some.inj hconv
    simpa [leadsToForbidden] using h

/-- What comes before the properties: a member has another type or an address does not fit its buffer, or
the addresses are read, twice, and the call is turned down or the properties are set. -/
theorem setUserStruct_cases (env : Env) (priv : Priv) (iconv : String → String) (errno : InfoErrno)
    (login : String) (info : Value) (s : UserList) (i : Fin s.users.length) :
    (setUserStruct env priv iconv errno login info s i = .stopped ∧
        ∀ m aonline text first, info.struct? = some m →
          member m "aonline" (fun v => v.boolean?.map some) none = some aonline →
          member m "ips" (fun v => v.string?.map some) none = some text →
            text.mapM (firstIPs env.shifted errno) ≠ some first) ∨
      ∃ m aonline text first ips, info.struct? = some m ∧
        member m "aonline" (fun v => v.boolean?.map some) none = some aonline ∧
        member m "ips" (fun v => v.string?.map some) none = some text ∧
        text.mapM (firstIPs env.shifted errno) = some first ∧
        text.mapM (secondIPs env.shifted errno) = some ips ∧
        (leadsToForbidden aonline first (s.users.get i) = true ∨ inUse env.shifted s login ips = true →
          setUserStruct env priv iconv errno login info s i = .going (false, s.users.get i)) ∧
        (leadsToForbidden aonline first (s.users.get i) = false → inUse env.shifted s login ips = false →
          (∀ r, setSteps env priv (s.users.get i) (steps iconv errno ips m) = .going r →
            setUserStruct env priv iconv errno login info s i = tariffStep env priv m r) ∧
          (setSteps env priv (s.users.get i) (steps iconv errno ips m) = .stopped →
            setUserStruct env priv iconv errno login info s i = .stopped) ∧
          (setSteps env priv (s.users.get i) (steps iconv errno ips m) = .failed →
            setUserStruct env priv iconv errno login info s i = .failed)) := by
  unfold setUserStruct
  cases hm : info.struct? with
  | none => exact .inl ⟨rfl, fun m _ _ _ h => by cases h⟩
  | some m =>
    cases haonline : member m "aonline" (fun v => v.boolean?.map some) none with
    | none =>
      refine .inl ⟨by simp only [haonline], fun m' _ _ _ hm' h => ?_⟩
      obtain rfl := Option.some.inj hm'
      cases haonline.symm.trans h
    | some aonline =>
      cases htext : member m "ips" (fun v => v.string?.map some) none with
      | none =>
        refine .inl ⟨by simp only [haonline, htext], fun m' _ _ _ hm' _ h => ?_⟩
        obtain rfl := Option.some.inj hm'
        cases htext.symm.trans h
      | some text =>
        cases hfirst : text.mapM (firstIPs env.shifted errno) with
        | none =>
          refine .inl ⟨by simp only [haonline, htext, hfirst], fun m' _ text' _ hm' _ h h' => ?_⟩
          obtain rfl := Option.some.inj hm'
          obtain rfl := Option.some.inj (htext.symm.trans h)
          cases hfirst.symm.trans h'
        | some first =>
          obtain ⟨ips, hips⟩ : ∃ ips, text.mapM (secondIPs env.shifted errno) = some ips := by
            rcases mapM_eq_some_iff.mp hfirst with ⟨rfl, -⟩ | ⟨t, l, rfl, -, hread⟩
            · exact ⟨none, rfl⟩
            · obtain ⟨l', hl', -⟩ := exists_secondIPs hread
              exact ⟨some l', by simp [hl']⟩
          refine .inr ⟨m, aonline, text, first, ips, rfl, haonline, htext, hfirst, hips, ?_, ?_⟩
          · intro hdown
            simp only [haonline, htext, hfirst, hips]
            split_ifs with hleads hused
            · rfl
            · rfl
            · exact absurd hdown (not_or.mpr ⟨hleads, hused⟩)
          · intro hleads hused
            simp only [haonline, htext, hfirst, hips, hleads, hused, Bool.false_eq_true, if_false]
            exact ⟨fun r hr => by rw [hr], fun hr => by rw [hr], fun hr => by rw [hr]⟩

/-- Where something goes wrong it is in the steps. -/
theorem setUserStruct_eq_failed {env : Env} {priv : Priv} {iconv : String → String} {errno : InfoErrno}
    {login : String} {info : Value} {s : UserList} {i : Fin s.users.length}
    (h : setUserStruct env priv iconv errno login info s i = .failed) :
    ∃ m ips, info.struct? = some m ∧ Typed m "ips" Value.string? ∧ Allowed m ∧
      outcome (steps iconv errno ips m) = .failed := by
  rcases setUserStruct_cases env priv iconv errno login info s i with ⟨hstopped, -⟩ |
    ⟨m, aonline, text, first, ips, hm, haonline, htext, hfirst, -, hdown, hset⟩
  · cases hstopped.symm.trans h
  · have hup : leadsToForbidden aonline first (s.users.get i) = false ∧
        inUse env.shifted s login ips = false := by
      rw [← Bool.not_eq_true, ← Bool.not_eq_true, ← not_or]
      exact fun hd => by cases (hdown hd).symm.trans h
    obtain ⟨hgoing, hstopped, -⟩ := hset hup.1 hup.2
    have htyped : Typed m "ips" Value.string? :=
      TariffHelper.typed_map_iff.mp (exists_member_iff.mp ⟨text, htext⟩)
    refine ⟨m, ips, hm, htyped, allowed_of_leadsToForbidden haonline htext hfirst hup.1, ?_⟩
    by_contra hnot
    have hne := setSteps_ne_failed env priv hnot (s.users.get i)
    cases hr : setSteps env priv (s.users.get i) (steps iconv errno ips m) with
    | going r => exact tariffStep_ne_failed env priv m r ((hgoing r hr).symm.trans h)
    | stopped => cases (hstopped hr).symm.trans h
    | failed => exact hne hr

/-- A user with one address who is not always online. -/
def sampleUser : UserRecord where
  user := { login := "", tariff := none, tariffName := "", ips := [⟨1, 32⟩] }

/-- There is no other user. -/
def sampleUsers : UserList where
  users := [sampleUser]
  nodup := List.nodup_singleton _

/-- The addresses are read twice with some `errno`, and for this user the steps are reached. -/
theorem exists_leadsToForbidden_sampleUser {m : List (String × Value)} {aonline : Option Bool}
    {text : Option String}
    (haonline : member m "aonline" (fun v => v.boolean?.map some) none = some aonline)
    (htext : member m "ips" (fun v => v.string?.map some) none = some text) (hallowed : Allowed m) :
    ∃ shifted errno first ips, text.mapM (firstIPs shifted errno) = some first ∧
      text.mapM (secondIPs shifted errno) = some ips ∧
      leadsToForbidden aonline first sampleUser = false := by
  rcases member_map_some htext with ⟨rfl, -⟩ | ⟨v, t, rfl, hv, ht⟩
  · refine ⟨0, {}, none, none, rfl, rfl, ?_⟩
    cases aonline with
    | none => rfl
    | some online => cases online <;> rfl
  · obtain ⟨⟨shifted, erange⟩, ips, hips, hone⟩ := hallowed t (eq_string_of_string? ht ▸ hv)
    have hfirst : firstIPs shifted { ips := erange } t = some ips := hips
    obtain ⟨ips', hsecond, -⟩ := exists_secondIPs hfirst
    refine ⟨shifted, { ips := erange }, some ips, some ips', by simp [hfirst], by simp [hsecond], ?_⟩
    unfold leadsToForbidden
    rcases member_map_some haonline with ⟨rfl, -⟩ | ⟨v', online, rfl, hv', honline⟩
    · simp [sampleUser]
    · cases online with
      | false => simp
      | true => simp [hone (eq_boolean_of_boolean? honline ▸ hv')]

/-- **When nothing goes wrong with a structure.** -/
theorem safe_iff (info : Value) : Safe info ↔ InRange info := by
  constructor
  · intro hsafe m hm hfirst hallowed
    by_contra henough
    have htyped : Typed m "ips" Value.string? := hfirst.strings _ (by simp)
    obtain ⟨aonline, haonline⟩ : ∃ o, member m "aonline" (fun v => v.boolean?.map some) none = some o :=
      exists_member_iff.mpr (TariffHelper.typed_map_iff.mpr (hfirst.booleans _ (by simp)))
    obtain ⟨text, htext⟩ : ∃ o, member m "ips" (fun v => v.string?.map some) none = some o :=
      exists_member_iff.mpr (TariffHelper.typed_map_iff.mpr htyped)
    obtain ⟨shifted, errno, first, ips, hread, hagain, hleads⟩ :=
      exists_leadsToForbidden_sampleUser haonline htext hallowed
    have hsteps : outcome (steps id errno ips m) = .failed :=
      (outcome_steps_eq_failed_iff htyped).mpr ⟨hfirst, henough⟩
    have hfree : inUse shifted sampleUsers "" ips = false := by
      have hnot (ip : IP) : sampleUsers.isIPInUse shifted ip "" = false := rfl
      cases ips with
      | none => rfl
      | some ips =>
        simp only [inUse, hnot, Option.any_some]
        exact List.any_eq_false.mpr fun _ _ => Bool.false_ne_true
    refine hsafe { Stargazer.Sample.env 0 with shifted := shifted } Priv.full id errno "" sampleUsers
      ⟨0, Nat.one_pos⟩ ?_
    unfold setUserStruct
    rw [hm]
    dsimp only
    rw [haonline, htext]
    dsimp only
    have hget : sampleUsers.users.get ⟨0, Nat.one_pos⟩ = sampleUser := rfl
    rw [hread]
    dsimp only
    rw [hget, hleads, if_neg Bool.false_ne_true, hagain]
    dsimp only
    rw [hfree, if_neg Bool.false_ne_true, setSteps_full_eq_failed hsteps]
  · intro hrange env priv iconv errno login s i hfailed
    obtain ⟨m, ips, hm, htyped, hallowed, hsteps⟩ := setUserStruct_eq_failed hfailed
    obtain ⟨hfirst, henough⟩ := (outcome_steps_eq_failed_iff htyped).mp hsteps
    exact henough (hrange m hm hfirst hallowed)

end UserHelper

/-! ## Both -/

/-- **When structures are handled safely**: if they are read far enough, then there are ten texts, as
many prices as there are directions, and a type of traffic that is one; and every tariff comes through. -/
theorem rpc_structures_safe_iff (tt : TimeText) (user tariff : Value) (td : TariffData)
    (data : TariffHelper.Data) :
    (UserHelper.Safe user ∧ TariffHelper.Safe tt tariff ∧ TariffHelper.RoundTrips tt td data) ↔
      UserHelper.InRange user ∧ TariffHelper.InRange tariff := by
  rw [UserHelper.safe_iff, TariffHelper.safe_iff,
    and_iff_left (TariffHelper.roundTrips tt td data)]

/-- **No texts** where ten are expected, and **a type of traffic** that is none. -/
theorem rpc_structures_not_safe :
    ¬ UserHelper.Safe (.struct [("userdata", .array [])]) ∧
      ¬ ∃ tt, TariffHelper.Safe tt (.struct [("traffType", .int 7)]) := by
  constructor
  · intro h
    have hother {α : Type} {conv : Value → Option α} {name : String} (hname : name ≠ "userdata") :
        Typed [("userdata", .array [])] name conv := by
      intro v hv
      rw [lookup_cons_of_ne hname] at hv
      cases hv
    have hfirst : UserHelper.FirstTyped [("userdata", .array [])] :=
      ⟨fun name hname => hother fun heq => absurd (heq ▸ hname) (by simp),
        fun name hname => hother fun heq => absurd (heq ▸ hname) (by simp),
        fun name hname => hother fun heq => absurd (heq ▸ hname) (by simp), hother (by simp)⟩
    have hallowed : UserHelper.Allowed [("userdata", .array [])] := by
      intro text hips
      rw [lookup_cons_of_ne (by simp)] at hips
      cases hips
    have := (UserHelper.safe_iff _).mp h _ rfl hfirst hallowed [] List.lookup_cons_self fun v hv => by
      cases hv
    exact absurd this (by decide)
  · rintro ⟨tt, h⟩
    have hother {α : Type} {conv : Value → Option α} {name : String} (hname : name ≠ "traffType") :
        Typed [("traffType", .int 7)] name conv := by
      intro v hv
      rw [lookup_cons_of_ne hname] at hv
      cases hv
    have htyped : TariffHelper.ConfTyped [("traffType", .int 7)] := by
      refine ⟨hother (by simp), hother (by simp), hother (by simp), fun v hv => ?_, hother (by simp),
        hother (by simp), hother (by simp)⟩
      rw [List.lookup_cons_self] at hv
      obtain rfl := Option.some.inj hv
      rfl
    have hprices : TariffHelper.PricesTyped [("traffType", .int 7)] := by
      intro v hv
      rw [lookup_cons_of_ne (by simp)] at hv
      cases hv
    obtain ⟨t, ht⟩ :=
      ((TariffHelper.safe_iff tt _).mp h _ rfl htyped hprices).2 7 List.lookup_cons_self
    cases t <;> cases ht

end Stargazer
