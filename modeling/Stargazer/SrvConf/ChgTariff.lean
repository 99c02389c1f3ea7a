import Stargazer.Config.SetTariff
import Stargazer.SrvConf.GetTariff

set_option relaxedAutoImplicit false
set_option autoImplicit false

/-!
# The request of a client that changes a tariff

`ChgTariff::serialize` of `libs/srvconf/parsers/chg_tariff.cpp` and `ServConf::ChgTariff`: a client says
what it wants changed in a `TariffDataOpt`, and the library prints what is set as the elements of a
request `SetTariff`.

If one of the four times of a direction is set, the values of all four are taken, and there is an
exception if one of them is not there.

## Main definitions

* `Stargazer.ChgTariff.serialize`, `Stargazer.ChgTariff.chgTariff` — the request.
* `Stargazer.ChgTariff.sent` — what is sent of an element.
* `Stargazer.ChgTariff.TimesTogether` — the times of a direction are set together.

## Main results

* `Stargazer.ChgTariff.serialize_eq`, `Stargazer.ChgTariff.serialize_eq_none` — the request, element by
  element.
* `Stargazer.ChgTariff.isDocument_chgTariff` — the request is a document.
-/

namespace Stargazer

/-- A price of a direction, if it is set. -/
def PriceKind.getOpt (k : PriceKind) (p : DirPriceDataOpt) : Option Money :=
  match k with
  | .dayA => p.priceDayA
  | .dayB => p.priceDayB
  | .nightA => p.priceNightA
  | .nightB => p.priceNightB

/-- A whole number of a direction, if it is set. -/
def FlagKind.getOpt (k : FlagKind) (p : DirPriceDataOpt) : Option ℤ :=
  match k with
  | .threshold => p.threshold
  | .singlePrice => p.singlePrice
  | .noDiscount => p.noDiscount

namespace ChgTariff

open SrvConf (appendTag appendResetableTag)

/-! ## The request -/

/-- The values of all directions, if they are set. -/
def allDirs {α : Type} (zero : α) (field : Dir → Option α) : Option (Dir → α) :=
  if ∀ i, (field i).isSome = true then some fun i => (field i).getD zero else none

/-- `appendSlashedResetable`: nothing unless all directions have a value. -/
def appendSlashedResetable {α : Type} (name : String) (print : α → List Char) (zero : α)
    (field : Dir → Option α) : List Xml.Tag :=
  (allDirs zero field).toList.map fun vs => appendTag name (aos2String fun i => print (vs i))

/-- The element of the times of a direction. -/
def appendTime (i : Dir) (p : DirPriceDataOpt) : Option (List Xml.Tag) :=
  if p.hDay.isSome || p.mDay.isSome || p.hNight.isSome || p.mNight.isSome then
    p.hDay.bind fun h1 => p.mDay.bind fun m1 => p.hNight.bind fun h2 => p.mNight.bind fun m2 =>
      some [appendTag ("time" ++ toString i.val) (timeText h1 m1 h2 m2)]
  else some []

/-- The texts of a period. -/
def periodText : Period → String
  | .day => "day"
  | .month => "month"

/-- The texts of a change policy. -/
def changePolicyText : ChangePolicy → String
  | .allow => "allow"
  | .toCheap => "to_cheap"
  | .toExpensive => "to_expensive"
  | .deny => "deny"

/-- `ChgTariff::serialize`; there is no result where the value of an `optional` is taken that has none. -/
def serialize (d : NumberText) (data : TariffDataOpt) : Option (List Xml.Tag) :=
  let conf := data.tariffConf
  ((List.finRange 10).mapM fun i => appendTime i (data.dirPrice i)).map fun times =>
    appendResetableTag "fee" (conf.fee.map d.stream) ++
    appendResetableTag "passiveCost" (conf.passiveCost.map d.stream) ++
    appendResetableTag "free" (conf.free.map d.stream) ++
    appendResetableTag "traffType" (conf.traffType.map fun t => t.toString.toList) ++
    appendResetableTag "period" (conf.period.map fun p => (periodText p).toList) ++
    appendResetableTag "changePolicy" (conf.changePolicy.map fun p => (changePolicyText p).toList) ++
    appendResetableTag "changePolicyTimeout" (conf.changePolicyTimeout.map CString.printInt) ++
    times.flatten ++
    appendSlashedResetable "priceDayA" d.print 0 (fun i => (data.dirPrice i).priceDayA) ++
    appendSlashedResetable "priceDayB" d.print 0 (fun i => (data.dirPrice i).priceDayB) ++
    appendSlashedResetable "priceNightA" d.print 0 (fun i => (data.dirPrice i).priceNightA) ++
    appendSlashedResetable "priceNightB" d.print 0 (fun i => (data.dirPrice i).priceNightB) ++
    appendSlashedResetable "singlePrice" CString.printInt 0 (fun i => (data.dirPrice i).singlePrice) ++
    appendSlashedResetable "noDiscount" CString.printInt 0 (fun i => (data.dirPrice i).noDiscount) ++
    appendSlashedResetable "threshold" CString.printInt 0 (fun i => (data.dirPrice i).threshold)

/-- `ServConf::ChgTariff`: the request. -/
def chgTariff (d : NumberText) (data : TariffDataOpt) : Option (List Xml.Tag) :=
  data.tariffConf.name.bind fun name =>
    (serialize d data).map fun inner =>
      .start "SetTariff".toList [⟨"name".toList, name.toList⟩] :: (inner ++ [.close "SetTariff".toList])

/-! ## Element by element -/

/-- The elements in the order of `serialize`. -/
def requestFields : List TariffField :=
  [TariffField.fee, .passiveCost, .free, .traffType, .period, .changePolicy, .changePolicyTimeout] ++
    (List.finRange 10).map TariffField.time ++
    [TariffField.price .dayA, .price .dayB, .price .nightA, .price .nightB, .flag .singlePrice,
      .flag .noDiscount, .flag .threshold]

/-- The times of a direction, if they are all set. -/
def sentTime (p : DirPriceDataOpt) : Option (ℤ × ℤ × ℤ × ℤ) :=
  p.hDay.bind fun h1 => p.mDay.bind fun m1 => p.hNight.bind fun h2 =>
    p.mNight.map fun m2 => (h1, m1, h2, m2)

/-- What is sent of an element. -/
def sent (data : TariffDataOpt) : (f : TariffField) → Option f.Value
  | .fee => data.tariffConf.fee
  | .passiveCost => data.tariffConf.passiveCost
  | .free => data.tariffConf.free
  | .traffType => data.tariffConf.traffType
  | .period => data.tariffConf.period
  | .changePolicy => data.tariffConf.changePolicy
  | .changePolicyTimeout => data.tariffConf.changePolicyTimeout
  | .time i => sentTime (data.dirPrice i)
  | .price k => allDirs 0 fun i => k.getOpt (data.dirPrice i)
  | .flag k => allDirs 0 fun i => k.getOpt (data.dirPrice i)

/-- The text of what is sent. -/
def requestText (d : NumberText) : (f : TariffField) → f.Value → List Char
  | .fee, x | .passiveCost, x | .free, x => d.stream x
  | .traffType, x => x.toString.toList
  | .period, x => (periodText x).toList
  | .changePolicy, x => (changePolicyText x).toList
  | .changePolicyTimeout, x => CString.printInt x
  | .time _, x => timeText x.1 x.2.1 x.2.2.1 x.2.2.2
  | .price _, x => aos2String fun i => d.print (x i)
  | .flag _, x => aos2String fun i => CString.printInt (x i)

/-- The times of a direction are set together, or none of them is. -/
def Together (p : DirPriceDataOpt) : Prop :=
  p.hDay.isSome = p.mDay.isSome ∧ p.hDay.isSome = p.hNight.isSome ∧ p.hDay.isSome = p.mNight.isSome

instance (p : DirPriceDataOpt) : Decidable (Together p) := inferInstanceAs (Decidable (_ ∧ _ ∧ _))

/-- In all directions the times are set together. -/
def TimesTogether (data : TariffDataOpt) : Prop := ∀ i, Together (data.dirPrice i)

instance (data : TariffDataOpt) : Decidable (TimesTogether data) :=
  inferInstanceAs (Decidable (∀ _, _))

/-- The tag of an element, if something is sent of it. -/
def fieldTags (d : NumberText) (data : TariffDataOpt) (f : TariffField) : List Xml.Tag :=
  (sent data f).toList.map fun v => appendTag f.requestName (requestText d f v)

/-- The element of the times. -/
theorem appendTime_eq (i : Dir) {p : DirPriceDataOpt} (h : Together p) :
    appendTime i p = some ((sentTime p).toList.map fun x =>
      appendTag ("time" ++ toString i.val) (timeText x.1 x.2.1 x.2.2.1 x.2.2.2)) := by
  obtain ⟨hm, hh2, hm2⟩ := h
  obtain ⟨h1, m1, h2, m2⟩ := p
  cases h1 <;> cases m1 <;> cases h2 <;> cases m2 <;>
    first | rfl | exact Bool.noConfusion hm | exact Bool.noConfusion hh2 | exact Bool.noConfusion hm2

/-- An exception. -/
theorem appendTime_eq_none (i : Dir) {p : DirPriceDataOpt} (h : ¬ Together p) :
    appendTime i p = none := by
  obtain ⟨h1, m1, h2, m2⟩ := p
  cases h1 <;> cases m1 <;> cases h2 <;> cases m2 <;> first | rfl | exact absurd ⟨rfl, rfl, rfl⟩ h

/-- The element of a value. -/
theorem appendResetableTag_map {α : Type} (name : String) (value : Option α) (print : α → List Char) :
    appendResetableTag name (value.map print) =
      value.toList.map fun v => appendTag name (print v) := by
  cases value <;> rfl

/-- **The request, element by element.** -/
theorem serialize_eq (d : NumberText) {data : TariffDataOpt} (h : TimesTogether data) :
    serialize d data = some (requestFields.flatMap (fieldTags d data)) := by
  have htimes : ((List.finRange 10).mapM fun i => appendTime i (data.dirPrice i)) =
      some ((List.finRange 10).map fun i => fieldTags d data (.time i)) := by
    generalize List.finRange 10 = dirs
    induction dirs with
    | nil => rfl
    | cons i dirs ih =>
      rw [List.mapM_cons, appendTime_eq i (h i), ih]
      rfl
  rw [serialize, htimes, Option.map_some, ← List.flatMap_def]
  simp only [appendResetableTag_map, requestFields, List.flatMap_append, List.flatMap_cons,
    List.flatMap_nil, List.append_nil, List.flatMap_map, List.append_assoc]
  rfl

/-- **An exception**: the times of a direction are not set together. -/
theorem serialize_eq_none (d : NumberText) {data : TariffDataOpt} (h : ¬ TimesTogether data) :
    serialize d data = none := by
  obtain ⟨i, hi⟩ := not_forall.mp h
  have htimes : ((List.finRange 10).mapM fun i => appendTime i (data.dirPrice i)) = none := by
    have hmem := List.mem_finRange i
    revert hmem
    generalize List.finRange 10 = dirs
    intro hmem
    induction dirs with
    | nil => cases hmem
    | cons j dirs ih =>
      rw [List.mapM_cons]
      rcases List.mem_cons.mp hmem with rfl | hmem
      · rw [appendTime_eq_none _ hi]
        rfl
      · rw [ih hmem]
        cases appendTime j (data.dirPrice j) <;> rfl
  rw [serialize, htimes, Option.map_none]

/-! ## The request is a document -/

/-- The text of what is sent can stand in a value. -/
theorem isPlain_requestText (d : NumberText) (f : TariffField) (v : f.Value) :
    Xml.isPlain (requestText d f v) = true := by
  cases f with
  | fee | passiveCost | free => exact d.streamPlain v
  | traffType =>
    have hall (t : TraffType) : Xml.isPlain t.toString.toList = true := by cases t <;> decide
    exact hall v
  | period =>
    have hall (p : Period) : Xml.isPlain (periodText p).toList = true := by cases p <;> decide
    exact hall v
  | changePolicy =>
    have hall (p : ChangePolicy) : Xml.isPlain (changePolicyText p).toList = true := by
      cases p <;> decide
    exact hall v
  | changePolicyTimeout => exact isPlain_printInt v
  | time i => exact GetTariff.isPlain_timeText _ _ _ _
  | price k => exact isPlain_aos2String fun i => d.plain _
  | flag k => exact isPlain_aos2String fun i => isPlain_printInt _

/-- What stands inside of a request. -/
theorem isContent_requestFields (d : NumberText) (data : TariffDataOpt) :
    Xml.IsContent (requestFields.flatMap (fieldTags d data)) := by
  refine Xml.isContent_flatMap fun f _ => ?_
  unfold fieldTags
  cases sent data f with
  | none => exact Xml.isContent_nil
  | some v =>
    exact Xml.isContent_empty (isName_requestName f)
      (Xml.attrsOk_singleton (by decide) (isPlain_requestText d f v))

/-- **The request is a document.** -/
theorem isDocument_chgTariff (d : NumberText) {data : TariffDataOpt} {name : String}
    (hname : data.tariffConf.name = some name) (hplain : Xml.isPlain name.toList = true)
    {tags : List Xml.Tag} (h : chgTariff d data = some tags) : Xml.IsDocument tags := by
  unfold chgTariff at h
  rw [hname, Option.bind_some] at h
  obtain ⟨inner, hinner, rfl⟩ := Option.map_eq_some_iff.mp h
  have htogether : TimesTogether data := by
    by_contra hnot
    rw [serialize_eq_none d hnot] at hinner
    cases hinner
  rw [serialize_eq d htogether] at hinner
  obtain rfl := Option.some.inj hinner
  exact ⟨"SetTariff".toList, _, _, rfl, by decide, Xml.attrsOk_singleton (by decide) hplain,
    isContent_requestFields d data⟩

end ChgTariff

end Stargazer
