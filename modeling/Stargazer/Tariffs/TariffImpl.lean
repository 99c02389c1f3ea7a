import Stargazer.Basic
import Mathlib.Tactic.Linarith
import Mathlib.Algebra.Order.Ring.Rat

set_option relaxedAutoImplicit false
set_option autoImplicit false

/-!
# Tariffs

The tariff data and the price functions of `tariff_impl.cpp` and `include/stg/tariff_conf.h`.

## Main definitions

* `Stargazer.TariffData`, `Stargazer.DirPriceData` — the data of a tariff.
* `Stargazer.TariffImpl.getTraffByType`, `Stargazer.TariffImpl.getPriceWithTraffType` — the traffic
  a tariff looks at, and the price of one byte.
* `Stargazer.TariffImpl.tariffChangeIsAllowed` — the change policy.

## Main results

* `Stargazer.TariffImpl.getPriceWithTraffType_nonneg` — a tariff without negative prices never
  charges a negative price.
-/

namespace Stargazer

/-- `Tariff::TraffType`: which counters the traffic of a direction is made of. -/
inductive TraffType
  /-- `TRAFF_UP`. -/
  | up
  /-- `TRAFF_DOWN`. -/
  | down
  /-- `TRAFF_UP_DOWN`. -/
  | upDown
  /-- `TRAFF_MAX`. -/
  | max
  deriving DecidableEq

/-- `Tariff::Period`. -/
inductive Period
  /-- `DAY`. -/
  | day
  /-- `MONTH`. -/
  | month
  deriving DecidableEq

/-- `Tariff::ChangePolicy`. -/
inductive ChangePolicy
  /-- `ALLOW`. -/
  | allow
  /-- `TO_CHEAP`. -/
  | toCheap
  /-- `TO_EXPENSIVE`. -/
  | toExpensive
  /-- `DENY`. -/
  | deny
  deriving DecidableEq

/-- `Tariff::toString(ChangePolicy)`. -/
def ChangePolicy.toString : ChangePolicy → String
  | .allow => "allow"
  | .toCheap => "to_cheap"
  | .toExpensive => "to_expensive"
  | .deny => "deny"

/-- The prices of one direction. -/
structure DirPriceData where
  /-- Hour of the start of the day. -/
  hDay : ℤ := 0
  /-- Minute of the start of the day. -/
  mDay : ℤ := 0
  /-- Hour of the start of the night. -/
  hNight : ℤ := 0
  /-- Minute of the start of the night. -/
  mNight : ℤ := 0
  /-- Day price below the threshold. -/
  priceDayA : Money := 0
  /-- Night price below the threshold. -/
  priceNightA : Money := 0
  /-- Day price above the threshold. -/
  priceDayB : Money := 0
  /-- Night price above the threshold. -/
  priceNightB : Money := 0
  /-- The threshold in megabytes, an `int`. -/
  threshold : ℤ := 0
  /-- Do not use day/night division. -/
  singlePrice : ℤ := 0
  /-- Do not use the threshold. -/
  noDiscount : ℤ := 0
  deriving DecidableEq

/-- The part of a tariff that does not depend on the direction. -/
structure TariffConf where
  /-- The subscription fee. -/
  fee : Money := 0
  /-- Prepaid traffic. -/
  free : Money := 0
  /-- Which traffic is charged. -/
  traffType : TraffType := .upDown
  /-- The price of freezing the account. -/
  passiveCost : Money := 0
  /-- The name, the key of the registry. -/
  name : String
  /-- How often the fee is charged. -/
  period : Period := .month
  /-- To which tariffs a user may change. -/
  changePolicy : ChangePolicy := .allow
  /-- From when on the policy is ignored, `0` for never. -/
  changePolicyTimeout : Time := 0
  deriving DecidableEq

/-- The data of a tariff. -/
structure TariffData where
  /-- The direction independent part. -/
  tariffConf : TariffConf
  /-- The prices, one record for each direction. -/
  dirPrice : Dir → DirPriceData := fun _ => {}
  deriving DecidableEq

/-- `TariffImpl` is a wrapper around its data. -/
abbrev TariffImpl := TariffData

/-- The 32-bit value an `int` expression takes: the exact value wrapped into the range. -/
def wrapInt32 (z : ℤ) : ℤ := (BitVec.ofInt 32 z).toInt

namespace TariffImpl

/-- `TariffImpl::TariffImpl(const std::string&)`: a new tariff with default values. -/
def ofName (name : String) : TariffImpl := { tariffConf := { name := name } }

/-- `TariffImpl::GetName`. -/
def getName (t : TariffImpl) : String := t.tariffConf.name

/-- `TariffImpl::GetFee`. -/
def getFee (t : TariffImpl) : Money := t.tariffConf.fee

/-- `TariffImpl::GetTraffByType`: the traffic that counts for the tariff, an unsigned sum read as
a signed 64-bit number. -/
def getTraffByType (t : TariffImpl) (up down : BitVec 64) : ℤ :=
  match t.tariffConf.traffType with
  | .up => up.toInt
  | .down => down.toInt
  | .max => (if up < down then down else up).toInt
  | .upDown => (up + down).toInt

/-- `TariffImpl::GetThreshold`. -/
def getThreshold (t : TariffImpl) (dir : Dir) : ℤ := (t.dirPrice dir).threshold

/-- `TariffImpl::Interval`: is it night (`true`) or day (`false`) for the direction? -/
def interval (t : TariffImpl) (dir : Dir) (lt : Tm) : Bool :=
  let s1 := (t.dirPrice dir).hDay * 3600 + (t.dirPrice dir).mDay * 60
  let s2 := (t.dirPrice dir).hNight * 3600 + (t.dirPrice dir).mNight * 60
  let lts := lt.hour * 3600 + lt.min * 60
  if s1 < s2 then !decide (lts > s1 ∧ lts < s2)
  else decide (lts < s1 ∧ lts > s2)

/-- `TariffImpl::GetPriceWithoutFreeMb`: the price of a byte after `mb` megabytes. -/
def getPriceWithoutFreeMb (t : TariffImpl) (dir : Dir) (mb : ℤ) (lt : Tm) : Money :=
  let nd := (t.dirPrice dir).noDiscount ≠ 0
  let sp := (t.dirPrice dir).singlePrice ≠ 0
  let th := t.interval dir lt = true
  let tr := mb > (t.dirPrice dir).threshold
  if ¬nd ∧ ¬sp ∧ th ∧ tr then (t.dirPrice dir).priceNightB
  else if ¬nd ∧ tr then (t.dirPrice dir).priceDayB
  else if ¬sp ∧ th then (t.dirPrice dir).priceNightA
  else (t.dirPrice dir).priceDayA

/-- `TariffImpl::GetPriceWithTraffType`: the price of a byte for the given counters; the division
truncates towards zero. -/
def getPriceWithTraffType (t : TariffImpl) (up down : BitVec 64) (dir : Dir) (lt : Tm) : Money :=
  t.getPriceWithoutFreeMb dir ((t.getTraffByType up down).tdiv (1024 * 1024)) lt

/-- `TariffImpl::TariffChangeIsAllowed`: the empty text if the change is allowed, else the
reason why it is not. -/
def tariffChangeIsAllowed (t other : TariffImpl) (currentTime : Time) : String :=
  let timeout := t.tariffConf.changePolicyTimeout
  let policy := t.tariffConf.changePolicy.toString
  if currentTime > timeout ∧ timeout ≠ 0 then ""
  else
    match t.tariffConf.changePolicy with
    | .allow => ""
    | .toCheap =>
      if other.getFee < t.getFee then ""
      else "New tariff '" ++ other.getName ++ "' is more expensive than current tariff '" ++
        t.getName ++ "'. The policy is '" ++ policy ++ "'."
    | .toExpensive =>
      if other.getFee ≥ t.getFee then ""
      else "New tariff '" ++ other.getName ++ "' is more cheap than current tariff '" ++
        t.getName ++ "'. The policy is '" ++ policy ++ "'."
    | .deny => "Current tariff '" ++ t.getName ++ "', new tariff '" ++ other.getName ++
        "'. The policy is '" ++ policy ++ "'."

/-- No price of the tariff is negative. -/
def PricesNonneg (t : TariffImpl) : Prop :=
  ∀ dir, 0 ≤ (t.dirPrice dir).priceDayA ∧ 0 ≤ (t.dirPrice dir).priceNightA ∧
    0 ≤ (t.dirPrice dir).priceDayB ∧ 0 ≤ (t.dirPrice dir).priceNightB

/-- A tariff without negative prices never charges a negative price: the price function only
selects one of the four. -/
theorem getPriceWithTraffType_nonneg {t : TariffImpl} (ht : t.PricesNonneg)
    (up down : BitVec 64) (dir : Dir) (lt : Tm) : 0 ≤ t.getPriceWithTraffType up down dir lt := by
  obtain ⟨h1, h2, h3, h4⟩ := ht dir
  simp only [getPriceWithTraffType, getPriceWithoutFreeMb]
  split_ifs <;> assumption

end TariffImpl

end Stargazer
