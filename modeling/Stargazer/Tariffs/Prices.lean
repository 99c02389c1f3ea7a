import Stargazer.Tariffs.TariffImpl

set_option relaxedAutoImplicit false
set_option autoImplicit false

/-!
# The four prices of a direction

Which of its four prices a tariff selects (`TariffImpl::GetPriceWithoutFreeMb`), as a choice and not
as an amount, and the position of the traffic with respect to the threshold that decides it.

The threshold is compared with whole megabytes: the traffic is above it from the end of the megabyte
that follows it.

## Main definitions

* `Stargazer.PriceKind` — the four prices.
* `Stargazer.firstAbove` — where the traffic gets above a threshold.
* `Stargazer.TariffImpl.selectPrice` — the choice.
* `Stargazer.TariffImpl.priceBelow`, `Stargazer.TariffImpl.priceAbove` — the two prices of a time.

## Main results

* `Stargazer.TariffImpl.getPriceWithoutFreeMb_eq` — the price is the one that is selected.
* `Stargazer.TariffImpl.getPriceWithTraffType_eq` — the price by the position of the traffic.
-/

namespace Stargazer

/-- The prices of a direction. -/
inductive PriceKind
  | dayA | dayB | nightA | nightB
  deriving DecidableEq

namespace PriceKind

def get (k : PriceKind) (p : DirPriceData) : Money :=
  match k with
  | .dayA => p.priceDayA
  | .dayB => p.priceDayB
  | .nightA => p.priceNightA
  | .nightB => p.priceNightB

/-- A price above the threshold. -/
def isB : PriceKind → Bool
  | .dayA => false
  | .dayB => true
  | .nightA => false
  | .nightB => true

end PriceKind

/-- The least number of bytes that is above a threshold: the end of the megabyte that follows it.
Below zero the division rounds the other way. -/
def firstAbove (threshold : ℤ) : ℤ :=
  if 0 ≤ threshold then (threshold + 1) * 1048576 else threshold * 1048576 + 1

/-- The threshold reads whole megabytes of a number of bytes. -/
theorem lt_tdiv_megabyte_iff {x n : ℤ} : n < x.tdiv (1024 * 1024) ↔ firstAbove n ≤ x := by
  unfold firstAbove
  by_cases hx : 0 ≤ x
  · rw [Int.tdiv_eq_ediv_of_nonneg hx]
    split_ifs <;> omega
  · have heq : x.tdiv (1024 * 1024) = -(-x / 1048576) := by
      rw [← neg_neg x, Int.neg_tdiv, Int.tdiv_eq_ediv_of_nonneg (by omega), neg_neg]
      rfl
    rw [heq]
    split_ifs <;> omega

namespace TariffImpl

/-- The choice of `TariffImpl::GetPriceWithoutFreeMb`. -/
def selectPrice (t : TariffImpl) (dir : Dir) (mb : ℤ) (lt : Tm) : PriceKind :=
  let nd := (t.dirPrice dir).noDiscount ≠ 0
  let sp := (t.dirPrice dir).singlePrice ≠ 0
  let th := t.interval dir lt = true
  let tr := mb > (t.dirPrice dir).threshold
  if ¬nd ∧ ¬sp ∧ th ∧ tr then .nightB
  else if ¬nd ∧ tr then .dayB
  else if ¬sp ∧ th then .nightA
  else .dayA

/-- The price is the one that is selected. -/
theorem getPriceWithoutFreeMb_eq (t : TariffImpl) (dir : Dir) (mb : ℤ) (lt : Tm) :
    t.getPriceWithoutFreeMb dir mb lt = (t.selectPrice dir mb lt).get (t.dirPrice dir) := by
  unfold getPriceWithoutFreeMb selectPrice
  simp only
  split_ifs <;> rfl

/-- The price below the threshold, at a time. -/
def priceBelow (t : TariffImpl) (dir : Dir) (lt : Tm) : Money :=
  if (t.dirPrice dir).singlePrice = 0 ∧ t.interval dir lt = true then (t.dirPrice dir).priceNightA
  else (t.dirPrice dir).priceDayA

/-- The price above the threshold, at a time. -/
def priceAbove (t : TariffImpl) (dir : Dir) (lt : Tm) : Money :=
  if (t.dirPrice dir).singlePrice = 0 ∧ t.interval dir lt = true then (t.dirPrice dir).priceNightB
  else (t.dirPrice dir).priceDayB

/-- **With a discount** the price above the threshold is selected from the end of the megabyte that
follows the threshold on. -/
theorem isB_selectPrice (t : TariffImpl) {dir : Dir} (h : (t.dirPrice dir).noDiscount = 0) (mb : ℤ)
    (lt : Tm) :
    (t.selectPrice dir mb lt).isB = decide (mb > t.getThreshold dir) := by
  unfold selectPrice getThreshold
  simp only [h, ne_eq, not_true_eq_false, not_false_eq_true, true_and]
  split_ifs with h1 h2 h3
  · simp [PriceKind.isB, h1.2.2]
  · simp [PriceKind.isB, h2]
  · simp [PriceKind.isB, h2]
  · simp [PriceKind.isB, h2]

/-- The price of a byte with a discount. -/
theorem getPriceWithoutFreeMb_of_discount (t : TariffImpl) {dir : Dir}
    (h : (t.dirPrice dir).noDiscount = 0) (mb : ℤ) (lt : Tm) :
    t.getPriceWithoutFreeMb dir mb lt =
      if mb > t.getThreshold dir then t.priceAbove dir lt else t.priceBelow dir lt := by
  unfold getPriceWithoutFreeMb priceAbove priceBelow getThreshold
  simp only [h, ne_eq, not_true_eq_false, not_false_eq_true, true_and, not_not]
  split_ifs <;> simp_all

/-- The price of a byte without a discount. -/
theorem getPriceWithoutFreeMb_of_noDiscount (t : TariffImpl) {dir : Dir}
    (h : (t.dirPrice dir).noDiscount ≠ 0) (mb : ℤ) (lt : Tm) :
    t.getPriceWithoutFreeMb dir mb lt = t.priceBelow dir lt := by
  unfold getPriceWithoutFreeMb priceBelow
  simp only [h, ne_eq, not_false_eq_true, not_true_eq_false, false_and, if_false, not_not]

/-- The price from where the traffic is above the threshold on: the one above it, unless the tariff
has no discount. -/
def upperPrice (t : TariffImpl) (dir : Dir) (lt : Tm) : Money :=
  if (t.dirPrice dir).noDiscount = 0 then t.priceAbove dir lt else t.priceBelow dir lt

/-- The price by the position of the traffic. -/
theorem getPriceWithTraffType_eq (t : TariffImpl) (up down : BitVec 64) (dir : Dir) (lt : Tm) :
    t.getPriceWithTraffType up down dir lt =
      if firstAbove (t.getThreshold dir) ≤ t.getTraffByType up down then t.upperPrice dir lt
      else t.priceBelow dir lt := by
  unfold getPriceWithTraffType upperPrice
  by_cases hn : (t.dirPrice dir).noDiscount = 0
  · rw [getPriceWithoutFreeMb_of_discount t hn]
    simp only [gt_iff_lt, lt_tdiv_megabyte_iff, hn, if_true]
  · rw [getPriceWithoutFreeMb_of_noDiscount t hn, if_neg hn, ite_self]

end TariffImpl

end Stargazer
