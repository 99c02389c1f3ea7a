import Stargazer.Tariffs.TariffImpl

set_option relaxedAutoImplicit false
set_option autoImplicit false

/-!
# Day and night

`TariffImpl::Interval` tells day from night by the minutes at which the two begin.  It has one branch for
a day that begins before the night and one for the other order, and both compare strictly: the first
leaves out the minute at which the day begins, the second takes in the one at which the night begins.

## Main definitions

* `Stargazer.Clock.InArc` — the minutes of the clock from one on and before another.
* `Stargazer.DirPriceData.shift`, `Stargazer.Tm.shift` — the clock is turned.
* `Stargazer.TariffImpl.Meets` — day and night meet without gap or overlap, wherever the clock begins.

## Main results

* `Stargazer.Clock.inArc_add_iff` — turning the clock.
* `Stargazer.TariffImpl.interval_eq_false_iff` — what the source takes for day.
* `Stargazer.TariffImpl.day_night_meet_iff` — when day and night meet as they should.
-/

namespace Stargazer

/-! ## The clock -/

namespace Clock

/-- The minutes of a clock with `N` of them, from `d` on and before `n`. -/
def InArc (N d n m : ℤ) : Prop := (m - d) % N < (n - d) % N

instance (N d n m : ℤ) : Decidable (InArc N d n m) := inferInstanceAs (Decidable (_ < _))

section

variable {N d n m : ℤ}

/-- **Turning the clock** changes nothing. -/
theorem inArc_add_iff (N d n m k : ℤ) : InArc N (d + k) (n + k) (m + k) ↔ InArc N d n m := by
  unfold InArc
  rw [show m + k - (d + k) = m - d by omega, show n + k - (d + k) = n - d by omega]

/-- Only the place on the clock counts. -/
theorem inArc_emod_iff (N d n m : ℤ) : InArc N (d % N) (n % N) (m % N) ↔ InArc N d n m := by
  unfold InArc
  rw [← Int.sub_emod, ← Int.sub_emod]

/-- An arc that does not pass the beginning of the clock. -/
theorem inArc_iff_of_lt (hd : 0 ≤ d) (hn : n < N) (hm : 0 ≤ m) (hmN : m < N) (h : d < n) :
    InArc N d n m ↔ d ≤ m ∧ m < n := by
  unfold InArc
  rw [Int.emod_eq_of_lt (show 0 ≤ n - d by omega) (show n - d < N by omega)]
  by_cases hdm : d ≤ m
  · rw [Int.emod_eq_of_lt (show 0 ≤ m - d by omega) (show m - d < N by omega)]
    omega
  · have hturn : (m - d) % N = m - d + N := by
      rw [← Int.add_emod_right, Int.emod_eq_of_lt (by omega) (by omega)]
    rw [hturn]
    omega

/-- An arc that passes it. -/
theorem inArc_iff_of_gt (hn : 0 ≤ n) (hd : d < N) (hm : 0 ≤ m) (hmN : m < N) (h : n < d) :
    InArc N d n m ↔ d ≤ m ∨ m < n := by
  unfold InArc
  have hturn : (n - d) % N = n - d + N := by
    rw [← Int.add_emod_right, Int.emod_eq_of_lt (by omega) (by omega)]
  rw [hturn]
  by_cases hdm : d ≤ m
  · rw [Int.emod_eq_of_lt (show 0 ≤ m - d by omega) (show m - d < N by omega)]
    omega
  · have hturn' : (m - d) % N = m - d + N := by
      rw [← Int.add_emod_right, Int.emod_eq_of_lt (by omega) (by omega)]
    rw [hturn']
    omega

end

end Clock

/-! ## Turning the clock of a tariff -/

/-- The minute of the day at which the day begins. -/
def DirPriceData.dayStart (p : DirPriceData) : ℤ := p.hDay * 60 + p.mDay

/-- The minute of the day at which the night begins. -/
def DirPriceData.nightStart (p : DirPriceData) : ℤ := p.hNight * 60 + p.mNight

/-- The minute of the day. -/
def Tm.minuteOfDay (lt : Tm) : ℤ := lt.hour * 60 + lt.min

/-- Day and night begin `k` minutes later. -/
def DirPriceData.shift (k : ℤ) (p : DirPriceData) : DirPriceData :=
  { p with
    hDay := (p.dayStart + k) % 1440 / 60
    mDay := (p.dayStart + k) % 1440 % 60
    hNight := (p.nightStart + k) % 1440 / 60
    mNight := (p.nightStart + k) % 1440 % 60 }

/-- The clock shows `k` minutes more. -/
def Tm.shift (k : ℤ) (lt : Tm) : Tm :=
  { lt with
    hour := (lt.minuteOfDay + k) % 1440 / 60
    min := (lt.minuteOfDay + k) % 1440 % 60 }

@[simp] theorem DirPriceData.dayStart_shift (k : ℤ) (p : DirPriceData) :
    (p.shift k).dayStart = (p.dayStart + k) % 1440 := by
  show (p.dayStart + k) % 1440 / 60 * 60 + (p.dayStart + k) % 1440 % 60 = _
  omega

@[simp] theorem DirPriceData.nightStart_shift (k : ℤ) (p : DirPriceData) :
    (p.shift k).nightStart = (p.nightStart + k) % 1440 := by
  show (p.nightStart + k) % 1440 / 60 * 60 + (p.nightStart + k) % 1440 % 60 = _
  omega

@[simp] theorem Tm.minuteOfDay_shift (k : ℤ) (lt : Tm) :
    (lt.shift k).minuteOfDay = (lt.minuteOfDay + k) % 1440 := by
  show (lt.minuteOfDay + k) % 1440 / 60 * 60 + (lt.minuteOfDay + k) % 1440 % 60 = _
  omega

namespace TariffImpl

/-- All directions of a tariff. -/
def shift (k : ℤ) (t : TariffImpl) : TariffImpl :=
  { t with dirPrice := fun dir => (t.dirPrice dir).shift k }

/-- The minute lies between the beginning of the day, which belongs to it, and that of the night, which
does not. -/
def InDay (t : TariffImpl) (dir : Dir) (lt : Tm) : Prop :=
  Clock.InArc 1440 (t.dirPrice dir).dayStart (t.dirPrice dir).nightStart lt.minuteOfDay

/-- Day and night meet without gap or overlap, and the price does not change if the clock is turned. -/
def Meets (t : TariffImpl) (dir : Dir) (mb : ℤ) (lt : Tm) (k : ℤ) : Prop :=
  (t.interval dir lt = false ↔ t.InDay dir lt) ∧
    (t.shift k).getPriceWithoutFreeMb dir mb (lt.shift k) = t.getPriceWithoutFreeMb dir mb lt

/-- A direction whose day and night begin at different minutes of the day. -/
structure Divided (p : DirPriceData) : Prop where
  day : 0 ≤ p.dayStart ∧ p.dayStart < 1440
  night : 0 ≤ p.nightStart ∧ p.nightStart < 1440
  ne : p.dayStart ≠ p.nightStart

/-- The minute at which the earlier one of day and night begins. -/
def AtFirstStart (p : DirPriceData) (lt : Tm) : Prop := lt.minuteOfDay = min p.dayStart p.nightStart

/-- The price is the same by day and by night. -/
def SamePrice (p : DirPriceData) (mb : ℤ) : Prop :=
  p.singlePrice ≠ 0 ∨
    if p.noDiscount = 0 ∧ mb > p.threshold then p.priceNightB = p.priceDayB
    else p.priceNightA = p.priceDayA

section

variable {t : TariffImpl} {dir : Dir} {lt : Tm}

theorem Divided.shift {p : DirPriceData} (h : Divided p) (k : ℤ) : Divided (p.shift k) := by
  obtain ⟨hday, hnight, hne⟩ := h
  constructor
  · rw [DirPriceData.dayStart_shift]
    omega
  · rw [DirPriceData.nightStart_shift]
    omega
  · rw [DirPriceData.dayStart_shift, DirPriceData.nightStart_shift]
    omega

/-- **What the source takes for day**: the day, but for the minute at which the first of the two begins,
which it takes for what was before. -/
theorem interval_eq_false_iff (h : Divided (t.dirPrice dir)) (hlt : 0 ≤ lt.minuteOfDay)
    (hlt' : lt.minuteOfDay < 1440) :
    t.interval dir lt = false ↔ (t.InDay dir lt ↔ ¬ AtFirstStart (t.dirPrice dir) lt) := by
  obtain ⟨⟨hday, hday'⟩, ⟨hnight, hnight'⟩, hne⟩ := h
  have hs1 : (t.dirPrice dir).hDay * 3600 + (t.dirPrice dir).mDay * 60 =
      60 * (t.dirPrice dir).dayStart := by
    unfold DirPriceData.dayStart
    omega
  have hs2 : (t.dirPrice dir).hNight * 3600 + (t.dirPrice dir).mNight * 60 =
      60 * (t.dirPrice dir).nightStart := by
    unfold DirPriceData.nightStart
    omega
  have hlts : lt.hour * 3600 + lt.min * 60 = 60 * lt.minuteOfDay := by
    unfold Tm.minuteOfDay
    omega
  unfold interval InDay AtFirstStart
  rw [hs1, hs2, hlts]
  dsimp only
  rcases lt_or_gt_of_ne hne with hlt | hgt
  · rw [Clock.inArc_iff_of_lt hday hnight' ‹_› hlt' hlt, if_pos (by omega), min_eq_left hlt.le,
      Bool.not_eq_false', decide_eq_true_iff]
    omega
  · rw [Clock.inArc_iff_of_gt hnight hday' hlt hlt' hgt, if_neg (by omega), min_eq_right hgt.le,
      decide_eq_false_iff_not]
    omega

/-- Turning the clock does not turn day into night. -/
theorem inDay_shift_iff (t : TariffImpl) (dir : Dir) (lt : Tm) (k : ℤ) :
    (t.shift k).InDay dir (lt.shift k) ↔ t.InDay dir lt := by
  unfold InDay
  show Clock.InArc 1440 ((t.dirPrice dir).shift k).dayStart ((t.dirPrice dir).shift k).nightStart _ ↔ _
  rw [DirPriceData.dayStart_shift, DirPriceData.nightStart_shift, Tm.minuteOfDay_shift,
    Clock.inArc_emod_iff, Clock.inArc_add_iff]

/-- The price depends on the time only through day and night. -/
theorem getPriceWithoutFreeMb_eq_iff (t : TariffImpl) (dir : Dir) (mb : ℤ) (lt : Tm) (k : ℤ) :
    (t.shift k).getPriceWithoutFreeMb dir mb (lt.shift k) = t.getPriceWithoutFreeMb dir mb lt ↔
      (t.shift k).interval dir (lt.shift k) = t.interval dir lt ∨ SamePrice (t.dirPrice dir) mb := by
  have hsame : (t.shift k).dirPrice dir = (t.dirPrice dir).shift k := rfl
  unfold getPriceWithoutFreeMb SamePrice
  rw [hsame]
  dsimp only [DirPriceData.shift]
  by_cases hsp : (t.dirPrice dir).singlePrice = 0
  · by_cases hnd : (t.dirPrice dir).noDiscount = 0
    · by_cases htr : mb > (t.dirPrice dir).threshold
      · cases (t.shift k).interval dir (lt.shift k) <;> cases t.interval dir lt <;>
          simp [hsp, hnd, htr, eq_comm]
      · cases (t.shift k).interval dir (lt.shift k) <;> cases t.interval dir lt <;>
          simp [hsp, hnd, htr, eq_comm]
    · cases (t.shift k).interval dir (lt.shift k) <;> cases t.interval dir lt <;>
        simp [hsp, hnd, eq_comm]
  · simp [hsp]

/-- **When day and night meet as they should**: not at the minute at which the first of the two begins;
and the price does not change if the clock is not turned to such a minute either, or if it is the same by
day and by night. -/
theorem day_night_meet_iff (t : TariffImpl) (dir : Dir) (mb : ℤ) (lt : Tm) (k : ℤ)
    (h : Divided (t.dirPrice dir)) (hlt : 0 ≤ lt.minuteOfDay) (hlt' : lt.minuteOfDay < 1440) :
    t.Meets dir mb lt k ↔
      ¬ AtFirstStart (t.dirPrice dir) lt ∧
        (¬ AtFirstStart ((t.dirPrice dir).shift k) (lt.shift k) ∨ SamePrice (t.dirPrice dir) mb) := by
  have hday := interval_eq_false_iff h hlt hlt'
  have hshift : (t.shift k).interval dir (lt.shift k) = false ↔
      (t.InDay dir lt ↔ ¬ AtFirstStart ((t.dirPrice dir).shift k) (lt.shift k)) := by
    rw [← inDay_shift_iff t dir lt k]
    refine interval_eq_false_iff (h.shift k) ?_ ?_
    · rw [Tm.minuteOfDay_shift]
      omega
    · rw [Tm.minuteOfDay_shift]
      omega
  unfold Meets
  rw [getPriceWithoutFreeMb_eq_iff]
  have hright : (t.interval dir lt = false ↔ t.InDay dir lt) ↔ ¬ AtFirstStart (t.dirPrice dir) lt := by
    rw [hday]
    by_cases hin : t.InDay dir lt <;> simp [hin]
  rw [hright, and_congr_right_iff]
  intro hfirst
  have hequal : (t.shift k).interval dir (lt.shift k) = t.interval dir lt ↔
      ¬ AtFirstStart ((t.dirPrice dir).shift k) (lt.shift k) := by
    have hbool : ∀ a b : Bool, a = b ↔ (a = false ↔ b = false) := by decide
    rw [hbool, hshift, hday, iff_true_right hfirst]
    by_cases hin : t.InDay dir lt <;> simp [hin]
  rw [hequal]

/-- The day from eight to twenty o'clock, and a price for the day. -/
def sampleTariff : TariffImpl where
  tariffConf := { name := "t" }
  dirPrice := fun _ => { hDay := 8, hNight := 20, priceDayA := 1 }

/-- At noon everything is right, also if the clock is turned by half a day. -/
theorem day_night_meet_noon : sampleTariff.Meets 0 0 ⟨12, 0, 1, 0, 100⟩ 720 :=
  (day_night_meet_iff sampleTariff 0 0 ⟨12, 0, 1, 0, 100⟩ 720 ⟨by decide, by decide, by decide⟩
    (by decide) (by decide)).mpr ⟨by unfold AtFirstStart; decide, .inl (by unfold AtFirstStart; decide)⟩

/-- **At eight o'clock** it is still night. -/
theorem day_night_not_meet : ¬ sampleTariff.Meets 0 0 ⟨8, 0, 1, 0, 100⟩ 0 := by
  intro h
  exact absurd (h.1.mpr (by unfold InDay; decide)) (by decide)

end

end TariffImpl

end Stargazer
