import Stargazer.Users.NewDay
import Mathlib.Algebra.Order.GroupWithZero.Basic

set_option relaxedAutoImplicit false
set_option autoImplicit false

/-!
# The rules of the fees

Three rules the four functions of `user_impl.cpp` that charge a user share, or should share: when a
fee is charged at all (`FeeChargeType`), which part of it is left after a time the account was
frozen (`getPassiveTimePart`), and that the fees of a day do not depend on each other.

## Main definitions

* `Stargazer.FeeSite` — a place where a fee is charged.
* `Stargazer.secMonth`, `Stargazer.previousMonth` — the month `getPassiveTimePart` counts with, and
  the one of the calendar.
* `Stargazer.servicesCharge` — what `ProcessServices` charges.

## Main results

* `Stargazer.FeeSite.decides_iff` — where the rule of the setting decides.
* `Stargazer.partCorrect_iff` — when the part of the month is the right one.
* `Stargazer.servicesCharge_independent_iff` — when the services do not depend on the fee.
-/

namespace Stargazer

/-! ## The decision -/

/-- A place where a fee is charged: one of the three functions for the tariff, or an iteration of
the loop of `ProcessServices`. -/
inductive FeeSite
  /-- `ProcessDayFee`. -/
  | dayFee
  /-- `ProcessDayFeeSpread`. -/
  | dayFeeSpread
  /-- `ProcessDailyFee`. -/
  | dailyFee
  /-- `ProcessServices`, for one service of the user. -/
  | service (find : String → Option ServiceConf) (name : String)

namespace FeeSite

/-- What the code does there. -/
def perform (env : Env) (u : UserImpl) : FeeSite → Option UserImpl
  | .dayFee => some (u.processDayFee env)
  | .dayFeeSpread => u.processDayFeeSpread env
  | .dailyFee => some (u.processDailyFee env)
  | .service find name =>
    match u.servicesPart env with
    | none => some u
    | some part => u.processService env find part name

/-- The fee that is computed there is `f`. -/
def Computes (env : Env) (u : UserImpl) (f : Money) : FeeSite → Prop
  | .dayFee => u.dayFee env = some f
  | .dayFeeSpread => ∃ t days, u.tariff = some t ∧ t.tariffConf.period = .month ∧
      daysInCurrentMonth env = some days ∧ t.getFee / days = f
  | .dailyFee => ∃ t, u.tariff = some t ∧ t.tariffConf.period = .day ∧ t.getFee = f
  | .service find name => ∃ t part conf, u.tariff = some t ∧ u.servicesPart env = some part ∧
      find name = some conf ∧ conf.due env = some true ∧ conf.cost * part = f

/-- The rule of the setting decides there whether `f` is charged. -/
def Decides (env : Env) (u : UserImpl) (f : Money) (site : FeeSite) : Prop :=
  ∃ v, site.perform env u = some v ∧
    v.cash = if feeRule env.settings.feeChargeType u.credit u.cash f then u.cash - f else u.cash

/-- An iteration of the loop leaves alone what the part of the fee depends on. -/
theorem processService_part {env : Env} {find : String → Option ServiceConf} {part : Money}
    {u v : UserImpl} {name : String} (h : u.processService env find part name = some v) :
    v.servicesPart env = u.servicesPart env := by
  have hprepaid : ∀ w : UserImpl, w.setPrepaidTraff.servicesPart env = w.servicesPart env := by
    intro w
    unfold UserImpl.setPrepaidTraff
    split <;> rfl
  unfold UserImpl.processService at h
  split at h
  · obtain rfl := Option.some.inj h
    rfl
  · simp only [Option.bind_eq_bind, Option.bind_eq_some_iff] at h
    obtain ⟨due, -, h⟩ := h
    cases due with
    | false =>
      obtain rfl := Option.some.inj h
      rfl
    | true =>
      simp only [if_true, Option.bind_eq_some_iff] at h
      obtain ⟨t, -, h⟩ := h
      obtain rfl := Option.some.inj h
      split_ifs
      · exact hprepaid _
      · rfl

/-- The loop of `ProcessServices` goes through its places one after the other.

**Proof sketch.** Induction on the services: no iteration changes what the part of the fee depends
on (`processService_part`). -/
theorem processServices_eq (env : Env) (find : String → Option ServiceConf) (services : List String)
    (u : UserImpl) :
    u.processServices env find services =
      services.foldlM (fun v name => perform env v (.service find name)) u := by
  unfold UserImpl.processServices
  induction services generalizing u with
  | nil => cases u.servicesPart env <;> rfl
  | cons name services ih =>
    rw [List.foldlM_cons]
    have hi := ih u
    cases hpart : u.servicesPart env with
    | none =>
      have hp : perform env u (.service find name) = some u := by simp only [perform, hpart]
      rw [hpart] at hi
      rw [hp]
      exact hi
    | some part =>
      have hp : perform env u (.service find name) = u.processService env find part name := by
        simp only [perform, hpart]
      rw [hp]
      simp only [List.foldlM_cons]
      cases hv : u.processService env find part name with
      | none => rfl
      | some v =>
        have hiv := ih v
        rw [processService_part hv, hpart] at hiv
        exact hiv

/-- `ProcessDayFee` decides by the rule. -/
theorem decides_dayFee {env : Env} {u : UserImpl} {f : Money} (hf : 1 / 1000 ≤ f)
    (h : Computes env u f .dayFee) : Decides env u f .dayFee := by
  have hsmall : ¬|f| < 1 / 1000 := not_lt.mpr (hf.trans (le_abs_self f))
  have hdues : FeeCall.dues ⟨.dayFee, env, u⟩ = [f] := by
    simp only [Computes] at h
    simp only [FeeCall.dues, h, if_neg hsmall]
  refine ⟨_, rfl, ?_⟩
  rw [(FeeCall.processDayFee_eq env u).2, hdues, FeeCall.balance_singleton]

/-- `ProcessDayFeeSpread` decides by the rule. -/
theorem decides_dayFeeSpread {env : Env} {u : UserImpl} {f : Money} (hf : 1 / 1000 ≤ f)
    (hpassive : u.passive = 0) (h : Computes env u f .dayFeeSpread) :
    Decides env u f .dayFeeSpread := by
  have hsmall : ¬|f| < 1 / 1000 := not_lt.mpr (hf.trans (le_abs_self f))
  obtain ⟨t, days, ht, hperiod, hdays, rfl⟩ := h
  have hdues : FeeCall.dues ⟨.dayFeeSpread, env, u⟩ = [t.getFee / days] := by
    simp only [FeeCall.dues, ht, hdays, hpassive, hperiod, hsmall, ne_eq, not_true_eq_false,
      or_self, if_false]
  have hperform : ∃ v, u.processDayFeeSpread env = some v := by
    simp only [UserImpl.processDayFeeSpread, ht, hpassive, hperiod, hdays, hsmall, ne_eq,
      not_true_eq_false, if_false, Option.bind_eq_bind, Option.bind_some]
    exact ⟨_, rfl⟩
  obtain ⟨v, hv⟩ := hperform
  refine ⟨v, hv, ?_⟩
  rw [(FeeCall.processDayFeeSpread_eq hv).2, hdues, FeeCall.balance_singleton]

/-- The loop of `ProcessServices` decides by the rule. -/
theorem decides_service {env : Env} {u : UserImpl} {f : Money}
    {find : String → Option ServiceConf} {name : String}
    (h : Computes env u f (.service find name)) : Decides env u f (.service find name) := by
  obtain ⟨t, part, conf, ht, hpart, hfind, hdue, rfl⟩ := h
  have hdues : FeeCall.serviceDue env find part name = [conf.cost * part] := by
    simp only [FeeCall.serviceDue, hfind, hdue, if_true]
  have hperform : ∃ v, u.processService env find part name = some v := by
    simp only [UserImpl.processService, hfind, hdue, ht, Option.bind_eq_bind, Option.bind_some,
      if_true]
    exact ⟨_, rfl⟩
  obtain ⟨v, hv⟩ := hperform
  refine ⟨v, by simp only [perform, hpart, hv], ?_⟩
  rw [(FeeCall.processService_eq hv).2, hdues, FeeCall.balance_singleton]

/-- `ProcessDailyFee` decides by the rule, except for the type 3, which its `switch` does not
have. -/
theorem decides_dailyFee_iff {env : Env} {u : UserImpl} {f : Money} (hf : 1 / 1000 ≤ f)
    (htype : env.settings.feeChargeType ≤ 3) (hpassive : u.passive = 0)
    (h : Computes env u f .dailyFee) :
    Decides env u f .dailyFee ↔ ¬(env.settings.feeChargeType = 3 ∧ 0 ≤ u.cash) := by
  obtain ⟨t, ht, hperiod, rfl⟩ := h
  have hpos : 0 < t.getFee := lt_of_lt_of_le (by norm_num) hf
  have hcash : (u.processDailyFee env).cash = Ledger.balance
      (feeRule env.settings.feeChargeType u.credit) u.cash (FeeCall.dues ⟨.dailyFee, env, u⟩) :=
    (FeeCall.processDailyFee_eq env u).2
  have hdecides : Decides env u t.getFee .dailyFee ↔ (u.processDailyFee env).cash =
      if feeRule env.settings.feeChargeType u.credit u.cash t.getFee then u.cash - t.getFee
      else u.cash := by
    unfold Decides perform
    simp
  rw [hdecides, hcash]
  by_cases h3 : env.settings.feeChargeType = 3
  · have hdues : FeeCall.dues ⟨.dailyFee, env, u⟩ = [] := by
      simp only [FeeCall.dues, ht]
      rw [if_pos (Or.inr (Or.inr (Or.inr h3.ge)))]
    rw [hdues, h3]
    simp only [Ledger.balance, feeRule, ge_iff_le, decide_eq_true_eq, true_and]
    split_ifs with hc
    · simp only [hc, not_true_eq_false, iff_false]
      linarith
    · simp [hc]
  · have hlt : ¬3 ≤ env.settings.feeChargeType := by omega
    have hdues : FeeCall.dues ⟨.dailyFee, env, u⟩ = [t.getFee] := by
      simp only [FeeCall.dues, ht]
      rw [if_neg]
      rintro (hp | hp | hp | hp)
      · exact hp hpassive
      · exact hp hperiod
      · exact hpos.ne' hp
      · exact hlt hp
    rw [hdues, FeeCall.balance_singleton]
    simp [h3]

/-- **One rule for every fee.** Wherever a fee of at least a thousandth is computed for a user who
is not frozen, with any type the settings admit, the rule of the setting decides whether it is
charged, except in `ProcessDailyFee` with the type 3 and a balance that is not negative. -/
theorem decides_iff (site : FeeSite) (env : Env) (u : UserImpl) (f : Money) (hf : 1 / 1000 ≤ f)
    (htype : env.settings.feeChargeType ≤ 3) (hpassive : u.passive = 0)
    (h : site.Computes env u f) :
    site.Decides env u f ↔
      ¬(site = .dailyFee ∧ env.settings.feeChargeType = 3 ∧ 0 ≤ u.cash) := by
  cases site with
  | dayFee => simpa using decides_dayFee hf h
  | dayFeeSpread => simpa using decides_dayFeeSpread hf hpassive h
  | dailyFee => simpa using decides_dailyFee_iff hf htype hpassive h
  | service find name => simpa using decides_service h

end FeeSite

namespace Sample

/-- The sample settings with a type of charging, and without `FullFee`. -/
def feeEnv (type : ℕ) : Env :=
  { Sample.env 1000 with
    settings := { Sample.settings with feeChargeType := type, fullFee := false } }

/-- Five units a day. -/
def dailyTariff : TariffImpl where
  tariffConf := { name := "daily", fee := 5, period := .day }

/-- A user of that tariff, with ten units. -/
def dailyUser : UserImpl := { user "daily" with tariff := some dailyTariff, tariffName := "daily" }

end Sample

namespace FeeSite

/-- Five units a day are charged where the balance and the credit cover them. -/
theorem decides_iff_daily : Decides (Sample.feeEnv 2) Sample.dailyUser 5 .dailyFee :=
  (decides_iff .dailyFee (Sample.feeEnv 2) Sample.dailyUser 5 (by norm_num) (by decide) rfl
    ⟨Sample.dailyTariff, rfl, rfl, rfl⟩).mpr fun h => absurd h.2.1 (by decide)

/-- **The type 3**: a user with ten units pays no daily fee. -/
theorem daily_fee_not_charged :
    Computes (Sample.feeEnv 3) Sample.dailyUser 5 .dailyFee ∧ Sample.dailyUser.cash ≥ 0 ∧
      ¬Decides (Sample.feeEnv 3) Sample.dailyUser 5 .dailyFee := by
  refine ⟨⟨Sample.dailyTariff, rfl, rfl, rfl⟩, by decide +kernel, ?_⟩
  rintro ⟨v, hv, hcash⟩
  obtain rfl := Option.some.inj hv
  exact absurd hcash (by decide +kernel)

end FeeSite

/-! ## The part of the month -/

/-- The seconds `getPassiveTimePart` takes for the month before the one of a local time. -/
def secMonth (lt : Tm) : ℤ :=
  UserImpl.daysInMonth ((lt.mon + 11) % 12) * 24 * 3600 +
    if lt.year % 4 = 0 ∧ lt.mon = 1 then 24 * 3600 else 0

/-- The length of the month before the one of a local time, in days of the Gregorian calendar. -/
def previousMonth (lt : Tm) : ℕ :=
  if lt.mon = 0 then monthLength (lt.year - 1).toNat 11
  else monthLength lt.year.toNat (lt.mon - 1).toNat

/-- The part of a month of that many seconds that is left. -/
theorem getPassiveTimePart_eq (env : Env) (u : UserImpl) :
    u.getPassiveTimePart env =
      ((max 0 (secMonth (env.localtime env.stgTime) - u.passiveTime) : ℤ) : Money) /
        secMonth (env.localtime env.stgTime) := by
  unfold UserImpl.getPassiveTimePart secMonth
  simp only
  split_ifs with h1 h2 h2
  · rw [max_eq_left h2.le]
  · rw [max_eq_right (not_lt.mp h2)]
  · rw [add_zero, max_eq_left h2.le]
  · rw [add_zero, max_eq_right (not_lt.mp h2)]

/-- A month has seconds. -/
theorem secMonth_pos (lt : Tm) : 0 < secMonth lt := by
  have hdays : 0 < UserImpl.daysInMonth ((lt.mon + 11) % 12) := by
    have h0 : 0 ≤ (lt.mon + 11) % 12 := by omega
    have h12 : (lt.mon + 11) % 12 < 12 := by omega
    generalize (lt.mon + 11) % 12 = m at h0 h12
    interval_cases m <;> decide
  unfold secMonth
  split_ifs <;> omega

/-- **The month of `getPassiveTimePart`.** The seconds are right except in February of a year whose
number since 1900 is divisible by four, and in March of a leap year. -/
theorem secMonth_eq_iff {lt : Tm} (hyear : 70 ≤ lt.year) (hmon0 : 0 ≤ lt.mon) (hmon : lt.mon < 12) :
    secMonth lt = 86400 * previousMonth lt ↔
      (lt.mon = 1 → lt.year % 4 ≠ 0) ∧
      (lt.mon = 2 → ¬((1900 + lt.year) % 4 = 0 ∧
        ((1900 + lt.year) % 100 ≠ 0 ∨ (1900 + lt.year) % 400 = 0))) := by
  obtain ⟨hour, min, mday, mon, year⟩ := lt
  simp only at hyear hmon0 hmon ⊢
  obtain ⟨y, rfl⟩ := Int.eq_ofNat_of_zero_le (show 0 ≤ year by omega)
  unfold secMonth previousMonth monthLength UserImpl.daysInMonth
  interval_cases mon
  case «2» =>
    -- the month before is February, which the code takes for 28 days
    have hsec : ([31, 28, 31, 30, 31, 30, 31, 31, 30, 31, 30, 31].getD
        ((2 + 11) % 12 : ℤ).toNat 0 : ℤ) = 28 := rfl
    rw [hsec]
    simp only [Int.reduceSub, Int.reduceToNat, OfNat.ofNat_ne_zero, if_false, if_true,
      Int.toNat_natCast, OfNat.ofNat_ne_one, and_false, false_implies, true_implies, true_and,
      add_zero]
    split_ifs <;> omega
  all_goals simp

/-- What is expected of the part of the fee that is left after a time the account was frozen. -/
structure PartCorrect (env : Env) (u : UserImpl) : Prop where
  /-- The seconds of the month are those of the month before. -/
  month : secMonth (env.localtime env.stgTime) = 86400 * previousMonth (env.localtime env.stgTime)
  /-- It is not negative. -/
  nonneg : 0 ≤ u.getPassiveTimePart env
  /-- It is at most the whole fee. -/
  le_one : u.getPassiveTimePart env ≤ 1
  /-- It is the whole fee for an account that was not frozen. -/
  eq_one : u.passiveTime = 0 → u.getPassiveTimePart env = 1
  /-- It is nothing for an account that was frozen all the month. -/
  eq_zero : 86400 * previousMonth (env.localtime env.stgTime) ≤ u.passiveTime →
    u.getPassiveTimePart env = 0

/-- **The part of the fee.** At every local time from 1970 on and for every user: the month of
`getPassiveTimePart` is the month before, and the part of the fee is what it should be, if and only
if it is not February of a year whose number since 1900 is divisible by four, not March of a leap
year, and the frozen time is not negative.

**Proof sketch.** `secMonth_eq_iff` for the month.  With the right month the part is the rest of the
month over the month, which exceeds one exactly if the frozen time is negative. -/
theorem partCorrect_iff (env : Env) (u : UserImpl)
    (hyear : 70 ≤ (env.localtime env.stgTime).year) (hmon0 : 0 ≤ (env.localtime env.stgTime).mon)
    (hmon : (env.localtime env.stgTime).mon < 12) :
    PartCorrect env u ↔
      ((env.localtime env.stgTime).mon = 1 → (env.localtime env.stgTime).year % 4 ≠ 0) ∧
      ((env.localtime env.stgTime).mon = 2 →
        ¬((1900 + (env.localtime env.stgTime).year) % 4 = 0 ∧
          ((1900 + (env.localtime env.stgTime).year) % 100 ≠ 0 ∨
            (1900 + (env.localtime env.stgTime).year) % 400 = 0))) ∧
      0 ≤ u.passiveTime := by
  rw [← and_assoc, ← secMonth_eq_iff hyear hmon0 hmon]
  have hpos := secMonth_pos (env.localtime env.stgTime)
  have heq := getPassiveTimePart_eq env u
  generalize hs : secMonth (env.localtime env.stgTime) = sec at hpos heq
  have hposM : (0 : Money) < sec := by exact_mod_cast hpos
  constructor
  · intro h
    refine ⟨hs ▸ h.month, ?_⟩
    have hle := h.le_one
    rw [heq, div_le_one₀ hposM] at hle
    have hint : max 0 (sec - u.passiveTime) ≤ sec := by exact_mod_cast hle
    have := le_max_right 0 (sec - u.passiveTime)
    linarith
  · rintro ⟨hmonth, hpt⟩
    have hle : max 0 (sec - u.passiveTime) ≤ sec := max_le hpos.le (by linarith)
    refine ⟨hs.trans hmonth, ?_, ?_, ?_, ?_⟩
    · rw [heq]
      exact div_nonneg (by exact_mod_cast le_max_left _ _) hposM.le
    · rw [heq, div_le_one₀ hposM]
      exact_mod_cast hle
    · intro hzero
      rw [heq, hzero, sub_zero, max_eq_right hpos.le, div_self hposM.ne']
    · intro hall
      rw [← hmonth] at hall
      rw [heq, max_eq_left (by linarith)]
      simp

/-- June 2024, after a month of 31 days of which ten were frozen. -/
theorem partCorrect_june :
    PartCorrect { Sample.env 0 with localtime := fun _ => ⟨0, 0, 1, 5, 124⟩ }
      { Sample.user "june" with passiveTime := 864000 } :=
  (partCorrect_iff _ _ (by decide) (by decide) (by decide)).mpr ⟨by decide, by decide, by decide⟩

/-- **March 2024**: the month before had 29 days, the code counts with 28. -/
theorem leap_february_too_short :
    ¬PartCorrect { Sample.env 0 with localtime := fun _ => ⟨0, 0, 1, 2, 124⟩ }
      { Sample.user "march" with passiveTime := 0 } := by
  intro h
  exact absurd h.month (by decide)

/-! ## The fees of a day -/

section Services

variable {env : Env} {find : String → Option ServiceConf} {services : List String}

/-- What `ProcessServices` charges. -/
def servicesCharge (env : Env) (find : String → Option ServiceConf) (services : List String)
    (u : UserImpl) : Option Money :=
  (u.processServices env find services).map fun v => u.cash - v.cash

/-- The costs of the services that are paid today, in full. -/
def servicesDue (env : Env) (find : String → Option ServiceConf) (services : List String) : Money :=
  (services.flatMap (FeeCall.serviceDue env find 1)).sum

/-- Does one of the two functions for the fee of the tariff reset the frozen time? -/
def FeeApplies (u : UserImpl) : Prop :=
  ∃ t, u.tariff = some t ∧
    (t.tariffConf.period = .month ∨
      (t.tariffConf.period = .day ∧ u.passive = 0 ∧ t.getFee ≠ 0))

/-- The month of the clock exists. -/
def ValidMonth (env : Env) : Prop :=
  0 ≤ (env.localtime env.time).mon ∧ (env.localtime env.time).mon < 12

/-- A part of the costs. -/
theorem serviceDue_sum (part : Money) (name : String) :
    (FeeCall.serviceDue env find part name).sum =
      (FeeCall.serviceDue env find 1 name).sum * part := by
  unfold FeeCall.serviceDue
  split
  · simp
  · split_ifs <;> simp

/-- Whether a service is paid today can be told in every month. -/
theorem ServiceConf.due_isSome (hmon : ValidMonth env) (conf : ServiceConf) :
    ∃ b, conf.due env = some b := by
  unfold due daysInCurrentMonth
  obtain ⟨h0, h12⟩ := hmon
  have hdays : ∃ d, daysInMonth (env.localtime env.time).year.toNat
      (env.localtime env.time).mon.toNat = some d := by
    exact ⟨_, daysInMonth_eq_serverLength (by omega)⟩
  obtain ⟨d, hd⟩ := hdays
  simp only [hd, Option.bind_eq_bind, Option.bind_some]
  split_ifs
  · exact ⟨_, rfl⟩
  · exact ⟨_, rfl⟩
  · exact ⟨_, rfl⟩

/-- The loop over the services of a user with a tariff comes to its end. -/
theorem processServices_loop_isSome (hmon : ValidMonth env)
    (find : String → Option ServiceConf) (part : Money) (services : List String) {u : UserImpl}
    (ht : u.tariff ≠ none) :
    ∃ v, services.foldlM (UserImpl.processService env find part) u = some v := by
  induction services generalizing u with
  | nil => exact ⟨u, rfl⟩
  | cons name services ih =>
    obtain ⟨t, ht'⟩ := Option.ne_none_iff_exists'.mp ht
    have hone : ∃ v, u.processService env find part name = some v ∧ v.tariff ≠ none := by
      unfold UserImpl.processService
      cases hf : find name with
      | none => exact ⟨u, rfl, ht⟩
      | some conf =>
        obtain ⟨b, hb⟩ := conf.due_isSome hmon
        simp only [hb, Option.bind_eq_bind, Option.bind_some, ht']
        cases b with
        | false => exact ⟨u, rfl, ht⟩
        | true =>
          refine ⟨_, rfl, ?_⟩
          split_ifs
          · simp [UserImpl.setPrepaidTraff, UserImpl.setCash, ht']
          · exact ht
    obtain ⟨v, hv, hvt⟩ := hone
    obtain ⟨w, hw⟩ := ih hvt
    exact ⟨w, by rw [List.foldlM_cons, hv]; exact hw⟩

/-- **What `ProcessServices` charges** a user with a tariff, with the type 0 and without `FullFee`:
the part of the costs that is left. -/
theorem servicesCharge_eq (htype : env.settings.feeChargeType = 0)
    (hfull : env.settings.fullFee = false) (hmon : ValidMonth env) {u : UserImpl}
    (ht : u.tariff ≠ none) :
    servicesCharge env find services u =
      some (servicesDue env find services * u.getPassiveTimePart env) := by
  have hpart : u.servicesPart env = some (u.getPassiveTimePart env) := by
    simp [UserImpl.servicesPart, hfull]
  obtain ⟨v, hv⟩ :=
    processServices_loop_isSome hmon find (u.getPassiveTimePart env) services ht
  have hrule : feeRule env.settings.feeChargeType u.credit = fun _ _ => true := by
    rw [htype]
    rfl
  have hcash := (FeeCall.processServices_loop_eq services hv).2
  rw [hrule, Ledger.balance_of_true] at hcash
  have hsum : (services.flatMap (FeeCall.serviceDue env find (u.getPassiveTimePart env))).sum =
      servicesDue env find services * u.getPassiveTimePart env := by
    unfold servicesDue
    clear hv hcash
    induction services with
    | nil => simp
    | cons name services ih =>
      rw [List.flatMap_cons, List.flatMap_cons, List.sum_append, List.sum_append, ih,
        serviceDue_sum, add_mul]
  have hperform : u.processServices env find services = some v := by
    simp only [UserImpl.processServices, hpart, hv]
  rw [servicesCharge, hperform, Option.map_some, hcash, hsum, sub_sub_cancel]

/-- `ProcessDayFee` without `FullFee` resets the frozen time of a user whose tariff is paid by the
month, and leaves alone what else matters here. -/
theorem processDayFee_frame (hfull : env.settings.fullFee = false) (u : UserImpl) :
    (u.processDayFee env).tariff = u.tariff ∧ (u.processDayFee env).passive = u.passive ∧
    ((∃ t, u.tariff = some t ∧ t.tariffConf.period = .month) →
      (u.processDayFee env).passiveTime = 0) ∧
    ((¬∃ t, u.tariff = some t ∧ t.tariffConf.period = .month) → u.processDayFee env = u) := by
  unfold UserImpl.processDayFee UserImpl.dayFee
  cases ht : u.tariff with
  | none => simp [ht]
  | some t =>
    by_cases hp : t.tariffConf.period = .month
    · simp only [hp, hfull, ne_eq, not_true_eq_false, if_false, Bool.false_eq_true,
        Option.some.injEq, exists_eq_left']
      split_ifs <;>
        simp [UserImpl.setPrepaidTraff, UserImpl.resetPassiveTime, UserImpl.setCash, ht]
    · simp [ht, hp]

/-- `ProcessDailyFee` resets the frozen time of a user who is not frozen and whose tariff is paid by
the day, if there is something to pay. -/
theorem processDailyFee_frame (env : Env) (u : UserImpl) :
    (u.processDailyFee env).tariff = u.tariff ∧ (u.processDailyFee env).passive = u.passive ∧
    ((∃ t, u.tariff = some t ∧ t.tariffConf.period = .day ∧ u.passive = 0 ∧ t.getFee ≠ 0) →
      (u.processDailyFee env).passiveTime = 0) ∧
    ((¬∃ t, u.tariff = some t ∧ t.tariffConf.period = .day ∧ u.passive = 0 ∧ t.getFee ≠ 0) →
      u.processDailyFee env = u) := by
  unfold UserImpl.processDailyFee
  cases ht : u.tariff with
  | none => simp [ht]
  | some t =>
    by_cases hp : u.passive = 0
    · by_cases hday : t.tariffConf.period = .day
      · by_cases hfee : t.getFee = 0
        · simp [ht, hp, hday, hfee]
        · simp only [hp, hday, hfee, ne_eq, not_true_eq_false, if_false]
          split_ifs <;> simp [UserImpl.resetPassiveTime, UserImpl.setCash, ht, hp, hday, hfee]
      · simp [ht, hp, hday]
    · simp [ht, hp]

/-- The two functions for the fee of the tariff. -/
def feeOps : List DayOp := [.processDayFee, .processDailyFee]

/-- One of the two functions: the frozen time stays or is reset, and only for a user to whom the fee
applies. -/
theorem feeOp_frame (find : String → Option ServiceConf) (services : List String)
    (hfull : env.settings.fullFee = false) {op : DayOp} (hop : op ∈ feeOps)
    (u : UserImpl) :
    ∃ v, op.perform env find services u = some v ∧ v.tariff = u.tariff ∧
      (v.passiveTime = u.passiveTime ∨ v.passiveTime = 0) ∧ (¬FeeApplies u → v = u) := by
  rcases List.mem_cons.mp hop with rfl | hop
  · obtain ⟨ht, -, hreset, hkeep⟩ := processDayFee_frame hfull u
    refine ⟨_, rfl, ht, ?_, fun hno => hkeep fun ⟨t, h1, h2⟩ => hno ⟨t, h1, .inl h2⟩⟩
    by_cases happ : ∃ t, u.tariff = some t ∧ t.tariffConf.period = .month
    · exact .inr (hreset happ)
    · exact .inl (by rw [hkeep happ])
  · obtain rfl := List.mem_singleton.mp hop
    obtain ⟨ht, -, hreset, hkeep⟩ := processDailyFee_frame env u
    refine ⟨_, rfl, ht, ?_, fun hno => hkeep fun ⟨t, h1, h2⟩ => hno ⟨t, h1, .inr h2⟩⟩
    by_cases happ : ∃ t, u.tariff = some t ∧ t.tariffConf.period = .day ∧ u.passive = 0 ∧
        t.getFee ≠ 0
    · exact .inr (hreset happ)
    · exact .inl (by rw [hkeep happ])

/-- Some of the two functions, one after the other. -/
theorem feeOps_frame (find : String → Option ServiceConf) (services : List String)
    (hfull : env.settings.fullFee = false) {ops : List DayOp}
    (hops : ∀ op ∈ ops, op ∈ feeOps) (u : UserImpl) :
    ∃ v, ops.foldlM (DayOp.perform env find services) u = some v ∧ v.tariff = u.tariff ∧
      (v.passiveTime = u.passiveTime ∨ v.passiveTime = 0) ∧ (¬FeeApplies u → v = u) := by
  induction ops generalizing u with
  | nil => exact ⟨u, rfl, rfl, .inl rfl, fun _ => rfl⟩
  | cons op ops ih =>
    obtain ⟨v, hv, ht, hpt, hkeep⟩ :=
      feeOp_frame find services hfull (hops op List.mem_cons_self) u
    obtain ⟨w, hw, ht', hpt', hkeep'⟩ := ih (fun op' h => hops op' (List.mem_cons_of_mem _ h)) v
    refine ⟨w, by rw [List.foldlM_cons, hv]; exact hw, ht'.trans ht, ?_, fun hno => ?_⟩
    · rcases hpt' with h | h
      · rwa [h]
      · exact .inr h
    · have hvu := hkeep hno
      subst hvu
      exact hkeep' hno

/-- Both functions reset the frozen time of a user to whom the fee applies. -/
theorem feeOps_passiveTime (find : String → Option ServiceConf) (services : List String)
    (hfull : env.settings.fullFee = false) {u : UserImpl}
    (h : FeeApplies u) :
    ∃ v, feeOps.foldlM (DayOp.perform env find services) u = some v ∧ v.tariff = u.tariff ∧
      v.passiveTime = 0 := by
  obtain ⟨t, ht, hp⟩ := h
  obtain ⟨ht1, hpas1, hreset1, hkeep1⟩ := processDayFee_frame hfull u
  obtain ⟨ht2, -, hreset2, hkeep2⟩ := processDailyFee_frame env (u.processDayFee env)
  refine ⟨_, rfl, ht2.trans ht1, ?_⟩
  rcases hp with hmonth | hday
  · have hnot : ¬∃ t, (u.processDayFee env).tariff = some t ∧ t.tariffConf.period = .day ∧
        (u.processDayFee env).passive = 0 ∧ t.getFee ≠ 0 := by
      rintro ⟨t', ht', hday, -⟩
      rw [ht1, ht] at ht'
      obtain rfl := Option.some.inj ht'
      rw [hmonth] at hday
      exact absurd hday (by decide)
    rw [hkeep2 hnot]
    exact hreset1 ⟨t, ht, hmonth⟩
  · exact hreset2 ⟨t, ht1.trans ht, hday.1, hpas1.trans hday.2.1, hday.2.2⟩

/-- Only an account that was not frozen pays the whole fee. -/
theorem getPassiveTimePart_eq_one_iff (env : Env) (u : UserImpl) :
    u.getPassiveTimePart env = 1 ↔ u.passiveTime = 0 := by
  have hpos := secMonth_pos (env.localtime env.stgTime)
  have hne : (secMonth (env.localtime env.stgTime) : Money) ≠ 0 := by exact_mod_cast hpos.ne'
  rw [getPassiveTimePart_eq, div_eq_one_iff_eq hne, Int.cast_inj]
  constructor
  · intro h
    rcases le_total 0 (secMonth (env.localtime env.stgTime) - u.passiveTime) with hle | hle
    · rw [max_eq_right hle] at h
      exact sub_eq_self.mp h
    · rw [max_eq_left hle] at h
      exact absurd h hpos.ne
  · intro h
    rw [h, sub_zero, max_eq_right hpos.le]

/-- **The services and the fee of the tariff.** On every day and for every user, with the type 0 and
without `FullFee`: whichever of `ProcessDayFee` and `ProcessDailyFee` ran before, `ProcessServices`
charges the same, if and only if neither of them applies to the user, the account was not frozen, or
the services due cost nothing in total.

**Proof sketch.** The charge is the part of the month times the costs (`servicesCharge_eq`).  The
two functions keep the frozen time or reset it, and together they reset it if one of them applies,
so that the part becomes one. -/
theorem servicesCharge_independent_iff (env : Env) (find : String → Option ServiceConf)
    (services : List String) (u : UserImpl) (htype : env.settings.feeChargeType = 0)
    (hfull : env.settings.fullFee = false) (hmon : ValidMonth env) :
    (∀ ops : List DayOp, ops.Sublist [.processDayFee, .processDailyFee] →
      (ops.foldlM (DayOp.perform env find services) u).bind (servicesCharge env find services) =
        servicesCharge env find services u) ↔
      ¬FeeApplies u ∨ u.passiveTime = 0 ∨ servicesDue env find services = 0 := by
  constructor
  · intro h
    by_cases happ : FeeApplies u
    · obtain ⟨v, hv, ht, hpt⟩ := feeOps_passiveTime find services hfull happ
      have hsome : u.tariff ≠ none := by
        obtain ⟨t, ht, -⟩ := happ
        simp [ht]
      have heq := h feeOps (List.Sublist.refl _)
      rw [hv, Option.bind_some, servicesCharge_eq htype hfull hmon (by rwa [ht]),
        servicesCharge_eq htype hfull hmon hsome, Option.some.injEq,
        (getPassiveTimePart_eq_one_iff env v).mpr hpt] at heq
      rcases mul_eq_mul_left_iff.mp heq with h1 | h0
      · exact .inr (.inl ((getPassiveTimePart_eq_one_iff env u).mp h1.symm))
      · exact .inr (.inr h0)
    · exact .inl happ
  · intro h ops hsub
    obtain ⟨v, hv, ht, hpt, hkeep⟩ :=
      feeOps_frame find services hfull
        (fun op hop => hsub.subset hop) u
    rw [hv, Option.bind_some]
    by_cases happ : FeeApplies u
    · have hsome : u.tariff ≠ none := by
        obtain ⟨t, ht, -⟩ := happ
        simp [ht]
      rw [servicesCharge_eq htype hfull hmon (by rwa [ht]),
        servicesCharge_eq htype hfull hmon hsome]
      rcases h with h | h | h
      · exact absurd happ h
      · have hv0 : v.passiveTime = 0 := by
          rcases hpt with hpt | hpt
          · rwa [hpt]
          · exact hpt
        rw [(getPassiveTimePart_eq_one_iff env v).mpr hv0,
          (getPassiveTimePart_eq_one_iff env u).mpr h]
      · rw [h, zero_mul, zero_mul]
    · rw [hkeep happ]

end Services

namespace Sample

/-- A service for ten units on the first of the month. -/
def oneService : String → Option ServiceConf := fun name =>
  if name = "tv" then some ⟨"tv", 10, 1⟩ else none

end Sample

/-- A user who was not frozen pays ten units for the service, whatever the fee of the tariff
does. -/
theorem servicesCharge_independent_active :
    (Sample.feeEnv 0).settings.feeChargeType = 0 ∧ (Sample.feeEnv 0).settings.fullFee = false ∧
    ValidMonth (Sample.feeEnv 0) ∧
    ∀ ops : List DayOp, ops.Sublist [.processDayFee, .processDailyFee] →
      (ops.foldlM (DayOp.perform (Sample.feeEnv 0) Sample.oneService ["tv"])
        (Sample.user "active")).bind (servicesCharge (Sample.feeEnv 0) Sample.oneService ["tv"]) =
        servicesCharge (Sample.feeEnv 0) Sample.oneService ["tv"] (Sample.user "active") :=
  have hmonth : ValidMonth (Sample.feeEnv 0) := ⟨by decide, by decide⟩
  ⟨rfl, rfl, hmonth, (servicesCharge_independent_iff (Sample.feeEnv 0) Sample.oneService ["tv"]
    (Sample.user "active") rfl rfl hmonth).mpr (.inr (.inl rfl))⟩

/-- **A user who was frozen for all of the month before** owes nothing for the service, but pays it
in full after `ProcessDayFee`. -/
theorem frozen_user_pays_service :
    let u := { Sample.user "frozen" with passiveTime := 2678400 }
    let charge := servicesCharge (Sample.feeEnv 0) Sample.oneService ["tv"]
    let after := [DayOp.processDayFee].foldlM
      (DayOp.perform (Sample.feeEnv 0) Sample.oneService ["tv"]) u
    charge u = some 0 ∧ after.bind charge = some 10 ∧ after.bind charge ≠ charge u := by
  decide +kernel

end Stargazer
