import Stargazer.Users.Fees
import Mathlib.Tactic.IntervalCases

set_option relaxedAutoImplicit false
set_option autoImplicit false

/-!
# The days of a month

`UsersImpl::NewDay` and `UsersImpl::DayResetTraff` of `users_impl.cpp`: once a day the users are
charged, and on one day of the month their counters are reset.  The two days are settings; zero
stands for the last day of the month, which is asked of `DaysInCurrentMonth`.

A month is a list of calls of `NewDay`, one for each of its days.  The length of a month is that of
the Gregorian calendar, which the server does not always know: `DaysInMonth` is given the years
since 1900 and applies the rule of the leap years to that number.

## Main definitions

* `Stargazer.DaySettings` — the settings, within the range the parser admits.
* `Stargazer.newDay` — the loops over the users that `NewDay` runs.
* `Stargazer.monthLength` — the Gregorian calendar.
* `Stargazer.Month` — the calls of a month.

## Main results

* `Stargazer.serverLength_le_iff` — where the server's month is not too long.
* `Stargazer.billed_once_iff` — the months in which every user is billed once.
-/

namespace Stargazer

/-- The settings `NewDay` reads; `ReadSettings` admits days up to 31. -/
structure DaySettings where
  /-- `GetDayFee`. -/
  dayFee : ℕ
  /-- `GetDayResetTraff`. -/
  dayResetTraff : ℕ
  /-- `GetDayFeeIsLastDay`. -/
  dayFeeIsLastDay : Bool
  /-- `GetSpreadFee`. -/
  spreadFee : Bool
  /-- The range of `DayFee`. -/
  dayFee_le : dayFee ≤ 31
  /-- The range of `DayResetTraff`. -/
  dayResetTraff_le : dayResetTraff ≤ 31

/-- The functions `NewDay` runs on all users. -/
inductive DayOp
  /-- `ProcessDayFeeSpread`. -/
  | processDayFeeSpread
  /-- `ProcessDayFee`. -/
  | processDayFee
  /-- `ProcessDailyFee`. -/
  | processDailyFee
  /-- `ProcessServices`. -/
  | processServices
  /-- `ProcessNewMonth`. -/
  | processNewMonth
  deriving DecidableEq

/-- What one of the functions does to a user.  `find` is the registry of services, `services` those
of the user. -/
def DayOp.perform (env : Env) (find : String → Option ServiceConf) (services : List String)
    (u : UserImpl) : DayOp → Option UserImpl
  | .processDayFeeSpread => u.processDayFeeSpread env
  | .processDayFee => some (u.processDayFee env)
  | .processDailyFee => some (u.processDailyFee env)
  | .processServices => u.processServices env find services
  | .processNewMonth => u.processNewMonth env

/-- A day of the month, where zero stands for the last one. -/
def dayOrLast (env : Env) (day : ℕ) : Option ℤ :=
  if day = 0 then daysInCurrentMonth env else some day

/-- `UsersImpl::DayResetTraff`: the loops over the users it runs. -/
def dayResetTraff (cfg : DaySettings) (env : Env) (t1 : Tm) : Option (List DayOp) := do
  let day ← dayOrLast env cfg.dayResetTraff
  return if t1.mday = day then [.processNewMonth] else []

/-- `UsersImpl::NewDay`: the loops over the users it runs. -/
def newDay (cfg : DaySettings) (env : Env) (t : Tm) : Option (List DayOp) := do
  let t1 := env.localtime env.stgTime
  let dayFee ← dayOrLast env cfg.dayFee
  let before ← if cfg.dayFeeIsLastDay then some [] else dayResetTraff cfg env t1
  let fee := if cfg.spreadFee then [.processDayFeeSpread]
    else if t.mday = dayFee then [.processDayFee] else []
  let after ← if cfg.dayFeeIsLastDay then dayResetTraff cfg env t1 else some []
  return before ++ fee ++ [.processDailyFee, .processServices] ++ after

/-- A call of `NewDay`: the environment, the broken-down time it is given, and the users there
are. -/
structure DayCall where
  /-- The environment. -/
  env : Env
  /-- The parameter `t`. -/
  t : Tm
  /-- The users. -/
  users : List UserId
  /-- No user occurs twice. -/
  nodup : users.Nodup

/-- The calls of functions of users made by a call of `NewDay`, in order. -/
def DayCall.userCalls (cfg : DaySettings) (c : DayCall) : Option (List (DayOp × UserId)) := do
  let ops ← newDay cfg c.env c.t
  return ops.flatMap fun op => c.users.map fun id => (op, id)

/-- The users after a call of `NewDay`. -/
def DayCall.perform (cfg : DaySettings) (find : String → Option ServiceConf)
    (services : UserId → List String) (c : DayCall) (users : UserId → UserImpl) :
    Option (UserId → UserImpl) := do
  let calls ← c.userCalls cfg
  calls.foldlM (fun us call => do
    let u ← call.1.perform c.env find (services call.2) (us call.2)
    return Function.update us call.2 u) users

/-- The calls of functions of users made by several calls of `NewDay`. -/
def userCalls (cfg : DaySettings) (calls : List DayCall) : Option (List (DayOp × UserId)) := do
  let l ← calls.mapM (DayCall.userCalls cfg)
  return l.flatten

/-! ## The calendar -/

/-- The length of a month of the Gregorian calendar; years are counted from 1900 and months from
zero. -/
def monthLength (year mon : ℕ) : ℕ :=
  if mon = 1 then
    if (1900 + year) % 4 = 0 ∧ ((1900 + year) % 100 ≠ 0 ∨ (1900 + year) % 400 = 0) then 29 else 28
  else if mon = 3 ∨ mon = 5 ∨ mon = 8 ∨ mon = 10 then 30
  else 31

/-- What the server takes for the length of a month. -/
def serverLength (year mon : ℕ) : ℕ :=
  if mon = 1 then if year % 4 = 0 ∧ (year % 100 ≠ 0 ∨ year % 400 = 0) then 29 else 28
  else monthLength year mon

theorem daysInMonth_eq_serverLength {year mon : ℕ} (h : mon < 12) :
    daysInMonth year mon = some (serverLength year mon : ℤ) := by
  by_cases hmon : mon = 1
  · subst hmon
    simp only [daysInMonth, serverLength, if_true]
    split_ifs <;> rfl
  · unfold serverLength monthLength
    rw [if_neg hmon, if_neg hmon]
    interval_cases mon
    · rfl
    · exact absurd rfl hmon
    all_goals rfl

/-- The server's month is too long only in February, and only in one year of 400. -/
theorem serverLength_le_iff (year mon : ℕ) :
    serverLength year mon ≤ monthLength year mon ↔ ¬(mon = 1 ∧ year % 400 = 0) := by
  unfold serverLength monthLength
  by_cases hmon : mon = 1
  · simp only [hmon, if_true, true_and]
    split_ifs <;> omega
  · simp [hmon]

/-! ## A month -/

/-- A call of `NewDay` on a day of a month. -/
structure OnDay (year mon : ℕ) (day : ℕ) (c : DayCall) : Prop where
  t : c.t.mday = day
  stgTime : (c.env.localtime c.env.stgTime).mday = day
  year : (c.env.localtime c.env.time).year = year
  mon : (c.env.localtime c.env.time).mon = mon

/-- The calls of a month: one for each of its days. -/
def Month (year mon : ℕ) (calls : List DayCall) : Prop :=
  ∃ days : List ℕ, days.Perm (List.range' 1 (monthLength year mon)) ∧
    List.Forall₂ (OnDay year mon) days calls

/-- The day a setting stands for. -/
def settingDay (year mon day : ℕ) : ℕ := if day = 0 then serverLength year mon else day

/-- The day a setting stands for is a day of the month. -/
def HasDay (year mon day : ℕ) : Prop :=
  if day = 0 then ¬(mon = 1 ∧ year % 400 = 0) else day ≤ monthLength year mon

theorem settingDay_mem_iff (year mon day : ℕ) :
    settingDay year mon day ∈ List.range' 1 (monthLength year mon) ↔ HasDay year mon day := by
  have hpos : 1 ≤ serverLength year mon := by
    unfold serverLength monthLength
    split_ifs <;> omega
  rw [List.mem_range'_1, settingDay, HasDay]
  split_ifs with h
  · rw [← serverLength_le_iff]
    omega
  · omega

/-- The day a setting stands for, in a call on a day of the month. -/
theorem OnDay.dayOrLast_eq {year mon d : ℕ} {c : DayCall} (h : OnDay year mon d c)
    (hmon : mon < 12) (day : ℕ) :
    dayOrLast c.env day = some (settingDay year mon day : ℤ) := by
  unfold dayOrLast settingDay
  split_ifs
  · rw [daysInCurrentMonth, h.year, h.mon, Int.toNat_natCast, Int.toNat_natCast]
    exact daysInMonth_eq_serverLength hmon
  · rfl

/-- **What `NewDay` runs on a day**: the fee on the one day, the reset on the other. -/
theorem OnDay.newDay_count {cfg : DaySettings} (hspread : cfg.spreadFee = false) {year mon d : ℕ}
    {c : DayCall} (h : OnDay year mon d c) (hmon : mon < 12) :
    ∃ ops, newDay cfg c.env c.t = some ops ∧
      ops.count .processDayFee = (if d = settingDay year mon cfg.dayFee then 1 else 0) ∧
      ops.count .processNewMonth = (if d = settingDay year mon cfg.dayResetTraff then 1 else 0) := by
  have hreset : dayResetTraff cfg c.env (c.env.localtime c.env.stgTime) =
      some (if d = settingDay year mon cfg.dayResetTraff then [.processNewMonth] else []) := by
    simp only [dayResetTraff, h.dayOrLast_eq hmon, h.stgTime, Option.bind_eq_bind,
      Option.bind_some, Nat.cast_inj]
    rfl
  simp only [newDay, h.dayOrLast_eq hmon, hreset, h.t, hspread, Option.bind_eq_bind,
    Option.bind_some, Nat.cast_inj, Bool.false_eq_true, if_false]
  cases cfg.dayFeeIsLastDay with
  | false =>
    refine ⟨_, rfl, ?_, ?_⟩
    all_goals split_ifs <;> simp
  | true =>
    refine ⟨_, rfl, ?_, ?_⟩
    all_goals split_ifs <;> simp

/-- Each loop runs its function once on each user. -/
theorem count_flatMap_users (ops : List DayOp) (op : DayOp) {users : List UserId}
    (hnodup : users.Nodup) {id : UserId} (hid : id ∈ users) :
    (ops.flatMap fun op => users.map fun id => (op, id)).count (op, id) = ops.count op := by
  induction ops with
  | nil => rfl
  | cons o ops ih =>
    rw [List.flatMap_cons, List.count_append, ih, List.count_cons]
    have hone : (users.map fun id => (o, id)).count (op, id) = if o == op then 1 else 0 := by
      by_cases ho : o = op
      · subst ho
        rw [List.count_map_of_injective users (fun id => (o, id))
          (fun a b hab => (Prod.mk.inj hab).2) id, List.count_eq_one_of_mem hnodup hid]
        simp
      · rw [List.count_eq_zero_of_not_mem]
        · simp [ho]
        · simp [ho]
    rw [hone, Nat.add_comm]

/-- The calls of a list of days.

**Proof sketch.** Induction on the days; `OnDay.newDay_count` is one of them. -/
theorem userCalls_count {cfg : DaySettings} (hspread : cfg.spreadFee = false) {year mon : ℕ}
    (hmon : mon < 12) {days : List ℕ} {calls : List DayCall}
    (h : List.Forall₂ (OnDay year mon) days calls) :
    ∃ l, userCalls cfg calls = some l ∧ ∀ id, (∀ c ∈ calls, id ∈ c.users) →
      l.count (.processDayFee, id) = days.count (settingDay year mon cfg.dayFee) ∧
      l.count (.processNewMonth, id) = days.count (settingDay year mon cfg.dayResetTraff) := by
  induction h with
  | nil => exact ⟨[], rfl, fun _ _ => ⟨rfl, rfl⟩⟩
  | @cons d c days calls hd hrest ih =>
    obtain ⟨l, hl, hcount⟩ := ih
    obtain ⟨ops, hops, hfee, hreset⟩ := hd.newDay_count hspread hmon
    obtain ⟨ls, hls, rfl⟩ : ∃ ls, calls.mapM (DayCall.userCalls cfg) = some ls ∧ ls.flatten = l := by
      simpa [userCalls, Option.bind_eq_some_iff] using hl
    refine ⟨(ops.flatMap fun op => c.users.map fun id => (op, id)) ++ ls.flatten, ?_, ?_⟩
    · simp [userCalls, List.mapM_cons, DayCall.userCalls, hops, hls]
    · intro id hid
      have hmem : id ∈ c.users := hid c List.mem_cons_self
      obtain ⟨hfee', hreset'⟩ := hcount id fun c' hc' => hid c' (List.mem_cons_of_mem c hc')
      refine ⟨?_, ?_⟩
      · rw [List.count_append, count_flatMap_users ops _ c.nodup hmem, hfee, hfee', List.count_cons,
          Nat.add_comm]
        simp
      · rw [List.count_append, count_flatMap_users ops _ c.nodup hmem, hreset, hreset',
          List.count_cons, Nat.add_comm]
        simp

/-- In a month a day occurs once, if it is one of its days. -/
theorem count_eq_one_iff {year mon : ℕ} {days : List ℕ}
    (h : days.Perm (List.range' 1 (monthLength year mon))) (day : ℕ) :
    days.count (settingDay year mon day) = 1 ↔ HasDay year mon day := by
  rw [h.count_eq, ← settingDay_mem_iff]
  constructor
  · exact fun hone => List.count_pos_iff.1 (by omega)
  · exact fun hmem => List.count_eq_one_of_mem List.nodup_range' hmem

/-- How often a user is billed in a month. -/
theorem Month.count_iff {cfg : DaySettings} (hspread : cfg.spreadFee = false) {year mon : ℕ}
    (hmon : mon < 12) {calls : List DayCall} (h : Month year mon calls) :
    ∃ l, userCalls cfg calls = some l ∧ ∀ id, (∀ c ∈ calls, id ∈ c.users) →
      (l.count (.processDayFee, id) = 1 ↔ HasDay year mon cfg.dayFee) ∧
      (l.count (.processNewMonth, id) = 1 ↔ HasDay year mon cfg.dayResetTraff) := by
  obtain ⟨days, hperm, hdays⟩ := h
  obtain ⟨l, hl, hcount⟩ := userCalls_count hspread hmon hdays
  refine ⟨l, hl, fun id hid => ?_⟩
  obtain ⟨hfee, hreset⟩ := hcount id hid
  rw [hfee, hreset]
  exact ⟨count_eq_one_iff hperm _, count_eq_one_iff hperm _⟩

/-- **A month is billed once** exactly if both settings stand for one of its days.  The calls of a
month go through, and a user who is there on all its days has had `ProcessDayFee` and
`ProcessNewMonth` run exactly once if and only if each of the two days is not larger than the
length of the month, or is zero in a month that is not the February of a year 1900, 2300, and so on
every 400 years. -/
theorem billed_once_iff (cfg : DaySettings) (hspread : cfg.spreadFee = false) (year mon : ℕ)
    (hmon : mon < 12) (calls : List DayCall) (h : Month year mon calls) :
    ∃ l, userCalls cfg calls = some l ∧ ∀ id, (∀ c ∈ calls, id ∈ c.users) →
      (l.count (.processDayFee, id) = 1 ∧ l.count (.processNewMonth, id) = 1 ↔
        HasDay year mon cfg.dayFee ∧ HasDay year mon cfg.dayResetTraff) := by
  obtain ⟨l, hl, hcount⟩ := h.count_iff hspread hmon
  exact ⟨l, hl, fun id hid => and_congr (hcount id hid).1 (hcount id hid).2⟩

namespace Sample

/-- A call of `NewDay` for one user on a day of a month. -/
def dayCall (year mon day : ℕ) : DayCall where
  env := { Sample.env 0 with localtime := fun _ => ⟨0, 0, day, mon, year⟩ }
  t := ⟨0, 0, day, mon, year⟩
  users := [0]
  nodup := List.nodup_singleton 0

/-- The calls of a whole month. -/
def month (year mon : ℕ) : List DayCall :=
  (List.range' 1 (monthLength year mon)).map (dayCall year mon)

theorem month_month (year mon : ℕ) : Month year mon (month year mon) := by
  refine ⟨_, .refl _, ?_⟩
  rw [month, List.forall₂_map_right_iff, List.forall₂_same]
  exact fun d _ => ⟨rfl, rfl, rfl, rfl⟩

theorem mem_users (year mon : ℕ) : ∀ c ∈ month year mon, 0 ∈ c.users := by
  intro c hc
  obtain ⟨d, -, rfl⟩ := List.mem_map.1 hc
  exact List.mem_singleton_self 0

end Sample

/-- February 2023 with the fee on the 28th and the reset on the last day. -/
theorem billed_once_iff_february :
    ∃ l, userCalls ⟨28, 0, false, false, by decide, by decide⟩ (Sample.month 123 1) = some l ∧
      l.count (.processDayFee, 0) = 1 ∧ l.count (.processNewMonth, 0) = 1 := by
  obtain ⟨l, hl, hiff⟩ := billed_once_iff ⟨28, 0, false, false, by decide, by decide⟩ rfl 123 1
    (by decide) (Sample.month 123 1) (Sample.month_month 123 1)
  exact ⟨l, hl, (hiff 0 (Sample.mem_users 123 1)).2 ⟨by simp [HasDay, monthLength],
    by simp [HasDay]⟩⟩

/-- April 2024 with the fee on the 31st: nobody pays. -/
theorem not_billed_in_april :
    ∃ l, userCalls ⟨31, 1, false, false, by decide, by decide⟩ (Sample.month 124 3) = some l ∧
      Month 124 3 (Sample.month 124 3) ∧ (∀ c ∈ Sample.month 124 3, 0 ∈ c.users) ∧
      l.count (.processDayFee, 0) ≠ 1 := by
  have hspread : (DaySettings.mk 31 1 false false (by decide) (by decide)).spreadFee = false := rfl
  obtain ⟨l, hl, hiff⟩ := (Sample.month_month 124 3).count_iff hspread (by decide)
  refine ⟨l, hl, Sample.month_month 124 3, Sample.mem_users 124 3, fun hone => ?_⟩
  have := (hiff 0 (Sample.mem_users 124 3)).1.1 hone
  simp [HasDay, monthLength] at this

end Stargazer
