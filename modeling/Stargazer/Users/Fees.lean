import Stargazer.Lib.Ledger
import Stargazer.Lib.Run
import Stargazer.Users.CashRace

set_option relaxedAutoImplicit false
set_option autoImplicit false

/-!
# Fees and services

The other functions of `user_impl.cpp` that charge a user: a monthly fee spread over the days of
the month, the fee of a tariff paid by the day, and the services; and `DaysInMonth` of
`libs/common/common.cpp`.  With `ProcessDayFee` (`Stargazer.Users.Billing`) they are the four
functions that apply the setting `FeeChargeType`.

Each of them settles a list of dues, in order and by one rule (`Stargazer.Lib.Ledger`): the balance
before a due is what the due before it left.

## Main definitions

* `Stargazer.daysInMonth`, `Stargazer.daysInCurrentMonth` — the calendar of the server.
* `Stargazer.UserImpl.processDayFeeSpread`, `Stargazer.UserImpl.processDailyFee`,
  `Stargazer.UserImpl.processServices` — the three functions.
* `Stargazer.FeeCall` — a call of one of the four functions, and the dues it settles.

## Main results

* `Stargazer.FeeCall.perform_eq` — the four functions settle their dues.
* `Stargazer.feeRun_respects_limit` — the limits of debt along a run of calls.
-/

namespace Stargazer

/-! ## The calendar of the server -/

/-- `DaysInMonth`; the assertion fails for a month that does not exist. -/
def daysInMonth (year mon : ℕ) : Option ℤ :=
  match mon with
  | 0 => some 31
  | 1 => some (if year % 4 = 0 ∧ (year % 100 ≠ 0 ∨ year % 400 = 0) then 29 else 28)
  | 2 => some 31
  | 3 => some 30
  | 4 => some 31
  | 5 => some 30
  | 6 => some 31
  | 7 => some 31
  | 8 => some 30
  | 9 => some 31
  | 10 => some 30
  | 11 => some 31
  | _ => none

/-- `DaysInCurrentMonth`.  The year it hands on is counted from 1900. -/
def daysInCurrentMonth (env : Env) : Option ℤ :=
  let lt := env.localtime env.time
  daysInMonth lt.year.toNat lt.mon.toNat

/-! ## Services -/

/-- `ServiceConf`, without its comment. -/
structure ServiceConf where
  /-- `name`. -/
  name : String
  /-- `cost`. -/
  cost : Money
  /-- `payDay`; zero stands for the last day of the month. -/
  payDay : BitVec 8

/-- Is a service paid today? -/
def ServiceConf.due (env : Env) (conf : ServiceConf) : Option Bool :=
  let mday := (env.localtime env.stgTime).mday
  if (conf.payDay.toNat : ℤ) = mday then some true
  else if conf.payDay = 0 then do
    let days ← daysInCurrentMonth env
    return decide (mday = days)
  else some false

namespace UserImpl

/-- The balance pays a fee, if the setting `FeeChargeType` allows it. -/
def chargeFee (env : Env) (fee : Money) (u : UserImpl) : UserImpl :=
  if u.feeCharged env fee then u.setCash env (u.cash - fee) else u

/-- `UserImpl::ProcessDayFeeSpread`. -/
def processDayFeeSpread (env : Env) (u : UserImpl) : Option UserImpl :=
  match u.tariff with
  | none => some u
  | some t =>
    if u.passive ≠ 0 then some u
    else if t.tariffConf.period ≠ .month then some u
    else do
      let days ← daysInCurrentMonth env
      let fee := t.getFee / days
      if |fee| < 1 / 1000 then some u
      else some ((u.chargeFee env fee).resetPassiveTime env)

/-- The decision of the `switch` in `UserImpl::ProcessDailyFee`, which has no case for the type 3. -/
def dailyFeeCharged (env : Env) (u : UserImpl) (fee : Money) : Bool :=
  match env.settings.feeChargeType with
  | 0 => true
  | 1 => decide (u.cash + u.credit ≥ 0)
  | 2 => decide (u.cash + u.credit ≥ fee)
  | _ => false

/-- `UserImpl::ProcessDailyFee`. -/
def processDailyFee (env : Env) (u : UserImpl) : UserImpl :=
  match u.tariff with
  | none => u
  | some t =>
    if u.passive ≠ 0 then u
    else if t.tariffConf.period ≠ .day then u
    else if t.getFee = 0 then u
    else
      let u := if u.dailyFeeCharged env t.getFee then u.setCash env (u.cash - t.getFee) else u
      u.resetPassiveTime env

/-- One iteration of the loop of `UserImpl::ProcessServices`; `none` is the null dereference of a
user whose tariff is unknown. -/
def processService (env : Env) (find : String → Option ServiceConf) (part : Money) (u : UserImpl)
    (name : String) : Option UserImpl :=
  match find name with
  | none => some u
  | some conf => do
    if ← conf.due env then
      let _ ← u.tariff
      let fee := conf.cost * part
      return if u.feeCharged env fee then (u.setCash env (u.cash - fee)).setPrepaidTraff else u
    else
      return u

/-- The part of the fee that is charged, or `none` where `UserImpl::ProcessServices` returns. -/
def servicesPart (env : Env) (u : UserImpl) : Option Money :=
  if env.settings.fullFee then if u.passive ≠ 0 then none else some 1
  else some (u.getPassiveTimePart env)

/-- `UserImpl::ProcessServices`.  `find` is the registry of services, `services` those of the
user. -/
def processServices (env : Env) (find : String → Option ServiceConf) (services : List String)
    (u : UserImpl) : Option UserImpl :=
  match u.servicesPart env with
  | none => some u
  | some part => services.foldlM (processService env find part) u

end UserImpl

/-! ## Dues -/

/-- The rule of the setting `FeeChargeType`. -/
def feeRule (type : ℕ) (credit cash fee : Money) : Bool :=
  match type with
  | 0 => true
  | 1 => decide (cash + credit ≥ 0)
  | 2 => decide (cash + credit ≥ fee)
  | 3 => decide (cash ≥ 0)
  | _ => false

/-- Which of the four functions is called. -/
inductive FeeFunction
  /-- `ProcessDayFee`. -/
  | dayFee
  /-- `ProcessDayFeeSpread`. -/
  | dayFeeSpread
  /-- `ProcessDailyFee`. -/
  | dailyFee
  /-- `ProcessServices`, with the registry and the services of the user. -/
  | services (find : String → Option ServiceConf) (services : List String)

/-- A call of one of the four functions: the environment it runs in and the user it finds. -/
structure FeeCall where
  /-- The function. -/
  function : FeeFunction
  /-- The environment. -/
  env : Env
  /-- The user before the call. -/
  user : UserImpl

namespace FeeCall

/-- What the call does. -/
def perform (c : FeeCall) : Option UserImpl :=
  match c.function with
  | .dayFee => some (c.user.processDayFee c.env)
  | .dayFeeSpread => c.user.processDayFeeSpread c.env
  | .dailyFee => some (c.user.processDailyFee c.env)
  | .services find services => c.user.processServices c.env find services

/-- The fee of a service that is paid today. -/
def serviceDue (env : Env) (find : String → Option ServiceConf) (part : Money) (name : String) :
    List Money :=
  match find name with
  | none => []
  | some conf => if conf.due env = some true then [conf.cost * part] else []

/-- The fees that are due in the call, in the order they are settled in. -/
def dues (c : FeeCall) : List Money :=
  match c.function with
  | .dayFee =>
    match c.user.dayFee c.env with
    | none => []
    | some fee => if |fee| < 1 / 1000 then [] else [fee]
  | .dayFeeSpread =>
    match c.user.tariff, daysInCurrentMonth c.env with
    | some t, some days =>
      if c.user.passive ≠ 0 ∨ t.tariffConf.period ≠ .month ∨ |t.getFee / days| < 1 / 1000 then []
      else [t.getFee / days]
    | _, _ => []
  | .dailyFee =>
    match c.user.tariff with
    | none => []
    | some t =>
      if c.user.passive ≠ 0 ∨ t.tariffConf.period ≠ .day ∨ t.getFee = 0 ∨
          3 ≤ c.env.settings.feeChargeType then []
      else [t.getFee]
  | .services find services =>
    match c.user.servicesPart c.env with
    | none => []
    | some part => services.flatMap (serviceDue c.env find part)

/-! ## The functions settle their dues -/

/-- The decision of the `switch` is the rule of the setting. -/
theorem feeRule_eq {env : Env} {u : UserImpl} {fee : Money} {b : Bool}
    (h : u.feeCharged env fee = b) :
    feeRule env.settings.feeChargeType u.credit u.cash fee = b := h

/-- Below the type 3 the rule of `ProcessDailyFee` is the common one, and from there on nothing is
charged. -/
theorem dailyFeeCharged_eq (env : Env) (u : UserImpl) (fee : Money) :
    u.dailyFeeCharged env fee =
      (decide (env.settings.feeChargeType < 3) &&
        feeRule env.settings.feeChargeType u.credit u.cash fee) := by
  unfold UserImpl.dailyFeeCharged feeRule
  split
  case h_4 h0 h1 h2 =>
    have hle : ¬ env.settings.feeChargeType < 3 := fun hlt => by
      have : env.settings.feeChargeType ≠ 0 := h0
      have : env.settings.feeChargeType ≠ 1 := h1
      have : env.settings.feeChargeType ≠ 2 := h2
      omega
    rw [decide_eq_false hle, Bool.false_and]
  all_goals simp_all

/-- One due. -/
theorem balance_singleton (rule : Money → Money → Bool) (cash fee : Money) :
    Ledger.balance rule cash [fee] = if rule cash fee then cash - fee else cash := rfl

/-- Prepaid traffic is no credit. -/
theorem setPrepaidTraff_credit (u : UserImpl) : u.setPrepaidTraff.credit = u.credit := by
  unfold UserImpl.setPrepaidTraff
  split <;> rfl

/-- A fee is one due. -/
theorem chargeFee_eq (env : Env) (fee : Money) (u : UserImpl) :
    (u.chargeFee env fee).credit = u.credit ∧
      (u.chargeFee env fee).cash =
        Ledger.balance (feeRule env.settings.feeChargeType u.credit) u.cash [fee] := by
  rw [balance_singleton, UserImpl.chargeFee]
  cases hc : u.feeCharged env fee with
  | false => simp [feeRule_eq hc]
  | true => simp [feeRule_eq hc, UserImpl.setCash]

/-- `ProcessDayFee`. -/
theorem processDayFee_eq (env : Env) (u : UserImpl) :
    (u.processDayFee env).credit = u.credit ∧
      (u.processDayFee env).cash = Ledger.balance (feeRule env.settings.feeChargeType u.credit)
        u.cash (dues ⟨.dayFee, env, u⟩) := by
  simp only [UserImpl.processDayFee, dues]
  cases u.dayFee env with
  | none => exact ⟨rfl, rfl⟩
  | some fee =>
    by_cases hsmall : |fee| < 1 / 1000
    · simp only [if_pos hsmall]
      exact ⟨setPrepaidTraff_credit _, UserImpl.setPrepaidTraff_cash _⟩
    · simp only [if_neg hsmall, balance_singleton]
      cases hc : (u.resetPassiveTime env).feeCharged env fee with
      | false =>
        have hrule : feeRule env.settings.feeChargeType u.credit u.cash fee = false := hc
        simp only [hrule, Bool.false_eq_true, if_false]
        exact ⟨rfl, rfl⟩
      | true =>
        have hrule : feeRule env.settings.feeChargeType u.credit u.cash fee = true := hc
        simp only [hrule, if_true]
        exact ⟨setPrepaidTraff_credit _, UserImpl.setPrepaidTraff_cash _⟩

/-- `ProcessDayFeeSpread`. -/
theorem processDayFeeSpread_eq {env : Env} {u u' : UserImpl}
    (h : u.processDayFeeSpread env = some u') :
    u'.credit = u.credit ∧
      u'.cash = Ledger.balance (feeRule env.settings.feeChargeType u.credit) u.cash
        (dues ⟨.dayFeeSpread, env, u⟩) := by
  simp only [UserImpl.processDayFeeSpread] at h
  simp only [dues]
  cases ht : u.tariff with
  | none =>
    rw [ht] at h
    obtain rfl := Option.some.inj h
    exact ⟨rfl, rfl⟩
  | some t =>
    rw [ht] at h
    by_cases hret : u.passive ≠ 0 ∨ t.tariffConf.period ≠ .month
    · have hu : some u = some u' := by
        rcases hret with hp | hp
        · simpa [hp] using h
        · by_cases hp' : u.passive = 0 <;> simpa [hp, hp'] using h
      obtain rfl := Option.some.inj hu
      cases daysInCurrentMonth env with
      | none => exact ⟨rfl, rfl⟩
      | some days =>
        have : u.passive ≠ 0 ∨ t.tariffConf.period ≠ .month ∨ |t.getFee / days| < 1 / 1000 := by
          tauto
        simp only [if_pos this]
        exact ⟨trivial, rfl⟩
    · rw [not_or, not_not, not_not] at hret
      simp only [hret.1, hret.2, ne_eq, not_true_eq_false, if_false, Option.bind_eq_bind,
        Option.bind_eq_some_iff] at h
      obtain ⟨days, hdays, h⟩ := h
      simp only [hdays, hret.1, hret.2, ne_eq, not_true_eq_false, false_or]
      split_ifs at h ⊢ with hsmall
      · obtain rfl := Option.some.inj h
        exact ⟨rfl, rfl⟩
      · obtain rfl := Option.some.inj h
        exact chargeFee_eq env (t.getFee / days) u

/-- `ProcessDailyFee`. -/
theorem processDailyFee_eq (env : Env) (u : UserImpl) :
    (u.processDailyFee env).credit = u.credit ∧
      (u.processDailyFee env).cash = Ledger.balance (feeRule env.settings.feeChargeType u.credit)
        u.cash (dues ⟨.dailyFee, env, u⟩) := by
  simp only [UserImpl.processDailyFee, dues]
  cases ht : u.tariff with
  | none => exact ⟨rfl, rfl⟩
  | some t =>
    by_cases hret : u.passive ≠ 0 ∨ t.tariffConf.period ≠ .day ∨ t.getFee = 0
    · have hdues : u.passive ≠ 0 ∨ t.tariffConf.period ≠ .day ∨ t.getFee = 0 ∨
          3 ≤ env.settings.feeChargeType := by
        tauto
      have hu : (if u.passive ≠ 0 then u else if t.tariffConf.period ≠ .day then u
          else if t.getFee = 0 then u
          else UserImpl.resetPassiveTime env
            (if u.dailyFeeCharged env t.getFee then u.setCash env (u.cash - t.getFee) else u)) =
          u := by
        split_ifs
        all_goals first | rfl | exact absurd hret (by tauto)
      simp only [if_pos hdues, hu]
      exact ⟨trivial, rfl⟩
    · obtain ⟨hp, hperiod, hfee⟩ : ¬ u.passive ≠ 0 ∧ ¬ t.tariffConf.period ≠ .day ∧
          ¬ t.getFee = 0 := by
        tauto
      simp only [hp, hperiod, hfee, if_false, false_or]
      have hcharged := dailyFeeCharged_eq env u t.getFee
      by_cases htype : 3 ≤ env.settings.feeChargeType
      · -- there is no such case
        rw [decide_eq_false (by omega), Bool.false_and] at hcharged
        simp only [hcharged, Bool.false_eq_true, if_false, if_pos htype]
        exact ⟨rfl, rfl⟩
      · rw [decide_eq_true (by omega), Bool.true_and] at hcharged
        simp only [if_neg htype, balance_singleton]
        cases hc : u.dailyFeeCharged env t.getFee with
        | false =>
          rw [hcharged] at hc
          simp only [hc, Bool.false_eq_true, if_false]
          exact ⟨rfl, rfl⟩
        | true =>
          rw [hcharged] at hc
          simp only [hc, if_true]
          exact ⟨rfl, rfl⟩

/-- One iteration of the loop over the services. -/
theorem processService_eq {env : Env} {find : String → Option ServiceConf} {part : Money}
    {u u' : UserImpl} {name : String} (h : u.processService env find part name = some u') :
    u'.credit = u.credit ∧
      u'.cash = Ledger.balance (feeRule env.settings.feeChargeType u.credit) u.cash
        (serviceDue env find part name) := by
  unfold UserImpl.processService at h
  unfold serviceDue
  cases hf : find name with
  | none =>
    rw [hf] at h
    obtain rfl := Option.some.inj h
    exact ⟨rfl, rfl⟩
  | some conf =>
    rw [hf] at h
    simp only [Option.bind_eq_bind, Option.bind_eq_some_iff] at h
    obtain ⟨due, hdue, h⟩ := h
    cases due with
    | false =>
      obtain rfl := Option.some.inj h
      simp [hdue, Ledger.balance]
    | true =>
      simp only [if_true, Option.bind_eq_some_iff] at h
      obtain ⟨t, ht, h⟩ := h
      obtain rfl := Option.some.inj h
      simp only [hdue, if_true, balance_singleton]
      cases hc : u.feeCharged env (conf.cost * part) with
      | false =>
        simp only [feeRule_eq hc, Bool.false_eq_true, if_false]
        exact ⟨trivial, trivial⟩
      | true =>
        simp only [feeRule_eq hc, if_true]
        exact ⟨setPrepaidTraff_credit _, UserImpl.setPrepaidTraff_cash _⟩

/-- The loop over the services.

**Proof sketch.** Induction on the services; each iteration starts from the balance the one before
left. -/
theorem processServices_loop_eq {env : Env} {find : String → Option ServiceConf} {part : Money}
    (services : List String) {u u' : UserImpl}
    (h : services.foldlM (UserImpl.processService env find part) u = some u') :
    u'.credit = u.credit ∧
      u'.cash = Ledger.balance (feeRule env.settings.feeChargeType u.credit) u.cash
        (services.flatMap (serviceDue env find part)) := by
  induction services generalizing u with
  | nil =>
    obtain rfl := Option.some.inj h
    exact ⟨rfl, rfl⟩
  | cons name services ih =>
    rw [List.foldlM_cons, Option.bind_eq_bind, Option.bind_eq_some_iff] at h
    obtain ⟨v, hv, h⟩ := h
    obtain ⟨hcredit, hcash⟩ := processService_eq hv
    obtain ⟨hcredit', hcash'⟩ := ih h
    refine ⟨hcredit'.trans hcredit, ?_⟩
    rw [List.flatMap_cons, Ledger.balance_append, hcash', hcredit, hcash]

/-- **The four functions settle their dues** by the rule of the setting, and leave the credit
alone. -/
theorem perform_eq {c : FeeCall} {u' : UserImpl} (h : c.perform = some u') :
    u'.credit = c.user.credit ∧
      u'.cash = Ledger.balance (feeRule c.env.settings.feeChargeType c.user.credit) c.user.cash
        c.dues := by
  obtain ⟨function, env, u⟩ := c
  cases function with
  | dayFee =>
    obtain rfl := Option.some.inj h
    exact processDayFee_eq env u
  | dayFeeSpread => exact processDayFeeSpread_eq h
  | dailyFee =>
    obtain rfl := Option.some.inj h
    exact processDailyFee_eq env u
  | services find services =>
    simp only [perform, UserImpl.processServices] at h
    simp only [dues]
    split at h
    · obtain rfl := Option.some.inj h
      exact ⟨rfl, rfl⟩
    · exact processServices_loop_eq services h

end FeeCall

/-! ## Runs -/

/-- The calls change the user one after the other. -/
def feeStep (_ : UserImpl) (c : FeeCall) : Option UserImpl := c.perform

/-- What a call finds: the type that is set, and the balance and the credit the call before it left,
whatever else happened to the user in between. -/
structure FeeGuard (type : ℕ) (u : UserImpl) (c : FeeCall) : Prop where
  type : c.env.settings.feeChargeType = type
  cash : c.user.cash = u.cash
  credit : c.user.credit = u.credit

/-- A run settles the dues of its calls.

**Proof sketch.** Induction on the run, with `FeeCall.perform_eq`. -/
theorem feeRun_eq {type : ℕ} {u u' : UserImpl} {calls : List FeeCall}
    (h : Transition.Reaches feeStep (FeeGuard type) u calls u') :
    u'.credit = u.credit ∧
      u'.cash = Ledger.balance (feeRule type u.credit) u.cash (calls.flatMap FeeCall.dues) := by
  induction h with
  | nil => exact ⟨rfl, rfl⟩
  | cons hg hs _ ih =>
    obtain ⟨hcredit, hcash⟩ := FeeCall.perform_eq hs
    rw [hg.type, hg.credit, hg.cash] at hcash
    rw [hg.credit] at hcredit
    refine ⟨ih.1.trans hcredit, ?_⟩
    rw [ih.2, hcredit, hcash, List.flatMap_cons, Ledger.balance_append]

/-- A bound that holds for the first balance and for what each charge leaves holds at the end. -/
theorem le_balance {rule : Money → Money → Bool} {b bound credit : Money} {dues : List Money}
    (hb : bound ≤ b + credit) (hc : ∀ c ∈ Ledger.settle rule b dues, bound ≤ c.after + credit) :
    bound ≤ Ledger.balance rule b dues + credit := by
  rcases Ledger.balance_eq rule b dues with heq | ⟨c, hmem, heq⟩
  · rwa [heq]
  · rw [heq]
    exact hc c hmem

/-- **Fees respect the limit of debt.** Along every run of the four functions, with the balance and
the credit untouched between the calls: the charges are some of the fees due, in their order, and
each takes exactly its fee from the balance; with the type 2 the balance and the credit do not
become negative; with the type 1 they do not fall below where they started or the largest fee
charged, counted negative, and with the type 3 the balance alone does not.  This holds after every
single charge and at the end. -/
theorem feeRun_respects_limit {type : ℕ} {u u' : UserImpl} {calls : List FeeCall}
    (h : Transition.Reaches feeStep (FeeGuard type) u calls u') :
    let charges := Ledger.settle (feeRule type u.credit) u.cash (calls.flatMap FeeCall.dues)
    let F := Ledger.largest charges
    u'.credit = u.credit ∧
    (charges.map Ledger.Charge.amount).Sublist (calls.flatMap FeeCall.dues) ∧
    Ledger.Linked u.cash charges u'.cash ∧
    (type = 2 → 0 ≤ u.cash + u.credit →
      (∀ c ∈ charges, 0 ≤ c.after + u.credit) ∧ 0 ≤ u'.cash + u.credit) ∧
    (type = 1 → (∀ c ∈ charges, min (u.cash + u.credit) (-F) ≤ c.after + u.credit) ∧
      min (u.cash + u.credit) (-F) ≤ u'.cash + u.credit) ∧
    (type = 3 → (∀ c ∈ charges, min u.cash (-F) ≤ c.after) ∧ min u.cash (-F) ≤ u'.cash) := by
  intro charges F
  obtain ⟨hcredit, hcash⟩ := feeRun_eq h
  refine ⟨hcredit, Ledger.amounts_sublist _ _, ?_, ?_, ?_, ?_⟩
  · rw [hcash]
    exact Ledger.linked_settle _ _
  · rintro rfl hstart
    have hafter (c) (hc : c ∈ charges) : 0 ≤ c.after + u.credit :=
      Ledger.nonneg_settle u.credit (fun b due hr => of_decide_eq_true hr) _ _ hc
    refine ⟨hafter, ?_⟩
    rw [hcash]
    exact le_balance hstart hafter
  · rintro rfl
    have hafter (c) (hc : c ∈ charges) : min (u.cash + u.credit) (-F) ≤ c.after + u.credit :=
      (min_le_right _ _).trans
        (Ledger.floor_settle u.credit (fun b due hr => of_decide_eq_true hr) _ _ hc)
    refine ⟨hafter, ?_⟩
    rw [hcash]
    exact le_balance (min_le_left _ _) hafter
  · rintro rfl
    have hafter (c) (hc : c ∈ charges) : min u.cash (-F) ≤ c.after := by
      refine (min_le_right _ _).trans ?_
      have := Ledger.floor_settle 0 (fun b due hr => by
        have : b ≥ 0 := of_decide_eq_true hr
        rwa [add_zero]) _ _ hc
      rwa [add_zero] at this
    refine ⟨hafter, ?_⟩
    have hend : min u.cash (-F) ≤
        Ledger.balance (feeRule 3 u.credit) u.cash (calls.flatMap FeeCall.dues) + 0 :=
      le_balance (by rw [add_zero]; exact min_le_left _ _)
        (fun c hc => by rw [add_zero]; exact hafter c hc)
    rwa [add_zero, ← hcash] at hend

/-- Two fees of five, and a third one that the balance does not cover. -/
theorem feeRun_respects_limit_sample :
    let env : Env := { Sample.env 1000 with settings := { Sample.settings with feeChargeType := 2 } }
    let pay : UserImpl → UserImpl := UserImpl.processDayFee env
    let u := Sample.user "user"
    (pay (pay (pay u))).cash = 0 ∧ 0 ≤ (pay (pay (pay u))).cash + u.credit := by
  intro env pay u
  have hguard (v : UserImpl) : FeeGuard 2 v ⟨.dayFee, env, v⟩ := ⟨rfl, rfl, rfl⟩
  have hrun : Transition.Reaches feeStep (FeeGuard 2) u
      [⟨.dayFee, env, u⟩, ⟨.dayFee, env, pay u⟩, ⟨.dayFee, env, pay (pay u)⟩]
      (pay (pay (pay u))) :=
    .cons (hguard u) rfl (.cons (hguard _) rfl (.cons (hguard _) rfl (.nil _)))
  exact ⟨by decide +kernel,
    ((feeRun_respects_limit hrun).2.2.2.1 rfl (by decide +kernel)).2⟩

end Stargazer
