import Stargazer.Lib.Run
import Stargazer.Users.Billing

set_option relaxedAutoImplicit false
set_option autoImplicit false

/-!
# Payments and charges

Traffic and fees are charged by methods that hold the mutex of the user throughout.  An
administrator's payment is made outside of it: the balance is read, the amount is added, and the
sum is written back by the property's `Set`.  What happens to the balance in between is lost.

The operations are sequences of atomic steps: the read and the `Set` of a payment are one step
each, a charging method is one step.  Any number of payments may be under way.

## Main definitions

* `Stargazer.CashAdd` — a payment, through either of the two interfaces.
* `Stargazer.CashSystem`, `Stargazer.CashSystem.step` — the balance and the payments under way.
* `Stargazer.CashSystem.Balanced` — nothing was lost.
* `Stargazer.CashSystem.Guard` — the steps that lose nothing.

## Main results

* `Stargazer.CashSystem.maintains_balanced_iff` — which runs lose nothing.
-/

namespace Stargazer

/-! ## What is charged -/

namespace UserImpl

/-- What a traffic call charges the balance. -/
def traffCharge (c : TraffCall) (u : UserImpl) : Money :=
  match u.tariff with
  | none => 0
  | some t => if u.connected then trafficCost u.freeMb (u.dc c.side c.env c.dir c.len t) else 0

/-- What `ProcessDayFee` charges the balance. -/
def feeCharge (env : Env) (u : UserImpl) : Money :=
  match u.dayFee env with
  | none => 0
  | some fee => if |fee| < 1 / 1000 then 0 else if u.feeCharged env fee then fee else 0

/-- The balance after the common part of the two traffic calls. -/
theorem addTraff_cash {count : UserImpl → UserImpl} (hcount : ∀ v, (count v).cash = v.cash)
    (env : Env) (charged : Bool) (p : Money) (up down : BitVec 64) (idp : IPDirPair)
    (u : UserImpl) :
    (u.addTraff env charged p count up down idp).cash =
      u.cash - trafficCost u.freeMb (if charged then p else 0) := by
  cases charged <;> simp [addTraff, hcount, trafficCost_zero]

/-- A traffic call takes its charge from the balance. -/
theorem addTraffStat_cash (c : TraffCall) (u : UserImpl) :
    (u.addTraffStat c.side c.env c.dir c.ip c.len).cash = u.cash - u.traffCharge c := by
  obtain ⟨env, side, dir, ip, len⟩ := c
  cases ht : u.tariff with
  | none => cases side <;> simp [addTraffStat, addTraffStatU, addTraffStatD, traffCharge, ht]
  | some t =>
    cases hc : u.connected with
    | false =>
      cases side <;> simp [addTraffStat, addTraffStatU, addTraffStatD, traffCharge, ht, hc]
    | true =>
      cases side
      all_goals
        simp only [addTraffStat, addTraffStatU, addTraffStatD, traffCharge, ht, hc, if_true]
        rw [addTraff_cash]
        · rfl
        · exact fun _ => rfl

/-- Prepaid traffic is no money. -/
theorem setPrepaidTraff_cash (u : UserImpl) : u.setPrepaidTraff.cash = u.cash := by
  unfold setPrepaidTraff
  split <;> rfl

/-- `ProcessDayFee` takes its charge from the balance. -/
theorem processDayFee_cash (env : Env) (u : UserImpl) :
    (u.processDayFee env).cash = u.cash - u.feeCharge env := by
  unfold processDayFee feeCharge
  cases u.dayFee env with
  | none => simp
  | some fee =>
    have hcharged : (u.resetPassiveTime env).feeCharged env fee = u.feeCharged env fee := rfl
    simp only [hcharged]
    split_ifs
    · simp [setPrepaidTraff_cash, resetPassiveTime]
    · simp [setPrepaidTraff_cash, setCash, resetPassiveTime]
    · simp [resetPassiveTime]

end UserImpl

/-! ## Payments -/

/-- The two interfaces an administrator may pay through. -/
inductive CashInterface
  /-- `METHOD_USER_CASH_ADD::execute` of the XML-RPC interface. -/
  | rpcconfig
  /-- `CHG_USER::ApplyChanges` with a cash element to be added, of sgconfig. -/
  | sgconfig
  deriving DecidableEq

/-- A payment. -/
structure CashAdd where
  /-- The interface. -/
  interface : CashInterface
  /-- The amount. -/
  amount : Money
  /-- The privileges of the administrator. -/
  priv : Priv

namespace CashAdd

/-- The value handed to `Set`, computed from the balance that was read. -/
def newCash (op : CashAdd) (cash : Money) : Money :=
  match op.interface with
  | .rpcconfig => cash + op.amount
  | .sgconfig => op.amount + cash

/-- Does `UserPropertyLogged::Set` of the property `cash` let the administrator pass? -/
def allowed (op : CashAdd) : Bool := op.priv.maySet "cash" true false

theorem newCash_eq (op : CashAdd) (cash : Money) : op.newCash cash = cash + op.amount := by
  unfold newCash
  split
  · rfl
  · exact add_comm _ _

end CashAdd

/-- A user, the payments under way and the books. -/
structure CashSystem where
  /-- The user. -/
  user : UserImpl
  /-- The payments that have read the balance and not yet written it, with what they read. -/
  pending : ℕ → Option (CashAdd × Money)
  /-- The balance at the start. -/
  initialCash : Money
  /-- The sum of the payments that were made. -/
  added : Money := 0
  /-- The sum of the charges that were made. -/
  charged : Money := 0

/-- The steps. -/
inductive CashAction
  /-- The payment number `n` reads the balance. -/
  | read (n : ℕ) (op : CashAdd)
  /-- The payment number `n` writes the balance. -/
  | set (n : ℕ) (env : Env)
  /-- `AddTraffStatU` or `AddTraffStatD`. -/
  | addTraffStat (c : TraffCall)
  /-- `ProcessDayFee`. -/
  | processDayFee (env : Env)

namespace CashSystem

/-- One step.  A payment that is under way does not read again, and one that is not under way has
nothing to write. -/
def step (s : CashSystem) : CashAction → Option CashSystem
  | .read n op =>
    match s.pending n with
    | some _ => some s
    | none => some { s with pending := Function.update s.pending n (some (op, s.user.cash)) }
  | .set n env =>
    match s.pending n with
    | none => some s
    | some (op, cash) =>
      let s := { s with pending := Function.update s.pending n none }
      if op.allowed then
        some { s with
          user := s.user.setCash env (op.newCash cash)
          added := s.added + op.amount }
      else some s
  | .addTraffStat c => some { s with
      user := s.user.addTraffStat c.side c.env c.dir c.ip c.len
      charged := s.charged + s.user.traffCharge c }
  | .processDayFee env => some { s with
      user := s.user.processDayFee env
      charged := s.charged + s.user.feeCharge env }

/-- The start of a run. -/
def start (u : UserImpl) : CashSystem where
  user := u
  pending := fun _ => none
  initialCash := u.cash

/-- The balance is the initial one plus all payments minus all charges. -/
def Balanced (s : CashSystem) : Prop := s.user.cash = s.initialCash + s.added - s.charged

instance (s : CashSystem) : Decidable s.Balanced :=
  inferInstanceAs (Decidable (s.user.cash = s.initialCash + s.added - s.charged))

/-- A payment that is let through writes while the balance still is what it read. -/
def Guard (s : CashSystem) : CashAction → Prop
  | .set n _ => ∀ op cash, s.pending n = some (op, cash) → op.allowed = true → s.user.cash = cash
  | _ => True

/-- **Exactness of one step.** From a balanced state a step leads to a balanced state iff it meets
the guard. -/
theorem exists_step_balanced_iff (s : CashSystem) (a : CashAction) (h : s.Balanced) :
    (∃ s', s.step a = some s' ∧ s'.Balanced) ↔ s.Guard a := by
  unfold Balanced at h
  cases a with
  | read n op =>
    simp only [step, Guard, iff_true]
    split
    · exact ⟨s, rfl, h⟩
    · exact ⟨_, rfl, h⟩
  | set n env =>
    simp only [step, Guard]
    cases hp : s.pending n with
    | none => simpa [Balanced] using h
    | some p =>
      obtain ⟨op, cash⟩ := p
      cases hallowed : op.allowed with
      | false => simpa [Balanced, hallowed] using h
      | true =>
        simp only [hallowed, if_true, Option.some.injEq, exists_eq_left', Balanced,
          UserImpl.setCash, CashAdd.newCash_eq, Prod.mk.injEq]
        constructor
        · rintro hb op' cash' ⟨rfl, rfl⟩ -
          linarith
        · intro hg
          have := hg op cash ⟨rfl, rfl⟩ hallowed
          linarith
  | addTraffStat c =>
    simp only [step, Guard, Option.some.injEq, exists_eq_left', Balanced, iff_true,
      UserImpl.addTraffStat_cash]
    linarith
  | processDayFee env =>
    simp only [step, Guard, Option.some.injEq, exists_eq_left', Balanced, iff_true,
      UserImpl.processDayFee_cash]
    linarith

/-- **No payment and no charge is lost** along a run, in whatever order the steps of any number of
payments, traffic calls and fees come: the balance is the initial one plus all payments minus all
charges in every state, exactly if every payment writes while the balance still is what it read.

**Proof sketch.** The exactness rule with `exists_step_balanced_iff`. -/
theorem maintains_balanced_iff (u : UserImpl) (as : List CashAction) :
    Transition.Maintains step Balanced (start u) as ↔
      ∃ s, Transition.Reaches step Guard (start u) as s := by
  apply Transition.maintains_iff_reaches (A := fun _ => True)
  · exact fun _ _ _ _ _ _ => trivial
  · exact fun s a _ h => exists_step_balanced_iff s a h
  · trivial
  · simp [Balanced, start]

/-- A payment of a hundred to a user with ten and prepaid traffic for five bytes.  Between its two
steps ten bytes are charged, five of them to the balance: the charge is lost. -/
theorem charge_lost :
    let u : UserImpl := { Sample.user "user" with connected := true }
    let run : List CashAction := [.read 0 ⟨.rpcconfig, 100, Priv.full⟩,
      .addTraffStat ⟨Sample.env 1000, .up, 0, 1, 10⟩, .set 0 (Sample.env 1001)]
    (run.foldl (fun s a => s.bind (step · a)) (some (start u))).map
        (fun s => (s.user.cash, s.added, s.charged)) = some (110, 100, 5) ∧
    ¬ Transition.Maintains step Balanced (start u) run := by
  intro u run
  refine ⟨by decide +kernel, ?_⟩
  rintro ⟨-, s1, hs1, -, s2, hs2, -, s3, hs3, hbal⟩
  obtain rfl := Option.some.inj hs1
  obtain rfl := Option.some.inj hs2
  obtain rfl := Option.some.inj hs3
  refine (?_ : ¬ Balanced _) hbal
  decide +kernel

end CashSystem

end Stargazer
