import Stargazer.Lib.AssocMap
import Stargazer.Users.UserImpl
import Mathlib.Algebra.BigOperators.Group.Finset.Piecewise
import Mathlib.Tactic.Ring

set_option relaxedAutoImplicit false
set_option autoImplicit false

/-!
# Charging a user

`AddTraffStatU`, `AddTraffStatD` and `ProcessDayFee` of `user_impl.cpp`, and the conservation law
of prepaid traffic: along every run of traffic calls the prepaid traffic pays first, the balance
pays the rest, and the detailed statistics add up to what the balance paid.

## Main definitions

* `Stargazer.UserImpl.addTraffStatU`, `Stargazer.UserImpl.addTraffStatD` — a chunk of traffic.
* `Stargazer.UserImpl.dcU`, `Stargazer.UserImpl.dcD` — the price charged for the chunk.
* `Stargazer.UserImpl.processDayFee` — the monthly fee.
* `Stargazer.TraffCall`, `Stargazer.UserImpl.traffRun` — runs of traffic calls.

## Main results

* `Stargazer.UserImpl.traffRun_conserves` — prepaid traffic, balance and detailed statistics of a
  run of traffic calls.
-/

namespace Stargazer

/-! ## Detailed statistics -/

namespace TraffStat

/-- Add a chunk to the detailed statistics: a new line, or an update of the line of the key. -/
def addNode (ts : TraffStat) (idp : IPDirPair) (n : StatNode) : TraffStat :=
  match ts.lookup idp with
  | none => ts.insert idp n
  | some _ => ts.adjust idp fun o => ⟨o.up + n.up, o.down + n.down, o.cash + n.cash⟩

/-- The sum of the cash column. -/
def cashColumn (ts : TraffStat) : Money := ts.sumVal fun _ n => n.cash

/-- A chunk adds its cost to the cash column. -/
theorem cashColumn_addNode (ts : TraffStat) (idp : IPDirPair) (n : StatNode) :
    (ts.addNode idp n).cashColumn = ts.cashColumn + n.cash := by
  unfold addNode cashColumn
  split
  · next h => rw [AList.sumVal_insert _ _ h, add_comm]
  · next o h =>
    have hs := AList.sumVal_adjust (fun _ n => n.cash)
      (fun o => ⟨o.up + n.up, o.down + n.down, o.cash + n.cash⟩ : StatNode → StatNode) h
    simp only at hs
    linarith

/-- The cash entry of a line, zero if there is no such line. -/
def cashAt (ts : TraffStat) (idp : IPDirPair) : Money := (ts.lookup idp).elim 0 StatNode.cash

/-- A chunk adds its cost to the cash entry of its own line. -/
theorem cashAt_addNode (ts : TraffStat) (idp idp' : IPDirPair) (n : StatNode) :
    (ts.addNode idp n).cashAt idp' = ts.cashAt idp' + if idp' = idp then n.cash else 0 := by
  unfold addNode cashAt
  split
  · next h =>
    by_cases he : idp' = idp
    · subst he; simp [h]
    · simp [AList.lookup_insert_ne he, he]
  · next o h =>
    by_cases he : idp' = idp
    · subst he; simp [h]
    · simp [he]

end TraffStat

namespace UserImpl

/-! ## A chunk of traffic -/

/-- The price of a chunk of `len` bytes that moves the counters of a direction from `up`, `down`
to `up'`, `down'`.  A chunk that reaches the threshold is split there. -/
def chunkPrice (t : TariffImpl) (lt : Tm) (dir : Dir) (up down up' down' : BitVec 64)
    (len : BitVec 32) : Money :=
  let traff := t.getTraffByType up down
  let threshold := wrapInt32 (t.getThreshold dir * 1024 * 1024)
  if traff < threshold ∧ traff + len.toNat ≥ threshold then
    let before := threshold - traff
    let after := len.toNat - before
    t.getPriceWithTraffType up down dir lt * before +
      t.getPriceWithTraffType up' down' dir lt * after
  else t.getPriceWithTraffType up down dir lt * len.toNat

/-- What the balance pays of a price `dc` when `freeMb` prepaid traffic is left. -/
def trafficCost (freeMb dc : Money) : Money :=
  if freeMb ≤ 0 then dc else if freeMb < dc then dc - freeMb else 0

/-- Does the tariff charge an upload that moves the upload counter to `up'`? -/
def chargesU (t : TariffImpl) (up' down : BitVec 64) : Bool :=
  match t.tariffConf.traffType with
  | .up => true
  | .upDown => true
  | .max => decide (up' > down)
  | .down => false

/-- Does the tariff charge a download that moves the download counter to `down'`? -/
def chargesD (t : TariffImpl) (up down' : BitVec 64) : Bool :=
  match t.tariffConf.traffType with
  | .down => true
  | .upDown => true
  | .max => decide (up ≤ down')
  | .up => false

/-- The part `AddTraffStatU` and `AddTraffStatD` share: charge `dc` if the tariff charges the
chunk, move the counters, and add a line to the detailed statistics. -/
def addTraff (env : Env) (charged : Bool) (dc : Money) (count : UserImpl → UserImpl)
    (up down : BitVec 64) (idp : IPDirPair) (u : UserImpl) : UserImpl :=
  let cost := if charged then trafficCost u.freeMb dc else 0
  let u := if charged then { u with freeMb := u.freeMb - dc, cash := u.cash - cost } else u
  let u := count u
  let cost := if env.settings.writeFreeMbTraffCost = false ∧ u.freeMb ≥ 0 then 0 else cost
  { u with traffStat := u.traffStat.addNode idp ⟨up, down, cost⟩ }

/-- `UserImpl::AddTraffStatU`. -/
def addTraffStatU (env : Env) (dir : Dir) (ip : IP) (len : BitVec 32) (u : UserImpl) : UserImpl :=
  match u.tariff with
  | none => u
  | some t =>
    if u.connected then
      let n := len.setWidth 64
      let up' := u.up dir + n
      u.addTraff env (chargesU t up' (u.down dir))
        (chunkPrice t (env.localtime env.stgTime) dir (u.up dir) (u.down dir) up' (u.down dir) len)
        (fun u => { u with
          up := Function.update u.up dir up'
          sessionUpload := Function.update u.sessionUpload dir (u.sessionUpload dir + n) })
        n 0 ⟨ip, dir⟩
    else u

/-- `UserImpl::AddTraffStatD`. -/
def addTraffStatD (env : Env) (dir : Dir) (ip : IP) (len : BitVec 32) (u : UserImpl) : UserImpl :=
  match u.tariff with
  | none => u
  | some t =>
    if u.connected then
      let n := len.setWidth 64
      let down' := u.down dir + n
      u.addTraff env (chargesD t (u.up dir) down')
        (chunkPrice t (env.localtime env.stgTime) dir (u.up dir) (u.down dir) (u.up dir) down' len)
        (fun u => { u with
          down := Function.update u.down dir down'
          sessionDownload := Function.update u.sessionDownload dir (u.sessionDownload dir + n) })
        0 n ⟨ip, dir⟩
    else u

/-- The call a traffic counter makes on one side of a flow. -/
def addTraffStat (side : Side) (env : Env) (dir : Dir) (ip : IP) (len : BitVec 32)
    (u : UserImpl) : UserImpl :=
  match side with
  | .up => u.addTraffStatU env dir ip len
  | .down => u.addTraffStatD env dir ip len

/-- The price charged for an upload, zero where the tariff does not charge it. -/
def dcU (env : Env) (dir : Dir) (len : BitVec 32) (t : TariffImpl) (u : UserImpl) : Money :=
  let up' := u.up dir + len.setWidth 64
  if chargesU t up' (u.down dir) then
    chunkPrice t (env.localtime env.stgTime) dir (u.up dir) (u.down dir) up' (u.down dir) len
  else 0

/-- The price charged for a download, zero where the tariff does not charge it. -/
def dcD (env : Env) (dir : Dir) (len : BitVec 32) (t : TariffImpl) (u : UserImpl) : Money :=
  let down' := u.down dir + len.setWidth 64
  if chargesD t (u.up dir) down' then
    chunkPrice t (env.localtime env.stgTime) dir (u.up dir) (u.down dir) (u.up dir) down' len
  else 0

/-- The price charged for a chunk. -/
def dc (side : Side) (env : Env) (dir : Dir) (len : BitVec 32) (t : TariffImpl) (u : UserImpl) :
    Money :=
  match side with
  | .up => u.dcU env dir len t
  | .down => u.dcD env dir len t

/-! ## The monthly fee -/

/-- `daysInMonth` of `getPassiveTimePart`, by the number of the month. -/
def daysInMonth (mon : ℤ) : ℤ :=
  [31, 28, 31, 30, 31, 30, 31, 31, 30, 31, 30, 31].getD mon.toNat 0

/-- `UserImpl::getPassiveTimePart`: the part of the previous month the user was not frozen. -/
def getPassiveTimePart (env : Env) (u : UserImpl) : Money :=
  let tms := env.localtime env.stgTime
  let secMonth := daysInMonth ((tms.mon + 11) % 12) * 24 * 3600
  let secMonth := if tms.year % 4 = 0 ∧ tms.mon = 1 then secMonth + 24 * 3600 else secMonth
  let dt := secMonth - u.passiveTime
  let dt := if dt < 0 then 0 else dt
  (dt : Money) / secMonth

/-- `UserImpl::ResetPassiveTime`. -/
def resetPassiveTime (env : Env) (u : UserImpl) : UserImpl :=
  { u with passiveTime := 0, passiveTimeModTime := env.time }

/-- `UserImpl::SetPrepaidTraff`. -/
def setPrepaidTraff (u : UserImpl) : UserImpl :=
  match u.tariff with
  | none => u
  | some t => { u with freeMb := t.tariffConf.free }

/-- The decision of `switch (settings->GetFeeChargeType())`: is a fee of this amount charged? -/
def feeCharged (env : Env) (u : UserImpl) (fee : Money) : Bool :=
  match env.settings.feeChargeType with
  | 0 => true
  | 1 => decide (u.cash + u.credit ≥ 0)
  | 2 => decide (u.cash + u.credit ≥ fee)
  | 3 => decide (u.cash ≥ 0)
  | _ => false

/-- The fee `UserImpl::ProcessDayFee` computes, or `none` where it returns before. -/
def dayFee (env : Env) (u : UserImpl) : Option Money :=
  match u.tariff with
  | none => none
  | some t =>
    if t.tariffConf.period ≠ .month then none
    else if env.settings.fullFee then
      if u.passive ≠ 0 then none else some (t.getFee * 1)
    else some (t.getFee * u.getPassiveTimePart env)

/-- `UserImpl::ProcessDayFee`. -/
def processDayFee (env : Env) (u : UserImpl) : UserImpl :=
  match u.dayFee env with
  | none => u
  | some fee =>
    let u := u.resetPassiveTime env
    if |fee| < 1 / 1000 then u.setPrepaidTraff
    else if u.feeCharged env fee then (u.setCash env (u.cash - fee)).setPrepaidTraff
    else u

/-! ## Conservation -/

/-- What the balance pays, in closed form. -/
theorem trafficCost_eq (freeMb dc : Money) (h : 0 ≤ dc) :
    trafficCost freeMb dc = max 0 (dc - max freeMb 0) := by
  unfold trafficCost
  split_ifs with h1 h2
  · rw [max_eq_right h1, sub_zero, max_eq_right h]
  · rw [max_eq_left (not_le.mp h1).le, max_eq_right (by linarith)]
  · rw [max_eq_left (not_le.mp h1).le, max_eq_left (by linarith)]

/-- Paying two prices one after the other costs the balance what paying their sum costs. -/
theorem trafficCost_add (freeMb a b : Money) (ha : 0 ≤ a) (hb : 0 ≤ b) :
    trafficCost freeMb a + trafficCost (freeMb - a) b = trafficCost freeMb (a + b) := by
  unfold trafficCost
  split_ifs <;> linarith

/-- A tariff without negative prices never charges a negative price for a chunk.

**Proof sketch.** Where the chunk reaches the threshold, both of its parts are non-negative. -/
theorem chunkPrice_nonneg {t : TariffImpl} (ht : t.PricesNonneg) (lt : Tm) (dir : Dir)
    (up down up' down' : BitVec 64) (len : BitVec 32) :
    0 ≤ chunkPrice t lt dir up down up' down' len := by
  have hp := TariffImpl.getPriceWithTraffType_nonneg ht up down dir lt
  have hp' := TariffImpl.getPriceWithTraffType_nonneg ht up' down' dir lt
  unfold chunkPrice
  simp only
  split_ifs with h
  · obtain ⟨h1, h2⟩ := h
    have hbefore : (0 : Money) ≤ ((wrapInt32 (t.getThreshold dir * 1024 * 1024) -
        t.getTraffByType up down : ℤ) : Money) := by
      exact_mod_cast (by omega : (0 : ℤ) ≤ _)
    have hafter : (0 : Money) ≤ ((len.toNat - (wrapInt32 (t.getThreshold dir * 1024 * 1024) -
        t.getTraffByType up down) : ℤ) : Money) := by
      exact_mod_cast (by omega : (0 : ℤ) ≤ _)
    exact add_nonneg (mul_nonneg hp hbefore) (mul_nonneg hp' hafter)
  · exact mul_nonneg hp (Nat.cast_nonneg _)

/-- The price of a chunk is not negative. -/
theorem dc_nonneg {t : TariffImpl} (ht : t.PricesNonneg) (side : Side) (env : Env) (dir : Dir)
    (len : BitVec 32) (u : UserImpl) : 0 ≤ u.dc side env dir len t := by
  cases side
  all_goals
    simp only [dc, dcU, dcD]
    split_ifs
    · exact chunkPrice_nonneg ht _ _ _ _ _ _ _
    · exact le_rfl

/-- The cost written into the detailed statistics is the cost the balance paid, whatever the
setting: the test that suppresses it only succeeds when the balance paid nothing. -/
theorem lineCost_eq (w : Bool) (freeMb dc : Money) (h : 0 ≤ dc) :
    (if w = false ∧ freeMb - dc ≥ 0 then 0 else trafficCost freeMb dc) = trafficCost freeMb dc := by
  split_ifs with hw
  · unfold trafficCost
    split_ifs <;> linarith [hw.2]
  · rfl

/-- Nothing is paid for a price of zero. -/
theorem trafficCost_zero (freeMb : Money) : trafficCost freeMb 0 = 0 := by
  rw [trafficCost_eq _ _ le_rfl, max_eq_left]
  linarith [le_max_right freeMb 0]

/-- The three amounts the common part of the two calls moves, where `count` only moves counters. -/
theorem addTraff_amounts {count : UserImpl → UserImpl}
    (hcount : ∀ v : UserImpl, (count v).freeMb = v.freeMb ∧ (count v).cash = v.cash ∧
      (count v).traffStat = v.traffStat)
    (env : Env) (charged : Bool) (p : Money) (up down : BitVec 64) (idp : IPDirPair) (u : UserImpl)
    {d : Money} (hd : d = if charged then p else 0) (hd0 : 0 ≤ d) :
    (u.addTraff env charged p count up down idp).freeMb = u.freeMb - d ∧
    (u.addTraff env charged p count up down idp).cash = u.cash - trafficCost u.freeMb d ∧
    ∃ n : StatNode, n.cash = trafficCost u.freeMb d ∧
      (u.addTraff env charged p count up down idp).traffStat = u.traffStat.addNode idp n := by
  subst hd
  cases charged with
  | false =>
    obtain ⟨h1, h2, h3⟩ := hcount u
    refine ⟨?_, ?_, ⟨up, down, 0⟩, (trafficCost_zero _).symm, ?_⟩
    · simp [addTraff, h1]
    · simp [addTraff, h2, trafficCost_zero]
    · simp [addTraff, h3]
  | true =>
    simp only [if_true] at hd0
    obtain ⟨h1, h2, h3⟩ :=
      hcount { u with freeMb := u.freeMb - p, cash := u.cash - trafficCost u.freeMb p }
    refine ⟨?_, ?_, ⟨up, down, trafficCost u.freeMb p⟩, rfl, ?_⟩
    · simp [addTraff, h1]
    · simp [addTraff, h2]
    · simp only [addTraff, if_true, h1, h3, lineCost_eq _ _ _ hd0]

/-- What a chunk leaves alone. -/
theorem addTraffStat_frame (side : Side) (env : Env) (dir : Dir) (ip : IP) (len : BitVec 32)
    (u : UserImpl) :
    (u.addTraffStat side env dir ip len).login = u.login ∧
    (u.addTraffStat side env dir ip len).connected = u.connected ∧
    (u.addTraffStat side env dir ip len).tariff = u.tariff ∧
    (u.addTraffStat side env dir ip len).currIP = u.currIP ∧
    (u.addTraffStat side env dir ip len).authorizedBy = u.authorizedBy ∧
    (u.addTraffStat side env dir ip len).lastIPForDisconnect = u.lastIPForDisconnect ∧
    (u.addTraffStat side env dir ip len).sessionLog = u.sessionLog := by
  cases side
  all_goals
    simp only [addTraffStat, addTraffStatU, addTraffStatD]
    split
    · simp
    · split_ifs
      · simp only [addTraff]
        split_ifs <;> simp_all
      · simp_all

/-- What a chunk does to a connected user with a tariff. -/
theorem addTraffStat_amounts {u : UserImpl} {t : TariffImpl} (hc : u.connected = true)
    (ht : u.tariff = some t) (hp : t.PricesNonneg) (side : Side) (env : Env) (dir : Dir) (ip : IP)
    (len : BitVec 32) :
    (u.addTraffStat side env dir ip len).freeMb = u.freeMb - u.dc side env dir len t ∧
    (u.addTraffStat side env dir ip len).cash =
      u.cash - trafficCost u.freeMb (u.dc side env dir len t) ∧
    ∃ n : StatNode, n.cash = trafficCost u.freeMb (u.dc side env dir len t) ∧
      (u.addTraffStat side env dir ip len).traffStat = u.traffStat.addNode ⟨ip, dir⟩ n := by
  have hd := dc_nonneg hp side env dir len u
  cases side
  · simp only [addTraffStat, addTraffStatU, ht, hc, if_true]
    exact addTraff_amounts (fun _ => ⟨rfl, rfl, rfl⟩) env _ _ _ _ _ u rfl hd
  · simp only [addTraffStat, addTraffStatD, ht, hc, if_true]
    exact addTraff_amounts (fun _ => ⟨rfl, rfl, rfl⟩) env _ _ _ _ _ u rfl hd

end UserImpl

/-- A call of `AddTraffStatU` or `AddTraffStatD`, with the clock and settings it runs under. -/
structure TraffCall where
  /-- Clock and settings. -/
  env : Env
  /-- Which of the two functions. -/
  side : Side
  /-- The direction. -/
  dir : Dir
  /-- The remote address. -/
  ip : IP
  /-- The number of bytes. -/
  len : BitVec 32

namespace UserImpl

/-- A run of traffic calls. -/
def traffRun (u : UserImpl) (cs : List TraffCall) : UserImpl :=
  cs.foldl (fun u c => u.addTraffStat c.side c.env c.dir c.ip c.len) u

/-- The sum of the prices charged along a run, under the tariff `t`. -/
def totalDc (t : TariffImpl) : UserImpl → List TraffCall → Money
  | _, [] => 0
  | u, c :: cs =>
    u.dc c.side c.env c.dir c.len t + totalDc t (u.addTraffStat c.side c.env c.dir c.ip c.len) cs

/-- The lines of the detailed statistics a run creates or updates. -/
def touched (cs : List TraffCall) : Finset IPDirPair :=
  (cs.map fun c => (⟨c.ip, c.dir⟩ : IPDirPair)).toFinset

/-- The prices of a run add up to a non-negative amount. -/
theorem totalDc_nonneg {t : TariffImpl} (hp : t.PricesNonneg) (u : UserImpl)
    (cs : List TraffCall) : 0 ≤ u.totalDc t cs := by
  induction cs generalizing u with
  | nil => exact le_rfl
  | cons c cs ih => exact add_nonneg (dc_nonneg hp _ _ _ _ _) (ih _)

/-- The amounts a run moves, for any set of lines that contains the touched ones.

**Proof sketch.** Induction on the run.  One call moves the three amounts by the price of its
chunk (`addTraffStat_amounts`), and what the balance pays is additive in the price
(`trafficCost_add`). -/
theorem traffRun_amounts {t : TariffImpl} (hp : t.PricesNonneg) (K : Finset IPDirPair) :
    ∀ (cs : List TraffCall) (u : UserImpl), u.connected = true → u.tariff = some t →
      (∀ c ∈ cs, (⟨c.ip, c.dir⟩ : IPDirPair) ∈ K) →
      (u.traffRun cs).freeMb = u.freeMb - u.totalDc t cs ∧
      (u.traffRun cs).cash = u.cash - trafficCost u.freeMb (u.totalDc t cs) ∧
      (u.traffRun cs).traffStat.cashColumn =
        u.traffStat.cashColumn + trafficCost u.freeMb (u.totalDc t cs) ∧
      ∑ k ∈ K, (u.traffRun cs).traffStat.cashAt k =
        ∑ k ∈ K, u.traffStat.cashAt k + trafficCost u.freeMb (u.totalDc t cs) := by
  intro cs
  induction cs with
  | nil =>
    intro u _ _ _
    simp [traffRun, totalDc, trafficCost_zero]
  | cons c cs ih =>
    intro u hc ht hK
    obtain ⟨hf, hca, n, hn, hts⟩ := addTraffStat_amounts hc ht hp c.side c.env c.dir c.ip c.len
    obtain ⟨-, hc', ht', -⟩ := addTraffStat_frame c.side c.env c.dir c.ip c.len u
    set u' := u.addTraffStat c.side c.env c.dir c.ip c.len with hu'
    obtain ⟨ihf, ihc, ihcol, ihsum⟩ :=
      ih u' (hc'.trans hc) (ht'.trans ht) fun c' hc' => hK c' (List.mem_cons_of_mem _ hc')
    have hadd := trafficCost_add u.freeMb (u.dc c.side c.env c.dir c.len t) (u'.totalDc t cs)
      (dc_nonneg hp _ _ _ _ _) (totalDc_nonneg hp _ _)
    have hrun : u.traffRun (c :: cs) = u'.traffRun cs := rfl
    have htot : u.totalDc t (c :: cs) = u.dc c.side c.env c.dir c.len t + u'.totalDc t cs := rfl
    rw [hf] at ihf ihc ihcol ihsum
    rw [hrun, htot, ← hadd]
    refine ⟨by rw [ihf]; ring, by rw [ihc, hca]; ring, ?_, ?_⟩
    · rw [ihcol, hts, TraffStat.cashColumn_addNode, hn]; ring
    · have hkey : (⟨c.ip, c.dir⟩ : IPDirPair) ∈ K := hK c List.mem_cons_self
      rw [ihsum, hts]
      simp only [TraffStat.cashAt_addNode, Finset.sum_add_distrib, Finset.sum_ite_eq', hkey,
        if_true, hn]
      ring

/-- **Prepaid traffic and cash conservation.** Along every run of `AddTraffStatU` and
`AddTraffStatD` calls on a connected user, whatever the settings, times, directions, addresses and
lengths: with `D` the sum of the prices of the chunks, the prepaid traffic decreases by `D`, the
balance decreases by the part of `D` the prepaid traffic does not cover, and the cash entries of
the lines of the detailed statistics the run creates or updates grow by what the balance paid; so
does the whole cash column.

**Proof sketch.** `traffRun_amounts` for the touched lines, and the closed form of what the
balance pays. -/
theorem traffRun_conserves (u : UserImpl) (t : TariffImpl) (cs : List TraffCall)
    (hc : u.connected = true) (ht : u.tariff = some t) (hp : t.PricesNonneg) :
    (u.traffRun cs).freeMb = u.freeMb - u.totalDc t cs ∧
    u.cash - (u.traffRun cs).cash = max 0 (u.totalDc t cs - max u.freeMb 0) ∧
    (∑ k ∈ touched cs, ((u.traffRun cs).traffStat.cashAt k - u.traffStat.cashAt k)) =
      u.cash - (u.traffRun cs).cash ∧
    (u.traffRun cs).traffStat.cashColumn - u.traffStat.cashColumn =
      u.cash - (u.traffRun cs).cash := by
  obtain ⟨hf, hca, hcol, hsum⟩ := traffRun_amounts hp (touched cs) cs u hc ht fun c hc =>
    List.mem_toFinset.mpr (List.mem_map.mpr ⟨c, hc, rfl⟩)
  refine ⟨hf, ?_, ?_, ?_⟩
  · rw [hca, trafficCost_eq _ _ (totalDc_nonneg hp u cs)]; ring
  · rw [Finset.sum_sub_distrib, hsum, hca]; ring
  · rw [hcol, hca]; ring

/-- Three bytes up and four bytes down at one unit a byte, with prepaid traffic for five of
them: the balance pays two units, and so say the detailed statistics. -/
theorem traffRun_conserves_sample :
    let u : UserImpl := { Sample.user "user" with connected := true }
    let cs : List TraffCall := [⟨Sample.env 1000, .up, 0, 1, 3⟩, ⟨Sample.env 1001, .down, 0, 1, 4⟩]
    u.totalDc Sample.tariff cs = 7 ∧ (u.traffRun cs).cash = 8 ∧
    (u.traffRun cs).freeMb = u.freeMb - u.totalDc Sample.tariff cs ∧
    u.cash - (u.traffRun cs).cash = max 0 (u.totalDc Sample.tariff cs - max u.freeMb 0) ∧
    (∑ k ∈ touched cs, ((u.traffRun cs).traffStat.cashAt k - u.traffStat.cashAt k)) =
      u.cash - (u.traffRun cs).cash ∧
    (u.traffRun cs).traffStat.cashColumn - u.traffStat.cashColumn =
      u.cash - (u.traffRun cs).cash :=
  ⟨by decide +kernel, by decide +kernel,
    traffRun_conserves _ Sample.tariff _ rfl rfl Sample.tariff_pricesNonneg⟩

end UserImpl

end Stargazer
