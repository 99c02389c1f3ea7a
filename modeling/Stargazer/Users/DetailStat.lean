import Stargazer.Users.Billing
import Mathlib.Algebra.Group.Prod

set_option relaxedAutoImplicit false
set_option autoImplicit false

/-!
# Writing the detailed statistics

`UserImpl::WriteDetailStat` of `user_impl.cpp`: the lines collected by `AddTraffStatU` and
`AddTraffStatD` are handed to the store from time to time.  The store may fail; what it did not
take waits in a queue of one element, and is tried again before anything new is written.

The lines live in three places, the map of the user, the queue and the store.  For each key the
amounts in the three places together are what was there at the beginning and what the traffic
calls added.

## Main definitions

* `Stargazer.DetailUser` — a user with the queue and what the store recorded.
* `Stargazer.DetailUser.writeDetailStat` — `WriteDetailStat`.
* `Stargazer.UserImpl.traffLine` — the line a traffic call adds.
* `Stargazer.DetailUser.held` — an amount in the three places together.

## Main results

* `Stargazer.DetailUser.held_writeDetailStat` — writing moves amounts and changes no sum.
* `Stargazer.DetailUser.detailRun_conserves` — runs of traffic calls and writes.
-/

namespace Stargazer

namespace UserImpl

/-- What a chunk of the price `price` writes into the column `cash`. -/
def lineCost (env : Env) (charged : Bool) (price : Money) (u : UserImpl) : Money :=
  let freeMb := if charged then u.freeMb - price else u.freeMb
  if env.settings.writeFreeMbTraffCost = false ∧ freeMb ≥ 0 then 0
  else if charged then trafficCost u.freeMb price else 0

/-- The line a traffic call adds, `none` if it adds nothing. -/
def traffLine (c : TraffCall) (u : UserImpl) : Option StatNode :=
  match u.tariff with
  | none => none
  | some t =>
    if u.connected then
      let n := c.len.setWidth 64
      let lt := c.env.localtime c.env.stgTime
      match c.side with
      | .up =>
        let up' := u.up c.dir + n
        some ⟨n, 0, u.lineCost c.env (chargesU t up' (u.down c.dir))
          (chunkPrice t lt c.dir (u.up c.dir) (u.down c.dir) up' (u.down c.dir) c.len)⟩
      | .down =>
        let down' := u.down c.dir + n
        some ⟨0, n, u.lineCost c.env (chargesD t (u.up c.dir) down')
          (chunkPrice t lt c.dir (u.up c.dir) (u.down c.dir) (u.up c.dir) down' c.len)⟩
    else none

/-- The common part of the two traffic calls adds one line, where `count` only moves counters. -/
theorem addTraff_traffStat {count : UserImpl → UserImpl}
    (hcount : ∀ v : UserImpl, (count v).freeMb = v.freeMb ∧ (count v).traffStat = v.traffStat)
    (env : Env) (charged : Bool) (price : Money) (up down : BitVec 64) (idp : IPDirPair)
    (u : UserImpl) :
    (u.addTraff env charged price count up down idp).traffStat =
      u.traffStat.addNode idp ⟨up, down, u.lineCost env charged price⟩ := by
  cases charged with
  | false =>
    obtain ⟨h1, h2⟩ := hcount u
    simp only [addTraff, lineCost, Bool.false_eq_true, if_false, h1, h2]
  | true =>
    obtain ⟨h1, h2⟩ :=
      hcount { u with freeMb := u.freeMb - price, cash := u.cash - trafficCost u.freeMb price }
    simp only [addTraff, lineCost, if_true, h1, h2]

/-- **What a traffic call does to the detailed statistics.** -/
theorem addTraffStat_traffStat (c : TraffCall) (u : UserImpl) :
    (u.addTraffStat c.side c.env c.dir c.ip c.len).traffStat =
      match u.traffLine c with
      | none => u.traffStat
      | some n => u.traffStat.addNode ⟨c.ip, c.dir⟩ n := by
  obtain ⟨env, side, dir, ip, len⟩ := c
  cases ht : u.tariff with
  | none => cases side <;> simp only [addTraffStat, addTraffStatU, addTraffStatD, traffLine, ht]
  | some t =>
    cases hc : u.connected with
    | false =>
      cases side <;>
        simp only [addTraffStat, addTraffStatU, addTraffStatD, traffLine, ht, hc,
          Bool.false_eq_true, if_false]
    | true =>
      cases side
      all_goals
        simp only [addTraffStat, addTraffStatU, addTraffStatD, traffLine, ht, hc, if_true]
        exact addTraff_traffStat (fun _ => ⟨rfl, rfl⟩) _ _ _ _ _ _ u

end UserImpl

/-! ## Writing -/

/-- A user, as far as `WriteDetailStat` sees it, and what the store recorded. -/
structure DetailUser where
  /-- The user, with the lines that have not been written. -/
  user : UserImpl
  /-- `traffStatSaved`. -/
  traffStatSaved : Time × TraffStat
  /-- `lastWriteDetailedStat`. -/
  lastWriteDetailedStat : Time
  /-- `disabledDetailStat`. -/
  disabledDetailStat : ℤ
  /-- The calls of the store's `WriteDetailedStat` that succeeded: the time and the lines. -/
  recorded : List (Time × TraffStat)

/-- Is a map of lines not empty? -/
def TraffStat.hasLines (ts : TraffStat) : Bool := !ts.entries.isEmpty

namespace DetailUser

/-- The first part of `WriteDetailStat`: the queue, if there is something in it; `none` where the
function returns.  `ok` tells whether the store takes the lines. -/
def writeSaved (ok : Bool) (d : DetailUser) : Option DetailUser :=
  if d.traffStatSaved.2.hasLines then
    if ok then
      some { d with
        recorded := d.recorded ++ [d.traffStatSaved]
        traffStatSaved := (d.traffStatSaved.1, ∅) }
    else none
  else some d

/-- The second part of `WriteDetailStat`: the lines taken from the user.  `ok` tells whether the
store takes them. -/
def writeCurrent (stgTime : Time) (hard ok : Bool) (d : DetailUser) : ℤ × DetailUser :=
  let ts := d.user.traffStat
  let d := { d with user := { d.user with traffStat := ∅ } }
  if ts.hasLines ∧ d.disabledDetailStat = 0 then
    if ok then
      (0, { d with
        recorded := d.recorded ++ [(d.lastWriteDetailedStat, ts)]
        lastWriteDetailedStat := stgTime })
    else if hard then (-1, d)
    else (-1, { d with traffStatSaved := (d.lastWriteDetailedStat, ts) })
  else (0, { d with lastWriteDetailedStat := stgTime })

/-- `UserImpl::WriteDetailStat`.  `okSaved` and `okCurrent` tell whether the store takes the lines of
the queue and those of the user. -/
def writeDetailStat (stgTime : Time) (hard okSaved okCurrent : Bool) (d : DetailUser) :
    ℤ × DetailUser :=
  match d.writeSaved okSaved with
  | none => (-1, d)
  | some d => d.writeCurrent stgTime hard okCurrent

end DetailUser

/-- A call of one of the three functions. -/
inductive DetailAction
  /-- `AddTraffStatU` or `AddTraffStatD`. -/
  | addTraffStat (c : TraffCall)
  /-- `WriteDetailStat(false)`, with the clock and the outcomes of the two calls of the store. -/
  | writeDetailStat (stgTime : Time) (okSaved okCurrent : Bool)

namespace DetailUser

/-- What a call does. -/
def step (d : DetailUser) : DetailAction → DetailUser
  | .addTraffStat c =>
    { d with user := d.user.addTraffStat c.side c.env c.dir c.ip c.len }
  | .writeDetailStat stgTime okSaved okCurrent =>
    (d.writeDetailStat stgTime false okSaved okCurrent).2

/-- A run of calls. -/
def detailRun (d : DetailUser) (as : List DetailAction) : DetailUser := as.foldl step d

/-- An amount in the three places together. -/
def held {M : Type*} [AddCommMonoid M] (amount : TraffStat → M) (d : DetailUser) : M :=
  (d.recorded.map fun r => amount r.2).sum + amount d.traffStatSaved.2 + amount d.user.traffStat

end DetailUser

/-! ## Amounts -/

namespace StatNode

/-- The three columns of a line: bytes modulo 2^64, and money. -/
def columns (n : StatNode) : BitVec 64 × BitVec 64 × Money := (n.up, n.down, n.cash)

/-- The bytes of a line, as a number. -/
def bytes (side : Side) (n : StatNode) : ℕ :=
  match side with
  | .up => n.up.toNat
  | .down => n.down.toNat

end StatNode

namespace TraffStat

/-- An amount of the line of a key, zero if there is no such line. -/
def amountAt {M : Type*} [Zero M] (f : StatNode → M) (k : IPDirPair) (ts : TraffStat) : M :=
  (ts.lookup k).elim 0 f

@[simp] theorem amountAt_empty {M : Type*} [Zero M] (f : StatNode → M) (k : IPDirPair) :
    amountAt f k ∅ = 0 := rfl

/-- A map without lines is the empty map. -/
theorem eq_empty_of_hasLines {ts : TraffStat} (h : ts.hasLines = false) : ts = ∅ := by
  apply AList.ext
  simpa [hasLines] using h

/-- A line is added to the columns of its own key. -/
theorem columns_addNode (ts : TraffStat) (idp k : IPDirPair) (n : StatNode) :
    (ts.addNode idp n).amountAt StatNode.columns k =
      ts.amountAt StatNode.columns k + if k = idp then n.columns else 0 := by
  unfold addNode amountAt
  split
  · next h =>
    by_cases he : k = idp
    · subst he; simp [h]
    · simp [AList.lookup_insert_ne he, he]
  · next o h =>
    by_cases he : k = idp
    · subst he; simp [h, StatNode.columns]
    · simp [he]

/-- A line is added to the bytes of its own key, as long as the counter does not wrap around. -/
theorem bytes_addNode (side : Side) (ts : TraffStat) (idp k : IPDirPair) (n : StatNode)
    (h : k = idp → ts.amountAt (StatNode.bytes side) k + n.bytes side < 2 ^ 64) :
    (ts.addNode idp n).amountAt (StatNode.bytes side) k =
      ts.amountAt (StatNode.bytes side) k + if k = idp then n.bytes side else 0 := by
  unfold addNode amountAt
  unfold amountAt at h
  split
  · next hl =>
    by_cases he : k = idp
    · subst he; simp [hl]
    · simp [AList.lookup_insert_ne he, he]
  · next o hl =>
    by_cases he : k = idp
    · replace h := h he
      subst he
      rw [hl] at h ⊢
      cases side
      all_goals
        simp only [Option.elim_some, StatNode.bytes] at h
        simp only [AList.lookup_adjust, if_true, hl, Option.map_some, Option.elim_some,
          StatNode.bytes, BitVec.toNat_add]
        exact Nat.mod_eq_of_lt h
    · simp [he]

end TraffStat

namespace DetailUser

variable {M : Type*} [AddCommMonoid M]

/-- What a call adds to an amount of a key. -/
def addedBy (f : StatNode → M) (k : IPDirPair) (d : DetailUser) : DetailAction → M
  | .addTraffStat c => if k = ⟨c.ip, c.dir⟩ then (d.user.traffLine c).elim 0 f else 0
  | .writeDetailStat _ _ _ => 0

/-- What a run of calls adds to an amount of a key. -/
def added (f : StatNode → M) (k : IPDirPair) : DetailUser → List DetailAction → M
  | _, [] => 0
  | d, a :: as => d.addedBy f k a + added f k (d.step a) as

/-- The first part changes no sum, and leaves nothing in the queue. -/
theorem held_writeSaved (f : StatNode → M) (k : IPDirPair) {ok : Bool} {d d' : DetailUser}
    (h : d.writeSaved ok = some d') :
    d'.held (TraffStat.amountAt f k) = d.held (TraffStat.amountAt f k) ∧
      d'.traffStatSaved.2 = ∅ ∧ d'.disabledDetailStat = d.disabledDetailStat := by
  simp only [writeSaved] at h
  split_ifs at h with hlines hok
  · obtain rfl := Option.some.inj h
    refine ⟨?_, rfl, rfl⟩
    simp only [held, List.map_append, List.map_cons, List.map_nil, List.sum_append,
      List.sum_singleton, TraffStat.amountAt_empty, add_zero]
  · obtain rfl := Option.some.inj h
    exact ⟨rfl, TraffStat.eq_empty_of_hasLines (by simpa using hlines), rfl⟩

/-- The second part changes no sum, if nothing is left in the queue: what the store does not take
goes there. -/
theorem held_writeCurrent (f : StatNode → M) (k : IPDirPair) (stgTime : Time) (ok : Bool)
    {d : DetailUser} (hq : d.traffStatSaved.2 = ∅) (hd : d.disabledDetailStat = 0) :
    (d.writeCurrent stgTime false ok).2.held (TraffStat.amountAt f k) =
      d.held (TraffStat.amountAt f k) := by
  simp only [writeCurrent, hd, and_true, Bool.false_eq_true, if_false]
  split_ifs with hlines hok
  · simp only [held, hq, List.map_append, List.map_cons, List.map_nil, List.sum_append,
      List.sum_singleton, TraffStat.amountAt_empty, add_zero]
  · simp only [held, hq, TraffStat.amountAt_empty, add_zero]
  · have : d.user.traffStat = ∅ := TraffStat.eq_empty_of_hasLines (by simpa using hlines)
    simp only [held, this]

/-- **Writing changes no sum**: what leaves one of the three places arrives in another one. -/
theorem held_writeDetailStat (f : StatNode → M) (k : IPDirPair) (d : DetailUser)
    (hd : d.disabledDetailStat = 0) (stgTime : Time) (okSaved okCurrent : Bool) :
    (d.writeDetailStat stgTime false okSaved okCurrent).2.held (TraffStat.amountAt f k) =
      d.held (TraffStat.amountAt f k) := by
  unfold writeDetailStat
  split
  · rfl
  · next d' h =>
    obtain ⟨hheld, hq, hd'⟩ := held_writeSaved f k h
    rw [held_writeCurrent f k stgTime okCurrent hq (hd'.trans hd), hheld]

/-- Writing does not touch the switch. -/
theorem step_disabledDetailStat (d : DetailUser) (a : DetailAction) :
    (d.step a).disabledDetailStat = d.disabledDetailStat := by
  cases a with
  | addTraffStat c => rfl
  | writeDetailStat stgTime okSaved okCurrent =>
    have hcurrent (d' : DetailUser) :
        (d'.writeCurrent stgTime false okCurrent).2.disabledDetailStat = d'.disabledDetailStat := by
      simp only [writeCurrent]
      split_ifs <;> rfl
    simp only [step, writeDetailStat]
    split
    · rfl
    · next d' h => rw [hcurrent, (held_writeSaved StatNode.columns ⟨0, 0⟩ h).2.2]

/-- A call adds its line to the columns. -/
theorem held_columns_step (k : IPDirPair) (d : DetailUser) (hd : d.disabledDetailStat = 0)
    (a : DetailAction) :
    (d.step a).held (TraffStat.amountAt StatNode.columns k) =
      d.held (TraffStat.amountAt StatNode.columns k) + d.addedBy StatNode.columns k a := by
  cases a with
  | addTraffStat c =>
    simp only [step, held, addedBy, UserImpl.addTraffStat_traffStat]
    cases d.user.traffLine c with
    | none => simp
    | some n => rw [TraffStat.columns_addNode, Option.elim_some, ← add_assoc]
  | writeDetailStat stgTime okSaved okCurrent =>
    rw [addedBy, add_zero]
    exact held_writeDetailStat StatNode.columns k d hd stgTime okSaved okCurrent

/-- A call adds its line to the bytes, as long as the counters do not wrap around. -/
theorem held_bytes_step (side : Side) (k : IPDirPair) (d : DetailUser)
    (hd : d.disabledDetailStat = 0) (a : DetailAction)
    (h : d.held (TraffStat.amountAt (StatNode.bytes side) k) +
      d.addedBy (StatNode.bytes side) k a < 2 ^ 64) :
    (d.step a).held (TraffStat.amountAt (StatNode.bytes side) k) =
      d.held (TraffStat.amountAt (StatNode.bytes side) k) +
        d.addedBy (StatNode.bytes side) k a := by
  cases a with
  | addTraffStat c =>
    simp only [step, held, addedBy, UserImpl.addTraffStat_traffStat] at h ⊢
    cases hl : d.user.traffLine c with
    | none => simp
    | some n =>
      have hfit (hk : k = ⟨c.ip, c.dir⟩) :
          d.user.traffStat.amountAt (StatNode.bytes side) k + n.bytes side < 2 ^ 64 := by
        rw [hl, Option.elim_some, if_pos hk] at h
        omega
      rw [TraffStat.bytes_addNode side _ _ _ n hfit, Option.elim_some, ← add_assoc]
  | writeDetailStat stgTime okSaved okCurrent =>
    rw [addedBy, add_zero]
    exact held_writeDetailStat (StatNode.bytes side) k d hd stgTime okSaved okCurrent

/-- The columns after a run.

**Proof sketch.** Induction on the run; `held_columns_step` is one call. -/
theorem held_columns_detailRun (k : IPDirPair) (as : List DetailAction) (d : DetailUser)
    (hd : d.disabledDetailStat = 0) :
    (d.detailRun as).held (TraffStat.amountAt StatNode.columns k) =
      d.held (TraffStat.amountAt StatNode.columns k) + d.added StatNode.columns k as := by
  induction as generalizing d with
  | nil => exact (add_zero _).symm
  | cons a as ih =>
    have := ih (d.step a) ((step_disabledDetailStat d a).trans hd)
    rw [held_columns_step k d hd a, add_assoc] at this
    exact this

/-- The bytes after a run, as long as the counters do not wrap around. -/
theorem held_bytes_detailRun (side : Side) (k : IPDirPair) (as : List DetailAction)
    (d : DetailUser) (hd : d.disabledDetailStat = 0)
    (h : d.held (TraffStat.amountAt (StatNode.bytes side) k) + d.added (StatNode.bytes side) k as <
      2 ^ 64) :
    (d.detailRun as).held (TraffStat.amountAt (StatNode.bytes side) k) =
      d.held (TraffStat.amountAt (StatNode.bytes side) k) + d.added (StatNode.bytes side) k as := by
  induction as generalizing d with
  | nil => exact (add_zero _).symm
  | cons a as ih =>
    rw [added, ← add_assoc] at h
    have hstep := held_bytes_step side k d hd a (by omega)
    have := ih (d.step a) ((step_disabledDetailStat d a).trans hd) (by rw [hstep]; exact h)
    rw [hstep, add_assoc] at this
    exact this

/-- **Detailed statistics are neither lost nor duplicated.** Along every run of traffic calls and of
`WriteDetailStat(false)` on a user whose detailed statistics are not disabled, whatever the store
takes and whatever it fails to take, for every key the columns recorded by the store, waiting in
the queue and held by the user add up to what they were and what the calls added; so do the bytes
as numbers, as long as a counter of 64 bits can hold them. -/
theorem detailRun_conserves (d : DetailUser) (as : List DetailAction)
    (hd : d.disabledDetailStat = 0) (k : IPDirPair) :
    (d.detailRun as).held (TraffStat.amountAt StatNode.columns k) =
      d.held (TraffStat.amountAt StatNode.columns k) + d.added StatNode.columns k as ∧
    ∀ side, d.held (TraffStat.amountAt (StatNode.bytes side) k) +
        d.added (StatNode.bytes side) k as < 2 ^ 64 →
      (d.detailRun as).held (TraffStat.amountAt (StatNode.bytes side) k) =
        d.held (TraffStat.amountAt (StatNode.bytes side) k) + d.added (StatNode.bytes side) k as :=
  ⟨held_columns_detailRun k as d hd, fun side => held_bytes_detailRun side k as d hd⟩

/-- A sample run: the store fails, then takes what waits in the queue and fails again. -/
theorem detailRun_conserves_sample :
    let d : DetailUser := ⟨{ Sample.user "user" with connected := true }, (0, ∅), 0, 0, []⟩
    let as : List DetailAction := [.addTraffStat ⟨Sample.env 1000, .up, 0, 1, 3⟩,
      .writeDetailStat 1001 true false, .addTraffStat ⟨Sample.env 1002, .up, 0, 1, 4⟩,
      .writeDetailStat 1003 true false]
    (d.detailRun as).recorded.length = 1 ∧
    (d.detailRun as).held (TraffStat.amountAt (StatNode.bytes .up) ⟨1, 0⟩) = 7 := by
  refine ⟨by decide +kernel, ?_⟩
  rw [(detailRun_conserves _ _ rfl ⟨1, 0⟩).2 .up (by decide +kernel)]
  decide +kernel

end DetailUser

end Stargazer
