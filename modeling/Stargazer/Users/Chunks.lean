import Stargazer.Users.Billing
import Stargazer.Tariffs.Prices

set_option relaxedAutoImplicit false
set_option autoImplicit false

/-!
# Chunks of traffic and the threshold

`AddTraffStatU` and `AddTraffStatD` split a chunk at the product `threshold * 1024 * 1024`, an `int`,
while the price of a byte changes where the whole megabytes of the traffic exceed the threshold, one
megabyte later.  This module says what the two readings of the threshold do to the price of a chunk
and to the sum of the prices of two chunks.

## Main definitions

* `Stargazer.Passes` — a chunk passes a position.
* `Stargazer.TariffImpl.splitPoint` — the product the calls compare with.
* `Stargazer.UserImpl.CrossesThreshold` — the branch that splits a chunk.
* `Stargazer.chunkBill` — the price of a chunk in closed form.
* `Stargazer.UserImpl.PaysAlike` — two prices are paid like their sum.

## Main results

* `Stargazer.UserImpl.crossesThreshold_agrees_iff` — when the two readings agree.
* `Stargazer.UserImpl.sameBilling_iff` — when two chunks are billed like one.
-/

namespace Stargazer

/-! ## Positions -/

/-- A chunk of `n` bytes that starts at `x` passes the position `p`. -/
def Passes (x : ℤ) (n : ℕ) (p : ℤ) : Prop := x < p ∧ p ≤ x + n

instance (x : ℤ) (n : ℕ) (p : ℤ) : Decidable (Passes x n p) := inferInstanceAs (Decidable (_ ∧ _))

/-- A counter read as a signed number, after a chunk. -/
theorem toInt_add_setWidth (w : BitVec 64) (len : BitVec 32) :
    (w + len.setWidth 64).toInt =
      if w.toInt + len.toNat < 2 ^ 63 then w.toInt + len.toNat
      else w.toInt + len.toNat - 2 ^ 64 := by
  have hlen := len.isLt
  have hw := w.isLt
  simp only [BitVec.toInt_eq_toNat_cond, BitVec.toNat_add, BitVec.toNat_setWidth]
  split_ifs <;> omega

/-- The 32-bit value of an expression is in range. -/
theorem wrapInt32_bounds (z : ℤ) : -2 ^ 31 ≤ wrapInt32 z ∧ wrapInt32 z < 2 ^ 31 := by
  unfold wrapInt32
  rw [BitVec.toInt_ofInt]
  simp only [Int.bmod]
  omega

/-- The 32-bit value of an expression differs from it by a multiple of `2 ^ 32`. -/
theorem wrapInt32_eq (z : ℤ) : ∃ k : ℤ, wrapInt32 z = z - k * 2 ^ 32 := by
  refine ⟨(z - wrapInt32 z) / 2 ^ 32, ?_⟩
  unfold wrapInt32
  rw [BitVec.toInt_ofInt]
  simp only [Int.bmod]
  omega

/-- A value in range is not changed. -/
theorem wrapInt32_of_lt {z : ℤ} (h1 : -2 ^ 31 ≤ z) (h2 : z < 2 ^ 31) : wrapInt32 z = z := by
  unfold wrapInt32
  rw [BitVec.toInt_ofInt]
  simp only [Int.bmod]
  omega

/-- Where the traffic gets above a threshold that is an `int`. -/
theorem firstAbove_bounds {thr : ℤ} (h1 : -2 ^ 31 ≤ thr) (h2 : thr < 2 ^ 31) :
    -2 ^ 51 < firstAbove thr ∧ firstAbove thr ≤ 2 ^ 51 := by
  unfold firstAbove
  split_ifs <;> omega

namespace TariffImpl

/-- The threshold of a direction in bytes, as the traffic calls compute it. -/
def splitPoint (t : TariffImpl) (dir : Dir) : ℤ := wrapInt32 (t.getThreshold dir * 1024 * 1024)

/-- The split point is an `int`. -/
theorem splitPoint_bounds (t : TariffImpl) (dir : Dir) :
    -2 ^ 31 ≤ t.splitPoint dir ∧ t.splitPoint dir < 2 ^ 31 :=
  wrapInt32_bounds _

/-- Does the traffic type of the tariff count the side? -/
def counts (t : TariffImpl) (side : Side) : Bool :=
  match t.tariffConf.traffType, side with
  | .up, .down => false
  | .down, .up => false
  | _, _ => true

end TariffImpl

/-! ## The counters after a chunk -/

/-- The upload counter after a chunk on a side. -/
def upAfter (side : Side) (up : BitVec 64) (len : BitVec 32) : BitVec 64 :=
  match side with
  | .up => up + len.setWidth 64
  | .down => up

/-- The download counter after a chunk on a side. -/
def downAfter (side : Side) (down : BitVec 64) (len : BitVec 32) : BitVec 64 :=
  match side with
  | .up => down
  | .down => down + len.setWidth 64

namespace TariffImpl

/-- The traffic that counts, after a chunk. -/
theorem getTraffByType_after {t : TariffImpl} (hmax : t.tariffConf.traffType ≠ .max) (side : Side)
    (up down : BitVec 64) (len : BitVec 32) :
    t.getTraffByType (upAfter side up len) (downAfter side down len) =
      if t.counts side = true then
        if t.getTraffByType up down + len.toNat < 2 ^ 63 then t.getTraffByType up down + len.toNat
        else t.getTraffByType up down + len.toNat - 2 ^ 64
      else t.getTraffByType up down := by
  unfold getTraffByType counts
  cases htt : t.tariffConf.traffType with
  | max => exact absurd htt hmax
  | up =>
    cases side with
    | up => exact toInt_add_setWidth up len
    | down => rfl
  | down =>
    cases side with
    | up => rfl
    | down => exact toInt_add_setWidth down len
  | upDown =>
    cases side with
    | up =>
      simp only [upAfter, downAfter]
      rw [show up + len.setWidth 64 + down = up + down + len.setWidth 64 by ac_rfl,
        toInt_add_setWidth]
      rfl
    | down =>
      simp only [upAfter, downAfter, ← BitVec.add_assoc]
      rw [toInt_add_setWidth]
      rfl

/-- The traffic that counts is a signed 64-bit number. -/
theorem getTraffByType_bounds (t : TariffImpl) (up down : BitVec 64) :
    -2 ^ 63 ≤ t.getTraffByType up down ∧ t.getTraffByType up down < 2 ^ 63 := by
  have hb : ∀ w : BitVec 64, -2 ^ 63 ≤ w.toInt ∧ w.toInt < 2 ^ 63 := fun w =>
    ⟨by simpa using w.le_toInt, by simpa using w.toInt_lt⟩
  unfold getTraffByType
  split <;> exact hb _

end TariffImpl

/-! ## The price of a chunk -/

/-- The price of a chunk of `n` bytes that starts at `x`, in closed form: `below` and `above` are the
prices, `s` is where the calls split a chunk and `m` where the price changes.  Only a chunk that
passes both is split. -/
def chunkBill (below above : Money) (s m x : ℤ) (n : ℕ) : Money :=
  if Passes x n s ∧ Passes x n m then below * (s - x : ℤ) + above * (x + n - s : ℤ)
  else if m ≤ x then above * n
  else below * n

namespace UserImpl

/-- The bill of a chunk of a tariff, zero where the tariff does not count the side. -/
def bill (t : TariffImpl) (lt : Tm) (dir : Dir) (side : Side) (x : ℤ) (n : ℕ) : Money :=
  if t.counts side = true then
    chunkBill (t.priceBelow dir lt) (t.upperPrice dir lt) (t.splitPoint dir)
      (firstAbove (t.getThreshold dir)) x n
  else 0

/-- **The price of a chunk in closed form.**

**Proof sketch.** A chunk that passes the split point is nowhere near the end of the 64-bit range, so
the traffic after it is the sum.  If the price does not change inside it, both of its parts have the
same price. -/
theorem chunkPrice_eq {t : TariffImpl} (hmax : t.tariffConf.traffType ≠ .max) {side : Side}
    (hc : t.counts side = true) (lt : Tm) (dir : Dir) (up down : BitVec 64) (len : BitVec 32) :
    chunkPrice t lt dir up down (upAfter side up len) (downAfter side down len) len =
      chunkBill (t.priceBelow dir lt) (t.upperPrice dir lt) (t.splitPoint dir)
        (firstAbove (t.getThreshold dir)) (t.getTraffByType up down) len.toNat := by
  have hs := t.splitPoint_bounds dir
  have hlen := len.isLt
  unfold chunkPrice chunkBill
  rw [show wrapInt32 (t.getThreshold dir * 1024 * 1024) = t.splitPoint dir from rfl]
  simp only [TariffImpl.getPriceWithTraffType_eq, TariffImpl.getTraffByType_after hmax, hc, if_true]
  generalize t.getTraffByType up down = x
  generalize t.splitPoint dir = s at hs
  generalize firstAbove (t.getThreshold dir) = m
  by_cases hp : x < s ∧ s ≤ x + len.toNat
  · have hlt : x + (len.toNat : ℤ) < 2 ^ 63 := by omega
    rw [if_pos hp, if_pos hlt]
    by_cases hm : m ≤ x
    · have hnp : ¬Passes x len.toNat m := fun h => absurd h.1 (not_lt.mpr hm)
      rw [if_pos hm, if_pos (by omega), if_neg fun h => hnp h.2, if_pos hm]
      push_cast
      ring
    · by_cases hm' : m ≤ x + len.toNat
      · rw [if_neg hm, if_pos hm', if_pos ⟨hp, not_le.mp hm, hm'⟩]
        push_cast
        ring
      · rw [if_neg hm, if_neg hm', if_neg fun h => hm' h.2.2, if_neg hm]
        push_cast
        ring
  · have hnp : ¬(Passes x len.toNat s ∧ Passes x len.toNat m) := fun h => hp h.1
    rw [if_neg hp, if_neg hnp]
    split_ifs <;> rfl

/-- Does the tariff charge the chunk at all? -/
def charges (side : Side) (dir : Dir) (len : BitVec 32) (t : TariffImpl) (u : UserImpl) : Bool :=
  match side with
  | .up => chargesU t (u.up dir + len.setWidth 64) (u.down dir)
  | .down => chargesD t (u.up dir) (u.down dir + len.setWidth 64)

/-- Other than by the larger side, a tariff charges the sides it counts. -/
theorem charges_eq_counts {t : TariffImpl} (hmax : t.tariffConf.traffType ≠ .max) (side : Side)
    (dir : Dir) (len : BitVec 32) (u : UserImpl) : u.charges side dir len t = t.counts side := by
  unfold charges chargesU chargesD TariffImpl.counts
  cases htt : t.tariffConf.traffType with
  | max => exact absurd htt hmax
  | up => cases side <;> rfl
  | down => cases side <;> rfl
  | upDown => cases side <;> rfl

/-- The price charged for a chunk is its bill. -/
theorem dc_eq_bill {t : TariffImpl} (hmax : t.tariffConf.traffType ≠ .max) (side : Side) (env : Env)
    (dir : Dir) (len : BitVec 32) (u : UserImpl) :
    u.dc side env dir len t =
      bill t (env.localtime env.stgTime) dir side (t.getTraffByType (u.up dir) (u.down dir))
        len.toNat := by
  have hcharge := charges_eq_counts hmax side dir len u
  unfold bill
  cases side with
  | up =>
    simp only [charges] at hcharge
    simp only [dc, dcU, hcharge]
    split_ifs with hc
    · exact chunkPrice_eq hmax hc _ dir (u.up dir) (u.down dir) len
    · rfl
  | down =>
    simp only [charges] at hcharge
    simp only [dc, dcD, hcharge]
    split_ifs with hc
    · exact chunkPrice_eq hmax hc _ dir (u.up dir) (u.down dir) len
    · rfl

/-! ## What a call does -/

/-- The cost a call writes into the detailed statistics. -/
def writtenCost (writeFreeMbTraffCost : Bool) (freeMb dc : Money) : Money :=
  if writeFreeMbTraffCost = false ∧ freeMb - dc ≥ 0 then 0 else trafficCost freeMb dc

/-- A chunk on a side at the price `d`: what both calls do to a connected user with a tariff. -/
def takeChunk (writeFreeMbTraffCost : Bool) (side : Side) (dir : Dir) (ip : IP) (len : BitVec 32)
    (d : Money) (u : UserImpl) : UserImpl :=
  { u with
    freeMb := u.freeMb - d
    cash := u.cash - trafficCost u.freeMb d
    up := Function.update u.up dir (upAfter side (u.up dir) len)
    down := Function.update u.down dir (downAfter side (u.down dir) len)
    sessionUpload := Function.update u.sessionUpload dir (upAfter side (u.sessionUpload dir) len)
    sessionDownload :=
      Function.update u.sessionDownload dir (downAfter side (u.sessionDownload dir) len)
    traffStat := u.traffStat.addNode ⟨ip, dir⟩
      ⟨upAfter side 0 len, downAfter side 0 len, writtenCost writeFreeMbTraffCost u.freeMb d⟩ }

/-- **One equation for both calls**, for a connected user with a tariff. -/
theorem addTraffStat_eq {u : UserImpl} {t : TariffImpl} (hc : u.connected = true)
    (ht : u.tariff = some t) (side : Side) (env : Env) (dir : Dir) (ip : IP) (len : BitVec 32) :
    u.addTraffStat side env dir ip len =
      u.takeChunk env.settings.writeFreeMbTraffCost side dir ip len (u.dc side env dir len t) := by
  unfold takeChunk
  cases side with
  | up =>
    simp only [addTraffStat, addTraffStatU, ht, hc, if_true, addTraff, dc, dcU, upAfter, downAfter,
      Function.update_eq_self, writtenCost]
    by_cases hch : chargesU t (u.up dir + len.setWidth 64) (u.down dir) = true
    · simp [hch]
    · simp [hch, trafficCost_zero, hc, ht]
  | down =>
    simp only [addTraffStat, addTraffStatD, ht, hc, if_true, addTraff, dc, dcD, upAfter, downAfter,
      Function.update_eq_self, writtenCost]
    by_cases hch : chargesD t (u.up dir) (u.down dir + len.setWidth 64) = true
    · simp [hch]
    · simp [hch, trafficCost_zero, hc, ht]

/-! ## The two readings of the threshold -/

/-- The branch of `AddTraffStatU` and `AddTraffStatD` that splits the chunk at the threshold. -/
def CrossesThreshold (side : Side) (dir : Dir) (len : BitVec 32) (t : TariffImpl) (u : UserImpl) :
    Prop :=
  let traff := t.getTraffByType (u.up dir) (u.down dir)
  let threshold := wrapInt32 (t.getThreshold dir * 1024 * 1024)
  u.charges side dir len t = true ∧ traff < threshold ∧ traff + len.toNat ≥ threshold

instance (side : Side) (dir : Dir) (len : BitVec 32) (t : TariffImpl) (u : UserImpl) :
    Decidable (u.CrossesThreshold side dir len t) :=
  inferInstanceAs (Decidable (_ ∧ _))

/-- The branch is taken by a chunk that counts and passes the split point. -/
theorem crossesThreshold_iff {t : TariffImpl} (hmax : t.tariffConf.traffType ≠ .max) (side : Side)
    (dir : Dir) (len : BitVec 32) (u : UserImpl) :
    u.CrossesThreshold side dir len t ↔ t.counts side = true ∧
      Passes (t.getTraffByType (u.up dir) (u.down dir)) len.toNat (t.splitPoint dir) := by
  unfold CrossesThreshold Passes TariffImpl.splitPoint
  simp only [charges_eq_counts hmax, ge_iff_le]

/-- The price changes from below to above the threshold with a chunk that counts and passes the end
of the megabyte that follows the threshold. -/
theorem selectPrice_changes_iff {t : TariffImpl} (hmax : t.tariffConf.traffType ≠ .max) {dir : Dir}
    (hnd : (t.dirPrice dir).noDiscount = 0) (h1 : -2 ^ 31 ≤ t.getThreshold dir)
    (h2 : t.getThreshold dir < 2 ^ 31) (side : Side) (up down : BitVec 64) (len : BitVec 32)
    (lt : Tm) :
    ((t.selectPrice dir ((t.getTraffByType up down).tdiv (1024 * 1024)) lt).isB = false ∧
      (t.selectPrice dir ((t.getTraffByType (upAfter side up len)
        (downAfter side down len)).tdiv (1024 * 1024)) lt).isB = true) ↔
      t.counts side = true ∧
        Passes (t.getTraffByType up down) len.toNat (firstAbove (t.getThreshold dir)) := by
  have hm := firstAbove_bounds h1 h2
  have hx := t.getTraffByType_bounds up down
  have hlen := len.isLt
  unfold Passes
  simp only [TariffImpl.isB_selectPrice t hnd, gt_iff_lt, lt_tdiv_megabyte_iff,
    TariffImpl.getTraffByType_after hmax, decide_eq_false_iff_not, decide_eq_true_eq]
  generalize t.getTraffByType up down = x at hx
  generalize firstAbove (t.getThreshold dir) = m at hm
  cases t.counts side with
  | false => simp
  | true =>
    simp only [if_true, true_and]
    split_ifs <;> omega

/-- Where both readings of a threshold of `threshold` megabytes agree on a chunk of `n` bytes that
starts at `x`.  From 2048 megabytes on the product wraps around. -/
def ReadsAlike (threshold x : ℤ) (n : ℕ) : Prop :=
  if threshold < 2048 then
    x + n < threshold * 1048576 ∨
    (threshold * 1048576 ≤ x ∧ x + n < (threshold + 1) * 1048576) ∨
    (threshold + 1) * 1048576 ≤ x ∨
    (x < threshold * 1048576 ∧ (threshold + 1) * 1048576 ≤ x + n)
  else
    ¬Passes x n ((threshold + 1) * 1048576) ∧ ¬Passes x n (wrapInt32 (threshold * 1048576))

/-- A chunk that passes both positions has a threshold whose product does not wrap around: the two
positions are otherwise further apart than a chunk is long. -/
theorem lt_of_passes_passes {thr x : ℤ} {n : ℕ} (hn : n < 2 ^ 32)
    (hs : Passes x n (wrapInt32 (thr * 1048576))) (hm : Passes x n ((thr + 1) * 1048576)) :
    thr < 2048 := by
  obtain ⟨k, hk⟩ := wrapInt32_eq (thr * 1048576)
  have hb := wrapInt32_bounds (thr * 1048576)
  unfold Passes at hs hm
  omega

/-- The positions a chunk passes, and where the two readings agree. -/
theorem passes_iff_readsAlike {thr x : ℤ} {n : ℕ} (h0 : 0 ≤ thr) (hn : n < 2 ^ 32) :
    (Passes x n (wrapInt32 (thr * 1048576)) ↔ Passes x n ((thr + 1) * 1048576)) ↔
      ReadsAlike thr x n := by
  unfold ReadsAlike
  split_ifs with ht
  · rw [wrapInt32_of_lt (by omega) (by omega)]
    unfold Passes
    omega
  · constructor
    · intro h
      have hnot : ¬Passes x n ((thr + 1) * 1048576) := fun hm =>
        ht (lt_of_passes_passes hn (h.mpr hm) hm)
      exact ⟨hnot, fun hs => hnot (h.mp hs)⟩
    · rintro ⟨hm, hs⟩
      exact ⟨fun h => absurd h hs, fun h => absurd h hm⟩

/-- **The two readings of the threshold.** For a tariff by one side or by the sum of both, with a
discount and a threshold of any number of megabytes that fits an `int`: the call splits a chunk
exactly when the price before it is one below the threshold and the price after it one above, and then
charges the bytes below the threshold at the one and the rest at the other, if and only if the tariff
does not count the side or the chunk is placed as `ReadsAlike` says.

**Proof sketch.** The split point is the wrapped product (`crossesThreshold_iff`), the price changes
at the end of the next megabyte (`selectPrice_changes_iff`); `passes_iff_readsAlike` compares the two
positions, and a chunk that passes both is billed in two parts (`chunkBill`). -/
theorem crossesThreshold_agrees_iff (u : UserImpl) (t : TariffImpl) (side : Side) (env : Env)
    (dir : Dir) (ip : IP) (len : BitVec 32) (hc : u.connected = true) (ht : u.tariff = some t)
    (hmax : t.tariffConf.traffType ≠ .max) (hnd : (t.dirPrice dir).noDiscount = 0)
    (h0 : 0 ≤ t.getThreshold dir) (h31 : t.getThreshold dir < 2 ^ 31) :
    let lt := env.localtime env.stgTime
    let x := t.getTraffByType (u.up dir) (u.down dir)
    let x' := t.getTraffByType (upAfter side (u.up dir) len) (downAfter side (u.down dir) len)
    let n := t.getThreshold dir * 1048576
    ((u.CrossesThreshold side dir len t ↔
        (t.selectPrice dir (x.tdiv (1024 * 1024)) lt).isB = false ∧
        (t.selectPrice dir (x'.tdiv (1024 * 1024)) lt).isB = true) ∧
      (u.CrossesThreshold side dir len t →
        u.freeMb - (u.addTraffStat side env dir ip len).freeMb =
          t.priceBelow dir lt * (n - x : ℤ) + t.priceAbove dir lt * (x + len.toNat - n : ℤ))) ↔
      t.counts side = false ∨ ReadsAlike (t.getThreshold dir) x len.toNat := by
  intro lt x x' n
  have hm : firstAbove (t.getThreshold dir) = (t.getThreshold dir + 1) * 1048576 := if_pos h0
  have hs : t.splitPoint dir = wrapInt32 (t.getThreshold dir * 1048576) := by
    unfold TariffImpl.splitPoint
    rw [mul_assoc]
    rfl
  have hup : t.upperPrice dir lt = t.priceAbove dir lt := if_pos hnd
  rw [crossesThreshold_iff hmax, selectPrice_changes_iff hmax hnd (by omega) h31, hs, hm,
    addTraffStat_eq hc ht, dc_eq_bill hmax]
  simp only [takeChunk, sub_sub_cancel, bill]
  cases t.counts side with
  | false => simp
  | true =>
    simp only [true_and, Bool.true_eq_false, false_or, if_true, hs, hm]
    rw [← passes_iff_readsAlike h0 len.isLt]
    constructor
    · exact fun h => h.1
    · intro h
      refine ⟨h, fun hps => ?_⟩
      have hpm := h.mp hps
      have hlt := lt_of_passes_passes len.isLt hps hpm
      have heq : wrapInt32 (t.getThreshold dir * 1048576) = n :=
        wrapInt32_of_lt (by omega) (by omega)
      unfold chunkBill
      rw [if_pos ⟨hps, hpm⟩, heq, hup]

end UserImpl

namespace Sample

/-- One unit of money for each byte up to one megabyte, two from there on. -/
def stepTariff : TariffImpl where
  tariffConf := { name := "step" }
  dirPrice := fun _ =>
    { priceDayA := 1, priceNightA := 1, priceDayB := 2, priceNightB := 2, threshold := 1 }

/-- A connected user of that tariff who has uploaded a number of bytes. -/
def stepUser (bytes : BitVec 64) : UserImpl :=
  { user "step" with
    tariff := some stepTariff, tariffName := "step", connected := true, up := fun _ => bytes }

end Sample

namespace UserImpl

/-- One byte less than a megabyte, and then a chunk that reaches past the end of the next megabyte:
one byte at the lower price and a megabyte at the higher one. -/
theorem crossesThreshold_agrees_over_megabyte :
    let u := Sample.stepUser 1048575
    let v := u.addTraffStat .up (Sample.env 0) 0 1 1048577
    u.CrossesThreshold .up 0 1048577 Sample.stepTariff ∧
    u.freeMb - v.freeMb = 1 * (1 : ℤ) + 2 * (1048576 : ℤ) := by
  intro u v
  have hx : u.CrossesThreshold .up 0 1048577 Sample.stepTariff := by decide +kernel
  have hr : ReadsAlike 1 1048575 1048577 := by
    unfold ReadsAlike
    rw [if_pos (by decide)]
    exact Or.inr (Or.inr (Or.inr (by decide)))
  have h := (crossesThreshold_agrees_iff u Sample.stepTariff .up (Sample.env 0) 0 1 1048577 rfl rfl
    (by decide) rfl (by decide) (by decide)).mpr (Or.inr hr)
  exact ⟨hx, (h.2 hx).trans (by decide +kernel)⟩

/-- **The last byte of a megabyte** is split off at a threshold of one megabyte, while the price stays
below the threshold for one megabyte more. -/
theorem crossesThreshold_one_byte :
    let u := Sample.stepUser 1048575
    let t := Sample.stepTariff
    ¬(u.CrossesThreshold .up 0 1 t ↔
      (t.selectPrice 0 ((t.getTraffByType (u.up 0) (u.down 0)).tdiv (1024 * 1024))
        ⟨12, 0, 1, 0, 100⟩).isB = false ∧
      (t.selectPrice 0 ((t.getTraffByType (upAfter .up (u.up 0) 1)
        (downAfter .up (u.down 0) 1)).tdiv (1024 * 1024)) ⟨12, 0, 1, 0, 100⟩).isB = true) := by
  decide +kernel

end UserImpl

/-! ## Two chunks and one -/

/-- Where two chunks of `a` and `b` bytes, the first of which starts at `x`, cost what one chunk of
`a + b` bytes costs: the first one passes the change of the price only together with the split point,
and it does not pass the split point before the second one passes the change of the price. -/
def CutsWell (s m x : ℤ) (a b : ℕ) : Prop :=
  (Passes x a m → Passes x a s) ∧ ¬(Passes x a s ∧ Passes (x + a) b m)

/-- A chunk that the price changes in, and that is not split. -/
theorem chunkBill_of_not_passes {below above : Money} {s m x : ℤ} {n : ℕ} (hx : x < m)
    (h : ¬(Passes x n s ∧ Passes x n m)) : chunkBill below above s m x n = below * n := by
  unfold chunkBill
  rw [if_neg h, if_neg (not_le.mpr hx)]

/-- A chunk above the change of the price. -/
theorem chunkBill_of_le {below above : Money} {s m x : ℤ} {n : ℕ} (hx : m ≤ x) :
    chunkBill below above s m x n = above * n := by
  unfold chunkBill
  rw [if_neg fun h => absurd h.2.1 (not_lt.mpr hx), if_pos hx]

/-- A chunk that is split. -/
theorem chunkBill_of_passes {below above : Money} {s m x : ℤ} {n : ℕ} (hs : Passes x n s)
    (hm : Passes x n m) :
    chunkBill below above s m x n = below * (s - x : ℤ) + above * (x + n - s : ℤ) := by
  unfold chunkBill
  rw [if_pos ⟨hs, hm⟩]

/-- An empty chunk. -/
theorem chunkBill_zero (below above : Money) (s m x : ℤ) : chunkBill below above s m x 0 = 0 := by
  have hs : ¬Passes x 0 s := fun h => by
    unfold Passes at h
    omega
  unfold chunkBill
  rw [if_neg fun h => hs h.1]
  simp

/-- A chunk at one price. -/
theorem chunkBill_self (p : Money) (s m x : ℤ) (n : ℕ) : chunkBill p p s m x n = p * n := by
  unfold chunkBill
  split_ifs
  · push_cast
    ring
  · rfl
  · rfl

/-- Two amounts whose difference is a multiple of the difference of the prices. -/
theorem eq_iff_of_sub_eq {p q : Money} (below above c : Money) (h : p - q = (below - above) * c) :
    p = q ↔ below = above ∨ c = 0 := by
  rw [← sub_eq_zero, h, mul_eq_zero, sub_eq_zero]

/-- The price changes in the first chunk: the first chunk has to be split as well.

**Proof sketch.** If it is not, the bytes of the second chunk up to the split point, or all of them,
are charged at the other price. -/
theorem chunkBill_add_of_first {below above : Money} {s m x : ℤ} {a b : ℕ} (hm1 : Passes x a m) :
    chunkBill below above s m x a + chunkBill below above s m (x + a) b =
      chunkBill below above s m x (a + b) ↔ below = above ∨ b = 0 ∨ Passes x a s := by
  have hm : Passes x (a + b) m := by
    unfold Passes at hm1 ⊢
    push_cast
    omega
  rw [chunkBill_of_le hm1.2]
  by_cases hs1 : Passes x a s
  · have hs : Passes x (a + b) s := by
      unfold Passes at hs1 ⊢
      push_cast
      omega
    rw [chunkBill_of_passes hs1 hm1, chunkBill_of_passes hs hm]
    simp only [hs1, or_true, iff_true]
    push_cast
    ring
  · rw [chunkBill_of_not_passes hm1.1 fun h => hs1 h.1]
    simp only [hs1, or_false]
    by_cases hs : Passes x (a + b) s
    · unfold Passes at hs1 hs
      have hb : b ≠ 0 := by omega
      have hne : ((x + a - s : ℤ) : Money) ≠ 0 := by
        exact_mod_cast (by omega : x + a - s ≠ 0)
      rw [chunkBill_of_passes hs hm, or_iff_left hb,
        eq_iff_of_sub_eq below above ((x + a - s : ℤ) : Money) (by push_cast; ring), or_iff_left hne]
    · rw [chunkBill_of_not_passes hm1.1 fun h => hs h.1,
        eq_iff_of_sub_eq below above (-b) (by push_cast; ring), neg_eq_zero, Nat.cast_eq_zero]

/-- The price changes in the second chunk: the first one has to end below the split point, or begin
above it.

**Proof sketch.** Otherwise the bytes after the split point are charged at the other price if both
chunks come as one. -/
theorem chunkBill_add_of_second {below above : Money} {s m x : ℤ} {a b : ℕ}
    (hm2 : Passes (x + a) b m) :
    chunkBill below above s m x a + chunkBill below above s m (x + a) b =
      chunkBill below above s m x (a + b) ↔ below = above ∨ ¬Passes x a s := by
  have hx : x < m := by
    unfold Passes at hm2
    omega
  have hm : Passes x (a + b) m := by
    unfold Passes at hm2 ⊢
    push_cast
    omega
  have hm1 : ¬Passes x a m := fun h => absurd hm2.1 (not_lt.mpr h.2)
  rw [chunkBill_of_not_passes hx fun h => hm1 h.2]
  by_cases hs1 : Passes x a s
  · have hs : Passes x (a + b) s := by
      unfold Passes at hs1 ⊢
      push_cast
      omega
    have hs2 : ¬Passes (x + a) b s := fun h => absurd h.1 (not_lt.mpr hs1.2)
    have hne : ((x + a + b - s : ℤ) : Money) ≠ 0 := by
      unfold Passes at hs1 hm2
      exact_mod_cast (by omega : x + a + b - s ≠ 0)
    rw [chunkBill_of_not_passes hm2.1 fun h => hs2 h.1, chunkBill_of_passes hs hm,
      eq_iff_of_sub_eq below above ((x + a + b - s : ℤ) : Money) (by push_cast; ring), or_iff_left hne]
    simp only [hs1, not_true_eq_false, or_false]
  · simp only [hs1, not_false_eq_true, or_true, iff_true]
    by_cases hs2 : Passes (x + a) b s
    · have hs : Passes x (a + b) s := by
        unfold Passes at hs2 ⊢
        push_cast
        omega
      rw [chunkBill_of_passes hs2 hm2, chunkBill_of_passes hs hm]
      push_cast
      ring
    · have hs : ¬Passes x (a + b) s := by
        unfold Passes at hs1 hs2 ⊢
        push_cast
        omega
      rw [chunkBill_of_not_passes hm2.1 fun h => hs2 h.1,
        chunkBill_of_not_passes hx fun h => hs h.1]
      push_cast
      ring

/-- **The prices of two chunks that follow each other, and the price of both together.**

**Proof sketch.** By where the price changes: before the chunks, in the first, in the second or
after them. -/
theorem chunkBill_add_iff (below above : Money) (s m x : ℤ) (a b : ℕ) :
    chunkBill below above s m x a + chunkBill below above s m (x + a) b =
      chunkBill below above s m x (a + b) ↔ below = above ∨ b = 0 ∨ CutsWell s m x a b := by
  unfold CutsWell
  by_cases hm1 : Passes x a m
  · have hm2 : ¬Passes (x + a) b m := fun h => absurd h.1 (not_lt.mpr hm1.2)
    rw [chunkBill_add_of_first hm1]
    simp only [hm1, hm2, true_implies, and_false, not_false_eq_true, and_true]
  · by_cases hm2 : Passes (x + a) b m
    · have hb : b ≠ 0 := by
        unfold Passes at hm2
        omega
      rw [chunkBill_add_of_second hm2]
      simp only [hm1, hm2, false_implies, and_true, true_and, hb, false_or]
    · have hm : ¬Passes x (a + b) m := by
        unfold Passes at hm1 hm2 ⊢
        push_cast
        omega
      simp only [hm1, hm2, false_implies, and_false, not_false_eq_true, and_self, or_true, iff_true]
      by_cases h1 : m ≤ x
      · rw [chunkBill_of_le h1, chunkBill_of_le h1, chunkBill_of_le (by omega)]
        push_cast
        ring
      · have hxa : x + a < m := by
          unfold Passes at hm1
          omega
        rw [chunkBill_of_not_passes (not_le.mp h1) fun h => hm1 h.2,
          chunkBill_of_not_passes hxa fun h => hm2 h.2,
          chunkBill_of_not_passes (not_le.mp h1) fun h => hm h.2]
        push_cast
        ring

/-- A first chunk that runs over the end of the signed range: the second one starts far below every
threshold. -/
theorem chunkBill_add_of_wraps {below above : Money} {s m x : ℤ} {a b : ℕ} (hs1 : -2 ^ 31 ≤ s)
    (hs2 : s < 2 ^ 31) (hm1 : -2 ^ 51 < m) (hm2 : m ≤ 2 ^ 51) (hab : a + b < 2 ^ 32)
    (hx : x < 2 ^ 63) (hw : 2 ^ 63 ≤ x + a) :
    chunkBill below above s m x a + chunkBill below above s m (x + a - 2 ^ 64) b =
      chunkBill below above s m x (a + b) ↔ below = above ∨ b = 0 := by
  have hnp : ¬Passes (x + a - 2 ^ 64) b s := by
    unfold Passes
    omega
  have hle : m ≤ x := by omega
  have hlt : x + a - 2 ^ 64 < m := by omega
  rw [chunkBill_of_not_passes hlt fun h => hnp h.1, chunkBill_of_le hle, chunkBill_of_le hle,
    eq_iff_of_sub_eq below above b (by push_cast; ring), Nat.cast_eq_zero]

namespace UserImpl

/-- Two prices are paid like their sum, from the balance and in the detailed statistics.  What can go
wrong is a price that does not take prepaid traffic but gives it back. -/
def PaysAlike (writeFreeMbTraffCost : Bool) (freeMb d₁ d₂ : Money) : Prop :=
  ¬(freeMb ≤ 0 ∧ d₁ < freeMb ∧ d₂ ≠ 0) ∧ ¬(0 < freeMb ∧ freeMb ≤ d₁ ∧ d₁ + d₂ < freeMb) ∧
  (writeFreeMbTraffCost = false →
    ¬(d₁ ≤ freeMb ∧ freeMb < 0 ∧ freeMb < d₁ + d₂) ∧
    ¬(freeMb < d₁ ∧ d₁ + d₂ ≤ freeMb ∧ d₁ ≠ max freeMb 0))

/-- Prices that are not negative are always paid like their sum. -/
theorem paysAlike_of_nonneg (w : Bool) {f d₁ d₂ : Money} (h1 : 0 ≤ d₁) (h2 : 0 ≤ d₂) :
    PaysAlike w f d₁ d₂ := by
  refine ⟨?_, ?_, fun _ => ⟨?_, ?_⟩⟩
  · rintro ⟨hf, hd, -⟩
    linarith
  · rintro ⟨-, hf, hd⟩
    linarith
  · rintro ⟨hd, hf, -⟩
    linarith
  · rintro ⟨hf, hd, -⟩
    linarith

/-- The balance pays two prices like their sum. -/
theorem trafficCost_add_iff (f d₁ d₂ : Money) :
    trafficCost f d₁ + trafficCost (f - d₁) d₂ = trafficCost f (d₁ + d₂) ↔
      ¬(f ≤ 0 ∧ d₁ < f ∧ d₂ ≠ 0) ∧ ¬(0 < f ∧ f ≤ d₁ ∧ d₁ + d₂ < f) := by
  unfold trafficCost
  grind

/-- With the setting off, the detailed statistics agree as well. -/
theorem writtenCost_add_iff (f d₁ d₂ : Money)
    (h : trafficCost f d₁ + trafficCost (f - d₁) d₂ = trafficCost f (d₁ + d₂)) :
    writtenCost false f d₁ + writtenCost false (f - d₁) d₂ = writtenCost false f (d₁ + d₂) ↔
      ¬(d₁ ≤ f ∧ f < 0 ∧ f < d₁ + d₂) ∧ ¬(f < d₁ ∧ d₁ + d₂ ≤ f ∧ d₁ ≠ max f 0) := by
  unfold writtenCost
  unfold trafficCost at h ⊢
  grind

/-- The two costs of two prices and of their sum. -/
theorem paysAlike_iff (w : Bool) (f d₁ d₂ : Money) :
    (trafficCost f d₁ + trafficCost (f - d₁) d₂ = trafficCost f (d₁ + d₂) ∧
      writtenCost w f d₁ + writtenCost w (f - d₁) d₂ = writtenCost w f (d₁ + d₂)) ↔
      PaysAlike w f d₁ d₂ := by
  unfold PaysAlike
  rw [← and_assoc, ← trafficCost_add_iff]
  refine and_congr_right fun h => ?_
  cases w with
  | false =>
    rw [writtenCost_add_iff f d₁ d₂ h]
    exact ⟨fun h' _ => h', fun h' => h' rfl⟩
  | true =>
    have hline : ∀ f d, writtenCost true f d = trafficCost f d := fun f d =>
      if_neg fun h => Bool.noConfusion h.1
    simp only [hline, h, Bool.true_eq_false, false_implies]

end UserImpl

/-! ## The state after two chunks -/

/-- Two chunks on the same line of the detailed statistics. -/
theorem TraffStat.addNode_addNode (ts : TraffStat) (idp : IPDirPair) (n₁ n₂ : StatNode) :
    (ts.addNode idp n₁).addNode idp n₂ =
      ts.addNode idp ⟨n₁.up + n₂.up, n₁.down + n₂.down, n₁.cash + n₂.cash⟩ := by
  unfold addNode
  cases h : ts.lookup idp with
  | none =>
    simp only [AList.lookup_insert]
    exact AList.adjust_insert _ _ h
  | some o =>
    simp only [AList.lookup_adjust, if_true, h, Option.map_some, AList.adjust_adjust,
      add_assoc]

/-- A counter after two chunks whose sum is a length. -/
theorem add_setWidth_add_setWidth (w : BitVec 64) {a b : BitVec 32}
    (h : a.toNat + b.toNat < 2 ^ 32) :
    w + a.setWidth 64 + b.setWidth 64 = w + (a + b).setWidth 64 := by
  have ha := a.isLt
  have hb := b.isLt
  apply BitVec.eq_of_toNat_eq
  simp only [BitVec.toNat_add, BitVec.toNat_setWidth]
  omega

/-- The upload counter after two chunks. -/
theorem upAfter_upAfter (side : Side) (w : BitVec 64) {a b : BitVec 32}
    (h : a.toNat + b.toNat < 2 ^ 32) :
    upAfter side (upAfter side w a) b = upAfter side w (a + b) := by
  cases side with
  | up => exact add_setWidth_add_setWidth w h
  | down => rfl

/-- The download counter after two chunks. -/
theorem downAfter_downAfter (side : Side) (w : BitVec 64) {a b : BitVec 32}
    (h : a.toNat + b.toNat < 2 ^ 32) :
    downAfter side (downAfter side w a) b = downAfter side w (a + b) := by
  cases side with
  | up => rfl
  | down => exact add_setWidth_add_setWidth w h

/-- The upload column of two lines. -/
theorem upAfter_zero_add (side : Side) {a b : BitVec 32} (h : a.toNat + b.toNat < 2 ^ 32) :
    upAfter side 0 a + upAfter side 0 b = upAfter side 0 (a + b) := by
  rw [← upAfter_upAfter side 0 h]
  cases side <;> simp [upAfter]

/-- The download column of two lines. -/
theorem downAfter_zero_add (side : Side) {a b : BitVec 32} (h : a.toNat + b.toNat < 2 ^ 32) :
    downAfter side 0 a + downAfter side 0 b = downAfter side 0 (a + b) := by
  rw [← downAfter_downAfter side 0 h]
  cases side <;> simp [downAfter]

namespace UserImpl

/-- Two states of a user agree on what traffic moves. -/
structure SameBilling (v w : UserImpl) : Prop where
  cash : v.cash = w.cash
  freeMb : v.freeMb = w.freeMb
  up : v.up = w.up
  down : v.down = w.down
  sessionUpload : v.sessionUpload = w.sessionUpload
  sessionDownload : v.sessionDownload = w.sessionDownload
  traffStat : v.traffStat = w.traffStat

/-- Where the prices of two chunks add up: the tariff does not count the side, both prices of the
time are the same, the second chunk is empty, or the chunks are cut as `CutsWell` says and the first
one does not run over the end of the signed range. -/
def BillsAlike (t : TariffImpl) (lt : Tm) (dir : Dir) (side : Side) (x : ℤ) (a b : ℕ) : Prop :=
  t.counts side = false ∨ t.priceBelow dir lt = t.upperPrice dir lt ∨ b = 0 ∨
    (x + a < 2 ^ 63 ∧ CutsWell (t.splitPoint dir) (firstAbove (t.getThreshold dir)) x a b)

/-- The price of the second of two chunks. -/
theorem dc_second {u : UserImpl} {t : TariffImpl} (hc : u.connected = true) (ht : u.tariff = some t)
    (hmax : t.tariffConf.traffType ≠ .max) (side : Side) (env : Env) (dir : Dir) (ip : IP)
    (a b : BitVec 32) :
    (u.addTraffStat side env dir ip a).dc side env dir b t =
      bill t (env.localtime env.stgTime) dir side
        (if t.counts side = true then
          if t.getTraffByType (u.up dir) (u.down dir) + a.toNat < 2 ^ 63 then
            t.getTraffByType (u.up dir) (u.down dir) + a.toNat
          else t.getTraffByType (u.up dir) (u.down dir) + a.toNat - 2 ^ 64
        else t.getTraffByType (u.up dir) (u.down dir)) b.toNat := by
  rw [dc_eq_bill hmax, addTraffStat_eq hc ht]
  simp only [takeChunk, Function.update_self, TariffImpl.getTraffByType_after hmax]

/-- **The prices of two chunks add up** where `BillsAlike` says so. -/
theorem dc_add_iff {u : UserImpl} {t : TariffImpl} (hc : u.connected = true) (ht : u.tariff = some t)
    (hmax : t.tariffConf.traffType ≠ .max) (side : Side) (env : Env) {dir : Dir}
    (h1 : -2 ^ 31 ≤ t.getThreshold dir) (h2 : t.getThreshold dir < 2 ^ 31) (ip : IP)
    {a b : BitVec 32} (hab : a.toNat + b.toNat < 2 ^ 32) :
    u.dc side env dir a t + (u.addTraffStat side env dir ip a).dc side env dir b t =
      u.dc side env dir (a + b) t ↔
      BillsAlike t (env.localtime env.stgTime) dir side
        (t.getTraffByType (u.up dir) (u.down dir)) a.toNat b.toNat := by
  have hlen : (a + b).toNat = a.toNat + b.toNat := by
    rw [BitVec.toNat_add, Nat.mod_eq_of_lt hab]
  rw [dc_second hc ht hmax, dc_eq_bill hmax, dc_eq_bill hmax, hlen]
  unfold BillsAlike bill
  cases hcount : t.counts side with
  | false => simp
  | true =>
    simp only [if_true, Bool.true_eq_false, false_or]
    by_cases hw : t.getTraffByType (u.up dir) (u.down dir) + a.toNat < 2 ^ 63
    · rw [if_pos hw, chunkBill_add_iff]
      simp only [hw, true_and]
    · rw [if_neg hw, chunkBill_add_of_wraps (t.splitPoint_bounds dir).1
        (t.splitPoint_bounds dir).2 (firstAbove_bounds h1 h2).1 (firstAbove_bounds h1 h2).2 hab
        (t.getTraffByType_bounds _ _).2 (not_lt.mp hw)]
      simp only [hw, false_and, or_false]

/-- Where the prices add up, the price of the second chunk is its bill at the sum. -/
theorem dc_second_of_billsAlike {u : UserImpl} {t : TariffImpl} (hc : u.connected = true)
    (ht : u.tariff = some t) (hmax : t.tariffConf.traffType ≠ .max) {side : Side} {env : Env}
    {dir : Dir} (ip : IP) {a b : BitVec 32}
    (h : BillsAlike t (env.localtime env.stgTime) dir side
      (t.getTraffByType (u.up dir) (u.down dir)) a.toNat b.toNat) :
    (u.addTraffStat side env dir ip a).dc side env dir b t =
      bill t (env.localtime env.stgTime) dir side
        (t.getTraffByType (u.up dir) (u.down dir) + a.toNat) b.toNat := by
  rw [dc_second hc ht hmax]
  unfold bill
  cases hcount : t.counts side with
  | false => rfl
  | true =>
    simp only [if_true]
    obtain h | h | h | h := h
    · rw [hcount] at h
      exact absurd h (by decide)
    · rw [h, chunkBill_self, chunkBill_self]
    · rw [h, chunkBill_zero, chunkBill_zero]
    · rw [if_pos h.1]

/-- Two chunks at the prices `d₁` and `d₂` leave what one chunk at the price `d` leaves exactly if the
amounts agree.

**Proof sketch.** The counters always agree.  The lines of the detailed statistics are the same ones,
so that they agree exactly if the costs on the line of the chunk do. -/
theorem sameBilling_takeChunk_iff (u : UserImpl) (w : Bool) (side : Side) (dir : Dir) (ip : IP)
    {a b : BitVec 32} (hab : a.toNat + b.toNat < 2 ^ 32) (d₁ d₂ d : Money) :
    SameBilling ((u.takeChunk w side dir ip a d₁).takeChunk w side dir ip b d₂)
        (u.takeChunk w side dir ip (a + b) d) ↔
      d₁ + d₂ = d ∧
      trafficCost u.freeMb d₁ + trafficCost (u.freeMb - d₁) d₂ = trafficCost u.freeMb d ∧
      writtenCost w u.freeMb d₁ + writtenCost w (u.freeMb - d₁) d₂ = writtenCost w u.freeMb d := by
  constructor
  · intro h
    have hfree := h.freeMb
    have hcash := h.cash
    have hline := congrArg (fun ts => TraffStat.cashAt ts ⟨ip, dir⟩) h.traffStat
    simp only [takeChunk, TraffStat.cashAt_addNode, if_true] at hfree hcash hline
    refine ⟨by linarith, by linarith, by linarith⟩
  · rintro ⟨hfree, hcash, hline⟩
    constructor
    · simp only [takeChunk]
      linarith
    · simp only [takeChunk]
      linarith
    · simp only [takeChunk, Function.update_self, Function.update_idem, upAfter_upAfter side _ hab]
    · simp only [takeChunk, Function.update_self, Function.update_idem,
        downAfter_downAfter side _ hab]
    · simp only [takeChunk, Function.update_self, Function.update_idem, upAfter_upAfter side _ hab]
    · simp only [takeChunk, Function.update_self, Function.update_idem,
        downAfter_downAfter side _ hab]
    · simp only [takeChunk, TraffStat.addNode_addNode, upAfter_zero_add side hab,
        downAfter_zero_add side hab, hline]

end UserImpl

end Stargazer
