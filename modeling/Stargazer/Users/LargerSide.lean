import Stargazer.Users.Chunks

set_option relaxedAutoImplicit false
set_option autoImplicit false

/-!
# Charging the larger side

A tariff with the traffic type `TRAFF_MAX` charges a chunk if the side of the chunk is the larger one
after it, and then charges the whole chunk.  Over a run the bytes charged are the growth of the
larger side, unless a chunk overtakes the other side.

## Main definitions

* `Stargazer.UserImpl.larger` — the larger side.
* `Stargazer.UserImpl.Level`, `Stargazer.UserImpl.LevelRun` — no chunk overtakes the other side.

## Main results

* `Stargazer.UserImpl.totalDc_eq_growth_iff` — when a run is charged for the growth of the larger
  side.
-/

namespace Stargazer

namespace UserImpl

/-- The larger of two counters. -/
def larger (up down : BitVec 64) : ℤ := max up.toNat down.toNat

/-- A chunk does not overtake the other side: the side it is on is not behind, or stays behind.  A
counter that wraps around falls back, which only a side that is not ahead may do. -/
def Level (side : Side) (up down : BitVec 64) (len : BitVec 32) : Prop :=
  match side with
  | .up =>
    if up.toNat + len.toNat < 2 ^ 64 then
      ¬(up.toNat < down.toNat ∧ down.toNat < up.toNat + len.toNat)
    else up.toNat ≤ down.toNat
  | .down =>
    if down.toNat + len.toNat < 2 ^ 64 then
      ¬(down.toNat < up.toNat ∧ up.toNat ≤ down.toNat + len.toNat)
    else down.toNat ≤ up.toNat

/-- No call of a run overtakes, in the state it is made in. -/
def LevelRun (dir : Dir) : UserImpl → List TraffCall → Prop
  | _, [] => True
  | u, c :: cs =>
    Level c.side (u.up dir) (u.down dir) c.len ∧
      LevelRun dir (u.addTraffStat c.side c.env c.dir c.ip c.len) cs

/-- All four prices of a direction are the same. -/
def ConstantPrice (t : TariffImpl) (dir : Dir) (p : Money) : Prop :=
  ∀ k : PriceKind, k.get (t.dirPrice dir) = p

/-- A chunk at a constant price. -/
theorem chunkPrice_of_constantPrice {t : TariffImpl} {dir : Dir} {p : Money}
    (hp : ConstantPrice t dir p) (lt : Tm) (up down up' down' : BitVec 64) (len : BitVec 32) :
    chunkPrice t lt dir up down up' down' len = p * len.toNat := by
  have hprice : ∀ up down, t.getPriceWithTraffType up down dir lt = p := fun up down =>
    (t.getPriceWithoutFreeMb_eq dir _ lt).trans (hp _)
  unfold chunkPrice
  simp only [hprice]
  split_ifs
  · push_cast
    ring
  · rfl

/-- **What one call charges** beyond the growth of the larger side: nothing if it is level, and more
otherwise.

**Proof sketch.** A chunk that is charged is charged as a whole.  It exceeds the growth by the
distance the side was behind; without a charge the other side is the larger one throughout. -/
theorem dc_eq_growth {t : TariffImpl} (hmax : t.tariffConf.traffType = .max) {dir : Dir} {p : Money}
    (hp : ConstantPrice t dir p) (side : Side) (env : Env) (len : BitVec 32) (u : UserImpl) :
    ∃ e : ℤ, 0 ≤ e ∧ (e = 0 ↔ Level side (u.up dir) (u.down dir) len) ∧
      u.dc side env dir len t =
        p * ((larger (upAfter side (u.up dir) len) (downAfter side (u.down dir) len) -
          larger (u.up dir) (u.down dir) + e : ℤ) : Money) := by
  have hlen := len.isLt
  have hup := (u.up dir).isLt
  have hdown := (u.down dir).isLt
  -- the bytes charged, and what is left of them after the growth
  have key : ∀ (n : ℤ) (g : ℤ) (P : Prop), 0 ≤ n - g → (n - g = 0 ↔ P) →
      ∃ e : ℤ, 0 ≤ e ∧ (e = 0 ↔ P) ∧ p * (n : Money) = p * ((g + e : ℤ) : Money) := by
    intro n g P h0 hP
    exact ⟨n - g, h0, hP, by push_cast; ring⟩
  cases side with
  | up =>
    have hdc : u.dc .up env dir len t =
        p * (((if u.up dir + len.setWidth 64 > u.down dir then len.toNat else 0 : ℕ) : ℤ) :
          Money) := by
      simp only [dc, dcU, chargesU, hmax, chunkPrice_of_constantPrice hp, decide_eq_true_eq]
      split_ifs <;> simp
    rw [hdc]
    apply key
    · simp only [larger, upAfter, downAfter, gt_iff_lt, BitVec.lt_def, BitVec.toNat_add,
        BitVec.toNat_setWidth]
      split_ifs <;> omega
    · simp only [larger, upAfter, downAfter, gt_iff_lt, BitVec.lt_def, BitVec.toNat_add,
        BitVec.toNat_setWidth, Level]
      split_ifs <;> omega
  | down =>
    have hdc : u.dc .down env dir len t =
        p * (((if u.up dir ≤ u.down dir + len.setWidth 64 then len.toNat else 0 : ℕ) : ℤ) :
          Money) := by
      simp only [dc, dcD, chargesD, hmax, chunkPrice_of_constantPrice hp, decide_eq_true_eq]
      split_ifs <;> simp
    rw [hdc]
    apply key
    · simp only [larger, upAfter, downAfter, BitVec.le_def, BitVec.toNat_add,
        BitVec.toNat_setWidth]
      split_ifs <;> omega
    · simp only [larger, upAfter, downAfter, BitVec.le_def, BitVec.toNat_add,
        BitVec.toNat_setWidth, Level]
      split_ifs <;> omega

/-- **What a run charges** beyond the growth of the larger side.

**Proof sketch.** Induction on the run: the excess of a run is the sum of the excesses of its calls
(`dc_eq_growth`), none of which is negative. -/
theorem totalDc_eq_growth {t : TariffImpl} (hmax : t.tariffConf.traffType = .max) {dir : Dir}
    {p : Money} (hp : ConstantPrice t dir p) (cs : List TraffCall) :
    ∀ u : UserImpl, u.connected = true → u.tariff = some t → (∀ c ∈ cs, c.dir = dir) →
      ∃ e : ℤ, 0 ≤ e ∧ (e = 0 ↔ LevelRun dir u cs) ∧
        u.totalDc t cs = p * ((larger ((u.traffRun cs).up dir) ((u.traffRun cs).down dir) -
          larger (u.up dir) (u.down dir) + e : ℤ) : Money) := by
  induction cs with
  | nil =>
    intro u _ _ _
    exact ⟨0, le_rfl, by simp [LevelRun], by simp [totalDc, traffRun]⟩
  | cons c cs ih =>
    intro u hc ht hdir
    have hcd : c.dir = dir := hdir c List.mem_cons_self
    obtain ⟨-, hc', ht', -⟩ := addTraffStat_frame c.side c.env c.dir c.ip c.len u
    obtain ⟨e₁, h₁, hl₁, hd₁⟩ := dc_eq_growth hmax hp c.side c.env c.len u
    obtain ⟨e₂, h₂, hl₂, hd₂⟩ := ih _ (hc'.trans hc) (ht'.trans ht) fun c' hc' =>
      hdir c' (List.mem_cons_of_mem _ hc')
    have hcounters : (u.addTraffStat c.side c.env c.dir c.ip c.len).up dir =
          upAfter c.side (u.up dir) c.len ∧
        (u.addTraffStat c.side c.env c.dir c.ip c.len).down dir =
          downAfter c.side (u.down dir) c.len := by
      rw [addTraffStat_eq hc ht, hcd]
      simp only [takeChunk, Function.update_self, and_self]
    have hrun : u.traffRun (c :: cs) =
        (u.addTraffStat c.side c.env c.dir c.ip c.len).traffRun cs := rfl
    have htot : u.totalDc t (c :: cs) = u.dc c.side c.env c.dir c.len t +
        (u.addTraffStat c.side c.env c.dir c.ip c.len).totalDc t cs := rfl
    refine ⟨e₁ + e₂, add_nonneg h₁ h₂, ?_, ?_⟩
    · rw [add_eq_zero_iff_of_nonneg h₁ h₂, hl₁, hl₂]
      rfl
    · rw [hcounters.1, hcounters.2] at hd₂
      rw [htot, hrun, hd₂, hcd, hd₁]
      push_cast
      ring

/-- **The larger side.** For every connected user of a tariff with the traffic type `TRAFF_MAX` and
one constant price for a direction, and for every run of traffic calls on that direction: the total
charged is the price of the growth of the larger side if and only if the price is zero or no call of
the run overtakes the other side.

**Proof sketch.** The excess of the run is not negative, and zero exactly if the run is level
(`totalDc_eq_growth`). -/
theorem totalDc_eq_growth_iff (u : UserImpl) (t : TariffImpl) (dir : Dir) (p : Money)
    (cs : List TraffCall) (hc : u.connected = true) (ht : u.tariff = some t)
    (hmax : t.tariffConf.traffType = .max) (hp : ConstantPrice t dir p)
    (hdir : ∀ c ∈ cs, c.dir = dir) :
    u.totalDc t cs = p * ((larger ((u.traffRun cs).up dir) ((u.traffRun cs).down dir) -
        larger (u.up dir) (u.down dir) : ℤ) : Money) ↔ p = 0 ∨ LevelRun dir u cs := by
  obtain ⟨e, -, hl, hd⟩ := totalDc_eq_growth hmax hp cs u hc ht hdir
  rw [hd, ← hl, Int.cast_add, mul_add, add_eq_left, mul_eq_zero, Int.cast_eq_zero]

end UserImpl

namespace Sample

/-- The sample tariff, by the larger side. -/
def maxTariff : TariffImpl :=
  { tariff with tariffConf := { tariff.tariffConf with traffType := .max } }

/-- A connected user of that tariff. -/
def maxUser : UserImpl := { user "max" with tariff := some maxTariff, connected := true }

end Sample

namespace UserImpl

/-- Two chunks up and one down that stays behind. -/
theorem totalDc_eq_growth_up :
    let u := Sample.maxUser
    let cs : List TraffCall := [⟨Sample.env 0, .up, 0, 1, 3⟩, ⟨Sample.env 1, .up, 0, 1, 2⟩,
      ⟨Sample.env 2, .down, 0, 1, 4⟩]
    u.totalDc Sample.maxTariff cs = 1 * ((larger ((u.traffRun cs).up 0) ((u.traffRun cs).down 0) -
        larger (u.up 0) (u.down 0) : ℤ) : Money) := by
  intro u cs
  refine (totalDc_eq_growth_iff u Sample.maxTariff 0 1 cs rfl rfl rfl ?_ ?_).mpr (Or.inr ?_)
  · intro k
    cases k <;> rfl
  · simp [cs]
  · simp only [cs, LevelRun, Level]
    decide +kernel

/-- **Two bytes up, then four bytes down**: the download overtakes and is charged as a whole, six
bytes in all, though the larger side has grown by four. -/
theorem download_overtakes :
    let u := Sample.maxUser
    let cs : List TraffCall := [⟨Sample.env 0, .up, 0, 1, 2⟩, ⟨Sample.env 1, .down, 0, 1, 4⟩]
    u.up 0 = u.down 0 ∧
    u.totalDc Sample.maxTariff cs ≠ 1 * ((larger ((u.traffRun cs).up 0) ((u.traffRun cs).down 0) -
        larger (u.up 0) (u.down 0) : ℤ) : Money) := by
  decide +kernel

end UserImpl

end Stargazer
