import Stargazer.Lib.Run
import Stargazer.Users.Billing

set_option relaxedAutoImplicit false
set_option autoImplicit false

/-!
# Frozen time

`UserImpl::Run` adds to `passiveTime` what has passed since the property was last modified, if the
user is frozen and the clock shows a multiple of 30 seconds.  The property is modified by this
addition and by `ResetPassiveTime`, and not when the user is frozen or unfrozen.

A run is observed by someone who knows how long the user has really been frozen since the last
reset, and how long it has not been frozen since the property was last modified.

## Main definitions

* `Stargazer.FrozenUser` — a user, the clock, and the two durations.
* `Stargazer.FrozenAction` — `Run`, a change of `passive`, and `ResetPassiveTime`.
* `Stargazer.FrozenUser.OnlyFrozen` — no more is discounted than was frozen.

## Main results

* `Stargazer.FrozenUser.step_onlyFrozen_iff` — which steps discount only frozen time.
* `Stargazer.FrozenUser.maintains_onlyFrozen_iff` — which runs do.
-/

namespace Stargazer

/-- Two states of a user that agree on what concerns frozen time. -/
structure SameFrozen (u v : UserImpl) : Prop where
  passive : v.passive = u.passive
  passiveTime : v.passiveTime = u.passiveTime
  modTime : v.passiveTimeModTime = u.passiveTimeModTime

namespace SameFrozen

theorem refl (u : UserImpl) : SameFrozen u u := ⟨rfl, rfl, rfl⟩

theorem trans {u v w : UserImpl} (h : SameFrozen u v) (h' : SameFrozen v w) : SameFrozen u w :=
  ⟨h'.passive.trans h.passive, h'.passiveTime.trans h.passiveTime, h'.modTime.trans h.modTime⟩

theorem ite {u v w : UserImpl} {c : Prop} [Decidable c] (h : SameFrozen u v)
    (h' : SameFrozen u w) : SameFrozen u (if c then v else w) := by
  split_ifs
  · exact h
  · exact h'

end SameFrozen

namespace UserImpl

theorem sameFrozen_disconnect (env : Env) (fake : Bool) (reason : String) (u : UserImpl) :
    SameFrozen u (u.disconnect env fake reason) := by
  obtain ⟨_, _, _, _, _, _, h⟩ := disconnect_frame env fake reason u
  rw [h]
  exact ⟨rfl, rfl, rfl⟩

theorem sameFrozen_connect (env : Env) (fake : Bool) (u : UserImpl) :
    SameFrozen u (u.connect env fake) := by
  simp only [connect, writeSession]
  split_ifs <;> exact ⟨rfl, rfl, rfl⟩

/-- Connecting and disconnecting do not concern frozen time. -/
theorem sameFrozen_runSession (env : Env) (u : UserImpl) : SameFrozen u (u.runSession env) := by
  have hactive : SameFrozen u { u with lastActivityTime := env.stgTime } := ⟨rfl, rfl, rfl⟩
  unfold runSession
  refine .ite ?_ (.ite (sameFrozen_disconnect ..) (.refl u))
  dsimp only
  have hstart : SameFrozen u (if u.connected then { u with lastActivityTime := env.stgTime }
    else u) := .ite hactive (.refl u)
  generalize (if u.connected then { u with lastActivityTime := env.stgTime } else u) = v at hstart ⊢
  have hconnect : SameFrozen v (if v.connected = false ∧ v.isInetable env = true then
    v.connect env false else v) := .ite (sameFrozen_connect ..) (.refl v)
  exact hstart.trans (hconnect.trans (.ite (sameFrozen_disconnect ..) (.refl _)))

/-- The test of `UserImpl::Run` that makes it add frozen time. -/
def accrues (stgTime : Time) (u : UserImpl) : Prop :=
  u.passive ≠ 0 ∧ stgTime % 30 = 0 ∧ u.passiveTimeModTime ≠ stgTime

instance (stgTime : Time) (u : UserImpl) : Decidable (u.accrues stgTime) :=
  inferInstanceAs (Decidable (u.passive ≠ 0 ∧ stgTime % 30 = 0 ∧ u.passiveTimeModTime ≠ stgTime))

/-- **What `Run` does to the frozen time.** -/
theorem run_frozen (env : Env) (u : UserImpl) :
    (u.run env).passive = u.passive ∧
    (u.run env).passiveTime =
      (if u.accrues env.stgTime then u.passiveTime + (env.stgTime - u.passiveTimeModTime)
        else u.passiveTime) ∧
    (u.run env).passiveTimeModTime =
      (if u.accrues env.stgTime then env.time else u.passiveTimeModTime) := by
  have hsession := sameFrozen_runSession env (u.runAccounts env)
  rw [show u.run env = (u.runAccounts env).runSession env from rfl, hsession.passive,
    hsession.passiveTime, hsession.modTime]
  -- the statistics and the credit do not concern frozen time either
  obtain ⟨v, hv, heq⟩ : ∃ v, SameFrozen u v ∧ u.runAccounts env =
      if v.accrues env.stgTime then
        { v with
          passiveTime := v.passiveTime + (env.stgTime - v.passiveTimeModTime)
          passiveTimeModTime := env.time }
      else v := by
    refine ⟨_, ?_, rfl⟩
    have hstat : SameFrozen u (if u.statDue env then u.writeStat env else u) :=
      .ite (.ite ⟨rfl, rfl, rfl⟩ (.refl u)) (.refl u)
    exact hstat.trans (.ite ⟨rfl, rfl, rfl⟩ (.refl _))
  have haccrues : v.accrues env.stgTime ↔ u.accrues env.stgTime := by
    rw [accrues, accrues, hv.passive, hv.modTime]
  rw [heq]
  by_cases h : u.accrues env.stgTime
  · simp only [if_pos h, if_pos (haccrues.2 h)]
    exact ⟨hv.passive, by rw [hv.passiveTime, hv.modTime], trivial⟩
  · simp only [if_neg h, if_neg (mt haccrues.1 h)]
    exact ⟨hv.passive, hv.passiveTime, hv.modTime⟩

end UserImpl

/-! ## An observed user -/

/-- A user under observation. -/
structure FrozenUser where
  /-- The user. -/
  user : UserImpl
  /-- The clock. -/
  now : Time
  /-- The value of `passiveTime` at its last reset. -/
  base : Time
  /-- How long the user has been frozen since the last reset. -/
  frozen : Time
  /-- How long the user has not been frozen since `passiveTime` was last modified. -/
  idle : Time

/-- What happens to the user. -/
inductive FrozenOp
  /-- `Run`, in an environment whose clocks are set to the present. -/
  | run (env : Env)
  /-- `passive` is set. -/
  | setPassive (env : Env) (v : ℤ)
  /-- `ResetPassiveTime`. -/
  | resetPassiveTime (env : Env)

/-- Some time passes, and something happens. -/
structure FrozenAction where
  /-- The time that passes. -/
  wait : ℕ
  /-- What happens then. -/
  op : FrozenOp

namespace FrozenUser

/-- Both clocks show the present. -/
def clocked (env : Env) (s : FrozenUser) : Env := { env with stgTime := s.now, time := s.now }

/-- Time passes. -/
def wait (d : ℕ) (s : FrozenUser) : FrozenUser :=
  if s.user.passive ≠ 0 then { s with now := s.now + d, frozen := s.frozen + d }
  else { s with now := s.now + d, idle := s.idle + d }

/-- Something happens. -/
def perform (s : FrozenUser) : FrozenOp → FrozenUser
  | .run env =>
    { s with
      user := s.user.run (s.clocked env)
      idle := if s.user.accrues s.now then 0 else s.idle }
  | .setPassive env v => { s with user := s.user.setPassive (s.clocked env) v }
  | .resetPassiveTime env =>
    { s with user := s.user.resetPassiveTime (s.clocked env), base := 0, frozen := 0, idle := 0 }

/-- A step of a run. -/
def step (s : FrozenUser) (a : FrozenAction) : Option FrozenUser := some ((s.wait a.wait).perform a.op)

/-- The beginning of the observation: the property has just been set. -/
def start (u : UserImpl) (now : Time) : FrozenUser :=
  ⟨{ u with passiveTimeModTime := now }, now, u.passiveTime, 0, 0⟩

/-- Only frozen time is discounted. -/
def OnlyFrozen (s : FrozenUser) : Prop := s.user.passiveTime ≤ s.base + s.frozen

/-- A `Run` that adds frozen time finds a user who has been frozen all the time since `passiveTime`
was last modified. -/
def AlwaysFrozen (s : FrozenUser) (a : FrozenAction) : Prop :=
  match a.op with
  | .run _ => (s.wait a.wait).user.accrues (s.wait a.wait).now → (s.wait a.wait).idle = 0
  | _ => True

/-- What every step keeps, as long as only frozen time is discounted: the time since the last
modification is divided into frozen and other time. -/
structure Observed (s : FrozenUser) : Prop where
  idle_nonneg : 0 ≤ s.idle
  idle_le : s.idle ≤ s.now - s.user.passiveTimeModTime
  divided : s.OnlyFrozen →
    s.user.passiveTime + (s.now - s.user.passiveTimeModTime) = s.base + s.frozen + s.idle

theorem observed_start (u : UserImpl) (now : Time) : (start u now).Observed where
  idle_nonneg := le_rfl
  idle_le := by simp [start]
  divided _ := by simp [start]

/-- Nothing is discounted while time passes. -/
theorem wait_keeps {s : FrozenUser} (h : s.Observed) (hp : s.OnlyFrozen) (d : ℕ) :
    (s.wait d).Observed ∧ (s.wait d).OnlyFrozen := by
  have h1 := h.idle_nonneg
  have h2 := h.idle_le
  have h3 := h.divided hp
  unfold OnlyFrozen at hp
  unfold wait
  split_ifs
  · refine ⟨⟨h1, ?_, fun _ => ?_⟩, ?_⟩
    · simp only; lia
    · simp only; lia
    · simp only [OnlyFrozen]; lia
  · refine ⟨⟨?_, ?_, fun _ => ?_⟩, ?_⟩
    · simp only; lia
    · simp only; lia
    · simp only; lia
    · simp only [OnlyFrozen]; lia

/-- Setting `passive` may cost money, and is no modification of `passiveTime`. -/
theorem setPassive_frozen (env : Env) (v : ℤ) (u : UserImpl) :
    (u.setPassive env v).passiveTime = u.passiveTime ∧
      (u.setPassive env v).passiveTimeModTime = u.passiveTimeModTime := by
  unfold UserImpl.setPassive
  split
  · split_ifs <;> exact ⟨rfl, rfl⟩
  · exact ⟨rfl, rfl⟩

/-- **One step discounts only frozen time** exactly if it does not add time that was not frozen, and
the observation goes on. -/
theorem step_onlyFrozen_iff {s : FrozenUser} (h : s.Observed) (hp : s.OnlyFrozen)
    (a : FrozenAction) :
    ((s.wait a.wait).perform a.op).Observed ∧
      (((s.wait a.wait).perform a.op).OnlyFrozen ↔ s.AlwaysFrozen a) := by
  obtain ⟨h', hp'⟩ := wait_keeps h hp a.wait
  unfold AlwaysFrozen
  generalize s.wait a.wait = t at h' hp' ⊢
  have h1 := h'.idle_nonneg
  have h2 := h'.idle_le
  have h3 := h'.divided hp'
  cases a.op with
  | run env =>
    obtain ⟨-, htime, hmod⟩ := t.user.run_frozen (t.clocked env)
    have hnow : (t.clocked env).stgTime = t.now := rfl
    have hnow' : (t.clocked env).time = t.now := rfl
    rw [hnow] at htime hmod
    rw [hnow'] at hmod
    by_cases hacc : t.user.accrues t.now
    · rw [if_pos hacc] at htime hmod
      simp only [perform, OnlyFrozen, hacc, if_true, true_imp_iff, htime]
      refine ⟨⟨le_rfl, ?_, fun hle => ?_⟩, ?_⟩
      · simp only [hmod]; lia
      · simp only [OnlyFrozen, htime] at hle
        simp only [htime, hmod]
        lia
      · constructor
        · intro hle; lia
        · intro hidle; lia
    · rw [if_neg hacc] at htime hmod
      unfold OnlyFrozen at hp'
      simp only [perform, OnlyFrozen, hacc, if_false, false_imp_iff, htime]
      refine ⟨⟨h1, ?_, fun _ => ?_⟩, by simpa using hp'⟩
      · simpa only [hmod] using h2
      · simpa only [htime, hmod] using h3
  | setPassive env v =>
    obtain ⟨htime, hmod⟩ := setPassive_frozen (t.clocked env) v t.user
    unfold OnlyFrozen at hp'
    refine ⟨⟨h1, ?_, fun _ => ?_⟩, ?_⟩
    · simpa only [perform, hmod] using h2
    · simpa only [perform, htime, hmod] using h3
    · simpa only [perform, OnlyFrozen, htime, iff_true] using hp'
  | resetPassiveTime env =>
    refine ⟨⟨le_rfl, ?_, fun _ => ?_⟩, ?_⟩
    · simp [perform, UserImpl.resetPassiveTime, FrozenUser.clocked]
    · simp [perform, UserImpl.resetPassiveTime, FrozenUser.clocked]
    · simp [perform, UserImpl.resetPassiveTime, OnlyFrozen]

/-- **Only frozen time is discounted** in every state of a run exactly if every `Run` of it that adds
frozen time finds a user who has been frozen all the time since `passiveTime` was last modified. -/
theorem maintains_onlyFrozen_iff (u : UserImpl) (now : Time) (as : List FrozenAction) :
    Transition.Maintains step OnlyFrozen (start u now) as ↔
      ∃ t, Transition.Reaches step AlwaysFrozen (start u now) as t := by
  refine Transition.maintains_iff_reaches (A := Observed) ?_ ?_ as (observed_start u now) ?_
  · intro s a s' hA hP hs
    obtain rfl := Option.some.inj hs
    exact (step_onlyFrozen_iff hA hP a).1
  · intro s a hA hP
    rw [← (step_onlyFrozen_iff hA hP a).2]
    constructor
    · rintro ⟨s', hs, hP'⟩
      obtain rfl := Option.some.inj hs
      exact hP'
    · exact fun hP' => ⟨_, rfl, hP'⟩
  · simp [OnlyFrozen, start]

/-- A user who is not frozen for 1000 seconds and then frozen for 20 has a discount of 1020. -/
theorem not_onlyFrozen_sample :
    ∃ t, Transition.Runs step (start (Sample.user "user") 0)
      [⟨1000, .setPassive (Sample.env 0) 1⟩, ⟨20, .run (Sample.env 0)⟩] t ∧
      t.user.passiveTime = 1020 ∧ t.base + t.frozen = 20 ∧ ¬ t.OnlyFrozen := by
  refine ⟨_, .cons trivial rfl (.cons trivial rfl (.nil _)), ?_, ?_, ?_⟩
  · decide +kernel
  · decide +kernel
  · unfold OnlyFrozen
    decide +kernel

end FrozenUser

end Stargazer
