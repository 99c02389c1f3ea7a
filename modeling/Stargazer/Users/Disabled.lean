import Stargazer.Users.Session
import Stargazer.Users.Fees

set_option relaxedAutoImplicit false
set_option autoImplicit false

/-!
# Disabling a user

`UserImpl::onDisabledChange` of `user_impl.cpp` runs after the new value is written.  It disconnects
where a user is enabled, and where a user is disabled it connects if the user may be connected,
which a disabled user never may.

What makes a disconnect effective is that a connected user has an address to disconnect, in every
state a user can get into, whether the sessions are logged or not.

## Main definitions

* `Stargazer.UserImpl.Attached` — a connected user is authorized and has an address.
* `Stargazer.UserImpl.UserAction`, `Stargazer.UserImpl.userStep` — what happens to a user.
* `Stargazer.UserImpl.TakesEffect` — what is expected of a change of `disabled`.

## Main results

* `Stargazer.UserImpl.attached_of_runs` — the invariant of all reachable states.
* `Stargazer.UserImpl.takesEffect_iff` — when a change of `disabled` does what is expected.
-/

namespace Stargazer

namespace UserImpl

/-! ## The connection -/

/-- A connected user is authorized and has an address to disconnect. -/
structure Attached (u : UserImpl) : Prop where
  /-- A connected user has an address to disconnect. -/
  lastIP : u.connected = true → u.lastIPForDisconnect ≠ 0
  /-- An authorized user has an address. -/
  currIP : u.authorizedBy ≠ ∅ → u.currIP ≠ 0
  /-- A connected user is authorized. -/
  authorized : u.connected = true → u.authorizedBy ≠ ∅

/-- The parts of the user the connection consists of are the same. -/
structure SameLink (u v : UserImpl) : Prop where
  /-- The same connection. -/
  connected : v.connected = u.connected
  /-- The same address. -/
  currIP : v.currIP = u.currIP
  /-- The same address to disconnect. -/
  lastIP : v.lastIPForDisconnect = u.lastIPForDisconnect
  /-- The same authorizers. -/
  authorizedBy : v.authorizedBy = u.authorizedBy

theorem SameLink.refl (u : UserImpl) : SameLink u u := ⟨rfl, rfl, rfl, rfl⟩

theorem SameLink.trans {u v w : UserImpl} (h : SameLink u v) (h' : SameLink v w) : SameLink u w :=
  ⟨h'.connected.trans h.connected, h'.currIP.trans h.currIP, h'.lastIP.trans h.lastIP,
    h'.authorizedBy.trans h.authorizedBy⟩

theorem SameSession.sameLink {u v : UserImpl} (h : SameSession u v) : SameLink u v :=
  ⟨h.connected, h.currIP, h.lastIP, h.authorizedBy⟩

/-- The invariant only depends on the connection. -/
theorem SameLink.attached {u v : UserImpl} (h : SameLink u v) (hu : u.Attached) : v.Attached := by
  refine ⟨?_, ?_, ?_⟩
  · rw [h.connected, h.lastIP]
    exact hu.lastIP
  · rw [h.authorizedBy, h.currIP]
    exact hu.currIP
  · rw [h.connected, h.authorizedBy]
    exact hu.authorized

section Connection

variable {env : Env} {u : UserImpl}

/-- An authorized user can be connected. -/
theorem Attached.connect (h : u.Attached) (hauth : u.authorizedBy ≠ ∅) :
    (u.connect env false).Attached := by
  have hlink : SameLink { u with connected := true, lastIPForDisconnect := u.currIP }
      (u.connect env false) := by
    simp only [UserImpl.connect, writeSession, Bool.false_eq_true, if_false]
    split_ifs <;> exact ⟨rfl, rfl, rfl, rfl⟩
  exact hlink.attached ⟨fun _ => h.currIP hauth, h.currIP, fun _ => hauth⟩

/-- After a disconnect the user is not connected, or nothing has happened. -/
theorem Attached.disconnect (h : u.Attached) (reason : String) :
    (u.disconnect env false reason).Attached := by
  by_cases hip : u.lastIPForDisconnect = 0
  · have heq : u.disconnect env false reason = u := by simp only [UserImpl.disconnect, if_pos hip]
    rwa [heq]
  · have hconn := disconnect_connected env reason hip
    refine ⟨fun hc => ?_, ?_, fun hc => ?_⟩
    · rw [hconn] at hc
      exact absurd hc (by decide)
    · simpa using h.currIP
    · rw [hconn] at hc
      exact absurd hc (by decide)

/-- Connect an authorized user, if a condition holds. -/
theorem Attached.connectIf (h : u.Attached) (c : Prop) [Decidable c] (hc : c → u.authorizedBy ≠ ∅) :
    (if c then u.connect env false else u).Attached := by
  split_ifs with hcond
  · exact h.connect (hc hcond)
  · exact h

/-- Disconnect, if a condition holds. -/
theorem Attached.disconnectIf (h : u.Attached) (c : Prop) [Decidable c] (reason : String) :
    (if c then u.disconnect env false reason else u).Attached := by
  split_ifs
  · exact h.disconnect reason
  · exact h

/-- A fake disconnect or connect does not touch the connection. -/
theorem sameLink_fakeDisconnect (env : Env) (reason : String) (u : UserImpl) :
    SameLink u (u.disconnect env true reason) := by
  simp only [UserImpl.disconnect, writeSession, if_true]
  split_ifs <;> exact ⟨rfl, rfl, rfl, rfl⟩

theorem SameLink.fakeConnect {v : UserImpl} (h : SameLink u v) :
    SameLink u (v.connect env true) := by
  refine h.trans ?_
  simp only [UserImpl.connect, writeSession, if_true]
  split_ifs <;> exact ⟨rfl, rfl, rfl, rfl⟩

end Connection

/-! ## The operations -/

section Operations

variable {env : Env} {u : UserImpl}

/-- `Authorize`. -/
theorem Attached.authorize (h : u.Attached) (ipIndex : IP → Option UserId) (self : UserId) (ip : IP)
    (dirs : BitVec 32) (auth : AuthId) :
    (u.authorize env ipIndex self ip dirs auth).user.Attached := by
  rcases u.authorize_cases env ipIndex self ip dirs auth with
    ⟨-, hr⟩ | ⟨-, d, e, hr⟩ | ⟨-, -, hby, -, -, hr⟩ | ⟨-, hne, -, -, hr⟩
  · rw [hr]
    exact h
  · rw [hr]
    exact ⟨h.lastIP, h.currIP, h.authorized⟩
  · rw [hr]
    exact ⟨h.lastIP, fun _ => h.currIP hby, by simp⟩
  · rw [hr]
    exact ⟨fun _ => hne, fun _ => hne, by simp⟩

/-- `Unauthorize`: when the last authorizer leaves, the address to disconnect is set first. -/
theorem Attached.unauthorize (h : u.Attached) (auth : AuthId) (reason : String) :
    (u.unauthorize env auth reason).user.Attached := by
  rcases u.unauthorize_cases env auth reason with ⟨-, hr⟩ | ⟨hauth, he, hr⟩ | ⟨hauth, -, hr⟩
  · rw [hr]
    exact h
  · rw [hr]
    exact ⟨h.lastIP, fun _ => h.currIP (Finset.ne_empty_of_mem hauth), fun _ => he⟩
  · have hip : u.currIP ≠ 0 := h.currIP (Finset.ne_empty_of_mem hauth)
    rw [hr]
    by_cases hconn : u.connected = true
    · simp only [if_pos hconn]
      set v : UserImpl := { u with
        authorizedBy := ∅
        authorizedModificationTime := env.stgTime
        lastDisconnectReason := reason
        lastIPForDisconnect := u.currIP
        currIP := 0 }
      have hv := disconnect_connected (u := v) env "not authorized" hip
      refine ⟨fun hc => ?_, ?_, fun hc => ?_⟩
      · rw [hv] at hc
        exact absurd hc (by decide)
      · simp [v]
      · rw [hv] at hc
        exact absurd hc (by decide)
    · simp only [if_neg hconn]
      exact ⟨fun _ => hip, by simp, fun hc => absurd hc hconn⟩

/-- `Run`. -/
theorem Attached.run (h : u.Attached) : (u.run env).Attached := by
  have h1 := (sameSession_runAccounts env u).sameLink.attached h
  unfold UserImpl.run
  generalize u.runAccounts env = u at h1
  unfold UserImpl.runSession
  by_cases hauth : u.authorizedBy ≠ ∅
  · rw [if_pos hauth]
    have hlink : SameLink u
        (if u.connected then { u with lastActivityTime := env.stgTime } else u) := by
      split_ifs <;> exact ⟨rfl, rfl, rfl, rfl⟩
    refine Attached.disconnectIf (Attached.connectIf (hlink.attached h1) _ fun _ => ?_) _ _
    rw [hlink.authorizedBy]
    exact hauth
  · rw [if_neg hauth]
    exact h1.disconnectIf _ _

/-- A change of the tariff. -/
theorem Attached.setTariffName (h : u.Attached) (v : String) : (u.setTariffName env v).Attached := by
  have hquiet : ∀ (w : UserImpl) (t : Option TariffImpl) (n : String),
      SameLink w { w with tariff := t, tariffName := n } := fun w t n => ⟨rfl, rfl, rfl, rfl⟩
  simp only [UserImpl.setTariffName, onTariffChange]
  have h1 : (if env.settings.reconnectOnTariffChange = true ∧ u.connected = true then
      u.disconnect env false "Change tariff" else u).Attached := h.disconnectIf _ _
  set w := if env.settings.reconnectOnTariffChange = true ∧ u.connected = true then
    u.disconnect env false "Change tariff" else u
  split_ifs with hcond
  · have h2 := (hquiet w (env.tariffs v) v).attached h1
    exact (hquiet _ _ v).attached (h2.connect hcond.2.1)
  · exact (hquiet w _ v).attached h1

/-- A change of the addresses. -/
theorem Attached.setIps (h : u.Attached) (v : UserIPs) : (u.setIps env v).Attached := by
  have h0 : Attached { u with ips := v } := ⟨h.lastIP, h.currIP, h.authorized⟩
  exact (h0.disconnectIf _ _).connectIf _ fun hc => hc.1

/-- A change of `disabled` never connects: a disabled user may not be connected. -/
theorem Attached.setDisabled (h : u.Attached) (v : ℤ) : (u.setDisabled env v).Attached := by
  have h0 : Attached { u with disabled := v } := ⟨h.lastIP, h.currIP, h.authorized⟩
  simp only [UserImpl.setDisabled]
  split_ifs with hdis hcon
  · exact h0.disconnect _
  · have hnot : isInetable env { u with disabled := v } = false := by
      simp [isInetable, hcon.2.1]
    rw [hnot] at hcon
    exact absurd hcon.2.2 (by simp)
  · exact h0

/-- `ProcessNewMonth`. -/
theorem Attached.processNewMonth (h : u.Attached) {v : UserImpl}
    (hv : u.processNewMonth env = some v) : v.Attached := by
  have hreset : SameLink u (u.resetMonth env) := by
    unfold UserImpl.resetMonth
    simp only
    have h1 : SameLink u (if u.connected = true then u.disconnect env true "fake" else u) := by
      split_ifs
      · exact sameLink_fakeDisconnect env _ u
      · exact .refl u
    generalize (if u.connected = true then u.disconnect env true "fake" else u) = w at h1
    split_ifs
    · exact SameLink.fakeConnect (h1.trans ⟨rfl, rfl, rfl, rfl⟩)
    · exact h1.trans ⟨rfl, rfl, rfl, rfl⟩
  have h1 := hreset.attached h
  unfold UserImpl.processNewMonth at hv
  generalize u.resetMonth env = u at h1 hv
  have hquiet : ∀ w : UserImpl, SameLink w { w with nextTariff := "" } :=
    fun w => ⟨rfl, rfl, rfl, rfl⟩
  unfold UserImpl.takeNextTariff at hv
  split_ifs at hv
  · cases hv
    exact h1
  · split at hv
    · cases hv
      exact (hquiet u).attached h1
    · split at hv
      · cases hv
      · cases hv
        split_ifs
        · exact (hquiet _).attached (h1.setTariffName u.nextTariff)
        · exact (hquiet u).attached h1

/-- **One action** of a user keeps the invariant, whatever the settings. -/
theorem Attached.sessionStep (h : u.Attached) (a : SessionAction) {v : UserImpl}
    (hv : u.sessionStep a = some v) : v.Attached := by
  cases a with
  | addTraffStat env side dir ip len =>
    obtain rfl := Option.some.inj hv
    obtain ⟨-, hconn, -, hcurr, hby, hlast, -⟩ := addTraffStat_frame side env dir ip len u
    exact SameLink.attached ⟨hconn, hcurr, hlast, hby⟩ h
  | processNewMonth env => exact h.processNewMonth hv
  | authorize env ipIndex self ip dirs auth =>
    obtain rfl := Option.some.inj hv
    exact h.authorize ipIndex self ip dirs auth
  | unauthorize env auth reason =>
    obtain rfl := Option.some.inj hv
    exact h.unauthorize auth reason
  | run env =>
    obtain rfl := Option.some.inj hv
    exact h.run
  | midnightResetSessionStat env =>
    obtain rfl := Option.some.inj hv
    unfold UserImpl.midnightResetSessionStat
    split_ifs
    · exact (sameLink_fakeDisconnect env _ u).fakeConnect.attached h
    · exact h
  | setTariffName env v =>
    obtain rfl := Option.some.inj hv
    exact h.setTariffName v
  | setIps env v =>
    obtain rfl := Option.some.inj hv
    exact h.setIps v
  | setDisabled env v =>
    obtain rfl := Option.some.inj hv
    exact h.setDisabled v
  | setPassive env v =>
    obtain rfl := Option.some.inj hv
    exact (sameSession_setPassive env v u).sameLink.attached h
  | setCash env v =>
    obtain rfl := Option.some.inj hv
    exact SameLink.attached (u := u) ⟨rfl, rfl, rfl, rfl⟩ h
  | setCredit env v =>
    obtain rfl := Option.some.inj hv
    exact SameLink.attached (u := u) ⟨rfl, rfl, rfl, rfl⟩ h

/-- Prepaid traffic is no connection. -/
theorem SameLink.setPrepaidTraff {v : UserImpl} (h : SameLink u v) :
    SameLink u v.setPrepaidTraff := by
  refine h.trans ?_
  unfold UserImpl.setPrepaidTraff
  split <;> exact ⟨rfl, rfl, rfl, rfl⟩

/-- An iteration of the loop over the services. -/
theorem sameLink_processService {find : String → Option ServiceConf} {part : Money} {name : String}
    {v : UserImpl} (hv : u.processService env find part name = some v) : SameLink u v := by
  unfold processService at hv
  split at hv
  · cases hv
    exact .refl _
  · simp only [Option.bind_eq_bind, Option.bind_eq_some_iff] at hv
    obtain ⟨due, -, hv⟩ := hv
    cases due with
    | false =>
      cases hv
      exact .refl _
    | true =>
      simp only [if_true, Option.bind_eq_some_iff] at hv
      obtain ⟨t, -, hv⟩ := hv
      cases hv
      split_ifs
      · exact SameLink.setPrepaidTraff ⟨rfl, rfl, rfl, rfl⟩
      · exact .refl _

/-- The loop over the services. -/
theorem sameLink_processServices_loop {find : String → Option ServiceConf} {part : Money}
    (services : List String) {v : UserImpl}
    (hv : services.foldlM (processService env find part) u = some v) : SameLink u v := by
  induction services generalizing u with
  | nil =>
    cases hv
    exact .refl _
  | cons name services ih =>
    rw [List.foldlM_cons, Option.bind_eq_bind, Option.bind_eq_some_iff] at hv
    obtain ⟨w, hw, hv⟩ := hv
    exact (sameLink_processService hw).trans (ih hv)

/-- The four functions that charge a fee leave the connection alone. -/
theorem sameLink_perform {c : FeeCall} {v : UserImpl} (hv : c.perform = some v) :
    SameLink c.user v := by
  obtain ⟨function, env, u⟩ := c
  cases function with
  | dayFee =>
    obtain rfl := Option.some.inj hv
    unfold processDayFee
    split
    · exact .refl _
    · simp only
      split_ifs
      · exact SameLink.setPrepaidTraff ⟨rfl, rfl, rfl, rfl⟩
      · exact SameLink.setPrepaidTraff ⟨rfl, rfl, rfl, rfl⟩
      · exact ⟨rfl, rfl, rfl, rfl⟩
  | dayFeeSpread =>
    simp only [FeeCall.perform, processDayFeeSpread] at hv
    split at hv
    · cases hv
      exact .refl _
    · split_ifs at hv
      · cases hv
        exact .refl _
      · cases hv
        exact .refl _
      · simp only [Option.bind_eq_bind, Option.bind_eq_some_iff] at hv
        obtain ⟨days, -, hv⟩ := hv
        split_ifs at hv
        · cases hv
          exact .refl _
        · cases hv
          unfold chargeFee
          split_ifs <;> exact ⟨rfl, rfl, rfl, rfl⟩
  | dailyFee =>
    obtain rfl := Option.some.inj hv
    unfold processDailyFee
    split
    · exact .refl _
    · simp only
      split_ifs <;> exact ⟨rfl, rfl, rfl, rfl⟩
  | services find services =>
    simp only [FeeCall.perform, processServices] at hv
    split at hv
    · cases hv
      exact .refl _
    · exact sameLink_processServices_loop services hv

end Operations

/-! ## Runs -/

/-- What happens to a user. -/
inductive UserAction
  /-- One of the actions that concern the sessions. -/
  | session (a : SessionAction)
  /-- One of the functions that charge a fee. -/
  | fee (function : FeeFunction) (env : Env)

/-- One action; `none` is a null dereference or a failed assertion. -/
def userStep (u : UserImpl) : UserAction → Option UserImpl
  | .session a => u.sessionStep a
  | .fee function env => FeeCall.perform ⟨function, env, u⟩

/-- **Reachable users are attached.**

**Proof sketch.** A fresh user is neither connected nor authorized.  The invariant rule with
`Attached.sessionStep` and `sameLink_perform`. -/
theorem attached_of_runs {u v : UserImpl} {as : List UserAction} (hu : u.Fresh)
    (h : Transition.Runs userStep u as v) : v.Attached := by
  refine h.invariant (fun s a s' hs _ hstep => ?_) ?_
  · cases a with
    | session a => exact hs.sessionStep a hstep
    | fee function env => exact (sameLink_perform hstep).attached hs
  · refine ⟨fun hc => ?_, fun ha => absurd hu.authorizedBy ha, fun hc => ?_⟩
    · rw [hu.connected] at hc
      exact absurd hc (by decide)
    · rw [hu.connected] at hc
      exact absurd hc (by decide)

/-! ## Changes of `disabled` -/

/-- What is expected of a change of `disabled`. -/
structure TakesEffect (env : Env) (v : ℤ) (u : UserImpl) : Prop where
  /-- A disabled user is not connected. -/
  disabled : v ≠ 0 → (u.setDisabled env v).connected = false
  /-- Enabling does not disconnect. -/
  keeps : u.disabled ≠ 0 → v = 0 → u.connected = true → (u.setDisabled env v).connected = true
  /-- Enabling leaves an authorized user who may be connected connected. -/
  connects : u.disabled ≠ 0 → v = 0 → u.authorizedBy ≠ ∅ →
    (u.setDisabled env v).isInetable env = true → (u.setDisabled env v).connected = true

/-- The change to a value other than zero leaves the user as it is, apart from the value. -/
theorem setDisabled_of_ne_zero (env : Env) {v : ℤ} (hv : v ≠ 0) (u : UserImpl) :
    u.setDisabled env v = { u with disabled := v } := by
  have hnot : isInetable env { u with disabled := v } = false := by
    simp [isInetable, hv]
  simp [setDisabled, hv, hnot]

/-- The change to zero leaves a user who is not connected as it is, apart from the value. -/
theorem setDisabled_zero_of_not_connected (env : Env) {u : UserImpl} (hc : u.connected = false) :
    u.setDisabled env 0 = { u with disabled := 0 } := by
  simp [setDisabled, hc]

/-- **Disabling and enabling.** In every state a user can get into, and for every change of
`disabled`: the change takes effect if and only if the user is not connected when it is disabled, and
when it is enabled neither is connected nor is authorized and may be connected.

**Proof sketch.** A change to a value other than zero does nothing else, so that it leaves a
connected user connected.  A change to zero disconnects a connected user, who has an address to
disconnect (`attached_of_runs`), and does nothing to another one. -/
theorem takesEffect_iff (u₀ u : UserImpl) (as : List UserAction) (hu : u₀.Fresh)
    (h : Transition.Runs userStep u₀ as u) (env : Env) (v : ℤ) :
    TakesEffect env v u ↔
      (v ≠ 0 → u.connected = false) ∧
      (u.disabled ≠ 0 → v = 0 → u.connected = false ∧
        ¬(u.authorizedBy ≠ ∅ ∧ isInetable env { u with disabled := 0 } = true)) := by
  have hatt := attached_of_runs hu h
  constructor
  · intro ht
    refine ⟨fun hv => ?_, ?_⟩
    · have := ht.disabled hv
      rwa [setDisabled_of_ne_zero env hv] at this
    · rintro hold rfl
      have hconn : u.connected = false := by
        by_contra hc
        rw [Bool.not_eq_false] at hc
        have hkeep := ht.keeps hold rfl hc
        have hdis : (u.setDisabled env 0).connected = false := by
          simp only [setDisabled, ne_eq, hold, hc, not_false_eq_true, and_self, if_true]
          exact disconnect_connected env "disabled" (hatt.lastIP hc)
        rw [hdis] at hkeep
        exact absurd hkeep (by decide)
      refine ⟨hconn, ?_⟩
      rintro ⟨hauth, hinet⟩
      have hcon := ht.connects hold rfl hauth
      rw [setDisabled_zero_of_not_connected env hconn] at hcon
      have hc := hcon hinet
      rw [show ({ u with disabled := 0 } : UserImpl).connected = u.connected from rfl, hconn] at hc
      exact absurd hc (by decide)
  · rintro ⟨hdis, hen⟩
    refine ⟨fun hv => ?_, ?_, ?_⟩
    · rw [setDisabled_of_ne_zero env hv]
      exact hdis hv
    · intro hold hv hc
      rw [(hen hold hv).1] at hc
      exact absurd hc (by decide)
    · rintro hold rfl hauth hinet
      obtain ⟨hconn, hnot⟩ := hen hold rfl
      rw [setDisabled_zero_of_not_connected env hconn] at hinet
      exact absurd ⟨hauth, hinet⟩ hnot

/-- An authorized user is connected, disabled and disconnected by `Run`: disabling it once more takes
effect, and enabling it does not. -/
theorem takesEffect_after_disconnect :
    ∃ u, Transition.Runs userStep (Sample.user "online")
        [.session (.authorize (Sample.env 0) (fun _ => none) 0 7 0 1),
          .session (.run (Sample.env 1)), .session (.setDisabled (Sample.env 2) 1),
          .session (.run (Sample.env 3))] u ∧
      u.authorizedBy ≠ ∅ ∧ TakesEffect (Sample.env 4) 2 u ∧ ¬TakesEffect (Sample.env 4) 0 u := by
  have hrun : ∃ u, Transition.Runs userStep (Sample.user "online")
      [.session (.authorize (Sample.env 0) (fun _ => none) 0 7 0 1),
        .session (.run (Sample.env 1)), .session (.setDisabled (Sample.env 2) 1),
        .session (.run (Sample.env 3))] u ∧
      u.authorizedBy ≠ ∅ ∧ u.connected = false ∧ u.disabled ≠ 0 ∧
      isInetable (Sample.env 4) { u with disabled := 0 } = true :=
    ⟨_, .cons trivial rfl (.cons trivial rfl (.cons trivial rfl (.cons trivial rfl (.nil _)))),
      by decide +kernel, by decide +kernel, by decide +kernel, by decide +kernel⟩
  obtain ⟨u, hu, hauth, hconn, hdisabled, hinet⟩ := hrun
  have hiff (v : ℤ) := takesEffect_iff _ _ _ ⟨rfl, rfl, rfl, rfl, rfl⟩ hu (Sample.env 4) v
  refine ⟨u, hu, hauth, (hiff 2).mpr ⟨fun _ => hconn, fun _ h => absurd h (by decide)⟩, fun h => ?_⟩
  exact (((hiff 0).mp h).2 hdisabled rfl).2 ⟨hauth, hinet⟩

/-- **A user is authorized and connected, and then disabled**: it stays connected. -/
theorem disabled_user_stays_connected :
    ∃ u, Transition.Runs userStep (Sample.user "online")
        [.session (.authorize (Sample.env 0) (fun _ => none) 0 7 0 1),
          .session (.run (Sample.env 1))] u ∧
      (u.setDisabled (Sample.env 2) 1).connected = true ∧ ¬TakesEffect (Sample.env 2) 1 u := by
  refine ⟨_, .cons trivial rfl (.cons trivial rfl (.nil _)), by decide +kernel, fun h => ?_⟩
  exact absurd (h.disabled (by decide)) (by decide +kernel)

end UserImpl

end Stargazer
