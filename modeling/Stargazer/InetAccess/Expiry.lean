import Stargazer.InetAccess.Client

set_option relaxedAutoImplicit false
set_option autoImplicit false

/-!
# How long sessions last

`Timeouter` closes sessions in which the client is silent.  Two things depend on it: an authorized
user has a session, so that it is unauthorized when its client is silent; and the address of a
session is free again some time after its client has left.

A session is closed in six ways.  Two of them do not unauthorize the user, although it may be
authorized: a client that connects again and then is silent, and a datagram that is not decrypted to
a packet with a known name.  And there is one phase, the first, in which a session is never closed.

## Main definitions

* `Stargazer.AuthIa.Covered` — every authorized user has a session at its address.
* `Stargazer.IaRun.KeepsSessions` — the steps that do not close the session of an authorized user
  without unauthorizing it.
* `Stargazer.AuthIa.Recent` — a time that is not longer ago than a session lasts.

## Main results

* `Stargazer.IaRun.covered_of_reaches` — runs of such steps.
* `Stargazer.IaRun.recent_iff_opened_recent` — after which ticks all sessions are recent.
-/

namespace Stargazer

namespace AuthIa

/-! ## Sessions of authorized users -/

/-- Every user who is authorized by the authorizer has a session at its address, and it is not in
the first phase. -/
def Covered (s : AuthIa) : Prop :=
  ∀ id, iaAuth ∈ (s.users.users id).authorizedBy →
    ∃ e, s.session (s.users.users id).currIP = some e ∧ e.user = id ∧ e.phase ≠ .one

/-- **A change at one address** leaves authorized users with their sessions if the user it concerns
has one there afterwards, as long as it is authorized there. -/
theorem Covered.touch {s s' : AuthIa} {sip : IP} {user : UserId} (hcov : s.Covered)
    (h : Touches s s' sip user)
    (hsession : ∀ e, s.session sip = some e → e.user = user)
    (hhere : iaAuth ∈ (s'.users.users user).authorizedBy → (s'.users.users user).currIP = sip →
      ∃ e, s'.session sip = some e ∧ e.user = user ∧ e.phase ≠ .one)
    (haway : iaAuth ∈ (s'.users.users user).authorizedBy → (s'.users.users user).currIP ≠ sip →
      iaAuth ∈ (s.users.users user).authorizedBy ∧
        (s'.users.users user).currIP = (s.users.users user).currIP) : s'.Covered := by
  intro id hauth
  by_cases hid : id = user
  · subst hid
    by_cases hcurr : (s'.users.users id).currIP = sip
    · rw [hcurr]
      exact hhere hauth hcurr
    · obtain ⟨hbefore, heq⟩ := haway hauth hcurr
      rw [h.session _ hcurr, heq]
      exact hcov id hbefore
  · rw [h.users.others id hid] at hauth ⊢
    obtain ⟨e, he, huser, hphase⟩ := hcov id hauth
    have hne : (s.users.users id).currIP ≠ sip := fun hc => by
      rw [hc] at he
      exact hid (huser.symm.trans (hsession e he))
    exact ⟨e, (h.session _ hne).trans he, huser, hphase⟩

/-- The same for a change that leaves the users alone. -/
theorem Covered.touch_session {s s' : AuthIa} {sip : IP} {user : UserId} (hcov : s.Covered)
    (h : Touches s s' sip user) (husers : s'.users = s.users)
    (hsession : ∀ e, s.session sip = some e → e.user = user)
    (hhere : iaAuth ∈ (s.users.users user).authorizedBy → (s.users.users user).currIP = sip →
      ∃ e, s'.session sip = some e ∧ e.user = user ∧ e.phase ≠ .one) : s'.Covered := by
  refine hcov.touch h hsession ?_ ?_
  · rw [husers]
    exact hhere
  · rw [husers]
    exact fun hauth _ => ⟨hauth, rfl⟩

/-- The session of an authorized user at its address. -/
theorem Covered.session_here {s : AuthIa} {sip : IP} {e : IaUser} (hcov : s.Covered)
    (he : s.session sip = some e) (hauth : iaAuth ∈ (s.users.users e.user).authorizedBy)
    (hcurr : (s.users.users e.user).currIP = sip) : e.phase ≠ .one := by
  obtain ⟨e', he', -, hphase⟩ := hcov e.user hauth
  rw [hcurr, he] at he'
  rwa [Option.some.inj he']

section Datagram

variable {io : IaEnv} {sip : IP} {protoVer : ℤ} {user : UserId} {e : IaUser} {pkt : IaPacket}
  {s s' s₁ : AuthIa}

/-- Authorized users have their sessions after the session of a datagram has been found. -/
theorem Entered.covered (hs : s.Sound) (hcov : s.Covered) {login : String}
    (hl : s.users.loginIndex login = some user) (h : Entered io sip user s e s₁) : s₁.Covered := by
  have hready := h.ready hs hl
  refine hcov.touch_session hready.touches hready.users (fun e₀ => h.user_of_session)
    fun hauth hcurr => ?_
  obtain ⟨e₀, he₀, -, hphase⟩ := hcov user hauth
  rw [hcurr] at he₀
  refine ⟨e, hready.session, hready.user_eq, ?_⟩
  cases h with
  | opened _ hnone _ _ _ _ _ _ _ =>
    rw [hnone] at he₀
    cases he₀
  | found e₁ hsome huser =>
    obtain rfl := Option.some.inj (hsome.symm.trans he₀)
    obtain ⟨ctx, pass, heq⟩ := renew_eq (io.password user) e₁
    rw [heq]
    exact hphase

/-- **A packet leaves authorized users with their sessions**, unless its name is unknown and the
user is authorized at the address. -/
theorem Handled.covered (hs : s.Sound) (hcov : s.Covered) (hsession : s.session sip = some e)
    (huser : e.user = user)
    (hknown : iaAuth ∈ (s.users.users user).authorizedBy → (s.users.users user).currIP = sip →
      pkt.type ≠ none)
    (h : Handled io sip protoVer user e pkt s s') : s'.Covered := by
  have htouch := h.touches hs hsession huser
  have hown : ∀ e₀, s.session sip = some e₀ → e₀.user = user := fun e₀ he₀ => by
    rw [← Option.some.inj (hsession.symm.trans he₀)]
    exact huser
  have hphase : iaAuth ∈ (s.users.users user).authorizedBy →
      (s.users.users user).currIP = sip → e.phase ≠ .one := by
    rw [← huser]
    exact hcov.session_here hsession
  have hok := hs.sessions sip e hsession
  have hfound : s.users.loginIndex e.login = some user := huser ▸ hok.found
  cases h with
  | unknown text htype =>
    refine hcov.touch_session htouch (by simp) hown fun hauth hcurr => ?_
    exact absurd htype (hknown hauth hcurr)
  | elsewhere text _ hcurr =>
    exact hcov.touch_session htouch (by simp) hown fun _ hc => absurd hc hcurr
  | ignored _ => exact hcov
  | rejected _ _ _ =>
    exact hcov.touch_session htouch rfl hown fun hauth hcurr =>
      ⟨e, hsession, huser, hphase hauth hcurr⟩
  | connSyn _ _ _ =>
    exact hcov.touch_session htouch rfl hown fun _ _ => ⟨_, session_put_self _ _ _, huser, by simp⟩
  | authorized _ _ _ hhere out hout hret =>
    have hnow := authorize_here hs hfound hhere hout hret
    refine hcov.touch htouch hown (fun _ _ => ⟨_, session_put_self _ _ _, huser, by simp⟩)
      fun _ hcurr => ?_
    exact absurd hnow.2 hcurr
  | refused _ _ _ _ out hout hret =>
    obtain ⟨-, -, hno⟩ := UsersImpl.authorize_spec hs.consistent hs.indexed hfound hout
    obtain ⟨hby, hcurr, hnot⟩ := hno hret
    refine hcov.touch htouch hown (fun hauth hc => ?_) (fun hauth _ => ?_)
    · rw [users_close, users_emit] at hauth hc
      exact absurd ⟨hby ▸ hauth, hcurr ▸ hc⟩ hnot
    · rw [users_close, users_emit] at hauth ⊢
      exact ⟨hby ▸ hauth, hcurr⟩
  | aliveAck _ hthree _ =>
    exact hcov.touch_session htouch rfl hown fun _ _ =>
      ⟨_, session_put_self _ _ _, huser, by simp [hthree]⟩
  | disconnSyn _ _ =>
    exact hcov.touch_session htouch rfl hown fun _ _ => ⟨_, session_put_self _ _ _, huser, by simp⟩
  | disconnAck _ hfour _ s₁ hun =>
    have hcurr := (hok.authorized (.inr hfour)).2
    rw [huser] at hcurr
    obtain ⟨-, hgone, -⟩ := touches_unauthorize hs.consistent hs.indexed hfound hcurr hun
    refine hcov.touch htouch hown (fun hauth _ => ?_) (fun hauth _ => ?_)
    · exact absurd hauth hgone
    · exact absurd hauth hgone

end Datagram

/-- No session in the second phase is about to be closed whose user is authorized at its address. -/
def NoneAbandoned (io : IaEnv) (s : AuthIa) : Prop :=
  ∀ sip e, s.session sip = some e → e.phase = .two →
    iaAuth ∈ (s.users.users e.user).authorizedBy → (s.users.users e.user).currIP = sip →
      io.now.passed e.phaseTime s.settings.userDelay = false

section Timer

variable {io : IaEnv} {sip : IP} {s s' : AuthIa}

/-- Without a session there is nothing for the timer to do. -/
theorem Timed.eq_of_none (hnone : s.session sip = none) (h : Timed io sip s s') : s' = s := by
  cases h with
  | unchanged _ => rfl
  | abandoned e hsome _ _ => rw [hnone] at hsome; cases hsome
  | alive e e' s₁ hsome _ _ _ => rw [hnone] at hsome; cases hsome
  | expired e e' s₁ s₂ hsome _ _ _ _ => rw [hnone] at hsome; cases hsome
  | back e hsome _ _ => rw [hnone] at hsome; cases hsome

/-- The timer leaves the users alone or unauthorizes the user of the session. -/
theorem Timed.users {e : IaUser} (hs : s.Sound) (hsession : s.session sip = some e)
    (h : Timed io sip s s') :
    s'.users = s.users ∨ iaAuth ∉ (s'.users.users e.user).authorizedBy := by
  cases h with
  | unchanged _ => exact .inl rfl
  | abandoned e₁ _ _ _ => exact .inl rfl
  | alive e₁ e' s₁ _ _ hrem _ => exact .inl hrem.frame.2.2.2
  | expired e₁ e' s₁ s₂ hsome hphase hrem _ hun =>
    obtain rfl := Option.some.inj (hsession.symm.trans hsome)
    exact .inr (unauthorize_expired hs hsome hphase hrem hun).2
  | back e₁ _ _ _ => exact .inl rfl

/-- **The timer leaves authorized users with their sessions** if none of them is about to be closed
in the second phase. -/
theorem Timed.covered (hs : s.Sound) (hcov : s.Covered) (hkeep : s.NoneAbandoned io)
    (h : Timed io sip s s') : s'.Covered := by
  cases hsession : s.session sip with
  | none => rwa [h.eq_of_none hsession]
  | some e =>
    have htouch := h.touches hs hsession
    have hown : ∀ e₀, s.session sip = some e₀ → e₀.user = e.user := fun e₀ he₀ => by
      rw [Option.some.inj (hsession.symm.trans he₀)]
    cases h with
    | unchanged _ => exact hcov
    | abandoned e₁ hsome hphase hpassed =>
      obtain rfl := Option.some.inj (hsession.symm.trans hsome)
      refine hcov.touch_session htouch rfl hown fun hauth hcurr => ?_
      rw [hkeep sip e hsome hphase hauth hcurr] at hpassed
      cases hpassed
    | alive e₁ e' s₁ hsome hphase hrem _ =>
      obtain rfl := Option.some.inj (hsession.symm.trans hsome)
      obtain ⟨-, hs₁, hphase'⟩ := hrem.sound hs hsome hphase
      obtain ⟨huser, -, -, husers⟩ := hrem.frame
      exact hcov.touch_session htouch husers hown fun _ _ => ⟨e', hs₁, huser, by simp [hphase']⟩
    | expired e₁ e' s₁ s₂ hsome hphase hrem _ hun =>
      obtain rfl := Option.some.inj (hsession.symm.trans hsome)
      obtain ⟨-, hgone⟩ := unauthorize_expired hs hsome hphase hrem hun
      refine hcov.touch htouch hown (fun hauth _ => ?_) (fun hauth _ => ?_)
      · exact absurd hauth hgone
      · exact absurd hauth hgone
    | back e₁ hsome _ _ =>
      obtain rfl := Option.some.inj (hsession.symm.trans hsome)
      exact hcov.touch_session htouch rfl hown fun _ _ => ⟨_, session_put_self _ _ _, rfl, by simp⟩

/-- The timer abandons no other session than those it was about to abandon. -/
theorem Timed.noneAbandoned (hs : s.Sound) (hkeep : s.NoneAbandoned io) (h : Timed io sip s s') :
    s'.NoneAbandoned io := by
  cases hsession : s.session sip with
  | none => rwa [h.eq_of_none hsession]
  | some e =>
    have htouch := h.touches hs hsession
    intro sip' e' he' hphase' hauth hcurr
    rw [htouch.settings]
    by_cases hsip : sip' = sip
    · subst hsip
      -- only a session the timer has not touched is in the second phase
      cases h with
      | unchanged _ => exact hkeep sip' e' he' hphase' hauth hcurr
      | abandoned e₁ _ _ _ => rw [session_close_self] at he'; cases he'
      | alive e₁ e₁' s₁ hsome hphase hrem _ =>
        obtain ⟨-, hs₁, hthree⟩ := hrem.sound hs hsome hphase
        rw [hs₁] at he'
        rw [← Option.some.inj he', hthree] at hphase'
        cases hphase'
      | expired e₁ e₁' s₁ s₂ _ _ _ _ _ => rw [session_close_self] at he'; cases he'
      | back e₁ _ _ _ =>
        rw [session_put_self] at he'
        rw [← Option.some.inj he'] at hphase'
        cases hphase'
    · rw [htouch.session sip' hsip] at he'
      by_cases huser : e'.user = e.user
      · rcases h.users hs hsession with heq | hgone
        · rw [heq] at hauth hcurr
          exact hkeep sip' e' he' hphase' hauth hcurr
        · exact absurd (huser ▸ hauth) hgone
      · rw [htouch.users.others e'.user huser] at hauth hcurr
        exact hkeep sip' e' he' hphase' hauth hcurr

end Timer

/-! ## How old sessions are -/

/-- A time that is at most `UserDelay` or `UserTimeout`, whichever is longer, before the present. -/
def Recent (io : IaEnv) (s : AuthIa) (t : Clock) : Prop :=
  io.now.micros - t.micros ≤ (max s.settings.userDelay s.settings.userTimeout : ℕ) * 1000000

/-- What has not passed is recent. -/
theorem recent_of_passed {io : IaEnv} {s : AuthIa} {t : Clock} {d : ℕ} (hd : 0 < d)
    (hmax : d ≤ max s.settings.userDelay s.settings.userTimeout) (h : io.now.passed t d = false) :
    Recent io s t := by
  have hnot : ¬ (d : ℤ) * 1000000 < io.now.micros - t.micros := by
    rw [← Clock.passed_iff _ _ hd, h]
    simp
  unfold Recent
  lia

theorem Recent.congr {io : IaEnv} {s s' : AuthIa} (h : s'.settings = s.settings) (t : Clock) :
    Recent io s' t ↔ Recent io s t := by
  rw [Recent, Recent, h]

/-- **A session the timer leaves behind** is recent, or it is in the first phase and was there
before. -/
theorem Timed.recent {io : IaEnv} {sip : IP} {s s' : AuthIa} {e : IaUser} (hs : s.Sound)
    (h : Timed io sip s s') (he : s'.session sip = some e) :
    Recent io s e.phaseTime ∨ e.phase = .one ∧ s.session sip = some e := by
  have hdelay := s.settings.userDelay_mem
  have htimeout := s.settings.userTimeout_mem
  cases h with
  | unchanged hunchanged =>
    rcases hunchanged e he with hone | ⟨-, hpassed⟩
    · exact .inr ⟨hone, he⟩
    · exact .inl (recent_of_passed (by omega) (le_max_left _ _) hpassed)
  | abandoned e₁ _ _ _ => rw [session_close_self] at he; cases he
  | alive e₁ e' s₁ hsome hphase hrem hpassed =>
    obtain ⟨-, hs₁, -⟩ := hrem.sound hs hsome hphase
    rw [hs₁] at he
    obtain rfl := Option.some.inj he
    rw [hrem.frame.2.1]
    exact .inl (recent_of_passed (by omega) (le_max_right _ _) hpassed)
  | expired e₁ e' s₁ s₂ _ _ _ _ _ => rw [session_close_self] at he; cases he
  | back e₁ _ _ _ =>
    rw [session_put_self] at he
    rw [← Option.some.inj he]
    left
    simp only [Recent, sub_self]
    positivity

/-- A session in the first phase is left alone. -/
theorem Timed.session_of_one {io : IaEnv} {sip : IP} {s s' : AuthIa} {e : IaUser}
    (h : Timed io sip s s') (he : s.session sip = some e) (hone : e.phase = .one) : s' = s := by
  cases h with
  | unchanged _ => rfl
  | abandoned e₁ hsome hphase _ =>
    rw [← Option.some.inj (he.symm.trans hsome), hone] at hphase
    cases hphase
  | alive e₁ e' s₁ hsome hphase _ _ =>
    rw [← Option.some.inj (he.symm.trans hsome), hone] at hphase
    cases hphase
  | expired e₁ e' s₁ s₂ hsome hphase _ _ _ =>
    rw [← Option.some.inj (he.symm.trans hsome), hone] at hphase
    cases hphase
  | back e₁ hsome hphase _ =>
    rw [← Option.some.inj (he.symm.trans hsome), hone] at hphase
    cases hphase

/-- The timer leaves the sessions at other addresses alone. -/
theorem Timed.session_of_ne {io : IaEnv} {sip sip' : IP} {s s' : AuthIa} (hs : s.Sound)
    (h : Timed io sip s s') (hne : sip' ≠ sip) : s'.session sip' = s.session sip' := by
  cases hsession : s.session sip with
  | none => rw [h.eq_of_none hsession]
  | some e => exact (h.touches hs hsession).session sip' hne

theorem Timed.settings_eq {io : IaEnv} {sip : IP} {s s' : AuthIa} (hs : s.Sound)
    (h : Timed io sip s s') : s'.settings = s.settings := by
  cases hsession : s.session sip with
  | none => rw [h.eq_of_none hsession]
  | some e => exact (h.touches hs hsession).settings

/-- What the loop of `Timeouter` over some addresses does to the session at an address.

**Proof sketch.** Induction on the addresses.  A session that is left behind at one of them is
recent after it has been visited, or in the first phase; at the other addresses nothing changes. -/
theorem foldlM_timeout_sessions {io : IaEnv} (keys : List IP) {s s' : AuthIa} (hs : s.Sound)
    (h : keys.foldlM (timeout io) s = some s') (sip : IP) :
    (sip ∉ keys → s'.session sip = s.session sip) ∧
    (∀ e, s'.session sip = some e → sip ∈ keys →
      Recent io s e.phaseTime ∨ e.phase = .one ∧ s.session sip = some e) ∧
    (∀ e, s.session sip = some e → e.phase = .one → s'.session sip = some e) := by
  induction keys generalizing s with
  | nil =>
    obtain rfl := Option.some.inj h
    exact ⟨fun _ => rfl, fun e _ hmem => by simp at hmem, fun e he _ => he⟩
  | cons key keys ih =>
    rw [List.foldlM_cons] at h
    obtain ⟨s₁, hs₁, hrest⟩ := Option.bind_eq_some_iff.1 h
    have htimed := timeout_cases hs₁
    obtain ⟨ih1, ih2, ih3⟩ := ih (htimed.sound hs) hrest
    have hother : sip ≠ key → s₁.session sip = s.session sip := htimed.session_of_ne hs
    refine ⟨fun hnot => ?_, fun e he hmem => ?_, fun e he hone => ?_⟩
    · rw [List.mem_cons, not_or] at hnot
      rw [ih1 hnot.2, hother hnot.1]
    · -- the session after the visit of the first address
      have hvisit : ∀ e, s₁.session sip = some e → sip = key ∨ e.phase = .one →
          Recent io s e.phaseTime ∨ e.phase = .one ∧ s.session sip = some e := by
        intro e he hcond
        by_cases hsip : sip = key
        · subst hsip
          exact htimed.recent hs he
        · rw [hother hsip] at he
          exact .inr ⟨hcond.resolve_left hsip, he⟩
      by_cases hmem' : sip ∈ keys
      · rcases ih2 e he hmem' with hrecent | ⟨hone, he₁⟩
        · exact .inl ((Recent.congr (htimed.settings_eq hs) _).1 hrecent)
        · exact hvisit e he₁ (.inr hone)
      · rw [ih1 hmem'] at he
        exact hvisit e he (.inl ((List.mem_cons.1 hmem).resolve_right hmem'))
    · refine ih3 e ?_ hone
      by_cases hsip : sip = key
      · subst hsip
        rw [htimed.session_of_one he hone]
        exact he
      · rw [hother hsip]
        exact he

/-- What `Timeouter` does to the session at an address. -/
theorem timeouter_sessions {io : IaEnv} {s s' : AuthIa} (hs : s.Sound)
    (h : s.timeouter io = some s') (sip : IP) :
    (∀ e, s'.session sip = some e →
      Recent io s e.phaseTime ∨ e.phase = .one ∧ s.session sip = some e) ∧
    (∀ e, s.session sip = some e → e.phase = .one → s'.session sip = some e) := by
  obtain ⟨h1, h2, h3⟩ := foldlM_timeout_sessions _ hs h sip
  refine ⟨fun e he => ?_, h3⟩
  by_cases hmem : sip ∈ s.ip2user.keys
  · exact h2 e he ((List.mem_insertionSort _).2 hmem)
  · rw [h1 fun hc => hmem ((List.mem_insertionSort _).1 hc)] at he
    have hnone : s.session sip = none := AList.lookup_eq_none.2 hmem
    rw [hnone] at he
    cases he

end AuthIa

namespace IaRun

open AuthIa

/-- The steps that do not close the session of an authorized user without unauthorizing it: a
datagram from the address at which its user is authorized is decrypted, under the password of the
user, to a packet with a known name; and no tick finds a session in the second phase, older than
`UserDelay`, whose user is authorized at its address. -/
def KeepsSessions (s : IaRun) : IaAction → Prop
  | .datagram io src _ data =>
    ∀ protoVer user plain, s.ia.Admitted io src (data.take iaBufferSize) s.buffer protoVer user →
      iaAuth ∈ (s.ia.users.users user).authorizedBy → (s.ia.users.users user).currIP = src →
      decryptPayload (contextOf (io.password user)) (data.take iaBufferSize).length
        (receive (data.take iaBufferSize) s.buffer) = some plain →
      (readPacket (plain.drop iaOffset)).type ≠ none
  | .tick io => s.ia.NoneAbandoned io

/-- Such a step leaves authorized users with their sessions. -/
theorem step_covered {s s' : IaRun} {a : IaAction} (hs : s.ia.Sound) (hcov : s.ia.Covered)
    (hkeep : s.KeepsSessions a) (h : s.step a = some s') : s'.ia.Covered := by
  cases a with
  | datagram io src sport data =>
    obtain ⟨⟨ia', buffer'⟩, hr, rfl⟩ := Option.map_eq_some_iff.1 h
    rcases recvData_cases hr with
      (hquiet | ⟨v, text, hquiet⟩) | ⟨protoVer, user, e, s₁, plain, hadm, hent, hplain, hhandled⟩
    · exact hquiet ▸ hcov
    · intro id hauth
      simp only [hquiet, users_sendError, session_sendError] at hauth ⊢
      exact hcov id hauth
    · have hready := hent.ready hs hadm.login
      rw [hready.ctx] at hplain
      refine hhandled.covered hready.sound (hent.covered hs hcov hadm.login) hready.session
        hready.user_eq ?_
      rw [hready.users]
      exact fun hauth hcurr => hkeep protoVer user plain hadm hauth hcurr hplain
  | tick io =>
    obtain ⟨ia', hr, rfl⟩ := Option.map_eq_some_iff.1 h
    refine (timeouter_invariant (I := fun s => s.Sound ∧ s.Covered ∧ s.NoneAbandoned io) ?_
      ⟨hs, hcov, hkeep⟩ hr).2.1
    exact fun s sip s' ⟨hs, hcov, hkeep⟩ h =>
      ⟨h.sound hs, h.covered hs hcov hkeep, h.noneAbandoned hs hkeep⟩

theorem covered_of_initial {s : AuthIa} (h : s.Initial) : s.Covered :=
  fun id hauth => absurd hauth (h.authorizedBy id)

/-- **Sessions cover authorizations.** From an authorizer without sessions, receive any datagrams and
let the timer run, such that no step closes the session of an authorized user without unauthorizing
it: then every user who is authorized by the authorizer has a session at its address; and after a
tick the phase time of this session is recent, so that a user whose client is silent is not
authorized any more. -/
theorem covered_of_reaches {s t : IaRun} {as : List IaAction} (h0 : s.ia.Initial)
    (h : Transition.Reaches step KeepsSessions s as t) :
    t.ia.Covered ∧ ∀ io t', t.KeepsSessions (.tick io) → t.step (.tick io) = some t' →
      ∀ id, iaAuth ∈ (t'.ia.users.users id).authorizedBy →
        ∃ e, t'.ia.session (t'.ia.users.users id).currIP = some e ∧ e.user = id ∧
          Recent io t.ia e.phaseTime := by
  have hinv : t.ia.Sound ∧ t.ia.Covered :=
    h.invariant (I := fun s => s.ia.Sound ∧ s.ia.Covered)
      (fun s a s' ⟨hs, hcov⟩ hg hstep => ⟨step_sound hs hstep, step_covered hs hcov hg hstep⟩)
      ⟨h0.sound, covered_of_initial h0⟩
  refine ⟨hinv.2, fun io t' hkeep htick id hauth => ?_⟩
  obtain ⟨e, he, huser, hphase⟩ := step_covered hinv.1 hinv.2 hkeep htick id hauth
  obtain ⟨ia', hr, rfl⟩ := Option.map_eq_some_iff.1 htick
  rcases (timeouter_sessions hinv.1 hr _).1 e he with hrecent | ⟨hone, -⟩
  · exact ⟨e, he, huser, hrecent⟩
  · exact absurd hone hphase

/-- Until somebody is authorized, every datagram keeps the sessions. -/
theorem keepsSessions_of_nobody {s : IaRun}
    (h : ∀ id, iaAuth ∉ (s.ia.users.users id).authorizedBy) (io : IaEnv) (src : IP)
    (sport : BitVec 16) (data : List Byte) : s.KeepsSessions (.datagram io src sport data) :=
  fun _ user _ _ hauth => absurd hauth (h user)

/-- A client connects: its user is authorized and has a session. -/
theorem covered_of_reaches_sample :
    ∃ t, Transition.Reaches step KeepsSessions Sample.iaRun
      [Sample.iaSends 0 7 true false .connSyn 0, Sample.iaSends 1 7 true false .connAck 0] t ∧
      iaAuth ∈ (t.ia.users.users 0).authorizedBy ∧ t.ia.Covered := by
  have hnobody : ∀ id, iaAuth ∉ (Sample.users.users id).authorizedBy :=
    Sample.ia_initial.authorizedBy
  have h₁ := Sample.reaches_iaSends 0 7 true false .connSyn 0 (.nil Sample.iaRun)
    (keepsSessions_of_nobody hnobody _ _ _ _) rfl ⟨rfl, rfl, rfl⟩ rfl
  have h₂ := Sample.reaches_iaSends 1 7 true false .connAck 0 h₁
    (keepsSessions_of_nobody hnobody _ _ _ _) rfl ⟨rfl, rfl, rfl⟩ rfl
  exact ⟨_, h₂, by decide +kernel, (covered_of_reaches Sample.ia_initial h₂).1⟩

/-- A client connects, connects again, and is silent: its user is authorized and has no session. -/
theorem not_covered_sample :
    ∃ t, Transition.Runs step Sample.iaRun
      [Sample.iaSends 0 7 true false .connSyn 0, Sample.iaSends 1 7 true false .connAck 0,
        Sample.iaSends 2 7 true false .connSyn 0, .tick (Sample.iaEnv 100)] t ∧
      iaAuth ∈ (t.ia.users.users 0).authorizedBy ∧
      t.ia.session (t.ia.users.users 0).currIP = none := by
  have h₁ := Sample.reaches_iaSends 0 7 true false .connSyn 0 Sample.runs_nil trivial
    rfl ⟨rfl, rfl, rfl⟩ rfl
  have h₂ := Sample.reaches_iaSends 1 7 true false .connAck 0 h₁ trivial
    rfl ⟨rfl, rfl, rfl⟩ rfl
  have h₃ := Sample.reaches_iaSends 2 7 true false .connSyn 0 h₂ trivial
    rfl ⟨rfl, rfl, rfl⟩ rfl
  exact ⟨_, h₃.snoc trivial rfl, by decide +kernel, rfl⟩

/-- **Sessions expire.** In every run from an authorizer without sessions, after a tick the phase
times of all sessions are recent exactly if no session has been opened, and nothing else has
happened in it, longer ago than that. -/
theorem recent_iff_opened_recent {s t t' : IaRun} {as : List IaAction} {io : IaEnv}
    (h0 : s.ia.Initial) (h : Transition.Runs step s as t) (htick : t.step (.tick io) = some t') :
    (∀ sip e, t'.ia.session sip = some e → Recent io t.ia e.phaseTime) ↔
      ∀ sip time, t.ia.last sip = some (.opened sip time) → Recent io t.ia time := by
  have hs := sound_of_runs h0 h
  obtain ⟨ia', hr, rfl⟩ := Option.map_eq_some_iff.1 htick
  constructor
  · intro hall sip time hopened
    obtain ⟨e, he, hone, htime⟩ := hs.opened sip time hopened
    rw [← htime]
    exact hall sip e ((timeouter_sessions hs hr sip).2 e he hone)
  · intro hall sip e he
    rcases (timeouter_sessions hs hr sip).1 e he with hrecent | ⟨hone, he₀⟩
    · exact hrecent
    · exact hall sip _ ((hs.sessions sip e he₀).one hone)

/-- A client asks for a connection and is silent: after a tick nothing but recent sessions is
left. -/
theorem recent_sample :
    ∃ t t', Transition.Runs step Sample.iaRun [Sample.iaSends 0 7 true false .connSyn 0] t ∧
      t.step (.tick (Sample.iaEnv 100)) = some t' ∧
      ∀ sip e, t'.ia.session sip = some e → Recent (Sample.iaEnv 100) t.ia e.phaseTime := by
  have h₁ := Sample.reaches_iaSends 0 7 true false .connSyn 0 Sample.runs_nil trivial
    rfl ⟨rfl, rfl, rfl⟩ rfl
  refine ⟨_, _, h₁, rfl, (recent_iff_opened_recent Sample.ia_initial h₁ rfl).2 ?_⟩
  -- there is one session, and it is in the second phase
  intro sip time hlast
  obtain ⟨e, he, hone, -⟩ := (sound_of_runs Sample.ia_initial h₁).opened sip time hlast
  cases List.mem_singleton.1 (AList.mem_entries_iff.2 he)
  cases hone

/-- A datagram that opens a session but asks for nothing: the session is still there after a day, and
another user is refused at its address. -/
theorem not_recent_sample :
    ∃ t t' e, Transition.Runs step Sample.iaRun [Sample.iaSends 0 7 true false .aliveAck 0] t ∧
      t.step (.tick (Sample.iaEnv 86400)) = some t' ∧ t'.ia.session 7 = some e ∧
      ¬ Recent (Sample.iaEnv 86400) t.ia e.phaseTime ∧
      (t'.ia.findSession (Sample.iaEnv 86400) 7 0 6 1).2 = none := by
  have h₁ := Sample.reaches_iaSends 0 7 true false .aliveAck 0 Sample.runs_nil trivial
    rfl ⟨rfl, rfl, rfl⟩ rfl
  refine ⟨_, _, _, h₁, rfl, rfl, ?_, rfl⟩
  unfold Recent
  decide +kernel

end IaRun

end Stargazer
