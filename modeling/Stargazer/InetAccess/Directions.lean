import Stargazer.InetAccess.Isolation

set_option relaxedAutoImplicit false
set_option autoImplicit false

/-!
# The directions a client asks for

A client of version 8 says in its `CONN_SYN` which directions it wants; it is authorized for them
when its `CONN_ACK` arrives.  In between they are kept in `enabledDirs`, a member of the authorizer
and not of the session, which every `CONN_SYN` sets, whoever sends it, and a `CONN_SYN` of version 8
even if it is rejected.

So a client gets what it asks for, and what others do makes no difference to it, as long as no
`CONN_SYN` changes `enabledDirs` while a session waits for its `CONN_ACK`.

## Main definitions

* `Stargazer.AuthIa.SetsDirs` — a packet that sets `enabledDirs`.
* `Stargazer.IaRun.KeepsDirs` — the steps that do not change `enabledDirs` while a session waits.
* `Stargazer.IaRun.OwnDirs` — a user is authorized for the directions its client asked for.
* `Stargazer.IaAction.Belongs`, `Stargazer.IaAction.concerns` — the datagrams of one client.

## Main results

* `Stargazer.IaRun.ownDirs_of_reaches` — in runs of such steps clients get what they ask for, and do
  not influence each other.
-/

namespace Stargazer

namespace AuthIa

/-! ## When the directions are set -/

/-- A packet for a user from an address sets `enabledDirs`: it is a `CONN_SYN` for the session at the
address, or the address is free, and the user is not authorized elsewhere; and the packet is accepted
or of version 8. -/
structure SetsDirs (s : AuthIa) (sip : IP) (protoVer : ℤ) (user : UserId) (pkt : IaPacket) :
    Prop where
  /-- It is a `CONN_SYN`. -/
  type : pkt.type = some .connSyn
  /-- The version is known. -/
  version : KnownVersion protoVer
  /-- A session at the address belongs to the user. -/
  own : ∀ e, s.session sip = some e → e.user = user
  /-- Without a session the address is free. -/
  free : s.session sip = none → s.users.ipIndex sip = none ∨ s.users.ipIndex sip = some user
  /-- The user is not authorized elsewhere. -/
  here : iaAuth ∈ (s.users.users user).authorizedBy → (s.users.users user).currIP = sip
  /-- The packet is of version 8 or accepted. -/
  phase : protoVer = 8 ∨ ∀ e, s.session sip = some e → e.phase = .one ∨ e.phase = .three

/-- Only the name of the packet matters. -/
theorem SetsDirs.congr {s : AuthIa} {sip : IP} {protoVer : ℤ} {user : UserId} {pkt pkt' : IaPacket}
    (h : s.SetsDirs sip protoVer user pkt) (htype : pkt.type = pkt'.type) :
    s.SetsDirs sip protoVer user pkt' :=
  ⟨htype ▸ h.type, h.version, h.own, h.free, h.here, h.phase⟩

/-- What is read of a datagram that brings all that is read of it. -/
theorem Complete.read {s : AuthIa} {io : IaEnv} {sip : IP} {data buffer plain : List Byte}
    {protoVer : ℤ} {user : UserId} (hcomplete : s.Complete io sip data buffer)
    (hadm : s.Admitted io sip data buffer protoVer user)
    (hplain : decryptPayload (contextOf (io.password user)) data.length (receive data buffer) =
      some plain) :
    (readPacket (plain.drop iaOffset)).type = (ownPacket (contextOf (io.password user)) data).type ∧
    ((ownPacket (contextOf (io.password user)) data).type = some .connSyn →
      requestedDirs protoVer (readPacket (plain.drop iaOffset)) =
        requestedDirs protoVer (ownPacket (contextOf (io.password user)) data)) := by
  refine ⟨(readPacket_eq_ownPacket hplain (hcomplete.packet _ _ hadm)).1, fun htype => ?_⟩
  unfold requestedDirs
  split_ifs with hver
  · rw [readPacket_eq_ownPacket_of_le hplain (hcomplete.dirs _ _ hadm htype hver)]
  · rfl

theorem enabledDirs_sendError (s : AuthIa) (sip : IP) (protoVer : ℤ) (text : String) :
    (s.sendError sip protoVer text).enabledDirs = s.enabledDirs := by
  unfold sendError
  split_ifs <;> rfl

section Datagram

variable {io : IaEnv} {sip : IP} {protoVer : ℤ} {user : UserId} {e : IaUser} {pkt : IaPacket}
  {s s₁ s' : AuthIa}

/-- The phase of the session of a datagram. -/
theorem Entered.phase (h : Entered io sip user s e s₁) :
    (s.session sip = none ∧ e.phase = .one) ∨
      ∃ e₀, s.session sip = some e₀ ∧ e₀.phase = e.phase ∧ e₀.rnd = e.rnd := by
  cases h with
  | opened _ hnone _ _ _ hone _ _ _ => exact .inl ⟨hnone, hone⟩
  | found e₀ hsome _ =>
    obtain ⟨ctx, pass, heq⟩ := renew_eq (io.password user) e₀
    rw [heq]
    exact .inr ⟨e₀, hsome, rfl, rfl⟩

/-- **When a packet changes the directions.** -/
theorem Handled.enabledDirs (hready : Ready io sip user e s s₁) (hent : Entered io sip user s e s₁)
    (h : Handled io sip protoVer user e pkt s₁ s') :
    s'.enabledDirs = s.enabledDirs ∨
      s.SetsDirs sip protoVer user pkt ∧ s'.enabledDirs = requestedDirs protoVer pkt := by
  have hown : ∀ e₀, s.session sip = some e₀ → e₀.user = user := fun _ => hent.user_of_session
  have hfree : s.session sip = none →
      s.users.ipIndex sip = none ∨ s.users.ipIndex sip = some user := fun hnone => by
    cases hent with
    | opened _ _ hfree _ _ _ _ _ _ => exact hfree
    | found e₀ hsome _ =>
      rw [hnone] at hsome
      cases hsome
  rw [← hready.enabledDirs]
  cases h with
  | unknown text _ | elsewhere text _ _ => exact .inl (enabledDirs_sendError s₁ _ _ text)
  | ignored _ | authorized _ _ _ _ _ _ _ | refused _ _ _ _ _ _ _ | aliveAck _ _ _
  | disconnSyn _ _ => exact .inl rfl
  | disconnAck _ _ _ s₂ hun =>
    obtain ⟨out, -, rfl⟩ := Option.map_eq_some_iff.1 hun
    exact .inl rfl
  | rejected htype hver _ hhere =>
    rw [hready.users] at hhere
    refine .inr ⟨⟨htype, .inr (.inr hver), hown, hfree, hhere, .inl hver⟩, ?_⟩
    rw [requestedDirs, if_pos hver]
  | connSyn htype hver hphase hhere =>
    rw [hready.users] at hhere
    refine .inr ⟨⟨htype, hver, hown, hfree, hhere, .inr fun e₀ he₀ => ?_⟩, rfl⟩
    rcases hent.phase with ⟨hnone, -⟩ | ⟨e₁, he₁, hphase₁, -⟩
    · rw [hnone] at he₀
      cases he₀
    · obtain rfl := Option.some.inj (he₁.symm.trans he₀)
      rwa [hphase₁]

/-- A session that waits for a `CONN_ACK` after a packet waited before, or the packet was a
`CONN_SYN` whose directions are stored. -/
theorem Handled.waiting (hsession : s₁.session sip = some e)
    (h : Handled io sip protoVer user e pkt s₁ s') {e' : IaUser} (he' : s'.session sip = some e')
    (hphase : e'.phase = .two) :
    s'.last sip = some (.connSynAck sip e'.rnd s'.enabledDirs) ∨
      e' = e ∧ s'.last sip = s₁.last sip := by
  cases h with
  | ignored _ | rejected _ _ _ _ =>
    obtain rfl := Option.some.inj (hsession.symm.trans he')
    exact .inr ⟨rfl, rfl⟩
  | unknown _ _ | elsewhere _ _ _ | refused _ _ _ _ _ _ _ | disconnAck _ _ _ _ _ =>
    rw [session_close_self] at he'
    cases he'
  | connSyn _ _ _ _ =>
    rw [session_emit, session_put_self] at he'
    obtain rfl := Option.some.inj he'
    exact .inl (last_emit_self _ _ _ rfl)
  | aliveAck _ hthree _ =>
    rw [session_emit, session_put_self] at he'
    obtain rfl := Option.some.inj he'
    simp [hthree] at hphase
  | authorized _ _ _ _ _ _ _ | disconnSyn _ _ =>
    rw [session_emit, session_put_self] at he'
    obtain rfl := Option.some.inj he'
    cases hphase

end Datagram

/-- A session that waits for a `CONN_ACK` after the timer waited before. -/
theorem Timed.waiting {io : IaEnv} {sip : IP} {s s' : AuthIa} (h : Timed io sip s s') {e' : IaUser}
    (he' : s'.session sip = some e') (hphase : e'.phase = .two) : s' = s := by
  cases h with
  | unchanged _ => rfl
  | abandoned _ _ _ _ | expired _ _ _ _ _ _ _ _ _ =>
    rw [session_close_self] at he'
    cases he'
  | back e _ _ _ =>
    rw [session_put_self] at he'
    obtain rfl := Option.some.inj he'
    cases hphase
  | alive e e₁ s₁ hsome hthree hrem _ =>
    cases hrem with
    | early => rfl
    | sent | silent =>
      simp only [session_emit, session_put_self, Option.some.injEq] at he'
      subst he'
      simp [hthree] at hphase

/-! ## The directions of a session that waits -/

/-- The directions are those for which each session that waits for a `CONN_ACK` has asked. -/
def Granted (s : AuthIa) : Prop :=
  ∀ sip e, s.session sip = some e → e.phase = .two →
    s.last sip = some (.connSynAck sip e.rnd s.enabledDirs)

/-- A change at one address keeps the directions of the sessions at other addresses. -/
theorem Granted.touch {s s' : AuthIa} {sip : IP} {user : UserId} (h : s.Granted)
    (htouch : Touches s s' sip user)
    (hdirs : ∀ sip' e, s.session sip' = some e → e.phase = .two → s'.enabledDirs = s.enabledDirs)
    (hhere : ∀ e, s'.session sip = some e → e.phase = .two →
      s'.last sip = some (.connSynAck sip e.rnd s'.enabledDirs)) : s'.Granted := by
  intro sip' e he hphase
  by_cases hsip : sip' = sip
  · subst hsip
    exact hhere e he hphase
  · rw [htouch.session sip' hsip] at he
    rw [last, htouch.sessionLog sip' hsip, hdirs sip' e he hphase]
    exact h sip' e he hphase

/-- The timer keeps the directions of the sessions. -/
theorem Timed.granted {io : IaEnv} {sip : IP} {s s' : AuthIa} (hs : s.Sound) (hg : s.Granted)
    (h : Timed io sip s s') : s'.Granted := by
  rcases h.touches_of_ne hs with rfl | ⟨e, -, htouch⟩
  · exact hg
  · refine hg.touch htouch (fun _ _ _ _ => h.enabledDirs) fun e he hphase => ?_
    obtain rfl := h.waiting he hphase
    exact hg sip e he hphase

end AuthIa

/-! ## Steps -/

namespace IaRun

open AuthIa

/-- The steps that do not change `enabledDirs` while a session waits for a `CONN_ACK`: a datagram
brings all that is read of it; and if it is a packet that sets `enabledDirs` while some session is in
the second phase, they are the same. -/
def KeepsDirs (s : IaRun) : IaAction → Prop
  | .datagram io src _ data =>
    s.ia.Complete io src (data.take iaBufferSize) s.buffer ∧
    ∀ protoVer user, s.ia.Admitted io src (data.take iaBufferSize) s.buffer protoVer user →
      s.ia.SetsDirs src protoVer user
        (ownPacket (contextOf (io.password user)) (data.take iaBufferSize)) →
      ∀ sip e, s.ia.session sip = some e → e.phase = .two →
        requestedDirs protoVer (ownPacket (contextOf (io.password user)) (data.take iaBufferSize)) =
          s.ia.enabledDirs
  | .tick _ => True

section Step

variable {s s' : IaRun} {a : IaAction}

/-- A datagram does not change the directions while a session waits. -/
theorem enabledDirs_of_waiting {io : IaEnv} {src : IP} {sport : BitVec 16}
    {data buffer' : List Byte} {ia' : AuthIa} (hs : s.ia.Sound)
    (hg : s.KeepsDirs (.datagram io src sport data))
    (hr : s.ia.recvData io src sport data s.buffer = some (ia', buffer')) {sip : IP} {e : IaUser}
    (he : s.ia.session sip = some e) (hphase : e.phase = .two) :
    ia'.enabledDirs = s.ia.enabledDirs := by
  obtain ⟨hcomplete, hkeep⟩ := hg
  rcases recvData_cases hr with
    (rfl | ⟨v, text, rfl⟩) | ⟨protoVer, user, e₁, s₁, plain, hadm, hent, hplain, hhandled⟩
  · rfl
  · exact enabledDirs_sendError _ _ _ _
  · have hready := hent.ready hs hadm.login
    rw [hready.ctx] at hplain
    rcases hhandled.enabledDirs hready hent with hsame | ⟨hsets, hdirs⟩
    · exact hsame
    · obtain ⟨htype, hread⟩ := hcomplete.read hadm hplain
      have hsets' := hsets.congr htype
      rw [hdirs, hread hsets'.type]
      exact hkeep protoVer user hadm hsets' sip e he hphase

/-- **A step keeps the directions of the sessions that wait.** -/
theorem step_granted (hs : s.ia.Sound) (hgrant : s.ia.Granted) (hg : s.KeepsDirs a)
    (h : s.step a = some s') : s'.ia.Granted := by
  cases a with
  | tick io =>
    obtain ⟨ia', hr, rfl⟩ := Option.map_eq_some_iff.1 h
    refine (timeouter_invariant (I := fun s => s.Sound ∧ s.Granted) ?_ ⟨hs, hgrant⟩ hr).2
    exact fun s sip s' ⟨hs, hgrant⟩ h => ⟨h.sound hs, h.granted hs hgrant⟩
  | datagram io src sport data =>
    obtain ⟨⟨ia', buffer'⟩, hr, rfl⟩ := Option.map_eq_some_iff.1 h
    have hdirs : ∀ sip e, s.ia.session sip = some e → e.phase = .two →
        ia'.enabledDirs = s.ia.enabledDirs := fun sip e he hphase =>
      enabledDirs_of_waiting hs hg hr he hphase
    rcases recvData_cases hr with
      (rfl | ⟨v, text, rfl⟩) | ⟨protoVer, user, e, s₁, plain, hadm, hent, -, hhandled⟩
    · exact hgrant
    · intro sip e he hphase
      rw [session_sendError] at he
      rw [last, sessionLog_sendError, enabledDirs_sendError]
      exact hgrant sip e he hphase
    · have hready := hent.ready hs hadm.login
      have htouch := hready.handled hhandled
      refine hgrant.touch htouch hdirs fun e' he' hphase => ?_
      rcases hhandled.waiting hready.session he' hphase with hlast | ⟨rfl, hlast⟩
      · exact hlast
      · obtain ⟨hlog, e₀, he₀, hphase₀, hrnd₀, -⟩ := hent.session_before (by simp [hphase])
        have hbefore := hgrant src e₀ he₀ (hphase₀.trans hphase)
        rw [hlast, hdirs src e₀ he₀ (hphase₀.trans hphase), ← hrnd₀, ← hbefore, last, last,
          sessionLog, sessionLog, hlog]

/-- The directions are right in every run. -/
theorem granted_of_reaches {t : IaRun} {as : List IaAction} (h0 : s.ia.Initial)
    (h : Transition.Reaches step KeepsDirs s as t) : t.ia.Granted := by
  refine (h.invariant (I := fun s => s.ia.Sound ∧ s.ia.Granted) ?_ ⟨h0.sound, ?_⟩).2
  · exact fun _ _ _ ⟨hs, hgrant⟩ hg hstep => ⟨step_sound hs hstep, step_granted hs hgrant hg hstep⟩
  · intro sip e he
    rw [session, h0.ip2user, AList.lookup_empty] at he
    cases he

/-- A user is authorized for the directions of the last `CONN_SYN` that was accepted in its session;
and the directions of a `CONN_SYN` that is accepted are those it asks for. -/
def OwnDirs (s : IaRun) (a : IaAction) : IaEvent → Prop
  | .authorize sip _ dirs _ => ∃ r, s.ia.last sip = some (.connSynAck sip r dirs)
  | .connSynAck sip _ dirs => s.Carries a sip fun _ protoVer pkt =>
      pkt.type = some .connSyn ∧ dirs = requestedDirs protoVer pkt
  | _ => True

/-- What one step writes to the log has the right directions. -/
theorem step_ownDirs (hs : s.ia.Sound) (hgrant : s.ia.Granted) (hg : s.KeepsDirs a)
    (h : s.step a = some s') :
    ∃ new, s'.ia.log = new ++ s.ia.log ∧ ∀ ev ∈ new, s.OwnDirs a ev := by
  obtain ⟨new, hnew, hlog⟩ := step_log hs h
  refine ⟨new, hnew, fun ev hev => ?_⟩
  rcases hlog ev hev with
    hun | ⟨io, src, sport, data, protoVer, user, e, s₁, plain, rfl, hadm, hent, hplain, h⟩
  · cases ev with
    | authorize _ _ _ _ | connSynAck _ _ _ => exact hun.elim
    | fin _ | disconnSynAck _ _ | opened _ _ | aliveSyn _ _ | aliveAck _ | unauthorize _ _ | closed _
    | error _ _ => trivial
  cases ev with
  | authorize sip login dirs ret =>
    obtain ⟨rfl, rfl, -, hphase, -, rfl⟩ := h
    obtain ⟨-, e₀, he₀, hphase₀, -⟩ := hent.session_before (by simp [hphase])
    rw [(hent.ready hs hadm.login).enabledDirs]
    exact ⟨e₀.rnd, hgrant sip e₀ he₀ (hphase₀.trans hphase)⟩
  | connSynAck sip rnd dirs =>
    obtain ⟨rfl, ht, -, rfl⟩ := h
    obtain ⟨htype, hread⟩ := hg.1.read hadm hplain
    rw [htype] at ht
    exact ⟨io, sport, data, protoVer, user, rfl, hadm, fun _ => hent.user_of_session, ht, hread ht⟩
  | fin _ | disconnSynAck _ _ | opened _ _ | aliveSyn _ _ | aliveAck _ | unauthorize _ _ | closed _
  | error _ _ => trivial

/-- A step leaves the logins alone. -/
theorem step_loginIndex (hs : s.ia.Sound) (h : s.step a = some s') :
    s'.ia.users.loginIndex = s.ia.users.loginIndex := by
  cases a with
  | tick io =>
    obtain ⟨ia', hr, rfl⟩ := Option.map_eq_some_iff.1 h
    refine (timeouter_invariant
      (I := fun t => t.Sound ∧ t.users.loginIndex = s.ia.users.loginIndex) ?_ ⟨hs, rfl⟩ hr).2
    rintro t sip t' ⟨ht, hl⟩ htimed
    refine ⟨htimed.sound ht, ?_⟩
    rcases htimed.touches_of_ne ht with rfl | ⟨e, -, htouch⟩
    · exact hl
    · exact htouch.users.loginIndex.trans hl
  | datagram io src sport data =>
    obtain ⟨⟨ia', buffer'⟩, hr, rfl⟩ := Option.map_eq_some_iff.1 h
    rcases recvData_cases hr with
      (rfl | ⟨v, text, rfl⟩) | ⟨protoVer, user, e, s₁, plain, hadm, hent, -, hhandled⟩
    · rfl
    · rw [users_sendError]
    · have hready := hent.ready hs hadm.login
      exact (hready.handled hhandled).users.loginIndex

/-- The logins are the same in every run. -/
theorem loginIndex_of_reaches {guard : IaRun → IaAction → Prop} {t : IaRun} {as : List IaAction}
    (h0 : s.ia.Initial) (h : Transition.Reaches step guard s as t) :
    t.ia.users.loginIndex = s.ia.users.loginIndex := by
  refine (h.invariant (I := fun t => t.ia.Sound ∧
    t.ia.users.loginIndex = s.ia.users.loginIndex) ?_ ⟨h0.sound, rfl⟩).2
  exact fun _ _ _ ⟨hs, hl⟩ _ hstep => ⟨step_sound hs hstep, (step_loginIndex hs hstep).trans hl⟩

end Step

end IaRun

/-! ## Two clients -/

namespace IaAction

/-- The clients are different: a datagram comes from the address if and only if it comes from the
user. -/
def Belongs (users : UsersImpl) (sip : IP) (user : UserId) : IaAction → Prop
  | .datagram _ src _ data =>
    ∀ user', users.SentBy (data.take iaBufferSize) user' → (user' = user ↔ src = sip)
  | .tick _ => True

/-- What is left if the datagrams of other clients are taken away. -/
def concerns (sip : IP) : IaAction → Bool
  | .datagram _ src _ _ => decide (src = sip)
  | .tick _ => true

end IaAction

namespace IaRun

open AuthIa

/-- A run with all clients and a run with one of them. -/
structure Follows (users : UsersImpl) (sip : IP) (user : UserId) (x y : IaRun) : Prop where
  /-- For the client they are the same. -/
  alone : Alone x.ia y.ia sip user
  /-- The logins are those of the beginning. -/
  loginIndex : x.ia.users.loginIndex = users.loginIndex

section Follows

variable {users : UsersImpl} {sip : IP} {user : UserId} {x x' y : IaRun} {a : IaAction}

/-- The sender of a datagram is the same as in the beginning. -/
theorem Follows.belongs (h : Follows users sip user x y) {io : IaEnv} {src : IP} {sport : BitVec 16}
    {data : List Byte} (hb : (IaAction.datagram io src sport data).Belongs users sip user)
    {user' : UserId} (hsent : x.ia.users.SentBy (data.take iaBufferSize) user') :
    user' = user ↔ src = sip :=
  hb user' ⟨hsent.header, h.loginIndex ▸ hsent.login⟩

/-- A step of the client, or of the timer, is followed. -/
theorem Follows.step_of_concerns (hc : a.concerns sip = true) (h : Follows users sip user x y)
    (hg : x.KeepsDirs a ∧ a.Belongs users sip user) (hstep : x.step a = some x') :
    ∃ y', y.step a = some y' ∧ Follows users sip user x' y' := by
  have hlogin := (step_loginIndex h.alone.left hstep).trans h.loginIndex
  cases a with
  | tick io =>
    obtain ⟨ia', hr, rfl⟩ := Option.map_eq_some_iff.1 hstep
    obtain ⟨y', hy', halone⟩ := h.alone.timeouter hr
    exact ⟨_, Option.map_eq_some_iff.2 ⟨y', hy', rfl⟩, halone, hlogin⟩
  | datagram io src sport data =>
    obtain rfl : src = sip := of_decide_eq_true hc
    obtain ⟨⟨ia', buffer'⟩, hr, rfl⟩ := Option.map_eq_some_iff.1 hstep
    obtain ⟨y', buffer'', hy', halone⟩ := h.alone.recvData hg.1.1
      (fun user' hsent => (h.belongs hg.2 hsent).2 rfl) hr y.buffer
    exact ⟨_, Option.map_eq_some_iff.2 ⟨(y', buffer''), hy', rfl⟩, halone, hlogin⟩

/-- A datagram of another client need not be followed. -/
theorem Follows.step_of_not_concerns (hc : a.concerns sip = false) (h : Follows users sip user x y)
    (hg : x.KeepsDirs a ∧ a.Belongs users sip user) (hstep : x.step a = some x') :
    Follows users sip user x' y := by
  have hlogin := (step_loginIndex h.alone.left hstep).trans h.loginIndex
  cases a with
  | tick io => cases hc
  | datagram io src sport data =>
    have hne : src ≠ sip := of_decide_eq_false hc
    obtain ⟨⟨ia', buffer'⟩, hr, rfl⟩ := Option.map_eq_some_iff.1 hstep
    refine ⟨h.alone.recvData_of_ne hne hg.1.1 (fun user' hsent hc => ?_) (fun e he hphase => ?_) hr,
      hlogin⟩
    · exact hne ((h.belongs hg.2 hsent).1 hc)
    · exact enabledDirs_of_waiting h.alone.left hg.1 hr he hphase

end Follows

/-- Without sessions two runs are the same for every client. -/
theorem follows_of_initial {s : IaRun} (h : s.ia.Initial) (sip : IP) (user : UserId) :
    Follows s.ia.users sip user s s := by
  have hnone (sip' : IP) : s.ia.session sip' = none := by
    rw [session, h.ip2user, AList.lookup_empty]
  refine ⟨⟨h.sound, h.sound, ⟨⟨rfl, rfl, rfl⟩, rfl, rfl, rfl, fun _ _ _ => rfl⟩, ?_,
    fun sip' _ => hnone sip'⟩, rfl⟩
  intro sip' e he
  rw [hnone] at he
  cases he

/-- **Clients get the directions they ask for.** Take any run from an authorizer without sessions in
which no step changes `enabledDirs` while a session waits for its `CONN_ACK`.  Then every step calls
`Authorize` only with the directions of the last `CONN_SYN` that was accepted in the session.  And if
the client at an address is different from all others, the run without the datagrams of the others
is possible and all that happens in its sessions is the same there. -/
theorem ownDirs_of_reaches {s t : IaRun} {as : List IaAction} (h0 : s.ia.Initial)
    (h : Transition.Reaches step KeepsDirs s as t) :
    (∀ a t', t.KeepsDirs a → t.step a = some t' →
      ∃ new, t'.ia.log = new ++ t.ia.log ∧ ∀ ev ∈ new, t.OwnDirs a ev) ∧
    ∀ sip user, (∀ a ∈ as, a.Belongs s.ia.users sip user) →
      ∃ t', Transition.Runs step s (as.filter (IaAction.concerns sip)) t' ∧
        t'.ia.sessionLog sip = t.ia.sessionLog sip := by
  refine ⟨fun a t' hg hstep =>
    step_ownDirs (sound_of_runs h0 h) (granted_of_reaches h0 h) hg hstep, fun sip user hb => ?_⟩
  have hfollow : ∃ t', Transition.Runs step s (as.filter (IaAction.concerns sip)) t' ∧
      Follows s.ia.users sip user t t' := by
    refine Transition.Reaches.unwinding ?_ ?_ (h.guard_and hb) (follows_of_initial h0 sip user)
    · exact fun _ _ _ _ hc hR hg hstep => hR.step_of_concerns hc hg hstep
    · exact fun _ _ _ _ hc hR hg hstep => hR.step_of_not_concerns hc hg hstep
  obtain ⟨t', hrun, hfollows⟩ := hfollow
  exact ⟨t', hrun, hfollows.alone.alike.sessionLog⟩

/-! ### The sample users -/

/-- The sender of the datagram of a sample user. -/
theorem sentBy_iaSends {users : UsersImpl} (hl : users.loginIndex = Sample.users.loginIndex)
    (first v8 : Bool) (type : PacketType) (dirs : BitVec 32) (password buffer : List Byte)
    {user : UserId}
    (h : users.loginIndex (readLogin (receive
      ((Sample.iaPacket first v8 type dirs).datagram password) buffer)) = some user) :
    user = if first then 0 else 1 := by
  rw [ClientPacket.readLogin_datagram, hl, Sample.loginIndex_iaPacket] at h
  exact (Option.some.inj h).symm

theorem take_iaSends (first v8 : Bool) (type : PacketType) (dirs : BitVec 32)
    (password : List Byte) :
    ((Sample.iaPacket first v8 type dirs).datagram password).take iaBufferSize =
      (Sample.iaPacket first v8 type dirs).datagram password :=
  List.take_of_length_le (by rw [ClientPacket.length_datagram]; decide)

/-- The datagrams of the sample users keep the directions, if no session waits when they ask for
some. -/
theorem keepsDirs_iaSends {guard : IaRun → IaAction → Prop} {s : IaRun} {as : List IaAction}
    (hrun : Transition.Reaches step guard Sample.iaRun as s) (now : ℤ) (sip : IP)
    (first v8 : Bool) (type : PacketType) (dirs : BitVec 32)
    (hwait : type = .connSyn → s.ia.ip2user.entries.all (fun p => p.2.phase ≠ .two) = true) :
    s.KeepsDirs (Sample.iaSends now sip first v8 type dirs) := by
  have hlen := (Sample.iaPacket first v8 type dirs).length_datagram
  simp only [Sample.iaSends, KeepsDirs, take_iaSends]
  refine ⟨⟨fun _ _ => ?_, fun _ _ _ => ?_, fun _ _ _ _ _ => ?_⟩,
    fun protoVer user hadm hsets sip' e he hphase => ?_⟩
  · rw [hlen]; decide
  · rw [hlen]; decide
  · rw [hlen]
  · have hl := loginIndex_of_reaches Sample.ia_initial hrun
    have huser := sentBy_iaSends hl first v8 type dirs _ _ hadm.login
    have htype := hsets.type
    rw [huser, ClientPacket.ownPacket_datagram, Sample.read_iaPacket] at htype
    have hall := hwait (Option.some.inj htype)
    have hmem : ⟨sip', e⟩ ∈ s.ia.ip2user.entries := AList.mem_lookup_iff.1 he
    have hne := List.all_eq_true.1 hall _ hmem
    simp [hphase] at hne

/-- The first sample user is the client at one address, the second one is at another. -/
theorem belongs_iaSends (now : ℤ) (sip : IP) (first v8 : Bool) (type : PacketType)
    (dirs : BitVec 32) (hsip : first = true ↔ sip = 7) :
    (Sample.iaSends now sip first v8 type dirs).Belongs Sample.users 7 0 := by
  intro user' hsent
  rw [take_iaSends] at hsent
  have hnil : ∀ data : List Byte, receive data [] = data := fun data => by simp [receive]
  have huser := sentBy_iaSends rfl first v8 type dirs _ [] (by rw [hnil]; exact hsent.login)
  rw [huser, ← hsip]
  cases first <;> simp

/-- The first client asks for some directions and is authorized for them; then the second one asks
for others.  Without the second client the same happens to the first one. -/
theorem ownDirs_of_reaches_sample :
    ∃ t₁ t₂ t t', Transition.Reaches step KeepsDirs Sample.iaRun
        [Sample.iaSends 0 7 true true .connSyn 1] t₁ ∧
      t₁.step (Sample.iaSends 1 7 true true .connAck 0) = some t₂ ∧
      (∃ new, t₂.ia.log = new ++ t₁.ia.log ∧
        ∀ ev ∈ new, t₁.OwnDirs (Sample.iaSends 1 7 true true .connAck 0) ev) ∧
      Transition.Reaches step KeepsDirs Sample.iaRun
        [Sample.iaSends 0 7 true true .connSyn 1, Sample.iaSends 1 7 true true .connAck 0,
          Sample.iaSends 2 8 false true .connSyn 2] t ∧
      t.ia.sessionLog 7 = [.aliveSyn 7 100, .authorize 7 "a" 1 true, .connSynAck 7 100 1,
        .opened 7 (.ofSec 0)] ∧
      Transition.Runs step Sample.iaRun
        [Sample.iaSends 0 7 true true .connSyn 1, Sample.iaSends 1 7 true true .connAck 0] t' ∧
      t'.ia.sessionLog 7 = t.ia.sessionLog 7 := by
  have h₁ := Sample.reaches_iaSends 0 7 true true .connSyn 1 (.nil Sample.iaRun)
    (keepsDirs_iaSends Sample.runs_nil _ _ _ _ _ _ fun _ => rfl) rfl ⟨rfl, rfl, rfl⟩ rfl
  have hg₂ := keepsDirs_iaSends h₁ 1 7 true true .connAck 0 (by simp)
  have h₂ := Sample.step_iaSends 1 7 true true .connAck 0 h₁ rfl ⟨rfl, rfl, rfl⟩ rfl
  have h₃ := Sample.reaches_iaSends 2 8 false true .connSyn 2 (h₁.snoc hg₂ h₂)
    (keepsDirs_iaSends (h₁.snoc hg₂ h₂) _ _ _ _ _ _ fun _ => rfl) rfl ⟨rfl, rfl, rfl⟩ rfl
  obtain ⟨t', hrun, hlog⟩ := (ownDirs_of_reaches Sample.ia_initial h₃).2 7 0 (by
    simp only [List.cons_append, List.nil_append, List.forall_mem_cons, List.not_mem_nil,
      false_imp_iff, implies_true, and_true]
    exact ⟨belongs_iaSends _ _ _ _ _ _ (by decide), belongs_iaSends _ _ _ _ _ _ (by decide),
      belongs_iaSends _ _ _ _ _ _ (by decide)⟩)
  exact ⟨_, _, _, t', h₁, h₂, (ownDirs_of_reaches Sample.ia_initial h₁).1 _ _ hg₂ h₂, h₃, rfl, hrun,
    hlog⟩

/-- While the first client waits, the second one asks for other directions: the first client is
authorized for these.  Without the second client it is authorized for its own. -/
theorem not_ownDirs_sample :
    (∀ a ∈ [Sample.iaSends 0 7 true true .connSyn 1, Sample.iaSends 1 8 false true .connSyn 2,
      Sample.iaSends 2 7 true true .connAck 0], a.Belongs Sample.users 7 0) ∧
    (∃ t, Transition.Runs step Sample.iaRun
        [Sample.iaSends 0 7 true true .connSyn 1, Sample.iaSends 1 8 false true .connSyn 2,
          Sample.iaSends 2 7 true true .connAck 0] t ∧
      t.ia.sessionLog 7 = [.aliveSyn 7 100, .authorize 7 "a" 2 true, .connSynAck 7 100 1,
        .opened 7 (.ofSec 0)]) ∧
    ∃ t, Transition.Runs step Sample.iaRun
        [Sample.iaSends 0 7 true true .connSyn 1, Sample.iaSends 2 7 true true .connAck 0] t ∧
      t.ia.sessionLog 7 = [.aliveSyn 7 100, .authorize 7 "a" 1 true, .connSynAck 7 100 1,
        .opened 7 (.ofSec 0)] := by
  have h₁ := Sample.reaches_iaSends 0 7 true true .connSyn 1 Sample.runs_nil trivial
    rfl ⟨rfl, rfl, rfl⟩ rfl
  have h₂ := Sample.reaches_iaSends 1 8 false true .connSyn 2 h₁ trivial rfl ⟨rfl, rfl, rfl⟩ rfl
  have h₃ := Sample.reaches_iaSends 2 7 true true .connAck 0 h₂ trivial rfl ⟨rfl, rfl, rfl⟩ rfl
  have h₂' := Sample.reaches_iaSends 2 7 true true .connAck 0 h₁ trivial rfl ⟨rfl, rfl, rfl⟩ rfl
  refine ⟨?_, ⟨_, h₃, rfl⟩, _, h₂', rfl⟩
  simp only [List.forall_mem_cons, List.not_mem_nil, false_imp_iff, implies_true, and_true]
  exact ⟨belongs_iaSends _ _ _ _ _ _ (by decide), belongs_iaSends _ _ _ _ _ _ (by decide),
    belongs_iaSends _ _ _ _ _ _ (by decide)⟩

end IaRun

end Stargazer
