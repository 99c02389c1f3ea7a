import Stargazer.InetAccess.AuthIa
import Stargazer.Lib.AssocMap
import Stargazer.Lib.Run

set_option relaxedAutoImplicit false
set_option autoImplicit false

/-!
# The sessions of the InetAccess authorizer

What a datagram and a tick can do, said once, and the invariant of the sessions: a session in one of
the last two phases belongs to a user who is authorized at its address, and the nonce a session
waits for is that of the last packet sent in it.

## Main definitions

* `Stargazer.AuthIa.Touches` — a change that concerns one address and one user.
* `Stargazer.AuthIa.Handled` — what a packet can do.
* `Stargazer.AuthIa.Timed` — what the timer can do to a session.
* `Stargazer.AuthIa.Sound` — the invariant.

## Main results

* `Stargazer.AuthIa.recvData_cases`, `Stargazer.AuthIa.timeout_cases` — there is nothing else they
  can do.
* `Stargazer.IaRun.sound_of_runs` — the invariant holds in every run.
-/

namespace Stargazer

namespace AuthIa

/-! ## Reading a state -/

/-- The session at an address. -/
def session (s : AuthIa) (sip : IP) : Option IaUser := s.ip2user.lookup sip

/-- The events of the sessions at an address, the last one first. -/
def sessionLog (s : AuthIa) (sip : IP) : List IaEvent :=
  s.log.filter fun ev => ev.session = some sip

/-- The last event of the sessions at an address. -/
def last (s : AuthIa) (sip : IP) : Option IaEvent := (s.sessionLog sip).head?

section Read

variable (s : AuthIa) (sip : IP) (e : IaUser) (ev : IaEvent)

@[simp] theorem session_put_self : (s.put sip e).session sip = some e := AList.lookup_insert _

theorem session_put_of_ne {sip' : IP} (h : sip' ≠ sip) :
    (s.put sip e).session sip' = s.session sip' := AList.lookup_insert_ne h

@[simp] theorem session_emit (sip' : IP) : (s.emit ev).session sip' = s.session sip' := rfl

@[simp] theorem session_close_self : (s.close sip).session sip = none := AList.lookup_erase _ _

@[simp] theorem users_emit : (s.emit ev).users = s.users := rfl

@[simp] theorem users_close : (s.close sip).users = s.users := rfl

@[simp] theorem users_sendError (protoVer : ℤ) (text : String) :
    (s.sendError sip protoVer text).users = s.users := by
  unfold sendError
  split_ifs <;> rfl

@[simp] theorem session_sendError (protoVer : ℤ) (text : String) (sip' : IP) :
    (s.sendError sip protoVer text).session sip' = s.session sip' := by
  unfold sendError
  split_ifs <;> rfl

theorem sessionLog_emit (sip' : IP) : (s.emit ev).sessionLog sip' =
    if ev.session = some sip' then ev :: s.sessionLog sip' else s.sessionLog sip' := by
  simp only [sessionLog, emit, List.filter_cons, decide_eq_true_eq]

@[simp] theorem sessionLog_sendError (protoVer : ℤ) (text : String) (sip' : IP) :
    (s.sendError sip protoVer text).sessionLog sip' = s.sessionLog sip' := by
  unfold sendError
  split_ifs
  · rw [sessionLog_emit, if_neg (by simp [IaEvent.session])]
  · rfl

/-- An event of a session is its last one. -/
theorem last_emit_self (h : ev.session = some sip) : (s.emit ev).last sip = some ev := by
  rw [last, sessionLog_emit, if_pos h, List.head?_cons]

end Read

/-! ## Changes at one address -/

/-- A change that concerns one address and one user: all other sessions, users and addresses are the
same, and if the authorization of the user changes, it was not authorized here at another
address. -/
structure Touches (s s' : AuthIa) (sip : IP) (user : UserId) : Prop where
  /-- The users change for one user and one address. -/
  users : s.users.Frame s'.users user sip
  /-- The users stay consistent. -/
  consistent : s'.users.Consistent
  /-- The index of addresses stays right. -/
  indexed : s'.users.Indexed
  /-- The settings are the same. -/
  settings : s'.settings = s.settings
  /-- Sessions at other addresses are the same. -/
  session : ∀ sip', sip' ≠ sip → s'.session sip' = s.session sip'
  /-- What happened in them is the same. -/
  sessionLog : ∀ sip', sip' ≠ sip → s'.sessionLog sip' = s.sessionLog sip'
  /-- The user keeps its authorizations and its address, or it is not authorized elsewhere. -/
  user : ((s'.users.users user).authorizedBy = (s.users.users user).authorizedBy ∧
      (s'.users.users user).currIP = (s.users.users user).currIP) ∨
    (iaAuth ∈ (s.users.users user).authorizedBy → (s.users.users user).currIP = sip)

namespace Touches

variable {s s' s'' : AuthIa} {sip : IP} {user : UserId}

theorem refl (hc : s.users.Consistent) (hi : s.users.Indexed) (sip : IP) (user : UserId) :
    Touches s s sip user :=
  ⟨.refl _ _ _, hc, hi, rfl, fun _ _ => rfl, fun _ _ => rfl, .inl ⟨rfl, rfl⟩⟩

theorem trans (h : Touches s s' sip user) (h' : Touches s' s'' sip user) :
    Touches s s'' sip user where
  users := h.users.trans h'.users
  consistent := h'.consistent
  indexed := h'.indexed
  settings := h'.settings.trans h.settings
  session sip' hne := (h'.session sip' hne).trans (h.session sip' hne)
  sessionLog sip' hne := (h'.sessionLog sip' hne).trans (h.sessionLog sip' hne)
  user := by
    rcases h.user with ⟨hby, hip⟩ | hhere
    · rcases h'.user with ⟨hby', hip'⟩ | hhere'
      · exact .inl ⟨hby'.trans hby, hip'.trans hip⟩
      · rw [hby, hip] at hhere'
        exact .inr hhere'
    · exact .inr hhere

/-- A session at the address is stored. -/
theorem put (h : Touches s s' sip user) (e : IaUser) : Touches s (s'.put sip e) sip user where
  users := h.users
  consistent := h.consistent
  indexed := h.indexed
  settings := h.settings
  session sip' hne := (session_put_of_ne s' sip e hne).trans (h.session sip' hne)
  sessionLog := h.sessionLog
  user := h.user

/-- Something happens that belongs to no session at another address. -/
theorem emit (h : Touches s s' sip user) {ev : IaEvent}
    (hev : ∀ sip', sip' ≠ sip → ev.session ≠ some sip') : Touches s (s'.emit ev) sip user where
  users := h.users
  consistent := h.consistent
  indexed := h.indexed
  settings := h.settings
  session := h.session
  sessionLog sip' hne := by
    rw [sessionLog_emit, if_neg (hev sip' hne)]
    exact h.sessionLog sip' hne
  user := h.user

/-- An event of a session at the address. -/
theorem emit_session (h : Touches s s' sip user) {ev : IaEvent} (hev : ev.session = some sip) :
    Touches s (s'.emit ev) sip user :=
  h.emit fun sip' hne => by
    rw [hev]
    exact fun hc => hne (Option.some.inj hc).symm

theorem sendError (h : Touches s s' sip user) (protoVer : ℤ) (text : String) :
    Touches s (s'.sendError sip protoVer text) sip user := by
  unfold AuthIa.sendError
  split_ifs
  · exact h.emit fun _ _ => by simp [IaEvent.session]
  · exact h

theorem close (h : Touches s s' sip user) : Touches s (s'.close sip) sip user := by
  refine emit_session ?_ rfl
  exact ⟨h.users, h.consistent, h.indexed, h.settings,
    fun sip' hne => (AList.lookup_erase_ne hne).trans (h.session sip' hne), h.sessionLog, h.user⟩

theorem enabledDirs (h : Touches s s' sip user) (dirs : BitVec 32) :
    Touches s { s' with enabledDirs := dirs } sip user :=
  ⟨h.users, h.consistent, h.indexed, h.settings, h.session, h.sessionLog, h.user⟩

end Touches

/-- `Authorize` for a user who is not authorized here at another address. -/
theorem touches_authorize {s : AuthIa} {io : IaEnv} {sip : IP} {login : String} {user : UserId}
    {dirs : BitVec 32} {out : UsersImpl.Outcome} (hc : s.users.Consistent) (hi : s.users.Indexed)
    (hl : s.users.loginIndex login = some user)
    (hhere : iaAuth ∈ (s.users.users user).authorizedBy → (s.users.users user).currIP = sip)
    (h : s.users.authorize io.env login sip dirs iaAuth = some out) :
    Touches s { s with users := out.users } sip user := by
  have hstep : s.users.step (.authorize io.env login sip dirs iaAuth) = some out.users := by
    rw [UsersImpl.step, h, Option.map_some]
  obtain ⟨hc', hi'⟩ := UsersImpl.step_invariant hc hi hstep
  exact ⟨(UsersImpl.authorize_spec hc hi hl h).1, hc', hi', rfl, fun _ _ => rfl, fun _ _ => rfl,
    .inr hhere⟩

/-- `Unauthorize` for a user who is authorized at the address. -/
theorem touches_unauthorize {s s' : AuthIa} {io : IaEnv} {sip : IP} {login : String} {user : UserId}
    (hc : s.users.Consistent) (hi : s.users.Indexed) (hl : s.users.loginIndex login = some user)
    (hcurr : (s.users.users user).currIP = sip) (h : s.unauthorize io sip login = some s') :
    Touches s s' sip user ∧ iaAuth ∉ (s'.users.users user).authorizedBy ∧
      s'.ip2user = s.ip2user := by
  obtain ⟨out, hout, rfl⟩ := Option.map_eq_some_iff.1 h
  have hstep : s.users.step (.unauthorize io.env login iaAuth "") = some out.users := by
    rw [UsersImpl.step, hout, Option.map_some]
  obtain ⟨hc', hi'⟩ := UsersImpl.step_invariant hc hi hstep
  obtain ⟨hframe, hgone⟩ := UsersImpl.unauthorize_spec hl hout
  rw [hcurr] at hframe
  refine ⟨Touches.emit_session ?_ rfl, hgone, rfl⟩
  exact ⟨hframe, hc', hi', rfl, fun _ _ => rfl, fun _ _ => rfl, .inr fun _ => hcurr⟩

/-! ## What a packet can do -/

/-- The directions a `CONN_SYN` asks for. -/
def requestedDirs (protoVer : ℤ) (pkt : IaPacket) : BitVec 32 :=
  if protoVer = 8 then pkt.dirs else 0xFFFFFFFF

/-- What a packet can do in a session `e` at the address `sip`. -/
inductive Handled (io : IaEnv) (sip : IP) (protoVer : ℤ) (user : UserId) (e : IaUser)
    (pkt : IaPacket) (s : AuthIa) : AuthIa → Prop
  /-- The name is unknown: the session is closed. -/
  | unknown (text : String) (htype : pkt.type = none) :
      Handled io sip protoVer user e pkt s ((s.sendError sip protoVer text).close sip)
  /-- The user is authorized at another address: the session is closed. -/
  | elsewhere (text : String) (hauth : iaAuth ∈ (s.users.users user).authorizedBy)
      (hcurr : (s.users.users user).currIP ≠ sip) :
      Handled io sip protoVer user e pkt s ((s.sendError sip protoVer text).close sip)
  /-- Nothing happens, and the packet is no `CONN_SYN` of a session that waits for one. -/
  | ignored (hconn : pkt.type = some .connSyn → KnownVersion protoVer →
      e.phase = .two ∨ e.phase = .four) : Handled io sip protoVer user e pkt s s
  /-- A `CONN_SYN_8` is rejected, but its directions are stored. -/
  | rejected (htype : pkt.type = some .connSyn) (hver : protoVer = 8)
      (hphase : e.phase = .two ∨ e.phase = .four)
      (hhere : iaAuth ∈ (s.users.users user).authorizedBy → (s.users.users user).currIP = sip) :
      Handled io sip protoVer user e pkt s { s with enabledDirs := pkt.dirs }
  /-- A `CONN_SYN` is accepted. -/
  | connSyn (htype : pkt.type = some .connSyn) (hver : KnownVersion protoVer)
      (hphase : e.phase = .one ∨ e.phase = .three)
      (hhere : iaAuth ∈ (s.users.users user).authorizedBy → (s.users.users user).currIP = sip) :
      Handled io sip protoVer user e pkt s
        (({ s with enabledDirs := requestedDirs protoVer pkt }.put sip
          { e with phase := .two, phaseTime := io.now, rnd := io.random sip }).emit
            (.connSynAck sip (io.random sip) (requestedDirs protoVer pkt)))
  /-- A `CONN_ACK` is accepted, and the user is authorized. -/
  | authorized (htype : pkt.type = some .connAck) (hphase : e.phase = .two)
      (hrnd : pkt.rnd = e.rnd + 1)
      (hhere : iaAuth ∈ (s.users.users user).authorizedBy → (s.users.users user).currIP = sip)
      (out : UsersImpl.Outcome)
      (hout : s.users.authorize io.env e.login sip s.enabledDirs iaAuth = some out)
      (hret : out.ret = true) :
      Handled io sip protoVer user e pkt s
        ((({ s with users := out.users }.emit (.authorize sip e.login s.enabledDirs true)).put sip
          { e with
            phase := .three
            phaseTime := io.now
            lastSendAlive := io.now
            rnd := io.random sip }).emit (.aliveSyn sip (io.random sip)))
  /-- A `CONN_ACK` is accepted, but the user cannot be authorized: the session is closed. -/
  | refused (htype : pkt.type = some .connAck) (hphase : e.phase = .two)
      (hrnd : pkt.rnd = e.rnd + 1)
      (hhere : iaAuth ∈ (s.users.users user).authorizedBy → (s.users.users user).currIP = sip)
      (out : UsersImpl.Outcome)
      (hout : s.users.authorize io.env e.login sip s.enabledDirs iaAuth = some out)
      (hret : out.ret = false) :
      Handled io sip protoVer user e pkt s
        (({ s with users := out.users }.emit
          (.authorize sip e.login s.enabledDirs false)).close sip)
  /-- An `ALIVE_ACK` is accepted. -/
  | aliveAck (htype : pkt.type = some .aliveAck) (hphase : e.phase = .three)
      (hrnd : pkt.rnd = e.rnd + 1) :
      Handled io sip protoVer user e pkt s
        ((s.put sip { e with phaseTime := io.now }).emit (.aliveAck sip))
  /-- A `DISCONN_SYN` is accepted. -/
  | disconnSyn (htype : pkt.type = some .disconnSyn) (hphase : e.phase = .three) :
      Handled io sip protoVer user e pkt s
        ((s.put sip { e with phase := .four, phaseTime := io.now, rnd := io.random sip }).emit
          (.disconnSynAck sip (io.random sip)))
  /-- A `DISCONN_ACK` is accepted: the user is unauthorized and the session closed. -/
  | disconnAck (htype : pkt.type = some .disconnAck) (hphase : e.phase = .four)
      (hrnd : pkt.rnd = e.rnd + 1) (s₁ : AuthIa) (hun : s.unauthorize io sip e.login = some s₁) :
      Handled io sip protoVer user e pkt s ((s₁.emit (.fin sip)).close sip)

/-- Storing a session twice. -/
@[simp] theorem put_put (s : AuthIa) (sip : IP) (e e' : IaUser) :
    (s.put sip e).put sip e' = s.put sip e' := by
  simp only [put, AList.insert_insert]

/-- The two parts of `Process_CONN_SYN`. -/
theorem connSyn_handled {io : IaEnv} {sip : IP} {protoVer : ℤ} {user : UserId} {e : IaUser}
    {pkt : IaPacket} {s : AuthIa} (htype : pkt.type = some .connSyn)
    (hver : KnownVersion protoVer)
    (hhere : iaAuth ∈ (s.users.users user).authorizedBy → (s.users.users user).currIP = sip) :
    Handled io sip protoVer user e pkt s (s.connSyn io sip protoVer e pkt) := by
  by_cases hphase : e.phase = .one ∨ e.phase = .three
  · have h : Handled io sip protoVer user e pkt s _ := .connSyn htype hver hphase hhere
    rcases hver with rfl | rfl | rfl
    · simpa [AuthIa.connSyn, processConnSyn6, hphase, sendConnSynAck, requestedDirs] using h
    · simpa [AuthIa.connSyn, processConnSyn6, hphase, sendConnSynAck, requestedDirs] using h
    · simpa [AuthIa.connSyn, processConnSyn6, processConnSyn8, hphase, sendConnSynAck,
        requestedDirs, put] using h
  · have hphase' : e.phase = .two ∨ e.phase = .four := by
      cases hp : e.phase <;> simp_all
    rcases hver with rfl | rfl | rfl
    · simpa [AuthIa.connSyn, processConnSyn6, hphase] using Handled.ignored fun _ _ => hphase'
    · simpa [AuthIa.connSyn, processConnSyn6, hphase] using Handled.ignored fun _ _ => hphase'
    · simpa [AuthIa.connSyn, processConnSyn6, processConnSyn8, hphase] using
        Handled.rejected htype rfl hphase' hhere

/-- The two parts of `Process_CONN_ACK`. -/
theorem connAck_handled {io : IaEnv} {sip : IP} {protoVer : ℤ} {user : UserId} {e : IaUser}
    {pkt : IaPacket} {s s' : AuthIa} (htype : pkt.type = some .connAck)
    (hhere : iaAuth ∈ (s.users.users user).authorizedBy → (s.users.users user).currIP = sip)
    (h : s.connAck io sip e pkt = some s') : Handled io sip protoVer user e pkt s s' := by
  unfold AuthIa.connAck processConnAck at h
  by_cases hok : e.phase = .two ∧ pkt.rnd = e.rnd + 1
  · simp only [if_pos hok] at h
    cases hout : s.users.authorize io.env e.login sip s.enabledDirs iaAuth with
    | none => simp only [hout, Option.map_none, reduceCtorEq] at h
    | some out =>
      cases hret : out.ret with
      | true =>
        simp only [hout, Option.map_some, hret, if_true, sendAliveSyn] at h
        split_ifs at h
        obtain rfl := Option.some.inj h
        have : Handled io sip protoVer user e pkt s _ :=
          .authorized htype hok.1 hok.2 hhere out hout hret
        simpa [put, AuthIa.emit] using this
      | false =>
        simp only [hout, Option.map_some, hret, Bool.false_eq_true, if_false,
          Option.some.injEq] at h
        subst h
        have : Handled io sip protoVer user e pkt s _ :=
          .refused htype hok.1 hok.2 hhere out hout hret
        simpa [put, AuthIa.emit, AuthIa.close, AList.erase_insert] using this
  · simp only [if_neg hok, Option.some.injEq] at h
    subst h
    exact .ignored fun hc => by rw [htype] at hc; cases hc

/-- **What `PacketProcessor` can do with a packet.** -/
theorem dispatch_cases {io : IaEnv} {sip : IP} {protoVer : ℤ} {user : UserId} {e : IaUser}
    {pkt : IaPacket} {s s' : AuthIa} (h : s.dispatch io sip protoVer user e pkt = some s') :
    Handled io sip protoVer user e pkt s s' := by
  unfold dispatch at h
  cases htype : pkt.type with
  | none =>
    simp only [htype, Option.some.injEq] at h
    subst h
    exact .unknown _ htype
  | some type =>
    simp only [htype] at h
    split_ifs at h with hother hver
    · obtain rfl := Option.some.inj h
      exact .elsewhere _ hother.1 hother.2
    · have hhere : iaAuth ∈ (s.users.users user).authorizedBy →
          (s.users.users user).currIP = sip := fun hauth => by
        by_contra hne
        exact hother ⟨hauth, hne⟩
      have hignored : type ≠ .connSyn → Handled io sip protoVer user e pkt s s := fun hne =>
        .ignored fun hc => absurd (Option.some.inj (htype.symm.trans hc)) hne
      cases type with
      | connSyn =>
        obtain rfl := Option.some.inj h
        exact connSyn_handled htype hver hhere
      | connAck => exact connAck_handled htype hhere h
      | aliveAck =>
        obtain rfl := Option.some.inj h
        unfold processAliveAck
        split_ifs with hok
        · exact .aliveAck htype hok.1 hok.2
        · exact hignored (by simp)
      | disconnSyn =>
        obtain rfl := Option.some.inj h
        by_cases hphase : e.phase = .three
        · have : Handled io sip protoVer user e pkt s _ := .disconnSyn htype hphase
          simpa [AuthIa.disconnSyn, processDisconnSyn, hphase, sendDisconnSynAck] using this
        · have : s.disconnSyn io sip e = s := by
            simp [AuthIa.disconnSyn, processDisconnSyn, hphase]
          rw [this]
          exact hignored (by simp)
      | disconnAck =>
        unfold AuthIa.disconnAck processDisconnAck sendFin at h
        split_ifs at h with hok
        · simp only [Bool.and_eq_true, decide_eq_true_eq] at hok
          obtain ⟨s₁, hun, rfl⟩ := Option.map_eq_some_iff.1 h
          exact .disconnAck htype hok.1 hok.2 s₁ hun
        · obtain rfl := Option.some.inj h
          exact hignored (by simp)
      | connSynAck | aliveSyn | disconnSynAck | fin | err =>
        obtain rfl := Option.some.inj h
        exact hignored (by simp)
    · obtain rfl := Option.some.inj h
      exact .ignored fun _ hc => absurd hc hver

/-! ## What a datagram can do -/

/-- The session of a datagram from the address `sip` for a user: a new one, or the one that is
there, with the password of the user. -/
inductive Entered (io : IaEnv) (sip : IP) (user : UserId) (s : AuthIa) : IaUser → AuthIa → Prop
  /-- A session is opened. -/
  | opened (e : IaUser) (hnone : s.session sip = none)
      (hfree : s.users.ipIndex sip = none ∨ s.users.ipIndex sip = some user)
      (hlogin : e.login = (s.users.users user).login) (huser : e.user = user)
      (hphase : e.phase = .one) (htime : e.phaseTime = io.now)
      (hctx : e.ctx = contextOf (io.password user)) (hpass : e.password = io.password user) :
      Entered io sip user s e ((s.put sip e).emit (.opened sip io.now))
  /-- The session is there. -/
  | found (e₀ : IaUser) (hsome : s.session sip = some e₀) (huser : e₀.user = user) :
      Entered io sip user s (e₀.renew (io.password user)) (s.put sip (e₀.renew (io.password user)))

/-- A new session needs no renewal. -/
theorem renew_new (io : IaEnv) (login : String) (user : UserId) (port : BitVec 16) (protoVer : ℤ) :
    (IaUser.new io login user port protoVer).renew (io.password user) =
      IaUser.new io login user port protoVer :=
  if_neg (not_not.2 rfl)

/-- **What `findSession` can do**: there is no session for the user, and an error is sent; or the
session of the datagram is found. -/
theorem findSession_cases (io : IaEnv) (sip : IP) (sport : BitVec 16) (protoVer : ℤ) (user : UserId)
    (s : AuthIa) :
    (∃ text, s.findSession io sip sport protoVer user = (s.sendError sip protoVer text, none)) ∨
    ∃ e s₀, s.findSession io sip sport protoVer user = (s₀, some e) ∧ s₀.session sip = some e ∧
      Entered io sip user s (e.renew (io.password user))
        (s₀.put sip (e.renew (io.password user))) := by
  unfold findSession
  cases hsession : s.ip2user.lookup sip with
  | none =>
    by_cases hfree : (s.users.ipIndex sip).isSome ∧ s.users.ipIndex sip ≠ some user
    · simp only [if_pos hfree]
      exact .inl ⟨_, rfl⟩
    · simp only [if_neg hfree]
      refine .inr ⟨_, _, rfl, by simp, ?_⟩
      have hfree' : s.users.ipIndex sip = none ∨ s.users.ipIndex sip = some user := by
        cases hi : s.users.ipIndex sip with
        | none => exact .inl rfl
        | some holder => exact .inr (by simpa [hi] using hfree)
      have hput : ∀ e, (((s.put sip e).emit (.opened sip io.now)).put sip e) =
          (s.put sip e).emit (.opened sip io.now) := fun e => by
        simp only [put, AuthIa.emit, AList.insert_insert]
      rw [renew_new, hput]
      exact .opened (IaUser.new io (s.users.users user).login user sport protoVer) hsession hfree'
        rfl rfl rfl rfl (by simp only [IaUser.new]) rfl
  | some e₀ =>
    by_cases huser : user ≠ e₀.user
    · simp only [if_pos huser]
      exact .inl ⟨_, rfl⟩
    · simp only [if_neg huser]
      exact .inr ⟨_, _, rfl, hsession, .found e₀ hsession (not_not.1 huser).symm⟩

/-- What `PacketProcessor` can do. -/
theorem packetProcessor_cases {io : IaEnv} {dataLen : ℕ} {sip : IP} {sport : BitVec 16}
    {protoVer : ℤ} {user : UserId} {buffer buffer' : List Byte} {s s' : AuthIa}
    (h : s.packetProcessor io dataLen sip sport protoVer user buffer = some (s', buffer')) :
    (s' = s ∨ ∃ protoVer text, s' = s.sendError sip protoVer text) ∨
    ∃ e s₁ plain, Entered io sip user s e s₁ ∧ decryptPayload e.ctx dataLen buffer = some plain ∧
      Handled io sip protoVer user e (readPacket (plain.drop iaOffset)) s₁ s' := by
  unfold packetProcessor at h
  rcases s.findSession_cases io sip sport protoVer user with
    ⟨text, hfind⟩ | ⟨e, s₀, hfind, -, hent⟩
  · simp only [hfind, Option.some.injEq, Prod.mk.injEq] at h
    exact .inl (.inr ⟨_, _, h.1.symm⟩)
  · simp only [hfind] at h
    cases hplain : decryptPayload (e.renew (io.password user)).ctx dataLen buffer with
    | none => simp only [hplain, reduceCtorEq] at h
    | some plain =>
      simp only [hplain] at h
      obtain ⟨s'', hs'', heq⟩ := Option.map_eq_some_iff.1 h
      obtain ⟨rfl, -⟩ := Prod.mk.inj heq
      exact .inr ⟨_, _, plain, hent, hplain, dispatch_cases hs''⟩

/-- Who the datagram in the array comes from, as far as `RecvData` finds out: its protocol version,
and the user, who is neither disabled nor frozen and may come from the address. -/
structure Admitted (s : AuthIa) (io : IaEnv) (sip : IP) (data buffer : List Byte) (protoVer : ℤ)
    (user : UserId) : Prop where
  /-- The datagram is not empty. -/
  length_ne : data.length ≠ 0
  /-- It is not too long. -/
  length_le : data.length ≤ 256
  /-- The header is right. -/
  header : checkHeader (receive data buffer) = some protoVer
  /-- The login is known. -/
  login : s.users.loginIndex (readLogin (receive data buffer)) = some user
  /-- The user is not disabled. -/
  disabled : (s.users.users user).disabled = 0
  /-- The user is not frozen. -/
  passive : (s.users.users user).passive = 0
  /-- The user may come from the address. -/
  ips : (s.users.users user).ips.find io.env.shifted sip = true

/-- **What a datagram can do**: nothing but the sending of an error; or it is decrypted for a
session, and the packet does something. -/
theorem recvData_cases {io : IaEnv} {sip : IP} {sport : BitVec 16}
    {datagram buffer buffer' : List Byte} {s s' : AuthIa} (h : s.recvData io sip sport datagram buffer = some (s', buffer')) :
    (s' = s ∨ ∃ protoVer text, s' = s.sendError sip protoVer text) ∨
    ∃ protoVer user e s₁ plain,
      s.Admitted io sip (datagram.take iaBufferSize) buffer protoVer user ∧
      Entered io sip user s e s₁ ∧
      decryptPayload e.ctx (datagram.take iaBufferSize).length
        (receive (datagram.take iaBufferSize) buffer) = some plain ∧
      Handled io sip protoVer user e (readPacket (plain.drop iaOffset)) s₁ s' := by
  unfold recvData at h
  generalize datagram.take iaBufferSize = data at h ⊢
  dsimp only at h
  split_ifs at h with hzero hlong
  · simp only [Option.some.injEq, Prod.mk.injEq] at h
    exact .inl (.inl h.1.symm)
  · simp only [Option.some.injEq, Prod.mk.injEq] at h
    exact .inl (.inl h.1.symm)
  cases hheader : checkHeader (receive data buffer) with
  | none =>
    simp only [hheader, Option.some.injEq, Prod.mk.injEq] at h
    exact .inl (.inl h.1.symm)
  | some protoVer =>
    cases hlogin : s.users.loginIndex (readLogin (receive data buffer)) with
    | none =>
      simp only [hheader, hlogin, Option.some.injEq, Prod.mk.injEq] at h
      exact .inl (.inr ⟨_, _, h.1.symm⟩)
    | some user =>
      simp only [hheader, hlogin] at h
      split_ifs at h with hdisabled hpassive hips
      · simp only [Option.some.injEq, Prod.mk.injEq] at h
        exact .inl (.inr ⟨_, _, h.1.symm⟩)
      · simp only [Option.some.injEq, Prod.mk.injEq] at h
        exact .inl (.inr ⟨_, _, h.1.symm⟩)
      · simp only [Option.some.injEq, Prod.mk.injEq] at h
        exact .inl (.inr ⟨_, _, h.1.symm⟩)
      · have hadm : s.Admitted io sip data buffer protoVer user :=
          ⟨hzero, not_lt.1 hlong, hheader, hlogin, not_not.1 hdisabled, not_not.1 hpassive,
            by simpa using hips⟩
        rcases packetProcessor_cases h with hquiet | ⟨e, s₁, plain, hent, hplain, hhandled⟩
        · exact .inl hquiet
        · exact .inr ⟨protoVer, user, e, s₁, plain, hadm, hent, hplain, hhandled⟩

/-! ## What the timer can do -/

/-- What the timer does about an `ALIVE_SYN` in a session `e`. -/
inductive Reminded (io : IaEnv) (sip : IP) (e : IaUser) (s : AuthIa) : IaUser → AuthIa → Prop
  /-- None is due. -/
  | early : Reminded io sip e s e s
  /-- It is sent. -/
  | sent : Reminded io sip e s { e with rnd := io.random sip, lastSendAlive := io.now }
      ((s.put sip { e with rnd := io.random sip, lastSendAlive := io.now }).emit
        (.aliveSyn sip (io.random sip)))
  /-- There is no `case` for the version the session was opened with. -/
  | silent : Reminded io sip e s { e with lastSendAlive := io.now }
      (s.put sip { e with lastSendAlive := io.now })

/-- What the timer can do to the session at an address. -/
inductive Timed (io : IaEnv) (sip : IP) (s : AuthIa) : AuthIa → Prop
  /-- There is nothing to do. -/
  | unchanged (h : ∀ e, s.session sip = some e → e.phase = .one ∨
      (e.phase = .two ∨ e.phase = .four) ∧
        io.now.passed e.phaseTime s.settings.userDelay = false) : Timed io sip s s
  /-- The client did not acknowledge the connection: the session is closed. -/
  | abandoned (e : IaUser) (hsome : s.session sip = some e) (hphase : e.phase = .two)
      (hpassed : io.now.passed e.phaseTime s.settings.userDelay = true) :
      Timed io sip s (s.close sip)
  /-- The client is alive. -/
  | alive (e e' : IaUser) (s₁ : AuthIa) (hsome : s.session sip = some e) (hphase : e.phase = .three)
      (hrem : Reminded io sip e s e' s₁)
      (hpassed : io.now.passed e.phaseTime s.settings.userTimeout = false) : Timed io sip s s₁
  /-- The client is silent: the user is unauthorized and the session closed. -/
  | expired (e e' : IaUser) (s₁ s₂ : AuthIa) (hsome : s.session sip = some e)
      (hphase : e.phase = .three) (hrem : Reminded io sip e s e' s₁)
      (hpassed : io.now.passed e.phaseTime s.settings.userTimeout = true)
      (hun : s₁.unauthorize io sip (s₁.users.users e.user).login = some s₂) :
      Timed io sip s (s₂.close sip)
  /-- The client did not acknowledge the disconnection: the session goes on. -/
  | back (e : IaUser) (hsome : s.session sip = some e) (hphase : e.phase = .four)
      (hpassed : io.now.passed e.phaseTime s.settings.userDelay = true) :
      Timed io sip s (s.put sip { e with phase := .three, phaseTime := io.now })

theorem timeoutAlive_cases {io : IaEnv} {sip : IP} {e e' : IaUser} {s s₁ : AuthIa}
    (h : s.timeoutAlive io sip e = some (s₁, e')) : Reminded io sip e s e' s₁ := by
  unfold timeoutAlive at h
  split_ifs at h with hpassed hver
  · unfold sendAliveSyn at h
    split_ifs at h
    · cases h
    · simp only [Option.map_some, Option.some.injEq, Prod.mk.injEq] at h
      obtain ⟨rfl, rfl⟩ := h
      have : Reminded io sip e s _ _ := .sent
      simpa [put, AuthIa.emit] using this
  · simp only [Option.some.injEq, Prod.mk.injEq] at h
    obtain ⟨rfl, rfl⟩ := h
    exact .silent
  · simp only [Option.some.injEq, Prod.mk.injEq] at h
    obtain ⟨rfl, rfl⟩ := h
    exact .early

theorem Reminded.frame {io : IaEnv} {sip : IP} {e e' : IaUser} {s s₁ : AuthIa}
    (h : Reminded io sip e s e' s₁) :
    e'.user = e.user ∧ e'.phaseTime = e.phaseTime ∧ s₁.settings = s.settings ∧
      s₁.users = s.users := by
  cases h <;> exact ⟨rfl, rfl, rfl, rfl⟩

/-- **What the timer can do** to the session at an address. -/
theorem timeout_cases {io : IaEnv} {sip : IP} {s s' : AuthIa} (h : s.timeout io sip = some s') :
    Timed io sip s s' := by
  unfold timeout at h
  cases hsession : s.ip2user.lookup sip with
  | none =>
    simp only [hsession, Option.some.injEq] at h
    subst h
    exact .unchanged fun e he => by
      rw [session, hsession] at he
      cases he
  | some e =>
    have hunchanged : (e.phase = .one ∨ (e.phase = .two ∨ e.phase = .four) ∧
        io.now.passed e.phaseTime s.settings.userDelay = false) → Timed io sip s s :=
      fun hcond => .unchanged fun e' he' => by
        rw [session, hsession] at he'
        rwa [← Option.some.inj he']
    cases hphase : e.phase with
    | one =>
      simp only [hsession, hphase, Option.some.injEq] at h
      subst h
      exact hunchanged (.inl hphase)
    | two =>
      simp only [hsession, hphase] at h
      split_ifs at h with hpassed
      · obtain rfl := Option.some.inj h
        exact .abandoned e hsession hphase hpassed
      · obtain rfl := Option.some.inj h
        exact hunchanged (.inr ⟨.inl hphase, by simpa using hpassed⟩)
    | three =>
      cases hrem : s.timeoutAlive io sip e with
      | none => simp only [hsession, hphase, hrem, reduceCtorEq] at h
      | some r =>
        obtain ⟨s₁, e'⟩ := r
        have hrem' := timeoutAlive_cases hrem
        obtain ⟨huser, htime, hsettings, -⟩ := hrem'.frame
        simp only [hsession, hphase, hrem, huser, htime, hsettings] at h
        split_ifs at h with hpassed
        · obtain ⟨s₂, hun, rfl⟩ := Option.map_eq_some_iff.1 h
          exact .expired e e' s₁ s₂ hsession hphase hrem' hpassed hun
        · obtain rfl := Option.some.inj h
          exact .alive e e' s₁ hsession hphase hrem' (by simpa using hpassed)
    | four =>
      simp only [hsession, hphase] at h
      split_ifs at h with hpassed
      · obtain rfl := Option.some.inj h
        exact .back e hsession hphase hpassed
      · obtain rfl := Option.some.inj h
        exact hunchanged (.inr ⟨.inr hphase, by simpa using hpassed⟩)

/-! ## The invariant -/

/-- What holds of the session at an address. -/
structure SessionOk (s : AuthIa) (sip : IP) (e : IaUser) : Prop where
  /-- Its user is found by its login. -/
  found : s.users.loginIndex e.login = some e.user
  /-- The context is that of the password. -/
  ctx : e.ctx = contextOf e.password
  /-- In the last two phases the user is authorized at the address. -/
  authorized : e.phase = .three ∨ e.phase = .four →
    iaAuth ∈ (s.users.users e.user).authorizedBy ∧ (s.users.users e.user).currIP = sip
  /-- In the first phase nothing has happened since the session was opened. -/
  one : e.phase = .one → s.last sip = some (.opened sip e.phaseTime)
  /-- In the second phase the last that happened is a `CONN_SYN_ACK` with the nonce. -/
  two : e.phase = .two → ∃ dirs, s.last sip = some (.connSynAck sip e.rnd dirs)
  /-- In the fourth phase the last that happened is a `DISCONN_SYN_ACK` with the nonce. -/
  four : e.phase = .four → s.last sip = some (.disconnSynAck sip e.rnd)

/-- The invariant of the sessions. -/
structure Sound (s : AuthIa) : Prop where
  /-- The users are consistent. -/
  consistent : s.users.Consistent
  /-- The index of addresses is right. -/
  indexed : s.users.Indexed
  /-- All sessions are as they should be. -/
  sessions : ∀ sip e, s.session sip = some e → s.SessionOk sip e
  /-- A session that was opened and nothing else is in the first phase. -/
  opened : ∀ sip t, s.last sip = some (.opened sip t) →
    ∃ e, s.session sip = some e ∧ e.phase = .one ∧ e.phaseTime = t

/-- **The invariant is kept by a change at one address** if it holds at this address.

**Proof sketch.** A session at another address, in one of the last phases, belongs to a user who is
authorized there; so it is not the user whose authorization changes. -/
theorem Sound.touch {s s' : AuthIa} {sip : IP} {user : UserId} (hs : s.Sound)
    (h : Touches s s' sip user) (hok : ∀ e, s'.session sip = some e → s'.SessionOk sip e)
    (hopened : ∀ t, s'.last sip = some (.opened sip t) →
      ∃ e, s'.session sip = some e ∧ e.phase = .one ∧ e.phaseTime = t) : s'.Sound where
  consistent := h.consistent
  indexed := h.indexed
  sessions sip' e he := by
    by_cases hsip : sip' = sip
    · subst hsip
      exact hok e he
    · rw [h.session sip' hsip] at he
      have hold := hs.sessions sip' e he
      have hlast : s'.last sip' = s.last sip' := by rw [last, last, h.sessionLog sip' hsip]
      refine ⟨by rw [h.users.loginIndex]; exact hold.found, hold.ctx, fun hphase => ?_,
        fun hphase => by rw [hlast]; exact hold.one hphase,
        fun hphase => by rw [hlast]; exact hold.two hphase,
        fun hphase => by rw [hlast]; exact hold.four hphase⟩
      obtain ⟨hauth, hcurr⟩ := hold.authorized hphase
      by_cases huser : e.user = user
      · rw [huser] at hauth hcurr ⊢
        rcases h.user with ⟨hby, hip⟩ | hhere
        · rw [hby, hip]
          exact ⟨hauth, hcurr⟩
        · exact absurd (hcurr.symm.trans (hhere hauth)) hsip
      · rw [h.users.others e.user huser]
        exact ⟨hauth, hcurr⟩
  opened sip' t ht := by
    by_cases hsip : sip' = sip
    · subst hsip
      exact hopened t ht
    · have hlast : s'.last sip' = s.last sip' := by rw [last, last, h.sessionLog sip' hsip]
      rw [hlast] at ht
      rw [h.session sip' hsip]
      exact hs.opened sip' t ht

/-- The invariant is kept if the session at the address is closed. -/
theorem Sound.close {s s' : AuthIa} {sip : IP} {user : UserId} (hs : s.Sound)
    (h : Touches s s' sip user) : (s'.close sip).Sound := by
  refine hs.touch h.close (fun e he => ?_) (fun t ht => ?_)
  · rw [session_close_self] at he
    cases he
  · rw [AuthIa.close, last_emit_self _ _ _ rfl] at ht
    cases ht

/-- The invariant is kept if something happens in a session that leads it to a phase after the
first. -/
theorem Sound.happen {s s₀ : AuthIa} {sip : IP} {user : UserId} {e : IaUser} {ev : IaEvent}
    (hs : s.Sound) (h : Touches s s₀ sip user) (hev : ev.session = some sip)
    (hopened : ∀ t, ev ≠ .opened sip t) (hfound : s₀.users.loginIndex e.login = some e.user)
    (hctx : e.ctx = contextOf e.password)
    (hauth : e.phase = .three ∨ e.phase = .four →
      iaAuth ∈ (s₀.users.users e.user).authorizedBy ∧ (s₀.users.users e.user).currIP = sip)
    (hone : e.phase ≠ .one) (htwo : e.phase = .two → ∃ dirs, ev = .connSynAck sip e.rnd dirs)
    (hfour : e.phase = .four → ev = .disconnSynAck sip e.rnd) :
    ((s₀.put sip e).emit ev).Sound := by
  have hlast : ((s₀.put sip e).emit ev).last sip = some ev := last_emit_self _ _ _ hev
  refine hs.touch ((h.put e).emit_session hev) (fun e' he' => ?_) (fun t ht => ?_)
  · rw [session_emit, session_put_self] at he'
    obtain rfl := Option.some.inj he'
    refine ⟨hfound, hctx, hauth, fun hc => absurd hc hone, fun hphase => ?_, fun hphase => ?_⟩
    · obtain ⟨dirs, hdirs⟩ := htwo hphase
      exact ⟨dirs, by rw [hlast, hdirs]⟩
    · rw [hlast, hfour hphase]
  · rw [hlast] at ht
    exact absurd (Option.some.inj ht) (hopened t)

theorem Initial.sound {s : AuthIa} (h : s.Initial) : s.Sound where
  consistent := h.consistent
  indexed := h.indexed
  sessions sip e he := by
    rw [session, h.ip2user, AList.lookup_empty] at he
    cases he
  opened sip t ht := by
    rw [last, sessionLog, h.log] at ht
    cases ht

/-! ## The invariant is kept by datagrams -/

/-- What a renewal leaves alone. -/
theorem renew_eq (password : List Byte) (e : IaUser) :
    ∃ ctx pass, e.renew password = { e with ctx := ctx, password := pass } := by
  unfold IaUser.renew
  split_ifs
  · exact ⟨_, _, rfl⟩
  · exact ⟨_, _, rfl⟩

/-- A renewed session has the context of the password. -/
theorem renew_ctx (password : List Byte) {e : IaUser} (h : e.ctx = contextOf e.password) :
    (e.renew password).ctx = contextOf password ∧ (e.renew password).password = password := by
  unfold IaUser.renew
  split_ifs with hne
  · refine ⟨?_, rfl⟩
    have hkey : Blowfish.strncpyKey password (min password.length passwdLen) =
        Blowfish.strncpyKey password passwdLen := by
      rw [Blowfish.strncpyKey, Blowfish.strncpyKey, ← List.take_take,
        List.take_of_length_le (List.length_take_le' _ _)]
    rw [Blowfish.initContext, contextOf, hkey]
  · rw [not_not] at hne
    rw [hne] at h
    exact ⟨h, hne⟩

section Datagram

variable {io : IaEnv} {sip : IP} {protoVer : ℤ} {user : UserId} {e : IaUser} {pkt : IaPacket}
  {s s' : AuthIa}

/-- What there is after the session of a datagram has been found. -/
structure Ready (io : IaEnv) (sip : IP) (user : UserId) (e : IaUser) (s s₁ : AuthIa) : Prop where
  /-- The invariant holds. -/
  sound : s₁.Sound
  /-- Only the address is concerned. -/
  touches : Touches s s₁ sip user
  /-- The session is there. -/
  session : s₁.session sip = some e
  /-- It belongs to the user. -/
  user_eq : e.user = user
  /-- Its context is that of the password of the user. -/
  ctx : e.ctx = contextOf (io.password user)
  /-- The users are the same. -/
  users : s₁.users = s.users
  /-- The directions are the same. -/
  enabledDirs : s₁.enabledDirs = s.enabledDirs

/-- The session that was there belongs to the user. -/
theorem Entered.user_of_session {s₁ : AuthIa} (h : Entered io sip user s e s₁) {e₀ : IaUser}
    (he₀ : s.session sip = some e₀) : e₀.user = user := by
  cases h with
  | opened _ hnone _ _ _ _ _ _ _ =>
    rw [hnone] at he₀
    cases he₀
  | found e₁ hsome huser =>
    obtain rfl := Option.some.inj (hsome.symm.trans he₀)
    exact huser

/-- Finding the session keeps the invariant. -/
theorem Entered.ready {s₁ : AuthIa} (hs : s.Sound) {login : String}
    (hl : s.users.loginIndex login = some user) (h : Entered io sip user s e s₁) :
    Ready io sip user e s s₁ := by
  have hrefl := Touches.refl hs.consistent hs.indexed sip user
  cases h with
  | opened _ hnone hfree hlogin huser hphase htime hctx hpass =>
    have htouch : Touches s ((s.put sip e).emit (.opened sip io.now)) sip user :=
      (hrefl.put e).emit_session rfl
    have hlast : ((s.put sip e).emit (.opened sip io.now)).last sip = some (.opened sip io.now) :=
      last_emit_self _ _ _ rfl
    have hsession : ((s.put sip e).emit (.opened sip io.now)).session sip = some e := by simp
    refine ⟨hs.touch htouch (fun e' he' => ?_) (fun t ht => ?_), htouch, hsession, huser, hctx, rfl,
      rfl⟩
    · rw [hsession] at he'
      obtain rfl := Option.some.inj he'
      have hfound : s.users.loginIndex e.login = some e.user := by
        rw [hlogin, huser, hs.consistent.login_eq login user hl, hl]
      refine ⟨hfound, by rw [hctx, hpass], ?_, fun _ => by rw [hlast, htime], ?_, ?_⟩
      · simp [hphase]
      · simp [hphase]
      · simp [hphase]
    · rw [hlast] at ht
      simp only [Option.some.injEq, IaEvent.opened.injEq, true_and] at ht
      exact ⟨e, hsession, hphase, htime.trans ht⟩
  | found e₀ hsome huser =>
    have htouch := hrefl.put (e₀.renew (io.password user))
    have hold := hs.sessions sip e₀ hsome
    obtain ⟨hctx, hpass⟩ := renew_ctx (io.password user) hold.ctx
    obtain ⟨ctx, pass, heq⟩ := renew_eq (io.password user) e₀
    refine ⟨hs.touch htouch (fun e' he' => ?_) (fun t ht => ?_), htouch, session_put_self _ _ _,
      by rw [heq]; exact huser, hctx, rfl, rfl⟩
    · rw [session_put_self] at he'
      obtain rfl := Option.some.inj he'
      rw [heq] at hctx hpass ⊢
      exact ⟨hold.found, hctx.trans (congrArg contextOf hpass.symm), hold.authorized, hold.one,
        hold.two, hold.four⟩
    · obtain ⟨e', he', hphase, htime⟩ := hs.opened sip t ht
      obtain rfl := Option.some.inj (hsome.symm.trans he')
      refine ⟨_, session_put_self _ _ _, ?_, ?_⟩
      · rw [heq]
        exact hphase
      · rw [heq]
        exact htime

/-- A packet concerns one address and one user. -/
theorem Handled.touches (hs : s.Sound) (hsession : s.session sip = some e) (huser : e.user = user)
    (h : Handled io sip protoVer user e pkt s s') : Touches s s' sip user := by
  have hrefl := Touches.refl hs.consistent hs.indexed sip user
  have hok := hs.sessions sip e hsession
  have hfound : s.users.loginIndex e.login = some user := huser ▸ hok.found
  cases h with
  | unknown text _ => exact (hrefl.sendError protoVer text).close
  | elsewhere text _ _ => exact (hrefl.sendError protoVer text).close
  | ignored _ => exact hrefl
  | rejected _ _ _ => exact hrefl.enabledDirs _
  | connSyn _ _ _ => exact ((hrefl.enabledDirs _).put _).emit_session rfl
  | authorized _ _ _ hhere out hout _ =>
    have hauth := touches_authorize hs.consistent hs.indexed hfound hhere hout
    exact ((hauth.emit_session rfl).put _).emit_session rfl
  | refused _ _ _ hhere out hout _ =>
    have hauth := touches_authorize hs.consistent hs.indexed hfound hhere hout
    exact (hauth.emit_session rfl).close
  | aliveAck _ _ _ => exact (hrefl.put _).emit_session rfl
  | disconnSyn _ _ => exact (hrefl.put _).emit_session rfl
  | disconnAck _ hphase _ s₁ hun =>
    have hcurr := (hok.authorized (.inr hphase)).2
    rw [huser] at hcurr
    have hunauth := touches_unauthorize hs.consistent hs.indexed hfound hcurr hun
    exact (hunauth.1.emit_session rfl).close

/-- A datagram concerns one address and one user. -/
theorem Ready.handled {s₁ : AuthIa} (hready : Ready io sip user e s s₁)
    (h : Handled io sip protoVer user e pkt s₁ s') : Touches s s' sip user :=
  hready.touches.trans (h.touches hready.sound hready.session hready.user_eq)

/-- After an `Authorize` that succeeds the user is authorized at the address. -/
theorem authorize_here (hs : s.Sound) (hl : s.users.loginIndex e.login = some user)
    (hhere : iaAuth ∈ (s.users.users user).authorizedBy → (s.users.users user).currIP = sip)
    {out : UsersImpl.Outcome} {dirs : BitVec 32}
    (hout : s.users.authorize io.env e.login sip dirs iaAuth = some out)
    (hret : out.ret = true) :
    iaAuth ∈ (out.users.users user).authorizedBy ∧ (out.users.users user).currIP = sip := by
  obtain ⟨-, hok, -⟩ := UsersImpl.authorize_spec hs.consistent hs.indexed hl hout
  obtain ⟨hauth, hcurr | ⟨hbefore, hcurr⟩⟩ := hok hret
  · exact ⟨hauth, hcurr⟩
  · exact ⟨hauth, hcurr.trans (hhere hbefore)⟩

/-- **A packet keeps the invariant.** -/
theorem Handled.sound (hs : s.Sound) (hsession : s.session sip = some e) (huser : e.user = user)
    (h : Handled io sip protoVer user e pkt s s') : s'.Sound := by
  have hrefl := Touches.refl hs.consistent hs.indexed sip user
  have hok := hs.sessions sip e hsession
  have hfound : s.users.loginIndex e.login = some user := huser ▸ hok.found
  have htouches := h.touches hs hsession huser
  cases h with
  | unknown text _ => exact hs.close (hrefl.sendError protoVer text)
  | elsewhere text _ _ => exact hs.close (hrefl.sendError protoVer text)
  | ignored _ => exact hs
  | rejected _ _ _ =>
    refine hs.touch htouches (fun e' he' => ?_) (fun t ht => hs.opened sip t ht)
    have hok' := hs.sessions sip e' he'
    exact ⟨hok'.found, hok'.ctx, hok'.authorized, hok'.one, hok'.two, hok'.four⟩
  | connSyn _ _ _ =>
    exact hs.happen (hrefl.enabledDirs _) rfl (by simp) hok.found hok.ctx (by simp) (by simp)
      (fun _ => ⟨_, rfl⟩) (by simp)
  | authorized _ _ _ hhere out hout hret =>
    have hauth := touches_authorize hs.consistent hs.indexed hfound hhere hout
    have hnow := authorize_here hs hfound hhere hout hret
    refine hs.happen (hauth.emit_session rfl) rfl (by simp) ?_ hok.ctx ?_ (by simp) (by simp)
      (by simp)
    · exact (congrFun hauth.users.loginIndex _).trans hok.found
    · rw [← huser] at hnow
      exact fun _ => hnow
  | refused _ _ _ hhere out hout _ =>
    have hauth := touches_authorize hs.consistent hs.indexed hfound hhere hout
    exact hs.close (hauth.emit_session rfl)
  | aliveAck _ hphase _ =>
    exact hs.happen hrefl rfl (by simp) hok.found hok.ctx hok.authorized (by simp [hphase])
      (by simp [hphase]) (by simp [hphase])
  | disconnSyn _ hphase =>
    exact hs.happen hrefl rfl (by simp) hok.found hok.ctx
      (fun _ => hok.authorized (.inl hphase)) (by simp) (by simp) (fun _ => rfl)
  | disconnAck _ hphase _ s₁ hun =>
    have hcurr := (hok.authorized (.inr hphase)).2
    rw [huser] at hcurr
    have hunauth := touches_unauthorize hs.consistent hs.indexed hfound hcurr hun
    exact hs.close (hunauth.1.emit_session rfl)

end Datagram

/-! ## The invariant is kept by the timer -/

section Timer

variable {io : IaEnv} {sip : IP} {e e' : IaUser} {s s' s₁ : AuthIa}

/-- An `ALIVE_SYN` concerns its session. -/
theorem Reminded.touches (hs : s.Sound) (h : Reminded io sip e s e' s₁) :
    Touches s s₁ sip e.user := by
  have hrefl := Touches.refl hs.consistent hs.indexed sip e.user
  cases h with
  | early => exact hrefl
  | sent => exact (hrefl.put _).emit_session rfl
  | silent => exact hrefl.put _

/-- A session is reminded in the third phase. -/
theorem Reminded.sound (hs : s.Sound) (hsession : s.session sip = some e)
    (hphase : e.phase = .three) (h : Reminded io sip e s e' s₁) :
    s₁.Sound ∧ s₁.session sip = some e' ∧ e'.phase = .three := by
  have hrefl := Touches.refl hs.consistent hs.indexed sip e.user
  have hok := hs.sessions sip e hsession
  cases h with
  | early => exact ⟨hs, hsession, hphase⟩
  | sent =>
    refine ⟨?_, by simp, hphase⟩
    exact hs.happen hrefl rfl (by simp) hok.found hok.ctx hok.authorized (by simp [hphase])
      (by simp [hphase]) (by simp [hphase])
  | silent =>
    refine ⟨hs.touch (hrefl.put _) (fun e' he' => ?_) (fun t ht => ?_), by simp, hphase⟩
    · rw [session_put_self] at he'
      obtain rfl := Option.some.inj he'
      exact ⟨hok.found, hok.ctx, hok.authorized, hok.one, hok.two, hok.four⟩
    · obtain ⟨e', he', hone, -⟩ := hs.opened sip t ht
      obtain rfl := Option.some.inj (hsession.symm.trans he')
      rw [hphase] at hone
      cases hone

/-- The user of an expired session is unauthorized. -/
theorem unauthorize_expired {s₂ : AuthIa} (hs : s.Sound) (hsession : s.session sip = some e)
    (hphase : e.phase = .three) (hrem : Reminded io sip e s e' s₁)
    (hun : s₁.unauthorize io sip (s₁.users.users e.user).login = some s₂) :
    Touches s s₂ sip e.user ∧ iaAuth ∉ (s₂.users.users e.user).authorizedBy := by
  obtain ⟨-, -, -, husers⟩ := hrem.frame
  have hok := hs.sessions sip e hsession
  have hrem' := hrem.touches hs
  have hcurr : (s₁.users.users e.user).currIP = sip := by
    rw [husers]
    exact (hok.authorized (.inl hphase)).2
  have hl : s₁.users.loginIndex (s₁.users.users e.user).login = some e.user := by
    rw [husers, hs.consistent.login_eq _ _ hok.found, hok.found]
  obtain ⟨htouch, hgone, -⟩ := touches_unauthorize hrem'.consistent hrem'.indexed hl hcurr hun
  exact ⟨hrem'.trans htouch, hgone⟩

/-- The timer concerns one address and the user of its session. -/
theorem Timed.touches (hs : s.Sound) (hsession : s.session sip = some e)
    (h : Timed io sip s s') : Touches s s' sip e.user := by
  have hrefl := Touches.refl hs.consistent hs.indexed sip e.user
  cases h with
  | unchanged _ => exact hrefl
  | abandoned e₁ _ _ _ => exact hrefl.close
  | alive e₁ e₁' s₁ hsome _ hrem _ =>
    obtain rfl := Option.some.inj (hsession.symm.trans hsome)
    exact hrem.touches hs
  | expired e₁ e₁' s₁ s₂ hsome hphase hrem _ hun =>
    obtain rfl := Option.some.inj (hsession.symm.trans hsome)
    exact (unauthorize_expired hs hsome hphase hrem hun).1.close
  | back e₁ _ _ _ => exact hrefl.put _

/-- **The timer keeps the invariant.** -/
theorem Timed.sound (hs : s.Sound) (h : Timed io sip s s') : s'.Sound := by
  cases h with
  | unchanged _ => exact hs
  | abandoned e _ _ _ => exact hs.close (.refl hs.consistent hs.indexed sip e.user)
  | alive e e' s₁ hsome hphase hrem _ => exact (hrem.sound hs hsome hphase).1
  | expired e e' s₁ s₂ hsome hphase hrem _ hun =>
    exact hs.close (unauthorize_expired hs hsome hphase hrem hun).1
  | back e hsome hphase _ =>
    have hrefl := Touches.refl hs.consistent hs.indexed sip e.user
    have hok := hs.sessions sip e hsome
    refine hs.touch (hrefl.put _) (fun e' he' => ?_) (fun t ht => ?_)
    · rw [session_put_self] at he'
      obtain rfl := Option.some.inj he'
      exact ⟨hok.found, hok.ctx, fun _ => hok.authorized (.inr hphase), by simp, by simp, by simp⟩
    · obtain ⟨e', he', hone, -⟩ := hs.opened sip t ht
      obtain rfl := Option.some.inj (hsome.symm.trans he')
      rw [hphase] at hone
      cases hone

end Timer

/-! ## Steps -/

/-- **The rule for `Timeouter`.** What the timer keeps at each address is kept by `Timeouter`. -/
theorem timeouter_invariant {I : AuthIa → Prop} {io : IaEnv}
    (hI : ∀ s sip s', I s → Timed io sip s s' → I s') {s s' : AuthIa} (h0 : I s)
    (h : s.timeouter io = some s') : I s' := by
  have key : ∀ (keys : List IP) (s : AuthIa), I s → keys.foldlM (timeout io) s = some s' → I s' := by
    intro keys
    induction keys with
    | nil =>
      intro s hs h
      obtain rfl := Option.some.inj h
      exact hs
    | cons sip keys ih =>
      intro s hs h
      rw [List.foldlM_cons] at h
      obtain ⟨s₁, hs₁, hrest⟩ := Option.bind_eq_some_iff.1 h
      exact ih s₁ (hI s sip s₁ hs (timeout_cases hs₁)) hrest
  exact key _ s h0 h

/-- Sending an error does not concern the sessions. -/
theorem Sound.sendError {s : AuthIa} (hs : s.Sound) (sip : IP) (protoVer : ℤ) (text : String) :
    (s.sendError sip protoVer text).Sound := by
  have htouch := (Touches.refl hs.consistent hs.indexed sip 0).sendError protoVer text
  have hlast : (s.sendError sip protoVer text).last sip = s.last sip := by
    rw [last, last, sessionLog_sendError]
  refine hs.touch htouch (fun e he => ?_) (fun t ht => ?_)
  · rw [session_sendError] at he
    have hok := hs.sessions sip e he
    refine ⟨?_, hok.ctx, ?_, ?_, ?_, ?_⟩
    · rw [users_sendError]; exact hok.found
    · rw [users_sendError]; exact hok.authorized
    · rw [hlast]; exact hok.one
    · rw [hlast]; exact hok.two
    · rw [hlast]; exact hok.four
  · rw [hlast] at ht
    rw [session_sendError]
    exact hs.opened sip t ht

/-- **A datagram keeps the invariant.** -/
theorem recvData_sound {s s' : AuthIa} {io : IaEnv} {src : IP} {sport : BitVec 16}
    {datagram buffer buffer' : List Byte} (hs : s.Sound)
    (h : s.recvData io src sport datagram buffer = some (s', buffer')) : s'.Sound := by
  rcases recvData_cases h with
    (hquiet | ⟨v, text, hquiet⟩) | ⟨protoVer, user, e, s₁, plain, hadm, hent, -, hhandled⟩
  · exact hquiet ▸ hs
  · exact hquiet ▸ hs.sendError src v text
  · have hready := hent.ready hs hadm.login
    exact hhandled.sound hready.sound hready.session hready.user_eq

end AuthIa

namespace IaRun

open AuthIa

/-- Every step keeps the invariant. -/
theorem step_sound {s s' : IaRun} {a : IaAction} (hs : s.ia.Sound) (h : s.step a = some s') :
    s'.ia.Sound := by
  cases a with
  | datagram io src sport data =>
    obtain ⟨⟨ia', buffer'⟩, hr, rfl⟩ := Option.map_eq_some_iff.1 h
    exact recvData_sound hs hr
  | tick io =>
    obtain ⟨ia', hr, rfl⟩ := Option.map_eq_some_iff.1 h
    exact timeouter_invariant (fun s sip s' hs h => h.sound hs) hs hr

/-- **The invariant of the sessions** holds in every run. -/
theorem sound_of_runs {guard : IaRun → IaAction → Prop} {s t : IaRun} {as : List IaAction}
    (h0 : s.ia.Initial) (h : Transition.Reaches step guard s as t) : t.ia.Sound :=
  h.invariant (I := fun s => s.ia.Sound) (fun _ _ _ hs _ hstep => step_sound hs hstep) h0.sound

end IaRun

end Stargazer
