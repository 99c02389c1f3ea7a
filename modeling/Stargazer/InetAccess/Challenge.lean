import Stargazer.InetAccess.Client

set_option relaxedAutoImplicit false
set_option autoImplicit false

/-!
# Challenge and response

A user is authorized after the client has proved that it knows the password: it has decrypted the
nonce of a `CONN_SYN_ACK` and sent it back, plus one.  A disconnection works in the same way.  There
is one field for the nonce in a session, which every packet that is sent overwrites.

The packet is read from the array of the receiving thread.  If a datagram has less than 64 bytes, its
name or its `rnd` are those of an earlier datagram, perhaps of another user, decrypted under the
password of that one.

## Main definitions

* `Stargazer.IaRun.LongEnough` — the datagrams that bring their own name and `rnd`.
* `Stargazer.IaRun.Justified` — why an event may happen.

## Main results

* `Stargazer.IaRun.justified_of_reaches` — in runs of such datagrams, `Authorize` is called and `FIN`
  is sent only as a response to a challenge.
-/

namespace Stargazer

namespace AuthIa

/-- What the log says about a packet in a session. -/
def AnsweredBy (io : IaEnv) (sip : IP) (protoVer : ℤ) (e : IaUser) (pkt : IaPacket)
    (s s' : AuthIa) : IaEvent → Prop
  | .authorize sip' login dirs _ => sip' = sip ∧ login = e.login ∧ pkt.type = some .connAck ∧
      e.phase = .two ∧ pkt.rnd = e.rnd + 1 ∧ dirs = s.enabledDirs
  | .fin sip' => sip' = sip ∧ pkt.type = some .disconnAck ∧ e.phase = .four ∧ pkt.rnd = e.rnd + 1
  | .connSynAck sip' rnd dirs => sip' = sip ∧ pkt.type = some .connSyn ∧ rnd = io.random sip ∧
      dirs = requestedDirs protoVer pkt
  | .disconnSynAck sip' rnd => sip' = sip ∧ pkt.type = some .disconnSyn ∧ rnd = io.random sip ∧
      e.phase = .three ∧ ∃ e', s'.session sip = some e' ∧ e'.phase = .four
  | _ => True

/-- The events that may happen without a packet. -/
def Unasked : IaEvent → Prop
  | .authorize _ _ _ _ | .fin _ | .connSynAck _ _ _ | .disconnSynAck _ _ => False
  | _ => True

theorem log_sendError (s : AuthIa) (sip : IP) (protoVer : ℤ) (text : String) :
    ∃ new, (s.sendError sip protoVer text).log = new ++ s.log ∧
      ∀ ev ∈ new, ∃ t, ev = .error sip t := by
  unfold sendError
  split_ifs
  · exact ⟨[_], rfl, by simp⟩
  · exact ⟨[], rfl, by simp⟩

theorem log_unauthorize {s s' : AuthIa} {io : IaEnv} {sip : IP} {login : String}
    (h : s.unauthorize io sip login = some s') :
    s'.log = .unauthorize sip login :: s.log := by
  obtain ⟨out, -, rfl⟩ := Option.map_eq_some_iff.1 h
  rfl

/-- **What a packet writes to the log.** -/
theorem Handled.log {io : IaEnv} {sip : IP} {protoVer : ℤ} {user : UserId} {e : IaUser}
    {pkt : IaPacket} {s s' : AuthIa} (h : Handled io sip protoVer user e pkt s s') :
    ∃ new, s'.log = new ++ s.log ∧ ∀ ev ∈ new, AnsweredBy io sip protoVer e pkt s s' ev := by
  -- an unknown name and a user who is elsewhere
  have hclosed : ∀ text, ∃ new, ((s.sendError sip protoVer text).close sip).log = new ++ s.log ∧
      ∀ ev ∈ new, AnsweredBy io sip protoVer e pkt s
        ((s.sendError sip protoVer text).close sip) ev := by
    intro text
    obtain ⟨new, hnew, herr⟩ := log_sendError s sip protoVer text
    refine ⟨.closed sip :: new, congrArg _ hnew, fun ev hev => ?_⟩
    rcases List.mem_cons.1 hev with rfl | hev
    · trivial
    · obtain ⟨t, rfl⟩ := herr ev hev
      trivial
  cases h with
  | unknown text _ => exact hclosed text
  | elsewhere text _ _ => exact hclosed text
  | ignored _ => exact ⟨[], rfl, by simp⟩
  | rejected _ _ _ => exact ⟨[], rfl, by simp⟩
  | connSyn htype _ _ =>
    refine ⟨[_], rfl, fun ev hev => ?_⟩
    rw [List.mem_singleton.1 hev]
    exact ⟨rfl, htype, rfl, rfl⟩
  | authorized htype hphase hrnd _ out _ _ =>
    refine ⟨[_, _], rfl, fun ev hev => ?_⟩
    simp only [List.mem_cons, List.not_mem_nil, or_false] at hev
    rcases hev with rfl | rfl
    · trivial
    · exact ⟨rfl, rfl, htype, hphase, hrnd, rfl⟩
  | refused htype hphase hrnd _ out _ _ =>
    refine ⟨[_, _], rfl, fun ev hev => ?_⟩
    simp only [List.mem_cons, List.not_mem_nil, or_false] at hev
    rcases hev with rfl | rfl
    · trivial
    · exact ⟨rfl, rfl, htype, hphase, hrnd, rfl⟩
  | aliveAck _ _ _ =>
    refine ⟨[_], rfl, fun ev hev => ?_⟩
    rw [List.mem_singleton.1 hev]
    trivial
  | disconnSyn htype hphase =>
    refine ⟨[_], rfl, fun ev hev => ?_⟩
    rw [List.mem_singleton.1 hev]
    exact ⟨rfl, htype, rfl, hphase, _, session_put_self _ _ _, rfl⟩
  | disconnAck htype hphase hrnd s₁ hun =>
    refine ⟨[.closed sip, .fin sip, .unauthorize sip e.login], ?_, fun ev hev => ?_⟩
    · exact congrArg (IaEvent.closed sip :: IaEvent.fin sip :: ·) (log_unauthorize hun)
    · simp only [List.mem_cons, List.not_mem_nil, or_false] at hev
      rcases hev with rfl | rfl | rfl
      · trivial
      · exact ⟨rfl, htype, hphase, hrnd⟩
      · trivial

/-- What the timer writes to the log. -/
theorem Timed.log {io : IaEnv} {sip : IP} {s s' : AuthIa} (h : Timed io sip s s') :
    ∃ new, s'.log = new ++ s.log ∧ ∀ ev ∈ new, Unasked ev := by
  have hrem : ∀ {e e' : IaUser} {s₁ : AuthIa}, Reminded io sip e s e' s₁ →
      ∃ new, s₁.log = new ++ s.log ∧ ∀ ev ∈ new, Unasked ev := by
    intro e e' s₁ h
    cases h with
    | early => exact ⟨[], rfl, by simp⟩
    | sent => exact ⟨[_], rfl, by simp [Unasked]⟩
    | silent => exact ⟨[], rfl, by simp⟩
  cases h with
  | unchanged _ => exact ⟨[], rfl, by simp⟩
  | abandoned e _ _ _ => exact ⟨[.closed sip], rfl, by simp [Unasked]⟩
  | alive e e' s₁ _ _ h _ => exact hrem h
  | expired e e' s₁ s₂ _ _ h _ hun =>
    obtain ⟨new, hnew, hby⟩ := hrem h
    refine ⟨.closed sip :: .unauthorize sip (s₁.users.users e.user).login :: new, ?_,
      fun ev hev => ?_⟩
    · exact congrArg (IaEvent.closed sip :: ·) ((log_unauthorize hun).trans (congrArg _ hnew))
    · simp only [List.mem_cons] at hev
      rcases hev with rfl | rfl | hev
      · trivial
      · trivial
      · exact hby ev hev
  | back e _ _ _ => exact ⟨[], rfl, by simp⟩

/-- A session that is found in a later phase was there before, in the same phase and with the same
nonce. -/
theorem Entered.session_before {io : IaEnv} {sip : IP} {user : UserId} {s s₁ : AuthIa} {e : IaUser}
    (h : Entered io sip user s e s₁) (hphase : e.phase ≠ .one) :
    s₁.log = s.log ∧ ∃ e₀, s.session sip = some e₀ ∧ e₀.phase = e.phase ∧ e₀.rnd = e.rnd ∧
      e₀.login = e.login := by
  cases h with
  | opened _ _ _ _ _ hone _ _ _ => exact absurd hone hphase
  | found e₀ hsome _ =>
    obtain ⟨ctx, pass, heq⟩ := renew_eq (io.password user) e₀
    refine ⟨rfl, e₀, hsome, ?_, ?_, ?_⟩
    · rw [heq]
    · rw [heq]
    · rw [heq]

/-- What is written to the log when the session of a datagram is looked for. -/
theorem Entered.log {io : IaEnv} {sip : IP} {user : UserId} {s s₁ : AuthIa} {e : IaUser}
    (h : Entered io sip user s e s₁) : s₁.log = s.log ∨ s₁.log = .opened sip io.now :: s.log := by
  cases h with
  | opened _ _ _ _ _ _ _ _ _ => exact .inr rfl
  | found e₀ _ _ => exact .inl rfl

end AuthIa

namespace IaRun

open AuthIa

/-- The datagrams that are processed have at least 64 bytes, so that they bring their own name and
`rnd`. -/
def LongEnough (s : IaRun) : IaAction → Prop
  | .datagram io src _ data => ∀ protoVer user,
      s.ia.Admitted io src (data.take iaBufferSize) s.buffer protoVer user →
        64 ≤ (data.take iaBufferSize).length
  | .tick _ => True

/-- The step is a datagram from the address, for the user of the session there; and decrypted under
the current password of this user it is a packet with the property `P`. -/
def Carries (s : IaRun) (a : IaAction) (sip : IP) (P : IaEnv → ℤ → IaPacket → Prop) : Prop :=
  ∃ io sport data protoVer user, a = .datagram io sip sport data ∧
    s.ia.Admitted io sip (data.take iaBufferSize) s.buffer protoVer user ∧
    (∀ e, s.ia.session sip = some e → e.user = user) ∧
    P io protoVer (ownPacket (contextOf (io.password user)) (data.take iaBufferSize))

/-- Why an event may happen in a step.

* `Authorize` is called for a `CONN_ACK` that carries the nonce of a `CONN_SYN_ACK` plus one, and
  nothing has happened in the session since the `CONN_SYN_ACK`.
* `FIN` is sent for a `DISCONN_ACK` that carries the nonce of a `DISCONN_SYN_ACK` plus one, and
  nothing has happened in the session since the `DISCONN_SYN_ACK`.
* `CONN_SYN_ACK` is sent for a `CONN_SYN`.
* `DISCONN_SYN_ACK` is sent for a `DISCONN_SYN` that moves the session from phase 3 to phase 4. -/
def Justified (s : IaRun) (a : IaAction) (s' : IaRun) : IaEvent → Prop
  | .authorize sip login _ _ => ∃ r dirs, s.ia.last sip = some (.connSynAck sip r dirs) ∧
      (∃ e, s.ia.session sip = some e ∧ e.login = login) ∧
      s.Carries a sip fun _ _ pkt => pkt.type = some .connAck ∧ pkt.rnd = r + 1
  | .fin sip => ∃ r, s.ia.last sip = some (.disconnSynAck sip r) ∧
      s.Carries a sip fun _ _ pkt => pkt.type = some .disconnAck ∧ pkt.rnd = r + 1
  | .connSynAck sip rnd _ =>
      s.Carries a sip fun io _ pkt => pkt.type = some .connSyn ∧ rnd = io.random sip
  | .disconnSynAck sip rnd =>
      (s.Carries a sip fun io _ pkt => pkt.type = some .disconnSyn ∧ rnd = io.random sip) ∧
      (∃ e, s.ia.session sip = some e ∧ e.phase = .three) ∧
      ∃ e, s'.ia.session sip = some e ∧ e.phase = .four
  | _ => True

/-- The step is a datagram that is decrypted, for a session `e` of its user, to a packet with the
property `P`; `s₁` is the authorizer with this session. -/
def Decrypts (s : IaRun) (a : IaAction) (P : IaEnv → IP → ℤ → IaUser → IaPacket → AuthIa → Prop) :
    Prop :=
  ∃ io src sport data protoVer user e s₁ plain, a = .datagram io src sport data ∧
    s.ia.Admitted io src (data.take iaBufferSize) s.buffer protoVer user ∧
    Entered io src user s.ia e s₁ ∧
    decryptPayload (contextOf (io.password user)) (data.take iaBufferSize).length
      (receive (data.take iaBufferSize) s.buffer) = some plain ∧
    P io src protoVer e (readPacket (plain.drop iaOffset)) s₁

/-- **What a step writes to the log**: events that need no packet, or what the log says about the
packet of the step. -/
theorem step_log {s s' : IaRun} {a : IaAction} (hs : s.ia.Sound) (h : s.step a = some s') :
    ∃ new, s'.ia.log = new ++ s.ia.log ∧ ∀ ev ∈ new, Unasked ev ∨
      s.Decrypts a fun io src protoVer e pkt s₁ => AnsweredBy io src protoVer e pkt s₁ s'.ia ev := by
  cases a with
  | tick io =>
    obtain ⟨ia', hr, rfl⟩ := Option.map_eq_some_iff.1 h
    have hinv : ∃ new, ia'.log = new ++ s.ia.log ∧ ∀ ev ∈ new, Unasked ev := by
      refine timeouter_invariant (I := fun t => ∃ new, t.log = new ++ s.ia.log ∧
        ∀ ev ∈ new, Unasked ev) ?_ ⟨[], rfl, by simp⟩ hr
      rintro t sip t' ⟨new, hnew, hun⟩ htimed
      obtain ⟨new', hnew', hun'⟩ := htimed.log
      refine ⟨new' ++ new, by rw [hnew', hnew, List.append_assoc], fun ev hev => ?_⟩
      rcases List.mem_append.1 hev with hev | hev
      · exact hun' ev hev
      · exact hun ev hev
    obtain ⟨new, hnew, hun⟩ := hinv
    exact ⟨new, hnew, fun ev hev => .inl (hun ev hev)⟩
  | datagram io src sport data =>
    obtain ⟨⟨ia', buffer'⟩, hr, rfl⟩ := Option.map_eq_some_iff.1 h
    rcases recvData_cases hr with
      (hquiet | ⟨v, text, hquiet⟩) | ⟨protoVer, user, e, s₁, plain, hadm, hent, hplain, hhandled⟩
    · exact ⟨[], by rw [hquiet]; rfl, by simp⟩
    · obtain ⟨new, hnew, herr⟩ := log_sendError s.ia src v text
      refine ⟨new, by rw [hquiet]; exact hnew, fun ev hev => .inl ?_⟩
      obtain ⟨t, rfl⟩ := herr ev hev
      trivial
    · rw [(hent.ready hs hadm.login).ctx] at hplain
      obtain ⟨new, hnew, hans⟩ := hhandled.log
      have hdecrypts : ∀ ev ∈ new, s.Decrypts (.datagram io src sport data)
          fun io src protoVer e pkt s₁ => AnsweredBy io src protoVer e pkt s₁ ia' ev := fun ev hev =>
        ⟨io, src, sport, data, protoVer, user, e, s₁, plain, rfl, hadm, hent, hplain, hans ev hev⟩
      rcases hent.log with hlog | hlog
      · exact ⟨new, by rw [hnew, hlog], fun ev hev => .inr (hdecrypts ev hev)⟩
      · refine ⟨new ++ [.opened src io.now], by rw [hnew, hlog]; simp, fun ev hev => ?_⟩
        rcases List.mem_append.1 hev with hev | hev
        · exact .inr (hdecrypts ev hev)
        · rw [List.mem_singleton.1 hev]
          exact .inl trivial

theorem justified_of_unasked {s s' : IaRun} {a : IaAction} {ev : IaEvent} (h : Unasked ev) :
    s.Justified a s' ev := by
  cases ev with
  | authorize _ _ _ _ | fin _ | connSynAck _ _ _ | disconnSynAck _ _ => exact h.elim
  | opened _ _ | aliveSyn _ _ | aliveAck _ | unauthorize _ _ | closed _ | error _ _ => trivial

/-- What one step writes to the log is justified.

**Proof sketch.** A datagram that is long enough is read as it is.  In the second phase the last
event of the session is the `CONN_SYN_ACK` with its nonce, in the fourth phase the
`DISCONN_SYN_ACK`. -/
theorem step_justified {s s' : IaRun} {a : IaAction} (hs : s.ia.Sound) (hg : s.LongEnough a)
    (h : s.step a = some s') :
    ∃ new, s'.ia.log = new ++ s.ia.log ∧ ∀ ev ∈ new, s.Justified a s' ev := by
  obtain ⟨new, hnew, hlog⟩ := step_log hs h
  refine ⟨new, hnew, fun ev hev => ?_⟩
  rcases hlog ev hev with
    hun | ⟨io, src, sport, data, protoVer, user, e, s₁, plain, rfl, hadm, hent, hplain, h⟩
  · exact justified_of_unasked hun
  have hready := hent.ready hs hadm.login
  have hok := hready.sound.sessions src e hready.session
  obtain ⟨htype, hrnd⟩ := readPacket_eq_ownPacket hplain (hg protoVer user hadm)
  -- the last event of a session that is not in the first phase
  have hlast : e.phase ≠ .one → s₁.last src = s.ia.last src := fun hphase => by
    rw [last, last, sessionLog, sessionLog, (hent.session_before hphase).1]
  have hown : ∀ e₀, s.ia.session src = some e₀ → e₀.user = user := fun _ => hent.user_of_session
  cases ev with
  | authorize sip login dirs ret =>
    obtain ⟨rfl, rfl, ht, hphase, hr, -⟩ := h
    obtain ⟨dirs', hdirs'⟩ := hok.two hphase
    rw [hlast (by simp [hphase])] at hdirs'
    obtain ⟨-, e₀, he₀, -, -, hlogin⟩ := hent.session_before (by simp [hphase])
    exact ⟨e.rnd, dirs', hdirs', ⟨e₀, he₀, hlogin⟩, io, sport, data, protoVer, user, rfl, hadm,
      hown, htype ▸ ht, hrnd ▸ hr⟩
  | fin sip =>
    obtain ⟨rfl, ht, hphase, hr⟩ := h
    have hfour := hok.four hphase
    rw [hlast (by simp [hphase])] at hfour
    exact ⟨e.rnd, hfour, io, sport, data, protoVer, user, rfl, hadm, hown, htype ▸ ht, hrnd ▸ hr⟩
  | connSynAck sip rnd dirs =>
    obtain ⟨rfl, ht, hr, -⟩ := h
    exact ⟨io, sport, data, protoVer, user, rfl, hadm, hown, htype ▸ ht, hr⟩
  | disconnSynAck sip rnd =>
    obtain ⟨rfl, ht, hr, hphase, hafter⟩ := h
    obtain ⟨-, e₀, he₀, hphase₀, -⟩ := hent.session_before (by simp [hphase])
    exact ⟨⟨io, sport, data, protoVer, user, rfl, hadm, hown, htype ▸ ht, hr⟩,
      ⟨e₀, he₀, hphase₀.trans hphase⟩, hafter⟩
  | opened _ _ | aliveSyn _ _ | aliveAck _ | unauthorize _ _ | closed _ | error _ _ => trivial

/-- **Challenge and response.** In every run from an authorizer without sessions in which the
datagrams that are processed have at least 64 bytes, every step only adds justified events to the
log: `Authorize` is called and `FIN` is sent only as a response to a challenge. -/
theorem justified_of_reaches {s t t' : IaRun} {as : List IaAction} {a : IaAction}
    (h0 : s.ia.Initial) (h : Transition.Reaches step LongEnough s as t) (hg : t.LongEnough a)
    (hstep : t.step a = some t') :
    ∃ new, t'.ia.log = new ++ t.ia.log ∧ ∀ ev ∈ new, t.Justified a t' ev :=
  step_justified (sound_of_runs h0 h) hg hstep

theorem longEnough_iaSends (s : IaRun) (now : ℤ) (sip : IP) (first v8 : Bool) (type : PacketType)
    (dirs : BitVec 32) : s.LongEnough (Sample.iaSends now sip first v8 type dirs) := by
  intro _ _ _
  rw [List.length_take, ClientPacket.length_datagram]
  decide

/-- A client answers the challenge, and its user is authorized. -/
theorem justified_of_reaches_sample :
    ∃ t t', Transition.Reaches step LongEnough Sample.iaRun
      [Sample.iaSends 0 7 true false .connSyn 0] t ∧
      t.step (Sample.iaSends 1 7 true false .connAck 0) = some t' ∧
      t'.ia.log = [.aliveSyn 7 100, .authorize 7 "a" 0xFFFFFFFF true] ++ t.ia.log ∧
      ∃ new, t'.ia.log = new ++ t.ia.log ∧
        ∀ ev ∈ new, t.Justified (Sample.iaSends 1 7 true false .connAck 0) t' ev := by
  have h₁ := Sample.reaches_iaSends 0 7 true false .connSyn 0 (.nil Sample.iaRun)
    (longEnough_iaSends _ _ _ _ _ _ _) rfl ⟨rfl, rfl, rfl⟩ rfl
  have h₂ := Sample.step_iaSends 1 7 true false .connAck 0 h₁ rfl ⟨rfl, rfl, rfl⟩ rfl
  exact ⟨_, _, h₁, h₂, rfl, justified_of_reaches Sample.ia_initial h₁
    (longEnough_iaSends _ _ _ _ _ _ _) h₂⟩

/-- A datagram for the first user with nothing but a header and a login, after a datagram of another
user, does what the packet of this one would do in the session of the first user. -/
theorem step_iaHeader {s : IaRun} {s' : AuthIa} {type : PacketType} {buffer : List Byte}
    (hs : s.ia.Sound) (hbuffer : s.buffer = Sample.iaBuffer false false type 0 buffer)
    (hl : s.ia.users.loginIndex = Sample.users.loginIndex)
    (hadm : (s.ia.users.users 0).disabled = 0 ∧ (s.ia.users.users 0).passive = 0 ∧
      (s.ia.users.users 0).ips = UserIPs.any)
    (h : s.ia.exchange (Sample.iaEnv 2) 7 0 6 0 ⟨some type, 101, 0⟩ = some s') :
    ∃ buffer', s.step (.datagram (Sample.iaEnv 2) 7 0 (iaHeader 6 [97])) = some ⟨s', buffer'⟩ := by
  have hdrop : s.buffer.drop (iaOffset + 8 * 0) =
      (Sample.iaPacket false false type 0).text ++ buffer.drop (iaOffset + 8 * 7) := by
    rw [hbuffer]
    exact List.drop_left' (length_iaHeader _ (Sample.iaPacket false false type 0).login_le)
  have hread : readPacket ([] ++ s.buffer.drop (iaOffset + 8 * 0)) = ⟨some type, 101, 0⟩ := by
    rw [hdrop, List.nil_append, ClientPacket.readPacket_text]
    cases type <;> rfl
  have hlogin : s.ia.users.loginIndex (bytesText [97]) = some 0 := by
    rw [hl]
    decide +kernel
  have hdata : iaDatagram 6 [97] (contextOf ((Sample.iaEnv 2).password 0)) [] = iaHeader 6 [97] :=
    List.append_nil _
  rw [← hdata]
  refine ⟨_, step_iaDatagram (n := 0) hs hlogin hadm.1 hadm.2.1 ?_ (by decide) (by decide)
    (by decide) rfl (by decide) ?_⟩
  · rw [hadm.2.2]
    rfl
  · rw [hread]
    exact h

/-- The first user asks for a connection.  The second user sends the answer to the first user's
challenge, encrypted with its own password.  Then a datagram arrives for the first user that has
nothing but a header and a login: the first user is authorized. -/
theorem not_justified_sample :
    ∃ t t', Transition.Runs step Sample.iaRun
      [Sample.iaSends 0 7 true false .connSyn 0, Sample.iaSends 1 8 false false .connAck 0] t ∧
      t.step (.datagram (Sample.iaEnv 2) 7 0 (iaHeader 6 [97])) = some t' ∧
      t'.ia.log = [.aliveSyn 7 100, .authorize 7 "a" 0xFFFFFFFF true] ++ t.ia.log ∧
      ∀ ctx, (ownPacket ctx (iaHeader 6 [97])).type = none := by
  have h₁ := Sample.reaches_iaSends 0 7 true false .connSyn 0 Sample.runs_nil trivial
    rfl ⟨rfl, rfl, rfl⟩ rfl
  have h₂ := Sample.reaches_iaSends 1 8 false false .connAck 0 h₁ trivial rfl ⟨rfl, rfl, rfl⟩ rfl
  obtain ⟨buffer', h₃⟩ := step_iaHeader (sound_of_runs Sample.ia_initial h₂) rfl rfl
    ⟨rfl, rfl, rfl⟩ rfl
  refine ⟨_, _, h₂, h₃, rfl, fun ctx => ?_⟩
  have hown : ownPayload ctx (iaHeader 6 [97]) = [] := by
    rw [← List.length_eq_zero_iff, length_ownPayload, length_iaHeader 6 (by decide), Nat.sub_self]
  rw [ownPacket, hown]
  rfl

end IaRun

end Stargazer
