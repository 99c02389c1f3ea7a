import Stargazer.InetAccess.Challenge

set_option relaxedAutoImplicit false
set_option autoImplicit false

/-!
# One client among others

What happens to the client at one address is compared with what would happen to it if no other
client sent anything.  A datagram or a tick does the same in both cases as long as the two
authorizers are *alike* for the address: they have the same session there and the same user, and the
same directions while the session waits for a `CONN_ACK`.

## Main definitions

* `Stargazer.AuthIa.Complete` — a datagram that brings all that is read of it.
* `Stargazer.AuthIa.Alike` — two authorizers that are the same for one user at one address.
* `Stargazer.AuthIa.Alone` — one of them has no other sessions.

## Main results

* `Stargazer.AuthIa.Alike.recvData`, `Stargazer.AuthIa.Alike.timeout` — a datagram of the client and
  the timer do the same in both.
* `Stargazer.AuthIa.Alone.recvData_of_ne` — a datagram of another client makes no difference.
* `Stargazer.AuthIa.Alone.timeouter` — `Timeouter` does the same for the client alone.
-/

namespace Stargazer

/-- A datagram with a right header and the login of a user. -/
structure UsersImpl.SentBy (s : UsersImpl) (data : List Byte) (user : UserId) : Prop where
  /-- The header is right. -/
  header : checkHeader data ≠ none
  /-- The login is that of the user. -/
  login : s.loginIndex (readLogin data) = some user

namespace AuthIa

/-- The directions of a packet matter only if it is a `CONN_SYN` of version 8. -/
theorem dispatch_congr {io : IaEnv} {sip : IP} {protoVer : ℤ} {user : UserId} {e : IaUser}
    {pkt pkt' : IaPacket} (htype : pkt'.type = pkt.type) (hrnd : pkt'.rnd = pkt.rnd)
    (hdirs : pkt.type = some .connSyn → protoVer = 8 → pkt'.dirs = pkt.dirs) (s : AuthIa) :
    s.dispatch io sip protoVer user e pkt' = s.dispatch io sip protoVer user e pkt := by
  by_cases hconn : pkt.type = some .connSyn ∧ protoVer = 8
  · have hpkt : pkt' = pkt := IaPacket.ext htype hrnd (hdirs hconn.1 hconn.2)
    rw [hpkt]
  · unfold dispatch
    rw [htype]
    cases ht : pkt.type with
    | none => rfl
    | some type =>
      cases type with
      | connSyn =>
        have hver : protoVer ≠ 8 := fun hc => hconn ⟨ht, hc⟩
        simp only [AuthIa.connSyn, if_neg hver]
      | disconnAck =>
        have hack : processDisconnAck e pkt' = processDisconnAck e pkt := by
          rw [processDisconnAck, hrnd, processDisconnAck]
        simp only [AuthIa.disconnAck, hack]
      | _ => simp only [AuthIa.connAck, processConnAck, processAliveAck, hrnd]

/-- A datagram brings all that is read of it: a login, if its header is right in some array; if it
is admitted, the name and `rnd` of a packet; and if this is a `CONN_SYN` of version 8, `dirs`. -/
structure Complete (s : AuthIa) (io : IaEnv) (sip : IP) (data buffer : List Byte) : Prop where
  /-- The header and the login. -/
  login : data ≠ [] → (∃ b, checkHeader (receive data b) ≠ none) → iaOffset ≤ data.length
  /-- The name and `rnd`. -/
  packet : ∀ protoVer user, s.Admitted io sip data buffer protoVer user → 64 ≤ data.length
  /-- The directions. -/
  dirs : ∀ protoVer user, s.Admitted io sip data buffer protoVer user →
    (ownPacket (contextOf (io.password user)) data).type = some .connSyn → protoVer = 8 →
    96 ≤ data.length

/-- Two authorizers that are the same for one user at one address. -/
structure Alike (x y : AuthIa) (sip : IP) (user : UserId) : Prop where
  /-- The servers are the same for the user. -/
  users : x.users.SameFor y.users user sip
  /-- The settings are the same. -/
  settings : y.settings = x.settings
  /-- The session is the same. -/
  session : y.session sip = x.session sip
  /-- What happened in it is the same. -/
  sessionLog : y.sessionLog sip = x.sessionLog sip
  /-- While a `CONN_ACK` is awaited the directions are the same. -/
  enabledDirs : ∀ e, x.session sip = some e → e.phase = .two → y.enabledDirs = x.enabledDirs

namespace Alike

variable {x y x' : AuthIa} {sip : IP} {user : UserId} {e : IaUser} {io : IaEnv} {pkt : IaPacket}
  {protoVer : ℤ}

/-! ## The parts of a step -/

theorem put (h : Alike x y sip user) (hdirs : e.phase = .two → y.enabledDirs = x.enabledDirs) :
    Alike (x.put sip e) (y.put sip e) sip user where
  users := h.users
  settings := h.settings
  session := by rw [session_put_self, session_put_self]
  sessionLog := h.sessionLog
  enabledDirs e' he' hphase := by
    rw [session_put_self] at he'
    obtain rfl := Option.some.inj he'
    exact hdirs hphase

theorem emit (h : Alike x y sip user) (ev : IaEvent) : Alike (x.emit ev) (y.emit ev) sip user where
  users := h.users
  settings := h.settings
  session := h.session
  sessionLog := by rw [sessionLog_emit, sessionLog_emit, h.sessionLog]
  enabledDirs := h.enabledDirs

theorem close (h : Alike x y sip user) : Alike (x.close sip) (y.close sip) sip user where
  users := h.users
  settings := h.settings
  session := by rw [session_close_self, session_close_self]
  sessionLog := (h.emit (.closed sip)).sessionLog
  enabledDirs e he := by
    rw [session_close_self] at he
    cases he

theorem sendError (h : Alike x y sip user) (protoVer : ℤ) (text : String) :
    Alike (x.sendError sip protoVer text) (y.sendError sip protoVer text) sip user := by
  unfold AuthIa.sendError
  split_ifs
  · exact h.emit _
  · exact h

theorem setDirs (h : Alike x y sip user) (dirs : BitVec 32) :
    Alike { x with enabledDirs := dirs } { y with enabledDirs := dirs } sip user :=
  ⟨h.users, h.settings, h.session, h.sessionLog, fun _ _ _ => rfl⟩

theorem setUsers (h : Alike x y sip user) {u v : UsersImpl} (huv : u.SameFor v user sip) :
    Alike { x with users := u } { y with users := v } sip user :=
  ⟨huv, h.settings, h.session, h.sessionLog, h.enabledDirs⟩

theorem unauthorize (h : Alike x y sip user) {login : String}
    (hl : x.users.loginIndex login = some user) (hun : x.unauthorize io sip login = some x') :
    ∃ y', y.unauthorize io sip login = some y' ∧ Alike x' y' sip user := by
  obtain ⟨out, hout, rfl⟩ := Option.map_eq_some_iff.1 hun
  obtain ⟨out', hout', hsame⟩ := h.users.unauthorize hl hout
  exact ⟨_, Option.map_eq_some_iff.2 ⟨out', hout', rfl⟩, (h.setUsers hsame).emit _⟩

theorem sendAliveSyn (h : Alike x y sip user) (huser : e.user = user) (hphase : e.phase ≠ .two)
    (hsend : x.sendAliveSyn io sip e = some x') :
    ∃ y', y.sendAliveSyn io sip e = some y' ∧ Alike x' y' sip user := by
  subst huser
  unfold AuthIa.sendAliveSyn at hsend ⊢
  rw [h.users.user, h.settings]
  split_ifs at hsend ⊢
  obtain rfl := Option.some.inj hsend
  refine ⟨_, rfl, (h.put ?_).emit _⟩
  exact fun hc => absurd hc hphase

/-! ## Packets -/

theorem connSyn (h : Alike x y sip user) :
    Alike (x.connSyn io sip protoVer e pkt) (y.connSyn io sip protoVer e pkt) sip user := by
  have hsame (dirs : BitVec 32) (f : IaUser) : Alike ({ x with enabledDirs := dirs }.put sip f)
      ({ y with enabledDirs := dirs }.put sip f) sip user := (h.setDirs dirs).put fun _ => rfl
  unfold AuthIa.connSyn
  by_cases hold : protoVer = 6 ∨ protoVer = 7
  · simp only [if_pos hold, processConnSyn6]
    split_ifs
    · exact ((hsame _ _).put fun _ => rfl).emit _
    · exact h
  · simp only [if_neg hold, processConnSyn8, processConnSyn6]
    split_ifs
    · exact (((hsame _ _).setDirs _).put fun _ => rfl).emit _
    · exact h.setDirs _
    · exact h

theorem connAck (h : Alike x y sip user) (hx : x.Sound) (hy : y.Sound)
    (he : x.session sip = some e) (huser : e.user = user)
    (hack : x.connAck io sip e pkt = some x') :
    ∃ y', y.connAck io sip e pkt = some y' ∧ Alike x' y' sip user := by
  have hl : x.users.loginIndex e.login = some user := huser ▸ (hx.sessions sip e he).found
  unfold AuthIa.connAck processConnAck at hack ⊢
  by_cases hok : e.phase = .two ∧ pkt.rnd = e.rnd + 1
  · simp only [if_pos hok] at hack ⊢
    have hdirs := h.enabledDirs e he hok.1
    cases hout : x.users.authorize io.env e.login sip x.enabledDirs iaAuth with
    | none => simp only [hout, Option.map_none, reduceCtorEq] at hack
    | some out =>
      obtain ⟨out', hout', hret, hsame⟩ := h.users.authorize hx.consistent hx.indexed hy.consistent
        hl hout
      simp only [hout, Option.map_some] at hack
      simp only [hdirs, hout', Option.map_some, hret]
      have hput : Alike { x.put sip { e with phaseTime := io.now, lastSendAlive := io.now } with
            users := out.users }
          { y.put sip { e with phaseTime := io.now, lastSendAlive := io.now } with
            users := out'.users } sip user := (h.put fun _ => hdirs).setUsers hsame
      cases hr : out.ret with
      | true =>
        simp only [hr, if_true] at hack ⊢
        refine sendAliveSyn ?_ huser (by simp) hack
        exact (hput.emit _).put fun hc => by cases hc
      | false =>
        simp only [hr, Bool.false_eq_true, if_false, Option.some.injEq] at hack ⊢
        subst hack
        exact ⟨_, rfl, (hput.emit _).close⟩
  · simp only [if_neg hok, Option.some.injEq] at hack ⊢
    subst hack
    exact ⟨y, rfl, h⟩

theorem disconnSyn (h : Alike x y sip user) :
    Alike (x.disconnSyn io sip e) (y.disconnSyn io sip e) sip user := by
  unfold AuthIa.disconnSyn processDisconnSyn
  by_cases hphase : e.phase ≠ .three
  · simp only [if_pos hphase]
    exact h
  · simp only [if_neg hphase]
    exact ((h.put fun hc => by cases hc).put fun hc => by cases hc).emit _

theorem disconnAck (h : Alike x y sip user) (hl : x.users.loginIndex e.login = some user)
    (hack : x.disconnAck io sip e pkt = some x') :
    ∃ y', y.disconnAck io sip e pkt = some y' ∧ Alike x' y' sip user := by
  unfold AuthIa.disconnAck sendFin at hack ⊢
  split_ifs at hack ⊢
  · obtain ⟨x₁, hx₁, rfl⟩ := Option.map_eq_some_iff.1 hack
    obtain ⟨y₁, hy₁, h₁⟩ := h.unauthorize hl hx₁
    exact ⟨_, Option.map_eq_some_iff.2 ⟨y₁, hy₁, rfl⟩, (h₁.emit _).close⟩
  · obtain rfl := Option.some.inj hack
    exact ⟨y, rfl, h⟩

/-- **A packet does the same** in two authorizers that are alike. -/
theorem dispatch (h : Alike x y sip user) (hx : x.Sound) (hy : y.Sound)
    (he : x.session sip = some e) (huser : e.user = user)
    (hd : x.dispatch io sip protoVer user e pkt = some x') :
    ∃ y', y.dispatch io sip protoVer user e pkt = some y' ∧ Alike x' y' sip user := by
  have hl : x.users.loginIndex e.login = some user := huser ▸ (hx.sessions sip e he).found
  have hclose (text : String) : Alike ((x.sendError sip protoVer text).close sip)
      ((y.sendError sip protoVer text).close sip) sip user := (h.sendError _ _).close
  unfold AuthIa.dispatch at hd ⊢
  rw [h.users.user]
  cases htype : pkt.type with
  | none =>
    simp only [htype, Option.some.injEq] at hd ⊢
    subst hd
    exact ⟨_, rfl, hclose _⟩
  | some type =>
    simp only [htype] at hd ⊢
    split_ifs at hd ⊢ with hother hver
    · obtain rfl := Option.some.inj hd
      exact ⟨_, rfl, hclose _⟩
    · cases type with
      | connSyn =>
        obtain rfl := Option.some.inj hd
        exact ⟨_, rfl, h.connSyn⟩
      | connAck => exact h.connAck hx hy he huser hd
      | aliveAck =>
        obtain rfl := Option.some.inj hd
        refine ⟨_, rfl, ?_⟩
        unfold processAliveAck
        split_ifs with hok
        · exact (h.put fun hc => by simp [hok.1] at hc).emit _
        · exact h
      | disconnSyn =>
        obtain rfl := Option.some.inj hd
        exact ⟨_, rfl, h.disconnSyn⟩
      | disconnAck => exact h.disconnAck hl hd
      | connSynAck | aliveSyn | disconnSynAck | fin | err =>
        obtain rfl := Option.some.inj hd
        exact ⟨_, rfl, h⟩
    · obtain rfl := Option.some.inj hd
      exact ⟨_, rfl, h⟩

/-! ## Datagrams -/

theorem findSession (h : Alike x y sip user) (io : IaEnv) (sport : BitVec 16) (protoVer : ℤ) :
    (y.findSession io sip sport protoVer user).2 = (x.findSession io sip sport protoVer user).2 ∧
      Alike (x.findSession io sip sport protoVer user).1
        (y.findSession io sip sport protoVer user).1 sip user := by
  have hlookup : y.ip2user.lookup sip = x.ip2user.lookup sip := h.session
  unfold AuthIa.findSession
  rw [hlookup, h.users.ipIndex, h.users.user]
  cases x.ip2user.lookup sip with
  | none =>
    dsimp only
    split_ifs
    · exact ⟨rfl, h.sendError _ _⟩
    · refine ⟨rfl, (h.put ?_).emit _⟩
      exact fun hc => by cases hc
  | some e =>
    dsimp only
    split_ifs
    · exact ⟨rfl, h.sendError _ _⟩
    · exact ⟨rfl, h⟩

/-- **A datagram that brings its own packet does the same**, whatever is left in the arrays. -/
theorem packetProcessor (h : Alike x y sip user) (hx : x.Sound) (hy : y.Sound) {login : String}
    (hl : x.users.loginIndex login = some user) {sport : BitVec 16} {data b b' : List Byte}
    (hlen : 64 ≤ data.length)
    (hdirs : (ownPacket (contextOf (io.password user)) data).type = some .connSyn → protoVer = 8 →
      96 ≤ data.length)
    (hp : x.packetProcessor io data.length sip sport protoVer user (receive data b) = some (x', b'))
    (c : List Byte) :
    ∃ y' c', y.packetProcessor io data.length sip sport protoVer user (receive data c) =
      some (y', c') ∧ Alike x' y' sip user := by
  obtain ⟨hfound, hsame⟩ := h.findSession io sport protoVer
  unfold AuthIa.packetProcessor at hp ⊢
  rcases x.findSession_cases io sip sport protoVer user with
    ⟨text, hfind⟩ | ⟨e, x₀, hfind, hsession, hent⟩
  · rcases hy₀ : y.findSession io sip sport protoVer user with ⟨y₀, found⟩
    simp only [hfind, hy₀] at hfound hsame hp ⊢
    obtain ⟨rfl, -⟩ := Prod.mk.inj (Option.some.inj hp)
    simp only [hfound]
    exact ⟨_, _, rfl, hsame⟩
  · rcases y.findSession_cases io sip sport protoVer user with
      ⟨text, hfind'⟩ | ⟨e', y₀, hfind', -, hent'⟩
    · simp only [hfind, hfind', reduceCtorEq] at hfound
    · simp only [hfind, hfind', Option.some.injEq] at hfound hsame hp ⊢
      subst hfound
      have hready := hent.ready hx hl
      have hready' := hent'.ready hy (h.users.loginIndex ▸ hl)
      have hput : Alike (x₀.put sip (e'.renew (io.password user)))
          (y₀.put sip (e'.renew (io.password user))) sip user := by
        refine hsame.put fun hphase => hsame.enabledDirs e' hsession ?_
        obtain ⟨ctx, pass, heq⟩ := renew_eq (io.password user) e'
        rw [heq] at hphase
        exact hphase
      have hlen' : iaOffset ≤ data.length := le_trans (by decide) hlen
      obtain ⟨plain, hplain⟩ := exists_decryptPayload (contextOf (io.password user)) hlen'
        (receive data b)
      obtain ⟨plain', hplain'⟩ := exists_decryptPayload (contextOf (io.password user)) hlen'
        (receive data c)
      simp only [hready.ctx, hplain] at hp
      simp only [hready.ctx, hplain']
      obtain ⟨x₁, hx₁, heq⟩ := Option.map_eq_some_iff.1 hp
      obtain ⟨rfl, -⟩ := Prod.mk.inj heq
      obtain ⟨y', hy', hres⟩ := hput.dispatch hready.sound hready'.sound hready.session
        hready.user_eq hx₁
      refine ⟨y', plain', Option.map_eq_some_iff.2 ⟨y', ?_, rfl⟩, hres⟩
      -- what is read in the two arrays
      obtain ⟨htype, hrnd⟩ := readPacket_eq_ownPacket hplain hlen
      obtain ⟨htype', hrnd'⟩ := readPacket_eq_ownPacket hplain' hlen
      rw [← hy']
      refine dispatch_congr (htype'.trans htype.symm) (hrnd'.trans hrnd.symm) (fun hconn hver => ?_) _
      have hlong := hdirs (htype ▸ hconn) hver
      rw [readPacket_eq_ownPacket_of_le hplain hlong, readPacket_eq_ownPacket_of_le hplain' hlong]

/-- **A datagram that brings all that is read of it does the same**, whatever is left in the
arrays. -/
theorem recvData (h : Alike x y sip user) (hx : x.Sound) (hy : y.Sound) {sport : BitVec 16}
    {datagram b b' : List Byte} (hcomplete : x.Complete io sip (datagram.take iaBufferSize) b)
    (hown : ∀ user', x.users.SentBy (datagram.take iaBufferSize) user' → user' = user)
    (hr : x.recvData io sip sport datagram b = some (x', b')) (c : List Byte) :
    ∃ y' c', y.recvData io sip sport datagram c = some (y', c') ∧ Alike x' y' sip user := by
  unfold AuthIa.recvData at hr ⊢
  generalize datagram.take iaBufferSize = data at hcomplete hown hr ⊢
  dsimp only at hr ⊢
  split_ifs at hr ⊢ with hzero hlong
  · obtain ⟨rfl, -⟩ := Prod.mk.inj (Option.some.inj hr)
    exact ⟨_, _, rfl, h⟩
  · obtain ⟨rfl, -⟩ := Prod.mk.inj (Option.some.inj hr)
    exact ⟨_, _, rfl, h⟩
  by_cases hright : ∃ b, checkHeader (receive data b) ≠ none
  swap
  · -- the header is wrong whatever is left in the array
    rw [not_exists] at hright
    simp only [not_not.1 (hright b)] at hr
    simp only [not_not.1 (hright c)]
    obtain ⟨rfl, -⟩ := Prod.mk.inj (Option.some.inj hr)
    exact ⟨_, _, rfl, h⟩
  have hoffset := hcomplete.login (fun hc => hzero (by rw [hc]; rfl)) hright
  have hhead : 8 ≤ data.length := le_trans (by decide) hoffset
  rw [checkHeader_receive hhead] at hr ⊢
  cases hheader : checkHeader data with
  | none =>
    simp only [hheader, Option.some.injEq, Prod.mk.injEq] at hr ⊢
    obtain ⟨rfl, -⟩ := hr
    exact ⟨_, _, ⟨rfl, rfl⟩, h⟩
  | some protoVer =>
    simp only [hheader, readLogin_receive hoffset, h.users.loginIndex] at hr ⊢
    cases hlogin : x.users.loginIndex (readLogin data) with
    | none =>
      simp only [hlogin, Option.some.injEq, Prod.mk.injEq] at hr ⊢
      obtain ⟨rfl, -⟩ := hr
      exact ⟨_, _, ⟨rfl, rfl⟩, h.sendError _ _⟩
    | some user' =>
      obtain rfl := hown user' ⟨by simp [hheader], hlogin⟩
      simp only [hlogin, h.users.user] at hr ⊢
      split_ifs at hr ⊢ with hdisabled hpassive hips
      · obtain ⟨rfl, -⟩ := Prod.mk.inj (Option.some.inj hr)
        exact ⟨_, _, rfl, h.sendError _ _⟩
      · obtain ⟨rfl, -⟩ := Prod.mk.inj (Option.some.inj hr)
        exact ⟨_, _, rfl, h.sendError _ _⟩
      · obtain ⟨rfl, -⟩ := Prod.mk.inj (Option.some.inj hr)
        exact ⟨_, _, rfl, h.sendError _ _⟩
      · have hadm : x.Admitted io sip data b protoVer user' :=
          ⟨hzero, not_lt.1 hlong, by rw [checkHeader_receive hhead, hheader],
            by rw [readLogin_receive hoffset, hlogin], not_not.1 hdisabled, not_not.1 hpassive,
            by simpa using hips⟩
        exact h.packetProcessor hx hy hlogin (hcomplete.packet _ _ hadm) (hcomplete.dirs _ _ hadm) hr
          c

/-! ## The timer -/

theorem timeoutAlive (h : Alike x y sip user) {e' : IaUser} (huser : e.user = user)
    (hphase : e.phase = .three) (ht : x.timeoutAlive io sip e = some (x', e')) :
    ∃ y', y.timeoutAlive io sip e = some (y', e') ∧ Alike x' y' sip user := by
  have hne : e.phase ≠ .two := by simp [hphase]
  unfold AuthIa.timeoutAlive at ht ⊢
  rw [h.settings]
  split_ifs at ht ⊢
  · obtain ⟨x₁, hx₁, heq⟩ := Option.map_eq_some_iff.1 ht
    obtain ⟨rfl, rfl⟩ := Prod.mk.inj heq
    obtain ⟨y₁, hy₁, h₁⟩ := h.sendAliveSyn huser hne hx₁
    refine ⟨_, Option.map_eq_some_iff.2 ⟨y₁, hy₁, rfl⟩, h₁.put ?_⟩
    exact fun hc => absurd hc hne
  · obtain ⟨rfl, rfl⟩ := Prod.mk.inj (Option.some.inj ht)
    refine ⟨_, rfl, h.put ?_⟩
    exact fun hc => absurd hc hne
  · obtain ⟨rfl, rfl⟩ := Prod.mk.inj (Option.some.inj ht)
    exact ⟨_, rfl, h⟩

/-- **The timer does the same** in two authorizers that are alike. -/
theorem timeout (h : Alike x y sip user) (hx : x.Sound)
    (hown : ∀ e, x.session sip = some e → e.user = user) (ht : x.timeout io sip = some x') :
    ∃ y', y.timeout io sip = some y' ∧ Alike x' y' sip user := by
  have hlookup : y.ip2user.lookup sip = x.ip2user.lookup sip := h.session
  unfold AuthIa.timeout at ht ⊢
  rw [hlookup, h.settings]
  cases hsession : x.ip2user.lookup sip with
  | none =>
    simp only [hsession, Option.some.injEq] at ht ⊢
    subst ht
    exact ⟨y, rfl, h⟩
  | some e =>
    have huser := hown e hsession
    cases hphase : e.phase with
    | one =>
      simp only [hsession, hphase, Option.some.injEq] at ht ⊢
      subst ht
      exact ⟨y, rfl, h⟩
    | two =>
      simp only [hsession, hphase] at ht ⊢
      split_ifs at ht ⊢
      · obtain rfl := Option.some.inj ht
        exact ⟨_, rfl, h.close⟩
      · obtain rfl := Option.some.inj ht
        exact ⟨_, rfl, h⟩
    | three =>
      cases hrem : x.timeoutAlive io sip e with
      | none => simp only [hsession, hphase, hrem, reduceCtorEq] at ht
      | some r =>
        obtain ⟨x₁, e'⟩ := r
        obtain ⟨y₁, hrem', h₁⟩ := h.timeoutAlive huser hphase hrem
        obtain ⟨huser', -, -, husers⟩ := (timeoutAlive_cases hrem).frame
        simp only [hsession, hphase, hrem] at ht
        simp only [hphase, hrem', h₁.settings]
        split_ifs at ht ⊢
        · obtain ⟨x₂, hx₂, rfl⟩ := Option.map_eq_some_iff.1 ht
          rw [huser', huser] at hx₂ ⊢
          rw [h₁.users.user]
          have hl : x₁.users.loginIndex (x₁.users.users user).login = some user := by
            have hok := hx.sessions sip e hsession
            rw [husers, ← huser, hx.consistent.login_eq _ _ hok.found, hok.found]
          obtain ⟨y₂, hy₂, h₂⟩ := h₁.unauthorize hl hx₂
          exact ⟨_, Option.map_eq_some_iff.2 ⟨y₂, hy₂, rfl⟩, h₂.close⟩
        · obtain rfl := Option.some.inj ht
          exact ⟨_, rfl, h₁⟩
    | four =>
      simp only [hsession, hphase] at ht ⊢
      split_ifs at ht ⊢
      · obtain rfl := Option.some.inj ht
        refine ⟨_, rfl, h.put ?_⟩
        exact fun hc => by cases hc
      · obtain rfl := Option.some.inj ht
        exact ⟨_, rfl, h⟩

/-! ## Other clients -/

/-- **What concerns another user at another address makes no difference**, if the directions do not
change while a `CONN_ACK` is awaited. -/
theorem touches {sip' : IP} {user' : UserId} (h : Alike x y sip user)
    (htouch : Touches x x' sip' user') (hsip : sip ≠ sip') (huser : user ≠ user')
    (hdirs : ∀ e, x.session sip = some e → e.phase = .two → x'.enabledDirs = x.enabledDirs) :
    Alike x' y sip user where
  users := h.users.frame huser hsip htouch.users
  settings := h.settings.trans htouch.settings.symm
  session := h.session.trans (htouch.session sip hsip).symm
  sessionLog := h.sessionLog.trans (htouch.sessionLog sip hsip).symm
  enabledDirs e he hphase := by
    rw [htouch.session sip hsip] at he
    rw [hdirs e he hphase]
    exact h.enabledDirs e he hphase

/-- An error that is sent makes no difference. -/
theorem sendError_left (h : Alike x y sip user) (sip' : IP) (protoVer : ℤ) (text : String) :
    Alike (x.sendError sip' protoVer text) y sip user where
  users := by rw [users_sendError]; exact h.users
  settings := by
    unfold AuthIa.sendError
    split_ifs <;> exact h.settings
  session := by rw [session_sendError]; exact h.session
  sessionLog := by rw [sessionLog_sendError]; exact h.sessionLog
  enabledDirs := by
    unfold AuthIa.sendError
    split_ifs <;> exact h.enabledDirs

end Alike

/-! ## One client alone -/

section Datagram

variable {io : IaEnv} {sip : IP} {protoVer : ℤ} {user : UserId} {e : IaUser} {pkt : IaPacket}
  {s s' : AuthIa}

/-- The session after a packet has the same user. -/
theorem Handled.user_of_session (hsession : s.session sip = some e)
    (h : Handled io sip protoVer user e pkt s s') {e' : IaUser} (he' : s'.session sip = some e') :
    e'.user = e.user := by
  cases h with
  | ignored _ | rejected _ _ _ _ =>
    obtain rfl := Option.some.inj (hsession.symm.trans he')
    rfl
  | unknown _ _ | elsewhere _ _ _ | refused _ _ _ _ _ _ _ | disconnAck _ _ _ _ _ =>
    rw [session_close_self] at he'
    cases he'
  | connSyn _ _ _ _ | authorized _ _ _ _ _ _ _ | aliveAck _ _ _ | disconnSyn _ _ =>
    rw [session_emit, session_put_self] at he'
    obtain rfl := Option.some.inj he'
    rfl

/-- **What a datagram does to the sessions**: those at other addresses are the same, and the one at
its address belongs to the user of the datagram if it is new. -/
theorem recvData_session {src : IP} {sport : BitVec 16} {datagram buffer buffer' : List Byte}
    (hs : s.Sound) (h : s.recvData io src sport datagram buffer = some (s', buffer')) :
    (∀ sip', sip' ≠ src → s'.session sip' = s.session sip') ∧
    ∀ e', s'.session src = some e' → s.session src = some e' ∨
      ∃ protoVer, s.Admitted io src (datagram.take iaBufferSize) buffer protoVer e'.user := by
  rcases recvData_cases h with
    (rfl | ⟨v, text, rfl⟩) | ⟨protoVer, user, e, s₁, plain, hadm, hent, -, hhandled⟩
  · exact ⟨fun _ _ => rfl, fun _ => .inl⟩
  · simp only [session_sendError]
    exact ⟨fun _ _ => trivial, fun _ => .inl⟩
  · have hready := hent.ready hs hadm.login
    have htouch := hready.handled hhandled
    refine ⟨htouch.session, fun e' he' => .inr ⟨protoVer, ?_⟩⟩
    rw [hhandled.user_of_session hready.session he', hready.user_eq]
    exact hadm

/-- A datagram that brings all that is read of it is admitted for the user who sends it. -/
theorem Complete.sentBy {data buffer : List Byte} (hcomplete : s.Complete io sip data buffer)
    (hadm : s.Admitted io sip data buffer protoVer user) : s.users.SentBy data user := by
  have hlen := hcomplete.packet _ _ hadm
  constructor
  · rw [← checkHeader_receive (le_trans (by decide) hlen) buffer, hadm.header]
    simp
  · rw [← readLogin_receive (le_trans (by decide) hlen) buffer]
    exact hadm.login

end Datagram

section Timer

variable {io : IaEnv} {sip : IP} {s s' : AuthIa}

/-- The timer concerns a session or does nothing. -/
theorem Timed.touches_of_ne (hs : s.Sound) (h : Timed io sip s s') :
    s' = s ∨ ∃ e, s.session sip = some e ∧ Touches s s' sip e.user := by
  cases hsession : s.session sip with
  | some e => exact .inr ⟨e, rfl, h.touches hs hsession⟩
  | none =>
    cases h with
    | unchanged _ => exact .inl rfl
    | abandoned e hsome _ _ | alive e _ _ hsome _ _ _ | expired e _ _ _ hsome _ _ _ _
    | back e hsome _ _ =>
      rw [hsession] at hsome
      cases hsome

/-- A session the timer leaves was there, with the same user. -/
theorem Timed.user_of_session (h : Timed io sip s s') {e' : IaUser}
    (he' : s'.session sip = some e') : ∃ e, s.session sip = some e ∧ e.user = e'.user := by
  cases h with
  | unchanged _ => exact ⟨e', he', rfl⟩
  | abandoned e _ _ _ | expired e _ _ _ _ _ _ _ _ =>
    rw [session_close_self] at he'
    cases he'
  | alive e e₁ s₁ hsome _ hrem _ =>
    refine ⟨e, hsome, ?_⟩
    cases hrem with
    | early =>
      obtain rfl := Option.some.inj (hsome.symm.trans he')
      rfl
    | sent | silent =>
      simp only [session_emit, session_put_self, Option.some.injEq] at he'
      subst he'
      rfl
  | back e hsome _ _ =>
    rw [session_put_self] at he'
    obtain rfl := Option.some.inj he'
    exact ⟨e, hsome, rfl⟩

/-- The timer leaves the directions alone. -/
theorem Timed.enabledDirs (h : Timed io sip s s') : s'.enabledDirs = s.enabledDirs := by
  have hrem {e e' : IaUser} {s₁ : AuthIa} (h : Reminded io sip e s e' s₁) :
      s₁.enabledDirs = s.enabledDirs := by
    cases h <;> rfl
  cases h with
  | unchanged _ | abandoned e _ _ _ | back e _ _ _ => rfl
  | alive e e' s₁ _ _ h _ => exact hrem h
  | expired e e' s₁ s₂ _ _ h _ hun =>
    have hdirs := hrem h
    obtain ⟨out, -, rfl⟩ := Option.map_eq_some_iff.1 hun
    exact hdirs

end Timer

/-- An authorizer, and one that is alike for a user at an address and has no other sessions. -/
structure Alone (x y : AuthIa) (sip : IP) (user : UserId) : Prop where
  /-- The invariant of the sessions. -/
  left : x.Sound
  /-- The invariant of the sessions. -/
  right : y.Sound
  /-- They are alike. -/
  alike : Alike x y sip user
  /-- The user has its sessions at the address, and nobody else has. -/
  own : ∀ sip' e, x.session sip' = some e → (e.user = user ↔ sip' = sip)
  /-- There are no other sessions. -/
  alone : ∀ sip', sip' ≠ sip → y.session sip' = none

namespace Alone

variable {x y x' : AuthIa} {sip : IP} {user : UserId} {io : IaEnv}

/-- The timer at another address makes no difference. -/
theorem timeout_of_ne (h : Alone x y sip user) {sip' : IP} (hne : sip' ≠ sip)
    (ht : x.timeout io sip' = some x') : Alone x' y sip user := by
  have htimed := timeout_cases ht
  rcases htimed.touches_of_ne h.left with rfl | ⟨e, he, htouch⟩
  · exact h
  have huser : user ≠ e.user := fun hc => hne ((h.own sip' e he).1 hc.symm)
  refine ⟨htimed.sound h.left, h.right, h.alike.touches htouch hne.symm huser fun _ _ _ =>
    htimed.enabledDirs, fun sip'' e' he' => ?_, h.alone⟩
  by_cases hsip : sip'' = sip'
  · subst hsip
    obtain ⟨e₀, he₀, huser₀⟩ := htimed.user_of_session he'
    rw [← huser₀]
    exact h.own sip'' e₀ he₀
  · rw [htouch.session sip'' hsip] at he'
    exact h.own sip'' e' he'

/-- The timer at the address does the same. -/
theorem timeout (h : Alone x y sip user) (ht : x.timeout io sip = some x') :
    ∃ y', y.timeout io sip = some y' ∧ Alone x' y' sip user := by
  obtain ⟨y', hy', halike⟩ := h.alike.timeout h.left (fun e he => (h.own sip e he).2 rfl) ht
  have htimed := timeout_cases ht
  have htimed' := timeout_cases hy'
  refine ⟨y', hy', htimed.sound h.left, htimed'.sound h.right, halike, fun sip' e he => ?_,
    fun sip' hne => ?_⟩
  · by_cases hsip : sip' = sip
    · subst hsip
      obtain ⟨e₀, he₀, huser₀⟩ := htimed.user_of_session he
      rw [← huser₀]
      exact h.own sip' e₀ he₀
    · rcases htimed.touches_of_ne h.left with rfl | ⟨e₀, -, htouch⟩
      · exact h.own sip' e he
      · rw [htouch.session sip' hsip] at he
        exact h.own sip' e he
  · rcases htimed'.touches_of_ne h.right with rfl | ⟨e₀, -, htouch⟩
    · exact h.alone sip' hne
    · rw [htouch.session sip' hne]
      exact h.alone sip' hne

/-- The timer at several addresses does what it does at the address.

**Proof sketch.** Induction on the list of addresses. -/
theorem timeouts {keys : List IP} (hnodup : keys.Nodup) (h : Alone x y sip user)
    (hfold : keys.foldlM (AuthIa.timeout io) x = some x') :
    (sip ∉ keys → Alone x' y sip user) ∧
      (sip ∈ keys → ∃ y', y.timeout io sip = some y' ∧ Alone x' y' sip user) := by
  induction keys generalizing x y with
  | nil =>
    obtain rfl := Option.some.inj hfold
    exact ⟨fun _ => h, by simp⟩
  | cons sip' keys ih =>
    obtain ⟨hmem, hnodup'⟩ := List.nodup_cons.1 hnodup
    rw [List.foldlM_cons] at hfold
    obtain ⟨x₁, hx₁, hrest⟩ := Option.bind_eq_some_iff.1 hfold
    by_cases hsip : sip' = sip
    · subst hsip
      obtain ⟨y₁, hy₁, h₁⟩ := h.timeout hx₁
      exact ⟨fun hc => absurd (List.mem_cons_self ..) hc, fun _ =>
        ⟨y₁, hy₁, (ih hnodup' h₁ hrest).1 hmem⟩⟩
    · obtain ⟨hout, hin⟩ := ih hnodup' (h.timeout_of_ne hsip hx₁) hrest
      refine ⟨fun hc => hout fun hmem' => hc (List.mem_cons_of_mem _ hmem'), fun hc => ?_⟩
      exact hin ((List.mem_cons.1 hc).resolve_left (Ne.symm hsip))

/-- If there are no other sessions, `Timeouter` does what the timer does at the address. -/
theorem timeouter_eq (halone : ∀ sip', sip' ≠ sip → y.session sip' = none) :
    y.timeouter io = y.timeout io sip := by
  have hkeys : ∀ sip' ∈ y.ip2user.keys, sip' = sip := fun sip' hmem => by
    by_contra hne
    exact AList.lookup_eq_none.1 (halone sip' hne) hmem
  cases hsession : y.ip2user.lookup sip with
  | none =>
    have hnil : y.ip2user.keys = [] := List.eq_nil_iff_forall_not_mem.2 fun sip' hmem =>
      AList.lookup_eq_none.1 hsession (hkeys sip' hmem ▸ hmem)
    rw [timeouter, hnil, AuthIa.timeout, hsession]
    rfl
  | some e =>
    have hmem : sip ∈ y.ip2user.keys := by
      by_contra hc
      have hnone : y.ip2user.lookup sip = none := AList.lookup_eq_none.2 hc
      rw [hsession] at hnone
      cases hnone
    have hone : y.ip2user.keys = [sip] :=
      List.perm_singleton.1 ((List.perm_ext_iff_of_nodup y.ip2user.keys_nodup
        (List.nodup_singleton sip)).2 fun sip' => by
          rw [List.mem_singleton]
          exact ⟨hkeys sip', fun h => h ▸ hmem⟩)
    have hsort : [sip].insertionSort (fun a b : IP => a.toNat ≤ b.toNat) = [sip] := rfl
    rw [timeouter, hone, hsort, List.foldlM_cons]
    exact bind_pure _

/-- **`Timeouter` does the same.** -/
theorem timeouter (h : Alone x y sip user) (ht : x.timeouter io = some x') :
    ∃ y', y.timeouter io = some y' ∧ Alone x' y' sip user := by
  rw [timeouter_eq h.alone]
  have hnodup : (x.ip2user.keys.insertionSort fun a b => a.toNat ≤ b.toNat).Nodup :=
    (List.perm_insertionSort _ _).nodup_iff.2 x.ip2user.keys_nodup
  obtain ⟨hout, hin⟩ := h.timeouts hnodup ht
  by_cases hmem : sip ∈ x.ip2user.keys
  · exact hin ((List.mem_insertionSort _).2 hmem)
  · have hnone : y.ip2user.lookup sip = none := h.alike.session.trans (AList.lookup_eq_none.2 hmem)
    refine ⟨y, ?_, hout fun hc => hmem ((List.mem_insertionSort _).1 hc)⟩
    rw [AuthIa.timeout, hnone]

/-- **A datagram of the client does the same.** -/
theorem recvData (h : Alone x y sip user) {sport : BitVec 16} {datagram b b' : List Byte}
    (hcomplete : x.Complete io sip (datagram.take iaBufferSize) b)
    (hown : ∀ user', x.users.SentBy (datagram.take iaBufferSize) user' → user' = user)
    (hr : x.recvData io sip sport datagram b = some (x', b')) (c : List Byte) :
    ∃ y' c', y.recvData io sip sport datagram c = some (y', c') ∧ Alone x' y' sip user := by
  obtain ⟨y', c', hy', halike⟩ := h.alike.recvData h.left h.right hcomplete hown hr c
  obtain ⟨hother, hself⟩ := recvData_session h.left hr
  refine ⟨y', c', hy', recvData_sound h.left hr, recvData_sound h.right hy', halike,
    fun sip' e he => ?_, fun sip' hne => ?_⟩
  · by_cases hsip : sip' = sip
    · subst hsip
      rcases hself e he with he | ⟨protoVer, hadm⟩
      · exact h.own sip' e he
      · simp only [hown _ (hcomplete.sentBy hadm)]
    · rw [hother sip' hsip] at he
      exact h.own sip' e he
  · rw [(recvData_session h.right hy').1 sip' hne]
    exact h.alone sip' hne

/-- **A datagram of another client makes no difference**, if the directions do not change while a
`CONN_ACK` of the client is awaited. -/
theorem recvData_of_ne (h : Alone x y sip user) {src : IP} (hne : src ≠ sip) {sport : BitVec 16}
    {datagram b b' : List Byte} (hcomplete : x.Complete io src (datagram.take iaBufferSize) b)
    (hother : ∀ user', x.users.SentBy (datagram.take iaBufferSize) user' → user' ≠ user)
    (hdirs : ∀ e, x.session sip = some e → e.phase = .two → x'.enabledDirs = x.enabledDirs)
    (hr : x.recvData io src sport datagram b = some (x', b')) : Alone x' y sip user := by
  obtain ⟨hothers, hself⟩ := recvData_session h.left hr
  refine ⟨recvData_sound h.left hr, h.right, ?_, fun sip' e he => ?_, h.alone⟩
  · rcases recvData_cases hr with
      (rfl | ⟨v, text, rfl⟩) | ⟨protoVer, user', e, s₁, plain, hadm, hent, -, hhandled⟩
    · exact h.alike
    · exact h.alike.sendError_left _ _ _
    · have hready := hent.ready h.left hadm.login
      have htouch := hready.handled hhandled
      have huser : user ≠ user' := (hother _ (hcomplete.sentBy hadm)).symm
      exact h.alike.touches htouch hne.symm huser hdirs
  · by_cases hsip : sip' = src
    · subst hsip
      rcases hself e he with he | ⟨protoVer, hadm⟩
      · exact h.own sip' e he
      · have huser := hother _ (hcomplete.sentBy hadm)
        exact ⟨fun hc => absurd hc huser, fun hc => absurd hc hne⟩
    · rw [hothers sip' hsip] at he
      exact h.own sip' e he

end Alone

end AuthIa

end Stargazer
