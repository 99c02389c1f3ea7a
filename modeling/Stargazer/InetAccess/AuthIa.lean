import Stargazer.InetAccess.Packets
import Stargazer.Users.UsersImpl
import Mathlib.Data.List.Sort

set_option relaxedAutoImplicit false
set_option autoImplicit false

/-!
# The InetAccess authorizer

`AUTH_IA` (`plugins/authorization/inetaccess/inetaccess.cpp`): one thread receives datagrams and
answers them, another one looks after the sessions every 20 milliseconds.  Both hold `m_mutex`
while they work on the sessions, so that a run is a sequence of datagrams and ticks.

What happens is recorded in a log: the packets sent with their nonces, the calls of `Authorize` and
`Unauthorize`, the beginning and the end of sessions.  No function reads it.

## Main definitions

* `Stargazer.IaUser` — a session, with its phase.
* `Stargazer.AuthIa` — the sessions, the directions, the users of the server.
* `Stargazer.AuthIa.recvData`, `Stargazer.AuthIa.packetProcessor` — a datagram.
* `Stargazer.AuthIa.timeouter` — a tick.
* `Stargazer.IaRun` — the authorizer with the array of its receiving thread, and its steps.
-/

namespace Stargazer

/-! ## Time -/

/-- `UTIME` (`include/stg/utime.h`). -/
structure UTime where
  /-- `tv_sec`. -/
  sec : ℤ
  /-- `tv_usec`. -/
  usec : ℤ

/-- `UTIME::operator-`. -/
def UTime.sub (l r : UTime) : UTime :=
  let a := l.sec - r.sec
  let b := l.usec - r.usec
  if 0 ≤ a then
    if 0 ≤ b then ⟨a, b⟩ else ⟨a - 1, b + 1000000⟩
  else
    if 0 ≤ b then ⟨a + 1, 1000000 - b⟩ else ⟨a, b⟩

/-- `UTIME::operator>`. -/
def UTime.gt (l r : UTime) : Bool :=
  if l.sec > r.sec then true
  else if l.sec < r.sec then false
  else decide (l.usec > r.usec)

/-- What `gettimeofday` stores. -/
structure Clock extends UTime where
  /-- The microseconds are not negative. -/
  usec_nonneg : 0 ≤ usec
  /-- They do not make a second. -/
  usec_lt : usec < 1000000

namespace Clock

/-- A full second. -/
def ofSec (sec : ℤ) : Clock := ⟨⟨sec, 0⟩, by simp, by simp⟩

/-- The microseconds since the epoch. -/
def micros (t : Clock) : ℤ := t.sec * 1000000 + t.usec

/-- The test of `Timeouter`: have more than `d` seconds passed since `t`? -/
def passed (now t : Clock) (d : ℕ) : Bool := (now.toUTime.sub t.toUTime).gt ⟨d, 0⟩

/-- **The test is right**, whatever the subtraction makes of a clock that was set back. -/
theorem passed_iff (now t : Clock) {d : ℕ} (hd : 0 < d) :
    now.passed t d = true ↔ (d : ℤ) * 1000000 < now.micros - t.micros := by
  obtain ⟨⟨s, u⟩, hu, hu'⟩ := now
  obtain ⟨⟨s', v⟩, hv, hv'⟩ := t
  simp only at hu hu' hv hv'
  simp only [passed, UTime.sub, UTime.gt, micros]
  split_ifs with h1 h2 h3 h4 h3 h4 h2 h3 h4 h3 h4 <;>
    simp only [decide_eq_true_eq, true_iff, false_iff, not_lt] <;> lia

end Clock

/-! ## Sessions -/

/-- `AUTH_IA` as an authorizer. -/
abbrev iaAuth : AuthId := 0

/-- `GetFreeMbShowType`: what is shown of the prepaid traffic. -/
inductive FreeMb
  /-- In the price of a direction. -/
  | dir (dir : Dir)
  /-- `freeMbCash`. -/
  | cash
  /-- `freeMbNone`. -/
  | none
  deriving DecidableEq

/-- `AUTH_IA_SETTINGS`, with the bounds `ParseSettings` checks. -/
structure IaSettings where
  /-- `userDelay`. -/
  userDelay : ℕ
  /-- `userTimeout`. -/
  userTimeout : ℕ
  /-- `freeMbShowType`. -/
  freeMbShowType : FreeMb
  /-- The bounds of `userDelay`. -/
  userDelay_mem : 5 ≤ userDelay ∧ userDelay ≤ 600
  /-- The bounds of `userTimeout`. -/
  userTimeout_mem : 15 ≤ userTimeout ∧ userTimeout ≤ 1200

/-- The phases of a session. -/
inductive Phase
  | one | two | three | four
  deriving DecidableEq

/-- `IA_USER`. -/
structure IaUser where
  /-- The login. -/
  login : String
  /-- The user. -/
  user : UserId
  /-- `phase.GetPhase()`. -/
  phase : Phase
  /-- `phase.GetTime()`. -/
  phaseTime : Clock
  /-- When the last `ALIVE_SYN` was sent. -/
  lastSendAlive : Clock
  /-- The nonce of the last packet sent. -/
  rnd : BitVec 32
  /-- The port of the client. -/
  port : BitVec 16
  /-- The context of the password. -/
  ctx : BlowfishCtx
  /-- The protocol version of the datagram that opened the session. -/
  protoVer : ℤ
  /-- The password. -/
  password : List Byte

/-- What the authorizer reads in a step from outside. -/
structure IaEnv where
  /-- The server. -/
  env : Env
  /-- `gettimeofday`. -/
  now : Clock
  /-- `GetProperties().password` of the users. -/
  password : UserId → List Byte
  /-- `random()` in the constructor of a session. -/
  randomNew : BitVec 32
  /-- `random()` for a packet that is sent to an address. -/
  random : IP → BitVec 32

/-- The context of a password. -/
def contextOf (password : List Byte) : BlowfishCtx :=
  Blowfish.init (Blowfish.strncpyKey password passwdLen)

/-- The constructor of `IA_USER`. -/
def IaUser.new (io : IaEnv) (login : String) (user : UserId) (port : BitVec 16) (protoVer : ℤ) :
    IaUser where
  login := login
  user := user
  phase := .one
  phaseTime := io.now
  lastSendAlive := .ofSec 0
  rnd := io.randomNew
  port := port
  ctx := contextOf (io.password user)
  protoVer := protoVer
  password := io.password user

/-- The password of the user has changed. -/
def IaUser.renew (password : List Byte) (e : IaUser) : IaUser :=
  if e.password ≠ password then
    { e with ctx := Blowfish.initContext password password.length, password := password }
  else e

/-- What is recorded of a run. -/
inductive IaEvent
  /-- A session was opened. -/
  | opened (sip : IP) (time : Clock)
  /-- `CONN_SYN_ACK` was sent for a `CONN_SYN` that asked for some directions. -/
  | connSynAck (sip : IP) (rnd dirs : BitVec 32)
  /-- `Authorize` was called. -/
  | authorize (sip : IP) (login : String) (dirs : BitVec 32) (ret : Bool)
  /-- `ALIVE_SYN` was sent. -/
  | aliveSyn (sip : IP) (rnd : BitVec 32)
  /-- An `ALIVE_ACK` was accepted. -/
  | aliveAck (sip : IP)
  /-- `DISCONN_SYN_ACK` was sent. -/
  | disconnSynAck (sip : IP) (rnd : BitVec 32)
  /-- `Unauthorize` was called. -/
  | unauthorize (sip : IP) (login : String)
  /-- `FIN` was sent. -/
  | fin (sip : IP)
  /-- A session was closed. -/
  | closed (sip : IP)
  /-- `ERR` was sent; this is no part of a session. -/
  | error (sip : IP) (text : String)

/-- The address of the session an event belongs to. -/
def IaEvent.session : IaEvent → Option IP
  | .opened sip _ | .connSynAck sip _ _ | .authorize sip _ _ _ | .aliveSyn sip _ | .aliveAck sip
  | .disconnSynAck sip _ | .unauthorize sip _ | .fin sip | .closed sip => some sip
  | .error _ _ => none

/-- `AUTH_IA`, with the users of the server and the log, the last event first. -/
structure AuthIa where
  /-- `iaSettings`. -/
  settings : IaSettings
  /-- `users`. -/
  users : UsersImpl
  /-- `ip2user`. -/
  ip2user : AList fun _ : IP => IaUser
  /-- `enabledDirs`. -/
  enabledDirs : BitVec 32
  /-- The log. -/
  log : List IaEvent

namespace AuthIa

/-- Record an event. -/
def emit (ev : IaEvent) (s : AuthIa) : AuthIa := { s with log := ev :: s.log }

/-- Store a session. -/
def put (sip : IP) (e : IaUser) (s : AuthIa) : AuthIa :=
  { s with ip2user := s.ip2user.insert sip e }

/-- `ip2user.erase`. -/
def close (sip : IP) (s : AuthIa) : AuthIa :=
  { s with ip2user := s.ip2user.erase sip }.emit (.closed sip)

/-- `AUTH_IA::SendError`. -/
def sendError (sip : IP) (protoVer : ℤ) (text : String) (s : AuthIa) : AuthIa :=
  if protoVer = 6 ∨ protoVer = 7 ∨ protoVer = 8 then s.emit (.error sip text) else s

/-- `users->Unauthorize(login, this)` for the session at an address. -/
def unauthorize (io : IaEnv) (sip : IP) (login : String) (s : AuthIa) : Option AuthIa :=
  (s.users.unauthorize io.env login iaAuth "").map fun out =>
    { s with users := out.users }.emit (.unauthorize sip login)

/-! ## Packets that are sent -/

/-- `Send_CONN_SYN_ACK_6`, `_7` and `_8`. -/
def sendConnSynAck (io : IaEnv) (sip : IP) (e : IaUser) (dirs : BitVec 32) (s : AuthIa) : AuthIa :=
  (s.put sip { e with rnd := io.random sip }).emit (.connSynAck sip (io.random sip) dirs)

/-- `Send_ALIVE_SYN_6`, `_7` and `_8`.  The price of a direction and the fee are asked of the
tariff, which may be the null pointer. -/
def sendAliveSyn (io : IaEnv) (sip : IP) (e : IaUser) (s : AuthIa) : Option AuthIa :=
  if (s.users.users e.user).tariff.isNone ∧
      ((∃ d, s.settings.freeMbShowType = .dir d) ∨ io.env.settings.showFeeInCash = false) then none
  else some ((s.put sip { e with rnd := io.random sip }).emit (.aliveSyn sip (io.random sip)))

/-- `Send_DISCONN_SYN_ACK_6`, `_7` and `_8`. -/
def sendDisconnSynAck (io : IaEnv) (sip : IP) (e : IaUser) (s : AuthIa) : AuthIa :=
  (s.put sip { e with rnd := io.random sip }).emit (.disconnSynAck sip (io.random sip))

/-- `Send_FIN_6`, `_7` and `_8`. -/
def sendFin (io : IaEnv) (sip : IP) (e : IaUser) (s : AuthIa) : Option AuthIa :=
  (s.unauthorize io sip e.login).map fun s => (s.emit (.fin sip)).close sip

/-! ## Packets that are received -/

/-- `Process_CONN_SYN_6`, and with it `Process_CONN_SYN_7`; the session afterwards, if the packet
is accepted. -/
def processConnSyn6 (io : IaEnv) (sip : IP) (e : IaUser) (s : AuthIa) : AuthIa × Option IaUser :=
  if e.phase = .one ∨ e.phase = .three then
    let e := { e with phase := .two, phaseTime := io.now }
    ({ s with enabledDirs := 0xFFFFFFFF }.put sip e, some e)
  else (s, none)

/-- `Process_CONN_SYN_8`. -/
def processConnSyn8 (io : IaEnv) (sip : IP) (e : IaUser) (pkt : IaPacket) (s : AuthIa) :
    AuthIa × Option IaUser :=
  let r := s.processConnSyn6 io sip e
  ({ r.1 with enabledDirs := pkt.dirs }, r.2)

/-- `Process_CONN_ACK_6`, `_7` and `_8`; the session afterwards, if the packet is accepted. -/
def processConnAck (io : IaEnv) (sip : IP) (e : IaUser) (pkt : IaPacket) (s : AuthIa) :
    Option (AuthIa × Option IaUser) :=
  if e.phase = .two ∧ pkt.rnd = e.rnd + 1 then
    let e := { e with phaseTime := io.now, lastSendAlive := io.now }
    (s.users.authorize io.env e.login sip s.enabledDirs iaAuth).map fun out =>
      let s := { s.put sip e with users := out.users }.emit
        (.authorize sip e.login s.enabledDirs out.ret)
      if out.ret then
        let e := { e with phase := .three, phaseTime := io.now }
        (s.put sip e, some e)
      else (s.close sip, none)
  else some (s, none)

/-- `Process_ALIVE_ACK_6`, `_7` and `_8`. -/
def processAliveAck (io : IaEnv) (sip : IP) (e : IaUser) (pkt : IaPacket) (s : AuthIa) : AuthIa :=
  if e.phase = .three ∧ pkt.rnd = e.rnd + 1 then
    (s.put sip { e with phaseTime := io.now }).emit (.aliveAck sip)
  else s

/-- `Process_DISCONN_SYN_6`, `_7` and `_8`; the session afterwards, if the packet is accepted. -/
def processDisconnSyn (io : IaEnv) (sip : IP) (e : IaUser) (s : AuthIa) :
    AuthIa × Option IaUser :=
  if e.phase ≠ .three then (s, none)
  else
    let e := { e with phase := .four, phaseTime := io.now }
    (s.put sip e, some e)

/-- `Process_DISCONN_ACK_6`, `_7` and `_8`: is the packet accepted? -/
def processDisconnAck (e : IaUser) (pkt : IaPacket) : Bool :=
  decide (e.phase = .four) && decide (pkt.rnd = e.rnd + 1)

/-- The `case CONN_SYN_N` of `PacketProcessor`. -/
def connSyn (io : IaEnv) (sip : IP) (protoVer : ℤ) (e : IaUser) (pkt : IaPacket) (s : AuthIa) :
    AuthIa :=
  if protoVer = 6 ∨ protoVer = 7 then
    match s.processConnSyn6 io sip e with
    | (s, none) => s
    | (s, some e) => s.sendConnSynAck io sip e 0xFFFFFFFF
  else if protoVer = 8 then
    match s.processConnSyn8 io sip e pkt with
    | (s, none) => s
    | (s, some e) => s.sendConnSynAck io sip e pkt.dirs
  else s

/-- The `case CONN_ACK_N`. -/
def connAck (io : IaEnv) (sip : IP) (e : IaUser) (pkt : IaPacket) (s : AuthIa) : Option AuthIa :=
  match s.processConnAck io sip e pkt with
  | none => none
  | some (s, none) => some s
  | some (s, some e) => s.sendAliveSyn io sip e

/-- The `case DISCONN_SYN_N`. -/
def disconnSyn (io : IaEnv) (sip : IP) (e : IaUser) (s : AuthIa) : AuthIa :=
  match s.processDisconnSyn io sip e with
  | (s, none) => s
  | (s, some e) => s.sendDisconnSynAck io sip e

/-- The `case DISCONN_ACK_N`. -/
def disconnAck (io : IaEnv) (sip : IP) (e : IaUser) (pkt : IaPacket) (s : AuthIa) : Option AuthIa :=
  if processDisconnAck e pkt then s.sendFin io sip e else some s

/-- Is there a `case` for the version in each `switch (protoVer)`? -/
def KnownVersion (protoVer : ℤ) : Prop := protoVer = 6 ∨ protoVer = 7 ∨ protoVer = 8

instance (protoVer : ℤ) : Decidable (KnownVersion protoVer) :=
  inferInstanceAs (Decidable (protoVer = 6 ∨ protoVer = 7 ∨ protoVer = 8))

/-- The end of `PacketProcessor`, from the search of `packetTypes` on, for a session and the packet
that was decrypted for it. -/
def dispatch (io : IaEnv) (sip : IP) (protoVer : ℤ) (user : UserId) (e : IaUser) (pkt : IaPacket)
    (s : AuthIa) : Option AuthIa :=
  match pkt.type with
  | none => some ((s.sendError sip protoVer "Неправильный логин или пароль.").close sip)
  | some type =>
    if iaAuth ∈ (s.users.users user).authorizedBy ∧ (s.users.users user).currIP ≠ sip then
      some ((s.sendError sip protoVer "Логин уже используется.").close sip)
    else if ¬ KnownVersion protoVer then some s
    else
      match type with
      | .connSyn => some (s.connSyn io sip protoVer e pkt)
      | .connAck => s.connAck io sip e pkt
      | .aliveAck => some (s.processAliveAck io sip e pkt)
      | .disconnSyn => some (s.disconnSyn io sip e)
      | .disconnAck => s.disconnAck io sip e pkt
      | _ => some s

/-- The beginning of `PacketProcessor`: find or open the session at the address.  There is none if
the address is in use by another user. -/
def findSession (io : IaEnv) (sip : IP) (sport : BitVec 16) (protoVer : ℤ) (user : UserId)
    (s : AuthIa) : AuthIa × Option IaUser :=
  let login := (s.users.users user).login
  match s.ip2user.lookup sip with
  | none =>
    if (s.users.ipIndex sip).isSome ∧ s.users.ipIndex sip ≠ some user then
      (s.sendError sip protoVer "IP-адрес уже сипользуется.", none)
    else
      let e := IaUser.new io login user sport protoVer
      ((s.put sip e).emit (.opened sip io.now), some e)
  | some e =>
    if user ≠ e.user then (s.sendError sip protoVer "IP-адрес уже используется.", none)
    else (s, some e)

/-- `AUTH_IA::PacketProcessor`, with the array that holds the datagram. -/
def packetProcessor (io : IaEnv) (dataLen : ℕ) (sip : IP) (sport : BitVec 16) (protoVer : ℤ)
    (user : UserId) (buffer : List Byte) (s : AuthIa) : Option (AuthIa × List Byte) :=
  match s.findSession io sip sport protoVer user with
  | (s, none) => some (s, buffer)
  | (s, some e) =>
    let e := e.renew (io.password user)
    match decryptPayload e.ctx dataLen buffer with
    | none => none
    | some buffer =>
      ((s.put sip e).dispatch io sip protoVer user e (readPacket (buffer.drop iaOffset))).map
        (·, buffer)

/-- `AUTH_IA::RecvData`, with the array it receives into. -/
def recvData (io : IaEnv) (sip : IP) (sport : BitVec 16) (datagram buffer : List Byte)
    (s : AuthIa) : Option (AuthIa × List Byte) :=
  let data := datagram.take iaBufferSize
  let buffer := receive data buffer
  if data.length = 0 then some (s, buffer)
  else if data.length > 256 then some (s, buffer)
  else
    match checkHeader buffer with
    | none => some (s, buffer)
    | some protoVer =>
      match s.users.loginIndex (readLogin buffer) with
      | none => some (s.sendError sip protoVer "Неправильный логин.", buffer)
      | some user =>
        let u := s.users.users user
        if u.disabled ≠ 0 then
          some (s.sendError sip protoVer "Учетная запись заблокирована.", buffer)
        else if u.passive ≠ 0 then
          some (s.sendError sip protoVer "Учетная запись заморожена.", buffer)
        else if u.ips.find io.env.shifted sip = false then
          some (s.sendError sip protoVer "Пользователь не опознан. Проверьте IP-адрес.", buffer)
        else s.packetProcessor io data.length sip sport protoVer user buffer

/-! ## The timer -/

/-- An `ALIVE_SYN` from the timer, if one is due; the session afterwards. -/
def timeoutAlive (io : IaEnv) (sip : IP) (e : IaUser) (s : AuthIa) : Option (AuthIa × IaUser) :=
  if io.now.passed e.lastSendAlive s.settings.userDelay then
    if KnownVersion e.protoVer then
      let e' := { e with rnd := io.random sip, lastSendAlive := io.now }
      (s.sendAliveSyn io sip e).map fun s => (s.put sip e', e')
    else
      let e' := { e with lastSendAlive := io.now }
      some (s.put sip e', e')
  else some (s, e)

/-- The body of the loop of `AUTH_IA::Timeouter`, for the session at an address. -/
def timeout (io : IaEnv) (s : AuthIa) (sip : IP) : Option AuthIa :=
  match s.ip2user.lookup sip with
  | none => some s
  | some e =>
    match e.phase with
    | .one => some s
    | .two =>
      if io.now.passed e.phaseTime s.settings.userDelay then some (s.close sip) else some s
    | .three =>
      match s.timeoutAlive io sip e with
      | none => none
      | some (s, e) =>
        if io.now.passed e.phaseTime s.settings.userTimeout then
          (s.unauthorize io sip (s.users.users e.user).login).map (·.close sip)
        else some s
    | .four =>
      if io.now.passed e.phaseTime s.settings.userDelay then
        some (s.put sip { e with phase := .three, phaseTime := io.now })
      else some s

/-- `AUTH_IA::Timeouter`: the sessions in the order of their addresses. -/
def timeouter (io : IaEnv) (s : AuthIa) : Option AuthIa :=
  (s.ip2user.keys.insertionSort fun a b => a.toNat ≤ b.toNat).foldlM (timeout io) s

end AuthIa

/-! ## Runs -/

/-- The authorizer and the array of its receiving thread. -/
structure IaRun where
  /-- The authorizer. -/
  ia : AuthIa
  /-- `buffer` of `AUTH_IA::Run`. -/
  buffer : List Byte

/-- What happens to the authorizer. -/
inductive IaAction
  /-- A datagram arrives. -/
  | datagram (io : IaEnv) (src : IP) (sport : BitVec 16) (data : List Byte)
  /-- `Timeouter` runs. -/
  | tick (io : IaEnv)

namespace IaRun

/-- One step. -/
def step (s : IaRun) : IaAction → Option IaRun
  | .datagram io src sport data => (s.ia.recvData io src sport data s.buffer).map fun r => ⟨r.1, r.2⟩
  | .tick io => (s.ia.timeouter io).map fun ia => { s with ia := ia }

end IaRun

/-- The authorizer after start: there are no sessions, and it has authorized nobody. -/
structure AuthIa.Initial (s : AuthIa) : Prop where
  /-- The users are consistent. -/
  consistent : s.users.Consistent
  /-- The index of addresses is right. -/
  indexed : s.users.Indexed
  /-- Nobody is authorized by this authorizer. -/
  authorizedBy : ∀ id, iaAuth ∉ (s.users.users id).authorizedBy
  /-- There are no sessions. -/
  ip2user : s.ip2user = ∅
  /-- All directions are enabled. -/
  enabledDirs : s.enabledDirs = 0xFFFFFFFF
  /-- Nothing has happened. -/
  log : s.log = []

end Stargazer
