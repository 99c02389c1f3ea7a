import Stargazer.InetAccess.Sessions

set_option relaxedAutoImplicit false
set_option autoImplicit false

/-!
# Clients of the InetAccess authorizer

A client encrypts its packets with the password of its user.  What the authorizer makes of such a
datagram is said in terms of the packet, without bytes; only if the datagram is too short, what
earlier ones have left in the array comes in.

## Main definitions

* `Stargazer.ClientPacket` — a packet of a client, and its datagram.
* `Stargazer.AuthIa.exchange` — what the authorizer does with a packet.

## Main results

* `Stargazer.IaRun.step_iaDatagram` — a datagram does what its packet does.
-/

namespace Stargazer

/-- A packet of a client. -/
structure ClientPacket where
  /-- The protocol version. -/
  ver : Byte
  /-- The login. -/
  login : List Byte
  /-- The name of the packet. -/
  name : List Byte
  /-- `rnd`. -/
  rnd : BitVec 32
  /-- `dirs`. -/
  dirs : BitVec 32
  /-- The version is not too old. -/
  ver_ge : 6 ≤ ver.toInt
  /-- The login has a place in the datagram. -/
  login_le : login.length ≤ loginLen
  /-- The login is a string. -/
  login_zero : 0 ∉ login
  /-- The name has a place in the datagram. -/
  name_le : name.length ≤ iaMaxTypeLen - 1
  /-- The name is a string. -/
  name_zero : 0 ∉ name

namespace ClientPacket

/-- The text of the packet, with all fields a packet can have. -/
def text (p : ClientPacket) : List Byte :=
  [0, 0, 0, 0] ++ p.name.rightpad iaMaxTypeLen 0 ++ Blowfish.block2bytes p.rnd ++
    List.replicate 28 0 ++ Blowfish.block2bytes p.dirs

/-- The packet as the authorizer reads it. -/
def read (p : ClientPacket) : IaPacket := ⟨packetTypes.lookup p.name, p.rnd, p.dirs⟩

/-- The datagram, encrypted with a password. -/
def datagram (p : ClientPacket) (password : List Byte) : List Byte :=
  iaDatagram p.ver p.login (contextOf password) p.text

theorem length_rightpad_name (p : ClientPacket) :
    (p.name.rightpad iaMaxTypeLen 0).length = iaMaxTypeLen := by
  have := p.name_le
  rw [List.rightpad, List.length_append, List.length_replicate]
  omega

theorem length_text (p : ClientPacket) : p.text.length = 8 * 7 := by
  simp only [text, List.length_append, p.length_rightpad_name, List.length_replicate,
    Blowfish.length_block2bytes]
  rfl

/-- A packet is read back, whatever follows it. -/
theorem readPacket_text (p : ClientPacket) (rest : List Byte) :
    readPacket (p.text ++ rest) = p.read := by
  rw [readPacket_append_of_le p.length_text.ge]
  have hname : packetName p.text = p.name := by
    have hle := p.name_le
    have hmax : iaMaxTypeLen = 16 := rfl
    have hdrop : p.text.drop 4 = p.name ++ (List.replicate (iaMaxTypeLen - p.name.length) 0 ++
        (Blowfish.block2bytes p.rnd ++ (List.replicate 28 0 ++ Blowfish.block2bytes p.dirs))) := by
      simp [text, List.rightpad]
    rw [packetName, hdrop, List.take_append, List.take_of_length_le hle,
      cstr_append_of_notMem p.name_zero]
    obtain ⟨k, hk⟩ : ∃ k, iaMaxTypeLen - p.name.length = k + 1 :=
      ⟨iaMaxTypeLen - 1 - p.name.length, by omega⟩
    rw [hk, List.replicate_succ, List.cons_append]
    cases iaMaxTypeLen - 1 - p.name.length with
    | zero => exact List.append_nil _
    | succ j => rw [List.take_succ_cons, cstr_zero_cons, List.append_nil]
  have hrnd : p.text.drop 20 = Blowfish.block2bytes p.rnd ++
      (List.replicate 28 0 ++ Blowfish.block2bytes p.dirs) := by
    rw [text, List.append_assoc, List.append_assoc]
    exact List.drop_left' (by rw [List.length_append, p.length_rightpad_name]; rfl)
  have hdirs : p.text.drop 52 = Blowfish.block2bytes p.dirs :=
    List.drop_left' (by
      simp only [List.length_append, p.length_rightpad_name, List.length_replicate,
        Blowfish.length_block2bytes]
      rfl)
  rw [readPacket, hname, hrnd, hdirs, Blowfish.bytes2block_block2bytes]
  have := Blowfish.bytes2block_block2bytes p.dirs []
  rw [List.append_nil] at this
  rw [this, read]

theorem length_datagram (p : ClientPacket) (password : List Byte) :
    (p.datagram password).length = 96 := by
  rw [datagram, length_iaDatagram _ _ p.login_le p.length_text]

/-- What a datagram brings of its packet is all of it. -/
theorem ownPacket_datagram (p : ClientPacket) (password : List Byte) :
    ownPacket (contextOf password) (p.datagram password) = p.read := by
  have hplain := decryptPayload_iaDatagram p.ver (contextOf password) p.login_le p.length_text []
  rw [datagram, ← readPacket_eq_ownPacket_of_le hplain (p.length_datagram password).ge,
    List.drop_left' (length_iaHeader p.ver p.login_le), p.readPacket_text]

/-- The login of a datagram. -/
theorem readLogin_datagram (p : ClientPacket) (password buffer : List Byte) :
    readLogin (receive (p.datagram password) buffer) = bytesText p.login :=
  readLogin_iaDatagram p.ver _ p.login_le p.login_zero buffer

end ClientPacket

namespace AuthIa

/-- What the authorizer does with a packet for a user from an address. -/
def exchange (io : IaEnv) (sip : IP) (sport : BitVec 16) (protoVer : ℤ) (user : UserId)
    (pkt : IaPacket) (s : AuthIa) : Option AuthIa :=
  match s.findSession io sip sport protoVer user with
  | (_, none) => none
  | (s, some e) =>
    (s.put sip (e.renew (io.password user))).dispatch io sip protoVer user
      (e.renew (io.password user)) pkt

/-- The session that is found has the context of the password. -/
theorem findSession_ctx {s s₀ : AuthIa} {io : IaEnv} {sip : IP} {sport : BitVec 16} {protoVer : ℤ}
    {user : UserId} {e : IaUser} (hs : s.Sound)
    (h : s.findSession io sip sport protoVer user = (s₀, some e)) :
    (e.renew (io.password user)).ctx = contextOf (io.password user) := by
  have hctx : e.ctx = contextOf e.password := by
    unfold findSession at h
    cases hsession : s.ip2user.lookup sip with
    | none =>
      simp only [hsession] at h
      split_ifs at h
      · cases h
      · obtain ⟨-, he⟩ := Prod.mk.inj h
        obtain rfl := Option.some.inj he
        simp only [IaUser.new]
    | some e₀ =>
      simp only [hsession] at h
      split_ifs at h
      · cases h
      · obtain ⟨-, he⟩ := Prod.mk.inj h
        obtain rfl := Option.some.inj he
        exact (hs.sessions sip _ hsession).ctx
  exact (renew_ctx _ hctx).1

end AuthIa

namespace IaRun

/-- **A datagram does what its packet does.**  The text is that of the datagram, and goes on with
what has been in the array. -/
theorem step_iaDatagram {s : IaRun} {s' : AuthIa} {io : IaEnv} {sip : IP} {sport : BitVec 16}
    {user : UserId} {ver : Byte} {login plain : List Byte} {n : ℕ} (hs : s.ia.Sound)
    (hl : s.ia.users.loginIndex (bytesText login) = some user)
    (hdisabled : (s.ia.users.users user).disabled = 0)
    (hpassive : (s.ia.users.users user).passive = 0)
    (hips : (s.ia.users.users user).ips.find io.env.shifted sip = true) (hver : 6 ≤ ver.toInt)
    (hlogin : login.length ≤ loginLen) (hzero : 0 ∉ login) (hplain : plain.length = 8 * n)
    (hn : n ≤ 27)
    (h : s.ia.exchange io sip sport ver.toInt user
      (readPacket (plain ++ s.buffer.drop (iaOffset + 8 * n))) = some s') :
    s.step (.datagram io sip sport (iaDatagram ver login (contextOf (io.password user)) plain)) =
      some ⟨s', iaHeader ver login ++ (plain ++ s.buffer.drop (iaOffset + 8 * n))⟩ := by
  have hoffset : iaOffset = 40 := rfl
  have hsize : iaBufferSize = 512 := rfl
  have hlen := length_iaDatagram ver (contextOf (io.password user)) hlogin hplain
  unfold AuthIa.exchange at h
  cases hfind : s.ia.findSession io sip sport ver.toInt user with
  | mk s₀ found =>
    cases found with
    | none => simp only [hfind, reduceCtorEq] at h
    | some e =>
      have hctx := AuthIa.findSession_ctx hs hfind
      simp only [hfind] at h
      have hdecrypt := decryptPayload_iaDatagram ver (contextOf (io.password user)) hlogin hplain
        s.buffer
      have hdrop : (iaHeader ver login ++ (plain ++ s.buffer.drop (iaOffset + 8 * n))).drop iaOffset =
          plain ++ s.buffer.drop (iaOffset + 8 * n) := List.drop_left' (length_iaHeader ver hlogin)
      simp only [step, AuthIa.recvData, List.take_of_length_le (show
          (iaDatagram ver login (contextOf (io.password user)) plain).length ≤ iaBufferSize by omega),
        if_neg (show ¬ (iaDatagram ver login (contextOf (io.password user)) plain).length = 0 by omega),
        if_neg (show ¬ (iaDatagram ver login (contextOf (io.password user)) plain).length > 256 by
          omega), checkHeader_iaDatagram _ hver, readLogin_iaDatagram _ _ hlogin hzero, hl, hdisabled,
        hpassive, hips, ne_eq, not_true_eq_false, if_false, Bool.true_eq_false,
        AuthIa.packetProcessor, hfind, hctx, hdecrypt, hdrop, h, Option.map_some]

/-- A packet of a client is read as it is. -/
theorem step_clientPacket {s : IaRun} {s' : AuthIa} (io : IaEnv) (sip : IP) (sport : BitVec 16)
    (user : UserId) (p : ClientPacket) (hs : s.ia.Sound)
    (hl : s.ia.users.loginIndex (bytesText p.login) = some user)
    (hdisabled : (s.ia.users.users user).disabled = 0)
    (hpassive : (s.ia.users.users user).passive = 0)
    (hips : (s.ia.users.users user).ips.find io.env.shifted sip = true)
    (h : s.ia.exchange io sip sport p.ver.toInt user p.read = some s') :
    s.step (.datagram io sip sport (p.datagram (io.password user))) =
      some ⟨s', iaHeader p.ver p.login ++ (p.text ++ s.buffer.drop (iaOffset + 8 * 7))⟩ := by
  refine step_iaDatagram hs hl hdisabled hpassive hips p.ver_ge p.login_le p.login_zero
    p.length_text (by omega) ?_
  rw [p.readPacket_text]
  exact h

end IaRun

/-! ## A sample authorizer -/

namespace Sample

/-- Sessions expire after a minute. -/
def iaSettings : IaSettings where
  userDelay := 60
  userTimeout := 60
  freeMbShowType := .none
  userDelay_mem := by decide
  userTimeout_mem := by decide

/-- The authorizer of the sample server after start. -/
def ia : AuthIa where
  settings := iaSettings
  users := users
  ip2user := ∅
  enabledDirs := 0xFFFFFFFF
  log := []

/-- The sample authorizer and a cleared array. -/
def iaRun : IaRun := ⟨ia, List.replicate iaBufferSize 0⟩

theorem ia_initial : ia.Initial :=
  ⟨users_initial.consistent, users_initial.indexed, fun id => by
    rw [show (ia.users.users id).authorizedBy = ∅ from users_initial.authorizedBy id]
    simp, rfl, rfl, rfl⟩

/-- The run of the sample authorizer in which nothing has happened. -/
theorem runs_nil : Transition.Runs IaRun.step iaRun [] iaRun := .nil iaRun

/-- The sample server at a time; the two users have different passwords, and the nonces are
known. -/
def iaEnv (now : ℤ) : IaEnv where
  env := env now
  now := .ofSec now
  password := fun id => textBytes (if id = 0 then "one" else "two")
  randomNew := 0
  random := fun _ => 100

/-- The name of a packet. -/
def typeName : PacketType → List Byte
  | .connSyn => textBytes "CONN_SYN"
  | .connSynAck => textBytes "CONN_SYN_ACK"
  | .connAck => textBytes "CONN_ACK"
  | .aliveSyn => textBytes "ALIVE_SYN"
  | .aliveAck => textBytes "ALIVE_ACK"
  | .disconnSyn => textBytes "DISCONN_SYN"
  | .disconnSynAck => textBytes "DISCONN_SYN_ACK"
  | .disconnAck => textBytes "DISCONN_ACK"
  | .fin => textBytes "FIN"
  | .err => textBytes "ERR"

/-- A packet of the first sample user or of the second one, of version 6 or 8, with the answer to
the nonce. -/
def iaPacket (first v8 : Bool) (type : PacketType) (dirs : BitVec 32) : ClientPacket where
  ver := if v8 then 8 else 6
  login := if first then [97] else [98]
  name := typeName type
  rnd := 101
  dirs := dirs
  ver_ge := by cases v8 <;> decide
  login_le := by cases first <;> decide
  login_zero := by cases first <;> decide
  name_le := by cases type <;> decide
  name_zero := by cases type <;> decide

/-- The datagram of a sample user arrives from an address. -/
def iaSends (now : ℤ) (sip : IP) (first v8 : Bool) (type : PacketType) (dirs : BitVec 32) :
    IaAction :=
  .datagram (iaEnv now) sip 0 ((iaPacket first v8 type dirs).datagram
    ((iaEnv now).password (if first then 0 else 1)))

/-- What the array holds after the datagram of a sample user. -/
def iaBuffer (first v8 : Bool) (type : PacketType) (dirs : BitVec 32) (buffer : List Byte) :
    List Byte :=
  iaHeader (iaPacket first v8 type dirs).ver (iaPacket first v8 type dirs).login ++
    ((iaPacket first v8 type dirs).text ++ buffer.drop (iaOffset + 8 * 7))

/-- The login of a sample user. -/
theorem loginIndex_iaPacket (first v8 : Bool) (type : PacketType) (dirs : BitVec 32) :
    users.loginIndex (bytesText (iaPacket first v8 type dirs).login) =
      some (if first then 0 else 1) := by
  have h : ∀ first : Bool, users.loginIndex (bytesText (if first then [97] else [98])) =
      some (if first then 0 else 1) := by decide +kernel
  exact h first

/-- The packet of a sample user as the authorizer reads it. -/
theorem read_iaPacket (first v8 : Bool) (type : PacketType) (dirs : BitVec 32) :
    (iaPacket first v8 type dirs).read = ⟨some type, 101, dirs⟩ := by
  cases type <;> rfl

/-- **The datagram of a sample user** does what its packet does. -/
theorem step_iaSends {guard : IaRun → IaAction → Prop} {s : IaRun} {as : List IaAction}
    {s' : AuthIa} (now : ℤ) (sip : IP) (first v8 : Bool) (type : PacketType) (dirs : BitVec 32)
    (hrun : Transition.Reaches IaRun.step guard iaRun as s)
    (hl : s.ia.users.loginIndex = users.loginIndex)
    (hadm : (s.ia.users.users (if first then 0 else 1)).disabled = 0 ∧
      (s.ia.users.users (if first then 0 else 1)).passive = 0 ∧
      (s.ia.users.users (if first then 0 else 1)).ips = UserIPs.any)
    (h : s.ia.exchange (iaEnv now) sip 0 (if v8 then 8 else 6) (if first then 0 else 1)
      ⟨some type, 101, dirs⟩ = some s') :
    s.step (iaSends now sip first v8 type dirs) =
      some ⟨s', iaBuffer first v8 type dirs s.buffer⟩ := by
  obtain ⟨hdisabled, hpassive, hips⟩ := hadm
  have hver : (if v8 then (8 : Byte) else 6).toInt = if v8 then 8 else 6 := by
    cases v8 <;> decide
  refine IaRun.step_clientPacket (iaEnv now) sip 0 _ _ (IaRun.sound_of_runs ia_initial hrun) ?_
    hdisabled hpassive ?_ ?_
  · rw [hl]
    exact loginIndex_iaPacket first v8 type dirs
  · rw [hips]
    rfl
  · rw [read_iaPacket]
    exact hver ▸ h

/-- A run goes on with the datagram of a sample user. -/
theorem reaches_iaSends {guard : IaRun → IaAction → Prop} {s : IaRun} {as : List IaAction}
    {s' : AuthIa} (now : ℤ) (sip : IP) (first v8 : Bool) (type : PacketType) (dirs : BitVec 32)
    (hrun : Transition.Reaches IaRun.step guard iaRun as s)
    (hg : guard s (iaSends now sip first v8 type dirs))
    (hl : s.ia.users.loginIndex = users.loginIndex)
    (hadm : (s.ia.users.users (if first then 0 else 1)).disabled = 0 ∧
      (s.ia.users.users (if first then 0 else 1)).passive = 0 ∧
      (s.ia.users.users (if first then 0 else 1)).ips = UserIPs.any)
    (h : s.ia.exchange (iaEnv now) sip 0 (if v8 then 8 else 6) (if first then 0 else 1)
      ⟨some type, 101, dirs⟩ = some s') :
    Transition.Reaches IaRun.step guard iaRun (as ++ [iaSends now sip first v8 type dirs])
      ⟨s', iaBuffer first v8 type dirs s.buffer⟩ :=
  hrun.snoc hg (step_iaSends now sip first v8 type dirs hrun hl hadm h)

end Sample

end Stargazer
