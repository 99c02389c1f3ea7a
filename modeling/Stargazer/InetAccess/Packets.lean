import Stargazer.Crypto.Blowfish

set_option relaxedAutoImplicit false
set_option autoImplicit false

/-!
# The datagrams of the InetAccess protocol

`include/stg/ia_packets.h` and the parts of `AUTH_IA::RecvData` and `AUTH_IA::PacketProcessor` that
read a datagram (`plugins/authorization/inetaccess/inetaccess.cpp`).  A datagram has a header of
eight bytes, 32 bytes with the login, encrypted with a key that everybody knows, and a part that is
encrypted with the password of the user.

`AUTH_IA::Run` receives all datagrams into one array, decrypts in place, and never clears it.  What
is read behind the end of a datagram is what earlier ones have left there.

## Main definitions

* `Stargazer.checkHeader`, `Stargazer.readLogin` — the part everybody can read.
* `Stargazer.decryptPayload` — the decryption in place.
* `Stargazer.readPacket` — the fields of the encrypted part.
* `Stargazer.ownPacket` — the same fields, of a datagram alone.
* `Stargazer.iaDatagram` — what a client sends.

## Main results

* `Stargazer.readPacket_eq_ownPacket` — what is read of a datagram that is long enough is its own.
* `Stargazer.readLogin_iaDatagram`, `Stargazer.decryptPayload_iaDatagram` — what is read of the
  datagram of a client.
-/

namespace Stargazer

/-- The packets with an entry in `packetTypes`. -/
inductive PacketType
  | connSyn | connSynAck | connAck | aliveSyn | aliveAck
  | disconnSyn | disconnSynAck | disconnAck | fin | err
  deriving DecidableEq

/-- The bytes of a text. -/
def textBytes (s : String) : List Byte := s.toList.map fun c => BitVec.ofNat 8 c.toNat

/-- The text with given bytes. -/
def bytesText (l : List Byte) : String := String.ofList (l.map fun b => Char.ofNat b.toNat)

/-- `packetTypes`. -/
def packetTypes : List (List Byte × PacketType) :=
  [(textBytes "CONN_SYN", .connSyn), (textBytes "CONN_SYN_ACK", .connSynAck),
    (textBytes "CONN_ACK", .connAck), (textBytes "ALIVE_SYN", .aliveSyn),
    (textBytes "ALIVE_ACK", .aliveAck), (textBytes "DISCONN_SYN", .disconnSyn),
    (textBytes "DISCONN_SYN_ACK", .disconnSynAck), (textBytes "DISCONN_ACK", .disconnAck),
    (textBytes "FIN", .fin), (textBytes "ERR", .err)]

/-- `IA_MAX_TYPE_LEN`. -/
abbrev iaMaxTypeLen : ℕ := 16

/-- `LOGIN_LEN`. -/
abbrev loginLen : ℕ := 32

/-- `offset` of `PacketProcessor`: where the encrypted part begins. -/
abbrev iaOffset : ℕ := loginLen + 2 + 6

/-- The size of the array in `AUTH_IA::Run`. -/
abbrev iaBufferSize : ℕ := 512

/-- `IA_ID`. -/
def iaId : List Byte := textBytes "00100"

/-- `ctxS`: the context of the logins. -/
def ctxS : BlowfishCtx := Blowfish.initContext (textBytes "pr7Hhen") 7

/-- What the array holds after `recvfrom`. -/
def receive (data buffer : List Byte) : List Byte := data ++ buffer.drop data.length

/-- `AUTH_IA::CheckHeader`: the protocol version, if the header is right.  The bytes of the version
are signed. -/
def checkHeader (buffer : List Byte) : Option ℤ :=
  if buffer.take 5 ≠ iaId then none
  else if buffer.getD 6 0 ≠ 0 then none
  else if (buffer.getD 7 0).toInt < 6 then none
  else some (buffer.getD 7 0).toInt

/-- The login `RecvData` reads. -/
def readLogin (buffer : List Byte) : String :=
  bytesText (cstr (Blowfish.decryptString ctxS (buffer.drop 8) passwdLen))

/-- The decryption of the rest of a datagram of `dataLen` bytes, in place.  Below the offset the
difference of the lengths wraps around, and the loop writes behind the array: `none`. -/
def decryptPayload (ctx : BlowfishCtx) (dataLen : ℕ) (buffer : List Byte) : Option (List Byte) :=
  if dataLen < iaOffset then none
  else some (receive (buffer.take iaOffset ++
    Blowfish.decryptString ctx (buffer.drop iaOffset) (dataLen - iaOffset)) buffer)

theorem exists_decryptPayload (ctx : BlowfishCtx) {dataLen : ℕ} (h : iaOffset ≤ dataLen)
    (buffer : List Byte) : ∃ plain, decryptPayload ctx dataLen buffer = some plain :=
  ⟨_, if_neg (not_lt.2 h)⟩

/-- The fields of the encrypted part that some packet has. -/
@[ext]
structure IaPacket where
  /-- What `packetTypes` has for the name. -/
  type : Option PacketType
  /-- `rnd` of `CONN_ACK`, `ALIVE_ACK` and `DISCONN_ACK`. -/
  rnd : BitVec 32
  /-- `dirs` of `CONN_SYN_8`. -/
  dirs : BitVec 32
  deriving DecidableEq

/-- The name of a packet: `strncpy` of `IA_MAX_TYPE_LEN` bytes, the last of which is overwritten. -/
def packetName (plain : List Byte) : List Byte := cstr ((plain.drop 4).take (iaMaxTypeLen - 1))

/-- The fields of a packet, read from the decrypted part on. -/
def readPacket (plain : List Byte) : IaPacket where
  type := packetTypes.lookup (packetName plain)
  rnd := Blowfish.bytes2block (plain.drop 20)
  dirs := Blowfish.bytes2block (plain.drop 52)

/-! ## The datagram alone -/

/-- The whole blocks of the encrypted part of a datagram, decrypted. -/
def ownPayload (ctx : BlowfishCtx) (data : List Byte) : List Byte :=
  Blowfish.decryptBlocks ctx ((data.length - iaOffset) / 8) (data.drop iaOffset)

/-- The fields of a datagram, decrypted under a password. -/
def ownPacket (ctx : BlowfishCtx) (data : List Byte) : IaPacket := readPacket (ownPayload ctx data)

@[simp] theorem length_ownPayload (ctx : BlowfishCtx) (data : List Byte) :
    (ownPayload ctx data).length = 8 * ((data.length - iaOffset) / 8) := by
  rw [ownPayload, Blowfish.decryptBlocks_eq_map, Blocks.length_map (Blowfish.length_decryptBlock ctx)]

/-- A word is read from its own four bytes. -/
theorem bytes2block_drop_append {l : List Byte} {n : ℕ} (h : n + 4 ≤ l.length) (l' : List Byte) :
    Blowfish.bytes2block ((l ++ l').drop n) = Blowfish.bytes2block (l.drop n) := by
  obtain ⟨a, b, c, d, m, hm⟩ : ∃ a b c d m, l.drop n = a :: b :: c :: d :: m := by
    match hl : l.drop n, (show 4 ≤ (l.drop n).length by rw [List.length_drop]; omega) with
    | a :: b :: c :: d :: m, _ => exact ⟨a, b, c, d, m, rfl⟩
  rw [List.drop_append_of_le_length (by omega), hm]
  rfl

/-- What stands behind 24 bytes has no influence on the name and on `rnd`. -/
theorem readPacket_append {l : List Byte} (h : 24 ≤ l.length) (l' : List Byte) :
    (readPacket (l ++ l')).type = (readPacket l).type ∧
      (readPacket (l ++ l')).rnd = (readPacket l).rnd := by
  refine ⟨?_, bytes2block_drop_append (by omega) l'⟩
  have hname : ((l ++ l').drop 4).take (iaMaxTypeLen - 1) =
      (l.drop 4).take (iaMaxTypeLen - 1) := by
    rw [List.drop_append_of_le_length (by omega), List.take_append_of_le_length (by simp; omega)]
  simp only [readPacket, packetName, hname]

/-- What stands behind 56 bytes has no influence on `dirs` either. -/
theorem readPacket_append_of_le {l : List Byte} (h : 56 ≤ l.length) (l' : List Byte) :
    readPacket (l ++ l') = readPacket l := by
  obtain ⟨htype, hrnd⟩ := readPacket_append (l := l) (by omega) l'
  exact IaPacket.ext htype hrnd (bytes2block_drop_append (by omega) l')

/-- What is received behind the first part. -/
theorem drop_receive {n : ℕ} {a : List Byte} (ha : a.length = n) (b c buffer : List Byte) :
    ∃ rest, (receive (a ++ (b ++ c)) buffer).drop n = b ++ rest := by
  refine ⟨c ++ buffer.drop (a ++ (b ++ c)).length, ?_⟩
  rw [receive, List.append_assoc, List.append_assoc, ← ha, List.drop_left]

/-- The decryption in place decrypts the whole blocks of the datagram, and what is left of it
together with what follows it. -/
theorem decryptPayload_receive {ctx : BlowfishCtx} {data buffer plain : List Byte}
    (h : decryptPayload ctx data.length (receive data buffer) = some plain) :
    ∃ rest, plain.drop iaOffset = ownPayload ctx data ++ rest := by
  unfold decryptPayload at h
  split_ifs at h with hlen
  have hlen' : iaOffset ≤ data.length := not_lt.1 hlen
  obtain rfl := Option.some.inj h
  have hdrop : (receive data buffer).drop iaOffset =
      data.drop iaOffset ++ buffer.drop data.length := by
    rw [receive, List.drop_append_of_le_length hlen']
  have htake : ((receive data buffer).take iaOffset).length = iaOffset := by
    rw [receive, List.take_append_of_le_length hlen', List.length_take_of_le hlen']
  -- the blocks that are decrypted are those of the datagram and at most one more
  obtain ⟨k, hk⟩ : ∃ k, (data.length - iaOffset + 7) / 8 = (data.length - iaOffset) / 8 + k :=
    ⟨_, (Nat.add_sub_cancel' (Nat.div_le_div_right (by omega))).symm⟩
  have hown : Blowfish.decryptString ctx (data.drop iaOffset ++ buffer.drop data.length)
      (data.length - iaOffset) = ownPayload ctx data ++ Blocks.map 8 (Blowfish.decryptBlock ctx) k
        ((data.drop iaOffset ++ buffer.drop data.length).drop
          (8 * ((data.length - iaOffset) / 8))) := by
    rw [Blowfish.decryptString, Blowfish.decryptBlocks_eq_map, hk, Blocks.map_add,
      Blocks.map_append_of_le _ _ _ (by rw [List.length_drop]; omega), ownPayload,
      Blowfish.decryptBlocks_eq_map]
  rw [hdrop, hown]
  exact drop_receive htake _ _ _

/-- The header of a datagram of at least eight bytes is its own. -/
theorem checkHeader_receive {data : List Byte} (h : 8 ≤ data.length) (buffer : List Byte) :
    checkHeader (receive data buffer) = checkHeader data := by
  have hget (i : ℕ) (hi : i < 8) : (receive data buffer).getD i 0 = data.getD i 0 := by
    rw [receive, List.getD_eq_getElem?_getD, List.getElem?_append_left (by omega),
      List.getD_eq_getElem?_getD]
  have htake : (receive data buffer).take 5 = data.take 5 :=
    List.take_append_of_le_length (by omega)
  rw [checkHeader, checkHeader, htake, hget 6 (by omega), hget 7 (by omega)]

/-- The login of a datagram of at least 40 bytes is its own. -/
theorem readLogin_receive {data : List Byte} (h : iaOffset ≤ data.length) (buffer : List Byte) :
    readLogin (receive data buffer) = readLogin data := by
  have hoffset : iaOffset = 40 := rfl
  have hdrop : (receive data buffer).drop 8 = data.drop 8 ++ buffer.drop data.length :=
    List.drop_append_of_le_length (by omega)
  rw [readLogin, readLogin, hdrop, show passwdLen = 8 * 4 from rfl, Blowfish.decryptString_eq_map,
    Blocks.map_append_of_le _ _ _ (by rw [List.length_drop]; omega), Blowfish.decryptString_eq_map]

/-- **A datagram of at least 64 bytes is read as it is**: its name and `rnd` are its own. -/
theorem readPacket_eq_ownPacket {ctx : BlowfishCtx} {data buffer plain : List Byte}
    (h : decryptPayload ctx data.length (receive data buffer) = some plain)
    (hlen : 64 ≤ data.length) :
    (readPacket (plain.drop iaOffset)).type = (ownPacket ctx data).type ∧
      (readPacket (plain.drop iaOffset)).rnd = (ownPacket ctx data).rnd := by
  obtain ⟨rest, hrest⟩ := decryptPayload_receive h
  rw [hrest]
  refine readPacket_append ?_ rest
  have hoffset : iaOffset = 40 := rfl
  rw [length_ownPayload]
  omega

/-- From 96 bytes on its `dirs` are its own, too. -/
theorem readPacket_eq_ownPacket_of_le {ctx : BlowfishCtx} {data buffer plain : List Byte}
    (h : decryptPayload ctx data.length (receive data buffer) = some plain)
    (hlen : 96 ≤ data.length) : readPacket (plain.drop iaOffset) = ownPacket ctx data := by
  obtain ⟨rest, hrest⟩ := decryptPayload_receive h
  rw [hrest]
  refine readPacket_append_of_le ?_ rest
  have hoffset : iaOffset = 40 := rfl
  rw [length_ownPayload]
  omega

/-! ## What a client sends -/

/-- The header and the login. -/
def iaHeader (ver : Byte) (login : List Byte) : List Byte :=
  iaId ++ [0, 0, ver] ++ Blowfish.encryptString ctxS (login.rightpad loginLen 0) loginLen

/-- The datagram of a client: header, login, and a text under its password. -/
def iaDatagram (ver : Byte) (login : List Byte) (ctx : BlowfishCtx) (plain : List Byte) :
    List Byte :=
  iaHeader ver login ++ Blowfish.encryptString ctx plain plain.length

section Client

variable (ver : Byte) {login : List Byte} (ctx : BlowfishCtx) {plain : List Byte} {n : ℕ}

theorem length_rightpad_login (h : login.length ≤ loginLen) :
    (login.rightpad loginLen 0).length = loginLen := by
  rw [List.rightpad, List.length_append, List.length_replicate]
  omega

theorem length_encryptString (h : plain.length = 8 * n) :
    (Blowfish.encryptString ctx plain (8 * n)).length = 8 * n := by
  rw [Blowfish.encryptString_eq_map ctx n plain h.ge,
    Blocks.length_map (Blowfish.length_encryptBlock ctx)]

theorem length_iaHeader (hlogin : login.length ≤ loginLen) :
    (iaHeader ver login).length = iaOffset := by
  have h := length_encryptString ctxS (n := 4) (length_rightpad_login hlogin)
  rw [iaHeader, List.length_append, show loginLen = 8 * 4 from rfl, h]
  rfl

theorem length_iaDatagram (hlogin : login.length ≤ loginLen) (hplain : plain.length = 8 * n) :
    (iaDatagram ver login ctx plain).length = iaOffset + 8 * n := by
  rw [iaDatagram, List.length_append, length_iaHeader ver hlogin, hplain,
    length_encryptString ctx hplain]

/-- The header of a client passes. -/
theorem checkHeader_iaDatagram {ver : Byte} (hver : 6 ≤ ver.toInt) (buffer : List Byte) :
    checkHeader (receive (iaDatagram ver login ctx plain) buffer) = some ver.toInt := by
  have hnot : ¬ ver.toInt < 6 := by omega
  obtain ⟨rest, hrest⟩ : ∃ rest, receive (iaDatagram ver login ctx plain) buffer =
      iaId ++ 0 :: 0 :: ver :: rest := by
    rw [receive, iaDatagram, iaHeader, List.append_assoc, List.append_assoc, List.append_assoc]
    exact ⟨_, rfl⟩
  rw [hrest]
  exact if_neg hnot

/-- The login of a client is read back. -/
theorem readLogin_iaDatagram (hlogin : login.length ≤ loginLen) (hzero : 0 ∉ login)
    (buffer : List Byte) :
    readLogin (receive (iaDatagram ver login ctx plain) buffer) = bytesText login := by
  have hpad := length_rightpad_login hlogin
  have hlen := length_encryptString ctxS (n := 4) hpad
  have hdrop : (receive (iaDatagram ver login ctx plain) buffer).drop 8 =
      Blowfish.encryptString ctxS (login.rightpad loginLen 0) (8 * 4) ++
        (Blowfish.encryptString ctx plain plain.length ++
          buffer.drop (iaDatagram ver login ctx plain).length) := by
    rw [receive, iaDatagram, iaHeader, List.append_assoc, List.append_assoc]
    exact List.drop_left' rfl
  have hdecrypt : Blowfish.decryptString ctxS
      ((receive (iaDatagram ver login ctx plain) buffer).drop 8) (8 * 4) =
      login.rightpad loginLen 0 := by
    rw [hdrop, Blowfish.decryptString_eq_map, Blocks.map_append_of_le _ _ _ hlen.ge,
      ← Blowfish.decryptString_eq_map, Blowfish.decryptString_encryptString ctxS 4 _ hpad]
  have hcstr : cstr (login.rightpad loginLen 0) = login := by
    rw [List.rightpad, cstr_append_of_notMem hzero]
    cases loginLen - login.length with
    | zero => exact List.append_nil login
    | succ k => rw [List.replicate_succ, cstr_zero_cons, List.append_nil]
  rw [readLogin, show passwdLen = 8 * 4 from rfl, hdecrypt, hcstr]

/-- The text of a client is read back, and goes on with what has been in the array. -/
theorem decryptPayload_iaDatagram (hlogin : login.length ≤ loginLen) (hplain : plain.length = 8 * n)
    (buffer : List Byte) :
    decryptPayload ctx (iaDatagram ver login ctx plain).length
        (receive (iaDatagram ver login ctx plain) buffer) =
      some (iaHeader ver login ++ (plain ++ buffer.drop (iaOffset + 8 * n))) := by
  have hlen := length_iaDatagram ver ctx hlogin hplain
  have hhead := length_iaHeader ver hlogin
  have henc := length_encryptString ctx hplain
  have hrecv : receive (iaDatagram ver login ctx plain) buffer = iaHeader ver login ++
      (Blowfish.encryptString ctx plain (8 * n) ++ buffer.drop (iaOffset + 8 * n)) := by
    rw [receive, hlen, iaDatagram, hplain, List.append_assoc]
  have hdecrypt : Blowfish.decryptString ctx (Blowfish.encryptString ctx plain (8 * n) ++
      buffer.drop (iaOffset + 8 * n)) (8 * n) = plain := by
    rw [Blowfish.decryptString_eq_map, Blocks.map_append_of_le _ _ _ henc.ge,
      ← Blowfish.decryptString_eq_map, Blowfish.decryptString_encryptString ctx n plain hplain]
  have htail : (iaHeader ver login ++ (Blowfish.encryptString ctx plain (8 * n) ++
      buffer.drop (iaOffset + 8 * n))).drop (iaOffset + 8 * n) = buffer.drop (iaOffset + 8 * n) := by
    rw [← List.append_assoc]
    exact List.drop_left' (by rw [List.length_append, hhead, henc])
  rw [decryptPayload, if_neg (by omega), hlen, hrecv, Nat.add_sub_cancel_left,
    List.take_left' hhead, List.drop_left' hhead, hdecrypt, receive, List.length_append, hhead,
    hplain, htail, List.append_assoc]

end Client

end Stargazer
