import Stargazer.InetAccess.Challenge

set_option relaxedAutoImplicit false
set_option autoImplicit false

/-!
# The bytes that a datagram makes the authorizer touch

`AUTH_IA::RecvData` and `AUTH_IA::PacketProcessor` once more, at the level of the array: every byte is
read and written with a look at the size of the array.  `CheckHeader` and the decryption of the login
assume that there are forty bytes, which is so, for the array is larger than any datagram; what is
behind a short datagram is left from an earlier one.  `PacketProcessor` takes the forty bytes from the
length of the datagram, in unsigned numbers.

## Main definitions

* `Stargazer.AuthIa.decode` — what a datagram makes of the array, with all accesses checked.
* `Stargazer.AuthIa.StaysInside` — no difference of lengths wraps around, and no access is outside.

## Main results

* `Stargazer.AuthIa.decode_of_recvData` — this is what `RecvData` does to the array.
* `Stargazer.AuthIa.staysInside_iff` — the datagrams that make no access outside.
-/

namespace Stargazer

/-! ## Checked accesses -/

/-- `strncmp(text, s, strlen(text)) == 0`, for `s` in an array: it stops at the first difference. -/
def strncmpChecked : List Byte → List Byte → Option Bool
  | [], _ => some true
  | _ :: _, [] => none
  | c :: cs, x :: xs => if c = x then strncmpChecked cs xs else some false

/-- `AUTH_IA::CheckHeader`, with its accesses. -/
def checkedHeader (buffer : List Byte) : Option (Option ℤ) :=
  (strncmpChecked iaId buffer).bind fun same =>
    if same = false then some none
    else buffer[6]?.bind fun major =>
      if major ≠ 0 then some none
      else buffer[7]?.map fun minor => if minor.toInt < 6 then none else some minor.toInt

/-- `DecryptString` into another array: the blocks that are read. -/
def decryptFrom (ctx : BlowfishCtx) (buffer : List Byte) : ℕ → ℕ → Option (List Byte)
  | 0, _ => some []
  | n + 1, pos =>
    if pos + 8 ≤ buffer.length then
      (decryptFrom ctx buffer n (pos + 8)).map
        (Blowfish.decryptBlock ctx ((buffer.drop pos).take 8) ++ ·)
    else none

/-- A difference of `size_t`. -/
def sizeSub (a b : ℕ) : ℕ := (BitVec.ofNat 64 a - BitVec.ofNat 64 b).toNat

/-- The decryption of the rest of a datagram in place, with its accesses. -/
def decryptInPlace (ctx : BlowfishCtx) (dataLen : ℕ) (buffer : List Byte) : Option (List Byte) :=
  Blocks.inPlace 8 (Blowfish.decryptBlock ctx) ((sizeSub dataLen iaOffset + 7) / 8) buffer iaOffset

/-- The array of the receiving thread. -/
abbrev IaBuffer := { buffer : List Byte // buffer.length = iaBufferSize }

/-! ## What is the same with and without a look at the size -/

theorem strncmpChecked_eq_some {text l : List Byte} (h : text.length ≤ l.length) :
    strncmpChecked text l = some (decide (l.take text.length = text)) := by
  induction text generalizing l with
  | nil => simp [strncmpChecked]
  | cons c cs ih =>
    cases l with
    | nil => simp at h
    | cons x xs =>
      rw [strncmpChecked]
      split_ifs with heq
      · rw [ih (by simpa using h), heq]
        simp
      · simp [Ne.symm heq]

theorem checkedHeader_eq_some {buffer : List Byte} (h : 8 ≤ buffer.length) :
    checkedHeader buffer = some (checkHeader buffer) := by
  have hid : iaId.length = 5 := rfl
  have h6 : 6 < buffer.length := by omega
  have h7 : 7 < buffer.length := by omega
  have hget (i : ℕ) (hi : i < buffer.length) : buffer.getD i 0 = buffer[i] := by
    rw [List.getD_eq_getElem?_getD, List.getElem?_eq_getElem hi, Option.getD_some]
  rw [checkedHeader, strncmpChecked_eq_some (by omega), checkHeader, hid, Option.bind_some,
    List.getElem?_eq_getElem h6, List.getElem?_eq_getElem h7, hget 6 h6, hget 7 h7]
  by_cases hsame : buffer.take 5 = iaId
  · by_cases hmajor : buffer[6] = 0
    · simp only [hsame, hmajor, decide_true, Option.bind_some, Option.map_some, ne_eq, not_true_eq_false,
        if_false, Bool.true_eq_false]
    · simp only [hsame, hmajor, decide_true, Option.bind_some, ne_eq, not_true_eq_false, not_false_eq_true,
        if_false, if_true, Bool.true_eq_false]
  · simp [hsame]

theorem decryptFrom_eq_some (ctx : BlowfishCtx) {buffer : List Byte} (n : ℕ) {pos : ℕ}
    (h : pos + 8 * n ≤ buffer.length) :
    decryptFrom ctx buffer n pos = some (Blowfish.decryptBlocks ctx n (buffer.drop pos)) := by
  induction n generalizing pos with
  | zero => rfl
  | succ n ih =>
    rw [decryptFrom, if_pos (by omega), ih (by omega), Option.map_some, Blowfish.decryptBlocks,
      List.drop_drop]

/-- A difference that is not negative is what it should be; a negative one is very large. -/
theorem sizeSub_of_le {a b : ℕ} (ha : a < 2 ^ 64) (h : b ≤ a) : sizeSub a b = a - b := by
  rw [sizeSub, BitVec.toNat_sub, BitVec.toNat_ofNat, BitVec.toNat_ofNat]
  omega

theorem sizeSub_of_lt {a b : ℕ} (hb : b < 2 ^ 64) (h : a < b) : sizeSub a b = 2 ^ 64 - (b - a) := by
  rw [sizeSub, BitVec.toNat_sub, BitVec.toNat_ofNat, BitVec.toNat_ofNat]
  omega

/-- **The decryption in place, and the size of the array**: a datagram of forty bytes or more is
decrypted as it should be, a shorter one makes the loop run behind the array. -/
theorem decryptInPlace_eq (ctx : BlowfishCtx) {dataLen : ℕ} (hlen : dataLen ≤ 256) (buffer : IaBuffer) :
    decryptInPlace ctx dataLen buffer.1 = decryptPayload ctx dataLen buffer.1 := by
  have hsize : buffer.1.length = 512 := buffer.2
  have hoffset : iaOffset = 40 := rfl
  have hblock := Blowfish.length_decryptBlock ctx
  rw [decryptInPlace, Blocks.inPlace_eq hblock _ (by omega), decryptPayload]
  by_cases hshort : dataLen < iaOffset
  · rw [if_pos hshort, sizeSub_of_lt (by omega) hshort, if_neg (by omega)]
  · have hsub : sizeSub dataLen iaOffset = dataLen - iaOffset := sizeSub_of_le (by omega) (by omega)
    rw [if_neg hshort, hsub, if_pos (by omega), receive, Blowfish.decryptString,
      Blowfish.decryptBlocks_eq_map, List.append_assoc]
    congr 3
    rw [List.length_append, Blocks.length_map hblock, List.length_take]
    congr 1
    omega

/-! ## A datagram -/

namespace AuthIa

/-- The address is not in use by another user. -/
def Free (s : AuthIa) (sip : IP) (user : UserId) : Prop :=
  match s.ip2user.lookup sip with
  | none => s.users.ipIndex sip = none ∨ s.users.ipIndex sip = some user
  | some e => user = e.user

/-- `RecvData` and `PacketProcessor` as far as they touch the array; `none` where they touch something
else. -/
def decode (io : IaEnv) (sip : IP) (sport : BitVec 16) (datagram buffer : List Byte) (s : AuthIa) :
    Option (List Byte) :=
  let data := datagram.take iaBufferSize
  let buffer := receive data buffer
  if data.length = 0 then some buffer
  else if data.length > 256 then some buffer
  else
    (checkedHeader buffer).bind fun header =>
      match header with
      | none => some buffer
      | some protoVer =>
        (decryptFrom ctxS buffer ((passwdLen + 7) / 8) 8).bind fun login =>
          match s.users.loginIndex (bytesText (cstr login)) with
          | none => some buffer
          | some user =>
            let u := s.users.users user
            if u.disabled ≠ 0 then some buffer
            else if u.passive ≠ 0 then some buffer
            else if u.ips.find io.env.shifted sip = false then some buffer
            else
              match (s.findSession io sip sport protoVer user).2 with
              | none => some buffer
              | some e => decryptInPlace (e.renew (io.password user)).ctx data.length buffer

/-- The datagram comes to the decryption of its rest: it is admitted, and its address is not in use by
another user. -/
def Decrypts (s : AuthIa) (io : IaEnv) (sip : IP) (datagram buffer : List Byte) : Prop :=
  ∃ protoVer user, s.Admitted io sip (datagram.take iaBufferSize) buffer protoVer user ∧ s.Free sip user

/-- **The decoding stays inside**: where the forty bytes are taken from the length of the datagram, it
is not shorter; and only bytes of the array are touched. -/
structure StaysInside (io : IaEnv) (sip : IP) (sport : BitVec 16) (datagram buffer : List Byte)
    (s : AuthIa) : Prop where
  noUnderflow : s.Decrypts io sip datagram buffer → iaOffset ≤ datagram.length
  inside : s.decode io sip sport datagram buffer ≠ none

/-- What is received leaves the array as large as it is. -/
theorem length_receive {data buffer : List Byte} (h : data.length ≤ buffer.length) :
    (receive data buffer).length = buffer.length := by
  rw [receive, List.length_append, List.length_drop]
  omega

/-- There is a session for the user iff the address is free. -/
theorem findSession_isSome_iff (io : IaEnv) (sip : IP) (sport : BitVec 16) (protoVer : ℤ)
    (user : UserId) (s : AuthIa) :
    (∃ e, (s.findSession io sip sport protoVer user).2 = some e) ↔ s.Free sip user := by
  unfold findSession Free
  cases s.ip2user.lookup sip with
  | none =>
    cases hi : s.users.ipIndex sip with
    | none => simp
    | some holder =>
      by_cases hholder : holder = user
      · simp [hholder]
      · simp [hholder]
  | some e =>
    by_cases huser : user = e.user
    · simp [huser]
    · simp [huser]

/-- What is received leaves the array of the thread as large as it is. -/
theorem length_receive_take (datagram : List Byte) (buffer : IaBuffer) :
    (receive (datagram.take iaBufferSize) buffer.1).length = iaBufferSize := by
  rw [length_receive, buffer.2]
  rw [buffer.2]
  exact List.length_take_le _ _

/-- **The accesses of `RecvData`.** Where `RecvData` comes to its end, the array is what the checked
accesses leave behind; where one of these fails, `RecvData` has no result. -/
theorem decode_of_recvData {io : IaEnv} {sip : IP} {sport : BitVec 16} {datagram buffer' : List Byte}
    {buffer : IaBuffer} {s s' : AuthIa}
    (h : s.recvData io sip sport datagram buffer.1 = some (s', buffer')) :
    s.decode io sip sport datagram buffer.1 = some buffer' := by
  have hsize := length_receive_take datagram buffer
  have hbig : iaBufferSize = 512 := rfl
  have hpasswd : passwdLen = 32 := rfl
  unfold recvData at h
  unfold decode
  generalize datagram.take iaBufferSize = data at h hsize ⊢
  dsimp only at h ⊢
  split_ifs at h ⊢ with hempty hlong
  · exact congrArg some (congrArg Prod.snd (Option.some.inj h))
  · exact congrArg some (congrArg Prod.snd (Option.some.inj h))
  rw [checkedHeader_eq_some (by omega), Option.bind_some]
  cases hheader : checkHeader (receive data buffer.1) with
  | none =>
    rw [hheader] at h
    exact congrArg some (congrArg Prod.snd (Option.some.inj h))
  | some protoVer =>
    simp only [hheader] at h ⊢
    rw [decryptFrom_eq_some ctxS _ (by omega), Option.bind_some]
    change (match s.users.loginIndex (readLogin (receive data buffer.1)) with
      | none => _
      | some user => _) = _
    cases hlogin : s.users.loginIndex (readLogin (receive data buffer.1)) with
    | none =>
      rw [hlogin] at h
      exact congrArg some (congrArg Prod.snd (Option.some.inj h))
    | some user =>
      simp only [hlogin] at h ⊢
      split_ifs at h ⊢
      · exact congrArg some (congrArg Prod.snd (Option.some.inj h))
      · exact congrArg some (congrArg Prod.snd (Option.some.inj h))
      · exact congrArg some (congrArg Prod.snd (Option.some.inj h))
      · unfold packetProcessor at h
        rcases hsession : s.findSession io sip sport protoVer user with ⟨s₀, _ | e⟩
        · rw [hsession] at h
          exact congrArg some (congrArg Prod.snd (Option.some.inj h))
        · simp only [hsession] at h ⊢
          have heq := decryptInPlace_eq (e.renew (io.password user)).ctx (not_lt.1 hlong)
            ⟨receive data buffer.1, hsize⟩
          rw [heq]
          cases hplain : decryptPayload (e.renew (io.password user)).ctx data.length
              (receive data buffer.1) with
          | none =>
            rw [hplain] at h
            cases h
          | some plain =>
            rw [hplain] at h
            obtain ⟨s₁, -, hs₁⟩ := Option.map_eq_some_iff.1 h
            exact congrArg some (congrArg Prod.snd hs₁)

/-- **What a datagram makes of the array**, if it is not empty and not too long: it is decrypted in
place if it comes to that, and it is left as it is otherwise.

**Proof sketch.** The array has room for the header and the login, so nothing before the decryption in
place fails. -/
theorem decode_cases (io : IaEnv) (sip : IP) (sport : BitVec 16) (datagram : List Byte)
    (buffer : IaBuffer) (s : AuthIa) :
    s.Decrypts io sip datagram buffer.1 ∧
        (∃ ctx, s.decode io sip sport datagram buffer.1 =
          decryptPayload ctx (datagram.take iaBufferSize).length
            (receive (datagram.take iaBufferSize) buffer.1)) ∨
      ¬ s.Decrypts io sip datagram buffer.1 ∧
        s.decode io sip sport datagram buffer.1 =
          some (receive (datagram.take iaBufferSize) buffer.1) := by
  have hsize := length_receive_take datagram buffer
  have hbig : iaBufferSize = 512 := rfl
  have hpasswd : passwdLen = 32 := rfl
  unfold decode Decrypts
  generalize datagram.take iaBufferSize = data at hsize ⊢
  dsimp only
  by_cases hempty : data.length = 0
  · rw [if_pos hempty]
    exact .inr ⟨fun ⟨_, _, h, _⟩ => h.length_ne hempty, rfl⟩
  rw [if_neg hempty]
  by_cases hlong : data.length > 256
  · rw [if_pos hlong]
    exact .inr ⟨fun ⟨_, _, h, _⟩ => absurd h.length_le (not_le.2 hlong), rfl⟩
  rw [if_neg hlong, checkedHeader_eq_some (by omega), Option.bind_some]
  cases hheader : checkHeader (receive data buffer.1) with
  | none => exact .inr ⟨fun ⟨_, _, h, _⟩ => by simp [h.header] at hheader, rfl⟩
  | some protoVer =>
    simp only []
    rw [decryptFrom_eq_some ctxS _ (by omega), Option.bind_some]
    have hread : bytesText (cstr (Blowfish.decryptBlocks ctxS ((passwdLen + 7) / 8)
        ((receive data buffer.1).drop 8))) = readLogin (receive data buffer.1) := rfl
    rw [hread]
    cases hlogin : s.users.loginIndex (readLogin (receive data buffer.1)) with
    | none => exact .inr ⟨fun ⟨_, _, h, _⟩ => by simp [h.login] at hlogin, rfl⟩
    | some user =>
      have huser {protoVer' : ℤ} {user' : UserId} (h : s.Admitted io sip data buffer.1 protoVer' user') :
          user' = user := Option.some.inj (h.login.symm.trans hlogin)
      simp only []
      split_ifs with hdisabled hpassive hips
      · refine .inr ⟨?_, rfl⟩
        rintro ⟨_, _, h, -⟩
        obtain rfl := huser h
        exact hdisabled h.disabled
      · refine .inr ⟨?_, rfl⟩
        rintro ⟨_, _, h, -⟩
        obtain rfl := huser h
        exact hpassive h.passive
      · refine .inr ⟨?_, rfl⟩
        rintro ⟨_, _, h, -⟩
        obtain rfl := huser h
        rw [h.ips] at hips
        cases hips
      · have hfree := findSession_isSome_iff io sip sport protoVer user s
        cases hsession : (s.findSession io sip sport protoVer user).2 with
        | none =>
          refine .inr ⟨?_, rfl⟩
          rintro ⟨_, _, h, hf⟩
          obtain rfl := huser h
          obtain ⟨e, he⟩ := hfree.2 hf
          rw [hsession] at he
          cases he
        | some e =>
          refine .inl ⟨⟨protoVer, user, ⟨hempty, not_lt.1 hlong, hheader, hlogin, not_not.1 hdisabled,
            not_not.1 hpassive, by simpa using hips⟩, hfree.1 ⟨e, hsession⟩⟩,
            (e.renew (io.password user)).ctx, ?_⟩
          exact decryptInPlace_eq _ (not_lt.1 hlong) ⟨receive data buffer.1, hsize⟩

/-- **The datagrams that make no access outside of the array**: those of at least forty bytes, and
those that do not come to the decryption of their rest. -/
theorem staysInside_iff (io : IaEnv) (sip : IP) (sport : BitVec 16) (datagram : List Byte)
    (buffer : IaBuffer) (s : AuthIa) :
    s.StaysInside io sip sport datagram buffer.1 ↔
      iaOffset ≤ datagram.length ∨ ¬ s.Decrypts io sip datagram buffer.1 := by
  constructor
  · intro h
    by_cases hd : s.Decrypts io sip datagram buffer.1
    · exact .inl (h.noUnderflow hd)
    · exact .inr hd
  · intro h
    refine ⟨fun hd => h.resolve_right (not_not.2 hd), ?_⟩
    rcases decode_cases io sip sport datagram buffer s with ⟨hd, ctx, heq⟩ | ⟨-, heq⟩
    · have hlen := h.resolve_right (not_not.2 hd)
      have htake : iaOffset ≤ (datagram.take iaBufferSize).length := by
        rw [List.length_take]
        exact le_min (by decide) hlen
      obtain ⟨plain, hplain⟩ :=
        exists_decryptPayload ctx htake (receive (datagram.take iaBufferSize) buffer.1)
      rw [heq, hplain]
      exact nofun
    · rw [heq]
      exact nofun

section Leftover

variable (first v8 : Bool) (type : PacketType) (dirs : BitVec 32) (buffer : List Byte)

/-- One byte does not change what a datagram of a sample user has left in the array. -/
theorem receive_iaBuffer :
    receive ([48].take iaBufferSize) (Sample.iaBuffer first v8 type dirs buffer) =
      Sample.iaBuffer first v8 type dirs buffer := rfl

/-- Nor does a header with its login. -/
theorem receive_header_iaBuffer :
    receive (iaDatagram (Sample.iaPacket first v8 type dirs).ver
        (Sample.iaPacket first v8 type dirs).login ctxS [])
        (Sample.iaBuffer first v8 type dirs buffer) =
      Sample.iaBuffer first v8 type dirs buffer := by
  have hdata : iaDatagram (Sample.iaPacket first v8 type dirs).ver
      (Sample.iaPacket first v8 type dirs).login ctxS [] =
      iaHeader (Sample.iaPacket first v8 type dirs).ver (Sample.iaPacket first v8 type dirs).login :=
    List.append_nil _
  rw [hdata, receive, Sample.iaBuffer, List.drop_left]

theorem length_iaBuffer (h : buffer.length = iaBufferSize) :
    (Sample.iaBuffer first v8 type dirs buffer).length = iaBufferSize := by
  have hoffset : iaOffset = 40 := rfl
  have hbig : iaBufferSize = 512 := rfl
  rw [Sample.iaBuffer, List.length_append, List.length_append, List.length_drop,
    length_iaHeader _ (Sample.iaPacket first v8 type dirs).login_le, ClientPacket.length_text]
  omega

end Leftover

/-- **One byte behind a datagram**: the first user asks for a connection, and then a datagram of one
byte arrives.  Header and login are still in the array, and the rest is decrypted, with a length of
almost `2 ^ 64`. -/
theorem one_byte_runs_outside :
    ∃ (t : IaRun) (buffer : IaBuffer),
      Transition.Runs IaRun.step Sample.iaRun [Sample.iaSends 0 7 true false .connSyn 0] t ∧
      t.buffer = buffer.1 ∧ ¬ t.ia.StaysInside (Sample.iaEnv 1) 7 0 [48] buffer.1 := by
  have hrun := Sample.reaches_iaSends 0 7 true false .connSyn 0 Sample.runs_nil trivial
    rfl ⟨rfl, rfl, rfl⟩ rfl
  refine ⟨_, ⟨Sample.iaBuffer true false .connSyn 0 Sample.iaRun.buffer, length_iaBuffer _ _ _ _ _
    List.length_replicate⟩, hrun, rfl, fun h => ?_⟩
  have hlen := h.noUnderflow ⟨6, 0, ⟨by decide, by decide, ?_, ?_, rfl, rfl, rfl⟩, rfl⟩
  · exact absurd hlen (by decide)
  · rw [receive_iaBuffer, ← receive_header_iaBuffer]
    exact checkHeader_iaDatagram _ (Sample.iaPacket true false .connSyn 0).ver_ge _
  · rw [receive_iaBuffer, ← receive_header_iaBuffer,
      readLogin_iaDatagram _ _ (Sample.iaPacket true false .connSyn 0).login_le
        (Sample.iaPacket true false .connSyn 0).login_zero]
    exact Sample.loginIndex_iaPacket true false .connSyn 0

end AuthIa

end Stargazer
