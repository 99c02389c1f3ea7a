import Stargazer.RScript.Listener
import Stargazer.Users.UserIPs

set_option relaxedAutoImplicit false
set_option autoImplicit false

/-!
# The datagrams of the remote script

The bytes `REMOTE_SCRIPT::PreparePacket` (`rscript.cpp`) puts into its buffer, and how
`LISTENER::RecvPacket` (`rscriptd/listener.cpp`) reads them.  Server and listener are different
programs, with their own calls of the cipher: the server encrypts the words of the tail in place,
the listener decrypts it as a string.  Both are on machines with the low byte of a word first.

## Main definitions

* `Stargazer.RSUser.packetHead`, `Stargazer.RSUser.packetTail`, `Stargazer.RSUser.packetBytes` — the
  structures and the buffer of the server.
* `Stargazer.Listener.checkHeader`, `Stargazer.Listener.getParams`,
  `Stargazer.Listener.recvDatagram` — how the listener reads a datagram.

## Main results

* `Stargazer.RSEnv.exists_params_eq` — the parameters are those before the first one that is
  refused, none of them cut.
* `Stargazer.Listener.recvDatagram_packetBytes` — the listener reads what the server has written.
-/

namespace Stargazer

/-- `RS_MAX_PACKET_LEN`. -/
abbrev rsMaxPacketLen : ℕ := 1048

/-- `sizeof(PACKET_HEADER)`. -/
abbrev rsHeaderLen : ℕ := 56

/-- `sizeof(PACKET_TAIL)`. -/
abbrev rsTailLen : ℕ := 992

/-! ## The C library -/

/-- `strncpy` into an array of `n` bytes whose last byte is then set to zero. -/
def terminated (n : ℕ) (s : List Byte) : List Byte :=
  (((cstr s).take n).rightpad n 0).set (n - 1) 0

/-- `strncmp`, whether its result is zero. -/
def strncmpEq (a b : List Byte) (n : ℕ) : Bool := cstr (a.take n) = cstr (b.take n)

theorem length_terminated (n : ℕ) (s : List Byte) : (terminated n s).length = n := by
  rw [terminated, List.length_set, List.rightpad, List.length_append, List.length_replicate]
  have := List.length_take_le n (cstr s)
  omega

theorem notMem_cstr (l : List Byte) : 0 ∉ cstr l := by
  intro h
  simpa using List.mem_takeWhile_imp h

/-- What is read from such an array. -/
theorem cstr_terminated {n : ℕ} (hn : 0 < n) (s l : List Byte) :
    cstr (terminated n s ++ l) = (cstr s).take (n - 1) := by
  have hzero : 0 ∉ (cstr s).take (n - 1) := fun h => notMem_cstr s (List.mem_of_mem_take h)
  obtain ⟨rest, hrest⟩ : ∃ rest, terminated n s = (cstr s).take (n - 1) ++ 0 :: rest := by
    obtain ⟨m, rfl⟩ : ∃ m, n = m + 1 := ⟨n - 1, by omega⟩
    rw [terminated, Nat.add_sub_cancel]
    rcases le_or_gt (cstr s).length m with hlen | hlen
    · -- the array is filled up with zeros, and its last byte is one of them
      refine ⟨List.replicate (m - (cstr s).length) 0, ?_⟩
      rw [List.take_of_length_le (by omega), List.take_of_length_le hlen, List.rightpad,
        List.set_append_right _ _ hlen]
      have hrep : m + 1 - (cstr s).length = (m - (cstr s).length) + 1 := by omega
      rw [hrep, ← List.replicate_succ, List.set_replicate_self]
    · -- the array is full, and its last byte is cut
      have htake : ((cstr s).take (m + 1)).length = m + 1 := by
        rw [List.length_take]
        omega
      refine ⟨[], ?_⟩
      rw [List.rightpad, htake, Nat.sub_self, List.replicate_zero, List.append_nil,
        List.take_succ_eq_append_getElem hlen, List.set_append_right _ _ (by simp)]
      have hmin : min m (cstr s).length = m := by omega
      simp [hmin]
  rw [hrest, List.append_assoc, cstr_append_of_notMem hzero, List.cons_append, cstr_zero_cons,
    List.append_nil]

/-! ## The server -/

/-- `RS_ID`, with its final zero. -/
def rsId : List Byte := textBytes "RSP00" ++ [0]

/-- The number of a kind of datagrams. -/
def RSPacketType.code : RSPacketType → Byte
  | .alive => 0
  | .connect => 1
  | .disconnect => 2

/-- `InitEncrypt`, the same in both programs. -/
def rsInitEncrypt (password : List Byte) : BlowfishCtx :=
  Blowfish.init (Blowfish.strncpyKey password passwdLen)

/-- `REMOTE_SCRIPT::Encrypt` on a machine with the low byte of a word first. -/
def rsEncrypt (ctx : BlowfishCtx) : ℕ → List Byte → List Byte
  | 0, _ => []
  | n + 1, src =>
    Blowfish.onBlock (Blowfish.encrypt ctx) (src.take 8) ++ rsEncrypt ctx n (src.drop 8)

namespace RSUser

/-- `PACKET_HEADER` as `PreparePacket` fills it. -/
def packetHead (env : RSEnv) (rsu : RSUser) (forceDisconnect : Bool) : List Byte :=
  rsId ++ (textBytes "02" ++ ((rsu.packetType env forceDisconnect).code ::
    (Blowfish.block2bytes (htonl rsu.ip) ++ (Blowfish.block2bytes (htonl (env.id rsu.user)) ++
      (terminated rsLoginLen (textBytes (env.login rsu.user)) ++ List.replicate 7 0)))))

/-- `PACKET_TAIL` as `PreparePacket` fills it. -/
def packetTail (env : RSEnv) (rsu : RSUser) : List Byte :=
  rsId ++ (terminated rsParamsLen (env.paramsLoop rsu.user env.userParams []) ++
    List.replicate 7 0)

/-- The buffer after `REMOTE_SCRIPT::PreparePacket`; a short packet has only a header. -/
def packetBytes (env : RSEnv) (rsu : RSUser) (forceDisconnect : Bool) (ctx : BlowfishCtx)
    (buf : List Byte) : List Byte :=
  rsu.packetHead env forceDisconnect ++
    if rsu.packetType env forceDisconnect = .alive then buf.drop rsHeaderLen
    else rsEncrypt ctx (rsTailLen / 8) (rsu.packetTail env) ++ buf.drop (rsHeaderLen + rsTailLen)

end RSUser

/-! ## The listener -/

namespace Listener

/-- `LISTENER::CheckHeader`, `true` for a header that is refused. -/
def checkHeader (head : List Byte) : Bool :=
  if !strncmpEq head rsId 6 then true
  else !strncmpEq (head.drop 6) (textBytes "02") 2

/-- `LISTENER::GetParams`: the arguments of the scripts, or `none` if it fails. -/
def getParams (ctx : BlowfishCtx) (buffer login : List Byte) (ip : IP) (id : BitVec 32) :
    Option (List Byte) :=
  let packetTail := Blowfish.decryptString ctx buffer rsTailLen
  if !strncmpEq packetTail rsId 6 then none
  else some (textBytes "\"" ++ login ++ textBytes "\" " ++ textBytes (inetNtoString ip) ++
    textBytes " " ++ textBytes (toString id.toNat) ++ textBytes " " ++ cstr (packetTail.drop 6))

/-- The logins are strings. -/
theorem notMem_map_cstr (l : List Byte) : 0 ∉ (cstr l).map BitVec.toNat := by
  intro h
  obtain ⟨b, hb, hzero⟩ := List.mem_map.mp h
  have : b = 0 := BitVec.eq_of_toNat_eq hzero
  exact notMem_cstr l (this ▸ hb)

/-- What is queued about the user whose login is in an array. -/
def queue (login : List Byte) (ip : IP) (id : BitVec 32) (type : RSPacketType)
    (params : List Byte) : PendingData :=
  ⟨type, ⟨(cstr login).map BitVec.toNat, ip, id, params⟩, notMem_map_cstr login⟩

/-- `LISTENER::RecvPacket` for one datagram: what is queued.  After a datagram that is too short it
waits for more. -/
def recvDatagram (ctx : BlowfishCtx) (datagram : List Byte) : Option PendingData :=
  let packetHead := datagram.take rsHeaderLen
  let buffer := datagram.drop rsHeaderLen
  if datagram.length < rsMaxPacketLen then none
  else if checkHeader packetHead then none
  else
    let login := packetHead.drop 17
    let ip := htonl (Blowfish.bytes2block (packetHead.drop 9))
    let id := htonl (Blowfish.bytes2block (packetHead.drop 13))
    let packetType := packetHead.getD 8 0
    if packetType = RSPacketType.alive.code then some (queue login ip id .alive [])
    else if packetType = RSPacketType.connect.code then
      (getParams ctx buffer (cstr login) ip id).map (queue login ip id .connect)
    else if packetType = RSPacketType.disconnect.code then
      (getParams ctx buffer (cstr login) ip id).map (queue login ip id .disconnect)
    else none

end Listener

/-! ## Reading what was written -/

/-- The server encrypts block by block. -/
theorem rsEncrypt_eq_map (ctx : BlowfishCtx) (n : ℕ) (src : List Byte) :
    rsEncrypt ctx n src = Blocks.map 8 (Blowfish.encryptBlock ctx) n src := by
  induction n generalizing src with
  | zero => rfl
  | succ n ih =>
    rw [rsEncrypt, ih, Blocks.map_succ]
    rfl

/-- **The listener decrypts what the server has encrypted.** -/
theorem decryptString_rsEncrypt (ctx : BlowfishCtx) (n : ℕ) {src : List Byte}
    (h : src.length = 8 * n) (l : List Byte) :
    Blowfish.decryptString ctx (rsEncrypt ctx n src ++ l) (8 * n) = src := by
  have hlen : (Blocks.map 8 (Blowfish.encryptBlock ctx) n src).length = 8 * n :=
    Blocks.length_map (Blowfish.length_encryptBlock ctx) n src
  rw [rsEncrypt_eq_map, Blowfish.decryptString_eq_map, Blocks.map_append_of_le _ _ _ hlen.ge]
  exact Blocks.map_map_of_inverse (Blowfish.length_encryptBlock ctx)
    (Blowfish.decryptBlock_encryptBlock ctx) n src h

namespace RSUser

variable (env : RSEnv) (rsu : RSUser) (forceDisconnect : Bool)

theorem length_packetHead : (rsu.packetHead env forceDisconnect).length = rsHeaderLen := by
  simp [packetHead, length_terminated, rsId, textBytes, rsLoginLen, rsHeaderLen]

theorem length_packetTail : (rsu.packetTail env).length = rsTailLen := by
  simp [packetTail, length_terminated, rsId, textBytes]

/-- The header starts with nine bytes. -/
theorem packetHead_eq : rsu.packetHead env forceDisconnect = 82 :: 83 :: 80 :: 48 :: 48 :: 0 ::
    48 :: 50 :: (rsu.packetType env forceDisconnect).code ::
    (Blowfish.block2bytes (htonl rsu.ip) ++ (Blowfish.block2bytes (htonl (env.id rsu.user)) ++
      (terminated rsLoginLen (textBytes (env.login rsu.user)) ++ List.replicate 7 0))) := rfl

/-- **The fields of the header** are read back. -/
theorem drop_packetHead (hzero : 0 ∉ textBytes (env.login rsu.user))
    (hlen : (env.login rsu.user).length < rsLoginLen) :
    Listener.checkHeader (rsu.packetHead env forceDisconnect) = false ∧
      (rsu.packetHead env forceDisconnect).getD 8 0 =
        (rsu.packetType env forceDisconnect).code ∧
      htonl (Blowfish.bytes2block ((rsu.packetHead env forceDisconnect).drop 9)) = rsu.ip ∧
      htonl (Blowfish.bytes2block ((rsu.packetHead env forceDisconnect).drop 13)) =
        env.id rsu.user ∧
      cstr ((rsu.packetHead env forceDisconnect).drop 17) = textBytes (env.login rsu.user) := by
  have hlogin : (textBytes (env.login rsu.user)).length ≤ rsLoginLen - 1 := by
    rw [textBytes, List.length_map, String.length_toList]
    omega
  have h13 : (rsu.packetHead env forceDisconnect).drop 13 =
      Blowfish.block2bytes (htonl (env.id rsu.user)) ++
        (terminated rsLoginLen (textBytes (env.login rsu.user)) ++ List.replicate 7 0) := by
    rw [packetHead_eq]
    exact List.drop_left' rfl
  have h17 : (rsu.packetHead env forceDisconnect).drop 17 =
      terminated rsLoginLen (textBytes (env.login rsu.user)) ++ List.replicate 7 0 := by
    rw [← List.drop_drop (i := 4) (j := 13), h13]
    exact List.drop_left' rfl
  refine ⟨?_, rfl, ?_, ?_, ?_⟩
  · rw [packetHead_eq]
    rfl
  · rw [packetHead_eq]
    simp only [List.drop_succ_cons, List.drop_zero, Blowfish.bytes2block_block2bytes, htonl_htonl]
  · rw [h13, Blowfish.bytes2block_block2bytes, htonl_htonl]
  · rw [h17, cstr_terminated (by decide), cstr_of_notMem hzero, List.take_of_length_le hlogin]

end RSUser

/-! ## The parameters -/

namespace RSEnv

/-- The values of some parameters, each with a blank behind it. -/
def joined (values : List (List Byte)) : List Byte := values.flatMap fun v => v ++ textBytes " "

/-- How many of the values are taken: those before the first one that the length check refuses. -/
def Taken (values : List (List Byte)) (k : ℕ) : Prop :=
  k ≤ values.length ∧
    (∀ i < k, ∀ v, values[i]? = some v →
      (joined (values.take i)).length + v.length ≤ rsParamsLen - 1) ∧
    ∀ v, values[k]? = some v → rsParamsLen - 1 < (joined (values.take k)).length + v.length

/-- The loop over the parameters, started with some of them. -/
theorem exists_paramsLoop_eq (env : RSEnv) (u : UserId) (names : List String)
    (acc : List (List Byte)) :
    ∃ k, k ≤ names.length ∧
      env.paramsLoop u names (joined acc) =
        joined (acc ++ (names.map (env.paramValue u)).take k) ∧
      (∀ i < k, ∀ v, (names.map (env.paramValue u))[i]? = some v →
        (joined (acc ++ (names.map (env.paramValue u)).take i)).length + v.length ≤
          rsParamsLen - 1) ∧
      ∀ v, (names.map (env.paramValue u))[k]? = some v →
        rsParamsLen - 1 <
          (joined (acc ++ (names.map (env.paramValue u)).take k)).length + v.length := by
  induction names generalizing acc with
  | nil => exact ⟨0, le_rfl, by simp [paramsLoop], by simp, by simp⟩
  | cons name names ih =>
    by_cases hlong : (joined acc).length + (env.paramValue u name).length > rsParamsLen - 1
    · refine ⟨0, Nat.zero_le _, ?_, by simp, ?_⟩
      · rw [paramsLoop, if_pos hlong, List.take_zero, List.append_nil]
      · rintro v hv
        obtain rfl : env.paramValue u name = v := by simpa using hv
        simpa using hlong
    · have hacc : joined acc ++ env.paramValue u name ++ textBytes " " =
          joined (acc ++ [env.paramValue u name]) := by
        simp [joined]
      obtain ⟨k, hk, heq, hok, hstop⟩ := ih (acc ++ [env.paramValue u name])
      simp only [List.append_assoc, List.singleton_append] at heq hok hstop
      refine ⟨k + 1, Nat.succ_le_succ hk, ?_, ?_, ?_⟩
      · rw [paramsLoop, if_neg hlong, hacc, heq, List.map_cons, List.take_succ_cons]
      · rintro (_ | i) hi v hv
        · obtain rfl : env.paramValue u name = v := by simpa using hv
          simpa using hlong
        · exact hok i (by omega) v hv
      · exact hstop

/-- The text is empty, or fits its array but for the blank at its end. -/
theorem joined_take_eq {values : List (List Byte)} {k : ℕ} (h : Taken values k) :
    joined (values.take k) = [] ∨
      ∃ t, joined (values.take k) = t ++ textBytes " " ∧ t.length ≤ rsParamsLen - 1 := by
  cases k with
  | zero => exact .inl rfl
  | succ k =>
    obtain ⟨v, hv⟩ : ∃ v, values[k]? = some v :=
      ⟨_, List.getElem?_eq_getElem (by have := h.1; omega)⟩
    have hlen := h.2.1 k (Nat.lt_succ_self k) v hv
    refine .inr ⟨joined (values.take k) ++ v, ?_, by rwa [List.length_append]⟩
    rw [List.take_add_one, hv]
    simp [joined]

/-- **The parameters that are sent** are the values before the first one that is refused, none of
them cut; at most the blank at the end is missing. -/
theorem exists_params_eq (env : RSEnv) (u : UserId)
    (hvalues : ∀ name ∈ env.userParams, 0 ∉ env.paramValue u name) :
    ∃ k blank, Taken (env.userParams.map (env.paramValue u)) k ∧
      (blank = [] ∨ blank = textBytes " ") ∧
      env.params u ++ blank = joined ((env.userParams.map (env.paramValue u)).take k) := by
  obtain ⟨k, hk, heq, hok, hstop⟩ := exists_paramsLoop_eq env u env.userParams []
  simp only [List.nil_append] at heq hok hstop
  generalize hvals : env.userParams.map (env.paramValue u) = values at heq hok hstop
  have htaken : Taken values k := ⟨by rw [← hvals, List.length_map]; exact hk, hok, hstop⟩
  have hzero : 0 ∉ joined (values.take k) := by
    intro hc
    obtain ⟨v, hv, hmem⟩ := List.mem_flatMap.mp hc
    rcases List.mem_append.mp hmem with hmem | hmem
    · obtain ⟨name, hname, rfl⟩ := List.mem_map.mp (hvals ▸ List.mem_of_mem_take hv)
      exact hvalues name hname hmem
    · exact absurd hmem (by decide)
  have hparams : env.params u = (joined (values.take k)).take (rsParamsLen - 1) := by
    have hloop : env.paramsLoop u env.userParams [] = joined (values.take k) := heq
    rw [params, hloop]
    exact cstr_of_notMem fun hc => hzero (List.mem_of_mem_take hc)
  rw [hparams]
  rcases joined_take_eq htaken with hnil | ⟨t, ht, hlen⟩
  · refine ⟨k, [], htaken, .inl rfl, ?_⟩
    rw [hnil, List.take_nil, List.append_nil]
  · rw [ht]
    rcases Nat.lt_or_ge t.length (rsParamsLen - 1) with hshort | hfull
    · refine ⟨k, [], htaken, .inl rfl, ?_⟩
      have hblank : (textBytes " ").length = 1 := rfl
      rw [List.append_nil, ht, List.take_of_length_le (by rw [List.length_append]; omega)]
    · refine ⟨k, textBytes " ", htaken, .inr rfl, ?_⟩
      rw [ht, List.take_left' (by omega)]

end RSEnv

namespace Listener

/-- What the listener puts before the parameters. -/
def paramsHead (env : RSEnv) (rsu : RSUser) : List Byte :=
  textBytes "\"" ++ textBytes (env.login rsu.user) ++ textBytes "\" " ++
    textBytes (inetNtoString rsu.ip) ++ textBytes " " ++
    textBytes (toString (env.id rsu.user).toNat) ++ textBytes " "

/-- The tail of a datagram is read back. -/
theorem getParams_packetTail (env : RSEnv) (rsu : RSUser) (ctx : BlowfishCtx) (l : List Byte) :
    getParams ctx (rsEncrypt ctx (rsTailLen / 8) (rsu.packetTail env) ++ l)
        (textBytes (env.login rsu.user)) rsu.ip (env.id rsu.user) =
      some (paramsHead env rsu ++ env.params rsu.user) := by
  have htail : Blowfish.decryptString ctx
      (rsEncrypt ctx (rsTailLen / 8) (rsu.packetTail env) ++ l) rsTailLen = rsu.packetTail env :=
    decryptString_rsEncrypt ctx (rsTailLen / 8) (rsu.length_packetTail env) l
  have hid : rsId.length = 6 := rfl
  have hmagic : strncmpEq (rsu.packetTail env) rsId 6 = true := by
    rw [strncmpEq, RSUser.packetTail, List.take_left' hid]
    rfl
  have hparams : cstr ((rsu.packetTail env).drop 6) = env.params rsu.user := by
    rw [RSUser.packetTail, List.drop_left' hid, cstr_terminated (by decide), RSEnv.params]
    exact List.take_takeWhile
  simp only [getParams, htail, hmagic, hparams, Bool.not_true, Bool.false_eq_true, if_false]
  rfl

/-- **The listener reads what the server has written**, whatever was in the buffer before: the kind,
the login, the address and the identifier, and the arguments of the scripts. -/
theorem recvDatagram_packetBytes (env : RSEnv) (rsu : RSUser) (forceDisconnect : Bool)
    (ctx : BlowfishCtx) {buf : List Byte} (hbuf : buf.length = rsMaxPacketLen)
    (hzero : 0 ∉ textBytes (env.login rsu.user))
    (hlen : (env.login rsu.user).length < rsLoginLen) :
    recvDatagram ctx (rsu.packetBytes env forceDisconnect ctx buf) =
      some (queue (textBytes (env.login rsu.user)) rsu.ip (env.id rsu.user)
        (rsu.packetType env forceDisconnect)
        (if rsu.packetType env forceDisconnect = .alive then []
          else paramsHead env rsu ++ env.params rsu.user)) := by
  obtain ⟨hheader, htype, hip, hid, hlogin⟩ := rsu.drop_packetHead env forceDisconnect hzero hlen
  have hhead := rsu.length_packetHead env forceDisconnect
  have htake : (rsu.packetBytes env forceDisconnect ctx buf).take rsHeaderLen =
      rsu.packetHead env forceDisconnect := List.take_left' hhead
  have hdrop : (rsu.packetBytes env forceDisconnect ctx buf).drop rsHeaderLen =
      if rsu.packetType env forceDisconnect = .alive then buf.drop rsHeaderLen
      else rsEncrypt ctx (rsTailLen / 8) (rsu.packetTail env) ++
        buf.drop (rsHeaderLen + rsTailLen) := List.drop_left' hhead
  have hlength : ¬ (rsu.packetBytes env forceDisconnect ctx buf).length < rsMaxPacketLen := by
    have hsum : rsHeaderLen + rsTailLen = rsMaxPacketLen := rfl
    have hblocks : 8 * (rsTailLen / 8) = rsTailLen := rfl
    rw [RSUser.packetBytes, List.length_append, hhead]
    split_ifs
    · rw [List.length_drop]
      omega
    · rw [List.length_append, rsEncrypt_eq_map,
        Blocks.length_map (Blowfish.length_encryptBlock ctx)]
      omega
  have hparams := getParams_packetTail env rsu ctx (buf.drop (rsHeaderLen + rsTailLen))
  have hqueue : queue ((rsu.packetHead env forceDisconnect).drop 17) =
      queue (textBytes (env.login rsu.user)) := by
    funext ip id type params
    have hlogin' := hlogin.trans (cstr_of_notMem hzero).symm
    simp only [queue, hlogin']
  simp only [recvDatagram, htake, hdrop, if_neg hlength, hheader, htype, hip, hid, hlogin, hqueue,
    Bool.false_eq_true, if_false]
  generalize rsEncrypt ctx (rsTailLen / 8) (rsu.packetTail env) ++
    buf.drop (rsHeaderLen + rsTailLen) = tail at hparams ⊢
  cases rsu.packetType env forceDisconnect with
  | alive => rfl
  | connect =>
    rw [if_neg (by decide), if_pos rfl, if_neg (by decide), hparams]
    rfl
  | disconnect =>
    rw [if_neg (by decide), if_neg (by decide), if_pos rfl, if_neg (by decide), hparams]
    rfl

/-- **The datagrams of the remote script**: for every login of at most 31 characters, every address,
identifier, list of values without zeros and password, the datagram of the server is accepted by the
listener, which finds in it the kind, the login, the address and the identifier that were sent and,
in a long packet, the values before the first one the length check refuses, up to the blank at the
end. -/
theorem remote_script_codec (env : RSEnv) (rsu : RSUser) (forceDisconnect : Bool)
    (password : List Byte) (buf : List Byte) (hbuf : buf.length = rsMaxPacketLen)
    (hzero : 0 ∉ textBytes (env.login rsu.user))
    (hlen : (env.login rsu.user).length ≤ 31)
    (hvalues : ∀ name ∈ env.userParams, 0 ∉ env.paramValue rsu.user name) :
    checkHeader ((rsu.packetBytes env forceDisconnect (rsInitEncrypt password) buf).take
        rsHeaderLen) = false ∧
      ∃ p, recvDatagram (rsInitEncrypt password)
          (rsu.packetBytes env forceDisconnect (rsInitEncrypt password) buf) = some p ∧
        p.type = rsu.packetType env forceDisconnect ∧
        p.data.login = (textBytes (env.login rsu.user)).map BitVec.toNat ∧
        p.data.ip = rsu.ip ∧ p.data.id = env.id rsu.user ∧
        (p.type ≠ .alive → ∃ k t blank,
          p.data.params = paramsHead env rsu ++ t ∧ (blank = [] ∨ blank = textBytes " ") ∧
          RSEnv.Taken (env.userParams.map (env.paramValue rsu.user)) k ∧
          t ++ blank = RSEnv.joined ((env.userParams.map (env.paramValue rsu.user)).take k)) := by
  have hlen' : (env.login rsu.user).length < rsLoginLen := Nat.lt_succ_of_le hlen
  refine ⟨?_, _, recvDatagram_packetBytes env rsu forceDisconnect _ hbuf hzero hlen', rfl,
    congrArg _ (cstr_of_notMem hzero), rfl, rfl, fun hlong => ?_⟩
  · have hhead := rsu.length_packetHead env forceDisconnect
    rw [RSUser.packetBytes, List.take_left' hhead]
    exact (rsu.drop_packetHead env forceDisconnect hzero hlen').1
  · obtain ⟨k, blank, htaken, hblank, heq⟩ := env.exists_params_eq rsu.user hvalues
    exact ⟨k, env.params rsu.user, blank, if_neg hlong, hblank, htaken, heq⟩

namespace Sample

/-- A user whose one value fills the array. -/
def codecEnv : RSEnv where
  stgTime := 0
  inetable _ := true
  login _ := "joe"
  id _ := 7
  userParams := ["note"]
  paramValue _ _ := List.replicate 978 97

/-- The user with its counter at zero, so that a long packet is sent. -/
def codecUser : RSUser where
  user := 0
  routers := []
  ip := 0x0100007F

end Sample

/-- A value that fills the array arrives. -/
theorem remote_script_codec_full : ∃ p,
    recvDatagram (rsInitEncrypt (textBytes "secret")) (Sample.codecUser.packetBytes Sample.codecEnv
      false (rsInitEncrypt (textBytes "secret")) (List.replicate 1048 0)) = some p ∧
    p.type = .connect ∧ p.data.login = [106, 111, 101] ∧ p.data.ip = 0x0100007F ∧
    p.data.id = 7 := by
  obtain ⟨-, p, hp, htype, hlogin, hip, hid, -⟩ := remote_script_codec Sample.codecEnv
    Sample.codecUser false (textBytes "secret") (List.replicate 1048 0) List.length_replicate
    (by decide) (by decide) (fun _ _ h => absurd (List.eq_of_mem_replicate h) (by decide))
  exact ⟨p, hp, htype, hlogin, hip, hid⟩

end Listener

end Stargazer
