import Stargazer.Admins.AdminsImpl
import Stargazer.Config.Conn
import Stargazer.InetAccess.Packets

set_option relaxedAutoImplicit false
set_option autoImplicit false

/-!
# The handshake of an administrator

`NetTransact::Transact` of `libs/srvconf/netunit.cpp` against `Conn` of
`plugins/configuration/sgconfig/conn.cpp`.  The client sends a header, the login and the login in
encrypted form, and waits for an answer after each of them; the server reads each of the three in
as many pieces as it arrives in.

The two sides do not treat the encrypted login alike.  The client encrypts the login with its zero,
which gives as many whole blocks as it needs, and fills the rest of the 32 bytes with zeros that are
not encrypted; the server decrypts all 32 bytes, and compares up to the first zero.

## Main definitions

* `Stargazer.txLogin`, `Stargazer.txLoginS` — what the client sends.
* `Stargazer.Handshake`, `Stargazer.Handshake.step` — the two parties and the bytes between them.
* `Stargazer.Handshaking` — the states of a handshake that goes well.

## Main results

* `Stargazer.take_decryptString_txLoginS` — the server decrypts the login that was sent.
* `Stargazer.Handshaking.step` — what one step does.
* `Stargazer.handshake_completes` — every handshake with the right password comes to its end.
-/

namespace Stargazer

/-! ## What the client sends -/

/-- `NetTransact::TxLogin`. -/
def txLogin (login : List Byte) : List Byte :=
  ((cstr login).take admLoginLen).rightpad admLoginLen 0

/-- `NetTransact::TxLoginS`.  What is encrypted is read from a string that ends with a zero, and is
written to an array of zeros. -/
def txLoginS (login password : List Byte) : List Byte :=
  let ctx := Blowfish.initContext password passwdLen
  let loginZ := Blowfish.encryptString ctx (login ++ [0]) (min (login.length + 1) admLoginLen)
  loginZ.rightpad admLoginLen 0

/-- How far a client is in `NetTransact::Transact`. -/
inductive Transact
  | rxHeaderAnswer | rxLoginAnswer | rxLoginSAnswer | ready | failed
  deriving DecidableEq, Repr

/-! ## The two parties -/

/-- A connection, the bytes on their way to it, and a client. -/
structure Handshake where
  /-- The connection. -/
  conn : Conn
  /-- What has been sent and not been read. -/
  wire : List Byte
  /-- The client. -/
  client : Transact
  /-- The number of answers the client has read. -/
  answersRead : ℕ

/-- What can happen next. -/
inductive HandshakeMove
  /-- The server reads, when at most `n` bytes have arrived. -/
  | recv (n : ℕ)
  /-- The client reads an answer. -/
  | answer
  deriving DecidableEq, Repr

/-- `Conn::m_admins` in terms of the bytes of logins and passwords. -/
def AdminsImpl.connFind (a : AdminsImpl) (login : List Byte) : Option ConnAdmin :=
  (a.find (bytesText login)).map fun admin => ⟨textBytes admin.password⟩

namespace Handshake

/-- A new connection, to which the client has sent the header. -/
def start : Handshake := ⟨Conn.new, Conn.stgHeader, .rxHeaderAnswer, 0⟩

/-- What the client does with an answer: `RxHeaderAnswer`, `RxLoginAnswer` and `RxLoginSAnswer`,
each with what is sent after it. -/
def rxAnswer (login password : List Byte) (h : Handshake) (answer : String) : Handshake :=
  let h := { h with answersRead := h.answersRead + 1 }
  match h.client with
  | .rxHeaderAnswer =>
    if answer = "OKHD" then
      { h with client := .rxLoginAnswer, wire := h.wire ++ txLogin login }
    else
      { h with client := .failed }
  | .rxLoginAnswer =>
    if answer = "OKLG" then
      { h with client := .rxLoginSAnswer, wire := h.wire ++ txLoginS login password }
    else
      { h with client := .failed }
  | .rxLoginSAnswer =>
    if answer = "OKLS" then { h with client := .ready } else { h with client := .failed }
  | .ready | .failed => h

/-- One step.  The server reads while there is something to read and the connection is not at its
end; the client reads while it waits for an answer and there is one. -/
def step (env : ConnEnv) (login password : List Byte) (h : Handshake) :
    HandshakeMove → Option Handshake
  | .recv n =>
    if h.wire ≠ [] ∧ 0 < n ∧ h.conn.state ≠ .done ∧ h.conn.state ≠ .error then do
      let data := h.wire.take (min n h.conn.bufferSize)
      let conn ← h.conn.read env (some data)
      return { h with conn := conn, wire := h.wire.drop data.length }
    else
      none
  | .answer =>
    if h.client ≠ .ready ∧ h.client ≠ .failed then
      (h.conn.answers[h.answersRead]?).map (h.rxAnswer login password)
    else
      none

/-- The client goes on with `TxData`. -/
def txData (password text : List Byte) (h : Handshake) : Link :=
  ⟨h.conn, h.wire ++ Stargazer.txData password text⟩

end Handshake

/-! ## Texts and bytes -/

/-- The bytes of the text with given bytes. -/
@[simp] theorem textBytes_bytesText (l : List Byte) : textBytes (bytesText l) = l := by
  have hbyte (b : Byte) : BitVec.ofNat 8 (Char.ofNat b.toNat).toNat = b := by
    have hlt : b.toNat < 256 := b.isLt
    have hvalid : b.toNat.isValidChar := Or.inl (by omega)
    rw [Char.ofNat, dif_pos hvalid]
    change BitVec.ofNat 8 b.toNat = b
    rw [BitVec.ofNat_toNat, BitVec.setWidth_eq]
  rw [textBytes, bytesText, String.toList_ofList, List.map_map]
  calc l.map _ = l.map id := List.map_congr_left fun b _ => hbyte b
    _ = l := List.map_id l

/-- The list of administrators contains a login, with a password. -/
def AdminsImpl.Contains (a : AdminsImpl) (login password : List Byte) : Prop :=
  (∃ admin ∈ a.data, admin.login = bytesText login) ∧
    ∀ admin ∈ a.data, admin.login = bytesText login → admin.password = bytesText password

/-- The connection finds the password of a login on the list. -/
theorem AdminsImpl.connFind_of_contains {a : AdminsImpl} {login password : List Byte}
    (h : a.Contains login password) : a.connFind login = some ⟨password⟩ := by
  obtain ⟨⟨admin, hmem, hlogin⟩, hpassword⟩ := h
  have hne : a.data ≠ [] := List.ne_nil_of_mem hmem
  obtain ⟨found, hfound⟩ : ∃ found, a.findLogin (bytesText login) = some found := by
    apply Option.isSome_iff_exists.1
    rw [findLogin, List.find?_isSome]
    exact ⟨admin, hmem, by simpa using hlogin⟩
  have hlogin' : found.login = bytesText login := by simpa using List.find?_some hfound
  have hpassword' : found.password = bytesText password :=
    hpassword found (List.mem_of_find?_eq_some hfound) hlogin'
  rw [connFind, find, if_neg hne, hfound, Option.map_some, hpassword', textBytes_bytesText]

/-! ## The messages -/

/-- A login that fits into its array. -/
structure LoginFits (login : List Byte) : Prop where
  length_le : login.length ≤ 31
  zero_notMem : 0 ∉ login

section Messages

variable {login : List Byte} (password : List Byte)

/-- The login is sent with zeros after it. -/
theorem txLogin_eq (hl : LoginFits login) : txLogin login = login.rightpad admLoginLen 0 := by
  have h32 : admLoginLen = 32 := rfl
  rw [txLogin, cstr_of_notMem hl.zero_notMem,
    List.take_of_length_le (by have := hl.length_le; omega)]

@[simp] theorem length_txLogin (login : List Byte) : (txLogin login).length = admLoginLen := by
  rw [txLogin, List.rightpad, List.length_append, List.length_replicate, List.length_take]
  omega

/-- A zero follows the login. -/
theorem txLogin_eq_append (hl : LoginFits login) :
    ∃ rest, txLogin login = login ++ 0 :: rest := by
  have h32 : admLoginLen = 32 := rfl
  have hpos : admLoginLen - login.length = (31 - login.length) + 1 := by
    have := hl.length_le
    omega
  rw [txLogin_eq hl, List.rightpad, hpos, List.replicate_succ]
  exact ⟨_, rfl⟩

/-- The server reads the login that was sent. -/
theorem cstr_txLogin (hl : LoginFits login) : cstr (txLogin login) = login := by
  obtain ⟨rest, h⟩ := txLogin_eq_append hl
  rw [h, cstr_append_of_notMem hl.zero_notMem, cstr_zero_cons, List.append_nil]

theorem zero_mem_txLogin (hl : LoginFits login) : 0 ∈ txLogin login := by
  obtain ⟨rest, h⟩ := txLogin_eq_append hl
  simp [h]

/-- What is encrypted is the login with zeros up to the end of a block, and what is sent ends with
zeros. -/
theorem txLoginS_eq (hl : LoginFits login) : ∃ m ≤ 4, login.length + 1 ≤ 8 * m ∧
    txLoginS login password =
      Blocks.map 8 (Blowfish.encryptBlock (Blowfish.initContext password passwdLen)) m
        ((login ++ [0]).rightpad (8 * m) 0) ++ List.replicate (32 - 8 * m) 0 := by
  have h32 : admLoginLen = 32 := rfl
  have hle := hl.length_le
  have hmin : min (login.length + 1) admLoginLen = login.length + 1 := by omega
  have hlen : (login ++ [0]).length = login.length + 1 := by simp
  refine ⟨(login.length + 1 + 7) / 8, by omega, by omega, ?_⟩
  rw [txLoginS, hmin, Blowfish.encryptString,
    Blowfish.encryptBlocks_eq_map_rightpad _ _ _ _ (by omega) (by omega) hlen.ge,
    List.take_of_length_le hlen.le, List.rightpad,
    Blocks.length_map (Blowfish.length_encryptBlock _)]

theorem length_txLoginS (hl : LoginFits login) :
    (txLoginS login password).length = admLoginLen := by
  have h32 : admLoginLen = 32 := rfl
  obtain ⟨m, hm, -, h⟩ := txLoginS_eq password hl
  rw [h, List.length_append, Blocks.length_map (Blowfish.length_encryptBlock _),
    List.length_replicate]
  omega

/-- **The server decrypts the login that was sent**, up to its zero.

**Proof sketch.** The blocks that were encrypted are decrypted one by one; the blocks after them are
not looked at, for the zero of the login stands before them. -/
theorem take_decryptString_txLoginS (hl : LoginFits login) :
    (Blowfish.decryptString (Blowfish.initContext password admPasswdLen)
      (txLoginS login password) admLoginLen).take (login.length + 1) = login ++ [0] := by
  obtain ⟨m, hm, hle, h⟩ := txLoginS_eq password hl
  have hlen : (login ++ [0]).length = login.length + 1 := by simp
  have hplain : ((login ++ [0]).rightpad (8 * m) 0).length = 8 * m := by
    rw [List.rightpad, List.length_append, List.length_replicate]
    omega
  have hinv := Blocks.map_map_of_inverse
    (Blowfish.length_encryptBlock (Blowfish.initContext password passwdLen))
    (Blowfish.decryptBlock_encryptBlock _) m _ hplain
  rw [show admLoginLen = 8 * (m + (4 - m)) by change 32 = _; omega,
    Blowfish.decryptString_eq_map, h,
    Blocks.map_append m _ _ _ (Blocks.length_map (Blowfish.length_encryptBlock _) m _),
    show admPasswdLen = passwdLen from rfl, hinv, List.take_append_of_le_length (by omega),
    List.rightpad, List.take_append_of_le_length hlen.ge, List.take_of_length_le hlen.le]

end Messages

/-! ## The stages of a handshake -/

section Stages

variable (login password : List Byte)

/-- What the client has sent before it waits for an answer. -/
def message : Transact → List Byte
  | .rxHeaderAnswer => Conn.stgHeader
  | .rxLoginAnswer => txLogin login
  | .rxLoginSAnswer => txLoginS login password
  | .ready | .failed => []

/-- What the client waits for after an answer that is right. -/
def Transact.next : Transact → Transact
  | .rxHeaderAnswer => .rxLoginAnswer
  | .rxLoginAnswer => .rxLoginSAnswer
  | .rxLoginSAnswer => .ready
  | .ready => .ready
  | .failed => .failed

/-- The answers that are right, up to a stage. -/
def rightAnswers : Transact → List String
  | .rxHeaderAnswer => []
  | .rxLoginAnswer => ["OKHD"]
  | .rxLoginSAnswer => ["OKHD", "OKLG"]
  | .ready | .failed => ["OKHD", "OKLG", "OKLS"]

/-- The connection before the message of a stage is read. -/
def connAt : Transact → Conn
  | .rxHeaderAnswer => Conn.new
  | .rxLoginAnswer =>
    { Conn.new with
      state := .login, bufferSize := admLoginLen, header := Conn.stgHeader
      answers := rightAnswers .rxLoginAnswer }
  | .rxLoginSAnswer =>
    { Conn.new with
      state := .cryptoLogin, bufferSize := admLoginLen, header := Conn.stgHeader
      login := txLogin login, admin := some ⟨password⟩, answers := rightAnswers .rxLoginSAnswer }
  | .ready | .failed =>
    { Conn.new with
      state := .data, bufferSize := Conn.dataSize, header := Conn.stgHeader
      login := txLogin login, cryptoLogin := txLoginS login password, admin := some ⟨password⟩
      stream := some (password, .new ⟨false, .data, []⟩), answers := rightAnswers .ready }

/-- The connection after a part of the message of a stage has been read. -/
def connWith (t : Transact) (sent rest : List Byte) : Conn :=
  Conn.store sent { connAt login password t with bufferSize := rest.length }

/-- The client waits for an answer. -/
def Transact.Waits (t : Transact) : Prop := t ≠ .ready ∧ t ≠ .failed

/-- The states of a handshake that goes well: a message has been read in part, or it has been
answered, or the client is ready. -/
inductive Handshaking : Handshake → Prop
  | reading (t : Transact) (sent rest : List Byte) (ht : t.Waits)
      (hmsg : sent ++ rest = message login password t) (hrest : rest ≠ []) :
      Handshaking ⟨connWith login password t sent rest, rest, t, (rightAnswers t).length⟩
  | answered (t : Transact) (ht : t.Waits) :
      Handshaking ⟨connAt login password t.next, [], t, (rightAnswers t).length⟩
  | ready : Handshaking ⟨connAt login password .ready, [], .ready, 3⟩

end Stages

section Steps

variable {env : ConnEnv} {a : AdminsImpl} {login password : List Byte}

/-- A connection that has read a part of a message and reads more. -/
theorem store_store (c : Conn) (sent data : List Byte) (m n : ℕ) :
    Conn.store data { Conn.store sent { c with bufferSize := m } with bufferSize := n } =
      Conn.store (sent ++ data) { c with bufferSize := n } := by
  obtain ⟨state⟩ := c
  cases state <;> simp [Conn.store]

theorem state_store (c : Conn) (data : List Byte) : (Conn.store data c).state = c.state := by
  unfold Conn.store
  split <;> rfl

theorem bufferSize_store (c : Conn) (data : List Byte) :
    (Conn.store data c).bufferSize = c.bufferSize := by
  unfold Conn.store
  split <;> rfl

theorem answers_store (c : Conn) (data : List Byte) :
    (Conn.store data c).answers = c.answers := by
  unfold Conn.store
  split <;> rfl

/-- The state of the connection at a stage where the client waits. -/
theorem state_connAt {t : Transact} (ht : t.Waits) (login password : List Byte) :
    (connAt login password t).state = .header ∨ (connAt login password t).state = .login ∨
      (connAt login password t).state = .cryptoLogin := by
  obtain ⟨hready, hfailed⟩ := ht
  cases t with
  | rxHeaderAnswer => exact .inl rfl
  | rxLoginAnswer => exact .inr (.inl rfl)
  | rxLoginSAnswer => exact .inr (.inr rfl)
  | ready => exact absurd rfl hready
  | failed => exact absurd rfl hfailed

/-- Reading more of a message is handling the message read so far. -/
theorem read_connWith {t : Transact} (ht : t.Waits) {sent data rest : List Byte}
    (hdata : data ≠ []) :
    (connWith login password t sent (data ++ rest)).read env (some data) =
      (connWith login password t (sent ++ data) rest).handleBuffer env data := by
  have hstate : (connWith login password t sent (data ++ rest)).state ≠ .data := by
    rw [connWith, state_store]
    rcases state_connAt ht login password with h | h | h <;> simp [h]
  have hsize : (connWith login password t sent (data ++ rest)).bufferSize - data.length =
      rest.length := by
    rw [connWith, bufferSize_store, List.length_append, Nat.add_sub_cancel_left]
  rw [Conn.read, if_neg (fun h => hdata h.1), hsize]
  exact congrArg (Conn.handleBuffer env data) (store_store _ _ _ _ _)

/-- As long as a message is not complete it is not handled. -/
theorem handleBuffer_connWith_of_ne {t : Transact} (ht : t.Waits) {sent rest : List Byte}
    (hrest : rest ≠ []) (data : List Byte) :
    (connWith login password t sent rest).handleBuffer env data =
      some (connWith login password t sent rest) := by
  have hstate : (connWith login password t sent rest).state ≠ .data := by
    rw [connWith, state_store]
    rcases state_connAt ht login password with h | h | h <;> simp [h]
  have hsize : 0 < (connWith login password t sent rest).bufferSize := by
    rw [connWith, bufferSize_store]
    exact List.length_pos_iff.2 hrest
  rw [Conn.handleBuffer, if_neg hstate, if_pos hsize]

/-- **A complete message is answered**, and the connection goes on to the next stage.

**Proof sketch.** The header is the expected one; the login is that of an administrator; and the
encrypted login is decrypted with the administrator's password (`take_decryptString_txLoginS`). -/
theorem handleBuffer_connWith_nil (hfind : env.find login = some ⟨password⟩)
    (hwrite : env.writeAnswer = true) (hl : LoginFits login) {t : Transact} (ht : t.Waits)
    (data : List Byte) :
    (connWith login password t (message login password t) []).handleBuffer env data =
      some (connAt login password t.next) := by
  obtain ⟨hready, hfailed⟩ := ht
  cases t with
  | rxHeaderAnswer =>
    simp only [connWith, connAt, message, Conn.new, Conn.store, Conn.handleBuffer,
      Conn.handleHeader, Conn.writeAnswer, hwrite, Transact.next, rightAnswers, List.length_nil]
    simp
  | rxLoginAnswer =>
    have hzero : ¬ 0 ∉ txLogin login := not_not.2 (zero_mem_txLogin hl)
    simp only [connWith, connAt, message, Conn.new, Conn.store, Conn.handleBuffer,
      Conn.handleLogin, Conn.writeAnswer, hwrite, Transact.next, rightAnswers, List.length_nil,
      List.nil_append, if_neg hzero, cstr_txLogin hl, hfind]
    simp
  | rxLoginSAnswer =>
    obtain ⟨rest, hrest⟩ := txLogin_eq_append hl
    have htake : (txLogin login).take (login.length + 1) = login ++ [0] := by
      rw [hrest, ← List.singleton_append, ← List.append_assoc]
      exact List.take_left' (by simp)
    have heq := (take_decryptString_txLoginS password hl).trans htake.symm
    simp only [connWith, connAt, message, Conn.new, Conn.store, Conn.handleBuffer,
      Conn.handleCryptoLogin, Conn.writeAnswer, hwrite, Transact.next, rightAnswers,
      List.length_nil, List.nil_append, cstr_txLogin hl, heq, bind, Option.bind]
    simp
  | ready => exact absurd rfl hready
  | failed => exact absurd rfl hfailed

/-- The steps a handshake may still take. -/
def Handshake.measure (h : Handshake) : ℕ :=
  h.wire.length +
    match h.client with
    | .rxHeaderAnswer => (admLoginLen + 1) + (admLoginLen + 1) + 1
    | .rxLoginAnswer => (admLoginLen + 1) + 1
    | .rxLoginSAnswer => 1
    | .ready | .failed => 0

/-- A read in the middle of a message. -/
theorem Handshaking.recv_reading (hfind : env.find login = some ⟨password⟩)
    (hwrite : env.writeAnswer = true) (hl : LoginFits login) {t : Transact} (ht : t.Waits)
    {sent rest : List Byte} (hmsg : sent ++ rest = message login password t) (hrest : rest ≠ [])
    {n : ℕ} (hn : 0 < n) :
    ∃ h', Handshake.step env login password
        ⟨connWith login password t sent rest, rest, t, (rightAnswers t).length⟩ (.recv n) =
          some h' ∧
      Handshaking login password h' ∧ h'.client = t ∧ h'.wire.length < rest.length := by
  have hpos : 0 < rest.length := List.length_pos_iff.2 hrest
  have hsize : (connWith login password t sent rest).bufferSize = rest.length := by
    rw [connWith, bufferSize_store]
  have hstate : (connWith login password t sent rest).state ≠ .done ∧
      (connWith login password t sent rest).state ≠ .error := by
    rw [connWith, state_store]
    rcases state_connAt ht login password with h | h | h <;> simp [h]
  obtain ⟨data, rest', rfl, hdata, hne⟩ : ∃ data rest', rest = data ++ rest' ∧
      rest.take (min n rest.length) = data ∧ data ≠ [] := by
    refine ⟨_, rest.drop (min n rest.length), (List.take_append_drop _ _).symm, rfl, ?_⟩
    apply List.ne_nil_of_length_pos
    rw [List.length_take]
    omega
  have hwire : (data ++ rest').drop data.length = rest' := List.drop_left
  have hshorter : rest'.length < (data ++ rest').length := by
    have := List.length_pos_iff.2 hne
    rw [List.length_append]
    omega
  rw [Handshake.step, if_pos ⟨hrest, hn, hstate⟩]
  simp only [hsize, hdata, hwire, read_connWith ht hne, Option.pure_def, Option.bind_eq_bind]
  by_cases hend : rest' = []
  · subst hend
    rw [List.append_nil] at hmsg
    rw [hmsg, handleBuffer_connWith_nil hfind hwrite hl ht]
    exact ⟨_, rfl, .answered t ht, rfl, hshorter⟩
  · rw [handleBuffer_connWith_of_ne ht hend]
    refine ⟨_, rfl, .reading t (sent ++ data) rest' ht ?_ hend, rfl, hshorter⟩
    rw [List.append_assoc, hmsg]

/-- The connection waits for as many bytes as the message of a stage has. -/
theorem length_message (hl : LoginFits login) {t : Transact} (ht : t.Waits) :
    (message login password t).length = (connAt login password t).bufferSize ∧
      0 < (connAt login password t).bufferSize ∧ (connAt login password t).bufferSize ≤ 32 := by
  obtain ⟨hready, hfailed⟩ := ht
  cases t with
  | rxHeaderAnswer => exact ⟨rfl, Nat.zero_lt_succ 3, Nat.le_add_right 4 28⟩
  | rxLoginAnswer => exact ⟨length_txLogin login, Nat.zero_lt_succ 31, le_rfl⟩
  | rxLoginSAnswer => exact ⟨length_txLoginS password hl, Nat.zero_lt_succ 31, le_rfl⟩
  | ready => exact absurd rfl hready
  | failed => exact absurd rfl hfailed

/-- The connection before a message is read. -/
theorem connWith_message (hl : LoginFits login) {t : Transact} (ht : t.Waits) :
    connWith login password t [] (message login password t) = connAt login password t := by
  rw [connWith, (length_message hl ht).1]
  unfold Conn.store
  split <;> simp

theorem message_ne_nil (hl : LoginFits login) {t : Transact} (ht : t.Waits) :
    message login password t ≠ [] := by
  apply List.ne_nil_of_length_pos
  rw [(length_message hl ht).1]
  exact (length_message hl ht).2.1

/-- Before the message of a stage is read. -/
theorem Handshaking.sent (hl : LoginFits login) {t : Transact} (ht : t.Waits) :
    Handshaking login password ⟨connAt login password t, message login password t, t,
      (rightAnswers t).length⟩ := by
  rw [← connWith_message hl ht]
  exact .reading t [] _ ht rfl (message_ne_nil hl ht)

/-- A message that has arrived is read at once. -/
theorem Handshaking.recv_message (hfind : env.find login = some ⟨password⟩)
    (hwrite : env.writeAnswer = true) (hl : LoginFits login) {t : Transact} (ht : t.Waits) :
    Handshake.step env login password
        ⟨connAt login password t, message login password t, t, (rightAnswers t).length⟩ (.recv 32) =
      some ⟨connAt login password t.next, [], t, (rightAnswers t).length⟩ := by
  have htake : (message login password t).take (min 32 (connAt login password t).bufferSize) =
      message login password t := by
    rw [min_eq_right (length_message hl ht).2.2, ← (length_message hl ht).1, List.take_length]
  have hne : message login password t ≠ [] := message_ne_nil hl ht
  have hstate : (connAt login password t).state ≠ .done ∧ (connAt login password t).state ≠ .error := by
    rcases state_connAt ht login password with h | h | h <;> simp [h]
  have hread : (connAt login password t).read env (some (message login password t)) =
      some (connAt login password t.next) := by
    calc (connAt login password t).read env (some (message login password t))
        = (connWith login password t [] (message login password t ++ [])).read env
            (some (message login password t)) := by rw [List.append_nil, connWith_message hl ht]
      _ = (connWith login password t (message login password t) []).handleBuffer env
            (message login password t) := read_connWith ht hne
      _ = some (connAt login password t.next) := handleBuffer_connWith_nil hfind hwrite hl ht _
  rw [Handshake.step, if_pos ⟨hne, by decide, hstate⟩]
  simp only [htake, hread, Option.pure_def, Option.bind_eq_bind, Option.bind_some, List.drop_length]

/-- **A handshake in which every message arrives whole**, from the answer to the header on. -/
theorem Handshaking.runs_recv_message (hfind : env.find login = some ⟨password⟩)
    (hwrite : env.writeAnswer = true) (hl : LoginFits login) :
    Transition.Runs (Handshake.step env login password)
      ⟨connAt login password .rxLoginAnswer, [], .rxHeaderAnswer, 0⟩
      [.answer, .recv 32, .answer, .recv 32, .answer]
      ⟨connAt login password .ready, [], .ready, 3⟩ :=
  .cons trivial rfl
    (.cons trivial (Handshaking.recv_message hfind hwrite hl (t := .rxLoginAnswer) ⟨by simp, by simp⟩)
      (.cons trivial rfl
        (.cons trivial (Handshaking.recv_message hfind hwrite hl (t := .rxLoginSAnswer) ⟨by simp, by simp⟩)
          (.cons trivial rfl (.nil _)))))

/-- An answer that is right is read, and the next message is sent. -/
theorem Handshaking.answer_answered (env : ConnEnv) (password : List Byte)
    (hl : LoginFits login) {t : Transact} (ht : t.Waits) :
    ∃ h', Handshake.step env login password
        ⟨connAt login password t.next, [], t, (rightAnswers t).length⟩ .answer = some h' ∧
      Handshaking login password h' ∧
      h'.measure <
        Handshake.measure ⟨connAt login password t.next, [], t, (rightAnswers t).length⟩ := by
  obtain ⟨hready, hfailed⟩ := ht
  cases t with
  | rxHeaderAnswer =>
    refine ⟨⟨connAt login password .rxLoginAnswer, txLogin login, .rxLoginAnswer, 1⟩, rfl,
      .sent hl ⟨by simp, by simp⟩, ?_⟩
    simp only [Handshake.measure, length_txLogin, List.length_nil]
    omega
  | rxLoginAnswer =>
    refine ⟨⟨connAt login password .rxLoginSAnswer, txLoginS login password, .rxLoginSAnswer, 2⟩,
      rfl, .sent hl ⟨by simp, by simp⟩, ?_⟩
    simp [Handshake.measure, length_txLoginS password hl]
  | rxLoginSAnswer =>
    refine ⟨⟨connAt login password .ready, [], .ready, 3⟩, rfl, .ready, ?_⟩
    simp [Handshake.measure]
  | ready => exact absurd rfl hready
  | failed => exact absurd rfl hfailed

/-- Nothing is to be read before a message has been read. -/
theorem Handshaking.answer_reading {t : Transact} (ht : t.Waits) (sent rest : List Byte) :
    Handshake.step env login password
      ⟨connWith login password t sent rest, rest, t, (rightAnswers t).length⟩ .answer = none := by
  have hanswers : (connWith login password t sent rest).answers = rightAnswers t := by
    obtain ⟨hready, hfailed⟩ := ht
    rw [connWith, answers_store]
    cases t with
    | rxHeaderAnswer => rfl
    | rxLoginAnswer => rfl
    | rxLoginSAnswer => rfl
    | ready => exact absurd rfl hready
    | failed => exact absurd rfl hfailed
  unfold Handshake.step
  rw [if_pos ⟨ht.1, ht.2⟩, hanswers, List.getElem?_eq_none le_rfl, Option.map_none]

/-- **One step of a handshake that goes well** leads to a handshake that goes well, and there are
fewer steps to go. -/
theorem Handshaking.step (hfind : env.find login = some ⟨password⟩)
    (hwrite : env.writeAnswer = true) (hl : LoginFits login) {h h' : Handshake}
    (hh : Handshaking login password h) {m : HandshakeMove}
    (hs : h.step env login password m = some h') :
    Handshaking login password h' ∧ h'.measure < h.measure := by
  cases hh with
  | reading t sent rest ht hmsg hrest =>
    cases m with
    | recv n =>
      have hn : 0 < n := by
        by_contra hzero
        rw [Handshake.step, if_neg (fun hc => hzero hc.2.1)] at hs
        cases hs
      obtain ⟨h'', hs'', hh'', hclient, hlt⟩ :=
        recv_reading hfind hwrite hl ht hmsg hrest hn
      obtain rfl : h'' = h' := Option.some.inj (hs''.symm.trans hs)
      refine ⟨hh'', ?_⟩
      simp only [Handshake.measure, hclient]
      omega
    | answer =>
      rw [answer_reading ht] at hs
      cases hs
  | answered t ht =>
    cases m with
    | recv n =>
      rw [Handshake.step, if_neg (fun hc => hc.1 rfl)] at hs
      cases hs
    | answer =>
      obtain ⟨h'', hs'', hh'', hlt⟩ := answer_answered env password hl ht
      obtain rfl : h'' = h' := Option.some.inj (hs''.symm.trans hs)
      exact ⟨hh'', hlt⟩
  | ready =>
    cases m with
    | recv n =>
      rw [Handshake.step, if_neg (fun hc => hc.1 rfl)] at hs
      cases hs
    | answer =>
      rw [Handshake.step, if_neg (fun hc => hc.1 rfl)] at hs
      cases hs

end Steps

/-! ## Completeness -/

/-- What a handshake is to lead to: the connection is in the state `DATA`, the client has read the
three answers, and both sides go on with the same key, so that a request starts where
`Stargazer.Link.start` says. -/
structure Handshake.Completed (login password : List Byte) (h : Handshake) : Prop where
  state : h.conn.state = .data
  answers : h.conn.answers = ["OKHD", "OKLG", "OKLS"]
  answersRead : h.answersRead = 3
  client : h.client = .ready
  key : ∃ stream, h.conn.stream = some (password, stream)
  start : ∀ text, h.txData password text = Link.start h.conn password text

/-- Every read goes well: it is not an error, and the array it reads from is not left. -/
def Handshake.Readable (env : ConnEnv) (login password : List Byte) (h : Handshake) : Prop :=
  ∀ n, 0 < n → h.wire ≠ [] → ∃ h', h.step env login password (.recv n) = some h' ∧
    h'.conn.state ≠ .error

/-- A handshake that goes well is over only if it is completed. -/
theorem Handshaking.completed {env : ConnEnv} {login password : List Byte}
    (hfind : env.find login = some ⟨password⟩) (hwrite : env.writeAnswer = true)
    (hl : LoginFits login) {h : Handshake} (hh : Handshaking login password h)
    (hend : ∀ m, h.step env login password m = none) : h.Completed login password := by
  cases hh with
  | reading t sent rest ht hmsg hrest =>
    obtain ⟨h', hs, -⟩ := recv_reading hfind hwrite hl ht hmsg hrest Nat.one_pos
    rw [hend] at hs
    cases hs
  | answered t ht =>
    obtain ⟨h', hs, -⟩ := answer_answered env password hl ht
    rw [hend] at hs
    cases hs
  | ready => exact ⟨rfl, rfl, rfl, rfl, ⟨_, rfl⟩, fun text => rfl⟩

/-- The states of the connection during a handshake that goes well. -/
theorem Handshaking.state {login password : List Byte} {h : Handshake}
    (hh : Handshaking login password h) :
    h.conn.state ∈ [.header, .login, .cryptoLogin, .data] := by
  cases hh with
  | reading t sent rest ht hmsg hrest =>
    rw [connWith, state_store]
    rcases state_connAt ht login password with h | h | h <;> simp [h]
  | answered t ht => cases t <;> simp [connAt, Transact.next]
  | ready => simp [connAt]

/-- **Every handshake with the right password comes to its end**, in whatever pieces the messages
arrive: the connection goes through the states `LOGIN` and `CRYPTO_LOGIN` and is not in another
one, after at most 71 steps no step is left, and then the connection is in the state `DATA`, has
given the three answers and reads with the key the client writes with.  The password may be any
string, also one that is longer than the key of the encryption.

**Proof sketch.** `Handshaking` holds at the start and is kept by every step, with a measure that
decreases (`Handshaking.step`); a state in which no step is possible is the last stage
(`Handshaking.completed`). -/
theorem handshake_completes {env : ConnEnv} {a : AdminsImpl} {login password : List Byte}
    (henv : env.find = a.connFind) (hwrite : env.writeAnswer = true)
    (hcontains : a.Contains login password) (hle : login.length ≤ 31) (hzero : 0 ∉ login)
    {moves : List HandshakeMove} {h : Handshake}
    (hrun : Transition.Runs (Handshake.step env login password) Handshake.start moves h) :
    moves.length ≤ 71 ∧ h.conn.state ∈ [.header, .login, .cryptoLogin, .data] ∧
      h.Readable env login password ∧
      ((∀ m, h.step env login password m = none) → h.Completed login password) := by
  have hl : LoginFits login := ⟨hle, hzero⟩
  have hfind : env.find login = some ⟨password⟩ := by
    rw [henv, AdminsImpl.connFind_of_contains hcontains]
  have hstart : Handshaking login password Handshake.start :=
    .sent hl (t := .rxHeaderAnswer) ⟨by simp, by simp⟩
  have hstep : ∀ s m s', Handshaking login password s → True →
      Handshake.step env login password s m = some s' →
      Handshaking login password s' ∧ s'.measure < s.measure :=
    fun _ _ _ hs _ hm => hs.step hfind hwrite hl hm
  have hh : Handshaking login password h :=
    hrun.invariant (fun s m s' hs ht hm => (hstep s m s' hs ht hm).1) hstart
  have hlength := hrun.length_add_le hstep hstart
  have hmeasure : Handshake.start.measure = 71 := rfl
  refine ⟨by omega, hh.state, fun n hn hwire => ?_, hh.completed hfind hwrite hl⟩
  cases hh with
  | reading t sent rest ht hmsg hrest =>
    obtain ⟨h', hs, hh', -⟩ := Handshaking.recv_reading hfind hwrite hl ht hmsg hrest hn
    refine ⟨h', hs, fun herror => ?_⟩
    have := hh'.state
    simp [herror] at this
  | answered t ht => exact absurd rfl hwire
  | ready => exact absurd rfl hwire

namespace Sample

/-- A registry with one administrator. -/
def oneAdmin : AdminsImpl := ⟨[⟨Priv.full, bytesText [97, 100, 109], bytesText [115, 101, 99], 0⟩]⟩

/-- The surroundings of a connection that finds this administrator. -/
def loginEnv : ConnEnv := ⟨oneAdmin.connFind, true, fun _ _ => true, fun _ _ => false, true⟩

end Sample

/-- The header arrives in two pieces, the login and the encrypted login at once. -/
theorem handshake_completes_two_pieces :
    ∃ h, Transition.Runs (Handshake.step Sample.loginEnv [97, 100, 109] [115, 101, 99])
        Handshake.start [.recv 3, .recv 9, .answer, .recv 32, .answer, .recv 32, .answer] h ∧
      h.conn.state = .data ∧ h.Completed [97, 100, 109] [115, 101, 99] := by
  have hcontains : Sample.oneAdmin.Contains [97, 100, 109] [115, 101, 99] := by
    refine ⟨⟨_, List.mem_singleton_self _, rfl⟩, fun admin hmem _ => ?_⟩
    rw [List.mem_singleton.1 hmem]
  have hfind : Sample.loginEnv.find [97, 100, 109] = some ⟨[115, 101, 99]⟩ :=
    AdminsImpl.connFind_of_contains hcontains
  have hl : LoginFits [97, 100, 109] := ⟨by decide, by decide⟩
  have hrun : Transition.Runs (Handshake.step Sample.loginEnv [97, 100, 109] [115, 101, 99])
      Handshake.start [.recv 3, .recv 9, .answer, .recv 32, .answer, .recv 32, .answer]
      ⟨connAt [97, 100, 109] [115, 101, 99] .ready, [], .ready, 3⟩ :=
    .cons trivial rfl (.cons trivial rfl (Handshaking.runs_recv_message hfind rfl hl))
  have hend : ∀ m, Handshake.step Sample.loginEnv [97, 100, 109] [115, 101, 99]
      ⟨connAt [97, 100, 109] [115, 101, 99] .ready, [], .ready, 3⟩ m = none := by
    intro m
    cases m <;> rfl
  have h := handshake_completes (a := Sample.oneAdmin) rfl rfl hcontains (by decide) (by decide) hrun
  exact ⟨_, hrun, rfl, h.2.2.2 hend⟩

end Stargazer
