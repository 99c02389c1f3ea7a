import Stargazer.Crypto.BFStream
import Stargazer.Lib.Run

set_option relaxedAutoImplicit false
set_option autoImplicit false

/-!
# A connection of the configuration server

`plugins/configuration/sgconfig/conn.cpp`: a connection reads a header, a login, the login in
encrypted form and then a request, which is decrypted as it arrives and handed to an XML parser.
The client's side of the request is `NetTransact::TxData` of `libs/srvconf/netunit.cpp`.

Each state of a connection has an array that is read into; `m_bufferSize` is what is still free in
it.  In the state `DATA` the array is read into from its beginning again and again, but nothing
resets `m_bufferSize`: after 1024 bytes in total a read has room for nothing, and returns 0.

## Main definitions

* `Stargazer.Conn`, `Stargazer.Conn.read` — a connection and what one call of `Read` does.
* `Stargazer.txData` — what a client sends.
* `Stargazer.Link` — a connection in the state `DATA` and the bytes on their way to it.
* `Stargazer.Delivers` — the parser was given a text, once, in order and marked final at its end.

## Main results

* `Stargazer.Link.Receiving.recv` — what one read does.
* `Stargazer.delivers_iff_length_le` — which requests are delivered.
-/

namespace Stargazer

/-- `ADM_LOGIN_LEN`. -/
abbrev admLoginLen : ℕ := 32

/-- `ADM_PASSWD_LEN`. -/
abbrev admPasswdLen : ℕ := 32

/-- The states of a connection. -/
inductive ConnState
  | header | login | cryptoLogin | data | done | error
  deriving DecidableEq, Repr

/-- What the callback of the stream works on: `Conn::DataState`, with the state of the connection
it refers to and the calls of `XML_Parse` made so far. -/
structure DataState where
  /-- `final`. -/
  final : Bool
  /-- `conn.m_state`. -/
  state : ConnState
  /-- The bytes and the flag of each call of `XML_Parse`. -/
  parsed : List (List Byte × Bool)

/-- An administrator, as far as a connection uses it. -/
structure ConnAdmin where
  /-- `password()`. -/
  password : List Byte

/-- What a connection finds outside of it. -/
structure ConnEnv where
  /-- `Admins::find`; `none` stands for its error. -/
  find : List Byte → Option ConnAdmin
  /-- Whether `WriteAnswer` succeeds. -/
  writeAnswer : Bool
  /-- Whether `XML_Parse` returns something else than `XML_STATUS_ERROR`. -/
  xmlParse : List Byte → Bool → Bool
  /-- Whether `ParseXMLStart` or `ParseXMLEnd`, called back by `XML_Parse`, finds no parser for an
  element. -/
  unknownElement : List Byte → Bool → Bool
  /-- Whether `WriteResponse` succeeds. -/
  writeResponse : Bool

/-- `Conn`. -/
structure Conn where
  /-- `m_state`. -/
  state : ConnState
  /-- `m_bufferSize`. -/
  bufferSize : ℕ
  /-- What has been read into `m_header`. -/
  header : List Byte
  /-- What has been read into `m_login`. -/
  login : List Byte
  /-- What has been read into `m_cryptoLogin`. -/
  cryptoLogin : List Byte
  /-- `m_admin`. -/
  admin : Option ConnAdmin
  /-- `m_stream`, with the key it was made with. -/
  stream : Option (List Byte × Common DataState)
  /-- The answers written to the socket. -/
  answers : List String

/-- The parser takes whatever it is given, and the elements before the end are known. -/
structure ConnEnv.Accepts (env : ConnEnv) : Prop where
  xmlParse : ∀ xml final, env.xmlParse xml final = true
  known : ∀ xml, env.unknownElement xml false = false

/-- `Conn::DataCallback`. -/
def dataCallback (env : ConnEnv) (block : List Byte) (d : DataState) : Bool × DataState :=
  let xml := cstr block
  let final := d.final || decide (xml.length < block.length) || block.isEmpty
  let state := if env.unknownElement xml final then .error else d.state
  let d := { d with final := final, state := state, parsed := d.parsed ++ [(xml, final)] }
  if !env.xmlParse xml final then
    (false, { d with state := .error })
  else if final then
    if !env.writeResponse then
      (false, { d with state := .error })
    else
      (true, { d with state := .done })
  else
    (true, d)

namespace Conn

/-- `STG_HEADER`. -/
def stgHeader : List Byte := [0x53, 0x47, 0x30, 0x34]

/-- `sizeof(m_data)`. -/
abbrev dataSize : ℕ := 1024

/-- The constructor. -/
def new : Conn := ⟨.header, stgHeader.length, [], [], [], none, none, []⟩

/-- `Conn::WriteAnswer`. -/
def writeAnswer (env : ConnEnv) (answer : String) (c : Conn) : Conn :=
  if env.writeAnswer then { c with answers := c.answers ++ [answer] } else { c with state := .error }

/-- An answer to a mistake of the client. -/
def reject (env : ConnEnv) (answer : String) (c : Conn) : Conn :=
  { writeAnswer env answer c with state := .error }

/-- `Conn::HandleHeader`. -/
def handleHeader (env : ConnEnv) (c : Conn) : Conn :=
  if c.header ≠ stgHeader then
    reject env "ERHD" c
  else
    writeAnswer env "OKHD" { c with state := .login, bufferSize := admLoginLen }

/-- `Conn::HandleLogin`.  The array is read as a string: without a zero in it the reading goes on
behind its end. -/
def handleLogin (env : ConnEnv) (c : Conn) : Option Conn :=
  if 0 ∉ c.login then
    none
  else
    match env.find (cstr c.login) with
    | none => some (reject env "ERLG" c)
    | some admin =>
      some (writeAnswer env "OKLG"
        { c with admin := some admin, state := .cryptoLogin, bufferSize := admLoginLen })

/-- `Conn::HandleCryptoLogin`.  The comparison ends with the zero of `m_login`. -/
def handleCryptoLogin (env : ConnEnv) (c : Conn) : Option Conn := do
  let admin ← c.admin
  let ctx := Blowfish.initContext admin.password admPasswdLen
  let login := Blowfish.decryptString ctx c.cryptoLogin admLoginLen
  let n := (cstr c.login).length + 1
  if login.take n ≠ c.login.take n then
    return reject env "ERLS" c
  else
    return writeAnswer env "OKLS"
      { c with
        state := .data
        bufferSize := dataSize
        stream := some (admin.password, .new ⟨false, .data, []⟩) }

/-- `Conn::HandleData`. -/
def handleData (env : ConnEnv) (data : List Byte) (c : Conn) : Option Conn := do
  let (key, stream) ← c.stream
  let stream := { stream with data := { stream.data with state := c.state } }
  let stream :=
    stream.put (decryptStream key (dataCallback env)) data (data.isEmpty || data.contains 0)
  return { c with stream := some (key, stream), state := stream.data.state }

/-- `Conn::HandleBuffer`. -/
def handleBuffer (env : ConnEnv) (data : List Byte) (c : Conn) : Option Conn :=
  if c.state = .data then
    handleData env data c
  else if 0 < c.bufferSize then
    some c
  else
    match c.state with
    | .header => some (handleHeader env c)
    | .login => handleLogin env c
    | .cryptoLogin => handleCryptoLogin env c
    | _ => some c

/-- What has been read goes to the array of the state. -/
def store (data : List Byte) (c : Conn) : Conn :=
  match c.state with
  | .header => { c with header := c.header ++ data }
  | .login => { c with login := c.login ++ data }
  | .cryptoLogin => { c with cryptoLogin := c.cryptoLogin ++ data }
  | _ => c

/-- `Conn::Read`, given what `read` returned; `none` stands for its error. -/
def read (env : ConnEnv) (res : Option (List Byte)) (c : Conn) : Option Conn :=
  match res with
  | none => some { c with state := .error }
  | some data =>
    if data = [] ∧ c.state ≠ .data then
      some { c with state := .error }
    else
      handleBuffer env data (store data { c with bufferSize := c.bufferSize - data.length })

end Conn

/-- `NetTransact::TxData`: what is written to the socket. -/
def txData (password text : List Byte) : List Byte :=
  (Common.put (encryptStream password record) (.new []) (text ++ [0]) true).data.flatten

/-! ## Reading a request -/

/-- A connection and the bytes on their way to it. -/
structure Link where
  /-- The connection. -/
  conn : Conn
  /-- What has been sent and not been read. -/
  wire : List Byte

namespace Link

/-- A connection that has just reached the state `DATA`, and a request on its way to it. -/
def start (c : Conn) (password text : List Byte) : Link :=
  ⟨{ c with
      state := .data
      bufferSize := Conn.dataSize
      stream := some (password, .new ⟨false, .data, []⟩) },
    txData password text⟩

/-- What `read` returns when at most `n` bytes have arrived. -/
def arrived (n : ℕ) (l : Link) : List Byte := l.wire.take (min n l.conn.bufferSize)

/-- One call of `Read`, when at least one byte and at most `n` have arrived; there is none after the
connection has left the state `DATA`. -/
def recv (env : ConnEnv) (l : Link) (n : ℕ) : Option Link :=
  if l.conn.state = .data ∧ l.wire ≠ [] ∧ 0 < n then do
    let conn ← l.conn.read env (some (l.arrived n))
    return ⟨conn, l.wire.drop (l.arrived n).length⟩
  else
    none

/-- Nothing more is read. -/
def Ended (l : Link) : Prop := l.conn.state ≠ .data ∨ l.wire = []

/-- The calls of `XML_Parse` made so far. -/
def parsed (l : Link) : List (List Byte × Bool) :=
  match l.conn.stream with
  | none => []
  | some s => s.2.data.parsed

/-- A read whose bytes contain a zero ends between two blocks of the encryption. -/
def ZeroAtEnd (l : Link) (n : ℕ) : Prop :=
  0 ∈ l.arrived n → (l.wire.length - (l.arrived n).length) % 8 = 0

end Link

/-- The calls of the parser give it the text, once and in order, and the last one is the only one
that is marked final. -/
def Delivers (parsed : List (List Byte × Bool)) (text : List Byte) : Prop :=
  ∃ (init : List (List Byte)) (last : List Byte),
    parsed = init.map (·, false) ++ [(last, true)] ∧ init.flatten ++ last = text

/-! ## The callback -/

/-- The callback's data while no zero has been met: every block was handed on as it is. -/
def Unfinished (d : DataState) (blocks : List (List Byte)) : Prop :=
  d = ⟨false, .data, blocks.map (·, false)⟩ ∧ ∀ b ∈ blocks, 0 ∉ b

/-- A block without a zero is handed on as it is. -/
theorem dataCallback_of_notMem {env : ConnEnv} (henv : env.Accepts) {d : DataState}
    {blocks : List (List Byte)} (h : Unfinished d blocks) {block : List Byte} (hne : block ≠ [])
    (hmem : 0 ∉ block) :
    (dataCallback env block d).1 = true ∧
      Unfinished (dataCallback env block d).2 (blocks ++ [block]) := by
  obtain ⟨rfl, hblocks⟩ := h
  have hxml : cstr block = block := cstr_of_notMem hmem
  have hempty : block.isEmpty = false := by simpa using hne
  have hres : dataCallback env block ⟨false, .data, blocks.map (·, false)⟩ =
      (true, ⟨false, .data, (blocks ++ [block]).map (·, false)⟩) := by
    simp [dataCallback, hxml, hempty, henv.xmlParse, henv.known]
  rw [hres]
  refine ⟨rfl, rfl, fun b hb => ?_⟩
  rcases List.mem_append.1 hb with hb | hb
  · exact hblocks b hb
  · rwa [List.mem_singleton.1 hb]

/-- A block with a zero, or an empty one, is the end: what stands before the zero is handed on, and
nothing is read after it. -/
theorem dataCallback_of_mem (env : ConnEnv) {d : DataState} {blocks : List (List Byte)}
    (h : Unfinished d blocks) {block : List Byte} (hend : block = [] ∨ 0 ∈ block) :
    (dataCallback env block d).2.parsed =
        blocks.map (·, false) ++ [(cstr block, true)] ∧
      (dataCallback env block d).2.state ≠ .data := by
  obtain ⟨rfl, -⟩ := h
  have hfinal : (decide ((cstr block).length < block.length) || block.isEmpty) =
      true := by
    rcases hend with rfl | hmem
    · rfl
    · simp [length_cstr_lt hmem]
  simp only [dataCallback, Bool.false_or, hfinal, if_true]
  split
  · exact ⟨rfl, by simp⟩
  · split
    · exact ⟨rfl, by simp⟩
    · exact ⟨rfl, by simp⟩

/-- Which text a list of calls delivers. -/
theorem delivers_iff (blocks : List (List Byte)) (last text : List Byte) :
    Delivers (blocks.map (·, false) ++ [(last, true)]) text ↔ blocks.flatten ++ last = text := by
  constructor
  · rintro ⟨init, last', heq, rfl⟩
    obtain ⟨hinit, hlast⟩ := List.append_inj' heq rfl
    have hinj : blocks = init :=
      List.map_injective_iff.2 (fun _ _ h => congrArg Prod.fst h) hinit
    obtain rfl : last = last' := by simpa using hlast
    rw [hinj]
  · exact fun h => ⟨blocks, last, rfl, h⟩

/-! ## What is sent -/

/-- The encryption of the first `N` blocks of a list of bytes. -/
def cipher (key plain : List Byte) (N : ℕ) : List Byte :=
  Blocks.map 8 (Blowfish.encryptBlock (Blowfish.initContext key key.length)) N plain

@[simp] theorem length_cipher (key plain : List Byte) (N : ℕ) :
    (cipher key plain N).length = 8 * N :=
  Blocks.length_map (Blowfish.length_encryptBlock _) N plain

/-- What a client sends is the encryption of the text, a zero, and less than a block. -/
theorem txData_eq (password text : List Byte) :
    ∃ N pad, (text ++ 0 :: pad).length = 8 * N ∧ pad.length < 8 ∧
      txData password text = cipher password (text ++ 0 :: pad) N := by
  have hp : (encryptStream password record).Passes _ (fun d l => d = l) :=
    encryptString_passes _ fun block d l h => ⟨rfl, by rw [h, record]⟩
  obtain ⟨blocks, N, pad, h, hpad, hlen⟩ :=
    (Common.holds_new (d := []) rfl).put_last hp (text ++ [0])
  rw [List.nil_append, List.append_assoc, List.singleton_append] at hlen
  refine ⟨N, pad, hlen, hpad, ?_⟩
  rw [txData, h.data, h.flatten, List.nil_append, List.append_assoc, List.singleton_append, cipher]

/-- The first blocks of a part of an encryption. -/
theorem decrypt_take_cipher (key plain : List Byte) (N k n : ℕ) (h : plain.length = 8 * N)
    (hn : n ≤ N) (hk : 8 * n ≤ k) :
    Blocks.map 8 (Blowfish.decryptBlock (Blowfish.initContext key key.length)) n
      ((cipher key plain N).take k) = plain.take (8 * n) := by
  obtain ⟨j, rfl⟩ := Nat.exists_eq_add_of_le hn
  exact Blocks.map_take_map_of_inverse (Blowfish.length_encryptBlock _)
    (Blowfish.decryptBlock_encryptBlock _) n j k plain h hk

/-- Some of the blocks of a part of an encryption. -/
theorem decrypt_drop_cipher (key plain : List Byte) (N k n m : ℕ) (h : plain.length = 8 * N)
    (hn : n + m ≤ N) (hk : 8 * (n + m) ≤ k) :
    Blocks.map 8 (Blowfish.decryptBlock (Blowfish.initContext key key.length)) m
      (((cipher key plain N).take k).drop (8 * n)) = (plain.drop (8 * n)).take (8 * m) := by
  have hall := decrypt_take_cipher key plain N k (n + m) h hn hk
  have hfst := decrypt_take_cipher key plain N k n h (by omega) (by omega)
  rw [Blocks.map_add, hfst, Nat.mul_add, List.take_add] at hall
  exact List.append_cancel_left hall

/-! ## One read -/

namespace Link

/-- A request is being read: of the encryption of `plain`, which has `N` blocks, `k` bytes have
been read, `n` blocks have been handed on, and none of them has a zero. -/
structure Receiving (key plain : List Byte) (N k n : ℕ) (blocks : List (List Byte))
    (st : Common DataState) (l : Link) : Prop where
  state : l.conn.state = .data
  stream : l.conn.stream = some (key, st)
  bufferSize : l.conn.bufferSize = Conn.dataSize - k
  le_dataSize : k ≤ Conn.dataSize
  le_length : k ≤ 8 * N
  plain_length : plain.length = 8 * N
  wire : l.wire = (cipher key plain N).drop k
  holds : st.Holds (Blowfish.decryptBlock (Blowfish.initContext key key.length)) Unfinished blocks n
    ((cipher key plain N).take k)
  ptr_lt : st.ptr < 8

variable {key plain : List Byte} {N k n : ℕ} {blocks : List (List Byte)} {st : Common DataState}
  {l : Link}

/-- What one call of `Read` makes of a connection that reads a request. -/
theorem read_of_data (env : ConnEnv) (data : List Byte) {c : Conn} (hstate : c.state = .data)
    (hstream : c.stream = some (key, st)) (hdata : st.data.state = .data) :
    c.read env (some data) = some
      { c with
        bufferSize := c.bufferSize - data.length
        stream := some (key, st.put (decryptStream key (dataCallback env)) data
          (data.isEmpty || data.contains 0))
        state := (st.put (decryptStream key (dataCallback env)) data
          (data.isEmpty || data.contains 0)).data.state } := by
  obtain ⟨buffer, ptr, ⟨final, state, parsed⟩, ok⟩ := st
  obtain rfl : state = .data := hdata
  simp [Conn.read, hstate, Conn.store, Conn.handleBuffer, Conn.handleData, hstream]

/-- The bytes of one read follow those read before. -/
theorem Receiving.take_append_arrived (h : Receiving key plain N k n blocks st l) (m : ℕ) :
    (cipher key plain N).take k ++ l.arrived m =
      (cipher key plain N).take (k + (l.arrived m).length) := by
  rw [List.take_add, ← h.wire, arrived, List.length_take, ← List.take_eq_take_min]

/-- How much one read can return; it returns nothing only after 1024 bytes in total. -/
theorem Receiving.length_arrived (h : Receiving key plain N k n blocks st l) (m : ℕ) :
    k + (l.arrived m).length ≤ Conn.dataSize ∧ k + (l.arrived m).length ≤ 8 * N ∧
      (l.wire ≠ [] → 0 < m → (l.arrived m).length = 0 → k = Conn.dataSize) := by
  have hk := h.le_dataSize
  have hN := h.le_length
  have hwire : l.wire.length = 8 * N - k := by rw [h.wire, List.length_drop, length_cipher]
  have hlen : (l.arrived m).length = min (min m (Conn.dataSize - k)) (8 * N - k) := by
    rw [arrived, List.length_take, h.bufferSize, hwire]
  refine ⟨by omega, by omega, fun hne hm hzero => ?_⟩
  have hpos : 0 < l.wire.length := List.length_pos_iff.2 hne
  omega

/-- What has been read is the blocks handed on and what waits in the buffer. -/
theorem Receiving.eq_add_ptr (h : Receiving key plain N k n blocks st l) : k = 8 * n + st.ptr := by
  have := h.holds.input_length
  rwa [List.length_take, length_cipher, min_eq_left h.le_length] at this

/-- The blocks handed on are those of the plain text. -/
theorem Receiving.flatten_eq (h : Receiving key plain N k n blocks st l) :
    blocks.flatten = plain.take (8 * n) ∧ 0 ∉ plain.take (8 * n) := by
  have hk := h.eq_add_ptr
  have hN := h.le_length
  have heq : blocks.flatten = plain.take (8 * n) := by
    rw [h.holds.flatten]
    exact decrypt_take_cipher key plain N k n h.plain_length (by omega) (by omega)
  refine ⟨heq, fun hmem => ?_⟩
  rw [← heq, List.mem_flatten] at hmem
  obtain ⟨b, hb, hmem⟩ := hmem
  exact h.holds.data.2 b hb hmem

/-- A read that contains a zero, or returns nothing, ends a block. -/
theorem Receiving.mod_eight (h : Receiving key plain N k n blocks st l) {m : ℕ}
    (hz : l.ZeroAtEnd m) (hwire : l.wire ≠ []) (hm : 0 < m)
    (hlast : ((l.arrived m).isEmpty || (l.arrived m).contains 0) = true) :
    (st.ptr + (l.arrived m).length) % 8 = 0 := by
  obtain ⟨-, hle, hzero⟩ := h.length_arrived m
  have hk := h.eq_add_ptr
  have hdata : Conn.dataSize = 8 * 128 := rfl
  rcases Bool.or_eq_true_iff.1 hlast with hempty | hmem
  · have hlen : (l.arrived m).length = 0 := by simpa using hempty
    have := hzero hwire hm hlen
    omega
  · have hlen := hz (by simpa using hmem)
    rw [h.wire, List.length_drop, length_cipher] at hlen
    omega

end Link

/-- The first zero of the plain text is the one behind the text. -/
theorem length_lt_of_mem_take {text pad : List Byte} (h : 0 ∉ text) {j : ℕ}
    (hmem : 0 ∈ (text ++ 0 :: pad).take j) :
    text.length < j ∧ cstr ((text ++ 0 :: pad).take j) = text := by
  rcases Nat.lt_or_ge text.length j with hlt | hge
  · refine ⟨hlt, ?_⟩
    obtain ⟨i, rfl⟩ : ∃ i, j = text.length + (i + 1) := ⟨j - text.length - 1, by omega⟩
    rw [List.take_length_add_append, List.take_succ_cons, cstr_append_of_notMem h, cstr_zero_cons,
      List.append_nil]
  · rw [List.take_append_of_le_length hge] at hmem
    exact absurd (List.mem_of_mem_take hmem) h

/-- A part of the plain text without a zero is a part of the text. -/
theorem le_length_of_notMem_take {text pad : List Byte} {j : ℕ}
    (hj : j ≤ (text ++ 0 :: pad).length) (hmem : 0 ∉ (text ++ 0 :: pad).take j) :
    j ≤ text.length := by
  by_contra hlt
  obtain ⟨i, rfl⟩ : ∃ i, j = text.length + (i + 1) := ⟨j - text.length - 1, by omega⟩
  rw [List.take_length_add_append, List.take_succ_cons] at hmem
  simp at hmem

namespace Link

variable {key plain : List Byte} {N k n : ℕ} {blocks : List (List Byte)} {st : Common DataState}
  {l : Link}

/-- **The end of the reading**: what the parser has been given, when a block with a zero or no block
at all is handed on. -/
theorem Receiving.delivers_iff {text pad : List Byte} (htext : 0 ∉ text)
    (h : Receiving key (text ++ 0 :: pad) N k n blocks st l) {m j : ℕ} (hwire : l.wire ≠ [])
    (hm : 0 < m) (hj : 8 * (n + j) ≤ k + (l.arrived m).length)
    (hend : j = 0 ∧ (l.arrived m).length = 0 ∨ 0 ∈ ((text ++ 0 :: pad).drop (8 * n)).take (8 * j)) :
    Delivers (blocks.map (·, false) ++ [(cstr (((text ++ 0 :: pad).drop (8 * n)).take (8 * j)), true)])
      text ↔ text.length ≤ 1024 := by
  obtain ⟨hle, hle', hzero⟩ := h.length_arrived m
  obtain ⟨hflat, hnot⟩ := h.flatten_eq
  have hk := h.eq_add_ptr
  have hptr := h.ptr_lt
  rw [Stargazer.delivers_iff, hflat]
  rcases hend with ⟨rfl, hlen⟩ | hmem
  · -- the array is full, and what has been handed on are its 1024 bytes
    have hfull := hzero hwire hm hlen
    obtain rfl : n = 128 := by
      have : Conn.dataSize = 1024 := rfl
      omega
    have hlen' : 8 * 128 ≤ (text ++ 0 :: pad).length := by
      rw [h.plain_length]
      omega
    have htake : 8 * 128 ≤ text.length := le_length_of_notMem_take hlen' hnot
    rw [Nat.mul_zero, List.take_zero, show cstr [] = [] from rfl, List.append_nil,
      List.take_append_of_le_length htake, List.take_eq_self_iff]
  · have hmem' : 0 ∈ (text ++ 0 :: pad).take (8 * n + 8 * j) := by
      rw [List.take_add]
      exact List.mem_append_right _ hmem
    obtain ⟨hlt, hcstr⟩ := length_lt_of_mem_take htext hmem'
    rw [← cstr_append_of_notMem hnot, ← List.take_add, hcstr]
    have : Conn.dataSize = 1024 := rfl
    simp only [true_iff]
    omega

/-- The reading of a request goes on, or it has ended and has delivered the texts of at most 1024
bytes. -/
def Accounted (key text pad : List Byte) (N k : ℕ) (l : Link) : Prop :=
  (∃ k' n blocks st, k ≤ k' ∧ Receiving key (text ++ 0 :: pad) N k' n blocks st l) ∨
    (l.conn.state ≠ .data ∧ (Delivers l.parsed text ↔ text.length ≤ 1024))

/-- The connection after a read that left the stream in the state `st'`. -/
def after (key : List Byte) (m : ℕ) (st' : Common DataState) (l : Link) : Link :=
  ⟨{ l.conn with
      bufferSize := l.conn.bufferSize - (l.arrived m).length
      stream := some (key, st')
      state := st'.data.state },
    l.wire.drop (l.arrived m).length⟩

/-- A read is a piece put into the stream. -/
theorem Receiving.recv_eq {env : ConnEnv} (h : Receiving key plain N k n blocks st l) {m : ℕ}
    {l' : Link} (hr : l.recv env m = some l') :
    l.wire ≠ [] ∧ 0 < m ∧ l' = after key m (st.put (decryptStream key (dataCallback env))
      (l.arrived m) ((l.arrived m).isEmpty || (l.arrived m).contains 0)) l := by
  have hdata : st.data.state = .data := by rw [h.holds.data.1]
  simp only [Link.recv, read_of_data env (l.arrived m) h.state h.stream hdata] at hr
  split at hr
  · rename_i hcond
    exact ⟨hcond.2.1, hcond.2.2, (Option.some.inj hr).symm⟩
  · cases hr

/-- The reading goes on if the stream has taken what has arrived. -/
theorem Receiving.after (h : Receiving key plain N k n blocks st l) {m n' : ℕ}
    {blocks' : List (List Byte)} {st' : Common DataState}
    (hst : st'.Holds (Blowfish.decryptBlock (Blowfish.initContext key key.length)) Unfinished
      blocks' n' ((cipher key plain N).take (k + (l.arrived m).length)))
    (hptr : st'.ptr < 8) :
    Receiving key plain N (k + (l.arrived m).length) n' blocks' st' (l.after key m st') where
  state := by
    show st'.data.state = .data
    rw [hst.data.1]
  stream := rfl
  bufferSize := by
    show l.conn.bufferSize - (l.arrived m).length = _
    rw [h.bufferSize, Nat.sub_sub]
  le_dataSize := (h.length_arrived m).1
  le_length := (h.length_arrived m).2.1
  plain_length := h.plain_length
  wire := by
    show l.wire.drop (l.arrived m).length = _
    rw [h.wire, List.drop_drop]
  holds := hst
  ptr_lt := hptr

/-- **One read.**

**Proof sketch.** By `Common.Holds.put_of_le` the stream keeps what has arrived or hands on whole
blocks.  A block without a zero is given to the parser as it is, and the reading goes on; with any
other block it ends. -/
theorem Receiving.recv {env : ConnEnv} (henv : env.Accepts) {text pad : List Byte}
    (htext : 0 ∉ text) (h : Receiving key (text ++ 0 :: pad) N k n blocks st l) {m : ℕ}
    (hz : l.ZeroAtEnd m) {l' : Link} (hr : l.recv env m = some l') :
    Accounted key text pad N (k + 1) l' := by
  obtain ⟨hwire, hm, rfl⟩ := h.recv_eq hr
  obtain ⟨hle, hle', hzero⟩ := h.length_arrived m
  have hk := h.eq_add_ptr
  have hlt := h.ptr_lt
  have hsize : Stargazer.bufferSize = Conn.dataSize := rfl
  have hblockwise : (decryptStream key (dataCallback env)).Blockwise
      (Blowfish.decryptBlock (Blowfish.initContext key key.length)) :=
    (decryptString_passes (R := fun _ _ => False) _ fun _ _ _ h => h.elim).toBlockwise
  have hput := h.holds.put_of_le hblockwise (l.arrived m)
    ((l.arrived m).isEmpty || (l.arrived m).contains 0) (by omega) (h.mod_eight hz hwire hm)
  rw [h.take_append_arrived m] at hput
  obtain ⟨hlast, hst, hptr⟩ | ⟨j, block, hj, hblock, hlast, hcall, hst⟩ := hput
  · have hpos : 0 < (l.arrived m).length :=
      List.length_pos_iff.2 (by simpa using (Bool.or_eq_false_iff.1 hlast).1)
    exact .inl ⟨_, _, _, _, by omega, h.after hst hptr⟩
  · have hjN : 8 * (n + j) ≤ k + (l.arrived m).length := by omega
    rw [decrypt_drop_cipher key _ N _ n j h.plain_length (by omega) hjN] at hblock
    have hlen : block.length = 8 * j := by
      rw [hblock, List.length_take, List.length_drop, h.plain_length]
      omega
    by_cases hend : block = [] ∨ 0 ∈ block
    · obtain ⟨hparsed, hstate⟩ := dataCallback_of_mem env h.holds.data hend
      refine .inr ⟨?_, ?_⟩
      · show (Common.put _ st _ _).data.state ≠ .data
        rw [hcall]
        exact hstate
      · have hend' : j = 0 ∧ (l.arrived m).length = 0 ∨
            0 ∈ ((text ++ 0 :: pad).drop (8 * n)).take (8 * j) := by
          rcases hend with hnil | hmem
          · left
            rw [hnil, List.length_nil] at hlen
            have hmod := h.mod_eight hz hwire hm
              (by by_contra hfalse; have := hlast (by simpa using hfalse); omega)
            omega
          · exact .inr (hblock ▸ hmem)
        show Delivers (Common.put _ st _ _).data.parsed text ↔ _
        rw [hcall, show (decryptStream key (dataCallback env)).callback = dataCallback env from rfl,
          hparsed, hblock]
        exact h.delivers_iff htext hwire hm hjN hend'
    · obtain ⟨hne, hmem⟩ := not_or.1 hend
      obtain ⟨hok, hun⟩ := dataCallback_of_notMem henv h.holds.data hne hmem
      obtain ⟨hst, hptr⟩ := hst hok hun
      have hpos : 0 < (l.arrived m).length := by
        have : 0 < block.length := List.length_pos_iff.2 hne
        omega
      exact .inl ⟨_, _, _, _, by omega, h.after hst hptr⟩

/-! ## Whole requests -/

/-- A request is on its way. -/
theorem exists_receiving_start (c : Conn) (password text : List Byte) :
    ∃ N pad, Receiving password (text ++ 0 :: pad) N 0 0 [] (.new ⟨false, .data, []⟩)
      (start c password text) := by
  obtain ⟨N, pad, hlen, -, htx⟩ := txData_eq password text
  refine ⟨N, pad, ?_⟩
  exact
    { state := rfl
      stream := rfl
      bufferSize := rfl
      le_dataSize := Nat.zero_le _
      le_length := Nat.zero_le _
      plain_length := hlen
      wire := htx
      holds := Common.holds_new ⟨rfl, by simp⟩
      ptr_lt := by simp [Common.new] }

/-- As long as a request is being read, there is something to read. -/
theorem Receiving.wire_ne_nil {text pad : List Byte}
    (h : Receiving key (text ++ 0 :: pad) N k n blocks st l) : l.wire ≠ [] := by
  intro hnil
  have hk := h.eq_add_ptr
  have hlt := h.ptr_lt
  have hlen : l.wire.length = 8 * N - k := by rw [h.wire, List.length_drop, length_cipher]
  have hle := h.le_length
  rw [hnil, List.length_nil] at hlen
  -- all blocks have been handed on, among them the one with the zero
  have htake : (text ++ 0 :: pad).take (8 * n) = text ++ 0 :: pad := by
    rw [List.take_eq_self_iff, h.plain_length]
    omega
  have := h.flatten_eq.2
  rw [htake] at this
  simp at this

/-- What holds of a request at the end of every run of reads. -/
theorem accounted_of_reaches {env : ConnEnv} (henv : env.Accepts) (c : Conn)
    {password text : List Byte} (htext : 0 ∉ text) {reads : List ℕ} {l : Link}
    (h : Transition.Reaches (recv env) ZeroAtEnd (start c password text) reads l) :
    ∃ N pad, Accounted password text pad N 0 l := by
  obtain ⟨N, pad, h₀⟩ := exists_receiving_start c password text
  refine ⟨N, pad, h.invariant ?_ (.inl ⟨0, 0, _, _, le_rfl, h₀⟩)⟩
  intro l₁ m l₂ hl hz hr
  rcases hl with ⟨k, n, blocks, st, -, hl⟩ | ⟨hstate, -⟩
  · rcases hl.recv henv htext hz hr with ⟨k', n', blocks', st', -, hl'⟩ | hl'
    · exact .inl ⟨k', n', blocks', st', Nat.zero_le _, hl'⟩
    · exact .inr hl'
  · simp [recv, hstate] at hr

/-- A read up to the end of a block is always possible. -/
theorem Receiving.exists_recv (env : ConnEnv) {text pad : List Byte}
    (h : Receiving key (text ++ 0 :: pad) N k n blocks st l) :
    ∃ m l', l.ZeroAtEnd m ∧ l.recv env m = some l' := by
  have hk := h.eq_add_ptr
  have hlt := h.ptr_lt
  have hdata : st.data.state = .data := by rw [h.holds.data.1]
  have hrecv : ∃ l', l.recv env (8 - st.ptr) = some l' := by
    simp only [Link.recv, read_of_data env (l.arrived (8 - st.ptr)) h.state h.stream hdata]
    rw [if_pos ⟨h.state, h.wire_ne_nil, by omega⟩]
    exact ⟨_, rfl⟩
  obtain ⟨l', hl'⟩ := hrecv
  refine ⟨8 - st.ptr, l', fun hmem => ?_, hl'⟩
  have hlen : l.wire.length = 8 * N - k := by rw [h.wire, List.length_drop, length_cipher]
  have hsize : Conn.dataSize = 8 * 128 := rfl
  have hpos : 0 < (l.arrived (8 - st.ptr)).length := List.length_pos_of_mem hmem
  rw [arrived, List.length_take, hlen, h.bufferSize] at hpos ⊢
  omega

/-- Every request is read to an end.

**Proof sketch.** Induction on the number of bytes that have not been read. -/
theorem Receiving.exists_ended {env : ConnEnv} (henv : env.Accepts) {text pad : List Byte}
    (htext : 0 ∉ text) (h : Receiving key (text ++ 0 :: pad) N k n blocks st l) :
    ∃ reads l', Transition.Reaches (Link.recv env) ZeroAtEnd l reads l' ∧ l'.Ended := by
  induction hd : 8 * N - k using Nat.strong_induction_on generalizing k n blocks st l with
  | _ d ih =>
    obtain ⟨m, l₁, hz, hr⟩ := h.exists_recv env
    rcases h.recv henv htext hz hr with ⟨k', n', blocks', st', hk', h'⟩ | ⟨hstate, -⟩
    · have hle := h'.le_length
      obtain ⟨reads, l', hreach, hend⟩ := ih (8 * N - k') (by omega) h' rfl
      exact ⟨m :: reads, l', .cons hz hr hreach, hend⟩
    · exact ⟨[m], l₁, .cons hz hr (.nil l₁), .inl hstate⟩

/-- There is no run of reads that is longer than the bytes sent, and one more. -/
theorem Receiving.length_le {env : ConnEnv} (henv : env.Accepts) {text pad : List Byte}
    (htext : 0 ∉ text) (h : Receiving key (text ++ 0 :: pad) N k n blocks st l) {reads : List ℕ}
    {l' : Link} (hreach : Transition.Reaches (Link.recv env) ZeroAtEnd l reads l') :
    reads.length ≤ 8 * N - k + 1 := by
  induction hreach generalizing k n blocks st with
  | nil => exact Nat.zero_le _
  | cons hz hr hrest ih =>
    rcases h.recv henv htext hz hr with ⟨k', n', blocks', st', hk', h'⟩ | ⟨hstate, -⟩
    · have hle := h'.le_length
      have := ih h'
      rw [List.length_cons]
      omega
    · cases hrest with
      | nil => simp
      | cons _ hr' _ => simp [Link.recv, hstate] at hr'

end Link

/-- The calls of the parser at the end of a run of reads. -/
theorem delivers_iff_of_ended {env : ConnEnv} (henv : env.Accepts) (c : Conn)
    {password text : List Byte} (htext : 0 ∉ text) {reads : List ℕ} {l : Link}
    (h : Transition.Reaches (Link.recv env) Link.ZeroAtEnd (Link.start c password text) reads l)
    (hend : l.Ended) : Delivers l.parsed text ↔ text.length ≤ 1024 := by
  obtain ⟨N, pad, hacc⟩ := Link.accounted_of_reaches henv c htext h
  rcases hacc with ⟨k, n, blocks, st, -, hl⟩ | ⟨-, hiff⟩
  · rcases hend with hstate | hwire
    · exact absurd hl.state hstate
    · exact absurd hwire hl.wire_ne_nil
  · exact hiff

/-- **Which requests are delivered.** When each read whose bytes contain a zero ends between two
blocks, the reading of a request comes to an end, and the parser has then been given the request,
in order, once and marked final at its end, exactly if it has at most 1024 bytes. -/
theorem delivers_iff_length_le (env : ConnEnv) (henv : env.Accepts) (c : Conn)
    (password text : List Byte) (htext : 0 ∉ text) :
    (∀ reads l, Transition.Reaches (Link.recv env) Link.ZeroAtEnd (Link.start c password text)
        reads l →
      reads.length ≤ (txData password text).length + 1 ∧
      (l.Ended → (Delivers l.parsed text ↔ text.length ≤ 1024))) ∧
    ∃ reads l, Transition.Reaches (Link.recv env) Link.ZeroAtEnd (Link.start c password text)
      reads l ∧ l.Ended := by
  obtain ⟨N, pad, h₀⟩ := Link.exists_receiving_start c password text
  have hlen : (txData password text).length = 8 * N := by
    have := congrArg List.length h₀.wire
    rwa [List.length_drop, length_cipher] at this
  refine ⟨fun reads l h => ⟨?_, delivers_iff_of_ended henv c htext h⟩, h₀.exists_ended henv htext⟩
  rw [hlen]
  exact h₀.length_le henv htext h

/-- An environment in which every call succeeds. -/
def ConnEnv.accepting : ConnEnv :=
  ⟨fun _ => none, true, fun _ _ => true, fun _ _ => false, true⟩

theorem ConnEnv.accepting_accepts : ConnEnv.accepting.Accepts := ⟨fun _ _ => rfl, fun _ => rfl⟩

/-- A request of four blocks. -/
theorem delivers_iff_length_le_blocks :
    ∃ reads l, Transition.Reaches (Link.recv .accepting) Link.ZeroAtEnd
      (Link.start .new [1] (List.replicate 30 97)) reads l ∧ l.Ended ∧
      Delivers l.parsed (List.replicate 30 97) := by
  obtain ⟨hall, reads, l, hreach, hend⟩ :=
    delivers_iff_length_le .accepting ConnEnv.accepting_accepts .new [1] (List.replicate 30 97) (by decide)
  exact ⟨reads, l, hreach, hend, ((hall reads l hreach).2 hend).2 (by decide)⟩

/-- A request of 1025 bytes is not delivered, though every read ends between two blocks. -/
theorem not_delivers_long :
    ∃ reads l, Transition.Runs (Link.recv .accepting)
      (Link.start .new [1] (List.replicate 1025 97)) reads l ∧ l.Ended ∧
      ¬ Delivers l.parsed (List.replicate 1025 97) := by
  have htext : (0 : Byte) ∉ List.replicate 1025 97 := fun h =>
    absurd (List.eq_of_mem_replicate h) (by decide)
  obtain ⟨N, pad, h₀⟩ := Link.exists_receiving_start .new [1] (List.replicate 1025 97)
  obtain ⟨reads, l, hreach, hend⟩ := h₀.exists_ended ConnEnv.accepting_accepts htext
  refine ⟨reads, l, hreach.mono fun _ _ _ => trivial, hend, fun h => ?_⟩
  have hle := (delivers_iff_of_ended ConnEnv.accepting_accepts .new htext hreach hend).1 h
  rw [List.length_replicate] at hle
  omega

end Stargazer
