import Stargazer.Crypto.Blowfish

set_option relaxedAutoImplicit false
set_option autoImplicit false

/-!
# Streams over the block cipher

`libs/crypto/bfstream.cpp`: bytes put into a stream in pieces of any size are collected in a
buffer, processed in place as soon as there are whole blocks, and handed to a callback.  What is
less than a block waits for the next piece, or is filled up with what happens to lie behind it when
the piece is the last one.

## Main definitions

* `Stargazer.Common` — the buffer, the write position, the flag and what the callback works on.
* `Stargazer.Common.put` — `Put`, with its loop and `m_tryConsume`.
* `Stargazer.encryptStream`, `Stargazer.decryptStream` — the two kinds of streams.

## Main results

* `Stargazer.Common.Holds.put`, `Stargazer.Common.Holds.put_last` — what a piece adds to the blocks
  handed over, as long as the callback accepts them.
* `Stargazer.Common.Bounded.puts` — no write leaves the buffer.
* `Stargazer.stream_round_trip` — a message is read back however it and its encryption are cut.
-/

namespace Stargazer

/-- `BUFFER_SIZE`. -/
abbrev bufferSize : ℕ := 1024

/-- The members of `COMMON` that never change; `σ` is the type of what `m_data` points to. -/
structure StreamParams (σ : Type) where
  /-- `m_ctx`. -/
  ctx : BlowfishCtx
  /-- `m_proc`: what is written, given what is to be read and the length. -/
  proc : BlowfishCtx → List Byte → ℕ → List Byte
  /-- `m_callback`. -/
  callback : List Byte → σ → Bool × σ

/-- The members of `COMMON` that `Put` changes. -/
structure Common (σ : Type) where
  /-- `m_buffer`. -/
  buffer : List Byte
  /-- `m_ptr`, as a distance from the beginning of the buffer. -/
  ptr : ℕ
  /-- What `m_data` points to. -/
  data : σ
  /-- `m_ok`. -/
  ok : Bool

/-- `memcpy` and `memmove` into a buffer. -/
def overwrite (buffer : List Byte) (pos : ℕ) (data : List Byte) : List Byte :=
  buffer.take pos ++ data ++ buffer.drop (pos + data.length)

namespace Common

variable {σ : Type}

/-- The constructor of `COMMON`. -/
def new (data : σ) : Common σ := ⟨List.replicate bufferSize 0, 0, data, true⟩

/-- `m_proc(m_buffer, m_buffer, n, &m_ctx)`, then
`m_ok = m_ok && m_callback(m_buffer, n, m_data)`. -/
def consume (p : StreamParams σ) (n : ℕ) (s : Common σ) : Common σ :=
  let buffer := overwrite s.buffer 0 (p.proc p.ctx s.buffer n)
  if s.ok then
    let res := p.callback (buffer.take n) s.data
    { s with buffer := buffer, ok := res.1, data := res.2 }
  else
    { s with buffer := buffer }

/-- The body of the loop of `Put`: the buffer is filled up, processed and consumed. -/
def fill (p : StreamParams σ) (s : Common σ) (data : List Byte) : Common σ :=
  let s := { s with buffer := overwrite s.buffer s.ptr (data.take (bufferSize - s.ptr)) }
  { consume p bufferSize s with ptr := 0 }

/-- The loop of `Put`, with the data that is left. -/
def putLoop (p : StreamParams σ) (s : Common σ) (data : List Byte) : Common σ × List Byte :=
  if bufferSize < s.ptr + data.length then
    putLoop p (fill p s data) (data.drop (bufferSize - s.ptr))
  else
    (s, data)
termination_by s.ptr + data.length
decreasing_by
  simp only [fill, List.length_drop]
  have : bufferSize = 1024 := rfl
  omega

/-- The end of `m_tryConsume`: what is left is moved to the beginning of the buffer. -/
def shift (dataSize remainder : ℕ) (s : Common σ) : Common σ :=
  let buffer :=
    if 0 < remainder then overwrite s.buffer 0 ((s.buffer.drop dataSize).take remainder)
    else s.buffer
  { s with buffer := buffer, ptr := remainder }

/-- `m_tryConsume`. -/
def tryConsume (p : StreamParams σ) (last : Bool) (s : Common σ) : Common σ :=
  let dataSize := s.ptr / 8 * 8
  let remainder := s.ptr - dataSize
  let pad : Bool := last && decide (0 < remainder)
  let dataSize := if pad then dataSize + 8 else dataSize
  let remainder := if pad then 0 else remainder
  if !last && dataSize == 0 then
    s
  else
    let s := consume p dataSize s
    if !s.ok then s else shift dataSize remainder s

/-- `Put`. -/
def put (p : StreamParams σ) (s : Common σ) (data : List Byte) (last : Bool) : Common σ :=
  let (s, data) := putLoop p s data
  if !s.ok then
    s
  else
    tryConsume p last
      { s with buffer := overwrite s.buffer s.ptr data, ptr := s.ptr + data.length }

/-- A number of calls of `Put`, each with a piece and the flag `last`. -/
def puts (p : StreamParams σ) (s : Common σ) (l : List (List Byte × Bool)) : Common σ :=
  l.foldl (fun s d => put p s d.1 d.2) s

end Common

/-- The members of an `ENCRYPT_STREAM`. -/
def encryptStream {σ : Type} (key : List Byte) (callback : List Byte → σ → Bool × σ) :
    StreamParams σ :=
  ⟨Blowfish.initContext key key.length, Blowfish.encryptString, callback⟩

/-- The members of a `DECRYPT_STREAM`. -/
def decryptStream {σ : Type} (key : List Byte) (callback : List Byte → σ → Bool × σ) :
    StreamParams σ :=
  ⟨Blowfish.initContext key key.length, Blowfish.decryptString, callback⟩

/-! ## Writing into a buffer -/

/-- A write inside the buffer keeps its size. -/
theorem length_overwrite (buffer : List Byte) (pos : ℕ) (data : List Byte)
    (h : pos + data.length ≤ buffer.length) : (overwrite buffer pos data).length = buffer.length := by
  simp only [overwrite, List.length_append, List.length_take, List.length_drop]
  omega

/-- What lies before a write, and the write itself. -/
theorem take_overwrite (buffer : List Byte) (pos : ℕ) (data : List Byte)
    (h : pos ≤ buffer.length) :
    (overwrite buffer pos data).take (pos + data.length) = buffer.take pos ++ data := by
  refine List.take_left' ?_
  rw [List.length_append, List.length_take_of_le h]

/-- What lies behind a write. -/
theorem drop_overwrite (buffer : List Byte) (pos : ℕ) (data : List Byte)
    (h : pos ≤ buffer.length) :
    (overwrite buffer pos data).drop (pos + data.length) = buffer.drop (pos + data.length) := by
  refine List.drop_left' ?_
  rw [List.length_append, List.length_take_of_le h]

/-- The buffer is processed whatever the callback does. -/
theorem Common.consume_buffer {σ : Type} (p : StreamParams σ) (n : ℕ) (s : Common σ) :
    (Common.consume p n s).buffer = overwrite s.buffer 0 (p.proc p.ctx s.buffer n) := by
  simp only [Common.consume]
  split <;> rfl

/-! ## Blocks handed over -/

namespace StreamParams

variable {σ : Type}

/-- Whole blocks are processed one by one. -/
structure Blockwise (p : StreamParams σ) (f : List Byte → List Byte) : Prop where
  length : ∀ l, (f l).length = 8
  proc : ∀ src n, 8 * n ≤ src.length → p.proc p.ctx src (8 * n) = Blocks.map 8 f n src

/-- The processing is blockwise, and in a state that stands for a list of blocks handed over the
callback accepts one more. -/
structure Passes (p : StreamParams σ) (f : List Byte → List Byte)
    (R : σ → List (List Byte) → Prop) : Prop extends p.Blockwise f where
  callback : ∀ block d l, R d l → (p.callback block d).1 = true ∧
    R (p.callback block d).2 (l ++ [block])

end StreamParams

namespace Common

variable {σ : Type} {p : StreamParams σ} {f : List Byte → List Byte}
  {R : σ → List (List Byte) → Prop}

/-- All callbacks accepted, the blocks handed over are the first `n` blocks of the input, and the
rest of the input is in the buffer. -/
structure Holds (f : List Byte → List Byte) (R : σ → List (List Byte) → Prop)
    (blocks : List (List Byte)) (n : ℕ) (input : List Byte) (s : Common σ) : Prop where
  ok : s.ok = true
  length : s.buffer.length = bufferSize
  ptr_le : s.ptr ≤ bufferSize
  data : R s.data blocks
  input_length : input.length = 8 * n + s.ptr
  pending : s.buffer.take s.ptr = input.drop (8 * n)
  flatten : blocks.flatten = Blocks.map 8 f n input

variable {blocks : List (List Byte)} {n : ℕ} {input : List Byte} {s : Common σ}

theorem holds_new {d : σ} (h : R d []) : Holds f R [] 0 [] (new d) where
  ok := rfl
  length := List.length_replicate
  ptr_le := Nat.zero_le _
  data := h
  input_length := rfl
  pending := rfl
  flatten := rfl

/-- Copying a piece to the write position. -/
theorem Holds.append (h : Holds f R blocks n input s) (data : List Byte)
    (hd : s.ptr + data.length ≤ bufferSize) :
    Holds f R blocks n (input ++ data)
      { s with buffer := overwrite s.buffer s.ptr data, ptr := s.ptr + data.length } where
  ok := h.ok
  length := by
    rw [length_overwrite _ _ _ (by rw [h.length]; exact hd), h.length]
  ptr_le := hd
  data := h.data
  input_length := by rw [List.length_append, h.input_length, Nat.add_assoc]
  pending := by
    have hn : 8 * n ≤ input.length := by
      rw [h.input_length]
      omega
    rw [take_overwrite _ _ _ (by rw [h.length]; exact h.ptr_le), h.pending,
      List.drop_append_of_le_length hn]
  flatten := by
    rw [h.flatten, Blocks.map_append_of_le]
    rw [h.input_length]
    omega

/-- Moving the write position: what lies behind it counts as input. -/
theorem Holds.advance (h : Holds f R blocks n input s) (k : ℕ) (hk : s.ptr + k ≤ bufferSize) :
    Holds f R blocks n (input ++ (s.buffer.drop s.ptr).take k) { s with ptr := s.ptr + k } := by
  have hlen : ((s.buffer.drop s.ptr).take k).length = k := by
    rw [List.length_take, List.length_drop, h.length]
    omega
  have hwrite : overwrite s.buffer s.ptr ((s.buffer.drop s.ptr).take k) = s.buffer := by
    rw [overwrite, hlen, ← List.drop_drop, List.append_assoc, List.take_append_drop,
      List.take_append_drop]
  have := h.append ((s.buffer.drop s.ptr).take k) (by rw [hlen]; exact hk)
  rwa [hlen, hwrite] at this

/-- The buffer from a position on is what is moved to its beginning. -/
theorem take_shift_buffer (s : Common σ) (a r : ℕ) (h : a + r ≤ s.buffer.length) :
    (shift a r s).buffer.take r = (s.buffer.drop a).take r := by
  have hlen : ((s.buffer.drop a).take r).length = r := by
    rw [List.length_take, List.length_drop]
    omega
  rcases Nat.eq_zero_or_pos r with rfl | hr
  · simp
  · have := take_overwrite s.buffer 0 ((s.buffer.drop a).take r) (Nat.zero_le _)
    rw [hlen, Nat.zero_add, List.take_zero, List.nil_append] at this
    simpa only [shift, if_pos hr] using this

/-- Moving the rest keeps the size of the buffer. -/
theorem length_shift_buffer (s : Common σ) (a r : ℕ) (h : a + r ≤ s.buffer.length) :
    (shift a r s).buffer.length = s.buffer.length := by
  rcases Nat.eq_zero_or_pos r with rfl | hr
  · rfl
  · simp only [shift, if_pos hr]
    refine length_overwrite _ _ _ ?_
    rw [List.length_take, List.length_drop]
    omega

/-- What the callback is called with when `m` whole blocks are consumed. -/
theorem Holds.consume_eq (hp : p.Blockwise f) (h : Holds f R blocks n input s) (m : ℕ)
    (hm : 8 * m ≤ s.ptr) :
    Common.consume p (8 * m) s =
      { s with
        buffer := overwrite s.buffer 0 (Blocks.map 8 f m s.buffer)
        ok := (p.callback (Blocks.map 8 f m (input.drop (8 * n))) s.data).1
        data := (p.callback (Blocks.map 8 f m (input.drop (8 * n))) s.data).2 } := by
  have hbuf : 8 * m ≤ s.buffer.length := by
    rw [h.length]
    exact hm.trans h.ptr_le
  have hlen : (Blocks.map 8 f m s.buffer).length = 8 * m := Blocks.length_map hp.length m _
  -- only the blocks before the write position are read
  have hpending : Blocks.map 8 f m s.buffer = Blocks.map 8 f m (input.drop (8 * n)) := by
    have hle : 8 * m ≤ (s.buffer.take s.ptr).length := by
      rw [List.length_take_of_le (by rw [h.length]; exact h.ptr_le)]
      exact hm
    rw [← h.pending, ← Blocks.map_append_of_le m (s.buffer.take s.ptr) (s.buffer.drop s.ptr) hle,
      List.take_append_drop]
  have htake : (overwrite s.buffer 0 (Blocks.map 8 f m s.buffer)).take (8 * m) =
      Blocks.map 8 f m (input.drop (8 * n)) := by
    have := take_overwrite s.buffer 0 (Blocks.map 8 f m s.buffer) (Nat.zero_le _)
    rw [hlen, Nat.zero_add, List.take_zero, List.nil_append] at this
    rw [this, hpending]
  simp only [Common.consume, h.ok, if_true, hp.proc _ _ hbuf, htake]

/-- **Consuming `m` whole blocks** that the callback accepts hands them over and leaves the rest. -/
theorem Holds.consume_of_callback (hp : p.Blockwise f) (h : Holds f R blocks n input s) (m : ℕ)
    (hm : 8 * m ≤ s.ptr)
    (hok : (p.callback (Blocks.map 8 f m (input.drop (8 * n))) s.data).1 = true)
    (hR : R (p.callback (Blocks.map 8 f m (input.drop (8 * n))) s.data).2
      (blocks ++ [Blocks.map 8 f m (input.drop (8 * n))])) :
    (Common.consume p (8 * m) s).ok = true ∧
      Holds f R (blocks ++ [Blocks.map 8 f m (input.drop (8 * n))]) (n + m) input
        (shift (8 * m) (s.ptr - 8 * m) (Common.consume p (8 * m) s)) := by
  have hbuf : 8 * m ≤ s.buffer.length := by
    rw [h.length]
    exact hm.trans h.ptr_le
  have hlen : (Blocks.map 8 f m s.buffer).length = 8 * m := Blocks.length_map hp.length m _
  have hdrop : (overwrite s.buffer 0 (Blocks.map 8 f m s.buffer)).drop (8 * m) =
      s.buffer.drop (8 * m) := by
    have := drop_overwrite s.buffer 0 (Blocks.map 8 f m s.buffer) (Nat.zero_le _)
    rwa [hlen, Nat.zero_add] at this
  have hsize : (overwrite s.buffer 0 (Blocks.map 8 f m s.buffer)).length = bufferSize := by
    rw [length_overwrite _ _ _ (by rw [hlen]; omega), h.length]
  have hfit : 8 * m + (s.ptr - 8 * m) ≤ bufferSize := by
    rw [Nat.add_sub_cancel' hm]
    exact h.ptr_le
  rw [h.consume_eq hp m hm]
  refine ⟨hok, ⟨hok, ?_, ?_, hR, ?_, ?_, ?_⟩⟩
  · rw [length_shift_buffer _ _ _ (by rw [hsize]; exact hfit), hsize]
  · exact (Nat.sub_le _ _).trans h.ptr_le
  · rw [h.input_length]
    simp only [shift]
    omega
  · rw [show (shift (8 * m) (s.ptr - 8 * m) _).ptr = s.ptr - 8 * m from rfl,
      take_shift_buffer _ _ _ (by rw [hsize]; exact hfit), hdrop, ← List.drop_take, h.pending,
      List.drop_drop]
    ring_nf
  · rw [List.flatten_append, h.flatten, List.flatten_singleton, Blocks.map_add]

/-- Consuming whole blocks with a callback that accepts everything. -/
theorem Holds.consume (hp : p.Passes f R) (h : Holds f R blocks n input s) (m : ℕ)
    (hm : 8 * m ≤ s.ptr) :
    (Common.consume p (8 * m) s).ok = true ∧
      Holds f R (blocks ++ [Blocks.map 8 f m (input.drop (8 * n))]) (n + m) input
        (shift (8 * m) (s.ptr - 8 * m) (Common.consume p (8 * m) s)) := by
  obtain ⟨hok, hR⟩ := hp.callback (Blocks.map 8 f m (input.drop (8 * n))) s.data blocks h.data
  exact h.consume_of_callback hp.toBlockwise m hm hok hR

/-! ## Pieces -/

/-- Less than a block is kept for the next piece. -/
theorem tryConsume_of_lt (p : StreamParams σ) (s : Common σ) (h : s.ptr < 8) :
    tryConsume p false s = s := by
  have hzero : s.ptr / 8 * 8 = 0 := by omega
  simp [tryConsume, hzero]

/-- Whole blocks are consumed, unless a last one has to be filled up. -/
theorem tryConsume_whole (p : StreamParams σ) (last : Bool) (s : Common σ)
    (h : last = true ∧ s.ptr % 8 = 0 ∨ last = false ∧ 8 ≤ s.ptr) :
    tryConsume p last s =
      if (!(consume p (8 * (s.ptr / 8)) s).ok) = true then consume p (8 * (s.ptr / 8)) s
      else shift (8 * (s.ptr / 8)) (s.ptr - 8 * (s.ptr / 8)) (consume p (8 * (s.ptr / 8)) s) := by
  have hcomm : s.ptr / 8 * 8 = 8 * (s.ptr / 8) := Nat.mul_comm _ _
  rcases h with ⟨rfl, h⟩ | ⟨rfl, h⟩
  · have hrem : s.ptr - 8 * (s.ptr / 8) = 0 := by omega
    simp [tryConsume, hcomm, hrem]
  · have hgo : (8 * (s.ptr / 8) == 0) = false := by
      rw [beq_eq_false_iff_ne]
      omega
    simp [tryConsume, hcomm, hgo]

/-- Whole blocks of a piece that is not the last one are consumed. -/
theorem tryConsume_of_le (p : StreamParams σ) (s : Common σ) (h : 8 ≤ s.ptr)
    (hok : (consume p (8 * (s.ptr / 8)) s).ok = true) :
    tryConsume p false s =
      shift (8 * (s.ptr / 8)) (s.ptr - 8 * (s.ptr / 8)) (consume p (8 * (s.ptr / 8)) s) := by
  rw [tryConsume_whole p false s (.inr ⟨rfl, h⟩), hok]
  rfl

/-- At the last piece all blocks are consumed, also one that is not full. -/
theorem tryConsume_last_eq_ite (p : StreamParams σ) (s : Common σ) :
    tryConsume p true s =
      if (!(consume p (8 * ((s.ptr + 7) / 8)) s).ok) = true then consume p (8 * ((s.ptr + 7) / 8)) s
      else shift (8 * ((s.ptr + 7) / 8)) 0 (consume p (8 * ((s.ptr + 7) / 8)) s) := by
  have hcomm : s.ptr / 8 * 8 = 8 * (s.ptr / 8) := Nat.mul_comm _ _
  rcases Nat.eq_zero_or_pos (s.ptr - 8 * (s.ptr / 8)) with h | h
  · have hsize : (s.ptr + 7) / 8 = s.ptr / 8 := by omega
    rw [hsize]
    simp [tryConsume, hcomm, h]
  · have hsize : 8 * (s.ptr / 8) + 8 = 8 * ((s.ptr + 7) / 8) := by omega
    simp [tryConsume, hcomm, h, hsize]

theorem tryConsume_last (p : StreamParams σ) (s : Common σ)
    (hok : (consume p (8 * ((s.ptr + 7) / 8)) s).ok = true) :
    tryConsume p true s = shift (8 * ((s.ptr + 7) / 8)) 0 (consume p (8 * ((s.ptr + 7) / 8)) s) := by
  rw [tryConsume_last_eq_ite, hok]
  rfl

/-- Consuming does not look at the write position. -/
theorem consume_ptr (p : StreamParams σ) (m q : ℕ) (s : Common σ) :
    consume p m { s with ptr := q } = { consume p m s with ptr := q } := by
  simp only [consume]
  split <;> rfl

/-- Whole blocks are handed over, whether the callback accepts them or not. -/
theorem Holds.tryConsume_whole (hp : p.Blockwise f) (h : Holds f R blocks n input s) (last : Bool)
    (hcond : last = true ∧ s.ptr % 8 = 0 ∨ last = false ∧ 8 ≤ s.ptr) :
    (Common.tryConsume p last s).data =
        (p.callback (Blocks.map 8 f (s.ptr / 8) (input.drop (8 * n))) s.data).2 ∧
      ((p.callback (Blocks.map 8 f (s.ptr / 8) (input.drop (8 * n))) s.data).1 = true →
        R (p.callback (Blocks.map 8 f (s.ptr / 8) (input.drop (8 * n))) s.data).2
          (blocks ++ [Blocks.map 8 f (s.ptr / 8) (input.drop (8 * n))]) →
        Holds f R (blocks ++ [Blocks.map 8 f (s.ptr / 8) (input.drop (8 * n))]) (n + s.ptr / 8) input
          (Common.tryConsume p last s) ∧ (Common.tryConsume p last s).ptr < 8) := by
  have hm : 8 * (s.ptr / 8) ≤ s.ptr := Nat.mul_div_le _ _
  rw [Common.tryConsume_whole p last s hcond]
  constructor
  · have hdata := congrArg Common.data (h.consume_eq hp _ hm)
    split
    · exact hdata
    · exact hdata
  · intro hok hR
    obtain ⟨hok', hc⟩ := h.consume_of_callback hp _ hm hok hR
    rw [hok', Bool.not_true, if_neg Bool.false_ne_true]
    refine ⟨hc, ?_⟩
    simp only [shift]
    omega

/-- What is consumed of a piece that is not the last one. -/
theorem Holds.tryConsume (hp : p.Passes f R) (h : Holds f R blocks n input s) :
    ∃ blocks' n', Holds f R blocks' n' input (Common.tryConsume p false s) := by
  rcases Nat.lt_or_ge s.ptr 8 with hlt | hge
  · exact ⟨blocks, n, by rwa [tryConsume_of_lt p s hlt]⟩
  · obtain ⟨hok, hc⟩ := h.consume hp (s.ptr / 8) (by omega)
    exact ⟨_, _, by rwa [tryConsume_of_le p s hge hok]⟩

/-- What is consumed at the last piece: the bytes behind the write position fill up the last block. -/
theorem Holds.tryConsume_last_eq (hp : p.Passes f R) (h : Holds f R blocks n input s)
    {pad : List Byte} (hpad : pad = (s.buffer.drop s.ptr).take (8 * ((s.ptr + 7) / 8) - s.ptr)) :
    pad.length = 8 * ((s.ptr + 7) / 8) - s.ptr ∧
      Holds f R
        (blocks ++ [Blocks.map 8 f ((s.ptr + 7) / 8) ((input ++ pad).drop (8 * n))])
        (n + (s.ptr + 7) / 8) (input ++ pad) (Common.tryConsume p true s) := by
  subst hpad
  have hle : s.ptr + (8 * ((s.ptr + 7) / 8) - s.ptr) ≤ bufferSize := by
    have := h.ptr_le
    have : bufferSize = 1024 := rfl
    omega
  have hsum : s.ptr + (8 * ((s.ptr + 7) / 8) - s.ptr) = 8 * ((s.ptr + 7) / 8) := by omega
  obtain ⟨hok, hc⟩ := (h.advance _ hle).consume hp ((s.ptr + 7) / 8) (by rw [hsum])
  rw [consume_ptr] at hok hc
  refine ⟨?_, ?_⟩
  · rw [List.length_take, List.length_drop, h.length]
    omega
  · rw [Common.tryConsume_last p s hok]
    simp only [hsum, Nat.sub_self] at hc
    exact hc

/-- What is consumed at the last piece: some bytes are added to fill up the last block. -/
theorem Holds.tryConsume_last (hp : p.Passes f R) (h : Holds f R blocks n input s) :
    ∃ pad : List Byte, pad.length = 8 * ((s.ptr + 7) / 8) - s.ptr ∧
      Holds f R
        (blocks ++ [Blocks.map 8 f ((s.ptr + 7) / 8) ((input ++ pad).drop (8 * n))])
        (n + (s.ptr + 7) / 8) (input ++ pad) (Common.tryConsume p true s) :=
  ⟨_, h.tryConsume_last_eq hp rfl⟩

/-- One iteration of the loop. -/
theorem Holds.fill (hp : p.Passes f R) (h : Holds f R blocks n input s) (data : List Byte)
    (hd : bufferSize < s.ptr + data.length) :
    ∃ blocks' n', Holds f R blocks' n' (input ++ data.take (bufferSize - s.ptr))
      (Common.fill p s data) := by
  have hlen : (data.take (bufferSize - s.ptr)).length = bufferSize - s.ptr := by
    rw [List.length_take]
    omega
  have hfull : s.ptr + (bufferSize - s.ptr) = 8 * 128 := Nat.add_sub_cancel' h.ptr_le
  have ha := h.append (data.take (bufferSize - s.ptr)) (by rw [hlen, hfull])
  rw [hlen, hfull] at ha
  obtain ⟨-, hc⟩ := ha.consume hp 128 le_rfl
  have hfill : Common.fill p s data = shift (8 * 128) (8 * 128 - 8 * 128)
      (Common.consume p (8 * 128)
        { s with
          buffer := overwrite s.buffer s.ptr (data.take (bufferSize - s.ptr))
          ptr := 8 * 128 }) := by
    rw [consume_ptr p (8 * 128) (8 * 128)
      { s with buffer := overwrite s.buffer s.ptr (data.take (bufferSize - s.ptr)) }, Nat.sub_self]
    rfl
  exact ⟨_, _, hfill ▸ hc⟩

/-- **The loop** hands over full buffers, until what is left of the piece fits into the buffer.

**Proof sketch.** Induction on the loop; `Holds.fill` is one iteration. -/
theorem Holds.putLoop (hp : p.Passes f R) (h : Holds f R blocks n input s) (data : List Byte) :
    ∃ blocks' n' done, data = done ++ (Common.putLoop p s data).2 ∧
      Holds f R blocks' n' (input ++ done) (Common.putLoop p s data).1 ∧
      (Common.putLoop p s data).1.ptr + (Common.putLoop p s data).2.length ≤ bufferSize := by
  fun_induction Common.putLoop p s data generalizing blocks n input with
  | case1 s data hlt ih =>
    obtain ⟨blocks₁, n₁, h₁⟩ := h.fill hp data hlt
    obtain ⟨blocks₂, n₂, done, hdone, h₂, hle⟩ := ih h₁
    refine ⟨blocks₂, n₂, data.take (bufferSize - s.ptr) ++ done, ?_, ?_, hle⟩
    · rw [List.append_assoc, ← hdone, List.take_append_drop]
    · rwa [← List.append_assoc]
  | case2 s data hge =>
    exact ⟨blocks, n, [], rfl, by rwa [List.append_nil], Nat.le_of_not_lt hge⟩

/-- `Put` of a piece after its loop. -/
theorem put_eq (p : StreamParams σ) (s : Common σ) (data : List Byte) (last : Bool)
    (hok : (Common.putLoop p s data).1.ok = true) :
    put p s data last = Common.tryConsume p last
      { (Common.putLoop p s data).1 with
        buffer := overwrite (Common.putLoop p s data).1.buffer (Common.putLoop p s data).1.ptr
          (Common.putLoop p s data).2
        ptr := (Common.putLoop p s data).1.ptr + (Common.putLoop p s data).2.length } := by
  simp only [put, hok, Bool.not_true, Bool.false_eq_true, if_false]

/-- The loop of `Put` does nothing for a piece that fits into the buffer. -/
theorem putLoop_of_le (p : StreamParams σ) (s : Common σ) (data : List Byte)
    (h : s.ptr + data.length ≤ bufferSize) : putLoop p s data = (s, data) := by
  rw [putLoop, if_neg (Nat.not_lt.2 h)]

/-- `Put` of a piece that fits into the buffer. -/
theorem put_of_le (p : StreamParams σ) (s : Common σ) (data : List Byte) (last : Bool)
    (hok : s.ok = true) (h : s.ptr + data.length ≤ bufferSize) :
    put p s data last = Common.tryConsume p last
      { s with buffer := overwrite s.buffer s.ptr data, ptr := s.ptr + data.length } := by
  have hloop := putLoop_of_le p s data h
  rw [put_eq p s data last (by rw [hloop]; exact hok), hloop]

/-- **A piece that fits into the buffer**, and ends a block if it is the last one: it waits, or the
whole blocks are handed over, whether the callback accepts them or not. -/
theorem Holds.put_of_le (hp : p.Blockwise f) (h : Holds f R blocks n input s) (data : List Byte)
    (last : Bool) (hle : s.ptr + data.length ≤ bufferSize)
    (hlast : last = true → (s.ptr + data.length) % 8 = 0) :
    (last = false ∧ Holds f R blocks n (input ++ data) (Common.put p s data last) ∧
      (Common.put p s data last).ptr < 8) ∨
    ∃ m block, m = (s.ptr + data.length) / 8 ∧
      block = Blocks.map 8 f m ((input ++ data).drop (8 * n)) ∧
      (last = false → 0 < m) ∧
      (Common.put p s data last).data = (p.callback block s.data).2 ∧
      ((p.callback block s.data).1 = true → R (p.callback block s.data).2 (blocks ++ [block]) →
        Holds f R (blocks ++ [block]) (n + m) (input ++ data) (Common.put p s data last) ∧
        (Common.put p s data last).ptr < 8) := by
  have ha := h.append data hle
  rw [Common.put_of_le p s data last h.ok hle]
  have hwhole (hcond : last = true ∧ (s.ptr + data.length) % 8 = 0 ∨
      last = false ∧ 8 ≤ s.ptr + data.length) := ha.tryConsume_whole hp last hcond
  cases last with
  | false =>
    rcases Nat.lt_or_ge (s.ptr + data.length) 8 with hlt | hge
    · rw [tryConsume_of_lt p _ hlt]
      exact .inl ⟨rfl, ha, hlt⟩
    · exact .inr ⟨_, _, rfl, rfl, fun _ => by omega, hwhole (.inr ⟨rfl, hge⟩)⟩
  | true => exact .inr ⟨_, _, rfl, rfl, nofun, hwhole (.inl ⟨rfl, hlast rfl⟩)⟩

/-- **A piece that is not the last one** is added to the input. -/
theorem Holds.put (hp : p.Passes f R) (h : Holds f R blocks n input s) (data : List Byte) :
    ∃ blocks' n', Holds f R blocks' n' (input ++ data) (Common.put p s data false) := by
  obtain ⟨blocks₁, n₁, done, hdone, h₁, hle⟩ := h.putLoop hp data
  have h₂ := h₁.append _ hle
  rw [List.append_assoc, ← hdone] at h₂
  rw [put_eq p s data false h₁.ok]
  exact h₂.tryConsume hp

/-- **The last piece** is added to the input, and less than a block is added to it. -/
theorem Holds.put_last (hp : p.Passes f R) (h : Holds f R blocks n input s) (data : List Byte) :
    ∃ blocks' n' pad, Holds f R blocks' n' (input ++ data ++ pad) (Common.put p s data true) ∧
      pad.length < 8 ∧ (input ++ data ++ pad).length = 8 * n' := by
  obtain ⟨blocks₁, n₁, done, hdone, h₁, hle⟩ := h.putLoop hp data
  have h₂ := h₁.append _ hle
  rw [List.append_assoc, ← hdone] at h₂
  obtain ⟨pad, hpad, h₃⟩ := h₂.tryConsume_last hp
  have hinput := h₂.input_length
  rw [put_eq p s data true h₁.ok]
  refine ⟨_, _, pad, h₃, by omega, ?_⟩
  rw [List.length_append, hinput, hpad]
  omega

/-- The calls of `Put` for a message in pieces: only the final one has `last` set. -/
def pieces (init : List (List Byte)) (final : List Byte) : List (List Byte × Bool) :=
  init.map (·, false) ++ [(final, true)]

/-- The pieces before the final one. -/
theorem Holds.puts_init (hp : p.Passes f R) (h : Holds f R blocks n input s)
    (init : List (List Byte)) :
    ∃ blocks' n', Holds f R blocks' n' (input ++ init.flatten)
      (puts p s (init.map (·, false))) := by
  induction init generalizing blocks n input s with
  | nil => exact ⟨blocks, n, by rwa [List.flatten_nil, List.append_nil]⟩
  | cons data init ih =>
    obtain ⟨blocks₁, n₁, h₁⟩ := h.put hp data
    obtain ⟨blocks₂, n₂, h₂⟩ := ih h₁
    exact ⟨blocks₂, n₂, by rwa [List.flatten_cons, ← List.append_assoc]⟩

/-- **A message in pieces**: the blocks handed over are those of the message, filled up to whole
blocks. -/
theorem Holds.puts (hp : p.Passes f R) (h : Holds f R [] 0 [] s) (init : List (List Byte))
    (final : List Byte) :
    ∃ blocks n pad, R (Common.puts p s (pieces init final)).data blocks ∧
      (init.flatten ++ final ++ pad).length = 8 * n ∧ pad.length < 8 ∧
      blocks.flatten = Blocks.map 8 f n (init.flatten ++ final ++ pad) := by
  obtain ⟨blocks₁, n₁, h₁⟩ := h.puts_init hp init
  rw [List.nil_append] at h₁
  obtain ⟨blocks, n, pad, h₂, hpad, hlen⟩ := h₁.put_last hp final
  have hputs : Common.puts p s (pieces init final) =
      Common.put p (Common.puts p s (init.map (·, false))) final true := by
    simp [Common.puts, pieces]
  rw [hputs]
  exact ⟨blocks, n, pad, h₂.data, hlen, hpad, h₂.flatten⟩

/-! ## The bounds of the buffer -/

/-- The buffer has its size and the write position is in it. -/
structure Bounded (s : Common σ) : Prop where
  length : s.buffer.length = bufferSize
  ptr_le : s.ptr ≤ bufferSize

/-- What is written has the length of the whole blocks read. -/
def Sized (p : StreamParams σ) : Prop :=
  ∀ src n, 8 * n ≤ src.length → (p.proc p.ctx src (8 * n)).length = 8 * n

theorem bounded_new (d : σ) : (new d).Bounded := ⟨List.length_replicate, Nat.zero_le _⟩

@[simp] theorem consume_ptr_eq (p : StreamParams σ) (m : ℕ) (s : Common σ) :
    (consume p m s).ptr = s.ptr := by
  simp only [consume]
  split <;> rfl

/-- A whole number of blocks is processed inside the buffer. -/
theorem length_consume (hp : Sized p) (m : ℕ) (h : s.buffer.length = bufferSize)
    (hm : 8 * m ≤ bufferSize) : (consume p (8 * m) s).buffer.length = bufferSize := by
  have hproc : (p.proc p.ctx s.buffer (8 * m)).length = 8 * m := hp _ _ (by rw [h]; exact hm)
  have hsize : (overwrite s.buffer 0 (p.proc p.ctx s.buffer (8 * m))).length = bufferSize := by
    rw [length_overwrite _ _ _ (by rw [hproc, h]; omega), h]
  simp only [consume]
  split <;> exact hsize

/-- Copying what fits behind the write position. -/
theorem Bounded.append (h : s.Bounded) (data : List Byte) (hd : s.ptr + data.length ≤ bufferSize) :
    Bounded { s with buffer := overwrite s.buffer s.ptr data, ptr := s.ptr + data.length } :=
  ⟨by rw [length_overwrite _ _ _ (by rw [h.length]; exact hd), h.length], hd⟩

theorem Bounded.fill (hp : Sized p) (h : s.Bounded) (data : List Byte) :
    (Common.fill p s data).Bounded := by
  have hlen : s.ptr + (data.take (bufferSize - s.ptr)).length ≤ bufferSize := by
    have := h.ptr_le
    rw [List.length_take]
    omega
  refine ⟨?_, Nat.zero_le _⟩
  exact length_consume hp 128 (h.append _ hlen).length le_rfl

theorem Bounded.putLoop (hp : Sized p) (h : s.Bounded) (data : List Byte) :
    (Common.putLoop p s data).1.Bounded ∧
      (Common.putLoop p s data).1.ptr + (Common.putLoop p s data).2.length ≤ bufferSize := by
  fun_induction Common.putLoop p s data with
  | case1 s data hlt ih => exact ih (h.fill hp data)
  | case2 s data hge => exact ⟨h, Nat.le_of_not_lt hge⟩

/-- **What `m_tryConsume` can do**: nothing, or consume a number of blocks, and move the rest if the
callback accepts them. -/
theorem tryConsume_cases (p : StreamParams σ) (last : Bool) (s : Common σ) :
    tryConsume p last s = s ∨ ∃ m r, 8 * m + r ≤ 8 * ((s.ptr + 7) / 8) ∧
      (tryConsume p last s = consume p (8 * m) s ∨
        tryConsume p last s = shift (8 * m) r (consume p (8 * m) s)) := by
  have hcomm : s.ptr / 8 * 8 = 8 * (s.ptr / 8) := Nat.mul_comm _ _
  -- the end of the function, after the number of blocks is known
  have hend (m r : ℕ) (hmr : 8 * m + r ≤ 8 * ((s.ptr + 7) / 8)) (t : Common σ)
      (ht : t = if (!last && 8 * m == 0) = true then s
        else if (!(consume p (8 * m) s).ok) = true then consume p (8 * m) s
        else shift (8 * m) r (consume p (8 * m) s)) :
      t = s ∨ ∃ m r, 8 * m + r ≤ 8 * ((s.ptr + 7) / 8) ∧
        (t = consume p (8 * m) s ∨ t = shift (8 * m) r (consume p (8 * m) s)) := by
    split at ht
    · exact .inl ht
    · split at ht
      · exact .inr ⟨m, r, hmr, .inl ht⟩
      · exact .inr ⟨m, r, hmr, .inr ht⟩
  cases hpad : (last && decide (0 < s.ptr - 8 * (s.ptr / 8))) with
  | false =>
    refine hend (s.ptr / 8) (s.ptr - 8 * (s.ptr / 8)) (by omega) _ ?_
    simp only [tryConsume, hcomm, hpad, Bool.false_eq_true, if_false]
  | true =>
    have hpos : 0 < s.ptr - 8 * (s.ptr / 8) := of_decide_eq_true (Bool.and_eq_true_iff.1 hpad).2
    refine hend (s.ptr / 8 + 1) 0 (by omega) _ ?_
    simp only [tryConsume, hcomm, hpad, if_true, Nat.mul_succ]

/-- The whole blocks consumed lie in the buffer, also the one that is filled up. -/
theorem Bounded.tryConsume (hp : Sized p) (h : s.Bounded) (last : Bool) :
    (Common.tryConsume p last s).Bounded := by
  have hptr := h.ptr_le
  have hbuf : bufferSize = 1024 := rfl
  obtain heq | ⟨m, r, hmr, hc⟩ := tryConsume_cases p last s
  · rw [heq]
    exact h
  · have hlen := length_consume hp m h.length (show 8 * m ≤ bufferSize by omega)
    rcases hc with heq | heq
    · rw [heq]
      exact ⟨hlen, by rw [consume_ptr_eq]; exact hptr⟩
    · rw [heq]
      refine ⟨?_, show r ≤ bufferSize by omega⟩
      rw [length_shift_buffer _ _ _ (by rw [hlen]; omega), hlen]

theorem Bounded.put (hp : Sized p) (h : s.Bounded) (data : List Byte) (last : Bool) :
    (Common.put p s data last).Bounded := by
  obtain ⟨hb, hle⟩ := h.putLoop hp data
  simp only [Common.put]
  split
  · exact hb
  · exact (hb.append _ hle).tryConsume hp last

/-- **No write leaves the buffer**, whatever is put into the stream and whatever the callback
returns. -/
theorem Bounded.puts (hp : Sized p) (h : s.Bounded) (l : List (List Byte × Bool)) :
    (Common.puts p s l).Bounded := by
  induction l generalizing s with
  | nil => exact h
  | cons d l ih => exact ih (h.put hp d.1 d.2)

/-! ## Calls of the callback -/

/-- The flag and the data change only where the buffer is consumed. -/
theorem put_invariant {Q : Bool → σ → Prop}
    (hQ : ∀ m s, Q s.ok s.data → Q (consume p m s).ok (consume p m s).data)
    (h : Q s.ok s.data) (data : List Byte) (last : Bool) :
    Q (put p s data last).ok (put p s data last).data := by
  have hloop : Q (putLoop p s data).1.ok (putLoop p s data).1.data := by
    fun_induction putLoop p s data with
    | case1 s data hlt ih => exact ih (hQ bufferSize _ h)
    | case2 s data hge => exact h
  have htry (s : Common σ) (h : Q s.ok s.data) :
      Q (tryConsume p last s).ok (tryConsume p last s).data := by
    obtain heq | ⟨m, r, -, heq | heq⟩ := tryConsume_cases p last s
    · rwa [heq]
    · rw [heq]
      exact hQ _ _ h
    · rw [heq]
      exact hQ _ _ h
  simp only [put]
  split
  · exact hloop
  · exact htry _ hloop

theorem puts_invariant {Q : Bool → σ → Prop}
    (hQ : ∀ m s, Q s.ok s.data → Q (consume p m s).ok (consume p m s).data)
    (h : Q s.ok s.data) (l : List (List Byte × Bool)) :
    Q (puts p s l).ok (puts p s l).data := by
  induction l generalizing s with
  | nil => exact h
  | cons d l ih => exact ih (put_invariant hQ h d.1 d.2)

end Common

/-- A callback that also keeps the list of what it returned. -/
def logged {σ : Type} (callback : List Byte → σ → Bool × σ) (block : List Byte)
    (d : σ × List Bool) : Bool × (σ × List Bool) :=
  let res := callback block d.1
  (res.1, res.2, d.2 ++ [res.1])

/-- Nothing was returned after `false`. -/
def Quiet (results : List Bool) : Prop := ∀ l₁ l₂, results = l₁ ++ false :: l₂ → l₂ = []

/-- As long as the flag is set only `true` was returned. -/
theorem logged_consume {σ : Type} (p : StreamParams (σ × List Bool))
    {callback : List Byte → σ → Bool × σ} (hp : p.callback = logged callback) (m : ℕ)
    (s : Common (σ × List Bool))
    (h : (s.ok = true → ∀ b ∈ s.data.2, b = true) ∧ ∀ b ∈ s.data.2.dropLast, b = true) :
    ((s.consume p m).ok = true → ∀ b ∈ (s.consume p m).data.2, b = true) ∧
      ∀ b ∈ (s.consume p m).data.2.dropLast, b = true := by
  cases hok : s.ok with
  | false =>
    -- the callback is not called
    simp only [Common.consume, hok, Bool.false_eq_true, if_false, false_imp_iff, true_and]
    exact h.2
  | true =>
    have hall := h.1 hok
    simp only [Common.consume, hok, if_true, hp, logged, List.dropLast_concat]
    refine ⟨fun hres b hb => ?_, hall⟩
    rcases List.mem_append.1 hb with hb | hb
    · exact hall b hb
    · rw [List.mem_singleton.1 hb, hres]

/-- **Once the callback returns `false` it is not called again.** -/
theorem quiet_puts {σ : Type} (p : StreamParams (σ × List Bool))
    {callback : List Byte → σ → Bool × σ} (hp : p.callback = logged callback) (d : σ)
    (l : List (List Byte × Bool)) : Quiet (Common.puts p (.new (d, [])) l).data.2 := by
  have h := Common.puts_invariant (p := p) (s := .new (d, []))
    (Q := fun ok d => (ok = true → ∀ b ∈ d.2, b = true) ∧ ∀ b ∈ d.2.dropLast, b = true)
    (logged_consume p hp) ⟨by simp [Common.new], by simp [Common.new]⟩ l
  intro l₁ l₂ heq
  by_contra hne
  have hmem : false ∈ (l₁ ++ false :: l₂).dropLast := by
    rw [List.dropLast_append_of_ne_nil (by simp), List.dropLast_cons_of_ne_nil hne]
    simp
  have := h.2 false (heq ▸ hmem)
  exact Bool.false_ne_true this

/-! ## The round trip -/

/-- A callback that accepts every block and keeps it. -/
def record (block : List Byte) (blocks : List (List Byte)) : Bool × List (List Byte) :=
  (true, blocks ++ [block])

/-- A stream that encrypts, with a callback that accepts everything. -/
theorem encryptString_passes {σ : Type} {R : σ → List (List Byte) → Prop} (ctx : BlowfishCtx)
    {callback : List Byte → σ → Bool × σ}
    (h : ∀ block d l, R d l → (callback block d).1 = true ∧ R (callback block d).2 (l ++ [block])) :
    (StreamParams.mk ctx Blowfish.encryptString callback).Passes (Blowfish.encryptBlock ctx) R where
  length := Blowfish.length_encryptBlock ctx
  proc src n hn := Blowfish.encryptString_eq_map ctx n src hn
  callback := h

/-- A stream that decrypts, with a callback that accepts everything. -/
theorem decryptString_passes {σ : Type} {R : σ → List (List Byte) → Prop} (ctx : BlowfishCtx)
    {callback : List Byte → σ → Bool × σ}
    (h : ∀ block d l, R d l → (callback block d).1 = true ∧ R (callback block d).2 (l ++ [block])) :
    (StreamParams.mk ctx Blowfish.decryptString callback).Passes (Blowfish.decryptBlock ctx) R where
  length := Blowfish.length_decryptBlock ctx
  proc src n _ := Blowfish.decryptString_eq_map ctx n src
  callback := h

theorem encryptString_sized {σ : Type} (ctx : BlowfishCtx) (callback : List Byte → σ → Bool × σ) :
    Common.Sized (.mk ctx Blowfish.encryptString callback) := by
  intro src n hn
  show (Blowfish.encryptString ctx src (8 * n)).length = 8 * n
  rw [Blowfish.encryptString_eq_map ctx n src hn, Blocks.length_map (Blowfish.length_encryptBlock ctx)]

theorem decryptString_sized {σ : Type} (ctx : BlowfishCtx) (callback : List Byte → σ → Bool × σ) :
    Common.Sized (.mk ctx Blowfish.decryptString callback) := by
  intro src n _
  show (Blowfish.decryptString ctx src (8 * n)).length = 8 * n
  rw [Blowfish.decryptString_eq_map ctx n src, Blocks.length_map (Blowfish.length_decryptBlock ctx)]

/-- The blocks handed over for a message put into an encrypting stream in pieces. -/
def encrypted (key : List Byte) (init : List (List Byte)) (final : List Byte) : List (List Byte) :=
  (Common.puts (encryptStream key record) (.new []) (Common.pieces init final)).data

/-- The blocks handed over for a message put into a decrypting stream in pieces. -/
def decrypted (key : List Byte) (init : List (List Byte)) (final : List Byte) : List (List Byte) :=
  (Common.puts (decryptStream key record) (.new []) (Common.pieces init final)).data

/-- The encryption of a message in pieces is that of the message, filled up to whole blocks. -/
theorem encrypted_flatten (key : List Byte) (init : List (List Byte)) (final : List Byte) :
    ∃ n pad, (init.flatten ++ final ++ pad).length = 8 * n ∧ pad.length < 8 ∧
      (encrypted key init final).flatten =
        Blocks.map 8 (Blowfish.encryptBlock (Blowfish.initContext key key.length)) n
          (init.flatten ++ final ++ pad) := by
  have hp : (encryptStream key record).Passes _ (fun d l => d = l) :=
    encryptString_passes _ fun block d l h => ⟨rfl, by rw [h, record]⟩
  obtain ⟨blocks, n, pad, hR, hlen, hpad, hflat⟩ :=
    (Common.holds_new (d := []) rfl).puts hp init final
  exact ⟨n, pad, hlen, hpad, by rw [encrypted, hR, hflat]⟩

/-- The decryption of whole blocks in pieces is that of the blocks. -/
theorem decrypted_flatten (key : List Byte) (init : List (List Byte)) (final : List Byte) (n : ℕ)
    (h : (init.flatten ++ final).length = 8 * n) :
    (decrypted key init final).flatten =
      Blocks.map 8 (Blowfish.decryptBlock (Blowfish.initContext key key.length)) n
        (init.flatten ++ final) := by
  have hp : (decryptStream key record).Passes _ (fun d l => d = l) :=
    decryptString_passes _ fun block d l h => ⟨rfl, by rw [h, record]⟩
  obtain ⟨blocks, m, pad, hR, hlen, hpad, hflat⟩ :=
    (Common.holds_new (d := []) rfl).puts hp init final
  rw [List.length_append, h] at hlen
  obtain rfl : m = n := by omega
  obtain rfl : pad = [] := List.length_eq_zero_iff.1 (by omega)
  rw [List.append_nil] at hflat
  rw [decrypted, hR, hflat]

/-- **Streams**: a message is read back, up to the bytes that fill its last block, however it and its
encryption are cut into pieces; no write leaves the buffer, and the callback is not called again
after it returned `false`, whatever is put into a stream and whatever the callback does. -/
theorem stream_round_trip (key : List Byte) (init : List (List Byte)) (final : List Byte)
    (init' : List (List Byte)) (final' : List Byte)
    (h : init'.flatten ++ final' = (encrypted key init final).flatten) :
    (init.flatten ++ final <+: (decrypted key init' final').flatten ∧
      (decrypted key init' final').flatten.length =
        8 * (((init.flatten ++ final).length + 7) / 8)) ∧
    (∀ (σ : Type) (callback : List Byte → σ → Bool × σ) (d : σ) (l : List (List Byte × Bool)),
      (Common.puts (encryptStream key callback) (.new d) l).Bounded ∧
      (Common.puts (decryptStream key callback) (.new d) l).Bounded ∧
      Quiet (Common.puts (encryptStream key (logged callback)) (.new (d, [])) l).data.2 ∧
      Quiet (Common.puts (decryptStream key (logged callback)) (.new (d, [])) l).data.2) := by
  refine ⟨?_, fun σ callback d l => ⟨?_, ?_, ?_, ?_⟩⟩
  · obtain ⟨n, pad, hlen, hpad, henc⟩ := encrypted_flatten key init final
    have hlen' : (init'.flatten ++ final').length = 8 * n := by
      rw [h, henc, Blocks.length_map (Blowfish.length_encryptBlock _)]
    have hdec : (decrypted key init' final').flatten = init.flatten ++ final ++ pad := by
      rw [decrypted_flatten key init' final' n hlen', h, henc]
      exact Blocks.map_map_of_inverse (Blowfish.length_encryptBlock _)
        (Blowfish.decryptBlock_encryptBlock _) n _ hlen
    rw [hdec, hlen]
    rw [List.length_append] at hlen
    exact ⟨List.prefix_append _ _, by omega⟩
  · exact (Common.bounded_new d).puts (encryptString_sized _ callback) l
  · exact (Common.bounded_new d).puts (decryptString_sized _ callback) l
  · exact quiet_puts _ rfl d l
  · exact quiet_puts _ rfl d l

/-- A message of three bytes in two pieces, decrypted in one. -/
theorem stream_round_trip_abc :
    [97, 98, 99] <+:
      (decrypted [1] [] (encrypted [1] [[97]] [98, 99]).flatten).flatten :=
  (stream_round_trip [1] [[97]] [98, 99] [] _ rfl).1.1

end Stargazer
