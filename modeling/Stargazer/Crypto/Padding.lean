import Stargazer.Crypto.BFStream

set_option relaxedAutoImplicit false
set_option autoImplicit false

/-!
# What fills the last block of an encryption

`ENCRYPT_STREAM` of `libs/crypto/bfstream.cpp` once more.  `EncryptString` fills the last block up with
zeros, but `m_tryConsume` rounds the size up before it calls it, so that it sees whole blocks only:
what fills the last block of a message is what lies behind the write position in the buffer.  The
buffer is cleared once; later there are parts of the message behind the write position, and the
encryption of other parts.

## Main definitions

* `Stargazer.Common.padding` — the bytes that fill the last block, in terms of the buffer before the
  last piece.
* `Stargazer.zeroPad` — a message filled up with zeros.

## Main results

* `Stargazer.encrypted_eq_map` — what a stream makes of a message.
* `Stargazer.encrypted_eq_encryptString_iff` — when this is the encryption of the message.
-/

namespace Stargazer

/-- A message filled up with zeros to whole blocks. -/
def zeroPad (m : List Byte) : List Byte := m.rightpad (8 * ((m.length + 7) / 8)) 0

namespace Common

variable {σ : Type}

/-- The number of times the buffer is full before the end of a piece is copied. -/
def windows (s : Common σ) (data : List Byte) : ℕ := (s.ptr + data.length - 1) / bufferSize

/-- What is in the buffer when the end of a piece is copied: what was there before, or else the
encryption of what filled it last. -/
def behind (ctx : BlowfishCtx) (s : Common σ) (data : List Byte) : List Byte :=
  if s.windows data = 0 then s.buffer
  else
    let window := ((s.buffer.take s.ptr ++ data).drop (bufferSize * (s.windows data - 1))).take bufferSize
    Blowfish.encryptString ctx window bufferSize

/-- The bytes that fill the last block, if a piece is the last one. -/
def padding (ctx : BlowfishCtx) (s : Common σ) (data : List Byte) : List Byte :=
  let rest := s.ptr + data.length - bufferSize * s.windows data
  ((behind ctx s data).drop rest).take (8 * ((rest + 7) / 8) - rest)

variable {p : StreamParams σ} {f : List Byte → List Byte} {s : Common σ}

/-- A full buffer after it has been processed. -/
theorem fill_buffer (hp : p.Blockwise f) (hs : s.Bounded) {data : List Byte}
    (hd : bufferSize < s.ptr + data.length) :
    (fill p s data).buffer = Blocks.map 8 f 128 ((s.buffer.take s.ptr ++ data).take bufferSize) := by
  have hbuf : bufferSize = 8 * 128 := rfl
  have hptr := hs.ptr_le
  have hfront : (s.buffer.take s.ptr).length = s.ptr :=
    List.length_take_of_le (by rw [hs.length]; exact hptr)
  have htake : (data.take (bufferSize - s.ptr)).length = bufferSize - s.ptr :=
    List.length_take_of_le (by omega)
  have hfull : overwrite s.buffer s.ptr (data.take (bufferSize - s.ptr)) =
      (s.buffer.take s.ptr ++ data).take bufferSize := by
    rw [overwrite, htake, List.drop_of_length_le (by rw [hs.length]; omega), List.append_nil,
      List.take_append, hfront,
      List.take_of_length_le (l := s.buffer.take s.ptr) (by rw [hfront]; exact hptr)]
  have hlen : ((s.buffer.take s.ptr ++ data).take bufferSize).length = 8 * 128 := by
    rw [List.length_take_of_le (by rw [List.length_append, hfront]; omega), hbuf]
  have hproc := hp.proc ((s.buffer.take s.ptr ++ data).take bufferSize) 128 hlen.ge
  have hwhole : overwrite ((s.buffer.take s.ptr ++ data).take bufferSize) 0
      (Blocks.map 8 f 128 ((s.buffer.take s.ptr ++ data).take bufferSize)) =
        Blocks.map 8 f 128 ((s.buffer.take s.ptr ++ data).take bufferSize) := by
    rw [overwrite, Blocks.length_map hp.length, List.drop_of_length_le (by omega), List.append_nil,
      List.take_zero, List.nil_append]
  calc (fill p s data).buffer
      = overwrite (overwrite s.buffer s.ptr (data.take (bufferSize - s.ptr))) 0
          (p.proc p.ctx (overwrite s.buffer s.ptr (data.take (bufferSize - s.ptr))) bufferSize) :=
        consume_buffer p bufferSize _
    _ = _ := by rw [hfull, hbuf, hproc, ← hbuf, hwhole]

/-- One window less. -/
theorem windows_fill (p : StreamParams σ) {data : List Byte} (hs : s.ptr ≤ bufferSize)
    (hd : bufferSize < s.ptr + data.length) :
    s.windows data = (fill p s data).windows (data.drop (bufferSize - s.ptr)) + 1 := by
  have hbuf : bufferSize = 1024 := rfl
  simp only [windows, fill, List.length_drop, hbuf] at hs hd ⊢
  omega

theorem windows_of_le {data : List Byte} (h : s.ptr + data.length ≤ bufferSize) :
    s.windows data = 0 := by
  have hbuf : bufferSize = 1024 := rfl
  rw [windows, hbuf]
  omega

/-- Whole blocks are processed inside the buffer. -/
theorem sized_of_blockwise (hp : p.Blockwise f) : Sized p := by
  intro src n hn
  rw [hp.proc src n hn, Blocks.length_map hp.length]

/-- **The loop of `Put`**: where it stops, and what it leaves in the buffer.

**Proof sketch.** Induction on the loop; each iteration takes one window from the front. -/
theorem putLoop_behind (hp : p.Blockwise f) (hs : s.Bounded) (data : List Byte) :
    (putLoop p s data).1.ptr + (putLoop p s data).2.length =
        s.ptr + data.length - bufferSize * s.windows data ∧
      (putLoop p s data).1.buffer =
        if s.windows data = 0 then s.buffer
        else Blocks.map 8 f 128
          (((s.buffer.take s.ptr ++ data).drop (bufferSize * (s.windows data - 1))).take bufferSize) := by
  have hbuf : bufferSize = 1024 := rfl
  fun_induction putLoop p s data with
  | case1 s data hlt ih =>
    obtain ⟨hptr, hbuffer⟩ := ih (hs.fill (sized_of_blockwise hp) data)
    have hwindows := windows_fill p hs.ptr_le hlt
    have hle := hs.ptr_le
    have hzero : (fill p s data).ptr = 0 := rfl
    have hfront : (s.buffer.take s.ptr).length = s.ptr :=
      List.length_take_of_le (by rw [hs.length]; exact hle)
    have hrest : (s.buffer.take s.ptr ++ data).drop bufferSize = data.drop (bufferSize - s.ptr) := by
      rw [List.drop_append, hfront, List.drop_of_length_le (by rw [hfront]; exact hle), List.nil_append]
    rw [hptr, hbuffer, hwindows, hzero]
    generalize (fill p s data).windows (data.drop (bufferSize - s.ptr)) = w
    constructor
    · rw [List.length_drop]
      simp only [hbuf] at hle hlt ⊢
      omega
    · rw [if_neg (Nat.succ_ne_zero w), Nat.add_sub_cancel]
      rcases w with _ | w
      · rw [if_pos rfl, fill_buffer hp hs hlt, Nat.mul_zero, List.drop_zero]
      · rw [if_neg (Nat.succ_ne_zero w), Nat.add_sub_cancel, List.take_zero, List.nil_append,
          Nat.mul_succ, Nat.add_comm (bufferSize * w), ← List.drop_drop, hrest]
  | case2 s data hge =>
    rw [windows_of_le (Nat.le_of_not_lt hge), if_pos rfl]
    exact ⟨rfl, rfl⟩

/-- The window that fills the buffer last is full. -/
theorem length_window (hs : s.Bounded) {data : List Byte} (hw : s.windows data ≠ 0) :
    (((s.buffer.take s.ptr ++ data).drop (bufferSize * (s.windows data - 1))).take bufferSize).length =
      bufferSize := by
  have hfront : (s.buffer.take s.ptr).length = s.ptr :=
    List.length_take_of_le (by rw [hs.length]; exact hs.ptr_le)
  have hbuf : bufferSize = 1024 := rfl
  refine List.length_take_of_le ?_
  rw [List.length_drop, List.length_append, hfront]
  simp only [windows, hbuf] at hw ⊢
  omega

/-- **The last piece**: the bytes that fill its last block are known. -/
theorem Holds.put_last_padding {R : σ → List (List Byte) → Prop} {blocks : List (List Byte)} {n : ℕ}
    {input : List Byte} {ctx : BlowfishCtx} (hp : p.Passes (Blowfish.encryptBlock ctx) R)
    (h : Holds (Blowfish.encryptBlock ctx) R blocks n input s) (data : List Byte) :
    ∃ blocks' n', Holds (Blowfish.encryptBlock ctx) R blocks' n' (input ++ data ++ padding ctx s data)
        (Common.put p s data true) ∧ (padding ctx s data).length < 8 ∧
      (input ++ data ++ padding ctx s data).length = 8 * n' := by
  obtain ⟨blocks₁, n₁, done, hdone, h₁, hle⟩ := h.putLoop hp data
  have h₂ := h₁.append _ hle
  rw [List.append_assoc, ← hdone] at h₂
  have hs : s.Bounded := ⟨h.length, h.ptr_le⟩
  obtain ⟨hptr, hbuffer⟩ := putLoop_behind hp.toBlockwise hs data
  have hbehind : (Common.putLoop p s data).1.buffer = behind ctx s data := by
    rw [hbuffer, behind]
    split_ifs with hzero
    · rfl
    · exact (Blowfish.encryptString_eq_map ctx 128 _ (length_window hs hzero).ge).symm
  have hdrop := drop_overwrite (Common.putLoop p s data).1.buffer (Common.putLoop p s data).1.ptr
    (Common.putLoop p s data).2 (by rw [h₁.length]; exact h₁.ptr_le)
  obtain ⟨hpad, h₃⟩ := h₂.tryConsume_last_eq hp (show padding ctx s data = _ by
    rw [hdrop, hbehind, hptr, padding])
  have hinput := h₂.input_length
  rw [put_eq p s data true h₁.ok]
  refine ⟨_, _, h₃, by omega, ?_⟩
  rw [List.length_append, hinput, hpad]
  omega

end Common

/-! ## The encryption of a message -/

/-- The stream before the last piece is put into it. -/
def beforeLast (key : List Byte) (init : List (List Byte)) : Common (List (List Byte)) :=
  Common.puts (encryptStream key record) (.new []) (init.map (·, false))

/-- **What a stream makes of a message**: the encryption of the message and the bytes that fill its
last block. -/
theorem encrypted_eq_map (key : List Byte) (init : List (List Byte)) (final : List Byte) :
    ∃ n, (init.flatten ++ final ++ Common.padding (Blowfish.initContext key key.length)
          (beforeLast key init) final).length = 8 * n ∧
      (Common.padding (Blowfish.initContext key key.length) (beforeLast key init) final).length < 8 ∧
      (encrypted key init final).flatten =
        Blocks.map 8 (Blowfish.encryptBlock (Blowfish.initContext key key.length)) n
          (init.flatten ++ final ++ Common.padding (Blowfish.initContext key key.length)
            (beforeLast key init) final) := by
  have hp : (encryptStream key record).Passes _ (fun d l => d = l) :=
    encryptString_passes _ fun block d l h => ⟨rfl, by rw [h, record]⟩
  obtain ⟨blocks₁, n₁, h₁⟩ := (Common.holds_new (d := []) rfl).puts_init hp init
  rw [List.nil_append] at h₁
  obtain ⟨blocks, n, h₂, hpad, hlen⟩ := h₁.put_last_padding hp final
  have hputs : Common.puts (encryptStream key record) (.new []) (Common.pieces init final) =
      Common.put (encryptStream key record) (beforeLast key init) final true := by
    simp [Common.puts, Common.pieces, beforeLast]
  refine ⟨n, hlen, hpad, ?_⟩
  rw [encrypted, hputs]
  exact (congrArg List.flatten h₂.data).trans h₂.flatten

/-- **When a stream encrypts a message as `EncryptString` does**: when the bytes that fill its last
block are zero.

**Proof sketch.** Blocks are encrypted one by one, and differently if they differ, since they can be
decrypted; so the two encryptions agree iff what is encrypted does. -/
theorem encrypted_eq_encryptString_iff (key : List Byte) (init : List (List Byte)) (final : List Byte) :
    (encrypted key init final).flatten =
        Blowfish.encryptString (Blowfish.initContext key key.length)
          (zeroPad (init.flatten ++ final)) (zeroPad (init.flatten ++ final)).length ↔
      ∀ b ∈ Common.padding (Blowfish.initContext key key.length) (beforeLast key init) final, b = 0 := by
  obtain ⟨n, hlen, hpad, heq⟩ := encrypted_eq_map key init final
  rw [heq]
  generalize Common.padding (Blowfish.initContext key key.length) (beforeLast key init) final = pad at *
  generalize init.flatten ++ final = m at *
  generalize Blowfish.initContext key key.length = ctx
  rw [List.length_append] at hlen
  have hn : n = (m.length + 7) / 8 := by omega
  have hzero : zeroPad m = m ++ List.replicate pad.length 0 := by
    rw [zeroPad, List.rightpad, ← hn, ← hlen, Nat.add_sub_cancel_left]
  have hlen' : (m ++ List.replicate pad.length (0 : Byte)).length = 8 * n := by
    rw [List.length_append, List.length_replicate, hlen]
  rw [hzero, hlen', Blowfish.encryptString_eq_map ctx n _ hlen'.ge]
  constructor
  · intro hmap
    have hmap' := congrArg (Blocks.map 8 (Blowfish.decryptBlock ctx) n) hmap
    rw [Blocks.map_map_of_inverse (Blowfish.length_encryptBlock ctx)
        (Blowfish.decryptBlock_encryptBlock ctx) n _ (by rw [List.length_append, hlen]),
      Blocks.map_map_of_inverse (Blowfish.length_encryptBlock ctx)
        (Blowfish.decryptBlock_encryptBlock ctx) n _ hlen'] at hmap'
    rw [List.append_cancel_left hmap']
    exact fun b hb => List.eq_of_mem_replicate hb
  · intro hall
    have hpad' : pad = List.replicate pad.length 0 := List.eq_replicate_of_mem hall
    rw [← hpad']

/-- **When the encryption does not depend on how a message is cut**: for two ways to cut a message, what
the streams make of it is the same, and is what `EncryptString` makes of the message filled up with
zeros, iff the bytes that fill the last block are zero both times. -/
theorem encryption_of_pieces_iff (key : List Byte) {init init' : List (List Byte)}
    {final final' : List Byte} (h : init.flatten ++ final = init'.flatten ++ final') :
    ((encrypted key init final).flatten = (encrypted key init' final').flatten ∧
        (encrypted key init final).flatten =
          Blowfish.encryptString (Blowfish.initContext key key.length)
            (zeroPad (init.flatten ++ final)) (zeroPad (init.flatten ++ final)).length) ↔
      (∀ b ∈ Common.padding (Blowfish.initContext key key.length) (beforeLast key init) final, b = 0) ∧
        ∀ b ∈ Common.padding (Blowfish.initContext key key.length) (beforeLast key init') final',
          b = 0 := by
  rw [← encrypted_eq_encryptString_iff key init final, ← encrypted_eq_encryptString_iff key init' final',
    ← h]
  constructor
  · rintro ⟨hsame, henc⟩
    exact ⟨henc, hsame.symm.trans henc⟩
  · rintro ⟨henc, henc'⟩
    exact ⟨henc.trans henc'.symm, henc⟩

/-! ## Short messages -/

/-- Two writes, one behind the other. -/
theorem overwrite_overwrite (buffer a b : List Byte) :
    overwrite (overwrite buffer 0 a) a.length b = overwrite buffer 0 (a ++ b) := by
  have htake := take_overwrite buffer 0 a (Nat.zero_le _)
  have hdrop := drop_overwrite buffer 0 a (Nat.zero_le _)
  rw [Nat.zero_add, List.take_zero, List.nil_append] at htake
  rw [Nat.zero_add] at hdrop
  rw [overwrite, htake, ← List.drop_drop, hdrop, List.drop_drop, overwrite, List.take_zero,
    List.nil_append, Nat.zero_add, List.length_append]

/-- As long as there is less than a block, it waits in the buffer, and the rest of the buffer is still
cleared. -/
theorem beforeLast_of_lt (key : List Byte) {init : List (List Byte)} (h : init.flatten.length < 8) :
    beforeLast key init =
      ⟨overwrite (List.replicate bufferSize 0) 0 init.flatten, init.flatten.length, [], true⟩ := by
  have hbuf : bufferSize = 1024 := rfl
  induction init using List.reverseRecOn with
  | nil => rfl
  | append_singleton init data ih =>
    rw [List.flatten_append, List.flatten_singleton] at h ⊢
    rw [List.length_append] at h
    have hput : beforeLast key (init ++ [data]) =
        Common.put (encryptStream key record) (beforeLast key init) data false := by
      simp [beforeLast, Common.puts]
    rw [hput, ih (by omega), Common.put_of_le _ _ _ _ rfl (show init.flatten.length + _ ≤ _ by omega),
      Common.tryConsume_of_lt _ _ h]
    simp only [List.length_append, overwrite_overwrite]

/-- **Nothing but zeros fills the last block** if less than a block was put into the stream before the
last piece, and the last piece fits into the buffer. -/
theorem padding_of_lt (key : List Byte) {init : List (List Byte)} {final : List Byte}
    (h : init.flatten.length < 8) (hle : init.flatten.length + final.length ≤ bufferSize) :
    ∀ b ∈ Common.padding (Blowfish.initContext key key.length) (beforeLast key init) final, b = 0 := by
  have hdrop := drop_overwrite (List.replicate bufferSize 0) 0 init.flatten (Nat.zero_le _)
  rw [Nat.zero_add] at hdrop
  intro b hb
  rw [Common.padding, Common.behind, beforeLast_of_lt key h, Common.windows_of_le hle, if_pos rfl,
    Nat.mul_zero, Nat.sub_zero, ← List.drop_drop, hdrop] at hb
  have hmem := List.mem_of_mem_drop (List.mem_of_mem_drop (List.mem_of_mem_take hb))
  exact List.eq_of_mem_replicate hmem

/-- A message of three bytes in one piece and in two. -/
theorem encryption_of_abc :
    (encrypted [1] [] [97, 98, 99]).flatten = (encrypted [1] [[97]] [98, 99]).flatten ∧
      (encrypted [1] [] [97, 98, 99]).flatten =
        Blowfish.encryptString (Blowfish.initContext [1] 1) (zeroPad [97, 98, 99])
          (zeroPad [97, 98, 99]).length :=
  (@encryption_of_pieces_iff [1] [] [[97]] [97, 98, 99] [98, 99] rfl).2
    ⟨padding_of_lt [1] (by decide) (by decide), padding_of_lt [1] (by decide) (by decide)⟩

/-- A block that is encrypted as eight ones, under some key. -/
def onesBlock (key : List Byte) : List Byte :=
  Blowfish.decryptBlock (Blowfish.initContext key key.length) (List.replicate 8 1)

/-- What is left in the buffer after this block. -/
theorem buffer_beforeLast_onesBlock (key : List Byte) :
    (beforeLast key [onesBlock key]).ptr = 0 ∧
      (beforeLast key [onesBlock key]).buffer.take 8 = List.replicate 8 1 := by
  have hlen : (onesBlock key).length = 8 := rfl
  obtain ⟨s, hs⟩ : ∃ s : Common (List (List Byte)), s =
      ⟨overwrite (List.replicate bufferSize 0) 0 (onesBlock key), 8, [], true⟩ := ⟨_, rfl⟩
  have hptr : s.ptr = 8 := by rw [hs]
  have htake : s.buffer.take 8 = onesBlock key := by
    have h := take_overwrite (List.replicate bufferSize 0) 0 (onesBlock key) (Nat.zero_le _)
    rw [hlen, Nat.zero_add, List.take_zero, List.nil_append] at h
    rw [hs, h]
  have hproc : Blowfish.encryptString (Blowfish.initContext key key.length) s.buffer 8 =
      List.replicate 8 1 := by
    have hle : 8 * 1 ≤ s.buffer.length := by
      have := congrArg List.length htake
      rw [List.length_take, hlen] at this
      omega
    have hmap := Blowfish.encryptString_eq_map (Blowfish.initContext key key.length) 1 s.buffer hle
    rw [Nat.mul_one, Blocks.map_succ, htake, Blocks.map_zero, List.append_nil, onesBlock,
      Blowfish.encryptBlock_decryptBlock _ _ rfl] at hmap
    exact hmap
  have hsok : s.ok = true := by rw [hs]
  have hput : beforeLast key [onesBlock key] =
      Common.tryConsume (encryptStream key record) false s := by
    have hfirst : beforeLast key [onesBlock key] =
        Common.put (encryptStream key record) (.new []) (onesBlock key) false := by
      simp only [beforeLast, Common.puts, List.map_cons, List.map_nil, List.foldl_cons, List.foldl_nil]
    rw [hfirst, Common.put_of_le _ _ _ _ rfl (by rw [hlen]; decide), hs]
    simp only [Common.new, hlen, Nat.zero_add]
  have hok : (Common.consume (encryptStream key record) (8 * (s.ptr / 8)) s).ok = true := by
    simp only [Common.consume, hsok, if_true]
    rfl
  rw [hput, Common.tryConsume_of_le _ s hptr.ge hok, hptr]
  simp only [Nat.div_self, Nat.mul_one, Nat.sub_self, Common.shift, Nat.lt_irrefl, if_false, true_and,
    Nat.zero_lt_succ, Common.consume, hsok, if_true, encryptStream, hproc]
  exact take_overwrite s.buffer 0 (List.replicate 8 1) (Nat.zero_le _)

/-- **A message of nine bytes in two pieces**: what was left of the first block fills the second one. -/
theorem stale_bytes_encrypted :
    ¬ ((encrypted [1] [onesBlock [1]] [1]).flatten = (encrypted [1] [] (onesBlock [1] ++ [1])).flatten ∧
      (encrypted [1] [onesBlock [1]] [1]).flatten =
        Blowfish.encryptString (Blowfish.initContext [1] 1) (zeroPad (onesBlock [1] ++ [1]))
          (zeroPad (onesBlock [1] ++ [1])).length) := by
  rintro ⟨-, henc⟩
  obtain ⟨hptr, htake⟩ := buffer_beforeLast_onesBlock [1]
  rw [← List.flatten_singleton (l := onesBlock [1])] at henc
  have hall := (encrypted_eq_encryptString_iff [1] [onesBlock [1]] [1]).1 henc
  have hle : (beforeLast [1] [onesBlock [1]]).ptr + [(1 : Byte)].length ≤ bufferSize := by
    rw [hptr]
    decide
  have hdrop : ((beforeLast [1] [onesBlock [1]]).buffer.drop 1).take 7 = List.replicate 7 1 := by
    have hswap := List.drop_take (i := 1) (j := 8) (l := (beforeLast [1] [onesBlock [1]]).buffer)
    rw [htake] at hswap
    exact hswap.symm
  have hpad : Common.padding (Blowfish.initContext [1] [(1 : Byte)].length)
      (beforeLast [1] [onesBlock [1]]) [1] = List.replicate 7 1 := by
    rw [Common.padding, Common.behind, Common.windows_of_le hle, if_pos rfl, hptr]
    exact hdrop
  rw [hpad] at hall
  exact absurd (hall 1 (by decide)) (by decide)

end Stargazer
