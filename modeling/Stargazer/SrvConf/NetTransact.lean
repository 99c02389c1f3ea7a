import Stargazer.Crypto.BFStream

set_option relaxedAutoImplicit false
set_option autoImplicit false

/-!
# Receiving an answer

`NetTransact::RxDataAnswer` and `NetTransact::RxCrypto` of `libs/srvconf/netunit.cpp`: what arrives is
put into a stream that decrypts, and the loop ends when a zero has been decrypted.  At the end of the
file `read` returns 0 again and again, and each time an empty last piece is put into the stream, which
calls the callback with an empty text.  If the stream ends inside of a block, the first of these
decrypts the rest of the block together with what is left in the buffer behind it.

## Main definitions

* `Stargazer.NetTransact.rxDataAnswer` — the loop, for a number of rounds.
* `Stargazer.NetTransact.handle` — what the callbacks make of a list of decrypted texts.
* `Stargazer.NetTransact.answer`, `Stargazer.NetTransact.lastBlock` — the decryption of what arrives.
* `Stargazer.NetTransact.ReceivesRight` — the loop ends, and reports success only after a zero.

## Main results

* `Stargazer.Common.Pending.put`, `Stargazer.Common.Pending.put_last` — one piece.
* `Stargazer.NetTransact.ends_iff` — what the loop returns.
* `Stargazer.NetTransact.receivesRight_iff` — the answers that are received right.
-/

namespace Stargazer

/-! ## One piece -/

namespace Common

variable {σ : Type} {p : StreamParams σ} {f : List Byte → List Byte} {s : Common σ} {l : List Byte}

/-- All callbacks accepted, and less than a block waits in the buffer. -/
structure Pending (s : Common σ) (l : List Byte) : Prop where
  ok : s.ok = true
  length : s.buffer.length = bufferSize
  ptr : s.ptr = l.length
  lt : l.length < 8
  pending : s.buffer.take s.ptr = l

theorem pending_new (d : σ) : Pending (new d) [] :=
  ⟨rfl, List.length_replicate, rfl, by decide, rfl⟩

theorem Pending.ptr_le (h : Pending s l) : s.ptr ≤ bufferSize := by
  have hbuf : bufferSize = 1024 := rfl
  have hptr := h.ptr
  have hlt := h.lt
  omega

/-- What waits is the only input so far. -/
theorem Pending.holds (h : Pending s l) : Holds f (fun _ _ => True) [] 0 l s where
  ok := h.ok
  length := h.length
  ptr_le := h.ptr_le
  data := trivial
  input_length := by
    rw [h.ptr]
    omega
  pending := h.pending
  flatten := rfl

/-- Less than a block is left. -/
theorem Holds.pending_of_lt {R : σ → List (List Byte) → Prop} {blocks : List (List Byte)} {n : ℕ}
    {input : List Byte} (h : Holds f R blocks n input s) (hlt : s.ptr < 8) :
    Pending s (input.drop (8 * n)) := by
  have hlen := h.input_length
  have hptr : s.ptr = (input.drop (8 * n)).length := by
    rw [List.length_drop]
    omega
  exact ⟨h.ok, h.length, hptr, by omega, h.pending⟩

/-- Whole blocks are handed over; the callback decides how it goes on. -/
theorem Pending.of_consume (hp : p.Blockwise f) {input : List Byte}
    (h : Holds f (fun _ _ => True) [] 0 input s) (m : ℕ) (hm : 8 * m ≤ s.ptr) (t : Common σ)
    (ht : t = if (!(consume p (8 * m) s).ok) = true then consume p (8 * m) s
      else shift (8 * m) (s.ptr - 8 * m) (consume p (8 * m) s)) :
    t.data = (p.callback (Blocks.map 8 f m input) s.data).2 ∧
      t.ok = (p.callback (Blocks.map 8 f m input) s.data).1 ∧
      (t.ok = true → s.ptr - 8 * m < 8 → Pending t (input.drop (8 * m))) := by
  have heq := h.consume_eq hp m hm
  rw [Nat.mul_zero, List.drop_zero] at heq
  have hcok : (consume p (8 * m) s).ok = (p.callback (Blocks.map 8 f m input) s.data).1 := by
    rw [heq]
  have hcdata : (consume p (8 * m) s).data = (p.callback (Blocks.map 8 f m input) s.data).2 := by
    rw [heq]
  cases hok : (consume p (8 * m) s).ok with
  | false =>
    rw [hok, Bool.not_false, if_pos rfl] at ht
    rw [ht]
    refine ⟨hcdata, hcok, fun htrue => ?_⟩
    rw [hok] at htrue
    cases htrue
  | true =>
    rw [hok, Bool.not_true, if_neg Bool.false_ne_true] at ht
    rw [ht]
    refine ⟨hcdata, hcok, fun _ hlt => ?_⟩
    have hc := (h.consume_of_callback hp m hm (by rw [← hcok.symm.trans hok]; rfl) trivial).2
    rw [Nat.zero_add] at hc
    exact hc.pending_of_lt hlt

/-- What a piece does, with less than a block waiting: it waits with it, or the whole blocks are handed
over and the rest waits. -/
structure Put (p : StreamParams σ) (f : List Byte → List Byte) (s : Common σ) (input : List Byte)
    (t : Common σ) : Prop where
  wait : input.length < 8 → t.data = s.data ∧ Pending t input
  call : 8 ≤ input.length →
    t.data = (p.callback (Blocks.map 8 f (input.length / 8) input) s.data).2 ∧
      t.ok = (p.callback (Blocks.map 8 f (input.length / 8) input) s.data).1 ∧
      (t.ok = true → Pending t (input.drop (8 * (input.length / 8))))

/-- A piece that fits into the buffer. -/
theorem Pending.put_of_le (hp : p.Blockwise f) (h : Pending s l) {seg : List Byte}
    (hle : l.length + seg.length ≤ bufferSize) : Put p f s (l ++ seg) (Common.put p s seg false) := by
  have hptr := h.ptr
  rw [Common.put_of_le p s seg false h.ok (by rw [hptr]; exact hle)]
  have ha := h.holds (f := f).append seg (by rw [hptr]; exact hle)
  obtain ⟨t, ht⟩ : ∃ t : Common σ, t =
      { s with buffer := overwrite s.buffer s.ptr seg, ptr := s.ptr + seg.length } := ⟨_, rfl⟩
  have htptr : t.ptr = (l ++ seg).length := by
    rw [ht, List.length_append, ← hptr]
  have htdata : t.data = s.data := by rw [ht]
  rw [← ht] at ha ⊢
  constructor
  · intro hlt
    rw [tryConsume_of_lt p t (by rw [htptr]; exact hlt)]
    have hpending := ha.pending_of_lt (by rw [htptr]; exact hlt)
    exact ⟨htdata, hpending⟩
  · intro hge
    obtain ⟨hdata, hok, hpending⟩ := Pending.of_consume hp ha (t.ptr / 8) (Nat.mul_div_le _ _) _
      (tryConsume_whole p false t (.inr ⟨rfl, by rw [htptr]; exact hge⟩))
    rw [htptr, htdata] at hdata hok
    rw [htptr] at hpending
    exact ⟨hdata, hok, fun hok' => hpending hok' (by omega)⟩

/-- A piece that does not fit fills the buffer once. -/
theorem put_of_fill {seg : List Byte} (hlt : bufferSize < s.ptr + seg.length)
    (hrest : s.ptr + seg.length - bufferSize ≤ bufferSize) :
    Common.put p s seg false = Common.put p (fill p s seg) (seg.drop (bufferSize - s.ptr)) false := by
  have hzero : (fill p s seg).ptr = 0 := rfl
  have hloop' := putLoop_of_le p (fill p s seg) (seg.drop (bufferSize - s.ptr))
    (by rw [hzero, List.length_drop]; omega)
  have hloop : Common.putLoop p s seg = (fill p s seg, seg.drop (bufferSize - s.ptr)) := by
    rw [Common.putLoop, if_pos hlt, hloop']
  simp only [Common.put, hloop, hloop']

/-- The window that is filled is what waits and the start of the piece. -/
theorem Pending.take_window (h : Pending s l) (seg : List Byte) :
    (l ++ seg).take bufferSize = l ++ seg.take (bufferSize - s.ptr) := by
  have hbuf : bufferSize = 1024 := rfl
  have hptr := h.ptr
  have hl := h.lt
  have hshort : l.take bufferSize = l := List.take_of_length_le (by omega)
  rw [List.take_append, hshort, hptr]

/-- What is behind the window is the rest of the piece. -/
theorem Pending.drop_window (h : Pending s l) (seg : List Byte) :
    (l ++ seg).drop bufferSize = seg.drop (bufferSize - s.ptr) := by
  have hbuf : bufferSize = 1024 := rfl
  have hptr := h.ptr
  have hl := h.lt
  have hshort : l.drop bufferSize = [] := List.drop_of_length_le (by omega)
  rw [List.drop_append, hshort, hptr, List.nil_append]

/-- **A window is filled and handed over.** -/
theorem Pending.fill (hp : p.Blockwise f) (h : Pending s l) {seg : List Byte}
    (hlt : bufferSize < l.length + seg.length) :
    (fill p s seg).buffer.length = bufferSize ∧
      (fill p s seg).data = (p.callback (Blocks.map 8 f 128 (l ++ seg)) s.data).2 ∧
      (fill p s seg).ok = (p.callback (Blocks.map 8 f 128 (l ++ seg)) s.data).1 := by
  have hbuf : bufferSize = 8 * 128 := rfl
  have hptr := h.ptr
  have hl := h.lt
  have hlen : (seg.take (bufferSize - s.ptr)).length = bufferSize - s.ptr := by
    rw [List.length_take]
    omega
  have hmap : Blocks.map 8 f 128 (l ++ seg.take (bufferSize - s.ptr)) =
      Blocks.map 8 f 128 (l ++ seg) := by
    have happend := Blocks.map_append_of_le (b := 8) (f := f) 128 ((l ++ seg).take bufferSize)
      ((l ++ seg).drop bufferSize) (by rw [List.length_take, List.length_append]; omega)
    rw [List.take_append_drop, h.take_window] at happend
    exact happend.symm
  have ha := h.holds (f := f).append (seg.take (bufferSize - s.ptr)) (by rw [hlen]; omega)
  obtain ⟨t, ht⟩ : ∃ t : Common σ, t =
      { s with
        buffer := overwrite s.buffer s.ptr (seg.take (bufferSize - s.ptr))
        ptr := s.ptr + (seg.take (bufferSize - s.ptr)).length } := ⟨_, rfl⟩
  have htptr : t.ptr = 8 * 128 := by
    rw [ht, hlen]
    dsimp only
    omega
  have htdata : t.data = s.data := by rw [ht]
  rw [← ht] at ha
  have heq := ha.consume_eq hp 128 (by rw [htptr])
  rw [Nat.mul_zero, List.drop_zero, hmap, htdata] at heq
  have hfill : Common.fill p s seg = { consume p (8 * 128) t with ptr := 0 } := by
    rw [ht]
    simp only [Common.fill, consume]
    split <;> rfl
  refine ⟨?_, ?_, ?_⟩
  · have hblocks : (Blocks.map 8 f 128 t.buffer).length = 8 * 128 := Blocks.length_map hp.length 128 _
    rw [hfill, heq]
    dsimp only
    rw [length_overwrite _ _ _ (by rw [hblocks, ha.length]), ha.length]
  · rw [hfill, heq]
  · rw [hfill, heq]

/-- A piece that fills the buffer leaves less than a block. -/
theorem Pending.put_of_lt (hp : p.Blockwise f) (h : Pending s l) {seg : List Byte}
    (hseg : seg.length ≤ bufferSize) (hlt : bufferSize < l.length + seg.length) :
    Put p f s (l ++ seg) (Common.put p s seg false) := by
  have hbuf : bufferSize = 8 * 128 := rfl
  have hptr := h.ptr
  have hl := h.lt
  have hrest : (seg.drop (bufferSize - s.ptr)).length = l.length + seg.length - bufferSize := by
    rw [List.length_drop]
    omega
  have hcount : (l ++ seg).length / 8 = 128 := by
    rw [List.length_append]
    omega
  obtain ⟨hsize, hdata, hok⟩ := h.fill hp hlt
  refine ⟨fun hshort => ?_, fun _ => ?_⟩
  · rw [List.length_append] at hshort
    omega
  · rw [hcount, ← hbuf, h.drop_window, put_of_fill (by omega) (by omega)]
    cases hfok : (Common.fill p s seg).ok with
    | false =>
      have hstop : Common.put p (Common.fill p s seg) (seg.drop (bufferSize - s.ptr)) false =
          Common.fill p s seg := by
        have hzero : (Common.fill p s seg).ptr = 0 := rfl
        have hloop := putLoop_of_le p (Common.fill p s seg) (seg.drop (bufferSize - s.ptr))
          (by rw [hzero, hrest]; omega)
        simp only [Common.put, hloop, hfok, Bool.not_false, if_true]
      rw [hstop]
      refine ⟨hdata, hok, fun htrue => ?_⟩
      rw [hfok] at htrue
      cases htrue
    | true =>
      -- and the rest waits
      have hpending : Pending (Common.fill p s seg) [] := ⟨hfok, hsize, rfl, by decide, rfl⟩
      have hput' : Put p f (Common.fill p s seg) ([] ++ seg.drop (bufferSize - s.ptr))
          (Common.put p (Common.fill p s seg) (seg.drop (bufferSize - s.ptr)) false) :=
        hpending.put_of_le hp (by rw [hrest, List.length_nil]; omega)
      obtain ⟨hdata', hpending'⟩ := hput'.wait (by rw [List.nil_append, hrest]; omega)
      exact ⟨hdata'.trans hdata, hpending'.ok.trans (hfok.symm.trans hok), fun _ => hpending'⟩

/-- **A piece of a read.** -/
theorem Pending.put (hp : p.Blockwise f) (h : Pending s l) {seg : List Byte}
    (hseg : seg.length ≤ bufferSize) : Put p f s (l ++ seg) (Common.put p s seg false) := by
  rcases Nat.lt_or_ge bufferSize (l.length + seg.length) with hlt | hle
  · exact h.put_of_lt hp hseg hlt
  · exact h.put_of_le hp hle

/-- What is decrypted when an empty last piece is put into a stream. -/
def lastText (f : List Byte → List Byte) (s : Common σ) : List Byte :=
  if s.ptr = 0 then [] else f (s.buffer.take 8)

/-- **An empty last piece**: what waits is filled up to a block. -/
theorem Pending.put_last (hp : p.Blockwise f) (h : Pending s l) :
    (Common.put p s [] true).data = (p.callback (lastText f s) s.data).2 ∧
      (Common.put p s [] true).ok = (p.callback (lastText f s) s.data).1 ∧
      ((Common.put p s [] true).ok = true → Pending (Common.put p s [] true) []) := by
  have hbuf : bufferSize = 1024 := rfl
  have hlt := h.lt
  have hptr := h.ptr
  have hsame : ({ s with buffer := overwrite s.buffer s.ptr [], ptr := s.ptr + ([] : List Byte).length } :
      Common σ) = s := by
    rw [overwrite, List.append_nil, List.length_nil, Nat.add_zero, List.take_append_drop]
  rw [Common.put_of_le p s [] true h.ok (by rw [List.length_nil]; omega), hsame]
  by_cases hzero : s.ptr = 0
  · have hl : l = [] := List.length_eq_zero_iff.1 (hptr ▸ hzero)
    subst hl
    obtain ⟨hdata, hok, hpending⟩ := Pending.of_consume hp h.holds (s.ptr / 8) (Nat.mul_div_le _ _) _
      (tryConsume_whole p true s (.inl ⟨rfl, by rw [hzero]⟩))
    rw [hzero] at hdata hok hpending
    rw [lastText, if_pos hzero]
    exact ⟨hdata, hok, fun hok' => hpending hok' (by decide)⟩
  · -- the bytes behind the write position count as waiting
    have hsum : s.ptr + (8 - s.ptr) = 8 := by omega
    have hinput : l ++ (s.buffer.drop s.ptr).take (8 - s.ptr) = s.buffer.take 8 := by
      have htake := List.take_add (l := s.buffer) (i := s.ptr) (j := 8 - s.ptr)
      rw [hsum, h.pending] at htake
      exact htake.symm
    have ha := h.holds (f := f).advance (8 - s.ptr) (by omega)
    rw [hsum, hinput] at ha
    obtain ⟨t, ht⟩ : ∃ t : Common σ, t = { s with ptr := 8 } := ⟨_, rfl⟩
    have htptr : t.ptr = 8 * 1 := by rw [ht]
    have htdata : t.data = s.data := by rw [ht]
    have hconsume : consume p (8 * 1) t = { consume p (8 * 1) s with ptr := 8 } := by
      rw [ht]
      exact consume_ptr p (8 * 1) 8 s
    rw [← ht] at ha
    obtain ⟨hdata, hok, hpending⟩ := Pending.of_consume hp ha 1 (by rw [htptr]) _ rfl
    have hblock : Blocks.map 8 f 1 (s.buffer.take 8) = lastText f s := by
      rw [lastText, if_neg hzero, Blocks.map_succ, Blocks.map_zero, List.append_nil, List.take_take]
      rfl
    have hlast : (s.buffer.take 8).drop (8 * 1) = [] := by
      refine List.drop_of_length_le ?_
      rw [List.length_take]
      omega
    have hcount : (s.ptr + 7) / 8 = 1 := by omega
    rw [hblock, htdata] at hdata hok
    rw [hlast] at hpending
    rw [tryConsume_last_eq_ite, hcount]
    rw [hconsume, htptr, Nat.sub_self] at hdata hok hpending
    generalize consume p (8 * 1) s = c at hdata hok hpending ⊢
    obtain ⟨buffer, ptr, data, ok⟩ := c
    cases ok with
    | false => exact ⟨hdata, hok, fun hok' => absurd hok' Bool.false_ne_true⟩
    | true => exact ⟨hdata, hok, fun hok' => hpending hok' (by decide)⟩

/-! ### Two callbacks -/

/-- Two streams have the same in their buffers. -/
structure Alike {τ : Type} (s : Common σ) (t : Common τ) : Prop where
  buffer : s.buffer = t.buffer
  ptr : s.ptr = t.ptr

section Alike

variable {τ : Type} {q : StreamParams τ} {t : Common τ}

theorem Alike.fill (hctx : p.ctx = q.ctx) (hproc : p.proc = q.proc) (h : Alike s t) (data : List Byte) :
    Alike (Common.fill p s data) (Common.fill q t data) := by
  refine ⟨?_, rfl⟩
  simp only [Common.fill, consume_buffer, h.buffer, h.ptr, hctx, hproc]

theorem Alike.putLoop (hctx : p.ctx = q.ctx) (hproc : p.proc = q.proc) (h : Alike s t)
    (data : List Byte) :
    Alike (Common.putLoop p s data).1 (Common.putLoop q t data).1 ∧
      (Common.putLoop p s data).2 = (Common.putLoop q t data).2 := by
  fun_induction Common.putLoop p s data generalizing t with
  | case1 s data hlt ih =>
    have hround : Common.putLoop q t data =
        Common.putLoop q (Common.fill q t data) (data.drop (bufferSize - s.ptr)) := by
      rw [Common.putLoop, if_pos (by rw [← h.ptr]; exact hlt), h.ptr]
    rw [hround]
    exact ih (h.fill hctx hproc data)
  | case2 s data hge =>
    rw [Common.putLoop, if_neg (by rw [← h.ptr]; exact hge)]
    exact ⟨h, rfl⟩

theorem Alike.shift (h : Alike s t) (n r : ℕ) : Alike (Common.shift n r s) (Common.shift n r t) := by
  refine ⟨?_, rfl⟩
  simp only [Common.shift, h.buffer]

/-- A piece that is accepted was accepted in the loop. -/
theorem putLoop_ok {data : List Byte} {last : Bool} (h : (Common.put p s data last).ok = true) :
    (Common.putLoop p s data).1.ok = true := by
  cases hok : (Common.putLoop p s data).1.ok with
  | true => rfl
  | false =>
    simp only [Common.put, hok, Bool.not_false, if_true] at h
    cases h

/-- Whole blocks that are accepted are moved out. -/
theorem tryConsume_of_ok (hge : 8 ≤ s.ptr) (h : (Common.tryConsume p false s).ok = true) :
    Common.tryConsume p false s =
      Common.shift (8 * (s.ptr / 8)) (s.ptr - 8 * (s.ptr / 8)) (consume p (8 * (s.ptr / 8)) s) := by
  refine tryConsume_of_le p s hge ?_
  rw [tryConsume_whole p false s (.inr ⟨rfl, hge⟩)] at h
  cases hok : (consume p (8 * (s.ptr / 8)) s).ok with
  | true => rfl
  | false =>
    rw [hok, Bool.not_false, if_pos rfl, hok] at h
    cases h

/-- **What is in the buffer does not depend on the callback**, as long as it accepts. -/
theorem Alike.put (hctx : p.ctx = q.ctx) (hproc : p.proc = q.proc) (h : Alike s t) (data : List Byte)
    (hs : (Common.put p s data false).ok = true) (ht : (Common.put q t data false).ok = true) :
    Alike (Common.put p s data false) (Common.put q t data false) := by
  obtain ⟨hloop, hrest⟩ := h.putLoop hctx hproc data
  have hsok := putLoop_ok hs
  have htok := putLoop_ok ht
  rw [put_eq p s data false hsok] at hs ⊢
  rw [put_eq q t data false htok] at ht ⊢
  rw [← hrest] at ht ⊢
  generalize (Common.putLoop p s data).2 = rest at *
  obtain ⟨s', hs'⟩ : ∃ s' : Common σ, s' = { (Common.putLoop p s data).1 with
      buffer := overwrite (Common.putLoop p s data).1.buffer (Common.putLoop p s data).1.ptr rest
      ptr := (Common.putLoop p s data).1.ptr + rest.length } := ⟨_, rfl⟩
  obtain ⟨t', ht'⟩ : ∃ t' : Common τ, t' = { (Common.putLoop q t data).1 with
      buffer := overwrite (Common.putLoop q t data).1.buffer (Common.putLoop q t data).1.ptr rest
      ptr := (Common.putLoop q t data).1.ptr + rest.length } := ⟨_, rfl⟩
  have halike : Alike s' t' := by
    rw [hs', ht']
    exact ⟨by rw [hloop.buffer, hloop.ptr], by rw [hloop.ptr]⟩
  rw [← hs'] at hs ⊢
  rw [← ht'] at ht ⊢
  rcases Nat.lt_or_ge s'.ptr 8 with hlt | hge
  · rw [tryConsume_of_lt p s' hlt, tryConsume_of_lt q t' (halike.ptr ▸ hlt)]
    exact halike
  · rw [tryConsume_of_ok hge hs, tryConsume_of_ok (halike.ptr ▸ hge) ht, ← halike.ptr]
    refine Alike.shift ⟨?_, ?_⟩ _ _
    · rw [consume_buffer, consume_buffer, halike.buffer, hctx, hproc]
    · rw [consume_ptr_eq, consume_ptr_eq, halike.ptr]

end Alike

end Common

/-! ## The loop -/

namespace NetTransact

variable {σ : Type}

/-- `NetTransact::Callback`: a text and the flag `last`. -/
abbrev Callback (σ : Type) := List Byte → Bool → σ → Bool × σ

/-- `ReadState`, as far as it changes. -/
structure ReadState (σ : Type) where
  last : Bool
  /-- What `callbackData` points to. -/
  data : σ

/-- `NetTransact::RxCrypto`. -/
def rxCrypto (callback : Option (Callback σ)) (block : List Byte) (state : ReadState σ) :
    Bool × ReadState σ :=
  let last := state.last || block.contains 0
  match callback with
  | none => (true, { state with last := last })
  | some callback =>
    let res := callback (cstr block) last state.data
    (res.1, ⟨last, res.2⟩)

/-- What `RxDataAnswer` returns. -/
inductive Result
  | ok | recvFail | xmlParseError
  deriving DecidableEq

/-- The stream of `RxDataAnswer`. -/
abbrev rxStream (password : List Byte) (callback : Option (Callback σ)) : StreamParams (ReadState σ) :=
  decryptStream password (rxCrypto callback)

/-- A round of the loop, with what `read` returns, and the test of the loop behind it. -/
def round (p : StreamParams (ReadState σ)) (s : Common (ReadState σ)) :
    Option (List Byte) → Common (ReadState σ) ⊕ Result
  | none => .inr .recvFail
  | some seg =>
    let s := Common.put p s seg (decide (seg.length = 0))
    if !s.ok then .inr .xmlParseError
    else if s.data.last then .inr .ok
    else .inl s

/-- The loop of `RxDataAnswer`, for a number of rounds. -/
def loop (p : StreamParams (ReadState σ)) (reads : ℕ → Option (List Byte)) :
    Common (ReadState σ) → ℕ → Common (ReadState σ) ⊕ Result
  | s, 0 => .inl s
  | s, k + 1 =>
    match round p s (reads 0) with
    | .inl s => loop p (fun i => reads (i + 1)) s k
    | .inr r => .inr r

/-- `NetTransact::RxDataAnswer`, for a number of rounds. -/
def rxDataAnswer (password : List Byte) (callback : Option (Callback σ)) (data : σ)
    (reads : ℕ → Option (List Byte)) (k : ℕ) : Common (ReadState σ) ⊕ Result :=
  loop (rxStream password callback) reads (.new ⟨false, data⟩) k

/-- What one `read` can give before the end of the file. -/
abbrev Segment := { seg : List Byte // seg.length ≠ 0 ∧ seg.length ≤ 1024 }

/-- The reads of a stream in segments, with the end of the file behind it. -/
def readsOf : List Segment → ℕ → Option (List Byte)
  | [], _ => some []
  | seg :: _, 0 => some seg.1
  | _ :: segs, k + 1 => readsOf segs k

/-! ## What is asked for -/

/-- The decryption of the whole blocks that arrive. -/
def answer (password : List Byte) (segs : List Segment) : List Byte :=
  let stream := (segs.map Subtype.val).flatten
  Blowfish.decryptBlocks (Blowfish.initContext password password.length) (stream.length / 8) stream

/-- **An answer is received right**: `RxDataAnswer` returns, and it returns `st_ok` only if there is a
zero in what was received. -/
structure ReceivesRight (password : List Byte) (callback : Option (Callback σ)) (data : σ)
    (segs : List Segment) : Prop where
  returns : ∃ k r, rxDataAnswer password callback data (readsOf segs) k = .inr r
  answered : ∀ k, rxDataAnswer password callback data (readsOf segs) k = .inr .ok →
    0 ∈ answer password segs

/-! ## Texts -/

/-- What the callbacks make of a list of decrypted texts: the data of the callback afterwards, or the
result. -/
def handle (callback : Option (Callback σ)) : σ → List (List Byte) → σ ⊕ Result
  | d, [] => .inl d
  | d, text :: texts =>
    let res := rxCrypto callback text ⟨false, d⟩
    if !res.1 then .inr .xmlParseError
    else if text.contains 0 then .inr .ok
    else handle callback res.2.data texts

/-- The texts that are decrypted while a stream arrives, with less than a block waiting. -/
def textsFrom (ctx : BlowfishCtx) : List Byte → List Segment → List (List Byte)
  | _, [] => []
  | waiting, seg :: segs =>
    let input := waiting ++ seg.1
    if input.length < 8 then textsFrom ctx input segs
    else
      Blowfish.decryptBlocks ctx (input.length / 8) input ::
        textsFrom ctx (input.drop (8 * (input.length / 8))) segs

/-- The texts that are decrypted while a stream arrives. -/
def texts (password : List Byte) (segs : List Segment) : List (List Byte) :=
  textsFrom (Blowfish.initContext password password.length) [] segs

/-- What is decrypted first at the end of the file: what is left of the stream, filled up with what is
behind it in the buffer of a stream whose callback accepts everything. -/
def lastBlock (password : List Byte) (segs : List Segment) : List Byte :=
  Common.lastText (Blowfish.decryptBlock (Blowfish.initContext password password.length))
    (Common.puts (decryptStream password record) (.new []) (segs.map fun seg => (seg.1, false)))

section Handle

variable (callback : Option (Callback σ))

/-- The first text decides how it goes on. -/
theorem handle_append (d : σ) (ts us : List (List Byte)) :
    handle callback d (ts ++ us) =
      match handle callback d ts with
      | .inl d' => handle callback d' us
      | .inr r => .inr r := by
  induction ts generalizing d with
  | nil => rfl
  | cons t ts ih =>
    simp only [List.cons_append, handle]
    split_ifs
    · rfl
    · rfl
    · exact ih _

theorem handle_append_of_inl {d d' : σ} {ts : List (List Byte)} (h : handle callback d ts = .inl d')
    (us : List (List Byte)) : handle callback d (ts ++ us) = handle callback d' us := by
  rw [handle_append, h]

theorem handle_append_of_inr {d : σ} {r : Result} {ts : List (List Byte)}
    (h : handle callback d ts = .inr r) (us : List (List Byte)) :
    handle callback d (ts ++ us) = .inr r := by
  rw [handle_append, h]

/-- The callbacks come to an end at a zero. -/
theorem exists_handle_of_zero {ts : List (List Byte)} (h : ∃ t ∈ ts, 0 ∈ t) (d : σ) :
    ∃ r, handle callback d ts = .inr r := by
  induction ts generalizing d with
  | nil =>
    obtain ⟨t, ht, -⟩ := h
    cases ht
  | cons t ts ih =>
    simp only [handle]
    split_ifs with hres hzero
    · exact ⟨_, rfl⟩
    · exact ⟨_, rfl⟩
    · refine ih ?_ _
      obtain ⟨t', ht', hzero'⟩ := h
      rcases List.mem_cons.1 ht' with rfl | ht'
      · exact absurd (List.contains_iff_mem.2 hzero') hzero
      · exact ⟨t', ht', hzero'⟩

/-- There are two results. -/
theorem result_of_handle {d : σ} {r : Result} {ts : List (List Byte)}
    (h : handle callback d ts = .inr r) : r = .ok ∨ r = .xmlParseError := by
  induction ts generalizing d with
  | nil => cases h
  | cons t ts ih =>
    simp only [handle] at h
    split_ifs at h
    · exact .inr (Sum.inr.inj h).symm
    · exact .inl (Sum.inr.inj h).symm
    · exact ih h

end Handle

/-! ## One round -/

section Rounds

variable {password : List Byte} {callback : Option (Callback σ)} {s : Common (ReadState σ)}
  {l : List Byte} {d : σ}

/-- A stream decrypts block by block, whatever the callback does. -/
theorem blockwise_decryptString {τ : Type} (ctx : BlowfishCtx) (callback : List Byte → τ → Bool × τ) :
    (StreamParams.mk ctx Blowfish.decryptString callback).Blockwise (Blowfish.decryptBlock ctx) where
  length := Blowfish.length_decryptBlock ctx
  proc src n _ := Blowfish.decryptString_eq_map ctx n src

theorem blockwise_decryptStream {τ : Type} (password : List Byte)
    (callback : List Byte → τ → Bool × τ) :
    (decryptStream password callback).Blockwise
      (Blowfish.decryptBlock (Blowfish.initContext password password.length)) :=
  blockwise_decryptString _ callback

/-- The loop goes on: less than a block waits, and there was no zero. -/
structure Waits (s : Common (ReadState σ)) (l : List Byte) (d : σ) : Prop where
  pending : s.Pending l
  data : s.data = ⟨false, d⟩

/-- What becomes of a text that is handed over. -/
theorem round_of_call {t : Common (ReadState σ)} {text rest : List Byte}
    (hdata : t.data = (rxCrypto callback text ⟨false, d⟩).2)
    (hok : t.ok = (rxCrypto callback text ⟨false, d⟩).1) (hpending : t.ok = true → t.Pending rest) :
    (∃ d', handle callback d [text] = .inl d' ∧ t.ok = true ∧ t.data.last = false ∧ Waits t rest d') ∨
      ∃ r, handle callback d [text] = .inr r ∧
        (if !t.ok then Sum.inr Result.xmlParseError else if t.data.last then .inr .ok else .inl t) =
          (.inr r : Common (ReadState σ) ⊕ Result) := by
  have hlast : t.data.last = text.contains 0 := by
    rw [hdata]
    cases callback <;> exact Bool.false_or _
  cases hres : (rxCrypto callback text ⟨false, d⟩).1 with
  | false =>
    refine .inr ⟨.xmlParseError, ?_, ?_⟩
    · simp only [handle, hres, Bool.not_false, if_true]
    · rw [hok, hres]
      rfl
  | true =>
    rw [hres] at hok
    cases hzero : text.contains 0 with
    | true =>
      refine .inr ⟨.ok, ?_, ?_⟩
      · simp only [handle, hres, Bool.not_true, Bool.false_eq_true, if_false, hzero, if_true]
      · simp only [hok, hlast, hzero, Bool.not_true, Bool.false_eq_true, if_false, if_true]
    | false =>
      rw [hzero] at hlast
      refine .inl ⟨t.data.data, ?_, hok, hlast, hpending hok, ?_⟩
      · simp only [handle, hres, Bool.not_true, Bool.false_eq_true, if_false, hzero, hdata]
      · rw [← hlast]

variable (password callback) in
/-- **A round with a segment.** -/
theorem Waits.round (h : Waits s l d) (seg : Segment) :
    (∃ s' d', handle callback d
          (if (l ++ seg.1).length < 8 then []
            else [Blowfish.decryptBlocks (Blowfish.initContext password password.length)
              ((l ++ seg.1).length / 8) (l ++ seg.1)]) = .inl d' ∧
        NetTransact.round (rxStream password callback) s (some seg.1) = .inl s' ∧
        s' = Common.put (rxStream password callback) s seg.1 false ∧
        Waits s' ((l ++ seg.1).drop (8 * ((l ++ seg.1).length / 8))) d') ∨
      ∃ r, handle callback d
          (if (l ++ seg.1).length < 8 then []
            else [Blowfish.decryptBlocks (Blowfish.initContext password password.length)
              ((l ++ seg.1).length / 8) (l ++ seg.1)]) = .inr r ∧
        NetTransact.round (rxStream password callback) s (some seg.1) = .inr r := by
  have hput := h.pending.put (blockwise_decryptStream password (rxCrypto callback)) seg.2.2
  have hround : NetTransact.round (rxStream password callback) s (some seg.1) =
      if !(Common.put (rxStream password callback) s seg.1 false).ok then .inr .xmlParseError
      else if (Common.put (rxStream password callback) s seg.1 false).data.last then .inr .ok
      else .inl (Common.put (rxStream password callback) s seg.1 false) := by
    simp only [NetTransact.round, seg.2.1, decide_false]
  rw [hround]
  generalize Common.put (rxStream password callback) s seg.1 false = t at *
  by_cases hlt : (l ++ seg.1).length < 8
  · obtain ⟨hdata, hpending⟩ := hput.wait hlt
    have hdiv : (l ++ seg.1).length / 8 = 0 := by omega
    have hlast : t.data.last = false := by rw [hdata, h.data]
    refine .inl ⟨t, d, by rw [if_pos hlt]; rfl, ?_, rfl, ?_⟩
    · simp only [hpending.ok, hlast, Bool.not_true, Bool.false_eq_true, if_false]
    · rw [hdiv, Nat.mul_zero, List.drop_zero]
      exact ⟨hpending, hdata.trans h.data⟩
  · obtain ⟨hdata, hok, hpending⟩ := hput.call (not_lt.1 hlt)
    rw [← Blowfish.decryptBlocks_eq_map, h.data] at hdata hok
    rw [if_neg hlt]
    rcases round_of_call hdata hok hpending with ⟨d', hhandle, htok, htlast, hwaits⟩ | hend
    · refine .inl ⟨t, d', hhandle, ?_, rfl, hwaits⟩
      simp only [htok, htlast, Bool.not_true, Bool.false_eq_true, if_false]
    · exact .inr hend

/-- **A round at the end of the file.** -/
theorem Waits.round_eof (h : Waits s l d) :
    (∃ s' d', handle callback d
          [Common.lastText (Blowfish.decryptBlock (Blowfish.initContext password password.length)) s] =
            .inl d' ∧
        NetTransact.round (rxStream password callback) s (some []) = .inl s' ∧ Waits s' [] d') ∨
      ∃ r, handle callback d
          [Common.lastText (Blowfish.decryptBlock (Blowfish.initContext password password.length)) s] =
            .inr r ∧
        NetTransact.round (rxStream password callback) s (some []) = .inr r := by
  obtain ⟨hdata, hok, hpending⟩ :=
    h.pending.put_last (blockwise_decryptStream password (rxCrypto callback))
  rw [h.data] at hdata hok
  have hround : NetTransact.round (rxStream password callback) s (some []) =
      if !(Common.put (rxStream password callback) s [] true).ok then .inr .xmlParseError
      else if (Common.put (rxStream password callback) s [] true).data.last then .inr .ok
      else .inl (Common.put (rxStream password callback) s [] true) := by
    simp only [NetTransact.round, List.length_nil, decide_true]
  rw [hround]
  rcases round_of_call hdata hok hpending with ⟨d', hhandle, htok, htlast, hwaits⟩ | hend
  · refine .inl ⟨_, d', hhandle, ?_, hwaits⟩
    simp only [htok, htlast, Bool.not_true, Bool.false_eq_true, if_false]
  · exact .inr hend

/-! ## The whole loop -/

/-- The loop returns. -/
def Ends (p : StreamParams (ReadState σ)) (reads : ℕ → Option (List Byte)) (s : Common (ReadState σ))
    (r : Result) : Prop :=
  ∃ k, loop p reads s k = .inr r

/-- One round of the loop. -/
theorem ends_of_inl {p : StreamParams (ReadState σ)} {reads : ℕ → Option (List Byte)}
    {s s' : Common (ReadState σ)} (h : NetTransact.round p s (reads 0) = .inl s') (r : Result) :
    Ends p reads s r ↔ Ends p (fun i => reads (i + 1)) s' r := by
  constructor
  · rintro ⟨k, hk⟩
    cases k with
    | zero => cases hk
    | succ k =>
      rw [loop, h] at hk
      exact ⟨k, hk⟩
  · rintro ⟨k, hk⟩
    refine ⟨k + 1, ?_⟩
    rw [loop, h]
    exact hk

theorem ends_of_inr {p : StreamParams (ReadState σ)} {reads : ℕ → Option (List Byte)}
    {s : Common (ReadState σ)} {r' : Result} (h : NetTransact.round p s (reads 0) = .inr r')
    (r : Result) : Ends p reads s r ↔ r' = r := by
  constructor
  · rintro ⟨k, hk⟩
    cases k with
    | zero => cases hk
    | succ k =>
      rw [loop, h] at hk
      exact Sum.inr.inj hk
  · rintro rfl
    refine ⟨1, ?_⟩
    rw [loop, h]

/-- Nothing waits, so an empty text is next. -/
theorem Waits.lastText_eq_nil (h : Waits s [] d) (f : List Byte → List Byte) :
    Common.lastText f s = [] := if_pos h.pending.ptr

variable (password callback) in
/-- **At the end of the file**: what waits is filled up, and then there are only empty texts.

**Proof sketch.** One direction by induction on the number of rounds, the other on the number of empty
texts. -/
theorem Waits.ends_eof (h : Waits s l d) (r : Result) :
    Ends (rxStream password callback) (fun _ => some []) s r ↔
      ∃ n, handle callback d
        (Common.lastText (Blowfish.decryptBlock (Blowfish.initContext password password.length)) s ::
          List.replicate n []) = .inr r := by
  constructor
  · rintro ⟨k, hk⟩
    induction k generalizing s l d with
    | zero => cases hk
    | succ k ih =>
      rcases h.round_eof with ⟨s', d', hhandle, hround, hwaits⟩ | ⟨r', hhandle, hround⟩
      · rw [loop, hround] at hk
        obtain ⟨n, hn⟩ := ih hwaits hk
        refine ⟨n + 1, ?_⟩
        rw [hwaits.lastText_eq_nil] at hn
        exact (handle_append_of_inl callback hhandle (List.replicate (n + 1) [])).trans hn
      · rw [loop, hround] at hk
        exact ⟨0, hhandle.trans (congrArg Sum.inr (Sum.inr.inj hk))⟩
  · rintro ⟨n, hn⟩
    induction n generalizing s l d with
    | zero =>
      rcases h.round_eof with ⟨s', d', hhandle, hround, hwaits⟩ | ⟨r', hhandle, hround⟩
      · cases hhandle.symm.trans hn
      · exact (ends_of_inr hround r).2 (Sum.inr.inj (hhandle.symm.trans hn))
    | succ n ih =>
      rcases h.round_eof with ⟨s', d', hhandle, hround, hwaits⟩ | ⟨r', hhandle, hround⟩
      · refine (ends_of_inl hround r).2 (ih hwaits ?_)
        rw [hwaits.lastText_eq_nil]
        exact (handle_append_of_inl callback hhandle (List.replicate (n + 1) [])).symm.trans hn
      · refine (ends_of_inr hround r).2 (Sum.inr.inj (Eq.trans ?_ hn))
        exact (handle_append_of_inr callback hhandle (List.replicate (n + 1) [])).symm

/-- **What the loop returns**, from a state in which less than a block waits; beside it goes a stream
whose callback accepts everything.

**Proof sketch.** Induction on the segments; `Waits.round` is one of them. -/
theorem Waits.ends_iff (h : Waits s l d) {t : Common (List (List Byte))} (ht : t.Pending l)
    (halike : Common.Alike s t) (segs : List Segment) (r : Result) :
    Ends (rxStream password callback) (readsOf segs) s r ↔
      ∃ n, handle callback d
        (textsFrom (Blowfish.initContext password password.length) l segs ++
          Common.lastText (Blowfish.decryptBlock (Blowfish.initContext password password.length))
            (Common.puts (decryptStream password record) t (segs.map fun seg => (seg.1, false))) ::
            List.replicate n []) = .inr r := by
  induction segs generalizing s l d t with
  | nil =>
    have hlast : Common.lastText (Blowfish.decryptBlock (Blowfish.initContext password password.length)) s =
        Common.lastText (Blowfish.decryptBlock (Blowfish.initContext password password.length)) t := by
      rw [Common.lastText, Common.lastText, halike.buffer, halike.ptr]
    have heof := h.ends_eof password callback r
    rw [hlast] at heof
    exact heof
  | cons seg segs ih =>
    have hput := ht.put (blockwise_decryptStream password record) seg.2.2
    have htexts (us : List (List Byte)) :
        textsFrom (Blowfish.initContext password password.length) l (seg :: segs) ++ us =
          (if (l ++ seg.1).length < 8 then []
            else [Blowfish.decryptBlocks (Blowfish.initContext password password.length)
              ((l ++ seg.1).length / 8) (l ++ seg.1)]) ++
          (textsFrom (Blowfish.initContext password password.length)
            ((l ++ seg.1).drop (8 * ((l ++ seg.1).length / 8))) segs ++ us) := by
      rw [textsFrom]
      by_cases hlt : (l ++ seg.1).length < 8
      · have hdiv : (l ++ seg.1).length / 8 = 0 := by omega
        rw [if_pos hlt, if_pos hlt, hdiv, Nat.mul_zero, List.drop_zero, List.nil_append]
      · rw [if_neg hlt, if_neg hlt]
        rfl
    have hpending : (Common.put (decryptStream password record) t seg.1 false).Pending
        ((l ++ seg.1).drop (8 * ((l ++ seg.1).length / 8))) := by
      by_cases hlt : (l ++ seg.1).length < 8
      · have hdiv : (l ++ seg.1).length / 8 = 0 := by omega
        rw [hdiv, Nat.mul_zero, List.drop_zero]
        exact (hput.wait hlt).2
      · obtain ⟨-, hok, hpending⟩ := hput.call (not_lt.1 hlt)
        exact hpending hok
    simp only [htexts]
    rcases h.round password callback seg with
      ⟨s', d', hhandle, hround, hs', hwaits⟩ | ⟨r', hhandle, hround⟩
    · simp only [handle_append_of_inl callback hhandle]
      have hends : Ends (rxStream password callback) (readsOf (seg :: segs)) s r ↔
          Ends (rxStream password callback) (readsOf segs) s' r := ends_of_inl hround r
      rw [hends]
      refine ih hwaits hpending ?_
      rw [hs']
      have hok : (Common.put (rxStream password callback) s seg.1 false).ok = true := by
        rw [← hs']
        exact hwaits.pending.ok
      exact Common.Alike.put (p := rxStream password callback) (q := decryptStream password record)
        rfl rfl halike seg.1 hok hpending.ok
    · simp only [handle_append_of_inr callback hhandle]
      have hends : Ends (rxStream password callback) (readsOf (seg :: segs)) s r ↔ r' = r :=
        ends_of_inr hround r
      rw [hends]
      exact ⟨fun heq => ⟨0, congrArg Sum.inr heq⟩, fun ⟨_, heq⟩ => Sum.inr.inj heq⟩

end Rounds

/-! ## The answer -/

/-- The texts are the decryption of the whole blocks. -/
theorem flatten_textsFrom (ctx : BlowfishCtx) (l : List Byte) (segs : List Segment) (hl : l.length < 8) :
    (textsFrom ctx l segs).flatten =
      Blowfish.decryptBlocks ctx ((l ++ (segs.map Subtype.val).flatten).length / 8)
        (l ++ (segs.map Subtype.val).flatten) := by
  induction segs generalizing l with
  | nil =>
    have hdiv : (l ++ (([] : List Segment).map Subtype.val).flatten).length / 8 = 0 := by
      rw [List.map_nil, List.flatten_nil, List.append_nil]
      omega
    rw [hdiv]
    rfl
  | cons seg segs ih =>
    have hstream : l ++ ((seg :: segs).map Subtype.val).flatten =
        (l ++ seg.1) ++ (segs.map Subtype.val).flatten := by
      rw [List.map_cons, List.flatten_cons, List.append_assoc]
    rw [hstream, textsFrom]
    generalize l ++ seg.1 = input
    generalize hafter : (segs.map Subtype.val).flatten = after at ih ⊢
    by_cases hlt : input.length < 8
    · rw [if_pos hlt, ih input hlt]
    · -- the blocks of the input, and then those of the rest
      have hle : 8 * (input.length / 8) ≤ input.length := Nat.mul_div_le _ _
      have hrest : (input.drop (8 * (input.length / 8))).length < 8 := by
        rw [List.length_drop]
        omega
      have hdrop : (input ++ after).drop (8 * (input.length / 8)) =
          input.drop (8 * (input.length / 8)) ++ after := List.drop_append_of_le_length hle
      have hcount : (input ++ after).length / 8 =
          input.length / 8 + (input.drop (8 * (input.length / 8)) ++ after).length / 8 := by
        rw [List.length_append, List.length_append, List.length_drop]
        omega
      rw [if_neg hlt, List.flatten_cons, ih _ hrest, hcount]
      simp only [Blowfish.decryptBlocks_eq_map]
      rw [Blocks.map_add, Blocks.map_append_of_le _ _ _ hle, hdrop]

/-- The texts hold a zero if the answer does. -/
theorem zero_mem_answer_iff (password : List Byte) (segs : List Segment) :
    0 ∈ answer password segs ↔ ∃ t ∈ texts password segs, 0 ∈ t := by
  have hflatten : (texts password segs).flatten = answer password segs :=
    flatten_textsFrom _ [] segs (by decide)
  rw [← hflatten, List.mem_flatten]

section Answer

variable (password : List Byte) (callback : Option (Callback σ)) (data : σ) (segs : List Segment)

/-- **What the loop returns**: what the callbacks make of the texts of the answer, of the last block and
of as many empty texts as are needed. -/
theorem ends_iff (r : Result) :
    (∃ k, rxDataAnswer password callback data (readsOf segs) k = .inr r) ↔
      ∃ n, handle callback data
        (texts password segs ++ lastBlock password segs :: List.replicate n []) = .inr r :=
  Waits.ends_iff ⟨Common.pending_new _, rfl⟩ (Common.pending_new []) ⟨rfl, rfl⟩ segs r

/-- More empty texts do not change a result. -/
theorem handle_replicate_of_inr {r : Result} {ts : List (List Byte)} {t : List Byte} {n : ℕ}
    (h : handle callback data (ts ++ t :: List.replicate n []) = .inr r) (m : ℕ) :
    handle callback data (ts ++ t :: List.replicate (n + m) []) = .inr r := by
  have hmore : ts ++ t :: List.replicate (n + m) [] =
      (ts ++ t :: List.replicate n []) ++ List.replicate m [] := by
    rw [List.append_assoc, List.cons_append, List.replicate_append_replicate]
  rw [hmore]
  exact handle_append_of_inr callback h _

/-- **The answers that are received right** are those with a zero in their whole blocks, and those of
which the callback refuses a text: one of the answer, what the last piece of a block decrypts to
together with what is behind it in the buffer, or an empty one.

**Proof sketch.** By `ends_iff` the loop returns what `handle` makes of the texts.  It makes something
of them if there is a zero; without one `st_ok` can come from the last block only, and is wrong. -/
theorem receivesRight_iff :
    ReceivesRight password callback data segs ↔
      0 ∈ answer password segs ∨
        ∃ n, handle callback data
          (texts password segs ++ lastBlock password segs :: List.replicate n []) =
            .inr .xmlParseError := by
  constructor
  · rintro ⟨⟨k, r, hk⟩, hanswered⟩
    obtain ⟨n, hn⟩ := (ends_iff password callback data segs r).1 ⟨k, hk⟩
    rcases result_of_handle callback hn with rfl | rfl
    · exact .inl (hanswered k hk)
    · exact .inr ⟨n, hn⟩
  · rintro (hzero | ⟨n, hn⟩)
    · obtain ⟨r, hr⟩ := exists_handle_of_zero callback ((zero_mem_answer_iff password segs).1 hzero) data
      obtain ⟨k, hk⟩ := (ends_iff password callback data segs r).2
        ⟨0, handle_append_of_inr callback hr _⟩
      exact ⟨⟨k, r, hk⟩, fun _ _ => hzero⟩
    · refine ⟨?_, fun k hk => ?_⟩
      · obtain ⟨k, hk⟩ := (ends_iff password callback data segs _).2 ⟨n, hn⟩
        exact ⟨k, _, hk⟩
      · obtain ⟨m, hm⟩ := (ends_iff password callback data segs _).1 ⟨k, hk⟩
        have hn' := handle_replicate_of_inr callback data hn m
        have hm' := handle_replicate_of_inr callback data hm n
        rw [Nat.add_comm m n, hn'] at hm'
        cases hm'

end Answer

/-- Without a callback nothing is refused. -/
theorem handle_none_replicate (n : ℕ) : handle none () (List.replicate n []) = .inl () := by
  induction n with
  | zero => rfl
  | succ n ih =>
    rw [List.replicate_succ]
    exact ih

/-- **A server that closes the connection without an answer** leaves the loop running for ever. -/
theorem closed_before_answer : ¬ ReceivesRight [1] none () [] := by
  rintro ⟨⟨k, r, hk⟩, -⟩
  obtain ⟨n, hn⟩ := (ends_iff [1] none () [] r).1 ⟨k, hk⟩
  have hlast : lastBlock [1] [] = [] := by
    rw [lastBlock, Common.lastText]
    exact if_pos rfl
  have hempty : texts [1] [] ++ lastBlock [1] [] :: List.replicate n [] = List.replicate (n + 1) [] := by
    rw [hlast]
    rfl
  rw [hempty, handle_none_replicate] at hn
  cases hn

end NetTransact

end Stargazer
