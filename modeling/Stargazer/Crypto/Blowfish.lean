import Stargazer.Crypto.Tables
import Stargazer.Lib.Blocks
import Stargazer.Lib.Feistel

set_option relaxedAutoImplicit false
set_option autoImplicit false

/-!
# The block cipher

`libs/crypto/blowfish.c`: the key schedule, a block of eight bytes, and strings of bytes.  A string
is processed block by block, in place or not; what is read and written are whole blocks, also
where the length is not a multiple of eight.

## Main definitions

* `Stargazer.BlowfishCtx` — the boxes.
* `Stargazer.Blowfish.encrypt`, `Stargazer.Blowfish.decrypt` — a pair of words.
* `Stargazer.Blowfish.init`, `Stargazer.Blowfish.initContext` — the key schedule.
* `Stargazer.Blowfish.encryptString`, `Stargazer.Blowfish.decryptString` — strings.

## Main results

* `Stargazer.Blowfish.decrypt_encrypt`, `Stargazer.Blowfish.encrypt_decrypt` — the two are inverse
  to each other, for every key.
* `Stargazer.Blowfish.decryptString_encryptString` — so they are on strings of whole blocks.
-/

namespace Stargazer

/-- A byte. -/
abbrev Byte := BitVec 8

/-- `PASSWD_LEN` (`include/stg/const.h`). -/
abbrev passwdLen : ℕ := 32

/-- The string in an array: what stands before the first zero. -/
def cstr (l : List Byte) : List Byte := l.takeWhile (· ≠ 0)

/-- A string goes on with the part behind a part without zeros. -/
theorem cstr_append_of_notMem {l : List Byte} (h : 0 ∉ l) (l' : List Byte) :
    cstr (l ++ l') = l ++ cstr l' :=
  List.takeWhile_append_of_pos fun _ hb => decide_eq_true (ne_of_mem_of_not_mem hb h)

theorem cstr_of_notMem {l : List Byte} (h : 0 ∉ l) : cstr l = l := by
  have := cstr_append_of_notMem h []
  rwa [List.append_nil, show cstr [] = [] from rfl, List.append_nil] at this

@[simp] theorem cstr_zero_cons (l : List Byte) : cstr (0 :: l) = [] := rfl

/-- A string in an array with a zero is shorter than the array. -/
theorem length_cstr_lt {l : List Byte} (h : 0 ∈ l) : (cstr l).length < l.length := by
  obtain ⟨l₁, l₂, rfl, hl₁⟩ := List.eq_append_cons_of_mem h
  rw [cstr_append_of_notMem hl₁, cstr_zero_cons, List.append_nil, List.length_append,
    List.length_cons]
  omega

/-- `BLOWFISH_CTX`. -/
structure BlowfishCtx where
  /-- The keys of the rounds and the two final keys. -/
  P : Vector (BitVec 32) 18
  /-- The boxes of the round function. -/
  S : Vector (Vector (BitVec 32) 256) 4

namespace Blowfish

/-- An entry of a box, selected by a byte. -/
def box (ctx : BlowfishCtx) (i : Fin 4) (b : BitVec 32) : BitVec 32 := ctx.S[i][b.toNat % 256]!

/-- `F`. -/
def F (ctx : BlowfishCtx) (x : BitVec 32) : BitVec 32 :=
  let d := x &&& 0xFF
  let x := x >>> 8
  let c := x &&& 0xFF
  let x := x >>> 8
  let b := x &&& 0xFF
  let x := x >>> 8
  let a := x &&& 0xFF
  let y := box ctx 0 a + box ctx 1 b
  let y := y ^^^ box ctx 2 c
  y + box ctx 3 d

/-- The body of the loops of `Blowfish_Encrypt` and `Blowfish_Decrypt`. -/
def loopBody (ctx : BlowfishCtx) (x : BitVec 32 × BitVec 32) (i : ℕ) : BitVec 32 × BitVec 32 :=
  let xl := x.1 ^^^ ctx.P[i]!
  let xr := F ctx xl ^^^ x.2
  (xr, xl)

/-- `Blowfish_Encrypt`. -/
def encrypt (ctx : BlowfishCtx) (x : BitVec 32 × BitVec 32) : BitVec 32 × BitVec 32 :=
  let x := (List.range 16).foldl (loopBody ctx) x
  let xl := x.2
  let xr := x.1
  (xl ^^^ ctx.P[17]!, xr ^^^ ctx.P[16]!)

/-- `Blowfish_Decrypt`. -/
def decrypt (ctx : BlowfishCtx) (x : BitVec 32 × BitVec 32) : BitVec 32 × BitVec 32 :=
  let x := (List.range' 2 16).reverse.foldl (loopBody ctx) x
  let xl := x.2
  let xr := x.1
  (xl ^^^ ctx.P[0]!, xr ^^^ ctx.P[1]!)

/-! ## The key schedule -/

/-- Four bytes of the key, from the position `4 * i` on; the key is read cyclically. -/
def keyWord (key : List Byte) (i : ℕ) : BitVec 32 :=
  (List.range 4).foldl
    (fun data k => (data <<< 8) ||| (key.getD ((4 * i + k) % key.length) 0).setWidth 32) 0

/-- Encrypt the running block and store it as two of the keys. -/
def refillP (s : BlowfishCtx × (BitVec 32 × BitVec 32)) (i : ℕ) :
    BlowfishCtx × (BitVec 32 × BitVec 32) :=
  let data := encrypt s.1 s.2
  ({ s.1 with P := (s.1.P.set! (2 * i) data.1).set! (2 * i + 1) data.2 }, data)

/-- Encrypt the running block and store it as two entries of a box. -/
def refillS (s : BlowfishCtx × (BitVec 32 × BitVec 32)) (n : ℕ) :
    BlowfishCtx × (BitVec 32 × BitVec 32) :=
  let i := n / 128
  let j := 2 * (n % 128)
  let data := encrypt s.1 s.2
  let row := (s.1.S[i]!.set! j data.1).set! (j + 1) data.2
  ({ s.1 with S := s.1.S.set! i row }, data)

/-- `Blowfish_Init`. -/
def init (key : List Byte) : BlowfishCtx :=
  let ctx : BlowfishCtx := ⟨Vector.ofFn fun i => origP[i] ^^^ keyWord key i, origS⟩
  let s := (List.range 9).foldl refillP (ctx, 0, 0)
  ((List.range 512).foldl refillS s).1

/-- `strncpy` of at most `n` characters into a zeroed array of `PASSWD_LEN` bytes. -/
def strncpyKey (passwd : List Byte) (n : ℕ) : List Byte :=
  (cstr (passwd.take n)).rightpad passwdLen 0

/-- `InitContext`. -/
def initContext (passwd : List Byte) (length : ℕ) : BlowfishCtx :=
  init (strncpyKey passwd (min length passwdLen))

/-! ## Blocks and strings -/

/-- `bytes2block`. -/
def bytes2block (c : List Byte) : BitVec 32 :=
  let t := (c.getD 0 0).setWidth 32
  let t := t + (c.getD 1 0).setWidth 32 <<< 8
  let t := t + (c.getD 2 0).setWidth 32 <<< 16
  t + (c.getD 3 0).setWidth 32 <<< 24

/-- `block2bytes`. -/
def block2bytes (t : BitVec 32) : List Byte :=
  [(t &&& 0xFF).setWidth 8, (t >>> 8 &&& 0xFF).setWidth 8, (t >>> 16 &&& 0xFF).setWidth 8,
    (t >>> 24 &&& 0xFF).setWidth 8]

/-- A function of pairs of words on eight bytes. -/
def onBlock (f : BitVec 32 × BitVec 32 → BitVec 32 × BitVec 32) (src : List Byte) : List Byte :=
  let x := f (bytes2block src, bytes2block (src.drop 4))
  block2bytes x.1 ++ block2bytes x.2

/-- `DecryptBlock`. -/
def decryptBlock (ctx : BlowfishCtx) (src : List Byte) : List Byte := onBlock (decrypt ctx) src

/-- `EncryptBlock`. -/
def encryptBlock (ctx : BlowfishCtx) (src : List Byte) : List Byte := onBlock (encrypt ctx) src

/-- The loop of `DecryptString` over a number of blocks. -/
def decryptBlocks (ctx : BlowfishCtx) : ℕ → List Byte → List Byte
  | 0, _ => []
  | n + 1, src => decryptBlock ctx (src.take 8) ++ decryptBlocks ctx n (src.drop 8)

/-- `DecryptString`: what is written to `dest`, given what is to be read from `src` on. -/
def decryptString (ctx : BlowfishCtx) (src : List Byte) (length : ℕ) : List Byte :=
  decryptBlocks ctx ((length + 7) / 8) src

/-- The loop of `EncryptString` over a number of blocks; the last block is taken from a buffer
filled up with zeros. -/
def encryptBlocks (ctx : BlowfishCtx) : ℕ → List Byte → ℕ → List Byte
  | 0, _, _ => []
  | n + 1, src, length =>
    let block := if 8 < length then src.take 8 else (src.take length).rightpad 8 0
    encryptBlock ctx block ++ encryptBlocks ctx n (src.drop 8) (length - 8)

/-- `EncryptString`: what is written to `dest`, given what is to be read from `src` on. -/
def encryptString (ctx : BlowfishCtx) (src : List Byte) (length : ℕ) : List Byte :=
  encryptBlocks ctx ((length + 7) / 8) src length

/-! ## Inverses -/

/-- The keys `P[i]` for `i` in a list of positions. -/
def keys (ctx : BlowfishCtx) (l : List ℕ) : List (BitVec 32) := l.map (ctx.P[·]!)

theorem foldl_loopBody (ctx : BlowfishCtx) (l : List ℕ) (x : BitVec 32 × BitVec 32) :
    l.foldl (loopBody ctx) x = Feistel.rounds (F ctx) (keys ctx l) x := by
  rw [keys, Feistel.rounds, List.foldl_map]
  rfl

/-- The encryption is the network with the keys in order. -/
theorem encrypt_eq_crypt (ctx : BlowfishCtx) (x : BitVec 32 × BitVec 32) :
    encrypt ctx x =
      Feistel.crypt (F ctx) (keys ctx (List.range 16)) ctx.P[16]! ctx.P[17]! x := by
  simp only [encrypt, foldl_loopBody, Feistel.crypt, Feistel.finish]

/-- The decryption is the network with the keys in reverse order. -/
theorem decrypt_eq_crypt (ctx : BlowfishCtx) (x : BitVec 32 × BitVec 32) :
    decrypt ctx x =
      Feistel.crypt (F ctx) (keys ctx (List.range' 2 16).reverse) ctx.P[1]! ctx.P[0]! x := by
  simp only [decrypt, foldl_loopBody, Feistel.crypt, Feistel.finish]

/-- **Decryption undoes encryption**, with any boxes. -/
theorem decrypt_encrypt (ctx : BlowfishCtx) (x : BitVec 32 × BitVec 32) :
    decrypt ctx (encrypt ctx x) = x := by
  have hkeys : ctx.P[0]! :: ctx.P[1]! :: keys ctx (List.range' 2 16) =
      keys ctx (List.range 16) ++ [ctx.P[16]!, ctx.P[17]!] := rfl
  rw [encrypt_eq_crypt, decrypt_eq_crypt, keys, List.map_reverse]
  exact Feistel.crypt_reverse_crypt (F ctx) _ _ _ _ _ _ hkeys x

/-- **Encryption undoes decryption**, with any boxes. -/
theorem encrypt_decrypt (ctx : BlowfishCtx) (x : BitVec 32 × BitVec 32) :
    encrypt ctx (decrypt ctx x) = x := by
  have hkeys : ctx.P[17]! :: ctx.P[16]! :: keys ctx (List.range 16).reverse =
      keys ctx (List.range' 2 16).reverse ++ [ctx.P[1]!, ctx.P[0]!] := rfl
  have hrange : keys ctx (List.range 16) = (keys ctx (List.range 16).reverse).reverse := by
    rw [keys, keys, List.map_reverse, List.reverse_reverse]
  rw [encrypt_eq_crypt, decrypt_eq_crypt, hrange]
  exact Feistel.crypt_reverse_crypt (F ctx) _ _ _ _ _ _ hkeys x

/-! ## Blocks -/

@[simp] theorem length_block2bytes (t : BitVec 32) : (block2bytes t).length = 4 := rfl

/-- The value of the word read from four bytes. -/
theorem toNat_bytes2block (a b c d : Byte) (l : List Byte) :
    (bytes2block (a :: b :: c :: d :: l)).toNat =
      a.toNat + 2 ^ 8 * b.toNat + 2 ^ 16 * c.toNat + 2 ^ 24 * d.toNat := by
  have ha := a.isLt
  have hb := b.isLt
  have hc := c.isLt
  have hd := d.isLt
  simp only [bytes2block, List.getD_cons_zero, List.getD_cons_succ, BitVec.toNat_add,
    BitVec.toNat_shiftLeft, BitVec.toNat_setWidth, Nat.shiftLeft_eq]
  omega

/-- The bytes of a word are its digits to the base 256. -/
theorem block2bytes_eq (t : BitVec 32) : block2bytes t =
    [BitVec.ofNat 8 t.toNat, BitVec.ofNat 8 (t.toNat / 2 ^ 8), BitVec.ofNat 8 (t.toNat / 2 ^ 16),
      BitVec.ofNat 8 (t.toNat / 2 ^ 24)] := by
  have hmask (u : BitVec 32) : (u &&& 0xFF).setWidth 8 = u.setWidth 8 := by
    have hu : (u &&& 0xFF).toNat = u.toNat % 2 ^ 8 := Nat.and_two_pow_sub_one_eq_mod u.toNat 8
    apply BitVec.eq_of_toNat_eq
    rw [BitVec.toNat_setWidth, BitVec.toNat_setWidth, hu, Nat.mod_mod]
  simp only [block2bytes, hmask, List.cons.injEq, and_true]
  refine ⟨?_, ?_, ?_, ?_⟩ <;> apply BitVec.eq_of_toNat_eq <;>
    simp [BitVec.toNat_ushiftRight, Nat.shiftRight_eq_div_pow]

/-- A word is read back from its bytes, whatever follows them. -/
theorem bytes2block_block2bytes (t : BitVec 32) (l : List Byte) :
    bytes2block (block2bytes t ++ l) = t := by
  have ht := t.isLt
  apply BitVec.eq_of_toNat_eq
  rw [block2bytes_eq, List.cons_append, List.cons_append, List.cons_append, List.cons_append,
    toNat_bytes2block]
  simp only [BitVec.toNat_ofNat]
  omega

/-- Four bytes are written back from the word read from them. -/
theorem block2bytes_bytes2block (a b c d : Byte) (l : List Byte) :
    block2bytes (bytes2block (a :: b :: c :: d :: l)) = [a, b, c, d] := by
  have ha := a.isLt
  have hb := b.isLt
  have hc := c.isLt
  have hd := d.isLt
  rw [block2bytes_eq, toNat_bytes2block]
  simp only [List.cons.injEq, and_true]
  refine ⟨?_, ?_, ?_, ?_⟩ <;> apply BitVec.eq_of_toNat_eq <;> rw [BitVec.toNat_ofNat] <;> omega

/-- Inverse functions of pairs of words are inverse on blocks. -/
theorem onBlock_onBlock {f g : BitVec 32 × BitVec 32 → BitVec 32 × BitVec 32}
    (h : ∀ x, g (f x) = x) (src : List Byte) (hsrc : src.length = 8) :
    onBlock g (onBlock f src) = src := by
  obtain ⟨a, b, c, d, a', b', c', d', rfl⟩ : ∃ a b c d a' b' c' d' : Byte,
      src = [a, b, c, d, a', b', c', d'] := by
    match src, hsrc with
    | [a, b, c, d, a', b', c', d'], _ => exact ⟨a, b, c, d, a', b', c', d', rfl⟩
  have hdrop (t u : BitVec 32) : (block2bytes t ++ block2bytes u).drop 4 = block2bytes u :=
    List.drop_left' rfl
  have hsecond (u : BitVec 32) : bytes2block (block2bytes u) = u := by
    simpa using bytes2block_block2bytes u []
  simp only [onBlock, hdrop, hsecond, bytes2block_block2bytes, h, List.drop_succ_cons,
    List.drop_zero, block2bytes_bytes2block]
  rfl

@[simp] theorem length_encryptBlock (ctx : BlowfishCtx) (src : List Byte) :
    (encryptBlock ctx src).length = 8 := rfl

@[simp] theorem length_decryptBlock (ctx : BlowfishCtx) (src : List Byte) :
    (decryptBlock ctx src).length = 8 := rfl

theorem decryptBlock_encryptBlock (ctx : BlowfishCtx) (src : List Byte) (h : src.length = 8) :
    decryptBlock ctx (encryptBlock ctx src) = src :=
  onBlock_onBlock (decrypt_encrypt ctx) src h

theorem encryptBlock_decryptBlock (ctx : BlowfishCtx) (src : List Byte) (h : src.length = 8) :
    encryptBlock ctx (decryptBlock ctx src) = src :=
  onBlock_onBlock (encrypt_decrypt ctx) src h

/-! ## Strings of whole blocks -/

/-- The loop of `DecryptString` is blockwise. -/
theorem decryptBlocks_eq_map (ctx : BlowfishCtx) (n : ℕ) (src : List Byte) :
    decryptBlocks ctx n src = Blocks.map 8 (decryptBlock ctx) n src := by
  induction n generalizing src with
  | zero => rfl
  | succ n ih => rw [decryptBlocks, ih, Blocks.map_succ]

/-- The loop of `EncryptString` is blockwise on whole blocks: the copy of the last block is the
block itself. -/
theorem encryptBlocks_eq_map (ctx : BlowfishCtx) (n : ℕ) (src : List Byte)
    (h : 8 * n ≤ src.length) :
    encryptBlocks ctx n src (8 * n) = Blocks.map 8 (encryptBlock ctx) n src := by
  induction n generalizing src with
  | zero => rfl
  | succ n ih =>
    have hblock : (if 8 < 8 * (n + 1) then src.take 8
        else (src.take (8 * (n + 1))).rightpad 8 0) = src.take 8 := by
      split
      · rfl
      · obtain rfl : n = 0 := by omega
        simp [List.rightpad, List.length_take]
        omega
    have hrest : 8 * (n + 1) - 8 = 8 * n := by omega
    rw [encryptBlocks, Blocks.map_succ, hblock, hrest, ih _ (by rw [List.length_drop]; omega)]

/-- The loop of `EncryptString` is blockwise on a string whose last block is filled up with zeros.

**Proof sketch.** Induction on the number of blocks; only the last block is shorter than 8 bytes. -/
theorem encryptBlocks_eq_map_rightpad (ctx : BlowfishCtx) (n length : ℕ) (src : List Byte)
    (hle : length ≤ 8 * n) (hlt : 8 * n < length + 8) (hsrc : length ≤ src.length) :
    encryptBlocks ctx n src length =
      Blocks.map 8 (encryptBlock ctx) n ((src.take length).rightpad (8 * n) 0) := by
  induction n generalizing src length with
  | zero => rfl
  | succ n ih =>
    rw [encryptBlocks, Blocks.map_succ]
    by_cases hblock : 8 < length
    · have htake : ((src.take length).rightpad (8 * (n + 1)) 0).take 8 = src.take 8 := by
        rw [List.rightpad, List.take_append_of_le_length (by rw [List.length_take]; omega),
          List.take_take, Nat.min_eq_left (by omega)]
      have hdrop : ((src.take length).rightpad (8 * (n + 1)) 0).drop 8 =
          ((src.drop 8).take (length - 8)).rightpad (8 * n) 0 := by
        rw [List.rightpad, List.drop_append_of_le_length (by rw [List.length_take]; omega),
          List.drop_take, List.rightpad, List.length_take, List.length_take, List.length_drop]
        congr 2
        omega
      rw [if_pos hblock, htake, hdrop,
        ih (length - 8) (src.drop 8) (by omega) (by omega) (by rw [List.length_drop]; omega)]
    · obtain rfl : n = 0 := by omega
      have htake : ((src.take length).rightpad (8 * (0 + 1)) 0).take 8 =
          (src.take length).rightpad 8 0 := by
        apply List.take_of_length_le
        rw [List.rightpad, List.length_append, List.length_replicate, List.length_take]
        omega
      rw [if_neg hblock, htake]
      rfl

theorem decryptString_eq_map (ctx : BlowfishCtx) (n : ℕ) (src : List Byte) :
    decryptString ctx src (8 * n) = Blocks.map 8 (decryptBlock ctx) n src := by
  rw [decryptString, decryptBlocks_eq_map, show (8 * n + 7) / 8 = n by omega]

theorem encryptString_eq_map (ctx : BlowfishCtx) (n : ℕ) (src : List Byte)
    (h : 8 * n ≤ src.length) :
    encryptString ctx src (8 * n) = Blocks.map 8 (encryptBlock ctx) n src := by
  rw [encryptString, show (8 * n + 7) / 8 = n by omega, encryptBlocks_eq_map ctx n src h]

/-- **Decryption undoes encryption** on strings of whole blocks. -/
theorem decryptString_encryptString (ctx : BlowfishCtx) (n : ℕ) (src : List Byte)
    (h : src.length = 8 * n) :
    decryptString ctx (encryptString ctx src (8 * n)) (8 * n) = src := by
  rw [encryptString_eq_map ctx n src h.ge, decryptString_eq_map]
  exact Blocks.map_map_of_inverse (length_encryptBlock ctx) (decryptBlock_encryptBlock ctx) n src h

end Blowfish

end Stargazer
