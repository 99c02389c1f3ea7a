import Stargazer.Crypto.Blowfish
import Stargazer.Lib.PackedWords

set_option relaxedAutoImplicit false
set_option autoImplicit false

/-!
# The block cipher on packed boxes

The functions of `Stargazer.Crypto.Blowfish` with the keys and the boxes packed into two numbers.  The
kernel can evaluate them, the key schedule included, which takes 521 encryptions.

The kernel tells large numbers apart by their low bits first.  So the boxes start at the second word,
and the first one changes with every encryption.

## Main definitions

* `Stargazer.Blowfish.Packed.Rep` — two numbers hold the boxes of a context.
* `Stargazer.Blowfish.Packed.encrypt`, `Stargazer.Blowfish.Packed.init` — the functions.

## Main results

* `Stargazer.Blowfish.Packed.encrypt_eq`, `Stargazer.Blowfish.Packed.init_eq` — they compute what the
  functions of the cipher do.
-/

namespace Stargazer

namespace Blowfish

namespace Packed

open PackedWords

/-- `F`, for boxes packed one behind the other. -/
def F (s x : ℕ) : ℕ :=
  let y := Nat.mod (Nat.add (get 32 s (Nat.succ (Nat.mod (Nat.div x 16777216) 256)))
    (get 32 s (Nat.succ (Nat.add 256 (Nat.mod (Nat.div x 65536) 256))))) 4294967296
  let y := Nat.xor y (get 32 s (Nat.succ (Nat.add 512 (Nat.mod (Nat.div x 256) 256))))
  Nat.mod (Nat.add y (get 32 s (Nat.succ (Nat.add 768 (Nat.mod x 256))))) 4294967296

/-- The rounds with the keys at a list of positions. -/
def rounds {α : Type} (p s : ℕ) : List ℕ → ℕ → ℕ → (ℕ → ℕ → α) → α
  | [], x1, x2, k => k x1 x2
  | i :: is, x1, x2, k =>
    force (Nat.xor x1 (get 32 p i)) fun xl =>
      force (Nat.xor (F s xl) x2) fun xr => rounds p s is xr xl k

/-- `Blowfish_Encrypt`. -/
def encrypt {α : Type} (p s x1 x2 : ℕ) (k : ℕ → ℕ → α) : α :=
  rounds p s (List.range 16) x1 x2 fun x1 x2 =>
    force (Nat.xor x2 (get 32 p 17)) fun xl => force (Nat.xor x1 (get 32 p 16)) fun xr => k xl xr

/-- The keys are filled. -/
def refillP {α : Type} (s : ℕ) : List ℕ → ℕ → ℕ → ℕ → (ℕ → ℕ → ℕ → α) → α
  | [], p, x1, x2, k => k p x1 x2
  | i :: is, p, x1, x2, k =>
    encrypt p s x1 x2 fun x1 x2 =>
      force (set 32 (set 32 p (2 * i) x1) (2 * i + 1) x2) fun p => refillP s is p x1 x2 k

/-- The boxes are filled. -/
def refillS {α : Type} (p : ℕ) : List ℕ → ℕ → ℕ → ℕ → (ℕ → ℕ → ℕ → α) → α
  | [], s, x1, x2, k => k s x1 x2
  | n :: ns, s, x1, x2, k =>
    encrypt p s x1 x2 fun x1 x2 =>
      force (set 32 (set 32 (set 32 s 0 x1) (2 * n + 1) x1) (2 * n + 2) x2) fun s =>
        refillS p ns s x1 x2 k

/-- The two loops of `Blowfish_Init`. -/
def init {α : Type} (p s : ℕ) (k : ℕ → ℕ → α) : α :=
  force p fun p => force s fun s =>
    refillP s (List.range 9) p 0 0 fun p x1 x2 =>
      refillS p (List.range 512) s x1 x2 fun s _ _ => k p s

/-- Two numbers hold the keys and the boxes of a context. -/
structure Rep (ctx : BlowfishCtx) (p s : ℕ) : Prop where
  /-- The keys. -/
  keys : ∀ i < 18, get 32 p i = (ctx.P[i]!).toNat
  /-- The boxes. -/
  boxes : ∀ i < 4, ∀ j < 256, get 32 s (256 * i + j + 1) = ((ctx.S[i]!)[j]!).toNat

/-! ## The boxes -/

/-- Reading an entry of an array after writing one. -/
theorem getElem!_set! {α : Type} [Inhabited α] {n : ℕ} (v : Vector α n) (i : ℕ) {j : ℕ} (x : α)
    (hj : j < n) : (v.set! i x)[j]! = if i = j then x else v[j]! := by
  rw [getElem!_pos (v.set! i x) j hj, getElem!_pos v j hj, ← Vector.getElem_setIfInBounds hj]
  rfl

/-- Rows of 256 entries one behind the other. -/
theorem getD_flatMap_rows {l : List (Vector (BitVec 32) 256)} {i j : ℕ} (hi : i < l.length)
    (hj : j < 256) :
    (l.flatMap fun row => row.toList.map BitVec.toNat).getD (256 * i + j) 0 =
      ((l[i]!)[j]!).toNat := by
  induction l generalizing i with
  | nil => cases hi
  | cons row l ih =>
    have hlen : (row.toList.map BitVec.toNat).length = 256 := by simp
    rw [List.flatMap_cons]
    cases i with
    | zero =>
      rw [Nat.mul_zero, Nat.zero_add, List.getD_append _ _ _ _ (by omega),
        List.getD_eq_getElem _ _ (by omega)]
      simp [getElem!_pos row j hj]
    | succ i =>
      have hrest := ih (Nat.lt_of_succ_lt_succ hi)
      rw [List.getD_append_right _ _ _ _ (by omega), hlen,
        show 256 * (i + 1) + j - 256 = 256 * i + j by omega, hrest]
      rfl

/-- Numbers that hold a context. -/
theorem rep_pack (ctx : BlowfishCtx) :
    Rep ctx (pack 32 (ctx.P.toList.map BitVec.toNat))
      (pack 32 (0 :: ctx.S.toList.flatMap fun row => row.toList.map BitVec.toNat)) where
  keys i hi := by
    rw [get_pack, List.getD_eq_getElem _ _ (by simpa using hi), getElem!_pos ctx.P i hi]
    · simp
    · intro v hv
      obtain ⟨x, -, rfl⟩ := List.mem_map.mp hv
      exact x.isLt
  boxes i hi j hj := by
    rw [get_pack, List.getD_cons_succ, getD_flatMap_rows (by simpa using hi) hj,
      getElem!_pos ctx.S i hi, getElem!_pos ctx.S.toList i (by simpa using hi)]
    · rfl
    · intro v hv
      rcases List.mem_cons.mp hv with rfl | hv
      · exact Nat.two_pow_pos 32
      · obtain ⟨row, -, hv⟩ := List.mem_flatMap.mp hv
        obtain ⟨x, -, rfl⟩ := List.mem_map.mp hv
        exact x.isLt

/-! ## The rounds -/

section Rounds

variable {ctx : BlowfishCtx} {p s : ℕ}

theorem toNat_box (h : Rep ctx p s) (i : Fin 4) (b : BitVec 32) :
    (box ctx i b).toNat = get 32 s (256 * i + b.toNat % 256 + 1) := by
  rw [h.boxes i i.isLt _ (Nat.mod_lt _ (by decide)), getElem!_pos ctx.S i.val i.isLt]
  rfl

theorem toNat_F (h : Rep ctx p s) (x : BitVec 32) : (Blowfish.F ctx x).toNat = F s x.toNat := by
  have hx := x.isLt
  have hmask : ∀ y : BitVec 32, (y &&& 0xFF).toNat % 256 = y.toNat % 256 := by
    intro y
    have hy : (y &&& 0xFF).toNat = y.toNat % 2 ^ 8 := Nat.and_two_pow_sub_one_eq_mod y.toNat 8
    rw [hy]
    omega
  have hshift : ∀ y : BitVec 32, (y >>> 8).toNat = y.toNat / 256 := fun y => by
    rw [BitVec.toNat_ushiftRight, Nat.shiftRight_eq_div_pow]
  have hb : x.toNat / 256 / 256 = x.toNat / 65536 := by omega
  have ha : x.toNat / 65536 / 256 = x.toNat / 16777216 := by omega
  simp only [Blowfish.F, BitVec.toNat_add, BitVec.toNat_xor, toNat_box h, hmask, hshift, hb, ha]
  simp only [Fin.isValue, Fin.val_zero, Fin.val_one, Fin.val_two, Nat.mul_zero, Nat.zero_add]
  rfl

/-- **The rounds** are those of the cipher. -/
theorem rounds_eq {α : Type} (h : Rep ctx p s) {is : List ℕ} (his : ∀ i ∈ is, i < 18)
    (x : BitVec 32 × BitVec 32) (k : ℕ → ℕ → α) :
    rounds p s is x.1.toNat x.2.toNat k =
      k (is.foldl (loopBody ctx) x).1.toNat (is.foldl (loopBody ctx) x).2.toNat := by
  induction is generalizing x with
  | nil => rfl
  | cons i is ih =>
    have hkey : Nat.xor x.1.toNat (get 32 p i) = (x.1 ^^^ ctx.P[i]!).toNat := by
      rw [h.keys i (his i List.mem_cons_self), BitVec.toNat_xor]
      rfl
    have hround : Nat.xor (F s (x.1 ^^^ ctx.P[i]!).toNat) x.2.toNat =
        (Blowfish.F ctx (x.1 ^^^ ctx.P[i]!) ^^^ x.2).toNat := by
      rw [← toNat_F h, BitVec.toNat_xor]
      rfl
    rw [rounds, force_eq, force_eq, hkey, hround, List.foldl_cons]
    exact ih (fun j hj => his j (List.mem_cons_of_mem i hj)) (loopBody ctx x i)

/-- **An encryption** is that of the cipher. -/
theorem encrypt_eq {α : Type} (h : Rep ctx p s) (x : BitVec 32 × BitVec 32) (k : ℕ → ℕ → α) :
    encrypt p s x.1.toNat x.2.toNat k =
      k (Blowfish.encrypt ctx x).1.toNat (Blowfish.encrypt ctx x).2.toNat := by
  have his : ∀ i ∈ List.range 16, i < 18 := fun i hi => by
    have := List.mem_range.mp hi
    omega
  rw [encrypt, rounds_eq h his, force_eq, force_eq, h.keys 17 (by decide), h.keys 16 (by decide)]
  simp only [Blowfish.encrypt, BitVec.toNat_xor]
  rfl

/-! ## The key schedule -/

/-- Two keys are filled. -/
theorem Rep.setKeys (h : Rep ctx p s) (i : ℕ) (x : BitVec 32 × BitVec 32) :
    Rep { ctx with P := (ctx.P.set! (2 * i) x.1).set! (2 * i + 1) x.2 }
      (set 32 (set 32 p (2 * i) x.1.toNat) (2 * i + 1) x.2.toNat) s where
  keys j hj := by
    rw [get_set x.2.isLt, get_set x.1.isLt, getElem!_set! _ _ _ hj, getElem!_set! _ _ _ hj,
      h.keys j hj]
    split_ifs <;> rfl
  boxes := h.boxes

/-- Two entries of a box are filled. -/
theorem Rep.setBox (h : Rep ctx p s) (n : ℕ) (x : BitVec 32 × BitVec 32) :
    Rep { ctx with
        S := ctx.S.set! (n / 128)
          ((ctx.S[n / 128]!.set! (2 * (n % 128)) x.1).set! (2 * (n % 128) + 1) x.2) }
      p (set 32 (set 32 (set 32 s 0 x.1.toNat) (2 * n + 1) x.1.toNat) (2 * n + 2) x.2.toNat) where
  keys := h.keys
  boxes i hi j hj := by
    have hfst : ¬ 0 = 256 * i + j + 1 := by omega
    rw [get_set x.2.isLt, get_set x.1.isLt, get_set x.1.isLt, if_neg hfst,
      getElem!_set! _ _ _ hi, h.boxes i hi j hj]
    by_cases hrow : n / 128 = i
    · -- the position in the packed array is that in the row
      have h1 : (2 * n + 2 = 256 * i + j + 1) ↔ 2 * (n % 128) + 1 = j := by omega
      have h2 : (2 * n + 1 = 256 * i + j + 1) ↔ 2 * (n % 128) = j := by omega
      rw [if_pos hrow, getElem!_set! _ _ _ hj, getElem!_set! _ _ _ hj, hrow]
      simp only [h1, h2]
      split_ifs <;> rfl
    · rw [if_neg hrow, if_neg (by omega), if_neg (by omega)]

theorem refillP_eq {α : Type} (h : Rep ctx p s) (is : List ℕ) (x : BitVec 32 × BitVec 32)
    (k : ℕ → ℕ → ℕ → α) :
    ∃ p', Rep (is.foldl Blowfish.refillP (ctx, x)).1 p' s ∧
      refillP s is p x.1.toNat x.2.toNat k =
        k p' (is.foldl Blowfish.refillP (ctx, x)).2.1.toNat
          (is.foldl Blowfish.refillP (ctx, x)).2.2.toNat := by
  induction is generalizing ctx p x with
  | nil => exact ⟨p, h, rfl⟩
  | cons i is ih =>
    obtain ⟨p', hp', hk⟩ := ih (h.setKeys i (Blowfish.encrypt ctx x)) (Blowfish.encrypt ctx x)
    refine ⟨p', hp', ?_⟩
    rw [refillP, encrypt_eq h, force_eq, hk]
    rfl

theorem refillS_eq {α : Type} (h : Rep ctx p s) (ns : List ℕ) (x : BitVec 32 × BitVec 32)
    (k : ℕ → ℕ → ℕ → α) :
    ∃ s', Rep (ns.foldl Blowfish.refillS (ctx, x)).1 p s' ∧
      refillS p ns s x.1.toNat x.2.toNat k =
        k s' (ns.foldl Blowfish.refillS (ctx, x)).2.1.toNat
          (ns.foldl Blowfish.refillS (ctx, x)).2.2.toNat := by
  induction ns generalizing ctx s x with
  | nil => exact ⟨s, h, rfl⟩
  | cons n ns ih =>
    obtain ⟨s', hs', hk⟩ := ih (h.setBox n (Blowfish.encrypt ctx x)) (Blowfish.encrypt ctx x)
    refine ⟨s', hs', ?_⟩
    rw [refillS, encrypt_eq h, force_eq, hk]
    rfl

end Rounds

/-- The context before the two loops of `Blowfish_Init`. -/
def start (key : List Byte) : BlowfishCtx := ⟨Vector.ofFn fun i => origP.get i ^^^ keyWord key i, origS⟩

/-- **The key schedule** is that of the cipher. -/
theorem init_eq {α : Type} (key : List Byte) {p s : ℕ} (h : Rep (start key) p s) (k : ℕ → ℕ → α) :
    ∃ p' s', Rep (Blowfish.init key) p' s' ∧ init p s k = k p' s' := by
  obtain ⟨p', hp', hp⟩ := refillP_eq h (List.range 9) (0, 0) fun p x1 x2 =>
    refillS p (List.range 512) s x1 x2 fun s _ _ => k p s
  obtain ⟨s', hs', hs⟩ := refillS_eq hp' (List.range 512)
    ((List.range 9).foldl Blowfish.refillP (start key, 0, 0)).2 fun s _ _ => k p' s
  refine ⟨p', s', hs', ?_⟩
  rw [init, force_eq, force_eq]
  exact hp.trans hs

end Packed

end Blowfish

end Stargazer
