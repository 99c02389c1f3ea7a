import Mathlib.Data.BitVec

set_option relaxedAutoImplicit false
set_option autoImplicit false

/-!
# Words with common prefixes

A word of width `w` starts with its highest bits.  A mask keeps the first `n` bits of a word; two words
are masked to the same word iff they start with the same `n` bits.

## Main definitions

* `BitPrefix.mask` — the word of `n` ones.
* `BitPrefix.Agree` — the words that start with the same bits.
* `BitPrefix.Aligned` — the words without bits behind a prefix.

## Main results

* `BitPrefix.and_mask_eq_iff`, `BitPrefix.and_mask_eq_self_iff` — what masks are for.
* `BitPrefix.agree_zero`, `BitPrefix.aligned_zero_iff`, `BitPrefix.aligned_self` — the prefixes of no bits
  and of all bits.
-/

namespace BitPrefix

variable {w : ℕ}

/-- `n` ones and then zeros. -/
def mask (w n : ℕ) : BitVec w := BitVec.allOnes w <<< (w - n)

/-- Two words have the same first `n` bits. -/
def Agree (n : ℕ) (x y : BitVec w) : Prop := x >>> (w - n) = y >>> (w - n)

instance (n : ℕ) (x y : BitVec w) : Decidable (Agree n x y) := inferInstanceAs (Decidable (_ = _))

/-- There are only zeros behind the first `n` bits. -/
def Aligned (n : ℕ) (x : BitVec w) : Prop := ∀ i < w - n, x.getLsbD i = false

instance (n : ℕ) (x : BitVec w) : Decidable (Aligned n x) :=
  inferInstanceAs (Decidable (∀ i < w - n, _))

theorem getLsbD_mask (n i : ℕ) : (mask w n).getLsbD i = (decide (w - n ≤ i) && decide (i < w)) := by
  rw [mask, BitVec.getLsbD_shiftLeft, BitVec.getLsbD_allOnes]
  by_cases hi : i < w
  · by_cases hn : i < w - n
    · simp [hi, hn, Nat.not_le.mpr hn]
    · have hlt : i - (w - n) < w := by omega
      simp [hi, hn, Nat.not_lt.mp hn, hlt]
  · simp [hi]

/-- Agreement bit by bit. -/
theorem agree_iff_bits {n : ℕ} {x y : BitVec w} :
    Agree n x y ↔ ∀ i, w - n ≤ i → i < w → x.getLsbD i = y.getLsbD i := by
  constructor
  · intro h i hi _
    have hbit := congrArg (fun z => z.getLsbD (i - (w - n))) h
    simpa [BitVec.getLsbD_ushiftRight, Nat.add_sub_cancel' hi] using hbit
  · intro h
    apply BitVec.eq_of_getLsbD_eq
    intro i _
    rw [BitVec.getLsbD_ushiftRight, BitVec.getLsbD_ushiftRight]
    by_cases hi : w - n + i < w
    · exact h _ (Nat.le_add_right _ _) hi
    · rw [BitVec.getLsbD_of_ge _ _ (Nat.not_lt.mp hi), BitVec.getLsbD_of_ge _ _ (Nat.not_lt.mp hi)]

/-- **Masked words are the same** iff the words agree. -/
theorem and_mask_eq_iff {n : ℕ} {x y : BitVec w} :
    x &&& mask w n = y &&& mask w n ↔ Agree n x y := by
  rw [agree_iff_bits]
  constructor
  · intro h i hi hlt
    have hbit : (x &&& mask w n).getLsbD i = (y &&& mask w n).getLsbD i := by rw [h]
    rw [BitVec.getLsbD_and, BitVec.getLsbD_and, getLsbD_mask] at hbit
    simpa only [hi, hlt, decide_true, Bool.and_true] using hbit
  · intro h
    apply BitVec.eq_of_getLsbD_eq
    intro i hlt
    rw [BitVec.getLsbD_and, BitVec.getLsbD_and, getLsbD_mask]
    by_cases hi : w - n ≤ i
    · rw [h i hi hlt]
    · simp [hi]

/-- **A masked word is the same as before** iff there are no bits behind the prefix. -/
theorem and_mask_eq_self_iff {n : ℕ} {x : BitVec w} : x &&& mask w n = x ↔ Aligned n x := by
  constructor
  · intro h i hi
    have hbit := congrArg (fun z => z.getLsbD i) h
    simpa [BitVec.getLsbD_and, getLsbD_mask, Nat.not_le.mpr hi] using hbit.symm
  · intro h
    apply BitVec.eq_of_getLsbD_eq
    intro i hlt
    rw [BitVec.getLsbD_and, getLsbD_mask]
    by_cases hi : w - n ≤ i
    · simp [hi, hlt]
    · rw [h i (Nat.not_le.mp hi)]
      rfl

/-- All words start with no bits. -/
theorem agree_zero (x y : BitVec w) : Agree 0 x y := by
  rw [agree_iff_bits]
  intro i hi hlt
  omega

/-- Only zero has no bits behind no bits. -/
theorem aligned_zero_iff {x : BitVec w} : Aligned 0 x ↔ x = 0 := by
  constructor
  · intro h
    apply BitVec.eq_of_getLsbD_eq
    intro i hi
    rw [h i (by omega)]
    exact BitVec.getLsbD_zero.symm
  · rintro rfl i _
    exact BitVec.getLsbD_zero

/-- There is nothing behind the last bit. -/
theorem aligned_self (x : BitVec w) : Aligned w x := by
  intro i hi
  omega

theorem Agree.refl (n : ℕ) (x : BitVec w) : Agree n x x := rfl

/-- Words that agree in a longer prefix agree in a shorter one. -/
theorem Agree.mono {m n : ℕ} {x y : BitVec w} (h : Agree n x y) (hmn : m ≤ n) : Agree m x y := by
  rw [agree_iff_bits] at h ⊢
  exact fun i hi hlt => h i (by omega) hlt

/-- There is a word that is `x` in the bits of `m` and `y` in those of `n` iff the two are the same where
both have bits. -/
theorem exists_and_eq_iff {x y m n : BitVec w} :
    (∃ z, z &&& m = x &&& m ∧ z &&& n = y &&& n) ↔ x &&& (m &&& n) = y &&& (m &&& n) := by
  constructor
  · rintro ⟨z, hx, hy⟩
    calc x &&& (m &&& n)
        = z &&& m &&& n := by rw [hx, BitVec.and_assoc]
      _ = z &&& n &&& m := by rw [BitVec.and_assoc, BitVec.and_comm m n, BitVec.and_assoc]
      _ = y &&& (m &&& n) := by rw [hy, BitVec.and_assoc, BitVec.and_comm n m]
  · intro h
    refine ⟨(x &&& m) ||| (y &&& n), ?_, ?_⟩
    all_goals
      apply BitVec.eq_of_getLsbD_eq
      intro i _
      have hbit := congrArg (fun z => z.getLsbD i) h
      simp only [BitVec.getLsbD_and, BitVec.getLsbD_or] at hbit ⊢
      revert hbit
      cases x.getLsbD i <;> cases y.getLsbD i <;> cases m.getLsbD i <;> cases n.getLsbD i <;> decide

end BitPrefix
