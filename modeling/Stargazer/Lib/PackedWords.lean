import Mathlib.Data.Nat.Bitwise

set_option relaxedAutoImplicit false
set_option autoImplicit false

/-!
# Arrays of words packed into one number

The kernel computes with numbers of any size quickly, with arrays slowly.  Where a proof has to
evaluate a computation on large tables, the tables are packed into one number each: the word `i` of
width `w` takes the bits from `w * i` on.

Numbers are forced by `PackedWords.force` before they are passed on, so that no unevaluated terms
pile up.

## Main definitions

* `PackedWords.get`, `PackedWords.set`, `PackedWords.pack` — a word, an array with another word, and
  the array of a list.
* `PackedWords.force` — pass a number on evaluated.

## Main results

* `PackedWords.get_set` — reading a word after writing one.
* `PackedWords.get_pack` — reading a word of a list.
-/

namespace PackedWords

/-- The word `i` of an array. -/
def get (w t i : ℕ) : ℕ := Nat.mod (Nat.shiftRight t (Nat.mul w i)) (Nat.pow 2 w)

/-- The array with the word `i` replaced. -/
def set (w t i v : ℕ) : ℕ := Nat.xor t (Nat.shiftLeft (Nat.xor (get w t i) v) (Nat.mul w i))

/-- The array of a list of words. -/
def pack (w : ℕ) (l : List ℕ) : ℕ := l.foldr (fun v t => v + 2 ^ w * t) 0

/-- Evaluate a number before it is passed on. -/
def force {α : Type} (n : ℕ) (f : ℕ → α) : α :=
  match n with
  | 0 => f 0
  | n + 1 => f (n + 1)

@[simp] theorem force_eq {α : Type} (n : ℕ) (f : ℕ → α) : force n f = f n := by
  cases n <;> rfl

theorem get_eq (w t i : ℕ) : get w t i = (t >>> (w * i)) % 2 ^ w := rfl

theorem set_eq (w t i v : ℕ) : set w t i v = t ^^^ ((get w t i ^^^ v) <<< (w * i)) := rfl

theorem get_lt (w t i : ℕ) : get w t i < 2 ^ w := Nat.mod_lt _ (Nat.two_pow_pos w)

/-- The bits of a word. -/
theorem testBit_get (w t i j : ℕ) :
    (get w t i).testBit j = (decide (j < w) && t.testBit (w * i + j)) := by
  rw [get_eq, Nat.testBit_mod_two_pow, Nat.testBit_shiftRight]

/-- **Reading a word after writing one.** -/
theorem get_set {w v : ℕ} (hv : v < 2 ^ w) (t i j : ℕ) :
    get w (set w t i v) j = if i = j then v else get w t j := by
  have hhigh : ∀ k, w ≤ k → (get w t i ^^^ v).testBit k = false := by
    intro k hk
    have hlt : get w t i ^^^ v < 2 ^ k :=
      (Nat.xor_lt_two_pow (get_lt w t i) hv).trans_le (Nat.pow_le_pow_right (by decide) hk)
    exact Nat.testBit_lt_two_pow hlt
  apply Nat.eq_of_testBit_eq
  intro k
  rw [testBit_get, set_eq, Nat.testBit_xor, Nat.testBit_shiftLeft]
  by_cases hk : k < w
  · split_ifs with hij
    · subst hij
      simp only [Nat.testBit_xor, testBit_get, Nat.add_sub_cancel_left]
      simp [hk]
    · -- the other word lies before the one that was written, or behind it
      have hfalse : (decide (w * j + k ≥ w * i) &&
          (get w t i ^^^ v).testBit (w * j + k - w * i)) = false := by
        rcases lt_or_gt_of_ne hij with h | h
        · have hle : w * (i + 1) ≤ w * j := Nat.mul_le_mul_left w h
          rw [Nat.mul_add, Nat.mul_one] at hle
          rw [hhigh _ (by omega), Bool.and_false]
        · have hle : w * (j + 1) ≤ w * i := Nat.mul_le_mul_left w h
          rw [Nat.mul_add, Nat.mul_one] at hle
          rw [decide_eq_false (by omega), Bool.false_and]
      rw [hfalse, Bool.xor_false, testBit_get]
  · have hlt : (if i = j then v else get w t j) < 2 ^ w := by
      split_ifs
      · exact hv
      · exact get_lt w t j
    have hk' : 2 ^ w ≤ 2 ^ k := Nat.pow_le_pow_right (by decide) (by omega)
    rw [Nat.testBit_lt_two_pow (hlt.trans_le hk')]
    simp [hk]

/-- **Reading a word of a list.** -/
theorem get_pack {w : ℕ} {l : List ℕ} (hl : ∀ v ∈ l, v < 2 ^ w) (i : ℕ) :
    get w (pack w l) i = l.getD i 0 := by
  induction l generalizing i with
  | nil => simp [get_eq, pack]
  | cons v l ih =>
    have hv : v < 2 ^ w := hl v List.mem_cons_self
    have hrest := ih fun u hu => hl u (List.mem_cons_of_mem v hu)
    change get w (v + 2 ^ w * pack w l) i = _
    cases i with
    | zero => simp [get_eq, Nat.mod_eq_of_lt hv]
    | succ i =>
      rw [List.getD_cons_succ, ← hrest i, get_eq, get_eq, Nat.mul_add, Nat.mul_one, Nat.add_comm (w * i),
        Nat.shiftRight_add]
      congr 2
      rw [Nat.shiftRight_eq_div_pow, Nat.add_mul_div_left _ _ (Nat.two_pow_pos w),
        Nat.div_eq_of_lt hv, Nat.zero_add]

end PackedWords
