import Mathlib.Tactic.Ring

set_option relaxedAutoImplicit false
set_option autoImplicit false

/-!
# Functions applied block by block

A list is cut into blocks of a fixed size, and a function of blocks is applied to each of them.
What comes out does not depend on how the list is cut further, as long as the cuts fall between
blocks.

## Main definitions

* `Blocks.map` — a function of blocks on the first blocks of a list.
* `Blocks.inPlace` — a function of blocks on an array, in place.

## Main results

* `Blocks.map_append` — the blocks of two lists, one after the other.
* `Blocks.map_map_of_inverse`, `Blocks.map_take_map_of_inverse` — a function of blocks and its
  inverse.
* `Blocks.inPlace_eq` — what is in the array afterwards, if all the blocks lie inside of it.
-/

namespace Blocks

variable {α : Type*} {b : ℕ} {f g : List α → List α}

/-- The function `f` on each of the first `n` blocks of size `b`. -/
def map (b : ℕ) (f : List α → List α) : ℕ → List α → List α
  | 0, _ => []
  | n + 1, l => f (l.take b) ++ map b f n (l.drop b)

@[simp] theorem map_zero (l : List α) : map b f 0 l = [] := rfl

theorem map_succ (n : ℕ) (l : List α) :
    map b f (n + 1) l = f (l.take b) ++ map b f n (l.drop b) := rfl

/-- Blocks have the size they are mapped to. -/
theorem length_map (hf : ∀ l, (f l).length = b) (n : ℕ) (l : List α) :
    (map b f n l).length = b * n := by
  induction n generalizing l with
  | zero => rfl
  | succ n ih =>
    rw [map_succ, List.length_append, hf, ih]
    ring

/-- The first blocks and then the rest. -/
theorem map_add (m n : ℕ) (l : List α) :
    map b f (m + n) l = map b f m l ++ map b f n (l.drop (b * m)) := by
  induction m generalizing l with
  | zero => simp
  | succ m ih =>
    have hdrop : (l.drop b).drop (b * m) = l.drop (b * (m + 1)) := by
      rw [List.drop_drop]
      ring_nf
    rw [Nat.add_right_comm, map_succ, ih, map_succ, hdrop, List.append_assoc]

/-- What follows the blocks is not read. -/
theorem map_append_of_le (n : ℕ) (l l' : List α) (h : b * n ≤ l.length) :
    map b f n (l ++ l') = map b f n l := by
  induction n generalizing l with
  | zero => rfl
  | succ n ih =>
    have hb : b ≤ l.length := le_trans (Nat.le_mul_of_pos_right b n.succ_pos) h
    have hn : b * n ≤ (l.drop b).length := by
      rw [List.length_drop]
      have : b * (n + 1) = b * n + b := Nat.mul_succ b n
      omega
    rw [map_succ, map_succ, List.take_append_of_le_length hb, List.drop_append_of_le_length hb,
      ih _ hn]

/-- The blocks of a list and of a list after it. -/
theorem map_append (m n : ℕ) (l l' : List α) (h : l.length = b * m) :
    map b f (m + n) (l ++ l') = map b f m l ++ map b f n l' := by
  rw [map_add, map_append_of_le m l l' h.ge, ← h, List.drop_left]

/-- **A function of blocks is undone block by block.** -/
theorem map_map_of_inverse (hf : ∀ l, (f l).length = b)
    (hinv : ∀ l, l.length = b → g (f l) = l) (n : ℕ) (l : List α) (h : l.length = b * n) :
    map b g n (map b f n l) = l := by
  induction n generalizing l with
  | zero =>
    rw [map_zero]
    exact (List.length_eq_zero_iff.1 (by simpa using h)).symm
  | succ n ih =>
    have hb : (l.take b).length = b := by
      rw [List.length_take, h]
      have : b * (n + 1) = b * n + b := Nat.mul_succ b n
      omega
    have hn : (l.drop b).length = b * n := by
      rw [List.length_drop, h]
      have : b * (n + 1) = b * n + b := Nat.mul_succ b n
      omega
    have htake : (f (l.take b) ++ map b f n (l.drop b)).take b = f (l.take b) :=
      List.take_left' (hf _)
    have hdrop : (f (l.take b) ++ map b f n (l.drop b)).drop b = map b f n (l.drop b) :=
      List.drop_left' (hf _)
    rw [map_succ, map_succ, htake, hdrop, hinv _ hb, ih _ hn, List.take_append_drop]

/-- The first blocks are got back from any part that contains them. -/
theorem map_take_map_of_inverse (hf : ∀ l, (f l).length = b)
    (hinv : ∀ l, l.length = b → g (f l) = l) (m n k : ℕ) (l : List α) (h : l.length = b * (m + n))
    (hk : b * m ≤ k) : map b g m ((map b f (m + n) l).take k) = l.take (b * m) := by
  have hle : b * m ≤ l.length := by
    rw [h]
    exact Nat.mul_le_mul_left b (Nat.le_add_right m n)
  have hfst : map b f m l = map b f m (l.take (b * m)) := by
    have := map_append_of_le (f := f) m (l.take (b * m)) (l.drop (b * m))
      (by rw [List.length_take_of_le hle])
    rwa [List.take_append_drop] at this
  have hlen : (map b f m (l.take (b * m))).length = b * m := length_map hf m _
  rw [map_add, hfst, List.take_append, List.take_of_length_le (by rw [hlen]; exact hk),
    map_append_of_le m _ _ hlen.ge]
  exact map_map_of_inverse hf hinv m _ (List.length_take_of_le hle)

/-! ### In place -/

/-- The function `f` on `n` blocks of an array, from a position on; `none` as soon as a block does not
lie inside of the array. -/
def inPlace (b : ℕ) (f : List α → List α) : ℕ → List α → ℕ → Option (List α)
  | 0, mem, _ => some mem
  | n + 1, mem, pos =>
    if pos + b ≤ mem.length then
      inPlace b f n (mem.take pos ++ (f ((mem.drop pos).take b) ++ mem.drop (pos + b))) (pos + b)
    else none

/-- **A loop in place**: it runs to its end iff all its blocks lie inside of the array.

**Proof sketch.** Induction on the number of blocks; what is before the position is not touched any
more. -/
theorem inPlace_eq (hf : ∀ l, (f l).length = b) (n : ℕ) {mem : List α} {pos : ℕ}
    (hpos : pos ≤ mem.length) :
    inPlace b f n mem pos =
      if pos + b * n ≤ mem.length then
        some (mem.take pos ++ (map b f n (mem.drop pos) ++ mem.drop (pos + b * n)))
      else none := by
  induction n generalizing mem pos with
  | zero => simp [inPlace, hpos]
  | succ n ih =>
    have hsucc : pos + b * (n + 1) = pos + b + b * n := by ring
    rw [inPlace, hsucc]
    by_cases hlt : pos + b ≤ mem.length
    · have hlen : (mem.take pos ++ f ((mem.drop pos).take b)).length = pos + b := by
        rw [List.length_append, hf, List.length_take, Nat.min_eq_left hpos]
      obtain ⟨mem', hmem'⟩ : ∃ mem', mem' = mem.take pos ++
          (f ((mem.drop pos).take b) ++ mem.drop (pos + b)) := ⟨_, rfl⟩
      have htake : mem'.take (pos + b) = mem.take pos ++ f ((mem.drop pos).take b) := by
        rw [hmem', ← List.append_assoc, List.take_left' hlen]
      have hdrop : mem'.drop (pos + b) = mem.drop (pos + b) := by
        rw [hmem', ← List.append_assoc, List.drop_left' hlen]
      have hdrop' : mem'.drop (pos + b + b * n) = mem.drop (pos + b + b * n) := by
        rw [← List.drop_drop, hdrop, List.drop_drop]
      have hsize : mem'.length = mem.length := by
        rw [hmem', ← List.append_assoc, List.length_append, hlen, List.length_drop]
        omega
      rw [if_pos hlt, ← hmem', ih (hsize.symm ▸ hlt), hsize, htake, hdrop, hdrop', map_succ,
        List.drop_drop, List.append_assoc, List.append_assoc]
    · rw [if_neg hlt, if_neg (by omega)]

end Blocks
