import Mathlib.Data.BitVec

set_option relaxedAutoImplicit false
set_option autoImplicit false

/-!
# Feistel networks with whitened halves

A block is a pair of words.  A round adds a key to the left half, mixes the round function of the
sum into the right half, and exchanges the halves; after the last round two more keys are added.
A network with a list of keys is undone by the same network with the keys in reverse order,
whatever the round function is.

## Main definitions

* `Feistel.round`, `Feistel.rounds`, `Feistel.finish` — the parts of a network.
* `Feistel.crypt` — a network with round keys and two final keys.

## Main results

* `Feistel.crypt_reverse_crypt` — the reversed keys undo a network.
-/

namespace Feistel

variable {w : ℕ} (F : BitVec w → BitVec w)

/-- One round with the key `k`. -/
def round (k : BitVec w) (x : BitVec w × BitVec w) : BitVec w × BitVec w :=
  (F (x.1 ^^^ k) ^^^ x.2, x.1 ^^^ k)

/-- The rounds with the keys `ks`, the first key first. -/
def rounds (ks : List (BitVec w)) (x : BitVec w × BitVec w) : BitVec w × BitVec w :=
  ks.foldl (fun x k => round F k x) x

/-- The end of a network: the last exchange is taken back and the two final keys are added. -/
def finish (a b : BitVec w) (x : BitVec w × BitVec w) : BitVec w × BitVec w :=
  (x.2 ^^^ b, x.1 ^^^ a)

/-- The network with the round keys `ks` and the final keys `a` and `b`. -/
def crypt (ks : List (BitVec w)) (a b : BitVec w) (x : BitVec w × BitVec w) :
    BitVec w × BitVec w :=
  finish a b (rounds F ks x)

@[simp] theorem rounds_append (ks ks' : List (BitVec w)) (x : BitVec w × BitVec w) :
    rounds F (ks ++ ks') x = rounds F ks' (rounds F ks x) := by
  simp [rounds]

@[simp] theorem rounds_singleton (k : BitVec w) (x : BitVec w × BitVec w) :
    rounds F [k] x = round F k x := rfl

/-- Adding a word twice changes nothing. -/
theorem xor_xor_cancel (a b : BitVec w) : a ^^^ b ^^^ b = a := by
  rw [BitVec.xor_assoc, BitVec.xor_self, BitVec.xor_zero]

/-- A round with the second final key undoes the last round, and leaves the keys before it as the
final keys. -/
theorem round_finish_round (a b k : BitVec w) (x : BitVec w × BitVec w) :
    round F b (finish a b (round F k x)) = finish k a x := by
  have hr : x.1 ^^^ k ^^^ b ^^^ b = x.1 ^^^ k := xor_xor_cancel _ _
  have hl : F (x.1 ^^^ k) ^^^ (F (x.1 ^^^ k) ^^^ x.2 ^^^ a) = x.2 ^^^ a := by
    rw [← BitVec.xor_assoc, ← BitVec.xor_assoc, BitVec.xor_self, BitVec.zero_xor]
  simp only [round, finish, hr, hl]

/-- Finishing twice, with the keys exchanged, changes nothing. -/
theorem finish_finish (a b : BitVec w) (x : BitVec w × BitVec w) :
    finish b a (finish a b x) = x := by
  simp only [finish, xor_xor_cancel]

/-- The rounds with the keys in reverse order undo the rounds of a network one by one.

**Proof sketch.** Induction on the round keys from the last to the first, with
`round_finish_round`: what is left of the network after undoing a round is a network again. -/
theorem rounds_reverse_crypt (a b k₀ k₁ : BitVec w) (ks : List (BitVec w))
    (x : BitVec w × BitVec w) (l : List (BitVec w))
    (h : k₀ :: k₁ :: l = ks ++ [a, b]) :
    rounds F l.reverse (crypt F ks a b x) = finish k₀ k₁ x := by
  induction ks using List.reverseRecOn generalizing a b l with
  | nil =>
    obtain ⟨rfl, rfl, rfl⟩ : k₀ = a ∧ k₁ = b ∧ l = [] := by simpa using h
    rfl
  | append_singleton ks k ih =>
    -- the last of the keys after the first two is `b`
    obtain ⟨l', rfl⟩ : ∃ l', l = l' ++ [b] := by
      rcases List.eq_nil_or_concat l with rfl | ⟨l', y, rfl⟩
      · have := congrArg List.length h
        simp at this
      · refine ⟨l', ?_⟩
        have := congrArg List.getLast? h
        simp [List.getLast?_cons, List.getLast?_append] at this
        simp [this]
    have hl : k₀ :: k₁ :: l' = ks ++ [k, a] := by
      have : (k₀ :: k₁ :: l') ++ [b] = (ks ++ [k, a]) ++ [b] := by simpa using h
      exact List.append_cancel_right this
    have hpeel : round F b (crypt F (ks ++ [k]) a b x) = crypt F ks k a x := by
      unfold crypt
      rw [rounds_append, rounds_singleton, round_finish_round]
    rw [List.reverse_append, List.reverse_singleton, rounds_append, rounds_singleton, hpeel]
    exact ih k a l' hl

/-- **A network is undone by its keys in reverse order.** -/
theorem crypt_reverse_crypt (ks : List (BitVec w)) (a b k₀ k₁ : BitVec w) (l : List (BitVec w))
    (h : k₀ :: k₁ :: l = ks ++ [a, b]) (x : BitVec w × BitVec w) :
    crypt F l.reverse k₁ k₀ (crypt F ks a b x) = x := by
  rw [crypt, rounds_reverse_crypt F a b k₀ k₁ ks x l h, finish_finish]

end Feistel
