import Mathlib.Data.Int.Notation
import Mathlib.Data.List.TakeWhile

set_option relaxedAutoImplicit false
set_option autoImplicit false

/-!
# Loops that copy a text into a buffer

A loop of a C program that copies a part of a text into a buffer: it starts at a position of the text,
stops in front of certain characters, and writes what is at the position `i` to the index `i - p` of the
buffer.  The index is computed by hand, so that it can be negative or behind the buffer.

## Main definitions

* `CopyLoop.run` — the loop, with everything it writes.
* `CopyLoop.Result.text` — the text at the start of the buffer afterwards.
* `CopyLoop.strcpy` — the indices that a copy of a whole text writes to.

## Main results

* `CopyLoop.text_run`, `CopyLoop.text_run_succ` — what is copied by a loop that starts at the index `0`
  or in front of it.
* `CopyLoop.writes_run_lt_iff`, `CopyLoop.strcpy_lt_iff` — when the buffer is large enough.
-/

namespace CopyLoop

/-- What a loop has done. -/
structure Result where
  /-- What is written, and where. -/
  writes : List (ℤ × Char)
  /-- The position where the loop stops. -/
  pos : ℕ
  /-- The text from there on. -/
  rest : List Char

/-- `for (; i < len; i++) { if (stop(s[i])) break; buffer[i - p] = s[i]; }`, where `i` comes first and
the list is the text from there on. -/
def run (stop : Char → Bool) (p : ℕ) : ℕ → List Char → Result
  | i, [] => ⟨[], i, []⟩
  | i, c :: s =>
    if stop c then ⟨[], i, c :: s⟩
    else
      let r := run stop p (i + 1) s
      { r with writes := ((i : ℤ) - p, c) :: r.writes }

/-- The text at the start of the buffer. -/
def Result.text (r : Result) : List Char := (r.writes.filter fun w => 0 ≤ w.1).map Prod.snd

/-- The indices that are written to. -/
def Result.indices (r : Result) : List ℤ := r.writes.map Prod.fst

/-- The indices that `strcpy` writes to, with the zero at the end. -/
def strcpy (s : List Char) : List ℤ := (List.range (s.length + 1)).map fun i : ℕ => (i : ℤ)

variable {stop : Char → Bool} {p i : ℕ} {s : List Char}

-- the equations are derived here, once, for all the lemmas below
attribute [local simp] run in
/-- The loop stops in front of the first character it looks for. -/
theorem rest_run : (run stop p i s).rest = s.dropWhile fun c => !stop c := by
  induction s generalizing i with
  | nil => rfl
  | cons c s ih =>
    rw [run, List.dropWhile_cons]
    cases hc : stop c with
    | true => rfl
    | false => exact ih

/-- Where the loop stops. -/
theorem pos_run : (run stop p i s).pos = i + (s.takeWhile fun c => !stop c).length := by
  induction s generalizing i with
  | nil => rfl
  | cons c s ih =>
    rw [run, List.takeWhile_cons]
    cases hc : stop c with
    | true => rfl
    | false =>
      have hpos := ih (i := i + 1)
      simp only [Bool.false_eq_true, if_false, Bool.not_false, if_true, List.length_cons, hpos]
      omega

/-- **What is copied** from a position that is not in front of the buffer. -/
theorem text_run (h : p ≤ i) : (run stop p i s).text = s.takeWhile fun c => !stop c := by
  induction s generalizing i with
  | nil => rfl
  | cons c s ih =>
    rw [run, List.takeWhile_cons]
    cases hc : stop c with
    | true => rfl
    | false =>
      have hindex : (0 : ℤ) ≤ (i : ℤ) - p := by omega
      have htext := ih (i := i + 1) (by omega)
      unfold Result.text at htext ⊢
      simp only [Bool.false_eq_true, if_false, Bool.not_false, if_true]
      rw [List.filter_cons_of_pos (by simpa using hindex), List.map_cons, htext]

/-- **What is copied** by a loop that starts one character too early. -/
theorem text_run_succ {c : Char} (hc : stop c = false) :
    (run stop (i + 1) i (c :: s)).text = s.takeWhile fun c => !stop c := by
  have hindex : ¬ (0 : ℤ) ≤ (i : ℤ) - (i + 1 : ℕ) := by omega
  rw [← text_run (p := i + 1) (i := i + 1) (s := s) le_rfl, run, hc]
  unfold Result.text
  simp only [Bool.false_eq_true, if_false]
  rw [List.filter_cons, if_neg (mt of_decide_eq_true hindex)]

/-- The indices go up from the first one. -/
theorem indices_run : (run stop p i s).indices =
    (List.range (s.takeWhile fun c => !stop c).length).map fun j : ℕ => (i : ℤ) - p + j := by
  induction s generalizing i with
  | nil => rfl
  | cons c s ih =>
    rw [run, List.takeWhile_cons]
    cases hc : stop c with
    | true => rfl
    | false =>
      have hindices := ih (i := i + 1)
      unfold Result.indices at hindices ⊢
      simp only [Bool.false_eq_true, if_false, Bool.not_false, if_true, List.map_cons,
        List.length_cons, hindices, List.range_succ_eq_map, List.map_map]
      congr 1
      · omega
      · apply List.map_congr_left
        intro j _
        simp only [Function.comp_apply]
        omega

/-- **A loop with the zero behind its text** stays in the buffer iff there is room for both. -/
theorem writes_run_lt_iff {size : ℕ} : (∀ w ∈ (run stop i i s).indices ++
    [((run stop i i s).pos : ℤ) - i], 0 ≤ w ∧ w < size) ↔
      (s.takeWhile fun c => !stop c).length < size := by
  simp only [List.mem_append, List.mem_singleton, indices_run, pos_run, List.mem_map, List.mem_range]
  constructor
  · intro h
    have := (h _ (.inr rfl)).2
    omega
  · rintro h w (⟨j, hj, rfl⟩ | rfl)
    · omega
    · omega

/-- A loop that starts one character too early writes in front of the buffer. -/
theorem neg_one_mem_indices {c : Char} (hc : stop c = false) :
    (-1 : ℤ) ∈ (run stop (i + 1) i (c :: s)).indices := by
  rw [run, hc]
  apply List.mem_cons.mpr
  left
  omega

/-- **A copy** stays in the buffer iff there is room for the zero. -/
theorem strcpy_lt_iff {size : ℕ} : (∀ w ∈ strcpy s, 0 ≤ w ∧ w < size) ↔ s.length < size := by
  simp only [strcpy, List.mem_map, List.mem_range]
  constructor
  · intro h
    have := (h _ ⟨s.length, by omega, rfl⟩).2
    exact Int.ofNat_lt.mp this
  · rintro h w ⟨j, hj, rfl⟩
    omega

end CopyLoop
