import Mathlib.Data.List.DropRight
import Stargazer.Lib.CString

set_option relaxedAutoImplicit false
set_option autoImplicit false

/-!
# Text files read into buffers

The function `fgets` of C: it reads up to the end of a line, but never more than fits into the buffer,
and finds the end of the file only if it looks behind the last character.

## Main definitions

* `Stdio.Stream`, `Stdio.fgets`.
* `Stdio.lines` — a file read with `fgets` until there is nothing left.
* `Stdio.readAll` — a file read with `fgets` until its end, the pieces put together.
* `CString.cutLast` — a string cut at the last place of a character (`strrchr`).

## Main results

* `Stdio.fgets_line` — a line that fits into the buffer.
* `Stdio.flatten_lines`, `Stdio.readAll_eq` — the pieces make up the file again, whatever the size of
  the buffer.
-/

namespace CString

/-- A zero where `strrchr` finds a character. -/
def cutLast (c : Char) (s : List Char) : List Char :=
  if s.contains c then (s.rdropWhile (· ≠ c)).dropLast else s

theorem cutLast_of_notMem {c : Char} {s : List Char} (h : c ∉ s) : cutLast c s = s :=
  if_neg (by simpa using h)

theorem cutLast_append_singleton (c : Char) (s : List Char) : cutLast c (s ++ [c]) = s := by
  have hmem : (s ++ [c]).contains c = true := by simp
  have hdrop : (s ++ [c]).rdropWhile (· ≠ c) = s ++ [c] :=
    List.rdropWhile_concat_neg _ _ _ (by simp)
  rw [cutLast, if_pos hmem, hdrop, List.dropLast_concat]

end CString

namespace Stdio

/-- An open file. -/
structure Stream where
  /-- What is left to read. -/
  rest : List Char
  /-- `feof`. -/
  eof : Bool := false

/-- What is read up to the end of a line, at most `n` characters, and the file afterwards. -/
def scanLine : ℕ → List Char → List Char × Stream
  | 0, rest => ([], ⟨rest, false⟩)
  | _ + 1, [] => ([], ⟨[], true⟩)
  | n + 1, c :: rest =>
    if c = '\n' then (['\n'], ⟨rest, false⟩) else (c :: (scanLine n rest).1, (scanLine n rest).2)

/-- `fgets` with a buffer of a given size, which is more than one: the string, `none` for `NULL`, and
the file afterwards. -/
def fgets (size : ℕ) (f : Stream) : Option (List Char) × Stream :=
  let line := scanLine (size - 1) f.rest
  (if line.1.isEmpty then none else some line.1, line.2)

/-- A file is read to its end.  The fuel counts the calls of `fgets`; each but the last one reads a
character. -/
def readAll (size : ℕ) : ℕ → Stream → List Char
  | 0, _ => []
  | fuel + 1, f =>
    if f.eof then []
    else
      match fgets size f with
      | (none, _) => []
      | (some line, f) => CString.cut line ++ readAll size fuel f

/-- The strings that `fgets` gives one after another, up to the first `NULL`.  The fuel counts the
calls. -/
def lines (size : ℕ) : ℕ → Stream → List (List Char)
  | 0, _ => []
  | fuel + 1, f =>
    match fgets size f with
    | (none, _) => []
    | (some line, f) => CString.cut line :: lines size fuel f

/-! ## Lines -/

-- the equations are derived here, once, for all the lemmas below
attribute [local simp] scanLine in
/-- Nothing gets lost. -/
theorem scanLine_append (n : ℕ) (rest : List Char) :
    (scanLine n rest).1 ++ (scanLine n rest).2.rest = rest := by
  induction n generalizing rest with
  | zero => rfl
  | succ n ih =>
    cases rest with
    | nil => rfl
    | cons c rest =>
      rw [scanLine]
      split_ifs with hc
      · rw [hc]
        rfl
      · rw [List.cons_append, ih]

/-- Where the end of the file is found, nothing is left. -/
theorem rest_of_eof (n : ℕ) (rest : List Char) (h : (scanLine n rest).2.eof = true) :
    (scanLine n rest).2.rest = [] := by
  induction n generalizing rest with
  | zero => cases h
  | succ n ih =>
    cases rest with
    | nil => rfl
    | cons c rest =>
      rw [scanLine] at h ⊢
      split_ifs at h ⊢
      exact ih rest h

/-- Where something is left, something is read. -/
theorem scanLine_ne_nil {n : ℕ} (hn : n ≠ 0) {rest : List Char} (h : rest ≠ []) :
    (scanLine n rest).1 ≠ [] := by
  obtain ⟨n, rfl⟩ := Nat.exists_eq_succ_of_ne_zero hn
  cases rest with
  | nil => exact absurd rfl h
  | cons c rest =>
    rw [scanLine]
    split_ifs <;> exact List.cons_ne_nil _ _

/-- A line that is short enough. -/
theorem scanLine_line {n : ℕ} {line : List Char} (hline : '\n' ∉ line) (hlen : line.length < n)
    (rest : List Char) : scanLine n (line ++ '\n' :: rest) = (line ++ ['\n'], ⟨rest, false⟩) := by
  induction line generalizing n with
  | nil =>
    obtain ⟨n, rfl⟩ := Nat.exists_eq_succ_of_ne_zero (Nat.ne_of_gt hlen)
    rfl
  | cons c line ih =>
    obtain ⟨n, rfl⟩ := Nat.exists_eq_succ_of_ne_zero (Nat.ne_of_gt (Nat.zero_lt_of_lt hlen))
    rw [List.mem_cons, not_or] at hline
    rw [List.cons_append, scanLine, if_neg (Ne.symm hline.1),
      ih hline.2 (Nat.lt_of_succ_lt_succ hlen)]
    rfl

/-- **A line that fits into the buffer** is read as a whole, and the end of the file is not found. -/
theorem fgets_line {size : ℕ} {line : List Char} (hline : '\n' ∉ line)
    (hlen : line.length + 1 < size) (rest : List Char) (eof : Bool) :
    fgets size ⟨line ++ '\n' :: rest, eof⟩ = (some (line ++ ['\n']), ⟨rest, false⟩) := by
  rw [fgets, scanLine_line hline (by omega)]
  simp

/-! ## Whole files -/

/-- **The pieces make up the file again.** -/
theorem flatten_lines {size : ℕ} (hsize : 2 ≤ size) (fuel : ℕ) (f : Stream)
    (hfuel : f.rest.length < fuel) (hnul : '\x00' ∉ f.rest) :
    (lines size fuel f).flatten = f.rest := by
  induction fuel generalizing f with
  | zero => cases hfuel
  | succ fuel ih =>
    rw [lines]
    obtain ⟨line, hline⟩ : ∃ line, line = scanLine (size - 1) f.rest := ⟨_, rfl⟩
    have hsplit : line.1 ++ line.2.rest = f.rest := hline ▸ scanLine_append _ _
    have hget : fgets size f = (if line.1.isEmpty then none else some line.1, line.2) := by
      rw [hline]
      rfl
    by_cases hrest : f.rest = []
    · have hnil : line.1 = [] := (List.append_eq_nil_iff.mp (hsplit.trans hrest)).1
      rw [hget, hnil, hrest]
      rfl
    · have hne : line.1 ≠ [] := hline ▸ scanLine_ne_nil (by omega) hrest
      have hpos := List.length_pos_of_ne_nil hne
      have hlen := congrArg List.length hsplit
      rw [List.length_append] at hlen
      rw [← hsplit, List.mem_append, not_or] at hnul
      rw [hget, if_neg (by simpa using hne)]
      dsimp only
      rw [List.flatten_cons, CString.cut_eq_self hnul.1, ih line.2 (by omega) hnul.2, hsplit]

/-- At the end of a file there is nothing to read. -/
theorem lines_of_rest_eq_nil {size fuel : ℕ} {f : Stream} (h : f.rest = []) :
    lines size fuel f = [] := by
  cases fuel with
  | zero => rfl
  | succ fuel =>
    have hline : (scanLine (size - 1) []).1 = [] := by cases size - 1 <;> rfl
    rw [lines, fgets, h, hline]
    rfl

/-- **Lines that fit into the buffer** are read one after another. -/
theorem lines_flatMap {size fuel : ℕ} {ls : List (List Char)} (hfuel : ls.length ≤ fuel)
    (hline : ∀ l ∈ ls, '\n' ∉ l ∧ '\x00' ∉ l ∧ l.length + 1 < size) (eof : Bool) :
    lines size fuel ⟨ls.flatMap (· ++ ['\n']), eof⟩ = ls.map (· ++ ['\n']) := by
  induction ls generalizing fuel eof with
  | nil => exact lines_of_rest_eq_nil rfl
  | cons l ls ih =>
    obtain ⟨fuel, rfl⟩ := Nat.exists_eq_succ_of_ne_zero (Nat.ne_of_gt (Nat.zero_lt_of_lt hfuel))
    obtain ⟨hnew, hnul, hlen⟩ := hline l List.mem_cons_self
    have hcut : CString.cut (l ++ ['\n']) = l ++ ['\n'] := by
      apply CString.cut_eq_self
      simp [hnul]
    rw [List.flatMap_cons, List.append_assoc, List.singleton_append, lines, fgets_line hnew hlen]
    dsimp only
    rw [hcut, ih (Nat.le_of_succ_le_succ hfuel) fun k hk => hline k (List.mem_cons_of_mem l hk)]
    rfl

/-- A test of the end of the file before each call changes nothing. -/
theorem readAll_eq_flatten_lines (size fuel : ℕ) (f : Stream) (heof : f.eof = true → f.rest = []) :
    readAll size fuel f = (lines size fuel f).flatten := by
  induction fuel generalizing f with
  | zero => rfl
  | succ fuel ih =>
    rw [readAll]
    split_ifs with hend
    · rw [lines_of_rest_eq_nil (heof hend), List.flatten_nil]
    · rw [lines, fgets]
      cases (scanLine (size - 1) f.rest).1.isEmpty with
      | true => rfl
      | false =>
        rw [if_neg Bool.false_ne_true]
        dsimp only
        rw [List.flatten_cons, ih _ fun h => rest_of_eof _ _ h]

/-- **A file is read as it is.** -/
theorem readAll_eq {size : ℕ} (hsize : 2 ≤ size) (fuel : ℕ) (f : Stream)
    (hfuel : f.rest.length < fuel) (heof : f.eof = true → f.rest = []) (hnul : '\x00' ∉ f.rest) :
    readAll size fuel f = f.rest := by
  rw [readAll_eq_flatten_lines size fuel f heof, flatten_lines hsize fuel f hfuel hnul]

end Stdio
