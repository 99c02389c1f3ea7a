import Mathlib.Algebra.Group.Int.Defs
import Mathlib.Algebra.Group.Nat.Defs
import Mathlib.Data.Int.Notation
import Mathlib.Data.List.Induction
import Mathlib.Data.List.Lex
import Mathlib.Data.List.TakeWhile
import Mathlib.Order.Lattice
import Mathlib.Tactic.FinCases

set_option relaxedAutoImplicit false
set_option autoImplicit false

/-!
# Texts of the C library

The functions of the C library that programs print and scan numbers and split texts with, over lists
of characters.  Pointers into the text are the text that is left.

## Main definitions

* `CString.cut` — what a C function sees of a text; `CString.foldCase` — what `strcasecmp` compares.
* `CString.printInt` — `%d`; `CString.strtol`, `CString.strtoul` — the numbers at the start of a text.
* `CString.tokens` — the tokens `strtok` gives one after another.
* `CString.Buffer` — an array that `CString.strncpy` fills, maybe without an end; `CString.strtok`.
* `CString.IsNumber`, `CString.number` — numbers that are written with digits only.

## Main results

* `CString.strtol_printInt`, `CString.strtoul_printInt` — a number that is printed is read back;
  `CString.strtoul_printInt_of_natAbs` — with wrap-around.
* `CString.tokens_intercalate` — tokens that are joined are split again.
* `CString.twoTokens_eq` — what two calls of `strtok` find in an array, and when they are defined.
* `CString.scanLong_lt` — the number at the start of a short text without a minus is small.
-/

namespace CString

/-- The part of a text a C function sees. -/
def cut (s : List Char) : List Char := s.takeWhile (· ≠ '\x00')

/-- What `strcasecmp` compares, in its order. -/
def foldCase (s : List Char) : List ℕ := (cut s).map fun c => c.toLower.toNat

/-- `isspace`. -/
def isSpace (c : Char) : Bool := c ∈ [' ', '\t', '\n', '\x0b', '\x0c', '\r']

/-- `%d` and its relatives. -/
def printInt (z : ℤ) : List Char :=
  if z < 0 then '-' :: Nat.toDigits 10 z.natAbs else Nat.toDigits 10 z.natAbs

/-- The number at the start of a text: is there a minus, its digits, and what is left behind it;
`none` if there is no number. -/
def scanInt (s : List Char) : Option (Bool × List Char × List Char) :=
  let t := s.dropWhile isSpace
  let u := if t.head? = some '-' ∨ t.head? = some '+' then t.tail else t
  if u.takeWhile Char.isDigit = [] then none
  else some (t.head? = some '-', u.takeWhile Char.isDigit, u.dropWhile Char.isDigit)

/-- A number in the range of `long`. -/
def clampLong (z : ℤ) : ℤ := max (-2 ^ 63) (min (2 ^ 63 - 1) z)

/-- The number at the start of a text, of any size, and the text at `endptr`. -/
def scanLong (s : List Char) : ℤ × List Char :=
  match scanInt (cut s) with
  | none => (0, cut s)
  | some (neg, digits, rest) =>
    let n : ℤ := Nat.ofDigitChars 10 digits 0
    (if neg then -n else n, rest)

/-- `strtol` with base 10: the number, and the text at `endptr`. -/
def strtol (s : List Char) : ℤ × List Char := (clampLong (scanLong s).1, (scanLong s).2)

/-- `strtoul` with base 10. -/
def strtoul (s : List Char) : BitVec 64 × List Char :=
  match scanInt (cut s) with
  | none => (0, cut s)
  | some (neg, digits, rest) =>
    let n := Nat.ofDigitChars 10 digits 0
    (if 2 ^ 64 ≤ n then BitVec.allOnes 64 else if neg then -(BitVec.ofNat 64 n)
      else BitVec.ofNat 64 n, rest)

/-- The tokens `strtok` gives, one after another, for one delimiter. -/
def tokens (d : Char) (s : List Char) : List (List Char) := (s.splitOn d).filter (· ≠ [])

/-! ## Numbers -/

/-- The characters of a printed number. -/
theorem mem_printInt {z : ℤ} {c : Char} (h : c ∈ printInt z) : c = '-' ∨ c.isDigit = true := by
  have hdigit : c ∈ Nat.toDigits 10 z.natAbs → c.isDigit = true :=
    Nat.isDigit_of_mem_toDigits (by decide) (by decide)
  unfold printInt at h
  split_ifs at h
  · exact (List.mem_cons.mp h).imp_right hdigit
  · exact .inr (hdigit h)

/-- A character that is neither a minus nor a digit is in no printed number. -/
theorem notMem_printInt {c : Char} (hminus : c ≠ '-') (hdigit : c.isDigit = false) (z : ℤ) :
    c ∉ printInt z := by
  intro h
  rcases mem_printInt h with h | h
  · exact hminus h
  · rw [hdigit] at h
    cases h

/-- A text without a zero character is seen whole. -/
theorem cut_eq_self {s : List Char} (h : '\x00' ∉ s) : cut s = s := by
  refine List.takeWhile_eq_self_iff.mpr fun c hc => ?_
  simpa using fun heq : c = '\x00' => h (heq ▸ hc)

theorem cut_printInt (z : ℤ) : cut (printInt z) = printInt z :=
  cut_eq_self (notMem_printInt (by decide) (by decide) z)

/-- Digits are not blank. -/
theorem isSpace_of_isDigit {c : Char} (h : c.isDigit = true) : isSpace c = false := by
  by_contra hs
  rw [Bool.not_eq_false] at hs
  have hmem : c ∈ [' ', '\t', '\n', '\x0b', '\x0c', '\r'] := by simpa [isSpace] using hs
  fin_cases hmem <;> exact absurd h (by decide)

/-- The first character of a printed natural number is a digit. -/
theorem toDigits_eq_cons (n : ℕ) :
    ∃ c l, Nat.toDigits 10 n = c :: l ∧ c.isDigit = true := by
  obtain ⟨c, l, h⟩ := List.exists_cons_of_ne_nil (Nat.toDigits_ne_nil (n := n) (b := 10))
  refine ⟨c, l, h, Nat.isDigit_of_mem_toDigits (b := 10) (n := n) (by decide) (by decide) ?_⟩
  exact h ▸ List.mem_cons_self

/-- Only zero is printed with a zero in front. -/
theorem head_toDigits_eq_zero_iff (n : ℕ) :
    (Nat.toDigits 10 n).head? = some '0' ↔ n = 0 := by
  induction n using Nat.strong_induction_on with
  | _ n ih =>
    by_cases hn : n < 10
    · have hall : ∀ n < 10, [n.digitChar].head? = some '0' ↔ n = 0 := by decide
      rw [Nat.toDigits_of_lt_base hn]
      exact hall n hn
    · have hdiv := ih (n / 10) (by omega)
      rw [Nat.toDigits_of_base_le (by decide) (by omega), List.head?_append,
        Option.or_of_isSome (by simp [Nat.toDigits_ne_nil]), hdiv]
      omega

/-- A printed number in front of a text without a digit at its start is scanned. -/
theorem scanInt_printInt (z : ℤ) (rest : List Char) (hrest : rest.takeWhile Char.isDigit = []) :
    scanInt (printInt z ++ rest) = some (decide (z < 0), Nat.toDigits 10 z.natAbs, rest) := by
  obtain ⟨c, l, hcons, hc⟩ := toDigits_eq_cons z.natAbs
  have hall : ∀ d ∈ Nat.toDigits 10 z.natAbs, d.isDigit = true := fun d hd =>
    Nat.isDigit_of_mem_toDigits (by decide) (by decide) hd
  have htake : (Nat.toDigits 10 z.natAbs ++ rest).takeWhile Char.isDigit =
      Nat.toDigits 10 z.natAbs := by
    rw [List.takeWhile_append_of_pos hall, hrest, List.append_nil]
  have hdrop : (Nat.toDigits 10 z.natAbs ++ rest).dropWhile Char.isDigit = rest := by
    rw [List.dropWhile_append_of_pos hall]
    have := List.takeWhile_append_dropWhile (p := Char.isDigit) (l := rest)
    rwa [hrest, List.nil_append] at this
  have hne : Nat.toDigits 10 z.natAbs ≠ [] := Nat.toDigits_ne_nil
  unfold scanInt printInt
  split_ifs with hz
  · have hspace : isSpace '-' = false := by decide
    simp [hspace, htake, hdrop, hne, hz]
  · have hminus : c ≠ '-' := fun h => absurd hc (by rw [h]; decide)
    have hplus : c ≠ '+' := fun h => absurd hc (by rw [h]; decide)
    have hstart : (Nat.toDigits 10 z.natAbs ++ rest).dropWhile isSpace =
        Nat.toDigits 10 z.natAbs ++ rest := by
      rw [hcons, List.cons_append, List.dropWhile_cons_of_neg (by simp [isSpace_of_isDigit hc])]
    have hhead : (Nat.toDigits 10 z.natAbs ++ rest).head? = some c := by simp [hcons]
    simp [hstart, hhead, hminus, hplus, htake, hdrop, hne, hz]

/-- A printed number is scanned whole. -/
theorem scanLong_printInt (z : ℤ) : scanLong (printInt z) = (z, []) := by
  have hscan := scanInt_printInt z [] rfl
  rw [List.append_nil] at hscan
  have hz : (if z < 0 then -(z.natAbs : ℤ) else z.natAbs) = z := by
    split_ifs <;> omega
  simp only [scanLong, cut_printInt, hscan, Nat.ofDigitChars_ten_toDigits, decide_eq_true_eq, hz]

/-- **Reading back an integer** in the range of `long`. -/
theorem strtol_printInt {z : ℤ} (hlow : -2 ^ 63 ≤ z) (hhigh : z < 2 ^ 63) :
    strtol (printInt z) = (z, []) := by
  have hclamp : clampLong z = z := by
    unfold clampLong
    omega
  rw [strtol, scanLong_printInt, hclamp]

/-- **Reading back an integer** that is not too large for `unsigned long`: a negative one wraps
around. -/
theorem strtoul_printInt_of_natAbs {z : ℤ} (h : z.natAbs < 2 ^ 64) :
    strtoul (printInt z) = (BitVec.ofInt 64 z, []) := by
  have hscan := scanInt_printInt z [] rfl
  rw [List.append_nil] at hscan
  have hz : (if z < 0 then -BitVec.ofNat 64 z.natAbs else BitVec.ofNat 64 z.natAbs) =
      BitVec.ofInt 64 z := by
    split_ifs with hneg
    · have habs : z = -(z.natAbs : ℤ) := by omega
      conv_rhs => rw [habs, BitVec.ofInt_neg, BitVec.ofInt_natCast]
    · have habs : z = (z.natAbs : ℤ) := by omega
      conv_rhs => rw [habs, BitVec.ofInt_natCast]
  simp only [strtoul, cut_printInt, hscan, Nat.ofDigitChars_ten_toDigits,
    if_neg (Nat.not_le.mpr h), decide_eq_true_eq, hz]

/-- **Reading back a natural number** in the range of `unsigned long`. -/
theorem strtoul_printInt {n : ℕ} (h : n < 2 ^ 64) :
    strtoul (printInt n) = (BitVec.ofNat 64 n, []) := by
  rw [strtoul_printInt_of_natAbs (by simpa using h), BitVec.ofInt_natCast]

/-- The value of digits is below the power of ten with as many zeros. -/
theorem ofDigitChars_lt {l : List Char} (h : ∀ c ∈ l, c.isDigit = true) :
    Nat.ofDigitChars 10 l 0 < 10 ^ l.length := by
  induction l using List.reverseRecOn with
  | nil => simp
  | append_singleton l c ih =>
    have hc : c.isDigit = true := h c (by simp)
    have hval : c.toNat - '0'.toNat < 10 := by
      have : 48 ≤ c.toNat ∧ c.toNat ≤ 57 := by
        simpa [Char.isDigit, UInt32.le_iff_toNat_le] using hc
      have hzero : '0'.toNat = 48 := rfl
      omega
    have := ih fun d hd => h d (by simp [hd])
    rw [Nat.ofDigitChars_append, Nat.ofDigitChars_cons, Nat.ofDigitChars_nil, List.length_append,
      List.length_singleton, Nat.pow_succ]
    omega

/-- What is scanned comes from the text. -/
theorem scanInt_eq_some {s digits rest : List Char} {neg : Bool}
    (h : scanInt s = some (neg, digits, rest)) :
    (neg = true → '-' ∈ s) ∧ digits.length ≤ s.length ∧ ∀ c ∈ digits, c.isDigit = true := by
  simp only [scanInt] at h
  generalize ht : s.dropWhile isSpace = t at h
  generalize hu : (if t.head? = some '-' ∨ t.head? = some '+' then t.tail else t) = u at h
  have hts : t <:+ s := ht ▸ List.dropWhile_suffix _
  have hut : u <:+ t := by
    rw [← hu]
    split_ifs
    · exact List.tail_suffix t
    · exact List.suffix_refl t
  by_cases hnone : u.takeWhile Char.isDigit = []
  · rw [if_pos hnone] at h
    cases h
  · rw [if_neg hnone] at h
    obtain ⟨rfl, rfl, -⟩ : decide (t.head? = some '-') = neg ∧ u.takeWhile Char.isDigit = digits ∧
        u.dropWhile Char.isDigit = rest := by simpa only [Option.some.injEq, Prod.mk.injEq] using h
    refine ⟨fun hneg => hts.mem (List.mem_of_head? (by simpa using hneg)), ?_,
      fun c hc => List.mem_takeWhile_imp hc⟩
    calc (u.takeWhile Char.isDigit).length ≤ u.length := (List.takeWhile_prefix _).length_le
      _ ≤ t.length := hut.length_le
      _ ≤ s.length := hts.length_le

/-- **The number at the start of a short text without a minus** has no more digits than the text
has characters. -/
theorem scanLong_lt {s : List Char} {k : ℕ} (hminus : '-' ∉ s) (hlen : s.length ≤ k) :
    0 ≤ (scanLong s).1 ∧ (scanLong s).1 < 10 ^ k := by
  have hcut : cut s <+: s := List.takeWhile_prefix _
  unfold scanLong
  cases hscan : scanInt (cut s) with
  | none => exact ⟨le_rfl, Int.pow_pos (by decide)⟩
  | some p =>
    obtain ⟨neg, digits, rest⟩ := p
    obtain ⟨hneg, hdlen, hdigits⟩ := scanInt_eq_some hscan
    obtain rfl : neg = false := by
      rw [← Bool.not_eq_true]
      exact fun h => hminus (hcut.mem (hneg h))
    have hn : Nat.ofDigitChars 10 digits 0 < 10 ^ k :=
      calc Nat.ofDigitChars 10 digits 0 < 10 ^ digits.length := ofDigitChars_lt hdigits
        _ ≤ 10 ^ k := Nat.pow_le_pow_right (by decide)
            (hdlen.trans (hcut.length_le.trans hlen))
    have hcast : ((Nat.ofDigitChars 10 digits 0 : ℕ) : ℤ) < 10 ^ k := by exact_mod_cast hn
    simp only [Bool.false_eq_true, if_false]
    omega

/-! ## Tokens -/

/-- Tokens are not empty, do not contain the delimiter and come from the text. -/
theorem mem_tokens {d : Char} {s t : List Char} (h : t ∈ tokens d s) :
    t ≠ [] ∧ d ∉ t ∧ ∀ c ∈ t, c ∈ s := by
  obtain ⟨hmem, hne⟩ := List.mem_filter.mp h
  refine ⟨by simpa using hne, ?_⟩
  clear h hne
  induction s generalizing t with
  | nil =>
    obtain rfl : t = [] := by simpa using hmem
    simp
  | cons a s ih =>
    rw [List.splitOn_cons_eq_if_modifyHead] at hmem
    split_ifs at hmem with ha
    · rcases List.mem_cons.mp hmem with rfl | hmem
      · simp
      · obtain ⟨hd, hs⟩ := ih hmem
        exact ⟨hd, fun c hc => List.mem_cons_of_mem _ (hs c hc)⟩
    · obtain ⟨l, ls, hl⟩ := List.exists_cons_of_ne_nil (List.splitOn_ne_nil d s)
      rw [hl, List.modifyHead_cons] at hmem
      rcases List.mem_cons.mp hmem with rfl | hmem
      · obtain ⟨hd, hs⟩ := ih (hl ▸ List.mem_cons_self)
        refine ⟨fun h => ?_, fun c hc => ?_⟩
        · rcases List.mem_cons.mp h with h | h
          · exact ha (by simp [h])
          · exact hd h
        · rcases List.mem_cons.mp hc with rfl | hc
          · exact List.mem_cons_self
          · exact List.mem_cons_of_mem _ (hs c hc)
      · obtain ⟨hd, hs⟩ := ih (hl ▸ List.mem_cons_of_mem _ hmem)
        exact ⟨hd, fun c hc => List.mem_cons_of_mem _ (hs c hc)⟩

/-- Where the characters of joined texts come from. -/
theorem mem_intercalate {c d : Char} {ts : List (List Char)} (h : c ∈ [d].intercalate ts) :
    c = d ∨ ∃ t ∈ ts, c ∈ t := by
  induction ts with
  | nil => cases h
  | cons t ts ih =>
    cases ts with
    | nil =>
      rw [List.intercalate_singleton] at h
      exact .inr ⟨t, List.mem_cons_self, h⟩
    | cons t' ts =>
      rw [List.intercalate_cons_cons, List.mem_append, List.mem_append] at h
      rcases h with (h | h) | h
      · exact .inr ⟨t, List.mem_cons_self, h⟩
      · exact .inl (List.mem_singleton.mp h)
      · rcases ih h with h | ⟨t'', ht'', h⟩
        · exact .inl h
        · exact .inr ⟨t'', List.mem_cons_of_mem _ ht'', h⟩

/-- **Joined tokens are split again.** -/
theorem tokens_intercalate {d : Char} {ts : List (List Char)} (h : ∀ t ∈ ts, t ≠ [] ∧ d ∉ t) :
    tokens d ([d].intercalate ts) = ts := by
  cases ts with
  | nil => rfl
  | cons t ts =>
    rw [tokens, List.splitOn_intercalate d (fun l hl => (h l hl).2) (List.cons_ne_nil _ _)]
    exact List.filter_eq_self.mpr fun l hl => by simpa using (h l hl).1

@[simp] theorem tokens_nil (d : Char) : tokens d [] = [] := rfl

/-- A delimiter separates the tokens in front of it from those behind it. -/
theorem tokens_append_cons (d : Char) (s t : List Char) :
    tokens d (s ++ d :: t) = tokens d s ++ tokens d t := by
  rw [tokens, List.splitOn_append_cons_self, List.filter_append]
  rfl

/-- Delimiters in front of a text do not matter. -/
theorem tokens_dropWhile (d : Char) (s : List Char) : tokens d (s.dropWhile (· = d)) = tokens d s := by
  induction s with
  | nil => rfl
  | cons c s ih =>
    by_cases hc : c = d
    · subst hc
      rw [List.dropWhile_cons_of_pos (by simp), ih]
      exact (tokens_append_cons c [] s).symm
    · rw [List.dropWhile_cons_of_neg (by simpa using hc)]

/-- A text without the delimiter is its only token. -/
theorem tokens_eq_singleton {d : Char} {t : List Char} (hne : t ≠ []) (hd : d ∉ t) :
    tokens d t = [t] := by
  have hall : ∀ t' ∈ [t], t' ≠ [] ∧ d ∉ t' := by simp [hne, hd]
  simpa using tokens_intercalate hall

/-- The token in front of a delimiter. -/
theorem tokens_cons_of_notMem {d : Char} {t : List Char} (hne : t ≠ []) (hd : d ∉ t) (s : List Char) :
    tokens d (t ++ d :: s) = t :: tokens d s := by
  rw [tokens_append_cons, tokens_eq_singleton hne hd, List.singleton_append]

/-- A text without tokens has nothing but delimiters. -/
theorem eq_of_tokens_eq_nil {d c : Char} {s : List Char} (h : tokens d s = []) (hc : c ∈ s) : c = d := by
  rw [← tokens_dropWhile] at h
  by_contra hcd
  cases hleft : s.dropWhile (· = d) with
  | nil => exact hcd (by simpa using List.dropWhile_eq_nil_iff.mp hleft c hc)
  | cons e t =>
    have he : e ≠ d := by
      have := List.head?_dropWhile_not (fun c => decide (c = d)) s
      rw [hleft] at this
      simpa using this
    rw [hleft, tokens, List.splitOn_cons_eq_if_modifyHead, if_neg (by simpa using he)] at h
    obtain ⟨l, ls, hl⟩ := List.exists_cons_of_ne_nil (List.splitOn_ne_nil d t)
    rw [hl, List.modifyHead_cons, List.filter_cons_of_pos (by simp)] at h
    cases h

/-! ## Arrays of characters -/

/-- An array of characters: what is known to be in it, and whether the end of the text is.  Reading
behind a text without an end is undefined behaviour. -/
structure Buffer where
  /-- The characters in front of the end, or all that were written. -/
  text : List Char
  /-- Is the zero character at the end? -/
  ended : Bool
  deriving DecidableEq

/-- `strncpy` of `n` characters of `s` into a longer array: it writes an end only if there is room. -/
def strncpy (n : ℕ) (s : List Char) : Buffer := ⟨s.take n, s.length < n⟩

/-- `strtok` for one delimiter in what is left of an array: the next token and what is left then, or
no token.  `none` if it has to read behind a text without an end. -/
def strtok (d : Char) (b : Buffer) : Option (Option (List Char × Buffer)) :=
  match b.text.dropWhile (· = d) with
  | [] => if b.ended then some none else none
  | c :: s =>
    match (c :: s).dropWhile (· ≠ d) with
    | [] => if b.ended then some (some (c :: s, ⟨[], true⟩)) else none
    | _ :: rest => some (some ((c :: s).takeWhile (· ≠ d), ⟨rest, b.ended⟩))

/-- The first two tokens, if there are two. -/
def twoTokens (d : Char) (b : Buffer) : Option (Option (List Char × List Char)) :=
  match strtok d b with
  | none => none
  | some none => some none
  | some (some (t, rest)) => (strtok d rest).map (Option.map fun u => (t, u.1))

/-- What a text begins with: delimiters only, a token at its end, or a token in front of a
delimiter. -/
theorem strtok_cases (d : Char) (b : Buffer) :
    (strtok d b = (if b.ended then some none else none) ∧ tokens d b.text = []) ∨
      (∃ t, strtok d b = (if b.ended then some (some (t, ⟨[], true⟩)) else none) ∧
        tokens d b.text = [t] ∧ b.text.getLast? ≠ some d) ∨
      ∃ s t rest, strtok d b = some (some (t, ⟨rest, b.ended⟩)) ∧
        tokens d b.text = t :: tokens d rest ∧ b.text = s ++ d :: rest := by
  have hsplit := List.takeWhile_append_dropWhile (p := (· = d)) (l := b.text)
  unfold strtok
  rw [← tokens_dropWhile d b.text]
  cases hleft : b.text.dropWhile (· = d) with
  | nil => exact .inl ⟨rfl, rfl⟩
  | cons c s =>
    have hc : c ≠ d := by
      have := List.head?_dropWhile_not (fun c => decide (c = d)) b.text
      rw [hleft] at this
      simpa using this
    right
    dsimp only
    have hparts := List.takeWhile_append_dropWhile (p := (· ≠ d)) (l := c :: s)
    have hnot : d ∉ (c :: s).takeWhile (· ≠ d) := fun h => by
      simpa using List.mem_takeWhile_imp h
    have hne : (c :: s).takeWhile (· ≠ d) ≠ [] := by simp [hc]
    cases hrest : (c :: s).dropWhile (· ≠ d) with
    | nil =>
      rw [hrest, List.append_nil] at hparts
      rw [hparts] at hnot
      refine .inl ⟨c :: s, rfl, tokens_eq_singleton (List.cons_ne_nil _ _) hnot, fun hlast => ?_⟩
      rw [← hsplit, hleft, List.getLast?_append_of_ne_nil _ (List.cons_ne_nil _ _)] at hlast
      exact hnot (List.mem_of_getLast? hlast)
    | cons e rest =>
      obtain rfl : e = d := by
        have := List.head?_dropWhile_not (fun c => decide (c ≠ d)) (c :: s)
        rw [hrest] at this
        simpa using this
      rw [hrest] at hparts
      refine .inr ⟨b.text.takeWhile (· = e) ++ (c :: s).takeWhile (· ≠ e), _, rest, rfl, ?_, ?_⟩
      · conv_lhs => rw [← hparts]
        exact tokens_cons_of_notMem hne hnot rest
      · rw [List.append_assoc, hparts, ← hleft, hsplit]

/-- **The first two tokens** of a text with an end, and of one without: there must be a delimiter
behind the second. -/
theorem twoTokens_eq (d : Char) (b : Buffer) :
    twoTokens d b =
      match tokens d b.text with
      | t :: u :: ts =>
        if b.ended ∨ ts ≠ [] ∨ b.text.getLast? = some d then some (some (t, u)) else none
      | _ => if b.ended then some none else none := by
  unfold twoTokens
  obtain ⟨htok, hts⟩ | ⟨t, htok, hts, -⟩ | ⟨s, t, rest, htok, hts, htext⟩ := strtok_cases d b
  · rw [htok, hts]
    split_ifs <;> rfl
  · rw [htok, hts]
    split_ifs <;> rfl
  · rw [htok, hts]
    dsimp only
    obtain ⟨htok', hts'⟩ | ⟨u, htok', hts', hlast⟩ | ⟨s', u, rest', htok', hts', htext'⟩ :=
      strtok_cases d ⟨rest, b.ended⟩
    · rw [htok', hts']
      split_ifs <;> rfl
    · have hend : b.text.getLast? ≠ some d := by
        have hne : rest ≠ [] := by
          rintro rfl
          cases hts'
        rw [htext, List.getLast?_append_of_ne_nil _ (List.cons_ne_nil _ _),
          List.getLast?_cons_of_ne_nil hne]
        exact hlast
      rw [htok', hts']
      simp only [ne_eq, not_true_eq_false, hend, or_self, or_false]
      split_ifs <;> rfl
    · have hbehind : tokens d rest' ≠ [] ∨ b.text.getLast? = some d := by
        by_cases hnil : tokens d rest' = []
        · have hall : ∀ c ∈ d :: rest', c = d :=
            List.forall_mem_cons.mpr ⟨rfl, fun c hc => eq_of_tokens_eq_nil hnil hc⟩
          obtain ⟨e, he⟩ := Option.ne_none_iff_exists'.mp
            (fun h => List.cons_ne_nil d rest' (List.getLast?_eq_none_iff.mp h))
          have hwhole : b.text = (s ++ d :: s') ++ d :: rest' := by
            rw [htext, show rest = s' ++ d :: rest' from htext', List.append_assoc, List.cons_append]
          rw [hwhole, List.getLast?_append_of_ne_nil _ (List.cons_ne_nil _ _), he,
            hall e (List.mem_of_getLast? he)]
          exact .inr rfl
        · exact .inl hnil
      rw [htok', hts']
      dsimp only
      rw [if_pos (.inr hbehind)]
      rfl

/-! ## Digits -/

/-- A number that is written with digits only. -/
def IsNumber (s : List Char) : Prop := s ≠ [] ∧ ∀ c ∈ s, c.isDigit = true

instance (s : List Char) : Decidable (IsNumber s) :=
  have := List.decidableBAll (fun c : Char => c.isDigit = true) s
  instDecidableAnd

/-- Its value. -/
def number (s : List Char) : ℕ := Nat.ofDigitChars 10 s 0

/-- The scan of some digits. -/
theorem scanInt_digits {sign digits : List Char} (hne : digits ≠ [])
    (hall : ∀ c ∈ digits, c.isDigit = true) (hsign : sign = [] ∨ sign = ['-'] ∨ sign = ['+']) :
    scanInt (sign ++ digits) = some (decide (sign = ['-']), digits, []) := by
  have htake : digits.takeWhile Char.isDigit = digits := List.takeWhile_eq_self_iff.2 hall
  have hdrop : digits.dropWhile Char.isDigit = [] := List.dropWhile_eq_nil_iff.2 hall
  have hminus : isSpace '-' = false := by decide
  have hplus : isSpace '+' = false := by decide
  unfold scanInt
  rcases hsign with rfl | rfl | rfl
  · obtain ⟨c, l, rfl⟩ := List.exists_cons_of_ne_nil hne
    have hc := hall c List.mem_cons_self
    have hcminus : c ≠ '-' := fun h => absurd hc (by rw [h]; decide)
    have hcplus : c ≠ '+' := fun h => absurd hc (by rw [h]; decide)
    have hstart : (c :: l).dropWhile isSpace = c :: l :=
      List.dropWhile_cons_of_neg (by simp [isSpace_of_isDigit hc])
    simp [hstart, hcminus, hcplus, htake, hdrop]
  · simp [hminus, htake, hdrop, hne]
  · simp [hplus, htake, hdrop, hne]

/-- What is seen of a text of digits with a sign. -/
theorem cut_digits {sign digits : List Char} (hall : ∀ c ∈ digits, c.isDigit = true)
    (hsign : sign = [] ∨ sign = ['-'] ∨ sign = ['+']) : cut (sign ++ digits) = sign ++ digits := by
  refine cut_eq_self fun hmem => ?_
  rcases List.mem_append.1 hmem with hmem | hmem
  · rcases hsign with rfl | rfl | rfl
    · cases hmem
    · exact absurd hmem (by decide)
    · exact absurd hmem (by decide)
  · exact absurd (hall _ hmem) (by decide)

/-- **A number is read whole**, whatever its size. -/
theorem strtol_of_isNumber {s : List Char} (h : IsNumber s) :
    strtol s = (clampLong (number s), []) := by
  have hscan : scanInt ([] ++ s) = _ := scanInt_digits h.1 h.2 (.inl rfl)
  have hcut : cut ([] ++ s) = _ := cut_digits h.2 (.inl rfl)
  rw [List.nil_append] at hscan hcut
  simp [strtol, scanLong, hcut, hscan, number]

end CString
