import Stargazer.Lib.CString

set_option relaxedAutoImplicit false
set_option autoImplicit false

/-!
# Decimal numerals in texts

What it means that a number is written in a text, or at its start, without a word about how it is read;
and what the functions of the C library read there.

## Main definitions

* `CString.Whole` — the number a text consists of; `CString.IsNumeral` — there is one.
* `CString.StartsWith` — the number at the start of a text, with as many digits as there are.

## Main results

* `CString.scanInt_append` — a number is found by its parts.
* `CString.isNumeral_iff` — a text is a number if there are digits behind its sign.
* `CString.StartsWith.scanLong`, `CString.startsWith_scanLong` — `CString.scanLong` gives the number
  at the start of a text.
* `CString.toDigits_number` — a number without zeros in front is written as it is printed.
-/

namespace CString

/-- A sign, or none. -/
def IsSign (s : List Char) : Prop := s = [] ∨ s = ['-'] ∨ s = ['+']

instance (s : List Char) : Decidable (IsSign s) := inferInstanceAs (Decidable (_ ∨ _))

/-- The value of some digits behind a sign. -/
def signed (sign digits : List Char) : ℤ := if sign = ['-'] then -(number digits : ℤ) else number digits

/-- A text is a number: a sign or none, and digits. -/
def Whole (s : List Char) (z : ℤ) : Prop :=
  ∃ sign digits, s = sign ++ digits ∧ IsSign sign ∧ IsNumber digits ∧ z = signed sign digits

/-- There is a number at the start of a text, behind blanks: all the digits that are there belong
to it. -/
def StartsWith (s : List Char) (z : ℤ) : Prop :=
  ∃ blanks sign digits rest, s = blanks ++ (sign ++ (digits ++ rest)) ∧
    (∀ c ∈ blanks, isSpace c = true) ∧ IsSign sign ∧ IsNumber digits ∧
      (∀ c ∈ rest.head?, c.isDigit = false) ∧ z = signed sign digits

theorem Whole.startsWith {s : List Char} {z : ℤ} (h : Whole s z) : StartsWith s z := by
  obtain ⟨sign, digits, rfl, hsign, hdigits, rfl⟩ := h
  refine ⟨[], sign, digits, [], ?_, ?_, hsign, hdigits, ?_, rfl⟩
  · rw [List.append_nil, List.nil_append]
  · intro c hc
    cases hc
  · intro c hc
    cases hc

/-! ## Scanning -/

/-- Digits, and what is behind them. -/
theorem span_digits {digits rest : List Char} (hdigits : ∀ c ∈ digits, c.isDigit = true)
    (hrest : ∀ c ∈ rest.head?, c.isDigit = false) :
    (digits ++ rest).takeWhile Char.isDigit = digits ∧
      (digits ++ rest).dropWhile Char.isDigit = rest := by
  rw [List.takeWhile_append_of_pos hdigits, List.dropWhile_append_of_pos hdigits]
  cases rest with
  | nil => exact ⟨List.append_nil _, rfl⟩
  | cons c rest =>
    have hc : ¬ c.isDigit = true := by
      rw [hrest c rfl]
      exact Bool.false_ne_true
    rw [List.takeWhile_cons_of_neg hc, List.dropWhile_cons_of_neg hc]
    exact ⟨List.append_nil _, rfl⟩

/-- Neither a sign nor a digit is a blank. -/
theorem dropWhile_isSpace {sign digits : List Char} (hsign : IsSign sign) (hdigits : IsNumber digits)
    (rest : List Char) :
    (sign ++ (digits ++ rest)).dropWhile isSpace = sign ++ (digits ++ rest) := by
  obtain ⟨c, l, rfl⟩ := List.exists_cons_of_ne_nil hdigits.1
  have hc : isSpace c = false := isSpace_of_isDigit (hdigits.2 c List.mem_cons_self)
  rcases hsign with rfl | rfl | rfl
  · apply List.dropWhile_cons_of_neg
    rw [hc]
    exact Bool.false_ne_true
  · exact List.dropWhile_cons_of_neg (by decide)
  · exact List.dropWhile_cons_of_neg (by decide)

/-- **A number is found by its parts.** -/
theorem scanInt_append {blanks sign digits rest : List Char} (hblanks : ∀ c ∈ blanks, isSpace c = true)
    (hsign : IsSign sign) (hdigits : IsNumber digits) (hrest : ∀ c ∈ rest.head?, c.isDigit = false) :
    scanInt (blanks ++ (sign ++ (digits ++ rest))) = some (decide (sign = ['-']), digits, rest) := by
  obtain ⟨htake, hdrop⟩ := span_digits hdigits.2 hrest
  have hstart : (blanks ++ (sign ++ (digits ++ rest))).dropWhile isSpace = sign ++ (digits ++ rest) := by
    rw [List.dropWhile_append_of_pos hblanks, dropWhile_isSpace hsign hdigits]
  unfold scanInt
  rw [hstart]
  rcases hsign with rfl | rfl | rfl
  · obtain ⟨c, l, hcons⟩ := List.exists_cons_of_ne_nil hdigits.1
    have hc : c.isDigit = true := hdigits.2 c (hcons ▸ List.mem_cons_self)
    have hminus : c ≠ '-' := fun h => absurd hc (by rw [h]; decide)
    have hplus : c ≠ '+' := fun h => absurd hc (by rw [h]; decide)
    have hhead : (digits ++ rest).head? = some c := by rw [hcons]; rfl
    simp [hhead, hminus, hplus, htake, hdrop, hdigits.1]
  · simp [htake, hdrop, hdigits.1]
  · simp [htake, hdrop, hdigits.1]

/-- What is scanned has parts. -/
theorem exists_parts {s digits rest : List Char} {neg : Bool}
    (h : scanInt s = some (neg, digits, rest)) :
    ∃ blanks sign, s = blanks ++ (sign ++ (digits ++ rest)) ∧ (∀ c ∈ blanks, isSpace c = true) ∧
      IsSign sign ∧ IsNumber digits ∧ (∀ c ∈ rest.head?, c.isDigit = false) ∧
        neg = decide (sign = ['-']) := by
  simp only [scanInt] at h
  have hs := List.takeWhile_append_dropWhile (p := isSpace) (l := s)
  generalize s.dropWhile isSpace = t at h hs
  obtain ⟨sign, u, ht, hsign, hu, hneg⟩ : ∃ sign u, t = sign ++ u ∧ IsSign sign ∧
      (if t.head? = some '-' ∨ t.head? = some '+' then t.tail else t) = u ∧
        decide (t.head? = some '-') = decide (sign = ['-']) := by
    by_cases hminus : t.head? = some '-'
    · obtain ⟨l, rfl⟩ := List.head?_eq_some_iff.mp hminus
      exact ⟨['-'], l, rfl, .inr (.inl rfl), rfl, rfl⟩
    · by_cases hplus : t.head? = some '+'
      · obtain ⟨l, rfl⟩ := List.head?_eq_some_iff.mp hplus
        exact ⟨['+'], l, rfl, .inr (.inr rfl), rfl, rfl⟩
      · refine ⟨[], t, rfl, .inl rfl, if_neg (not_or.mpr ⟨hminus, hplus⟩), ?_⟩
        rw [decide_eq_false hminus]
        rfl
  rw [hu, hneg] at h
  split_ifs at h with hnone
  obtain ⟨rfl, rfl, rfl⟩ : decide (sign = ['-']) = neg ∧ u.takeWhile Char.isDigit = digits ∧
      u.dropWhile Char.isDigit = rest := by simpa only [Option.some.injEq, Prod.mk.injEq] using h
  refine ⟨s.takeWhile isSpace, sign, ?_, fun c hc => List.mem_takeWhile_imp hc, hsign,
    ⟨hnone, fun c hc => List.mem_takeWhile_imp hc⟩, fun c hc => ?_, rfl⟩
  · rw [List.takeWhile_append_dropWhile, ← ht, hs]
  · have := List.head?_dropWhile_not Char.isDigit u
    rw [Option.mem_def.mp hc] at this
    simpa using this

/-- What is seen of a number is the number. -/
theorem cut_append {blanks sign digits rest : List Char} (hblanks : ∀ c ∈ blanks, isSpace c = true)
    (hsign : IsSign sign) (hdigits : IsNumber digits) :
    cut (blanks ++ (sign ++ (digits ++ rest))) = blanks ++ (sign ++ (digits ++ cut rest)) := by
  have hpart : ∀ {l : List Char}, '\x00' ∉ l → ∀ r, cut (l ++ r) = l ++ cut r := by
    intro l hl r
    apply List.takeWhile_append_of_pos
    intro c hc
    simpa using fun heq : c = '\x00' => hl (heq ▸ hc)
  rw [hpart, hpart, hpart]
  · intro hmem
    exact absurd (hdigits.2 _ hmem) (by decide)
  · rcases hsign with rfl | rfl | rfl <;> decide
  · intro hmem
    exact absurd (hblanks _ hmem) (by decide)

/-- **The number at the start of a text** is the one that is scanned. -/
theorem StartsWith.scanLong {s : List Char} {z : ℤ} (h : StartsWith s z) :
    (scanInt (cut s)).isSome = true ∧ (scanLong s).1 = z := by
  obtain ⟨blanks, sign, digits, rest, rfl, hblanks, hsign, hdigits, hrest, rfl⟩ := h
  have hcut : ∀ c ∈ (cut rest).head?, c.isDigit = false := by
    intro c hc
    cases rest with
    | nil => cases hc
    | cons d rest =>
      unfold cut at hc
      rw [List.takeWhile_cons] at hc
      split_ifs at hc
      · exact hrest c hc
      · cases hc
  have hscan := scanInt_append hblanks hsign hdigits hcut
  unfold CString.scanLong
  rw [cut_append hblanks hsign hdigits, hscan]
  refine ⟨rfl, ?_⟩
  dsimp only
  unfold signed number
  by_cases hminus : sign = ['-']
  · rw [if_pos hminus, if_pos (decide_eq_true hminus)]
  · rw [if_neg hminus, if_neg (by rw [decide_eq_false hminus]; exact Bool.false_ne_true)]

/-- There is a number at the start of a text, or nothing is scanned. -/
theorem startsWith_scanLong {s : List Char} (h : (scanInt (cut s)).isSome = true) :
    StartsWith s (scanLong s).1 := by
  obtain ⟨⟨neg, digits, rest⟩, hscan⟩ := Option.isSome_iff_exists.mp h
  obtain ⟨blanks, sign, hcut, hblanks, hsign, hdigits, hrest, rfl⟩ := exists_parts hscan
  have hvalue : (scanLong s).1 = signed sign digits := by
    unfold CString.scanLong signed number
    rw [hscan]
    dsimp only
    by_cases hminus : sign = ['-']
    · rw [if_pos hminus, if_pos (decide_eq_true hminus)]
    · rw [if_neg hminus, if_neg (by rw [decide_eq_false hminus]; exact Bool.false_ne_true)]
  refine ⟨blanks, sign, digits, rest ++ s.dropWhile (· ≠ '\x00'), ?_, hblanks, hsign, hdigits, ?_,
    hvalue⟩
  · rw [← List.append_assoc digits, ← List.append_assoc sign, ← List.append_assoc blanks, ← hcut]
    exact (List.takeWhile_append_dropWhile).symm
  · intro c hc
    cases rest with
    | cons d rest => exact hrest c hc
    | nil =>
      have hzero := List.head?_dropWhile_not (fun c : Char => decide (c ≠ '\x00')) s
      rw [List.nil_append] at hc
      rw [Option.mem_def.mp hc] at hzero
      obtain rfl : c = '\x00' := by simpa using hzero
      rfl

/-- A text is one number. -/
theorem Whole.eq {s : List Char} {z z' : ℤ} (h : Whole s z) (h' : Whole s z') : z = z' :=
  h.startsWith.scanLong.2.symm.trans h'.startsWith.scanLong.2

/-- A text is a number. -/
def IsNumeral (s : List Char) : Prop := ∃ z, Whole s z

/-- What is behind the sign of a text. -/
def afterSign (s : List Char) : List Char :=
  if s.head? = some '+' ∨ s.head? = some '-' then s.tail else s

/-- A sign can always be split off. -/
theorem exists_sign (s : List Char) : ∃ sign, s = sign ++ afterSign s ∧ IsSign sign := by
  by_cases hplus : s.head? = some '+'
  · obtain ⟨l, rfl⟩ := List.head?_eq_some_iff.mp hplus
    exact ⟨['+'], rfl, .inr (.inr rfl)⟩
  · by_cases hminus : s.head? = some '-'
    · obtain ⟨l, rfl⟩ := List.head?_eq_some_iff.mp hminus
      exact ⟨['-'], rfl, .inr (.inl rfl)⟩
    · exact ⟨[], (if_neg (not_or.mpr ⟨hplus, hminus⟩)).symm, .inl rfl⟩

/-- **A text is a number** if there are digits, and nothing else, behind its sign. -/
theorem isNumeral_iff {s : List Char} : IsNumeral s ↔ IsNumber (afterSign s) := by
  constructor
  · rintro ⟨z, sign, digits, rfl, hsign, hdigits, rfl⟩
    rcases hsign with rfl | rfl | rfl
    · obtain ⟨c, l, rfl⟩ := List.exists_cons_of_ne_nil hdigits.1
      have hc := hdigits.2 c List.mem_cons_self
      have hne : ¬ (some c = some '+' ∨ some c = some '-') := by
        rintro (heq | heq) <;> cases heq <;> exact absurd hc (by decide)
      rw [afterSign, List.nil_append, List.head?_cons, if_neg hne]
      exact hdigits
    · exact hdigits
    · exact hdigits
  · intro h
    obtain ⟨sign, hs, hsign⟩ := exists_sign s
    exact ⟨_, sign, afterSign s, hs, hsign, h, rfl⟩

instance (s : List Char) : Decidable (IsNumeral s) := decidable_of_iff _ isNumeral_iff.symm

/-- Where nothing is scanned the number is zero. -/
theorem isSome_of_scanLong_ne_zero {s : List Char} (h : (scanLong s).1 ≠ 0) :
    (scanInt (cut s)).isSome = true := by
  by_contra hnone
  apply h
  rw [Bool.not_eq_true, Option.isSome_eq_false_iff, Option.isNone_iff_eq_none] at hnone
  rw [CString.scanLong, hnone]

/-! ## Zeros in front -/

/-- **A number without zeros in front** is written as it is printed. -/
theorem toDigits_number {s : List Char} (h : IsNumber s) (hzero : s.head? = some '0' → s.length = 1) :
    Nat.toDigits 10 (number s) = s := by
  have hdigit : ∀ {c : Char}, c.isDigit = true → c.toNat - '0'.toNat < 10 ∧
      (c.toNat - '0'.toNat).digitChar = c := by
    intro c hc
    have hcode : 48 ≤ c.toNat ∧ c.toNat ≤ 57 := by
      simpa [Char.isDigit, UInt32.le_iff_toNat_le] using hc
    have hall : ∀ n < 58, 48 ≤ n → (n - 48).digitChar = Char.ofNat n := by decide
    have hzero : '0'.toNat = 48 := rfl
    rw [hzero]
    refine ⟨by omega, ?_⟩
    rw [hall c.toNat (by omega) hcode.1, Char.ofNat_toNat]
  obtain ⟨c, l, rfl⟩ := List.exists_cons_of_ne_nil h.1
  have hpos : l ≠ [] → 0 < c.toNat - '0'.toNat := by
    intro hl
    have hc : c ≠ '0' := by
      rintro rfl
      exact hl (List.length_eq_zero_iff.mp (by simpa using hzero rfl))
    obtain ⟨hlt, hchar⟩ := hdigit (h.2 c List.mem_cons_self)
    by_contra hle
    rw [show c.toNat - '0'.toNat = 0 by omega] at hchar
    exact hc hchar.symm
  -- the digits behind the first one are appended one after another
  have happend : ∀ (l : List Char) (n : ℕ), (∀ d ∈ l, d.isDigit = true) → (l ≠ [] → 0 < n) →
      Nat.toDigits 10 (Nat.ofDigitChars 10 l n) = Nat.toDigits 10 n ++ l := by
    intro l
    induction l with
    | nil =>
      intro n _ _
      rw [Nat.ofDigitChars_nil, List.append_nil]
    | cons d l ih =>
      intro n hall hn
      obtain ⟨hlt, hchar⟩ := hdigit (hall d List.mem_cons_self)
      have hpos := hn (List.cons_ne_nil _ _)
      have hstep := Nat.toDigits_append_toDigits (by decide : 1 < 10) hpos hlt
      rw [Nat.toDigits_of_lt_base hlt, hchar] at hstep
      rw [Nat.ofDigitChars_cons, ih _ (fun e he => hall e (List.mem_cons_of_mem _ he)) (by omega),
        ← hstep, List.append_assoc]
      rfl
  obtain ⟨hlt, hchar⟩ := hdigit (h.2 c List.mem_cons_self)
  rw [number, Nat.ofDigitChars_cons, happend l _ (fun d hd => h.2 d (List.mem_cons_of_mem _ hd))
    (fun hl => by have := hpos hl; omega), Nat.mul_zero, Nat.zero_add, Nat.toDigits_of_lt_base hlt,
    hchar]
  rfl

end CString
