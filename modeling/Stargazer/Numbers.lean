import Stargazer.Common
import Stargazer.Lib.Numerals

set_option relaxedAutoImplicit false
set_option autoImplicit false

/-!
# Integers in texts

The functions of `libs/common` that convert texts into integers: the overloads of `str2x` for the four
integer types, the template `str2x` (`common.h`), and `ParseInt`, `ParseUnsigned`, `ParseIntInRange`,
`ParseUnsignedInRange`, which use the template.  The template computes with words that wrap around.

## Main definitions

* `Stargazer.str2xTemplate` — the template; the overloads are `Stargazer.str2xSigned` and
  `Stargazer.str2xUnsigned`.
* `Stargazer.IntegerParser` — one of the functions.
* `Stargazer.IntegerParser.Exact` — a call stores the number that is written, and does not depend on
  the calls before it.

## Main results

* `Stargazer.str2xTemplate_eq` — the template gives the number that is written, with wrap-around.
* `Stargazer.IntegerParser.integer_parsing_exact_iff` — the calls that are exact.
-/

namespace Stargazer

/-! ## The functions of the source -/

/-- The loop of the template; the digit `0` has the code 48. -/
def digitsLoop {w : ℕ} : BitVec w → List Char → Option (BitVec w)
  | x, [] => some x
  | x, c :: s => if c.isDigit then digitsLoop (x * 10 + BitVec.ofNat w (c.toNat - 48)) s else none

/-- The template `str2x`, `none` where it returns an error. -/
def str2xTemplate (w : ℕ) (str : List Char) : Option (BitVec w) :=
  let minus : BitVec w := if str.head? = some '-' then -1 else 1
  let digits := if str.head? = some '+' ∨ str.head? = some '-' then str.tail else str
  match digits with
  | [] => none
  | c :: s =>
    if c.isDigit then (digitsLoop (BitVec.ofNat w (c.toNat - 48)) s).map (· * minus) else none

/-- The loop on the argument of the template, and whether there are digits only. -/
def storeDigits {w : ℕ} : BitVec w → List Char → BitVec w × Bool
  | x, [] => (x, true)
  | x, c :: s =>
    if c.isDigit then storeDigits (x * 10 + BitVec.ofNat w (c.toNat - 48)) s else (x, false)

/-- What the template leaves in its argument, if it comes to store anything there, and whether the text is
a number. -/
def str2xStored (w : ℕ) (str : List Char) : Option (BitVec w) × Bool :=
  let minus : BitVec w := if str.head? = some '-' then -1 else 1
  match CString.afterSign str with
  | [] => (none, false)
  | c :: s =>
    if c.isDigit then
      let r := storeDigits (BitVec.ofNat w (c.toNat - 48)) s
      if r.2 then (some (r.1 * minus), true) else (some r.1, false)
    else (none, false)

/-- `ParseIntInRange`. -/
def parseIntInRange (min max : BitVec 32) (str : List Char) : Option (BitVec 32) :=
  match str2xTemplate 32 str with
  | none => none
  | some val => if val.toInt < min.toInt ∨ max.toInt < val.toInt then none else some val

/-- `ParseUnsignedInRange`. -/
def parseUnsignedInRange (min max : BitVec 32) (str : List Char) : Option (BitVec 32) :=
  match str2xTemplate 32 str with
  | none => none
  | some val => if val < min ∨ max < val then none else some val

/-- The functions. -/
inductive IntegerParser
  /-- `str2x` for `int32_t`. -/
  | int32
  /-- `str2x` for `uint32_t`. -/
  | uint32
  /-- `str2x` for `int64_t`. -/
  | int64
  /-- `str2x` for `uint64_t`. -/
  | uint64
  /-- `ParseInt`. -/
  | parseInt
  /-- `ParseUnsigned`. -/
  | parseUnsigned
  /-- `ParseIntInRange`. -/
  | parseIntInRange (min max : BitVec 32)
  /-- `ParseUnsignedInRange`. -/
  | parseUnsignedInRange (min max : BitVec 32)
  deriving DecidableEq

namespace IntegerParser

/-- The number a function stores where it reports success. -/
def result (errno : ℤ) (s : List Char) : IntegerParser → Option ℤ
  | .int32 => (str2xSigned 32 errno s).map BitVec.toInt
  | .uint32 => (str2xUnsigned 32 errno s).map fun x => x.toNat
  | .int64 => (str2xSigned 64 errno s).map BitVec.toInt
  | .uint64 => (str2xUnsigned 64 errno s).map fun x => x.toNat
  | .parseInt => (str2xTemplate 32 s).map BitVec.toInt
  | .parseUnsigned => (str2xTemplate 32 s).map fun x => x.toNat
  | .parseIntInRange min max => (Stargazer.parseIntInRange min max s).map BitVec.toInt
  | .parseUnsignedInRange min max => (Stargazer.parseUnsignedInRange min max s).map fun x => x.toNat

/-- `errno` afterwards. -/
def errnoAfter (errno : ℤ) (s : List Char) : IntegerParser → ℤ
  | .int32 | .int64 => strtolErrno errno s
  | .uint32 | .uint64 => strtoulErrno errno s
  | _ => errno

/-- `errno` after some calls. -/
def errnoAfterCalls (errno : ℤ) (calls : List (IntegerParser × List Char)) : ℤ :=
  calls.foldl (fun e c => c.1.errnoAfter e c.2) errno

/-! ## What a call should do -/

/-- The numbers of the type, in the range that is asked for. -/
def Allowed (z : ℤ) : IntegerParser → Prop
  | .int32 | .parseInt => IsInt z
  | .uint32 | .parseUnsigned => 0 ≤ z ∧ z < 2 ^ 32
  | .int64 => IsTime z
  | .uint64 => 0 ≤ z ∧ z < 2 ^ 64
  | .parseIntInRange min max => min.toInt ≤ z ∧ z ≤ max.toInt
  | .parseUnsignedInRange min max => min.toNat ≤ z ∧ z ≤ max.toNat

/-- The number that is written in a text: at its start for the overloads, in all of it for the
template. -/
def Written (s : List Char) (z : ℤ) : IntegerParser → Prop
  | .int32 | .uint32 | .int64 | .uint64 => CString.StartsWith s z
  | _ => CString.Whole s z

/-- A call stores the number that is written, and does what it would do without the calls before. -/
def Exact (p : IntegerParser) (errno : ℤ) (s : List Char) : Prop :=
  (∀ x ∈ p.result errno s, p.Written s x ∧ p.Allowed x) ∧ p.result errno s = p.result 0 s

/-- The calls that are exact.  An overload is exact where the number is too large even for the function
of the C library, which is always found; otherwise `errno` must not be `ERANGE` before, and there must
be a number of the type.  The template is exact where the number is one of the type; the ranges keep
some numbers out that have wrapped around. -/
def HoldsWhen (p : IntegerParser) (errno : ℤ) (s : List Char) : Prop :=
  match p with
  | .int32 | .int64 =>
    (∃ z, CString.StartsWith s z ∧ ¬ IsTime z) ∨
      errno ≠ erange ∧ ∃ z, CString.StartsWith s z ∧ p.Allowed z
  | .uint32 | .uint64 =>
    (∃ z, CString.StartsWith s z ∧ 2 ^ 64 ≤ z.natAbs) ∨
      errno ≠ erange ∧ ∃ z, CString.StartsWith s z ∧ p.Allowed z
  | .parseInt | .parseUnsigned => ∀ z, CString.Whole s z → p.Allowed z
  | .parseIntInRange min max => ∀ z, CString.Whole s z →
    IsInt z ∨ (BitVec.ofInt 32 z).toInt < min.toInt ∨ max.toInt < (BitVec.ofInt 32 z).toInt
  | .parseUnsignedInRange min max => ∀ z, CString.Whole s z →
    (0 ≤ z ∧ z < 2 ^ 32) ∨ BitVec.ofInt 32 z < min ∨ max < BitVec.ofInt 32 z

end IntegerParser

/-! ## The template -/

/-- The digits behind a number. -/
theorem digitsLoop_ofNat {w : ℕ} (n : ℕ) (s : List Char) :
    digitsLoop (BitVec.ofNat w n) s =
      if s.all Char.isDigit = true then some (BitVec.ofNat w (Nat.ofDigitChars 10 s n)) else none := by
  induction s generalizing n with
  | nil => rfl
  | cons c s ih =>
    have hstep : BitVec.ofNat w n * 10 + BitVec.ofNat w (c.toNat - 48) =
        BitVec.ofNat w (10 * n + (c.toNat - 48)) := by
      rw [Nat.mul_comm, BitVec.ofNat_add, BitVec.ofNat_mul]
      rfl
    rw [digitsLoop, hstep, ih, Nat.ofDigitChars_cons]
    by_cases hc : c.isDigit = true
    · simp only [hc, if_true, List.all_cons, Bool.true_and]
      rfl
    · simp [hc]

/-- Digits only. -/
theorem digitsLoop_of_isNumber {w : ℕ} {c : Char} {s : List Char} (h : CString.IsNumber (c :: s)) :
    digitsLoop (BitVec.ofNat w (c.toNat - 48)) s = some (BitVec.ofNat w (CString.number (c :: s))) := by
  rw [digitsLoop_ofNat, if_pos (List.all_eq_true.mpr fun d hd => h.2 d (List.mem_cons_of_mem _ hd)), CString.number,
    Nat.ofDigitChars_cons, Nat.mul_zero, Nat.zero_add]
  rfl

/-- **What is written is stored**, with wrap-around. -/
theorem str2xTemplate_eq (w : ℕ) {s : List Char} {z : ℤ} (h : CString.Whole s z) :
    str2xTemplate w s = some (BitVec.ofInt w z) := by
  obtain ⟨sign, digits, rfl, hsign, hdigits, rfl⟩ := h
  obtain ⟨c, l, rfl⟩ := List.exists_cons_of_ne_nil hdigits.1
  have hc := hdigits.2 c List.mem_cons_self
  have hminus : c ≠ '-' := fun h => absurd hc (by rw [h]; decide)
  have hplus : c ≠ '+' := fun h => absurd hc (by rw [h]; decide)
  have hloop := digitsLoop_of_isNumber (w := w) hdigits
  unfold str2xTemplate CString.signed
  rcases hsign with rfl | rfl | rfl
  · simp [hminus, hplus, hc, hloop]
  · simp [hc, hloop, BitVec.ofInt_neg]
  · simp [hc, hloop]

/-- Nothing else is read. -/
theorem exists_whole_of_str2xTemplate {w : ℕ} {s : List Char} {x : BitVec w}
    (h : str2xTemplate w s = some x) : ∃ z, CString.Whole s z := by
  apply CString.isNumeral_iff.mpr
  change (match CString.afterSign s with
    | [] => none
    | c :: l => if c.isDigit then (digitsLoop (BitVec.ofNat w (c.toNat - 48)) l).map (· * _)
      else none) = some x at h
  cases hdigits : CString.afterSign s with
  | nil =>
    rw [hdigits] at h
    cases h
  | cons c l =>
    rw [hdigits] at h
    dsimp only at h
    by_cases hc : c.isDigit = true
    · rw [if_pos hc, digitsLoop_ofNat] at h
      by_cases hl : l.all Char.isDigit = true
      · exact ⟨List.cons_ne_nil _ _, List.forall_mem_cons.mpr ⟨hc, List.all_eq_true.mp hl⟩⟩
      · rw [if_neg hl] at h
        cases h
    · rw [if_neg hc] at h
      cases h

/-- **What the template stores.** -/
theorem str2xTemplate_eq_some_iff {w : ℕ} {s : List Char} {x : BitVec w} :
    str2xTemplate w s = some x ↔ ∃ z, CString.Whole s z ∧ BitVec.ofInt w z = x := by
  constructor
  · intro h
    obtain ⟨z, hz⟩ := exists_whole_of_str2xTemplate h
    exact ⟨z, hz, Option.some.inj ((str2xTemplate_eq w hz).symm.trans h)⟩
  · rintro ⟨z, hz, rfl⟩
    exact str2xTemplate_eq w hz

/-! ### The argument of the template -/

theorem storeDigits_eq {w : ℕ} (x : BitVec w) (s : List Char) :
    digitsLoop x s = if (storeDigits x s).2 = true then some (storeDigits x s).1 else none := by
  induction s generalizing x with
  | nil => rfl
  | cons c s ih =>
    rw [digitsLoop, storeDigits]
    by_cases hc : c.isDigit = true
    · rw [if_pos hc, if_pos hc]
      exact ih _
    · rw [if_neg hc, if_neg hc]
      rfl

/-- What is left in the argument is what the template gives. -/
theorem str2xTemplate_eq_str2xStored (w : ℕ) (s : List Char) :
    str2xTemplate w s = if (str2xStored w s).2 = true then (str2xStored w s).1 else none := by
  change (match CString.afterSign s with
    | [] => none
    | c :: l => if c.isDigit then (digitsLoop (BitVec.ofNat w (c.toNat - 48)) l).map (· * _)
      else none) = _
  unfold str2xStored
  cases CString.afterSign s with
  | nil => rfl
  | cons c l =>
    dsimp only
    by_cases hc : c.isDigit = true
    · rw [if_pos hc, storeDigits_eq]
      by_cases hl : (storeDigits (BitVec.ofNat w (c.toNat - 48)) l).2 = true <;> simp [hc, hl]
    · simp [hc]

/-- **What is stored** of a number. -/
theorem str2xStored_of_whole (w : ℕ) {s : List Char} {z : ℤ} (h : CString.Whole s z) :
    str2xStored w s = (some (BitVec.ofInt w z), true) := by
  have htemplate := str2xTemplate_eq_str2xStored w s
  rw [str2xTemplate_eq w h] at htemplate
  split_ifs at htemplate with hnumber
  exact Prod.ext htemplate.symm hnumber

/-- It is a number if the template says so. -/
theorem str2xStored_snd (w : ℕ) (s : List Char) :
    (str2xStored w s).2 = true ↔ CString.IsNumeral s := by
  constructor
  · intro h
    have htemplate := str2xTemplate_eq_str2xStored w s
    rw [if_pos h] at htemplate
    have hsome : (str2xStored w s).1.isSome = true := by
      revert h
      unfold str2xStored
      cases CString.afterSign s with
      | nil => simp
      | cons c l =>
        dsimp only
        by_cases hc : c.isDigit = true
        · by_cases hl : (storeDigits (BitVec.ofNat w (c.toNat - 48)) l).2 = true <;> simp [hc, hl]
        · simp [hc]
    obtain ⟨x, hx⟩ := Option.isSome_iff_exists.mp hsome
    exact exists_whole_of_str2xTemplate (htemplate.trans hx)
  · rintro ⟨z, hz⟩
    rw [str2xStored_of_whole w hz]

/-! ## Exact calls -/

namespace IntegerParser

variable {p : IntegerParser} {errno : ℤ} {s : List Char}

/-- A function that finds some numbers too large, looks at `errno`, and converts the others. -/
theorem exact_overload_iff {tooLarge : ℤ → Prop} {convert : ℤ → ℤ} (hzero : ¬ tooLarge 0)
    (hconvert : ∀ z, p.Allowed z → convert z = z)
    (hwritten : ∀ z, p.Written s z ↔ CString.StartsWith s z)
    (hlarge : ∀ errno, (tooLarge (CString.scanLong s).1 ∨ errno = erange) → p.result errno s = none)
    (hresult : ∀ errno, ¬ tooLarge (CString.scanLong s).1 → errno ≠ erange →
      p.result errno s = some (convert (CString.scanLong s).1)) :
    p.Exact errno s ↔ (∃ z, CString.StartsWith s z ∧ tooLarge z) ∨
      errno ≠ erange ∧ ∃ z, CString.StartsWith s z ∧ p.Allowed z := by
  have hclean : (0 : ℤ) ≠ erange := by decide
  have hover : tooLarge (CString.scanLong s).1 ↔ ∃ z, CString.StartsWith s z ∧ tooLarge z := by
    constructor
    · intro h
      have hne : (CString.scanLong s).1 ≠ 0 := fun heq => hzero (heq ▸ h)
      exact ⟨_, CString.startsWith_scanLong (CString.isSome_of_scanLong_ne_zero hne), h⟩
    · rintro ⟨z, hz, h⟩
      rwa [hz.scanLong.2]
  rw [← hover]
  unfold Exact
  by_cases htoo : tooLarge (CString.scanLong s).1
  · rw [hlarge errno (.inl htoo), hlarge 0 (.inl htoo)]
    exact iff_of_true ⟨fun x hx => (by cases hx), rfl⟩ (.inl htoo)
  · by_cases herrno : errno = erange
    · rw [hlarge errno (.inr herrno), hresult 0 htoo hclean]
      constructor
      · rintro ⟨-, h⟩
        cases h
      · rintro (h | ⟨h, -⟩)
        · exact absurd h htoo
        · exact absurd herrno h
    · rw [hresult errno htoo herrno, hresult 0 htoo hclean]
      constructor
      · rintro ⟨h, -⟩
        obtain ⟨hw, hallowed⟩ := h _ rfl
        exact .inr ⟨herrno, _, (hwritten _).mp hw, hallowed⟩
      · rintro (h | ⟨-, z, hz, hallowed⟩)
        · exact absurd h htoo
        · refine ⟨fun x hx => ?_, rfl⟩
          obtain rfl := Option.some.inj hx
          rw [hz.scanLong.2, hconvert z hallowed]
          exact ⟨(hwritten z).mpr hz, hallowed⟩

/-- A function that passes on what the template gives, or refuses it. -/
theorem exact_template_iff {f : BitVec 32 → Option ℤ}
    (hwritten : ∀ z, p.Written s z ↔ CString.Whole s z)
    (hresult : ∀ errno, p.result errno s = (str2xTemplate 32 s).bind f) :
    p.Exact errno s ↔
      ∀ z, CString.Whole s z → ∀ x ∈ f (BitVec.ofInt 32 z), x = z ∧ p.Allowed z := by
  unfold Exact
  rw [hresult errno, hresult 0]
  constructor
  · rintro ⟨h, -⟩ z hz x hx
    rw [str2xTemplate_eq 32 hz, Option.bind_some] at h
    obtain ⟨hw, hallowed⟩ := h x hx
    obtain rfl := ((hwritten x).mp hw).eq hz
    exact ⟨rfl, hallowed⟩
  · intro h
    refine ⟨fun x hx => ?_, rfl⟩
    obtain ⟨val, hval, hfx⟩ := Option.bind_eq_some_iff.mp hx
    obtain ⟨z, hz, rfl⟩ := str2xTemplate_eq_some_iff.mp hval
    obtain ⟨rfl, hallowed⟩ := h z hz x hfx
    exact ⟨(hwritten x).mpr hz, hallowed⟩

/-- A number that is not negative is stored as it is, if it is one of the type. -/
theorem toNat_ofInt_of_lt {w : ℕ} {z : ℤ} (hlow : 0 ≤ z) (hhigh : z < 2 ^ w) :
    ((BitVec.ofInt w z).toNat : ℤ) = z := by
  obtain ⟨n, rfl⟩ := Int.eq_ofNat_of_zero_le hlow
  have hlt : n < 2 ^ w := by exact_mod_cast hhigh
  rw [BitVec.ofInt_natCast, BitVec.toNat_ofNat, Nat.mod_eq_of_lt hlt]

/-- An overload, given by what it finds too large and by the conversion of the rest. -/
theorem exact_converted_iff {w : ℕ} {tooLarge : ℤ → Prop} [DecidablePred tooLarge]
    (convert : BitVec w → ℤ) (hzero : ¬ tooLarge 0)
    (hconvert : ∀ z, p.Allowed z → convert (BitVec.ofInt w z) = z)
    (hwritten : ∀ z, p.Written s z ↔ CString.StartsWith s z)
    (hresult : ∀ errno, p.result errno s =
      (if tooLarge (CString.scanLong s).1 ∨ errno = erange then none
        else some (BitVec.ofInt w (CString.scanLong s).1)).map convert) :
    p.Exact errno s ↔ (∃ z, CString.StartsWith s z ∧ tooLarge z) ∨
      errno ≠ erange ∧ ∃ z, CString.StartsWith s z ∧ p.Allowed z := by
  refine exact_overload_iff hzero hconvert hwritten (fun errno h => ?_) fun errno h herrno => ?_
  · rw [hresult, if_pos h, Option.map_none]
  · rw [hresult, if_neg (not_or.mpr ⟨h, herrno⟩), Option.map_some]

/-- A function that passes on what the template gives if it lies in a range: it is exact where the
number is kept by the conversion, or lies outside of the range. -/
theorem exact_range_iff (out : BitVec 32 → Prop) [DecidablePred out] (convert : BitVec 32 → ℤ)
    (kept : ℤ → Prop)
    (hwritten : ∀ z, p.Written s z ↔ CString.Whole s z)
    (hresult : ∀ errno, p.result errno s =
      (str2xTemplate 32 s).bind fun val => if out val then none else some (convert val))
    (hkept : ∀ z, kept z ↔ convert (BitVec.ofInt 32 z) = z)
    (hallowed : ∀ z, kept z → ¬ out (BitVec.ofInt 32 z) → p.Allowed z) :
    p.Exact errno s ↔ ∀ z, CString.Whole s z → kept z ∨ out (BitVec.ofInt 32 z) := by
  refine (exact_template_iff hwritten hresult).trans (forall₂_congr fun z _ => ?_)
  by_cases hout : out (BitVec.ofInt 32 z)
  · rw [if_pos hout]
    exact iff_of_true (fun x hx => by cases hx) (.inr hout)
  · rw [if_neg hout]
    constructor
    · intro h
      exact .inl ((hkept z).mpr (h _ rfl).1)
    · rintro (hz | hz) x ⟨⟩
      · exact ⟨(hkept z).mp hz, hallowed z hz hout⟩
      · exact absurd hz hout

/-- The numbers of `int32_t` are kept. -/
theorem isInt_iff_toInt_ofInt (z : ℤ) : IsInt z ↔ (BitVec.ofInt 32 z).toInt = z :=
  ⟨toInt_ofInt_of_isInt, fun h => h ▸ isInt_toInt _⟩

/-- The numbers of an unsigned type are kept. -/
theorem toNat_ofInt_iff {w : ℕ} (z : ℤ) :
    (0 ≤ z ∧ z < 2 ^ w) ↔ ((BitVec.ofInt w z).toNat : ℤ) = z := by
  constructor
  · exact fun h => toNat_ofInt_of_lt h.1 h.2
  · intro h
    have hlt : ((BitVec.ofInt w z).toNat : ℤ) < 2 ^ w := by exact_mod_cast (BitVec.ofInt w z).isLt
    exact ⟨h ▸ Int.natCast_nonneg _, h ▸ hlt⟩

/-- **The calls that are exact.** -/
theorem integer_parsing_exact_iff (p : IntegerParser) (errno : ℤ) (s : List Char) :
    p.Exact errno s ↔ p.HoldsWhen errno s := by
  have htime : ¬ ¬ IsTime 0 := not_not.mpr (by decide)
  have hsmall : ¬ 2 ^ 64 ≤ (0 : ℤ).natAbs := by decide
  cases p with
  | int32 =>
    refine exact_converted_iff BitVec.toInt htime (fun z => (isInt_iff_toInt_ofInt z).mp) (fun z => Iff.rfl) ?_
    intro errno
    rw [result, str2xSigned_eq]
  | int64 =>
    have hconvert : ∀ z, IsTime z → (BitVec.ofInt 64 z).toInt = z := by
      intro z hz
      rw [BitVec.toInt_ofInt]
      exact Int.bmod_eq_of_le (by simpa using hz.1) (by simpa using hz.2)
    refine exact_converted_iff BitVec.toInt htime hconvert (fun z => Iff.rfl) ?_
    intro errno
    rw [result, str2xSigned_eq]
  | uint32 =>
    have hconvert : ∀ z : ℤ, 0 ≤ z ∧ z < 2 ^ 32 → ((BitVec.ofInt 32 z).toNat : ℤ) = z :=
      fun z => (toNat_ofInt_iff z).mp
    refine exact_converted_iff (fun x => x.toNat) hsmall hconvert (fun z => Iff.rfl) ?_
    intro errno
    rw [result, str2xUnsigned_eq (by decide)]
  | uint64 =>
    have hconvert : ∀ z : ℤ, 0 ≤ z ∧ z < 2 ^ 64 → ((BitVec.ofInt 64 z).toNat : ℤ) = z :=
      fun z => (toNat_ofInt_iff z).mp
    refine exact_converted_iff (fun x => x.toNat) hsmall hconvert (fun z => Iff.rfl) ?_
    intro errno
    rw [result, str2xUnsigned_eq le_rfl]
  | parseInt =>
    have hresult : ∀ errno, result errno s .parseInt =
        (str2xTemplate 32 s).bind fun x => some x.toInt := by
      intro errno
      rw [result, Option.map_eq_bind]
      rfl
    refine (exact_template_iff (fun z => Iff.rfl) hresult).trans (forall₂_congr fun z _ => ?_)
    constructor
    · exact fun h => (h _ rfl).2
    · rintro hz x ⟨⟩
      exact ⟨toInt_ofInt_of_isInt hz, hz⟩
  | parseUnsigned =>
    have hresult : ∀ errno, result errno s .parseUnsigned =
        (str2xTemplate 32 s).bind fun x => some (x.toNat : ℤ) := by
      intro errno
      rw [result, Option.map_eq_bind]
      rfl
    refine (exact_template_iff (fun z => Iff.rfl) hresult).trans (forall₂_congr fun z _ => ?_)
    constructor
    · exact fun h => (h _ rfl).2
    · rintro hz x ⟨⟩
      exact ⟨toNat_ofInt_of_lt hz.1 hz.2, hz⟩
  | parseIntInRange min max =>
    refine exact_range_iff (fun val => val.toInt < min.toInt ∨ max.toInt < val.toInt) BitVec.toInt
      IsInt (fun z => Iff.rfl) (fun errno => ?_) isInt_iff_toInt_ofInt fun z hz hout => ?_
    · rw [result, Stargazer.parseIntInRange]
      cases str2xTemplate 32 s with
      | none => rfl
      | some val => exact apply_ite (Option.map BitVec.toInt) _ _ _
    · rw [toInt_ofInt_of_isInt hz, not_or, not_lt, not_lt] at hout
      exact hout
  | parseUnsignedInRange min max =>
    refine exact_range_iff (fun val => val < min ∨ max < val) (fun val => val.toNat)
      (fun z => 0 ≤ z ∧ z < 2 ^ 32) (fun z => Iff.rfl) (fun errno => ?_) toNat_ofInt_iff
      fun z hz hout => ?_
    · rw [result, Stargazer.parseUnsignedInRange]
      cases str2xTemplate 32 s with
      | none => rfl
      | some val => exact apply_ite (Option.map fun x : BitVec 32 => (x.toNat : ℤ)) _ _ _
    · have heq := toNat_ofInt_of_lt hz.1 hz.2
      rw [BitVec.lt_def, BitVec.lt_def] at hout
      show (min.toNat : ℤ) ≤ z ∧ z ≤ (max.toNat : ℤ)
      omega

/-- A number of 33 bits is stored as another one, and after a number out of range nothing is read. -/
theorem overloads_not_exact :
    ¬ Exact .int32 0 "4294967297".toList ∧
      ¬ Exact .int32 (errnoAfterCalls 0 [(.int64, "9223372036854775808".toList)]) "5".toList ∧
        ¬ Exact .parseInt 0 "4294967297".toList := by
  have hwhole : ∀ z, CString.StartsWith "4294967297".toList z → z = 4294967297 := by
    intro z hz
    rw [← hz.scanLong.2]
    decide
  refine ⟨fun h => ?_, fun h => ?_, fun h => ?_⟩
  · have hone : result 0 "4294967297".toList .int32 = some 1 := by decide
    exact absurd (hwhole 1 (h.1 1 hone).1) (by decide)
  · have hnone : result (errnoAfterCalls 0 [(.int64, "9223372036854775808".toList)]) "5".toList
        .int32 = none := by decide
    have hfive : result 0 "5".toList .int32 = some 5 := by decide
    have := h.2
    rw [hnone, hfive] at this
    cases this
  · have hone : result 0 "4294967297".toList .parseInt = some 1 := by decide
    exact absurd (hwhole 1 (h.1 1 hone).1.startsWith) (by decide)

end IntegerParser

end Stargazer
