import Stargazer.Lib.CString
import Stargazer.Tariffs.TariffImpl

set_option relaxedAutoImplicit false
set_option autoImplicit false

/-!
# Texts of numbers, times and enumerations

The overloads of `str2x`, and `ParseTariffTimeStr` (`libs/common/common.cpp`), and the texts of the
enumerations of a tariff (`include/stg/tariff.h`).

`str2x` goes through `strtol` and its relatives, converts the result to a type that may be narrower, and
looks at `errno` without having reset it: once it is `ERANGE`, every call returns an error.

## Main definitions

* `Stargazer.str2xSigned`, `Stargazer.str2xUnsigned` — `str2x`, with what `errno` was before;
  `Stargazer.str2x` — where only this is known of `errno`: is it `ERANGE`?
* `Stargazer.timeText` — a time span as it is printed everywhere; `Stargazer.parseTariffTimeStr`.
* `Stargazer.FitsTime` — the texts `ParseTariffTimeStr` does not read behind its buffers for.
* `Stargazer.TraffType.toString`, `Stargazer.TraffType.parse` and so on — the enumerations.

## Main results

* `Stargazer.str2xSigned_eq`, `Stargazer.str2xUnsigned_eq`, `Stargazer.str2x_eq` — what is stored.
* `Stargazer.parseTariffTimeStr_timeText` — a time span of numbers of at most eight digits is read
  back, or its first number.
* `Stargazer.parseTariffTimeStr_range` — nothing else is ever read.
* `Stargazer.parseTariffTimeStr_ne_none_iff` — when its behaviour is defined.
-/

namespace Stargazer

/-! ## Numbers -/

/-- A number in the range of `int`. -/
def IsInt (z : ℤ) : Prop := -2 ^ 31 ≤ z ∧ z < 2 ^ 31

/-- A number in the range of `time_t`. -/
def IsTime (z : ℤ) : Prop := -2 ^ 63 ≤ z ∧ z < 2 ^ 63

instance (z : ℤ) : Decidable (IsInt z) := inferInstanceAs (Decidable (_ ∧ _))

instance (z : ℤ) : Decidable (IsTime z) := inferInstanceAs (Decidable (_ ∧ _))

theorem isInt_toInt (x : BitVec 32) : IsInt x.toInt :=
  ⟨by simpa using x.le_toInt, by simpa using x.toInt_lt⟩

theorem toInt_ofInt_of_isInt {z : ℤ} (h : IsInt z) : (BitVec.ofInt 32 z).toInt = z := by
  rw [BitVec.toInt_ofInt]
  exact Int.bmod_eq_of_le (by simpa using h.1) (by simpa using h.2)

theorem clampLong_of_isTime {z : ℤ} (h : IsTime z) : CString.clampLong z = z := by
  obtain ⟨hlow, hhigh⟩ := h
  unfold CString.clampLong
  omega

theorem isTime_clampLong (z : ℤ) : IsTime (CString.clampLong z) := by
  unfold IsTime CString.clampLong
  omega

theorem clampLong_eq_iff (z : ℤ) : CString.clampLong z = z ↔ IsTime z :=
  ⟨fun h => h ▸ isTime_clampLong z, clampLong_of_isTime⟩

/-! ## `str2x` -/

/-- `ERANGE`. -/
def erange : ℤ := 34

/-- `errno` after `strtol` and `strtoll`. -/
def strtolErrno (errno : ℤ) (s : List Char) : ℤ :=
  if CString.clampLong (CString.scanLong s).1 ≠ (CString.scanLong s).1 then erange else errno

/-- `errno` after `strtoul`. -/
def strtoulErrno (errno : ℤ) (s : List Char) : ℤ :=
  if 2 ^ 64 ≤ (CString.scanLong s).1.natAbs then erange else errno

/-- `str2x` for `int32_t` and `int64_t`, `none` where it returns an error. -/
def str2xSigned (w : ℕ) (errno : ℤ) (s : List Char) : Option (BitVec w) :=
  if strtolErrno errno s = erange then none else some (BitVec.ofInt w (CString.strtol s).1)

/-- `str2x` for `uint32_t` and `uint64_t`, `none` where it returns an error. -/
def str2xUnsigned (w : ℕ) (errno : ℤ) (s : List Char) : Option (BitVec w) :=
  if strtoulErrno errno s = erange then none else some ((CString.strtoul s).1.setWidth w)

/-- What an overload for a signed type stores. -/
theorem str2xSigned_eq (w : ℕ) (errno : ℤ) (s : List Char) :
    str2xSigned w errno s =
      if ¬ IsTime (CString.scanLong s).1 ∨ errno = erange then none
      else some (BitVec.ofInt w (CString.scanLong s).1) := by
  have hclamp := clampLong_eq_iff (CString.scanLong s).1
  unfold str2xSigned strtolErrno
  by_cases htime : IsTime (CString.scanLong s).1
  · have heq := hclamp.mpr htime
    simp [heq, htime, CString.strtol]
  · simp [hclamp, htime]

/-- What an overload for an unsigned type stores. -/
theorem str2xUnsigned_eq {w : ℕ} (hw : w ≤ 64) (errno : ℤ) (s : List Char) :
    str2xUnsigned w errno s =
      if 2 ^ 64 ≤ (CString.scanLong s).1.natAbs ∨ errno = erange then none
      else some (BitVec.ofInt w (CString.scanLong s).1) := by
  unfold str2xUnsigned strtoulErrno
  by_cases hbig : 2 ^ 64 ≤ (CString.scanLong s).1.natAbs
  · rw [if_pos hbig, if_pos rfl, if_pos (.inl hbig)]
  · have hvalue : (CString.strtoul s).1 = BitVec.ofInt 64 (CString.scanLong s).1 := by
      unfold CString.strtoul
      unfold CString.scanLong at hbig ⊢
      cases hscan : CString.scanInt (CString.cut s) with
      | none => rfl
      | some r =>
        obtain ⟨neg, digits, rest⟩ := r
        rw [hscan] at hbig
        dsimp only at hbig ⊢
        have hlt : ¬ 2 ^ 64 ≤ Nat.ofDigitChars 10 digits 0 := by
          split_ifs at hbig <;> omega
        rw [if_neg hlt]
        cases neg with
        | false => exact (BitVec.ofInt_natCast 64 _).symm
        | true =>
          simp only [if_true]
          rw [BitVec.ofInt_neg, BitVec.ofInt_natCast]
    have hset : (BitVec.ofInt 64 (CString.scanLong s).1).setWidth w =
        BitVec.ofInt w (CString.scanLong s).1 := by
      apply BitVec.eq_of_toNat_eq
      rw [BitVec.toNat_setWidth, BitVec.toNat_ofInt, BitVec.toNat_ofInt]
      have hpos : ∀ n : ℕ, ((2 ^ n : ℕ) : ℤ) ≠ 0 := fun n => by positivity
      apply Int.ofNat.inj
      show (((_ % _ : ℤ).toNat % _ : ℕ) : ℤ) = ((_ % _ : ℤ).toNat : ℤ)
      rw [Int.natCast_mod, Int.toNat_of_nonneg (Int.emod_nonneg _ (hpos 64)),
        Int.toNat_of_nonneg (Int.emod_nonneg _ (hpos w)), Int.emod_emod_of_dvd]
      exact Int.natCast_dvd_natCast.mpr (pow_dvd_pow 2 hw)
    rw [if_neg hbig, hvalue, hset]
    by_cases herrno : errno = erange
    · rw [if_pos herrno, if_pos (.inr herrno)]
    · rw [if_neg herrno, if_neg (not_or.mpr ⟨hbig, herrno⟩)]

/-- **A printed number is read back**, a negative one with wrap-around, unless `errno` was `ERANGE`
before. -/
theorem str2xUnsigned_printInt (w : ℕ) (errno : ℤ) {z : ℤ} (h : z.natAbs < 2 ^ 64) :
    str2xUnsigned w errno (CString.printInt z) =
      if errno = erange then none else some ((BitVec.ofInt 64 z).setWidth w) := by
  have herrno : strtoulErrno errno (CString.printInt z) = errno := by
    rw [strtoulErrno, CString.scanLong_printInt, if_neg (by omega)]
  rw [str2xUnsigned, herrno, CString.strtoul_printInt_of_natAbs h]

/-- An `errno` of which only this is known: is it `ERANGE`? -/
def errnoOf (isRange : Bool) : ℤ := if isRange then erange else 0

/-- `str2x` for `int32_t` and `int64_t` where only this is known of `errno`: is it `ERANGE` before?  Is it
afterwards? -/
def str2x (w : ℕ) (isRange : Bool) (s : List Char) : Option (BitVec w) × Bool :=
  (str2xSigned w (errnoOf isRange) s, decide (strtolErrno (errnoOf isRange) s = erange))

theorem errnoOf_eq_erange_iff {isRange : Bool} : errnoOf isRange = erange ↔ isRange = true := by
  cases isRange <;> decide

/-- `errno` is `ERANGE` after a number beyond `long`, or if it was before. -/
theorem strtolErrno_eq_erange_iff {errno : ℤ} {s : List Char} :
    strtolErrno errno s = erange ↔ ¬ IsTime (CString.scanLong s).1 ∨ errno = erange := by
  unfold strtolErrno
  rw [← clampLong_eq_iff]
  split_ifs with h
  · exact iff_of_true rfl (.inl h)
  · exact (or_iff_right h).symm

/-- **What `str2x` stores**: nothing once `errno` is `ERANGE`. -/
theorem str2x_eq (w : ℕ) (isRange : Bool) (s : List Char) :
    str2x w isRange s =
      if ¬ IsTime (CString.scanLong s).1 ∨ isRange = true then (none, true)
      else (some (BitVec.ofInt w (CString.scanLong s).1), false) := by
  simp only [str2x, str2xSigned_eq, strtolErrno_eq_erange_iff, errnoOf_eq_erange_iff]
  split_ifs with h
  · rw [decide_eq_true h]
  · rw [decide_eq_false h]

/-- A printed number is read back, and `errno` stays. -/
theorem str2x_printInt (w : ℕ) (isRange : Bool) {z : ℤ} (h : IsTime z) :
    str2x w isRange (CString.printInt z) =
      (if isRange then none else some (BitVec.ofInt w z), isRange) := by
  rw [str2x_eq, CString.scanLong_printInt]
  cases isRange <;> simp [h]

/-! ## Time spans -/

/-- `"%0d:%0d-%0d:%0d"`. -/
def timeText (hDay mDay hNight mNight : ℤ) : List Char :=
  CString.printInt hDay ++ ':' :: (CString.printInt mDay ++ '-' ::
    (CString.printInt hNight ++ ':' :: CString.printInt mNight))

/-- The numbers `str2x` stores one after another, up to the first after which `errno` is `ERANGE`, and is
there none?  There is no result if an array without an end is read. -/
def storeNumbers (errno : ℤ) : List CString.Buffer → Option (List ℤ × Bool)
  | [] => some ([], true)
  | b :: bs =>
    if b.ended then
      let x := (BitVec.ofInt 32 (CString.strtol b.text).1).toInt
      match str2xSigned 32 errno b.text with
      | none => some ([x], false)
      | some _ =>
        (storeNumbers (strtolErrno errno b.text) bs).map fun r => (x :: r.1, r.2)
    else none

/-- `ParseTariffTimeStr`, and whether `errno` is `ERANGE` before: the four numbers, or where it returns
`-1` those it has stored already.  There is no result where an array is read that has no end. -/
def parseTariffTimeStr (isRange : Bool) (str : List Char) :
    Option (Except (List ℤ) (ℤ × ℤ × ℤ × ℤ)) :=
  let ss := CString.strncpy 48 (CString.cut str)
  match CString.twoTokens '-' ss with
  | none => none
  | some none => some (.error [])
  | some (some (p1, p2)) =>
    match CString.twoTokens ':' (CString.strncpy 24 p1) with
    | none => none
    | some none => some (.error [])
    | some (some (hs1, ms1)) =>
      match CString.twoTokens ':' (CString.strncpy 24 p2) with
      | none => none
      | some none => some (.error [])
      | some (some (hs2, ms2)) =>
        match storeNumbers (errnoOf isRange)
          [CString.strncpy 9 hs1, CString.strncpy 9 ms1, CString.strncpy 9 hs2, CString.strncpy 9 ms2]
          with
        | none => none
        | some ([h1, m1, h2, m2], true) => some (.ok (h1, m1, h2, m2))
        | some (stored, _) => some (.error stored)

/-- Two calls of `strtok` do not read behind the array `strncpy` has filled with `n` characters, and what
they find satisfies `P`: the text is shorter, or there is a delimiter behind the second token. -/
def FitsParts (n : ℕ) (d : Char) (s : List Char) (P : List Char → List Char → Prop) : Prop :=
  (s.length < n ∨ ∃ t u ts, CString.tokens d (s.take n) = t :: u :: ts ∧
    (ts ≠ [] ∨ (s.take n).getLast? = some d)) ∧
  ∀ t u ts, CString.tokens d (s.take n) = t :: u :: ts → P t u

/-- **The parts of a time fit the buffers** of `ParseTariffTimeStr`, as far as it looks at them: where
`errno` is `ERANGE`, it returns after the first number. -/
def FitsTime (isRange : Bool) (value : List Char) : Prop :=
  FitsParts 48 '-' (CString.cut value) fun p1 p2 =>
    FitsParts 24 ':' p1 fun hs1 ms1 =>
      FitsParts 24 ':' p2 fun hs2 ms2 =>
        hs1.length < 9 ∧ (isRange = false → ms1.length < 9 ∧ hs2.length < 9 ∧ ms2.length < 9)

/-- A number `ParseTariffTimeStr` can give: it has no sign and at most eight digits. -/
def IsTimePart (z : ℤ) : Prop := 0 ≤ z ∧ z < 10 ^ 8

instance (z : ℤ) : Decidable (IsTimePart z) := inferInstanceAs (Decidable (_ ∧ _))

/-! ### Short numbers -/

/-- A short text without a minus has such a number at its start. -/
theorem isTimePart_scanLong {s : List Char} (hminus : '-' ∉ s) (hlen : s.length < 9) :
    IsTimePart (CString.scanLong s).1 :=
  CString.scanLong_lt hminus (k := 8) (by omega)

theorem IsTimePart.isInt {z : ℤ} (h : IsTimePart z) : IsInt z := by
  obtain ⟨hlow, hhigh⟩ := h
  exact ⟨by omega, by omega⟩

/-- **One number**: it is stored if its array has an end, and where `errno` is `ERANGE`, it is the
last. -/
theorem storeNumbers_cons (isRange : Bool) {s : List Char} (hminus : '-' ∉ s)
    (bs : List CString.Buffer) :
    storeNumbers (errnoOf isRange) (CString.strncpy 9 s :: bs) =
      if s.length < 9 then
        if isRange then some ([(CString.scanLong s).1], false)
        else (storeNumbers (errnoOf false) bs).map fun r => ((CString.scanLong s).1 :: r.1, r.2)
      else none := by
  rw [storeNumbers]
  by_cases hlen : s.length < 9
  · have hint := (isTimePart_scanLong hminus hlen).isInt
    have htime : IsTime (CString.scanLong s).1 := ⟨by have := hint.1; omega, by have := hint.2; omega⟩
    have hbuffer : CString.strncpy 9 s = ⟨s, true⟩ := by
      rw [CString.strncpy, List.take_of_length_le hlen.le, decide_eq_true hlen]
    have hstore : (BitVec.ofInt 32 (CString.strtol s).1).toInt = (CString.scanLong s).1 := by
      rw [CString.strtol, clampLong_of_isTime htime, toInt_ofInt_of_isInt hint]
    have herrno : strtolErrno (errnoOf isRange) s = errnoOf isRange := by
      rw [strtolErrno, if_neg (not_not.mpr (clampLong_of_isTime htime))]
    simp only [hbuffer, if_true, hlen, str2xSigned_eq, htime, not_true_eq_false, false_or,
      errnoOf_eq_erange_iff, hstore, herrno]
    cases isRange <;> rfl
  · have hbuffer : (CString.strncpy 9 s).ended = false := decide_eq_false hlen
    rw [hbuffer, if_neg hlen]
    rfl

/-- The four numbers. -/
theorem storeNumbers_four (isRange : Bool) {a b c e : List Char} (ha : '-' ∉ a) (hb : '-' ∉ b)
    (hc : '-' ∉ c) (he : '-' ∉ e) :
    storeNumbers (errnoOf isRange)
        [CString.strncpy 9 a, CString.strncpy 9 b, CString.strncpy 9 c, CString.strncpy 9 e] =
      if a.length < 9 ∧ (isRange = false → b.length < 9 ∧ c.length < 9 ∧ e.length < 9) then
        if isRange then some ([(CString.scanLong a).1], false)
        else some ([(CString.scanLong a).1, (CString.scanLong b).1, (CString.scanLong c).1,
          (CString.scanLong e).1], true)
      else none := by
  rw [storeNumbers_cons isRange ha, storeNumbers_cons false hb, storeNumbers_cons false hc,
    storeNumbers_cons false he]
  by_cases hla : a.length < 9
  · cases isRange with
    | true => simp [hla]
    | false =>
      by_cases hlb : b.length < 9 <;> by_cases hlc : c.length < 9 <;> by_cases hle : e.length < 9 <;>
        simp [hla, hlb, hlc, hle, storeNumbers]
  · simp [hla]

/-! ### What is read -/

/-- Two tokens of an array that was filled from a text. -/
theorem twoTokens_strncpy {n : ℕ} {d : Char} {s t u : List Char}
    (h : CString.twoTokens d (CString.strncpy n s) = some (some (t, u))) :
    ∃ ts, CString.tokens d (s.take n) = t :: u :: ts := by
  have htext : (CString.strncpy n s).text = s.take n := rfl
  rw [CString.twoTokens_eq, htext] at h
  rcases htok : CString.tokens d (s.take n) with _ | ⟨t', _ | ⟨u', ts⟩⟩
  · simp only [htok] at h
    split_ifs at h
    cases h
  · simp only [htok] at h
    split_ifs at h
    cases h
  · simp only [htok] at h
    split_ifs at h
    cases h
    exact ⟨ts, rfl⟩

/-- There is no minus in them if there is none in the text. -/
theorem notMem_of_twoTokens {n : ℕ} {d c : Char} {s t u : List Char}
    (h : CString.twoTokens d (CString.strncpy n s) = some (some (t, u))) (hc : c ∉ s) :
    c ∉ t ∧ c ∉ u := by
  obtain ⟨ts, hts⟩ := twoTokens_strncpy h
  have hmem : ∀ v ∈ CString.tokens d (s.take n), c ∉ v := fun v hv hcv =>
    hc (List.mem_of_mem_take ((CString.mem_tokens hv).2.2 c hcv))
  rw [hts] at hmem
  exact ⟨hmem t (by simp), hmem u (by simp)⟩

/-- **When two calls of `strtok` are defined.** -/
theorem twoTokens_iff {n : ℕ} {d : Char} {s : List Char} {P : List Char → List Char → Prop} :
    (CString.twoTokens d (CString.strncpy n s) ≠ none ∧
      ∀ t u, CString.twoTokens d (CString.strncpy n s) = some (some (t, u)) → P t u) ↔
      FitsParts n d s P := by
  have hended : (CString.strncpy n s).ended = true ↔ s.length < n := decide_eq_true_iff
  have htext : (CString.strncpy n s).text = s.take n := rfl
  unfold FitsParts
  rw [CString.twoTokens_eq, htext]
  rcases htok : CString.tokens d (s.take n) with _ | ⟨t, _ | ⟨u, ts⟩⟩
  · by_cases hlen : s.length < n <;> simp [hended, hlen]
  · by_cases hlen : s.length < n <;> simp [hended, hlen]
  · by_cases hend : s.length < n ∨ ts ≠ [] ∨ (s.take n).getLast? = some d
    · have hfits : s.length < n ∨ ∃ t' u' ts', t :: u :: ts = t' :: u' :: ts' ∧
          (ts' ≠ [] ∨ (s.take n).getLast? = some d) :=
        hend.imp_right fun h => ⟨t, u, ts, rfl, h⟩
      simp only [hended, hend, if_true, hfits, true_and]
      constructor
      · rintro ⟨-, h⟩ t' u' ts' heq
        cases heq
        exact h t u rfl
      · exact fun h => ⟨by simp, fun t' u' heq => by cases heq; exact h t u ts rfl⟩
    · have hfits : ¬ (s.length < n ∨ ∃ t' u' ts', t :: u :: ts = t' :: u' :: ts' ∧
          (ts' ≠ [] ∨ (s.take n).getLast? = some d)) := by
        rintro (h | ⟨t', u', ts', heq, h⟩)
        · exact hend (.inl h)
        · cases heq
          exact hend (.inr h)
      simp only [hended, hend, if_false, hfits, false_and, ne_eq, not_true_eq_false]

/-- `strtok` has taken out the minus. -/
theorem notMem_of_parts {str p1 p2 hs1 ms1 hs2 ms2 : List Char}
    (hparts : CString.twoTokens '-' (CString.strncpy 48 (CString.cut str)) = some (some (p1, p2)))
    (hfirst : CString.twoTokens ':' (CString.strncpy 24 p1) = some (some (hs1, ms1)))
    (hsecond : CString.twoTokens ':' (CString.strncpy 24 p2) = some (some (hs2, ms2))) :
    '-' ∉ hs1 ∧ '-' ∉ ms1 ∧ '-' ∉ hs2 ∧ '-' ∉ ms2 := by
  obtain ⟨ts, hts⟩ := twoTokens_strncpy hparts
  have hminus : ∀ p ∈ CString.tokens '-' ((CString.cut str).take 48), '-' ∉ p := fun p hp =>
    (CString.mem_tokens hp).2.1
  rw [hts] at hminus
  obtain ⟨hhs1, hms1⟩ := notMem_of_twoTokens hfirst (hminus p1 (by simp))
  obtain ⟨hhs2, hms2⟩ := notMem_of_twoTokens hsecond (hminus p2 (by simp))
  exact ⟨hhs1, hms1, hhs2, hms2⟩

/-- **What is read** once the parts have been found. -/
theorem parseTariffTimeStr_of_parts (isRange : Bool) {str p1 p2 hs1 ms1 hs2 ms2 : List Char}
    (hparts : CString.twoTokens '-' (CString.strncpy 48 (CString.cut str)) = some (some (p1, p2)))
    (hfirst : CString.twoTokens ':' (CString.strncpy 24 p1) = some (some (hs1, ms1)))
    (hsecond : CString.twoTokens ':' (CString.strncpy 24 p2) = some (some (hs2, ms2))) :
    parseTariffTimeStr isRange str =
      if hs1.length < 9 ∧ (isRange = false → ms1.length < 9 ∧ hs2.length < 9 ∧ ms2.length < 9) then
        if isRange then some (.error [(CString.scanLong hs1).1])
        else some (.ok ((CString.scanLong hs1).1, (CString.scanLong ms1).1, (CString.scanLong hs2).1,
          (CString.scanLong ms2).1))
      else none := by
  obtain ⟨hhs1, hms1, hhs2, hms2⟩ := notMem_of_parts hparts hfirst hsecond
  simp only [parseTariffTimeStr, hparts, hfirst, hsecond, storeNumbers_four isRange hhs1 hms1 hhs2 hms2]
  split_ifs <;> rfl

/-- **When its behaviour is defined.** -/
theorem parseTariffTimeStr_ne_none_iff (isRange : Bool) (value : List Char) :
    parseTariffTimeStr isRange value ≠ none ↔ FitsTime isRange value := by
  have hone {a b : List Char} {P : List Char → List Char → Prop} :
      (some (some (a, b)) ≠ none ∧ ∀ t u, some (some (a, b)) = some (some (t, u)) → P t u) ↔ P a b :=
    ⟨fun h => h.2 a b rfl, fun h => ⟨by simp, fun t u heq => by cases heq; exact h⟩⟩
  rw [FitsTime, ← twoTokens_iff]
  rcases hparts : CString.twoTokens '-' (CString.strncpy 48 (CString.cut value)) with
    _ | _ | ⟨p1, p2⟩
  · simp [parseTariffTimeStr, hparts]
  · simp [parseTariffTimeStr, hparts]
  rw [hone, ← twoTokens_iff]
  rcases hfirst : CString.twoTokens ':' (CString.strncpy 24 p1) with _ | _ | ⟨hs1, ms1⟩
  · simp [parseTariffTimeStr, hparts, hfirst]
  · simp [parseTariffTimeStr, hparts, hfirst]
  rw [hone, ← twoTokens_iff]
  rcases hsecond : CString.twoTokens ':' (CString.strncpy 24 p2) with _ | _ | ⟨hs2, ms2⟩
  · simp [parseTariffTimeStr, hparts, hfirst, hsecond]
  · simp [parseTariffTimeStr, hparts, hfirst, hsecond]
  rw [hone, parseTariffTimeStr_of_parts isRange hparts hfirst hsecond]
  split_ifs with hlen
  · exact iff_of_true (by simp) hlen
  · exact iff_of_true (by simp) hlen
  · exact iff_of_false (by simp) hlen

/-- What `ParseTariffTimeStr` can come to: there is no result, there are no four parts, or there are, without
a minus. -/
theorem parseTariffTimeStr_cases (str : List Char) :
    (∀ isRange, parseTariffTimeStr isRange str = none) ∨
    (∀ isRange, parseTariffTimeStr isRange str = some (.error [])) ∨
    ∃ hs1 ms1 hs2 ms2, ('-' ∉ hs1 ∧ '-' ∉ ms1 ∧ '-' ∉ hs2 ∧ '-' ∉ ms2) ∧
      ∀ isRange, parseTariffTimeStr isRange str =
        if hs1.length < 9 ∧ (isRange = false → ms1.length < 9 ∧ hs2.length < 9 ∧ ms2.length < 9) then
          if isRange then some (.error [(CString.scanLong hs1).1])
          else some (.ok ((CString.scanLong hs1).1, (CString.scanLong ms1).1, (CString.scanLong hs2).1,
            (CString.scanLong ms2).1))
        else none := by
  rcases hparts : CString.twoTokens '-' (CString.strncpy 48 (CString.cut str)) with
    _ | _ | ⟨p1, p2⟩
  · exact .inl fun _ => by simp only [parseTariffTimeStr, hparts]
  · exact .inr (.inl fun _ => by simp only [parseTariffTimeStr, hparts])
  rcases hfirst : CString.twoTokens ':' (CString.strncpy 24 p1) with _ | _ | ⟨hs1, ms1⟩
  · exact .inl fun _ => by simp only [parseTariffTimeStr, hparts, hfirst]
  · exact .inr (.inl fun _ => by simp only [parseTariffTimeStr, hparts, hfirst])
  rcases hsecond : CString.twoTokens ':' (CString.strncpy 24 p2) with _ | _ | ⟨hs2, ms2⟩
  · exact .inl fun _ => by simp only [parseTariffTimeStr, hparts, hfirst, hsecond]
  · exact .inr (.inl fun _ => by simp only [parseTariffTimeStr, hparts, hfirst, hsecond])
  obtain ⟨hhs1, hms1, hhs2, hms2⟩ := notMem_of_parts hparts hfirst hsecond
  exact .inr (.inr ⟨hs1, ms1, hs2, ms2, ⟨hhs1, hms1, hhs2, hms2⟩, fun isRange =>
    parseTariffTimeStr_of_parts isRange hparts hfirst hsecond⟩)

/-- **Only short numbers without a sign are read**, all of them or, where `errno` is `ERANGE`, at most
the first. -/
theorem parseTariffTimeStr_range {isRange : Bool} {str : List Char} :
    (∀ h1 m1 h2 m2, parseTariffTimeStr isRange str = some (.ok (h1, m1, h2, m2)) →
      isRange = false ∧ IsTimePart h1 ∧ IsTimePart m1 ∧ IsTimePart h2 ∧ IsTimePart m2) ∧
    ∀ stored, parseTariffTimeStr isRange str = some (.error stored) →
      stored = [] ∨ isRange = true ∧ ∃ h1, IsTimePart h1 ∧ stored = [h1] := by
  obtain hnone | herror | ⟨hs1, ms1, hs2, ms2, ⟨hhs1, hms1, hhs2, hms2⟩, hparse⟩ :=
    parseTariffTimeStr_cases str
  · rw [hnone]
    exact ⟨fun _ _ _ _ h => (by cases h), fun _ h => (by cases h)⟩
  · rw [herror]
    refine ⟨fun _ _ _ _ h => (by cases h), fun stored h => ?_⟩
    cases h
    exact .inl rfl
  rw [hparse]
  by_cases hlen : hs1.length < 9 ∧
      (isRange = false → ms1.length < 9 ∧ hs2.length < 9 ∧ ms2.length < 9)
  swap
  · rw [if_neg hlen]
    exact ⟨fun _ _ _ _ h => (by cases h), fun _ h => (by cases h)⟩
  rw [if_pos hlen]
  cases isRange with
  | true =>
    refine ⟨fun _ _ _ _ h => (by cases h), fun stored h => ?_⟩
    cases h
    exact .inr ⟨rfl, _, isTimePart_scanLong hhs1 hlen.1, rfl⟩
  | false =>
    obtain ⟨hms, hhs, hms'⟩ := hlen.2 rfl
    refine ⟨fun h1 m1 h2 m2 h => ?_, fun _ h => (by cases h)⟩
    cases h
    exact ⟨rfl, isTimePart_scanLong hhs1 hlen.1, isTimePart_scanLong hms1 hms,
      isTimePart_scanLong hhs2 hhs, isTimePart_scanLong hms2 hms'⟩

/-- **What is left of a result where `errno` is `ERANGE`**: the first number. -/
theorem parseTariffTimeStr_erange {str : List Char} :
    (∀ t, parseTariffTimeStr false str = some (.ok t) →
      parseTariffTimeStr true str = some (.error [t.1])) ∧
    ∀ stored, parseTariffTimeStr false str = some (.error stored) →
      parseTariffTimeStr true str = some (.error stored) := by
  obtain hnone | herror | ⟨hs1, ms1, hs2, ms2, -, hparse⟩ := parseTariffTimeStr_cases str
  · rw [hnone]
    exact ⟨fun _ h => (by cases h), fun _ h => (by cases h)⟩
  · rw [herror, herror]
    exact ⟨fun _ h => (by cases h), fun _ h => h⟩
  · rw [hparse, hparse]
    by_cases hlen : hs1.length < 9 ∧
        (false = false → ms1.length < 9 ∧ hs2.length < 9 ∧ ms2.length < 9)
    · have hfirst : hs1.length < 9 ∧
          (true = false → ms1.length < 9 ∧ hs2.length < 9 ∧ ms2.length < 9) :=
        ⟨hlen.1, fun h => (by cases h)⟩
      rw [if_pos hlen, if_pos hfirst]
      refine ⟨fun t h => ?_, fun _ h => (by cases h)⟩
      cases h
      rfl
    · rw [if_neg hlen]
      exact ⟨fun _ h => (by cases h), fun _ h => (by cases h)⟩

/-- A number without a sign and of at most eight digits is printed so. -/
theorem printInt_of_isTimePart {z : ℤ} (h : IsTimePart z) :
    (CString.printInt z).length < 9 ∧ '-' ∉ CString.printInt z ∧ ':' ∉ CString.printInt z ∧
      CString.printInt z ≠ [] := by
  obtain ⟨hlow, hhigh⟩ := h
  have hprint : CString.printInt z = Nat.toDigits 10 z.natAbs := if_neg (by omega)
  have hdigit : ∀ c ∈ CString.printInt z, c.isDigit = true := fun c hc =>
    Nat.isDigit_of_mem_toDigits (b := 10) (n := z.natAbs) (by decide) (by decide) (hprint ▸ hc)
  have hlen : (Nat.toDigits 10 z.natAbs).length ≤ 8 :=
    (Nat.length_toDigits_le_iff (by decide) (by decide)).mpr (by omega)
  refine ⟨by rw [hprint]; omega, fun hc => ?_, fun hc => ?_, hprint ▸ Nat.toDigits_ne_nil⟩
  · exact absurd (hdigit _ hc) (by decide)
  · exact absurd (hdigit _ hc) (by decide)

/-- What two calls of `strtok` find in a text that fits its array. -/
theorem twoTokens_of_lt {n : ℕ} {d : Char} {s : List Char} (hlen : s.length < n) :
    CString.twoTokens d (CString.strncpy n s) =
      some (match CString.tokens d s with
        | t :: u :: _ => some (t, u)
        | _ => none) := by
  have hbuffer : CString.strncpy n s = ⟨s, true⟩ := by
    rw [CString.strncpy, List.take_of_length_le hlen.le, decide_eq_true hlen]
  rw [hbuffer, CString.twoTokens_eq]
  simp only [true_or, if_true]
  rcases CString.tokens d s with _ | ⟨t, _ | ⟨u, ts⟩⟩ <;> rfl

/-- **A time span of short numbers is read back**, or only its first number where `errno` is
`ERANGE`. -/
theorem parseTariffTimeStr_timeText (isRange : Bool) {h1 m1 h2 m2 : ℤ} (hh1 : IsTimePart h1)
    (hm1 : IsTimePart m1) (hh2 : IsTimePart h2) (hm2 : IsTimePart m2) :
    parseTariffTimeStr isRange (timeText h1 m1 h2 m2) =
      some (if isRange then .error [h1] else .ok (h1, m1, h2, m2)) := by
  obtain ⟨la, na, ca, ea⟩ := printInt_of_isTimePart hh1
  obtain ⟨lb, nb, cb, eb⟩ := printInt_of_isTimePart hm1
  obtain ⟨lc, nc, cc, ec⟩ := printInt_of_isTimePart hh2
  obtain ⟨ld, nd, cd, ed⟩ := printInt_of_isTimePart hm2
  have hnul : ∀ z, '\x00' ∉ CString.printInt z :=
    CString.notMem_printInt (by decide) (by decide)
  have htext : timeText h1 m1 h2 m2 =
      (CString.printInt h1 ++ ':' :: CString.printInt m1) ++ '-' ::
        (CString.printInt h2 ++ ':' :: CString.printInt m2) := by
    simp [timeText]
  have hcut : CString.cut (timeText h1 m1 h2 m2) = timeText h1 m1 h2 m2 := by
    refine CString.cut_eq_self ?_
    simp [timeText, hnul]
  have hdash : CString.tokens '-' (timeText h1 m1 h2 m2) =
      [CString.printInt h1 ++ ':' :: CString.printInt m1,
        CString.printInt h2 ++ ':' :: CString.printInt m2] := by
    rw [htext, CString.tokens_cons_of_notMem (by simp) (by simp [na, nb]),
      CString.tokens_eq_singleton (by simp) (by simp [nc, nd])]
  have hcolon : ∀ a b : List Char, a ≠ [] → b ≠ [] → ':' ∉ a → ':' ∉ b →
      CString.tokens ':' (a ++ ':' :: b) = [a, b] := by
    intro a b ha hb hca hcb
    rw [CString.tokens_cons_of_notMem ha hca, CString.tokens_eq_singleton hb hcb]
  have hlen : (timeText h1 m1 h2 m2).length < 48 := by
    simp only [timeText, List.length_append, List.length_cons]
    omega
  have hlen1 : (CString.printInt h1 ++ ':' :: CString.printInt m1).length < 24 := by
    simp only [List.length_append, List.length_cons]
    omega
  have hlen2 : (CString.printInt h2 ++ ':' :: CString.printInt m2).length < 24 := by
    simp only [List.length_append, List.length_cons]
    omega
  have hfound {n : ℕ} {d : Char} {s t u : List Char} {ts : List (List Char)} (h : s.length < n)
      (htokens : CString.tokens d s = t :: u :: ts) :
      CString.twoTokens d (CString.strncpy n s) = some (some (t, u)) := by
    rw [twoTokens_of_lt h, htokens]
  rw [parseTariffTimeStr_of_parts isRange (hcut.symm ▸ hfound hlen hdash)
    (hfound hlen1 (hcolon _ _ ea eb ca cb)) (hfound hlen2 (hcolon _ _ ec ed cc cd)),
    if_pos ⟨la, fun _ => ⟨lb, lc, ld⟩⟩]
  simp only [CString.scanLong_printInt]
  split_ifs <;> rfl

/-! ## Enumerations -/

/-- `strcasecmp(value, text) == 0`. -/
def caseEq (value : List Char) (text : String) : Bool :=
  CString.foldCase value = CString.foldCase text.toList

/-- `Tariff::toString(TraffType)`. -/
def TraffType.toString : TraffType → String
  | .up => "up"
  | .down => "down"
  | .upDown => "up+down"
  | .max => "max"

/-- `Tariff::parseTraffType`. -/
def TraffType.parse (value : List Char) : TraffType :=
  if caseEq value "up" then .up
  else if caseEq value "down" then .down
  else if caseEq value "up+down" then .upDown
  else if caseEq value "max" then .max
  else .upDown

/-- `Tariff::toString(Period)`. -/
def Period.toString : Period → String
  | .day => "day"
  | .month => "month"

/-- `Tariff::parsePeriod`. -/
def Period.parse (value : List Char) : Period := if caseEq value "day" then .day else .month

/-- `Tariff::parseChangePolicy`. -/
def ChangePolicy.parse (value : List Char) : ChangePolicy :=
  if caseEq value "to_cheap" then .toCheap
  else if caseEq value "to_expensive" then .toExpensive
  else if caseEq value "deny" then .deny
  else .allow

theorem TraffType.parse_toString (t : TraffType) : TraffType.parse t.toString.toList = t := by
  cases t <;> decide

theorem Period.parse_toString (p : Period) : Period.parse p.toString.toList = p := by
  cases p <;> decide

theorem ChangePolicy.parse_toString (p : ChangePolicy) :
    ChangePolicy.parse p.toString.toList = p := by
  cases p <;> decide

end Stargazer
