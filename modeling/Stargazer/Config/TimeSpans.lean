import Stargazer.Common

set_option relaxedAutoImplicit false
set_option autoImplicit false

/-!
# Time spans of any numbers

`ParseTariffTimeStr` on a text `h:m-h:m` that was printed from any four `int`.  It looks for the minus
with `strtok`, so that the signs of hours get lost and those of minutes make it return an error, and it
copies what it finds into buffers of ten characters, so that longer numbers end in undefined behaviour,
if it comes to read them.

## Main definitions

* `Stargazer.SignedMinutes`, `Stargazer.ShortTimes`, `Stargazer.ReadTimes` — what matters of the
  numbers.

## Main results

* `Stargazer.parseTariffTimeStr_timeText_eq` — what is read of any time span.
-/

namespace Stargazer

/-! ## Numbers without their signs -/

/-- A number without its sign. -/
theorem printInt_abs_eq (z : ℤ) : CString.printInt |z| = Nat.toDigits 10 z.natAbs := by
  rw [CString.printInt, if_neg (not_lt.mpr (abs_nonneg z)), Int.natAbs_abs]

/-- The sign of a number does not matter to `strtok`. -/
theorem tokens_printInt_append (z : ℤ) (s : List Char) :
    CString.tokens '-' (CString.printInt z ++ s) = CString.tokens '-' (CString.printInt |z| ++ s) := by
  rw [printInt_abs_eq, CString.printInt]
  split_ifs
  · rw [List.cons_append]
    exact CString.tokens_append_cons '-' [] _
  · rfl

/-- The digits of a number. -/
theorem printInt_abs {z : ℤ} (h : IsInt z) :
    (CString.printInt |z|).length ≤ 10 ∧ '-' ∉ CString.printInt |z| ∧ ':' ∉ CString.printInt |z| ∧
      CString.printInt |z| ≠ [] ∧ ((CString.printInt |z|).length < 9 ↔ |z| < 10 ^ 8) := by
  have habs := printInt_abs_eq z
  have hdigit : ∀ c ∈ CString.printInt |z|, c.isDigit = true := fun c hc =>
    Nat.isDigit_of_mem_toDigits (b := 10) (n := z.natAbs) (by decide) (by decide) (habs ▸ hc)
  obtain ⟨hlow, hhigh⟩ := h
  have hten : (Nat.toDigits 10 z.natAbs).length ≤ 10 :=
    (Nat.length_toDigits_le_iff (by decide) (by decide)).mpr (by omega)
  have height : (Nat.toDigits 10 z.natAbs).length ≤ 8 ↔ z.natAbs < 10 ^ 8 :=
    Nat.length_toDigits_le_iff (by decide) (by decide)
  refine ⟨habs ▸ hten, fun hc => ?_, fun hc => ?_, habs ▸ Nat.toDigits_ne_nil, ?_⟩
  · exact absurd (hdigit _ hc) (by decide)
  · exact absurd (hdigit _ hc) (by decide)
  · rw [habs, Int.abs_eq_natAbs]
    omega

/-- A printed number is its digits, with a sign in front of them or not. -/
theorem length_printInt_le {z : ℤ} (h : IsInt z) : (CString.printInt z).length ≤ 11 := by
  have hlen := (printInt_abs h).1
  rw [printInt_abs_eq] at hlen
  rw [CString.printInt]
  split_ifs
  · rw [List.length_cons]
    omega
  · omega

/-! ## Time spans -/

/-- The minutes have a sign: `strtok` does not find them. -/
def SignedMinutes (x : ℤ × ℤ × ℤ × ℤ) : Prop := x.2.1 < 0 ∨ x.2.2.2 < 0

/-- The numbers have at most eight digits. -/
def ShortTimes (x : ℤ × ℤ × ℤ × ℤ) : Prop :=
  |x.1| < 10 ^ 8 ∧ |x.2.1| < 10 ^ 8 ∧ |x.2.2.1| < 10 ^ 8 ∧ |x.2.2.2| < 10 ^ 8

/-- The numbers that are read have at most eight digits: only the first is where `errno` is `ERANGE`. -/
def ReadTimes (isRange : Bool) (x : ℤ × ℤ × ℤ × ℤ) : Prop :=
  |x.1| < 10 ^ 8 ∧ (isRange = false → ShortTimes x)

instance (x : ℤ × ℤ × ℤ × ℤ) : Decidable (SignedMinutes x) := inferInstanceAs (Decidable (_ ∨ _))

instance (x : ℤ × ℤ × ℤ × ℤ) : Decidable (ShortTimes x) := inferInstanceAs (Decidable (_ ∧ _ ∧ _ ∧ _))

instance (isRange : Bool) (x : ℤ × ℤ × ℤ × ℤ) : Decidable (ReadTimes isRange x) :=
  inferInstanceAs (Decidable (_ ∧ (_ → _)))

/-- A text without a sign, a colon and a minute: a minute with a sign ends the part. -/
theorem tokens_part {s t : List Char} {m : ℤ} (hm : IsInt m) (hs : s ≠ []) (hminus : '-' ∉ s)
    (hcolon : ':' ∉ s) :
    (m < 0 → CString.tokens '-' (s ++ ':' :: (CString.printInt m ++ t)) =
        (s ++ [':']) :: CString.tokens '-' (CString.printInt |m| ++ t)) ∧
      (0 ≤ m → s ++ ':' :: (CString.printInt m ++ t) = s ++ ':' :: CString.printInt |m| ++ t) ∧
      CString.tokens ':' (s ++ [':']) = [s] ∧
      CString.tokens ':' (s ++ ':' :: CString.printInt |m|) = [s, CString.printInt |m|] := by
  obtain ⟨-, -, hcm, hem, -⟩ := printInt_abs hm
  refine ⟨fun hneg => ?_, fun hpos => ?_, ?_, ?_⟩
  · have hsign : CString.printInt m = '-' :: CString.printInt |m| := by
      rw [printInt_abs_eq, CString.printInt, if_pos hneg]
    have hassoc : s ++ ':' :: (CString.printInt m ++ t) =
        (s ++ [':']) ++ '-' :: (CString.printInt |m| ++ t) := by
      rw [hsign]
      simp
    rw [hassoc, CString.tokens_cons_of_notMem (by simp) (by simp [hminus])]
  · rw [abs_of_nonneg hpos]
    simp
  · rw [CString.tokens_cons_of_notMem hs hcolon]
    rfl
  · rw [CString.tokens_cons_of_notMem hs hcolon, CString.tokens_eq_singleton hem hcm]

/-- The length of a part. -/
theorem length_part_lt {h m : ℤ} (hh : IsInt h) (hm : IsInt m) :
    (CString.printInt |h| ++ ':' :: CString.printInt |m|).length < 24 := by
  have hlen := (printInt_abs hh).1
  have hlen' := (printInt_abs hm).1
  rw [List.length_append, List.length_cons]
  omega

/-- The two parts of a time span, without the signs of the hours. -/
theorem tokens_timeText {h1 m1 h2 m2 : ℤ} (hh1 : IsInt h1) (hm1 : IsInt m1) (hh2 : IsInt h2)
    (hm2 : IsInt m2) :
    ∃ s1 s2 rest, CString.tokens '-' (timeText h1 m1 h2 m2) = s1 :: s2 :: rest ∧
      s1.length < 24 ∧ s2.length < 24 ∧
      CString.tokens ':' s1 = (if m1 < 0 then [CString.printInt |h1|]
        else [CString.printInt |h1|, CString.printInt |m1|]) ∧
      (0 ≤ m1 → CString.tokens ':' s2 = (if m2 < 0 then [CString.printInt |h2|]
        else [CString.printInt |h2|, CString.printInt |m2|])) := by
  obtain ⟨la, na, ca, ea, -⟩ := printInt_abs hh1
  obtain ⟨lb, nb, -, eb, -⟩ := printInt_abs hm1
  obtain ⟨lc, nc, cc, ec, -⟩ := printInt_abs hh2
  obtain ⟨-, nd, -, ed, -⟩ := printInt_abs hm2
  have htext : CString.tokens '-' (timeText h1 m1 h2 m2) =
      CString.tokens '-' (CString.printInt |h1| ++ ':' :: (CString.printInt m1 ++ '-' ::
        (CString.printInt h2 ++ ':' :: CString.printInt m2))) := tokens_printInt_append h1 _
  obtain ⟨hneg1, hpos1, hone1, htwo1⟩ :=
    tokens_part (t := '-' :: (CString.printInt h2 ++ ':' :: CString.printInt m2)) hm1 ea na ca
  rcases lt_or_ge m1 0 with hm | hm
  · refine ⟨_, _, _, by rw [htext, hneg1 hm, CString.tokens_cons_of_notMem eb nb], ?_, ?_, ?_, fun h => by omega⟩
    · rw [List.length_append, List.length_singleton]
      omega
    · omega
    · rw [if_pos hm, hone1]
  · have hfirst : CString.tokens '-' (timeText h1 m1 h2 m2) =
        (CString.printInt |h1| ++ ':' :: CString.printInt |m1|) ::
          CString.tokens '-' (CString.printInt |h2| ++ ':' :: CString.printInt m2) := by
      rw [htext, hpos1 hm, CString.tokens_cons_of_notMem (by simp) (by simp [na, nb]), tokens_printInt_append]
    obtain ⟨hneg2, hpos2, hone2, htwo2⟩ := tokens_part (t := []) hm2 ec nc cc
    rw [List.append_nil] at hneg2 hpos2
    rcases lt_or_ge m2 0 with hm' | hm'
    · refine ⟨_, _, _, by rw [hfirst, hneg2 hm', List.append_nil, CString.tokens_eq_singleton ed nd],
        length_part_lt hh1 hm1, ?_, ?_, fun _ => ?_⟩
      · rw [List.length_append, List.length_singleton]
        omega
      · rw [if_neg (by omega), htwo1]
      · rw [if_pos hm', hone2]
    · refine ⟨_, _, _, by rw [hfirst, hpos2 hm', List.append_nil, CString.tokens_eq_singleton (by simp)
        (by simp [nc, nd])], length_part_lt hh1 hm1, length_part_lt hh2 hm2, ?_, fun _ => ?_⟩
      · rw [if_neg (by omega), htwo1]
      · rw [if_neg (by omega), htwo2]

/-- The text of a time span is copied as it is. -/
theorem twoTokens_timeText {h1 m1 h2 m2 : ℤ} (hh1 : IsInt h1) (hm1 : IsInt m1) (hh2 : IsInt h2)
    (hm2 : IsInt m2) {s1 s2 : List Char} {rest : List (List Char)}
    (htokens : CString.tokens '-' (timeText h1 m1 h2 m2) = s1 :: s2 :: rest) :
    CString.twoTokens '-' (CString.strncpy 48 (CString.cut (timeText h1 m1 h2 m2))) =
      some (some (s1, s2)) := by
  have hcut : CString.cut (timeText h1 m1 h2 m2) = timeText h1 m1 h2 m2 := by
    have hnul : ∀ z, '\x00' ∉ CString.printInt z := CString.notMem_printInt (by decide) (by decide)
    refine CString.cut_eq_self ?_
    simp [timeText, hnul]
  have hlen : (timeText h1 m1 h2 m2).length < 48 := by
    have l1 := length_printInt_le hh1
    have l2 := length_printInt_le hm1
    have l3 := length_printInt_le hh2
    have l4 := length_printInt_le hm2
    simp only [timeText, List.length_append, List.length_cons]
    omega
  rw [hcut, twoTokens_of_lt hlen, htokens]

/-- **What is read of any time span**: nothing if there is a minute with a sign; otherwise the signs of
the hours are lost, and numbers of more than eight digits do not fit the buffers they are read from. -/
theorem parseTariffTimeStr_timeText_eq (isRange : Bool) {h1 m1 h2 m2 : ℤ} (hh1 : IsInt h1)
    (hm1 : IsInt m1) (hh2 : IsInt h2) (hm2 : IsInt m2) :
    parseTariffTimeStr isRange (timeText h1 m1 h2 m2) =
      if SignedMinutes (h1, m1, h2, m2) then some (.error [])
      else if ReadTimes isRange (h1, m1, h2, m2) then
        some (if isRange then .error [|h1|] else .ok (|h1|, m1, |h2|, m2))
      else none := by
  obtain ⟨-, -, -, -, ha⟩ := printInt_abs hh1
  obtain ⟨-, -, -, -, hb⟩ := printInt_abs hm1
  obtain ⟨-, -, -, -, hc⟩ := printInt_abs hh2
  obtain ⟨-, -, -, -, hd⟩ := printInt_abs hm2
  obtain ⟨s1, s2, rest, htokens, hlen1, hlen2, hs1, hs2⟩ := tokens_timeText hh1 hm1 hh2 hm2
  have hparts := twoTokens_timeText hh1 hm1 hh2 hm2 htokens
  by_cases hm : m1 < 0
  · have hminutes : SignedMinutes (h1, m1, h2, m2) := .inl hm
    rw [if_pos hm] at hs1
    rw [if_pos hminutes]
    simp only [parseTariffTimeStr, hparts, twoTokens_of_lt hlen1, hs1]
  · rw [if_neg hm] at hs1
    have hfirst : CString.twoTokens ':' (CString.strncpy 24 s1) =
        some (some (CString.printInt |h1|, CString.printInt |m1|)) := by
      rw [twoTokens_of_lt hlen1, hs1]
    replace hs2 := hs2 (by omega)
    by_cases hm' : m2 < 0
    · have hminutes : SignedMinutes (h1, m1, h2, m2) := .inr hm'
      rw [if_pos hm'] at hs2
      rw [if_pos hminutes]
      simp only [parseTariffTimeStr, hparts, hfirst, twoTokens_of_lt hlen2, hs2]
    · have hminutes : ¬ SignedMinutes (h1, m1, h2, m2) := fun h => h.elim hm hm'
      rw [if_neg hm'] at hs2
      have hsecond : CString.twoTokens ':' (CString.strncpy 24 s2) =
          some (some (CString.printInt |h2|, CString.printInt |m2|)) := by
        rw [twoTokens_of_lt hlen2, hs2]
      have hread : ((CString.printInt |h1|).length < 9 ∧ (isRange = false →
          (CString.printInt |m1|).length < 9 ∧ (CString.printInt |h2|).length < 9 ∧
            (CString.printInt |m2|).length < 9)) ↔ ReadTimes isRange (h1, m1, h2, m2) := by
        rw [ReadTimes, ShortTimes, ha, hb, hc, hd]
        exact and_congr_right fun h => imp_congr_right fun _ => (and_iff_right h).symm
      have habs1 : |m1| = m1 := abs_of_nonneg (by omega)
      have habs2 : |m2| = m2 := abs_of_nonneg (by omega)
      rw [if_neg hminutes, parseTariffTimeStr_of_parts isRange hparts hfirst hsecond]
      by_cases hfits : ReadTimes isRange (h1, m1, h2, m2)
      · rw [if_pos (hread.mpr hfits), if_pos hfits]
        simp only [CString.scanLong_printInt, habs1, habs2]
        cases isRange <;> rfl
      · rw [if_neg (mt hread.mp hfits), if_neg hfits]

end Stargazer
