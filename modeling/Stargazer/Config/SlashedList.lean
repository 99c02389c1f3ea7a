import Stargazer.SrvConf.TariffText

set_option relaxedAutoImplicit false
set_option autoImplicit false

/-!
# Lists of the directions

`AOS2String`, `str2res` and `String2AOS` of `plugins/configuration/sgconfig/parser_tariffs.cpp`, with
everything `String2AOS` leaves behind: what it returns, what it has stored and `errno`, which `str2x`
looks at and does not clear.  In `Stargazer.SrvConf.TariffText` there is only what it has stored.

Two slips meet here.  The result of the last text is turned around, so that a list that is right is
reported as an error; and the loop ends at `DIR_NUM` elements without a look at what is left, which goes
into the element behind the array.

## Main definitions

* `Stargazer.SlashedList.string2AOS` — the list of a source, for any kind of numbers.
* `Stargazer.SlashedList.integersOf` — the integers a source consists of.
* `Stargazer.SlashedList.ReadsRight`, `Stargazer.SlashedList.RoundTrips` — what is asked for.

## Main results

* `Stargazer.SlashedList.string2AOSLoop_eq_none_iff` — when the element behind the array is used.
* `Stargazer.SlashedList.exists_fails_iff` — when an error is returned.
* `Stargazer.SlashedList.codec_right_iff` — the lists that are read right.
-/

namespace Stargazer

namespace SlashedList

/-! ## The code -/

/-- `str2res` for `int`. -/
def str2res (divisor : ℤ) (erange : Bool) (source : List Char) : Option ℤ × Bool :=
  let r := str2x 32 erange source
  (r.1.map fun value => value.toInt.tdiv divisor, r.2)

/-- `str2res` for `double`, which does not look at `errno`. -/
def str2resDouble (d : DoubleText) (divisor : Money) (erange : Bool) (source : List Char) :
    Option Money × Bool :=
  ((d.scan source).map (· / divisor), erange)

/-- What `String2AOS` leaves behind. -/
structure Read (α : Type) where
  /-- What is returned. -/
  ok : Bool
  /-- The values of the first elements, one after another; the other elements are as they were. -/
  stored : List α
  /-- Is `errno` `ERANGE`? -/
  erange : Bool
  deriving DecidableEq

section Loop

variable {α : Type} (conv : Bool → List Char → Option α × Bool)

/-- The loop of `String2AOS` with `left` elements before the end of the array, and what is behind the
loop; `none` is the element behind the array. -/
def string2AOSLoop : ℕ → List Char → Bool → Option (Read α)
  | 0, _, _ => none
  | left + 1, rest, erange =>
    if '/' ∈ rest then
      match conv erange (rest.takeWhile (· ≠ '/')) with
      | (none, erange) => some ⟨false, [], erange⟩
      | (some v, erange) =>
        (string2AOSLoop left (rest.dropWhile (· ≠ '/')).tail erange).map fun r =>
          { r with stored := v :: r.stored }
    else
      match conv erange rest with
      | (none, erange) => some ⟨true, [], erange⟩
      | (some v, erange) => some ⟨false, [v], erange⟩

/-- `String2AOS` for the elements of all directions. -/
def string2AOS (erange : Bool) (source : List Char) : Option (Read α) :=
  string2AOSLoop conv 10 source erange

end Loop

/-- `AOS2String` for `int` fields with the multiplier `1`. -/
def fieldText (field : Dir → BitVec 32) : List Char :=
  aos2String fun i => CString.printInt ((field i).toInt * 1)

/-! ## What is asked for -/

/-- The number of some digits. -/
def naturalOf (digits : List Char) : Option ℤ :=
  if digits ≠ [] ∧ digits.all Char.isDigit then some (Nat.ofDigitChars 10 digits 0 : ℕ) else none

/-- The `int` a text is: digits with a sign in front of them or none. -/
def integerOf (t : List Char) : Option ℤ :=
  let z :=
    match t with
    | '-' :: digits => (naturalOf digits).map fun n => -n
    | '+' :: digits => naturalOf digits
    | digits => naturalOf digits
  z.filter fun z => IsInt z

/-- The texts between the slashes. -/
abbrev tokens (source : List Char) : List (List Char) := source.splitOn '/'

/-- The integers of a source that consists of at most `DIR_NUM` of them with slashes between them. -/
def integersOf (source : List Char) : Option (List ℤ) :=
  if (tokens source).length ≤ 10 ∧ ∀ t ∈ tokens source, (integerOf t).isSome = true then
    some ((tokens source).filterMap integerOf)
  else none

/-- **A source is read right**: `String2AOS` returns, and it returns `true` iff the source is a list of
integers, which then are what is stored. -/
def ReadsRight (erange : Bool) (source : List Char) : Prop :=
  ∃ r, string2AOS (str2res 1) erange source = some r ∧
    (r.ok = true ↔ ∃ zs, integersOf source = some zs) ∧
    ∀ zs, integersOf source = some zs → r.stored = zs

/-- **A field is read back**: `String2AOS` returns `true`, and every element is stored. -/
def RoundTrips (erange : Bool) (field : Dir → BitVec 32) : Prop :=
  ∃ r, string2AOS (str2res 1) erange (fieldText field) = some r ∧ r.ok = true ∧
    r.stored = (List.finRange 10).map fun i => (field i).toInt

/-! ## Between the slashes -/

theorem tokens_ne_nil (source : List Char) : tokens source ≠ [] := List.splitOn_ne_nil '/' source

/-- Without a slash there is one text; otherwise the first one is in front of it. -/
theorem tokens_cases (rest : List Char) :
    ('/' ∉ rest ∧ tokens rest = [rest]) ∨
      ('/' ∈ rest ∧ tokens rest =
        rest.takeWhile (· ≠ '/') :: tokens (rest.dropWhile (· ≠ '/')).tail) := by
  by_cases hslash : '/' ∈ rest
  · refine .inr ⟨hslash, ?_⟩
    obtain ⟨before, after, rfl, hbefore⟩ := List.eq_append_cons_of_mem hslash
    have hall : ∀ c ∈ before, decide (c ≠ '/') = true := by
      intro c hc
      exact decide_eq_true fun heq => hbefore (heq ▸ hc)
    have htake : (before ++ '/' :: after).takeWhile (· ≠ '/') = before := by
      rw [List.takeWhile_append_of_pos hall, List.takeWhile_cons_of_neg (by decide), List.append_nil]
    have hdrop : (before ++ '/' :: after).dropWhile (· ≠ '/') = '/' :: after := by
      rw [List.dropWhile_append_of_pos hall, List.dropWhile_cons_of_neg (by decide)]
    rw [htake, hdrop, List.tail_cons]
    exact List.splitOn_append_cons_self_of_not_mem hbefore after
  · exact .inl ⟨hslash, List.splitOn_eq_singleton hslash⟩

/-! ## The loop -/

section Loop

variable {α : Type} {conv : Bool → List Char → Option α × Bool}

/-- The conversion fails. -/
def Refused (conv : Bool → List Char → Option α × Bool) (erange : Bool) (t : List Char) : Prop :=
  (conv erange t).1 = none

/-- A conversion that succeeds leaves `errno` as it was. -/
def Keeps (conv : Bool → List Char → Option α × Bool) : Prop :=
  ∀ erange t v, (conv erange t).1 = some v → (conv erange t).2 = erange

/-- A number that is read. -/
theorem Keeps.eq_some (hkeep : Keeps conv) {erange : Bool} {t : List Char}
    (h : ¬ Refused conv erange t) : ∃ v, conv erange t = (some v, erange) := by
  obtain ⟨v, hv⟩ := Option.ne_none_iff_exists'.1 h
  exact ⟨v, Prod.ext hv (hkeep erange t v hv)⟩

/-- A number that is not read. -/
theorem Refused.eq_none {erange : Bool} {t : List Char} (h : Refused conv erange t) :
    conv erange t = (none, (conv erange t).2) := Prod.ext h rfl

/-- **When an error is returned**: at a text that is no number before the last one, or at the end of
the list after a last text that is a number.

**Proof sketch.** Induction on the elements that are left. -/
theorem exists_fails_iff (hkeep : Keeps conv) (left : ℕ) (rest : List Char) (erange : Bool) :
    (∃ r, string2AOSLoop conv left rest erange = some r ∧ r.ok = false) ↔
      (∃ t ∈ (tokens rest).dropLast.take left, Refused conv erange t) ∨
        ((tokens rest).length ≤ left ∧
          ¬ Refused conv erange ((tokens rest).getLast (tokens_ne_nil rest))) := by
  induction left generalizing rest with
  | zero =>
    have hlen := List.length_pos_iff.2 (tokens_ne_nil rest)
    simp only [string2AOSLoop, List.take_zero, List.not_mem_nil, false_and, exists_false, false_or,
      reduceCtorEq, false_iff]
    rintro ⟨hle, -⟩
    omega
  | succ left ih =>
    rcases tokens_cases rest with ⟨hslash, htokens⟩ | ⟨hslash, htokens⟩
    · simp only [htokens, string2AOSLoop, hslash, if_false]
      by_cases href : Refused conv erange rest
      · rw [href.eq_none]
        simp [href]
      · obtain ⟨v, hv⟩ := hkeep.eq_some href
        rw [hv]
        simp [href]
    · have hne := tokens_ne_nil (rest.dropWhile (· ≠ '/')).tail
      simp only [htokens, string2AOSLoop, hslash, if_true, List.dropLast_cons_of_ne_nil hne,
        List.take_succ_cons, List.mem_cons, List.getLast_cons hne, List.length_cons]
      by_cases href : Refused conv erange (rest.takeWhile (· ≠ '/'))
      · rw [href.eq_none]
        refine iff_of_true ⟨_, rfl, rfl⟩ (.inl ⟨_, .inl rfl, href⟩)
      · obtain ⟨v, hv⟩ := hkeep.eq_some href
        have hih := ih (rest.dropWhile (· ≠ '/')).tail
        rw [hv]
        simp only [Option.map_eq_some_iff]
        constructor
        · rintro ⟨r, ⟨r', hr', rfl⟩, hok⟩
          rcases hih.1 ⟨r', hr', hok⟩ with ⟨t, ht, hreft⟩ | ⟨hlen, hlast⟩
          · exact .inl ⟨t, .inr ht, hreft⟩
          · exact .inr ⟨by omega, hlast⟩
        · rintro (⟨t, rfl | ht, hreft⟩ | ⟨hlen, hlast⟩)
          · exact absurd hreft href
          · obtain ⟨r', hr', hok⟩ := hih.2 (.inl ⟨t, ht, hreft⟩)
            exact ⟨_, ⟨r', hr', rfl⟩, hok⟩
          · obtain ⟨r', hr', hok⟩ := hih.2 (.inr ⟨by omega, hlast⟩)
            exact ⟨_, ⟨r', hr', rfl⟩, hok⟩

/-- **When the element behind the array is used**: if there are more texts than elements, and all that
stand for an element are numbers. -/
theorem string2AOSLoop_eq_none_iff (hkeep : Keeps conv) (left : ℕ) (rest : List Char) (erange : Bool) :
    string2AOSLoop conv left rest erange = none ↔
      left < (tokens rest).length ∧ ∀ t ∈ (tokens rest).take left, ¬ Refused conv erange t := by
  induction left generalizing rest with
  | zero =>
    have hlen := List.length_pos_iff.2 (tokens_ne_nil rest)
    exact iff_of_true rfl ⟨hlen, by simp⟩
  | succ left ih =>
    rcases tokens_cases rest with ⟨hslash, htokens⟩ | ⟨hslash, htokens⟩
    · simp only [htokens, string2AOSLoop, hslash, if_false, List.length_singleton]
      refine iff_of_false ?_ fun h => by omega
      split <;> exact Option.some_ne_none _
    · simp only [htokens, string2AOSLoop, hslash, if_true, List.take_succ_cons, List.mem_cons,
        List.length_cons]
      by_cases href : Refused conv erange (rest.takeWhile (· ≠ '/'))
      · rw [href.eq_none]
        exact iff_of_false (Option.some_ne_none _) fun h => h.2 _ (.inl rfl) href
      · obtain ⟨v, hv⟩ := hkeep.eq_some href
        rw [hv]
        simp only [Option.map_eq_none_iff, ih]
        constructor
        · rintro ⟨hlen, hall⟩
          refine ⟨by omega, ?_⟩
          rintro t (rfl | ht)
          · exact href
          · exact hall t ht
        · rintro ⟨hlen, hall⟩
          exact ⟨by omega, fun t ht => hall t (.inr ht)⟩

/-- **A list of numbers is stored**, and an error is returned. -/
theorem string2AOSLoop_of_accepted (hkeep : Keeps conv) (left : ℕ) (rest : List Char) (erange : Bool)
    (hlen : (tokens rest).length ≤ left) (hall : ∀ t ∈ tokens rest, ¬ Refused conv erange t) :
    string2AOSLoop conv left rest erange =
      some ⟨false, (tokens rest).filterMap fun t => (conv erange t).1, erange⟩ := by
  induction left generalizing rest with
  | zero => exact absurd (List.length_pos_iff.2 (tokens_ne_nil rest)) (by omega)
  | succ left ih =>
    rcases tokens_cases rest with ⟨hslash, htokens⟩ | ⟨hslash, htokens⟩
    · rw [htokens] at hall
      obtain ⟨v, hv⟩ := hkeep.eq_some (hall rest List.mem_cons_self)
      simp only [string2AOSLoop, hslash, if_false, htokens, hv, List.filterMap_cons, List.filterMap_nil]
    · rw [htokens] at hlen hall
      obtain ⟨v, hv⟩ := hkeep.eq_some (hall _ List.mem_cons_self)
      have hih := ih (rest.dropWhile (· ≠ '/')).tail (by rw [List.length_cons] at hlen; omega)
        fun t ht => hall t (List.mem_cons_of_mem _ ht)
      simp only [string2AOSLoop, hslash, if_true, htokens, hv, List.filterMap_cons, hih, Option.map_some]

/-- **What is stored** is what `Stargazer.string2AOS` says. -/
theorem stored_eq (hkeep : Keeps conv) {left : ℕ} {rest : List Char} {erange : Bool} {r : Read α}
    (h : string2AOSLoop conv left rest erange = some r) :
    ∃ vs, Stargazer.string2AOS (fun t => (conv erange t).1) left (tokens rest) = some vs ∧
      vs.reduceOption = r.stored := by
  induction left generalizing rest r with
  | zero => cases h
  | succ left ih =>
    rcases tokens_cases rest with ⟨hslash, htokens⟩ | ⟨hslash, htokens⟩
    · simp only [string2AOSLoop, hslash, if_false] at h
      refine ⟨[(conv erange rest).1], by rw [htokens]; rfl, ?_⟩
      split at h
      all_goals
        next hconv =>
          obtain rfl := Option.some.inj h
          rw [hconv]
          rfl
    · obtain ⟨t', ts, hts⟩ := List.exists_cons_of_ne_nil (tokens_ne_nil (rest.dropWhile (· ≠ '/')).tail)
      simp only [string2AOSLoop, hslash, if_true] at h
      by_cases href : Refused conv erange (rest.takeWhile (· ≠ '/'))
      · rw [href.eq_none] at h
        obtain rfl := Option.some.inj h
        refine ⟨[], ?_, rfl⟩
        have hnone : (conv erange (rest.takeWhile (· ≠ '/'))).1 = none := href
        rw [htokens, hts]
        simp only [Stargazer.string2AOS, hnone]
      · obtain ⟨v, hv⟩ := hkeep.eq_some href
        rw [hv] at h
        obtain ⟨r', hr', rfl⟩ := Option.map_eq_some_iff.1 h
        obtain ⟨vs, hvs, hstored⟩ := ih hr'
        rw [hts] at hvs
        refine ⟨some v :: vs, ?_, ?_⟩
        · rw [htokens, hts]
          simp only [Stargazer.string2AOS, hv, hvs, Option.map_some]
        · exact congrArg (v :: ·) hstored

end Loop

/-! ## Integers -/

/-- The signs. -/
def IsSign (sign : List Char) : Prop := sign = [] ∨ sign = ['-'] ∨ sign = ['+']

theorem naturalOf_eq_some {digits : List Char} {n : ℤ} (h : naturalOf digits = some n) :
    digits ≠ [] ∧ (∀ c ∈ digits, c.isDigit = true) ∧ n = (Nat.ofDigitChars 10 digits 0 : ℕ) := by
  unfold naturalOf at h
  split_ifs at h with hd
  exact ⟨hd.1, List.all_eq_true.1 hd.2, (Option.some.inj h).symm⟩

/-- An integer is made of a sign and digits. -/
theorem integerOf_eq_some {t : List Char} {z : ℤ} (h : integerOf t = some z) :
    ∃ sign digits, IsSign sign ∧ t = sign ++ digits ∧ digits ≠ [] ∧
      (∀ c ∈ digits, c.isDigit = true) ∧ IsInt z ∧
      z = if sign = ['-'] then -((Nat.ofDigitChars 10 digits 0 : ℕ) : ℤ)
        else (Nat.ofDigitChars 10 digits 0 : ℕ) := by
  unfold integerOf at h
  obtain ⟨h, hint⟩ := Option.filter_eq_some_iff.1 h
  have hint := of_decide_eq_true hint
  split at h
  · obtain ⟨n, hn, rfl⟩ := Option.map_eq_some_iff.1 h
    obtain ⟨hne, hall, rfl⟩ := naturalOf_eq_some hn
    exact ⟨['-'], _, .inr (.inl rfl), rfl, hne, hall, hint, rfl⟩
  · obtain ⟨hne, hall, rfl⟩ := naturalOf_eq_some h
    exact ⟨['+'], _, .inr (.inr rfl), rfl, hne, hall, hint, rfl⟩
  · obtain ⟨hne, hall, rfl⟩ := naturalOf_eq_some h
    exact ⟨[], _, .inl rfl, rfl, hne, hall, hint, rfl⟩

/-- **An integer is what `strtol` reads**, and it is in the range of `int`. -/
theorem scanLong_of_integerOf {t : List Char} {z : ℤ} (h : integerOf t = some z) :
    (CString.scanLong t).1 = z ∧ IsInt z := by
  obtain ⟨sign, digits, hsign, rfl, hne, hall, hint, rfl⟩ := integerOf_eq_some h
  refine ⟨?_, hint⟩
  simp only [CString.scanLong, CString.cut_digits hall hsign, CString.scanInt_digits hne hall hsign,
    decide_eq_true_eq]

/-- A printed integer is one. -/
theorem integerOf_printInt {z : ℤ} (h : IsInt z) : integerOf (CString.printInt z) = some z := by
  have hall : ∀ c ∈ Nat.toDigits 10 z.natAbs, c.isDigit = true := fun c hc =>
    Nat.isDigit_of_mem_toDigits (by decide) (by decide) hc
  have hnatural : naturalOf (Nat.toDigits 10 z.natAbs) = some (z.natAbs : ℤ) := by
    rw [naturalOf, if_pos ⟨Nat.toDigits_ne_nil, List.all_eq_true.2 hall⟩, Nat.ofDigitChars_ten_toDigits]
  have hrange : Option.filter (fun z => decide (IsInt z)) (some z) = some z :=
    Option.filter_some_pos (decide_eq_true h)
  unfold CString.printInt
  split_ifs with hz
  · have habs : -(z.natAbs : ℤ) = z := by omega
    simp only [integerOf, hnatural, Option.map_some, habs, hrange]
  · have habs : (z.natAbs : ℤ) = z := by omega
    obtain ⟨c, l, hcons, hc⟩ := CString.toDigits_eq_cons z.natAbs
    rw [hcons] at hnatural ⊢
    have hcminus : c ≠ '-' := fun h => absurd hc (by rw [h]; decide)
    have hcplus : c ≠ '+' := fun h => absurd hc (by rw [h]; decide)
    unfold integerOf
    split
    next heq => exact absurd (List.cons.inj heq).1 hcminus
    next heq => exact absurd (List.cons.inj heq).1 hcplus
    next => simp only [hnatural, habs, hrange]

theorem keeps_str2res (divisor : ℤ) : Keeps (str2res divisor) := by
  intro erange t v h
  simp only [str2res, str2x_eq, Option.map_eq_some_iff] at h ⊢
  obtain ⟨x, hx, -⟩ := h
  split_ifs at hx ⊢ with hrange
  obtain ⟨-, hr⟩ := not_or.mp hrange
  exact (Bool.not_eq_true _ ▸ hr).symm

/-- Every number is refused once `errno` is `ERANGE`, and otherwise those beyond the range of `long`. -/
theorem refused_str2res_iff (divisor : ℤ) (erange : Bool) (t : List Char) :
    Refused (str2res divisor) erange t ↔
      erange = true ∨ CString.clampLong (CString.scanLong t).1 ≠ (CString.scanLong t).1 := by
  rw [ne_eq, clampLong_eq_iff, or_comm]
  simp only [Refused, str2res, str2x_eq, Option.map_eq_none_iff]
  split_ifs with hrange
  · exact iff_of_true rfl hrange
  · exact iff_of_false (by simp) hrange

/-- An integer is read. -/
theorem str2res_of_integerOf {t : List Char} {z : ℤ} (h : integerOf t = some z) :
    str2res 1 false t = (some z, false) := by
  obtain ⟨hscan, hint⟩ := scanLong_of_integerOf h
  have htime : IsTime z := ⟨by have := hint.1; omega, by have := hint.2; omega⟩
  simp [str2res, str2x_eq, hscan, htime, toInt_ofInt_of_isInt hint]

/-! ## The codec -/

theorem integersOf_eq_some {source : List Char} {zs : List ℤ} (h : integersOf source = some zs) :
    (tokens source).length ≤ 10 ∧ (∀ t ∈ tokens source, (integerOf t).isSome = true) ∧
      zs = (tokens source).filterMap integerOf := by
  unfold integersOf at h
  split_ifs at h with hall
  exact ⟨hall.1, hall.2, (Option.some.inj h).symm⟩

/-- There is at least one integer. -/
theorem ne_nil_of_integersOf {source : List Char} {zs : List ℤ} (h : integersOf source = some zs) :
    zs ≠ [] := by
  obtain ⟨-, hall, rfl⟩ := integersOf_eq_some h
  obtain ⟨t, ts, hts⟩ := List.exists_cons_of_ne_nil (tokens_ne_nil source)
  rw [hts] at hall ⊢
  obtain ⟨z, hz⟩ := Option.isSome_iff_exists.1 (hall t List.mem_cons_self)
  rw [List.filterMap_cons, hz]
  exact List.cons_ne_nil _ _

/-- **A list of integers is stored, and an error is returned.** -/
theorem string2AOS_of_integersOf {source : List Char} {zs : List ℤ} (h : integersOf source = some zs) :
    string2AOS (str2res 1) false source = some ⟨false, zs, false⟩ := by
  obtain ⟨hlen, hall, rfl⟩ := integersOf_eq_some h
  have hread : ∀ t ∈ tokens source, str2res 1 false t = (integerOf t, false) := by
    intro t ht
    obtain ⟨z, hz⟩ := Option.isSome_iff_exists.1 (hall t ht)
    rw [str2res_of_integerOf hz, hz]
  rw [string2AOS, string2AOSLoop_of_accepted (keeps_str2res 1) 10 source false hlen]
  · have hvalues : ((tokens source).filterMap fun t => (str2res 1 false t).1) =
        (tokens source).filterMap integerOf := by
      refine List.filterMap_congr fun t ht => ?_
      rw [hread t ht]
    rw [hvalues]
  · intro t ht href
    have hnone : (str2res 1 false t).1 = none := href
    rw [hread t ht] at hnone
    have hsome := hall t ht
    rw [show integerOf t = none from hnone] at hsome
    cases hsome

/-- With `errno` at `ERANGE` nothing is stored. -/
theorem stored_of_erange {divisor : ℤ} {left : ℕ} {source : List Char} {r : Read ℤ}
    (h : string2AOSLoop (str2res divisor) left source true = some r) : r.stored = [] := by
  have href (t : List Char) : Refused (str2res divisor) true t :=
    (refused_str2res_iff divisor true t).2 (.inl rfl)
  cases left with
  | zero => cases h
  | succ left =>
    simp only [string2AOSLoop] at h
    split_ifs at h
    · rw [(href _).eq_none] at h
      obtain rfl := Option.some.inj h
      rfl
    · rw [(href _).eq_none] at h
      obtain rfl := Option.some.inj h
      rfl

/-- A list of integers is never read right. -/
theorem not_readsRight_of_integersOf {erange : Bool} {source : List Char} {zs : List ℤ}
    (h : integersOf source = some zs) : ¬ ReadsRight erange source := by
  rintro ⟨r, hr, hok, hstored⟩
  cases erange with
  | false =>
    rw [string2AOS_of_integersOf h] at hr
    obtain rfl := Option.some.inj hr
    exact absurd (hok.2 ⟨zs, h⟩) Bool.false_ne_true
  | true => exact ne_nil_of_integersOf h ((hstored zs h).symm.trans (stored_of_erange hr))

/-- A field is printed as a list of integers. -/
theorem integersOf_fieldText (field : Dir → BitVec 32) :
    integersOf (fieldText field) = some ((List.finRange 10).map fun i => (field i).toInt) := by
  have hread (i : Dir) : integerOf (CString.printInt ((field i).toInt * 1)) = some (field i).toInt := by
    rw [Int.mul_one]
    exact integerOf_printInt (isInt_toInt (field i))
  have htokens : tokens (fieldText field) =
      (List.finRange 10).map fun i => CString.printInt ((field i).toInt * 1) := by
    refine splitOn_aos2String (fun i hi => ?_) fun i => CString.notMem_printInt (by decide) (by decide) _
    have hempty := hread i
    rw [hi] at hempty
    cases hempty
  have hall : ∀ t ∈ tokens (fieldText field), (integerOf t).isSome = true := by
    rw [htokens, List.forall_mem_map]
    intro i _
    rw [hread]
    rfl
  have hlen : (tokens (fieldText field)).length ≤ 10 := by
    rw [htokens, List.length_map, List.length_finRange]
  unfold integersOf
  rw [if_pos ⟨hlen, hall⟩, htokens, List.filterMap_map]
  have hfun : integerOf ∘ (fun i : Dir => CString.printInt ((field i).toInt * 1)) =
      fun i => some (field i).toInt := funext hread
  rw [hfun, List.filterMap_eq_map']

/-- **When the codec does its work.**  No field is read back, and no list of integers is read right; a
source that is something else is, if a text before the last one is refused, or if there are at most
`DIR_NUM` texts and the last one is not refused. -/
theorem codec_right_iff (erange : Bool) (field : Dir → BitVec 32) (source : List Char) :
    ¬ RoundTrips erange field ∧
      (ReadsRight erange source ↔
        integersOf source = none ∧
          ((∃ t ∈ (tokens source).dropLast.take 10, Refused (str2res 1) erange t) ∨
            ((tokens source).length ≤ 10 ∧
              ¬ Refused (str2res 1) erange ((tokens source).getLast (tokens_ne_nil source))))) := by
  constructor
  · rintro ⟨r, hr, hok, hstored⟩
    have hints := integersOf_fieldText field
    refine not_readsRight_of_integersOf hints ⟨r, hr, iff_of_true hok ⟨_, hints⟩, fun zs hzs => ?_⟩
    exact hstored.trans (Option.some.inj (hints.symm.trans hzs))
  · rw [← exists_fails_iff (keeps_str2res 1)]
    cases hints : integersOf source with
    | some zs => exact iff_of_false (not_readsRight_of_integersOf hints) fun h => by cases h.1
    | none =>
      constructor
      · rintro ⟨r, hr, hok, -⟩
        refine ⟨rfl, r, hr, Bool.eq_false_iff.2 fun htrue => ?_⟩
        obtain ⟨zs, hzs⟩ := hok.1 htrue
        cases hints.symm.trans hzs
      · rintro ⟨-, r, hr, hfail⟩
        refine ⟨r, hr, iff_of_false (by rw [hfail]; exact Bool.false_ne_true) ?_, fun zs hzs => ?_⟩
        · rintro ⟨zs, hzs⟩
          cases hints.symm.trans hzs
        · cases hints.symm.trans hzs

/-- **A list of one integer** is stored and reported as an error. -/
theorem one_integer_reported : ¬ ReadsRight false "5".toList := by
  have htokens : tokens "5".toList = ["5".toList] := List.splitOn_eq_singleton (by decide)
  have hprint : CString.printInt 5 = "5".toList := by decide
  have hfive : integerOf "5".toList = some 5 := by
    rw [← hprint]
    exact integerOf_printInt ⟨by omega, by omega⟩
  have hints : integersOf "5".toList = some [5] := by
    rw [integersOf, htokens, if_pos]
    · rw [List.filterMap_cons, hfive, List.filterMap_nil]
    · refine ⟨by decide, fun t ht => ?_⟩
      rw [List.mem_singleton.1 ht, hfive]
      rfl
  exact not_readsRight_of_integersOf hints

end SlashedList

end Stargazer
