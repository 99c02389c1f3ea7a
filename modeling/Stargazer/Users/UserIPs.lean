import Stargazer.Common
import Mathlib.Tactic.FinCases

set_option relaxedAutoImplicit false
set_option autoImplicit false

/-!
# Address lists as texts

`UserIPs::toString` and `UserIPs::parse` (`include/stg/user_ips.h`), with the functions of the C
library they call.  A list is printed as its addresses and read as addresses with masks; an address
without a mask stands for itself only.

## Main definitions

* `Stargazer.inetAddr` — `inet_addr`.
* `Stargazer.UserIPs.toString`, `Stargazer.UserIPs.parse`.
* `Stargazer.UserIPs.parseErrno` — what `UserIPs::parse` leaves of `errno`.

## Main results

* `Stargazer.inetAddr_inetNtoString` — a printed address is read back.
* `Stargazer.UserIPs.parse_toString` — the list that is read from a printed list.
* `Stargazer.UserIPs.find_reread_iff` — the lists whose members survive.
-/

namespace Stargazer

/-- `INADDR_NONE`, the address 255.255.255.255. -/
def inaddrNone : IP := BitVec.allOnes 32

/-! ## The functions of the C library -/

/-- A hexadecimal digit. -/
def isHexDigit (c : Char) : Bool := c.isDigit || c.toLower ∈ ['a', 'b', 'c', 'd', 'e', 'f']

/-- The value of a hexadecimal digit. -/
def hexValue (c : Char) : ℕ :=
  if c.isDigit then c.toNat - '0'.toNat else c.toLower.toNat - 'a'.toNat + 10

/-- An octal digit. -/
def isOctDigit (c : Char) : Bool := c ∈ ['0', '1', '2', '3', '4', '5', '6', '7']

/-- A number as it is written in C, and the text behind it. -/
def scanNumber (s : List Char) : Option (ℕ × List Char) :=
  let hex := s.drop 2
  if s.head?.any Char.isDigit = false then none
  else if s.head? = some '0' ∧ s.tail.head?.any (· ∈ ['x', 'X']) ∧ hex.head?.any isHexDigit then
    some ((hex.takeWhile isHexDigit).foldl (fun n c => 16 * n + hexValue c) 0,
      hex.dropWhile isHexDigit)
  else if s.head? = some '0' then
    some (Nat.ofDigitChars 8 (s.takeWhile isOctDigit) 0, s.dropWhile isOctDigit)
  else some (Nat.ofDigitChars 10 (s.takeWhile Char.isDigit) 0, s.dropWhile Char.isDigit)

/-- Numbers with at most `n` points between them: those before the last one, the last one and the
text behind it. -/
def scanParts : ℕ → List Char → Option (List ℕ × ℕ × List Char)
  | 0, s => (scanNumber s).map fun p => ([], p.1, p.2)
  | n + 1, s =>
    match scanNumber s with
    | none => none
    | some (v, '.' :: rest) => (scanParts n rest).map fun p => (v :: p.1, p.2)
    | some (v, rest) => some ([], v, rest)

/-- `inet_addr`: up to four numbers with points between them, of which the last one fills the bytes
that are left.  Blanks may follow. -/
def inetAddr (s : List Char) : IP :=
  match scanParts 3 (CString.cut s) with
  | none => inaddrNone
  | some (parts, last, rest) =>
    if rest.head?.all CString.isSpace ∧ (∀ v ∈ parts, v < 256) ∧ last < 256 ^ (4 - parts.length) then
      htonl (BitVec.ofNat 32
        (parts.foldl (fun v p => v * 256 + p) 0 * 256 ^ (4 - parts.length) + last))
    else inaddrNone

/-! ## Address lists -/

/-- What the functions find when they are called. -/
structure IPEnv where
  /-- `0xFFffFFff << 32`. -/
  shifted : BitVec 32
  /-- Is `errno` already `ERANGE`? -/
  erange : Bool

namespace UserIPs

/-- `UserIPs::toString`. -/
def toString : UserIPs → String
  | [] => ""
  | im :: ips =>
    if im.ip = 0 then "*"
    else ips.foldl (fun res im => res ++ "," ++ inetNtoString im.ip) (inetNtoString im.ip)

section Source

variable (env : IPEnv)

/-- The number behind the address of an entry. -/
def parseMask (ip : IP) (strMask : List Char) : Option IPMask :=
  match (str2x 32 env.erange strMask).1 with
  | none => none
  | some m =>
    if m.toNat > 32 then none
    else if ip &&& calcMask env.shifted m.toNat ≠ ip then none
    else some ⟨ip, m.toNat⟩

/-- One round of the second loop of `UserIPs::parse` behind `strcpy`, `none` where it returns. -/
def parseEntry (entry : List Char) : Option IPMask :=
  match CString.tokens '/' entry with
  | [] => none
  | strIp :: rest =>
    if inetAddr strIp = inaddrNone then none
    else
      match rest with
      | [] => some ⟨inetAddr strIp, 32⟩
      | strMask :: _ => parseMask env (inetAddr strIp) strMask

/-- The second loop of `UserIPs::parse`, `none` where an entry does not fit into `str`. -/
def parseEntries : List (List Char) → Option UserIPs
  | [] => some []
  | e :: es =>
    if 128 ≤ e.length then none
    else
      match parseEntry env e with
      | none => some []
      | some im => (parseEntries es).map (im :: ·)

/-- `UserIPs::parse`, `none` where it writes behind `str`. -/
def parse (source : List Char) : Option UserIPs :=
  if source = [] then some []
  else if source = ['*'] then some any
  else parseEntries env (CString.tokens ',' (CString.cut source))

/-- `errno` after a round: only the number behind an address is read by a function that sets it. -/
def entryErrno (entry : List Char) : Bool :=
  match CString.tokens '/' entry with
  | strIp :: strMask :: _ =>
    if inetAddr strIp = inaddrNone then env.erange else (str2x 32 env.erange strMask).2
  | _ => env.erange

/-- `errno` after the loop. -/
def entriesErrno : List (List Char) → Bool
  | [] => env.erange
  | e :: es =>
    match parseEntry env e with
    | none => entryErrno env e
    | some _ => entriesErrno es

/-- Is `errno` `ERANGE` after `UserIPs::parse`? -/
def parseErrno (source : List Char) : Bool :=
  if source = [] then env.erange
  else if source = ['*'] then env.erange
  else entriesErrno env (CString.tokens ',' (CString.cut source))

end Source

end UserIPs

/-! ## A printed address is read back -/

/-- The text of an address. -/
theorem toList_inetNtoString (ip : IP) :
    (inetNtoString ip).toList =
      Nat.toDigits 10 (ip.extractLsb' 0 8).toNat ++ '.' ::
        (Nat.toDigits 10 (ip.extractLsb' 8 8).toNat ++ '.' ::
          (Nat.toDigits 10 (ip.extractLsb' 16 8).toNat ++ '.' ::
            Nat.toDigits 10 (ip.extractLsb' 24 8).toNat)) := by
  simp [inetNtoString]

/-- A printed address has fifteen characters at most. -/
theorem length_inetNtoString (ip : IP) : (inetNtoString ip).toList.length ≤ 15 := by
  have hbyte : ∀ i, (Nat.toDigits 10 (ip.extractLsb' i 8).toNat).length ≤ 3 := by
    intro i
    rw [Nat.length_toDigits_le_iff (by decide) (by decide)]
    have := (ip.extractLsb' i 8).isLt
    omega
  have h0 := hbyte 0
  have h1 := hbyte 8
  have h2 := hbyte 16
  have h3 := hbyte 24
  rw [toList_inetNtoString]
  simp only [List.length_append, List.length_cons]
  omega

/-- The characters of the text of an address. -/
theorem mem_inetNtoString {ip : IP} {c : Char} (h : c ∈ (inetNtoString ip).toList) :
    c = '.' ∨ c.isDigit = true := by
  have hdigit : ∀ n, c ∈ Nat.toDigits 10 n → c.isDigit = true := fun n =>
    Nat.isDigit_of_mem_toDigits (by decide) (by decide)
  rw [toList_inetNtoString] at h
  simp only [List.mem_append, List.mem_cons] at h
  rcases h with h | h | h | h | h | h | h
  all_goals first | exact .inl h | exact .inr (hdigit _ h)

/-- A byte that is printed has no leading zero. -/
theorem head_toDigits_byte : ∀ n < 256, n ≠ 0 → (Nat.toDigits 10 n).head? ≠ some '0' := by
  decide +kernel

/-- A printed byte is scanned, if a point or nothing follows. -/
theorem scanNumber_toDigits {n : ℕ} (hn : n < 256) (rest : List Char)
    (hrest : rest = [] ∨ ∃ r, rest = '.' :: r) :
    scanNumber (Nat.toDigits 10 n ++ rest) = some (n, rest) := by
  obtain ⟨c, l, hcons, hc⟩ := CString.toDigits_eq_cons n
  by_cases hzero : n = 0
  · subst hzero
    rcases hrest with rfl | ⟨r, rfl⟩
    · decide
    · have hoct : isOctDigit '.' = false := by decide
      have hzero : isOctDigit '0' = true := by decide
      simp [scanNumber, Nat.ofDigitChars, hoct, hzero]
  · have hhead : c ≠ '0' := by
      have := head_toDigits_byte n hn hzero
      simpa [hcons] using this
    have hall : ∀ d ∈ Nat.toDigits 10 n, d.isDigit = true := fun d hd =>
      Nat.isDigit_of_mem_toDigits (by decide) (by decide) hd
    have htake : (Nat.toDigits 10 n ++ rest).takeWhile Char.isDigit = Nat.toDigits 10 n := by
      rw [List.takeWhile_append_of_pos hall]
      rcases hrest with rfl | ⟨r, rfl⟩ <;> simp
    have hdrop : (Nat.toDigits 10 n ++ rest).dropWhile Char.isDigit = rest := by
      rw [List.dropWhile_append_of_pos hall]
      rcases hrest with rfl | ⟨r, rfl⟩ <;> simp
    have hfirst : (Nat.toDigits 10 n ++ rest).head? = some c := by simp [hcons]
    simp only [scanNumber, hfirst, htake, hdrop, Nat.ofDigitChars_ten_toDigits]
    simp [hc, hhead]

/-- `htonl` as a number. -/
theorem toNat_htonl (x : BitVec 32) :
    (htonl x).toNat = (((x.extractLsb' 0 8).toNat * 256 + (x.extractLsb' 8 8).toNat) * 256 +
      (x.extractLsb' 16 8).toNat) * 256 + (x.extractLsb' 24 8).toNat := by
  simp only [htonl, BitVec.toNat_append]
  rw [← Nat.shiftLeft_add_eq_or_of_lt (x.extractLsb' 8 8).isLt,
    ← Nat.shiftLeft_add_eq_or_of_lt (x.extractLsb' 16 8).isLt,
    ← Nat.shiftLeft_add_eq_or_of_lt (x.extractLsb' 24 8).isLt]
  simp only [Nat.shiftLeft_eq]

/-- `htonl` undoes itself. -/
theorem htonl_htonl (x : BitVec 32) : htonl (htonl x) = x := by
  have hx := x.isLt
  have hbytes : x.toNat = (((x.extractLsb' 24 8).toNat * 256 + (x.extractLsb' 16 8).toNat) * 256 +
      (x.extractLsb' 8 8).toNat) * 256 + (x.extractLsb' 0 8).toNat := by
    simp only [BitVec.extractLsb'_toNat, Nat.shiftRight_eq_div_pow]
    omega
  have h0 := (x.extractLsb' 0 8).isLt
  have h1 := (x.extractLsb' 8 8).isLt
  have h2 := (x.extractLsb' 16 8).isLt
  have h3 := (x.extractLsb' 24 8).isLt
  have hy := toNat_htonl x
  apply BitVec.eq_of_toNat_eq
  rw [toNat_htonl]
  generalize (x.extractLsb' 0 8).toNat = b0 at *
  generalize (x.extractLsb' 8 8).toNat = b1 at *
  generalize (x.extractLsb' 16 8).toNat = b2 at *
  generalize (x.extractLsb' 24 8).toNat = b3 at *
  simp only [BitVec.extractLsb'_toNat, Nat.shiftRight_eq_div_pow, hy, hbytes, Nat.reducePow]
  have d1 : (((b0 * 256 + b1) * 256 + b2) * 256 + b3) / 256 = (b0 * 256 + b1) * 256 + b2 := by
    omega
  have d2 : (((b0 * 256 + b1) * 256 + b2) * 256 + b3) / 65536 = b0 * 256 + b1 := by omega
  have d3 : (((b0 * 256 + b1) * 256 + b2) * 256 + b3) / 16777216 = b0 := by omega
  rw [Nat.div_one, d1, d2, d3, Nat.mul_add_mod_of_lt h3, Nat.mul_add_mod_of_lt h2,
    Nat.mul_add_mod_of_lt h1, Nat.mod_eq_of_lt h0]

/-- **A printed address is read back.** -/
theorem inetAddr_inetNtoString (ip : IP) : inetAddr (inetNtoString ip).toList = ip := by
  have hcut : CString.cut (inetNtoString ip).toList = (inetNtoString ip).toList := by
    refine CString.cut_eq_self fun h => ?_
    rcases mem_inetNtoString h with h | h
    · exact absurd h (by decide)
    · exact absurd h (by decide)
  have hlt : ∀ i, (ip.extractLsb' i 8).toNat < 256 := fun i => (ip.extractLsb' i 8).isLt
  have hparts : scanParts 3 (inetNtoString ip).toList =
      some ([(ip.extractLsb' 0 8).toNat, (ip.extractLsb' 8 8).toNat,
        (ip.extractLsb' 16 8).toNat], (ip.extractLsb' 24 8).toNat, []) := by
    have hlast := scanNumber_toDigits (hlt 24) [] (.inl rfl)
    rw [List.append_nil] at hlast
    rw [toList_inetNtoString]
    simp only [scanParts]
    rw [scanNumber_toDigits (hlt 0) _ (.inr ⟨_, rfl⟩)]
    simp only
    rw [scanNumber_toDigits (hlt 8) _ (.inr ⟨_, rfl⟩)]
    simp only
    rw [scanNumber_toDigits (hlt 16) _ (.inr ⟨_, rfl⟩)]
    simp only
    rw [hlast]
    rfl
  have hall : ∀ v ∈ [(ip.extractLsb' 0 8).toNat, (ip.extractLsb' 8 8).toNat,
      (ip.extractLsb' 16 8).toNat], v < 256 := by
    simp only [List.forall_mem_cons]
    exact ⟨hlt 0, hlt 8, hlt 16, fun _ h => by cases h⟩
  have hnum : BitVec.ofNat 32 ((htonl ip).toNat) = htonl ip := BitVec.ofNat_toNat _ _
  rw [toNat_htonl] at hnum
  unfold inetAddr
  rw [hcut, hparts]
  simp only
  rw [if_pos ⟨rfl, hall, by simpa using hlt 24⟩]
  simp only [List.foldl_cons, List.foldl_nil, List.length_cons, List.length_nil, Nat.zero_mul,
    Nat.zero_add, Nat.reduceAdd, Nat.reduceSub, Nat.pow_one]
  rw [hnum, htonl_htonl]

/-! ## A printed list is read back -/

namespace UserIPs

/-- The text of a list that does not start with `*`. -/
theorem toList_toString {im : IPMask} (him : im.ip ≠ 0) (ips : UserIPs) :
    (toString (im :: ips)).toList =
      [','].intercalate ((im :: ips).map fun im => (inetNtoString im.ip).toList) := by
  have hfold : ∀ (ips : UserIPs) (res : String),
      (ips.foldl (fun res im => res ++ "," ++ inetNtoString im.ip) res).toList =
        [','].intercalate (res.toList :: ips.map fun im => (inetNtoString im.ip).toList) := by
    intro ips
    induction ips with
    | nil => intro res; simp
    | cons im ips ih =>
      intro res
      rw [List.foldl_cons, ih]
      cases ips <;> simp [List.intercalate]
  rw [toString, if_neg him, hfold, List.map_cons]

/-- The text of an address is a token. -/
theorem notMem_inetNtoString {c : Char} (hpoint : c ≠ '.') (hdigit : c.isDigit = false) (ip : IP) :
    c ∉ (inetNtoString ip).toList := by
  intro h
  rcases mem_inetNtoString h with h | h
  · exact hpoint h
  · rw [hdigit] at h
    cases h

theorem inetNtoString_ne_nil (ip : IP) : (inetNtoString ip).toList ≠ [] := by
  rw [toList_inetNtoString]
  simp

/-- The characters of the text of a list that does not start with `*`. -/
theorem mem_toString {im : IPMask} (him : im.ip ≠ 0) {ips : UserIPs} {c : Char}
    (h : c ∈ (toString (im :: ips)).toList) : c ∈ ['.', ','] ∨ c.isDigit = true := by
  rw [toList_toString him] at h
  rcases CString.mem_intercalate h with rfl | ⟨t, ht, hc⟩
  · exact .inl (by simp)
  · obtain ⟨im', -, rfl⟩ := List.mem_map.mp ht
    rcases mem_inetNtoString hc with rfl | hc
    · exact .inl (by simp)
    · exact .inr hc

/-- A printed address without a mask stands for itself. -/
theorem parseEntry_inetNtoString (env : IPEnv) (ip : IP) :
    parseEntry env (inetNtoString ip).toList = if ip = inaddrNone then none else some ⟨ip, 32⟩ := by
  have htokens : CString.tokens '/' (inetNtoString ip).toList = [(inetNtoString ip).toList] := by
    have hslash := notMem_inetNtoString (c := '/') (by decide) (by decide) ip
    rw [CString.tokens, List.splitOn_eq_singleton hslash]
    exact List.filter_eq_self.mpr (by simpa using inetNtoString_ne_nil ip)
  simp only [parseEntry, htokens, inetAddr_inetNtoString]

/-- The entries of a printed list, up to the first `INADDR_NONE`. -/
theorem parseEntries_map (env : IPEnv) (ips : UserIPs) :
    parseEntries env (ips.map fun im => (inetNtoString im.ip).toList) =
      some ((ips.takeWhile fun im => im.ip ≠ inaddrNone).map fun im => ⟨im.ip, 32⟩) := by
  induction ips with
  | nil => rfl
  | cons im ips ih =>
    have hlen := length_inetNtoString im.ip
    rw [List.map_cons, parseEntries, if_neg (by omega), parseEntry_inetNtoString]
    by_cases him : im.ip = inaddrNone
    · simp [him]
    · simp [him, ih]

/-- The entries of the text of a list that does not start with `*`. -/
theorem tokens_toString {im : IPMask} (him : im.ip ≠ 0) (ips : UserIPs) :
    CString.tokens ',' (CString.cut (toString (im :: ips)).toList) =
      (im :: ips).map fun im => (inetNtoString im.ip).toList := by
  have hnul : '\x00' ∉ (toString (im :: ips)).toList := by
    intro h
    rcases mem_toString him h with h | h <;> exact absurd h (by decide)
  rw [CString.cut_eq_self hnul, toList_toString him]
  refine CString.tokens_intercalate fun t ht => ?_
  obtain ⟨im', -, rfl⟩ := List.mem_map.mp ht
  exact ⟨inetNtoString_ne_nil _, notMem_inetNtoString (by decide) (by decide) _⟩

/-- The text of a list that does not start with `*` is not `*` either. -/
theorem toList_toString_ne {im : IPMask} (him : im.ip ≠ 0) (ips : UserIPs) :
    (toString (im :: ips)).toList ≠ [] ∧ (toString (im :: ips)).toList ≠ ['*'] := by
  refine ⟨fun h => ?_, fun h => ?_⟩
  · have htokens := tokens_toString him ips
    rw [h] at htokens
    cases htokens
  · rcases mem_toString him (h ▸ List.mem_singleton_self '*') with h | h <;>
      exact absurd h (by decide)

/-- What is left of a list that is printed and read: the addresses without their masks, up to the
first 255.255.255.255. -/
def reread (ips : UserIPs) : UserIPs :=
  if isAnyIP ips then any
  else (ips.takeWhile fun im => im.ip ≠ inaddrNone).map fun im => ⟨im.ip, 32⟩

/-- **The list that is read from a printed list.** -/
theorem parse_toString (env : IPEnv) (ips : UserIPs) :
    parse env (toString ips).toList = some (reread ips) := by
  unfold reread
  cases ips with
  | nil => rfl
  | cons im ips =>
    by_cases him : im.ip = 0
    · simp [toString, parse, isAnyIP, him]
    · have hany : isAnyIP (im :: ips) = false := by simpa [isAnyIP] using him
      obtain ⟨hne, hstar⟩ := toList_toString_ne him ips
      rw [parse, if_neg hne, if_neg hstar, tokens_toString him, parseEntries_map, hany]
      rfl

/-! ## Members -/

section Members

variable {shifted : BitVec 32}

/-- The members of a list that does not start with `*`. -/
theorem find_iff {ips : UserIPs} (h : isAnyIP ips = false) (ip : IP) :
    find shifted ips ip = true ↔
      ∃ im ∈ ips, ip &&& calcMask shifted im.mask = im.ip &&& calcMask shifted im.mask := by
  cases ips with
  | nil => simp [find]
  | cons im ips =>
    have him : im.ip ≠ 0 := by simpa [isAnyIP] using h
    rw [find, if_neg him]
    simp only [List.any_eq_true, beq_iff_eq]

/-- A list that starts with `*` contains every address. -/
theorem find_of_isAnyIP {ips : UserIPs} (h : isAnyIP ips = true) (ip : IP) :
    find shifted ips ip = true := by
  cases ips with
  | nil => cases h
  | cons im ips =>
    have him : im.ip = 0 := by simpa [isAnyIP] using h
    rw [find, if_pos him]

/-- The mask of a single address. -/
theorem calcMask_32 : calcMask shifted 32 = BitVec.allOnes 32 := by
  rw [calcMask, if_neg (by decide), if_neg (by decide)]
  decide

/-- The members of a list of addresses without masks. -/
theorem find_map_iff {ips : UserIPs} (h : isAnyIP ips = false) (ip : IP) :
    find shifted (ips.map fun im => ⟨im.ip, 32⟩) ip = true ↔ ∃ im ∈ ips, im.ip = ip := by
  have hany : isAnyIP (ips.map fun im => ⟨im.ip, 32⟩) = false := by
    cases ips with
    | nil => rfl
    | cons im ips => exact h
  rw [find_iff hany]
  constructor
  · rintro ⟨im', him', heq⟩
    obtain ⟨im, him, rfl⟩ := List.mem_map.mp him'
    rw [calcMask_32, BitVec.and_allOnes, BitVec.and_allOnes] at heq
    exact ⟨im, him, heq.symm⟩
  · rintro ⟨im, him, rfl⟩
    exact ⟨⟨im.ip, 32⟩, List.mem_map_of_mem him, rfl⟩

/-- Every address of a list is a member. -/
theorem find_of_mem {ips : UserIPs} {im : IPMask} (h : im ∈ ips) : find shifted ips im.ip = true := by
  cases hany : isAnyIP ips with
  | true => exact find_of_isAnyIP hany _
  | false => exact (find_iff hany _).mpr ⟨im, h, rfl⟩

/-- **The lists whose members survive** printing and reading: `*`, and the lists all of whose
members are given by an address of their own, but not 255.255.255.255. -/
theorem find_reread_iff (ips : UserIPs) :
    (∀ ip, find shifted (reread ips) ip = find shifted ips ip) ↔
      isAnyIP ips = true ∨
        ∀ ip, find shifted ips ip = true → ip ≠ inaddrNone ∧ ∃ im ∈ ips, im.ip = ip := by
  unfold reread
  cases hany : isAnyIP ips with
  | true =>
    rw [if_pos rfl]
    refine iff_of_true (fun ip => ?_) (.inl rfl)
    rw [find_of_isAnyIP hany, find_of_isAnyIP rfl]
  | false =>
    simp only [Bool.false_eq_true, if_false, false_or]
    have hpre : ips.takeWhile (fun im => im.ip ≠ inaddrNone) <+: ips := List.takeWhile_prefix _
    have hany' : isAnyIP (ips.takeWhile fun im => im.ip ≠ inaddrNone) = false := by
      cases ips with
      | nil => rfl
      | cons im rest =>
        rw [List.takeWhile_cons]
        split_ifs
        · exact hany
        · rfl
    constructor
    · intro h ip hip
      rw [← h ip, find_map_iff hany'] at hip
      obtain ⟨im, him, rfl⟩ := hip
      exact ⟨by simpa using List.mem_takeWhile_imp him, im, hpre.mem him, rfl⟩
    · intro h ip
      have hall : ips.takeWhile (fun im => im.ip ≠ inaddrNone) = ips :=
        List.takeWhile_eq_self_iff.mpr fun im him => by simpa using (h _ (find_of_mem him)).1
      rw [hall, Bool.eq_iff_iff, find_map_iff hany]
      constructor
      · rintro ⟨im, him, rfl⟩
        exact find_of_mem him
      · exact fun hip => (h ip hip).2

end Members

/-! ## A second reading -/

/-- An entry with a number is not read where `errno` is `ERANGE`; the others are read as ever. -/
theorem parseEntry_erange {env : IPEnv} {e : List Char} {im : IPMask}
    (h : parseEntry ⟨env.shifted, true⟩ e = some im) : parseEntry env e = some im := by
  unfold parseEntry at h ⊢
  generalize CString.tokens '/' e = ts at h ⊢
  rcases ts with _ | ⟨strIp, _ | ⟨strMask, rest⟩⟩
  · cases h
  · exact h
  · dsimp only at h
    split_ifs at h
    simp [parseMask, str2x_eq] at h

/-- The entries that are read where `errno` is `ERANGE` are the first ones of those that are read in any
case. -/
theorem exists_parseEntries_erange {env : IPEnv} {es : List (List Char)} {ims : UserIPs}
    (h : parseEntries env es = some ims) :
    ∃ ims', parseEntries ⟨env.shifted, true⟩ es = some ims' ∧ ims' <+: ims := by
  induction es generalizing ims with
  | nil => exact ⟨[], rfl, List.nil_prefix⟩
  | cons e es ih =>
    rw [parseEntries] at h ⊢
    split_ifs at h ⊢ with hlen
    cases hentry : parseEntry ⟨env.shifted, true⟩ e with
    | none => exact ⟨[], rfl, List.nil_prefix⟩
    | some im =>
      rw [parseEntry_erange hentry, Option.map_eq_some_iff] at h
      obtain ⟨ims, hims, rfl⟩ := h
      obtain ⟨ims', hims', hpre⟩ := ih hims
      exact ⟨im :: ims', by rw [hims']; rfl, (List.prefix_cons_inj im).mpr hpre⟩

/-- **What is read a second time**, with `errno` as the first time has left it, are entries from the
beginning of the list. -/
theorem exists_parse_again {env : IPEnv} {source : List Char} {ips : UserIPs}
    (h : parse env source = some ips) (erange : Bool) (herange : env.erange = true → erange = true) :
    ∃ ips', parse ⟨env.shifted, erange⟩ source = some ips' ∧ ips' <+: ips := by
  obtain ⟨shifted, before⟩ := env
  cases erange with
  | false =>
    obtain rfl : before = false := by
      cases before with
      | false => rfl
      | true => cases herange rfl
    exact ⟨ips, h, List.prefix_rfl⟩
  | true =>
    unfold parse at h ⊢
    split_ifs at h ⊢
    · exact ⟨ips, h, List.prefix_rfl⟩
    · exact ⟨ips, h, List.prefix_rfl⟩
    · exact exists_parseEntries_erange h

/-- Nobody clears `errno`. -/
theorem parseErrno_of_erange {env : IPEnv} (h : env.erange = true) (source : List Char) :
    parseErrno env source = true := by
  have hentry (e : List Char) : entryErrno env e = true := by
    unfold entryErrno
    rcases CString.tokens '/' e with _ | ⟨strIp, _ | ⟨strMask, rest⟩⟩
    · exact h
    · exact h
    · dsimp only
      split_ifs
      · exact h
      · rw [str2x_eq, h, if_pos (.inr rfl)]
  unfold parseErrno
  split_ifs
  · exact h
  · exact h
  · induction CString.tokens ',' (CString.cut source) with
    | nil => exact h
    | cons e es ih =>
      rw [entriesErrno]
      cases parseEntry env e with
      | none => exact hentry e
      | some im => exact ih

end UserIPs

end Stargazer
