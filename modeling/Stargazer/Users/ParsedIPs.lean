import Stargazer.Lib.BitPrefix
import Stargazer.Users.UserIPs

set_option relaxedAutoImplicit false
set_option autoImplicit false

/-!
# What the texts of address lists denote

A text denotes addresses if it is `*` or a list of dotted addresses, each with a length of a prefix or
without.  Not every such list is read as what it denotes, other texts may be read as well, and what is
printed has no prefixes any more.

## Main definitions

* `Stargazer.UserIPs.EntryIs`, `Stargazer.UserIPs.Reads` — which entries are read, and as what.
* `Stargazer.UserIPs.Denotes` — the addresses a text denotes.

## Main results

* `Stargazer.UserIPs.printed_reads_back_iff` — the texts whose members survive printing.
* `Stargazer.UserIPs.parses_exactly_iff` — the texts that are read as what they denote.
-/

namespace Stargazer

namespace UserIPs

variable {env : IPEnv}

/-! ## Which entries are read -/

/-- An entry is read as an address with a prefix: `inet_addr` knows the first token between slashes,
and the second one, if there is any, is the length of a prefix without bits behind it. -/
structure EntryIs (env : IPEnv) (entry : List Char) (im : IPMask) : Prop where
  /-- The address. -/
  ip : (CString.tokens '/' entry).head?.map inetAddr = some im.ip
  /-- The address that `inet_addr` cannot return. -/
  ip_ne : im.ip ≠ inaddrNone
  /-- Without a second token the entry is one address. -/
  mask_of_none : (CString.tokens '/' entry)[1]? = none → im.mask = 32
  /-- The second token is a number of at most 32, and the address has no bits behind the mask. -/
  mask_of_some : ∀ strMask ∈ (CString.tokens '/' entry)[1]?, env.erange = false ∧
    (str2x 32 false strMask).1.map BitVec.toNat = some im.mask ∧ im.mask ≤ 32 ∧
      im.ip &&& calcMask env.shifted im.mask = im.ip

theorem parseMask_eq_some_iff {ip : IP} {strMask : List Char} {im : IPMask} :
    parseMask env ip strMask = some im ↔ im.ip = ip ∧ env.erange = false ∧
      (str2x 32 false strMask).1.map BitVec.toNat = some im.mask ∧ im.mask ≤ 32 ∧
        im.ip &&& calcMask env.shifted im.mask = im.ip := by
  unfold parseMask
  cases herange : env.erange with
  | true => simp [str2x_eq]
  | false =>
    cases (str2x 32 false strMask).1 with
    | none => simp
    | some m =>
      dsimp only
      split_ifs with hm hbits
      · simp only [Option.map_some, Option.some.injEq, true_and]
        constructor
        · intro h
          cases h
        · rintro ⟨-, hmask, hle, -⟩
          omega
      · simp only [Option.map_some, Option.some.injEq, true_and]
        constructor
        · intro h
          cases h
        · rintro ⟨rfl, hmask, -, h⟩
          exact absurd (hmask ▸ h) hbits
      · simp only [Option.map_some, Option.some.injEq, true_and, not_not] at hbits ⊢
        constructor
        · rintro rfl
          exact ⟨rfl, rfl, Nat.not_lt.mp hm, hbits⟩
        · rintro ⟨rfl, hmask, -, -⟩
          rw [hmask]

/-- **What a round does.** -/
theorem parseEntry_eq_some_iff {entry : List Char} {im : IPMask} :
    parseEntry env entry = some im ↔ EntryIs env entry im := by
  unfold parseEntry
  cases htokens : CString.tokens '/' entry with
  | nil =>
    constructor
    · intro h
      cases h
    · intro h
      have := h.ip
      rw [htokens] at this
      cases this
  | cons strIp rest =>
    dsimp only
    split_ifs with hnone
    · constructor
      · intro h
        cases h
      · intro h
        have hip := h.ip
        rw [htokens] at hip
        exact absurd ((Option.some.inj hip).symm.trans hnone) h.ip_ne
    · cases rest with
      | nil =>
        constructor
        · intro h
          obtain rfl := Option.some.inj h
          refine ⟨by rw [htokens]; rfl, hnone, fun _ => rfl, fun strMask hmask => ?_⟩
          rw [htokens] at hmask
          cases hmask
        · intro h
          have hip := h.ip
          have hmask := h.mask_of_none
          rw [htokens] at hip hmask
          rw [show inetAddr strIp = im.ip from Option.some.inj hip, ← hmask rfl]
      | cons strMask rest =>
        dsimp only
        rw [parseMask_eq_some_iff]
        constructor
        · rintro ⟨hip, hrest⟩
          refine ⟨by rw [htokens, hip]; rfl, hip ▸ hnone, fun h => ?_, fun s hs => ?_⟩
          · rw [htokens] at h
            cases h
          · rw [htokens] at hs
            obtain rfl := Option.some.inj hs
            exact hrest
        · intro h
          have hip := h.ip
          have hmask := h.mask_of_some strMask (by rw [htokens]; rfl)
          rw [htokens] at hip
          exact ⟨(Option.some.inj hip).symm, hmask⟩

/-- The entries that are read: all of them up to the first that is not readable, and every one that is
looked at fits into the buffer. -/
inductive Reads (env : IPEnv) : List (List Char) → List IPMask → Prop
  /-- There are no entries left. -/
  | nil : Reads env [] []
  /-- An entry is not readable. -/
  | stop {e : List Char} (es : List (List Char)) (hfits : e.length < 128)
      (hnot : ¬ ∃ im, EntryIs env e im) : Reads env (e :: es) []
  /-- An entry is read. -/
  | read {e : List Char} {es : List (List Char)} {im : IPMask} {ims : List IPMask}
      (hfits : e.length < 128) (h : EntryIs env e im) (hrest : Reads env es ims) :
      Reads env (e :: es) (im :: ims)

/-- **What the loop does.** -/
theorem parseEntries_eq_some_iff {es : List (List Char)} {ims : UserIPs} :
    parseEntries env es = some ims ↔ Reads env es ims := by
  induction es generalizing ims with
  | nil =>
    constructor
    · intro h
      obtain rfl := Option.some.inj h
      exact .nil
    · rintro ⟨⟩
      rfl
  | cons e es ih =>
    rw [parseEntries]
    split_ifs with hlen
    · constructor
      · intro h
        cases h
      · intro h
        cases h <;> omega
    · have hfits := Nat.not_le.mp hlen
      cases hentry : parseEntry env e with
      | none =>
        have hnot : ¬ ∃ im, EntryIs env e im := by
          rintro ⟨im, him⟩
          rw [parseEntry_eq_some_iff.mpr him] at hentry
          cases hentry
        constructor
        · intro h
          obtain rfl := Option.some.inj h
          exact .stop es hfits hnot
        · rintro (⟨⟩ | ⟨⟩ | ⟨-, him, -⟩)
          · rfl
          · exact absurd ⟨_, him⟩ hnot
      | some im =>
        have him := parseEntry_eq_some_iff.mp hentry
        dsimp only
        rw [Option.map_eq_some_iff]
        constructor
        · rintro ⟨ims, hims, rfl⟩
          exact .read hfits him (ih.mp hims)
        · rintro (⟨⟩ | ⟨-, -, hnot⟩ | ⟨-, him', hrest⟩)
          · exact absurd ⟨im, him⟩ hnot
          · rw [parseEntry_eq_some_iff.mpr him'] at hentry
            obtain rfl := Option.some.inj hentry
            exact ⟨_, ih.mpr hrest, rfl⟩

/-! ## Printing -/

/-- Nothing that is read is 255.255.255.255. -/
theorem Reads.ip_ne {es : List (List Char)} {ims : List IPMask} (h : Reads env es ims) :
    ∀ im ∈ ims, im.ip ≠ inaddrNone := by
  induction h with
  | nil =>
    intro im him
    cases him
  | stop es hfits hnot =>
    intro im him
    cases him
  | read hfits he hrest ih => exact List.forall_mem_cons.mpr ⟨he.ip_ne, ih⟩

/-- The list that is read from a printed list that was read. -/
theorem reread_of_ne {ims : UserIPs} (h : ∀ im ∈ ims, im.ip ≠ inaddrNone) :
    reread ims = if isAnyIP ims then any else ims.map fun im => ⟨im.ip, 32⟩ := by
  have hall : ims.takeWhile (fun im => im.ip ≠ inaddrNone) = ims :=
    List.takeWhile_eq_self_iff.mpr fun im him => by simpa using h im him
  rw [reread, hall]

/-- The text is `*`, or no entry that is looked at overflows the buffer, and the first address that is
read is 0.0.0.0, or every address under an entry that is read is given by an entry of its own. -/
def PrintsBack (env : IPEnv) (source : List Char) : Prop :=
  source = ['*'] ∨ ∃ ims, Reads env (CString.tokens ',' (CString.cut source)) ims ∧
    (isAnyIP ims = true ∨ ∀ im ∈ ims, ∀ ip,
      ip &&& calcMask env.shifted im.mask = im.ip &&& calcMask env.shifted im.mask → ∃ im' ∈ ims, im'.ip = ip)

/-- **The texts whose members survive printing.** -/
theorem printed_reads_back_iff (env : IPEnv) (source : List Char) :
    (∃ u u', parse env source = some u ∧ parse env (toString u).toList = some u' ∧
      ∀ ip, find env.shifted u' ip = find env.shifted u ip) ↔ PrintsBack env source := by
  by_cases hstar : source = ['*']
  · subst hstar
    exact iff_of_true ⟨any, any, rfl, rfl, fun _ => rfl⟩ (.inl rfl)
  have hparse : ∀ u, parse env source = some u ↔
      Reads env (CString.tokens ',' (CString.cut source)) u := by
    intro u
    unfold parse
    rw [if_neg hstar, ← parseEntries_eq_some_iff]
    split_ifs with hnil
    · subst hnil
      exact Iff.rfl
    · exact Iff.rfl
  -- what is read back from a list
  have hback : ∀ u, Reads env (CString.tokens ',' (CString.cut source)) u →
      ((∃ u', parse env (toString u).toList = some u' ∧
        ∀ ip, find env.shifted u' ip = find env.shifted u ip) ↔
          (isAnyIP u = true ∨ ∀ im ∈ u, ∀ ip,
            ip &&& calcMask env.shifted im.mask = im.ip &&& calcMask env.shifted im.mask →
              ∃ im' ∈ u, im'.ip = ip)) := by
    intro u hu
    rw [parse_toString, reread_of_ne hu.ip_ne]
    simp only [Option.some.injEq, exists_eq_left']
    cases hany : isAnyIP u with
    | true =>
      rw [if_pos rfl]
      refine iff_of_true (fun ip => ?_) (.inl rfl)
      rw [find_of_isAnyIP hany, find_of_isAnyIP rfl]
    | false =>
      simp only [Bool.false_eq_true, if_false, false_or]
      have hfind : ∀ ip, find env.shifted (u.map fun im => ⟨im.ip, 32⟩) ip = find env.shifted u ip ↔
          ((∃ im ∈ u, im.ip = ip) ↔
            ∃ im ∈ u, ip &&& calcMask env.shifted im.mask = im.ip &&& calcMask env.shifted im.mask) :=
        fun ip => by rw [Bool.eq_iff_iff, find_map_iff hany, find_iff hany]
      constructor
      · intro h im him ip hip
        exact ((hfind ip).1 (h ip)).2 ⟨im, him, hip⟩
      · intro h ip
        refine (hfind ip).2 ?_
        constructor
        · rintro ⟨im, him, rfl⟩
          exact ⟨im, him, rfl⟩
        · rintro ⟨im, him, hip⟩
          exact h im him ip hip
  constructor
  · rintro ⟨u, u', hu, hu', hfind⟩
    exact .inr ⟨u, (hparse u).1 hu, (hback u ((hparse u).1 hu)).1 ⟨u', hu', hfind⟩⟩
  · rintro (h | ⟨u, hu, hcond⟩)
    · exact absurd h hstar
    · obtain ⟨u', hu', hfind⟩ := (hback u hu).2 hcond
      exact ⟨u, u', (hparse u).2 hu, hu', hfind⟩

/-- On a machine that shifts by the last five bits of the count. -/
def Sample.ipEnv : IPEnv := ⟨BitVec.allOnes 32, false⟩

/-- A prefix is printed without its length. -/
theorem masked_list_not_read_back :
    ¬ ∃ u u', parse Sample.ipEnv "10.0.0.0/8".toList = some u ∧
      parse Sample.ipEnv (toString u).toList = some u' ∧
        ∀ ip, find Sample.ipEnv.shifted u' ip = find Sample.ipEnv.shifted u ip := by
  rintro ⟨u, u', hu, hu', hfind⟩
  have hread : parse Sample.ipEnv "10.0.0.0/8".toList = some [⟨10, 8⟩] := by decide
  obtain rfl : [⟨10, 8⟩] = u := Option.some.inj (hread.symm.trans hu)
  have hback : parse Sample.ipEnv (toString [⟨10, 8⟩]).toList = some [⟨10, 32⟩] := by decide
  obtain rfl : [⟨10, 32⟩] = u' := Option.some.inj (hback.symm.trans hu')
  exact absurd (hfind 0x0100000A) (by decide)

/-! ## Texts that denote addresses -/

/-- A dotted address, with the length of a prefix or without. -/
structure IPEntry where
  /-- The address. -/
  ip : IP
  /-- The length behind the slash. -/
  mask : Option ℕ

namespace IPEntry

/-- How it is written. -/
def text (e : IPEntry) : List Char :=
  (inetNtoString e.ip).toList ++ e.mask.elim [] fun n => '/' :: Nat.toDigits 10 n

/-- The length of the prefix. -/
def length (e : IPEntry) : ℕ := e.mask.getD 32

/-- The prefix is not too long, and the address has no bits behind it. -/
def Ok (e : IPEntry) : Prop := ∀ n ∈ e.mask, n ≤ 32 ∧ BitPrefix.Aligned n (htonl e.ip)

/-- An address lies in the prefix. -/
def Covers (e : IPEntry) (ip : IP) : Prop := BitPrefix.Agree e.length (htonl ip) (htonl e.ip)

/-- The entry is readable: `inet_addr` can return the address, and `str2x` works if there is a length
to be read. -/
def Readable (env : IPEnv) (e : IPEntry) : Bool :=
  e.ip != inaddrNone && (!env.erange || e.mask.isNone)

/-- What is read. -/
def entry (e : IPEntry) : IPMask := ⟨e.ip, e.length⟩

/-- What `find` takes the entry for, if it is not the first one: a prefix of no bits depends on the
undefined shift. -/
def Met (env : IPEnv) (e : IPEntry) (ip : IP) : Prop :=
  if e.length = 0 then ip &&& htonl env.shifted = 0 else e.Covers ip

end IPEntry

/-- The addresses that a text denotes. -/
inductive Denotes : List Char → (IP → Prop) → Prop
  /-- All of them. -/
  | star {source : List Char} (h : source = ['*']) : Denotes source fun _ => True
  /-- Those of a list of prefixes. -/
  | list {source : List Char} {es : List IPEntry} (hne : es ≠ []) (hok : ∀ e ∈ es, e.Ok)
      (h : source = [','].intercalate (es.map IPEntry.text)) :
      Denotes source fun ip => ∃ e ∈ es, e.Covers ip

/-! ### Masks -/

theorem htonl_and (x y : BitVec 32) : htonl (x &&& y) = htonl x &&& htonl y := by
  have happend : ∀ a b c d a' b' c' d' : BitVec 8, (a ++ b ++ c ++ d) &&& (a' ++ b' ++ c' ++ d') =
      (a &&& a') ++ (b &&& b') ++ (c &&& c') ++ (d &&& d') := by
    intros
    simp only [BitVec.and_append]
  simp only [htonl, BitVec.extractLsb'_and]
  exact (happend _ _ _ _ _ _ _ _).symm

section Masks

variable {shifted : BitVec 32}

/-- A mask of the source is a mask of the library in the order of the network. -/
theorem calcMask_eq_htonl {n : ℕ} (hpos : n ≠ 0) (hle : n ≤ 32) :
    calcMask shifted n = htonl (BitPrefix.mask 32 n) := by
  rw [calcMask, if_neg (Nat.not_lt.mpr hle), if_neg hpos]
  rfl

/-- Masked addresses in the order of the host. -/
theorem and_calcMask {n : ℕ} (hpos : n ≠ 0) (hle : n ≤ 32) (ip : IP) :
    ip &&& calcMask shifted n = htonl (htonl ip &&& BitPrefix.mask 32 n) := by
  rw [calcMask_eq_htonl hpos hle, htonl_and, htonl_htonl]

theorem htonl_injective : Function.Injective htonl := Function.LeftInverse.injective htonl_htonl

theorem htonl_eq_zero {x : BitVec 32} (h : htonl x = 0) : x = 0 :=
  htonl_injective (h.trans (by decide))

/-- **Masked addresses are the same** iff they lie in the same prefix. -/
theorem and_calcMask_eq_iff {n : ℕ} (hpos : n ≠ 0) (hle : n ≤ 32) (ip a : IP) :
    ip &&& calcMask shifted n = a &&& calcMask shifted n ↔
      BitPrefix.Agree n (htonl ip) (htonl a) := by
  rw [and_calcMask hpos hle, and_calcMask hpos hle, htonl_injective.eq_iff,
    BitPrefix.and_mask_eq_iff]

/-- Nothing is lost of an address without bits behind a prefix. -/
theorem and_calcMask_eq_self {n : ℕ} (hle : n ≤ 32) {ip : IP}
    (h : BitPrefix.Aligned n (htonl ip)) : ip &&& calcMask shifted n = ip := by
  by_cases hzero : n = 0
  · subst hzero
    rw [htonl_eq_zero (BitPrefix.aligned_zero_iff.mp h)]
    exact BitVec.zero_and
  · rw [and_calcMask hzero hle, BitPrefix.and_mask_eq_self_iff.mpr h, htonl_htonl]

end Masks

/-! ### Reading an entry that denotes addresses -/

namespace IPEntry

/-- The tokens of an entry. -/
theorem tokens_text (e : IPEntry) :
    CString.tokens '/' e.text = (inetNtoString e.ip).toList :: (e.mask.map (Nat.toDigits 10)).toList := by
  have hdigits : ∀ n, Nat.toDigits 10 n ≠ [] ∧ '/' ∉ Nat.toDigits 10 n := by
    intro n
    obtain ⟨c, l, hcons, -⟩ := CString.toDigits_eq_cons n
    refine ⟨by rw [hcons]; exact List.cons_ne_nil _ _, fun h => ?_⟩
    exact absurd (Nat.isDigit_of_mem_toDigits (by decide) (by decide) h) (by decide)
  have haddr : (inetNtoString e.ip).toList ≠ [] ∧ '/' ∉ (inetNtoString e.ip).toList :=
    ⟨inetNtoString_ne_nil _, notMem_inetNtoString (by decide) (by decide) _⟩
  obtain ⟨ip, mask⟩ := e
  cases mask with
  | none =>
    have h := CString.tokens_intercalate (d := '/') (List.forall_mem_singleton.mpr haddr)
    rw [List.intercalate_singleton] at h
    rw [text, Option.elim_none, List.append_nil, h]
    rfl
  | some n =>
    have h := CString.tokens_intercalate (d := '/')
      (List.forall_mem_cons.mpr ⟨haddr, List.forall_mem_singleton.mpr (hdigits n)⟩)
    rw [List.intercalate_cons_cons, List.intercalate_singleton, List.append_assoc] at h
    exact h

/-- An entry that denotes addresses fits into the buffer. -/
theorem length_text {e : IPEntry} (hok : e.Ok) : e.text.length < 128 := by
  obtain ⟨ip, mask⟩ := e
  have haddr := length_inetNtoString ip
  cases mask with
  | none =>
    rw [text, Option.elim_none, List.append_nil]
    exact haddr.trans_lt (by decide)
  | some n =>
    have hle := (hok n rfl).1
    have hdigits : (Nat.toDigits 10 n).length ≤ 2 := by
      rw [Nat.length_toDigits_le_iff (by decide) (by decide)]
      omega
    rw [text, Option.elim_some, List.length_append, List.length_cons]
    dsimp only
    omega

/-- **How an entry is read.** -/
theorem parseEntry_text {e : IPEntry} (hok : e.Ok) :
    parseEntry env e.text = if e.Readable env then some e.entry else none := by
  obtain ⟨ip, mask⟩ := e
  rw [parseEntry, tokens_text]
  dsimp only
  rw [inetAddr_inetNtoString]
  by_cases hip : ip = inaddrNone
  · rw [if_pos hip, if_neg (by simp [Readable, hip])]
  · rw [if_neg hip]
    cases mask with
    | none =>
      rw [if_pos (by simp [Readable, hip])]
      rfl
    | some n =>
      obtain ⟨hle, hbits⟩ := hok n rfl
      dsimp only [Option.map_some, Option.toList_some]
      unfold parseMask
      cases hrange : env.erange with
      | true =>
        rw [if_neg (by simp [Readable, hrange])]
        simp [str2x_eq]
      | false =>
        have hprint : Nat.toDigits 10 n = CString.printInt n := by
          rw [CString.printInt, if_neg (by omega), Int.natAbs_natCast]
        have hint : IsTime n := by
          unfold IsTime
          omega
        have hnat : (BitVec.ofInt 32 n).toNat = n := by
          rw [BitVec.ofInt_natCast, BitVec.toNat_ofNat]
          omega
        rw [hprint, str2x_printInt 32 false hint]
        dsimp only
        rw [if_neg Bool.false_ne_true]
        dsimp only
        rw [hnat, if_neg (by omega), if_neg (not_not.mpr (and_calcMask_eq_self hle hbits)),
          if_pos (by simp [Readable, hrange, hip])]
        rfl

/-- What `find` takes an entry for. -/
theorem and_calcMask_iff_met {e : IPEntry} (hok : e.Ok) (ip : IP) :
    ip &&& calcMask env.shifted e.length = e.ip &&& calcMask env.shifted e.length ↔ e.Met env ip := by
  have hle : e.length ≤ 32 := by
    unfold length
    cases hmask : e.mask with
    | none => exact le_rfl
    | some n => exact (hok n hmask).1
  unfold Met
  split_ifs with hzero
  · have hip : e.ip = 0 := by
      unfold length at hzero
      cases hmask : e.mask with
      | none =>
        rw [hmask] at hzero
        cases hzero
      | some n =>
        rw [hmask, Option.getD_some] at hzero
        have hbits := (hok n hmask).2
        rw [hzero] at hbits
        exact htonl_eq_zero (BitPrefix.aligned_zero_iff.mp hbits)
    have hmasked : (0 : IP) &&& htonl env.shifted = 0 := BitVec.zero_and
    rw [hzero, hip, calcMask, if_neg (by decide), if_pos rfl, hmasked]
  · exact and_calcMask_eq_iff hzero hle ip e.ip

/-- Nothing is met that does not lie in the prefix. -/
theorem Met.covers {e : IPEntry} {ip : IP} (h : e.Met env ip) : e.Covers ip := by
  unfold Met at h
  split_ifs at h with hzero
  · rw [Covers, hzero]
    exact BitPrefix.agree_zero _ _
  · exact h

end IPEntry

/-! ### Reading a list that denotes addresses -/

section List

variable {es : List IPEntry} (hok : ∀ e ∈ es, e.Ok)
include hok

omit hok in
/-- The entries of a list. -/
theorem tokens_list :
    CString.tokens ',' (CString.cut ([','].intercalate (es.map IPEntry.text))) =
      es.map IPEntry.text := by
  have hchar : ∀ e : IPEntry, ∀ c ∈ e.text, c ∈ ['.', '/'] ∨ c.isDigit = true := by
    intro e c hc
    rcases List.mem_append.mp hc with hc | hc
    · rcases mem_inetNtoString hc with rfl | hc
      · exact .inl (by simp)
      · exact .inr hc
    · cases hmask : e.mask with
      | none =>
        rw [hmask] at hc
        cases hc
      | some n =>
        rw [hmask] at hc
        rcases List.mem_cons.mp hc with rfl | hc
        · exact .inl (by simp)
        · exact .inr (Nat.isDigit_of_mem_toDigits (by decide) (by decide) hc)
  have hnot : ∀ e : IPEntry, ∀ c ∈ ['\x00', ','], c ∉ e.text := by
    intro e c hc hmem
    rcases hchar e c hmem with h | h <;> fin_cases hc <;> exact absurd h (by decide)
  have hnul : '\x00' ∉ [','].intercalate (es.map IPEntry.text) := by
    intro h
    rcases CString.mem_intercalate h with h | ⟨t, ht, h⟩
    · exact absurd h (by decide)
    · obtain ⟨e, -, rfl⟩ := List.mem_map.mp ht
      exact hnot e _ (by simp) h
  rw [CString.cut_eq_self hnul]
  refine CString.tokens_intercalate fun t ht => ?_
  obtain ⟨e, -, rfl⟩ := List.mem_map.mp ht
  exact ⟨List.append_ne_nil_of_left_ne_nil (inetNtoString_ne_nil _) _, hnot e _ (by simp)⟩

/-- **How a list is read**: up to the first entry that is not readable. -/
theorem parseEntries_text :
    parseEntries env (es.map IPEntry.text) =
      some ((es.takeWhile (·.Readable env)).map IPEntry.entry) := by
  induction es with
  | nil => rfl
  | cons e es ih =>
    obtain ⟨he, hes⟩ := List.forall_mem_cons.mp hok
    rw [List.map_cons, parseEntries, if_neg (Nat.not_le.mpr (IPEntry.length_text he)),
      IPEntry.parseEntry_text he, List.takeWhile_cons]
    split_ifs
    · rw [ih hes]
      rfl
    · rfl

/-- A list of entries is not `*`, so that the loop reads it. -/
theorem parse_text (hne : es ≠ []) :
    parse env ([','].intercalate (es.map IPEntry.text)) =
      some ((es.takeWhile (·.Readable env)).map IPEntry.entry) := by
  have htokens : CString.tokens ',' (CString.cut ([','].intercalate (es.map IPEntry.text))) = _ :=
    tokens_list
  have hstar : ∀ source ∈ [[], ['*']], [','].intercalate (es.map IPEntry.text) ≠ source := by
    intro source hsource heq
    rw [heq] at htokens
    obtain ⟨e, es, rfl⟩ := List.exists_cons_of_ne_nil hne
    fin_cases hsource
    · cases htokens
    · have htext : ['*'] = e.text := (List.cons.inj htokens).1
      have hmem : '.' ∈ e.text := by
        refine List.mem_append_left _ ?_
        rw [toList_inetNtoString]
        simp
      rw [← htext] at hmem
      exact absurd hmem (by decide)
  rw [parse, if_neg (hstar _ (by simp)), if_neg (hstar _ (by simp)), htokens,
    parseEntries_text hok]

/-- The members of entries that were read. -/
theorem find_entries (ip : IP) :
    find env.shifted (es.map IPEntry.entry) ip = true ↔
      (∃ e ∈ es.head?, e.ip = 0) ∨ ∃ e ∈ es, e.Met env ip := by
  cases hany : isAnyIP (es.map IPEntry.entry) with
  | true =>
    refine iff_of_true (find_of_isAnyIP hany ip) (.inl ?_)
    cases es with
    | nil => cases hany
    | cons e es => exact ⟨e, rfl, by simpa [isAnyIP, IPEntry.entry] using hany⟩
  | false =>
    have hfst : ¬ ∃ e ∈ es.head?, e.ip = 0 := by
      rintro ⟨e, he, hip⟩
      cases es with
      | nil => cases he
      | cons e' es =>
        obtain rfl := Option.some.inj he
        simp [isAnyIP, IPEntry.entry, hip] at hany
    rw [find_iff hany, or_iff_right hfst]
    constructor
    · rintro ⟨im, him, h⟩
      obtain ⟨e, he, rfl⟩ := List.mem_map.mp him
      exact ⟨e, he, (IPEntry.and_calcMask_iff_met (hok e he) ip).1 h⟩
    · rintro ⟨e, he, h⟩
      exact ⟨e.entry, List.mem_map_of_mem he, (IPEntry.and_calcMask_iff_met (hok e he) ip).2 h⟩

end List

/-- The first entry is readable; if its address is 0.0.0.0, the entries cover all addresses; if not,
the entries before the first unreadable one cover as much as all of them, where a prefix of no bits
covers only what the undefined shift makes of it. -/
structure ReadsAll (env : IPEnv) (es : List IPEntry) : Prop where
  /-- The first entry. -/
  readable : ∃ e ∈ es.head?, e.Readable env = true
  /-- 0.0.0.0 stands for all addresses there. -/
  any : ∀ e ∈ es.head?, e.ip = 0 → ∀ ip, ∃ e' ∈ es, e'.Covers ip
  /-- Elsewhere it does not. -/
  rest : ∀ e ∈ es.head?, e.ip ≠ 0 → ∀ ip, (∃ e' ∈ es, e'.Covers ip) →
    ∃ e' ∈ es.takeWhile (·.Readable env), e'.Met env ip

/-- **When a list is read as what it denotes.** -/
theorem readsAll_iff {es : List IPEntry} (hok : ∀ e ∈ es, e.Ok) (hne : es ≠ []) :
    ReadsAll env es ↔ ∀ ip,
      find env.shifted ((es.takeWhile (·.Readable env)).map IPEntry.entry) ip = true ↔
        ∃ e ∈ es, e.Covers ip := by
  have hread : ∀ e ∈ es.takeWhile (·.Readable env), e ∈ es := fun e he =>
    (List.takeWhile_prefix _).mem he
  have hfind : ∀ ip, find env.shifted ((es.takeWhile (·.Readable env)).map IPEntry.entry) ip = true ↔ _ :=
    find_entries fun e he => hok e (hread e he)
  obtain ⟨e, es', hes⟩ := List.exists_cons_of_ne_nil hne
  have hhead : es.head? = some e := by rw [hes]; rfl
  have hfst : e.Readable env = true → (es.takeWhile (·.Readable env)).head? = some e := by
    intro h
    rw [hes, List.takeWhile_cons, if_pos h]
    rfl
  simp only [hfind]
  constructor
  · rintro ⟨⟨e', he', hreadable⟩, hany, hrest⟩ ip
    obtain rfl : e = e' := Option.some.inj (hhead.symm.trans he')
    constructor
    · rintro (⟨e', he', hip⟩ | ⟨e', he', hmet⟩)
      · obtain rfl : e = e' := Option.some.inj ((hfst hreadable).symm.trans he')
        exact hany e hhead hip ip
      · exact ⟨e', hread e' he', hmet.covers⟩
    · intro hcov
      by_cases hip : e.ip = 0
      · exact .inl ⟨e, hfst hreadable, hip⟩
      · exact .inr (hrest e hhead hip ip hcov)
  · intro h
    have hreadable : e.Readable env = true := by
      by_contra hnot
      have hnil : es.takeWhile (·.Readable env) = [] := by
        rw [hes, List.takeWhile_cons, if_neg hnot]
      have hself : ∃ e' ∈ es, e'.Covers e.ip :=
        ⟨e, by rw [hes]; exact List.mem_cons_self, BitPrefix.Agree.refl _ _⟩
      rcases (h e.ip).2 hself with ⟨e', he', -⟩ | ⟨e', he', -⟩
      · rw [hnil] at he'
        cases he'
      · rw [hnil] at he'
        cases he'
    refine ⟨⟨e, hhead, hreadable⟩, fun e' he' hip ip => ?_, fun e' he' hip ip hcov => ?_⟩
    · obtain rfl : e = e' := Option.some.inj (hhead.symm.trans he')
      exact (h ip).1 (.inl ⟨e, hfst hreadable, hip⟩)
    · obtain rfl : e = e' := Option.some.inj (hhead.symm.trans he')
      rcases (h ip).2 hcov with ⟨e', he', hip'⟩ | hmet
      · obtain rfl : e = e' := Option.some.inj ((hfst hreadable).symm.trans he')
        exact absurd hip' hip
      · exact hmet

/-- A text is read as the addresses it denotes; a text that denotes none is read as the empty list. -/
def ParsesExactly (env : IPEnv) (source : List Char) : Prop :=
  (∀ members, Denotes source members →
    ∃ u, parse env source = some u ∧ ∀ ip, find env.shifted u ip = true ↔ members ip) ∧
  ((¬ ∃ members, Denotes source members) → parse env source = some [])

/-- The entries of the text that denote addresses are read completely; in a text that denotes none the
first entry is not readable. -/
def ParsesExactlyWhen (env : IPEnv) (source : List Char) : Prop :=
  (∀ es : List IPEntry, es ≠ [] → (∀ e ∈ es, e.Ok) →
    source = [','].intercalate (es.map IPEntry.text) → ReadsAll env es) ∧
  ((¬ ∃ members, Denotes source members) →
    ∀ e ∈ (CString.tokens ',' (CString.cut source)).head?,
      e.length < 128 ∧ ¬ ∃ im, EntryIs env e im)

/-- When nothing is read. -/
theorem parseEntries_eq_nil_iff {es : List (List Char)} :
    parseEntries env es = some [] ↔
      ∀ e ∈ es.head?, e.length < 128 ∧ ¬ ∃ im, EntryIs env e im := by
  rw [parseEntries_eq_some_iff]
  cases es with
  | nil => exact iff_of_true .nil fun e he => by cases he
  | cons e es =>
    constructor
    · intro h e' he'
      obtain rfl : e = e' := Option.some.inj he'
      cases h with
      | stop _ hfits hnot => exact ⟨hfits, hnot⟩
    · intro h
      obtain ⟨hfits, hnot⟩ := h e rfl
      exact .stop es hfits hnot

/-- **The texts that are read as what they denote.** -/
theorem parses_exactly_iff (env : IPEnv) (source : List Char) :
    ParsesExactly env source ↔ ParsesExactlyWhen env source := by
  refine and_congr ?_ ?_
  · constructor
    · intro h es hne hok hsource
      obtain ⟨u, hu, hfind⟩ := h _ (.list hne hok hsource)
      rw [hsource, parse_text hok hne] at hu
      obtain rfl := Option.some.inj hu
      exact (readsAll_iff hok hne).2 hfind
    · intro h members hmembers
      cases hmembers with
      | star hstar =>
        refine ⟨UserIPs.any, by rw [hstar]; rfl, fun ip => iff_of_true ?_ trivial⟩
        exact find_of_isAnyIP rfl ip
      | list hne hok hsource =>
        refine ⟨_, by rw [hsource]; exact parse_text hok hne, ?_⟩
        exact (readsAll_iff hok hne).1 (h _ hne hok hsource)
  · refine imp_congr_right fun hnot => ?_
    have hstar : source ≠ ['*'] := fun h => hnot ⟨_, .star h⟩
    rw [parse, if_neg hstar, ← parseEntries_eq_nil_iff]
    split_ifs with hnil
    · subst hnil
      exact Iff.rfl
    · exact Iff.rfl

/-- After an entry that is not readable the rest is lost: 255.255.255.255 is a single address. -/
theorem broadcast_address_lost :
    ¬ ParsesExactly Sample.ipEnv "10.0.0.1,255.255.255.255".toList := by
  rintro ⟨h, -⟩
  have hok : ∀ e ∈ [IPEntry.mk 0x0100000A none, IPEntry.mk inaddrNone none], e.Ok := by
    intro e he n hn
    fin_cases he <;> cases hn
  obtain ⟨u, hu, hfind⟩ := h _ (.list (List.cons_ne_nil _ _) hok (by decide))
  have hread : parse Sample.ipEnv "10.0.0.1,255.255.255.255".toList =
      some [⟨0x0100000A, 32⟩] := by decide
  obtain rfl := Option.some.inj (hread.symm.trans hu)
  have hmiss := (hfind inaddrNone).2 ⟨_, List.mem_cons_of_mem _ List.mem_cons_self,
    BitPrefix.Agree.refl _ _⟩
  exact absurd hmiss (by decide)

end UserIPs

end Stargazer
