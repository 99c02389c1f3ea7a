import Stargazer.Lib.CopyLoop
import Stargazer.Lib.Stdio
import Stargazer.Traffic.Counter
import Stargazer.Users.ParsedIPs

set_option relaxedAutoImplicit false
set_option autoImplicit false

/-!
# The rules of the traffic counter

`TraffCounterImpl::ReadRules`, `ParseAddress` and `CalcMask` (`traffcounter_impl.cpp`).  A line of the
file is a protocol, an address and a direction, where the address has the form `addr/n:p-q`, with a
length of a prefix and ports or without.

`ParseAddress` copies the parts of the address into local buffers that are smaller than the text may be,
at indices computed by hand.  What it writes there is recorded; where it writes behind a buffer or in
front of it, the rest of the model is what happens if this does no harm.

## Main definitions

* `Stargazer.RuleFile.parseAddress`, `Stargazer.RuleFile.readRules` — the functions of the source.
* `Stargazer.RuleText` — an address of a rule, as it is written, with what it denotes.
* `Stargazer.RuleFile.ParsesExactly` — a text is read as what it denotes, and nothing is written outside
  the buffers.

## Main results

* `Stargazer.RuleFile.inside_iff` — the texts that fit into the buffers.
* `Stargazer.RuleFile.parseAddress_text` — the values of what is written as it should be.
* `Stargazer.RuleFile.readLines_stale`, `Stargazer.RuleFile.readLines_of_rejected` — nothing of a rule that was rejected is used.
* `Stargazer.RuleFile.rule_address_exact_iff` — the texts that are read as what they denote.
-/

namespace Stargazer

/-! ## The functions of the source -/

/-- `inet_aton`: as `inet_addr`, but every address can be returned. -/
def inetAton (s : List Char) : Option IP :=
  match scanParts 3 (CString.cut s) with
  | none => none
  | some (parts, last, rest) =>
    if rest.head?.all CString.isSpace ∧ (∀ v ∈ parts, v < 256) ∧ last < 256 ^ (4 - parts.length) then
      some (htonl (BitVec.ofNat 32
        (parts.foldl (fun v p => v * 256 + p) 0 * 256 ^ (4 - parts.length) + last)))
    else none

/-- The protocols with ports. -/
def RuleProto.hasPorts : RuleProto → Bool
  | .tcp | .udp | .tcpUdp => true
  | .icmp | .all => false

namespace RuleFile

/-- The local buffers of `ParseAddress`. -/
inductive LocalBuffer
  | addr
  | mask
  | port1
  | port2
  | ports
  | pts
  deriving DecidableEq

/-- Their sizes. -/
def LocalBuffer.size : LocalBuffer → ℕ
  | .addr => 50
  | .mask => 20
  | .port1 => 20
  | .port2 => 20
  | .ports => 40
  | .pts => 100

/-- A write into a buffer. -/
abbrev Write := LocalBuffer × ℤ

/-- The write is inside the buffer. -/
def Inside (w : Write) : Prop := 0 ≤ w.2 ∧ w.2 < w.1.size

instance (w : Write) : Decidable (Inside w) := inferInstanceAs (Decidable (_ ∧ _))

/-- Writes into one buffer. -/
def into (b : LocalBuffer) (indices : List ℤ) : List Write := indices.map fun i => (b, i)

/-- The characters that end the address. -/
def isSeparator (c : Char) : Bool := c == '/' || c == ':'

/-- A part of the address that has been copied. -/
structure Part where
  /-- What was written for it. -/
  writes : List Write
  /-- The text in its buffer. -/
  text : List Char
  /-- `i`. -/
  pos : ℕ
  /-- The text from `i` on. -/
  rest : List Char
  /-- `n`. -/
  n : Char

/-- The first loop, and the zero behind its text. -/
def addrPart (ta : List Char) : Part :=
  let r := CopyLoop.run isSeparator 0 0 ta
  { writes := into .addr
      (r.indices ++ (if r.rest.isEmpty then [] else [(r.pos : ℤ)]) ++ [(r.pos : ℤ) + 1])
    text := r.text
    pos := r.pos
    rest := r.rest
    n := r.rest.head?.getD '\x00' }

/-- The loop for the mask, which starts at the slash, or `32`. -/
def maskPart (a : Part) : Part :=
  if a.n = '/' then
    let r := CopyLoop.run (· == ':') (a.pos + 1) a.pos a.rest
    let last := (r.pos : ℤ) - (a.pos + 1 : ℕ)
    { writes := into .mask (r.indices ++ (if r.rest.isEmpty then [] else [last]) ++ [last])
      text := r.text
      pos := r.pos
      rest := r.rest
      n := r.rest.head?.getD a.n }
  else { a with writes := into .mask (CopyLoop.strcpy "32".toList), text := "32".toList }

/-- The loop for the ports, or all of them. -/
def portsPart (m : Part) : List Write × List Char :=
  if m.n = ':' then
    let r := CopyLoop.run (fun _ => false) (m.pos + 1) (m.pos + 1) m.rest.tail
    (into .ports (r.indices ++ [(r.pos : ℤ) - (m.pos + 1 : ℕ)]), r.text)
  else (into .ports (CopyLoop.strcpy "0-65535".toList), "0-65535".toList)

/-- `port1`: the ports up to the minus, or all of the text. -/
def lowPort (ports : List Char) : List Char := ports.takeWhile fun c => c != '-'

/-- `port2`: the ports behind the minus, or all of the text. -/
def highPort (ports : List Char) : List Char :=
  if ports.contains '-' then (ports.dropWhile fun c => c != '-').tail else ports

/-- `TraffCounterImpl::CalcMask`. -/
def calcMask (msk : ℕ) : BitVec 32 :=
  if msk ≥ 32 then BitVec.allOnes 32
  else if msk = 0 then 0
  else htonl (BitVec.allOnes 32 <<< (32 - msk))

/-- `strtol` with a look behind the number. -/
def readWord (s : List Char) : Option (BitVec 16) :=
  if (CString.strtol s).2 = [] then some (BitVec.ofInt 16 (CString.strtol s).1) else none

/-- The last part of `ParseAddress`, where texts become numbers: is it an error, and the rule. -/
def convert (addr mask port1 port2 : List Char) (rule : Rule) : Bool × Rule :=
  match readWord mask, readWord port1, readWord port2, inetAton addr with
  | some msk, some prt1, some prt2, some ip =>
    let rule := { rule with ip := ip, mask := calcMask msk.toNat }
    if ip &&& rule.mask ≠ ip then (true, rule)
    else (false, { rule with port1 := prt1, port2 := prt2 })
  | _, _, _, _ => (true, rule)

/-- What `ParseAddress` has done. -/
structure Parsed where
  /-- What it has written into its buffers. -/
  writes : List Write
  /-- What it returns, and the rule. -/
  result : Bool × Rule

/-- `TraffCounterImpl::ParseAddress`. -/
def parseAddress (ta : List Char) (rule : Rule) : Parsed :=
  let a := addrPart ta
  let m := maskPart a
  if m.n = ':' ∧ rule.proto.hasPorts = false then ⟨a.writes ++ m.writes, (true, rule)⟩
  else
    let ports := portsPart m
    { writes := a.writes ++ m.writes ++ ports.1 ++ into .pts (CopyLoop.strcpy ports.2) ++
        into .port1 (CopyLoop.strcpy (lowPort ports.2)) ++
        into .port2 (CopyLoop.strcpy (highPort ports.2))
      result := convert a.text m.text (lowPort ports.2) (highPort ports.2) rule }

/-! ### The file -/

/-- `protoName`. -/
def protoName : List (String × RuleProto) :=
  [("TCP", .tcp), ("UDP", .udp), ("ICMP", .icmp), ("TCP_UDP", .tcpUdp), ("ALL", .all)]

/-- The loop over `protoName`. -/
def findProto (tp : List Char) : Option RuleProto :=
  ((protoName.filter fun p => CString.foldCase tp == CString.foldCase p.1.toList).getLast?).map
    Prod.snd

/-- `dirName`. -/
def dirName (i : ℕ) : List Char :=
  if i = dirNum then "NULL".toList else "DIR".toList ++ Nat.toDigits 10 i

/-- The loop over `dirName`. -/
def findDir (td : List Char) : Option ℕ :=
  ((List.range (dirNum + 1)).filter fun i => td == dirName i).getLast?

/-- `%99s`: the word, and the text behind it. -/
def scanWord (s : List Char) : Option (List Char × List Char) :=
  let t := s.dropWhile CString.isSpace
  let word := (t.takeWhile fun c => !CString.isSpace c).take 99
  if word = [] then none else some (word, t.drop word.length)

/-- `sscanf` with three words. -/
def scanWords (s : List Char) : Option (List Char × List Char × List Char) :=
  (scanWord s).bind fun tp => (scanWord tp.2).bind fun ta => (scanWord ta.2).map fun td =>
    (tp.1, ta.1, td.1)

/-- An empty line or a comment. -/
def isComment (str : List Char) : Bool :=
  let c := (str.dropWhile fun c => c == ' ' || c == '\t').head?
  c == some '#' || c == some '\n'

/-- What becomes of a line. -/
inductive LineResult
  | skipped
  | failed
  | rule (rul : Rule)

/-- The body of the loop of `ReadRules`; `rul` is what the last line has left there. -/
def readLine (rul : Rule) (str : List Char) : LineResult :=
  if isComment str then .skipped
  else
    match scanWords str with
    | none => .failed
    | some (tp, ta, td) =>
      match findProto tp, findDir td with
      | some proto, some dir =>
        let parsed := parseAddress ta { rul with proto := proto, dir := dir }
        if parsed.result.1 then .failed else .rule parsed.result.2
      | _, _ => .failed

/-- `ALL 0.0.0.0/0 NULL`. -/
def lastRule : Rule := ⟨0, 0, 0, 65535, .all, dirNum⟩

/-- The loop of `ReadRules`: what it returns, and the rules. -/
def readLines (test : Bool) : Rule → List Rule → List (List Char) → Bool × List Rule
  | _, rules, [] => (false, if test then rules else rules ++ [lastRule])
  | rul, rules, str :: lines =>
    match readLine rul str with
    | .skipped => readLines test rul rules lines
    | .failed => (true, rules)
    | .rule r => readLines test r (if test then rules else rules ++ [r]) lines

/-- `TraffCounterImpl::ReadRules`, with the file, if it can be opened, what the variable `rul` holds at
the beginning, and the rules. -/
def readRules (test : Bool) (file : Option (List Char)) (rul : Rule) (rules : List Rule) :
    Bool × List Rule :=
  match file with
  | none => (true, rules)
  | some text => readLines test rul rules (Stdio.lines 1023 (text.length + 1) ⟨text, false⟩)

/-! ## The parts of an address -/

/-- What is copied into `addr`. -/
def addrText (ta : List Char) : List Char := ta.takeWhile fun c => !isSeparator c

/-- What is behind it. -/
def behindAddr (ta : List Char) : List Char := ta.dropWhile fun c => !isSeparator c

/-- What is at the start of `mask`. -/
def maskText (ta : List Char) : List Char :=
  if (behindAddr ta).head? = some '/' then (behindAddr ta).tail.takeWhile fun c => !(c == ':')
  else "32".toList

/-- What is behind the mask. -/
def behindMask (ta : List Char) : List Char :=
  if (behindAddr ta).head? = some '/' then (behindAddr ta).tail.dropWhile fun c => !(c == ':')
  else behindAddr ta

/-- What is copied into `ports`. -/
def portsText (ta : List Char) : List Char :=
  if (behindMask ta).head? = some ':' then (behindMask ta).tail else "0-65535".toList

/-- There are no ports, or the protocol has ports. -/
def PortsAllowed (proto : RuleProto) (ta : List Char) : Prop :=
  (behindMask ta).head? = some ':' → proto.hasPorts = true

instance (proto : RuleProto) (ta : List Char) : Decidable (PortsAllowed proto ta) :=
  inferInstanceAs (Decidable (_ → _))

theorem text_addrPart (ta : List Char) : (addrPart ta).text = addrText ta :=
  CopyLoop.text_run le_rfl

theorem rest_addrPart (ta : List Char) : (addrPart ta).rest = behindAddr ta := CopyLoop.rest_run

theorem pos_addrPart (ta : List Char) : (addrPart ta).pos = (addrText ta).length := by
  rw [addrPart, CopyLoop.pos_run, Nat.zero_add]
  rfl

theorem n_addrPart_iff (ta : List Char) :
    (addrPart ta).n = '/' ↔ (behindAddr ta).head? = some '/' := by
  rw [← rest_addrPart]
  change (addrPart ta).rest.head?.getD '\x00' = '/' ↔ _
  cases (addrPart ta).rest.head? with
  | none => exact iff_of_false (by decide) (by simp)
  | some c => simp

/-- The mask, if the address ends at a slash. -/
theorem maskPart_of_slash {ta : List Char} (h : (behindAddr ta).head? = some '/') :
    (maskPart (addrPart ta)).text = maskText ta ∧ (maskPart (addrPart ta)).rest = behindMask ta ∧
      ((maskPart (addrPart ta)).n = ':' ↔ (behindMask ta).head? = some ':') := by
  obtain ⟨s, hs⟩ := List.head?_eq_some_iff.mp h
  have hn : (addrPart ta).n = '/' := (n_addrPart_iff ta).mpr h
  have hrest : (CopyLoop.run (· == ':') ((addrPart ta).pos + 1) (addrPart ta).pos
      (addrPart ta).rest).rest = behindMask ta := by
    rw [CopyLoop.rest_run, rest_addrPart, behindMask, if_pos h, hs]
    rfl
  have htext : (CopyLoop.run (· == ':') ((addrPart ta).pos + 1) (addrPart ta).pos
      (addrPart ta).rest).text = maskText ta := by
    rw [rest_addrPart, maskText, if_pos h, hs]
    exact CopyLoop.text_run_succ (by decide)
  rw [maskPart, if_pos hn]
  refine ⟨htext, hrest, ?_⟩
  dsimp only
  rw [hrest, hn]
  cases (behindMask ta).head? with
  | none => exact iff_of_false (by decide) (by simp)
  | some c => simp

/-- The mask, if it does not. -/
theorem maskPart_of_ne_slash {ta : List Char} (h : (behindAddr ta).head? ≠ some '/') :
    (maskPart (addrPart ta)).text = maskText ta ∧ (maskPart (addrPart ta)).rest = behindMask ta ∧
      ((maskPart (addrPart ta)).n = ':' ↔ (behindMask ta).head? = some ':') := by
  have hn : (addrPart ta).n ≠ '/' := fun hn => h ((n_addrPart_iff ta).mp hn)
  rw [maskPart, if_neg hn]
  refine ⟨(if_neg h).symm, ?_, ?_⟩
  · rw [behindMask, if_neg h]
    exact rest_addrPart ta
  · rw [behindMask, if_neg h, ← rest_addrPart]
    change (addrPart ta).rest.head?.getD '\x00' = ':' ↔ _
    cases (addrPart ta).rest.head? with
    | none => exact iff_of_false (by decide) (by simp)
    | some c => simp

/-- **The second loop.** -/
theorem maskPart_addrPart (ta : List Char) :
    (maskPart (addrPart ta)).text = maskText ta ∧ (maskPart (addrPart ta)).rest = behindMask ta ∧
      ((maskPart (addrPart ta)).n = ':' ↔ (behindMask ta).head? = some ':') := by
  by_cases h : (behindAddr ta).head? = some '/'
  · exact maskPart_of_slash h
  · exact maskPart_of_ne_slash h

/-- **The third loop.** -/
theorem text_portsPart (ta : List Char) :
    (portsPart (maskPart (addrPart ta))).2 = portsText ta := by
  obtain ⟨-, hrest, hn⟩ := maskPart_addrPart ta
  rw [portsPart, portsText]
  by_cases h : (behindMask ta).head? = some ':'
  · rw [if_pos (hn.mpr h), if_pos h, hrest]
    dsimp only
    rw [CopyLoop.text_run le_rfl]
    exact List.takeWhile_eq_self_iff.mpr fun c _ => rfl
  · rw [if_neg fun h' => h (hn.mp h'), if_neg h]

/-- **What `ParseAddress` does with the parts.** -/
theorem result_parseAddress (ta : List Char) (rule : Rule) :
    (parseAddress ta rule).result =
      if PortsAllowed rule.proto ta then convert (addrText ta) (maskText ta)
        (lowPort (portsText ta)) (highPort (portsText ta)) rule
      else (true, rule) := by
  obtain ⟨htext, -, hn⟩ := maskPart_addrPart ta
  rw [parseAddress]
  simp only [text_portsPart, text_addrPart, htext, hn]
  by_cases h : PortsAllowed rule.proto ta
  · rw [if_pos h, if_neg]
    rintro ⟨hcolon, hports⟩
    rw [h hcolon] at hports
    cases hports
  · rw [if_neg h, if_pos]
    rw [PortsAllowed, Classical.not_imp, Bool.not_eq_true] at h
    exact h

/-! ## Buffers -/

theorem inside_into_iff {b : LocalBuffer} {indices : List ℤ} :
    (∀ w ∈ into b indices, Inside w) ↔ ∀ i ∈ indices, 0 ≤ i ∧ i < b.size := by
  simp only [into, List.forall_mem_map]
  exact Iff.rfl

/-- A copy of a text fits into a buffer. -/
theorem inside_strcpy_iff {b : LocalBuffer} {s : List Char} :
    (∀ w ∈ into b (CopyLoop.strcpy s), Inside w) ↔ s.length < b.size := by
  rw [inside_into_iff, CopyLoop.strcpy_lt_iff]

/-- The zero behind the separator needs room, too. -/
theorem inside_addrPart_iff (ta : List Char) :
    (∀ w ∈ (addrPart ta).writes, Inside w) ↔ (addrText ta).length ≤ 48 := by
  have hpos := pos_addrPart ta
  have hloop : (∀ w ∈ (CopyLoop.run isSeparator 0 0 ta).indices ++
      [((CopyLoop.run isSeparator 0 0 ta).pos : ℤ) - (0 : ℕ)], 0 ≤ w ∧ w < (49 : ℕ)) ↔ _ :=
    CopyLoop.writes_run_lt_iff
  change (CopyLoop.run isSeparator 0 0 ta).pos = _ at hpos
  rw [addrPart, inside_into_iff]
  simp only [hpos, List.mem_append, List.mem_singleton] at hloop ⊢
  constructor
  · intro h
    have := (h _ (.inr rfl)).2
    change _ < (50 : ℤ) at this
    omega
  · intro hlen i hi
    have hall := hloop.mpr (Nat.lt_succ_of_le hlen)
    change 0 ≤ i ∧ i < (50 : ℤ)
    rcases hi with (hi | hi) | rfl
    · have := hall i (.inl hi)
      omega
    · split_ifs at hi
      · cases hi
      · obtain rfl := List.mem_singleton.mp hi
        omega
    · omega

/-- **The loop for the mask starts one character too early.** -/
theorem inside_maskPart_iff (ta : List Char) :
    (∀ w ∈ (maskPart (addrPart ta)).writes, Inside w) ↔ (behindAddr ta).head? ≠ some '/' := by
  constructor
  · intro h hslash
    obtain ⟨s, hs⟩ := List.head?_eq_some_iff.mp hslash
    rw [maskPart, if_pos ((n_addrPart_iff ta).mpr hslash), rest_addrPart, hs] at h
    have hmem : (-1 : ℤ) ∈ (CopyLoop.run (· == ':') ((addrPart ta).pos + 1) (addrPart ta).pos
        ('/' :: s)).indices := CopyLoop.neg_one_mem_indices (by decide)
    have := (inside_into_iff.mp h (-1)
      (List.mem_append_left _ (List.mem_append_left _ hmem))).1
    omega
  · intro h
    have hn : (addrPart ta).n ≠ '/' := fun hn => h ((n_addrPart_iff ta).mp hn)
    rw [maskPart, if_neg hn]
    exact inside_strcpy_iff.mpr (by decide)

theorem inside_portsPart_iff (m : Part) :
    (∀ w ∈ (portsPart m).1, Inside w) ↔ (portsPart m).2.length ≤ 39 := by
  rw [portsPart]
  split_ifs
  · rw [inside_into_iff]
    dsimp only
    rw [CopyLoop.text_run le_rfl]
    exact CopyLoop.writes_run_lt_iff.trans Nat.lt_succ_iff
  · exact iff_of_true (inside_strcpy_iff.mpr (by decide)) (by decide)

/-- The parts fit into their buffers. -/
structure Fits (proto : RuleProto) (ta : List Char) : Prop where
  /-- There is no slash behind the address. -/
  no_slash : (behindAddr ta).head? ≠ some '/'
  /-- The address is not too long. -/
  addr : (addrText ta).length ≤ 48
  /-- The ports are not too long, if they are looked at. -/
  ports : PortsAllowed proto ta → (portsText ta).length ≤ 39 ∧
    (lowPort (portsText ta)).length ≤ 19 ∧ (highPort (portsText ta)).length ≤ 19

/-- **The texts that fit into the buffers.** -/
theorem inside_iff (ta : List Char) (rule : Rule) :
    (∀ w ∈ (parseAddress ta rule).writes, Inside w) ↔ Fits rule.proto ta := by
  obtain ⟨-, -, hn⟩ := maskPart_addrPart ta
  rw [parseAddress]
  simp only [hn]
  by_cases h : PortsAllowed rule.proto ta
  · rw [if_neg fun h' => absurd (h h'.1) (by rw [h'.2]; decide)]
    simp only [List.forall_mem_append, inside_addrPart_iff, inside_maskPart_iff,
      inside_portsPart_iff, inside_strcpy_iff, text_portsPart]
    constructor
    · rintro ⟨⟨⟨⟨⟨haddr, hslash⟩, hports⟩, -⟩, hlow⟩, hhigh⟩
      exact ⟨hslash, haddr, fun _ => ⟨hports, Nat.le_of_lt_succ hlow, Nat.le_of_lt_succ hhigh⟩⟩
    · rintro ⟨hslash, haddr, hall⟩
      obtain ⟨hports, hlow, hhigh⟩ := hall h
      refine ⟨⟨⟨⟨⟨haddr, hslash⟩, hports⟩, ?_⟩, Nat.lt_succ_of_le hlow⟩, Nat.lt_succ_of_le hhigh⟩
      exact hports.trans_lt (by decide)
  · have hboth : (behindMask ta).head? = some ':' ∧ rule.proto.hasPorts = false := by
      rw [PortsAllowed, Classical.not_imp, Bool.not_eq_true] at h
      exact h
    rw [if_pos hboth]
    simp only [List.forall_mem_append, inside_addrPart_iff, inside_maskPart_iff]
    constructor
    · rintro ⟨haddr, hslash⟩
      exact ⟨hslash, haddr, fun h' => absurd h' h⟩
    · rintro ⟨hslash, haddr, -⟩
      exact ⟨haddr, hslash⟩

end RuleFile

/-! ## Addresses as they are written -/

/-- An address of a rule as it is written. -/
structure RuleText where
  /-- The address. -/
  ip : IP
  /-- The length of the prefix behind the slash. -/
  mask : Option (List Char)
  /-- The port behind the colon, and the one behind the minus. -/
  ports : Option (List Char × Option (List Char))

namespace RuleText

/-- The text behind the address. -/
def maskText (t : RuleText) : List Char := t.mask.elim [] fun n => '/' :: n

/-- The text of the ports. -/
def portsText (t : RuleText) : List Char :=
  t.ports.elim [] fun p => ':' :: (p.1 ++ p.2.elim [] fun q => '-' :: q)

/-- How it is written. -/
def text (t : RuleText) : List Char := (inetNtoString t.ip).toList ++ (t.maskText ++ t.portsText)

/-- The length of the prefix. -/
def length (t : RuleText) : ℕ := t.mask.elim 32 CString.number

/-- The lowest port. -/
def low (t : RuleText) : ℕ := t.ports.elim 0 fun p => CString.number p.1

/-- The highest port. -/
def high (t : RuleText) : ℕ := t.ports.elim 65535 fun p => CString.number (p.2.getD p.1)

/-- It is written as it should be. -/
structure Ok (t : RuleText) (proto : RuleProto) : Prop where
  /-- The length is a number. -/
  mask : ∀ n ∈ t.mask, CString.IsNumber n
  /-- The prefix is not too long. -/
  length_le : t.length ≤ 32
  /-- The address has no bits behind it. -/
  aligned : BitPrefix.Aligned t.length (htonl t.ip)
  /-- Ports are only there if the protocol has some. -/
  hasPorts : t.ports.isSome → proto.hasPorts = true
  /-- The ports are numbers. -/
  ports : ∀ p ∈ t.ports, CString.IsNumber p.1 ∧ ∀ q ∈ p.2, CString.IsNumber q
  /-- The ports are in order. -/
  le : t.low ≤ t.high
  /-- They are ports. -/
  high_le : t.high ≤ 65535

/-- The rule with what is denoted. -/
def set (t : RuleText) (rule : Rule) : Rule :=
  { rule with
    ip := t.ip
    mask := htonl (BitPrefix.mask 32 t.length)
    port1 := BitVec.ofNat 16 t.low
    port2 := BitVec.ofNat 16 t.high }

end RuleText

/-! ### Numbers and addresses -/

theorem inetAddr_eq (s : List Char) : inetAddr s = (inetAton s).getD inaddrNone := by
  unfold inetAddr inetAton
  cases scanParts 3 (CString.cut s) with
  | none => rfl
  | some p =>
    dsimp only
    split_ifs <;> rfl

/-- **A printed address is read back**, 255.255.255.255 as well. -/
theorem inetAton_inetNtoString (ip : IP) : inetAton (inetNtoString ip).toList = some ip := by
  by_cases hip : ip = inaddrNone
  · subst hip
    decide
  · have haddr := inetAddr_inetNtoString ip
    rw [inetAddr_eq] at haddr
    cases h : inetAton (inetNtoString ip).toList with
    | none =>
      rw [h] at haddr
      exact absurd haddr.symm hip
    | some ip' =>
      rw [h, Option.getD_some] at haddr
      rw [haddr]

namespace RuleFile

/-- A mask of the source is a mask of the library in the order of the network. -/
theorem calcMask_eq (n : ℕ) : calcMask n = htonl (BitPrefix.mask 32 n) := by
  unfold calcMask
  split_ifs with hge hzero
  · rw [BitPrefix.mask, Nat.sub_eq_zero_of_le hge]
    decide
  · rw [hzero]
    decide
  · rfl

/-- **The mask covers an address** iff there are no bits behind the prefix. -/
theorem and_calcMask_eq_iff {n : ℕ} {ip : IP} :
    ip &&& calcMask n = ip ↔ BitPrefix.Aligned n (htonl ip) := by
  rw [calcMask_eq, ← BitPrefix.and_mask_eq_self_iff, ← UserIPs.htonl_injective.eq_iff,
    UserIPs.htonl_and, htonl_htonl]

/-- A number of 16 bits. -/
theorem readWord_of_isNumber {s : List Char} (h : CString.IsNumber s)
    (hle : CString.number s ≤ 65535) : readWord s = some (BitVec.ofNat 16 (CString.number s)) := by
  have hclamp : CString.clampLong (CString.number s) = CString.number s := by
    unfold CString.clampLong
    omega
  rw [readWord, CString.strtol_of_isNumber h, hclamp, if_pos rfl, BitVec.ofInt_natCast]

/-- **The texts become numbers.** -/
theorem convert_eq_false_iff {addr mask port1 port2 : List Char} {rule rule' : Rule} :
    convert addr mask port1 port2 rule = (false, rule') ↔
      ∃ msk prt1 prt2 ip, readWord mask = some msk ∧ readWord port1 = some prt1 ∧
        readWord port2 = some prt2 ∧ inetAton addr = some ip ∧
          BitPrefix.Aligned msk.toNat (htonl ip) ∧
            rule' = { rule with
              ip := ip, mask := calcMask msk.toNat, port1 := prt1, port2 := prt2 } := by
  unfold convert
  constructor
  · intro h
    split at h
    next msk prt1 prt2 ip hmask hport1 hport2 haddr =>
      dsimp only at h
      split_ifs at h with hbits
      · cases (Prod.mk.inj h).1
      · rw [not_not] at hbits
        exact ⟨msk, prt1, prt2, ip, hmask, hport1, hport2, haddr, and_calcMask_eq_iff.mp hbits,
          (Prod.mk.inj h).2.symm⟩
    next => cases (Prod.mk.inj h).1
  · rintro ⟨msk, prt1, prt2, ip, hmask, hport1, hport2, haddr, hbits, rfl⟩
    rw [hmask, hport1, hport2, haddr]
    dsimp only
    rw [if_neg (not_not.mpr (and_calcMask_eq_iff.mpr hbits))]

/-! ### Reading what is written as it should be -/

/-- The parts of a text without a slash are a dotted address and numbers in order. -/
structure Written (ta : List Char) : Prop where
  /-- The address. -/
  addr : ∃ ip, addrText ta = (inetNtoString ip).toList
  /-- The lowest port. -/
  low : CString.IsNumber (lowPort (portsText ta))
  /-- The highest port. -/
  high : CString.IsNumber (highPort (portsText ta))
  /-- The ports are in order. -/
  le : CString.number (lowPort (portsText ta)) ≤ CString.number (highPort (portsText ta))
  /-- They are ports. -/
  high_le : CString.number (highPort (portsText ta)) ≤ 65535

/-- A number contains no minus. -/
theorem not_minus {p : List Char} (hp : CString.IsNumber p) : ∀ c ∈ p, (c != '-') = true := by
  intro c hc
  have hminus : c ≠ '-' := fun h => absurd (hp.2 c hc) (by rw [h]; decide)
  simp [hminus]

section Text

variable (t : RuleText)

/-- The address ends in front of what follows it. -/
theorem addrText_append {s : List Char} (hs : s = [] ∨ ∃ c r, s = c :: r ∧ isSeparator c = true) :
    addrText ((inetNtoString t.ip).toList ++ s) = (inetNtoString t.ip).toList ∧
      behindAddr ((inetNtoString t.ip).toList ++ s) = s := by
  have hall : ∀ c ∈ (inetNtoString t.ip).toList, (!isSeparator c) = true := by
    intro c hc
    rcases mem_inetNtoString hc with rfl | hdigit
    · decide
    · have hslash : c ≠ '/' := fun h => absurd hdigit (by rw [h]; decide)
      have hcolon : c ≠ ':' := fun h => absurd hdigit (by rw [h]; decide)
      simp [isSeparator, hslash, hcolon]
  rw [addrText, behindAddr, List.takeWhile_append_of_pos hall, List.dropWhile_append_of_pos hall]
  rcases hs with rfl | ⟨c, r, rfl, hc⟩
  · exact ⟨List.append_nil _, rfl⟩
  · rw [List.takeWhile_cons_of_neg (by simp [hc]), List.dropWhile_cons_of_neg (by simp [hc])]
    exact ⟨List.append_nil _, rfl⟩

/-- What follows the mask. -/
theorem portsText_cases : t.portsText = [] ∨ ∃ r, t.portsText = ':' :: r := by
  unfold RuleText.portsText
  cases t.ports with
  | none => exact .inl rfl
  | some p => exact .inr ⟨_, rfl⟩

/-- The address of a text. -/
theorem parts_text : addrText t.text = (inetNtoString t.ip).toList ∧
    behindAddr t.text = t.maskText ++ t.portsText := by
  apply addrText_append
  unfold RuleText.maskText
  cases t.mask with
  | none =>
    rcases portsText_cases t with h | ⟨r, h⟩
    · exact .inl h
    · exact .inr ⟨_, r, h, by decide⟩
  | some n => exact .inr ⟨'/', _, rfl, by decide⟩

variable {t} {proto : RuleProto} (hok : t.Ok proto)
include hok

/-- The mask of a text. -/
theorem maskText_text : maskText t.text = t.mask.getD "32".toList ∧ behindMask t.text = t.portsText := by
  have hbehind := (parts_text t).2
  rw [maskText, behindMask, hbehind]
  unfold RuleText.maskText
  cases hmask : t.mask with
  | none =>
    have hne : (t.portsText).head? ≠ some '/' := by
      rcases portsText_cases t with h | ⟨r, h⟩ <;> rw [h]
      · intro h
        cases h
      · rw [List.head?_cons]
        decide
    rw [Option.elim_none, List.nil_append, if_neg hne, if_neg hne]
    exact ⟨rfl, rfl⟩
  | some n =>
    have hall : ∀ c ∈ n, (!(c == ':')) = true := by
      intro c hc
      have hdigit := (hok.mask n hmask).2 c hc
      have hcolon : c ≠ ':' := fun h => absurd hdigit (by rw [h]; decide)
      simp [hcolon]
    rw [Option.elim_some, List.cons_append, List.head?_cons, if_pos rfl, if_pos rfl, List.tail_cons,
      List.takeWhile_append_of_pos hall, List.dropWhile_append_of_pos hall]
    rcases portsText_cases t with h | ⟨r, h⟩
    · rw [h]
      exact ⟨List.append_nil _, rfl⟩
    · rw [h, List.takeWhile_cons_of_neg (by decide), List.dropWhile_cons_of_neg (by decide)]
      exact ⟨List.append_nil _, rfl⟩

/-- The ports of a text. -/
theorem ports_text : CString.IsNumber (lowPort (portsText t.text)) ∧
    CString.IsNumber (highPort (portsText t.text)) ∧
      CString.number (lowPort (portsText t.text)) = t.low ∧
        CString.number (highPort (portsText t.text)) = t.high := by
  have hbehind := (maskText_text hok).2
  rw [portsText, hbehind]
  unfold RuleText.portsText RuleText.low RuleText.high
  cases hports : t.ports with
  | none =>
    show CString.IsNumber ['0'] ∧ CString.IsNumber ['6', '5', '5', '3', '5'] ∧
      CString.number ['0'] = 0 ∧ CString.number ['6', '5', '5', '3', '5'] = 65535
    simp [CString.IsNumber, CString.number, Nat.ofDigitChars_cons]
  | some p =>
    obtain ⟨p, q⟩ := p
    obtain ⟨hp, hq⟩ := hok.ports _ hports
    have hall := not_minus hp
    rw [Option.elim_some, List.head?_cons, if_pos rfl, List.tail_cons]
    cases q with
    | none =>
      have hlow : lowPort p = p := List.takeWhile_eq_self_iff.mpr hall
      have hhigh : highPort p = p := by
        rw [highPort, if_neg]
        intro hmem
        have := hall '-' (by simpa using hmem)
        cases this
      rw [Option.elim_none, List.append_nil, hlow, hhigh]
      exact ⟨hp, hp, rfl, rfl⟩
    | some q =>
      have hlow : lowPort (p ++ '-' :: q) = p := by
        rw [lowPort, List.takeWhile_append_of_pos hall, List.takeWhile_cons_of_neg (by decide),
          List.append_nil]
      have hhigh : highPort (p ++ '-' :: q) = q := by
        rw [highPort, if_pos (by simp), List.dropWhile_append_of_pos hall,
          List.dropWhile_cons_of_neg (by decide), List.tail_cons]
      rw [Option.elim_some, hlow, hhigh]
      exact ⟨hp, hq q rfl, rfl, rfl⟩

/-- **What is written as it should be** is read as what it denotes. -/
theorem parseAddress_text {rule : Rule} (hproto : rule.proto = proto) :
    (parseAddress t.text rule).result = (false, t.set rule) := by
  obtain ⟨hmask, hbehind⟩ := maskText_text hok
  obtain ⟨hlow, hhigh, hlowval, hhighval⟩ := ports_text hok
  have hallowed : PortsAllowed rule.proto t.text := by
    intro h
    rw [hbehind] at h
    rw [hproto]
    apply hok.hasPorts
    unfold RuleText.portsText at h
    cases hports : t.ports with
    | none =>
      rw [hports] at h
      cases h
    | some p => rfl
  have hmaskval : CString.IsNumber (t.mask.getD "32".toList) ∧
      CString.number (t.mask.getD "32".toList) = t.length := by
    unfold RuleText.length
    cases hm : t.mask with
    | none =>
      show CString.IsNumber ['3', '2'] ∧ CString.number ['3', '2'] = 32
      simp [CString.IsNumber, CString.number, Nat.ofDigitChars_cons]
    | some n => exact ⟨hok.mask n hm, rfl⟩
  have hlength := hok.length_le
  have hlen : (BitVec.ofNat 16 t.length).toNat = t.length := by
    rw [BitVec.toNat_ofNat]
    omega
  rw [result_parseAddress, if_pos hallowed, hmask, (parts_text t).1, convert_eq_false_iff]
  refine ⟨BitVec.ofNat 16 t.length, BitVec.ofNat 16 t.low, BitVec.ofNat 16 t.high, t.ip, ?_, ?_, ?_,
    inetAton_inetNtoString t.ip, ?_, ?_⟩
  · rw [readWord_of_isNumber hmaskval.1 (by rw [hmaskval.2]; omega), hmaskval.2]
  · rw [readWord_of_isNumber hlow (by rw [hlowval]; exact hok.le.trans hok.high_le), hlowval]
  · rw [readWord_of_isNumber hhigh (by rw [hhighval]; exact hok.high_le), hhighval]
  · rw [hlen]
    exact hok.aligned
  · rw [hlen, calcMask_eq]
    rfl

/-- What is written as it should be has the right parts. -/
theorem written_text : Written t.text := by
  obtain ⟨hlow, hhigh, hlowval, hhighval⟩ := ports_text hok
  refine ⟨⟨t.ip, (parts_text t).1⟩, hlow, hhigh, ?_, ?_⟩
  · rw [hlowval, hhighval]
    exact hok.le
  · rw [hhighval]
    exact hok.high_le

end Text

/-- Ports with a minus. -/
theorem ports_split {ports : List Char} (h : ports.contains '-' = true) :
    ports = lowPort ports ++ '-' :: highPort ports := by
  have hsplit := List.takeWhile_append_dropWhile (p := fun c => c != '-') (l := ports)
  rw [highPort, if_pos h]
  cases hdrop : ports.dropWhile fun c => c != '-' with
  | nil =>
    have hall := List.dropWhile_eq_nil_iff.mp hdrop '-' (by simpa using h)
    cases hall
  | cons c r =>
    have hc : (c != '-') = false := by
      have := List.head?_dropWhile_not (fun c => c != '-') ports
      rw [hdrop] at this
      exact this
    obtain rfl : c = '-' := by simpa using hc
    rw [hdrop] at hsplit
    exact hsplit.symm

/-- **A text with the right parts**, where the address does not end at a slash, is one that is written
as it should be. -/
theorem Written.exists_text {proto : RuleProto} {ta : List Char} (h : Written ta)
    (hslash : (behindAddr ta).head? ≠ some '/') (hallowed : PortsAllowed proto ta) :
    ∃ t : RuleText, t.Ok proto ∧ t.text = ta := by
  obtain ⟨⟨ip, hip⟩, hlow, hhigh, hle, hmax⟩ := h
  have hsplit : addrText ta ++ behindAddr ta = ta := List.takeWhile_append_dropWhile
  have hbehind : behindMask ta = behindAddr ta := if_neg hslash
  have haligned : BitPrefix.Aligned 32 (htonl ip) := BitPrefix.aligned_self _
  rw [PortsAllowed, hbehind] at hallowed
  rw [portsText, hbehind] at hlow hhigh hle hmax
  rw [hip] at hsplit
  cases hdrop : behindAddr ta with
  | nil =>
    rw [hdrop] at hsplit
    refine ⟨⟨ip, none, none⟩, ⟨fun n hn => (by cases hn), le_rfl, haligned, fun h => (by cases h),
      fun p hp => (by cases hp), Nat.zero_le _, le_rfl⟩, ?_⟩
    rw [← hsplit]
    rfl
  | cons c r =>
    have hc : c = ':' := by
      have hhead := List.head?_dropWhile_not (fun c => !isSeparator c) ta
      rw [show ta.dropWhile (fun c => !isSeparator c) = c :: r from hdrop] at hhead
      have hsep : c ≠ '/' → c = ':' := by simpa [isSeparator] using hhead
      refine hsep fun hc => hslash ?_
      rw [hdrop, hc, List.head?_cons]
    subst hc
    rw [hdrop] at hallowed hsplit hlow hhigh hle hmax
    rw [List.head?_cons, if_pos rfl, List.tail_cons] at hlow hhigh hle hmax
    by_cases hminus : r.contains '-' = true
    · refine ⟨⟨ip, none, some (lowPort r, some (highPort r))⟩, ⟨fun n hn => (by cases hn), le_rfl,
        haligned, fun _ => hallowed rfl, ?_, hle, hmax⟩, ?_⟩
      · intro p hp
        obtain rfl := Option.some.inj hp
        refine ⟨hlow, fun q hq => ?_⟩
        obtain rfl := Option.some.inj hq
        exact hhigh
      · rw [← hsplit]
        conv_rhs => rw [ports_split hminus]
        rfl
    · have hwhole : highPort r = r := if_neg hminus
      have hlower : lowPort r = r := List.takeWhile_eq_self_iff.mpr fun c hc => by
        have : c ≠ '-' := fun h => hminus (by simpa [h] using hc)
        simpa using this
      rw [hlower] at hlow hle
      rw [hwhole] at hle hmax
      refine ⟨⟨ip, none, some (r, none)⟩, ⟨fun n hn => (by cases hn), le_rfl, haligned,
        fun _ => hallowed rfl, ?_, hle, hmax⟩, ?_⟩
      · intro p hp
        obtain rfl := Option.some.inj hp
        exact ⟨hlow, fun q hq => (by cases hq)⟩
      · rw [← hsplit]
        change (inetNtoString ip).toList ++ ([] ++ ':' :: (r ++ [])) = _
        rw [List.append_nil, List.nil_append]

/-! ## Rules that were rejected -/

/-- What `ParseAddress` returns and the rule it has read do not depend on what the rule was. -/
theorem parseAddress_stale (ta : List Char) {rule rule' : Rule} (hproto : rule.proto = rule'.proto) :
    (parseAddress ta rule).result.1 = (parseAddress ta rule').result.1 ∧
      ((parseAddress ta rule).result.1 = false → rule.dir = rule'.dir →
        (parseAddress ta rule).result.2 = (parseAddress ta rule').result.2) := by
  rw [result_parseAddress, result_parseAddress, hproto]
  by_cases h : PortsAllowed rule'.proto ta
  · rw [if_pos h, if_pos h]
    unfold convert
    split
    · dsimp only
      split_ifs
      · exact ⟨rfl, fun h => by cases h⟩
      · refine ⟨rfl, fun _ hdir => ?_⟩
        rw [hproto, hdir]
    · exact ⟨rfl, fun h => by cases h⟩
  · rw [if_neg h, if_neg h]
    exact ⟨rfl, fun h => by cases h⟩

/-- A line is read without a look at the last rule. -/
theorem readLine_stale (rul rul' : Rule) (str : List Char) : readLine rul str = readLine rul' str := by
  unfold readLine
  split_ifs
  · rfl
  · cases scanWords str with
    | none => rfl
    | some w =>
      obtain ⟨tp, ta, td⟩ := w
      dsimp only
      cases findProto tp with
      | none => rfl
      | some proto =>
        cases findDir td with
        | none => rfl
        | some dir =>
          dsimp only
          have hproto : ({ rul with proto := proto, dir := dir } : Rule).proto =
              ({ rul' with proto := proto, dir := dir } : Rule).proto := rfl
          obtain ⟨hfst, hsnd⟩ := parseAddress_stale ta hproto
          rw [← hfst]
          split_ifs with hfailed
          · rfl
          · rw [hsnd (Bool.not_eq_true _ ▸ hfailed) rfl]

/-- **Nothing that is left of another line is used.** -/
theorem readLines_stale (test : Bool) (rul rul' : Rule) (rules : List Rule)
    (lines : List (List Char)) :
    readLines test rul rules lines = readLines test rul' rules lines := by
  induction lines generalizing rul rul' with
  | nil => rfl
  | cons str lines ih =>
    rw [readLines, readLines, readLine_stale rul rul' str]
    cases readLine rul' str with
    | skipped => exact ih rul rul'
    | failed => rfl
    | rule r => rfl

/-- The rule that is not initialised is not used. -/
theorem readRules_stale (test : Bool) (file : Option (List Char)) (rul rul' : Rule)
    (rules : List Rule) : readRules test file rul rules = readRules test file rul' rules := by
  cases file with
  | none => rfl
  | some text => exact readLines_stale test rul rul' rules _

/-- Behind an address that is rejected nothing is read any more. -/
theorem readLines_of_rejected {proto : RuleProto} {ta : List Char} {rule : Rule}
    (hproto : rule.proto = proto) (hfailed : (parseAddress ta rule).result.1 = true) (test : Bool)
    (rul : Rule) (rules : List Rule) (later : List (List Char)) {str tp td : List Char}
    (hcomment : isComment str = false) (hwords : scanWords str = some (tp, ta, td))
    (htp : findProto tp = some proto) : readLines test rul rules (str :: later) = (true, rules) := by
  have hline : readLine rul str = .failed := by
    rw [readLine, if_neg (by rw [hcomment]; exact Bool.false_ne_true), hwords]
    dsimp only
    rw [htp]
    cases findDir td with
    | none => rfl
    | some dir =>
      dsimp only
      have hsame : rule.proto = ({ rul with proto := proto, dir := dir } : Rule).proto := hproto
      have hfst := (parseAddress_stale ta hsame).1
      rw [if_pos (hfst.symm.trans hfailed)]
  rw [readLines, hline]

/-! ## Texts that are read as what they denote -/

/-- A text is accepted exactly if it is written as it should be, and read as what it denotes; nothing of
a text that is rejected is used; and nothing is written outside the buffers. -/
structure ParsesExactly (proto : RuleProto) (ta : List Char) : Prop where
  /-- Nothing is written outside the buffers. -/
  inside : ∀ rule, rule.proto = proto → ∀ w ∈ (parseAddress ta rule).writes, Inside w
  /-- What is accepted, and the rule that is read. -/
  accepts : ∀ rule, rule.proto = proto → ∀ rule', (parseAddress ta rule).result = (false, rule') ↔
    ∃ t : RuleText, t.Ok proto ∧ t.text = ta ∧ t.set rule = rule'
  /-- What is rejected. -/
  unused : ∀ rule, rule.proto = proto → (parseAddress ta rule).result.1 = true →
    ∀ test rul rules later str tp td, isComment str = false → scanWords str = some (tp, ta, td) →
      findProto tp = some proto → readLines test rul rules (str :: later) = (true, rules)

/-- The functions of the C library read the parts of a text without a slash. -/
structure Scanned (proto : RuleProto) (ta : List Char) : Prop where
  /-- There are only ports if the protocol has some. -/
  allowed : PortsAllowed proto ta
  /-- The address. -/
  addr : (inetAton (addrText ta)).isSome
  /-- The lowest port. -/
  low : (readWord (lowPort (portsText ta))).isSome
  /-- The highest port. -/
  high : (readWord (highPort (portsText ta))).isSome

/-- The parts fit into their buffers, and what the C library can read is written as it should be: there
is no address in another notation, no port that is empty or has a sign, and none that is out of range
or out of order. -/
structure ParsesExactlyWhen (proto : RuleProto) (ta : List Char) : Prop where
  /-- The parts fit. -/
  fits : Fits proto ta
  /-- What can be read is written as it should be. -/
  strict : Scanned proto ta → Written ta

/-- What is accepted without a slash. -/
theorem exists_result_iff_scanned {ta : List Char} {rule : Rule}
    (hslash : (behindAddr ta).head? ≠ some '/') :
    (∃ rule', (parseAddress ta rule).result = (false, rule')) ↔ Scanned rule.proto ta := by
  have hmask : maskText ta = "32".toList := if_neg hslash
  have hword : readWord "32".toList = some 32 := by decide
  rw [result_parseAddress, hmask]
  constructor
  · rintro ⟨rule', h⟩
    by_cases hallowed : PortsAllowed rule.proto ta
    · rw [if_pos hallowed, convert_eq_false_iff] at h
      obtain ⟨msk, prt1, prt2, ip, -, hlow, hhigh, haddr, -, -⟩ := h
      exact ⟨hallowed, by rw [haddr]; rfl, by rw [hlow]; rfl, by rw [hhigh]; rfl⟩
    · rw [if_neg hallowed] at h
      cases (Prod.mk.inj h).1
  · rintro ⟨hallowed, haddr, hlow, hhigh⟩
    obtain ⟨ip, hip⟩ := Option.isSome_iff_exists.mp haddr
    obtain ⟨prt1, hprt1⟩ := Option.isSome_iff_exists.mp hlow
    obtain ⟨prt2, hprt2⟩ := Option.isSome_iff_exists.mp hhigh
    rw [if_pos hallowed]
    exact ⟨_, convert_eq_false_iff.mpr ⟨32, prt1, prt2, ip, hword, hprt1, hprt2, hip,
      BitPrefix.aligned_self _, rfl⟩⟩

/-- **The texts that are read as what they denote.** -/
theorem rule_address_exact_iff (proto : RuleProto) (ta : List Char) :
    ParsesExactly proto ta ↔ ParsesExactlyWhen proto ta := by
  constructor
  · intro h
    obtain ⟨rule, rfl⟩ : ∃ rule : Rule, rule.proto = proto := ⟨⟨0, 0, 0, 0, proto, 0⟩, rfl⟩
    have hfits := (inside_iff ta rule).mp (h.inside rule rfl)
    refine ⟨hfits, fun hscanned => ?_⟩
    obtain ⟨rule', hrule'⟩ := (exists_result_iff_scanned hfits.no_slash).mpr hscanned
    obtain ⟨t, hok, rfl, -⟩ := (h.accepts rule rfl rule').mp hrule'
    exact written_text hok
  · rintro ⟨hfits, hstrict⟩
    refine ⟨?_, ?_, ?_⟩
    · rintro rule rfl
      exact (inside_iff ta rule).mpr hfits
    · rintro rule rfl rule'
      constructor
      · intro h
        have hscanned := (exists_result_iff_scanned hfits.no_slash).mp ⟨rule', h⟩
        obtain ⟨t, hok, rfl⟩ := (hstrict hscanned).exists_text hfits.no_slash hscanned.allowed
        rw [parseAddress_text hok rfl] at h
        exact ⟨t, hok, rfl, (Prod.mk.inj h).2⟩
      · rintro ⟨t, hok, rfl, rfl⟩
        exact parseAddress_text hok rfl
    · intro rule hproto hfailed test rul rules later str tp td hcomment hwords htp
      exact readLines_of_rejected hproto hfailed test rul rules later hcomment hwords htp

/-- The loop for the mask starts in front of its buffer, and a port that is too large is read as another
one. -/
theorem rule_addresses_not_exact :
    ¬ ParsesExactly .tcp "10.0.0.0/8".toList ∧ ¬ ParsesExactly .tcp "10.0.0.1:70000".toList := by
  constructor
  · intro h
    have hfits := (inside_iff _ _).mp (h.inside ⟨0, 0, 0, 0, .tcp, 0⟩ rfl)
    exact hfits.no_slash (by decide)
  · intro h
    have hread : (parseAddress "10.0.0.1:70000".toList ⟨0, 0, 0, 0, .tcp, 0⟩).result =
        (false, ⟨0x0100000A, BitVec.allOnes 32, 4464, 4464, .tcp, 0⟩) := by decide
    obtain ⟨t, hok, htext, -⟩ := (h.accepts _ rfl _).mp hread
    have hwritten := written_text hok
    rw [htext] at hwritten
    exact absurd hwritten.high_le (by decide)

end RuleFile

end Stargazer
