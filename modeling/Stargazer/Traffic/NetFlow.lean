import Mathlib.Algebra.BigOperators.Group.List.Basic
import Stargazer.Crypto.Blowfish
import Stargazer.Traffic.PacketOrder
import Stargazer.Users.UserIPs

set_option relaxedAutoImplicit false
set_option autoImplicit false

/-!
# NetFlow

`NF_CAP` (`plugins/capture/cap_nf/cap_nf.cpp`) receives NetFlow datagrams of version 5 and hands each
record of them to the traffic counter as if it were a captured packet.  The number of bytes of a record
is put into `RawPacket::dataLen`, where `-1` stands for the length in the header of the packet, and the
counter adds the lengths up in 32 bits.

A read from the buffer of the datagram is `none` if there is no byte that has been received.  A record
has no result where its flow and those of the counter are not in a strict weak order
(`TraffCounterImpl.process?`); NetFlow has records of ICMP and of the protocol 0 like any others.

## Main definitions

* `Stargazer.NetFlow.parseBuffer`, `Stargazer.NetFlow.receive` — the functions of the source.
* `Stargazer.NetFlow.account` — a datagram arrives.
* `Stargazer.NetFlow.ParsedExactly`, `Stargazer.NetFlow.CountedExactly` — the datagram is taken for what
  it is, and its bytes are added.
* `Stargazer.NetFlow.AllSearchable` — every record finds its place in the map of the counter.

## Main results

* `Stargazer.NetFlow.receive_exact` — what becomes of a datagram.
* `Stargazer.NetFlow.lenAt_foldl_processAll` — what becomes of the length of a flow.
* `Stargazer.NetFlow.netflow_exact_iff` — when all bytes are counted.
-/

namespace Stargazer

namespace NetFlow

/-! ## The functions of the source -/

/-- A byte of the datagram. -/
def byteAt (buf : List Byte) (pos : ℕ) : Option Byte := buf[pos]?

/-- A word of two bytes, on a little-endian host. -/
def wordAt (buf : List Byte) (pos : ℕ) : Option (BitVec 16) :=
  (byteAt buf pos).bind fun low => (byteAt buf (pos + 1)).map fun high => high ++ low

/-- A word of four bytes. -/
def longAt (buf : List Byte) (pos : ℕ) : Option (BitVec 32) :=
  (wordAt buf pos).bind fun low => (wordAt buf (pos + 2)).map fun high => high ++ low

/-- `NF_DATA`: the fields that are read, as they stand in the datagram. -/
structure NFData where
  /-- Source address. -/
  srcAddr : IP
  /-- Destination address. -/
  dstAddr : IP
  /-- Number of bytes, in the order of the network. -/
  octets : BitVec 32
  /-- Source port. -/
  srcPort : BitVec 16
  /-- Destination port. -/
  dstPort : BitVec 16
  /-- Protocol. -/
  proto : BitVec 8
  deriving DecidableEq

/-- The record at a position. -/
def dataAt (buf : List Byte) (pos : ℕ) : Option NFData := do
  let proto ← byteAt buf (pos + 38)
  let octets ← longAt buf (pos + 20)
  let srcAddr ← longAt buf pos
  let dstAddr ← longAt buf (pos + 4)
  let srcPort ← wordAt buf (pos + 32)
  let dstPort ← wordAt buf (pos + 34)
  return ⟨srcAddr, dstAddr, octets, srcPort, dstPort, proto⟩

/-- The packet that is made of a record; `ip_len` is zero from the beginning. -/
def NFData.packet (data : NFData) : RawPacket where
  srcIP := data.srcAddr
  dstIP := data.dstAddr
  proto := data.proto
  ipLen := 0
  sPort := data.srcPort
  dPort := data.dstPort
  dataLen := htonl data.octets

/-- The loop of `ParseBuffer`: the packets that are passed to `process`. -/
def packetsFrom (buf : List Byte) (i : ℕ) : ℕ → Option (List RawPacket)
  | 0 => some []
  | n + 1 =>
    (dataAt buf (24 + i * 48)).bind fun data =>
      (packetsFrom buf (i + 1) n).map fun ps => data.packet :: ps

/-- `NF_CAP::ParseBuffer`: the packets that are passed to `process`, `none` inside if it returns
before. -/
def parseBuffer (buf : List Byte) : Option (Option (List RawPacket)) :=
  (wordAt buf 0).bind fun version =>
    if ntohs version ≠ 5 then some none
    else
      (wordAt buf 2).bind fun count =>
        let packets := (ntohs count).toNat
        if packets > 30 then some none
        else if 24 + 48 * packets ≠ buf.length then some none
        else (packetsFrom buf 0 packets).map some

/-- The loop bodies of `RunUDP` and `RunTCP` behind `recvfrom` and `recv`. -/
def receive (buf : List Byte) : Option (Option (List RawPacket)) :=
  if buf.length < 24 then some none else parseBuffer buf

/-! ## What a datagram is -/

/-- A number of two bytes in the order of the network. -/
def number16 (buf : List Byte) (pos : ℕ) : ℕ := (buf.getD pos 0).toNat * 256 + (buf.getD (pos + 1) 0).toNat

/-- A number of four bytes in the order of the network. -/
def number32 (buf : List Byte) (pos : ℕ) : ℕ := number16 buf pos * 65536 + number16 buf (pos + 2)

/-- A packet of version 5 with at most 30 records, which fill it. -/
def Valid (buf : List Byte) : Prop :=
  24 ≤ buf.length ∧ number16 buf 0 = 5 ∧ number16 buf 2 ≤ 30 ∧ buf.length = 24 + 48 * number16 buf 2

instance (buf : List Byte) : Decidable (Valid buf) := inferInstanceAs (Decidable (_ ∧ _))

/-- A packet says the same as a record. -/
structure Describes (buf : List Byte) (pos : ℕ) (p : RawPacket) : Prop where
  srcIP : (htonl p.srcIP).toNat = number32 buf pos
  dstIP : (htonl p.dstIP).toNat = number32 buf (pos + 4)
  octets : p.dataLen.toNat = number32 buf (pos + 20)
  sPort : (ntohs p.sPort).toNat = number16 buf (pos + 32)
  dPort : (ntohs p.dPort).toNat = number16 buf (pos + 34)
  proto : p.proto = buf.getD (pos + 38) 0

/-- A datagram is taken for what it is: only its bytes are read, it is accepted iff it is valid, and
then every record is passed on. -/
def ParsedExactly (buf : List Byte) : Prop :=
  ∃ r, receive buf = some r ∧ (r.isSome ↔ Valid buf) ∧
    ∀ ps ∈ r, ps.length = number16 buf 2 ∧
      ∀ i p, ps[i]? = some p → Describes buf (24 + i * 48) p

/-! ## Accounting -/

/-- A datagram arrives: the time, the users by address, and what was received. -/
structure Reception where
  /-- `stgTime`. -/
  now : Time
  /-- `FindByIPIdx`. -/
  findByIPIdx : IP → Option UserId
  /-- What was received. -/
  buf : List Byte

/-- The packets that are passed to `process`. -/
def Reception.packets (r : Reception) : List RawPacket := ((receive r.buf).getD none).getD []

/-- The packets of a datagram are processed. -/
def account (s : TraffCounterImpl (BitVec 32)) (r : Reception) : Option (TraffCounterImpl (BitVec 32)) :=
  r.packets.foldlM (fun s p => s.process? r.now r.findByIPIdx p.key p.getLen) s

/-- `lenU` and `lenD` of a flow. -/
def lenAt (s : TraffCounterImpl (BitVec 32)) (k : FlowKey) (d : Side) : BitVec 32 :=
  (s.packets.lookup k).elim 0 fun e => (e.side d).len

/-- The flow is counted: it is known, or there is always a user at one of its ends. -/
def Counted (s : TraffCounterImpl (BitVec 32)) (k : FlowKey) (run : List Reception) : Prop :=
  (s.packets.lookup k).isSome = true ∨ ∀ r ∈ run, ∃ d, (r.findByIPIdx (k.ip d)).isSome = true

/-- The flow of the record at a position. -/
def keyAt (buf : List Byte) (pos : ℕ) : FlowKey where
  srcIP := htonl (BitVec.ofNat 32 (number32 buf pos))
  dstIP := htonl (BitVec.ofNat 32 (number32 buf (pos + 4)))
  srcPort := if buf.getD (pos + 38) 0 = 1 then 0 else BitVec.ofNat 16 (number16 buf (pos + 32))
  dstPort := if buf.getD (pos + 38) 0 = 1 then 0 else BitVec.ofNat 16 (number16 buf (pos + 34))
  proto := buf.getD (pos + 38) 0

/-- The flows and the numbers of bytes in the records of a datagram. -/
def recordsIn (buf : List Byte) : List (FlowKey × ℕ) :=
  if Valid buf then
    (List.range (number16 buf 2)).map fun i =>
      (keyAt buf (24 + i * 48), number32 buf (24 + i * 48 + 20))
  else []

/-- The numbers of bytes in the records of a flow. -/
def octetsOf (k : FlowKey) (run : List Reception) : List ℕ :=
  ((run.flatMap fun r => recordsIn r.buf).filter fun x => decide (x.1 = k)).map Prod.snd

/-- The length of a flow grows by the numbers of bytes of its records. -/
def CountedExactly (s : TraffCounterImpl (BitVec 32)) (k : FlowKey) (d : Side)
    (run : List Reception) : Prop :=
  ∃ s', run.foldlM account s = some s' ∧
    (lenAt s' k d).toNat = (lenAt s k d).toNat + (octetsOf k run).sum

/-- Every packet of a datagram finds its place in the map: the flows there and its own are ordered. -/
def Searchable (now : Time) (find : IP → Option UserId) :
    TraffCounterImpl (BitVec 32) → List RawPacket → Prop
  | _, [] => True
  | s, p :: ps => FlowKey.Sortable (p.key :: s.packets.keys) ∧
      Searchable now find (s.process now find p.key p.getLen) ps

/-- The counter where every packet of the datagram has found its place. -/
def processAll (r : Reception) (s : TraffCounterImpl (BitVec 32)) : TraffCounterImpl (BitVec 32) :=
  r.packets.foldl (fun s p => s.process r.now r.findByIPIdx p.key p.getLen) s

/-- Every packet of a run finds its place. -/
def AllSearchable : TraffCounterImpl (BitVec 32) → List Reception → Prop
  | _, [] => True
  | s, r :: run => Searchable r.now r.findByIPIdx s r.packets ∧ AllSearchable (processAll r s) run

instance (now : Time) (find : IP → Option UserId) :
    (s : TraffCounterImpl (BitVec 32)) → (ps : List RawPacket) → Decidable (Searchable now find s ps)
  | _, [] => isTrue trivial
  | s, p :: ps =>
    have := instDecidableSearchable now find (s.process now find p.key p.getLen) ps
    inferInstanceAs (Decidable (_ ∧ _))

instance : (s : TraffCounterImpl (BitVec 32)) → (run : List Reception) →
    Decidable (AllSearchable s run)
  | _, [] => isTrue trivial
  | s, r :: run =>
    have := instDecidableAllSearchable (processAll r s) run
    inferInstanceAs (Decidable (_ ∧ _))

/-! ## Reading -/

section Reading

variable {buf : List Byte} {pos : ℕ}

theorem byteAt_of_lt (h : pos < buf.length) : byteAt buf pos = some (buf.getD pos 0) := by
  rw [byteAt, List.getD_eq_getElem?_getD, List.getElem?_eq_getElem h, Option.getD_some]

theorem wordAt_of_lt (h : pos + 1 < buf.length) :
    wordAt buf pos = some (buf.getD (pos + 1) 0 ++ buf.getD pos 0) := by
  rw [wordAt, byteAt_of_lt (by omega), byteAt_of_lt h]
  rfl

theorem longAt_of_lt (h : pos + 3 < buf.length) :
    longAt buf pos = some ((buf.getD (pos + 3) 0 ++ buf.getD (pos + 2) 0) ++
      (buf.getD (pos + 1) 0 ++ buf.getD pos 0)) := by
  rw [longAt, wordAt_of_lt (by omega), wordAt_of_lt (by omega)]
  rfl

/-- The value of two words one behind the other. -/
theorem toNat_append {m n : ℕ} (x : BitVec m) (y : BitVec n) :
    (x ++ y).toNat = x.toNat * 2 ^ n + y.toNat := by
  rw [BitVec.toNat_append, ← Nat.shiftLeft_add_eq_or_of_lt y.isLt, Nat.shiftLeft_eq]

/-- The value of a word in the order of the network. -/
theorem toNat_ntohs_append (high low : Byte) :
    (ntohs (high ++ low)).toNat = low.toNat * 256 + high.toNat := by
  have hswap : ntohs (high ++ low) = low ++ high := by
    ext i hi
    simp only [ntohs]
    grind
  rw [hswap, toNat_append]
  norm_num

theorem toNat_htonl_append (a b c d : Byte) :
    (htonl ((d ++ c) ++ (b ++ a))).toNat =
      (a.toNat * 256 + b.toNat) * 65536 + (c.toNat * 256 + d.toNat) := by
  have hswap : htonl ((d ++ c) ++ (b ++ a)) = (a ++ b) ++ (c ++ d) := by
    ext i hi
    simp only [htonl]
    grind
  rw [hswap, toNat_append, toNat_append, toNat_append]
  norm_num

/-- A number of two bytes. -/
theorem toNat_ntohs_wordAt {x : BitVec 16} (hx : wordAt buf pos = some x) (h : pos + 1 < buf.length) :
    (ntohs x).toNat = number16 buf pos := by
  rw [wordAt_of_lt h] at hx
  obtain rfl := Option.some.inj hx
  exact toNat_ntohs_append _ _

/-- A number of four bytes. -/
theorem toNat_htonl_longAt {x : BitVec 32} (hx : longAt buf pos = some x) (h : pos + 3 < buf.length) :
    (htonl x).toNat = number32 buf pos := by
  rw [longAt_of_lt h] at hx
  obtain rfl := Option.some.inj hx
  exact toNat_htonl_append _ _ _ _

/-- **A record that has been received** is read whole. -/
theorem exists_dataAt (h : pos + 48 ≤ buf.length) :
    ∃ data, dataAt buf pos = some data ∧ Describes buf pos data.packet := by
  obtain ⟨src, hsrc⟩ : ∃ x, longAt buf pos = some x := ⟨_, longAt_of_lt (by omega)⟩
  obtain ⟨dst, hdst⟩ : ∃ x, longAt buf (pos + 4) = some x := ⟨_, longAt_of_lt (by omega)⟩
  obtain ⟨octets, hoctets⟩ : ∃ x, longAt buf (pos + 20) = some x := ⟨_, longAt_of_lt (by omega)⟩
  obtain ⟨sPort, hsPort⟩ : ∃ x, wordAt buf (pos + 32) = some x := ⟨_, wordAt_of_lt (by omega)⟩
  obtain ⟨dPort, hdPort⟩ : ∃ x, wordAt buf (pos + 34) = some x := ⟨_, wordAt_of_lt (by omega)⟩
  have hproto : byteAt buf (pos + 38) = some (buf.getD (pos + 38) 0) := byteAt_of_lt (by omega)
  refine ⟨⟨src, dst, octets, sPort, dPort, buf.getD (pos + 38) 0⟩, ?_, ?_, ?_, ?_, ?_, ?_, rfl⟩
  · rw [dataAt, hsrc, hdst, hoctets, hsPort, hdPort, hproto]
    rfl
  · exact toNat_htonl_longAt hsrc (by omega)
  · exact toNat_htonl_longAt hdst (by omega)
  · exact toNat_htonl_longAt hoctets (by omega)
  · exact toNat_ntohs_wordAt hsPort (by omega)
  · exact toNat_ntohs_wordAt hdPort (by omega)

/-- **The loop** reads the records that are left. -/
theorem exists_packetsFrom (i n : ℕ) (h : 24 + (i + n) * 48 ≤ buf.length) :
    ∃ ps, packetsFrom buf i n = some ps ∧ ps.length = n ∧
      ∀ j p, ps[j]? = some p → Describes buf (24 + (i + j) * 48) p := by
  induction n generalizing i with
  | zero => exact ⟨[], rfl, rfl, fun j p hp => by cases hp⟩
  | succ n ih =>
    have hfits : 24 + i * 48 + 48 ≤ buf.length := by omega
    obtain ⟨data, hdata, hdescribes⟩ := exists_dataAt hfits
    obtain ⟨ps, hps, hlen, hall⟩ := ih (i + 1) (by omega)
    refine ⟨data.packet :: ps, ?_, by rw [List.length_cons, hlen], fun j p hp => ?_⟩
    · rw [packetsFrom, hdata, hps]
      rfl
    · cases j with
      | zero =>
        obtain rfl := Option.some.inj hp
        exact hdescribes
      | succ j =>
        have := hall j p hp
        rwa [show i + 1 + j = i + (j + 1) by omega] at this

/-- **What becomes of a datagram.** -/
theorem receive_exact (buf : List Byte) : ParsedExactly buf := by
  unfold ParsedExactly receive
  by_cases hlen : buf.length < 24
  · rw [if_pos hlen]
    exact ⟨none, rfl, iff_of_false Bool.false_ne_true fun h => by have := h.1; omega,
      fun ps hps => by cases hps⟩
  · rw [if_neg hlen]
    obtain ⟨version, hversion⟩ : ∃ x, wordAt buf 0 = some x := ⟨_, wordAt_of_lt (by omega)⟩
    obtain ⟨count, hcount⟩ : ∃ x, wordAt buf 2 = some x := ⟨_, wordAt_of_lt (by omega)⟩
    have hfive : ntohs version = 5 ↔ number16 buf 0 = 5 := by
      rw [← toNat_ntohs_wordAt hversion (by omega), ← BitVec.toNat_inj]
      rfl
    have hnumber := toNat_ntohs_wordAt hcount (by omega)
    unfold parseBuffer
    rw [hversion, hcount, Option.bind_some]
    by_cases h5 : ntohs version = 5
    · rw [if_neg (not_not.mpr h5), Option.bind_some]
      dsimp only
      rw [hnumber]
      by_cases h30 : number16 buf 2 > 30
      · rw [if_pos h30]
        exact ⟨none, rfl, iff_of_false Bool.false_ne_true fun h => by have := h.2.2.1; omega,
          fun ps hps => by cases hps⟩
      · rw [if_neg h30]
        by_cases hsize : 24 + 48 * number16 buf 2 = buf.length
        · have hfits : 24 + (0 + number16 buf 2) * 48 ≤ buf.length := by omega
          obtain ⟨ps, hps, hpslen, hall⟩ := exists_packetsFrom 0 (number16 buf 2) hfits
          rw [if_neg (not_not.mpr hsize), hps]
          refine ⟨some ps, rfl, iff_of_true rfl ⟨by omega, hfive.mp h5, by omega, hsize.symm⟩, ?_⟩
          rintro ps' ⟨⟩
          refine ⟨hpslen, fun i p hp => ?_⟩
          have := hall i p hp
          rwa [Nat.zero_add] at this
        · rw [if_pos hsize]
          exact ⟨none, rfl, iff_of_false Bool.false_ne_true fun h => hsize h.2.2.2.symm,
            fun ps hps => by cases hps⟩
    · rw [if_pos h5]
      exact ⟨none, rfl, iff_of_false Bool.false_ne_true fun h => h5 (hfive.mpr h.2.1),
        fun ps hps => by cases hps⟩

end Reading

/-! ## Counting -/

section Counting

variable {s : TraffCounterImpl (BitVec 32)} {k : FlowKey} {d : Side}

theorem Describes.key_eq {buf : List Byte} {pos : ℕ} {p : RawPacket} (h : Describes buf pos p) :
    p.key = keyAt buf pos := by
  have hlong : ∀ {x : BitVec 32} {n : ℕ}, (htonl x).toNat = n → x = htonl (BitVec.ofNat 32 n) := by
    rintro x n rfl
    rw [BitVec.ofNat_toNat, BitVec.setWidth_eq, htonl_htonl]
  have hword : ∀ {x : BitVec 16} {n : ℕ}, (ntohs x).toNat = n → ntohs x = BitVec.ofNat 16 n := by
    rintro x n rfl
    rw [BitVec.ofNat_toNat, BitVec.setWidth_eq]
  unfold RawPacket.key RawPacket.getSrcPort RawPacket.getDstPort keyAt
  rw [← hlong h.srcIP, ← hlong h.dstIP, hword h.sPort, hword h.dPort, h.proto]

/-- The packets of a datagram are its records. -/
theorem packets_eq (r : Reception) :
    r.packets.map (fun p => (p.key, p.dataLen.toNat)) = recordsIn r.buf := by
  obtain ⟨o, ho, hvalid, hall⟩ := receive_exact r.buf
  unfold Reception.packets recordsIn
  rw [ho, Option.getD_some]
  cases o with
  | none => rw [if_neg fun h => Bool.false_ne_true (hvalid.mpr h)]; rfl
  | some ps =>
    obtain ⟨hlen, hdescribes⟩ := hall ps rfl
    rw [if_pos (hvalid.mp rfl), Option.getD_some]
    apply List.ext_getElem?
    intro i
    rw [List.getElem?_map, List.getElem?_map]
    by_cases hi : i < ps.length
    · have hd := hdescribes i ps[i] (List.getElem?_eq_getElem hi)
      rw [List.getElem?_eq_getElem hi, List.getElem?_range (hlen ▸ hi), Option.map_some,
        Option.map_some, hd.key_eq, hd.octets]
    · rw [List.getElem?_eq_none (Nat.not_lt.mp hi),
        List.getElem?_eq_none (by rw [List.length_range]; omega)]
      rfl

/-- The header of a packet says nothing of its length. -/
theorem ipLen_eq_zero {r : Reception} {p : RawPacket} (h : p ∈ r.packets) : p.ipLen = 0 := by
  have hloop : ∀ n i ps, packetsFrom r.buf i n = some ps → ∀ p ∈ ps, p.ipLen = 0 := by
    intro n
    induction n with
    | zero =>
      rintro i ps ⟨⟩ p hp
      cases hp
    | succ n ih =>
      intro i ps hps p hp
      obtain ⟨data, -, hrest⟩ := Option.bind_eq_some_iff.mp hps
      obtain ⟨rest, hrest', rfl⟩ := Option.map_eq_some_iff.mp hrest
      rcases List.mem_cons.mp hp with rfl | hp
      · rfl
      · exact ih _ _ hrest' p hp
  unfold Reception.packets receive parseBuffer at h
  by_cases hlen : r.buf.length < 24
  · rw [if_pos hlen] at h
    cases h
  · rw [if_neg hlen] at h
    cases hversion : wordAt r.buf 0 with
    | none =>
      rw [hversion] at h
      cases h
    | some version =>
      rw [hversion, Option.bind_some] at h
      split_ifs at h
      · cases h
      · cases hcount : wordAt r.buf 2 with
        | none =>
          rw [hcount] at h
          cases h
        | some count =>
          rw [hcount, Option.bind_some] at h
          dsimp only at h
          split_ifs at h
          · cases h
          · cases h
          · cases hps : packetsFrom r.buf 0 (ntohs count).toNat with
            | none =>
              rw [hps] at h
              cases h
            | some ps =>
              rw [hps] at h
              exact hloop _ _ _ hps p h

/-- **A packet of a flow that is counted.** -/
theorem lenAt_process (now : Time) (find : IP → Option UserId) (len : BitVec 32)
    (h : (s.packets.lookup k).isSome = true ∨ ∃ d, (find (k.ip d)).isSome = true) :
    lenAt (s.process now find k len) k d = lenAt s k d + len ∧
      ((s.process now find k len).packets.lookup k).isSome = true := by
  unfold lenAt
  rw [TraffCounterImpl.lookup_process]
  cases hl : s.packets.lookup k with
  | some e => exact ⟨rfl, rfl⟩
  | none =>
    have hpresent : (PacketExtraData.new s.rules now find k len).anyPresent = true := by
      rcases h with h | ⟨d, hd⟩
      · rw [hl] at h
        cases h
      · unfold PacketExtraData.anyPresent PacketExtraData.new
        cases d with
        | up => rw [hd]; rfl
        | down => rw [hd, Bool.or_true]
    dsimp only
    rw [if_pos hpresent]
    exact ⟨(BitVec.zero_add len).symm, rfl⟩

/-- **The packets of a datagram.** -/
theorem lenAt_foldl_process (now : Time) (find : IP → Option UserId) (ps : List RawPacket)
    (h : (s.packets.lookup k).isSome = true ∨ ∃ d, (find (k.ip d)).isSome = true) :
    lenAt (ps.foldl (fun s p => s.process now find p.key p.getLen) s) k d =
        lenAt s k d + ((ps.filter fun p => decide (p.key = k)).map RawPacket.getLen).sum ∧
      ((s.packets.lookup k).isSome = true →
        ((ps.foldl (fun s p => s.process now find p.key p.getLen) s).packets.lookup k).isSome = true) := by
  induction ps generalizing s with
  | nil => exact ⟨(BitVec.add_zero _).symm, id⟩
  | cons p ps ih =>
    rw [List.foldl_cons]
    by_cases hk : p.key = k
    · subst hk
      obtain ⟨hlen, hknown⟩ := lenAt_process (s := s) (d := d) now find p.getLen h
      obtain ⟨hrest, hkeep⟩ := ih (.inl hknown)
      refine ⟨?_, fun _ => hkeep hknown⟩
      rw [hrest, hlen, List.filter_cons_of_pos (by simp), List.map_cons, List.sum_cons,
        BitVec.add_assoc]
    · have hlookup : (s.process now find p.key p.getLen).packets.lookup k = s.packets.lookup k :=
        TraffCounterImpl.lookup_process_of_ne _ _ _ _ _ (Ne.symm hk)
      have hsame : lenAt (s.process now find p.key p.getLen) k d = lenAt s k d := by
        unfold lenAt
        rw [hlookup]
      obtain ⟨hrest, hkeep⟩ := ih (s := s.process now find p.key p.getLen) (by rw [hlookup]; exact h)
      rw [hlookup] at hkeep
      refine ⟨?_, hkeep⟩
      rw [hrest, hsame, List.filter_cons_of_neg (by simpa using hk)]

/-- **A datagram has a result** iff all its packets find their places. -/
theorem foldlM_process?_eq_some_iff (now : Time) (find : IP → Option UserId) (ps : List RawPacket)
    {s' : TraffCounterImpl (BitVec 32)} :
    ps.foldlM (fun s p => s.process? now find p.key p.getLen) s = some s' ↔
      Searchable now find s ps ∧ ps.foldl (fun s p => s.process now find p.key p.getLen) s = s' := by
  induction ps generalizing s with
  | nil => simp [Searchable]
  | cons p ps ih =>
    simp only [List.foldlM_cons, Option.bind_eq_bind, Option.bind_eq_some_iff,
      TraffCounterImpl.process?_eq_some_iff, Searchable, List.foldl_cons, and_assoc, exists_and_left,
      exists_eq_left', ih]

/-- **A run has a result** iff all packets find their places. -/
theorem foldlM_account_eq_some_iff (run : List Reception) {s' : TraffCounterImpl (BitVec 32)} :
    run.foldlM account s = some s' ↔
      AllSearchable s run ∧ run.foldl (fun s r => processAll r s) s = s' := by
  induction run generalizing s with
  | nil => simp [AllSearchable]
  | cons r run ih =>
    have hone {s₁ : TraffCounterImpl (BitVec 32)} : account s r = some s₁ ↔
        Searchable r.now r.findByIPIdx s r.packets ∧ processAll r s = s₁ :=
      foldlM_process?_eq_some_iff r.now r.findByIPIdx r.packets
    simp only [List.foldlM_cons, Option.bind_eq_bind, Option.bind_eq_some_iff, hone, AllSearchable,
      List.foldl_cons, and_assoc, exists_and_left, exists_eq_left', ih]

/-- The lengths of the packets of a flow in some datagrams. -/
def lengthsOf (k : FlowKey) (run : List Reception) : List (BitVec 32) :=
  ((run.flatMap Reception.packets).filter fun p => decide (p.key = k)).map RawPacket.getLen

/-- **The datagrams of a run.** -/
theorem lenAt_foldl_processAll (run : List Reception) (h : Counted s k run) :
    lenAt (run.foldl (fun s r => processAll r s) s) k d = lenAt s k d + (lengthsOf k run).sum := by
  induction run generalizing s with
  | nil => exact (BitVec.add_zero _).symm
  | cons r run ih =>
    have hone : (s.packets.lookup k).isSome = true ∨ ∃ d, (r.findByIPIdx (k.ip d)).isSome = true :=
      h.imp id fun h => h r List.mem_cons_self
    obtain ⟨hlen, hkeep⟩ := lenAt_foldl_process (d := d) r.now r.findByIPIdx r.packets hone
    have hrest : Counted (processAll r s) k run :=
      h.imp hkeep fun h r hr => h r (List.mem_cons_of_mem _ hr)
    rw [List.foldl_cons, ih hrest]
    unfold processAll lengthsOf
    rw [hlen, List.flatMap_cons, List.filter_append, List.map_append, List.sum_append,
      BitVec.add_assoc]

/-- What the counter adds for a record. -/
def counted (octets : ℕ) : ℕ := if octets = 2 ^ 32 - 1 then 0 else octets

theorem toNat_getLen {r : Reception} {p : RawPacket} (h : p ∈ r.packets) :
    p.getLen.toNat = counted p.dataLen.toNat := by
  have hmax : p.dataLen = -1 ↔ p.dataLen.toNat = 2 ^ 32 - 1 := by
    rw [← BitVec.toNat_inj]
    rfl
  unfold RawPacket.getLen counted
  by_cases hsentinel : p.dataLen = -1
  · rw [if_neg (not_not.mpr hsentinel), if_pos (hmax.mp hsentinel), ipLen_eq_zero h]
    rfl
  · rw [if_pos hsentinel, if_neg fun heq => hsentinel (hmax.mpr heq)]

/-- The lengths are the numbers of bytes, but for the sentinel. -/
theorem map_toNat_lengthsOf (k : FlowKey) (run : List Reception) :
    (lengthsOf k run).map BitVec.toNat = (octetsOf k run).map counted := by
  induction run with
  | nil => rfl
  | cons r run ih =>
    unfold lengthsOf octetsOf at ih ⊢
    rw [List.flatMap_cons, List.flatMap_cons, List.filter_append, List.filter_append,
      List.map_append, List.map_append, List.map_append, List.map_append, ih, ← packets_eq,
      List.filter_map, List.map_map, List.map_map, List.map_map]
    congr 1
    rw [List.map_map]
    apply List.map_congr_left
    intro p hp
    exact toNat_getLen (List.mem_filter.mp hp).1

theorem toNat_sum (l : List (BitVec 32)) : l.sum.toNat = (l.map BitVec.toNat).sum % 2 ^ 32 := by
  induction l with
  | nil => rfl
  | cons x l ih =>
    rw [List.sum_cons, BitVec.toNat_add, ih, List.map_cons, List.sum_cons]
    omega

/-- Without a sentinel everything is counted, with one it is missing. -/
theorem sum_counted (os : List ℕ) :
    (2 ^ 32 - 1 ∉ os → (os.map counted).sum = os.sum) ∧
      (2 ^ 32 - 1 ∈ os → (os.map counted).sum + (2 ^ 32 - 1) ≤ os.sum) ∧
        (os.map counted).sum ≤ os.sum := by
  induction os with
  | nil => exact ⟨fun _ => rfl, fun h => (by cases h), le_rfl⟩
  | cons o os ih =>
    obtain ⟨hwithout, hwith, hle⟩ := ih
    rw [List.map_cons, List.sum_cons, List.sum_cons, List.mem_cons]
    by_cases ho : o = 2 ^ 32 - 1
    · have hzero : counted o = 0 := if_pos ho
      rw [hzero]
      exact ⟨fun h => absurd (.inl ho.symm) h, fun _ => by omega, by omega⟩
    · have hsame : counted o = o := if_neg ho
      rw [hsame]
      refine ⟨fun h => ?_, fun h => ?_, by omega⟩
      · rw [hwithout fun hmem => h (.inr hmem)]
      · have := hwith (h.resolve_left fun heq => ho heq.symm)
        omega

/-- **When all bytes are counted:** every record finds its place in the map, none of the flow has the
length that stands for another one, and the sum fits into 32 bits. -/
theorem netflow_exact_iff (buf : List Byte) (s : TraffCounterImpl (BitVec 32)) (k : FlowKey) (d : Side)
    (run : List Reception) (h : Counted s k run) :
    (ParsedExactly buf ∧ CountedExactly s k d run) ↔
      AllSearchable s run ∧ 2 ^ 32 - 1 ∉ octetsOf k run ∧
        (lenAt s k d).toNat + (octetsOf k run).sum < 2 ^ 32 := by
  obtain ⟨hwithout, hwith, hle⟩ := sum_counted (octetsOf k run)
  have hlt := (lenAt s k d).isLt
  unfold CountedExactly
  simp only [and_iff_right (receive_exact buf), foldlM_account_eq_some_iff, and_assoc,
    exists_and_left, exists_eq_left', and_congr_right_iff]
  intro _
  rw [lenAt_foldl_processAll run h, BitVec.toNat_add, toNat_sum, map_toNat_lengthsOf]
  by_cases hmem : 2 ^ 32 - 1 ∈ octetsOf k run
  · have := hwith hmem
    have hmod := Nat.mod_le ((lenAt s k d).toNat + ((octetsOf k run).map counted).sum % 2 ^ 32) (2 ^ 32)
    have hmod' := Nat.mod_le ((octetsOf k run).map counted).sum (2 ^ 32)
    exact iff_of_false (by omega) fun h => h.1 hmem
  · rw [hwithout hmem, and_iff_right hmem]
    omega

/-- A datagram with one record, the four bytes of its length from the highest on. -/
def sample (a b c d : Byte) : List Byte :=
  [0, 5, 0, 1] ++ List.replicate 40 0 ++ [a, b, c, d] ++ List.replicate 24 0

/-- The sample arrives at a time when every address has a user. -/
def sampleReception (a b c d : Byte) : Reception := ⟨0, fun _ => some 0, sample a b c d⟩

/-- The counter at the beginning. -/
def sampleCounter : TraffCounterImpl (BitVec 32) := ⟨[], ∅, []⟩

/-- A record of 65536 bytes is counted. -/
theorem netflow_exact_sample :
    ParsedExactly (sample 0 1 0 0) ∧
      CountedExactly sampleCounter (keyAt (sample 0 1 0 0) 24) .up [sampleReception 0 1 0 0] :=
  (netflow_exact_iff _ _ _ _ _ (.inr fun r hr => ⟨.up, by rw [List.mem_singleton.mp hr]; rfl⟩)).mpr
    (by decide +kernel)

/-- **A record of 4294967295 bytes** is a packet without any. -/
theorem netflow_not_exact :
    ∃ (buf : List Byte) (s : TraffCounterImpl (BitVec 32)) (k : FlowKey) (d : Side)
      (run : List Reception), Counted s k run ∧ ¬(ParsedExactly buf ∧ CountedExactly s k d run) := by
  refine ⟨sample 255 255 255 255, sampleCounter, keyAt (sample 255 255 255 255) 24, .up,
    [sampleReception 255 255 255 255],
    .inr fun r hr => ⟨.up, by rw [List.mem_singleton.mp hr]; rfl⟩, fun h => ?_⟩
  obtain ⟨s', hs', hcounted⟩ := h.2
  obtain ⟨-, rfl⟩ := (foldlM_account_eq_some_iff _).mp hs'
  revert hcounted
  decide +kernel

end Counting

end NetFlow

end Stargazer
