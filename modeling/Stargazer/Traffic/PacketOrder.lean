import Stargazer.Crypto.Blowfish
import Stargazer.Lib.Comparator
import Stargazer.Traffic.Counter

set_option relaxedAutoImplicit false
set_option autoImplicit false

/-!
# The order of packets

`RawPacket::operator==` and `RawPacket::operator<` (`include/stg/raw_ip_packet.h`) on the raw data of a
packet.  `std::map` needs a strict weak order.  The ports are compared before the protocol, but not if
one of the packets is an ICMP one: between the same addresses a packet of the protocol 0 is less than
an ICMP one, which is less than one of any later protocol, and that one may be less than the first.

What `std::map` does with keys that are not in a strict weak order is not defined: `find` misses keys
that are there, and `insert` adds a key twice or refuses it.  `TraffCounterImpl.process?` is
`TraffCounterImpl.process` where the flows of the map and the one of the packet are ordered, and has no
result elsewhere.

## Main definitions

* `Stargazer.RawData` — a packet as raw data, with a header of any length.
* `Stargazer.RawPacket.eq` — `RawPacket::operator==`.
* `Stargazer.RawPacket.Circle` — three packets that are compared in a circle.
* `Stargazer.FlowKey.Sortable` — flows that can be the keys of a map.
* `Stargazer.TraffCounterImpl.process?` — `TraffCounterImpl::process` on a map.

## Main results

* `Stargazer.RawPacket.circle_iff` — there are no other circles.
* `Stargazer.RawData.strict_weak_order_iff` — the sets of packets that are ordered.
* `Stargazer.FlowKey.sortable_iff` — flows that can be the keys of a map are in a strict weak order.
-/

namespace Stargazer

/-! ## Raw data -/

/-- `packetSize`. -/
def packetSize : ℕ := 68

/-- A packet as raw data. -/
structure RawData where
  /-- `rawPacket.data`. -/
  data : Fin packetSize → Byte
  /-- `dataLen`. -/
  dataLen : BitVec 32 := -1

namespace RawData

/-- The byte at an offset. -/
def byteAt (p : RawData) (pos : ℕ) : Byte := if h : pos < packetSize then p.data ⟨pos, h⟩ else 0

/-- The word of two bytes at an offset, on a little-endian host. -/
def wordAt (p : RawData) (pos : ℕ) : BitVec 16 := p.byteAt (pos + 1) ++ p.byteAt pos

/-- The word of four bytes at an offset. -/
def longAt (p : RawData) (pos : ℕ) : BitVec 32 := p.wordAt (pos + 2) ++ p.wordAt pos

/-- `GetHeaderLen`: `ip_hl * 4`. -/
def getHeaderLen (p : RawData) : ℕ := (p.byteAt 0 &&& 0x0F).toNat * 4

/-- The fields of `struct ip`, and the words behind the header. -/
def packet (p : RawData) : RawPacket where
  srcIP := p.longAt 12
  dstIP := p.longAt 16
  proto := p.byteAt 9
  ipLen := p.wordAt 2
  sPort := p.wordAt p.getHeaderLen
  dPort := p.wordAt (p.getHeaderLen + 2)
  dataLen := p.dataLen

end RawData

namespace RawPacket

/-- `RawPacket::operator==`. -/
def eq (p q : RawPacket) : Bool :=
  if p.srcIP ≠ q.srcIP then false
  else if p.dstIP ≠ q.dstIP then false
  else if p.proto ≠ 1 ∧ q.proto ≠ 1 ∧ p.sPort ≠ q.sPort then false
  else if p.proto ≠ 1 ∧ q.proto ≠ 1 ∧ p.dPort ≠ q.dPort then false
  else if p.proto ≠ q.proto then false
  else true

/-- Equal packets belong to one flow. -/
theorem eq_iff_key_eq (p q : RawPacket) : p.eq q = true ↔ p.key = q.key := by
  unfold eq
  simp only [key, getSrcPort, getDstPort, FlowKey.mk.injEq]
  constructor
  · intro h
    split_ifs at h with hsrc hdst hs hd hp
    rw [not_not] at hsrc hdst hp
    refine ⟨hsrc, hdst, ?_, ?_, hp⟩
    · by_cases h1 : q.proto = 1
      · rw [hp, if_pos h1, if_pos h1]
      · rw [hp, if_neg h1, if_neg h1, ntohs_inj]
        by_contra hne
        exact hs ⟨hp ▸ h1, h1, hne⟩
    · by_cases h1 : q.proto = 1
      · rw [hp, if_pos h1, if_pos h1]
      · rw [hp, if_neg h1, if_neg h1, ntohs_inj]
        by_contra hne
        exact hd ⟨hp ▸ h1, h1, hne⟩
  · rintro ⟨hsrc, hdst, hs, hd, hp⟩
    have hport : ∀ {x y : BitVec 16}, (if p.proto = 1 then 0 else ntohs x) =
        (if q.proto = 1 then 0 else ntohs y) → ¬ (p.proto ≠ 1 ∧ q.proto ≠ 1 ∧ x ≠ y) := by
      rintro x y h ⟨h1, h2, hne⟩
      rw [if_neg h1, if_neg h2, ntohs_inj] at h
      exact hne h
    rw [if_neg (not_not.mpr hsrc), if_neg (not_not.mpr hdst), if_neg (hport hs), if_neg (hport hd),
      if_neg (not_not.mpr hp)]

/-- `RawPacket::operator<` in one line: the addresses, the ports where both packets have them, the
protocol. -/
theorem lt_iff (p q : RawPacket) : p.lt q = true ↔
    p.srcIP < q.srcIP ∨ p.srcIP = q.srcIP ∧ (p.dstIP < q.dstIP ∨ p.dstIP = q.dstIP ∧
      (p.proto ≠ 1 ∧ q.proto ≠ 1 ∧ (p.sPort < q.sPort ∨ p.sPort = q.sPort ∧ p.dPort < q.dPort) ∨
        (p.proto ≠ 1 → q.proto ≠ 1 → p.sPort = q.sPort ∧ p.dPort = q.dPort) ∧
          p.proto < q.proto)) := by
  unfold lt
  simp only [BitVec.lt_def, ← BitVec.toNat_inj, ne_eq]
  grind

/-- Of two packets at most one is less than the other. -/
theorem lt_asymm {p q : RawPacket} (h : p.lt q = true) : q.lt p = false := by
  rw [← Bool.not_eq_true, lt_iff]
  rw [lt_iff] at h
  simp only [BitVec.lt_def, ← BitVec.toNat_inj, ne_eq] at h ⊢
  omega

/-- Only the flow of a packet matters. -/
theorem lt_congr {p p' : RawPacket} (hkey : p.key = p'.key) (q : RawPacket) :
    p.lt q = true ↔ p'.lt q = true := by
  simp only [key, getSrcPort, getDstPort, FlowKey.mk.injEq] at hkey
  obtain ⟨hsrc, hdst, hs, hd, hp⟩ := hkey
  rw [lt_iff, lt_iff, hsrc, hdst, hp]
  by_cases h1 : p'.proto = 1
  · simp [h1]
  · rw [hp, if_neg h1, if_neg h1, ntohs_inj] at hs hd
    rw [hs, hd]

/-- **The order tells flows apart.** -/
theorem tellsApart : Comparator.TellsApart key fun p q : RawPacket => p.lt q = true where
  asymm p q h := by
    rw [lt_asymm h]
    exact Bool.false_ne_true
  key_eq_iff p q := by
    rw [← not_lt_iff_key_eq, Bool.not_eq_true, Bool.not_eq_true]
  congr p p' q h := lt_congr h q

/-! ## Circles -/

/-- Three packets between the same addresses: one of the protocol 0, an ICMP packet, and one of a later
protocol whose ports are less than those of the first. -/
structure Circle (p i q : RawPacket) : Prop where
  /-- The same source. -/
  src : p.srcIP = i.srcIP ∧ i.srcIP = q.srcIP
  /-- The same destination. -/
  dst : p.dstIP = i.dstIP ∧ i.dstIP = q.dstIP
  /-- Before ICMP. -/
  fst : p.proto = 0
  /-- ICMP. -/
  icmp : i.proto = 1
  /-- After ICMP. -/
  lst : 1 < q.proto
  /-- The ports. -/
  ports : q.sPort < p.sPort ∨ q.sPort = p.sPort ∧ q.dPort < p.dPort

/-- Such packets are compared in a circle. -/
theorem Circle.lt {p i q : RawPacket} (h : Circle p i q) :
    p.lt i = true ∧ i.lt q = true ∧ q.lt p = true := by
  obtain ⟨⟨hs1, hs2⟩, ⟨hd1, hd2⟩, hp, hi, hq, hports⟩ := h
  have hq1 : q.proto ≠ 1 := fun h => BitVec.lt_irrefl _ (h ▸ hq)
  simp only [lt_iff, hs1, hs2, hd1, hd2, hp, hi]
  refine ⟨?_, ?_, ?_⟩
  · exact .inr ⟨trivial, .inr ⟨trivial, .inr ⟨fun _ h => absurd rfl h, by decide⟩⟩⟩
  · exact .inr ⟨trivial, .inr ⟨trivial, .inr ⟨fun h => absurd rfl h, hq⟩⟩⟩
  · exact .inr ⟨trivial, .inr ⟨trivial, .inl ⟨hq1, by decide, hports⟩⟩⟩

/-- **There are no other circles.** -/
theorem circle_iff {a b c : RawPacket} :
    a.lt b = true ∧ b.lt c = true ∧ c.lt a = true ↔
      Circle a b c ∨ Circle b c a ∨ Circle c a b := by
  constructor
  · rintro ⟨hab, hbc, hca⟩
    rw [lt_iff] at hab hbc hca
    have hone : (1 : BitVec 8).toNat = 1 := rfl
    simp only [BitVec.lt_def, ← BitVec.toNat_inj, ne_eq, hone] at hab hbc hca
    have hsrc : a.srcIP.toNat = b.srcIP.toNat ∧ b.srcIP.toNat = c.srcIP.toNat := by omega
    have hdst : a.dstIP.toNat = b.dstIP.toNat ∧ b.dstIP.toNat = c.dstIP.toNat := by omega
    -- without an ICMP packet the order is lexicographic, and two of them are not compared
    have hicmp : (a.proto.toNat ≠ 1 ∧ b.proto.toNat = 1 ∧ c.proto.toNat ≠ 1) ∨
        (b.proto.toNat ≠ 1 ∧ c.proto.toNat = 1 ∧ a.proto.toNat ≠ 1) ∨
        (c.proto.toNat ≠ 1 ∧ a.proto.toNat = 1 ∧ b.proto.toNat ≠ 1) := by omega
    have hcircle : ∀ {p i q : RawPacket}, p.srcIP.toNat = i.srcIP.toNat →
        i.srcIP.toNat = q.srcIP.toNat → p.dstIP.toNat = i.dstIP.toNat →
        i.dstIP.toNat = q.dstIP.toNat → p.proto.toNat = 0 → i.proto.toNat = 1 →
        1 < q.proto.toNat → (q.sPort.toNat < p.sPort.toNat ∨
          q.sPort.toNat = p.sPort.toNat ∧ q.dPort.toNat < p.dPort.toNat) → Circle p i q := by
      intro p i q hs1 hs2 hd1 hd2 hp hi hq hports
      refine ⟨⟨BitVec.toNat_inj.1 hs1, BitVec.toNat_inj.1 hs2⟩,
        ⟨BitVec.toNat_inj.1 hd1, BitVec.toNat_inj.1 hd2⟩, BitVec.toNat_inj.1 hp,
        BitVec.toNat_inj.1 hi, BitVec.lt_def.2 hq, ?_⟩
      rwa [BitVec.lt_def, BitVec.lt_def, ← BitVec.toNat_inj]
    rcases hicmp with h | h | h
    · exact .inl (hcircle (by omega) (by omega) (by omega) (by omega) (by omega) (by omega)
        (by omega) (by omega))
    · exact .inr (.inl (hcircle (by omega) (by omega) (by omega) (by omega) (by omega) (by omega)
        (by omega) (by omega)))
    · exact .inr (.inr (hcircle (by omega) (by omega) (by omega) (by omega) (by omega) (by omega)
        (by omega) (by omega)))
  · rintro (h | h | h)
    · exact h.lt
    · exact ⟨h.lt.2.2, h.lt.1, h.lt.2.1⟩
    · exact ⟨h.lt.2.1, h.lt.2.2, h.lt.1⟩

end RawPacket

/-! ## The keys of a map -/

namespace FlowKey

/-- A packet of a flow. -/
def packet (k : FlowKey) : RawPacket where
  srcIP := k.srcIP
  dstIP := k.dstIP
  proto := k.proto
  ipLen := 0
  sPort := ntohs k.srcPort
  dPort := ntohs k.dstPort
  dataLen := 0

/-- `RawPacket::operator<` for flows. -/
def lt (a b : FlowKey) : Bool := a.packet.lt b.packet

/-- A packet belongs to the flow of the packet that stands for its flow. -/
theorem key_packet_key (p : RawPacket) : p.key.packet.key = p.key := by
  simp only [packet, RawPacket.key, RawPacket.getSrcPort, RawPacket.getDstPort, ntohs_ntohs]
  split_ifs <;> rfl

/-- Any packets of two flows are compared as the flows are. -/
theorem lt_key (p q : RawPacket) : p.key.lt q.key = p.lt q := by
  rw [Bool.eq_iff_iff, lt, RawPacket.lt_congr (key_packet_key p)]
  exact RawPacket.tellsApart.congr_right (key_packet_key q)

/-- Flows that can be the keys of a map: no three of them are compared in a circle. -/
def Sortable (ks : List FlowKey) : Prop :=
  ∀ a ∈ ks, ∀ b ∈ ks, ∀ c ∈ ks, ¬ (a.lt b = true ∧ b.lt c = true ∧ c.lt a = true)

instance (ks : List FlowKey) : Decidable (Sortable ks) :=
  inferInstanceAs (Decidable (∀ a ∈ ks, ∀ b ∈ ks, ∀ c ∈ ks, ¬ _))

/-- **What `std::map` asks for**: the order of the packets is a strict weak order on them. -/
theorem sortable_iff (ps : List RawPacket) :
    Sortable (ps.map RawPacket.key) ↔
      IsStrictWeakOrder {p | p ∈ ps} fun p q => p.1.lt q.1 = true := by
  rw [RawPacket.tellsApart.isStrictWeakOrder_iff]
  simp only [Sortable, List.forall_mem_map, lt_key, Set.mem_ofPred_eq, not_exists, not_and]

/-- Some of the keys of a map can be the keys of a map. -/
theorem Sortable.mono {ks ks' : List FlowKey} (h : Sortable ks) (hsub : ks' ⊆ ks) : Sortable ks' :=
  fun a ha b hb c hc => h a (hsub ha) b (hsub hb) c (hsub hc)

end FlowKey

namespace TraffCounterImpl

variable {L : Type} [AddCommMonoid L] {now : Time} {find : IP → Option UserId} {k : FlowKey} {len : L}
  {s s' : TraffCounterImpl L}

/-- `TraffCounterImpl::process` on a map: there is no result where its keys and the flow of the packet
are not ordered. -/
def process? (now : Time) (findByIPIdx : IP → Option UserId) (k : FlowKey) (len : L)
    (s : TraffCounterImpl L) : Option (TraffCounterImpl L) :=
  if FlowKey.Sortable (k :: s.packets.keys) then some (s.process now findByIPIdx k len) else none

theorem process?_eq_some_iff : s.process? now find k len = some s' ↔
    FlowKey.Sortable (k :: s.packets.keys) ∧ s.process now find k len = s' := by
  unfold process?
  split_ifs with h <;> simp [h]

omit [AddCommMonoid L] in
/-- An operation that makes no flow known. -/
theorem mem_keys_of_lookup (h : ∀ k', s.packets.lookup k' = none → s'.packets.lookup k' = none) :
    s'.packets.keys ⊆ s.packets.keys := by
  intro k' hk'
  by_contra hnone
  have hlookup := h k' (AList.lookup_eq_none.mpr hnone)
  exact AList.lookup_eq_none.mp hlookup hk'

/-- A packet makes at most its own flow known. -/
theorem keys_process (now : Time) (find : IP → Option UserId) (k : FlowKey) (len : L) :
    (s.process now find k len).packets.keys ⊆ k :: s.packets.keys := by
  intro k' hk'
  by_cases h : k' = k
  · exact h ▸ List.mem_cons_self
  · have hknown := AList.lookup_isSome.mpr (AList.mem_keys.mpr hk')
    rw [lookup_process_of_ne _ _ _ _ _ h] at hknown
    exact List.mem_cons_of_mem _ (AList.lookup_isSome.mp hknown)

theorem keys_flushAndRemove (s : TraffCounterImpl L) (now : Time) :
    (s.flushAndRemove now).1.packets.keys ⊆ s.packets.keys :=
  mem_keys_of_lookup fun k' h => by rw [lookup_flushAndRemove, h]; rfl

theorem keys_addUser {id : UserId} {uip : IP} (hc : s.Complete) (h : s.addUser id uip = some s') :
    s'.packets.keys ⊆ s.packets.keys :=
  mem_keys_of_lookup fun k' hk' => by rw [lookup_addUser hc h, hk']; rfl

theorem keys_delUser {uip : IP} (hc : s.Complete) :
    (s.delUser uip).1.packets.keys ⊆ s.packets.keys :=
  mem_keys_of_lookup fun k' hk' => by rw [lookup_delUser hc, hk']; rfl

end TraffCounterImpl

/-! ## The order of raw data -/

namespace RawData

/-- The order is one that `std::map` can use for a set of packets: a strict weak order that does not tell
apart exactly the packets that are equal. -/
structure Ordered (S : Set RawData) : Prop where
  /-- A strict weak order. -/
  weak : IsStrictWeakOrder S fun p q => p.1.packet.lt q.1.packet = true
  /-- Equality. -/
  eq_iff : ∀ p ∈ S, ∀ q ∈ S, (p.packet.lt q.packet = false ∧ q.packet.lt p.packet = false) ↔
    p.packet.eq q.packet = true

/-- **The sets of packets that are ordered** are those without a circle, whatever the lengths of the
headers are. -/
theorem strict_weak_order_iff (S : Set RawData) :
    Ordered S ↔ ¬ ∃ p ∈ S, ∃ i ∈ S, ∃ q ∈ S, RawPacket.Circle p.packet i.packet q.packet := by
  have heq : ∀ p q : RawData, (p.packet.lt q.packet = false ∧ q.packet.lt p.packet = false) ↔
      p.packet.eq q.packet = true := fun p q => by
    rw [RawPacket.not_lt_iff_key_eq, RawPacket.eq_iff_key_eq]
  have hweak := (RawPacket.tellsApart.comap packet).isStrictWeakOrder_iff S
  constructor
  · rintro ⟨h, -⟩ ⟨p, hp, i, hi, q, hq, hcircle⟩
    exact hweak.1 h ⟨p, hp, i, hi, q, hq, hcircle.lt⟩
  · intro h
    refine ⟨hweak.2 ?_, fun p _ q _ => heq p q⟩
    rintro ⟨a, ha, b, hb, c, hc, hlt⟩
    rcases RawPacket.circle_iff.1 hlt with hcircle | hcircle | hcircle
    · exact h ⟨a, ha, b, hb, c, hc, hcircle⟩
    · exact h ⟨b, hb, c, hc, a, ha, hcircle⟩
    · exact h ⟨c, hc, a, ha, b, hb, hcircle⟩

/-- A packet between the addresses 0.0.0.0 with `hl` words in its header. -/
def Sample.rawData (hl proto port : Byte) : RawData where
  data i :=
    if i.val = 0 then 0x40 ||| hl
    else if i.val = 9 then proto
    else if i.val = hl.toNat * 4 then port
    else 0

/-- The packets with headers of 20 to 60 bytes are not ordered. -/
theorem packets_not_ordered : ¬ Ordered {p | 20 ≤ p.getHeaderLen ∧ p.getHeaderLen ≤ 60} := by
  rintro ⟨h, -⟩
  have hmem : ∀ hl ∈ [5, 15], ∀ proto ∈ [0, 1, 17], ∀ port ∈ [0, 1],
      Sample.rawData hl proto port ∈ {p : RawData | 20 ≤ p.getHeaderLen ∧ p.getHeaderLen ≤ 60} := by
    decide
  have hlt : (Sample.rawData 5 0 1).packet.lt (Sample.rawData 5 1 0).packet = true ∧
      (Sample.rawData 5 1 0).packet.lt (Sample.rawData 15 17 0).packet = true ∧
        (Sample.rawData 5 0 1).packet.lt (Sample.rawData 15 17 0).packet = false := by
    decide
  have htrans := h.trans ⟨_, hmem 5 (by decide) 0 (by decide) 1 (by decide)⟩
    ⟨_, hmem 5 (by decide) 1 (by decide) 0 (by decide)⟩
    ⟨_, hmem 15 (by decide) 17 (by decide) 0 (by decide)⟩ hlt.1 hlt.2.1
  rw [hlt.2.2] at htrans
  cases htrans

end RawData

end Stargazer
