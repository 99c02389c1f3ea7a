import Stargazer.Basic
import Stargazer.Lib.AssocMap

set_option relaxedAutoImplicit false
set_option autoImplicit false
set_option linter.unusedSectionVars false

/-!
# The traffic counter

`TraffCounterImpl` (`traffcounter_impl.cpp`) collects the lengths of captured packets by flow and
passes them on to the users at the two ends of the flow from time to time.  A flow is what
`RawPacket::operator<` does not tell apart: source, destination, ports and protocol.

The lengths of a flow are words of 32 bits in the source.  Here they are elements of a commutative
monoid `L`: the counter only adds lengths up and sets them to zero, and other monoids record where
the bytes of a length come from (`Stargazer.Traffic.System`).

What the counter says about one end of one flow is `TraffCounterImpl.held`; each operation is
described by what it does to `held` and by the calls it makes for this end.

`std::map` needs a strict weak order.  The model takes the map as one that finds entries by their
flow, which is what the order gives as far as it is one; `Stargazer.Traffic.PacketOrder` says how far,
and has the `process` that has no result elsewhere.

## Main definitions

* `Stargazer.RawPacket`, `Stargazer.FlowKey` — packets (`include/stg/raw_ip_packet.h`) and flows.
* `Stargazer.determinateDir` — the direction of a flow by the rules.
* `Stargazer.TraffCounterImpl` — the counter.
* `Stargazer.TraffCounterImpl.process`, `Stargazer.TraffCounterImpl.flushAndRemove`,
  `Stargazer.TraffCounterImpl.addUser`, `Stargazer.TraffCounterImpl.delUser` — its operations.
* `Stargazer.TraffCounterImpl.held` — the user at one end of a flow and the length not yet passed
  on.

## Main results

* `Stargazer.RawPacket.not_lt_iff_key_eq` — packets that the order does not tell apart.
* `Stargazer.TraffCounterImpl.held_process`, `Stargazer.TraffCounterImpl.flushAndRemove_cases`,
  `Stargazer.TraffCounterImpl.held_addUser`, `Stargazer.TraffCounterImpl.addUser_isSome_iff`,
  `Stargazer.TraffCounterImpl.held_delUser`, `Stargazer.TraffCounterImpl.callsAt_delUser` — what
  the operations do to one end of a flow.
-/

namespace Stargazer

/-! ## Packets and flows -/

/-- `ntohs` on a little-endian host. -/
def ntohs (x : BitVec 16) : BitVec 16 := x.extractLsb' 0 8 ++ x.extractLsb' 8 8

theorem ntohs_ntohs (x : BitVec 16) : ntohs (ntohs x) = x := by
  ext i hi
  simp only [ntohs]
  grind

theorem ntohs_inj {x y : BitVec 16} : ntohs x = ntohs y ↔ x = y :=
  (Function.LeftInverse.injective ntohs_ntohs).eq_iff

/-- A captured packet: the header fields that are read, as they stand in the header. -/
structure RawPacket where
  /-- `ip_src`. -/
  srcIP : IP
  /-- `ip_dst`. -/
  dstIP : IP
  /-- `ip_p`. -/
  proto : BitVec 8
  /-- `ip_len`. -/
  ipLen : BitVec 16
  /-- The first word behind the header. -/
  sPort : BitVec 16
  /-- The second word behind the header. -/
  dPort : BitVec 16
  /-- Length of the packet, `-1` to use `ip_len`. -/
  dataLen : BitVec 32
  deriving DecidableEq

/-- A flow. -/
structure FlowKey where
  /-- Source address. -/
  srcIP : IP
  /-- Destination address. -/
  dstIP : IP
  /-- Source port. -/
  srcPort : BitVec 16
  /-- Destination port. -/
  dstPort : BitVec 16
  /-- Protocol. -/
  proto : BitVec 8
  deriving DecidableEq

namespace RawPacket

/-- `RawPacket::GetLen`. -/
def getLen (p : RawPacket) : BitVec 32 :=
  if p.dataLen ≠ -1 then p.dataLen else (ntohs p.ipLen).setWidth 32

/-- `RawPacket::GetSrcPort`. -/
def getSrcPort (p : RawPacket) : BitVec 16 := if p.proto = 1 then 0 else ntohs p.sPort

/-- `RawPacket::GetDstPort`. -/
def getDstPort (p : RawPacket) : BitVec 16 := if p.proto = 1 then 0 else ntohs p.dPort

/-- The flow of a packet. -/
def key (p : RawPacket) : FlowKey :=
  ⟨p.srcIP, p.dstIP, p.getSrcPort, p.getDstPort, p.proto⟩

/-- `RawPacket::operator<`. -/
def lt (p q : RawPacket) : Bool :=
  if p.srcIP < q.srcIP then true
  else if q.srcIP < p.srcIP then false
  else if p.dstIP < q.dstIP then true
  else if q.dstIP < p.dstIP then false
  else if p.proto ≠ 1 ∧ q.proto ≠ 1 then
    if p.sPort < q.sPort then true
    else if q.sPort < p.sPort then false
    else if p.dPort < q.dPort then true
    else if q.dPort < p.dPort then false
    else p.proto < q.proto
  else p.proto < q.proto

/-- The order does not tell two packets apart exactly if they belong to one flow. -/
theorem not_lt_iff_key_eq (p q : RawPacket) :
    (p.lt q = false ∧ q.lt p = false) ↔ p.key = q.key := by
  have eq_of_not_lt : ∀ {n : ℕ} {x y : BitVec n}, ¬ x < y → ¬ y < x → x = y := fun h h' =>
    BitVec.le_antisymm (BitVec.not_lt.mp h') (BitVec.not_lt.mp h)
  constructor
  · rintro ⟨h1, h2⟩
    simp only [lt] at h1 h2
    have hs : p.srcIP = q.srcIP := eq_of_not_lt (by grind) (by grind)
    have hd : p.dstIP = q.dstIP := eq_of_not_lt (by grind) (by grind)
    have hp : p.proto = q.proto := eq_of_not_lt (by grind) (by grind)
    -- the ports are only compared where neither packet is an ICMP one
    have hsp : p.proto ≠ 1 → p.sPort = q.sPort := fun h => eq_of_not_lt (by grind) (by grind)
    have hdp : p.proto ≠ 1 → p.dPort = q.dPort := fun h => eq_of_not_lt (by grind) (by grind)
    simp only [key, getSrcPort, getDstPort, FlowKey.mk.injEq]
    refine ⟨hs, hd, ?_, ?_, hp⟩
    · by_cases h : p.proto = 1
      · rw [← hp, if_pos h, if_pos h]
      · rw [← hp, if_neg h, if_neg h, hsp h]
    · by_cases h : p.proto = 1
      · rw [← hp, if_pos h, if_pos h]
      · rw [← hp, if_neg h, if_neg h, hdp h]
  · intro h
    simp only [key, getSrcPort, getDstPort, FlowKey.mk.injEq] at h
    obtain ⟨hs, hd, hsp, hdp, hp⟩ := h
    simp only [lt, hs, hd, hp, BitVec.lt_irrefl, if_false]
    by_cases h1 : q.proto = 1
    · simp [h1]
    · rw [hp, if_neg h1, if_neg h1, ntohs_inj] at hsp hdp
      simp [hsp, hdp]

end RawPacket

/-- The address at one end of a flow. -/
def FlowKey.ip (k : FlowKey) : Side → IP
  | .up => k.srcIP
  | .down => k.dstIP

/-! ## Rules -/

/-- The protocol of a rule. -/
inductive RuleProto
  | tcp
  | udp
  | icmp
  | tcpUdp
  | all
  deriving DecidableEq

/-- `Rule`: a line of the rules file. -/
structure Rule where
  /-- Network address. -/
  ip : IP
  /-- Network mask. -/
  mask : IP
  /-- Lowest port. -/
  port1 : BitVec 16
  /-- Highest port. -/
  port2 : BitVec 16
  /-- Protocol. -/
  proto : RuleProto
  /-- Direction, `DIR_NUM` for traffic that is not counted. -/
  dir : ℕ
  deriving DecidableEq

namespace Rule

/-- `portMatchU` and `portMatchD`: do the protocol and a port match? -/
def portMatch (r : Rule) (proto : BitVec 8) (port : BitVec 16) : Bool :=
  let inRange := decide (r.port1 ≤ port) && decide (port ≤ r.port2)
  match r.proto with
  | .all => true
  | .icmp => proto == 1
  | .tcpUdp => (proto == 6 || proto == 17) && inRange
  | .tcp => proto == 6 && inRange
  | .udp => proto == 17 && inRange

/-- Does the rule match the remote end of the flow, as the user at the given end sees it? -/
def matchesRemote (r : Rule) (k : FlowKey) : Side → Bool
  | .up => ((k.dstIP &&& r.mask) == r.ip) && r.portMatch k.proto k.dstPort
  | .down => ((k.srcIP &&& r.mask) == r.ip) && r.portMatch k.proto k.srcPort

end Rule

/-- `TraffCounterImpl::DeterminateDir`: the direction of the first rule that matches. -/
def determinateDir : List Rule → FlowKey → Side → ℕ
  | [], _, _ => dirNum
  | r :: rs, k, d => if r.matchesRemote k d then r.dir else determinateDir rs k d

/-! ## The counter -/

/-- What an entry says about one end of its flow. -/
structure SideData (L : Type) where
  /-- `userU` and `userUPresent` (`userD`, `userDPresent`): the pointer is only read while the
  flag is set, and `none` is the flag not set. -/
  user : Option UserId
  /-- `dirU` (`dirD`). -/
  dir : ℕ
  /-- `lenU` (`lenD`). -/
  len : L

/-- `PacketExtraData`: the entry of a flow. -/
structure PacketExtraData (L : Type) where
  /-- Last flush time. -/
  flushTime : Time
  /-- Last update time. -/
  updateTime : Time
  /-- The two ends. -/
  side : Side → SideData L

/-- A length leaving the counter.  If the direction is below `DIR_NUM` it is an argument of
`AddTraffStatU` or `AddTraffStatD`, otherwise it is dropped. -/
structure StatCall (L : Type) where
  /-- The flow. -/
  key : FlowKey
  /-- `AddTraffStatU` or `AddTraffStatD`. -/
  side : Side
  /-- The user. -/
  user : UserId
  /-- The direction. -/
  dir : ℕ
  /-- The length. -/
  len : L

/-- The counter. -/
structure TraffCounterImpl (L : Type) where
  /-- The rules. -/
  rules : List Rule
  /-- `packets`. -/
  packets : AList fun _ : FlowKey => PacketExtraData L
  /-- `ip2packets`: the entries by the addresses of their ends. -/
  ip2packets : List (IP × FlowKey)

/-- `FLUSH_TIME`. -/
def flushPeriod : Time := 10

/-- `REMOVE_TIME`. -/
def removePeriod : Time := 31

variable {L : Type} [AddCommMonoid L]

namespace PacketExtraData

/-- The packet of a known flow: both lengths grow. -/
def update (now : Time) (len : L) (e : PacketExtraData L) : PacketExtraData L :=
  { e with
    updateTime := now
    side := fun d => { e.side d with len := (e.side d).len + len } }

/-- The entry of a flow that is seen for the first time. -/
def new (rules : List Rule) (now : Time) (findByIPIdx : IP → Option UserId) (k : FlowKey)
    (len : L) : PacketExtraData L where
  flushTime := now
  updateTime := now
  side := fun d => ⟨findByIPIdx (k.ip d), determinateDir rules k d, len⟩

/-- Is a user present at one of the ends? -/
def anyPresent (e : PacketExtraData L) : Bool :=
  (e.side .up).user.isSome || (e.side .down).user.isSome

/-- The lengths of the ends that pass a test and have a user. -/
def statCalls (k : FlowKey) (p : Side → Bool) (e : PacketExtraData L) : List (StatCall L) :=
  [Side.up, Side.down].flatMap fun d =>
    if p d then (e.side d).user.toList.map fun u => ⟨k, d, u, (e.side d).dir, (e.side d).len⟩
    else []

/-- Is it time to flush the entry? -/
def flushDue (now : Time) (e : PacketExtraData L) : Bool := decide (now - e.flushTime > flushPeriod)

/-- The first half of the loop body of `FlushAndRemove`. -/
def flush (now : Time) (e : PacketExtraData L) : PacketExtraData L :=
  if e.flushDue now then
    { e with
      flushTime := if e.anyPresent then now else e.flushTime
      side := fun d => if (e.side d).user.isSome then { e.side d with len := 0 } else e.side d }
  else e

/-- The lengths that leave the counter there. -/
def flushCalls (now : Time) (k : FlowKey) (e : PacketExtraData L) : List (StatCall L) :=
  if e.flushDue now then e.statCalls k fun _ => true else []

/-- The test of the second half: is the entry kept? -/
def recent (now : Time) (e : PacketExtraData L) : Bool := decide (now - e.updateTime < removePeriod)

/-- The loop body of `AddUser`: the ends at the address `uip` get the user. -/
def assign (id : UserId) (uip : IP) (k : FlowKey) (e : PacketExtraData L) : PacketExtraData L :=
  { e with
    side := fun d => if k.ip d = uip then { e.side d with user := some id, len := 0 }
      else e.side d }

/-- The loop body of `DelUser`: the ends at the address `uip` lose their user.  The length stays,
also the one that was passed on. -/
def clear (uip : IP) (k : FlowKey) (e : PacketExtraData L) : PacketExtraData L :=
  { e with side := fun d => if k.ip d = uip then { e.side d with user := none } else e.side d }

end PacketExtraData

namespace TraffCounterImpl

/-- `TraffCounterImpl::process`, for a packet of the flow `k` and the given length. -/
def process (now : Time) (findByIPIdx : IP → Option UserId) (k : FlowKey) (len : L)
    (s : TraffCounterImpl L) : TraffCounterImpl L :=
  match s.packets.lookup k with
  | some _ => { s with packets := s.packets.adjust k (PacketExtraData.update now len) }
  | none =>
    let ed := PacketExtraData.new s.rules now findByIPIdx k len
    if ed.anyPresent then
      { s with
        packets := s.packets.insert k ed
        ip2packets := (k.srcIP, k) :: (k.dstIP, k) :: s.ip2packets }
    else s

/-- `TraffCounterImpl::FlushAndRemove`: the counter afterwards and the lengths that leave it.  The
index is built anew. -/
def flushAndRemove (now : Time) (s : TraffCounterImpl L) :
    TraffCounterImpl L × List (StatCall L) :=
  let packets := (s.packets.mapVal fun _ e => e.flush now).filterVal fun _ e => e.recent now
  ({ s with
      packets := packets
      ip2packets := packets.keys.flatMap fun k => [(k.srcIP, k), (k.dstIP, k)] },
    s.packets.entries.flatMap fun e => e.2.flushCalls now e.1)

/-- `ip2packets.equal_range(uip)`. -/
def equalRange (s : TraffCounterImpl L) (uip : IP) : List FlowKey :=
  (s.ip2packets.filter fun e => e.1 = uip).map Prod.snd

/-- One round of the loop of `AddUser`; `none` are the assertions "user present but it's not
current user". -/
def addUserAt (id : UserId) (uip : IP) (s : TraffCounterImpl L) (k : FlowKey) :
    Option (TraffCounterImpl L) :=
  match s.packets.lookup k with
  | none => some s
  | some e =>
    if ∀ d, k.ip d = uip → (e.side d).user = none ∨ (e.side d).user = some id then
      some { s with packets := s.packets.adjust k (PacketExtraData.assign id uip k) }
    else none

/-- `TraffCounterImpl::AddUser`, for a user with the address `uip`. -/
def addUser (id : UserId) (uip : IP) (s : TraffCounterImpl L) : Option (TraffCounterImpl L) :=
  (s.equalRange uip).foldlM (addUserAt id uip) s

/-- One round of the loop of `DelUser`. -/
def delUserAt (uip : IP) (r : TraffCounterImpl L × List (StatCall L)) (k : FlowKey) :
    TraffCounterImpl L × List (StatCall L) :=
  match r.1.packets.lookup k with
  | none => r
  | some e =>
    ({ r.1 with packets := r.1.packets.adjust k (PacketExtraData.clear uip k) },
      r.2 ++ e.statCalls k fun d => k.ip d = uip)

/-- `TraffCounterImpl::DelUser`: the counter afterwards and the lengths that leave it. -/
def delUser (uip : IP) (s : TraffCounterImpl L) : TraffCounterImpl L × List (StatCall L) :=
  (s.equalRange uip).foldl (delUserAt uip) (s, [])

end TraffCounterImpl

/-! ## One end of a flow -/

/-- A user at one end of a flow, with the direction and the length not yet passed on. -/
structure Held (L : Type) where
  /-- The user. -/
  user : UserId
  /-- The direction. -/
  dir : ℕ
  /-- The length. -/
  len : L

/-- The call that passes the length on. -/
def Held.call (k : FlowKey) (d : Side) (h : Held L) : StatCall L := ⟨k, d, h.user, h.dir, h.len⟩

/-- The calls for one end of one flow. -/
def callsAt (k : FlowKey) (d : Side) (cs : List (StatCall L)) : List (StatCall L) :=
  cs.filter fun c => c.key = k ∧ c.side = d

@[simp] theorem callsAt_nil (k : FlowKey) (d : Side) : callsAt k d ([] : List (StatCall L)) = [] :=
  rfl

@[simp] theorem callsAt_append (k : FlowKey) (d : Side) (cs cs' : List (StatCall L)) :
    callsAt k d (cs ++ cs') = callsAt k d cs ++ callsAt k d cs' := List.filter_append ..

namespace PacketExtraData

/-- The user at one end, if there is one. -/
def held (e : PacketExtraData L) (d : Side) : Option (Held L) :=
  (e.side d).user.map fun u => ⟨u, (e.side d).dir, (e.side d).len⟩

@[simp] theorem held_update (now : Time) (len : L) (e : PacketExtraData L) (d : Side) :
    (e.update now len).held d = (e.held d).map fun h => { h with len := h.len + len } := by
  simp [held, update, Function.comp_def]

@[simp] theorem held_new (rules : List Rule) (now : Time) (find : IP → Option UserId) (k : FlowKey)
    (len : L) (d : Side) :
    (new rules now find k len).held d =
      (find (k.ip d)).map fun u => ⟨u, determinateDir rules k d, len⟩ := rfl

@[simp] theorem held_flush (now : Time) (e : PacketExtraData L) (d : Side) :
    (e.flush now).held d =
      (e.held d).map fun h => if e.flushDue now then { h with len := 0 } else h := by
  cases hu : (e.side d).user <;> cases hf : e.flushDue now <;> simp [flush, held, hf, hu]

@[simp] theorem held_assign (id : UserId) (uip : IP) (k : FlowKey) (e : PacketExtraData L)
    (d : Side) : (e.assign id uip k).held d =
      if k.ip d = uip then some ⟨id, (e.side d).dir, 0⟩ else e.held d := by
  unfold assign held
  split_ifs with h <;> simp [h]

@[simp] theorem held_clear (uip : IP) (k : FlowKey) (e : PacketExtraData L) (d : Side) :
    (e.clear uip k).held d = if k.ip d = uip then none else e.held d := by
  unfold clear held
  split_ifs with h <;> simp [h]

@[simp] theorem flush_updateTime (now : Time) (e : PacketExtraData L) :
    (e.flush now).updateTime = e.updateTime := by
  unfold flush
  split_ifs <;> rfl

theorem clear_clear (uip : IP) (k : FlowKey) (e : PacketExtraData L) :
    (e.clear uip k).clear uip k = e.clear uip k := by
  simp only [clear, mk.injEq, true_and]
  funext d
  split_ifs <;> rfl

theorem assign_assign (id : UserId) (uip : IP) (k : FlowKey) (e : PacketExtraData L) :
    (e.assign id uip k).assign id uip k = e.assign id uip k := by
  simp only [assign, mk.injEq, true_and]
  funext d
  split_ifs <;> rfl

/-- The calls an entry makes for one of its ends. -/
theorem callsAt_statCalls (k k' : FlowKey) (p : Side → Bool) (e : PacketExtraData L) (d : Side) :
    callsAt k d (e.statCalls k' p) =
      if k' = k ∧ p d then (e.held d).toList.map (Held.call k d) else [] := by
  have hone : ∀ d', callsAt k d (if p d' then (e.side d').user.toList.map
      (fun u => (⟨k', d', u, (e.side d').dir, (e.side d').len⟩ : StatCall L)) else []) =
        if k' = k ∧ d' = d ∧ p d then (e.held d).toList.map (Held.call k d) else [] := by
    intro d'
    by_cases hk : k' = k
    · by_cases hd : d' = d
      · subst hk hd
        cases hp : p d' <;> cases hu : (e.side d').user <;>
          simp [callsAt, held, Held.call, hu]
      · cases hp : p d' <;> cases hu : (e.side d').user <;> simp [callsAt, hd]
    · cases hp : p d' <;> cases hu : (e.side d').user <;> simp [callsAt, hk]
  simp only [statCalls, List.flatMap_cons, List.flatMap_nil, callsAt_append, callsAt_nil, hone]
  cases d <;> simp

end PacketExtraData

namespace TraffCounterImpl

/-- The user at one end of a flow, if there is one. -/
def held (s : TraffCounterImpl L) (k : FlowKey) (d : Side) : Option (Held L) :=
  (s.packets.lookup k).bind fun e => e.held d

theorem held_eq_of_lookup {s : TraffCounterImpl L} {k : FlowKey} {e : PacketExtraData L}
    (h : s.packets.lookup k = some e) (d : Side) : s.held k d = e.held d := by
  simp [held, h]

/-- Every entry is found by the addresses of its ends. -/
def Complete (s : TraffCounterImpl L) : Prop :=
  ∀ k, k ∈ s.packets → ∀ d, (k.ip d, k) ∈ s.ip2packets

theorem Complete.mem_equalRange {s : TraffCounterImpl L} (h : s.Complete) {k : FlowKey}
    (hk : k ∈ s.packets) {d : Side} {uip : IP} (hd : k.ip d = uip) : k ∈ s.equalRange uip := by
  simp only [equalRange, List.mem_map, List.mem_filter, decide_eq_true_eq]
  exact ⟨(uip, k), ⟨hd ▸ h k hk d, rfl⟩, rfl⟩

/-! ## What `process` does -/

section Process

variable (now : Time) (find : IP → Option UserId) (k : FlowKey) (len : L) (s : TraffCounterImpl L)

@[simp] theorem process_rules : (s.process now find k len).rules = s.rules := by
  unfold process
  split
  · rfl
  · dsimp only; split_ifs <;> rfl

/-- Other flows are not touched. -/
theorem lookup_process_of_ne {k' : FlowKey} (h : k' ≠ k) :
    (s.process now find k len).packets.lookup k' = s.packets.lookup k' := by
  unfold process
  split
  · simp [h]
  · dsimp only
    split_ifs
    · exact AList.lookup_insert_ne h
    · rfl

/-- The entry of the flow: updated, or made anew if one of the ends has a user. -/
theorem lookup_process : (s.process now find k len).packets.lookup k =
    match s.packets.lookup k with
    | some e => some (e.update now len)
    | none =>
      let ed := PacketExtraData.new s.rules now find k len
      if ed.anyPresent then some ed else none := by
  unfold process
  split
  · next e he => simp [he]
  · next he =>
    dsimp only
    split_ifs
    · exact AList.lookup_insert _
    · exact he

/-- **What a packet does to one end of its flow.** A length that is kept for a user grows; a new
entry starts with the user that has the address. -/
theorem held_process (d : Side) : (s.process now find k len).held k d =
    match s.packets.lookup k with
    | some e => (e.held d).map fun h => { h with len := h.len + len }
    | none => (find (k.ip d)).map fun u => ⟨u, determinateDir s.rules k d, len⟩ := by
  rw [held, lookup_process]
  cases s.packets.lookup k with
  | some e => simp
  | none =>
    dsimp only
    split_ifs with h
    · simp
    · -- no entry is made where neither end has a user
      have hnone : (find (k.ip d)) = none := by
        simp only [PacketExtraData.anyPresent, PacketExtraData.new, Bool.or_eq_true, not_or,
          Bool.not_eq_true, Option.isSome_eq_false_iff, Option.isNone_iff_eq_none] at h
        cases d
        · exact h.1
        · exact h.2
      simp [hnone]

theorem held_process_of_ne {k' : FlowKey} (h : k' ≠ k) (d : Side) :
    (s.process now find k len).held k' d = s.held k' d := by
  rw [held, lookup_process_of_ne _ _ _ _ _ h, held]

theorem Complete.process {s : TraffCounterImpl L} (h : s.Complete) :
    (s.process now find k len).Complete := by
  intro k' hk' d
  unfold TraffCounterImpl.process at hk' ⊢
  split at hk'
  · exact h k' ((AList.mem_adjust ..).mp hk') d
  · dsimp only at hk' ⊢
    split_ifs at hk' ⊢
    · rcases (AList.mem_insert _).mp hk' with rfl | hk'
      · cases d <;> simp [FlowKey.ip]
      · simp [h k' hk' d]
    · exact h k' hk' d

end Process

/-! ## What `FlushAndRemove` does -/

section Flush

variable (now : Time) (s : TraffCounterImpl L)

theorem lookup_flushAndRemove (k : FlowKey) :
    (s.flushAndRemove now).1.packets.lookup k =
      ((s.packets.lookup k).map fun e => e.flush now).filter fun e => e.recent now := by
  simp only [flushAndRemove, AList.lookup_filterVal, AList.lookup_mapVal]

/-- The calls for one end of a flow are those of its entry. -/
theorem callsAt_flushAndRemove (k : FlowKey) (d : Side) :
    callsAt k d (s.flushAndRemove now).2 =
      match s.packets.lookup k with
      | some e => if e.flushDue now then (e.held d).toList.map (Held.call k d) else []
      | none => [] := by
  have hone : ∀ (k' : FlowKey) (e : PacketExtraData L), callsAt k d (e.flushCalls now k') =
      if k' = k then (if e.flushDue now then (e.held d).toList.map (Held.call k d) else [])
      else [] := by
    intro k' e
    unfold PacketExtraData.flushCalls
    split_ifs with h1 h2 <;> simp [PacketExtraData.callsAt_statCalls, *]
  have hlist : ∀ l : List (Σ _ : FlowKey, PacketExtraData L), l.NodupKeys →
      callsAt k d (l.flatMap fun e => e.2.flushCalls now e.1) =
        match l.dlookup k with
        | some e => if e.flushDue now then (e.held d).toList.map (Held.call k d) else []
        | none => [] := by
    intro l
    -- a key occurs once, so that at most one entry makes calls for the flow
    induction l with
    | nil => intro _; rfl
    | cons e l ih =>
      intro hn
      rw [List.nodupKeys_cons] at hn
      rw [List.flatMap_cons, callsAt_append, hone, ih hn.2]
      by_cases hk : e.1 = k
      · have hnone : l.dlookup k = none := List.dlookup_eq_none.mpr (hk ▸ hn.1)
        obtain ⟨k', e⟩ := e
        obtain rfl : k' = k := hk
        simp [hnone]
      · simp [hk, List.dlookup_cons_ne l e (Ne.symm hk)]
  exact hlist s.packets.entries s.packets.nodupKeys

theorem complete_flushAndRemove : (s.flushAndRemove now).1.Complete := by
  intro k hk d
  refine List.mem_flatMap.mpr ⟨k, hk, ?_⟩
  cases d <;> simp [FlowKey.ip]

end Flush

/-- No entry was flushed in the future, and an entry with a length that is kept for a user was
updated after it was flushed. -/
def Timely (s : TraffCounterImpl L) (clock : Time) : Prop :=
  ∀ k e, s.packets.lookup k = some e → e.flushTime ≤ clock ∧
    ∀ d h, e.held d = some h → h.len ≠ 0 → e.flushTime ≤ e.updateTime

/-- **What `FlushAndRemove` does to one end of a flow**: nothing, or the length is passed on, or the
end is forgotten; and while times are in order, it is forgotten only with nothing left to pass on.

**Proof sketch.** An entry is forgotten if it was not updated for `REMOVE_TIME`.  With a length to
pass on, its last flush was even earlier, and `FLUSH_TIME` is shorter, so that it is flushed
first. -/
theorem flushAndRemove_cases {s : TraffCounterImpl L} {k : FlowKey} {d : Side} {h : Held L}
    (hh : s.held k d = some h) (now : Time) :
    (callsAt k d (s.flushAndRemove now).2 = [] ∧
      (s.flushAndRemove now).1.held k d = some h) ∨
    (callsAt k d (s.flushAndRemove now).2 = [h.call k d] ∧
      ((s.flushAndRemove now).1.held k d = none ∨
        (s.flushAndRemove now).1.held k d = some { h with len := 0 })) ∨
    (callsAt k d (s.flushAndRemove now).2 = [] ∧
      (s.flushAndRemove now).1.held k d = none ∧ ∀ clock, s.Timely clock → h.len = 0) := by
  cases hl : s.packets.lookup k with
  | none => simp [held, hl] at hh
  | some e =>
    rw [held_eq_of_lookup hl] at hh
    have hheld : (s.flushAndRemove now).1.held k d =
        if e.recent now then (e.flush now).held d else none := by
      have hr : (e.flush now).recent now = e.recent now := by simp [PacketExtraData.recent]
      simp only [held, lookup_flushAndRemove, hl, Option.map_some, Option.filter_some, hr]
      split_ifs <;> simp
    rw [callsAt_flushAndRemove, hl, hheld]
    simp only [PacketExtraData.held_flush, hh, Option.map_some, Option.toList_some, List.map_cons,
      List.map_nil]
    by_cases hdue : e.flushDue now = true
    · by_cases hr : e.recent now = true <;> simp [hdue, hr]
    · by_cases hr : e.recent now = true
      · simp [hdue, hr]
      · refine .inr (.inr ⟨by simp [hdue], by simp [hr], fun clock ht =>
          by_contra fun hne => hdue ?_⟩)
        have htime := (ht k e hl).2 d h hh hne
        simp only [PacketExtraData.recent, PacketExtraData.flushDue, removePeriod,
          flushPeriod] at hr ⊢
        lia

/-- Nothing appears at an end where there was nobody. -/
theorem flushAndRemove_of_held_eq_none {s : TraffCounterImpl L} {k : FlowKey} {d : Side}
    (hh : s.held k d = none) (now : Time) :
    callsAt k d (s.flushAndRemove now).2 = [] ∧ (s.flushAndRemove now).1.held k d = none := by
  rw [callsAt_flushAndRemove, held, lookup_flushAndRemove]
  cases hl : s.packets.lookup k with
  | none => simp
  | some e =>
    rw [held_eq_of_lookup hl] at hh
    refine ⟨by simp [hh], ?_⟩
    rw [Option.map_some, Option.filter_some]
    split_ifs <;> simp [hh]

/-- Late enough every length is passed on. -/
theorem flushAndRemove_of_late {s : TraffCounterImpl L} {clock now : Time} (ht : s.Timely clock)
    (hnow : now > clock + flushPeriod) {k : FlowKey} {d : Side} {h : Held L}
    (hh : (s.flushAndRemove now).1.held k d = some h) : h.len = 0 := by
  rw [held, lookup_flushAndRemove] at hh
  cases hl : s.packets.lookup k with
  | none => simp [hl] at hh
  | some e =>
    have hdue : e.flushDue now = true := by
      have := (ht k e hl).1
      simp only [PacketExtraData.flushDue, decide_eq_true_eq]
      lia
    obtain ⟨e', he', hh'⟩ := Option.bind_eq_some_iff.mp hh
    rw [hl, Option.map_some, Option.filter_eq_some_iff] at he'
    obtain rfl := Option.some.inj he'.1
    rw [PacketExtraData.held_flush, Option.map_eq_some_iff] at hh'
    obtain ⟨h', -, rfl⟩ := hh'
    simp [hdue]

section Timely

variable {s : TraffCounterImpl L} {clock now : Time}

theorem Timely.mono (h : s.Timely clock) (hc : clock ≤ now) : s.Timely now :=
  fun k e hl => ⟨(h k e hl).1.trans hc, (h k e hl).2⟩

theorem Timely.process (h : s.Timely clock) (hc : clock ≤ now) (find : IP → Option UserId)
    (k : FlowKey) (len : L) : (s.process now find k len).Timely now := by
  intro k' e' hl'
  by_cases hk : k' = k
  · subst hk
    rw [lookup_process] at hl'
    cases hl : s.packets.lookup k' with
    | some e =>
      simp only [hl, Option.some.injEq] at hl'
      subst hl'
      have := (h k' e hl).1.trans hc
      exact ⟨this, fun _ _ _ _ => this⟩
    | none =>
      simp only [hl, Option.ite_none_right_eq_some, Option.some.injEq] at hl'
      obtain ⟨-, rfl⟩ := hl'
      exact ⟨le_refl now, fun _ _ _ _ => le_refl now⟩
  · rw [lookup_process_of_ne _ _ _ _ _ hk] at hl'
    exact h.mono hc k' e' hl'

theorem Timely.flushAndRemove (h : s.Timely clock) (hc : clock ≤ now) :
    (s.flushAndRemove now).1.Timely now := by
  intro k e' hl'
  rw [lookup_flushAndRemove, Option.filter_eq_some_iff, Option.map_eq_some_iff] at hl'
  obtain ⟨⟨e, hl, rfl⟩, -⟩ := hl'
  obtain ⟨hf, hu⟩ := h k e hl
  constructor
  · unfold PacketExtraData.flush
    split_ifs
    · exact le_refl now
    · exact hf.trans hc
    · exact hf.trans hc
  · intro d h' hh' hne
    rw [PacketExtraData.held_flush, Option.map_eq_some_iff] at hh'
    obtain ⟨h0, hh0, rfl⟩ := hh'
    by_cases hdue : e.flushDue now = true
    · simp [hdue] at hne
    · simp only [hdue, Bool.false_eq_true, if_false] at hne
      simpa [PacketExtraData.flush, hdue] using hu d h0 hh0 hne

end Timely

/-! ## What `AddUser` does -/

section AddUser

variable {id : UserId} {uip : IP} {s s' : TraffCounterImpl L}

/-- The assertions of `AddUser` for the entry of one flow. -/
def Admits (s : TraffCounterImpl L) (id : UserId) (uip : IP) (k : FlowKey) : Prop :=
  ∀ d h, k.ip d = uip → s.held k d = some h → h.user = id

theorem admits_iff {k : FlowKey} {e : PacketExtraData L} (hl : s.packets.lookup k = some e) :
    s.Admits id uip k ↔
      ∀ d, k.ip d = uip → (e.side d).user = none ∨ (e.side d).user = some id := by
  refine forall_congr' fun d => ?_
  rw [held_eq_of_lookup hl, PacketExtraData.held]
  cases (e.side d).user <;> simp

/-- One round of the loop: the assertions hold, and the entry is changed. -/
theorem addUserAt_eq_some_iff {k : FlowKey} : addUserAt id uip s k = some s' ↔
    s.Admits id uip k ∧
      s' = { s with packets := s.packets.adjust k (PacketExtraData.assign id uip k) } := by
  unfold addUserAt
  cases hl : s.packets.lookup k with
  | none =>
    have hadj : s.packets.adjust k (PacketExtraData.assign id uip k) = s.packets :=
      AList.adjust_of_lookup_eq_none _ hl
    simpa [Admits, held, hl, hadj] using eq_comm
  | some e => simp [admits_iff hl, eq_comm]

/-- The loop of `AddUser` over any list of flows.

**Proof sketch.** Induction on the list.  A round for one flow neither changes another one nor
breaks its own assertions. -/
theorem foldlM_addUserAt (ks : List FlowKey) :
    ks.foldlM (addUserAt id uip) s = some s' →
      s'.rules = s.rules ∧ s'.ip2packets = s.ip2packets ∧
      ∀ k, s'.packets.lookup k =
        (s.packets.lookup k).map fun e => if k ∈ ks then e.assign id uip k else e := by
  induction ks generalizing s with
  | nil =>
    intro h
    obtain rfl : s = s' := by simpa using h
    simp
  | cons k ks ih =>
    intro h
    simp only [List.foldlM_cons, Option.bind_eq_bind, Option.bind_eq_some_iff] at h
    obtain ⟨s1, h1, h2⟩ := h
    obtain ⟨-, rfl⟩ := addUserAt_eq_some_iff.mp h1
    obtain ⟨hr, hi, hl⟩ := ih h2
    refine ⟨hr, hi, fun k' => ?_⟩
    rw [hl, AList.lookup_adjust]
    by_cases hk : k' = k
    · subst hk
      cases s.packets.lookup k' with
      | none => simp
      | some e =>
        by_cases hm : k' ∈ ks <;> simp [hm, PacketExtraData.assign_assign]
    · simp [hk]

theorem isSome_foldlM_addUserAt_iff (ks : List FlowKey) :
    (ks.foldlM (addUserAt id uip) s).isSome ↔ ∀ k ∈ ks, s.Admits id uip k := by
  induction ks generalizing s with
  | nil => simp
  | cons k ks ih =>
    rw [List.foldlM_cons, List.forall_mem_cons]
    cases h1 : addUserAt id uip s k with
    | none =>
      have : ¬ s.Admits id uip k := fun ha => by
        rw [addUserAt_eq_some_iff.mpr ⟨ha, rfl⟩] at h1
        cases h1
      simp [this]
    | some s1 =>
      obtain ⟨ha, rfl⟩ := addUserAt_eq_some_iff.mp h1
      simp only [Option.bind_eq_bind, Option.bind_some, ih, ha, true_and]
      refine forall₂_congr fun k' _ => ?_
      by_cases hk : k' = k
      · subst hk
        refine ⟨fun _ => ha, fun _ d h hd hh => ?_⟩
        cases hl : s.packets.lookup k' with
        | none => simp [held, hl] at hh
        | some e =>
          simp only [held, AList.lookup_adjust, if_true, hl, Option.map_some, Option.bind_some,
            PacketExtraData.held_assign, if_pos hd, Option.some.injEq] at hh
          rw [← hh]
      · simp [Admits, held, hk]

/-- **When `AddUser` passes its assertions**: no other user is at an end with the address. -/
theorem addUser_isSome_iff (hc : s.Complete) : (s.addUser id uip).isSome ↔
    ∀ k d h, k.ip d = uip → s.held k d = some h → h.user = id := by
  rw [addUser, isSome_foldlM_addUserAt_iff]
  constructor
  · intro h k d hd hip hh
    have hk : k ∈ s.packets := by
      rw [← AList.lookup_isSome]
      obtain ⟨e, he, -⟩ := Option.bind_eq_some_iff.mp hh
      simp [he]
    exact h k (hc.mem_equalRange hk hip) d hd hip hh
  · exact fun h k _ d hd hip hh => h k d hd hip hh

theorem lookup_addUser (hc : s.Complete) (h : s.addUser id uip = some s') (k : FlowKey) :
    s'.packets.lookup k = (s.packets.lookup k).map (PacketExtraData.assign id uip k) := by
  rw [((foldlM_addUserAt _) h).2.2 k]
  cases hl : s.packets.lookup k with
  | none => rfl
  | some e =>
    simp only [Option.map_some, Option.some.injEq]
    split_ifs with hm
    · rfl
    · -- an entry that is not found has no end at the address
      have hk : k ∈ s.packets := by rw [← AList.lookup_isSome, hl]; rfl
      have hne : ∀ d, k.ip d ≠ uip := fun d hd => hm (hc.mem_equalRange hk hd)
      simp [PacketExtraData.assign, hne]

/-- **What `AddUser` does to one end of a flow**: with the address of the user the end gets the
user, and its length is set to zero. -/
theorem held_addUser (hc : s.Complete) (h : s.addUser id uip = some s') (k : FlowKey) (d : Side) :
    s'.held k d = if k.ip d = uip then
      (s.packets.lookup k).map fun e => ⟨id, (e.side d).dir, 0⟩ else s.held k d := by
  rw [held, lookup_addUser hc h, held]
  cases s.packets.lookup k with
  | none => simp
  | some e =>
    simp only [Option.map_some, Option.bind_some, PacketExtraData.held_assign]

theorem addUser_rules (h : s.addUser id uip = some s') : s'.rules = s.rules :=
  ((foldlM_addUserAt _) h).1

theorem Complete.addUser (hc : s.Complete) (h : s.addUser id uip = some s') : s'.Complete := by
  intro k hk d
  rw [((foldlM_addUserAt _) h).2.1]
  refine hc k ?_ d
  rw [← AList.lookup_isSome, lookup_addUser hc h, Option.isSome_map] at hk
  exact AList.lookup_isSome.mp hk

theorem Timely.addUser {clock : Time} (ht : s.Timely clock) (hc : s.Complete)
    (h : s.addUser id uip = some s') : s'.Timely clock := by
  intro k e' hl'
  rw [lookup_addUser hc h, Option.map_eq_some_iff] at hl'
  obtain ⟨e, hl, rfl⟩ := hl'
  refine ⟨(ht k e hl).1, fun d h' hh' hne => ?_⟩
  rw [PacketExtraData.held_assign] at hh'
  split_ifs at hh'
  · obtain rfl := Option.some.inj hh'
    exact absurd rfl hne
  · exact (ht k e hl).2 d h' hh' hne

end AddUser

/-! ## What `DelUser` does -/

section DelUser

variable {uip : IP} {s : TraffCounterImpl L}

/-- The loop of `DelUser` over any list of flows.

**Proof sketch.** Induction on the list.  The first round for a flow leaves nothing to do for a
second one. -/
theorem foldl_delUserAt (ks : List FlowKey) (r : TraffCounterImpl L × List (StatCall L)) :
    (ks.foldl (delUserAt uip) r).1.rules = r.1.rules ∧
    (ks.foldl (delUserAt uip) r).1.ip2packets = r.1.ip2packets ∧
    (∀ k, (ks.foldl (delUserAt uip) r).1.packets.lookup k =
      (r.1.packets.lookup k).map fun e => if k ∈ ks then e.clear uip k else e) ∧
    ∀ k d, callsAt k d (ks.foldl (delUserAt uip) r).2 = callsAt k d r.2 ++
      if k ∈ ks ∧ k.ip d = uip then (r.1.held k d).toList.map (Held.call k d) else [] := by
  induction ks generalizing r with
  | nil => simp
  | cons k ks ih =>
    obtain ⟨hr, hi, hl, hc⟩ := ih (delUserAt uip r k)
    rw [List.foldl_cons]
    cases hk : r.1.packets.lookup k with
    | none =>
      have hsame : delUserAt uip r k = r := by simp [delUserAt, hk]
      rw [hsame] at hr hi hl hc ⊢
      refine ⟨hr, hi, fun k' => ?_, fun k' d => ?_⟩
      · by_cases hkk : k' = k
        · subst hkk; simp [hl, hk]
        · simp [hl, hkk]
      · by_cases hkk : k' = k
        · subst hkk; simp [hc, held, hk]
        · simp [hc, hkk]
    | some e =>
      have hstep : delUserAt uip r k =
          ({ r.1 with packets := r.1.packets.adjust k (PacketExtraData.clear uip k) },
            r.2 ++ e.statCalls k fun d => k.ip d = uip) := by simp [delUserAt, hk]
      rw [hstep] at hr hi hl hc ⊢
      refine ⟨hr, hi, fun k' => ?_, fun k' d => ?_⟩
      · rw [hl, AList.lookup_adjust]
        by_cases hkk : k' = k
        · subst hkk
          by_cases hm : k' ∈ ks <;> simp [hm, hk, PacketExtraData.clear_clear]
        · simp [hkk]
      · rw [hc, callsAt_append, PacketExtraData.callsAt_statCalls, List.append_assoc]
        by_cases hkk : k' = k
        · subst hkk
          by_cases hip : k'.ip d = uip <;> simp [held, hk, hip]
        · simp [held, hkk, Ne.symm hkk]

theorem lookup_delUser (hc : s.Complete) (k : FlowKey) :
    (s.delUser uip).1.packets.lookup k =
      (s.packets.lookup k).map (PacketExtraData.clear uip k) := by
  rw [delUser, (foldl_delUserAt _ _).2.2.1]
  cases hl : s.packets.lookup k with
  | none => rfl
  | some e =>
    simp only [Option.map_some, Option.some.injEq]
    split_ifs with hm
    · rfl
    · have hk : k ∈ s.packets := by rw [← AList.lookup_isSome, hl]; rfl
      have hne : ∀ d, k.ip d ≠ uip := fun d hd => hm (hc.mem_equalRange hk hd)
      simp [PacketExtraData.clear, hne]

/-- **What `DelUser` does to one end of a flow**: with the address it loses its user. -/
theorem held_delUser (hc : s.Complete) (k : FlowKey) (d : Side) :
    (s.delUser uip).1.held k d = if k.ip d = uip then none else s.held k d := by
  rw [held, lookup_delUser hc, held]
  cases s.packets.lookup k with
  | none => simp
  | some e => simp only [Option.map_some, Option.bind_some, PacketExtraData.held_clear]

/-- The length of the end is passed on. -/
theorem callsAt_delUser (hc : s.Complete) (k : FlowKey) (d : Side) :
    callsAt k d (s.delUser uip).2 =
      if k.ip d = uip then (s.held k d).toList.map (Held.call k d) else [] := by
  rw [delUser, (foldl_delUserAt _ _).2.2.2]
  by_cases hip : k.ip d = uip
  · cases hh : s.held k d with
    | none => simp
    | some h =>
      have hk : k ∈ s.packets := by
        obtain ⟨e, he, -⟩ := Option.bind_eq_some_iff.mp hh
        rw [← AList.lookup_isSome, he]
        rfl
      simp [hip, hc.mem_equalRange hk hip]
  · simp [hip]

theorem delUser_rules : (s.delUser uip).1.rules = s.rules := (foldl_delUserAt _ _).1

theorem Complete.delUser (hc : s.Complete) : (s.delUser uip).1.Complete := by
  intro k hk d
  rw [TraffCounterImpl.delUser, (foldl_delUserAt _ _).2.1]
  refine hc k ?_ d
  rw [← AList.lookup_isSome, lookup_delUser hc, Option.isSome_map] at hk
  exact AList.lookup_isSome.mp hk

theorem Timely.delUser {clock : Time} (ht : s.Timely clock) (hc : s.Complete) :
    (s.delUser uip).1.Timely clock := by
  intro k e' hl'
  rw [lookup_delUser hc, Option.map_eq_some_iff] at hl'
  obtain ⟨e, hl, rfl⟩ := hl'
  refine ⟨(ht k e hl).1, fun d h' hh' hne => ?_⟩
  rw [PacketExtraData.held_clear] at hh'
  split_ifs at hh'
  exact (ht k e hl).2 d h' hh' hne

end DelUser

/-! ## Directions, calls and tests of a whole counter -/

section Whole

variable {s s' : TraffCounterImpl L}

/-- The directions of an entry are those of its flow by the rules. -/
def Directed (s : TraffCounterImpl L) : Prop :=
  ∀ k e, s.packets.lookup k = some e → ∀ d, (e.side d).dir = determinateDir s.rules k d

theorem Directed.held_dir (h : s.Directed) {k : FlowKey} {d : Side} {x : Held L}
    (hx : s.held k d = some x) : x.dir = determinateDir s.rules k d := by
  obtain ⟨e, he, hh⟩ := Option.bind_eq_some_iff.mp hx
  obtain ⟨u, -, rfl⟩ := Option.map_eq_some_iff.mp hh
  exact h k e he d

theorem Directed.process (h : s.Directed) (now : Time) (find : IP → Option UserId) (k : FlowKey)
    (len : L) : (s.process now find k len).Directed := by
  intro k' e' hl' d
  rw [process_rules]
  by_cases hk : k' = k
  · subst hk
    rw [lookup_process] at hl'
    cases hl : s.packets.lookup k' with
    | some e =>
      simp only [hl, Option.some.injEq] at hl'
      subst hl'
      exact h k' e hl d
    | none =>
      simp only [hl, Option.ite_none_right_eq_some, Option.some.injEq] at hl'
      obtain ⟨-, rfl⟩ := hl'
      rfl
  · rw [lookup_process_of_ne _ _ _ _ _ hk] at hl'
    exact h k' e' hl' d

theorem Directed.flushAndRemove (h : s.Directed) (now : Time) :
    (s.flushAndRemove now).1.Directed := by
  intro k e' hl' d
  rw [lookup_flushAndRemove, Option.filter_eq_some_iff, Option.map_eq_some_iff] at hl'
  obtain ⟨⟨e, hl, rfl⟩, -⟩ := hl'
  rw [show (s.flushAndRemove now).1.rules = s.rules from rfl, ← h k e hl d]
  unfold PacketExtraData.flush
  split_ifs <;> dsimp only <;> split_ifs <;> rfl

theorem Directed.addUser (h : s.Directed) (hc : s.Complete) {id : UserId} {uip : IP}
    (hadd : s.addUser id uip = some s') : s'.Directed := by
  intro k e' hl' d
  rw [lookup_addUser hc hadd, Option.map_eq_some_iff] at hl'
  obtain ⟨e, hl, rfl⟩ := hl'
  rw [addUser_rules hadd, ← h k e hl d]
  simp only [PacketExtraData.assign]
  split_ifs <;> rfl

theorem Directed.delUser (h : s.Directed) (hc : s.Complete) (uip : IP) :
    (s.delUser uip).1.Directed := by
  intro k e' hl' d
  rw [lookup_delUser hc, Option.map_eq_some_iff] at hl'
  obtain ⟨e, hl, rfl⟩ := hl'
  rw [delUser_rules, ← h k e hl d]
  simp only [PacketExtraData.clear]
  split_ifs <;> rfl

/-- A test of all ends of all flows with a user. -/
def AllHeld (s : TraffCounterImpl L) (P : FlowKey → Side → Held L → Prop) : Prop :=
  ∀ e ∈ s.packets.entries, ∀ d, ∀ h ∈ e.2.held d, P e.1 d h

instance (s : TraffCounterImpl L) (P : FlowKey → Side → Held L → Prop)
    [∀ k d h, Decidable (P k d h)] : Decidable (s.AllHeld P) :=
  inferInstanceAs (Decidable (∀ e ∈ s.packets.entries, ∀ d, ∀ h ∈ e.2.held d, P e.1 d h))

theorem allHeld_iff {P : FlowKey → Side → Held L → Prop} :
    s.AllHeld P ↔ ∀ k d h, s.held k d = some h → P k d h := by
  constructor
  · intro hall k d h hh
    obtain ⟨e, he, hh⟩ := Option.bind_eq_some_iff.mp hh
    exact hall ⟨k, e⟩ (AList.mem_entries_iff.mpr he) d h hh
  · rintro hall ⟨k, e⟩ he d h hh
    exact hall k d h ((held_eq_of_lookup (AList.mem_entries_iff.mp he) d).trans hh)

end Whole

end TraffCounterImpl

end Stargazer
