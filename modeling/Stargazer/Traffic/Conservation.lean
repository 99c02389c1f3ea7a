import Stargazer.Traffic.Attribution
import Mathlib.Algebra.Order.BigOperators.Group.Multiset

set_option relaxedAutoImplicit false
set_option autoImplicit false

/-!
# Nothing is lost

The bytes of a packet belong to the user that has one of its addresses when it is processed, if the
user is connected and the direction is counted (`Tag.owed`).  They reach the counters of the user if
the steps leave no gap between the user and the traffic counter:

* addresses are handed over in order (`TraffSystem.Handover`) and the clock does not go back;
* a packet for a connected user comes only when the entry of its flow names the user, or there is no
  entry yet, and makes no length wrap around; and the user has a tariff;
* a user is disconnected, by its last authorizer or by `UserImpl::Run`, only when the counter keeps
  nothing for it;
* `AddUser`, which sets lengths to zero, runs only when nothing is kept at the address of its user.

And a packet must find its place in the map, whose keys are only ordered as far as the order of packets
is a strict weak order (`Stargazer.Traffic.PacketOrder`); elsewhere a step has no result.

## Main definitions

* `Stargazer.TraffSystem.mapStep` — the steps of the system with a map.
* `Stargazer.TraffSystem.Gapless` — the steps that leave no gap.
* `Stargazer.TraffSystem.Accounted` — the invariant.
* `Stargazer.TraffSystem.counted` — the packets that the user counted.

## Main results

* `Stargazer.TraffSystem.accounted_step` — the invariant is kept.
* `Stargazer.TraffSystem.accounts_once` — every packet is counted exactly once.
-/

namespace Stargazer

namespace TraffSystem

/-! ## Steps without a gap -/

section Gapless

variable {L : Type} [AddCommMonoid L] (M : Meter L)

/-- The counter keeps nothing for the user. -/
def Idle (s : TraffSystem L) (id : UserId) : Prop :=
  s.counter.AllHeld fun _ _ h => h.user = id → h.dir < dirNum → M.word h.len = 0

instance (s : TraffSystem L) (id : UserId) : Decidable (s.Idle M id) :=
  inferInstanceAs (Decidable (s.counter.AllHeld _))

/-- One end of the flow of a packet is ready for it: if the packet belongs to a user, the user has a
tariff and an entry of the flow names a user there; and the length does not wrap around. -/
def EndReady (s : TraffSystem L) (p : RawPacket) (d : Side) : Prop :=
  (∀ u ∈ s.users.ipIndex (p.key.ip d), (s.users.users u).connected = true →
    determinateDir s.counter.rules p.key d < dirNum →
      (s.users.users u).tariff.isSome = true ∧
      ((s.counter.packets.lookup p.key).isSome = true →
        (s.counter.held p.key d).isSome = true)) ∧
  ∀ h ∈ s.counter.held p.key d, h.dir < dirNum →
    (M.word h.len).toNat + p.getLen.toNat < 2 ^ 32

instance (s : TraffSystem L) (p : RawPacket) (d : Side) : Decidable (s.EndReady M p d) :=
  inferInstanceAs (Decidable (_ ∧ _))

/-- The next task may run: `AddUser` of a connected user finds nothing kept at its address. -/
def TaskGapless (s : TraffSystem L) : List Task → Prop
  | .addUser id :: _ => (s.users.users id).connected = true →
      s.counter.AllHeld fun k d h =>
        k.ip d = (s.users.users id).currIP → h.dir < dirNum → M.word h.len = 0
  | _ => True

instance (s : TraffSystem L) : (pool : List Task) → Decidable (s.TaskGapless M pool)
  | [] => isTrue trivial
  | .delUser _ :: _ => isTrue trivial
  | .addUser _ :: _ => inferInstanceAs (Decidable (_ → _))

/-- The steps that leave no gap between the users and the counter. -/
def Gapless (s : TraffSystem L) : Action → Prop
  | .process _ p => ∀ d, s.EndReady M p d
  | .unauthorize _ login auth _ => ∀ id ∈ s.users.loginIndex login,
      (s.users.users id).authorizedBy = {auth} → (s.users.users id).connected = true → s.Idle M id
  | .runUser env id => (s.users.users id).connected = true →
      ((s.users.users id).authorizedBy = ∅ ∨
        ((s.users.users id).runAccounts env).isInetable env = false) → s.Idle M id
  | .runTask _ => s.TaskGapless M s.pool
  | _ => True

instance (s : TraffSystem L) : (a : Action) → Decidable (s.Gapless M a)
  | .process _ _ => inferInstanceAs (Decidable (∀ _, _))
  | .unauthorize .. => inferInstanceAs (Decidable (∀ _ ∈ _, _))
  | .runUser .. => inferInstanceAs (Decidable (_ → _))
  | .runTask _ => inferInstanceAs (Decidable (s.TaskGapless M s.pool))
  | .flushAndRemove _ => isTrue trivial
  | .authorize .. => isTrue trivial

/-- A packet finds its place in the map: the flows there and its own are ordered. -/
def Searchable (s : TraffSystem L) : Action → Prop
  | .process _ p => FlowKey.Sortable (p.key :: s.counter.packets.keys)
  | _ => True

instance (s : TraffSystem L) : (a : Action) → Decidable (s.Searchable a)
  | .process _ _ => inferInstanceAs (Decidable (FlowKey.Sortable _))
  | .unauthorize .. => isTrue trivial
  | .runUser .. => isTrue trivial
  | .runTask _ => isTrue trivial
  | .flushAndRemove _ => isTrue trivial
  | .authorize .. => isTrue trivial

/-- One step with a map: there is no result for a packet that finds no place. -/
def mapStep (s : TraffSystem L) (a : Action) : Option (TraffSystem L) :=
  if s.Searchable a then s.step M a else none

theorem mapStep_eq_some_iff {s s' : TraffSystem L} {a : Action} :
    s.mapStep M a = some s' ↔ s.Searchable a ∧ s.step M a = some s' := by
  unfold mapStep
  split_ifs with h <;> simp [h]

/-- What the counter does with a packet is what `process` does on a map. -/
theorem mapStep_process (s : TraffSystem L) (env : Env) (p : RawPacket) :
    (s.mapStep M (.process env p)).map TraffSystem.counter =
      s.counter.process? env.stgTime s.users.ipIndex p.key
        (M.stamp s.users s.counter.rules s.seq p) := by
  unfold mapStep TraffCounterImpl.process?
  by_cases h : FlowKey.Sortable (p.key :: s.counter.packets.keys)
  · rw [if_pos (show s.Searchable (.process env p) from h), if_pos h]
    rfl
  · rw [if_neg (show ¬ s.Searchable (.process env p) from h), if_neg h]
    rfl

/-- The steps of the result. -/
def Order (s : TraffSystem L) (a : Action) : Prop :=
  s.Searchable a ∧ s.Handover a ∧ s.InTime a ∧ s.Gapless M a

instance (s : TraffSystem L) (a : Action) : Decidable (s.Order M a) :=
  inferInstanceAs (Decidable (_ ∧ _))

end Gapless

/-- A user whose traffic is counted stays so, unless its last authorizer leaves or `Run` disconnects
it. -/
theorem UsersStep.counts_cases {u u' : UsersImpl} {a : Action} (h : UsersStep u a u')
    {id : UserId} (hc : (u.users id).counts = true) :
    (u'.users id).counts = true ∨
    (∃ env login auth reason, a = .unauthorize env login auth reason ∧
      u.loginIndex login = some id ∧ (u.users id).authorizedBy = {auth}) ∨
    (∃ env, a = .runUser env id ∧ ((u.users id).authorizedBy = ∅ ∨
      ((u.users id).runAccounts env).isInetable env = false)) := by
  cases h with
  | same _ hu =>
    refine .inl ?_
    rwa [UserImpl.counts, (hu.users id).connected, (hu.users id).tariff]
  | gain _ _ _ _ _ j _ _ _ hg =>
    refine .inl ?_
    by_cases hj : id = j
    · subst hj
      rwa [UserImpl.counts, hg.connected, hg.tariff]
    · rwa [hg.others id hj]
  | lose env login auth reason j _ _ ha hl he hg =>
    by_cases hj : id = j
    · subst hj
      have hlast := ((u.users id).authorizedBy.erase_eq_empty_iff auth).mp he
      exact .inr (.inl ⟨env, login, auth, reason, ha, hl, hlast.resolve_left hg.before⟩)
    · refine .inl ?_
      rwa [hg.others id hj]
  | run env j ha =>
    by_cases hj : id = j
    · subst hj
      by_cases hd : (u.users id).authorizedBy = ∅ ∨
          ((u.users id).runAccounts env).isInetable env = false
      · exact .inr (.inr ⟨env, ha, hd⟩)
      · simp only [not_or, Bool.not_eq_false] at hd
        simp only [UserImpl.counts, Bool.and_eq_true] at hc
        refine .inl ?_
        rw [UsersImpl.setUser_self, UserImpl.counts, UserImpl.run_connected env hc.1 hd.1 hd.2,
          (UserImpl.sameAccount_run env _).tariff, hc.2]
        rfl
    · refine .inl ?_
      rwa [UsersImpl.setUser_of_ne _ _ hj]

/-! ## Bytes -/

/-- The bytes of the packets in a length. -/
def bytes (m : Multiset Tag) : ℕ := (m.map fun t => t.packet.getLen.toNat).sum

@[simp] theorem bytes_zero : bytes 0 = 0 := rfl

@[simp] theorem bytes_singleton (t : Tag) : bytes {t} = t.packet.getLen.toNat := by simp [bytes]

@[simp] theorem bytes_add (m m' : Multiset Tag) : bytes (m + m') = bytes m + bytes m' := by
  simp [bytes]

/-- A length that is exact and zero holds no packet with bytes. -/
theorem notMem_of_word_eq_zero {m : Multiset Tag} {t : Tag}
    (hexact : (ledger.word m).toNat = bytes m) (hz : ledger.word m = 0)
    (ht : 0 < t.packet.getLen.toNat) : t ∉ m := by
  intro hm
  have hle : t.packet.getLen.toNat ≤ bytes m :=
    Multiset.le_sum_of_mem (Multiset.mem_map_of_mem (fun t : Tag => t.packet.getLen.toNat) hm)
  rw [← hexact, hz] at hle
  simp at hle
  omega

/-! ## The invariant -/

/-- The packets of a flow that the user counted for one side. -/
def delivered (s : TraffSystem (Multiset Tag)) (k : FlowKey) (d : Side) (u : UserId) :
    Multiset Tag :=
  ((s.calls.filter fun c => (c.1.key = k ∧ c.1.side = d) ∧ c.1.user = u ∧ c.2).map
    fun c => c.1.len).sum

/-- The packets kept for the user at one end of a flow. -/
def keptLen (s : TraffSystem (Multiset Tag)) (k : FlowKey) (d : Side) : Multiset Tag :=
  ((s.counter.held k d).map Held.len).getD 0

theorem mem_list_sum {α : Type} {x : α} (l : List (Multiset α)) :
    x ∈ l.sum ↔ ∃ m ∈ l, x ∈ m := by
  induction l with
  | nil => simp
  | cons m l ih => simp [ih]

/-- The invariant. -/
structure Accounted (s : TraffSystem (Multiset Tag)) : Prop extends Attributed s where
  /-- Times are in order. -/
  timely : s.counter.Timely s.clock
  /-- The packets in a kept length are packets of the flow. -/
  keyed : ∀ k d h t, s.counter.held k d = some h → t ∈ h.len →
    t.packet.key = k ∧ t ∈ s.received
  /-- A kept length did not wrap around. -/
  exact : ∀ k d h, s.counter.held k d = some h → h.dir < dirNum →
    (ledger.word h.len).toNat = bytes h.len
  /-- The bytes in a kept length that belong to a user are kept for this user, and would be counted
  now. -/
  live : ∀ k d h t u, s.counter.held k d = some h → t ∈ h.len → t.owed d = some u →
    0 < t.packet.getLen.toNat → h.user = u ∧ h.dir < dirNum ∧ (s.users.users u).counts = true
  /-- Packets are numbered. -/
  fresh : ∀ t ∈ s.received, t.seq < s.seq
  /-- The packets in a length that was passed on are packets of the flow. -/
  passedKeyed : ∀ c ∈ s.calls, ∀ t ∈ c.1.len, t.packet.key = c.1.key ∧ t ∈ s.received
  /-- A length that was counted did not wrap around. -/
  passedExact : ∀ c ∈ s.calls, c.2 = true → (ledger.word c.1.len).toNat = bytes c.1.len
  /-- A packet with bytes that belong to a user was counted once, or is kept. -/
  balance : ∀ t ∈ s.received, ∀ d u, t.owed d = some u → 0 < t.packet.getLen.toNat →
    (s.delivered t.packet.key d u).count t + (s.keptLen t.packet.key d).count t = 1

theorem accounted_initial {users : UsersImpl} (hu : users.Initial) (rules : List Rule)
    (clock : Time) : (initial users rules clock).Accounted where
  toAttributed := attributed_initial hu rules clock
  timely _ _ hl := by simp [initial] at hl
  keyed _ _ _ _ hh := by simp [initial, TraffCounterImpl.held] at hh
  exact _ _ _ hh := by simp [initial, TraffCounterImpl.held] at hh
  live _ _ _ _ _ hh := by simp [initial, TraffCounterImpl.held] at hh
  fresh _ ht := by simp [initial] at ht
  passedKeyed _ hc := by simp [initial] at hc
  passedExact _ hc := by simp [initial] at hc
  balance _ ht := by simp [initial] at ht

/-! ## One step -/

section Step

variable {s s' : TraffSystem (Multiset Tag)} {a : Action} {k : FlowKey} {d : Side}
  {cs : List (StatCall (Multiset Tag))} {h : Held (Multiset Tag)} {t : Tag}

/-- A new packet is no old one. -/
theorem ne_stamp_of_mem (hI : s.Accounted) (ht : t ∈ s.received) (p : RawPacket) :
    t ≠ Tag.stamp s.users s.counter.rules s.seq p := by
  rintro rfl
  exact absurd (hI.fresh _ ht) (Nat.lt_irrefl _)

/-- Bytes kept for a user that counts them are not lost from sight: the user still counts them after
a step that leaves no gap. -/
theorem counts_step (hI : s.Accounted) (hg : s.Gapless ledger a)
    (hu : UsersStep s.users a s'.users) {u : UserId} (hh : s.counter.held k d = some h)
    (ht : t ∈ h.len) (ho : t.owed d = some u) (hpos : 0 < t.packet.getLen.toNat) :
    (s'.users.users u).counts = true := by
  obtain ⟨huser, hdir, hcounts⟩ := hI.live k d h t u hh ht ho hpos
  have hconn : (s.users.users u).connected = true := by
    simp only [UserImpl.counts, Bool.and_eq_true] at hcounts
    exact hcounts.1
  have hidle : ¬ s.Idle ledger u := fun hi =>
    notMem_of_word_eq_zero (hI.exact k d h hh hdir)
      (TraffCounterImpl.allHeld_iff.mp hi k d h hh huser hdir) hpos ht
  rcases hu.counts_cases hcounts with hc | ⟨env, login, auth, reason, rfl, hl, hlast⟩ |
    ⟨env, rfl, hdis⟩
  · exact hc
  · exact absurd (hg u hl hlast hconn) hidle
  · exact absurd (hg hconn hdis) hidle

/-- A packet on the record after a step was there before, or is the packet of the step. -/
theorem mem_received_cases (hs : s.step ledger a = some s') (ht : t ∈ s'.received) :
    t ∈ s.received ∨ ∃ p, a.packet = some p ∧ t = Tag.stamp s.users s.counter.rules s.seq p := by
  rcases step_received hs with ⟨-, hr, -⟩ | ⟨p, hp, hr, -⟩
  · exact .inl (hr ▸ ht)
  · rw [hr] at ht
    rcases Multiset.mem_add.mp ht with ht | ht
    · exact .inl ht
    · exact .inr ⟨p, hp, Multiset.mem_singleton.mp ht⟩

/-- The record of packets only grows. -/
theorem mem_received_of_mem (hs : s.step ledger a = some s') (ht : t ∈ s.received) :
    t ∈ s'.received := by
  rcases step_received hs with ⟨-, hr, -⟩ | ⟨p, -, hr, -⟩
  · rwa [hr]
  · rw [hr]
    exact Multiset.mem_add.mpr (.inl ht)

/-- The packet of a step is put on record. -/
theorem stamp_mem_received (hs : s.step ledger a = some s') {p : RawPacket}
    (hp : a.packet = some p) : Tag.stamp s.users s.counter.rules s.seq p ∈ s'.received := by
  rcases step_received hs with ⟨hnone, -⟩ | ⟨q, hq, hr, -⟩
  · rw [hp] at hnone
    cases hnone
  · obtain rfl := Option.some.inj (hp.symm.trans hq)
    rw [hr]
    exact Multiset.mem_add.mpr (.inr (Multiset.mem_singleton_self _))

/-- Packets are numbered below the next number. -/
theorem fresh_step (hI : s.Accounted) (hs : s.step ledger a = some s') :
    ∀ t ∈ s'.received, t.seq < s'.seq := by
  intro t ht
  rcases step_received hs with ⟨-, hr, hseq⟩ | ⟨p, -, -, hseq⟩
  · rw [hr] at ht
    rw [hseq]
    exact hI.fresh t ht
  · rw [hseq]
    rcases mem_received_cases hs ht with ht | ⟨q, -, rfl⟩
    · exact Nat.lt_succ_of_lt (hI.fresh t ht)
    · exact Nat.lt_succ_self _

theorem keyed_step (hI : s.Accounted) (hs : s.step ledger a = some s')
    (hside : SideStep ledger s a k d (s.counter.held k d) (s'.counter.held k d) cs)
    (hh : s'.counter.held k d = some h) (ht : t ∈ h.len) :
    t.packet.key = k ∧ t ∈ s'.received := by
  have hold : ∀ x, s.counter.held k d = some x → t ∈ x.len →
      t.packet.key = k ∧ t ∈ s'.received := fun x hx hm =>
    ⟨(hI.keyed k d x t hx hm).1, mem_received_of_mem hs (hI.keyed k d x t hx hm).2⟩
  rw [hh] at hside
  generalize hx : s.counter.held k d = o at hside
  cases hside with
  | keep => exact hold h hx ht
  | grow p x hp hk =>
    rcases Multiset.mem_add.mp ht with ht | ht
    · exact hold x hx ht
    · obtain rfl := Multiset.mem_singleton.mp ht
      exact ⟨hk, stamp_mem_received hs hp⟩
  | appear p u hp hk =>
    obtain rfl := Multiset.mem_singleton.mp ht
    exact ⟨hk, stamp_mem_received hs hp⟩
  | pass x _ _ hafter =>
    rcases hafter with hafter | hafter
    · cases hafter
    · obtain rfl := Option.some.inj hafter
      simp at ht
  | assign => simp at ht

theorem exact_step (hI : s.Accounted) (hg : s.Gapless ledger a)
    (hside : SideStep ledger s a k d (s.counter.held k d) (s'.counter.held k d) cs)
    (hh : s'.counter.held k d = some h) (hdir : h.dir < dirNum) :
    (ledger.word h.len).toNat = bytes h.len := by
  rw [hh] at hside
  generalize hx : s.counter.held k d = o at hside
  cases hside with
  | keep => exact hI.exact k d h hx hdir
  | grow p x hp hk =>
    cases a with
    | process env q =>
      obtain rfl : q = p := Option.some.inj hp
      subst hk
      have hlt := (hg d).2 x hx hdir
      rw [map_add, ledger.word_stamp, BitVec.toNat_add, Nat.mod_eq_of_lt hlt,
        hI.exact _ d x hx hdir, bytes_add]
      simp [ledger, Tag.stamp]
    | _ => cases hp
  | appear p u hp hk =>
    rw [ledger.word_stamp]
    simp [ledger, Tag.stamp]
  | pass x _ _ hafter =>
    rcases hafter with hafter | hafter
    · cases hafter
    · obtain rfl := Option.some.inj hafter
      simp
  | assign => simp

theorem live_step (hI : s.Accounted) (hg : s.Gapless ledger a)
    (hu : UsersStep s.users a s'.users)
    (hside : SideStep ledger s a k d (s.counter.held k d) (s'.counter.held k d) cs)
    (hh : s'.counter.held k d = some h) (ht : t ∈ h.len) {u : UserId} (ho : t.owed d = some u)
    (hpos : 0 < t.packet.getLen.toNat) :
    h.user = u ∧ h.dir < dirNum ∧ (s'.users.users u).counts = true := by
  -- a packet that was kept before
  have hold : ∀ x, s.counter.held k d = some x → t ∈ x.len →
      x.user = u ∧ x.dir < dirNum ∧ (s'.users.users u).counts = true := fun x hx hm =>
    have hlive := hI.live k d x t u hx hm ho hpos
    ⟨hlive.1, hlive.2.1, counts_step hI hg hu hx hm ho hpos⟩
  -- the packet of this step
  have hnew : ∀ p, a.packet = some p → p.key = k →
      t = Tag.stamp s.users s.counter.rules s.seq p →
      s.users.ipIndex (k.ip d) = some u ∧ determinateDir s.counter.rules k d < dirNum ∧
        (s'.users.users u).counts = true := by
    rintro p hp rfl rfl
    obtain ⟨hip, hconn, hdir⟩ := Tag.stamp_owed.mp ho
    cases a with
    | process env q =>
      obtain rfl : q = p := Option.some.inj hp
      have hcounts : (s.users.users u).counts = true := by
        simp [UserImpl.counts, hconn, ((hg d).1 u hip hconn hdir).1]
      rcases hu.counts_cases hcounts with hc | ⟨_, _, _, _, ha, _⟩ | ⟨_, ha, _⟩
      · exact ⟨hip, hdir, hc⟩
      · cases ha
      · cases ha
    | _ => cases hp
  rw [hh] at hside
  generalize hx : s.counter.held k d = o at hside
  cases hside with
  | keep => exact hold h hx ht
  | grow p x hp hk =>
    rcases Multiset.mem_add.mp ht with ht | ht
    · exact hold x hx ht
    · obtain ⟨hip, hdir, hcounts⟩ := hnew p hp hk (Multiset.mem_singleton.mp ht)
      refine ⟨hI.current k d x u hx hip, ?_, hcounts⟩
      rwa [hI.directed.held_dir hx]
  | appear p v hp hk hip =>
    obtain ⟨hip', hdir, hcounts⟩ := hnew p hp hk (Multiset.mem_singleton.mp ht)
    exact ⟨Option.some.inj (hip.symm.trans hip'), hdir, hcounts⟩
  | pass x _ _ hafter =>
    rcases hafter with hafter | hafter
    · cases hafter
    · obtain rfl := Option.some.inj hafter
      simp at ht
  | assign => simp at ht

/-- What a step delivers of a flow. -/
theorem delivered_step {new : List (StatCall (Multiset Tag))}
    (hcalls : s'.calls = s.calls ++ new.map fun c => (c, s.accepts c)) (k : FlowKey) (d : Side)
    (u : UserId) : s'.delivered k d u = s.delivered k d u +
      (((callsAt k d new).filter fun c => c.user = u ∧ s.accepts c).map StatCall.len).sum := by
  rw [delivered, hcalls, List.filter_append, List.map_append, List.sum_append, delivered]
  congr 1
  rw [List.filter_map, List.map_map, callsAt, List.filter_filter]
  refine congrArg List.sum (congrArg₂ List.map rfl (List.filter_congr fun c _ => ?_))
  simp only [Function.comp_apply, Bool.decide_and, Bool.decide_eq_true]
  exact Bool.and_comm _ _

/-- The number of times a packet was counted or is kept does not change, if it was processed
before the step.

**Proof sketch.** Where a length is passed on, the user named there counts it as long as it holds
the packet (`Accounted.live`).  A forgotten entry keeps nothing, and neither does an entry whose
length `AddUser` sets to zero, as the packet has bytes. -/
theorem balance_step (hI : s.Accounted) (hg : s.Gapless ledger a)
    {new : List (StatCall (Multiset Tag))}
    (hcalls : s'.calls = s.calls ++ new.map fun c => (c, s.accepts c))
    (hside : SideStep ledger s a k d (s.counter.held k d) (s'.counter.held k d) (callsAt k d new))
    (ht : t ∈ s.received) {u : UserId} (ho : t.owed d = some u)
    (hpos : 0 < t.packet.getLen.toNat) :
    (s'.delivered k d u).count t + (s'.keptLen k d).count t =
      (s.delivered k d u).count t + (s.keptLen k d).count t := by
  rw [delivered_step hcalls, Multiset.count_add, add_assoc]
  congr 1
  unfold keptLen
  generalize hx : s.counter.held k d = o at hside
  generalize s'.counter.held k d = o' at hside
  generalize callsAt k d new = cs at hside
  cases hside with
  | keep => simp
  | miss => simp
  | grow p x hp hk =>
    have hne := ne_stamp_of_mem hI ht p
    simp [ledger, hne]
  | appear p v hp hk hip =>
    have hne := ne_stamp_of_mem hI ht p
    simp [ledger, hne]
  | pass x _ hp hafter =>
    have hzero : ((o'.map Held.len).getD 0 : Multiset Tag).count t = 0 := by
      rcases hafter with rfl | rfl <;> simp
    rw [hzero, add_zero]
    by_cases hm : t ∈ x.len
    · obtain ⟨huser, hdir, hcounts⟩ := hI.live k d x t u hx hm ho hpos
      have haccepts : s.accepts (x.call k d) = true := by
        simp [accepts, Held.call, huser, hdir, hcounts]
      simp only [Held.call, huser] at haccepts ⊢
      simp [haccepts]
    · rw [Option.map_some, Option.getD_some, Multiset.count_eq_zero_of_notMem hm,
        Multiset.count_eq_zero]
      intro hmem
      rw [List.filter_cons, List.filter_nil] at hmem
      split_ifs at hmem
      · simp [Held.call] at hmem
        exact hm hmem
      · simp at hmem
  | expire x hp hzero =>
    simp [hzero hI.timely]
  | assign env id pool _ ha hpool hip hsame =>
    have hcount : ((o.map Held.len).getD 0 : Multiset Tag).count t = 0 := by
      cases o with
      | none => simp
      | some x =>
        refine Multiset.count_eq_zero.mpr fun hm => ?_
        obtain ⟨huser, hdir, hcounts⟩ := hI.live k d x t u hx hm ho hpos
        simp only [UserImpl.counts, Bool.and_eq_true] at hcounts
        subst ha
        simp only [Gapless, hpool, TaskGapless] at hg
        rw [← huser, hsame x rfl] at hcounts
        exact notMem_of_word_eq_zero (hI.exact k d x hx hdir)
          (TraffCounterImpl.allHeld_iff.mp (hg hcounts.1) k d x hx hip hdir) hpos hm
    simp [hcount]

/-- A packet that belongs to a user is kept for it when it is processed. -/
theorem balance_new (hI : s.Accounted) (hg : s.Gapless ledger a)
    {new : List (StatCall (Multiset Tag))}
    (hcalls : s'.calls = s.calls ++ new.map fun c => (c, s.accepts c)) {p : RawPacket}
    (hp : a.packet = some p)
    (hside : SideStep ledger s a p.key d (s.counter.held p.key d) (s'.counter.held p.key d)
      (callsAt p.key d new)) {u : UserId}
    (ho : (Tag.stamp s.users s.counter.rules s.seq p).owed d = some u) :
    (s'.delivered p.key d u).count (Tag.stamp s.users s.counter.rules s.seq p) +
      (s'.keptLen p.key d).count (Tag.stamp s.users s.counter.rules s.seq p) = 1 := by
  -- the packet occurs nowhere before the step
  have hnew : Tag.stamp s.users s.counter.rules s.seq p ∉ s.received := fun hm =>
    ne_stamp_of_mem hI hm p rfl
  have hdelivered :
      (s.delivered p.key d u).count (Tag.stamp s.users s.counter.rules s.seq p) = 0 := by
    refine Multiset.count_eq_zero.mpr fun hm => ?_
    obtain ⟨m, hm, ht⟩ := (mem_list_sum _).mp hm
    obtain ⟨c, hc, rfl⟩ := List.mem_map.mp hm
    exact hnew (hI.passedKeyed c (List.mem_of_mem_filter hc) _ ht).2
  obtain ⟨hip, hconn, hdir⟩ := Tag.stamp_owed.mp ho
  rw [delivered_step hcalls, Multiset.count_add, hdelivered, zero_add]
  unfold keptLen
  generalize hx : s.counter.held p.key d = o at hside
  generalize s'.counter.held p.key d = o' at hside
  generalize callsAt p.key d new = cs at hside
  cases hside with
  | keep _ hne => exact absurd rfl (hne p hp)
  | miss q hq hk hmiss =>
    cases a with
    | process env r =>
      obtain rfl : r = p := Option.some.inj hp
      rcases hmiss with hmiss | hmiss
      · rw [hip] at hmiss
        cases hmiss
      · have := ((hg d).1 u hip hconn hdir).2 (AList.lookup_isSome.mpr hmiss)
        simp [hx] at this
    | _ => cases hp
  | grow q x hq hk =>
    obtain rfl := Option.some.inj (hq.symm.trans hp)
    have hkept : (Tag.stamp s.users s.counter.rules s.seq q) ∉ x.len := fun hm =>
      hnew (hI.keyed _ d x _ hx hm).2
    simp [ledger, hkept]
  | appear q v hq hk hiq =>
    obtain rfl := Option.some.inj (hq.symm.trans hp)
    simp [ledger]
  | pass x _ hnone => rw [hp] at hnone; cases hnone
  | expire x hnone => rw [hp] at hnone; cases hnone
  | assign env id pool _ ha => subst ha; cases hp

/-- **The invariant is kept by every step in order.** -/
theorem accounted_step (hI : s.Accounted) (hg : s.Order ledger a)
    (hs : s.step ledger a = some s') : s'.Accounted := by
  obtain ⟨-, hhandover, htime, hgap⟩ := hg
  have hu := step_users hI.consistent hI.indexed hs
  obtain ⟨new, hcalls, hside⟩ := step_sides hI.complete hI.directed hs
  refine { attributed_step hI.toAttributed hhandover hs with
    timely := step_timely hI.complete hI.timely htime hs
    keyed := fun k d x t hx ht => keyed_step hI hs (hside k d) hx ht
    exact := fun k d x hx hdir => exact_step hI hgap (hside k d) hx hdir
    live := fun k d x t u hx ht ho hpos => live_step hI hgap hu (hside k d) hx ht ho hpos
    fresh := fresh_step hI hs
    passedKeyed := ?_, passedExact := ?_, balance := ?_ }
  · intro c hc t ht
    rcases mem_calls_cases hcalls hside hc with hc | ⟨k, d, x, hx, rfl⟩
    · obtain ⟨hkey, hmem⟩ := hI.passedKeyed c hc t ht
      exact ⟨hkey, mem_received_of_mem hs hmem⟩
    · obtain ⟨hkey, hmem⟩ := hI.keyed k d x t hx ht
      exact ⟨hkey, mem_received_of_mem hs hmem⟩
  · intro c hc hcounted
    rcases mem_calls_cases hcalls hside hc with hc | ⟨k, d, x, hx, rfl⟩
    · exact hI.passedExact c hc hcounted
    · simp only [accepts, Bool.and_eq_true, decide_eq_true_eq] at hcounted
      exact hI.exact k d x hx hcounted.1
  · intro t ht d u ho hpos
    rcases mem_received_cases hs ht with ht | ⟨p, hp, rfl⟩
    · rw [balance_step hI hgap hcalls (hside t.packet.key d) ht ho hpos]
      exact hI.balance t ht d u ho hpos
    · exact balance_new hI hgap hcalls hp (hside p.key d) ho

end Step

/-! ## Whole runs -/

/-- The packets that the user counted for one side. -/
def counted (s : TraffSystem (Multiset Tag)) (d : Side) (u : UserId) : Multiset Tag :=
  ((s.calls.filter fun c => c.1.side = d ∧ c.1.user = u ∧ c.2).map fun c => c.1.len).sum

/-- A packet is counted with its own flow only. -/
theorem count_counted {s : TraffSystem (Multiset Tag)} (hI : s.Accounted) (t : Tag) (d : Side)
    (u : UserId) : (s.counted d u).count t = (s.delivered t.packet.key d u).count t := by
  have hkeyed : ∀ c ∈ s.calls, t ∈ c.1.len → t.packet.key = c.1.key := fun c hc ht =>
    (hI.passedKeyed c hc t ht).1
  unfold counted delivered
  generalize s.calls = l at hkeyed
  induction l with
  | nil => rfl
  | cons c l ih =>
    have ih := ih fun c' hc' => hkeyed c' (List.mem_cons_of_mem _ hc')
    have hc := hkeyed c List.mem_cons_self
    by_cases hk : c.1.key = t.packet.key
    · by_cases hcond : c.1.side = d ∧ c.1.user = u ∧ c.2
      · rw [List.filter_cons_of_pos (by simpa using hcond),
          List.filter_cons_of_pos (by simpa [hk] using hcond), List.map_cons, List.map_cons,
          List.sum_cons, List.sum_cons, Multiset.count_add, Multiset.count_add, ih]
      · rw [List.filter_cons_of_neg (by simpa using hcond),
          List.filter_cons_of_neg (by simpa [hk] using hcond), ih]
    · have hzero : c.1.len.count t = 0 :=
        Multiset.count_eq_zero.mpr fun ht => hk (hc ht).symm
      rw [List.filter_cons_of_neg (a := c) (p := fun c => decide ((c.1.key = t.packet.key ∧
        c.1.side = d) ∧ c.1.user = u ∧ c.2)) (by simp [hk]), ← ih, List.filter_cons]
      split_ifs
      · simp [hzero]
      · rfl

/-- **Nothing is lost and nothing is counted twice.** Start with nobody authorized and perform any
steps in order, with packets that find their place in the map, and then a flush more than `FLUSH_TIME`
later.  Every packet with bytes that belong
to a user is counted exactly once by this user; what a user counts are the bytes of the packets, and
its month counters are what they were at the start and what it counted.

**Proof sketch.** The invariant rule with `accounted_step`.  The late flush leaves nothing kept. -/
theorem accounts_once (users : UsersImpl) (hu : users.Initial) (rules : List Rule) (clock : Time)
    (as : List Action) (s s' : TraffSystem (Multiset Tag)) (env : Env)
    (h : Transition.Reaches (mapStep ledger) (Order ledger) (initial users rules clock) as s)
    (hlate : env.stgTime > s.clock + flushPeriod)
    (hflush : s.mapStep ledger (.flushAndRemove env) = some s') :
    (∀ t ∈ s.received, ∀ d u, t.owed d = some u → 0 < t.packet.getLen.toNat →
      (s'.counted d u).count t = 1) ∧
    (∀ c ∈ s'.calls, c.2 = true → (ledger.word c.1.len).toNat = bytes c.1.len) ∧
    ∀ d u dir, (s'.users.users u).monthTraff d dir =
      (users.users u).monthTraff d dir + s'.credited ledger d u dir := by
  have hI : s.Accounted :=
    h.invariant (fun _ _ _ hI hg hs => accounted_step hI hg ((mapStep_eq_some_iff _).mp hs).2)
      (accounted_initial hu rules clock)
  replace hflush := ((mapStep_eq_some_iff _).mp hflush).2
  have horder : s.Order ledger (.flushAndRemove env) := by
    refine ⟨trivial, trivial, ?_, trivial⟩
    simp only [InTime]
    unfold flushPeriod at hlate
    lia
  have hI' := accounted_step hI horder hflush
  refine ⟨fun t ht d u ho hpos => ?_, hI'.passedExact, fun d u dir => ?_⟩
  · have hcounter := (step_flushAndRemove hflush).2
    have hreceived : s'.received = s.received := by rw [hcounter]
    have hkept : (s'.keptLen t.packet.key d).count t = 0 := by
      unfold keptLen
      cases hx : s'.counter.held t.packet.key d with
      | none => simp
      | some x =>
        rw [hcounter] at hx
        simp [TraffCounterImpl.flushAndRemove_of_late hI.timely hlate hx]
    have hbalance := hI'.balance t (hreceived ▸ ht) d u ho hpos
    rw [count_counted hI']
    omega
  · have hrun := h.mono_step fun _ _ _ hs => ((mapStep_eq_some_iff ledger).mp hs).2
    exact monthTraff_eq (hrun.snoc horder hflush) d u dir

end TraffSystem

namespace Sample

/-- A user is authorized and connected and sends two packets. -/
def traffic : List TraffSystem.Action :=
  [.authorize (env 0) "a" 7 0 1, .runTask (env 0), .runUser (env 0) 0,
    .process (env 0) (packet 100), .process (env 5) (packet 50)]

/-- A user sends two packets, which are passed on, comes back with another address and sends a third
one. -/
def moved : List TraffSystem.Action :=
  [.authorize (env 0) "a" 7 0 1, .runTask (env 0), .runUser (env 0) 0,
    .process (env 0) (packet 4), .process (env 5) (packet 3), .flushAndRemove (env 20),
    .unauthorize (env 21) "a" 1 "", .runTask (env 21), .authorize (env 22) "a" 9 0 1,
    .runTask (env 22), .runUser (env 22) 0, .process (env 23) { packet 5 with srcIP := 9 }]

end Sample

namespace TraffSystem

/-- All three packets are counted once. -/
theorem accounts_once_sample :
    ∃ s s', Transition.Reaches (mapStep ledger) (Order ledger) (initial Sample.users Sample.rules 0)
        Sample.moved s ∧
      s.mapStep ledger (.flushAndRemove (Sample.env 40)) = some s' ∧
      (s'.users.users 0).monthTraff .up 0 = 12 ∧ s.received.card = 3 ∧
      ∀ t ∈ s.received, ∀ d u, t.owed d = some u → 0 < t.packet.getLen.toNat →
        (s'.counted d u).count t = 1 := by
  obtain ⟨s, s', hrun, hlate, hflush, hmonth, hcard⟩ : ∃ s s', Transition.Reaches (mapStep ledger)
      (Order ledger) (initial Sample.users Sample.rules 0) Sample.moved s ∧
      (Sample.env 40).stgTime > s.clock + flushPeriod ∧
      s.mapStep ledger (.flushAndRemove (Sample.env 40)) = some s' ∧
      (s'.users.users 0).monthTraff .up 0 = 12 ∧ s.received.card = 3 :=
    ⟨_, _, .cons (by decide +kernel) rfl (.cons (by decide +kernel) rfl
      (.cons (by decide +kernel) rfl (.cons (by decide +kernel) rfl
      (.cons (by decide +kernel) rfl (.cons (by decide +kernel) rfl (.cons (by decide +kernel) rfl
      (.cons (by decide +kernel) rfl (.cons (by decide +kernel) rfl (.cons (by decide +kernel) rfl
      (.cons (by decide +kernel) rfl (.cons (by decide +kernel) rfl (.nil _)))))))))))),
      by decide +kernel, rfl, by decide +kernel, by decide +kernel⟩
  exact ⟨s, s', hrun, hflush, hmonth, hcard, (accounts_once Sample.users Sample.users_initial
    Sample.rules 0 _ s s' (Sample.env 40) hrun hlate hflush).1⟩

/-- The user is unauthorized before its packet is passed on: it is disconnected at once, and
`DelUser`, which runs later, passes the packet to a user that does not count it. -/
theorem traffic_lost :
    ¬ ∀ as s s' env, Transition.Reaches (mapStep ledger) InTime
        (initial Sample.users Sample.rules 0) as s → s.pool = [] →
      env.stgTime > s.clock + flushPeriod → s.mapStep ledger (.flushAndRemove env) = some s' →
      ∀ t ∈ s.received, ∀ d u, t.owed d = some u → 0 < t.packet.getLen.toNat →
        (s'.counted d u).count t = 1 := by
  intro hall
  obtain ⟨s, s', hrun, hpool, hlate, hflush, hcount, hempty⟩ : ∃ s s', Transition.Reaches
      (mapStep ledger) InTime (initial Sample.users Sample.rules 0)
      (Sample.traffic ++ [.unauthorize (Sample.env 6) "a" 1 "", .runTask (Sample.env 6)]) s ∧
      s.pool = [] ∧ (Sample.env 100).stgTime > s.clock + flushPeriod ∧
      s.mapStep ledger (.flushAndRemove (Sample.env 100)) = some s' ∧
      0 < (s.received.countP fun t => t.owed .up = some 0 ∧ 0 < t.packet.getLen.toNat) ∧
      s'.counted .up 0 = 0 :=
    ⟨_, _, .cons (by decide +kernel) rfl (.cons (by decide +kernel) rfl
      (.cons (by decide +kernel) rfl (.cons (by decide +kernel) rfl
      (.cons (by decide +kernel) rfl (.cons (by decide +kernel) rfl
      (.cons (by decide +kernel) rfl (.nil _))))))), rfl, by decide +kernel, rfl,
      by decide +kernel, by decide +kernel⟩
  obtain ⟨t, ht, ho, hpos⟩ := Multiset.countP_pos.mp hcount
  have := hall _ s s' (Sample.env 100) hrun hpool hlate hflush t ht .up 0 ho hpos
  simp [hempty] at this

end TraffSystem

end Stargazer
