import Stargazer.Lib.Run
import Stargazer.Traffic.PacketOrder

set_option relaxedAutoImplicit false
set_option autoImplicit false

/-!
# The lengths of one presence of a user

The traffic counter alone, with `AddUser` and `DelUser` performed at the moment an address is
gained or lost.  A *presence* of a user at one end of a flow begins with the step after which the
entry of the flow names the user there and lasts as long as it does.  What the counter passes on
during a presence, and what it still keeps, is what the packets of the flow brought.

Lengths are words of 32 bits; the packets are assumed small enough that no kept length wraps
around.  Sums over a whole presence are natural numbers: they may well exceed a word.

A packet has no result where its flow and those of the map are not in a strict weak order
(`TraffCounterImpl.process?`).

## Main definitions

* `Stargazer.CounterSystem` — the counter, the index of addresses, the clock and the calls made.
* `Stargazer.CounterSystem.userAt`, `Stargazer.CounterSystem.pending` — who is present at one end of
  a flow, and with what length.
* `Stargazer.CounterSystem.Searchable` — the packets that find their place in the map.

## Main results

* `Stargazer.CounterSystem.step_conserves`, `Stargazer.CounterSystem.run_conserves` — one step and a
  whole presence.
* `Stargazer.CounterSystem.flush_expiry_conserves` — where packets find their place nothing is lost, and
  what is forgotten had been passed on.
-/

namespace Stargazer

/-- The counter with the index of addresses. -/
structure CounterSystem where
  /-- The counter. -/
  counter : TraffCounterImpl (BitVec 32)
  /-- The users by address, as `FindByIPIdx` sees them. -/
  ipIndex : IP → Option UserId
  /-- `stgTime` at the last step. -/
  clock : Time
  /-- The lengths that have left the counter. -/
  calls : List (StatCall (BitVec 32))

namespace CounterSystem

/-- The steps. -/
inductive Action
  /-- `process`. -/
  | process (now : Time) (p : RawPacket)
  /-- `FlushAndRemove`. -/
  | flushAndRemove (now : Time)
  /-- A user gains an address, and `AddUser`. -/
  | addUser (id : UserId) (ip : IP)
  /-- An address is lost, and `DelUser`. -/
  | delUser (ip : IP)

/-- One step; `none` if an assertion of `AddUser` fails, or a packet has no place in the map. -/
def step (s : CounterSystem) : Action → Option CounterSystem
  | .process now p =>
    (s.counter.process? now s.ipIndex p.key p.getLen).map fun c => { s with counter := c, clock := now }
  | .flushAndRemove now =>
    let r := s.counter.flushAndRemove now
    some { s with counter := r.1, clock := now, calls := s.calls ++ r.2 }
  | .addUser id ip =>
    (s.counter.addUser id ip).map fun c =>
      { s with counter := c, ipIndex := Function.update s.ipIndex ip (some id) }
  | .delUser ip =>
    let r := s.counter.delUser ip
    some { s with
      counter := r.1
      ipIndex := Function.update s.ipIndex ip none
      calls := s.calls ++ r.2 }

/-- The calls of one step. -/
def newCalls (s : CounterSystem) : Action → List (StatCall (BitVec 32))
  | .flushAndRemove now => (s.counter.flushAndRemove now).2
  | .delUser ip => (s.counter.delUser ip).2
  | _ => []

/-- The user at one end of a flow. -/
def userAt (s : CounterSystem) (k : FlowKey) (d : Side) : Option UserId :=
  (s.counter.held k d).map Held.user

/-- The length kept for the user at one end of a flow. -/
def pending (s : CounterSystem) (k : FlowKey) (d : Side) : ℕ :=
  ((s.counter.held k d).map fun h => h.len.toNat).getD 0

/-- What a step brings for a flow: the length of its packet. -/
def added (k : FlowKey) : Action → ℕ
  | .process _ p => if p.key = k then p.getLen.toNat else 0
  | _ => 0

/-- What is assumed of a step: the clock does not go back, a packet makes no length that is kept for
a user wrap around, and a user gains an address only if nobody has it. -/
def Guard (s : CounterSystem) : Action → Prop
  | .process now p => s.clock ≤ now ∧ ∀ d, s.pending p.key d + p.getLen.toNat < 2 ^ 32
  | .flushAndRemove now => s.clock ≤ now
  | .addUser _ ip => s.ipIndex ip = none
  | .delUser _ => True

instance (s : CounterSystem) : (a : Action) → Decidable (s.Guard a)
  | .process _ _ => inferInstanceAs (Decidable (_ ∧ _))
  | .flushAndRemove _ => inferInstanceAs (Decidable (_ ≤ _))
  | .addUser _ _ => inferInstanceAs (Decidable (_ = _))
  | .delUser _ => inferInstanceAs (Decidable True)

/-- A packet finds its place in the map: the flows there and its own are ordered. -/
def Searchable (s : CounterSystem) : Action → Prop
  | .process _ p => FlowKey.Sortable (p.key :: s.counter.packets.keys)
  | _ => True

instance (s : CounterSystem) : (a : Action) → Decidable (s.Searchable a)
  | .process _ _ => inferInstanceAs (Decidable (FlowKey.Sortable _))
  | .flushAndRemove _ => isTrue trivial
  | .addUser _ _ => isTrue trivial
  | .delUser _ => isTrue trivial

/-- What is assumed of a step, and the condition on packets. -/
def Orderly (s : CounterSystem) (a : Action) : Prop := s.Guard a ∧ s.Searchable a

instance (s : CounterSystem) (a : Action) : Decidable (s.Orderly a) := inferInstanceAs (Decidable (_ ∧ _))

/-- The counter after start. -/
def initial (rules : List Rule) (ipIndex : IP → Option UserId) (clock : Time) : CounterSystem where
  counter := ⟨rules, ∅, []⟩
  ipIndex := ipIndex
  clock := clock
  calls := []

/-- The invariant: entries are found by address and by flow, times are in order, and an entry names
exactly the users that have its addresses. -/
structure Inv (s : CounterSystem) : Prop where
  /-- The flows of the map are ordered. -/
  sortable : FlowKey.Sortable s.counter.packets.keys
  /-- Entries are found by address. -/
  complete : s.counter.Complete
  /-- Times are in order. -/
  timely : s.counter.Timely s.clock
  /-- An entry names the users that have its addresses. -/
  userAt_eq : ∀ k, k ∈ s.counter.packets → ∀ d, s.userAt k d = s.ipIndex (k.ip d)

theorem inv_initial (rules : List Rule) (ipIndex : IP → Option UserId) (clock : Time) :
    (initial rules ipIndex clock).Inv :=
  ⟨fun _ ha => absurd ha List.not_mem_nil, fun _ hk => absurd hk (AList.notMem_empty _),
    fun _ _ hl => by simp [initial] at hl, fun _ hk => absurd hk (AList.notMem_empty _)⟩

/-! ## One step -/

section Step

variable {s s' : CounterSystem} {a : Action}

/-- **A packet** finds its place and is counted. -/
theorem step_process_eq_some_iff {now : Time} {p : RawPacket} :
    s.step (.process now p) = some s' ↔ FlowKey.Sortable (p.key :: s.counter.packets.keys) ∧
      { s with counter := s.counter.process now s.ipIndex p.key p.getLen, clock := now } = s' := by
  simp only [step, Option.map_eq_some_iff, TraffCounterImpl.process?_eq_some_iff, and_assoc,
    exists_and_left, exists_eq_left']

theorem step_calls (h : s.step a = some s') : s'.calls = s.calls ++ s.newCalls a := by
  cases a with
  | process now p =>
    obtain ⟨-, rfl⟩ := step_process_eq_some_iff.mp h
    simp [newCalls]
  | flushAndRemove now => simp only [step, Option.some.injEq] at h; subst h; rfl
  | addUser id ip =>
    obtain ⟨c, -, rfl⟩ := Option.map_eq_some_iff.mp h
    simp [newCalls]
  | delUser ip => simp only [step, Option.some.injEq] at h; subst h; rfl

/-- A packet starts an entry with the users that have its addresses, or leaves the users of the
entry alone. -/
theorem userAt_process (hu : ∀ k, k ∈ s.counter.packets → ∀ d, s.userAt k d = s.ipIndex (k.ip d))
    (now : Time) (p : RawPacket) {k : FlowKey}
    (hk : k ∈ (s.counter.process now s.ipIndex p.key p.getLen).packets) (d : Side) :
    ((s.counter.process now s.ipIndex p.key p.getLen).held k d).map Held.user =
      s.ipIndex (k.ip d) := by
  by_cases hkk : k = p.key
  · subst hkk
    rw [TraffCounterImpl.held_process]
    cases hl : s.counter.packets.lookup p.key with
    | none => simp [Function.comp_def]
    | some e =>
      have := hu p.key (by rw [← AList.lookup_isSome, hl]; rfl) d
      simpa [userAt, TraffCounterImpl.held, hl, Function.comp_def] using this
  · rw [← AList.lookup_isSome, TraffCounterImpl.lookup_process_of_ne _ _ _ _ _ hkk,
      AList.lookup_isSome] at hk
    rw [TraffCounterImpl.held_process_of_ne _ _ _ _ _ hkk]
    exact hu k hk d

/-- A flush leaves the users of the entries it keeps alone. -/
theorem userAt_flushAndRemove
    (hu : ∀ k, k ∈ s.counter.packets → ∀ d, s.userAt k d = s.ipIndex (k.ip d)) (now : Time)
    {k : FlowKey} (hk : k ∈ (s.counter.flushAndRemove now).1.packets) (d : Side) :
    ((s.counter.flushAndRemove now).1.held k d).map Held.user = s.ipIndex (k.ip d) := by
  obtain ⟨e', he'⟩ := Option.isSome_iff_exists.mp (AList.lookup_isSome.mpr hk)
  rw [TraffCounterImpl.held_eq_of_lookup he']
  rw [TraffCounterImpl.lookup_flushAndRemove, Option.filter_eq_some_iff,
    Option.map_eq_some_iff] at he'
  obtain ⟨⟨e, he, rfl⟩, -⟩ := he'
  have := hu k (by rw [← AList.lookup_isSome, he]; rfl) d
  rw [userAt, TraffCounterImpl.held_eq_of_lookup he] at this
  rw [← this, PacketExtraData.held_flush, Option.map_map]
  congr 1
  funext h
  simp only [Function.comp_apply]
  split_ifs <;> rfl

/-- **The invariant is kept by every step.** -/
theorem inv_step (hI : s.Inv) (hg : s.Guard a) (h : s.step a = some s') : s'.Inv := by
  obtain ⟨hsort, hc, ht, hu⟩ := hI
  cases a with
  | process now p =>
    obtain ⟨hplace, rfl⟩ := step_process_eq_some_iff.mp h
    exact ⟨hplace.mono (TraffCounterImpl.keys_process _ _ _ _), hc.process _ _ _ _,
      ht.process hg.1 _ _ _, fun k hk d => userAt_process hu now p hk d⟩
  | flushAndRemove now =>
    simp only [step, Option.some.injEq] at h
    subst h
    exact ⟨hsort.mono (TraffCounterImpl.keys_flushAndRemove _ _),
      TraffCounterImpl.complete_flushAndRemove _ _, ht.flushAndRemove hg,
      fun k hk d => userAt_flushAndRemove hu now hk d⟩
  | addUser id ip =>
    obtain ⟨c, hadd, rfl⟩ := Option.map_eq_some_iff.mp h
    refine ⟨hsort.mono (TraffCounterImpl.keys_addUser hc hadd), hc.addUser hadd, ht.addUser hc hadd,
      fun k hk d => ?_⟩
    rw [← AList.lookup_isSome, TraffCounterImpl.lookup_addUser hc hadd, Option.isSome_map] at hk
    simp only [userAt, TraffCounterImpl.held_addUser hc hadd]
    by_cases hip : k.ip d = ip
    · obtain ⟨e, he⟩ := Option.isSome_iff_exists.mp hk
      simp [hip, he]
    · rw [if_neg hip, Function.update_of_ne hip]
      exact hu k (AList.lookup_isSome.mp hk) d
  | delUser ip =>
    simp only [step, Option.some.injEq] at h
    subst h
    refine ⟨hsort.mono (TraffCounterImpl.keys_delUser hc), hc.delUser, ht.delUser hc,
      fun k hk d => ?_⟩
    rw [← AList.lookup_isSome, TraffCounterImpl.lookup_delUser hc, Option.isSome_map] at hk
    simp only [userAt, TraffCounterImpl.held_delUser hc]
    by_cases hip : k.ip d = ip
    · simp [hip]
    · rw [if_neg hip, Function.update_of_ne hip]
      exact hu k (AList.lookup_isSome.mp hk) d

/-- A user that gains an address finds nobody present there. -/
theorem held_eq_none_of_free (hI : s.Inv) {ip : IP} (hfree : s.ipIndex ip = none) {k : FlowKey}
    {d : Side} (hip : k.ip d = ip) : s.counter.held k d = none := by
  cases hl : s.counter.packets.lookup k with
  | none => simp [TraffCounterImpl.held, hl]
  | some e =>
    have hu := hI.userAt_eq k (by rw [← AList.lookup_isSome, hl]; rfl) d
    rw [hip, hfree, userAt] at hu
    simpa using hu

/-- **When a step has a result**: the assertions of `AddUser` hold, and only a packet may find no
place. -/
theorem step_isSome_iff (hI : s.Inv) (hg : s.Guard a) : (s.step a).isSome = true ↔ s.Searchable a := by
  cases a with
  | process now p =>
    rw [Option.isSome_iff_exists]
    simp only [step_process_eq_some_iff, exists_and_left, exists_eq', and_true]
    rfl
  | flushAndRemove now => exact iff_of_true rfl trivial
  | addUser id ip =>
    refine iff_of_true ?_ trivial
    rw [step, Option.isSome_map, TraffCounterImpl.addUser_isSome_iff hI.complete]
    intro k d h hip hh
    rw [held_eq_none_of_free hI hg hip] at hh
    cases hh
  | delUser ip => exact iff_of_true rfl trivial

/-- **One step of a presence**: what leaves the counter and what it keeps afterwards is what it kept
before and what the packet brought; what leaves goes to the user that was present.

**Proof sketch.** A packet of the flow adds its length to what is kept, or is all of it in a new
entry.  A flush and `DelUser` pass on what is kept and keep nothing; an entry is forgotten only with
nothing kept (`TraffCounterImpl.flushAndRemove_cases`).  `AddUser` finds nobody present. -/
theorem step_conserves (hI : s.Inv) (hg : s.Guard a) (h : s.step a = some s') (k : FlowKey)
    (d : Side) (hp : s.userAt k d ≠ none ∨ s'.userAt k d ≠ none) :
    (∀ c ∈ callsAt k d (s.newCalls a), s.userAt k d = some c.user) ∧
    ((callsAt k d (s.newCalls a)).map fun c => c.len.toNat).sum + s'.pending k d =
      s.pending k d + added k a := by
  cases a with
  | process now p =>
    obtain ⟨-, rfl⟩ := step_process_eq_some_iff.mp h
    refine ⟨by simp [newCalls], ?_⟩
    simp only [newCalls, callsAt_nil, List.map_nil, List.sum_nil, zero_add, added]
    by_cases hkk : p.key = k
    · subst hkk
      have hlt := hg.2 d
      simp only [userAt, pending, TraffCounterImpl.held_process, if_true] at hp hlt ⊢
      cases hl : s.counter.packets.lookup p.key with
      | none =>
        cases hi : s.ipIndex (p.key.ip d) with
        | none => simp [TraffCounterImpl.held, hl, hi] at hp
        | some u => simp [TraffCounterImpl.held, hl]
      | some e =>
        simp only [TraffCounterImpl.held_eq_of_lookup hl] at hp hlt ⊢
        simp only [hl] at hp
        cases hh : e.held d with
        | none => simp [hh] at hp
        | some h =>
          simp only [hh, Option.map_some, Option.getD_some] at hlt ⊢
          rw [BitVec.toNat_add, Nat.mod_eq_of_lt hlt]
    · rw [if_neg hkk, add_zero]
      simp only [pending, TraffCounterImpl.held_process_of_ne _ _ _ _ _ (Ne.symm hkk)]
  | flushAndRemove now =>
    simp only [step, Option.some.injEq] at h
    subst h
    simp only [newCalls, userAt, pending, added, add_zero] at hp ⊢
    cases hh : s.counter.held k d with
    | none =>
      obtain ⟨-, hnone⟩ := TraffCounterImpl.flushAndRemove_of_held_eq_none hh now
      simp [hh, hnone] at hp
    | some h =>
      rcases TraffCounterImpl.flushAndRemove_cases hh now with
        ⟨hcalls, hafter⟩ | ⟨hcalls, hafter | hafter⟩ | ⟨hcalls, hafter, hzero⟩
      · simp [hcalls, hafter]
      · simp [hcalls, hafter, Held.call]
      · simp [hcalls, hafter, Held.call]
      · simp [hcalls, hafter, hzero s.clock hI.timely]
  | addUser id ip =>
    obtain ⟨c, hadd, rfl⟩ := Option.map_eq_some_iff.mp h
    refine ⟨by simp [newCalls], ?_⟩
    simp only [newCalls, callsAt_nil, List.map_nil, List.sum_nil, zero_add, added, add_zero,
      pending, TraffCounterImpl.held_addUser hI.complete hadd]
    by_cases hip : k.ip d = ip
    · rw [held_eq_none_of_free hI hg hip, if_pos hip]
      cases s.counter.packets.lookup k <;> simp
    · rw [if_neg hip]
  | delUser ip =>
    simp only [step, Option.some.injEq] at h
    subst h
    simp only [newCalls, userAt, pending, added, add_zero,
      TraffCounterImpl.callsAt_delUser hI.complete, TraffCounterImpl.held_delUser hI.complete]
    by_cases hip : k.ip d = ip
    · cases hh : s.counter.held k d <;> simp [hip, Held.call]
    · simp [hip]

end Step

/-! ## A whole presence -/

/-- The steps while the user `u` is present at one end of a flow. -/
def Present (k : FlowKey) (d : Side) (u : UserId) (s : CounterSystem) (a : Action) : Prop :=
  s.Orderly a ∧ s.userAt k d = some u

/-- **A run while a user is present**, up to the state in which it is not any more.

**Proof sketch.** Induction on the run, with `step_conserves` for each step. -/
theorem run_conserves {k : FlowKey} {d : Side} {u : UserId} {s t : CounterSystem}
    {as : List Action} (h : Transition.Reaches step (Present k d u) s as t) (hI : s.Inv) :
    ∃ new, t.calls = s.calls ++ new ∧ (∀ c ∈ callsAt k d new, c.user = u) ∧
      ((callsAt k d new).map fun c => c.len.toNat).sum + t.pending k d =
        s.pending k d + (as.map (added k)).sum := by
  induction h with
  | nil s => exact ⟨[], by simp⟩
  | @cons s s' t a as hg hs _ ih =>
    obtain ⟨new, hcalls, huser, hsum⟩ := ih (inv_step hI hg.1.1 hs)
    obtain ⟨huser', hsum'⟩ := step_conserves hI hg.1.1 hs k d (.inl (by simp [hg.2]))
    refine ⟨s.newCalls a ++ new, by rw [hcalls, step_calls hs, List.append_assoc], ?_, ?_⟩
    · intro c hc
      rw [callsAt_append, List.mem_append] at hc
      rcases hc with hc | hc
      · exact (Option.some.inj (hg.2.symm.trans (huser' c hc))).symm
      · exact huser c hc
    · simp only [callsAt_append, List.map_append, List.sum_append, List.map_cons, List.sum_cons]
      omega

/-- An entry that `FlushAndRemove` forgets keeps no length for a user. -/
theorem forgotten_empty {s : CounterSystem} (hI : s.Inv) {now : Time} {k : FlowKey}
    {e : PacketExtraData (BitVec 32)} (hl : s.counter.packets.lookup k = some e)
    (hgone : (s.counter.flushAndRemove now).1.packets.lookup k = none) {d : Side} {u : UserId}
    (hu : (e.side d).user = some u) : ((e.flush now).side d).len = 0 := by
  have hh : s.counter.held k d = some ⟨u, (e.side d).dir, (e.side d).len⟩ := by
    rw [TraffCounterImpl.held_eq_of_lookup hl, PacketExtraData.held, hu]
    rfl
  by_cases hdue : e.flushDue now = true
  · simp [PacketExtraData.flush, hdue, hu]
  · have hcalls : callsAt k d (s.counter.flushAndRemove now).2 = [] := by
      simp [TraffCounterImpl.callsAt_flushAndRemove, hl, hdue]
    have hnone : (s.counter.flushAndRemove now).1.held k d = none := by
      simp [TraffCounterImpl.held, hgone]
    rcases TraffCounterImpl.flushAndRemove_cases hh now with
      ⟨-, hafter⟩ | ⟨hc, -⟩ | ⟨-, -, hzero⟩
    · rw [hnone] at hafter
      cases hafter
    · rw [hcalls] at hc
      cases hc
    · simpa [PacketExtraData.flush, hdue] using hzero s.clock hI.timely

/-- **Conservation inside the counter.** In every run of the counter in which packets find their place
in the map: from the step `a` that makes the user `u` present at one end of a flow, as long as it is
present, and up to the step that ends this, the lengths that left the counter for this end, all of them
for `u`, and the length still kept are together the lengths of the packets of the flow.  An entry that
is forgotten because no packet came keeps no length for a user.  And every step has a result, but for
packets that find no place. -/
theorem flush_expiry_conserves (rules : List Rule) (ipIndex : IP → Option UserId) (clock : Time) :
    (∀ (bs as : List Action) (a : Action) (s₀ s₁ t : CounterSystem) (k : FlowKey) (d : Side)
        (u : UserId),
      Transition.Reaches step Orderly (initial rules ipIndex clock) bs s₀ →
      s₀.userAt k d = none → s₀.Orderly a → s₀.step a = some s₁ → s₁.userAt k d = some u →
      Transition.Reaches step (Present k d u) s₁ as t →
      ∃ new, t.calls = s₀.calls ++ new ∧ (∀ c ∈ callsAt k d new, c.user = u) ∧
        ((callsAt k d new).map fun c => c.len.toNat).sum + t.pending k d =
          ((a :: as).map (added k)).sum) ∧
    (∀ (bs : List Action) (s : CounterSystem) (now : Time) (k : FlowKey)
        (e : PacketExtraData (BitVec 32)),
      Transition.Reaches step Orderly (initial rules ipIndex clock) bs s → s.clock ≤ now →
      s.counter.packets.lookup k = some e →
      (s.counter.flushAndRemove now).1.packets.lookup k = none →
      ∀ d, (e.side d).user ≠ none → ((e.flush now).side d).len = 0) ∧
    (∀ (bs : List Action) (s : CounterSystem) (a : Action),
      Transition.Reaches step Orderly (initial rules ipIndex clock) bs s → s.Guard a →
      ((s.step a).isSome = true ↔ s.Searchable a)) := by
  have hinv : ∀ bs s, Transition.Reaches step Orderly (initial rules ipIndex clock) bs s → s.Inv :=
    fun bs s h => h.invariant (fun _ _ _ hI hg => inv_step hI hg.1) (inv_initial rules ipIndex clock)
  refine ⟨?_, ?_, fun bs s a h hg => step_isSome_iff (hinv bs s h) hg⟩
  · intro bs as a s₀ s₁ t k d u h₀ hnone hg hs hu hrun
    have hI := hinv bs s₀ h₀
    obtain ⟨huser, hsum⟩ := step_conserves hI hg.1 hs k d (.inr (by simp [hu]))
    obtain ⟨new, hcalls, huser', hsum'⟩ := run_conserves hrun (inv_step hI hg.1 hs)
    -- nobody was present before, so that the first step passes nothing on
    have hfirst : callsAt k d (s₀.newCalls a) = [] := by
      rw [List.eq_nil_iff_forall_not_mem]
      intro c hc
      have := huser c hc
      rw [hnone] at this
      cases this
    have hzero : s₀.pending k d = 0 := by
      rw [userAt, Option.map_eq_none_iff] at hnone
      simp [pending, hnone]
    refine ⟨s₀.newCalls a ++ new, by rw [hcalls, step_calls hs, List.append_assoc], ?_, ?_⟩
    · simpa [hfirst] using huser'
    · rw [hfirst] at hsum
      simp only [callsAt_append, hfirst, List.nil_append, List.map_cons, List.sum_cons,
        List.map_nil, List.sum_nil] at hsum ⊢
      omega
  · intro bs s now k e h _ hl hgone d hu
    obtain ⟨u, hu⟩ := Option.ne_none_iff_exists'.mp hu
    exact forgotten_empty (hinv bs s h) hl hgone hu

end CounterSystem

namespace Sample

/-- A packet from the address `7` to the address `8`. -/
def packet (len : BitVec 32) : RawPacket where
  srcIP := 7
  dstIP := 8
  proto := 6
  ipLen := 0
  sPort := 1
  dPort := 2
  dataLen := len

/-- A packet of another protocol, with its first port. -/
def other (proto : BitVec 8) (port : BitVec 16) : RawPacket :=
  { packet 100 with proto := proto, sPort := port, dPort := 0 }

/-- All traffic is counted in the direction `0`. -/
def rules : List Rule := [⟨0, 0, 0, 65535, .all, 0⟩]

end Sample

namespace CounterSystem

/-- A user gains an address, sends three packets and loses the address, with a flush in between; all of
it is counted, in the direction `0`.  And the entry of a packet is forgotten when nothing follows it. -/
theorem flush_expiry_conserves_sample :
    (∃ t new, Transition.Runs step (initial Sample.rules (fun _ => none) 0)
      [.addUser 3 7, .process 0 (Sample.packet 100), .process 5 (Sample.packet 50),
        .flushAndRemove 20, .process 21 (Sample.packet 30), .delUser 7] t ∧
      t.calls = new ∧ (∀ c ∈ new, c.user = 3 ∧ c.dir = 0) ∧
      ((callsAt (Sample.packet 0).key .up new).map fun c => c.len.toNat).sum = 180) ∧
    (∃ s e, Transition.Runs step (initial Sample.rules (fun _ => none) 0)
      [.addUser 3 7, .process 0 (Sample.packet 100)] s ∧
      s.counter.packets.lookup (Sample.packet 0).key = some e ∧ (e.side .up).len = 100 ∧
      ((e.flush 40).side .up).len = 0) := by
  constructor
  · obtain ⟨new, hcalls, -, hsum⟩ := (flush_expiry_conserves Sample.rules (fun _ => none) 0).1
      [.addUser 3 7]
      [.process 5 (Sample.packet 50), .flushAndRemove 20, .process 21 (Sample.packet 30),
        .delUser 7]
      (.process 0 (Sample.packet 100)) _ _ _ (Sample.packet 0).key .up 3
      (.cons (by decide +kernel) rfl (.nil _)) (by decide +kernel) (by decide +kernel) rfl
      (by decide +kernel)
      (.cons ⟨by decide +kernel, by decide +kernel⟩ rfl
        (.cons ⟨by decide +kernel, by decide +kernel⟩ rfl
        (.cons ⟨by decide +kernel, by decide +kernel⟩ rfl
        (.cons ⟨by decide +kernel, by decide +kernel⟩ rfl (.nil _)))))
    refine ⟨_, new, .cons trivial rfl (.cons trivial rfl (.cons trivial rfl (.cons trivial rfl
      (.cons trivial rfl (.cons trivial rfl (.nil _)))))), hcalls, ?_, ?_⟩
    · have hnew : new = _ := hcalls.symm
      rw [hnew]
      decide +kernel
    · have hsplit : ∀ {n m l : ℕ}, n + m = l → m = 0 → l = 180 → n = 180 := by omega
      exact hsplit hsum (by decide +kernel) (by decide +kernel)
  · exact ⟨_, _, .cons trivial rfl (.cons trivial rfl (.nil _)), rfl, by decide +kernel,
      (flush_expiry_conserves Sample.rules (fun _ => none) 0).2.1
        [.addUser 3 7, .process 0 (Sample.packet 100)] _ 40 (Sample.packet 0).key _
        (.cons (by decide +kernel) rfl (.cons (by decide +kernel) rfl (.nil _)))
        (by decide +kernel) rfl rfl .up (by decide +kernel)⟩

/-- A user sends a UDP, an ICMP and another packet to one address: their flows are compared in a circle,
and what the map does with the third one is not defined. -/
theorem packet_without_place :
    ¬ ∀ (rules : List Rule) (ipIndex : IP → Option UserId) (clock : Time) (bs : List Action)
        (s : CounterSystem) (a : Action),
      Transition.Reaches step Guard (initial rules ipIndex clock) bs s → s.Guard a →
      (s.step a).isSome = true := by
  intro hall
  have hsome := hall Sample.rules (fun _ => none) 0
    [.addUser 3 7, .process 0 (Sample.other 17 1), .process 0 (Sample.other 1 0)] _
    (.process 0 (Sample.other 0 6))
    (.cons (by decide +kernel) rfl (.cons (by decide +kernel) rfl (.cons (by decide +kernel) rfl
      (.nil _)))) (by decide +kernel)
  revert hsome
  decide +kernel

end CounterSystem

end Stargazer
