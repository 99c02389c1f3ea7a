import Stargazer.Traffic.Period
import Stargazer.Traffic.Steps

set_option relaxedAutoImplicit false
set_option autoImplicit false

/-!
# Whose traffic it is

An entry of the traffic counter names the user that had the address of one end of the flow when the
entry was made, and goes on naming it until a task of the queue says otherwise.  A packet that comes
after the address was given to somebody else, and before the task, is added to the length of the
former user; and a task `AddUser` that was queued for another address finds the former user present
and trips over its assertion.

To say which bytes a length is made of, lengths are taken as multisets of tags, one tag for each
packet (`ledger`).  The words behind them are the lengths of the source (`TraffSystem.step_erase`).

## Main definitions

* `Stargazer.Tag`, `Stargazer.ledger` — the packet, who had its addresses, and whose counters it
  belongs to.
* `Stargazer.TraffSystem.Handover` — the steps that hand addresses over in order.
* `Stargazer.TraffSystem.Attributed` — the invariant.

## Main results

* `Stargazer.TraffSystem.no_misattribution` — with addresses handed over in order, no user is given
  the bytes of another, and the assertions of `AddUser` hold.
-/

namespace Stargazer

/-! ## Tags -/

/-- A packet in a length. -/
structure Tag where
  /-- The number of packets before it. -/
  seq : ℕ
  /-- The packet. -/
  packet : RawPacket
  /-- The users that had its addresses when it was processed. -/
  holder : Side → Option UserId
  /-- The users whose traffic it is: they had the addresses, were connected, and the direction is
  counted. -/
  owed : Side → Option UserId
  deriving DecidableEq

/-- The tag of a packet. -/
def Tag.stamp (users : UsersImpl) (rules : List Rule) (n : ℕ) (p : RawPacket) : Tag where
  seq := n
  packet := p
  holder := fun d => users.ipIndex (p.key.ip d)
  owed := fun d => (users.ipIndex (p.key.ip d)).filter fun u =>
    (users.users u).connected && decide (determinateDir rules p.key d < dirNum)

/-- Lengths that know the packets they are made of. -/
def ledger : Meter (Multiset Tag) where
  word := Multiset.sumAddMonoidHom.comp (Multiset.mapAddMonoidHom fun t => t.packet.getLen)
  stamp := fun users rules n p => {Tag.stamp users rules n p}
  word_stamp := fun _ _ _ _ => by simp [Tag.stamp]

theorem Tag.stamp_owed {users : UsersImpl} {rules : List Rule} {n : ℕ} {p : RawPacket} {d : Side}
    {u : UserId} : (Tag.stamp users rules n p).owed d = some u ↔
      users.ipIndex (p.key.ip d) = some u ∧ (users.users u).connected = true ∧
        determinateDir rules p.key d < dirNum := by
  simp [stamp, Option.filter_eq_some_iff]

namespace TraffSystem

/-! ## Handing addresses over in order -/

section Handover

variable {L : Type} [AddCommMonoid L]

/-- The next task may run: an `AddUser` of a user that has no address any more finds nobody else
named at the address `0`. -/
def TaskInOrder (s : TraffSystem L) : List Task → Prop
  | .addUser id :: _ => (s.users.users id).currIP = 0 →
      s.counter.AllHeld fun k d h => k.ip d = 0 → h.user = id
  | _ => True

instance (s : TraffSystem L) : (pool : List Task) → Decidable (s.TaskInOrder pool)
  | [] => isTrue trivial
  | .delUser _ :: _ => isTrue trivial
  | .addUser _ :: _ => inferInstanceAs (Decidable (_ → _))

/-- The steps that hand addresses over in order: an address is given to a user only when no entry of
the counter names another user at it, and the next task may run. -/
def Handover (s : TraffSystem L) : Action → Prop
  | .authorize env login ip _ _ => ∀ id ∈ s.users.loginIndex login,
      (s.users.users id).authorizedBy = ∅ → ip ≠ 0 → s.users.ipIndex ip = none →
        (s.users.users id).ips.find env.shifted ip = true →
          s.counter.AllHeld fun k d h => k.ip d = ip → h.user = id
  | .runTask _ => s.TaskInOrder s.pool
  | _ => True

instance (s : TraffSystem L) : (a : Action) → Decidable (s.Handover a)
  | .authorize .. => inferInstanceAs (Decidable (∀ _ ∈ _, _))
  | .runTask _ => inferInstanceAs (Decidable (s.TaskInOrder s.pool))
  | .process .. => isTrue trivial
  | .flushAndRemove _ => isTrue trivial
  | .unauthorize .. => isTrue trivial
  | .runUser .. => isTrue trivial

end Handover

/-- A user found by an address after a step was found by it before, or is just given it. -/
theorem UsersStep.index_cases {u u' : UsersImpl} {a : Action} (h : UsersStep u a u') {ip : IP}
    {v : UserId} (hv : u'.ipIndex ip = some v) :
    u.ipIndex ip = some v ∨ ∃ env login dirs auth, a = .authorize env login ip dirs auth ∧
      u.loginIndex login = some v ∧ UsersImpl.Gains env u u' v ip := by
  cases h with
  | same _ hu => exact .inl (hu.ipIndex ▸ hv)
  | gain env login ip' dirs auth id _ ha hl hg =>
    rw [hg.ipIndex] at hv
    by_cases hip : ip = ip'
    · subst hip
      rw [Function.update_self] at hv
      obtain rfl := Option.some.inj hv
      exact .inr ⟨env, login, dirs, auth, ha, hl, hg⟩
    · rw [Function.update_of_ne hip] at hv
      exact .inl hv
  | lose _ _ _ _ id ip' _ _ _ _ hg =>
    rw [hg.ipIndex] at hv
    by_cases hip : ip = ip'
    · subst hip
      rw [Function.update_self] at hv
      cases hv
    · rw [Function.update_of_ne hip] at hv
      exact .inl hv
  | run env id ha => exact .inl hv

/-- The address of a user is in the index under this user or not at all. -/
theorem eq_of_index_currIP {u : UsersImpl} (hs : u.Consistent) (hi : u.Indexed) {id v : UserId}
    (hv : u.ipIndex (u.users id).currIP = some v) : v = id := by
  obtain ⟨hauth, hcurr⟩ := (hi.index_iff _ _).mp hv
  have hne : (u.users id).currIP ≠ 0 := fun hz =>
    hauth ((hs.currIP_eq_zero v).mp (hcurr.trans hz))
  have hid : u.ipIndex (u.users id).currIP = some id :=
    (hi.index_iff _ _).mpr ⟨fun he => hne ((hs.currIP_eq_zero id).mpr he), rfl⟩
  exact Option.some.inj (hv.symm.trans hid)

/-! ## The invariant -/

/-- Entries name no other user than the one that has the address now, and lengths, kept or passed
on, hold no packets of other users. -/
structure Attributed (s : TraffSystem (Multiset Tag)) : Prop where
  /-- The users are consistent. -/
  consistent : s.users.Consistent
  /-- The index of addresses is right. -/
  indexed : s.users.Indexed
  /-- Entries are found by address. -/
  complete : s.counter.Complete
  /-- The directions are those of the rules. -/
  directed : s.counter.Directed
  /-- No entry names another user than the one that has the address now. -/
  current : ∀ k d h v, s.counter.held k d = some h → s.users.ipIndex (k.ip d) = some v → h.user = v
  /-- A kept length holds no packet of another user. -/
  kept : ∀ k d h t v, s.counter.held k d = some h → t ∈ h.len → t.holder d = some v → h.user = v
  /-- A length that was passed on holds no packet of another user. -/
  passed : ∀ c ∈ s.calls, ∀ t v, t ∈ c.1.len → t.holder c.1.side = some v → c.1.user = v

theorem attributed_initial {users : UsersImpl} (hu : users.Initial) (rules : List Rule)
    (clock : Time) : (initial users rules clock).Attributed where
  consistent := hu.consistent
  indexed := hu.indexed
  complete _ hk := absurd hk (AList.notMem_empty _)
  directed _ _ hl := by simp [initial] at hl
  current _ _ _ _ hh := by simp [initial, TraffCounterImpl.held] at hh
  kept _ _ _ _ _ hh := by simp [initial, TraffCounterImpl.held] at hh
  passed _ hc := by simp [initial] at hc

section Step

variable {s s' : TraffSystem (Multiset Tag)} {a : Action}

/-- The first part of the invariant: after a step that hands addresses over in order, an entry names
no other user than the one that has the address. -/
theorem current_step (hI : s.Attributed) (hg : s.Handover a) (hu : UsersStep s.users a s'.users)
    {k : FlowKey} {d : Side} {cs : List (StatCall (Multiset Tag))} {h : Held (Multiset Tag)}
    {v : UserId}
    (hside : SideStep ledger s a k d (s.counter.held k d) (s'.counter.held k d) cs)
    (hh : s'.counter.held k d = some h) (hv : s'.users.ipIndex (k.ip d) = some v) :
    h.user = v := by
  -- an entry that names `h.user` before and after the step
  have hnamed : ∀ x, s.counter.held k d = some x → x.user = v := by
    intro x hx
    rcases hu.index_cases hv with hv | ⟨env, login, dirs, auth, rfl, hl, hgain⟩
    · exact hI.current k d x v hx hv
    · exact TraffCounterImpl.allHeld_iff.mp
        (hg v hl hgain.before hgain.ip_ne_zero hgain.free hgain.allowed) k d x hx rfl
  -- the step gives no address away
  have hsame : (∀ env login ip dirs auth, a ≠ .authorize env login ip dirs auth) →
      s.users.ipIndex (k.ip d) = some v := by
    intro hne
    rcases hu.index_cases hv with hv | ⟨env, login, dirs, auth, ha, -⟩
    · exact hv
    · exact absurd ha (hne _ _ _ _ _)
  rw [hh] at hside
  generalize ho : s.counter.held k d = o at hside
  cases hside with
  | keep => exact hnamed h ho
  | grow p x => exact hnamed x ho
  | appear p u hp hk hi =>
    have := hsame (by rintro _ _ _ _ _ rfl; cases hp)
    rw [hi] at this
    exact Option.some.inj this
  | pass x _ hp hafter =>
    rcases hafter with hafter | hafter
    · cases hafter
    · obtain rfl := Option.some.inj hafter
      exact hnamed x ho
  | assign env id pool _ ha hpool hip =>
    have := hsame (by rintro _ _ _ _ _ rfl; cases ha)
    rw [hip] at this
    exact (eq_of_index_currIP hI.consistent hI.indexed this).symm

/-- The second part: a kept length holds no packet of another user. -/
theorem kept_step (hI : s.Attributed) {k : FlowKey} {d : Side}
    {cs : List (StatCall (Multiset Tag))} {h : Held (Multiset Tag)} {t : Tag} {v : UserId}
    (hside : SideStep ledger s a k d (s.counter.held k d) (s'.counter.held k d) cs)
    (hh : s'.counter.held k d = some h) (ht : t ∈ h.len) (hv : t.holder d = some v) :
    h.user = v := by
  rw [hh] at hside
  generalize ho : s.counter.held k d = o at hside
  cases hside with
  | keep => exact hI.kept k d h t v ho ht hv
  | grow p x hp hk =>
    rcases Multiset.mem_add.mp ht with ht | ht
    · exact hI.kept k d x t v ho ht hv
    · obtain rfl := Multiset.mem_singleton.mp ht
      subst hk
      exact hI.current _ d x v ho hv
  | appear p u hp hk hi =>
    obtain rfl := Multiset.mem_singleton.mp ht
    subst hk
    exact Option.some.inj (hi.symm.trans hv)
  | pass x _ hp hafter =>
    rcases hafter with hafter | hafter
    · cases hafter
    · obtain rfl := Option.some.inj hafter
      simp at ht
  | assign => simp at ht

/-- The calls of a step are made for the users named before it. -/
theorem SideStep.mem_calls {L : Type} [AddCommMonoid L] {M : Meter L} {s : TraffSystem L}
    {a : Action} {k : FlowKey} {d : Side} {o o' : Option (Held L)} {cs : List (StatCall L)}
    (h : SideStep M s a k d o o' cs) {c : StatCall L} (hc : c ∈ cs) :
    ∃ x, o = some x ∧ c = x.call k d := by
  cases h with
  | pass x => exact ⟨x, rfl, List.mem_singleton.mp hc⟩
  | keep => simp at hc
  | miss => simp at hc
  | grow => simp at hc
  | appear => simp at hc
  | expire => simp at hc
  | assign => simp at hc

/-- A length on the record after a step was there before, or the step passed on what was kept. -/
theorem mem_calls_cases {L : Type} [AddCommMonoid L] {M : Meter L} {s s' : TraffSystem L}
    {a : Action} {new : List (StatCall L)}
    (hcalls : s'.calls = s.calls ++ new.map fun c => (c, s.accepts c))
    (hside : ∀ k d, SideStep M s a k d (s.counter.held k d) (s'.counter.held k d)
      (callsAt k d new)) {c : StatCall L × Bool} (hc : c ∈ s'.calls) :
    c ∈ s.calls ∨
      ∃ k d x, s.counter.held k d = some x ∧ c = (x.call k d, s.accepts (x.call k d)) := by
  rw [hcalls, List.mem_append] at hc
  rcases hc with hc | hc
  · exact .inl hc
  · obtain ⟨c, hnew, rfl⟩ := List.mem_map.mp hc
    have hat : c ∈ callsAt c.key c.side new := by simp [callsAt, hnew]
    obtain ⟨x, hx, hxc⟩ := (hside c.key c.side).mem_calls hat
    exact .inr ⟨c.key, c.side, x, hx, by rw [← hxc]⟩

/-- **The invariant is kept by every step that hands addresses over in order.** -/
theorem attributed_step (hI : s.Attributed) (hg : s.Handover a)
    (h : s.step ledger a = some s') : s'.Attributed := by
  have hu := step_users hI.consistent hI.indexed h
  obtain ⟨new, hcalls, hside⟩ := step_sides hI.complete hI.directed h
  obtain ⟨-, hcomplete, hdirected⟩ := step_counter hI.complete hI.directed h
  obtain ⟨hconsistent, hindexed⟩ := hu.invariant hI.consistent hI.indexed
  refine ⟨hconsistent, hindexed, hcomplete, hdirected, ?_, ?_, ?_⟩
  · exact fun k d x v hx hv => current_step hI hg hu (hside k d) hx hv
  · exact fun k d x t v hx ht hv => kept_step hI (hside k d) hx ht hv
  · intro c hc t v ht hv
    rcases mem_calls_cases hcalls hside hc with hc | ⟨k, d, x, hx, rfl⟩
    · exact hI.passed c hc t v ht hv
    · exact hI.kept k d x t v hx ht hv

/-- The assertions of `AddUser` hold. -/
theorem step_runTask_isSome (hI : s.Attributed) (env : Env) (hg : s.Handover (.runTask env)) :
    (s.step ledger (.runTask env)).isSome := by
  simp only [step]
  split
  · rfl
  · next id pool hp =>
    rw [Option.isSome_map, TraffCounterImpl.addUser_isSome_iff hI.complete]
    intro k d x hip hx
    simp only [Handover, hp, TaskInOrder] at hg
    by_cases hz : (s.users.users id).currIP = 0
    · exact TraffCounterImpl.allHeld_iff.mp (hg hz) k d x hx (hip.trans hz)
    · have hauth : (s.users.users id).authorizedBy ≠ ∅ := fun he =>
        hz ((hI.consistent.currIP_eq_zero id).mpr he)
      exact hI.current k d x id hx ((hI.indexed.index_iff _ _).mpr ⟨hauth, hip.symm⟩)
  · rfl

end Step

/-- **No misattribution.** Start with nobody authorized and perform any steps that hand addresses
over in order.  No length that was ever passed on to a user holds a packet that was processed while
another user had the address, and the assertions of `AddUser` hold in the task that comes next.

**Proof sketch.** The invariant rule with `attributed_step`. -/
theorem no_misattribution (users : UsersImpl) (hu : users.Initial) (rules : List Rule)
    (clock : Time) (as : List Action) (s : TraffSystem (Multiset Tag))
    (h : Transition.Reaches (step ledger) Handover (initial users rules clock) as s) :
    (∀ c ∈ s.calls, ∀ t ∈ c.1.len, ∀ v, t.holder c.1.side = some v → c.1.user = v) ∧
    ∀ env, s.Handover (.runTask env) → (s.step ledger (.runTask env)).isSome := by
  have hI : s.Attributed :=
    h.invariant (fun _ _ _ => attributed_step) (attributed_initial hu rules clock)
  exact ⟨fun c hc t ht v hv => hI.passed c hc t v ht hv, step_runTask_isSome hI⟩

end TraffSystem

namespace Sample

/-- An address is handed over from `a` to `b` after the task that was queued for it, and both send
packets. -/
def handover : List TraffSystem.Action :=
  [.authorize (env 0) "a" 7 0 1, .runTask (env 0), .process (env 0) (packet 100),
    .unauthorize (env 1) "a" 1 "", .runTask (env 1), .authorize (env 2) "b" 7 0 1,
    .runTask (env 2), .process (env 3) (packet 50), .flushAndRemove (env 20)]

end Sample

namespace TraffSystem

/-- Both users are given the bytes of their packets. -/
theorem no_misattribution_sample :
    ∃ s, Transition.Reaches (step ledger) Handover (initial Sample.users Sample.rules 0)
        Sample.handover s ∧ s.calls.length = 2 ∧
      ∀ c ∈ s.calls, ∀ t ∈ c.1.len, ∀ v, t.holder c.1.side = some v → c.1.user = v := by
  obtain ⟨s, hrun, hlen⟩ : ∃ s, Transition.Reaches (step ledger) Handover
      (initial Sample.users Sample.rules 0) Sample.handover s ∧ s.calls.length = 2 :=
    ⟨_, .cons (by decide +kernel) rfl (.cons (by decide +kernel) rfl (.cons trivial rfl
      (.cons trivial rfl (.cons (by decide +kernel) rfl (.cons (by decide +kernel) rfl
      (.cons (by decide +kernel) rfl (.cons trivial rfl (.cons trivial rfl (.nil _))))))))),
      by decide +kernel⟩
  exact ⟨s, hrun, hlen,
    (no_misattribution Sample.users Sample.users_initial Sample.rules 0 _ s hrun).1⟩

/-- Without the order: `b` has the address, but its packet is passed on to `a`; and an `AddUser`
that was queued for one address of `a` runs when `a` has another one, where `b` is still named. -/
theorem handover_fails :
    (¬ ∀ as s, Transition.Runs (step ledger) (initial Sample.users Sample.rules 0) as s →
      ∀ c ∈ s.calls, ∀ t ∈ c.1.len, ∀ v, t.holder c.1.side = some v → c.1.user = v) ∧
    (¬ ∀ as s env, Transition.Runs (step ledger) (initial Sample.users Sample.rules 0) as s →
      (s.step ledger (.runTask env)).isSome) := by
  constructor
  · intro hall
    obtain ⟨s, hrun, c, hc, hu, hcount⟩ : ∃ s, Transition.Runs (step ledger)
        (initial Sample.users Sample.rules 0)
        [.authorize (Sample.env 0) "a" 7 0 1, .runTask (Sample.env 0),
          .process (Sample.env 0) (Sample.packet 100), .unauthorize (Sample.env 1) "a" 1 "",
          .authorize (Sample.env 1) "b" 7 0 1, .process (Sample.env 1) (Sample.packet 50),
          .runTask (Sample.env 2)] s ∧
        ∃ c ∈ s.calls, c.1.user ≠ 1 ∧ 0 < c.1.len.countP fun t => t.holder c.1.side = some 1 :=
      ⟨_, .cons trivial rfl (.cons trivial rfl (.cons trivial rfl (.cons trivial rfl
        (.cons trivial rfl (.cons trivial rfl (.cons trivial rfl (.nil _))))))), by decide +kernel⟩
    obtain ⟨t, ht, hv⟩ := Multiset.countP_pos.mp hcount
    exact hu (hall _ s hrun c hc t ht 1 hv)
  · intro hall
    obtain ⟨s, hrun, hnone⟩ : ∃ s, Transition.Runs (step ledger)
        (initial Sample.users Sample.rules 0)
        [.authorize (Sample.env 0) "b" 7 0 1, .runTask (Sample.env 0),
          .process (Sample.env 0) (Sample.packet 100), .authorize (Sample.env 1) "a" 9 0 1,
          .unauthorize (Sample.env 1) "a" 1 "", .unauthorize (Sample.env 1) "b" 1 "",
          .authorize (Sample.env 2) "a" 7 0 1] s ∧
        (s.step ledger (.runTask (Sample.env 2))).isSome = false :=
      ⟨_, .cons trivial rfl (.cons trivial rfl (.cons trivial rfl (.cons trivial rfl
        (.cons trivial rfl (.cons trivial rfl (.cons trivial rfl (.nil _))))))), by decide +kernel⟩
    simpa [hnone] using hall _ s (Sample.env 2) hrun

end TraffSystem

end Stargazer
