import Stargazer.Traffic.System

set_option relaxedAutoImplicit false
set_option autoImplicit false
set_option linter.unusedSectionVars false

/-!
# What one step of the traffic system can do

Every result about the system is an invariant of its runs.  What a step can do to one end of a flow
(`SideStep`) and to the users (`UsersStep`) is said here once, and the invariants follow from it
case by case.

## Main definitions

* `Stargazer.TraffSystem.SideStep` — what a step can do to one end of a flow.
* `Stargazer.TraffSystem.UsersStep` — what a step can do to the users.
* `Stargazer.TraffSystem.credited` — the words a user counted.

## Main results

* `Stargazer.TraffSystem.step_sides`, `Stargazer.TraffSystem.step_users` — every step does one of
  these things.
* `Stargazer.TraffSystem.monthTraff_eq` — the counters of a user are the sum of what it counted.
-/

namespace Stargazer

namespace TraffSystem

variable {L : Type} [AddCommMonoid L] (M : Meter L)

/-- Does the user count a length that leaves the counter now? -/
def accepts (s : TraffSystem L) (c : StatCall L) : Bool :=
  decide (c.dir < dirNum) && (s.users.users c.user).counts

/-- Passing lengths on to the users: the record of it, and nothing else that is seen from
outside. -/
theorem foldl_addStat (env : Env) (cs : List (StatCall L)) (s : TraffSystem L) :
    UsersImpl.Unmoved s.users (cs.foldl (addStat M env) s).users ∧
    cs.foldl (addStat M env) s = { s with
      users := (cs.foldl (addStat M env) s).users
      calls := s.calls ++ cs.map fun c => (c, s.accepts c) } := by
  induction cs generalizing s with
  | nil => exact ⟨.refl _, by simp⟩
  | cons c cs ih =>
    have hstep : UsersImpl.Unmoved s.users (addStat M env s c).users ∧
        addStat M env s c = { s with
          users := (addStat M env s c).users
          calls := s.calls ++ [(c, s.accepts c)] } := by
      by_cases h : c.dir < dirNum
      · obtain ⟨h1, h2, h3, h4, h5, -⟩ := UserImpl.addTraffStat_frame c.side env ⟨c.dir, h⟩
          (c.key.remote c.side) (M.word c.len) (s.users.users c.user)
        refine ⟨?_, by simp [addStat, h, accepts]⟩
        simp only [addStat, h, dif_pos]
        exact .setUser ⟨h1, h4, h2, h3, by rw [h5]⟩
      · exact ⟨by simp [addStat, h, UsersImpl.Unmoved.refl], by simp [addStat, h, accepts]⟩
    obtain ⟨hu, hs⟩ := hstep
    obtain ⟨hu', hs'⟩ := ih (addStat M env s c)
    -- the flags do not depend on the calls before, which leave connections and tariffs alone
    have haccepts : ∀ c', (addStat M env s c).accepts c' = s.accepts c' := fun c' => by
      simp [accepts, UserImpl.counts, (hu.users c'.user).connected, (hu.users c'.user).tariff]
    refine ⟨hu.trans hu', ?_⟩
    rw [List.foldl_cons, hs', List.map_cons]
    simp only [haccepts]
    rw [hs]
    simp

/-- The packet of a step. -/
def Action.packet : Action → Option RawPacket
  | .process _ p => some p
  | _ => none

/-- What the step `a` from `s` can do to the end `d` of the flow `k`: who is there before, who is
there afterwards, and the calls for this end. -/
inductive SideStep (s : TraffSystem L) (a : Action) (k : FlowKey) (d : Side) :
    Option (Held L) → Option (Held L) → List (StatCall L) → Prop
  /-- Nothing, and no packet of the flow. -/
  | keep (o : Option (Held L)) :
      (∀ p, a.packet = some p → p.key ≠ k) → SideStep s a k d o o []
  /-- A packet of the flow that is kept for nobody: nobody has the address, or the entry of the flow
  does not name who has it. -/
  | miss (p : RawPacket) :
      a.packet = some p → p.key = k →
        (s.users.ipIndex (k.ip d) = none ∨ k ∈ s.counter.packets) → SideStep s a k d none none []
  /-- A packet of the flow for the user that is there. -/
  | grow (p : RawPacket) (h : Held L) :
      a.packet = some p → p.key = k →
        SideStep s a k d (some h)
          (some { h with len := h.len + M.stamp s.users s.counter.rules s.seq p }) []
  /-- The first packet of the flow. -/
  | appear (p : RawPacket) (u : UserId) :
      a.packet = some p → p.key = k → s.users.ipIndex (k.ip d) = some u →
        SideStep s a k d none
          (some ⟨u, determinateDir s.counter.rules k d, M.stamp s.users s.counter.rules s.seq p⟩) []
  /-- The length is passed on; the user stays or goes. -/
  | pass (h : Held L) (o : Option (Held L)) :
      a.packet = none → (o = none ∨ o = some { h with len := 0 }) →
        SideStep s a k d (some h) o [h.call k d]
  /-- The entry is forgotten. -/
  | expire (h : Held L) :
      a.packet = none → (s.counter.Timely s.clock → h.len = 0) → SideStep s a k d (some h) none []
  /-- `AddUser` of the user whose address it is. -/
  | assign (env : Env) (id : UserId) (pool : List Task) (o : Option (Held L)) :
      a = .runTask env → s.pool = .addUser id :: pool →
        k.ip d = (s.users.users id).currIP → (∀ h, o = some h → h.user = id) →
        SideStep s a k d o (some ⟨id, determinateDir s.counter.rules k d, 0⟩) []

/-- What the step `a` can do to the users. -/
inductive UsersStep (s : UsersImpl) (a : Action) : UsersImpl → Prop
  /-- Nothing that is seen from outside. -/
  | same (s' : UsersImpl) : UsersImpl.Unmoved s s' → UsersStep s a s'
  /-- A user gains an address. -/
  | gain (env : Env) (login : String) (ip : IP) (dirs : BitVec 32) (auth : AuthId) (id : UserId)
      (s' : UsersImpl) :
      a = .authorize env login ip dirs auth → s.loginIndex login = some id →
        UsersImpl.Gains env s s' id ip → UsersStep s a s'
  /-- A user loses its address. -/
  | lose (env : Env) (login : String) (auth : AuthId) (reason : String) (id : UserId) (ip : IP)
      (s' : UsersImpl) :
      a = .unauthorize env login auth reason → s.loginIndex login = some id →
        (s.users id).authorizedBy.erase auth = ∅ → UsersImpl.Loses s s' id ip → UsersStep s a s'
  /-- A user is connected or disconnected. -/
  | run (env : Env) (id : UserId) :
      a = .runUser env id → UsersStep s a (s.setUser id ((s.users id).run env))

section Step

variable {M} {s s' : TraffSystem L} {a : Action}

@[simp] theorem notify_users (s : TraffSystem L) (c : Option CurrIPChange) :
    (s.notify c).users = s.users := by cases c <;> rfl

@[simp] theorem notify_counter (s : TraffSystem L) (c : Option CurrIPChange) :
    (s.notify c).counter = s.counter := by cases c <;> rfl

@[simp] theorem notify_calls (s : TraffSystem L) (c : Option CurrIPChange) :
    (s.notify c).calls = s.calls := by cases c <;> rfl

@[simp] theorem notify_clock (s : TraffSystem L) (c : Option CurrIPChange) :
    (s.notify c).clock = s.clock := by cases c <;> rfl

@[simp] theorem notify_received (s : TraffSystem L) (c : Option CurrIPChange) :
    (s.notify c).received = s.received := by cases c <;> rfl

@[simp] theorem notify_seq (s : TraffSystem L) (c : Option CurrIPChange) :
    (s.notify c).seq = s.seq := by cases c <;> rfl

/-- A flush passes on what leaves the counter. -/
theorem step_flushAndRemove {env : Env} (h : s.step M (.flushAndRemove env) = some s') :
    UsersImpl.Unmoved s.users s'.users ∧ s' = { s with
      users := s'.users
      counter := (s.counter.flushAndRemove env.stgTime).1
      clock := env.stgTime
      calls := s.calls ++
        (s.counter.flushAndRemove env.stgTime).2.map fun c => (c, s.accepts c) } := by
  simp only [step, Option.some.injEq] at h
  obtain ⟨hu, hs⟩ := foldl_addStat M env (s.counter.flushAndRemove env.stgTime).2
    { s with counter := (s.counter.flushAndRemove env.stgTime).1, clock := env.stgTime }
  rw [h] at hu hs
  exact ⟨hu, hs⟩

/-- A task of the queue: there is none, or it is an `AddUser` or a `DelUser`. -/
theorem step_runTask_cases {env : Env} (h : s.step M (.runTask env) = some s') :
    (s.pool = [] ∧ s' = s) ∨
    (∃ id pool counter, s.pool = .addUser id :: pool ∧
      s.counter.addUser id (s.users.users id).currIP = some counter ∧
      s' = { s with counter := counter, pool := pool }) ∨
    (∃ ip pool, s.pool = .delUser ip :: pool ∧ UsersImpl.Unmoved s.users s'.users ∧
      s' = { s with
        users := s'.users
        counter := (s.counter.delUser ip).1
        pool := pool
        calls := s.calls ++ (s.counter.delUser ip).2.map fun c => (c, s.accepts c) }) := by
  simp only [step] at h
  split at h
  · next hp => exact .inl ⟨hp, (Option.some.inj h).symm⟩
  · next id pool hp =>
    obtain ⟨c, hc, rfl⟩ := Option.map_eq_some_iff.mp h
    exact .inr (.inl ⟨id, pool, c, hp, hc, rfl⟩)
  · next ip pool hp =>
    obtain ⟨hu, hs⟩ := foldl_addStat M env (s.counter.delUser ip).2
      { s with counter := (s.counter.delUser ip).1, pool := pool }
    rw [Option.some.inj h] at hu hs
    exact .inr (.inr ⟨ip, pool, hp, hu, hs⟩)

/-- **What one step can do to the users.** -/
theorem step_users (hs : s.users.Consistent) (hi : s.users.Indexed) (h : s.step M a = some s') :
    UsersStep s.users a s'.users := by
  cases a with
  | process env p =>
    simp only [step, Option.some.injEq] at h
    subst h
    exact .same _ (.refl _)
  | flushAndRemove env => exact .same _ (step_flushAndRemove h).1
  | authorize env login ip dirs auth =>
    obtain ⟨out, hout, rfl⟩ := Option.map_eq_some_iff.mp h
    rw [notify_users]
    rcases UsersImpl.authorize_cases hs hi hout with ⟨hu, -⟩ | ⟨id, hl, hg, -⟩
    · exact .same _ hu
    · exact .gain env login ip dirs auth id _ rfl hl hg
  | unauthorize env login auth reason =>
    obtain ⟨out, hout, rfl⟩ := Option.map_eq_some_iff.mp h
    rw [notify_users]
    rcases UsersImpl.unauthorize_cases hs hout with ⟨hu, -⟩ | ⟨id, ip, hl, hg, he, -⟩
    · exact .same _ hu
    · exact .lose env login auth reason id ip _ rfl hl he hg
  | runUser env id =>
    simp only [step, Option.some.injEq] at h
    subst h
    exact .run env id rfl
  | runTask env =>
    rcases step_runTask_cases h with ⟨-, rfl⟩ | ⟨id, pool, c, -, -, rfl⟩ | ⟨ip, pool, -, hu, -⟩
    · exact .same _ (.refl _)
    · exact .same _ (.refl _)
    · exact .same _ hu

/-- Every step keeps the users consistent and the index of addresses right. -/
theorem UsersStep.invariant {u u' : UsersImpl} (h : UsersStep u a u') (hs : u.Consistent)
    (hi : u.Indexed) : u'.Consistent ∧ u'.Indexed := by
  cases h with
  | same _ hu => exact ⟨hu.consistent hs, hu.indexed hi⟩
  | gain _ _ _ _ _ id _ _ _ hg => exact ⟨hg.consistent hs, hg.indexed hi⟩
  | lose _ _ _ _ id _ _ _ _ _ hg => exact ⟨hg.consistent hs, hg.indexed hi⟩
  | run env id =>
    have hrun := UserImpl.sameAccount_run env (u.users id)
    have hsame : ∀ j, UserImpl.SameAccount (u.users j)
        ((u.setUser id ((u.users id).run env)).users j) := by
      intro j
      by_cases hj : j = id
      · subst hj; simpa using hrun
      · rw [UsersImpl.setUser_of_ne _ _ hj]; exact .refl _
    refine ⟨⟨fun login j hl => ?_, fun ip j hip => ?_, fun j => ?_⟩, .of_iff fun ip j => ?_⟩
    · rw [(hsame j).login]; exact hs.login_eq login j hl
    · rw [(hsame j).login]; exact hs.registered ip j hip
    · rw [(hsame j).currIP, (hsame j).authorizedBy]; exact hs.currIP_eq_zero j
    · rw [(hsame j).currIP, (hsame j).authorizedBy]; exact hi.index_iff ip j

/-- A step that brings no packet and leaves the counter alone does nothing to the flows. -/
theorem SideStep.of_counter_eq (hp : a.packet = none) (h : s'.counter = s.counter) (k : FlowKey)
    (d : Side) : SideStep M s a k d (s.counter.held k d) (s'.counter.held k d) [] := by
  rw [h]
  exact .keep _ (by simp [hp])

/-- A packet grows the length of its flow, starts the entry of its flow, or is kept for nobody. -/
theorem SideStep.process (s : TraffSystem L) (env : Env) (p : RawPacket) (k : FlowKey) (d : Side) :
    SideStep M s (.process env p) k d (s.counter.held k d)
      ((s.counter.process env.stgTime s.users.ipIndex p.key
        (M.stamp s.users s.counter.rules s.seq p)).held k d) [] := by
  by_cases hk : p.key = k
  · subst hk
    rw [TraffCounterImpl.held_process]
    cases hl : s.counter.packets.lookup p.key with
    | some e =>
      rw [TraffCounterImpl.held_eq_of_lookup hl]
      dsimp only
      cases e.held d with
      | none =>
        rw [Option.map_none]
        exact .miss p rfl rfl (.inr (AList.lookup_isSome.mp (by rw [hl]; rfl)))
      | some h =>
        rw [Option.map_some]
        exact .grow p h rfl rfl
    | none =>
      rw [show s.counter.held p.key d = none by simp [TraffCounterImpl.held, hl]]
      dsimp only
      cases hi : s.users.ipIndex (p.key.ip d) with
      | none =>
        rw [Option.map_none]
        exact .miss p rfl rfl (.inl hi)
      | some u =>
        rw [Option.map_some]
        exact .appear p u rfl rfl hi
  · rw [TraffCounterImpl.held_process_of_ne _ _ _ _ _ (Ne.symm hk)]
    refine .keep _ fun q hq => ?_
    obtain rfl := Option.some.inj hq
    exact hk

/-- A flush passes a length on or forgets an entry. -/
theorem SideStep.flushAndRemove (s : TraffSystem L) (env : Env) (k : FlowKey) (d : Side) :
    SideStep M s (.flushAndRemove env) k d (s.counter.held k d)
      ((s.counter.flushAndRemove env.stgTime).1.held k d)
      (callsAt k d (s.counter.flushAndRemove env.stgTime).2) := by
  cases hh : s.counter.held k d with
  | none =>
    obtain ⟨hcalls, hafter⟩ := TraffCounterImpl.flushAndRemove_of_held_eq_none hh env.stgTime
    rw [hcalls, hafter]
    exact .keep _ (by simp [Action.packet])
  | some x =>
    rcases TraffCounterImpl.flushAndRemove_cases hh env.stgTime with
      ⟨hcalls, hafter⟩ | ⟨hcalls, hafter⟩ | ⟨hcalls, hafter, hzero⟩
    · rw [hcalls, hafter]
      exact .keep _ (by simp [Action.packet])
    · rw [hcalls]
      exact .pass x _ rfl hafter
    · rw [hcalls, hafter]
      exact .expire x rfl (hzero s.clock)

/-- `AddUser` assigns the entries at the address that its user has now. -/
theorem SideStep.addUser (hc : s.counter.Complete) (hd : s.counter.Directed) {env : Env}
    {id : UserId} {pool : List Task} (hp : s.pool = .addUser id :: pool)
    {counter : TraffCounterImpl L}
    (hadd : s.counter.addUser id (s.users.users id).currIP = some counter) (k : FlowKey)
    (d : Side) : SideStep M s (.runTask env) k d (s.counter.held k d) (counter.held k d) [] := by
  rw [TraffCounterImpl.held_addUser hc hadd]
  by_cases hip : k.ip d = (s.users.users id).currIP
  · rw [if_pos hip]
    cases hl : s.counter.packets.lookup k with
    | none =>
      rw [show s.counter.held k d = none by simp [TraffCounterImpl.held, hl]]
      exact .keep _ (by simp [Action.packet])
    | some e =>
      rw [Option.map_some, hd k e hl d]
      refine .assign env id pool _ rfl hp hip fun x hx => ?_
      exact (TraffCounterImpl.addUser_isSome_iff hc).mp (by rw [hadd]; rfl) k d x hip hx
  · rw [if_neg hip]
    exact .keep _ (by simp [Action.packet])

/-- `DelUser` passes the lengths of the entries at its address on. -/
theorem SideStep.delUser (hc : s.counter.Complete) (env : Env) (ip : IP) (k : FlowKey) (d : Side) :
    SideStep M s (.runTask env) k d (s.counter.held k d) ((s.counter.delUser ip).1.held k d)
      (callsAt k d (s.counter.delUser ip).2) := by
  rw [TraffCounterImpl.callsAt_delUser hc, TraffCounterImpl.held_delUser hc]
  by_cases hip : k.ip d = ip
  · rw [if_pos hip, if_pos hip]
    cases s.counter.held k d with
    | none => exact .keep _ (by simp [Action.packet])
    | some x => exact .pass x none rfl (.inl rfl)
  · rw [if_neg hip, if_neg hip]
    exact .keep _ (by simp [Action.packet])

/-- **What one step can do to one end of a flow.**  The users say of every length that leaves the
counter whether they count it, as they are before the step. -/
theorem step_sides (hc : s.counter.Complete) (hd : s.counter.Directed)
    (h : s.step M a = some s') :
    ∃ new, s'.calls = s.calls ++ (new.map fun c => (c, s.accepts c)) ∧
      ∀ k d, SideStep M s a k d (s.counter.held k d) (s'.counter.held k d) (callsAt k d new) := by
  cases a with
  | process env p =>
    simp only [step, Option.some.injEq] at h
    subst h
    exact ⟨[], by simp, SideStep.process s env p⟩
  | flushAndRemove env =>
    obtain ⟨-, hs⟩ := step_flushAndRemove h
    rw [hs]
    exact ⟨_, rfl, SideStep.flushAndRemove s env⟩
  | authorize env login ip dirs auth =>
    obtain ⟨out, -, rfl⟩ := Option.map_eq_some_iff.mp h
    exact ⟨[], by simp, SideStep.of_counter_eq rfl (by simp)⟩
  | unauthorize env login auth reason =>
    obtain ⟨out, -, rfl⟩ := Option.map_eq_some_iff.mp h
    exact ⟨[], by simp, SideStep.of_counter_eq rfl (by simp)⟩
  | runUser env id =>
    simp only [step, Option.some.injEq] at h
    subst h
    exact ⟨[], by simp, SideStep.of_counter_eq rfl rfl⟩
  | runTask env =>
    rcases step_runTask_cases h with ⟨-, rfl⟩ | ⟨id, pool, c, hp, hadd, rfl⟩ | ⟨ip, pool, -, -, hs⟩
    · exact ⟨[], by simp, SideStep.of_counter_eq rfl rfl⟩
    · exact ⟨[], by simp, SideStep.addUser hc hd hp hadd⟩
    · rw [hs]
      exact ⟨_, rfl, SideStep.delUser hc env ip⟩

/-- A step leaves the rules alone, finds all entries and keeps their directions. -/
theorem step_counter (hc : s.counter.Complete) (hd : s.counter.Directed)
    (h : s.step M a = some s') : s'.counter.rules = s.counter.rules ∧ s'.counter.Complete ∧
      s'.counter.Directed := by
  cases a with
  | process env p =>
    simp only [step, Option.some.injEq] at h
    subst h
    exact ⟨TraffCounterImpl.process_rules .., hc.process _ _ _ _, hd.process _ _ _ _⟩
  | flushAndRemove env =>
    rw [(step_flushAndRemove h).2]
    exact ⟨rfl, TraffCounterImpl.complete_flushAndRemove _ _, hd.flushAndRemove _⟩
  | authorize env login ip dirs auth =>
    obtain ⟨out, -, rfl⟩ := Option.map_eq_some_iff.mp h
    rw [notify_counter]
    exact ⟨rfl, hc, hd⟩
  | unauthorize env login auth reason =>
    obtain ⟨out, -, rfl⟩ := Option.map_eq_some_iff.mp h
    rw [notify_counter]
    exact ⟨rfl, hc, hd⟩
  | runUser env id =>
    simp only [step, Option.some.injEq] at h
    subst h
    exact ⟨rfl, hc, hd⟩
  | runTask env =>
    rcases step_runTask_cases h with ⟨-, rfl⟩ | ⟨id, pool, c, -, hadd, rfl⟩ | ⟨ip, pool, -, -, hs⟩
    · exact ⟨rfl, hc, hd⟩
    · exact ⟨TraffCounterImpl.addUser_rules hadd, hc.addUser hadd, hd.addUser hc hadd⟩
    · rw [hs]
      exact ⟨TraffCounterImpl.delUser_rules, hc.delUser, hd.delUser hc ip⟩

/-- What a step adds to the record of packets. -/
theorem step_received (h : s.step M a = some s') :
    (a.packet = none ∧ s'.received = s.received ∧ s'.seq = s.seq) ∨
    (∃ p, a.packet = some p ∧
      s'.received = s.received + M.stamp s.users s.counter.rules s.seq p ∧
      s'.seq = s.seq + 1) := by
  cases a with
  | process env p =>
    simp only [step, Option.some.injEq] at h
    subst h
    exact .inr ⟨p, rfl, rfl, rfl⟩
  | flushAndRemove env =>
    rw [(step_flushAndRemove h).2]
    exact .inl ⟨rfl, rfl, rfl⟩
  | authorize env login ip dirs auth =>
    obtain ⟨out, -, rfl⟩ := Option.map_eq_some_iff.mp h
    exact .inl ⟨rfl, notify_received .., notify_seq ..⟩
  | unauthorize env login auth reason =>
    obtain ⟨out, -, rfl⟩ := Option.map_eq_some_iff.mp h
    exact .inl ⟨rfl, notify_received .., notify_seq ..⟩
  | runUser env id =>
    simp only [step, Option.some.injEq] at h
    subst h
    exact .inl ⟨rfl, rfl, rfl⟩
  | runTask env =>
    rcases step_runTask_cases h with ⟨-, rfl⟩ | ⟨id, pool, c, -, -, rfl⟩ | ⟨ip, pool, -, -, hs⟩
    · exact .inl ⟨rfl, rfl, rfl⟩
    · exact .inl ⟨rfl, rfl, rfl⟩
    · rw [hs]
      exact .inl ⟨rfl, rfl, rfl⟩

/-- The clock does not go back. -/
def InTime (s : TraffSystem L) : Action → Prop
  | .process env _ => s.clock ≤ env.stgTime
  | .flushAndRemove env => s.clock ≤ env.stgTime
  | _ => True

instance (s : TraffSystem L) : (a : Action) → Decidable (s.InTime a)
  | .process _ _ => inferInstanceAs (Decidable (_ ≤ _))
  | .flushAndRemove _ => inferInstanceAs (Decidable (_ ≤ _))
  | .authorize .. => inferInstanceAs (Decidable True)
  | .unauthorize .. => inferInstanceAs (Decidable True)
  | .runUser .. => inferInstanceAs (Decidable True)
  | .runTask .. => inferInstanceAs (Decidable True)

theorem step_timely (hc : s.counter.Complete) (ht : s.counter.Timely s.clock) (hg : s.InTime a)
    (h : s.step M a = some s') : s'.counter.Timely s'.clock := by
  cases a with
  | process env p =>
    simp only [step, Option.some.injEq] at h
    subst h
    exact ht.process hg _ _ _
  | flushAndRemove env =>
    rw [(step_flushAndRemove h).2]
    exact ht.flushAndRemove hg
  | authorize env login ip dirs auth =>
    obtain ⟨out, -, rfl⟩ := Option.map_eq_some_iff.mp h
    simpa using ht
  | unauthorize env login auth reason =>
    obtain ⟨out, -, rfl⟩ := Option.map_eq_some_iff.mp h
    simpa using ht
  | runUser env id =>
    simp only [step, Option.some.injEq] at h
    subst h
    exact ht
  | runTask env =>
    rcases step_runTask_cases h with ⟨-, rfl⟩ | ⟨id, pool, c, -, hadd, rfl⟩ | ⟨ip, pool, -, -, hs⟩
    · exact ht
    · exact ht.addUser hc hadd
    · rw [hs]
      exact ht.delUser hc

end Step

/-! ## The counters of the users -/

section Counters

variable {M} {s s' : TraffSystem L} {a : Action}

/-- The words the user `id` counted for one side and one direction. -/
def credited (M : Meter L) (s : TraffSystem L) (d : Side) (id : UserId) (dir : Dir) : BitVec 64 :=
  ((s.calls.filter fun c => c.2 ∧ c.1.side = d ∧ c.1.user = id ∧ c.1.dir = dir.val).map
    fun c => (M.word c.1.len).setWidth 64).sum

theorem credited_eq_add {c : StatCall L} {b : Bool} (h : s'.calls = s.calls ++ [(c, b)])
    (d : Side) (id : UserId) (dir : Dir) :
    credited M s' d id dir = credited M s d id dir +
      if b = true ∧ c.side = d ∧ c.user = id ∧ c.dir = dir.val then
        (M.word c.len).setWidth 64 else 0 := by
  rw [credited, h, List.filter_append, List.map_append, List.sum_append, credited]
  congr 1
  by_cases hc : b = true ∧ c.side = d ∧ c.user = id ∧ c.dir = dir.val
  · rw [if_pos hc, List.filter_cons_of_pos (by simpa using hc)]
    simp
  · rw [if_neg hc, List.filter_cons_of_neg (by simpa using hc)]
    simp

/-- What a user had before anything was counted. -/
def carried (M : Meter L) (s : TraffSystem L) (d : Side) (id : UserId) (dir : Dir) : BitVec 64 :=
  (s.users.users id).monthTraff d dir - credited M s d id dir

/-- A call moves the counter of the user by its word exactly if it is recorded as counted. -/
theorem carried_addStat (env : Env) (s : TraffSystem L) (c : StatCall L) (d : Side)
    (id : UserId) (dir : Dir) : carried M (addStat M env s c) d id dir = carried M s d id dir := by
  unfold carried
  by_cases h : c.dir < dirNum
  · rw [credited_eq_add (s := s) (c := c) (b := (s.users.users c.user).counts)
      (by simp [addStat, h])]
    simp only [addStat, h, dif_pos]
    by_cases hu : id = c.user
    · subst hu
      rw [UsersImpl.setUser_self, UserImpl.monthTraff_addTraffStat]
      have hiff : (c.side = d ∧ (⟨c.dir, h⟩ : Dir) = dir ∧ (s.users.users c.user).counts = true) ↔
          ((s.users.users c.user).counts = true ∧ c.side = d ∧ c.user = c.user ∧
            c.dir = dir.val) := by
        rw [Fin.ext_iff]
        tauto
      rw [if_congr hiff rfl rfl, add_sub_add_right_eq_sub]
    · rw [UsersImpl.setUser_of_ne _ _ hu, if_neg (by tauto), add_zero]
  · rw [credited_eq_add (s := s) (c := c) (b := false) (by simp [addStat, h])]
    simp [addStat, h]

theorem carried_foldl_addStat (env : Env) (cs : List (StatCall L)) (s : TraffSystem L) (d : Side)
    (id : UserId) (dir : Dir) :
    carried M (cs.foldl (addStat M env) s) d id dir = carried M s d id dir := by
  induction cs generalizing s with
  | nil => rfl
  | cons c cs ih => rw [List.foldl_cons, ih, carried_addStat]

theorem carried_step (h : s.step M a = some s') (d : Side) (id : UserId) (dir : Dir) :
    carried M s' d id dir = carried M s d id dir := by
  cases a with
  | process env p =>
    simp only [step, Option.some.injEq] at h
    subst h
    rfl
  | flushAndRemove env =>
    simp only [step, Option.some.injEq] at h
    subst h
    exact carried_foldl_addStat ..
  | authorize env login ip dirs auth =>
    obtain ⟨out, hout, rfl⟩ := Option.map_eq_some_iff.mp h
    simp only [carried, credited, notify_users, notify_calls,
      UsersImpl.monthTraff_authorize hout d id]
  | unauthorize env login auth reason =>
    obtain ⟨out, hout, rfl⟩ := Option.map_eq_some_iff.mp h
    simp only [carried, credited, notify_users, notify_calls,
      UsersImpl.monthTraff_unauthorize hout d id]
  | runUser env j =>
    simp only [step, Option.some.injEq] at h
    subst h
    have hrun := (UserImpl.sameAccount_run env (s.users.users j)).monthTraff d
    simp only [carried, credited, UsersImpl.monthTraff_setUser hrun id]
  | runTask env =>
    simp only [step] at h
    split at h
    · obtain rfl := Option.some.inj h
      rfl
    · obtain ⟨c, -, rfl⟩ := Option.map_eq_some_iff.mp h
      rfl
    · obtain rfl := Option.some.inj h
      exact carried_foldl_addStat ..

/-- **The counters of the users**: in every run, the counter of a user is what it was at the start
and the words the user counted since. -/
theorem monthTraff_eq {guard : TraffSystem L → Action → Prop} {users : UsersImpl}
    {rules : List Rule} {clock : Time} {as : List Action}
    (h : Transition.Reaches (step M) guard (initial users rules clock) as s) (d : Side)
    (id : UserId) (dir : Dir) :
    (s.users.users id).monthTraff d dir =
      (users.users id).monthTraff d dir + credited M s d id dir := by
  have hinv : carried M s d id dir = carried M (initial users rules clock) d id dir :=
    h.invariant
      (I := fun t => carried M t d id dir = carried M (initial users rules clock) d id dir)
      (fun _ _ _ hI _ hs => (carried_step hs d id dir).trans hI) rfl
  have hstart : carried M (initial users rules clock) d id dir =
      (users.users id).monthTraff d dir := sub_zero _
  rw [hstart, carried, sub_eq_iff_eq_add] at hinv
  exact hinv

end Counters

end TraffSystem

end Stargazer
