import Stargazer.Traffic.Attribution

set_option relaxedAutoImplicit false
set_option autoImplicit false

/-!
# Stopping the traffic counter

The loop of `TraffCounterImpl::Run` (`traffcounter_impl.cpp`), while other threads use the counter and
one of them requests the stop at any time.  The loop is left in two ways: the test behind the sleep
calls `FlushAndRemove` once more, which passes on only what is older than `FLUSH_TIME`; the test of
`while` calls nothing.

The counter of the loop is taken not to overflow.  Touching the file of the monitor is left out.

## Main definitions

* `Stargazer.RunLoop`, `Stargazer.RunLoop.step` — the system of traffic counting with the thread of
  the loop.
* `Stargazer.RunLoop.Leaving.LosesNothing` — all counted bytes have been handed to the users.

## Main results

* `Stargazer.RunLoop.losesNothing_flush_iff`, `Stargazer.RunLoop.losesNothing_test_iff` — what is lost
  when the loop is left.
* `Stargazer.RunLoop.stopping_loses_nothing_iff` — the runs that lose nothing.
-/

namespace Stargazer

/-- Where the thread is. -/
inductive RunPc
  /-- At the test of `while`. -/
  | test
  /-- In `sleep_for`. -/
  | sleep
  /-- Behind the loop. -/
  | left
  deriving DecidableEq

namespace RunLoop

/-- A length that waits for a user, in a direction that is counted. -/
def Pending (counter : TraffCounterImpl (BitVec 32)) (k : FlowKey) (d : Side)
    (h : Held (BitVec 32)) : Prop := counter.held k d = some h ∧ h.dir < dirNum ∧ h.len ≠ 0

/-- What happened when the loop was left. -/
structure Leaving where
  /-- The counter before. -/
  before : TraffCounterImpl (BitVec 32)
  /-- The counter behind the loop. -/
  after : TraffCounterImpl (BitVec 32)
  /-- The lengths that have left the counter on the way. -/
  calls : List (StatCall (BitVec 32))

/-- No entry holds a length, and those that did have been handed to the users. -/
structure Leaving.LosesNothing (r : Leaving) : Prop where
  /-- No entry holds a length. -/
  kept : ¬ ∃ k d h, Pending r.after k d h
  /-- The lengths have been handed to the users. -/
  handed : ∀ k d h, Pending r.before k d h → h.call k d ∈ r.calls

end RunLoop

/-- The system of traffic counting with the thread of `TraffCounterImpl::Run`. -/
structure RunLoop where
  /-- Users, counter and queue. -/
  system : TraffSystem (BitVec 32)
  /-- Where the thread is. -/
  pc : RunPc := .test
  /-- `token.stop_requested()`. -/
  stop : Bool := false
  /-- `c`. -/
  c : ℕ := 0
  /-- For the record: how the loop was left. -/
  leaving : Option RunLoop.Leaving := none

namespace RunLoop

/-- The steps of the threads. -/
inductive Action
  /-- Another thread does something with users, counter or queue. -/
  | other (a : TraffSystem.Action)
  /-- `request_stop`. -/
  | requestStop
  /-- The thread tests the condition of `while`. -/
  | test
  /-- The thread is behind `sleep_for`: the rest of the body of the loop. -/
  | wake (env : Env)

/-- `FlushAndRemove`. -/
def flush (s : RunLoop) (env : Env) : Option (TraffSystem (BitVec 32)) :=
  s.system.step .code (.flushAndRemove env)

/-- How the loop is left with a counter. -/
def leavingWith (s : RunLoop) (system : TraffSystem (BitVec 32)) : Leaving :=
  ⟨s.system.counter, system.counter,
    (system.calls.drop s.system.calls.length).map Prod.fst⟩

/-- Only the loop calls `FlushAndRemove`. -/
def ofOthers : TraffSystem.Action → Bool
  | .flushAndRemove _ => false
  | _ => true

/-- One step; `none` is a failed assertion, or a step that is not possible there. -/
def step (s : RunLoop) : Action → Option RunLoop
  | .other a =>
    if ofOthers a then (s.system.step .code a).map fun system => { s with system := system }
    else none
  | .requestStop => some { s with stop := true }
  | .test =>
    if s.pc ≠ .test then none
    else if s.stop then
      some { s with pc := .left, leaving := some (s.leavingWith s.system) }
    else some { s with pc := .sleep }
  | .wake env =>
    if s.pc ≠ .sleep then none
    else if s.stop then
      (s.flush env).map fun system =>
        { s with system := system, pc := .left, leaving := some (s.leavingWith system) }
    else if (s.c + 1) % flushPeriod.toNat = 0 then
      (s.flush env).map fun system => { s with system := system, pc := .test, c := s.c + 1 }
    else some { s with pc := .test, c := s.c + 1 }

/-! ## What is lost -/

/-- The step leaves the loop without losing anything: nothing waits, if it is the test of `while`;
everything that waits is old enough to be flushed, if it is the test behind the sleep. -/
def LeavesClean (s : RunLoop) : Action → Prop
  | .test => s.pc = .test → s.stop = true → ¬ ∃ k d h, Pending s.system.counter k d h
  | .wake env => s.pc = .sleep → s.stop = true → ∀ k e, s.system.counter.packets.lookup k = some e →
      (∃ d h, Pending s.system.counter k d h) → e.flushDue env.stgTime = true
  | _ => True

/-- The calls of a flush are recorded. -/
theorem flush_eq {s : RunLoop} {env : Env} {system : TraffSystem (BitVec 32)}
    (h : s.flush env = some system) :
    s.leavingWith system = ⟨s.system.counter, (s.system.counter.flushAndRemove env.stgTime).1,
      (s.system.counter.flushAndRemove env.stgTime).2⟩ := by
  obtain ⟨-, hs⟩ := TraffSystem.step_flushAndRemove h
  have hcounter : system.counter = (s.system.counter.flushAndRemove env.stgTime).1 := by rw [hs]
  have hcalls : system.calls = s.system.calls ++
      (s.system.counter.flushAndRemove env.stgTime).2.map fun c => (c, s.system.accepts c) := by
    rw [hs]
  rw [leavingWith, hcounter, hcalls, List.drop_left, List.map_map]
  congr 1
  exact List.map_id _

/-- **What the last flush loses**: everything that is not old enough. -/
theorem losesNothing_flush_iff (counter : TraffCounterImpl (BitVec 32)) (now : Time) :
    Leaving.LosesNothing ⟨counter, (counter.flushAndRemove now).1, (counter.flushAndRemove now).2⟩ ↔
      ∀ k e, counter.packets.lookup k = some e → (∃ d h, Pending counter k d h) →
        e.flushDue now = true := by
  have hcalls : ∀ k e d h, counter.packets.lookup k = some e → counter.held k d = some h →
      callsAt k d (counter.flushAndRemove now).2 =
        if e.flushDue now then [h.call k d] else [] := by
    intro k e d h hl hh
    rw [TraffCounterImpl.held_eq_of_lookup hl] at hh
    rw [TraffCounterImpl.callsAt_flushAndRemove, hl]
    simp only [hh, Option.toList_some, List.map_cons, List.map_nil]
  constructor
  · rintro ⟨-, hhanded⟩ k e hl ⟨d, h, hpending⟩
    have hmem : h.call k d ∈ callsAt k d (counter.flushAndRemove now).2 :=
      List.mem_filter.mpr ⟨hhanded k d h hpending, by simp [Held.call]⟩
    rw [hcalls k e d h hl hpending.1] at hmem
    by_contra hnot
    rw [if_neg hnot] at hmem
    cases hmem
  · intro hdue
    refine ⟨?_, ?_⟩
    · rintro ⟨k, d, h, hh, hdir, hlen⟩
      change (counter.flushAndRemove now).1.held k d = some h at hh
      -- a length behind the flush was there before it
      cases hbefore : counter.held k d with
      | none =>
        rw [(TraffCounterImpl.flushAndRemove_of_held_eq_none hbefore now).2] at hh
        cases hh
      | some h' =>
        obtain ⟨e, hl, -⟩ := Option.bind_eq_some_iff.mp hbefore
        rcases TraffCounterImpl.flushAndRemove_cases hbefore now with
          ⟨hnil, hsame⟩ | ⟨-, hnone | hzero⟩ | ⟨-, hnone, -⟩
        · obtain rfl := Option.some.inj (hsame.symm.trans hh)
          have hd := hdue k e hl ⟨d, h', hbefore, hdir, hlen⟩
          rw [hcalls k e d h' hl hbefore, if_pos hd] at hnil
          cases hnil
        · rw [hnone] at hh
          cases hh
        · obtain rfl := Option.some.inj (hzero.symm.trans hh)
          exact hlen rfl
        · rw [hnone] at hh
          cases hh
    · intro k d h hpending
      obtain ⟨e, hl, -⟩ := Option.bind_eq_some_iff.mp hpending.1
      have hmem : h.call k d ∈ callsAt k d (counter.flushAndRemove now).2 := by
        rw [hcalls k e d h hl hpending.1, if_pos (hdue k e hl ⟨d, h, hpending⟩)]
        exact List.mem_cons_self
      exact (List.mem_filter.mp hmem).1

/-- **What the test of `while` loses**: everything that waits. -/
theorem losesNothing_test_iff (s : RunLoop) :
    (s.leavingWith s.system).LosesNothing ↔ ¬ ∃ k d h, Pending s.system.counter k d h := by
  constructor
  · exact fun h => h.kept
  · intro h
    exact ⟨h, fun k d x hx => absurd ⟨k, d, x, hx⟩ h⟩

/-! ## Runs -/

/-- What was lost when the loop was left. -/
def NothingLost (s : RunLoop) : Prop := ∀ r ∈ s.leaving, r.LosesNothing

/-- The record is made behind the loop. -/
def Recorded (s : RunLoop) : Prop := s.leaving.isSome → s.pc = .left

/-- **What a step does to the record**: nothing, or it leaves the loop. -/
theorem step_leaving {s s' : RunLoop} {a : Action} (hrec : s.Recorded) (h : s.step a = some s') :
    (s'.leaving = s.leaving ∧ (s.leaving.isSome → s'.pc = .left) ∧ s.LeavesClean a) ∨
      ∃ r, s'.leaving = some r ∧ s'.pc = .left ∧ (r.LosesNothing ↔ s.LeavesClean a) := by
  cases a with
  | other a =>
    rw [step] at h
    split_ifs at h
    obtain ⟨system, -, rfl⟩ := Option.map_eq_some_iff.mp h
    exact .inl ⟨rfl, hrec, trivial⟩
  | requestStop =>
    obtain rfl := Option.some.inj h
    exact .inl ⟨rfl, hrec, trivial⟩
  | test =>
    rw [step] at h
    split_ifs at h with hpc hstop
    · obtain rfl := Option.some.inj h
      rw [not_not] at hpc
      refine .inr ⟨_, rfl, rfl, ?_⟩
      rw [losesNothing_test_iff]
      exact ⟨fun h _ _ => h, fun h => h hpc hstop⟩
    · obtain rfl := Option.some.inj h
      rw [not_not] at hpc
      refine .inl ⟨rfl, fun hsome => ?_, fun _ hs => absurd hs hstop⟩
      exact absurd ((hrec hsome).symm.trans hpc) (by decide)
  | wake env =>
    rw [step] at h
    split_ifs at h with hpc hstop hc
    · obtain ⟨system, hflush, rfl⟩ := Option.map_eq_some_iff.mp h
      rw [not_not] at hpc
      refine .inr ⟨_, rfl, rfl, ?_⟩
      rw [flush_eq hflush, losesNothing_flush_iff]
      exact ⟨fun h _ _ => h, fun h => h hpc hstop⟩
    · obtain ⟨system, -, rfl⟩ := Option.map_eq_some_iff.mp h
      rw [not_not] at hpc
      refine .inl ⟨rfl, fun hsome => ?_, fun _ hs => absurd hs hstop⟩
      exact absurd ((hrec hsome).symm.trans hpc) (by decide)
    · obtain rfl := Option.some.inj h
      rw [not_not] at hpc
      refine .inl ⟨rfl, fun hsome => ?_, fun _ hs => absurd hs hstop⟩
      exact absurd ((hrec hsome).symm.trans hpc) (by decide)

/-- The record stays in order. -/
theorem Recorded.step {s s' : RunLoop} {a : Action} (hrec : s.Recorded) (h : s.step a = some s') :
    s'.Recorded := by
  rcases step_leaving hrec h with ⟨hleaving, hpc, -⟩ | ⟨r, -, hpc, -⟩
  · intro hsome
    exact hpc (hleaving ▸ hsome)
  · exact fun _ => hpc

/-- **A step loses nothing** exactly if it does not leave the loop, or leaves it clean. -/
theorem step_nothingLost {s s' : RunLoop} {a : Action} (hrec : s.Recorded) (hlost : s.NothingLost)
    (h : s.step a = some s') : s'.NothingLost ↔ s.LeavesClean a := by
  unfold NothingLost
  rcases step_leaving hrec h with ⟨hleaving, -, hclean⟩ | ⟨r, hleaving, -, hiff⟩
  · rw [hleaving]
    exact iff_of_true hlost hclean
  · rw [hleaving, ← hiff]
    exact ⟨fun hall => hall r rfl, fun hr r' hr' => Option.some.inj hr' ▸ hr⟩

/-- The start of the loop. -/
def start (system : TraffSystem (BitVec 32)) : RunLoop := { system := system }

/-- **The runs that lose nothing**: a run of the threads loses nothing when the loop is left exactly if
it leaves the loop clean. -/
theorem stopping_loses_nothing_iff (users : UsersImpl) (rules : List Rule) (clock : Time)
    (as : List Action) :
    Transition.Maintains step NothingLost (start (.initial users rules clock)) as ↔
      ∃ t, Transition.Reaches step LeavesClean (start (.initial users rules clock)) as t := by
  refine Transition.maintains_iff_reaches_of_step (A := Recorded) (fun s a s' hrec h => hrec.step h)
    (fun s a s' hrec hlost h => step_nothingLost hrec hlost h) as ?_ ?_
  · intro hsome
    cases hsome
  · intro r hr
    cases hr

/-- A packet is counted while the thread sleeps, and the stop is requested. -/
def Sample.lastSecond : List Action :=
  [.test, .other (.authorize (Stargazer.Sample.env 0) "a" 7 0 1),
    .other (.runTask (Stargazer.Sample.env 0)),
    .other (.process (Stargazer.Sample.env 0) (Stargazer.Sample.packet 100)), .requestStop,
    .wake (Stargazer.Sample.env 1)]

/-- The packet is younger than `FLUSH_TIME` when the thread wakes up. -/
theorem last_second_lost : ¬ ∀ users rules clock as s,
    Transition.Runs step (start (.initial users rules clock)) as s → s.NothingLost := by
  intro hall
  obtain ⟨s, hrun, r, hr, hlen⟩ : ∃ s, Transition.Runs step
      (start (.initial Stargazer.Sample.users Stargazer.Sample.rules 0)) Sample.lastSecond s ∧
      ∃ r ∈ s.leaving,
        r.after.held (Stargazer.Sample.packet 100).key .up = some ⟨0, 0, 100⟩ :=
    ⟨_, .cons trivial rfl (.cons trivial rfl (.cons trivial rfl (.cons trivial rfl
      (.cons trivial rfl (.cons trivial rfl (.nil _)))))), _, rfl, rfl⟩
  exact (hall _ _ _ _ s hrun r hr).kept ⟨_, .up, _, hlen, by decide, by decide⟩

end RunLoop

end Stargazer
