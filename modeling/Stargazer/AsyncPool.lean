import Stargazer.Lib.FairRun
import Mathlib.Data.List.Induction
import Mathlib.Tactic.IntervalCases

set_option relaxedAutoImplicit false
set_option autoImplicit false

/-!
# The background queue

Any thread puts tasks into the queue of `AsyncPool` (`async_pool.h`, `async_pool.cpp`), under a mutex, and
then wakes the worker up.  The worker takes the whole queue under the mutex and runs the tasks without it,
so that others arrive in the meantime, also from the task that runs.

A task is a function without a result, of which nothing is known but that it is called and returns.  What
is called is written down in a log, which the program does not have.  A task that puts another one into
the queue may return here before it has woken the worker up, which only adds to what can happen.

## Main definitions

* `Stargazer.AsyncPool` — the queue and the worker; `Stargazer.AsyncPool.step` — one step of a thread.
* `Stargazer.AsyncPool.InOrder` — the tasks in the log are those of the queue, in order and one at a time.
* `Stargazer.AsyncPool.RunFairly` — the worker gets on, and so does who has to wake it up.

## Main results

* `Stargazer.AsyncPool.runs_inOrder` — a run calls the tasks in order.
* `Stargazer.AsyncPool.eventually_ended` — a task that was put into the queue comes to its end.
* `Stargazer.AsyncPool.async_pool_runs_once_in_order` — both, for endless runs.
-/

namespace Stargazer

open Transition

/-- What is written down of the tasks. -/
inductive Mark (τ : Type*)
  /-- `t` is called. -/
  | began (t : τ)
  /-- `t` returns. -/
  | ended (t : τ)

/-- Where the thread of `AsyncPool::run` is. -/
inductive PoolWorker (τ : Type*)
  /-- `start` was not called. -/
  | absent
  /-- Before the predicate of `m_cond.wait` is evaluated. -/
  | locking
  /-- Inside `m_cond.wait`. -/
  | asleep
  /-- Between two tasks of `tasks`. -/
  | batch (tasks : List τ)
  /-- Inside a task. -/
  | running (t : τ) (tasks : List τ)

namespace PoolWorker

variable {τ : Type*}

/-- The task that runs. -/
def current : PoolWorker τ → List τ
  | running t _ => [t]
  | _ => []

/-- The tasks that are left of `tasks`. -/
def rest : PoolWorker τ → List τ
  | batch tasks => tasks
  | running _ tasks => tasks
  | _ => []

/-- `notify_all`, as the worker sees it. -/
def notified : PoolWorker τ → PoolWorker τ
  | asleep => locking
  | w => w

end PoolWorker

/-- `AsyncPool`. -/
structure AsyncPool (τ : Type*) where
  /-- `m_tasks`. -/
  tasks : List τ := []
  worker : PoolWorker τ := .absent
  /-- The number of threads between the critical section of `enqueue` and `notify_all`. -/
  notifying : ℕ := 0
  log : List (Mark τ) := []

/-- The steps; a thread other than the worker is given by its number. -/
inductive PoolEvent (τ : Type*)
  /-- `AsyncPool::start`. -/
  | start
  /-- The critical section of `enqueue`, in a thread or in the task that runs. -/
  | enqueue (thread : Option ℕ) (t : τ)
  /-- `notify_all`. -/
  | notify
  /-- `m_cond.wait` wakes up without a reason. -/
  | wake
  /-- The critical section of `run`. -/
  | swap
  /-- `t()` is called. -/
  | call
  /-- `t()` returns. -/
  | ret
  /-- The end of the loop over `tasks`. -/
  | again

namespace AsyncPool

variable {τ : Type*}

/-- One step, if it is possible. -/
def step (s : AsyncPool τ) : PoolEvent τ → Option (AsyncPool τ)
  | .start =>
    match s.worker with
    | .absent => some { s with worker := .locking }
    -- `m_thread.joinable()`
    | _ => some s
  | .enqueue thread t =>
    match thread, s.worker with
    | some _, _ | none, .running _ _ =>
      some { s with tasks := s.tasks ++ [t], notifying := s.notifying + 1 }
    | none, _ => none
  | .notify =>
    if 0 < s.notifying then some { s with notifying := s.notifying - 1, worker := s.worker.notified } else none
  | .wake =>
    match s.worker with
    | .asleep => some { s with worker := .locking }
    | _ => none
  | .swap =>
    match s.worker with
    | .locking =>
      if s.tasks.isEmpty then some { s with worker := .asleep }
      else some { s with tasks := [], worker := .batch s.tasks }
    | _ => none
  | .call =>
    match s.worker with
    | .batch (t :: tasks) => some { s with worker := .running t tasks, log := s.log ++ [.began t] }
    | _ => none
  | .ret =>
    match s.worker with
    | .running t tasks => some { s with worker := .batch tasks, log := s.log ++ [.ended t] }
    | _ => none
  | .again =>
    match s.worker with
    | .batch [] => some { s with worker := .locking }
    | _ => none

/-- The tasks of the critical sections of `enqueue`, in their order. -/
def enqueued (es : List (PoolEvent τ)) : List τ :=
  es.filterMap fun
    | .enqueue _ t => some t
    | _ => none

/-- The log of tasks that run one after another. -/
def serial (done : List τ) : List (Mark τ) := done.flatMap fun t => [.began t, .ended t]

/-- **The tasks in the log are those of the queue**: it consists of calls that returned, of the first
tasks in their order, and maybe of the call of the next one. -/
def InOrder (enq : List τ) (log : List (Mark τ)) : Prop :=
  ∃ done current rest, current.length ≤ 1 ∧ enq = done ++ current ++ rest ∧
    log = serial done ++ current.map .began

/-- The steps of the worker. -/
def ofWorker : PoolEvent τ → Prop
  | .swap | .call | .ret | .again => True
  | _ => False

/-- `notify_all`. -/
def ofNotifier : PoolEvent τ → Prop
  | .notify => True
  | _ => False

/-- The endless runs. -/
abbrev PoolRun (τ : Type*) := Behaviour (@step τ) {}

/-- **The worker gets on**, a task that is called returns, and a thread that has put something into the
queue wakes the worker up. -/
def RunFairly (b : PoolRun τ) : Prop := b.Fair ofWorker ∧ b.Fair ofNotifier

/-! ## What a step does -/

/-- The steps, by what they do. -/
inductive Does (s : AsyncPool τ) : PoolEvent τ → AsyncPool τ → Prop
  | start (h : s.worker = .absent) : Does s .start { s with worker := .locking }
  | started (h : s.worker ≠ .absent) : Does s .start s
  | enqueue (thread : Option ℕ) (t : τ) :
      Does s (.enqueue thread t) { s with tasks := s.tasks ++ [t], notifying := s.notifying + 1 }
  | notify (h : 0 < s.notifying) :
      Does s .notify { s with notifying := s.notifying - 1, worker := s.worker.notified }
  | wake (h : s.worker = .asleep) : Does s .wake { s with worker := .locking }
  | sleep (h : s.worker = .locking) (hnil : s.tasks = []) : Does s .swap { s with worker := .asleep }
  | swap (h : s.worker = .locking) (hne : s.tasks ≠ []) :
      Does s .swap { s with tasks := [], worker := .batch s.tasks }
  | call {t : τ} {tasks : List τ} (h : s.worker = .batch (t :: tasks)) :
      Does s .call { s with worker := .running t tasks, log := s.log ++ [.began t] }
  | ret {t : τ} {tasks : List τ} (h : s.worker = .running t tasks) :
      Does s .ret { s with worker := .batch tasks, log := s.log ++ [.ended t] }
  | again (h : s.worker = .batch []) : Does s .again { s with worker := .locking }

variable {s s' : AsyncPool τ} {e : PoolEvent τ}

/-- **What a step does.** -/
theorem does_of_step (h : s.step e = some s') : Does s e s' := by
  cases e with
  | start =>
    simp only [step] at h
    split at h
    · next hw =>
      obtain rfl := Option.some.inj h
      exact .start hw
    · next hw =>
      obtain rfl := Option.some.inj h
      exact .started hw
  | enqueue thread t =>
    simp only [step] at h
    split at h
    · obtain rfl := Option.some.inj h
      exact .enqueue _ t
    · obtain rfl := Option.some.inj h
      exact .enqueue _ t
    · cases h
  | notify =>
    simp only [step] at h
    split_ifs at h with hn
    obtain rfl := Option.some.inj h
    exact .notify hn
  | wake =>
    simp only [step] at h
    split at h
    · next hw =>
      obtain rfl := Option.some.inj h
      exact .wake hw
    · cases h
  | swap =>
    simp only [step] at h
    split at h
    · next hw =>
      split_ifs at h with hnil
      · obtain rfl := Option.some.inj h
        exact .sleep hw (List.isEmpty_iff.mp hnil)
      · obtain rfl := Option.some.inj h
        exact .swap hw fun h => hnil (List.isEmpty_iff.mpr h)
    · cases h
  | call =>
    simp only [step] at h
    split at h
    · next hw =>
      obtain rfl := Option.some.inj h
      exact .call hw
    · cases h
  | ret =>
    simp only [step] at h
    split at h
    · next hw =>
      obtain rfl := Option.some.inj h
      exact .ret hw
    · cases h
  | again =>
    simp only [step] at h
    split at h
    · next hw =>
      obtain rfl := Option.some.inj h
      exact .again hw
    · cases h

/-! ## The order -/

/-- The task that is put into the queue by a step. -/
def newTask : PoolEvent τ → List τ
  | .enqueue _ t => [t]
  | _ => []

theorem enqueued_snoc (es : List (PoolEvent τ)) (e : PoolEvent τ) :
    enqueued (es ++ [e]) = enqueued es ++ newTask e := by
  unfold enqueued
  rw [List.filterMap_append]
  cases e <;> rfl

theorem serial_append (done done' : List τ) : serial (done ++ done') = serial done ++ serial done' :=
  List.flatMap_append

/-- **The invariant.** What was put into the queue is what has returned, what runs, what is left of the
worker's tasks and what is in the queue. -/
def Invariant (enq : List τ) (s : AsyncPool τ) : Prop :=
  ∃ done, enq = done ++ s.worker.current ++ (s.worker.rest ++ s.tasks) ∧
    s.log = serial done ++ s.worker.current.map .began

/-- A step that changes neither the log nor what is waiting. -/
theorem Invariant.of_eq {enq : List τ} (hinv : Invariant enq s) (hcur : s'.worker.current = s.worker.current)
    (hrest : s'.worker.rest ++ s'.tasks = s.worker.rest ++ s.tasks) (hlog : s'.log = s.log) :
    Invariant (enq ++ []) s' := by
  unfold Invariant
  rw [hcur, hrest, hlog, List.append_nil]
  exact hinv

theorem current_notified (w : PoolWorker τ) : w.notified.current = w.current := by
  cases w <;> rfl

theorem rest_notified (w : PoolWorker τ) : w.notified.rest = w.rest := by
  cases w <;> rfl

/-- **A step keeps the invariant.** -/
theorem Invariant.step {enq : List τ} (hinv : Invariant enq s) (h : s.step e = some s') :
    Invariant (enq ++ newTask e) s' := by
  cases does_of_step h with
  | start hw =>
    exact hinv.of_eq (by rw [hw]; rfl) (by rw [hw]; rfl) rfl
  | started hw => exact hinv.of_eq rfl rfl rfl
  | enqueue thread t =>
    obtain ⟨done, henq, hlog⟩ := hinv
    refine ⟨done, ?_, hlog⟩
    rw [henq, newTask, List.append_assoc _ _ [t], List.append_assoc _ _ [t]]
  | notify hn =>
    exact hinv.of_eq (current_notified _) (by rw [rest_notified]) rfl
  | wake hw =>
    exact hinv.of_eq (by rw [hw]; rfl) (by rw [hw]; rfl) rfl
  | sleep hw hnil =>
    exact hinv.of_eq (by rw [hw]; rfl) (by rw [hw]; rfl) rfl
  | swap hw hne =>
    refine hinv.of_eq (by rw [hw]; rfl) ?_ rfl
    rw [hw]
    exact List.append_nil _
  | @call t tasks hw =>
    show Invariant (enq ++ []) _
    rw [List.append_nil]
    obtain ⟨done, henq, hlog⟩ := hinv
    rw [hw] at henq hlog
    refine ⟨done, ?_, ?_⟩
    · rw [henq]
      simp [PoolWorker.current, PoolWorker.rest]
    · rw [hlog]
      simp [PoolWorker.current]
  | @ret t tasks hw =>
    show Invariant (enq ++ []) _
    rw [List.append_nil]
    obtain ⟨done, henq, hlog⟩ := hinv
    rw [hw] at henq hlog
    refine ⟨done ++ [t], ?_, ?_⟩
    · rw [henq]
      simp [PoolWorker.current, PoolWorker.rest]
    · rw [hlog, serial_append]
      simp [PoolWorker.current, serial]
  | again hw =>
    exact hinv.of_eq (by rw [hw]; rfl) (by rw [hw]; rfl) rfl

/-- **A run keeps the invariant.** -/
theorem invariant_of_runs {es : List (PoolEvent τ)} (h : Runs step {} es s) : Invariant (enqueued es) s := by
  induction es using List.reverseRecOn generalizing s with
  | nil =>
    cases h
    exact ⟨[], rfl, rfl⟩
  | append_singleton es e ih =>
    obtain ⟨r, hr, -, hstep⟩ := h.of_snoc
    rw [enqueued_snoc]
    exact (ih hr).step hstep

/-- **A run calls the tasks in order**, each of them once and one after another. -/
theorem runs_inOrder {es : List (PoolEvent τ)} (h : Runs step {} es s) : InOrder (enqueued es) s.log := by
  obtain ⟨done, henq, hlog⟩ := invariant_of_runs h
  refine ⟨done, s.worker.current, s.worker.rest ++ s.tasks, ?_, henq, hlog⟩
  cases s.worker <;> simp [PoolWorker.current]

/-! ## The end of a task -/

/-- The tasks that have returned. -/
def ended (log : List (Mark τ)) : List τ :=
  log.filterMap fun
    | .ended t => some t
    | .began _ => none

theorem ended_append (log log' : List (Mark τ)) : ended (log ++ log') = ended log ++ ended log' :=
  List.filterMap_append

theorem ended_serial (done : List τ) : ended (serial done) = done := by
  induction done with
  | nil => rfl
  | cons t done ih => exact congrArg (t :: ·) ih

theorem ended_map_began (l : List τ) : ended (l.map Mark.began) = [] := by
  induction l with
  | nil => rfl
  | cons t l ih => exact ih

/-- The tasks that have returned are the first ones of the queue. -/
theorem Invariant.ended {enq : List τ} (h : Invariant enq s) :
    enq = ended s.log ++ s.worker.current ++ (s.worker.rest ++ s.tasks) ∧
      s.log = serial (AsyncPool.ended s.log) ++ s.worker.current.map .began := by
  obtain ⟨done, henq, hlog⟩ := h
  have hdone : AsyncPool.ended s.log = done := by
    rw [hlog, ended_append, ended_serial, ended_map_began, List.append_nil]
  rw [hdone]
  exact ⟨henq, hlog⟩

/-- The number of tasks that have returned or are with the worker. -/
def taken (s : AsyncPool τ) : ℕ :=
  (ended s.log).length + s.worker.current.length + s.worker.rest.length

/-- **No wake-up is lost**: where the worker sleeps and there are tasks, somebody is about to wake it up. -/
def Awake (s : AsyncPool τ) : Prop := s.worker = .asleep → s.tasks ≠ [] → 0 < s.notifying

/-- The worker is there, and will find the task with the number `n`. -/
structure Expects (n : ℕ) (s : AsyncPool τ) : Prop where
  awake : Awake s
  present : s.worker ≠ .absent
  waits : n < taken s + s.tasks.length

/-- The steps of the worker until it takes the queue. -/
def phase : PoolWorker τ → ℕ
  | .absent => 0
  | .locking => 1
  | _ => 2

/-- The steps until the task with the number `n` has returned, where `done` have returned, `current` run
and `rest` are with the worker, and `steps` are left until it takes the queue. -/
def stepsLeft (n done current rest steps : ℕ) : ℕ :=
  2 * (n + 1 - done) - current + if n < done + current + rest then 0 else steps

/-- The worker comes nearer to the queue. -/
theorem stepsLeft_phase {n done steps steps' : ℕ} (hn : ¬ n < done) (h : steps' < steps) :
    stepsLeft n done 0 0 steps' < stepsLeft n done 0 0 steps := by
  unfold stepsLeft
  split_ifs <;> omega

/-- It takes the queue. -/
theorem stepsLeft_swap {n done tasks : ℕ} (hn : ¬ n < done) (h : n < done + tasks) :
    stepsLeft n done 0 tasks 2 < stepsLeft n done 0 0 1 := by
  unfold stepsLeft
  split_ifs <;> omega

theorem stepsLeft_call {n done rest : ℕ} (hn : ¬ n < done) :
    stepsLeft n done 1 rest 2 < stepsLeft n done 0 (rest + 1) 2 := by
  unfold stepsLeft
  split_ifs <;> omega

theorem stepsLeft_ret {n done rest : ℕ} (hn : ¬ n < done) :
    stepsLeft n (done + 1) 0 rest 2 < stepsLeft n done 1 rest 2 := by
  unfold stepsLeft
  split_ifs <;> omega

/-- The steps of the worker until the task with the number `n` has returned. -/
def rank (n : ℕ) (s : AsyncPool τ) : ℕ :=
  stepsLeft n (ended s.log).length s.worker.current.length s.worker.rest.length (phase s.worker)

theorem Awake.step (hs : Awake s) (h : s.step e = some s') : Awake s' := by
  intro hw hne
  cases does_of_step h with
  | start _ => cases hw
  | started _ => exact hs hw hne
  | enqueue thread t => exact Nat.succ_pos _
  | notify hn =>
    have hw' : s.worker.notified = .asleep := hw
    cases hold : s.worker <;> rw [hold] at hw' <;> cases hw'
  | wake _ => cases hw
  | sleep _ hnil => exact absurd hnil hne
  | swap _ _ => cases hw
  | call _ => cases hw
  | ret _ => cases hw
  | again _ => cases hw

theorem ended_began (log : List (Mark τ)) (t : τ) : ended (log ++ [.began t]) = ended log := by
  rw [ended_append]
  exact List.append_nil _

theorem length_ended_ended (log : List (Mark τ)) (t : τ) :
    (ended (log ++ [.ended t])).length = (ended log).length + 1 := by
  rw [ended_append, List.length_append]
  rfl

theorem present_step (hs : s.worker ≠ .absent) (h : s.step e = some s') : s'.worker ≠ .absent := by
  cases does_of_step h with
  | started _ => exact hs
  | enqueue thread t => exact hs
  | notify _ =>
    show s.worker.notified ≠ _
    cases hw : s.worker with
    | absent => exact absurd hw hs
    | _ => simp [PoolWorker.notified]
  | _ => simp

/-- No step loses a task. -/
theorem taken_add_step (h : s.step e = some s') :
    taken s + s.tasks.length ≤ taken s' + s'.tasks.length := by
  unfold taken
  cases does_of_step h with
  | started _ => exact Nat.le_refl _
  | enqueue thread t =>
    simp only [List.length_append]
    omega
  | notify _ =>
    simp only [current_notified, rest_notified]
    exact Nat.le_refl _
  | call hw =>
    simp only [hw, ended_began, PoolWorker.current, PoolWorker.rest, List.length_cons, List.length_nil]
    omega
  | ret hw =>
    simp only [hw, length_ended_ended, PoolWorker.current, PoolWorker.rest, List.length_cons, List.length_nil]
    omega
  | _ hw => simp [hw, PoolWorker.current, PoolWorker.rest]

theorem Expects.step {n : ℕ} (hs : Expects n s) (h : s.step e = some s') : Expects n s' where
  awake := hs.awake.step h
  present := present_step hs.present h
  waits := Nat.lt_of_lt_of_le hs.waits (taken_add_step h)

/-- The kind of steps that helps: somebody wakes up the worker, or it gets on. -/
def kindOf : Bool → PoolEvent τ → Prop
  | true => ofNotifier
  | false => ofWorker

/-- The worker sleeps. -/
def sleeps (s : AsyncPool τ) : Bool :=
  match s.worker with
  | .asleep => true
  | _ => false

/-- **The helpful step can be taken.** -/
theorem Expects.exists_step {n : ℕ} (hs : Expects n s) (hn : ¬ n < (ended s.log).length) :
    ∃ e, kindOf (sleeps s) e ∧ (s.step e).isSome := by
  have hwaits := hs.waits
  unfold taken at hwaits
  cases hw : s.worker with
  | absent => exact absurd hw hs.present
  | locking =>
    refine ⟨.swap, by rw [sleeps, hw]; trivial, ?_⟩
    rw [AsyncPool.step, hw]
    dsimp only
    split_ifs <;> rfl
  | asleep =>
    have hne : s.tasks ≠ [] := by
      intro hnil
      simp only [hw, hnil, PoolWorker.current, PoolWorker.rest, List.length_nil] at hwaits
      omega
    refine ⟨.notify, by rw [sleeps, hw]; trivial, ?_⟩
    rw [AsyncPool.step, if_pos (hs.awake hw hne)]
    rfl
  | batch tasks =>
    cases tasks with
    | nil =>
      refine ⟨.again, by rw [sleeps, hw]; trivial, ?_⟩
      rw [AsyncPool.step, hw]
      rfl
    | cons t tasks =>
      refine ⟨.call, by rw [sleeps, hw]; trivial, ?_⟩
      rw [AsyncPool.step, hw]
      rfl
  | running t tasks =>
    refine ⟨.ret, by rw [sleeps, hw]; trivial, ?_⟩
    rw [AsyncPool.step, hw]
    rfl

/-- **A step brings the task nearer to its end**, or it is not the helpful one. -/
theorem Expects.rank_step {n : ℕ} (hs : Expects n s) (hn : ¬ n < (ended s.log).length)
    (h : s.step e = some s') :
    n < (ended s'.log).length ∨ rank n s' < rank n s ∨
      (rank n s' = rank n s ∧ sleeps s' = sleeps s ∧ ¬ kindOf (sleeps s) e) := by
  have hwaits := hs.waits
  unfold taken at hwaits
  cases does_of_step h with
  | start hw => exact absurd hw hs.present
  | started _ =>
    refine .inr (.inr ⟨rfl, rfl, ?_⟩)
    cases sleeps s <;> exact id
  | enqueue thread t =>
    refine .inr (.inr ⟨rfl, rfl, ?_⟩)
    cases sleeps s <;> exact id
  | notify _ =>
    cases hw : s.worker with
    | asleep =>
      refine .inr (.inl ?_)
      simp only [rank, hw, PoolWorker.notified, PoolWorker.current, PoolWorker.rest, phase, List.length_nil]
      exact stepsLeft_phase hn Nat.one_lt_two
    | _ =>
      refine .inr (.inr ⟨?_, ?_, ?_⟩)
      · simp only [rank, hw, PoolWorker.notified]
      · simp only [sleeps, hw, PoolWorker.notified]
      · simp only [sleeps, hw]
        exact id
  | wake hw =>
    refine .inr (.inl ?_)
    simp only [rank, hw, PoolWorker.current, PoolWorker.rest, phase, List.length_nil]
    exact stepsLeft_phase hn Nat.one_lt_two
  | sleep hw hnil =>
    simp only [hw, hnil, PoolWorker.current, PoolWorker.rest, List.length_nil] at hwaits
    omega
  | swap hw _ =>
    refine .inr (.inl ?_)
    simp only [hw, PoolWorker.current, PoolWorker.rest, List.length_nil] at hwaits
    simp only [rank, hw, PoolWorker.current, PoolWorker.rest, phase, List.length_nil]
    exact stepsLeft_swap hn hwaits
  | call hw =>
    refine .inr (.inl ?_)
    simp only [rank, hw, ended_began, PoolWorker.current, PoolWorker.rest, phase, List.length_cons,
      List.length_nil]
    exact stepsLeft_call hn
  | ret hw =>
    refine .inr (.inl ?_)
    simp only [rank, hw, length_ended_ended, PoolWorker.current, PoolWorker.rest, phase, List.length_cons,
      List.length_nil]
    exact stepsLeft_ret hn
  | again hw =>
    refine .inr (.inl ?_)
    simp only [rank, hw, PoolWorker.current, PoolWorker.rest, phase, List.length_nil]
    exact stepsLeft_phase hn Nat.one_lt_two

variable {b : PoolRun τ}

/-- **A task comes to its end** if the worker is there and the task was put into the queue. -/
theorem eventually_ended (hfair : RunFairly b) {i n : ℕ} (hi : (b.state i).worker ≠ .absent)
    (hn : n < (enqueued (b.actions i)).length) : ∃ j, i ≤ j ∧ n < (ended (b.state j).log).length := by
  have hawake : Awake (b.state i) := by
    refine b.invariant (fun s e s' hs h => Awake.step hs h) (Nat.zero_le i) ?_
    rw [b.start]
    intro h
    cases h
  have hwaits : n < taken (b.state i) + (b.state i).tasks.length := by
    have henq := congrArg List.length (invariant_of_runs (b.runs i)).ended.1
    simp only [List.length_append] at henq
    unfold taken
    omega
  have hkinds : ∀ k, b.Fair (kindOf k) := by
    intro k
    cases k with
    | true => exact hfair.2
    | false => exact hfair.1
  have hkeep : ∀ (s : AsyncPool τ) e s', Expects n s → s.step e = some s' → Expects n s' :=
    fun s e s' hs h => hs.step h
  have hcan : ∀ s : AsyncPool τ, Expects n s → ¬ n < (ended s.log).length →
      ∃ e, kindOf (sleeps s) e ∧ (s.step e).isSome := fun s hs hgoal => hs.exists_step hgoal
  have hrank : ∀ (s : AsyncPool τ) e s', Expects n s → ¬ n < (ended s.log).length → s.step e = some s' →
      n < (ended s'.log).length ∨ rank n s' < rank n s ∨
        (rank n s' = rank n s ∧ sleeps s' = sleeps s ∧ ¬ kindOf (sleeps s) e) :=
    fun s e s' hs hgoal h => hs.rank_step hgoal h
  exact b.eventually hkinds hkeep hcan hrank ⟨hawake, hi, hwaits⟩

/-- **Every task that is put into the queue is run once, one after another and in the order of the critical
sections**: at any time the log begins with the first of them in this order, and where the worker was
started and gets on, the log has all of them at last. -/
theorem async_pool_runs_once_in_order (b : PoolRun τ) :
    (∀ i, InOrder (enqueued (b.actions i)) (b.state i).log) ∧
      (RunFairly b → (∃ k, (b.state k).worker ≠ .absent) →
        ∀ i, ∃ j, i ≤ j ∧ serial (enqueued (b.actions i)) <+: (b.state j).log) := by
  refine ⟨fun i => runs_inOrder (b.runs i), fun hfair hpresent i => ?_⟩
  obtain ⟨k, hk⟩ := hpresent
  -- the time from which on the worker is there and the tasks are in the queue
  have hworker : (b.state (max i k)).worker ≠ .absent :=
    b.invariant (fun s e s' hs h => present_step hs h) (Nat.le_max_right i k) hk
  have hbegin : ∀ {j}, i ≤ j → enqueued (b.actions i) <+: enqueued (b.actions j) := fun hj =>
    (b.actions_mono hj).filterMap _
  obtain ⟨j, hj, hlen⟩ : ∃ j, max i k ≤ j ∧
      (enqueued (b.actions i)).length ≤ (ended (b.state j).log).length := by
    cases hn : (enqueued (b.actions i)).length with
    | zero => exact ⟨max i k, Nat.le_refl _, Nat.zero_le _⟩
    | succ n =>
      refine eventually_ended hfair hworker ?_
      have := (hbegin (Nat.le_max_left i k)).length_le
      omega
  have hij : i ≤ j := Nat.le_trans (Nat.le_max_left i k) hj
  refine ⟨j, hij, ?_⟩
  obtain ⟨henq, hlog⟩ := (invariant_of_runs (b.runs j)).ended
  have hdone : enqueued (b.actions i) <+: ended (b.state j).log := by
    refine List.prefix_of_prefix_length_le (hbegin hij) ?_ hlen
    rw [henq, List.append_assoc]
    exact List.prefix_append _ _
  obtain ⟨more, hmore⟩ := hdone
  rw [hlog, ← hmore, serial_append, List.append_assoc]
  exact List.prefix_append _ _

/-- The worker sleeps, is woken up by a task of another thread, and runs it and the task that is put into
the queue by it. -/
def Sample.events : List (PoolEvent ℕ) :=
  [.start, .swap, .enqueue (some 3) 7, .notify, .swap, .call, .enqueue none 8, .notify, .ret, .again, .swap,
    .call, .ret, .again, .swap]

/-- The states of this run. -/
def Sample.state : ℕ → AsyncPool ℕ
  | 0 => {}
  | i + 1 =>
    match Sample.events[i]? with
    | none => Sample.state i
    | some e => ((Sample.state i).step e).getD (Sample.state i)

theorem Sample.state_last {j : ℕ} (h : 15 ≤ j) : Sample.state j = Sample.state 15 := by
  induction h with
  | refl => rfl
  | @step j hj ih =>
    have hnone : Sample.events[j]? = none := List.getElem?_eq_none hj
    rw [Sample.state, hnone]
    exact ih

/-- This run, after which nothing happens any more. -/
def Sample.poolRun : PoolRun ℕ where
  state := Sample.state
  action i := Sample.events[i]?
  start := rfl
  next i := by
    by_cases hi : i < 15
    · refine .inr ?_
      interval_cases i <;> exact ⟨_, rfl, rfl⟩
    · have hnone : Sample.events[i]? = none := List.getElem?_eq_none (Nat.not_lt.mp hi)
      refine .inl ⟨hnone, ?_⟩
      rw [Sample.state, hnone]

/-- After its last event nothing can be done by the worker, and nobody has to wake it up. -/
theorem Sample.runFairly : RunFairly Sample.poolRun := by
  have hstuck : ∀ e, ofWorker e ∨ ofNotifier e → (Sample.state 15).step e = none := by
    intro e he
    cases e with
    | start => exact he.elim False.elim False.elim
    | enqueue thread t => exact he.elim False.elim False.elim
    | wake => exact he.elim False.elim False.elim
    | _ => rfl
  have hfair : ∀ P : PoolEvent ℕ → Prop, (∀ e, P e → ofWorker e ∨ ofNotifier e) →
      Sample.poolRun.Fair P := by
    intro P hP i hcan
    obtain ⟨e, he, hsome⟩ := hcan (max i 15) (Nat.le_max_left i 15)
    have hnone : (Sample.poolRun.state (max i 15)).step e = none := by
      show (Sample.state (max i 15)).step e = none
      rw [Sample.state_last (Nat.le_max_right i 15)]
      exact hstuck e (hP e he)
    rw [hnone] at hsome
    cases hsome
  exact ⟨hfair _ fun e he => .inl he, hfair _ fun e he => .inr he⟩

theorem async_pool_runs_once_in_order_sample :
    ∃ j, serial [7, 8] <+: (Sample.poolRun.state j).log := by
  obtain ⟨j, -, hj⟩ :=
    (async_pool_runs_once_in_order Sample.poolRun).2 Sample.runFairly ⟨15, by rintro ⟨⟩⟩ 15
  exact ⟨j, hj⟩

end AsyncPool

end Stargazer
