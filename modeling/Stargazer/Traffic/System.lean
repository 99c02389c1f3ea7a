import Stargazer.Lib.Run
import Stargazer.Traffic.Counter
import Stargazer.Users.Counters

set_option relaxedAutoImplicit false
set_option autoImplicit false
set_option linter.unusedSectionVars false

/-!
# The traffic counter, the users and the queue between them

A change of the address of a user reaches the traffic counter through a queue
(`TraffCounterImpl::beforeIPChange`, `TraffCounterImpl::afterIPChange`, `async_pool.cpp`): the tasks
`DelUser` and `AddUser` run later, in order, and `AddUser` reads the address of its user only then.
Packets and flushes come in between.

The system is parametrized by a `Meter`, which says what the lengths in the counter are.  For
`Meter.code` they are the 32-bit words of the source.  Another meter may keep more than the word,
for instance which packets a length is the sum of; `TraffSystem.step_erase` says that this makes no
difference to what the system does.

## Main definitions

* `Stargazer.TraffSystem`, `Stargazer.TraffSystem.step` — the system and its steps.
* `Stargazer.Meter` — what lengths are.
* `Stargazer.TraffSystem.erase` — the system of the source behind a system with another meter.

## Main results

* `Stargazer.TraffSystem.step_erase`, `Stargazer.TraffSystem.reaches_erase` — steps and runs of a
  system are steps and runs of the source.
-/

namespace Stargazer

/-! ## The system -/

/-- A task in the queue of `AsyncPool`. -/
inductive Task
  /-- `AddUser(user)`. -/
  | addUser (id : UserId)
  /-- `DelUser(ip)`. -/
  | delUser (ip : IP)
  deriving DecidableEq

/-- What the lengths in a counter are. -/
structure Meter (L : Type) [AddCommMonoid L] where
  /-- The word of the source behind a length. -/
  word : L →+ BitVec 32
  /-- The length of a packet, given the users and the rules at the moment it is processed and the
  number of packets before it. -/
  stamp : UsersImpl → List Rule → ℕ → RawPacket → L
  /-- It is the length of the packet. -/
  word_stamp : ∀ users rules n p, word (stamp users rules n p) = p.getLen

/-- The words of the source. -/
def Meter.code : Meter (BitVec 32) where
  word := AddMonoidHom.id _
  stamp := fun _ _ _ p => p.getLen
  word_stamp := fun _ _ _ _ => rfl

/-- The users, the counter and the queue.  The last three fields are for the record only. -/
structure TraffSystem (L : Type) where
  /-- The users. -/
  users : UsersImpl
  /-- The counter. -/
  counter : TraffCounterImpl L
  /-- The queue. -/
  pool : List Task
  /-- `stgTime` at the last step of the counter. -/
  clock : Time
  /-- The lengths that have left the counter, and whether the user counted them. -/
  calls : List (StatCall L × Bool)
  /-- The lengths of all packets. -/
  received : L
  /-- The number of packets. -/
  seq : ℕ

/-- The remote address of the user at one end of a flow. -/
def FlowKey.remote (k : FlowKey) : Side → IP
  | .up => k.dstIP
  | .down => k.srcIP

namespace TraffSystem

/-- The steps. -/
inductive Action
  /-- `TraffCounterImpl::process`. -/
  | process (env : Env) (p : RawPacket)
  /-- `TraffCounterImpl::FlushAndRemove`. -/
  | flushAndRemove (env : Env)
  /-- `UsersImpl::Authorize`. -/
  | authorize (env : Env) (login : String) (ip : IP) (dirs : BitVec 32) (auth : AuthId)
  /-- `UsersImpl::Unauthorize`. -/
  | unauthorize (env : Env) (login : String) (auth : AuthId) (reason : String)
  /-- `UserImpl::Run` of one user. -/
  | runUser (env : Env) (id : UserId)
  /-- The next task of the queue. -/
  | runTask (env : Env)

variable {L : Type} [AddCommMonoid L]

/-- The user takes a length: `AddTraffStatU` or `AddTraffStatD`, if the direction is counted. -/
def addStat (M : Meter L) (env : Env) (s : TraffSystem L) (c : StatCall L) : TraffSystem L :=
  if h : c.dir < dirNum then
    let u := s.users.users c.user
    { s with
      users := s.users.setUser c.user
        (u.addTraffStat c.side env ⟨c.dir, h⟩ (c.key.remote c.side) (M.word c.len))
      calls := s.calls ++ [(c, u.counts)] }
  else { s with calls := s.calls ++ [(c, false)] }

/-- `TraffCounterImpl::beforeIPChange` and `TraffCounterImpl::afterIPChange`. -/
def notify (s : TraffSystem L) : Option CurrIPChange → TraffSystem L
  | none => s
  | some c =>
    { s with
      pool := s.pool ++ (if c.oldVal = 0 then [] else [.delUser c.oldVal]) ++
        (if c.newVal = 0 then [] else [.addUser c.user]) }

/-- One step; `none` is a failed assertion. -/
def step (M : Meter L) (s : TraffSystem L) : Action → Option (TraffSystem L)
  | .process env p =>
    let len := M.stamp s.users s.counter.rules s.seq p
    some { s with
      counter := s.counter.process env.stgTime s.users.ipIndex p.key len
      clock := env.stgTime
      received := s.received + len
      seq := s.seq + 1 }
  | .flushAndRemove env =>
    let r := s.counter.flushAndRemove env.stgTime
    some (r.2.foldl (addStat M env) { s with counter := r.1, clock := env.stgTime })
  | .authorize env login ip dirs auth =>
    (s.users.authorize env login ip dirs auth).map fun out =>
      { s with users := out.users }.notify out.change
  | .unauthorize env login auth reason =>
    (s.users.unauthorize env login auth reason).map fun out =>
      { s with users := out.users }.notify out.change
  | .runUser env id => some { s with users := s.users.setUser id ((s.users.users id).run env) }
  | .runTask env =>
    match s.pool with
    | [] => some s
    | .addUser id :: pool =>
      (s.counter.addUser id (s.users.users id).currIP).map fun counter =>
        { s with counter := counter, pool := pool }
    | .delUser ip :: pool =>
      let r := s.counter.delUser ip
      some (r.2.foldl (addStat M env) { s with counter := r.1, pool := pool })

/-- The server after start: nobody is authorized, the counter and the queue are empty. -/
def initial (users : UsersImpl) (rules : List Rule) (clock : Time) : TraffSystem L where
  users := users
  counter := ⟨rules, ∅, []⟩
  pool := []
  clock := clock
  calls := []
  received := 0
  seq := 0

end TraffSystem

/-! ## Erasing -/

section Erase

variable {L L' : Type} [AddCommMonoid L] [AddCommMonoid L'] (f : L →+ L')

/-- An entry with other lengths. -/
def PacketExtraData.map (e : PacketExtraData L) : PacketExtraData L' where
  flushTime := e.flushTime
  updateTime := e.updateTime
  side := fun d => ⟨(e.side d).user, (e.side d).dir, f (e.side d).len⟩

/-- A call with another length. -/
def StatCall.map (c : StatCall L) : StatCall L' := ⟨c.key, c.side, c.user, c.dir, f c.len⟩

/-- A counter with other lengths. -/
def TraffCounterImpl.map (s : TraffCounterImpl L) : TraffCounterImpl L' where
  rules := s.rules
  packets := s.packets.mapVal fun _ e => e.map f
  ip2packets := s.ip2packets

namespace PacketExtraData

theorem map_update (now : Time) (len : L) (e : PacketExtraData L) :
    (e.update now len).map f = (e.map f).update now (f len) := by
  simp [update, map]

theorem map_flush (now : Time) (e : PacketExtraData L) :
    (e.flush now).map f = (e.map f).flush now := by
  have hdue : (e.map f).flushDue now = e.flushDue now := rfl
  have hany : (e.map f).anyPresent = e.anyPresent := rfl
  simp only [flush, hdue, hany]
  by_cases h : e.flushDue now = true
  · rw [if_pos h, if_pos h]
    refine congrArg (PacketExtraData.mk _ _) (funext fun d => ?_)
    cases hu : (e.side d).user <;> simp [map, hu]
  · rw [if_neg h, if_neg h]

theorem map_assign (id : UserId) (uip : IP) (k : FlowKey) (e : PacketExtraData L) :
    (e.assign id uip k).map f = (e.map f).assign id uip k := by
  simp only [assign, map, mk.injEq, true_and]
  exact funext fun d => by split_ifs <;> simp

theorem map_clear (uip : IP) (k : FlowKey) (e : PacketExtraData L) :
    (e.clear uip k).map f = (e.map f).clear uip k := by
  simp only [clear, map, mk.injEq, true_and]
  exact funext fun d => by split_ifs <;> simp

theorem map_statCalls (k : FlowKey) (p : Side → Bool) (e : PacketExtraData L) :
    (e.statCalls k p).map (StatCall.map f) = (e.map f).statCalls k p := by
  simp only [statCalls, List.flatMap_cons, List.flatMap_nil, List.append_nil, List.map_append]
  congr 1 <;> split_ifs <;> simp [map, StatCall.map, Function.comp_def]

end PacketExtraData

namespace TraffCounterImpl

theorem map_process (now : Time) (find : IP → Option UserId) (k : FlowKey) (len : L)
    (s : TraffCounterImpl L) :
    (s.process now find k len).map f = (s.map f).process now find k (f len) := by
  unfold process
  have hlookup : (s.map f).packets.lookup k = (s.packets.lookup k).map fun e => e.map f := by
    simp [map]
  rw [hlookup]
  cases hl : s.packets.lookup k with
  | some e =>
    simp only [Option.map_some, map, mk.injEq, true_and, and_true]
    exact AList.mapVal_adjust (f := fun _ e => PacketExtraData.map f e)
      (PacketExtraData.map_update f now len) s.packets
  | none =>
    have hnew : (PacketExtraData.new s.rules now find k len).map f =
        PacketExtraData.new s.rules now find k (f len) := rfl
    have hany : (PacketExtraData.new s.rules now find k (f len)).anyPresent =
        (PacketExtraData.new s.rules now find k len).anyPresent := rfl
    simp only [Option.map_none, show (s.map f).rules = s.rules from rfl, hany]
    split_ifs
    · simp only [map, mk.injEq, true_and, and_true]
      rw [AList.mapVal_insert _ _ hl, hnew]
    · rfl

theorem map_flushAndRemove (now : Time) (s : TraffCounterImpl L) :
    (s.map f).flushAndRemove now =
      ((s.flushAndRemove now).1.map f, (s.flushAndRemove now).2.map (StatCall.map f)) := by
  have hpackets : ((s.packets.mapVal fun _ e => e.map f).mapVal fun _ e => e.flush now).filterVal
      (fun _ e => e.recent now) = ((s.packets.mapVal fun _ e => e.flush now).filterVal
        fun _ e => e.recent now).mapVal fun _ e => e.map f := by
    rw [AList.mapVal_filterVal (f := fun _ e => PacketExtraData.map f e)
      (p := fun _ e => e.recent now) (q := fun _ e => e.recent now) (fun _ _ => rfl),
      AList.mapVal_mapVal, AList.mapVal_mapVal]
    simp only [PacketExtraData.map_flush]
  have hcalls : ((s.packets.mapVal fun _ e => e.map f).entries.flatMap fun e =>
      e.2.flushCalls now e.1) =
        (s.packets.entries.flatMap fun e => e.2.flushCalls now e.1).map (StatCall.map f) := by
    simp only [AList.mapVal, List.flatMap_map, List.map_flatMap]
    refine List.flatMap_congr fun e _ => ?_
    simp only [PacketExtraData.flushCalls, Sigma.map,
      show (e.2.map f).flushDue now = e.2.flushDue now from rfl]
    split_ifs
    · exact (PacketExtraData.map_statCalls ..).symm
    · rfl
  simp only [flushAndRemove, map, hpackets, hcalls, AList.keys_mapVal]

theorem map_addUserAt (id : UserId) (uip : IP) (k : FlowKey) (s : TraffCounterImpl L) :
    addUserAt id uip (s.map f) k = (addUserAt id uip s k).map (map f) := by
  unfold addUserAt
  have hlookup : (s.map f).packets.lookup k = (s.packets.lookup k).map fun e => e.map f := by
    simp [map]
  rw [hlookup]
  cases s.packets.lookup k with
  | none => rfl
  | some e =>
    simp only [Option.map_some, PacketExtraData.map]
    split_ifs
    · simp only [map, Option.map_some, Option.some.injEq, mk.injEq, true_and, and_true]
      exact (AList.mapVal_adjust (f := fun _ e => PacketExtraData.map f e)
        (PacketExtraData.map_assign f id uip k) s.packets).symm
    · rfl

theorem map_addUser (id : UserId) (uip : IP) (s : TraffCounterImpl L) :
    (s.map f).addUser id uip = (s.addUser id uip).map (map f) := by
  have hfold : ∀ (ks : List FlowKey) (s : TraffCounterImpl L),
      ks.foldlM (addUserAt id uip) (s.map f) =
        (ks.foldlM (addUserAt id uip) s).map (map f) := by
    intro ks
    induction ks with
    | nil => intro s; rfl
    | cons k ks ih =>
      intro s
      rw [List.foldlM_cons, List.foldlM_cons, map_addUserAt]
      cases addUserAt id uip s k with
      | none => rfl
      | some s' => exact ih s'
  exact hfold _ s

theorem map_delUser (uip : IP) (s : TraffCounterImpl L) :
    (s.map f).delUser uip = ((s.delUser uip).1.map f, (s.delUser uip).2.map (StatCall.map f)) := by
  have hround : ∀ (k : FlowKey) (r : TraffCounterImpl L × List (StatCall L)),
      delUserAt uip (r.1.map f, r.2.map (StatCall.map f)) k =
        ((delUserAt uip r k).1.map f, (delUserAt uip r k).2.map (StatCall.map f)) := by
    intro k r
    unfold delUserAt
    have hlookup : (r.1.map f).packets.lookup k =
        (r.1.packets.lookup k).map fun e => e.map f := by simp [map]
    dsimp only
    rw [hlookup]
    cases r.1.packets.lookup k with
    | none => rfl
    | some e =>
      simp only [Option.map_some, map, List.map_append, PacketExtraData.map_statCalls]
      rw [AList.mapVal_adjust (f := fun _ e => PacketExtraData.map f e)
        (PacketExtraData.map_clear f uip k)]
  have hfold : ∀ (ks : List FlowKey) (r : TraffCounterImpl L × List (StatCall L)),
      ks.foldl (delUserAt uip) (r.1.map f, r.2.map (StatCall.map f)) =
        ((ks.foldl (delUserAt uip) r).1.map f,
          (ks.foldl (delUserAt uip) r).2.map (StatCall.map f)) := by
    intro ks
    induction ks with
    | nil => intro r; rfl
    | cons k ks ih =>
      intro r
      rw [List.foldl_cons, List.foldl_cons, hround]
      exact ih _
  exact hfold _ (s, [])

end TraffCounterImpl

end Erase

namespace TraffSystem

variable {L : Type} [AddCommMonoid L] (M : Meter L)

/-- The system of the source behind a system: every length is replaced by its word. -/
def erase (s : TraffSystem L) : TraffSystem (BitVec 32) where
  users := s.users
  counter := s.counter.map M.word
  pool := s.pool
  clock := s.clock
  calls := s.calls.map fun c => (c.1.map M.word, c.2)
  received := M.word s.received
  seq := s.seq

theorem erase_addStat (env : Env) (s : TraffSystem L) (c : StatCall L) :
    (addStat M env s c).erase M = addStat .code env (s.erase M) (c.map M.word) := by
  have hdir : (c.map M.word).dir = c.dir := rfl
  unfold addStat
  simp only [hdir]
  split_ifs <;> simp [erase, StatCall.map, Meter.code]

theorem erase_foldl_addStat (env : Env) (cs : List (StatCall L)) (s : TraffSystem L) :
    (cs.foldl (addStat M env) s).erase M =
      (cs.map (StatCall.map M.word)).foldl (addStat .code env) (s.erase M) := by
  induction cs generalizing s with
  | nil => rfl
  | cons c cs ih => rw [List.foldl_cons, ih, erase_addStat, List.map_cons, List.foldl_cons]

theorem erase_notify (s : TraffSystem L) (c : Option CurrIPChange) :
    (s.notify c).erase M = (s.erase M).notify c := by
  cases c <;> rfl

/-- **A step of a system is a step of the source.** -/
theorem step_erase (s : TraffSystem L) (a : Action) :
    (s.erase M).step .code a = (s.step M a).map (erase M) := by
  cases a with
  | process env p =>
    have hcounter := TraffCounterImpl.map_process M.word env.stgTime s.users.ipIndex p.key
      (M.stamp s.users s.counter.rules s.seq p) s.counter
    rw [M.word_stamp] at hcounter
    simp [step, erase, Meter.code, hcounter, M.word_stamp]
  | flushAndRemove env =>
    simp only [step, Option.map_some, erase_foldl_addStat]
    simp only [erase, TraffCounterImpl.map_flushAndRemove]
  | authorize env login ip dirs auth =>
    simp only [step, Option.map_map]
    congr 1
    funext out
    exact (erase_notify M { s with users := out.users } out.change).symm
  | unauthorize env login auth reason =>
    simp only [step, Option.map_map]
    congr 1
    funext out
    exact (erase_notify M { s with users := out.users } out.change).symm
  | runUser env id => rfl
  | runTask env =>
    simp only [step, show (s.erase M).pool = s.pool from rfl]
    cases s.pool with
    | nil => rfl
    | cons task pool =>
      cases task with
      | addUser id =>
        have hcounter := TraffCounterImpl.map_addUser M.word id (s.users.users id).currIP s.counter
        simp only [show (s.erase M).counter = s.counter.map M.word from rfl,
          show (s.erase M).users = s.users from rfl, hcounter, Option.map_map]
        rfl
      | delUser ip =>
        simp only [Option.map_some, erase_foldl_addStat]
        simp only [erase, TraffCounterImpl.map_delUser]

/-- **The runs of a system are the runs of the source.**

**Proof sketch.** Induction on the actions, with `step_erase`. -/
theorem reaches_erase (s : TraffSystem L) (as : List Action) (t' : TraffSystem (BitVec 32)) :
    Transition.Runs (step .code) (s.erase M) as t' ↔
      ∃ t, Transition.Runs (step M) s as t ∧ t.erase M = t' := by
  induction as generalizing s with
  | nil =>
    constructor
    · intro h
      cases h
      exact ⟨s, .nil s, rfl⟩
    · rintro ⟨t, h, rfl⟩
      cases h
      exact .nil _
  | cons a as ih =>
    constructor
    · intro h
      cases h with
      | cons _ hs hrest =>
        rw [step_erase, Option.map_eq_some_iff] at hs
        obtain ⟨s', hs, rfl⟩ := hs
        obtain ⟨t, ht, rfl⟩ := (ih s').mp hrest
        exact ⟨t, .cons trivial hs ht, rfl⟩
    · rintro ⟨t, h, rfl⟩
      cases h with
      | @cons _ s' _ _ _ _ hs hrest =>
        exact .cons trivial (by rw [step_erase, hs]; rfl) ((ih s').mpr ⟨t, hrest, rfl⟩)

end TraffSystem

end Stargazer
