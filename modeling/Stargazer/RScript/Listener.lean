import Stargazer.RScript.RemoteScript

set_option relaxedAutoImplicit false
set_option autoImplicit false

/-!
# The scripts of a router

`LISTENER` (`rscriptd/listener.cpp`) with its time-outs and its scripts.  One thread puts datagrams
into `pending`.  The other one takes up to 256 of them at a time, then disconnects the users nobody
has heard of for too long.  `Stop` disconnects everybody who is left; it leaves the list as it is.

`Connect` and `Disconnect` run a script only if its file can be executed (`access`) and `ScriptExec`
takes the command, which must be shorter than its buffer and find its way into the message queue.
Otherwise they complain in the log of the server, and nobody looks at their result: the list of users
goes on as if the script had been run.

## Main definitions

* `Stargazer.PendingData`, `Stargazer.AliveData`, `Stargazer.Listener` — the state.
* `Stargazer.ScriptEnv`, `Stargazer.ListenerConf` — what the system says, and the settings.
* `Stargazer.Listener.process`, `Stargazer.Listener.processPending`,
  `Stargazer.Listener.processTimeouts`, `Stargazer.Listener.stop` — the functions of the listener.
* `Stargazer.Listener.runs` — the scripts that were run for a login.
* `Stargazer.Listener.Disciplined` — what the scripts and the list should have to do with each other.
* `Stargazer.Listener.ConnectDiscipline` — the same for a whole run and the `Stop` behind it.
* `Stargazer.Listener.Executes`, `Stargazer.Listener.AllExecuted` — the scripts that should be run can
  be run.

## Main results

* `Stargazer.Listener.data_process` — without times and scripts this is `RSListener.process`.
* `Stargazer.Listener.core_run` — every datagram is processed once and in order.
* `Stargazer.Listener.Disciplined.turn_iff` — one turn.
* `Stargazer.Listener.connect_discipline_iff` — the runs in which scripts alternate, and `Stop` closes
  what is open.
-/

namespace Stargazer

/-- `PendingData`. -/
structure PendingData where
  /-- The kind of the datagram. -/
  type : RSPacketType
  /-- The data of the user. -/
  data : RSUserData
  /-- The login is a string of C, so there is no zero in it. -/
  notMem_login : 0 ∉ data.login

/-- `AliveData`. -/
structure AliveData where
  /-- The data of the user. -/
  data : RSUserData
  /-- When the user was heard of last. -/
  lastAlive : Time

/-- The scripts. -/
inductive Script
  /-- `scriptOnConnect`. -/
  | onConnect
  /-- `scriptOnDisconnect`. -/
  | onDisconnect
  deriving DecidableEq

/-- A run of a script. -/
structure ScriptRun where
  /-- The script. -/
  script : Script
  /-- The user it is run for. -/
  login : WireLogin
  /-- Its arguments. -/
  params : List Byte
  deriving DecidableEq

/-- `LISTENER`, with the scripts it has run. -/
structure Listener where
  /-- `users`. -/
  users : List AliveData := []
  /-- `pending`. -/
  pending : List PendingData := []
  /-- The scripts that were run. -/
  log : List ScriptRun := []

/-- What the system says when a script is to be run. -/
structure ScriptEnv where
  /-- `access(script, X_OK) == 0`. -/
  access : Bool
  /-- `msgsnd` puts the command into the queue of the executer. -/
  msgsnd : Bool

/-- The settings of `LISTENER`. -/
structure ListenerConf where
  /-- `scriptOnConnect`. -/
  scriptOnConnect : List Byte
  /-- `scriptOnDisconnect`. -/
  scriptOnDisconnect : List Byte
  /-- `userTimeout`. -/
  userTimeout : ℤ

/-- `ScriptExec`: is the command handed over?  Its buffer has `MAX_SCRIPT_LEN` bytes. -/
def scriptExec (env : ScriptEnv) (str : List Byte) : Bool :=
  if 1100 ≤ (cstr str).length then false else env.msgsnd

/-- `LISTENER::Connect`: the script that is run, if it is. -/
def PendingData.connect (conf : ListenerConf) (env : ScriptEnv) (pd : PendingData) :
    Option ScriptRun :=
  if env.access then
    if scriptExec env (conf.scriptOnConnect ++ 32 :: pd.data.params) then
      some ⟨.onConnect, pd.data.login, pd.data.params⟩
    else none
  else none

/-- `LISTENER::Disconnect`: the script that is run, if it is. -/
def AliveData.disconnect (conf : ListenerConf) (env : ScriptEnv) (ad : AliveData) :
    Option ScriptRun :=
  if env.access then
    if scriptExec env (conf.scriptOnDisconnect ++ 32 :: ad.data.params) then
      some ⟨.onDisconnect, ad.data.login, ad.data.params⟩
    else none
  else none

/-- The datagram without its login being a string. -/
def PendingData.packet (p : PendingData) : RSPacket :=
  ⟨p.type, p.data.ip, p.data.id, p.data.login, p.data.params⟩

namespace Listener

/-! ## The functions of the listener -/

/-- One turn of the loop of `LISTENER::ProcessPending`; `now` is the time during the turn. -/
def process (conf : ListenerConf) (now : Time) (env : ScriptEnv) (p : PendingData) (s : Listener) :
    Listener :=
  -- `std::lower_bound`
  let before := s.users.takeWhile fun u => u.data.login < p.data.login
  let rest := s.users.dropWhile fun u => u.data.login < p.data.login
  match p.type, rest with
  | .connect, [] =>
    { s with users := before ++ [⟨p.data, now⟩], log := s.log ++ (p.connect conf env).toList }
  | .connect, u :: us =>
    if u.data.login ≠ p.data.login then
      { s with
        users := before ++ ⟨p.data, now⟩ :: u :: us, log := s.log ++ (p.connect conf env).toList }
    else
      { s with users := before ++ ⟨{ u.data with params := p.data.params }, now⟩ :: us }
  | .alive, [] => s
  | .alive, u :: us =>
    if u.data.login = p.data.login then { s with users := before ++ ⟨u.data, now⟩ :: us } else s
  | .disconnect, [] => s
  | .disconnect, u :: us =>
    -- here the login is compared with `c_str()`
    if u.data.login = p.data.login.takeWhile (· ≠ 0) then
      let ad : AliveData := { u with data := { u.data with params := p.data.params } }
      { s with users := before ++ us, log := s.log ++ (ad.disconnect conf env).toList }
    else s

/-- The loop of `LISTENER::ProcessPending`: the datagrams that are left, and the listener.  `now`
gives the times of its turns, and `env` what the system says in them. -/
def processLoop (conf : ListenerConf) (now : ℕ → Time) (env : ℕ → ScriptEnv) :
    ℕ → List PendingData → Listener → List PendingData × Listener
  | _, [], s => ([], s)
  | count, p :: it, s =>
    if count < 256 then
      processLoop conf now env (count + 1) it (s.process conf (now count) (env count) p)
    else (p :: it, s)

/-- `LISTENER::ProcessPending`. -/
def processPending (conf : ListenerConf) (now : ℕ → Time) (env : ℕ → ScriptEnv) (s : Listener) :
    Listener :=
  let (it, s') := processLoop conf now env 0 s.pending s
  { s' with pending := it }

/-- The calls of `Disconnect` for some users, the first of them being the call `i`. -/
def disconnectAll (conf : ListenerConf) (env : ℕ → ScriptEnv) : ℕ → List AliveData → List ScriptRun
  | _, [] => []
  | i, u :: us => (u.disconnect conf (env i)).toList ++ disconnectAll conf env (i + 1) us

/-- The users `LISTENER::ProcessTimeouts` disconnects: those behind the partition. -/
def timedOut (conf : ListenerConf) (now : Time) (s : Listener) : List AliveData :=
  s.users.filter fun u => !decide (now - u.lastAlive < conf.userTimeout)

/-- `LISTENER::ProcessTimeouts`; the users are partitioned, those who stay first. -/
def processTimeouts (conf : ListenerConf) (now : Time) (env : ℕ → ScriptEnv) (s : Listener) :
    Listener :=
  { s with
    users := s.users.filter fun u => now - u.lastAlive < conf.userTimeout
    log := s.log ++ disconnectAll conf env 0 (s.timedOut conf now) }

/-- The end of `LISTENER::RecvPacket`. -/
def recvPacket (p : PendingData) (s : Listener) : Listener :=
  { s with pending := s.pending ++ [p] }

/-- The loop of `LISTENER::Stop` over the users. -/
def stop (conf : ListenerConf) (env : ℕ → ScriptEnv) (s : Listener) : Listener :=
  { s with log := s.log ++ disconnectAll conf env 0 s.users }

/-- What the threads do. -/
inductive Op
  /-- A datagram is queued. -/
  | recvPacket (p : PendingData)
  /-- A call of `ProcessPending`, with the times of its turns and what the system says in them. -/
  | processPending (now : ℕ → Time) (env : ℕ → ScriptEnv)
  /-- A call of `ProcessTimeouts`, with what the system says about each user it disconnects. -/
  | processTimeouts (now : Time) (env : ℕ → ScriptEnv)

/-- One step. -/
def step (conf : ListenerConf) (s : Listener) : Op → Listener
  | .recvPacket p => s.recvPacket p
  | .processPending now env => s.processPending conf now env
  | .processTimeouts now env => s.processTimeouts conf now env

/-- A listener after some steps. -/
def run (conf : ListenerConf) (ops : List Op) : Listener := ops.foldl (step conf) {}

/-! ## Without times and scripts -/

/-- The users without times. -/
def data (s : Listener) : List RSUserData := s.users.map AliveData.data

/-- The logins that are connected. -/
def logins (s : Listener) : List WireLogin := RSListener.logins s.data

/-- **Without times and scripts** a turn does what `RSListener.process` does. -/
theorem data_process (conf : ListenerConf) (now : Time) (env : ScriptEnv) (p : PendingData)
    (s : Listener) : (s.process conf now env p).data = RSListener.process s.data p.packet := by
  have hstr : p.data.login.takeWhile (· ≠ 0) = p.data.login := by
    refine List.takeWhile_eq_self_iff.mpr fun c hc => ?_
    exact decide_eq_true (ne_of_mem_of_not_mem hc p.notMem_login)
  have hbefore : s.data.takeWhile (fun d => d.login < p.packet.login) =
      (s.users.takeWhile fun u => u.data.login < p.data.login).map AliveData.data := by
    rw [data, List.takeWhile_map]
    rfl
  have hrest : s.data.dropWhile (fun d => d.login < p.packet.login) =
      (s.users.dropWhile fun u => u.data.login < p.data.login).map AliveData.data := by
    rw [data, List.dropWhile_map]
    rfl
  have hsplit : s.data = ((s.users.takeWhile fun u => u.data.login < p.data.login).map
      AliveData.data) ++ (s.users.dropWhile fun u => u.data.login < p.data.login).map
      AliveData.data := by
    rw [← List.map_append, List.takeWhile_append_dropWhile]
    rfl
  simp only [process, RSListener.process, hbefore, hrest, hstr]
  generalize s.users.takeWhile (fun u => u.data.login < p.data.login) = before at hsplit ⊢
  generalize s.users.dropWhile (fun u => u.data.login < p.data.login) = rest at hsplit ⊢
  obtain ⟨type, d, hd⟩ := p
  cases rest with
  | nil =>
    cases type with
    | connect => simp [data, PendingData.packet, RSListener.ofPacket]
    | alive => rfl
    | disconnect => rfl
  | cons u us =>
    cases type with
    | connect =>
      by_cases h : u.data.login = d.login <;>
        simp [data, PendingData.packet, RSListener.ofPacket, h]
    | alive =>
      simp only [PendingData.packet]
      split_ifs
      · rw [hsplit]
        simp [data]
      · rfl
    | disconnect =>
      by_cases h : u.data.login = d.login <;> simp [data, PendingData.packet, h]

/-- The `lower_bound` of a login that is connected is its own entry. -/
theorem mem_logins_iff {s : Listener} (hs : RSListener.Sorted s.data) (l : WireLogin) :
    l ∈ s.logins ↔ ∃ u us, s.users.dropWhile (fun u => u.data.login < l) = u :: us ∧
      u.data.login = l := by
  constructor
  · intro hl
    obtain ⟨before, rest, -, hrest, hsplit, hlt, hle⟩ := RSListener.Sorted.lowerBound hs l
    rw [data, List.dropWhile_map] at hrest
    obtain ⟨d, hd, rfl⟩ := List.mem_map.mp hl
    rw [hsplit] at hd
    rcases List.mem_append.mp hd with hd | hd
    · exact absurd (hlt d hd) (lt_irrefl _)
    · cases hdrop : s.users.dropWhile (fun u => u.data.login < d.login) with
      | nil =>
        have : rest = [] := by
          rw [← hrest]
          simpa using List.dropWhile_eq_nil_iff.mp hdrop
        rw [this] at hd
        cases hd
      | cons u us =>
        have hcons : rest = u.data :: us.map AliveData.data := by
          rw [← hrest, ← List.map_cons, ← hdrop]
          rfl
        refine ⟨u, us, rfl, ?_⟩
        have hsorted : rest.Pairwise fun a b => a.login < b.login := by
          rw [RSListener.Sorted, hsplit] at hs
          exact (List.pairwise_append.mp hs).2.1
        rw [hcons] at hd hsorted hle
        rcases List.mem_cons.mp hd with rfl | hd
        · rfl
        · have hlt' := (List.pairwise_cons.mp hsorted).1 d hd
          exact absurd (hle u.data List.mem_cons_self) (not_le.mpr hlt')
  · rintro ⟨u, us, hdrop, rfl⟩
    have hu : u ∈ s.users := (List.dropWhile_sublist _).mem (hdrop ▸ List.mem_cons_self)
    exact List.mem_map_of_mem (List.mem_map_of_mem hu)

end Listener

/-! ## Scripts that are run -/

/-- The script for disconnecting a user. -/
def AliveData.due (u : AliveData) : ScriptRun := ⟨.onDisconnect, u.data.login, u.data.params⟩

namespace ListenerConf

variable (conf : ListenerConf) (env : ScriptEnv)

/-- The file of a script. -/
def path : Script → List Byte
  | .onConnect => conf.scriptOnConnect
  | .onDisconnect => conf.scriptOnDisconnect

/-- A script can be run: its file can be executed, its command fits the buffer and the queue. -/
def Executes (r : ScriptRun) : Prop :=
  env.access = true ∧ (cstr (conf.path r.script ++ 32 :: r.params)).length < 1100 ∧
    env.msgsnd = true

instance (r : ScriptRun) : Decidable (conf.Executes env r) := inferInstanceAs (Decidable (_ ∧ _ ∧ _))

/-- A script is run if it can be. -/
def exec (r : ScriptRun) : Option ScriptRun := if conf.Executes env r then some r else none

/-- What `Connect` and `Disconnect` have in common. -/
theorem exec_eq (r : ScriptRun) :
    (if env.access then
      if scriptExec env (conf.path r.script ++ 32 :: r.params) then some r else none
    else none) = conf.exec env r := by
  simp only [exec, Executes, scriptExec, ← Nat.not_le]
  by_cases haccess : env.access = true
  · simp [haccess]
  · simp [haccess]

theorem connect_eq (p : PendingData) :
    p.connect conf env = conf.exec env ⟨.onConnect, p.data.login, p.data.params⟩ :=
  conf.exec_eq env ⟨.onConnect, p.data.login, p.data.params⟩

theorem disconnect_eq (u : AliveData) : u.disconnect conf env = conf.exec env u.due :=
  conf.exec_eq env u.due

end ListenerConf

namespace Listener

variable {conf : ListenerConf}

/-- The script that should be run for a datagram: there is one iff the datagram changes whether its
login is connected. -/
def due (s : Listener) (p : PendingData) : Option ScriptRun :=
  match p.type with
  | .connect =>
    if p.data.login ∈ s.logins then none else some ⟨.onConnect, p.data.login, p.data.params⟩
  | .alive => none
  | .disconnect =>
    if p.data.login ∈ s.logins then some ⟨.onDisconnect, p.data.login, p.data.params⟩ else none

variable (conf) in
/-- **The scripts of a turn.** -/
theorem log_process {s : Listener} (hs : RSListener.Sorted s.data) (now : Time) (env : ScriptEnv)
    (p : PendingData) :
    (s.process conf now env p).log = s.log ++ ((s.due p).bind (conf.exec env)).toList := by
  have hmem := mem_logins_iff hs p.data.login
  have hstr : p.data.login.takeWhile (· ≠ 0) = p.data.login := by
    refine List.takeWhile_eq_self_iff.mpr fun c hc => ?_
    exact decide_eq_true (ne_of_mem_of_not_mem hc p.notMem_login)
  simp only [process, due, hstr, conf.connect_eq, conf.disconnect_eq, AliveData.due]
  generalize s.users.takeWhile (fun u => u.data.login < p.data.login) = before
  generalize s.users.dropWhile (fun u => u.data.login < p.data.login) = rest at hmem ⊢
  obtain ⟨type, d, hd⟩ := p
  cases rest with
  | nil =>
    have hnot : d.login ∉ s.logins := by simpa using hmem
    cases type <;> simp [hnot]
  | cons u us =>
    have hiff : d.login ∈ s.logins ↔ u.data.login = d.login := by simpa using hmem
    by_cases h : u.data.login = d.login
    · cases type <;> simp [hiff, h]
    · cases type <;> simp [hiff, h]

/-! ## Scripts alternate -/

/-- The scripts that were run for a login. -/
def runs (l : WireLogin) (log : List ScriptRun) : List Script :=
  (log.filter fun r => r.login = l).map ScriptRun.script

/-- The scripts alternate, and the first one is that of a connect. -/
def Alternate (rs : List Script) : Prop :=
  ∀ i r, rs[i]? = some r → r = if i % 2 = 0 then .onConnect else .onDisconnect

theorem runs_append (l : WireLogin) (log log' : List ScriptRun) :
    runs l (log ++ log') = runs l log ++ runs l log' := by
  simp [runs]

@[simp] theorem runs_nil (l : WireLogin) : runs l [] = [] := rfl

@[simp] theorem runs_singleton (l : WireLogin) (r : ScriptRun) :
    runs l [r] = if r.login = l then [r.script] else [] := by
  by_cases h : r.login = l <;> simp [runs, h]

theorem alternate_nil : Alternate [] := by
  intro i r h
  cases h

/-- What may be run next. -/
theorem alternate_append_singleton {rs : List Script} {r : Script} :
    Alternate (rs ++ [r]) ↔
      Alternate rs ∧ r = if rs.length % 2 = 0 then .onConnect else .onDisconnect := by
  constructor
  · intro h
    refine ⟨fun i r' hi => h i r' ?_, h rs.length r (by simp)⟩
    obtain ⟨hlt, rfl⟩ := List.getElem?_eq_some_iff.mp hi
    rw [List.getElem?_append_left hlt, hi]
  · rintro ⟨h, hr⟩ i r' hi
    rcases lt_trichotomy i rs.length with hlt | rfl | hgt
    · rw [List.getElem?_append_left hlt] at hi
      exact h i r' hi
    · obtain rfl : r = r' := by simpa using hi
      exact hr
    · have hnone : (rs ++ [r])[i]? = none := List.getElem?_eq_none (by simp; omega)
      rw [hnone] at hi
      cases hi

/-- The last script is that of a connect iff their number is odd. -/
theorem Alternate.getLast?_iff {rs : List Script} (h : Alternate rs) :
    rs.getLast? = some .onConnect ↔ rs.length % 2 = 1 := by
  rcases List.eq_nil_or_concat rs with rfl | ⟨rs, r, rfl⟩
  · simp
  · rw [List.concat_eq_append] at h ⊢
    obtain ⟨-, hr⟩ := alternate_append_singleton.mp h
    rw [List.getLast?_append_cons, List.getLast?_singleton, Option.some.injEq, hr,
      List.length_append, List.length_singleton]
    rcases Nat.mod_two_eq_zero_or_one rs.length with h0 | h1
    · simp [h0]
      omega
    · simp [h1]
      omega

theorem Alternate.connect {rs : List Script} (h : Alternate rs)
    (hlast : rs.getLast? ≠ some .onConnect) : Alternate (rs ++ [.onConnect]) := by
  rw [ne_eq, h.getLast?_iff] at hlast
  exact alternate_append_singleton.mpr ⟨h, by rw [if_pos (by omega)]⟩

theorem Alternate.disconnect {rs : List Script} (h : Alternate rs)
    (hlast : rs.getLast? = some .onConnect) : Alternate (rs ++ [.onDisconnect]) := by
  rw [h.getLast?_iff] at hlast
  exact alternate_append_singleton.mpr ⟨h, by rw [if_neg (by omega)]⟩

/-- The invariant: the list is in order, the scripts of every login alternate, and the logins in the
list are those whose last script was that of a connect. -/
structure Disciplined (s : Listener) : Prop where
  /-- The list is strictly sorted. -/
  sorted : RSListener.Sorted s.data
  /-- The scripts alternate. -/
  alternate : ∀ l, Alternate (runs l s.log)
  /-- Who is connected. -/
  mem_logins : ∀ l, l ∈ s.logins ↔ (runs l s.log).getLast? = some .onConnect

theorem disciplined_empty : Disciplined {} where
  sorted := List.Pairwise.nil
  alternate _ := alternate_nil
  mem_logins _ := by simp [logins, data, RSListener.logins, runs]

/-- **What a datagram does for a login**, in scripts and in the list, if the script is run. -/
theorem Disciplined.runs_due {s : Listener} (h : s.Disciplined) (p : PendingData) (l : WireLogin) :
    Alternate (runs l s.log ++ runs l (s.due p).toList) ∧
      (RSListener.knows l (decide (l ∈ s.logins)) p.packet = true ↔
        (runs l s.log ++ runs l (s.due p).toList).getLast? = some .onConnect) := by
  by_cases hl : p.data.login = l
  · subst hl
    obtain ⟨type, d, hd⟩ := p
    have halt := h.alternate d.login
    by_cases hin : d.login ∈ s.logins
    · have hlast := (h.mem_logins d.login).mp hin
      cases type with
      | connect => simpa [due, hin, RSListener.knows, PendingData.packet] using ⟨halt, hlast⟩
      | alive => simpa [due, hin, RSListener.knows, PendingData.packet] using ⟨halt, hlast⟩
      | disconnect =>
        simpa [due, hin, RSListener.knows, PendingData.packet] using halt.disconnect hlast
    · have hlast := mt (h.mem_logins d.login).mpr hin
      cases type with
      | connect => simpa [due, hin, RSListener.knows, PendingData.packet] using halt.connect hlast
      | alive => simpa [due, hin, RSListener.knows, PendingData.packet] using ⟨halt, hlast⟩
      | disconnect => simpa [due, hin, RSListener.knows, PendingData.packet] using ⟨halt, hlast⟩
  · have hnone : runs l (s.due p).toList = [] := by
      unfold due
      cases p.type with
      | connect => split_ifs <;> simp [runs, hl]
      | alive => rfl
      | disconnect => split_ifs <;> simp [runs, hl]
    have hknows : RSListener.knows l (decide (l ∈ s.logins)) p.packet = decide (l ∈ s.logins) :=
      if_neg hl
    rw [hnone, List.append_nil, hknows, decide_eq_true_iff]
    exact ⟨h.alternate l, h.mem_logins l⟩

/-- **One datagram** keeps the scripts and the list together iff the script that should be run can be.

**Proof sketch.** If it is run, the scripts and the list change in step.  If it is not, the list changes
and the scripts do not. -/
theorem Disciplined.process_iff {s : Listener} (h : s.Disciplined) (now : Time) (env : ScriptEnv)
    (p : PendingData) :
    (s.process conf now env p).Disciplined ↔ ∀ r ∈ s.due p, conf.Executes env r := by
  obtain ⟨hsorted, hmem⟩ := RSListener.Sorted.process h.sorted p.packet
  rw [← data_process conf now env] at hsorted hmem
  have hlogins : ∀ l, l ∈ (s.process conf now env p).logins ↔
      RSListener.knows l (decide (l ∈ s.logins)) p.packet = true := hmem
  have hlog := log_process conf h.sorted now env p
  constructor
  · intro h' r hr
    by_contra hno
    have hsame : (s.process conf now env p).log = s.log := by
      rw [hlog, Option.mem_def.mp hr, Option.bind_some, ListenerConf.exec, if_neg hno,
        Option.toList_none, List.append_nil]
    have hboth : p.data.login ∈ (s.process conf now env p).logins ↔ p.data.login ∈ s.logins := by
      rw [h'.mem_logins, h.mem_logins, hsame]
    rw [hlogins] at hboth
    obtain ⟨type, d, hd⟩ := p
    by_cases hin : d.login ∈ s.logins <;> cases type <;>
      simp_all [due, RSListener.knows, PendingData.packet]
  · intro hexec
    have hrun : (s.due p).bind (conf.exec env) = s.due p := by
      cases hdue : s.due p with
      | none => rfl
      | some r => exact if_pos (hexec r hdue)
    rw [hrun] at hlog
    refine ⟨hsorted, fun l => ?_, fun l => ?_⟩
    · rw [hlog, runs_append]
      exact (h.runs_due p l).1
    · rw [hlogins, hlog, runs_append]
      exact (h.runs_due p l).2

/-- The scripts of some users can all be run, the first of them in the call `i`. -/
def AllExecute (conf : ListenerConf) (env : ℕ → ScriptEnv) : ℕ → List AliveData → Prop
  | _, [] => True
  | i, u :: us => conf.Executes (env i) u.due ∧ AllExecute conf env (i + 1) us

variable (conf) in
/-- No other login is disconnected. -/
theorem runs_disconnectAll_of_notMem {us : List AliveData} {l : WireLogin}
    (hl : l ∉ us.map fun u => u.data.login) (env : ℕ → ScriptEnv) (i : ℕ) :
    runs l (disconnectAll conf env i us) = [] := by
  induction us generalizing i with
  | nil => rfl
  | cons u us ih =>
    rw [List.map_cons, List.mem_cons, not_or] at hl
    rw [disconnectAll, runs_append, ih hl.2, List.append_nil, conf.disconnect_eq, ListenerConf.exec]
    split_ifs
    · simp [AliveData.due, Ne.symm hl.1]
    · rfl

/-- Distinct users are disconnected at most once. -/
theorem runs_disconnectAll_le {us : List AliveData} (h : (us.map fun u => u.data.login).Nodup)
    (env : ℕ → ScriptEnv) (i : ℕ) (l : WireLogin) :
    runs l (disconnectAll conf env i us) = [] ∨
      runs l (disconnectAll conf env i us) = [.onDisconnect] := by
  induction us generalizing i with
  | nil => exact .inl rfl
  | cons u us ih =>
    rw [List.map_cons, List.nodup_cons] at h
    rw [disconnectAll, runs_append, conf.disconnect_eq, ListenerConf.exec]
    split_ifs
    · by_cases hl : u.data.login = l
      · subst hl
        rw [runs_disconnectAll_of_notMem conf h.1, List.append_nil]
        exact .inr (by simp [AliveData.due])
      · have hnone : runs l (some u.due).toList = [] := by simp [AliveData.due, hl]
        rw [hnone, List.nil_append]
        exact ih h.2 (i + 1)
    · exact ih h.2 (i + 1)

/-- **Disconnecting some users** runs one script for each of them iff all these can be run. -/
theorem runs_disconnectAll_iff {us : List AliveData} (h : (us.map fun u => u.data.login).Nodup)
    (env : ℕ → ScriptEnv) (i : ℕ) :
    (∀ l, runs l (disconnectAll conf env i us) =
        if l ∈ us.map (fun u => u.data.login) then [.onDisconnect] else []) ↔
      AllExecute conf env i us := by
  induction us generalizing i with
  | nil => exact iff_of_true (fun l => rfl) trivial
  | cons u us ih =>
    rw [List.map_cons, List.nodup_cons] at h
    have hrest := runs_disconnectAll_of_notMem conf h.1 env (i + 1)
    have hfirst (l : WireLogin) : runs l (u.disconnect conf (env i)).toList =
        if u.data.login = l ∧ conf.Executes (env i) u.due then [.onDisconnect] else [] := by
      rw [conf.disconnect_eq, ListenerConf.exec]
      by_cases hexec : conf.Executes (env i) u.due
      · rw [if_pos hexec, Option.toList_some, runs_singleton]
        simp only [hexec, and_true]
        rfl
      · rw [if_neg hexec, if_neg fun h => hexec h.2]
        rfl
    rw [AllExecute, ← ih h.2]
    simp only [disconnectAll, runs_append, hfirst, List.map_cons, List.mem_cons]
    constructor
    · intro hall
      have hexec : conf.Executes (env i) u.due := by
        by_contra hno
        have := hall u.data.login
        rw [hrest] at this
        simp [hno] at this
      refine ⟨hexec, fun l => ?_⟩
      by_cases hl : u.data.login = l
      · subst hl
        rw [hrest, if_neg h.1]
      · have := hall l
        simpa [hl, Ne.symm hl] using this
    · rintro ⟨hexec, hall⟩ l
      by_cases hl : u.data.login = l
      · subst hl
        simp [hexec, hrest]
      · simpa [hl, Ne.symm hl] using hall l

/-- The logins of the list are distinct. -/
theorem Disciplined.nodup {s : Listener} (h : s.Disciplined) :
    (s.users.map fun u => u.data.login).Nodup := by
  have hpair := List.pairwise_map.mp h.sorted
  exact List.pairwise_map.mpr (hpair.imp fun hlt => ne_of_lt hlt)

/-- **Some users are disconnected**: their scripts still alternate, and those connected afterwards are
the others, iff the scripts can all be run. -/
theorem Disciplined.leave_iff {s : Listener} (h : s.Disciplined) {leave : List AliveData}
    (hsub : leave.Sublist s.users) (env : ℕ → ScriptEnv) :
    (∀ l, Alternate (runs l (s.log ++ disconnectAll conf env 0 leave)) ∧
        (l ∈ s.logins ∧ l ∉ leave.map (fun u => u.data.login) ↔
          (runs l (s.log ++ disconnectAll conf env 0 leave)).getLast? = some .onConnect)) ↔
      AllExecute conf env 0 leave := by
  have hmap : (leave.map fun u => u.data.login).Sublist (s.users.map fun u => u.data.login) :=
    hsub.map _
  have hin {l : WireLogin} (hl : l ∈ leave.map fun u => u.data.login) : l ∈ s.logins := by
    have := hmap.mem hl
    simpa [logins, data, RSListener.logins] using this
  rw [← runs_disconnectAll_iff (h.nodup.sublist hmap)]
  refine forall_congr' fun l => ?_
  rw [runs_append]
  by_cases hl : l ∈ leave.map fun u => u.data.login
  · rw [if_pos hl]
    have hlast := (h.mem_logins l).mp (hin hl)
    constructor
    · rintro ⟨halt, hiff⟩
      -- after a connect there is at most one more script
      have hne : (runs l s.log ++ runs l (disconnectAll conf env 0 leave)).getLast? ≠
          some .onConnect := fun hc => (hiff.mpr hc).2 hl
      rcases runs_disconnectAll_le (h.nodup.sublist hmap) env 0 l with hruns | hruns
      · rw [hruns, List.append_nil] at hne
        exact absurd hlast hne
      · exact hruns
    · intro hruns
      rw [hruns]
      exact ⟨(h.alternate l).disconnect hlast, by simp [hl]⟩
  · rw [if_neg hl, runs_disconnectAll_of_notMem conf hl, List.append_nil]
    exact iff_of_true ⟨h.alternate l, by rw [← h.mem_logins l]; simp [hl]⟩ rfl

variable (conf) in
/-- The logins that stay. -/
theorem Disciplined.mem_logins_processTimeouts {s : Listener} (h : s.Disciplined) (now : Time)
    (env : ℕ → ScriptEnv) (l : WireLogin) :
    l ∈ (s.processTimeouts conf now env).logins ↔
      l ∈ s.logins ∧ l ∉ (s.timedOut conf now).map fun u => u.data.login := by
  simp only [logins, data, RSListener.logins, Listener.processTimeouts, timedOut, List.map_map,
    List.mem_map, List.mem_filter, Function.comp_apply, not_exists, not_and]
  constructor
  · rintro ⟨u, ⟨hu, hin⟩, rfl⟩
    refine ⟨⟨u, hu, rfl⟩, fun u' hu' heq => ?_⟩
    obtain rfl := List.inj_on_of_nodup_map h.nodup hu'.1 hu heq
    simp_all
  · rintro ⟨⟨u, hu, rfl⟩, hout⟩
    refine ⟨u, ⟨hu, ?_⟩, rfl⟩
    by_contra hno
    exact hout u ⟨hu, by simpa using hno⟩ rfl

/-- **A call of `ProcessTimeouts`** keeps the scripts and the list together iff the scripts of the users
it disconnects can be run. -/
theorem Disciplined.processTimeouts_iff {s : Listener} (h : s.Disciplined) (now : Time)
    (env : ℕ → ScriptEnv) :
    (s.processTimeouts conf now env).Disciplined ↔
      AllExecute conf env 0 (s.timedOut conf now) := by
  have hsub : (s.timedOut conf now).Sublist s.users := List.filter_sublist
  rw [← h.leave_iff hsub env]
  have hmem := h.mem_logins_processTimeouts conf now env
  constructor
  · intro h' l
    rw [← hmem l]
    exact ⟨h'.alternate l, h'.mem_logins l⟩
  · intro hall
    refine ⟨h.sorted.sublist (List.filter_sublist.map _), fun l => (hall l).1, fun l => ?_⟩
    rw [hmem l]
    exact (hall l).2

/-! ## Datagrams one by one -/

/-- What is done about one datagram, or a call of `ProcessTimeouts`. -/
inductive Turn
  /-- A datagram is processed. -/
  | packet (now : Time) (env : ScriptEnv) (p : PendingData)
  /-- A call of `ProcessTimeouts`. -/
  | timeouts (now : Time) (env : ℕ → ScriptEnv)

/-- The datagram of a turn. -/
def Turn.packet? : Turn → Option PendingData
  | .packet _ _ p => some p
  | .timeouts _ _ => none

/-- One turn. -/
def turn (conf : ListenerConf) (s : Listener) : Turn → Listener
  | .packet now env p => s.process conf now env p
  | .timeouts now env => s.processTimeouts conf now env

/-- A listener after some turns. -/
def after (conf : ListenerConf) (ts : List Turn) : Listener := ts.foldl (turn conf) {}

/-- The turns of the loop of `ProcessPending`. -/
def loopTurns (now : ℕ → Time) (env : ℕ → ScriptEnv) : ℕ → List PendingData → List Turn
  | _, [] => []
  | count, p :: it =>
    if count < 256 then .packet (now count) (env count) p :: loopTurns now env (count + 1) it else []

/-- The turns of a step. -/
def stepTurns (s : Listener) : Op → List Turn
  | .recvPacket _ => []
  | .processPending now env => loopTurns now env 0 s.pending
  | .processTimeouts now env => [.timeouts now env]

/-- The turns of some steps. -/
def runTurns (conf : ListenerConf) : Listener → List Op → List Turn
  | _, [] => []
  | s, op :: ops => stepTurns s op ++ runTurns conf (s.step conf op) ops

/-- The datagram a step queues. -/
def Op.received? : Op → Option PendingData
  | .recvPacket p => some p
  | _ => none

/-- The listener without its queue. -/
def core (s : Listener) : Listener := { s with pending := [] }

/-- A turn does not look at the queue. -/
theorem core_process (now : Time) (env : ScriptEnv) (p : PendingData) (s : Listener) :
    (s.process conf now env p).core = s.core.process conf now env p := by
  simp only [process, core]
  cases p.type <;> cases s.users.dropWhile (fun u => u.data.login < p.data.login) <;>
    dsimp only <;> (try split_ifs) <;> rfl

/-- **The loop of `ProcessPending`** processes the datagrams one by one, and leaves the others. -/
theorem processLoop_eq (conf : ListenerConf) (now : ℕ → Time) (env : ℕ → ScriptEnv) (count : ℕ)
    (it : List PendingData) (s : Listener) :
    (processLoop conf now env count it s).2.core =
        (loopTurns now env count it).foldl (turn conf) s.core ∧
      (loopTurns now env count it).filterMap Turn.packet? ++
        (processLoop conf now env count it s).1 = it ∧
      (processLoop conf now env count it s).1 = it.drop (256 - count) := by
  induction it generalizing count s with
  | nil => simp [processLoop, loopTurns]
  | cons p it ih =>
    by_cases hcount : count < 256
    · obtain ⟨hcore, hpackets, hleft⟩ := ih (count + 1) (s.process conf (now count) (env count) p)
      have hdrop : 256 - count = (256 - (count + 1)) + 1 := by omega
      simp only [processLoop, loopTurns, if_pos hcount, List.foldl_cons, List.filterMap_cons,
        Turn.packet?, List.cons_append, hdrop, List.drop_succ_cons]
      refine ⟨?_, by rw [hpackets], hleft⟩
      rw [hcore, core_process]
      rfl
    · have hzero : 256 - count = 0 := by omega
      simp [processLoop, loopTurns, hcount, hzero]

/-- **One step** is its turns. -/
theorem core_step (conf : ListenerConf) (s : Listener) (op : Op) :
    (s.step conf op).core = (stepTurns s op).foldl (turn conf) s.core ∧
      (stepTurns s op).filterMap Turn.packet? ++ (s.step conf op).pending =
        s.pending ++ op.received?.toList := by
  cases op with
  | recvPacket p => exact ⟨rfl, rfl⟩
  | processPending now env =>
    obtain ⟨hcore, hpackets, -⟩ := processLoop_eq conf now env 0 s.pending s
    refine ⟨?_, ?_⟩
    · rw [stepTurns, ← hcore]
      rfl
    · exact hpackets.trans (List.append_nil _).symm
  | processTimeouts now env =>
    refine ⟨rfl, ?_⟩
    simp [stepTurns, Turn.packet?, Op.received?, step, processTimeouts]

/-- **Every datagram is processed once and in order**: whatever the steps are, the users and the
scripts are those of their turns, and the datagrams of the turns and of the queue are together those
that were queued.

**Proof sketch.** Induction on the steps, for any listener to start from. -/
theorem core_foldl_step (conf : ListenerConf) (ops : List Op) (s : Listener) :
    (ops.foldl (step conf) s).core = (runTurns conf s ops).foldl (turn conf) s.core ∧
      (runTurns conf s ops).filterMap Turn.packet? ++ (ops.foldl (step conf) s).pending =
        s.pending ++ ops.filterMap Op.received? := by
  induction ops generalizing s with
  | nil => exact ⟨rfl, (List.append_nil _).symm⟩
  | cons op ops ih =>
    obtain ⟨hcore, hpackets⟩ := core_step conf s op
    obtain ⟨hcore', hpackets'⟩ := ih (s.step conf op)
    refine ⟨?_, ?_⟩
    · rw [List.foldl_cons, hcore', hcore, runTurns, List.foldl_append]
    · rw [List.foldl_cons, runTurns, List.filterMap_append, List.append_assoc, hpackets',
        ← List.append_assoc, hpackets]
      cases h : op.received? <;> simp [h]

/-- The same for a whole run. -/
theorem core_run (conf : ListenerConf) (ops : List Op) :
    (run conf ops).core = after conf (runTurns conf {} ops) ∧
      (runTurns conf {} ops).filterMap Turn.packet? ++ (run conf ops).pending =
        ops.filterMap Op.received? :=
  core_foldl_step conf ops {}

/-- Calls of `ProcessPending` empty the queue, 256 datagrams at a time. -/
theorem pending_foldl_processPending (conf : ListenerConf)
    (calls : List ((ℕ → Time) × (ℕ → ScriptEnv))) (s : Listener) :
    ((calls.map fun c => Op.processPending c.1 c.2).foldl (step conf) s).pending =
      s.pending.drop (256 * calls.length) := by
  induction calls generalizing s with
  | nil => simp
  | cons c calls ih =>
    obtain ⟨-, -, hleft⟩ := processLoop_eq conf c.1 c.2 0 s.pending s
    rw [List.map_cons, List.foldl_cons, ih, List.length_cons]
    change (processLoop conf c.1 c.2 0 s.pending s).1.drop _ = _
    rw [hleft, List.drop_drop]
    congr 1
    omega

/-! ## Runs -/

/-- The scripts a turn should run can be run. -/
def Executes (conf : ListenerConf) (s : Listener) : Turn → Prop
  | .packet _ env p => ∀ r ∈ s.due p, conf.Executes env r
  | .timeouts now env => AllExecute conf env 0 (s.timedOut conf now)

/-- **One turn** keeps the scripts and the list together iff the scripts it should run can be run. -/
theorem Disciplined.turn_iff {s : Listener} (h : s.Disciplined) (t : Turn) :
    (s.turn conf t).Disciplined ↔ s.Executes conf t := by
  cases t with
  | packet now env p => exact h.process_iff now env p
  | timeouts now env => exact h.processTimeouts_iff now env

/-- The list stays in order, whatever the scripts do. -/
theorem sorted_turn {s : Listener} (h : RSListener.Sorted s.data) (t : Turn) :
    RSListener.Sorted (s.turn conf t).data := by
  cases t with
  | packet now env p =>
    rw [turn, data_process]
    exact (RSListener.Sorted.process h p.packet).1
  | timeouts now env => exact h.sublist (List.filter_sublist.map _)

theorem sorted_after (conf : ListenerConf) (ts : List Turn) :
    RSListener.Sorted (after conf ts).data := by
  induction ts using List.reverseRecOn with
  | nil => exact List.Pairwise.nil
  | append_singleton ts t ih =>
    rw [after, List.foldl_append]
    exact sorted_turn ih t

/-- **Any turns**: the scripts and the list stay together iff in each turn the scripts it should run
can be run.

**Proof sketch.** Induction on the turns; up to the last one they are together. -/
theorem disciplined_after_iff (conf : ListenerConf) (ts : List Turn) :
    (∀ ts', ts' <+: ts → (after conf ts').Disciplined) ↔
      ∀ ts' t, ts' ++ [t] <+: ts → (after conf ts').Executes conf t := by
  have hstep (ts' : List Turn) (t : Turn) :
      after conf (ts' ++ [t]) = (after conf ts').turn conf t := by
    simp [after]
  constructor
  · intro h ts' t hpre
    rw [← (h ts' ((List.prefix_append ts' [t]).trans hpre)).turn_iff, ← hstep]
    exact h _ hpre
  · intro h ts' hpre
    induction ts' using List.reverseRecOn with
    | nil => exact disciplined_empty
    | append_singleton ts' t ih =>
      rw [hstep, (ih ((List.prefix_append ts' [t]).trans hpre)).turn_iff]
      exact h ts' t hpre

/-! ## The discipline -/

/-- **The discipline of the scripts**, for steps and a `Stop` behind them, in which the system says
`env` about the scripts.  The list stays strictly sorted; the datagrams are processed in order and each
once, and enough calls process all; after every turn the scripts of every login alternate, a connect
first, and the login is in the list iff the last one was a connect; `Stop` runs one more script for
every login that is connected, so that nobody is left connected. -/
structure ConnectDiscipline (conf : ListenerConf) (ops : List Op) (env : ℕ → ScriptEnv) : Prop where
  /-- The list is strictly sorted after every turn. -/
  sorted : ∀ ts, ts <+: runTurns conf {} ops → RSListener.Sorted (after conf ts).data
  /-- The datagrams are processed in order. -/
  processed : (run conf ops).core = after conf (runTurns conf {} ops) ∧
    (runTurns conf {} ops).filterMap Turn.packet? ++ (run conf ops).pending =
      ops.filterMap Op.received?
  /-- Enough calls process all of them. -/
  drained : ∀ calls : List ((ℕ → Time) × (ℕ → ScriptEnv)),
    (run conf (ops ++ calls.map fun c => Op.processPending c.1 c.2)).pending =
      (run conf ops).pending.drop (256 * calls.length)
  /-- The scripts alternate. -/
  alternate : ∀ ts, ts <+: runTurns conf {} ops → ∀ l, Alternate (runs l (after conf ts).log)
  /-- Who is connected. -/
  mem_logins : ∀ ts, ts <+: runTurns conf {} ops → ∀ l,
    l ∈ (after conf ts).logins ↔ (runs l (after conf ts).log).getLast? = some .onConnect
  /-- `Stop`. -/
  stop : ∀ l, Alternate (runs l ((run conf ops).stop conf env).log) ∧
    runs l ((run conf ops).stop conf env).log = runs l (run conf ops).log ++
      (if l ∈ (run conf ops).logins then [.onDisconnect] else []) ∧
    (runs l ((run conf ops).stop conf env).log).getLast? ≠ some .onConnect

/-- The scripts that should be run, in the steps and by `Stop`, can all be run. -/
def AllExecuted (conf : ListenerConf) (ops : List Op) (env : ℕ → ScriptEnv) : Prop :=
  (∀ ts t, ts ++ [t] <+: runTurns conf {} ops → (after conf ts).Executes conf t) ∧
    AllExecute conf env 0 (run conf ops).users

/-- **The runs with this discipline**, for every sequence of datagrams, calls of `ProcessPending` and
calls of `ProcessTimeouts`, and a final `Stop`: those in which every script that should be run can be
run. -/
theorem connect_discipline_iff (conf : ListenerConf) (ops : List Op) (env : ℕ → ScriptEnv) :
    ConnectDiscipline conf ops env ↔ AllExecuted conf ops env := by
  obtain ⟨hcore, hpackets⟩ := core_run conf ops
  rw [AllExecuted, ← disciplined_after_iff]
  have hlogins : (run conf ops).logins = (run conf ops).users.map fun u => u.data.login := by
    simp [logins, data, RSListener.logins]
  constructor
  · intro h
    have hall : ∀ ts', ts' <+: runTurns conf {} ops → (after conf ts').Disciplined :=
      fun ts' hts => ⟨h.sorted ts' hts, h.alternate ts' hts, h.mem_logins ts' hts⟩
    have hlast : (run conf ops).core.Disciplined := hcore ▸ hall _ (List.prefix_refl _)
    have hnodup : ((run conf ops).users.map fun u => u.data.login).Nodup := hlast.nodup
    refine ⟨hall, (runs_disconnectAll_iff hnodup env 0).mp fun l => ?_⟩
    have hruns := (h.stop l).2.1
    rw [stop, runs_append, hlogins] at hruns
    exact List.append_cancel_left hruns
  · rintro ⟨hall, hstop⟩
    have hlast : (run conf ops).core.Disciplined := hcore ▸ hall _ (List.prefix_refl _)
    have hrun : (run conf ops).Disciplined := ⟨hlast.sorted, hlast.alternate, hlast.mem_logins⟩
    refine ⟨fun ts _ => sorted_after conf ts, ⟨hcore, hpackets⟩, fun calls => ?_,
      fun ts hts => (hall ts hts).alternate, fun ts hts => (hall ts hts).mem_logins, fun l => ?_⟩
    · rw [run, List.foldl_append]
      exact pending_foldl_processPending conf calls _
    · obtain ⟨halt, hiff⟩ := (hrun.leave_iff (List.Sublist.refl _) env).mpr hstop l
      refine ⟨halt, ?_, fun hc => ?_⟩
      · rw [stop, runs_append, (runs_disconnectAll_iff hrun.nodup env 0).mpr hstop, hlogins]
      · obtain ⟨hin, hout⟩ := hiff.mpr hc
        exact hout (hlogins ▸ hin)

/-- `OnConnect` is not there and `OnDisconnect` is: of the scripts for a user that connects and
disconnects only the second one is run. -/
theorem only_onDisconnect :
    let conf : ListenerConf := ⟨textBytes "OnConnect", textBytes "OnDisconnect", 60⟩
    let user : RSUserData := ⟨[97], 1, 1, textBytes "a"⟩
    let ops : List Op := [.recvPacket ⟨.connect, user, by decide⟩,
      .recvPacket ⟨.disconnect, user, by decide⟩,
      .processPending (fun _ => 0) fun count => ⟨count != 0, true⟩]
    runs [97] (run conf ops).log = [.onDisconnect] ∧
      ¬ ConnectDiscipline conf ops fun _ => ⟨true, true⟩ := by
  intro conf user ops
  have hruns : runs [97] (run conf ops).log = [.onDisconnect] := by decide +kernel
  refine ⟨hruns, fun h => ?_⟩
  have hlast := h.alternate _ (List.prefix_refl _) [97] 0 .onDisconnect
  rw [← h.processed.1] at hlast
  exact absurd (hlast (congrArg (·[0]?) hruns)) (by decide)

end Listener

end Stargazer
