import Stargazer.Lib.LockTrace
import Stargazer.Users.UsersImpl

set_option relaxedAutoImplicit false
set_option autoImplicit false

/-!
# The mutexes of users

Every `UserImpl` has a mutex, and `UsersImpl` has one; none of them may be locked twice by a
thread.  The operations of the two classes call each other, so whether an operation locks a mutex
it already holds depends on the state: whether the statistics are due, the credit has expired, the
user is authorized.

Each operation is given by its scopes (`LockTrace.LockProg`), following the calls the source makes;
the conditions are those of the model of the operation.  Getters that take no mutex, the mutexes of
other classes and the mutex inside a property are left out.  An assertion that fails ends the call.

## Main definitions

* `Stargazer.Mutex` — the mutexes.
* `Stargazer.UserOp.prog`, `Stargazer.UsersOp.prog` — the scopes of the public operations.
* `Stargazer.UserOp.Clean`, `Stargazer.UsersOp.Clean` — when an operation locks no mutex twice.

## Main results

* `Stargazer.LockOp.selfFree_iff` — for every operation in every state: its trace acquires no mutex
  it holds iff the condition is met.
-/

namespace Stargazer

open LockTrace

/-- The mutexes. -/
inductive Mutex
  /-- `UserImpl::m_mutex` of a user. -/
  | user (id : UserId)
  /-- `UsersImpl::m_mutex`. -/
  | users
  deriving DecidableEq

/-- The scopes of an operation of a user that holds the user's mutex throughout and calls nothing
that takes a mutex. -/
def guarded (id : UserId) : LockProg Mutex := .scope (.user id) .skip

/-- The same for an operation of `UsersImpl`. -/
def guardedUsers : LockProg Mutex := .scope .users .skip

/-! ## Operations of a user -/

/-- The operations of `UserImpl` that take a mutex, with the parameters that decide which. -/
inductive UserOp
  /-- `SetLogin`. -/
  | setLogin
  /-- `ReadConf`. -/
  | readConf
  /-- `ReadStat`. -/
  | readStat
  /-- `WriteConf`. -/
  | writeConf
  /-- `WriteStat`. -/
  | writeStat
  /-- `WriteMonthStat`. -/
  | writeMonthStat
  /-- `WriteDetailStat(hard)`: do the writes of the saved and of the current statistics fail? -/
  | writeDetailStat (hard savedFails currentFails : Bool)
  /-- `GetPassiveTimePart`. -/
  | getPassiveTimePart
  /-- `SetPassiveTimeAsNewUser`. -/
  | setPassiveTimeAsNewUser
  /-- `AddTraffStatU` and `AddTraffStatD`. -/
  | addTraffStat (side : Side)
  /-- `Authorize`. -/
  | authorize (ip : IP) (auth : AuthId)
  /-- `Unauthorize`. -/
  | unauthorize (auth : AuthId)
  /-- `IsAuthorizedBy`. -/
  | isAuthorizedBy
  /-- `GetAuthorizers`. -/
  | getAuthorizers
  /-- `AddMessage`. -/
  | addMessage
  /-- `UpdatePingTime`. -/
  | updatePingTime
  /-- `Run`. -/
  | run
  /-- `MidnightResetSessionStat`. -/
  | midnightResetSessionStat
  /-- `ProcessDayFee`. -/
  | processDayFee
  /-- `ProcessDayFeeSpread`. -/
  | processDayFeeSpread
  /-- `ProcessNewMonth`. -/
  | processNewMonth
  /-- `ProcessDailyFee`. -/
  | processDailyFee
  /-- `ProcessServices`. -/
  | processServices
  /-- `OnAdd`. -/
  | onAdd
  /-- `OnDelete`. -/
  | onDelete
  /-- A change of `cash`; its callback takes no mutex. -/
  | setCash
  /-- A change of `passive`, with `onPassiveChange`. -/
  | setPassive
  /-- A change of `disabled`, with `onDisabledChange`. -/
  | setDisabled
  /-- A change of `tariffName`, with `onTariffChange`. -/
  | setTariffName
  /-- A change of `ips`, with `onIPChange`. -/
  | setIps

namespace UserOp

/-- `UserImpl::Authorize` asks `UsersImpl` about the address: `FindByIPIdx` or `IsIPInIndex`. -/
def AsksIndex (u : UserImpl) (ip : IP) (auth : AuthId) : Prop :=
  auth ∉ u.authorizedBy ∧ ip ≠ 0 ∧ (u.authorizedBy = ∅ ∨ u.currIP = ip)

instance (u : UserImpl) (ip : IP) (auth : AuthId) : Decidable (AsksIndex u ip auth) :=
  inferInstanceAs (Decidable (_ ∧ _ ∧ (_ ∨ _)))

/-- `UserImpl::Authorize`. -/
def authorizeProg (id : UserId) (u : UserImpl) (ip : IP) (auth : AuthId) : LockProg Mutex :=
  .scope (.user id) (.when (AsksIndex u ip auth) guardedUsers)

/-- `UserImpl::Run`: `WriteStat` and `WriteConf` are called with the mutex held. -/
def runProg (env : Env) (id : UserId) (u : UserImpl) : LockProg Mutex :=
  .scope (.user id)
    (.seq (.when (u.statDue env) (guarded id)) (.when (u.creditExpired env) (guarded id)))

/-- The part of `UserImpl::ProcessNewMonth` that changes the tariff: `tariffName.Set` runs
`onTariffChange`, and `WriteConf` follows.  A user without a tariff is a null dereference. -/
def newTariffProg (env : Env) (id : UserId) (u : UserImpl) : LockProg Mutex :=
  match env.tariffs u.nextTariff, u.tariff with
  | none, _ => guarded id
  | some _, none => .skip
  | some nt, some t =>
    .seq (.when (t.tariffChangeIsAllowed nt env.stgTime = "") (guarded id)) (guarded id)

/-- `UserImpl::ProcessNewMonth`: `WriteMonthStat` is called with the mutex held. -/
def processNewMonthProg (env : Env) (id : UserId) (u : UserImpl) : LockProg Mutex :=
  .scope (.user id) (.seq (guarded id) (.when (u.nextTariff ≠ "") (newTariffProg env id u)))

/-- `UserImpl::WriteDetailStat`: the mutex is held while the statistics are taken, and again while
they are queued for another try. -/
def writeDetailStatProg (id : UserId) (hard savedFails currentFails : Bool) : LockProg Mutex :=
  .when (savedFails = false)
    (.seq (guarded id) (.when (currentFails = true ∧ hard = false) (guarded id)))

/-- The scopes of an operation of the user `id` in the state `u`. -/
def prog (env : Env) (id : UserId) (u : UserImpl) : UserOp → LockProg Mutex
  | .authorize ip auth => authorizeProg id u ip auth
  | .run => runProg env id u
  | .processNewMonth => processNewMonthProg env id u
  | .onDelete => .scope (.user id) (runProg env id u)
  | .writeDetailStat hard savedFails currentFails =>
    writeDetailStatProg id hard savedFails currentFails
  | .setCash => .skip
  | .setLogin | .readConf | .readStat | .writeConf | .writeStat | .writeMonthStat
  | .getPassiveTimePart | .setPassiveTimeAsNewUser | .addTraffStat _ | .unauthorize _
  | .isAuthorizedBy | .getAuthorizers | .addMessage | .updatePingTime
  | .midnightResetSessionStat | .processDayFee | .processDayFeeSpread | .processDailyFee
  | .processServices | .onAdd | .setPassive | .setDisabled | .setTariffName | .setIps => guarded id

/-- When an operation of a user locks no mutex twice: `Run` has nothing to write, and neither
`ProcessNewMonth` nor `OnDelete` is called at all. -/
def Clean (env : Env) (u : UserImpl) : UserOp → Prop
  | .run => ¬ u.statDue env ∧ ¬ u.creditExpired env
  | .processNewMonth | .onDelete => False
  | _ => True

theorem safe_guarded_iff (held : List Mutex) (id : UserId) :
    (guarded id).Safe held ↔ .user id ∉ held := by
  simp [guarded]

theorem safe_runProg (env : Env) (id : UserId) (u : UserImpl) :
    (runProg env id u).Safe [] ↔ ¬ u.statDue env ∧ ¬ u.creditExpired env := by
  simp [runProg, safe_guarded_iff]

theorem not_safe_processNewMonthProg (env : Env) (id : UserId) (u : UserImpl) :
    ¬ (processNewMonthProg env id u).Safe [] := by
  simp [processNewMonthProg, safe_guarded_iff]

theorem not_safe_onDelete (env : Env) (id : UserId) (u : UserImpl) :
    ¬ (prog env id u .onDelete).Safe [] := by
  simp [prog, runProg]

/-- **The operations of a user** lock no mutex twice exactly under their condition. -/
theorem safe_prog_iff (env : Env) (id : UserId) (u : UserImpl) (op : UserOp) :
    (op.prog env id u).Safe [] ↔ op.Clean env u := by
  cases op with
  | run => exact safe_runProg env id u
  | processNewMonth => simpa [prog, Clean] using not_safe_processNewMonthProg env id u
  | onDelete => simpa [Clean] using not_safe_onDelete env id u
  | authorize ip auth => simp [prog, Clean, authorizeProg, guardedUsers]
  | writeDetailStat hard savedFails currentFails =>
    simp [prog, Clean, writeDetailStatProg, safe_guarded_iff]
  | _ => simp [prog, Clean, safe_guarded_iff]

end UserOp

/-! ## Operations of the set of users -/

/-- The operations of `UsersImpl` that take a mutex, with the parameters that decide which. -/
inductive UsersOp
  /-- `FindByName`. -/
  | findByName
  /-- `Exists`. -/
  | «exists»
  /-- `TariffInUse`. -/
  | tariffInUse
  /-- `FindByIPIdx`. -/
  | findByIPIdx
  /-- `IsIPInIndex`. -/
  | isIPInIndex
  /-- `IsIPInUse`. -/
  | isIPInUse
  /-- `OpenSearch`. -/
  | openSearch
  /-- `SearchNext`. -/
  | searchNext
  /-- `CloseSearch`. -/
  | closeSearch
  /-- `Add`: the privileges, the answer of the store, the new object and what the subscribers do. -/
  | add (priv : Priv) (stored : Bool) (new : UserId) (notify : LockProg Mutex)
  /-- `Del`: the privileges, the login and what the subscribers do. -/
  | del (priv : Priv) (login : String) (notify : LockProg Mutex)
  /-- `Authorize`. -/
  | authorize (login : String) (ip : IP) (dirs : BitVec 32) (auth : AuthId)
  /-- `Unauthorize`. -/
  | unauthorize (login : String) (auth : AuthId) (reason : String)
  /-- `ReadUsers`, also called by `Start`: the users on the list, with the success of `ReadConf`
  and `ReadStat`. -/
  | readUsers (stopOnError : Bool) (list : List (UserId × Bool × Bool))
  /-- `Stop`: the users there are, with the outcome of their last `WriteDetailStat`. -/
  | stop (all : List (UserId × Bool × Bool))

namespace UsersOp

/-- `UsersImpl::AddToIPIdx` for a user with the address `ip`. -/
def addToIPIdxProg (ip : IP) : LockProg Mutex := .when (ip ≠ 0) guardedUsers

/-- `UsersImpl::DelFromIPIdx`; the assertion comes before the mutex. -/
def delFromIPIdxProg (ip : IP) : LockProg Mutex := .when (ip ≠ 0) guardedUsers

/-- `UsersImpl::AddUserIntoIndexes` and `UsersImpl::DelUserFromIndexes`. -/
def indexesProg : LockProg Mutex := guardedUsers

/-- `UsersImpl::Add`. -/
def addProg (priv : Priv) (stored : Bool) (new : UserId) (notify : LockProg Mutex) :
    LockProg Mutex :=
  .scope .users (.when (priv.userAddDel ≠ 0 ∧ stored = true)
    -- SetLogin, SetPassiveTimeAsNewUser, WriteConf, WriteStat, OnAdd of the new user
    (.seq (.forEach guarded (List.replicate 5 new)) (.seq indexesProg notify)))

/-- `UsersImpl::Del`. -/
def delProg (env : Env) (s : UsersImpl) (priv : Priv) (login : String)
    (notify : LockProg Mutex) : LockProg Mutex :=
  .when (priv.userAddDel ≠ 0)
    (.seq guardedUsers
      (match s.loginIndex login with
      | none => .skip
      | some id => .seq notify
          (.scope .users (.seq (UserOp.prog env id (s.users id) .onDelete) indexesProg))))

/-- `UsersImpl::Authorize`. -/
def authorizeProg (env : Env) (s : UsersImpl) (login : String) (ip : IP) (dirs : BitVec 32)
    (auth : AuthId) : LockProg Mutex :=
  .scope .users
    (match s.loginIndex login with
    | none => .skip
    | some id =>
      match s.ipIndex ip with
      | some holder => .when ((s.users holder).login = login)
          (UserOp.authorizeProg holder (s.users holder) ip auth)
      | none =>
        let r := (s.users id).authorize env s.ipIndex id ip dirs auth
        .seq (UserOp.authorizeProg id (s.users id) ip auth)
          (.when (r.ok = true) (addToIPIdxProg r.user.currIP)))

/-- `UsersImpl::Unauthorize`. -/
def unauthorizeProg (env : Env) (s : UsersImpl) (login : String) (auth : AuthId)
    (reason : String) : LockProg Mutex :=
  .scope .users
    (match s.loginIndex login with
    | none => .skip
    | some id => .seq (guarded id)
        (.when (((s.users id).unauthorize env auth reason).user.authorizedBy = ∅)
          (delFromIPIdxProg (s.users id).currIP)))

/-- `UsersImpl::ReadUsers`: `SetLogin`, `AddUserIntoIndexes`, `ReadConf` and `ReadStat` for each
user, up to the first error if the settings say so. -/
def readUsersProg (stopOnError : Bool) : List (UserId × Bool × Bool) → LockProg Mutex
  | [] => .skip
  | (id, confOk, statOk) :: list =>
    .seq (guarded id) (.seq indexesProg (.seq (guarded id)
      (.when (stopOnError = false ∨ confOk = true) (.seq (guarded id)
        (.when (stopOnError = false ∨ statOk = true) (readUsersProg stopOnError list))))))

/-- `UsersImpl::Stop`: `Run`, `WriteDetailStat(true)` and `WriteStat` of all users. -/
def stopProg (env : Env) (s : UsersImpl) (all : List (UserId × Bool × Bool)) : LockProg Mutex :=
  .seq (.forEach (fun e => UserOp.runProg env e.1 (s.users e.1)) all)
    (.seq (.forEach (fun e => UserOp.writeDetailStatProg e.1 true e.2.1 e.2.2) all)
      (.forEach (fun e => guarded e.1) all))

/-- The scopes of an operation. -/
def prog (env : Env) (s : UsersImpl) : UsersOp → LockProg Mutex
  | .findByName | .exists | .tariffInUse | .findByIPIdx | .isIPInIndex | .isIPInUse
  | .openSearch | .searchNext | .closeSearch => guardedUsers
  | .add priv stored new notify => addProg priv stored new notify
  | .del priv login notify => delProg env s priv login notify
  | .authorize login ip dirs auth => authorizeProg env s login ip dirs auth
  | .unauthorize login auth reason => unauthorizeProg env s login auth reason
  | .readUsers stopOnError list => readUsersProg stopOnError list
  | .stop all => stopProg env s all

/-- When `Authorize` locks no mutex twice: the user is not known, somebody else has the address, or
the request is answered without asking the index; and a user that has an address is not added to
the index once more. -/
def AuthorizeClean (s : UsersImpl) (login : String) (ip : IP) (auth : AuthId) : Prop :=
  ∀ id, s.loginIndex login = some id →
    match s.ipIndex ip with
    | some holder => (s.users holder).login ≠ login ∨
        ¬ UserOp.AsksIndex (s.users holder) ip auth
    | none => ¬ UserOp.AsksIndex (s.users id) ip auth ∧
        (auth ∈ (s.users id).authorizedBy → (s.users id).currIP = 0)

/-- When an operation of `UsersImpl` locks no mutex twice. -/
def Clean (env : Env) (s : UsersImpl) : UsersOp → Prop
  | .add priv stored _ _ => priv.userAddDel = 0 ∨ stored = false
  | .del priv login _ => priv.userAddDel = 0 ∨ s.loginIndex login = none
  | .authorize login ip _ auth => AuthorizeClean s login ip auth
  | .unauthorize login auth _ => ∀ id, s.loginIndex login = some id →
      (s.users id).authorizedBy.erase auth ≠ ∅ ∨ (s.users id).currIP = 0
  | .stop all => ∀ e ∈ all, ¬ (s.users e.1).statDue env ∧ ¬ (s.users e.1).creditExpired env
  | _ => True

theorem safe_guardedUsers_iff (held : List Mutex) : guardedUsers.Safe held ↔ .users ∉ held := by
  simp [guardedUsers]

theorem safe_addProg_iff (priv : Priv) (stored : Bool) (new : UserId) (notify : LockProg Mutex) :
    (addProg priv stored new notify).Safe [] ↔ priv.userAddDel = 0 ∨ stored = false := by
  simp only [addProg, LockProg.safe_scope, LockProg.safe_when, LockProg.safe_seq, indexesProg,
    safe_guardedUsers_iff, List.mem_singleton, not_true_eq_false, false_and, and_false, imp_false,
    List.not_mem_nil, not_false_eq_true, true_and, not_and_or, ne_eq, not_not,
    Bool.not_eq_true]

theorem safe_delProg_iff (env : Env) (s : UsersImpl) (priv : Priv) (login : String)
    (notify : LockProg Mutex) :
    (delProg env s priv login notify).Safe [] ↔
      priv.userAddDel = 0 ∨ s.loginIndex login = none := by
  unfold delProg
  cases s.loginIndex login with
  | none => simp [safe_guardedUsers_iff]
  | some id =>
    simp only [LockProg.safe_when, LockProg.safe_seq, LockProg.safe_scope, indexesProg,
      safe_guardedUsers_iff, List.mem_singleton, not_true_eq_false, and_false, imp_false, ne_eq,
      not_not, reduceCtorEq, or_false]

/-- A user that answers without asking the index accepts exactly a known authorizer. -/
theorem authorize_of_not_asksIndex (env : Env) (ipIndex : IP → Option UserId) (self : UserId)
    (ip : IP) (dirs : BitVec 32) (auth : AuthId) (u : UserImpl)
    (h : ¬ UserOp.AsksIndex u ip auth) :
    ((u.authorize env ipIndex self ip dirs auth).ok = true ↔ auth ∈ u.authorizedBy) ∧
      (u.authorize env ipIndex self ip dirs auth).user.currIP = u.currIP := by
  rcases u.authorize_cases env ipIndex self ip dirs auth with
    ⟨hauth, hr⟩ | ⟨hauth, d, e, hr⟩ | ⟨hauth, hne, -, hcurr, -, -⟩ | ⟨hby, hne, -, -, -⟩
  · simp [hr, hauth]
  · simp [hr, hauth]
  · exact absurd ⟨hauth, hne, .inr hcurr⟩ h
  · exact absurd ⟨by simp [hby], hne, .inl hby⟩ h

/-- With the mutex of `UsersImpl` held, `UserImpl::Authorize` must not ask the index. -/
theorem safe_authorizeProg_users (id : UserId) (u : UserImpl) (ip : IP) (auth : AuthId) :
    (UserOp.authorizeProg id u ip auth).Safe [.users] ↔ ¬ UserOp.AsksIndex u ip auth := by
  simp [UserOp.authorizeProg, safe_guardedUsers_iff]

theorem safe_authorizeProg_iff (env : Env) (s : UsersImpl) (login : String) (ip : IP)
    (dirs : BitVec 32) (auth : AuthId) :
    (authorizeProg env s login ip dirs auth).Safe [] ↔ AuthorizeClean s login ip auth := by
  unfold authorizeProg AuthorizeClean
  rw [LockProg.safe_scope]
  simp only [List.not_mem_nil, not_false_eq_true, true_and]
  cases s.loginIndex login with
  | none => simp
  | some id =>
    simp only [Option.some.injEq, forall_eq']
    cases s.ipIndex ip with
    | some holder =>
      simp only [LockProg.safe_when, safe_authorizeProg_users]
      exact imp_iff_not_or
    | none =>
      simp only [LockProg.safe_seq, safe_authorizeProg_users]
      refine and_congr_right fun h => ?_
      obtain ⟨hok, hip⟩ := authorize_of_not_asksIndex env s.ipIndex id ip dirs auth (s.users id) h
      simp only [LockProg.safe_when, hok, hip, addToIPIdxProg, safe_guardedUsers_iff,
        List.mem_singleton, not_true_eq_false, imp_false, ne_eq, not_not]

theorem unauthorize_authorizedBy (env : Env) (auth : AuthId) (reason : String) (u : UserImpl) :
    (u.unauthorize env auth reason).user.authorizedBy = u.authorizedBy.erase auth := by
  rcases u.unauthorize_cases env auth reason with ⟨hauth, hr⟩ | ⟨-, -, hr⟩ | ⟨-, he, hr⟩
  · rw [hr, Finset.erase_eq_of_notMem hauth]
  · rw [hr]
  · rw [hr, he]
    split_ifs <;> simp

theorem safe_unauthorizeProg_iff (env : Env) (s : UsersImpl) (login : String) (auth : AuthId)
    (reason : String) :
    (unauthorizeProg env s login auth reason).Safe [] ↔
      ∀ id, s.loginIndex login = some id →
        (s.users id).authorizedBy.erase auth ≠ ∅ ∨ (s.users id).currIP = 0 := by
  unfold unauthorizeProg
  rw [LockProg.safe_scope]
  simp only [List.not_mem_nil, not_false_eq_true, true_and]
  cases s.loginIndex login with
  | none => simp
  | some id =>
    simp only [Option.some.injEq, forall_eq', LockProg.safe_seq, UserOp.safe_guarded_iff,
      List.mem_singleton, reduceCtorEq, not_false_eq_true, true_and, LockProg.safe_when,
      unauthorize_authorizedBy, delFromIPIdxProg, safe_guardedUsers_iff, not_true_eq_false,
      imp_false, ne_eq, not_not]
    exact imp_iff_not_or

theorem safe_readUsersProg (stopOnError : Bool) (list : List (UserId × Bool × Bool)) :
    (readUsersProg stopOnError list).Safe [] := by
  induction list with
  | nil => trivial
  | cons e list ih =>
    simp [readUsersProg, UserOp.safe_guarded_iff, indexesProg, safe_guardedUsers_iff, ih]

theorem safe_stopProg_iff (env : Env) (s : UsersImpl) (all : List (UserId × Bool × Bool)) :
    (stopProg env s all).Safe [] ↔
      ∀ e ∈ all, ¬ (s.users e.1).statDue env ∧ ¬ (s.users e.1).creditExpired env := by
  simp [stopProg, UserOp.safe_runProg, UserOp.writeDetailStatProg, UserOp.safe_guarded_iff]

/-- **The operations of `UsersImpl`** lock no mutex twice exactly under their condition. -/
theorem safe_prog_iff (env : Env) (s : UsersImpl) (op : UsersOp) :
    (op.prog env s).Safe [] ↔ op.Clean env s := by
  cases op with
  | add priv stored new notify => exact safe_addProg_iff priv stored new notify
  | del priv login notify => exact safe_delProg_iff env s priv login notify
  | authorize login ip dirs auth => exact safe_authorizeProg_iff env s login ip dirs auth
  | unauthorize login auth reason => exact safe_unauthorizeProg_iff env s login auth reason
  | readUsers stopOnError list => simpa [prog, Clean] using safe_readUsersProg stopOnError list
  | stop all => exact safe_stopProg_iff env s all
  | _ => simp [prog, Clean, safe_guardedUsers_iff]

end UsersOp

/-! ## All operations -/

/-- A public operation of one of the two classes. -/
inductive LockOp
  /-- An operation of a user. -/
  | user (id : UserId) (op : UserOp)
  /-- An operation of the set of users. -/
  | users (op : UsersOp)

namespace LockOp

/-- The scopes of an operation. -/
def prog (env : Env) (s : UsersImpl) : LockOp → LockProg Mutex
  | .user id op => op.prog env id (s.users id)
  | .users op => op.prog env s

/-- When the operation locks no mutex twice. -/
def Clean (env : Env) (s : UsersImpl) : LockOp → Prop
  | .user id op => op.Clean env (s.users id)
  | .users op => op.Clean env s

/-- **Lock discipline.** For every public operation of `UserImpl` and `UsersImpl`, called by a
thread that holds none of the mutexes, in every state: its call chain never acquires a mutex it
already holds, exactly if the condition of the operation is met.

**Proof sketch.** The trace has no self-acquisition iff the scopes nest no mutex inside itself
(`LockTrace.LockProg.selfFree_events`); the scopes are then read off, operation by operation. -/
theorem selfFree_iff (env : Env) (s : UsersImpl) (op : LockOp) :
    SelfFree [] (op.prog env s).events ↔ op.Clean env s := by
  rw [LockProg.selfFree_events]
  cases op with
  | user id op => exact op.safe_prog_iff env id (s.users id)
  | users op => exact op.safe_prog_iff env s

/-- A user that exists for more than ten minutes has its statistics written by `Run`, which then
waits for itself; so does the very first authorization. -/
theorem run_waits_for_itself :
    ¬ SelfFree [] ((LockOp.user 0 .run).prog (Sample.env 1000) Sample.users).events ∧
    ¬ SelfFree [] ((LockOp.users (.authorize "a" 7 0 1)).prog (Sample.env 0)
      Sample.users).events := by
  decide +kernel

end LockOp

end Stargazer
