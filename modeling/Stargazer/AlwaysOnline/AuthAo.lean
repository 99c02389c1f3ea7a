import Stargazer.AlwaysOnline.Calls
import Stargazer.Users.UserIPs

set_option relaxedAutoImplicit false
set_option autoImplicit false

/-!
# Users that are always online

`AUTH_AO` (`plugins/authorization/ao/ao.cpp`) authorizes the users with the flag `alwaysOnline` and
one address.  It keeps nothing but its subscriptions: before a change of `alwaysOnline` or `ips` it
takes its authorization back, after the change it gives a new one if the user is to have one.  Both
may fail without anybody being told.

The plugin is started at some time; before, users are added, deleted, changed and authorized by
others without it.  A change finds its user by login, as the configuration plugins do.

## Main definitions

* `Stargazer.AuthAo` — the server and the plugin, `Stargazer.AuthAo.step` — what can happen.
* `Stargazer.AuthAo.Online` — how a user is authorized by the plugin.
* `Stargazer.AuthAo.Unobstructed` — nobody else is in the way.

## Main results

* `Stargazer.AuthAo.Invariant.step` — one step.
* `Stargazer.AuthAo.always_online` — every run.
-/

namespace Stargazer

/-- The server with the plugin. -/
structure AuthAo where
  /-- The users. -/
  server : UsersList
  /-- `alwaysOnline` of the users. -/
  alwaysOnline : UserId → ℤ
  isRunning : Bool := false
  userList : List UserId := []
  /-- The users of `m_conns`. -/
  conns : List UserId := []

namespace AuthAo

/-- The users by their nodes, and the two indexes. -/
def impl (s : AuthAo) : UsersImpl := s.server.impl

def withImpl (s : AuthAo) (impl : UsersImpl) : AuthAo :=
  { s with server := { s.server with impl := impl } }

@[simp] theorem impl_withImpl (s : AuthAo) (impl : UsersImpl) : (s.withImpl impl).impl = impl := rfl

section Plugin

variable (ao : AuthId)

/-! ## The plugin -/

/-- `AUTH_AO::Unauthorize`. -/
def unauthorize (env : Env) (id : UserId) (s : UsersImpl) : Option UsersImpl :=
  if ao ∈ (s.users id).authorizedBy then
    (s.unauthorize env (s.users id).login ao "").map UsersImpl.Outcome.users
  else some s

/-- `AUTH_AO::UpdateUserAuthorization`.  The result of `Authorize` is not looked at. -/
def updateUserAuthorization (env : Env) (alwaysOnline : ℤ) (id : UserId) (s : UsersImpl) :
    Option UsersImpl :=
  if alwaysOnline ≠ 0 then
    match (s.users id).ips with
    | [] => some s
    | im :: _ =>
      if (s.users id).ips.onlyOneIP then
        (s.authorize env (s.users id).login im.ip 0xFFffFFff ao).map UsersImpl.Outcome.users
      else some s
  else some s

/-- `AUTH_AO::Start`, with `GetUsers`. -/
def start (env : Env) (s : AuthAo) : Option AuthAo :=
  let found := s.server.list.filter fun id => !s.server.deleted id
  let s := { s with userList := s.userList ++ found, conns := s.conns ++ found }
  let update := fun impl id => updateUserAuthorization ao env (s.alwaysOnline id) id impl
  (s.userList.foldlM update s.impl).map fun impl => { s.withImpl impl with isRunning := true }

/-- `AUTH_AO::AddUser`, with `SetUserNotifiers`. -/
def addUser (env : Env) (id : UserId) (s : AuthAo) : Option AuthAo :=
  let s := { s with conns := s.conns ++ [id], userList := s.userList ++ [id] }
  (updateUserAuthorization ao env (s.alwaysOnline id) id s.impl).map s.withImpl

/-- `AUTH_AO::DelUser`, with `UnSetUserNotifiers`. -/
def delUser (env : Env) (id : UserId) (s : AuthAo) : Option AuthAo :=
  (unauthorize ao env id s.impl).map fun impl =>
    { s.withImpl impl with
      conns := s.conns.filter (· ≠ id)
      userList := s.userList.filter (· ≠ id) }

/-! ## What can happen -/

/-- The callbacks of the plugin for a user. -/
def notify (s : AuthAo) (id : UserId) (callback : UsersImpl → Option UsersImpl) :
    Option UsersImpl :=
  (s.conns.filter (· = id)).foldlM (fun impl _ => callback impl) s.impl

/-- `UserProperty::Set` of `alwaysOnline` and `ips`, with the callbacks of the plugin. -/
def set (env : Env) (id : UserId) (write : AuthAo → AuthAo) (s : AuthAo) : Option AuthAo :=
  (s.notify id (unauthorize ao env id)).bind fun impl =>
    let s := write (s.withImpl impl)
    (s.notify id (updateUserAuthorization ao env (s.alwaysOnline id) id)).map s.withImpl

/-- The write to `alwaysOnline`. -/
def writeAlwaysOnline (id : UserId) (v : ℤ) (s : AuthAo) : AuthAo :=
  { s with alwaysOnline := Function.update s.alwaysOnline id v }

/-- The write to `ips`.  The user's own callback is the first one after it. -/
def writeIps (env : Env) (id : UserId) (v : UserIPs) (s : AuthAo) : AuthAo :=
  s.withImpl (s.impl.setUser id ((s.impl.users id).setIps env v))

/-- A user as `UsersImpl::Add` builds it: no authorizer, any address, not always online.  The time of
the first statistics is random, and `passiveTime` depends on the day. -/
def newUser (login : String) (noTariff : TariffImpl) (lastWriteStat passiveTime : Time) : UserImpl where
  login := login
  tariff := some noTariff
  tariffName := noTariffName
  lastWriteStat := lastWriteStat
  passiveTime := passiveTime
  ips := UserIPs.any

/-- What can happen. -/
inductive Action
  /-- `AUTH_AO::Start`. -/
  | start (env : Env)
  /-- `UsersImpl::Add`, with the result of the store. -/
  | add (env : Env) (priv : Priv) (stored : Bool) (login : String) (noTariff : TariffImpl)
      (lastWriteStat passiveTime : Time)
  /-- `UsersImpl::Del`. -/
  | del (env : Env) (priv : Priv) (login : String)
  | setAlwaysOnline (env : Env) (login : String) (v : ℤ)
  | setIps (env : Env) (login : String) (v : UserIPs)
  /-- `UsersImpl::Authorize` by another authorizer. -/
  | authorize (env : Env) (login : String) (ip : IP) (dirs : BitVec 32) (auth : AuthId)
  /-- `UsersImpl::Unauthorize` by another authorizer. -/
  | unauthorize (env : Env) (login : String) (auth : AuthId) (reason : String)

/-- One step; there is no result if an assertion fails, or if the plugin is started twice. -/
def step (s : AuthAo) : Action → Option AuthAo
  | .start env => if s.isRunning then none else s.start ao env
  | .add env priv stored login noTariff lastWriteStat passiveTime =>
    let id := s.server.next
    if priv.userAddDel = 0 ∨ stored = false then some s
    else
      let u := newUser login noTariff lastWriteStat passiveTime
      let s := { s with
        server := s.server.add priv stored u
        alwaysOnline := Function.update s.alwaysOnline id 0 }
      if s.isRunning then s.addUser ao env id else some s
  | .del env priv login =>
    if priv.userAddDel = 0 then some s
    else
      match s.impl.loginIndex login with
      | none => some s
      | some id =>
        let s := { s with server := s.server.delMark priv login }
        (if s.isRunning then s.delUser ao env id else some s).map fun s =>
          { s with server := s.server.delFinish env id }
  | .setAlwaysOnline env login v =>
    match s.impl.loginIndex login with
    | none => some s
    | some id => s.set ao env id (writeAlwaysOnline id v)
  | .setIps env login v =>
    match s.impl.loginIndex login with
    | none => some s
    | some id => s.set ao env id (writeIps env id v)
  | .authorize env login ip dirs auth =>
    (s.impl.authorize env login ip dirs auth).map fun out => s.withImpl out.users
  | .unauthorize env login auth reason =>
    (s.impl.unauthorize env login auth reason).map fun out => s.withImpl out.users

/-- The calls of `Authorize` and `Unauthorize` are calls of others. -/
def Foreign (_ : AuthAo) : Action → Prop
  | .authorize _ _ _ _ auth => auth ≠ ao
  | .unauthorize _ _ auth _ => auth ≠ ao
  | _ => True

/-! ## What is to hold -/

/-- The flag is set, there is one address, and the user is at it. -/
def Online (alwaysOnline : UserId → ℤ) (s : UsersImpl) (id : UserId) : Prop :=
  alwaysOnline id ≠ 0 ∧
    ∃ ip : IP, ip ≠ 0 ∧ (s.users id).ips = [⟨ip, 32⟩] ∧ (s.users id).currIP = ip

/-- With these addresses nobody is in the way: if there is one, no other user is authorized at it,
and no other authorizer authorized the user at another one. -/
def Unobstructed (s : UsersImpl) (id : UserId) (ips : UserIPs) : Prop :=
  ∀ ip : IP, ips = [⟨ip, 32⟩] →
    (∀ j, j ≠ id → (s.users j).authorizedBy ≠ ∅ → (s.users j).currIP ≠ ip) ∧
    ∀ a ∈ (s.users id).authorizedBy, a ≠ ao → (s.users id).currIP = ip

/-- The plugin authorized the user if and only if it is to. -/
def Decided (s : AuthAo) (id : UserId) : Prop :=
  ao ∈ (s.impl.users id).authorizedBy ↔
    s.alwaysOnline id ≠ 0 ∧ (s.impl.users id).ips.onlyOneIP = true

/-- The server after `ReadUsers`, before the plugin is started: the users are found by their logins,
and nobody is authorized. -/
structure Initial (s : AuthAo) : Prop where
  isRunning : s.isRunning = false
  userList : s.userList = []
  conns : s.conns = []
  nodup : s.server.list.Nodup
  fresh : ∀ id ∈ s.server.list, id < s.server.next
  deleted : ∀ id, s.server.deleted id = false
  login_eq : ∀ login id, s.impl.loginIndex login = some id → (s.impl.users id).login = login
  listed : ∀ login id, s.impl.loginIndex login = some id → id ∈ s.server.list
  found : ∀ id ∈ s.server.list, s.impl.loginIndex (s.impl.users id).login = some id
  ipIndex : ∀ ip, s.impl.ipIndex ip = none
  authorizedBy : ∀ id, (s.impl.users id).authorizedBy = ∅
  currIP : ∀ id, (s.impl.users id).currIP = 0

/-- What every step keeps. -/
structure Invariant (s : AuthAo) : Prop where
  placed : s.impl.Placed
  login_eq : ∀ login id, s.impl.loginIndex login = some id → (s.impl.users id).login = login
  listed : ∀ login id, s.impl.loginIndex login = some id →
    id ∈ s.server.list ∧ s.server.deleted id = false
  nodup : s.server.list.Nodup
  fresh : ∀ id, s.server.next ≤ id →
    id ∉ s.server.list ∧ id ∉ s.conns ∧ (s.impl.users id).authorizedBy = ∅
  conns_nodup : s.conns.Nodup
  /-- Users that are not found by their login are not always online. -/
  bystander : ∀ id ∈ s.server.list, s.server.deleted id = false →
    s.impl.loginIndex (s.impl.users id).login = some id ∨ s.alwaysOnline id = 0
  idle : s.isRunning = false → s.userList = [] ∧ s.conns = [] ∧
    ∀ id, ao ∉ (s.impl.users id).authorizedBy
  subscribed : s.isRunning = true → ∀ login id, s.impl.loginIndex login = some id → id ∈ s.conns
  online : ∀ login id, s.impl.loginIndex login = some id → ao ∈ (s.impl.users id).authorizedBy →
    Online s.alwaysOnline s.impl id

end Plugin

/-! ## What users keep -/

/-- Two states of a user with the same login, authorizers and address. -/
structure SameSeat (u v : UserImpl) : Prop where
  login : v.login = u.login
  authorizedBy : v.authorizedBy = u.authorizedBy
  currIP : v.currIP = u.currIP

theorem SameSeat.refl (u : UserImpl) : SameSeat u u := ⟨rfl, rfl, rfl⟩

theorem SameSeat.trans {u v w : UserImpl} (h : SameSeat u v) (h' : SameSeat v w) : SameSeat u w :=
  ⟨h'.login.trans h.login, h'.authorizedBy.trans h.authorizedBy, h'.currIP.trans h.currIP⟩

theorem sameSeat_disconnect (env : Env) (fake : Bool) (reason : String) (u : UserImpl) :
    SameSeat u (u.disconnect env fake reason) := ⟨by simp, by simp, by simp⟩

theorem sameSeat_connect (env : Env) (fake : Bool) (u : UserImpl) :
    SameSeat u (u.connect env fake) ∧ (u.connect env fake).ips = u.ips := by
  simp only [UserImpl.connect, UserImpl.writeSession]
  split_ifs <;> exact ⟨⟨rfl, rfl, rfl⟩, rfl⟩

/-- A change of `ips` leaves the authorizations alone. -/
theorem sameSeat_setIps (env : Env) (v : UserIPs) (u : UserImpl) :
    SameSeat u (u.setIps env v) ∧ (u.setIps env v).ips = v := by
  have hwrite : SameSeat u { u with ips := v } := ⟨rfl, rfl, rfl⟩
  have hdisconnect : ∀ (c : Bool) (w : UserImpl), SameSeat w (if c then
      w.disconnect env false "Change IP" else w) ∧
      (if c then w.disconnect env false "Change IP" else w).ips = w.ips := by
    intro c w
    cases c with
    | false => exact ⟨.refl w, rfl⟩
    | true => exact ⟨sameSeat_disconnect env false _ w, by simp⟩
  obtain ⟨hseat, hips⟩ := hdisconnect u.connected { u with ips := v }
  unfold UserImpl.setIps
  simp only
  split_ifs at hseat hips ⊢
  · exact ⟨(hwrite.trans hseat).trans (sameSeat_connect ..).1, (sameSeat_connect ..).2.trans hips⟩
  · exact ⟨hwrite.trans hseat, hips⟩
  · exact ⟨hwrite.trans (sameSeat_connect ..).1, (sameSeat_connect ..).2⟩
  · exact ⟨hwrite, rfl⟩

/-- `Run` leaves the authorizations alone. -/
theorem sameSeat_run (env : Env) (u : UserImpl) : SameSeat u (u.run env) := by
  have haccounts : SameSeat u (u.runAccounts env) := by
    simp only [UserImpl.runAccounts, UserImpl.writeStat]
    split_ifs <;> exact ⟨rfl, rfl, rfl⟩
  refine haccounts.trans ?_
  change SameSeat (u.runAccounts env) ((u.runAccounts env).runSession env)
  generalize u.runAccounts env = v
  have hactive : SameSeat v (if v.connected then { v with lastActivityTime := env.stgTime } else v) := by
    split_ifs <;> exact ⟨rfl, rfl, rfl⟩
  have hconnect : ∀ (p : Prop) [Decidable p] (w : UserImpl),
      SameSeat w (if p then w.connect env false else w) := by
    intro p _ w
    split_ifs
    · exact (sameSeat_connect ..).1
    · exact .refl w
  have hdisconnect : ∀ (p : Prop) [Decidable p] (why : String) (w : UserImpl),
      SameSeat w (if p then w.disconnect env false why else w) := by
    intro p _ why w
    split_ifs
    · exact sameSeat_disconnect ..
    · exact .refl w
  unfold UserImpl.runSession
  by_cases hby : v.authorizedBy ≠ ∅
  · rw [if_pos hby]
    exact (hactive.trans (hconnect ..)).trans (hdisconnect ..)
  · rw [if_neg hby]
    exact hdisconnect ..

/-- The addresses with which the plugin acts. -/
theorem onlyOneIP_iff (ips : UserIPs) :
    ips.onlyOneIP = true ↔ ∃ ip : IP, ip ≠ 0 ∧ ips = [⟨ip, 32⟩] := by
  match ips with
  | [] => simp [UserIPs.onlyOneIP]
  | [⟨ip, mask⟩] =>
    simp only [UserIPs.onlyOneIP, Bool.and_eq_true, beq_iff_eq, bne_iff_ne, List.cons.injEq,
      IPMask.mk.injEq, and_true]
    constructor
    · rintro ⟨rfl, hne⟩
      exact ⟨ip, hne, rfl, rfl⟩
    · rintro ⟨_, hne, rfl, rfl⟩
      exact ⟨rfl, hne⟩
  | _ :: _ :: _ => simp [UserIPs.onlyOneIP]

/-! ## The plugin on one user -/

section Calls

variable (ao : AuthId) (env : Env) {s : UsersImpl} {id : UserId}

/-- **The plugin takes its authorization back.** -/
theorem unauthorize_spec (hp : s.Placed) (hl : s.loginIndex (s.users id).login = some id) :
    ∃ s', unauthorize ao env id s = some s' ∧ UsersImpl.Spares ao s s' ∧
      ao ∉ (s'.users id).authorizedBy ∧ ∀ j, j ≠ id → s'.users j = s.users j := by
  unfold unauthorize
  split_ifs with hauth
  · have hreturns : ∃ out, s.unauthorize env (s.users id).login ao "" = some out :=
      UsersImpl.unauthorize_returns hp hl hauth
    obtain ⟨out, hout⟩ := hreturns
    obtain ⟨hspares, hother, hgone⟩ := UsersImpl.unauthorize_spares hp hout
    refine ⟨out.users, by rw [hout]; rfl, hspares, hgone id hl, fun j hj => hother j ?_⟩
    rw [hl]
    exact fun hc => hj (Option.some.inj hc).symm
  · exact ⟨s, rfl, .refl ao hp, hauth, fun _ _ => rfl⟩

/-- **The plugin authorizes a user** that it did not authorize: whoever is authorized by it then is a
user with the same login at the one address.  It succeeds if nobody is in the way. -/
theorem updateUserAuthorization_spec (v : ℤ) (hp : s.Placed)
    (hl : s.loginIndex (s.users id).login = some id) (hauth : ao ∉ (s.users id).authorizedBy) :
    ∃ s', updateUserAuthorization ao env v id s = some s' ∧ UsersImpl.Spares ao s s' ∧
      (∀ j, ao ∈ (s'.users j).authorizedBy →
        (ao ∈ (s.users j).authorizedBy ∧ (s'.users j).currIP = (s.users j).currIP) ∨
        ((s.users j).login = (s.users id).login ∨ j = id) ∧ v ≠ 0 ∧
          ∃ ip : IP, ip ≠ 0 ∧ (s.users id).ips = [⟨ip, 32⟩] ∧ (s'.users j).currIP = ip) ∧
      (Unobstructed ao s id (s.users id).ips →
        (ao ∈ (s'.users id).authorizedBy ↔ v ≠ 0 ∧ (s.users id).ips.onlyOneIP = true)) := by
  by_cases hv : v ≠ 0 ∧ (s.users id).ips.onlyOneIP = true
  · obtain ⟨hne, hone⟩ := hv
    obtain ⟨ip, hip, hips⟩ := (onlyOneIP_iff _).1 hone
    have hreturns : ∃ out, s.authorize env (s.users id).login ip 0xFFffFFff ao = some out :=
      UsersImpl.authorize_returns hl hauth
    obtain ⟨out, hout⟩ := hreturns
    obtain ⟨hspares, hnew⟩ := UsersImpl.authorize_spares hp hout
    refine ⟨out.users, ?_, hspares, fun j hj => ?_, fun hfree => ⟨fun _ => ⟨hne, hone⟩, fun _ => ?_⟩⟩
    · rw [hips] at hone
      simp only [updateUserAuthorization, if_pos hne, hips, hone, if_true, hout, Option.map_some]
    · rcases hnew j hj with hold | ⟨hwho, hcurr⟩
      · exact .inl hold
      · refine .inr ⟨?_, hne, ip, hip, hips, hcurr⟩
        rcases hwho with ⟨-, hlogin⟩ | hfound
        · exact .inl hlogin
        · rw [hl] at hfound
          exact .inr (Option.some.inj hfound).symm
    · obtain ⟨hothers, hsame⟩ := hfree ip hips
      refine UsersImpl.authorize_succeeds hp hl rfl hauth hip ?_ ?_ ?_ hout
      · rw [hips]
        exact UserIPs.find_of_mem (List.mem_singleton_self (⟨ip, 32⟩ : IPMask))
      · cases hindex : s.ipIndex ip with
        | none => exact .inl rfl
        | some j =>
          obtain ⟨hby, hcurr⟩ := (hp.indexed.index_iff _ _).1 hindex
          by_cases hj : j = id
          · exact .inr (by rw [hj])
          · exact absurd hcurr (hothers j hj hby)
      · rcases Finset.eq_empty_or_nonempty (s.users id).authorizedBy with hby | ⟨a, ha⟩
        · exact .inl hby
        · exact .inr (hsame a ha fun hc => hauth (hc ▸ ha))
  · have heq : updateUserAuthorization ao env v id s = some s := by
      unfold updateUserAuthorization
      by_cases hne : v ≠ 0
      · have hone : ¬ (s.users id).ips.onlyOneIP = true := fun hc => hv ⟨hne, hc⟩
        simp only [if_pos hne, if_neg hone]
        cases (s.users id).ips <;> rfl
      · rw [if_neg hne]
    exact ⟨s, heq, .refl ao hp, fun j hj => .inl ⟨hj, rfl⟩,
      fun _ => ⟨fun hc => absurd hc hauth, fun hc => absurd hc hv⟩⟩

end Calls

/-! ## Steps -/

section Steps

variable {ao : AuthId} (env : Env) {s : AuthAo} {id : UserId} {login : String}

/-- A user is subscribed to once at most. -/
theorem notify_eq (hs : s.conns.Nodup) (callback : UsersImpl → Option UsersImpl) :
    s.notify id callback = if id ∈ s.conns then callback s.impl else some s.impl := by
  unfold notify
  rw [List.filter_eq]
  split_ifs with hid
  · rw [List.count_eq_one_of_mem hs hid]
    simp
  · rw [List.count_eq_zero_of_not_mem hid]
    rfl

/-- Users that are not there yet are not found by a login. -/
theorem Invariant.not_found (h : Invariant ao s) (hid : s.server.next ≤ id) :
    s.impl.loginIndex login ≠ some id := fun hl => (h.fresh id hid).1 (h.listed login id hl).1

/-- A user is found by its own login only. -/
theorem Invariant.loginIndex_login (h : Invariant ao s) (hl : s.impl.loginIndex login = some id) :
    s.impl.loginIndex (s.impl.users id).login = some id := by
  rw [h.login_eq login id hl]
  exact hl

/-- A call of an authorizer keeps everything but what is said about the plugin's authorizations. -/
theorem Invariant.withImpl {auth : AuthId} (h : Invariant ao s) {impl : UsersImpl}
    (hsp : UsersImpl.Spares auth s.impl impl)
    (hidle : s.isRunning = false → ∀ id, ao ∉ (impl.users id).authorizedBy)
    (honline : ∀ login id, s.impl.loginIndex login = some id → ao ∈ (impl.users id).authorizedBy →
      Online s.alwaysOnline impl id) : Invariant ao (s.withImpl impl) where
  placed := hsp.placed
  login_eq login id hl := by
    rw [impl_withImpl, hsp.loginIndex] at hl
    rw [impl_withImpl, hsp.login]
    exact h.login_eq login id hl
  listed login id hl := by
    rw [impl_withImpl, hsp.loginIndex] at hl
    exact h.listed login id hl
  nodup := h.nodup
  fresh id hid := ⟨(h.fresh id hid).1, (h.fresh id hid).2.1,
    hsp.unfound id (h.fresh id hid).2.2 fun _ => h.not_found hid⟩
  conns_nodup := h.conns_nodup
  bystander id hid hdel := by
    rw [impl_withImpl, hsp.loginIndex, hsp.login]
    exact h.bystander id hid hdel
  idle hrun := ⟨(h.idle hrun).1, (h.idle hrun).2.1, hidle hrun⟩
  subscribed hrun login id hl := by
    rw [impl_withImpl, hsp.loginIndex] at hl
    exact h.subscribed hrun login id hl
  online login id hl := by
    rw [impl_withImpl, hsp.loginIndex] at hl
    exact honline login id hl

/-- **The calls of others** leave the authorizations of the plugin alone. -/
theorem Invariant.foreign {auth : AuthId} (h : Invariant ao s) {impl : UsersImpl}
    (hsp : UsersImpl.Spares auth s.impl impl) (hauth : auth ≠ ao) :
    Invariant ao (s.withImpl impl) := by
  refine h.withImpl hsp (fun hrun id => ?_) fun login id hl hid => ?_
  · rw [hsp.others ao hauth.symm]
    exact (h.idle hrun).2.2 id
  · rw [hsp.others ao hauth.symm] at hid
    obtain ⟨hflag, ip, hne, hips, hcurr⟩ := h.online login id hl hid
    exact ⟨hflag, ip, hne, (hsp.ips id).trans hips, (hsp.currIP ao hauth.symm id hid).trans hcurr⟩

/-- **Before a change** the plugin takes its authorization back. -/
theorem Invariant.before (h : Invariant ao s) (hl : s.impl.loginIndex login = some id) :
    ∃ impl, s.notify id (unauthorize ao env id) = some impl ∧ UsersImpl.Spares ao s.impl impl ∧
      ao ∉ (impl.users id).authorizedBy ∧ (∀ j, j ≠ id → impl.users j = s.impl.users j) ∧
      Invariant ao (s.withImpl impl) := by
  rw [notify_eq h.conns_nodup]
  cases hrun : s.isRunning with
  | false =>
    obtain ⟨-, hconns, hnobody⟩ := h.idle hrun
    rw [if_neg (by simp [hconns])]
    exact ⟨s.impl, rfl, .refl ao h.placed, hnobody id, fun _ _ => rfl, h⟩
  | true =>
    rw [if_pos (h.subscribed hrun login id hl)]
    obtain ⟨impl, heq, hsp, hgone, hothers⟩ :=
      unauthorize_spec ao env h.placed (h.loginIndex_login hl)
    refine ⟨impl, heq, hsp, hgone, hothers, h.withImpl hsp (by simp [hrun]) fun login' j hj hauth => ?_⟩
    by_cases hji : j = id
    · exact absurd (hji ▸ hauth) hgone
    · rw [hothers j hji] at hauth
      obtain ⟨hflag, ip, hne, hips, hcurr⟩ := h.online login' j hj hauth
      exact ⟨hflag, ip, hne, by rw [hothers j hji, hips], by rw [hothers j hji, hcurr]⟩

/-- A user that the plugin did not authorize is authorized. -/
theorem Invariant.update (h : Invariant ao s) (hrun : s.isRunning = true)
    (hl : s.impl.loginIndex login = some id) (hgone : ao ∉ (s.impl.users id).authorizedBy) :
    ∃ impl, updateUserAuthorization ao env (s.alwaysOnline id) id s.impl = some impl ∧
      UsersImpl.Spares ao s.impl impl ∧ Invariant ao (s.withImpl impl) ∧
      (∀ login' j, s.impl.loginIndex login' = some j → j ≠ id →
        ao ∈ (impl.users j).authorizedBy → ao ∈ (s.impl.users j).authorizedBy) ∧
      (Unobstructed ao s.impl id (s.impl.users id).ips → Decided ao (s.withImpl impl) id) := by
  obtain ⟨impl, heq, hsp, hwho, hdecided⟩ := updateUserAuthorization_spec ao env (s.alwaysOnline id)
    h.placed (h.loginIndex_login hl) hgone
  -- among the users found by login, the login is the user's own
  have hsame : ∀ {login' j}, s.impl.loginIndex login' = some j →
      (s.impl.users j).login = (s.impl.users id).login ∨ j = id → j = id := by
    rintro login' j hj (hlogin | rfl)
    · have hj' := h.loginIndex_login hj
      rw [hlogin, h.loginIndex_login hl] at hj'
      exact (Option.some.inj hj').symm
    · rfl
  refine ⟨impl, heq, hsp, h.withImpl hsp (by simp [hrun]) fun login' j hj hauth => ?_,
    fun login' j hj hne hauth => ?_, fun hfree => ?_⟩
  · rcases hwho j hauth with ⟨hold, hcurr⟩ | ⟨hlogin, hflag, ip, hne, hips, hcurr⟩
    · obtain ⟨hflag, ip, hne, hips, hcurr'⟩ := h.online login' j hj hold
      exact ⟨hflag, ip, hne, (hsp.ips j).trans hips, hcurr.trans hcurr'⟩
    · obtain rfl := hsame hj hlogin
      exact ⟨hflag, ip, hne, (hsp.ips j).trans hips, hcurr⟩
  · rcases hwho j hauth with ⟨hold, -⟩ | ⟨hlogin, -⟩
    · exact hold
    · exact absurd (hsame hj hlogin) hne
  · rw [Decided, impl_withImpl, hsp.ips]
    exact hdecided hfree

/-- **After a change** the plugin gives a new authorization. -/
theorem Invariant.after (h : Invariant ao s) (hl : s.impl.loginIndex login = some id)
    (hgone : ao ∉ (s.impl.users id).authorizedBy) :
    ∃ impl, s.notify id (updateUserAuthorization ao env (s.alwaysOnline id) id) = some impl ∧
      UsersImpl.Spares ao s.impl impl ∧ Invariant ao (s.withImpl impl) ∧
      (s.isRunning = true → Unobstructed ao s.impl id (s.impl.users id).ips →
        Decided ao (s.withImpl impl) id) := by
  rw [notify_eq h.conns_nodup]
  cases hrun : s.isRunning with
  | false =>
    obtain ⟨-, hconns, -⟩ := h.idle hrun
    rw [if_neg (by simp [hconns])]
    exact ⟨s.impl, rfl, .refl ao h.placed, h, by simp⟩
  | true =>
    rw [if_pos (h.subscribed hrun login id hl)]
    obtain ⟨impl, heq, hsp, hinv, -, hdecided⟩ := h.update env hrun hl hgone
    exact ⟨impl, heq, hsp, hinv, fun _ => hdecided⟩

/-- A write to `alwaysOnline`. -/
theorem Invariant.writeAlwaysOnline (h : Invariant ao s) (hl : s.impl.loginIndex login = some id)
    (hgone : ao ∉ (s.impl.users id).authorizedBy) (v : ℤ) :
    Invariant ao (s.writeAlwaysOnline id v) where
  placed := h.placed
  login_eq := h.login_eq
  listed := h.listed
  nodup := h.nodup
  fresh := h.fresh
  conns_nodup := h.conns_nodup
  bystander j hj hdel := by
    by_cases hji : j = id
    · subst hji
      exact .inl (h.loginIndex_login hl)
    · rcases h.bystander j hj hdel with hfound | hzero
      · exact .inl hfound
      · exact .inr (by simpa [AuthAo.writeAlwaysOnline, hji] using hzero)
  idle := h.idle
  subscribed := h.subscribed
  online login' j hj hauth := by
    have hji : j ≠ id := fun hc => hgone (hc ▸ hauth)
    obtain ⟨hflag, hrest⟩ := h.online login' j hj hauth
    exact ⟨by simpa [AuthAo.writeAlwaysOnline, hji] using hflag, hrest⟩

/-- A write to `ips`, with the user's own callback. -/
theorem Invariant.writeIps (h : Invariant ao s) (hgone : ao ∉ (s.impl.users id).authorizedBy)
    (v : UserIPs) : Invariant ao (s.writeIps env id v) := by
  obtain ⟨⟨hlogin, hby, hcurr⟩, -⟩ := sameSeat_setIps env v (s.impl.users id)
  have huser : ∀ j, ((s.writeIps env id v).impl.users j).login = (s.impl.users j).login ∧
      ((s.writeIps env id v).impl.users j).authorizedBy = (s.impl.users j).authorizedBy := by
    intro j
    by_cases hji : j = id
    · subst hji
      simp [AuthAo.writeIps, hlogin, hby]
    · simp [AuthAo.writeIps, UsersImpl.setUser_of_ne _ _ hji]
  exact {
    placed := h.placed.setUser hcurr (by rw [hby])
    login_eq := fun login j hj => (huser j).1.trans (h.login_eq login j hj)
    listed := h.listed
    nodup := h.nodup
    fresh := fun j hj => ⟨(h.fresh j hj).1, (h.fresh j hj).2.1, (huser j).2.trans (h.fresh j hj).2.2⟩
    conns_nodup := h.conns_nodup
    bystander := fun j hj hdel => by
      rw [(huser j).1]
      exact h.bystander j hj hdel
    idle := fun hrun => ⟨(h.idle hrun).1, (h.idle hrun).2.1, fun j => by
      rw [(huser j).2]
      exact (h.idle hrun).2.2 j⟩
    subscribed := h.subscribed
    online := fun login j hj hauth => by
      rw [(huser j).2] at hauth
      have hji : j ≠ id := fun hc => hgone (hc ▸ hauth)
      obtain ⟨hflag, ip, hne, hips, hcurr⟩ := h.online login j hj hauth
      refine ⟨hflag, ip, hne, ?_, ?_⟩
      · simpa [AuthAo.writeIps, UsersImpl.setUser_of_ne _ _ hji] using hips
      · simpa [AuthAo.writeIps, UsersImpl.setUser_of_ne _ _ hji] using hcurr }

/-- What a write to one user's property leaves alone. -/
structure WritesOnly (id : UserId) (s s' : AuthAo) : Prop where
  isRunning : s'.isRunning = s.isRunning
  loginIndex : s'.impl.loginIndex = s.impl.loginIndex
  others : ∀ j, j ≠ id → s'.impl.users j = s.impl.users j
  seat : SameSeat (s.impl.users id) (s'.impl.users id)

/-- **A change of a property** of a user: it returns, and if nobody is in the way the plugin then
authorizes the user if and only if it is to. -/
theorem Invariant.set (h : Invariant ao s) (hl : s.impl.loginIndex login = some id)
    {write : AuthAo → AuthAo} (honly : ∀ s, WritesOnly id s (write s))
    (hwrite : ∀ s, Invariant ao s → s.impl.loginIndex login = some id →
      ao ∉ (s.impl.users id).authorizedBy → Invariant ao (write s)) {ips : UserIPs}
    (hips : ∀ impl, UsersImpl.Spares ao s.impl impl →
      ((write (s.withImpl impl)).impl.users id).ips = ips) :
    ∃ s', s.set ao env id write = some s' ∧ Invariant ao s' ∧ s'.isRunning = s.isRunning ∧
      s'.impl.loginIndex = s.impl.loginIndex ∧ (s'.impl.users id).ips = ips ∧
      (∃ impl, UsersImpl.Spares ao s.impl impl ∧
        s'.alwaysOnline = (write (s.withImpl impl)).alwaysOnline) ∧
      (s.isRunning = true → Unobstructed ao s.impl id ips → Decided ao s' id) := by
  obtain ⟨impl₁, heq₁, hsp₁, hgone₁, hothers₁, hinv₁⟩ := h.before env hl
  have honly₁ := honly (s.withImpl impl₁)
  have hips₁ := hips impl₁ hsp₁
  have hl₁ : (s.withImpl impl₁).impl.loginIndex login = some id := by
    rw [impl_withImpl, hsp₁.loginIndex]
    exact hl
  have hinv₂ := hwrite (s.withImpl impl₁) hinv₁ hl₁ hgone₁
  generalize hs₂ : write (s.withImpl impl₁) = s₂ at honly₁ hips₁ hinv₂
  have hl₂ : s₂.impl.loginIndex login = some id := by rw [honly₁.loginIndex, hl₁]
  have hgone₂ : ao ∉ (s₂.impl.users id).authorizedBy := by
    rw [honly₁.seat.authorizedBy]
    exact hgone₁
  obtain ⟨impl₃, heq₃, hsp₃, hinv₃, hdecided⟩ := hinv₂.after env hl₂ hgone₂
  refine ⟨s₂.withImpl impl₃, ?_, hinv₃, honly₁.isRunning, ?_, ?_, ⟨impl₁, hsp₁, by rw [hs₂]; rfl⟩, ?_⟩
  · simp only [AuthAo.set, heq₁, Option.bind_some, hs₂, heq₃, Option.map_some]
  · rw [impl_withImpl, hsp₃.loginIndex, honly₁.loginIndex, impl_withImpl, hsp₁.loginIndex]
  · rw [impl_withImpl, hsp₃.ips, hips₁]
  · intro hrun hfree
    refine hdecided (honly₁.isRunning.trans hrun) ?_
    rw [hips₁]
    intro ip hip
    obtain ⟨hother, hsame⟩ := hfree ip hip
    refine ⟨fun j hj => ?_, fun a ha hne => ?_⟩
    · rw [honly₁.others j hj, impl_withImpl, hothers₁ j hj]
      exact hother j hj
    · rw [honly₁.seat.authorizedBy, impl_withImpl, hsp₁.others a hne] at ha
      rw [honly₁.seat.currIP, impl_withImpl, hsp₁.currIP a hne id ha]
      exact hsame a ha hne

theorem writesOnly_writeAlwaysOnline (id : UserId) (v : ℤ) (s : AuthAo) :
    WritesOnly id s (s.writeAlwaysOnline id v) :=
  ⟨rfl, rfl, fun _ _ => rfl, .refl _⟩

theorem writesOnly_writeIps (id : UserId) (v : UserIPs) (s : AuthAo) :
    WritesOnly id s (s.writeIps env id v) where
  isRunning := rfl
  loginIndex := rfl
  others j hj := by simp [AuthAo.writeIps, UsersImpl.setUser_of_ne _ _ hj]
  seat := by simpa [AuthAo.writeIps] using (sameSeat_setIps env v (s.impl.users id)).1

/-- **A change of `alwaysOnline`.** -/
theorem Invariant.setAlwaysOnline (h : Invariant ao s) (hl : s.impl.loginIndex login = some id)
    (v : ℤ) :
    ∃ s', s.step ao (.setAlwaysOnline env login v) = some s' ∧ Invariant ao s' ∧
      s'.alwaysOnline id = v ∧ (s'.impl.users id).ips = (s.impl.users id).ips ∧
      (s.isRunning = true → Unobstructed ao s.impl id (s.impl.users id).ips → Decided ao s' id) := by
  obtain ⟨s', heq, hinv, -, -, hips, ⟨impl, -, hflag⟩, hdecided⟩ := h.set env hl
    (writesOnly_writeAlwaysOnline id v) (fun s hs hl hgone => hs.writeAlwaysOnline hl hgone v)
    fun impl hsp => hsp.ips id
  refine ⟨s', by simp only [step, hl, heq], hinv, ?_, hips, hdecided⟩
  rw [hflag]
  simp [AuthAo.writeAlwaysOnline]

/-- **A change of `ips`.** -/
theorem Invariant.setIps (h : Invariant ao s) (hl : s.impl.loginIndex login = some id)
    (v : UserIPs) :
    ∃ s', s.step ao (.setIps env login v) = some s' ∧ Invariant ao s' ∧
      s'.alwaysOnline id = s.alwaysOnline id ∧ (s'.impl.users id).ips = v ∧
      (s.isRunning = true → Unobstructed ao s.impl id v → Decided ao s' id) := by
  have hwritten : ∀ impl, UsersImpl.Spares ao s.impl impl →
      (((s.withImpl impl).writeIps env id v).impl.users id).ips = v := by
    intro impl _
    simp [AuthAo.writeIps, (sameSeat_setIps env v _).2]
  obtain ⟨s', heq, hinv, -, -, hips, ⟨impl, -, hflag⟩, hdecided⟩ := h.set env hl
    (writesOnly_writeIps env id v) (fun s hs _ hgone => hs.writeIps env hgone v) hwritten
  exact ⟨s', by simp only [step, hl, heq], hinv, by rw [hflag]; rfl, hips, hdecided⟩

/-- The server with a new user, and the plugin subscribed to it. -/
def withUser (s : AuthAo) (u : UserImpl) : AuthAo where
  server := { s.server with
    impl := { s.impl.setUser s.server.next u with
      loginIndex :=
        if (s.impl.loginIndex u.login).isSome then s.impl.loginIndex
        else Function.update s.impl.loginIndex u.login (some s.server.next) }
    list := s.server.next :: s.server.list
    deleted := Function.update s.server.deleted s.server.next false
    next := s.server.next + 1 }
  alwaysOnline := Function.update s.alwaysOnline s.server.next 0
  isRunning := s.isRunning
  userList := if s.isRunning then s.userList ++ [s.server.next] else s.userList
  conns := if s.isRunning then s.conns ++ [s.server.next] else s.conns

/-- What an addition does; the plugin has nothing to do, as the user is not always online. -/
theorem step_add {priv : Priv} {stored : Bool} (hpriv : priv.userAddDel ≠ 0) (hstored : stored = true)
    (login : String) (noTariff : TariffImpl) (lastWriteStat passiveTime : Time) :
    s.step ao (.add env priv stored login noTariff lastWriteStat passiveTime) =
      some (s.withUser (newUser login noTariff lastWriteStat passiveTime)) := by
  have hadd : ∀ u, s.server.add priv stored u = (s.withUser u).server := by
    intro u
    simp only [UsersList.add, if_neg hpriv, hstored, Bool.true_eq_false, if_false]
    rfl
  have hallowed : ¬ (priv.userAddDel = 0 ∨ stored = false) := by
    rw [not_or]
    exact ⟨hpriv, by simp [hstored]⟩
  simp only [step, if_neg hallowed, hadd]
  cases hrun : s.isRunning with
  | false =>
    simp only [withUser, hrun, Bool.false_eq_true, if_false]
  | true =>
    simp only [addUser, updateUserAuthorization, Function.update_self, ne_eq, not_true_eq_false,
      if_false, Option.map_some, withUser, hrun, if_true]
    rfl

/-- The users found by login after an addition. -/
theorem loginIndex_withUser (u : UserImpl) (login : String) (j : UserId) :
    (s.withUser u).impl.loginIndex login = some j ↔ s.impl.loginIndex login = some j ∨
      s.impl.loginIndex login = none ∧ login = u.login ∧ j = s.server.next := by
  by_cases hsome : (s.impl.loginIndex u.login).isSome = true
  · have hindex : (s.withUser u).impl.loginIndex = s.impl.loginIndex := if_pos hsome
    rw [hindex]
    refine ⟨.inl, fun h => h.resolve_right ?_⟩
    rintro ⟨hnone, rfl, -⟩
    simp [hnone] at hsome
  · have hnone : s.impl.loginIndex u.login = none := by simpa using hsome
    have hindex : (s.withUser u).impl.loginIndex =
        Function.update s.impl.loginIndex u.login (some s.server.next) := if_neg hsome
    rw [hindex]
    by_cases hl : login = u.login
    · subst hl
      simp [hnone, eq_comm]
    · simp [hl]

theorem users_withUser_self (u : UserImpl) : (s.withUser u).impl.users s.server.next = u := by
  simp [AuthAo.withUser, AuthAo.impl, UsersImpl.setUser]

theorem users_withUser_of_ne (u : UserImpl) {j : UserId} (hj : j ≠ s.server.next) :
    (s.withUser u).impl.users j = s.impl.users j := by
  simp [AuthAo.withUser, AuthAo.impl, UsersImpl.setUser, hj]

/-- In terms of authorizations nothing changes with a new user. -/
theorem Invariant.auths_withUser (h : Invariant ao s) {u : UserImpl} (hby : u.authorizedBy = ∅)
    (hcurr : u.currIP = 0) (j : UserId) :
    ((s.withUser u).impl.users j).authorizedBy = (s.impl.users j).authorizedBy ∧
      ((s.withUser u).impl.users j).currIP = (s.impl.users j).currIP := by
  by_cases hj : j = s.server.next
  · subst hj
    have hnobody := (h.fresh s.server.next le_rfl).2.2
    rw [users_withUser_self, hby, hcurr, hnobody, (h.placed.currIP_eq_zero _).2 hnobody]
    exact ⟨rfl, rfl⟩
  · rw [users_withUser_of_ne u hj]
    exact ⟨rfl, rfl⟩

/-- A new user without an authorizer. -/
theorem Invariant.withUser (h : Invariant ao s) {u : UserImpl} (hby : u.authorizedBy = ∅)
    (hcurr : u.currIP = 0) : Invariant ao (s.withUser u) := by
  obtain ⟨hlist, hconns, hnobody⟩ := h.fresh s.server.next le_rfl
  have hself : (s.withUser u).impl.users s.server.next = u := users_withUser_self u
  have hother : ∀ j, j ≠ s.server.next → (s.withUser u).impl.users j = s.impl.users j :=
    fun _ => users_withUser_of_ne u
  have hauths := h.auths_withUser hby hcurr
  have hne : ∀ {login j}, s.impl.loginIndex login = some j → j ≠ s.server.next := fun hl hc =>
    hlist (hc ▸ (h.listed _ _ hl).1)
  exact {
    placed := by
      refine ⟨fun j => ?_, UsersImpl.Indexed.of_iff fun ip j => ?_⟩
      · rw [(hauths j).1, (hauths j).2]
        exact h.placed.currIP_eq_zero j
      · rw [(hauths j).1, (hauths j).2]
        exact h.placed.indexed.index_iff ip j
    login_eq := fun login j hl => by
      rcases (loginIndex_withUser u login j).1 hl with hl | ⟨-, rfl, rfl⟩
      · rw [hother j (hne hl)]
        exact h.login_eq login j hl
      · rw [hself]
    listed := fun login j hl => by
      rcases (loginIndex_withUser u login j).1 hl with hl | ⟨-, rfl, rfl⟩
      · exact ⟨List.mem_cons_of_mem _ (h.listed login j hl).1,
          by simpa [AuthAo.withUser, hne hl] using (h.listed login j hl).2⟩
      · exact ⟨List.mem_cons_self, by simp [AuthAo.withUser]⟩
    nodup := List.nodup_cons.2 ⟨hlist, h.nodup⟩
    fresh := fun j hj => by
      have hj' : s.server.next + 1 ≤ j := hj
      obtain ⟨hjlist, hjconns, hjby⟩ := h.fresh j (Nat.le_of_succ_le hj')
      have hjne : j ≠ s.server.next := Nat.ne_of_gt hj'
      refine ⟨by simp [AuthAo.withUser, hjne, hjlist], ?_, (hauths j).1.trans hjby⟩
      cases hrun : s.isRunning <;> simp [AuthAo.withUser, hrun, hjconns, hjne]
    conns_nodup := by
      cases hrun : s.isRunning with
      | false => simpa [AuthAo.withUser, hrun] using h.conns_nodup
      | true =>
        simp only [AuthAo.withUser, hrun, if_true]
        exact h.conns_nodup.append (List.nodup_singleton _) (by simpa using hconns)
    bystander := fun j hj hdel => by
      by_cases hjn : j = s.server.next
      · exact .inr (by simp [AuthAo.withUser, hjn])
      · have hjlist : j ∈ s.server.list := (List.mem_cons.1 hj).resolve_left hjn
        rcases h.bystander j hjlist (by simpa [AuthAo.withUser, hjn] using hdel) with hl | hzero
        · refine .inl ((loginIndex_withUser u _ j).2 (.inl ?_))
          rw [hother j hjn]
          exact hl
        · exact .inr (by simpa [AuthAo.withUser, hjn] using hzero)
    idle := fun hrun => by
      have hrun' : s.isRunning = false := hrun
      obtain ⟨huserList, hconns', hnobody'⟩ := h.idle hrun'
      refine ⟨by simpa [AuthAo.withUser, hrun'] using huserList,
        by simpa [AuthAo.withUser, hrun'] using hconns', fun j => ?_⟩
      rw [(hauths j).1]
      exact hnobody' j
    subscribed := fun hrun login j hl => by
      have hrun' : s.isRunning = true := hrun
      simp only [AuthAo.withUser, hrun', if_true, List.mem_append, List.mem_singleton]
      rcases (loginIndex_withUser u login j).1 hl with hl | ⟨-, -, rfl⟩
      · exact .inl (h.subscribed hrun' login j hl)
      · exact .inr rfl
    online := fun login j hl hauth => by
      rw [(hauths j).1] at hauth
      have hjn : j ≠ s.server.next := fun hc => by
        rw [hc, hnobody] at hauth
        simp at hauth
      have hl' : s.impl.loginIndex login = some j := by
        rcases (loginIndex_withUser u login j).1 hl with hl | ⟨-, -, hc⟩
        · exact hl
        · exact absurd hc hjn
      obtain ⟨hflag, ip, hip, hips, hcurr'⟩ := h.online login j hl' hauth
      refine ⟨by simpa [AuthAo.withUser, hjn] using hflag, ip, hip, ?_, ?_⟩
      · rw [hother j hjn]
        exact hips
      · rw [hother j hjn]
        exact hcurr' }

/-- **An addition**: the new user is not authorized, and is not to be. -/
theorem Invariant.add (h : Invariant ao s) (priv : Priv) (stored : Bool) (login : String)
    (noTariff : TariffImpl) (lastWriteStat passiveTime : Time) :
    ∃ s', s.step ao (.add env priv stored login noTariff lastWriteStat passiveTime) = some s' ∧
      Invariant ao s' ∧ (priv.userAddDel ≠ 0 → stored = true → Decided ao s' s.server.next) := by
  by_cases hadded : priv.userAddDel ≠ 0 ∧ stored = true
  · refine ⟨_, step_add env hadded.1 hadded.2 login noTariff lastWriteStat passiveTime,
      h.withUser rfl rfl, fun _ _ => ?_⟩
    simp [Decided, AuthAo.withUser, AuthAo.impl, UsersImpl.setUser, newUser]
  · have hrefused : priv.userAddDel = 0 ∨ stored = false := by
      rcases not_and_or.1 hadded with hc | hc
      · exact .inl (not_not.1 hc)
      · exact .inr (by simpa using hc)
    exact ⟨s, by simp only [step, if_pos hrefused], h, fun hpriv hstored =>
      absurd ⟨hpriv, hstored⟩ hadded⟩

/-- The server without a user, and the plugin not subscribed to it. -/
def withoutUser (priv : Priv) (login : String) (id : UserId) (s : AuthAo) : AuthAo :=
  { s with
    server := (s.server.delMark priv login).delFinish env id
    conns := s.conns.filter (· ≠ id)
    userList := s.userList.filter (· ≠ id) }

/-- A user that is found is marked. -/
theorem delMark_eq {server : UsersList} {priv : Priv} (hpriv : priv.userAddDel ≠ 0)
    (hl : server.impl.loginIndex login = some id) :
    server.delMark priv login = { server with
      deleted := Function.update server.deleted id true
      pending := id :: server.pending } := by
  simp only [UsersList.delMark, if_neg hpriv, hl]

section WithoutUser

variable {priv : Priv} (hpriv : priv.userAddDel ≠ 0) (hl : s.impl.loginIndex login = some id)

include hpriv hl

/-- The server without the user, field by field. -/
theorem server_withoutUser :
    (s.withoutUser env priv login id).server.deleted = Function.update s.server.deleted id true ∧
      (s.withoutUser env priv login id).server.list = s.server.list ∧
        (s.withoutUser env priv login id).server.next = s.server.next ∧
          (s.withoutUser env priv login id).impl.ipIndex = s.impl.ipIndex := by
  simp only [AuthAo.withoutUser, AuthAo.impl, delMark_eq hpriv hl, UsersList.delFinish]
  exact ⟨trivial, trivial, trivial, rfl⟩

theorem users_withoutUser_of_ne {j : UserId} (hj : j ≠ id) :
    (s.withoutUser env priv login id).impl.users j = s.impl.users j := by
  simp only [AuthAo.withoutUser, AuthAo.impl, delMark_eq hpriv hl, UsersList.delFinish]
  exact UsersImpl.setUser_of_ne _ _ hj

theorem sameSeat_withoutUser (j : UserId) :
    SameSeat (s.impl.users j) ((s.withoutUser env priv login id).impl.users j) := by
  simp only [AuthAo.withoutUser, AuthAo.impl, delMark_eq hpriv hl, UsersList.delFinish]
  by_cases hj : j = id
  · subst hj
    rw [UsersImpl.setUser_self]
    exact sameSeat_run env _
  · rw [UsersImpl.setUser_of_ne _ _ hj]
    exact .refl _

theorem loginIndex_withoutUser (hlogin : (s.impl.users id).login = login) :
    (s.withoutUser env priv login id).impl.loginIndex =
      Function.update s.impl.loginIndex login none := by
  simp only [AuthAo.withoutUser, AuthAo.impl, delMark_eq hpriv hl, UsersList.delFinish]
  rw [show (s.server.impl.users id).login = login from hlogin]

/-- The users that are still found. -/
theorem Invariant.found_withoutUser (h : Invariant ao s) {login' : String} {j : UserId}
    (hj : (s.withoutUser env priv login id).impl.loginIndex login' = some j) :
    s.impl.loginIndex login' = some j ∧ j ≠ id := by
  have hlogin : (s.impl.users id).login = login := h.login_eq login id hl
  rw [loginIndex_withoutUser env hpriv hl hlogin] at hj
  by_cases hl' : login' = login
  · simp [hl'] at hj
  · rw [Function.update_of_ne hl'] at hj
    refine ⟨hj, fun hc => hl' ?_⟩
    rw [← h.login_eq login' j hj, hc, hlogin]

/-- A user is taken out of the index of logins. -/
theorem Invariant.withoutUser (h : Invariant ao s) :
    Invariant ao (s.withoutUser env priv login id) := by
  obtain ⟨hdeleted, hlist, hnext, hips⟩ := server_withoutUser env hpriv hl
  have huser := sameSeat_withoutUser env hpriv hl
  have hother : ∀ j, j ≠ id → (s.withoutUser env priv login id).impl.users j = s.impl.users j :=
    fun _ => users_withoutUser_of_ne env hpriv hl
  have hindex := loginIndex_withoutUser env hpriv hl (h.login_eq login id hl)
  have hfound : ∀ login' j, (s.withoutUser env priv login id).impl.loginIndex login' = some j →
      s.impl.loginIndex login' = some j ∧ j ≠ id := fun _ _ => h.found_withoutUser env hpriv hl
  exact {
    placed := by
      refine ⟨fun j => ?_, UsersImpl.Indexed.of_iff fun ip j => ?_⟩
      · rw [(huser j).authorizedBy, (huser j).currIP]
        exact h.placed.currIP_eq_zero j
      · rw [(huser j).authorizedBy, (huser j).currIP]
        rw [hips]
        exact h.placed.indexed.index_iff ip j
    login_eq := fun login' j hj => by
      rw [(huser j).login]
      exact h.login_eq login' j (hfound login' j hj).1
    listed := fun login' j hj => by
      rw [hlist, hdeleted, Function.update_of_ne (hfound login' j hj).2]
      exact h.listed login' j (hfound login' j hj).1
    nodup := by
      rw [hlist]
      exact h.nodup
    fresh := fun j hj => by
      rw [hnext] at hj
      obtain ⟨hjlist, hjconns, hjby⟩ := h.fresh j hj
      refine ⟨by rw [hlist]; exact hjlist, fun hc => hjconns (List.mem_of_mem_filter hc), ?_⟩
      rw [(huser j).authorizedBy]
      exact hjby
    conns_nodup := h.conns_nodup.filter _
    bystander := fun j hj hdel => by
      rw [hlist] at hj
      rw [hdeleted] at hdel
      have hji : j ≠ id := fun hc => by simp [hc] at hdel
      rw [Function.update_of_ne hji] at hdel
      rcases h.bystander j hj hdel with hl' | hzero
      · refine .inl ?_
        have hne : (s.impl.users j).login ≠ login := fun hc => by
          rw [hc, hl] at hl'
          exact hji (Option.some.inj hl').symm
        rw [(huser j).login, hindex, Function.update_of_ne hne]
        exact hl'
      · exact .inr hzero
    idle := fun hrun => by
      obtain ⟨huserList, hconns, hnobody⟩ := h.idle hrun
      refine ⟨by simp [AuthAo.withoutUser, huserList], by simp [AuthAo.withoutUser, hconns],
        fun j => ?_⟩
      rw [(huser j).authorizedBy]
      exact hnobody j
    subscribed := fun hrun login' j hj =>
      List.mem_filter.2 ⟨h.subscribed hrun login' j (hfound login' j hj).1,
        by simpa using (hfound login' j hj).2⟩
    online := fun login' j hj hauth => by
      rw [(huser j).authorizedBy] at hauth
      obtain ⟨hflag, ip, hip, hips', hcurr⟩ := h.online login' j (hfound login' j hj).1 hauth
      exact ⟨hflag, ip, hip, by rw [hother j (hfound login' j hj).2, hips'],
        by rw [hother j (hfound login' j hj).2, hcurr]⟩ }

end WithoutUser

/-- **A deletion.** -/
theorem Invariant.del (h : Invariant ao s) (priv : Priv) (login : String) :
    ∃ s', s.step ao (.del env priv login) = some s' ∧ Invariant ao s' := by
  by_cases hpriv : priv.userAddDel = 0
  · exact ⟨s, by simp only [step, if_pos hpriv], h⟩
  · cases hl : s.impl.loginIndex login with
    | none => exact ⟨s, by simp only [step, if_neg hpriv, hl], h⟩
    | some id =>
      obtain ⟨impl, heq, hsp, -, -, hinv⟩ := h.before env hl
      rw [notify_eq h.conns_nodup] at heq
      have hl' : (s.withImpl impl).impl.loginIndex login = some id := by
        rw [impl_withImpl, hsp.loginIndex, hl]
      refine ⟨_, ?_, hinv.withoutUser env hpriv hl'⟩
      have hmark : ∀ impl : UsersImpl, impl.loginIndex login = some id →
          ({ s.server with impl := impl } : UsersList).delMark priv login =
            { s.server with
              impl := impl
              deleted := Function.update s.server.deleted id true
              pending := id :: s.server.pending } := fun impl hl => delMark_eq hpriv hl
      have hmark₁ := hmark impl hl'
      have hmark₂ : s.server.delMark priv login = _ := hmark s.impl hl
      simp only [step, if_neg hpriv, hl, hmark₂]
      cases hrun : s.isRunning with
      | false =>
        obtain ⟨huserList, hconns, -⟩ := h.idle hrun
        rw [if_neg (by simp [hconns])] at heq
        obtain rfl := Option.some.inj heq
        simp only [AuthAo.withoutUser, AuthAo.withImpl, hmark₁, huserList, hconns, hrun,
          List.filter_nil, Bool.false_eq_true, if_false, Option.map_some]
      | true =>
        rw [if_pos (h.subscribed hrun login id hl)] at heq
        simp only [AuthAo.impl] at heq
        simp only [if_true, AuthAo.delUser, AuthAo.withoutUser, AuthAo.withImpl, hmark₁,
          AuthAo.impl, heq, Option.map_some, hrun]

/-- The loop of `AUTH_AO::Start`.

**Proof sketch.** Induction on the users.  The plugin has not authorized those that are still to
come: whom it authorizes on the way has the login of the user the loop is at. -/
theorem Invariant.startLoop (l : List UserId) (h : Invariant ao s) (hrun : s.isRunning = true)
    (hnodup : l.Nodup) (hl : ∀ j ∈ l, j ∈ s.server.list ∧ s.server.deleted j = false)
    (hgone : ∀ j ∈ l, ∀ login, s.impl.loginIndex login = some j →
      ao ∉ (s.impl.users j).authorizedBy) :
    ∃ impl, l.foldlM (fun impl id => updateUserAuthorization ao env (s.alwaysOnline id) id impl)
      s.impl = some impl ∧ Invariant ao (s.withImpl impl) := by
  induction l generalizing s with
  | nil => exact ⟨s.impl, rfl, h⟩
  | cons id l ih =>
    obtain ⟨hid, hrest⟩ := List.nodup_cons.1 hnodup
    -- one round of the loop
    have hround : ∃ impl, updateUserAuthorization ao env (s.alwaysOnline id) id s.impl = some impl ∧
        Invariant ao (s.withImpl impl) ∧ ∀ login j, impl.loginIndex login = some j →
          s.impl.loginIndex login = some j ∧ (j ≠ id → ao ∈ (impl.users j).authorizedBy →
            ao ∈ (s.impl.users j).authorizedBy) := by
      rcases h.bystander id (hl id (by simp)).1 (hl id (by simp)).2 with hfound | hzero
      · obtain ⟨impl, heq, hsp, hinv, hwho, -⟩ := h.update env hrun hfound
          (hgone id (by simp) _ hfound)
        refine ⟨impl, heq, hinv, fun login j hj => ?_⟩
        rw [hsp.loginIndex] at hj
        exact ⟨hj, hwho login j hj⟩
      · exact ⟨s.impl, by simp [updateUserAuthorization, hzero], h, fun login j hj =>
          ⟨hj, fun _ hauth => hauth⟩⟩
    obtain ⟨impl, heq, hinv, hwho⟩ := hround
    obtain ⟨impl', heq', hinv'⟩ := ih hinv hrun hrest (fun j hj => hl j (by simp [hj]))
      fun j hj login hfound hauth => by
        obtain ⟨hfound', hold⟩ := hwho login j hfound
        have hji : j ≠ id := fun hc => hid (hc ▸ hj)
        exact hgone j (by simp [hj]) login hfound' (hold hji hauth)
    refine ⟨impl', ?_, hinv'⟩
    rw [List.foldlM_cons, heq]
    exact heq'

/-- **The start of the plugin.** -/
theorem Invariant.start (h : Invariant ao s) (hrun : s.isRunning = false) :
    ∃ s', s.step ao (.start env) = some s' ∧ Invariant ao s' ∧ s'.isRunning = true := by
  obtain ⟨huserList, hconns, hnobody⟩ := h.idle hrun
  set found := s.server.list.filter fun id => !s.server.deleted id with hfound
  set s₁ : AuthAo := { s with isRunning := true, userList := found, conns := found } with hs₁
  have hmem : ∀ {j}, j ∈ found ↔ j ∈ s.server.list ∧ s.server.deleted j = false := by
    simp [hfound]
  have hinv : Invariant ao s₁ := { h with
    fresh := fun j hj => ⟨(h.fresh j hj).1, fun hc => (h.fresh j hj).1 (hmem.1 hc).1,
      (h.fresh j hj).2.2⟩
    conns_nodup := h.nodup.filter _
    idle := by simp [hs₁]
    subscribed := fun _ login j hj => hmem.2 (h.listed login j hj)
    online := fun login j _ hauth => absurd hauth (hnobody j) }
  obtain ⟨impl, heq, hinv'⟩ := hinv.startLoop env found rfl (h.nodup.filter _) (fun j hj => hmem.1 hj)
    fun j _ _ _ => hnobody j
  refine ⟨s₁.withImpl impl, ?_, hinv', rfl⟩
  simp only [step, hrun, Bool.false_eq_true, if_false, AuthAo.start, huserList, hconns,
    List.nil_append, ← hfound]
  exact congrArg (Option.map fun impl => { s₁.withImpl impl with isRunning := true }) heq

/-- **One step.** -/
theorem Invariant.step {a : Action} {s' : AuthAo} (h : Invariant ao s) (hg : Foreign ao s a)
    (hs : s.step ao a = some s') : Invariant ao s' := by
  have hreturns : (∃ t, s.step ao a = some t ∧ Invariant ao t) → Invariant ao s' := by
    rintro ⟨t, ht, hinv⟩
    rw [ht] at hs
    rwa [← Option.some.inj hs]
  cases a with
  | start env =>
    cases hrun : s.isRunning with
    | true => simp [AuthAo.step, hrun] at hs
    | false =>
      obtain ⟨t, ht, hinv, -⟩ := h.start env hrun
      exact hreturns ⟨t, ht, hinv⟩
  | add env priv stored login noTariff lastWriteStat passiveTime =>
    obtain ⟨t, ht, hinv, -⟩ := h.add env priv stored login noTariff lastWriteStat passiveTime
    exact hreturns ⟨t, ht, hinv⟩
  | del env priv login => exact hreturns (h.del env priv login)
  | setAlwaysOnline env login v =>
    cases hl : s.impl.loginIndex login with
    | none => exact hreturns ⟨s, by simp only [AuthAo.step, hl], h⟩
    | some id =>
      obtain ⟨t, ht, hinv, -⟩ := h.setAlwaysOnline env hl v
      exact hreturns ⟨t, ht, hinv⟩
  | setIps env login v =>
    cases hl : s.impl.loginIndex login with
    | none => exact hreturns ⟨s, by simp only [AuthAo.step, hl], h⟩
    | some id =>
      obtain ⟨t, ht, hinv, -⟩ := h.setIps env hl v
      exact hreturns ⟨t, ht, hinv⟩
  | authorize env login ip dirs auth =>
    obtain ⟨out, hout, rfl⟩ := Option.map_eq_some_iff.1 hs
    exact h.foreign (UsersImpl.authorize_spares h.placed hout).1 hg
  | unauthorize env login auth reason =>
    obtain ⟨out, hout, rfl⟩ := Option.map_eq_some_iff.1 hs
    exact h.foreign (UsersImpl.unauthorize_spares h.placed hout).1 hg

theorem Initial.invariant (h : s.Initial) : Invariant ao s where
  placed := ⟨fun id => by simp [h.authorizedBy, h.currIP],
    UsersImpl.Indexed.of_iff fun _ _ => by simp [h.ipIndex, h.authorizedBy]⟩
  login_eq := h.login_eq
  listed login id hl := ⟨h.listed login id hl, h.deleted id⟩
  nodup := h.nodup
  fresh id hid := ⟨fun hc => absurd (h.fresh id hc) (not_lt.2 hid), by simp [h.conns],
    h.authorizedBy id⟩
  conns_nodup := by simp [h.conns]
  bystander id hid _ := .inl (h.found id hid)
  idle _ := ⟨h.userList, h.conns, fun id => by simp [h.authorizedBy]⟩
  subscribed hrun := by simp [h.isRunning] at hrun
  online login id _ hauth := by simp [h.authorizedBy] at hauth

end Steps

/-- What holds while the plugin runs: a user it authorized has the flag, one address, and is at it;
and whatever change of `alwaysOnline` or `ips`, or addition, comes next, it returns, the value is
stored, and, if nobody is in the way, the plugin then authorizes the user if and only if it is to. -/
structure Supervises (ao : AuthId) (s : AuthAo) : Prop where
  online : ∀ login id, s.impl.loginIndex login = some id → ao ∈ (s.impl.users id).authorizedBy →
    Online s.alwaysOnline s.impl id
  setAlwaysOnline : ∀ env login id v, s.impl.loginIndex login = some id →
    Unobstructed ao s.impl id (s.impl.users id).ips →
      ∃ s', s.step ao (.setAlwaysOnline env login v) = some s' ∧ s'.alwaysOnline id = v ∧
        (s'.impl.users id).ips = (s.impl.users id).ips ∧ Decided ao s' id
  setIps : ∀ env login id v, s.impl.loginIndex login = some id → Unobstructed ao s.impl id v →
    ∃ s', s.step ao (.setIps env login v) = some s' ∧ s'.alwaysOnline id = s.alwaysOnline id ∧
      (s'.impl.users id).ips = v ∧ Decided ao s' id
  add : ∀ env priv stored login noTariff lastWriteStat passiveTime, priv.userAddDel ≠ 0 →
    stored = true →
      ∃ s', s.step ao (.add env priv stored login noTariff lastWriteStat passiveTime) = some s' ∧
        Decided ao s' s.server.next

/-- **Always online.** The plugin is started after any run, and anything can happen after that.

**Proof sketch.** The invariant holds along every run; the rest is what single changes do in a state
in which it holds. -/
theorem always_online (ao : AuthId) (s t : AuthAo) (as : List Action) (h : s.Initial)
    (hrun : Transition.Reaches (step ao) (Foreign ao) s as t) (hstarted : t.isRunning = true) :
    Supervises ao t := by
  have hinv : Invariant ao t :=
    hrun.invariant (fun _ _ _ hs hg hstep => hs.step hg hstep) h.invariant
  refine ⟨hinv.online, fun env login id v hl hfree => ?_, fun env login id v hl hfree => ?_, ?_⟩
  · obtain ⟨t', ht', -, hflag, hips, hdecided⟩ := hinv.setAlwaysOnline env hl v
    exact ⟨t', ht', hflag, hips, hdecided hstarted hfree⟩
  · obtain ⟨t', ht', -, hflag, hips, hdecided⟩ := hinv.setIps env hl v
    exact ⟨t', ht', hflag, hips, hdecided hstarted hfree⟩
  · intro env priv stored login noTariff lastWriteStat passiveTime hpriv hstored
    obtain ⟨t', ht', -, hdecided⟩ := hinv.add env priv stored login noTariff lastWriteStat passiveTime
    exact ⟨t', ht', hdecided hpriv hstored⟩

end AuthAo

namespace Sample

/-- One user with one address, before the plugin is started. -/
def offline : AuthAo where
  server :=
    { impl :=
        { users := fun _ => { user "alice" with ips := [⟨0x0102a8c0, 32⟩] }
          loginIndex := fun login => if login = "alice" then some 0 else none
          ipIndex := fun _ => none }
      list := [0]
      next := 1 }
  alwaysOnline := fun _ => 0

theorem offline_initial : offline.Initial where
  isRunning := rfl
  userList := rfl
  conns := rfl
  nodup := by simp [offline]
  fresh := by simp [offline]
  deleted _ := rfl
  login_eq login id hl := by
    have hlogin : login = "alice" := by
      by_contra hc
      simp [offline, AuthAo.impl, hc] at hl
    rw [hlogin]
    rfl
  listed login id hl := by
    by_cases hlogin : login = "alice"
    · simp [offline, AuthAo.impl, hlogin] at hl
      simp [offline, ← hl]
    · simp [offline, AuthAo.impl, hlogin] at hl
  found id hid := by
    have hzero : id = 0 := by simpa [offline] using hid
    rw [hzero]
    rfl
  ipIndex _ := rfl
  authorizedBy _ := rfl
  currIP _ := rfl

end Sample

open Sample in
/-- The plugin is started, and the user can then be put online for ever. -/
theorem AuthAo.always_online_alice : ∃ s t,
    Transition.Reaches (AuthAo.step 7) (AuthAo.Foreign 7) offline [.start (env 0)] s ∧
      AuthAo.Supervises 7 s ∧
      s.step 7 (.setAlwaysOnline (env 0) "alice" 1) = some t ∧
      7 ∈ (t.impl.users 0).authorizedBy := by
  set s : AuthAo := { offline with isRunning := true, userList := [0], conns := [0] } with hs
  have hrun : Transition.Reaches (AuthAo.step 7) (AuthAo.Foreign 7) offline [.start (env 0)] s :=
    .cons trivial rfl (.nil s)
  have hsup : AuthAo.Supervises 7 s := AuthAo.always_online 7 offline s _ offline_initial hrun rfl
  have hfree : AuthAo.Unobstructed 7 s.impl 0 (s.impl.users 0).ips := fun ip _ =>
    ⟨fun j _ hby => absurd rfl hby, fun a ha => absurd ha (Finset.notMem_empty a)⟩
  obtain ⟨t, ht, hflag, hips, hdecided⟩ := hsup.setAlwaysOnline (env 0) "alice" 0 1 rfl hfree
  refine ⟨s, t, hrun, hsup, ht, hdecided.2 ⟨by simp [hflag], ?_⟩⟩
  rw [hips]
  rfl

end Stargazer
