import Stargazer.AlwaysOnline.AuthAo
import Stargazer.Users.Messages

set_option relaxedAutoImplicit false
set_option autoImplicit false

/-!
# What the results of authorizations say

`UsersImpl::Authorize` (`users_impl.cpp`) and `UserImpl::Authorize` (`user_impl.cpp`) with what they
return and what they leave behind, the messages of the user included, while users come and go and
everything else about them changes.

A success is to mean that the user with the login is at the address, authorized by the authorizer and in
the requested directions; an error of `UserImpl::Authorize` is to mean that nothing has happened.  The
code gives away both: an authorizer that authorized the user before gets a success without a look at the
address and the directions, the directions are stored before the request is refused, and a user that was
deleted while it was authorized stays in the index of addresses, where it is taken for the new user with
its login.

The last call is recorded.  A node that was erased from the list keeps its user here.

## Main definitions

* `Stargazer.AuthServer`, `Stargazer.AuthServer.step` — the users with their messages, and what can
  happen.
* `Stargazer.AuthorizeCall.Exact` — what a call is to say.
* `Stargazer.UsersImpl.ExactWhen` — the calls that say so.

## Main results

* `Stargazer.AuthServer.exact_iff` — one call.
* `Stargazer.AuthServer.results_exact_iff` — every run.
-/

namespace Stargazer

/-- A call of `UserImpl::Authorize`. -/
structure UserCall where
  /-- The user before. -/
  before : UserImpl
  /-- The user afterwards. -/
  after : UserImpl
  /-- The messages before. -/
  messages : List Queued
  /-- The messages afterwards. -/
  messagesAfter : List Queued
  /-- Does it return `0`? -/
  ok : Bool

/-- A call of `UsersImpl::Authorize`. -/
structure AuthorizeCall where
  ip : IP
  dirs : BitVec 32
  auth : AuthId
  /-- What it returns. -/
  ret : Bool
  /-- The user that is found by the login afterwards. -/
  user : Option UserImpl
  /-- The call of `UserImpl::Authorize`, if there is one. -/
  inner : Option UserCall

/-- **What the results are to say.** -/
structure AuthorizeCall.Exact (c : AuthorizeCall) : Prop where
  /-- A success. -/
  success : c.ret = true → ∃ u ∈ c.user, u.currIP = c.ip ∧ c.auth ∈ u.authorizedBy ∧
    u.enabledDirs = UserImpl.dirsFromBits c.dirs
  /-- An error of `UserImpl::Authorize`. -/
  failure : ∀ i ∈ c.inner, i.ok = false → i.after.currIP = i.before.currIP ∧
    i.after.enabledDirs = i.before.enabledDirs ∧ i.after.authorizedBy = i.before.authorizedBy ∧
      i.messagesAfter = i.messages

/-! ## The user that is asked -/

namespace UsersImpl

/-- The user whose `Authorize` is called by `UsersImpl::Authorize`: whoever is at the address, if it has
the login. -/
def target (s : UsersImpl) (login : String) (ip : IP) : Option UserId :=
  (s.loginIndex login).bind fun id =>
    (s.ipIndex ip).elim (some id) fun holder =>
      if (s.users holder).login = login then some holder else none

/-- The call says what is to be said: a user with the login at the address is the one that is found by
the login, and if the authorizer authorized it, the directions are the requested ones; and if nobody is
at the address and the user is refused it, the directions are the ones it had. -/
structure ExactWhen (env : Env) (s : UsersImpl) (login : String) (ip : IP) (dirs : BitVec 32)
    (auth : AuthId) : Prop where
  /-- Somebody with the login is at the address. -/
  held : ∀ id holder, s.loginIndex login = some id → s.ipIndex ip = some holder →
    (s.users holder).login = login → holder = id ∧ (auth ∈ (s.users id).authorizedBy →
      (s.users id).enabledDirs = UserImpl.dirsFromBits dirs)
  /-- Nobody is at the address, and the user is at another one or may not have it. -/
  free : ∀ id, s.loginIndex login = some id → s.ipIndex ip = none → ip ≠ 0 →
    (s.users id).authorizedBy ≠ ∅ ∨ (s.users id).ips.find env.shifted ip = false →
      (s.users id).enabledDirs = UserImpl.dirsFromBits dirs

variable {s : UsersImpl} {env : Env} {login : String} {ip : IP} {dirs : BitVec 32} {auth : AuthId}
  {out : Outcome} {id : UserId}

/-- The user that is asked, and why. -/
theorem target_eq_some_iff : s.target login ip = some id ↔
    (s.ipIndex ip = none ∧ s.loginIndex login = some id) ∨
      (s.ipIndex ip = some id ∧ (s.users id).login = login ∧ s.loginIndex login ≠ none) := by
  unfold target
  cases s.loginIndex login with
  | none => simp
  | some id' =>
    cases s.ipIndex ip with
    | none => simp
    | some holder =>
      simp only [Option.bind_some, Option.elim_some, reduceCtorEq, false_and, false_or,
        Option.some.injEq, ne_eq, not_false_eq_true, and_true]
      split_ifs with hlogin
      · constructor
        · intro h
          obtain rfl := Option.some.inj h
          exact ⟨rfl, hlogin⟩
        · rintro ⟨rfl, -⟩
          rfl
      · constructor
        · intro h
          cases h
        · rintro ⟨rfl, h⟩
          exact absurd h hlogin

/-- Nobody is asked. -/
theorem authorize_of_target_eq_none (h : s.target login ip = none) :
    s.authorize env login ip dirs auth = some ⟨s, false, none⟩ := by
  unfold target at h
  unfold authorize
  cases hl : s.loginIndex login with
  | none => rfl
  | some id =>
    cases hip : s.ipIndex ip with
    | none =>
      rw [hl, hip] at h
      cases h
    | some holder =>
      rw [hl, hip] at h
      have hlogin : (s.users holder).login ≠ login := by
        intro hc
        simp [hc] at h
      simp only [if_pos hlogin]

/-- A user is asked: the result is the user's, and nobody else changes. -/
theorem authorize_of_target (h : s.target login ip = some id)
    (hout : s.authorize env login ip dirs auth = some out) :
    out.ret = ((s.users id).authorize env s.ipIndex id ip dirs auth).ok ∧
      out.users.loginIndex = s.loginIndex ∧
      out.users.users = Function.update s.users id
        ((s.users id).authorize env s.ipIndex id ip dirs auth).user := by
  unfold authorize at hout
  rcases target_eq_some_iff.mp h with ⟨hip, hl⟩ | ⟨hip, hlogin, hl⟩
  · simp only [hl, hip] at hout
    split_ifs at hout with hret
    · obtain rfl := Option.some.inj hout
      exact ⟨rfl, rfl, rfl⟩
    · obtain ⟨s', hs', rfl⟩ := Option.map_eq_some_iff.mp hout
      unfold addToIPIdx at hs'
      simp only at hs'
      split_ifs at hs'
      · obtain rfl := Option.some.inj hs'
        exact ⟨rfl, rfl, rfl⟩
      · obtain rfl := Option.some.inj hs'
        exact ⟨rfl, rfl, rfl⟩
  · obtain ⟨id', hid'⟩ := Option.ne_none_iff_exists'.mp hl
    simp only [hid', hip, hlogin, ne_eq, not_true_eq_false, if_false] at hout
    obtain rfl := Option.some.inj hout
    exact ⟨rfl, rfl, rfl⟩

/-- An authorizer that authorized the user before does not return from an address that nobody has. -/
theorem authorize_known_of_free (hp : s.Placed) (hl : s.loginIndex login = some id)
    (hip : s.ipIndex ip = none) (hauth : auth ∈ (s.users id).authorizedBy) :
    s.authorize env login ip dirs auth = none := by
  have hby : (s.users id).authorizedBy ≠ ∅ := Finset.ne_empty_of_mem hauth
  have hne : (s.users id).currIP ≠ 0 := fun hc => hby ((hp.currIP_eq_zero id).mp hc)
  have hself : s.ipIndex (s.users id).currIP = some id := (hp.indexed.index_iff _ _).mpr ⟨hby, rfl⟩
  have hr : (s.users id).authorize env s.ipIndex id ip dirs auth = ⟨s.users id, true, false⟩ := by
    rw [UserImpl.authorize, if_pos hauth]
  simp only [authorize, hl, hip, authorizeUser, hr, Bool.true_eq_false, if_false, addToIPIdx,
    setUser_self, if_neg hne, setUser_ipIndex, hself, Option.isSome_some, if_true, Option.map_none]

end UsersImpl

namespace UserImpl

variable (env : Env) {ipIndex : IP → Option UserId} {self : UserId} {ip : IP} (dirs : BitVec 32)
  {auth : AuthId} {u : UserImpl}

/-- An authorizer that authorized the user before. -/
theorem authorize_known (h : auth ∈ u.authorizedBy) :
    u.authorize env ipIndex self ip dirs auth = ⟨u, true, false⟩ := by
  rw [authorize, if_pos h]

/-- Another authorizer joins at the address the user is at. -/
theorem authorize_joins (h : auth ∉ u.authorizedBy) (hip : ip ≠ 0) (hby : u.authorizedBy ≠ ∅)
    (hcurr : u.currIP = ip) (hself : ipIndex ip = some self) :
    u.authorize env ipIndex self ip dirs auth =
      ⟨{ u with
        enabledDirs := dirsFromBits dirs
        authorizedBy := insert auth u.authorizedBy }, true, false⟩ := by
  simp only [authorize, if_neg h, if_neg hip, if_pos hby, hcurr, hself, ne_eq, not_true_eq_false,
    and_false, if_false]

/-- The first authorizer gives the user an address that nobody has. -/
theorem authorize_gains (hip : ip ≠ 0) (hby : u.authorizedBy = ∅) (hfree : ipIndex ip = none)
    (hfind : u.ips.find env.shifted ip = true) :
    u.authorize env ipIndex self ip dirs auth =
      ⟨{ u with
        enabledDirs := dirsFromBits dirs
        currIP := ip
        lastIPForDisconnect := ip
        authorizedModificationTime := env.stgTime
        authorizedBy := insert auth u.authorizedBy }, true, true⟩ := by
  have hauth : auth ∉ u.authorizedBy := by simp [hby]
  have hnone : ¬ (ipIndex ip).isSome = true := by simp [hfree]
  simp only [authorize, if_neg hauth, if_neg hip, if_neg (not_not.mpr hby), if_neg hnone,
    if_pos hfind]

/-- **The directions are stored before the request is refused.** -/
theorem authorize_refuses (h : auth ∉ u.authorizedBy) (hip : ip ≠ 0)
    (hnot : u.authorizedBy ≠ ∅ ∧ u.currIP ≠ ip ∨
      u.authorizedBy = ∅ ∧ ipIndex ip = none ∧ u.ips.find env.shifted ip = false) :
    ∃ e, u.authorize env ipIndex self ip dirs auth =
      ⟨{ u with enabledDirs := dirsFromBits dirs, errorStr := e }, false, false⟩ := by
  rcases hnot with ⟨hby, hcurr⟩ | ⟨hby, hfree, hfind⟩
  · refine ⟨"User " ++ u.login ++ " already authorized with IP address " ++ inetNtoString ip, ?_⟩
    simp only [authorize, if_neg h, if_neg hip, if_pos hby, if_pos hcurr]
  · refine ⟨"IP address " ++ inetNtoString ip ++ " does not belong to user " ++ u.login, ?_⟩
    have hnone : ¬ (ipIndex ip).isSome = true := by simp [hfree]
    have hnot : ¬ u.ips.find env.shifted ip = true := by simp [hfind]
    simp only [authorize, if_neg h, if_neg hip, if_neg (not_not.mpr hby), if_neg hnone, if_neg hnot]

/-- Without an address nothing happens. -/
theorem authorize_zero (h : auth ∉ u.authorizedBy) :
    u.authorize env ipIndex self 0 dirs auth = ⟨u, false, false⟩ := by
  rw [authorize, if_neg h, if_pos rfl]

end UserImpl

/-! ## The server -/

/-- The users with their messages. -/
structure AuthServer where
  /-- The users. -/
  server : UsersList
  /-- Their messages. -/
  boxes : UserId → MessageBox
  /-- For the record: the last call of `UsersImpl::Authorize`. -/
  last : Option AuthorizeCall := none

namespace AuthServer

/-- The users by their nodes, and the two indexes. -/
def impl (s : AuthServer) : UsersImpl := s.server.impl

def withImpl (s : AuthServer) (impl : UsersImpl) : AuthServer :=
  { s with server := { s.server with impl := impl } }

/-- The messages behind `UserImpl::Authorize`: `ScanMessage` is its last call, if it is not left
before. -/
def boxAfter (env : Env) (menv : MessageEnv) (auth : AuthId) (u : UserImpl)
    (r : UserImpl.AuthorizeResult) (box : MessageBox) : MessageBox :=
  if r.ok = true ∧ auth ∉ u.authorizedBy then
    box.scanMessage { menv with user := r.user, stgTime := env.stgTime, time := env.time }
  else box

/-- `UserImpl::Authorize`. -/
def userCall (env : Env) (menv : MessageEnv) (id : UserId) (ip : IP) (dirs : BitVec 32)
    (auth : AuthId) (s : AuthServer) : UserCall × MessageBox :=
  let u := s.impl.users id
  let r := u.authorize env s.impl.ipIndex id ip dirs auth
  let box := boxAfter env menv auth u r (s.boxes id)
  (⟨u, r.user, (s.boxes id).messages, box.messages, r.ok⟩, box)

/-- `UsersImpl::Authorize`. -/
def authorize (env : Env) (menv : MessageEnv) (login : String) (ip : IP) (dirs : BitVec 32)
    (auth : AuthId) (s : AuthServer) : Option AuthServer :=
  (s.impl.authorize env login ip dirs auth).map fun out =>
    let inner := (s.impl.target login ip).map fun id => (id, s.userCall env menv id ip dirs auth)
    { server := { s.server with impl := out.users }
      boxes := inner.elim s.boxes fun c => Function.update s.boxes c.1 c.2.2
      last := some
        { ip := ip
          dirs := dirs
          auth := auth
          ret := out.ret
          user := (out.users.loginIndex login).map out.users.users
          inner := inner.map fun c => c.2.1 } }

/-- What can happen. -/
inductive Action
  /-- `UsersImpl::Authorize`. -/
  | authorize (env : Env) (menv : MessageEnv) (login : String) (ip : IP) (dirs : BitVec 32)
      (auth : AuthId)
  /-- `UsersImpl::Unauthorize`. -/
  | unauthorize (env : Env) (login : String) (auth : AuthId) (reason : String)
  /-- `UsersImpl::Add`. -/
  | add (priv : Priv) (stored : Bool) (login : String) (noTariff : TariffImpl)
      (lastWriteStat passiveTime : Time)
  /-- `UsersImpl::Del`, first part. -/
  | delMark (priv : Priv) (login : String)
  /-- `UsersImpl::Del`, second part. -/
  | delFinish (env : Env) (id : UserId)
  /-- `UsersImpl::RealDelUser`. -/
  | realDelUser (now : Time)
  /-- Everything else about a user changes. -/
  | change (id : UserId) (v : UserImpl) (box : MessageBox)

/-- The authorizations of a user, and everything else of another one. -/
def keepSeat (u v : UserImpl) : UserImpl :=
  { v with
    login := u.login
    authorizedBy := u.authorizedBy
    currIP := u.currIP
    enabledDirs := u.enabledDirs }

/-- One step; there is no result if an assertion fails. -/
def step (s : AuthServer) : Action → Option AuthServer
  | .authorize env menv login ip dirs auth => s.authorize env menv login ip dirs auth
  | .unauthorize env login auth reason =>
    (s.impl.unauthorize env login auth reason).map fun out => s.withImpl out.users
  | .add priv stored login noTariff lastWriteStat passiveTime =>
    some { s with
      server := s.server.add priv stored (AuthAo.newUser login noTariff lastWriteStat passiveTime) }
  | .delMark priv login => some { s with server := s.server.delMark priv login }
  | .delFinish env id =>
    if id ∈ s.server.pending then some { s with server := s.server.delFinish env id } else none
  | .realDelUser now => some { s with server := s.server.realDelUser now }
  | .change id v box =>
    some { s.withImpl (s.impl.setUser id (keepSeat (s.impl.users id) v)) with
      boxes := Function.update s.boxes id box }

/-- The calls of `Authorize` say what they are to say. -/
def SaysExactly (s : AuthServer) : Action → Prop
  | .authorize env _ login ip dirs auth => s.impl.ExactWhen env login ip dirs auth
  | _ => True

/-- The last call says what it is to say. -/
def LastExact (s : AuthServer) : Prop := ∀ c ∈ s.last, c.Exact

/-- The server after `ReadUsers`. -/
structure Initial (s : AuthServer) : Prop where
  /-- The users are in the list. -/
  server : s.server.Initial
  /-- Nobody is authorized. -/
  authorizedBy : ∀ id, (s.impl.users id).authorizedBy = ∅
  /-- Nobody has an address. -/
  currIP : ∀ id, (s.impl.users id).currIP = 0
  /-- There was no call. -/
  last : s.last = none

/-- What every step keeps. -/
structure Seated (s : AuthServer) : Prop where
  /-- Users have addresses while they are authorized, and the index is right. -/
  placed : s.impl.Placed
  /-- A user is found under its own login. -/
  login_eq : ∀ login id, s.impl.loginIndex login = some id → (s.impl.users id).login = login
  /-- Users that are not there yet are not authorized and not found. -/
  fresh : ∀ id, s.server.next ≤ id → (s.impl.users id).authorizedBy = ∅ ∧
    ∀ login, s.impl.loginIndex login ≠ some id

/-! ## One call -/

section Call

variable {s s' : AuthServer} {env : Env} {menv : MessageEnv} {login : String} {ip : IP}
  {dirs : BitVec 32} {auth : AuthId} {id iter : UserId}

/-- Where nobody is asked, there is nothing to be said. -/
theorem exact_of_target_eq_none (htarget : s.impl.target login ip = none)
    (h : s.authorize env menv login ip dirs auth = some s') :
    s'.LastExact ∧ s.impl.ExactWhen env login ip dirs auth := by
  obtain ⟨out, hout, rfl⟩ := Option.map_eq_some_iff.mp h
  rw [UsersImpl.authorize_of_target_eq_none htarget] at hout
  obtain rfl := Option.some.inj hout
  refine ⟨fun c hc => ?_, fun id holder hl hip hlogin => ?_, fun id hl hip => ?_⟩
  · obtain rfl := Option.some.inj hc
    refine ⟨fun hret => (by cases hret), fun i hi => ?_⟩
    rw [htarget] at hi
    cases hi
  · have hsome : s.impl.target login ip = some holder :=
      UsersImpl.target_eq_some_iff.mpr (.inr ⟨hip, hlogin, by rw [hl]; exact Option.some_ne_none _⟩)
    rw [htarget] at hsome
    cases hsome
  · have hsome : s.impl.target login ip = some id :=
      UsersImpl.target_eq_some_iff.mpr (.inl ⟨hip, hl⟩)
    rw [htarget] at hsome
    cases hsome

/-- **What a call is to say**, in terms of the user that is asked. -/
theorem lastExact_iff (htarget : s.impl.target login ip = some iter)
    (hl : s.impl.loginIndex login = some id) {r : UserImpl.AuthorizeResult}
    (hr : (s.impl.users iter).authorize env s.impl.ipIndex iter ip dirs auth = r)
    (h : s.authorize env menv login ip dirs auth = some s') :
    s'.LastExact ↔
      (r.ok = true →
        (Function.update s.impl.users iter r.user id).currIP = ip ∧
          auth ∈ (Function.update s.impl.users iter r.user id).authorizedBy ∧
          (Function.update s.impl.users iter r.user id).enabledDirs = UserImpl.dirsFromBits dirs) ∧
      (r.ok = false →
        r.user.currIP = (s.impl.users iter).currIP ∧
          r.user.enabledDirs = (s.impl.users iter).enabledDirs ∧
          r.user.authorizedBy = (s.impl.users iter).authorizedBy) := by
  obtain ⟨out, hout, rfl⟩ := Option.map_eq_some_iff.mp h
  obtain ⟨hret, hindex, husers⟩ := UsersImpl.authorize_of_target htarget hout
  rw [hr] at hret husers
  have huser : (out.users.loginIndex login).map out.users.users =
      some (Function.update s.impl.users iter r.user id) := by
    rw [hindex, hl, husers]
    rfl
  have hmessages : r.ok = false →
      boxAfter env menv auth (s.impl.users iter) r (s.boxes iter) = s.boxes iter := by
    intro hok
    rw [boxAfter, if_neg]
    rintro ⟨h, -⟩
    rw [hok] at h
    cases h
  constructor
  · intro hall
    obtain ⟨hsuccess, hfailure⟩ := hall _ rfl
    constructor
    · intro hok
      obtain ⟨u, hu, hrest⟩ := hsuccess (hret.trans hok)
      rw [huser] at hu
      obtain rfl := Option.some.inj hu
      exact hrest
    · intro hok
      rw [htarget] at hfailure
      obtain ⟨hcurr, hdirs, hby, -⟩ := hfailure _ rfl (by rw [← hok, ← hr]; rfl)
      rw [← hr]
      exact ⟨hcurr, hdirs, hby⟩
  · rintro ⟨hsuccess, hfailure⟩ c hc
    obtain rfl := Option.some.inj hc
    constructor
    · intro hok
      exact ⟨_, huser, hsuccess (hret.symm.trans hok)⟩
    · intro i hi hok
      rw [htarget] at hi
      obtain rfl := Option.some.inj hi
      have hok' : r.ok = false := by rw [← hok, ← hr]; rfl
      obtain ⟨hcurr, hdirs, hby⟩ := hfailure hok'
      rw [← hr] at hcurr hdirs hby
      refine ⟨hcurr, hdirs, hby, ?_⟩
      change (boxAfter env menv auth (s.impl.users iter) _ (s.boxes iter)).messages = _
      rw [hr, hmessages hok']
      rfl

/-- **A call for an address that nobody has.** -/
theorem lastExact_iff_of_free (hs : s.Seated) (hl : s.impl.loginIndex login = some id)
    (hip : s.impl.ipIndex ip = none) (h : s.authorize env menv login ip dirs auth = some s') :
    s'.LastExact ↔ (ip ≠ 0 →
      (s.impl.users id).authorizedBy ≠ ∅ ∨ (s.impl.users id).ips.find env.shifted ip = false →
        (s.impl.users id).enabledDirs = UserImpl.dirsFromBits dirs) := by
  have htarget : s.impl.target login ip = some id :=
    UsersImpl.target_eq_some_iff.mpr (.inl ⟨hip, hl⟩)
  have hauth : auth ∉ (s.impl.users id).authorizedBy := by
    intro hauth
    rw [authorize, UsersImpl.authorize_known_of_free hs.placed hl hip hauth] at h
    cases h
  by_cases hzero : ip = 0
  · subst hzero
    rw [lastExact_iff htarget hl (UserImpl.authorize_zero env dirs hauth) h]
    exact iff_of_true ⟨fun hok => (by cases hok), fun _ => ⟨rfl, rfl, rfl⟩⟩ fun hne => absurd rfl hne
  · by_cases hrefused : (s.impl.users id).authorizedBy ≠ ∅ ∨ (s.impl.users id).ips.find env.shifted ip = false
    · have hnot : (s.impl.users id).authorizedBy ≠ ∅ ∧ (s.impl.users id).currIP ≠ ip ∨
          (s.impl.users id).authorizedBy = ∅ ∧ s.impl.ipIndex ip = none ∧
            (s.impl.users id).ips.find env.shifted ip = false := by
        by_cases hby : (s.impl.users id).authorizedBy = ∅
        · exact .inr ⟨hby, hip, hrefused.resolve_left (not_not.mpr hby)⟩
        · refine .inl ⟨hby, fun hcurr => ?_⟩
          have hheld := (hs.placed.indexed.index_iff ip id).mpr ⟨hby, hcurr⟩
          rw [hip] at hheld
          cases hheld
      obtain ⟨e, hr⟩ := UserImpl.authorize_refuses env dirs hauth hzero hnot
      rw [lastExact_iff htarget hl hr h]
      constructor
      · rintro ⟨-, hfailure⟩ - -
        exact (hfailure rfl).2.1.symm
      · intro hdirs
        exact ⟨fun hok => (by cases hok), fun _ => ⟨rfl, (hdirs hzero hrefused).symm, rfl⟩⟩
    · rw [not_or, not_not, Bool.not_eq_false] at hrefused
      have hr : (s.impl.users id).authorize env s.impl.ipIndex id ip dirs auth = _ :=
        UserImpl.authorize_gains env dirs hzero hrefused.1 hip hrefused.2
      rw [lastExact_iff htarget hl hr h, Function.update_self]
      refine iff_of_true ⟨fun _ => ⟨rfl, Finset.mem_insert_self _ _, rfl⟩, fun hok => by cases hok⟩ ?_
      rintro - (hby | hfind)
      · exact absurd hrefused.1 hby
      · rw [hrefused.2] at hfind
        cases hfind

/-- **A call for an address where somebody with the login is.** -/
theorem lastExact_iff_of_held (hs : s.Seated) (hl : s.impl.loginIndex login = some id)
    (hip : s.impl.ipIndex ip = some iter) (hlogin : (s.impl.users iter).login = login)
    (h : s.authorize env menv login ip dirs auth = some s') :
    s'.LastExact ↔ iter = id ∧ (auth ∈ (s.impl.users id).authorizedBy →
      (s.impl.users id).enabledDirs = UserImpl.dirsFromBits dirs) := by
  have htarget : s.impl.target login ip = some iter :=
    UsersImpl.target_eq_some_iff.mpr (.inr ⟨hip, hlogin, by rw [hl]; exact Option.some_ne_none _⟩)
  obtain ⟨hby, hcurr⟩ := (hs.placed.indexed.index_iff ip iter).mp hip
  have hzero : ip ≠ 0 := fun hc => hby ((hs.placed.currIP_eq_zero iter).mp (hcurr.trans hc))
  -- a user that is authorized at the address is the one in the index
  have hsame : auth ∈ (s.impl.users id).authorizedBy → (s.impl.users id).currIP = ip → iter = id := by
    intro hauth hid
    have hheld := (hs.placed.indexed.index_iff ip id).mpr ⟨Finset.ne_empty_of_mem hauth, hid⟩
    exact Option.some.inj (hip.symm.trans hheld)
  by_cases hauth : auth ∈ (s.impl.users iter).authorizedBy
  · have hr : (s.impl.users iter).authorize env s.impl.ipIndex iter ip dirs auth = _ :=
      UserImpl.authorize_known env dirs hauth
    rw [lastExact_iff htarget hl hr h, Function.update_eq_self]
    constructor
    · rintro ⟨hsuccess, -⟩
      obtain ⟨hid, hmem, hdirs⟩ := hsuccess rfl
      exact ⟨hsame hmem hid, fun _ => hdirs⟩
    · rintro ⟨rfl, hdirs⟩
      exact ⟨fun _ => ⟨hcurr, hauth, hdirs hauth⟩, fun hok => by cases hok⟩
  · have hr := UserImpl.authorize_joins env dirs hauth hzero hby hcurr hip
    rw [lastExact_iff htarget hl hr h]
    constructor
    · rintro ⟨hsuccess, -⟩
      obtain ⟨hid, hmem, -⟩ := hsuccess rfl
      have heq : iter = id := by
        by_contra hne
        rw [Function.update_of_ne (Ne.symm hne)] at hid hmem
        exact hne (hsame hmem hid)
      exact ⟨heq, fun hmem => absurd (heq ▸ hmem) hauth⟩
    · rintro ⟨rfl, -⟩
      rw [Function.update_self]
      exact ⟨fun _ => ⟨hcurr, Finset.mem_insert_self _ _, rfl⟩, fun hok => by cases hok⟩

/-- **One call** says what it is to say exactly if it is one that says so. -/
theorem exact_iff (hs : s.Seated) (h : s.authorize env menv login ip dirs auth = some s') :
    s'.LastExact ↔ s.impl.ExactWhen env login ip dirs auth := by
  cases htarget : s.impl.target login ip with
  | none =>
    obtain ⟨hexact, hwhen⟩ := exact_of_target_eq_none htarget h
    exact iff_of_true hexact hwhen
  | some iter =>
    rcases UsersImpl.target_eq_some_iff.mp htarget with ⟨hip, hl⟩ | ⟨hip, hlogin, hl⟩
    · rw [lastExact_iff_of_free hs hl hip h]
      constructor
      · intro hdirs
        refine ⟨fun id holder _ hheld => ?_, fun id hid _ => ?_⟩
        · rw [hip] at hheld
          cases hheld
        · obtain rfl := Option.some.inj (hl.symm.trans hid)
          exact hdirs
      · exact fun hwhen => hwhen.free iter hl hip
    · obtain ⟨id, hid⟩ := Option.ne_none_iff_exists'.mp hl
      rw [lastExact_iff_of_held hs hid hip hlogin h]
      constructor
      · intro hdirs
        refine ⟨fun id' holder hid' hheld _ => ?_, fun id' _ hfree => ?_⟩
        · obtain rfl := Option.some.inj (hid.symm.trans hid')
          obtain rfl := Option.some.inj (hip.symm.trans hheld)
          exact hdirs
        · rw [hip] at hfree
          cases hfree
      · exact fun hwhen => hwhen.held id iter hid hip hlogin

end Call

/-! ## Steps -/

section Steps

variable {s s' : AuthServer}

/-- Calls of an authorizer. -/
theorem Seated.spares (h : s.Seated) {auth : AuthId} (hsp : UsersImpl.Spares auth s.impl s'.impl)
    (hnext : s'.server.next = s.server.next) : s'.Seated where
  placed := hsp.placed
  login_eq login id hl := by
    rw [hsp.loginIndex] at hl
    rw [hsp.login]
    exact h.login_eq login id hl
  fresh id hid := by
    obtain ⟨hby, hfound⟩ := h.fresh id (hnext ▸ hid)
    refine ⟨hsp.unfound id hby hfound, fun login => ?_⟩
    rw [hsp.loginIndex]
    exact hfound login

/-- Changes that leave the authorizations alone and put nobody into the index of logins. -/
theorem Seated.frame (h : s.Seated) (hplaced : s'.impl.Placed)
    (hnext : s'.server.next = s.server.next)
    (hlogin : ∀ id, (s'.impl.users id).login = (s.impl.users id).login)
    (hby : ∀ id, (s'.impl.users id).authorizedBy = (s.impl.users id).authorizedBy)
    (hfound : ∀ login id, s'.impl.loginIndex login = some id → s.impl.loginIndex login = some id) :
    s'.Seated where
  placed := hplaced
  login_eq login id hl := (hlogin id).trans (h.login_eq login id (hfound login id hl))
  fresh id hid := by
    obtain ⟨hnone, hnot⟩ := h.fresh id (hnext ▸ hid)
    exact ⟨(hby id).trans hnone, fun login hl => hnot login (hfound login id hl)⟩

/-- A user is replaced by one with the same authorizations. -/
theorem Seated.setUser (h : s.Seated) {id : UserId} {u : UserImpl}
    (hseat : AuthAo.SameSeat (s.impl.users id) u)
    (hplaced : (s.impl.setUser id u).Placed → s'.impl.Placed)
    (husers : s'.impl.users = Function.update s.impl.users id u)
    (hnext : s'.server.next = s.server.next)
    (hfound : ∀ login id, s'.impl.loginIndex login = some id → s.impl.loginIndex login = some id) :
    s'.Seated := by
  refine h.frame (hplaced (h.placed.setUser hseat.currIP (by rw [hseat.authorizedBy]))) hnext
    (fun j => ?_) (fun j => ?_) hfound
  · rw [husers]
    by_cases hj : j = id
    · subst hj
      rw [Function.update_self, hseat.login]
    · rw [Function.update_of_ne hj]
  · rw [husers]
    by_cases hj : j = id
    · subst hj
      rw [Function.update_self, hseat.authorizedBy]
    · rw [Function.update_of_ne hj]

/-- Whoever is found by a login after a user was added was found before, or is the new user. -/
theorem loginIndex_add {server : UsersList} {priv : Priv} {stored : Bool} {u : UserImpl}
    {login : String} {id : UserId} (hl : (server.add priv stored u).impl.loginIndex login = some id) :
    server.impl.loginIndex login = some id ∨ (login = u.login ∧ id = server.next) := by
  unfold UsersList.add at hl
  split_ifs at hl with hpriv hstored hfound
  · exact .inl hl
  · exact .inl hl
  · exact .inl hl
  · by_cases hlogin : login = u.login
    · subst hlogin
      dsimp only at hl
      rw [Function.update_self] at hl
      exact .inr ⟨rfl, (Option.some.inj hl).symm⟩
    · dsimp only at hl
      rw [Function.update_of_ne hlogin] at hl
      exact .inl hl

/-- A new user. -/
theorem Seated.add (h : s.Seated) (priv : Priv) (stored : Bool) {u : UserImpl}
    (hby : u.authorizedBy = ∅) (hcurr : u.currIP = 0) :
    ({ s with server := s.server.add priv stored u } : AuthServer).Seated := by
  obtain ⟨hnew, hnotfound⟩ := h.fresh s.server.next le_rfl
  by_cases hrefused : priv.userAddDel = 0 ∨ stored = false
  · have hsame : s.server.add priv stored u = s.server := by
      rcases hrefused with hpriv | hstored
      · exact if_pos hpriv
      · rw [UsersList.add, if_pos hstored, ite_self]
    rw [hsame]
    exact h
  · rw [not_or] at hrefused
    have hzero : (s.impl.users s.server.next).currIP = 0 := (h.placed.currIP_eq_zero _).mpr hnew
    have hplaced : (s.impl.setUser s.server.next u).Placed :=
      h.placed.setUser (hcurr.trans hzero.symm) (by rw [hby, hnew])
    have hadded : (s.server.add priv stored u).next = s.server.next + 1 ∧
        (s.server.add priv stored u).impl.users = (s.impl.setUser s.server.next u).users ∧
        (s.server.add priv stored u).impl.ipIndex = s.impl.ipIndex := by
      rw [UsersList.add, if_neg hrefused.1, if_neg hrefused.2]
      exact ⟨rfl, rfl, rfl⟩
    obtain ⟨hnext, husers, hindex⟩ := hadded
    refine ⟨⟨fun id => ?_, UsersImpl.Indexed.of_iff fun ip id => ?_⟩, fun login id hl => ?_,
      fun id hid => ?_⟩
    · change ((s.server.add priv stored u).impl.users id).currIP = 0 ↔
        ((s.server.add priv stored u).impl.users id).authorizedBy = ∅
      rw [husers]
      exact hplaced.currIP_eq_zero id
    · change (s.server.add priv stored u).impl.ipIndex ip = some id ↔
        ((s.server.add priv stored u).impl.users id).authorizedBy ≠ ∅ ∧
          ((s.server.add priv stored u).impl.users id).currIP = ip
      rw [husers, hindex]
      exact hplaced.indexed.index_iff ip id
    · change ((s.server.add priv stored u).impl.users id).login = login
      rw [husers]
      rcases loginIndex_add hl with hl | ⟨rfl, rfl⟩
      · have hne : id ≠ s.server.next := fun hc => hnotfound login (hc ▸ hl)
        rw [UsersImpl.setUser_of_ne _ _ hne]
        exact h.login_eq login id hl
      · rw [UsersImpl.setUser_self]
    · change (s.server.add priv stored u).next ≤ id at hid
      rw [hnext] at hid
      have hne : id ≠ s.server.next := Nat.ne_of_gt hid
      obtain ⟨hnone, hnot⟩ := h.fresh id (Nat.le_of_succ_le hid)
      refine ⟨?_, fun login hl => ?_⟩
      · change ((s.server.add priv stored u).impl.users id).authorizedBy = ∅
        rw [husers, UsersImpl.setUser_of_ne _ _ hne, hnone]
      · rcases loginIndex_add hl with hl | ⟨-, hid⟩
        · exact hnot login hl
        · exact hne hid

/-- The first part of `Del` leaves the indexes alone. -/
theorem Seated.delMark (h : s.Seated) (priv : Priv) (login : String) :
    ({ s with server := s.server.delMark priv login } : AuthServer).Seated := by
  have hsame : (s.server.delMark priv login).impl = s.server.impl ∧
      (s.server.delMark priv login).next = s.server.next := by
    unfold UsersList.delMark
    split_ifs
    · exact ⟨rfl, rfl⟩
    · cases s.server.impl.loginIndex login with
      | none => exact ⟨rfl, rfl⟩
      | some id => exact ⟨rfl, rfl⟩
  have himpl : ({ s with server := s.server.delMark priv login } : AuthServer).impl = s.impl := hsame.1
  exact h.frame (by rw [himpl]; exact h.placed) hsame.2 (fun id => by rw [himpl])
    (fun id => by rw [himpl]) fun login id hl => by rwa [himpl] at hl

/-- The second part takes the user out of the index of logins. -/
theorem Seated.delFinish (h : s.Seated) (env : Env) (id : UserId) :
    ({ s with server := s.server.delFinish env id } : AuthServer).Seated := by
  refine h.setUser (AuthAo.sameSeat_run env (s.impl.users id)) (fun hp => ?_) rfl rfl
    fun login j hl => ?_
  · exact ⟨hp.currIP_eq_zero, ⟨hp.indexed.index_iff, hp.indexed.unique⟩⟩
  · change Function.update s.impl.loginIndex _ none login = some j at hl
    rw [Function.update_apply] at hl
    split_ifs at hl
    exact hl

/-- **Every step keeps the users seated.** -/
theorem Seated.step (h : s.Seated) {a : Action} (hstep : s.step a = some s') : s'.Seated := by
  cases a with
  | authorize env menv login ip dirs auth =>
    obtain ⟨out, hout, rfl⟩ := Option.map_eq_some_iff.mp hstep
    exact h.spares (UsersImpl.authorize_spares h.placed hout).1 rfl
  | unauthorize env login auth reason =>
    obtain ⟨out, hout, rfl⟩ := Option.map_eq_some_iff.mp hstep
    exact h.spares (UsersImpl.unauthorize_spares h.placed hout).1 rfl
  | add priv stored login noTariff lastWriteStat passiveTime =>
    obtain rfl := Option.some.inj hstep
    exact h.add priv stored rfl rfl
  | delMark priv login =>
    obtain rfl := Option.some.inj hstep
    exact h.delMark priv login
  | delFinish env id =>
    rw [AuthServer.step] at hstep
    split_ifs at hstep
    obtain rfl := Option.some.inj hstep
    exact h.delFinish env id
  | realDelUser now =>
    obtain rfl := Option.some.inj hstep
    rw [UsersList.realDelUser_eq]
    exact h.frame h.placed rfl (fun _ => rfl) (fun _ => rfl) fun _ _ hl => hl
  | change id v box =>
    obtain rfl := Option.some.inj hstep
    exact h.setUser (u := keepSeat (s.impl.users id) v) ⟨rfl, rfl, rfl⟩ (fun hp => hp) rfl rfl
      fun _ _ hl => hl

/-- After the start the users are seated. -/
theorem Initial.seated (h : s.Initial) : s.Seated where
  placed := by
    refine ⟨fun id => ?_, UsersImpl.Indexed.of_iff fun ip id => ?_⟩
    · exact iff_of_true (h.currIP id) (h.authorizedBy id)
    · refine iff_of_false (fun hip => ?_) fun hby => hby.1 (h.authorizedBy id)
      rw [show s.impl.ipIndex ip = none from h.server.ipIndex ip] at hip
      cases hip
  login_eq := h.server.login_eq
  fresh id hid := by
    refine ⟨h.authorizedBy id, fun login hl => ?_⟩
    exact Nat.not_lt.mpr hid (h.server.fresh id (h.server.loginIndex login id hl))

/-- **A step** is one after which the last call says what it is to say, exactly if it is no such call or
one that does. -/
theorem step_lastExact (hs : s.Seated) (hlast : s.LastExact) {a : Action}
    (hstep : s.step a = some s') : s'.LastExact ↔ s.SaysExactly a := by
  cases a with
  | authorize env menv login ip dirs auth => exact exact_iff hs hstep
  | unauthorize env login auth reason =>
    obtain ⟨out, -, rfl⟩ := Option.map_eq_some_iff.mp hstep
    exact iff_of_true hlast trivial
  | add priv stored login noTariff lastWriteStat passiveTime =>
    obtain rfl := Option.some.inj hstep
    exact iff_of_true hlast trivial
  | delMark priv login =>
    obtain rfl := Option.some.inj hstep
    exact iff_of_true hlast trivial
  | delFinish env id =>
    rw [AuthServer.step] at hstep
    split_ifs at hstep
    obtain rfl := Option.some.inj hstep
    exact iff_of_true hlast trivial
  | realDelUser now =>
    obtain rfl := Option.some.inj hstep
    exact iff_of_true hlast trivial
  | change id v box =>
    obtain rfl := Option.some.inj hstep
    exact iff_of_true hlast trivial

end Steps

/-- **The results of authorizations.** From the server after `ReadUsers`, while users are added, deleted
and changed: every call of `Authorize` says what it is to say exactly if every call is one that does.

**Proof sketch.** The exactness rule for steps that may be refused: every step keeps the users seated,
and a call by seated users says what it is to say iff it is one that does. -/
theorem results_exact_iff (s : AuthServer) (h : s.Initial) (as : List Action) :
    Transition.Maintains step LastExact s as ↔ ∃ t, Transition.Reaches step SaysExactly s as t := by
  refine Transition.maintains_iff_reaches_of_step (fun s a s' hs hstep => hs.step hstep)
    (fun s a s' hs hlast hstep => step_lastExact hs hlast hstep) as h.seated ?_
  intro c hc
  rw [h.last] at hc
  cases hc

end AuthServer

namespace Sample

/-- The server with the two users `a` and `b`, who have no messages. -/
def authServer : AuthServer := ⟨usersList, fun _ => {}, none⟩

/-- What `ScanMessage` finds. -/
def messageEnv : MessageEnv := { user := user "a", stgTime := 0, time := 0 }

theorem authServer_initial : authServer.Initial where
  server := usersList_initial
  authorizedBy _ := rfl
  currIP _ := rfl
  last := rfl

end Sample

namespace AuthServer

/-- A user is authorized by two authorizers, the first of which comes twice. -/
theorem results_exact_sample :
    Transition.Maintains step LastExact Sample.authServer
      [.authorize (Sample.env 0) Sample.messageEnv "a" 7 3 1,
        .authorize (Sample.env 1) Sample.messageEnv "a" 7 3 2,
        .authorize (Sample.env 2) Sample.messageEnv "a" 7 3 1,
        .unauthorize (Sample.env 3) "a" 1 ""] := by
  refine (results_exact_iff _ Sample.authServer_initial _).mpr ⟨_, .cons ⟨?_, ?_⟩ rfl (.cons ⟨?_, ?_⟩
    rfl (.cons ⟨?_, ?_⟩ rfl (.cons trivial rfl (.nil _))))⟩
  · intro id holder _ hip
    cases hip
  · intro id hl _ _ hnot
    obtain rfl : id = 0 := (Option.some.inj hl).symm
    exact absurd hnot (by decide +kernel)
  · intro id holder hl hip _
    obtain rfl : id = 0 := (Option.some.inj hl).symm
    obtain rfl : holder = 0 := (Option.some.inj hip).symm
    exact ⟨rfl, fun _ => rfl⟩
  · intro id _ hip
    cases hip
  · intro id holder hl hip _
    obtain rfl : id = 0 := (Option.some.inj hl).symm
    obtain rfl : holder = 0 := (Option.some.inj hip).symm
    exact ⟨rfl, fun _ => rfl⟩
  · intro id _ hip
    cases hip

/-- An authorizer that comes again with other directions is told that it has succeeded; and a second
authorizer that is refused another address has changed the directions. -/
theorem results_not_exact :
    (¬ ∀ s, Transition.Runs step Sample.authServer
      [.authorize (Sample.env 0) Sample.messageEnv "a" 7 3 1,
        .authorize (Sample.env 1) Sample.messageEnv "a" 7 1 1] s → s.LastExact) ∧
    ¬ ∀ s, Transition.Runs step Sample.authServer
      [.authorize (Sample.env 0) Sample.messageEnv "a" 7 3 1,
        .authorize (Sample.env 1) Sample.messageEnv "a" 8 1 2] s → s.LastExact := by
  constructor
  · intro hall
    have hexact := hall _ (.cons trivial rfl (.cons trivial rfl (.nil _)))
    obtain ⟨u, hu, -, -, hdirs⟩ := (hexact _ rfl).success rfl
    obtain rfl := Option.some.inj hu
    exact absurd (congrFun hdirs 1) (by decide +kernel)
  · intro hall
    have hexact := hall _ (.cons trivial rfl (.cons trivial rfl (.nil _)))
    obtain ⟨-, hdirs, -⟩ := (hexact _ rfl).failure _ rfl rfl
    exact absurd (congrFun hdirs 1) (by decide +kernel)

end AuthServer

end Stargazer
