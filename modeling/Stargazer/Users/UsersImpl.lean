import Stargazer.Lib.Run
import Stargazer.Users.UserImpl

set_option relaxedAutoImplicit false
set_option autoImplicit false

/-!
# The users of the server and the index of their addresses

`UsersImpl` (`users_impl.cpp`) finds a user by its login and by the address it is authorized at.
The second index is kept by `UsersImpl::Authorize` and `UsersImpl::Unauthorize` together with the
state of the user, and two assertions guard it.  Assertions abort the server: the model of an
operation that fails one has no result.

`m_currIP` is a property with subscribers; what they are told is `CurrIPChange`.

## Main definitions

* `Stargazer.UsersImpl` — users and indexes.
* `Stargazer.UsersImpl.authorize`, `Stargazer.UsersImpl.unauthorize` — the two operations.
* `Stargazer.UsersImpl.Indexed` — the address index and the users agree.
* `Stargazer.UsersImpl.Guard` — the calls that keep it so.

## Main results

* `Stargazer.UsersImpl.authorize_cases`, `Stargazer.UsersImpl.unauthorize_cases` — what the two
  operations can do.
* `Stargazer.UsersImpl.authorize_spec`, `Stargazer.UsersImpl.unauthorize_spec` — what they do for
  one user.
* `Stargazer.UsersImpl.maintains_indexed_iff` — the runs that keep the index.
-/

namespace Stargazer

/-- What the subscribers of the `m_currIP` of a user are told. -/
structure CurrIPChange where
  /-- The user. -/
  user : UserId
  /-- The address before. -/
  oldVal : IP
  /-- The address afterwards. -/
  newVal : IP
  deriving DecidableEq

/-- The users and the two indexes. -/
structure UsersImpl where
  /-- The users. -/
  users : UserId → UserImpl
  /-- `loginIndex`. -/
  loginIndex : String → Option UserId
  /-- `ipIndex`. -/
  ipIndex : IP → Option UserId

namespace UsersImpl

/-- Store a user. -/
def setUser (s : UsersImpl) (id : UserId) (u : UserImpl) : UsersImpl :=
  { s with users := Function.update s.users id u }

/-- `UsersImpl::AddToIPIdx`; `none` is the assertion "User is not in index". -/
def addToIPIdx (s : UsersImpl) (id : UserId) : Option UsersImpl :=
  let ip := (s.users id).currIP
  if ip = 0 then some s
  else if (s.ipIndex ip).isSome then none
  else some { s with ipIndex := Function.update s.ipIndex ip (some id) }

/-- `UsersImpl::DelFromIPIdx`; `none` is the assertion "User has non-null ip". -/
def delFromIPIdx (s : UsersImpl) (ip : IP) : Option UsersImpl :=
  if ip = 0 then none else some { s with ipIndex := Function.update s.ipIndex ip none }

/-- What a call of `Authorize` or `Unauthorize` leaves behind. -/
structure Outcome where
  /-- The users afterwards. -/
  users : UsersImpl
  /-- The return value. -/
  ret : Bool
  /-- The change of an `m_currIP`, if there was one. -/
  change : Option CurrIPChange := none

/-- `iter->Authorize(ip, enabledDirs, auth)` for the user `id`. -/
def authorizeUser (env : Env) (id : UserId) (ip : IP) (dirs : BitVec 32) (auth : AuthId)
    (s : UsersImpl) : Outcome :=
  let r := (s.users id).authorize env s.ipIndex id ip dirs auth
  ⟨s.setUser id r.user, r.ok, if r.ipSet then some ⟨id, (s.users id).currIP, ip⟩ else none⟩

/-- `UsersImpl::Authorize`. -/
def authorize (env : Env) (login : String) (ip : IP) (dirs : BitVec 32) (auth : AuthId)
    (s : UsersImpl) : Option Outcome :=
  match s.loginIndex login with
  | none => some ⟨s, false, none⟩
  | some id =>
    match s.ipIndex ip with
    | some holder =>
      if (s.users holder).login ≠ login then some ⟨s, false, none⟩
      else some (s.authorizeUser env holder ip dirs auth)
    | none =>
      let r := s.authorizeUser env id ip dirs auth
      if r.ret = false then some r
      else (r.users.addToIPIdx id).map fun s' => { r with users := s' }

/-- `UsersImpl::Unauthorize`. -/
def unauthorize (env : Env) (login : String) (auth : AuthId) (reason : String) (s : UsersImpl) :
    Option Outcome :=
  match s.loginIndex login with
  | none => some ⟨s, false, none⟩
  | some id =>
    let ip := (s.users id).currIP
    let r := (s.users id).unauthorize env auth reason
    let s' := s.setUser id r.user
    let change := r.ipLost.map fun old => ⟨id, old, 0⟩
    if r.user.authorizedBy = ∅ then (s'.delFromIPIdx ip).map fun s' => ⟨s', true, change⟩
    else some ⟨s', true, change⟩

@[simp] theorem setUser_self (s : UsersImpl) (id : UserId) (u : UserImpl) :
    (s.setUser id u).users id = u := by simp [setUser]

theorem setUser_of_ne (s : UsersImpl) {id j : UserId} (u : UserImpl) (h : j ≠ id) :
    (s.setUser id u).users j = s.users j := by simp [setUser, h]

@[simp] theorem setUser_ipIndex (s : UsersImpl) (id : UserId) (u : UserImpl) :
    (s.setUser id u).ipIndex = s.ipIndex := rfl

/-! ## Invariants -/

/-- What every operation keeps: the index of logins is right, users found by address are found by
login, and a user has an address exactly while it is authorized. -/
structure Consistent (s : UsersImpl) : Prop where
  /-- A user is found under its own login. -/
  login_eq : ∀ login id, s.loginIndex login = some id → (s.users id).login = login
  /-- A user found by address is found by login. -/
  registered : ∀ ip id, s.ipIndex ip = some id → s.loginIndex (s.users id).login = some id
  /-- An address comes with an authorization. -/
  currIP_eq_zero : ∀ id, (s.users id).currIP = 0 ↔ (s.users id).authorizedBy = ∅

/-- The index of addresses and the users agree. -/
structure Indexed (s : UsersImpl) : Prop where
  /-- An address is mapped to the user that is authorized at it, and to no other. -/
  index_iff : ∀ ip id, s.ipIndex ip = some id ↔
    (s.users id).authorizedBy ≠ ∅ ∧ (s.users id).currIP = ip
  /-- No user occurs under two addresses. -/
  unique : ∀ ip ip' id, s.ipIndex ip = some id → s.ipIndex ip' = some id → ip = ip'

/-- The first part of the invariant implies the second. -/
theorem Indexed.of_iff {s : UsersImpl} (h : ∀ ip id, s.ipIndex ip = some id ↔
    (s.users id).authorizedBy ≠ ∅ ∧ (s.users id).currIP = ip) : s.Indexed :=
  ⟨h, fun _ _ _ h1 h2 => ((h _ _).mp h1).2.symm.trans ((h _ _).mp h2).2⟩

/-- Two states of a user that look the same from outside: login, address, connection and tariff are
the same, and the user is authorized in both or in none. -/
structure SameHold (u v : UserImpl) : Prop where
  /-- The same login. -/
  login : v.login = u.login
  /-- The same address. -/
  currIP : v.currIP = u.currIP
  /-- The same connection. -/
  connected : v.connected = u.connected
  /-- The same tariff. -/
  tariff : v.tariff = u.tariff
  /-- Authorized in both or in none. -/
  authorized : v.authorizedBy = ∅ ↔ u.authorizedBy = ∅

theorem SameHold.refl (u : UserImpl) : SameHold u u := ⟨rfl, rfl, rfl, rfl, Iff.rfl⟩

/-- Two states of the server in which all users look the same. -/
structure Unmoved (s s' : UsersImpl) : Prop where
  /-- The same logins. -/
  loginIndex : s'.loginIndex = s.loginIndex
  /-- The same addresses. -/
  ipIndex : s'.ipIndex = s.ipIndex
  /-- Users that look the same. -/
  users : ∀ id, SameHold (s.users id) (s'.users id)

theorem SameHold.trans {u v w : UserImpl} (h : SameHold u v) (h' : SameHold v w) : SameHold u w :=
  ⟨h'.login.trans h.login, h'.currIP.trans h.currIP, h'.connected.trans h.connected,
    h'.tariff.trans h.tariff, h'.authorized.trans h.authorized⟩

theorem Unmoved.refl (s : UsersImpl) : Unmoved s s := ⟨rfl, rfl, fun _ => .refl _⟩

theorem Unmoved.trans {s s' s'' : UsersImpl} (h : Unmoved s s') (h' : Unmoved s' s'') :
    Unmoved s s'' :=
  ⟨h'.loginIndex.trans h.loginIndex, h'.ipIndex.trans h.ipIndex, fun id =>
    (h.users id).trans (h'.users id)⟩

/-- Replacing a user by one that looks the same moves nothing. -/
theorem Unmoved.setUser {s : UsersImpl} {id : UserId} {u : UserImpl}
    (h : SameHold (s.users id) u) : Unmoved s (s.setUser id u) := by
  refine ⟨rfl, rfl, fun j => ?_⟩
  by_cases hj : j = id
  · subst hj; simpa using h
  · rw [setUser_of_ne s u hj]; exact .refl _

theorem Unmoved.consistent {s s' : UsersImpl} (h : Unmoved s s') (hs : s.Consistent) :
    s'.Consistent where
  login_eq login id hl := by
    rw [h.loginIndex] at hl
    rw [(h.users id).login]
    exact hs.login_eq login id hl
  registered ip id hi := by
    rw [h.ipIndex] at hi
    rw [h.loginIndex, (h.users id).login]
    exact hs.registered ip id hi
  currIP_eq_zero id := by
    rw [(h.users id).currIP, (h.users id).authorized]
    exact hs.currIP_eq_zero id

theorem Unmoved.indexed {s s' : UsersImpl} (h : Unmoved s s') (hs : s.Indexed) : s'.Indexed := by
  refine Indexed.of_iff fun ip id => ?_
  rw [h.ipIndex, hs.index_iff, (h.users id).currIP, ne_eq, ne_eq, (h.users id).authorized]

/-- The entry of the address `ip` becomes `holder`, the user `id` changes and keeps its login and
its tariff, and everything else stays. -/
structure Moves (s s' : UsersImpl) (id : UserId) (ip : IP) (holder : Option UserId) : Prop where
  /-- The same logins. -/
  loginIndex : s'.loginIndex = s.loginIndex
  /-- The address has a new holder. -/
  ipIndex : s'.ipIndex = Function.update s.ipIndex ip holder
  /-- Other users are the same. -/
  others : ∀ j, j ≠ id → s'.users j = s.users j
  /-- The user keeps its login. -/
  login : (s'.users id).login = (s.users id).login
  /-- The user keeps its tariff. -/
  tariff : (s'.users id).tariff = (s.users id).tariff

/-- The user `id` is given the address `ip`, at which there was nobody. -/
structure Gains (env : Env) (s s' : UsersImpl) (id : UserId) (ip : IP) : Prop
    extends Moves s s' id ip (some id) where
  /-- The user was not authorized. -/
  before : (s.users id).authorizedBy = ∅
  /-- Nobody had the address. -/
  free : s.ipIndex ip = none
  /-- It is an address. -/
  ip_ne_zero : ip ≠ 0
  /-- The user may have it. -/
  allowed : (s.users id).ips.find env.shifted ip = true
  /-- The user is found by its login. -/
  found : s.loginIndex (s.users id).login = some id
  /-- The user has the address. -/
  currIP : (s'.users id).currIP = ip
  /-- The user is authorized. -/
  after : (s'.users id).authorizedBy ≠ ∅
  /-- The connection is as it was. -/
  connected : (s'.users id).connected = (s.users id).connected

/-- The last authorizer of the user `id` leaves and the user loses the address `ip`. -/
structure Loses (s s' : UsersImpl) (id : UserId) (ip : IP) : Prop
    extends Moves s s' id ip none where
  /-- The user was authorized. -/
  before : (s.users id).authorizedBy ≠ ∅
  /-- The address was the user's. -/
  held : (s.users id).currIP = ip
  /-- The user has no address. -/
  currIP : (s'.users id).currIP = 0
  /-- The user is not authorized. -/
  after : (s'.users id).authorizedBy = ∅
  /-- The user is not connected. -/
  connected : (s'.users id).connected = false

theorem Moves.consistent {s s' : UsersImpl} {id : UserId} {ip : IP} {holder : Option UserId}
    (h : Moves s s' id ip holder) (hs : s.Consistent)
    (hholder : ∀ j, holder = some j → s.loginIndex (s.users j).login = some j)
    (hcurr : (s'.users id).currIP = 0 ↔ (s'.users id).authorizedBy = ∅) : s'.Consistent := by
  have hlogin : ∀ j, (s'.users j).login = (s.users j).login := by
    intro j
    by_cases hj : j = id
    · subst hj; exact h.login
    · rw [h.others j hj]
  refine ⟨fun login j hl => ?_, fun ip' j hi => ?_, fun j => ?_⟩
  · rw [hlogin]
    exact hs.login_eq login j (h.loginIndex ▸ hl)
  · rw [hlogin, h.loginIndex]
    rw [h.ipIndex] at hi
    by_cases hip : ip' = ip
    · subst hip
      rw [Function.update_self] at hi
      exact hholder j hi
    · rw [Function.update_of_ne hip] at hi
      exact hs.registered ip' j hi
  · by_cases hj : j = id
    · subst hj; exact hcurr
    · rw [h.others j hj]
      exact hs.currIP_eq_zero j

theorem Gains.consistent {env : Env} {s s' : UsersImpl} {id : UserId} {ip : IP} (h : Gains env s s' id ip)
    (hs : s.Consistent) : s'.Consistent := by
  refine h.toMoves.consistent hs (fun j hj => ?_) ?_
  · obtain rfl := Option.some.inj hj
    exact h.found
  · rw [h.currIP]
    exact ⟨fun hc => absurd hc h.ip_ne_zero, fun hc => absurd hc h.after⟩

theorem Loses.consistent {s s' : UsersImpl} {id : UserId} {ip : IP} (h : Loses s s' id ip)
    (hs : s.Consistent) : s'.Consistent := by
  refine h.toMoves.consistent hs (fun j hj => by cases hj) ?_
  simp [h.currIP, h.after]

theorem Gains.indexed {env : Env} {s s' : UsersImpl} {id : UserId} {ip : IP} (h : Gains env s s' id ip)
    (hs : s.Indexed) : s'.Indexed := by
  refine Indexed.of_iff fun ip' j => ?_
  rw [h.ipIndex]
  by_cases hj : j = id
  · subst hj
    by_cases hip : ip' = ip
    · subst hip; simp [h.after, h.currIP]
    · rw [Function.update_of_ne hip, hs.index_iff]
      simp [h.before, h.currIP, Ne.symm hip]
  · rw [h.others j hj, ← hs.index_iff]
    by_cases hip : ip' = ip
    · subst hip; simp [h.free, Ne.symm hj]
    · rw [Function.update_of_ne hip]

theorem Loses.indexed {s s' : UsersImpl} {id : UserId} {ip : IP} (h : Loses s s' id ip)
    (hs : s.Indexed) : s'.Indexed := by
  have hheld : s.ipIndex ip = some id := (hs.index_iff ip id).mpr ⟨h.before, h.held⟩
  refine Indexed.of_iff fun ip' j => ?_
  rw [h.ipIndex]
  by_cases hj : j = id
  · subst hj
    simp only [h.after, ne_eq, not_true_eq_false, false_and, iff_false]
    by_cases hip : ip' = ip
    · subst hip; simp
    · rw [Function.update_of_ne hip]
      intro hc
      exact hip (hs.unique _ _ _ hc hheld)
  · rw [h.others j hj, ← hs.index_iff]
    by_cases hip : ip' = ip
    · subst hip; simp [hheld, Ne.symm hj]
    · rw [Function.update_of_ne hip]

/-! ## What the operations can do -/

section Operations

variable {s : UsersImpl} {env : Env} {login : String} {ip : IP} {dirs : BitVec 32} {auth : AuthId}
  {reason : String} {out : Outcome}

/-- `Authorize` trips over the assertion of `AddToIPIdx` exactly when an authorizer that already
authorized the user comes again with an address nobody has.

**Proof sketch.** Where the address is in the index, or the user refuses, the index is not touched.
A user that was just given the address is not in the index under it.  But for a known authorizer
the user reports success without looking at the address, and its own address is in the index. -/
theorem authorize_eq_none_iff (hs : s.Consistent) (hi : s.Indexed) :
    s.authorize env login ip dirs auth = none ↔
      ∃ id, s.loginIndex login = some id ∧ auth ∈ (s.users id).authorizedBy ∧
        s.ipIndex ip = none := by
  unfold authorize
  cases hl : s.loginIndex login with
  | none => simp
  | some id =>
    cases hip : s.ipIndex ip with
    | some holder =>
      simp only [reduceCtorEq, and_false, exists_false, iff_false]
      split_ifs <;> simp
    | none =>
      simp only [Option.some.injEq, and_true, exists_eq_left']
      rcases (s.users id).authorize_cases env s.ipIndex id ip dirs auth with
        ⟨hauth, hr⟩ | ⟨hauth, d, e, hr⟩ | ⟨-, -, hby, hcurr, -, -⟩ | ⟨hby, hne, -, -, hr⟩
      · have hby : (s.users id).authorizedBy ≠ ∅ := Finset.ne_empty_of_mem hauth
        have hne : (s.users id).currIP ≠ 0 := fun hc => hby ((hs.currIP_eq_zero id).mp hc)
        have hself : s.ipIndex (s.users id).currIP = some id := (hi.index_iff _ _).mpr ⟨hby, rfl⟩
        simp only [authorizeUser, hr, Bool.true_eq_false, if_false, addToIPIdx, setUser_self,
          if_neg hne, setUser_ipIndex, hself, Option.isSome_some, if_true, Option.map_none, hauth]
      · simp [authorizeUser, hr, hauth]
      · have hself : s.ipIndex ip = some id := (hi.index_iff _ _).mpr ⟨hby, hcurr⟩
        rw [hip] at hself
        cases hself
      · have hauth : auth ∉ (s.users id).authorizedBy := by simp [hby]
        simp only [authorizeUser, hr, Bool.true_eq_false, if_false, addToIPIdx, setUser_self,
          if_neg hne, setUser_ipIndex, hip, Option.isSome_none, Option.map_some, reduceCtorEq,
          hauth]

/-- Where the address is in the index, nobody gains it. -/
theorem authorizeUser_of_held {holder : UserId} (hip : s.ipIndex ip = some holder) (id : UserId) :
    Unmoved s (s.authorizeUser env id ip dirs auth).users ∧
      (s.authorizeUser env id ip dirs auth).change = none := by
  rcases (s.users id).authorize_cases env s.ipIndex id ip dirs auth with
    ⟨-, hr⟩ | ⟨-, d, e, hr⟩ | ⟨-, -, hby, -, -, hr⟩ | ⟨-, -, hfree, -⟩
  · exact ⟨.setUser (by rw [hr]; exact .refl _), by simp [authorizeUser, hr]⟩
  · exact ⟨.setUser (by rw [hr]; exact ⟨rfl, rfl, rfl, rfl, Iff.rfl⟩), by simp [authorizeUser, hr]⟩
  · refine ⟨.setUser ?_, by simp [authorizeUser, hr]⟩
    rw [hr]
    exact ⟨rfl, rfl, rfl, rfl, by simp [hby]⟩
  · rw [hip] at hfree
    cases hfree

/-- The first authorizer gives the user the address, which is then put into the index. -/
theorem gains_setUser {id : UserId} (hby : (s.users id).authorizedBy = ∅) (hip : s.ipIndex ip = none)
    (hne : ip ≠ 0) (hfind : (s.users id).ips.find env.shifted ip = true)
    (hfound : s.loginIndex (s.users id).login = some id) {u : UserImpl}
    (hlogin : u.login = (s.users id).login) (htariff : u.tariff = (s.users id).tariff)
    (hcurr : u.currIP = ip) (hafter : u.authorizedBy ≠ ∅)
    (hconn : u.connected = (s.users id).connected) :
    Gains env s { s.setUser id u with ipIndex := Function.update s.ipIndex ip (some id) } id ip where
  loginIndex := rfl
  ipIndex := rfl
  others j hj := setUser_of_ne s _ hj
  login := by simpa [setUser] using hlogin
  tariff := by simpa [setUser] using htariff
  before := hby
  free := hip
  ip_ne_zero := hne
  allowed := hfind
  found := hfound
  currIP := by simpa [setUser] using hcurr
  after := by simpa [setUser] using hafter
  connected := by simpa [setUser] using hconn

/-- **What `Authorize` can do** when it returns: nothing that is seen from outside, or the user
gains the address. -/
theorem authorize_cases (hs : s.Consistent) (hi : s.Indexed)
    (h : s.authorize env login ip dirs auth = some out) :
    (Unmoved s out.users ∧ out.change = none) ∨
    (∃ id, s.loginIndex login = some id ∧ Gains env s out.users id ip ∧
      out.change = some ⟨id, 0, ip⟩) := by
  have hassert : ¬ ∃ id, s.loginIndex login = some id ∧ auth ∈ (s.users id).authorizedBy ∧
      s.ipIndex ip = none := by
    rw [← authorize_eq_none_iff hs hi, h]
    simp
  unfold authorize at h
  cases hl : s.loginIndex login with
  | none =>
    simp only [hl, Option.some.injEq] at h
    subst h
    exact .inl ⟨.refl s, rfl⟩
  | some id =>
    simp only [hl] at h
    cases hip : s.ipIndex ip with
    | some holder =>
      simp only [hip] at h
      split_ifs at h with hlogin
      · obtain rfl := Option.some.inj h
        exact .inl ⟨.refl s, rfl⟩
      · obtain rfl := Option.some.inj h
        exact .inl (authorizeUser_of_held hip holder)
    | none =>
      simp only [hip] at h
      rcases (s.users id).authorize_cases env s.ipIndex id ip dirs auth with
        ⟨hauth, -⟩ | ⟨-, d, e, hr⟩ | ⟨-, -, hby, hcurr, -, -⟩ | ⟨hby, hne, -, hfind, hr⟩
      · exact absurd ⟨id, hl, hauth, hip⟩ hassert
      · simp only [authorizeUser, hr, if_true, Option.some.injEq] at h
        subst h
        exact .inl ⟨.setUser ⟨rfl, rfl, rfl, rfl, Iff.rfl⟩, rfl⟩
      · have hself : s.ipIndex ip = some id := (hi.index_iff _ _).mpr ⟨hby, hcurr⟩
        rw [hip] at hself
        cases hself
      · have hzero : (s.users id).currIP = 0 := (hs.currIP_eq_zero id).mpr hby
        simp only [authorizeUser, hr, Bool.true_eq_false, if_false, addToIPIdx, setUser_self,
          if_neg hne, setUser_ipIndex, hip, Option.isSome_none, Bool.false_eq_true,
          Option.map_some, Option.some.injEq, if_true] at h
        subst h
        have hfound : s.loginIndex (s.users id).login = some id := by
          rw [hs.login_eq login id hl]
          exact hl
        exact .inr ⟨id, rfl, gains_setUser hby hip hne hfind hfound rfl rfl rfl (by simp) rfl,
          by rw [hzero]⟩

/-- `Unauthorize` trips over the assertion of `DelFromIPIdx` exactly when nobody authorized the
user. -/
theorem unauthorize_eq_none_iff (hs : s.Consistent) :
    s.unauthorize env login auth reason = none ↔
      ∃ id, s.loginIndex login = some id ∧ (s.users id).authorizedBy = ∅ := by
  unfold unauthorize
  cases hl : s.loginIndex login with
  | none => simp
  | some id =>
    simp only [Option.some.injEq, exists_eq_left']
    rcases (s.users id).unauthorize_cases env auth reason with
      ⟨-, hr⟩ | ⟨hauth, he, hr⟩ | ⟨hauth, he, hr⟩
    · rw [hr]
      by_cases hby : (s.users id).authorizedBy = ∅
      · simp [hby, delFromIPIdx, (hs.currIP_eq_zero id).mpr hby]
      · simp [hby]
    · have hby : (s.users id).authorizedBy ≠ ∅ := Finset.ne_empty_of_mem hauth
      rw [hr]
      simp [he, hby]
    · have hby : (s.users id).authorizedBy ≠ ∅ := Finset.ne_empty_of_mem hauth
      have hne : (s.users id).currIP ≠ 0 := fun hc => hby ((hs.currIP_eq_zero id).mp hc)
      rw [hr]
      simp only [delFromIPIdx, if_neg hne, hby, iff_false]
      split_ifs <;> simp

/-- **What `Unauthorize` can do** when it returns: nothing that is seen from outside, or the user
loses its address. -/
theorem unauthorize_cases (hs : s.Consistent)
    (h : s.unauthorize env login auth reason = some out) :
    (Unmoved s out.users ∧ out.change = none) ∨
    (∃ id ip, s.loginIndex login = some id ∧ Loses s out.users id ip ∧
      (s.users id).authorizedBy.erase auth = ∅ ∧ out.change = some ⟨id, ip, 0⟩) := by
  have hnone : s.unauthorize env login auth reason ≠ none := by rw [h]; simp
  rw [ne_eq, unauthorize_eq_none_iff hs, not_exists] at hnone
  unfold unauthorize at h
  cases hl : s.loginIndex login with
  | none =>
    simp only [hl, Option.some.injEq] at h
    subst h
    exact .inl ⟨.refl s, rfl⟩
  | some id =>
    have hby : (s.users id).authorizedBy ≠ ∅ := fun hc => hnone id ⟨hl, hc⟩
    have hne : (s.users id).currIP ≠ 0 := fun hc => hby ((hs.currIP_eq_zero id).mp hc)
    simp only [hl] at h
    rcases (s.users id).unauthorize_cases env auth reason with
      ⟨-, hr⟩ | ⟨-, he, hr⟩ | ⟨-, he, hr⟩
    · simp only [hr, if_neg hby, Option.some.injEq] at h
      subst h
      exact .inl ⟨.setUser (.refl _), rfl⟩
    · simp only [hr, if_neg he, Option.some.injEq] at h
      subst h
      exact .inl ⟨.setUser ⟨rfl, rfl, rfl, rfl, by simp [he, hby]⟩, rfl⟩
    · have hafter : ((s.users id).unauthorize env auth reason).user.authorizedBy = ∅ := by
        rw [hr]
        split_ifs <;> simp
      have hconn : ((s.users id).unauthorize env auth reason).user.connected = false := by
        rw [hr]
        split_ifs with hc
        · exact UserImpl.disconnect_connected env _ hne
        · simpa using hc
      simp only [hafter, if_true, delFromIPIdx, if_neg hne, Option.map_some,
        Option.some.injEq] at h
      subst h
      refine .inr ⟨id, (s.users id).currIP, rfl, ?_, he, by simp [hr]⟩
      exact {
        loginIndex := rfl
        ipIndex := rfl
        others := fun j hj => setUser_of_ne s _ hj
        login := by rw [hr]; split_ifs <;> simp [setUser]
        tariff := by rw [hr]; split_ifs <;> simp [setUser]
        before := hby
        held := rfl
        currIP := by rw [hr]; split_ifs <;> simp [setUser]
        after := by simpa [setUser] using hafter
        connected := by simpa [setUser] using hconn }

end Operations

/-! ## The calls for one user -/

section OneUser

variable {s : UsersImpl} {env : Env} {login : String} {ip : IP} {dirs : BitVec 32} {auth : AuthId}
  {reason : String} {out : Outcome} {id : UserId}

/-- What a call for one user at one address leaves alone. -/
structure Frame (s s' : UsersImpl) (id : UserId) (ip : IP) : Prop where
  /-- The same logins. -/
  loginIndex : s'.loginIndex = s.loginIndex
  /-- Other addresses have the same holders. -/
  ipIndex : ∀ ip', ip' ≠ ip → s'.ipIndex ip' = s.ipIndex ip'
  /-- Other users are the same. -/
  others : ∀ j, j ≠ id → s'.users j = s.users j

theorem Frame.refl (s : UsersImpl) (id : UserId) (ip : IP) : Frame s s id ip :=
  ⟨rfl, fun _ _ => rfl, fun _ _ => rfl⟩

theorem Frame.trans {s s' s'' : UsersImpl} (h : Frame s s' id ip) (h' : Frame s' s'' id ip) :
    Frame s s'' id ip :=
  ⟨h'.loginIndex.trans h.loginIndex, fun j hj => (h'.ipIndex j hj).trans (h.ipIndex j hj),
    fun j hj => (h'.others j hj).trans (h.others j hj)⟩

/-- A call of `Authorize` for a known user, without the search of the holder by its login. -/
theorem authorize_eq (hs : s.Consistent) (hl : s.loginIndex login = some id) :
    s.authorize env login ip dirs auth =
      match s.ipIndex ip with
      | some holder =>
        if holder ≠ id then some ⟨s, false, none⟩ else some (s.authorizeUser env id ip dirs auth)
      | none =>
        let r := s.authorizeUser env id ip dirs auth
        if r.ret = false then some r
        else (r.users.addToIPIdx id).map fun s' => { r with users := s' } := by
  unfold authorize
  rw [hl]
  cases hip : s.ipIndex ip with
  | none => rfl
  | some holder =>
    have hiff : (s.users holder).login ≠ login ↔ holder ≠ id := by
      refine not_congr ⟨fun h => ?_, fun h => ?_⟩
      · have hreg := hs.registered ip holder hip
        rw [h, hl] at hreg
        exact (Option.some.inj hreg).symm
      · rw [h]
        exact hs.login_eq login id hl
    simp only [hiff]
    split_ifs with h
    · rfl
    · rw [not_not.1 h]

/-- **What `Authorize` does for a user**: if it succeeds, the user is authorized by the authorizer,
at the address unless it was authorized by it before; if it fails, nothing happens to the
authorizations, and the user was not authorized by it at the address. -/
theorem authorize_spec (hs : s.Consistent) (hi : s.Indexed) (hl : s.loginIndex login = some id)
    (h : s.authorize env login ip dirs auth = some out) :
    Frame s out.users id ip ∧
    (out.ret = true → auth ∈ (out.users.users id).authorizedBy ∧
      ((out.users.users id).currIP = ip ∨ auth ∈ (s.users id).authorizedBy ∧
        (out.users.users id).currIP = (s.users id).currIP)) ∧
    (out.ret = false → (out.users.users id).authorizedBy = (s.users id).authorizedBy ∧
      (out.users.users id).currIP = (s.users id).currIP ∧
      ¬ (auth ∈ (s.users id).authorizedBy ∧ (s.users id).currIP = ip)) := by
  have hset (u : UserImpl) : Frame s (s.setUser id u) id ip :=
    ⟨rfl, fun _ _ => rfl, fun j hj => setUser_of_ne s u hj⟩
  have hheld : (auth ∈ (s.users id).authorizedBy ∧ (s.users id).currIP = ip) →
      s.ipIndex ip = some id := fun ⟨hauth, hcurr⟩ =>
    (hi.index_iff ip id).2 ⟨Finset.ne_empty_of_mem hauth, hcurr⟩
  rw [authorize_eq hs hl] at h
  cases hip : s.ipIndex ip with
  | some holder =>
    simp only [hip] at h
    split_ifs at h with hne
    · obtain rfl := Option.some.inj h
      refine ⟨.refl s id ip, by simp, fun _ => ⟨rfl, rfl, fun hc => ?_⟩⟩
      rw [hheld hc] at hip
      exact hne (Option.some.inj hip).symm
    · obtain rfl := Option.some.inj h
      refine ⟨hset _, ?_⟩
      simp only [authorizeUser, setUser_self]
      rcases (s.users id).authorize_cases env s.ipIndex id ip dirs auth with
        ⟨hauth, hr⟩ | ⟨hauth, d, e, hr⟩ | ⟨-, -, -, hcurr, -, hr⟩ | ⟨-, -, hfree, -, -⟩
      · rw [hr]
        simp [hauth]
      · rw [hr]
        simp [hauth]
      · rw [hr]
        simp [hcurr]
      · rw [hip] at hfree
        cases hfree
  | none =>
    simp only [hip] at h
    rcases (s.users id).authorize_cases env s.ipIndex id ip dirs auth with
      ⟨hauth, -⟩ | ⟨hauth, d, e, hr⟩ | ⟨-, -, hby, hcurr, -, -⟩ | ⟨hby, hne, -, -, hr⟩
    · have hnone : s.authorize env login ip dirs auth = none :=
        (authorize_eq_none_iff hs hi).2 ⟨id, hl, hauth, hip⟩
      rw [authorize_eq hs hl] at hnone
      simp only [hip, h, reduceCtorEq] at hnone
    · simp only [authorizeUser, hr, if_true, Option.some.injEq] at h
      subst h
      refine ⟨hset _, by simp, fun _ => ?_⟩
      simp [hauth]
    · have hself : s.ipIndex ip = some id := (hi.index_iff _ _).2 ⟨hby, hcurr⟩
      rw [hip] at hself
      cases hself
    · simp only [authorizeUser, hr, Bool.true_eq_false, if_false, addToIPIdx, setUser_self,
        if_neg hne, setUser_ipIndex, hip, Option.isSome_none, Bool.false_eq_true,
        Option.map_some, Option.some.injEq, if_true] at h
      subst h
      refine ⟨⟨rfl, fun j hj => Function.update_of_ne hj _ _, fun j hj => setUser_of_ne s _ hj⟩, ?_,
        by simp⟩
      simp [setUser]

/-- **What `Unauthorize` does for a user**: it is not authorized by the authorizer any more. -/
theorem unauthorize_spec (hl : s.loginIndex login = some id)
    (h : s.unauthorize env login auth reason = some out) :
    Frame s out.users id (s.users id).currIP ∧
      auth ∉ (out.users.users id).authorizedBy := by
  have hgone : auth ∉ ((s.users id).unauthorize env auth reason).user.authorizedBy := by
    rcases (s.users id).unauthorize_cases env auth reason with
      ⟨hauth, hr⟩ | ⟨-, -, hr⟩ | ⟨-, -, hr⟩
    · rw [hr]
      exact hauth
    · rw [hr]
      simp
    · rw [hr]
      split_ifs <;> simp
  unfold unauthorize at h
  simp only [hl] at h
  split_ifs at h with hempty
  · unfold delFromIPIdx at h
    split_ifs at h with hzero
    · cases h
    · obtain rfl := Option.some.inj h
      refine ⟨⟨rfl, fun j hj => Function.update_of_ne hj _ _, fun j hj => setUser_of_ne s _ hj⟩, ?_⟩
      simpa [setUser] using hgone
  · obtain rfl := Option.some.inj h
    refine ⟨⟨rfl, fun _ _ => rfl, fun j hj => setUser_of_ne s _ hj⟩, ?_⟩
    simpa using hgone

/-- Two servers that are the same for one user at one address. -/
structure SameFor (s s' : UsersImpl) (id : UserId) (ip : IP) : Prop where
  /-- The same logins. -/
  loginIndex : s'.loginIndex = s.loginIndex
  /-- The address has the same holder. -/
  ipIndex : s'.ipIndex ip = s.ipIndex ip
  /-- The user is the same. -/
  user : s'.users id = s.users id

/-- A call for another user at another address makes no difference. -/
theorem SameFor.frame {s₁ s' : UsersImpl} {id' : UserId} {ip' : IP} (h : SameFor s s' id ip)
    (hid : id ≠ id') (hip : ip ≠ ip') (hframe : Frame s s₁ id' ip') : SameFor s₁ s' id ip :=
  ⟨h.loginIndex.trans hframe.loginIndex.symm, h.ipIndex.trans (hframe.ipIndex ip hip).symm,
    h.user.trans (hframe.others id hid).symm⟩

/-- **`Authorize` depends on the user and the address only.** -/
theorem SameFor.authorize {s' : UsersImpl} (h : SameFor s s' id ip) (hs : s.Consistent)
    (hi : s.Indexed) (hs' : s'.Consistent) (hl : s.loginIndex login = some id)
    (hout : s.authorize env login ip dirs auth = some out) :
    ∃ out', s'.authorize env login ip dirs auth = some out' ∧ out'.ret = out.ret ∧
      SameFor out.users out'.users id ip := by
  have hl' : s'.loginIndex login = some id := by rw [h.loginIndex, hl]
  have huser : (s'.users id).authorize env s'.ipIndex id ip dirs auth =
      (s.users id).authorize env s.ipIndex id ip dirs auth := by
    rw [h.user]
    simp only [UserImpl.authorize, h.ipIndex]
  have hset (u : UserImpl) : SameFor (s.setUser id u) (s'.setUser id u) id ip :=
    ⟨h.loginIndex, h.ipIndex, by simp⟩
  -- the call for the user itself
  have hself : (s'.authorizeUser env id ip dirs auth).ret =
        (s.authorizeUser env id ip dirs auth).ret ∧
      SameFor (s.authorizeUser env id ip dirs auth).users
        (s'.authorizeUser env id ip dirs auth).users id ip := by
    simp only [authorizeUser, huser]
    exact ⟨trivial, hset _⟩
  rw [authorize_eq hs hl] at hout
  rw [authorize_eq hs' hl', h.ipIndex]
  cases hip : s.ipIndex ip with
  | some holder =>
    simp only [hip] at hout ⊢
    split_ifs at hout ⊢ with hne
    · obtain rfl := Option.some.inj hout
      exact ⟨_, rfl, rfl, h⟩
    · obtain rfl := Option.some.inj hout
      exact ⟨_, rfl, hself⟩
  | none =>
    simp only [hip] at hout ⊢
    have hip' : s'.ipIndex ip = none := h.ipIndex.trans hip
    rcases (s.users id).authorize_cases env s.ipIndex id ip dirs auth with
      ⟨hauth, -⟩ | ⟨hauth, d, e, hr⟩ | ⟨-, -, hby, hcurr, -, -⟩ | ⟨hby, hne, -, -, hr⟩
    · have hnone : s.authorize env login ip dirs auth = none :=
        (authorize_eq_none_iff hs hi).2 ⟨id, hl, hauth, hip⟩
      rw [authorize_eq hs hl] at hnone
      simp only [hip, hout, reduceCtorEq] at hnone
    · have hret : (s.authorizeUser env id ip dirs auth).ret = false := by
        simp only [authorizeUser, hr]
      rw [if_pos hret] at hout
      rw [if_pos (hself.1.trans hret)]
      obtain rfl := Option.some.inj hout
      exact ⟨_, rfl, hself⟩
    · have hheld : s.ipIndex ip = some id := (hi.index_iff _ _).2 ⟨hby, hcurr⟩
      rw [hip] at hheld
      cases hheld
    · simp only [authorizeUser, huser, hr, Bool.true_eq_false, if_false, addToIPIdx, setUser_self,
        if_neg hne, setUser_ipIndex, hip, hip', Option.isSome_none, Bool.false_eq_true,
        Option.map_some, Option.some.injEq] at hout ⊢
      subst hout
      exact ⟨_, rfl, rfl, h.loginIndex, by simp, by simp [setUser]⟩

/-- **`Unauthorize` depends on the user and the address only.** -/
theorem SameFor.unauthorize {s' : UsersImpl} (h : SameFor s s' id ip)
    (hl : s.loginIndex login = some id) (hout : s.unauthorize env login auth reason = some out) :
    ∃ out', s'.unauthorize env login auth reason = some out' ∧
      SameFor out.users out'.users id ip := by
  have hl' : s'.loginIndex login = some id := by rw [h.loginIndex, hl]
  have hset (u : UserImpl) : SameFor (s.setUser id u) (s'.setUser id u) id ip :=
    ⟨h.loginIndex, h.ipIndex, by simp⟩
  unfold UsersImpl.unauthorize at hout ⊢
  simp only [hl, hl', h.user] at hout ⊢
  split_ifs at hout ⊢ with hempty
  · unfold delFromIPIdx at hout ⊢
    split_ifs at hout ⊢ with hzero
    · cases hout
    · obtain rfl := Option.some.inj hout
      refine ⟨_, rfl, h.loginIndex, ?_, (hset _).user⟩
      simp only [Function.update_apply, setUser_ipIndex, h.ipIndex]
  · obtain rfl := Option.some.inj hout
    exact ⟨_, rfl, hset _⟩

end OneUser

/-! ## Runs -/

/-- The calls that change authorizations. -/
inductive Action
  /-- `UsersImpl::Authorize`. -/
  | authorize (env : Env) (login : String) (ip : IP) (dirs : BitVec 32) (auth : AuthId)
  /-- `UsersImpl::Unauthorize`. -/
  | unauthorize (env : Env) (login : String) (auth : AuthId) (reason : String)

/-- One call. -/
def step (s : UsersImpl) : Action → Option UsersImpl
  | .authorize env login ip dirs auth => (s.authorize env login ip dirs auth).map Outcome.users
  | .unauthorize env login auth reason => (s.unauthorize env login auth reason).map Outcome.users

/-- The calls that meet the assertions: an authorizer that authorized the user before comes again
only with an address that somebody has, and only users that somebody authorized are
unauthorized. -/
def Guard (s : UsersImpl) : Action → Prop
  | .authorize _ login ip _ auth =>
    ∀ id, s.loginIndex login = some id → auth ∈ (s.users id).authorizedBy → s.ipIndex ip ≠ none
  | .unauthorize _ login _ _ =>
    ∀ id, s.loginIndex login = some id → (s.users id).authorizedBy ≠ ∅

/-- The server after start: nobody is authorized and no address is in use. -/
structure Initial (s : UsersImpl) : Prop where
  /-- A user is found under its own login. -/
  login_eq : ∀ login id, s.loginIndex login = some id → (s.users id).login = login
  /-- No address is in use. -/
  ipIndex : s.ipIndex = fun _ => none
  /-- Nobody is authorized. -/
  authorizedBy : ∀ id, (s.users id).authorizedBy = ∅
  /-- Nobody has an address. -/
  currIP : ∀ id, (s.users id).currIP = 0

theorem Initial.consistent {s : UsersImpl} (h : s.Initial) : s.Consistent :=
  ⟨h.login_eq, fun _ _ hi => by simp [h.ipIndex] at hi, fun id => by
    simp [h.authorizedBy id, h.currIP id]⟩

theorem Initial.indexed {s : UsersImpl} (h : s.Initial) : s.Indexed :=
  Indexed.of_iff fun _ _ => by simp [h.ipIndex, h.authorizedBy]

/-- Every call keeps the users consistent and, if it returns, the index right. -/
theorem step_invariant {s s' : UsersImpl} {a : Action} (hs : s.Consistent) (hi : s.Indexed)
    (h : s.step a = some s') : s'.Consistent ∧ s'.Indexed := by
  cases a with
  | authorize env login ip dirs auth =>
    obtain ⟨out, hout, rfl⟩ := Option.map_eq_some_iff.mp h
    rcases authorize_cases hs hi hout with ⟨hu, -⟩ | ⟨id, -, hg, -⟩
    · exact ⟨hu.consistent hs, hu.indexed hi⟩
    · exact ⟨hg.consistent hs, hg.indexed hi⟩
  | unauthorize env login auth reason =>
    obtain ⟨out, hout, rfl⟩ := Option.map_eq_some_iff.mp h
    rcases unauthorize_cases hs hout with ⟨hu, -⟩ | ⟨id, ip, -, hl, -⟩
    · exact ⟨hu.consistent hs, hu.indexed hi⟩
    · exact ⟨hl.consistent hs, hl.indexed hi⟩

/-- A call meets the assertions exactly if it meets the guard. -/
theorem step_ne_none_iff {s : UsersImpl} (a : Action) (hs : s.Consistent) (hi : s.Indexed) :
    s.step a ≠ none ↔ s.Guard a := by
  cases a with
  | authorize env login ip dirs auth =>
    simp only [step, ne_eq, Option.map_eq_none_iff, authorize_eq_none_iff hs hi, Guard,
      not_exists, not_and]
  | unauthorize env login auth reason =>
    simp only [step, ne_eq, Option.map_eq_none_iff, unauthorize_eq_none_iff hs, Guard,
      not_exists, not_and]

/-- **The index of addresses.** From a server where nobody is authorized, perform any calls of
`Authorize` and `Unauthorize`, for any logins, addresses and authorizers: all assertions hold and
after every call the index maps exactly the authorized users' addresses to them, if and only if
every call meets the guard.

**Proof sketch.** The exactness rule: a call that returns keeps the index (`step_invariant`), and a
call returns iff it meets the guard (`step_ne_none_iff`). -/
theorem maintains_indexed_iff (s : UsersImpl) (h : s.Initial) (as : List Action) :
    Transition.Maintains step Indexed s as ↔ ∃ t, Transition.Reaches step Guard s as t := by
  apply Transition.maintains_iff_reaches (A := Consistent)
  · exact fun s a s' hs hi hstep => (step_invariant hs hi hstep).1
  · intro s a hs hi
    rw [← step_ne_none_iff a hs hi, Option.ne_none_iff_exists']
    exact ⟨fun ⟨s', h', _⟩ => ⟨s', h'⟩, fun ⟨s', h'⟩ => ⟨s', h', (step_invariant hs hi h').2⟩⟩
  · exact h.consistent
  · exact h.indexed

end UsersImpl

namespace Sample

/-- A server with two users, `a` and `b`. -/
def users : UsersImpl where
  users := fun id => user (if id = 0 then "a" else "b")
  loginIndex := fun login => if login = "a" then some 0 else if login = "b" then some 1 else none
  ipIndex := fun _ => none

/-- Nobody is authorized on the sample server. -/
theorem users_initial : users.Initial := by
  refine ⟨fun login id h => ?_, rfl, fun _ => rfl, fun _ => rfl⟩
  simp only [users] at h ⊢
  split_ifs at h with h1 h2
  · cases h; simp [user, h1]
  · cases h; simp [user, h2]

end Sample

namespace UsersImpl

/-- Two authorizers authorize a user, the first one twice, at one address, and leave again. -/
theorem maintains_indexed_sample :
    Transition.Maintains step Indexed Sample.users
      [.authorize (Sample.env 0) "a" 7 0 1, .authorize (Sample.env 0) "a" 7 0 2,
        .authorize (Sample.env 1) "a" 7 0 1, .unauthorize (Sample.env 2) "a" 1 "",
        .unauthorize (Sample.env 3) "a" 2 ""] := by
  refine (maintains_indexed_iff _ Sample.users_initial _).mpr ⟨_, .cons ?_ rfl (.cons ?_ rfl
    (.cons ?_ rfl (.cons ?_ rfl (.cons ?_ rfl (.nil _)))))⟩
  all_goals
    intro id hid
    obtain rfl : id = 0 := (Option.some.inj hid).symm
    decide +kernel

/-- Nobody authorized the user when it is unauthorized; and an authorizer comes twice with two
addresses: both times an assertion fails. -/
theorem assertion_fails :
    ¬ Transition.Maintains step Indexed Sample.users [.unauthorize (Sample.env 0) "a" 1 ""] ∧
    ¬ Transition.Maintains step Indexed Sample.users
      [.authorize (Sample.env 0) "a" 7 0 1, .authorize (Sample.env 1) "a" 8 0 1] := by
  constructor
  · rintro ⟨-, s, hs, -⟩
    exact Option.ne_none_iff_exists'.mpr ⟨s, hs⟩ (by rfl)
  · rintro ⟨-, s, hs, -, s', hs', -⟩
    obtain rfl := Option.some.inj hs
    exact Option.ne_none_iff_exists'.mpr ⟨s', hs'⟩ (by rfl)

end UsersImpl

end Stargazer
