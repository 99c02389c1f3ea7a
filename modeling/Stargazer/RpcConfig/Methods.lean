import Stargazer.RpcConfig.Sessions
import Stargazer.RpcConfig.SetUserInfo
import Stargazer.Tariffs.TariffsImpl

set_option relaxedAutoImplicit false
set_option autoImplicit false

/-!
# The methods that change something

The methods of `plugins/configuration/rpcconfig` (`users_methods.cpp`, `tariffs_methods.cpp`,
`admins_methods.cpp`) that change users, tariffs and administrators.  Each of them finds out who calls,
performs an operation of a registry or of a user, and answers whether it has succeeded.

Beside the answer a method is left with what its operations have reported.  Some methods do not look at
this: `METHOD_USER_CHG` at nothing at all, `METHOD_USER_DEL` cannot, as `UsersImpl::Del` returns nothing,
`METHOD_ADMIN_CHG` overwrites the answer it has given, and the others that change a user do not ask whether
he has been saved.

## Main definitions

* `Stargazer.RpcServer`, `Stargazer.RpcServer.reply` — the server and the answer to a call.
* `Stargazer.RpcServer.Truthful` — the answer is `true` exactly if everything was done.
* `Stargazer.RpcServer.Sincere` — the calls whose answer is.

## Main results

* `Stargazer.RpcServer.answers_truthful_iff` — the answers that tell the truth.
-/

namespace Stargazer

open XmlRpc

/-! ## Users -/

namespace UserList

/-- The user that a login leads to. -/
def find (s : UserList) (login : String) : Option UserRecord :=
  s.users.find? fun u => u.indexed && u.user.login == login

/-- A user takes the place of another one, and his login. -/
def put (s : UserList) (i : Fin s.users.length) (u : UserRecord) : UserList :=
  s.setUser i { u with user := { u.user with login := (s.users.get i).user.login } } rfl

/-- `UsersImpl::Add` for a user as he is built, but for his login; `stored` is the result of `AddUser` of
the store, which adds nobody whose login it has, as it does as long as he is on the list. -/
def add (priv : Priv) (stored : Bool) (login : String) (u : UserRecord) (s : UserList) :
    Bool × UserList :=
  if priv.userAddDel = 0 then (false, s)
  else if h : stored = true ∧ login ∉ s.users.map fun u => u.user.login then
    (true,
      { users := { u with user := { u.user with login := login }, indexed := true } :: s.users
        nodup := List.nodup_cons.mpr ⟨h.2, s.nodup⟩ })
  else (false, s)

/-- `UsersImpl::Del`, which returns nothing: `true` where it logs that the user has been deleted.
`OnDelete` ends with `Run`. -/
def delete (env : Env) (priv : Priv) (login : String) (s : UserList) : Bool × UserList :=
  if priv.userAddDel = 0 then (false, s)
  else
    match s.findByName login with
    | none => (false, s)
    | some i =>
      (true, s.put i { s.users.get i with user := (s.users.get i).user.run env, indexed := false })

/-- `UsersImpl::TariffInUse`. -/
def tariffInUse (s : UserList) (tariffName : String) : Bool :=
  s.users.any fun u => u.user.tariffName == tariffName

/-- Who is found is on the list. -/
theorem find_of_findByName {s : UserList} {login : String} {i : Fin s.users.length}
    (h : s.findByName login = some i) : s.find login = some (s.users.get i) ∧
      (s.users.get i).indexed = true ∧ (s.users.get i).user.login = login := by
  obtain ⟨hp, hbefore⟩ := List.findFinIdx?_eq_some_iff.mp h
  have hboth : (s.users.get i).indexed = true ∧ (s.users.get i).user.login = login := by
    simpa using hp
  refine ⟨List.find?_eq_some_iff_getElem.mpr ⟨hp, i.val, i.isLt, rfl, fun j hj => ?_⟩, hboth⟩
  have hj' : j < s.users.length := hj.trans i.isLt
  exact (Bool.not_eq_true' _).mpr (Bool.eq_false_iff.mpr (hbefore ⟨j, hj'⟩ hj))

/-- **The user that has been put in his place** is found there. -/
theorem find_put {s : UserList} {login : String} {i : Fin s.users.length} {u : UserRecord}
    (h : s.findByName login = some i) (hindexed : u.indexed = true)
    (hlogin : u.user.login = (s.users.get i).user.login) : (s.put i u).find login = some u := by
  obtain ⟨-, hbefore⟩ := List.findFinIdx?_eq_some_iff.mp h
  obtain ⟨-, -, hi⟩ := find_of_findByName h
  have hsame : ({ u with user := { u.user with login := (s.users.get i).user.login } } : UserRecord) = u := by
    have huser : ({ u.user with login := (s.users.get i).user.login } : UserImpl) = u.user := by
      show ({ u.user with login := (s.users.get i).user.login } : UserImpl) = u.user
      rw [← hlogin]
    rw [huser]
  have husers : (s.put i u).users = s.users.set i.val u := congrArg (s.users.set i.val) hsame
  unfold find
  rw [husers]
  refine List.find?_eq_some_iff_getElem.mpr ⟨?_, i.val, by simp, by simp, fun j hj => ?_⟩
  · simp [hindexed, hlogin.trans hi]
  · have hj' : j < s.users.length := hj.trans i.isLt
    rw [List.getElem_set_ne (Nat.ne_of_gt hj)]
    exact (Bool.not_eq_true' _).mpr (Bool.eq_false_iff.mpr (hbefore ⟨j, hj'⟩ hj))

end UserList

/-! ## Tariffs -/

/-- What a name leads to has this name. -/
theorem TariffsImpl.name_of_deref_findByName {r : TariffsImpl} {name : String} {td : TariffData}
    (h : r.deref (r.findByName name) = some td) : td.tariffConf.name = name := by
  unfold TariffsImpl.findByName at h
  by_cases hno : name = noTariffName
  · rw [if_pos hno] at h
    obtain rfl := Option.some.inj h
    exact hno.symm
  · rw [if_neg hno] at h
    cases hi : r.findIdx name with
    | none =>
      rw [hi] at h
      cases h
    | some i =>
      obtain ⟨t, ht, hname⟩ := TariffsImpl.getName_of_findIdx hi
      rw [hi] at h
      have hslot : r.tariffs[i]? = some td := by simpa [TariffsImpl.deref] using h
      obtain rfl := Option.some.inj (ht.symm.trans hslot)
      exact hname

namespace TariffHelper

/-- The tariff that `Chg` gets; `none` where the type of the traffic is none of the enumeration. -/
def Data.toTariff? (data : Data) : Option TariffData :=
  ([.up, .down, .upDown, .max].find? fun t => TraffType.number t = data.traffType).map fun t =>
    { tariffConf :=
        { fee := data.fee
          free := data.free
          traffType := t
          passiveCost := data.passiveCost
          name := data.name
          period := data.period
          changePolicy := data.changePolicy
          changePolicyTimeout := data.changePolicyTimeout }
      dirPrice := data.dirPrice }

/-- **Every member of the structure has been applied** to a tariff.  A text that names no period or no
policy stands for the classic behaviour. -/
structure Applied (tt : TimeText) (m : List (String × Value)) (td : TariffData) : Prop where
  fee : ∀ x, m.lookup "fee" = some (.double x) → td.tariffConf.fee = x
  freemb : ∀ x, m.lookup "freemb" = some (.double x) → td.tariffConf.free = x
  passivecost : ∀ x, m.lookup "passivecost" = some (.double x) → td.tariffConf.passiveCost = x
  traffType : ∀ z, m.lookup "traffType" = some (.int z) → td.tariffConf.traffType.number = z
  period : ∀ t, m.lookup "period" = some (.string t) → td.tariffConf.period = Period.parse t.toList
  changePolicy : ∀ t, m.lookup "changePolicy" = some (.string t) →
    td.tariffConf.changePolicy = ChangePolicy.parse t.toList
  changePolicyTimeout : ∀ t, m.lookup "changePolicyTimeout" = some (.string t) →
    td.tariffConf.changePolicyTimeout = tt.readTime t
  dirprices : ∀ prices, m.lookup "dirprices" = some (.array prices) →
    ∀ (i : Dir) v, prices[i.val]? = some v → readPrice v = some (td.dirPrice i)

/-- A member that is there is taken for what it is. -/
theorem eq_of_member {α : Type} {m : List (String × Value)} {name : String} {conv : Value → Option α}
    {old a b : α} {v : Value} (h : member m name conv old = some a) (hv : m.lookup name = some v)
    (hconv : conv v = some b) : a = b := by
  unfold member at h
  rw [hv] at h
  exact Option.some.inj (h.symm.trans hconv)

/-- **What `SetTariffInfo` does to a tariff**: its name stays, and every member is applied. -/
theorem applied_of_setTariffInfo {tt : TimeText} {info : Value} {data data' : Data} {td : TariffData}
    (h : setTariffInfo tt info data = .going data') (htd : data'.toTariff? = some td) :
    td.tariffConf.name = data.name ∧ ∃ m, info.struct? = some m ∧ Applied tt m td := by
  obtain ⟨t, ht, rfl⟩ := Option.map_eq_some_iff.mp htd
  have htype : TraffType.number t = data'.traffType := by simpa using List.find?_some ht
  unfold setTariffInfo at h
  cases hm : info.struct? with
  | none =>
    rw [hm] at h
    cases h
  | some m =>
    rw [hm] at h
    dsimp only at h
    cases hconf : readConf tt m data with
    | none =>
      rw [hconf] at h
      cases h
    | some data₁ =>
      rw [hconf] at h
      dsimp only at h
      -- the prices change nothing else
      have hprices : data' = { data₁ with dirPrice := data'.dirPrice } ∧
          ∀ prices, m.lookup "dirprices" = some (.array prices) →
            ∀ (i : Dir) v, prices[i.val]? = some v → readPrice v = some (data'.dirPrice i) := by
        unfold readPrices at h
        cases hv : m.lookup "dirprices" with
        | none =>
          rw [hv] at h
          obtain rfl := Halting.going.inj h
          exact ⟨rfl, fun prices hp => by cases hp⟩
        | some v =>
          rw [hv] at h
          dsimp only at h
          cases harray : v.array? with
          | none =>
            rw [harray] at h
            cases h
          | some prices =>
            rw [harray] at h
            obtain ⟨hsame, hdirs⟩ := run_readDir_eq_going h
            refine ⟨hsame, fun prices' hp i w hw => ?_⟩
            obtain rfl := Option.some.inj hp
            obtain rfl := Option.some.inj harray
            obtain ⟨w', hw', hread⟩ := (hdirs i).1 (List.mem_finRange i)
            exact Option.some.inj (hw.symm.trans hw') ▸ hread
      obtain ⟨hsame, hdirs⟩ := hprices
      obtain ⟨fee, h1, hconf⟩ := Option.bind_eq_some_iff.mp hconf
      obtain ⟨free, h2, hconf⟩ := Option.bind_eq_some_iff.mp hconf
      obtain ⟨passiveCost, h3, hconf⟩ := Option.bind_eq_some_iff.mp hconf
      obtain ⟨traffType, h4, hconf⟩ := Option.bind_eq_some_iff.mp hconf
      obtain ⟨period, h5, hconf⟩ := Option.bind_eq_some_iff.mp hconf
      obtain ⟨changePolicy, h6, hconf⟩ := Option.bind_eq_some_iff.mp hconf
      obtain ⟨changePolicyTimeout, h7, hconf⟩ := Option.bind_eq_some_iff.mp hconf
      obtain rfl := Option.some.inj hconf
      rw [hsame] at htype ⊢
      refine ⟨rfl, m, rfl, ?_⟩
      exact
        { fee := fun x hx => eq_of_member h1 hx rfl
          freemb := fun x hx => eq_of_member h2 hx rfl
          passivecost := fun x hx => eq_of_member h3 hx rfl
          traffType := fun z hz => htype.trans (eq_of_member h4 hz rfl)
          period := fun t ht => eq_of_member h5 ht rfl
          changePolicy := fun t ht => eq_of_member h6 ht rfl
          changePolicyTimeout := fun t ht => eq_of_member h7 ht rfl
          dirprices := hdirs }

end TariffHelper

/-! ## Administrators -/

namespace AdminsImpl

/-- A privilege that is given or taken. -/
def flag (b : Bool) : BitVec 16 := if b then 1 else 0

/-- The members that are privileges. -/
def privileges : List (String × (Priv → BitVec 16)) :=
  [("user_stat", Priv.userStat), ("user_conf", Priv.userConf), ("user_cash", Priv.userCash),
    ("user_passwd", Priv.userPasswd), ("user_add_del", Priv.userAddDel), ("admin_chg", Priv.adminChg),
    ("tariff_chg", Priv.tariffChg)]

/-- The `conf` of `METHOD_ADMIN_CHG`; `none` is an exception. -/
def readConf (login : String) (admin : Admin) (info : Value) : Option Admin := do
  let m ← info.struct?
  let password ← member m "password" Value.string? admin.password
  let userStat ← member m "user_stat" (fun v => v.boolean?.map flag) admin.priv.userStat
  let userConf ← member m "user_conf" (fun v => v.boolean?.map flag) admin.priv.userConf
  let userCash ← member m "user_cash" (fun v => v.boolean?.map flag) admin.priv.userCash
  let userPasswd ← member m "user_passwd" (fun v => v.boolean?.map flag) admin.priv.userPasswd
  let userAddDel ← member m "user_add_del" (fun v => v.boolean?.map flag) admin.priv.userAddDel
  let adminChg ← member m "admin_chg" (fun v => v.boolean?.map flag) admin.priv.adminChg
  let tariffChg ← member m "tariff_chg" (fun v => v.boolean?.map flag) admin.priv.tariffChg
  return { login, password
           priv := { admin.priv with
             userStat, userConf, userCash, userPasswd, userAddDel, adminChg, tariffChg } }

/-- Every member that is there has its type. -/
structure ConfTyped (m : List (String × Value)) : Prop where
  password : Typed m "password" Value.string?
  privileges : ∀ p ∈ privileges, Typed m p.1 Value.boolean?

/-- **Every member of the structure has been applied** to an administrator. -/
structure Applied (m : List (String × Value)) (admin : Admin) : Prop where
  password : ∀ t, m.lookup "password" = some (.string t) → admin.password = t
  privileges : ∀ p ∈ privileges, ∀ b, m.lookup p.1 = some (.boolean b) → p.2 admin.priv = flag b

section

variable {login : String} {admin conf : Admin} {info : Value} {m : List (String × Value)}

/-- When there is no exception. -/
theorem exists_readConf_iff (hm : info.struct? = some m) :
    (∃ conf, readConf login admin info = some conf) ↔ ConfTyped m := by
  constructor
  · rintro ⟨conf, h⟩
    obtain ⟨m', hm', h⟩ := Option.bind_eq_some_iff.mp h
    obtain rfl := Option.some.inj (hm.symm.trans hm')
    obtain ⟨_, h0, h⟩ := Option.bind_eq_some_iff.mp h
    obtain ⟨_, h1, h⟩ := Option.bind_eq_some_iff.mp h
    obtain ⟨_, h2, h⟩ := Option.bind_eq_some_iff.mp h
    obtain ⟨_, h3, h⟩ := Option.bind_eq_some_iff.mp h
    obtain ⟨_, h4, h⟩ := Option.bind_eq_some_iff.mp h
    obtain ⟨_, h5, h⟩ := Option.bind_eq_some_iff.mp h
    obtain ⟨_, h6, h⟩ := Option.bind_eq_some_iff.mp h
    obtain ⟨_, h7, h⟩ := Option.bind_eq_some_iff.mp h
    refine ⟨exists_member_iff.mp ⟨_, h0⟩, ?_⟩
    simp only [privileges, List.forall_mem_cons]
    exact ⟨TariffHelper.typed_map_iff.mp (exists_member_iff.mp ⟨_, h1⟩),
      TariffHelper.typed_map_iff.mp (exists_member_iff.mp ⟨_, h2⟩),
      TariffHelper.typed_map_iff.mp (exists_member_iff.mp ⟨_, h3⟩),
      TariffHelper.typed_map_iff.mp (exists_member_iff.mp ⟨_, h4⟩),
      TariffHelper.typed_map_iff.mp (exists_member_iff.mp ⟨_, h5⟩),
      TariffHelper.typed_map_iff.mp (exists_member_iff.mp ⟨_, h6⟩),
      TariffHelper.typed_map_iff.mp (exists_member_iff.mp ⟨_, h7⟩), fun _ h => by cases h⟩
  · rintro ⟨hpassword, hprivileges⟩
    simp only [privileges, List.forall_mem_cons] at hprivileges
    obtain ⟨h1, h2, h3, h4, h5, h6, h7, -⟩ := hprivileges
    obtain ⟨_, h0⟩ := exists_member_iff.mpr hpassword
    obtain ⟨_, h1⟩ := exists_member_iff.mpr (TariffHelper.typed_map_iff.mpr h1)
    obtain ⟨_, h2⟩ := exists_member_iff.mpr (TariffHelper.typed_map_iff.mpr h2)
    obtain ⟨_, h3⟩ := exists_member_iff.mpr (TariffHelper.typed_map_iff.mpr h3)
    obtain ⟨_, h4⟩ := exists_member_iff.mpr (TariffHelper.typed_map_iff.mpr h4)
    obtain ⟨_, h5⟩ := exists_member_iff.mpr (TariffHelper.typed_map_iff.mpr h5)
    obtain ⟨_, h6⟩ := exists_member_iff.mpr (TariffHelper.typed_map_iff.mpr h6)
    obtain ⟨_, h7⟩ := exists_member_iff.mpr (TariffHelper.typed_map_iff.mpr h7)
    unfold readConf
    rw [hm, Option.bind_eq_bind, Option.bind_some, h0, h1, h2, h3, h4, h5, h6, h7]
    exact ⟨_, rfl⟩

/-- Every member is in the configuration. -/
theorem applied_of_readConf (h : readConf login admin info = some conf) :
    conf.login = login ∧ ∃ m, info.struct? = some m ∧ Applied m conf := by
  obtain ⟨m, hm, h⟩ := Option.bind_eq_some_iff.mp h
  obtain ⟨_, h0, h⟩ := Option.bind_eq_some_iff.mp h
  obtain ⟨_, h1, h⟩ := Option.bind_eq_some_iff.mp h
  obtain ⟨_, h2, h⟩ := Option.bind_eq_some_iff.mp h
  obtain ⟨_, h3, h⟩ := Option.bind_eq_some_iff.mp h
  obtain ⟨_, h4, h⟩ := Option.bind_eq_some_iff.mp h
  obtain ⟨_, h5, h⟩ := Option.bind_eq_some_iff.mp h
  obtain ⟨_, h6, h⟩ := Option.bind_eq_some_iff.mp h
  obtain ⟨_, h7, h⟩ := Option.bind_eq_some_iff.mp h
  obtain rfl := Option.some.inj h
  refine ⟨rfl, m, hm, fun t ht => TariffHelper.eq_of_member h0 ht rfl, ?_⟩
  simp only [privileges, List.forall_mem_cons]
  exact ⟨fun b hb => TariffHelper.eq_of_member h1 hb rfl, fun b hb => TariffHelper.eq_of_member h2 hb rfl,
    fun b hb => TariffHelper.eq_of_member h3 hb rfl, fun b hb => TariffHelper.eq_of_member h4 hb rfl,
    fun b hb => TariffHelper.eq_of_member h5 hb rfl, fun b hb => TariffHelper.eq_of_member h6 hb rfl,
    fun b hb => TariffHelper.eq_of_member h7 hb rfl, fun _ h => by cases h⟩

/-- An administrator that takes the place of another one with his login is found there. -/
theorem find?_modify_findIdx? {l : List Admin} {i : ℕ} {f : Admin → Admin}
    (hf : ∀ a : Admin, a.login = login → (f a).login = login)
    (h : l.findIdx? (fun a => a.login = login) = some i) :
    ∃ a, l.find? (fun a => a.login = login) = some a ∧
      (l.modify i f).find? (fun a => a.login = login) = some (f a) := by
  induction l generalizing i with
  | nil => cases h
  | cons b l ih =>
    rw [List.findIdx?_cons] at h
    by_cases hb : b.login = login
    · simp only [hb, decide_true, if_true, Option.some.injEq] at h
      subst h
      refine ⟨b, by simp [hb], ?_⟩
      simp [List.modify, hf b hb]
    · simp only [hb, decide_false, Bool.false_eq_true, if_false] at h
      obtain ⟨j, hj, rfl⟩ := Option.map_eq_some_iff.mp h
      obtain ⟨a, ha, ha'⟩ := ih hj
      refine ⟨a, by simpa [hb] using ha, ?_⟩
      simpa [List.modify, hb] using ha'

/-- **When `change` succeeds**, and what is found afterwards. -/
theorem change_ok_iff (priv : Priv) (storeError : Option String) (ac : Admin) (a : AdminsImpl) :
    ((a.change priv storeError ac).ok = true ↔
        priv.adminChg ≠ 0 ∧ (a.findIdx ac.login).isSome = true ∧ storeError = none) ∧
      ((a.change priv storeError ac).ok = true →
        ∃ ip, (a.change priv storeError ac).admins.findLogin ac.login = some { ac with ip := ip }) := by
  unfold change
  by_cases hpriv : priv.adminChg = 0
  · rw [if_pos hpriv]
    refine ⟨iff_of_false Bool.false_ne_true fun h => h.1 hpriv, fun h => ?_⟩
    cases h
  · rw [if_neg hpriv]
    cases hi : a.findIdx ac.login with
    | none =>
      refine ⟨iff_of_false Bool.false_ne_true fun h => (by cases h.2.1), fun h => ?_⟩
      cases h
    | some i =>
      refine ⟨?_, fun _ => ?_⟩
      · show storeError.isNone = true ↔ _
        rw [Option.isNone_iff_eq_none]
        exact ⟨fun h => ⟨hpriv, rfl, h⟩, fun h => h.2.2⟩
      · obtain ⟨admin, -, hfound⟩ :=
          find?_modify_findIdx? (f := fun admin => { ac with ip := admin.ip }) (fun _ _ => rfl) hi
        exact ⟨admin.ip, hfound⟩

/-- An administrator that is found has a position, unless every login is found. -/
theorem isSome_findIdx_iff {a : AdminsImpl} (h : (a.find login).isSome = true) :
    (a.findIdx login).isSome = true ↔ a.data ≠ [] := by
  unfold find at h
  by_cases hdata : a.data = []
  · refine iff_of_false (fun hi => ?_) (not_not.mpr hdata)
    unfold findIdx at hi
    rw [hdata] at hi
    cases hi
  · rw [if_neg hdata] at h
    refine iff_of_true ?_ hdata
    unfold findLogin at h
    unfold findIdx
    rw [List.findIdx?_isSome]
    rwa [List.find?_isSome, ← List.any_eq_true] at h

end

end AdminsImpl

/-! ## The server -/

/-- What a call finds outside of the server. -/
structure Surroundings where
  /-- The clock and the settings, and whether `SaveUserStat` succeeds. -/
  env : Env
  /-- Does `SaveUserConf` succeed? -/
  saveUserConf : Bool
  /-- Does `AddUser` of the store succeed? -/
  addUser : Bool
  /-- A new user as he is built. -/
  newUser : UserRecord
  /-- What the store complains about when a tariff or an administrator is added, deleted or saved. -/
  storeError : Option String
  /-- `IconvString`. -/
  iconv : String → String
  /-- Is `errno` `ERANGE` when addresses and counters of a user are read? -/
  errno : UserHelper.InfoErrno := {}
  /-- The texts of times. -/
  timeText : TimeText

/-- The sessions and the registries. -/
structure RpcServer where
  config : RpcConfig
  admins : AdminsImpl
  tariffs : TariffsImpl
  users : UserList

/-- The methods that change something, with their parameters but for the cookie.  What is said about a
payment or about a tariff goes to the log only. -/
inductive Method
  /-- `METHOD_USER_ADD`. -/
  | userAdd (login : String)
  /-- `METHOD_USER_DEL`. -/
  | userDel (login : String)
  /-- `METHOD_USER_CHG`. -/
  | userChg (login : String) (info : Value)
  /-- `METHOD_USER_CASH_ADD`. -/
  | userCashAdd (login : String) (amount : Money)
  /-- `METHOD_USER_CASH_SET`. -/
  | userCashSet (login : String) (cash : Money)
  /-- `METHOD_USER_TARIFF_CHANGE`. -/
  | userTariffChange (login tariff : String) (delayed : Bool)
  /-- `METHOD_TARIFF_CHG`. -/
  | tariffChg (name : String) (info : Value)
  /-- `METHOD_TARIFF_ADD`. -/
  | tariffAdd (tariff : String)
  /-- `METHOD_TARIFF_DEL`. -/
  | tariffDel (tariff : String)
  /-- `METHOD_ADMIN_ADD`. -/
  | adminAdd (login : String)
  /-- `METHOD_ADMIN_DEL`. -/
  | adminDel (login : String)
  /-- `METHOD_ADMIN_CHG`. -/
  | adminChg (login : String) (info : Value)

/-- What a method leaves behind. -/
structure Reply where
  /-- `*retvalPtr`. -/
  value : Bool
  /-- What the operations of the registries and of the users have reported, one after another; `true` is
  success. -/
  results : List Bool := []
  /-- The server afterwards. -/
  server : RpcServer

/-- What the operations find outside of them: the tariffs are those of the registry. -/
def Surroundings.envOf (w : Surroundings) (r : TariffsImpl) : Env :=
  { w.env with tariffs := fun name => r.deref (r.findByName name) }

namespace RpcServer

/-- The beginning that all methods share: who calls is found out by the cookie, and has to be one of the
administrators. -/
def withAdmin (w : Surroundings) (cookie : String) (s : RpcServer)
    (method : Admin → RpcServer → Option Reply) : Option Reply :=
  match s.config.getAdminInfo w.env.time cookie with
  | (config, none) => some { value := false, server := { s with config := config } }
  | (config, some adminInfo) =>
    match s.admins.find adminInfo.admin with
    | none => some { value := false, server := { s with config := config } }
    | some admin => method admin { s with config := config }

/-- `METHOD_USER_ADD::execute`. -/
def userAdd (w : Surroundings) (cookie login : String) (s : RpcServer) : Option Reply :=
  s.withAdmin w cookie fun admin s =>
    match s.users.findByName login with
    | none =>
      match s.users.add admin.priv w.addUser login w.newUser with
      | (false, users) => some ⟨false, [false], { s with users := users }⟩
      | (true, users) => some ⟨true, [true], { s with users := users }⟩
    | some _ => some { value := false, server := s }

/-- `METHOD_USER_DEL::execute`. -/
def userDel (w : Surroundings) (cookie login : String) (s : RpcServer) : Option Reply :=
  s.withAdmin w cookie fun admin s =>
    match s.users.findByName login with
    | none => some { value := false, server := s }
    | some _ =>
      let r := s.users.delete (w.envOf s.tariffs) admin.priv login
      some ⟨true, [r.1], { s with users := r.2 }⟩

/-- `METHOD_USER_CHG::execute`.  There is no result where `SetUserInfo` has none. -/
def userChg (w : Surroundings) (cookie login : String) (info : Value) (s : RpcServer) : Option Reply :=
  s.withAdmin w cookie fun admin s =>
    match s.users.findByName login with
    | none => some { value := false, server := s }
    | some i =>
      match UserHelper.setUserStruct (w.envOf s.tariffs) admin.priv w.iconv w.errno login info s.users i with
      | .going (ok, u) =>
        let u := { u with user := u.user.writeStat (w.envOf s.tariffs) }
        some ⟨true, [ok, w.saveUserConf, w.env.saveUserStat], { s with users := s.users.put i u }⟩
      | .stopped => none
      | .failed => none

/-- The end of the two methods that change the balance of a user. -/
def setCash (w : Surroundings) (admin : Admin) (cash : Money) (s : RpcServer)
    (i : Fin s.users.users.length) : Reply :=
  if (Change.cash false cash).maySet admin.priv then
    let u := (Change.cash false cash).set (w.envOf s.tariffs) (s.users.users.get i)
    let u := { u with user := u.user.writeStat (w.envOf s.tariffs) }
    ⟨true, [true, w.env.saveUserStat], { s with users := s.users.put i u }⟩
  else ⟨false, [false], s⟩

/-- `METHOD_USER_CASH_ADD::execute`. -/
def userCashAdd (w : Surroundings) (cookie login : String) (amount : Money) (s : RpcServer) :
    Option Reply :=
  s.withAdmin w cookie fun admin s =>
    match s.users.findByName login with
    | none => some { value := false, server := s }
    | some i => some (s.setCash w admin ((s.users.users.get i).user.cash + amount) i)

/-- `METHOD_USER_CASH_SET::execute`. -/
def userCashSet (w : Surroundings) (cookie login : String) (cash : Money) (s : RpcServer) : Option Reply :=
  s.withAdmin w cookie fun admin s =>
    match s.users.findByName login with
    | none => some { value := false, server := s }
    | some i => some (s.setCash w admin cash i)

/-- A property of a user is set, and the user is saved. -/
def setAndWriteConf (w : Surroundings) (admin : Admin) (c : Change) (s : RpcServer)
    (i : Fin s.users.users.length) : Reply :=
  if c.maySet admin.priv then
    ⟨true, [true, w.saveUserConf],
      { s with users := s.users.put i (c.set (w.envOf s.tariffs) (s.users.users.get i)) }⟩
  else ⟨false, [false], s⟩

/-- `METHOD_USER_TARIFF_CHANGE::execute`.  There is no result where the null pointer of a user without a
tariff is followed.  `Change.set` forgets the tariff that was to follow, as `ResetNextTariff` does. -/
def userTariffChange (w : Surroundings) (cookie login tariff : String) (delayed : Bool) (s : RpcServer) :
    Option Reply :=
  s.withAdmin w cookie fun admin s =>
    match s.users.findByName login with
    | none => some { value := false, server := s }
    | some i =>
      match (w.envOf s.tariffs).tariffs tariff with
      | none => some { value := false, server := s }
      | some newTariff =>
        if delayed then some (s.setAndWriteConf w admin (.nextTariff tariff) i)
        else
          match (s.users.users.get i).user.tariff with
          | none => none
          | some currentTariff =>
            if currentTariff.tariffChangeIsAllowed newTariff w.env.time = "" then
              some (s.setAndWriteConf w admin (.tariffName tariff) i)
            else some { value := false, server := s }

/-- `METHOD_TARIFF_CHG::execute`.  There is no result where `SetTariffInfo` has none, or makes a tariff
without a type of traffic. -/
def tariffChg (w : Surroundings) (cookie name : String) (info : Value) (s : RpcServer) : Option Reply :=
  s.withAdmin w cookie fun admin s =>
    match s.tariffs.deref (s.tariffs.findByName name) with
    | none => some { value := false, server := s }
    | some tariff =>
      match TariffHelper.setTariffInfo w.timeText info (.ofTariff tariff) with
      | .stopped => none
      | .failed => none
      | .going data =>
        data.toTariff?.map fun td =>
          match s.tariffs.chg admin.priv w.storeError td with
          | (false, tariffs) => ⟨false, [true, false], { s with tariffs := tariffs }⟩
          | (true, tariffs) => ⟨true, [true, true], { s with tariffs := tariffs }⟩

/-- `METHOD_TARIFF_ADD::execute`. -/
def tariffAdd (w : Surroundings) (cookie tariff : String) (s : RpcServer) : Option Reply :=
  s.withAdmin w cookie fun admin s =>
    match s.tariffs.add admin.priv w.storeError tariff with
    | (false, tariffs) => some ⟨false, [false], { s with tariffs := tariffs }⟩
    | (true, tariffs) => some ⟨true, [true], { s with tariffs := tariffs }⟩

/-- `METHOD_TARIFF_DEL::execute`. -/
def tariffDel (w : Surroundings) (cookie tariff : String) (s : RpcServer) : Option Reply :=
  s.withAdmin w cookie fun admin s =>
    if s.users.tariffInUse tariff then some { value := false, server := s }
    else
      match s.tariffs.del admin.priv w.storeError tariff with
      | (false, tariffs) => some ⟨false, [false], { s with tariffs := tariffs }⟩
      | (true, tariffs) => some ⟨true, [true], { s with tariffs := tariffs }⟩

/-- `METHOD_ADMIN_ADD::execute`. -/
def adminAdd (w : Surroundings) (cookie login : String) (s : RpcServer) : Option Reply :=
  s.withAdmin w cookie fun admin s =>
    let r := s.admins.add admin.priv w.storeError login
    if r.ok then some ⟨true, [r.ok], { s with admins := r.admins }⟩
    else some ⟨false, [r.ok], { s with admins := r.admins }⟩

/-- `METHOD_ADMIN_DEL::execute`. -/
def adminDel (w : Surroundings) (cookie login : String) (s : RpcServer) : Option Reply :=
  s.withAdmin w cookie fun admin s =>
    let r := s.admins.del admin.priv w.storeError login
    if r.ok then some ⟨true, [r.ok], { s with admins := r.admins }⟩
    else some ⟨false, [r.ok], { s with admins := r.admins }⟩

/-- `METHOD_ADMIN_CHG::execute`.  There is no result where a member of the structure has another type. -/
def adminChg (w : Surroundings) (cookie login : String) (info : Value) (s : RpcServer) : Option Reply :=
  s.withAdmin w cookie fun loggedAdmin s =>
    match s.admins.find login with
    | none => some { value := false, server := s }
    | some admin =>
      (AdminsImpl.readConf login admin info).map fun conf =>
        let r := s.admins.change loggedAdmin.priv w.storeError conf
        -- the answer of a failure is overwritten
        ⟨true, [r.ok], { s with admins := r.admins }⟩

/-- The answer to a call. -/
def reply (w : Surroundings) (cookie : String) (s : RpcServer) : Method → Option Reply
  | .userAdd login => s.userAdd w cookie login
  | .userDel login => s.userDel w cookie login
  | .userChg login info => s.userChg w cookie login info
  | .userCashAdd login amount => s.userCashAdd w cookie login amount
  | .userCashSet login cash => s.userCashSet w cookie login cash
  | .userTariffChange login tariff delayed => s.userTariffChange w cookie login tariff delayed
  | .tariffChg name info => s.tariffChg w cookie name info
  | .tariffAdd tariff => s.tariffAdd w cookie tariff
  | .tariffDel tariff => s.tariffDel w cookie tariff
  | .adminAdd login => s.adminAdd w cookie login
  | .adminDel login => s.adminDel w cookie login
  | .adminChg login info => s.adminChg w cookie login info

/-! ## What is to hold -/

/-- Every field that was asked for has been applied.  The methods that add and delete something have no
fields. -/
def Applied (w : Surroundings) (s s' : RpcServer) : Method → Prop
  | .userChg login info => ∀ m u, info.struct? = some m → s.users.find login = some u →
      ∃ u', s'.users.find login = some u' ∧ UserHelper.Applied w.env.shifted w.iconv w.errno m u u'
  | .userCashAdd login amount => ∀ u, s.users.find login = some u →
      ∃ u', s'.users.find login = some u' ∧ u'.user.cash = u.user.cash + amount
  | .userCashSet login cash => ∃ u', s'.users.find login = some u' ∧ u'.user.cash = cash
  | .userTariffChange login tariff delayed => ∃ u', s'.users.find login = some u' ∧
      (if delayed then u'.user.nextTariff else u'.user.tariffName) = tariff
  | .tariffChg name info => ∃ m td, info.struct? = some m ∧ td ∈ s'.tariffs.tariffs ∧
      td.getName = name ∧ TariffHelper.Applied w.timeText m td
  | .adminChg login info => ∃ m admin, info.struct? = some m ∧
      s'.admins.findLogin login = some admin ∧ AdminsImpl.Applied m admin
  | _ => True

/-- Operations were performed and have all reported success, and every field has been applied. -/
structure Done (w : Surroundings) (s : RpcServer) (method : Method) (r : Reply) : Prop where
  performed : r.results ≠ []
  reported : ∀ ok ∈ r.results, ok = true
  applied : Applied w s r.server method

/-- **The answer tells the truth**: if there is one, it is `true` exactly if everything was done. -/
def Truthful (w : Surroundings) (cookie : String) (s : RpcServer) (method : Method) : Prop :=
  ∀ r, s.reply w cookie method = some r → (r.value = true ↔ Done w s method r)

/-- The administrator that a call is made by. -/
def caller (w : Surroundings) (cookie : String) (s : RpcServer) : Option Admin :=
  (s.config.getAdminInfo w.env.time cookie).2.bind fun adminInfo => s.admins.find adminInfo.admin

/-- **The calls that are answered truthfully**: who deletes a user may do so; a structure fits the user it
is for; a user whose balance or tariff is changed is saved; and who changes an administrator may do so, of
a registry that is not empty, and the store saves him. -/
def Sincere (w : Surroundings) (cookie : String) (s : RpcServer) : Method → Prop
  | .userDel login => ∀ admin, s.caller w cookie = some admin →
      (s.users.findByName login).isSome = true → admin.priv.userAddDel ≠ 0
  | .userChg login info => ∀ admin i, s.caller w cookie = some admin →
      s.users.findByName login = some i → ∀ m aonline text first ips, info.struct? = some m →
        member m "aonline" (fun v => v.boolean?.map some) none = some aonline →
        member m "ips" (fun v => v.string?.map some) none = some text →
        text.mapM (UserHelper.firstIPs w.env.shifted w.errno) = some first →
        text.mapM (UserHelper.secondIPs w.env.shifted w.errno) = some ips →
          UserHelper.Fits (w.envOf s.tariffs) admin.priv w.iconv w.errno login
            (w.saveUserConf = true ∧ w.env.saveUserStat = true) m aonline first ips s.users i
  | .userCashAdd login _ => ∀ admin, s.caller w cookie = some admin →
      (s.users.findByName login).isSome = true → (Change.cash false 0).maySet admin.priv = true →
        w.env.saveUserStat = true
  | .userCashSet login _ => ∀ admin, s.caller w cookie = some admin →
      (s.users.findByName login).isSome = true → (Change.cash false 0).maySet admin.priv = true →
        w.env.saveUserStat = true
  | .userTariffChange login tariff delayed => ∀ admin i newTariff, s.caller w cookie = some admin →
      s.users.findByName login = some i → (w.envOf s.tariffs).tariffs tariff = some newTariff →
      (delayed = false → ∃ currentTariff, (s.users.users.get i).user.tariff = some currentTariff ∧
        currentTariff.tariffChangeIsAllowed newTariff w.env.time = "") →
      (Change.nextTariff tariff).maySet admin.priv = true → w.saveUserConf = true
  | .adminChg login info => ∀ admin other m, s.caller w cookie = some admin →
      s.admins.find login = some other → info.struct? = some m → AdminsImpl.ConfTyped m →
        admin.priv.adminChg ≠ 0 ∧ s.admins.data ≠ [] ∧ w.storeError = none
  | _ => True

/-! ## The answers -/

section Answers

variable {w : Surroundings} {cookie : String} {s : RpcServer} {method : Method}

/-- A call that is refused before anything is done is answered truthfully. -/
theorem truthful_refused (server : RpcServer) :
    ((⟨false, [], server⟩ : Reply).value = true ↔ Done w s method ⟨false, [], server⟩) :=
  iff_of_false Bool.false_ne_true fun h => h.performed rfl

/-- So is one that is answered by what the only operation has reported. -/
theorem truthful_single {ok : Bool} {server : RpcServer} (h : ok = true → Applied w s server method) :
    ((⟨ok, [ok], server⟩ : Reply).value = true ↔ Done w s method ⟨ok, [ok], server⟩) :=
  ⟨fun hok => ⟨by simp, by simpa using hok, h hok⟩, fun hdone => hdone.reported ok (by simp)⟩

/-- A call that is answered by `true` whatever its operations have reported. -/
theorem truthful_always_iff {results : List Bool} {server : RpcServer} (h : results ≠ []) :
    ((⟨true, results, server⟩ : Reply).value = true ↔ Done w s method ⟨true, results, server⟩) ↔
      (∀ ok ∈ results, ok = true) ∧ Applied w s server method :=
  ⟨fun hiff => ⟨(hiff.mp rfl).reported, (hiff.mp rfl).applied⟩,
    fun hdone => ⟨fun _ => ⟨h, hdone.1, hdone.2⟩, fun _ => rfl⟩⟩

/-- **The beginning**: what is to be shown of a call is to be shown of the calls of administrators. -/
theorem forall_withAdmin (run : Admin → RpcServer → Option Reply) :
    (∀ r, s.withAdmin w cookie run = some r → (r.value = true ↔ Done w s method r)) ↔
      ∀ admin, s.caller w cookie = some admin →
        ∀ r, run admin { s with config := (s.config.getAdminInfo w.env.time cookie).1 } = some r →
          (r.value = true ↔ Done w s method r) := by
  have hrefused (server : RpcServer) (r : Reply) (h : some (⟨false, [], server⟩ : Reply) = some r) :
      r.value = true ↔ Done w s method r := by
    obtain rfl := Option.some.inj h
    exact truthful_refused server
  unfold withAdmin caller
  cases s.config.getAdminInfo w.env.time cookie with
  | mk config adminInfo =>
    cases adminInfo with
    | none => exact iff_of_true (hrefused _) fun admin h => by cases h
    | some adminInfo =>
      show (∀ r, (match s.admins.find adminInfo.admin with
        | none => some { value := false, server := { s with config := config } }
        | some admin => run admin { s with config := config }) = some r → _) ↔
          ∀ admin, s.admins.find adminInfo.admin = some admin → _
      cases s.admins.find adminInfo.admin with
      | none => exact iff_of_true (hrefused _) fun admin h => by cases h
      | some admin => exact ⟨fun h _ ha => Option.some.inj ha ▸ h, fun h => h admin rfl⟩

/-- One answer. -/
theorem forall_some_iff {P : Reply → Prop} (r : Reply) : (∀ r', some r = some r' → P r') ↔ P r :=
  ⟨fun h => h r rfl, fun h _ hr => Option.some.inj hr ▸ h⟩

/-! ### Users -/

theorem truthful_userAdd (login : String) : Truthful w cookie s (.userAdd login) := by
  show (∀ r, s.userAdd w cookie login = some r → _)
  unfold userAdd
  refine (forall_withAdmin _).mpr fun admin _ => ?_
  dsimp only
  cases s.users.findByName login with
  | some i => exact (forall_some_iff _).mpr (truthful_refused _)
  | none =>
    dsimp only
    cases s.users.add admin.priv w.addUser login w.newUser with
    | mk ok users =>
      cases ok with
      | false => exact (forall_some_iff _).mpr (truthful_single fun _ => trivial)
      | true => exact (forall_some_iff _).mpr (truthful_single fun _ => trivial)

/-- **Deleting a user**: `Del` does nothing for an administrator who may not delete users. -/
theorem truthful_userDel_iff (login : String) :
    Truthful w cookie s (.userDel login) ↔ Sincere w cookie s (.userDel login) := by
  show (∀ r, s.userDel w cookie login = some r → _) ↔ _
  unfold userDel
  refine (forall_withAdmin _).trans (forall₂_congr fun admin _ => ?_)
  dsimp only
  cases hi : s.users.findByName login with
  | none =>
    exact iff_of_true ((forall_some_iff _).mpr (truthful_refused _)) fun h => by cases h
  | some i =>
    refine (forall_some_iff _).trans ((truthful_always_iff (by simp)).trans ?_)
    have hdel : (s.users.delete (w.envOf s.tariffs) admin.priv login).1 = true ↔
        admin.priv.userAddDel ≠ 0 := by
      unfold UserList.delete
      by_cases hpriv : admin.priv.userAddDel = 0
      · rw [if_pos hpriv]
        exact iff_of_false Bool.false_ne_true (not_not.mpr hpriv)
      · rw [if_neg hpriv, hi]
        exact iff_of_true rfl hpriv
    constructor
    · intro h _
      exact hdel.mp (h.1 _ (by simp))
    · intro h
      refine ⟨?_, trivial⟩
      intro ok hok
      rw [List.mem_singleton.mp hok]
      exact hdel.mpr (h rfl)

/-- Saving the counters of a user changes nothing that was asked for. -/
theorem applied_writeStat_iff {shifted : BitVec 32} {iconv : String → String}
    {errno : UserHelper.InfoErrno} {m : List (String × Value)} {env : Env} {u u' : UserRecord} :
    UserHelper.Applied shifted iconv errno m u { u' with user := u'.user.writeStat env } ↔
      UserHelper.Applied shifted iconv errno m u u' := by
  have hproperties := properties_writeStat env u'
  have hheld (text : String) : UserHelper.TariffHeld text { u' with user := u'.user.writeStat env } ↔
      UserHelper.TariffHeld text u' := by
    unfold UserHelper.TariffHeld UserImpl.writeStat
    split <;> exact Iff.rfl
  constructor
  · rintro ⟨hips, hchanges, hcounters, htariff⟩
    rw [hproperties] at hips hchanges
    exact ⟨hips, hchanges, hcounters, fun text h => (hheld text).mp (htariff text h)⟩
  · rintro ⟨hips, hchanges, hcounters, htariff⟩
    rw [← hproperties] at hips hchanges
    exact ⟨hips, hchanges, hcounters, fun text h => (hheld text).mpr (htariff text h)⟩

theorem login_writeStat (env : Env) (u : UserImpl) : (u.writeStat env).login = u.login := by
  unfold UserImpl.writeStat
  split <;> rfl

/-- **Changing a user.** -/
theorem truthful_userChg_iff (login : String) (info : Value) :
    Truthful w cookie s (.userChg login info) ↔ Sincere w cookie s (.userChg login info) := by
  show (∀ r, s.userChg w cookie login info = some r → _) ↔ _
  unfold userChg
  refine (forall_withAdmin _).trans ?_
  have hswap : Sincere w cookie s (.userChg login info) ↔
      ∀ admin, s.caller w cookie = some admin → ∀ i, s.users.findByName login = some i →
        ∀ m aonline text first ips, info.struct? = some m →
          member m "aonline" (fun v => v.boolean?.map some) none = some aonline →
          member m "ips" (fun v => v.string?.map some) none = some text →
          text.mapM (UserHelper.firstIPs (w.envOf s.tariffs).shifted w.errno) = some first →
          text.mapM (UserHelper.secondIPs (w.envOf s.tariffs).shifted w.errno) = some ips →
            UserHelper.Fits (w.envOf s.tariffs) admin.priv w.iconv w.errno login
              (w.saveUserConf = true ∧ w.env.saveUserStat = true) m aonline first ips s.users i :=
    ⟨fun h admin ha i => h admin i ha, fun h admin i ha => h admin ha i⟩
  rw [hswap]
  refine forall₂_congr fun admin _ => ?_
  dsimp only
  cases hi : s.users.findByName login with
  | none =>
    exact iff_of_true ((forall_some_iff _).mpr (truthful_refused _)) fun i h => by cases h
  | some i =>
    obtain ⟨hfind, hindexed, -⟩ := UserList.find_of_findByName hi
    have hone {P : Fin s.users.users.length → Prop} : (∀ i', some i = some i' → P i') ↔ P i :=
      ⟨fun h => h i rfl, fun h _ hr => Option.some.inj hr ▸ h⟩
    rw [hone, ← UserHelper.setUserStruct_applied_iff]
    dsimp only
    cases hset : UserHelper.setUserStruct (w.envOf s.tariffs) admin.priv w.iconv w.errno login info s.users i with
    | stopped => exact iff_of_true (fun r h => by cases h) fun r h => by cases h
    | failed => exact iff_of_true (fun r h => by cases h) fun r h => by cases h
    | going r =>
      obtain ⟨ok, u⟩ := r
      obtain ⟨hlogin, hindexed'⟩ := UserHelper.setUserStruct_identity hset
      have hput : (s.users.put i { u with user := u.user.writeStat (w.envOf s.tariffs) }).find login = some _ :=
        UserList.find_put hi (hindexed'.trans hindexed) ((login_writeStat _ _).trans hlogin)
      refine (forall_some_iff _).trans ((truthful_always_iff (by simp)).trans ?_)
      simp only [List.forall_mem_cons]
      constructor
      · rintro ⟨⟨hok, hconf, hstat, -⟩, happlied⟩ r hr
        obtain rfl := Halting.going.inj hr
        refine ⟨hok, ⟨hconf, hstat⟩, fun m hm => ?_⟩
        obtain ⟨u', hu', hm'⟩ := happlied m _ hm hfind
        obtain rfl := Option.some.inj (hput.symm.trans hu')
        exact applied_writeStat_iff.mp hm'
      · intro h
        obtain ⟨hok, ⟨hconf, hstat⟩, hall⟩ := h (ok, u) rfl
        refine ⟨⟨hok, hconf, hstat, fun _ h => by cases h⟩, fun m u₀ hm hu₀ => ⟨_, hput, ?_⟩⟩
        obtain rfl := Option.some.inj (hfind.symm.trans hu₀)
        exact applied_writeStat_iff.mpr (hall m hm)

/-- A change of a user by one property leaves him in his place. -/
theorem find_put_set {login : String} {i : Fin s.users.users.length} (hi : s.users.findByName login = some i)
    (env : Env) (c : Change) :
    (s.users.put i (c.set env (s.users.users.get i))).find login =
      some (c.set env (s.users.users.get i)) := by
  obtain ⟨-, hindexed, -⟩ := UserList.find_of_findByName hi
  refine UserList.find_put hi ?_ (Change.login_set env _ c)
  rw [← hindexed]
  cases c <;> rfl

/-- **Setting the balance.** -/
theorem truthful_setCash_iff {admin : Admin} {cash : Money} {login : String}
    {i : Fin s.users.users.length} (hi : s.users.findByName login = some i) {config : RpcConfig}
    (happlied : ∀ server : RpcServer,
      (∃ u', server.users.find login = some u' ∧ u'.user.cash = cash) → Applied w s server method) :
    ((setCash w admin cash { s with config := config } i).value = true ↔
        Done w s method (setCash w admin cash { s with config := config } i)) ↔
      ((Change.cash false 0).maySet admin.priv = true → w.env.saveUserStat = true) := by
  have hmay : (Change.cash false cash).maySet admin.priv = (Change.cash false 0).maySet admin.priv := rfl
  unfold setCash
  rw [hmay]
  by_cases hpriv : (Change.cash false 0).maySet admin.priv = true
  · rw [if_pos hpriv]
    refine (truthful_always_iff (by simp)).trans ?_
    obtain ⟨-, hindexed, -⟩ := UserList.find_of_findByName hi
    obtain ⟨u, hu⟩ : ∃ u, (Change.cash false cash).set (w.envOf s.tariffs) (s.users.users.get i) = u :=
      ⟨_, rfl⟩
    rw [hu]
    have hput : (s.users.put i { u with user := u.user.writeStat (w.envOf s.tariffs) }).find login = some _ :=
      UserList.find_put hi (hu ▸ hindexed) ((login_writeStat _ _).trans (hu ▸ rfl))
    simp only [List.forall_mem_cons]
    constructor
    · rintro ⟨⟨-, hstat, -⟩, -⟩ _
      exact hstat
    · intro h
      refine ⟨⟨trivial, h hpriv, fun _ h => by cases h⟩, happlied _ ⟨_, hput, ?_⟩⟩
      have hcash : u.user.cash = cash := hu ▸ rfl
      refine Eq.trans ?_ hcash
      unfold UserImpl.writeStat
      split <;> rfl
  · rw [if_neg hpriv]
    exact iff_of_true (truthful_single fun h => by cases h) fun h => absurd h hpriv

theorem truthful_userCashAdd_iff (login : String) (amount : Money) :
    Truthful w cookie s (.userCashAdd login amount) ↔ Sincere w cookie s (.userCashAdd login amount) := by
  show (∀ r, s.userCashAdd w cookie login amount = some r → _) ↔ _
  unfold userCashAdd
  refine (forall_withAdmin _).trans (forall₂_congr fun admin _ => ?_)
  dsimp only
  cases hi : s.users.findByName login with
  | none =>
    exact iff_of_true ((forall_some_iff _).mpr (truthful_refused _)) fun h => by cases h
  | some i =>
    obtain ⟨hfind, -, -⟩ := UserList.find_of_findByName hi
    refine (forall_some_iff _).trans ((truthful_setCash_iff hi ?_).trans ?_)
    · rintro server ⟨u', hu', hcash⟩ u hu
      obtain rfl := Option.some.inj (hfind.symm.trans hu)
      exact ⟨u', hu', hcash⟩
    · exact ⟨fun h _ => h, fun h => h rfl⟩

theorem truthful_userCashSet_iff (login : String) (cash : Money) :
    Truthful w cookie s (.userCashSet login cash) ↔ Sincere w cookie s (.userCashSet login cash) := by
  show (∀ r, s.userCashSet w cookie login cash = some r → _) ↔ _
  unfold userCashSet
  refine (forall_withAdmin _).trans (forall₂_congr fun admin _ => ?_)
  dsimp only
  cases hi : s.users.findByName login with
  | none =>
    exact iff_of_true ((forall_some_iff _).mpr (truthful_refused _)) fun h => by cases h
  | some i =>
    refine (forall_some_iff _).trans ((truthful_setCash_iff hi ?_).trans ?_)
    · exact fun server h => h
    · exact ⟨fun h _ => h, fun h => h rfl⟩

/-- **Setting a tariff**, or the one that is to follow. -/
theorem truthful_setAndWriteConf_iff {admin : Admin} {c : Change} {login : String}
    {i : Fin s.users.users.length} (hi : s.users.findByName login = some i) {config : RpcConfig}
    (happlied : ∀ server : RpcServer,
      server.users.find login = some (c.set (w.envOf s.tariffs) (s.users.users.get i)) →
        Applied w s server method) :
    ((setAndWriteConf w admin c { s with config := config } i).value = true ↔
        Done w s method (setAndWriteConf w admin c { s with config := config } i)) ↔
      (c.maySet admin.priv = true → w.saveUserConf = true) := by
  unfold setAndWriteConf
  by_cases hpriv : c.maySet admin.priv = true
  · rw [if_pos hpriv]
    refine (truthful_always_iff (by simp)).trans ?_
    simp only [List.forall_mem_cons]
    constructor
    · rintro ⟨⟨-, hconf, -⟩, -⟩ _
      exact hconf
    · intro h
      refine ⟨⟨trivial, h hpriv, fun _ h => by cases h⟩, happlied _ ?_⟩
      exact find_put_set hi (w.envOf s.tariffs) c
  · rw [if_neg hpriv]
    exact iff_of_true (truthful_single fun h => by cases h) fun h => absurd h hpriv

/-- Who may set the tariff that is to follow may set the tariff. -/
theorem maySet_tariffName (priv : Priv) (tariff : String) :
    (Change.tariffName tariff).maySet priv = (Change.nextTariff tariff).maySet priv := by
  have h : ("tariffName" == "cash") = ("nextTariff" == "cash") := by decide
  unfold Change.maySet Priv.maySet
  simp only [Change.flags]
  rw [h]

/-- **Changing the tariff of a user.** -/
theorem truthful_userTariffChange_iff (login tariff : String) (delayed : Bool) :
    Truthful w cookie s (.userTariffChange login tariff delayed) ↔
      Sincere w cookie s (.userTariffChange login tariff delayed) := by
  show (∀ r, s.userTariffChange w cookie login tariff delayed = some r → _) ↔ _
  unfold userTariffChange
  refine (forall_withAdmin _).trans ?_
  have hswap : Sincere w cookie s (.userTariffChange login tariff delayed) ↔
      ∀ admin, s.caller w cookie = some admin → ∀ i newTariff, s.users.findByName login = some i →
        (w.envOf s.tariffs).tariffs tariff = some newTariff →
        (delayed = false → ∃ currentTariff, (s.users.users.get i).user.tariff = some currentTariff ∧
          currentTariff.tariffChangeIsAllowed newTariff w.env.time = "") →
        (Change.nextTariff tariff).maySet admin.priv = true → w.saveUserConf = true :=
    ⟨fun h admin ha i newTariff => h admin i newTariff ha,
      fun h admin i newTariff ha => h admin ha i newTariff⟩
  rw [hswap]
  refine forall₂_congr fun admin _ => ?_
  dsimp only
  cases hi : s.users.findByName login with
  | none =>
    exact iff_of_true ((forall_some_iff _).mpr (truthful_refused _)) fun i newTariff h => by cases h
  | some i =>
    dsimp only
    cases hnew : (w.envOf s.tariffs).tariffs tariff with
    | none =>
      exact iff_of_true ((forall_some_iff _).mpr (truthful_refused _)) fun i newTariff _ h => by cases h
    | some newTariff =>
      have hone : (∀ i' newTariff', some i = some i' → some newTariff = some newTariff' →
          (delayed = false → ∃ currentTariff, (s.users.users.get i').user.tariff = some currentTariff ∧
            currentTariff.tariffChangeIsAllowed newTariff' w.env.time = "") →
          (Change.nextTariff tariff).maySet admin.priv = true → w.saveUserConf = true) ↔
        ((delayed = false → ∃ currentTariff, (s.users.users.get i).user.tariff = some currentTariff ∧
            currentTariff.tariffChangeIsAllowed newTariff w.env.time = "") →
          (Change.nextTariff tariff).maySet admin.priv = true → w.saveUserConf = true) := by
        refine ⟨fun h => h i newTariff rfl rfl, fun h i' newTariff' hi' hn' => ?_⟩
        obtain rfl := Option.some.inj hi'
        obtain rfl := Option.some.inj hn'
        exact h
      rw [hone]
      cases delayed with
      | true =>
        dsimp only
        rw [if_pos rfl]
        refine (forall_some_iff _).trans ((truthful_setAndWriteConf_iff hi ?_).trans ?_)
        · intro server hu
          exact ⟨_, hu, rfl⟩
        · exact ⟨fun h _ => h, fun h => h fun hd => by cases hd⟩
      | false =>
        dsimp only
        rw [if_neg Bool.false_ne_true]
        cases hcurrent : (s.users.users.get i).user.tariff with
        | none =>
          refine iff_of_true (fun r h => by cases h) fun h => ?_
          obtain ⟨currentTariff, h, -⟩ := h rfl
          cases h
        | some currentTariff =>
          dsimp only
          by_cases hallowed : currentTariff.tariffChangeIsAllowed newTariff w.env.time = ""
          · rw [if_pos hallowed]
            refine (forall_some_iff _).trans ((truthful_setAndWriteConf_iff hi ?_).trans ?_)
            · intro server hu
              exact ⟨_, hu, rfl⟩
            · rw [maySet_tariffName]
              exact ⟨fun h _ => h, fun h => h fun _ => ⟨currentTariff, rfl, hallowed⟩⟩
          · rw [if_neg hallowed]
            refine iff_of_true ((forall_some_iff _).mpr (truthful_refused _)) fun h => ?_
            obtain ⟨currentTariff', h, hallowed'⟩ := h rfl
            obtain rfl := Option.some.inj h
            exact absurd hallowed' hallowed

/-! ### Tariffs -/

/-- **Changing a tariff.** -/
theorem truthful_tariffChg (name : String) (info : Value) :
    Truthful w cookie s (.tariffChg name info) := by
  show ∀ r, s.tariffChg w cookie name info = some r → _
  unfold tariffChg
  refine (forall_withAdmin _).mpr fun admin _ => ?_
  dsimp only
  cases hderef : s.tariffs.deref (s.tariffs.findByName name) with
  | none => exact (forall_some_iff _).mpr (truthful_refused _)
  | some tariff =>
    dsimp only
    cases hset : TariffHelper.setTariffInfo w.timeText info (.ofTariff tariff) with
    | stopped => exact fun r h => by cases h
    | failed => exact fun r h => by cases h
    | going data =>
      dsimp only
      intro r hr
      obtain ⟨td, htd, rfl⟩ := Option.map_eq_some_iff.mp hr
      obtain ⟨hname, m, hm, happlied⟩ := TariffHelper.applied_of_setTariffInfo hset htd
      have hchg : (s.tariffs.chg admin.priv w.storeError td).1 = true →
          td ∈ (s.tariffs.chg admin.priv w.storeError td).2.tariffs := by
        unfold TariffsImpl.chg
        by_cases hpriv : admin.priv.tariffChg = 0
        · rw [if_pos hpriv]
          exact fun h => by cases h
        · rw [if_neg hpriv]
          cases hi : s.tariffs.findIdx td.tariffConf.name with
          | none => exact fun h => by cases h
          | some i =>
            obtain ⟨t, ht, -⟩ := TariffsImpl.getName_of_findIdx hi
            exact fun _ => List.mem_set (List.getElem?_eq_some_iff.mp ht).1 td
      generalize s.tariffs.chg admin.priv w.storeError td = r at hchg
      obtain ⟨ok, tariffs⟩ := r
      cases ok with
      | false =>
        exact iff_of_false Bool.false_ne_true fun h => Bool.false_ne_true (h.reported false (by simp))
      | true =>
        refine iff_of_true rfl ⟨by simp, by simp, m, td, hm, hchg rfl, ?_, happlied⟩
        exact hname.trans (TariffsImpl.name_of_deref_findByName hderef)

theorem truthful_tariffAdd (tariff : String) : Truthful w cookie s (.tariffAdd tariff) := by
  show ∀ r, s.tariffAdd w cookie tariff = some r → _
  unfold tariffAdd
  refine (forall_withAdmin _).mpr fun admin _ => ?_
  dsimp only
  cases s.tariffs.add admin.priv w.storeError tariff with
  | mk ok tariffs =>
    cases ok with
    | false => exact (forall_some_iff _).mpr (truthful_single fun _ => trivial)
    | true => exact (forall_some_iff _).mpr (truthful_single fun _ => trivial)

theorem truthful_tariffDel (tariff : String) : Truthful w cookie s (.tariffDel tariff) := by
  show ∀ r, s.tariffDel w cookie tariff = some r → _
  unfold tariffDel
  refine (forall_withAdmin _).mpr fun admin _ => ?_
  dsimp only
  split_ifs
  · exact (forall_some_iff _).mpr (truthful_refused _)
  · cases s.tariffs.del admin.priv w.storeError tariff with
    | mk ok tariffs =>
      cases ok with
      | false => exact (forall_some_iff _).mpr (truthful_single fun _ => trivial)
      | true => exact (forall_some_iff _).mpr (truthful_single fun _ => trivial)

/-! ### Administrators -/

theorem truthful_adminAdd (login : String) : Truthful w cookie s (.adminAdd login) := by
  show ∀ r, s.adminAdd w cookie login = some r → _
  unfold adminAdd
  refine (forall_withAdmin _).mpr fun admin _ => ?_
  dsimp only
  cases hok : (s.admins.add admin.priv w.storeError login).ok with
  | false => exact (forall_some_iff _).mpr (truthful_single fun _ => trivial)
  | true => exact (forall_some_iff _).mpr (truthful_single fun _ => trivial)

theorem truthful_adminDel (login : String) : Truthful w cookie s (.adminDel login) := by
  show ∀ r, s.adminDel w cookie login = some r → _
  unfold adminDel
  refine (forall_withAdmin _).mpr fun admin _ => ?_
  dsimp only
  cases hok : (s.admins.del admin.priv w.storeError login).ok with
  | false => exact (forall_some_iff _).mpr (truthful_single fun _ => trivial)
  | true => exact (forall_some_iff _).mpr (truthful_single fun _ => trivial)

/-- **Changing an administrator**: the answer does not depend on what `change` reports. -/
theorem truthful_adminChg_iff (login : String) (info : Value) :
    Truthful w cookie s (.adminChg login info) ↔ Sincere w cookie s (.adminChg login info) := by
  show (∀ r, s.adminChg w cookie login info = some r → _) ↔ _
  unfold adminChg
  refine (forall_withAdmin _).trans ?_
  have hswap : Sincere w cookie s (.adminChg login info) ↔
      ∀ admin, s.caller w cookie = some admin → ∀ other m, s.admins.find login = some other →
        info.struct? = some m → AdminsImpl.ConfTyped m →
          admin.priv.adminChg ≠ 0 ∧ s.admins.data ≠ [] ∧ w.storeError = none :=
    ⟨fun h admin ha other m => h admin other m ha, fun h admin other m ha => h admin ha other m⟩
  rw [hswap]
  refine forall₂_congr fun admin _ => ?_
  dsimp only
  cases hfind : s.admins.find login with
  | none =>
    exact iff_of_true ((forall_some_iff _).mpr (truthful_refused _)) fun other m h => by cases h
  | some other =>
    dsimp only
    have hdata : (s.admins.findIdx login).isSome = true ↔ s.admins.data ≠ [] :=
      AdminsImpl.isSome_findIdx_iff (by rw [hfind]; rfl)
    cases hconf : AdminsImpl.readConf login other info with
    | none =>
      -- there is an exception
      refine iff_of_true (fun r h => by cases h) fun other' m h hm htyped => ?_
      obtain rfl := Option.some.inj h
      obtain ⟨conf, hconf'⟩ := (AdminsImpl.exists_readConf_iff hm).mpr htyped
      cases hconf.symm.trans hconf'
    | some conf =>
      obtain ⟨hlogin, m, hm, happlied⟩ := AdminsImpl.applied_of_readConf hconf
      obtain ⟨hok, hfound⟩ := AdminsImpl.change_ok_iff admin.priv w.storeError conf s.admins
      rw [hlogin, hdata] at hok
      refine (forall_some_iff _).trans ((truthful_always_iff (by simp)).trans ?_)
      rw [List.forall_mem_singleton]
      constructor
      · rintro ⟨h, -⟩ - - - - -
        exact hok.mp h
      · intro h
        have h' := hok.mpr (h other m rfl hm ((AdminsImpl.exists_readConf_iff hm).mp ⟨conf, hconf⟩))
        obtain ⟨ip, hadmin⟩ := hfound h'
        refine ⟨h', m, { conf with ip := ip }, hm, ?_, happlied.password, happlied.privileges⟩
        show AdminsImpl.findLogin _ login = _
        rw [← hlogin]
        exact hadmin

end Answers

/-- **The answers that tell the truth.** -/
theorem answers_truthful_iff (w : Surroundings) (cookie : String) (s : RpcServer) (method : Method) :
    Truthful w cookie s method ↔ Sincere w cookie s method := by
  cases method with
  | userAdd login => exact iff_of_true (truthful_userAdd login) trivial
  | userDel login => exact truthful_userDel_iff login
  | userChg login info => exact truthful_userChg_iff login info
  | userCashAdd login amount => exact truthful_userCashAdd_iff login amount
  | userCashSet login cash => exact truthful_userCashSet_iff login cash
  | userTariffChange login tariff delayed => exact truthful_userTariffChange_iff login tariff delayed
  | tariffChg name info => exact iff_of_true (truthful_tariffChg name info) trivial
  | tariffAdd tariff => exact iff_of_true (truthful_tariffAdd tariff) trivial
  | tariffDel tariff => exact iff_of_true (truthful_tariffDel tariff) trivial
  | adminAdd login => exact iff_of_true (truthful_adminAdd login) trivial
  | adminDel login => exact iff_of_true (truthful_adminDel login) trivial
  | adminChg login info => exact truthful_adminChg_iff login info

end RpcServer

namespace Sample

/-- Nothing is wrong outside of the server. -/
def surroundings : Surroundings where
  env := env 0
  saveUserConf := true
  addUser := true
  newUser := UserHelper.sampleUser
  storeError := none
  iconv := id
  timeText := TimeText.decimal

/-- A server with one administrator, who may do nothing and has logged in. -/
def rpcServer : RpcServer where
  config := { cookieTimeout := 0, cookies := AList.insert "cookie" ⟨"admin", 0, Priv.ofWord 0⟩ ∅ }
  admins := ⟨[⟨Priv.ofWord 0, "admin", "secret", 0⟩]⟩
  tariffs := {}
  users := ⟨[], List.nodup_nil⟩

end Sample

/-- **A change that is refused** is answered by `true`. -/
theorem RpcServer.refused_change_confirmed :
    ¬ RpcServer.Truthful Sample.surroundings "cookie" Sample.rpcServer
      (.adminChg "admin" (.struct [("password", .string "changed")])) := by
  intro h
  have hnone : ∀ p ∈ AdminsImpl.privileges,
      List.lookup p.1 [("password", Value.string "changed")] = none := by
    simp [AdminsImpl.privileges, List.lookup_cons]
  have htyped : AdminsImpl.ConfTyped [("password", Value.string "changed")] := by
    refine ⟨fun v hv => ?_, fun p hp v hv => ?_⟩
    · obtain rfl := Option.some.inj hv
      rfl
    · cases (hnone p hp).symm.trans hv
  exact ((RpcServer.truthful_adminChg_iff _ _).mp h _ _ _ rfl rfl rfl htyped).1 rfl

end Stargazer
