import Stargazer.Users.UserImpl

set_option relaxedAutoImplicit false
set_option autoImplicit false

/-!
# Changing a user

`CHG_USER::ApplyChanges` of `plugins/configuration/sgconfig/parser_users.cpp`: what a request
`SetUser` does.  After some checks the properties the request names are set one after another,
in an order of the code's own; each is refused or accepted by `UserPropertyLogged::Set`, and the
first one that is refused ends the request with an error.  What was set before it stays set.

The callbacks of the properties are those of `Stargazer.Users.UserImpl`.  The log and the script
`OnChange` have no influence on the user.

## Main definitions

* `Stargazer.UserRecord`, `Stargazer.UserProperties` — a user with all its properties.
* `Stargazer.ChgUser` — a request, `Stargazer.Change` — a property and the value to be set.
* `Stargazer.UserList.applyChanges` — what the request does.
* `Stargazer.Change.Same` — a change that asks for nothing new.

## Main results

* `Stargazer.foldl_update_eq_iff` — a list of changes leaves the properties as they are iff each of
  them asks for nothing new.
* `Stargazer.applyChanges_allOrNothing_iff` — when a request that fails leaves no trace.
-/

namespace Stargazer

/-! ## Users and their properties -/

/-- The properties that are texts and that nobody subscribes to. -/
inductive TextProp
  | address | email | group | note
  | userdata (i : Fin 10)
  | password | phone | realName
  deriving DecidableEq

/-- A user with the properties `Stargazer.UserImpl` leaves out. -/
structure UserRecord where
  /-- The user. -/
  user : UserImpl
  /-- `alwaysOnline`. -/
  alwaysOnline : ℤ := 0
  /-- `disabledDetailStat`. -/
  disabledDetailStat : ℤ := 0
  /-- The texts. -/
  text : TextProp → String := fun _ => ""
  /-- Whether `loginIndex` leads to the user: a deleted user stays on the list for a while. -/
  indexed : Bool := true

/-- `UserProperties`: the values of all properties. -/
structure UserProperties where
  cash : Money
  up : DirTraff
  down : DirTraff
  lastCashAdd : Money
  passiveTime : Time
  lastCashAddTime : Time
  freeMb : Money
  lastActivityTime : Time
  passive : ℤ
  disabled : ℤ
  disabledDetailStat : ℤ
  alwaysOnline : ℤ
  tariffName : String
  nextTariff : String
  credit : Money
  creditExpire : Time
  ips : UserIPs
  text : TextProp → String

/-- The values of the properties of a user. -/
def UserRecord.properties (u : UserRecord) : UserProperties where
  cash := u.user.cash
  up := u.user.up
  down := u.user.down
  lastCashAdd := u.user.lastCashAdd
  passiveTime := u.user.passiveTime
  lastCashAddTime := u.user.lastCashAddTime
  freeMb := u.user.freeMb
  lastActivityTime := u.user.lastActivityTime
  passive := u.user.passive
  disabled := u.user.disabled
  disabledDetailStat := u.disabledDetailStat
  alwaysOnline := u.alwaysOnline
  tariffName := u.user.tariffName
  nextTariff := u.user.nextTariff
  credit := u.user.credit
  creditExpire := u.user.creditExpire
  ips := u.user.ips
  text := u.text

/-- The users of the server; no two have the same login, for the store adds no login twice. -/
structure UserList where
  /-- `users`. -/
  users : List UserRecord
  /-- The logins differ. -/
  nodup : (users.map fun u => u.user.login).Nodup

/-! ## Requests -/

/-- `m_login`, `m_ucr`, `m_usr`, `m_upr`, `m_downr` and `m_cashMustBeAdded`: what a request
`SetUser` asks for. -/
structure ChgUser where
  login : String
  ips : Option UserIPs := none
  alwaysOnline : Option ℤ := none
  text : TextProp → Option String := fun _ => none
  creditExpire : Option Time := none
  credit : Option Money := none
  freeMb : Option Money := none
  disabled : Option ℤ := none
  disabledDetailStat : Option ℤ := none
  passive : Option ℤ := none
  cash : Option Money := none
  cashMustBeAdded : Bool := false
  tariffName : Option String := none
  nextTariff : Option String := none
  up : Dir → Option (BitVec 64) := fun _ => none
  down : Dir → Option (BitVec 64) := fun _ => none

/-- A property and the value that is to be set. -/
inductive Change
  | ips (v : UserIPs)
  | alwaysOnline (v : ℤ)
  | text (p : TextProp) (v : String)
  | creditExpire (v : Time)
  | credit (v : Money)
  | freeMb (v : Money)
  | disabled (v : ℤ)
  | disabledDetailStat (v : ℤ)
  | passive (v : ℤ)
  | cash (mustBeAdded : Bool) (v : Money)
  | tariffName (v : String)
  | nextTariff (v : String)
  | up (v : Dir → Option (BitVec 64))
  | down (v : Dir → Option (BitVec 64))

namespace ChgUser

/-- The change of a text, if the request asks for it. -/
def textChange (req : ChgUser) (p : TextProp) : List Change :=
  (req.text p).toList.map (.text p)

/-- The changes of a request, in the order in which `ApplyChanges` makes them. -/
def changes (req : ChgUser) : List Change :=
  req.ips.toList.map Change.ips ++ req.alwaysOnline.toList.map Change.alwaysOnline ++
  req.textChange .address ++ req.creditExpire.toList.map Change.creditExpire ++
  req.credit.toList.map Change.credit ++ req.freeMb.toList.map Change.freeMb ++
  req.disabled.toList.map Change.disabled ++ req.disabledDetailStat.toList.map Change.disabledDetailStat ++
  req.textChange .email ++ req.textChange .group ++ req.textChange .note ++
  (List.finRange 10).flatMap (fun i => req.textChange (.userdata i)) ++
  req.passive.toList.map Change.passive ++ req.textChange .password ++ req.textChange .phone ++
  req.textChange .realName ++ req.cash.toList.map (Change.cash req.cashMustBeAdded) ++
  req.tariffName.toList.map Change.tariffName ++ req.nextTariff.toList.map Change.nextTariff ++
  (if ∃ i, (req.up i).isSome then [Change.up req.up] else []) ++
  (if ∃ i, (req.down i).isSome then [Change.down req.down] else [])

end ChgUser

/-! ## Setting a property -/

/-- The counters of a request over those of the user. -/
def mergeDirs (v : Dir → Option (BitVec 64)) (old : DirTraff) : DirTraff :=
  fun i => (v i).getD (old i)

namespace Change

/-- `name`, `isPassword` and `isStat` of a property, as `UserProperties::UserProperties` gives
them. -/
def flags : Change → String × Bool × Bool
  | .ips _ => ("ips", false, false)
  | .alwaysOnline _ => ("alwaysOnline", false, false)
  | .text .address _ => ("address", false, false)
  | .text .email _ => ("email", false, false)
  | .text .group _ => ("group", false, false)
  | .text .note _ => ("note", false, false)
  | .text (.userdata i) _ => ("userdata" ++ toString i.val, false, false)
  | .text .password _ => ("password", true, false)
  | .text .phone _ => ("phone", false, false)
  | .text .realName _ => ("realName", false, false)
  | .creditExpire _ => ("creditExpire", false, false)
  | .credit _ => ("credit", false, false)
  | .freeMb _ => ("freeMb", false, true)
  | .disabled _ => ("disabled", false, false)
  | .disabledDetailStat _ => ("DisabledDetailStat", false, false)
  | .passive _ => ("passive", false, false)
  | .cash _ _ => ("cash", false, true)
  | .tariffName _ => ("tariffName", false, false)
  | .nextTariff _ => ("nextTariff", false, false)
  | .up _ => ("upload", false, true)
  | .down _ => ("download", false, true)

/-- The test of `UserPropertyLogged::Set` for the property. -/
def maySet (priv : Priv) (c : Change) : Bool :=
  priv.maySet c.flags.1 c.flags.2.2 c.flags.2.1

/-- What `UserProperty::Set` does to the user, with the callbacks of the property.  The tariff that
was to follow is forgotten when the tariff is set. -/
def set (env : Env) (u : UserRecord) : Change → UserRecord
  | .ips v => { u with user := u.user.setIps env v }
  | .alwaysOnline v => { u with alwaysOnline := v }
  | .text p v => { u with text := Function.update u.text p v }
  | .creditExpire v => { u with user := { u.user with creditExpire := v } }
  | .credit v => { u with user := u.user.setCredit v }
  | .freeMb v => { u with user := { u.user with freeMb := v } }
  | .disabled v => { u with user := u.user.setDisabled env v }
  | .disabledDetailStat v => { u with disabledDetailStat := v }
  | .passive v => { u with user := u.user.setPassive env v }
  | .cash mustBeAdded v =>
    { u with user := u.user.setCash env (if mustBeAdded then v + u.user.cash else v) }
  | .tariffName v => { u with user := { u.user.setTariffName env v with nextTariff := "" } }
  | .nextTariff v => { u with user := { u.user with nextTariff := v } }
  | .up v => { u with user := { u.user with up := mergeDirs v u.user.up } }
  | .down v => { u with user := { u.user with down := mergeDirs v u.user.down } }

/-- What becomes of a change. -/
inductive Verdict
  /-- The property is set. -/
  | set
  /-- The change is passed over. -/
  | skip
  /-- The request ends with an error. -/
  | refuse
  /-- The null pointer of a user without a tariff is followed. -/
  | crash
  deriving DecidableEq

/-- The verdict on a change of a user with a given tariff. -/
def verdict (env : Env) (priv : Priv) (tariff : Option TariffImpl) (c : Change) : Verdict :=
  let logged : Verdict := if c.maySet priv then .set else .refuse
  match c with
  | .tariffName v =>
    match env.tariffs v with
    | none => .refuse
    | some newTariff =>
      match tariff with
      | none => .crash
      | some t => if t.tariffChangeIsAllowed newTariff env.time = "" then logged else .skip
  | .nextTariff v => if (env.tariffs v).isSome then logged else .refuse
  | _ => logged

/-- One of the changes; `none` for the null pointer, and `false` for the end with an error. -/
def apply (env : Env) (priv : Priv) (u : UserRecord) (c : Change) : Option (Bool × UserRecord) :=
  match c.verdict env priv u.user.tariff with
  | .set => some (true, c.set env u)
  | .skip => some (true, u)
  | .refuse => some (false, u)
  | .crash => none

end Change

/-- The changes one after another, up to the first that is refused. -/
def applyAll (env : Env) (priv : Priv) : UserRecord → List Change → Option (Bool × UserRecord)
  | u, [] => some (true, u)
  | u, c :: cs =>
    match c.apply env priv u with
    | none => none
    | some (false, u) => some (false, u)
    | some (true, u) => applyAll env priv u cs

/-! ## What a change does to the properties -/

/-- A property of the account that connecting and disconnecting do not touch. -/
structure SameAccount (u v : UserImpl) : Prop where
  login : v.login = u.login
  tariff : v.tariff = u.tariff
  properties : ∀ r : UserRecord, { r with user := v }.properties = { r with user := u }.properties

theorem SameAccount.refl (u : UserImpl) : SameAccount u u := ⟨rfl, rfl, fun _ => rfl⟩

theorem SameAccount.trans {u v w : UserImpl} (h : SameAccount u v) (h' : SameAccount v w) :
    SameAccount u w :=
  ⟨h'.login.trans h.login, h'.tariff.trans h.tariff,
    fun r => (h'.properties r).trans (h.properties r)⟩

/-- Disconnecting leaves the account as it is. -/
theorem sameAccount_disconnect (env : Env) (fake : Bool) (reason : String) (u : UserImpl) :
    SameAccount u (u.disconnect env fake reason) := by
  obtain ⟨_, _, _, _, _, _, h⟩ := UserImpl.disconnect_frame env fake reason u
  rw [h]
  exact ⟨rfl, rfl, fun _ => rfl⟩

/-- So does connecting. -/
theorem sameAccount_connect (env : Env) (fake : Bool) (u : UserImpl) :
    SameAccount u (u.connect env fake) := by
  simp only [UserImpl.connect, UserImpl.writeSession]
  split_ifs <;> exact ⟨rfl, rfl, fun _ => rfl⟩

/-- Setting the addresses. -/
theorem sameAccount_setIps (env : Env) (v : UserIPs) (u : UserImpl) :
    SameAccount { u with ips := v } (u.setIps env v) := by
  simp only [UserImpl.setIps]
  split_ifs
  · exact (sameAccount_disconnect env false _ _).trans (sameAccount_connect env false _)
  · exact sameAccount_disconnect env false _ _
  · exact sameAccount_connect env false _
  · exact .refl _

/-- Setting the flag of a disabled user. -/
theorem sameAccount_setDisabled (env : Env) (v : ℤ) (u : UserImpl) :
    SameAccount { u with disabled := v } (u.setDisabled env v) := by
  simp only [UserImpl.setDisabled]
  split_ifs
  · exact sameAccount_disconnect env false _ _
  · exact sameAccount_connect env false _
  · exact .refl _

/-- An account with another tariff. -/
theorem SameAccount.withTariff {u v : UserImpl} (h : SameAccount u v) (t : Option TariffImpl)
    (name : String) :
    SameAccount { u with tariff := t, tariffName := name }
      { v with tariff := t, tariffName := name } := by
  refine ⟨h.login, rfl, fun r => ?_⟩
  have hr := h.properties r
  simp only [UserRecord.properties, UserProperties.mk.injEq] at hr ⊢
  simp [hr]

/-- Setting the tariff. -/
theorem sameAccount_setTariffName (env : Env) (v : String) (u : UserImpl) :
    SameAccount { u with tariff := env.tariffs v, tariffName := v } (u.setTariffName env v) := by
  have hconnect : ∀ w : UserImpl, SameAccount { w with tariff := env.tariffs v, tariffName := v }
      { { w with tariff := env.tariffs v, tariffName := v }.connect env false with
        tariffName := v } := by
    intro w
    simp only [UserImpl.connect, UserImpl.writeSession]
    split_ifs <;> exact ⟨rfl, rfl, fun _ => rfl⟩
  have hdisconnect := (sameAccount_disconnect env false "Change tariff" u).withTariff
    (env.tariffs v) v
  simp only [UserImpl.setTariffName, UserImpl.onTariffChange]
  split_ifs
  · exact hdisconnect.trans (hconnect _)
  · exact hdisconnect
  · exact hconnect u
  · exact .refl _

namespace Change

/-- What a change does to the properties of a user with a given tariff. -/
def update (env : Env) (tariff : Option TariffImpl) (p : UserProperties) :
    Change → UserProperties
  | .ips v => { p with ips := v }
  | .alwaysOnline v => { p with alwaysOnline := v }
  | .text q v => { p with text := Function.update p.text q v }
  | .creditExpire v => { p with creditExpire := v }
  | .credit v => { p with credit := v }
  | .freeMb v => { p with freeMb := v }
  | .disabled v => { p with disabled := v }
  | .disabledDetailStat v => { p with disabledDetailStat := v }
  | .passive v =>
    match tariff with
    | some t =>
      if v ≠ 0 ∧ p.passive = 0 then
        { p with
          passive := v
          cash := p.cash - t.tariffConf.passiveCost
          lastCashAdd := p.cash - t.tariffConf.passiveCost - p.cash
          lastCashAddTime := env.stgTime }
      else { p with passive := v }
    | none => { p with passive := v }
  | .cash mustBeAdded v =>
    let cash := if mustBeAdded then v + p.cash else v
    { p with cash := cash, lastCashAdd := cash - p.cash, lastCashAddTime := env.stgTime }
  | .tariffName v => { p with tariffName := v, nextTariff := "" }
  | .nextTariff v => { p with nextTariff := v }
  | .up v => { p with up := mergeDirs v p.up }
  | .down v => { p with down := mergeDirs v p.down }

/-- The position of a change in `ApplyChanges`. -/
def rank : Change → ℕ
  | .ips _ => 0
  | .alwaysOnline _ => 1
  | .text .address _ => 2
  | .creditExpire _ => 3
  | .credit _ => 4
  | .freeMb _ => 5
  | .disabled _ => 6
  | .disabledDetailStat _ => 7
  | .text .email _ => 8
  | .text .group _ => 9
  | .text .note _ => 10
  | .text (.userdata i) _ => 11 + i.val
  | .passive _ => 21
  | .text .password _ => 22
  | .text .phone _ => 23
  | .text .realName _ => 24
  | .cash _ _ => 25
  | .tariffName _ => 26
  | .nextTariff _ => 27
  | .up _ => 28
  | .down _ => 29

-- the equations are derived here, once, for all the lemmas below
attribute [local simp] set update rank in
/-- A change does to the user what `update` says. -/
theorem properties_set (env : Env) (u : UserRecord) (c : Change) :
    (c.set env u).properties = c.update env u.user.tariff u.properties := by
  cases c with
  | ips v => exact (sameAccount_setIps env v u.user).properties u
  | disabled v => exact (sameAccount_setDisabled env v u.user).properties u
  | tariffName v =>
    have h := (sameAccount_setTariffName env v u.user).properties u
    simp only [UserRecord.properties, UserProperties.mk.injEq] at h
    simp only [set, update, UserRecord.properties, UserProperties.mk.injEq]
    simp [h]
  | passive v =>
    cases ht : u.user.tariff with
    | none =>
      simp only [set, update, UserImpl.setPassive, ht]
      rfl
    | some t =>
      by_cases h : v ≠ 0 ∧ u.user.passive = 0
      · have h' : v ≠ 0 ∧ u.properties.passive = 0 := h
        simp only [set, update, UserImpl.setPassive, ht, if_pos h, if_pos h']
        rfl
      · have h' : ¬ (v ≠ 0 ∧ u.properties.passive = 0) := h
        simp only [set, update, UserImpl.setPassive, ht, if_neg h, if_neg h']
        rfl
  | _ => rfl

/-- A change does not rename the user. -/
theorem login_set (env : Env) (u : UserRecord) (c : Change) :
    (c.set env u).user.login = u.user.login := by
  cases c with
  | ips v => exact (sameAccount_setIps env v u.user).login
  | disabled v => exact (sameAccount_setDisabled env v u.user).login
  | tariffName v => exact (sameAccount_setTariffName env v u.user).login
  | passive v =>
    simp only [set, UserImpl.setPassive, UserImpl.setCash]
    split
    · split_ifs <;> rfl
    · rfl
  | _ => rfl

/-- Only the change of the tariff changes the tariff. -/
theorem tariff_set (env : Env) (u : UserRecord) {c : Change} (h : c.rank ≠ 26) :
    (c.set env u).user.tariff = u.user.tariff := by
  cases c with
  | ips v => exact (sameAccount_setIps env v u.user).tariff
  | disabled v => exact (sameAccount_setDisabled env v u.user).tariff
  | tariffName v => exact absurd rfl h
  | passive v =>
    simp only [set, UserImpl.setPassive, UserImpl.setCash]
    split
    · split_ifs <;> simp [*]
    · simp [*]
  | _ => rfl

end Change

namespace Change

/-- Two values of the properties agree in what a change is about. -/
def Agree (p q : UserProperties) : Change → Prop
  | .ips _ => p.ips = q.ips
  | .alwaysOnline _ => p.alwaysOnline = q.alwaysOnline
  | .text f _ => p.text f = q.text f
  | .creditExpire _ => p.creditExpire = q.creditExpire
  | .credit _ => p.credit = q.credit
  | .freeMb _ => p.freeMb = q.freeMb
  | .disabled _ => p.disabled = q.disabled
  | .disabledDetailStat _ => p.disabledDetailStat = q.disabledDetailStat
  | .passive _ => p.passive = q.passive
  | .cash _ _ =>
    p.cash = q.cash ∧ p.lastCashAdd = q.lastCashAdd ∧ p.lastCashAddTime = q.lastCashAddTime
  | .tariffName _ => p.tariffName = q.tariffName
  | .nextTariff _ => p.nextTariff = q.nextTariff
  | .up _ => p.up = q.up
  | .down _ => p.down = q.down

/-- A change that asks for nothing new, among the changes that are made.  A change of the balance
notes its amount and its time; a change of the tariff forgets the tariff that was to follow, which
another change may put back. -/
def Same (env : Env) (made : List Change) (p : UserProperties) : Change → Prop
  | .ips v => p.ips = v
  | .alwaysOnline v => p.alwaysOnline = v
  | .text f v => p.text f = v
  | .creditExpire v => p.creditExpire = v
  | .credit v => p.credit = v
  | .freeMb v => p.freeMb = v
  | .disabled v => p.disabled = v
  | .disabledDetailStat v => p.disabledDetailStat = v
  | .passive v => p.passive = v
  | .cash mustBeAdded v => p.cash = (if mustBeAdded then v + p.cash else v) ∧
      p.lastCashAdd = 0 ∧ p.lastCashAddTime = env.stgTime
  | .tariffName v => p.tariffName = v ∧ (p.nextTariff = "" ∨ .nextTariff p.nextTariff ∈ made)
  | .nextTariff v => p.nextTariff = v
  | .up v => ∀ i, v i = none ∨ v i = some (p.up i)
  | .down v => ∀ i, v i = none ∨ v i = some (p.down i)

variable {env : Env} {tariff : Option TariffImpl} {p : UserProperties} {c d : Change}

theorem Agree.refl (p : UserProperties) (c : Change) : c.Agree p p := by
  cases c <;> first | exact ⟨rfl, rfl, rfl⟩ | rfl

theorem Agree.symm {q : UserProperties} (h : c.Agree p q) : c.Agree q p := by
  cases c with
  | cash x v => exact ⟨h.1.symm, h.2.1.symm, h.2.2.symm⟩
  | _ => exact Eq.symm h

theorem Agree.trans {q r : UserProperties} (h : c.Agree p q) (h' : c.Agree q r) :
    c.Agree p r := by
  cases c with
  | cash x v => exact ⟨h.1.trans h'.1, h.2.1.trans h'.2.1, h.2.2.trans h'.2.2⟩
  | _ => exact Eq.trans h h'

/-- **A later change does not touch what a change is about.** -/
theorem agree_update (h : c.rank < d.rank) : c.Agree (d.update env tariff p) p := by
  cases d with
  | text g w =>
    cases c with
    | text f v =>
      have hne : f ≠ g := by
        rintro rfl
        have : (Change.text f v).rank = (Change.text f w).rank := by cases f <;> rfl
        omega
      exact Function.update_of_ne hne _ _
    | cash x v => exact ⟨rfl, rfl, rfl⟩
    | _ => rfl
  | passive v =>
    have hpassive : ∃ cash add time, (Change.passive v).update env tariff p =
        { p with passive := v, cash := cash, lastCashAdd := add, lastCashAddTime := time } := by
      simp only [update]
      split
      · split_ifs <;> exact ⟨_, _, _, rfl⟩
      · exact ⟨_, _, _, rfl⟩
    obtain ⟨cash, add, time, heq⟩ := hpassive
    rw [heq]
    cases c with
    | cash x v => exact absurd h (by simp [rank])
    | passive w => exact absurd h (by simp [rank])
    | _ => rfl
  | _ =>
    cases c with
    | cash x v => first | exact ⟨rfl, rfl, rfl⟩ | exact absurd h (by simp [rank])
    | _ => first | rfl | exact absurd h (by simp [rank])

/-- Counters that are merged into themselves. -/
theorem mergeDirs_eq_iff (v : Dir → Option (BitVec 64)) (old : DirTraff) :
    mergeDirs v old = old ↔ ∀ i, v i = none ∨ v i = some (old i) := by
  constructor
  · intro h i
    have hi : (v i).getD (old i) = old i := congrFun h i
    cases hv : v i with
    | none => exact .inl rfl
    | some x => exact .inr (by rw [hv] at hi; exact congrArg some hi)
  · intro h
    funext i
    rcases h i with hv | hv <;> simp [mergeDirs, hv]

/-- A change after which what it is about is as before asks for nothing new.  The change of the
tariff is apart. -/
theorem same_of_agree (hc : c.rank ≠ 26) (made : List Change)
    (h : c.Agree (c.update env tariff p) p) : c.Same env made p := by
  cases c with
  | text f v =>
    have htext : Function.update p.text f v f = p.text f := h
    rw [Function.update_self] at htext
    exact htext.symm
  | passive v =>
    have hpassive : ((Change.passive v).update env tariff p).passive = v := by
      simp only [update]
      split
      · split_ifs <;> rfl
      · rfl
    exact Eq.trans (Eq.symm h) hpassive
  | cash mustBeAdded v =>
    obtain ⟨hcash, hadd, htime⟩ := h
    have hcash' : (if mustBeAdded then v + p.cash else v) = p.cash := hcash
    refine ⟨hcash'.symm, hadd.symm.trans ?_, htime.symm⟩
    change (if mustBeAdded then v + p.cash else v) - p.cash = 0
    rw [hcash', sub_self]
  | tariffName v => exact absurd rfl hc
  | up v => exact (mergeDirs_eq_iff v p.up).1 h
  | down v => exact (mergeDirs_eq_iff v p.down).1 h
  | _ => exact Eq.symm h

/-- A change that asks for nothing new changes nothing. -/
theorem update_eq_of_same (hc : c.rank ≠ 26) {made : List Change} (h : c.Same env made p) :
    c.update env tariff p = p := by
  cases c with
  | text f v =>
    obtain rfl : p.text f = v := h
    simp only [update, Function.update_eq_self]
  | passive v =>
    obtain rfl : p.passive = v := h
    simp only [update]
    split
    · rw [if_neg (fun hp => hp.1 hp.2)]
    · rfl
  | cash mustBeAdded v =>
    obtain ⟨hcash, hadd, htime⟩ := h
    simp only [update, ← hcash, sub_self, ← hadd, ← htime]
  | tariffName v => exact absurd rfl hc
  | up v => simp only [update, (mergeDirs_eq_iff v p.up).2 h]
  | down v => simp only [update, (mergeDirs_eq_iff v p.down).2 h]
  | ips v => obtain rfl : p.ips = v := h; rfl
  | alwaysOnline v => obtain rfl : p.alwaysOnline = v := h; rfl
  | creditExpire v => obtain rfl : p.creditExpire = v := h; rfl
  | credit v => obtain rfl : p.credit = v := h; rfl
  | freeMb v => obtain rfl : p.freeMb = v := h; rfl
  | disabled v => obtain rfl : p.disabled = v := h; rfl
  | disabledDetailStat v => obtain rfl : p.disabledDetailStat = v := h; rfl
  | nextTariff v => obtain rfl : p.nextTariff = v := h; rfl

/-- What a list of later changes does not touch. -/
theorem agree_foldl (env : Env) (tariff : Option TariffImpl) {l : List Change} (h : ∀ d ∈ l, c.rank < d.rank) :
    c.Agree (l.foldl (fun p d => d.update env tariff p) p) p := by
  induction l generalizing p with
  | nil => exact .refl p c
  | cons d l ih =>
    have hrest := ih (p := d.update env tariff p) fun e he => h e (List.mem_cons_of_mem d he)
    have hfirst : c.Agree (d.update env tariff p) p := agree_update (h d List.mem_cons_self)
    exact hrest.trans hfirst

/-- The changes stand in the order of `ApplyChanges`. -/
def Sorted (l : List Change) : Prop := l.Pairwise fun c d => c.rank < d.rank

theorem rank_eq_tariffName (h : c.rank = 26) : ∃ v, c = .tariffName v := by
  cases c with
  | tariffName v => exact ⟨v, rfl⟩
  | text f v => cases f <;> simp only [rank] at h <;> omega
  | _ => simp [rank] at h

theorem rank_eq_nextTariff (h : c.rank = 27) : ∃ v, c = .nextTariff v := by
  cases c with
  | nextTariff v => exact ⟨v, rfl⟩
  | text f v => cases f <;> simp only [rank] at h <;> omega
  | _ => simp [rank] at h

/-- Which changes are made matters only behind a change. -/
theorem same_cons_iff (made : List Change) (h : c.rank < d.rank) :
    d.Same env (c :: made) p ↔ d.Same env made p := by
  cases d with
  | tariffName v =>
    have hne : Change.nextTariff p.nextTariff ≠ c := by
      rintro rfl
      exact absurd h (by simp [rank])
    simp only [Same, List.mem_cons, hne, false_or]
  | _ => rfl

/-- Among the changes after that of the tariff, that of the next tariff is the first. -/
theorem nextTariff_or_lt {l : List Change} (hl : Sorted l) (h : ∀ d ∈ l, 26 < d.rank) :
    (∃ v l', l = .nextTariff v :: l') ∨ ∀ d ∈ l, 27 < d.rank := by
  cases l with
  | nil => exact .inr fun d hd => absurd hd List.not_mem_nil
  | cons c l =>
    have hc := h c List.mem_cons_self
    by_cases hrank : c.rank = 27
    · obtain ⟨v, rfl⟩ := rank_eq_nextTariff hrank
      exact .inl ⟨v, l, rfl⟩
    · refine .inr fun d hd => ?_
      rcases List.mem_cons.1 hd with rfl | hd
      · omega
      · have := List.rel_of_pairwise_cons hl hd
        omega

/-- The changes after that of the tariff: they put back the next tariff, or it was empty. -/
theorem foldl_forgotten_eq_iff {l : List Change} (hl : Sorted l) (h : ∀ d ∈ l, 26 < d.rank) :
    l.foldl (fun p d => d.update env tariff p) { p with nextTariff := "" } = p ↔
      l.foldl (fun p d => d.update env tariff p) p = p ∧
        (p.nextTariff = "" ∨ .nextTariff p.nextTariff ∈ l) := by
  rcases nextTariff_or_lt hl h with ⟨v, l, rfl⟩ | hlt
  · have hrest : ∀ d ∈ l, 27 < d.rank := fun d hd => List.rel_of_pairwise_cons hl hd
    have hv : l.foldl (fun p d => d.update env tariff p) { p with nextTariff := v } = p →
        v = p.nextTariff := by
      intro heq
      have hagree : (Change.nextTariff v).Agree _ { p with nextTariff := v } :=
        agree_foldl env tariff hrest
      rw [heq] at hagree
      exact hagree.symm
    simp only [List.foldl_cons, update]
    constructor
    · intro heq
      exact ⟨heq, .inr (by rw [hv heq]; exact List.mem_cons_self)⟩
    · exact fun heq => heq.1
  · have hnotMem : Change.nextTariff p.nextTariff ∉ l := fun hmem =>
      absurd (hlt _ hmem) (by simp [rank])
    constructor
    · intro heq
      have hagree : (Change.nextTariff "").Agree _ { p with nextTariff := "" } :=
        agree_foldl env tariff hlt
      rw [heq] at hagree
      have hempty : p.nextTariff = "" := hagree
      refine ⟨?_, .inl hempty⟩
      rwa [← hempty] at heq
    · rintro ⟨heq, hempty | hmem⟩
      · rwa [← hempty]
      · exact absurd hmem hnotMem

end Change

/-- **A list of changes leaves the properties as they are iff each of them asks for nothing new.**

**Proof sketch.** Induction on the list.  What the first change is about is not touched by the
others (`Change.agree_foldl`), so it asks for nothing new if all is as before at the end; and then it
changes nothing.  Only the change of the tariff may change something that is put back
(`Change.foldl_forgotten_eq_iff`). -/
theorem foldl_update_eq_iff (env : Env) (tariff : Option TariffImpl) (p : UserProperties)
    {l : List Change} (hl : Change.Sorted l) :
    l.foldl (fun p d => d.update env tariff p) p = p ↔ ∀ c ∈ l, c.Same env l p := by
  induction l with
  | nil => simp
  | cons c l ih =>
    have hlt : ∀ d ∈ l, c.rank < d.rank := fun d hd => List.rel_of_pairwise_cons hl hd
    have ih := ih hl.of_cons
    have hrest : (∀ d ∈ l, d.Same env (c :: l) p) ↔ ∀ d ∈ l, d.Same env l p :=
      forall₂_congr fun d hd => Change.same_cons_iff l (hlt d hd)
    rw [List.forall_mem_cons, hrest, ← ih, List.foldl_cons]
    have hagree : c.Agree _ (c.update env tariff p) := Change.agree_foldl env tariff hlt
    by_cases hc : c.rank = 26
    · obtain ⟨v, rfl⟩ := Change.rank_eq_tariffName hc
      have hnotMem : Change.nextTariff p.nextTariff ≠ Change.tariffName v := by simp
      constructor
      · intro heq
        rw [heq] at hagree
        obtain rfl : p.tariffName = v := hagree
        have h := (Change.foldl_forgotten_eq_iff hl.of_cons hlt).1 heq
        exact ⟨⟨rfl, h.2.imp_right (List.mem_cons_of_mem _)⟩, h.1⟩
      · rintro ⟨⟨rfl, hnext⟩, heq⟩
        have hmem := hnext.imp_right fun h => (List.mem_cons.1 h).resolve_left hnotMem
        exact (Change.foldl_forgotten_eq_iff hl.of_cons hlt).2 ⟨heq, hmem⟩
    · constructor
      · intro heq
        rw [heq] at hagree
        have hsame := Change.same_of_agree hc (c :: l) hagree.symm
        exact ⟨hsame, by rwa [Change.update_eq_of_same hc hsame] at heq⟩
      · rintro ⟨hsame, heq⟩
        rwa [Change.update_eq_of_same hc hsame]

/-! ## The changes of a request -/

namespace Change

variable {env : Env} {priv : Priv} {u u' : UserRecord} {tariff : Option TariffImpl}

/-- The changes after that of the tariff do not look at the tariff. -/
theorem verdict_of_lt {c : Change} (h : 26 < c.rank) (t t' : Option TariffImpl) :
    c.verdict env priv t = c.verdict env priv t' := by
  cases c with
  | tariffName v => exact absurd h (by simp [rank])
  | _ => rfl

theorem update_of_lt {c : Change} (h : 26 < c.rank) (t t' : Option TariffImpl)
    (p : UserProperties) : c.update env t p = c.update env t' p := by
  cases c with
  | passive v => exact absurd h (by simp [rank])
  | _ => rfl

/-- The changes before the first that is refused, and that one. -/
structure Refused (env : Env) (priv : Priv) (tariff : Option TariffImpl) (l : List Change)
    (before : List Change) (c : Change) : Prop where
  /-- They stand at the beginning. -/
  append : ∃ rest, l = before ++ c :: rest
  /-- What stands before it is set or passed over. -/
  accepted : ∀ d ∈ before, d.verdict env priv tariff = .set ∨ d.verdict env priv tariff = .skip
  /-- It is refused. -/
  refused : c.verdict env priv tariff = .refuse

/-- The first change is set or passed over. -/
theorem Refused.cons {l before : List Change} {c d : Change}
    (hc : c.verdict env priv tariff = .set ∨ c.verdict env priv tariff = .skip)
    (h : Refused env priv tariff l before d) :
    Refused env priv tariff (c :: l) (c :: before) d := by
  obtain ⟨⟨rest, rfl⟩, haccepted, hrefused⟩ := h
  exact ⟨⟨rest, rfl⟩, List.forall_mem_cons.2 ⟨hc, haccepted⟩, hrefused⟩

/-- The first change is refused, or another one. -/
theorem Refused.of_cons {l before : List Change} {c d : Change}
    (h : Refused env priv tariff (c :: l) before d) :
    (before = [] ∧ c.verdict env priv tariff = .refuse) ∨
      ((c.verdict env priv tariff = .set ∨ c.verdict env priv tariff = .skip) ∧
        ∃ before', before = c :: before' ∧ Refused env priv tariff l before' d) := by
  obtain ⟨⟨rest, happend⟩, haccepted, hrefused⟩ := h
  cases before with
  | nil =>
    obtain ⟨rfl, -⟩ : c = d ∧ l = rest := by simpa using happend
    exact .inl ⟨rfl, hrefused⟩
  | cons b before =>
    obtain ⟨rfl, rfl⟩ : c = b ∧ l = before ++ d :: rest := by simpa using happend
    obtain ⟨hc, hrest⟩ := List.forall_mem_cons.1 haccepted
    exact .inr ⟨hc, before, rfl, ⟨rest, rfl⟩, hrest, hrefused⟩

/-- The changes that are made. -/
def made (env : Env) (priv : Priv) (tariff : Option TariffImpl) (l : List Change) :
    List Change :=
  l.filter fun c => c.verdict env priv tariff = .set

end Change

/-- **What the changes of a request do**, up to the first that is refused.

**Proof sketch.** Induction on the changes.  The tariff the verdicts look at is that of the user
before the request until the tariff is changed; the changes after that do not look at it. -/
theorem applyAll_eq_false_iff (env : Env) (priv : Priv) (tariff : Option TariffImpl)
    {l : List Change} (hl : Change.Sorted l) (u : UserRecord)
    (ht : u.user.tariff = tariff ∨ ∀ c ∈ l, 26 < c.rank) (q : UserProperties) :
    (∃ u', applyAll env priv u l = some (false, u') ∧ u'.properties = q) ↔
      ∃ before c, Change.Refused env priv tariff l before c ∧
        (Change.made env priv tariff before).foldl (fun p d => d.update env tariff p)
          u.properties = q := by
  induction l generalizing u with
  | nil =>
    constructor
    · rintro ⟨u', h, -⟩
      simp [applyAll] at h
    · rintro ⟨before, c, ⟨⟨rest, h⟩, -, -⟩, -⟩
      simp at h
  | cons c l ih =>
    have hlt : ∀ d ∈ l, c.rank < d.rank := fun d hd => List.rel_of_pairwise_cons hl hd
    have hverdict : c.verdict env priv u.user.tariff = c.verdict env priv tariff := by
      rcases ht with rfl | ht
      · rfl
      · exact Change.verdict_of_lt (ht c List.mem_cons_self) _ _
    have hrest : u.user.tariff = tariff ∨ ∀ d ∈ l, 26 < d.rank :=
      ht.imp_right fun ht d hd => ht d (List.mem_cons_of_mem c hd)
    cases hv : c.verdict env priv tariff with
    | set =>
      have hset : (c.set env u).properties = c.update env tariff u.properties := by
        rw [Change.properties_set]
        rcases ht with rfl | ht
        · rfl
        · exact Change.update_of_lt (ht c List.mem_cons_self) _ _ _
      have htariff : (c.set env u).user.tariff = tariff ∨ ∀ d ∈ l, 26 < d.rank := by
        by_cases hc : c.rank = 26
        · exact .inr fun d hd => hc ▸ hlt d hd
        · rw [Change.tariff_set env u hc]
          exact hrest
      have hmade (before : List Change) : Change.made env priv tariff (c :: before) =
          c :: Change.made env priv tariff before := List.filter_cons_of_pos (by simp [hv])
      have ih := ih hl.of_cons (c.set env u) htariff
      simp only [applyAll, Change.apply, hverdict, hv]
      rw [ih]
      constructor
      · rintro ⟨before, d, href, hq⟩
        refine ⟨c :: before, d, href.cons (.inl hv), ?_⟩
        rwa [hmade, List.foldl_cons, ← hset]
      · rintro ⟨before, d, href, hq⟩
        rcases href.of_cons with ⟨-, hv'⟩ | ⟨-, before', rfl, href'⟩
        · rw [hv] at hv'
          cases hv'
        · refine ⟨before', d, href', ?_⟩
          rwa [hmade, List.foldl_cons, ← hset] at hq
    | skip =>
      have hmade (before : List Change) : Change.made env priv tariff (c :: before) =
          Change.made env priv tariff before := List.filter_cons_of_neg (by simp [hv])
      simp only [applyAll, Change.apply, hverdict, hv]
      rw [ih hl.of_cons u hrest]
      constructor
      · rintro ⟨before, d, href, hq⟩
        exact ⟨c :: before, d, href.cons (.inr hv), by rwa [hmade]⟩
      · rintro ⟨before, d, href, hq⟩
        rcases href.of_cons with ⟨-, hv'⟩ | ⟨-, before', rfl, href'⟩
        · rw [hv] at hv'
          cases hv'
        · exact ⟨before', d, href', by rwa [hmade] at hq⟩
    | refuse =>
      simp only [applyAll, Change.apply, hverdict, hv]
      constructor
      · rintro ⟨u', h, hq⟩
        obtain rfl : u = u' := by simpa using h
        exact ⟨[], c, ⟨⟨l, rfl⟩, by simp, hv⟩, hq⟩
      · rintro ⟨before, d, href, hq⟩
        rcases href.of_cons with ⟨rfl, -⟩ | ⟨hv', -⟩
        · exact ⟨u, rfl, hq⟩
        · rw [hv] at hv'
          simp at hv'
    | crash =>
      simp only [applyAll, Change.apply, hverdict, hv]
      constructor
      · rintro ⟨u', h, -⟩
        cases h
      · rintro ⟨before, d, href, -⟩
        rcases href.of_cons with ⟨-, hv'⟩ | ⟨hv', -⟩
        · rw [hv] at hv'
          cases hv'
        · rw [hv] at hv'
          simp at hv'

/-- The changes of a request stand in the order of `ApplyChanges`: their positions are among the
numbers from 0 to 29, in order. -/
theorem sorted_changes (req : ChgUser) : Change.Sorted req.changes := by
  have hone {α : Type} (o : Option α) (f : α → Change) (k : ℕ) (h : ∀ a, (f a).rank = k) :
      ((o.toList.map f).map Change.rank).Sublist [k] := by
    cases o with
    | none => simp
    | some a => simp [h]
  have htext (p : TextProp) (k : ℕ) (h : ∀ v, (Change.text p v).rank = k) :
      ((req.textChange p).map Change.rank).Sublist [k] := hone (req.text p) (.text p) k h
  have hdirs (b : Prop) [Decidable b] (c : Change) :
      ((if b then [c] else []).map Change.rank).Sublist [c.rank] := by
    split <;> simp
  have hdata : (((List.finRange 10).flatMap fun i => req.textChange (.userdata i)).map
      Change.rank).Sublist [11, 12, 13, 14, 15, 16, 17, 18, 19, 20] := by
    rw [List.map_flatMap]
    have hflat (l : List (Fin 10)) : (l.flatMap fun i =>
        (req.textChange (.userdata i)).map Change.rank).Sublist (l.map fun i => 11 + i.val) := by
      induction l with
      | nil => simp
      | cons i l ih =>
        rw [List.flatMap_cons, List.map_cons, ← List.singleton_append]
        exact (htext (.userdata i) (11 + i.val) fun _ => rfl).append ih
    exact hflat (List.finRange 10)
  have hsub : (req.changes.map Change.rank).Sublist
      ([0] ++ [1] ++ [2] ++ [3] ++ [4] ++ [5] ++ [6] ++ [7] ++ [8] ++ [9] ++ [10] ++
        [11, 12, 13, 14, 15, 16, 17, 18, 19, 20] ++ [21] ++ [22] ++ [23] ++ [24] ++ [25] ++ [26] ++
        [27] ++ [28] ++ [29]) := by
    delta ChgUser.changes
    simp only [List.map_append]
    refine List.Sublist.append ?_ (hdirs _ (.down req.down))
    refine List.Sublist.append ?_ (hdirs _ (.up req.up))
    refine List.Sublist.append ?_ (hone req.nextTariff .nextTariff 27 fun _ => rfl)
    refine List.Sublist.append ?_ (hone req.tariffName .tariffName 26 fun _ => rfl)
    refine List.Sublist.append ?_ (hone req.cash (.cash req.cashMustBeAdded) 25 fun _ => rfl)
    refine List.Sublist.append ?_ (htext .realName 24 fun _ => rfl)
    refine List.Sublist.append ?_ (htext .phone 23 fun _ => rfl)
    refine List.Sublist.append ?_ (htext .password 22 fun _ => rfl)
    refine List.Sublist.append ?_ (hone req.passive .passive 21 fun _ => rfl)
    refine List.Sublist.append ?_ hdata
    refine List.Sublist.append ?_ (htext .note 10 fun _ => rfl)
    refine List.Sublist.append ?_ (htext .group 9 fun _ => rfl)
    refine List.Sublist.append ?_ (htext .email 8 fun _ => rfl)
    refine List.Sublist.append ?_ (hone req.disabledDetailStat .disabledDetailStat 7 fun _ => rfl)
    refine List.Sublist.append ?_ (hone req.disabled .disabled 6 fun _ => rfl)
    refine List.Sublist.append ?_ (hone req.freeMb .freeMb 5 fun _ => rfl)
    refine List.Sublist.append ?_ (hone req.credit .credit 4 fun _ => rfl)
    refine List.Sublist.append ?_ (hone req.creditExpire .creditExpire 3 fun _ => rfl)
    refine List.Sublist.append ?_ (htext .address 2 fun _ => rfl)
    refine List.Sublist.append ?_ (hone req.alwaysOnline .alwaysOnline 1 fun _ => rfl)
    exact hone req.ips .ips 0 fun _ => rfl
  exact List.pairwise_map.1 (List.Pairwise.sublist hsub (by decide))

/-- The changes do not rename the user. -/
theorem login_applyAll (env : Env) (priv : Priv) {u u' : UserRecord} {l : List Change} {ok : Bool}
    (h : applyAll env priv u l = some (ok, u')) : u'.user.login = u.user.login := by
  induction l generalizing u with
  | nil =>
    obtain ⟨-, rfl⟩ : true = ok ∧ u = u' := by simpa [applyAll] using h
    rfl
  | cons c l ih =>
    simp only [applyAll, Change.apply] at h
    cases hv : c.verdict env priv u.user.tariff with
    | set =>
      rw [hv] at h
      exact (ih h).trans (Change.login_set env u c)
    | skip =>
      rw [hv] at h
      exact ih h
    | refuse =>
      rw [hv] at h
      obtain ⟨-, rfl⟩ : false = ok ∧ u = u' := by simpa using h
      rfl
    | crash =>
      rw [hv] at h
      cases h

/-! ## A request -/

namespace UserList

/-- `UsersImpl::FindByName`: the position of a user. -/
def findByName (s : UserList) (login : String) : Option (Fin s.users.length) :=
  s.users.findFinIdx? fun u => u.indexed && u.user.login == login

/-- `UsersImpl::IsIPInUse`. -/
def isIPInUse (shifted : BitVec 32) (s : UserList) (ip : IP) (login : String) : Bool :=
  s.users.any fun u => u.user.login != login && !u.user.ips.isAnyIP && u.user.ips.find shifted ip

/-- The test that a user who is always online has one address. -/
def leadsToForbidden (req : ChgUser) (u : UserRecord) : Bool :=
  let check := req.alwaysOnline.isSome || req.ips.isSome
  let alwaysOnline := req.alwaysOnline.getD u.alwaysOnline
  let onlyOneIP := (req.ips.getD u.user.ips).onlyOneIP
  check && alwaysOnline != 0 && !onlyOneIP

/-- A user with the same login takes the place of a user. -/
def setUser (s : UserList) (i : Fin s.users.length) (u : UserRecord)
    (h : u.user.login = s.users[i].user.login) : UserList where
  users := s.users.set i u
  nodup := by
    have hmap : (s.users.set i u).map (fun u => u.user.login) =
        s.users.map fun u => u.user.login := by
      rw [List.map_set, h, ← List.map_set]
      exact congrArg (List.map _) (List.set_getElem_self i.isLt)
    rw [hmap]
    exact s.nodup

/-- `CHG_USER::ApplyChanges`: `false` where it returns an error, `none` where it does not return.
The addresses of the request are looked at even if it has none: `value()` of an empty `optional` is
an exception that nobody catches. -/
def applyChanges (env : Env) (priv : Priv) (req : ChgUser) (s : UserList) :
    Option (Bool × UserList) :=
  match s.findByName req.login with
  | none => some (false, s)
  | some i =>
    if leadsToForbidden req s.users[i] then
      some (false, s)
    else
      match req.ips with
      | none => none
      | some ips =>
        if List.any ips fun im => s.isIPInUse env.shifted im.ip req.login then
          some (false, s)
        else
          match h : applyAll env priv s.users[i] req.changes with
          | none => none
          | some (false, u) => some (false, s.setUser i u (login_applyAll env priv h))
          | some (true, u) =>
            -- `WriteConf` has no effect on the user
            some (true, s.setUser i { u with user := u.user.writeStat env }
              (by
                have hlogin : (u.user.writeStat env).login = u.user.login := by
                  unfold UserImpl.writeStat
                  split <;> rfl
                exact hlogin.trans (login_applyAll env priv h)))

end UserList

/-- A request that fails leaves every property of every user as it was. -/
def UserList.AllOrNothing (env : Env) (priv : Priv) (req : ChgUser) (s : UserList) : Prop :=
  ∀ s', s.applyChanges env priv req = some (false, s') →
    s'.users.map UserRecord.properties = s.users.map UserRecord.properties

/-- The request is not turned down before the first property is set: the user exists, it does not
become one who is always online with several addresses, and none of the addresses is in use. -/
structure UserList.Passes (env : Env) (req : ChgUser) (s : UserList) (i : Fin s.users.length) :
    Prop where
  found : s.findByName req.login = some i
  allowed : leadsToForbidden req s.users[i] = false
  free : ∃ ips : UserIPs, req.ips = some ips ∧
    List.any ips (fun im => s.isIPInUse env.shifted im.ip req.login) = false

/-- No change that is made before one that is refused asks for anything new. -/
def ChgUser.Harmless (env : Env) (priv : Priv) (req : ChgUser) (u : UserRecord) : Prop :=
  ∀ before c, Change.Refused env priv u.user.tariff req.changes before c →
    ∀ d ∈ Change.made env priv u.user.tariff before,
      d.Same env (Change.made env priv u.user.tariff before) u.properties

/-- The changes that are made stand in order. -/
theorem Change.Refused.sorted_made {env : Env} {priv : Priv} {tariff : Option TariffImpl}
    {l before : List Change} {c : Change} (h : Change.Refused env priv tariff l before c)
    (hl : Change.Sorted l) : Change.Sorted (Change.made env priv tariff before) := by
  obtain ⟨rest, rfl⟩ := h.append
  exact (hl.sublist (List.sublist_append_left before _)).sublist List.filter_sublist

/-- **When the changes of a request that fails leave no trace.** -/
theorem applyAll_unchanged_iff (env : Env) (priv : Priv) (req : ChgUser) (u : UserRecord) :
    (∀ u', applyAll env priv u req.changes = some (false, u') → u'.properties = u.properties) ↔
      req.Harmless env priv u := by
  have hl := sorted_changes req
  have hiff := applyAll_eq_false_iff env priv u.user.tariff hl u (.inl rfl)
  constructor
  · intro h before c href
    obtain ⟨u', happly, hq⟩ := (hiff _).2 ⟨before, c, href, rfl⟩
    rw [← foldl_update_eq_iff env u.user.tariff u.properties (href.sorted_made hl), ← hq]
    exact h u' happly
  · intro h u' happly
    obtain ⟨before, c, href, hq⟩ := (hiff _).1 ⟨u', happly, rfl⟩
    rw [← hq]
    exact (foldl_update_eq_iff env _ _ (href.sorted_made hl)).2 (h before c href)

/-- The properties of the users after one of them has been replaced. -/
theorem UserList.map_properties_setUser (s : UserList) (i : Fin s.users.length) (u : UserRecord)
    (h : u.user.login = s.users[i].user.login) :
    (s.setUser i u h).users.map UserRecord.properties = s.users.map UserRecord.properties ↔
      u.properties = s.users[i].properties := by
  have hset : (s.setUser i u h).users.map UserRecord.properties =
      (s.users.map UserRecord.properties).set i u.properties := List.map_set
  rw [hset]
  constructor
  · intro heq
    have hi := congrArg (fun l => l[i.val]?) heq
    simpa using hi
  · intro heq
    rw [heq, ← List.map_set]
    exact congrArg (List.map _) (List.set_getElem_self i.isLt)

/-- What a request that passes the checks does. -/
theorem UserList.Passes.applyChanges_eq_false_iff {env : Env} {priv : Priv} {req : ChgUser}
    {s : UserList} {i : Fin s.users.length} (h : s.Passes env req i) (s' : UserList) :
    s.applyChanges env priv req = some (false, s') ↔
      ∃ u, ∃ hu : applyAll env priv s.users[i] req.changes = some (false, u),
        s' = s.setUser i u (login_applyAll env priv hu) := by
  obtain ⟨hfound, hallowed, ips, hips, hfree⟩ := h
  simp only [applyChanges, hfound, hallowed, hips, hfree, Bool.false_eq_true, if_false]
  constructor
  · intro hs
    split at hs
    · cases hs
    · next u hu => exact ⟨u, hu, by simpa using hs.symm⟩
    · simp at hs
  · rintro ⟨u, hu, rfl⟩
    split
    · next hnone =>
      rw [hu] at hnone
      cases hnone
    · next v hv =>
      obtain rfl : u = v := by simpa using hu.symm.trans hv
      rfl
    · next v hv =>
      rw [hu] at hv
      simp at hv

/-- A request that does not pass the checks changes nothing. -/
theorem UserList.eq_of_not_passes {env : Env} {priv : Priv} {req : ChgUser} {s s' : UserList}
    (h : ¬ ∃ i, s.Passes env req i) (hs : s.applyChanges env priv req = some (false, s')) :
    s' = s := by
  unfold applyChanges at hs
  split at hs
  · simpa using hs.symm
  · next i hfound =>
    split_ifs at hs with hallowed
    · simpa using hs.symm
    · split at hs
      · cases hs
      · next ips hips =>
        split_ifs at hs with hfree
        · simpa using hs.symm
        · exact absurd ⟨i, hfound, by simpa using hallowed, ips, hips, by simpa using hfree⟩ h

/-- **When a request is all or nothing**: it does not pass the checks, or no change that is made
before one that is refused asks for anything new. -/
theorem applyChanges_allOrNothing_iff (env : Env) (priv : Priv) (req : ChgUser) (s : UserList) :
    s.AllOrNothing env priv req ↔
      ∀ i, s.Passes env req i → req.Harmless env priv s.users[i] := by
  constructor
  · intro h i hi
    rw [← applyAll_unchanged_iff]
    intro u hu
    rw [← UserList.map_properties_setUser s i u (login_applyAll env priv hu)]
    exact h _ ((hi.applyChanges_eq_false_iff _).2 ⟨u, hu, rfl⟩)
  · intro h s' hs
    by_cases hpasses : ∃ i, s.Passes env req i
    · obtain ⟨i, hi⟩ := hpasses
      obtain ⟨u, hu, rfl⟩ := (hi.applyChanges_eq_false_iff s').1 hs
      rw [UserList.map_properties_setUser]
      exact (applyAll_unchanged_iff env priv req _).2 (h i hi) u hu
    · rw [UserList.eq_of_not_passes hpasses hs]

namespace Sample

/-- One user, with the address `10.0.0.1`. -/
def userList : UserList where
  users := [{ user := { user "alice" with ips := [⟨0x0100000A, 32⟩] } }]
  nodup := by simp

/-- A request to move the user to another tariff, which does not exist, and to note a new
address. -/
def chgTariff : ChgUser where
  login := "alice"
  ips := some [⟨0x0100000A, 32⟩]
  text := fun p => if p = .address then some "Main street" else none
  tariffName := some "gold"

end Sample

/-- The tariff does not exist, so the request fails; the address is changed all the same. -/
theorem address_changed_by_failure :
    ¬ Sample.userList.AllOrNothing (Sample.env 0) Priv.full Sample.chgTariff := by
  intro h
  have hpasses : Sample.userList.Passes (Sample.env 0) Sample.chgTariff ⟨0, Nat.one_pos⟩ :=
    ⟨rfl, by decide, _, rfl, by decide⟩
  have hchanges : Sample.chgTariff.changes =
      [.ips [⟨0x0100000A, 32⟩], .text .address "Main street", .tariffName "gold"] := by
    delta ChgUser.changes
    simp [Sample.chgTariff, ChgUser.textChange]
  have happly : ∃ u, applyAll (Sample.env 0) Priv.full Sample.userList.users[0]
      Sample.chgTariff.changes = some (false, u) ∧ u.text .address = "Main street" := by
    rw [hchanges]
    exact ⟨_, rfl, rfl⟩
  obtain ⟨u, hu, htext⟩ := happly
  have hsame := h _ ((hpasses.applyChanges_eq_false_iff _).2 ⟨u, hu, rfl⟩)
  rw [UserList.map_properties_setUser] at hsame
  have haddress : u.text .address = "" := congrFun (congrArg UserProperties.text hsame) .address
  rw [htext] at haddress
  exact absurd haddress (by decide)

end Stargazer
