import Stargazer.Config.Outcome
import Stargazer.Users.UserIPs

set_option relaxedAutoImplicit false
set_option autoImplicit false

/-!
# Changing a user by XML-RPC

`USER_HELPER::SetUserInfo` of `plugins/configuration/rpcconfig/user_helper.cpp` does what
`CHG_USER::ApplyChanges` of the other interface does, in an order of its own: a property is set only
if its value is a new one, and the tariff comes as one text with the tariff that is to follow.

A text in another character set is what `IconvString` makes of it, which is a parameter here.  The
addresses are read twice, and `str2x`, which reads the counters as well, gives nothing once `errno` is
`ERANGE`.

## Main definitions

* `Stargazer.UserInfo` — the structure that is sent.
* `Stargazer.UserHelper.setUserInfo` — `SetUserInfo`.
* `Stargazer.UserChange` — a change that both interfaces know.
* `Stargazer.UserChange.Agree` — both do the same.

## Main results

* `Stargazer.UserChange.agree_iff` — the changes with which both do the same.
-/

namespace Stargazer

/-- The members of the structure that `chg_user` gets. -/
structure UserInfo where
  aonline : Option Bool := none
  ips : Option String := none
  password : Option String := none
  address : Option String := none
  phone : Option String := none
  email : Option String := none
  cash : Option Money := none
  creditexpire : Option (BitVec 32) := none
  credit : Option Money := none
  freemb : Option Money := none
  down : Option Bool := none
  passive : Option Bool := none
  disableddetailstat : Option Bool := none
  name : Option String := none
  group : Option String := none
  note : Option String := none
  /-- Ten texts. -/
  userdata : Option (Fin 10 → String) := none
  /-- The member `mu` of `traff`. -/
  mu : Option (List String) := none
  /-- The member `md` of `traff`. -/
  md : Option (List String) := none
  tariff : Option String := none

namespace UserHelper

/-- A `bool` as an `int`. -/
def boolInt (b : Bool) : ℤ := if b then 1 else 0

/-- The test that a property has its new value already, where there is one. -/
def unchanged (u : UserRecord) : Change → Bool
  | .alwaysOnline v => u.alwaysOnline == v
  | .text p v => u.text p == v
  | .creditExpire v => u.user.creditExpire == v
  | .credit v => decide (|u.user.credit - v| ≤ 1 / 1000)
  | .freeMb v => decide (|u.user.freeMb - v| ≤ 1 / 1000)
  | .disabled v => u.user.disabled == v
  | .disabledDetailStat v => u.disabledDetailStat == v
  | .passive v => u.user.passive == v
  | .cash _ v => decide (|u.user.cash - v| ≤ 1 / 1000)
  | .tariffName v => u.user.tariffName == v
  | .nextTariff v => u.user.nextTariff == v
  | .ips _ | .up _ | .down _ => false

/-- One property, `false` where it may not be set. -/
def setNew (env : Env) (priv : Priv) (u : UserRecord) (c : Change) : Bool × UserRecord :=
  if unchanged u c then (true, u)
  else if c.maySet priv then (true, c.set env u)
  else (false, u)

/-- The properties one after another, up to the first that may not be set. -/
def setAllNew (env : Env) (priv : Priv) : UserRecord → List Change → Bool × UserRecord
  | u, [] => (true, u)
  | u, c :: cs =>
    match setNew env priv u c with
    | (false, u) => (false, u)
    | (true, u) => setAllNew env priv u cs

/-- Is `errno` `ERANGE` when `SetUserInfo` comes to what it reads with `str2x`?  What is called in between
may change it. -/
structure InfoErrno where
  /-- At the addresses. -/
  ips : Bool := false
  /-- At the counters of `mu`. -/
  mu : Bool := false
  /-- At the counters of `md`. -/
  md : Bool := false

/-- The addresses as they are read at first; `none` where one of them does not fit its buffer. -/
def firstIPs (shifted : BitVec 32) (errno : InfoErrno) (text : String) : Option UserIPs :=
  UserIPs.parse ⟨shifted, errno.ips⟩ text.toList

/-- The addresses as they are read again, with what the first reading has left of `errno`. -/
def secondIPs (shifted : BitVec 32) (errno : InfoErrno) (text : String) : Option UserIPs :=
  UserIPs.parse ⟨shifted, UserIPs.parseErrno ⟨shifted, errno.ips⟩ text.toList⟩ text.toList

/-- The counters one after another; none is read once `errno` is `ERANGE`. -/
def readCounters : Bool → List String → List (Option (BitVec 64))
  | _, [] => []
  | isRange, text :: data =>
    (str2x 64 isRange text.toList).1 :: readCounters (str2x 64 isRange text.toList).2 data

/-- The counters that are read; the others are left as they are. -/
def readMonth (isRange : Bool) (data : List String) : Dir → Option (BitVec 64) :=
  fun i => ((readCounters isRange data)[i.val]?).join

/-- The properties but for the tariff, in the order of `SetUserInfo`. -/
def fields (iconv : String → String) (errno : InfoErrno) (ips : Option UserIPs) (info : UserInfo) :
    List Change :=
  ips.toList.map Change.ips ++
  info.aonline.toList.map (fun v => Change.alwaysOnline (boolInt v)) ++
  info.password.toList.map (Change.text .password) ++
  info.address.toList.map (fun v => Change.text .address (iconv v)) ++
  info.phone.toList.map (fun v => Change.text .phone (iconv v)) ++
  info.email.toList.map (fun v => Change.text .email (iconv v)) ++
  info.cash.toList.map (Change.cash false) ++
  info.creditexpire.toList.map (fun v => Change.creditExpire v.toInt) ++
  info.credit.toList.map Change.credit ++ info.freemb.toList.map Change.freeMb ++
  info.down.toList.map (fun v => Change.disabled (boolInt v)) ++
  info.passive.toList.map (fun v => Change.passive (boolInt v)) ++
  info.disableddetailstat.toList.map (fun v => Change.disabledDetailStat (boolInt v)) ++
  info.name.toList.map (fun v => Change.text .realName (iconv v)) ++
  info.group.toList.map (fun v => Change.text .group (iconv v)) ++
  info.note.toList.map (fun v => Change.text .note (iconv v)) ++
  info.userdata.toList.flatMap (fun v =>
    (List.finRange 10).map fun i => Change.text (.userdata i) (iconv (v i))) ++
  info.mu.toList.map (fun data => Change.up (readMonth errno.mu data)) ++
  info.md.toList.map (fun data => Change.down (readMonth errno.md data))

/-- The text before the first slash, and the one behind it. -/
def splitTariff (text : String) : String × String :=
  (String.ofList (text.toList.takeWhile (· ≠ '/')),
    String.ofList ((text.toList.dropWhile (· ≠ '/')).drop 1))

/-- The change of the tariff; `none` where the null pointer of a user without a tariff is
followed. -/
def setTariffName (env : Env) (priv : Priv) (tariff : String) (u : UserRecord) :
    Option (Bool × UserRecord) :=
  match env.tariffs tariff with
  | none => some (true, u)
  | some newTariff =>
    match u.user.tariff with
    | none => none
    | some currentTariff =>
      if currentTariff.tariffChangeIsAllowed newTariff env.time = "" then
        if u.user.tariffName ≠ tariff then
          if (Change.tariffName tariff).maySet priv then
            some (true, { u with user := u.user.setTariffName env tariff })
          else some (false, u)
        else some (true, u)
      else some (true, u)

/-- The change of the tariff that is to follow.  What is set is the tariff before the slash. -/
def setNextTariff (env : Env) (priv : Priv) (tariff nextTariff : String) (u : UserRecord) :
    Bool × UserRecord :=
  if nextTariff ≠ "" ∧ (env.tariffs nextTariff).isSome ∧ u.user.nextTariff ≠ nextTariff then
    if (Change.nextTariff tariff).maySet priv then
      (true, { u with user := { u.user with nextTariff := tariff } })
    else (false, u)
  else (true, u)

/-- The member `tariff`. -/
def setTariff (env : Env) (priv : Priv) (text : String) (u : UserRecord) :
    Option (Bool × UserRecord) :=
  match setTariffName env priv (splitTariff text).1 u with
  | none => none
  | some (false, u) => some (false, u)
  | some (true, u) => some (setNextTariff env priv (splitTariff text).1 (splitTariff text).2 u)

/-- The test that a user who is always online has one address. -/
def leadsToForbidden (aonline : Option Bool) (ips : Option UserIPs) (u : UserRecord) : Bool :=
  let check := aonline.isSome || ips.isSome
  let alwaysOnline := aonline.getD (u.alwaysOnline != 0)
  let onlyOneIP := (ips.getD u.user.ips).onlyOneIP
  check && alwaysOnline && !onlyOneIP

/-- The test that another user has one of the addresses. -/
def inUse (shifted : BitVec 32) (s : UserList) (login : String) (ips : Option UserIPs) : Bool :=
  ips.any fun ips => List.any ips fun im => s.isIPInUse shifted im.ip login

/-- `USER_HELPER::SetUserInfo` for a user of the list: `true` where it returns `false`, and the
user. -/
def setUserInfo (env : Env) (priv : Priv) (iconv : String → String) (errno : InfoErrno) (login : String)
    (info : UserInfo) (s : UserList) (i : Fin s.users.length) : Option (Bool × UserRecord) :=
  match info.ips.mapM (firstIPs env.shifted errno) with
  | none => none
  | some first =>
    if leadsToForbidden info.aonline first (s.users.get i) then some (false, (s.users.get i))
    else
      match info.ips.mapM (secondIPs env.shifted errno) with
      | none => none
      | some ips =>
        if inUse env.shifted s login ips then some (false, (s.users.get i))
        else
          match setAllNew env priv (s.users.get i) (fields iconv errno ips info) with
          | (false, u) => some (false, u)
          | (true, u) =>
            match info.tariff with
            | none => some (true, u)
            | some text => setTariff env priv text u

/-! ### What is read -/

/-- **The addresses that are read again** are the first of those that were read at first. -/
theorem exists_secondIPs {shifted : BitVec 32} {errno : InfoErrno} {text : String} {ips : UserIPs}
    (h : firstIPs shifted errno text = some ips) :
    ∃ ips', secondIPs shifted errno text = some ips' ∧ ips' <+: ips :=
  UserIPs.exists_parse_again h _ fun herange => UserIPs.parseErrno_of_erange herange _

/-- Of the first addresses none is in use if none of all is. -/
theorem inUse_of_prefix {shifted : BitVec 32} {s : UserList} {login : String} {ips ips' : UserIPs}
    (hpre : ips' <+: ips) (h : inUse shifted s login (some ips) = false) :
    inUse shifted s login (some ips') = false := by
  rw [inUse, Option.any_some, List.any_eq_false] at h ⊢
  exact fun im him => h im (hpre.subset him)

/-- The counters are read up to the first that is out of range. -/
theorem readCounters_of_inRange {data : List String} {n : ℕ}
    (h : ∀ text ∈ data.take (n + 1), IsTime (CString.scanLong text.toList).1) :
    ((readCounters false data)[n]?).join =
      (data[n]?).map fun text => BitVec.ofInt 64 (CString.scanLong text.toList).1 := by
  induction data generalizing n with
  | nil => rfl
  | cons text data ih =>
    rw [List.take_succ_cons, List.forall_mem_cons] at h
    rw [readCounters, str2x_eq, if_neg (not_or.2 ⟨not_not.2 h.1, Bool.false_ne_true⟩)]
    cases n with
    | zero => rfl
    | succ n => exact ih h.2

/-- Once `errno` is `ERANGE` none is read. -/
theorem readCounters_of_erange (data : List String) (n : ℕ) :
    ((readCounters true data)[n]?).join = none := by
  induction data generalizing n with
  | nil => rfl
  | cons text data ih =>
    rw [readCounters, str2x_eq, if_pos (.inr rfl)]
    cases n with
    | zero => rfl
    | succ n => exact ih n

/-- Neither the first that is out of range is read nor one behind it. -/
theorem readCounters_of_outOfRange {isRange : Bool} {data : List String} {n : ℕ}
    (h : ∃ text ∈ data.take (n + 1), ¬ IsTime (CString.scanLong text.toList).1) :
    ((readCounters isRange data)[n]?).join = none := by
  induction data generalizing isRange n with
  | nil => rfl
  | cons text data ih =>
    rw [List.take_succ_cons, List.exists_mem_cons_iff] at h
    rw [readCounters]
    by_cases htime : IsTime (CString.scanLong text.toList).1
    · cases n with
      | zero => simp [htime] at h
      | succ n => exact ih (h.resolve_left (not_not.2 htime))
    · rw [str2x_eq, if_pos (.inl htime)]
      cases n with
      | zero => rfl
      | succ n => exact readCounters_of_erange data n

end UserHelper

/-! ## What both interfaces know -/

/-- A change that both interfaces know.  The texts but for the password are of a character set that
both share, the ten texts of the userdata come together, and the name of the tariff has no slash,
which ends it for one of them. -/
structure UserChange where
  /-- The text of the addresses. -/
  ips : String
  alwaysOnline : Option Bool := none
  text : TextProp → Option String := fun _ => none
  creditExpire : Option (BitVec 32) := none
  disabled : Option Bool := none
  passive : Option Bool := none
  disabledDetailStat : Option Bool := none
  /-- The counters of the first directions. -/
  up : Option (List (BitVec 64)) := none
  /-- The counters of the first directions. -/
  down : Option (List (BitVec 64)) := none
  /-- The tariff, and the one that is to follow. -/
  tariff : Option (String × Option String) := none
  ascii : ∀ p v, p ≠ .password → text p = some v → ∀ c ∈ v.toList, c.toNat < 128 := by
    intro p v _ h
    cases h
  userdata : ∀ i, (text (.userdata i)).isSome = (text (.userdata 0)).isSome := by
    intro _
    rfl
  slash : ∀ t n, tariff = some (t, n) → '/' ∉ t.toList := by
    intro t n h
    cases h

namespace UserChange

open UserHelper

/-- The request of `SetUser`, with the addresses that have been read. -/
def toChgUser (c : UserChange) (ips : UserIPs) (login : String) : ChgUser where
  login := login
  ips := some ips
  alwaysOnline := c.alwaysOnline.map boolInt
  text := c.text
  creditExpire := c.creditExpire.map BitVec.toInt
  disabled := c.disabled.map boolInt
  disabledDetailStat := c.disabledDetailStat.map boolInt
  passive := c.passive.map boolInt
  tariffName := c.tariff.map Prod.fst
  nextTariff := c.tariff.bind Prod.snd
  up := fun i => c.up.bind fun data => data[i.val]?
  down := fun i => c.down.bind fun data => data[i.val]?

/-- A counter as a text. -/
def printMonth (v : BitVec 64) : String := String.ofList (CString.printInt v.toNat)

/-- The structure of `chg_user`. -/
def toInfo (c : UserChange) : UserInfo where
  aonline := c.alwaysOnline
  ips := some c.ips
  password := c.text .password
  address := c.text .address
  phone := c.text .phone
  email := c.text .email
  creditexpire := c.creditExpire
  down := c.disabled
  passive := c.passive
  disableddetailstat := c.disabledDetailStat
  name := c.text .realName
  group := c.text .group
  note := c.text .note
  userdata :=
    if (c.text (.userdata 0)).isSome then some fun i => (c.text (.userdata i)).getD "" else none
  mu := c.up.map (List.map printMonth)
  md := c.down.map (List.map printMonth)
  tariff := c.tariff.map fun t => t.2.elim t.1 fun n => t.1 ++ "/" ++ n

/-- Both interfaces, for an administrator who may do everything: the same verdict, and the same
properties of all users.  Both find the same `errno` when they read the addresses. -/
def Agree (env : Env) (iconv : String → String) (errno : InfoErrno) (login : String) (c : UserChange)
    (s : UserList) (i : Fin s.users.length) : Prop :=
  ((firstIPs env.shifted errno c.ips).bind fun ips =>
      (s.applyChanges env Priv.full (c.toChgUser ips login)).map
        fun r => (r.1, r.2.users.map UserRecord.properties)) =
    (setUserInfo env Priv.full iconv errno login c.toInfo s i).map
      fun r => (r.1, (s.users.map UserRecord.properties).set i r.2.properties)

/-- The change is not turned down by `SetUserInfo` at the beginning; `ips` are the addresses that it reads
at first, and `ips'` those that it reads again. -/
structure Passes (env : Env) (errno : InfoErrno) (login : String) (c : UserChange) (s : UserList)
    (i : Fin s.users.length) (ips ips' : UserIPs) : Prop where
  first : firstIPs env.shifted errno c.ips = some ips
  second : secondIPs env.shifted errno c.ips = some ips'
  allowed : leadsToForbidden c.alwaysOnline (some ips) (s.users.get i) = false
  free : inUse env.shifted s login (some ips') = false

/-- May a user with a tariff change to another one? -/
def mayChange (env : Env) (tariff : Option TariffImpl) (name : String) : Bool :=
  tariff.any fun old => (env.tariffs name).any fun new =>
    old.tariffChangeIsAllowed new env.time == ""

/-- A counter is read: `errno` is not `ERANGE` before, and neither it nor one before it is out of the
range of `int64_t`. -/
def Reads (isRange : Bool) (data : List (BitVec 64)) (i : Dir) : Prop :=
  isRange = false ∧ ∀ v ∈ data.take (i.val + 1), v.toNat < 2 ^ 63

instance (isRange : Bool) (data : List (BitVec 64)) (i : Dir) : Decidable (Reads isRange data i) :=
  inferInstanceAs (Decidable (_ ∧ _))

/-- What a change must be like for both interfaces to make the same of it: the counters are read, or the
user has them already; a tariff that may be changed to comes without one that is to follow only if none
was to follow before; and one that is to follow was to follow before already, or is the tariff itself. -/
structure Harmless (env : Env) (errno : InfoErrno) (c : UserChange) (tariff : Option TariffImpl)
    (p : UserProperties) : Prop where
  up : ∀ data, c.up = some data → ∀ (i : Dir) v, data[i.val]? = some v →
    Reads errno.mu data i ∨ v = p.up i
  down : ∀ data, c.down = some data → ∀ (i : Dir) v, data[i.val]? = some v →
    Reads errno.md data i ∨ v = p.down i
  alone : ∀ t, c.tariff = some (t, none) → mayChange env tariff t = true → p.nextTariff = ""
  followed : ∀ t n, c.tariff = some (t, some n) → p.nextTariff = n ∨ (n = t ∧ n ≠ "")

/-! ## A property that has its value already -/

/-- The properties that are compared exactly, and of which none is a tariff. -/
def Exact : Change → Bool
  | .credit _ | .freeMb _ | .cash _ _ | .tariffName _ | .nextTariff _ => false
  | _ => true

section Fields

variable (env : Env) (tariff : Option TariffImpl)

/-- A property that has its value already may as well be set. -/
theorem update_of_unchanged {u : UserRecord} {c : Change} (hc : Exact c = true)
    (h : unchanged u c = true) : c.update env tariff u.properties = u.properties := by
  cases c with
  | ips v => simp [unchanged] at h
  | up v => simp [unchanged] at h
  | down v => simp [unchanged] at h
  | credit v => simp [Exact] at hc
  | freeMb v => simp [Exact] at hc
  | cash b v => simp [Exact] at hc
  | tariffName v => simp [Exact] at hc
  | nextTariff v => simp [Exact] at hc
  | alwaysOnline v =>
    obtain rfl : u.alwaysOnline = v := by simpa [unchanged] using h
    rfl
  | creditExpire v =>
    obtain rfl : u.user.creditExpire = v := by simpa [unchanged] using h
    rfl
  | disabled v =>
    obtain rfl : u.user.disabled = v := by simpa [unchanged] using h
    rfl
  | disabledDetailStat v =>
    obtain rfl : u.disabledDetailStat = v := by simpa [unchanged] using h
    rfl
  | passive v =>
    -- nobody is charged who is passive already
    obtain rfl : u.user.passive = v := by simpa [unchanged] using h
    change (Change.passive u.properties.passive).update env tariff u.properties = _
    have hnot : ¬(u.properties.passive ≠ 0 ∧ u.properties.passive = 0) := fun h => h.1 h.2
    cases tariff with
    | none => rfl
    | some t => simp only [Change.update, if_neg hnot]
  | text p v =>
    obtain rfl : u.text p = v := by simpa [unchanged] using h
    change (Change.text p (u.properties.text p)).update env tariff u.properties = _
    simp only [Change.update, Function.update_eq_self]

/-- **The properties but for the tariff**: none of them is refused, and they are what they are after
all of them have been set. -/
theorem setAllNew_full {l : List Change} (hl : ∀ c ∈ l, Exact c = true) (u : UserRecord) :
    (setAllNew env Priv.full u l).1 = true ∧
      (setAllNew env Priv.full u l).2.user.tariff = u.user.tariff ∧
      (setAllNew env Priv.full u l).2.properties =
        updateAll env u.user.tariff u.properties l := by
  induction l generalizing u with
  | nil => exact ⟨rfl, rfl, rfl⟩
  | cons c l ih =>
    have hc := hl c List.mem_cons_self
    have hrank : c.rank ≠ 26 := by
      intro h
      obtain ⟨v, rfl⟩ := Change.rank_eq_tariffName h
      cases hc
    have hmay : c.maySet Priv.full = true := Priv.maySet_full _ _ _
    by_cases hsame : unchanged u c = true
    · have hupdate := update_of_unchanged env u.user.tariff hc hsame
      have hset : setNew env Priv.full u c = (true, u) := by simp [setNew, hsame]
      obtain ⟨h1, h2, h3⟩ := ih (fun d hd => hl d (List.mem_cons_of_mem c hd)) u
      simp only [setAllNew, hset, updateAll, List.foldl_cons, hupdate]
      exact ⟨h1, h2, h3⟩
    · have hset : setNew env Priv.full u c = (true, c.set env u) := by simp [setNew, hsame, hmay]
      have htariff := Change.tariff_set env u hrank
      obtain ⟨h1, h2, h3⟩ := ih (fun d hd => hl d (List.mem_cons_of_mem c hd)) (c.set env u)
      rw [htariff] at h2 h3
      rw [Change.properties_set] at h3
      simp only [setAllNew, hset, updateAll, List.foldl_cons]
      exact ⟨h1, h2, h3⟩

end Fields

/-! ## The counters -/

/-- What is read of a printed counter. -/
theorem scanLong_printMonth (v : BitVec 64) :
    (CString.scanLong (printMonth v).toList).1 = v.toNat := by
  rw [printMonth, String.toList_ofList, CString.scanLong_printInt]

/-- A printed counter is in range if it is one of `int64_t`. -/
theorem isTime_printMonth_iff (v : BitVec 64) :
    IsTime (CString.scanLong (printMonth v).toList).1 ↔ v.toNat < 2 ^ 63 := by
  rw [scanLong_printMonth]
  unfold IsTime
  omega

/-- **The counters that are read** of those that are sent. -/
theorem readMonth_printMonth (isRange : Bool) (data : List (BitVec 64)) (i : Dir) :
    readMonth isRange (data.map printMonth) i = if Reads isRange data i then data[i.val]? else none := by
  have hvalue (v : BitVec 64) : BitVec.ofInt 64 (CString.scanLong (printMonth v).toList).1 = v := by
    rw [scanLong_printMonth, BitVec.ofInt_natCast, BitVec.ofNat_toNat, BitVec.setWidth_eq]
  rw [readMonth]
  cases isRange with
  | true => rw [readCounters_of_erange, if_neg fun h => by cases h.1]
  | false =>
    by_cases hrange : ∀ v ∈ data.take (i.val + 1), v.toNat < 2 ^ 63
    · rw [if_pos ⟨rfl, hrange⟩, readCounters_of_inRange, List.getElem?_map, Option.map_map,
        Function.comp_def]
      · simp only [hvalue, Option.map_id']
      · rw [← List.map_take, List.forall_mem_map]
        exact fun v hv => (isTime_printMonth_iff v).2 (hrange v hv)
    · rw [if_neg fun h => hrange h.2, readCounters_of_outOfRange]
      push Not at hrange
      obtain ⟨v, hv, hlarge⟩ := hrange
      refine ⟨printMonth v, ?_, fun h => Nat.not_lt.2 hlarge ((isTime_printMonth_iff v).1 h)⟩
      rw [← List.map_take]
      exact List.mem_map_of_mem hv

/-- The counters that are read are the right ones exactly if the others are there already. -/
theorem mergeDirs_readMonth_iff (isRange : Bool) (o : Option (List (BitVec 64))) (old : DirTraff) :
    (mergeDirs (fun i => o.bind fun data => data[i.val]?) old =
        mergeDirs (fun i => o.bind fun data => readMonth isRange (data.map printMonth) i) old) ↔
      ∀ data, o = some data → ∀ (i : Dir) v, data[i.val]? = some v →
        Reads isRange data i ∨ v = old i := by
  cases o with
  | none => simp
  | some data =>
    rw [funext_iff]
    constructor
    · intro h data' hdata i v hv
      obtain rfl := Option.some.inj hdata
      have hi := h i
      simp only [mergeDirs, Option.bind_some, readMonth_printMonth, hv] at hi
      by_cases hreads : Reads isRange data i
      · exact .inl hreads
      · rw [if_neg hreads] at hi
        exact .inr hi
    · intro h i
      simp only [mergeDirs, Option.bind_some, readMonth_printMonth]
      by_cases hreads : Reads isRange data i
      · rw [if_pos hreads]
      · rw [if_neg hreads]
        cases hv : data[i.val]? with
        | none => rfl
        | some v => exact (h data rfl i v hv).resolve_left hreads

/-! ## The properties but for the tariff -/

section Outcome

variable {iconv : String → String}
  (hiconv : ∀ v : String, (∀ c ∈ v.toList, c.toNat < 128) → iconv v = v)
  (env : Env) (errno : InfoErrno) (ips : UserIPs) (login : String) (c : UserChange)

/-- What arrives by XML-RPC, but for the tariff: the counters that are not read are missing. -/
def received : ChgUser :=
  { c.toChgUser ips login with
    tariffName := none
    nextTariff := none
    up := fun i => c.up.bind fun data => readMonth errno.mu (data.map printMonth) i
    down := fun i => c.down.bind fun data => readMonth errno.md (data.map printMonth) i }

include hiconv in
/-- A text of the shared character set is sent as it is. -/
theorem textChange_eq {p : TextProp} (hp : p ≠ .password) :
    (c.text p).toList.map (fun v => Change.text p (iconv v)) = (c.received errno ips login).textChange p := by
  cases h : c.text p with
  | none => simp [ChgUser.textChange, received, toChgUser, h]
  | some v => simp [ChgUser.textChange, received, toChgUser, h, hiconv v (c.ascii p v hp h)]

include hiconv in
/-- So are the userdata. -/
theorem userdata_eq :
    (c.toInfo.userdata.toList.flatMap fun v =>
        (List.finRange 10).map fun i => Change.text (.userdata i) (iconv (v i))) =
      (List.finRange 10).flatMap fun i => (c.received errno ips login).textChange (.userdata i) := by
  by_cases hsome : (c.text (.userdata 0)).isSome = true
  · have hall : ∀ i, ∃ v, c.text (.userdata i) = some v := fun i =>
      Option.isSome_iff_exists.1 ((c.userdata i).trans hsome)
    have hone : ∀ i, (c.received errno ips login).textChange (.userdata i) =
        [Change.text (.userdata i) (iconv ((c.text (.userdata i)).getD ""))] := by
      intro i
      obtain ⟨v, hv⟩ := hall i
      rw [← textChange_eq hiconv errno ips login c (by simp), hv]
      rfl
    simp only [toInfo, if_pos hsome, Option.toList_some, List.flatMap_singleton, hone]
    exact List.map_eq_flatMap
  · have hnone : ∀ i, (c.received errno ips login).textChange (.userdata i) = [] := by
      intro i
      have hi : c.text (.userdata i) = none := by
        rw [← Option.not_isSome_iff_eq_none, c.userdata i]
        exact hsome
      simp [ChgUser.textChange, received, toChgUser, hi]
    simp [toInfo, hsome, hnone]

/-- The counters of the month, up. -/
theorem updateAll_mu (tariff : Option TariffImpl) (p : UserProperties) :
    updateAll env tariff p (c.toInfo.mu.toList.map fun data => Change.up (readMonth errno.mu data)) =
      { p with up := mergeDirs (c.received errno ips login).up p.up } := by
  cases h : c.up with
  | none =>
    have hmerge : mergeDirs (c.received errno ips login).up p.up = p.up := by
      funext i
      simp [received, h, mergeDirs]
    simp [hmerge, toInfo, h, updateAll]
  | some data => simp [toInfo, received, h, updateAll, Change.update]

/-- The counters of the month, down. -/
theorem updateAll_md (tariff : Option TariffImpl) (p : UserProperties) :
    updateAll env tariff p (c.toInfo.md.toList.map fun data => Change.down (readMonth errno.md data)) =
      { p with down := mergeDirs (c.received errno ips login).down p.down } := by
  cases h : c.down with
  | none =>
    have hmerge : mergeDirs (c.received errno ips login).down p.down = p.down := by
      funext i
      simp [received, h, mergeDirs]
    simp [hmerge, toInfo, h, updateAll]
  | some data => simp [toInfo, received, h, updateAll, Change.update]

/-- The properties of a request in the order of `SetUserInfo`, but for the counters. -/
def inOrder (req : ChgUser) : List Change :=
  req.ips.toList.map .ips ++ req.alwaysOnline.toList.map .alwaysOnline ++
  req.textChange .password ++ req.textChange .address ++ req.textChange .phone ++
  req.textChange .email ++ req.creditExpire.toList.map .creditExpire ++
  req.disabled.toList.map .disabled ++ req.passive.toList.map .passive ++
  req.disabledDetailStat.toList.map .disabledDetailStat ++ req.textChange .realName ++
  req.textChange .group ++ req.textChange .note ++
  (List.finRange 10).flatMap (fun i => req.textChange (.userdata i))

include hiconv in
/-- What `SetUserInfo` sets, but for the tariff, is what has arrived. -/
theorem fields_eq :
    fields iconv errno (some ips) c.toInfo = inOrder (c.received errno ips login) ++
      c.toInfo.mu.toList.map (fun data => Change.up (readMonth errno.mu data)) ++
      c.toInfo.md.toList.map (fun data => Change.down (readMonth errno.md data)) := by
  have hmap : ∀ {α β : Type} (o : Option α) (g : α → β) (f : β → Change),
      o.toList.map (fun v => f (g v)) = (o.map g).toList.map f := by
    rintro α β (_ | v) g f <;> rfl
  have htext := fun (p : TextProp) (hp : p ≠ .password) => textChange_eq hiconv errno ips login c hp
  have hnone : c.toInfo.cash = none ∧ c.toInfo.credit = none ∧ c.toInfo.freemb = none :=
    ⟨rfl, rfl, rfl⟩
  rw [inOrder, ← userdata_eq hiconv errno ips login c, ← htext .address (by simp), ← htext .phone (by simp),
    ← htext .email (by simp), ← htext .realName (by simp), ← htext .group (by simp),
    ← htext .note (by simp)]
  delta fields
  simp only [hnone, hmap c.toInfo.aonline, hmap c.toInfo.creditexpire, hmap c.toInfo.down,
    hmap c.toInfo.passive, hmap c.toInfo.disableddetailstat, Option.toList_none, List.map_nil,
    List.append_nil]
  rfl

/-- The properties after a request without money, in the order of `SetUserInfo`. -/
theorem updateAll_inOrder (tariff : Option TariffImpl) (req : ChgUser) (p : UserProperties) :
    updateAll env tariff p (inOrder req) =
      { req.outcome env tariff p with
        cash := req.cashPassive tariff p
        up := p.up
        down := p.down
        lastCashAdd :=
          if req.charged tariff p then req.cashPassive tariff p - p.cash else p.lastCashAdd
        lastCashAddTime := if req.charged tariff p then env.stgTime else p.lastCashAddTime
        freeMb := p.freeMb
        tariffName := p.tariffName
        nextTariff := p.nextTariff
        credit := p.credit } := by
  have happend : ∀ {p q r : UserProperties} {l l' : List Change}, updateAll env tariff p l = q →
      updateAll env tariff q l' = r → updateAll env tariff p (l ++ l') = r :=
    fun h h' => updateAll_append env tariff _ h h'
  have hips := fun p => updateAll_option env tariff p req.ips .ips
    (fun p v => { p with ips := v }) UserProperties.ips (fun _ _ => rfl) (fun _ => rfl)
  have halwaysOnline := fun p => updateAll_option env tariff p req.alwaysOnline .alwaysOnline
    (fun p v => { p with alwaysOnline := v }) UserProperties.alwaysOnline
    (fun _ _ => rfl) (fun _ => rfl)
  have hcreditExpire := fun p => updateAll_option env tariff p req.creditExpire .creditExpire
    (fun p v => { p with creditExpire := v }) UserProperties.creditExpire
    (fun _ _ => rfl) (fun _ => rfl)
  have hdisabled := fun p => updateAll_option env tariff p req.disabled .disabled
    (fun p v => { p with disabled := v }) UserProperties.disabled (fun _ _ => rfl) (fun _ => rfl)
  have hdisabledDetailStat := fun p => updateAll_option env tariff p req.disabledDetailStat
    .disabledDetailStat (fun p v => { p with disabledDetailStat := v })
    UserProperties.disabledDetailStat (fun _ _ => rfl) (fun _ => rfl)
  have huserdata : ∀ p, updateAll env tariff p
      ((List.finRange 10).flatMap fun i => req.textChange (.userdata i)) = _ := fun p =>
    (congrArg _ (List.flatMap_map TextProp.userdata _ _).symm).trans
      (updateAll_texts env tariff p req ((List.finRange 10).map .userdata))
  have htext := fun f p => updateAll_text env tariff p req f
  refine (happend (happend (happend (happend (happend (happend (happend (happend (happend (happend
    (happend (happend (happend
    (hips p) (halwaysOnline _)) (htext _ _)) (htext _ _)) (htext _ _)) (htext _ _))
    (hcreditExpire _)) (hdisabled _)) (updateAll_passive env tariff _ req))
    (hdisabledDetailStat _)) (htext _ _)) (htext _ _)) (htext _ _)) (huserdata _)).trans ?_
  refine UserProperties.ext rfl rfl rfl rfl rfl rfl rfl rfl rfl rfl rfl rfl rfl rfl rfl rfl rfl
    (funext fun f => ?_)
  cases f <;> simp [ChgUser.outcome]

include hiconv in
/-- **The properties after `SetUserInfo`, but for the tariff**, are those after the request that has
arrived. -/
theorem updateAll_fields (tariff : Option TariffImpl) (p : UserProperties) :
    updateAll env tariff p (fields iconv errno (some ips) c.toInfo) =
      (c.received errno ips login).outcome env tariff p := by
  rw [fields_eq hiconv errno ips login c, updateAll_append env tariff p
    (updateAll_append env tariff p (updateAll_inOrder env tariff (c.received errno ips login) p)
      (updateAll_mu env errno ips login c tariff _)) (updateAll_md env errno ips login c tariff _)]
  rfl

end Outcome

/-! ## The tariff -/

section Tariff

variable (env : Env) (errno : InfoErrno) (ips : UserIPs) (login : String) (c : UserChange)

/-- The request of `SetUser` without a tariff that may not be changed to. -/
def effective (tariff : Option TariffImpl) : ChgUser :=
  { c.toChgUser ips login with
    tariffName := (c.toChgUser ips login).tariffName.filter (mayChange env tariff) }

/-- The properties after `SetUserInfo`. -/
def rpcOutcome (tariff : Option TariffImpl) (p : UserProperties) : UserProperties :=
  { (c.received errno ips login).outcome env tariff p with
    tariffName :=
      match c.tariff with
      | none => p.tariffName
      | some (t, _) => if mayChange env tariff t then t else p.tariffName
    nextTariff :=
      match c.tariff with
      | some (t, some n) => if n ≠ "" ∧ p.nextTariff ≠ n then t else p.nextTariff
      | _ => p.nextTariff }

/-- The changes before that of the tariff. -/
def beforeTariff (req : ChgUser) : List Change :=
  req.ips.toList.map Change.ips ++ req.alwaysOnline.toList.map Change.alwaysOnline ++
  req.textChange .address ++ req.creditExpire.toList.map Change.creditExpire ++
  req.credit.toList.map Change.credit ++ req.freeMb.toList.map Change.freeMb ++
  req.disabled.toList.map Change.disabled ++ req.disabledDetailStat.toList.map Change.disabledDetailStat ++
  req.textChange .email ++ req.textChange .group ++ req.textChange .note ++
  (List.finRange 10).flatMap (fun i => req.textChange (.userdata i)) ++
  req.passive.toList.map Change.passive ++ req.textChange .password ++ req.textChange .phone ++
  req.textChange .realName ++ req.cash.toList.map (Change.cash req.cashMustBeAdded)

/-- The changes behind it. -/
def afterTariff (req : ChgUser) : List Change :=
  req.nextTariff.toList.map Change.nextTariff ++
  ((if ∃ i, (req.up i).isSome then [Change.up req.up] else []) ++
  (if ∃ i, (req.down i).isSome then [Change.down req.down] else []))

theorem changes_eq (req : ChgUser) :
    req.changes = beforeTariff req ++ (req.tariffName.toList.map .tariffName ++ afterTariff req) := by
  change beforeTariff req ++ req.tariffName.toList.map Change.tariffName ++
    req.nextTariff.toList.map Change.nextTariff ++
    (if ∃ i, (req.up i).isSome then [Change.up req.up] else []) ++
    (if ∃ i, (req.down i).isSome then [Change.down req.down] else []) = _
  rw [afterTariff, List.append_assoc, List.append_assoc, List.append_assoc]

/-- The other changes are not of the tariff. -/
theorem rank_ne_tariffName {req : ChgUser} {d : Change}
    (h : d ∈ beforeTariff req ∨ d ∈ afterTariff req) : d.rank ≠ 26 := by
  have hsorted := sorted_changes { req with tariffName := some "" }
  rw [changes_eq] at hsorted
  obtain ⟨-, hrest, hbefore⟩ := List.pairwise_append.1 hsorted
  rcases h with h | h
  · exact Nat.ne_of_lt (hbefore d h (.tariffName "") (by simp))
  · exact Nat.ne_of_gt ((List.pairwise_cons.1 hrest).1 d h)

/-- The changes that are made: all of them, but for a tariff that may not be changed to. -/
theorem made_changes {tariff : Option TariffImpl}
    (hnames : ∀ t n, c.tariff = some (t, n) → (env.tariffs t).isSome ∧
      ∀ n', n = some n' → (env.tariffs n').isSome)
    (htariff : c.tariff.isSome → tariff.isSome) :
    (∀ d ∈ (c.toChgUser ips login).changes, d.verdict env Priv.full tariff = .set ∨
        d.verdict env Priv.full tariff = .skip) ∧
      Change.made env Priv.full tariff (c.toChgUser ips login).changes =
        (c.effective env ips login tariff).changes := by
  have hmay : ∀ d : Change, d.maySet Priv.full = true := fun d => Priv.maySet_full _ _ _
  -- a change that is not of the tariff is made
  have hother : ∀ d ∈ beforeTariff (c.toChgUser ips login) ++ afterTariff (c.toChgUser ips login),
      d.verdict env Priv.full tariff = .set := by
    intro d hd
    have hrank := rank_ne_tariffName (List.mem_append.1 hd)
    cases d with
    | tariffName t => exact absurd rfl hrank
    | nextTariff n =>
      have hmem : Change.nextTariff n ∈ (c.toChgUser ips login).changes := by
        rw [changes_eq]
        rcases List.mem_append.1 hd with hd | hd
        · exact List.mem_append_left _ hd
        · exact List.mem_append_right _ (List.mem_append_right _ hd)
      obtain ⟨⟨t, n'⟩, ht, hn⟩ := Option.bind_eq_some_iff.1 (nextTariff_of_mem_changes hmem)
      simp only [Change.verdict, (hnames t n' ht).2 n hn, hmay, if_true]
    | _ => simp [Change.verdict, hmay]
  have hfilter : ∀ l, (∀ d ∈ l, d.verdict env Priv.full tariff = .set) →
      Change.made env Priv.full tariff l = l := fun l hl =>
    List.filter_eq_self.2 fun d hd => by simpa using hl d hd
  have hbefore := hfilter _ fun d hd => hother d (List.mem_append_left _ hd)
  have hafter := hfilter _ fun d hd => hother d (List.mem_append_right _ hd)
  have hsplit : ∀ l l', Change.made env Priv.full tariff (l ++ l') =
      Change.made env Priv.full tariff l ++ Change.made env Priv.full tariff l' := fun l l' =>
    List.filter_append ..
  have hverdict : ∀ t, (c.toChgUser ips login).tariffName = some t →
      (Change.tariffName t).verdict env Priv.full tariff =
        if mayChange env tariff t then .set else .skip := by
    intro t ht
    obtain ⟨⟨t', n⟩, hct, rfl⟩ := Option.map_eq_some_iff.1 ht
    obtain ⟨old, rfl⟩ := Option.isSome_iff_exists.1 (htariff (by simp [hct]))
    obtain ⟨new, hnew⟩ := Option.isSome_iff_exists.1 (hnames t' n hct).1
    simp [Change.verdict, mayChange, hnew, hmay]
  have hmade : Change.made env Priv.full tariff
      ((c.toChgUser ips login).tariffName.toList.map .tariffName) =
        (c.effective env ips login tariff).tariffName.toList.map .tariffName := by
    cases ht : (c.toChgUser ips login).tariffName with
    | none => simp [effective, ht, Change.made]
    | some t =>
      have hv := hverdict t ht
      have heffective : (c.effective env ips login tariff).tariffName =
          (some t).filter (mayChange env tariff) := congrArg (Option.filter _) ht
      rw [heffective]
      cases hm : mayChange env tariff t <;> simp [Option.filter, Change.made, hv, hm]
  rw [changes_eq (c.effective env ips login tariff), changes_eq (c.toChgUser ips login), hsplit, hsplit,
    hbefore, hafter, hmade]
  refine ⟨fun d hd => ?_, rfl⟩
  rcases List.mem_append.1 hd with hd | hd
  · exact .inl (hother d (List.mem_append_left _ hd))
  · rcases List.mem_append.1 hd with hd | hd
    · obtain ⟨t, ht, rfl⟩ := List.mem_map.1 hd
      rw [hverdict t (Option.mem_toList.1 ht)]
      split_ifs <;> simp
    · exact .inl (hother d (List.mem_append_right _ hd))

/-- A user without a tariff cannot be moved to another one. -/
theorem applyAll_crash {l : List Change} (u : UserRecord) (hu : u.user.tariff = none)
    (hl : ∀ d ∈ l, d.verdict env Priv.full none = .set ∨ d.verdict env Priv.full none = .crash)
    (hcrash : ∃ d ∈ l, d.verdict env Priv.full none = .crash) :
    applyAll env Priv.full u l = none := by
  induction l generalizing u with
  | nil => simp at hcrash
  | cons d l ih =>
    rcases hl d List.mem_cons_self with hd | hd
    · have hrank : d.rank ≠ 26 := by
        intro h
        obtain ⟨t, rfl⟩ := Change.rank_eq_tariffName h
        simp only [Change.verdict] at hd
        split at hd <;> cases hd
      have hrest : ∃ d' ∈ l, d'.verdict env Priv.full none = .crash := by
        obtain ⟨d', hd', hv⟩ := hcrash
        rcases List.mem_cons.1 hd' with rfl | hd'
        · rw [hd] at hv
          cases hv
        · exact ⟨d', hd', hv⟩
      simp only [applyAll, Change.apply, hu, hd]
      exact ih (d.set env u) ((Change.tariff_set env u hrank).trans hu)
        (fun d' hd' => hl d' (List.mem_cons_of_mem d hd')) hrest
    · simp only [applyAll, Change.apply, hu, hd]

/-! ## The tariff by XML-RPC -/

/-- A text without a slash is the name of the tariff. -/
theorem splitTariff_of_notMem {t : String} (h : '/' ∉ t.toList) : splitTariff t = (t, "") := by
  have hne : ∀ x ∈ t.toList, decide (x ≠ '/') = true := fun x hx =>
    decide_eq_true fun heq => h (heq ▸ hx)
  have htake : t.toList.takeWhile (· ≠ '/') = t.toList := List.takeWhile_eq_self_iff.2 hne
  have hdrop : t.toList.dropWhile (· ≠ '/') = [] := List.dropWhile_eq_nil_iff.2 hne
  rw [splitTariff, htake, hdrop]
  simp

/-- What is behind the first slash is the tariff that is to follow. -/
theorem splitTariff_append {t : String} (h : '/' ∉ t.toList) (n : String) :
    splitTariff (t ++ "/" ++ n) = (t, n) := by
  have hne : ∀ x ∈ t.toList, decide (x ≠ '/') = true := fun x hx =>
    decide_eq_true fun heq => h (heq ▸ hx)
  have htext : (t ++ "/" ++ n).toList = t.toList ++ '/' :: n.toList := by simp
  have htake : (t.toList ++ '/' :: n.toList).takeWhile (· ≠ '/') = t.toList := by
    rw [List.takeWhile_append_of_pos hne]
    simp
  have hdrop : (t.toList ++ '/' :: n.toList).dropWhile (· ≠ '/') = '/' :: n.toList := by
    rw [List.dropWhile_append_of_pos hne]
    simp
  rw [splitTariff, htext, htake, hdrop]
  simp

/-- The change of the tariff by XML-RPC, for an administrator who may do everything. -/
theorem setTariffName_full {t : String} {u : UserRecord} (hname : (env.tariffs t).isSome)
    (htariff : u.user.tariff.isSome) :
    ∃ u', setTariffName env Priv.full t u = some (true, u') ∧
      u'.properties =
        { u.properties with
          tariffName := if mayChange env u.user.tariff t then t else u.properties.tariffName } := by
  obtain ⟨new, hnew⟩ := Option.isSome_iff_exists.1 hname
  obtain ⟨old, hold⟩ := Option.isSome_iff_exists.1 htariff
  have hmay : (Change.tariffName t).maySet Priv.full = true := Priv.maySet_full _ _ _
  by_cases hallowed : old.tariffChangeIsAllowed new env.time = ""
  · have hchange : mayChange env (some old) t = true := by simp [mayChange, hnew, hallowed]
    simp only [setTariffName, hnew, hold, if_pos hallowed, hmay, hchange, if_true]
    by_cases hname : u.user.tariffName ≠ t
    · rw [if_pos hname]
      refine ⟨_, rfl, ?_⟩
      rw [(sameAccount_setTariffName env t u.user).properties u]
      rfl
    · rw [if_neg hname]
      exact ⟨u, rfl, by rw [← not_not.1 hname]; rfl⟩
  · have hchange : mayChange env (some old) t = false := by simp [mayChange, hnew, hallowed]
    simp only [setTariffName, hnew, hold, if_neg hallowed, hchange, Bool.false_eq_true, if_false]
    exact ⟨u, rfl, rfl⟩

/-- The change of the tariff that is to follow. -/
theorem setNextTariff_full (t n : String) (u : UserRecord) :
    ∃ u', setNextTariff env Priv.full t n u = (true, u') ∧
      u'.properties =
        { u.properties with
          nextTariff :=
            if n ≠ "" ∧ (env.tariffs n).isSome ∧ u.properties.nextTariff ≠ n then t
            else u.properties.nextTariff } := by
  have hmay : (Change.nextTariff t).maySet Priv.full = true := Priv.maySet_full _ _ _
  unfold setNextTariff
  by_cases h : n ≠ "" ∧ (env.tariffs n).isSome ∧ u.user.nextTariff ≠ n
  · have h' : n ≠ "" ∧ (env.tariffs n).isSome ∧ u.properties.nextTariff ≠ n := h
    rw [if_pos h, if_pos hmay, if_pos h']
    exact ⟨_, rfl, rfl⟩
  · have h' : ¬(n ≠ "" ∧ (env.tariffs n).isSome ∧ u.properties.nextTariff ≠ n) := h
    rw [if_neg h, if_neg h']
    exact ⟨_, rfl, rfl⟩

end Tariff

/-! ## Both interfaces -/

section Both

variable {iconv : String → String}
  (hiconv : ∀ v : String, (∀ c ∈ v.toList, c.toNat < 128) → iconv v = v)
  {env : Env} {errno : InfoErrno} {login : String} {c : UserChange}

/-- The properties that both interfaces know are compared exactly. -/
theorem exact_fields (iconv : String → String) (errno : InfoErrno) (ips : UserIPs) :
    ∀ d ∈ fields iconv errno (some ips) c.toInfo, Exact d = true := by
  have hoption : ∀ {α : Type} (o : Option α) (g : α → Change),
      (∀ v, o = some v → Exact (g v) = true) → ∀ d ∈ o.toList.map g, Exact d = true := by
    intro α o g hg d hd
    obtain ⟨v, hv, rfl⟩ := List.mem_map.1 hd
    exact hg v (Option.mem_toList.1 hv)
  have huserdata : ∀ d ∈ c.toInfo.userdata.toList.flatMap (fun v =>
      (List.finRange 10).map fun i => Change.text (.userdata i) (iconv (v i))), Exact d = true := by
    intro d hd
    obtain ⟨v, -, hd⟩ := List.mem_flatMap.1 hd
    obtain ⟨i, -, rfl⟩ := List.mem_map.1 hd
    rfl
  delta fields
  simp only [List.forall_mem_append]
  repeat' apply And.intro
  all_goals first
    | exact huserdata
    | exact hoption _ _ fun _ _ => rfl
    | exact hoption _ _ fun _ h => by cases h

/-- `SetUserInfo` with addresses that have been read. -/
theorem setUserInfo_of_read {priv : Priv} {ips ips' : UserIPs} {s : UserList} {i : Fin s.users.length}
    (hfirst : firstIPs env.shifted errno c.ips = some ips)
    (hsecond : secondIPs env.shifted errno c.ips = some ips') :
    setUserInfo env priv iconv errno login c.toInfo s i =
      if leadsToForbidden c.alwaysOnline (some ips) (s.users.get i) ∨
          inUse env.shifted s login (some ips') then
        some (false, s.users.get i)
      else
        match setAllNew env priv (s.users.get i) (fields iconv errno (some ips') c.toInfo) with
        | (false, u) => some (false, u)
        | (true, u) => c.toInfo.tariff.elim (some (true, u)) fun text => setTariff env priv text u := by
  have hfirst' : c.toInfo.ips.mapM (firstIPs env.shifted errno) = some (some ips) := by
    simp [toInfo, hfirst]
  have hsecond' : c.toInfo.ips.mapM (secondIPs env.shifted errno) = some (some ips') := by
    simp [toInfo, hsecond]
  have haonline : c.toInfo.aonline = c.alwaysOnline := rfl
  simp only [setUserInfo, hfirst', hsecond', haonline]
  by_cases hforbidden : leadsToForbidden c.alwaysOnline (some ips) (s.users.get i) = true
  · rw [if_pos hforbidden, if_pos (.inl hforbidden)]
  · by_cases hused : inUse env.shifted s login (some ips') = true
    · rw [if_neg hforbidden, if_pos hused, if_pos (.inr hused)]
    · rw [if_neg hforbidden, if_neg hused, if_neg (not_or.2 ⟨hforbidden, hused⟩)]
      rcases setAllNew env priv (s.users.get i) (fields iconv errno (some ips') c.toInfo) with
        ⟨_ | _, u⟩
      · rfl
      · cases c.toInfo.tariff <;> rfl

include hiconv in
/-- What `SetUserInfo` does if it is not turned down at the beginning: the tariff comes last. -/
theorem Passes.setUserInfo_eq {s : UserList} {i : Fin s.users.length} {ips ips' : UserIPs}
    (h : c.Passes env errno login s i ips ips') :
    ∃ u, setUserInfo env Priv.full iconv errno login c.toInfo s i =
        c.toInfo.tariff.elim (some (true, u)) (fun text => setTariff env Priv.full text u) ∧
      u.user.tariff = (s.users.get i).user.tariff ∧
      u.properties = (c.received errno ips' login).outcome env (s.users.get i).user.tariff
        (s.users.get i).properties := by
  obtain ⟨hok, htariff, hproperties⟩ :=
    setAllNew_full env (exact_fields iconv errno ips') (s.users.get i)
  rw [updateAll_fields hiconv env errno ips' login c] at hproperties
  generalize hr : setAllNew env Priv.full (s.users.get i) (fields iconv errno (some ips') c.toInfo) = r
    at hok htariff hproperties
  obtain ⟨ok, u⟩ := r
  obtain rfl : ok = true := hok
  refine ⟨u, ?_, htariff, hproperties⟩
  rw [setUserInfo_of_read h.first h.second, h.allowed, h.free, hr]
  exact if_neg (by simp)

include hiconv in
/-- **What `SetUserInfo` does** if it is not turned down at the beginning and the user has a
tariff. -/
theorem Passes.setUserInfo_full {s : UserList} {i : Fin s.users.length} {ips ips' : UserIPs}
    (h : c.Passes env errno login s i ips ips')
    (hnames : ∀ t n, c.tariff = some (t, n) → (env.tariffs t).isSome ∧
      ∀ n', n = some n' → (env.tariffs n').isSome)
    (htariff : c.tariff.isSome → (s.users.get i).user.tariff.isSome) :
    ∃ u, setUserInfo env Priv.full iconv errno login c.toInfo s i = some (true, u) ∧
      u.properties =
        c.rpcOutcome env errno ips' login (s.users.get i).user.tariff (s.users.get i).properties := by
  obtain ⟨u₁, hinfo, htariff₁, hproperties⟩ := h.setUserInfo_eq hiconv
  rw [hinfo]
  cases hc : c.tariff with
  | none =>
    refine ⟨u₁, by simp [toInfo, hc], ?_⟩
    rw [hproperties]
    simp [rpcOutcome, hc, ChgUser.outcome, received]
  | some tn =>
    obtain ⟨t, n⟩ := tn
    have hslash := c.slash t n hc
    obtain ⟨u₂, hu₂, hproperties₂⟩ := setTariffName_full env (hnames t n hc).1
      (htariff₁ ▸ htariff (by simp [hc]))
    rw [htariff₁, hproperties] at hproperties₂
    cases n with
    | none =>
      obtain ⟨u₃, hu₃, hproperties₃⟩ := setNextTariff_full env t "" u₂
      refine ⟨u₃, ?_, ?_⟩
      · simp [toInfo, hc, setTariff, splitTariff_of_notMem hslash, hu₂, hu₃]
      · rw [hproperties₃, hproperties₂]
        simp [rpcOutcome, hc, ChgUser.outcome, received]
    | some n =>
      obtain ⟨u₃, hu₃, hproperties₃⟩ := setNextTariff_full env t n u₂
      refine ⟨u₃, ?_, ?_⟩
      · simp [toInfo, hc, setTariff, splitTariff_append hslash, hu₂, hu₃]
      · rw [hproperties₃, hproperties₂]
        simp [rpcOutcome, hc, ChgUser.outcome, received, (hnames t (some n) hc).2 n rfl]

/-- Both interfaces test alike whether a user who is always online has one address. -/
theorem leadsToForbidden_eq (ips : UserIPs) (login : String) (u : UserRecord) :
    UserList.leadsToForbidden (c.toChgUser ips login) u =
      UserHelper.leadsToForbidden c.alwaysOnline (some ips) u := by
  cases h : c.alwaysOnline with
  | none => simp [UserList.leadsToForbidden, UserHelper.leadsToForbidden, toChgUser, h]
  | some v =>
    cases v <;>
      simp [UserList.leadsToForbidden, UserHelper.leadsToForbidden, toChgUser, h, boolInt]

/-- The tests of the other interface at the beginning. -/
theorem passes_iff {s : UserList} {i : Fin s.users.length} (hfound : s.findByName login = some i)
    (ips : UserIPs) :
    s.Passes env (c.toChgUser ips login) i ↔
      UserHelper.leadsToForbidden c.alwaysOnline (some ips) (s.users.get i) = false ∧
        inUse env.shifted s login (some ips) = false := by
  rw [← leadsToForbidden_eq ips login]
  constructor
  · rintro ⟨-, hallowed, ips', hips, hfree⟩
    obtain rfl : ips = ips' := Option.some.inj hips
    exact ⟨hallowed, hfree⟩
  · rintro ⟨hallowed, hfree⟩
    exact ⟨hfound, hallowed, _, rfl, hfree⟩

/-- A request that the other interface turns down leaves everything as it is. -/
theorem turnedDown {s : UserList} {i : Fin s.users.length} (hfound : s.findByName login = some i)
    {ips : UserIPs} (h : ¬ s.Passes env (c.toChgUser ips login) i) :
    s.applyChanges env Priv.full (c.toChgUser ips login) = some (false, s) := by
  have hfound' : s.findByName (c.toChgUser ips login).login = some i := hfound
  rw [passes_iff hfound, not_and] at h
  rw [UserList.applyChanges, hfound']
  by_cases hallowed : UserHelper.leadsToForbidden c.alwaysOnline (some ips) (s.users.get i) = true
  · exact if_pos ((leadsToForbidden_eq ips login (s.users.get i)).trans hallowed)
  · rw [Bool.not_eq_true] at hallowed
    have hallowed' := (leadsToForbidden_eq ips login (s.users.get i)).trans hallowed
    have hused : inUse env.shifted s login (some ips) = true := Bool.not_eq_false _ ▸ h hallowed
    exact (if_neg (Bool.eq_false_iff.1 hallowed')).trans (if_pos hused)

/-- A change that `SetUserInfo` turns down is turned down by the other interface, and leaves everything
as it is. -/
theorem turnedDown_of_not_passes (iconv : String → String) {s : UserList} {i : Fin s.users.length}
    (hfound : s.findByName login = some i) {ips ips' : UserIPs}
    (hfirst : firstIPs env.shifted errno c.ips = some ips)
    (hsecond : secondIPs env.shifted errno c.ips = some ips') (hpre : ips' <+: ips)
    (h : ¬ c.Passes env errno login s i ips ips') :
    s.applyChanges env Priv.full (c.toChgUser ips login) = some (false, s) ∧
      setUserInfo env Priv.full iconv errno login c.toInfo s i = some (false, s.users.get i) := by
  constructor
  · refine turnedDown hfound fun hpasses => h ?_
    obtain ⟨hallowed, hfree⟩ := (passes_iff hfound ips).1 hpasses
    exact ⟨hfirst, hsecond, hallowed, inUse_of_prefix hpre hfree⟩
  · rw [setUserInfo_of_read hfirst hsecond]
    refine if_pos ?_
    by_contra hnot
    rw [not_or, Bool.not_eq_true, Bool.not_eq_true] at hnot
    exact h ⟨hfirst, hsecond, hnot.1, hnot.2⟩

/-- **The properties that the two interfaces leave behind.** -/
theorem outcome_eq_iff (errno : InfoErrno) (ips ips' : UserIPs) (login : String)
    (tariff : Option TariffImpl) (p : UserProperties) :
    (c.effective env ips login tariff).outcome env tariff p =
        c.rpcOutcome env errno ips' login tariff p ↔
      ips' = ips ∧ c.Harmless env errno tariff p := by
  have hup := mergeDirs_readMonth_iff errno.mu c.up p.up
  have hdown := mergeDirs_readMonth_iff errno.md c.down p.down
  have hname : ((c.effective env ips login tariff).outcome env tariff p).tariffName =
      (c.rpcOutcome env errno ips' login tariff p).tariffName := by
    cases h : c.tariff with
    | none => simp [ChgUser.outcome, effective, rpcOutcome, toChgUser, h]
    | some tn =>
      cases hm : mayChange env tariff tn.1 <;>
        simp [ChgUser.outcome, effective, rpcOutcome, toChgUser, h, hm, Option.filter]
  have hnext : ((c.effective env ips login tariff).outcome env tariff p).nextTariff =
      (c.rpcOutcome env errno ips' login tariff p).nextTariff ↔
        (∀ t, c.tariff = some (t, none) → mayChange env tariff t = true → p.nextTariff = "") ∧
        ∀ t n, c.tariff = some (t, some n) → p.nextTariff = n ∨ (n = t ∧ n ≠ "") := by
    cases h : c.tariff with
    | none => simp [ChgUser.outcome, effective, rpcOutcome, toChgUser, h]
    | some tn =>
      obtain ⟨t, n⟩ := tn
      cases n with
      | none =>
        cases hm : mayChange env tariff t
        · simp [ChgUser.outcome, effective, rpcOutcome, toChgUser, h, hm, Option.filter]
        · simp only [ChgUser.outcome, effective, rpcOutcome, toChgUser, h, hm, Option.filter,
            Option.map_some, Option.bind_some, Option.isSome_some, Option.getD_none, if_true]
          constructor
          · intro heq
            exact ⟨fun _ _ _ => heq.symm, fun _ _ hn => by simp at hn⟩
          · intro hall
            exact (hall.1 t rfl hm).symm
      | some n =>
        simp only [ChgUser.outcome, effective, rpcOutcome, toChgUser, h, Option.bind_some,
          Option.getD_some]
        grind
  constructor
  · intro heq
    have hips : ips = ips' := congrArg UserProperties.ips heq
    obtain ⟨halone, hfollowed⟩ := hnext.1 (congrArg UserProperties.nextTariff heq)
    exact ⟨hips.symm, hup.1 (congrArg UserProperties.up heq), hdown.1 (congrArg UserProperties.down heq),
      halone, hfollowed⟩
  · rintro ⟨rfl, h⟩
    exact UserProperties.ext rfl (hup.2 h.up) (hdown.2 h.down) rfl rfl rfl rfl rfl rfl rfl rfl rfl
      hname (hnext.2 ⟨h.alone, h.followed⟩) rfl rfl rfl rfl

/-- Without a tariff of its own a user cannot be moved to another one: the other interface does not come
back from that. -/
theorem applyChanges_crash {s : UserList} {i : Fin s.users.length} {ips : UserIPs}
    (hpasses : s.Passes env (c.toChgUser ips login) i)
    (hnames : ∀ t n, c.tariff = some (t, n) → (env.tariffs t).isSome ∧
      ∀ n', n = some n' → (env.tariffs n').isSome)
    (hc : c.tariff.isSome) (hnone : (s.users.get i).user.tariff = none) :
    s.applyChanges env Priv.full (c.toChgUser ips login) = none := by
  obtain ⟨⟨t, n⟩, htn⟩ := Option.isSome_iff_exists.1 hc
  have hmay : ∀ d : Change, d.maySet Priv.full = true := fun d => Priv.maySet_full _ _ _
  obtain ⟨new, hnew⟩ := Option.isSome_iff_exists.1 (hnames t n htn).1
  have hcrash : applyAll env Priv.full (s.users.get i) (c.toChgUser ips login).changes = none := by
    refine applyAll_crash env _ hnone (fun d hd => ?_) ⟨.tariffName t, ?_, ?_⟩
    · cases d with
      | tariffName t' =>
        right
        have ht' : some t = some t' := by
          rw [← tariffName_of_mem_changes hd]
          simp [toChgUser, htn]
        obtain rfl := Option.some.inj ht'
        simp [Change.verdict, hnew]
      | nextTariff n' =>
        left
        have hn' : n = some n' := by
          rw [← nextTariff_of_mem_changes hd]
          simp [toChgUser, htn]
        simp only [Change.verdict, (hnames t n htn).2 n' hn', hmay, if_true]
      | _ => exact .inl (by simp [Change.verdict, hmay])
    · rw [changes_eq]
      simp [toChgUser, htn]
    · simp [Change.verdict, hnew]
  obtain ⟨hfound, hallowed, ips, hips, hfree⟩ := hpasses
  simp only [UserList.applyChanges, hfound, hallowed, hips, hfree, Bool.false_eq_true, if_false]
  split
  next h => rfl
  next v h => cases hcrash.symm.trans h
  next v h => cases hcrash.symm.trans h

include hiconv in
/-- Neither does `SetUserInfo`. -/
theorem Passes.setUserInfo_crash {s : UserList} {i : Fin s.users.length} {ips ips' : UserIPs}
    (h : c.Passes env errno login s i ips ips')
    (hnames : ∀ t n, c.tariff = some (t, n) → (env.tariffs t).isSome ∧
      ∀ n', n = some n' → (env.tariffs n').isSome)
    (hc : c.tariff.isSome) (hnone : (s.users.get i).user.tariff = none) :
    setUserInfo env Priv.full iconv errno login c.toInfo s i = none := by
  obtain ⟨⟨t, n⟩, htn⟩ := Option.isSome_iff_exists.1 hc
  obtain ⟨new, hnew⟩ := Option.isSome_iff_exists.1 (hnames t n htn).1
  obtain ⟨u, hinfo, htariff, -⟩ := h.setUserInfo_eq hiconv
  have hu : setTariffName env Priv.full t u = none := by
    simp only [setTariffName, hnew, htariff, hnone]
  rw [hinfo]
  cases n with
  | none => simp [toInfo, htn, setTariff, splitTariff_of_notMem (c.slash t none htn), hu]
  | some n => simp [toInfo, htn, setTariff, splitTariff_append (c.slash t (some n) htn), hu]

include hiconv in
/-- The two interfaces on a change that neither turns down, for a user who has a tariff if the change is
about one. -/
theorem Passes.agree_iff_harmless {s : UserList} {i : Fin s.users.length} {ips ips' : UserIPs}
    (h : c.Passes env errno login s i ips ips') (hpasses : s.Passes env (c.toChgUser ips login) i)
    (hnames : ∀ t n, c.tariff = some (t, n) → (env.tariffs t).isSome ∧
      ∀ n', n = some n' → (env.tariffs n').isSome)
    (htariff : c.tariff.isSome → (s.users.get i).user.tariff.isSome) :
    c.Agree env iconv errno login s i ↔
      ips' = ips ∧ c.Harmless env errno (s.users.get i).user.tariff (s.users.get i).properties := by
  obtain ⟨haccepted, hmade⟩ := made_changes env ips login c hnames htariff
  obtain ⟨s', hs', hproperties⟩ := hpasses.applyChanges_of_accepted haccepted
  rw [hmade, updateAll_changes] at hproperties
  obtain ⟨u, hu, hrpc⟩ := h.setUserInfo_full hiconv hnames htariff
  rw [Agree, h.first, Option.bind_some, hs', hu, ← outcome_eq_iff errno ips ips' login]
  simp only [Option.map_some, hproperties, hrpc, Option.some.injEq, Prod.mk.injEq, true_and]
  constructor
  · intro heq
    have hi := congrArg (fun l => l[i.val]?) heq
    simpa using hi
  · intro heq
    rw [heq]

include hiconv in
/-- **When both interfaces agree** on a change of a user that exists, to tariffs that exist: if
`SetUserInfo` does not turn it down at the beginning, then none of the addresses that were read at first is
in use, and neither interface comes back, or the same addresses are read again and the change is a harmless
one.

**Proof sketch.** A change that is turned down leaves everything as it is.  If it is not, then both
refuse nothing, and the properties they leave behind are known (`updateAll_changes`,
`Passes.setUserInfo_full`); `outcome_eq_iff` compares them. -/
theorem agree_iff {s : UserList} {i : Fin s.users.length} (hfound : s.findByName login = some i)
    (hnames : ∀ t n, c.tariff = some (t, n) → (env.tariffs t).isSome ∧
      ∀ n', n = some n' → (env.tariffs n').isSome) :
    c.Agree env iconv errno login s i ↔
      ∀ ips ips', c.Passes env errno login s i ips ips' →
        inUse env.shifted s login (some ips) = false ∧
          ((c.tariff.isSome → (s.users.get i).user.tariff.isSome) →
            ips' = ips ∧
              c.Harmless env errno (s.users.get i).user.tariff (s.users.get i).properties) := by
  cases hfirst : firstIPs env.shifted errno c.ips with
  | none =>
    -- an address does not fit its buffer
    have hinfo : setUserInfo env Priv.full iconv errno login c.toInfo s i = none := by
      simp [setUserInfo, toInfo, hfirst]
    rw [Agree, hfirst, hinfo]
    exact iff_of_true rfl fun ips ips' h => by cases hfirst.symm.trans h.first
  | some ips =>
    obtain ⟨ips', hsecond, hpre⟩ := exists_secondIPs hfirst
    have hone {P : UserIPs → UserIPs → Prop} :
        (∀ jps jps', c.Passes env errno login s i jps jps' → P jps jps') ↔
          (c.Passes env errno login s i ips ips' → P ips ips') := by
      refine ⟨fun h => h ips ips', fun h jps jps' hp => ?_⟩
      obtain rfl := Option.some.inj (hfirst.symm.trans hp.first)
      obtain rfl := Option.some.inj (hsecond.symm.trans hp.second)
      exact h hp
    rw [hone]
    have hset : (s.users.map UserRecord.properties).set i (s.users.get i).properties =
        s.users.map UserRecord.properties := by
      rw [← List.map_set]
      exact congrArg (List.map _) (List.set_getElem_self i.isLt)
    by_cases h : c.Passes env errno login s i ips ips'
    · rw [forall_prop_of_true h]
      by_cases hpasses : s.Passes env (c.toChgUser ips login) i
      · have hfree := ((passes_iff hfound ips).1 hpasses).2
        rw [and_iff_right hfree]
        by_cases htariff : c.tariff.isSome → (s.users.get i).user.tariff.isSome
        · rw [h.agree_iff_harmless hiconv hpasses hnames htariff, forall_prop_of_true htariff]
        · obtain ⟨hc, hnone⟩ : c.tariff.isSome ∧ ¬ (s.users.get i).user.tariff.isSome := by
            simpa using htariff
          have hnone' : (s.users.get i).user.tariff = none := by simpa using hnone
          rw [Agree, hfirst, Option.bind_some, applyChanges_crash hpasses hnames hc hnone',
            h.setUserInfo_crash hiconv hnames hc hnone']
          exact iff_of_true rfl fun h => absurd h htariff
      · -- the other interface alone turns the change down
        refine iff_of_false ?_ fun hfree => hpasses ((passes_iff hfound ips).2 ⟨h.allowed, hfree.1⟩)
        rw [Agree, hfirst, Option.bind_some, turnedDown hfound hpasses]
        by_cases htariff : c.tariff.isSome → (s.users.get i).user.tariff.isSome
        · obtain ⟨u, hu, -⟩ := h.setUserInfo_full hiconv hnames htariff
          rw [hu]
          simp
        · obtain ⟨hc, hnone⟩ : c.tariff.isSome ∧ ¬ (s.users.get i).user.tariff.isSome := by
            simpa using htariff
          rw [h.setUserInfo_crash hiconv hnames hc (by simpa using hnone)]
          simp
    · obtain ⟨hsg, hrpc⟩ := turnedDown_of_not_passes iconv hfound hfirst hsecond hpre h
      rw [Agree, hfirst, Option.bind_some, hsg, hrpc, Option.map_some, Option.map_some, hset]
      exact iff_of_true rfl fun hp => absurd hp h

end Both

namespace Sample

/-- Two tariffs with the same prices, to both of which a user may change. -/
def env : Env :=
  { Stargazer.Sample.env 0 with
    tariffs := fun name =>
      if name = "gold" ∨ name = "silver" then some Stargazer.Sample.tariff else none }

/-- A user becomes passive, with a note, five bytes of the first direction and another tariff. -/
def change : UserChange where
  ips := "10.0.0.1"
  alwaysOnline := some true
  text := fun p => if p = .note then some "on holiday" else none
  passive := some true
  up := some [5]
  tariff := some ("gold", none)
  ascii := by
    intro p v _ h
    split_ifs at h
    obtain rfl := Option.some.inj h
    have hall : "on holiday".toList.all (fun c => decide (c.toNat < 128)) = true := by decide
    intro c hc
    exact of_decide_eq_true (List.all_eq_true.1 hall c hc)
  slash := by
    intro t n h
    obtain ⟨rfl, -⟩ := Prod.mk.inj (Option.some.inj h)
    decide

/-- A user is moved to one tariff, and another one is to follow. -/
def followed : UserChange where
  ips := "10.0.0.1"
  tariff := some ("gold", some "silver")
  slash := by
    intro t n h
    obtain ⟨rfl, -⟩ := Prod.mk.inj (Option.some.inj h)
    decide

/-- The address of both changes. -/
theorem firstIPs_change :
    firstIPs env.shifted {} "10.0.0.1" = some [⟨0x0100000A, 32⟩] := by
  decide +kernel

theorem secondIPs_change :
    secondIPs env.shifted {} "10.0.0.1" = some [⟨0x0100000A, 32⟩] := by
  decide +kernel

end Sample

/-- A change of a user who has no tariff that is to follow. -/
theorem agree_without_next :
    Sample.change.Agree Sample.env id {} "alice" Stargazer.Sample.userList ⟨0, Nat.one_pos⟩ := by
  refine (agree_iff (fun _ _ => rfl) rfl ?_).2 fun ips ips' h =>
    ⟨?_, fun _ => ⟨?_, ⟨?_, ?_, ?_, ?_⟩⟩⟩
  · intro t n h
    obtain ⟨rfl, rfl⟩ := Prod.mk.inj (Option.some.inj h)
    exact ⟨rfl, fun n' hn' => by cases hn'⟩
  · obtain rfl := Option.some.inj (Sample.firstIPs_change.symm.trans h.first)
    decide
  · obtain rfl := Option.some.inj (Sample.firstIPs_change.symm.trans h.first)
    exact (Option.some.inj (Sample.secondIPs_change.symm.trans h.second)).symm
  · intro data hdata i v hv
    obtain rfl := Option.some.inj hdata
    obtain rfl := List.mem_singleton.1 (List.mem_of_getElem? hv)
    exact .inl ⟨rfl, fun w hw => by
      rw [List.mem_singleton.1 (List.mem_of_mem_take hw)]
      decide⟩
  · intro data hdata
    cases hdata
  · intro t _ _
    rfl
  · intro t n h
    cases h

/-- **One tariff follows another**: by XML-RPC the tariff that is to follow is the first one. -/
theorem wrong_tariff_follows :
    ¬ Sample.followed.Agree Sample.env id {} "alice" Stargazer.Sample.userList ⟨0, Nat.one_pos⟩ := by
  have h : Sample.followed.Passes Sample.env {} "alice" Stargazer.Sample.userList ⟨0, Nat.one_pos⟩
      [⟨0x0100000A, 32⟩] [⟨0x0100000A, 32⟩] :=
    ⟨Sample.firstIPs_change, Sample.secondIPs_change, by decide, by decide⟩
  have hpasses : Stargazer.Sample.userList.Passes Sample.env
      (Sample.followed.toChgUser [⟨0x0100000A, 32⟩] "alice") ⟨0, Nat.one_pos⟩ :=
    (passes_iff rfl _).2 ⟨by decide, by decide⟩
  have hnames : ∀ t n, Sample.followed.tariff = some (t, n) → (Sample.env.tariffs t).isSome ∧
      ∀ n', n = some n' → (Sample.env.tariffs n').isSome := by
    intro t n h
    obtain ⟨rfl, rfl⟩ := Prod.mk.inj (Option.some.inj h)
    refine ⟨rfl, fun n' hn' => ?_⟩
    obtain rfl := Option.some.inj hn'
    rfl
  intro hagree
  have hfollowed :=
    ((h.agree_iff_harmless (fun _ _ => rfl) hpasses hnames fun _ => rfl).1 hagree).2.followed "gold" "silver" rfl
  revert hfollowed
  decide

end UserChange

end Stargazer
