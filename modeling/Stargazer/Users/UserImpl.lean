import Stargazer.Tariffs.TariffImpl
import Mathlib.Data.List.AList

set_option relaxedAutoImplicit false
set_option autoImplicit false

/-!
# A user of the server: authorization and connection

The state of `UserImpl` (`user_impl.h`) and the operations of `user_impl.cpp` that authorize,
connect and disconnect a user, together with the callbacks that run when an administrator changes
a property (`include/stg/user_property.h`).  Each operation is a function of the state; mutexes
are read as atomicity (their discipline is the subject of `Stargazer.Users.Locks`).

An operation reads, besides the state, the environment `Env`: the clock, the settings, the tariff
registry.  What the store receives about sessions is kept in `UserImpl.sessionLog`.

The message queue (`ScanMessage`) touches none of the data below and is not part of this state;
scripts and the server log have no influence on it either.

## Main definitions

* `Stargazer.UserImpl`, `Stargazer.Env` — state and environment.
* `Stargazer.UserImpl.authorize`, `Stargazer.UserImpl.unauthorize`, `Stargazer.UserImpl.connect`,
  `Stargazer.UserImpl.disconnect`, `Stargazer.UserImpl.run` — the session operations.
* `Stargazer.UserImpl.setTariffName`, `Stargazer.UserImpl.setIps`, `Stargazer.UserImpl.setDisabled`,
  `Stargazer.UserImpl.setPassive`, `Stargazer.UserImpl.setCash` — property changes with their
  callbacks.
-/

namespace Stargazer

/-- Key of the detailed statistics: the remote address and the direction. -/
structure IPDirPair where
  /-- The remote address. -/
  ip : IP
  /-- The direction. -/
  dir : Dir
  deriving DecidableEq

/-- A line of the detailed statistics. -/
structure StatNode where
  /-- Uploaded bytes. -/
  up : BitVec 64
  /-- Downloaded bytes. -/
  down : BitVec 64
  /-- What was paid for them. -/
  cash : Money
  deriving DecidableEq

/-- `TraffStat`: the detailed statistics, a map from keys to lines. -/
abbrev TraffStat := AList fun _ : IPDirPair => StatNode

/-- A record of the session log in the store. -/
inductive SessionRecord
  /-- `WriteUserConnect(login, ip)`. -/
  | connect (login : String) (ip : IP)
  /-- `WriteUserDisconnect(login, up, down, sessionUp, sessionDown, cash, freeMb, reason)`. -/
  | disconnect (login : String) (up down sessionUp sessionDown : DirTraff) (cash freeMb : Money)
      (reason : String)

/-- What an operation of a user reads from the rest of the server. -/
structure Env where
  /-- The settings. -/
  settings : Settings
  /-- `stgTime`. -/
  stgTime : Time
  /-- `time(NULL)`, the wall clock used for modification times. -/
  time : Time
  /-- `localtime_r`. -/
  localtime : Time → Tm
  /-- `tariffs->FindByName`: the tariff a name stands for, if there is one. -/
  tariffs : String → Option TariffImpl
  /-- Does `store->SaveUserStat` succeed? -/
  saveUserStat : Bool
  /-- `0xFFffFFff << 32`, which `UserIPs::calcMask` may ask for. -/
  shifted : BitVec 32

/-- The state of a user. -/
structure UserImpl where
  /-- The login, fixed for the life of the user. -/
  login : String
  /-- The directions the authorizer enabled. -/
  enabledDirs : Dir → Bool := fun _ => false
  /-- `m_connected`. -/
  connected : Bool := false
  /-- `m_currIP`, `0` while the user is not authorized. -/
  currIP : IP := 0
  /-- The address after unauthorization but before disconnection. -/
  lastIPForDisconnect : IP := 0
  /-- The reason of the last disconnection. -/
  lastDisconnectReason : String := ""
  /-- The tariff the pointer `tariff` denotes, `none` for `NULL`. -/
  tariff : Option TariffImpl
  /-- The authorizers that authorized the user. -/
  authorizedBy : Finset AuthId := ∅
  /-- Time of the last change of `authorizedBy`. -/
  authorizedModificationTime : Time := 0
  /-- Time of the last successful `WriteStat`. -/
  lastWriteStat : Time := 0
  /-- Text of the last error. -/
  errorStr : String := ""
  /-- The balance. -/
  cash : Money := 0
  /-- The credit limit. -/
  credit : Money := 0
  /-- When the credit expires, `0` for never. -/
  creditExpire : Time := 0
  /-- Prepaid traffic left, in money. -/
  freeMb : Money := 0
  /-- The last change of the balance. -/
  lastCashAdd : Money := 0
  /-- Time of the last change of the balance. -/
  lastCashAddTime : Time := 0
  /-- Seconds the user was frozen since the last reset. -/
  passiveTime : Time := 0
  /-- `passiveTime.ModificationTime()`. -/
  passiveTimeModTime : Time := 0
  /-- Last time the user was seen connected. -/
  lastActivityTime : Time := 0
  /-- Month upload. -/
  up : DirTraff := 0
  /-- Month download. -/
  down : DirTraff := 0
  /-- Is the account frozen? -/
  passive : ℤ := 0
  /-- Is the account disabled? -/
  disabled : ℤ := 0
  /-- Name of the tariff. -/
  tariffName : String
  /-- Name of the tariff from the next month on, empty for no change. -/
  nextTariff : String := ""
  /-- The addresses the user may come from. -/
  ips : UserIPs := UserIPs.any
  /-- Upload of the current session. -/
  sessionUpload : DirTraff := 0
  /-- Download of the current session. -/
  sessionDownload : DirTraff := 0
  /-- Detailed statistics not yet written. -/
  traffStat : TraffStat := ∅
  /-- The session records the store has received for this user. -/
  sessionLog : List SessionRecord := []

namespace UserImpl

/-! ## Connection -/

/-- `UserImpl::IsInetable`: may the user be connected? -/
def isInetable (env : Env) (u : UserImpl) : Bool :=
  if u.disabled ≠ 0 ∨ u.passive ≠ 0 then false
  else if env.settings.freeMbAllowInet = true ∧ u.freeMb ≥ 0 then true
  else
    match u.tariff with
    | none => decide (u.cash ≥ -u.credit)
    | some t =>
      if env.settings.showFeeInCash then decide (u.cash ≥ -u.credit)
      else decide (u.cash - t.getFee ≥ -u.credit)

/-- Append a record to the session log unless session logging is switched off. -/
def writeSession (env : Env) (r : SessionRecord) (u : UserImpl) : UserImpl :=
  if env.settings.disableSessionLog then u else { u with sessionLog := u.sessionLog ++ [r] }

/-- `UserImpl::Connect`.  A fake connect only writes the record that starts a new session. -/
def connect (env : Env) (fakeConnect : Bool) (u : UserImpl) : UserImpl :=
  let u := if fakeConnect then u else { u with connected := true }
  let u := u.writeSession env (.connect u.login u.currIP)
  if fakeConnect then u else { u with lastIPForDisconnect := u.currIP }

/-- The text written into the disconnect record. -/
def reasonMessage (reason lastDisconnectReason : String) : String :=
  if lastDisconnectReason = "" then reason else reason ++ ": " ++ lastDisconnectReason

/-- `UserImpl::Disconnect`.  Without an address to disconnect nothing happens at all. -/
def disconnect (env : Env) (fakeDisconnect : Bool) (reason : String) (u : UserImpl) : UserImpl :=
  if u.lastIPForDisconnect = 0 then u
  else
    let u := if fakeDisconnect then u
      else { u with lastDisconnectReason := reason, connected := false }
    let u := u.writeSession env (.disconnect u.login u.up u.down u.sessionUpload u.sessionDownload
      u.cash u.freeMb (reasonMessage reason u.lastDisconnectReason))
    let u := if fakeDisconnect then u else { u with lastIPForDisconnect := 0 }
    { u with sessionUpload := 0, sessionDownload := 0 }

/-! ## Authorization -/

/-- `dirsFromBits`. -/
def dirsFromBits (bits : BitVec 32) : Dir → Bool := fun i => bits.getLsbD i

/-- What `UserImpl::Authorize` leaves behind. -/
structure AuthorizeResult where
  /-- The user afterwards. -/
  user : UserImpl
  /-- Return value `0`. -/
  ok : Bool
  /-- Was `m_currIP` assigned, so that its subscribers are notified? -/
  ipSet : Bool

/-- `UserImpl::Authorize`.  `ipIndex` is the index of `UsersImpl` as `FindByIPIdx` and
`IsIPInIndex` see it, `self` the user itself.  The directions are stored before the checks. -/
def authorize (env : Env) (ipIndex : IP → Option UserId) (self : UserId) (ip : IP)
    (dirs : BitVec 32) (auth : AuthId) (u : UserImpl) : AuthorizeResult :=
  if auth ∈ u.authorizedBy then ⟨u, true, false⟩
  else if ip = 0 then ⟨u, false, false⟩
  else
    let u := { u with enabledDirs := dirsFromBits dirs }
    if u.authorizedBy ≠ ∅ then
      if u.currIP ≠ ip then
        ⟨{ u with errorStr := "User " ++ u.login ++ " already authorized with IP address " ++
          inetNtoString ip }, false, false⟩
      else if (ipIndex ip).isSome ∧ ipIndex ip ≠ some self then
        ⟨{ u with errorStr := "IP address " ++ inetNtoString ip ++ " is already in use" },
          false, false⟩
      else ⟨{ u with authorizedBy := insert auth u.authorizedBy }, true, false⟩
    else if (ipIndex ip).isSome then
      ⟨{ u with errorStr := "IP address " ++ inetNtoString ip ++ " is already in use" },
        false, false⟩
    else if u.ips.find env.shifted ip then
      ⟨{ u with
          currIP := ip
          lastIPForDisconnect := ip
          authorizedModificationTime := env.stgTime
          authorizedBy := insert auth u.authorizedBy }, true, true⟩
    else
      ⟨{ u with errorStr := "IP address " ++ inetNtoString ip ++ " does not belong to user " ++
        u.login }, false, false⟩

/-- What `UserImpl::Unauthorize` leaves behind. -/
structure UnauthorizeResult where
  /-- The user afterwards. -/
  user : UserImpl
  /-- The address taken from `m_currIP`, if the last authorizer left. -/
  ipLost : Option IP

/-- `UserImpl::Unauthorize`. -/
def unauthorize (env : Env) (auth : AuthId) (reason : String) (u : UserImpl) :
    UnauthorizeResult :=
  if auth ∉ u.authorizedBy then ⟨u, none⟩
  else
    let ip := u.currIP
    let u := { u with
      authorizedBy := u.authorizedBy.erase auth
      authorizedModificationTime := env.stgTime }
    if u.authorizedBy = ∅ then
      let u := { u with
        lastDisconnectReason := reason
        lastIPForDisconnect := u.currIP
        currIP := 0 }
      ⟨if u.connected then u.disconnect env false "not authorized" else u, some ip⟩
    else ⟨u, none⟩

/-! ## Periodic work -/

/-- `UserImpl::WriteStat`. -/
def writeStat (env : Env) (u : UserImpl) : UserImpl :=
  if env.saveUserStat then { u with lastWriteStat := env.stgTime } else u

/-- The test of `UserImpl::Run` that makes it write the statistics. -/
def statDue (env : Env) (u : UserImpl) : Prop :=
  env.stgTime > u.lastWriteStat + env.settings.statWritePeriod

instance (env : Env) (u : UserImpl) : Decidable (u.statDue env) :=
  inferInstanceAs (Decidable (env.stgTime > u.lastWriteStat + env.settings.statWritePeriod))

/-- The test of `UserImpl::Run` that makes it drop the credit. -/
def creditExpired (env : Env) (u : UserImpl) : Prop :=
  u.creditExpire ≠ 0 ∧ u.creditExpire < env.stgTime

instance (env : Env) (u : UserImpl) : Decidable (u.creditExpired env) :=
  inferInstanceAs (Decidable (u.creditExpire ≠ 0 ∧ u.creditExpire < env.stgTime))

/-- The first part of `UserImpl::Run`: statistics, credit and frozen time.  `WriteConf` has no
effect on the user. -/
def runAccounts (env : Env) (u : UserImpl) : UserImpl :=
  let u := if u.statDue env then u.writeStat env else u
  let u := if u.creditExpired env then { u with credit := 0, creditExpire := 0 } else u
  if u.passive ≠ 0 ∧ env.stgTime % 30 = 0 ∧ u.passiveTimeModTime ≠ env.stgTime then
    { u with
      passiveTime := u.passiveTime + (env.stgTime - u.passiveTimeModTime)
      passiveTimeModTime := env.time }
  else u

/-- The reason `UserImpl::Run` gives for disconnecting an authorized user. -/
def disconnectReason (u : UserImpl) : String :=
  if u.disabled ≠ 0 then "disabled" else if u.passive ≠ 0 then "passive" else "no cash"

/-- The second part of `UserImpl::Run`: connect or disconnect. -/
def runSession (env : Env) (u : UserImpl) : UserImpl :=
  if u.authorizedBy ≠ ∅ then
    let u := if u.connected then { u with lastActivityTime := env.stgTime } else u
    let u := if u.connected = false ∧ u.isInetable env then u.connect env false else u
    if u.connected ∧ u.isInetable env = false then u.disconnect env false u.disconnectReason else u
  else if u.connected then u.disconnect env false "not authorized" else u

/-- `UserImpl::Run`. -/
def run (env : Env) (u : UserImpl) : UserImpl := (u.runAccounts env).runSession env

/-- `UserImpl::MidnightResetSessionStat`. -/
def midnightResetSessionStat (env : Env) (u : UserImpl) : UserImpl :=
  if u.connected then (u.disconnect env true "fake").connect env true else u

/-! ## Property changes -/

/-- A change of the balance: `onCashChange` notes time and amount before the value is written. -/
def setCash (env : Env) (v : Money) (u : UserImpl) : UserImpl :=
  { u with lastCashAddTime := env.stgTime, lastCashAdd := v - u.cash, cash := v }

/-- A change of the credit limit; nobody subscribes to it. -/
def setCredit (v : Money) (u : UserImpl) : UserImpl := { u with credit := v }

/-- A change of `passive`: `onPassiveChange` charges for freezing before the value is written. -/
def setPassive (env : Env) (v : ℤ) (u : UserImpl) : UserImpl :=
  let u :=
    match u.tariff with
    | some t =>
      if v ≠ 0 ∧ u.passive = 0 then u.setCash env (u.cash - t.tariffConf.passiveCost) else u
    | none => u
  { u with passive := v }

/-- A change of `disabled`: `onDisabledChange` runs after the value is written. -/
def setDisabled (env : Env) (v : ℤ) (u : UserImpl) : UserImpl :=
  let oldVal := u.disabled
  let u := { u with disabled := v }
  if oldVal ≠ 0 ∧ v = 0 ∧ u.connected then u.disconnect env false "disabled"
  else if oldVal = 0 ∧ v ≠ 0 ∧ u.isInetable env then u.connect env false
  else u

/-- `UserImpl::onTariffChange`, called before `tariffName` is written. -/
def onTariffChange (env : Env) (newVal : String) (u : UserImpl) : UserImpl :=
  let reconnect := env.settings.reconnectOnTariffChange
  let u := if reconnect ∧ u.connected then u.disconnect env false "Change tariff" else u
  let u := { u with tariff := env.tariffs newVal }
  if reconnect ∧ u.authorizedBy ≠ ∅ ∧ u.isInetable env then
    { u with tariffName := newVal }.connect env false
  else u

/-- A change of `tariffName`. -/
def setTariffName (env : Env) (v : String) (u : UserImpl) : UserImpl :=
  { u.onTariffChange env v with tariffName := v }

/-- A change of `ips`: `onIPChange` runs after the value is written. -/
def setIps (env : Env) (v : UserIPs) (u : UserImpl) : UserImpl :=
  let u := { u with ips := v }
  let u := if u.connected then u.disconnect env false "Change IP" else u
  if u.authorizedBy ≠ ∅ ∧ u.isInetable env then u.connect env false else u

/-- The first part of `UserImpl::ProcessNewMonth`: the month counters start again, between a fake
disconnect and a fake connect of a connected user. -/
def resetMonth (env : Env) (u : UserImpl) : UserImpl :=
  let u := if u.connected then u.disconnect env true "fake" else u
  let u := { u with up := 0, down := 0 }
  if u.connected then u.connect env true else u

/-- The second part of `UserImpl::ProcessNewMonth`: the user gets its next tariff; `none` is the
null dereference of a user whose tariff is unknown.  The server itself may change every property
(`Stargazer.Priv.maySet_full`). -/
def takeNextTariff (env : Env) (u : UserImpl) : Option UserImpl :=
  if u.nextTariff = "" then some u
  else
    match env.tariffs u.nextTariff with
    | none => some { u with nextTariff := "" }
    | some nt =>
      match u.tariff with
      | none => none
      | some t =>
        let u := if t.tariffChangeIsAllowed nt env.stgTime = "" then
          u.setTariffName env u.nextTariff else u
        some { u with nextTariff := "" }

/-- `UserImpl::ProcessNewMonth`. -/
def processNewMonth (env : Env) (u : UserImpl) : Option UserImpl :=
  (u.resetMonth env).takeNextTariff env

/-! ## What the operations can do -/

/-- **What `Disconnect` can do**: it touches the connection, the session counters and the session
log, and nothing of the account. -/
theorem disconnect_frame (env : Env) (fake : Bool) (reason : String) (u : UserImpl) :
    ∃ conn lastIP why su sd log, u.disconnect env fake reason =
      { u with
        connected := conn
        lastIPForDisconnect := lastIP
        lastDisconnectReason := why
        sessionUpload := su
        sessionDownload := sd
        sessionLog := log } := by
  simp only [disconnect, writeSession]
  split_ifs <;> exact ⟨_, _, _, _, _, _, rfl⟩

@[simp] theorem disconnect_login (env : Env) (fake : Bool) (reason : String) (u : UserImpl) :
    (u.disconnect env fake reason).login = u.login := by
  obtain ⟨_, _, _, _, _, _, h⟩ := disconnect_frame env fake reason u
  rw [h]

@[simp] theorem disconnect_tariff (env : Env) (fake : Bool) (reason : String) (u : UserImpl) :
    (u.disconnect env fake reason).tariff = u.tariff := by
  obtain ⟨_, _, _, _, _, _, h⟩ := disconnect_frame env fake reason u
  rw [h]

@[simp] theorem disconnect_currIP (env : Env) (fake : Bool) (reason : String) (u : UserImpl) :
    (u.disconnect env fake reason).currIP = u.currIP := by
  obtain ⟨_, _, _, _, _, _, h⟩ := disconnect_frame env fake reason u
  rw [h]

@[simp] theorem disconnect_authorizedBy (env : Env) (fake : Bool) (reason : String)
    (u : UserImpl) : (u.disconnect env fake reason).authorizedBy = u.authorizedBy := by
  obtain ⟨_, _, _, _, _, _, h⟩ := disconnect_frame env fake reason u
  rw [h]

/-- A real disconnect of a user with an address to disconnect ends the connection. -/
theorem disconnect_connected (env : Env) (reason : String) {u : UserImpl}
    (h : u.lastIPForDisconnect ≠ 0) : (u.disconnect env false reason).connected = false := by
  simp only [disconnect, writeSession, if_neg h, Bool.false_eq_true, if_false]
  split_ifs <;> rfl

/-- **What `Authorize` can do**: the authorizer authorized the user before; the request is refused;
the authorizer joins others at the same address; or the first authorizer gives the user an
address. -/
theorem authorize_cases (env : Env) (ipIndex : IP → Option UserId) (self : UserId) (ip : IP)
    (dirs : BitVec 32) (auth : AuthId) (u : UserImpl) :
    (auth ∈ u.authorizedBy ∧
      u.authorize env ipIndex self ip dirs auth = ⟨u, true, false⟩) ∨
    (auth ∉ u.authorizedBy ∧ ∃ d e, u.authorize env ipIndex self ip dirs auth =
      ⟨{ u with enabledDirs := d, errorStr := e }, false, false⟩) ∨
    (auth ∉ u.authorizedBy ∧ ip ≠ 0 ∧ u.authorizedBy ≠ ∅ ∧ u.currIP = ip ∧
      (ipIndex ip = none ∨ ipIndex ip = some self) ∧
      u.authorize env ipIndex self ip dirs auth =
        ⟨{ u with
          enabledDirs := dirsFromBits dirs
          authorizedBy := insert auth u.authorizedBy }, true, false⟩) ∨
    (u.authorizedBy = ∅ ∧ ip ≠ 0 ∧ ipIndex ip = none ∧ u.ips.find env.shifted ip = true ∧
      u.authorize env ipIndex self ip dirs auth =
        ⟨{ u with
          enabledDirs := dirsFromBits dirs
          currIP := ip
          lastIPForDisconnect := ip
          authorizedModificationTime := env.stgTime
          authorizedBy := insert auth u.authorizedBy }, true, true⟩) := by
  simp only [authorize]
  split_ifs with hauth hip hby hcurr hidx hidx hf
  · exact .inl ⟨hauth, rfl⟩
  · exact .inr (.inl ⟨hauth, u.enabledDirs, u.errorStr, rfl⟩)
  · exact .inr (.inl ⟨hauth, _, _, rfl⟩)
  · exact .inr (.inl ⟨hauth, _, _, rfl⟩)
  · refine .inr (.inr (.inl ⟨hauth, hip, hby, not_not.mp hcurr, ?_, rfl⟩))
    cases hi : ipIndex ip with
    | none => exact .inl rfl
    | some j => exact .inr (by simpa [hi] using hidx)
  · exact .inr (.inl ⟨hauth, _, _, rfl⟩)
  · exact .inr (.inr (.inr ⟨not_not.mp hby, hip, by simpa using hidx, hf, rfl⟩))
  · exact .inr (.inl ⟨hauth, _, _, rfl⟩)

/-- **What `Unauthorize` can do**: nothing, for an authorizer that did not authorize the user; the
authorizer leaves others behind; or the last authorizer leaves and the user loses its address. -/
theorem unauthorize_cases (env : Env) (auth : AuthId) (reason : String) (u : UserImpl) :
    (auth ∉ u.authorizedBy ∧ u.unauthorize env auth reason = ⟨u, none⟩) ∨
    (auth ∈ u.authorizedBy ∧ u.authorizedBy.erase auth ≠ ∅ ∧
      u.unauthorize env auth reason =
        ⟨{ u with
          authorizedBy := u.authorizedBy.erase auth
          authorizedModificationTime := env.stgTime }, none⟩) ∨
    (auth ∈ u.authorizedBy ∧ u.authorizedBy.erase auth = ∅ ∧
      u.unauthorize env auth reason =
        let v := { u with
          authorizedBy := ∅
          authorizedModificationTime := env.stgTime
          lastDisconnectReason := reason
          lastIPForDisconnect := u.currIP
          currIP := 0 }
        ⟨if u.connected then v.disconnect env false "not authorized" else v, some u.currIP⟩) := by
  by_cases hauth : auth ∈ u.authorizedBy
  · by_cases he : u.authorizedBy.erase auth = ∅
    · exact .inr (.inr ⟨hauth, he, by simp [unauthorize, hauth, he]⟩)
    · exact .inr (.inl ⟨hauth, he, by simp [unauthorize, hauth, he]⟩)
  · exact .inl ⟨hauth, by simp [unauthorize, hauth]⟩

end UserImpl

/-! ## A sample user

Concrete values on which the model can be evaluated. -/

namespace Sample

/-- Session logging on, reconnection on a change of the tariff, fees always charged in full. -/
def settings : Settings where
  statWritePeriod := 600
  freeMbAllowInet := false
  showFeeInCash := true
  writeFreeMbTraffCost := false
  disableSessionLog := false
  reconnectOnTariffChange := true
  feeChargeType := 0
  fullFee := true

/-- One unit of money for each byte, and five a month. -/
def tariff : TariffImpl where
  tariffConf := { name := "sample", fee := 5 }
  dirPrice := fun _ =>
    { priceDayA := 1, priceNightA := 1, priceDayB := 1, priceNightB := 1, noDiscount := 1 }

/-- The sample settings and tariff at a given time. -/
def env (now : Time) : Env where
  settings := settings
  stgTime := now
  time := now
  localtime := fun _ => ⟨12, 0, 1, 0, 100⟩
  tariffs := fun name => if name = "sample" then some tariff else none
  saveUserStat := true
  shifted := BitVec.allOnes 32

/-- A user with some money and some prepaid traffic. -/
def user (login : String) : UserImpl where
  login := login
  tariff := some tariff
  tariffName := "sample"
  cash := 10
  freeMb := 5

/-- The sample tariff has no negative price. -/
theorem tariff_pricesNonneg : tariff.PricesNonneg := by
  intro dir
  simp [tariff]

end Sample

end Stargazer
