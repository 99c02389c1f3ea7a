import Stargazer.AlwaysOnline.AuthAo
import Stargazer.Lib.Entries
import Stargazer.Lib.Run

set_option relaxedAutoImplicit false
set_option autoImplicit false

/-!
# The ping plugin

`PING` (`plugins/other/ping/ping.cpp`) has the addresses of the users pinged by a `STG_PINGER`
(`libs/pinger/pinger.cpp`), and takes over the times of the answers.  Addresses come and go with the
current address of a user and with the list of its addresses; both callbacks put in and take out
entries of the same multimap.  A pass of `PING::Run` is one step, and so is an answer.

Of the multimap only the order of the entries with one address can be seen: `insert` puts a new one
behind them, and `find` gives the first of them.

## Main definitions

* `Stargazer.StgPinger` — `STG_PINGER`, as far as other threads see it.
* `Stargazer.Ping` — the plugin, the users, the answers so far and a log of the visits to users.
* `Stargazer.Ping.Supervised` — the users are pinged, and nobody else, and the visits so far were
  right.
* `Stargazer.Ping.Keeps` — the events that do no harm.

## Main results

* `Stargazer.Ping.supervised_iff` — the runs in which the users are supervised.
-/

namespace Stargazer

/-! ## The pinger -/

/-- `STG_PINGER`: the addresses with the times of their answers, `0` before the first one. -/
abbrev StgPinger := List (IP × Time)

namespace StgPinger

/-- `STG_PINGER::AddIP`. -/
def addIP (ip : IP) (p : StgPinger) : StgPinger := p ++ [(ip, 0)]

/-- `STG_PINGER::DelIP`. -/
def delIP (ip : IP) (p : StgPinger) : StgPinger := p.eraseP fun e => e.1 == ip

/-- `STG_PINGER::GetIPTime`: the return value, and what is in `t` then. -/
def getIPTime (ip : IP) (t : Time) (p : StgPinger) : Bool × Time :=
  match p.find? fun e => e.1 == ip with
  | none => (false, t)
  | some e => (true, e.2)

/-- A round of `STG_PINGER::RunRecvPing`, with the address that `RecvPing` returned. -/
def runRecvPing (ip : IP) (stgTime : Time) (p : StgPinger) : StgPinger :=
  if ip ≠ 0 then p.map fun e => if e.1 = ip then (e.1, stgTime) else e else p

/-- The addresses, with their multiplicities. -/
def addresses (p : StgPinger) : List IP := p.map Prod.fst

end StgPinger

/-! ## The plugin -/

/-- `ips[0].ip`. -/
def UserIPs.firstIP : UserIPs → IP
  | [] => 0
  | im :: _ => im.ip

/-- A visit of a pass to a user, for the log: what there was to see and what became of the ping
time. -/
structure PingVisit where
  /-- The address of the user is known to the pinger. -/
  known : Bool
  /-- The time of the last answer from the address of the user. -/
  answered : Option Time
  /-- The ping time before. -/
  before : Time
  /-- The ping time afterwards. -/
  after : Time

/-- The plugin and what it works with. -/
structure Ping where
  /-- The users. -/
  users : UserId → UserImpl
  /-- `pingTime` of the users. -/
  pingTime : UserId → Time
  /-- `usersList`; the notifiers of these users are set. -/
  usersList : List UserId := []
  /-- `m_pinger`. -/
  pinger : StgPinger := []
  /-- The answers that were received, the latest first. -/
  replies : List (IP × Time) := []
  /-- The visits to users, the latest first. -/
  log : List PingVisit := []

namespace Ping

/-- The address of a user that `GetUsers` and `Run` take: the only one of its list, or else the
current one. -/
def pingedIP (u : UserImpl) : Option IP :=
  if u.ips.onlyOneIP then some u.ips.firstIP
  else if u.currIP ≠ 0 then some u.currIP
  else none

/-- A round of the loop of `PING::GetUsers`. -/
def getUser (s : Ping) (id : UserId) : Ping :=
  let s := { s with usersList := s.usersList ++ [id] }
  match pingedIP (s.users id) with
  | none => s
  | some ip => { s with pinger := s.pinger.addIP ip }

/-- `PING::GetUsers`, called by `PING::Start`. -/
def getUsers (ids : List UserId) (s : Ping) : Ping := ids.foldl getUser s

/-- `PING::AddUser`. -/
def addUser (id : UserId) (s : Ping) : Ping := { s with usersList := s.usersList ++ [id] }

/-- `PING::DelUser`. -/
def delUser (id : UserId) (s : Ping) : Ping := { s with usersList := s.usersList.erase id }

/-- `PING::updateCurrIP`. -/
def updateCurrIP (oldVal newVal : IP) (s : Ping) : Ping :=
  let s := { s with pinger := s.pinger.delIP oldVal }
  if newVal ≠ 0 then { s with pinger := s.pinger.addIP newVal } else s

/-- `PING::updateIPs`. -/
def updateIPs (oldVal newVal : UserIPs) (s : Ping) : Ping :=
  let s := if oldVal.onlyOneIP then { s with pinger := s.pinger.delIP oldVal.firstIP } else s
  if newVal.onlyOneIP then { s with pinger := s.pinger.addIP newVal.firstIP } else s

/-- `UserImpl::UpdatePingTime`, the ping time afterwards. -/
def updatePingTime (stgTime t : Time) : Time := if t ≠ 0 then t else stgTime

/-- The ping time after a round of the inner loop of `PING::Run`.  `t` is what the variable that is
not initialized holds; the result of `GetIPTime` is compared with `0`, which is `false`. -/
def runUser (stgTime t : Time) (id : UserId) (s : Ping) : Time :=
  match pingedIP (s.users id) with
  | none => s.pingTime id
  | some ip =>
    let r := s.pinger.getIPTime ip t
    if r.1 = false then
      if r.2 ≠ 0 then updatePingTime stgTime r.2 else s.pingTime id
    else s.pingTime id

/-! ## What the plugin is for -/

/-- Where a user is to be pinged: a user with only one address at that one, and every other
authorized user at its current address. -/
def address (u : UserImpl) : Option IP :=
  if u.ips.onlyOneIP then some u.ips.firstIP
  else if u.authorizedBy ≠ ∅ then some u.currIP
  else none

/-- The time of the last answer from an address. -/
def lastReply (s : Ping) (ip : IP) : Option Time :=
  (s.replies.find? fun r => r.1 == ip).map Prod.snd

/-- The addresses of the pinger are those where users are to be pinged. -/
def Watches (s : Ping) : Prop :=
  ∀ ip, ip ∈ s.pinger.addresses ↔ ∃ id ∈ s.usersList, address (s.users id) = some ip

/-- A visit after which a user whose address has answered has the time of the last answer, and a
user whose address is unknown to the pinger has the ping time it had. -/
structure Right (v : PingVisit) : Prop where
  answered : ∀ t, v.answered = some t → v.after = t
  unknown : v.known = false → v.after = v.before

/-- The users are pinged, and nobody else, and the passes so far were right. -/
structure Supervised (s : Ping) : Prop where
  watches : s.Watches
  right : ∀ v ∈ s.log, Right v

/-! ## Runs -/

/-- A round of the inner loop of `PING::Run`, with its entry in the log. -/
def visit (stgTime : Time) (t : UserId → Time) (s : Ping) (id : UserId) : Ping :=
  let after := s.runUser stgTime (t id) id
  { s with
    pingTime := Function.update s.pingTime id after
    log :=
      { known := (address (s.users id)).any fun ip => s.pinger.addresses.contains ip
        answered := (address (s.users id)).bind s.lastReply
        before := s.pingTime id
        after := after } :: s.log }

/-- A pass of `PING::Run`. -/
def run (stgTime : Time) (t : UserId → Time) (s : Ping) : Ping :=
  s.usersList.foldl (visit stgTime t) s

/-- What can happen. -/
inductive Event
  /-- `UsersImpl::Add`. -/
  | add (id : UserId) (login : String) (noTariff : TariffImpl) (lastWriteStat passiveTime : Time)
  /-- `UsersImpl::Del`. -/
  | del (id : UserId)
  /-- `UserImpl::Authorize`, with the index of addresses. -/
  | authorize (env : Env) (ipIndex : IP → Option UserId) (id : UserId) (ip : IP) (dirs : BitVec 32)
      (auth : AuthId)
  /-- `UserImpl::Unauthorize`. -/
  | unauthorize (env : Env) (id : UserId) (auth : AuthId) (reason : String)
  /-- A change of `ips`. -/
  | setIps (env : Env) (id : UserId) (ips : UserIPs)
  /-- An answer, or something else, for which `RecvPing` returns `0`. -/
  | recv (ip : IP) (stgTime : Time)
  /-- A pass of `PING::Run`, with what the variable of each round holds. -/
  | run (stgTime : Time) (t : UserId → Time)

/-- Store a user. -/
def setUser (s : Ping) (id : UserId) (u : UserImpl) : Ping :=
  { s with users := Function.update s.users id u }

/-- The callbacks of a user, if they are set. -/
def notify (id : UserId) (callback : Ping → Ping) (s : Ping) : Ping :=
  if id ∈ s.usersList then callback s else s

/-- `UserImpl::Authorize`, with the callback. -/
def authorize (env : Env) (ipIndex : IP → Option UserId) (id : UserId) (ip : IP) (dirs : BitVec 32)
    (auth : AuthId) (s : Ping) : Ping :=
  let r := (s.users id).authorize env ipIndex id ip dirs auth
  if r.ipSet then
    (s.setUser id r.user).notify id (updateCurrIP (s.users id).currIP r.user.currIP)
  else s.setUser id r.user

/-- `UserImpl::Unauthorize`, with the callback. -/
def unauthorize (env : Env) (id : UserId) (auth : AuthId) (reason : String) (s : Ping) : Ping :=
  let r := (s.users id).unauthorize env auth reason
  match r.ipLost with
  | none => s.setUser id r.user
  | some ip => (s.setUser id r.user).notify id (updateCurrIP ip 0)

/-- A change of `ips`, with the callback. -/
def setIps (env : Env) (id : UserId) (ips : UserIPs) (s : Ping) : Ping :=
  (s.setUser id ((s.users id).setIps env ips)).notify id (updateIPs (s.users id).ips ips)

/-- A round of `RunRecvPing`. -/
def recv (ip : IP) (stgTime : Time) (s : Ping) : Ping :=
  { s with
    pinger := s.pinger.runRecvPing ip stgTime
    replies := if ip ≠ 0 then (ip, stgTime) :: s.replies else s.replies }

/-- One event.  A user is added under an identifier of its own, and a user that is deleted is
there. -/
def step (s : Ping) : Event → Option Ping
  | .add id login noTariff lastWriteStat passiveTime =>
    if id ∈ s.usersList then none
    else
      let u := AuthAo.newUser login noTariff lastWriteStat passiveTime
      some (addUser id { s.setUser id u with pingTime := Function.update s.pingTime id 0 })
  | .del id => if id ∈ s.usersList then some (s.delUser id) else none
  | .authorize env ipIndex id ip dirs auth => some (s.authorize env ipIndex id ip dirs auth)
  | .unauthorize env id auth reason => some (s.unauthorize env id auth reason)
  | .setIps env id ips => some (s.setIps env id ips)
  | .recv ip stgTime => some (s.recv ip stgTime)
  | .run stgTime t => some (s.run stgTime t)

/-- The plugin after `PING::Start` with some users. -/
def start (users : UserId → UserImpl) (pingTime : UserId → Time) (ids : List UserId) : Ping :=
  getUsers ids { users := users, pingTime := pingTime }

/-- Another user of the list is to be pinged at an address. -/
def Others (s : Ping) (id : UserId) (ip : IP) : Prop :=
  ∃ j ∈ s.usersList, j ≠ id ∧ address (s.users j) = some ip

/-- The only address of a list. -/
def onlyIP (ips : UserIPs) : Option IP := if ips.onlyOneIP then some ips.firstIP else none

/-- The events that do no harm: a user is deleted while another one is to be pinged at its address,
or it has none; the entry that goes with the last authorizer of a user, or with its list of
addresses, and the one that comes with its new list fit what is left to ping; and there is a pass
while no user is at an address that has answered, but at the time the user has already. -/
def Keeps (s : Ping) : Event → Prop
  | .del id => ∀ ip, address (s.users id) = some ip → s.Others id ip
  | .unauthorize _ id auth _ =>
    id ∈ s.usersList → (s.users id).authorizedBy = {auth} →
      Balanced s.pinger.addresses (s.Others id) (address (s.users id)) (onlyIP (s.users id).ips)
        (some (s.users id).currIP) none
  | .setIps _ id ips =>
    id ∈ s.usersList →
      Balanced s.pinger.addresses (s.Others id) (address (s.users id))
        (address { s.users id with ips := ips }) (onlyIP (s.users id).ips) (onlyIP ips)
  | .run _ _ => ∀ id ∈ s.usersList, ∀ ip, address (s.users id) = some ip →
      ∀ t, s.lastReply ip = some t → s.pingTime id = t
  | _ => True

/-- What holds in all runs: a user has an address while it is authorized, and is in the list once. -/
structure Sound (s : Ping) : Prop where
  currIP_eq_zero : ∀ id, (s.users id).currIP = 0 ↔ (s.users id).authorizedBy = ∅
  nodup : s.usersList.Nodup

/-! ## The addresses of the pinger -/

section Addresses

variable (ip : IP) (p : StgPinger)

theorem addresses_addIP : (p.addIP ip).addresses = p.addresses ++ [ip] := by
  simp [StgPinger.addIP, StgPinger.addresses]

theorem addresses_delIP : (p.delIP ip).addresses = p.addresses.erase ip := by
  induction p with
  | nil => rfl
  | cons e p ih =>
    by_cases he : e.1 = ip
    · simp [StgPinger.delIP, StgPinger.addresses, he]
    · have htail : (StgPinger.delIP ip (e :: p)).addresses =
          e.1 :: (StgPinger.delIP ip p).addresses := by
        simp [StgPinger.delIP, StgPinger.addresses, he]
      have herase : (e.1 :: StgPinger.addresses p).erase ip =
          e.1 :: (StgPinger.addresses p).erase ip := List.erase_cons_tail (by simpa using he)
      rw [htail, ih]
      exact herase.symm

theorem addresses_runRecvPing (stgTime : Time) :
    (p.runRecvPing ip stgTime).addresses = p.addresses := by
  unfold StgPinger.runRecvPing
  split_ifs
  · simp only [StgPinger.addresses, List.map_map]
    refine List.map_congr_left fun e _ => ?_
    simp only [Function.comp_apply]
    split_ifs <;> rfl
  · rfl

/-- An address of the pinger is found. -/
theorem getIPTime_of_mem (t : Time) (h : ip ∈ p.addresses) : (p.getIPTime ip t).1 = true := by
  obtain ⟨e, he, rfl⟩ := List.mem_map.1 h
  have hsome : (p.find? fun e' => e'.1 == e.1).isSome := List.find?_isSome.2 ⟨e, he, by simp⟩
  obtain ⟨e', he'⟩ := Option.isSome_iff_exists.1 hsome
  simp [StgPinger.getIPTime, he']

end Addresses

/-- What the callback for the current address does to the addresses, if there is a new one. -/
theorem addresses_updateCurrIP {oldVal newVal : IP} (s : Ping) :
    (s.updateCurrIP oldVal newVal).pinger.addresses =
      changeEntries s.pinger.addresses (some oldVal) (if newVal = 0 then none else some newVal) := by
  unfold updateCurrIP
  by_cases h : newVal = 0
  · simp [h, addresses_delIP, changeEntries]
  · rw [if_pos h, if_neg h]
    simp only [addresses_addIP, addresses_delIP, changeEntries, Option.elim_some,
      Option.toList_some]

/-- What the callback for the list of addresses does to the addresses. -/
theorem addresses_updateIPs (oldVal newVal : UserIPs) (s : Ping) :
    (s.updateIPs oldVal newVal).pinger.addresses =
      changeEntries s.pinger.addresses (onlyIP oldVal) (onlyIP newVal) := by
  unfold updateIPs onlyIP
  by_cases hold : oldVal.onlyOneIP
  all_goals
    by_cases hnew : newVal.onlyOneIP
    all_goals simp [hold, hnew, addresses_delIP, addresses_addIP, changeEntries]

/-! ## The users -/

theorem updateCurrIP_frame (oldVal newVal : IP) (s : Ping) :
    ∃ p, s.updateCurrIP oldVal newVal = { s with pinger := p } := by
  unfold updateCurrIP
  split_ifs <;> exact ⟨_, rfl⟩

theorem updateIPs_frame (oldVal newVal : UserIPs) (s : Ping) :
    ∃ p, s.updateIPs oldVal newVal = { s with pinger := p } := by
  unfold updateIPs
  split_ifs <;> exact ⟨_, rfl⟩

/-- An authorized user has an address, so the code and its purpose agree on where a user is. -/
theorem pingedIP_eq_address {u : UserImpl} (h : u.currIP = 0 ↔ u.authorizedBy = ∅) :
    pingedIP u = address u := by
  unfold pingedIP address
  simp only [ne_eq, h]

/-- Nobody is at the address `0`. -/
theorem address_ne_zero {u : UserImpl} (h : u.currIP = 0 ↔ u.authorizedBy = ∅) :
    address u ≠ some 0 := by
  unfold address
  split_ifs with hone hauth
  · obtain ⟨ip, hip, hips⟩ := (AuthAo.onlyOneIP_iff _).1 hone
    simpa [hips, UserIPs.firstIP] using hip
  · exact fun h0 => hauth (h.1 (Option.some.inj h0))
  · simp

/-- The address of a user depends on its list, its authorizers and its current address. -/
theorem address_congr {u v : UserImpl} (hips : v.ips = u.ips)
    (hauth : v.authorizedBy = ∅ ↔ u.authorizedBy = ∅) (hcurr : v.currIP = u.currIP) :
    address v = address u := by
  unfold address
  simp only [hips, hcurr, ne_eq, hauth]

/-- The address of a user without authorizers is the only one of its list. -/
theorem address_of_unauthorized {u : UserImpl} (h : u.authorizedBy = ∅) :
    address u = onlyIP u.ips := by
  simp [address, onlyIP, h]

/-- **What `Authorize` can do** to where a user is: nothing, or the first authorizer gives the user
an address of its list. -/
theorem authorize_cases (env : Env) (ipIndex : IP → Option UserId) (self : UserId) (ip : IP)
    (dirs : BitVec 32) (auth : AuthId) (u : UserImpl) :
    let r := u.authorize env ipIndex self ip dirs auth
    r.user.ips = u.ips ∧
      ((r.ipSet = false ∧ r.user.currIP = u.currIP ∧
          (r.user.authorizedBy = ∅ ↔ u.authorizedBy = ∅)) ∨
        (r.ipSet = true ∧ u.authorizedBy = ∅ ∧ ip ≠ 0 ∧ u.ips.find env.shifted ip = true ∧
          r.user.currIP = ip ∧ r.user.authorizedBy ≠ ∅)) := by
  intro r
  simp only [r, UserImpl.authorize]
  split_ifs with h1 h2 h3 h4 h5 h6 h7
  all_goals simp_all

/-- **What `Unauthorize` can do** to where a user is: nothing, or the last authorizer takes the
address of the user away. -/
theorem unauthorize_cases (env : Env) (auth : AuthId) (reason : String) (u : UserImpl) :
    let r := u.unauthorize env auth reason
    r.user.ips = u.ips ∧
      ((r.ipLost = none ∧ u.authorizedBy ≠ {auth} ∧ r.user.currIP = u.currIP ∧
          (r.user.authorizedBy = ∅ ↔ u.authorizedBy = ∅)) ∨
        (r.ipLost = some u.currIP ∧ u.authorizedBy = {auth} ∧ r.user.currIP = 0 ∧
          r.user.authorizedBy = ∅)) := by
  intro r
  simp only [r, UserImpl.unauthorize]
  by_cases hmem : auth ∉ u.authorizedBy
  · rw [if_pos hmem]
    refine ⟨rfl, .inl ⟨rfl, fun h => hmem (by simp [h]), rfl, Iff.rfl⟩⟩
  · rw [if_neg hmem]
    rw [not_not] at hmem
    by_cases hlast : u.authorizedBy.erase auth = ∅
    · have hone : u.authorizedBy = {auth} :=
        ((Finset.erase_eq_empty_iff _ _).1 hlast).resolve_left (Finset.ne_empty_of_mem hmem)
      rw [if_pos hlast]
      by_cases hconn : u.connected = true
      · simp [hconn, hone]
      · simp [hconn, hone]
    · rw [if_neg hlast]
      refine ⟨rfl, .inl ⟨rfl, fun h => hlast (by simp [h]), rfl, ?_⟩⟩
      exact iff_of_false hlast (Finset.ne_empty_of_mem hmem)

/-! ## What a step keeps -/

section Steps

variable {s s' : Ping} {id : UserId}

theorem setUser_self (u : UserImpl) : (s.setUser id u).users id = u := Function.update_self ..

theorem setUser_of_ne {j : UserId} (u : UserImpl) (h : j ≠ id) :
    (s.setUser id u).users j = s.users j := Function.update_of_ne h ..

/-- Storing a user that is at an address while it is authorized. -/
theorem Sound.setUser (h : s.Sound) {u : UserImpl} (hu : u.currIP = 0 ↔ u.authorizedBy = ∅) :
    (s.setUser id u).Sound where
  currIP_eq_zero j := by
    by_cases hj : j = id
    · subst hj
      rw [setUser_self]
      exact hu
    · rw [setUser_of_ne u hj]
      exact h.currIP_eq_zero j
  nodup := h.nodup

/-- The callbacks change the pinger only. -/
theorem Sound.notify (h : s.Sound) {callback : Ping → Ping}
    (hframe : ∃ p, callback s = { s with pinger := p }) : (s.notify id callback).Sound := by
  unfold Ping.notify
  split_ifs
  · obtain ⟨p, hp⟩ := hframe
    rw [hp]
    exact ⟨h.currIP_eq_zero, h.nodup⟩
  · exact h

/-- A pass changes ping times and the log only. -/
theorem run_frame (stgTime : Time) (t : UserId → Time) (s : Ping) :
    ∃ pt log, s.run stgTime t = { s with pingTime := pt, log := log } := by
  have hfold : ∀ (ids : List UserId) (s : Ping),
      ∃ pt log, ids.foldl (visit stgTime t) s = { s with pingTime := pt, log := log } := by
    intro ids
    induction ids with
    | nil => exact fun s => ⟨s.pingTime, s.log, rfl⟩
    | cons id ids ih =>
      intro s
      obtain ⟨pt, log, h⟩ := ih (s.visit stgTime t id)
      exact ⟨pt, log, h⟩
  exact hfold _ s

/-- **One step keeps what holds in all runs.** -/
theorem Sound.step (h : s.Sound) {e : Event} (hs : s.step e = some s') : s'.Sound := by
  cases e with
  | add id login noTariff lastWriteStat passiveTime =>
    simp only [Ping.step] at hs
    split_ifs at hs with hmem
    cases hs
    have hset : (s.setUser id (AuthAo.newUser login noTariff lastWriteStat passiveTime)).Sound :=
      h.setUser (by simp [AuthAo.newUser])
    refine ⟨hset.currIP_eq_zero, ?_⟩
    exact List.Nodup.append h.nodup (List.nodup_singleton id) (by simpa [Ping.setUser] using hmem)
  | del id =>
    simp only [Ping.step] at hs
    split_ifs at hs
    cases hs
    exact ⟨h.currIP_eq_zero, h.nodup.erase id⟩
  | authorize env ipIndex id ip dirs auth =>
    cases hs
    obtain ⟨-, ⟨hset, hcurr, hauth⟩ | ⟨hset, -, hip, -, hcurr, hauth⟩⟩ :=
      authorize_cases env ipIndex id ip dirs auth (s.users id)
    · simp only [Ping.authorize, hset, Bool.false_eq_true, if_false]
      exact h.setUser (by rw [hcurr, hauth]; exact h.currIP_eq_zero id)
    · simp only [Ping.authorize, hset, if_true]
      refine (h.setUser ?_).notify (updateCurrIP_frame ..)
      rw [hcurr]
      exact iff_of_false hip hauth
  | unauthorize env id auth reason =>
    cases hs
    obtain ⟨-, ⟨hlost, -, hcurr, hauth⟩ | ⟨hlost, -, hcurr, hauth⟩⟩ :=
      unauthorize_cases env auth reason (s.users id)
    · simp only [Ping.unauthorize, hlost]
      exact h.setUser (by rw [hcurr, hauth]; exact h.currIP_eq_zero id)
    · simp only [Ping.unauthorize, hlost]
      exact (h.setUser (iff_of_true hcurr hauth)).notify (updateCurrIP_frame ..)
  | setIps env id ips =>
    cases hs
    have hseat := (AuthAo.sameSeat_setIps env ips (s.users id)).1
    refine (h.setUser ?_).notify (updateIPs_frame ..)
    rw [hseat.currIP, hseat.authorizedBy]
    exact h.currIP_eq_zero id
  | recv ip stgTime =>
    cases hs
    exact ⟨h.currIP_eq_zero, h.nodup⟩
  | run stgTime t =>
    cases hs
    obtain ⟨pt, log, hrun⟩ := run_frame stgTime t s
    rw [hrun]
    exact ⟨h.currIP_eq_zero, h.nodup⟩

/-! ## Where users are -/

/-- A user of the list and the others. -/
theorem exists_address_iff (hid : id ∈ s.usersList) (ip : IP) :
    (∃ j ∈ s.usersList, address (s.users j) = some ip) ↔
      s.Others id ip ∨ address (s.users id) = some ip := by
  constructor
  · rintro ⟨j, hj, haddr⟩
    by_cases hji : j = id
    · exact .inr (hji ▸ haddr)
    · exact .inl ⟨j, hj, hji, haddr⟩
  · rintro (⟨j, hj, -, haddr⟩ | haddr)
    · exact ⟨j, hj, haddr⟩
    · exact ⟨id, hid, haddr⟩

/-- A change of a user leaves the others where they are. -/
theorem others_setUser (u : UserImpl) (ip : IP) :
    (s.setUser id u).Others id ip ↔ s.Others id ip := by
  have hcongr : ∀ j, (j ∈ s.usersList ∧ j ≠ id ∧
      address ((s.setUser id u).users j) = some ip) ↔
        (j ∈ s.usersList ∧ j ≠ id ∧ address (s.users j) = some ip) := by
    intro j
    refine and_congr_right fun _ => and_congr_right fun hne => ?_
    rw [setUser_of_ne u hne]
  exact exists_congr hcongr

/-- **A change of one user.** If users are pinged where they are, they still are after a change of a
user and of the entries exactly if the change is balanced. -/
theorem watches_change_iff (h : s.Watches) (hid : id ∈ s.usersList) {u : UserImpl} {p : StgPinger}
    {del add : Option IP} (hp : p.addresses = changeEntries s.pinger.addresses del add) :
    Watches { s.setUser id u with pinger := p } ↔
      Balanced s.pinger.addresses (s.Others id) (address (s.users id)) (address u) del add := by
  rw [← mem_changeEntries_iff_balanced fun ip => (h ip).trans (exists_address_iff hid ip), ← hp]
  refine forall_congr' fun ip => iff_congr Iff.rfl ?_
  have hmem : id ∈ (s.setUser id u).usersList := hid
  have hiff := exists_address_iff hmem ip
  rw [others_setUser, setUser_self] at hiff
  exact hiff

/-- A change of a user that leaves it where it is. -/
theorem watches_setUser_iff {u : UserImpl} (hu : id ∈ s.usersList → address u = address (s.users id)) :
    (s.setUser id u).Watches ↔ s.Watches := by
  refine forall_congr' fun ip => iff_congr Iff.rfl (exists_congr fun j => ?_)
  refine and_congr_right fun hj => ?_
  have hj : j ∈ s.usersList := hj
  by_cases hji : j = id
  · subst hji
    rw [setUser_self, hu hj]
  · rw [setUser_of_ne u hji]

/-! ## Exactness -/

/-- An event without a pass keeps the users supervised exactly if they are pinged where they are. -/
theorem supervised_iff_watches (h : s.Supervised) (hlog : s'.log = s.log) :
    s'.Supervised ↔ s'.Watches :=
  ⟨fun h' => h'.watches, fun h' => ⟨h', fun v hv => h.right v (hlog ▸ hv)⟩⟩

/-- A user that is added is to be pinged nowhere. -/
theorem watches_add (h : s.Watches) (hid : id ∉ s.usersList) {u : UserImpl}
    (hu : address u = none) (pt : UserId → Time) :
    Watches (addUser id { s.setUser id u with pingTime := pt }) := by
  intro ip
  rw [show (addUser id { s.setUser id u with pingTime := pt }).pinger = s.pinger from rfl, h ip]
  constructor
  · rintro ⟨j, hj, haddr⟩
    have hne : j ≠ id := fun hji => hid (hji ▸ hj)
    refine ⟨j, List.mem_append_left _ hj, ?_⟩
    rw [show (addUser id { s.setUser id u with pingTime := pt }).users j = s.users j from
      setUser_of_ne u hne]
    exact haddr
  · rintro ⟨j, hj, haddr⟩
    rcases List.mem_append.1 hj with hj | hj
    · have hne : j ≠ id := fun hji => hid (hji ▸ hj)
      rw [show (addUser id { s.setUser id u with pingTime := pt }).users j = s.users j from
        setUser_of_ne u hne] at haddr
      exact ⟨j, hj, haddr⟩
    · obtain rfl := List.mem_singleton.1 hj
      rw [show (addUser j { s.setUser j u with pingTime := pt }).users j = u from
        setUser_self u, hu] at haddr
      exact absurd haddr (by simp)

/-- A user is deleted without harm exactly if another one is to be pinged at its address. -/
theorem watches_del_iff (h : s.Watches) (hn : s.usersList.Nodup) (hid : id ∈ s.usersList) :
    (s.delUser id).Watches ↔ ∀ ip, address (s.users id) = some ip → s.Others id ip := by
  have hrest : ∀ ip, (∃ j ∈ (s.delUser id).usersList, address ((s.delUser id).users j) = some ip) ↔
      s.Others id ip := by
    intro ip
    refine exists_congr fun j => ?_
    rw [show (s.delUser id).usersList = s.usersList.erase id from rfl, hn.mem_erase_iff, and_assoc,
      and_left_comm]
    rfl
  have hall : ∀ ip, ip ∈ (s.delUser id).pinger.addresses ↔
      s.Others id ip ∨ address (s.users id) = some ip := fun ip =>
    (h ip).trans (exists_address_iff hid ip)
  constructor
  · intro h' ip haddr
    exact (hrest ip).1 ((h' ip).1 ((hall ip).2 (.inr haddr)))
  · intro hothers ip
    rw [hall ip, hrest ip]
    exact ⟨fun hor => hor.elim (fun ho => ho) (hothers ip), .inl⟩

/-- The address that a user gets with its first authorizer is put in without harm. -/
theorem balanced_authorize (hs : s.Sound) (h : s.Watches) {shifted : BitVec 32} {ip : IP} {u : UserImpl}
    (hips : u.ips = (s.users id).ips) (hauth : (s.users id).authorizedBy = ∅)
    (hfind : (s.users id).ips.find shifted ip = true) (hcurr : u.currIP = ip) (hby : u.authorizedBy ≠ ∅) :
    Balanced s.pinger.addresses (s.Others id) (address (s.users id)) (address u)
      (some (s.users id).currIP) (some ip) := by
  have hzero : (s.users id).currIP = 0 := (hs.currIP_eq_zero id).2 hauth
  -- a user with only one address is to be pinged there before and afterwards
  have hone : (s.users id).ips.onlyOneIP = true →
      address (s.users id) = some ip ∧ address u = some ip := by
    intro hone
    obtain ⟨ip₀, hip₀, hlist⟩ := (AuthAo.onlyOneIP_iff _).1 hone
    have hmask : UserIPs.calcMask shifted 32 = BitVec.allOnes 32 := UserIPs.calcMask_32
    simp only [hlist, UserIPs.find, if_neg hip₀, List.any_cons, List.any_nil, Bool.or_false, hmask,
      BitVec.and_allOnes, beq_iff_eq] at hfind
    have hfirst : (s.users id).ips.firstIP = ip := by
      rw [hlist, hfind]
      rfl
    simp [address, hips, hone, hfirst]
  have hafter : address u = some ip := by
    by_cases h1 : (s.users id).ips.onlyOneIP = true
    · exact (hone h1).2
    · simp [address, hips, h1, hby, hcurr]
  have hbefore : ∀ x, address (s.users id) = some x → x = ip := by
    intro x hx
    by_cases h1 : (s.users id).ips.onlyOneIP = true
    · exact Option.some.inj (hx.symm.trans (hone h1).1)
    · simp [address, h1, hauth] at hx
  refine ⟨fun x hdel _ hx => ?_, fun x hx hadd => absurd (hafter.symm.trans hx) hadd,
    fun x hx _ => .inr (hbefore x hx ▸ hafter), fun x hadd => .inr (hafter.trans hadd)⟩
  -- nothing is taken out, as nobody is at the address `0`
  obtain ⟨j, -, haddr⟩ := (h x).1 hx
  rw [← Option.some.inj hdel, hzero] at haddr
  exact absurd haddr (address_ne_zero (hs.currIP_eq_zero j))

/-- A visit to a user that is pinged where it is changes no ping time. -/
theorem runUser_eq (hs : s.Sound) (h : s.Watches) (hid : id ∈ s.usersList) (stgTime t : Time) :
    s.runUser stgTime t id = s.pingTime id := by
  unfold runUser
  rw [pingedIP_eq_address (hs.currIP_eq_zero id)]
  cases haddr : address (s.users id) with
  | none => rfl
  | some ip =>
    have hmem : ip ∈ s.pinger.addresses := (h ip).2 ⟨id, hid, haddr⟩
    simp [getIPTime_of_mem ip s.pinger t hmem]

/-- The entry of the log for a visit that changes nothing. -/
def idleVisit (s : Ping) (id : UserId) : PingVisit where
  known := (address (s.users id)).any fun ip => s.pinger.addresses.contains ip
  answered := (address (s.users id)).bind s.lastReply
  before := s.pingTime id
  after := s.pingTime id

/-- **A pass writes no ping time**, if the users are pinged where they are: `GetIPTime` returns `true`
for all of them.

**Proof sketch.** By induction on the rest of the list. -/
theorem run_eq (hs : s.Sound) (h : s.Watches) (stgTime : Time) (t : UserId → Time) :
    s.run stgTime t = { s with log := (s.usersList.map s.idleVisit).reverse ++ s.log } := by
  have hfold : ∀ (ids : List UserId) (log : List PingVisit), (∀ id ∈ ids, id ∈ s.usersList) →
      ids.foldl (visit stgTime t) { s with log := log } =
        { s with log := (ids.map s.idleVisit).reverse ++ log } := by
    intro ids
    induction ids with
    | nil => exact fun log _ => rfl
    | cons id ids ih =>
      intro log hids
      have hrun : ({ s with log := log } : Ping).runUser stgTime (t id) id = s.pingTime id :=
        runUser_eq hs h (hids id List.mem_cons_self) stgTime (t id)
      have hvisit : visit stgTime t { s with log := log } id =
          { s with log := s.idleVisit id :: log } := by
        unfold visit
        rw [hrun]
        simp only [Function.update_eq_self]
        rfl
      rw [List.foldl_cons, hvisit, ih _ fun j hj => hids j (List.mem_cons_of_mem _ hj)]
      simp
  exact hfold s.usersList s.log fun _ hid => hid

/-- A visit that changes nothing is right exactly if the user has the time of the last answer
already. -/
theorem right_idleVisit_iff :
    Right (s.idleVisit id) ↔ ∀ ip, address (s.users id) = some ip →
      ∀ t, s.lastReply ip = some t → s.pingTime id = t := by
  constructor
  · intro hright ip haddr t ht
    exact hright.answered t (by simp [idleVisit, haddr, ht])
  · intro hall
    refine ⟨fun t ht => ?_, fun _ => rfl⟩
    obtain ⟨ip, haddr, ht⟩ := Option.bind_eq_some_iff.1 ht
    exact hall ip haddr t ht

/-- A change of a user, with the callback if it is set. -/
theorem supervised_notify_iff (h : s.Supervised) {u : UserImpl} {callback : Ping → Ping}
    {del add : Option IP}
    (hframe : ∃ p, callback (s.setUser id u) = { s.setUser id u with pinger := p })
    (haddr : (callback (s.setUser id u)).pinger.addresses =
      changeEntries s.pinger.addresses del add) :
    ((s.setUser id u).notify id callback).Supervised ↔
      (id ∈ s.usersList → Balanced s.pinger.addresses (s.Others id) (address (s.users id))
        (address u) del add) := by
  have hlist : (s.setUser id u).usersList = s.usersList := rfl
  by_cases hid : id ∈ s.usersList
  · obtain ⟨p, hp⟩ := hframe
    rw [hp] at haddr
    rw [Ping.notify, if_pos (hlist ▸ hid), hp, forall_prop_of_true hid]
    exact (supervised_iff_watches h (by rfl)).trans (watches_change_iff h.watches hid haddr)
  · rw [Ping.notify, if_neg (hlist ▸ hid)]
    refine iff_of_true ?_ fun hmem => absurd hmem hid
    exact ⟨(watches_setUser_iff fun hmem => absurd hmem hid).2 h.watches, h.right⟩

/-- A change of a user that leaves it where it is keeps the users supervised. -/
theorem Supervised.setUser (h : s.Supervised) {u : UserImpl}
    (hu : address u = address (s.users id)) : (s.setUser id u).Supervised :=
  ⟨(watches_setUser_iff fun _ => hu).2 h.watches, h.right⟩

/-- **What one step does to the supervision**: it is kept exactly by the events that do no harm. -/
theorem supervised_step_iff (hs : s.Sound) (h : s.Supervised) {e : Event}
    (hstep : s.step e = some s') : s'.Supervised ↔ s.Keeps e := by
  have hw := h.watches
  cases e with
  | add id login noTariff lastWriteStat passiveTime =>
    simp only [Ping.step] at hstep
    split_ifs at hstep with hmem
    cases hstep
    refine iff_of_true ((supervised_iff_watches h (by rfl)).2 ?_) trivial
    exact watches_add hw hmem rfl _
  | del id =>
    simp only [Ping.step] at hstep
    split_ifs at hstep with hmem
    cases hstep
    exact (supervised_iff_watches h (by rfl)).trans (watches_del_iff hw hs.nodup hmem)
  | authorize env ipIndex id ip dirs auth =>
    cases hstep
    refine iff_of_true ?_ trivial
    obtain ⟨hips, ⟨hset, hcurr, hauth⟩ | ⟨hset, hauth, hip, hfind, hcurr, hby⟩⟩ :=
      authorize_cases env ipIndex id ip dirs auth (s.users id)
    · simp only [Ping.authorize, hset, Bool.false_eq_true, if_false]
      exact h.setUser (address_congr hips hauth hcurr)
    · simp only [Ping.authorize, hset, if_true]
      rw [supervised_notify_iff h (updateCurrIP_frame ..) (addresses_updateCurrIP ..), hcurr,
        if_neg hip]
      exact fun _ => balanced_authorize hs hw hips hauth hfind hcurr hby
  | unauthorize env id auth reason =>
    cases hstep
    obtain ⟨hips, ⟨hlost, hother, hcurr, hauth⟩ | ⟨hlost, hone, hcurr, hauth⟩⟩ :=
      unauthorize_cases env auth reason (s.users id)
    · simp only [Ping.unauthorize, hlost]
      exact iff_of_true (h.setUser (address_congr hips hauth hcurr)) fun _ hone => absurd hone hother
    · simp only [Ping.unauthorize, hlost]
      rw [supervised_notify_iff h (updateCurrIP_frame ..) (addresses_updateCurrIP ..), if_pos rfl,
        address_of_unauthorized hauth, hips]
      exact forall_congr' fun _ => ⟨fun hb _ => hb, fun hb => hb hone⟩
  | setIps env id ips =>
    cases hstep
    obtain ⟨hseat, hips⟩ := AuthAo.sameSeat_setIps env ips (s.users id)
    have haddr : address ((s.users id).setIps env ips) = address { s.users id with ips := ips } :=
      address_congr hips (by rw [hseat.authorizedBy]) hseat.currIP
    refine (supervised_notify_iff h (updateIPs_frame ..) (addresses_updateIPs ..)).trans ?_
    rw [haddr]
    rfl
  | recv ip stgTime =>
    cases hstep
    refine iff_of_true ⟨fun x => ?_, h.right⟩ trivial
    rw [show (s.recv ip stgTime).pinger.addresses = s.pinger.addresses from
      addresses_runRecvPing ..]
    exact hw x
  | run stgTime t =>
    cases hstep
    rw [run_eq hs hw]
    constructor
    · intro h' id hid
      refine right_idleVisit_iff.1 (h'.right _ ?_)
      exact List.mem_append_left _ (List.mem_reverse.2 (List.mem_map_of_mem hid))
    · intro hall
      refine ⟨hw, fun v hv => ?_⟩
      rcases List.mem_append.1 hv with hv | hv
      · obtain ⟨id, hid, rfl⟩ := List.mem_map.1 (List.mem_reverse.1 hv)
        exact right_idleVisit_iff.2 (hall id hid)
      · exact h.right v hv

end Steps

/-! ## The start -/

/-- The users that are there at the start are pinged where they are.

**Proof sketch.** By induction on the list of the users, with the users before it. -/
theorem getUsers_watches {s : Ping} (hcurr : ∀ id, (s.users id).currIP = 0 ↔
    (s.users id).authorizedBy = ∅) (h : s.Watches) (ids : List UserId) :
    (getUsers ids s).Watches ∧ (getUsers ids s).usersList = s.usersList ++ ids ∧
      (getUsers ids s).users = s.users ∧ (getUsers ids s).log = s.log := by
  induction ids generalizing s with
  | nil => exact ⟨h, by simp [getUsers], rfl, rfl⟩
  | cons id ids ih =>
    have hframe : (getUser s id).usersList = s.usersList ++ [id] ∧
        (getUser s id).users = s.users ∧ (getUser s id).log = s.log := by
      cases hip : pingedIP (s.users id) <;> simp [getUser, hip]
    obtain ⟨hlist, husers, hlog⟩ := hframe
    have haddr : (getUser s id).pinger.addresses =
        s.pinger.addresses ++ (address (s.users id)).toList := by
      unfold getUser
      rw [← pingedIP_eq_address (hcurr id)]
      simp only
      cases pingedIP (s.users id) with
      | none => simp
      | some ip => exact addresses_addIP ..
    have hw : (getUser s id).Watches := by
      intro ip
      rw [haddr, hlist, husers, List.mem_append, h ip]
      simp [or_and_right, exists_or, Option.mem_toList]
    obtain ⟨h1, h2, h3, h4⟩ := ih (husers ▸ hcurr) hw
    refine ⟨h1, ?_, h3.trans husers, h4.trans hlog⟩
    rw [show getUsers (id :: ids) s = getUsers ids (getUser s id) from rfl, h2, hlist]
    simp

end Ping

namespace Sample

/-- The address 192.168.2.1. -/
def pingedAddress : IP := 0x0102a8c0

/-- The plugin is started with one user, who may come from anywhere. -/
def pingStart : Ping := Ping.start (fun _ => user "alice") (fun _ => 0) [0]

/-- The user gets a list with one address. -/
def giveAddress : Ping.Event := .setIps (env 0) 0 [⟨pingedAddress, 32⟩]

end Sample

end Stargazer
