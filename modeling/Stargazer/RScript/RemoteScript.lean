import Mathlib.Data.List.TakeWhile
import Mathlib.Data.List.Lex
import Mathlib.Order.Basic
import Stargazer.Basic
import Stargazer.InetAccess.Packets
import Stargazer.Lib.SortedWalk

set_option relaxedAutoImplicit false
set_option autoImplicit false

/-!
# The remote script

`REMOTE_SCRIPT` (`rscript.cpp`) tells routers which users may use the net: a map gives the routers
of every subnet, and the server sends datagrams about an authorized user to the routers of its
address.  On each router `LISTENER` (`rscriptd/listener.cpp`) keeps a list of users.  A datagram
either connects a user, or says that it is still there, or disconnects it; the listener ignores the
second kind for users it does not know.

Which kind is sent is decided in `PreparePacket` from a counter of the user, not of the router, and
every datagram advances the counter.  `Send` returns in the first turn of its loop, so that it
reaches the first router only; `Reload` walks along the old and the new routers of each user, which
the parser of the map keeps sorted.

The datagrams are taken as they arrive: the tail is encrypted with a password that both sides have.
What the scripts are given besides the parameters is left out.

## Main definitions

* `Stargazer.RSUser`, `Stargazer.RemoteScript` — the server.
* `Stargazer.RSUser.preparePacket`, `Stargazer.RSUser.send`, `Stargazer.RSUser.updateRouter` —
  its datagrams.
* `Stargazer.RSListener` — a router.

## Main results

* `Stargazer.RSUser.updateRouter_eq` — the datagrams of `Reload` for one user.
* `Stargazer.RSListener.Sorted.processAll` — what a router knows after some datagrams.
-/

namespace Stargazer

/-- The address of a router, as a number. -/
abbrev Router := ℕ

/-- A login on a router: its bytes, as numbers. -/
abbrev WireLogin := List ℕ

instance : LawfulBEq WireLogin := inferInstance

/-- `MAX_SHORT_PCKT`. -/
abbrev maxShortPckt : ℕ := 3

/-- `RS_LOGIN_LEN`. -/
abbrev rsLoginLen : ℕ := 32

/-- `RS_PARAMS_LEN`. -/
abbrev rsParamsLen : ℕ := 979

/-- The kinds of datagrams. -/
inductive RSPacketType
  /-- `RS_ALIVE_PACKET`. -/
  | alive
  /-- `RS_CONNECT_PACKET`. -/
  | connect
  /-- `RS_DISCONNECT_PACKET`. -/
  | disconnect
  deriving DecidableEq

/-- A datagram as a router reads it. -/
structure RSPacket where
  /-- `packetType`. -/
  packetType : RSPacketType
  /-- The address of the user. -/
  ip : IP
  /-- The identifier of the user. -/
  id : BitVec 32
  /-- The login of the user. -/
  login : WireLogin
  /-- The parameters of the scripts, empty in short packets. -/
  params : List Byte
  deriving DecidableEq

/-- `NET_ROUTER`.  The parser of the map inserts every router at its `lower_bound`. -/
structure NetRouter where
  /-- The subnet. -/
  subnetIP : IP
  /-- Its mask. -/
  subnetMask : IP
  /-- The routers of the subnet. -/
  routers : List Router
  /-- The routers are sorted. -/
  sorted : routers.Pairwise (· ≤ ·)

/-- The line of a map that lists routers in any order. -/
def NetRouter.parse (subnetIP subnetMask : IP) (routers : List Router) : NetRouter where
  subnetIP := subnetIP
  subnetMask := subnetMask
  routers := routers.foldl (fun rs r => rs.orderedInsert (· ≤ ·) r) []
  sorted := by
    have h : ∀ (rs l : List Router), l.Pairwise (· ≤ ·) →
        (rs.foldl (fun rs r => rs.orderedInsert (· ≤ ·) r) l).Pairwise (· ≤ ·) := by
      intro rs
      induction rs with
      | nil => exact fun l hl => hl
      | cons r rs ih => exact fun l hl => ih _ (hl.orderedInsert r l)
    exact h routers [] List.Pairwise.nil

/-- What the server knows of its users, and the clock. -/
structure RSEnv where
  /-- `stgTime`. -/
  stgTime : Time
  /-- `IsInetable` of the users. -/
  inetable : UserId → Bool
  /-- `GetLogin` of the users. -/
  login : UserId → String
  /-- `GetID` of the users. -/
  id : UserId → BitVec 32
  /-- The names of the parameters in the settings. -/
  userParams : List String
  /-- `GetParamValue` of the users. -/
  paramValue : UserId → String → List Byte

/-- `RS::USER`. -/
structure RSUser where
  /-- When something was sent last. -/
  lastSentTime : Time := 0
  /-- The user. -/
  user : UserId
  /-- The routers the user was announced to. -/
  routers : List Router
  /-- The number of datagrams. -/
  shortPacketsCount : ℕ := 0
  /-- The address of the user. -/
  ip : IP
  deriving DecidableEq

/-! ## Datagrams -/

namespace RSEnv

/-- A login on its way to a router: an array of `RS_LOGIN_LEN` bytes that ends with a zero. -/
def wireLogin (env : RSEnv) (u : UserId) : WireLogin :=
  (cstr ((textBytes (env.login u)).take (rsLoginLen - 1))).map BitVec.toNat

/-- The loop of `PreparePacket` over the parameters. -/
def paramsLoop (env : RSEnv) (u : UserId) : List String → List Byte → List Byte
  | [], params => params
  | param :: rest, params =>
    let value := env.paramValue u param
    if params.length + value.length > rsParamsLen - 1 then params
    else env.paramsLoop u rest (params ++ value ++ textBytes " ")

/-- The parameters in the tail of a datagram. -/
def params (env : RSEnv) (u : UserId) : List Byte :=
  cstr ((env.paramsLoop u env.userParams []).take (rsParamsLen - 1))

end RSEnv

namespace RSUser

/-- The kind of datagram `PreparePacket` chooses. -/
def packetType (env : RSEnv) (rsu : RSUser) (forceDisconnect : Bool) : RSPacketType :=
  if forceDisconnect then .disconnect
  else if rsu.shortPacketsCount % maxShortPckt = 0 then
    if env.inetable rsu.user then .connect else .disconnect
  else if env.inetable rsu.user then .alive
  else .disconnect

/-- `REMOTE_SCRIPT::PreparePacket`: the datagram, and the user afterwards. -/
def preparePacket (env : RSEnv) (rsu : RSUser) (forceDisconnect : Bool) : RSPacket × RSUser :=
  let packetType := rsu.packetType env forceDisconnect
  (⟨packetType, rsu.ip, env.id rsu.user, env.wireLogin rsu.user,
      if packetType = .alive then [] else env.params rsu.user⟩,
    { rsu with
      shortPacketsCount := rsu.shortPacketsCount + 1
      lastSentTime := env.stgTime })

/-- `REMOTE_SCRIPT::Send`: the loop over the routers returns in its first turn. -/
def send (env : RSEnv) (rsu : RSUser) (forceDisconnect : Bool) :
    List (Router × RSPacket) × RSUser :=
  let (packet, rsu') := rsu.preparePacket env forceDisconnect
  match rsu.routers with
  | [] => ([], rsu')
  | r :: _ => ([(r, packet)], rsu')

/-- `REMOTE_SCRIPT::SendDirect`. -/
def sendDirect (env : RSEnv) (rsu : RSUser) (r : Router) (forceDisconnect : Bool) :
    (Router × RSPacket) × RSUser :=
  let (packet, rsu') := rsu.preparePacket env forceDisconnect
  ((r, packet), rsu')

/-- The loop of `UpdateRouter`, which walks along the old and the new routers.  Every turn takes at
least one router, so the fuel need not be more than their number. -/
def updateLoop (env : RSEnv) : ℕ → List Router → List Router → RSUser →
    List (Router × RSPacket) × RSUser
  | 0, _, _, rsu => ([], rsu)
  | _ + 1, [], [], rsu => ([], rsu)
  | n + 1, [], y :: ys, rsu =>
    let (out, rsu) := rsu.sendDirect env y false
    let (outs, rsu) := updateLoop env n [] ys rsu
    (out :: outs, rsu)
  | n + 1, x :: xs, [], rsu =>
    let (out, rsu) := rsu.sendDirect env x true
    let (outs, rsu) := updateLoop env n xs [] rsu
    (out :: outs, rsu)
  | n + 1, x :: xs, y :: ys, rsu =>
    if x < y then
      let (out, rsu) := rsu.sendDirect env x true
      let (outs, rsu) := updateLoop env n xs (y :: ys) rsu
      (out :: outs, rsu)
    else if y < x then
      let (out, rsu) := rsu.sendDirect env y false
      let (outs, rsu) := updateLoop env n (x :: xs) ys rsu
      (out :: outs, rsu)
    else updateLoop env n xs ys rsu

/-- `UpdateRouter::operator()`. -/
def updateRouter (env : RSEnv) (newRouters : List Router) (rsu : RSUser) :
    List (Router × RSPacket) × RSUser :=
  let (outs, rsu') := updateLoop env (rsu.routers.length + newRouters.length) rsu.routers
    newRouters { rsu with shortPacketsCount := 0 }
  (outs, { rsu' with routers := newRouters })

/-- The datagram of a user with a given counter. -/
def packetAt (env : RSEnv) (rsu : RSUser) (i : ℕ) (forceDisconnect : Bool) : RSPacket :=
  ({ rsu with shortPacketsCount := i }.preparePacket env forceDisconnect).1

theorem packetAt_login (env : RSEnv) (rsu : RSUser) (i : ℕ) (forceDisconnect : Bool) :
    (rsu.packetAt env i forceDisconnect).login = env.wireLogin rsu.user := rfl

/-- One datagram, and then those of the rest of a walk. -/
theorem sendDirect_cons (env : RSEnv) (rsu : RSUser) (r : Router) (b : Bool)
    (reports : List (Router × Bool)) :
    (rsu.sendDirect env r b).1 ::
        (reports.zipIdx (rsu.sendDirect env r b).2.shortPacketsCount).map
          (fun p => (p.1.1, (rsu.sendDirect env r b).2.packetAt env p.2 p.1.2)) =
      (((r, b) :: reports).zipIdx rsu.shortPacketsCount).map
        (fun p => (p.1.1, rsu.packetAt env p.2 p.1.2)) := by
  rw [List.zipIdx_cons, List.map_cons]
  rfl

/-- The datagrams of the loop of `UpdateRouter`: the `i`-th report of the walk is sent with the
counter `i` more than at the start.

**Proof sketch.** Induction on the walk; the fuel is not less than the number of routers left. -/
theorem updateLoop_eq (env : RSEnv) (n : ℕ) (xs ys : List Router) (rsu : RSUser)
    (hn : xs.length + ys.length ≤ n) :
    (updateLoop env n xs ys rsu).1 =
        ((SortedWalk.walk xs ys).zipIdx rsu.shortPacketsCount).map
          (fun p => (p.1.1, rsu.packetAt env p.2 p.1.2)) ∧
      (updateLoop env n xs ys rsu).2.user = rsu.user ∧
      (updateLoop env n xs ys rsu).2.ip = rsu.ip := by
  induction xs, ys using SortedWalk.walk.induct generalizing n rsu with
  | case1 => cases n <;> simp [updateLoop, SortedWalk.walk]
  | case2 y ys ih =>
    obtain ⟨m, rfl⟩ : ∃ m, n = m + 1 := ⟨n - 1, by simp at hn; omega⟩
    obtain ⟨hout, hrest⟩ := ih m (rsu.sendDirect env y false).2 (by simp at hn ⊢; omega)
    rw [SortedWalk.walk, ← sendDirect_cons, ← hout]
    exact ⟨rfl, hrest⟩
  | case3 x xs ih =>
    obtain ⟨m, rfl⟩ : ∃ m, n = m + 1 := ⟨n - 1, by simp at hn; omega⟩
    obtain ⟨hout, hrest⟩ := ih m (rsu.sendDirect env x true).2 (by simp at hn ⊢; omega)
    rw [SortedWalk.walk, ← sendDirect_cons, ← hout]
    exact ⟨rfl, hrest⟩
  | case4 x xs y ys hlt ih =>
    obtain ⟨m, rfl⟩ : ∃ m, n = m + 1 := ⟨n - 1, by simp at hn; omega⟩
    obtain ⟨hout, hrest⟩ := ih m (rsu.sendDirect env x true).2 (by simp at hn ⊢; omega)
    rw [SortedWalk.walk, if_pos hlt, ← sendDirect_cons, ← hout, updateLoop, if_pos hlt]
    exact ⟨rfl, hrest⟩
  | case5 x xs y ys hnot hlt ih =>
    obtain ⟨m, rfl⟩ : ∃ m, n = m + 1 := ⟨n - 1, by simp at hn; omega⟩
    obtain ⟨hout, hrest⟩ := ih m (rsu.sendDirect env y false).2 (by simp at hn ⊢; omega)
    rw [SortedWalk.walk, if_neg hnot, if_pos hlt, ← sendDirect_cons, ← hout, updateLoop,
      if_neg hnot, if_pos hlt]
    exact ⟨rfl, hrest⟩
  | case6 x xs y ys hnot hnot' ih =>
    obtain ⟨m, rfl⟩ : ∃ m, n = m + 1 := ⟨n - 1, by simp at hn; omega⟩
    rw [SortedWalk.walk, if_neg hnot, if_neg hnot', updateLoop, if_neg hnot, if_neg hnot']
    exact ih m rsu (by simp at hn ⊢; omega)

/-- **The datagrams of `Reload` for one user.** -/
theorem updateRouter_eq (env : RSEnv) (newRouters : List Router) (rsu : RSUser) :
    (rsu.updateRouter env newRouters).1 =
        ((SortedWalk.walk rsu.routers newRouters).zipIdx 0).map
          (fun p => (p.1.1, rsu.packetAt env p.2 p.1.2)) ∧
      (rsu.updateRouter env newRouters).2.user = rsu.user ∧
      (rsu.updateRouter env newRouters).2.ip = rsu.ip ∧
      (rsu.updateRouter env newRouters).2.routers = newRouters := by
  obtain ⟨hout, huser, hip⟩ := updateLoop_eq env (rsu.routers.length + newRouters.length)
    rsu.routers newRouters { rsu with shortPacketsCount := 0 } le_rfl
  exact ⟨hout, huser, hip, rfl⟩

end RSUser

/-! ## The server -/

/-- `REMOTE_SCRIPT`. -/
structure RemoteScript where
  /-- `netRouters`. -/
  netRouters : List NetRouter
  /-- `authorizedUsers`, in the order of the addresses. -/
  authorizedUsers : List RSUser := []
  /-- `sendPeriod`. -/
  sendPeriod : ℤ

/-- `REMOTE_SCRIPT::IP2Routers`. -/
def ip2Routers (netRouters : List NetRouter) (ip : IP) : List Router :=
  match netRouters.find? fun nr => ip &&& nr.subnetMask = nr.subnetIP &&& nr.subnetMask with
  | some nr => nr.routers
  | none => []

/-- `authorizedUsers.insert`: an entry with the same address is kept. -/
def insertUser (rsu : RSUser) : List RSUser → List RSUser
  | [] => [rsu]
  | x :: xs =>
    if rsu.ip.toNat < x.ip.toNat then rsu :: x :: xs
    else if rsu.ip = x.ip then x :: xs
    else x :: insertUser rsu xs

namespace RemoteScript

/-- `REMOTE_SCRIPT::AddRSU`, with the address the user has. -/
def addRSU (env : RSEnv) (u : UserId) (ip : IP) (s : RemoteScript) :
    List (Router × RSPacket) × RemoteScript :=
  let rsu : RSUser := { user := u, routers := ip2Routers s.netRouters ip, ip := ip }
  let (out, rsu) := rsu.send env false
  (out, { s with authorizedUsers := insertUser rsu s.authorizedUsers })

/-- `REMOTE_SCRIPT::DelRSU`: the first entry of the user. -/
def delRSU (env : RSEnv) (u : UserId) (s : RemoteScript) :
    List (Router × RSPacket) × RemoteScript :=
  match s.authorizedUsers.find? fun x => x.user = u with
  | none => ([], s)
  | some rsu =>
    ((rsu.send env true).1, { s with
      authorizedUsers := s.authorizedUsers.eraseP fun x => x.user = u })

/-- The test of `PeriodicSend`; `rand` is what `rand()` returns for the entries. -/
def Due (env : RSEnv) (rand : IP → ℕ) (s : RemoteScript) (rsu : RSUser) : Prop :=
  env.stgTime - rsu.lastSentTime - rand rsu.ip % (s.sendPeriod / 2) > s.sendPeriod

instance (env : RSEnv) (rand : IP → ℕ) (s : RemoteScript) (rsu : RSUser) :
    Decidable (s.Due env rand rsu) :=
  inferInstanceAs (Decidable
    (env.stgTime - rsu.lastSentTime - rand rsu.ip % (s.sendPeriod / 2) > s.sendPeriod))

/-- Do something with every entry. -/
def forEach (f : RSUser → List (Router × RSPacket) × RSUser) (s : RemoteScript) :
    List (Router × RSPacket) × RemoteScript :=
  (s.authorizedUsers.flatMap fun x => (f x).1,
    { s with authorizedUsers := s.authorizedUsers.map fun x => (f x).2 })

/-- `REMOTE_SCRIPT::PeriodicSend`. -/
def periodicSend (env : RSEnv) (rand : IP → ℕ) (s : RemoteScript) :
    List (Router × RSPacket) × RemoteScript :=
  s.forEach fun x => if s.Due env rand x then x.send env false else ([], x)

/-- `REMOTE_SCRIPT::Reload`, with the map that was read. -/
def reload (env : RSEnv) (netRouters : List NetRouter) (s : RemoteScript) :
    List (Router × RSPacket) × RemoteScript :=
  forEach (fun x => x.updateRouter env (ip2Routers netRouters x.ip))
    { s with netRouters := netRouters }

end RemoteScript

/-! ## The routers -/

/-- `UserData` and `AliveData`. -/
structure RSUserData where
  /-- The login. -/
  login : WireLogin
  /-- The address. -/
  ip : IP
  /-- The identifier. -/
  id : BitVec 32
  /-- The parameters of the scripts. -/
  params : List Byte
  deriving DecidableEq

/-- `LISTENER`. -/
structure RSListener where
  /-- `users`, in the order of the logins. -/
  users : List RSUserData := []
  /-- `pending`. -/
  pending : List RSPacket := []

namespace RSListener

/-- The user data of a datagram. -/
def ofPacket (p : RSPacket) : RSUserData := ⟨p.login, p.ip, p.id, p.params⟩

/-- One turn of the loop of `LISTENER::ProcessPending`. -/
def process (users : List RSUserData) (p : RSPacket) : List RSUserData :=
  -- `std::lower_bound`
  let before := users.takeWhile fun d => d.login < p.login
  let rest := users.dropWhile fun d => d.login < p.login
  match p.packetType, rest with
  | .connect, [] => before ++ [ofPacket p]
  | .connect, d :: ds =>
    if d.login ≠ p.login then before ++ ofPacket p :: d :: ds
    else before ++ { d with params := p.params } :: ds
  | .alive, _ => users
  | .disconnect, [] => users
  | .disconnect, d :: ds => if d.login = p.login then before ++ ds else users

/-- `LISTENER::ProcessPending`. -/
def processPending (l : RSListener) : RSListener :=
  ⟨(l.pending.take 256).foldl process l.users, l.pending.drop 256⟩

/-- The logins a router knows. -/
def logins (users : List RSUserData) : List WireLogin := users.map RSUserData.login

/-- The list is in the order of the logins, and no login is in it twice. -/
def Sorted (users : List RSUserData) : Prop := users.Pairwise fun a b => a.login < b.login

/-- Whether a router knows a login, before and after a datagram. -/
def knows (l : WireLogin) (b : Bool) (p : RSPacket) : Bool :=
  if p.login = l then
    match p.packetType with
    | .connect => true
    | .alive => b
    | .disconnect => false
  else b

section Process

variable {users : List RSUserData}

/-- The parts of the list that `std::lower_bound` gives. -/
theorem Sorted.lowerBound (h : Sorted users) (l : WireLogin) :
    ∃ before rest, users.takeWhile (fun d => d.login < l) = before ∧
      users.dropWhile (fun d => d.login < l) = rest ∧ users = before ++ rest ∧
      (∀ d ∈ before, d.login < l) ∧ (∀ d ∈ rest, l ≤ d.login) := by
  refine ⟨_, _, rfl, rfl, List.takeWhile_append_dropWhile.symm, fun d hd => ?_, fun d hd => ?_⟩
  · simpa using List.mem_takeWhile_imp hd
  · cases hrest : users.dropWhile (fun d => d.login < l) with
    | nil => simp [hrest] at hd
    | cons x xs =>
      have hx : l ≤ x.login := by
        have hne : users.dropWhile (fun d => d.login < l) ≠ [] := by simp [hrest]
        have := List.head_dropWhile_not (fun d : RSUserData => d.login < l) hne
        simpa [hrest] using this
      have hsub : (x :: xs).Pairwise fun a b => a.login < b.login := by
        rw [← hrest]
        exact h.sublist (List.dropWhile_sublist _)
      rw [hrest] at hd
      rcases List.mem_cons.mp hd with rfl | hd
      · exact hx
      · exact le_trans hx (le_of_lt ((List.pairwise_cons.mp hsub).1 d hd))

/-- The list around a login, which is in it once or not at all. -/
theorem Sorted.around (h : Sorted users) (l : WireLogin) :
    ∃ before after, Sorted before ∧ Sorted after ∧ (∀ d ∈ before, d.login < l) ∧
      (∀ d ∈ after, l < d.login) ∧ users.takeWhile (fun d => d.login < l) = before ∧
        ((users = before ++ after ∧ users.dropWhile (fun d => d.login < l) = after) ∨
          ∃ d, d.login = l ∧ users = before ++ d :: after ∧
            users.dropWhile (fun d => d.login < l) = d :: after) := by
  obtain ⟨before, rest, hbefore, hrest, husers, hlt, hle⟩ := h.lowerBound l
  rw [Sorted, husers, List.pairwise_append] at h
  obtain ⟨hsb, hsr, -⟩ := h
  cases rest with
  | nil =>
    exact ⟨before, [], hsb, List.Pairwise.nil, hlt, fun d hd => absurd hd List.not_mem_nil, hbefore,
      .inl ⟨husers, hrest⟩⟩
  | cons d ds =>
    obtain ⟨hd, hds⟩ := List.pairwise_cons.mp hsr
    by_cases hdl : d.login = l
    · subst hdl
      exact ⟨before, ds, hsb, hds, hlt, hd, hbefore, .inr ⟨d, rfl, husers, hrest⟩⟩
    · have hgt : l < d.login := lt_of_le_of_ne (hle d List.mem_cons_self) (Ne.symm hdl)
      refine ⟨before, d :: ds, hsb, hsr, hlt, fun x hx => ?_, hbefore, .inl ⟨husers, hrest⟩⟩
      rcases List.mem_cons.mp hx with rfl | hx
      · exact hgt
      · exact hgt.trans (hd x hx)

section Around

variable {before after : List RSUserData} {l : WireLogin}
  (hsb : Sorted before) (hsa : Sorted after) (hlt : ∀ d ∈ before, d.login < l)
  (hgt : ∀ d ∈ after, l < d.login)

include hlt hgt

theorem notMem_logins_around : l ∉ logins (before ++ after) := by
  intro hc
  obtain ⟨d, hd, heq⟩ := List.mem_map.mp hc
  rcases List.mem_append.mp hd with hd | hd
  · exact lt_irrefl _ (heq ▸ hlt d hd)
  · exact lt_irrefl _ (heq ▸ hgt d hd)

include hsb hsa

theorem sorted_around : Sorted (before ++ after) :=
  List.pairwise_append.mpr ⟨hsb, hsa, fun x hx y hy => (hlt x hx).trans (hgt y hy)⟩

theorem sorted_insert {d : RSUserData} (hd : d.login = l) : Sorted (before ++ d :: after) := by
  subst hd
  refine List.pairwise_append.mpr ⟨hsb, List.pairwise_cons.mpr ⟨hgt, hsa⟩, fun x hx y hy => ?_⟩
  rcases List.mem_cons.mp hy with rfl | hy
  · exact hlt x hx
  · exact (hlt x hx).trans (hgt y hy)

end Around

/-- The logins of a list with one more user. -/
theorem mem_logins_insert {before after : List RSUserData} {d : RSUserData} {l : WireLogin} :
    l ∈ logins (before ++ d :: after) ↔ d.login = l ∨ l ∈ logins (before ++ after) := by
  simp only [logins, List.map_append, List.map_cons, List.mem_append, List.mem_cons, eq_comm (a := l)]
  exact or_left_comm

section Turn

variable {before after : List RSUserData} {p : RSPacket}
  (htake : users.takeWhile (fun d => d.login < p.login) = before)

include htake

/-- A datagram about a login that is not in the list. -/
theorem process_of_absent (hdrop : users.dropWhile (fun d => d.login < p.login) = after)
    (hgt : ∀ d ∈ after, p.login < d.login) :
    process users p = if p.packetType = .connect then before ++ ofPacket p :: after else users := by
  cases hp : p.packetType <;> cases after with
  | nil => simp [process, hp, htake, hdrop]
  | cons d ds =>
    have hne : d.login ≠ p.login := ne_of_gt (hgt d List.mem_cons_self)
    simp [process, hp, htake, hdrop, hne]

/-- A datagram about a login that is in the list. -/
theorem process_of_present {d : RSUserData} (hd : d.login = p.login)
    (hdrop : users.dropWhile (fun d => d.login < p.login) = d :: after) :
    process users p =
      match p.packetType with
      | .connect => before ++ { d with params := p.params } :: after
      | .alive => users
      | .disconnect => before ++ after := by
  cases hp : p.packetType <;> simp [process, hp, htake, hdrop, hd]

end Turn

/-- **One datagram**: the list stays in order, and the router knows the logins it is told.

**Proof sketch.** Everything before the `lower_bound` is smaller than the login of the datagram and
everything behind it is larger, so only the head of the rest can have the login. -/
theorem Sorted.process (h : Sorted users) (p : RSPacket) :
    Sorted (process users p) ∧ ∀ l, l ∈ logins (RSListener.process users p) ↔
      knows l (decide (l ∈ logins users)) p = true := by
  obtain ⟨before, after, hsb, hsa, hlt, hgt, htake, ⟨husers, hdrop⟩ | ⟨d, hd, husers, hdrop⟩⟩ :=
    h.around p.login
  · have hnot : p.login ∉ logins users := husers ▸ notMem_logins_around hlt hgt
    rw [process_of_absent htake hdrop hgt]
    cases hp : p.packetType with
    | connect =>
      refine ⟨sorted_insert hsb hsa hlt hgt rfl, fun l => ?_⟩
      rw [if_pos rfl, mem_logins_insert, ← husers]
      by_cases hl : p.login = l <;> simp [knows, hp, hl, ofPacket]
    | alive =>
      refine ⟨h, fun l => ?_⟩
      simp [knows, hp]
    | disconnect =>
      refine ⟨h, fun l => ?_⟩
      by_cases hl : p.login = l
      · subst hl
        simp [knows, hp, hnot]
      · simp [knows, hl]
  · rw [process_of_present htake hd hdrop]
    cases hp : p.packetType with
    | connect =>
      refine ⟨sorted_insert hsb hsa hlt hgt hd, fun l => ?_⟩
      rw [mem_logins_insert, husers, knows]
      by_cases hl : p.login = l <;> simp [hp, hl, hd, mem_logins_insert]
    | alive =>
      refine ⟨h, fun l => ?_⟩
      simp [knows, hp]
    | disconnect =>
      refine ⟨sorted_around hsb hsa hlt hgt, fun l => ?_⟩
      rw [husers]
      by_cases hl : p.login = l
      · subst hl
        simp [knows, hp, notMem_logins_around hlt hgt]
      · simp [knows, hl, hd, mem_logins_insert]

/-- **Any datagrams.**

**Proof sketch.** Induction on the list of datagrams. -/
theorem Sorted.processAll (h : Sorted users) (ps : List RSPacket) :
    Sorted (ps.foldl RSListener.process users) ∧
      ∀ l, decide (l ∈ logins (ps.foldl RSListener.process users)) =
        ps.foldl (knows l) (decide (l ∈ logins users)) := by
  induction ps generalizing users with
  | nil => exact ⟨h, fun _ => rfl⟩
  | cons p ps ih =>
    obtain ⟨hsorted, hmem⟩ := h.process p
    obtain ⟨hsorted', hmem'⟩ := ih hsorted
    refine ⟨hsorted', fun l => ?_⟩
    have hone : decide (l ∈ logins (RSListener.process users p)) =
        knows l (decide (l ∈ logins users)) p :=
      Bool.eq_iff_iff.mpr (decide_eq_true_iff.trans (hmem l))
    rw [List.foldl_cons, List.foldl_cons, hmem', hone]

end Process

end RSListener

end Stargazer
