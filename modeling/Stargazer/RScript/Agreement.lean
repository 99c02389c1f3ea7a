import Stargazer.Lib.Run
import Stargazer.RScript.RemoteScript

set_option relaxedAutoImplicit false
set_option autoImplicit false

/-!
# Agreement between the server and its routers

The server and the routers together: what the server sends to a router waits in the network, in its
order, until the router receives it, and then in the list of pending datagrams until the router
processes it.  When nothing waits anywhere, a router is to know a user if and only if the user is
authorized, may use the net and has the router in the list of its address.

This is said for one user at a time.  Since a router is sent `connect` only once, and only if the
counter of the user says so, some steps break the agreement:

* a user is added, or deleted, while its address has several routers, of which only the first is
  told;
* a new map gives the user a router whose datagram is not the first, fourth, seventh one that is
  sent for this user, or a router fewer times than the old one.

## Main definitions

* `Stargazer.RSSystem` — the server, the network and the routers.
* `Stargazer.RSSystem.Agreement` — what is to hold.
* `Stargazer.RSSystem.Guard` — the steps that keep it.
* `Stargazer.RSSystem.Invariant` — what they keep, also while datagrams wait.

## Main results

* `Stargazer.RSUser.foldl_updateRouter` — what a router knows after `Reload`.
* `Stargazer.RSSystem.Invariant.step` — one step.
* `Stargazer.remote_script_agreement` — every run.
-/

namespace Stargazer

/-- The server, the network and the routers. -/
structure RSSystem where
  /-- The server. -/
  server : RemoteScript
  /-- The datagrams on their way to a router. -/
  network : Router → List RSPacket := fun _ => []
  /-- The routers. -/
  listeners : Router → RSListener := fun _ => {}

/-- The datagrams for one router. -/
def outFor (out : List (Router × RSPacket)) (r : Router) : List RSPacket :=
  (out.filter fun q => q.1 = r).map Prod.snd

namespace RSSystem

/-- What can happen. -/
inductive Action
  /-- `REMOTE_SCRIPT::AddRSU`. -/
  | addRSU (env : RSEnv) (u : UserId) (ip : IP)
  /-- `REMOTE_SCRIPT::DelRSU`. -/
  | delRSU (env : RSEnv) (u : UserId)
  /-- `REMOTE_SCRIPT::PeriodicSend`. -/
  | periodicSend (env : RSEnv) (rand : IP → ℕ)
  /-- `REMOTE_SCRIPT::Reload`. -/
  | reload (env : RSEnv) (netRouters : List NetRouter)
  /-- `LISTENER::RecvPacket` of a router. -/
  | recvPacket (r : Router)
  /-- `LISTENER::ProcessPending` of a router. -/
  | processPending (r : Router)

/-- What the server sends goes to the network. -/
def post (s : RSSystem) (out : List (Router × RSPacket) × RemoteScript) : RSSystem :=
  { s with server := out.2, network := fun r => s.network r ++ outFor out.1 r }

/-- One step; `none` if there is nothing to receive. -/
def step (s : RSSystem) : Action → Option RSSystem
  | .addRSU env u ip => some (s.post (s.server.addRSU env u ip))
  | .delRSU env u => some (s.post (s.server.delRSU env u))
  | .periodicSend env rand => some (s.post (s.server.periodicSend env rand))
  | .reload env netRouters => some (s.post (s.server.reload env netRouters))
  | .recvPacket r =>
    match s.network r with
    | [] => none
    | p :: ps => some { s with
        network := Function.update s.network r ps
        listeners := Function.update s.listeners r
          { s.listeners r with pending := (s.listeners r).pending ++ [p] } }
  | .processPending r => some { s with
      listeners := Function.update s.listeners r (s.listeners r).processPending }

/-! ## What is to hold -/

/-- All datagrams have been processed. -/
def Quiescent (s : RSSystem) : Prop :=
  ∀ r, s.network r = [] ∧ (s.listeners r).pending = []

/-- **Agreement about a user** with the login `l` that may use the net if `b`: a router knows it if
and only if it is authorized, may use the net and has the router in the list of its address. -/
def Agreement (u : UserId) (b : Bool) (l : WireLogin) (s : RSSystem) : Prop :=
  s.Quiescent → ∀ r, l ∈ RSListener.logins (s.listeners r).users ↔
    b = true ∧ ∃ x ∈ s.server.authorizedUsers, x.user = u ∧ r ∈ ip2Routers s.server.netRouters x.ip

/-- The server starts without authorized users, and the routers without users. -/
structure Initial (s : RSSystem) : Prop where
  authorizedUsers : s.server.authorizedUsers = []
  network : ∀ r, s.network r = []
  listeners : ∀ r, (s.listeners r).users = [] ∧ (s.listeners r).pending = []

/-- What the server knows of a user during a run: whether it may use the net does not change, and no
other user has the same login on the routers. -/
structure Steady (u : UserId) (b : Bool) (l : WireLogin) (env : RSEnv) : Prop where
  inetable : env.inetable u = b
  login : env.wireLogin u = l
  others : ∀ v, v ≠ u → env.wireLogin v ≠ l

/-- What the server knows in a step. -/
def Action.Steady (u : UserId) (b : Bool) (l : WireLogin) : Action → Prop
  | .addRSU env _ _ => RSSystem.Steady u b l env
  | .delRSU env _ => RSSystem.Steady u b l env
  | .periodicSend env _ => RSSystem.Steady u b l env
  | .reload env _ => RSSystem.Steady u b l env
  | _ => True

/-- There is at most one router in the list. -/
def OneRouter (rs : List Router) : Prop := ∀ r ∈ rs, ∀ r' ∈ rs, r = r'

/-- The new routers of a user are told about it: none of them is listed more often among the old
ones, and one of the datagrams for a router that was not among the old ones is preceded by a
multiple of three of datagrams, those for the smaller routers that only one of the lists has and
those before it for the router itself. -/
def Announced (old new : List Router) : Prop :=
  ∀ r ∈ new, old.count r ≤ new.count r ∧ (r ∉ old → ∃ j < new.count r,
    ((old.diff new).countP (· < r) + (new.diff old).countP (· < r) + j) % maxShortPckt = 0)

/-- The steps that keep the agreement about a user that may use the net if `b`.  It is added under
one address at a time, which no other user has, and then with one router; it is deleted with one
router; and a new map announces it. -/
def Guard (u : UserId) (b : Bool) (s : RSSystem) : Action → Prop
  | .addRSU _ v ip => v = u →
      (∀ x ∈ s.server.authorizedUsers, x.user = u ↔ x.ip = ip) ∧
      (b = true → (∀ x ∈ s.server.authorizedUsers, x.user ≠ u) →
        OneRouter (ip2Routers s.server.netRouters ip))
  | .delRSU _ v => v = u → b = true →
      ∀ x ∈ s.server.authorizedUsers, x.user = u → OneRouter x.routers
  | .reload _ netRouters => b = true → ∀ x ∈ s.server.authorizedUsers, x.user = u →
      Announced x.routers (ip2Routers netRouters x.ip)
  | _ => True

end RSSystem

/-! ## What a router knows -/

section Knows

open RSListener

variable {l : WireLogin}

/-- Datagrams about other users make no difference. -/
theorem foldl_knows_of_ne {ps : List RSPacket} (h : ∀ p ∈ ps, p.login ≠ l) (b : Bool) :
    ps.foldl (knows l) b = b := by
  induction ps with
  | nil => rfl
  | cons p ps ih =>
    rw [List.foldl_cons, knows, if_neg (h p (by simp))]
    exact ih fun q hq => h q (by simp [hq])

@[simp] theorem outFor_append (out out' : List (Router × RSPacket)) (r : Router) :
    outFor (out ++ out') r = outFor out r ++ outFor out' r := by
  simp [outFor]

theorem mem_outFor {out : List (Router × RSPacket)} {r : Router} {p : RSPacket} :
    p ∈ outFor out r ↔ (r, p) ∈ out := by
  simp only [outFor, List.mem_map, List.mem_filter, decide_eq_true_eq, Prod.exists,
    exists_eq_right]

/-- Nothing is for a router that is not among the destinations. -/
theorem outFor_of_not_mem {out : List (Router × RSPacket)} {rs : List Router} {r : Router}
    (hout : out.map Prod.fst = rs) (hr : r ∉ rs) : outFor out r = [] := by
  rw [outFor, List.map_eq_nil_iff, List.filter_eq_nil_iff]
  intro q hq
  have hmem : q.1 ∈ rs := hout ▸ List.mem_map_of_mem hq
  have hne : q.1 ≠ r := fun hc => hr (hc ▸ hmem)
  simpa using hne

/-- `Send` reaches the first router only. -/
theorem RSUser.outFor_send (env : RSEnv) (x : RSUser) (force : Bool) (r : Router) :
    outFor (x.send env force).1 r =
      if x.routers.head? = some r then [x.packetAt env x.shortPacketsCount force] else [] := by
  unfold RSUser.send outFor
  cases hr : x.routers with
  | nil => simp
  | cons r' rs =>
    by_cases h : r' = r
    · simp [h, RSUser.packetAt]
    · simp [h]

/-- What a router knows of a user after a datagram of the server. -/
theorem RSSystem.Steady.knows_packetAt {u : UserId} {b : Bool} {env : RSEnv}
    (h : RSSystem.Steady u b l env) {x : RSUser} (hx : x.user = u) (i : ℕ) (force c : Bool) :
    knows l c (x.packetAt env i force) =
      (!force && b && (c || decide (i % maxShortPckt = 0))) := by
  have hlogin : (x.packetAt env i force).login = l := by
    rw [RSUser.packetAt_login, hx, h.login]
  have htype : (x.packetAt env i force).packetType =
      ({ x with shortPacketsCount := i }.packetType env force) := rfl
  rw [knows, if_pos hlogin, htype]
  simp only [RSUser.packetType, hx, h.inetable]
  cases force <;> cases b <;> by_cases hi : i % maxShortPckt = 0 <;> simp [hi]

/-- A datagram about another user has another login. -/
theorem RSSystem.Steady.login_ne {u : UserId} {b : Bool} {env : RSEnv}
    (h : RSSystem.Steady u b l env) {x : RSUser} (hx : x.user ≠ u) (i : ℕ) (force : Bool) :
    (x.packetAt env i force).login ≠ l := h.others x.user hx

/-- A number of `connect` and `alive` datagrams makes the user known if one of them is a
`connect`. -/
theorem RSSystem.Steady.foldl_connect {u : UserId} {env : RSEnv}
    (h : RSSystem.Steady u true l env) {x : RSUser} (hx : x.user = u) (k n : ℕ) (c : Bool) :
    ((List.replicate n false).zipIdx k).foldl (fun c p => knows l c (x.packetAt env p.2 p.1)) c =
      (c || decide (∃ j < n, (k + j) % maxShortPckt = 0)) := by
  induction n generalizing k c with
  | zero => simp
  | succ n ih =>
    rw [List.replicate_succ, List.zipIdx_cons, List.foldl_cons, ih, h.knows_packetAt hx]
    simp only [Bool.not_false, Bool.true_and, Bool.or_assoc]
    congr 1
    rw [← Bool.decide_or, decide_eq_decide]
    constructor
    · rintro (hk | ⟨j, hj, hmod⟩)
      · exact ⟨0, by omega, by simpa using hk⟩
      · exact ⟨j + 1, by omega, by rw [← hmod]; congr 1; omega⟩
    · rintro ⟨j, hj, hmod⟩
      cases j with
      | zero => exact .inl (by simpa using hmod)
      | succ j => exact .inr ⟨j, by omega, by rw [← hmod]; congr 1; omega⟩

/-- A number of `disconnect` datagrams makes the user unknown. -/
theorem RSSystem.Steady.foldl_disconnect {u : UserId} {b : Bool} {env : RSEnv}
    (h : RSSystem.Steady u b l env) {x : RSUser} (hx : x.user = u) (k n : ℕ) (c : Bool) :
    ((List.replicate n true).zipIdx k).foldl (fun c p => knows l c (x.packetAt env p.2 p.1)) c =
      (c && decide (n = 0)) := by
  induction n generalizing k c with
  | zero => simp
  | succ n ih =>
    rw [List.replicate_succ, List.zipIdx_cons, List.foldl_cons, ih, h.knows_packetAt hx]
    simp

/-- A user that may not use the net stays unknown. -/
theorem RSSystem.Steady.foldl_not_inetable {u : UserId} {env : RSEnv}
    (h : RSSystem.Steady u false l env) {x : RSUser} (hx : x.user = u) (w : List (Bool × ℕ)) :
    w.foldl (fun c p => knows l c (x.packetAt env p.2 p.1)) false = false := by
  induction w with
  | nil => rfl
  | cons p w ih =>
    rw [List.foldl_cons, h.knows_packetAt hx, Bool.and_false, Bool.false_and]
    exact ih

/-- The datagrams of a part of a walk for one router. -/
theorem outFor_zipIdx_replicate (x : RSUser) (env : RSEnv) (r : Router) (b : Bool) (n k : ℕ) :
    outFor (((List.replicate n (r, b)).zipIdx k).map fun p => (p.1.1, x.packetAt env p.2 p.1.2)) r =
      ((List.replicate n b).zipIdx k).map fun p => x.packetAt env p.2 p.1 := by
  induction n generalizing k with
  | zero => rfl
  | succ n ih =>
    rw [List.replicate_succ, List.zipIdx_cons, List.map_cons, List.replicate_succ,
      List.zipIdx_cons, List.map_cons, ← ih (k + 1)]
    simp [outFor]

/-- The datagrams of a part of a walk that is about other routers. -/
theorem outFor_zipIdx_of_ne (x : RSUser) (env : RSEnv) {r : Router} {w : List (Router × Bool)}
    (h : ∀ p ∈ w, p.1 ≠ r) (k : ℕ) :
    outFor ((w.zipIdx k).map fun p => (p.1.1, x.packetAt env p.2 p.1.2)) r = [] := by
  induction w generalizing k with
  | nil => rfl
  | cons p w ih =>
    have hp : p.1 ≠ r := h p (by simp)
    rw [List.zipIdx_cons, List.map_cons, outFor, List.filter_cons_of_neg (by simpa using hp)]
    exact ih (fun q hq => h q (by simp [hq])) (k + 1)

/-- The datagrams of `Reload` about one user for one router. -/
theorem RSUser.outFor_updateRouter (env : RSEnv) (x : RSUser) {new : List Router}
    (hold : x.routers.Pairwise (· ≤ ·)) (hnew : new.Pairwise (· ≤ ·)) (r : Router) :
    ∃ k k', k' = (x.routers.diff new).countP (· < r) + (new.diff x.routers).countP (· < r) +
        (x.routers.count r - new.count r) ∧
      outFor (x.updateRouter env new).1 r =
        ((List.replicate (x.routers.count r - new.count r) true).zipIdx k).map
            (fun p => x.packetAt env p.2 p.1) ++
          ((List.replicate (new.count r - x.routers.count r) false).zipIdx k').map
            (fun p => x.packetAt env p.2 p.1) := by
  obtain ⟨before, behind, hwalk, hbefore, hbehind, hlen⟩ :=
    SortedWalk.walk_split r x.routers new hold hnew
  refine ⟨before.length, _, rfl, ?_⟩
  rw [(RSUser.updateRouter_eq env new x).1, hwalk, List.zipIdx_append, List.zipIdx_append,
    List.map_append, List.map_append, outFor_append, outFor_append,
    outFor_zipIdx_of_ne x env hbefore, outFor_zipIdx_of_ne x env hbehind, List.nil_append,
    List.append_nil, List.zipIdx_append, List.map_append, outFor_append, outFor_zipIdx_replicate,
    outFor_zipIdx_replicate]
  simp [hlen]

/-- **What a router knows of a user after `Reload`**: it knows it if and only if it is one of the
new routers, provided that it knew it if and only if it was one of the old ones and the map announces
the user.

**Proof sketch.** A router that is listed more often than before gets `connect` and `alive`, one that
is listed less often gets `disconnect`. -/
theorem RSUser.foldl_updateRouter {u : UserId} {b : Bool} {env : RSEnv}
    (h : RSSystem.Steady u b l env) {x : RSUser} (hx : x.user = u) {new : List Router}
    (hold : x.routers.Pairwise (· ≤ ·)) (hnew : new.Pairwise (· ≤ ·))
    (hg : b = true → RSSystem.Announced x.routers new) (r : Router) :
    (outFor (x.updateRouter env new).1 r).foldl (knows l) (b && decide (r ∈ x.routers)) =
      (b && decide (r ∈ new)) := by
  obtain ⟨k, k', hk', hout⟩ := x.outFor_updateRouter env hold hnew r
  rw [hout, List.foldl_append, List.foldl_map, List.foldl_map, h.foldl_disconnect hx]
  cases b with
  | false => exact h.foldl_not_inetable hx _
  | true =>
    rw [h.foldl_connect hx, Bool.true_and, Bool.true_and]
    by_cases hr : r ∈ new
    · obtain ⟨hle, hnew'⟩ := hg rfl r hr
      by_cases hr' : r ∈ x.routers
      · simp [hr, hr', Nat.sub_eq_zero_of_le hle]
      · have hzero : x.routers.count r = 0 := List.count_eq_zero_of_not_mem hr'
        obtain ⟨j, hj, hmod⟩ := hnew' hr'
        have hex : ∃ j < new.count r - x.routers.count r, (k' + j) % maxShortPckt = 0 :=
          ⟨j, by omega, by rw [hk', hzero, Nat.zero_sub, Nat.add_zero]; exact hmod⟩
        simp [hr, hex]
    · have hzero : new.count r = 0 := List.count_eq_zero_of_not_mem hr
      by_cases hr' : r ∈ x.routers
      · have hpos : x.routers.count r ≠ 0 := (List.count_pos_iff.mpr hr').ne'
        simp [hr, hr', hzero, hpos]
      · simp [hr, hr', hzero]

end Knows

namespace RSSystem

open RSListener

/-! ## The invariant -/

/-- What a router will know when it has processed everything that was sent. -/
def view (l : WireLogin) (s : RSSystem) (r : Router) : Bool :=
  ((s.listeners r).pending ++ s.network r).foldl (knows l)
    (decide (l ∈ logins (s.listeners r).users))

/-- What a router is to know. -/
def expected (u : UserId) (b : Bool) (us : List RSUser) (r : Router) : Bool :=
  b && us.any fun x => decide (x.user = u) && decide (r ∈ x.routers)

/-- What the steps keep that meet the guard, also while datagrams wait. -/
structure Invariant (u : UserId) (b : Bool) (l : WireLogin) (s : RSSystem) : Prop where
  ips : s.server.authorizedUsers.Pairwise fun x y => x.ip.toNat < y.ip.toNat
  routers : ∀ x ∈ s.server.authorizedUsers, x.routers = ip2Routers s.server.netRouters x.ip
  unique : ∀ x ∈ s.server.authorizedUsers, ∀ y ∈ s.server.authorizedUsers, x.user = u →
    y.user = u → x = y
  sorted : ∀ r, Sorted (s.listeners r).users
  view : ∀ r, s.view l r = expected u b s.server.authorizedUsers r

section Steps

variable {u : UserId} {b : Bool} {l : WireLogin} {s : RSSystem}

theorem Initial.invariant (h : s.Initial) : s.Invariant u b l where
  ips := by simp [h.authorizedUsers]
  routers := by simp [h.authorizedUsers]
  unique := by simp [h.authorizedUsers]
  sorted r := by simp [Sorted, h.listeners r]
  view r := by simp [RSSystem.view, expected, h.authorizedUsers, h.network, h.listeners r, logins]

/-- When nothing waits, what a router will know is what it knows. -/
theorem Invariant.agreement (h : s.Invariant u b l) : s.Agreement u b l := by
  intro hq r
  have hview := h.view r
  rw [RSSystem.view, (hq r).1, (hq r).2] at hview
  simp only [List.append_nil, List.foldl_nil, expected] at hview
  rw [← decide_eq_true_iff (p := l ∈ _), hview]
  simp only [Bool.and_eq_true, List.any_eq_true, decide_eq_true_eq]
  refine and_congr_right fun _ => exists_congr fun x => and_congr_right fun hx => ?_
  rw [h.routers x hx]

/-- The routers of an address are sorted. -/
theorem pairwise_ip2Routers (netRouters : List NetRouter) (ip : IP) :
    (ip2Routers netRouters ip).Pairwise (· ≤ ·) := by
  unfold ip2Routers
  split
  · rename_i nr _
    exact nr.sorted
  · exact List.Pairwise.nil

/-- What a router is to know of a user with one entry. -/
theorem expected_of_mem {us : List RSUser} {x : RSUser} (hx : x ∈ us) (hu : x.user = u)
    (hunique : ∀ y ∈ us, y.user = u → y = x) (r : Router) :
    expected u b us r = (b && decide (r ∈ x.routers)) := by
  unfold expected
  congr 1
  rw [Bool.eq_iff_iff]
  simp only [List.any_eq_true, Bool.and_eq_true, decide_eq_true_eq]
  constructor
  · rintro ⟨y, hy, hyu, hr⟩
    exact hunique y hy hyu ▸ hr
  · exact fun hr => ⟨x, hx, hu, hr⟩

/-- A user without an entry is not to be known. -/
theorem expected_of_forall_ne {us : List RSUser} (h : ∀ x ∈ us, x.user ≠ u) (r : Router) :
    expected u b us r = false := by
  unfold expected
  rw [Bool.and_eq_false_iff]
  refine .inr (List.any_eq_false.mpr fun x hx => ?_)
  simp [h x hx]

/-- Only the entries of the user matter. -/
theorem expected_congr {us us' : List RSUser}
    (h : ∀ x, x.user = u → (x ∈ us ↔ x ∈ us')) (r : Router) :
    expected u b us r = expected u b us' r := by
  unfold expected
  congr 1
  rw [Bool.eq_iff_iff]
  simp only [List.any_eq_true, Bool.and_eq_true, decide_eq_true_eq]
  exact exists_congr fun x => ⟨fun ⟨hx, hu, hr⟩ => ⟨(h x hu).mp hx, hu, hr⟩,
    fun ⟨hx, hu, hr⟩ => ⟨(h x hu).mpr hx, hu, hr⟩⟩

/-- What the server sends changes what the routers will know. -/
theorem view_post (out : List (Router × RSPacket) × RemoteScript) (r : Router) :
    (s.post out).view l r = (outFor out.1 r).foldl (knows l) (s.view l r) := by
  unfold view post
  rw [← List.append_assoc, List.foldl_append]

/-- A step of the server keeps the invariant if its datagrams tell the routers what they are to
know. -/
theorem Invariant.post (h : s.Invariant u b l) {out : List (Router × RSPacket) × RemoteScript}
    (hips : out.2.authorizedUsers.Pairwise fun x y => x.ip.toNat < y.ip.toNat)
    (hrouters : ∀ x ∈ out.2.authorizedUsers, x.routers = ip2Routers out.2.netRouters x.ip)
    (hunique : ∀ x ∈ out.2.authorizedUsers, ∀ y ∈ out.2.authorizedUsers, x.user = u →
      y.user = u → x = y)
    (hview : ∀ r, (outFor out.1 r).foldl (knows l)
      (expected u b s.server.authorizedUsers r) = expected u b out.2.authorizedUsers r) :
    (s.post out).Invariant u b l where
  ips := hips
  routers := hrouters
  unique := hunique
  sorted := h.sorted
  view r := by
    rw [view_post, h.view]
    exact hview r

/-- No entry but one is the entry of the user. -/
theorem Invariant.split (h : s.Invariant u b l) {x : RSUser}
    (hx : x ∈ s.server.authorizedUsers) (hu : x.user = u) :
    ∃ l₁ l₂, s.server.authorizedUsers = l₁ ++ x :: l₂ ∧ (∀ y ∈ l₁, y.user ≠ u) ∧
      ∀ y ∈ l₂, y.user ≠ u := by
  obtain ⟨l₁, l₂, hsplit⟩ := List.append_of_mem hx
  have hips := h.ips
  rw [hsplit, List.pairwise_append, List.pairwise_cons] at hips
  obtain ⟨-, ⟨hafter, -⟩, hbefore⟩ := hips
  refine ⟨l₁, l₂, hsplit, fun y hy hyu => ?_, fun y hy hyu => ?_⟩
  · obtain rfl := h.unique y (by simp [hsplit, hy]) x hx hyu hu
    exact lt_irrefl _ (hbefore y hy y (by simp))
  · obtain rfl := h.unique y (by simp [hsplit, hy]) x hx hyu hu
    exact lt_irrefl _ (hafter y hy)

/-- Something is done with every entry: only what is done with the entry of the user matters. -/
theorem Invariant.forEach (h : s.Invariant u b l) (netRouters : List NetRouter)
    {f : RSUser → List (Router × RSPacket) × RSUser} (huser : ∀ x, (f x).2.user = x.user)
    (hip : ∀ x, (f x).2.ip = x.ip)
    (hrouters : ∀ x ∈ s.server.authorizedUsers, (f x).2.routers = ip2Routers netRouters x.ip)
    (hothers : ∀ x, x.user ≠ u → ∀ r, ∀ p ∈ outFor (f x).1 r, p.login ≠ l)
    (hone : ∀ x ∈ s.server.authorizedUsers, x.user = u → ∀ r,
      (outFor (f x).1 r).foldl (knows l) (b && decide (r ∈ x.routers)) =
        (b && decide (r ∈ (f x).2.routers))) :
    (s.post (RemoteScript.forEach f { s.server with netRouters := netRouters })).Invariant u b l := by
  have hflat : ∀ (us : List RSUser), (∀ x ∈ us, x.user ≠ u) → ∀ r,
      ∀ p ∈ outFor (us.flatMap fun x => (f x).1) r, p.login ≠ l := by
    intro us hus r p hp
    obtain ⟨x, hx, hpx⟩ := List.mem_flatMap.mp (mem_outFor.mp hp)
    exact hothers x (hus x hx) r p (mem_outFor.mpr hpx)
  refine h.post ?_ ?_ ?_ ?_
  · refine List.pairwise_map.mpr (h.ips.imp fun hlt => ?_)
    rw [hip, hip]
    exact hlt
  · intro x hx
    obtain ⟨y, hy, rfl⟩ := List.mem_map.mp hx
    rw [hip]
    exact hrouters y hy
  · intro x hx y hy hxu hyu
    obtain ⟨x', hx', rfl⟩ := List.mem_map.mp hx
    obtain ⟨y', hy', rfl⟩ := List.mem_map.mp hy
    rw [huser] at hxu hyu
    rw [h.unique x' hx' y' hy' hxu hyu]
  · intro r
    by_cases hex : ∃ x ∈ s.server.authorizedUsers, x.user = u
    · obtain ⟨x, hx, hu⟩ := hex
      have hmap : ∀ y ∈ s.server.authorizedUsers.map fun x => (f x).2, y.user = u →
          y = (f x).2 := by
        intro y hy hyu
        obtain ⟨y', hy', rfl⟩ := List.mem_map.mp hy
        rw [huser] at hyu
        rw [h.unique y' hy' x hx hyu hu]
      rw [expected_of_mem hx hu (fun y hy hyu => h.unique y hy x hx hyu hu)]
      change _ = expected u b (s.server.authorizedUsers.map fun x => (f x).2) r
      rw [expected_of_mem (List.mem_map_of_mem hx) ((huser x).trans hu) hmap, ← hone x hx hu r]
      change (outFor (s.server.authorizedUsers.flatMap fun x => (f x).1) r).foldl _ _ = _
      obtain ⟨l₁, l₂, hsplit, h₁, h₂⟩ := h.split hx hu
      rw [hsplit, List.flatMap_append, List.flatMap_cons, outFor_append, outFor_append,
        List.foldl_append, List.foldl_append, foldl_knows_of_ne (hflat l₁ h₁ r),
        foldl_knows_of_ne (hflat l₂ h₂ r)]
    · push Not at hex
      have hmap : ∀ y ∈ s.server.authorizedUsers.map fun x => (f x).2, y.user ≠ u := by
        intro y hy
        obtain ⟨y', hy', rfl⟩ := List.mem_map.mp hy
        rw [huser]
        exact hex y' hy'
      rw [expected_of_forall_ne hex]
      change _ = expected u b (s.server.authorizedUsers.map fun x => (f x).2) r
      rw [expected_of_forall_ne hmap]
      exact foldl_knows_of_ne (hflat _ hex r) false

/-- The datagrams of `Send` are about the user of the entry. -/
theorem Steady.outFor_send_ne {env : RSEnv} (h : Steady u b l env) {x : RSUser} (hx : x.user ≠ u)
    (force : Bool) (r : Router) : ∀ p ∈ outFor (x.send env force).1 r, p.login ≠ l := by
  intro p hp
  rw [RSUser.outFor_send] at hp
  split_ifs at hp
  · obtain rfl := List.mem_singleton.mp hp
    exact h.login_ne hx _ _
  · cases hp

theorem send_user (env : RSEnv) (x : RSUser) (force : Bool) :
    (x.send env force).2.user = x.user ∧ (x.send env force).2.ip = x.ip ∧
      (x.send env force).2.routers = x.routers := by
  unfold RSUser.send RSUser.preparePacket
  cases x.routers <;> simp

/-- What the first router knows of a user that may use the net is what it is told. -/
theorem Steady.foldl_send {env : RSEnv} (h : Steady u b l env) {x : RSUser} (hx : x.user = u)
    (r : Router) :
    (outFor (x.send env false).1 r).foldl (knows l) (b && decide (r ∈ x.routers)) =
      (b && decide (r ∈ x.routers)) := by
  rw [RSUser.outFor_send]
  split_ifs with hr
  · have hmem : r ∈ x.routers := List.mem_of_mem_head? hr
    rw [List.foldl_cons, List.foldl_nil, h.knows_packetAt hx]
    cases b <;> simp [hmem]
  · rfl

/-- `PeriodicSend` tells the first router of a user what it knows already. -/
theorem Invariant.periodicSend (h : s.Invariant u b l) {env : RSEnv} (he : Steady u b l env)
    (rand : IP → ℕ) : (s.post (s.server.periodicSend env rand)).Invariant u b l := by
  have hsend := fun x => send_user env x false
  refine h.forEach s.server.netRouters (fun x => ?_) (fun x => ?_) (fun x hx => ?_)
    (fun x hx r => ?_) (fun x hx hu r => ?_)
  · split_ifs
    · exact (hsend x).1
    · rfl
  · split_ifs
    · exact (hsend x).2.1
    · rfl
  · split_ifs
    · exact (hsend x).2.2.trans (h.routers x hx)
    · exact h.routers x hx
  · split_ifs
    · exact he.outFor_send_ne hx false r
    · intro p hp
      cases hp
  · split_ifs
    · rw [he.foldl_send hu, (hsend x).2.2]
    · rfl

/-- `Reload` tells the new routers of a user, if the map announces it. -/
theorem Invariant.reload (h : s.Invariant u b l) {env : RSEnv} (he : Steady u b l env)
    {netRouters : List NetRouter}
    (hg : b = true → ∀ x ∈ s.server.authorizedUsers, x.user = u →
      Announced x.routers (ip2Routers netRouters x.ip)) :
    (s.post (s.server.reload env netRouters)).Invariant u b l := by
  have hupdate := fun x : RSUser => RSUser.updateRouter_eq env (ip2Routers netRouters x.ip) x
  refine h.forEach netRouters (fun x => (hupdate x).2.1) (fun x => (hupdate x).2.2.1)
    (fun x _ => (hupdate x).2.2.2) (fun x hx r p hp => ?_) (fun x hx hu r => ?_)
  · have hmem := mem_outFor.mp hp
    rw [(hupdate x).1] at hmem
    obtain ⟨q, -, hq⟩ := List.mem_map.mp hmem
    rw [← (Prod.mk.inj hq).2]
    exact he.login_ne hx _ _
  · have hold : x.routers.Pairwise (· ≤ ·) := by
      rw [h.routers x hx]
      exact pairwise_ip2Routers _ _
    rw [(hupdate x).2.2.2]
    exact RSUser.foldl_updateRouter he hu hold (pairwise_ip2Routers _ _)
      (fun hb => hg hb x hx hu) r

/-- What `insert` does to the map of users. -/
theorem mem_insertUser (rsu : RSUser) {us : List RSUser}
    (h : us.Pairwise fun x y => x.ip.toNat < y.ip.toNat) :
    (insertUser rsu us).Pairwise (fun x y => x.ip.toNat < y.ip.toNat) ∧
      ∀ x, x ∈ insertUser rsu us ↔ x ∈ us ∨ (x = rsu ∧ ∀ y ∈ us, y.ip ≠ rsu.ip) := by
  induction us with
  | nil => simp [insertUser]
  | cons y us ih =>
    obtain ⟨hy, hus⟩ := List.pairwise_cons.mp h
    rw [insertUser]
    split_ifs with hlt heq
    · have hall : ∀ z ∈ y :: us, rsu.ip.toNat < z.ip.toNat := by
        intro z hz
        rcases List.mem_cons.mp hz with rfl | hz
        · exact hlt
        · exact lt_trans hlt (hy z hz)
      have hne : ∀ z ∈ y :: us, z.ip ≠ rsu.ip := fun z hz hc =>
        lt_irrefl _ (hc ▸ hall z hz)
      refine ⟨List.pairwise_cons.mpr ⟨hall, h⟩, fun x => ?_⟩
      rw [List.mem_cons]
      constructor
      · rintro (rfl | hx)
        · exact .inr ⟨rfl, hne⟩
        · exact .inl hx
      · rintro (hx | ⟨rfl, -⟩)
        · exact .inr hx
        · exact .inl rfl
    · refine ⟨h, fun x => ⟨.inl, ?_⟩⟩
      rintro (hx | ⟨rfl, hne⟩)
      · exact hx
      · exact absurd heq.symm (hne y (by simp))
    · obtain ⟨hsorted, hmem⟩ := ih hus
      have hgt : y.ip.toNat < rsu.ip.toNat := by
        refine lt_of_le_of_ne (not_lt.mp hlt) fun hc => heq ?_
        exact (BitVec.eq_of_toNat_eq hc).symm
      refine ⟨List.pairwise_cons.mpr ⟨fun x hx => ?_, hsorted⟩, fun x => ?_⟩
      · rcases (hmem x).mp hx with hx | ⟨rfl, -⟩
        · exact hy x hx
        · exact hgt
      · rw [List.mem_cons, hmem, List.mem_cons, List.forall_mem_cons, or_assoc]
        refine or_congr_right (or_congr_right (and_congr_right fun _ => ?_))
        exact ⟨fun hall => ⟨Ne.symm heq, hall⟩, fun hall => hall.2⟩

/-- The only router of a list is its first one. -/
theorem OneRouter.not_mem {rs : List Router} (h : OneRouter rs) {r : Router}
    (hr : ¬ rs.head? = some r) : r ∉ rs := by
  intro hmem
  cases rs with
  | nil => cases hmem
  | cons r' rs => exact hr (congrArg some (h r' (by simp) r hmem))

/-- A user with at most one router is told about by its first datagram. -/
theorem Steady.foldl_first {env : RSEnv} (h : Steady u b l env) {x : RSUser} (hx : x.user = u)
    (hcount : x.shortPacketsCount = 0) (hone : b = true → OneRouter x.routers) (r : Router) :
    (outFor (x.send env false).1 r).foldl (knows l) false = (b && decide (r ∈ x.routers)) := by
  rw [RSUser.outFor_send]
  split_ifs with hr
  · have hmem : r ∈ x.routers := List.mem_of_mem_head? hr
    rw [List.foldl_cons, List.foldl_nil, h.knows_packetAt hx, hcount]
    simp [hmem]
  · rw [List.foldl_nil]
    cases b with
    | false => rfl
    | true =>
      simp [(hone rfl).not_mem hr]

/-- A user with at most one router is forgotten by its last datagram. -/
theorem Steady.foldl_last {env : RSEnv} (h : Steady u b l env) {x : RSUser} (hx : x.user = u)
    (hone : b = true → OneRouter x.routers) (r : Router) :
    (outFor (x.send env true).1 r).foldl (knows l) (b && decide (r ∈ x.routers)) = false := by
  rw [RSUser.outFor_send]
  split_ifs with hr
  · rw [List.foldl_cons, List.foldl_nil, h.knows_packetAt hx]
    rfl
  · rw [List.foldl_nil]
    cases b with
    | false => rfl
    | true =>
      simp [(hone rfl).not_mem hr]

/-- `AddRSU` tells the only router of a user. -/
theorem Invariant.addRSU (h : s.Invariant u b l) {env : RSEnv} (he : Steady u b l env) {v : UserId}
    {ip : IP}
    (hg : v = u → (∀ x ∈ s.server.authorizedUsers, x.user = u ↔ x.ip = ip) ∧
      (b = true → (∀ x ∈ s.server.authorizedUsers, x.user ≠ u) →
        OneRouter (ip2Routers s.server.netRouters ip))) :
    (s.post (s.server.addRSU env v ip)).Invariant u b l := by
  let rsu : RSUser := { user := v, routers := ip2Routers s.server.netRouters ip, ip := ip }
  obtain ⟨huser, hip, hrouters⟩ := send_user env rsu false
  obtain ⟨hsorted, hmem⟩ := mem_insertUser (rsu.send env false).2 h.ips
  have heq : s.server.addRSU env v ip = ((rsu.send env false).1,
    { s.server with
      authorizedUsers := insertUser (rsu.send env false).2 s.server.authorizedUsers }) := rfl
  rw [heq]
  by_cases hv : v = u
  · obtain ⟨hentry, hone⟩ := hg hv
    by_cases hex : ∃ x ∈ s.server.authorizedUsers, x.user = u
    · -- the entry is kept, and its first router is told again
      obtain ⟨x, hx, hxu⟩ := hex
      have hxip : x.ip = ip := (hentry x hx).mp hxu
      have hsame : ∀ y, y ∈ insertUser (rsu.send env false).2 s.server.authorizedUsers ↔
          y ∈ s.server.authorizedUsers := by
        intro y
        rw [hmem, or_iff_left_iff_imp]
        rintro ⟨-, hne⟩
        exact absurd (hxip.trans hip.symm) (hne x hx)
      refine h.post hsorted (fun y hy => h.routers y ((hsame y).mp hy))
        (fun y hy z hz => h.unique y ((hsame y).mp hy) z ((hsame z).mp hz)) fun r => ?_
      rw [expected_of_mem hx hxu fun y hy hyu => h.unique y hy x hx hyu hxu,
        expected_of_mem ((hsame x).mpr hx) hxu fun y hy hyu =>
          h.unique y ((hsame y).mp hy) x hx hyu hxu]
      have hxr : x.routers = rsu.routers := by rw [h.routers x hx, hxip]
      rw [hxr]
      exact he.foldl_send hv r
    · -- the entry is new
      push Not at hex
      have hfree : ∀ y ∈ s.server.authorizedUsers, y.ip ≠ ip :=
        fun y hy hc => hex y hy ((hentry y hy).mpr hc)
      have hnew : (rsu.send env false).2 ∈
          insertUser (rsu.send env false).2 s.server.authorizedUsers :=
        (hmem _).mpr (.inr ⟨rfl, fun y hy => hip ▸ hfree y hy⟩)
      have hunique : ∀ y ∈ insertUser (rsu.send env false).2 s.server.authorizedUsers,
          y.user = u → y = (rsu.send env false).2 := by
        intro y hy hyu
        rcases (hmem y).mp hy with hy | ⟨hy, -⟩
        · exact absurd hyu (hex y hy)
        · exact hy
      refine h.post hsorted (fun y hy => ?_) (fun y hy z hz hyu hzu =>
        (hunique y hy hyu).trans (hunique z hz hzu).symm) fun r => ?_
      · rcases (hmem y).mp hy with hy | ⟨rfl, -⟩
        · exact h.routers y hy
        · rw [hrouters, hip]
      · rw [expected_of_forall_ne hex, expected_of_mem hnew (huser.trans hv) hunique, hrouters]
        exact he.foldl_first hv rfl (fun hb => hone hb hex) r
  · -- another user is added
    have hother : ∀ y ∈ insertUser (rsu.send env false).2 s.server.authorizedUsers,
        y.user = u → y ∈ s.server.authorizedUsers := by
      intro y hy hyu
      rcases (hmem y).mp hy with hy | ⟨rfl, -⟩
      · exact hy
      · exact absurd (huser.symm.trans hyu) hv
    refine h.post hsorted (fun y hy => ?_) (fun y hy z hz hyu hzu =>
      h.unique y (hother y hy hyu) z (hother z hz hzu) hyu hzu) fun r => ?_
    · rcases (hmem y).mp hy with hy | ⟨rfl, -⟩
      · exact h.routers y hy
      · rw [hrouters, hip]
    · rw [foldl_knows_of_ne (he.outFor_send_ne hv false r)]
      exact expected_congr (fun y hyu => ⟨fun hy => (hmem y).mpr (.inl hy),
        fun hy => hother y hy hyu⟩) r

/-- `DelRSU` tells the only router of a user. -/
theorem Invariant.delRSU (h : s.Invariant u b l) {env : RSEnv} (he : Steady u b l env) {v : UserId}
    (hg : v = u → b = true → ∀ x ∈ s.server.authorizedUsers, x.user = u → OneRouter x.routers) :
    (s.post (s.server.delRSU env v)).Invariant u b l := by
  unfold RemoteScript.delRSU
  split
  · refine h.post h.ips h.routers h.unique fun r => rfl
  · rename_i x hfind
    have hx : x ∈ s.server.authorizedUsers := List.mem_of_find?_eq_some hfind
    have hxv : x.user = v := by simpa using List.find?_some hfind
    have hsub : ∀ {y}, y ∈ s.server.authorizedUsers.eraseP (fun x => x.user = v) →
        y ∈ s.server.authorizedUsers := fun hy => List.mem_of_mem_eraseP hy
    refine h.post (h.ips.sublist (List.eraseP_sublist)) (fun y hy => h.routers y (hsub hy))
      (fun y hy z hz => h.unique y (hsub hy) z (hsub hz)) fun r => ?_
    by_cases hv : v = u
    · have hgone : ∀ y ∈ s.server.authorizedUsers.eraseP (fun x => x.user = v), y.user ≠ u := by
        obtain ⟨l₁, l₂, hsplit, h₁, h₂⟩ := h.split hx (hxv.trans hv)
        rw [hsplit, List.eraseP_append_right _ fun y hy => by simpa [hv] using h₁ y hy,
          List.eraseP_cons_of_pos (by simpa using hxv)]
        intro y hy
        rcases List.mem_append.mp hy with hy | hy
        · exact h₁ y hy
        · exact h₂ y hy
      rw [expected_of_forall_ne hgone, expected_of_mem hx (hxv.trans hv) fun y hy hyu =>
        h.unique y hy x hx hyu (hxv.trans hv)]
      exact he.foldl_last (hxv.trans hv) (fun hb => hg hv hb x hx (hxv.trans hv)) r
    · rw [foldl_knows_of_ne (he.outFor_send_ne (fun hc => hv (hxv.symm.trans hc)) true r)]
      refine expected_congr (fun y hyu => ?_) r
      exact (List.mem_eraseP_of_neg (by simpa [hyu] using Ne.symm hv)).symm

/-- Receiving a datagram makes no difference to what a router will know. -/
theorem Invariant.recvPacket (h : s.Invariant u b l) {r : Router} {s' : RSSystem}
    (hs : s.step (.recvPacket r) = some s') : s'.Invariant u b l := by
  simp only [RSSystem.step] at hs
  split at hs
  · cases hs
  · rename_i p ps hnet
    obtain rfl := Option.some.inj hs
    refine ⟨h.ips, h.routers, h.unique, fun r' => ?_, fun r' => ?_⟩
    · by_cases hr : r' = r
      · subst hr
        simpa using h.sorted r'
      · simpa [hr] using h.sorted r'
    · rw [← h.view r']
      by_cases hr : r' = r
      · subst hr
        simp [RSSystem.view, hnet]
      · simp [RSSystem.view, hr]

/-- Processing datagrams makes no difference to what a router will know. -/
theorem Invariant.processPending (h : s.Invariant u b l) (r : Router) :
    Invariant u b l { s with
      listeners := Function.update s.listeners r (s.listeners r).processPending } := by
  obtain ⟨hsorted, hknows⟩ := (h.sorted r).processAll ((s.listeners r).pending.take 256)
  refine ⟨h.ips, h.routers, h.unique, fun r' => ?_, fun r' => ?_⟩
  · by_cases hr : r' = r
    · subst hr
      simpa [RSListener.processPending] using hsorted
    · simpa [hr] using h.sorted r'
  · rw [← h.view r']
    by_cases hr : r' = r
    · subst hr
      simp only [RSSystem.view, Function.update_self, RSListener.processPending]
      rw [hknows l, ← List.foldl_append, ← List.append_assoc, List.take_append_drop]
    · simp [RSSystem.view, hr]

end Steps

/-! ## Runs -/

/-- **One step.** -/
theorem Invariant.step {u : UserId} {b : Bool} {l : WireLogin} {s s' : RSSystem} {a : Action}
    (h : s.Invariant u b l) (hg : s.Guard u b a) (ha : a.Steady u b l)
    (hs : s.step a = some s') : s'.Invariant u b l := by
  cases a with
  | addRSU env v ip =>
    obtain rfl := Option.some.inj hs
    exact h.addRSU ha hg
  | delRSU env v =>
    obtain rfl := Option.some.inj hs
    exact h.delRSU ha hg
  | periodicSend env rand =>
    obtain rfl := Option.some.inj hs
    exact h.periodicSend ha rand
  | reload env netRouters =>
    obtain rfl := Option.some.inj hs
    exact h.reload ha hg
  | recvPacket r => exact h.recvPacket hs
  | processPending r =>
    obtain rfl := Option.some.inj hs
    exact h.processPending r

end RSSystem

/-- **Remote script agreement.** Let users be added and deleted, datagrams be sent from time to time
and maps be reloaded, while the routers receive and process datagrams, in any order.  Let a user be
such that whether it may use the net does not change and no other user has its login on the routers.
If every step meets the guard then, whenever all datagrams have been processed, a router knows the
user if and only if the user is authorized, may use the net and has the router in the list that the
map gives for its address.

**Proof sketch.** The invariant rule with `RSSystem.Invariant`. -/
theorem remote_script_agreement (u : UserId) (b : Bool) (l : WireLogin) (s t : RSSystem)
    (as : List RSSystem.Action) (h : s.Initial) (hsteady : ∀ a ∈ as, a.Steady u b l)
    (hrun : Transition.Reaches RSSystem.step (RSSystem.Guard u b) s as t) : t.Agreement u b l :=
  ((hrun.guard_and hsteady).invariant (fun _ _ _ hi hg hs => hi.step hg.1 hg.2 hs)
    h.invariant).agreement

namespace Sample

/-- The user `0` has the login `a`, and all users may use the net. -/
def rsEnv : RSEnv where
  stgTime := 0
  inetable := fun _ => true
  login := fun u => if u = 0 then "a" else "b"
  id := fun _ => 0
  userParams := []
  paramValue := fun _ _ => []

/-- A map with one line, for all addresses. -/
def netMap (routers : List Router) : List NetRouter := [.parse 0 0 routers]

/-- The server and the routers at the start. -/
def rsSystem (routers : List Router) : RSSystem where
  server := { netRouters := netMap routers, sendPeriod := 10 }

theorem rsSystem_initial (routers : List Router) : (rsSystem routers).Initial :=
  ⟨rfl, fun _ => rfl, fun _ => ⟨rfl, rfl⟩⟩

theorem rsEnv_steady : RSSystem.Steady 0 true [97] rsEnv := by
  refine ⟨rfl, by decide, fun v hv => ?_⟩
  have hlogin : rsEnv.login v = "b" := if_neg hv
  rw [RSEnv.wireLogin, hlogin]
  decide

end Sample

/-- A user is added with one router, and a new map gives it a second one. -/
theorem remote_script_agreement_second_router :
    ∃ t, Transition.Reaches RSSystem.step (RSSystem.Guard 0 true) (Sample.rsSystem [2])
      [.addRSU Sample.rsEnv 0 7, .recvPacket 2, .processPending 2,
        .reload Sample.rsEnv (Sample.netMap [3, 2]), .recvPacket 3, .processPending 3] t ∧
      t.Quiescent ∧ t.Agreement 0 true [97] ∧
      [97] ∈ RSListener.logins (t.listeners 2).users ∧
      [97] ∈ RSListener.logins (t.listeners 3).users := by
  have hrun : ∃ t, Transition.Reaches RSSystem.step (RSSystem.Guard 0 true) (Sample.rsSystem [2])
      [.addRSU Sample.rsEnv 0 7, .recvPacket 2, .processPending 2,
        .reload Sample.rsEnv (Sample.netMap [3, 2]), .recvPacket 3, .processPending 3] t ∧
      t.Quiescent ∧ [97] ∈ RSListener.logins (t.listeners 2).users ∧
      [97] ∈ RSListener.logins (t.listeners 3).users := by
    refine ⟨_, .cons ?_ rfl (.cons trivial rfl (.cons trivial rfl (.cons ?_ rfl
      (.cons trivial rfl (.cons trivial rfl (.nil _)))))), ?_, by decide, by decide⟩
    · intro _
      have hrouters : ip2Routers (Sample.netMap [2]) 7 = [2] := by decide
      refine ⟨fun x hx => (by cases hx), fun _ _ => ?_⟩
      change RSSystem.OneRouter (ip2Routers (Sample.netMap [2]) 7)
      rw [hrouters, RSSystem.OneRouter]
      decide
    · intro _ x hx _
      obtain rfl := List.mem_singleton.mp hx
      change RSSystem.Announced [2] [2, 3]
      rw [RSSystem.Announced]
      decide
    · intro r
      by_cases h2 : r = 2
      · subst h2
        exact ⟨rfl, rfl⟩
      · by_cases h3 : r = 3
        · subst h3
          exact ⟨rfl, rfl⟩
        · simp only [Function.update_of_ne h2, Function.update_of_ne h3, RSSystem.post]
          refine ⟨?_, rfl⟩
          rw [outFor_of_not_mem (r := r) (show _ = [2] by decide) (by simpa using h2),
            outFor_of_not_mem (r := r) (show _ = [3] by decide) (by simpa using h3)]
          rfl
  obtain ⟨t, hreach, hq, h2, h3⟩ := hrun
  refine ⟨t, hreach, hq, ?_, h2, h3⟩
  refine remote_script_agreement 0 true [97] _ t _ (Sample.rsSystem_initial [2]) ?_ hreach
  simp [RSSystem.Action.Steady, Sample.rsEnv_steady]

/-- A user is added with two routers, and the second one does not get to know it.  A user with one
router is given another one, which is told that the user is still there. -/
theorem router_not_told :
    (∃ t, Transition.Runs RSSystem.step (Sample.rsSystem [1, 2])
      [.addRSU Sample.rsEnv 0 7, .recvPacket 1, .processPending 1] t ∧ t.Quiescent ∧
        ¬ t.Agreement 0 true [97]) ∧
    ∃ t, Transition.Runs RSSystem.step (Sample.rsSystem [1])
      [.addRSU Sample.rsEnv 0 7, .recvPacket 1, .processPending 1,
        .reload Sample.rsEnv (Sample.netMap [2]), .recvPacket 1, .recvPacket 2, .processPending 1,
        .processPending 2] t ∧ t.Quiescent ∧ ¬ t.Agreement 0 true [97] := by
  have hlisted : ∀ {t : RSSystem} (x : RSUser), t.Quiescent → x ∈ t.server.authorizedUsers →
      x.user = 0 → 2 ∈ ip2Routers t.server.netRouters x.ip →
      [97] ∉ RSListener.logins (t.listeners 2).users → ¬ t.Agreement 0 true [97] := by
    intro t x hq hx hu hr hnot hagree
    exact hnot ((hagree hq 2).mpr ⟨rfl, x, hx, hu, hr⟩)
  refine ⟨⟨_, .cons trivial rfl (.cons trivial rfl (.cons trivial rfl (.nil _))), ?_⟩,
    ⟨_, .cons trivial rfl (.cons trivial rfl (.cons trivial rfl (.cons trivial rfl (.cons trivial rfl
      (.cons trivial rfl (.cons trivial rfl (.cons trivial rfl (.nil _)))))))), ?_⟩⟩
  · refine (fun hq => ⟨hq, hlisted _ hq List.mem_cons_self rfl (by decide) (by decide)⟩) fun r => ?_
    by_cases h1 : r = 1
    · subst h1
      exact ⟨rfl, rfl⟩
    · simp only [Function.update_of_ne h1, RSSystem.post]
      refine ⟨?_, rfl⟩
      rw [outFor_of_not_mem (r := r) (show _ = [1] by decide) (by simpa using h1)]
      rfl
  · refine (fun hq => ⟨hq, hlisted _ hq List.mem_cons_self rfl (by decide) (by decide)⟩) fun r => ?_
    by_cases h1 : r = 1
    · subst h1
      exact ⟨rfl, rfl⟩
    · by_cases h2 : r = 2
      · subst h2
        exact ⟨rfl, rfl⟩
      · simp only [Function.update_of_ne h1, Function.update_of_ne h2, RSSystem.post]
        refine ⟨?_, rfl⟩
        rw [outFor_of_not_mem (r := r) (show _ = [1] by decide) (by simpa using h1),
          outFor_of_not_mem (r := r) (show _ = [1, 2] by decide) (by simp [h1, h2])]
        rfl

end Stargazer
