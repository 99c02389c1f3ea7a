import Stargazer.Admins.AdminsImpl
import Stargazer.Lib.AssocMap
import Stargazer.Lib.Run
import Mathlib.Data.List.Chain
import Mathlib.Data.Rat.Cast.Order
import Mathlib.Tactic.NormNum

set_option relaxedAutoImplicit false
set_option autoImplicit false

/-!
# Sessions of the XML-RPC interface

`plugins/configuration/rpcconfig/rpcconfig.cpp`: a login gives a cookie, and every other method is
called with one.  A session is kept under its cookie, with the time of its last use; whether it has
expired is only asked when it is used again.

`RPC_CONFIG::GetAdminInfo` subtracts the present time from the time of the last use, and compares
the difference with the timeout.  As the clock does not go back, the difference is never positive:
no session ever expires while the timeout is not negative.

## Main definitions

* `Stargazer.RpcConfig.getAdminInfo`, `Stargazer.RpcConfig.checkAdmin`,
  `Stargazer.RpcConfig.logoutAdmin` — the three operations.
* `Stargazer.RpcConfig.Opened` — what a history says about a cookie.
* `Stargazer.RpcConfig.Truthful` — the sessions as they are meant.

## Main results

* `Stargazer.RpcConfig.lookup_cookies_iff` — the sessions that are kept after a run.
* `Stargazer.RpcConfig.answers_iff` — when the answer to a call is as meant.
* `Stargazer.RpcConfig.truthful_iff` — when all answers of a run are.
-/

namespace Stargazer

open Transition

/-- A registry points to no administrator where it refuses the password. -/
theorem AdminsImpl.correct_snd_of_false {a : AdminsImpl} {login password : String}
    (h : (a.correct login password).1 = false) : (a.correct login password).2 = none := by
  unfold AdminsImpl.correct at h ⊢
  by_cases hdata : a.data = []
  · simp [hdata] at h
  · rw [if_neg hdata] at h ⊢
    cases hfind : a.findLogin login with
    | none => rfl
    | some admin =>
      rw [hfind] at h
      by_cases hpassword : admin.password ≠ password
      · simp [hpassword]
      · simp [hpassword] at h

/-- `ADMIN_INFO`. -/
@[ext]
structure AdminInfo where
  /-- The login. -/
  admin : String
  /-- When the session was used last. -/
  accessTime : Time
  /-- The privileges the administrator had when he logged in. -/
  priviledges : Priv

/-- `RPC_CONFIG`: the setting and the state its sessions depend on.  The timeout is a number with a
point. -/
structure RpcConfig where
  cookieTimeout : ℚ
  cookies : AList fun _ : String => AdminInfo

namespace RpcConfig

/-! ## The operations -/

/-- `RPC_CONFIG::GetAdminInfo`: the state, and who the call is made by, if it is accepted. -/
def getAdminInfo (now : Time) (cookie : String) (rpc : RpcConfig) : RpcConfig × Option AdminInfo :=
  match rpc.cookies.lookup cookie with
  | none => (rpc, none)
  | some info =>
    -- `difftime(it->second.accessTime, time(NULL))`
    if ((info.accessTime - now : ℤ) : ℚ) > rpc.cookieTimeout then
      ({ rpc with cookies := rpc.cookies.erase cookie }, none)
    else
      let info := { info with accessTime := now }
      ({ rpc with cookies := rpc.cookies.insert cookie info }, some info)

/-- `RPC_CONFIG::CheckAdmin`, with the cookie that `GetCookie` makes.  There is no result where the
registry accepts a login without an administrator, as it does while it is empty: the privileges are
then read through a null pointer. -/
def checkAdmin (admins : AdminsImpl) (now : Time) (login password newCookie : String)
    (rpc : RpcConfig) : Option (RpcConfig × Option String) :=
  match admins.correct login password with
  | (false, _) => some (rpc, none)
  | (true, none) => none
  | (true, some admin) =>
    let info : AdminInfo := ⟨login, now, admin.priv⟩
    some ({ rpc with cookies := rpc.cookies.insert newCookie info }, some newCookie)

/-- `RPC_CONFIG::LogoutAdmin`: the state, and whether it is an error. -/
def logoutAdmin (cookie : String) (rpc : RpcConfig) : RpcConfig × Bool :=
  match rpc.cookies.lookup cookie with
  | none => (rpc, true)
  | some _ => ({ rpc with cookies := rpc.cookies.erase cookie }, false)

/-! ## Runs -/

/-- What a client asks for. -/
inductive Action
  /-- A login, with the registry it finds and the cookie that is made. -/
  | login (admins : AdminsImpl) (login password newCookie : String)
  | logout (cookie : String)
  /-- Any other method. -/
  | call (cookie : String)

/-- A request and the time it is served at. -/
structure Request where
  time : Time
  action : Action

/-- One request. -/
def step (rpc : RpcConfig) (r : Request) : Option RpcConfig :=
  match r.action with
  | .login admins login password newCookie =>
    (rpc.checkAdmin admins r.time login password newCookie).map Prod.fst
  | .logout cookie => some (rpc.logoutAdmin cookie).1
  | .call cookie => some (rpc.getAdminInfo r.time cookie).1

/-- No session yet. -/
def start (timeout : ℚ) : RpcConfig := ⟨timeout, ∅⟩

namespace Request

/-- The cookie, the login and the privileges of a login that succeeds. -/
def issued (r : Request) : Option (String × String × Priv) :=
  match r.action with
  | .login admins login password newCookie =>
    (admins.correct login password).2.map fun admin => (newCookie, login, admin.priv)
  | _ => none

/-- The cookie that is logged out. -/
def loggedOut (r : Request) : Option String :=
  match r.action with
  | .logout cookie => some cookie
  | _ => none

/-- The time of a call with the cookie. -/
def use (cookie : String) (r : Request) : Option Time :=
  match r.action with
  | .call c => if c = cookie then some r.time else none
  | _ => none

end Request

/-- The cookie was issued to the administrator, has not been logged out since, and these are the
times of its uses, of which the login is the first one. -/
def Opened (h : List Request) (cookie login : String) (priv : Priv) (times : List Time) : Prop :=
  ∃ before r after, h = before ++ r :: after ∧ r.issued = some (cookie, login, priv) ∧
    (∀ q ∈ after, q.loggedOut ≠ some cookie) ∧ times = r.time :: after.filterMap (·.use cookie)

/-- No more than the timeout passed between any two consecutive times. -/
def InTime (timeout : ℚ) (times : List Time) : Prop :=
  times.IsChain fun t t' => ((t' - t : ℤ) : ℚ) ≤ timeout

/-- The times between which `GetAdminInfo` lets a session live. -/
def Kept (timeout : ℚ) (times : List Time) : Prop :=
  times.IsChain fun t t' => ((t - t' : ℤ) : ℚ) ≤ timeout

/-- The answer to a call as it is meant: accepted if and only if the session is open and all its uses
were in time, and attributed to the administrator the cookie was issued to. -/
structure Answers (timeout : ℚ) (h : List Request) (now : Time) (cookie : String)
    (answer : Option AdminInfo) : Prop where
  accepted_iff : answer.isSome ↔ ∃ login priv times,
    Opened h cookie login priv times ∧ InTime timeout (times ++ [now])
  attributed : ∀ info, answer = some info →
    ∃ times, Opened h cookie info.admin info.priviledges times

/-- All calls of a run are answered as meant. -/
def Truthful (timeout : ℚ) (h : List Request) : Prop :=
  ∀ before now cookie after rpc, h = before ++ ⟨now, .call cookie⟩ :: after →
    Runs step (start timeout) before rpc →
      Answers timeout before now cookie (rpc.getAdminInfo now cookie).2

/-- A call with an open session that comes too late, or after another one that did, although
`GetAdminInfo` lets the session live all the time. -/
def Overdue (timeout : ℚ) (h : List Request) (now : Time) (cookie : String) : Prop :=
  ∃ login priv times, Opened h cookie login priv times ∧
    Kept timeout (times ++ [now]) ∧ ¬ InTime timeout (times ++ [now])

/-- The cookies that were made are distinct. -/
def Distinct (h : List Request) : Prop :=
  (h.filterMap fun r => r.issued.map Prod.fst).Nodup

/-- The clock does not go back. -/
def Forward (h : List Request) : Prop :=
  (h.map Request.time).Pairwise (· ≤ ·)

/-! ## What a history says about a cookie -/

/-- Only a login issues a cookie. -/
theorem Request.issued_of_use {r : Request} {cookie : String} {t : Time}
    (h : r.use cookie = some t) : r.issued = none ∧ r.loggedOut = none ∧ t = r.time := by
  obtain ⟨time, action⟩ := r
  cases action with
  | call c =>
    simp only [Request.use] at h
    split_ifs at h
    exact ⟨rfl, rfl, (Option.some.inj h).symm⟩
  | _ => simp [Request.use] at h

/-- A login uses no session and ends none. -/
theorem Request.use_of_issued {r : Request} {x : String × String × Priv} (h : r.issued = some x)
    (cookie : String) : r.use cookie = none ∧ r.loggedOut = none := by
  obtain ⟨time, action⟩ := r
  cases action with
  | login => exact ⟨rfl, rfl⟩
  | _ => simp [Request.issued] at h

/-- **One more request.** Either it issues the cookie, or the session was open before and is not
logged out. -/
theorem opened_snoc (h : List Request) (r : Request) (cookie login : String) (priv : Priv)
    (times : List Time) :
    Opened (h ++ [r]) cookie login priv times ↔
      r.issued = some (cookie, login, priv) ∧ times = [r.time] ∨
      r.loggedOut ≠ some cookie ∧
        ∃ old, Opened h cookie login priv old ∧ times = old ++ (r.use cookie).toList := by
  constructor
  · rintro ⟨before, q, after, heq, hissued, hout, rfl⟩
    rcases List.eq_nil_or_concat after with rfl | ⟨after, q', rfl⟩
    · obtain ⟨rfl, hq⟩ := List.append_inj' heq rfl
      obtain rfl : r = q := by simpa using hq
      exact .inl ⟨hissued, rfl⟩
    · rw [List.concat_eq_append] at heq hout ⊢
      rw [← List.cons_append, ← List.append_assoc] at heq
      obtain ⟨rfl, hq⟩ := List.append_inj' heq rfl
      obtain rfl : r = q' := by simpa using hq
      refine .inr ⟨hout r (by simp), _, ⟨before, q, after, rfl, hissued,
        fun x hx => hout x (by simp [hx]), rfl⟩, ?_⟩
      cases hu : r.use cookie <;> simp [hu]
  · rintro (⟨hissued, rfl⟩ | ⟨hout, old, ⟨before, q, after, rfl, hissued, hout', rfl⟩, rfl⟩)
    · exact ⟨h, r, [], rfl, hissued, by simp, rfl⟩
    · refine ⟨before, q, after ++ [r], by simp, hissued, ?_, ?_⟩
      · intro x hx
        rcases List.mem_append.1 hx with hx | hx
        · exact hout' x hx
        · rw [List.mem_singleton.1 hx]
          exact hout
      · cases hu : r.use cookie <;> simp [hu]

/-- A session has been used. -/
theorem Opened.ne_nil {h : List Request} {cookie login : String} {priv : Priv} {times : List Time}
    (ho : Opened h cookie login priv times) : times ≠ [] := by
  obtain ⟨before, r, after, -, -, -, rfl⟩ := ho
  simp

/-- The cookie of a session is one that was made. -/
theorem Opened.mem {h : List Request} {cookie login : String} {priv : Priv} {times : List Time}
    (ho : Opened h cookie login priv times) :
    cookie ∈ h.filterMap fun r => r.issued.map Prod.fst := by
  obtain ⟨before, r, after, rfl, hissued, -, -⟩ := ho
  exact List.mem_filterMap.2 ⟨r, by simp, by simp [hissued]⟩

/-- A cookie that is made is new. -/
theorem Distinct.not_opened {h : List Request} {r : Request} (hd : Distinct (h ++ [r]))
    {cookie login login' : String} {priv priv' : Priv} {times : List Time}
    (hr : r.issued = some (cookie, login, priv)) : ¬ Opened h cookie login' priv' times := by
  intro ho
  have hd' := hd
  simp only [Distinct, List.filterMap_append, List.filterMap_cons, hr, Option.map_some,
    List.filterMap_nil] at hd'
  exact (List.nodup_append.1 hd').2.2 _ ho.mem _ (by simp) rfl

theorem Distinct.init {h : List Request} {r : Request} (hd : Distinct (h ++ [r])) : Distinct h := by
  rw [Distinct, List.filterMap_append] at hd
  exact (List.nodup_append.1 hd).1

/-- **There is one session for a cookie.**

**Proof sketch.** Induction on the history, from its end. -/
theorem Opened.unique {h : List Request} (hd : Distinct h) {cookie login login' : String}
    {priv priv' : Priv} {times times' : List Time} (ho : Opened h cookie login priv times)
    (ho' : Opened h cookie login' priv' times') :
    login = login' ∧ priv = priv' ∧ times = times' := by
  induction h using List.reverseRecOn generalizing times times' with
  | nil =>
    obtain ⟨before, r, after, heq, -⟩ := ho
    simp at heq
  | append_singleton h r ih =>
    rw [opened_snoc] at ho ho'
    rcases ho with ⟨hr, rfl⟩ | ⟨-, old, ho, rfl⟩ <;> rcases ho' with ⟨hr', rfl⟩ | ⟨-, old', ho', rfl⟩
    · rw [hr] at hr'
      obtain ⟨-, rfl, rfl⟩ : cookie = cookie ∧ login = login' ∧ priv = priv' := by simpa using hr'
      exact ⟨rfl, rfl, rfl⟩
    · exact absurd ho' (hd.not_opened hr)
    · exact absurd ho (hd.not_opened hr')
    · obtain ⟨hl, hp, rfl⟩ := ih hd.init ho ho'
      exact ⟨hl, hp, rfl⟩

/-- The times of a session are times of the history. -/
theorem Opened.sublist {h : List Request} {cookie login : String} {priv : Priv} {times : List Time}
    (ho : Opened h cookie login priv times) : times.Sublist (h.map Request.time) := by
  obtain ⟨before, r, after, rfl, -, -, rfl⟩ := ho
  have huses : (after.filterMap (·.use cookie)).Sublist (after.map Request.time) := by
    induction after with
    | nil => exact .slnil
    | cons q after ih =>
      cases hu : q.use cookie with
      | none => rw [List.filterMap_cons_none hu]; exact ih.cons _
      | some t =>
        obtain ⟨-, -, rfl⟩ := Request.issued_of_use hu
        rw [List.filterMap_cons_some hu]
        exact ih.cons_cons _
  rw [List.map_append, List.map_cons]
  exact (huses.cons_cons _).trans (List.sublist_append_right _ _)

/-! ## What is kept -/

theorem kept_snoc {timeout : ℚ} {times : List Time} {t now : Time} (hlast : times.getLast? = some t) :
    Kept timeout (times ++ [now]) ↔ Kept timeout times ∧ ((t - now : ℤ) : ℚ) ≤ timeout := by
  simp [Kept, List.isChain_append, hlast]

/-- In time is soon enough for `GetAdminInfo`, while the clock does not go back. -/
theorem InTime.kept {timeout : ℚ} {times : List Time} (h : InTime timeout times)
    (hf : times.Pairwise (· ≤ ·)) : Kept timeout times := by
  rw [InTime, List.isChain_iff_getElem] at h
  rw [Kept, List.isChain_iff_getElem]
  intro i hi
  have hle : times[i] ≤ times[i + 1] := List.pairwise_iff_getElem.1 hf i (i + 1) _ hi (by omega)
  have hsign : ((times[i] - times[i + 1] : ℤ) : ℚ) ≤ ((times[i + 1] - times[i] : ℤ) : ℚ) := by
    exact_mod_cast sub_le_sub hle hle
  exact hsign.trans (h i hi)

/-- **No session ever expires** while the timeout is not negative and the clock does not go back. -/
theorem kept_of_nonneg {timeout : ℚ} (h : 0 ≤ timeout) {times : List Time}
    (hf : times.Pairwise (· ≤ ·)) : Kept timeout times := by
  refine hf.isChain.imp fun t t' hle => le_trans ?_ h
  exact_mod_cast sub_nonpos.2 hle

/-- The sessions that a history leaves, as `GetAdminInfo` judges them. -/
def Recorded (timeout : ℚ) (h : List Request) (cookie : String) (info : AdminInfo) : Prop :=
  ∃ times, Opened h cookie info.admin info.priviledges times ∧ Kept timeout times ∧
    times.getLast? = some info.accessTime

/-- A request that neither issues nor ends nor uses the session of a cookie leaves it alone. -/
theorem recorded_snoc_of_ne {timeout : ℚ} {h : List Request} {r : Request} {cookie : String}
    (hissued : r.issued.map Prod.fst ≠ some cookie) (hout : r.loggedOut ≠ some cookie)
    (huse : r.use cookie = none) (info : AdminInfo) :
    Recorded timeout (h ++ [r]) cookie info ↔ Recorded timeout h cookie info := by
  refine exists_congr fun times => and_congr_left fun _ => ?_
  rw [opened_snoc]
  constructor
  · rintro (⟨hr, -⟩ | ⟨-, old, ho, rfl⟩)
    · exact absurd (by rw [hr]; rfl) hissued
    · simpa [huse] using ho
  · intro ho
    exact .inr ⟨hout, times, ho, by simp [huse]⟩

/-- A login leaves the session it opens. -/
theorem recorded_snoc_issued {timeout : ℚ} {h : List Request} {r : Request} {cookie login : String}
    {priv : Priv} (hd : Distinct (h ++ [r])) (hr : r.issued = some (cookie, login, priv))
    (info : AdminInfo) :
    Recorded timeout (h ++ [r]) cookie info ↔ info = ⟨login, r.time, priv⟩ := by
  constructor
  · rintro ⟨times, ho, -, hlast⟩
    rcases (opened_snoc ..).1 ho with ⟨hr', rfl⟩ | ⟨-, old, ho, -⟩
    · rw [hr] at hr'
      obtain ⟨-, hl, hp⟩ : cookie = cookie ∧ login = info.admin ∧ priv = info.priviledges := by
        simpa using hr'
      have ht : r.time = info.accessTime := by simpa using hlast
      exact AdminInfo.ext hl.symm ht.symm hp.symm
    · exact absurd ho (hd.not_opened hr)
  · rintro rfl
    exact ⟨[r.time], (opened_snoc ..).2 (.inl ⟨hr, rfl⟩), List.isChain_singleton _, rfl⟩

/-- A logout leaves no session. -/
theorem not_recorded_snoc_logout {timeout : ℚ} {h : List Request} {r : Request} {cookie : String}
    (hout : r.loggedOut = some cookie) (info : AdminInfo) :
    ¬ Recorded timeout (h ++ [r]) cookie info := by
  rintro ⟨times, ho, -⟩
  rcases (opened_snoc ..).1 ho with ⟨hr, -⟩ | ⟨hne, -⟩
  · rw [(Request.use_of_issued hr cookie).2] at hout
    exact absurd hout (by simp)
  · exact hne hout

/-- A use leaves the session with the time of the use, if it has not expired. -/
theorem recorded_snoc_use {timeout : ℚ} {h : List Request} {r : Request} {cookie : String}
    (huse : r.use cookie = some r.time) (info : AdminInfo) :
    Recorded timeout (h ++ [r]) cookie info ↔
      ∃ old, Recorded timeout h cookie old ∧ ((old.accessTime - r.time : ℤ) : ℚ) ≤ timeout ∧
        info = { old with accessTime := r.time } := by
  obtain ⟨hissued, hout, -⟩ := Request.issued_of_use huse
  constructor
  · rintro ⟨times, ho, hkept, hlast⟩
    rcases (opened_snoc ..).1 ho with ⟨hr, -⟩ | ⟨-, old, hold, rfl⟩
    · rw [hr] at hissued
      exact absurd hissued (by simp)
    · rw [huse, Option.toList_some] at hkept hlast
      have ht : r.time = info.accessTime := by simpa using hlast
      have holdlast : old.getLast? = some (old.getLast hold.ne_nil) := List.getLast?_eq_some_getLast _
      obtain ⟨hkept, hgap⟩ := (kept_snoc holdlast).1 hkept
      refine ⟨⟨info.admin, old.getLast hold.ne_nil, info.priviledges⟩, ⟨old, hold, hkept, holdlast⟩,
        hgap, ?_⟩
      exact AdminInfo.ext rfl ht.symm rfl
  · rintro ⟨old, ⟨times, ho, hkept, hlast⟩, hgap, rfl⟩
    refine ⟨times ++ [r.time], (opened_snoc ..).2 (.inr ⟨by simp [hout], times, ho, ?_⟩),
      (kept_snoc hlast).2 ⟨hkept, hgap⟩, by simp⟩
    rw [huse, Option.toList_some]

/-- What `GetAdminInfo` answers, and what it leaves. -/
theorem getAdminInfo_spec (now : Time) (cookie : String) (rpc : RpcConfig) :
    (rpc.getAdminInfo now cookie).1.cookieTimeout = rpc.cookieTimeout ∧
    (∀ info, (rpc.getAdminInfo now cookie).2 = some info ↔
      ∃ old, rpc.cookies.lookup cookie = some old ∧
        ((old.accessTime - now : ℤ) : ℚ) ≤ rpc.cookieTimeout ∧
        info = { old with accessTime := now }) ∧
    (rpc.getAdminInfo now cookie).1.cookies.lookup cookie = (rpc.getAdminInfo now cookie).2 ∧
    ∀ c, c ≠ cookie →
      (rpc.getAdminInfo now cookie).1.cookies.lookup c = rpc.cookies.lookup c := by
  unfold getAdminInfo
  cases hold : rpc.cookies.lookup cookie with
  | none => simp [hold]
  | some old =>
    simp only [gt_iff_lt]
    split_ifs with hgap
    · refine ⟨rfl, fun info => ⟨by simp, ?_⟩, by simp, fun c hc => by simp [AList.lookup_erase_ne hc]⟩
      rintro ⟨_, heq, hle, -⟩
      rw [← Option.some.inj heq] at hle
      exact absurd hle (not_le.2 hgap)
    · refine ⟨rfl, fun info => ⟨?_, ?_⟩, by simp, fun c hc => by simp [AList.lookup_insert_ne hc]⟩
      · intro hinfo
        exact ⟨old, rfl, not_lt.1 hgap, (Option.some.inj hinfo).symm⟩
      · rintro ⟨_, heq, -, rfl⟩
        rw [← Option.some.inj heq]

/-- What a login does. -/
theorem checkAdmin_spec {admins : AdminsImpl} {now : Time} {login password newCookie : String}
    {rpc rpc' : RpcConfig}
    (h : step rpc ⟨now, .login admins login password newCookie⟩ = some rpc') :
    (Request.issued ⟨now, .login admins login password newCookie⟩ = none ∧ rpc' = rpc) ∨
    ∃ priv, Request.issued ⟨now, .login admins login password newCookie⟩ =
        some (newCookie, login, priv) ∧
      rpc' = { rpc with cookies := rpc.cookies.insert newCookie ⟨login, now, priv⟩ } := by
  simp only [step, checkAdmin] at h
  simp only [Request.issued]
  cases hc : admins.correct login password with
  | mk ok admin =>
    rw [hc] at h
    cases ok with
    | false =>
      have hnone : admin = none := by
        have hsnd := AdminsImpl.correct_snd_of_false (congrArg Prod.fst hc)
        rwa [hc] at hsnd
      refine .inl ⟨by simp [hnone], by simpa using h.symm⟩
    | true =>
      cases admin with
      | none => simp at h
      | some admin => exact .inr ⟨admin.priv, rfl, by simpa using h.symm⟩

/-- **The sessions that are kept after a run.**

**Proof sketch.** Induction on the history, from its end.  Each kind of request changes the session
of one cookie, in the way `Recorded` does. -/
theorem lookup_cookies_iff {timeout : ℚ} {h : List Request} {rpc : RpcConfig}
    (hrun : Runs step (start timeout) h rpc) (hd : Distinct h) :
    rpc.cookieTimeout = timeout ∧
      ∀ cookie info, rpc.cookies.lookup cookie = some info ↔ Recorded timeout h cookie info := by
  induction h using List.reverseRecOn generalizing rpc with
  | nil =>
    cases hrun with
    | nil =>
      refine ⟨rfl, fun cookie info => ⟨fun hl => by simp [start] at hl, ?_⟩⟩
      rintro ⟨times, ⟨before, r, after, heq, -⟩, -⟩
      simp at heq
  | append_singleton h r ih =>
    obtain ⟨old, hold, -, hstep⟩ := hrun.of_snoc
    obtain ⟨htimeout, hlookup⟩ := ih hold hd.init
    obtain ⟨now, action⟩ := r
    cases action with
    | login admins login password newCookie =>
      rcases checkAdmin_spec hstep with ⟨hissued, rfl⟩ | ⟨priv, hissued, rfl⟩
      · refine ⟨htimeout, fun cookie info => ?_⟩
        rw [hlookup, recorded_snoc_of_ne (by simp [hissued]) (by simp [Request.loggedOut]) rfl]
      · refine ⟨htimeout, fun cookie info => ?_⟩
        by_cases hcookie : cookie = newCookie
        · subst hcookie
          rw [recorded_snoc_issued hd hissued, AList.lookup_insert, Option.some.injEq, eq_comm]
        · rw [AList.lookup_insert_ne hcookie, hlookup, recorded_snoc_of_ne
            (by simpa [hissued] using Ne.symm hcookie) (by simp [Request.loggedOut]) rfl]
    | logout c =>
      obtain rfl : (old.logoutAdmin c).1 = rpc := by simpa [step] using hstep
      have hthis : (old.logoutAdmin c).1.cookies.lookup c = none := by
        unfold logoutAdmin
        cases hl : old.cookies.lookup c <;> simp [hl]
      have hothers : ∀ cookie, cookie ≠ c →
          (old.logoutAdmin c).1.cookies.lookup cookie = old.cookies.lookup cookie := by
        intro cookie hcookie
        unfold logoutAdmin
        cases hl : old.cookies.lookup c <;> simp [AList.lookup_erase_ne hcookie]
      refine ⟨?_, fun cookie info => ?_⟩
      · rw [← htimeout, logoutAdmin]
        split <;> rfl
      · by_cases hcookie : cookie = c
        · subst hcookie
          rw [hthis]
          exact ⟨fun hnone => by simp at hnone, fun hr => absurd hr (not_recorded_snoc_logout rfl info)⟩
        · rw [hothers cookie hcookie, hlookup, recorded_snoc_of_ne (by simp [Request.issued])
            (by simpa [Request.loggedOut] using Ne.symm hcookie) rfl]
    | call c =>
      obtain rfl : (old.getAdminInfo now c).1 = rpc := by simpa [step] using hstep
      obtain ⟨hsame, hanswer, hthis, hothers⟩ := getAdminInfo_spec now c old
      refine ⟨hsame.trans htimeout, fun cookie info => ?_⟩
      by_cases hcookie : cookie = c
      · subst hcookie
        rw [hthis, hanswer, recorded_snoc_use (by simp [Request.use]), htimeout]
        simp only [hlookup]
      · rw [hothers cookie hcookie, hlookup, recorded_snoc_of_ne (by simp [Request.issued])
          (by simp [Request.loggedOut]) (by simpa [Request.use] using Ne.symm hcookie)]

/-- **When the answer to a call is as meant.** -/
theorem answers_iff {timeout : ℚ} {h : List Request} {rpc : RpcConfig} {now : Time}
    {cookie : String} (hrun : Runs step (start timeout) h rpc) (hd : Distinct h)
    (hf : (h.map Request.time ++ [now]).Pairwise (· ≤ ·)) :
    Answers timeout h now cookie (rpc.getAdminInfo now cookie).2 ↔
      ¬ Overdue timeout h now cookie := by
  obtain ⟨htimeout, hlookup⟩ := lookup_cookies_iff hrun hd
  -- what is accepted is what `GetAdminInfo` lets live
  have hinfo : ∀ info, (rpc.getAdminInfo now cookie).2 = some info ↔
      ∃ times, Opened h cookie info.admin info.priviledges times ∧ Kept timeout (times ++ [now]) ∧
        info.accessTime = now := by
    intro info
    rw [(getAdminInfo_spec now cookie rpc).2.1, htimeout]
    simp only [hlookup]
    constructor
    · rintro ⟨old, ⟨times, ho, hkept, hlast⟩, hgap, rfl⟩
      exact ⟨times, ho, (kept_snoc hlast).2 ⟨hkept, hgap⟩, rfl⟩
    · rintro ⟨times, ho, hkept, rfl⟩
      have hlast : times.getLast? = some (times.getLast ho.ne_nil) := List.getLast?_eq_some_getLast _
      obtain ⟨hkept, hgap⟩ := (kept_snoc hlast).1 hkept
      exact ⟨⟨info.admin, times.getLast ho.ne_nil, info.priviledges⟩, ⟨times, ho, hkept, hlast⟩,
        hgap, rfl⟩
  have hordered : ∀ {login priv times}, Opened h cookie login priv times →
      (times ++ [now]).Pairwise (· ≤ ·) := fun ho => hf.sublist (ho.sublist.append_right [now])
  constructor
  · rintro ⟨haccepted, -⟩ ⟨login, priv, times, ho, hkept, hlate⟩
    have hsome : (rpc.getAdminInfo now cookie).2.isSome :=
      Option.isSome_iff_exists.2 ⟨⟨login, now, priv⟩, (hinfo _).2 ⟨times, ho, hkept, rfl⟩⟩
    obtain ⟨login', priv', times', ho', hin⟩ := haccepted.1 hsome
    obtain ⟨-, -, rfl⟩ := ho.unique hd ho'
    exact hlate hin
  · intro hoverdue
    refine ⟨⟨fun hsome => ?_, ?_⟩, fun info hi => ?_⟩
    · obtain ⟨info, hi⟩ := Option.isSome_iff_exists.1 hsome
      obtain ⟨times, ho, hkept, -⟩ := (hinfo info).1 hi
      exact ⟨_, _, times, ho, by_contra fun hlate => hoverdue ⟨_, _, times, ho, hkept, hlate⟩⟩
    · rintro ⟨login, priv, times, ho, hin⟩
      exact Option.isSome_iff_exists.2
        ⟨⟨login, now, priv⟩, (hinfo _).2 ⟨times, ho, hin.kept (hordered ho), rfl⟩⟩
    · obtain ⟨times, ho, -⟩ := (hinfo info).1 hi
      exact ⟨times, ho⟩

/-- **The answers of a run are as meant if and only if no call is overdue.** -/
theorem truthful_iff (timeout : ℚ) (h : List Request) (hf : Forward h) (hd : Distinct h) :
    Truthful timeout h ↔
      ∀ before now cookie after rpc, h = before ++ ⟨now, .call cookie⟩ :: after →
        Runs step (start timeout) before rpc → ¬ Overdue timeout before now cookie := by
  refine forall_congr' fun before => forall_congr' fun now => forall_congr' fun cookie =>
    forall_congr' fun after => forall_congr' fun rpc => forall_congr' fun hh => ?_
  refine forall_congr' fun hrun => answers_iff hrun ?_ ?_
  · rw [hh, Distinct, List.filterMap_append] at hd
    exact (List.nodup_append.1 hd).1
  · rw [hh, Forward, List.map_append, List.map_cons] at hf
    exact hf.sublist ((List.Sublist.refl _).append (by simp))

end RpcConfig

namespace Sample

open RpcConfig

/-- One administrator. -/
def rootOnly : AdminsImpl := ⟨[⟨Priv.full, "root", "secret", 0⟩]⟩

/-- A login at noon. -/
def noon : Request := ⟨0, .login rootOnly "root" "secret" "cookie"⟩

end Sample

namespace RpcConfig

open Sample in
/-- Ten seconds later the session is still good. -/
theorem truthful_soon : Truthful 1800 [noon, ⟨10, .call "cookie"⟩] := by
  refine (truthful_iff 1800 _ (by simp [Forward, noon]) ?_).2 ?_
  · simp only [Distinct, List.filterMap_cons, List.filterMap_nil]
    decide
  · rintro before now cookie after rpc heq - ⟨login, priv, times, ho, -, hlate⟩
    rcases before with _ | ⟨r, before⟩
    · obtain ⟨_, _, _, heq, -⟩ := ho
      simp at heq
    · obtain ⟨rfl, hrest⟩ := List.cons.inj heq
      rcases before with _ | ⟨r, before⟩
      · obtain ⟨hcall, -⟩ := List.cons.inj hrest
        obtain ⟨rfl, -⟩ : now = 10 ∧ cookie = "cookie" := by
          simpa [eq_comm] using hcall
        rcases (opened_snoc [] noon ..).1 ho with ⟨-, rfl⟩ | ⟨-, _, ⟨_, _, _, heq, -⟩, -⟩
        · exact hlate (by norm_num [InTime, noon])
        · simp at heq
      · simp at hrest

open Sample in
/-- **A session lives for ever.** A day after its last use it is still accepted, although the timeout
is half an hour. -/
theorem abandoned_session_accepted : ¬ ∀ (timeout : ℚ) (h : List Request), Forward h → Distinct h →
    Truthful timeout h := by
  intro hall
  have htruthful := hall 1800 [noon, ⟨86400, .call "cookie"⟩] (by simp [Forward, noon])
    (by simp only [Distinct, List.filterMap_cons, List.filterMap_nil]; decide)
  have hrun : Runs step (start 1800) [noon] ⟨1800, AList.insert "cookie" ⟨"root", 0, Priv.full⟩ ∅⟩ :=
    .cons trivial rfl (.nil _)
  have hanswers := htruthful [noon] 86400 "cookie" [] _ rfl hrun
  obtain ⟨login, priv, times, ho, hin⟩ := hanswers.accepted_iff.1 (by
    rw [Option.isSome_iff_exists]
    exact ⟨⟨"root", 86400, Priv.full⟩, ((getAdminInfo_spec ..).2.1 _).2
      ⟨⟨"root", 0, Priv.full⟩, AList.lookup_insert _, by norm_num, rfl⟩⟩)
  rcases (opened_snoc [] noon ..).1 ho with ⟨-, rfl⟩ | ⟨-, _, ⟨_, _, _, heq, -⟩, -⟩
  · norm_num [InTime, noon] at hin
  · simp at heq

end RpcConfig

end Stargazer
