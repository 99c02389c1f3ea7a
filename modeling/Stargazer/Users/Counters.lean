import Stargazer.Users.Billing
import Stargazer.Users.UsersImpl

set_option relaxedAutoImplicit false
set_option autoImplicit false

/-!
# The month counters of the users

Which operations move the month counters of a user, and which leave the account alone: the two
traffic calls count, if the user is connected and has a tariff; `UserImpl::Run`, `Authorize` and
`Unauthorize` do not.

## Main definitions

* `Stargazer.UserImpl.monthTraff`, `Stargazer.UserImpl.counts` — the counters of one side, and
  whether the user counts its traffic.
* `Stargazer.UserImpl.SameAccount` — two states of a user with the same account.

## Main results

* `Stargazer.UserImpl.monthTraff_addTraffStat` — what a traffic call counts.
* `Stargazer.UserImpl.sameAccount_run`, `Stargazer.UserImpl.run_connected` — what `Run` keeps.
* `Stargazer.UsersImpl.monthTraff_authorize`, `Stargazer.UsersImpl.monthTraff_unauthorize` —
  authorization counts nothing.
-/

namespace Stargazer

namespace UserImpl

/-- The month counters of one side. -/
def monthTraff (d : Side) (u : UserImpl) : DirTraff :=
  match d with
  | .up => u.up
  | .down => u.down

/-- The first test of `AddTraffStatU` and `AddTraffStatD`: is the traffic of the user counted? -/
def counts (u : UserImpl) : Bool := u.connected && u.tariff.isSome

/-- What `AddTraffStatU` and `AddTraffStatD` do to the month counters. -/
theorem monthTraff_addTraffStat (d d' : Side) (env : Env) (dir dir' : Dir) (ip : IP)
    (len : BitVec 32) (u : UserImpl) :
    (u.addTraffStat d' env dir' ip len).monthTraff d dir =
      u.monthTraff d dir + if d' = d ∧ dir' = dir ∧ u.counts then len.setWidth 64 else 0 := by
  cases ht : u.tariff with
  | none => cases d' <;> simp [addTraffStat, addTraffStatU, addTraffStatD, ht, counts]
  | some t =>
    cases hc : u.connected with
    | false => cases d' <;> simp [addTraffStat, addTraffStatU, addTraffStatD, ht, hc, counts]
    | true =>
      by_cases hd : dir' = dir
      · subst hd
        cases d' <;> cases d <;>
          simp [addTraffStat, addTraffStatU, addTraffStatD, addTraff, ht, hc, counts,
            monthTraff] <;>
          split_ifs <;> simp
      · have hd' : dir ≠ dir' := Ne.symm hd
        cases d' <;> cases d <;>
          simp [addTraffStat, addTraffStatU, addTraffStatD, addTraff, ht, hc, counts, monthTraff,
            hd] <;>
          split_ifs <;> simp [Function.update_of_ne hd']

/-- Two states of a user with the same login, address, authorizers, tariff and month counters. -/
structure SameAccount (u v : UserImpl) : Prop where
  /-- The same login. -/
  login : v.login = u.login
  /-- The same address. -/
  currIP : v.currIP = u.currIP
  /-- The same authorizers. -/
  authorizedBy : v.authorizedBy = u.authorizedBy
  /-- The same tariff. -/
  tariff : v.tariff = u.tariff
  /-- The same month counters. -/
  monthTraff : ∀ d, v.monthTraff d = u.monthTraff d

namespace SameAccount

theorem refl (u : UserImpl) : SameAccount u u := ⟨rfl, rfl, rfl, rfl, fun _ => rfl⟩

theorem trans {u v w : UserImpl} (h : SameAccount u v) (h' : SameAccount v w) : SameAccount u w :=
  ⟨h'.login.trans h.login, h'.currIP.trans h.currIP, h'.authorizedBy.trans h.authorizedBy,
    h'.tariff.trans h.tariff, fun d => (h'.monthTraff d).trans (h.monthTraff d)⟩

theorem ite {u v w : UserImpl} {c : Prop} [Decidable c] (h : SameAccount u v)
    (h' : SameAccount u w) : SameAccount u (if c then v else w) := by
  split_ifs
  · exact h
  · exact h'

end SameAccount

theorem sameAccount_disconnect (env : Env) (fake : Bool) (reason : String) (u : UserImpl) :
    SameAccount u (u.disconnect env fake reason) := by
  obtain ⟨_, _, _, _, _, _, h⟩ := disconnect_frame env fake reason u
  rw [h]
  exact ⟨rfl, rfl, rfl, rfl, fun d => by cases d <;> rfl⟩

theorem sameAccount_connect (env : Env) (fake : Bool) (u : UserImpl) :
    SameAccount u (u.connect env fake) := by
  simp only [connect, writeSession]
  split_ifs <;> exact ⟨rfl, rfl, rfl, rfl, fun d => by cases d <;> rfl⟩

theorem sameAccount_runAccounts (env : Env) (u : UserImpl) :
    SameAccount u (u.runAccounts env) := by
  simp only [runAccounts, writeStat]
  split_ifs <;> exact ⟨rfl, rfl, rfl, rfl, fun d => by cases d <;> rfl⟩

theorem sameAccount_runSession (env : Env) (u : UserImpl) : SameAccount u (u.runSession env) := by
  have hactive : SameAccount u { u with lastActivityTime := env.stgTime } :=
    ⟨rfl, rfl, rfl, rfl, fun d => by cases d <;> rfl⟩
  unfold runSession
  refine .ite ?_ (.ite (sameAccount_disconnect ..) (.refl u))
  dsimp only
  have hstart : SameAccount u (if u.connected then { u with lastActivityTime := env.stgTime }
    else u) := .ite hactive (.refl u)
  generalize (if u.connected then { u with lastActivityTime := env.stgTime } else u) = v at hstart ⊢
  have hconnect : SameAccount v (if v.connected = false ∧ v.isInetable env = true then
    v.connect env false else v) := .ite (sameAccount_connect ..) (.refl v)
  exact hstart.trans (hconnect.trans (.ite (sameAccount_disconnect ..) (.refl _)))

/-- `Run` keeps the account; it only connects and disconnects. -/
theorem sameAccount_run (env : Env) (u : UserImpl) : SameAccount u (u.run env) :=
  (sameAccount_runAccounts env u).trans (sameAccount_runSession env _)

/-- A connected and authorized user that may be connected stays so. -/
theorem run_connected (env : Env) {u : UserImpl} (hc : u.connected = true)
    (ha : u.authorizedBy ≠ ∅) (hi : (u.runAccounts env).isInetable env = true) :
    (u.run env).connected = true := by
  have hc' : (u.runAccounts env).connected = true := by
    rw [← hc]
    simp only [runAccounts, writeStat]
    split_ifs <;> rfl
  have ha' : (u.runAccounts env).authorizedBy ≠ ∅ := by
    rwa [(sameAccount_runAccounts env u).authorizedBy]
  rw [run, runSession, if_pos ha']
  dsimp only
  rw [if_pos hc']
  generalize hv : ({ u.runAccounts env with lastActivityTime := env.stgTime } : UserImpl) = v
  have hvc : v.connected = true := by rw [← hv]; exact hc'
  have hvi : v.isInetable env = true := by rw [← hv]; exact hi
  simp [hvc, hvi]

end UserImpl

namespace UsersImpl

variable {s : UsersImpl} {env : Env} {login : String} {ip : IP} {dirs : BitVec 32} {auth : AuthId}
  {reason : String} {out : Outcome}

theorem monthTraff_setUser {id : UserId} {u : UserImpl} {d : Side}
    (h : u.monthTraff d = (s.users id).monthTraff d) (j : UserId) :
    ((s.setUser id u).users j).monthTraff d = (s.users j).monthTraff d := by
  by_cases hj : j = id
  · subst hj; rw [setUser_self, h]
  · rw [setUser_of_ne _ _ hj]

theorem monthTraff_authorizeUser (id : UserId) (d : Side) (j : UserId) :
    ((s.authorizeUser env id ip dirs auth).users.users j).monthTraff d =
      (s.users j).monthTraff d := by
  refine monthTraff_setUser ?_ j
  rcases (s.users id).authorize_cases env s.ipIndex id ip dirs auth with
    ⟨-, hr⟩ | ⟨-, _, _, hr⟩ | ⟨-, -, -, -, -, hr⟩ | ⟨-, -, -, -, hr⟩ <;> rw [hr] <;> cases d <;> rfl

/-- `Authorize` counts no traffic. -/
theorem monthTraff_authorize (h : s.authorize env login ip dirs auth = some out) (d : Side)
    (j : UserId) : (out.users.users j).monthTraff d = (s.users j).monthTraff d := by
  unfold authorize at h
  split at h
  · obtain rfl := Option.some.inj h
    rfl
  · next id _ =>
    split at h
    · split_ifs at h
      · obtain rfl := Option.some.inj h
        rfl
      · obtain rfl := Option.some.inj h
        exact monthTraff_authorizeUser _ d j
    · dsimp only at h
      split_ifs at h
      · obtain rfl := Option.some.inj h
        exact monthTraff_authorizeUser id d j
      · obtain ⟨s', hs', rfl⟩ := Option.map_eq_some_iff.mp h
        have husers : s'.users = (s.authorizeUser env id ip dirs auth).users.users := by
          unfold addToIPIdx at hs'
          dsimp only at hs'
          split_ifs at hs' <;> (obtain rfl := Option.some.inj hs'; rfl)
        rw [husers]
        exact monthTraff_authorizeUser id d j

/-- `Unauthorize` counts no traffic. -/
theorem monthTraff_unauthorize (h : s.unauthorize env login auth reason = some out) (d : Side)
    (j : UserId) : (out.users.users j).monthTraff d = (s.users j).monthTraff d := by
  unfold unauthorize at h
  split at h
  · obtain rfl := Option.some.inj h
    rfl
  · next id _ =>
    have huser : ((s.users id).unauthorize env auth reason).user.monthTraff d =
        (s.users id).monthTraff d := by
      rcases (s.users id).unauthorize_cases env auth reason with
        ⟨-, hr⟩ | ⟨-, -, hr⟩ | ⟨-, -, hr⟩
      · rw [hr]
      · rw [hr]; cases d <;> rfl
      · rw [hr]
        dsimp only
        split_ifs
        · rw [(UserImpl.sameAccount_disconnect ..).monthTraff]; cases d <;> rfl
        · cases d <;> rfl
    dsimp only at h
    split_ifs at h
    · obtain ⟨s', hs', rfl⟩ := Option.map_eq_some_iff.mp h
      unfold delFromIPIdx at hs'
      split_ifs at hs'
      obtain rfl := Option.some.inj hs'
      exact monthTraff_setUser huser j
    · obtain rfl := Option.some.inj h
      exact monthTraff_setUser huser j

end UsersImpl

end Stargazer
