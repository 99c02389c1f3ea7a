import Stargazer.Users.Deletion

set_option relaxedAutoImplicit false
set_option autoImplicit false

/-!
# The calls of one authorizer

What `UsersImpl::Authorize` and `UsersImpl::Unauthorize` do to the authorizations of all users, in
every state in which the index of addresses is right.  A deleted user may still be in the index, as
nothing takes it out of there while it is authorized; so nothing is said here about the users in the
index being found by their logins.

## Main definitions

* `Stargazer.UsersImpl.Placed` — users have addresses while they are authorized, and the index of
  addresses is right.
* `Stargazer.UsersImpl.Spares` — what a call of one authorizer leaves alone.

## Main results

* `Stargazer.UsersImpl.authorize_spares`, `Stargazer.UsersImpl.unauthorize_spares`.
* `Stargazer.UsersImpl.authorize_returns`, `Stargazer.UsersImpl.authorize_succeeds` — when a new
  authorizer is accepted.
-/

namespace Stargazer

@[simp] theorem UserImpl.disconnect_ips (env : Env) (fake : Bool) (reason : String) (u : UserImpl) :
    (u.disconnect env fake reason).ips = u.ips := by
  obtain ⟨_, _, _, _, _, _, h⟩ := disconnect_frame env fake reason u
  rw [h]

namespace UsersImpl

/-- Users have addresses while they are authorized, and the index of addresses is right. -/
structure Placed (s : UsersImpl) : Prop where
  currIP_eq_zero : ∀ id, (s.users id).currIP = 0 ↔ (s.users id).authorizedBy = ∅
  indexed : s.Indexed

/-- What a call of one authorizer leaves alone: logins, the addresses users may come from, and the
authorizations of others with the addresses they are at. -/
structure Spares (auth : AuthId) (s s' : UsersImpl) : Prop where
  loginIndex : s'.loginIndex = s.loginIndex
  login : ∀ id, (s'.users id).login = (s.users id).login
  ips : ∀ id, (s'.users id).ips = (s.users id).ips
  others : ∀ a, a ≠ auth → ∀ id, a ∈ (s'.users id).authorizedBy ↔ a ∈ (s.users id).authorizedBy
  currIP : ∀ a, a ≠ auth → ∀ id, a ∈ (s.users id).authorizedBy →
    (s'.users id).currIP = (s.users id).currIP
  placed : s'.Placed
  /-- Nobody is authorized but users that are found by their login. -/
  unfound : ∀ id, (s.users id).authorizedBy = ∅ → (∀ login, s.loginIndex login ≠ some id) →
    (s'.users id).authorizedBy = ∅

theorem Spares.refl (auth : AuthId) {s : UsersImpl} (h : s.Placed) : Spares auth s s :=
  ⟨rfl, fun _ => rfl, fun _ => rfl, fun _ _ _ => Iff.rfl, fun _ _ _ _ => rfl, h, fun _ h _ => h⟩

theorem Spares.trans {auth : AuthId} {s s' s'' : UsersImpl} (h : Spares auth s s')
    (h' : Spares auth s' s'') : Spares auth s s'' where
  loginIndex := h'.loginIndex.trans h.loginIndex
  login id := (h'.login id).trans (h.login id)
  ips id := (h'.ips id).trans (h.ips id)
  others a ha id := (h'.others a ha id).trans (h.others a ha id)
  currIP a ha id hid :=
    (h'.currIP a ha id ((h.others a ha id).2 hid)).trans (h.currIP a ha id hid)
  placed := h'.placed
  unfound id hid hfound :=
    h'.unfound id (h.unfound id hid hfound) fun login => by rw [h.loginIndex]; exact hfound login

section Calls

variable {s : UsersImpl} {env : Env} {login : String} {ip : IP} {dirs : BitVec 32} {auth : AuthId}
  {reason : String} {out : Outcome} {id : UserId}

/-- Replacing a user by one with the same authorizations at the same address. -/
theorem Placed.setUser {u : UserImpl} (h : s.Placed) (hcurr : u.currIP = (s.users id).currIP)
    (hby : u.authorizedBy = ∅ ↔ (s.users id).authorizedBy = ∅) : (s.setUser id u).Placed := by
  refine ⟨fun j => ?_, Indexed.of_iff fun ip' j => ?_⟩
  · by_cases hj : j = id
    · subst hj
      rw [setUser_self, hcurr, hby, h.currIP_eq_zero]
    · rw [setUser_of_ne s u hj, h.currIP_eq_zero]
  · by_cases hj : j = id
    · subst hj
      rw [setUser_ipIndex, h.indexed.index_iff, setUser_self, hcurr, ne_eq, ne_eq, hby]
    · rw [setUser_ipIndex, h.indexed.index_iff, setUser_of_ne s u hj]

/-- Replacing a user by one with one authorizer more or less and the same address. -/
theorem Spares.setUser {u : UserImpl} (h : s.Placed) (hlogin : u.login = (s.users id).login)
    (hips : u.ips = (s.users id).ips) (hcurr : u.currIP = (s.users id).currIP)
    (hothers : ∀ a, a ≠ auth → (a ∈ u.authorizedBy ↔ a ∈ (s.users id).authorizedBy))
    (hby : u.authorizedBy = ∅ ↔ (s.users id).authorizedBy = ∅) :
    Spares auth s (s.setUser id u) where
  loginIndex := rfl
  login := setUser_login hlogin
  ips j := by
    by_cases hj : j = id
    · subst hj
      rw [setUser_self, hips]
    · rw [setUser_of_ne s u hj]
  others a ha j := by
    by_cases hj : j = id
    · subst hj
      rw [setUser_self, hothers a ha]
    · rw [setUser_of_ne s u hj]
  currIP a _ j _ := by
    by_cases hj : j = id
    · subst hj
      rw [setUser_self, hcurr]
    · rw [setUser_of_ne s u hj]
  placed := h.setUser hcurr hby
  unfound j hj _ := by
    by_cases hji : j = id
    · subst hji
      rw [setUser_self, hby]
      exact hj
    · rw [setUser_of_ne s u hji]
      exact hj

/-- **What `Authorize` can do**, in terms of the user it is done to: nothing that matters; a new
authorizer joins others; or the first one gives the user the address. -/
theorem authorize_result (hp : s.Placed) (h : s.authorize env login ip dirs auth = some out) :
    out.users = s ∨
    ∃ id, (s.ipIndex ip = some id ∧ (s.users id).login = login ∨
        s.ipIndex ip = none ∧ s.loginIndex login = some id) ∧
      ((∃ d e, out.users =
          s.setUser id { s.users id with enabledDirs := d, errorStr := e }) ∨
        (auth ∉ (s.users id).authorizedBy ∧ (s.users id).authorizedBy ≠ ∅ ∧
          (s.users id).currIP = ip ∧ ip ≠ 0 ∧
          out.users = s.setUser id { s.users id with
            enabledDirs := UserImpl.dirsFromBits dirs
            authorizedBy := insert auth (s.users id).authorizedBy }) ∨
        ((s.users id).authorizedBy = ∅ ∧ ip ≠ 0 ∧ s.ipIndex ip = none ∧
          s.loginIndex login = some id ∧
          out.users = { s.setUser id { s.users id with
            enabledDirs := UserImpl.dirsFromBits dirs
            currIP := ip
            lastIPForDisconnect := ip
            authorizedModificationTime := env.stgTime
            authorizedBy := insert auth (s.users id).authorizedBy } with
            ipIndex := Function.update s.ipIndex ip (some id) })) := by
  unfold authorize at h
  cases hl : s.loginIndex login with
  | none =>
    simp only [hl, Option.some.injEq] at h
    subst h
    exact .inl rfl
  | some id =>
    cases hip : s.ipIndex ip with
    | some holder =>
      simp only [hl, hip] at h
      split_ifs at h with hlogin
      · obtain rfl := Option.some.inj h
        exact .inl rfl
      · obtain rfl := Option.some.inj h
        refine .inr ⟨holder, .inl ⟨rfl, not_not.1 hlogin⟩, ?_⟩
        rcases (s.users holder).authorize_cases env s.ipIndex holder ip dirs auth with
          ⟨-, hr⟩ | ⟨-, d, e, hr⟩ | ⟨hauth, hne, hby, hcurr, -, hr⟩ | ⟨-, -, hfree, -⟩
        · exact .inl ⟨(s.users holder).enabledDirs, (s.users holder).errorStr,
            by simp only [authorizeUser, hr]⟩
        · exact .inl ⟨d, e, by simp only [authorizeUser, hr]⟩
        · exact .inr (.inl ⟨hauth, hby, hcurr, hne, by simp only [authorizeUser, hr]⟩)
        · rw [hip] at hfree
          cases hfree
    | none =>
      refine .inr ⟨id, .inr ⟨rfl, rfl⟩, ?_⟩
      simp only [hl, hip] at h
      -- the user is in the index while it is authorized
      have hself : (s.users id).authorizedBy ≠ ∅ → s.ipIndex (s.users id).currIP = some id :=
        fun hby => (hp.indexed.index_iff _ _).2 ⟨hby, rfl⟩
      rcases (s.users id).authorize_cases env s.ipIndex id ip dirs auth with
        ⟨hauth, hr⟩ | ⟨-, d, e, hr⟩ | ⟨-, -, hby, hcurr, -, -⟩ | ⟨hby, hne, -, -, hr⟩
      · have hby : (s.users id).authorizedBy ≠ ∅ := Finset.ne_empty_of_mem hauth
        have hne : (s.users id).currIP ≠ 0 := fun hc => hby ((hp.currIP_eq_zero id).1 hc)
        simp only [authorizeUser, hr, Bool.true_eq_false, if_false, addToIPIdx, setUser_self,
          if_neg hne, setUser_ipIndex, hself hby, Option.isSome_some, if_true, Option.map_none,
          reduceCtorEq] at h
      · simp only [authorizeUser, hr, if_true, Option.some.injEq] at h
        subst h
        exact .inl ⟨d, e, rfl⟩
      · have hheld := hself hby
        rw [hcurr, hip] at hheld
        cases hheld
      · simp only [authorizeUser, hr, Bool.true_eq_false, if_false, addToIPIdx, setUser_self,
          if_neg hne, setUser_ipIndex, hip, Option.isSome_none, Bool.false_eq_true,
          Option.map_some, Option.some.injEq, if_true] at h
        subst h
        exact .inr (.inr ⟨hby, hne, rfl, rfl, rfl⟩)

/-- A user without an authorizer is given one and an address nobody has. -/
theorem Spares.gains {u : UserImpl} (h : s.Placed) (hby : (s.users id).authorizedBy = ∅)
    (hip : s.ipIndex ip = none) (hne : ip ≠ 0) (hfound : s.loginIndex login = some id)
    (hlogin : u.login = (s.users id).login) (hips : u.ips = (s.users id).ips)
    (hcurr : u.currIP = ip) (hafter : u.authorizedBy = {auth}) :
    Spares auth s { s.setUser id u with ipIndex := Function.update s.ipIndex ip (some id) } where
  loginIndex := rfl
  login := setUser_login hlogin
  ips j := by
    by_cases hj : j = id
    · subst hj
      simpa [UsersImpl.setUser] using hips
    · simp [UsersImpl.setUser, hj]
  others a ha j := by
    by_cases hj : j = id
    · subst hj
      simp [UsersImpl.setUser, hafter, hby, ha]
    · simp [UsersImpl.setUser, hj]
  currIP a _ j hj := by
    by_cases hji : j = id
    · subst hji
      simp [hby] at hj
    · simp [UsersImpl.setUser, hji]
  placed := by
    refine ⟨fun j => ?_, Indexed.of_iff fun ip' j => ?_⟩
    · by_cases hj : j = id
      · subst hj
        simpa [UsersImpl.setUser, hcurr, hafter] using hne
      · simpa [UsersImpl.setUser, hj] using h.currIP_eq_zero j
    · by_cases hj : j = id
      · subst hj
        by_cases hip' : ip' = ip
        · simp [UsersImpl.setUser, hip', hcurr, hafter]
        · have hnot : s.ipIndex ip' ≠ some j := by simp [h.indexed.index_iff, hby]
          simp [UsersImpl.setUser, hip', hcurr, hnot, Ne.symm hip']
      · by_cases hip' : ip' = ip
        · have hnot := (h.indexed.index_iff ip j).not.1 (by simp [hip])
          simp only [UsersImpl.setUser, hip', Function.update_self, Option.some.injEq,
            Function.update_of_ne hj, Ne.symm hj, false_iff]
          exact hnot
        · simp [UsersImpl.setUser, hip', hj, h.indexed.index_iff]
  unfound j hj hnot := by
    by_cases hji : j = id
    · exact absurd hfound (hji ▸ hnot login)
    · simp [UsersImpl.setUser, hji, hj]

/-- **`Authorize` spares the others**, and whoever it authorizes is a user with the login, at the
address. -/
theorem authorize_spares (hp : s.Placed) (h : s.authorize env login ip dirs auth = some out) :
    Spares auth s out.users ∧
    ∀ j, auth ∈ (out.users.users j).authorizedBy →
      (auth ∈ (s.users j).authorizedBy ∧ (out.users.users j).currIP = (s.users j).currIP) ∨
      ((s.ipIndex ip = some j ∧ (s.users j).login = login ∨ s.loginIndex login = some j) ∧
        (out.users.users j).currIP = ip) := by
  rcases authorize_result hp h with heq | ⟨id, hwho, ⟨d, e, heq⟩ | ⟨-, hby, hcurr, -, heq⟩ |
    ⟨hby, hne, hip, hfound, heq⟩⟩
  · rw [heq]
    exact ⟨.refl auth hp, fun j hj => .inl ⟨hj, rfl⟩⟩
  · rw [heq]
    refine ⟨.setUser hp rfl rfl rfl (fun _ _ => Iff.rfl) Iff.rfl, fun j hj => .inl ?_⟩
    by_cases hji : j = id
    · subst hji
      rw [setUser_self] at hj ⊢
      exact ⟨hj, rfl⟩
    · rw [setUser_of_ne _ _ hji] at hj ⊢
      exact ⟨hj, rfl⟩
  · rw [heq]
    refine ⟨.setUser hp rfl rfl rfl (fun a ha => by simp [ha]) (by simp [hby]), fun j hj => ?_⟩
    by_cases hji : j = id
    · subst hji
      rw [setUser_self]
      exact .inr ⟨hwho.imp_right And.right, hcurr⟩
    · rw [setUser_of_ne _ _ hji] at hj ⊢
      exact .inl ⟨hj, rfl⟩
  · rw [heq]
    refine ⟨.gains hp hby hip hne hfound rfl rfl rfl (by simp [hby]), fun j hj => ?_⟩
    by_cases hji : j = id
    · subst hji
      exact .inr ⟨.inr hfound, by simp [UsersImpl.setUser]⟩
    · simp only [UsersImpl.setUser, Function.update_of_ne hji] at hj ⊢
      exact .inl ⟨hj, trivial⟩

/-- The last authorizer of a user leaves. -/
theorem Spares.loses {u : UserImpl} (h : s.Placed) (hby : (s.users id).authorizedBy = {auth})
    (hlogin : u.login = (s.users id).login) (hips : u.ips = (s.users id).ips)
    (hcurr : u.currIP = 0) (hafter : u.authorizedBy = ∅) :
    Spares auth s { s.setUser id u with
      ipIndex := Function.update s.ipIndex (s.users id).currIP none } where
  loginIndex := rfl
  login := setUser_login hlogin
  ips j := by
    by_cases hj : j = id
    · subst hj
      simpa [UsersImpl.setUser] using hips
    · simp [UsersImpl.setUser, hj]
  others a ha j := by
    by_cases hj : j = id
    · subst hj
      simp [UsersImpl.setUser, hafter, hby, ha]
    · simp [UsersImpl.setUser, hj]
  currIP a ha j hj := by
    by_cases hji : j = id
    · subst hji
      simp [hby, ha] at hj
    · simp [UsersImpl.setUser, hji]
  placed := by
    have hself : s.ipIndex (s.users id).currIP = some id :=
      (h.indexed.index_iff _ _).2 ⟨by simp [hby], rfl⟩
    refine ⟨fun j => ?_, Indexed.of_iff fun ip' j => ?_⟩
    · by_cases hj : j = id
      · subst hj
        simp [UsersImpl.setUser, hcurr, hafter]
      · simpa [UsersImpl.setUser, hj] using h.currIP_eq_zero j
    · by_cases hj : j = id
      · subst hj
        by_cases hip' : ip' = (s.users j).currIP
        · simp [UsersImpl.setUser, hip', hafter]
        · have hnot : s.ipIndex ip' ≠ some j := fun hc =>
            hip' (((h.indexed.index_iff _ _).1 hc).2.symm)
          simp [UsersImpl.setUser, hip', hafter, hnot]
      · by_cases hip' : ip' = (s.users id).currIP
        · have hnot := (h.indexed.index_iff (s.users id).currIP j).not.1
            (by simpa [hself] using Ne.symm hj)
          simp only [UsersImpl.setUser, hip', Function.update_self, reduceCtorEq,
            Function.update_of_ne hj, false_iff]
          exact hnot
        · simp [UsersImpl.setUser, hip', hj, h.indexed.index_iff]
  unfound j hj _ := by
    by_cases hji : j = id
    · subst hji
      simp [UsersImpl.setUser, hafter]
    · simp [UsersImpl.setUser, hji, hj]

/-- **What `Unauthorize` can do** for a user that is found and authorized: an authorizer that did not
authorize it changes nothing, one of several leaves, or the last one leaves. -/
theorem unauthorize_result (hp : s.Placed) (hl : s.loginIndex login = some id)
    (h : s.unauthorize env login auth reason = some out) :
    (auth ∉ (s.users id).authorizedBy ∧ out.users = s) ∨
    (∃ u : UserImpl, u.login = (s.users id).login ∧ u.ips = (s.users id).ips ∧
      u.currIP = (s.users id).currIP ∧ u.authorizedBy = (s.users id).authorizedBy.erase auth ∧
      u.authorizedBy ≠ ∅ ∧ auth ∈ (s.users id).authorizedBy ∧ out.users = s.setUser id u) ∨
    ∃ u : UserImpl, u.login = (s.users id).login ∧ u.ips = (s.users id).ips ∧ u.currIP = 0 ∧
      u.authorizedBy = ∅ ∧ (s.users id).authorizedBy = {auth} ∧
      out.users = { s.setUser id u with
        ipIndex := Function.update s.ipIndex (s.users id).currIP none } := by
  unfold unauthorize at h
  simp only [hl] at h
  rcases (s.users id).unauthorize_cases env auth reason with
    ⟨hauth, hr⟩ | ⟨hauth, he, hr⟩ | ⟨hauth, he, hr⟩
  · refine .inl ⟨hauth, ?_⟩
    have hsame : s.setUser id (s.users id) = s := by simp [UsersImpl.setUser]
    simp only [hr, hsame] at h
    split_ifs at h with hby
    · simp [delFromIPIdx, (hp.currIP_eq_zero id).2 hby] at h
    · rw [← Option.some.inj h]
  · simp only [hr, if_neg he, Option.some.injEq] at h
    subst h
    exact .inr (.inl ⟨{ s.users id with
      authorizedBy := (s.users id).authorizedBy.erase auth
      authorizedModificationTime := env.stgTime }, rfl, rfl, rfl, rfl, he, hauth, rfl⟩)
  · have hne : (s.users id).currIP ≠ 0 := fun hc =>
      Finset.ne_empty_of_mem hauth ((hp.currIP_eq_zero id).1 hc)
    have hby : (s.users id).authorizedBy = {auth} :=
      Finset.Subset.antisymm (fun a ha => by_contra fun hc =>
        Finset.notMem_empty a (he ▸ Finset.mem_erase.2 ⟨by simpa using hc, ha⟩))
        (by simpa using hauth)
    have hafter : ((s.users id).unauthorize env auth reason).user.authorizedBy = ∅ := by
      rw [hr]
      split_ifs <;> simp
    simp only [hafter, if_true, delFromIPIdx, if_neg hne, Option.map_some, Option.some.injEq] at h
    subst h
    refine .inr (.inr ⟨_, ?_, ?_, ?_, hafter, hby, rfl⟩)
    · rw [hr]
      split_ifs <;> simp
    · rw [hr]
      split_ifs <;> simp
    · rw [hr]
      split_ifs <;> simp

/-- **`Unauthorize` spares the others**: it touches nobody but the user with the login, and that one
is not authorized by the authorizer afterwards. -/
theorem unauthorize_spares (hp : s.Placed) (h : s.unauthorize env login auth reason = some out) :
    Spares auth s out.users ∧
    (∀ j, s.loginIndex login ≠ some j → out.users.users j = s.users j) ∧
    ∀ id, s.loginIndex login = some id → auth ∉ (out.users.users id).authorizedBy := by
  cases hl : s.loginIndex login with
  | none =>
    simp only [unauthorize, hl, Option.some.injEq] at h
    subst h
    exact ⟨.refl auth hp, fun j _ => rfl, by simp⟩
  | some id =>
    have hother : ∀ {j}, some id ≠ some j → j ≠ id := fun hj hc => hj (congrArg some hc.symm)
    rcases unauthorize_result hp hl h with ⟨hauth, heq⟩ |
      ⟨u, hlogin, hips, hcurr, hby, hne, hauth, heq⟩ | ⟨u, hlogin, hips, hcurr, hafter, hby, heq⟩
    · rw [heq]
      exact ⟨.refl auth hp, fun j _ => rfl, by simpa using hauth⟩
    · rw [heq]
      refine ⟨.setUser hp hlogin hips hcurr (fun a ha => by simp [hby, ha])
        (by simp [hne, Finset.ne_empty_of_mem hauth]), fun j hj => ?_, fun j hj => ?_⟩
      · exact setUser_of_ne _ _ (hother hj)
      · obtain rfl := Option.some.inj hj
        simp [hby]
    · rw [heq]
      refine ⟨.loses hp hby hlogin hips hcurr hafter, fun j hj => ?_, fun j hj => ?_⟩
      · exact setUser_of_ne _ _ (hother hj)
      · obtain rfl := Option.some.inj hj
        simp [UsersImpl.setUser, hafter]

/-- An authorizer that authorized the user can leave. -/
theorem unauthorize_returns (hp : s.Placed) (hl : s.loginIndex login = some id)
    (hauth : auth ∈ (s.users id).authorizedBy) :
    ∃ out, s.unauthorize env login auth reason = some out := by
  have hne : (s.users id).currIP ≠ 0 := fun hc =>
    Finset.ne_empty_of_mem hauth ((hp.currIP_eq_zero id).1 hc)
  unfold unauthorize
  simp only [hl, delFromIPIdx, if_neg hne]
  split_ifs
  · exact ⟨_, rfl⟩
  · exact ⟨_, rfl⟩

/-- A new authorizer is accepted or refused, and no assertion fails. -/
theorem authorize_returns (hl : s.loginIndex login = some id)
    (hauth : auth ∉ (s.users id).authorizedBy) :
    ∃ out, s.authorize env login ip dirs auth = some out := by
  unfold authorize
  simp only [hl]
  cases hip : s.ipIndex ip with
  | some holder =>
    simp only
    split_ifs
    · exact ⟨_, rfl⟩
    · exact ⟨_, rfl⟩
  | none =>
    simp only
    rcases (s.users id).authorize_cases env s.ipIndex id ip dirs auth with
      ⟨hin, -⟩ | ⟨-, d, e, hr⟩ | ⟨-, hne, -, hcurr, -, hr⟩ | ⟨-, hne, -, -, hr⟩
    · exact absurd hin hauth
    · exact ⟨_, by simp only [authorizeUser, hr, if_true]; rfl⟩
    · exact ⟨_, by simp only [authorizeUser, hr, Bool.true_eq_false, if_false, addToIPIdx,
        setUser_self, hcurr, if_neg hne, setUser_ipIndex, hip, Option.isSome_none,
        Bool.false_eq_true, Option.map_some]; rfl⟩
    · exact ⟨_, by simp only [authorizeUser, hr, Bool.true_eq_false, if_false, addToIPIdx,
        setUser_self, if_neg hne, setUser_ipIndex, hip, Option.isSome_none,
        Bool.false_eq_true, Option.map_some]; rfl⟩

/-- **A new authorizer is accepted** at an address that is the user's, that no other user has, and
that is the one the user is authorized at if it is authorized. -/
theorem authorize_succeeds (hp : s.Placed) (hl : s.loginIndex login = some id)
    (hlogin : (s.users id).login = login) (hauth : auth ∉ (s.users id).authorizedBy) (hne : ip ≠ 0)
    (hfind : (s.users id).ips.find env.shifted ip = true) (hfree : s.ipIndex ip = none ∨ s.ipIndex ip = some id)
    (hcurr : (s.users id).authorizedBy = ∅ ∨ (s.users id).currIP = ip)
    (h : s.authorize env login ip dirs auth = some out) :
    auth ∈ (out.users.users id).authorizedBy := by
  by_cases hby : (s.users id).authorizedBy = ∅
  · have hnone : s.ipIndex ip = none := hfree.resolve_right fun hc =>
      ((hp.indexed.index_iff _ _).1 hc).1 hby
    have hr : (s.users id).authorize env s.ipIndex id ip dirs auth =
        ⟨{ s.users id with
          enabledDirs := UserImpl.dirsFromBits dirs
          currIP := ip
          lastIPForDisconnect := ip
          authorizedModificationTime := env.stgTime
          authorizedBy := insert auth (s.users id).authorizedBy }, true, true⟩ := by
      simpa [UserImpl.authorize, hauth, hby, hnone, hfind] using hne
    simp only [authorize, hl, hnone, authorizeUser, hr, Bool.true_eq_false, if_false, addToIPIdx,
      setUser_self, if_neg hne, setUser_ipIndex, Option.isSome_none, Bool.false_eq_true,
      Option.map_some, Option.some.injEq] at h
    subst h
    simp [UsersImpl.setUser]
  · have hip : (s.users id).currIP = ip := hcurr.resolve_left hby
    have hsome : s.ipIndex ip = some id := (hp.indexed.index_iff _ _).2 ⟨hby, hip⟩
    have hr : (s.users id).authorize env s.ipIndex id ip dirs auth =
        ⟨{ s.users id with
          enabledDirs := UserImpl.dirsFromBits dirs
          authorizedBy := insert auth (s.users id).authorizedBy }, true, false⟩ := by
      simpa [UserImpl.authorize, hauth, hby, hip, hsome] using hne
    simp only [authorize, hl, hsome, hlogin, ne_eq, not_true_eq_false, if_false, authorizeUser, hr,
      Option.some.injEq] at h
    subst h
    simp

end Calls

end UsersImpl

end Stargazer
