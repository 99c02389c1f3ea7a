import Stargazer.Lib.Run
import Stargazer.Users.UsersImpl

set_option relaxedAutoImplicit false
set_option autoImplicit false

/-!
# Deletion of users

A user is deleted in three stages.  `UsersImpl::Del` marks it in one critical section and puts it
into `usersToDelete` and out of `loginIndex` in another; `RealDelUser` erases it from the list of
users some time later.  Four structures hold iterators to users: the two indexes, `usersToDelete`
and the descriptors of searches.

A user is identified with its node of the list, and a node that was erased is never used again, so
an iterator dangles if its node is not in the list any more.  `RealDelUser` looks at none of the
other structures: a descriptor may still denote the user, the user may still be authorized and so
be in `ipIndex`, and two calls of `Del` that overlap put it into `usersToDelete` twice.

## Main definitions

* `Stargazer.UsersList` — the list of users and everything that refers to it.
* `Stargazer.UsersList.step` — the operations, `Del` in two parts.
* `Stargazer.UsersList.Sound` — no iterator dangles, and deleted users are erased once.
* `Stargazer.UsersList.Guard` — the steps that are harmless.
* `Stargazer.UsersList.Invariant` — what they keep.

## Main results

* `Stargazer.UsersList.realDelUser_eq` — what `RealDelUser` does.
* `Stargazer.UsersList.Invariant.step` — one step.
* `Stargazer.users_sound` — every run of harmless steps.
-/

namespace Stargazer

namespace UsersImpl

variable {s : UsersImpl} {env : Env} {login : String} {ip : IP} {dirs : BitVec 32} {auth : AuthId}
  {reason : String} {out : Outcome}

/-- A user stored in the place of one with the same login leaves all logins as they are. -/
theorem setUser_login {id : UserId} {u : UserImpl} (hu : u.login = (s.users id).login)
    (j : UserId) : ((s.setUser id u).users j).login = (s.users j).login := by
  by_cases hj : j = id
  · subst hj
    rw [setUser_self, hu]
  · rw [setUser_of_ne s u hj]

/-- `Authorize` leaves the logins as they are, and adds nobody but the user with the login to the
index of addresses. -/
theorem authorize_frame (h : s.authorize env login ip dirs auth = some out) :
    out.users.loginIndex = s.loginIndex ∧
      (∀ ip' id, out.users.ipIndex ip' = some id → s.ipIndex ip' = some id ∨
        s.loginIndex login = some id) ∧
      ∀ id, (out.users.users id).login = (s.users id).login := by
  have hlogin : ∀ id, ((s.users id).authorize env s.ipIndex id ip dirs auth).user.login =
      (s.users id).login := by
    intro id
    simp only [UserImpl.authorize]
    split_ifs <;> rfl
  unfold UsersImpl.authorize at h
  cases hl : s.loginIndex login with
  | none =>
    simp only [hl, Option.some.injEq] at h
    subst h
    exact ⟨rfl, fun _ _ hip => .inl hip, fun _ => rfl⟩
  | some u =>
    cases hip : s.ipIndex ip with
    | some holder =>
      simp only [hl, hip] at h
      split_ifs at h
      · obtain rfl := Option.some.inj h
        exact ⟨rfl, fun _ _ hip => .inl hip, fun _ => rfl⟩
      · obtain rfl := Option.some.inj h
        exact ⟨rfl, fun _ _ hip => .inl hip, setUser_login (hlogin holder)⟩
    | none =>
      simp only [hl, hip] at h
      split_ifs at h
      · obtain rfl := Option.some.inj h
        exact ⟨rfl, fun _ _ hip => .inl hip, setUser_login (hlogin u)⟩
      · obtain ⟨s', hs', rfl⟩ := Option.map_eq_some_iff.mp h
        simp only [addToIPIdx] at hs'
        split_ifs at hs'
        · obtain rfl := Option.some.inj hs'
          exact ⟨rfl, fun _ _ hip => .inl hip, setUser_login (hlogin u)⟩
        · obtain rfl := Option.some.inj hs'
          refine ⟨rfl, fun ip' id hid => ?_, setUser_login (hlogin u)⟩
          simp only [Function.update_apply] at hid
          split_ifs at hid
          · exact .inr hid
          · exact .inl hid

/-- `Unauthorize` leaves the logins as they are, and adds nobody to the index of addresses. -/
theorem unauthorize_frame (h : s.unauthorize env login auth reason = some out) :
    out.users.loginIndex = s.loginIndex ∧
      (∀ ip' id, out.users.ipIndex ip' = some id → s.ipIndex ip' = some id) ∧
      ∀ id, (out.users.users id).login = (s.users id).login := by
  have hlogin : ∀ id, ((s.users id).unauthorize env auth reason).user.login =
      (s.users id).login := by
    intro id
    simp only [UserImpl.unauthorize]
    split_ifs <;> simp
  unfold UsersImpl.unauthorize at h
  cases hl : s.loginIndex login with
  | none =>
    simp only [hl, Option.some.injEq] at h
    subst h
    exact ⟨rfl, fun _ _ hip => hip, fun _ => rfl⟩
  | some u =>
    simp only [hl] at h
    split_ifs at h
    · obtain ⟨s', hs', rfl⟩ := Option.map_eq_some_iff.mp h
      unfold delFromIPIdx at hs'
      split_ifs at hs'
      obtain rfl := Option.some.inj hs'
      refine ⟨rfl, fun ip' id hid => ?_, setUser_login (hlogin u)⟩
      simp only [Function.update_apply] at hid
      split_ifs at hid
      exact hid
    · obtain rfl := Option.some.inj h
      exact ⟨rfl, fun _ _ hip => hip, setUser_login (hlogin u)⟩

end UsersImpl

/-- `userDeleteDelayTime`, in seconds. -/
def userDeleteDelayTime : Time := 120

/-- `USER_TO_DEL`. -/
structure UserToDel where
  /-- The user. -/
  iter : UserId
  /-- When it was deleted. -/
  delTime : Time
  deriving DecidableEq

/-- The test of `RealDelUser`. -/
def UserToDel.Due (now : Time) (e : UserToDel) : Prop := e.delTime + userDeleteDelayTime < now

instance (now : Time) (e : UserToDel) : Decidable (e.Due now) :=
  inferInstanceAs (Decidable (e.delTime + userDeleteDelayTime < now))

/-- The list of users and everything that refers to it. -/
structure UsersList where
  /-- The users by their nodes, and the two indexes. -/
  impl : UsersImpl
  /-- The nodes of `users`. -/
  list : List UserId
  /-- The node that is allocated next. -/
  next : UserId
  /-- `deleted` of the users. -/
  deleted : UserId → Bool := fun _ => false
  /-- `usersToDelete`. -/
  usersToDelete : List UserToDel := []
  /-- `searchDescriptors`; the inner `none` is the end of the list. -/
  searchDescriptors : ℕ → Option (Option UserId) := fun _ => none
  /-- `handle`. -/
  handle : ℕ := 0
  /-- The `u` of the calls of `Del` that are between their critical sections. -/
  pending : List UserId := []
  /-- The users `RealDelUser` has erased, a record the code does not have. -/
  erased : List UserId := []

namespace UsersList

/-- The users in `usersToDelete`. -/
def toDelete (s : UsersList) : List UserId := s.usersToDelete.map UserToDel.iter

/-! ## The operations -/

/-- `UsersImpl::Add`.  `stored` is the result of `AddUser` of the store, `u` the user as it was
built. -/
def add (priv : Priv) (stored : Bool) (u : UserImpl) (s : UsersList) : UsersList :=
  if priv.userAddDel = 0 then s
  else if stored = false then s
  else
    { s with
      impl :=
        { s.impl.setUser s.next u with
          -- `insert` does not replace an entry
          loginIndex :=
            if (s.impl.loginIndex u.login).isSome then s.impl.loginIndex
            else Function.update s.impl.loginIndex u.login (some s.next) }
      list := s.next :: s.list
      deleted := Function.update s.deleted s.next false
      next := s.next + 1 }

/-- `UsersImpl::Del` up to the end of its first critical section. -/
def delMark (priv : Priv) (login : String) (s : UsersList) : UsersList :=
  if priv.userAddDel = 0 then s
  else
    match s.impl.loginIndex login with
    | none => s
    | some id => { s with
        deleted := Function.update s.deleted id true
        pending := id :: s.pending }

/-- The second critical section of `UsersImpl::Del`.  `OnDelete` ends with `Run`. -/
def delFinish (env : Env) (id : UserId) (s : UsersList) : UsersList :=
  { s with
    impl :=
      { s.impl.setUser id ((s.impl.users id).run env) with
        loginIndex := Function.update s.impl.loginIndex (s.impl.users id).login none }
    usersToDelete := s.usersToDelete ++ [⟨id, env.stgTime⟩]
    pending := s.pending.erase id }

/-- The loop of `UsersImpl::RealDelUser`; `kept` are the entries that were passed. -/
def realDelLoop (now : Time) : List UserToDel → List UserToDel → UsersList → UsersList
  | kept, [], s => { s with usersToDelete := kept }
  | kept, e :: es, s =>
    if e.Due now then
      realDelLoop now kept es
        { s with list := s.list.erase e.iter, erased := s.erased ++ [e.iter] }
    else realDelLoop now (kept ++ [e]) es s

/-- `UsersImpl::RealDelUser`. -/
def realDelUser (now : Time) (s : UsersList) : UsersList := realDelLoop now [] s.usersToDelete s

/-- `UsersImpl::OpenSearch`. -/
def openSearch (s : UsersList) : UsersList :=
  { s with
    handle := s.handle + 1
    searchDescriptors := Function.update s.searchDescriptors (s.handle + 1) (some s.list.head?) }

/-- The users from the place of an iterator on. -/
def since (s : UsersList) : Option UserId → List UserId
  | none => []
  | some id => s.list.dropWhile (· ≠ id)

/-- `UsersImpl::SearchNext`: deleted users are skipped. -/
def searchNext (h : ℕ) (s : UsersList) : Option UserId × UsersList :=
  match s.searchDescriptors h with
  | none => (none, s)
  | some it =>
    match (s.since it).dropWhile s.deleted with
    | [] => (none, { s with
        searchDescriptors := Function.update s.searchDescriptors h (some none) })
    | id :: rest => (some id, { s with
        searchDescriptors := Function.update s.searchDescriptors h (some rest.head?) })

/-- `UsersImpl::CloseSearch`. -/
def closeSearch (h : ℕ) (s : UsersList) : UsersList :=
  { s with searchDescriptors := Function.update s.searchDescriptors h none }

/-- What can happen. -/
inductive Action
  /-- `UsersImpl::Add`. -/
  | add (priv : Priv) (stored : Bool) (u : UserImpl)
  /-- `UsersImpl::Del`, first part. -/
  | delMark (priv : Priv) (login : String)
  /-- `UsersImpl::Del`, second part, of a call that is under way. -/
  | delFinish (env : Env) (id : UserId)
  /-- `UsersImpl::RealDelUser`. -/
  | realDelUser (now : Time)
  /-- `UsersImpl::Authorize`. -/
  | authorize (env : Env) (login : String) (ip : IP) (dirs : BitVec 32) (auth : AuthId)
  /-- `UsersImpl::Unauthorize`. -/
  | unauthorize (env : Env) (login : String) (auth : AuthId) (reason : String)
  /-- `UsersImpl::OpenSearch`. -/
  | openSearch
  /-- `UsersImpl::SearchNext`. -/
  | searchNext (h : ℕ)
  /-- `UsersImpl::CloseSearch`. -/
  | closeSearch (h : ℕ)

/-- One step.  A call of `Del` that is not under way cannot be finished; `Authorize` and
`Unauthorize` have no result if an assertion fails. -/
def step (s : UsersList) : Action → Option UsersList
  | .add priv stored u => some (s.add priv stored u)
  | .delMark priv login => some (s.delMark priv login)
  | .delFinish env id => if id ∈ s.pending then some (s.delFinish env id) else none
  | .realDelUser now => some (s.realDelUser now)
  | .authorize env login ip dirs auth =>
    (s.impl.authorize env login ip dirs auth).map fun out => { s with impl := out.users }
  | .unauthorize env login auth reason =>
    (s.impl.unauthorize env login auth reason).map fun out => { s with impl := out.users }
  | .openSearch => some s.openSearch
  | .searchNext h => some (s.searchNext h).2
  | .closeSearch h => some (s.closeSearch h)

/-! ## What is to hold -/

/-- **No dangling users**: the iterators of all structures, and of the calls that are under way,
denote nodes of the list; `RealDelUser` erases nobody but deleted users, a user whose `Del` is over
has been erased once or is in `usersToDelete` once, and `RealDelUser` erases those that are due. -/
structure Sound (s : UsersList) : Prop where
  loginIndex : ∀ login id, s.impl.loginIndex login = some id → id ∈ s.list
  ipIndex : ∀ ip id, s.impl.ipIndex ip = some id → id ∈ s.list
  usersToDelete : ∀ e ∈ s.usersToDelete, e.iter ∈ s.list
  searchDescriptors : ∀ h id, s.searchDescriptors h = some (some id) → id ∈ s.list
  pending : ∀ id ∈ s.pending, id ∈ s.list
  deleted : ∀ id ∈ s.erased, s.deleted id = true
  once : ∀ id, s.deleted id = true → id ∉ s.pending →
    s.erased.count id + s.toDelete.count id = 1
  erases : ∀ now, ∀ e ∈ s.usersToDelete, e.Due now →
    (s.realDelUser now).erased.count e.iter = 1

/-- The server after `ReadUsers`: the users found by login are in the list, and nobody is
authorized, deleted or searched for. -/
structure Initial (s : UsersList) : Prop where
  nodup : s.list.Nodup
  fresh : ∀ id ∈ s.list, id < s.next
  login_eq : ∀ login id, s.impl.loginIndex login = some id → (s.impl.users id).login = login
  loginIndex : ∀ login id, s.impl.loginIndex login = some id → id ∈ s.list
  ipIndex : ∀ ip, s.impl.ipIndex ip = none
  deleted : ∀ id, s.deleted id = false
  usersToDelete : s.usersToDelete = []
  searchDescriptors : ∀ h, s.searchDescriptors h = none
  pending : s.pending = []
  erased : s.erased = []

/-- The steps that are harmless: `Del` is called for a user that is not being deleted already; its
second part finds the user in no address of the index; and the users `RealDelUser` erases are
denoted by no descriptor. -/
def Guard (s : UsersList) : Action → Prop
  | .delMark priv login => priv.userAddDel = 0 ∨
      ∀ id, s.impl.loginIndex login = some id → s.deleted id = false
  | .delFinish _ id => ∀ ip, s.impl.ipIndex ip ≠ some id
  | .realDelUser now => ∀ e ∈ s.usersToDelete, e.Due now →
      ∀ h, s.searchDescriptors h ≠ some (some e.iter)
  | _ => True

/-- What harmless steps keep. -/
structure Invariant (s : UsersList) : Prop where
  nodup : s.list.Nodup
  fresh : ∀ id, s.next ≤ id → id ∉ s.list ∧ id ∉ s.erased
  login_eq : ∀ login id, s.impl.loginIndex login = some id → (s.impl.users id).login = login
  loginIndex : ∀ login id, s.impl.loginIndex login = some id → id ∈ s.list ∧ id ∉ s.toDelete
  ipIndex : ∀ ip id, s.impl.ipIndex ip = some id → id ∈ s.list ∧ id ∉ s.toDelete
  pending : ∀ id ∈ s.pending, id ∈ s.list ∧ id ∉ s.toDelete ∧ s.deleted id = true
  pending_nodup : s.pending.Nodup
  toDelete : ∀ id ∈ s.toDelete, id ∈ s.list ∧ s.deleted id = true
  toDelete_nodup : s.toDelete.Nodup
  searchDescriptors : ∀ h id, s.searchDescriptors h = some (some id) → id ∈ s.list
  erased : ∀ id ∈ s.erased, id ∉ s.list ∧ s.deleted id = true
  erased_nodup : s.erased.Nodup
  deleted : ∀ id, s.deleted id = true → id ∈ s.pending ∨ id ∈ s.toDelete ∨ id ∈ s.erased

theorem Initial.invariant {s : UsersList} (h : s.Initial) : s.Invariant where
  nodup := h.nodup
  fresh id hid := ⟨fun hmem => absurd (h.fresh id hmem) (not_lt.mpr hid), by simp [h.erased]⟩
  login_eq := h.login_eq
  loginIndex login id hl := ⟨h.loginIndex login id hl, by simp [toDelete, h.usersToDelete]⟩
  ipIndex ip id hip := by simp [h.ipIndex] at hip
  pending id hid := by simp [h.pending] at hid
  pending_nodup := by simp [h.pending]
  toDelete id hid := by simp [toDelete, h.usersToDelete] at hid
  toDelete_nodup := by simp [toDelete, h.usersToDelete]
  searchDescriptors h' id hid := by simp [h.searchDescriptors] at hid
  erased id hid := by simp [h.erased] at hid
  erased_nodup := by simp [h.erased]
  deleted id hid := by simp [h.deleted] at hid

/-! ## `RealDelUser` -/

/-- The users of the entries that are due. -/
def due (now : Time) (es : List UserToDel) : List UserId :=
  (es.filter fun e => e.Due now).map UserToDel.iter

/-- The loop erases the users of the entries that are due, and keeps the other entries.

**Proof sketch.** Induction on the entries that are left. -/
theorem realDelLoop_eq (now : Time) (kept es : List UserToDel) (s : UsersList) :
    realDelLoop now kept es s =
      { s with
        list := s.list.diff (due now es)
        usersToDelete := kept ++ es.filter fun e => ¬ e.Due now
        erased := s.erased ++ due now es } := by
  induction es generalizing kept s with
  | nil => simp [realDelLoop, due]
  | cons e es ih =>
    rw [realDelLoop]
    split_ifs with hdue
    · rw [ih]
      simp [due, hdue, List.diff_cons]
    · rw [ih]
      simp [due, hdue]

/-- **What `RealDelUser` does.** -/
theorem realDelUser_eq (now : Time) (s : UsersList) :
    s.realDelUser now =
      { s with
        list := s.list.diff (due now s.usersToDelete)
        usersToDelete := s.usersToDelete.filter fun e => ¬ e.Due now
        erased := s.erased ++ due now s.usersToDelete } := by
  simp [realDelUser, realDelLoop_eq]

theorem mem_due {now : Time} {es : List UserToDel} {id : UserId} :
    id ∈ due now es ↔ ∃ e ∈ es, e.Due now ∧ e.iter = id := by
  simp [due, and_assoc]

/-- The users that are due are users to delete. -/
theorem due_sublist (now : Time) (s : UsersList) :
    (due now s.usersToDelete).Sublist s.toDelete :=
  List.filter_sublist.map _

/-! ## Soundness -/

/-- The invariant says that nothing dangles. -/
theorem Invariant.sound {s : UsersList} (h : s.Invariant) : s.Sound := by
  have htoDelete : ∀ {e}, e ∈ s.usersToDelete → e.iter ∈ s.toDelete :=
    fun he => List.mem_map_of_mem he
  have hgone : ∀ {id}, id ∈ s.toDelete → id ∉ s.erased :=
    fun hid hid' => (h.erased _ hid').1 (h.toDelete _ hid).1
  refine ⟨fun login id hl => (h.loginIndex login id hl).1, fun ip id hip => (h.ipIndex ip id hip).1,
    fun e he => (h.toDelete _ (htoDelete he)).1, h.searchDescriptors,
    fun id hid => (h.pending id hid).1, fun id hid => (h.erased id hid).2, ?_, ?_⟩
  · intro id hdel hpend
    rcases h.deleted id hdel with hid | hid | hid
    · exact absurd hid hpend
    · rw [List.count_eq_zero_of_not_mem (hgone hid), List.count_eq_one_of_mem h.toDelete_nodup hid]
    · have hnot : id ∉ s.toDelete := fun hid' => hgone hid' hid
      rw [List.count_eq_zero_of_not_mem hnot, List.count_eq_one_of_mem h.erased_nodup hid]
  · intro now e he hdue
    have hmem : e.iter ∈ due now s.usersToDelete := mem_due.mpr ⟨e, he, hdue, rfl⟩
    rw [realDelUser_eq, List.count_append, List.count_eq_zero_of_not_mem (hgone (htoDelete he)),
      List.count_eq_one_of_mem (h.toDelete_nodup.sublist (due_sublist now s)) hmem]

/-! ## One step -/

section Step

variable {s : UsersList}

/-- A new user is in none of the structures, and nothing that refers to other users changes. -/
theorem Invariant.add (h : s.Invariant) (priv : Priv) (stored : Bool) (u : UserImpl) :
    (s.add priv stored u).Invariant := by
  unfold UsersList.add
  split_ifs with hpriv hstored hindexed
  · exact h
  · exact h
  all_goals
    have hnew := h.fresh s.next le_rfl
    have hne : ∀ {id}, id ∈ s.list → id ≠ s.next := fun hid hc => hnew.1 (hc ▸ hid)
    have hold : ∀ {id}, id ∈ s.list →
        Function.update s.deleted s.next false id = s.deleted id :=
      fun hid => Function.update_of_ne (hne hid) _ _
    have hnot : s.next ∉ s.toDelete := fun hid => hnew.1 (h.toDelete _ hid).1
    have hfresh : ∀ id, s.next + 1 ≤ id → id ∉ s.next :: s.list ∧ id ∉ s.erased := by
      intro id hid
      have hid' := h.fresh id (Nat.le_of_succ_le hid)
      refine ⟨?_, hid'.2⟩
      rw [List.mem_cons, not_or]
      exact ⟨Nat.ne_of_gt hid, hid'.1⟩
    have hdeleted : ∀ id, Function.update s.deleted s.next false id = true →
        id ∈ s.pending ∨ id ∈ s.toDelete ∨ id ∈ s.erased := by
      intro id hid
      by_cases hc : id = s.next
      · subst hc
        simp at hid
      · rw [Function.update_of_ne hc] at hid
        exact h.deleted id hid
    have herased : ∀ id ∈ s.erased, id ∉ s.next :: s.list ∧
        Function.update s.deleted s.next false id = true := by
      intro id hid
      have hc : id ≠ s.next := fun hc => hnew.2 (hc ▸ hid)
      rw [Function.update_of_ne hc, List.mem_cons, not_or]
      exact ⟨⟨hc, (h.erased id hid).1⟩, (h.erased id hid).2⟩
    refine ⟨List.nodup_cons.mpr ⟨hnew.1, h.nodup⟩, hfresh, ?_, ?_,
      fun ip id hip => ⟨List.mem_cons_of_mem _ (h.ipIndex ip id hip).1, (h.ipIndex ip id hip).2⟩,
      fun id hid => ⟨List.mem_cons_of_mem _ (h.pending id hid).1, (h.pending id hid).2.1,
        (hold (h.pending id hid).1).trans (h.pending id hid).2.2⟩, h.pending_nodup,
      fun id hid => ⟨List.mem_cons_of_mem _ (h.toDelete id hid).1,
        (hold (h.toDelete id hid).1).trans (h.toDelete id hid).2⟩, h.toDelete_nodup,
      fun h' id hid => List.mem_cons_of_mem _ (h.searchDescriptors h' id hid), herased,
      h.erased_nodup, hdeleted⟩
  -- the login was in the index
  · intro login id hl
    change (Function.update s.impl.users s.next u id).login = login
    rw [Function.update_of_ne (hne (h.loginIndex login id hl).1)]
    exact h.login_eq login id hl
  · intro login id hl
    exact ⟨List.mem_cons_of_mem _ (h.loginIndex login id hl).1, (h.loginIndex login id hl).2⟩
  -- the login was not in the index
  · intro login id hl
    change Function.update s.impl.loginIndex u.login (some s.next) login = some id at hl
    change (Function.update s.impl.users s.next u id).login = login
    by_cases hlogin : login = u.login
    · subst hlogin
      rw [Function.update_self] at hl
      obtain rfl := Option.some.inj hl
      rw [Function.update_self]
    · rw [Function.update_of_ne hlogin] at hl
      rw [Function.update_of_ne (hne (h.loginIndex login id hl).1)]
      exact h.login_eq login id hl
  · intro login id hl
    change Function.update s.impl.loginIndex u.login (some s.next) login = some id at hl
    by_cases hlogin : login = u.login
    · subst hlogin
      rw [Function.update_self] at hl
      obtain rfl := Option.some.inj hl
      exact ⟨List.mem_cons_self, hnot⟩
    · rw [Function.update_of_ne hlogin] at hl
      exact ⟨List.mem_cons_of_mem _ (h.loginIndex login id hl).1, (h.loginIndex login id hl).2⟩

/-- A user that is not being deleted is neither in `usersToDelete` nor in the hands of another call
of `Del`. -/
theorem Invariant.delMark (h : s.Invariant) {priv : Priv} {login : String}
    (hg : priv.userAddDel = 0 ∨ ∀ id, s.impl.loginIndex login = some id → s.deleted id = false) :
    (s.delMark priv login).Invariant := by
  unfold UsersList.delMark
  split_ifs with hpriv
  · exact h
  · cases hl : s.impl.loginIndex login with
    | none => exact h
    | some u =>
      have hu : s.deleted u = false := hg.resolve_left hpriv u hl
      have hkeep : ∀ {id}, s.deleted id = true → Function.update s.deleted u true id = true := by
        intro id hid
        by_cases hc : id = u
        · subst hc
          exact Function.update_self _ _ _
        · rwa [Function.update_of_ne hc]
      have hpending : u ∉ s.pending := fun hid => by simp [(h.pending u hid).2.2] at hu
      refine { h with
        pending := ?_
        pending_nodup := List.nodup_cons.mpr ⟨hpending, h.pending_nodup⟩
        toDelete := fun id hid => ⟨(h.toDelete id hid).1, hkeep (h.toDelete id hid).2⟩
        erased := fun id hid => ⟨(h.erased id hid).1, hkeep (h.erased id hid).2⟩
        deleted := ?_ }
      · intro id hid
        rcases List.mem_cons.mp hid with rfl | hid
        · exact ⟨(h.loginIndex login id hl).1, (h.loginIndex login id hl).2,
            Function.update_self _ _ _⟩
        · exact ⟨(h.pending id hid).1, (h.pending id hid).2.1, hkeep (h.pending id hid).2.2⟩
      · intro id hid
        by_cases hc : id = u
        · exact .inl (hc ▸ List.mem_cons_self)
        · change Function.update s.deleted u true id = true at hid
          rw [Function.update_of_ne hc] at hid
          exact (h.deleted id hid).imp_left (List.mem_cons_of_mem _)

/-- The second part of `Del` moves the user to `usersToDelete`.  It was in the index of logins under
its own login only. -/
theorem Invariant.delFinish (h : s.Invariant) {env : Env} {u : UserId} (hu : u ∈ s.pending)
    (hg : ∀ ip, s.impl.ipIndex ip ≠ some u) : (s.delFinish env u).Invariant := by
  obtain ⟨hlist, htoDelete, hdel⟩ := h.pending u hu
  have hmem : ∀ {id}, id ∈ (s.delFinish env u).toDelete ↔ id ∈ s.toDelete ∨ id = u := by
    simp [UsersList.delFinish, UsersList.toDelete]
  have hpending : ∀ {id}, id ∈ s.pending.erase u ↔ id ≠ u ∧ id ∈ s.pending :=
    h.pending_nodup.mem_erase_iff
  have hlogin : ∀ {login id}, (s.delFinish env u).impl.loginIndex login = some id →
      s.impl.loginIndex login = some id ∧ id ≠ u := by
    intro login id hl
    change Function.update s.impl.loginIndex (s.impl.users u).login none login = some id at hl
    by_cases hlogin : login = (s.impl.users u).login
    · subst hlogin
      simp at hl
    · rw [Function.update_of_ne hlogin] at hl
      refine ⟨hl, fun hc => hlogin ?_⟩
      rw [← hc, h.login_eq login id hl]
  refine { h with
    login_eq := ?_
    loginIndex := ?_
    ipIndex := ?_
    pending := ?_
    pending_nodup := h.pending_nodup.erase u
    toDelete := ?_
    toDelete_nodup := ?_
    deleted := ?_ }
  · intro login id hl
    change (Function.update s.impl.users u _ id).login = login
    rw [Function.update_of_ne (hlogin hl).2]
    exact h.login_eq login id (hlogin hl).1
  · intro login id hl
    rw [hmem, not_or]
    exact ⟨(h.loginIndex login id (hlogin hl).1).1, (h.loginIndex login id (hlogin hl).1).2,
      (hlogin hl).2⟩
  · intro ip id hip
    rw [hmem, not_or]
    exact ⟨(h.ipIndex ip id hip).1, (h.ipIndex ip id hip).2, fun hc => hg ip (hc ▸ hip)⟩
  · intro id hid
    obtain ⟨hne, hid⟩ := hpending.mp hid
    rw [hmem, not_or]
    exact ⟨(h.pending id hid).1, ⟨(h.pending id hid).2.1, hne⟩, (h.pending id hid).2.2⟩
  · intro id hid
    rcases hmem.mp hid with hid | rfl
    · exact h.toDelete id hid
    · exact ⟨hlist, hdel⟩
  · have happend : (s.delFinish env u).toDelete = s.toDelete ++ [u] := by
      simp [UsersList.delFinish, UsersList.toDelete]
    rw [happend]
    exact h.toDelete_nodup.append (List.nodup_singleton u) (by simpa using htoDelete)
  · intro id hid
    by_cases hc : id = u
    · exact .inr (.inl (hmem.mpr (.inr hc)))
    · rcases h.deleted id hid with hid | hid | hid
      · exact .inl (hpending.mpr ⟨hc, hid⟩)
      · exact .inr (.inl (hmem.mpr (.inl hid)))
      · exact .inr (.inr hid)

/-- `RealDelUser` erases users that are in `usersToDelete` and nowhere else. -/
theorem Invariant.realDelUser (h : s.Invariant) {now : Time}
    (hg : ∀ e ∈ s.usersToDelete, e.Due now → ∀ h', s.searchDescriptors h' ≠ some (some e.iter)) :
    (s.realDelUser now).Invariant := by
  have hdue : ∀ {id}, id ∈ due now s.usersToDelete → id ∈ s.toDelete :=
    fun hid => (due_sublist now s).subset hid
  have hlist : ∀ {id}, id ∈ s.list.diff (due now s.usersToDelete) ↔
      id ∈ s.list ∧ id ∉ due now s.usersToDelete := h.nodup.mem_sdiff_iff
  have hstays : ∀ {id}, id ∈ s.list → id ∉ s.toDelete →
      id ∈ s.list.diff (due now s.usersToDelete) :=
    fun hid hnot => hlist.mpr ⟨hid, fun hc => hnot (hdue hc)⟩
  have hsub : (s.realDelUser now).toDelete.Sublist s.toDelete := by
    rw [realDelUser_eq]
    exact List.filter_sublist.map _
  -- a user is to be deleted once, so the entry that stays is not the one that is due
  have hnotdue : ∀ {id}, id ∈ (s.realDelUser now).toDelete → id ∉ due now s.usersToDelete := by
    intro id hid hid'
    rw [realDelUser_eq] at hid
    obtain ⟨e, he, rfl⟩ := List.mem_map.mp hid
    obtain ⟨e', he', hdue', heq⟩ := mem_due.mp hid'
    obtain ⟨he, hnot⟩ := List.mem_filter.mp he
    obtain rfl := List.inj_on_of_nodup_map h.toDelete_nodup he' he heq
    simp [hdue'] at hnot
  have hcases : ∀ {id}, id ∈ s.toDelete →
      id ∈ (s.realDelUser now).toDelete ∨ id ∈ due now s.usersToDelete := by
    intro id hid
    obtain ⟨e, he, rfl⟩ := List.mem_map.mp hid
    by_cases hd : e.Due now
    · exact .inr (mem_due.mpr ⟨e, he, hd, rfl⟩)
    · refine .inl ?_
      rw [realDelUser_eq]
      exact List.mem_map_of_mem (List.mem_filter.mpr ⟨he, by simpa using hd⟩)
  have hnot : ∀ {id}, id ∉ s.toDelete → id ∉ (s.realDelUser now).toDelete :=
    fun hid hc => hid (hsub.subset hc)
  have hnodup : (due now s.usersToDelete).Nodup := h.toDelete_nodup.sublist (due_sublist now s)
  have heq := realDelUser_eq now s
  generalize s.realDelUser now = t at heq hsub hnotdue hcases hnot ⊢
  subst heq
  refine { h with
    nodup := h.nodup.diff
    fresh := ?_
    loginIndex := fun login id hl => ⟨hstays (h.loginIndex login id hl).1
      (h.loginIndex login id hl).2, hnot (h.loginIndex login id hl).2⟩
    ipIndex := fun ip id hip => ⟨hstays (h.ipIndex ip id hip).1 (h.ipIndex ip id hip).2,
      hnot (h.ipIndex ip id hip).2⟩
    pending := fun id hid => ⟨hstays (h.pending id hid).1 (h.pending id hid).2.1,
      hnot (h.pending id hid).2.1, (h.pending id hid).2.2⟩
    toDelete := fun id hid => ⟨hlist.mpr ⟨(h.toDelete id (hsub.subset hid)).1, hnotdue hid⟩,
      (h.toDelete id (hsub.subset hid)).2⟩
    toDelete_nodup := h.toDelete_nodup.sublist hsub
    searchDescriptors := ?_
    erased := ?_
    erased_nodup := ?_
    deleted := ?_ }
  · intro id hid
    refine ⟨fun hc => (h.fresh id hid).1 (hlist.mp hc).1, fun hc => ?_⟩
    rcases List.mem_append.mp hc with hc | hc
    · exact (h.fresh id hid).2 hc
    · exact (h.fresh id hid).1 (h.toDelete id (hdue hc)).1
  · intro h' id hid
    refine hlist.mpr ⟨h.searchDescriptors h' id hid, fun hc => ?_⟩
    obtain ⟨e, he, hd, rfl⟩ := mem_due.mp hc
    exact hg e he hd h' hid
  · intro id hid
    rcases List.mem_append.mp hid with hid | hid
    · exact ⟨fun hc => (h.erased id hid).1 (hlist.mp hc).1, (h.erased id hid).2⟩
    · exact ⟨fun hc => (hlist.mp hc).2 hid, (h.toDelete id (hdue hid)).2⟩
  · refine h.erased_nodup.append hnodup fun id hid hid' => ?_
    exact (h.erased id hid).1 (h.toDelete id (hdue hid')).1
  · intro id hid
    rcases h.deleted id hid with hid | hid | hid
    · exact .inl hid
    · rcases hcases hid with hid | hid
      · exact .inr (.inl hid)
      · exact .inr (.inr (List.mem_append_right _ hid))
    · exact .inr (.inr (List.mem_append_left _ hid))

/-- Nothing dangles after a change of users that keeps the logins and adds to the index of addresses
only users that are found by login. -/
theorem Invariant.impl (h : s.Invariant) {impl : UsersImpl}
    (hlogin : impl.loginIndex = s.impl.loginIndex)
    (hip : ∀ ip id, impl.ipIndex ip = some id → s.impl.ipIndex ip = some id ∨
      ∃ login, s.impl.loginIndex login = some id)
    (husers : ∀ id, (impl.users id).login = (s.impl.users id).login) :
    Invariant { s with impl := impl } := by
  refine { h with login_eq := ?_, loginIndex := ?_, ipIndex := ?_ }
  · intro login id hl
    change impl.loginIndex login = some id at hl
    change (impl.users id).login = login
    rw [husers]
    exact h.login_eq login id (hlogin ▸ hl)
  · intro login id hl
    change impl.loginIndex login = some id at hl
    exact h.loginIndex login id (hlogin ▸ hl)
  · intro ip id hid
    rcases hip ip id hid with hid | ⟨login, hid⟩
    · exact h.ipIndex ip id hid
    · exact h.loginIndex login id hid

/-- A search may be put at any node of the list, or at its end. -/
theorem Invariant.setDescriptor (h : s.Invariant) (h' : ℕ) {it : Option (Option UserId)}
    (hit : ∀ id, it = some (some id) → id ∈ s.list) :
    Invariant { s with searchDescriptors := Function.update s.searchDescriptors h' it } := by
  refine { h with searchDescriptors := ?_ }
  intro h'' id hid
  change Function.update s.searchDescriptors h' it h'' = some (some id) at hid
  by_cases hc : h'' = h'
  · subst hc
    rw [Function.update_self] at hid
    exact hit id hid
  · rw [Function.update_of_ne hc] at hid
    exact h.searchDescriptors h'' id hid

/-- `SearchNext` goes on along the list. -/
theorem Invariant.searchNext (h : s.Invariant) (h' : ℕ) : (s.searchNext h').2.Invariant := by
  unfold UsersList.searchNext
  split
  · exact h
  · rename_i it _
    split
    · exact h.setDescriptor h' (by simp)
    · rename_i u rest hrest
      refine h.setDescriptor h' fun id hid => ?_
      have hmem : id ∈ (s.since it).dropWhile s.deleted := by
        rw [hrest]
        exact List.mem_cons_of_mem _ (List.mem_of_mem_head? (Option.some.inj hid))
      have hsince : id ∈ s.since it := (List.dropWhile_sublist _).subset hmem
      cases it with
      | none => simp [since] at hsince
      | some u' => exact (List.dropWhile_sublist _).subset hsince

/-- **One step.** Every harmless step keeps the invariant. -/
theorem Invariant.step (h : s.Invariant) {a : Action} {s' : UsersList} (hg : s.Guard a)
    (hs : s.step a = some s') : s'.Invariant := by
  cases a with
  | add priv stored u =>
    obtain rfl := Option.some.inj hs
    exact h.add priv stored u
  | delMark priv login =>
    obtain rfl := Option.some.inj hs
    exact h.delMark hg
  | delFinish env u =>
    simp only [UsersList.step] at hs
    split_ifs at hs with hu
    obtain rfl := Option.some.inj hs
    exact h.delFinish hu hg
  | realDelUser now =>
    obtain rfl := Option.some.inj hs
    exact h.realDelUser hg
  | authorize env login ip dirs auth =>
    obtain ⟨out, hout, rfl⟩ := Option.map_eq_some_iff.mp hs
    obtain ⟨hlogin, hip, husers⟩ := UsersImpl.authorize_frame hout
    exact h.impl hlogin (fun ip' id hid => (hip ip' id hid).imp_right fun hl => ⟨login, hl⟩) husers
  | unauthorize env login auth reason =>
    obtain ⟨out, hout, rfl⟩ := Option.map_eq_some_iff.mp hs
    obtain ⟨hlogin, hip, husers⟩ := UsersImpl.unauthorize_frame hout
    exact h.impl hlogin (fun ip' id hid => .inl (hip ip' id hid)) husers
  | openSearch =>
    obtain rfl := Option.some.inj hs
    have hhead : ∀ id, some s.list.head? = some (some id) → id ∈ s.list :=
      fun id hid => List.mem_of_mem_head? (Option.some.inj hid)
    exact { h.setDescriptor (s.handle + 1) hhead with }
  | searchNext h' =>
    obtain rfl := Option.some.inj hs
    exact h.searchNext h'
  | closeSearch h' =>
    obtain rfl := Option.some.inj hs
    exact h.setDescriptor h' (by simp)

end Step

end UsersList

/-- **No dangling users.** From the server after `ReadUsers`, let users be added, deleted, erased,
authorized and unauthorized and searches be opened, advanced and closed, in any order.  If every
call of `Del` is for a user that is not being deleted already, its second part finds the user at no
address, and no descriptor denotes a user that `RealDelUser` erases, then no iterator ever dangles
and every deleted user is erased exactly once.

**Proof sketch.** The invariant rule with `UsersList.Invariant`. -/
theorem users_sound (s t : UsersList) (as : List UsersList.Action) (h : s.Initial)
    (hrun : Transition.Reaches UsersList.step UsersList.Guard s as t) : t.Sound :=
  (hrun.invariant (fun _ _ _ hi hg hs => UsersList.Invariant.step hi hg hs) h.invariant).sound

namespace Sample

/-- The list of the two users `a` and `b`. -/
def usersList : UsersList where
  impl := users
  list := [0, 1]
  next := 2

/-- The list after `ReadUsers`. -/
theorem usersList_initial : usersList.Initial where
  nodup := by decide
  fresh := by decide
  login_eq := users_initial.login_eq
  loginIndex login id h := by
    simp only [usersList, users] at h ⊢
    split_ifs at h with h1 h2
    · cases h; decide
    · cases h; decide
  ipIndex _ := rfl
  deleted _ := rfl
  usersToDelete := rfl
  searchDescriptors _ := rfl
  pending := rfl
  erased := rfl

end Sample

/-- The user `a` is authorized and unauthorized, deleted and erased while a search has got to the
user `b`. -/
theorem users_sound_erased :
    ∃ t, Transition.Reaches UsersList.step UsersList.Guard Sample.usersList
      [.authorize (Sample.env 0) "a" 7 0 1, .openSearch, .searchNext 1,
        .unauthorize (Sample.env 1) "a" 1 "", .delMark Priv.full "a", .delFinish (Sample.env 2) 0,
        .realDelUser 123] t ∧ t.erased = [0] ∧ t.Sound := by
  have hrun : ∃ t, Transition.Reaches UsersList.step UsersList.Guard Sample.usersList
      [.authorize (Sample.env 0) "a" 7 0 1, .openSearch, .searchNext 1,
        .unauthorize (Sample.env 1) "a" 1 "", .delMark Priv.full "a", .delFinish (Sample.env 2) 0,
        .realDelUser 123] t ∧ t.erased = [0] := by
    refine ⟨_, .cons trivial rfl (.cons trivial rfl (.cons trivial rfl (.cons trivial rfl
      (.cons (.inr ?_) rfl (.cons ?_ rfl (.cons ?_ rfl (.nil _))))))), rfl⟩
    · intro id hid
      rfl
    · intro ip
      change Function.update (Function.update (fun _ => none) (7 : IP) (some 0)) 7 none ip ≠ some 0
      rw [Function.update_idem, Function.update_apply]
      split_ifs <;> simp
    · intro e he hdue h
      obtain rfl : e = ⟨0, 2⟩ := List.mem_singleton.mp he
      change Function.update (Function.update (fun _ : ℕ => none) 1 (some (some (0 : UserId)))) 1
        (some (some 1)) h ≠ some (some 0)
      rw [Function.update_idem, Function.update_apply]
      split_ifs <;> simp
  obtain ⟨t, hreach, herased⟩ := hrun
  exact ⟨t, hreach, herased, users_sound _ _ _ Sample.usersList_initial hreach⟩

/-- Three ways to a dangling iterator: a search stands at a user that is erased, an authorized user
is erased, and a user is deleted by two calls that overlap and erased twice. -/
theorem users_dangle : Sample.usersList.Initial ∧
    (∃ t, Transition.Runs UsersList.step Sample.usersList
      [.openSearch, .delMark Priv.full "a", .delFinish (Sample.env 0) 0, .realDelUser 121] t ∧
        t.searchDescriptors 1 = some (some 0) ∧ 0 ∉ t.list ∧ ¬ t.Sound) ∧
    (∃ t, Transition.Runs UsersList.step Sample.usersList
      [.authorize (Sample.env 0) "a" 7 0 1, .delMark Priv.full "a", .delFinish (Sample.env 0) 0,
        .realDelUser 121] t ∧ t.impl.ipIndex 7 = some 0 ∧ 0 ∉ t.list ∧ ¬ t.Sound) ∧
    ∃ t, Transition.Runs UsersList.step Sample.usersList
      [.delMark Priv.full "a", .delMark Priv.full "a", .delFinish (Sample.env 0) 0,
        .delFinish (Sample.env 0) 0, .realDelUser 121] t ∧ t.erased = [0, 0] ∧ ¬ t.Sound := by
  refine ⟨Sample.usersList_initial,
    ⟨_, .cons trivial rfl (.cons trivial rfl (.cons trivial rfl (.cons trivial rfl
      (.nil _)))), rfl, by decide, fun h => ?_⟩,
    ⟨_, .cons trivial rfl (.cons trivial rfl (.cons trivial rfl (.cons trivial rfl
      (.nil _)))), rfl, by decide, fun h => ?_⟩,
    ⟨_, .cons trivial rfl (.cons trivial rfl (.cons trivial rfl (.cons trivial rfl
      (.cons trivial rfl (.nil _))))), rfl, fun h => ?_⟩⟩
  · exact absurd (h.searchDescriptors 1 0 rfl) (by decide)
  · exact absurd (h.ipIndex 7 0 rfl) (by decide)
  · exact absurd (h.once 0 rfl (by decide)) (by decide)

end Stargazer
