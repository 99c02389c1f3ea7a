import Mathlib.Tactic.FinCases
import Stargazer.Config.ChgUser
import Stargazer.Users.ParsedIPs

set_option relaxedAutoImplicit false
set_option autoImplicit false

/-!
# Who owns an address

An address list is a union of prefixes (`UserIPs::find`).  `CHG_USER::ApplyChanges` is to see that
the lists of two users have no address in common, unless one of them may come from anywhere: it
asks `UsersImpl::IsIPInUse` about the base address of each new prefix.  Of two prefixes that meet
one contains the base address of the other; the test finds only those where the old one is the
larger.  This does not hold of a prefix of no bits, whose mask C leaves undefined.

## Main definitions

* `Stargazer.UserIPs.Meets` — two prefixes have an address in common.
* `Stargazer.UserIPs.Disjoint` — two lists have no address in common.
* `Stargazer.UserList.Exclusive` — no two users own the same address.

## Main results

* `Stargazer.UserIPs.disjoint_iff` — lists are disjoint iff neither contains a base address of the
  other, and their prefixes of no bits keep apart.
* `Stargazer.exclusive_applyChanges_iff` — when a request that is accepted leaves the addresses
  exclusive.
-/

namespace Stargazer

namespace UserIPs

/-! ## Prefixes -/

/-- The address lies in the prefix. -/
def inPrefix (shifted : BitVec 32) (im : IPMask) (ip : IP) : Prop :=
  ip &&& calcMask shifted im.mask = im.ip &&& calcMask shifted im.mask

/-- Two prefixes have an address in common: their addresses agree in the bits of both masks. -/
def Meets (shifted : BitVec 32) (p q : IPMask) : Prop :=
  p.ip &&& (calcMask shifted p.mask &&& calcMask shifted q.mask) =
    q.ip &&& (calcMask shifted p.mask &&& calcMask shifted q.mask)

instance (shifted : BitVec 32) (p q : IPMask) : Decidable (Meets shifted p q) :=
  inferInstanceAs (Decidable (_ = _))

section Prefixes

variable {shifted : BitVec 32} {p q : IPMask} {ip : IP}

theorem meets_iff : Meets shifted p q ↔ ∃ ip, inPrefix shifted p ip ∧ inPrefix shifted q ip :=
  BitPrefix.exists_and_eq_iff.symm

/-- Every address lies in a prefix whose length is none. -/
theorem inPrefix_of_lt (h : 32 < p.mask) (ip : IP) : inPrefix shifted p ip := by
  have hmask : calcMask shifted p.mask = 0#32 := if_pos h
  rw [inPrefix, hmask, BitVec.and_zero, BitVec.and_zero]

/-- Two prefixes meet only if one contains the address of the other.

**Proof sketch.** An address that both have agrees with either address in the shorter prefix. -/
theorem inPrefix_or_inPrefix (hp : p.mask ≠ 0) (hq : q.mask ≠ 0) (hip : inPrefix shifted p ip)
    (hiq : inPrefix shifted q ip) : inPrefix shifted p q.ip ∨ inPrefix shifted q p.ip := by
  rcases Nat.lt_or_ge 32 p.mask with hlt | hple
  · exact .inl (inPrefix_of_lt hlt _)
  rcases Nat.lt_or_ge 32 q.mask with hlt | hqle
  · exact .inr (inPrefix_of_lt hlt _)
  unfold inPrefix at *
  rw [and_calcMask_eq_iff hp hple] at hip ⊢
  rw [and_calcMask_eq_iff hq hqle] at hiq ⊢
  rcases Nat.le_total p.mask q.mask with hle | hle
  · exact .inl ((hiq.mono hle).symm.trans hip)
  · exact .inr ((hip.mono hle).symm.trans hiq)

/-- **Two prefixes meet** iff one contains the address of the other. -/
theorem meets_iff_of_pos (hp : p.mask ≠ 0) (hq : q.mask ≠ 0) :
    Meets shifted p q ↔ inPrefix shifted p q.ip ∨ inPrefix shifted q p.ip := by
  rw [meets_iff]
  constructor
  · rintro ⟨ip, hip, hiq⟩
    exact inPrefix_or_inPrefix hp hq hip hiq
  · rintro (h | h)
    · exact ⟨q.ip, h, rfl⟩
    · exact ⟨p.ip, rfl, h⟩

end Prefixes

/-! ## Lists -/

section Lists

variable (shifted : BitVec 32)

/-- The lists have no address in common. -/
def Disjoint (ips ips' : UserIPs) : Prop :=
  ∀ ip, ¬ (ips.find shifted ip = true ∧ ips'.find shifted ip = true)

/-- The list contains the base address of no entry of the other. -/
def Misses (ips ips' : UserIPs) : Prop :=
  ∀ im ∈ (ips' : List IPMask), ips.find shifted im.ip = false

instance (ips ips' : UserIPs) : Decidable (Misses shifted ips ips') :=
  inferInstanceAs (Decidable (∀ im ∈ (ips' : List IPMask), ips.find shifted im.ip = false))

/-- A prefix of no bits, in either list, meets no entry of the other. -/
def KeepApart (ips ips' : UserIPs) : Prop :=
  ∀ p ∈ (ips : List IPMask), ∀ q ∈ (ips' : List IPMask), p.mask = 0 ∨ q.mask = 0 →
    ¬ Meets shifted p q

instance (ips ips' : UserIPs) : Decidable (KeepApart shifted ips ips') :=
  inferInstanceAs (Decidable (∀ p ∈ (ips : List IPMask), ∀ q ∈ (ips' : List IPMask), _))

variable {shifted}

theorem Disjoint.symm {ips ips' : UserIPs} (h : Disjoint shifted ips ips') :
    Disjoint shifted ips' ips :=
  fun ip hip => h ip hip.symm

/-- **Lists are disjoint iff neither contains a base address of the other**, and their prefixes of no
bits keep apart. -/
theorem disjoint_iff {ips ips' : UserIPs} (h : ips.isAnyIP = false) (h' : ips'.isAnyIP = false) :
    Disjoint shifted ips ips' ↔
      Misses shifted ips ips' ∧ Misses shifted ips' ips ∧ KeepApart shifted ips ips' := by
  constructor
  · intro hd
    refine ⟨fun im him => ?_, fun im him => ?_, fun p hp q hq _ hmeets => ?_⟩
    · exact eq_false_of_ne_true fun hf => hd im.ip ⟨hf, find_of_mem him⟩
    · exact eq_false_of_ne_true fun hf => hd im.ip ⟨find_of_mem him, hf⟩
    · obtain ⟨ip, hip, hiq⟩ := meets_iff.1 hmeets
      exact hd ip ⟨(find_iff h ip).2 ⟨p, hp, hip⟩, (find_iff h' ip).2 ⟨q, hq, hiq⟩⟩
  · rintro ⟨hmiss, hmiss', hapart⟩ ip ⟨hip, hip'⟩
    obtain ⟨p, hp, hpip⟩ := (find_iff h ip).1 hip
    obtain ⟨q, hq, hqip⟩ := (find_iff h' ip).1 hip'
    have hmeets : Meets shifted p q := meets_iff.2 ⟨ip, hpip, hqip⟩
    by_cases hzero : p.mask = 0 ∨ q.mask = 0
    · exact hapart p hp q hq hzero hmeets
    · obtain ⟨hpos, hqos⟩ := not_or.1 hzero
      rcases (meets_iff_of_pos hpos hqos).1 hmeets with hin | hin
      · have hfind := (find_iff h q.ip).2 ⟨p, hp, hin⟩
        rw [hmiss q hq] at hfind
        cases hfind
      · have hfind := (find_iff h' p.ip).2 ⟨q, hq, hin⟩
        rw [hmiss' p hp] at hfind
        cases hfind

end Lists

end UserIPs

namespace UserList

/-- No two users own the same address, but for those who may come from anywhere. -/
def Exclusive (shifted : BitVec 32) (s : UserList) : Prop :=
  ∀ i j : Fin s.users.length, i ≠ j → (s.users.get i).user.ips.isAnyIP = false →
    (s.users.get j).user.ips.isAnyIP = false →
      (s.users.get i).user.ips.Disjoint shifted (s.users.get j).user.ips

/-- The user that is found has the login. -/
theorem login_of_findByName {s : UserList} {login : String} {i : Fin s.users.length}
    (h : s.findByName login = some i) : (s.users.get i).user.login = login := by
  have hi := (List.findFinIdx?_eq_some_iff.1 h).1
  simp only [Bool.and_eq_true, beq_iff_eq] at hi
  exact hi.2

/-- The other users have other logins. -/
theorem login_eq_iff {s : UserList} {login : String} {i : Fin s.users.length}
    (h : s.findByName login = some i) (j : Fin s.users.length) :
    (s.users.get j).user.login = login ↔ j = i := by
  constructor
  · intro hj
    have heq : (s.users.map fun u => u.user.login)[j.val]? =
        (s.users.map fun u => u.user.login)[i.val]? := by
      simp only [List.getElem?_map, List.getElem?_eq_getElem j.isLt,
        List.getElem?_eq_getElem i.isLt, Option.map_some, Option.some.injEq]
      exact hj.trans (login_of_findByName h).symm
    exact Fin.ext ((List.getElem?_inj (by simp) s.nodup).1 heq)
  · rintro rfl
    exact login_of_findByName h

end UserList

/-! ## Requests that are accepted -/

/-- Only the change of the addresses changes the addresses. -/
theorem ips_set (env : Env) (u : UserRecord) {c : Change} (h : 0 < c.rank) :
    (c.set env u).user.ips = u.user.ips := by
  have hagree : (Change.ips []).Agree (c.update env u.user.tariff u.properties) u.properties :=
    Change.agree_update h
  rw [← Change.properties_set] at hagree
  exact hagree

theorem ips_applyAll (env : Env) (priv : Priv) {u u' : UserRecord} {l : List Change} {ok : Bool}
    (hl : ∀ c ∈ l, 0 < c.rank) (h : applyAll env priv u l = some (ok, u')) :
    u'.user.ips = u.user.ips := by
  induction l generalizing u with
  | nil =>
    obtain ⟨-, rfl⟩ : true = ok ∧ u = u' := by simpa [applyAll] using h
    rfl
  | cons c l ih =>
    obtain ⟨hc, hl⟩ := List.forall_mem_cons.1 hl
    simp only [applyAll, Change.apply] at h
    cases hv : c.verdict env priv u.user.tariff with
    | set =>
      rw [hv] at h
      exact (ih hl h).trans (ips_set env u hc)
    | skip =>
      rw [hv] at h
      exact ih hl h
    | refuse =>
      rw [hv] at h
      obtain ⟨-, rfl⟩ : false = ok ∧ u = u' := by simpa using h
      rfl
    | crash =>
      rw [hv] at h
      cases h

/-- The addresses are changed first, and nothing changes them afterwards. -/
theorem ips_of_applyAll {env : Env} {priv : Priv} {req : ChgUser} {ips : UserIPs}
    (hips : req.ips = some ips) {u u' : UserRecord}
    (h : applyAll env priv u req.changes = some (true, u')) : u'.user.ips = ips := by
  have hsorted := sorted_changes req
  obtain ⟨rest, hrest⟩ : ∃ rest, req.changes = .ips ips :: rest := by
    delta ChgUser.changes
    simp only [hips, Option.toList_some, List.map_cons, List.map_nil, List.append_assoc,
      List.cons_append]
    exact ⟨_, rfl⟩
  rw [hrest] at h hsorted
  have hlt : ∀ c ∈ rest, 0 < c.rank := fun c hc => List.rel_of_pairwise_cons hsorted hc
  simp only [applyAll, Change.apply, Change.verdict] at h
  split at h
  · cases h
  · simp at h
  · next v hv =>
    have hset : v = (Change.ips ips).set env u := by
      by_cases hmay : (Change.ips ips).maySet priv = true
      · simpa [hmay] using hv.symm
      · simp [hmay] at hv
    rw [ips_applyAll env priv hlt h, hset]
    have hprops := congrArg UserProperties.ips (Change.properties_set env u (.ips ips))
    exact hprops

/-- What a request that is accepted does: the user it is about gets the addresses, and the other
users stay as they are. -/
theorem UserList.users_of_applyChanges {env : Env} {priv : Priv} {req : ChgUser}
    {s s' : UserList} {ips : UserIPs} (hips : req.ips = some ips)
    (h : s.applyChanges env priv req = some (true, s')) :
    ∃ i u, s.Passes env req i ∧ s'.users = s.users.set i.val u ∧ u.user.ips = ips := by
  unfold applyChanges at h
  split at h
  · simp at h
  · next i hfound =>
    split_ifs at h with hallowed
    · simp at h
    · rw [hips] at h
      simp only at h
      split_ifs at h with hfree
      · simp at h
      · split at h
        · cases h
        · simp at h
        · next u hu =>
          refine ⟨i, { u with user := u.user.writeStat env }, ⟨hfound, by simpa using hallowed,
            ips, hips, by simpa using hfree⟩, ?_, ?_⟩
          · have hs := congrArg Prod.snd (Option.some.inj h)
            exact (congrArg UserList.users hs).symm
          · have hwrite : (u.user.writeStat env).ips = u.user.ips := by
              unfold UserImpl.writeStat
              split <;> rfl
            exact hwrite.trans (ips_of_applyAll hips hu)

/-! ## Exclusiveness -/

/-- The new addresses contain the address of no entry of another user, and no prefix of no bits meets
another one; or they are all addresses. -/
def ChgUser.MissesOthers (shifted : BitVec 32) (req : ChgUser) (ips : UserIPs) (s : UserList) : Prop :=
  ips.isAnyIP = true ∨ ∀ u ∈ s.users, u.user.login ≠ req.login → u.user.ips.isAnyIP = false →
    ips.Misses shifted u.user.ips ∧ ips.KeepApart shifted u.user.ips

/-- The checks of a request: no base address of the new list belongs to another user. -/
theorem UserList.Passes.misses {env : Env} {req : ChgUser} {s : UserList} {i : Fin s.users.length}
    (h : s.Passes env req i) {ips : UserIPs} (hips : req.ips = some ips) {u : UserRecord}
    (hu : u ∈ s.users) (hlogin : u.user.login ≠ req.login) (hany : u.user.ips.isAnyIP = false) :
    u.user.ips.Misses env.shifted ips := by
  obtain ⟨ips', hips', hfree⟩ := h.free
  obtain rfl : ips = ips' := Option.some.inj (hips.symm.trans hips')
  intro im him
  have hnot : s.isIPInUse env.shifted im.ip req.login = false := by
    simpa using List.any_eq_false.1 hfree im him
  have := List.any_eq_false.1 hnot u hu
  simpa [hlogin, hany] using this

/-- **When a request that is accepted leaves the addresses exclusive**: the new list is all
addresses, or it contains the address of no entry of another user, and no prefix of no bits gets in the
way.

**Proof sketch.** Only the list of one user changes.  It is disjoint from the list of another user
iff neither contains a base address of the other (`UserIPs.disjoint_iff`), and the checks see to one
half of that (`UserList.Passes.misses`). -/
theorem exclusive_applyChanges_iff {env : Env} {priv : Priv} {req : ChgUser} {s s' : UserList}
    {ips : UserIPs} (hs : s.Exclusive env.shifted) (hips : req.ips = some ips)
    (h : s.applyChanges env priv req = some (true, s')) :
    s'.Exclusive env.shifted ↔ req.MissesOthers env.shifted ips s := by
  obtain ⟨i, u, hpasses, husers, hu⟩ := UserList.users_of_applyChanges hips h
  have hlogin := UserList.login_eq_iff hpasses.found
  have hlen : s'.users.length = s.users.length := by rw [husers, List.length_set]
  have hself (k : ℕ) (hk : k < s'.users.length) (hki : k = i.val) :
      s'.users[k].user.ips = ips := by
    simp only [husers, hki, List.getElem_set_self, hu]
  have hother (k : ℕ) (hk : k < s'.users.length) (hki : k ≠ i.val) :
      s'.users[k] = s.users[k] := by
    simp only [husers, List.getElem_set_of_ne (Ne.symm hki)]
  have hne (j : Fin s.users.length) (hji : j.val ≠ i.val) :
      (s.users.get j).user.login ≠ req.login :=
    fun heq => hji (congrArg Fin.val ((hlogin j).1 heq))
  constructor
  · intro hexcl
    by_cases hany : ips.isAnyIP = true
    · exact .inl hany
    · rw [Bool.not_eq_true] at hany
      refine .inr fun v hv hvlogin hvany => ?_
      obtain ⟨j, hj, rfl⟩ := List.getElem_of_mem hv
      have hji : j ≠ i.val := fun heq => hvlogin ((hlogin ⟨j, hj⟩).2 (Fin.ext heq))
      have hi' : i.val < s'.users.length := lt_of_lt_of_eq i.isLt hlen.symm
      have hj' : j < s'.users.length := lt_of_lt_of_eq hj hlen.symm
      have hdisj := hexcl ⟨i.val, hi'⟩ ⟨j, hj'⟩ (fun heq => hji (congrArg Fin.val heq).symm)
      simp only [List.get_eq_getElem, hself i.val hi' rfl, hother j hj' hji] at hdisj
      obtain ⟨hmisses, -, hapart⟩ := (UserIPs.disjoint_iff hany hvany).1 (hdisj hany hvany)
      exact ⟨hmisses, hapart⟩
  · intro hmiss k l hkl hk hl
    have hkl : k.val ≠ l.val := fun heq => hkl (Fin.ext heq)
    have hnew (j : ℕ) (hj : j < s'.users.length) (hji : j ≠ i.val) (hany : ips.isAnyIP = false)
        (hjany : s'.users[j].user.ips.isAnyIP = false) :
        ips.Disjoint env.shifted s'.users[j].user.ips := by
      have hj' : j < s.users.length := lt_of_lt_of_eq hj hlen
      rw [hother j hj hji] at hjany ⊢
      obtain ⟨hmisses, hapart⟩ := hmiss.resolve_left (by simp [hany]) _ (List.getElem_mem hj')
        (hne ⟨j, hj'⟩ hji) hjany
      exact (UserIPs.disjoint_iff hany hjany).2
        ⟨hmisses, hpasses.misses hips (List.getElem_mem hj') (hne ⟨j, hj'⟩ hji) hjany, hapart⟩
    simp only [List.get_eq_getElem] at hk hl ⊢
    by_cases hki : k.val = i.val
    · rw [hself k.val k.isLt hki] at hk ⊢
      exact hnew l.val l.isLt (fun hli => hkl (hki.trans hli.symm)) hk hl
    · by_cases hli : l.val = i.val
      · rw [hself l.val l.isLt hli] at hl ⊢
        exact (hnew k.val k.isLt hki hl hk).symm
      · rw [hother k.val k.isLt hki] at hk ⊢
        rw [hother l.val l.isLt hli] at hl ⊢
        exact hs ⟨k.val, lt_of_lt_of_eq k.isLt hlen⟩ ⟨l.val, lt_of_lt_of_eq l.isLt hlen⟩
          (fun heq => hkl (Fin.mk.inj heq)) hk hl

namespace Sample

/-- Two users, with the addresses `10.1.0.1` and `10.0.0.5`. -/
def twoUsers : UserList where
  users := [{ user := { user "alice" with ips := [⟨0x0100010A, 32⟩] } },
    { user := { user "bob" with ips := [⟨0x0500000A, 32⟩] } }]
  nodup := by simp [user]

/-- A request to give the first user another address list. -/
def chgIps (ips : UserIPs) : ChgUser := { login := "alice", ips := some ips }

end Sample

theorem Sample.twoUsers_exclusive : Sample.twoUsers.Exclusive (Sample.env 0).shifted := by
  have hdisj : UserIPs.Disjoint (Sample.env 0).shifted [⟨0x0100010A, 32⟩] [⟨0x0500000A, 32⟩] :=
    (UserIPs.disjoint_iff rfl rfl).2 ⟨by decide, by decide, by decide⟩
  intro i j hij _ _
  fin_cases i <;> fin_cases j
  · exact absurd rfl hij
  · exact hdisj
  · exact hdisj.symm
  · exact absurd rfl hij

/-- The address `10.0.0.7` for the first user. -/
theorem exclusive_single_address :
    ∃ s', Sample.twoUsers.applyChanges (Sample.env 0) Priv.full
        (Sample.chgIps [⟨0x0700000A, 32⟩]) = some (true, s') ∧
      s'.Exclusive (Sample.env 0).shifted := by
  have hips : (Sample.chgIps [⟨0x0700000A, 32⟩]).ips = some [⟨0x0700000A, 32⟩] := rfl
  obtain ⟨s', h⟩ : ∃ s', Sample.twoUsers.applyChanges (Sample.env 0) Priv.full
      (Sample.chgIps [⟨0x0700000A, 32⟩]) = some (true, s') := ⟨_, rfl⟩
  refine ⟨s', h, (exclusive_applyChanges_iff Sample.twoUsers_exclusive hips h).2 (.inr ?_)⟩
  refine List.forall_mem_cons.2 ⟨fun hlogin => absurd rfl hlogin, ?_⟩
  refine List.forall_mem_cons.2 ⟨fun _ _ => ?_, List.forall_mem_nil _⟩
  change UserIPs.Misses (Sample.env 0).shifted [⟨0x0700000A, 32⟩] [⟨0x0500000A, 32⟩] ∧
    UserIPs.KeepApart (Sample.env 0).shifted [⟨0x0700000A, 32⟩] [⟨0x0500000A, 32⟩]
  decide

/-- The first user is given the addresses from `10.0.0.0` to `10.0.0.255`, one of which is that of
the second user. -/
theorem address_taken_by_prefix :
    Sample.twoUsers.Exclusive (Sample.env 0).shifted ∧
      ∃ s', Sample.twoUsers.applyChanges (Sample.env 0) Priv.full
          (Sample.chgIps [⟨0x0000000A, 24⟩]) = some (true, s') ∧
        (∀ u ∈ s'.users, u.user.ips.isAnyIP = false) ∧
        ¬ s'.Exclusive (Sample.env 0).shifted := by
  refine ⟨Sample.twoUsers_exclusive, _, rfl, ?_, fun h => ?_⟩
  · exact List.forall_mem_cons.2 ⟨rfl, List.forall_mem_cons.2 ⟨rfl, List.forall_mem_nil _⟩⟩
  · exact h ⟨0, Nat.zero_lt_succ 1⟩ ⟨1, Nat.one_lt_two⟩
      (fun heq => Nat.zero_ne_one (Fin.mk.inj heq)) rfl rfl 0x0500000A (by decide)

end Stargazer
