import Stargazer.Config.ChgUser

set_option relaxedAutoImplicit false
set_option autoImplicit false

/-!
# What a request that is not refused does

`CHG_USER::ApplyChanges` sets the properties one after another.  Here the whole request is one
function from the properties before it to the properties after it.

## Main definitions

* `Stargazer.ChgUser.outcome` — the properties after a request.

## Main results

* `Stargazer.applyAll_of_accepted` — changes none of which is refused.
* `Stargazer.updateAll_changes` — the changes of a request, all of them.
* `Stargazer.UserList.Passes.applyChanges_of_accepted` — a request none of whose changes is refused.
-/

namespace Stargazer

/-- **Changes none of which is refused**: those that are not passed over are made.

**Proof sketch.** Induction on the changes, with the tariff the verdicts look at as in
`applyAll_eq_false_iff`. -/
theorem applyAll_of_accepted (env : Env) (priv : Priv) (tariff : Option TariffImpl)
    {l : List Change} (hl : Change.Sorted l) (u : UserRecord)
    (ht : u.user.tariff = tariff ∨ ∀ c ∈ l, 26 < c.rank)
    (h : ∀ c ∈ l, c.verdict env priv tariff = .set ∨ c.verdict env priv tariff = .skip) :
    ∃ u', applyAll env priv u l = some (true, u') ∧
      u'.properties =
        (Change.made env priv tariff l).foldl (fun p d => d.update env tariff p) u.properties := by
  induction l generalizing u with
  | nil => exact ⟨u, rfl, rfl⟩
  | cons c l ih =>
    have hlt : ∀ d ∈ l, c.rank < d.rank := fun d hd => List.rel_of_pairwise_cons hl hd
    have hverdict : c.verdict env priv u.user.tariff = c.verdict env priv tariff := by
      rcases ht with rfl | ht
      · rfl
      · exact Change.verdict_of_lt (ht c List.mem_cons_self) _ _
    have hrest : u.user.tariff = tariff ∨ ∀ d ∈ l, 26 < d.rank :=
      ht.imp_right fun ht d hd => ht d (List.mem_cons_of_mem c hd)
    have hl' := fun d hd => h d (List.mem_cons_of_mem c hd)
    rcases h c List.mem_cons_self with hv | hv
    · have hset : (c.set env u).properties = c.update env tariff u.properties := by
        rw [Change.properties_set]
        rcases ht with rfl | ht
        · rfl
        · exact Change.update_of_lt (ht c List.mem_cons_self) _ _ _
      have htariff : (c.set env u).user.tariff = tariff ∨ ∀ d ∈ l, 26 < d.rank := by
        by_cases hc : c.rank = 26
        · exact .inr fun d hd => hc ▸ hlt d hd
        · rw [Change.tariff_set env u hc]
          exact hrest
      have hmade : Change.made env priv tariff (c :: l) = c :: Change.made env priv tariff l :=
        List.filter_cons_of_pos (by simp [hv])
      simp only [applyAll, Change.apply, hverdict, hv, hmade, List.foldl_cons, ← hset]
      exact ih hl.of_cons (c.set env u) htariff hl'
    · have hmade : Change.made env priv tariff (c :: l) = Change.made env priv tariff l :=
        List.filter_cons_of_neg (by simp [hv])
      simp only [applyAll, Change.apply, hverdict, hv, hmade]
      exact ih hl.of_cons u hrest hl'

/-! ## The changes of a request as a whole -/

namespace ChgUser

/-- Is the user charged for becoming passive? -/
def charged (req : ChgUser) (tariff : Option TariffImpl) (p : UserProperties) : Bool :=
  tariff.isSome && req.passive.getD 0 != 0 && p.passive == 0

/-- What is left after the user has been charged for becoming passive. -/
def cashPassive (req : ChgUser) (tariff : Option TariffImpl) (p : UserProperties) : Money :=
  match tariff with
  | some t => if req.charged tariff p then p.cash - t.tariffConf.passiveCost else p.cash
  | none => p.cash

/-- The properties after a request of which nothing is refused or passed over. -/
def outcome (env : Env) (tariff : Option TariffImpl) (req : ChgUser) (p : UserProperties) :
    UserProperties where
  cash := req.cash.elim (req.cashPassive tariff p)
    fun v => if req.cashMustBeAdded then v + req.cashPassive tariff p else v
  up := mergeDirs req.up p.up
  down := mergeDirs req.down p.down
  lastCashAdd := req.cash.elim
    (if req.charged tariff p then req.cashPassive tariff p - p.cash else p.lastCashAdd)
    fun v => (if req.cashMustBeAdded then v + req.cashPassive tariff p else v) -
      req.cashPassive tariff p
  passiveTime := p.passiveTime
  lastCashAddTime :=
    if req.cash.isSome || req.charged tariff p then env.stgTime else p.lastCashAddTime
  freeMb := req.freeMb.getD p.freeMb
  lastActivityTime := p.lastActivityTime
  passive := req.passive.getD p.passive
  disabled := req.disabled.getD p.disabled
  disabledDetailStat := req.disabledDetailStat.getD p.disabledDetailStat
  alwaysOnline := req.alwaysOnline.getD p.alwaysOnline
  tariffName := req.tariffName.getD p.tariffName
  nextTariff := req.nextTariff.getD (if req.tariffName.isSome then "" else p.nextTariff)
  credit := req.credit.getD p.credit
  creditExpire := req.creditExpire.getD p.creditExpire
  ips := req.ips.getD p.ips
  text := fun f => (req.text f).getD (p.text f)

end ChgUser

attribute [ext] UserProperties

section Stages

variable (env : Env) (tariff : Option TariffImpl) (p : UserProperties)

/-- The properties after a list of changes. -/
def updateAll (l : List Change) : UserProperties := l.foldl (fun p d => d.update env tariff p) p

theorem updateAll_append {l l' : List Change} {q r : UserProperties}
    (h : updateAll env tariff p l = q) (h' : updateAll env tariff q l' = r) :
    updateAll env tariff p (l ++ l') = r := by
  rw [updateAll, List.foldl_append]
  exact (congrArg (fun q => updateAll env tariff q l') h).trans h'

/-- A change that is asked for or not. -/
theorem updateAll_option {α : Type} (o : Option α) (f : α → Change)
    (put : UserProperties → α → UserProperties) (get : UserProperties → α)
    (hput : ∀ p v, (f v).update env tariff p = put p v) (hself : ∀ p, put p (get p) = p) :
    updateAll env tariff p (o.toList.map f) = put p (o.getD (get p)) := by
  cases o with
  | none => exact (hself p).symm
  | some v => exact hput p v

/-- A list of texts. -/
theorem updateAll_texts (req : ChgUser) (fs : List TextProp) :
    updateAll env tariff p (fs.flatMap req.textChange) =
      { p with text := fun f => if f ∈ fs then (req.text f).getD (p.text f) else p.text f } := by
  induction fs generalizing p with
  | nil => simp [updateAll]
  | cons g fs ih =>
    have hfirst : updateAll env tariff p (req.textChange g) =
        { p with text := Function.update p.text g ((req.text g).getD (p.text g)) } := by
      rw [ChgUser.textChange]
      cases req.text g with
      | none => simp [updateAll]
      | some v => rfl
    rw [List.flatMap_cons, updateAll_append env tariff p hfirst (ih _)]
    congr 1
    funext f
    by_cases hf : f = g
    · subst hf
      cases req.text f <;> simp
    · simp [hf]

theorem updateAll_text (req : ChgUser) (f : TextProp) :
    updateAll env tariff p (req.textChange f) =
      { p with text := fun g => if g ∈ [f] then (req.text g).getD (p.text g) else p.text g } := by
  have h := updateAll_texts env tariff p req [f]
  rwa [List.flatMap_singleton] at h

theorem updateAll_up (v : Dir → Option (BitVec 64)) :
    updateAll env tariff p (if ∃ i, (v i).isSome then [Change.up v] else []) =
      { p with up := mergeDirs v p.up } := by
  split_ifs with h
  · rfl
  · have hnone : mergeDirs v p.up = p.up :=
      (Change.mergeDirs_eq_iff v p.up).2 fun i => .inl (by simpa using not_exists.1 h i)
    simp [updateAll, hnone]

theorem updateAll_down (v : Dir → Option (BitVec 64)) :
    updateAll env tariff p (if ∃ i, (v i).isSome then [Change.down v] else []) =
      { p with down := mergeDirs v p.down } := by
  split_ifs with h
  · rfl
  · have hnone : mergeDirs v p.down = p.down :=
      (Change.mergeDirs_eq_iff v p.down).2 fun i => .inl (by simpa using not_exists.1 h i)
    simp [updateAll, hnone]

/-- Becoming passive. -/
theorem updateAll_passive (req : ChgUser) :
    updateAll env tariff p (req.passive.toList.map Change.passive) =
      { p with
        passive := req.passive.getD p.passive
        cash := req.cashPassive tariff p
        lastCashAdd :=
          if req.charged tariff p then req.cashPassive tariff p - p.cash else p.lastCashAdd
        lastCashAddTime := if req.charged tariff p then env.stgTime else p.lastCashAddTime } := by
  cases h : req.passive with
  | none =>
    have hcharged : req.charged tariff p = false := by simp [ChgUser.charged, h]
    cases tariff <;> simp [updateAll, ChgUser.cashPassive, hcharged]
  | some v =>
    change (Change.passive v).update env tariff p = _
    cases tariff with
    | none => simp [Change.update, ChgUser.charged, ChgUser.cashPassive]
    | some t =>
      by_cases hv : v ≠ 0 ∧ p.passive = 0
      · have hcharged : req.charged (some t) p = true := by simp [ChgUser.charged, h, hv]
        simp only [Change.update, if_pos hv, ChgUser.cashPassive, hcharged, Option.getD_some,
          if_true]
      · have hcharged : req.charged (some t) p = false := by
          simpa [ChgUser.charged, h] using hv
        simp only [Change.update, if_neg hv, ChgUser.cashPassive, hcharged, Option.getD_some,
          Bool.false_eq_true, if_false]

/-- A payment. -/
theorem updateAll_cash (add : Bool) (o : Option Money) :
    updateAll env tariff p (o.toList.map (Change.cash add)) =
      { p with
        cash := o.elim p.cash fun v => if add then v + p.cash else v
        lastCashAdd := o.elim p.lastCashAdd fun v => (if add then v + p.cash else v) - p.cash
        lastCashAddTime := if o.isSome then env.stgTime else p.lastCashAddTime } := by
  cases o <;> rfl

/-- The tariff. -/
theorem updateAll_tariffName (o : Option String) :
    updateAll env tariff p (o.toList.map Change.tariffName) =
      { p with
        tariffName := o.getD p.tariffName
        nextTariff := if o.isSome then "" else p.nextTariff } := by
  cases o <;> rfl

end Stages

/-- **The changes of a request, all of them.** -/
theorem updateAll_changes (env : Env) (tariff : Option TariffImpl) (req : ChgUser)
    (p : UserProperties) :
    updateAll env tariff p req.changes = req.outcome env tariff p := by
  have huserdata : ∀ p, updateAll env tariff p
      ((List.finRange 10).flatMap fun i => req.textChange (.userdata i)) = _ := fun p =>
    (congrArg _ (List.flatMap_map TextProp.userdata _ _).symm).trans
      (updateAll_texts env tariff p req ((List.finRange 10).map .userdata))
  have happend : ∀ {p q r : UserProperties} {l l' : List Change}, updateAll env tariff p l = q →
      updateAll env tariff q l' = r → updateAll env tariff p (l ++ l') = r :=
    fun h h' => updateAll_append env tariff _ h h'
  have hips := fun p => updateAll_option env tariff p req.ips .ips
    (fun p v => { p with ips := v }) UserProperties.ips (fun _ _ => rfl) (fun _ => rfl)
  have halwaysOnline := fun p => updateAll_option env tariff p req.alwaysOnline .alwaysOnline
    (fun p v => { p with alwaysOnline := v }) UserProperties.alwaysOnline
    (fun _ _ => rfl) (fun _ => rfl)
  have hcreditExpire := fun p => updateAll_option env tariff p req.creditExpire .creditExpire
    (fun p v => { p with creditExpire := v }) UserProperties.creditExpire
    (fun _ _ => rfl) (fun _ => rfl)
  have hcredit := fun p => updateAll_option env tariff p req.credit .credit
    (fun p v => { p with credit := v }) UserProperties.credit (fun _ _ => rfl) (fun _ => rfl)
  have hfreeMb := fun p => updateAll_option env tariff p req.freeMb .freeMb
    (fun p v => { p with freeMb := v }) UserProperties.freeMb (fun _ _ => rfl) (fun _ => rfl)
  have hdisabled := fun p => updateAll_option env tariff p req.disabled .disabled
    (fun p v => { p with disabled := v }) UserProperties.disabled (fun _ _ => rfl) (fun _ => rfl)
  have hdisabledDetailStat := fun p => updateAll_option env tariff p req.disabledDetailStat
    .disabledDetailStat (fun p v => { p with disabledDetailStat := v })
    UserProperties.disabledDetailStat (fun _ _ => rfl) (fun _ => rfl)
  have hnextTariff := fun p => updateAll_option env tariff p req.nextTariff .nextTariff
    (fun p v => { p with nextTariff := v }) UserProperties.nextTariff (fun _ _ => rfl) (fun _ => rfl)
  have htext := fun f p => updateAll_text env tariff p req f
  refine (happend (happend (happend (happend (happend (happend (happend (happend (happend (happend
    (happend (happend (happend (happend (happend (happend (happend (happend (happend (happend
    (hips p) (halwaysOnline _)) (htext _ _)) (hcreditExpire _)) (hcredit _)) (hfreeMb _))
    (hdisabled _)) (hdisabledDetailStat _)) (htext _ _)) (htext _ _)) (htext _ _)) (huserdata _))
    (updateAll_passive env tariff _ req)) (htext _ _)) (htext _ _)) (htext _ _))
    (updateAll_cash env tariff _ _ _)) (updateAll_tariffName env tariff _ _)) (hnextTariff _))
    (updateAll_up env tariff _ _)) (updateAll_down env tariff _ _)).trans ?_
  refine UserProperties.ext rfl rfl rfl rfl rfl ?_ rfl rfl rfl rfl rfl rfl rfl rfl rfl rfl rfl
    (funext fun f => ?_)
  · change (if req.cash.isSome then env.stgTime else
      if req.charged tariff p then env.stgTime else p.lastCashAddTime) =
        if req.cash.isSome || req.charged tariff p then env.stgTime else p.lastCashAddTime
    cases req.cash.isSome <;> simp
  · cases f <;> simp [ChgUser.outcome]

theorem eq_of_mem_ite {α : Type} {p : Prop} [Decidable p] {a b : α}
    (h : a ∈ (if p then [b] else [])) : a = b := by
  split_ifs at h
  · exact List.mem_singleton.1 h
  · cases h

/-- A request asks for the tariff it changes. -/
theorem tariffName_of_mem_changes {req : ChgUser} {t : String} (h : .tariffName t ∈ req.changes) :
    req.tariffName = some t := by
  delta ChgUser.changes ChgUser.textChange at h
  simp only [List.mem_append, List.mem_map, List.mem_flatMap, Option.mem_toList, reduceCtorEq,
    and_false, exists_false, or_false, false_or, Change.tariffName.injEq] at h
  rcases h with (h | h) | h
  · simpa using h
  · cases eq_of_mem_ite h
  · cases eq_of_mem_ite h

/-- So it does for the tariff that is to follow. -/
theorem nextTariff_of_mem_changes {req : ChgUser} {t : String} (h : .nextTariff t ∈ req.changes) :
    req.nextTariff = some t := by
  delta ChgUser.changes ChgUser.textChange at h
  simp only [List.mem_append, List.mem_map, List.mem_flatMap, Option.mem_toList, reduceCtorEq,
    and_false, exists_false, or_false, false_or, Change.nextTariff.injEq] at h
  rcases h with (h | h) | h
  · simpa using h
  · cases eq_of_mem_ite h
  · cases eq_of_mem_ite h

/-! ## A request -/

/-- Writing the counters changes no property. -/
theorem properties_writeStat (env : Env) (u : UserRecord) :
    { u with user := u.user.writeStat env }.properties = u.properties := by
  unfold UserImpl.writeStat
  split <;> rfl

/-- **A request none of whose changes is refused.** -/
theorem UserList.Passes.applyChanges_of_accepted {env : Env} {priv : Priv} {req : ChgUser}
    {s : UserList} {i : Fin s.users.length} (h : s.Passes env req i)
    (haccepted : ∀ c ∈ req.changes, c.verdict env priv (s.users.get i).user.tariff = .set ∨
      c.verdict env priv (s.users.get i).user.tariff = .skip) :
    ∃ s' : UserList, s.applyChanges env priv req = some (true, s') ∧
      s'.users.map UserRecord.properties = (s.users.map UserRecord.properties).set i
        (updateAll env (s.users.get i).user.tariff (s.users.get i).properties
          (Change.made env priv (s.users.get i).user.tariff req.changes)) := by
  obtain ⟨hfound, hallowed, ips, hips, hfree⟩ := h
  obtain ⟨u, hu, hproperties⟩ := applyAll_of_accepted env priv (s.users.get i).user.tariff
    (sorted_changes req) (s.users.get i) (.inl rfl) haccepted
  simp only [applyChanges, hfound, hallowed, hips, hfree, Bool.false_eq_true, if_false]
  split
  next hnone =>
    cases hu.symm.trans hnone
  next v hv =>
    cases hu.symm.trans hv
  next v hv =>
    obtain rfl : u = v := by simpa using hu.symm.trans hv
    refine ⟨_, rfl, ?_⟩
    change (s.users.set i { u with user := u.user.writeStat env }).map UserRecord.properties = _
    rw [List.map_set, properties_writeStat, hproperties]
    rfl

end Stargazer
