import Stargazer.Settings.Text
import Stargazer.Users.NewDay

set_option relaxedAutoImplicit false
set_option autoImplicit false

/-!
# The settings in force

The server reads its settings when it starts, and again whenever it gets a `SIGHUP`; settings that are
not accepted do not replace those in force.  What holds of the settings in force is shown along the whole
run.

## Main definitions

* `Stargazer.SettingsImpl.InForce` — the settings after a start and some signals.
* `Stargazer.SettingsImpl.InRange` — the ranges of the numbers.
* `Stargazer.SettingsImpl.daySettings`, `Stargazer.SettingsImpl.settings` — what the other parts of the
  server see of the settings.

## Main results

* `Stargazer.SettingsImpl.InForce.in_range` — the numbers in force are in their ranges.
* `Stargazer.SettingsImpl.InForce.of_same_file` — a file that does not change, read again and again.
-/

namespace Stargazer

open Fields (changesOf)

namespace SettingsImpl

variable {env : SettingsEnv} {s s' : SettingsImpl}

/-- The settings in force when the server has started and has got some signals; what is read each time
is a part of the run. -/
inductive InForce (cd : List Char) : List SettingsEnv → SettingsImpl → Prop
  | start {env : SettingsEnv} {s : SettingsImpl} (h : (init cd).readSettings env = some (s, 0)) :
    InForce cd [env] s
  | hup {envs : List SettingsEnv} {s : SettingsImpl} {env : SettingsEnv} {s' : SettingsImpl}
    (h : InForce cd envs s) (hreload : s.reload env = some s') : InForce cd (envs ++ [env]) s'

theorem InForce.ne_nil {cd : List Char} {envs : List SettingsEnv} (h : InForce cd envs s) : envs ≠ [] := by
  cases h with
  | start h => exact List.cons_ne_nil _ _
  | hup h hreload => simp

/-- When a file is accepted, and what the settings are then. -/
theorem readSettings_eq_zero_iff :
    s.readSettings env = some (s', 0) ↔
      ∃ nodes, fileNodes env s.confFile = some (some nodes) ∧
        (∀ node ∈ nodes, (nodeChanges env.isDir node).isSome = true) ∧ nodes.countP isStoreModule ≤ 1 ∧
        fields.modifyAll { s with modulesSettings := [] } (nodes.flatMap (changesD env.isDir)) = s' := by
  rw [readSettings]
  show (fileNodes env s.confFile).bind _ = _ ↔ _
  generalize fileNodes env s.confFile = file
  rcases file with _ | _ | nodes
  · refine iff_of_false (fun h => by cases h) ?_
    rintro ⟨nodes, h, -⟩
    cases h
  · refine iff_of_false (fun h => ?_) ?_
    · cases (Prod.mk.inj (Option.some.inj h)).2
    · rintro ⟨nodes, h, -⟩
      cases Option.some.inj h
  · rw [Option.bind_some]
    constructor
    · intro h
      obtain ⟨r, hread, rfl⟩ := (map_ofReading_eq_iff _).mp h
      obtain ⟨haccepted, hcount, rfl⟩ := (readNodes_eq_ok_iff (by exact Nat.zero_le 1)).mp hread
      exact ⟨nodes, rfl, haccepted, (Nat.zero_add _).symm.trans_le hcount, rfl⟩
    · rintro ⟨nodes', h, haccepted, hcount, rfl⟩
      obtain rfl := Option.some.inj (Option.some.inj h)
      refine (map_ofReading_eq_iff _).mpr ⟨_, (readNodes_eq_ok_iff (by exact Nat.zero_le 1)).mpr
        ⟨haccepted, (Nat.zero_add _).trans_le hcount, rfl⟩, rfl⟩

/-! ## Ranges -/

/-- The numbers are in their ranges. -/
structure InRange (s : SettingsImpl) : Prop where
  statWritePeriod : 1 ≤ s.number .statWritePeriod ∧ s.number .statWritePeriod ≤ 1440
  executersNum : 1 ≤ s.number .executersNum ∧ s.number .executersNum ≤ 1024
  dayFee : s.number .dayFee ≤ 31
  dayResetTraff : s.number .dayResetTraff ≤ 31
  feeChargeType : s.number .feeChargeType ≤ 3

theorem inRange_init (cd : List Char) : (init cd).InRange :=
  ⟨(by decide : (1 : BitVec 32) ≤ 10 ∧ (10 : BitVec 32) ≤ 1440),
    (by decide : (1 : BitVec 32) ≤ 1 ∧ (1 : BitVec 32) ≤ 1024), (by decide : (0 : BitVec 32) ≤ 31),
    (by decide : (0 : BitVec 32) ≤ 31), (by decide : (0 : BitVec 32) ≤ 3)⟩

/-- What an option in a range sets is in the range. -/
theorem inRange_of_mem_changesD {isDir : List Char → Bool} {node : SettingsNode} {e : SettingsChange}
    {name : String} {f : SettingsNumber} {min max : BitVec 32}
    (hoption : (SettingsField.number f).option = rangeOption name f min max)
    (he : e ∈ changesD isDir node) (hf : e.1 = .number f) :
    ∃ v, e = setField (.number f) v ∧ min ≤ v ∧ v ≤ max := by
  have hname := (ownChange_of_mem_changesD he).1
  rw [hf] at hname
  have hof : optionOf node.name = some (rangeOption name f min max) := by
    rw [← hoption]
    exact optionOf_eq_some_iff.mpr ⟨SettingsField.option_mem _, hname⟩
  cases hchanges : nodeChanges isDir node with
  | none => simp [changesD, hchanges] at he
  | some changes =>
    rw [changesD, hchanges, Option.getD_some] at he
    obtain ⟨value, -, heq⟩ := Option.map_eq_some_iff.mp ((nodeChanges_eq_some_iff hof).mp hchanges)
    cases hparse : parseUnsignedInRange min max value with
    | none =>
      rw [hparse] at heq
      cases heq
    | some v =>
      rw [hparse] at heq
      obtain rfl := Except.ok.inj heq
      refine ⟨v, List.mem_singleton.mp he, ?_⟩
      rw [parseUnsignedInRange] at hparse
      split at hparse
      · cases hparse
      · split_ifs at hparse with hout
        obtain rfl := Option.some.inj hparse
        exact ⟨BitVec.not_lt.mp (not_or.mp hout).1, BitVec.not_lt.mp (not_or.mp hout).2⟩

/-- A number that was in its range is in its range after a file has been read. -/
theorem number_mem_range {name : String} {f : SettingsNumber} {min max : BitVec 32}
    (hoption : (SettingsField.number f).option = rangeOption name f min max)
    (hold : min ≤ s.number f ∧ s.number f ≤ max) (h : s.readSettings env = some (s', 0)) :
    min ≤ s'.number f ∧ s'.number f ≤ max := by
  obtain ⟨nodes, -, -, -, rfl⟩ := readSettings_eq_zero_iff.mp h
  have hvalue := fields.value_modifyAll (.number f) { s with modulesSettings := [] }
    (nodes.flatMap (changesD env.isDir))
  show min ≤ fields.value (.number f) _ ∧ fields.value (.number f) _ ≤ max
  rw [hvalue]
  refine List.foldlRecOn (motive := fun v : BitVec 32 => min ≤ v ∧ v ≤ max) _ _ hold fun v hv g hg => ?_
  obtain ⟨e, he, hg⟩ := List.mem_filterMap.mp hg
  obtain ⟨node, -, he⟩ := List.mem_flatMap.mp he
  split_ifs at hg with hf
  obtain ⟨w, rfl, hw⟩ := inRange_of_mem_changesD hoption he hf
  obtain rfl := Option.some.inj hg
  exact hw

theorem InRange.readSettings (hs : s.InRange) (h : s.readSettings env = some (s', 0)) : s'.InRange := by
  have hzero (v : BitVec 32) : 0 ≤ v := by
    rw [BitVec.le_def]
    exact Nat.zero_le _
  exact ⟨number_mem_range rfl hs.statWritePeriod h, number_mem_range rfl hs.executersNum h,
    (number_mem_range (f := .dayFee) rfl ⟨hzero _, hs.dayFee⟩ h).2,
    (number_mem_range (f := .dayResetTraff) rfl ⟨hzero _, hs.dayResetTraff⟩ h).2,
    (number_mem_range (f := .feeChargeType) rfl ⟨hzero _, hs.feeChargeType⟩ h).2⟩

/-- What `NewDay` sees of the settings. -/
def daySettings (s : SettingsImpl) (h : s.InRange) : DaySettings where
  dayFee := (s.number .dayFee).toNat
  dayResetTraff := (s.number .dayResetTraff).toNat
  dayFeeIsLastDay := s.flag .dayFeeIsLastDay
  spreadFee := s.flag .spreadFee
  dayFee_le := h.dayFee
  dayResetTraff_le := h.dayResetTraff

/-- What the users and the counter see of the settings. -/
def settings (s : SettingsImpl) : Settings where
  statWritePeriod := ((s.number .statWritePeriod * 60).toNat : ℤ)
  freeMbAllowInet := s.flag .freeMbAllowInet
  showFeeInCash := s.flag .showFeeInCash
  writeFreeMbTraffCost := s.flag .writeFreeMbTraffCost
  disableSessionLog := s.flag .disableSessionLog
  reconnectOnTariffChange := s.flag .reconnectOnTariffChange
  feeChargeType := (s.number .feeChargeType).toNat
  fullFee := s.flag .fullFee

/-- `SIGHUP` has given the settings in the file, or has left them as they were. -/
theorem reload_eq_some (h : s.reload env = some s') : s' = s ∨ s.readSettings env = some (s', 0) := by
  obtain ⟨⟨t, ret⟩, hread, rfl⟩ := Option.map_eq_some_iff.mp h
  rcases eq_or_ne ret 0 with rfl | hret
  · exact .inr hread
  · exact .inl (if_pos hret)

theorem InForce.inRange {cd : List Char} {envs : List SettingsEnv} (h : InForce cd envs s) :
    s.InRange := by
  induction h with
  | start h => exact (inRange_init cd).readSettings h
  | hup h hreload ih =>
    rcases reload_eq_some hreload with rfl | hread
    · exact ih
    · exact ih.readSettings hread

/-- **The settings in force are in their ranges**, whatever the files say that are read at the start and
after the signals: the days `NewDay` asks for are days of a month or 0, the statistics are written once
a minute at least and once a day at most, and the kind of fee is one of the four there are.

**Proof sketch.** An option that is out of its range makes the whole file be refused, and a file that
does not name it leaves it as it was. -/
theorem InForce.in_range {cd : List Char} {envs : List SettingsEnv} (h : InForce cd envs s) :
    ∃ hs : s.InRange, (s.daySettings hs).dayFee ≤ 31 ∧ (s.daySettings hs).dayResetTraff ≤ 31 ∧
      60 ≤ s.settings.statWritePeriod ∧ s.settings.statWritePeriod ≤ 24 * 60 * 60 ∧
      s.settings.feeChargeType ≤ 3 ∧ 1 ≤ (s.number .executersNum).toNat ∧
      (s.number .executersNum).toNat ≤ 1024 := by
  have hs := h.inRange
  obtain ⟨hlow, hhigh⟩ := hs.statWritePeriod
  rw [BitVec.le_def] at hlow hhigh
  have hperiod : (s.number .statWritePeriod * 60).toNat = (s.number .statWritePeriod).toNat * 60 := by
    rw [BitVec.toNat_mul]
    have hsixty : (60 : BitVec 32).toNat = 60 := rfl
    have hmax : (1440 : BitVec 32).toNat = 1440 := rfl
    rw [hsixty, Nat.mod_eq_of_lt (by omega)]
  have hone : (1 : BitVec 32).toNat = 1 := rfl
  have hmax : (1440 : BitVec 32).toNat = 1440 := rfl
  refine ⟨hs, hs.dayFee, hs.dayResetTraff, ?_, ?_, hs.feeChargeType, hs.executersNum.1, hs.executersNum.2⟩
  · show (60 : ℤ) ≤ ((s.number .statWritePeriod * 60).toNat : ℤ)
    omega
  · show ((s.number .statWritePeriod * 60).toNat : ℤ) ≤ 24 * 60 * 60
    omega

/-! ## A file that does not change -/

/-- `ScriptParams` adds the values of its node. -/
theorem scriptParams_of_mem_changesD {isDir : List Char → Bool} {node : SettingsNode} {e : SettingsChange}
    (he : e ∈ changesD isDir node) (hf : e.1 = .scriptParams) :
    e = ⟨.scriptParams, (· ++ node.values)⟩ := by
  have hname := (ownChange_of_mem_changesD he).1
  rw [hf] at hname
  have hof : optionOf node.name = some scriptParamsOption :=
    optionOf_eq_some_iff.mpr ⟨SettingsField.option_mem .scriptParams, hname⟩
  cases hchanges : nodeChanges isDir node with
  | none => simp [changesD, hchanges] at he
  | some changes =>
    rw [changesD, hchanges, Option.getD_some] at he
    obtain rfl := Except.ok.inj (Option.some.inj ((nodeChanges_eq_some_iff hof).mp hchanges))
    exact List.mem_singleton.mp he

theorem foldl_append_eq (changes : List (List (List Char) → List (List Char)))
    (h : ∀ g ∈ changes, ∃ vs, g = (· ++ vs)) :
    ∃ added, ∀ ps, changes.foldl (fun v g => g v) ps = ps ++ added := by
  induction changes with
  | nil => exact ⟨[], fun ps => (List.append_nil ps).symm⟩
  | cons g changes ih =>
    obtain ⟨vs, rfl⟩ := h g List.mem_cons_self
    obtain ⟨added, hadded⟩ := ih fun g hg => h g (List.mem_cons_of_mem _ hg)
    refine ⟨vs ++ added, fun ps => ?_⟩
    rw [List.foldl_cons, hadded, List.append_assoc]

/-- What a file does to settings that are accepted: it sets fields, and it adds script parameters. -/
structure Effect (env : SettingsEnv) (confDir : List Char) (values : SettingsImpl → SettingsImpl)
    (added : List (List Char)) : Prop where
  accepts : ∀ t : SettingsImpl, t.confDir = confDir → t.readSettings env = some (values t, 0)
  confDir : ∀ t : SettingsImpl, (values t).confDir = t.confDir
  again : ∀ t u : SettingsImpl, ∀ f, f ≠ .scriptParams → u.value f = (values t).value f →
    (values u).value f = (values t).value f
  scriptParams : ∀ t : SettingsImpl, (values t).scriptParams = t.scriptParams ++ added

/-- Every file that is accepted has an effect that does not depend on the settings before. -/
theorem exists_effect (h : s.readSettings env = some (s', 0)) :
    ∃ values added, Effect env s.confDir values added ∧ s' = values s := by
  obtain ⟨nodes, hfile, haccepted, hcount, rfl⟩ := readSettings_eq_zero_iff.mp h
  have hown (f : SettingsField) (g : f.Value → f.Value)
      (hg : g ∈ changesOf f (nodes.flatMap (changesD env.isDir))) :
      ∃ node e, e ∈ changesD env.isDir node ∧ ∃ hf : e.1 = f, hf ▸ e.2 = g := by
    obtain ⟨e, he, hg⟩ := List.mem_filterMap.mp hg
    obtain ⟨node, -, he⟩ := List.mem_flatMap.mp he
    split_ifs at hg with hf
    exact ⟨node, e, he, hf, Option.some.inj hg⟩
  have hvalue (t : SettingsImpl) (f : SettingsField) := fields.value_modifyAll f
    { t with modulesSettings := [] } (nodes.flatMap (changesD env.isDir))
  obtain ⟨added, hadded⟩ := foldl_append_eq
    (changesOf SettingsField.scriptParams (nodes.flatMap (changesD env.isDir))) fun g hg => by
      obtain ⟨node, e, he, hf, rfl⟩ := hown _ _ hg
      obtain rfl := scriptParams_of_mem_changesD he hf
      exact ⟨node.values, rfl⟩
  refine ⟨fun t => fields.modifyAll { t with modulesSettings := [] } (nodes.flatMap (changesD env.isDir)),
    added, ⟨fun t ht => ?_, fun t => (modifyAll_other _ _).2, fun t u f hf hu => ?_, fun t => ?_⟩, rfl⟩
  · exact readSettings_eq_zero_iff.mpr ⟨nodes, by rw [← hfile, confFile, confFile, ht], haccepted, hcount, rfl⟩
  · rcases eq_or_ne f .modulesSettings with rfl | hmodules
    · exact (hvalue u .modulesSettings).trans (hvalue t .modulesSettings).symm
    · have hkept (v : SettingsImpl) : fields.value f { v with modulesSettings := [] } = v.value f := by
        cases f <;> first
          | rfl
          | exact absurd rfl hmodules
      have hconst : ∀ g ∈ changesOf f (nodes.flatMap (changesD env.isDir)), ∃ v, g = fun _ => v := by
        intro g hg
        obtain ⟨node, ⟨f', g'⟩, he, rfl, rfl⟩ := hown f g hg
        obtain ⟨v, heq⟩ := (ownChange_of_mem_changesD he).2 hf hmodules
        exact ⟨v, eq_of_heq (Sigma.mk.inj heq).2⟩
      have hu' := hvalue u f
      rw [hkept, hu] at hu'
      calc fields.value f (fields.modifyAll { u with modulesSettings := [] } _)
          = (changesOf f (nodes.flatMap (changesD env.isDir))).foldl (fun v g => g v)
              (fields.value f (fields.modifyAll { t with modulesSettings := [] } _)) := hu'
        _ = fields.value f (fields.modifyAll { t with modulesSettings := [] } _) := by
            rw [hvalue t f]
            exact Fields.foldl_foldl_of_const hconst _
  · exact (hvalue t .scriptParams).trans (hadded _)

/-- A file that has been accepted is accepted again. -/
theorem InForce.exists_of_same_file {cd : List Char} {s₀ : SettingsImpl}
    (hstart : (init cd).readSettings env = some (s₀, 0)) (n : ℕ) :
    ∃ s, s.confDir = (init cd).confDir ∧ InForce cd (List.replicate (n + 1) env) s := by
  obtain ⟨values, added, heffect, rfl⟩ := exists_effect hstart
  induction n with
  | zero => exact ⟨_, heffect.confDir _, .start hstart⟩
  | succ n ih =>
    obtain ⟨s, hdir, hs⟩ := ih
    have hreload : s.reload env = some (values s) := by
      rw [reload, heffect.accepts s hdir, Option.map_some, if_neg (by simp)]
    refine ⟨values s, (heffect.confDir s).trans hdir, ?_⟩
    rw [List.replicate_succ']
    exact hs.hup hreload

/-- **A file that does not change.** However often the server is told to read it again, every field stays
what it was after the start, but for the script parameters, which are added once more each time.

**Proof sketch.** What a file does to the settings does not depend on them, and to set a field twice is to
set it once. -/
theorem InForce.of_same_file {cd : List Char} {s₀ : SettingsImpl} {n : ℕ}
    (hstart : (init cd).readSettings env = some (s₀, 0)) (h : InForce cd (List.replicate (n + 1) env) s) :
    (∀ f, f ≠ .scriptParams → s.value f = s₀.value f) ∧
      s.scriptParams = (List.replicate (n + 1) s₀.scriptParams).flatten := by
  obtain ⟨values, added, heffect, rfl⟩ := exists_effect hstart
  have hadded : (values (init cd)).scriptParams = added := heffect.scriptParams (init cd)
  rw [hadded]
  suffices hrun : s.confDir = (init cd).confDir ∧
      (∀ f, f ≠ .scriptParams → s.value f = (values (init cd)).value f) ∧
      s.scriptParams = (List.replicate (n + 1) added).flatten from hrun.2
  induction n generalizing s with
  | zero =>
    generalize henvs : List.replicate (0 + 1) env = envs at h
    cases h with
    | start h =>
      obtain rfl := (List.cons.inj henvs).1
      obtain ⟨rfl, -⟩ := Prod.mk.inj (Option.some.inj (h.symm.trans hstart))
      exact ⟨heffect.confDir _, fun _ _ => rfl, by simpa using hadded⟩
    | hup h hreload =>
      have hlen := congrArg List.length henvs
      rw [List.length_append, List.length_replicate, List.length_singleton] at hlen
      exact absurd (List.length_eq_zero_iff.mp (by omega)) h.ne_nil
  | succ n ih =>
    generalize henvs : List.replicate (n + 1 + 1) env = envs at h
    cases h with
    | start h => cases (List.cons.inj henvs).2
    | hup h hreload =>
      rw [List.replicate_succ'] at henvs
      obtain ⟨rfl, henv⟩ := List.append_inj' henvs rfl
      obtain rfl := (List.cons.inj henv).1
      obtain ⟨hdir, hvalues, hparams⟩ := ih h
      rw [reload, heffect.accepts _ hdir, Option.map_some, if_neg (by simp)] at hreload
      obtain rfl := Option.some.inj hreload
      refine ⟨(heffect.confDir _).trans hdir, fun f hf => heffect.again _ _ f hf (hvalues f hf), ?_⟩
      rw [heffect.scriptParams, hparams, List.replicate_succ' (n := n + 1), List.flatten_append,
        List.flatten_singleton]

/-- A file with script parameters. -/
def Sample.withParams : Outline := .option "ScriptParams".toList [['a'], ['b']] Sample.first

theorem Sample.exists_start :
    ∃ s₀, (init []).readSettings (Sample.env withParams) = some (s₀, 0) ∧
      s₀.scriptParams = [['a'], ['b']] := by
  have hholds : Holds (Sample.env withParams) (init []) withParams := ⟨by decide +kernel, _, rfl, rfl⟩
  have hread : ((init []).readSettings (Sample.env withParams)).map (fun r => (r.2, r.1.scriptParams)) =
      some (0, [['a'], ['b']]) := by
    rw [readSettings_text hholds]
    decide +kernel
  obtain ⟨⟨s₀, ret⟩, hread, heq⟩ := Option.map_eq_some_iff.mp hread
  obtain ⟨rfl, hparams⟩ := Prod.mk.inj heq
  exact ⟨s₀, hread, hparams⟩

/-- A start and a signal. -/
theorem InForce.in_range_withParams :
    ∃ s, InForce [] [Sample.env Sample.withParams, Sample.env Sample.withParams] s ∧ s.InRange := by
  obtain ⟨s₀, hstart, -⟩ := Sample.exists_start
  obtain ⟨s, -, hs⟩ := InForce.exists_of_same_file hstart 1
  obtain ⟨hrange, -⟩ := hs.in_range
  exact ⟨s, hs, hrange⟩

/-- A start and two signals. -/
theorem InForce.of_same_file_withParams :
    ∃ s, InForce [] (List.replicate 3 (Sample.env Sample.withParams)) s ∧
      s.scriptParams = [['a'], ['b'], ['a'], ['b'], ['a'], ['b']] := by
  obtain ⟨s₀, hstart, hparams⟩ := Sample.exists_start
  obtain ⟨s, -, hs⟩ := InForce.exists_of_same_file hstart 2
  refine ⟨s, hs, ?_⟩
  rw [(InForce.of_same_file hstart hs).2, hparams]
  rfl

end SettingsImpl

end Stargazer
