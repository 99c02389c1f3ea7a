import Stargazer.Traffic.Rules

set_option relaxedAutoImplicit false
set_option autoImplicit false

/-!
# The direction of a packet

`TraffCounterImpl::DeterminateDir` (`traffcounter_impl.cpp`) looks for the first rule that matches the
destination of a packet and for the first one that matches its source, in one loop over the rules.  Each
of the two searches has its own variables.  `Start` and `Reload` fill the list of rules from a file; a
file that changes between the two times `Reload` reads it leaves a part of the rules behind, without the
last one.

## Main definitions

* `Stargazer.determinateDirs` — the function of the source.
* `Stargazer.Rule.Matches` — a rule matches one end of a packet.
* `Stargazer.IsFirstDir` — the direction of the first rule that matches.
* `Stargazer.RulesState` — the list of rules of a counter that is started and reloaded.

## Main results

* `Stargazer.determinateDirs_eq` — the two searches do not disturb each other.
* `Stargazer.isFirstDir_determinateDir` — what is found is the first match.
* `Stargazer.RuleFile.readRules_ok` — the rules of a file that was read.
* `Stargazer.determinateDir_first_match` — all of this.
-/

namespace Stargazer

/-! ## The functions of the source -/

/-- The conversion of `uint32_t` to `int`. -/
def dirToInt (dir : ℕ) : ℤ := (BitVec.ofNat 32 dir).toInt

/-- The variables of `DeterminateDir` for one end of the packet. -/
structure DirSearch where
  /-- `addrMatchU` or `addrMatchD`. -/
  addrMatch : Bool := false
  /-- `portMatchU` or `portMatchD`. -/
  portMatch : Bool := false
  /-- `foundU` or `foundD`. -/
  found : Bool := false
  /-- `*dirU` or `*dirD`. -/
  dir : ℤ

/-- The half of the loop body for one end. -/
def DirSearch.visit (s : DirSearch) (ln : Rule) (proto : BitVec 8) (ip : IP) (port : BitVec 16) :
    DirSearch :=
  if s.found then s
  else
    let s := { s with portMatch := ln.portMatch proto port }
    let s := { s with addrMatch := (ip &&& ln.mask) == ln.ip }
    if !s.found && s.addrMatch && s.portMatch then { s with found := true, dir := dirToInt ln.dir } else s

/-- The loop of `DeterminateDir`. -/
def dirLoop (packet : RawPacket) : List Rule → DirSearch → DirSearch → DirSearch × DirSearch
  | [], u, d => (u, d)
  | ln :: rules, u, d =>
    dirLoop packet rules (u.visit ln packet.proto packet.dstIP packet.getDstPort)
      (d.visit ln packet.proto packet.srcIP packet.getSrcPort)

/-- `TraffCounterImpl::DeterminateDir`; `dirU` and `dirD` are what was there before. -/
def determinateDirs (rules : List Rule) (packet : RawPacket) (dirU dirD : ℤ) : ℤ × ℤ :=
  match dirLoop packet rules { dir := dirU } { dir := dirD } with
  | (u, d) => (if !u.found then dirNum else u.dir, if !d.found then dirNum else d.dir)

/-- What there is of a counter: the rules, and `stopped`. -/
structure RulesState where
  rules : List Rule := []
  stopped : Bool := true

/-- What happens to it.  A file may be another one each time it is read, and `rul` is not initialised. -/
inductive RulesOp
  /-- `TraffCounterImpl::Start`. -/
  | start (file : Option (List Char)) (rul : Rule)
  /-- `TraffCounterImpl::Reload`. -/
  | reload (first second : Option (List Char)) (rul rul' : Rule)
  /-- `Run` begins or ends. -/
  | run (stopped : Bool)

/-- What the functions do to the rules. -/
def RulesState.step (s : RulesState) : RulesOp → RulesState
  | .start file rul =>
    if !s.stopped then s else { s with rules := (RuleFile.readRules false file rul s.rules).2 }
  | .reload first second rul rul' =>
    match RuleFile.readRules true first rul s.rules with
    | (true, rules) => { s with rules := rules }
    | (false, _) => { s with rules := (RuleFile.readRules false second rul' []).2 }
  | .run stopped => { s with stopped := stopped }

/-- The rules of a counter. -/
def rulesAfter (ops : List RulesOp) : List Rule := (ops.foldl RulesState.step {}).rules

/-! ## What is to be found -/

/-- The protocols of a rule. -/
def RuleProto.Covers : RuleProto → BitVec 8 → Prop
  | .tcp, proto => proto = 6
  | .udp, proto => proto = 17
  | .icmp, proto => proto = 1
  | .tcpUdp, proto => proto = 6 ∨ proto = 17
  | .all, _ => True

/-- **A rule matches** a protocol, an address and a port. -/
structure Rule.Matches (r : Rule) (proto : BitVec 8) (ip : IP) (port : BitVec 16) : Prop where
  addr : ip &&& r.mask = r.ip
  covers : r.proto.Covers proto
  /-- The port is only looked at for TCP and UDP. -/
  port : r.proto.hasPorts = true → r.port1.toNat ≤ port.toNat ∧ port.toNat ≤ r.port2.toNat

/-- **The direction of the first rule that matches**, or `DIR_NUM` if there is none. -/
def IsFirstDir (P : Rule → Prop) (rules : List Rule) (dir : ℕ) : Prop :=
  (∃ before r after, rules = before ++ r :: after ∧ (∀ r' ∈ before, ¬ P r') ∧ P r ∧ dir = r.dir) ∨
    ((∀ r ∈ rules, ¬ P r) ∧ dir = dirNum)

/-! ## The loop -/

theorem portMatch_iff (r : Rule) (proto : BitVec 8) (port : BitVec 16) :
    r.portMatch proto port = true ↔ r.proto.Covers proto ∧
      (r.proto.hasPorts = true → r.port1.toNat ≤ port.toNat ∧ port.toNat ≤ r.port2.toNat) := by
  have hrange : (decide (r.port1 ≤ port) && decide (port ≤ r.port2)) = true ↔
      r.port1.toNat ≤ port.toNat ∧ port.toNat ≤ r.port2.toNat := by
    rw [Bool.and_eq_true, decide_eq_true_iff, decide_eq_true_iff, BitVec.le_def, BitVec.le_def]
  unfold Rule.portMatch
  cases r.proto with
  | tcp => simp [RuleProto.Covers, RuleProto.hasPorts, ← hrange]
  | udp => simp [RuleProto.Covers, RuleProto.hasPorts, ← hrange]
  | icmp => simp [RuleProto.Covers, RuleProto.hasPorts]
  | tcpUdp => simp [RuleProto.Covers, RuleProto.hasPorts, ← hrange]
  | all => simp [RuleProto.Covers, RuleProto.hasPorts]

/-- **A rule matches** the remote end of a packet as the code says. -/
theorem matches_iff (r : Rule) (proto : BitVec 8) (ip : IP) (port : BitVec 16) :
    ((ip &&& r.mask) == r.ip && r.portMatch proto port) = true ↔ r.Matches proto ip port := by
  rw [Bool.and_eq_true, beq_iff_eq, portMatch_iff]
  constructor
  · rintro ⟨haddr, hcovers, hport⟩
    exact ⟨haddr, hcovers, hport⟩
  · rintro ⟨haddr, hcovers, hport⟩
    exact ⟨haddr, hcovers, hport⟩

/-- The end of a flow that a rule is compared with. -/
theorem matchesRemote_up_iff (r : Rule) (k : FlowKey) :
    r.matchesRemote k .up = true ↔ r.Matches k.proto k.dstIP k.dstPort := matches_iff _ _ _ _

theorem matchesRemote_down_iff (r : Rule) (k : FlowKey) :
    r.matchesRemote k .down = true ↔ r.Matches k.proto k.srcIP k.srcPort := matches_iff _ _ _ _

variable {P Q : Rule → Prop} {rules : List Rule} {dir : ℕ}

theorem isFirstDir_congr (h : ∀ r, P r ↔ Q r) : IsFirstDir P rules dir ↔ IsFirstDir Q rules dir := by
  rw [show P = Q from funext fun r => propext (h r)]

theorem IsFirstDir.hit {r : Rule} (h : P r) (rules : List Rule) : IsFirstDir P (r :: rules) r.dir :=
  .inl ⟨[], r, rules, rfl, fun r' hr' => (by cases hr'), h, rfl⟩

theorem IsFirstDir.miss {r : Rule} (h : ¬ P r) (hrest : IsFirstDir P rules dir) :
    IsFirstDir P (r :: rules) dir := by
  rcases hrest with ⟨before, r', after, rfl, hbefore, hr', hdir⟩ | ⟨hnone, hdir⟩
  · exact .inl ⟨r :: before, r', after, rfl, List.forall_mem_cons.mpr ⟨h, hbefore⟩, hr', hdir⟩
  · exact .inr ⟨List.forall_mem_cons.mpr ⟨h, hnone⟩, hdir⟩

/-- **What is found is the first match.** -/
theorem isFirstDir_determinateDir (rules : List Rule) (k : FlowKey) (d : Side) :
    IsFirstDir (fun r => r.matchesRemote k d = true) rules (determinateDir rules k d) := by
  induction rules with
  | nil => exact .inr ⟨fun r hr => (by cases hr), rfl⟩
  | cons r rules ih =>
    rw [determinateDir]
    by_cases h : r.matchesRemote k d = true
    · rw [if_pos h]
      exact .hit h rules
    · rw [if_neg h]
      exact ih.miss h

namespace DirSearch

/-- The visit to a rule, for one end. -/
def visitEnd (k : FlowKey) : Side → DirSearch → Rule → DirSearch
  | .up, s, ln => s.visit ln k.proto k.dstIP k.dstPort
  | .down, s, ln => s.visit ln k.proto k.srcIP k.srcPort

variable {s : DirSearch} (k : FlowKey) (d : Side) (ln : Rule)

theorem visitEnd_of_found (h : s.found = true) : visitEnd k d s ln = s := by
  cases d with
  | up => exact if_pos h
  | down => exact if_pos h

/-- A visit says whether the rule matches. -/
theorem visitEnd_of_not_found (h : s.found = false) :
    (visitEnd k d s ln).found = ln.matchesRemote k d ∧
      (ln.matchesRemote k d = true → (visitEnd k d s ln).dir = dirToInt ln.dir) := by
  have hvisit : ∀ proto ip port,
      (s.visit ln proto ip port).found = ((ip &&& ln.mask) == ln.ip && ln.portMatch proto port) ∧
        (((ip &&& ln.mask) == ln.ip && ln.portMatch proto port) = true →
          (s.visit ln proto ip port).dir = dirToInt ln.dir) := by
    intro proto ip port
    unfold visit
    rw [if_neg (by rw [h]; exact Bool.false_ne_true)]
    dsimp only
    rw [h, Bool.not_false, Bool.true_and]
    cases hmatch : (ip &&& ln.mask) == ln.ip && ln.portMatch proto port with
    | true => exact ⟨rfl, fun _ => rfl⟩
    | false => exact ⟨rfl, fun hfalse => (by cases hfalse)⟩
  cases d with
  | up => exact hvisit _ _ _
  | down => exact hvisit _ _ _

/-- What `DeterminateDir` leaves at the end. -/
def result (s : DirSearch) : ℤ := if !s.found then dirNum else s.dir

theorem foldl_of_found (rules : List Rule) (h : s.found = true) : rules.foldl (visitEnd k d) s = s := by
  induction rules with
  | nil => rfl
  | cons r rules ih => rw [List.foldl_cons, visitEnd_of_found k d r h, ih]

/-- **One search** finds the direction. -/
theorem result_foldl (rules : List Rule) (h : s.found = false) :
    (rules.foldl (visitEnd k d) s).result = dirToInt (determinateDir rules k d) := by
  induction rules generalizing s with
  | nil =>
    unfold result
    rw [List.foldl_nil, h]
    rfl
  | cons r rules ih =>
    obtain ⟨hfound, hdir⟩ := visitEnd_of_not_found k d r h
    rw [List.foldl_cons, determinateDir]
    by_cases hmatch : r.matchesRemote k d = true
    · rw [hmatch] at hfound
      rw [foldl_of_found k d rules hfound, if_pos hmatch, result, hfound]
      exact hdir hmatch
    · rw [if_neg hmatch]
      exact ih (hfound.trans (Bool.not_eq_true _ ▸ hmatch))

end DirSearch

/-- The loop is the two searches. -/
theorem dirLoop_eq (packet : RawPacket) (rules : List Rule) (u d : DirSearch) :
    dirLoop packet rules u d =
      (rules.foldl (DirSearch.visitEnd packet.key .up) u,
        rules.foldl (DirSearch.visitEnd packet.key .down) d) := by
  induction rules generalizing u d with
  | nil => rfl
  | cons r rules ih =>
    rw [dirLoop, ih]
    rfl

/-- **The two searches do not disturb each other.** -/
theorem determinateDirs_eq (rules : List Rule) (packet : RawPacket) (dirU dirD : ℤ) :
    determinateDirs rules packet dirU dirD =
      (dirToInt (determinateDir rules packet.key .up), dirToInt (determinateDir rules packet.key .down)) := by
  rw [determinateDirs, dirLoop_eq]
  dsimp only
  apply Prod.ext
  · exact DirSearch.result_foldl packet.key .up rules rfl
  · exact DirSearch.result_foldl packet.key .down rules rfl

/-! ## The rules of a file -/

namespace RuleFile

theorem findDir_le {td : List Char} {i : ℕ} (h : findDir td = some i) : i ≤ dirNum := by
  unfold findDir at h
  have hmem := List.mem_of_getLast? h
  have hrange := List.mem_range.mp (List.mem_filter.mp hmem).1
  omega

/-- `ParseAddress` does not change the direction. -/
theorem dir_parseAddress (ta : List Char) (rule : Rule) : (parseAddress ta rule).result.2.dir = rule.dir := by
  rw [result_parseAddress]
  split_ifs
  · unfold convert
    split
    · dsimp only
      split_ifs <;> rfl
    · rfl
  · rfl

/-- A rule that is read has one of the directions. -/
theorem dir_readLine {rul r : Rule} {str : List Char} (h : readLine rul str = .rule r) : r.dir ≤ dirNum := by
  unfold readLine at h
  split_ifs at h
  cases hwords : scanWords str with
  | none =>
    rw [hwords] at h
    cases h
  | some w =>
    obtain ⟨tp, ta, td⟩ := w
    rw [hwords] at h
    dsimp only at h
    cases hproto : findProto tp with
    | none =>
      rw [hproto] at h
      cases h
    | some proto =>
      cases hdir : findDir td with
      | none =>
        rw [hproto, hdir] at h
        cases h
      | some dir =>
        rw [hproto, hdir] at h
        dsimp only at h
        split_ifs at h
        obtain rfl := LineResult.rule.inj h
        rw [dir_parseAddress]
        exact findDir_le hdir

/-- **The loop of `ReadRules`** adds rules with directions, and the last one if it comes to the end. -/
theorem readLines_spec (rul : Rule) (rules : List Rule) (lines : List (List Char)) :
    ∃ new : List Rule, (∀ r ∈ new, r.dir ≤ dirNum) ∧
      (readLines false rul rules lines = (true, rules ++ new) ∨
        readLines false rul rules lines = (false, rules ++ new ++ [lastRule])) := by
  induction lines generalizing rul rules with
  | nil =>
    refine ⟨[], fun r hr => (by cases hr), .inr ?_⟩
    rw [List.append_nil]
    rfl
  | cons str lines ih =>
    unfold readLines
    cases hline : readLine rul str with
    | skipped => exact ih rul rules
    | failed =>
      refine ⟨[], fun r hr => (by cases hr), .inl ?_⟩
      rw [List.append_nil]
    | rule r =>
      obtain ⟨new, hnew, heq⟩ := ih r (rules ++ [r])
      refine ⟨r :: new, List.forall_mem_cons.mpr ⟨dir_readLine hline, hnew⟩, ?_⟩
      rw [List.append_assoc rules [r] new, List.singleton_append] at heq
      exact heq

theorem readLines_test (rul : Rule) (rules : List Rule) (lines : List (List Char)) :
    (readLines true rul rules lines).2 = rules := by
  induction lines generalizing rul with
  | nil => rfl
  | cons str lines ih =>
    rw [readLines]
    cases readLine rul str with
    | skipped => exact ih rul
    | failed => rfl
    | rule r => exact ih r

/-- A test leaves the rules as they are. -/
theorem readRules_test (file : Option (List Char)) (rul : Rule) (rules : List Rule) :
    (readRules true file rul rules).2 = rules := by
  cases file with
  | none => rfl
  | some text => exact readLines_test rul rules _

/-- **The rules after a file was read.** -/
theorem readRules_spec (file : Option (List Char)) (rul : Rule) (rules : List Rule) :
    ∃ new : List Rule, (∀ r ∈ new, r.dir ≤ dirNum) ∧
      (readRules false file rul rules = (true, rules ++ new) ∨
        readRules false file rul rules = (false, rules ++ new ++ [lastRule])) := by
  cases file with
  | none => exact ⟨[], fun r hr => (by cases hr), .inl (by rw [List.append_nil]; rfl)⟩
  | some text => exact readLines_spec rul rules _

/-- **After a success** the rules end with the last one, behind those of the file. -/
theorem readRules_ok {file : Option (List Char)} {rul : Rule} {rules rules' : List Rule}
    (h : readRules false file rul rules = (false, rules')) :
    ∃ new : List Rule, (∀ r ∈ new, r.dir ≤ dirNum) ∧ rules' = rules ++ new ++ [lastRule] := by
  obtain ⟨new, hnew, heq | heq⟩ := readRules_spec file rul rules
  · cases heq.symm.trans h
  · exact ⟨new, hnew, (Prod.mk.inj (h.symm.trans heq)).2⟩

/-- The last rule matches everything. -/
theorem matches_lastRule (proto : BitVec 8) (ip : IP) (port : BitVec 16) :
    lastRule.Matches proto ip port where
  addr := BitVec.and_zero
  covers := trivial
  port h := (by cases h)

/-- The directions stay in their range when a file is read. -/
theorem dir_readRules {test : Bool} {file : Option (List Char)} {rul : Rule} {rules : List Rule}
    (h : ∀ r ∈ rules, r.dir ≤ dirNum) : ∀ r ∈ (readRules test file rul rules).2, r.dir ≤ dirNum := by
  cases test with
  | true =>
    rw [readRules_test]
    exact h
  | false =>
    obtain ⟨new, hnew, heq | heq⟩ := readRules_spec file rul rules
    · rw [heq]
      exact List.forall_mem_append.mpr ⟨h, hnew⟩
    · rw [heq]
      refine List.forall_mem_append.mpr ⟨List.forall_mem_append.mpr ⟨h, hnew⟩, ?_⟩
      exact List.forall_mem_singleton.mpr (Nat.le_refl _)

end RuleFile

/-! ## The directions of a counter -/

/-- **A step keeps the directions in their range.** -/
theorem RulesState.dir_step {s : RulesState} (h : ∀ r ∈ s.rules, r.dir ≤ dirNum) (op : RulesOp) :
    ∀ r ∈ (s.step op).rules, r.dir ≤ dirNum := by
  cases op with
  | start file rul =>
    unfold step
    split_ifs
    · exact h
    · exact RuleFile.dir_readRules h
  | reload first second rul rul' =>
    dsimp only [step]
    have htest := RuleFile.readRules_test first rul s.rules
    cases hread : RuleFile.readRules true first rul s.rules with
    | mk failed rules =>
      rw [hread] at htest
      obtain rfl : rules = s.rules := htest
      cases failed with
      | true => exact h
      | false => exact RuleFile.dir_readRules (List.forall_mem_nil _)
  | run stopped => exact h

/-- The rules of a counter have the directions of the program. -/
theorem dir_rulesAfter (ops : List RulesOp) : ∀ r ∈ rulesAfter ops, r.dir ≤ dirNum := by
  unfold rulesAfter
  induction ops using List.reverseRecOn with
  | nil => exact fun r hr => (by cases hr)
  | append_singleton ops op ih =>
    rw [List.foldl_append, List.foldl_cons, List.foldl_nil]
    exact RulesState.dir_step ih op

theorem determinateDir_le {rules : List Rule} (h : ∀ r ∈ rules, r.dir ≤ dirNum) (k : FlowKey) (d : Side) :
    determinateDir rules k d ≤ dirNum := by
  rcases isFirstDir_determinateDir rules k d with ⟨before, r, after, rfl, -, -, hdir⟩ | ⟨-, hdir⟩
  · rw [hdir]
    exact h r (List.mem_append_right before List.mem_cons_self)
  · exact hdir.le

/-- A direction of the program is not changed by the conversion. -/
theorem dirToInt_eq {dir : ℕ} (h : dir ≤ dirNum) : dirToInt dir = dir := by
  unfold dirToInt
  have hten : dir ≤ 10 := h
  have hlt : dir < 2 ^ 32 := by omega
  have hval : (BitVec.ofNat 32 dir).toNat = dir := by
    rw [BitVec.toNat_ofNat, Nat.mod_eq_of_lt hlt]
  rw [BitVec.toInt_eq_toNat_of_lt (by omega), hval]

/-- **Rule matching is first-match.**  Each end of a packet gets the direction of the first rule that
matches the other end, whatever the rules are.  A test of a file leaves the rules as they are, after a
success of `ReadRules` they end with one that matches everything, and in every state of a counter the
directions are those of the program. -/
theorem determinateDir_first_match :
    (∀ (rules : List Rule) (packet : RawPacket) (dirU dirD : ℤ), ∃ u d : ℕ,
      IsFirstDir (fun r => r.Matches packet.proto packet.dstIP packet.getDstPort) rules u ∧
        IsFirstDir (fun r => r.Matches packet.proto packet.srcIP packet.getSrcPort) rules d ∧
        determinateDirs rules packet dirU dirD = (dirToInt u, dirToInt d)) ∧
      (∀ file rul rules, (RuleFile.readRules true file rul rules).2 = rules) ∧
      (∀ file rul rules rules', RuleFile.readRules false file rul rules = (false, rules') →
        ∃ before last, rules' = before ++ [last] ∧ ∀ proto ip port, last.Matches proto ip port) ∧
      ∀ (ops : List RulesOp) (packet : RawPacket) (dirU dirD : ℤ), ∃ u d : ℕ, u ≤ dirNum ∧ d ≤ dirNum ∧
        determinateDirs (rulesAfter ops) packet dirU dirD = (↑u, ↑d) := by
  refine ⟨fun rules packet dirU dirD => ?_, RuleFile.readRules_test, fun file rul rules rules' h => ?_,
    fun ops packet dirU dirD => ?_⟩
  · refine ⟨_, _, ?_, ?_, determinateDirs_eq rules packet dirU dirD⟩
    · exact (isFirstDir_congr fun r => matchesRemote_up_iff r packet.key).mp
        (isFirstDir_determinateDir rules packet.key .up)
    · exact (isFirstDir_congr fun r => matchesRemote_down_iff r packet.key).mp
        (isFirstDir_determinateDir rules packet.key .down)
  · obtain ⟨new, -, rfl⟩ := RuleFile.readRules_ok h
    exact ⟨_, RuleFile.lastRule, rfl, RuleFile.matches_lastRule⟩
  · have hle := determinateDir_le (dir_rulesAfter ops) packet.key
    refine ⟨_, _, hle .up, hle .down, ?_⟩
    rw [determinateDirs_eq, dirToInt_eq (hle .up), dirToInt_eq (hle .down)]

end Stargazer
