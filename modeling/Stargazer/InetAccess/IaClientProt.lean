import Stargazer.Basic
import Stargazer.Lib.Run

set_option relaxedAutoImplicit false
set_option autoImplicit false

/-!
# The client of the InetAccess protocol

`IA_CLIENT_PROT` of `libs/ia/ia.cpp`, version 8 of the protocol.  Each turn of its loop first reads a
packet of the server, if there is one, and then looks at the phase it is in; requests to connect and
disconnect come from other threads at any time.  The functions that process packets set the phase
themselves, without a look at the phase they are called in.

A packet is what the client reads of it once it is decrypted.

## Main definitions

* `Stargazer.IaClientProt` — the client, with what it sends and calls back.
* `Stargazer.IaClientProt.netRecv`, `Stargazer.IaClientProt.phaseSwitch` — the two halves of a turn.
* `Stargazer.IaClientRun` — the client with a log of its turns.
* `Stargazer.IaClientRun.Follows` — the log follows the protocol.

## Main results

* `Stargazer.IaClientRun.follows_iff` — the runs that follow the protocol.
-/

namespace Stargazer

/-- `m_action`. -/
inductive IaClientAction
  /-- `IA_NONE`. -/
  | none
  /-- `IA_CONNECT`. -/
  | connect
  /-- `IA_DISCONNECT`. -/
  | disconnect
  deriving DecidableEq

/-- A packet of the server, as the client reads it. -/
inductive ServerPacket
  /-- `CONN_SYN_ACK`. -/
  | connSynAck (rnd userTimeOut aliveDelay : BitVec 32) (dirNames : List String)
  /-- `ALIVE_SYN`. -/
  | aliveSyn (rnd : BitVec 32) (stat : List (BitVec 8))
  /-- `DISCONN_SYN_ACK`. -/
  | disconnSynAck (rnd : BitVec 32)
  /-- `FIN`. -/
  | fin
  /-- `INFO_8`. -/
  | info (text : String) (infoType showTime : BitVec 8) (sendTime : BitVec 32)
  /-- `ERR`. -/
  | error (text : String)
  /-- Any other name. -/
  | other

/-- What the client sends, and what it calls back where a callback is set. -/
inductive IaOutput
  /-- `CONN_SYN`. -/
  | connSyn
  /-- `CONN_ACK`. -/
  | connAck (rnd : BitVec 32)
  /-- `ALIVE_ACK`. -/
  | aliveAck (rnd : BitVec 32)
  /-- `DISCONN_SYN`. -/
  | disconnSyn
  /-- `DISCONN_ACK`. -/
  | disconnAck (rnd : BitVec 32)
  /-- `m_pDirNameCb`. -/
  | dirName (dirNames : List String)
  /-- `m_pStatChangedCb`. -/
  | statChanged (stat : List (BitVec 8))
  /-- `m_pStatusChangedCb`. -/
  | statusChanged (status : ℤ)
  /-- `m_pInfoCb`. -/
  | info (text : String) (infoType showTime : BitVec 8) (sendTime : BitVec 32)
  /-- `m_pErrorCb`. -/
  | error (text : String)
  deriving DecidableEq

/-- `IA_CLIENT_PROT`. -/
structure IaClientProt where
  /-- `m_action`. -/
  action : IaClientAction := .none
  /-- `m_phase`. -/
  phase : ℕ := 1
  /-- `m_phaseTime`, the lower half of a number of milliseconds. -/
  phaseTime : BitVec 32 := 0
  /-- `m_firstConnect`. -/
  firstConnect : Bool := true
  /-- `m_reconnect`. -/
  reconnect : ℤ := 0
  /-- `m_userTimeout`, an `int`. -/
  userTimeout : BitVec 32 := 60
  /-- `m_aliveTimeout`, an `int`. -/
  aliveTimeout : BitVec 32 := 5
  /-- `m_rnd`. -/
  rnd : BitVec 32 := 0
  /-- `m_stat`. -/
  stat : List (BitVec 8) := []
  /-- What was sent and called back in this half of a turn. -/
  out : List IaOutput := []

namespace IaClientProt

/-- Send or call back. -/
def emit (o : IaOutput) (c : IaClientProt) : IaClientProt := { c with out := c.out ++ [o] }

/-- A new phase, at a time. -/
def enter (phase : ℕ) (now : BitVec 64) (c : IaClientProt) : IaClientProt :=
  { c with phase := phase, phaseTime := now.setWidth 32 }

/-! ## Packets -/

/-- `Process_CONN_SYN_ACK_8`, with `Prepare_CONN_ACK_8`. -/
def processConnSynAck (now : BitVec 64) (rnd userTimeOut aliveDelay : BitVec 32)
    (dirNames : List String) (c : IaClientProt) : IaClientProt :=
  let c := { c with rnd := rnd, userTimeout := userTimeOut, aliveTimeout := aliveDelay }
  let c := c.emit (.dirName dirNames)
  let c := { c with rnd := c.rnd + 1 }
  let c := c.emit (.connAck c.rnd)
  c.enter 3 now

/-- `Process_ALIVE_SYN_8`, with `Prepare_ALIVE_ACK_8`. -/
def processAliveSyn (now : BitVec 64) (rnd : BitVec 32) (stat : List (BitVec 8)) (c : IaClientProt) :
    IaClientProt :=
  let c := { c with rnd := rnd, stat := stat }
  let c := (c.emit (.statChanged stat)).emit (.statusChanged 1)
  let c := { c with rnd := c.rnd + 1 }
  let c := c.emit (.aliveAck c.rnd)
  { c with phaseTime := now.setWidth 32 }

/-- `Process_DISCONN_SYN_ACK_8`, with `Prepare_DISCONN_ACK_8`. -/
def processDisconnSynAck (now : BitVec 64) (rnd : BitVec 32) (c : IaClientProt) : IaClientProt :=
  let c := { c with rnd := rnd }
  let c := c.emit (.disconnAck (c.rnd + 1))
  c.enter 5 now

/-- `Process_FIN_8`. -/
def processFin (now : BitVec 64) (c : IaClientProt) : IaClientProt :=
  (c.enter 1 now).emit (.statusChanged 0)

/-- `Process_ERROR`. -/
def processError (now : BitVec 64) (text : String) (c : IaClientProt) : IaClientProt :=
  (c.emit (.error text)).enter 1 now

/-- `NetRecv`; there may be no packet. -/
def netRecv (now : BitVec 64) (packet : Option ServerPacket) (c : IaClientProt) : IaClientProt :=
  match packet with
  | none => c
  | some (.connSynAck rnd userTimeOut aliveDelay dirNames) =>
    c.processConnSynAck now rnd userTimeOut aliveDelay dirNames
  | some (.aliveSyn rnd stat) => c.processAliveSyn now rnd stat
  | some (.disconnSynAck rnd) => c.processDisconnSynAck now rnd
  | some .fin => c.processFin now
  | some (.info text infoType showTime sendTime) => c.emit (.info text infoType showTime sendTime)
  | some (.error text) => c.processError now text
  | some .other => c

/-! ## Phases -/

/-- More than a number of seconds have passed since the phase was entered; the difference is taken
as an `int`. -/
def timedOut (now : BitVec 64) (timeout : BitVec 32) (c : IaClientProt) : Bool :=
  decide (((now - c.phaseTime.signExtend 64).setWidth 32).toInt.tdiv 1000 > timeout.toInt)

/-- Back to phase 1. -/
def drop (now : BitVec 64) (c : IaClientProt) : IaClientProt :=
  (c.enter 1 now).emit (.statusChanged 0)

/-- Send `CONN_SYN`. -/
def sendConnSyn (now : BitVec 64) (c : IaClientProt) : IaClientProt :=
  ({ c with action := .none }.emit .connSyn).enter 2 now

/-- Send `DISCONN_SYN`. -/
def sendDisconnSyn (now : BitVec 64) (c : IaClientProt) : IaClientProt :=
  ({ c with action := .none }.emit .disconnSyn).enter 4 now

/-- The `switch` of `Run`.  The clock is read once for the timeout and again for the time of the
phase. -/
def phaseSwitch (now now' : BitVec 64) (c : IaClientProt) : IaClientProt :=
  match c.phase with
  | 1 =>
    let c := if c.action = .connect then c.sendConnSyn now' else c
    if c.reconnect ≠ 0 ∧ c.firstConnect = false then { c with action := .connect } else c
  | 2 =>
    let c := if c.timedOut now c.aliveTimeout then c.drop now' else c
    if c.action = .disconnect then c.sendDisconnSyn now' else c
  | 3 =>
    let c := if c.timedOut now c.userTimeout then { c.drop now' with firstConnect := false } else c
    if c.action = .disconnect then c.sendDisconnSyn now' else c
  | 4 | 5 =>
    let c := if c.timedOut now c.aliveTimeout then c.drop now' else c
    if c.action = .connect then c.sendConnSyn now' else c
  | _ => c

/-- `Connect`. -/
def connect (c : IaClientProt) : IaClientProt := { c with action := .connect }

/-- `Disconnect`. -/
def disconnect (c : IaClientProt) : IaClientProt :=
  { c with firstConnect := true, action := .disconnect }

end IaClientProt

/-! ## Runs -/

/-- A half of a turn: the phases before and after it, and what was sent and called back. -/
structure IaLogEntry where
  /-- The phase before. -/
  before : ℕ
  /-- What was sent and called back. -/
  out : List IaOutput
  /-- The phase after. -/
  after : ℕ

/-- The client, where its loop is, and the log of its turns, the latest first. -/
structure IaClientRun where
  /-- The client. -/
  client : IaClientProt := {}
  /-- The packet of this turn was read. -/
  atSwitch : Bool := false
  /-- The log. -/
  log : List IaLogEntry := []

/-- What happens to a client. -/
inductive IaClientEvent
  /-- `Connect`. -/
  | connect
  /-- `Disconnect`. -/
  | disconnect
  /-- `SetReconnect`. -/
  | setReconnect (r : ℤ)
  /-- The first half of a turn. -/
  | netRecv (packet : Option ServerPacket) (now : BitVec 64)
  /-- The second half of a turn. -/
  | phaseSwitch (now now' : BitVec 64)

namespace IaClientRun

/-- Write a half of a turn into the log. -/
def record (r : IaClientRun) (c : IaClientProt) (atSwitch : Bool) : IaClientRun :=
  { client := { c with out := [] }
    atSwitch := atSwitch
    log := ⟨r.client.phase, c.out, c.phase⟩ :: r.log }

/-- One event; the two halves of a turn alternate. -/
def step (r : IaClientRun) : IaClientEvent → Option IaClientRun
  | .connect => some { r with client := r.client.connect }
  | .disconnect => some { r with client := r.client.disconnect }
  | .setReconnect n => some { r with client := { r.client with reconnect := n } }
  | .netRecv packet now =>
    if r.atSwitch then none else some (r.record (r.client.netRecv now packet) true)
  | .phaseSwitch now now' =>
    if r.atSwitch then some (r.record (r.client.phaseSwitch now now') false) else none

/-- A half of a turn in which the protocol is followed. -/
structure Lawful (e : IaLogEntry) : Prop where
  /-- `CONN_ACK` is sent from phase 2 only. -/
  connAck : ∀ rnd, .connAck rnd ∈ e.out → e.before = 2
  /-- Phase 3 is entered from phase 2 only. -/
  connected : e.after = 3 → e.before ≠ 3 → e.before = 2
  /-- `DISCONN_ACK` is sent from phase 4 only. -/
  disconnAck : ∀ rnd, .disconnAck rnd ∈ e.out → e.before = 4
  /-- Phase 5 is entered from phase 4 only. -/
  disconnected : e.after = 5 → e.before ≠ 5 → e.before = 4
  /-- `ALIVE_ACK` is sent in phase 3 only. -/
  aliveAck : ∀ rnd, .aliveAck rnd ∈ e.out → e.before = 3

/-- The last of `CONN_SYN` and `DISCONN_SYN` that was sent is `CONN_SYN`. -/
def wanted : List IaLogEntry → Bool
  | [] => false
  | e :: log =>
    if .connSyn ∈ e.out then true else if .disconnSyn ∈ e.out then false else wanted log

/-- A client that has acted on a request to disconnect, and not on one to connect since, neither
sends `CONN_ACK` nor gets connected. -/
def NotStale (e : IaLogEntry) (log : List IaLogEntry) : Prop :=
  ((∃ rnd, .connAck rnd ∈ e.out) ∨ (e.after = 3 ∧ e.before ≠ 3)) → wanted log = true

/-- The log follows the protocol. -/
def FollowsLog : List IaLogEntry → Prop
  | [] => True
  | e :: log => Lawful e ∧ NotStale e log ∧ FollowsLog log

/-- The client has followed the protocol so far. -/
def Follows (r : IaClientRun) : Prop := FollowsLog r.log

/-- The packets that fit the phase they arrive in. -/
def InPhase (r : IaClientRun) : IaClientEvent → Prop
  | .netRecv (some (.connSynAck ..)) _ => r.client.phase = 2
  | .netRecv (some (.aliveSyn ..)) _ => r.client.phase = 3
  | .netRecv (some (.disconnSynAck _)) _ => r.client.phase = 4
  | _ => True

/-- What holds of the client in all runs: in phase 2 the last request was to connect. -/
structure Sound (r : IaClientRun) : Prop where
  /-- What was sent is in the log. -/
  out : r.client.out = []
  /-- In phase 2 the last request was to connect. -/
  wanted : r.client.phase = 2 → wanted r.log = true

/-! ## What a turn can do -/

/-- The client stays in its phase, or goes to phase 1 and says so. -/
def Idle (phase : ℕ) (c : IaClientProt) : Prop :=
  (c.out = [] ∧ c.phase = phase) ∨ (c.out = [.statusChanged 0] ∧ c.phase = 1)

/-- The client sends a request and goes to a phase. -/
def Asks (o : IaOutput) (phase : ℕ) (c : IaClientProt) : Prop :=
  (c.out = [o] ∨ c.out = [.statusChanged 0, o]) ∧ c.phase = phase

/-- A request is sent, or the client stays as it is. -/
theorem asks_of_idle {p : ℕ} {c : IaClientProt} (h : Idle p c) (now : BitVec 64) :
    Asks .connSyn 2 (c.sendConnSyn now) ∧ Asks .disconnSyn 4 (c.sendDisconnSyn now) := by
  rcases h with ⟨hout, -⟩ | ⟨hout, -⟩
  all_goals
    simp [Asks, IaClientProt.sendConnSyn, IaClientProt.sendDisconnSyn, IaClientProt.emit,
      IaClientProt.enter, hout]

/-- **What the `switch` can do**: the client stays in its phase or goes to phase 1, or it sends
`CONN_SYN` and goes to phase 2, or it sends `DISCONN_SYN` and goes to phase 4. -/
theorem phaseSwitch_cases (now now' : BitVec 64) {c : IaClientProt} (h : c.out = []) :
    Idle c.phase (c.phaseSwitch now now') ∨ Asks .connSyn 2 (c.phaseSwitch now now') ∨
      Asks .disconnSyn 4 (c.phaseSwitch now now') := by
  have hidle : Idle c.phase c := .inl ⟨h, rfl⟩
  have hdrop : Idle c.phase (c.drop now') := .inr ⟨by
    simp [IaClientProt.drop, IaClientProt.emit, IaClientProt.enter, h], rfl⟩
  -- the timeout comes first, and a request may follow in the same turn
  have hconn : ∀ c' : IaClientProt, Idle c.phase c' →
      Idle c.phase (if c'.action = .connect then c'.sendConnSyn now' else c') ∨
        Asks .connSyn 2 (if c'.action = .connect then c'.sendConnSyn now' else c') := by
    intro c' h'
    split_ifs
    · exact .inr (asks_of_idle h' now').1
    · exact .inl h'
  have hdisc : ∀ c' : IaClientProt, Idle c.phase c' →
      Idle c.phase (if c'.action = .disconnect then c'.sendDisconnSyn now' else c') ∨
        Asks .disconnSyn 4 (if c'.action = .disconnect then c'.sendDisconnSyn now' else c') := by
    intro c' h'
    split_ifs
    · exact .inr (asks_of_idle h' now').2
    · exact .inl h'
  have htimeout : ∀ t, Idle c.phase (if c.timedOut now t then c.drop now' else c) := by
    intro t
    split_ifs
    · exact hdrop
    · exact hidle
  unfold IaClientProt.phaseSwitch
  split
  · have h1 := hconn c hidle
    simp only
    generalize (if c.action = .connect then c.sendConnSyn now' else c) = c' at h1
    have h2 : Idle c.phase c' ∨ Asks .connSyn 2 c' ∨ Asks .disconnSyn 4 c' := by tauto
    split_ifs
    · exact h2
    · exact h2
  · rcases hdisc _ (htimeout c.aliveTimeout) with h' | h'
    · exact .inl h'
    · exact .inr (.inr h')
  · have h3 : Idle c.phase
        (if c.timedOut now c.userTimeout then { c.drop now' with firstConnect := false } else c) := by
      split_ifs
      · exact hdrop
      · exact hidle
    rcases hdisc _ h3 with h' | h'
    · exact .inl h'
    · exact .inr (.inr h')
  · rcases hconn _ (htimeout c.aliveTimeout) with h' | h'
    · exact .inl h'
    · exact .inr (.inl h')
  · rcases hconn _ (htimeout c.aliveTimeout) with h' | h'
    · exact .inl h'
    · exact .inr (.inl h')
  · exact .inl hidle

/-- The entries of the log in which the client neither answers nor changes to phase 3 or 5. -/
theorem lawful_of_quiet {e : IaLogEntry} (hc : ∀ rnd, IaOutput.connAck rnd ∉ e.out)
    (ha : ∀ rnd, IaOutput.aliveAck rnd ∉ e.out) (hd : ∀ rnd, IaOutput.disconnAck rnd ∉ e.out)
    (h : e.after = e.before ∨ (e.after ≠ 3 ∧ e.after ≠ 5)) (log : List IaLogEntry) :
    Lawful e ∧ NotStale e log := by
  refine ⟨⟨fun rnd hm => absurd hm (hc rnd), fun h3 hb => ?_, fun rnd hm => absurd hm (hd rnd),
    fun h5 hb => ?_, fun rnd hm => absurd hm (ha rnd)⟩, ?_⟩
  · rcases h with h | h
    · exact absurd (h.symm.trans h3) hb
    · exact absurd h3 h.1
  · rcases h with h | h
    · exact absurd (h.symm.trans h5) hb
    · exact absurd h5 h.2
  · rintro (⟨rnd, hm⟩ | ⟨h3, hb⟩)
    · exact absurd hm (hc rnd)
    · rcases h with h | h
      · exact absurd (h.symm.trans h3) hb
      · exact absurd h3 h.1

/-- An entry without a request leaves the last one the last one. -/
theorem wanted_cons_of_not_mem {e : IaLogEntry} {log : List IaLogEntry}
    (hc : IaOutput.connSyn ∉ e.out) (hd : IaOutput.disconnSyn ∉ e.out) :
    wanted (e :: log) = wanted log := by
  rw [wanted, if_neg hc, if_neg hd]

/-- An entry with `CONN_SYN`. -/
theorem wanted_cons_of_mem {e : IaLogEntry} {log : List IaLogEntry} (hc : IaOutput.connSyn ∈ e.out) :
    wanted (e :: log) = true := by
  rw [wanted, if_pos hc]

/-- **One event** keeps what holds in all runs. -/
theorem Sound.step {r r' : IaClientRun} {e : IaClientEvent} (h : r.Sound)
    (hs : r.step e = some r') : r'.Sound := by
  have hout := h.out
  cases e with
  | connect =>
    obtain rfl := Option.some.inj hs
    exact ⟨h.out, h.wanted⟩
  | disconnect =>
    obtain rfl := Option.some.inj hs
    exact ⟨h.out, h.wanted⟩
  | setReconnect n =>
    obtain rfl := Option.some.inj hs
    exact ⟨h.out, h.wanted⟩
  | netRecv packet now =>
    simp only [IaClientRun.step] at hs
    split_ifs at hs
    obtain rfl := Option.some.inj hs
    refine ⟨rfl, fun h2 => ?_⟩
    have hquiet : IaOutput.connSyn ∉ (r.client.netRecv now packet).out ∧
        IaOutput.disconnSyn ∉ (r.client.netRecv now packet).out := by
      unfold IaClientProt.netRecv
      split <;>
        simp [IaClientProt.processConnSynAck, IaClientProt.processAliveSyn,
          IaClientProt.processDisconnSynAck, IaClientProt.processFin, IaClientProt.processError,
          IaClientProt.emit, IaClientProt.enter, hout]
    have hphase : (r.client.netRecv now packet).phase = 2 → r.client.phase = 2 := by
      unfold IaClientProt.netRecv
      split <;>
        simp [IaClientProt.processConnSynAck, IaClientProt.processAliveSyn,
          IaClientProt.processDisconnSynAck, IaClientProt.processFin, IaClientProt.processError,
          IaClientProt.emit, IaClientProt.enter]
    simp only [record]
    rw [wanted_cons_of_not_mem hquiet.1 hquiet.2]
    exact h.wanted (hphase h2)
  | phaseSwitch now now' =>
    simp only [IaClientRun.step] at hs
    split_ifs at hs
    obtain rfl := Option.some.inj hs
    refine ⟨rfl, fun h2 => ?_⟩
    simp only [record] at h2 ⊢
    rcases phaseSwitch_cases now now' hout with (⟨ho, hp⟩ | ⟨ho, hp⟩) | ⟨ho, hp⟩ | ⟨ho, hp⟩
    · rw [ho, wanted_cons_of_not_mem (by simp) (by simp)]
      exact h.wanted (hp.symm.trans h2)
    · rw [hp] at h2
      exact absurd h2 (by decide)
    · exact wanted_cons_of_mem (by rcases ho with ho | ho <;> simp [ho])
    · rw [hp] at h2
      exact absurd h2 (by decide)

/-- **One packet.** A client that has followed the protocol goes on following it exactly if the packet
fits the phase. -/
theorem follows_netRecv_iff {r : IaClientRun} (h : r.Sound) (hf : r.Follows)
    (packet : Option ServerPacket) (now : BitVec 64) :
    (r.record (r.client.netRecv now packet) true).Follows ↔ r.InPhase (.netRecv packet now) := by
  have hout := h.out
  have hiff : (r.record (r.client.netRecv now packet) true).Follows ↔
      Lawful ⟨r.client.phase, (r.client.netRecv now packet).out,
        (r.client.netRecv now packet).phase⟩ ∧
      NotStale ⟨r.client.phase, (r.client.netRecv now packet).out,
        (r.client.netRecv now packet).phase⟩ r.log :=
    ⟨fun hf' => ⟨hf'.1, hf'.2.1⟩, fun hl => ⟨hl.1, hl.2, hf⟩⟩
  rw [hiff]
  unfold IaClientProt.netRecv
  split
  · refine iff_of_true (lawful_of_quiet ?_ ?_ ?_ (.inl rfl) _) trivial <;> simp [hout]
  · next rnd userTimeOut aliveDelay dirNames =>
    simp only [IaClientProt.processConnSynAck, IaClientProt.emit, IaClientProt.enter, hout,
      List.nil_append, List.cons_append, InPhase]
    constructor
    · exact fun hl => hl.1.connAck (rnd + 1) (by simp)
    · intro h2
      exact ⟨⟨fun _ _ => h2, fun _ _ => h2, by simp, by simp, by simp⟩, fun _ => h.wanted h2⟩
  · next rnd stat =>
    simp only [IaClientProt.processAliveSyn, IaClientProt.emit, hout, List.nil_append,
      List.cons_append, InPhase]
    constructor
    · exact fun hl => hl.1.aliveAck (rnd + 1) (by simp)
    · intro h3
      refine ⟨⟨by simp, fun h hb => absurd h hb, by simp, fun h hb => absurd h hb, fun _ _ => h3⟩, ?_⟩
      rintro (⟨rnd, hm⟩ | ⟨ha, hb⟩)
      · simp at hm
      · exact absurd ha hb
  · next rnd =>
    simp only [IaClientProt.processDisconnSynAck, IaClientProt.emit, IaClientProt.enter, hout,
      List.nil_append, InPhase]
    constructor
    · exact fun hl => hl.1.disconnAck (rnd + 1) (by simp)
    · intro h4
      refine ⟨⟨by simp, by simp, fun _ _ => h4, fun _ _ => h4, by simp⟩, ?_⟩
      rintro (⟨rnd, hm⟩ | ⟨ha, -⟩)
      · simp at hm
      · exact absurd ha (by simp)
  · refine iff_of_true (lawful_of_quiet ?_ ?_ ?_ (.inr ?_) _) trivial <;>
      simp [IaClientProt.processFin, IaClientProt.emit, IaClientProt.enter, hout]
  · refine iff_of_true (lawful_of_quiet ?_ ?_ ?_ (.inl rfl) _) trivial <;>
      simp [IaClientProt.emit, hout]
  · refine iff_of_true (lawful_of_quiet ?_ ?_ ?_ (.inr ?_) _) trivial <;>
      simp [IaClientProt.processError, IaClientProt.emit, IaClientProt.enter, hout]
  · refine iff_of_true (lawful_of_quiet ?_ ?_ ?_ (.inl rfl) _) trivial <;> simp [hout]

/-- **One event.** A client that has followed the protocol goes on following it exactly if a packet
fits the phase it arrives in.

**Proof sketch.** The `switch` answers nothing (`phaseSwitch_cases`).  A packet that is answered is
answered in any phase. -/
theorem follows_step_iff {r r' : IaClientRun} {e : IaClientEvent} (h : r.Sound) (hf : r.Follows)
    (hs : r.step e = some r') : r'.Follows ↔ r.InPhase e := by
  have hout := h.out
  cases e with
  | connect =>
    obtain rfl := Option.some.inj hs
    exact iff_of_true hf trivial
  | disconnect =>
    obtain rfl := Option.some.inj hs
    exact iff_of_true hf trivial
  | setReconnect n =>
    obtain rfl := Option.some.inj hs
    exact iff_of_true hf trivial
  | netRecv packet now =>
    simp only [IaClientRun.step] at hs
    split_ifs at hs
    obtain rfl := Option.some.inj hs
    exact follows_netRecv_iff h hf packet now
  | phaseSwitch now now' =>
    simp only [IaClientRun.step] at hs
    split_ifs at hs
    obtain rfl := Option.some.inj hs
    refine iff_of_true ?_ trivial
    have hl : Lawful ⟨r.client.phase, (r.client.phaseSwitch now now').out,
          (r.client.phaseSwitch now now').phase⟩ ∧
        NotStale ⟨r.client.phase, (r.client.phaseSwitch now now').out,
          (r.client.phaseSwitch now now').phase⟩ r.log := by
      rcases phaseSwitch_cases now now' hout with (⟨ho, hp⟩ | ⟨ho, hp⟩) | ⟨ho, hp⟩ | ⟨ho, hp⟩
      · rw [ho, hp]
        exact lawful_of_quiet (by simp) (by simp) (by simp) (.inl rfl) _
      · rw [ho, hp]
        exact lawful_of_quiet (by simp) (by simp) (by simp) (.inr (by simp)) _
      · rw [hp]
        rcases ho with ho | ho
        · rw [ho]
          exact lawful_of_quiet (by simp) (by simp) (by simp) (.inr (by simp)) _
        · rw [ho]
          exact lawful_of_quiet (by simp) (by simp) (by simp) (.inr (by simp)) _
      · rw [hp]
        rcases ho with ho | ho
        · rw [ho]
          exact lawful_of_quiet (by simp) (by simp) (by simp) (.inr (by simp)) _
        · rw [ho]
          exact lawful_of_quiet (by simp) (by simp) (by simp) (.inr (by simp)) _
    exact ⟨hl.1, hl.2, hf⟩

/-- **The client and the network.** For every sequence of requests and turns of the loop, with any
packets of the server in any order and any clock: the client enters phase 3 and sends `CONN_ACK` from
phase 2 only, enters phase 5 and sends `DISCONN_ACK` from phase 4 only, sends `ALIVE_ACK` in phase 3
only, and does not get connected after it has acted on a request to disconnect and before it has
acted on the next one to connect, if and only if every `CONN_SYN_ACK` arrives in phase 2, every
`ALIVE_SYN` in phase 3 and every `DISCONN_SYN_ACK` in phase 4.

**Proof sketch.** The exactness rule for runs with `follows_step_iff`. -/
theorem follows_iff (es : List IaClientEvent) :
    Transition.Maintains step Follows {} es ↔ ∃ r, Transition.Reaches step InPhase {} es r :=
  Transition.maintains_iff_reaches_of_step (A := Sound) (fun _ _ _ h hs => h.step hs)
    (fun _ _ _ h hf hs => follows_step_iff h hf hs) es ⟨rfl, fun h => absurd h (by decide)⟩ trivial

/-- **A delayed duplicate.** The client connects, acts on a request to disconnect, and then gets
`CONN_SYN_ACK` a second time: it answers and is connected again. -/
theorem stale_connSynAck_connects :
    ∃ r, Transition.Runs step {}
        [.connect, .netRecv none 0, .phaseSwitch 0 0, .netRecv (some (.connSynAck 7 60 5 [])) 0,
          .phaseSwitch 0 0, .disconnect, .netRecv none 0, .phaseSwitch 0 0,
          .netRecv (some (.connSynAck 7 60 5 [])) 0] r ∧
      r.client.phase = 3 ∧ r.log.head?.map IaLogEntry.before = some 4 ∧
      wanted r.log = false ∧ ¬r.Follows := by
  refine ⟨_, .cons trivial rfl (.cons trivial rfl (.cons trivial rfl (.cons trivial rfl
    (.cons trivial rfl (.cons trivial rfl (.cons trivial rfl (.cons trivial rfl
    (.cons trivial rfl (.nil _))))))))), by decide +kernel, by decide +kernel, by decide +kernel,
    fun h => ?_⟩
  exact absurd (h.1.connAck 8 (by decide +kernel)) (by decide +kernel)

end IaClientRun

end Stargazer
