import Stargazer.Lib.Run
import Stargazer.Users.Billing

set_option relaxedAutoImplicit false
set_option autoImplicit false

/-!
# The session log

A user is connected and disconnected from many places: by `Run`, by the last `Unauthorize`, by the
callbacks of `disabled`, `tariffName` and `ips`, and, for the log only, at midnight and at the end
of the month.  `Connect` does not check whether the user is connected already, and `Disconnect`
does nothing for a user without an address to disconnect.  The invariant proved here makes both
harmless: connects and disconnects alternate in the log, and no byte of a session is lost from it.

## Main definitions

* `Stargazer.UserImpl.SessionAction`, `Stargazer.UserImpl.sessionStep` — what happens to a user.
* `Stargazer.SessionRecord.Alternates` — connects and disconnects alternate.
* `Stargazer.UserImpl.Sound` — the invariant.
* `Stargazer.UserImpl.ledger` — the session counters in the log and in the user.

## Main results

* `Stargazer.UserImpl.sessionStep_sound` — one step.
* `Stargazer.UserImpl.session_log_consistent` — every run.
-/

namespace Stargazer

namespace SessionRecord

/-- Is it a connect record? -/
def isConnect : SessionRecord → Bool
  | .connect _ _ => true
  | .disconnect .. => false

/-- The session counters a record carries; a connect record has none. -/
def session (side : Side) : SessionRecord → DirTraff
  | .connect _ _ => 0
  | .disconnect _ _ _ sessionUp sessionDown _ _ _ =>
    match side with
    | .up => sessionUp
    | .down => sessionDown

/-- Connects and disconnects alternate; `c` tells whether the record before the list is a
connect. -/
def Alternates : Bool → List SessionRecord → Prop
  | _, [] => True
  | c, r :: log => r.isConnect = !c ∧ Alternates r.isConnect log

/-- Is the last record a connect?  `c` is the answer for an empty log. -/
def lastIsConnect : Bool → List SessionRecord → Bool
  | c, [] => c
  | _, r :: log => lastIsConnect r.isConnect log

/-- A record may follow if it is of the other kind than the last one. -/
theorem alternates_concat (r : SessionRecord) (log : List SessionRecord) :
    ∀ c, Alternates c (log ++ [r]) ↔ Alternates c log ∧ r.isConnect = !lastIsConnect c log := by
  induction log with
  | nil => intro c; simp [Alternates, lastIsConnect]
  | cons r' log ih => intro c; simp [Alternates, lastIsConnect, ih, and_assoc]

@[simp] theorem lastIsConnect_concat (r : SessionRecord) (log : List SessionRecord) :
    ∀ c, lastIsConnect c (log ++ [r]) = r.isConnect := by
  induction log with
  | nil => intro c; rfl
  | cons r' log ih => intro c; exact ih _

end SessionRecord

namespace UserImpl

open SessionRecord

/-! ## Actions -/

/-- What happens to a user. -/
inductive SessionAction
  /-- `Authorize`, with the index of addresses as it is then. -/
  | authorize (env : Env) (ipIndex : IP → Option UserId) (self : UserId) (ip : IP)
      (dirs : BitVec 32) (auth : AuthId)
  /-- `Unauthorize`. -/
  | unauthorize (env : Env) (auth : AuthId) (reason : String)
  /-- `Run`. -/
  | run (env : Env)
  /-- `AddTraffStatU` or `AddTraffStatD`. -/
  | addTraffStat (env : Env) (side : Side) (dir : Dir) (ip : IP) (len : BitVec 32)
  /-- `MidnightResetSessionStat`. -/
  | midnightResetSessionStat (env : Env)
  /-- `ProcessNewMonth`. -/
  | processNewMonth (env : Env)
  /-- A change of `tariffName`. -/
  | setTariffName (env : Env) (v : String)
  /-- A change of `ips`. -/
  | setIps (env : Env) (v : UserIPs)
  /-- A change of `disabled`. -/
  | setDisabled (env : Env) (v : ℤ)
  /-- A change of `passive`. -/
  | setPassive (env : Env) (v : ℤ)
  /-- A change of `cash`. -/
  | setCash (env : Env) (v : Money)
  /-- A change of `credit`. -/
  | setCredit (env : Env) (v : Money)

/-- The clock and the settings of an action. -/
def SessionAction.env : SessionAction → Env
  | .authorize env .. | .unauthorize env .. | .run env | .addTraffStat env ..
  | .midnightResetSessionStat env | .processNewMonth env | .setTariffName env _ | .setIps env _
  | .setDisabled env _ | .setPassive env _ | .setCash env _ | .setCredit env _ => env

/-- One action; `none` is a null dereference. -/
def sessionStep (u : UserImpl) : SessionAction → Option UserImpl
  | .authorize env ipIndex self ip dirs auth =>
    some (u.authorize env ipIndex self ip dirs auth).user
  | .unauthorize env auth reason => some (u.unauthorize env auth reason).user
  | .run env => some (u.run env)
  | .addTraffStat env side dir ip len => some (u.addTraffStat side env dir ip len)
  | .midnightResetSessionStat env => some (u.midnightResetSessionStat env)
  | .processNewMonth env => u.processNewMonth env
  | .setTariffName env v => some (u.setTariffName env v)
  | .setIps env v => some (u.setIps env v)
  | .setDisabled env v => some (u.setDisabled env v)
  | .setPassive env v => some (u.setPassive env v)
  | .setCash env v => some (u.setCash env v)
  | .setCredit _ v => some (u.setCredit v)

/-- The bytes an action accounts to the user: those of a traffic call while the user is connected
and has a tariff. -/
def bytesOf (side : Side) (dir : Dir) (u : UserImpl) : SessionAction → ℕ
  | .addTraffStat _ side' dir' _ len =>
    if side' = side ∧ dir' = dir ∧ u.connected = true ∧ u.tariff ≠ none then len.toNat else 0
  | _ => 0

/-- The bytes a run of actions accounts to the user. -/
def accounted (side : Side) (dir : Dir) : UserImpl → List SessionAction → ℕ
  | _, [] => 0
  | u, a :: as => bytesOf side dir u a +
      match u.sessionStep a with
      | none => 0
      | some u' => accounted side dir u' as

/-! ## The invariant -/

/-- The counters of the current session. -/
def session (side : Side) (u : UserImpl) : DirTraff :=
  match side with
  | .up => u.sessionUpload
  | .down => u.sessionDownload

/-- The log and the connection fit together. -/
structure Logged (u : UserImpl) : Prop where
  /-- Connects and disconnects alternate, starting with a connect. -/
  alternates : Alternates false u.sessionLog
  /-- The user is connected iff the last record is a connect. -/
  last : lastIsConnect false u.sessionLog = u.connected
  /-- A connected user has an address to disconnect. -/
  lastIP : u.connected = true → u.lastIPForDisconnect ≠ 0

/-- The invariant of a user. -/
structure Sound (u : UserImpl) : Prop extends Logged u where
  /-- An authorized user has an address. -/
  currIP : u.authorizedBy ≠ ∅ → u.currIP ≠ 0
  /-- A connected user is authorized. -/
  authorized : u.connected = true → u.authorizedBy ≠ ∅

/-- A user as the server creates it. -/
structure Fresh (u : UserImpl) : Prop where
  /-- Not connected. -/
  connected : u.connected = false
  /-- Not authorized. -/
  authorizedBy : u.authorizedBy = ∅
  /-- No session was logged. -/
  sessionLog : u.sessionLog = []
  /-- Nothing was uploaded. -/
  sessionUpload : u.sessionUpload = 0
  /-- Nothing was downloaded. -/
  sessionDownload : u.sessionDownload = 0

/-- The parts of the user the invariant speaks about are the same. -/
structure SameSession (u v : UserImpl) : Prop where
  /-- The same connection. -/
  connected : v.connected = u.connected
  /-- The same address. -/
  currIP : v.currIP = u.currIP
  /-- The same address to disconnect. -/
  lastIP : v.lastIPForDisconnect = u.lastIPForDisconnect
  /-- The same authorizers. -/
  authorizedBy : v.authorizedBy = u.authorizedBy
  /-- The same log. -/
  sessionLog : v.sessionLog = u.sessionLog
  /-- The same upload. -/
  sessionUpload : v.sessionUpload = u.sessionUpload
  /-- The same download. -/
  sessionDownload : v.sessionDownload = u.sessionDownload

theorem Fresh.sound {u : UserImpl} (h : u.Fresh) : u.Sound := by
  refine ⟨⟨?_, ?_, ?_⟩, ?_, ?_⟩
  · simp [h.sessionLog, Alternates]
  · simp [h.sessionLog, h.connected, lastIsConnect]
  all_goals simp [h.connected, h.authorizedBy]

/-- The session counters of one side and direction: those in the disconnect records and the
current one, without zeros. -/
def ledger (side : Side) (dir : Dir) (u : UserImpl) : List (BitVec 64) :=
  ((u.sessionLog.map fun r => r.session side dir) ++ [u.session side dir]).filter (· ≠ 0)

/-- The user `v` came out of `u` with the invariant intact and nothing added to the counters. -/
structure Steady (u v : UserImpl) : Prop where
  /-- The invariant holds. -/
  sound : v.Sound
  /-- The counters are the same. -/
  ledger : ∀ side dir, v.ledger side dir = u.ledger side dir

theorem Steady.trans {u v w : UserImpl} (h : Steady u v) (h' : Steady v w) : Steady u w :=
  ⟨h'.sound, fun side dir => (h'.ledger side dir).trans (h.ledger side dir)⟩

theorem SameSession.refl (u : UserImpl) : SameSession u u := ⟨rfl, rfl, rfl, rfl, rfl, rfl, rfl⟩

theorem SameSession.session {u v : UserImpl} (h : SameSession u v) (side : Side) :
    v.session side = u.session side := by
  cases side
  · exact h.sessionUpload
  · exact h.sessionDownload

/-- A user with the same session as a sound one is sound. -/
theorem SameSession.steady {u v : UserImpl} (h : SameSession u v) (hu : u.Sound) : Steady u v := by
  refine ⟨⟨⟨?_, ?_, ?_⟩, ?_, ?_⟩, fun side dir => ?_⟩
  · rw [h.sessionLog]; exact hu.alternates
  · rw [h.sessionLog, h.connected]; exact hu.last
  · rw [h.connected, h.lastIP]; exact hu.lastIP
  · rw [h.authorizedBy, h.currIP]; exact hu.currIP
  · rw [h.connected, h.authorizedBy]; exact hu.authorized
  · simp [UserImpl.ledger, h.sessionLog, h.session]

/-! ## Connecting and disconnecting -/

section Connection

variable {env : Env} {u : UserImpl}

/-- What `Connect` does with session logging on. -/
theorem connect_eq (hlog : env.settings.disableSessionLog = false) (u : UserImpl) :
    u.connect env false =
      { u with
        connected := true
        sessionLog := u.sessionLog ++ [.connect u.login u.currIP]
        lastIPForDisconnect := u.currIP } := by
  simp [connect, writeSession, hlog]

/-- What `Disconnect` does with session logging on to a user with an address to disconnect. -/
theorem disconnect_eq (hlog : env.settings.disableSessionLog = false) (reason : String)
    (hip : u.lastIPForDisconnect ≠ 0) :
    u.disconnect env false reason =
      { u with
        lastDisconnectReason := reason
        connected := false
        sessionLog := u.sessionLog ++ [.disconnect u.login u.up u.down u.sessionUpload
          u.sessionDownload u.cash u.freeMb (reasonMessage reason reason)]
        lastIPForDisconnect := 0
        sessionUpload := 0
        sessionDownload := 0 } := by
  simp only [disconnect, writeSession, if_neg hip, hlog, Bool.false_eq_true, if_false]

/-- What a fake `Connect` does with session logging on. -/
theorem fakeConnect_eq (hlog : env.settings.disableSessionLog = false) (u : UserImpl) :
    u.connect env true =
      { u with sessionLog := u.sessionLog ++ [.connect u.login u.currIP] } := by
  simp [connect, writeSession, hlog]

/-- What a fake `Disconnect` does with session logging on to a user with an address to
disconnect. -/
theorem fakeDisconnect_eq (hlog : env.settings.disableSessionLog = false) (reason : String)
    (hip : u.lastIPForDisconnect ≠ 0) :
    u.disconnect env true reason =
      { u with
        sessionLog := u.sessionLog ++ [.disconnect u.login u.up u.down u.sessionUpload
          u.sessionDownload u.cash u.freeMb (reasonMessage reason u.lastDisconnectReason)]
        sessionUpload := 0
        sessionDownload := 0 } := by
  simp only [disconnect, writeSession, if_neg hip, hlog, Bool.false_eq_true, if_false, if_true]

/-- A connect writes no counters. -/
theorem ledger_connect (hlog : env.settings.disableSessionLog = false) (side : Side) (dir : Dir)
    (u : UserImpl) : (u.connect env false).ledger side dir = u.ledger side dir := by
  rw [connect_eq hlog]
  cases side <;> simp [ledger, session, SessionRecord.session]

/-- A disconnect moves the current counters into the log. -/
theorem ledger_disconnect (hlog : env.settings.disableSessionLog = false) (reason : String)
    (hip : u.lastIPForDisconnect ≠ 0) (side : Side) (dir : Dir) :
    (u.disconnect env false reason).ledger side dir = u.ledger side dir := by
  rw [disconnect_eq hlog reason hip]
  cases side <;> simp [ledger, session, SessionRecord.session, List.filter_cons]

/-- An authorized user that is not connected can be connected. -/
theorem Sound.connect (h : u.Sound) (hlog : env.settings.disableSessionLog = false)
    (hconn : u.connected = false) (hauth : u.authorizedBy ≠ ∅) :
    Steady u (u.connect env false) := by
  have hlast : lastIsConnect false u.sessionLog = false := h.last.trans hconn
  refine ⟨?_, fun side dir => ledger_connect hlog side dir u⟩
  rw [connect_eq hlog]
  exact {
    alternates := (alternates_concat _ _ _).mpr ⟨h.alternates, by rw [hlast]; rfl⟩
    last := by simp [isConnect]
    lastIP := fun _ => h.currIP hauth
    currIP := h.currIP
    authorized := fun _ => hauth }

/-- A connected user with an address to disconnect can be disconnected; whether it is still
authorized does not matter. -/
theorem Logged.disconnect (h : u.Logged) (hlog : env.settings.disableSessionLog = false)
    (hconn : u.connected = true) (hcurr : u.authorizedBy ≠ ∅ → u.currIP ≠ 0) (reason : String) :
    Steady u (u.disconnect env false reason) := by
  have hlast : lastIsConnect false u.sessionLog = true := h.last.trans hconn
  refine ⟨?_, ledger_disconnect hlog reason (h.lastIP hconn)⟩
  rw [disconnect_eq hlog reason (h.lastIP hconn)]
  exact {
    alternates := (alternates_concat _ _ _).mpr ⟨h.alternates, by rw [hlast]; rfl⟩
    last := by simp [isConnect]
    lastIP := by simp
    currIP := hcurr
    authorized := by simp }

/-- After a disconnect the user is not connected and still has its authorizers. -/
theorem Sound.disconnect (h : u.Sound) (hlog : env.settings.disableSessionLog = false)
    (hconn : u.connected = true) (reason : String) :
    Steady u (u.disconnect env false reason) ∧
      (u.disconnect env false reason).connected = false ∧
      (u.disconnect env false reason).authorizedBy = u.authorizedBy :=
  ⟨h.toLogged.disconnect hlog hconn h.currIP reason,
    disconnect_connected env reason (h.lastIP hconn), by simp⟩

/-- The fake disconnect and connect of a connected user, with or without a reset of the month
counters in between: the log gets a record of the session so far and starts a new one. -/
theorem Sound.fake (h : u.Sound) (hlog : env.settings.disableSessionLog = false)
    (hconn : u.connected = true) (f : UserImpl → UserImpl)
    (hf : ∀ v, SameSession v (f v)) :
    Steady u ((f (u.disconnect env true "fake")).connect env true) := by
  have hlast : lastIsConnect false u.sessionLog = true := h.last.trans hconn
  have hfw := hf (u.disconnect env true "fake")
  rw [fakeDisconnect_eq hlog "fake" (h.lastIP hconn)] at hfw ⊢
  rw [fakeConnect_eq hlog]
  refine ⟨⟨⟨?_, ?_, ?_⟩, ?_, ?_⟩, fun side dir => ?_⟩
  · simp only [hfw.sessionLog]
    rw [alternates_concat, alternates_concat]
    exact ⟨⟨h.alternates, by rw [hlast]; rfl⟩, by rw [lastIsConnect_concat]; rfl⟩
  · rw [lastIsConnect_concat]
    exact (hfw.connected.trans hconn).symm
  · simpa [hfw.lastIP, hfw.connected] using h.lastIP
  · simpa [hfw.authorizedBy, hfw.currIP] using h.currIP
  · simpa [hfw.connected, hfw.authorizedBy] using h.authorized
  · have hsession := congrFun (hfw.session side) dir
    simp only [ledger, hfw.sessionLog]
    cases side <;>
      simp_all [session, SessionRecord.session, List.filter_cons]

end Connection

/-! ## The operations -/

section Operations

variable {env : Env} {u : UserImpl}

/-- `Authorize` connects nobody: it only changes authorizers of users that are not connected, or
adds one. -/
theorem Sound.authorize (h : u.Sound) (ipIndex : IP → Option UserId) (self : UserId) (ip : IP)
    (dirs : BitVec 32) (auth : AuthId) :
    Steady u (u.authorize env ipIndex self ip dirs auth).user := by
  rcases u.authorize_cases env ipIndex self ip dirs auth with
    ⟨-, hr⟩ | ⟨-, d, e, hr⟩ | ⟨-, -, hby, -, -, hr⟩ | ⟨hby, hne, -, -, hr⟩
  · rw [hr]
    exact (SameSession.refl u).steady h
  · rw [hr]
    exact SameSession.steady ⟨rfl, rfl, rfl, rfl, rfl, rfl, rfl⟩ h
  · rw [hr]
    exact ⟨⟨⟨h.alternates, h.last, h.lastIP⟩, fun _ => h.currIP hby, by simp⟩, fun _ _ => rfl⟩
  · have hconn : u.connected = false := by
      by_contra hc
      exact h.authorized (by simpa using hc) hby
    rw [hr]
    exact ⟨⟨⟨h.alternates, h.last, fun _ => hne⟩, fun _ => hne, by simp⟩, fun _ _ => rfl⟩

/-- `Unauthorize` disconnects a connected user when its last authorizer leaves. -/
theorem Sound.unauthorize (h : u.Sound) (hlog : env.settings.disableSessionLog = false)
    (auth : AuthId) (reason : String) : Steady u (u.unauthorize env auth reason).user := by
  rcases u.unauthorize_cases env auth reason with ⟨-, hr⟩ | ⟨hauth, he, hr⟩ | ⟨hauth, -, hr⟩
  · rw [hr]
    exact (SameSession.refl u).steady h
  · rw [hr]
    exact ⟨⟨⟨h.alternates, h.last, h.lastIP⟩, fun _ => h.currIP (Finset.ne_empty_of_mem hauth),
      fun _ => he⟩, fun _ _ => rfl⟩
  · have hip : u.currIP ≠ 0 := h.currIP (Finset.ne_empty_of_mem hauth)
    rw [hr]
    by_cases hconn : u.connected = true
    · simp only [if_pos hconn]
      -- the address is gone by then, but `lastIPForDisconnect` still has it
      have hsteady := Logged.disconnect (u := { u with
        authorizedBy := ∅
        authorizedModificationTime := env.stgTime
        lastDisconnectReason := reason
        lastIPForDisconnect := u.currIP
        currIP := 0 }) ⟨h.alternates, h.last, fun _ => hip⟩ hlog hconn (by simp) "not authorized"
      exact ⟨hsteady.sound, hsteady.ledger⟩
    · simp only [if_neg hconn]
      exact ⟨⟨⟨h.alternates, h.last, fun _ => hip⟩, by simp, fun hc => absurd hc hconn⟩,
        fun _ _ => rfl⟩

/-- The first part of `Run` touches no session. -/
theorem sameSession_runAccounts (env : Env) (u : UserImpl) : SameSession u (u.runAccounts env) := by
  simp only [runAccounts, writeStat]
  split_ifs <;> exact ⟨rfl, rfl, rfl, rfl, rfl, rfl, rfl⟩

/-- Connect an authorized user that is not connected, if a condition holds. -/
theorem Sound.connectIf (h : u.Sound) (hlog : env.settings.disableSessionLog = false) (c : Prop)
    [Decidable c] (hc : c → u.connected = false ∧ u.authorizedBy ≠ ∅) :
    Steady u (if c then u.connect env false else u) := by
  split_ifs with hcond
  · exact h.connect hlog (hc hcond).1 (hc hcond).2
  · exact (SameSession.refl u).steady h

/-- Disconnect a connected user, if a condition holds. -/
theorem Sound.disconnectIf (h : u.Sound) (hlog : env.settings.disableSessionLog = false) (c : Prop)
    [Decidable c] (hc : c → u.connected = true) (reason : String) :
    Steady u (if c then u.disconnect env false reason else u) := by
  split_ifs with hcond
  · exact (h.disconnect hlog (hc hcond) reason).1
  · exact (SameSession.refl u).steady h

/-- After disconnecting the user if it is connected, it is not. -/
theorem Sound.not_connected_of_disconnectIf (h : u.Sound) (env : Env) (reason : String) :
    (if u.connected = true then u.disconnect env false reason else u).connected = false := by
  split_ifs with hconn
  · exact disconnect_connected env reason (h.lastIP hconn)
  · simpa using hconn

/-- The second part of `Run`. -/
theorem Sound.runSession (h : u.Sound) (hlog : env.settings.disableSessionLog = false) :
    Steady u (u.runSession env) := by
  unfold UserImpl.runSession
  by_cases hauth : u.authorizedBy ≠ ∅
  · rw [if_pos hauth]
    have h1 : SameSession u
        (if u.connected then { u with lastActivityTime := env.stgTime } else u) := by
      split_ifs <;> exact ⟨rfl, rfl, rfl, rfl, rfl, rfl, rfl⟩
    have hs1 := h1.steady h
    refine hs1.trans (Steady.trans (hs1.sound.connectIf hlog _ fun hc => ?_)
      (Sound.disconnectIf ?_ hlog _ (fun hc => hc.1) _))
    · exact ⟨hc.1, by rw [h1.authorizedBy]; exact hauth⟩
    · refine (hs1.sound.connectIf hlog _ fun hc => ?_).sound
      exact ⟨hc.1, by rw [h1.authorizedBy]; exact hauth⟩
  · rw [if_neg hauth]
    exact h.disconnectIf hlog _ (fun hc => hc) _

/-- `Run`. -/
theorem Sound.run (h : u.Sound) (hlog : env.settings.disableSessionLog = false) :
    Steady u (u.run env) := by
  have h1 := (sameSession_runAccounts env u).steady h
  exact h1.trans (h1.sound.runSession hlog)

/-- `MidnightResetSessionStat`. -/
theorem Sound.midnightResetSessionStat (h : u.Sound)
    (hlog : env.settings.disableSessionLog = false) :
    Steady u (u.midnightResetSessionStat env) := by
  unfold UserImpl.midnightResetSessionStat
  split_ifs with hconn
  · exact h.fake hlog hconn id fun v => SameSession.refl v
  · exact (SameSession.refl u).steady h

/-- The callback of `tariffName` disconnects before it connects. -/
theorem Sound.setTariffName (h : u.Sound) (hlog : env.settings.disableSessionLog = false)
    (v : String) : Steady u (u.setTariffName env v) := by
  have hquiet : ∀ (w : UserImpl) (t : Option TariffImpl) (n : String),
      SameSession w { w with tariff := t, tariffName := n } := fun w t n =>
    ⟨rfl, rfl, rfl, rfl, rfl, rfl, rfl⟩
  simp only [UserImpl.setTariffName, onTariffChange]
  cases hrec : env.settings.reconnectOnTariffChange with
  | false =>
    simp only [Bool.false_eq_true, false_and, if_false]
    exact (hquiet u _ v).steady h
  | true =>
    simp only [true_and]
    have h1 := h.disconnectIf hlog (u.connected = true) (fun hc => hc) "Change tariff"
    have hconn := h.not_connected_of_disconnectIf env "Change tariff"
    set u1 := if u.connected = true then u.disconnect env false "Change tariff" else u with hu1
    split_ifs with hcond
    · have h2 := (hquiet u1 (env.tariffs v) v).steady h1.sound
      have h3 := h2.sound.connect hlog hconn hcond.1
      refine h1.trans (h2.trans (h3.trans ?_))
      exact SameSession.steady (hquiet _ _ v) h3.sound
    · exact h1.trans ((hquiet u1 _ v).steady h1.sound)

/-- The callback of `ips` disconnects before it connects. -/
theorem Sound.setIps (h : u.Sound) (hlog : env.settings.disableSessionLog = false) (v : UserIPs) :
    Steady u (u.setIps env v) := by
  have h0 : Steady u { u with ips := v } := SameSession.steady
    ⟨rfl, rfl, rfl, rfl, rfl, rfl, rfl⟩ h
  have h1 := h0.sound.disconnectIf hlog (u.connected = true) (fun hc => hc) "Change IP"
  have hconn := h0.sound.not_connected_of_disconnectIf env "Change IP"
  refine h0.trans (h1.trans (h1.sound.connectIf hlog _ fun hc => ⟨hconn, hc.1⟩))

/-- The callback of `disabled` never connects: a user that was just disabled is not inetable. -/
theorem Sound.setDisabled (h : u.Sound) (hlog : env.settings.disableSessionLog = false) (v : ℤ) :
    Steady u (u.setDisabled env v) := by
  have h0 : Steady u { u with disabled := v } := SameSession.steady
    ⟨rfl, rfl, rfl, rfl, rfl, rfl, rfl⟩ h
  simp only [UserImpl.setDisabled]
  split_ifs with hdis hcon
  · exact h0.trans (h0.sound.disconnect hlog hdis.2.2 "disabled").1
  · have hnot : isInetable env { u with disabled := v } = false := by
      simp [isInetable, hcon.2.1]
    rw [hnot] at hcon
    exact absurd hcon.2.2 (by simp)
  · exact h0

/-- Freezing an account only moves money. -/
theorem sameSession_setPassive (env : Env) (v : ℤ) (u : UserImpl) :
    SameSession u (u.setPassive env v) := by
  simp only [setPassive, setCash]
  split
  · split_ifs <;> exact ⟨rfl, rfl, rfl, rfl, rfl, rfl, rfl⟩
  · exact ⟨rfl, rfl, rfl, rfl, rfl, rfl, rfl⟩

/-- A fake disconnect leaves the connection alone. -/
theorem fakeDisconnect_connected (env : Env) (reason : String) (u : UserImpl) :
    (u.disconnect env true reason).connected = u.connected := by
  simp only [disconnect, writeSession, if_true]
  split_ifs <;> rfl

/-- The two fake records around the reset of the month counters. -/
theorem Sound.resetMonth (h : u.Sound) (hlog : env.settings.disableSessionLog = false) :
    Steady u (u.resetMonth env) := by
  have hreset : ∀ w : UserImpl, SameSession w { w with up := 0, down := 0 } :=
    fun w => ⟨rfl, rfl, rfl, rfl, rfl, rfl, rfl⟩
  unfold UserImpl.resetMonth
  by_cases hconn : u.connected = true
  · simp only [if_pos hconn]
    rw [if_pos (by rw [fakeDisconnect_connected]; exact hconn)]
    exact h.fake hlog hconn (fun w => { w with up := 0, down := 0 }) hreset
  · simp only [if_neg hconn]
    exact (hreset u).steady h

/-- The change to the next tariff. -/
theorem Sound.takeNextTariff (h : u.Sound) (hlog : env.settings.disableSessionLog = false)
    {v : UserImpl} (hv : u.takeNextTariff env = some v) : Steady u v := by
  have hquiet : ∀ w : UserImpl, SameSession w { w with nextTariff := "" } :=
    fun w => ⟨rfl, rfl, rfl, rfl, rfl, rfl, rfl⟩
  unfold UserImpl.takeNextTariff at hv
  split_ifs at hv
  · cases hv
    exact (SameSession.refl u).steady h
  · split at hv
    · cases hv
      exact (hquiet u).steady h
    · split at hv
      · cases hv
      · cases hv
        split_ifs
        · have h2 := h.setTariffName hlog u.nextTariff
          exact h2.trans ((hquiet _).steady h2.sound)
        · exact (hquiet u).steady h

/-- `ProcessNewMonth`. -/
theorem Sound.processNewMonth (h : u.Sound) (hlog : env.settings.disableSessionLog = false)
    {v : UserImpl} (hv : u.processNewMonth env = some v) : Steady u v := by
  have h1 := h.resetMonth hlog
  exact h1.trans (h1.sound.takeNextTariff hlog hv)

end Operations

/-! ## Traffic -/

/-- A traffic call adds its bytes to the counter of its side and direction, if the user is
connected and has a tariff. -/
theorem session_addTraffStat (env : Env) (side side' : Side) (dir dir' : Dir) (ip : IP)
    (len : BitVec 32) (u : UserImpl) :
    (u.addTraffStat side' env dir' ip len).session side dir =
      if side' = side ∧ dir' = dir ∧ u.connected = true ∧ u.tariff ≠ none then
        u.session side dir + len.setWidth 64
      else u.session side dir := by
  cases ht : u.tariff with
  | none => cases side' <;> simp [addTraffStat, addTraffStatU, addTraffStatD, ht]
  | some t =>
    cases hc : u.connected with
    | false => cases side' <;> simp [addTraffStat, addTraffStatU, addTraffStatD, ht, hc]
    | true =>
      by_cases hd : dir' = dir
      · subst hd
        cases side' <;> cases side <;>
          simp [addTraffStat, addTraffStatU, addTraffStatD, addTraff, ht, hc, session] <;>
          split_ifs <;> simp
      · have hd' : dir ≠ dir' := Ne.symm hd
        cases side' <;> cases side <;>
          simp [addTraffStat, addTraffStatU, addTraffStatD, addTraff, ht, hc, session, hd] <;>
          split_ifs <;> simp [Function.update_of_ne hd']

/-- A traffic call keeps the invariant and writes nothing into the log. -/
theorem Sound.addTraffStat {u : UserImpl} (h : u.Sound) (env : Env) (side : Side) (dir : Dir)
    (ip : IP) (len : BitVec 32) : (u.addTraffStat side env dir ip len).Sound := by
  obtain ⟨-, hconn, -, hcurr, hby, hlast, hlog⟩ := addTraffStat_frame side env dir ip len u
  refine ⟨⟨?_, ?_, ?_⟩, ?_, ?_⟩
  · rw [hlog]; exact h.alternates
  · rw [hlog, hconn]; exact h.last
  · rw [hconn, hlast]; exact h.lastIP
  · rw [hby, hcurr]; exact h.currIP
  · rw [hconn, hby]; exact h.authorized

/-! ## Sums of counters -/

section Sums

variable {M : Type*} [AddCommMonoid M]

/-- The session counters in the log and the current one, read by `f` and added up. -/
def counted (f : BitVec 64 → M) (side : Side) (dir : Dir) (u : UserImpl) : M :=
  (u.sessionLog.map fun r => f (r.session side dir)).sum + f (u.session side dir)

/-- Nothing is counted of a fresh user. -/
theorem Fresh.counted {u : UserImpl} (h : u.Fresh) {f : BitVec 64 → M} (hf : f 0 = 0)
    (side : Side) (dir : Dir) : u.counted f side dir = 0 := by
  have hsession : u.session side dir = 0 := by
    cases side <;> simp [session, h.sessionUpload, h.sessionDownload]
  rw [UserImpl.counted, h.sessionLog, hsession, hf]
  simp

/-- Zeros may be left out of a sum. -/
theorem sum_map_filter_ne_zero (f : BitVec 64 → M) (hf : f 0 = 0) (l : List (BitVec 64)) :
    ((l.filter (· ≠ 0)).map f).sum = (l.map f).sum := by
  induction l with
  | nil => rfl
  | cons x l ih =>
    by_cases hx : x = 0
    · rw [List.filter_cons_of_neg (by simp [hx]), List.map_cons, List.sum_cons, ih, hx, hf,
        zero_add]
    · rw [List.filter_cons_of_pos (by simpa using hx), List.map_cons, List.sum_cons, ih,
        List.map_cons, List.sum_cons]

/-- Sums depend on the ledger only. -/
theorem counted_eq_sum_ledger (f : BitVec 64 → M) (hf : f 0 = 0) (side : Side) (dir : Dir)
    (u : UserImpl) : u.counted f side dir = ((u.ledger side dir).map f).sum := by
  rw [ledger, sum_map_filter_ne_zero f hf]
  simp [counted, Function.comp_def]

/-- **One step.** With session logging on, the invariant is kept; an action that accounts no bytes
leaves all sums alone, and a traffic call changes the current counter only. -/
theorem sessionStep_sound {u v : UserImpl} (h : u.Sound) (a : SessionAction)
    (hlog : a.env.settings.disableSessionLog = false) (hv : u.sessionStep a = some v) :
    v.Sound ∧ ∀ side dir,
      (v.sessionLog = u.sessionLog ∧
        v.session side dir = u.session side dir + BitVec.ofNat 64 (u.bytesOf side dir a)) ∨
      (u.bytesOf side dir a = 0 ∧ v.ledger side dir = u.ledger side dir) := by
  have hsteady : ∀ {w : UserImpl}, Steady u w → (∀ side dir, u.bytesOf side dir a = 0) →
      w.Sound ∧ ∀ side dir,
        (w.sessionLog = u.sessionLog ∧
          w.session side dir = u.session side dir + BitVec.ofNat 64 (u.bytesOf side dir a)) ∨
        (u.bytesOf side dir a = 0 ∧ w.ledger side dir = u.ledger side dir) :=
    fun hw h0 => ⟨hw.sound, fun side dir => .inr ⟨h0 side dir, hw.ledger side dir⟩⟩
  cases a with
  | addTraffStat env side' dir' ip len =>
    obtain rfl := Option.some.inj hv
    obtain ⟨-, -, -, -, -, -, hl⟩ := addTraffStat_frame side' env dir' ip len u
    refine ⟨h.addTraffStat env side' dir' ip len, fun side dir => .inl ⟨hl, ?_⟩⟩
    rw [session_addTraffStat]
    simp only [bytesOf]
    split_ifs
    · rw [BitVec.ofNat_toNat]
    · simp
  | processNewMonth env => exact hsteady (h.processNewMonth hlog hv) fun _ _ => rfl
  | authorize env ipIndex self ip dirs auth =>
    obtain rfl := Option.some.inj hv
    exact hsteady (h.authorize ipIndex self ip dirs auth) fun _ _ => rfl
  | unauthorize env auth reason =>
    obtain rfl := Option.some.inj hv
    exact hsteady (h.unauthorize hlog auth reason) fun _ _ => rfl
  | run env =>
    obtain rfl := Option.some.inj hv
    exact hsteady (h.run hlog) fun _ _ => rfl
  | midnightResetSessionStat env =>
    obtain rfl := Option.some.inj hv
    exact hsteady (h.midnightResetSessionStat hlog) fun _ _ => rfl
  | setTariffName env v =>
    obtain rfl := Option.some.inj hv
    exact hsteady (h.setTariffName hlog v) fun _ _ => rfl
  | setIps env v =>
    obtain rfl := Option.some.inj hv
    exact hsteady (h.setIps hlog v) fun _ _ => rfl
  | setDisabled env v =>
    obtain rfl := Option.some.inj hv
    exact hsteady (h.setDisabled hlog v) fun _ _ => rfl
  | setPassive env v =>
    obtain rfl := Option.some.inj hv
    exact hsteady ((sameSession_setPassive env v u).steady h) fun _ _ => rfl
  | setCash env v =>
    obtain rfl := Option.some.inj hv
    exact hsteady (SameSession.steady ⟨rfl, rfl, rfl, rfl, rfl, rfl, rfl⟩ h) fun _ _ => rfl
  | setCredit env v =>
    obtain rfl := Option.some.inj hv
    exact hsteady (SameSession.steady ⟨rfl, rfl, rfl, rfl, rfl, rfl, rfl⟩ h) fun _ _ => rfl

end Sums

/-! ## Runs -/

/-- Session logging is enabled while the action is performed. -/
def LoggingOn (_ : UserImpl) (a : SessionAction) : Prop :=
  a.env.settings.disableSessionLog = false

/-- What a run adds to the counters: as 64-bit words always, and as numbers while they fit.

**Proof sketch.** Induction on the run with `sessionStep_sound`.  In the numbers a traffic call
does not wrap around, because the current counter is at most the sum. -/
theorem run_counted {u v : UserImpl} {as : List SessionAction}
    (h : Transition.Reaches sessionStep LoggingOn u as v) (hu : u.Sound) (side : Side) (dir : Dir) :
    v.counted id side dir = u.counted id side dir + BitVec.ofNat 64 (accounted side dir u as) ∧
    (u.counted BitVec.toNat side dir + accounted side dir u as < 2 ^ 64 →
      v.counted BitVec.toNat side dir =
        u.counted BitVec.toNat side dir + accounted side dir u as) := by
  induction h with
  | nil s => simp [accounted]
  | @cons s s' t a as hlog hs hrun ih =>
    obtain ⟨hsound, hstep⟩ := sessionStep_sound hu a hlog hs
    obtain ⟨ihw, ihn⟩ := ih hsound
    have htotal : accounted side dir s (a :: as) =
        s.bytesOf side dir a + accounted side dir s' as := by
      simp only [accounted, hs]
    rw [htotal]
    rcases hstep side dir with ⟨hl, hse⟩ | ⟨h0, hledger⟩
    · have hw : s'.counted id side dir =
          s.counted id side dir + BitVec.ofNat 64 (s.bytesOf side dir a) := by
        simp only [counted, hl, hse, id, add_assoc]
      refine ⟨by rw [ihw, hw, BitVec.ofNat_add, add_assoc], fun hlt => ?_⟩
      have hn : s'.counted BitVec.toNat side dir =
          s.counted BitVec.toNat side dir + s.bytesOf side dir a := by
        have hle : (s.session side dir).toNat ≤ s.counted BitVec.toNat side dir :=
          Nat.le_add_left _ _
        have hfit : (s.session side dir).toNat + s.bytesOf side dir a < 2 ^ 64 := by omega
        have hb : s.bytesOf side dir a < 2 ^ 64 := by omega
        simp only [counted, hl, hse, BitVec.toNat_add, BitVec.toNat_ofNat,
          Nat.mod_eq_of_lt hb, Nat.mod_eq_of_lt hfit, add_assoc]
      rw [ihn (by omega), hn, add_assoc]
    · have hw : s'.counted id side dir = s.counted id side dir := by
        rw [counted_eq_sum_ledger id rfl, counted_eq_sum_ledger id rfl, hledger]
      have hn : s'.counted BitVec.toNat side dir = s.counted BitVec.toNat side dir := by
        rw [counted_eq_sum_ledger _ rfl, counted_eq_sum_ledger _ rfl, hledger]
      rw [h0, zero_add, ← hw, ← hn]
      exact ⟨ihw, ihn⟩

/-- **Session log consistency.** Take a fresh user and any run of authorizations,
unauthorizations, `Run`, traffic calls, midnight and month resets and changes of properties, with
session logging enabled throughout.  Then connects and disconnects alternate in the log, starting
with a connect; the user is connected iff the last record is a connect; a connected user is
authorized and has an address to disconnect; and for each side and direction the counters in the
disconnect records and the current counter add up to the bytes accounted to the user, in the
64-bit arithmetic of the counters, and as numbers if that many bytes fit into a counter.

**Proof sketch.** The invariant rule with `sessionStep_sound`, and `run_counted`. -/
theorem session_log_consistent (u v : UserImpl) (as : List SessionAction) (hu : u.Fresh)
    (h : Transition.Reaches sessionStep LoggingOn u as v) :
    Alternates false v.sessionLog ∧
    (v.connected = true ↔ lastIsConnect false v.sessionLog = true) ∧
    (v.connected = true → v.authorizedBy ≠ ∅ ∧ v.lastIPForDisconnect ≠ 0) ∧
    ∀ side dir,
      (v.sessionLog.map fun r => r.session side dir).sum + v.session side dir =
        BitVec.ofNat 64 (accounted side dir u as) ∧
      (accounted side dir u as < 2 ^ 64 →
        (v.sessionLog.map fun r => (r.session side dir).toNat).sum +
          (v.session side dir).toNat = accounted side dir u as) := by
  have hv : v.Sound := h.invariant
    (fun s a s' hs hlog hstep => (sessionStep_sound hs a hlog hstep).1) hu.sound
  refine ⟨hv.alternates, by rw [hv.last], fun hc => ⟨hv.authorized hc, hv.lastIP hc⟩,
    fun side dir => ?_⟩
  obtain ⟨hw, hn⟩ := run_counted h hu.sound side dir
  rw [hu.counted rfl, zero_add] at hw hn
  exact ⟨hw, fun hlt => hn (by simpa using hlt)⟩

/-- The sample user is authorized, connected by `Run`, charged three bytes, reconnected by a change
of its tariff and finally unauthorized: four records, and the three bytes are in them. -/
theorem session_log_consistent_sample :
    let as : List SessionAction := [.authorize (Sample.env 0) (fun _ => none) 0 7 0 1,
      .run (Sample.env 1), .addTraffStat (Sample.env 2) .up 0 9 3,
      .setTariffName (Sample.env 3) "sample", .unauthorize (Sample.env 4) 1 ""]
    ∃ v, Transition.Reaches sessionStep LoggingOn (Sample.user "a") as v ∧
      v.sessionLog.map isConnect = [true, false, true, false] ∧
      Alternates false v.sessionLog ∧ accounted .up 0 (Sample.user "a") as = 3 ∧
      (v.sessionLog.map fun r => r.session .up 0).sum + v.session .up 0 = 3 := by
  intro as
  have hacc : accounted .up 0 (Sample.user "a") as = 3 := by decide +kernel
  refine ⟨_, .cons rfl rfl (.cons rfl rfl (.cons rfl rfl (.cons rfl rfl (.cons rfl rfl
    (.nil _))))), by decide +kernel, ?_⟩
  obtain ⟨halt, -, -, hsum⟩ := session_log_consistent (Sample.user "a") _ as
    ⟨rfl, rfl, rfl, rfl, rfl⟩ (.cons rfl rfl (.cons rfl rfl (.cons rfl rfl (.cons rfl rfl
      (.cons rfl rfl (.nil _))))))
  refine ⟨halt, hacc, ?_⟩
  rw [(hsum .up 0).1, hacc]
  rfl

end UserImpl

end Stargazer
