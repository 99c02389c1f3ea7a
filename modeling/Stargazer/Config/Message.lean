import Stargazer.SrvConf.ChgUser
import Stargazer.Users.Messages

set_option relaxedAutoImplicit false
set_option autoImplicit false

/-!
# Messages to several users

`SEND_MESSAGE` of `plugins/configuration/sgconfig/parser_message.cpp`: a request `Message` has the
logins of several users, and `End` calls `AddMessage` for each of them.  All the calls get a pointer to
the same message, and `AddMessage` changes the message if it can be delivered at once; so what one user
gets depends on who was online before it in the list.  The result of the checks of `Start` is
overwritten by the attribute `Text` and by `End`, and nothing looks at it.

## Main definitions

* `Stargazer.SendMessage.start`, `Stargazer.SendMessage.finish` — the functions.
* `Stargazer.SendMessage.Right` — every user gets what it would get alone, and a request that fails a
  check sends nothing.
* `Stargazer.SendMessage.Unaffected` — a user whose message is not affected by the users before it.

## Main results

* `Stargazer.SendMessage.invariant` — the message in the course of the loop.
* `Stargazer.SendMessage.request_right_iff` — the requests that are right.
-/

namespace Stargazer

namespace SendMessage

/-- `m_result`. -/
inductive Result
  | ok | paramsError | unknown
  deriving DecidableEq

/-- `SEND_MESSAGE`, between `Start` and `End`. -/
structure Parser where
  logins : List String := []
  result : Result := .ok
  msg : Message := {}
  answer : String := ""

/-- `str2x` for `uint32_t`, whose result nobody looks at. -/
def readUnsigned (v : List Char) : BitVec 32 := (CString.strtoul v).1.setWidth 32

/-- `str2x` for `int32_t`, whose result nobody looks at. -/
def readInt (v : List Char) : ℤ := (BitVec.ofInt 32 (CString.strtol v).1).toInt

/-- `SEND_MESSAGE::ParseLogins`. -/
def parseLogins (v : List Char) : List String :=
  (CString.tokens ':' (CString.cut v)).map String.ofList

/-- `SEND_MESSAGE::CreateAnswer`. -/
def Parser.createAnswer (p : Parser) : Parser :=
  { p with
    answer := match p.result with
      | .ok => "<SendMessageResult value=\"ok\"/>"
      | .paramsError => "<SendMessageResult value=\"Parameters error.\"/>"
      | .unknown => "<SendMessageResult value=\"Unknown user.\"/>" }

/-- What one attribute does. -/
def readAttr (p : Parser) (a : Xml.Attr) : Parser :=
  let h := p.msg.header
  if caseEq a.name "login" then { p with logins := parseLogins a.value }
  else if caseEq a.name "MsgVer" then
    { p with
      msg := { p.msg with header := { h with ver := readUnsigned a.value } }
      result := if readUnsigned a.value ≠ 1 then .paramsError else p.result }
  else if caseEq a.name "MsgType" then
    { p with
      msg := { p.msg with header := { h with type := readUnsigned a.value } }
      result := if readUnsigned a.value ≠ 1 then .paramsError else p.result }
  else if caseEq a.name "Repeat" then
    { p with
      msg := { p.msg with header := { h with repeatCount := readInt a.value } }
      result := if readInt a.value < 0 then .paramsError else p.result }
  else if caseEq a.name "RepeatPeriod" then
    { p with msg := { p.msg with header := { h with repeatPeriod := readUnsigned a.value } } }
  else if caseEq a.name "ShowTime" then
    { p with msg := { p.msg with header := { h with showTime := readUnsigned a.value } } }
  else if caseEq a.name "Text" then
    { p with msg := { p.msg with text := String.ofList (decode21 a.value) }, result := .ok }
  else p

/-- `SEND_MESSAGE::Start`.  It looks at fourteen pointers, which are seven attributes. -/
def start (p : Parser) (el : List Char) (attrs : List Xml.Attr) : Parser :=
  if caseEq el "Message" then
    if attrs.length < 7 then { p with result := .paramsError }.createAnswer
    else (attrs.take 7).foldl readAttr p
  else p

/-- The users who can be found, with their messages. -/
abbrev Boxes := String → Option MessageBox

/-- The loop of `End`. -/
structure Loop where
  msg : Message
  result : Result
  boxes : Boxes

/-- The time of creation. -/
def stamp (env : MessageEnv) (m : Message) : Message :=
  { m with header := { m.header with creationTime := BitVec.ofInt 32 env.time } }

/-- The body of the loop. -/
def send (env : MessageEnv) (st : Loop) (login : String) : Loop :=
  match st.boxes login with
  | none => st
  | some box =>
    let added := box.addMessage env (stamp env st.msg)
    ⟨added.msg, .ok, Function.update st.boxes login (some added.box)⟩

/-- The loop from some login on. -/
def sendAll (env : ℕ → MessageEnv) : ℕ → List String → Loop → Loop
  | _, [], st => st
  | i, login :: logins, st => sendAll env (i + 1) logins (send (env i) st login)

/-- `SEND_MESSAGE::End`; `env i` is what the `i`-th call of `AddMessage` finds. -/
def finish (env : ℕ → MessageEnv) (boxes : Boxes) (p : Parser) (el : List Char) : Parser × Boxes :=
  if caseEq el "Message" then
    let st := sendAll env 0 p.logins ⟨p.msg, .unknown, boxes⟩
    ({ p with msg := st.msg, result := st.result }.createAnswer, st.boxes)
  else (p, boxes)

/-! ## What is asked for -/

/-- A check of one attribute fails. -/
def fails (a : Xml.Attr) : Bool :=
  caseEq a.name "MsgVer" && readUnsigned a.value != 1 ||
    caseEq a.name "MsgType" && readUnsigned a.value != 1 ||
    caseEq a.name "Repeat" && decide (readInt a.value < 0)

/-- A check of the request fails. -/
def Failed (attrs : List Xml.Attr) : Prop := attrs.length < 7 ∨ ∃ a ∈ attrs.take 7, fails a = true

/-- Each login of the list gets what it would get if it were the only one: in the state that the
calls before it leave behind, the request does to the user with the login what the same request with
this login alone does. -/
def Independent (env : ℕ → MessageEnv) (boxes : Boxes) (p : Parser) (el : List Char) : Prop :=
  ∀ before login after, p.logins = before ++ login :: after →
    (finish env boxes { p with logins := before ++ [login] } el).2 login =
      (finish (fun _ => env before.length) (finish env boxes { p with logins := before } el).2
        { p with logins := [login] } el).2 login

/-- Every user gets what it would get alone, and a request that fails a check sends nothing. -/
structure Right (env : ℕ → MessageEnv) (boxes : Boxes) (el : List Char) (attrs : List Xml.Attr) :
    Prop where
  independent : Independent env boxes (start {} el attrs) el
  nothing : Failed attrs → (finish env boxes (start {} el attrs) el).2 = boxes

/-! ## What the attributes say -/

/-- The value of the last attribute with a name among the first seven. -/
def lastValue (name : String) (attrs : List Xml.Attr) : Option (List Char) :=
  ((attrs.take 7).reverse.find? fun a => caseEq a.name name).map Xml.Attr.value

/-- The logins of a request. -/
def loginsOf (attrs : List Xml.Attr) : List String :=
  if attrs.length < 7 then [] else ((lastValue "login" attrs).map parseLogins).getD []

/-- The number of repetitions a request asks for. -/
def repeatOf (attrs : List Xml.Attr) : ℤ :=
  if attrs.length < 7 then 0 else ((lastValue "Repeat" attrs).map readInt).getD 0

/-- Names that differ do not both match. -/
theorem caseEq_eq_false_of_caseEq {v : List Char} {s t : String} (h : caseEq v s = true)
    (hne : CString.foldCase s.toList ≠ CString.foldCase t.toList) : caseEq v t = false := by
  rw [caseEq, decide_eq_true_eq] at h
  rw [caseEq, decide_eq_false_iff_not, h]
  exact hne

/-- An attribute sets the logins iff it is called so. -/
theorem logins_readAttr (p : Parser) (a : Xml.Attr) :
    (readAttr p a).logins = if caseEq a.name "login" then parseLogins a.value else p.logins := by
  simp only [readAttr]
  split_ifs <;> rfl

/-- An attribute sets the number of repetitions iff it is called so. -/
theorem repeatCount_readAttr (p : Parser) (a : Xml.Attr) :
    (readAttr p a).msg.header.repeatCount =
      if caseEq a.name "Repeat" then readInt a.value else p.msg.header.repeatCount := by
  by_cases hrepeat : caseEq a.name "Repeat" = true
  · have hlogin := caseEq_eq_false_of_caseEq (t := "login") hrepeat (by decide)
    have hver := caseEq_eq_false_of_caseEq (t := "MsgVer") hrepeat (by decide)
    have htype := caseEq_eq_false_of_caseEq (t := "MsgType") hrepeat (by decide)
    simp [readAttr, hrepeat, hlogin, hver, htype]
  · rw [if_neg hrepeat]
    simp only [readAttr, if_neg hrepeat]
    split_ifs <;> rfl

/-- What only the attributes with a name set is set by the last of them. -/
theorem foldl_readAttr {β : Type} {g : Parser → β} {name : String} {f : List Char → β}
    (h : ∀ p a, g (readAttr p a) = if caseEq a.name name then f a.value else g p)
    (l : List Xml.Attr) (p : Parser) :
    g (l.foldl readAttr p) =
      (((l.reverse.find? fun a => caseEq a.name name).map Xml.Attr.value).map f).getD (g p) := by
  induction l using List.reverseRecOn with
  | nil => rfl
  | append_singleton l a ih =>
    rw [List.foldl_append, List.foldl_cons, List.foldl_nil, h, List.reverse_append,
      List.reverse_singleton, List.singleton_append]
    by_cases ha : caseEq a.name name = true
    · simp [ha]
    · simp [ha, ih]

/-- What `Start` reads. -/
theorem start_eq {el : List Char} (hel : caseEq el "Message" = true) (attrs : List Xml.Attr) :
    (start {} el attrs).logins = loginsOf attrs ∧
      (start {} el attrs).msg.header.repeatCount = repeatOf attrs := by
  rw [start, if_pos hel, loginsOf, repeatOf]
  split_ifs
  · exact ⟨rfl, rfl⟩
  · exact ⟨foldl_readAttr logins_readAttr (attrs.take 7) {},
      foldl_readAttr (g := fun p => p.msg.header.repeatCount) repeatCount_readAttr (attrs.take 7) {}⟩

/-! ## One call -/

/-- The number of repetitions that is left after a delivery at once. -/
def left (n : ℤ) : ℤ := if 1 < n then n - 2 else n - 1

theorem left_lt (n : ℤ) : left n < n := by
  unfold left
  split_ifs <;> omega

theorem iterate_left_le (k : ℕ) (n : ℤ) : left^[k] n ≤ n := by
  induction k with
  | zero => exact le_refl n
  | succ k ih =>
    rw [Function.iterate_succ_apply']
    exact (left_lt _).le.trans ih

theorem iterate_left_lt {k : ℕ} (hk : k ≠ 0) (n : ℤ) : left^[k] n < n := by
  obtain ⟨k, rfl⟩ := Nat.exists_eq_succ_of_ne_zero hk
  rw [Function.iterate_succ_apply']
  exact (left_lt _).trans_le (iterate_left_le k n)

/-- Two messages have what a request says in common, but for the repetitions. -/
structure Kin (m m' : Message) : Prop where
  ver : m'.header.ver = m.header.ver
  type : m'.header.type = m.header.type
  showTime : m'.header.showTime = m.header.showTime
  repeatPeriod : m'.header.repeatPeriod = m.header.repeatPeriod
  text : m'.text = m.text

/-- **What a call leaves of the message**: the repetitions and the time change if the message is
delivered at once. -/
theorem addMessage_msg (env : MessageEnv) (m : Message) (box : MessageBox) :
    Kin m (box.addMessage env m).msg ∧
      (box.addMessage env m).msg.header.repeatCount =
        (if env.takes box.next then left m.header.repeatCount else m.header.repeatCount) ∧
      (env.takes box.next = false →
        (box.addMessage env m).msg.header.lastSendTime = m.header.lastSendTime) := by
  have henqueue (what : String) (m : Message) (box : MessageBox) (tag : ℕ) :
      (MessageBox.enqueue env what m tag box).msg =
        { m with header := { m.header with id := env.addMessage.2 } } := by
    unfold MessageBox.enqueue
    split <;> rfl
  have hsent (m : Message) : (env.sent m).header.repeatCount = m.header.repeatCount - 1 := rfl
  by_cases htakes : env.takes box.next = true
  · simp only [MessageBox.addMessage, htakes, if_true, hsent, left]
    by_cases hrepeat : 1 < m.header.repeatCount
    · rw [if_pos (by omega), if_pos hrepeat, henqueue]
      refine ⟨⟨rfl, rfl, rfl, rfl, rfl⟩, ?_, fun h => absurd h.symm Bool.false_ne_true⟩
      change m.header.repeatCount - 1 - 1 = _
      omega
    · rw [if_neg (by omega), if_neg hrepeat]
      exact ⟨⟨rfl, rfl, rfl, rfl, rfl⟩, rfl, fun h => absurd h.symm Bool.false_ne_true⟩
  · simp only [MessageBox.addMessage, if_neg htakes, henqueue]
    exact ⟨⟨rfl, rfl, rfl, rfl, rfl⟩, trivial, fun _ => trivial⟩

/-- The store fails. -/
def StoreFails (env : MessageEnv) : Prop := env.addMessage.1 ≠ none

/-- Messages that are alike in everything but what the store sets. -/
theorem Kin.eq {m m' : Message} (h : Kin m m')
    (hcreated : m'.header.creationTime = m.header.creationTime)
    (hrepeat : m'.header.repeatCount = m.header.repeatCount)
    (hlast : m'.header.lastSendTime = m.header.lastSendTime) (id : ℕ) :
    ({ m' with header := { m'.header with id := id } } : Message) =
      { m with header := { m.header with id := id } } := by
  dsimp only
  rw [h.ver, h.type, h.showTime, h.repeatPeriod, h.text, hcreated, hrepeat, hlast]

/-- When two messages are stored alike. -/
theorem enqueue_box_eq_iff {env : MessageEnv} {m m' : Message} (hkin : Kin m m')
    (hcreated : m'.header.creationTime = m.header.creationTime) (what : String) (tag : ℕ)
    (box : MessageBox) :
    (MessageBox.enqueue env what m' tag box).box = (MessageBox.enqueue env what m tag box).box ↔
      StoreFails env ∨ m'.header.repeatCount = m.header.repeatCount ∧
        m'.header.lastSendTime = m.header.lastSendTime := by
  unfold MessageBox.enqueue StoreFails
  cases hstore : env.addMessage.1 with
  | some e => simp
  | none =>
    constructor
    · intro h
      have hmsg : (⟨tag, { m' with header := { m'.header with id := env.addMessage.2 } }⟩ : Queued) =
          ⟨tag, { m with header := { m.header with id := env.addMessage.2 } }⟩ := by
        simpa using congrArg MessageBox.messages h
      exact .inr ⟨congrArg (fun x : Queued => x.msg.header.repeatCount) hmsg,
        congrArg (fun x : Queued => x.msg.header.lastSendTime) hmsg⟩
    · rintro (h | ⟨hrepeat, hlast⟩)
      · exact absurd rfl h
      · rw [hkin.eq hcreated hrepeat hlast]

/-- What is stored, or fails to be, leaves a trace. -/
theorem enqueue_box_ne (env : MessageEnv) (what : String) (m : Message) (tag : ℕ) (box : MessageBox) :
    (MessageBox.enqueue env what m tag box).box ≠ box := by
  unfold MessageBox.enqueue
  cases env.addMessage.1 with
  | some e => exact fun h => by simpa using congrArg (fun b : MessageBox => b.log.servLog) h
  | none => exact fun h => by simpa using congrArg MessageBox.messages h

/-- **When a call does the same with two messages.** -/
theorem addMessage_box_eq_iff {env : MessageEnv} {m m' : Message} (hkin : Kin m m')
    (hcreated : m'.header.creationTime = m.header.creationTime) (box : MessageBox) :
    (box.addMessage env m').box = (box.addMessage env m).box ↔
      if env.takes box.next then
        m'.header.repeatCount = m.header.repeatCount ∨
          m'.header.repeatCount ≤ 1 ∧ m.header.repeatCount ≤ 1 ∨
          StoreFails env ∧ 1 < m'.header.repeatCount ∧ 1 < m.header.repeatCount
      else
        StoreFails env ∨ m'.header.repeatCount = m.header.repeatCount ∧
          m'.header.lastSendTime = m.header.lastSendTime := by
  have hsent (m : Message) : (env.sent m).header.repeatCount = m.header.repeatCount - 1 := rfl
  have hlast : (env.sent (env.sent m')).header.lastSendTime =
    (env.sent (env.sent m)).header.lastSendTime := rfl
  have htwice : Kin (env.sent (env.sent m)) (env.sent (env.sent m')) :=
    ⟨hkin.ver, hkin.type, hkin.showTime, hkin.repeatPeriod, hkin.text⟩
  by_cases htakes : env.takes box.next = true
  · simp only [MessageBox.addMessage, htakes, if_true, hsent]
    by_cases h : 0 < m.header.repeatCount - 1
    · by_cases h' : 0 < m'.header.repeatCount - 1
      · rw [if_pos h, if_pos h', enqueue_box_eq_iff htwice hcreated, hsent, hsent, hsent, hsent]
        have hiff : m'.header.repeatCount - 1 - 1 = m.header.repeatCount - 1 - 1 ↔
            m'.header.repeatCount = m.header.repeatCount := by omega
        have hnot : ¬ (m'.header.repeatCount ≤ 1 ∧ m.header.repeatCount ≤ 1) := by omega
        have hboth : 1 < m'.header.repeatCount ∧ 1 < m.header.repeatCount := by omega
        rw [hiff]
        simp only [hlast, hnot, hboth, and_true, false_or]
        exact or_comm
      · rw [if_pos h, if_neg h']
        refine iff_of_false (fun heq => enqueue_box_ne _ _ _ _ _ heq.symm) ?_
        omega
    · by_cases h' : 0 < m'.header.repeatCount - 1
      · rw [if_neg h, if_pos h']
        refine iff_of_false (enqueue_box_ne _ _ _ _ _) ?_
        omega
      · rw [if_neg h, if_neg h']
        exact iff_of_true rfl (by omega)
  · simp only [MessageBox.addMessage, if_neg htakes]
    exact enqueue_box_eq_iff hkin hcreated _ _ _

/-- Every call gives a tag. -/
theorem next_addMessage (env : MessageEnv) (m : Message) (box : MessageBox) :
    (box.addMessage env m).box.next = box.next + 1 := by
  obtain ⟨_, _, _, hbox, -⟩ := MessageBox.addMessage_cases env m box
  rw [hbox]

/-! ## The loop -/

section Loop

variable (env : ℕ → MessageEnv) (boxes : Boxes)

/-- Is the message delivered at once to a login that stands behind others? -/
def takenAt (before : List String) (login : String) : Bool :=
  match boxes login with
  | none => false
  | some box => (env before.length).takes (box.next + before.count login)

/-- The number of logins of a list that stands behind another one to which the message is delivered
at once. -/
def takenFrom (before : List String) : List String → ℕ
  | [] => 0
  | login :: logins =>
    (if takenAt env boxes before login then 1 else 0) + takenFrom (before ++ [login]) logins

/-- The number of logins of a list to which the message is delivered at once. -/
def taken (logins : List String) : ℕ := takenFrom env boxes [] logins

theorem takenFrom_snoc (before logins : List String) (login : String) :
    takenFrom env boxes before (logins ++ [login]) =
      takenFrom env boxes before logins +
        if takenAt env boxes (before ++ logins) login then 1 else 0 := by
  induction logins generalizing before with
  | nil => simp [takenFrom]
  | cons x logins ih =>
    rw [List.cons_append, takenFrom, takenFrom, ih, List.append_assoc, List.singleton_append]
    omega

theorem taken_snoc (logins : List String) (login : String) :
    taken env boxes (logins ++ [login]) =
      taken env boxes logins + if takenAt env boxes logins login then 1 else 0 :=
  takenFrom_snoc env boxes [] logins login

/-- The last login. -/
theorem sendAll_snoc (i : ℕ) (logins : List String) (login : String) (st : Loop) :
    sendAll env i (logins ++ [login]) st =
      send (env (i + logins.length)) (sendAll env i logins st) login := by
  induction logins generalizing i st with
  | nil => rfl
  | cons x logins ih =>
    rw [List.cons_append, sendAll, sendAll, ih, List.length_cons, Nat.add_assoc, Nat.add_comm 1]

/-- The loop behind some logins: how many tags each user has given, and what has become of the
message. -/
structure Invariant (m : Message) (logins : List String) (st : Loop) : Prop where
  next : ∀ l, (st.boxes l).map MessageBox.next = (boxes l).map fun b => b.next + logins.count l
  kin : Kin m st.msg
  repeatCount : st.msg.header.repeatCount = left^[taken env boxes logins] m.header.repeatCount
  lastSendTime : taken env boxes logins = 0 → st.msg.header.lastSendTime = m.header.lastSendTime

variable {env boxes}

/-- A user that can be found can be found all along. -/
theorem Invariant.eq_none_iff {m : Message} {logins : List String} {st : Loop}
    (h : Invariant env boxes m logins st) (l : String) : st.boxes l = none ↔ boxes l = none := by
  rw [← Option.map_eq_none_iff (f := MessageBox.next), h.next l, Option.map_eq_none_iff]

/-- The tag of the next message. -/
theorem Invariant.takenAt_eq {m : Message} {logins : List String} {st : Loop}
    (h : Invariant env boxes m logins st) {l : String} {box : MessageBox} (hbox : st.boxes l = some box) :
    takenAt env boxes logins l = (env logins.length).takes box.next := by
  have hnext := h.next l
  rw [hbox, Option.map_some] at hnext
  obtain ⟨b, hb, hb'⟩ := Option.map_eq_some_iff.1 hnext.symm
  rw [takenAt, hb, ← hb']

/-- **One round of the loop.** -/
theorem Invariant.send {m : Message} {logins : List String} {st : Loop}
    (h : Invariant env boxes m logins st) (login : String) :
    Invariant env boxes m (logins ++ [login]) (send (env logins.length) st login) := by
  have hcount (l : String) : (logins ++ [login]).count l =
      logins.count l + if login = l then 1 else 0 := by
    rw [List.count_append, List.count_singleton]
    simp
  unfold SendMessage.send
  cases hbox : st.boxes login with
  | none =>
    have hnone := (h.eq_none_iff login).1 hbox
    have htaken : takenAt env boxes logins login = false := by rw [takenAt, hnone]
    have heq : taken env boxes (logins ++ [login]) = taken env boxes logins := by
      rw [taken_snoc, htaken]
      rfl
    refine ⟨fun l => ?_, h.kin, by rw [heq]; exact h.repeatCount, fun hzero => ?_⟩
    · rw [h.next l, hcount]
      by_cases hl : login = l
      · rw [← hl, hnone]
        rfl
      · rw [if_neg hl]
        rfl
    · rw [heq] at hzero
      exact h.lastSendTime hzero
  | some box =>
    have htaken := h.takenAt_eq hbox
    obtain ⟨hkin, hrepeat, hlast⟩ :=
      addMessage_msg (env logins.length) (stamp (env logins.length) st.msg) box
    refine ⟨fun l => ?_, ?_, ?_, fun hzero => ?_⟩
    · rw [hcount]
      by_cases hl : login = l
      · subst hl
        have hnext := h.next login
        rw [hbox, Option.map_some] at hnext
        obtain ⟨b, hb, hb'⟩ := Option.map_eq_some_iff.1 hnext.symm
        simp only [Function.update_self, Option.map_some, next_addMessage, hb, if_true, ← hb']
        rfl
      · simp only [Function.update_of_ne (Ne.symm hl), h.next l, if_neg hl]
        rfl
    · exact ⟨hkin.ver.trans h.kin.ver, hkin.type.trans h.kin.type, hkin.showTime.trans h.kin.showTime,
        hkin.repeatPeriod.trans h.kin.repeatPeriod, hkin.text.trans h.kin.text⟩
    · rw [taken_snoc, htaken, hrepeat]
      change (if _ then left st.msg.header.repeatCount else st.msg.header.repeatCount) = _
      rw [h.repeatCount]
      split_ifs
      · exact (Function.iterate_succ_apply' _ _ _).symm
      · rfl
    · rw [taken_snoc, htaken] at hzero
      cases ht : (env logins.length).takes box.next with
      | true =>
        rw [ht, if_pos rfl] at hzero
        omega
      | false =>
        rw [ht, if_neg Bool.false_ne_true] at hzero
        exact (hlast ht).trans (h.lastSendTime hzero)

/-- **The message in the course of the loop.**

**Proof sketch.** Induction on the logins, from the end. -/
theorem invariant (m : Message) (logins : List String) :
    Invariant env boxes m logins (sendAll env 0 logins ⟨m, .unknown, boxes⟩) := by
  induction logins using List.reverseRecOn with
  | nil =>
    refine ⟨fun l => ?_, ⟨rfl, rfl, rfl, rfl, rfl⟩, rfl, fun _ => rfl⟩
    change (boxes l).map MessageBox.next = (boxes l).map fun b => b.next + 0
    rfl
  | append_singleton logins login ih =>
    rw [sendAll_snoc, Nat.zero_add]
    exact ih.send login

/-- A request sends nothing iff none of its users can be found. -/
theorem boxes_sendAll_eq_iff (m : Message) (logins : List String) :
    (sendAll env 0 logins ⟨m, .unknown, boxes⟩).boxes = boxes ↔ ∀ l ∈ logins, boxes l = none := by
  have hinv : Invariant env boxes m logins (sendAll env 0 logins ⟨m, .unknown, boxes⟩) :=
    invariant m logins
  constructor
  · intro heq l hl
    have hnext := hinv.next l
    rw [heq] at hnext
    cases hbox : boxes l with
    | none => rfl
    | some b =>
      rw [hbox, Option.map_some, Option.map_some, Option.some.injEq] at hnext
      have hpos := List.count_pos_iff.2 hl
      omega
  · intro hnone
    induction logins using List.reverseRecOn with
    | nil => rfl
    | append_singleton logins login ih =>
      have hbefore := ih (invariant m logins) fun l hl => hnone l (List.mem_append_left _ hl)
      rw [sendAll_snoc, send, hbefore, hnone login (by simp)]
      exact hbefore

end Loop

/-! ## Which requests are right -/

/-- **A login is not affected by those before it**: there is no such user, or the message has not been
delivered at once before; or it is delivered at once now, and either is not to be repeated more than
once, or is stored in no case, for the store fails; or the store fails to take it. -/
def Unaffected (env : ℕ → MessageEnv) (boxes : Boxes) (n : ℤ) (before : List String) (login : String) :
    Prop :=
  boxes login = none ∨ taken env boxes before = 0 ∨
    if takenAt env boxes before login then
      n ≤ 1 ∨ StoreFails (env before.length) ∧ 1 < left^[taken env boxes before] n
    else StoreFails (env before.length)

/-- **One login**: it gets what it would get alone iff it is not affected by those before it. -/
theorem finish_eq_iff (env : ℕ → MessageEnv) (boxes : Boxes) (p : Parser) {el : List Char}
    (hel : caseEq el "Message" = true) (before : List String) (login : String) :
    (finish env boxes { p with logins := before ++ [login] } el).2 login =
        (finish (fun _ => env before.length) (finish env boxes { p with logins := before } el).2
          { p with logins := [login] } el).2 login ↔
      Unaffected env boxes p.msg.header.repeatCount before login := by
  have hinv : Invariant env boxes p.msg before (sendAll env 0 before ⟨p.msg, .unknown, boxes⟩) :=
    invariant p.msg before
  simp only [finish, hel, if_true, sendAll_snoc, sendAll, Nat.zero_add]
  generalize sendAll env 0 before ⟨p.msg, .unknown, boxes⟩ = st at *
  unfold Unaffected send
  cases hbox : st.boxes login with
  | none => simp [(hinv.eq_none_iff login).1 hbox, hbox]
  | some box =>
    have hsome : boxes login ≠ none := fun h => by simp [(hinv.eq_none_iff login).2 h] at hbox
    have hkin : Kin (stamp (env before.length) p.msg) (stamp (env before.length) st.msg) :=
      ⟨hinv.kin.ver, hinv.kin.type, hinv.kin.showTime, hinv.kin.repeatPeriod, hinv.kin.text⟩
    simp only [Function.update_self, Option.some.injEq, addMessage_box_eq_iff hkin rfl,
      hinv.takenAt_eq hbox, hsome, false_or]
    change (if _ then st.msg.header.repeatCount = p.msg.header.repeatCount ∨
        st.msg.header.repeatCount ≤ 1 ∧ p.msg.header.repeatCount ≤ 1 ∨
        _ ∧ 1 < st.msg.header.repeatCount ∧ 1 < p.msg.header.repeatCount
      else _ ∨ st.msg.header.repeatCount = p.msg.header.repeatCount ∧
        st.msg.header.lastSendTime = p.msg.header.lastSendTime) ↔ _
    rw [hinv.repeatCount]
    by_cases hzero : taken env boxes before = 0
    · simp [hzero, hinv.lastSendTime hzero]
    · have hlt := iterate_left_lt hzero p.msg.header.repeatCount
      simp only [hzero, false_or, hlt.ne, false_and, or_false]
      split_ifs
      · constructor
        · rintro (⟨-, hle⟩ | ⟨hfails, hlt', -⟩)
          · exact .inl hle
          · exact .inr ⟨hfails, hlt'⟩
        · rintro (hle | ⟨hfails, hlt'⟩)
          · exact .inl ⟨by omega, hle⟩
          · exact .inr ⟨hfails, hlt', by omega⟩
      · rfl

/-- **The requests that are right**: no login is affected by those before it, and if a check fails,
none of the users can be found.

**Proof sketch.** One call of `AddMessage` does the same with the message as it was read and with the
message that the calls before it have left behind iff the two agree in what the call looks at
(`addMessage_box_eq_iff`); what is left behind is known (`invariant`).  The result of the checks is
never looked at, so a request sends nothing iff there is nobody to send it to. -/
theorem request_right_iff (env : ℕ → MessageEnv) (boxes : Boxes) {el : List Char}
    (hel : caseEq el "Message" = true) (attrs : List Xml.Attr) :
    Right env boxes el attrs ↔
      (∀ before login after, loginsOf attrs = before ++ login :: after →
        Unaffected env boxes (repeatOf attrs) before login) ∧
      (Failed attrs → ∀ login ∈ loginsOf attrs, boxes login = none) := by
  obtain ⟨hlogins, hrepeat⟩ := start_eq hel attrs
  have hnothing : (finish env boxes (start {} el attrs) el).2 = boxes ↔
      ∀ login ∈ loginsOf attrs, boxes login = none := by
    rw [finish, if_pos hel, hlogins]
    exact boxes_sendAll_eq_iff _ _
  have hindependent : Independent env boxes (start {} el attrs) el ↔
      ∀ before login after, loginsOf attrs = before ++ login :: after →
        Unaffected env boxes (repeatOf attrs) before login := by
    unfold Independent
    rw [hlogins]
    refine forall_congr' fun before => forall_congr' fun login => forall_congr' fun after =>
      forall_congr' fun _ => ?_
    rw [finish_eq_iff env boxes _ hel before login, hrepeat]
  rw [← hindependent, ← hnothing]
  exact ⟨fun h => ⟨h.independent, h.nothing⟩, fun h => ⟨h.1, h.2⟩⟩

namespace Sample

/-- The attributes of a request. -/
def attrs (logins : String) : List Xml.Attr :=
  [("Login", logins), ("MsgVer", "1"), ("MsgType", "1"), ("Repeat", "1"), ("RepeatPeriod", "10"),
    ("ShowTime", "0"), ("Text", "igjg")].map fun a => ⟨a.1.toList, a.2.toList⟩

/-- Two users, of whom only the first one is online. -/
def env (i : ℕ) : MessageEnv := if i = 0 then MessageBox.Sample.online 0 else MessageBox.Sample.offline 0

/-- Nobody has any messages. -/
def boxes : Boxes := fun _ => some {}

end Sample

/-- Two users who are both online, and a message that is to be repeated once. -/
theorem right_of_online :
    Right (fun _ => MessageBox.Sample.online 0) Sample.boxes "Message".toList (Sample.attrs "alice:bob") := by
  refine (request_right_iff _ _ (by decide) _).2 ⟨fun before login after hlogins => ?_, fun hfailed => ?_⟩
  · rw [show loginsOf (Sample.attrs "alice:bob") = ["alice", "bob"] by decide] at hlogins
    obtain _ | ⟨first, before⟩ := before
    · exact .inr (.inl rfl)
    · have htakes : takenAt (fun _ => MessageBox.Sample.online 0) Sample.boxes (first :: before) login = true :=
        MessageBox.Sample.takes_online 0 0
      refine .inr (.inr ?_)
      rw [htakes, if_pos rfl]
      exact .inl (by decide)
  · rcases hfailed with hlen | ⟨a, ha, hfails⟩
    · exact absurd hlen (by decide)
    · exact absurd hfails
        ((by decide : ∀ a ∈ (Sample.attrs "alice:bob").take 7, ¬ fails a = true) a ha)

/-- **The first user is online and the second one is not**: the message for the second one is not to
be repeated any more. -/
theorem second_login_affected :
    ¬ Right Sample.env Sample.boxes "Message".toList (Sample.attrs "alice:bob") := by
  intro h
  have hsplit : (start {} "Message".toList (Sample.attrs "alice:bob")).logins =
      ["alice"] ++ "bob" :: [] := by decide
  have hfirst : takenAt Sample.env Sample.boxes [] "alice" = true := MessageBox.Sample.takes_online 0 0
  have hsecond : takenAt Sample.env Sample.boxes ["alice"] "bob" = false :=
    MessageBox.Sample.takes_offline 0 _
  have htaken : taken Sample.env Sample.boxes ["alice"] = 1 := by
    rw [taken, takenFrom, hfirst]
    rfl
  rcases (finish_eq_iff _ _ _ (by decide) _ _).1 (h.independent _ _ _ hsplit) with hnone | hzero | hlast
  · cases hnone
  · rw [htaken] at hzero
    cases hzero
  · rw [hsecond, if_neg Bool.false_ne_true] at hlast
    exact hlast rfl

end SendMessage

end Stargazer
