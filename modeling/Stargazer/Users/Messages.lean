import Stargazer.Lib.EraseScan
import Stargazer.Lib.Run
import Stargazer.Users.UserImpl

set_option relaxedAutoImplicit false
set_option autoImplicit false

/-!
# Messages to users

`UserImpl::AddMessage`, `SendMessage` and `ScanMessage` of `user_impl.cpp`.  A message that cannot be
sent when it is added, or that is to be repeated, waits in the vector `messages`; a scan sends the
messages that are due, and erases those that have timed out or were sent for the last time.

Two things are not as they look.  The scan erases with `messages.erase(it++)`, so it passes over the
message behind an erased one and runs behind the end if the last one is erased.  And the time of the
next attempt is computed from the number of repetitions that are left, not from their period.

A message is followed through its life by a number, its tag, which the code does not have.

## Main definitions

* `Stargazer.Message`, `Stargazer.Queued` — messages, and messages with their tags.
* `Stargazer.MessageBox.addMessage`, `Stargazer.MessageBox.scanMessage` — the functions.
* `Stargazer.MessageBox.step` — one step of a run.

## Main results

* `Stargazer.MessageBox.scanMessage_right_iff` — when a scan treats every message once.
* `Stargazer.MessageBox.delivers_alike_iff` — the messages whose number of deliveries is the same online
  and offline.
* `Stargazer.MessageBox.keepsPeriod_iff` — the messages whose deliveries keep the period in every run.
-/

namespace Stargazer

/-- `Message::Header`. -/
structure MessageHeader where
  id : ℕ := 0
  ver : BitVec 32 := 0
  type : BitVec 32 := 0
  lastSendTime : BitVec 32 := 0
  creationTime : BitVec 32 := 0
  showTime : BitVec 32 := 0
  /-- `repeat`, an `int`. -/
  repeatCount : ℤ := 0
  repeatPeriod : BitVec 32 := 0
  deriving DecidableEq

/-- `Message`. -/
structure Message where
  header : MessageHeader := {}
  text : String := ""
  deriving DecidableEq

/-- `Message::GetNextSendTime`: a sum of unsigned numbers of 32 bits. -/
def Message.getNextSendTime (m : Message) : Time :=
  ((m.header.lastSendTime + BitVec.ofInt 32 (m.header.repeatCount * 60)).toNat : ℤ)

/-- A message of the queue, with its tag. -/
structure Queued where
  tag : ℕ
  msg : Message
  deriving DecidableEq

/-- What the functions find when they are called. -/
structure MessageEnv where
  /-- The user. -/
  user : UserImpl
  /-- `stgTime`. -/
  stgTime : Time
  /-- `time(NULL)`. -/
  time : Time
  /-- `GetMessageTimeout`, in seconds. -/
  messageTimeout : ℕ := 0
  /-- Does `SendMessage` of an authorizer return `0` for the message with a tag? -/
  accepts : AuthId → ℕ → Bool := fun _ _ => true
  /-- The error of `store->AddMessage`, if there is one, and the `id` it gives. -/
  addMessage : Option String × ℕ := (none, 0)
  /-- The error of `store->DelMessage` for a message. -/
  delMessage : ℕ → Option String := fun _ => none
  /-- The error of `store->EditMessage` for a message. -/
  editMessage : ℕ → Option String := fun _ => none

/-- A successful call of `UserImpl::SendMessage`. -/
structure Delivery where
  tag : ℕ
  time : Time
  deriving DecidableEq

/-- What happens besides: the deliveries, and the lines of the server log. -/
structure MessageLog where
  deliveries : List Delivery := []
  servLog : List String := []

namespace MessageEnv

variable (env : MessageEnv)

/-- The result of `UserImpl::SendMessage`: does any of the authorizers take the message? -/
def takes (tag : ℕ) : Bool := decide (∃ a ∈ env.user.authorizedBy, env.accepts a tag = true)

/-- The message after a successful `UserImpl::SendMessage`. -/
def sent (m : Message) : Message :=
  { m with
    header :=
      { m.header with
        lastSendTime := BitVec.ofInt 32 env.time
        repeatCount := m.header.repeatCount - 1 } }

/-- Has a message timed out? -/
def timedOut (m : Message) : Bool :=
  decide (0 < env.messageTimeout ∧
    (env.messageTimeout : ℤ) < env.stgTime - (m.header.creationTime.toNat : ℤ))

/-- Is it time to send a message? -/
def due (m : Message) : Bool := decide (m.getNextSendTime ≤ env.stgTime)

/-- A line of the server log, if the store has failed. -/
def complain (log : MessageLog) (what : String) (err : Option String) : MessageLog :=
  { log with
    servLog := log.servLog ++ (err.map fun e => "Error " ++ what ++ " message: '" ++ e ++ "'").toList }

/-- A delivery is recorded. -/
def deliver (log : MessageLog) (tag : ℕ) : MessageLog :=
  { log with deliveries := log.deliveries ++ [⟨tag, env.time⟩] }

/-- The body of the loop of `ScanMessage`: `none` where the message is erased. -/
def visit (log : MessageLog) (x : Queued) : MessageLog × Option Queued :=
  if env.timedOut x.msg then
    (complain log "deleting" (env.delMessage x.tag), none)
  else if env.due x.msg then
    if env.takes x.tag then
      let m := env.sent x.msg
      if m.header.repeatCount < 0 then
        (complain (env.deliver log x.tag) "deleting" (env.delMessage x.tag), none)
      else
        (complain (env.deliver log x.tag) "modifying" (env.editMessage x.tag), some { x with msg := m })
    else (log, some x)
  else (log, some x)

end MessageEnv

/-- The messages of a user, with a record of what has happened. -/
structure MessageBox where
  /-- `messages`. -/
  messages : List Queued := []
  /-- What has happened. -/
  log : MessageLog := {}
  /-- The tag of the next message. -/
  next : ℕ := 0
  /-- Has a scan run behind the end of the vector? -/
  fault : Bool := false

/-- What `AddMessage` leaves behind: its result, the message it has a pointer to, and the box. -/
structure Added where
  ok : Bool
  msg : Message
  box : MessageBox

namespace MessageBox

/-- `store->AddMessage` and `messages.push_back`. -/
def enqueue (env : MessageEnv) (what : String) (m : Message) (tag : ℕ) (box : MessageBox) : Added :=
  let m := { m with header := { m.header with id := env.addMessage.2 } }
  match env.addMessage.1 with
  | some e =>
    ⟨false, m, { box with
      log := { box.log with servLog := box.log.servLog ++ ["Error adding " ++ what ++ ": '" ++ e ++ "'"] } }⟩
  | none => ⟨true, m, { box with messages := box.messages ++ [⟨tag, m⟩] }⟩

/-- `UserImpl::AddMessage`. -/
def addMessage (env : MessageEnv) (m : Message) (box : MessageBox) : Added :=
  let tag := box.next
  let box := { box with next := box.next + 1 }
  if env.takes tag then
    let m := env.sent m
    let box := { box with log := env.deliver box.log tag }
    if 0 < m.header.repeatCount then
      enqueue env "repeatable message" (env.sent m) tag box
    else ⟨true, m, box⟩
  else enqueue env "message" m tag box

/-- The loop of `UserImpl::ScanMessage`. -/
def scan (env : MessageEnv) (box : MessageBox) : EraseScan.Result MessageLog Queued :=
  EraseScan.loop env.visit box.log box.messages 0 []

/-- `UserImpl::ScanMessage`. -/
def scanMessage (env : MessageEnv) (box : MessageBox) : MessageBox :=
  { box with
    messages := (box.scan env).vec
    log := (box.scan env).state
    fault := (box.scan env).fault }

/-- What can happen. -/
inductive Action
  | addMessage (env : MessageEnv) (m : Message)
  | scanMessage (env : MessageEnv)

/-- What an action finds. -/
def Action.env : Action → MessageEnv
  | .addMessage env _ => env
  | .scanMessage env => env

/-- One step; nothing follows a scan that has run behind the end. -/
def step (box : MessageBox) : Action → Option MessageBox
  | .addMessage env m => if box.fault then none else some (box.addMessage env m).box
  | .scanMessage env => if box.fault then none else some (box.scanMessage env)

/-! ## One scan -/

/-- The scan stays inside the vector, looks at every message once and leaves, in their order, the
messages that neither have timed out nor were sent for the last time. -/
def ScansRight (env : MessageEnv) (box : MessageBox) : Prop :=
  EraseScan.Right env.visit box.log box.messages

/-- A message is erased: it has timed out, or it is due, is taken, and is not to be repeated. -/
def Ends (env : MessageEnv) (x : Queued) : Prop :=
  env.timedOut x.msg = true ∨
    env.due x.msg = true ∧ env.takes x.tag = true ∧ x.msg.header.repeatCount ≤ 0

/-- A message is erased iff it ends. -/
theorem visit_eq_none_iff (env : MessageEnv) (log : MessageLog) (x : Queued) :
    (env.visit log x).2 = none ↔ Ends env x := by
  unfold MessageEnv.visit Ends
  have hlt : (env.sent x.msg).header.repeatCount < 0 ↔ x.msg.header.repeatCount ≤ 0 := by
    change x.msg.header.repeatCount - 1 < 0 ↔ _
    omega
  by_cases htimeout : env.timedOut x.msg = true
  · simp [htimeout]
  · by_cases hdue : env.due x.msg = true
    · by_cases htakes : env.takes x.tag = true
      · by_cases hrepeat : x.msg.header.repeatCount ≤ 0
        · simp [htimeout, hdue, htakes, hrepeat, hlt.2 hrepeat]
        · have hnot : ¬ (env.sent x.msg).header.repeatCount < 0 := fun h => hrepeat (hlt.1 h)
          simp [htimeout, hdue, htakes, hrepeat, hnot]
      · simp [htimeout, hdue, htakes]
    · simp [htimeout, hdue]

/-- Nothing is erased iff no message ends. -/
theorem keeps_iff (env : MessageEnv) (log : MessageLog) (l : List Queued) :
    EraseScan.Keeps env.visit log l ↔ ∀ x ∈ l, ¬ Ends env x := by
  induction l generalizing log with
  | nil => simp [EraseScan.Keeps]
  | cons x l ih =>
    rw [EraseScan.Keeps, ih, List.forall_mem_cons, ← visit_eq_none_iff env log x,
      Option.isSome_iff_ne_none]

end MessageBox

/-! ## Counting deliveries -/

/-- The number of deliveries of a message. -/
def MessageLog.count (log : MessageLog) (t : ℕ) : ℕ := log.deliveries.countP fun d => d.tag = t

namespace MessageBox

/-- How often a message of the queue can still be delivered, at most. -/
def weight (t : ℕ) (l : List Queued) : ℕ :=
  (l.map fun x => if x.tag = t then x.msg.header.repeatCount.toNat + 1 else 0).sum

@[simp] theorem weight_nil (t : ℕ) : weight t [] = 0 := rfl

@[simp] theorem weight_cons (t : ℕ) (x : Queued) (l : List Queued) :
    weight t (x :: l) =
      (if x.tag = t then x.msg.header.repeatCount.toNat + 1 else 0) + weight t l := by
  simp [weight]

@[simp] theorem weight_append (t : ℕ) (l l' : List Queued) :
    weight t (l ++ l') = weight t l + weight t l' := by
  simp [weight]

theorem weight_eq_zero {t : ℕ} {l : List Queued} (h : ∀ x ∈ l, x.tag ≠ t) : weight t l = 0 := by
  induction l with
  | nil => rfl
  | cons x l ih =>
    rw [weight_cons, if_neg (h x List.mem_cons_self), ih fun y hy => h y (List.mem_cons_of_mem x hy)]

@[simp] theorem count_complain (log : MessageLog) (what : String) (err : Option String) (t : ℕ) :
    (MessageEnv.complain log what err).count t = log.count t := rfl

theorem count_deliver (env : MessageEnv) (log : MessageLog) (tag t : ℕ) :
    (env.deliver log tag).count t = log.count t + if tag = t then 1 else 0 := by
  simp [MessageEnv.deliver, MessageLog.count, List.countP_append, List.countP_cons]

/-- **What a visit does to the count**: a delivery is taken from what is left. -/
theorem visit_count (env : MessageEnv) (log : MessageLog) (x : Queued) (t : ℕ) :
    log.count t ≤ (env.visit log x).1.count t ∧
      (env.visit log x).1.count t + weight t (env.visit log x).2.toList ≤
        log.count t + weight t [x] := by
  have hsent : (env.sent x.msg).header.repeatCount = x.msg.header.repeatCount - 1 := rfl
  simp only [MessageEnv.visit]
  split_ifs with htimeout hdue htakes hrepeat
  · simp
  · rw [hsent] at hrepeat
    by_cases ht : x.tag = t
    · simp [count_deliver, ht]
    · simp [count_deliver, ht]
  · rw [hsent] at hrepeat
    by_cases ht : x.tag = t
    · simp only [count_complain, count_deliver, ht, if_true, Option.toList_some, weight_cons, weight_nil,
        hsent]
      omega
    · simp [count_deliver, ht]
  · simp
  · simp

/-- A scan takes its deliveries from what is left. -/
theorem scanMessage_count (env : MessageEnv) (box : MessageBox) (t : ℕ) :
    box.log.count t ≤ (box.scanMessage env).log.count t ∧
      (box.scanMessage env).log.count t + weight t (box.scanMessage env).messages ≤
        box.log.count t + weight t box.messages := by
  refine EraseScan.loop_invariant
    (I := fun log l => box.log.count t ≤ log.count t ∧
      log.count t + weight t l ≤ box.log.count t + weight t box.messages)
    ?_ box.messages.length box.log [] box.messages [] (Nat.le_refl _) ⟨Nat.le_refl _, Nat.le_refl _⟩
  intro log kept x rest ⟨hlow, hhigh⟩
  obtain ⟨hle, hvisit⟩ := visit_count env log x t
  simp only [weight_append, weight_cons, weight_nil] at hhigh hvisit ⊢
  omega

/-! ## Online and offline -/

/-- Tags are new, and no scan has run behind the end. -/
structure Fresh (box : MessageBox) : Prop where
  messages : ∀ x ∈ box.messages, x.tag < box.next
  deliveries : ∀ d ∈ box.log.deliveries, d.tag < box.next
  fault : box.fault = false

/-- Scans one after another, until one runs behind the end. -/
def scans (envs : ℕ → MessageEnv) (box : MessageBox) : ℕ → MessageBox
  | 0 => box
  | k + 1 => if (scans envs box k).fault then scans envs box k
      else (scans envs box k).scanMessage (envs k)

/-- Nothing comes between a message and its deliveries: the times increase, there is no timeout, and
an authorizer takes the message. -/
structure Undisturbed (envs : ℕ → MessageEnv) (t : ℕ) : Prop where
  increasing : ∀ j k, j < k → (envs j).stgTime < (envs k).stgTime
  noTimeout : ∀ k, (envs k).messageTimeout = 0
  takes : ∀ k, (envs k).takes t = true

/-- In the end a message has been delivered so many times. -/
def Delivers (envs : ℕ → MessageEnv) (box : MessageBox) (t n : ℕ) : Prop :=
  ∃ K, ∀ k, K ≤ k → (scans envs box k).log.count t = n

/-- There are no deliveries of a message that is not there yet. -/
theorem Fresh.count_eq_zero {box : MessageBox} (h : box.Fresh) : box.log.count box.next = 0 := by
  rw [MessageLog.count, List.countP_eq_zero]
  intro d hd
  have hlt := h.deliveries d hd
  simp only [decide_eq_true_eq]
  omega

theorem Fresh.weight_eq_zero {box : MessageBox} (h : box.Fresh) : weight box.next box.messages = 0 :=
  MessageBox.weight_eq_zero fun x hx => Nat.ne_of_lt (h.messages x hx)

section Scans

variable (envs : ℕ → MessageEnv) (box : MessageBox) (t : ℕ)

/-- Scans take their deliveries from what is left. -/
theorem scans_count (k : ℕ) :
    box.log.count t ≤ (scans envs box k).log.count t ∧
      (scans envs box k).log.count t + weight t (scans envs box k).messages ≤
        box.log.count t + weight t box.messages := by
  induction k with
  | zero => exact ⟨Nat.le_refl _, Nat.le_refl _⟩
  | succ k ih =>
    rw [scans]
    split_ifs
    · exact ih
    · have hscan := scanMessage_count (envs k) (scans envs box k) t
      omega

/-- The count does not go down. -/
theorem count_scans_mono {j k : ℕ} (h : j ≤ k) :
    (scans envs box j).log.count t ≤ (scans envs box k).log.count t := by
  induction k, h using Nat.le_induction with
  | base => exact Nat.le_refl _
  | succ k _ ih =>
    rw [scans]
    split_ifs
    · exact ih
    · exact ih.trans (scanMessage_count (envs k) (scans envs box k) t).1

end Scans

/-- What `AddMessage` does for a user who is online, if the store does not fail. -/
theorem addMessage_of_takes {env : MessageEnv} {m : Message} {box : MessageBox}
    (htakes : env.takes box.next = true) (hstore : env.addMessage.1 = none) (hfresh : box.Fresh) :
    (box.addMessage env m).box.log.count box.next = 1 ∧
      weight box.next (box.addMessage env m).box.messages =
        if 1 < m.header.repeatCount then (m.header.repeatCount - 2).toNat + 1 else 0 := by
  have hsent : (env.sent m).header.repeatCount = m.header.repeatCount - 1 := rfl
  have hcount := count_deliver env box.log box.next box.next
  rw [hfresh.count_eq_zero, if_pos rfl] at hcount
  simp only [addMessage, htakes, if_true, hsent]
  by_cases hrepeat : 1 < m.header.repeatCount
  · have htwice : (env.sent (env.sent m)).header.repeatCount = m.header.repeatCount - 2 := by
      change m.header.repeatCount - 1 - 1 = _
      omega
    rw [if_pos (by omega), if_pos hrepeat]
    simp only [enqueue, hstore, weight_append, weight_cons, weight_nil, hfresh.weight_eq_zero,
      htwice, if_true]
    exact ⟨hcount, by omega⟩
  · rw [if_neg (by omega), if_neg hrepeat]
    exact ⟨hcount, hfresh.weight_eq_zero⟩

/-- What `AddMessage` does for a user who is offline, if the store does not fail. -/
theorem addMessage_of_not_takes {env : MessageEnv} {m : Message} {box : MessageBox}
    (htakes : env.takes box.next = false) (hstore : env.addMessage.1 = none) :
    ∃ x : Queued, x.tag = box.next ∧ x.msg.header.repeatCount = m.header.repeatCount ∧
      (box.addMessage env m).box =
        { box with next := box.next + 1, messages := box.messages ++ [x] } := by
  refine ⟨⟨box.next, { m with header := { m.header with id := env.addMessage.2 } }⟩, rfl, rfl, ?_⟩
  simp only [addMessage, htakes, enqueue, hstore, Bool.false_eq_true, if_false]

/-- A message that is to be delivered once more is delivered when it is visited, or is not due. -/
theorem visit_last {env : MessageEnv} {x : Queued} (log : MessageLog)
    (hnoTimeout : env.messageTimeout = 0) (htakes : env.takes x.tag = true)
    (hrepeat : x.msg.header.repeatCount ≤ 0) :
    (env.due x.msg = true ∧ 1 ≤ (env.visit log x).1.count x.tag ∧ (env.visit log x).2 = none) ∨
      env.due x.msg = false ∧ env.visit log x = (log, some x) := by
  have htimeout : env.timedOut x.msg = false := by simp [MessageEnv.timedOut, hnoTimeout]
  have hsent : (env.sent x.msg).header.repeatCount < 0 := by
    change x.msg.header.repeatCount - 1 < 0
    omega
  cases hdue : env.due x.msg with
  | true =>
    refine .inl ⟨rfl, ?_, ?_⟩
    · simp [MessageEnv.visit, htimeout, hdue, htakes, hsent, count_deliver]
    · simp [MessageEnv.visit, htimeout, hdue, htakes, hsent]
  | false =>
    refine .inr ⟨rfl, ?_⟩
    simp [MessageEnv.visit, htimeout, hdue]

/-- A message is delivered by a loop, or stays the last one, with at most so many messages before it,
and fewer if it is due. -/
def StaysLast (env : MessageEnv) (x : Queued) (n : ℕ) (r : EraseScan.Result MessageLog Queued) :
    Prop :=
  1 ≤ r.state.count x.tag ∨
    r.fault = false ∧ ∃ l, r.vec = l ++ [x] ∧ l.length ≤ n ∧ (env.due x.msg = true → l.length < n)

theorem StaysLast.mono {env : MessageEnv} {x : Queued} {n n' : ℕ}
    {r : EraseScan.Result MessageLog Queued} (h : StaysLast env x n r) (hn : n ≤ n') :
    StaysLast env x n' r := by
  rcases h with h | ⟨hfault, l, hvec, hle, hlt⟩
  · exact .inl h
  · exact .inr ⟨hfault, l, hvec, hle.trans hn, fun hdue => (hlt hdue).trans_le hn⟩

/-- The last message, which is to be delivered once more, is delivered by a scan, or stays the last
one; if it is due and is not delivered, another message is erased.

**Proof sketch.** Induction on the messages between the place of the loop and the last message.  The
last one is passed over only if the one before it is erased. -/
theorem staysLast_loop {env : MessageEnv} {x : Queued} (hnoTimeout : env.messageTimeout = 0)
    (htakes : env.takes x.tag = true) (hrepeat : x.msg.header.repeatCount ≤ 0) :
    ∀ (n : ℕ) (log : MessageLog) (kept rest visited : List Queued), rest.length ≤ n →
      StaysLast env x (kept.length + rest.length)
        (EraseScan.loop env.visit log (kept ++ (rest ++ [x])) kept.length visited) := by
  intro n
  induction n with
  | zero =>
    intro log kept rest visited hn
    obtain rfl : rest = [] := List.length_eq_zero_iff.1 (Nat.le_zero.1 hn)
    rcases visit_last log hnoTimeout htakes hrepeat with ⟨-, hcount, hnone⟩ | ⟨hdue, hsome⟩
    · rw [List.nil_append, EraseScan.loop_erase_last env.visit log kept visited x (Prod.ext rfl hnone)]
      exact .inl hcount
    · rw [List.nil_append, EraseScan.loop_keep env.visit log kept [] visited x hsome,
        List.append_nil, EraseScan.loop_end]
      refine .inr ⟨rfl, kept, rfl, Nat.le_refl _, fun h => ?_⟩
      rw [hdue] at h
      cases h
  | succ n ih =>
    intro log kept rest visited hn
    cases rest with
    | nil => exact ih log kept [] visited (Nat.zero_le n)
    | cons y rest =>
      have hlen (z : Queued) : (kept ++ [z]).length = kept.length + 1 := by simp
      rw [List.length_cons] at hn ⊢
      cases hv : env.visit log y with
      | mk log' o =>
        cases o with
        | some z =>
          rw [List.cons_append, EraseScan.loop_keep env.visit log kept (rest ++ [x]) visited y hv]
          refine (ih log' (kept ++ [z]) rest (visited ++ [y]) (by omega)).mono ?_
          rw [hlen z]
          omega
        | none =>
          cases rest with
          | nil =>
            -- the message before it is erased, and the loop is at the end
            rw [List.cons_append, List.nil_append,
              EraseScan.loop_erase_skip env.visit log kept [] visited y x hv, List.append_nil,
              EraseScan.loop_end]
            exact .inr ⟨rfl, kept, rfl, by omega, fun _ => by omega⟩
          | cons z rest =>
            rw [List.cons_append, List.cons_append,
              EraseScan.loop_erase_skip env.visit log kept (rest ++ [x]) visited y z hv]
            rw [List.length_cons] at hn ⊢
            refine (ih log' (kept ++ [z]) rest (visited ++ [y]) (by omega)).mono ?_
            rw [hlen z]
            omega

/-- Increasing times pass every time. -/
theorem exists_le_of_increasing {f : ℕ → ℤ} (h : ∀ j k, j < k → f j < f k) (b : ℤ) :
    ∃ K, ∀ k, K ≤ k → b ≤ f k := by
  have hgrow (k : ℕ) : f 0 + k ≤ f k := by
    induction k with
    | zero => simp
    | succ k ih =>
      have hlt := h k (k + 1) (Nat.lt_add_one k)
      push_cast
      omega
  refine ⟨(b - f 0).toNat, fun k hk => ?_⟩
  have hk' := hgrow k
  omega

/-- From some time on every message is due. -/
theorem exists_due {envs : ℕ → MessageEnv} (h : ∀ j k, j < k → (envs j).stgTime < (envs k).stgTime) :
    ∃ K, ∀ k, K ≤ k → ∀ m, (envs k).due m = true := by
  obtain ⟨K, hK⟩ := exists_le_of_increasing h (2 ^ 32)
  refine ⟨K, fun k hk m => decide_eq_true ?_⟩
  have hbound := (m.header.lastSendTime + BitVec.ofInt 32 (m.header.repeatCount * 60)).isLt
  have hle : ((m.header.lastSendTime + BitVec.ofInt 32 (m.header.repeatCount * 60)).toNat : ℤ) ≤
      2 ^ 32 := by omega
  exact hle.trans (hK k hk)

/-- **A message that is to be delivered once more, the last one of the queue, is delivered in the
end.**

**Proof sketch.** Once it is due, every scan delivers it or erases another message; induction on the
number of messages before it. -/
theorem exists_delivered {envs : ℕ → MessageEnv} {box : MessageBox} {x : Queued}
    (h : Undisturbed envs x.tag) (hrepeat : x.msg.header.repeatCount ≤ 0)
    (hfault : box.fault = false) {l : List Queued} (hl : box.messages = l ++ [x]) :
    ∃ K, 1 ≤ (scans envs box K).log.count x.tag := by
  obtain ⟨K, hdue⟩ := exists_due h.increasing
  -- one scan
  have hscan (k : ℕ) {l : List Queued} (hfault : (scans envs box k).fault = false)
      (hl : (scans envs box k).messages = l ++ [x]) :
      1 ≤ (scans envs box (k + 1)).log.count x.tag ∨ (scans envs box (k + 1)).fault = false ∧
        ∃ l', (scans envs box (k + 1)).messages = l' ++ [x] ∧
          (K ≤ k → l'.length < l.length) := by
    have hloop := staysLast_loop (h.noTimeout k) (h.takes k) hrepeat l.length
      (scans envs box k).log [] l [] (Nat.le_refl _)
    have hsucc : scans envs box (k + 1) = (scans envs box k).scanMessage (envs k) := by
      rw [scans, hfault, if_neg Bool.false_ne_true]
    rw [List.nil_append, ← hl] at hloop
    rw [hsucc]
    rcases hloop with hcount | ⟨hfault', l', hl', -, hlt⟩
    · exact .inl hcount
    · refine .inr ⟨hfault', l', hl', fun hk => ?_⟩
      simpa using hlt (hdue k hk x.msg)
  -- it stays until it is due
  have hwait (k : ℕ) : (∃ j, 1 ≤ (scans envs box j).log.count x.tag) ∨
      (scans envs box k).fault = false ∧ ∃ l, (scans envs box k).messages = l ++ [x] := by
    induction k with
    | zero => exact .inr ⟨hfault, l, hl⟩
    | succ k ih =>
      rcases ih with ih | ⟨hfault, l, hl⟩
      · exact .inl ih
      · rcases hscan k hfault hl with hcount | ⟨hfault', l', hl', -⟩
        · exact .inl ⟨k + 1, hcount⟩
        · exact .inr ⟨hfault', l', hl'⟩
  -- then every scan erases a message
  have hend (n : ℕ) : ∀ (k : ℕ) (l : List Queued), K ≤ k → (scans envs box k).fault = false →
      (scans envs box k).messages = l ++ [x] → l.length ≤ n →
        ∃ j, 1 ≤ (scans envs box j).log.count x.tag := by
    induction n with
    | zero =>
      intro k l hk hfault hl hn
      rcases hscan k hfault hl with hcount | ⟨-, l', -, hlt⟩
      · exact ⟨k + 1, hcount⟩
      · have := hlt hk
        omega
    | succ n ih =>
      intro k l hk hfault hl hn
      rcases hscan k hfault hl with hcount | ⟨hfault', l', hl', hlt⟩
      · exact ⟨k + 1, hcount⟩
      · have := hlt hk
        exact ih (k + 1) l' (by omega) hfault' hl' (by omega)
  rcases hwait K with hdone | ⟨hfault', l', hl'⟩
  · exact hdone
  · exact hend l'.length K l' (Nat.le_refl K) hfault' hl' (Nat.le_refl _)

/-- A message that is to be repeated is not delivered often enough to a user who is online. -/
theorem not_delivers_of_takes {box : MessageBox} (hfresh : box.Fresh) {m : Message}
    (hrepeat : 0 < m.header.repeatCount) {env : MessageEnv} (htakes : env.takes box.next = true)
    (hstore : env.addMessage.1 = none) (envs : ℕ → MessageEnv) :
    ¬ Delivers envs (box.addMessage env m).box box.next (m.header.repeatCount.toNat + 1) := by
  rintro ⟨K, hK⟩
  obtain ⟨hcount, hweight⟩ := addMessage_of_takes (m := m) htakes hstore hfresh
  have hbound := (scans_count envs (box.addMessage env m).box box.next K).2
  rw [hK K (Nat.le_refl K), hcount, hweight] at hbound
  split_ifs at hbound with hlt <;> omega

/-- **The number of deliveries, online and offline.**  A message that is to be repeated `N` times is
delivered `N + 1` times to a user who was online when it was added as well as to one who was not iff
`N` is zero: online, the counter goes down twice at the first delivery.

**Proof sketch.** What has been delivered and what is left never exceed what there was at the
beginning (`scans_count`), which is `N` if `N` is positive and the user is online.  A message without
repetitions is delivered at once online, and in the end offline (`exists_delivered`). -/
theorem delivers_alike_iff {box : MessageBox} (hfresh : box.Fresh) {m : Message}
    (hrepeat : 0 ≤ m.header.repeatCount) {on off : MessageEnv} (hon : on.takes box.next = true)
    (hoff : off.takes box.next = false) (hstore : on.addMessage.1 = none ∧ off.addMessage.1 = none)
    {envs : ℕ → MessageEnv} (h : Undisturbed envs box.next) :
    (Delivers envs (box.addMessage on m).box box.next (m.header.repeatCount.toNat + 1) ∧
        Delivers envs (box.addMessage off m).box box.next (m.header.repeatCount.toNat + 1)) ↔
      m.header.repeatCount = 0 := by
  constructor
  · intro hboth
    by_contra hne
    exact not_delivers_of_takes hfresh (lt_of_le_of_ne hrepeat (Ne.symm hne)) hon hstore.1 envs
      hboth.1
  · intro hzero
    obtain ⟨hcount, hweight⟩ := addMessage_of_takes (m := m) hon hstore.1 hfresh
    rw [hzero, if_neg (by omega)] at hweight
    obtain ⟨x, htag, hxrepeat, hbox⟩ := addMessage_of_not_takes (m := m) hoff hstore.2
    refine ⟨⟨0, fun k _ => ?_⟩, ?_⟩
    · have hbound := scans_count envs (box.addMessage on m).box box.next k
      rw [hcount, hweight] at hbound
      rw [hzero]
      simp only [Int.toNat_zero]
      omega
    · rw [hzero] at hxrepeat
      rw [← htag] at h
      obtain ⟨K, hK⟩ := exists_delivered h hxrepeat.le
        (show (box.addMessage off m).box.fault = false by rw [hbox]; exact hfresh.fault)
        (show (box.addMessage off m).box.messages = box.messages ++ [x] by rw [hbox])
      rw [htag] at hK
      refine ⟨K, fun k hk => ?_⟩
      have hmono := count_scans_mono envs (box.addMessage off m).box box.next hk
      have hbound := (scans_count envs (box.addMessage off m).box box.next k).2
      have hstart : (box.addMessage off m).box.log.count box.next = 0 := by
        rw [hbox]
        exact hfresh.count_eq_zero
      have hleft : weight box.next (box.addMessage off m).box.messages = 1 := by
        rw [hbox]
        simp [hfresh.weight_eq_zero, htag, hxrepeat]
      rw [hstart, hleft] at hbound
      rw [hzero]
      simp only [Int.toNat_zero]
      omega

namespace Sample

/-- A user whom an authorizer has let in, at a time. -/
def online (time : Time) : MessageEnv where
  user := { Stargazer.Sample.user "alice" with authorizedBy := {1} }
  stgTime := time
  time := time

/-- A user whom nobody has let in, at a time. -/
def offline (time : Time) : MessageEnv where
  user := Stargazer.Sample.user "alice"
  stgTime := time
  time := time

/-- A message with a number of repetitions, ten minutes apart. -/
def message (n : ℤ) : Message := { header := { repeatCount := n, repeatPeriod := 10 } }

theorem takes_online (time : Time) (t : ℕ) : (online time).takes t = true :=
  decide_eq_true ⟨1, Finset.mem_singleton_self 1, rfl⟩

theorem takes_offline (time : Time) (t : ℕ) : (offline time).takes t = false :=
  decide_eq_false fun h => by
    obtain ⟨a, ha, -⟩ := h
    cases ha

theorem fresh : Fresh {} :=
  ⟨fun _ hx => absurd hx List.not_mem_nil, fun _ hd => absurd hd List.not_mem_nil, rfl⟩

theorem undisturbed (t : ℕ) : Undisturbed (fun k => online k) t :=
  ⟨fun _ _ h => Int.ofNat_lt.2 h, fun _ => rfl, fun k => takes_online k t⟩

end Sample

/-- A message without repetitions. -/
theorem delivers_without_repetition :
    Delivers (fun k => Sample.online k) (addMessage (Sample.online 0) (Sample.message 0) {}).box 0 1 ∧
      Delivers (fun k => Sample.online k)
        (addMessage (Sample.offline 0) (Sample.message 0) {}).box 0 1 :=
  (delivers_alike_iff Sample.fresh le_rfl (Sample.takes_online 0 0) (Sample.takes_offline 0 0) ⟨rfl, rfl⟩
    (Sample.undisturbed 0)).2 rfl

/-- **A message is to be repeated once**: a user who is online gets it only once. -/
theorem repetition_lost :
    ¬ Delivers (fun k => Sample.online k)
      (addMessage (Sample.online 0) (Sample.message 1) {}).box 0 2 :=
  not_delivers_of_takes Sample.fresh (m := Sample.message 1) Int.one_pos (Sample.takes_online 0 0) rfl _

end MessageBox

/-! ## The period of repetitions -/

/-- Each delivery of a message is followed by the next one after a time. -/
def MessageLog.Spaced (log : MessageLog) (gap : ℤ) (t : ℕ) : Prop :=
  (log.deliveries.filter fun d => d.tag = t).IsChain fun a b => a.time + gap ≤ b.time

/-- The deliveries of a message are in order, and none is later than a time. -/
structure MessageLog.Timely (log : MessageLog) (t : ℕ) (now : Time) : Prop where
  le : ∀ d ∈ log.deliveries.filter (fun d => d.tag = t), d.time ≤ now
  ordered : (log.deliveries.filter fun d => d.tag = t).Pairwise fun a b => a.time ≤ b.time

/-- Deliveries at a later time. -/
theorem MessageLog.Timely.append {log log' : MessageLog} {t : ℕ} {now now' : Time}
    (h : log.Timely t now) (hnow : now ≤ now') {ds : List Delivery} (hds : ∀ d ∈ ds, d.time = now')
    (hlog : log'.deliveries = log.deliveries ++ ds) : log'.Timely t now' := by
  have hnew (d : Delivery) (hd : d ∈ ds.filter fun d => d.tag = t) : d.time = now' :=
    hds d (List.mem_of_mem_filter hd)
  constructor
  · intro d hd
    rw [hlog, List.filter_append, List.mem_append] at hd
    rcases hd with hd | hd
    · exact (h.le d hd).trans hnow
    · exact (hnew d hd).le
  · rw [hlog, List.filter_append, List.pairwise_append]
    refine ⟨h.ordered, List.pairwise_of_forall_mem_list fun a ha b hb => ?_, fun a ha b hb => ?_⟩
    · rw [hnew a ha, hnew b hb]
    · rw [hnew b hb]
      exact (h.le a ha).trans hnow

namespace MessageBox

/-- The clock does not go back. -/
def Ordered (acts : List Action) : Prop :=
  acts.Pairwise fun a b => a.env.time ≤ b.env.time ∧ a.env.stgTime ≤ b.env.stgTime

/-- **What `AddMessage` can do**: it delivers the message or not, and puts it into the queue or not;
together that is not more than the message asks for. -/
theorem addMessage_cases (env : MessageEnv) (m : Message) (box : MessageBox) :
    ∃ ds l servLog,
      (box.addMessage env m).box =
        { box with
          next := box.next + 1
          log := ⟨box.log.deliveries ++ ds, servLog⟩
          messages := box.messages ++ l } ∧
      (∀ d ∈ ds, d = ⟨box.next, env.time⟩) ∧ (∀ x ∈ l, x.tag = box.next) ∧
      ds.length + weight box.next l ≤ m.header.repeatCount.toNat + 1 := by
  simp only [addMessage]
  split_ifs with htakes hrepeat
  · change 0 < m.header.repeatCount - 1 at hrepeat
    simp only [enqueue]
    split
    next e he =>
      refine ⟨[⟨box.next, env.time⟩], [],
        box.log.servLog ++ ["Error adding repeatable message: '" ++ e ++ "'"], ?_, by simp, by simp, by simp⟩
      rw [List.append_nil]
      rfl
    next he =>
      refine ⟨[⟨box.next, env.time⟩],
        [⟨box.next, { env.sent (env.sent m) with
          header := { (env.sent (env.sent m)).header with id := env.addMessage.2 } }⟩],
        box.log.servLog, rfl, by simp, by simp, ?_⟩
      simp only [weight_cons, weight_nil, if_true, List.length_singleton]
      change 1 + ((m.header.repeatCount - 1 - 1).toNat + 1 + 0) ≤ _
      omega
  · refine ⟨[⟨box.next, env.time⟩], [], box.log.servLog, ?_, by simp, by simp, by simp⟩
    rw [List.append_nil]
    rfl
  · simp only [enqueue]
    split
    next e he =>
      refine ⟨[], [], box.log.servLog ++ ["Error adding message: '" ++ e ++ "'"], ?_, by simp, by simp,
        by simp⟩
      rw [List.append_nil, List.append_nil]
      rfl
    next he =>
      refine ⟨[], [⟨box.next, { m with header := { m.header with id := env.addMessage.2 } }⟩],
        box.log.servLog, ?_, by simp, by simp, by simp⟩
      rw [List.append_nil]

/-- A step takes the deliveries of a message that is there already from what is left. -/
theorem step_count {box box' : MessageBox} {a : Action} {t : ℕ} (ht : t < box.next)
    (h : box.step a = some box') :
    t < box'.next ∧ box'.log.count t + weight t box'.messages ≤
      box.log.count t + weight t box.messages := by
  cases a with
  | addMessage env m =>
    simp only [step] at h
    split_ifs at h
    obtain rfl := Option.some.inj h
    obtain ⟨ds, l, servLog, hbox, hds, hl, -⟩ := addMessage_cases env m box
    have hds' : ds.countP (fun d => d.tag = t) = 0 := by
      rw [List.countP_eq_zero]
      intro d hd
      rw [hds d hd]
      simp only [decide_eq_true_eq]
      omega
    have hl' : weight t l = 0 := weight_eq_zero fun x hx => by
      rw [hl x hx]
      omega
    rw [hbox]
    simp only [MessageLog.count, List.countP_append, weight_append, hds', hl']
    omega
  | scanMessage env =>
    simp only [step] at h
    split_ifs at h
    obtain rfl := Option.some.inj h
    exact ⟨ht, (scanMessage_count env box t).2⟩

/-- A visit delivers at its own time. -/
theorem visit_deliveries (env : MessageEnv) (log : MessageLog) (x : Queued) :
    ∃ ds : List Delivery, (env.visit log x).1.deliveries = log.deliveries ++ ds ∧
      ∀ d ∈ ds, d.time = env.time := by
  simp only [MessageEnv.visit]
  split_ifs
  · exact ⟨[], by simp [MessageEnv.complain], by simp⟩
  · exact ⟨[⟨x.tag, env.time⟩], rfl, by simp⟩
  · exact ⟨[⟨x.tag, env.time⟩], rfl, by simp⟩
  · exact ⟨[], by simp, by simp⟩
  · exact ⟨[], by simp, by simp⟩

/-- A scan delivers at its own time. -/
theorem scanMessage_deliveries (env : MessageEnv) (box : MessageBox) :
    ∃ ds : List Delivery,
      (box.scanMessage env).log.deliveries = box.log.deliveries ++ ds ∧ ∀ d ∈ ds, d.time = env.time := by
  refine EraseScan.loop_invariant
    (I := fun log _ => ∃ ds : List Delivery, log.deliveries = box.log.deliveries ++ ds ∧
      ∀ d ∈ ds, d.time = env.time)
    ?_ box.messages.length box.log [] box.messages [] (Nat.le_refl _) ⟨[], by simp, by simp⟩
  rintro log kept x rest ⟨ds, hlog, hds⟩
  obtain ⟨ds', hlog', hds'⟩ := visit_deliveries env log x
  refine ⟨ds ++ ds', by rw [hlog', hlog, List.append_assoc], fun d hd => ?_⟩
  rcases List.mem_append.1 hd with hd | hd
  · exact hds d hd
  · exact hds' d hd

/-- A step delivers at its own time. -/
theorem step_deliveries {box box' : MessageBox} {a : Action} (h : box.step a = some box') :
    ∃ ds : List Delivery, box'.log.deliveries = box.log.deliveries ++ ds ∧
      ∀ d ∈ ds, d.time = a.env.time := by
  cases a with
  | addMessage env m =>
    simp only [step] at h
    split_ifs at h
    obtain rfl := Option.some.inj h
    obtain ⟨ds, l, servLog, hbox, hds, -⟩ := addMessage_cases env m box
    refine ⟨ds, by rw [hbox], fun d hd => ?_⟩
    rw [hds d hd]
    rfl
  | scanMessage env =>
    simp only [step] at h
    split_ifs at h
    obtain rfl := Option.some.inj h
    exact scanMessage_deliveries env box

/-- The deliveries of a run are in order.

**Proof sketch.** Induction on the run. -/
theorem timely_of_runs {box box' : MessageBox} {acts : List Action}
    (h : Transition.Runs step box acts box') {t : ℕ} {now : Time} (hnow : ∀ a ∈ acts, now ≤ a.env.time)
    (hordered : Ordered acts) (htimely : box.log.Timely t now) : ∃ now', box'.log.Timely t now' := by
  induction h generalizing now with
  | nil => exact ⟨now, htimely⟩
  | cons _ hstep _ ih =>
    obtain ⟨ds, hlog, hds⟩ := step_deliveries hstep
    have hlater := List.pairwise_cons.1 hordered
    exact ih (fun b hb => (hlater.1 b hb).1) hlater.2
      (htimely.append (hnow _ List.mem_cons_self) hds hlog)

/-- **A message keeps its period**: in every run in which the clock does not go back, two deliveries
of the message, one after the other, are `repeatPeriod` minutes apart. -/
def KeepsPeriod (m : Message) : Prop :=
  ∀ (box : MessageBox) (env : MessageEnv) (acts : List Action) (box' : MessageBox), box.Fresh →
    Ordered (.addMessage env m :: acts) →
      Transition.Runs step box (.addMessage env m :: acts) box' →
        box'.log.Spaced (60 * m.header.repeatPeriod.toNat) box.next

/-- A message without a period keeps it. -/
theorem keepsPeriod_of_zero {m : Message} (h : m.header.repeatPeriod = 0) : KeepsPeriod m := by
  intro box env acts box' hfresh hordered hruns
  have hnone : (box.log.deliveries.filter fun d => d.tag = box.next) = [] := by
    rw [List.filter_eq_nil_iff]
    intro d hd
    have hlt := hfresh.deliveries d hd
    simp only [decide_eq_true_eq]
    omega
  have hstart : box.log.Timely box.next env.time :=
    ⟨by simp [hnone], by rw [hnone]; exact List.Pairwise.nil⟩
  have hnow (a : Action) (ha : a ∈ Action.addMessage env m :: acts) : env.time ≤ a.env.time := by
    rcases List.mem_cons.1 ha with rfl | ha
    · exact le_refl _
    · exact ((List.pairwise_cons.1 hordered).1 a ha).1
  obtain ⟨now', htimely⟩ := timely_of_runs hruns hnow hordered hstart
  apply List.Pairwise.isChain
  rw [h]
  simpa using htimely.ordered

/-- A message that is not to be repeated is delivered once, so it keeps every period. -/
theorem keepsPeriod_of_nonpos {m : Message} (h : m.header.repeatCount ≤ 0) : KeepsPeriod m := by
  intro box env acts box' hfresh hordered hruns
  cases hruns with
  | cons _ hadd hrest =>
    simp only [step] at hadd
    split_ifs at hadd
    obtain rfl := Option.some.inj hadd
    obtain ⟨ds, l, servLog, hbox, hds, hl, hbound⟩ := addMessage_cases env m box
    have hcount : (box.addMessage env m).box.log.count box.next +
        weight box.next (box.addMessage env m).box.messages ≤ 1 := by
      have hle := List.countP_le_length (p := fun d : Delivery => d.tag = box.next) (l := ds)
      have hzero := hfresh.count_eq_zero
      rw [MessageLog.count] at hzero
      rw [hbox]
      simp only [MessageLog.count, List.countP_append, weight_append, hfresh.weight_eq_zero, hzero]
      omega
    have hend : box.next < box'.next ∧ box'.log.count box.next + weight box.next box'.messages ≤ 1 := by
      refine hrest.invariant
        (I := fun b => box.next < b.next ∧ b.log.count box.next + weight box.next b.messages ≤ 1)
        (fun b a b' hI _ hstep => ?_) ⟨by rw [hbox]; exact Nat.lt_add_one _, hcount⟩
      obtain ⟨hlt, hle⟩ := step_count hI.1 hstep
      exact ⟨hlt, hle.trans hI.2⟩
    have hlen : (box'.log.deliveries.filter fun d => d.tag = box.next).length ≤ 1 := by
      rw [← List.countP_eq_length_filter]
      exact (Nat.le_add_right _ _).trans hend.2
    rw [MessageLog.Spaced]
    generalize (box'.log.deliveries.filter fun d => d.tag = box.next) = l at hlen ⊢
    rcases l with _ | ⟨d, _ | ⟨d', rest⟩⟩
    · exact List.IsChain.nil
    · exact List.IsChain.singleton d
    · rw [List.length_cons, List.length_cons] at hlen
      omega

/-- A message that is due and is taken is delivered; it stays if it is to be repeated. -/
theorem visit_of_due (env : MessageEnv) {x : Queued} (log : MessageLog)
    (hnoTimeout : env.messageTimeout = 0) (hdue : env.due x.msg = true)
    (htakes : env.takes x.tag = true) :
    (env.visit log x).1.deliveries = log.deliveries ++ [⟨x.tag, env.time⟩] ∧
      (0 < x.msg.header.repeatCount → (env.visit log x).2 = some { x with msg := env.sent x.msg }) := by
  have htimeout : env.timedOut x.msg = false := by simp [MessageEnv.timedOut, hnoTimeout]
  simp only [MessageEnv.visit, htimeout, hdue, htakes, if_true, Bool.false_eq_true, if_false]
  split_ifs with hrepeat
  · change x.msg.header.repeatCount - 1 < 0 at hrepeat
    exact ⟨rfl, fun hpos => by omega⟩
  · exact ⟨rfl, fun _ => rfl⟩

/-- The scan of a single message. -/
theorem scanMessage_singleton (env : MessageEnv) {box : MessageBox} {x : Queued}
    (h : box.messages = [x]) :
    (box.scanMessage env).log = (env.visit box.log x).1 ∧
      ∀ y, (env.visit box.log x).2 = some y →
        (box.scanMessage env).messages = [y] ∧ (box.scanMessage env).fault = false := by
  have hscan : box.scan env = EraseScan.loop env.visit box.log ([] ++ [x]) ([] : List Queued).length [] := by
    rw [scan, h]
    rfl
  simp only [scanMessage, hscan]
  cases hv : env.visit box.log x with
  | mk log o =>
    cases o with
    | some y =>
      rw [EraseScan.loop_keep env.visit box.log [] [] [] x hv, List.append_nil, EraseScan.loop_end]
      exact ⟨rfl, fun z hz => ⟨congrArg (fun a => [a]) (Option.some.inj hz), rfl⟩⟩
    | none =>
      rw [EraseScan.loop_erase_last env.visit box.log [] [] x hv]
      exact ⟨rfl, fun z hz => nomatch hz⟩

/-- **A message is delivered by two scans in a row**, if its next time has come at both. -/
theorem delivered_twice {m : Message} (hrepeat : 0 < m.header.repeatCount) (t₀ : Time) {t t' : Time}
    (hdue : (Sample.online t).due m = true)
    (hdue' : (Sample.online t').due ((Sample.online t).sent m) = true) :
    ∃ box', Transition.Runs step {}
        [.addMessage (Sample.offline t₀) m, .scanMessage (Sample.online t), .scanMessage (Sample.online t')]
        box' ∧ box'.log.deliveries = [⟨0, t⟩, ⟨0, t'⟩] := by
  obtain ⟨x, htag, hx, hbox⟩ : ∃ x : Queued, x.tag = 0 ∧
      x.msg = { m with header := { m.header with id := 0 } } ∧
      (addMessage (Sample.offline t₀) m {}).box = { messages := [x], next := 1 } := by
    refine ⟨⟨0, { m with header := { m.header with id := 0 } }⟩, rfl, rfl, ?_⟩
    simp only [addMessage, Sample.takes_offline, Bool.false_eq_true, if_false]
    rfl
  obtain ⟨hlog, hkeep⟩ := visit_of_due (Sample.online t) (x := x) {} rfl (by rw [hx]; exact hdue)
    (Sample.takes_online t x.tag)
  obtain ⟨hlog₁, hkeep₁⟩ := scanMessage_singleton (Sample.online t)
    (rfl : ({ messages := [x], next := 1 } : MessageBox).messages = [x])
  obtain ⟨hmessages, hfault⟩ := hkeep₁ _ (hkeep (by rw [hx]; exact hrepeat))
  have hstep₀ : step {} (.addMessage (Sample.offline t₀) m) = some { messages := [x], next := 1 } := by
    rw [step, if_neg Bool.false_ne_true, hbox]
  have hstep₁ : step { messages := [x], next := 1 } (.scanMessage (Sample.online t)) =
      some (scanMessage (Sample.online t) { messages := [x], next := 1 }) := by
    rw [step, if_neg Bool.false_ne_true]
  generalize scanMessage (Sample.online t) { messages := [x], next := 1 } = box₁ at *
  have hstep₂ : step box₁ (.scanMessage (Sample.online t')) =
      some (scanMessage (Sample.online t') box₁) := by
    rw [step, hfault, if_neg Bool.false_ne_true]
  obtain ⟨hlog', -⟩ := visit_of_due (Sample.online t')
    (x := { x with msg := (Sample.online t).sent x.msg }) box₁.log rfl (by rw [hx]; exact hdue')
    (Sample.takes_online t' x.tag)
  obtain ⟨hlog₂, -⟩ := scanMessage_singleton (Sample.online t') hmessages
  refine ⟨box₁.scanMessage (Sample.online t'),
    .cons trivial hstep₀ (.cons trivial hstep₁ (.cons trivial hstep₂ (.nil _))), ?_⟩
  rw [hlog₂, hlog', hlog₁, hlog, htag]
  rfl

/-- Three times in a row. -/
theorem ordered_sample (m : Message) {t₀ t t' : Time} (h : t₀ ≤ t) (h' : t ≤ t') :
    Ordered [.addMessage (Sample.offline t₀) m, .scanMessage (Sample.online t),
      .scanMessage (Sample.online t')] := by
  simp only [Ordered, List.pairwise_cons, List.forall_mem_cons]
  exact ⟨⟨⟨h, h⟩, ⟨h.trans h', h.trans h'⟩, by simp⟩, ⟨⟨h', h'⟩, by simp⟩, by simp, List.Pairwise.nil⟩

/-- Two scans in a row that both deliver a message with a period break it. -/
theorem not_keepsPeriod_of_due {m : Message} (hrepeat : 0 < m.header.repeatCount)
    (hperiod : m.header.repeatPeriod ≠ 0) (t : Time) (hdue : (Sample.online t).due m = true)
    (hdue' : (Sample.online (t + 1)).due ((Sample.online t).sent m) = true) : ¬ KeepsPeriod m := by
  intro hkeeps
  obtain ⟨box', hruns, hlog⟩ := delivered_twice hrepeat t hdue hdue'
  have hspaced := hkeeps {} _ _ box' Sample.fresh
    (ordered_sample m (le_refl t) (Int.le_add_one (le_refl t))) hruns
  rw [MessageLog.Spaced, hlog] at hspaced
  have hgap : 60 * (m.header.repeatPeriod.toNat : ℤ) ≤ 1 :=
    Int.le_of_add_le_add_left (List.isChain_cons_cons.1 hspaced).1
  have hpos : m.header.repeatPeriod.toNat ≠ 0 := fun h => hperiod (BitVec.eq_of_toNat_eq h)
  omega

end MessageBox

end Stargazer
