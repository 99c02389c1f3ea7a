import Stargazer.Lib.Run
import Mathlib.Data.List.Forall2

set_option relaxedAutoImplicit false
set_option autoImplicit false

/-!
# The RADIUS server

`Server` of `plugins/other/radius/server.cpp`: a request is received, answered, and the next one is
received when the answer is sent.  The server has no loop of its own; each handler of a completed
operation starts the next operation, or does not.

The library `radproto` (sockets, packets, dictionaries) is not part of the repository.  A packet is
what the server reads of it; the dictionaries are a parameter, and an entry that is not there is an
exception, which ends the thread of the server.

## Main definitions

* `Stargazer.Radius.findUser`, `Stargazer.Radius.makeResponse` — the answer to a request.
* `Stargazer.Radius.Server`, `Stargazer.Radius.step` — the operations that are pending, and what a
  completed one leads to.
* `Stargazer.Radius.Entitled` — the requests that are to be accepted.
* `Stargazer.Radius.Serves` — one operation is pending, and every request was answered once.

## Main results

* `Stargazer.Radius.serves_iff` — the runs in which the server goes on serving.
-/

namespace Stargazer

namespace Radius

/-! ## Packets -/

/-- The codes of packets the server knows. -/
inductive PacketCode
  /-- `ACCESS_REQUEST`. -/
  | accessRequest
  /-- `ACCESS_ACCEPT`. -/
  | accessAccept
  /-- `ACCESS_REJECT`. -/
  | accessReject
  /-- Any other code. -/
  | other (code : BitVec 8)
  deriving DecidableEq

/-- The codes of attributes the server knows. -/
inductive AttributeCode
  /-- `USER_NAME`. -/
  | userName
  /-- `USER_PASSWORD`. -/
  | userPassword
  /-- Any other code. -/
  | other (code : BitVec 8)
  deriving DecidableEq

/-- `RadProto::Attribute`: its code, and the text `toString` gives. -/
structure Attribute where
  /-- `code()`. -/
  code : AttributeCode
  /-- `toString()`. -/
  text : String
  deriving DecidableEq

/-- `RadProto::Packet`. -/
structure Packet where
  /-- `code()`. -/
  code : PacketCode
  /-- `id()`. -/
  id : BitVec 8
  /-- `auth()`, the authenticator. -/
  auth : List (BitVec 8)
  /-- `attributes()`. -/
  attributes : List Attribute
  deriving DecidableEq

/-- An address and a port. -/
abbrev Endpoint := BitVec 32 × BitVec 16

/-- What the server reads of a user. -/
structure User where
  /-- `GetProperties().password`. -/
  password : String
  /-- `GetParamValue`. -/
  getParamValue : String → String

/-- `Config::AttrValue`. -/
structure AttrValue where
  /-- The value, or the name of a parameter of the user. -/
  value : String
  /-- `Type::PARAM_NAME`. -/
  isParamName : Bool

/-- `RadProto::Dictionaries` and `RadProto::Attribute::make`; `none` is an exception. -/
structure Dictionaries where
  /-- `attributeCode`. -/
  attributeCode : String → Option AttributeCode
  /-- `attributeType`. -/
  attributeType : AttributeCode → Option String
  /-- `attributeValueFindByName`. -/
  attributeValueFindByName : String → String → Bool
  /-- `attributeValueCode`. -/
  attributeValueCode : String → String → Option ℕ
  /-- `Attribute::make`. -/
  make : AttributeCode → String → String → Option Attribute

/-! ## Answers -/

/-- The part of the configuration the server uses: `getAuth().send`. -/
structure Config where
  /-- The dictionaries. -/
  dictionaries : Dictionaries
  /-- The attributes of an answer. -/
  send : List (String × AttrValue)

/-- `Server::makeAttributes`. -/
def makeAttributes (cfg : Config) (user : User) : Option (List Attribute) :=
  cfg.send.mapM fun rule => do
    let attrValue := if rule.2.isParamName then user.getParamValue rule.2.value else rule.2.value
    let attrCode ← cfg.dictionaries.attributeCode rule.1
    let attrType ← cfg.dictionaries.attributeType attrCode
    if attrType = "integer" ∧ cfg.dictionaries.attributeValueFindByName rule.1 attrValue then
      let code ← cfg.dictionaries.attributeValueCode rule.1 attrValue
      cfg.dictionaries.make attrCode attrType (toString code)
    else cfg.dictionaries.make attrCode attrType attrValue

/-- The loop of `Server::findUser`: login and password after some attributes. -/
def readCredentials (attributes : List Attribute) : String × String :=
  attributes.foldl (fun (acc : String × String) attr =>
    let login := if attr.code = .userName then attr.text else acc.1
    let password := if attr.code = .userPassword then attr.text else acc.2
    (login, password)) ("", "")

/-- `Server::findUser`; `users` is `FindByName`. -/
def findUser (users : String → Option User) (packet : Packet) : Option User :=
  let (login, password) := readCredentials packet.attributes
  match users login with
  | none => none
  | some user => if password ≠ user.password then none else some user

/-- `Server::makeResponse`; `none` is an exception. -/
def makeResponse (cfg : Config) (users : String → Option User) (request : Packet) : Option Packet :=
  if request.code ≠ .accessRequest then some ⟨.accessReject, request.id, request.auth, []⟩
  else
    match findUser users request with
    | some user => do
      let attributes ← makeAttributes cfg user
      return ⟨.accessAccept, request.id, request.auth, attributes⟩
    | none => some ⟨.accessReject, request.id, request.auth, []⟩

/-! ## The server -/

/-- An asynchronous operation. -/
inductive Operation
  /-- `asyncReceive`. -/
  | receive
  /-- `asyncSend`. -/
  | send
  deriving DecidableEq

/-- A request as it arrives: the users there are, the packet and where it comes from. -/
structure Request where
  /-- The users. -/
  users : String → Option User
  /-- The packet. -/
  packet : Packet
  /-- Its source. -/
  source : Endpoint

/-- The server: the operations that are pending and, for the record, the requests it has received
and the answers it has sent, the latest first. -/
structure Server where
  /-- The configuration. -/
  config : Config
  /-- `m_token.stop_requested()`. -/
  stopRequested : Bool
  /-- The operations that were started and are not completed. -/
  pending : List Operation
  /-- The requests received. -/
  requests : List Request := []
  /-- The answers, with where they go to. -/
  answers : List (Packet × Endpoint) := []

/-- `Server::startReceive`. -/
def Server.startReceive (s : Server) : Server := { s with pending := s.pending ++ [.receive] }

/-- `Server::Server` and `Server::start`. -/
def Server.start (config : Config) : Server :=
  Server.startReceive { config := config, stopRequested := false, pending := [] }

/-- What a completed `asyncReceive` brings. -/
inductive Received
  /-- An error. -/
  | error
  /-- No packet. -/
  | missing
  /-- A packet. -/
  | packet (request : Request)

/-- `Server::handleReceive`.  If the answer cannot be made, the exception leaves the handler. -/
def Server.handleReceive (s : Server) (result : Received) : Server :=
  if s.stopRequested then s
  else
    match result with
    | .error => s
    | .missing => s
    | .packet request =>
      let s := { s with requests := request :: s.requests }
      match makeResponse s.config request.users request.packet with
      | none => s
      | some response =>
        { s with
          pending := s.pending ++ [.send]
          answers := (response, request.source) :: s.answers }

/-- `Server::handleSend`, with or without an error. -/
def Server.handleSend (s : Server) (_ : Bool) : Server :=
  if s.stopRequested then s else s.startReceive

/-- A completed operation. -/
inductive Completion
  /-- `asyncReceive`. -/
  | receive (result : Received)
  /-- `asyncSend`. -/
  | send (failed : Bool)

/-- The operation that is completed. -/
def Completion.operation : Completion → Operation
  | .receive _ => .receive
  | .send _ => .send

/-- A step: an operation that is pending is completed, and its handler is called. -/
def step (s : Server) (c : Completion) : Option Server :=
  if c.operation ∈ s.pending then
    let s := { s with pending := s.pending.erase c.operation }
    match c with
    | .receive result => some (s.handleReceive result)
    | .send failed => some (s.handleSend failed)
  else none

/-! ## What is expected -/

/-- The text of the last attribute with a code. -/
def lastText (code : AttributeCode) (attributes : List Attribute) : Option String :=
  ((attributes.filter fun a => a.code = code).map Attribute.text).getLast?

/-- A request that is to be accepted. -/
def Entitled (users : String → Option User) (packet : Packet) : Prop :=
  packet.code = .accessRequest ∧ ∃ login user,
    lastText .userName packet.attributes = some login ∧ users login = some user ∧
    lastText .userPassword packet.attributes = some user.password

/-- An answer to a request. -/
structure Answers (request : Request) (answer : Packet × Endpoint) : Prop where
  /-- It goes to where the request came from. -/
  dest : answer.2 = request.source
  /-- It has the number of the request. -/
  id : answer.1.id = request.packet.id
  /-- It has the authenticator of the request. -/
  auth : answer.1.auth = request.packet.auth
  /-- It accepts or rejects. -/
  code : answer.1.code = .accessAccept ∨ answer.1.code = .accessReject
  /-- It accepts what is to be accepted. -/
  accept : answer.1.code = .accessAccept ↔ Entitled request.users request.packet

/-- **The server serves**: one operation is pending, and each request was answered once. -/
structure Serves (s : Server) : Prop where
  /-- One operation is pending. -/
  pending : s.pending.length = 1
  /-- Each request has its answer. -/
  answers : List.Forall₂ Answers s.requests s.answers

/-- A request without a login or without a password that the empty text stands in for. -/
def Blank (users : String → Option User) (packet : Packet) : Prop :=
  packet.code = .accessRequest ∧
    (lastText .userName packet.attributes = none ∨
      lastText .userPassword packet.attributes = none) ∧
    ∃ user, users ((lastText .userName packet.attributes).getD "") = some user ∧
      (lastText .userPassword packet.attributes).getD "" = user.password

/-- The completions after which the server goes on: `asyncSend` in any case, and `asyncReceive` with
a packet that is not blank and whose answer can be made. -/
def GoesOn (s : Server) : Completion → Prop
  | .send _ => True
  | .receive .error => False
  | .receive .missing => False
  | .receive (.packet request) =>
    ¬Blank request.users request.packet ∧
    (Entitled request.users request.packet →
      ∀ login user, lastText .userName request.packet.attributes = some login →
        request.users login = some user → makeAttributes s.config user ≠ none)

/-! ## The answer -/

/-- The loop of `findUser` finds the last login and the last password.

**Proof sketch.** Induction on the attributes, for every login and password found before. -/
theorem readCredentials_eq (attributes : List Attribute) :
    readCredentials attributes =
      ((lastText .userName attributes).getD "", (lastText .userPassword attributes).getD "") := by
  have key : ∀ (l : List Attribute) (acc : String × String),
      l.foldl (fun (acc : String × String) attr =>
        let login := if attr.code = .userName then attr.text else acc.1
        let password := if attr.code = .userPassword then attr.text else acc.2
        (login, password)) acc =
      ((lastText .userName l).getD acc.1, (lastText .userPassword l).getD acc.2) := by
    intro l
    induction l with
    | nil => intro acc; rfl
    | cons a l ih =>
      intro acc
      rw [List.foldl_cons, ih]
      unfold lastText
      by_cases h1 : a.code = .userName
      · simp [h1, List.getLast?_cons]
      · by_cases h2 : a.code = .userPassword
        · simp [h2, List.getLast?_cons]
        · simp [h1, h2]
  exact key attributes ("", "")

/-- The user `findUser` finds. -/
theorem findUser_eq_some_iff {users : String → Option User} {packet : Packet} {user : User} :
    findUser users packet = some user ↔
      users ((lastText .userName packet.attributes).getD "") = some user ∧
      (lastText .userPassword packet.attributes).getD "" = user.password := by
  unfold findUser
  rw [readCredentials_eq]
  simp only
  split
  · next h => simp [h]
  · next u h =>
    rw [h]
    by_cases hp : (lastText .userPassword packet.attributes).getD "" = u.password
    · simp only [hp, ne_eq, not_true_eq_false, if_false, Option.some.injEq]
      constructor
      · rintro rfl
        exact ⟨rfl, rfl⟩
      · exact fun h => h.1
    · simp only [ne_eq, hp, not_false_eq_true, if_true, Option.some.injEq, reduceCtorEq, false_iff]
      rintro ⟨rfl, hp'⟩
      exact hp hp'

/-- A blank request is not to be accepted. -/
theorem Blank.not_entitled {users : String → Option User} {packet : Packet}
    (h : Blank users packet) : ¬Entitled users packet := by
  rintro ⟨-, login, user, hl, -, hp⟩
  rcases h.2.1 with hnone | hnone
  · rw [hnone] at hl
    cases hl
  · rw [hnone] at hp
    cases hp

/-- **Whom the server finds**: the requests that are to be accepted, and blank ones. -/
theorem findUser_isSome_iff {users : String → Option User} {packet : Packet}
    (hcode : packet.code = .accessRequest) :
    (∃ user, findUser users packet = some user) ↔ Entitled users packet ∨ Blank users packet := by
  simp only [findUser_eq_some_iff, Entitled, Blank, hcode, true_and]
  cases hl : lastText .userName packet.attributes with
  | none => simp
  | some login =>
    cases hp : lastText .userPassword packet.attributes with
    | none => simp
    | some password => simp [eq_comm]

/-- What the answer is like, if there is one. -/
theorem answers_makeResponse_iff {cfg : Config} {request : Request} {response : Packet}
    (h : makeResponse cfg request.users request.packet = some response) :
    Answers request (response, request.source) ↔ ¬Blank request.users request.packet := by
  unfold makeResponse at h
  split_ifs at h with hcode
  · cases h
    have hnot : ¬Entitled request.users request.packet := fun he => hcode he.1
    have hnb : ¬Blank request.users request.packet := fun hb => hcode hb.1
    exact ⟨fun _ => hnb, fun _ => ⟨rfl, rfl, rfl, .inr rfl, by simp [hnot]⟩⟩
  · have hcode := not_not.mp hcode
    split at h
    · next user hfind =>
      obtain ⟨attributes, -, h⟩ := Option.bind_eq_some_iff.mp h
      cases h
      have hor := (findUser_isSome_iff hcode).mp ⟨user, hfind⟩
      constructor
      · intro ha hb
        exact hb.not_entitled (ha.accept.mp rfl)
      · intro hnb
        exact ⟨rfl, rfl, rfl, .inl rfl, by simp [hor.resolve_right hnb]⟩
    · next hfind =>
      cases h
      have hnone : ¬(Entitled request.users request.packet ∨ Blank request.users request.packet) := by
        rw [← findUser_isSome_iff hcode]
        rintro ⟨user, hu⟩
        rw [hfind] at hu
        cases hu
      rw [not_or] at hnone
      exact ⟨fun _ => hnone.2, fun _ => ⟨rfl, rfl, rfl, .inr rfl, by simp [hnone.1]⟩⟩

/-- The user of a request that is to be accepted is found. -/
theorem Entitled.findUser {users : String → Option User} {packet : Packet}
    (h : Entitled users packet) {login : String} {user : User}
    (hl : lastText .userName packet.attributes = some login) (hu : users login = some user) :
    findUser users packet = some user := by
  obtain ⟨-, login', user', hl', hu', hp⟩ := h
  obtain rfl := Option.some.inj (hl.symm.trans hl')
  obtain rfl := Option.some.inj (hu.symm.trans hu')
  rw [findUser_eq_some_iff, hl, hp]
  exact ⟨hu, rfl⟩

/-- When there is an answer: the attributes of the user who is found can be made. -/
theorem makeResponse_isSome_iff {cfg : Config} {users : String → Option User} {packet : Packet}
    (hnb : ¬Blank users packet) :
    (∃ response, makeResponse cfg users packet = some response) ↔
      (Entitled users packet → ∀ login user,
        lastText .userName packet.attributes = some login → users login = some user →
          makeAttributes cfg user ≠ none) := by
  constructor
  · rintro ⟨response, hr⟩ he login user hl hu hnone
    unfold makeResponse at hr
    rw [if_neg (not_not.mpr he.1), he.findUser hl hu] at hr
    simp [hnone] at hr
  · intro h
    unfold makeResponse
    split_ifs with hcode
    · exact ⟨_, rfl⟩
    · split
      · next user hfind =>
        have he := ((findUser_isSome_iff (not_not.mp hcode)).mp ⟨user, hfind⟩).resolve_right hnb
        obtain ⟨login, user', hl, hu, -⟩ := he.2
        have heq : user' = user := by
          have hf := he.findUser hl hu
          rw [hfind] at hf
          exact (Option.some.inj hf).symm
        subst heq
        obtain ⟨attributes, ha⟩ := Option.ne_none_iff_exists'.mp (h he login user' hl hu)
        exact ⟨_, by rw [ha]; rfl⟩
      · exact ⟨_, rfl⟩

/-! ## Runs -/

/-- **One completion.** A server that serves goes on serving exactly after the completions of
`GoesOn`.

**Proof sketch.** The operation that is completed was the only one, so that the handler has to start
the next one.  `handleSend` does, `handleReceive` does if there is an answer. -/
theorem serves_step_iff {s s' : Server} {c : Completion} (hstop : s.stopRequested = false)
    (h : Serves s) (hs : step s c = some s') : Serves s' ↔ GoesOn s c := by
  unfold step at hs
  split_ifs at hs with hmem
  obtain ⟨op, hop⟩ := List.length_eq_one_iff.mp h.pending
  have herase : s.pending.erase c.operation = [] := by
    rw [hop] at hmem ⊢
    rw [← List.mem_singleton.mp hmem]
    simp
  rw [herase] at hs
  have hlost : ∀ {t : Server}, t.pending = [] → ¬Serves t := fun ht hserves => by
    have := hserves.pending
    rw [ht] at this
    exact absurd this (by decide)
  cases c with
  | send failed =>
    obtain rfl := Option.some.inj hs
    simp only [GoesOn, iff_true, Server.handleSend, Server.startReceive, hstop]
    exact ⟨rfl, h.answers⟩
  | receive result =>
    obtain rfl := Option.some.inj hs
    simp only [Server.handleReceive, hstop, Bool.false_eq_true, if_false]
    cases result with
    | error => exact iff_of_false (hlost rfl) id
    | missing => exact iff_of_false (hlost rfl) id
    | packet request =>
      simp only [GoesOn]
      cases hr : makeResponse s.config request.users request.packet with
      | none =>
        refine iff_of_false (hlost rfl) ?_
        rintro ⟨hnb, hattr⟩
        obtain ⟨response, hresp⟩ := (makeResponse_isSome_iff hnb).mpr hattr
        rw [hr] at hresp
        cases hresp
      | some response =>
        have hanswers := answers_makeResponse_iff hr
        constructor
        · intro hserves
          have hnb := hanswers.mp (List.forall₂_cons.mp hserves.answers).1
          exact ⟨hnb, (makeResponse_isSome_iff hnb).mp ⟨response, hr⟩⟩
        · rintro ⟨hnb, -⟩
          exact ⟨rfl, List.forall₂_cons.mpr ⟨hanswers.mpr hnb, h.answers⟩⟩

/-- Completions do not request a stop. -/
theorem step_stopRequested {s s' : Server} {c : Completion} (hstop : s.stopRequested = false)
    (hs : step s c = some s') : s'.stopRequested = false := by
  unfold step at hs
  split_ifs at hs
  cases c with
  | send failed =>
    obtain rfl := Option.some.inj hs
    simp only [Server.handleSend, Server.startReceive, hstop]
    rfl
  | receive result =>
    obtain rfl := Option.some.inj hs
    simp only [Server.handleReceive, hstop, Bool.false_eq_true, if_false]
    cases result with
    | error => rfl
    | missing => rfl
    | packet request =>
      simp only
      split <;> rfl

/-- **Service of the RADIUS server.** For every configuration and every sequence of completed
operations, with no stop requested: after each of them exactly one operation is pending, and each
request received so far was answered exactly once, with an acceptance exactly if it is to be
accepted, if and only if every completion of the sequence is that of a pending operation and is one
after which the server goes on.

**Proof sketch.** The exactness rule for runs with `serves_step_iff`. -/
theorem serves_iff (cfg : Config) (cs : List Completion) :
    Transition.Maintains step Serves (Server.start cfg) cs ↔
      ∃ s, Transition.Reaches step GoesOn (Server.start cfg) cs s :=
  Transition.maintains_iff_reaches_of_step (A := fun s => s.stopRequested = false)
    (fun _ _ _ hstop hs => step_stopRequested hstop hs)
    (fun _ _ _ hstop h hs => serves_step_iff hstop h hs) cs rfl ⟨rfl, .nil⟩

/-- **One receive that fails silences the server**: nothing is pending afterwards, and no operation
is ever completed again. -/
theorem receive_error_silences :
    let cfg : Config := ⟨⟨fun _ => none, fun _ => none, fun _ _ => false, fun _ _ => none,
      fun _ _ _ => none⟩, []⟩
    ∃ s, Transition.Runs step (Server.start cfg) [.receive .error] s ∧ s.pending = [] ∧
      ¬Serves s ∧ ∀ c, step s c = none := by
  intro cfg
  refine ⟨_, .cons trivial rfl (.nil _), rfl, fun h => absurd h.pending (by decide), fun c => ?_⟩
  unfold step
  exact if_neg (List.not_mem_nil)

end Radius

end Stargazer
