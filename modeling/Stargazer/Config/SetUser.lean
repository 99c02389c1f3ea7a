import Stargazer.Config.Outcome
import Stargazer.SrvConf.ChgUser

set_option relaxedAutoImplicit false
set_option autoImplicit false

/-!
# Reading a request that changes a user

`CHG_USER::Start` and `BASE_PARSER::End` of `plugins/configuration/sgconfig`: the server gathers
what the elements of a request `SetUser` ask for and carries it out when the request ends.  What the
client prints and what the server reads are written in two places; here they are put together.

The parser is a library of its own; that it conforms to the standard is all that is used of it.
`errno` may have any value when an element is read: `str2x` looks at it.

## Main definitions

* `Stargazer.SetUser.start`, `Stargazer.SetUser.handle`, `Stargazer.SetUser.serve` — the server.
* `Stargazer.SetUser.received` — the request that arrives.
* `Stargazer.SetUser.Agrees` — every field that is set gets its value and the others stay.
* `Stargazer.SetUser.Applied` — what is really made of a request.

## Main results

* `Stargazer.SetUser.serve_chgUser` — the server reads what the client has printed.
* `Stargazer.SetUser.setUser_applied` — what a request does.
-/

namespace Stargazer

namespace SetUser

/-! ## The server -/

/-- What an element is about. -/
inductive Field
  | login | ip
  | text (p : TextProp)
  | aonline | cash | creditExpire | credit | freeMb | down | disableDetailStat | passive
  | traff | tariff
  deriving DecidableEq

/-- The elements `CHG_USER::Start` looks for, in its order. -/
def elements : List (String × Field) :=
  let before : List (String × Field) :=
    [("login", .login), ("ip", .ip), ("password", .text .password), ("address", .text .address),
      ("aonline", .aonline), ("cash", .cash), ("CreditExpire", .creditExpire),
      ("credit", .credit), ("freemb", .freeMb), ("down", .down),
      ("DisableDetailStat", .disableDetailStat), ("email", .text .email)]
  let userdata : List (String × Field) :=
    (List.finRange 10).map fun i => ("userdata" ++ toString i.val, .text (.userdata i))
  let after : List (String × Field) :=
    [("group", .text .group), ("note", .text .note), ("passive", .passive),
      ("phone", .text .phone), ("Name", .text .realName), ("traff", .traff), ("tariff", .tariff)]
  before ++ userdata ++ after

/-- What an element is about, if `CHG_USER::Start` knows it. -/
def field (el : List Char) : Option Field :=
  (elements.find? fun e => caseEq el e.1).map Prod.snd

theorem sub_lt_dirNum {n : ℕ} (h : 48 ≤ n ∧ n < 58) : n - 48 < dirNum := by
  unfold dirNum
  omega

/-- The direction in the name of a counter, if it is one. -/
def dirOf (name : List Char) : Option Dir :=
  match name[2]? with
  | some c => if h : 48 ≤ c.toNat ∧ c.toNat < 58 then some ⟨c.toNat - 48, sub_lt_dirNum h⟩
    else none
  | none => none

/-- One attribute of `traff`.  A direction that is none is outside of the array. -/
def readTraff (req : ChgUser) (a : Xml.Attr) : Option ChgUser :=
  let t := (CString.strtoul a.value).1
  if caseEq (a.name.take 2) "md" then
    (dirOf a.name).map fun i => { req with down := Function.update req.down i (some t) }
  else if caseEq (a.name.take 2) "mu" then
    (dirOf a.name).map fun i => { req with up := Function.update req.up i (some t) }
  else some req

/-- The number `str2x` gives, if it gives one. -/
def readNumber (w : ℕ) (isRange : Bool) (value : List Char) : Option ℤ :=
  (str2x w isRange value).1.map BitVec.toInt

/-- What the first attribute of an element does; `none` where an address does not fit its buffer. -/
def readValue (d : DoubleText) (env : IPEnv) (req : ChgUser) (a : Xml.Attr) : Field → Option ChgUser
  | .login => some { req with login := String.ofList a.value }
  | .ip => (UserIPs.parse env a.value).map fun ips => { req with ips := some ips }
  | .text p =>
    let t := if p.isEncoded then decode21 a.value else a.value
    some { req with text := Function.update req.text p (some (String.ofList t)) }
  | .aonline => some { req with alwaysOnline := some (if a.value.head? = some '0' then 0 else 1) }
  | .cash =>
    some { req with
      cash := (d.scan a.value).or req.cash
      cashMustBeAdded := caseEq a.name "add" }
  | .creditExpire =>
    some { req with creditExpire := (readNumber 64 env.erange a.value).or req.creditExpire }
  | .credit => some { req with credit := (d.scan a.value).or req.credit }
  | .freeMb => some { req with freeMb := (d.scan a.value).or req.freeMb }
  | .down => some { req with disabled := (readNumber 32 env.erange a.value).or req.disabled }
  | .disableDetailStat =>
    some { req with
      disabledDetailStat := (readNumber 32 env.erange a.value).or req.disabledDetailStat }
  | .passive => some { req with passive := (readNumber 32 env.erange a.value).or req.passive }
  | .tariff =>
    if caseEq a.name "now" then some { req with tariffName := some (String.ofList a.value) }
    else if caseEq a.name "delayed" then some { req with nextTariff := some (String.ofList a.value) }
    else some req
  | .traff => some req

/-- What an element inside of the request does; `none` where the null pointer of an element without
attributes is followed. -/
def readElement (d : DoubleText) (env : IPEnv) (req : ChgUser) (el : List Char)
    (attr : List Xml.Attr) : Option ChgUser :=
  match field el with
  | none => some req
  | some .traff => attr.foldlM readTraff req
  | some f => attr.head?.bind fun a => readValue d env req a f

/-- The parser: `m_depth` and what has been gathered. -/
structure State where
  depth : ℕ := 0
  req : ChgUser := { login := "" }

/-- `CHG_USER::Start`. -/
def start (d : DoubleText) (env : IPEnv) (st : State) (el : List Char) (attr : List Xml.Attr) :
    Option State :=
  if st.depth = 0 then some { st with depth := 1 }
  else (readElement d env st.req el attr).map fun req => ⟨st.depth + 1, req⟩

/-- The parser, the users, and the answer as soon as there is one. -/
structure Server where
  parser : State := {}
  users : UserList
  answer : Option Bool := none

/-- One report of the XML parser: `CHG_USER::Start`, or `BASE_PARSER::End`, which carries the request
out when it ends.  `errno` tells whether it is `ERANGE` when the report comes. -/
def handle (d : DoubleText) (env : Env) (priv : Priv) (errno : Xml.Event → Bool) (srv : Server)
    (event : Xml.Event) : Option Server :=
  match event with
  | .start el attr =>
    (start d ⟨env.shifted, errno event⟩ srv.parser el attr).map fun st => { srv with parser := st }
  | .finish el =>
    if srv.parser.depth < 2 then
      if caseEq el "SetUser" then
        (srv.users.applyChanges env priv srv.parser.req).map fun r =>
          ⟨{ srv.parser with depth := srv.parser.depth - 1 }, r.2, some r.1⟩
      else some srv
    else some { srv with parser := { srv.parser with depth := srv.parser.depth - 1 } }

/-- What becomes of a text that is sent to the server. -/
def serve (d : DoubleText) (read : Xml.Text → Option (List Xml.Event)) (env : Env) (priv : Priv)
    (errno : Xml.Event → Bool) (s : UserList) (text : Xml.Text) : Option Server :=
  (read text).bind fun evs => evs.foldlM (handle d env priv errno) { users := s }

/-- Is a number read that is sent?  `str2x` gives none while `errno` is `ERANGE`. -/
def isRead (errno : Xml.Event → Bool) (name : String) {w : ℕ} (x : BitVec w) : Bool :=
  !errno (.start name.toList [⟨"value".toList, SrvConf.printSigned x⟩])

/-- The request that arrives. -/
def received (d : DoubleText) (errno : Xml.Event → Bool) (login : String) (conf : UserConfOpt)
    (stat : UserStatOpt) : ChgUser where
  login := login
  ips := conf.ips.map UserIPs.reread
  alwaysOnline := conf.alwaysOnline.map fun v => if v = 0 then 0 else 1
  text := conf.text
  creditExpire := (conf.creditExpire.filter (isRead errno "creditExpire")).map BitVec.toInt
  credit := conf.credit.bind fun x => d.scan (d.print x)
  freeMb := stat.freeMb.bind fun x => d.scan (d.print x)
  disabled := (conf.disabled.filter (isRead errno "down")).map BitVec.toInt
  disabledDetailStat :=
    (conf.disabledDetailStat.filter (isRead errno "disableDetailStat")).map BitVec.toInt
  passive := (conf.passive.filter (isRead errno "passive")).map BitVec.toInt
  cash := (stat.cashAdd <|> stat.cashSet).bind fun x => d.scan (d.print x)
  cashMustBeAdded := stat.cashAdd.isSome
  tariffName := if conf.nextTariff.isSome then none else conf.tariffName
  nextTariff := conf.nextTariff
  up := stat.monthUp
  down := stat.monthDown

/-! ## Reading the tags of a request -/

section Tags

variable (d : DoubleText) (shifted : BitVec 32) (errno : Xml.Event → Bool)

/-- What the tags inside of a request do. -/
def readTags : ChgUser → List Xml.Tag → Option ChgUser
  | req, [] => some req
  | req, .start n as :: ts =>
    (readElement d ⟨shifted, errno (.start n as)⟩ req n as).bind fun req => readTags req ts
  | req, .empty n as :: ts =>
    (readElement d ⟨shifted, errno (.start n as)⟩ req n as).bind fun req => readTags req ts
  | req, .close _ :: ts => readTags req ts

theorem readTags_append (req : ChgUser) (ts us : List Xml.Tag) :
    readTags d shifted errno req (ts ++ us) =
      (readTags d shifted errno req ts).bind fun req => readTags d shifted errno req us := by
  induction ts generalizing req with
  | nil => rfl
  | cons t ts ih => cases t <;> simp [readTags, ih, Option.bind_assoc]

/-- **The tags inside of a request**: the server gathers what they ask for and is as deep in the
request afterwards as it was before. -/
theorem foldlM_handle_content (env : Env) (priv : Priv) {s : UserList}
    {ts : List Xml.Tag} {req req' : ChgUser} (hts : Xml.balanced [] ts = true)
    (h : readTags d env.shifted errno req ts = some req') :
    (Xml.events ts).foldlM (handle d env priv errno) ⟨⟨1, req⟩, s, none⟩ =
      some ⟨⟨1, req'⟩, s, none⟩ := by
  have hgen : ∀ (ts : List Xml.Tag) (inner : List Xml.Text) (req : ChgUser),
      Xml.balanced inner ts = true → readTags d env.shifted errno req ts = some req' →
      (Xml.events ts).foldlM (handle d env priv errno) ⟨⟨inner.length + 1, req⟩, s, none⟩ =
        some ⟨⟨1, req'⟩, s, none⟩ := by
    intro ts
    induction ts with
    | nil =>
      intro inner req hbalanced hread
      obtain rfl : inner = [] := List.isEmpty_iff.1 (by simpa [Xml.balanced] using hbalanced)
      obtain rfl : req = req' := by simpa [readTags] using hread
      rfl
    | cons t ts ih =>
      intro inner req hbalanced hread
      have hevents : Xml.events (t :: ts) = t.events ++ Xml.events ts := rfl
      cases t with
      | start n as =>
        obtain ⟨req₁, hel, hread⟩ := Option.bind_eq_some_iff.1 hread
        have hstep : handle d env priv errno ⟨⟨inner.length + 1, req⟩, s, none⟩ (.start n as) =
            some ⟨⟨inner.length + 1 + 1, req₁⟩, s, none⟩ := by
          simp [handle, start, hel]
        rw [hevents, Xml.Tag.events, List.singleton_append, List.foldlM_cons, hstep]
        exact ih (n :: inner) req₁ hbalanced hread
      | empty n as =>
        obtain ⟨req₁, hel, hread⟩ := Option.bind_eq_some_iff.1 hread
        have hstep : handle d env priv errno ⟨⟨inner.length + 1, req⟩, s, none⟩ (.start n as) =
            some ⟨⟨inner.length + 1 + 1, req₁⟩, s, none⟩ := by
          simp [handle, start, hel]
        have hstep' : handle d env priv errno ⟨⟨inner.length + 1 + 1, req₁⟩, s, none⟩ (.finish n) =
            some ⟨⟨inner.length + 1, req₁⟩, s, none⟩ := by
          simp [handle]
        rw [hevents, Xml.Tag.events, List.cons_append, List.singleton_append, List.foldlM_cons,
          hstep, Option.bind_eq_bind, Option.bind_some, List.foldlM_cons, hstep']
        exact ih inner req₁ hbalanced hread
      | close n =>
        cases inner with
        | nil => simp [Xml.balanced] at hbalanced
        | cons m inner =>
          have hbalanced : Xml.balanced inner ts = true := by
            simp only [Xml.balanced, Bool.and_eq_true] at hbalanced
            exact hbalanced.2
          have hstep : handle d env priv errno ⟨⟨(m :: inner).length + 1, req⟩, s, none⟩ (.finish n) =
              some ⟨⟨inner.length + 1, req⟩, s, none⟩ := by
            simp [handle]
          rw [hevents, Xml.Tag.events, List.singleton_append, List.foldlM_cons, hstep]
          exact ih inner req hbalanced hread
  exact hgen ts [] req hts h

/-! ## What the server reads of each part of a request -/

/-- The value of an element that is known. -/
theorem readTags_appendResetableTag (req : ChgUser) {name : String} {f : Field}
    (hf : field name.toList = some f) (o : Option (List Char)) :
    readTags d shifted errno req (SrvConf.appendResetableTag name o) =
      o.elim (some req) fun v =>
        readValue d ⟨shifted, errno (.start name.toList [⟨"value".toList, v⟩])⟩ req
          ⟨"value".toList, v⟩ f := by
  cases o with
  | none => rfl
  | some v =>
    have hread : ∀ env, readElement d env req name.toList [⟨"value".toList, v⟩] =
        readValue d env req ⟨"value".toList, v⟩ f := by
      intro env
      unfold readElement
      rw [hf]
      cases f <;> rfl
    change (readElement d _ req name.toList _).bind _ = _
    rw [hread]
    exact Option.bind_fun_some _

/-- An element that is not known is passed over. -/
theorem readElement_of_unknown (env : IPEnv) (req : ChgUser) {el : List Char}
    (h : field el = none) (attr : List Xml.Attr) : readElement d env req el attr = some req := by
  unfold readElement
  rw [h]

/-- The elements a client sends, and what the server takes them for. -/
def sent : List (String × Option Field) :=
  [("Login", some .login), ("credit", some .credit), ("creditExpire", some .creditExpire),
    ("down", some .down), ("passive", some .passive),
    ("disableDetailStat", some .disableDetailStat), ("aonline", some .aonline), ("ip", some .ip),
    ("tariff", some .tariff), ("corp", none), ("services", none), ("service", none),
    ("cash", some .cash), ("freeMb", some .freeMb), ("traff", some .traff)]

theorem field_sent : ∀ e ∈ sent, field e.1.toList = e.2 := by decide +kernel

theorem field_element (p : TextProp) : field p.element.toList = some (.text p) := by
  have hall : ∀ p ∈ [TextProp.note, .realName, .address, .email, .phone, .group, .password] ++
      (List.finRange 10).map .userdata, field p.element.toList = some (.text p) := by
    decide +kernel
  refine hall p ?_
  cases p <;> simp

theorem or_or_self {α : Type} (a b : Option α) : a.or (a.or b) = a.or b := by cases a <;> rfl

/-- The texts that are sent in letters. -/
theorem readTags_texts (conf : UserConfOpt) (ps : List TextProp)
    (hps : ∀ p ∈ ps, p.isEncoded = true) (req : ChgUser) :
    readTags d shifted errno req (ps.flatMap (SrvConf.appendEncoded conf)) =
      some { req with
        text := fun q => if q ∈ ps then (conf.text q).or (req.text q) else req.text q } := by
  induction ps generalizing req with
  | nil => simp [readTags]
  | cons p ps ih =>
    have hp := hps p List.mem_cons_self
    have hfirst : readTags d shifted errno req (SrvConf.appendEncoded conf p) =
        some { req with text := Function.update req.text p ((conf.text p).or (req.text p)) } := by
      rw [SrvConf.appendEncoded, readTags_appendResetableTag d shifted errno req (field_element p)]
      cases ht : conf.text p with
      | none => simp
      | some t =>
        simp [readValue, hp, decode21_encode12 (conf.bytes p t hp ht)]
    rw [List.flatMap_cons, readTags_append, hfirst, Option.bind_some,
      ih fun q hq => hps q (List.mem_cons_of_mem p hq)]
    congr 2
    funext q
    by_cases hq : q = p
    · subst hq
      simp [or_or_self]
    · simp [hq]

theorem readTags_password (conf : UserConfOpt) (req : ChgUser) :
    readTags d shifted errno req (SrvConf.appendResetableTag "password"
        ((conf.text .password).map String.toList)) =
      some { req with
        text := Function.update req.text .password
          ((conf.text .password).or (req.text .password)) } := by
  have hread := readTags_appendResetableTag d shifted errno req (field_element .password)
    ((conf.text .password).map String.toList)
  refine hread.trans ?_
  cases conf.text .password with
  | none => simp
  | some t => simp [readValue, TextProp.isEncoded]

/-- A number of a machine word is one of `int64_t`. -/
theorem isTime_toInt {w : ℕ} (hw : w ≤ 64) (x : BitVec w) : IsTime x.toInt := by
  have hlow := BitVec.le_two_mul_toInt (x := x)
  have hhigh := BitVec.two_mul_toInt_lt (x := x)
  have hpow : (2 : ℤ) ^ w ≤ 2 ^ 64 := pow_le_pow_right₀ (by decide) hw
  unfold IsTime
  omega

/-- What is read of a printed number. -/
theorem readNumber_printSigned {w : ℕ} (hw : w ≤ 64) (name : String) (x : BitVec w) :
    readNumber w (errno (.start name.toList [⟨"value".toList, SrvConf.printSigned x⟩]))
        (SrvConf.printSigned x) =
      ((some x).filter (isRead errno name)).map BitVec.toInt := by
  rw [readNumber, SrvConf.printSigned, str2x_printInt w _ (isTime_toInt hw x), Option.filter_some,
    isRead, SrvConf.printSigned]
  cases errno (.start name.toList [⟨"value".toList, CString.printInt x.toInt⟩]) <;> simp

/-- The first character of a number tells whether it is zero. -/
theorem head_printSigned (x : BitVec 32) :
    (SrvConf.printSigned x).head? = some '0' ↔ x = 0 := by
  have hzero : x.toInt = 0 ↔ x = 0 := by
    rw [← BitVec.toInt_inj]
    simp
  rw [SrvConf.printSigned, ← hzero, CString.printInt]
  generalize x.toInt = z
  split_ifs with hz
  · simp
    omega
  · rw [CString.head_toDigits_eq_zero_iff, Int.natAbs_eq_zero]

theorem readTags_aonline (o : Option (BitVec 32)) (req : ChgUser) :
    readTags d shifted errno req (SrvConf.appendResetableTag "aonline" (o.map SrvConf.printSigned)) =
      some { req with
        alwaysOnline := (o.map fun v => if v = 0 then 0 else 1).or req.alwaysOnline } := by
  rw [readTags_appendResetableTag d shifted errno req (f := .aonline)
    (field_sent ("aonline", some .aonline) (by simp [sent]))]
  cases o with
  | none => simp
  | some v => simp [readValue, head_printSigned]

theorem readTags_ip (o : Option UserIPs) (req : ChgUser) :
    readTags d shifted errno req (SrvConf.appendResetableTag "ip"
        (o.map fun ips => (UserIPs.toString ips).toList)) =
      some { req with
        ips := (o.map UserIPs.reread).or req.ips } := by
  rw [readTags_appendResetableTag d shifted errno req (f := .ip)
    (field_sent ("ip", some .ip) (by simp [sent]))]
  cases o <;> simp [readValue, UserIPs.parse_toString]

theorem readTags_creditExpire (o : Option (BitVec 64)) (req : ChgUser) :
    readTags d shifted errno req (SrvConf.appendResetableTag "creditExpire" (o.map SrvConf.printSigned)) =
      some { req with
        creditExpire :=
          ((o.filter (isRead errno "creditExpire")).map BitVec.toInt).or req.creditExpire } := by
  rw [readTags_appendResetableTag d shifted errno req (f := .creditExpire)
    (field_sent ("creditExpire", some .creditExpire) (by simp [sent]))]
  cases o with
  | none => rfl
  | some v => rw [Option.map_some, Option.elim_some, readValue, readNumber_printSigned errno (by decide)]

theorem readTags_down (o : Option (BitVec 32)) (req : ChgUser) :
    readTags d shifted errno req (SrvConf.appendResetableTag "down" (o.map SrvConf.printSigned)) =
      some { req with disabled := ((o.filter (isRead errno "down")).map BitVec.toInt).or req.disabled } := by
  rw [readTags_appendResetableTag d shifted errno req (f := .down)
    (field_sent ("down", some .down) (by simp [sent]))]
  cases o with
  | none => rfl
  | some v => rw [Option.map_some, Option.elim_some, readValue, readNumber_printSigned errno (by decide)]

theorem readTags_passive (o : Option (BitVec 32)) (req : ChgUser) :
    readTags d shifted errno req (SrvConf.appendResetableTag "passive" (o.map SrvConf.printSigned)) =
      some { req with passive := ((o.filter (isRead errno "passive")).map BitVec.toInt).or req.passive } := by
  rw [readTags_appendResetableTag d shifted errno req (f := .passive)
    (field_sent ("passive", some .passive) (by simp [sent]))]
  cases o with
  | none => rfl
  | some v => rw [Option.map_some, Option.elim_some, readValue, readNumber_printSigned errno (by decide)]

theorem readTags_disableDetailStat (o : Option (BitVec 32)) (req : ChgUser) :
    readTags d shifted errno req
        (SrvConf.appendResetableTag "disableDetailStat" (o.map SrvConf.printSigned)) =
      some { req with
        disabledDetailStat := ((o.filter (isRead errno "disableDetailStat")).map BitVec.toInt).or
          req.disabledDetailStat } := by
  rw [readTags_appendResetableTag d shifted errno req (f := .disableDetailStat)
    (field_sent ("disableDetailStat", some .disableDetailStat) (by simp [sent]))]
  cases o with
  | none => rfl
  | some v => rw [Option.map_some, Option.elim_some, readValue, readNumber_printSigned errno (by decide)]

theorem readTags_credit (o : Option Money) (req : ChgUser) :
    readTags d shifted errno req (SrvConf.appendResetableTag "credit" (o.map d.print)) =
      some { req with credit := (o.bind fun x => d.scan (d.print x)).or req.credit } := by
  rw [readTags_appendResetableTag d shifted errno req (f := .credit)
    (field_sent ("credit", some .credit) (by simp [sent]))]
  cases o <;> simp [readValue]

theorem readTags_freeMb (o : Option Money) (req : ChgUser) :
    readTags d shifted errno req (SrvConf.appendResetableTag "freeMb" (o.map d.print)) =
      some { req with freeMb := (o.bind fun x => d.scan (d.print x)).or req.freeMb } := by
  rw [readTags_appendResetableTag d shifted errno req (f := .freeMb)
    (field_sent ("freeMb", some .freeMb) (by simp [sent]))]
  cases o <;> simp [readValue]

/-- An element nobody knows. -/
theorem readTags_corp (o : Option (List Char)) (req : ChgUser) :
    readTags d shifted errno req (SrvConf.appendResetableTag "corp" o) = some req := by
  cases o with
  | none => rfl
  | some v =>
    change (readElement d _ req "corp".toList _).bind _ = _
    rw [readElement_of_unknown d _ req (field_sent ("corp", none) (by simp [sent]))]
    rfl

/-- Neither does anybody know the services. -/
theorem readTags_services (o : Option (List String)) (req : ChgUser) :
    readTags d shifted errno req (o.toList.flatMap SrvConf.servicesTags) = some req := by
  have hservice : ∀ ss : List String, readTags d shifted errno req (ss.map fun s =>
      .empty "service".toList [⟨"name".toList, s.toList⟩]) = some req := by
    intro ss
    induction ss with
    | nil => rfl
    | cons s ss ih =>
      change (readElement d _ req "service".toList _).bind _ = _
      rw [readElement_of_unknown d _ req (field_sent ("service", none) (by simp [sent]))]
      exact ih
  cases o with
  | none => rfl
  | some ss =>
    rw [Option.toList_some, List.flatMap_singleton, SrvConf.servicesTags]
    change (readElement d _ req "services".toList _).bind _ = _
    rw [readElement_of_unknown d _ req (field_sent ("services", none) (by simp [sent])),
      Option.bind_some, readTags_append, hservice]
    rfl

/-- The tariff that is to follow goes before the tariff. -/
theorem readTags_tariff (conf : UserConfOpt) (req : ChgUser) :
    readTags d shifted errno req (SrvConf.tariffTag conf) =
      some { req with
        tariffName := (if conf.nextTariff.isSome then none else conf.tariffName).or req.tariffName
        nextTariff := conf.nextTariff.or req.nextTariff } := by
  have hfield : field "tariff".toList = some .tariff := field_sent ("tariff", some .tariff) (by simp [sent])
  have hread : ∀ a : Xml.Attr, readTags d shifted errno req [.empty "tariff".toList [a]] =
      readValue d ⟨shifted, errno (.start "tariff".toList [a])⟩ req a .tariff := by
    intro a
    simp only [readTags, readElement, hfield]
    exact Option.bind_fun_some _
  have hnow : caseEq "now".toList "now" = true := by decide
  have hdelayed : caseEq "delayed".toList "now" = false ∧
      caseEq "delayed".toList "delayed" = true := by decide
  unfold SrvConf.tariffTag
  split
  next _ _ t hnext => simp only [hread, readValue, hdelayed, hnext]; simp
  next t hnext ht => simp only [hread, readValue, hnow, hnext, ht]; simp
  next hnext ht => simp [readTags, hnext, ht]

/-- A payment. -/
theorem readTags_cash (stat : UserStatOpt) (msg : List Char) (req : ChgUser) :
    readTags d shifted errno req (SrvConf.cashTag d stat msg) =
      some { req with
        cash := ((stat.cashAdd <|> stat.cashSet).bind fun x => d.scan (d.print x)).or req.cash
        cashMustBeAdded := if (stat.cashAdd <|> stat.cashSet).isSome then stat.cashAdd.isSome
          else req.cashMustBeAdded } := by
  have hfield : field "cash".toList = some .cash := field_sent ("cash", some .cash) (by simp [sent])
  have hread : ∀ a b : Xml.Attr, readTags d shifted errno req [.empty "cash".toList [a, b]] =
      readValue d ⟨shifted, errno (.start "cash".toList [a, b])⟩ req a .cash := by
    intro a b
    simp only [readTags, readElement, hfield]
    exact Option.bind_fun_some _
  have hadd : caseEq "add".toList "add" = true ∧ caseEq "set".toList "add" = false := by decide
  unfold SrvConf.cashTag
  split
  next _ _ x hx => simp only [hread, readValue, hadd, hx]; simp
  next x hx hx' => simp only [hread, readValue, hadd, hx, hx']; simp
  next hx hx' => simp [readTags, hx, hx']

/-! ### Counters -/

/-- The direction in the name of a counter. -/
theorem dirOf_name (a b : Char) (i : Dir) :
    dirOf ([a, b] ++ Nat.toDigits 10 i.val) = some i := by
  have hall : ∀ i : Dir, dirOf (['M', 'U'] ++ Nat.toDigits 10 i.val) = some i := by decide
  exact hall i

/-- The counters of one kind, each of which sets one of the counters of the request. -/
theorem foldlM_traffAttrs {a b : Char} {v : Dir → Option (BitVec 64)}
    (put : ChgUser → (Dir → Option (BitVec 64)) → ChgUser)
    (get : ChgUser → Dir → Option (BitVec 64))
    (hput : ∀ req i x, readTraff req ⟨[a, b] ++ Nat.toDigits 10 i.val, CString.printInt x.toNat⟩ =
      some (put req (Function.update (get req) i (some x))))
    (hget : ∀ req f, get (put req f) = f) (hput' : ∀ req f g, put (put req f) g = put req g)
    (hself : ∀ req, put req (get req) = req) (req : ChgUser) :
    (SrvConf.traffAttrs [a, b] v).foldlM readTraff req =
      some (put req fun i => (v i).or (get req i)) := by
  have hgen : ∀ (dirs : List Dir) (req : ChgUser),
      (dirs.flatMap fun i => (v i).toList.map fun x =>
        (⟨[a, b] ++ Nat.toDigits 10 i.val, CString.printInt x.toNat⟩ : Xml.Attr)).foldlM
          readTraff req =
        some (put req fun i => if i ∈ dirs then (v i).or (get req i) else get req i) := by
    intro dirs
    induction dirs with
    | nil => intro req; simp [hself]
    | cons i dirs ih =>
      intro req
      cases hv : v i with
      | none =>
        rw [List.flatMap_cons, hv, Option.toList_none, List.map_nil, List.nil_append, ih]
        congr 2
        funext j
        by_cases hj : j = i
        · simp [hj, hv]
        · simp [hj]
      | some x =>
        rw [List.flatMap_cons, hv, Option.toList_some, List.map_singleton, List.singleton_append,
          List.foldlM_cons, hput, Option.bind_eq_bind, Option.bind_some, ih, hput', hget]
        congr 2
        funext j
        by_cases hj : j = i
        · subst hj
          simp [hv]
        · simp [hj]
  have h := hgen (List.finRange 10) req
  simp only [List.mem_finRange, if_true] at h
  exact h

/-- The value of a counter. -/
theorem strtoul_counter (x : BitVec 64) : (CString.strtoul (CString.printInt x.toNat)).1 = x := by
  rw [CString.strtoul_printInt x.isLt]
  simp

theorem readTraff_monthUp (req : ChgUser) (i : Dir) (x : BitVec 64) :
    readTraff req ⟨['M', 'U'] ++ Nat.toDigits 10 i.val, CString.printInt x.toNat⟩ =
      some { req with up := Function.update req.up i (some x) } := by
  have hmd : caseEq ['M', 'U'] "md" = false := by decide
  have hmu : caseEq ['M', 'U'] "mu" = true := by decide
  have htake : (['M', 'U'] ++ Nat.toDigits 10 i.val).take 2 = ['M', 'U'] := rfl
  simp only [readTraff, htake, hmd, hmu, dirOf_name, strtoul_counter, if_true, Bool.false_eq_true,
    if_false, Option.map_some]

theorem readTraff_monthDown (req : ChgUser) (i : Dir) (x : BitVec 64) :
    readTraff req ⟨['M', 'D'] ++ Nat.toDigits 10 i.val, CString.printInt x.toNat⟩ =
      some { req with down := Function.update req.down i (some x) } := by
  have hmd : caseEq ['M', 'D'] "md" = true := by decide
  have htake : (['M', 'D'] ++ Nat.toDigits 10 i.val).take 2 = ['M', 'D'] := rfl
  simp only [readTraff, htake, hmd, dirOf_name, strtoul_counter, if_true, Option.map_some]

/-- The counters of the session are passed over. -/
theorem foldlM_session {b : Char} (hb : caseEq ['S', b] "md" = false ∧ caseEq ['S', b] "mu" = false)
    (v : Dir → Option (BitVec 64)) (req : ChgUser) :
    (SrvConf.traffAttrs ['S', b] v).foldlM readTraff req = some req := by
  have hread : ∀ a ∈ SrvConf.traffAttrs ['S', b] v, readTraff req a = some req := by
    intro a ha
    obtain ⟨i, -, ha⟩ := List.mem_flatMap.1 ha
    obtain ⟨x, -, rfl⟩ := List.mem_map.1 ha
    have htake : (['S', b] ++ Nat.toDigits 10 i.val).take 2 = ['S', b] := rfl
    simp only [readTraff, htake, hb, Bool.false_eq_true, if_false]
  revert hread
  generalize SrvConf.traffAttrs ['S', b] v = attrs
  intro hread
  induction attrs with
  | nil => rfl
  | cons a attrs ih =>
    rw [List.foldlM_cons, hread a List.mem_cons_self]
    exact ih fun b hb => hread b (List.mem_cons_of_mem a hb)

theorem readTags_traff (stat : UserStatOpt) (req : ChgUser) :
    readTags d shifted errno req (SrvConf.traffTag stat) =
      some { req with
        up := fun i => (stat.monthUp i).or (req.up i)
        down := fun i => (stat.monthDown i).or (req.down i) } := by
  have hfield : field "traff".toList = some .traff := field_sent ("traff", some .traff) (by simp [sent])
  have hread : ∀ as : List Xml.Attr, readTags d shifted errno req [.empty "traff".toList as] =
      as.foldlM readTraff req := by
    intro as
    simp only [readTags, readElement, hfield]
    exact Option.bind_fun_some _
  have htraff : (SrvConf.traffAttrs ['S', 'U'] stat.sessionUp ++
      SrvConf.traffAttrs ['S', 'D'] stat.sessionDown ++
      SrvConf.traffAttrs ['M', 'U'] stat.monthUp ++
      SrvConf.traffAttrs ['M', 'D'] stat.monthDown).foldlM readTraff req =
        some { req with
          up := fun i => (stat.monthUp i).or (req.up i)
          down := fun i => (stat.monthDown i).or (req.down i) } := by
    rw [List.foldlM_append, List.foldlM_append, List.foldlM_append,
      foldlM_session (by decide), Option.bind_eq_bind, Option.bind_some,
      foldlM_session (by decide), Option.bind_some,
      foldlM_traffAttrs (fun req f => { req with up := f }) ChgUser.up
        readTraff_monthUp (fun _ _ => rfl) (fun _ _ _ => rfl) (fun _ => rfl), Option.bind_some,
      foldlM_traffAttrs (fun req f => { req with down := f }) ChgUser.down
        readTraff_monthDown (fun _ _ => rfl) (fun _ _ _ => rfl) (fun _ => rfl)]
  simp only [SrvConf.traffTag]
  split_ifs with hempty
  · rw [hempty] at htraff
    exact htraff
  · rw [hread, htraff]

end Tags

/-! ## The server reads what the client has printed -/

/-- **The elements of a request.** -/
theorem readTags_serialize (d : DoubleText) (shifted : BitVec 32) (errno : Xml.Event → Bool)
    (login : String) (conf : UserConfOpt) (stat : UserStatOpt) (msg : List Char) :
    readTags d shifted errno { login := login } (SrvConf.serialize d conf stat msg) =
      some (received d errno login conf stat) := by
  have htexts := readTags_texts d shifted errno conf [.note, .realName, .address, .email, .phone, .group]
    (by decide)
  have huserdata : ∀ req, readTags d shifted errno req
      ((List.finRange 10).flatMap fun i => SrvConf.appendEncoded conf (.userdata i)) = _ :=
    fun req => (congrArg _ (List.flatMap_map TextProp.userdata _ _).symm).trans
      (readTags_texts d shifted errno conf ((List.finRange 10).map .userdata) (by decide) req)
  simp only [SrvConf.serialize, readTags_append, readTags_credit, readTags_creditExpire,
    readTags_password, readTags_down, readTags_passive, readTags_disableDetailStat,
    readTags_aonline, readTags_ip, readTags_tariff, htexts, readTags_corp, huserdata,
    readTags_services, readTags_cash, readTags_freeMb, readTags_traff, Option.bind_some,
    Option.or_none, received]
  congr 2
  · funext q
    cases q <;> simp
  · cases stat.cashAdd <;> cases stat.cashSet <;> rfl

/-- **The server reads what the client has printed.**

**Proof sketch.** The request is a document, so a conforming parser reports its tags.  The first one
opens the request, the next one names the user, the others are gathered
(`foldlM_handle_content`), and the last one ends the request, which is carried out then. -/
theorem serve_chgUser {read : Xml.Text → Option (List Xml.Event)} (hread : Xml.Conforming read)
    (d : DoubleText) (env : Env) (priv : Priv) (errno : Xml.Event → Bool) (s : UserList)
    {login : String} {conf : UserConfOpt} (h : SrvConf.Plain login conf) (stat : UserStatOpt)
    (msg : List Char) :
    serve d read env priv errno s (Xml.render (SrvConf.chgUser d login conf stat msg)) =
      (s.applyChanges env priv (received d errno login conf stat)).map fun r =>
        ⟨⟨0, received d errno login conf stat⟩, r.2, some r.1⟩ := by
  have hlogin : readTags d env.shifted errno { login := "" }
      (SrvConf.appendResetableTag "Login" (some login.toList)) = some { login := login } := by
    rw [readTags_appendResetableTag d env.shifted errno _ (f := .login)
      (field_sent ("Login", some .login) (by simp [sent]))]
    simp [readValue]
  have htags : readTags d env.shifted errno { login := "" }
      (SrvConf.appendTag "Login" login.toList :: SrvConf.serialize d conf stat msg) =
        some (received d errno login conf stat) := by
    rw [← List.singleton_append, readTags_append]
    change (readTags d env.shifted errno _
      (SrvConf.appendResetableTag "Login" (some login.toList))).bind _ = _
    rw [hlogin, Option.bind_some, readTags_serialize]
  have hcontent := foldlM_handle_content d errno env priv (s := s)
    (SrvConf.isContent_request d h stat msg).balanced htags
  have hend : caseEq "SetUser".toList "SetUser" = true := by decide
  have hfirst : handle d env priv errno { users := s } (.start "SetUser".toList []) =
      some ⟨⟨1, { login := "" }⟩, s, none⟩ := rfl
  rw [serve, hread _ (SrvConf.isDocument_chgUser d h stat msg), Option.bind_some, SrvConf.chgUser,
    Xml.events_element, List.foldlM_cons, hfirst, Option.bind_eq_bind, Option.bind_some,
    List.foldlM_append, hcontent,
    Option.bind_eq_bind, Option.bind_some, List.foldlM_cons]
  simp only [handle, hend]
  simp


/-! ## What a request does -/

/-- A list of addresses whose text stands for it: the list `*`, or addresses without a mask, none of
which is 255.255.255.255. -/
def Carried (ips : UserIPs) : Prop :=
  ips = UserIPs.any ∨
    (ips.isAnyIP = false ∧ ∀ im ∈ ips, im.ip ≠ inaddrNone ∧ im.mask = 32)

theorem Carried.reread_eq {ips : UserIPs} (h : Carried ips) : UserIPs.reread ips = ips := by
  unfold UserIPs.reread
  rcases h with rfl | ⟨hany, hall⟩
  · rfl
  · have htake : List.takeWhile (fun im : IPMask => decide (im.ip ≠ inaddrNone)) ips = ips :=
      List.takeWhile_eq_self_iff.2 fun im him => by simpa using (hall im him).1
    have hmap : List.map (fun im : IPMask => (⟨im.ip, 32⟩ : IPMask)) ips = ips := by
      refine (List.map_congr_left fun im him => ?_).trans (List.map_id ips)
      exact congrArg (IPMask.mk im.ip) (hall im him).2.symm
    rw [hany, htake, hmap]
    rfl

/-- No check of the server fails: the user exists, it does not become one who is always online with
several addresses, none of its addresses is in use, and the tariff that is sent exists and may be
changed to. -/
structure Unrefused (env : Env) (s : UserList) (login : String) (conf : UserConfOpt)
    (ips : UserIPs) (i : Fin s.users.length) : Prop where
  found : s.findByName login = some i
  oneAddress : (conf.alwaysOnline.map BitVec.toInt).getD (s.users.get i).alwaysOnline ≠ 0 →
    ips.onlyOneIP = true
  free : ∀ im ∈ ips, s.isIPInUse env.shifted im.ip login = false
  tariff : ∀ t, conf.nextTariff = none → conf.tariffName = some t →
    ∃ old new, (s.users.get i).user.tariff = some old ∧ env.tariffs t = some new ∧
      old.tariffChangeIsAllowed new env.time = ""
  nextTariff : ∀ t, conf.nextTariff = some t → (env.tariffs t).isSome = true

/-- **Agreement**: every field that is set has its value, and the others are as before.  Numbers with
a point are left out. -/
structure Agrees (conf : UserConfOpt) (stat : UserStatOpt) (p q : UserProperties) : Prop where
  text : ∀ f, q.text f = (conf.text f).getD (p.text f)
  passive : q.passive = (conf.passive.map BitVec.toInt).getD p.passive
  disabled : q.disabled = (conf.disabled.map BitVec.toInt).getD p.disabled
  disabledDetailStat : q.disabledDetailStat =
    (conf.disabledDetailStat.map BitVec.toInt).getD p.disabledDetailStat
  alwaysOnline : q.alwaysOnline = (conf.alwaysOnline.map BitVec.toInt).getD p.alwaysOnline
  tariffName : q.tariffName = conf.tariffName.getD p.tariffName
  nextTariff : q.nextTariff = conf.nextTariff.getD p.nextTariff
  creditExpire : q.creditExpire = (conf.creditExpire.map BitVec.toInt).getD p.creditExpire
  ips : q.ips = conf.ips.getD p.ips
  up : ∀ i, q.up i = (stat.monthUp i).getD (p.up i)
  down : ∀ i, q.down i = (stat.monthDown i).getD (p.down i)
  lastCashAddTime : q.lastCashAddTime =
    (stat.lastCashAddTime.map BitVec.toInt).getD p.lastCashAddTime
  passiveTime : q.passiveTime = (stat.passiveTime.map BitVec.toInt).getD p.passiveTime
  lastActivityTime : q.lastActivityTime =
    (stat.lastActivityTime.map BitVec.toInt).getD p.lastActivityTime

/-- Is a number that is set read by the server? -/
def ReadIfSet (errno : Xml.Event → Bool) (name : String) {w : ℕ} (o : Option (BitVec w)) : Prop :=
  ∀ x, o = some x → isRead errno name x = true

/-- What is really made of a request: a number is set if `errno` is not `ERANGE` when its element is
read; `alwaysOnline` is a flag; the tariff that is to follow is sent in place of the tariff, and a tariff
that is set clears the one that was to follow; the time of the last payment is noted with a payment and
when the user is charged for becoming passive. -/
structure Applied (env : Env) (errno : Xml.Event → Bool) (conf : UserConfOpt) (stat : UserStatOpt)
    (p q : UserProperties) : Prop where
  text : ∀ f, q.text f = (conf.text f).getD (p.text f)
  passive : ReadIfSet errno "passive" conf.passive →
    q.passive = (conf.passive.map BitVec.toInt).getD p.passive
  disabled : ReadIfSet errno "down" conf.disabled →
    q.disabled = (conf.disabled.map BitVec.toInt).getD p.disabled
  disabledDetailStat : ReadIfSet errno "disableDetailStat" conf.disabledDetailStat →
    q.disabledDetailStat = (conf.disabledDetailStat.map BitVec.toInt).getD p.disabledDetailStat
  alwaysOnline : q.alwaysOnline =
    (conf.alwaysOnline.map fun v => if v = 0 then 0 else 1).getD p.alwaysOnline
  tariffName : q.tariffName =
    (if conf.nextTariff.isSome then none else conf.tariffName).getD p.tariffName
  nextTariff : q.nextTariff =
    conf.nextTariff.getD (if conf.tariffName.isSome then "" else p.nextTariff)
  creditExpire : ReadIfSet errno "creditExpire" conf.creditExpire →
    q.creditExpire = (conf.creditExpire.map BitVec.toInt).getD p.creditExpire
  ips : q.ips = conf.ips.getD p.ips
  up : ∀ i, q.up i = (stat.monthUp i).getD (p.up i)
  down : ∀ i, q.down i = (stat.monthDown i).getD (p.down i)
  lastCashAddTime : stat.cashAdd = none → stat.cashSet = none →
    (conf.passive.getD 0 = 0 ∨ p.passive ≠ 0) → stat.lastCashAddTime = none →
      q.lastCashAddTime = p.lastCashAddTime
  lastCashAddTime_paid : (stat.cashAdd <|> stat.cashSet).isSome = true →
    q.lastCashAddTime = env.stgTime
  passiveTime : stat.passiveTime = none → q.passiveTime = p.passiveTime
  lastActivityTime : stat.lastActivityTime = none → q.lastActivityTime = p.lastActivityTime

/-- A number that is read arrives. -/
theorem ReadIfSet.filter_eq {errno : Xml.Event → Bool} {name : String} {w : ℕ} {o : Option (BitVec w)}
    (h : ReadIfSet errno name o) : o.filter (isRead errno name) = o := by
  cases o with
  | none => rfl
  | some x => rw [Option.filter_some, if_pos (h x rfl)]

/-- The outcome of the request that arrives. -/
theorem applied_outcome (d : DoubleText) (env : Env) (errno : Xml.Event → Bool)
    (tariff : Option TariffImpl) (login : String) {conf : UserConfOpt} (stat : UserStatOpt)
    (hips : ∀ ips, conf.ips = some ips → Carried ips) (p : UserProperties) :
    Applied env errno conf stat p ((received d errno login conf stat).outcome env tariff p) where
  text := fun _ => rfl
  passive := fun h => by simp only [ChgUser.outcome, received, h.filter_eq]
  disabled := fun h => by simp only [ChgUser.outcome, received, h.filter_eq]
  disabledDetailStat := fun h => by simp only [ChgUser.outcome, received, h.filter_eq]
  alwaysOnline := rfl
  tariffName := rfl
  nextTariff := by
    cases h : conf.nextTariff <;> simp [ChgUser.outcome, received, h]
  creditExpire := fun h => by simp only [ChgUser.outcome, received, h.filter_eq]
  ips := by
    cases h : conf.ips with
    | none => simp [ChgUser.outcome, received, h]
    | some ips => simp [ChgUser.outcome, received, h, (hips ips h).reread_eq]
  up := fun _ => rfl
  down := fun _ => rfl
  lastCashAddTime := by
    intro hadd hset hpassive _
    have hcharged : (received d errno login conf stat).charged tariff p = false := by
      rcases hpassive with h | h
      · cases hc : conf.passive with
        | none => simp [ChgUser.charged, received, hc]
        | some v =>
          have hv : v = 0 := by simpa [hc] using h
          simp only [ChgUser.charged, received, hc, hv, Option.filter_some]
          cases isRead errno "passive" (0 : BitVec 32) <;> simp
      · simp [ChgUser.charged, h]
    have hcash : (received d errno login conf stat).cash = none := by simp [received, hadd, hset]
    simp [ChgUser.outcome, hcharged, hcash]
  lastCashAddTime_paid := by
    intro h
    have hcash : (received d errno login conf stat).cash.isSome = true := by
      obtain ⟨x, hx⟩ := Option.isSome_iff_exists.1 h
      simpa [received, hx] using d.reads x
    simp [ChgUser.outcome, hcash]
  passiveTime := fun _ => rfl
  lastActivityTime := fun _ => rfl

/-- The request that arrives gets past the checks at the beginning. -/
theorem Unrefused.passes {env : Env} {s : UserList} {login : String} {conf : UserConfOpt}
    {ips : UserIPs} {i : Fin s.users.length} (h : Unrefused env s login conf ips i)
    (hips : conf.ips = some ips) (hcarried : Carried ips) (d : DoubleText) (errno : Xml.Event → Bool)
    (stat : UserStatOpt) : s.Passes env (received d errno login conf stat) i := by
  have hreceived : (received d errno login conf stat).ips = some ips := by
    simp [received, hips, hcarried.reread_eq]
  refine ⟨h.found, ?_, ips, hreceived, ?_⟩
  · have hflag :
        (received d errno login conf stat).alwaysOnline.getD (s.users.get i).alwaysOnline ≠ 0 →
          ips.onlyOneIP = true := by
      intro hne
      refine h.oneAddress ?_
      cases hc : conf.alwaysOnline with
      | none => simpa [received, hc] using hne
      | some v =>
        have hv : v ≠ 0 := by
          rintro rfl
          simp [received, hc] at hne
        have hz : v.toInt ≠ 0 := fun hz => hv (BitVec.toInt_inj.1 (by simpa using hz))
        simpa using hz
    by_contra hforbidden
    simp only [UserList.leadsToForbidden, hreceived, Option.getD_some, Bool.not_eq_false,
      Bool.and_eq_true, bne_iff_ne, Bool.not_eq_true'] at hforbidden
    obtain ⟨⟨-, hne⟩, hone⟩ := hforbidden
    rw [hflag hne] at hone
    cases hone
  · rw [List.any_eq_false]
    intro im him
    simpa [received] using h.free im him

/-- None of its changes is refused or passed over. -/
theorem Unrefused.verdict {env : Env} {s : UserList} {login : String} {conf : UserConfOpt}
    {ips : UserIPs} {i : Fin s.users.length} (h : Unrefused env s login conf ips i)
    (d : DoubleText) (errno : Xml.Event → Bool) (stat : UserStatOpt) :
    ∀ c ∈ (received d errno login conf stat).changes,
      c.verdict env Priv.full (s.users.get i).user.tariff = .set := by
  have hmay : ∀ c : Change, c.maySet Priv.full = true := fun c => Priv.maySet_full _ _ _
  intro c hc
  cases c with
  | tariffName t =>
    have ht : (if conf.nextTariff.isSome then none else conf.tariffName) = some t :=
      tariffName_of_mem_changes hc
    have hnext : conf.nextTariff = none := by
      cases hn : conf.nextTariff with
      | none => rfl
      | some n => simp [hn] at ht
    obtain ⟨old, new, hold, hnew, hallowed⟩ := h.tariff t hnext (by simpa [hnext] using ht)
    simp only [Change.verdict, hold, hnew, hallowed, hmay, if_true]
  | nextTariff t =>
    have hnext := h.nextTariff t (nextTariff_of_mem_changes hc)
    simp [Change.verdict, hnext, hmay]
  | _ => simp [Change.verdict, hmay]

section Request

variable {read : Xml.Text → Option (List Xml.Event)} (hread : Xml.Conforming read) (d : DoubleText)
  {env : Env} (errno : Xml.Event → Bool) {s : UserList} {i : Fin s.users.length} {login : String}
  {conf : UserConfOpt} (stat : UserStatOpt) (msg : List Char) {ips : UserIPs} (hips : conf.ips = some ips)
  (hcarried : Carried ips) (hplain : SrvConf.Plain login conf)
  (h : Unrefused env s login conf ips i)

include hread hips hcarried hplain h in
/-- The request is carried out: what becomes of the user is the outcome of the request that
arrives. -/
theorem Unrefused.serve_eq :
    ∃ s' : UserList,
      serve d read env Priv.full errno s (Xml.render (SrvConf.chgUser d login conf stat msg)) =
        some ⟨⟨0, received d errno login conf stat⟩, s', some true⟩ ∧
      s'.users.map UserRecord.properties = (s.users.map UserRecord.properties).set i
        ((received d errno login conf stat).outcome env (s.users.get i).user.tariff
          (s.users.get i).properties) := by
  have hverdict := h.verdict d errno stat
  have hmade : Change.made env Priv.full (s.users.get i).user.tariff
      (received d errno login conf stat).changes = (received d errno login conf stat).changes :=
    List.filter_eq_self.2 fun c hc => by simpa using hverdict c hc
  obtain ⟨s', hs', hproperties⟩ :=
    (h.passes hips hcarried d errno stat).applyChanges_of_accepted fun c hc => .inl (hverdict c hc)
  rw [hmade, updateAll_changes] at hproperties
  refine ⟨s', ?_, hproperties⟩
  rw [serve_chgUser hread d env Priv.full errno s hplain stat msg, hs']
  rfl

include hread hips hcarried hplain h in
/-- **What a request does.**  A request that gives the addresses, read by a parser that conforms and
carried out for an administrator who may do everything, succeeds if no check fails; it makes of the
user what `Applied` says and leaves the other users as they are.

**Proof sketch.** The server reads what the client has printed (`serve_chgUser`).  No change of the
request is refused, so all of them are made (`UserList.Passes.applyChanges_of_accepted`), and what
they do together is the outcome of the request (`updateAll_changes`). -/
theorem setUser_applied :
    ∃ (srv : Server) (q : UserProperties),
      serve d read env Priv.full errno s (Xml.render (SrvConf.chgUser d login conf stat msg)) =
        some srv ∧ srv.answer = some true ∧
      srv.users.users.map UserRecord.properties =
        (s.users.map UserRecord.properties).set i q ∧
      Applied env errno conf stat (s.users.get i).properties q := by
  obtain ⟨s', hserve, hproperties⟩ := h.serve_eq hread d errno stat msg hips hcarried hplain
  have hall : ∀ ips', conf.ips = some ips' → Carried ips' := by
    intro ips' hips'
    obtain rfl : ips = ips' := by simpa using hips.symm.trans hips'
    exact hcarried
  exact ⟨_, _, hserve, rfl, hproperties, applied_outcome d env errno _ login stat hall _⟩

end Request

namespace Sample

/-- Numbers with a point are not used. -/
def noDoubles : DoubleText where
  print := fun _ => ['0']
  scan := fun _ => some 0
  plain := fun _ => by decide
  reads := fun _ => rfl

/-- Two tariffs with the same prices, to both of which a user may change. -/
def env : Env :=
  { Stargazer.Sample.env 0 with
    tariffs := fun name =>
      if name = "gold" ∨ name = "silver" then some Stargazer.Sample.tariff else none }

/-- A note, one address, and some tariffs. -/
def conf (tariffName nextTariff : Option String) : UserConfOpt where
  text := fun p => if p = .note then some "a<b" else none
  alwaysOnline := some 1
  ips := some [⟨0x0100000A, 32⟩]
  tariffName := tariffName
  nextTariff := nextTariff
  bytes := by
    intro p t _ h
    split_ifs at h
    · obtain rfl : "a<b" = t := by simpa using h
      decide

theorem conf_carried : Carried [⟨0x0100000A, 32⟩] := .inr ⟨by decide, by decide⟩

/-- The checks that do not look at a tariff. -/
theorem conf_unrefused {tariffName nextTariff : Option String}
    (htariff : ∀ t, nextTariff = none → tariffName = some t → t = "gold")
    (hnext : ∀ t, nextTariff = some t → t = "silver") :
    Unrefused env Stargazer.Sample.userList "alice" (conf tariffName nextTariff)
      [⟨0x0100000A, 32⟩] ⟨0, Nat.one_pos⟩ where
  found := rfl
  oneAddress := fun _ => by decide
  free := by decide
  tariff := by
    intro t hn ht
    obtain rfl := htariff t hn ht
    exact ⟨Stargazer.Sample.tariff, Stargazer.Sample.tariff, rfl, rfl, rfl⟩
  nextTariff := by
    intro t ht
    obtain rfl := hnext t ht
    rfl

end Sample

/-- A change to one of the tariffs, with a note that is no text for XML and a flag. -/
theorem setUser_applied_gold :
    ∃ (srv : Server) (q : UserProperties),
      serve Sample.noDoubles Xml.scan Sample.env Priv.full (fun _ => false) Stargazer.Sample.userList
        (Xml.render (SrvConf.chgUser Sample.noDoubles "alice" (Sample.conf (some "gold") none)
          {} [])) = some srv ∧ srv.answer = some true ∧
      srv.users.users.map UserRecord.properties =
        (Stargazer.Sample.userList.users.map UserRecord.properties).set 0 q ∧
      Applied Sample.env (fun _ => false) (Sample.conf (some "gold") none) {}
        Stargazer.Sample.userList.users[0].properties q :=
  setUser_applied Xml.conforming_scan Sample.noDoubles (fun _ => false) {} [] rfl
    Sample.conf_carried (by decide)
    (Sample.conf_unrefused (fun t _ ht => by simpa using ht.symm) (by simp))

/-- A request that sets the tariff and the tariff that is to follow: both exist and no check fails,
but only the one that is to follow is sent. -/
theorem both_tariffs_disagree :
    Unrefused Sample.env Stargazer.Sample.userList "alice"
        (Sample.conf (some "gold") (some "silver")) [⟨0x0100000A, 32⟩] ⟨0, Nat.one_pos⟩ ∧
      SrvConf.Plain "alice" (Sample.conf (some "gold") (some "silver")) ∧
      (Sample.env.tariffs "gold").isSome = true ∧
      ¬ ∃ (srv : Server) (q : UserProperties),
        serve Sample.noDoubles Xml.scan Sample.env Priv.full (fun _ => false) Stargazer.Sample.userList
          (Xml.render (SrvConf.chgUser Sample.noDoubles "alice"
            (Sample.conf (some "gold") (some "silver")) {} [])) = some srv ∧
        srv.users.users.map UserRecord.properties =
          (Stargazer.Sample.userList.users.map UserRecord.properties).set 0 q ∧
        Agrees (Sample.conf (some "gold") (some "silver")) {}
          Stargazer.Sample.userList.users[0].properties q := by
  have hplain : SrvConf.Plain "alice" (Sample.conf (some "gold") (some "silver")) := by decide
  have h : Unrefused Sample.env Stargazer.Sample.userList "alice"
      (Sample.conf (some "gold") (some "silver")) [⟨0x0100000A, 32⟩] ⟨0, Nat.one_pos⟩ :=
    Sample.conf_unrefused (fun t hn _ => by cases hn) (fun t ht => by simpa using ht.symm)
  refine ⟨h, hplain, rfl, ?_⟩
  rintro ⟨srv, q, hserve, hproperties, hagrees⟩
  obtain ⟨s', hserve', hproperties'⟩ := h.serve_eq Xml.conforming_scan Sample.noDoubles
    (fun _ => false) {} [] rfl Sample.conf_carried hplain
  obtain rfl : srv = _ := Option.some.inj (hserve.symm.trans hserve')
  have hq := hproperties.symm.trans hproperties'
  have htariff : q.tariffName = "sample" := by
    have hhead : some q.tariffName = some "sample" :=
      congrArg (fun l => (l.map UserProperties.tariffName).head?) hq
    exact Option.some.inj hhead
  rw [hagrees.tariffName] at htariff
  exact absurd htariff (by decide)

end SetUser

end Stargazer
