import Stargazer.Numbers
import Stargazer.SrvConf.ChgUser
import Stargazer.SrvConf.Container

set_option relaxedAutoImplicit false
set_option autoImplicit false

/-!
# Lists of users

`GetUser::Parser` of `libs/srvconf/parsers/get_user.cpp`, with the parsers of single parameters of
`property.h`: the client's reading of an answer `GetUsers`.  One parser with one `Info` reads all the
users of the list, and nothing is cleared between two of them.

Two things outlive a user, then: the `Info`, and `errno`, for `str2x` looks at `errno` and does not
clear it before.

## Main definitions

* `Stargazer.GetUser.Info` — what a client learns about a user, field by field.
* `Stargazer.GetUser.Parsed` — what one parameter does.
* `Stargazer.GetUser.parser` — the parser of one user, for `Stargazer.Container`.
* `Stargazer.GetUser.infos` — what is delivered for a list of users.

## Main results

* `Stargazer.GetUser.run_user` — one user of the list.
* `Stargazer.GetUser.unmixed_iff` — when the users of a list do not mix.
-/

namespace Stargazer

namespace GetUser

/-! ## What a client learns about a user -/

/-- The fields of `GetUser::Info` but for the two lists and `lastTimeCash`, which is never set. -/
inductive Slot
  | login | password | cash | credit | creditExpire | lastCashAdd | lastCashAddTime | prepaidTraff
  | disabled | passive | disableDetailStat | connected | alwaysOnline | ip | ips | tariff | group
  | note | email | name | address | phone | corp
  | su (i : Dir) | sd (i : Dir) | mu (i : Dir) | md (i : Dir)
  | pingTime | lastActivityTime
  | userData (i : Fin 10)
  deriving DecidableEq

/-- A value of a field. -/
inductive Value
  | text (s : List Char)
  | number (z : ℤ)
  | double (x : Money)
  | addr (ip : IP)
  deriving DecidableEq

/-- `GetUser::Info`. -/
structure Info where
  slot : Slot → Value
  services : List (List Char) := []
  authBy : List (List Char) := []

/-- Fields that are set one after another. -/
def Info.write (i : Info) (ws : List (Slot × Value)) : Info :=
  { i with slot := ws.foldl (fun f w => Function.update f w.1 w.2) i.slot }

/-! ## One parameter -/

/-- What a parameter does: the fields it sets, whether it is wrong in itself, whether it is also
taken for wrong if `errno` is `ERANGE` afterwards, and what it makes of that. -/
structure Parsed where
  writes : List (Slot × Value) := []
  fails : Bool := false
  looks : Bool := false
  errno : Option Bool := none

/-- Is the parameter accepted, if `errno` was `ERANGE` or not before it? -/
def Parsed.ok (r : Parsed) (erange : Bool) : Bool := !r.fails && !(r.looks && r.errno.getD erange)

/-- The functions of the C library that are not modelled here: `strtodouble2` gives the number,
whether the whole text is one, and whether it sets `errno` to `ERANGE`; `IconvString` gives the text
and what it makes of `errno`. -/
structure Library where
  strtodouble2 : List Char → Money × Bool × Bool
  iconv : String → List Char → List Char × Option Bool

/-- `checkValue`: the value of the first attribute, if that is called `value`. -/
def checkValue : List Xml.Attr → Option Xml.Text
  | a :: _ => if caseEq a.name "value" then some a.value else none
  | [] => none

/-- A byte of an address, as `inet_pton` takes it. -/
def scanByte (s : List Char) : Option ℕ :=
  if s ≠ [] ∧ s.length ≤ 3 ∧ s.all Char.isDigit ∧ (s.head? = some '0' → s.length = 1) ∧
      Nat.ofDigitChars 10 s 0 < 256 then some (Nat.ofDigitChars 10 s 0)
  else none

/-- `inet_strington`. -/
def inetStrington (s : List Char) : IP :=
  match (CString.cut s).splitOn '.' with
  | [a, b, c, d] =>
    match scanByte a, scanByte b, scanByte c, scanByte d with
    | some a, some b, some c, some d => BitVec.ofNat 32 (a + 256 * (b + 256 * (c + 256 * d)))
    | _, _, _, _ => 0
  | _ => 0

/-- The ways of reading a parameter. -/
inductive Kind
  /-- `getValue<int>`. -/
  | int
  /-- `getValue<time_t>`. -/
  | time
  /-- `getValue<double>`. -/
  | double
  /-- `getIPValue`. -/
  | ip
  /-- `getValue<std::string>`. -/
  | text
  /-- `getEncodedValue` and the conversion from an encoding. -/
  | encoded (charset : String)

/-- Does `str2x` set `errno` to `ERANGE`? -/
def isRange (v : List Char) : Bool := strtolErrno 0 v = erange

/-- A parameter of a kind.  A number without a value is passed over, a text is not. -/
def parseKind (lib : Library) (slot : Slot) (attr : List Xml.Attr) : Kind → Parsed
  | .int =>
    match checkValue attr with
    | none => {}
    | some v =>
      { writes := [(slot, .number (BitVec.ofInt 32 (CString.strtol v).1).toInt)]
        looks := true
        errno := if isRange v then some true else none }
  | .time =>
    match checkValue attr with
    | none => {}
    | some v =>
      { writes := [(slot, .number (CString.strtol v).1)]
        looks := true
        errno := if isRange v then some true else none }
  | .double =>
    match checkValue attr with
    | none => {}
    | some v =>
      { writes := [(slot, .double (lib.strtodouble2 v).1)]
        fails := !(lib.strtodouble2 v).2.1
        errno := if (lib.strtodouble2 v).2.2 then some true else none }
  | .ip =>
    match checkValue attr with
    | none => { fails := true }
    | some v =>
      { writes := [(slot, .addr (inetStrington v))]
        fails := inetStrington v = 0 && v ≠ "0.0.0.0".toList }
  | .text =>
    match checkValue attr with
    | none => { fails := true }
    | some v => { writes := [(slot, .text v)] }
  | .encoded charset =>
    match checkValue attr with
    | none => { fails := true }
    | some v =>
      { writes := [(slot, .text (lib.iconv charset (decode21 v)).1)]
        errno := (lib.iconv charset (decode21 v)).2 }

/-- `propertyParsers`, but for the counters. -/
def properties : List (String × Slot × Kind) :=
  let fields : List (String × Slot × Kind) :=
    [("login", .login, .text), ("password", .password, .text), ("cash", .cash, .double),
      ("credit", .credit, .double), ("creditExpire", .creditExpire, .time),
      ("lastCash", .lastCashAdd, .double), ("lastTimeCash", .lastCashAddTime, .double),
      ("freeMb", .prepaidTraff, .double), ("down", .disabled, .int), ("passive", .passive, .int),
      ("disableDetailStat", .disableDetailStat, .int), ("status", .connected, .int),
      ("aonline", .alwaysOnline, .int), ("currIP", .ip, .ip), ("ip", .ips, .text),
      ("tariff", .tariff, .text), ("group", .group, .encoded "koi8-ru"),
      ("note", .note, .encoded "koi8-ru"), ("email", .email, .encoded "koi8-ru"),
      ("name", .name, .encoded "koi8-ru"), ("address", .address, .encoded "koi8-ru"),
      ("phone", .phone, .encoded "cp1251"), ("corp", .corp, .text), ("pingTime", .pingTime, .time),
      ("lastActivityTime", .lastActivityTime, .time)]
  let userData : List (String × Slot × Kind) :=
    (List.finRange 10).map fun i =>
      ("userData" ++ toString i.val, .userData i, .encoded "koi8-ru")
  fields ++ userData

/-- The names of the counters. -/
def counters : List (String × Slot) :=
  (List.finRange 10).flatMap fun i =>
    [("su" ++ toString i.val, .su i), ("sd" ++ toString i.val, .sd i),
      ("mu" ++ toString i.val, .mu i), ("md" ++ toString i.val, .md i)]

/-- `getValue<GetUser::Stat>`, on the names and values of the attributes in a row.  Behind a name
that is not known its value is taken for a name.  There is no result where a null pointer is
followed. -/
def parseStat : List Xml.Text → Option Parsed
  | [] => some {}
  | n :: rest =>
    match counters.find? fun c => caseEq n c.1, rest with
    | none, rest => parseStat rest
    | some _, [] => none
    | some c, v :: rest =>
      let ws := (str2xStored 64 v).1.toList.map fun x => (c.2, Value.number x.toInt)
      if (str2xStored 64 v).2 then
        (parseStat rest).map fun r => { r with writes := ws ++ r.writes }
      else some { writes := ws, fails := true }

/-- `tryParse`. -/
def tryParse (lib : Library) (el : Xml.Text) (attr : List Xml.Attr) : Option Parsed :=
  if caseEq el "traff" then parseStat (attr.flatMap fun a => [a.name, a.value])
  else
    match properties.find? fun q => caseEq el q.1 with
    | none => some {}
    | some (_, slot, kind) => some (parseKind lib slot attr kind)

/-! ## The parser -/

/-- `GetUser::Parser`, and whether `errno` is `ERANGE`. -/
structure State where
  info : Info
  depth : ℕ := 0
  parsingAnswer : Bool := false
  error : Xml.Text := []
  erange : Bool

/-- What a parameter does to the parser, apart from an error. -/
def State.apply (st : State) (r : Parsed) : State :=
  { st with info := st.info.write r.writes, erange := r.errno.getD st.erange }

/-- `tryParse` on the parser, and its result. -/
def State.tryParse (lib : Library) (st : State) (el : Xml.Text) (attr : List Xml.Attr) :
    Option (Bool × State) :=
  (GetUser.tryParse lib el attr).map fun r => (r.ok st.erange, st.apply r)

/-- `ParseUser`. -/
def State.parseUser (st : State) (el : Xml.Text) (attr : List Xml.Attr) : State :=
  if caseEq el "user" then
    match attr with
    | [] => { st with parsingAnswer := true }
    | a :: rest =>
      if caseEq a.value "error" then
        { st with
          error := rest.head?.elim "User not found.".toList Xml.Attr.value
          parsingAnswer := true }
      else if caseEq a.name "login" then
        { st with info := st.info.write [(.login, .text a.value)], parsingAnswer := true }
      else { st with parsingAnswer := true }
  else st

/-- The error of `ParseUserParams`. -/
def invalidParameter : Xml.Text := "Invalid parameter.".toList

/-- `ParseUserParams`: most parameters are parsed twice. -/
def State.parseUserParams (lib : Library) (st : State) (el : Xml.Text) (attr : List Xml.Attr) :
    Option State :=
  match if caseEq el "AuthorizedBy" then some (true, st) else st.tryParse lib el attr with
  | none => none
  | some (false, st) => some { st with error := invalidParameter }
  | some (true, st) =>
    match if caseEq el "Services" then some (true, st) else st.tryParse lib el attr with
    | none => none
    | some (false, st) => some { st with error := invalidParameter }
    | some (true, st) => some st

/-- The name in an element of a list. -/
def nameOf (tag : String) (el : Xml.Text) : List Xml.Attr → Option Xml.Text
  | a :: _ => if caseEq el tag ∧ caseEq a.name "name" then some a.value else none
  | [] => none

/-- `ParseAuthBy` and `ParseServices`. -/
def State.parseLists (st : State) (el : Xml.Text) (attr : List Xml.Attr) : State :=
  { st with
    info :=
      { st.info with
        authBy := st.info.authBy ++ (nameOf "Auth" el attr).toList
        services := st.info.services ++ (nameOf "Service" el attr).toList } }

/-- `ParseStart`. -/
def State.parseStart (lib : Library) (st : State) (el : Xml.Text) (attr : List Xml.Attr) :
    Option State :=
  let st := { st with depth := st.depth + 1 }
  if st.depth = 1 then some (st.parseUser el attr)
  else if st.depth = 2 ∧ st.parsingAnswer then st.parseUserParams lib el attr
  else if st.depth = 3 ∧ st.parsingAnswer then some (st.parseLists el attr)
  else some st

/-- `ParseEnd`. -/
def State.parseEnd (st : State) : State × Option (ElementCallback Info) :=
  let st := { st with depth := st.depth - 1 }
  if st.depth = 0 ∧ st.parsingAnswer then
    ({ st with error := [], parsingAnswer := false }, some ⟨st.error, st.info⟩)
  else (st, none)

/-- The parser of the users of a list. -/
def parser (lib : Library) : ElementParser State Info where
  start := State.parseStart lib
  finish := fun st _ => st.parseEnd

/-! ## Answers -/

/-- A parameter of a user, with what stands inside of it. -/
structure Param where
  name : Xml.Text
  attrs : List Xml.Attr := []
  inner : List (Xml.Text × List Xml.Attr) := []

/-- A user of an answer. -/
structure UserElem where
  attrs : List Xml.Attr := []
  params : List Param := []

def Param.tags (q : Param) : List Xml.Tag :=
  .start q.name q.attrs :: (q.inner.map (fun e => .empty e.1 e.2) ++ [.close q.name])

def UserElem.tags (e : UserElem) : List Xml.Tag :=
  .start "User".toList e.attrs :: (e.params.flatMap Param.tags ++ [.close "User".toList])

/-- An answer `GetUsers`. -/
def answerTags (es : List UserElem) : List Xml.Tag :=
  .start "Users".toList [] :: (es.flatMap UserElem.tags ++ [.close "Users".toList])

/-- What a new container delivers for an answer; `init` are the values of the fields of a new `Info`,
most of which are not initialised.  There is nothing where a null pointer is followed. -/
def infos (lib : Library) (init : Slot → Value) (erange : Bool) (es : List UserElem) :
    Option (List Info) :=
  ((Xml.events (answerTags es)).foldlM (Container.handle (parser lib) "users")
    { element := { info := { slot := init }, erange := erange } }).bind fun c =>
      c.answer.map ElementCallback.info

/-! ## One user of a list -/

theorem write_append (i : Info) (ws ws' : List (Slot × Value)) :
    i.write (ws ++ ws') = (i.write ws).write ws' := by
  simp [Info.write, List.foldl_append]

/-- The last value of a field. -/
def lastWrite (s : Slot) (ws : List (Slot × Value)) : Option Value :=
  (ws.reverse.find? fun w => w.1 = s).map Prod.snd

theorem slot_write (i : Info) (ws : List (Slot × Value)) (s : Slot) :
    (i.write ws).slot s = (lastWrite s ws).getD (i.slot s) := by
  induction ws using List.reverseRecOn with
  | nil => rfl
  | append_singleton ws w ih =>
    rw [write_append]
    by_cases hw : w.1 = s
    · subst hw
      simp [Info.write, lastWrite]
    · have hne : s ≠ w.1 := fun h => hw h.symm
      have hlast : lastWrite s (ws ++ [w]) = lastWrite s ws := by simp [lastWrite, hw]
      rw [hlast, ← ih]
      simp [Info.write, Function.update_of_ne hne]

/-- Setting the same fields twice. -/
theorem write_write (i : Info) (ws : List (Slot × Value)) : (i.write ws).write ws = i.write ws := by
  have hslot : ((i.write ws).write ws).slot = (i.write ws).slot := by
    funext s
    rw [slot_write, slot_write]
    cases lastWrite s ws <;> rfl
  simp only [Info.write] at hslot ⊢
  rw [hslot]

theorem tryParse_of_unknown (lib : Library) {el : Xml.Text} {name : String}
    (hel : caseEq el name = true) (htraff : caseEq name.toList "traff" = false)
    (hname : ∀ q ∈ properties, caseEq name.toList q.1 = false) (attr : List Xml.Attr) :
    tryParse lib el attr = some {} := by
  have hcase : ∀ t, caseEq el t = caseEq name.toList t := by
    intro t
    have h : CString.foldCase el = CString.foldCase name.toList := of_decide_eq_true hel
    simp [caseEq, h]
  have hfind : properties.find? (fun q => caseEq el q.1) = none := by
    rw [List.find?_eq_none]
    intro q hq
    simp [hcase, hname q hq]
  simp [tryParse, (hcase "traff").trans htraff, hfind]

/-- **A parameter**: that it is parsed twice makes no difference. -/
theorem parseUserParams_eq (lib : Library) (st : State) (el : Xml.Text) (attr : List Xml.Attr) :
    st.parseUserParams lib el attr = (tryParse lib el attr).map fun r =>
      { st.apply r with error := if r.ok st.erange then st.error else invalidParameter } := by
  have hspecial : (∀ q ∈ properties, caseEq "AuthorizedBy".toList q.1 = false) ∧
      ∀ q ∈ properties, caseEq "Services".toList q.1 = false := by decide +kernel
  have hnothing : st.apply {} = st := rfl
  by_cases hauth : caseEq el "AuthorizedBy" = true
  · have hparse := tryParse_of_unknown lib hauth (by decide) hspecial.1 attr
    by_cases hservices : caseEq el "Services" = true <;>
      simp [State.parseUserParams, State.tryParse, hauth, hservices, hparse, hnothing, Parsed.ok]
  · by_cases hservices : caseEq el "Services" = true
    · have hparse := tryParse_of_unknown lib hservices (by decide) hspecial.2 attr
      simp [State.parseUserParams, State.tryParse, hauth, hservices, hparse, hnothing, Parsed.ok]
    · cases hparse : tryParse lib el attr with
      | none => simp [State.parseUserParams, State.tryParse, hauth, hparse]
      | some r =>
        have htwice : (st.apply r).apply r = st.apply r := by
          simp only [State.apply, write_write]
          cases r.errno <;> rfl
        have hok : r.ok (st.apply r).erange = r.ok st.erange := by
          simp only [Parsed.ok, State.apply]
          cases r.errno <;> rfl
        cases hr : r.ok st.erange with
        | false => simp [State.parseUserParams, State.tryParse, hauth, hparse, hr]
        | true =>
          simp only [State.parseUserParams, State.tryParse, hauth, hservices, hparse, hr, htwice,
            hok, Option.map_some, if_false, if_true, Bool.false_eq_true]
          rfl

/-- What a parameter does. -/
def Param.parsed (lib : Library) (q : Param) : Option Parsed := tryParse lib q.name q.attrs

/-- The authorizers a parameter lists. -/
def Param.authBy (q : Param) : List Xml.Text := q.inner.filterMap fun e => nameOf "Auth" e.1 e.2

/-- The services a parameter lists. -/
def Param.services (q : Param) : List Xml.Text := q.inner.filterMap fun e => nameOf "Service" e.1 e.2

/-- The error and `errno` after some parameters. -/
def judge (s : Xml.Text × Bool) (rs : List Parsed) : Xml.Text × Bool :=
  rs.foldl (fun s r => (if r.ok s.2 then s.1 else invalidParameter, r.errno.getD s.2)) s

/-- The parser after some parameters. -/
def State.after (st : State) (qs : List Param) (rs : List Parsed) : State :=
  { st with
    info :=
      { slot := (st.info.write (rs.flatMap Parsed.writes)).slot
        services := st.info.services ++ qs.flatMap Param.services
        authBy := st.info.authBy ++ qs.flatMap Param.authBy }
    error := (judge (st.error, st.erange) rs).1
    erange := (judge (st.error, st.erange) rs).2 }

/-- What stands inside of a parameter. -/
theorem run_inner (lib : Library) (inner : List (Xml.Text × List Xml.Attr)) {st : State}
    (hdepth : st.depth = 2) (hparsing : st.parsingAnswer = true) (cbs : List (ElementCallback Info)) :
    (parser lib).run (st, cbs) (Xml.events (inner.map fun e => .empty e.1 e.2)) =
      some ({ st with
        info :=
          { st.info with
            services := st.info.services ++ inner.filterMap fun e => nameOf "Service" e.1 e.2
            authBy := st.info.authBy ++ inner.filterMap fun e => nameOf "Auth" e.1 e.2 } }, cbs) := by
  induction inner generalizing st with
  | nil => simp [Xml.events, ElementParser.run]
  | cons e inner ih =>
    have hstart : st.parseStart lib e.1 e.2 = some ({ st with depth := 3 }.parseLists e.1 e.2) := by
      simp [State.parseStart, hdepth, hparsing]
    have hevents : Xml.events ((e :: inner).map fun e => .empty e.1 e.2) =
        .start e.1 e.2 :: .finish e.1 :: Xml.events (inner.map fun e => .empty e.1 e.2) := rfl
    have hfinish : ({ st with depth := 3 }.parseLists e.1 e.2).parseEnd =
        ({ st with depth := 2 }.parseLists e.1 e.2, none) := by
      simp [State.parseEnd, State.parseLists]
    rw [hevents, ElementParser.run_cons]
    simp only [ElementParser.step, parser, hstart, Option.map_some, Option.bind_some]
    rw [ElementParser.run_cons]
    simp only [ElementParser.step, hfinish, Option.bind_some, Option.toList_none, List.append_nil]
    have hrest := @ih ({ st with depth := 2 }.parseLists e.1 e.2) rfl hparsing
    rw [parser] at hrest
    rw [hrest]
    cases hauth : nameOf "Auth" e.1 e.2 <;> cases hservice : nameOf "Service" e.1 e.2 <;>
      simp [State.parseLists, hauth, hservice, hdepth]

theorem after_cons (st : State) (q : Param) (qs : List Param) (r : Parsed) (rs : List Parsed) :
    (st.after [q] [r]).after qs rs = st.after (q :: qs) (r :: rs) := by
  simp [State.after, judge, Info.write, List.foldl_append]

/-- One parameter of a user. -/
theorem run_param (lib : Library) (q : Param) {r : Parsed} (hq : q.parsed lib = some r) {st : State}
    (hdepth : st.depth = 1) (hparsing : st.parsingAnswer = true) (cbs : List (ElementCallback Info)) :
    (parser lib).run (st, cbs) (Xml.events q.tags) = some (st.after [q] [r], cbs) := by
  have hstart : st.parseStart lib q.name q.attrs =
      some { { st with depth := 2 }.apply r with
        error := if r.ok st.erange then st.error else invalidParameter } := by
    simp only [Param.parsed] at hq
    simp [State.parseStart, hdepth, hparsing, parseUserParams_eq, hq]
  rw [Param.tags, Xml.events_element, ElementParser.run_cons]
  simp only [ElementParser.step, parser, hstart, Option.map_some, Option.bind_some]
  rw [ElementParser.run_append]
  have hinner := @run_inner lib q.inner { { st with depth := 2 }.apply r with
    error := if r.ok st.erange then st.error else invalidParameter } rfl hparsing cbs
  rw [parser] at hinner
  rw [hinner, Option.bind_some, ElementParser.run_cons]
  simp [ElementParser.step, ElementParser.run, State.parseEnd, State.after, State.apply, judge,
    Info.write, Param.authBy, Param.services, hdepth]

/-- **The parameters of a user.** -/
theorem run_params (lib : Library) (qs : List Param) {st : State} (hdepth : st.depth = 1)
    (hparsing : st.parsingAnswer = true) (cbs : List (ElementCallback Info)) :
    (parser lib).run (st, cbs) (Xml.events (qs.flatMap Param.tags)) =
      (qs.mapM (Param.parsed lib)).map fun rs => (st.after qs rs, cbs) := by
  induction qs generalizing st with
  | nil => simp [Xml.events, ElementParser.run, State.after, judge, Info.write]
  | cons q qs ih =>
    have hevents : Xml.events ((q :: qs).flatMap Param.tags) =
        Xml.events q.tags ++ Xml.events (qs.flatMap Param.tags) := by
      simp [Xml.events]
    rw [hevents, ElementParser.run_append, List.mapM_cons]
    cases hq : q.parsed lib with
    | none =>
      have hstart : st.parseStart lib q.name q.attrs = none := by
        simp only [Param.parsed] at hq
        simp [State.parseStart, hdepth, hparsing, parseUserParams_eq, hq]
      rw [Param.tags, Xml.events_element, ElementParser.run_cons]
      simp [ElementParser.step, parser, hstart]
    | some r =>
      rw [run_param lib q hq hdepth hparsing, Option.bind_some,
        @ih (st.after [q] [r]) hdepth hparsing]
      cases qs.mapM (Param.parsed lib) with
      | none => rfl
      | some rs => simp [after_cons]

/-! ## The users of a list -/

/-- What the attributes of a user do: an error, or the login. -/
def UserElem.opening (e : UserElem) : Xml.Text × List (Slot × Value) :=
  match e.attrs with
  | [] => ([], [])
  | a :: rest =>
    if caseEq a.value "error" then
      (rest.head?.elim "User not found.".toList Xml.Attr.value, [])
    else if caseEq a.name "login" then ([], [(.login, .text a.value)])
    else ([], [])

/-- What the parameters of a user do. -/
def UserElem.parsed (lib : Library) (e : UserElem) : Option (List Parsed) :=
  e.params.mapM (Param.parsed lib)

/-- The fields a user sets. -/
def UserElem.writes (lib : Library) (e : UserElem) : List (Slot × Value) :=
  e.opening.2 ++ ((e.parsed lib).getD []).flatMap Parsed.writes

/-- The error and `errno` at the end of a user. -/
def UserElem.verdict (lib : Library) (erange : Bool) (e : UserElem) : Xml.Text × Bool :=
  judge (e.opening.1, erange) ((e.parsed lib).getD [])

/-- The authorizers of a user. -/
def UserElem.authBy (e : UserElem) : List Xml.Text := e.params.flatMap Param.authBy

/-- The services of a user. -/
def UserElem.services (e : UserElem) : List Xml.Text := e.params.flatMap Param.services

/-- The information at the end of a user, on top of what was there before. -/
def UserElem.info (lib : Library) (info : Info) (e : UserElem) : Info :=
  { slot := (info.write (e.writes lib)).slot
    services := info.services ++ e.services
    authBy := info.authBy ++ e.authBy }

/-- **One user of a list**: the parser calls back with what it has gathered, and only what it has
gathered and `errno` are left. -/
theorem run_user (lib : Library) (e : UserElem) (info : Info) (erange : Bool)
    (cbs : List (ElementCallback Info)) :
    (parser lib).run ({ info := info, erange := erange }, cbs) (Xml.events e.tags) =
      (e.parsed lib).map fun _ => ({ info := e.info lib info, erange := (e.verdict lib erange).2 },
        cbs ++ [⟨(e.verdict lib erange).1, e.info lib info⟩]) := by
  have huser : caseEq "User".toList "user" = true := by decide
  have hstart : ({ info := info, erange := erange } : State).parseStart lib "User".toList e.attrs =
      some ⟨info.write e.opening.2, 1, true, e.opening.1, erange⟩ := by
    simp only [State.parseStart, State.parseUser, huser, UserElem.opening]
    cases e.attrs with
    | nil => rfl
    | cons a rest =>
      by_cases herror : caseEq a.value "error" = true
      · simp [herror, Info.write]
      · by_cases hlogin : caseEq a.name "login" = true
        · simp [herror, hlogin]
        · simp [herror, hlogin, Info.write]
  rw [UserElem.tags, Xml.events_element, ElementParser.run_cons]
  simp only [ElementParser.step, parser, hstart, Option.map_some, Option.bind_some]
  rw [ElementParser.run_append]
  have hparams := @run_params lib e.params
    ⟨info.write e.opening.2, 1, true, e.opening.1, erange⟩ rfl rfl cbs
  rw [parser] at hparams
  rw [hparams]
  cases hrs : e.params.mapM (Param.parsed lib) with
  | none => simp [UserElem.parsed, hrs]
  | some rs =>
    rw [Option.map_some, Option.bind_some, ElementParser.run_cons]
    simp [ElementParser.step, ElementParser.run, State.parseEnd, State.after, UserElem.info,
      UserElem.verdict, UserElem.writes, UserElem.parsed, UserElem.authBy, UserElem.services, hrs,
      Info.write]

/-- Some users, one after another: what is left, and what is called back. -/
def readAll (lib : Library) : Info × Bool → List UserElem →
    Option ((Info × Bool) × List (ElementCallback Info))
  | left, [] => some (left, [])
  | left, e :: es =>
    match e.parsed lib with
    | none => none
    | some _ =>
      (readAll lib (e.info lib left.1, (e.verdict lib left.2).2) es).map fun r =>
        (r.1, ⟨(e.verdict lib left.2).1, e.info lib left.1⟩ :: r.2)

theorem run_users (lib : Library) (es : List UserElem) (left : Info × Bool)
    (cbs : List (ElementCallback Info)) :
    (parser lib).run ({ info := left.1, erange := left.2 }, cbs)
        (Xml.events (es.flatMap UserElem.tags)) =
      (readAll lib left es).map fun r =>
        ({ info := r.1.1, erange := r.1.2 }, cbs ++ r.2) := by
  induction es generalizing left cbs with
  | nil => simp [readAll, Xml.events, ElementParser.run]
  | cons e es ih =>
    have hevents : Xml.events ((e :: es).flatMap UserElem.tags) =
        Xml.events e.tags ++ Xml.events (es.flatMap UserElem.tags) := by
      simp [Xml.events]
    rw [hevents, ElementParser.run_append, readAll]
    rw [run_user]
    cases e.parsed lib with
    | none => rfl
    | some rs =>
      rw [Option.map_some, Option.bind_some,
        ih (e.info lib left.1, (e.verdict lib left.2).2), Option.map_map]
      congr 1
      funext r
      simp

theorem balanced_tags (es : List UserElem) :
    Xml.balanced [] (es.flatMap UserElem.tags) = true := by
  refine Xml.balanced_flatMap fun e _ => Xml.balanced_element _ _ ?_
  refine Xml.balanced_flatMap fun q _ => Xml.balanced_element _ _ ?_
  rw [List.map_eq_flatMap]
  exact Xml.balanced_flatMap fun _ _ => rfl

/-- **What is delivered for a list of users.** -/
theorem infos_eq (lib : Library) (init : Slot → Value) (erange : Bool) (es : List UserElem) :
    infos lib init erange es =
      (readAll lib ({ slot := init }, erange) es).map fun r => Container.delivered r.2 := by
  have hroot : caseEq "Users".toList "users" = true := by decide
  rw [infos, answerTags, Container.foldlM_handle _ _ hroot _ (balanced_tags es)]
  have hrun := run_users lib es ({ slot := init }, erange) []
  rw [hrun]
  cases readAll lib ({ slot := init }, erange) es <;> rfl

/-! ## When the users of a list do not mix -/

/-- `errno` after some users. -/
def errnoAfter (lib : Library) (erange : Bool) (es : List UserElem) : Bool :=
  es.foldl (fun b e => (e.verdict lib b).2) erange

/-- What is left after some users. -/
def leftAfter (lib : Library) (left : Info × Bool) (es : List UserElem) : Info × Bool :=
  ({ slot := (left.1.write (es.flatMap (UserElem.writes lib))).slot
     services := left.1.services ++ es.flatMap UserElem.services
     authBy := left.1.authBy ++ es.flatMap UserElem.authBy }, errnoAfter lib left.2 es)

theorem readAll_append (lib : Library) (left : Info × Bool) (es es' : List UserElem) :
    readAll lib left (es ++ es') = (readAll lib left es).bind fun r =>
      (readAll lib r.1 es').map fun r' => (r'.1, r.2 ++ r'.2) := by
  induction es generalizing left with
  | nil => simp [readAll]
  | cons e es ih =>
    rw [List.cons_append, readAll, readAll]
    cases e.parsed lib with
    | none => rfl
    | some rs =>
      simp only [ih]
      cases readAll lib (e.info lib left.1, (e.verdict lib left.2).2) es with
      | none => rfl
      | some r => simp [Function.comp_def]

/-- Users that can be parsed leave behind what `leftAfter` says. -/
theorem readAll_eq_some (lib : Library) (left : Info × Bool) {es : List UserElem}
    (h : ∀ e ∈ es, (e.parsed lib).isSome = true) :
    ∃ cbs, readAll lib left es = some (leftAfter lib left es, cbs) := by
  induction es generalizing left with
  | nil => exact ⟨[], by simp [readAll, leftAfter, errnoAfter, Info.write]⟩
  | cons e es ih =>
    obtain ⟨rs, hrs⟩ := Option.isSome_iff_exists.1 (h e List.mem_cons_self)
    obtain ⟨cbs, hcbs⟩ := ih (e.info lib left.1, (e.verdict lib left.2).2)
      fun x hx => h x (List.mem_cons_of_mem e hx)
    refine ⟨⟨(e.verdict lib left.2).1, e.info lib left.1⟩ :: cbs, ?_⟩
    simp only [readAll, hrs, hcbs, Option.map_some]
    simp [leftAfter, errnoAfter, UserElem.info, Info.write, List.foldl_append]

/-- Otherwise a null pointer is followed. -/
theorem readAll_eq_none (lib : Library) (left : Info × Bool) {es : List UserElem} {e : UserElem}
    (he : e ∈ es) (h : e.parsed lib = none) : readAll lib left es = none := by
  induction es generalizing left with
  | nil => cases he
  | cons x es ih =>
    rw [readAll]
    cases hx : x.parsed lib with
    | none => rfl
    | some rs =>
      rcases List.mem_cons.1 he with rfl | he
      · rw [h] at hx
        cases hx
      · rw [ih _ he]
        rfl

/-- **The users of a list do not mix**: what each of them adds to what is delivered is what is
delivered for an answer with that user alone. -/
def Unmixed (lib : Library) (init : Slot → Value) (erange : Bool) (es : List UserElem) : Prop :=
  ∀ pre e post, es = pre ++ e :: post →
    infos lib init erange (pre ++ [e]) = (infos lib init erange pre).bind fun before =>
      (infos lib init erange [e]).map (before ++ ·)

/-- The users before a user do not disturb it: `errno` does not turn it into an error or back, and if
it is delivered, each field it does not set has not been set to anything else than what is in a new
`Info`, and no authorizer and no service has been listed. -/
structure Undisturbed (lib : Library) (init : Slot → Value) (erange : Bool) (pre : List UserElem)
    (e : UserElem) : Prop where
  error : (e.verdict lib (errnoAfter lib erange pre)).1 = [] ↔ (e.verdict lib erange).1 = []
  slot : (e.verdict lib erange).1 = [] → ∀ s, lastWrite s (e.writes lib) = none →
    ∀ v, lastWrite s (pre.flatMap (UserElem.writes lib)) = some v → v = init s
  authBy : (e.verdict lib erange).1 = [] → pre.flatMap UserElem.authBy = []
  services : (e.verdict lib erange).1 = [] → pre.flatMap UserElem.services = []

/-- The information of a user does not depend on what was there before. -/
theorem info_eq_iff (lib : Library) (init : Slot → Value) (erange : Bool) (pre : List UserElem)
    (e : UserElem) :
    e.info lib (leftAfter lib ({ slot := init }, erange) pre).1 = e.info lib { slot := init } ↔
      (∀ s, lastWrite s (e.writes lib) = none →
        ∀ v, lastWrite s (pre.flatMap (UserElem.writes lib)) = some v → v = init s) ∧
      pre.flatMap UserElem.authBy = [] ∧ pre.flatMap UserElem.services = [] := by
  have hslot : (∀ s, lastWrite s (e.writes lib) = none →
        ∀ v, lastWrite s (pre.flatMap (UserElem.writes lib)) = some v → v = init s) ↔
      (e.info lib (leftAfter lib ({ slot := init }, erange) pre).1).slot =
        (e.info lib { slot := init }).slot := by
    rw [funext_iff]
    refine forall_congr' fun s => ?_
    simp only [UserElem.info, leftAfter, slot_write]
    cases lastWrite s (e.writes lib) with
    | some v => simp
    | none => cases lastWrite s (pre.flatMap (UserElem.writes lib)) <;> simp
  rw [hslot]
  constructor
  · intro h
    have hauth := congrArg Info.authBy h
    have hservices := congrArg Info.services h
    exact ⟨congrArg Info.slot h, by simpa [UserElem.info, leftAfter] using hauth,
      by simpa [UserElem.info, leftAfter] using hservices⟩
  · rintro ⟨hs, hauth, hservices⟩
    simp only [UserElem.info, leftAfter, hauth, hservices, List.append_nil] at hs ⊢
    rw [hs]

/-- What a user adds to what is delivered, and what is delivered for the user alone. -/
theorem infos_concat_eq_iff (lib : Library) (init : Slot → Value) (erange : Bool)
    {pre : List UserElem} {e : UserElem}
    (h : ∀ x ∈ pre ++ [e], (x.parsed lib).isSome = true) :
    infos lib init erange (pre ++ [e]) = (infos lib init erange pre).bind (fun before =>
        (infos lib init erange [e]).map (before ++ ·)) ↔
      Undisturbed lib init erange pre e := by
  obtain ⟨cbs, hcbs⟩ := @readAll_eq_some lib ({ slot := init }, erange) pre
    fun x hx => h x (List.mem_append_left _ hx)
  obtain ⟨rs, hrs⟩ := Option.isSome_iff_exists.1 (h e (by simp))
  have hone : ∀ left : Info × Bool, readAll lib left [e] =
      some ((e.info lib left.1, (e.verdict lib left.2).2),
        [⟨(e.verdict lib left.2).1, e.info lib left.1⟩]) := by
    intro left
    simp [readAll, hrs]
  have hinfo := info_eq_iff lib init erange pre e
  have herrno : (leftAfter lib ({ slot := init }, erange) pre).2 = errnoAfter lib erange pre := rfl
  simp only [infos_eq, readAll_append, hcbs, hone, Option.bind_some, Option.map_some,
    Container.delivered_append, Option.some.injEq, List.append_cancel_left_eq, herrno]
  have hdelivered : ∀ cb : ElementCallback Info, Container.delivered [cb] =
      if cb.error = [] then [cb.info] else [] := by
    intro cb
    by_cases hcb : cb.error = [] <;> simp [Container.delivered, hcb]
  simp only [hdelivered]
  by_cases hpre : (e.verdict lib (errnoAfter lib erange pre)).1 = [] <;>
    by_cases halone : (e.verdict lib erange).1 = []
  · simp only [hpre, halone, if_true, List.cons.injEq, and_true]
    rw [hinfo]
    exact ⟨fun hi => ⟨by simp [hpre, halone], fun _ => hi.1, fun _ => hi.2.1, fun _ => hi.2.2⟩,
      fun hu => ⟨hu.slot halone, hu.authBy halone, hu.services halone⟩⟩
  · simp only [hpre, halone, if_true, if_false]
    exact ⟨fun hi => by simp at hi, fun hu => absurd (hu.error.1 hpre) halone⟩
  · simp only [hpre, halone, if_true, if_false]
    exact ⟨fun hi => by simp at hi, fun hu => absurd (hu.error.2 halone) hpre⟩
  · simp only [hpre, halone, if_false, true_iff]
    exact ⟨by simp [hpre, halone], fun hok => absurd hok halone, fun hok => absurd hok halone,
      fun hok => absurd hok halone⟩

/-- **When the users of a list do not mix**: unless the client follows a null pointer, every user is
undisturbed by those before it. -/
theorem unmixed_iff (lib : Library) (init : Slot → Value) (erange : Bool) (es : List UserElem) :
    Unmixed lib init erange es ↔
      ∀ pre e post, es = pre ++ e :: post →
        (∀ x ∈ pre ++ [e], (x.parsed lib).isSome = true) → Undisturbed lib init erange pre e := by
  constructor
  · intro h pre e post hes hparsed
    exact (infos_concat_eq_iff lib init erange hparsed).1 (h pre e post hes)
  · intro h pre e post hes
    by_cases hparsed : ∀ x ∈ pre ++ [e], (x.parsed lib).isSome = true
    · exact (infos_concat_eq_iff lib init erange hparsed).2 (h pre e post hes hparsed)
    · push Not at hparsed
      obtain ⟨x, hx, hnone⟩ := hparsed
      have hnone : x.parsed lib = none := by simpa using hnone
      rw [infos_eq, infos_eq, infos_eq, readAll_eq_none lib _ hx hnone]
      rcases List.mem_append.1 hx with hx | hx
      · rw [readAll_eq_none lib _ hx hnone]
        rfl
      · rw [readAll_eq_none lib _ hx hnone]
        simp

namespace Sample

/-- No number with a point is read and nothing is converted. -/
def library : Library where
  strtodouble2 := fun _ => (0, true, false)
  iconv := fun _ s => (s, none)

/-- A user who is authorized. -/
def authorized : UserElem where
  attrs := [⟨"login".toList, "alice".toList⟩]
  params := [⟨"AuthorizedBy".toList, [], [("Auth".toList, [⟨"name".toList, "ao".toList⟩])]⟩]

/-- A user who is not. -/
def unauthorized : UserElem where
  attrs := [⟨"login".toList, "bob".toList⟩]
  params := [⟨"AuthorizedBy".toList, [], []⟩]

end Sample

/-- The authorizers of a user are listed again for the next one. -/
theorem authorizers_leak :
    ¬ Unmixed Sample.library (fun _ => .text []) false [Sample.authorized, Sample.unauthorized] := by
  intro h
  have hmixed := h [Sample.authorized] Sample.unauthorized [] rfl
  rw [infos_eq, infos_eq, infos_eq] at hmixed
  have hauth := congrArg (Option.map (List.map Info.authBy)) hmixed
  revert hauth
  decide

end GetUser

end Stargazer
