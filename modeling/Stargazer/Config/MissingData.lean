import Stargazer.Config.SetTariff
import Stargazer.Config.SetUser

set_option relaxedAutoImplicit false
set_option autoImplicit false

/-!
# Requests and what they do not bring

The handlers of `SetUser`, `SetTariff` and `DelUser` in `plugins/configuration/sgconfig` get one element
after another.  Each of them relies on something that an earlier element need not have brought: the
addresses of a user, the tariff that was found, the user that was found; and `SetUser` takes the number
of a direction out of the name of an attribute.

Here a handler *fails* where it looks into an `optional` that is empty, follows the pointer to a user
that was not found, or goes beyond an array of the directions.  It *stops* where it ends in another way:
the null pointer of an element without attributes is followed, a text does not fit its buffer, or a user
has no tariff.

## Main definitions

* `Stargazer.SetUser.handled` — `SetUser`, as in `Stargazer.SetUser.handle`.
* `Stargazer.DelUser.handle` — `DelUser`.
* `Stargazer.SetUser.Guard`, `Stargazer.DelUser.Guard` — the reports at which nothing is missing.

## Main results

* `Stargazer.SetUser.state?_handled` — what `SetUser` does otherwise.
* `Stargazer.requests_complete_iff` — the requests that never touch what is missing.
-/

namespace Stargazer

/-! ## `SetUser` -/

namespace SetUser

/-- `readElement`.  It fails where the number of a direction is none. -/
def readElementHalting (d : DoubleText) (env : IPEnv) (req : ChgUser) (el : List Char)
    (attr : List Xml.Attr) : Halting ChgUser :=
  match field el with
  | none => .going req
  | some .traff =>
    match attr.foldlM readTraff req with
    | some req => .going req
    | none => .failed
  | some f =>
    Halting.ofOption (attr.head?.bind fun a => readValue d env req a f)

/-- `CHG_USER::ApplyChanges`.  It fails where the addresses are looked at that the request does not
have. -/
def applyChanges (env : Env) (priv : Priv) (req : ChgUser) (s : UserList) :
    Halting (Bool × UserList) :=
  (s.findByName req.login).elim (.going (false, s)) fun i =>
    if UserList.leadsToForbidden req (s.users.get i) then .going (false, s)
    else if req.ips.isNone then .failed
    else (s.applyChanges env priv req).elim .stopped .going

/-- One report of the XML parser: `CHG_USER::Start`, or `BASE_PARSER::End`.  The parser does not report
an end without a start. -/
def handled (d : DoubleText) (env : Env) (priv : Priv) (srv : Server) (r : Report) : Halting Server :=
  match r.event with
  | .start el attr =>
    if srv.parser.depth = 0 then .going { srv with parser := { srv.parser with depth := 1 } }
    else
      (readElementHalting d ⟨env.shifted, r.erange⟩ srv.parser.req el attr).map fun req =>
        { srv with parser := ⟨srv.parser.depth + 1, req⟩ }
  | .finish el =>
    if srv.parser.depth = 0 then .stopped
    else if srv.parser.depth < 2 then
      if caseEq el "SetUser" then
        (applyChanges env priv srv.parser.req srv.users).map fun r =>
          ⟨{ srv.parser with depth := srv.parser.depth - 1 }, r.2, some r.1⟩
      else .going srv
    else .going { srv with parser := { srv.parser with depth := srv.parser.depth - 1 } }

/-- An attribute of `traff` that is a counter. -/
def IsCounter (name : List Char) : Prop :=
  caseEq (name.take 2) "md" = true ∨ caseEq (name.take 2) "mu" = true

/-- **The reports at which nothing is missing**: every counter has the number of a direction, and when
the request ends it has addresses, unless its user does not exist or it is turned down before they are
looked at. -/
def Guard (srv : Server) (r : Report) : Prop :=
  match r.event with
  | .start el attr =>
    srv.parser.depth ≠ 0 → field el = some .traff →
      ∀ a ∈ attr, IsCounter a.name → (dirOf a.name).isSome = true
  | .finish el =>
    srv.parser.depth = 1 → caseEq el "SetUser" = true →
      ∀ i, srv.users.findByName srv.parser.req.login = some i →
        UserList.leadsToForbidden srv.parser.req srv.users.users[i] = true ∨
          srv.parser.req.ips.isSome = true

/-! ### What `SetUser` does otherwise -/

/-- Nothing else than in `readElement`. -/
theorem state?_readElementHalting (d : DoubleText) (env : IPEnv) (req : ChgUser) (el : List Char)
    (attr : List Xml.Attr) :
    (readElementHalting d env req el attr).state? = readElement d env req el attr := by
  unfold readElementHalting readElement
  cases field el with
  | none => rfl
  | some f =>
    cases f
    case traff => cases attr.foldlM readTraff req <;> rfl
    all_goals exact Halting.state?_ofOption _

/-- Nothing else than in `UserList.applyChanges`. -/
theorem state?_applyChanges (env : Env) (priv : Priv) (req : ChgUser) (s : UserList) :
    (applyChanges env priv req s).state? = s.applyChanges env priv req := by
  unfold applyChanges
  cases hi : s.findByName req.login with
  | none =>
    simp only [UserList.applyChanges, hi]
    rfl
  | some i =>
    rw [Option.elim_some, show s.users.get i = s.users[i] from rfl]
    split_ifs with hforbidden hips
    · simp only [UserList.applyChanges, hi, hforbidden, if_true]
      rfl
    · simp only [UserList.applyChanges, hi, hforbidden, Option.isNone_iff_eq_none.1 hips]
      rfl
    · cases s.applyChanges env priv req <;> rfl

/-- **What `SetUser` does otherwise** is what `handle` says. -/
theorem state?_handled (d : DoubleText) (env : Env) (priv : Priv) (srv : Server)
    (errno : Xml.Event → Bool) (event : Xml.Event)
    (h : srv.parser.depth ≠ 0 ∨ ∃ el attr, event = .start el attr) :
    (handled d env priv srv ⟨event, errno event⟩).state? = handle d env priv errno srv event := by
  cases event with
  | start el attr =>
    simp only [handled, handle, start]
    split_ifs
    · rfl
    · rw [Halting.state?_map, state?_readElementHalting, Option.map_map]
      rfl
  | finish el =>
    have hdepth : srv.parser.depth ≠ 0 := by
      rcases h with h | ⟨_, _, h⟩
      · exact h
      · cases h
    simp only [handled, handle, if_neg hdepth]
    split_ifs
    · rw [Halting.state?_map, state?_applyChanges]
    · rfl
    · rfl

/-! ### When something is missing -/

/-- One attribute. -/
theorem readTraff_isSome_iff (req : ChgUser) (a : Xml.Attr) :
    (readTraff req a).isSome = true ↔ (IsCounter a.name → (dirOf a.name).isSome = true) := by
  unfold readTraff IsCounter
  dsimp only
  split_ifs with hmd hmu
  · rw [Option.isSome_map]
    exact ⟨fun h _ => h, fun h => h (.inl hmd)⟩
  · rw [Option.isSome_map]
    exact ⟨fun h _ => h, fun h => h (.inr hmu)⟩
  · refine iff_of_true rfl ?_
    rintro (h | h)
    · exact absurd h hmd
    · exact absurd h hmu

/-- The attributes of an element. -/
theorem foldlM_readTraff_isSome_iff (attr : List Xml.Attr) (req : ChgUser) :
    (attr.foldlM readTraff req).isSome = true ↔
      ∀ a ∈ attr, IsCounter a.name → (dirOf a.name).isSome = true := by
  induction attr generalizing req with
  | nil => exact iff_of_true rfl fun _ ha => by cases ha
  | cons a attr ih =>
    rw [List.foldlM_cons, List.forall_mem_cons, ← readTraff_isSome_iff req a]
    cases readTraff req a with
    | none => exact iff_of_false Bool.false_ne_true fun h => Bool.false_ne_true h.1
    | some req' => exact (ih req').trans ⟨fun h => ⟨rfl, h⟩, fun h => h.2⟩

/-- An element. -/
theorem readElementHalting_ne_failed_iff (d : DoubleText) (env : IPEnv) (req : ChgUser)
    (el : List Char) (attr : List Xml.Attr) :
    readElementHalting d env req el attr ≠ .failed ↔
      (field el = some .traff → ∀ a ∈ attr, IsCounter a.name → (dirOf a.name).isSome = true) := by
  unfold readElementHalting
  rw [← foldlM_readTraff_isSome_iff attr req]
  cases hf : field el with
  | none => exact iff_of_true (Halting.going_ne_failed req) fun h => by cases h
  | some f =>
    by_cases htraff : f = .traff
    · subst htraff
      dsimp only
      cases attr.foldlM readTraff req with
      | none => exact iff_of_false (fun h => h rfl) fun h => Bool.false_ne_true (h rfl)
      | some req' => exact iff_of_true (Halting.going_ne_failed req') fun _ => rfl
    · refine iff_of_true ?_ fun h => absurd (Option.some.inj h) htraff
      cases f
      case traff => exact absurd rfl htraff
      all_goals exact Halting.ofOption_ne_failed _

/-- The end of a request. -/
theorem applyChanges_ne_failed_iff (env : Env) (priv : Priv) (req : ChgUser) (s : UserList) :
    applyChanges env priv req s ≠ .failed ↔
      ∀ i, s.findByName req.login = some i →
        UserList.leadsToForbidden req (s.users.get i) = true ∨ req.ips.isSome = true := by
  unfold applyChanges
  cases s.findByName req.login with
  | none => exact iff_of_true (Halting.going_ne_failed _) fun i hi => by cases hi
  | some i =>
    rw [Option.elim_some]
    split_ifs with hforbidden hips
    · refine iff_of_true (Halting.going_ne_failed _) fun j hj => ?_
      cases hj
      exact .inl hforbidden
    · refine iff_of_false (fun h => h rfl) fun h => ?_
      rcases h i rfl with h | h
      · exact hforbidden h
      · rw [Option.isNone_iff_eq_none.1 hips] at h
        cases h
    · have hsome : req.ips.isSome = true := by
        rw [← Option.not_isNone, Bool.not_eq_true']
        exact Bool.eq_false_iff.2 hips
      refine iff_of_true ?_ fun j _ => .inr hsome
      cases s.applyChanges env priv req <;> simp

/-- **When something is missing** at a report. -/
theorem handled_ne_failed_iff (d : DoubleText) (env : Env) (priv : Priv) (srv : Server) (r : Report) :
    handled d env priv srv r ≠ .failed ↔ Guard srv r := by
  obtain ⟨event, erange⟩ := r
  cases event with
  | start el attr =>
    simp only [handled, Guard]
    split_ifs with hdepth
    · exact iff_of_true (Halting.going_ne_failed _) fun h => absurd hdepth h
    · rw [ne_eq, Halting.map_eq_failed_iff, ← ne_eq, readElementHalting_ne_failed_iff]
      exact ⟨fun h _ => h, fun h => h hdepth⟩
  | finish el =>
    simp only [handled, Guard]
    split_ifs with hzero hlt hel
    · exact iff_of_true Halting.stopped_ne_failed fun h => by omega
    · rw [ne_eq, Halting.map_eq_failed_iff, ← ne_eq, applyChanges_ne_failed_iff]
      exact ⟨fun h _ _ => h, fun h => h (by omega) hel⟩
    · exact iff_of_true (Halting.going_ne_failed _) fun _ h => absurd h hel
    · exact iff_of_true (Halting.going_ne_failed _) fun h => by omega

end SetUser

/-! ## `DelUser` -/

/-- `UsersImpl::Del`, as far as the index of the logins goes. -/
def UserList.del (priv : Priv) (login : String) (s : UserList) : UserList :=
  if priv.userAddDel = 0 then s
  else
    (s.findByName login).elim s fun i => s.setUser i { s.users.get i with indexed := false } rfl

namespace DelUser

/-- The parser: `res` and `u`, which is the user that was found last. -/
structure State where
  res : Bool := false
  u : Option String := none

/-- The parser, the users, and `m_answer`. -/
structure Server where
  parser : State := {}
  users : UserList
  answer : String := ""

/-- `DEL_USER::CreateAnswer`. -/
def createAnswer (srv : Server) : Server :=
  { srv with
    answer :=
      if srv.parser.res then "<DelUser value=\"error\" reason=\"User not found\"/>"
      else "<DelUser value=\"ok\"/>" }

/-- `DEL_USER::Start`.  It takes `res` back before it looks at the element. -/
def start (srv : Server) (el : List Char) (attr : List Xml.Attr) : Server :=
  let srv : Server := { srv with parser := { srv.parser with res := false } }
  if caseEq el "DelUser" then
    match attr.head? with
    | none => createAnswer srv
    | some a =>
      match srv.users.findByName (String.ofList a.value) with
      | none => createAnswer { srv with parser := { srv.parser with res := true } }
      | some i =>
        let u := some srv.users.users[i].user.login
        createAnswer { srv with parser := { srv.parser with u := u } }
  else srv

/-- One report of the XML parser: `DEL_USER::Start` or `DEL_USER::End`.  It fails where the login of a
user is asked for that was not found. -/
def handle (priv : Priv) (srv : Server) (r : Report) : Halting Server :=
  match r.event with
  | .start el attr => .going (start srv el attr)
  | .finish el =>
    if caseEq el "DelUser" then
      if srv.parser.res then .going srv
      else
        match srv.parser.u with
        | none => .failed
        | some login => .going { srv with users := srv.users.del priv login }
    else .going srv

/-- **The reports at which nothing is missing**: when the request ends it has found a user, or has
noticed that there is none. -/
def Guard (srv : Server) (r : Report) : Prop :=
  match r.event with
  | .start _ _ => True
  | .finish el =>
    caseEq el "DelUser" = true → srv.parser.res = true ∨ srv.parser.u.isSome = true

/-- **When something is missing** at a report. -/
theorem handle_ne_failed_iff (priv : Priv) (srv : Server) (r : Report) :
    handle priv srv r ≠ .failed ↔ Guard srv r := by
  obtain ⟨event, erange⟩ := r
  cases event with
  | start el attr => exact iff_of_true (Halting.going_ne_failed _) trivial
  | finish el =>
    simp only [handle, Guard]
    split_ifs with hel hres
    · exact iff_of_true (Halting.going_ne_failed _) fun _ => .inl hres
    · cases srv.parser.u with
      | none =>
        refine iff_of_false (fun h => h rfl) fun h => ?_
        rcases h hel with h | h
        · exact hres h
        · cases h
      | some login => exact iff_of_true (Halting.going_ne_failed _) fun _ => .inr rfl
    · exact iff_of_true (Halting.going_ne_failed _) fun h => absurd h hel

end DelUser

/-! ## All three -/

/-- **When requests never touch what is missing**: when every report meets the condition of its handler
in the state it is handled in. -/
theorem requests_complete_iff (d : DoubleText) (env : Env) (priv : Priv) (storeError : Option String)
    (s : UserList) (tariffs : TariffsImpl) (rs : List Report) :
    (Halting.run (SetUser.handled d env priv) { users := s } rs ≠ .failed ↔
      Halting.Meets (SetUser.handled d env priv) SetUser.Guard { users := s } rs) ∧
    (Halting.run (SetTariff.handle d priv storeError) { tariffs := tariffs } rs ≠ .failed ↔
      Halting.Meets (SetTariff.handle d priv storeError) (SetTariff.Guard d) { tariffs := tariffs } rs) ∧
    (Halting.run (DelUser.handle priv) { users := s } rs ≠ .failed ↔
      Halting.Meets (DelUser.handle priv) DelUser.Guard { users := s } rs) := by
  refine ⟨?_, ?_, ?_⟩
  · exact Halting.run_ne_failed_iff (SetUser.handled_ne_failed_iff d env priv) _ rs
  · exact Halting.run_ne_failed_iff (SetTariff.handle_ne_failed_iff d priv storeError) _ rs
  · exact Halting.run_ne_failed_iff (DelUser.handle_ne_failed_iff priv) _ rs

/-- **A request to delete a user without a login**: the login of no user is asked for. -/
theorem login_of_no_user :
    ¬ Halting.run (DelUser.handle Priv.full) { users := ⟨[], List.nodup_nil⟩ }
      [⟨.start "DelUser".toList [], false⟩, ⟨.finish "DelUser".toList, false⟩] ≠ .failed := by
  have hname : caseEq "DelUser".toList "DelUser" = true := by decide
  refine fun h => h ?_
  simp only [Halting.run, DelUser.handle, DelUser.start, DelUser.createAnswer, hname, if_true,
    List.head?_nil, Bool.false_eq_true, if_false]

end Stargazer
