import Stargazer.Basic

set_option relaxedAutoImplicit false
set_option autoImplicit false

/-!
# Administrators

The registry of administrators (`admins_impl.cpp`): how it is read from the store when the server
starts, the three lookups that authenticate an administrator, and the three operations that change
the registry.

`AdminsImpl::read` appends what it reads to the live vector and then swaps that vector with a local
one which is still empty, so a registry whose store was read without an error is empty.  An empty
registry accepts everybody: this is the fall-back for a server that has no administrator yet.

## Main definitions

* `Stargazer.AdminStore` — what the store answers.
* `Stargazer.AdminsImpl.read`, `Stargazer.AdminsImpl.ofStore` — reading the store, the constructor.
* `Stargazer.AdminsImpl.find`, `Stargazer.AdminsImpl.exists`, `Stargazer.AdminsImpl.correct` — the
  lookups.
* `Stargazer.AdminsImpl.add`, `Stargazer.AdminsImpl.del`, `Stargazer.AdminsImpl.change` — changes.
* `Stargazer.AdminsImpl.Agrees` — the lookups say what the store says.

## Main results

* `Stargazer.AdminsImpl.data_ofStore` — the registry is empty after the constructor.
* `Stargazer.AdminsImpl.agrees_iff` — for which login and password the lookups agree with the
  store.
-/

namespace Stargazer

/-- `Admin`: privileges, login, password and the address of the connection. -/
structure Admin where
  /-- The privileges. -/
  priv : Priv
  /-- The login. -/
  login : String
  /-- The password. -/
  password : String
  /-- The address the administrator works from. -/
  ip : IP := 0
  deriving DecidableEq

/-- What the store answers about administrators; `none` is an error. -/
structure AdminStore where
  /-- `GetAdminsList`. -/
  getAdminsList : Option (List String)
  /-- `RestoreAdmin`: the privileges and the password of a login. -/
  restoreAdmin : String → Option (Priv × String)

namespace AdminStore

/-- The list of logins is read, and so is every administrator on it. -/
def Readable (store : AdminStore) : Prop :=
  ∃ logins, store.getAdminsList = some logins ∧
    ∀ login ∈ logins, (store.restoreAdmin login).isSome

/-- The privileges and the password the store holds for a login, if it holds the login. -/
def holds (store : AdminStore) (login : String) : Option (Priv × String) :=
  if login ∈ store.getAdminsList.getD [] then store.restoreAdmin login else none

end AdminStore

/-- The registry of administrators. -/
structure AdminsImpl where
  /-- `m_data`. -/
  data : List Admin := []

namespace AdminsImpl

/-- `m_noAdmin`: what `find` answers while there is no administrator. -/
def noAdmin : Admin := ⟨Priv.full, "NO-ADMIN", "", 0⟩

/-! ## Reading the store -/

/-- The loop of `AdminsImpl::read`: every administrator that is read is appended to the live
vector.  The flag tells whether the loop came to its end. -/
def readLoop (store : AdminStore) : List Admin → List String → List Admin × Bool
  | data, [] => (data, true)
  | data, login :: logins =>
    match store.restoreAdmin login with
    | none => (data, false)
    | some (priv, password) => readLoop store (data ++ [⟨priv, login, password, 0⟩]) logins

/-- `AdminsImpl::read`. -/
def read (store : AdminStore) (a : AdminsImpl) : AdminsImpl :=
  match store.getAdminsList with
  | none => a
  | some logins =>
    -- the local vector of the source; nothing is ever added to it
    let admins : List Admin := []
    match readLoop store a.data logins with
    | (data, false) => { a with data := data }
    | (_, true) => { a with data := admins }

/-- `AdminsImpl::AdminsImpl`. -/
def ofStore (store : AdminStore) : AdminsImpl := read store {}

/-! ## Lookups -/

/-- `std::find` with `Admin::operator==`, which compares logins. -/
def findLogin (a : AdminsImpl) (login : String) : Option Admin :=
  a.data.find? fun admin => admin.login = login

/-- `AdminsImpl::find`: the administrator it points to, `none` where it returns `true` for an
error. -/
def find (a : AdminsImpl) (login : String) : Option Admin :=
  if a.data = [] then some noAdmin else a.findLogin login

/-- `AdminsImpl::exists`. -/
def «exists» (a : AdminsImpl) (login : String) : Bool :=
  if a.data = [] then true else (a.findLogin login).isSome

/-- `AdminsImpl::correct`: the return value, and the administrator where one is pointed to. -/
def correct (a : AdminsImpl) (login password : String) : Bool × Option Admin :=
  if a.data = [] then (true, none)
  else
    match a.findLogin login with
    | none => (false, none)
    | some admin => if admin.password ≠ password then (false, none) else (true, some admin)

/-! ## Changes -/

/-- What an operation leaves behind. -/
structure Result where
  /-- Return value `0`. -/
  ok : Bool
  /-- What `m_strError` is set to, if it is set. -/
  strError : Option String := none
  /-- The registry afterwards. -/
  admins : AdminsImpl

/-- The position of a login. -/
def findIdx (a : AdminsImpl) (login : String) : Option ℕ :=
  a.data.findIdx? fun admin => admin.login = login

/-- The text of an error about an administrator. -/
def text (login rest : String) : String := "Administrator '" ++ login ++ "' " ++ rest

/-- `AdminsImpl::add`; `storeError` is what the store complains about, if it does. -/
def add (priv : Priv) (storeError : Option String) (login : String) (a : AdminsImpl) : Result :=
  if priv.adminChg = 0 then ⟨false, "Access denied.", a⟩
  else
    match a.findIdx login with
    | some _ =>
      ⟨false, text login "cannot not be added. Administrator already exists.", a⟩
    | none =>
      let a : AdminsImpl := ⟨a.data ++ [⟨Priv.ofWord 0, login, "", 0⟩]⟩
      match storeError with
      | none => ⟨true, none, a⟩
      | some e => ⟨false, text login ("was not added. Error: " ++ e), a⟩

/-- `AdminsImpl::del`. -/
def del (priv : Priv) (storeError : Option String) (login : String) (a : AdminsImpl) : Result :=
  if priv.adminChg = 0 then ⟨false, "Access denied.", a⟩
  else
    match a.findIdx login with
    | none => ⟨false, text login "cannot be deleted. Administrator does not exist.", a⟩
    | some i =>
      let a : AdminsImpl := ⟨a.data.eraseIdx i⟩
      match storeError with
      | none => ⟨true, none, a⟩
      | some e => ⟨false, text login ("was not deleted. Error: " ++ e), a⟩

/-- `AdminsImpl::change`: the address of the administrator stays. -/
def change (priv : Priv) (storeError : Option String) (ac : Admin) (a : AdminsImpl) : Result :=
  if priv.adminChg = 0 then ⟨false, "Access denied.", a⟩
  else
    match a.findIdx ac.login with
    | none => ⟨false, text ac.login "cannot be changed . Administrator does not exist.", a⟩
    | some i =>
      ⟨storeError.isNone, none, ⟨a.data.modify i fun admin => { ac with ip := admin.ip }⟩⟩

/-! ## Agreement with the store -/

/-- The lookups of a registry say what the store says about a login and a password.  Of an empty
store `exists` may say anything. -/
structure Agrees (store : AdminStore) (a : AdminsImpl) (login password : String) : Prop where
  /-- The password is accepted iff the store holds it for the login. -/
  correct_iff : (a.correct login password).1 = true ↔
    ∃ priv, store.holds login = some (priv, password)
  /-- `find` gives the stored privileges, and an error for a login the store does not hold. -/
  find_priv : (a.find login).map Admin.priv = (store.holds login).map Prod.fst
  /-- The login exists iff the store holds it. -/
  exists_iff : store.getAdminsList ≠ some [] →
    (a.exists login = true ↔ (store.holds login).isSome)

/-- The loop comes to its end if every administrator can be read. -/
theorem readLoop_snd (store : AdminStore) (logins : List String) :
    ∀ data : List Admin, (∀ login ∈ logins, (store.restoreAdmin login).isSome) →
      (readLoop store data logins).2 = true := by
  induction logins with
  | nil => intro data _; rfl
  | cons login logins ih =>
    intro data h
    obtain ⟨⟨priv, password⟩, hr⟩ :=
      Option.isSome_iff_exists.mp (h login List.mem_cons_self)
    simp only [readLoop, hr]
    exact ih _ fun l hl => h l (List.mem_cons_of_mem _ hl)

/-- **The registry is empty after the constructor**, whatever administrators the store holds. -/
theorem data_ofStore {store : AdminStore} (h : store.Readable) : (ofStore store).data = [] := by
  obtain ⟨logins, hl, hr⟩ := h
  have hend := readLoop_snd store logins [] hr
  unfold ofStore read
  simp only [hl]
  split
  · next data heq => rw [heq] at hend; cases hend
  · rfl

/-- An empty registry accepts every password. -/
theorem correct_of_data {a : AdminsImpl} (h : a.data = []) (login password : String) :
    (a.correct login password).1 = true := by
  simp [correct, h]

/-- An empty registry knows every login, with the privileges of `m_noAdmin`. -/
theorem find_of_data {a : AdminsImpl} (h : a.data = []) (login : String) :
    a.find login = some noAdmin := by
  simp [find, h]

/-- **Where the lookups agree with the store.** After the constructor they do so exactly for the
administrators that hold the privileges of `m_noAdmin`, with their own password.

**Proof sketch.** The registry is empty (`data_ofStore`), so `correct` accepts and `find` answers
`m_noAdmin`; the store has to say the same. -/
theorem agrees_iff (store : AdminStore) (hstore : store.Readable) (login password : String) :
    Agrees store (ofStore store) login password ↔
      store.holds login = some (Priv.full, password) := by
  have hdata := data_ofStore hstore
  have hcorrect := correct_of_data hdata login password
  have hfind := find_of_data hdata login
  constructor
  · intro h
    obtain ⟨priv, hp⟩ := h.correct_iff.mp hcorrect
    have hpriv := h.find_priv
    rw [hfind, hp] at hpriv
    simp only [Option.map_some, Option.some.injEq] at hpriv
    rw [hp, ← hpriv]
    rfl
  · intro h
    refine ⟨⟨fun _ => ⟨_, h⟩, fun _ => hcorrect⟩, ?_, fun _ => ⟨fun _ => ?_, fun _ => ?_⟩⟩
    · rw [hfind, h]; rfl
    · rw [h]; rfl
    · simp [AdminsImpl.exists, hdata]

/-- No store is served as it stands: for some password the lookups and the store disagree. -/
theorem not_forall_agrees (store : AdminStore) (hstore : store.Readable) (login : String) :
    ¬ ∀ password, Agrees store (ofStore store) login password := by
  intro h
  -- every password is accepted, but the store holds one password for the login
  have haccepts : ∀ password, ∃ priv, store.holds login = some (priv, password) := fun password =>
    (h password).correct_iff.mp (correct_of_data (data_ofStore hstore) login password)
  obtain ⟨priv, h1⟩ := haccepts "a"
  obtain ⟨priv', h2⟩ := haccepts "b"
  rw [h1] at h2
  simp at h2

end AdminsImpl

namespace Sample

/-- A store with one administrator, who may change tariffs and nothing else. -/
def adminStore : AdminStore where
  getAdminsList := some ["admin"]
  restoreAdmin := fun login =>
    if login = "admin" then some (Priv.ofWord 0x1000, "secret") else none

/-- A store with one administrator, who may do everything. -/
def fullAdminStore : AdminStore where
  getAdminsList := some ["admin"]
  restoreAdmin := fun login => if login = "admin" then some (Priv.full, "secret") else none

end Sample

/-- The administrator with all privileges can log in with the right password, as it should, and with a
wrong one, as it should not. -/
theorem AdminsImpl.agrees_full :
    Sample.fullAdminStore.Readable ∧
      AdminsImpl.Agrees Sample.fullAdminStore (AdminsImpl.ofStore Sample.fullAdminStore)
        "admin" "secret" ∧
      ¬ AdminsImpl.Agrees Sample.fullAdminStore (AdminsImpl.ofStore Sample.fullAdminStore)
        "admin" "wrong" := by
  have h : Sample.fullAdminStore.Readable := ⟨["admin"], rfl, by decide⟩
  refine ⟨h, (AdminsImpl.agrees_iff _ h "admin" "secret").mpr (by decide), fun hwrong => ?_⟩
  exact absurd ((AdminsImpl.agrees_iff _ h "admin" "wrong").mp hwrong) (by decide)

/-- A store with one administrator: a wrong password is accepted, an unknown login exists, and the
privileges found are not the stored ones. -/
theorem AdminsImpl.wrong_password_accepted :
    Sample.adminStore.Readable ∧ Sample.adminStore.getAdminsList ≠ some [] ∧
    ((AdminsImpl.ofStore Sample.adminStore).correct "admin" "wrong").1 = true ∧
    Sample.adminStore.holds "admin" = some (Priv.ofWord 0x1000, "secret") ∧
    (AdminsImpl.ofStore Sample.adminStore).exists "nobody" = true ∧
    Sample.adminStore.holds "nobody" = none ∧
    (AdminsImpl.ofStore Sample.adminStore).find "nobody" = some AdminsImpl.noAdmin ∧
    ¬ AdminsImpl.Agrees Sample.adminStore (AdminsImpl.ofStore Sample.adminStore)
        "admin" "wrong" := by
  refine ⟨⟨["admin"], rfl, by decide⟩, by decide, by decide, by decide, by decide, by decide,
    by decide, ?_⟩
  intro h
  obtain ⟨priv, hp⟩ := h.correct_iff.mp (by decide)
  have hs : Sample.adminStore.holds "admin" = some (Priv.ofWord 0x1000, "secret") := by decide
  rw [hs] at hp
  simp at hp

end Stargazer
