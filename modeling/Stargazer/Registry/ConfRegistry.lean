import Stargazer.Users.Fees

set_option relaxedAutoImplicit false
set_option autoImplicit false

/-!
# The registries of services and corporations

`ServicesImpl` (`services_impl.cpp`) and `CorporationsImpl` (`corps_impl.cpp`) are the same code for
two kinds of entries: a `std::vector` of entries that are found by name, and searches over it.  A
search is a handle; its descriptor is an iterator into the vector, which `Del` moves on if it is at
the entry that is erased.

The vector is modelled with its capacity and the number of its storage.  An iterator is a place in
a storage: a `push_back` without spare capacity moves the entries to a new storage, and an `erase`
moves the entries behind the erased one by one place, under the iterators.

## Main definitions

* `Stargazer.RegistryConf` — an entry, `Stargazer.ConfRegistry` — a registry.
* `Stargazer.ConfRegistry.add`, `Stargazer.ConfRegistry.del`, `Stargazer.ConfRegistry.change` — the
  operations.
* `Stargazer.ConfRegistry.openSearch`, `Stargazer.ConfRegistry.searchNext`,
  `Stargazer.ConfRegistry.closeSearch` — searches.
-/

namespace Stargazer

/-- The entries of a registry: what they are called, and who may change them. -/
class RegistryConf (α : Type) where
  /-- The field `name`, which `operator==` compares. -/
  name : α → String
  /-- The privilege to change entries. -/
  chg : Priv → BitVec 16
  /-- What an entry is called in the texts of errors. -/
  noun : String

export RegistryConf (name)

deriving instance DecidableEq for ServiceConf

/-- `ServiceConf`, with the comment that the fees do not look at. -/
structure FullServiceConf extends ServiceConf where
  /-- `comment`. -/
  comment : String
  deriving DecidableEq

/-- `CorpConf`. -/
structure CorpConf where
  name : String
  cash : Money := 0
  deriving DecidableEq

instance : RegistryConf FullServiceConf := ⟨(·.name), Priv.serviceChg, "Service"⟩

instance : RegistryConf CorpConf := ⟨CorpConf.name, Priv.corpChg, "Corporation"⟩

/-- An iterator into a vector: a place in one of its storages. -/
structure VecIter where
  /-- The number of the storage. -/
  gen : ℕ
  /-- The place. -/
  index : ℕ
  deriving DecidableEq

/-- A registry. -/
structure ConfRegistry (α : Type) where
  /-- `data`. -/
  data : List α := []
  /-- The capacity of `data`. -/
  capacity : ℕ := 0
  /-- The number of the current storage of `data`. -/
  gen : ℕ := 0
  /-- `searchDescriptors`. -/
  searchDescriptors : ℕ → Option VecIter := fun _ => none
  /-- `handle`. -/
  handle : ℕ := 0
  /-- `strError`. -/
  strError : String := ""

/-- `ServicesImpl`. -/
abbrev ServicesImpl := ConfRegistry FullServiceConf

/-- `CorporationsImpl`. -/
abbrev CorporationsImpl := ConfRegistry CorpConf

namespace ConfRegistry

variable {α : Type} [RegistryConf α]

/-- The names of the entries. -/
def names (r : ConfRegistry α) : List String := r.data.map name

/-- `std::find`. -/
def findIdx (r : ConfRegistry α) (n : String) : Option ℕ := r.data.findIdx? fun x => name x = n

/-- `data.push_back`. -/
def pushBack (r : ConfRegistry α) (x : α) : ConfRegistry α :=
  if r.data.length < r.capacity then { r with data := r.data ++ [x] }
  else
    { r with
      data := r.data ++ [x]
      capacity := r.data.length + max r.data.length 1
      gen := r.gen + 1 }

/-- The texts of the errors of an operation on an entry. -/
def text (α : Type) [RegistryConf α] (n rest : String) : String :=
  RegistryConf.noun α ++ " '" ++ n ++ "' " ++ rest

/-- `ServicesImpl::Add`; `storeError` is what the store complains about, if it does. -/
def add (priv : Priv) (storeError : Option String) (x : α) (r : ConfRegistry α) :
    Bool × ConfRegistry α :=
  if RegistryConf.chg α priv = 0 then (false, { r with strError := "Access denied." })
  else
    match r.findIdx (name x) with
    | some _ => (false, { r with
        strError := text α (name x) ("cannot not be added. " ++ RegistryConf.noun α ++
          " already exist.") })
    | none =>
      let r := r.pushBack x
      match storeError with
      | none => (true, r)
      | some e => (false, { r with strError := text α (name x) ("was not added. Error: " ++ e) })

/-- The loop of `Del` over the descriptors: those at the place go on. -/
def moveOn (r : ConfRegistry α) (i : ℕ) : ℕ → Option VecIter := fun h =>
  (r.searchDescriptors h).map fun it =>
    if it = ⟨r.gen, i⟩ then { it with index := it.index + 1 } else it

/-- `ServicesImpl::Del`. -/
def del (priv : Priv) (storeError : Option String) (n : String) (r : ConfRegistry α) :
    Bool × ConfRegistry α :=
  if RegistryConf.chg α priv = 0 then (false, { r with strError := "Access denied." })
  else
    match r.findIdx n with
    | none => (false, { r with
        strError := text α n ("cannot be deleted. " ++ RegistryConf.noun α ++
          " does not exist.") })
    | some i =>
      let r := { r with searchDescriptors := r.moveOn i, data := r.data.eraseIdx i }
      match storeError with
      | none => (true, r)
      | some e => (false, { r with strError := text α n ("was not deleted. Error: " ++ e) })

/-- `ServicesImpl::Change`. -/
def change (priv : Priv) (storeError : Option String) (x : α) (r : ConfRegistry α) :
    Bool × ConfRegistry α :=
  if RegistryConf.chg α priv = 0 then (false, { r with strError := "Access denied." })
  else
    match r.findIdx (name x) with
    | none => (false, { r with
        strError := text α (name x) ("cannot be changed . " ++ RegistryConf.noun α ++
          " does not exist.") })
    | some i => (storeError.isNone, { r with data := r.data.set i x })

/-! ## Searches -/

/-- `ServicesImpl::OpenSearch`, with the handle. -/
def openSearch (r : ConfRegistry α) : ℕ × ConfRegistry α :=
  (r.handle + 1, { r with
    handle := r.handle + 1
    searchDescriptors := Function.update r.searchDescriptors (r.handle + 1) (some ⟨r.gen, 0⟩) })

/-- The iterator denotes a place of the vector, or its end. -/
def Denotes (r : ConfRegistry α) (it : VecIter) : Prop :=
  it.gen = r.gen ∧ it.index ≤ r.data.length

instance (r : ConfRegistry α) (it : VecIter) : Decidable (r.Denotes it) :=
  inferInstanceAs (Decidable (it.gen = r.gen ∧ it.index ≤ r.data.length))

/-- `ServicesImpl::SearchNext`: the entry, or `none` where it returns an error.  An iterator that
does not denote a place of the vector is undefined behaviour: no result at all. -/
def searchNext (h : ℕ) (r : ConfRegistry α) : Option (Option α × ConfRegistry α) :=
  match r.searchDescriptors h with
  | none => some (none, r)
  | some it =>
    if ¬ r.Denotes it then none
    else
      match r.data[it.index]? with
      | none => some (none, r)
      | some x => some (some x, { r with
          searchDescriptors :=
            Function.update r.searchDescriptors h (some { it with index := it.index + 1 }) })

/-- `ServicesImpl::CloseSearch`. -/
def closeSearch (h : ℕ) (r : ConfRegistry α) : Bool × ConfRegistry α :=
  ((r.searchDescriptors h).isSome,
    { r with searchDescriptors := Function.update r.searchDescriptors h none })

/-! ## Names -/

/-- What is found by name has that name. -/
theorem name_of_findIdx {r : ConfRegistry α} {n : String} {i : ℕ} (h : r.findIdx n = some i) :
    ∃ x, r.data[i]? = some x ∧ name x = n := by
  obtain ⟨hi, hp, -⟩ := List.findIdx?_eq_some_iff_getElem.mp h
  exact ⟨r.data[i], List.getElem?_eq_getElem hi, by simpa using hp⟩

/-- What is not found by name is not there. -/
theorem findIdx_eq_none {r : ConfRegistry α} {n : String} : r.findIdx n = none ↔ n ∉ r.names := by
  unfold findIdx names
  rw [List.findIdx?_eq_none_iff]
  simp [eq_comm]

omit [RegistryConf α] in
@[simp] theorem data_pushBack (r : ConfRegistry α) (x : α) : (r.pushBack x).data = r.data ++ [x] := by
  unfold pushBack
  split <;> rfl

/-! ## What the operations can do -/

section Cases

variable (priv : Priv) (e : Option String) (r : ConfRegistry α)

/-- **What `Add` can do**: nothing, or the entry is added. -/
theorem add_cases (x : α) :
    (∃ err, (r.add priv e x).2 = { r with strError := err }) ∨
      RegistryConf.chg α priv ≠ 0 ∧ name x ∉ r.names ∧
        ∃ err, (r.add priv e x).2 = { r.pushBack x with strError := err } := by
  unfold add
  split
  · exact .inl ⟨_, rfl⟩
  · next hpriv =>
    split
    · exact .inl ⟨_, rfl⟩
    · next hfind =>
      refine .inr ⟨hpriv, findIdx_eq_none.1 hfind, ?_⟩
      cases e with
      | none => exact ⟨(r.pushBack x).strError, rfl⟩
      | some e => exact ⟨_, rfl⟩

/-- **What `Del` can do**: nothing, or an entry is erased. -/
theorem del_cases (n : String) :
    (∃ err, (r.del priv e n).2 = { r with strError := err }) ∨
      RegistryConf.chg α priv ≠ 0 ∧ ∃ i err, r.findIdx n = some i ∧
        (r.del priv e n).2 =
          { r with
            searchDescriptors := r.moveOn i
            data := r.data.eraseIdx i
            strError := err } := by
  unfold del
  split
  · exact .inl ⟨_, rfl⟩
  · next hpriv =>
    split
    · exact .inl ⟨_, rfl⟩
    · next i hfind =>
      refine .inr ⟨hpriv, i, ?_⟩
      cases e with
      | none => exact ⟨r.strError, hfind, rfl⟩
      | some e => exact ⟨_, hfind, rfl⟩

end Cases

end ConfRegistry

end Stargazer
