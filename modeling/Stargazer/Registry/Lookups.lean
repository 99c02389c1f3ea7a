import Stargazer.Lib.Run
import Stargazer.Registry.Atomic

set_option relaxedAutoImplicit false
set_option autoImplicit false

/-!
# Lookups in the registries of services and corporations

`Find` and `Exists` of `services_impl.cpp` and `corps_impl.cpp`.  All of them treat a registry without
entries as a case of its own, before they look for the name: `Exists` says that the name is there,
`ServicesImpl::Find` reports an error, and `CorporationsImpl::Find` reports success and returns
nothing.

## Main definitions

* `Stargazer.ServicesImpl.find`, `Stargazer.CorporationsImpl.find`,
  `Stargazer.ConfRegistry.exists` — the lookups.
* `Stargazer.ConfRegistry.TellsTruth` — what they are to say about a name.

## Main results

* `Stargazer.Registries.tellTruth_iff` — the registries whose lookups tell the truth.
-/

namespace Stargazer

/-- What `Find` leaves behind: whether it reports an error, and what it has stored. -/
structure Found (α : Type) where
  error : Bool
  entry : Option α := none
  deriving DecidableEq

namespace ConfRegistry

variable {α : Type} [RegistryConf α]

/-- The entry `std::find` points to. -/
def findEntry (r : ConfRegistry α) (n : String) : Option α := r.data.find? fun x => name x = n

/-- The end of `Find`: the entry is stored if there is one. -/
def store (r : ConfRegistry α) (n : String) : Found α :=
  match r.findEntry n with
  | some x => ⟨false, some x⟩
  | none => ⟨true, none⟩

/-- `ServicesImpl::Exists` and `CorporationsImpl::Exists`. -/
def «exists» (r : ConfRegistry α) (n : String) : Bool :=
  if r.data = [] then true else (r.findEntry n).isSome

end ConfRegistry

/-- `ServicesImpl::Find`; the function for `ServiceConfOpt` has the same body. -/
def ServicesImpl.find (r : ServicesImpl) (n : String) : Found FullServiceConf :=
  if r.data = [] then ⟨true, none⟩ else r.store n

/-- `CorporationsImpl::Find`. -/
def CorporationsImpl.find (r : CorporationsImpl) (n : String) : Found CorpConf :=
  if r.data = [] then ⟨false, none⟩ else r.store n

namespace ConfRegistry

variable {α : Type} [RegistryConf α]

/-- **What the lookups of a name are to say.** -/
structure TellsTruth (r : ConfRegistry α) (find : String → Found α) (n : String) : Prop where
  /-- The name exists iff an entry has it. -/
  exists_iff : r.exists n = true ↔ n ∈ r.names
  /-- It is found iff an entry has it. -/
  find_iff : (find n).error = false ↔ n ∈ r.names
  /-- What is found is that entry. -/
  entry : (find n).error = false → ∃ x ∈ r.data, name x = n ∧ (find n).entry = some x

/-- An entry is found iff the name is there. -/
theorem isSome_findEntry_iff (r : ConfRegistry α) (n : String) :
    (r.findEntry n).isSome = true ↔ n ∈ r.names := by
  rw [findEntry, List.find?_isSome, names, List.mem_map]
  simp

/-- The end of `Find` reports an error iff there is no such entry. -/
theorem error_store_iff (r : ConfRegistry α) (n : String) :
    (r.store n).error = false ↔ n ∈ r.names := by
  rw [← isSome_findEntry_iff, store]
  cases r.findEntry n <;> simp

/-- What it stores is an entry with that name. -/
theorem entry_store (r : ConfRegistry α) (n : String) (h : (r.store n).error = false) :
    ∃ x ∈ r.data, name x = n ∧ (r.store n).entry = some x := by
  unfold store at h ⊢
  cases hx : r.findEntry n with
  | none => simp [hx] at h
  | some x => exact ⟨x, List.mem_of_find?_eq_some hx, by simpa using List.find?_some hx, rfl⟩

/-- If there are entries, and `Find` looks for one, the lookups tell the truth. -/
theorem tellsTruth_of_ne_nil {r : ConfRegistry α} {find : String → Found α} (hr : r.data ≠ [])
    {n : String} (hfind : find n = r.store n) : r.TellsTruth find n where
  exists_iff := by rw [ConfRegistry.exists, if_neg hr, isSome_findEntry_iff]
  find_iff := by rw [hfind, error_store_iff]
  entry := by
    rw [hfind]
    exact r.entry_store n

/-- Without entries they do not, whatever `Find` says. -/
theorem ne_nil_of_tellsTruth {r : ConfRegistry α} {find : String → Found α} {n : String}
    (h : r.TellsTruth find n) : r.data ≠ [] := by
  intro hr
  have hmem := h.exists_iff.1 (if_pos hr)
  rw [names, hr] at hmem
  cases hmem

end ConfRegistry

namespace Registries

/-- **When the lookups of the two registries tell the truth**: when the registry has an entry,
whatever its name.  This is so in every state, so in every state a run of the operations reaches. -/
theorem tellTruth_iff (r : Registries) (n : String) :
    (r.services.TellsTruth (ServicesImpl.find r.services) n ↔ r.services.data ≠ []) ∧
      (r.corps.TellsTruth (CorporationsImpl.find r.corps) n ↔ r.corps.data ≠ []) := by
  constructor
  · constructor
    · exact ConfRegistry.ne_nil_of_tellsTruth
    · intro hr
      exact ConfRegistry.tellsTruth_of_ne_nil hr (if_neg hr)
  · constructor
    · exact ConfRegistry.ne_nil_of_tellsTruth
    · intro hr
      exact ConfRegistry.tellsTruth_of_ne_nil hr (if_neg hr)

namespace Sample

/-- A corporation is added and deleted again. -/
def corpOps : List RegistryOp :=
  [.addCorp Priv.full none { name := "acme" }, .delCorp Priv.full none "acme"]

/-- No registry has entries. -/
def empty : Registries := ⟨{}, {}, {}, { data := [] }⟩

end Sample

/-- **The last corporation is deleted**: it still exists, and is found. -/
theorem deleted_corp_exists :
    ∃ r, Transition.Runs step Sample.empty Sample.corpOps r ∧
      ¬ r.corps.TellsTruth (CorporationsImpl.find r.corps) "acme" := by
  refine ⟨_, .cons trivial rfl (.cons trivial rfl (.nil _)), fun h => ?_⟩
  exact ConfRegistry.ne_nil_of_tellsTruth h rfl

end Registries

end Stargazer
