import Stargazer.Admins.AdminsImpl
import Stargazer.Lib.Run
import Stargazer.Registry.ConfRegistry
import Stargazer.Tariffs.TariffsImpl

set_option relaxedAutoImplicit false
set_option autoImplicit false

/-!
# Registries and failures of the store

The registries of tariffs, services, corporations and administrators keep their entries in memory
and in a store, and an operation changes both.  Only `TariffsImpl::Del` asks the store first; the
other operations change the memory, ask the store, and return an error if it fails, with the memory
changed.

## Main definitions

* `Stargazer.Registries` — the four registries, `Stargazer.RegistryOp` — their operations.
* `Stargazer.Registries.Atomic` — an operation that fails leaves the entries as they were.
* `Stargazer.Registries.Guard` — the operations of which this is true.

## Main results

* `Stargazer.Registries.atomic_iff_guard` — for one operation in any state.
* `Stargazer.registries_atomic_iff` — for every run.
-/

namespace Stargazer

/-! ## Lists -/

/-- A list with an entry replaced is the same list iff the entry is the same. -/
theorem set_eq_self_iff {α : Type*} {l : List α} {i : ℕ} (hi : i < l.length) (x : α) :
    l.set i x = l ↔ l[i]? = some x := by
  constructor
  · intro h
    rw [← h, List.getElem?_set_self (by simpa using hi)]
  · intro h
    obtain ⟨hi, rfl⟩ := List.getElem?_eq_some_iff.1 h
    exact List.set_getElem_self hi

/-- A list with an entry modified is the same list iff the entry is not changed. -/
theorem modify_eq_self_iff {α : Type*} {l : List α} {i : ℕ} (hi : i < l.length) (f : α → α) :
    l.modify i f = l ↔ f l[i] = l[i] := by
  have hset : l.modify i f = l.set i (f l[i]) := List.modify_eq_set_get f hi
  rw [hset, set_eq_self_iff hi, List.getElem?_eq_getElem hi, Option.some.injEq, eq_comm]

/-- A list from which an entry has been erased is another list. -/
theorem eraseIdx_ne_self {α : Type*} {l : List α} {i : ℕ} (hi : i < l.length) :
    l.eraseIdx i ≠ l := by
  intro h
  have hlen := congrArg List.length h
  rw [List.length_eraseIdx_of_lt hi] at hlen
  omega

/-- The place of a name is a place of the list. -/
theorem lt_of_findIdx {α : Type*} {l : List α} {p : α → Bool} {i : ℕ} (h : l.findIdx? p = some i) :
    i < l.length := (List.findIdx?_eq_some_iff_getElem.1 h).1

/-! ## One registry -/

namespace ConfRegistry

variable {α : Type} [RegistryConf α] (priv : Priv) (e : Option String) (r : ConfRegistry α)

theorem add_atomic_iff (x : α) :
    ((r.add priv e x).1 = false → (r.add priv e x).2.data = r.data) ↔
      e = none ∨ RegistryConf.chg α priv = 0 ∨ name x ∈ r.names := by
  unfold add
  by_cases hpriv : RegistryConf.chg α priv = 0#16
  · simp [hpriv]
  · cases hfind : r.findIdx (name x) with
    | some i =>
      have hmem : name x ∈ r.names := by
        by_contra hnot
        rw [findIdx_eq_none.2 hnot] at hfind
        cases hfind
      simp [hpriv, hmem]
    | none =>
      have hnot := findIdx_eq_none.1 hfind
      cases e with
      | none => simp [hpriv]
      | some e => simp [hpriv, hnot]

theorem del_atomic_iff (n : String) :
    ((r.del priv e n).1 = false → (r.del priv e n).2.data = r.data) ↔
      e = none ∨ RegistryConf.chg α priv = 0 ∨ n ∉ r.names := by
  unfold del
  by_cases hpriv : RegistryConf.chg α priv = 0#16
  · simp [hpriv]
  · cases hfind : r.findIdx n with
    | none =>
      have hnot := findIdx_eq_none.1 hfind
      simp [hpriv, hnot]
    | some i =>
      have hmem : n ∈ r.names := by
        by_contra hnot
        rw [findIdx_eq_none.2 hnot] at hfind
        cases hfind
      cases e with
      | none => simp [hpriv]
      | some e => simp [hpriv, hmem, eraseIdx_ne_self (lt_of_findIdx hfind)]

theorem change_atomic_iff (x : α) :
    ((r.change priv e x).1 = false → (r.change priv e x).2.data = r.data) ↔
      e = none ∨ RegistryConf.chg α priv = 0 ∨
        ∀ i, r.findIdx (name x) = some i → r.data[i]? = some x := by
  unfold change
  by_cases hpriv : RegistryConf.chg α priv = 0#16
  · simp [hpriv]
  · cases hfind : r.findIdx (name x) with
    | none => simp [hpriv]
    | some i =>
      cases e with
      | none => simp [hpriv]
      | some e => simp [hpriv, set_eq_self_iff (lt_of_findIdx hfind)]

end ConfRegistry

namespace TariffsImpl

variable (priv : Priv) (e : Option String) (r : TariffsImpl)

theorem tariffs_pushBack (t : TariffImpl) : (r.pushBack t).tariffs = r.tariffs ++ [t] := by
  simp only [pushBack]
  split_ifs <;> rfl

theorem add_atomic_iff (n : String) :
    ((r.add priv e n).1 = false → (r.add priv e n).2.tariffs = r.tariffs) ↔
      e = none ∨ priv.tariffChg = 0 ∨ n ∈ r.names := by
  unfold add
  by_cases hpriv : priv.tariffChg = 0#16
  · simp [hpriv]
  · cases hfind : r.findIdx n with
    | some i =>
      have hmem : n ∈ r.names := by
        by_contra hnot
        rw [findIdx_eq_none.2 hnot] at hfind
        cases hfind
      simp [hpriv, hmem]
    | none =>
      have hnot := findIdx_eq_none.1 hfind
      cases e with
      | none => simp [hpriv]
      | some e => simp [hpriv, hnot, tariffs_pushBack]

/-- The store is asked before the memory is changed. -/
theorem del_atomic (n : String) (h : (r.del priv e n).1 = false) :
    (r.del priv e n).2.tariffs = r.tariffs := by
  unfold del at h ⊢
  split at h
  · next hpriv => rw [if_pos hpriv]
  · next hpriv =>
    rw [if_neg hpriv]
    cases hfind : r.findIdx n with
    | none => rfl
    | some i =>
      cases e with
      | none => simp [hfind] at h
      | some e => rfl

theorem chg_atomic_iff (td : TariffData) :
    ((r.chg priv e td).1 = false → (r.chg priv e td).2.tariffs = r.tariffs) ↔
      e = none ∨ priv.tariffChg = 0 ∨
        ∀ i, r.findIdx td.tariffConf.name = some i → r.tariffs[i]? = some td := by
  unfold chg
  by_cases hpriv : priv.tariffChg = 0#16
  · simp [hpriv]
  · cases hfind : r.findIdx td.tariffConf.name with
    | none => simp [hpriv]
    | some i =>
      cases e with
      | none => simp [hpriv]
      | some e => simp [hpriv, set_eq_self_iff (lt_of_findIdx hfind)]

end TariffsImpl

namespace AdminsImpl

variable (priv : Priv) (e : Option String) (a : AdminsImpl)

/-- The logins of the administrators. -/
def logins : List String := a.data.map Admin.login

theorem findIdx_eq_none {login : String} : a.findIdx login = none ↔ login ∉ a.logins := by
  unfold findIdx logins
  rw [List.findIdx?_eq_none_iff]
  simp [eq_comm]

theorem add_atomic_iff (login : String) :
    ((a.add priv e login).ok = false → (a.add priv e login).admins.data = a.data) ↔
      e = none ∨ priv.adminChg = 0 ∨ login ∈ a.logins := by
  unfold add
  by_cases hpriv : priv.adminChg = 0#16
  · simp [hpriv]
  · cases hfind : a.findIdx login with
    | some i =>
      have hmem : login ∈ a.logins := by
        by_contra hnot
        rw [(findIdx_eq_none a).2 hnot] at hfind
        cases hfind
      simp [hpriv, hmem]
    | none =>
      have hnot := (findIdx_eq_none a).1 hfind
      cases e with
      | none => simp [hpriv]
      | some e => simp [hpriv, hnot]

theorem del_atomic_iff (login : String) :
    ((a.del priv e login).ok = false → (a.del priv e login).admins.data = a.data) ↔
      e = none ∨ priv.adminChg = 0 ∨ login ∉ a.logins := by
  unfold del
  by_cases hpriv : priv.adminChg = 0#16
  · simp [hpriv]
  · cases hfind : a.findIdx login with
    | none =>
      have hnot := (findIdx_eq_none a).1 hfind
      simp [hpriv, hnot]
    | some i =>
      have hmem : login ∈ a.logins := by
        by_contra hnot
        rw [(findIdx_eq_none a).2 hnot] at hfind
        cases hfind
      cases e with
      | none => simp [hpriv]
      | some e => simp [hpriv, hmem, eraseIdx_ne_self (lt_of_findIdx hfind)]

theorem change_atomic_iff (ac : Admin) :
    ((a.change priv e ac).ok = false → (a.change priv e ac).admins.data = a.data) ↔
      e = none ∨ priv.adminChg = 0 ∨
        ∀ i admin, a.findIdx ac.login = some i → a.data[i]? = some admin →
          admin = { ac with ip := admin.ip } := by
  unfold change
  by_cases hpriv : priv.adminChg = 0#16
  · simp [hpriv]
  · cases hfind : a.findIdx ac.login with
    | none => simp [hpriv]
    | some i =>
      have hi := lt_of_findIdx hfind
      cases e with
      | none => simp [hpriv]
      | some e =>
        have hat := List.getElem?_eq_getElem hi
        have hpriv : ¬ priv.adminChg = 0 := hpriv
        simp only [hpriv, modify_eq_self_iff hi, if_false, Option.some.injEq, reduceCtorEq, false_or,
          Option.isNone_some, forall_const]
        constructor
        · rintro h j admin rfl hadmin
          obtain rfl : a.data[i] = admin := Option.some.inj (hat.symm.trans hadmin)
          exact h.symm
        · intro h
          exact (h i _ rfl hat).symm

end AdminsImpl

/-! ## The four registries -/

/-- The registries. -/
structure Registries where
  tariffs : TariffsImpl
  services : ServicesImpl
  corps : CorporationsImpl
  admins : AdminsImpl

/-- The operations of the registries, with the privileges of the administrator and the answer of the
store. -/
inductive RegistryOp
  | addTariff (priv : Priv) (storeError : Option String) (name : String)
  | delTariff (priv : Priv) (storeError : Option String) (name : String)
  | chgTariff (priv : Priv) (storeError : Option String) (td : TariffData)
  | addService (priv : Priv) (storeError : Option String) (conf : FullServiceConf)
  | delService (priv : Priv) (storeError : Option String) (name : String)
  | changeService (priv : Priv) (storeError : Option String) (conf : FullServiceConf)
  | addCorp (priv : Priv) (storeError : Option String) (conf : CorpConf)
  | delCorp (priv : Priv) (storeError : Option String) (name : String)
  | changeCorp (priv : Priv) (storeError : Option String) (conf : CorpConf)
  | addAdmin (priv : Priv) (storeError : Option String) (login : String)
  | delAdmin (priv : Priv) (storeError : Option String) (login : String)
  | changeAdmin (priv : Priv) (storeError : Option String) (conf : Admin)

namespace Registries

/-- An operation on one of the registries: whether it succeeds, and the registries afterwards. -/
def perform (r : Registries) : RegistryOp → Bool × Registries
  | .addTariff priv e n => (r.tariffs.add priv e n).map id ({ r with tariffs := · })
  | .delTariff priv e n => (r.tariffs.del priv e n).map id ({ r with tariffs := · })
  | .chgTariff priv e td => (r.tariffs.chg priv e td).map id ({ r with tariffs := · })
  | .addService priv e x => (r.services.add priv e x).map id ({ r with services := · })
  | .delService priv e n => (r.services.del priv e n).map id ({ r with services := · })
  | .changeService priv e x => (r.services.change priv e x).map id ({ r with services := · })
  | .addCorp priv e x => (r.corps.add priv e x).map id ({ r with corps := · })
  | .delCorp priv e n => (r.corps.del priv e n).map id ({ r with corps := · })
  | .changeCorp priv e x => (r.corps.change priv e x).map id ({ r with corps := · })
  | .addAdmin priv e l =>
    ((r.admins.add priv e l).ok, { r with admins := (r.admins.add priv e l).admins })
  | .delAdmin priv e l =>
    ((r.admins.del priv e l).ok, { r with admins := (r.admins.del priv e l).admins })
  | .changeAdmin priv e ac =>
    ((r.admins.change priv e ac).ok, { r with admins := (r.admins.change priv e ac).admins })

/-- One operation of a run. -/
def step (r : Registries) (op : RegistryOp) : Option Registries := some (r.perform op).2

/-- The entries of the registries. -/
def entries (r : Registries) :
    List TariffImpl × List FullServiceConf × List CorpConf × List Admin :=
  (r.tariffs.tariffs, r.services.data, r.corps.data, r.admins.data)

/-- The operation leaves the entries as they were if it fails. -/
def Atomic (r : Registries) (op : RegistryOp) : Prop :=
  (r.perform op).1 = false → (r.perform op).2.entries = r.entries

/-- The store does not fail, or the operation does not come so far that it asks the store, or it
would change nothing.  A tariff is deleted from the store first. -/
def Guard (r : Registries) : RegistryOp → Prop
  | .addTariff priv e n => e = none ∨ priv.tariffChg = 0 ∨ n ∈ r.tariffs.names
  | .delTariff _ _ _ => True
  | .chgTariff priv e td => e = none ∨ priv.tariffChg = 0 ∨
      ∀ i, r.tariffs.findIdx td.tariffConf.name = some i → r.tariffs.tariffs[i]? = some td
  | .addService priv e x => e = none ∨ priv.serviceChg = 0 ∨ name x ∈ r.services.names
  | .delService priv e n => e = none ∨ priv.serviceChg = 0 ∨ n ∉ r.services.names
  | .changeService priv e x => e = none ∨ priv.serviceChg = 0 ∨
      ∀ i, r.services.findIdx (name x) = some i → r.services.data[i]? = some x
  | .addCorp priv e x => e = none ∨ priv.corpChg = 0 ∨ name x ∈ r.corps.names
  | .delCorp priv e n => e = none ∨ priv.corpChg = 0 ∨ n ∉ r.corps.names
  | .changeCorp priv e x => e = none ∨ priv.corpChg = 0 ∨
      ∀ i, r.corps.findIdx (name x) = some i → r.corps.data[i]? = some x
  | .addAdmin priv e l => e = none ∨ priv.adminChg = 0 ∨ l ∈ r.admins.logins
  | .delAdmin priv e l => e = none ∨ priv.adminChg = 0 ∨ l ∉ r.admins.logins
  | .changeAdmin priv e ac => e = none ∨ priv.adminChg = 0 ∨
      ∀ i admin, r.admins.findIdx ac.login = some i → r.admins.data[i]? = some admin →
        admin = { ac with ip := admin.ip }

/-- **When one operation is atomic.** -/
theorem atomic_iff_guard (r : Registries) (op : RegistryOp) : r.Atomic op ↔ r.Guard op := by
  cases op with
  | addTariff priv e n =>
    rw [Guard, ← TariffsImpl.add_atomic_iff]
    simp [Atomic, perform, entries]
  | delTariff priv e n =>
    refine iff_of_true (fun h => ?_) trivial
    have hdel := TariffsImpl.del_atomic priv e r.tariffs n h
    simp [perform, entries, hdel]
  | chgTariff priv e td =>
    rw [Guard, ← TariffsImpl.chg_atomic_iff]
    simp [Atomic, perform, entries]
  | addService priv e x =>
    refine Iff.trans ?_ (ConfRegistry.add_atomic_iff priv e r.services x)
    simp [Atomic, perform, entries]
  | delService priv e n =>
    refine Iff.trans ?_ (ConfRegistry.del_atomic_iff priv e r.services n)
    simp [Atomic, perform, entries]
  | changeService priv e x =>
    refine Iff.trans ?_ (ConfRegistry.change_atomic_iff priv e r.services x)
    simp [Atomic, perform, entries]
  | addCorp priv e x =>
    refine Iff.trans ?_ (ConfRegistry.add_atomic_iff priv e r.corps x)
    simp [Atomic, perform, entries]
  | delCorp priv e n =>
    refine Iff.trans ?_ (ConfRegistry.del_atomic_iff priv e r.corps n)
    simp [Atomic, perform, entries]
  | changeCorp priv e x =>
    refine Iff.trans ?_ (ConfRegistry.change_atomic_iff priv e r.corps x)
    simp [Atomic, perform, entries]
  | addAdmin priv e l =>
    rw [Guard, ← AdminsImpl.add_atomic_iff]
    simp [Atomic, perform, entries]
  | delAdmin priv e l =>
    rw [Guard, ← AdminsImpl.del_atomic_iff]
    simp [Atomic, perform, entries]
  | changeAdmin priv e ac =>
    rw [Guard, ← AdminsImpl.change_atomic_iff]
    simp [Atomic, perform, entries]

end Registries

/-- **When all operations of a run are atomic.** From any state, a run of operations is one in which
every operation that fails leaves the entries as they were iff each of them meets the guard. -/
theorem registries_atomic_iff (r : Registries) (ops : List RegistryOp) :
    (∃ r', Transition.Reaches Registries.step Registries.Atomic r ops r') ↔
      ∃ r', Transition.Reaches Registries.step Registries.Guard r ops r' := by
  constructor
  · rintro ⟨r', h⟩
    exact ⟨r', h.mono fun s op hop => (s.atomic_iff_guard op).1 hop⟩
  · rintro ⟨r', h⟩
    exact ⟨r', h.mono fun s op hop => (s.atomic_iff_guard op).2 hop⟩

namespace Sample

/-- Registries without entries. -/
def noEntries : Registries := ⟨{}, {}, {}, {}⟩

/-- A service is added by an administrator with all privileges, and the disk is full. -/
def addToFullDisk : RegistryOp :=
  .addService Priv.full (some "disk full") ⟨⟨"tv", 5, 1⟩, ""⟩

end Sample

/-- The store refuses a new service; it is in the registry all the same. -/
theorem refused_service_stays :
    (Sample.noEntries.perform Sample.addToFullDisk).1 = false ∧
      (Sample.noEntries.perform Sample.addToFullDisk).2.services.data =
        [⟨⟨"tv", 5, 1⟩, ""⟩] ∧
      ¬ Sample.noEntries.Atomic Sample.addToFullDisk := by
  have hdata : (Sample.noEntries.perform Sample.addToFullDisk).2.services.data =
      [⟨⟨"tv", 5, 1⟩, ""⟩] := rfl
  refine ⟨rfl, hdata, fun h => ?_⟩
  have hentries := h rfl
  have hservices := congrArg (fun e => e.2.1) hentries
  change (Sample.noEntries.perform Sample.addToFullDisk).2.services.data = [] at hservices
  rw [hdata] at hservices
  cases hservices

end Stargazer
