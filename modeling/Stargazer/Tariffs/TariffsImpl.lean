import Stargazer.Lib.Run
import Stargazer.Users.UserImpl

set_option relaxedAutoImplicit false
set_option autoImplicit false

/-!
# The tariff registry and the users' references into it

`TariffsImpl` (`tariffs_impl.cpp`) keeps the tariffs in a `std::vector`; a user keeps the pointer
`FindByName` gave it when its configuration was read or its tariff was changed.  Such a pointer is
a place in the storage of the vector.  A `push_back` that exceeds the capacity moves the elements
to a new storage and leaves all pointers dangling, an `erase` shifts the elements behind the erased
one.

The storage is modelled by its number: `TariffPtr.slot gen i` is the `i`-th element of the storage
`gen`, and can be read only while that storage is the current one.

## Main definitions

* `Stargazer.TariffsImpl`, `Stargazer.TariffPtr`, `Stargazer.TariffsImpl.deref` — the registry and
  references into it.
* `Stargazer.TariffsImpl.findByName`, `Stargazer.TariffsImpl.add`, `Stargazer.TariffsImpl.del`,
  `Stargazer.TariffsImpl.chg`, `Stargazer.TariffsImpl.readTariffs` — its operations.
* `Stargazer.TariffSystem`, `Stargazer.TariffSystem.step` — registry and users together.
* `Stargazer.TariffSystem.Bound` — every user's reference denotes the tariff of its name.
* `Stargazer.TariffSystem.Guard` — the steps that keep all references.

## Main results

* `Stargazer.TariffSystem.exists_step_bound_iff` — a step keeps all users bound iff it meets the
  guard.
* `Stargazer.TariffSystem.maintains_bound_iff` — so does a run.
-/

namespace Stargazer

/-! ## The registry -/

/-- The value of a `const Tariff*`. -/
inductive TariffPtr
  /-- `NULL`. -/
  | null
  /-- The address of `noTariff`, which never moves. -/
  | noTariff
  /-- An element of the storage number `gen` of the vector. -/
  | slot (gen index : ℕ)
  deriving DecidableEq

/-- The tariff registry. -/
structure TariffsImpl where
  /-- The elements of the vector. -/
  tariffs : List TariffImpl := []
  /-- Its capacity. -/
  capacity : ℕ := 0
  /-- The number of its current storage. -/
  gen : ℕ := 0
  /-- The text of the last error. -/
  strError : String := ""

namespace TariffsImpl

/-- The object a pointer denotes, if there is one. -/
def deref (r : TariffsImpl) : TariffPtr → Option TariffImpl
  | .null => none
  | .noTariff => some (TariffImpl.ofName noTariffName)
  | .slot gen i => if gen = r.gen then r.tariffs[i]? else none

/-- `std::find` with `TariffImpl::operator==`, which compares names. -/
def findIdx (r : TariffsImpl) (name : String) : Option ℕ :=
  r.tariffs.findIdx? fun t => t.getName = name

/-- `TariffsImpl::FindByName`. -/
def findByName (r : TariffsImpl) (name : String) : TariffPtr :=
  if name = noTariffName then .noTariff
  else
    match r.findIdx name with
    | some i => .slot r.gen i
    | none => .null

/-- `std::vector::push_back`: without spare capacity the elements move to a new storage of twice
the size. -/
def pushBack (r : TariffsImpl) (t : TariffImpl) : TariffsImpl :=
  let n := r.tariffs.length
  if n < r.capacity then { r with tariffs := r.tariffs ++ [t] }
  else { r with tariffs := r.tariffs ++ [t], capacity := n + max n 1, gen := r.gen + 1 }

/-- `TariffsImpl::ReadTariffs`, for the tariffs the store gives. -/
def readTariffs (r : TariffsImpl) (tds : List TariffData) : TariffsImpl := tds.foldl pushBack r

/-- `TariffsImpl::Add`; `storeError` is what the store complains about, if it does.  The tariff is
in the vector by then.  The first component is the success of the call. -/
def add (priv : Priv) (storeError : Option String) (name : String) (r : TariffsImpl) :
    Bool × TariffsImpl :=
  if priv.tariffChg = 0 then (false, { r with strError := "Access denied." })
  else
    match r.findIdx name with
    | some _ => (false, { r with
        strError := "Tariff '" ++ name ++ "' cannot be added. Tariff already exist." })
    | none =>
      let r := r.pushBack (TariffImpl.ofName name)
      match storeError with
      | some e => (false, { r with strError := "Tariff " ++ name ++ " adding error. " ++ e })
      | none => (true, r)

/-- `TariffsImpl::Del`. -/
def del (priv : Priv) (storeError : Option String) (name : String) (r : TariffsImpl) :
    Bool × TariffsImpl :=
  if priv.tariffChg = 0 then (false, { r with strError := "Access denied." })
  else
    match r.findIdx name with
    | none => (false, { r with
        strError := "Tariff '" ++ name ++ "' cannot be deleted. Tariff does not exist." })
    | some i =>
      match storeError with
      | some _ => (false, r)
      | none => (true, { r with tariffs := r.tariffs.eraseIdx i })

/-- `TariffsImpl::Chg`. -/
def chg (priv : Priv) (storeError : Option String) (td : TariffData) (r : TariffsImpl) :
    Bool × TariffsImpl :=
  if priv.tariffChg = 0 then (false, { r with strError := "Access denied." })
  else
    match r.findIdx td.tariffConf.name with
    | none => (false, { r with strError :=
        "Tariff '" ++ td.tariffConf.name ++ "' cannot be changed. Tariff does not exist." })
    | some i => (storeError.isNone, { r with tariffs := r.tariffs.set i td })

/-! ### Names -/

/-- The names of the tariffs of the registry. -/
def names (r : TariffsImpl) : List String := r.tariffs.map TariffImpl.getName

/-- A name `FindByName` finds. -/
def Known (r : TariffsImpl) (name : String) : Prop := name = noTariffName ∨ name ∈ r.names

/-- What is found by name has that name. -/
theorem getName_of_findIdx {r : TariffsImpl} {name : String} {i : ℕ} (h : r.findIdx name = some i) :
    ∃ t, r.tariffs[i]? = some t ∧ t.getName = name := by
  obtain ⟨hi, hp, -⟩ := List.findIdx?_eq_some_iff_getElem.mp h
  exact ⟨r.tariffs[i], List.getElem?_eq_getElem hi, by simpa using hp⟩

/-- What is not found by name is not there. -/
theorem findIdx_eq_none {r : TariffsImpl} {name : String} :
    r.findIdx name = none ↔ name ∉ r.names := by
  unfold findIdx names
  rw [List.findIdx?_eq_none_iff]
  simp [eq_comm]

/-- A pointer given out by `FindByName` denotes a tariff of that name iff the name is known. -/
theorem deref_findByName_iff (r : TariffsImpl) (name : String) :
    (∃ t, r.deref (r.findByName name) = some t ∧ t.getName = name) ↔ r.Known name := by
  unfold findByName Known
  split_ifs with hno
  · subst hno
    simp [deref, TariffImpl.ofName, TariffImpl.getName]
  · cases h : r.findIdx name with
    | none =>
      have hn := findIdx_eq_none.mp h
      simp [deref, hno, hn]
    | some i =>
      have hn : name ∈ r.names := by
        by_contra hc
        rw [findIdx_eq_none.mpr hc] at h
        cases h
      obtain ⟨t, ht, htn⟩ := getName_of_findIdx h
      simp [deref, hno, hn, ht, htn]

@[simp] theorem names_pushBack (r : TariffsImpl) (t : TariffImpl) :
    (r.pushBack t).names = r.names ++ [t.getName] := by
  simp only [pushBack, names]
  split_ifs <;> simp

theorem names_readTariffs (tds : List TariffData) :
    ∀ r : TariffsImpl, (r.readTariffs tds).names = r.names ++ tds.map TariffImpl.getName := by
  induction tds with
  | nil => intro r; simp [readTariffs]
  | cons td tds ih =>
    intro r
    change ((r.pushBack td).readTariffs tds).names = _
    rw [ih, names_pushBack]
    simp

/-- Replacing a tariff by one of the same name keeps the names. -/
theorem names_set {r : TariffsImpl} {td : TariffData} {i : ℕ}
    (h : r.findIdx td.tariffConf.name = some i) :
    (r.tariffs.set i td).map TariffImpl.getName = r.names := by
  obtain ⟨t, ht, hn⟩ := getName_of_findIdx h
  have hi : i < r.tariffs.length := (List.getElem?_eq_some_iff.mp ht).1
  have hname : r.tariffs[i].getName = TariffImpl.getName td := by
    rw [List.getElem?_eq_getElem hi, Option.some.injEq] at ht
    rw [ht, hn]
    rfl
  have hi' : i < r.names.length := by simpa [names] using hi
  have hself : r.names.set i r.names[i] = r.names := List.set_getElem_self hi'
  rw [List.map_set, ← names]
  simpa [names, hname] using hself

end TariffsImpl

/-! ## Registry and users -/

/-- The two fields of a user that bind it to its tariff. -/
structure TariffBinding where
  /-- The name of the tariff. -/
  tariffName : String
  /-- The pointer `tariff`. -/
  tariff : TariffPtr
  deriving DecidableEq

/-- The registry and the users. -/
structure TariffSystem where
  /-- The registry. -/
  registry : TariffsImpl
  /-- The users. -/
  users : UserId → Option TariffBinding

/-- What can happen to the registry and the users. -/
inductive TariffAction
  /-- `TariffsImpl::Add`. -/
  | add (priv : Priv) (storeError : Option String) (name : String)
  /-- `TariffsImpl::Del`. -/
  | del (priv : Priv) (storeError : Option String) (name : String)
  /-- `TariffsImpl::Chg`. -/
  | chg (priv : Priv) (storeError : Option String) (td : TariffData)
  /-- `UserImpl::ReadConf` of a user whose stored tariff has the given name. -/
  | readConf (u : UserId) (name : String)
  /-- A change of the `tariffName` of a user, with the callback `onTariffChange`. -/
  | setTariffName (u : UserId) (name : String)

namespace TariffSystem

/-- The binding `ReadConf` and `onTariffChange` make. -/
def bind (r : TariffsImpl) (name : String) : TariffBinding := ⟨name, r.findByName name⟩

/-- One step. -/
def step (s : TariffSystem) : TariffAction → Option TariffSystem
  | .add priv e name => some { s with registry := (s.registry.add priv e name).2 }
  | .del priv e name => some { s with registry := (s.registry.del priv e name).2 }
  | .chg priv e td => some { s with registry := (s.registry.chg priv e td).2 }
  | .readConf u name =>
    some { s with users := Function.update s.users u (some (bind s.registry name)) }
  | .setTariffName u name =>
    match s.users u with
    | none => some s
    | some _ => some { s with users := Function.update s.users u (some (bind s.registry name)) }

/-- The server after `ReadTariffs`, before any user is read. -/
def initial (tds : List TariffData) : TariffSystem where
  registry := TariffsImpl.readTariffs {} tds
  users := fun _ => none

/-- Every user's pointer can be read and denotes the tariff of the user's `tariffName`. -/
def BoundTo (r : TariffsImpl) (users : UserId → Option TariffBinding) : Prop :=
  ∀ u b, users u = some b → ∃ t, r.deref b.tariff = some t ∧ t.getName = b.tariffName

/-- All users of the system are bound. -/
def Bound (s : TariffSystem) : Prop := BoundTo s.registry s.users

/-- All pointers of users into the vector are to elements with a property. -/
def Slots (users : UserId → Option TariffBinding) (p : ℕ → Prop) : Prop :=
  ∀ u b gen j, users u = some b → b.tariff = .slot gen j → p j

/-- The steps that keep the users bound: a tariff is added while the vector has spare capacity, or
while no user has a pointer into it; the deleted tariff stands behind all tariffs the users have;
the names given to users are known. -/
def Guard (s : TariffSystem) : TariffAction → Prop
  | .add priv _ name => priv.tariffChg = 0 ∨ name ∈ s.registry.names ∨
      s.registry.tariffs.length < s.registry.capacity ∨ Slots s.users fun _ => False
  | .del priv e name => priv.tariffChg = 0 ∨ e.isSome ∨
      ∀ i, s.registry.findIdx name = some i → Slots s.users fun j => j < i
  | .chg _ _ _ => True
  | .readConf _ name => s.registry.Known name
  | .setTariffName u name => s.users u = none ∨ s.registry.Known name

/-! ### What one step does to the bindings -/

section Bindings

variable {r r' : TariffsImpl} {users : UserId → Option TariffBinding}

/-- The error text plays no role. -/
theorem boundTo_congr (ht : r'.tariffs = r.tariffs) (hg : r'.gen = r.gen) :
    BoundTo r' users ↔ BoundTo r users := by
  have hd : ∀ p, r'.deref p = r.deref p := by
    intro p
    cases p <;> simp [TariffsImpl.deref, ht, hg]
  simp [BoundTo, hd]

/-- A bound user with a pointer into the vector: the pointer is to the current storage. -/
theorem BoundTo.slot (h : BoundTo r users) {u : UserId} {b : TariffBinding} {gen j : ℕ}
    (hu : users u = some b) (hb : b.tariff = .slot gen j) :
    gen = r.gen ∧ ∃ t, r.tariffs[j]? = some t ∧ t.getName = b.tariffName := by
  obtain ⟨t, ht, hn⟩ := h u b hu
  rw [hb] at ht
  simp only [TariffsImpl.deref] at ht
  split_ifs at ht with hg
  exact ⟨hg, t, ht, hn⟩

/-- To see that all users stay bound when the registry changes, look at the pointers into the
vector. -/
theorem BoundTo.transfer (h : BoundTo r users)
    (hslot : ∀ u b gen j, users u = some b → b.tariff = .slot gen j →
      ∃ t, r'.deref (.slot gen j) = some t ∧ t.getName = b.tariffName) : BoundTo r' users := by
  intro u b hu
  cases hb : b.tariff with
  | slot gen j => exact hslot u b gen j hu hb
  | null =>
    obtain ⟨t, ht, -⟩ := h u b hu
    rw [hb] at ht
    cases ht
  | noTariff =>
    obtain ⟨t, ht, hn⟩ := h u b hu
    rw [hb] at ht
    exact ⟨t, ht, hn⟩

/-- **Adding a tariff.** All users stay bound iff the vector does not move or nobody points into
it. -/
theorem boundTo_pushBack_iff (h : BoundTo r users) (t : TariffImpl) :
    BoundTo (r.pushBack t) users ↔
      r.tariffs.length < r.capacity ∨ Slots users fun _ => False := by
  by_cases hcap : r.tariffs.length < r.capacity
  · refine ⟨fun _ => .inl hcap, fun _ => h.transfer fun u b gen j hu hb => ?_⟩
    obtain ⟨hg, t', hj, hn⟩ := h.slot hu hb
    have hlt : j < r.tariffs.length := (List.getElem?_eq_some_iff.mp hj).1
    refine ⟨t', ?_, hn⟩
    simp [TariffsImpl.deref, TariffsImpl.pushBack, hcap, hg, List.getElem?_append_left hlt, hj]
  · refine ⟨fun h' => .inr fun u b gen j hu hb => ?_, fun h' => ?_⟩
    · obtain ⟨hg, -⟩ := h.slot hu hb
      obtain ⟨hg', -⟩ := h'.slot hu hb
      simp only [TariffsImpl.pushBack, if_neg hcap] at hg'
      omega
    · have hslots := h'.resolve_left hcap
      exact h.transfer fun u b gen j hu hb => (hslots u b gen j hu hb).elim

/-- **Deleting a tariff.** All users stay bound iff they point to elements before the erased one.

**Proof sketch.** An element before the erased one keeps its place.  A pointer to the erased
element or behind it now denotes the next element, if any, which has another name. -/
theorem boundTo_eraseIdx_iff (hnodup : r.names.Nodup) (h : BoundTo r users) (i : ℕ) :
    BoundTo { r with tariffs := r.tariffs.eraseIdx i } users ↔ Slots users fun j => j < i := by
  constructor
  · intro h' u b gen j hu hb
    by_contra hij
    obtain ⟨-, t, ht, htn⟩ := h.slot hu hb
    obtain ⟨-, t', ht', htn'⟩ := h'.slot hu hb
    rw [List.getElem?_eraseIdx, if_neg hij] at ht'
    have hj : r.names[j]? = some b.tariffName := by simp [TariffsImpl.names, ht, htn]
    have hj' : r.names[j + 1]? = some b.tariffName := by simp [TariffsImpl.names, ht', htn']
    have hlt : j < r.names.length := (List.getElem?_eq_some_iff.mp hj).1
    have := (List.nodup_iff_getElem?_ne_getElem?.mp hnodup) j (j + 1) (by omega)
      (List.getElem?_eq_some_iff.mp hj').1
    exact this (hj.trans hj'.symm)
  · intro hslots
    refine h.transfer fun u b gen j hu hb => ?_
    obtain ⟨hg, t, ht, htn⟩ := h.slot hu hb
    refine ⟨t, ?_, htn⟩
    simp [TariffsImpl.deref, hg, List.getElem?_eraseIdx, hslots u b gen j hu hb, ht]

/-- **Changing a tariff** in its place keeps all users bound. -/
theorem boundTo_set (h : BoundTo r users) {td : TariffData} {i : ℕ}
    (hi : r.findIdx td.tariffConf.name = some i) :
    BoundTo { r with tariffs := r.tariffs.set i td } users := by
  refine h.transfer fun u b gen j hu hb => ?_
  obtain ⟨hg, t, ht, htn⟩ := h.slot hu hb
  have hnames : ((r.tariffs.set i td).map TariffImpl.getName)[j]? = some b.tariffName := by
    rw [TariffsImpl.names_set hi]
    simp [TariffsImpl.names, ht, htn]
  rw [List.getElem?_map, Option.map_eq_some_iff] at hnames
  obtain ⟨t', ht', htn'⟩ := hnames
  exact ⟨t', by simp [TariffsImpl.deref, hg, ht'], htn'⟩

/-- **Binding a user** succeeds iff the name is known. -/
theorem boundTo_update_iff (h : BoundTo r users) (u : UserId) (name : String) :
    BoundTo r (Function.update users u (some (bind r name))) ↔ r.Known name := by
  rw [← r.deref_findByName_iff name]
  constructor
  · intro h'
    exact h' u (bind r name) (by simp)
  · intro hname v b hv
    by_cases hvu : v = u
    · subst hvu
      simp only [Function.update_self, Option.some.injEq] at hv
      subst hv
      exact hname
    · rw [Function.update_of_ne hvu] at hv
      exact h v b hv

end Bindings

/-! ### Runs -/

/-- What `Add` makes of the vector. -/
theorem add_cases (r : TariffsImpl) (priv : Priv) (e : Option String) (name : String) :
    ((priv.tariffChg = 0 ∨ name ∈ r.names) ∧ (r.add priv e name).2.tariffs = r.tariffs ∧
      (r.add priv e name).2.gen = r.gen) ∨
    (priv.tariffChg ≠ 0 ∧ name ∉ r.names ∧
      (r.add priv e name).2.tariffs = (r.pushBack (TariffImpl.ofName name)).tariffs ∧
      (r.add priv e name).2.gen = (r.pushBack (TariffImpl.ofName name)).gen) := by
  unfold TariffsImpl.add
  split_ifs with hp
  · exact .inl ⟨.inl hp, rfl, rfl⟩
  · cases hf : r.findIdx name with
    | some i =>
      have hmem : name ∈ r.names := by
        by_contra hc
        rw [TariffsImpl.findIdx_eq_none.mpr hc] at hf
        cases hf
      exact .inl ⟨.inr hmem, rfl, rfl⟩
    | none =>
      refine .inr ⟨hp, TariffsImpl.findIdx_eq_none.mp hf, ?_⟩
      cases e <;> exact ⟨rfl, rfl⟩

/-- What `Del` makes of the vector. -/
theorem del_cases (r : TariffsImpl) (priv : Priv) (e : Option String) (name : String) :
    ((priv.tariffChg = 0 ∨ e.isSome ∨ r.findIdx name = none) ∧
      (r.del priv e name).2.tariffs = r.tariffs ∧ (r.del priv e name).2.gen = r.gen) ∨
    (priv.tariffChg ≠ 0 ∧ e = none ∧ ∃ i, r.findIdx name = some i ∧
      (r.del priv e name).2 = { r with tariffs := r.tariffs.eraseIdx i }) := by
  unfold TariffsImpl.del
  split_ifs with hp
  · exact .inl ⟨.inl hp, rfl, rfl⟩
  · cases hf : r.findIdx name with
    | none => exact .inl ⟨.inr (.inr rfl), rfl, rfl⟩
    | some i =>
      cases e with
      | some _ => exact .inl ⟨.inr (.inl rfl), rfl, rfl⟩
      | none => exact .inr ⟨hp, rfl, i, rfl, rfl⟩

/-- What `Chg` makes of the vector. -/
theorem chg_cases (r : TariffsImpl) (priv : Priv) (e : Option String) (td : TariffData) :
    ((r.chg priv e td).2.tariffs = r.tariffs ∧ (r.chg priv e td).2.gen = r.gen) ∨
    (∃ i, r.findIdx td.tariffConf.name = some i ∧
      (r.chg priv e td).2 = { r with tariffs := r.tariffs.set i td }) := by
  unfold TariffsImpl.chg
  split_ifs with hp
  · exact .inl ⟨rfl, rfl⟩
  · cases hf : r.findIdx td.tariffConf.name with
    | none => exact .inl ⟨rfl, rfl⟩
    | some i => exact .inr ⟨i, rfl, rfl⟩

/-- The names of the registry stay distinct. -/
theorem names_nodup_step (s : TariffSystem) (a : TariffAction) (s' : TariffSystem)
    (h : s.registry.names.Nodup) (hs : s.step a = some s') : s'.registry.names.Nodup := by
  have hcongr : ∀ r' : TariffsImpl, r'.tariffs = s.registry.tariffs → r'.names.Nodup := by
    intro r' ht
    simpa [TariffsImpl.names, ht] using h
  cases a with
  | add priv e name =>
    simp only [step, Option.some.injEq] at hs
    subst hs
    rcases add_cases s.registry priv e name with ⟨-, ht, -⟩ | ⟨-, hname, ht, -⟩
    · exact hcongr _ ht
    · have hnames : (s.registry.add priv e name).2.names =
          (s.registry.pushBack (TariffImpl.ofName name)).names := by
        simp [TariffsImpl.names, ht]
      change (s.registry.add priv e name).2.names.Nodup
      rw [hnames, TariffsImpl.names_pushBack]
      exact List.concat_eq_append ▸ h.concat hname
  | del priv e name =>
    simp only [step, Option.some.injEq] at hs
    subst hs
    rcases del_cases s.registry priv e name with ⟨-, ht, -⟩ | ⟨-, -, i, -, hr⟩
    · exact hcongr _ ht
    · change (s.registry.del priv e name).2.names.Nodup
      rw [hr]
      exact h.sublist ((List.eraseIdx_sublist _ i).map _)
  | chg priv e td =>
    simp only [step, Option.some.injEq] at hs
    subst hs
    rcases chg_cases s.registry priv e td with ⟨ht, -⟩ | ⟨i, hi, hr⟩
    · exact hcongr _ ht
    · change (s.registry.chg priv e td).2.names.Nodup
      rw [hr, TariffsImpl.names, TariffsImpl.names_set hi]
      exact h
  | readConf u name =>
    simp only [step, Option.some.injEq] at hs
    subst hs
    exact h
  | setTariffName u name =>
    simp only [step] at hs
    split at hs <;> cases hs <;> exact h

/-- **Exactness of one step.** From a state in which all users are bound and the names of the
registry are distinct, a step leads to a state with all users bound iff it meets the guard. -/
theorem exists_step_bound_iff (s : TariffSystem) (a : TariffAction)
    (hnodup : s.registry.names.Nodup) (h : s.Bound) :
    (∃ s', s.step a = some s' ∧ s'.Bound) ↔ s.Guard a := by
  cases a with
  | add priv e name =>
    simp only [step, Option.some.injEq, exists_eq_left', Bound, Guard]
    rcases add_cases s.registry priv e name with ⟨hno, ht, hg⟩ | ⟨hp, hname, ht, hg⟩
    · rw [boundTo_congr ht hg]
      refine ⟨fun _ => ?_, fun _ => h⟩
      rcases hno with hp | hname
      · exact .inl hp
      · exact .inr (.inl hname)
    · rw [boundTo_congr ht hg, boundTo_pushBack_iff h, or_iff_right hp, or_iff_right hname]
  | del priv e name =>
    simp only [step, Option.some.injEq, exists_eq_left', Bound, Guard]
    rcases del_cases s.registry priv e name with ⟨hno, ht, hg⟩ | ⟨hp, he, i, hi, hr⟩
    · rw [boundTo_congr ht hg]
      refine ⟨fun _ => ?_, fun _ => h⟩
      rcases hno with hp | he | hf
      · exact .inl hp
      · exact .inr (.inl he)
      · refine .inr (.inr fun i hi => ?_)
        rw [hf] at hi
        cases hi
    · rw [hr, boundTo_eraseIdx_iff hnodup h, or_iff_right hp]
      simp [he, hi]
  | chg priv e td =>
    simp only [step, Option.some.injEq, exists_eq_left', Bound, Guard, iff_true]
    rcases chg_cases s.registry priv e td with ⟨ht, hg⟩ | ⟨i, hi, hr⟩
    · rw [boundTo_congr ht hg]
      exact h
    · rw [hr]
      exact boundTo_set h hi
  | readConf u name =>
    simp only [step, Option.some.injEq, exists_eq_left', Bound, Guard]
    exact boundTo_update_iff h u name
  | setTariffName u name =>
    simp only [step, Guard]
    cases hu : s.users u with
    | none => simpa using h
    | some b =>
      simp only [Option.some.injEq, exists_eq_left', Bound, reduceCtorEq, false_or]
      exact boundTo_update_iff h u name

/-- **Tariff binding.** Start the server with tariffs of distinct names and perform any additions,
deletions and changes of tariffs, whatever the privileges and the answers of the store, any
`ReadConf` and any changes of `tariffName`: every user's pointer is valid and denotes the tariff of
the user's `tariffName` in every state, exactly if every step meets the guard.

**Proof sketch.** The exactness rule for runs with `exists_step_bound_iff`. -/
theorem maintains_bound_iff (tds : List TariffData)
    (hnames : (tds.map TariffImpl.getName).Nodup) (as : List TariffAction) :
    Transition.Maintains step Bound (initial tds) as ↔
      ∃ s, Transition.Reaches step Guard (initial tds) as s := by
  apply Transition.maintains_iff_reaches (A := fun s => s.registry.names.Nodup)
  · exact fun s a s' h _ hs => names_nodup_step s a s' h hs
  · exact exists_step_bound_iff
  · rw [initial, TariffsImpl.names_readTariffs]
    simpa [TariffsImpl.names] using hnames
  · intro u b hu
    cases hu

/-- A second tariff is added to a registry with one, a user is read and bound to it, and the first
tariff is changed: the user stays bound. -/
theorem maintains_bound_sample :
    Transition.Maintains step Bound (initial [Sample.tariff])
      [.add Priv.full none "b", .readConf 0 "b", .chg Priv.full none Sample.tariff] := by
  refine (maintains_bound_iff _ (by decide) _).mpr ⟨_, .cons ?_ rfl (.cons ?_ rfl
    (.cons trivial rfl (.nil _)))⟩
  · exact .inr (.inr (.inr fun u b gen j hu => by cases hu))
  · exact .inr (by decide +kernel)

/-- Two ways to lose a tariff.  Of the tariffs `a`, `b`, `c` the unused `a` is deleted: the pointer
of a user with tariff `b` denotes `c`, or nothing if the user has the last tariff.  A second tariff
is added to a registry with one: the pointer of the user with the first tariff dangles. -/
theorem pointer_lost :
    let abc := initial [TariffImpl.ofName "a", TariffImpl.ofName "b", TariffImpl.ofName "c"]
    ((abc.step (.readConf 0 "b")).bind fun s => s.step (.del Priv.full none "a")).map
        (fun s => (s.users 0).map fun b => (b.tariffName, (s.registry.deref b.tariff).map
          TariffImpl.getName)) = some (some ("b", some "c")) ∧
    ¬ Transition.Maintains step Bound abc [.readConf 0 "b", .del Priv.full none "a"] ∧
    ¬ Transition.Maintains step Bound (initial [TariffImpl.ofName "a"])
        [.readConf 0 "a", .add Priv.full none "b"] := by
  refine ⟨by decide +kernel, ?_, ?_⟩
  · rintro ⟨-, s1, hs1, -, s2, hs2, hbound⟩
    simp only [step, Option.some.injEq] at hs1 hs2
    subst hs1 hs2
    obtain ⟨t, ht, hn⟩ := hbound 0 ⟨"b", .slot 3 1⟩ (by decide +kernel)
    have hc : t = TariffImpl.ofName "c" := by
      have : some t = some (TariffImpl.ofName "c") := ht.symm.trans (by decide +kernel)
      exact Option.some.inj this
    subst hc
    revert hn
    decide
  · rintro ⟨-, s1, hs1, -, s2, hs2, hbound⟩
    simp only [step, Option.some.injEq] at hs1 hs2
    subst hs1 hs2
    obtain ⟨t, ht, -⟩ := hbound 0 ⟨"a", .slot 1 0⟩ (by decide +kernel)
    exact Option.ne_none_iff_exists'.mpr ⟨t, ht⟩ (by decide +kernel)

end TariffSystem

/-- The value model of a user (`Stargazer.UserImpl`) keeps what its pointer denotes: a change of
`tariffName` leaves the tariff the new binding denotes. -/
theorem UserImpl.setTariffName_tariff (env : Env) (r : TariffsImpl) (name : String) (u : UserImpl)
    (henv : ∀ n, env.tariffs n = r.deref (r.findByName n)) :
    (u.setTariffName env name).tariff = r.deref (TariffSystem.bind r name).tariff ∧
      (u.setTariffName env name).tariffName = (TariffSystem.bind r name).tariffName := by
  refine ⟨?_, rfl⟩
  simp only [UserImpl.setTariffName, UserImpl.onTariffChange, TariffSystem.bind, ← henv]
  split_ifs <;> simp [UserImpl.connect, UserImpl.writeSession] <;> split_ifs <;> rfl

end Stargazer
