import Mathlib.Algebra.Group.Nat.Defs
import Mathlib.Data.Char
import Mathlib.Data.List.Induction
import Mathlib.Data.List.Perm.Basic
import Stargazer.Lib.PrefixRange

set_option relaxedAutoImplicit false
set_option autoImplicit false

/-!
# The SNMP view

The plugin `SMUX` (`smux.cpp`, `handlers.cpp`, `tables.cpp`, `types.cpp`) shows the server to an SNMP
agent: a map from object identifiers to sensors.  Some sensors are there from the start; the rows of
the table of tariffs come and go.  An update collects the rows of all tables first, and only if none
of them fails it takes the old rows out of the map, by an equal range of the prefix of each table,
and puts the new ones in.

An object identifier is a list of numbers below `2 ^ 32`.  The map is ordered by `OID::operator<`,
the ranges are searched with `OID::PrefixLess`.  An error while the tariffs and the users are read
(`std::runtime_error`) is part of what an update finds.

## Main definitions

* `Stargazer.OID.lt`, `Stargazer.OID.prefixLess` — the comparisons.
* `Stargazer.Sensors`, `Stargazer.Smux.scalars` — the map, and the sensors that are always there.
* `Stargazer.Smux.updateSensors` — the rows of the table of tariffs.
* `Stargazer.Smux.updateTables`, `Stargazer.Smux.getNextRequest` — an update, a request.

## Main results

* `Stargazer.Smux.mem_updateTables` — what an update does to the map.
* `Stargazer.Smux.getNexts_eq` — a walk.
* `Stargazer.Smux.snmp_view` — the map after every run, and every walk.
-/

namespace Stargazer

/-- `OID`: the arcs. -/
abbrev OID := List ℕ

namespace OID

/-- `OID::operator<`. -/
def lt : OID → OID → Bool
  | a :: as, b :: bs => if a = b then lt as bs else decide (a < b)
  | [], _ :: _ => true
  | _, [] => false

/-- `OID::PrefixLess`. -/
def prefixLess (a b : OID) : Bool := PrefixRange.prefixLess a b

/-- **The order of identifiers is the lexicographic order**, which is total. -/
theorem lt_iff (a b : OID) : lt a b = true ↔ a < b := by
  induction a generalizing b with
  | nil => cases b <;> simp [lt]
  | cons x as ih =>
    cases b with
    | nil => simp [lt]
    | cons y bs =>
      rw [lt, List.cons_lt_cons_iff, ← ih]
      split_ifs with h
      · simp [h]
      · simp [h]

end OID

/-- The classes of sensors. -/
inductive Sensor
  /-- `TotalUsersSensor`. -/
  | totalUsers
  /-- `ConnectedUsersSensor`. -/
  | connectedUsers
  /-- `AuthorizedUsersSensor`. -/
  | authorizedUsers
  /-- `AlwaysOnlineUsersSensor`. -/
  | alwaysOnlineUsers
  /-- `NoCashUsersSensor`. -/
  | noCashUsers
  /-- `DisabledDetailStatsUsersSensor`. -/
  | disabledDetailStatsUsers
  /-- `DisabledUsersSensor`. -/
  | disabledUsers
  /-- `PassiveUsersSensor`. -/
  | passiveUsers
  /-- `CreditUsersSensor`. -/
  | creditUsers
  /-- `FreeMbUsersSensor`. -/
  | freeMbUsers
  /-- `TariffChangeUsersSensor`. -/
  | tariffChangeUsers
  /-- `ActiveUsersSensor`. -/
  | activeUsers
  /-- `TotalTariffsSensor`. -/
  | totalTariffs
  /-- `TotalAdminsSensor`. -/
  | totalAdmins
  /-- `TotalServicesSensor`. -/
  | totalServices
  /-- `TotalCorporationsSensor`. -/
  | totalCorporations
  /-- `TotalRulesSensor`. -/
  | totalRules
  /-- `ConstSensor<std::string>`. -/
  | constText (value : String)
  /-- `ConstSensor<unsigned long>`. -/
  | constNumber (value : ℕ)
  deriving DecidableEq

/-- `Sensors`. -/
abbrev Sensors := OrderedMap (id : OID → OID) Sensor

/-- What an update finds. -/
structure SmuxWorld where
  /-- The names of the tariffs. -/
  tariffs : List String
  /-- The names of the tariffs of the users, and whether a user is deleted. -/
  users : List (String × Bool)
  /-- The text of a `std::runtime_error` while these are read. -/
  error : Option String := none

namespace Smux

/-- `.1.3.6.1.4.1.38313.1`. -/
def root : OID := [1, 3, 6, 1, 4, 1, 38313, 1]

/-- The sensors of `SMUX::Start`. -/
def scalars : Sensors :=
  OrderedMap.empty.insertAll
    [(root ++ [1, 1], .totalUsers), (root ++ [1, 2], .connectedUsers),
      (root ++ [1, 3], .authorizedUsers), (root ++ [1, 4], .alwaysOnlineUsers),
      (root ++ [1, 5], .noCashUsers), (root ++ [1, 6], .disabledDetailStatsUsers),
      (root ++ [1, 7], .disabledUsers), (root ++ [1, 8], .passiveUsers),
      (root ++ [1, 9], .creditUsers), (root ++ [1, 10], .freeMbUsers),
      (root ++ [1, 11], .tariffChangeUsers), (root ++ [1, 12], .activeUsers),
      (root ++ [2, 1], .totalTariffs), (root ++ [3, 1], .totalAdmins),
      (root ++ [4, 1], .totalServices), (root ++ [5, 1], .totalCorporations),
      (root ++ [6, 1], .totalRules)]

/-- `.1.3.6.1.4.1.38313.1.2.2`, the prefix of the table of tariffs. -/
def tablePrefix : OID := root ++ [2, 2]

/-! ## The table of tariffs -/

/-- The map `data` of `TariffUsersTable::UpdateSensors`: the number of users of every tariff. -/
def tariffUsers (w : SmuxWorld) : OrderedMap String.toList ℕ :=
  let data : OrderedMap String.toList ℕ :=
    w.tariffs.foldl (fun data name => data.insertNew name 0) .empty
  w.users.foldl (fun data user =>
    if user.2 then data
    else
      match data.lookup user.1 with
      | none => data.insert user.1 1
      | some n => data.insert user.1 (n + 1)) data

/-- The last loop of `TariffUsersTable::UpdateSensors`; the index is an `unsigned int`. -/
def tableRows (data : List (String × ℕ)) : List (OID × Sensor) :=
  (data.zipIdx 1).flatMap fun ⟨d, idx⟩ =>
    [(tablePrefix ++ [2, idx % 2 ^ 32], .constText d.1),
      (tablePrefix ++ [3, idx % 2 ^ 32], .constNumber d.2)]

/-- `TariffUsersTable::UpdateSensors`. -/
def updateSensors (w : SmuxWorld) (sensors : Sensors) : Except String Sensors :=
  match w.error with
  | some what => .error what
  | none => .ok (sensors.insertAll (tableRows (tariffUsers w).entries))

/-- The tables of `SMUX::Start`, with their prefixes. -/
def tables : List (OID × (SmuxWorld → Sensors → Except String Sensors)) :=
  [(tablePrefix, updateSensors)]

/-- `SMUX::UpdateTables`, with its result. -/
def updateTables (w : SmuxWorld) (sensors : Sensors) : Bool × Sensors :=
  match tables.foldlM (fun new t => t.2 w new) OrderedMap.empty with
  | .error _ => (false, sensors)
  | .ok newSensors =>
    let sensors := tables.foldl (fun s t => s.eraseEqualRange OID.prefixLess t.1) sensors
    (true, newSensors.entries.foldl (fun s e => s.insertNew e.1 e.2) sensors)

/-! ## Requests -/

/-- The errors of requests. -/
inductive ErrorStatus
  /-- `noSuchName`. -/
  | noSuchName
  /-- `readOnly`. -/
  | readOnly
  deriving DecidableEq

/-- The answer to a request: variables with their sensors, or an error with the place of the variable
it is about. -/
inductive Response
  /-- `SendGetResponsePDU`. -/
  | values (l : List (OID × Sensor))
  /-- `SendGetResponseErrorPDU`. -/
  | error (status : ErrorStatus) (index : ℕ)
  deriving DecidableEq

/-- The loops of `GetRequestHandler` and `GetNextRequestHandler`; `find` is the search. -/
def requestLoop (find : OID → Option (OID × Sensor)) :
    ℕ → List OID → List (OID × Sensor) → Response
  | _, [], l => .values l
  | i, name :: names, l =>
    match find name with
    | none => .error .noSuchName i
    | some e => requestLoop find (i + 1) names (l ++ [e])

/-- `SMUX::GetRequestHandler`. -/
def getRequest (sensors : Sensors) (names : List OID) : Response :=
  requestLoop (fun name => sensors.entries.find? fun e => !OID.lt e.1 name && !OID.lt name e.1) 0
    names []

/-- `SMUX::GetNextRequestHandler`. -/
def getNextRequest (sensors : Sensors) (names : List OID) : Response :=
  requestLoop (sensors.upperBound OID.lt) 0 names []

/-- `SMUX::SetRequestHandler`. -/
def setRequest : Response := .error .readOnly 0

/-- What happens to the plugin. -/
inductive Op
  /-- A call of `UpdateTables`. -/
  | update (w : SmuxWorld)
  /-- A `GET`. -/
  | get (names : List OID)
  /-- A `GETNEXT`. -/
  | getNext (names : List OID)
  /-- A `SET`. -/
  | set (names : List OID)

/-- One step: the answer to a request, and the map. -/
def step (sensors : Sensors) : Op → Option Response × Sensors
  | .update w => (none, (updateTables w sensors).2)
  | .get names => (some (getRequest sensors names), sensors)
  | .getNext names => (some (getNextRequest sensors names), sensors)
  | .set _ => (some setRequest, sensors)

/-- The map after some steps. -/
def run (ops : List Op) : Sensors := ops.foldl (fun s op => (step s op).2) scalars

/-- The rows of the last update that was successful. -/
def lastRows (ops : List Op) : Sensors :=
  ops.foldl (fun rows op =>
    match op with
    | .update w =>
      match updateSensors w .empty with
      | .ok new => new
      | .error _ => rows
    | _ => rows) .empty

/-! ## Updates -/

theorem id_injective : Function.Injective (id : OID → OID) := Function.injective_id

/-- No sensor of the start is above or under the table. -/
theorem not_comparable_of_mem_scalars {e : OID × Sensor} (he : e ∈ scalars.entries) :
    ¬ PrefixRange.Comparable e.1 tablePrefix := by
  have hall : ∀ e ∈ scalars.entries, ¬ (e.1 <+: tablePrefix ∨ tablePrefix <+: e.1) := by
    decide +kernel
  exact hall e he

/-- The rows are under the prefix of the table. -/
theorem prefix_of_updateSensors {w : SmuxWorld} {new : Sensors}
    (h : updateSensors w .empty = .ok new) : ∀ e ∈ new.entries, tablePrefix <+: e.1 := by
  unfold updateSensors at h
  cases herror : w.error with
  | some what =>
    rw [herror] at h
    cases h
  | none =>
    rw [herror] at h
    obtain rfl := Except.ok.inj h
    have hrows : ∀ e ∈ tableRows (tariffUsers w).entries, tablePrefix <+: e.1 ∧ True := by
      intro e he
      obtain ⟨⟨d, idx⟩, -, he⟩ := List.mem_flatMap.mp he
      simp only [List.mem_cons, List.not_mem_nil, or_false] at he
      rcases he with rfl | rfl
      · exact ⟨List.prefix_append _ _, trivial⟩
      · exact ⟨List.prefix_append _ _, trivial⟩
    have hall := OrderedMap.forall_insertAll (Q := fun _ => True) hrows
      (m := (OrderedMap.empty : Sensors)) (by simp [OrderedMap.empty])
    exact fun e he => (hall e he).1

/-- The map consists of the sensors of the start and of rows under the prefix of the table. -/
def View (sensors rows : Sensors) : Prop :=
  (∀ e, e ∈ sensors.entries ↔ e ∈ scalars.entries ∨ e ∈ rows.entries) ∧
    ∀ e ∈ rows.entries, tablePrefix <+: e.1

theorem view_scalars : View scalars .empty := by
  constructor <;> simp [OrderedMap.empty]

/-- **A successful update** leaves the sensors of the start and the new rows.

**Proof sketch.** Neither a sensor of the start nor a row is a proper prefix of the prefix of the
table, so the range that is erased consists of the keys comparable with it, which are the old rows.
The new rows are under the prefix, so nothing else has their keys. -/
theorem mem_updateTables {sensors rows new : Sensors} {w : SmuxWorld} (h : View sensors rows)
    (hnew : updateSensors w .empty = .ok new) : View (updateTables w sensors).2 new := by
  have hpre := prefix_of_updateSensors hnew
  have hproper : ∀ e ∈ sensors.entries, e.1 <+: tablePrefix → e.1 = tablePrefix := by
    intro e he hc
    rcases (h.1 e).mp he with he | he
    · exact absurd (.inl hc) (not_comparable_of_mem_scalars he)
    · exact hc.eq_of_length_le (h.2 e he).length_le
  have herased : ∀ e, e ∈ (sensors.eraseEqualRange OID.prefixLess tablePrefix).entries ↔
      e ∈ scalars.entries := by
    intro e
    have hrange := OrderedMap.mem_eraseEqualRange hproper e
    refine hrange.trans ?_
    rw [h.1]
    constructor
    · rintro ⟨he | he, hc⟩
      · exact he
      · exact absurd (.inr (h.2 e he)) hc
    · exact fun he => ⟨.inl he, not_comparable_of_mem_scalars he⟩
  have hupdate : (updateTables w sensors).2 = new.entries.foldl (fun s e => s.insertNew e.1 e.2)
      (sensors.eraseEqualRange OID.prefixLess tablePrefix) := by
    simp [updateTables, tables, hnew]
  refine ⟨fun e => ?_, hpre⟩
  have hnodup : (new.entries.map Prod.fst).Nodup :=
    List.pairwise_map.mpr (new.sorted.imp ne_of_lt)
  rw [hupdate, OrderedMap.mem_foldl_insertNew id_injective hnodup, herased]
  intro e' he' hc
  obtain ⟨e'', he'', heq⟩ := List.mem_map.mp hc
  exact not_comparable_of_mem_scalars ((herased e').mp he') (.inr (heq ▸ hpre e'' he''))

/-- An update that fails changes nothing. -/
theorem updateTables_of_error {sensors : Sensors} {w : SmuxWorld} {what : String}
    (h : updateSensors w .empty = .error what) : updateTables w sensors = (false, sensors) := by
  simp [updateTables, tables, h]

/-- The map after every run. -/
theorem view_run (ops : List Op) : View (run ops) (lastRows ops) := by
  induction ops using List.reverseRecOn with
  | nil => exact view_scalars
  | append_singleton ops op ih =>
    rw [run, lastRows, List.foldl_append, List.foldl_append]
    cases op with
    | update w =>
      cases hnew : updateSensors w .empty with
      | error what =>
        simp only [List.foldl_cons, List.foldl_nil, step, hnew, updateTables_of_error hnew]
        exact ih
      | ok new =>
        simp only [List.foldl_cons, List.foldl_nil, step, hnew]
        exact mem_updateTables ih hnew
    | get names => exact ih
    | getNext names => exact ih
    | set names => exact ih

/-! ## Walks -/

/-- The answer to the `k`-th `GETNEXT` of a walk from an identifier. -/
def getNexts (sensors : Sensors) : ℕ → OID → Response
  | 0, name => getNextRequest sensors [name]
  | k + 1, name =>
    match getNextRequest sensors [name] with
    | .values [(name', _)] => getNexts sensors k name'
    | r => r

/-- The answer to one `GETNEXT`. -/
theorem getNextRequest_singleton (sensors : Sensors) (name : OID) :
    getNextRequest sensors [name] =
      match sensors.upperBound OID.lt name with
      | none => .error .noSuchName 0
      | some e => .values [e] := by
  simp only [getNextRequest, requestLoop]
  cases sensors.upperBound OID.lt name <;> rfl

/-- **A walk** gives the identifiers behind its start one after another, and then there is no such
name. -/
theorem getNexts_eq (sensors : Sensors) (k : ℕ) (name : OID) :
    getNexts sensors k name =
      match (sensors.entries.filter fun e => OID.lt name e.1)[k]? with
      | none => .error .noSuchName 0
      | some e => .values [e] := by
  induction k generalizing name with
  | zero =>
    rw [getNexts, getNextRequest_singleton, sensors.filter_less_eq OID.lt_iff]
    cases sensors.upperBound OID.lt name <;> rfl
  | succ k ih =>
    rw [getNexts, getNextRequest_singleton, sensors.filter_less_eq OID.lt_iff]
    cases sensors.upperBound OID.lt name with
    | none => rfl
    | some e => exact ih e.1

/-- **The SNMP view.** After every run of updates, failing or not, and requests, the map consists of
the sensors of the start and exactly the rows of the last successful update; and from every
identifier the walk through the map gives the identifiers behind it, each once and in lexicographic
order, and then reports that there is no such name. -/
theorem snmp_view (ops : List Op) :
    (run ops).entries.Perm (scalars.entries ++ (lastRows ops).entries) ∧
      (run ops).entries.Pairwise (fun e e' => e.1 < e'.1) ∧
      ∀ name k, getNexts (run ops) k name =
        match ((run ops).entries.filter fun e => OID.lt name e.1)[k]? with
        | none => .error .noSuchName 0
        | some e => .values [e] := by
  obtain ⟨hmem, hpre⟩ := view_run ops
  have hnodup : ∀ m : Sensors, m.entries.Nodup := by
    intro m
    refine m.sorted.imp fun {e e'} hlt heq => ?_
    rw [heq] at hlt
    exact lt_irrefl _ hlt
  refine ⟨?_, (run ops).sorted, fun name k => getNexts_eq (run ops) k name⟩
  rw [List.perm_ext_iff_of_nodup (hnodup _)]
  · simpa using hmem
  · refine List.Nodup.append (hnodup _) (hnodup _) fun e he he' => ?_
    exact not_comparable_of_mem_scalars he (.inr (hpre e he'))

end Smux

end Stargazer
