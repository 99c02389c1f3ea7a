import Mathlib.Data.List.Nodup
import Mathlib.Data.List.Pairwise
import Mathlib.Logic.Function.Basic
import Mathlib.Order.Lattice

set_option relaxedAutoImplicit false
set_option autoImplicit false

/-!
# Maps ordered by a function of the key

The ordered map of a standard library takes a comparison of keys, under which different keys may be
equivalent.  Such a map is a list of entries in strict order of a function `key`; an entry found by
an equivalent key gets a new value and keeps its own key.

## Main definitions

* `OrderedMap` — maps, `OrderedMap.insert`, `OrderedMap.lookup` — their operations.
* `OrderedMap.insertNew` — insertion of a key that is not there.
* `OrderedMap.insertAll` — many insertions, one after another.
* `OrderedMap.mapVal` — change all values.

## Main results

* `OrderedMap.lookup_insert`, `OrderedMap.lookup_insertAll` — what is found after insertions.
* `OrderedMap.mem_entries_iff_lookup` — the entries are what is found.
* `OrderedMap.insertAll_entries` — inserting the entries of a map into an empty one rebuilds it.
-/

/-- A map whose entries are in strict order of a function of their keys. -/
structure OrderedMap {κ γ : Type} [LinearOrder γ] (key : κ → γ) (β : Type) where
  /-- The entries. -/
  entries : List (κ × β)
  /-- They are in order. -/
  sorted : entries.Pairwise fun e e' => key e.1 < key e'.1

namespace OrderedMap

variable {κ γ β δ : Type} [LinearOrder γ] {key : κ → γ}

/-- Insertion into the list of entries. -/
def insertEntry (key : κ → γ) (k : κ) (v : β) : List (κ × β) → List (κ × β)
  | [] => [(k, v)]
  | e :: l =>
    if key k < key e.1 then (k, v) :: e :: l
    else if key e.1 < key k then e :: insertEntry key k v l
    else (e.1, v) :: l

/-- Where an entry after an insertion comes from. -/
theorem mem_insertEntry {k : κ} {v : β} {l : List (κ × β)} {e : κ × β}
    (h : e ∈ insertEntry key k v l) :
    e ∈ l ∨ e.2 = v ∧ (e.1 = k ∨ ∃ e' ∈ l, e'.1 = e.1 ∧ key e.1 = key k) := by
  induction l with
  | nil =>
    obtain rfl := List.mem_singleton.mp h
    exact .inr ⟨rfl, .inl rfl⟩
  | cons a l ih =>
    rw [insertEntry] at h
    split_ifs at h with hlt hgt
    · rcases List.mem_cons.mp h with rfl | h
      · exact .inr ⟨rfl, .inl rfl⟩
      · exact .inl h
    · rcases List.mem_cons.mp h with rfl | h
      · exact .inl List.mem_cons_self
      · rcases ih h with h | ⟨hv, hk | ⟨e', he', heq⟩⟩
        · exact .inl (List.mem_cons_of_mem _ h)
        · exact .inr ⟨hv, .inl hk⟩
        · exact .inr ⟨hv, .inr ⟨e', List.mem_cons_of_mem _ he', heq⟩⟩
    · rcases List.mem_cons.mp h with rfl | h
      · exact .inr ⟨rfl, .inr ⟨a, List.mem_cons_self, rfl,
          le_antisymm (not_lt.mp hlt) (not_lt.mp hgt)⟩⟩
      · exact .inl (List.mem_cons_of_mem _ h)

/-- The key of an entry after an insertion is equivalent to the inserted key, or it was there. -/
theorem key_of_mem_insertEntry {k : κ} {v : β} {l : List (κ × β)} {e : κ × β}
    (h : e ∈ insertEntry key k v l) : key e.1 = key k ∨ ∃ e' ∈ l, e'.1 = e.1 := by
  rcases mem_insertEntry h with h | ⟨-, rfl | ⟨-, -, -, h⟩⟩
  · exact .inr ⟨e, h, rfl⟩
  · exact .inl rfl
  · exact .inl h

/-- Insertion keeps the order. -/
theorem pairwise_insertEntry (k : κ) (v : β) {l : List (κ × β)}
    (h : l.Pairwise fun e e' => key e.1 < key e'.1) :
    (insertEntry key k v l).Pairwise fun e e' => key e.1 < key e'.1 := by
  induction l with
  | nil => exact List.pairwise_singleton _ _
  | cons a l ih =>
    obtain ⟨ha, hl⟩ := List.pairwise_cons.mp h
    rw [insertEntry]
    split_ifs with hlt hgt
    · refine List.pairwise_cons.mpr ⟨fun e he => ?_, h⟩
      rcases List.mem_cons.mp he with rfl | he
      · exact hlt
      · exact lt_trans hlt (ha e he)
    · refine List.pairwise_cons.mpr ⟨fun e he => ?_, ih hl⟩
      rcases key_of_mem_insertEntry he with hk | ⟨e', he', hk⟩
      · exact hk ▸ hgt
      · exact hk ▸ ha e' he'
    · exact List.pairwise_cons.mpr ⟨ha, hl⟩

/-- The map without entries. -/
def empty : OrderedMap key β := ⟨[], List.Pairwise.nil⟩

/-- `m[k] = v`. -/
def insert (m : OrderedMap key β) (k : κ) (v : β) : OrderedMap key β :=
  ⟨insertEntry key k v m.entries, pairwise_insertEntry k v m.sorted⟩

/-- Insertions one after another. -/
def insertAll (m : OrderedMap key β) (l : List (κ × β)) : OrderedMap key β :=
  l.foldl (fun m e => m.insert e.1 e.2) m

/-- `m.insert({k, v})` of the C++ library, which leaves a key that is there alone. -/
def insertNew (m : OrderedMap key β) (k : κ) (v : β) : OrderedMap key β :=
  if (m.entries.find? fun e => key e.1 = key k).isSome then m else m.insert k v

/-- The value of a key. -/
def lookup (m : OrderedMap key β) (k : κ) : Option β :=
  (m.entries.find? fun e => key e.1 = key k).map Prod.snd

/-- Change all values. -/
def mapVal (f : β → δ) (m : OrderedMap key β) : OrderedMap key δ :=
  ⟨m.entries.map fun e => (e.1, f e.2), by
    rw [List.pairwise_map]
    exact m.sorted⟩

@[ext] theorem ext {m m' : OrderedMap key β} (h : m.entries = m'.entries) : m = m' := by
  cases m
  cases m'
  congr

@[simp] theorem lookup_empty (k : κ) : (empty : OrderedMap key β).lookup k = none := rfl

/-- The search for a key after an insertion. -/
theorem find?_insertEntry (k k' : κ) (v : β) (l : List (κ × β)) :
    ((insertEntry key k v l).find? fun e => key e.1 = key k').map Prod.snd =
      if key k' = key k then some v else (l.find? fun e => key e.1 = key k').map Prod.snd := by
  induction l with
  | nil => by_cases h : key k' = key k <;> simp [insertEntry, h, Ne.symm]
  | cons a l ih =>
    rw [insertEntry]
    rcases lt_trichotomy (key k) (key a.1) with hlt | heq | hgt
    · rw [if_pos hlt]
      by_cases h : key k' = key k
      · simp [h]
      · rw [List.find?_cons_of_neg (by simpa using Ne.symm h), if_neg h]
    · rw [if_neg (heq ▸ lt_irrefl _), if_neg (heq ▸ lt_irrefl _)]
      by_cases h : key k' = key k
      · simp [h, heq]
      · have ha : key a.1 ≠ key k' := heq ▸ Ne.symm h
        rw [List.find?_cons_of_neg (by simpa using ha), List.find?_cons_of_neg (by simpa using ha),
          if_neg h]
    · rw [if_neg (not_lt_of_gt hgt), if_pos hgt]
      by_cases ha : key a.1 = key k'
      · have h : key k' ≠ key k := ha ▸ ne_of_lt hgt
        simp [ha, h]
      · rw [List.find?_cons_of_neg (by simpa using ha), List.find?_cons_of_neg (by simpa using ha),
          ih]

/-- **What is found after an insertion.** -/
@[simp] theorem lookup_insert (m : OrderedMap key β) (k k' : κ) (v : β) :
    (m.insert k v).lookup k' = if key k' = key k then some v else m.lookup k' :=
  find?_insertEntry k k' v m.entries

/-- What is found stands in the map. -/
theorem mem_of_lookup {m : OrderedMap key β} {k : κ} {v : β} (h : m.lookup k = some v) :
    ∃ e ∈ m.entries, e.2 = v := by
  obtain ⟨e, he, hv⟩ := Option.map_eq_some_iff.mp h
  exact ⟨e, List.mem_of_find?_eq_some he, hv⟩

@[simp] theorem lookup_mapVal (f : β → δ) (m : OrderedMap key β) (k : κ) :
    (m.mapVal f).lookup k = (m.lookup k).map f := by
  simp only [lookup, mapVal, List.find?_map, Option.map_map]
  rfl

/-- **The entries are what is found**, if keys are only equivalent to themselves. -/
theorem mem_entries_iff_lookup (hkey : Function.Injective key) (m : OrderedMap key β) (e : κ × β) :
    e ∈ m.entries ↔ m.lookup e.1 = some e.2 := by
  constructor
  · intro he
    cases hfind : m.entries.find? fun e' => key e'.1 = key e.1 with
    | none => simpa using List.find?_eq_none.mp hfind e he
    | some e' =>
      have hk : key e'.1 = key e.1 := by simpa using List.find?_some hfind
      have hnodup : (m.entries.map fun e => key e.1).Nodup :=
        List.pairwise_map.mpr (m.sorted.imp ne_of_lt)
      have heq : e' = e :=
        List.inj_on_of_nodup_map hnodup (List.mem_of_find?_eq_some hfind) he hk
      rw [lookup, hfind, heq]
      rfl
  · intro h
    obtain ⟨e', he', hv⟩ := Option.map_eq_some_iff.mp h
    have hk : e'.1 = e.1 := hkey (by simpa using List.find?_some he')
    have heq : e' = e := Prod.ext hk hv
    exact heq ▸ List.mem_of_find?_eq_some he'

/-- The entries after insertions of new keys, which are distinct. -/
theorem mem_foldl_insertNew (hkey : Function.Injective key) {l : List (κ × β)}
    (hl : (l.map Prod.fst).Nodup) (m : OrderedMap key β)
    (hnew : ∀ e ∈ m.entries, e.1 ∉ l.map Prod.fst) (e : κ × β) :
    e ∈ (l.foldl (fun m e => m.insertNew e.1 e.2) m).entries ↔ e ∈ m.entries ∨ e ∈ l := by
  induction l generalizing m with
  | nil => simp
  | cons a l ih =>
    rw [List.map_cons, List.nodup_cons] at hl
    have ha : ∀ e ∈ m.entries, e.1 ≠ a.1 := fun e he heq => by simpa [heq] using hnew e he
    have hinsert : m.insertNew a.1 a.2 = m.insert a.1 a.2 := by
      refine if_neg fun hsome => ?_
      obtain ⟨e', he'⟩ := Option.isSome_iff_exists.mp hsome
      exact ha e' (List.mem_of_find?_eq_some he') (hkey (by simpa using List.find?_some he'))
    have hmem : ∀ e, e ∈ (m.insert a.1 a.2).entries ↔ e = a ∨ e ∈ m.entries := by
      intro e
      rw [mem_entries_iff_lookup hkey, lookup_insert, mem_entries_iff_lookup hkey]
      by_cases hk : e.1 = a.1
      · have hnone : m.lookup e.1 ≠ some e.2 := fun h =>
          ha e ((mem_entries_iff_lookup hkey m e).mpr h) hk
        simp [hk, Prod.ext_iff, eq_comm (a := a.2), hk ▸ hnone]
      · simp [hkey.eq_iff, hk, Prod.ext_iff]
    rw [List.foldl_cons, hinsert, ih hl.2]
    · rw [hmem, List.mem_cons, or_assoc, or_left_comm]
    · intro e he
      rcases (hmem e).mp he with rfl | he
      · exact hl.1
      · exact fun hc => hnew e he (List.mem_cons_of_mem _ hc)

/-- A property of keys and one of values hold for all entries after an insertion. -/
theorem forall_insert {P : κ → Prop} {Q : β → Prop} {m : OrderedMap key β} {k : κ} {v : β}
    (hm : ∀ e ∈ m.entries, P e.1 ∧ Q e.2) (hk : P k) (hv : Q v) :
    ∀ e ∈ (m.insert k v).entries, P e.1 ∧ Q e.2 := by
  intro e he
  rcases mem_insertEntry he with he | ⟨rfl, rfl | ⟨e', he', hk', -⟩⟩
  · exact hm e he
  · exact ⟨hk, hv⟩
  · exact ⟨hk' ▸ (hm e' he').1, hv⟩

theorem forall_insertAll {P : κ → Prop} {Q : β → Prop} {l : List (κ × β)}
    (hl : ∀ e ∈ l, P e.1 ∧ Q e.2) {m : OrderedMap key β} (hm : ∀ e ∈ m.entries, P e.1 ∧ Q e.2) :
    ∀ e ∈ (m.insertAll l).entries, P e.1 ∧ Q e.2 := by
  induction l generalizing m with
  | nil => exact hm
  | cons a l ih =>
    have ha := hl a List.mem_cons_self
    exact ih (fun e he => hl e (List.mem_cons_of_mem _ he)) (forall_insert hm ha.1 ha.2)

/-- A key that is not equivalent to an inserted one keeps its value. -/
theorem lookup_insertAll_of_notMem {l : List (κ × β)} {k : κ}
    (h : key k ∉ l.map fun e => key e.1) (m : OrderedMap key β) :
    (m.insertAll l).lookup k = m.lookup k := by
  induction l generalizing m with
  | nil => rfl
  | cons a l ih =>
    rw [List.map_cons, List.mem_cons, not_or] at h
    change ((m.insert a.1 a.2).insertAll l).lookup k = _
    rw [ih h.2, lookup_insert, if_neg h.1]

/-- **What is found after insertions** of keys no two of which are equivalent. -/
theorem lookup_insertAll {l : List (κ × β)} (hl : (l.map fun e => key e.1).Nodup) {e : κ × β}
    (he : e ∈ l) {k : κ} (hk : key k = key e.1) (m : OrderedMap key β) :
    (m.insertAll l).lookup k = some e.2 := by
  induction l generalizing m with
  | nil => cases he
  | cons a l ih =>
    obtain ⟨ha, hl⟩ := List.nodup_cons.mp hl
    change ((m.insert a.1 a.2).insertAll l).lookup k = _
    rcases List.mem_cons.mp he with rfl | he
    · rw [lookup_insertAll_of_notMem (hk ▸ ha), lookup_insert, if_pos hk]
    · exact ih hl he _

/-- Inserting a key behind all others appends. -/
theorem insertEntry_append {k : κ} {v : β} {l : List (κ × β)} (h : ∀ e ∈ l, key e.1 < key k) :
    insertEntry key k v l = l ++ [(k, v)] := by
  induction l with
  | nil => rfl
  | cons a l ih =>
    have ha := h a List.mem_cons_self
    rw [insertEntry, if_neg (not_lt_of_gt ha), if_pos ha,
      ih fun e he => h e (List.mem_cons_of_mem _ he)]
    rfl

/-- **Rebuilding a map.** Inserting the entries of a map into the empty map gives the map. -/
theorem insertAll_entries (m : OrderedMap key β) : empty.insertAll m.entries = m := by
  have hrest : ∀ (l : List (κ × β)) (m' : OrderedMap key β),
      (m'.entries ++ l).Pairwise (fun e e' => key e.1 < key e'.1) →
        (m'.insertAll l).entries = m'.entries ++ l := by
    intro l
    induction l with
    | nil =>
      intro m' _
      simp [insertAll]
    | cons a l ih =>
      intro m' hp
      have hlast : (m'.insert a.1 a.2).entries = m'.entries ++ [a] := by
        refine insertEntry_append fun e he => ?_
        exact (List.pairwise_append.mp hp).2.2 e he a List.mem_cons_self
      change ((m'.insert a.1 a.2).insertAll l).entries = _
      rw [ih _ (by simpa [hlast] using hp), hlast]
      simp
  ext1
  exact hrest m.entries empty m.sorted

end OrderedMap
