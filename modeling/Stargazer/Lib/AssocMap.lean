import Mathlib.Data.List.AList
import Mathlib.Algebra.BigOperators.Group.List.Basic
import Mathlib.Tactic.Abel

set_option relaxedAutoImplicit false
set_option autoImplicit false

/-!
# Association maps: values, traversal and sums

Operations on Mathlib's `AList` with a fixed value type that a program with ordered or hashed maps
needs: changing one value, changing all values in one traversal, dropping the entries that fail a
test, and summing a quantity over all entries.

## Main definitions

* `AList.mapVal`, `AList.adjust`, `AList.filterVal` — traversals.
* `AList.sumVal` — the sum of a quantity over the entries.

## Main results

* `AList.lookup_mapVal`, `AList.lookup_adjust`, `AList.lookup_filterVal` — what is found afterwards.
* `AList.mapVal_adjust`, `AList.mapVal_insert`, `AList.mapVal_filterVal` — a traversal commutes with
  the other operations.
* `AList.sumVal_insert`, `AList.sumVal_adjust` — how sums change.
-/

namespace AList

variable {α β γ : Type*}

/-- Replace every value by a function of key and value. -/
def mapVal (f : α → β → γ) (m : AList fun _ : α => β) : AList fun _ : α => γ :=
  ⟨m.entries.map (Sigma.map id f), List.NodupKeys.map₂ f m.entries m.nodupKeys⟩

/-- Keep the entries that pass a test. -/
def filterVal (p : α → β → Bool) (m : AList fun _ : α => β) : AList fun _ : α => β :=
  ⟨m.entries.filter fun e => p e.1 e.2, m.nodupKeys.sublist List.filter_sublist⟩

/-- Replace the value of one key, if it is there. -/
def adjust [DecidableEq α] (k : α) (f : β → β) (m : AList fun _ : α => β) : AList fun _ : α => β :=
  m.mapVal fun k' v => if k' = k then f v else v

/-- The sum of `f` over the entries. -/
def sumVal {M : Type*} [AddMonoid M] (f : α → β → M) (m : AList fun _ : α => β) : M :=
  (m.entries.map fun e => f e.1 e.2).sum

section Lookup

variable [DecidableEq α]

@[simp] theorem lookup_mapVal (f : α → β → γ) (m : AList fun _ : α => β) (k : α) :
    (m.mapVal f).lookup k = (m.lookup k).map (f k) :=
  List.dlookup_map₂ k

@[simp] theorem lookup_adjust (k : α) (f : β → β) (m : AList fun _ : α => β) (k' : α) :
    (m.adjust k f).lookup k' = if k' = k then (m.lookup k).map f else m.lookup k' := by
  unfold adjust
  rw [lookup_mapVal]
  split_ifs with h
  · subst h; simp
  · cases m.lookup k' <;> simp

@[simp] theorem lookup_filterVal (p : α → β → Bool) (m : AList fun _ : α => β) (k : α) :
    (m.filterVal p).lookup k = (m.lookup k).filter (p k) := by
  ext v
  rw [← Option.mem_def, ← Option.mem_def, mem_lookup_iff, Option.mem_filter_iff, mem_lookup_iff]
  simp [filterVal]

theorem adjust_of_lookup_eq_none {k : α} (f : β → β) {m : AList fun _ : α => β}
    (h : m.lookup k = none) : m.adjust k f = m := by
  apply AList.ext
  simp only [adjust, mapVal]
  refine (List.map_congr_left fun e he => ?_).trans (List.map_id m.entries)
  have hne : e.1 ≠ k := fun hk =>
    lookup_eq_none.mp h (hk ▸ List.mem_keys_of_mem he)
  simp [Sigma.map, hne]

@[simp] theorem erase_insert (k : α) (v : β) (m : AList fun _ : α => β) :
    (m.insert k v).erase k = m.erase k :=
  AList.ext (List.kerase_cons_eq rfl)

theorem mem_entries_iff {m : AList fun _ : α => β} {k : α} {v : β} :
    (⟨k, v⟩ : Σ _ : α, β) ∈ m.entries ↔ m.lookup k = some v := by
  rw [← mem_lookup_iff, Option.mem_def]

@[simp] theorem mem_adjust (k : α) (f : β → β) (m : AList fun _ : α => β) (k' : α) :
    k' ∈ m.adjust k f ↔ k' ∈ m := by
  rw [← lookup_isSome, ← lookup_isSome, lookup_adjust]
  split_ifs with h
  · subst h; simp
  · rfl

end Lookup

section Map

variable {δ : Type*}

theorem mapVal_mapVal (f : α → β → γ) (g : α → γ → δ) (m : AList fun _ : α => β) :
    (m.mapVal f).mapVal g = m.mapVal fun k v => g k (f k v) := by
  apply AList.ext
  simp only [mapVal, List.map_map]
  rfl

/-- A traversal commutes with dropping entries if it does not change the test. -/
theorem mapVal_filterVal {f : α → β → γ} {p : α → β → Bool} {q : α → γ → Bool}
    (h : ∀ k v, q k (f k v) = p k v) (m : AList fun _ : α => β) :
    (m.filterVal p).mapVal f = (m.mapVal f).filterVal q := by
  apply AList.ext
  simp only [mapVal, filterVal, List.filter_map]
  congr 1
  exact List.filter_congr fun e _ => (h e.1 e.2).symm

@[simp] theorem keys_mapVal (f : α → β → γ) (m : AList fun _ : α => β) :
    (m.mapVal f).keys = m.keys := by
  simp only [keys, mapVal, List.keys, List.map_map]
  rfl

variable [DecidableEq α]

/-- A traversal commutes with adjusting a value. -/
theorem mapVal_adjust {f : α → β → γ} {k : α} {g : β → β} {g' : γ → γ}
    (h : ∀ v, f k (g v) = g' (f k v)) (m : AList fun _ : α => β) :
    (m.adjust k g).mapVal f = (m.mapVal f).adjust k g' := by
  simp only [adjust, mapVal_mapVal]
  congr 1
  funext k' v
  split_ifs with hk
  · subst hk; exact h v
  · rfl

/-- A traversal commutes with inserting a new key. -/
theorem mapVal_insert (f : α → β → γ) {m : AList fun _ : α => β} {k : α} (v : β)
    (h : m.lookup k = none) : (m.insert k v).mapVal f = (m.mapVal f).insert k (f k v) := by
  apply AList.ext
  have h' : k ∉ m.mapVal f := by
    rw [← lookup_eq_none, lookup_mapVal, h]
    rfl
  rw [entries_insert_of_notMem h']
  simp only [mapVal, entries_insert_of_notMem (lookup_eq_none.mp h), List.map_cons]
  rfl

/-- Adjusting a value twice. -/
theorem adjust_adjust (k : α) (f g : β → β) (m : AList fun _ : α => β) :
    (m.adjust k f).adjust k g = m.adjust k fun v => g (f v) := by
  simp only [adjust, mapVal_mapVal]
  congr 1
  funext k' v
  split_ifs <;> rfl

/-- Adjusting the value of a new key. -/
theorem adjust_insert (f : β → β) {m : AList fun _ : α => β} {k : α} (v : β)
    (h : m.lookup k = none) : (m.insert k v).adjust k f = m.insert k (f v) := by
  have hrest : (m.mapVal fun k' v => if k' = k then f v else v) = m := adjust_of_lookup_eq_none f h
  unfold adjust
  rw [mapVal_insert _ _ h, if_pos rfl, hrest]

end Map

section Sum

variable {M : Type*} [AddCommMonoid M]

/-- A sum with one term taken out.

**Proof sketch.** The entries are, up to order, the entry of the key and the rest. -/
theorem sumVal_eq_add_erase [DecidableEq α] (f : α → β → M) {m : AList fun _ : α => β} {k : α}
    {v : β} (h : m.lookup k = some v) : m.sumVal f = f k v + (m.erase k).sumVal f := by
  have hk : k ∈ m.entries.keys := lookup_isSome.mp (by rw [h]; rfl)
  obtain ⟨b, l₁, l₂, h1, h2, h3⟩ := List.exists_of_kerase hk
  have hb : b = v := by
    have hd : m.entries.dlookup k = some b := by
      rw [h2, List.dlookup_append, List.dlookup_eq_none.mpr h1]
      simp
    exact Option.some.inj (hd.symm.trans h)
  have he : (m.erase k).entries = l₁ ++ l₂ := h3
  simp only [sumVal]
  rw [he, h2, hb]
  simp only [List.map_append, List.map_cons, List.sum_append, List.sum_cons]
  exact add_left_comm _ _ _

/-- How a sum changes when a new key is inserted. -/
theorem sumVal_insert [DecidableEq α] (f : α → β → M) {m : AList fun _ : α => β} {k : α} (v : β)
    (h : m.lookup k = none) : (m.insert k v).sumVal f = f k v + m.sumVal f := by
  simp only [sumVal, entries_insert_of_notMem (lookup_eq_none.mp h), List.map_cons, List.sum_cons]

/-- Adjusting a value does not touch the other entries. -/
theorem erase_adjust [DecidableEq α] (k : α) (f : β → β) (m : AList fun _ : α => β) :
    (m.adjust k f).erase k = m.erase k := by
  apply AList.ext
  have key : ∀ l : List (Σ _ : α, β), l.NodupKeys →
      (l.map (Sigma.map id fun k' v => if k' = k then f v else v)).kerase k = l.kerase k := by
    intro l
    induction l with
    | nil => intro _; rfl
    | cons e l ih =>
      intro hn
      rw [List.nodupKeys_cons] at hn
      by_cases he : e.1 = k
      · have hrest : ∀ e' ∈ l, Sigma.map id (fun k' v => if k' = k then f v else v) e' = e' := by
          intro e' he'
          have hne : e'.1 ≠ k := fun hc => hn.1 (he ▸ hc ▸ List.mem_keys_of_mem he')
          simp [Sigma.map, hne]
        rw [List.map_cons, List.kerase_cons_eq (by simp [Sigma.map, he]),
          List.kerase_cons_eq he.symm, List.map_congr_left hrest, List.map_id']
      · rw [List.map_cons, List.kerase_cons_ne (by simpa [Sigma.map] using Ne.symm he),
          List.kerase_cons_ne (Ne.symm he), ih hn.2]
        simp [Sigma.map, he]
  exact key m.entries m.nodupKeys

/-- How a sum changes when one value is adjusted. -/
theorem sumVal_adjust [DecidableEq α] (f : α → β → M) {m : AList fun _ : α => β} {k : α} {v : β}
    (g : β → β) (h : m.lookup k = some v) :
    (m.adjust k g).sumVal f + f k v = m.sumVal f + f k (g v) := by
  have h' : (m.adjust k g).lookup k = some (g v) := by simp [h]
  rw [sumVal_eq_add_erase f h', sumVal_eq_add_erase f h, erase_adjust]
  abel

end Sum

end AList
