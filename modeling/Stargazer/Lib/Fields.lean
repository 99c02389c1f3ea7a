import Mathlib.Data.List.Nodup

set_option relaxedAutoImplicit false
set_option autoImplicit false

/-!
# Records by their fields

A record whose fields are known by their names, each with values of its own type.  Setting a field
leaves the other ones as they are.

## Main definitions

* `Fields` — the fields of a record.
* `Fields.putAll` — fields that are set one after another.
* `Fields.modifyAll` — changes of fields one after another; `Fields.changesOf` — those of one field.

## Main results

* `Fields.value_putAll_of_mem`, `Fields.value_putAll_of_notMem` — what a field holds after that.
* `Fields.value_modifyAll` — a field is changed by its own changes only.
-/

/-- The fields of a record: what they hold, and what setting one of them does. -/
structure Fields (ι : Type*) (V : ι → Type*) (S : Type*) where
  value : (f : ι) → S → V f
  put : (f : ι) → V f → S → S
  /-- The field that is set. -/
  value_put : ∀ f v s, value f (put f v s) = v
  /-- Another field. -/
  value_put_of_ne : ∀ {f g}, g ≠ f → ∀ v s, value g (put f v s) = value g s

namespace Fields

variable {ι : Type*} {V : ι → Type*} {S : Type*} (F : Fields ι V S)

/-- Fields that are set one after another. -/
def putAll (s : S) (l : List (Sigma V)) : S := l.foldl (fun s e => F.put e.1 e.2 s) s

theorem putAll_cons (s : S) (e : Sigma V) (l : List (Sigma V)) :
    F.putAll s (e :: l) = F.putAll (F.put e.1 e.2 s) l := rfl

/-- **A field that is not set** holds what it held before. -/
theorem value_putAll_of_notMem {l : List (Sigma V)} {f : ι} (h : f ∉ l.map Sigma.fst) (s : S) :
    F.value f (F.putAll s l) = F.value f s := by
  induction l generalizing s with
  | nil => rfl
  | cons e l ih =>
    rw [List.map_cons, List.mem_cons, not_or] at h
    rw [putAll_cons, ih h.2, F.value_put_of_ne h.1]

/-- **A field that is set once** holds what it was set to. -/
theorem value_putAll_of_mem {l : List (Sigma V)} (hnodup : (l.map Sigma.fst).Nodup) {f : ι} {v : V f}
    (h : ⟨f, v⟩ ∈ l) (s : S) : F.value f (F.putAll s l) = v := by
  induction l generalizing s with
  | nil => cases h
  | cons e l ih =>
    rw [List.map_cons, List.nodup_cons] at hnodup
    rw [putAll_cons]
    rcases List.mem_cons.mp h with rfl | h
    · rw [F.value_putAll_of_notMem hnodup.1, F.value_put]
    · exact ih hnodup.2 h _

/-! ## Changes -/

/-- A change of one field. -/
abbrev Change (V : ι → Type*) := Sigma fun f : ι => V f → V f

/-- Changes one after another. -/
def modifyAll (s : S) (l : List (Change V)) : S := l.foldl (fun s e => F.put e.1 (e.2 (F.value e.1 s)) s) s

/-- The changes of a field. -/
def changesOf [DecidableEq ι] (f : ι) (l : List (Change V)) : List (V f → V f) :=
  l.filterMap fun e => if h : e.1 = f then some (h ▸ e.2) else none

theorem modifyAll_append (s : S) (l l' : List (Change V)) :
    F.modifyAll s (l ++ l') = F.modifyAll (F.modifyAll s l) l' := List.foldl_append

/-- **A field by itself.** What a field holds after changes is what its own changes, in their order, make
of what it held before. -/
theorem value_modifyAll [DecidableEq ι] (f : ι) (s : S) (l : List (Change V)) :
    F.value f (F.modifyAll s l) = (changesOf f l).foldl (fun v g => g v) (F.value f s) := by
  induction l generalizing s with
  | nil => rfl
  | cons e l ih =>
    obtain ⟨f', g⟩ := e
    show F.value f (F.modifyAll (F.put f' (g (F.value f' s)) s) l) = _
    rw [ih, changesOf, changesOf, List.filterMap_cons]
    by_cases hf : f' = f
    · subst hf
      simp [F.value_put]
    · simp [hf, F.value_put_of_ne (Ne.symm hf)]

theorem changesOf_append [DecidableEq ι] (f : ι) (l l' : List (Change V)) :
    changesOf f (l ++ l') = changesOf f l ++ changesOf f l' := List.filterMap_append

/-- Changes that do not look at what was there: it makes no difference to do them twice. -/
theorem foldl_foldl_of_const {α : Type*} {changes : List (α → α)}
    (h : ∀ g ∈ changes, ∃ v, g = fun _ => v) (a : α) :
    changes.foldl (fun v g => g v) (changes.foldl (fun v g => g v) a) =
      changes.foldl (fun v g => g v) a := by
  rcases List.eq_nil_or_concat changes with rfl | ⟨init, last, rfl⟩
  · rfl
  · obtain ⟨v, rfl⟩ := h last (by simp)
    simp [List.foldl_append]

theorem changesOf_eq_nil [DecidableEq ι] {f : ι} {l : List (Change V)} (h : f ∉ l.map Sigma.fst) :
    changesOf f l = [] := by
  rw [changesOf, List.filterMap_eq_nil_iff]
  intro e he
  have hne : e.1 ≠ f := fun heq => h (heq ▸ List.mem_map_of_mem he)
  rw [dif_neg hne]

end Fields
