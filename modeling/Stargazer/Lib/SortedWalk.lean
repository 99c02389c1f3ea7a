import Mathlib.Data.List.Count
import Mathlib.Data.List.Lemmas
import Mathlib.Data.List.Perm.Basic
import Mathlib.Order.Lattice

set_option relaxedAutoImplicit false
set_option autoImplicit false

/-!
# Walking along two sorted lists

The common way to find out what has changed from one sorted list to another is to walk along both of
them: the smaller head is in one list only and is reported, and equal heads are passed together.
Lists may have repetitions, so what is reported is the difference of the lists as multisets.

## Main definitions

* `SortedWalk.walk` — the reports, in their order; `true` for elements of the first list.

## Main results

* `SortedWalk.filter_walk` — the reports about one element.
* `SortedWalk.walk_split` — where in the walk they are.
-/

namespace SortedWalk

variable {α : Type} [LinearOrder α]

/-- The elements that only one of the lists has, `true` for the first one. -/
def walk : List α → List α → List (α × Bool)
  | [], [] => []
  | [], y :: ys => (y, false) :: walk [] ys
  | x :: xs, [] => (x, true) :: walk xs []
  | x :: xs, y :: ys =>
    if x < y then (x, true) :: walk xs (y :: ys)
    else if y < x then (y, false) :: walk (x :: xs) ys
    else walk xs ys
termination_by xs ys => xs.length + ys.length

/-- Only elements of the lists are reported. -/
theorem mem_of_mem_walk (xs ys : List α) {p : α × Bool} (h : p ∈ walk xs ys) :
    p.1 ∈ xs ∨ p.1 ∈ ys := by
  induction xs, ys using walk.induct with
  | case1 => simp [walk] at h
  | case2 y ys ih =>
    rw [walk] at h
    rcases List.mem_cons.mp h with rfl | h
    · simp
    · exact (ih h).imp_right (List.mem_cons_of_mem _)
  | case3 x xs ih =>
    rw [walk] at h
    rcases List.mem_cons.mp h with rfl | h
    · simp
    · exact (ih h).imp_left (List.mem_cons_of_mem _)
  | case4 x xs y ys hlt ih =>
    rw [walk, if_pos hlt] at h
    rcases List.mem_cons.mp h with rfl | h
    · simp
    · exact (ih h).imp_left (List.mem_cons_of_mem _)
  | case5 x xs y ys hnot hlt ih =>
    rw [walk, if_neg hnot, if_pos hlt] at h
    rcases List.mem_cons.mp h with rfl | h
    · simp
    · exact (ih h).imp_right (List.mem_cons_of_mem _)
  | case6 x xs y ys hnot hnot' ih =>
    rw [walk, if_neg hnot, if_neg hnot'] at h
    exact (ih h).imp (List.mem_cons_of_mem _) (List.mem_cons_of_mem _)

/-- The reports come in order. -/
theorem pairwise_walk (xs ys : List α) (hxs : xs.Pairwise (· ≤ ·)) (hys : ys.Pairwise (· ≤ ·)) :
    (walk xs ys).Pairwise fun p q => p.1 ≤ q.1 := by
  induction xs, ys using walk.induct with
  | case1 => simp [walk]
  | case2 y ys ih =>
    obtain ⟨hy, hys⟩ := List.pairwise_cons.mp hys
    rw [walk]
    refine List.pairwise_cons.mpr ⟨fun p hp => ?_, ih hxs hys⟩
    rcases mem_of_mem_walk [] ys hp with hp | hp
    · cases hp
    · exact hy _ hp
  | case3 x xs ih =>
    obtain ⟨hx, hxs⟩ := List.pairwise_cons.mp hxs
    rw [walk]
    refine List.pairwise_cons.mpr ⟨fun p hp => ?_, ih hxs hys⟩
    rcases mem_of_mem_walk xs [] hp with hp | hp
    · exact hx _ hp
    · cases hp
  | case4 x xs y ys hlt ih =>
    obtain ⟨hx, hxs⟩ := List.pairwise_cons.mp hxs
    rw [walk, if_pos hlt]
    refine List.pairwise_cons.mpr ⟨fun p hp => ?_, ih hxs hys⟩
    rcases mem_of_mem_walk xs (y :: ys) hp with hp | hp
    · exact hx _ hp
    · rcases List.mem_cons.mp hp with hp | hp
      · exact hp ▸ le_of_lt hlt
      · exact le_trans (le_of_lt hlt) ((List.pairwise_cons.mp hys).1 _ hp)
  | case5 x xs y ys hnot hlt ih =>
    obtain ⟨hy, hys⟩ := List.pairwise_cons.mp hys
    rw [walk, if_neg hnot, if_pos hlt]
    refine List.pairwise_cons.mpr ⟨fun p hp => ?_, ih hxs hys⟩
    rcases mem_of_mem_walk (x :: xs) ys hp with hp | hp
    · rcases List.mem_cons.mp hp with hp | hp
      · exact hp ▸ le_of_lt hlt
      · exact le_trans (le_of_lt hlt) ((List.pairwise_cons.mp hxs).1 _ hp)
    · exact hy _ hp
  | case6 x xs y ys hnot hnot' ih =>
    rw [walk, if_neg hnot, if_neg hnot']
    exact ih (List.pairwise_cons.mp hxs).2 (List.pairwise_cons.mp hys).2

/-- An element smaller than the head of a sorted list is not in the list. -/
theorem count_eq_zero_of_lt {a y : α} {ys : List α} (hys : (y :: ys).Pairwise (· ≤ ·))
    (h : a < y) : (y :: ys).count a = 0 := by
  refine List.count_eq_zero_of_not_mem fun ha => ?_
  rcases List.mem_cons.mp ha with rfl | ha
  · exact lt_irrefl _ h
  · exact absurd ((List.pairwise_cons.mp hys).1 a ha) (not_le.mpr h)

/-- **The reports about one element**: as many as there are more in one list than in the other.

**Proof sketch.** Induction on the walk.  When the smaller head is reported the other list does not
have it, since it is sorted. -/
theorem filter_walk (a : α) (xs ys : List α) (hxs : xs.Pairwise (· ≤ ·))
    (hys : ys.Pairwise (· ≤ ·)) :
    (walk xs ys).filter (fun p => p.1 = a) =
      List.replicate (xs.count a - ys.count a) (a, true) ++
        List.replicate (ys.count a - xs.count a) (a, false) := by
  induction xs, ys using walk.induct with
  | case1 => simp [walk]
  | case2 y ys ih =>
    rw [walk, List.filter_cons, ih hxs (List.pairwise_cons.mp hys).2]
    by_cases ha : y = a
    · subst ha
      simp [List.replicate_succ]
    · simp [ha]
  | case3 x xs ih =>
    rw [walk, List.filter_cons, ih (List.pairwise_cons.mp hxs).2 hys]
    by_cases ha : x = a
    · subst ha
      simp [List.replicate_succ]
    · simp [ha]
  | case4 x xs y ys hlt ih =>
    rw [walk, if_pos hlt, List.filter_cons, ih (List.pairwise_cons.mp hxs).2 hys]
    by_cases ha : x = a
    · subst ha
      have hzero := count_eq_zero_of_lt hys hlt
      simp [hzero, List.replicate_succ]
    · simp [ha]
  | case5 x xs y ys hnot hlt ih =>
    rw [walk, if_neg hnot, if_pos hlt, List.filter_cons, ih hxs (List.pairwise_cons.mp hys).2]
    by_cases ha : y = a
    · subst ha
      have hzero := count_eq_zero_of_lt hxs hlt
      simp [hzero, List.replicate_succ]
    · simp [ha]
  | case6 x xs y ys hnot hnot' ih =>
    obtain rfl : x = y := le_antisymm (not_lt.mp hnot') (not_lt.mp hnot)
    rw [walk, if_neg hnot, if_neg hnot', ih (List.pairwise_cons.mp hxs).2
      (List.pairwise_cons.mp hys).2]
    by_cases ha : x = a
    · subst ha
      simp
    · simp [ha]

/-- A list in order falls into the parts before, at and behind an element. -/
theorem eq_append_of_pairwise {β : Type} (f : β → α) (a : α) (l : List β)
    (h : l.Pairwise fun p q => f p ≤ f q) :
    l = l.filter (fun p => f p < a) ++ l.filter (fun p => f p = a) ++
      l.filter (fun p => a < f p) := by
  induction l with
  | nil => rfl
  | cons p l ih =>
    obtain ⟨hp, hl⟩ := List.pairwise_cons.mp h
    rcases lt_trichotomy (f p) a with hlt | heq | hgt
    · nth_rewrite 1 [ih hl]
      simp [hlt, hlt.ne, not_lt.mpr hlt.le]
    · have hbefore : l.filter (fun q => f q < a) = [] :=
        List.filter_eq_nil_iff.mpr fun q hq => by simpa using heq ▸ hp q hq
      nth_rewrite 1 [ih hl]
      simp [heq, hbefore]
    · have hbefore : l.filter (fun q => f q < a) = [] :=
        List.filter_eq_nil_iff.mpr fun q hq => by simpa using le_trans hgt.le (hp q hq)
      have hat : l.filter (fun q => f q = a) = [] :=
        List.filter_eq_nil_iff.mpr fun q hq => by
          simpa using ne_of_gt (lt_of_lt_of_le hgt (hp q hq))
      nth_rewrite 1 [ih hl]
      simp [hgt, hgt.ne', not_lt.mpr hgt.le, hbefore, hat]

/-- What is reported is the difference of the lists. -/
theorem walk_perm (xs ys : List α) (hxs : xs.Pairwise (· ≤ ·)) (hys : ys.Pairwise (· ≤ ·)) :
    ((walk xs ys).map Prod.fst).Perm (xs.diff ys ++ ys.diff xs) := by
  rw [List.perm_iff_count]
  intro a
  have hcount : ((walk xs ys).map Prod.fst).count a =
      ((walk xs ys).filter fun p => p.1 = a).length := by
    rw [List.count, List.countP_map, List.countP_eq_length_filter]
    rfl
  rw [hcount, filter_walk a xs ys hxs hys]
  simp [List.count_diff]

/-- **Where the reports about an element are**: behind those about smaller elements, whose number is
that of the smaller elements in the difference of the lists. -/
theorem walk_split (a : α) (xs ys : List α) (hxs : xs.Pairwise (· ≤ ·))
    (hys : ys.Pairwise (· ≤ ·)) :
    ∃ before behind, walk xs ys = before ++
        (List.replicate (xs.count a - ys.count a) (a, true) ++
          List.replicate (ys.count a - xs.count a) (a, false)) ++ behind ∧
      (∀ p ∈ before, p.1 ≠ a) ∧ (∀ p ∈ behind, p.1 ≠ a) ∧
      before.length = (xs.diff ys).countP (· < a) + (ys.diff xs).countP (· < a) := by
  refine ⟨(walk xs ys).filter fun p => p.1 < a, (walk xs ys).filter fun p => a < p.1, ?_, ?_, ?_,
    ?_⟩
  · rw [← filter_walk a xs ys hxs hys]
    exact eq_append_of_pairwise Prod.fst a _ (pairwise_walk xs ys hxs hys)
  · intro p hp
    exact (by simpa using (List.mem_filter.mp hp).2 : p.1 < a).ne
  · intro p hp
    exact (by simpa using (List.mem_filter.mp hp).2 : a < p.1).ne'
  · rw [← List.countP_eq_length_filter, ← List.countP_append,
      ← (walk_perm xs ys hxs hys).countP_eq, List.countP_map]
    rfl

end SortedWalk
