import Mathlib.Data.List.DropRight
import Mathlib.Data.List.Infix

set_option relaxedAutoImplicit false
set_option autoImplicit false

/-!
# Splitting and trimming

Two of the algorithms on strings of Boost: `split`, with separators that are adjacent taken for one, and
`trim_copy_if`.  Unlike a list of words, a split text has an empty part at an end where there is a
separator.

## Main definitions

* `Words.split` — the parts between separators.
* `Words.trim` — what is left without the ends.

## Main results

* `Words.split_eq_pair_iff` — the texts that have two parts.
* `Words.trim_append` — what is left of a text with ends.
-/

namespace Words

variable {α : Type*} (sep : α → Bool)

/-- `split` with `token_compress_on`. -/
def split : List α → List (List α)
  | [] => [[]]
  | c :: s =>
    if sep c then (if s.head?.any sep then split s else [] :: split s)
    else (split s).modifyHead (c :: ·)

/-- `trim_copy_if`. -/
def trim (s : List α) : List α := (s.dropWhile sep).rdropWhile sep

variable {sep}

theorem split_ne_nil (s : List α) : split sep s ≠ [] := by
  induction s with
  | nil => exact List.cons_ne_nil _ _
  | cons c s ih =>
    rw [split]
    split_ifs
    · exact ih
    · exact List.cons_ne_nil _ _
    · obtain ⟨w, ws, hws⟩ := List.exists_cons_of_ne_nil ih
      rw [hws]
      exact List.cons_ne_nil _ _

/-- A character in front of a text becomes a part of the first part. -/
theorem split_cons_eq_iff {c : α} {s w : List α} {ws : List (List α)} (hc : sep c = false) :
    split sep (c :: s) = w :: ws ↔ ∃ v, w = c :: v ∧ split sep s = v :: ws := by
  rw [split, if_neg (by rw [hc]; exact Bool.false_ne_true)]
  have hne : split sep s ≠ [] := split_ne_nil s
  obtain ⟨v, vs, hv⟩ := List.exists_cons_of_ne_nil hne
  rw [hv, List.modifyHead_cons]
  constructor
  · intro h
    obtain ⟨rfl, rfl⟩ := List.cons.inj h
    exact ⟨v, rfl, rfl⟩
  · rintro ⟨v', rfl, h⟩
    obtain ⟨rfl, rfl⟩ := List.cons.inj h
    rfl

/-- A text without separators is its only part. -/
theorem split_eq_singleton_iff {s w : List α} :
    split sep s = [w] ↔ s = w ∧ ∀ c ∈ w, sep c = false := by
  induction s generalizing w with
  | nil =>
    rw [split, List.cons.injEq, and_iff_left rfl]
    exact ⟨fun h => ⟨h, fun c hc => by rw [← h] at hc; cases hc⟩, And.left⟩
  | cons c s ih =>
    by_cases hc : sep c = true
    · have hright : ¬ (c :: s = w ∧ ∀ d ∈ w, sep d = false) := by
        rintro ⟨rfl, hall⟩
        cases hc.symm.trans (hall c List.mem_cons_self)
      refine iff_of_false (fun h => ?_) hright
      rw [split, if_pos hc] at h
      split_ifs at h with hhead
      · obtain ⟨rfl, hall⟩ := ih.mp h
        cases s with
        | nil => cases hhead
        | cons d s =>
          have hd : sep d = true := hhead
          cases hd.symm.trans (hall d List.mem_cons_self)
      · exact split_ne_nil s (List.cons.inj h).2
    · have hc' : sep c = false := Bool.not_eq_true _ ▸ hc
      rw [split_cons_eq_iff hc']
      constructor
      · rintro ⟨v, rfl, hv⟩
        obtain ⟨rfl, hall⟩ := ih.mp hv
        exact ⟨rfl, List.forall_mem_cons.mpr ⟨hc', hall⟩⟩
      · rintro ⟨rfl, hall⟩
        exact ⟨s, rfl, ih.mpr ⟨rfl, (List.forall_mem_cons.mp hall).2⟩⟩

/-- **A text has two parts** iff there are separators between them, and nowhere else. -/
theorem split_eq_pair_iff {s a b : List α} :
    split sep s = [a, b] ↔ ∃ m, m ≠ [] ∧ (∀ c ∈ m, sep c = true) ∧ s = a ++ (m ++ b) ∧
      (∀ c ∈ a, sep c = false) ∧ ∀ c ∈ b, sep c = false := by
  induction s generalizing a with
  | nil =>
    refine iff_of_false (fun h => by cases h) ?_
    rintro ⟨m, hm, -, h, -, -⟩
    exact hm (List.append_eq_nil_iff.mp (List.append_eq_nil_iff.mp h.symm).2).1
  | cons c s ih =>
    by_cases hc : sep c = true
    · -- the first part is empty
      have hempty : ∀ {m}, c :: s = a ++ (m ++ b) → (∀ d ∈ a, sep d = false) → a = [] := by
        intro m h ha
        cases a with
        | nil => rfl
        | cons d a =>
          obtain ⟨rfl, -⟩ := List.cons.inj h
          cases hc.symm.trans (ha _ List.mem_cons_self)
      rw [split, if_pos hc]
      split_ifs with hhead
      · rw [ih]
        constructor
        · rintro ⟨m, hm, hsep, rfl, ha, hb⟩
          obtain rfl : a = [] := by
            cases a with
            | nil => rfl
            | cons d a =>
              have hd : sep d = true := hhead
              cases hd.symm.trans (ha d List.mem_cons_self)
          exact ⟨c :: m, List.cons_ne_nil _ _, List.forall_mem_cons.mpr ⟨hc, hsep⟩, rfl, ha, hb⟩
        · rintro ⟨m, hm, hsep, h, ha, hb⟩
          obtain rfl := hempty h ha
          obtain ⟨d, m, rfl⟩ := List.exists_cons_of_ne_nil hm
          obtain ⟨rfl, rfl⟩ := List.cons.inj h
          refine ⟨m, ?_, (List.forall_mem_cons.mp hsep).2, rfl, ha, hb⟩
          rintro rfl
          cases b with
          | nil => cases hhead
          | cons e b =>
            have he : sep e = true := hhead
            cases he.symm.trans (hb e List.mem_cons_self)
      · rw [List.cons.injEq, split_eq_singleton_iff]
        constructor
        · rintro ⟨rfl, rfl, hb⟩
          exact ⟨[c], List.cons_ne_nil _ _, List.forall_mem_singleton.mpr hc, rfl,
            fun d hd => (by cases hd), hb⟩
        · rintro ⟨m, hm, hsep, h, ha, hb⟩
          obtain rfl := hempty h ha
          obtain ⟨d, m, rfl⟩ := List.exists_cons_of_ne_nil hm
          obtain ⟨rfl, rfl⟩ := List.cons.inj h
          cases m with
          | nil => exact ⟨rfl, rfl, hb⟩
          | cons e m => exact absurd (hsep e (by simp)) hhead
    · have hc' : sep c = false := Bool.not_eq_true _ ▸ hc
      rw [split_cons_eq_iff hc']
      constructor
      · rintro ⟨v, rfl, hv⟩
        obtain ⟨m, hm, hsep, rfl, ha, hb⟩ := ih.mp hv
        exact ⟨m, hm, hsep, rfl, List.forall_mem_cons.mpr ⟨hc', ha⟩, hb⟩
      · rintro ⟨m, hm, hsep, h, ha, hb⟩
        cases a with
        | nil =>
          obtain ⟨d, m, rfl⟩ := List.exists_cons_of_ne_nil hm
          obtain ⟨rfl, -⟩ := List.cons.inj h
          exact absurd (hsep _ List.mem_cons_self) hc
        | cons d a =>
          obtain ⟨rfl, rfl⟩ := List.cons.inj h
          exact ⟨a, rfl, ih.mpr ⟨m, hm, hsep, rfl, (List.forall_mem_cons.mp ha).2, hb⟩⟩

/-- **A text with ends** is left without them. -/
theorem trim_append {b s e : List α} (hb : ∀ c ∈ b, sep c = true) (he : ∀ c ∈ e, sep c = true)
    (hhead : ∃ c ∈ s.head?, sep c = false) (hlast : ∃ c ∈ s.getLast?, sep c = false) :
    trim sep (b ++ (s ++ e)) = s := by
  obtain ⟨c, hc, hsep⟩ := hhead
  obtain ⟨s', rfl⟩ : ∃ s', s = c :: s' := by
    cases s with
    | nil => cases hc
    | cons d s' =>
      obtain rfl := Option.some.inj hc
      exact ⟨s', rfl⟩
  unfold trim
  rw [List.dropWhile_append_of_pos hb, List.cons_append,
    List.dropWhile_cons_of_neg (by rw [hsep]; exact Bool.false_ne_true),
    ← List.cons_append]
  obtain ⟨d, hd, hsep'⟩ := hlast
  rw [List.rdropWhile, List.reverse_append, List.dropWhile_append_of_pos]
  · have hrev : ∃ t, (c :: s').reverse = d :: t := by
      rw [← List.head?_reverse] at hd
      cases hr : (c :: s').reverse with
      | nil =>
        rw [hr] at hd
        cases hd
      | cons d' t =>
        rw [hr] at hd
        obtain rfl := Option.some.inj hd
        exact ⟨t, rfl⟩
    obtain ⟨t, ht⟩ := hrev
    rw [ht, List.dropWhile_cons_of_neg (by rw [hsep']; exact Bool.false_ne_true), ← ht, List.reverse_reverse]
  · intro x hx
    exact he x (List.mem_reverse.mp hx)

/-- Two texts are the same up to the first of a character that is in both, and after it. -/
theorem append_cons_inj_left {c : α} {s s' t t' : List α} (hs : c ∉ s) (hs' : c ∉ s')
    (h : s ++ c :: t = s' ++ c :: t') : s = s' ∧ t = t' := by
  induction s generalizing s' with
  | nil =>
    cases s' with
    | nil => exact ⟨rfl, (List.cons.inj h).2⟩
    | cons d s' => exact absurd ((List.cons.inj h).1 ▸ List.mem_cons_self) hs'
  | cons d s ih =>
    cases s' with
    | nil => exact absurd ((List.cons.inj h).1 ▸ List.mem_cons_self) hs
    | cons d' s' =>
      obtain ⟨rfl, hrest⟩ := List.cons.inj h
      obtain ⟨rfl, rfl⟩ := ih (List.not_mem_of_not_mem_cons hs) (List.not_mem_of_not_mem_cons hs') hrest
      exact ⟨rfl, rfl⟩

end Words
