import Mathlib.Data.List.DropRight
import Mathlib.Order.Lattice
import Mathlib.Data.List.TakeWhile

set_option relaxedAutoImplicit false
set_option autoImplicit false

/-!
# Words between separators

A list is cut into words at its separators, of any number between two words, in front of the first one
and behind the last one.  A scanner that looks for the next separator and then for the next other
element finds the words one after another.

## Main definitions

* `Words.words` — the words of a list.

## Main results

* `Words.words_append_of_head` — the first word.
* `Words.forall_or_exists_atWord`, `Words.AtWord.words_eq`, `Words.AtWord.span_eq` — how a scanner finds
  the next one.
* `Words.words_rdropWhile`, `Words.words_dropWhile` — separators at the ends do not matter.
-/

namespace Words

variable {α : Type*} (sep : α → Bool)

/-- The words of a list. -/
def words (s : List α) : List (List α) := (s.splitOnP sep).filter fun w => !w.isEmpty

variable {sep}

theorem words_cons_of_sep {c : α} (h : sep c = true) (s : List α) : words sep (c :: s) = words sep s := by
  unfold words
  rw [List.splitOnP_cons_eq_if_modifyHead, if_pos h]
  rfl

/-- There are no words between separators. -/
theorem words_of_forall {s : List α} (h : ∀ c ∈ s, sep c = true) : words sep s = [] := by
  induction s with
  | nil => rfl
  | cons c s ih =>
    rw [words_cons_of_sep (h c List.mem_cons_self)]
    exact ih fun d hd => h d (List.mem_cons_of_mem _ hd)

/-- Separators in front. -/
theorem words_append_left {b : List α} (h : ∀ c ∈ b, sep c = true) (s : List α) :
    words sep (b ++ s) = words sep s := by
  induction b with
  | nil => rfl
  | cons c b ih =>
    rw [List.cons_append, words_cons_of_sep (h c List.mem_cons_self)]
    exact ih fun d hd => h d (List.mem_cons_of_mem _ hd)

/-- **The first word**, up to a separator or the end. -/
theorem words_append_of_head {w rest : List α} (hne : w ≠ []) (hw : ∀ c ∈ w, sep c = false)
    (hrest : ∀ c ∈ rest.head?, sep c = true) : words sep (w ++ rest) = w :: words sep rest := by
  have hkeep : (!w.isEmpty) = true := by
    cases w with
    | nil => exact absurd rfl hne
    | cons c w => rfl
  cases rest with
  | nil =>
    rw [List.append_nil, words, List.splitOnP_eq_singleton hw, List.filter_cons, if_pos hkeep]
    rfl
  | cons c rest =>
    rw [words_cons_of_sep (hrest c rfl), words, List.splitOnP_append_cons_of_forall_mem hw c
      (hrest c rfl), List.filter_cons, if_pos hkeep]
    rfl

/-! ## The scanner -/

/-- Where a scanner is: separators in front, a word, and what is behind it. -/
structure AtWord (sep : α → Bool) (b w rest : List α) : Prop where
  /-- The separators. -/
  blanks : ∀ c ∈ b, sep c = true
  /-- The word is not empty. -/
  ne_nil : w ≠ []
  /-- There are no separators in it. -/
  word : ∀ c ∈ w, sep c = false
  /-- It goes up to a separator or the end. -/
  rest : ∀ c ∈ rest.head?, sep c = true

namespace AtWord

variable {b w rest : List α}

theorem words_eq (h : AtWord sep b w rest) : words sep (b ++ (w ++ rest)) = w :: words sep rest := by
  rw [words_append_left h.blanks, words_append_of_head h.ne_nil h.word h.rest]

/-- The next element that is no separator. -/
theorem dropWhile_eq (h : AtWord sep b w rest) : (b ++ (w ++ rest)).dropWhile sep = w ++ rest := by
  obtain ⟨c, w, rfl⟩ := List.exists_cons_of_ne_nil h.ne_nil
  rw [List.dropWhile_append_of_pos h.blanks]
  apply List.dropWhile_cons_of_neg
  rw [h.word c List.mem_cons_self]
  exact Bool.false_ne_true

/-- The next separator. -/
theorem span_eq (h : AtWord sep b w rest) : (w ++ rest).takeWhile (fun c => !sep c) = w ∧
    (w ++ rest).dropWhile (fun c => !sep c) = rest := by
  have hw : ∀ c ∈ w, (!sep c) = true := fun c hc => by rw [h.word c hc]; rfl
  rw [List.takeWhile_append_of_pos hw, List.dropWhile_append_of_pos hw]
  cases rest with
  | nil => exact ⟨List.append_nil _, rfl⟩
  | cons c rest =>
    have hc : ¬ (!sep c) = true := by
      rw [h.rest c rfl]
      exact Bool.false_ne_true
    rw [List.takeWhile_cons, if_neg hc, List.dropWhile_cons, if_neg hc]
    exact ⟨List.append_nil _, rfl⟩

/-- Separators behind a word, in front of what is behind it. -/
theorem append (h : AtWord sep b w rest) {e : List α} (he : ∀ c ∈ e, sep c = true) :
    AtWord sep b w (rest ++ e) := by
  refine ⟨h.blanks, h.ne_nil, h.word, fun c hc => ?_⟩
  cases rest with
  | nil => exact he c (List.mem_of_mem_head? hc)
  | cons d rest => exact h.rest c hc

end AtWord

/-- **There is a word**, or there are only separators. -/
theorem forall_or_exists_atWord (sep : α → Bool) (s : List α) :
    (∀ c ∈ s, sep c = true) ∨ ∃ b w rest, s = b ++ (w ++ rest) ∧ AtWord sep b w rest := by
  by_cases hnil : s.dropWhile sep = []
  · exact .inl (List.dropWhile_eq_nil_iff.mp hnil)
  · right
    refine ⟨s.takeWhile sep, (s.dropWhile sep).takeWhile fun c => !sep c,
      (s.dropWhile sep).dropWhile fun c => !sep c, ?_, fun c hc => List.mem_takeWhile_imp hc, ?_,
      fun c hc => ?_, fun c hc => ?_⟩
    · rw [List.takeWhile_append_dropWhile, List.takeWhile_append_dropWhile]
    · obtain ⟨c, t, ht⟩ := List.exists_cons_of_ne_nil hnil
      have hc := List.head?_dropWhile_not sep s
      rw [ht] at hc
      rw [ht, List.takeWhile_cons_of_pos (by simpa using hc)]
      exact List.cons_ne_nil _ _
    · simpa using List.mem_takeWhile_imp hc
    · have := List.head?_dropWhile_not (fun c => !sep c) (s.dropWhile sep)
      rw [Option.mem_def.mp hc] at this
      simpa using this

/-- There are only separators iff there are no words. -/
theorem words_eq_nil_iff {s : List α} : words sep s = [] ↔ ∀ c ∈ s, sep c = true := by
  constructor
  · intro hnil
    rcases forall_or_exists_atWord sep s with hall | ⟨b, w, rest, rfl, h⟩
    · exact hall
    · rw [h.words_eq] at hnil
      cases hnil
  · exact words_of_forall

/-- Separators behind. -/
theorem words_append_right {e : List α} (he : ∀ c ∈ e, sep c = true) (s : List α) :
    words sep (s ++ e) = words sep s := by
  -- by the number of elements: what is behind the first word is shorter
  induction hn : s.length using Nat.strong_induction_on generalizing s with
  | _ n ih =>
    rcases forall_or_exists_atWord sep s with hall | ⟨b, w, rest, rfl, h⟩
    · rw [words_of_forall hall, words_of_forall fun c hc => ?_]
      exact (List.mem_append.mp hc).elim (hall c) (he c)
    · have hpos := List.length_pos_of_ne_nil h.ne_nil
      rw [List.length_append, List.length_append] at hn
      rw [List.append_assoc, List.append_assoc, (h.append he).words_eq, h.words_eq,
        ih rest.length (by omega) rest rfl]

theorem words_dropWhile (s : List α) : words sep (s.dropWhile sep) = words sep s := by
  conv_rhs => rw [← List.takeWhile_append_dropWhile (p := sep) (l := s)]
  exact (words_append_left (fun c hc => List.mem_takeWhile_imp hc) _).symm

theorem words_rdropWhile (s : List α) : words sep (s.rdropWhile sep) = words sep s := by
  conv_rhs => rw [← List.rdropWhile_append_rtakeWhile (p := sep) (l := s)]
  exact (words_append_right (fun c hc => List.mem_rtakeWhile_imp hc) _).symm

end Words
