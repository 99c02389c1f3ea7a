import Mathlib.Data.List.Lex
import Mathlib.Data.List.Pairwise
import Mathlib.Data.List.TakeWhile
import Stargazer.Lib.OrderedMap

set_option relaxedAutoImplicit false
set_option autoImplicit false

/-!
# Ranges of a prefix in an ordered map

The keys of a map are lists in lexicographic order.  To find the keys under a prefix one asks for an
equal range with a comparison that looks only as far as the shorter list goes: lists one of which is
a prefix of the other are equivalent.  This is not an order, and a binary search with it is right
only where it partitions the keys, for which no key may be a proper prefix of the one that is
searched.

## Main definitions

* `PrefixRange.prefixLess` — the comparison.
* `OrderedMap.eraseEqualRange` — a map without the range of a key.
* `OrderedMap.upperBound` — the first entry behind a key.

## Main results

* `PrefixRange.partitions` — the comparison partitions the keys.
* `OrderedMap.mem_eraseEqualRange` — what is left are the keys that are not comparable.
* `OrderedMap.filter_less_eq` — the entries behind a key start with its upper bound.
-/

namespace PrefixRange

variable {α : Type} [LinearOrder α]

/-- Compare two lists as far as the shorter one goes. -/
def prefixLess : List α → List α → Bool
  | a :: as, b :: bs => if a = b then prefixLess as bs else decide (a < b)
  | _, _ => false

/-- One of two lists is a prefix of the other. -/
def Comparable (a b : List α) : Prop := a <+: b ∨ b <+: a

theorem prefixLess_cons (a b : α) (as bs : List α) :
    prefixLess (a :: as) (b :: bs) = true ↔ a < b ∨ a = b ∧ prefixLess as bs = true := by
  rw [prefixLess]
  split_ifs with h
  · simp [h]
  · simp [h]

@[simp] theorem prefixLess_nil_left (b : List α) : prefixLess [] b = false := by
  cases b <;> rfl

@[simp] theorem prefixLess_nil_right (a : List α) : prefixLess a [] = false := by
  cases a <;> rfl

/-- The comparison is part of the lexicographic order. -/
theorem lt_of_prefixLess {a b : List α} (h : prefixLess a b = true) : a < b := by
  induction a generalizing b with
  | nil => simp at h
  | cons x as ih =>
    cases b with
    | nil => simp at h
    | cons y bs =>
      rw [List.cons_lt_cons_iff]
      exact ((prefixLess_cons x y as bs).mp h).imp_right fun h => ⟨h.1, ih h.2⟩

/-- Lists that differ somewhere are compared there, others are comparable. -/
theorem prefixLess_or_comparable (a b : List α) :
    prefixLess a b = true ∨ prefixLess b a = true ∨ Comparable a b := by
  induction a generalizing b with
  | nil => exact .inr (.inr (.inl List.nil_prefix))
  | cons x as ih =>
    cases b with
    | nil => exact .inr (.inr (.inr List.nil_prefix))
    | cons y bs =>
      simp only [prefixLess_cons, Comparable, List.cons_prefix_cons]
      rcases lt_trichotomy x y with hlt | rfl | hgt
      · exact .inl (.inl hlt)
      · rcases ih bs with h | h | h | h
        · exact .inl (.inr ⟨rfl, h⟩)
        · exact .inr (.inl (.inr ⟨rfl, h⟩))
        · exact .inr (.inr (.inl ⟨rfl, h⟩))
        · exact .inr (.inr (.inr ⟨rfl, h⟩))
      · exact .inr (.inl (.inl hgt))

/-- What lies behind a prefix lies behind everything under it. -/
theorem prefixLess_of_isPrefix {k x y : List α} (h : prefixLess k x = true) (hy : k <+: y) :
    prefixLess y x = true := by
  induction k generalizing x y with
  | nil => simp at h
  | cons a ks ih =>
    cases x with
    | nil => simp at h
    | cons b xs =>
      cases y with
      | nil => simp at hy
      | cons c ys =>
        obtain ⟨rfl, hys⟩ := List.cons_prefix_cons.mp hy
        rw [prefixLess_cons] at h ⊢
        exact h.imp_right fun h => ⟨h.1, ih h.2 hys⟩

/-- A prefix comes first in the lexicographic order. -/
theorem le_of_isPrefix {a b : List α} (h : a <+: b) : a ≤ b := by
  induction a generalizing b with
  | nil => exact not_lt.mp (List.not_lt_nil b)
  | cons x as ih =>
    cases b with
    | nil => simp at h
    | cons y bs =>
      obtain ⟨rfl, hbs⟩ := List.cons_prefix_cons.mp h
      rw [← not_lt, List.cons_lt_cons_iff]
      rintro (hlt | ⟨-, hlt⟩)
      · exact lt_irrefl _ hlt
      · exact not_le_of_gt hlt (ih hbs)

/-- Comparable lists are equivalent under the comparison. -/
theorem Comparable.prefixLess_eq_false {a b : List α} (h : Comparable a b) :
    prefixLess a b = false := by
  rw [← Bool.not_eq_true]
  intro hlt
  rcases h with h | h
  · exact lt_irrefl _ (lt_of_prefixLess (prefixLess_of_isPrefix hlt h))
  · exact not_le_of_gt (lt_of_prefixLess hlt) (le_of_isPrefix h)

/-- **The comparison partitions the keys**: in the lexicographic order the keys before the one that
is searched come first and those behind it last, if none of them is a proper prefix of it. -/
theorem partitions {k x y : List α} (hx : x <+: k → x = k) (hxy : x < y) :
    (prefixLess y k = true → prefixLess x k = true) ∧
      (prefixLess k x = true → prefixLess k y = true) := by
  constructor
  · intro hy
    have hyk := lt_of_prefixLess hy
    rcases prefixLess_or_comparable x k with h | h | h | h
    · exact h
    · exact absurd (lt_trans (lt_trans hyk (lt_of_prefixLess h)) hxy) (lt_irrefl _)
    · exact absurd (hxy.trans hyk) (hx h ▸ lt_irrefl _)
    · exact absurd (le_of_isPrefix h) (not_le_of_gt (hxy.trans hyk))
  · intro hkx
    have hky := (lt_of_prefixLess hkx).trans hxy
    rcases prefixLess_or_comparable k y with h | h | h | h
    · exact h
    · exact absurd (lt_of_prefixLess h) (not_lt_of_gt hky)
    · exact absurd (lt_of_prefixLess (prefixLess_of_isPrefix hkx h)) (not_lt_of_gt hxy)
    · exact absurd (le_of_isPrefix h) (not_le_of_gt hky)

end PrefixRange

/-! ## Ordered maps -/

namespace OrderedMap

variable {κ γ β : Type} [LinearOrder γ] {key : κ → γ}

/-- A map without the entries an equal range finds: those from the first one that is not less than
the key on, up to the first one the key is less than. -/
def eraseEqualRange (less : κ → κ → Bool) (k : κ) (m : OrderedMap key β) : OrderedMap key β where
  entries := m.entries.takeWhile (fun e => less e.1 k) ++
    (m.entries.dropWhile fun e => less e.1 k).dropWhile fun e => !less k e.1
  sorted := by
    refine m.sorted.sublist ?_
    conv_rhs => rw [← List.takeWhile_append_dropWhile (p := fun e => less e.1 k) (l := m.entries)]
    exact List.Sublist.append_left (List.dropWhile_sublist _) _

/-- What an entry behind which a property fails for good looks like in the list. -/
theorem mem_takeWhile_iff {p : κ × β → Bool} {l : List (κ × β)}
    (h : l.Pairwise fun x y => p y = true → p x = true) (e : κ × β) :
    (e ∈ l.takeWhile p ↔ e ∈ l ∧ p e = true) ∧ (e ∈ l.dropWhile p ↔ e ∈ l ∧ p e = false) := by
  induction l with
  | nil => simp
  | cons a l ih =>
    obtain ⟨ha, hl⟩ := List.pairwise_cons.mp h
    by_cases hpa : p a = true
    · rw [List.takeWhile_cons_of_pos hpa, List.dropWhile_cons_of_pos hpa, List.mem_cons,
        (ih hl).1, (ih hl).2, List.mem_cons]
      constructor
      · constructor
        · rintro (rfl | ⟨he, hp⟩)
          · exact ⟨.inl rfl, hpa⟩
          · exact ⟨.inr he, hp⟩
        · rintro ⟨rfl | he, hp⟩
          · exact .inl rfl
          · exact .inr ⟨he, hp⟩
      · constructor
        · exact fun ⟨he, hp⟩ => ⟨.inr he, hp⟩
        · rintro ⟨rfl | he, hp⟩
          · rw [hpa] at hp
            cases hp
          · exact ⟨he, hp⟩
    · have hall : ∀ e ∈ a :: l, p e = false := by
        intro e he
        rcases List.mem_cons.mp he with rfl | he
        · simpa using hpa
        · simpa using mt (ha e he) hpa
      rw [List.takeWhile_cons_of_neg hpa, List.dropWhile_cons_of_neg hpa]
      constructor
      · simp only [List.not_mem_nil, false_iff, not_and]
        intro he
        simp [hall e he]
      · exact ⟨fun he => ⟨he, hall e he⟩, fun he => he.1⟩

/-- **What is left without the range of a prefix** are the entries whose keys are not comparable with
it, if none of the keys is a proper prefix of it. -/
theorem mem_eraseEqualRange {α : Type} [LinearOrder α] {m : OrderedMap (id : List α → List α) β}
    {k : List α} (hk : ∀ e ∈ m.entries, e.1 <+: k → e.1 = k) (e : List α × β) :
    e ∈ (m.eraseEqualRange PrefixRange.prefixLess k).entries ↔
      e ∈ m.entries ∧ ¬ PrefixRange.Comparable e.1 k := by
  have hless : m.entries.Pairwise fun x y => PrefixRange.prefixLess y.1 k = true →
      PrefixRange.prefixLess x.1 k = true := by
    refine List.Pairwise.imp_of_mem ?_ m.sorted
    exact fun hx _ hxy => (PrefixRange.partitions (hk _ hx) hxy).1
  have hgreater : (m.entries.dropWhile fun e => PrefixRange.prefixLess e.1 k).Pairwise fun x y =>
      (!PrefixRange.prefixLess k y.1) = true → (!PrefixRange.prefixLess k x.1) = true := by
    refine List.Pairwise.sublist (List.dropWhile_sublist _) ?_
    refine List.Pairwise.imp_of_mem ?_ m.sorted
    intro x y hx _ hxy
    simpa using mt (PrefixRange.partitions (hk _ hx) hxy).2
  have hmem := (mem_takeWhile_iff hless e)
  simp only [eraseEqualRange, List.mem_append, hmem.1, (mem_takeWhile_iff hgreater e).2, hmem.2,
    Bool.not_eq_eq_eq_not, Bool.not_false]
  constructor
  · rintro (⟨he, hlt⟩ | ⟨⟨he, -⟩, hlt⟩)
    · exact ⟨he, fun hc => by simp [hc.prefixLess_eq_false] at hlt⟩
    · exact ⟨he, fun hc => by simp [PrefixRange.Comparable.prefixLess_eq_false hc.symm] at hlt⟩
  · rintro ⟨he, hc⟩
    rcases PrefixRange.prefixLess_or_comparable e.1 k with h | h | h
    · exact .inl ⟨he, h⟩
    · refine .inr ⟨⟨he, ?_⟩, h⟩
      rw [← Bool.not_eq_true]
      exact fun h' => lt_asymm (PrefixRange.lt_of_prefixLess h) (PrefixRange.lt_of_prefixLess h')
    · exact absurd h hc

/-- The first entry behind a key. -/
def upperBound (less : κ → κ → Bool) (m : OrderedMap key β) (k : κ) : Option (κ × β) :=
  m.entries.find? fun e => less k e.1

/-- **The entries behind a key** are its upper bound and the entries behind that. -/
theorem filter_less_eq {less : κ → κ → Bool} (hless : ∀ a b, less a b = true ↔ key a < key b)
    (m : OrderedMap key β) (k : κ) :
    m.entries.filter (fun e => less k e.1) =
      match m.upperBound less k with
      | none => []
      | some e => e :: m.entries.filter fun e' => less e.1 e'.1 := by
  obtain ⟨l, hl⟩ := m
  simp only [upperBound]
  induction l with
  | nil => rfl
  | cons a l ih =>
    obtain ⟨ha, hl⟩ := List.pairwise_cons.mp hl
    by_cases hka : less k a.1 = true
    · have hself : l.filter (fun e => less k e.1) = l :=
        List.filter_eq_self.mpr fun e he =>
          (hless _ _).mpr (((hless _ _).mp hka).trans (ha e he))
      have hself' : l.filter (fun e => less a.1 e.1) = l :=
        List.filter_eq_self.mpr fun e he => (hless _ _).mpr (ha e he)
      have hirrefl : less a.1 a.1 = false := by
        rw [← Bool.not_eq_true, hless]
        exact lt_irrefl _
      simp [hka, hself, hself', hirrefl]
    · have ih := ih hl
      simp only [List.filter_cons, List.find?_cons, hka, Bool.false_eq_true, if_false] at ih ⊢
      rw [ih]
      cases hfind : l.find? fun e => less k e.1 with
      | none => rfl
      | some e =>
        have he : less e.1 a.1 = false := by
          rw [← Bool.not_eq_true, hless]
          exact not_lt_of_gt (ha e (List.mem_of_find?_eq_some hfind))
        simp [he]

end OrderedMap
