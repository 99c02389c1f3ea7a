import Mathlib.Algebra.Order.Group.Defs
import Mathlib.Algebra.Order.Group.Unbundled.Basic
import Mathlib.Order.MinMax

set_option relaxedAutoImplicit false
set_option autoImplicit false

/-!
# Settling a list of dues from a balance

Dues are settled one after the other: a rule decides from the balance and the amount whether a due
is charged, and a due that is not charged is dropped.  A rule that looks at the balance keeps it
above a floor.

## Main definitions

* `Ledger.settle` — the charges made for a list of dues, each with the balance before and after.
* `Ledger.balance` — the balance at the end.
* `Ledger.largest` — the largest amount charged.

## Main results

* `Ledger.linked_settle`, `Ledger.amounts_sublist` — each charge is a due, and takes its amount from
  the balance the one before left.
* `Ledger.floor_settle` — if a due is charged only while the balance is not negative, the balance
  stays above the first balance and the largest amount charged, counted negative.
* `Ledger.nonneg_settle` — if a due is charged only when it is covered, the balance stays
  non-negative.
-/

namespace Ledger

variable {M : Type*} [AddCommGroup M]

/-- A charge. -/
structure Charge (M : Type*) where
  /-- What is charged. -/
  amount : M
  /-- The balance before. -/
  before : M
  /-- The balance after. -/
  after : M

/-- The charges made for a list of dues. -/
def settle (rule : M → M → Bool) : M → List M → List (Charge M)
  | _, [] => []
  | b, due :: dues =>
    if rule b due then ⟨due, b, b - due⟩ :: settle rule (b - due) dues else settle rule b dues

/-- The balance after a list of dues. -/
def balance (rule : M → M → Bool) : M → List M → M
  | b, [] => b
  | b, due :: dues => balance rule (if rule b due then b - due else b) dues

/-- The charges lead from one balance to another, each by its amount. -/
def Linked : M → List (Charge M) → M → Prop
  | b, [], b' => b = b'
  | b, c :: cs, b' => c.before = b ∧ c.after = b - c.amount ∧ Linked c.after cs b'

/-- The largest amount charged, zero if there is no charge. -/
def largest [LinearOrder M] (cs : List (Charge M)) : M := (cs.map Charge.amount).foldr max 0

variable {rule : M → M → Bool}

-- the equations are derived here, once, for all the lemmas below
attribute [local simp] settle balance in
/-- Dues settled in two parts. -/
theorem balance_append (b : M) (dues dues' : List M) :
    balance rule b (dues ++ dues') = balance rule (balance rule b dues) dues' := by
  induction dues generalizing b with
  | nil => rfl
  | cons due dues ih => exact ih _

/-- A rule that always allows the charge takes the sum of the dues. -/
theorem balance_of_true (b : M) (dues : List M) :
    balance (fun _ _ => true) b dues = b - dues.sum := by
  induction dues generalizing b with
  | nil => simp [balance]
  | cons due dues ih => rw [balance, ih, if_pos rfl, List.sum_cons, sub_sub]

/-- **Each charge takes its amount** from the balance the one before left. -/
theorem linked_settle (b : M) (dues : List M) :
    Linked b (settle rule b dues) (balance rule b dues) := by
  induction dues generalizing b with
  | nil => rfl
  | cons due dues ih =>
    by_cases h : rule b due = true
    · simp only [settle, balance, h, if_true]
      exact ⟨rfl, rfl, ih (b - due)⟩
    · simp only [settle, balance, h]
      exact ih b

/-- The rule allowed every charge. -/
theorem of_mem_settle {b : M} {dues : List M} {c : Charge M} (h : c ∈ settle rule b dues) :
    rule c.before c.amount = true ∧ c.after = c.before - c.amount := by
  induction dues generalizing b with
  | nil => cases h
  | cons due dues ih =>
    simp only [settle] at h
    split at h
    · next hrule =>
      rcases List.mem_cons.1 h with rfl | h
      · exact ⟨hrule, rfl⟩
      · exact ih h
    · exact ih h

/-- The amounts charged are some of the dues, in their order. -/
theorem amounts_sublist (b : M) (dues : List M) :
    ((settle rule b dues).map Charge.amount).Sublist dues := by
  induction dues generalizing b with
  | nil => exact .slnil
  | cons due dues ih =>
    simp only [settle]
    split
    · exact (ih _).cons_cons due
    · exact (ih b).cons due

/-- The balance at the end is the first one or was left by a charge. -/
theorem balance_eq (rule : M → M → Bool) (b : M) (dues : List M) :
    balance rule b dues = b ∨ ∃ c ∈ settle rule b dues, balance rule b dues = c.after := by
  induction dues generalizing b with
  | nil => exact .inl rfl
  | cons due dues ih =>
    by_cases h : rule b due = true
    · simp only [settle, balance, h, if_true]
      right
      rcases ih (b - due) with heq | ⟨c, hc, heq⟩
      · exact ⟨_, List.mem_cons_self, heq⟩
      · exact ⟨c, List.mem_cons_of_mem _ hc, heq⟩
    · simp only [settle, balance, h]
      exact ih b

section Order

variable [LinearOrder M] [IsOrderedAddMonoid M]

omit [IsOrderedAddMonoid M] in
theorem le_largest {cs : List (Charge M)} {c : Charge M} (h : c ∈ cs) : c.amount ≤ largest cs := by
  induction cs with
  | nil => cases h
  | cons c' cs ih =>
    simp only [largest, List.map_cons, List.foldr_cons]
    rcases List.mem_cons.1 h with rfl | h
    · exact le_max_left _ _
    · exact (ih h).trans (le_max_right _ _)

/-- **The floor.** If a due is charged only while the balance and a credit are not negative, then no
charge leads below the largest amount charged, counted negative. -/
theorem floor_settle (credit : M) (hrule : ∀ b due, rule b due = true → 0 ≤ b + credit) (b : M)
    (dues : List M) {c : Charge M} (h : c ∈ settle rule b dues) :
    -largest (settle rule b dues) ≤ c.after + credit := by
  obtain ⟨hallowed, hafter⟩ := of_mem_settle h
  have hpos := hrule _ _ hallowed
  have hle := le_largest h
  calc -largest (settle rule b dues) ≤ -c.amount := neg_le_neg hle
    _ ≤ c.before + credit - c.amount := by
      rw [sub_eq_add_neg]
      exact le_add_of_nonneg_left hpos
    _ = c.after + credit := by rw [hafter, sub_add_eq_add_sub]

/-- If a due is charged only when the balance and a credit cover it, then no charge makes them
negative. -/
theorem nonneg_settle (credit : M) (hrule : ∀ b due, rule b due = true → due ≤ b + credit) (b : M)
    (dues : List M) {c : Charge M} (h : c ∈ settle rule b dues) : 0 ≤ c.after + credit := by
  obtain ⟨hallowed, hafter⟩ := of_mem_settle h
  rw [hafter, sub_add_eq_add_sub]
  exact sub_nonneg.2 (hrule _ _ hallowed)

end Order

end Ledger
