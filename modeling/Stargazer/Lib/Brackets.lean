import Mathlib.Data.List.Infix
import Mathlib.Logic.Function.Basic

set_option relaxedAutoImplicit false
set_option autoImplicit false

/-!
# Brackets of several kinds

Brackets where a closing one belongs to an opening one of its own kind, whatever of the other kinds is
open in between.  What is open is counted for each kind.

## Main definitions

* `Brace`, `Brace.run` — brackets that are opened and closed.
* `Brace.Balanced` — no kind is closed more often than it has been opened, and in the end none is
  open.

## Main results

* `Brace.run_eq_some_iff` — which brackets can be closed, and what is open then.
* `Brace.run_zero_iff` — brackets that leave nothing open.
-/

/-- A bracket of a kind. -/
inductive Brace (α : Type*)
  | opening (a : α)
  | closing (a : α)
  deriving DecidableEq

namespace Brace

variable {α : Type*} [DecidableEq α]

/-- One bracket; what is open is counted. -/
def step (m : α → ℕ) : Brace α → Option (α → ℕ)
  | opening a => some (Function.update m a (m a + 1))
  | closing a => if m a = 0 then none else some (Function.update m a (m a - 1))

/-- Brackets one after another. -/
def run : (α → ℕ) → List (Brace α) → Option (α → ℕ)
  | m, [] => some m
  | m, b :: l => (step m b).bind fun m => run m l

/-- No kind is closed more often than it has been opened, and in the end none is open. -/
structure Balanced (l : List (Brace α)) : Prop where
  inner : ∀ a p, p <+: l → p.count (closing a) ≤ p.count (opening a)
  whole : ∀ a, l.count (closing a) = l.count (opening a)

/-- One bracket opens and closes what it is counted for. -/
theorem step_eq_some {m m' : α → ℕ} {b : Brace α} (h : step m b = some m') (a : α) :
    m' a + [b].count (closing a) = m a + [b].count (opening a) := by
  cases b with
  | opening c =>
    obtain rfl := Option.some.inj h
    by_cases hc : a = c
    · simp [hc]
    · simp [Function.update_of_ne hc, Ne.symm hc]
  | closing c =>
    rw [step] at h
    split_ifs at h with hzero
    obtain rfl := Option.some.inj h
    by_cases hc : a = c
    · subst hc
      simp
      omega
    · simp [Function.update_of_ne hc, Ne.symm hc]

/-- **The counting rule.** Brackets can be closed if at no place a kind is closed more often than it has
been opened, and what is open then is what has been opened and not closed.

**Proof sketch.** Induction on the brackets. -/
theorem run_eq_some_iff (m m' : α → ℕ) (l : List (Brace α)) :
    run m l = some m' ↔
      (∀ a p, p <+: l → p.count (closing a) ≤ m a + p.count (opening a)) ∧
        ∀ a, m' a + l.count (closing a) = m a + l.count (opening a) := by
  induction l generalizing m with
  | nil =>
    simp only [run, Option.some.injEq, List.prefix_nil, forall_eq, List.count_nil, Nat.zero_le,
      implies_true, true_and, Nat.add_zero]
    exact ⟨fun h a => h ▸ rfl, fun h => funext fun a => (h a).symm⟩
  | cons b l ih =>
    rw [run]
    cases hstep : step m b with
    | none =>
      refine iff_of_false (by simp) fun h => ?_
      cases b with
      | opening c => cases hstep
      | closing c =>
        have hzero : m c = 0 := by
          by_contra hne
          rw [step, if_neg hne] at hstep
          cases hstep
        have hfirst := h.1 c [closing c] (List.prefix_append [closing c] l)
        simp [hzero] at hfirst
    | some m₁ =>
      rw [Option.bind_some, ih]
      have hb := step_eq_some hstep
      constructor
      · rintro ⟨hinner, hwhole⟩
        refine ⟨fun a p hp => ?_, fun a => ?_⟩
        · rcases List.prefix_cons_iff.mp hp with rfl | ⟨q, rfl, hq⟩
          · simp
          · have hq := hinner a q hq
            have ha := hb a
            simp only [List.count_cons, List.count_nil, Nat.zero_add] at ha ⊢
            omega
        · have ha := hb a
          have hl := hwhole a
          simp only [List.count_cons, List.count_nil, Nat.zero_add] at ha ⊢
          omega
      · rintro ⟨hinner, hwhole⟩
        refine ⟨fun a p hp => ?_, fun a => ?_⟩
        · have hp := hinner a (b :: p) (List.prefix_cons_inj b |>.mpr hp)
          have ha := hb a
          simp only [List.count_cons, List.count_nil, Nat.zero_add] at ha hp
          omega
        · have ha := hb a
          have hl := hwhole a
          simp only [List.count_cons, List.count_nil, Nat.zero_add] at ha hl
          omega

/-- **Brackets that leave nothing open.** -/
theorem run_zero_iff (l : List (Brace α)) : run (fun _ => 0) l = some (fun _ => 0) ↔ Balanced l := by
  rw [run_eq_some_iff]
  constructor
  · rintro ⟨hinner, hwhole⟩
    exact ⟨fun a p hp => by simpa using hinner a p hp, fun a => by simpa using hwhole a⟩
  · rintro ⟨hinner, hwhole⟩
    exact ⟨fun a p hp => by simpa using hinner a p hp, fun a => by simpa using hwhole a⟩

theorem run_append (m : α → ℕ) (l l' : List (Brace α)) :
    run m (l ++ l') = (run m l).bind fun m => run m l' := by
  induction l generalizing m with
  | nil => rfl
  | cons b l ih =>
    rw [List.cons_append, run, run]
    cases step m b with
    | none => rfl
    | some m => exact ih m

end Brace
