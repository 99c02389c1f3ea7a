import Stargazer.Lib.Run

set_option relaxedAutoImplicit false
set_option autoImplicit false

/-!
# Endless runs and fairness

A program that never ends is described by an endless run, with steps of others in between that change
nothing.  That something happens in it at last depends on fairness: a kind of action that can be taken
from some time on is taken.

## Main definitions

* `Transition.Behaviour` — endless runs.
* `Transition.Behaviour.Fair` — a kind of action is treated fairly.

## Main results

* `Transition.Behaviour.runs` — a beginning of an endless run is a run.
* `Transition.Behaviour.eventually` — **the ranking rule**: a goal is reached if in every state before
  some kind of action brings it nearer and no other action leads away.
-/

namespace Transition

variable {σ α : Type*} {step : σ → α → Option σ} {s₀ : σ}

/-- An endless run; there is no action where something else takes a step. -/
structure Behaviour (step : σ → α → Option σ) (s₀ : σ) where
  state : ℕ → σ
  action : ℕ → Option α
  start : state 0 = s₀
  next : ∀ i, (action i = none ∧ state (i + 1) = state i) ∨
    ∃ a, action i = some a ∧ step (state i) a = some (state (i + 1))

namespace Behaviour

/-- The actions before a time. -/
def actions (b : Behaviour step s₀) : ℕ → List α
  | 0 => []
  | i + 1 => b.actions i ++ (b.action i).toList

/-- **A beginning of an endless run is a run.** -/
theorem runs (b : Behaviour step s₀) (i : ℕ) : Runs step s₀ (b.actions i) (b.state i) := by
  induction i with
  | zero =>
    rw [b.start]
    exact .nil s₀
  | succ i ih =>
    rcases b.next i with ⟨hnone, hstate⟩ | ⟨a, ha, hstep⟩
    · rw [actions, hnone, hstate, Option.toList_none, List.append_nil]
      exact ih
    · rw [actions, ha, Option.toList_some]
      exact ih.snoc trivial hstep

/-- The actions before a time are a beginning of those before a later one. -/
theorem actions_mono (b : Behaviour step s₀) {i j : ℕ} (h : i ≤ j) : b.actions i <+: b.actions j := by
  induction h with
  | refl => exact List.prefix_rfl
  | step _ ih => exact ih.trans (List.prefix_append _ _)

/-- An invariant holds from any time on. -/
theorem invariant (b : Behaviour step s₀) {I : σ → Prop}
    (hstep : ∀ s a s', I s → step s a = some s' → I s') {i j : ℕ} (hij : i ≤ j) (hi : I (b.state i)) :
    I (b.state j) := by
  induction hij with
  | refl => exact hi
  | @step j _ ih =>
    rcases b.next j with ⟨-, hstate⟩ | ⟨a, -, hstep'⟩
    · rw [hstate]
      exact ih
    · exact hstep _ _ _ ih hstep'

/-- **Fairness**: if from some time on one of the actions can be taken, then one is. -/
def Fair (b : Behaviour step s₀) (P : α → Prop) : Prop :=
  ∀ i, (∀ j, i ≤ j → ∃ a, P a ∧ (step (b.state j) a).isSome) →
    ∃ j, i ≤ j ∧ ∃ a, b.action j = some a ∧ P a

/-- **The ranking rule.** In every state before the goal there is a helpful kind of action, which can be
taken.  A step brings the state nearer to the goal; or it is not of this kind, and the same kind stays
helpful.

**Proof sketch.** Induction on the rank.  If the rank stays the same for ever, the helpful kind does too,
and by fairness such an action is taken, which makes the rank smaller. -/
theorem eventually (b : Behaviour step s₀) {κ : Type*} {kind : κ → α → Prop}
    (hfair : ∀ k, b.Fair (kind k)) {I goal : σ → Prop} {rank : σ → ℕ} {helpful : σ → κ}
    (hI : ∀ s a s', I s → step s a = some s' → I s')
    (hcan : ∀ s, I s → ¬ goal s → ∃ a, kind (helpful s) a ∧ (step s a).isSome)
    (hstep : ∀ s a s', I s → ¬ goal s → step s a = some s' → goal s' ∨ rank s' < rank s ∨
      (rank s' = rank s ∧ helpful s' = helpful s ∧ ¬ kind (helpful s) a))
    {i : ℕ} (hi : I (b.state i)) : ∃ j, i ≤ j ∧ goal (b.state j) := by
  induction hn : rank (b.state i) using Nat.strongRecOn generalizing i with
  | _ n ih =>
    subst hn
    by_contra hno
    have hgoal : ∀ j, i ≤ j → ¬ goal (b.state j) := fun j hj h => hno ⟨j, hj, h⟩
    have hinv : ∀ j, i ≤ j → I (b.state j) := fun j hj => b.invariant hI hj hi
    -- the rank cannot become smaller, so it stays the same
    have hsame : ∀ j, i ≤ j →
        rank (b.state j) = rank (b.state i) ∧ helpful (b.state j) = helpful (b.state i) := by
      intro j hj
      induction hj with
      | refl => exact ⟨rfl, rfl⟩
      | @step j hj ihj =>
        rcases b.next j with ⟨-, hstate⟩ | ⟨a, -, ha⟩
        · rw [hstate]
          exact ihj
        · rcases hstep _ _ _ (hinv j hj) (hgoal j hj) ha with h | h | ⟨hrank, hhelpful, -⟩
          · exact absurd h (hgoal _ (Nat.le_succ_of_le hj))
          · rw [ihj.1] at h
            obtain ⟨k, hk, hkgoal⟩ := ih _ h (hinv _ (Nat.le_succ_of_le hj)) rfl
            exact absurd hkgoal (hgoal k (Nat.le_trans (Nat.le_succ_of_le hj) hk))
          · exact ⟨hrank.trans ihj.1, hhelpful.trans ihj.2⟩
    obtain ⟨j, hj, a, ha, hkind⟩ := hfair (helpful (b.state i)) i fun j hj => by
      rw [← (hsame j hj).2]
      exact hcan _ (hinv j hj) (hgoal j hj)
    rcases b.next j with ⟨hnone, -⟩ | ⟨a', ha', hstep'⟩
    · cases hnone.symm.trans ha
    · obtain rfl := Option.some.inj (ha'.symm.trans ha)
      rcases hstep _ _ _ (hinv j hj) (hgoal j hj) hstep' with h | h | ⟨-, -, hnot⟩
      · exact hgoal _ (Nat.le_succ_of_le hj) h
      · have hafter : rank (b.state (j + 1)) = rank (b.state i) := (hsame _ (Nat.le_succ_of_le hj)).1
        have hbefore : rank (b.state j) = rank (b.state i) := (hsame j hj).1
        omega
      · rw [(hsame j hj).2] at hnot
        exact hnot hkind

end Behaviour

end Transition
