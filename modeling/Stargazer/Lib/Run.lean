import Mathlib.Data.List.Basic

set_option relaxedAutoImplicit false
set_option autoImplicit false

/-!
# Guarded runs of a partial step function

A system is given by a step function `step : σ → α → Option σ`; `none` means that the step aborts
(a failed assertion, a null dereference), so that no state follows.  A *guarded run* performs a
list of actions, each of which meets a condition `guard` in the state it is performed in.

What is proved about such a system is an invariant of the states its guarded runs reach.  The
induction over runs is packaged here, so that a development only proves what one step does.

## Main definitions

* `Transition.Reaches` — the guarded runs, with their list of actions.
* `Transition.Maintains` — no step of a run aborts and a property holds in every state of it.

## Main results

* `Transition.Reaches.invariant` — what holds at the start and is kept by every guarded step holds
  at the end.
* `Transition.Reaches.length_add_le` — a decreasing measure bounds the length of runs.
* `Transition.Reaches.append`, `Transition.Reaches.snoc`, `Transition.Reaches.of_snoc` — composition
  of runs.
* `Transition.Reaches.unwinding` — a run can be followed without some of its actions.
* `Transition.maintains_iff_reaches` — if a guard tells exactly which single steps keep a property,
  it tells exactly which runs do.
-/

namespace Transition

variable {σ α : Type*} {step : σ → α → Option σ} {guard : σ → α → Prop}

/-- `Reaches step guard s as t`: performing the actions `as` from `s` leads to `t`, no step
aborts, and every action meets the guard in the state it is performed in. -/
inductive Reaches (step : σ → α → Option σ) (guard : σ → α → Prop) : σ → List α → σ → Prop
  | nil (s : σ) : Reaches step guard s [] s
  | cons {s s' t : σ} {a : α} {as : List α} :
      guard s a → step s a = some s' → Reaches step guard s' as t →
        Reaches step guard s (a :: as) t

/-- The runs without a condition on their steps. -/
abbrev Runs (step : σ → α → Option σ) : σ → List α → σ → Prop :=
  Reaches step fun _ _ => True

namespace Reaches

/-- Runs compose. -/
theorem append {s t r : σ} {as bs : List α} (h : Reaches step guard s as t)
    (h' : Reaches step guard t bs r) : Reaches step guard s (as ++ bs) r := by
  induction h with
  | nil => exact h'
  | cons hg hs _ ih => exact .cons hg hs (ih h')

/-- A run extended by one more step. -/
theorem snoc {s t r : σ} {as : List α} {a : α} (h : Reaches step guard s as t)
    (hg : guard t a) (hs : step t a = some r) : Reaches step guard s (as ++ [a]) r :=
  h.append (.cons hg hs (.nil r))

/-- A run is cut in two. -/
theorem of_append {s t : σ} {as bs : List α} (h : Reaches step guard s (as ++ bs) t) :
    ∃ r, Reaches step guard s as r ∧ Reaches step guard r bs t := by
  induction as generalizing s with
  | nil => exact ⟨s, .nil s, h⟩
  | cons a as ih =>
    cases h with
    | cons hg hs hrest =>
      obtain ⟨r, hr, hr'⟩ := ih hrest
      exact ⟨r, .cons hg hs hr, hr'⟩

/-- The last step of a run. -/
theorem of_snoc {s t : σ} {as : List α} {a : α} (h : Reaches step guard s (as ++ [a]) t) :
    ∃ r, Reaches step guard s as r ∧ guard r a ∧ step r a = some t := by
  obtain ⟨r, hr, hlast⟩ := h.of_append
  cases hlast with
  | cons hg hs hnil =>
    cases hnil with
    | nil => exact ⟨r, hr, hg, hs⟩

/-- **The invariant rule.** What holds at the start and is kept by every guarded step holds at
the end of every guarded run.

**Proof sketch.** Induction on the run. -/
theorem invariant {I : σ → Prop}
    (hstep : ∀ s a s', I s → guard s a → step s a = some s' → I s') {s t : σ} {as : List α}
    (h : Reaches step guard s as t) (h0 : I s) : I t := by
  induction h with
  | nil => exact h0
  | cons hg hs _ ih => exact ih (hstep _ _ _ h0 hg hs)

/-- **The measure rule.** A run along which an invariant holds and a measure decreases is not
longer than the measure at its start.

**Proof sketch.** Induction on the run. -/
theorem length_add_le {I : σ → Prop} {μ : σ → ℕ}
    (hstep : ∀ s a s', I s → guard s a → step s a = some s' → I s' ∧ μ s' < μ s) {s t : σ}
    {as : List α} (h : Reaches step guard s as t) (h0 : I s) : as.length + μ t ≤ μ s := by
  induction h with
  | nil => simp
  | cons hg hs _ ih =>
    obtain ⟨hI, hlt⟩ := hstep _ _ _ h0 hg hs
    have := ih hI
    rw [List.length_cons]
    omega

/-- A run under a guard is a run under every weaker guard. -/
theorem mono {guard' : σ → α → Prop} (hgg : ∀ s a, guard s a → guard' s a) {s t : σ}
    {as : List α} (h : Reaches step guard s as t) : Reaches step guard' s as t := by
  induction h with
  | nil => exact .nil _
  | cons hg hs _ ih => exact .cons (hgg _ _ hg) hs ih

/-- A run is a run of every system that has the same steps and more. -/
theorem mono_step {step' : σ → α → Option σ}
    (hss : ∀ s a s', step s a = some s' → step' s a = some s') {s t : σ} {as : List α}
    (h : Reaches step guard s as t) : Reaches step' guard s as t := by
  induction h with
  | nil => exact .nil _
  | cons hg hs _ ih => exact .cons hg (hss _ _ _ hs) ih

/-- What is known of the actions can be put into the guard. -/
theorem guard_and {P : α → Prop} {s t : σ} {as : List α} (h : Reaches step guard s as t)
    (hP : ∀ a ∈ as, P a) : Reaches step (fun s a => guard s a ∧ P a) s as t := by
  induction h with
  | nil => exact .nil _
  | @cons _ _ _ a as hg hs _ ih =>
    exact .cons ⟨hg, hP a (by simp)⟩ hs (ih fun b hb => hP b (by simp [hb]))

/-- **The unwinding rule.** Let `R` relate a state of the whole system to a state of the system
without some actions.  If a step by an action that is kept can be followed, and a step by another
action needs not be followed, then every guarded run can be followed by the run of the actions that
are kept.

**Proof sketch.** Induction on the run. -/
theorem unwinding {R : σ → σ → Prop} {keep : α → Bool}
    (hkeep : ∀ x y a x', keep a = true → R x y → guard x a → step x a = some x' →
      ∃ y', step y a = some y' ∧ R x' y')
    (hdrop : ∀ x y a x', keep a = false → R x y → guard x a → step x a = some x' → R x' y)
    {x x' y : σ} {as : List α} (h : Reaches step guard x as x') (h0 : R x y) :
    ∃ y', Runs step y (as.filter keep) y' ∧ R x' y' := by
  induction h generalizing y with
  | nil => exact ⟨y, .nil y, h0⟩
  | @cons x x₁ x' a as hg hs _ ih =>
    cases hk : keep a with
    | true =>
      obtain ⟨y₁, hy₁, hR⟩ := hkeep x y a x₁ hk h0 hg hs
      obtain ⟨y', hrun, hR'⟩ := ih hR
      refine ⟨y', ?_, hR'⟩
      rw [List.filter_cons_of_pos hk]
      exact .cons trivial hy₁ hrun
    | false =>
      obtain ⟨y', hrun, hR'⟩ := ih (hdrop x y a x₁ hk h0 hg hs)
      refine ⟨y', ?_, hR'⟩
      rwa [List.filter_cons_of_neg (by simp [hk])]

end Reaches

/-- Performing the actions from `s`, no step aborts, and `P` holds in every state, the first and
the last one included. -/
def Maintains (step : σ → α → Option σ) (P : σ → Prop) : σ → List α → Prop
  | s, [] => P s
  | s, a :: as => P s ∧ ∃ s', step s a = some s' ∧ Maintains step P s' as

/-- The property holds in the first state. -/
theorem Maintains.head {P : σ → Prop} {s : σ} {as : List α} (h : Maintains step P s as) : P s := by
  cases as with
  | nil => exact h
  | cons a as => exact h.1

/-- **The exactness rule.** Let `A` be kept by every step from a state with `P`.  If, in the
states with `A` and `P`, the guard holds exactly of the actions that neither abort nor lose `P`,
then a run never loses `P` exactly if all its steps meet the guard.

**Proof sketch.** Induction on the list of actions. -/
theorem maintains_iff_reaches {A P : σ → Prop}
    (hkeep : ∀ s a s', A s → P s → step s a = some s' → A s')
    (hexact : ∀ s a, A s → P s → ((∃ s', step s a = some s' ∧ P s') ↔ guard s a)) {s : σ}
    (as : List α) (hA : A s) (hP : P s) :
    Maintains step P s as ↔ ∃ t, Reaches step guard s as t := by
  induction as generalizing s with
  | nil => exact ⟨fun _ => ⟨s, .nil s⟩, fun _ => hP⟩
  | cons a as ih =>
    constructor
    · rintro ⟨-, s', hs, hrest⟩
      obtain ⟨t, ht⟩ := (ih (hkeep s a s' hA hP hs) hrest.head).mp hrest
      exact ⟨t, .cons ((hexact s a hA hP).mp ⟨s', hs, hrest.head⟩) hs ht⟩
    · rintro ⟨t, ht⟩
      cases ht with
      | cons hg hs hrest =>
        obtain ⟨s', hs', hP'⟩ := (hexact s a hA hP).mpr hg
        obtain rfl : s' = _ := Option.some.inj (hs'.symm.trans hs)
        exact ⟨hP, s', hs, (ih (hkeep s a s' hA hP hs) hP').mpr ⟨t, hrest⟩⟩

/-- **The exactness rule for steps that may be refused.** If, in the states with `A` and `P`, a step
that is not refused keeps `P` exactly if it meets the guard, then a run never loses `P` exactly if
all its steps meet the guard.

**Proof sketch.** The exactness rule, with the guard that the step is not refused in addition. -/
theorem maintains_iff_reaches_of_step {A P : σ → Prop}
    (hkeep : ∀ s a s', A s → step s a = some s' → A s')
    (hexact : ∀ s a s', A s → P s → step s a = some s' → (P s' ↔ guard s a)) {s : σ}
    (as : List α) (hA : A s) (hP : P s) :
    Maintains step P s as ↔ ∃ t, Reaches step guard s as t := by
  have hrule : Maintains step P s as ↔
      ∃ t, Reaches step (fun s a => guard s a ∧ ∃ s', step s a = some s') s as t := by
    refine maintains_iff_reaches (fun s a s' hA _ => hkeep s a s' hA) (fun s a hA hP => ?_) as hA hP
    constructor
    · rintro ⟨s', hs, hP'⟩
      exact ⟨(hexact s a s' hA hP hs).mp hP', s', hs⟩
    · rintro ⟨hg, s', hs⟩
      exact ⟨s', hs, (hexact s a s' hA hP hs).mpr hg⟩
  rw [hrule]
  refine exists_congr fun t => ⟨fun h => h.mono fun _ _ hg => hg.1, fun h => ?_⟩
  clear hA hP hrule
  induction h with
  | nil => exact .nil _
  | cons hg hs _ ih => exact .cons ⟨hg, _, hs⟩ hs ih

end Transition
