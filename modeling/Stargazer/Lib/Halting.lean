import Mathlib.Data.List.Basic

set_option relaxedAutoImplicit false
set_option autoImplicit false

/-!
# Runs that fail or stop

A system that performs actions one after another, and that can come to an end in two ways: it *fails*,
which is what one wants to exclude, or it *stops* for a reason that is not looked at.

## Main definitions

* `Halting` — what is left after an action.
* `Halting.run` — a list of actions.
* `Halting.Meets` — every action meets a condition in the state it is performed in.
* `Halting.ReadsArray` — a loop to a fixed bound that reads an array of any length.

## Main results

* `Halting.run_append` — one list of actions after another.
* `Halting.run_ne_failed_iff` — if a condition tells exactly which actions do not fail, it tells
  exactly which lists of actions do not.
* `Halting.ReadsArray.run_cases` — what becomes of such a loop.
-/

/-- What is left after an action. -/
inductive Halting (σ : Type*)
  | going (s : σ)
  | stopped
  | failed

namespace Halting

variable {σ τ α : Type*}

/-- A function of the state. -/
def map (f : σ → τ) : Halting σ → Halting τ
  | going s => going (f s)
  | stopped => stopped
  | failed => failed

/-- The state, if there is one. -/
def state? : Halting σ → Option σ
  | going s => some s
  | stopped => none
  | failed => none

/-- What there may be is there, or it is over. -/
def ofOption : Option α → Halting α
  | some a => going a
  | none => stopped

@[simp] theorem going_ne_failed (s : σ) : going s ≠ failed := by simp

@[simp] theorem stopped_ne_failed : (stopped : Halting σ) ≠ failed := by simp

@[simp] theorem ofOption_ne_failed (a : Option α) : ofOption a ≠ failed := by cases a <;> simp [ofOption]

theorem state?_ofOption (a : Option α) : (ofOption a).state? = a := by cases a <;> rfl

@[simp] theorem map_eq_failed_iff {f : σ → τ} {h : Halting σ} : h.map f = failed ↔ h = failed := by
  cases h <;> simp [map]

/-- What is left of a state after a function. -/
theorem map_eq_going_iff {f : σ → τ} {h : Halting σ} {t : τ} :
    h.map f = going t ↔ ∃ s, h = going s ∧ f s = t := by
  cases h <;> simp [map]

theorem state?_map (f : σ → τ) (h : Halting σ) : (h.map f).state? = h.state?.map f := by
  cases h <;> rfl

/-- A list of actions, up to the first one after which there is no state. -/
def run (step : σ → α → Halting σ) : σ → List α → Halting σ
  | s, [] => going s
  | s, a :: as =>
    match step s a with
    | going s' => run step s' as
    | stopped => stopped
    | failed => failed

/-- One list of actions after another. -/
theorem run_append (step : σ → α → Halting σ) (s : σ) (as bs : List α) :
    run step s (as ++ bs) =
      match run step s as with
      | going s' => run step s' bs
      | stopped => stopped
      | failed => failed := by
  induction as generalizing s with
  | nil => rfl
  | cons a as ih =>
    rw [List.cons_append, run, run]
    cases step s a with
    | going s' => exact ih s'
    | stopped => rfl
    | failed => rfl

/-- Actions that are made of others. -/
theorem run_map {β : Type*} (step : σ → β → Halting σ) (f : α → β) (s : σ) (as : List α) :
    run step s (as.map f) = run (fun s a => step s (f a)) s as := by
  induction as generalizing s with
  | nil => rfl
  | cons a as ih =>
    rw [List.map_cons, run, run]
    cases step s (f a) with
    | going s' => exact ih s'
    | stopped => rfl
    | failed => rfl

/-- Every action that is performed meets the condition in the state it is performed in. -/
def Meets (step : σ → α → Halting σ) (guard : σ → α → Prop) : σ → List α → Prop
  | _, [] => True
  | s, a :: as => guard s a ∧ ∀ s', step s a = going s' → Meets step guard s' as

/-- **The exactness rule.** If the condition tells exactly which actions do not fail, then a list of
actions does not fail exactly if all of them that are performed meet it.

**Proof sketch.** Induction on the list of actions. -/
theorem run_ne_failed_iff {step : σ → α → Halting σ} {guard : σ → α → Prop}
    (hexact : ∀ s a, step s a ≠ failed ↔ guard s a) (s : σ) (as : List α) :
    run step s as ≠ failed ↔ Meets step guard s as := by
  induction as generalizing s with
  | nil => exact iff_of_true (going_ne_failed s) trivial
  | cons a as ih =>
    rw [Meets, ← hexact, run]
    cases h : step s a with
    | going s' =>
      refine (ih s').trans
        ⟨fun hmeets => ⟨going_ne_failed s', fun t ht => ?_⟩, fun hmeets => hmeets.2 s' rfl⟩
      cases ht
      exact hmeets
    | stopped =>
      refine iff_of_true stopped_ne_failed ⟨stopped_ne_failed, fun t ht => ?_⟩
      cases ht
    | failed => exact iff_of_false (fun hne => hne rfl) fun hmeets => hmeets.1 rfl

/-! ## Loops over an array -/

/-- A loop to a fixed bound reads an array: it fails behind the end, goes on at a good element and stops
at any other. -/
structure ReadsArray {n : ℕ} (step : σ → Fin n → Halting σ) (l : List α) (good : α → Prop) : Prop where
  behind : ∀ s (i : Fin n), l[i.val]? = none → step s i = failed
  next : ∀ s (i : Fin n) x, l[i.val]? = some x → good x → ∃ s', step s i = going s'
  other : ∀ s (i : Fin n) x, l[i.val]? = some x → ¬ good x → step s i = stopped

namespace ReadsArray

variable {n : ℕ} {step : σ → Fin n → Halting σ} {l : List α} {good : α → Prop}

/-- The loop from one place on.

**Proof sketch.** Induction on the number of places that are left. -/
theorem run_drop (h : ReadsArray step l good) (k : ℕ) (hk : k ≤ n) (hkl : k ≤ l.length)
    (hgood : ∀ x ∈ l.take k, good x) (s : σ) :
    (n ≤ l.length ∧ (∀ x ∈ l.take n, good x) ∧
        ∃ s', run step s ((List.finRange n).drop k) = going s') ∨
      (l.length < n ∧ (∀ x ∈ l, good x) ∧ run step s ((List.finRange n).drop k) = failed) ∨
        ((∃ x ∈ l.take n, ¬ good x) ∧ run step s ((List.finRange n).drop k) = stopped) := by
  obtain ⟨left, hleft⟩ : ∃ left, left + k = n := ⟨n - k, by omega⟩
  induction left generalizing k s with
  | zero =>
    obtain rfl : k = n := by omega
    rw [List.drop_of_length_le (Nat.le_of_eq List.length_finRange)]
    exact .inl ⟨hkl, hgood, s, rfl⟩
  | succ left ih =>
    have hlt : k < (List.finRange n).length := by
      rw [List.length_finRange]
      omega
    have hkn : k < n := by omega
    have hdrop : (List.finRange n).drop k = ⟨k, hkn⟩ :: (List.finRange n).drop (k + 1) := by
      rw [List.drop_eq_getElem_cons hlt, List.getElem_finRange]
      rfl
    rw [hdrop, run]
    by_cases hend : l.length ≤ k
    · have hnone : l[k]? = none := List.getElem?_eq_none hend
      rw [List.take_of_length_le hend] at hgood
      rw [h.behind s ⟨k, hkn⟩ hnone]
      exact .inr (.inl ⟨by omega, hgood, rfl⟩)
    · have hk' : k < l.length := by omega
      have hsome : l[k]? = some l[k] := List.getElem?_eq_getElem hk'
      by_cases hx : good l[k]
      · obtain ⟨s', hs'⟩ := h.next s ⟨k, hkn⟩ _ hsome hx
        rw [hs']
        refine ih (k + 1) (by omega) (by omega) ?_ s' (by omega)
        rw [List.take_succ_eq_append_getElem hk']
        intro x hmem
        rcases List.mem_append.mp hmem with hmem | hmem
        · exact hgood x hmem
        · rw [List.mem_singleton.mp hmem]
          exact hx
      · rw [h.other s ⟨k, hkn⟩ _ hsome hx]
        exact .inr (.inr ⟨⟨l[k], List.mem_take_iff_getElem.mpr ⟨k, by omega, rfl⟩, hx⟩, rfl⟩)

/-- **The loop** ends if the array is long enough and what is read is good; it fails if the array is
too short and all of it is good. -/
theorem run_cases (h : ReadsArray step l good) (s : σ) :
    (n ≤ l.length ∧ (∀ x ∈ l.take n, good x) ∧ ∃ s', run step s (List.finRange n) = going s') ∨
      (l.length < n ∧ (∀ x ∈ l, good x) ∧ run step s (List.finRange n) = failed) ∨
        ((∃ x ∈ l.take n, ¬ good x) ∧ run step s (List.finRange n) = stopped) := by
  have hrun := h.run_drop 0 (Nat.zero_le n) (Nat.zero_le _) (fun x hx => by cases hx) s
  rwa [List.drop_zero] at hrun

/-- **When something is read behind the array.** -/
theorem run_eq_failed_iff (h : ReadsArray step l good) (s : σ) :
    run step s (List.finRange n) = failed ↔ l.length < n ∧ ∀ x ∈ l, good x := by
  rcases h.run_cases s with ⟨hlen, -, s', hs'⟩ | ⟨hlen, hall, hfailed⟩ | ⟨⟨x, hx, hbad⟩, hstopped⟩
  · rw [hs']
    exact iff_of_false (going_ne_failed s') fun h => by omega
  · exact iff_of_true hfailed ⟨hlen, hall⟩
  · rw [hstopped]
    exact iff_of_false stopped_ne_failed fun h => hbad (h.2 x (List.mem_of_mem_take hx))

/-- **When the loop ends.** -/
theorem exists_run_eq_going_iff (h : ReadsArray step l good) (s : σ) :
    (∃ s', run step s (List.finRange n) = going s') ↔
      n ≤ l.length ∧ ∀ x ∈ l.take n, good x := by
  rcases h.run_cases s with ⟨hlen, hall, hs'⟩ | ⟨hlen, hall, hfailed⟩ | ⟨⟨x, hx, hbad⟩, hstopped⟩
  · exact iff_of_true hs' ⟨hlen, hall⟩
  · rw [hfailed]
    exact iff_of_false (fun ⟨_, h⟩ => by cases h) fun h => by omega
  · rw [hstopped]
    exact iff_of_false (fun ⟨_, h⟩ => by cases h) fun h => hbad (h.2 x hx)

end ReadsArray

end Halting
