import Mathlib.Data.List.Basic

set_option relaxedAutoImplicit false
set_option autoImplicit false

/-!
# Erasing from a vector while walking along it

A loop walks along a vector with a position, visits the element there, and either keeps it, perhaps
changed, or erases it.  It goes on with the next position in both cases.  Behind an erased element
the elements have moved by one place, so the one that follows it is not visited; and when the last
element is erased, the position is behind the end, where the loop does not stop but follows the
position.

## Main definitions

* `EraseScan.loop` — the loop; following a position behind the end is a fault.
* `EraseScan.sweep` — what the loop is to do: every element is visited once.
* `EraseScan.Right` — the loop does that.

## Main results

* `EraseScan.right_iff` — the loop does it iff no element is erased.
* `EraseScan.loop_invariant` — what every visit keeps is kept by the loop.
-/

namespace EraseScan

variable {σ α : Type*}

/-- What a loop leaves behind. -/
structure Result (σ α : Type*) where
  /-- The state of the visitor. -/
  state : σ
  /-- The vector. -/
  vec : List α
  /-- The elements that were visited. -/
  visited : List α
  /-- Was a position behind the end followed? -/
  fault : Bool

/-- The loop.  A visit gives the new element, `none` if it is to be erased. -/
def loop (visit : σ → α → σ × Option α) (s : σ) (vec : List α) (pos : ℕ) (visited : List α) :
    Result σ α :=
  if h : pos < vec.length then
    match visit s vec[pos] with
    | (s', some x) => loop visit s' (vec.set pos x) (pos + 1) (visited ++ [vec[pos]])
    | (s', none) => loop visit s' (vec.eraseIdx pos) (pos + 1) (visited ++ [vec[pos]])
  else ⟨s, vec, visited, pos ≠ vec.length⟩
termination_by vec.length - pos
decreasing_by
  · rw [List.length_set]
    omega
  · rw [List.length_eraseIdx_of_lt h]
    omega

/-- Every element is visited once; those that are kept stay in their order. -/
def sweep (visit : σ → α → σ × Option α) : σ → List α → σ × List α
  | s, [] => (s, [])
  | s, x :: l =>
    ((sweep visit (visit s x).1 l).1, (visit s x).2.toList ++ (sweep visit (visit s x).1 l).2)

/-- The loop stays inside the vector, visits every element once and leaves what it is to leave. -/
structure Right (visit : σ → α → σ × Option α) (s : σ) (vec : List α) : Prop where
  fault : (loop visit s vec 0 []).fault = false
  visited : (loop visit s vec 0 []).visited = vec
  left : (loop visit s vec 0 []).vec = (sweep visit s vec).2
  state : (loop visit s vec 0 []).state = (sweep visit s vec).1

section Steps

variable (visit : σ → α → σ × Option α) (s : σ) (kept rest visited : List α) (x : α)

/-- At the end. -/
theorem loop_end : loop visit s kept kept.length visited = ⟨s, kept, visited, false⟩ := by
  rw [loop, dif_neg (Nat.lt_irrefl _)]
  simp

/-- Behind the end. -/
theorem loop_behind : loop visit s kept (kept.length + 1) visited = ⟨s, kept, visited, true⟩ := by
  rw [loop, dif_neg (by omega)]
  simp

/-- An element is kept. -/
theorem loop_keep {s' : σ} {y : α} (h : visit s x = (s', some y)) :
    loop visit s (kept ++ x :: rest) kept.length visited =
      loop visit s' ((kept ++ [y]) ++ rest) (kept ++ [y]).length (visited ++ [x]) := by
  have hlt : kept.length < (kept ++ x :: rest).length := by simp
  have hx : (kept ++ x :: rest)[kept.length] = x := by simp
  rw [loop, dif_pos hlt, hx, h]
  simp

/-- An element is erased. -/
theorem loop_erase {s' : σ} (h : visit s x = (s', none)) :
    loop visit s (kept ++ x :: rest) kept.length visited =
      loop visit s' (kept ++ rest) (kept.length + 1) (visited ++ [x]) := by
  have hlt : kept.length < (kept ++ x :: rest).length := by simp
  have hx : (kept ++ x :: rest)[kept.length] = x := by simp
  rw [loop, dif_pos hlt, hx, h]
  simp [List.eraseIdx_append_of_length_le]

/-- The last element is erased. -/
theorem loop_erase_last {s' : σ} (h : visit s x = (s', none)) :
    loop visit s (kept ++ [x]) kept.length visited = ⟨s', kept, visited ++ [x], true⟩ := by
  rw [loop_erase visit s kept [] visited x h, List.append_nil, loop_behind]

/-- An element is erased, and the next one is not visited. -/
theorem loop_erase_skip {s' : σ} (y : α) (h : visit s x = (s', none)) :
    loop visit s (kept ++ x :: y :: rest) kept.length visited =
      loop visit s' ((kept ++ [y]) ++ rest) (kept ++ [y]).length (visited ++ [x]) := by
  rw [loop_erase visit s kept (y :: rest) visited x h]
  simp

end Steps

/-! ## What the loop keeps -/

/-- **The rule for loops.**  What every visit keeps, of the state and the vector, is kept by the loop:
the element that is visited is changed or erased.

**Proof sketch.** Induction on the part of the vector that is ahead, whose first element is visited;
after an erased element another one is passed over. -/
theorem loop_invariant {visit : σ → α → σ × Option α} {I : σ → List α → Prop}
    (hvisit : ∀ s kept x rest, I s (kept ++ x :: rest) →
      I (visit s x).1 (kept ++ (visit s x).2.toList ++ rest)) :
    ∀ (n : ℕ) (s : σ) (kept rest visited : List α), rest.length ≤ n → I s (kept ++ rest) →
      I (loop visit s (kept ++ rest) kept.length visited).state
        (loop visit s (kept ++ rest) kept.length visited).vec := by
  intro n
  induction n with
  | zero =>
    intro s kept rest visited hn h
    obtain rfl : rest = [] := List.length_eq_zero_iff.1 (Nat.le_zero.1 hn)
    rw [List.append_nil] at h ⊢
    rw [loop_end]
    exact h
  | succ n ih =>
    intro s kept rest visited hn h
    cases rest with
    | nil =>
      rw [List.append_nil] at h ⊢
      rw [loop_end]
      exact h
    | cons x rest =>
      have hnext := hvisit s kept x rest h
      simp only [List.length_cons] at hn
      cases hv : visit s x with
      | mk s' o =>
        rw [hv] at hnext
        cases o with
        | some y =>
          rw [loop_keep visit s kept rest visited x hv]
          exact ih s' (kept ++ [y]) rest _ (by omega) hnext
        | none =>
          rw [Option.toList_none, List.append_nil] at hnext
          cases rest with
          | nil =>
            rw [loop_erase_last visit s kept visited x hv]
            rwa [List.append_nil] at hnext
          | cons y rest =>
            rw [loop_erase_skip visit s kept rest visited x y hv]
            simp only [List.length_cons] at hn
            refine ih s' (kept ++ [y]) rest _ (by omega) ?_
            rwa [List.append_assoc]

/-! ## When the loop is right -/

/-- No element of the sweep is erased. -/
def Keeps (visit : σ → α → σ × Option α) : σ → List α → Prop
  | _, [] => True
  | s, x :: l => (visit s x).2.isSome ∧ Keeps visit (visit s x).1 l

/-- If nothing is erased, the loop is a sweep. -/
theorem loop_of_keeps {visit : σ → α → σ × Option α} {s : σ} {rest : List α}
    (h : Keeps visit s rest) (kept visited : List α) :
    loop visit s (kept ++ rest) kept.length visited =
      ⟨(sweep visit s rest).1, kept ++ (sweep visit s rest).2, visited ++ rest, false⟩ := by
  induction rest generalizing s kept visited with
  | nil =>
    rw [List.append_nil, loop_end]
    simp [sweep]
  | cons x rest ih =>
    obtain ⟨hx, hrest⟩ := h
    obtain ⟨y, hy⟩ := Option.isSome_iff_exists.1 hx
    have hv : visit s x = ((visit s x).1, some y) := Prod.ext rfl hy
    rw [loop_keep visit s kept rest visited x hv, ih hrest]
    simp [sweep, hy]

/-- The loop visits no more elements than are ahead. -/
theorem length_visited_le (visit : σ → α → σ × Option α) :
    ∀ (n : ℕ) (s : σ) (kept rest visited : List α), rest.length ≤ n →
      (loop visit s (kept ++ rest) kept.length visited).visited.length ≤
        visited.length + rest.length := by
  intro n
  induction n with
  | zero =>
    intro s kept rest visited hn
    obtain rfl : rest = [] := List.length_eq_zero_iff.1 (Nat.le_zero.1 hn)
    rw [List.append_nil, loop_end]
    simp
  | succ n ih =>
    intro s kept rest visited hn
    cases rest with
    | nil =>
      rw [List.append_nil, loop_end]
      simp
    | cons x rest =>
      have hlen : (visited ++ [x]).length = visited.length + 1 := by simp
      simp only [List.length_cons] at hn ⊢
      cases hv : visit s x with
      | mk s' o =>
        cases o with
        | some y =>
          rw [loop_keep visit s kept rest visited x hv]
          have hle := ih s' (kept ++ [y]) rest (visited ++ [x]) (by omega)
          rw [hlen] at hle
          omega
        | none =>
          cases rest with
          | nil =>
            rw [loop_erase_last visit s kept visited x hv]
            simp
          | cons y rest =>
            rw [loop_erase_skip visit s kept rest visited x y hv]
            simp only [List.length_cons] at hn ⊢
            have hle := ih s' (kept ++ [y]) rest (visited ++ [x]) (by omega)
            rw [hlen] at hle
            omega

/-- If the loop stays inside the vector and visits as many elements as there are, none is erased. -/
theorem keeps_of_visited {visit : σ → α → σ × Option α} {s : σ} {rest : List α}
    (kept visited : List α)
    (hfault : (loop visit s (kept ++ rest) kept.length visited).fault = false)
    (hvisited : visited.length + rest.length ≤
      (loop visit s (kept ++ rest) kept.length visited).visited.length) : Keeps visit s rest := by
  induction rest generalizing s kept visited with
  | nil => trivial
  | cons x rest ih =>
    have hlen : (visited ++ [x]).length = visited.length + 1 := by simp
    cases hv : visit s x with
    | mk s' o =>
      cases o with
      | some y =>
        rw [loop_keep visit s kept rest visited x hv] at hfault hvisited
        rw [List.length_cons] at hvisited
        have hrest : Keeps visit s' rest := ih (kept ++ [y]) (visited ++ [x]) hfault (by omega)
        rw [Keeps, hv]
        exact ⟨rfl, hrest⟩
      | none =>
        cases rest with
        | nil =>
          rw [loop_erase_last visit s kept visited x hv] at hfault
          cases hfault
        | cons y rest =>
          -- the element behind the erased one is missing
          rw [loop_erase_skip visit s kept rest visited x y hv] at hvisited
          have hle := length_visited_le visit rest.length s' (kept ++ [y]) rest (visited ++ [x])
            (Nat.le_refl _)
          rw [hlen] at hle
          simp only [List.length_cons] at hvisited
          omega

/-- **When the loop is right**: when nothing is erased. -/
theorem right_iff (visit : σ → α → σ × Option α) (s : σ) (vec : List α) :
    Right visit s vec ↔ Keeps visit s vec := by
  constructor
  · intro h
    refine keeps_of_visited [] [] h.fault ?_
    rw [List.nil_append, List.length_nil, Nat.zero_add]
    exact Nat.le_of_eq (congrArg List.length h.visited).symm
  · intro h
    have hloop := loop_of_keeps h [] []
    rw [List.nil_append, List.length_nil] at hloop
    exact ⟨by rw [hloop], by rw [hloop, List.nil_append], by rw [hloop, List.nil_append],
      by rw [hloop]⟩

end EraseScan
