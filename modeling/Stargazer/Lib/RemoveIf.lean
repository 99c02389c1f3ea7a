import Mathlib.Data.List.Basic
import Mathlib.Logic.Function.Basic

set_option relaxedAutoImplicit false
set_option autoImplicit false

/-!
# The moves of `std::remove_if`

`std::remove_if` does not remove elements.  It moves the elements to keep, in their order, over the
elements at the front of the range, and returns the place behind the last one; what stands there
and further on is in a moved-from state, or is an element that was to be removed.  `erase` destroys
these places.  So an element that is to be removed is destroyed only if no element is moved over it.

A range is a list of places.  The places between the last element kept and the element that is
looked at form a queue: an element to be removed is put at the end of it, and an element to be kept
is moved to the place at its front while its own place is put at the end.

## Main definitions

* `RemoveIf.removeIf` — the moves, and the places that are left over.
* `RemoveIf.move` — what a move does to the contents of the places.

## Main results

* `RemoveIf.left_map` — what the places that are left over contain.
-/

namespace RemoveIf

variable {α γ : Type}

/-- What `std::remove_if` does with a range of places. -/
structure Result (α : Type) where
  /-- The moves, destination first, in their order. -/
  moves : List (α × α) := []
  /-- The new range: the places, and where their contents come from. -/
  kept : List (α × α) := []
  /-- The places behind the new range. -/
  left : List α := []

/-- `std::remove_if` with the queue `q` of free places before the range. -/
def removeIf (p : α → Bool) : List α → List α → Result α
  | [], q => { left := q }
  | e :: es, q =>
    if p e then removeIf p es (q ++ [e])
    else
      match q with
      | [] =>
        let r := removeIf p es []
        { r with kept := (e, e) :: r.kept }
      | d :: q =>
        let r := removeIf p es (q ++ [e])
        { r with moves := (d, e) :: r.moves, kept := (d, e) :: r.kept }

section Equations

variable {p : α → Bool} {e : α} (es : List α)

-- the equations are derived here, once, for all the lemmas below
attribute [local simp] removeIf in
/-- A place to be removed is put at the end of the queue. -/
theorem removeIf_of_pos (q : List α) (he : p e = true) :
    removeIf p (e :: es) q = removeIf p es (q ++ [e]) := by
  cases q <;> simp [removeIf, he]

/-- Before the first element to be removed nothing is moved. -/
theorem removeIf_of_neg_nil (he : ¬ p e = true) :
    removeIf p (e :: es) [] =
      { removeIf p es [] with kept := (e, e) :: (removeIf p es []).kept } := by
  simp [removeIf, he]

/-- An element to be kept is moved to the front of the queue. -/
theorem removeIf_of_neg_cons (d : α) (q : List α) (he : ¬ p e = true) :
    removeIf p (e :: es) (d :: q) =
      { removeIf p es (q ++ [e]) with
        moves := (d, e) :: (removeIf p es (q ++ [e])).moves
        kept := (d, e) :: (removeIf p es (q ++ [e])).kept } := by
  simp [removeIf, he]

end Equations

/-- The places of the result are places of the range. -/
theorem left_perm (p : α → Bool) (es q : List α) :
    ((removeIf p es q).kept.map Prod.fst ++ (removeIf p es q).left).Perm (q ++ es) := by
  induction es generalizing q with
  | nil => simp [removeIf]
  | cons e es ih =>
    by_cases he : p e = true
    · rw [removeIf_of_pos es q he]
      simpa using ih (q ++ [e])
    · cases q with
      | nil =>
        rw [removeIf_of_neg_nil es he]
        simpa using (ih []).cons e
      | cons d q =>
        rw [removeIf_of_neg_cons es d q he]
        simpa using (ih (q ++ [e])).cons d

/-- Every move is from one place of the range to another. -/
theorem mem_of_mem_moves (p : α → Bool) (es q : List α) (hnodup : (q ++ es).Nodup) {m : α × α}
    (hm : m ∈ (removeIf p es q).moves) : m.1 ∈ q ++ es ∧ m.2 ∈ q ++ es ∧ m.1 ≠ m.2 := by
  induction es generalizing q with
  | nil => simp [removeIf] at hm
  | cons e es ih =>
    by_cases he : p e = true
    · rw [removeIf_of_pos es q he] at hm
      simpa using ih (q ++ [e]) (by simpa using hnodup) hm
    · cases q with
      | nil =>
        rw [removeIf_of_neg_nil es he] at hm
        obtain ⟨h1, h2, hne⟩ := ih [] (List.nodup_cons.mp hnodup).2 hm
        exact ⟨List.mem_cons_of_mem _ h1, List.mem_cons_of_mem _ h2, hne⟩
      | cons d q =>
        rw [removeIf_of_neg_cons es d q he] at hm
        have hd : d ∉ q ++ e :: es := (List.nodup_cons.mp hnodup).1
        rcases List.mem_cons.mp hm with rfl | hm
        · refine ⟨by simp, by simp, fun hc => hd ?_⟩
          simp only at hc
          simp [hc]
        · have hnodup' : (q ++ [e] ++ es).Nodup := by simpa using (List.nodup_cons.mp hnodup).2
          obtain ⟨h1, h2, hne⟩ := ih (q ++ [e]) hnodup' hm
          simp only [List.append_assoc, List.singleton_append] at h1 h2
          exact ⟨List.mem_cons_of_mem _ h1, List.mem_cons_of_mem _ h2, hne⟩

variable [DecidableEq α]

/-- The contents of the places after a move; `empty` is what a place contains that was moved
from. -/
def move (empty : γ) (c : α → γ) (m : α × α) : α → γ :=
  Function.update (Function.update c m.2 empty) m.1 (c m.2)

/-- The contents the places that are left over would have if nothing was moved over them. -/
def Queue (p : α → Bool) (empty : γ) (c : α → γ) (es q : List α) : List γ :=
  q.map c ++ es.map fun e => if p e then c e else empty

/-- **What is left over.** As many places as there are elements to keep are taken from the front of
the queue; those at the end of it have kept what they contained.

**Proof sketch.** Induction on the range.  A move takes the place at the front from the queue, and
the place it moves from, now empty, is put at the end. -/
theorem left_map (p : α → Bool) (empty : γ) (c : α → γ) (es q : List α)
    (hnodup : (q ++ es).Nodup) :
    (removeIf p es q).left.map ((removeIf p es q).moves.foldl (move empty) c) =
      (Queue p empty c es q).drop (es.countP fun e => !p e) := by
  induction es generalizing q c with
  | nil => simp [removeIf, Queue]
  | cons e es ih =>
    by_cases he : p e = true
    · rw [removeIf_of_pos es q he, ih c (q ++ [e]) (by simpa using hnodup)]
      simp [Queue, he]
    · cases q with
      | nil =>
        rw [removeIf_of_neg_nil es he, ih c [] (List.nodup_cons.mp hnodup).2]
        simp [Queue, he]
      | cons d q =>
        have hnodup' : (q ++ [e] ++ es).Nodup := by simpa using (List.nodup_cons.mp hnodup).2
        have hd : d ∉ q ++ e :: es := (List.nodup_cons.mp hnodup).1
        have he' : e ∉ q ++ es := by
          have hperm := List.perm_middle.nodup_iff.mp (List.nodup_cons.mp hnodup).2
          exact (List.nodup_cons.mp hperm).1
        simp only [List.mem_append, List.mem_cons, not_or] at hd he'
        -- the contents after the move, on the places of the queue and the range
        have hself : move empty c (d, e) e = empty := by
          rw [move, Function.update_of_ne (Ne.symm hd.2.1), Function.update_self]
        have hother : ∀ x, x ≠ d → x ≠ e → move empty c (d, e) x = c x := by
          intro x hxd hxe
          rw [move, Function.update_of_ne hxd, Function.update_of_ne hxe]
        have hq : q.map (move empty c (d, e)) = q.map c :=
          List.map_congr_left fun x hx => hother x (fun hc => hd.1 (hc ▸ hx)) fun hc =>
            he'.1 (hc ▸ hx)
        have hes : (es.map fun x => if p x then move empty c (d, e) x else empty) =
            es.map fun x => if p x then c x else empty :=
          List.map_congr_left fun x hx => by
            rw [hother x (fun hc => hd.2.2 (hc ▸ hx)) fun hc => he'.2 (hc ▸ hx)]
        rw [removeIf_of_neg_cons es d q he, List.foldl_cons, ih (move empty c (d, e)) (q ++ [e]) hnodup']
        simp [Queue, he, hself, hq, hes]

end RemoveIf
