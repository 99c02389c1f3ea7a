import Mathlib.Data.List.Count

set_option relaxedAutoImplicit false
set_option autoImplicit false

/-!
# Entries for the members of a family

The members of a family are at places, each at one or at none, and a list holds entries for places,
perhaps several for one.  Members come, go and move, and with each of them an entry is taken out and
an entry is put in.

## Main definitions

* `Stargazer.changeEntries` — an entry is taken out and one is put in.
* `Stargazer.Balanced` — a change of the entries that fits the move of a member.

## Main results

* `Stargazer.mem_changeEntries_iff_balanced` — the changes that keep the entries where the members
  are.
-/

namespace Stargazer

variable {α : Type*} [DecidableEq α]

/-- Take an entry out, if there is one, and put an entry in. -/
def changeEntries (M : List α) (del add : Option α) : List α := del.elim M M.erase ++ add.toList

/-- The entries after a change: more than one of those that are taken out must have been there. -/
theorem mem_changeEntries_iff {M : List α} {del add : Option α} {x : α} :
    x ∈ changeEntries M del add ↔
      add = some x ∨ (del = some x ∧ 2 ≤ M.count x) ∨ (del ≠ some x ∧ x ∈ M) := by
  have herase : ∀ d, x ∈ M.erase d ↔ (d = x ∧ 2 ≤ M.count x) ∨ (d ≠ x ∧ x ∈ M) := by
    intro d
    by_cases hd : d = x
    · subst hd
      rw [← List.count_pos_iff, List.count_erase_self]
      have hcount : 0 < M.count d - 1 ↔ 2 ≤ M.count d := by omega
      simpa using hcount
    · simp [hd, List.mem_erase_of_ne (Ne.symm hd)]
  cases del with
  | none => simp [changeEntries, or_comm]
  | some d => simp [changeEntries, herase, or_comm, eq_comm]

/-- A change of the entries that fits a change of one member, which is at `before` and then at
`after`; `others` tells where the other members are. -/
structure Balanced (M : List α) (others : α → Prop) (before after del add : Option α) : Prop where
  /-- The entry that is taken out is the last one exactly if nobody is there any more. -/
  taken : ∀ x, del = some x → add ≠ some x → x ∈ M →
    (2 ≤ M.count x ↔ others x ∨ after = some x)
  /-- There is an entry where the member is from now on. -/
  gained : ∀ x, after = some x → add ≠ some x → x ∈ M
  /-- Somebody is still where the member was, unless an entry is taken out there. -/
  lost : ∀ x, before = some x → del ≠ some x → others x ∨ after = some x
  /-- Somebody is where an entry is put in. -/
  put : ∀ x, add = some x → others x ∨ after = some x

/-- **Which changes fit.** If the entries are where the members are, they still are after a change
exactly if it is balanced.

**Proof sketch.** Point by point: at the entry put in, at the one taken out, and elsewhere, where the
entries are the ones before. -/
theorem mem_changeEntries_iff_balanced {M : List α} {others : α → Prop}
    {before after del add : Option α} (h : ∀ x, x ∈ M ↔ others x ∨ before = some x) :
    (∀ x, x ∈ changeEntries M del add ↔ others x ∨ after = some x) ↔
      Balanced M others before after del add := by
  constructor
  · intro h'
    refine ⟨fun x hdel hadd hx => ?_, fun x hafter hadd => ?_, fun x hbefore hdel => ?_,
      fun x hadd => ?_⟩
    · rw [← h' x, mem_changeEntries_iff]
      simp [hdel, hadd]
    · rcases mem_changeEntries_iff.1 ((h' x).2 (.inr hafter)) with hx | ⟨-, hx⟩ | ⟨-, hx⟩
      · exact absurd hx hadd
      · exact List.count_pos_iff.1 (by omega)
      · exact hx
    · exact (h' x).1 (mem_changeEntries_iff.2 (.inr (.inr ⟨hdel, (h x).2 (.inr hbefore)⟩)))
    · exact (h' x).1 (mem_changeEntries_iff.2 (.inl hadd))
  · intro hb x
    rw [mem_changeEntries_iff]
    -- whoever is there afterwards was there before, or has an entry put in
    have hold : others x ∨ after = some x → add ≠ some x → x ∈ M := by
      rintro (ho | ha) hadd
      · exact (h x).2 (.inl ho)
      · exact hb.gained x ha hadd
    by_cases hadd : add = some x
    · exact iff_of_true (.inl hadd) (hb.put x hadd)
    by_cases hdel : del = some x
    · by_cases hx : x ∈ M
      · rw [← hb.taken x hdel hadd hx]
        simp [hadd, hdel]
      · have hcount : M.count x = 0 := List.count_eq_zero.2 hx
        simp only [hadd, hdel, hcount, false_or]
        exact iff_of_false (by simp) fun ho => hx (hold ho hadd)
    · simp only [hadd, hdel, false_or, false_and, ne_eq, not_false_eq_true, true_and]
      refine ⟨fun hx => ?_, fun ho => hold ho hadd⟩
      rcases (h x).1 hx with ho | hbefore
      · exact .inl ho
      · exact hb.lost x hbefore hdel

end Stargazer
