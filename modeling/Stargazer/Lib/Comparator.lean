import Mathlib.Data.Set.Basic

set_option relaxedAutoImplicit false
set_option autoImplicit false

/-!
# Comparators that tell keys apart

A comparator of the kind ordered containers use: it compares two elements in at most one way, and in no
way exactly if they have the same key.  Such a comparator is a strict weak order on a set iff no three
elements of the set are compared in a circle.

## Main definitions

* `Comparator.TellsApart` — a comparator that tells keys apart.

## Main results

* `Comparator.TellsApart.isStrictWeakOrder_iff` — the comparator is a strict weak order iff there is no
  circle.
-/

namespace Comparator

variable {α κ : Type*} {key : α → κ} {lt : α → α → Prop}

/-- Of two elements at most one is less than the other, and none iff they have the same key. -/
structure TellsApart (key : α → κ) (lt : α → α → Prop) : Prop where
  /-- At most one way. -/
  asymm : ∀ a b, lt a b → ¬ lt b a
  /-- None for the same key. -/
  key_eq_iff : ∀ a b, ¬ lt a b ∧ ¬ lt b a ↔ key a = key b
  /-- Only the key matters. -/
  congr : ∀ a a' b, key a = key a' → (lt a b ↔ lt a' b)

namespace TellsApart

/-- Only the key matters on the right as well. -/
theorem congr_right (h : TellsApart key lt) {a b b' : α} (hkey : key b = key b') :
    lt a b ↔ lt a b' := by
  have hstep : ∀ {c c' : α}, key c = key c' → lt a c → lt a c' := by
    intro c c' hc hac
    by_contra hnot
    by_cases hca : lt c' a
    · exact h.asymm a c hac ((h.congr c c' a hc).2 hca)
    · have hsame := (h.key_eq_iff a c').1 ⟨hnot, hca⟩
      exact ((h.key_eq_iff a c).2 (hsame.trans hc.symm)).1 hac
  exact ⟨hstep hkey, hstep hkey.symm⟩

theorem irrefl (h : TellsApart key lt) (a : α) : ¬ lt a a := fun haa => h.asymm a a haa haa

/-- Elements that are compared by what they contain. -/
theorem comap {β : Type*} (h : TellsApart key lt) (f : β → α) :
    TellsApart (fun b => key (f b)) fun b b' => lt (f b) (f b') where
  asymm b b' := h.asymm (f b) (f b')
  key_eq_iff b b' := h.key_eq_iff (f b) (f b')
  congr b b' c := h.congr (f b) (f b') (f c)

/-- Without circles the comparator is transitive. -/
theorem trans_of_acyclic (h : TellsApart key lt) {S : Set α}
    (hacyclic : ¬ ∃ a ∈ S, ∃ b ∈ S, ∃ c ∈ S, lt a b ∧ lt b c ∧ lt c a) {a b c : α} (ha : a ∈ S)
    (hb : b ∈ S) (hc : c ∈ S) (hab : lt a b) (hbc : lt b c) : lt a c := by
  by_contra hnot
  by_cases hca : lt c a
  · exact hacyclic ⟨a, ha, b, hb, c, hc, hab, hbc, hca⟩
  · -- the outer elements have the same key, so the one between them is compared both ways
    have hsame := (h.key_eq_iff a c).1 ⟨hnot, hca⟩
    exact h.asymm a b hab ((h.congr_right hsame).2 hbc)

/-- **The comparator is a strict weak order** on a set iff the set contains no circle. -/
theorem isStrictWeakOrder_iff (h : TellsApart key lt) (S : Set α) :
    IsStrictWeakOrder S (fun a b => lt a b) ↔
      ¬ ∃ a ∈ S, ∃ b ∈ S, ∃ c ∈ S, lt a b ∧ lt b c ∧ lt c a := by
  constructor
  · rintro hweak ⟨a, ha, b, hb, c, hc, hab, hbc, hca⟩
    have hac : lt a c := hweak.trans ⟨a, ha⟩ ⟨b, hb⟩ ⟨c, hc⟩ hab hbc
    exact h.asymm a c hac hca
  · intro hacyclic
    refine { irrefl := fun a => h.irrefl a, trans := ?_, incomp_trans := ?_ }
    · rintro ⟨a, ha⟩ ⟨b, hb⟩ ⟨c, hc⟩ hab hbc
      exact h.trans_of_acyclic hacyclic ha hb hc hab hbc
    · rintro ⟨a, ha⟩ ⟨b, hb⟩ ⟨c, hc⟩ hab hbc
      have hkab := (h.key_eq_iff a b).1 hab
      have hkbc := (h.key_eq_iff b c).1 hbc
      exact (h.key_eq_iff a c).2 (hkab.trans hkbc)

end TellsApart

end Comparator
