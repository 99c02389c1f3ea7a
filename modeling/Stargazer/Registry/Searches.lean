import Stargazer.Lib.Run
import Stargazer.Registry.ConfRegistry

set_option relaxedAutoImplicit false
set_option autoImplicit false

/-!
# Searches while a registry changes

A search over the services or corporations goes on while entries are added and deleted.  What it is
to do is said with two records for each handle that the code does not have: the entries that have
been there since the search was opened, and those it has returned.

A descriptor is an iterator into a vector, so it becomes meaningless when an entry is added without
spare capacity, and it skips an entry when an entry at its place or before it is deleted: `Del`
moves a descriptor at the erased entry on, but `erase` has moved the next entry to its place.

## Main definitions

* `Stargazer.Searching` — a registry with the records of its searches.
* `Stargazer.Searching.Sound` — what the searches are to do.
* `Stargazer.Searching.Guard` — the steps that are harmless.
* `Stargazer.Searching.Invariant` — what the harmless steps keep.

## Main results

* `Stargazer.Searching.Invariant.step` — one step.
* `Stargazer.searches_sound` — every run of harmless steps.
-/

namespace Stargazer

/-- A registry, and the records of its searches. -/
structure Searching (α : Type) where
  /-- The registry. -/
  reg : ConfRegistry α
  /-- The entries that have been there since a search was opened. -/
  since : ℕ → List α := fun _ => []
  /-- The entries a search has returned. -/
  returned : ℕ → List α := fun _ => []

/-- What can happen. -/
inductive SearchAction (α : Type)
  | add (priv : Priv) (storeError : Option String) (x : α)
  | del (priv : Priv) (storeError : Option String) (n : String)
  | openSearch
  | searchNext (h : ℕ)
  | closeSearch (h : ℕ)

namespace Searching

variable {α : Type} [RegistryConf α]

/-- One step; `none` is undefined behaviour. -/
def step (s : Searching α) : SearchAction α → Option (Searching α)
  | .add priv e x => some { s with reg := (s.reg.add priv e x).2 }
  | .del priv e n =>
    let reg := (s.reg.del priv e n).2
    some { s with
      reg := reg
      since := fun h => (s.since h).filter fun x => name x ∈ reg.names }
  | .openSearch =>
    let (h, reg) := s.reg.openSearch
    some ⟨reg, Function.update s.since h s.reg.data, Function.update s.returned h []⟩
  | .searchNext h =>
    match s.reg.searchNext h with
    | none => none
    | some (none, reg) => some { s with reg := reg }
    | some (some x, reg) =>
      some { s with reg := reg, returned := Function.update s.returned h (s.returned h ++ [x]) }
  | .closeSearch h => some { s with reg := (s.reg.closeSearch h).2 }

/-- The registry after the constructor: no name is there twice, and no search is open. -/
structure Initial (s : Searching α) : Prop where
  nodup : s.reg.names.Nodup
  closed : ∀ h, s.reg.searchDescriptors h = none

/-- **What searches are to do**: every descriptor denotes a place of the vector or its end, no entry
that has been there all the time is returned twice, and at the end of the search all of them have
been returned. -/
structure Sound [DecidableEq α] (s : Searching α) : Prop where
  denotes : ∀ h it, s.reg.searchDescriptors h = some it → s.reg.Denotes it
  atMostOnce : ∀ h it, s.reg.searchDescriptors h = some it → ∀ x ∈ s.since h,
    (s.returned h).count x ≤ 1
  once : ∀ h it, s.reg.searchDescriptors h = some it → it.index = s.reg.data.length →
    ∀ x ∈ s.since h, (s.returned h).count x = 1

/-- The steps that are harmless: an entry is added while no search is open, or while the vector has
spare capacity; the entry that is deleted stands behind the places of all descriptors. -/
def Guard (s : Searching α) : SearchAction α → Prop
  | .add priv _ x => RegistryConf.chg α priv = 0 ∨ name x ∈ s.reg.names ∨
      s.reg.data.length < s.reg.capacity ∨ ∀ h, s.reg.searchDescriptors h = none
  | .del priv _ n => RegistryConf.chg α priv = 0 ∨ ∀ i, s.reg.findIdx n = some i →
      ∀ h it, s.reg.searchDescriptors h = some it → it.index < i
  | _ => True

/-- What the harmless steps keep: a search has returned the entries before its place, and the
entries that have been there all the time are still there. -/
structure Invariant (s : Searching α) : Prop where
  nodup : s.reg.names.Nodup
  denotes : ∀ h it, s.reg.searchDescriptors h = some it → s.reg.Denotes it
  returned : ∀ h it, s.reg.searchDescriptors h = some it →
    s.returned h = s.reg.data.take it.index
  since : ∀ h it, s.reg.searchDescriptors h = some it → ∀ x ∈ s.since h, x ∈ s.reg.data

/-- Nothing is to be said about searches before one is opened. -/
theorem Initial.invariant {s : Searching α} (h : s.Initial) : s.Invariant := by
  have hnone : ∀ {h' it}, ¬ s.reg.searchDescriptors h' = some it := by
    intro h' it hit
    rw [h.closed h'] at hit
    cases hit
  exact ⟨h.nodup, fun _ _ hit => absurd hit hnone, fun _ _ hit => absurd hit hnone,
    fun _ _ hit => absurd hit hnone⟩

/-- The invariant says what searches are to do. -/
theorem Invariant.sound [DecidableEq α] {s : Searching α} (h : s.Invariant) : s.Sound := by
  have hnodup : s.reg.data.Nodup := h.nodup.of_map name
  refine ⟨h.denotes, fun k it hit x hx => ?_, fun k it hit hend x hx => ?_⟩
  · rw [h.returned k it hit]
    exact List.nodup_iff_count_le_one.1 (hnodup.sublist (List.take_sublist _ _)) x
  · rw [h.returned k it hit, hend, List.take_length]
    exact List.count_eq_one_of_mem hnodup (h.since k it hit x hx)

/-! ## What the steps keep -/

section Steps

variable {s s' : Searching α}

/-- The text of an error plays no role. -/
theorem Invariant.strError (h : s.Invariant) (err : String) :
    Invariant { s with reg := { s.reg with strError := err } } :=
  ⟨h.nodup, h.denotes, h.returned, h.since⟩

/-- An entry is added. -/
theorem Invariant.pushBack (h : s.Invariant) {x : α} (hx : name x ∉ s.reg.names)
    (hguard : s.reg.data.length < s.reg.capacity ∨ ∀ h, s.reg.searchDescriptors h = none) :
    Invariant { s with reg := s.reg.pushBack x } := by
  have hdesc : (s.reg.pushBack x).searchDescriptors = s.reg.searchDescriptors := by
    unfold ConfRegistry.pushBack
    split <;> rfl
  have hdata := ConfRegistry.data_pushBack s.reg x
  refine ⟨?_, fun k it hit => ?_, fun k it hit => ?_, fun k it hit y hy => ?_⟩
  · change ((s.reg.pushBack x).data.map name).Nodup
    rw [hdata, List.map_append, List.map_singleton]
    exact List.nodup_append.2 ⟨h.nodup, List.nodup_singleton _, by
      rintro n hn m hm rfl
      exact hx (List.mem_singleton.1 hm ▸ hn)⟩
  · simp only [hdesc] at hit
    obtain ⟨hgen, hle⟩ := h.denotes k it hit
    have hcap := hguard.resolve_right fun hnone => by simp [hnone k] at hit
    refine ⟨?_, ?_⟩
    · rw [hgen]
      unfold ConfRegistry.pushBack
      rw [if_pos hcap]
    · simp only [hdata, List.length_append, List.length_singleton]
      omega
  · simp only [hdesc] at hit
    simp only [hdata]
    rw [h.returned k it hit, List.take_append_of_le_length (h.denotes k it hit).2]
  · simp only [hdesc] at hit
    simp only [hdata]
    exact List.mem_append_left _ (h.since k it hit y hy)

/-- An entry behind all descriptors is erased. -/
theorem Invariant.eraseIdx (h : s.Invariant) {i : ℕ} (hi : i < s.reg.data.length)
    (hguard : ∀ h it, s.reg.searchDescriptors h = some it → it.index < i) :
    Invariant { s with
      reg := { s.reg with
        searchDescriptors := s.reg.moveOn i
        data := s.reg.data.eraseIdx i }
      since := fun h => (s.since h).filter fun x =>
        name x ∈ (s.reg.data.eraseIdx i).map name } := by
  have hdesc : s.reg.moveOn i = s.reg.searchDescriptors := by
    funext k
    unfold ConfRegistry.moveOn
    cases hit : s.reg.searchDescriptors k with
    | none => rfl
    | some it =>
      have hne : it ≠ ⟨s.reg.gen, i⟩ := by
        rintro rfl
        exact absurd (hguard k _ hit) (Nat.lt_irrefl i)
      rw [Option.map_some, if_neg hne]
  have hnodup : s.reg.data.Nodup := h.nodup.of_map name
  rw [hdesc]
  refine ⟨?_, fun k it hit => ?_, fun k it hit => ?_, fun k it hit y hy => ?_⟩
  · exact h.nodup.sublist ((List.eraseIdx_sublist _ _).map name)
  · obtain ⟨hgen, -⟩ := h.denotes k it hit
    refine ⟨hgen, ?_⟩
    have := hguard k it hit
    simp only [List.length_eraseIdx_of_lt hi]
    omega
  · have hlt := hguard k it hit
    change s.returned k = (s.reg.data.eraseIdx i).take it.index
    rw [h.returned k it hit, List.take_eraseIdx_eq_take_of_le _ _ _ hlt.le]
  · obtain ⟨hy, hname⟩ := List.mem_filter.1 hy
    obtain ⟨j, hj, rfl⟩ := List.getElem_of_mem (h.since k it hit y hy)
    refine List.mem_eraseIdx_iff_getElem?.2 ⟨j, ?_, List.getElem?_eq_getElem hj⟩
    rintro rfl
    -- the name of the erased entry is not there any more
    obtain ⟨z, hz, hzname⟩ := List.mem_map.1 (of_decide_eq_true hname)
    obtain ⟨l, hl, hlz⟩ := List.mem_eraseIdx_iff_getElem?.1 hz
    refine hl ((List.getElem?_inj (by simpa [ConfRegistry.names] using
      (List.getElem?_eq_some_iff.1 hlz).1) h.nodup).1 ?_)
    simp [ConfRegistry.names, hlz, List.getElem?_eq_getElem hj, hzname]

/-- A search is opened. -/
theorem Invariant.openSearch (h : s.Invariant) :
    Invariant ⟨s.reg.openSearch.2, Function.update s.since (s.reg.handle + 1) s.reg.data,
      Function.update s.returned (s.reg.handle + 1) []⟩ := by
  refine ⟨h.nodup, fun k it hit => ?_, fun k it hit => ?_, fun k it hit y hy => ?_⟩
  all_goals
    simp only [ConfRegistry.openSearch, Function.update_apply] at hit ⊢
    by_cases hk : k = s.reg.handle + 1
  · obtain rfl : ⟨s.reg.gen, 0⟩ = it := by simpa [hk] using hit
    exact ⟨rfl, Nat.zero_le _⟩
  · rw [if_neg hk] at hit
    exact h.denotes k it hit
  · obtain rfl : ⟨s.reg.gen, 0⟩ = it := by simpa [hk] using hit
    simp [hk]
  · rw [if_neg hk] at hit ⊢
    exact h.returned k it hit
  · simp only [Function.update_apply, if_pos hk] at hy
    exact hy
  · rw [if_neg hk] at hit
    simp only [Function.update_apply, if_neg hk] at hy
    exact h.since k it hit y hy

/-- A search returns the entry at its place. -/
theorem Invariant.next (h : s.Invariant) {k : ℕ} {it : VecIter} {x : α}
    (hit : s.reg.searchDescriptors k = some it) (hx : s.reg.data[it.index]? = some x) :
    Invariant { s with
      reg := { s.reg with
        searchDescriptors := Function.update s.reg.searchDescriptors k
          (some { it with index := it.index + 1 }) }
      returned := Function.update s.returned k (s.returned k ++ [x]) } := by
  have hlt : it.index < s.reg.data.length := (List.getElem?_eq_some_iff.1 hx).1
  refine ⟨h.nodup, fun j it' hit' => ?_, fun j it' hit' => ?_, fun j it' hit' y hy => ?_⟩
  all_goals
    simp only [Function.update_apply] at hit' ⊢
    by_cases hj : j = k
  · obtain rfl : _ = it' := by simpa [hj] using hit'
    exact ⟨(h.denotes k it hit).1, hlt⟩
  · rw [if_neg hj] at hit'
    exact h.denotes j it' hit'
  · obtain rfl : _ = it' := by simpa [hj] using hit'
    rw [if_pos hj, h.returned k it hit, List.take_add_one, hx]
    rfl
  · rw [if_neg hj] at hit' ⊢
    exact h.returned j it' hit'
  · subst hj
    exact h.since j it hit y hy
  · rw [if_neg hj] at hit'
    exact h.since j it' hit' y hy

/-- A search is closed. -/
theorem Invariant.closeSearch (h : s.Invariant) (k : ℕ) :
    Invariant { s with reg := (s.reg.closeSearch k).2 } := by
  have hopen {j : ℕ} {it : VecIter}
      (hit : (s.reg.closeSearch k).2.searchDescriptors j = some it) :
      s.reg.searchDescriptors j = some it := by
    simp only [ConfRegistry.closeSearch, Function.update_apply] at hit
    split at hit
    · cases hit
    · exact hit
  exact ⟨h.nodup, fun j it hit => h.denotes j it (hopen hit),
    fun j it hit => h.returned j it (hopen hit), fun j it hit => h.since j it (hopen hit)⟩

/-- **One harmless step.** -/
theorem Invariant.step {a : SearchAction α} (h : s.Invariant) (hg : s.Guard a)
    (hs : s.step a = some s') : s'.Invariant := by
  cases a with
  | add priv e x =>
    obtain rfl := Option.some.inj hs
    rcases ConfRegistry.add_cases priv e s.reg x with ⟨err, heq⟩ | ⟨hpriv, hx, err, heq⟩
    · rw [heq]
      exact h.strError err
    · have hguard := (hg.resolve_left hpriv).resolve_left hx
      rw [heq]
      exact (h.pushBack hx hguard).strError err
  | del priv e n =>
    obtain rfl := Option.some.inj hs
    rcases ConfRegistry.del_cases priv e s.reg n with ⟨err, heq⟩ | ⟨hpriv, i, err, hfind, heq⟩
    · simp only [heq]
      refine ⟨h.nodup, h.denotes, h.returned, fun k it hit y hy => ?_⟩
      exact h.since k it hit y (List.mem_of_mem_filter hy)
    · have hi := (List.findIdx?_eq_some_iff_getElem.1 hfind).1
      simp only [heq]
      exact (h.eraseIdx hi (hg.resolve_left hpriv i hfind)).strError err
  | openSearch =>
    obtain rfl := Option.some.inj hs
    exact h.openSearch
  | searchNext k =>
    simp only [Searching.step, ConfRegistry.searchNext] at hs
    cases hit : s.reg.searchDescriptors k with
    | none =>
      simp only [hit, Option.some.injEq] at hs
      exact hs ▸ h
    | some it =>
      simp only [hit, not_not.2 (h.denotes k it hit), if_false] at hs
      cases hx : s.reg.data[it.index]? with
      | none =>
        simp only [hx, Option.some.injEq] at hs
        exact hs ▸ h
      | some x =>
        simp only [hx, Option.some.injEq] at hs
        exact hs ▸ h.next hit hx
  | closeSearch k =>
    obtain rfl := Option.some.inj hs
    exact h.closeSearch k

/-- A step from a state with the invariant is defined. -/
theorem Invariant.step_ne_none (h : s.Invariant) (a : SearchAction α) : s.step a ≠ none := by
  cases a with
  | searchNext k =>
    simp only [Searching.step, ConfRegistry.searchNext]
    cases hit : s.reg.searchDescriptors k with
    | none => simp
    | some it =>
      simp only [not_not.2 (h.denotes k it hit), if_false]
      cases s.reg.data[it.index]? <;> simp
  | _ => simp [Searching.step]

end Steps

end Searching

/-- **Searches do what they are to do in every run of harmless steps**, for services and for
corporations: every descriptor denotes a place of the vector or its end, every operation is defined,
and a search returns every entry that is there from its beginning to its end exactly once. -/
theorem searches_sound {α : Type} [RegistryConf α] [DecidableEq α] {s t : Searching α}
    (h0 : s.Initial) {as : List (SearchAction α)}
    (h : Transition.Reaches Searching.step Searching.Guard s as t) :
    t.Sound ∧ ∀ a, t.step a ≠ none := by
  have hinv : t.Invariant := h.invariant (fun _ _ _ hs hg hstep => hs.step hg hstep) h0.invariant
  exact ⟨hinv.sound, hinv.step_ne_none⟩

namespace Sample

/-- A service. -/
def service (n : String) : FullServiceConf := ⟨⟨n, 1, 1⟩, ""⟩

/-- A registry with services, and no search. -/
def services (ns : List String) : Searching FullServiceConf :=
  { reg := { data := ns.map service, capacity := ns.length } }

theorem services_initial {ns : List String} (h : ns.Nodup) : (services ns).Initial := by
  refine ⟨?_, fun _ => rfl⟩
  change ((ns.map service).map name).Nodup
  rwa [List.map_map, show name ∘ service = id from rfl, List.map_id]

end Sample

/-- The last of three services is deleted while a search is at the second one. -/
theorem searches_sound_last_deleted :
    ∃ t, Transition.Reaches Searching.step Searching.Guard (Sample.services ["a", "b", "c"])
        [.openSearch, .searchNext 1, .del Priv.full none "c", .searchNext 1, .searchNext 1] t ∧
      t.returned 1 = [Sample.service "a", Sample.service "b"] ∧ t.Sound := by
  have hrun : ∃ t, Transition.Reaches Searching.step Searching.Guard
      (Sample.services ["a", "b", "c"])
      [.openSearch, .searchNext 1, .del Priv.full none "c", .searchNext 1, .searchNext 1] t ∧
      t.returned 1 = [Sample.service "a", Sample.service "b"] := by
    refine ⟨_, .cons trivial rfl (.cons trivial rfl (.cons ?_ rfl (.cons trivial rfl
      (.cons trivial rfl (.nil _))))), rfl⟩
    right
    intro i hi h it hit
    obtain rfl : 2 = i := Option.some.inj hi
    by_cases hh : h = 1
    · subst hh
      obtain rfl : ⟨0, 1⟩ = it := Option.some.inj hit
      exact Nat.one_lt_two
    · simp [Sample.services, hh] at hit
  obtain ⟨t, ht, hreturned⟩ := hrun
  exact ⟨t, ht, hreturned, (searches_sound (Sample.services_initial (by decide)) ht).1⟩

/-- The first of two services is deleted after a search has returned it: the second one is
skipped. -/
theorem service_skipped :
    (Sample.services ["a", "b"]).Initial ∧
      ∃ t, Transition.Runs Searching.step (Sample.services ["a", "b"])
          [.openSearch, .searchNext 1, .del Priv.full none "a", .searchNext 1] t ∧
        Sample.service "b" ∈ t.since 1 ∧ t.returned 1 = [Sample.service "a"] ∧ ¬ t.Sound := by
  refine ⟨Sample.services_initial (by decide), _, .cons trivial rfl (.cons trivial rfl
    (.cons trivial rfl (.cons trivial rfl (.nil _)))), ?_, rfl, fun h => ?_⟩
  · decide
  · have hcount := h.once 1 ⟨0, 1⟩ rfl rfl (Sample.service "b") (by decide)
    exact absurd hcount (by decide)

end Stargazer
