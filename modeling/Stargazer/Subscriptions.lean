import Mathlib.Data.Int.Notation
import Mathlib.Data.List.Nodup
import Mathlib.Data.List.Pairwise
import Mathlib.Tactic.FinCases
import Stargazer.Lib.RemoveIf
import Stargazer.Lib.Run

set_option relaxedAutoImplicit false
set_option autoImplicit false

/-!
# Subscriptions and the connections that own them

`Subscriptions::add` (`subscriptions.h`) puts a callback into a list and returns a `Connection` that
can take it out again; a `ScopedConnection` does so when it is destroyed.  Both can be moved but not
copied, and their moves are the default ones: the `std::function` is moved, and the one that was
there before is lost without being called.  So a callback whose connection is assigned to stays in
its list for ever, and `erase(remove_if(..))` assigns to the elements in the middle of a vector.

A moved-from `std::function` is taken to be empty.

## Main definitions

* `Stargazer.Connections` — the lists of callbacks and the connection objects.
* `Stargazer.Connections.step` — what a program can do with them.
* `Stargazer.Connections.Owned` — a callback is in its list iff exactly one object owns it.
* `Stargazer.Connections.Guard` — the steps that lose no callback.
* `Stargazer.OnIPConns.unSetUserNotifiers` — the steps of `erase(remove_if(..))`.

## Main results

* `Stargazer.Connections.step_spec` — one step.
* `Stargazer.Connections.exists_runs_erase` — what `erase(remove_if(..))` does.
* `Stargazer.subscriptions_follow_ownership_iff` — every run, and every such erasure.
-/

namespace Stargazer

/-- A callback, as the closure of `makeConn` refers to it: a `Subscriptions` object and a node of
its list. -/
structure Callback where
  /-- The `Subscriptions` object. -/
  subs : ℕ
  /-- The node of `m_callbacks`. -/
  node : ℕ
  deriving DecidableEq

/-- The two classes of connections. -/
inductive ConnClass
  /-- `Connection`. -/
  | connection
  /-- `ScopedConnection`. -/
  | scopedConnection
  deriving DecidableEq

/-- A connection object. -/
structure ConnObject where
  /-- Its class. -/
  cls : ConnClass
  /-- The callback that `m_disconnect` removes, `none` if `m_disconnect` is empty. -/
  disconnect : Option Callback
  deriving DecidableEq

/-- The lists of callbacks and the live connection objects. -/
structure Connections where
  /-- `m_callbacks` of the `Subscriptions` objects. -/
  callbacks : ℕ → List ℕ := fun _ => []
  /-- The connection objects. -/
  objs : ℕ → Option ConnObject := fun _ => none
  /-- The node that is allocated next. -/
  nextNode : ℕ := 0
  /-- The object that is constructed next. -/
  nextObj : ℕ := 0

namespace Connections

/-- What a program can do. -/
inductive Action
  /-- `Subscriptions::add`, whose result is a `Connection`. -/
  | add (subs : ℕ)
  /-- The default constructors. -/
  | construct (cls : ConnClass)
  /-- `ScopedConnection::ScopedConnection(Connection c)`. -/
  | constructScoped (c : ℕ)
  /-- The move constructors. -/
  | moveConstruct (src : ℕ)
  /-- The move assignments. -/
  | moveAssign (dst src : ℕ)
  /-- `disconnect`. -/
  | disconnect (o : ℕ)
  /-- The destructors. -/
  | destroy (o : ℕ)
  deriving DecidableEq

/-- `Subscriptions::remove`, as `m_disconnect()` calls it. -/
def remove (s : Connections) : Option Callback → Connections
  | none => s
  | some k => { s with
      callbacks := Function.update s.callbacks k.subs ((s.callbacks k.subs).erase k.node) }

/-- Give an object a new state. -/
def setObj (s : Connections) (o : ℕ) (x : Option ConnObject) : Connections :=
  { s with objs := Function.update s.objs o x }

/-- Construct an object. -/
def newObj (s : Connections) (x : ConnObject) : Connections :=
  { s.setObj s.nextObj (some x) with nextObj := s.nextObj + 1 }

/-- `Subscriptions::add`. -/
def add (s : Connections) (subs : ℕ) : Connections :=
  newObj
    { s with
      callbacks := Function.update s.callbacks subs (s.callbacks subs ++ [s.nextNode])
      nextNode := s.nextNode + 1 } ⟨.connection, some ⟨subs, s.nextNode⟩⟩

/-- One step; `none` for a program that the compiler rejects, or that uses an object that is not
alive. -/
def step (s : Connections) : Action → Option Connections
  | .add subs => some (s.add subs)
  | .construct cls => some (s.newObj ⟨cls, none⟩)
  | .constructScoped c =>
    match s.objs c with
    | some ⟨.connection, f⟩ =>
      some ((s.setObj c (some ⟨.connection, none⟩)).newObj ⟨.scopedConnection, f⟩)
    | _ => none
  | .moveConstruct src =>
    match s.objs src with
    | some ⟨cls, f⟩ => some ((s.setObj src (some ⟨cls, none⟩)).newObj ⟨cls, f⟩)
    | none => none
  | .moveAssign dst src =>
    match s.objs dst, s.objs src with
    | some ⟨cls, _⟩, some ⟨cls', f⟩ =>
      if cls ≠ cls' then none
      else if dst = src then some s
      else some ((s.setObj src (some ⟨cls, none⟩)).setObj dst (some ⟨cls, f⟩))
    | _, _ => none
  | .disconnect o =>
    match s.objs o with
    | some ⟨cls, f⟩ => some ((s.remove f).setObj o (some ⟨cls, none⟩))
    | none => none
  | .destroy o =>
    match s.objs o with
    | some ⟨.connection, _⟩ => some (s.setObj o none)
    | some ⟨.scopedConnection, f⟩ => some ((s.remove f).setObj o none)
    | none => none

/-! ## Ownership -/

/-- The callback is in its list. -/
def Listed (s : Connections) (k : Callback) : Prop := k.node ∈ s.callbacks k.subs

instance (s : Connections) (k : Callback) : Decidable (s.Listed k) :=
  inferInstanceAs (Decidable (k.node ∈ s.callbacks k.subs))

/-- The object owns the callback: it is alive and its `m_disconnect` removes it. -/
def Owns (s : Connections) (o : ℕ) (k : Callback) : Prop :=
  ∃ cls, s.objs o = some ⟨cls, some k⟩

/-- **Subscriptions follow ownership**: a callback is in its list if and only if exactly one live
connection object owns it. -/
def Owned (s : Connections) : Prop := ∀ k, s.Listed k ↔ ∃! o, s.Owns o k

/-- A program starts without callbacks and without connections. -/
def initial : Connections := {}

/-- The steps that lose no callback: nothing is assigned to an object that owns a callback, except
itself, and no `Connection` that owns one is destroyed. -/
def Guard (s : Connections) : Action → Prop
  | .moveAssign dst src => dst = src ∨ ∀ k, ¬ s.Owns dst k
  | .destroy o => ∀ k, s.objs o ≠ some ⟨.connection, some k⟩
  | _ => True

/-- What every step keeps: owned callbacks are in their lists, no callback has two owners, and new
nodes and objects are new. -/
structure Consistent (s : Connections) : Prop where
  nodup : ∀ subs, (s.callbacks subs).Nodup
  node_lt : ∀ subs, ∀ n ∈ s.callbacks subs, n < s.nextNode
  obj_lt : ∀ o, s.nextObj ≤ o → s.objs o = none
  unique : ∀ o o' k, s.Owns o k → s.Owns o' k → o = o'
  listed : ∀ o k, s.Owns o k → s.Listed k

/-- With at most one owner each, callbacks follow ownership if those in the lists have one. -/
theorem Consistent.owned_iff {s : Connections} (h : s.Consistent) :
    s.Owned ↔ ∀ k, s.Listed k → ∃ o, s.Owns o k := by
  constructor
  · intro ho k hk
    obtain ⟨o, hok, -⟩ := (ho k).mp hk
    exact ⟨o, hok⟩
  · intro ho k
    constructor
    · intro hk
      obtain ⟨o, hok⟩ := ho k hk
      exact ⟨o, hok, fun o' ho' => h.unique o' o k ho' hok⟩
    · rintro ⟨o, hok, -⟩
      exact h.listed o k hok

theorem consistent_initial : initial.Consistent where
  nodup _ := List.nodup_nil
  node_lt _ n hn := by simp [initial] at hn
  obj_lt _ _ := rfl
  unique _ _ _ h := by simp [Owns, initial] at h
  listed _ _ h := by simp [Owns, initial] at h

theorem owned_initial : initial.Owned :=
  consistent_initial.owned_iff.mpr fun k hk => by simp [Listed, initial] at hk

/-! ## What the steps do -/

section Effects

variable {s s' : Connections}

theorem setObj_of_ne {o o' : ℕ} (h : o' ≠ o) (x : Option ConnObject) :
    (s.setObj o x).objs o' = s.objs o' := Function.update_of_ne h _ _

theorem owns_setObj {o o' : ℕ} {x : Option ConnObject} {k : Callback} :
    (s.setObj o x).Owns o' k ↔
      (o' = o ∧ ∃ cls, x = some ⟨cls, some k⟩) ∨ (o' ≠ o ∧ s.Owns o' k) := by
  unfold Owns setObj
  by_cases ho : o' = o
  · subst ho
    simp
  · simp [ho]

theorem owns_remove {o : ℕ} {f : Option Callback} {k : Callback} :
    (s.remove f).Owns o k ↔ s.Owns o k := by
  cases f <;> rfl

theorem Consistent.listed_remove (h : s.Consistent) {f : Option Callback} {k : Callback} :
    (s.remove f).Listed k ↔ s.Listed k ∧ f ≠ some k := by
  cases f with
  | none => simp [remove]
  | some l =>
    obtain ⟨subs, node⟩ := l
    obtain ⟨subs', node'⟩ := k
    simp only [remove, Listed, ne_eq, Option.some.injEq, Callback.mk.injEq, not_and]
    by_cases hsubs : subs' = subs
    · subst hsubs
      rw [Function.update_self, (h.nodup subs').mem_erase_iff]
      simp only [true_implies, ne_comm (a := node'), ne_eq]
      exact and_comm
    · rw [Function.update_of_ne hsubs]
      simp [Ne.symm hsubs]

/-- The callback of one object becomes the callback of another. -/
structure Moves (s s' : Connections) (dst src : ℕ) : Prop where
  callbacks : s'.callbacks = s.callbacks
  nextNode : s'.nextNode = s.nextNode
  obj_lt : ∀ o, s'.nextObj ≤ o → s'.objs o = none
  owns : ∀ o k, s'.Owns o k ↔ (o = dst ∧ s.Owns src k) ∨ (o ≠ dst ∧ o ≠ src ∧ s.Owns o k)

theorem Moves.listed {dst src : ℕ} (hm : Moves s s' dst src) (k : Callback) :
    s'.Listed k ↔ s.Listed k := by
  rw [Listed, hm.callbacks, Listed]

theorem Moves.consistent {dst src : ℕ} (hm : Moves s s' dst src) (h : s.Consistent) :
    s'.Consistent where
  nodup := hm.callbacks ▸ h.nodup
  node_lt := by
    rw [hm.callbacks, hm.nextNode]
    exact h.node_lt
  obj_lt := hm.obj_lt
  unique o o' k ho ho' := by
    rcases (hm.owns o k).mp ho with ⟨rfl, hsrc⟩ | ⟨-, hne, hok⟩
    · rcases (hm.owns o' k).mp ho' with ⟨rfl, -⟩ | ⟨-, hne', hok'⟩
      · rfl
      · exact absurd (h.unique o' src k hok' hsrc) hne'
    · rcases (hm.owns o' k).mp ho' with ⟨rfl, hsrc⟩ | ⟨-, -, hok'⟩
      · exact absurd (h.unique o src k hok hsrc) hne
      · exact h.unique o o' k hok hok'
  listed o k ho := by
    rw [hm.listed]
    rcases (hm.owns o k).mp ho with ⟨-, hsrc⟩ | ⟨-, -, hok⟩
    · exact h.listed src k hsrc
    · exact h.listed o k hok

/-- A move loses no callback if and only if the destination owned none. -/
theorem Moves.owned_iff {dst src : ℕ} (hm : Moves s s' dst src) (hne : dst ≠ src)
    (h : s.Consistent) (ho : s.Owned) : s'.Owned ↔ ∀ k, ¬ s.Owns dst k := by
  rw [(hm.consistent h).owned_iff]
  constructor
  · intro hall k hk
    obtain ⟨o, hok⟩ := hall k ((hm.listed k).mpr (h.listed dst k hk))
    rcases (hm.owns o k).mp hok with ⟨-, hsrc⟩ | ⟨hdst, -, hok⟩
    · exact hne (h.unique dst src k hk hsrc)
    · exact hdst (h.unique o dst k hok hk)
  · intro hnone k hk
    obtain ⟨o, hok⟩ := h.owned_iff.mp ho k ((hm.listed k).mp hk)
    by_cases hsrc : o = src
    · exact ⟨dst, (hm.owns dst k).mpr (.inl ⟨rfl, hsrc ▸ hok⟩)⟩
    · exact ⟨o, (hm.owns o k).mpr (.inr ⟨fun hc => hnone k (hc ▸ hok), hsrc, hok⟩)⟩

/-- An object gives up its callback, which is taken from its list if `removes`. -/
structure Drops (s s' : Connections) (o : ℕ) (removes : Prop) : Prop where
  listed : ∀ k, s'.Listed k ↔ s.Listed k ∧ ¬ (removes ∧ s.Owns o k)
  nodup : ∀ subs, (s'.callbacks subs).Nodup
  nextNode : s'.nextNode = s.nextNode
  obj_lt : ∀ o, s'.nextObj ≤ o → s'.objs o = none
  owns : ∀ o' k, s'.Owns o' k ↔ o' ≠ o ∧ s.Owns o' k

theorem Drops.consistent {o : ℕ} {removes : Prop} (hd : Drops s s' o removes)
    (h : s.Consistent) : s'.Consistent where
  nodup := hd.nodup
  node_lt subs n hn := by
    rw [hd.nextNode]
    exact h.node_lt subs n ((hd.listed ⟨subs, n⟩).mp hn).1
  obj_lt := hd.obj_lt
  unique o₁ o₂ k h₁ h₂ := h.unique o₁ o₂ k ((hd.owns o₁ k).mp h₁).2 ((hd.owns o₂ k).mp h₂).2
  listed o' k ho := by
    obtain ⟨hne, hok⟩ := (hd.owns o' k).mp ho
    exact (hd.listed k).mpr ⟨h.listed o' k hok, fun hc => hne (h.unique o' o k hok hc.2)⟩

/-- An object that gives up its callback loses none if it removes it, or has none. -/
theorem Drops.owned_iff {o : ℕ} {removes : Prop} (hd : Drops s s' o removes)
    (h : s.Consistent) (ho : s.Owned) : s'.Owned ↔ removes ∨ ∀ k, ¬ s.Owns o k := by
  rw [(hd.consistent h).owned_iff]
  constructor
  · intro hall
    by_cases hr : removes
    · exact .inl hr
    · refine .inr fun k hk => ?_
      obtain ⟨o', hok⟩ := hall k ((hd.listed k).mpr ⟨h.listed o k hk, fun hc => hr hc.1⟩)
      obtain ⟨hne, hok⟩ := (hd.owns o' k).mp hok
      exact hne (h.unique o' o k hok hk)
  · intro hor k hk
    obtain ⟨hlisted, hnot⟩ := (hd.listed k).mp hk
    obtain ⟨o', hok⟩ := h.owned_iff.mp ho k hlisted
    refine ⟨o', (hd.owns o' k).mpr ⟨fun hc => ?_, hok⟩⟩
    subst hc
    rcases hor with hr | hnone
    · exact hnot ⟨hr, hok⟩
    · exact hnone k hok

/-- Objects that are alive have been constructed. -/
theorem Consistent.lt_nextObj (h : s.Consistent) {o : ℕ} {x : ConnObject}
    (ho : s.objs o = some x) : o < s.nextObj := by
  by_contra hlt
  rw [h.obj_lt o (Nat.le_of_not_lt hlt)] at ho
  cases ho

/-- Only one callback is owned. -/
theorem owns_iff_of_objs {o : ℕ} {cls : ConnClass} {f : Option Callback}
    (ho : s.objs o = some ⟨cls, f⟩) (k : Callback) : s.Owns o k ↔ f = some k := by
  unfold Owns
  rw [ho]
  simp

/-- A state in which objects that are alive got a new state has no objects that were not
constructed. -/
theorem Consistent.setObj_obj_lt (h : s.Consistent) {o : ℕ} {x : ConnObject}
    (ho : s.objs o = some x) (y : Option ConnObject) :
    ∀ o', s.nextObj ≤ o' → (s.setObj o y).objs o' = none := by
  intro o' ho'
  have hne : o' ≠ o := Nat.ne_of_gt (Nat.lt_of_lt_of_le (h.lt_nextObj ho) ho')
  rw [setObj_of_ne hne]
  exact h.obj_lt o' ho'

/-- Construction from another object moves its callback. -/
theorem Consistent.moves_newObj (h : s.Consistent) {src : ℕ} {cls : ConnClass}
    {f : Option Callback} (hsrc : s.objs src = some ⟨cls, f⟩) (cls₁ cls₂ : ConnClass) :
    Moves s ((s.setObj src (some ⟨cls₁, none⟩)).newObj ⟨cls₂, f⟩) s.nextObj src where
  callbacks := rfl
  nextNode := rfl
  obj_lt o ho := by
    change s.nextObj + 1 ≤ o at ho
    change Function.update (s.setObj src _).objs s.nextObj _ o = none
    rw [Function.update_of_ne (Nat.ne_of_gt ho)]
    exact h.setObj_obj_lt hsrc _ o (Nat.le_of_succ_le ho)
  owns o k := by
    change ((s.setObj src (some ⟨cls₁, none⟩)).setObj s.nextObj (some ⟨cls₂, f⟩)).Owns o k ↔ _
    rw [owns_setObj, owns_setObj, owns_iff_of_objs hsrc]
    simp

/-- Assignment moves the callback of the source. -/
theorem Consistent.moves_setObj (h : s.Consistent) {dst src : ℕ} {cls : ConnClass}
    {f : Option Callback} {x : ConnObject} (hsrc : s.objs src = some ⟨cls, f⟩)
    (hdst : s.objs dst = some x) (cls₁ cls₂ : ConnClass) :
    Moves s ((s.setObj src (some ⟨cls₁, none⟩)).setObj dst (some ⟨cls₂, f⟩)) dst src where
  callbacks := rfl
  nextNode := rfl
  obj_lt o ho := by
    have hne : o ≠ dst := Nat.ne_of_gt (Nat.lt_of_lt_of_le (h.lt_nextObj hdst) ho)
    rw [setObj_of_ne hne]
    exact h.setObj_obj_lt hsrc _ o ho
  owns o k := by
    rw [owns_setObj, owns_setObj, owns_iff_of_objs hsrc]
    simp

/-- `m_disconnect()` removes the callback of an object. -/
theorem Consistent.drops_remove (h : s.Consistent) {o : ℕ} {cls : ConnClass}
    {f : Option Callback} (ho : s.objs o = some ⟨cls, f⟩) {x : Option ConnObject}
    (hx : ∀ cls k, x ≠ some ⟨cls, some k⟩) : Drops s ((s.remove f).setObj o x) o True where
  listed k := by
    change (s.remove f).Listed k ↔ _
    rw [h.listed_remove, owns_iff_of_objs ho, true_and]
  nodup subs := by
    change ((s.remove f).callbacks subs).Nodup
    cases f with
    | none => exact h.nodup subs
    | some k =>
      simp only [remove, Function.update_apply]
      split_ifs
      · exact (h.nodup _).erase _
      · exact h.nodup subs
  nextNode := by cases f <;> rfl
  obj_lt := by
    intro o' ho'
    have hsame : ((s.remove f).setObj o x).objs o' = (s.setObj o x).objs o' := by
      cases f <;> rfl
    rw [hsame]
    refine h.setObj_obj_lt ho x o' ?_
    cases f <;> exact ho'
  owns o' k := by
    rw [owns_setObj, owns_remove]
    simp [hx]

/-- A `Connection` that is destroyed leaves its callback in the list. -/
theorem Consistent.drops_setObj (h : s.Consistent) {o : ℕ} {x : ConnObject}
    (ho : s.objs o = some x) : Drops s (s.setObj o none) o False where
  listed k := by simp [Listed, setObj]
  nodup := h.nodup
  nextNode := rfl
  obj_lt := h.setObj_obj_lt ho none
  owns o' k := by
    rw [owns_setObj]
    simp

/-- An object that was constructed without a callback owns none. -/
theorem Consistent.drops_newObj (h : s.Consistent) (cls : ConnClass) :
    Drops s (s.newObj ⟨cls, none⟩) s.nextObj False where
  listed k := by simp [Listed, newObj, setObj]
  nodup := h.nodup
  nextNode := rfl
  obj_lt o ho := by
    change s.nextObj + 1 ≤ o at ho
    change (s.setObj s.nextObj _).objs o = none
    rw [setObj_of_ne (Nat.ne_of_gt ho)]
    exact h.obj_lt o (Nat.le_of_succ_le ho)
  owns o k := by
    change (s.setObj s.nextObj _).Owns o k ↔ _
    rw [owns_setObj]
    simp

/-- `add` lists a new callback and gives it an owner. -/
theorem Consistent.add (h : s.Consistent) (subs : ℕ) :
    (s.add subs).Consistent ∧ (s.Owned → (s.add subs).Owned) := by
  have hlisted : ∀ k, (s.add subs).Listed k ↔ s.Listed k ∨ k = ⟨subs, s.nextNode⟩ := by
    rintro ⟨subs', node'⟩
    change node' ∈ Function.update s.callbacks subs (s.callbacks subs ++ [s.nextNode]) subs' ↔ _
    by_cases hsubs : subs' = subs
    · subst hsubs
      simp [Listed]
    · simp [Listed, hsubs]
  have hnew : s.objs s.nextObj = none := h.obj_lt s.nextObj (Nat.le_refl _)
  have howns : ∀ o k, (s.add subs).Owns o k ↔
      (o = s.nextObj ∧ k = ⟨subs, s.nextNode⟩) ∨ s.Owns o k := by
    intro o k
    change (s.setObj s.nextObj _).Owns o k ↔ _
    rw [owns_setObj]
    by_cases ho : o = s.nextObj
    · subst ho
      simp [Owns, hnew, eq_comm]
    · simp [ho]
  have hfresh : ∀ {o}, ¬ s.Owns o ⟨subs, s.nextNode⟩ := fun ho =>
    Nat.lt_irrefl _ (h.node_lt subs _ (h.listed _ _ ho))
  have hold : ∀ {k}, ¬ s.Owns s.nextObj k := by simp [Owns, hnew]
  have hcons : (s.add subs).Consistent := by
    refine ⟨fun subs' => ?_, fun subs' n hn => ?_, fun o ho => ?_, fun o o' k ho ho' => ?_,
      fun o k ho => ?_⟩
    · change (Function.update s.callbacks subs (s.callbacks subs ++ [s.nextNode]) subs').Nodup
      rw [Function.update_apply]
      split_ifs with hsubs
      · refine (h.nodup subs).append (List.nodup_singleton _) ?_
        simpa using fun hn => Nat.lt_irrefl _ (h.node_lt subs _ hn)
      · exact h.nodup subs'
    · rcases (hlisted ⟨subs', n⟩).mp hn with hn | hn
      · exact Nat.lt_succ_of_lt (h.node_lt subs' n hn)
      · obtain ⟨-, rfl⟩ := Callback.mk.inj hn
        exact Nat.lt_succ_self _
    · change s.nextObj + 1 ≤ o at ho
      change (s.setObj s.nextObj _).objs o = none
      rw [setObj_of_ne (Nat.ne_of_gt ho)]
      exact h.obj_lt o (Nat.le_of_succ_le ho)
    · rcases (howns o k).mp ho with ⟨rfl, rfl⟩ | ho
      · rcases (howns o' _).mp ho' with ⟨rfl, -⟩ | ho'
        · rfl
        · exact absurd ho' hfresh
      · rcases (howns o' k).mp ho' with ⟨rfl, rfl⟩ | ho'
        · exact absurd ho hfresh
        · exact h.unique o o' k ho ho'
    · rcases (howns o k).mp ho with ⟨rfl, rfl⟩ | ho
      · exact (hlisted _).mpr (.inr rfl)
      · exact (hlisted k).mpr (.inl (h.listed o k ho))
  refine ⟨hcons, fun ho => hcons.owned_iff.mpr fun k hk => ?_⟩
  rcases (hlisted k).mp hk with hk | rfl
  · obtain ⟨o, hok⟩ := h.owned_iff.mp ho k hk
    exact ⟨o, (howns o k).mpr (.inr hok)⟩
  · exact ⟨s.nextObj, (howns _ _).mpr (.inl ⟨rfl, rfl⟩)⟩

end Effects

/-! ## One step -/

/-- **One step.** Every step keeps the consistency, and loses no callback if and only if it meets
the guard. -/
theorem step_spec {s s' : Connections} {a : Action} (h : s.Consistent)
    (hs : s.step a = some s') : s'.Consistent ∧ (s.Owned → (s'.Owned ↔ s.Guard a)) := by
  have hnone : ∀ k, ¬ s.Owns s.nextObj k := by simp [Owns, h.obj_lt]
  cases a with
  | add subs =>
    obtain rfl := Option.some.inj hs
    obtain ⟨hc, ho⟩ := h.add subs
    exact ⟨hc, fun hs => ⟨fun _ => trivial, fun _ => ho hs⟩⟩
  | construct cls =>
    obtain rfl := Option.some.inj hs
    have hd := h.drops_newObj cls
    exact ⟨hd.consistent h, fun ho => ⟨fun _ => trivial, fun _ =>
      (hd.owned_iff h ho).mpr (.inr hnone)⟩⟩
  | constructScoped c =>
    simp only [step] at hs
    split at hs
    · rename_i f hc
      obtain rfl := Option.some.inj hs
      have hm := h.moves_newObj hc .connection .scopedConnection
      have hne : s.nextObj ≠ c := Nat.ne_of_gt (h.lt_nextObj hc)
      exact ⟨hm.consistent h, fun ho => ⟨fun _ => trivial, fun _ =>
        (hm.owned_iff hne h ho).mpr hnone⟩⟩
    · cases hs
  | moveConstruct src =>
    simp only [step] at hs
    split at hs
    · rename_i cls f hc
      obtain rfl := Option.some.inj hs
      have hm := h.moves_newObj hc cls cls
      have hne : s.nextObj ≠ src := Nat.ne_of_gt (h.lt_nextObj hc)
      exact ⟨hm.consistent h, fun ho => ⟨fun _ => trivial, fun _ =>
        (hm.owned_iff hne h ho).mpr hnone⟩⟩
    · cases hs
  | moveAssign dst src =>
    simp only [step] at hs
    split at hs
    · rename_i cls f cls' f' hdst hsrc
      split_ifs at hs with hcls heq
      · obtain rfl := Option.some.inj hs
        exact ⟨h, fun ho => ⟨fun _ => .inl heq, fun _ => ho⟩⟩
      · obtain rfl := Option.some.inj hs
        have hm := h.moves_setObj hsrc hdst cls cls
        refine ⟨hm.consistent h, fun ho => ?_⟩
        rw [hm.owned_iff heq h ho]
        simp [Guard, heq]
    · cases hs
  | disconnect o =>
    simp only [step] at hs
    split at hs
    · rename_i cls f hobj
      obtain rfl := Option.some.inj hs
      have hd := h.drops_remove hobj (x := some ⟨cls, none⟩) (by simp)
      exact ⟨hd.consistent h, fun ho => ⟨fun _ => trivial, fun _ =>
        (hd.owned_iff h ho).mpr (.inl trivial)⟩⟩
    · cases hs
  | destroy o =>
    simp only [step] at hs
    split at hs
    · rename_i f hobj
      obtain rfl := Option.some.inj hs
      have hd := h.drops_setObj hobj
      refine ⟨hd.consistent h, fun ho => ?_⟩
      rw [hd.owned_iff h ho, false_or]
      simp only [owns_iff_of_objs hobj, Guard, hobj]
      simp
    · rename_i f hobj
      obtain rfl := Option.some.inj hs
      have hd := h.drops_remove hobj (x := none) (by simp)
      refine ⟨hd.consistent h, fun ho => ⟨fun _ => ?_, fun _ =>
        (hd.owned_iff h ho).mpr (.inl trivial)⟩⟩
      simp [Guard, hobj]
    · cases hs


/-- The runs in which callbacks always follow ownership.

**Proof sketch.** The exactness rule with `step_spec`. -/
theorem maintains_owned_iff (as : List Action) :
    Transition.Maintains step Owned initial as ↔
      ∃ t, Transition.Reaches step Guard initial as t :=
  Transition.maintains_iff_reaches_of_step (fun _ _ _ h hs => (step_spec h hs).1)
    (fun _ _ _ h ho hs => (step_spec h hs).2 ho) as consistent_initial owned_initial

end Connections

/-! ## A vector of connections -/

/-- An element of `m_onIPConns`: an identifier, and the objects of its two connections. -/
structure OnIPConns where
  /-- The identifier of the user. -/
  id : ℤ
  /-- The connection for changes that are about to happen. -/
  before : ℕ
  /-- The connection for changes that have happened. -/
  after : ℕ
  deriving DecidableEq

namespace OnIPConns

open Connections

/-- The objects of an element. -/
def objs (e : OnIPConns) : List ℕ := [e.before, e.after]

/-- The move assignment of the tuples. -/
def moveAssign (dst src : OnIPConns) : List Action :=
  [.moveAssign dst.before src.before, .moveAssign dst.after src.after]

/-- The destructor of the tuples. -/
def destroy (e : OnIPConns) : List Action := [.destroy e.before, .destroy e.after]

/-- `erase(remove_if(..))` of the elements whose identifier is in `p`: what is done with the
connections, and the vector afterwards. -/
def eraseIf (p : ℤ → Bool) (v : List OnIPConns) : List Action × List OnIPConns :=
  let r := RemoveIf.removeIf (fun e => p e.id) v []
  (r.moves.flatMap (fun m => moveAssign m.1 m.2) ++ r.left.flatMap destroy,
    r.kept.map fun m => { m.1 with id := m.2.id })

/-- `TraffCounterImpl::UnSetUserNotifiers`. -/
def unSetUserNotifiers (id : ℤ) (v : List OnIPConns) : List Action × List OnIPConns :=
  eraseIf (fun i => i = id) v

/-- The elements of a vector are live `ScopedConnection` objects, and no two of them are the
same. -/
structure Vector (s : Connections) (v : List OnIPConns) : Prop where
  nodup : (v.flatMap objs).Nodup
  live : ∀ o ∈ v.flatMap objs, ∃ f, s.objs o = some ⟨.scopedConnection, f⟩

/-- The callback an object owns. -/
def callback (s : Connections) (o : ℕ) : Option Callback := s.objs o >>= ConnObject.disconnect

/-- The callbacks of an element. -/
def contents (s : Connections) (e : OnIPConns) : Option Callback × Option Callback :=
  (callback s e.before, callback s e.after)

/-- The element owns the callback. -/
def Has (s : Connections) (e : OnIPConns) (k : Callback) : Prop :=
  s.Owns e.before k ∨ s.Owns e.after k

section Erase

variable {s : Connections} {v : List OnIPConns}

theorem owns_iff_callback {o : ℕ} {k : Callback} : s.Owns o k ↔ callback s o = some k := by
  unfold Owns callback
  cases s.objs o with
  | none => simp
  | some x =>
    obtain ⟨cls, f⟩ := x
    simp

theorem has_iff_contents {e : OnIPConns} {k : Callback} :
    Has s e k ↔ (contents s e).1 = some k ∨ (contents s e).2 = some k := by
  simp [Has, contents, owns_iff_callback]

theorem has_iff_objs {e : OnIPConns} {k : Callback} : Has s e k ↔ ∃ o ∈ e.objs, s.Owns o k := by
  simp [Has, objs]

theorem callback_setObj {o o' : ℕ} {cls : ConnClass} {f : Option Callback} :
    callback (s.setObj o (some ⟨cls, f⟩)) o' = if o' = o then f else callback s o' := by
  unfold callback setObj
  by_cases ho : o' = o
  · subst ho
    simp
  · simp [ho]

/-- A vector stays one if one of its objects gets a new state. -/
theorem Vector.setObj (h : Vector s v) (o : ℕ) (f : Option Callback) :
    Vector (s.setObj o (some ⟨.scopedConnection, f⟩)) v := by
  refine ⟨h.nodup, fun o' ho' => ?_⟩
  by_cases ho : o' = o
  · exact ⟨f, by rw [ho]; exact Function.update_self _ _ _⟩
  · obtain ⟨g, hg⟩ := h.live o' ho'
    exact ⟨g, by rw [setObj_of_ne ho, hg]⟩

/-- A move assignment of objects that are alive. -/
theorem exists_step_moveAssign {dst src : ℕ} {f g : Option Callback}
    (hdst : s.objs dst = some ⟨.scopedConnection, g⟩)
    (hsrc : s.objs src = some ⟨.scopedConnection, f⟩) (hne : dst ≠ src) :
    s.step (.moveAssign dst src) = some ((s.setObj src (some ⟨.scopedConnection, none⟩)).setObj dst
      (some ⟨.scopedConnection, f⟩)) := by
  simp [step, hdst, hsrc, hne]

/-- The objects of different elements are different. -/
theorem Vector.disjoint (h : Vector s v) {d e : OnIPConns} (hd : d ∈ v) (he : e ∈ v)
    (hne : d ≠ e) : d.objs.Disjoint e.objs := by
  have hpair := (List.nodup_flatMap.mp h.nodup).2
  have hsymm : Std.Symm (Function.onFun List.Disjoint objs) :=
    ⟨fun _ _ hdisj _ h₁ h₂ => hdisj h₂ h₁⟩
  exact hpair.forall hd he hne

theorem Vector.objs_nodup (h : Vector s v) {e : OnIPConns} (he : e ∈ v) : e.before ≠ e.after := by
  have hnodup := (List.nodup_flatMap.mp h.nodup).1 e he
  simpa [objs] using hnodup

/-- The move assignment of tuples moves their contents. -/
theorem Vector.exists_runs_moveAssign (h : Vector s v) {d e : OnIPConns} (hd : d ∈ v) (he : e ∈ v)
    (hne : d ≠ e) :
    ∃ s', Transition.Runs step s (moveAssign d e) s' ∧ Vector s' v ∧
      s'.callbacks = s.callbacks ∧
      ∀ x ∈ v, contents s' x = RemoveIf.move (none, none) (contents s) (d, e) x := by
  have hlive : ∀ x ∈ v, ∀ o ∈ x.objs, ∃ f, s.objs o = some ⟨.scopedConnection, f⟩ :=
    fun x hx o ho => h.live o (List.mem_flatMap.mpr ⟨x, hx, ho⟩)
  obtain ⟨f₁, hd₁⟩ := hlive d hd d.before (by simp [objs])
  obtain ⟨f₂, hd₂⟩ := hlive d hd d.after (by simp [objs])
  obtain ⟨g₁, he₁⟩ := hlive e he e.before (by simp [objs])
  obtain ⟨g₂, he₂⟩ := hlive e he e.after (by simp [objs])
  have hdd := h.objs_nodup hd
  have hee := h.objs_nodup he
  have hde := h.disjoint hd he hne
  simp only [objs, List.disjoint_cons_left, List.mem_cons, List.not_mem_nil, or_false, not_or,
    List.disjoint_nil_left, and_true] at hde
  obtain ⟨⟨h₁₁, h₁₂⟩, h₂₁, h₂₂⟩ := hde
  have hs₁ := exists_step_moveAssign hd₁ he₁ h₁₁
  generalize ht : (s.setObj e.before (some ⟨.scopedConnection, none⟩)).setObj d.before
    (some ⟨.scopedConnection, g₁⟩) = t at hs₁
  -- the first move leaves the second objects alone
  have hd₂' : t.objs d.after = some ⟨.scopedConnection, f₂⟩ := by
    rw [← ht, setObj_of_ne (Ne.symm hdd), setObj_of_ne h₂₁, hd₂]
  have he₂' : t.objs e.after = some ⟨.scopedConnection, g₂⟩ := by
    rw [← ht, setObj_of_ne (Ne.symm h₁₂), setObj_of_ne (Ne.symm hee), he₂]
  have hs₂ := exists_step_moveAssign hd₂' he₂' h₂₂
  refine ⟨_, .cons trivial hs₁ (.cons trivial hs₂ (.nil _)), ?_, ?_, ?_⟩
  · rw [← ht]
    exact (((h.setObj _ _).setObj _ _).setObj _ _).setObj _ _
  · rw [← ht]
    rfl
  · have hg₁ : callback s e.before = g₁ := by simp [callback, he₁]
    have hg₂ : callback s e.after = g₂ := by simp [callback, he₂]
    intro x hx
    rw [← ht]
    simp only [contents, callback_setObj, RemoveIf.move]
    by_cases hxd : x = d
    · subst hxd
      simp [hdd, h₁₂, hg₁, hg₂]
    · rw [Function.update_of_ne hxd]
      have hxd' := h.disjoint hx hd hxd
      simp only [objs, List.disjoint_cons_left, List.mem_cons, List.not_mem_nil, or_false, not_or,
        List.disjoint_nil_left, and_true] at hxd'
      by_cases hxe : x = e
      · subst hxe
        simp [hxd', hee]
      · rw [Function.update_of_ne hxe]
        have hxe' := h.disjoint hx he hxe
        simp only [objs, List.disjoint_cons_left, List.mem_cons, List.not_mem_nil, or_false,
          not_or, List.disjoint_nil_left, and_true] at hxe'
        simp [contents, hxd', hxe']

/-- The moves of `remove_if` move the contents of the elements.

**Proof sketch.** Induction on the list of moves. -/
theorem Vector.exists_runs_moves (moves : List (OnIPConns × OnIPConns))
    (hmoves : ∀ m ∈ moves, m.1 ∈ v ∧ m.2 ∈ v ∧ m.1 ≠ m.2) {s : Connections} (h : Vector s v)
    {c : OnIPConns → Option Callback × Option Callback} (hc : ∀ x ∈ v, contents s x = c x) :
    ∃ s', Transition.Runs step s (moves.flatMap fun m => moveAssign m.1 m.2) s' ∧ Vector s' v ∧
      s'.callbacks = s.callbacks ∧
      ∀ x ∈ v, contents s' x = moves.foldl (RemoveIf.move (none, none)) c x := by
  induction moves generalizing s c with
  | nil => exact ⟨s, .nil s, h, rfl, hc⟩
  | cons m moves ih =>
    obtain ⟨hd, he, hne⟩ := hmoves m (by simp)
    obtain ⟨s₁, hrun₁, h₁, hcb₁, hc₁⟩ := h.exists_runs_moveAssign hd he hne
    have hc₁' : ∀ x ∈ v, contents s₁ x = RemoveIf.move (none, none) c m x := by
      intro x hx
      rw [hc₁ x hx]
      simp only [RemoveIf.move, Function.update_apply, hc m.2 he, hc x hx]
    obtain ⟨s', hrun, h', hcb, hc'⟩ := ih (fun m' hm' => hmoves m' (by simp [hm'])) h₁ hc₁'
    exact ⟨s', hrun₁.append hrun, h', hcb.trans hcb₁, hc'⟩

/-- The destructors of `ScopedConnection` objects remove their callbacks.

**Proof sketch.** Induction on the list of objects. -/
theorem exists_runs_destroy (os : List ℕ) (hnodup : os.Nodup) {s : Connections}
    (h : s.Consistent) (hlive : ∀ o ∈ os, ∃ f, s.objs o = some ⟨.scopedConnection, f⟩) :
    ∃ s', Transition.Runs step s (os.map Action.destroy) s' ∧
      ∀ k, s'.Listed k ↔ s.Listed k ∧ ∀ o ∈ os, ¬ s.Owns o k := by
  induction os generalizing s with
  | nil => exact ⟨s, .nil s, by simp⟩
  | cons o os ih =>
    obtain ⟨hnot, hnodup⟩ := List.nodup_cons.mp hnodup
    obtain ⟨f, hf⟩ := hlive o (by simp)
    have hstep : s.step (.destroy o) = some ((s.remove f).setObj o none) := by simp [step, hf]
    have hd := h.drops_remove hf (x := none) (by simp)
    have hne : ∀ {o'}, o' ∈ os → o' ≠ o := fun ho' hc => hnot (hc ▸ ho')
    have hlive' : ∀ o' ∈ os, ∃ g, ((s.remove f).setObj o none).objs o' =
        some ⟨.scopedConnection, g⟩ := by
      intro o' ho'
      obtain ⟨g, hg⟩ := hlive o' (by simp [ho'])
      refine ⟨g, ?_⟩
      rw [setObj_of_ne (hne ho'), ← hg]
      cases f <;> rfl
    obtain ⟨s', hrun, hs'⟩ := ih hnodup (hd.consistent h) hlive'
    refine ⟨s', .cons trivial hstep hrun, fun k => ?_⟩
    rw [hs', hd.listed, List.forall_mem_cons, true_and, and_assoc]
    refine and_congr_right fun _ => and_congr_right fun _ => forall₂_congr fun o' ho' => ?_
    rw [hd.owns]
    simp [hne ho']

/-- **What `erase(remove_if(..))` does**: with `n` elements to keep, it takes from the lists the
callbacks of the elements to be removed that are not among the first `n`.

**Proof sketch.** `RemoveIf.left_map`: these are the callbacks of the elements that are destroyed
after the moves. -/
theorem exists_runs_erase (p : ℤ → Bool) (h : s.Consistent) (hv : Vector s v) :
    ∃ s', Transition.Runs step s (eraseIf p v).1 s' ∧
      ∀ k, s'.Listed k ↔ s.Listed k ∧
        ∀ e ∈ v.drop (v.countP fun e => !p e.id), p e.id → ¬ Has s e k := by
  have hnodup : v.Nodup := by
    refine List.Pairwise.imp_of_mem ?_ (List.nodup_flatMap.mp hv.nodup).2
    intro d e _ _ hdisj hc
    subst hc
    exact hdisj (a := d.before) (by simp [objs]) (by simp [objs])
  have hperm := RemoveIf.left_perm (fun e => p e.id) v []
  have hleft := RemoveIf.left_map (fun e => p e.id) (none, none) (contents s) v [] hnodup
  have hmoves := fun m => RemoveIf.mem_of_mem_moves (fun e => p e.id) v [] hnodup (m := m)
  unfold eraseIf
  generalize RemoveIf.removeIf (fun e => p e.id) v [] = r at hperm hleft hmoves ⊢
  obtain ⟨s₁, hrun₁, hv₁, hcb, hc⟩ :=
    Vector.exists_runs_moves r.moves hmoves hv (c := contents s) fun _ _ => rfl
  have hsub : ∀ {e}, e ∈ r.left → e ∈ v := fun he => hperm.subset (by simp [he])
  have h₁ : s₁.Consistent := hrun₁.invariant (fun _ _ _ hi _ hs => (step_spec hi hs).1) h
  have hnodup' : (r.left.flatMap objs).Nodup := by
    have hflat := (hperm.flatMap_right objs).nodup_iff.mpr hv.nodup
    rw [List.flatMap_append] at hflat
    exact hflat.of_append_right
  have hlive : ∀ o ∈ r.left.flatMap objs, ∃ f, s₁.objs o = some ⟨.scopedConnection, f⟩ := by
    intro o ho
    obtain ⟨e, he, hoe⟩ := List.mem_flatMap.mp ho
    exact hv₁.live o (List.mem_flatMap.mpr ⟨e, hsub he, hoe⟩)
  obtain ⟨s', hrun, hs'⟩ := exists_runs_destroy (r.left.flatMap objs) hnodup' h₁ hlive
  have hdestroy : (r.left.flatMap objs).map Action.destroy = r.left.flatMap destroy := by
    rw [List.map_flatMap]
    rfl
  refine ⟨s', hrun₁.append (hdestroy ▸ hrun), fun k => ?_⟩
  have hlisted : s₁.Listed k ↔ s.Listed k := by rw [Listed, hcb, Listed]
  have hmap : r.left.map (contents s₁) =
      (v.drop (v.countP fun e => !p e.id)).map fun e =>
        if p e.id then contents s e else (none, none) := by
    rw [List.map_drop, List.map_congr_left fun e he => hc e (hsub he), hleft]
    rfl
  -- a callback is owned by an object that is destroyed iff it is among these contents
  have howned : (∀ o ∈ r.left.flatMap objs, ¬ s₁.Owns o k) ↔
      ∀ x ∈ r.left.map (contents s₁), ¬ (x.1 = some k ∨ x.2 = some k) := by
    simp only [List.forall_mem_flatMap, List.forall_mem_map, ← has_iff_contents, has_iff_objs,
      not_exists, not_and]
  rw [hs', hlisted, howned, hmap, List.forall_mem_map]
  refine and_congr_right fun _ => forall₂_congr fun e _ => ?_
  by_cases hp : p e.id = true
  · simp [hp, has_iff_contents]
  · simp [hp]

/-- The elements that are to be removed lose exactly their callbacks if and only if nothing is moved
over one that has a callback.

**Proof sketch.** A callback of an element that something is moved over is owned by no element that
is destroyed, since no other object owns it; so it stays in its list. -/
theorem erase_exact_iff (p : ℤ → Bool) (n : ℕ) (h : s.Consistent) (hv : Vector s v)
    {s' : Connections}
    (hs' : ∀ k, s'.Listed k ↔ s.Listed k ∧ ∀ e ∈ v.drop n, p e.id → ¬ Has s e k) :
    (∀ k, s'.Listed k ↔ s.Listed k ∧ ∀ e ∈ v, p e.id → ¬ Has s e k) ↔
      ∀ e ∈ v.take n, p e.id → ∀ k, ¬ Has s e k := by
  constructor
  · intro hexact e he hp k hk
    obtain ⟨o, hoe, hok⟩ := has_iff_objs.mp hk
    have hgone : ¬ s'.Listed k := fun hc =>
      ((hexact k).mp hc).2 e (List.mem_of_mem_take he) hp hk
    rw [hs'] at hgone
    push Not at hgone
    obtain ⟨e', he', -, hk'⟩ := hgone (h.listed o k hok)
    obtain ⟨o', hoe', hok'⟩ := has_iff_objs.mp hk'
    obtain rfl := h.unique o o' k hok hok'
    have hnodup := hv.nodup
    rw [← List.take_append_drop n v, List.flatMap_append] at hnodup
    exact (List.disjoint_of_nodup_append hnodup) (List.mem_flatMap.mpr ⟨e, he, hoe⟩)
      (List.mem_flatMap.mpr ⟨e', he', hoe'⟩)
  · intro hfree k
    rw [hs']
    refine and_congr_right fun _ => ⟨fun hdrop e he hp hk => ?_, fun hall e he hp =>
      hall e (List.mem_of_mem_drop he) hp⟩
    rw [← List.take_append_drop n v] at he
    rcases List.mem_append.mp he with he | he
    · exact hfree e he hp k hk
    · exact hdrop e he hp hk

end Erase

end OnIPConns

open Connections OnIPConns in
/-- **Subscriptions follow ownership.** Let a program add callbacks and construct, move, assign,
disconnect and destroy connections.  A callback is always in its list if and only if exactly one
live object owns it, if and only if nothing is ever assigned to an object that owns a callback
(except itself) and no `Connection` that owns one is destroyed.

Let a vector of connections be erased from in any state of such a program, with `n` elements to
keep.  Exactly the callbacks of the elements to be removed are taken from their lists, if and only
if none of those among the first `n` elements has a callback.

**Proof sketch.** The exactness rule with `Connections.step_spec`, and
`OnIPConns.exists_runs_erase`. -/
theorem subscriptions_follow_ownership_iff (as : List Action) :
    (Transition.Maintains step Owned initial as ↔
      ∃ t, Transition.Reaches step Guard initial as t) ∧
    ∀ t, Transition.Runs step initial as t → ∀ (v : List OnIPConns) (id : ℤ), Vector t v →
      ∃ t', Transition.Runs step t (unSetUserNotifiers id v).1 t' ∧
        ((∀ k, t'.Listed k ↔ t.Listed k ∧ ∀ e ∈ v, e.id = id → ¬ Has t e k) ↔
          ∀ e ∈ v.take (v.countP fun e => e.id ≠ id), e.id = id → ∀ k, ¬ Has t e k) := by
  constructor
  · exact maintains_owned_iff as
  · intro t hrun v id hv
    have ht : t.Consistent :=
      hrun.invariant (fun _ _ _ hi _ hs => (step_spec hi hs).1) consistent_initial
    obtain ⟨t', hrun', ht'⟩ := exists_runs_erase (fun i => i = id) ht hv
    refine ⟨t', hrun', ?_⟩
    simpa using erase_exact_iff (fun i => i = id) _ ht hv ht'

namespace Sample

/-- The program that puts two callbacks of one user into a vector. -/
def oneHolder : List Connections.Action := [.add 0, .constructScoped 0, .add 1, .constructScoped 2]

/-- The program that puts two callbacks of each of two users into a vector. -/
def twoHolders : List Connections.Action :=
  oneHolder ++ [.add 2, .constructScoped 4, .add 3, .constructScoped 6]

end Sample

open Connections OnIPConns in
/-- The second of two elements of a vector is erased: its callbacks are gone, and only they. -/
theorem subscriptions_follow_ownership_second :
    Transition.Maintains step Owned initial Sample.twoHolders ∧
    ∃ t, Transition.Runs step initial Sample.twoHolders t ∧ Vector t [⟨1, 1, 3⟩, ⟨2, 5, 7⟩] ∧
      ∃ t', Transition.Runs step t (unSetUserNotifiers 2 [⟨1, 1, 3⟩, ⟨2, 5, 7⟩]).1 t' ∧
        ∀ k, t'.Listed k ↔ t.Listed k ∧ ¬ Has t ⟨2, 5, 7⟩ k := by
  have hreach : ∃ t, Transition.Reaches step Guard initial Sample.twoHolders t ∧
      Vector t [⟨1, 1, 3⟩, ⟨2, 5, 7⟩] := by
    refine ⟨_, .cons trivial rfl (.cons trivial rfl (.cons trivial rfl (.cons trivial rfl
      (.cons trivial rfl (.cons trivial rfl (.cons trivial rfl (.cons trivial rfl (.nil _)))))))),
      by decide, fun o ho => ?_⟩
    have ho' : o ∈ [1, 3, 5, 7] := ho
    fin_cases ho' <;> exact ⟨_, rfl⟩
  obtain ⟨t, ht, hv⟩ := hreach
  have hrun := ht.mono fun _ _ _ => trivial
  obtain ⟨hown, herase⟩ := subscriptions_follow_ownership_iff Sample.twoHolders
  obtain ⟨t', hrun', hexact⟩ := herase t hrun [⟨1, 1, 3⟩, ⟨2, 5, 7⟩] 2 hv
  refine ⟨hown.mpr ⟨t, ht⟩, t, hrun, hv, t', hrun', ?_⟩
  simpa using hexact.mpr (by simp)

open Connections OnIPConns in
/-- A connected object is assigned to: its callback stays, with no owner.  The first of two elements
of a vector is erased: the second is moved over it, and its callbacks stay, too. -/
theorem callbacks_stay :
    ¬ Transition.Maintains step Owned initial
      [.add 0, .constructScoped 0, .add 0, .constructScoped 2, .moveAssign 1 3] ∧
    ∃ t t', Transition.Runs step initial Sample.twoHolders t ∧ Vector t [⟨1, 1, 3⟩, ⟨2, 5, 7⟩] ∧
      Transition.Runs step t (unSetUserNotifiers 1 [⟨1, 1, 3⟩, ⟨2, 5, 7⟩]).1 t' ∧
      Has t ⟨1, 1, 3⟩ ⟨0, 0⟩ ∧ t'.Listed ⟨0, 0⟩ := by
  constructor
  · rw [maintains_owned_iff]
    rintro ⟨t, ht⟩
    obtain _ | ⟨-, h₁, ht⟩ := ht
    obtain rfl := Option.some.inj h₁
    obtain _ | ⟨-, h₂, ht⟩ := ht
    obtain rfl := Option.some.inj h₂
    obtain _ | ⟨-, h₃, ht⟩ := ht
    obtain rfl := Option.some.inj h₃
    obtain _ | ⟨-, h₄, ht⟩ := ht
    obtain rfl := Option.some.inj h₄
    obtain _ | ⟨hg, -, -⟩ := ht
    exact hg.resolve_left (by decide) ⟨0, 0⟩ ⟨_, rfl⟩
  · refine ⟨_, _, .cons trivial rfl (.cons trivial rfl (.cons trivial rfl (.cons trivial rfl
      (.cons trivial rfl (.cons trivial rfl (.cons trivial rfl (.cons trivial rfl (.nil _)))))))),
      ⟨by decide, fun o ho => ?_⟩, .cons trivial rfl (.cons trivial rfl (.cons trivial rfl
        (.cons trivial rfl (.nil _)))), .inl ⟨_, rfl⟩, by decide⟩
    have ho' : o ∈ [1, 3, 5, 7] := ho
    fin_cases ho' <;> exact ⟨_, rfl⟩

end Stargazer
