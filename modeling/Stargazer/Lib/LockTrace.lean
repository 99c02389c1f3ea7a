import Mathlib.Data.List.Basic

set_option relaxedAutoImplicit false
set_option autoImplicit false

/-!
# Lock scopes and their traces

A program that takes non-recursive mutexes only through scoped guards is, as far as locking is
concerned, a tree of scopes.  `LockProg` is that tree, `LockProg.events` the trace of acquire and
release events one thread performs when it runs it.  A thread that acquires a mutex it already
holds waits for itself forever; `SelfFree` says that this error state is not reached.

## Main definitions

* `LockTrace.LockEvent`, `LockTrace.SelfFree` — traces and the absence of self-acquisition.
* `LockTrace.LockProg`, `LockTrace.LockProg.events` — scopes and their traces.
* `LockTrace.LockProg.Safe` — the same property, read off the tree.

## Main results

* `LockTrace.LockProg.selfFree_events` — the trace of a program has no self-acquisition iff the
  tree nests no mutex inside itself.
-/

namespace LockTrace

/-- What a thread does to a mutex. -/
inductive LockEvent (κ : Type*)
  /-- The mutex is locked. -/
  | acquire (l : κ)
  /-- The mutex is unlocked. -/
  | release (l : κ)
  deriving DecidableEq

variable {κ : Type*}

/-- Running the trace with the mutexes `held` already held never acquires a held mutex. -/
def SelfFree [DecidableEq κ] : List κ → List (LockEvent κ) → Prop
  | _, [] => True
  | held, .acquire l :: tr => l ∉ held ∧ SelfFree (l :: held) tr
  | held, .release l :: tr => SelfFree (held.erase l) tr

/-- Whether a trace is free of self-acquisition can be computed. -/
def decSelfFree [DecidableEq κ] :
    ∀ (held : List κ) (tr : List (LockEvent κ)), Decidable (SelfFree held tr)
  | _, [] => inferInstanceAs (Decidable True)
  | held, .acquire l :: tr =>
    haveI := decSelfFree (l :: held) tr
    inferInstanceAs (Decidable (l ∉ held ∧ SelfFree (l :: held) tr))
  | held, .release l :: tr => decSelfFree (held.erase l) tr

instance [DecidableEq κ] (held : List κ) (tr : List (LockEvent κ)) : Decidable (SelfFree held tr) :=
  decSelfFree held tr

/-- The locking structure of a program: nothing, a scope that holds a mutex while its body runs,
or one program after the other. -/
inductive LockProg (κ : Type*)
  /-- No mutex is touched. -/
  | skip
  /-- A guard on `l` lives while `body` runs. -/
  | scope (l : κ) (body : LockProg κ)
  /-- One after the other. -/
  | seq (p q : LockProg κ)

namespace LockProg

/-- Run `p` if the condition holds. -/
def when (c : Prop) [Decidable c] (p : LockProg κ) : LockProg κ := if c then p else skip

/-- One program for each element of a list. -/
def forEach {ι : Type*} (f : ι → LockProg κ) : List ι → LockProg κ
  | [] => skip
  | i :: is => seq (f i) (forEach f is)

/-- The events of a run of the program. -/
def events : LockProg κ → List (LockEvent κ)
  | skip => []
  | scope l body => .acquire l :: events body ++ [.release l]
  | seq p q => events p ++ events q

/-- No scope of the program is entered with its mutex held. -/
def Safe : List κ → LockProg κ → Prop
  | _, skip => True
  | held, scope l body => l ∉ held ∧ Safe (l :: held) body
  | held, seq p q => Safe held p ∧ Safe held q

@[simp] theorem safe_skip (held : List κ) : Safe held skip := trivial

@[simp] theorem safe_scope (held : List κ) (l : κ) (body : LockProg κ) :
    Safe held (scope l body) ↔ l ∉ held ∧ Safe (l :: held) body := Iff.rfl

@[simp] theorem safe_seq (held : List κ) (p q : LockProg κ) :
    Safe held (seq p q) ↔ Safe held p ∧ Safe held q := Iff.rfl

@[simp] theorem safe_when (held : List κ) (c : Prop) [Decidable c] (p : LockProg κ) :
    Safe held (when c p) ↔ (c → Safe held p) := by
  unfold when
  split_ifs with h <;> simp [h]

@[simp] theorem safe_forEach {ι : Type*} (held : List κ) (f : ι → LockProg κ) (is : List ι) :
    Safe held (forEach f is) ↔ ∀ i ∈ is, Safe held (f i) := by
  induction is with
  | nil => simp [forEach]
  | cons i is ih => simp [forEach, ih]

/-- After its events a program holds what it held before, whatever follows.

**Proof sketch.** Induction on the program.  A scope adds its mutex in front of the held ones and
the matching release removes that first occurrence again. -/
theorem selfFree_events_append [DecidableEq κ] (p : LockProg κ) :
    ∀ (held : List κ) (tr : List (LockEvent κ)),
      SelfFree held (p.events ++ tr) ↔ p.Safe held ∧ SelfFree held tr := by
  induction p with
  | skip => simp [events]
  | scope l body ih =>
    intro held tr
    simp only [events, List.cons_append, List.append_assoc, SelfFree, safe_scope]
    rw [ih (l :: held)]
    simp [SelfFree, and_assoc]
  | seq p q ihp ihq =>
    intro held tr
    simp only [events, List.append_assoc, safe_seq]
    rw [ihp, ihq, and_assoc]

/-- **Traces and trees agree**: the trace of a program has no self-acquisition iff no scope is
entered with its mutex held. -/
theorem selfFree_events [DecidableEq κ] (p : LockProg κ) (held : List κ) :
    SelfFree held p.events ↔ p.Safe held := by
  have h := p.selfFree_events_append held []
  simpa [SelfFree] using h

end LockProg

end LockTrace
