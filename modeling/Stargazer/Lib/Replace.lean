import Mathlib.Data.List.Basic
import Mathlib.Logic.Function.Basic

set_option relaxedAutoImplicit false
set_option autoImplicit false

/-!
# Writing and renaming files

A program writes a file through a stream and puts it in the place of another one.  Each operation may
fail: the file cannot be opened, there is room for some of the characters only, the file cannot be
renamed.

## Main definitions

* `DiskFile.Disk` — files by their paths.
* `DiskFile.OutStream` — a stream, with what is behind it.
* `DiskFile.rename` — put a file in the place of another one.

## Main results

* `DiskFile.OutStream.putAll_content` — what reaches the file is the beginning of what is put.
-/

namespace DiskFile

variable {π β : Type*}

/-- Files by their paths. -/
abbrev Disk (π β : Type*) := π → Option (List β)

/-- A stream into a file. -/
structure OutStream (β : Type*) where
  /-- What has reached the file. -/
  content : List β
  /-- The number of characters there is still room for. -/
  room : ℕ
  /-- No operation has failed. -/
  good : Bool

namespace OutStream

/-- A stream into an empty file. -/
def start (room : ℕ) : OutStream β := ⟨[], room, true⟩

/-- A text is put, and after a failure nothing is. -/
def put (s : OutStream β) (t : List β) : OutStream β :=
  if s.good then
    if t.length ≤ s.room then ⟨s.content ++ t, s.room - t.length, true⟩
    else ⟨s.content ++ t.take s.room, 0, false⟩
  else s

/-- Texts one after another. -/
def putAll (s : OutStream β) (ts : List (List β)) : OutStream β := ts.foldl put s

theorem putAll_of_not_good {s : OutStream β} (h : s.good = false) (ts : List (List β)) :
    s.putAll ts = s := by
  induction ts with
  | nil => rfl
  | cons t ts ih =>
    have hput : s.put t = s := by
      unfold put
      rw [h]
      rfl
    show (s.put t).putAll ts = s
    rw [hput, ih]

/-- **What reaches the file** is the beginning of what is put. -/
theorem putAll_content {s : OutStream β} (h : s.good = true) (ts : List (List β)) :
    (s.putAll ts).content = s.content ++ ts.flatten.take s.room := by
  induction ts generalizing s with
  | nil => exact (List.append_nil _).symm.trans (congrArg _ List.take_nil.symm)
  | cons t ts ih =>
    show ((s.put t).putAll ts).content = _
    rw [List.flatten_cons, List.take_append]
    by_cases hroom : t.length ≤ s.room
    · have hput : s.put t = ⟨s.content ++ t, s.room - t.length, true⟩ := by
        unfold put
        rw [if_pos h, if_pos hroom]
      rw [hput, ih rfl, List.take_of_length_le hroom, List.append_assoc]
    · have hput : s.put t = ⟨s.content ++ t.take s.room, 0, false⟩ := by
        unfold put
        rw [if_pos h, if_neg hroom]
      have hrest : s.room - t.length = 0 := by omega
      rw [hput, putAll_of_not_good rfl, hrest, List.take_zero, List.append_nil]

end OutStream


variable [DecidableEq π]

/-- `rename`. -/
def rename (d : Disk π β) (p q : π) : Disk π β :=
  Function.update (Function.update d q (d p)) p none

theorem rename_target (d : Disk π β) {p q : π} (h : p ≠ q) : rename d p q q = d p := by
  unfold rename
  rw [Function.update_of_ne h.symm, Function.update_self]

end DiskFile
