import Stargazer.Basic
import Stargazer.Lib.CString
import Stargazer.Lib.OrderedMap
import Mathlib.Data.List.DropRight

set_option relaxedAutoImplicit false
set_option autoImplicit false

/-!
# Configuration files

`CONFIGFILE` (`conffiles.cpp`) reads a file of lines `parameter=value` into a map, gives out and
changes values, and writes the map back.  Everything behind a `#` is a comment, blanks around
parameters and values are dropped, and the parameters are compared with `strcasecmp`.  What is
written is not protected against any of this.

A file is its text, `none` if there is no file.  The functions of the C library for `double` are
parameters (`Stargazer.CDouble`).

## Main definitions

* `Stargazer.Params` — the map; `Stargazer.ConfigFile.load` — the constructor,
  `Stargazer.ConfigFile.flush` — the text that is written.
* `Stargazer.ConfigFile.readString`, `Stargazer.ConfigFile.readInt` and so on — the values.
* `Stargazer.ConfigFile.clean` — what is left of a value that is written and read.
* `Stargazer.ConfigFile.Plain` — the values that survive.

## Main results

* `Stargazer.ConfigFile.load_flush` — reading what was written.
* `Stargazer.ConfigFile.clean_eq_self_iff` — a value survives iff it is plain.
* `Stargazer.ConfigFile.exists_load_save` — the parameters that are saved are found again.
-/

namespace Stargazer

/-- `param_val`. -/
abbrev Params := OrderedMap CString.foldCase (List Char)

/-- What is used of the C library to print and to scan a `double`. -/
structure CDouble where
  /-- `snprintf(s, 30, "%f", x)`. -/
  print : Money → List Char
  /-- `strtod`: the number, and the text at `endptr`. -/
  strtod : List Char → Money × List Char
  /-- Does `strtod` set `errno` to `ERANGE`? -/
  range : List Char → Bool
  /-- What is printed is a sign, digits and a point, or a word. -/
  print_plain : ∀ x, ∀ c ∈ print x, c ∉ ['\x00', '\n', '#', ' ', '\t']
  /-- What is printed is scanned to its end. -/
  strtod_print : ∀ x, (strtod (print x)).2 = []
  /-- It has six digits behind the point at most, and is neither too large nor too small. -/
  range_print : ∀ x, range (print x) = false

/-- Numbers in decimal notation, where only whole numbers are printed right. -/
def CDouble.whole : CDouble where
  print x := CString.printInt x.floor ++ ".000000".toList
  strtod s :=
    match CString.scanInt s with
    | none => (0, s)
    | some (neg, digits, rest) =>
      let fraction := if rest.head? = some '.' then rest.tail.takeWhile Char.isDigit else []
      let x : Money := Nat.ofDigitChars 10 (digits ++ fraction) 0 / 10 ^ fraction.length
      (if neg then -x else x,
        if rest.head? = some '.' then rest.tail.dropWhile Char.isDigit else rest)
  range _ := false
  print_plain x c hc hmem := by
    rcases List.mem_append.mp hc with hc | hc
    · rcases CString.mem_printInt hc with rfl | hc
      · exact absurd hmem (by decide)
      · fin_cases hmem <;> exact absurd hc (by decide)
    · fin_cases hmem <;> exact absurd hc (by decide)
  strtod_print x := by
    rw [CString.scanInt_printInt x.floor _ (by decide)]
    rfl
  range_print _ := rfl

namespace ConfigFile

/-! ## Reading a file -/

/-- The characters `Trim` removes. -/
def isBlank (c : Char) : Bool := c ∈ [' ', '\t']

/-- `TrimL`. -/
def trimL (s : List Char) : List Char := s.dropWhile isBlank

/-- `TrimR`, which keeps a text of blanks only. -/
def trimR (s : List Char) : List Char := if s.all isBlank then s else s.rdropWhile isBlank

/-- `Trim`. -/
def trim (s : List Char) : List Char := trimR (trimL s)

/-- The lines `getline` gives. -/
def getlines : List Char → List (List Char)
  | [] => []
  | c :: s =>
    if c = '\n' then [] :: getlines s
    else
      match getlines s with
      | [] => [[c]]
      | l :: ls => (c :: l) :: ls

/-- One round of the loop of the constructor, `none` for an error. -/
def loadLine (m : Params) (line : List Char) : Option Params :=
  let line := line.takeWhile (· ≠ '#')
  if line.all (· ∈ [' ', '\t', '\r']) then some m
  else if '=' ∉ line then none
  else some (m.insert (trim (line.takeWhile (· ≠ '='))) (trim (line.dropWhile (· ≠ '=')).tail))

/-- `CONFIGFILE::CONFIGFILE`, `none` if `Error()` is not zero. -/
def load (file : Option (List Char)) (nook : Bool) : Option Params :=
  match file with
  | none => if nook then some .empty else none
  | some text => (getlines text).foldlM loadLine .empty

/-! ## Values -/

/-- `EINVAL`. -/
def einval : ℤ := 22

/-- `CONFIGFILE::ReadString`, with the result of the call. -/
def readString (m : Params) (param : String) (defaultVal : List Char) : ℤ × List Char :=
  match m.lookup param.toList with
  | some v => (0, v)
  | none => (-1, defaultVal)

/-- The functions that read numbers: `scan` gives the number and the text that is left. -/
def readNumber {α : Type} (scan : List Char → α × List Char) (m : Params) (param : String)
    (defaultVal : α) : ℤ × α :=
  match m.lookup param.toList with
  | some v => if (scan v).2 ≠ [] then (einval, defaultVal) else (0, (scan v).1)
  | none => (-1, defaultVal)

/-- Does it set `errno` to `ERANGE` to scan the value of a parameter? -/
def scanRange (range : List Char → Bool) (m : Params) (param : String) : Bool :=
  (m.lookup param.toList).any range

/-- `CONFIGFILE::ReadInt`. -/
def readInt : Params → String → BitVec 32 → ℤ × BitVec 32 :=
  readNumber fun v => ((BitVec.ofInt 32 (CString.strtol v).1), (CString.strtol v).2)

/-- `CONFIGFILE::ReadTime`. -/
def readTime : Params → String → Time → ℤ × Time := readNumber CString.strtol

/-- `CONFIGFILE::ReadUShortInt`. -/
def readUShortInt : Params → String → BitVec 16 → ℤ × BitVec 16 :=
  readNumber fun v => ((CString.strtoul v).1.setWidth 16, (CString.strtoul v).2)

/-- `CONFIGFILE::ReadULongLongInt`. -/
def readULongLongInt : Params → String → BitVec 64 → ℤ × BitVec 64 := readNumber CString.strtoul

/-- `CONFIGFILE::ReadDouble`. -/
def readDouble (lib : CDouble) : Params → String → Money → ℤ × Money :=
  readNumber fun v => lib.strtod (CString.cut v)

/-- `CONFIGFILE::WriteString`, as the entry that is written. -/
def writeString (param : String) (val : String) : List Char × List Char :=
  (param.toList, val.toList)

/-- `CONFIGFILE::WriteInt` and `CONFIGFILE::WriteTime`. -/
def writeInt (param : String) (val : ℤ) : List Char × List Char :=
  (param.toList, CString.printInt val)

/-- `CONFIGFILE::WriteDouble`. -/
def writeDouble (lib : CDouble) (param : String) (val : Money) : List Char × List Char :=
  (param.toList, lib.print val)

/-- `CONFIGFILE::Flush`: the text of the file. -/
def flush (m : Params) : List Char := m.entries.flatMap fun e => e.1 ++ '=' :: (e.2 ++ ['\n'])

/-! ## Blanks and comments -/

/-- What is left of a value that is written and read. -/
def clean (v : List Char) : List Char := trim (v.takeWhile (· ≠ '#'))

/-- A value without comments and without blanks at its ends. -/
def Plain (v : List Char) : Prop :=
  '#' ∉ v ∧ (∀ c ∈ v.head?, isBlank c = false) ∧ ∀ c ∈ v.getLast?, isBlank c = false

instance (v : List Char) : Decidable (Plain v) :=
  decidable_of_iff ('#' ∉ v ∧ v.head?.all (fun c => !isBlank c) = true ∧
      v.getLast?.all (fun c => !isBlank c) = true) (by
    unfold Plain
    cases v.head? <;> cases v.getLast? <;> simp)

/-- `Trim` removes the blanks at both ends. -/
theorem trim_eq (s : List Char) : trim s = (s.dropWhile isBlank).rdropWhile isBlank := by
  unfold trim trimR trimL
  split_ifs with hall
  · have hnil : s.dropWhile isBlank = [] := by
      rw [List.dropWhile_eq_nil_iff]
      intro c hc
      rw [← List.takeWhile_append_dropWhile (p := isBlank) (l := s), List.mem_append] at hc
      rcases hc with hc | hc
      · exact List.mem_takeWhile_imp hc
      · exact List.all_eq_true.mp hall c hc
    rw [hnil]
    rfl
  · rfl

/-- `Trim` keeps a part of the text. -/
theorem mem_of_mem_trim {s : List Char} {c : Char} (h : c ∈ trim s) : c ∈ s := by
  rw [trim_eq] at h
  exact (List.dropWhile_suffix _).mem ((List.rdropWhile_prefix _ _).mem h)

/-- The texts without blanks at their ends. -/
theorem trim_eq_self_iff {s : List Char} :
    trim s = s ↔ (∀ c ∈ s.head?, isBlank c = false) ∧ ∀ c ∈ s.getLast?, isBlank c = false := by
  have hdrop : s.dropWhile isBlank = s ↔ ∀ c ∈ s.head?, isBlank c = false := by
    cases s with
    | nil => simp
    | cons a s =>
      by_cases ha : isBlank a = true
      · have hlen := (List.dropWhile_suffix (l := s) isBlank).length_le
        refine ⟨fun h => ?_, fun h => absurd (h a rfl) (by simp [ha])⟩
        rw [List.dropWhile_cons_of_pos ha] at h
        rw [h, List.length_cons] at hlen
        omega
      · simp [ha]
  have hrdrop : s.rdropWhile isBlank = s ↔ ∀ c ∈ s.getLast?, isBlank c = false := by
    rw [List.rdropWhile_eq_self_iff]
    cases hs : s.getLast? with
    | none => simp [List.getLast?_eq_none_iff.mp hs]
    | some c =>
      have hne : s ≠ [] := fun h => by simp [h] at hs
      rw [List.getLast?_eq_some_getLast hne, Option.some.injEq] at hs
      simp [hs, hne]
  rw [trim_eq, ← hdrop, ← hrdrop]
  constructor
  · intro h
    have hpre := (List.rdropWhile_prefix isBlank (s.dropWhile isBlank)).length_le
    have hsuf := List.dropWhile_suffix (l := s) isBlank
    rw [h] at hpre
    have hs : s.dropWhile isBlank = s := hsuf.eq_of_length (le_antisymm hsuf.length_le hpre)
    exact ⟨hs, by rwa [hs] at h⟩
  · rintro ⟨hs, hr⟩
    rw [hs, hr]

/-- A trimmed text has no blanks at its ends. -/
theorem trim_trim (s : List Char) : trim (trim s) = trim s := by
  rw [trim_eq_self_iff, trim_eq]
  generalize ht : s.dropWhile isBlank = t
  refine ⟨fun c hc => ?_, fun c hc => ?_⟩
  · have hhead : t.head? = some c := by
      obtain ⟨r, hr⟩ := List.rdropWhile_prefix isBlank t
      rw [← hr, List.head?_append, Option.mem_def.mp hc]
      rfl
    have := List.head?_dropWhile_not isBlank s
    rw [ht, hhead] at this
    simpa using this
  · have hne : t.rdropWhile isBlank ≠ [] := fun h => by simp [h] at hc
    have hlast := List.rdropWhile_last_not isBlank t hne
    rw [List.getLast?_eq_some_getLast hne, Option.mem_some_iff] at hc
    simpa [hc] using hlast

/-- A value without comments is cut nowhere. -/
theorem takeWhile_eq_self_of_notMem {v : List Char} {d : Char} (h : d ∉ v) :
    v.takeWhile (· ≠ d) = v := by
  refine List.takeWhile_eq_self_iff.mpr fun c hc => ?_
  simpa using fun heq : c = d => h (heq ▸ hc)

theorem notMem_takeWhile (d : Char) (v : List Char) : d ∉ v.takeWhile (· ≠ d) := by
  intro h
  simpa using List.mem_takeWhile_imp h

/-- What is left of a value is part of it. -/
theorem mem_of_mem_clean {v : List Char} {c : Char} (h : c ∈ clean v) : c ∈ v ∧ c ≠ '#' := by
  have hc := mem_of_mem_trim h
  exact ⟨(List.takeWhile_prefix _).mem hc, by simpa using List.mem_takeWhile_imp hc⟩

/-- **A value survives iff it is plain.** -/
theorem clean_eq_self_iff {v : List Char} : clean v = v ↔ Plain v := by
  unfold Plain
  rw [← trim_eq_self_iff]
  constructor
  · intro h
    have hhash : '#' ∉ v := fun hc => (mem_of_mem_clean (h.symm ▸ hc : '#' ∈ clean v)).2 rfl
    refine ⟨hhash, ?_⟩
    rwa [clean, takeWhile_eq_self_of_notMem hhash] at h
  · rintro ⟨hhash, h⟩
    rw [clean, takeWhile_eq_self_of_notMem hhash, h]

/-- A text that consists of other characters than blanks, `#` and the end of a line is plain. -/
theorem plain_of_forall {v : List Char} (h : ∀ c ∈ v, c ∉ ['\n', '#', ' ', '\t']) :
    '\n' ∉ v ∧ Plain v := by
  have hblank : ∀ c ∈ v, isBlank c = false := by
    intro c hc
    have := h c hc
    simp only [List.mem_cons, not_or] at this
    simp [isBlank, this]
  refine ⟨fun hc => h _ hc (by simp), fun hc => h _ hc (by simp), fun c hc => ?_, fun c hc => ?_⟩
  · exact hblank c (List.mem_of_head? hc)
  · exact hblank c (List.mem_of_getLast? hc)

theorem plain_printInt (z : ℤ) : '\n' ∉ CString.printInt z ∧ Plain (CString.printInt z) := by
  refine plain_of_forall fun c hc hmem => ?_
  rcases CString.mem_printInt hc with rfl | hc
  · exact absurd hmem (by decide)
  · fin_cases hmem <;> exact absurd hc (by decide)

theorem plain_print (lib : CDouble) (x : Money) : '\n' ∉ lib.print x ∧ Plain (lib.print x) := by
  refine plain_of_forall fun c hc hmem => lib.print_plain x c hc ?_
  exact List.mem_cons_of_mem _ hmem

/-! ## Writing and reading a file -/

/-- A parameter as it is read. -/
def ParamOk (k : List Char) : Prop := '\n' ∉ k ∧ '#' ∉ k ∧ '=' ∉ k ∧ trim k = k

instance (k : List Char) : Decidable (ParamOk k) := inferInstanceAs (Decidable (_ ∧ _ ∧ _ ∧ _))

/-- A value as it is read. -/
def ValueOk (v : List Char) : Prop := '\n' ∉ v ∧ Plain v

instance (v : List Char) : Decidable (ValueOk v) := inferInstanceAs (Decidable (_ ∧ _))

/-- The lines of a file that starts with a line. -/
theorem getlines_append {l : List Char} (h : '\n' ∉ l) (s : List Char) :
    getlines (l ++ '\n' :: s) = l :: getlines s := by
  induction l with
  | nil => simp [getlines]
  | cons c l ih =>
    rw [List.mem_cons, not_or] at h
    simp [getlines, Ne.symm h.1, ih h.2]

/-- There is no end of line in a line. -/
theorem notMem_of_mem_getlines {s l : List Char} (h : l ∈ getlines s) : '\n' ∉ l := by
  induction s generalizing l with
  | nil => cases h
  | cons c s ih =>
    rw [getlines] at h
    split_ifs at h with hc
    · rcases List.mem_cons.mp h with rfl | h
      · simp
      · exact ih h
    · cases hs : getlines s with
      | nil =>
        rw [hs] at h
        obtain rfl := List.mem_singleton.mp h
        simpa using Ne.symm hc
      | cons l' ls =>
        rw [hs] at h ih
        rcases List.mem_cons.mp h with rfl | h
        · simpa [Ne.symm hc] using ih List.mem_cons_self
        · exact ih (List.mem_cons_of_mem _ h)

/-- What one line can do: nothing, or set a parameter. -/
theorem loadLine_cases {m m' : Params} {line : List Char} (hline : '\n' ∉ line)
    (h : loadLine m line = some m') :
    m' = m ∨ ∃ k v, ParamOk k ∧ ValueOk v ∧ m' = m.insert k v := by
  simp only [loadLine] at h
  generalize hcut : line.takeWhile (· ≠ '#') = l at h
  have hnl : '\n' ∉ l := fun hc => hline ((hcut ▸ List.takeWhile_prefix _).mem hc)
  have hhash : '#' ∉ l := hcut ▸ notMem_takeWhile '#' line
  split_ifs at h with hblank heq
  · exact .inl (Option.some.inj h).symm
  · refine .inr ⟨_, _, ?_, ?_, (Option.some.inj h).symm⟩
    · have hpre : ∀ c ∈ trim (l.takeWhile (· ≠ '=')), c ∈ l.takeWhile (· ≠ '=') := fun c hc =>
        mem_of_mem_trim hc
      have hsub : l.takeWhile (· ≠ '=') <+: l := List.takeWhile_prefix _
      exact ⟨fun hc => hnl (hsub.mem (hpre _ hc)), fun hc => hhash (hsub.mem (hpre _ hc)),
        fun hc => notMem_takeWhile '=' l (hpre _ hc), trim_trim _⟩
    · have hsub : (l.dropWhile (· ≠ '=')).tail <:+ l :=
        (List.tail_suffix _).trans (List.dropWhile_suffix _)
      refine ⟨fun hc => hnl (hsub.mem (mem_of_mem_trim hc)), ?_⟩
      have hhash' : '#' ∉ trim (l.dropWhile (· ≠ '=')).tail := fun hc =>
        hhash (hsub.mem (mem_of_mem_trim hc))
      exact ⟨hhash', trim_eq_self_iff.mp (trim_trim _)⟩

/-- **What is read is in order**: its parameters and values are as a line can have them. -/
theorem paramOk_of_load {file : Option (List Char)} {nook : Bool} {m : Params}
    (h : load file nook = some m) : ∀ e ∈ m.entries, ParamOk e.1 ∧ ValueOk e.2 := by
  have hnil : ∀ e ∈ (OrderedMap.empty : Params).entries, ParamOk e.1 ∧ ValueOk e.2 := by
    intro e he
    cases he
  have hlines : ∀ (ls : List (List Char)), (∀ l ∈ ls, '\n' ∉ l) → ∀ m₀ : Params,
      (∀ e ∈ m₀.entries, ParamOk e.1 ∧ ValueOk e.2) → ls.foldlM loadLine m₀ = some m →
      ∀ e ∈ m.entries, ParamOk e.1 ∧ ValueOk e.2 := by
    intro ls
    induction ls with
    | nil =>
      intro _ m₀ h₀ hm
      obtain rfl : m₀ = m := Option.some.inj hm
      exact h₀
    | cons l ls ih =>
      intro hls m₀ h₀ hm
      rw [List.foldlM_cons] at hm
      obtain ⟨m₁, hm₁, hrest⟩ := Option.bind_eq_some_iff.mp hm
      refine ih (fun l' hl' => hls l' (List.mem_cons_of_mem _ hl')) m₁ ?_ hrest
      rcases loadLine_cases (hls l List.mem_cons_self) hm₁ with rfl | ⟨k, v, hk, hv, rfl⟩
      · exact h₀
      · exact OrderedMap.forall_insert h₀ hk hv
  cases file with
  | none =>
    cases nook with
    | false => cases h
    | true =>
      obtain rfl : OrderedMap.empty = m := Option.some.inj h
      exact hnil
  | some text => exact hlines _ (fun l hl => notMem_of_mem_getlines hl) _ hnil h

/-- A line that was written sets its parameter. -/
theorem loadLine_entry (m : Params) {k : List Char} (hk : ParamOk k) (v : List Char) :
    loadLine m (k ++ '=' :: v) = some (m.insert k (clean v)) := by
  obtain ⟨-, hhash, heq, htrim⟩ := hk
  have hcut : (k ++ '=' :: v).takeWhile (· ≠ '#') = k ++ '=' :: v.takeWhile (· ≠ '#') := by
    rw [List.takeWhile_append_of_pos fun c hc => by
      simpa using fun h : c = '#' => hhash (h ▸ hc)]
    simp
  have hpos : ∀ c ∈ k, decide (c ≠ '=') = true := fun c hc => by
    simpa using fun h : c = '=' => heq (h ▸ hc)
  have hall : (k ++ '=' :: v.takeWhile (· ≠ '#')).all (· ∈ [' ', '\t', '\r']) = false := by
    simp
  simp only [loadLine, hcut, hall]
  rw [List.takeWhile_append_of_pos hpos, List.dropWhile_append_of_pos hpos]
  simp [htrim, clean]

/-- **Reading what was written**: the values lose comments and blanks, and that is all, unless a
value contains an end of line. -/
theorem load_flush {m : Params} (h : ∀ e ∈ m.entries, ParamOk e.1 ∧ '\n' ∉ e.2) (nook : Bool) :
    load (some (flush m)) nook = some (m.mapVal clean) := by
  have hlines : ∀ (l : List (List Char × List Char)), (∀ e ∈ l, ParamOk e.1 ∧ '\n' ∉ e.2) →
      ∀ m₀ : Params,
        (getlines (l.flatMap fun e => e.1 ++ '=' :: (e.2 ++ ['\n']))).foldlM loadLine m₀ =
          some (m₀.insertAll (l.map fun e => (e.1, clean e.2))) := by
    intro l
    induction l with
    | nil => intro _ m₀; rfl
    | cons e l ih =>
      intro hl m₀
      obtain ⟨hk, hv⟩ := hl e List.mem_cons_self
      have hnl : '\n' ∉ e.1 ++ '=' :: e.2 := by simp [hk.1, hv]
      have hline : (e :: l).flatMap (fun e => e.1 ++ '=' :: (e.2 ++ ['\n'])) =
          (e.1 ++ '=' :: e.2) ++ '\n' :: l.flatMap fun e => e.1 ++ '=' :: (e.2 ++ ['\n']) := by
        simp
      rw [hline, getlines_append hnl, List.foldlM_cons, loadLine_entry m₀ hk]
      exact ih (fun e' he' => hl e' (List.mem_cons_of_mem _ he')) _
  have := hlines m.entries h .empty
  rw [load, flush, this]
  exact congrArg some (OrderedMap.insertAll_entries (m.mapVal clean))

/-- A computation that succeeds consists of two that do. -/
theorem bind_eq_ok_iff {ε α β : Type} {x : Except ε α} {f : α → Except ε β} {b : β} :
    (x >>= f) = .ok b ↔ ∃ a, x = .ok a ∧ f a = .ok b := by
  cases x with
  | error e => simp [bind, Except.bind]
  | ok a => simp [bind, Except.bind]

theorem ok_bind {ε α β : Type} (a : α) (f : α → Except ε β) : (Except.ok a >>= f) = f a := rfl

/-- The map has the entries that were written, without comments and blanks. -/
def Saved (writes : List (List Char × List Char)) (m : Params) : Prop :=
  ∀ e ∈ writes, ∀ k, CString.foldCase k = CString.foldCase e.1 → m.lookup k = some (clean e.2)

/-- **The parameters that are saved are found again**, without comments and blanks, whatever was in
the file before. -/
theorem exists_load_save {m : Params} (hm : ∀ e ∈ m.entries, ParamOk e.1 ∧ ValueOk e.2)
    {writes : List (List Char × List Char)} (hw : ∀ e ∈ writes, ParamOk e.1 ∧ '\n' ∉ e.2)
    (hnodup : (writes.map fun e => CString.foldCase e.1).Nodup) (nook : Bool) :
    ∃ m', load (some (flush (m.insertAll writes))) nook = some m' ∧ Saved writes m' := by
  refine ⟨(m.insertAll writes).mapVal clean, load_flush ?_ nook, fun e he k hk => ?_⟩
  · exact OrderedMap.forall_insertAll (Q := fun v => '\n' ∉ v) hw fun e he =>
      ⟨(hm e he).1, (hm e he).2.1⟩
  · rw [OrderedMap.lookup_mapVal, OrderedMap.lookup_insertAll hnodup he hk]
    rfl

/-- What is found in a file survives. -/
theorem valueOk_of_lookup {file : Option (List Char)} {nook : Bool} {m : Params}
    (h : load file nook = some m) {k v : List Char} (hv : m.lookup k = some v) : ValueOk v := by
  obtain ⟨e, he, rfl⟩ := OrderedMap.mem_of_lookup hv
  exact (paramOk_of_load h e he).2

/-- A text that is read from a file survives, as does the default. -/
theorem valueOk_readString {file : Option (List Char)} {nook : Bool} {m : Params}
    (h : load file nook = some m) (param : String) {defaultVal : List Char}
    (hdef : ValueOk defaultVal) : ValueOk (readString m param defaultVal).2 := by
  unfold readString
  cases hv : m.lookup param.toList with
  | none => exact hdef
  | some v => exact valueOk_of_lookup h hv

namespace Saved

variable {writes : List (List Char × List Char)} {m : Params} {key param : String}

theorem readString (h : Saved writes m) {v : String} (hw : writeString key v ∈ writes)
    (hk : CString.foldCase param.toList = CString.foldCase key.toList) (defaultVal : List Char) :
    ConfigFile.readString m param defaultVal = (0, clean v.toList) := by
  rw [ConfigFile.readString, h _ hw _ hk]
  rfl

theorem readNumber (h : Saved writes m) {α : Type} {scan : List Char → α × List Char}
    {t : List Char} (hw : (key.toList, t) ∈ writes)
    (hk : CString.foldCase param.toList = CString.foldCase key.toList) (ht : Plain t)
    (hscan : (scan t).2 = []) (defaultVal : α) :
    ConfigFile.readNumber scan m param defaultVal = (0, (scan t).1) := by
  have hlookup : m.lookup param.toList = some t := by rw [h _ hw _ hk, clean_eq_self_iff.mpr ht]
  simp [ConfigFile.readNumber, hlookup, hscan]

/-- What is saved is scanned without an error. -/
theorem scanRange (h : Saved writes m) {range : List Char → Bool} {t : List Char}
    (hw : (key.toList, t) ∈ writes)
    (hk : CString.foldCase param.toList = CString.foldCase key.toList) (ht : Plain t)
    (hrange : range t = false) : ConfigFile.scanRange range m param = false := by
  have hlookup : m.lookup param.toList = some t := by rw [h _ hw _ hk, clean_eq_self_iff.mpr ht]
  rw [ConfigFile.scanRange, hlookup, Option.any_some, hrange]

theorem readTime (h : Saved writes m) {z : ℤ} (hw : writeInt key z ∈ writes)
    (hk : CString.foldCase param.toList = CString.foldCase key.toList) (hlow : -2 ^ 63 ≤ z)
    (hhigh : z < 2 ^ 63) (defaultVal : Time) :
    ConfigFile.readTime m param defaultVal = (0, z) := by
  have hscan := CString.strtol_printInt hlow hhigh
  rw [ConfigFile.readTime, h.readNumber hw hk (plain_printInt z).2 (by rw [hscan]), hscan]

theorem readInt (h : Saved writes m) {z : ℤ} (hw : writeInt key z ∈ writes)
    (hk : CString.foldCase param.toList = CString.foldCase key.toList) (hlow : -2 ^ 31 ≤ z)
    (hhigh : z < 2 ^ 31) (defaultVal : BitVec 32) :
    ConfigFile.readInt m param defaultVal = (0, BitVec.ofInt 32 z) := by
  have hscan := CString.strtol_printInt (z := z) (by omega) (by omega)
  rw [ConfigFile.readInt, h.readNumber hw hk (plain_printInt z).2 (by rw [hscan]), hscan]

theorem readUShortInt (h : Saved writes m) {n : ℕ} (hw : writeInt key n ∈ writes)
    (hk : CString.foldCase param.toList = CString.foldCase key.toList) (hn : n < 2 ^ 16)
    (defaultVal : BitVec 16) :
    ConfigFile.readUShortInt m param defaultVal = (0, BitVec.ofNat 16 n) := by
  have hscan := CString.strtoul_printInt (n := n) (by omega)
  rw [ConfigFile.readUShortInt, h.readNumber hw hk (plain_printInt n).2 (by rw [hscan]), hscan]
  simp

theorem readULongLongInt (h : Saved writes m) {x : BitVec 64} (hw : writeInt key x.toInt ∈ writes)
    (hk : CString.foldCase param.toList = CString.foldCase key.toList) (defaultVal : BitVec 64) :
    ConfigFile.readULongLongInt m param defaultVal = (0, x) := by
  have hlow := x.le_toInt
  have hhigh := x.toInt_lt
  have hscan := CString.strtoul_printInt_of_natAbs (z := x.toInt) (by omega)
  rw [BitVec.ofInt_toInt] at hscan
  rw [ConfigFile.readULongLongInt, h.readNumber hw hk (plain_printInt _).2 (by rw [hscan]), hscan]

theorem readDouble (h : Saved writes m) (lib : CDouble) {x : Money}
    (hw : writeDouble lib key x ∈ writes)
    (hk : CString.foldCase param.toList = CString.foldCase key.toList) (defaultVal : Money) :
    ConfigFile.readDouble lib m param defaultVal = (0, (lib.strtod (lib.print x)).1) := by
  have hcut : CString.cut (lib.print x) = lib.print x :=
    CString.cut_eq_self fun hc => lib.print_plain x _ hc (by simp)
  rw [ConfigFile.readDouble, h.readNumber hw hk (plain_print lib x).2
    (by rw [hcut, lib.strtod_print]), hcut]

end Saved

end ConfigFile

end Stargazer
