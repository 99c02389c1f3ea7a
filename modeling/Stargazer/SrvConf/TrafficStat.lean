import Mathlib.Data.List.Find
import Stargazer.SrvConf.GetUser

set_option relaxedAutoImplicit false
set_option autoImplicit false

/-!
# The traffic of a user

`getValue<GetUser::Stat>` of `libs/srvconf/parsers/get_user.cpp`: the client's reading of the attributes
of `traff`, a list of names and values with a null pointer behind it.  The loop goes one place on for
a name, and one more for the value of a name it knows.  The value of a name it does not know is the
next name, therefore; the server, which reads the same attributes in `parser_users.cpp`, goes on in
steps of two.

## Main definitions

* `Stargazer.GetUser.Stat`, `Stargazer.GetUser.Counter` — the counters.
* `Stargazer.GetUser.getValueStat` — the function of the source, with the places it has looked at.
* `Stargazer.GetUser.Outcome.Right` — what should be left in the counters.
* `Stargazer.GetUser.Outcome.InPairs` — names and values are also looked at as such.

## Main results

* `Stargazer.GetUser.readStat_of_aligned`, `Stargazer.GetUser.aligned_of_conversions` — when the
  conversions are those of the attributes.
* `Stargazer.GetUser.parseStat_eq`, `Stargazer.GetUser.Holds.readStat` — the parser of a user reads
  the same.
* `Stargazer.GetUser.stat_read_iff` — when the counters are read correctly.
-/

namespace Stargazer

namespace GetUser

/-! ## The counters -/

/-- A counter. -/
inductive Counter
  | su (i : Dir) | sd (i : Dir) | mu (i : Dir) | md (i : Dir)
  deriving DecidableEq

/-- `GetUser::Stat`. -/
structure Stat where
  su : DirTraff
  sd : DirTraff
  mu : DirTraff
  md : DirTraff

namespace Stat

def get (st : Stat) : Counter → BitVec 64
  | .su i => st.su i
  | .sd i => st.sd i
  | .mu i => st.mu i
  | .md i => st.md i

def set (st : Stat) (x : BitVec 64) : Counter → Stat
  | .su i => { st with su := Function.update st.su i x }
  | .sd i => { st with sd := Function.update st.sd i x }
  | .mu i => { st with mu := Function.update st.mu i x }
  | .md i => { st with md := Function.update st.md i x }

@[simp]
theorem get_set_self (st : Stat) (x : BitVec 64) (c : Counter) : (st.set x c).get c = x := by
  cases c <;> exact Function.update_self _ _ _

theorem get_set_of_ne (st : Stat) (x : BitVec 64) {c d : Counter} (h : d ≠ c) :
    (st.set x c).get d = st.get d := by
  cases c <;> cases d <;> first | rfl | exact Function.update_of_ne (fun hi => h (by rw [hi])) _ _

end Stat

/-- The name of a counter. -/
def Counter.name : Counter → List Char
  | .su i => "su".toList ++ Nat.toDigits 10 i
  | .sd i => "sd".toList ++ Nat.toDigits 10 i
  | .mu i => "mu".toList ++ Nat.toDigits 10 i
  | .md i => "md".toList ++ Nat.toDigits 10 i

/-- The counters in the order in which they come into `props`. -/
def props : List Counter := (List.finRange dirNum).flatMap fun i => [.su i, .sd i, .mu i, .md i]

/-- `ToLower`. -/
def toLower (s : List Char) : List Char := s.map Char.toLower

/-- The search in `props`. -/
def findProp (name : List Char) : Option Counter := props.find? fun c => c.name = toLower name

/-! ## The function of the source -/

/-- The template `str2x` for `long long`: what is left in its argument, and whether the text is a
number. -/
def str2xInto (x : BitVec 64) (str : List Char) : BitVec 64 × Bool :=
  ((str2xStored 64 str).1.getD x, (str2xStored 64 str).2)

/-- A conversion: where the text of the number stands, the counter it goes to, and the text. -/
structure Conversion where
  pos : ℕ
  counter : Counter
  text : Xml.Text
  deriving DecidableEq

/-- What `getValue<GetUser::Stat>` returns and leaves in its argument, with the places at which it has
looked for names and the numbers it has converted. -/
structure Outcome where
  result : Bool
  stat : Stat
  names : List ℕ := []
  conversions : List Conversion := []

/-- The loop, from a position on: the texts are those in front of the null pointer.  There is no
outcome where the null pointer itself is taken for a text. -/
def readStat : ℕ → Stat → List Xml.Text → Option Outcome
  | _, st, [] => some { result := true, stat := st }
  | pos, st, name :: rest =>
    match findProp name with
    | none => (readStat (pos + 1) st rest).map fun r => { r with names := pos :: r.names }
    | some c =>
      match rest with
      | [] => none
      | text :: rest =>
        match str2xInto (st.get c) text with
        | (x, true) =>
          (readStat (pos + 2) (st.set x c) rest).map fun r =>
            { r with names := pos :: r.names, conversions := ⟨pos + 1, c, text⟩ :: r.conversions }
        | (x, false) =>
          some
            { result := false
              stat := st.set x c
              names := [pos]
              conversions := [⟨pos + 1, c, text⟩] }

/-- `getValue<GetUser::Stat>`. -/
def getValueStat (attr : Option (List Xml.Text)) (st : Stat) : Option Outcome :=
  match attr with
  | none => some { result := false, stat := st }
  | some attr => readStat 0 st attr

/-- Attributes as the parser gets them. -/
def attrTexts (attrs : List Xml.Attr) : List Xml.Text := attrs.flatMap fun a => [a.name, a.value]

/-! ## What a call should do -/

/-- An attribute of a counter whose value is not a number. -/
def Malformed (a : Xml.Attr) : Prop := (findProp a.name).isSome ∧ ¬ CString.IsNumeral a.value

instance : DecidablePred Malformed := fun _ => inferInstanceAs (Decidable (_ ∧ _))

/-- The attributes that count: those up to the first malformed one. -/
def reached : List Xml.Attr → List Xml.Attr
  | [] => []
  | a :: attrs => a :: if Malformed a then [] else reached attrs

/-- The conversions that are asked for, with the first pair at a place. -/
def wanted (k : ℕ) (attrs : List Xml.Attr) : List Conversion :=
  ((reached attrs).zipIdx k).filterMap fun a =>
    (findProp a.1.name).map fun c => ⟨2 * a.2 + 1, c, a.1.value⟩

/-- The values of a counter. -/
def own (c : Counter) (attrs : List Xml.Attr) : List Xml.Text :=
  ((reached attrs).filter fun a => findProp a.name = some c).map Xml.Attr.value

/-- **What should be left**: the values of the counters are converted, and nothing else; that goes
well if they are numbers; a counter without a value keeps what it had, the others have the last one. -/
structure Outcome.Right (r : Outcome) (attrs : List Xml.Attr) (st : Stat) : Prop where
  conversions : r.conversions = wanted 0 attrs
  result : r.result = true ↔ ∀ a ∈ attrs, (findProp a.name).isSome → CString.IsNumeral a.value
  untouched : ∀ c, own c attrs = [] → r.stat.get c = st.get c
  stored : ∀ c, ∀ s ∈ (own c attrs).getLast?, ∀ z, CString.Whole s z → (r.stat.get c).toInt = z

/-- **Pairs**: it is only the names of the attributes that are looked for, too. -/
structure Outcome.InPairs (r : Outcome) (attrs : List Xml.Attr) (st : Stat) : Prop
    extends r.Right attrs st where
  names : r.names = (List.range (reached attrs).length).map (2 * ·)

/-- The null pointer is not passed, and the counters have what they should have. -/
def StoredAlike (attrs : List Xml.Attr) (st : Stat) : Prop :=
  ∃ r ∈ getValueStat (some (attrTexts attrs)) st, r.Right attrs st

/-- The null pointer is not passed, names and values are read in pairs, and the counters have what
they should have. -/
def ReadInPairs (attrs : List Xml.Attr) (st : Stat) : Prop :=
  ∃ r ∈ getValueStat (some (attrTexts attrs)) st, r.InPairs attrs st

/-- All names are those of counters. -/
def Known (attrs : List Xml.Attr) : Prop := ∀ a ∈ reached attrs, (findProp a.name).isSome

/-- The value of an unknown name is not itself the name of a counter. -/
def Aligned (attrs : List Xml.Attr) : Prop :=
  ∀ a ∈ reached attrs, findProp a.name = none → findProp a.value = none

/-- The last value of a counter is a number of `long long`, if it is a number. -/
def InRange (attrs : List Xml.Attr) : Prop :=
  ∀ c, ∀ s ∈ (own c attrs).getLast?, ∀ z, CString.Whole s z → IsTime z

/-! ## Names -/

theorem mem_props (c : Counter) : c ∈ props := by
  cases c <;> simp [props]

/-- Every counter has its own name. -/
theorem name_injective : Function.Injective Counter.name := by
  have hall : ∀ c ∈ props, ∀ d ∈ props, c.name = d.name → c = d := by decide +kernel
  intro c d h
  exact hall c (mem_props c) d (mem_props d) h

/-- **The search finds the counter of a name.** -/
theorem findProp_eq_some_iff {name : List Char} {c : Counter} :
    findProp name = some c ↔ c.name = toLower name := by
  constructor
  · intro h
    simpa using List.find?_some h
  · intro h
    cases hfind : findProp name with
    | none =>
      have hnone := List.find?_eq_none.mp hfind c (mem_props c)
      exact absurd h (by simpa using hnone)
    | some d =>
      have hd : d.name = toLower name := by simpa using List.find?_some hfind
      rw [name_injective (h.trans hd.symm)]

/-! ## Numbers -/

/-- A conversion goes well if there is a number. -/
theorem str2xInto_snd (x : BitVec 64) (s : List Char) :
    (str2xInto x s).2 = true ↔ CString.IsNumeral s := str2xStored_snd 64 s

/-- A number is stored, with wrap-around. -/
theorem str2xInto_fst (x : BitVec 64) {s : List Char} {z : ℤ} (h : CString.Whole s z) :
    (str2xInto x s).1 = BitVec.ofInt 64 z := by
  rw [str2xInto, str2xStored_of_whole 64 h]
  rfl

/-! ## The loop -/

section Loop

variable {pos : ℕ} {st : Stat} {name text : Xml.Text} {rest : List Xml.Text} {c : Counter}

-- the equations are derived here, once, for all the lemmas below
attribute [local simp] readStat in
theorem readStat_unknown (h : findProp name = none) :
    readStat pos st (name :: rest) =
      (readStat (pos + 1) st rest).map fun r => { r with names := pos :: r.names } := by
  simp only [readStat, h]

theorem readStat_null (h : findProp name = some c) : readStat pos st [name] = none := by
  simp only [readStat, h]

theorem readStat_numeral (h : findProp name = some c) (htext : CString.IsNumeral text) :
    readStat pos st (name :: text :: rest) =
      (readStat (pos + 2) (st.set (str2xInto (st.get c) text).1 c) rest).map fun r =>
        { r with names := pos :: r.names, conversions := ⟨pos + 1, c, text⟩ :: r.conversions } := by
  have hx : str2xInto (st.get c) text = ((str2xInto (st.get c) text).1, true) :=
    Prod.ext rfl ((str2xInto_snd _ _).mpr htext)
  simp only [readStat, h]
  rw [hx]

theorem readStat_malformed (h : findProp name = some c) (htext : ¬ CString.IsNumeral text) :
    readStat pos st (name :: text :: rest) =
      some
        { result := false
          stat := st.set (str2xInto (st.get c) text).1 c
          names := [pos]
          conversions := [⟨pos + 1, c, text⟩] } := by
  have hx : str2xInto (st.get c) text = ((str2xInto (st.get c) text).1, false) :=
    Prod.ext rfl (Bool.eq_false_iff.mpr fun hnum => htext ((str2xInto_snd _ _).mp hnum))
  simp only [readStat, h]
  rw [hx]

end Loop

/-- A conversion into its counter. -/
def Stat.store (st : Stat) (e : Conversion) : Stat :=
  st.set (str2xInto (st.get e.counter) e.text).1 e.counter

/-- **What a call does** is done by its conversions. -/
theorem readStat_eq_some {pos : ℕ} {st : Stat} {l : List Xml.Text} {r : Outcome}
    (h : readStat pos st l = some r) :
    r.stat = r.conversions.foldl Stat.store st ∧
      (r.result = true ↔ ∀ e ∈ r.conversions, CString.IsNumeral e.text) := by
  induction pos, st, l using readStat.induct generalizing r with
  | case1 pos st =>
    obtain rfl := Option.some.inj h
    exact ⟨rfl, iff_of_true rfl fun e he => absurd he List.not_mem_nil⟩
  | case2 pos st name rest hname ih =>
    rw [readStat_unknown hname] at h
    obtain ⟨r, hr, rfl⟩ := Option.map_eq_some_iff.mp h
    obtain ⟨hstat, hresult⟩ := ih hr
    exact ⟨hstat, hresult⟩
  | case3 pos st name c hname =>
    rw [readStat_null hname] at h
    cases h
  | case4 pos st name c hname text rest x hx ih =>
    have htext : CString.IsNumeral text := (str2xInto_snd (st.get c) _).mp (congrArg Prod.snd hx)
    rw [readStat_numeral hname htext, hx] at h
    obtain ⟨r, hr, rfl⟩ := Option.map_eq_some_iff.mp h
    obtain ⟨hstat, hresult⟩ := ih hr
    constructor
    · rw [List.foldl_cons, Stat.store, hx]
      exact hstat
    · rw [List.forall_mem_cons]
      exact hresult.trans (and_iff_right htext).symm
  | case5 pos st name c hname text rest x hx =>
    have htext : ¬ CString.IsNumeral text := fun h =>
      Bool.false_ne_true ((congrArg Prod.snd hx).symm.trans ((str2xInto_snd (st.get c) _).mpr h))
    rw [readStat_malformed hname htext] at h
    obtain rfl := Option.some.inj h
    refine ⟨rfl, iff_of_false Bool.false_ne_true fun hall => htext ?_⟩
    exact hall _ List.mem_cons_self

/-! ## The counters of a user -/

/-- The field of a counter. -/
def Counter.slot : Counter → Slot
  | .su i => .su i
  | .sd i => .sd i
  | .mu i => .mu i
  | .md i => .md i

theorem slot_injective : Function.Injective Counter.slot := by
  intro c d h
  cases c <;> cases d <;> cases h <;> rfl

/-- The field a conversion sets. -/
def Conversion.writes (e : Conversion) : List (Slot × Value) :=
  (str2xStored 64 e.text).1.toList.map fun x => (e.counter.slot, .number x.toInt)

/-- A call for `Parsed`. -/
def Outcome.parsed (r : Outcome) : Parsed :=
  { writes := r.conversions.flatMap Conversion.writes, fails := !r.result }

/-- The counters by their names. -/
theorem counters_eq : counters = props.map fun c => (String.ofList c.name, c.slot) := by
  decide +kernel

theorem find_counters {name : Xml.Text} (h : '\x00' ∉ name) :
    (counters.find? fun c => caseEq name c.1) =
      (findProp name).map fun c => (String.ofList c.name, c.slot) := by
  have hlower : ∀ c ∈ props, CString.foldCase c.name = c.name.map Char.toNat := by decide +kernel
  have hcase : ∀ c ∈ props, caseEq name (String.ofList c.name) = decide (c.name = toLower name) := by
    intro c hc
    rw [caseEq, String.toList_ofList, hlower c hc, CString.foldCase, CString.cut_eq_self h,
      decide_eq_decide, toLower]
    have hnat : name.map (fun d => d.toLower.toNat) = (name.map Char.toLower).map Char.toNat := by
      rw [List.map_map]
      rfl
    rw [hnat, (List.map_injective_iff.mpr fun _ _ => Char.toNat_inj.mp).eq_iff]
    exact eq_comm
  rw [counters_eq, List.find?_map, findProp]
  congr 1
  exact List.find?_congr hcase

section ParseStat

variable {name text : Xml.Text} {rest : List Xml.Text} {c : String × Slot}

theorem parseStat_unknown (h : (counters.find? fun c => caseEq name c.1) = none) :
    parseStat (name :: rest) = parseStat rest := by
  rw [parseStat.eq_def]
  simp only [h]

theorem parseStat_null (h : (counters.find? fun c => caseEq name c.1) = some c) :
    parseStat [name] = none := by
  rw [parseStat.eq_def]
  simp only [h]

theorem parseStat_known (h : (counters.find? fun c => caseEq name c.1) = some c) :
    parseStat (name :: text :: rest) =
      if (str2xStored 64 text).2 = true then
        (parseStat rest).map fun r =>
          { r with
            writes := ((str2xStored 64 text).1.toList.map fun x => (c.2, Value.number x.toInt)) ++ r.writes }
      else
        some
          { writes := (str2xStored 64 text).1.toList.map fun x => (c.2, Value.number x.toInt)
            fails := true } := by
  rw [parseStat.eq_def]
  simp only [h]

end ParseStat

/-- **The parser of a user** reads the counters with this function. -/
theorem parseStat_eq {l : List Xml.Text} (h : ∀ s ∈ l, '\x00' ∉ s) (pos : ℕ) (st : Stat) :
    parseStat l = (readStat pos st l).map Outcome.parsed := by
  induction pos, st, l using readStat.induct with
  | case1 pos st => rfl
  | case2 pos st name rest hname ih =>
    obtain ⟨hnul, hrest⟩ := List.forall_mem_cons.mp h
    have hfind := find_counters hnul
    rw [hname] at hfind
    rw [readStat_unknown hname, Option.map_map, parseStat_unknown hfind]
    exact ih hrest
  | case3 pos st name c hname =>
    have hfind := find_counters (h name List.mem_cons_self)
    rw [hname] at hfind
    rw [readStat_null hname, parseStat_null hfind]
    rfl
  | case4 pos st name c hname text rest x hx ih =>
    obtain ⟨hnul, hrest⟩ := List.forall_mem_cons.mp h
    have hfind := find_counters hnul
    rw [hname] at hfind
    have hnumber : (str2xStored 64 text).2 = true := congrArg Prod.snd hx
    have htext : CString.IsNumeral text := (str2xInto_snd (st.get c) _).mp (congrArg Prod.snd hx)
    rw [readStat_numeral hname htext, hx, parseStat_known hfind, if_pos hnumber,
      ih (List.forall_mem_cons.mp hrest).2, Option.map_map, Option.map_map]
    rfl
  | case5 pos st name c hname text rest x hx =>
    have hfind := find_counters (h name List.mem_cons_self)
    rw [hname] at hfind
    have hnumber : ¬ (str2xStored 64 text).2 = true := Bool.eq_false_iff.mp (congrArg Prod.snd hx)
    have htext : ¬ CString.IsNumeral text := fun htext =>
      Bool.false_ne_true ((congrArg Prod.snd hx).symm.trans ((str2xInto_snd (st.get c) _).mpr htext))
    rw [readStat_malformed hname htext, parseStat_known hfind, if_neg hnumber]
    simp [Outcome.parsed, Conversion.writes]

/-- The fields of a user hold the counters. -/
def Holds (slots : Slot → Value) (st : Stat) : Prop :=
  ∀ c : Counter, slots c.slot = .number (st.get c).toInt

theorem Holds.store {i : Info} {st : Stat} (h : Holds i.slot st) (e : Conversion) :
    Holds (i.write e.writes).slot (st.store e) := by
  intro c
  rw [slot_write, Conversion.writes, Stat.store, str2xInto]
  cases (str2xStored 64 e.text).1 with
  | none =>
    by_cases hc : c = e.counter
    · subst hc
      simpa [lastWrite] using h e.counter
    · rw [Stat.get_set_of_ne _ _ hc]
      exact h c
  | some x =>
    by_cases hc : c = e.counter
    · subst hc
      simp [lastWrite]
    · have hne : ¬ e.counter.slot = c.slot := fun hslot => hc (slot_injective hslot.symm)
      rw [Stat.get_set_of_ne _ _ hc]
      simpa [lastWrite, hne] using h c

/-- **The fields of a user hold what the call leaves.** -/
theorem Holds.readStat {i : Info} {pos : ℕ} {st : Stat} {l : List Xml.Text} {r : Outcome}
    (h : Holds i.slot st) (hr : readStat pos st l = some r) :
    Holds (i.write r.parsed.writes).slot r.stat := by
  rw [(readStat_eq_some hr).1]
  show Holds (i.write (r.conversions.flatMap Conversion.writes)).slot _
  clear hr
  generalize r.conversions = es
  induction es generalizing i st with
  | nil => exact h
  | cons e es ih =>
    rw [List.flatMap_cons, write_append]
    exact ih (h.store e)

/-! ## The attributes that count -/

section Reached

variable {a : Xml.Attr} {attrs : List Xml.Attr} {c : Counter} {k : ℕ}

theorem reached_of_malformed (h : Malformed a) : reached (a :: attrs) = [a] := by
  rw [reached, if_pos h]

theorem reached_of_not_malformed (h : ¬ Malformed a) : reached (a :: attrs) = a :: reached attrs := by
  rw [reached, if_neg h]

/-- An attribute has an unknown name, or is one of a counter, with a number or not. -/
theorem attr_cases (a : Xml.Attr) :
    findProp a.name = none ∨ ∃ c, findProp a.name = some c ∧
      (CString.IsNumeral a.value ∨ ¬ CString.IsNumeral a.value) := by
  cases findProp a.name with
  | none => exact .inl rfl
  | some c => exact .inr ⟨c, rfl, em _⟩

theorem not_malformed_of_unknown (h : findProp a.name = none) : ¬ Malformed a := by
  rintro ⟨hsome, -⟩
  rw [h] at hsome
  cases hsome

theorem not_malformed_of_numeral (h : CString.IsNumeral a.value) : ¬ Malformed a :=
  fun hmal => hmal.2 h

theorem malformed_of_some (h : findProp a.name = some c) (hvalue : ¬ CString.IsNumeral a.value) :
    Malformed a :=
  ⟨by rw [h]; rfl, hvalue⟩

/-- If nothing is malformed, everything counts. -/
theorem forall_reached_iff :
    (∀ a ∈ reached attrs, ¬ Malformed a) ↔ ∀ a ∈ attrs, ¬ Malformed a := by
  induction attrs with
  | nil => exact Iff.rfl
  | cons a attrs ih =>
    by_cases ha : Malformed a
    · rw [reached_of_malformed ha]
      exact iff_of_false (fun h => h a List.mem_cons_self ha) fun h => h a List.mem_cons_self ha
    · rw [reached_of_not_malformed ha, List.forall_mem_cons, List.forall_mem_cons, ih]

theorem wanted_of_unknown (h : findProp a.name = none) :
    wanted k (a :: attrs) = wanted (k + 1) attrs := by
  rw [wanted, reached_of_not_malformed (not_malformed_of_unknown h), List.zipIdx_cons,
    List.filterMap_cons_none (by rw [h]; rfl), wanted]

theorem wanted_of_numeral (h : findProp a.name = some c) (hvalue : CString.IsNumeral a.value) :
    wanted k (a :: attrs) = ⟨2 * k + 1, c, a.value⟩ :: wanted (k + 1) attrs := by
  rw [wanted, reached_of_not_malformed (not_malformed_of_numeral hvalue), List.zipIdx_cons,
    List.filterMap_cons_some (by rw [h]; rfl), wanted]

theorem wanted_of_malformed (h : findProp a.name = some c) (hvalue : ¬ CString.IsNumeral a.value) :
    wanted k (a :: attrs) = [⟨2 * k + 1, c, a.value⟩] := by
  rw [wanted, reached_of_malformed (malformed_of_some h hvalue), List.zipIdx_cons,
    List.filterMap_cons_some (by rw [h]; rfl), List.zipIdx_nil, List.filterMap_nil]

theorem le_pos_of_mem_wanted {e : Conversion} (he : e ∈ wanted k attrs) : 2 * k + 1 ≤ e.pos := by
  obtain ⟨⟨a, i⟩, hmem, ha⟩ := List.mem_filterMap.mp he
  obtain ⟨c, -, rfl⟩ := Option.map_eq_some_iff.mp ha
  have hi : k ≤ i := List.le_snd_of_mem_zipIdx hmem
  show 2 * k + 1 ≤ 2 * i + 1
  omega

/-- The conversions for a counter are those of its own values. -/
theorem map_text_wanted (c : Counter) (k : ℕ) (attrs : List Xml.Attr) :
    ((wanted k attrs).filter fun e => e.counter = c).map Conversion.text = own c attrs := by
  unfold wanted own
  induction reached attrs generalizing k with
  | nil => rfl
  | cons a l ih =>
    rw [List.zipIdx_cons]
    cases ha : findProp a.name with
    | none => simpa [ha] using ih (k + 1)
    | some d =>
      by_cases hd : d = c
      · simpa [ha, hd] using ih (k + 1)
      · simpa [ha, hd] using ih (k + 1)

/-- The conversions go well if all values are numbers. -/
theorem forall_wanted_iff (k : ℕ) (attrs : List Xml.Attr) :
    (∀ e ∈ wanted k attrs, CString.IsNumeral e.text) ↔
      ∀ a ∈ attrs, (findProp a.name).isSome → CString.IsNumeral a.value := by
  have hmal : ∀ a : Xml.Attr,
      ¬ Malformed a ↔ ((findProp a.name).isSome → CString.IsNumeral a.value) := fun a => by
    rw [Malformed, not_and, not_not]
  simp only [← hmal]
  rw [← forall_reached_iff, wanted]
  constructor
  · intro h a ha hbad
    obtain ⟨c, hc⟩ := Option.isSome_iff_exists.mp hbad.1
    obtain ⟨i, hi⟩ : ∃ i, (a, i) ∈ (reached attrs).zipIdx k := by
      rw [← List.zipIdx_map_fst k (reached attrs)] at ha
      obtain ⟨⟨b, i⟩, hb, rfl⟩ := List.mem_map.mp ha
      exact ⟨i, hb⟩
    exact hbad.2 (h ⟨2 * i + 1, c, a.value⟩ (List.mem_filterMap.mpr ⟨_, hi, by rw [hc]; rfl⟩))
  · intro h e he
    obtain ⟨⟨a, i⟩, hi, ha⟩ := List.mem_filterMap.mp he
    obtain ⟨c, hc, rfl⟩ := Option.map_eq_some_iff.mp ha
    by_contra hvalue
    exact h a (List.fst_mem_of_mem_zipIdx hi) (malformed_of_some hc hvalue)

end Reached

/-! ## Conversions and attributes -/

/-- The places at which an aligned call looks for names: the values of unknown names are among
them. -/
def visited (k : ℕ) (attrs : List Xml.Attr) : List ℕ :=
  ((reached attrs).zipIdx k).flatMap fun a =>
    if findProp a.1.name = none then [2 * a.2, 2 * a.2 + 1] else [2 * a.2]

theorem attrTexts_cons (a : Xml.Attr) (attrs : List Xml.Attr) :
    attrTexts (a :: attrs) = a.name :: a.value :: attrTexts attrs := rfl

/-- Two texts that are no names of counters are passed over. -/
theorem readStat_pair {k : ℕ} {st : Stat} {a : Xml.Attr} {attrs : List Xml.Attr}
    (hname : findProp a.name = none) (hvalue : findProp a.value = none) :
    readStat (2 * k) st (attrTexts (a :: attrs)) =
      (readStat (2 * (k + 1)) st (attrTexts attrs)).map fun r =>
        { r with names := 2 * k :: (2 * k + 1) :: r.names } := by
  rw [attrTexts_cons, readStat_unknown hname, readStat_unknown hvalue, Option.map_map]
  rfl

/-- **Aligned attributes** are converted as they should be. -/
theorem readStat_of_aligned {attrs : List Xml.Attr} (h : Aligned attrs) (k : ℕ) (st : Stat) :
    ∃ r, readStat (2 * k) st (attrTexts attrs) = some r ∧ r.conversions = wanted k attrs ∧
      r.names = visited k attrs := by
  induction attrs generalizing k st with
  | nil => exact ⟨_, rfl, rfl, rfl⟩
  | cons a attrs ih =>
    have hrest : ¬ Malformed a → Aligned attrs := by
      intro ha b hb
      rw [Aligned, reached_of_not_malformed ha] at h
      exact h b (List.mem_cons_of_mem _ hb)
    rcases attr_cases a with hname | ⟨c, hname, hvalue | hvalue⟩
    · have ha := not_malformed_of_unknown hname
      have hvalue : findProp a.value = none := by
        rw [Aligned, reached_of_not_malformed ha] at h
        exact h a List.mem_cons_self hname
      obtain ⟨r, hr, hconv, hnames⟩ := ih (hrest ha) (k + 1) st
      refine ⟨_, by rw [readStat_pair hname hvalue, hr]; rfl, ?_, ?_⟩
      · rw [wanted_of_unknown hname]
        exact hconv
      · rw [visited, reached_of_not_malformed ha, List.zipIdx_cons, List.flatMap_cons, if_pos hname,
          ← visited, ← hnames]
        rfl
    · have ha := not_malformed_of_numeral hvalue
      obtain ⟨r, hr, hconv, hnames⟩ :=
        ih (hrest ha) (k + 1) (st.set (str2xInto (st.get c) a.value).1 c)
      have hne : findProp a.name ≠ none := by simp [hname]
      refine ⟨_, by rw [attrTexts_cons, readStat_numeral hname hvalue]; exact congrArg _ hr, ?_, ?_⟩
      · rw [wanted_of_numeral hname hvalue, ← hconv]
      · rw [visited, reached_of_not_malformed ha, List.zipIdx_cons, List.flatMap_cons, if_neg hne,
          ← visited, ← hnames]
        rfl
    · have hne : findProp a.name ≠ none := by simp [hname]
      refine ⟨_, readStat_malformed hname hvalue, ?_, ?_⟩
      · rw [wanted_of_malformed hname hvalue]
      · rw [visited, reached_of_malformed (malformed_of_some hname hvalue), List.zipIdx_cons,
          List.flatMap_cons, if_neg hne]
        rfl

/-- **Other attributes are not**: behind the value of an unknown name that is the name of a counter, a
name is converted. -/
theorem aligned_of_conversions {attrs : List Xml.Attr} {k : ℕ} {st : Stat} {r : Outcome}
    (h : readStat (2 * k) st (attrTexts attrs) = some r) (hconv : r.conversions = wanted k attrs) :
    Aligned attrs := by
  induction attrs generalizing k st r with
  | nil => exact fun a ha => absurd ha List.not_mem_nil
  | cons a attrs ih =>
    rcases attr_cases a with hname | ⟨c, hname, hvalue | hvalue⟩
    · rw [Aligned, reached_of_not_malformed (not_malformed_of_unknown hname), List.forall_mem_cons]
      rw [wanted_of_unknown hname] at hconv
      cases hvalue : findProp a.value with
      | none =>
        rw [readStat_pair hname hvalue] at h
        obtain ⟨r, hr, rfl⟩ := Option.map_eq_some_iff.mp h
        exact ⟨fun _ => rfl, ih hr hconv⟩
      | some c =>
        exfalso
        rw [attrTexts_cons, readStat_unknown hname] at h
        obtain ⟨r, hr, rfl⟩ := Option.map_eq_some_iff.mp h
        cases attrs with
        | nil =>
          rw [attrTexts, List.flatMap_nil, readStat_null hvalue] at hr
          cases hr
        | cons b attrs =>
          have hbad : (⟨2 * k + 2, c, b.name⟩ : Conversion) ∈ r.conversions := by
            rw [attrTexts_cons] at hr
            by_cases hb : CString.IsNumeral b.name
            · rw [readStat_numeral hvalue hb] at hr
              obtain ⟨r, -, rfl⟩ := Option.map_eq_some_iff.mp hr
              exact List.mem_cons_self
            · rw [readStat_malformed hvalue hb] at hr
              obtain rfl := Option.some.inj hr
              exact List.mem_cons_self
          have hle := le_pos_of_mem_wanted (hconv ▸ hbad)
          dsimp only at hle
          omega
    · rw [Aligned, reached_of_not_malformed (not_malformed_of_numeral hvalue), List.forall_mem_cons]
      rw [attrTexts_cons, readStat_numeral hname hvalue] at h
      obtain ⟨r, hr, rfl⟩ := Option.map_eq_some_iff.mp h
      rw [wanted_of_numeral hname hvalue] at hconv
      refine ⟨fun hnone => ?_, ih (k := k + 1) hr (List.cons.inj hconv).2⟩
      rw [hname] at hnone
      cases hnone
    · rw [Aligned, reached_of_malformed (malformed_of_some hname hvalue)]
      intro b hb hnone
      obtain rfl := List.mem_singleton.mp hb
      rw [hname] at hnone
      cases hnone

/-- **Only names of counters**: then it is only names that are looked for. -/
theorem visited_eq_iff (attrs : List Xml.Attr) :
    visited 0 attrs = (List.range (reached attrs).length).map (2 * ·) ↔ Known attrs := by
  constructor
  · intro h a ha
    by_contra hname
    have hname : findProp a.name = none := by simpa using hname
    obtain ⟨i, hi⟩ : ∃ i, (a, i) ∈ (reached attrs).zipIdx 0 := by
      rw [← List.zipIdx_map_fst 0 (reached attrs)] at ha
      obtain ⟨⟨b, i⟩, hb, rfl⟩ := List.mem_map.mp ha
      exact ⟨i, hb⟩
    have hodd : 2 * i + 1 ∈ visited 0 attrs := by
      refine List.mem_flatMap.mpr ⟨(a, i), hi, ?_⟩
      rw [if_pos hname]
      exact List.mem_cons_of_mem _ List.mem_cons_self
    rw [h] at hodd
    obtain ⟨j, -, hj⟩ := List.mem_map.mp hodd
    omega
  · intro h
    have hmap : visited 0 attrs = ((reached attrs).zipIdx 0).flatMap fun a => [2 * a.2] := by
      apply List.flatMap_congr
      intro a ha
      have hsome := h a.1 (List.fst_mem_of_mem_zipIdx ha)
      exact if_neg fun hnone => by rw [hnone] at hsome; cases hsome
    rw [hmap, List.range_eq_range', ← List.zipIdx_map_snd 0 (reached attrs), List.map_map,
      List.map_eq_flatMap]
    rfl

/-! ## The counters afterwards -/

theorem get_foldl_store (es : List Conversion) (st : Stat) (c : Counter) :
    (es.foldl Stat.store st).get c =
      ((es.filter fun e => e.counter = c).map Conversion.text).foldl (fun x s => (str2xInto x s).1)
        (st.get c) := by
  induction es generalizing st with
  | nil => rfl
  | cons e es ih =>
    rw [List.foldl_cons, ih, Stat.store]
    by_cases he : e.counter = c
    · subst he
      simp
    · rw [Stat.get_set_of_ne _ _ (Ne.symm he), List.filter_cons_of_neg (by simpa using he)]

/-- **A counter has the last of its values.** -/
theorem Outcome.right_iff {attrs : List Xml.Attr} {st : Stat} {r : Outcome}
    (h : readStat 0 st (attrTexts attrs) = some r) (hconv : r.conversions = wanted 0 attrs) :
    r.Right attrs st ↔ InRange attrs := by
  obtain ⟨hstat, hresult⟩ := readStat_eq_some h
  have hget : ∀ c, r.stat.get c =
      (own c attrs).foldl (fun x s => (str2xInto x s).1) (st.get c) := by
    intro c
    rw [hstat, get_foldl_store, hconv, map_text_wanted]
  have hlast : ∀ c, ∀ s ∈ (own c attrs).getLast?, ∀ z, CString.Whole s z →
      r.stat.get c = BitVec.ofInt 64 z := by
    intro c s hs z hz
    obtain ⟨l, hl⟩ := List.getLast?_eq_some_iff.mp hs
    rw [hget, hl, List.foldl_append, List.foldl_cons, List.foldl_nil, str2xInto_fst _ hz]
  constructor
  · intro hr c s hs z hz
    rw [← hr.stored c s hs z hz]
    exact ⟨BitVec.le_toInt _, BitVec.toInt_lt⟩
  · intro hrange
    refine ⟨hconv, ?_, fun c hc => ?_, fun c s hs z hz => ?_⟩
    · rw [hresult, hconv, forall_wanted_iff]
    · rw [hget, hc, List.foldl_nil]
    · rw [hlast c s hs z hz, BitVec.toInt_ofInt]
      have hz := hrange c s hs z hz
      exact Int.bmod_eq_of_le (by simpa using hz.1) (by simpa using hz.2)

/-- **When the counters are read correctly.**  Names and values are read in pairs if every name up to
the first malformed value is that of a counter; what is left in the counters is also right with other
names, as long as none of their values is the name of a counter.  In both cases the numbers that are
kept must be in the range of `long long`. -/
theorem stat_read_iff (attrs : List Xml.Attr) (st : Stat) :
    (ReadInPairs attrs st ↔ Known attrs ∧ InRange attrs) ∧
      (StoredAlike attrs st ↔ Aligned attrs ∧ InRange attrs) := by
  have hright : ∀ r, readStat 0 st (attrTexts attrs) = some r → r.Right attrs st →
      Aligned attrs ∧ InRange attrs ∧ r.names = visited 0 attrs := by
    intro r hr h
    have haligned : Aligned attrs := aligned_of_conversions (k := 0) hr h.conversions
    obtain ⟨r', hr', -, hnames⟩ := readStat_of_aligned haligned 0 st
    obtain rfl : r = r' := Option.some.inj (hr.symm.trans hr')
    exact ⟨haligned, (Outcome.right_iff hr h.conversions).mp h, hnames⟩
  constructor
  · constructor
    · rintro ⟨r, hr, h⟩
      obtain ⟨-, hrange, hnames⟩ := hright r hr h.toRight
      exact ⟨(visited_eq_iff attrs).mp (hnames ▸ h.names), hrange⟩
    · rintro ⟨hknown, hrange⟩
      have haligned : Aligned attrs := by
        intro a ha hnone
        have hsome := hknown a ha
        rw [hnone] at hsome
        cases hsome
      obtain ⟨r, hr, hconv, hnames⟩ := readStat_of_aligned haligned 0 st
      refine ⟨r, hr, (Outcome.right_iff hr hconv).mpr hrange, ?_⟩
      rw [hnames, (visited_eq_iff attrs).mpr hknown]
  · constructor
    · rintro ⟨r, hr, h⟩
      obtain ⟨haligned, hrange, -⟩ := hright r hr h
      exact ⟨haligned, hrange⟩
    · rintro ⟨haligned, hrange⟩
      obtain ⟨r, hr, hconv, -⟩ := readStat_of_aligned haligned 0 st
      exact ⟨r, hr, (Outcome.right_iff hr hconv).mpr hrange⟩

namespace Sample

/-- An unknown attribute whose value is the name of a counter, and a counter. -/
def traff : List Xml.Attr := [⟨"unit".toList, "su0".toList⟩, ⟨"sd0".toList, "5".toList⟩]

/-- Counters at zero. -/
def stat : Stat := ⟨0, 0, 0, 0⟩

end Sample

/-- The name behind the value of an unknown attribute is taken for a number, and at the end of the
list the null pointer is. -/
theorem value_read_as_name :
    ¬ ReadInPairs Sample.traff Sample.stat ∧ ¬ StoredAlike Sample.traff Sample.stat ∧
      getValueStat (some (attrTexts (Sample.traff.take 1))) Sample.stat = none := by
  have hconv : (getValueStat (some (attrTexts Sample.traff)) Sample.stat).map Outcome.conversions =
      some [⟨2, .su 0, "sd0".toList⟩] := by decide +kernel
  have hwanted : wanted 0 Sample.traff = [⟨3, .sd 0, "5".toList⟩] := by decide +kernel
  have hstored : ¬ StoredAlike Sample.traff Sample.stat := by
    rintro ⟨r, hr, h⟩
    rw [Option.mem_def.mp hr, Option.map_some, h.conversions, hwanted] at hconv
    exact absurd hconv (by decide)
  refine ⟨?_, hstored, ?_⟩
  · rintro ⟨r, hr, h⟩
    exact hstored ⟨r, hr, h.toRight⟩
  · have hunit : findProp "unit".toList = none := by decide +kernel
    have hsu : findProp "su0".toList = some (.su 0) := findProp_eq_some_iff.mpr (by decide)
    show readStat 0 Sample.stat ["unit".toList, "su0".toList] = none
    rw [readStat_unknown hunit, readStat_null hsu]
    rfl

end GetUser

end Stargazer
