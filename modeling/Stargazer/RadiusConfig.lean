import Stargazer.Common
import Stargazer.Lib.Split
import Stargazer.Radius
import Mathlib.Data.List.Forall2

set_option relaxedAutoImplicit false
set_option autoImplicit false

/-!
# The rules of the RADIUS server

`Config::ParseRules` and `Config::parseASection` (`plugins/other/radius/config.cpp`) read the attributes
that have to match and those that are sent, `name = value` with commas between them, where a value in
quotes stands for itself and any other one for a parameter of the user.

The separators are spaces and equals signs, of which any number counts for one.  So a text in quotes with
a space in it is refused, two words with a space between them are accepted, and where there is no value
the first character of an empty string is taken.

## Main definitions

* `Stargazer.Radius.parseRules`, `Stargazer.Radius.parseASection` — the functions of the source; there is
  no result where an operation is not defined.
* `Stargazer.Radius.Written` — an item, as it is to be written.
* `Stargazer.Radius.RulesExact`, `Stargazer.Radius.SectionExact` — a configuration is read as it is
  written.
* `Stargazer.Radius.RulesClear`, `Stargazer.Radius.SectionClear` — the configurations that are.

## Main results

* `Stargazer.Radius.aligned_iff` — the items that are read as they are written.
* `Stargazer.Radius.rulesExact_iff` — the texts that are.
* `Stargazer.Radius.radius_rules_exact_iff` — the configurations that are.
-/

namespace Stargazer

namespace Radius

/-! ## The functions of the source -/

/-- A rule: the name of an attribute, and a value. -/
abbrev Rule := String × AttrValue

/-- `" \t"`. -/
def isBlank (c : Char) : Bool := c == ' ' || c == '\t'

/-- `" ="`. -/
def isSeparator (c : Char) : Bool := c == ' ' || c == '='

/-- `keyValue`. -/
def keyValue (token : List Char) : List (List Char) := Words.split isSeparator (Words.trim isBlank token)

/-- What becomes of an item. -/
inductive Outcome
  /-- There is a rule. -/
  | rule (r : Rule)
  /-- `ParseRules` returns the empty list. -/
  | refused
  /-- An operation is not defined. -/
  | undefined

/-- A rule with the name of a parameter. -/
def paramRule (name value : List Char) : Rule := (String.ofList name, ⟨String.ofList value, true⟩)

/-- A rule with a value. -/
def valueRule (name value : List Char) : Rule := (String.ofList name, ⟨String.ofList value, false⟩)

/-- The loop body of `ParseRules`. -/
def readItem (token : List Char) : Outcome :=
  match keyValue token with
  | [name, valueName] =>
    match valueName.head?, valueName.getLast? with
    | some front, some back =>
      if front = '\'' ∧ back = '\'' then
        -- the quote at the end is not there if it is the one in front
        match valueName.tail with
        | [] => .undefined
        | c :: rest => .rule (valueRule name (c :: rest).dropLast)
      else if (front = '\'' ∧ back ≠ '\'') ∨ (front ≠ '\'' ∧ back = '\'') then .refused
      else .rule (paramRule name valueName)
    | _, _ => .undefined
  | _ => .refused

/-- The loop of `ParseRules`. -/
def rulesLoop : List (List Char) → List Rule → Option (List Rule)
  | [], res => some res
  | token :: tokens, res =>
    match readItem token with
    | .rule r => rulesLoop tokens (res ++ [r])
    | .refused => some []
    | .undefined => none

/-- The parts between the commas. -/
def items (text : List Char) : List (List Char) := text.splitOn ','

/-- `char_separator`, which leaves out the empty ones. -/
def tokens (text : List Char) : List (List Char) := (items text).filter fun t => !t.isEmpty

/-- `Config::ParseRules`. -/
def parseRules (text : List Char) : Option (List Rule) := rulesLoop (tokens text) []

/-- `ParamValue`. -/
structure ParamValue where
  param : List Char
  value : List (List Char) := []

/-- A member of `ASection`: the rules of the first parameter of a name. -/
def sectionRules (conf : List ParamValue) (name : String) : Option (List Rule) :=
  match conf.find? fun pv => caseEq pv.param name with
  | none => some []
  | some pv => pv.value.head?.bind parseRules

/-- `Config::parseASection`. -/
def parseASection (conf : List ParamValue) : Option (List Rule × List Rule) :=
  (sectionRules conf "match").bind fun mat => (sectionRules conf "send").map fun send => (mat, send)

/-! ## What is to be read -/

/-- A name: at least one character, and none of those around it. -/
def IsName (name : List Char) : Prop := name ≠ [] ∧ ∀ c ∈ name, isBlank c = false ∧ c ≠ '='

/-- A bare word does not begin or end with a quote. -/
def IsBare (word : List Char) : Prop :=
  IsName word ∧ word.head? ≠ some '\'' ∧ word.getLast? ≠ some '\''

/-- A text in quotes. -/
def quoted (text : List Char) : List Char := '\'' :: (text ++ ['\''])

/-- A rule with the text of its value. -/
inductive HasText (name : List Char) : List Char → Rule → Prop
  | bare {word : List Char} : IsBare word → HasText name word (paramRule name word)
  | quoted {text : List Char} : HasText name (quoted text) (valueRule name text)

/-- **An item**: a name, an equals sign and a value, with blanks around them. -/
def Written (item : List Char) (r : Rule) : Prop :=
  ∃ b1 name b2 b3 value b4, item = b1 ++ (name ++ (b2 ++ '=' :: (b3 ++ value)) ++ b4) ∧
    (∀ c ∈ b1 ++ b2 ++ b3 ++ b4, isBlank c = true) ∧ IsName name ∧ HasText name value r

/-- **The text of a parameter is read as it is written**, or refused. -/
def RulesExact (text : List Char) : Prop :=
  ∃ res, parseRules text = some res ∧
    (∀ rs, List.Forall₂ Written (items text) rs → res = rs) ∧
    ((∀ rs, ¬ List.Forall₂ Written (items text) rs) → res = [])

/-- **A section is read as it is written.** -/
def SectionExact (conf : List ParamValue) : Prop :=
  ∃ mat send, parseASection conf = some (mat, send) ∧
    ∀ name rules, (name, rules) ∈ [("match", mat), ("send", send)] →
      ∀ pv, (conf.find? fun pv => caseEq pv.param name) = some pv →
        ∃ text, pv.value.head? = some text ∧ parseRules text = some rules ∧ RulesExact text

/-! ## When it is read so -/

/-- An item whose equals sign has only spaces around it, and whose value has no space or equals sign. -/
def Aligned (item : List Char) (r : Rule) : Prop :=
  ∃ b1 name b2 b3 value b4, item = b1 ++ (name ++ (b2 ++ '=' :: (b3 ++ value)) ++ b4) ∧
    (∀ c ∈ b1 ++ b4, isBlank c = true) ∧ (∀ c ∈ b2 ++ b3, c = ' ') ∧ IsName name ∧
      HasText name value r ∧ ∀ c ∈ value, isSeparator c = false

/-- The quotes of a value: at both ends or at none, and not one for both. -/
def WellQuoted (value : List Char) : Prop :=
  value ≠ [] ∧ value ≠ ['\''] ∧ (value.head? = some '\'' ↔ value.getLast? = some '\'')

/-- An item of two words, the second one with its quotes. -/
def Accepted (item : List Char) : Prop := ∃ name value, keyValue item = [name, value] ∧ WellQuoted value

/-- An item of another number of words, or with one quote. -/
def Refused (item : List Char) : Prop :=
  (keyValue item).length ≠ 2 ∨
    ∃ name value, keyValue item = [name, value] ∧ value ≠ [] ∧
      ¬ (value.head? = some '\'' ↔ value.getLast? = some '\'')

/-- Some item is refused, and those before are accepted. -/
def RefusedFirst : List (List Char) → Prop
  | [] => False
  | item :: items => Refused item ∨ (Accepted item ∧ RefusedFirst items)

/-- **The texts that are read as they are written**: every item is aligned; or some item is not written
as it should be, and the first one that is not accepted is refused; or there is nothing but commas. -/
def RulesClear (text : List Char) : Prop :=
  (∀ item ∈ items text, ∃ r, Aligned item r) ∨
    ((∃ item ∈ items text, ∀ r, ¬ Written item r) ∧ RefusedFirst (tokens text)) ∨
      ∀ item ∈ items text, item = []

/-- **The sections that are**: the first parameter of each name has a value, which is. -/
def SectionClear (conf : List ParamValue) : Prop :=
  ∀ name ∈ ["match", "send"], ∀ pv, (conf.find? fun pv => caseEq pv.param name) = some pv →
    ∃ text, pv.value.head? = some text ∧ RulesClear text

/-! ## One item -/

theorem isSeparator_eq_false_iff {c : Char} : isSeparator c = false ↔ c ≠ ' ' ∧ c ≠ '=' := by
  unfold isSeparator
  rw [Bool.or_eq_false_iff, beq_eq_false_iff_ne, beq_eq_false_iff_ne]

theorem isBlank_eq_true_iff {c : Char} : isBlank c = true ↔ c = ' ' ∨ c = '\t' := by
  unfold isBlank
  rw [Bool.or_eq_true, beq_iff_eq, beq_iff_eq]

/-- No character of a name separates. -/
theorem IsName.isSeparator {name : List Char} (h : IsName name) : ∀ c ∈ name, isSeparator c = false := by
  intro c hc
  obtain ⟨hblank, heq⟩ := h.2 c hc
  refine isSeparator_eq_false_iff.mpr ⟨?_, heq⟩
  rintro rfl
  cases hblank

theorem IsName.head {name : List Char} (h : IsName name) : ∃ c ∈ name.head?, isBlank c = false := by
  obtain ⟨c, rest, rfl⟩ := List.exists_cons_of_ne_nil h.1
  exact ⟨c, rfl, (h.2 c List.mem_cons_self).1⟩

theorem IsName.last {name : List Char} (h : IsName name) : ∃ c ∈ name.getLast?, isBlank c = false :=
  ⟨name.getLast h.1, List.getLast?_eq_some_getLast h.1, (h.2 _ (List.getLast_mem h.1)).1⟩

theorem quoted_getLast? (text : List Char) : (quoted text).getLast? = some '\'' := by
  unfold quoted
  rw [← List.cons_append, List.getLast?_concat]

theorem quoted_inj {text text' : List Char} (h : quoted text = quoted text') : text = text' :=
  List.append_cancel_right (List.cons.inj h).2

variable {name value item : List Char} {r : Rule}

/-- A value begins and ends with a character that is not a blank. -/
theorem HasText.ends (h : HasText name value r) :
    (∃ c ∈ value.head?, isBlank c = false) ∧ ∃ c ∈ value.getLast?, isBlank c = false := by
  cases h with
  | bare hbare => exact ⟨hbare.1.head, hbare.1.last⟩
  | quoted => exact ⟨⟨'\'', rfl, rfl⟩, '\'', quoted_getLast? _, rfl⟩

/-- The values of two words, by their quotes. -/
inductive ReadAs (name : List Char) : List Char → Rule → Prop
  | param {value : List Char} : value ≠ [] → value.head? ≠ some '\'' → value.getLast? ≠ some '\'' →
      ReadAs name value (paramRule name value)
  | value {text : List Char} : ReadAs name (quoted text) (valueRule name text)

theorem readAs_iff : ReadAs name value r ↔
    (value ≠ [] ∧ value.head? ≠ some '\'' ∧ value.getLast? ≠ some '\'' ∧ r = paramRule name value) ∨
      ∃ text, value = quoted text ∧ r = valueRule name text := by
  constructor
  · rintro (⟨hne, hhead, hlast⟩ | _)
    · exact .inl ⟨hne, hhead, hlast, rfl⟩
    · exact .inr ⟨_, rfl, rfl⟩
  · rintro (⟨hne, hhead, hlast, rfl⟩ | ⟨text, rfl, rfl⟩)
    · exact .param hne hhead hlast
    · exact .value

/-- A value is read as one rule. -/
theorem ReadAs.unique {r' : Rule} (h : ReadAs name value r) (h' : ReadAs name value r') : r = r' := by
  rcases readAs_iff.mp h with ⟨-, hhead, -, rfl⟩ | ⟨text, hv, rfl⟩
  · rcases readAs_iff.mp h' with ⟨-, -, -, rfl⟩ | ⟨text, rfl, -⟩
    · rfl
    · exact absurd rfl hhead
  · rcases readAs_iff.mp h' with ⟨-, hhead, -, -⟩ | ⟨text', hv', rfl⟩
    · rw [hv] at hhead
      exact absurd rfl hhead
    · rw [quoted_inj (hv.symm.trans hv')]

theorem ReadAs.wellQuoted (h : ReadAs name value r) : WellQuoted value := by
  rcases readAs_iff.mp h with ⟨hne, hhead, hlast, -⟩ | ⟨text, rfl, -⟩
  · refine ⟨hne, ?_, iff_of_false hhead hlast⟩
    rintro rfl
    exact hhead rfl
  · refine ⟨List.cons_ne_nil _ _, ?_, iff_of_true rfl (quoted_getLast? text)⟩
    intro h
    exact List.append_ne_nil_of_right_ne_nil text (List.cons_ne_nil _ _) (List.cons.inj h).2

/-- A rule is read from one name and one value. -/
theorem ReadAs.inj {name' value' : List Char} (h : ReadAs name value r) (h' : ReadAs name' value' r) :
    name = name' ∧ value = value' := by
  have ofList_inj : ∀ {s t : List Char}, String.ofList s = String.ofList t → s = t := by
    intro s t hst
    rw [← String.toList_ofList (l := s), hst, String.toList_ofList]
  rcases readAs_iff.mp h with ⟨-, -, -, rfl⟩ | ⟨text, rfl, rfl⟩
  · rcases readAs_iff.mp h' with ⟨-, -, -, hr⟩ | ⟨text', rfl, hr⟩
    · obtain ⟨hn, hv⟩ := Prod.mk.inj hr
      exact ⟨ofList_inj hn, ofList_inj (AttrValue.mk.inj hv).1⟩
    · cases (AttrValue.mk.inj (Prod.mk.inj hr).2).2
  · rcases readAs_iff.mp h' with ⟨-, -, -, hr⟩ | ⟨text', rfl, hr⟩
    · cases (AttrValue.mk.inj (Prod.mk.inj hr).2).2
    · obtain ⟨hn, hv⟩ := Prod.mk.inj hr
      exact ⟨ofList_inj hn, congrArg quoted (ofList_inj (AttrValue.mk.inj hv).1)⟩

/-- A value that stands for a rule is read as that rule. -/
theorem HasText.readAs (h : HasText name value r) : ReadAs name value r := by
  cases h with
  | bare hbare => exact .param hbare.1.1 hbare.2.1 hbare.2.2
  | quoted => exact .value

/-- What `ParseRules` makes of an item of two words. -/
theorem readItem_pair (h : keyValue item = [name, value]) :
    ((value = [] ∨ value = ['\'']) ∧ readItem item = .undefined) ∨
      ((value ≠ [] ∧ ¬ (value.head? = some '\'' ↔ value.getLast? = some '\'')) ∧
        readItem item = .refused) ∨
      (WellQuoted value ∧ ∃ r, ReadAs name value r ∧ readItem item = .rule r) := by
  cases value with
  | nil =>
    refine .inl ⟨.inl rfl, ?_⟩
    rw [readItem, h]
    rfl
  | cons c rest =>
    have hne : c :: rest ≠ [] := List.cons_ne_nil c rest
    have hlast : (c :: rest).getLast? = some ((c :: rest).getLast hne) := List.getLast?_eq_some_getLast hne
    have hread : readItem item =
        if c = '\'' ∧ (c :: rest).getLast hne = '\'' then
          match (c :: rest).tail with
          | [] => .undefined
          | d :: rest => .rule (valueRule name (d :: rest).dropLast)
        else if (c = '\'' ∧ (c :: rest).getLast hne ≠ '\'') ∨
            (c ≠ '\'' ∧ (c :: rest).getLast hne = '\'') then .refused
        else .rule (paramRule name (c :: rest)) := by
      rw [readItem, h]
      simp only [List.head?_cons, hlast]
    rw [hlast, List.head?_cons, Option.some.injEq, Option.some.injEq]
    generalize (c :: rest).getLast hne = d at hread hlast
    by_cases hc : c = '\'' <;> by_cases hd : d = '\''
    · rw [if_pos ⟨hc, hd⟩] at hread
      cases rest with
      | nil => exact .inl ⟨.inr (by rw [hc]), hread⟩
      | cons e rest =>
        refine .inr (.inr ⟨⟨hne, by simp, by rw [hlast, hc, hd]; simp⟩, _, ?_, hread⟩)
        have hlast' : (e :: rest).getLast? = some '\'' := by
          rw [← hd, ← hlast, List.getLast?_cons_cons]
        have hq : c :: e :: rest = quoted (e :: rest).dropLast := by
          unfold quoted
          rw [List.dropLast_append_getLast? _ hlast', hc]
        nth_rewrite 1 [hq]
        exact .value
    · rw [if_neg fun h => hd h.2, if_pos (.inl ⟨hc, hd⟩)] at hread
      exact .inr (.inl ⟨⟨hne, fun h => hd (h.mp hc)⟩, hread⟩)
    · rw [if_neg fun h => hc h.1, if_pos (.inr ⟨hc, hd⟩)] at hread
      exact .inr (.inl ⟨⟨hne, fun h => hc (h.mpr hd)⟩, hread⟩)
    · rw [if_neg fun h => hc h.1, if_neg (by rintro (h | h); exacts [hc h.1, hd h.2])] at hread
      refine .inr (.inr ⟨⟨hne, ?_, ?_⟩, _, .param hne ?_ ?_, hread⟩)
      · intro h
        exact hc (List.cons.inj h).1
      · rw [hlast, List.head?_cons, Option.some.injEq, Option.some.injEq]
        exact iff_of_false hc hd
      · exact fun h => hc (Option.some.inj h)
      · rw [hlast]
        exact fun h => hd (Option.some.inj h)

/-- **What becomes of an item**, by its words. -/
theorem readItem_cases (item : List Char) :
    ((∃ name value, keyValue item = [name, value] ∧ (value = [] ∨ value = ['\''])) ∧
        readItem item = .undefined) ∨
      (Refused item ∧ readItem item = .refused) ∨
      (Accepted item ∧ ∃ name value r, keyValue item = [name, value] ∧ ReadAs name value r ∧
        readItem item = .rule r) := by
  by_cases hlen : (keyValue item).length = 2
  · obtain ⟨name, value, h⟩ := List.length_eq_two.mp hlen
    rcases readItem_pair h with ⟨hv, hread⟩ | ⟨hv, hread⟩ | ⟨hv, r, hr, hread⟩
    · exact .inl ⟨⟨name, value, h, hv⟩, hread⟩
    · exact .inr (.inl ⟨.inr ⟨name, value, h, hv⟩, hread⟩)
    · exact .inr (.inr ⟨⟨name, value, h, hv⟩, name, value, r, h, hr, hread⟩)
  · refine .inr (.inl ⟨.inl hlen, ?_⟩)
    unfold readItem
    split
    · next h => exact absurd (by rw [h]; rfl) hlen
    · rfl

/-- An item is one pair at most. -/
theorem pair_inj {name name' value value' : List Char} (h : keyValue item = [name, value])
    (h' : keyValue item = [name', value']) : name = name' ∧ value = value' := by
  obtain ⟨hname, hvalue⟩ := List.cons.inj (h.symm.trans h')
  exact ⟨hname, (List.cons.inj hvalue).1⟩

/-- An item that is refused is not accepted. -/
theorem Refused.not_accepted (h : Refused item) : ¬ Accepted item := by
  rintro ⟨name, value, hkv, hwell⟩
  rcases h with hlen | ⟨name', value', hkv', -, hquotes⟩
  · exact hlen (by rw [hkv]; rfl)
  · obtain ⟨-, rfl⟩ := pair_inj hkv hkv'
    exact hquotes hwell.2.2

theorem readItem_eq_refused_iff : readItem item = .refused ↔ Refused item := by
  rcases readItem_cases item with ⟨⟨name, value, hkv, hv⟩, hread⟩ | ⟨hr, hread⟩ |
      ⟨hacc, name, value, r, hkv, hr, hread⟩
  · rw [hread]
    refine iff_of_false (fun h => by cases h) ?_
    rintro (hlen | ⟨name', value', hkv', hne, hquotes⟩)
    · exact hlen (by rw [hkv]; rfl)
    · obtain ⟨-, rfl⟩ := pair_inj hkv hkv'
      rcases hv with rfl | rfl
      · exact hne rfl
      · exact hquotes (iff_of_true rfl rfl)
  · exact iff_of_true hread hr
  · rw [hread]
    exact iff_of_false (fun h => by cases h) fun h => h.not_accepted hacc

theorem exists_readItem_iff : (∃ r, readItem item = .rule r) ↔ Accepted item := by
  rcases readItem_cases item with ⟨⟨name, value, hkv, hv⟩, hread⟩ | ⟨hr, hread⟩ |
      ⟨hacc, name, value, r, hkv, hr, hread⟩
  · rw [hread]
    refine iff_of_false (fun ⟨r, h⟩ => by cases h) ?_
    rintro ⟨name', value', hkv', hne, hone, -⟩
    obtain ⟨-, rfl⟩ := pair_inj hkv hkv'
    exact hv.elim hne hone
  · rw [hread]
    exact iff_of_false (fun ⟨r, h⟩ => by cases h) hr.not_accepted
  · exact iff_of_true ⟨r, hread⟩ hacc

theorem readItem_eq_rule_iff :
    readItem item = .rule r ↔ ∃ name value, keyValue item = [name, value] ∧ ReadAs name value r := by
  constructor
  · intro h
    obtain ⟨name, value, hkv, -⟩ := exists_readItem_iff.mp ⟨r, h⟩
    refine ⟨name, value, hkv, ?_⟩
    rcases readItem_pair hkv with ⟨-, hread⟩ | ⟨-, hread⟩ | ⟨-, r', hr, hread⟩
    · cases h.symm.trans hread
    · cases h.symm.trans hread
    · cases h.symm.trans hread
      exact hr
  · rintro ⟨name, value, hkv, hr⟩
    have hwell := hr.wellQuoted
    rcases readItem_pair hkv with ⟨hv, -⟩ | ⟨⟨-, hq⟩, -⟩ | ⟨-, r', hr', hread⟩
    · exact absurd hv (not_or.mpr ⟨hwell.1, hwell.2.1⟩)
    · exact absurd hwell.2.2 hq
    · rw [hread, hr'.unique hr]

/-! ## The items that are read as they are written -/

/-- What is left of an item without its ends. -/
theorem trim_item {b1 b2 b3 b4 : List Char} (hname : IsName name) (hv : HasText name value r)
    (hb1 : ∀ c ∈ b1, isBlank c = true) (hb4 : ∀ c ∈ b4, isBlank c = true) :
    Words.trim isBlank (b1 ++ (name ++ (b2 ++ '=' :: (b3 ++ value)) ++ b4)) =
      name ++ (b2 ++ '=' :: (b3 ++ value)) := by
  apply Words.trim_append hb1 hb4
  · obtain ⟨c, hc, hblank⟩ := hname.head
    refine ⟨c, ?_, hblank⟩
    rw [List.head?_append_of_ne_nil _ hname.1]
    exact hc
  · obtain ⟨c, hc, hblank⟩ := hv.ends.2
    refine ⟨c, ?_, hblank⟩
    rw [← List.cons_append, ← List.append_assoc, ← List.append_assoc, List.getLast?_append_of_ne_nil]
    · exact hc
    · rintro rfl
      cases hc

/-- **An item is read as it is written** iff it is aligned. -/
theorem aligned_iff : Aligned item r ↔ Written item r ∧ readItem item = .rule r := by
  constructor
  · rintro ⟨b1, name, b2, b3, value, b4, rfl, hends, hmid, hname, hv, hsep⟩
    obtain ⟨hb1, hb4⟩ := List.forall_mem_append.mp hends
    refine ⟨⟨b1, name, b2, b3, value, b4, rfl, ?_, hname, hv⟩, ?_⟩
    · intro c hc
      rw [List.append_assoc b1, List.append_assoc b1, List.mem_append, List.mem_append] at hc
      rcases hc with hc | hc | hc
      · exact hb1 c hc
      · exact isBlank_eq_true_iff.mpr (.inl (hmid c hc))
      · exact hb4 c hc
    · refine readItem_eq_rule_iff.mpr ⟨name, value, ?_, hv.readAs⟩
      unfold keyValue
      rw [trim_item hname hv hb1 hb4, Words.split_eq_pair_iff]
      refine ⟨b2 ++ '=' :: b3, List.append_ne_nil_of_right_ne_nil b2 (List.cons_ne_nil _ _), ?_, ?_,
        hname.isSeparator, hsep⟩
      · intro c hc
        rw [List.mem_append, List.mem_cons] at hc
        have hc' : c = '=' ∨ c ∈ b2 ++ b3 := by
          rw [List.mem_append]
          rcases hc with hc | hc | hc
          · exact .inr (.inl hc)
          · exact .inl hc
          · exact .inr (.inr hc)
        rcases hc' with rfl | hc'
        · rfl
        · rw [hmid c hc']
          rfl
      · rw [List.append_assoc, List.cons_append]
  · rintro ⟨⟨b1, name, b2, b3, value, b4, rfl, hblank, hname, hv⟩, hread⟩
    obtain ⟨name', value', hkv, hr⟩ := readItem_eq_rule_iff.mp hread
    obtain ⟨rfl, rfl⟩ := hr.inj hv.readAs
    obtain ⟨hb, hb4⟩ := List.forall_mem_append.mp hblank
    obtain ⟨hb, hb3⟩ := List.forall_mem_append.mp hb
    obtain ⟨hb1, hb2⟩ := List.forall_mem_append.mp hb
    unfold keyValue at hkv
    rw [trim_item hname hv hb1 hb4, Words.split_eq_pair_iff] at hkv
    obtain ⟨m, -, hm, heq, -, hvalue⟩ := hkv
    have hmid : b2 ++ '=' :: b3 = m := by
      have h := List.append_cancel_left heq
      rw [← List.cons_append, ← List.append_assoc] at h
      exact List.append_cancel_right h
    refine ⟨b1, name', b2, b3, value', b4, rfl, List.forall_mem_append.mpr ⟨hb1, hb4⟩, ?_, hname, hv, hvalue⟩
    -- a separator that is a blank is a space
    intro c hc
    have hcm : c ∈ m := by
      rw [← hmid, List.mem_append, List.mem_cons]
      exact (List.mem_append.mp hc).imp_right .inr
    have hcb : isBlank c = true := (List.mem_append.mp hc).elim (hb2 c) (hb3 c)
    rcases isBlank_eq_true_iff.mp hcb with h | rfl
    · exact h
    · cases hm _ hcm

/-- **An item is written for one rule.** -/
theorem Written.unique {r' : Rule} (h : Written item r) (h' : Written item r') : r = r' := by
  obtain ⟨b1, name, b2, b3, value, b4, hitem, hblank, hname, hv⟩ := h
  obtain ⟨b1', name', b2', b3', value', b4', hitem', hblank', hname', hv'⟩ := h'
  have hends : ∀ {a b c d : List Char}, (∀ x ∈ a ++ b ++ c ++ d, isBlank x = true) →
      (∀ x ∈ a, isBlank x = true) ∧ (∀ x ∈ b, isBlank x = true) ∧ (∀ x ∈ c, isBlank x = true) ∧
        ∀ x ∈ d, isBlank x = true := by
    intro a b c d hall
    obtain ⟨hall, hd⟩ := List.forall_mem_append.mp hall
    obtain ⟨hall, hc⟩ := List.forall_mem_append.mp hall
    obtain ⟨ha, hb⟩ := List.forall_mem_append.mp hall
    exact ⟨ha, hb, hc, hd⟩
  obtain ⟨hb1, hb2, hb3, hb4⟩ := hends hblank
  obtain ⟨hb1', hb2', hb3', hb4'⟩ := hends hblank'
  have htrim : Words.trim isBlank (b1 ++ (name ++ (b2 ++ '=' :: (b3 ++ value)) ++ b4)) =
      name ++ (b2 ++ '=' :: (b3 ++ value)) := trim_item hname hv hb1 hb4
  rw [← hitem, hitem', trim_item hname' hv' hb1' hb4', ← List.append_assoc, ← List.append_assoc] at htrim
  -- the first equals sign is the one between them
  have hfirst : ∀ {name b : List Char}, IsName name → (∀ x ∈ b, isBlank x = true) → '=' ∉ name ++ b := by
    intro name b hname hb hmem
    rcases List.mem_append.mp hmem with hmem | hmem
    · exact (hname.2 _ hmem).2 rfl
    · cases hb _ hmem
  obtain ⟨hleft, hright⟩ := Words.append_cons_inj_left (hfirst hname' hb2') (hfirst hname hb2) htrim
  have hname_eq : name = name' := by
    have h := Words.trim_append (b := []) (fun c hc => by cases hc) hb2 hname.head hname.last
    have h' := Words.trim_append (b := []) (fun c hc => by cases hc) hb2' hname'.head hname'.last
    rw [← h, ← hleft, h']
  have hvalue_eq : value = value' := by
    have h := Words.trim_append (e := []) hb3 (fun c hc => by cases hc) hv.ends.1 hv.ends.2
    have h' := Words.trim_append (e := []) hb3' (fun c hc => by cases hc) hv'.ends.1 hv'.ends.2
    rw [List.append_nil] at h h'
    rw [← h, ← hright, h']
  subst hname_eq hvalue_eq
  exact hv.readAs.unique hv'.readAs

theorem Written.ne_nil (h : Written item r) : item ≠ [] := by
  obtain ⟨b1, name, b2, b3, value, b4, rfl, -, hname, -⟩ := h
  intro hnil
  have h := (List.append_eq_nil_iff.mp (List.append_eq_nil_iff.mp hnil).2).1
  exact hname.1 (List.append_eq_nil_iff.mp h).1

/-! ## The loop over the items -/

/-- Every item is read as a rule. -/
abbrev Reads : List (List Char) → List Rule → Prop := List.Forall₂ fun item r => readItem item = .rule r

theorem Reads.rulesLoop {ts : List (List Char)} {rs : List Rule} (h : Reads ts rs) (res : List Rule) :
    rulesLoop ts res = some (res ++ rs) := by
  induction h generalizing res with
  | nil => rw [Radius.rulesLoop, List.append_nil]
  | cons hr _ ih =>
    rw [Radius.rulesLoop, hr]
    dsimp only
    rw [ih, List.append_assoc, List.singleton_append]

theorem RefusedFirst.rulesLoop {ts : List (List Char)} (h : RefusedFirst ts) (res : List Rule) :
    rulesLoop ts res = some [] := by
  induction ts generalizing res with
  | nil => cases h
  | cons t ts ih =>
    rw [Radius.rulesLoop]
    rcases h with h | ⟨hacc, h⟩
    · rw [readItem_eq_refused_iff.mpr h]
    · obtain ⟨r, hr⟩ := exists_readItem_iff.mpr hacc
      rw [hr]
      exact ih h _

/-- **Where the loop comes to its end**, an item is refused or all of them are read. -/
theorem rulesLoop_cases {ts : List (List Char)} {res out : List Rule} (h : rulesLoop ts res = some out) :
    (RefusedFirst ts ∧ out = []) ∨ ∃ rs, Reads ts rs ∧ out = res ++ rs := by
  induction ts generalizing res with
  | nil => exact .inr ⟨[], .nil, by rw [List.append_nil]; exact (Option.some.inj h).symm⟩
  | cons t ts ih =>
    rw [rulesLoop] at h
    cases hread : readItem t with
    | undefined =>
      rw [hread] at h
      cases h
    | refused =>
      rw [hread] at h
      exact .inl ⟨.inl (readItem_eq_refused_iff.mp hread), (Option.some.inj h).symm⟩
    | rule r =>
      rw [hread] at h
      rcases ih h with ⟨hfirst, rfl⟩ | ⟨rs, hrs, rfl⟩
      · exact .inl ⟨.inr ⟨exists_readItem_iff.mp ⟨r, hread⟩, hfirst⟩, rfl⟩
      · exact .inr ⟨r :: rs, .cons hread hrs, by rw [List.append_assoc, List.singleton_append]⟩

/-! ## The texts and the sections -/

theorem tokens_eq_items {text : List Char} (h : ∀ item ∈ items text, item ≠ []) : tokens text = items text := by
  refine List.filter_eq_self.mpr fun item hitem => ?_
  rw [Bool.not_eq_true', List.isEmpty_eq_false_iff]
  exact h item hitem

theorem tokens_eq_nil_iff {text : List Char} : tokens text = [] ↔ ∀ item ∈ items text, item = [] := by
  unfold tokens
  rw [List.filter_eq_nil_iff]
  refine forall₂_congr fun item _ => ?_
  rw [Bool.not_eq_true', Bool.not_eq_false, List.isEmpty_iff]

/-- Where every item has a rule, there are rules for all of them. -/
theorem exists_forall₂ {R : List Char → Rule → Prop} {ts : List (List Char)} (h : ∀ t ∈ ts, ∃ r, R t r) :
    ∃ rs, List.Forall₂ R ts rs := by
  induction ts with
  | nil => exact ⟨[], .nil⟩
  | cons t ts ih =>
    obtain ⟨⟨r, hr⟩, hts⟩ := List.forall_mem_cons.mp h
    obtain ⟨rs, hrs⟩ := ih hts
    exact ⟨r :: rs, .cons hr hrs⟩

theorem exists_of_forall₂ {R : List Char → Rule → Prop} {ts : List (List Char)} {rs : List Rule}
    (h : List.Forall₂ R ts rs) : ∀ t ∈ ts, ∃ r, R t r := by
  induction h with
  | nil => intro t ht; cases ht
  | cons hr _ ih => exact List.forall_mem_cons.mpr ⟨⟨_, hr⟩, ih⟩

theorem forall₂_unique {ts : List (List Char)} {rs rs' : List Rule} (h : List.Forall₂ Written ts rs)
    (h' : List.Forall₂ Written ts rs') : rs = rs' := by
  induction h generalizing rs' with
  | nil =>
    cases h'
    rfl
  | cons hr _ ih =>
    cases h' with
    | cons hr' hrs' => rw [hr.unique hr', ih hrs']

/-- **A text is read as it is written** iff it is clear. -/
theorem rulesExact_iff (text : List Char) : RulesExact text ↔ RulesClear text := by
  constructor
  · rintro ⟨res, hres, hwritten, hnot⟩
    rcases rulesLoop_cases hres with ⟨hfirst, rfl⟩ | ⟨rs, hrs, hout⟩
    · refine .inr (.inl ⟨?_, hfirst⟩)
      by_contra hall
      push Not at hall
      obtain ⟨rs, hrs⟩ := exists_forall₂ hall
      rw [← hwritten rs hrs] at hrs
      exact List.splitOn_ne_nil _ _ (List.forall₂_nil_right_iff.mp hrs)
    · rw [List.nil_append] at hout
      subst hout
      by_cases hw : ∃ rs, List.Forall₂ Written (items text) rs
      · obtain ⟨rs, hw⟩ := hw
        obtain rfl := hwritten rs hw
        have htokens := tokens_eq_items fun item hitem =>
          (exists_of_forall₂ hw item hitem).elim fun _ h => h.ne_nil
        rw [htokens] at hrs
        have haligned : List.Forall₂ Aligned (items text) res := by
          clear hres hwritten hnot htokens
          generalize items text = ts at hrs hw
          induction hrs with
          | nil => exact .nil
          | cons hread _ ih =>
            cases hw with
            | cons hr hw => exact .cons (aligned_iff.mpr ⟨hr, hread⟩) (ih hw)
        exact .inl (exists_of_forall₂ haligned)
      · obtain rfl := hnot (not_exists.mp hw)
        exact .inr (.inr (tokens_eq_nil_iff.mp (List.forall₂_nil_right_iff.mp hrs)))
  · rintro (hal | ⟨⟨item, hitem, hnot⟩, hfirst⟩ | hempty)
    · have hw : ∀ item ∈ items text, ∃ r, Written item r ∧ readItem item = .rule r := fun item hitem =>
        (hal item hitem).imp fun r hr => aligned_iff.mp hr
      obtain ⟨rs, hrs⟩ := exists_forall₂ hw
      have hwritten : List.Forall₂ Written (items text) rs := hrs.imp fun _ _ h => h.1
      have hreads : Reads (tokens text) rs := by
        rw [tokens_eq_items fun item hitem => (hw item hitem).elim fun _ h => h.1.ne_nil]
        exact hrs.imp fun _ _ h => h.2
      refine ⟨rs, hreads.rulesLoop [], fun rs' hrs' => forall₂_unique hwritten hrs', fun hno => ?_⟩
      exact absurd hwritten (hno rs)
    · refine ⟨[], hfirst.rulesLoop [], fun rs hrs => ?_, fun _ => rfl⟩
      obtain ⟨r, hr⟩ := exists_of_forall₂ hrs item hitem
      exact absurd hr (hnot r)
    · refine ⟨[], ?_, fun rs hrs => ?_, fun _ => rfl⟩
      · rw [parseRules, tokens_eq_nil_iff.mpr hempty]
        rfl
      · obtain ⟨item, rest, h⟩ := List.exists_cons_of_ne_nil (List.splitOn_ne_nil ',' text)
        have hitem : item ∈ items text := by
          rw [items, h]
          exact List.mem_cons_self
        obtain ⟨r, hr⟩ := exists_of_forall₂ hrs item hitem
        exact absurd (hempty item hitem) hr.ne_nil

/-- The rules of a parameter that is there. -/
theorem sectionRules_of_find {conf : List ParamValue} {name : String} {pv : ParamValue}
    (h : (conf.find? fun pv => caseEq pv.param name) = some pv) :
    sectionRules conf name = pv.value.head?.bind parseRules := by
  rw [sectionRules, h]

theorem parseASection_eq_some_iff {conf : List ParamValue} {mat send : List Rule} :
    parseASection conf = some (mat, send) ↔
      sectionRules conf "match" = some mat ∧ sectionRules conf "send" = some send := by
  unfold parseASection
  rw [Option.bind_eq_some_iff]
  constructor
  · rintro ⟨mat', hmat, hsend⟩
    obtain ⟨send', hsend', heq⟩ := Option.map_eq_some_iff.mp hsend
    obtain ⟨rfl, rfl⟩ := Prod.mk.inj heq
    exact ⟨hmat, hsend'⟩
  · rintro ⟨hmat, hsend⟩
    exact ⟨mat, hmat, Option.map_eq_some_iff.mpr ⟨send, hsend, rfl⟩⟩

/-- A section whose parameters are clear has rules. -/
theorem SectionClear.exists_rules {conf : List ParamValue} (h : SectionClear conf) {name : String}
    (hname : name ∈ ["match", "send"]) : ∃ rules, sectionRules conf name = some rules := by
  cases hfind : conf.find? fun pv => caseEq pv.param name with
  | none => exact ⟨[], by rw [sectionRules, hfind]⟩
  | some pv =>
    obtain ⟨text, htext, hclear⟩ := h name hname pv hfind
    obtain ⟨rules, hrules, -⟩ := (rulesExact_iff text).mpr hclear
    refine ⟨rules, ?_⟩
    rw [sectionRules_of_find hfind, htext]
    exact hrules

/-- **A section is read as it is written** iff it is clear. -/
theorem sectionExact_iff (conf : List ParamValue) : SectionExact conf ↔ SectionClear conf := by
  constructor
  · rintro ⟨mat, send, -, hall⟩ name hname pv hpv
    have hrules : ∃ rules, (name, rules) ∈ [("match", mat), ("send", send)] := by
      rcases List.mem_pair.mp hname with rfl | rfl
      · exact ⟨mat, List.mem_cons_self⟩
      · exact ⟨send, List.mem_cons_of_mem _ List.mem_cons_self⟩
    obtain ⟨rules, hmem⟩ := hrules
    obtain ⟨text, htext, -, hexact⟩ := hall name rules hmem pv hpv
    exact ⟨text, htext, (rulesExact_iff text).mp hexact⟩
  · intro h
    obtain ⟨mat, hmat⟩ := h.exists_rules List.mem_cons_self
    obtain ⟨send, hsend⟩ := h.exists_rules (List.mem_cons_of_mem _ List.mem_cons_self)
    refine ⟨mat, send, parseASection_eq_some_iff.mpr ⟨hmat, hsend⟩, ?_⟩
    intro name rules hmem pv hpv
    have hrules : name ∈ ["match", "send"] ∧ sectionRules conf name = some rules := by
      rcases List.mem_pair.mp hmem with heq | heq
      · obtain ⟨rfl, rfl⟩ := Prod.mk.inj heq
        exact ⟨List.mem_cons_self, hmat⟩
      · obtain ⟨rfl, rfl⟩ := Prod.mk.inj heq
        exact ⟨List.mem_cons_of_mem _ List.mem_cons_self, hsend⟩
    obtain ⟨text, htext, hclear⟩ := h name hrules.1 pv hpv
    refine ⟨text, htext, ?_, (rulesExact_iff text).mpr hclear⟩
    have h := hrules.2
    rw [sectionRules_of_find hpv, htext] at h
    exact h

/-- **The rules are read as they are written** exactly from the texts and the sections that are clear. -/
theorem radius_rules_exact_iff (text : List Char) (conf : List ParamValue) :
    (RulesExact text ∧ SectionExact conf) ↔ (RulesClear text ∧ SectionClear conf) :=
  and_congr (rulesExact_iff text) (sectionExact_iff conf)

/-- An item without a value, a single quote for a value, and a parameter without values; then a text in
quotes with a space in it, which is refused, and an item without an equals sign, which is not. -/
theorem radius_rules_not_exact :
    parseRules "name=".toList = none ∧ parseRules "name='".toList = none ∧
      parseASection [⟨"match".toList, []⟩] = none ∧
      parseRules "name = 'a b'".toList = some [] ∧
      parseRules "name word".toList = some [("name", ⟨"word", true⟩)] ∧
      ¬ ∀ text conf, RulesExact text ∧ SectionExact conf := by
  refine ⟨rfl, rfl, rfl, rfl, rfl, ?_⟩
  intro h
  obtain ⟨res, hres, -⟩ := (h "name=".toList []).1
  have hnone : parseRules "name=".toList = none := rfl
  cases hnone.symm.trans hres

end Radius

end Stargazer
