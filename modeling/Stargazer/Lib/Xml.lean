import Mathlib.Data.List.Basic
import Mathlib.Data.List.Nodup
import Mathlib.Data.Char

set_option relaxedAutoImplicit false
set_option autoImplicit false

/-!
# Documents of tags

A fragment of XML: documents made of tags with attributes, without text between the tags and
without references.  A writer prints the tags one after another; a parser that conforms to the
standard calls back with the elements that start and end, each with its attributes, provided that
no value holds a character that means something inside the quotation marks.

Which parser is used does not matter to a program that relies on this alone: `Xml.Conforming` says
what it relies on, and `Xml.scan` is a parser of the fragment that conforms.

## Main definitions

* `Xml.Tag`, `Xml.Event` — what is printed and what the parser reports.
* `Xml.IsDocument` — the documents of the fragment.
* `Xml.Conforming` — the contract of a parser, `Xml.scan` — a parser.

## Main results

* `Xml.conforming_scan` — the contract can be met.
-/

namespace Xml

/-! ## Documents -/

/-- A text. -/
abbrev Text := List Char

/-- An attribute of an element. -/
structure Attr where
  name : Text
  value : Text
  deriving DecidableEq

/-- A tag. -/
inductive Tag
  /-- `<name attrs>`. -/
  | start (name : Text) (attrs : List Attr)
  /-- `<name attrs/>`. -/
  | empty (name : Text) (attrs : List Attr)
  /-- `</name>`. -/
  | close (name : Text)
  deriving DecidableEq

/-- What a parser reports. -/
inductive Event
  | start (name : Text) (attrs : List Attr)
  | finish (name : Text)
  deriving DecidableEq

/-- The text of an attribute, with the blank before it. -/
def Attr.render (a : Attr) : Text := ' ' :: (a.name ++ '=' :: '"' :: (a.value ++ ['"']))

/-- The text of a tag. -/
def Tag.render : Tag → Text
  | .start n as => '<' :: (n ++ (as.flatMap Attr.render ++ ['>']))
  | .empty n as => '<' :: (n ++ (as.flatMap Attr.render ++ ['/', '>']))
  | .close n => '<' :: '/' :: (n ++ ['>'])

/-- The text of a document. -/
def render (tags : List Tag) : Text := tags.flatMap Tag.render

/-- What is to be reported of a tag. -/
def Tag.events : Tag → List Event
  | .start n as => [.start n as]
  | .empty n as => [.start n as, .finish n]
  | .close n => [.finish n]

/-- What is to be reported of a document. -/
def events (tags : List Tag) : List Event := tags.flatMap Tag.events

/-- What is to be reported of an element. -/
theorem events_element (n : Text) (as : List Attr) (body : List Tag) :
    events (Tag.start n as :: (body ++ [Tag.close n])) =
      Event.start n as :: (events body ++ [Event.finish n]) := by
  simp [events, Tag.events]

/-! ## Well-formed documents -/

/-- A character of a name: letters and digits are enough here. -/
def isNameChar (c : Char) : Bool := c.isAlphanum

/-- A name. -/
def isName (n : Text) : Bool := n.head?.any Char.isAlpha && n.all isNameChar

/-- A character that stands for itself in a value between quotation marks: it is a character of
XML, it is neither the beginning of something else nor the end of the value, and it is not one of
those that become a blank. -/
def isPlainChar (c : Char) : Bool :=
  ' ' ≤ c && c != '<' && c != '&' && c != '"' && c != '\uFFFE' && c != '\uFFFF'

/-- A value that stands for itself. -/
def isPlain (v : Text) : Bool := v.all isPlainChar

/-- The attributes of a well-formed tag. -/
structure AttrsOk (as : List Attr) : Prop where
  names : ∀ a ∈ as, isName a.name = true
  plain : ∀ a ∈ as, isPlain a.value = true
  nodup : (as.map Attr.name).Nodup

/-- A well-formed tag. -/
def Tag.Ok : Tag → Prop
  | .start n as => isName n = true ∧ AttrsOk as
  | .empty n as => isName n = true ∧ AttrsOk as
  | .close n => isName n = true

/-- Each closing tag closes the element that was opened last, and in the end all are closed. -/
def balanced : List Text → List Tag → Bool
  | open_, [] => open_.isEmpty
  | open_, .start n _ :: ts => balanced (n :: open_) ts
  | open_, .empty _ _ :: ts => balanced open_ ts
  | [], .close _ :: _ => false
  | m :: open_, .close n :: ts => n == m && balanced open_ ts

/-- What may stand inside an element: well-formed tags, each element closed. -/
structure IsContent (ts : List Tag) : Prop where
  ok : ∀ t ∈ ts, t.Ok
  balanced : balanced [] ts = true

/-- A document: one element with its content. -/
def IsDocument (tags : List Tag) : Prop :=
  ∃ n as body, tags = .start n as :: (body ++ [.close n]) ∧ isName n = true ∧ AttrsOk as ∧
    IsContent body

/-- **The contract of a parser**: it reports the tags of a document. -/
def Conforming (read : Text → Option (List Event)) : Prop :=
  ∀ tags, IsDocument tags → read (render tags) = some (events tags)

/-! ### Building documents -/

theorem attrsOk_nil : AttrsOk [] := ⟨by simp, by simp, by simp⟩

theorem attrsOk_singleton {n v : Text} (hn : isName n = true) (hv : isPlain v = true) :
    AttrsOk [⟨n, v⟩] :=
  ⟨by simpa using hn, by simpa using hv, by simp⟩

/-- What is balanced may be followed by more. -/
theorem balanced_append {stack : List Text} {ts us : List Tag} (h : balanced [] ts = true) :
    balanced stack (ts ++ us) = balanced stack us := by
  have hgen : ∀ (ts : List Tag) (inner : List Text), balanced inner ts = true →
      balanced (inner ++ stack) (ts ++ us) = balanced stack us := by
    intro ts
    induction ts with
    | nil =>
      intro inner hinner
      have : inner = [] := List.isEmpty_iff.1 (by simpa [balanced] using hinner)
      simp [this]
    | cons t ts ih =>
      intro inner hinner
      cases t with
      | start n as => exact ih (n :: inner) hinner
      | empty n as => exact ih inner hinner
      | close n =>
        cases inner with
        | nil => simp [balanced] at hinner
        | cons m inner =>
          simp only [balanced, Bool.and_eq_true] at hinner
          simp [balanced, hinner.1, ih inner hinner.2]
  exact hgen ts [] h

/-- An element is balanced. -/
theorem balanced_element (n : Text) (as : List Attr) {ts : List Tag} (h : balanced [] ts = true) :
    balanced [] (.start n as :: (ts ++ [.close n])) = true := by
  change balanced [n] (ts ++ [.close n]) = true
  rw [balanced_append h]
  simp [balanced]

/-- So are elements one after another. -/
theorem balanced_flatMap {α : Type} {l : List α} {f : α → List Tag}
    (h : ∀ a ∈ l, balanced [] (f a) = true) : balanced [] (l.flatMap f) = true := by
  induction l with
  | nil => rfl
  | cons a l ih =>
    rw [List.flatMap_cons, balanced_append (h a List.mem_cons_self)]
    exact ih fun b hb => h b (List.mem_cons_of_mem a hb)

theorem isContent_nil : IsContent [] := ⟨by simp, rfl⟩

/-- An element without content. -/
theorem isContent_empty {n : Text} {as : List Attr} (hn : isName n = true) (has : AttrsOk as) :
    IsContent [.empty n as] :=
  ⟨fun t ht => by rw [List.mem_singleton.1 ht]; exact ⟨hn, has⟩, rfl⟩

theorem IsContent.append {ts us : List Tag} (h : IsContent ts) (h' : IsContent us) :
    IsContent (ts ++ us) :=
  ⟨fun t ht => (List.mem_append.1 ht).elim (h.ok t) (h'.ok t),
    (balanced_append h.balanced).trans h'.balanced⟩

/-- Content after content. -/
theorem isContent_flatMap {α : Type} {l : List α} {f : α → List Tag}
    (h : ∀ a ∈ l, IsContent (f a)) : IsContent (l.flatMap f) := by
  refine ⟨fun t ht => ?_, balanced_flatMap fun a ha => (h a ha).balanced⟩
  obtain ⟨a, ha, ht⟩ := List.mem_flatMap.1 ht
  exact (h a ha).ok t ht

/-- The tags of an element with its content are well-formed. -/
theorem IsContent.ok_element {n : Text} {as : List Attr} {ts : List Tag} (hn : isName n = true)
    (has : AttrsOk as) (h : IsContent ts) : ∀ t ∈ .start n as :: (ts ++ [.close n]), t.Ok := by
  intro t ht
  rcases List.mem_cons.1 ht with rfl | ht
  · exact ⟨hn, has⟩
  · rcases List.mem_append.1 ht with ht | ht
    · exact h.ok t ht
    · rw [List.mem_singleton.1 ht]
      exact hn

/-- An element with its content is content. -/
theorem IsContent.element {n : Text} {as : List Attr} {ts : List Tag} (hn : isName n = true)
    (has : AttrsOk as) (h : IsContent ts) : IsContent (.start n as :: (ts ++ [.close n])) :=
  ⟨h.ok_element hn has, balanced_element n as h.balanced⟩

/-! ## A parser -/

/-- Where the parser is: what it has read of a tag. -/
inductive State
  | content
  | name (n : Text)
  | closing (n : Text)
  | attrName (n : Text) (as : List Attr) (a : Text)
  | equals (n : Text) (as : List Attr) (a : Text)
  | value (n : Text) (as : List Attr) (a v : Text)
  | inside (n : Text) (as : List Attr)
  | slash (n : Text) (as : List Attr)
  | error

/-- What may follow the name of an element or one of its attributes. -/
def afterPart (n : Text) (as : List Attr) (c : Char) (other : State) : State × List Event :=
  if c = ' ' then (.attrName n as [], [])
  else if c = '/' then (.slash n as, [])
  else if c = '>' then (.content, [.start n as])
  else (other, [])

/-- One character. -/
def step : State → Char → State × List Event
  | .content, c => (if c = '<' then .name [] else .error, [])
  | .name [], c => (if c = '/' then .closing [] else .name [c], [])
  | .name n, c => afterPart n [] c (.name (n ++ [c]))
  | .closing n, c => if c = '>' then (.content, [.finish n]) else (.closing (n ++ [c]), [])
  | .attrName n as a, c => (if c = '=' then .equals n as a else .attrName n as (a ++ [c]), [])
  | .equals n as a, c => (if c = '"' then .value n as a [] else .error, [])
  | .value n as a v, c =>
    (if c = '"' then .inside n (as ++ [⟨a, v⟩]) else .value n as a (v ++ [c]), [])
  | .inside n as, c => afterPart n as c .error
  | .slash n as, c => if c = '>' then (.content, [.start n as, .finish n]) else (.error, [])
  | .error, _ => (.error, [])

/-- The rest of a text, from a state of the parser. -/
def run : State → Text → Option (List Event)
  | .content, [] => some []
  | _, [] => none
  | s, c :: cs => (run (step s c).1 cs).map ((step s c).2 ++ ·)

/-- A parser of the fragment. -/
def scan (text : Text) : Option (List Event) := run .content text

theorem run_cons (s : State) (c : Char) (cs : Text) :
    run s (c :: cs) = (run (step s c).1 cs).map ((step s c).2 ++ ·) := by
  cases s <;> rfl

/-- A character that reports nothing. -/
theorem run_cons_of_step {s t : State} {c : Char} (h : step s c = (t, [])) (cs : Text) :
    run s (c :: cs) = run t cs := by
  rw [run_cons, h]
  simp

/-- A character that reports something. -/
theorem run_cons_of_step_events {s t : State} {c : Char} {e : List Event}
    (h : step s c = (t, e)) (cs : Text) : run s (c :: cs) = (run t cs).map (e ++ ·) := by
  rw [run_cons, h]

/-- **A text that is gathered**: each of its characters is added to what has been read. -/
theorem run_gather {f : Text → State} {rest : Text} (text : Text)
    (h : ∀ acc, ∀ c ∈ text, step (f acc) c = (f (acc ++ [c]), [])) (acc : Text) :
    run (f acc) (text ++ rest) = run (f (acc ++ text)) rest := by
  induction text generalizing acc with
  | nil => simp
  | cons c text ih =>
    have hstep := h acc c List.mem_cons_self
    rw [List.cons_append, run_cons_of_step hstep,
      ih (fun acc d hd => h acc d (List.mem_cons_of_mem c hd))]
    simp

theorem ne_of_isNameChar {c : Char} (h : isNameChar c = true) :
    c ≠ ' ' ∧ c ≠ '/' ∧ c ≠ '>' ∧ c ≠ '=' := by
  refine ⟨?_, ?_, ?_, ?_⟩ <;>
  · rintro rfl
    exact absurd h (by decide)

/-- The characters of a name. -/
theorem isNameChar_of_isName {n : Text} (h : isName n = true) : ∀ c ∈ n, isNameChar c = true := by
  simp only [isName, Bool.and_eq_true, List.all_eq_true] at h
  exact h.2

theorem ne_nil_of_isName {n : Text} (h : isName n = true) : n ≠ [] := by
  rintro rfl
  simp [isName] at h

-- the equations are derived here, once, for all the lemmas below
attribute [local simp] step afterPart in
/-- The name of a tag that opens. -/
theorem run_name {n : Text} (h : isName n = true) (rest : Text) :
    run .content ('<' :: (n ++ rest)) = run (.name n) rest := by
  have hchar := isNameChar_of_isName h
  obtain ⟨c, n, rfl⟩ := List.exists_cons_of_ne_nil (ne_nil_of_isName h)
  have hfirst : step (.name []) c = (.name [c], []) := by
    simp [step, (ne_of_isNameChar (hchar c List.mem_cons_self)).2.1]
  have hgather : run (.name (c :: [])) (n ++ rest) = run (.name (c :: ([] ++ n))) rest := by
    refine run_gather (f := fun acc => .name (c :: acc)) n (fun acc d hd => ?_) []
    obtain ⟨h1, h2, h3, -⟩ := ne_of_isNameChar (hchar d (List.mem_cons_of_mem c hd))
    simp [step, afterPart, h1, h2, h3]
  rw [run_cons_of_step (t := .name []) (by simp [step]), List.cons_append,
    run_cons_of_step hfirst, hgather]
  rfl

/-- A closing tag. -/
theorem run_closing {n : Text} (h : isName n = true) (rest : Text) :
    run .content ((Tag.close n).render ++ rest) = (run .content rest).map ([.finish n] ++ ·) := by
  have hgather : run (.closing []) (n ++ '>' :: rest) = run (.closing n) ('>' :: rest) := by
    refine run_gather (f := .closing) n (fun acc d hd => ?_) []
    obtain ⟨-, -, h3, -⟩ := ne_of_isNameChar (isNameChar_of_isName h d hd)
    simp [step, h3]
  have htext : (Tag.close n).render ++ rest = '<' :: '/' :: (n ++ '>' :: rest) := by
    simp [Tag.render]
  rw [htext, run_cons_of_step (t := .name []) (by simp [step]),
    run_cons_of_step (t := .closing []) (by simp [step]), hgather,
    run_cons_of_step_events (t := .content) (e := [.finish n]) (by simp [step])]

/-- One attribute. -/
theorem run_attr {n : Text} {as : List Attr} {a : Attr} (hname : isName a.name = true)
    (hvalue : isPlain a.value = true) (rest : Text) :
    run (.attrName n as []) (a.name ++ '=' :: '"' :: (a.value ++ '"' :: rest)) =
      run (.inside n (as ++ [a])) rest := by
  have hgatherName : run (.attrName n as []) (a.name ++ '=' :: '"' :: (a.value ++ '"' :: rest)) =
      run (.attrName n as a.name) ('=' :: '"' :: (a.value ++ '"' :: rest)) := by
    refine run_gather (f := .attrName n as) a.name (fun acc d hd => ?_) []
    simp [step, (ne_of_isNameChar (isNameChar_of_isName hname d hd)).2.2.2]
  have hgatherValue : run (.value n as a.name []) (a.value ++ '"' :: rest) =
      run (.value n as a.name a.value) ('"' :: rest) := by
    refine run_gather (f := .value n as a.name) a.value (fun acc d hd => ?_) []
    have hd := List.all_eq_true.1 hvalue d hd
    have hquote : d ≠ '"' := by
      rintro rfl
      exact absurd hd (by decide)
    simp [step, hquote]
  rw [hgatherName, run_cons_of_step (t := .equals n as a.name) (by simp [step]),
    run_cons_of_step (t := .value n as a.name []) (by simp [step]), hgatherValue,
    run_cons_of_step (t := .inside n (as ++ [a])) (by simp [step])]

/-- The attributes of a tag, one after another. -/
theorem run_attrs {n : Text} {bs : List Attr} (h : ∀ a ∈ bs, isName a.name = true)
    (h' : ∀ a ∈ bs, isPlain a.value = true) (as : List Attr) (rest : Text) :
    run (.inside n as) (bs.flatMap Attr.render ++ rest) = run (.inside n (as ++ bs)) rest := by
  induction bs generalizing as with
  | nil => simp
  | cons b bs ih =>
    have htext : (b :: bs).flatMap Attr.render ++ rest =
        ' ' :: (b.name ++ '=' :: '"' :: (b.value ++ '"' :: (bs.flatMap Attr.render ++ rest))) := by
      simp [Attr.render]
    rw [htext, run_cons_of_step (t := .attrName n as []) (by simp [step, afterPart]),
      run_attr (h b List.mem_cons_self) (h' b List.mem_cons_self),
      ih (fun a ha => h a (List.mem_cons_of_mem b ha))
        (fun a ha => h' a (List.mem_cons_of_mem b ha))]
    simp

/-- Behind a name the parser is where it is behind the attributes, if there are any. -/
theorem run_name_eq_inside {n : Text} (h : n ≠ []) {c : Char} (hc : c = ' ' ∨ c = '/' ∨ c = '>')
    (cs : Text) : run (.name n) (c :: cs) = run (.inside n []) (c :: cs) := by
  obtain ⟨d, n, rfl⟩ := List.exists_cons_of_ne_nil h
  have hstep : step (.name (d :: n)) c = step (.inside (d :: n) []) c := by
    rcases hc with rfl | rfl | rfl <;> simp [step, afterPart]
  rw [run_cons, run_cons, hstep]

/-- The beginning of a tag that opens, up to its end. -/
theorem run_opening {n : Text} {as : List Attr} (hn : isName n = true) (has : AttrsOk as) {c : Char}
    (hc : c = '/' ∨ c = '>') (cs : Text) :
    run .content ('<' :: (n ++ (as.flatMap Attr.render ++ c :: cs))) =
      run (.inside n as) (c :: cs) := by
  have hinside : run (.name n) (as.flatMap Attr.render ++ c :: cs) =
      run (.inside n []) (as.flatMap Attr.render ++ c :: cs) := by
    cases as with
    | nil => exact run_name_eq_inside (ne_nil_of_isName hn) (.inr hc) cs
    | cons a as => exact run_name_eq_inside (ne_nil_of_isName hn) (.inl rfl) _
  rw [run_name hn, hinside, run_attrs has.names has.plain]
  simp

/-- **One tag.** -/
theorem run_tag {t : Tag} (h : t.Ok) (rest : Text) :
    run .content (t.render ++ rest) = (run .content rest).map (t.events ++ ·) := by
  cases t with
  | start n as =>
    have htext : (Tag.start n as).render ++ rest =
        '<' :: (n ++ (as.flatMap Attr.render ++ '>' :: rest)) := by simp [Tag.render]
    rw [htext, run_opening h.1 h.2 (.inr rfl),
      run_cons_of_step_events (t := .content) (e := [.start n as]) (by simp [step, afterPart])]
    rfl
  | empty n as =>
    have htext : (Tag.empty n as).render ++ rest =
        '<' :: (n ++ (as.flatMap Attr.render ++ '/' :: '>' :: rest)) := by simp [Tag.render]
    rw [htext, run_opening h.1 h.2 (.inl rfl),
      run_cons_of_step (t := .slash n as) (by simp [step, afterPart]),
      run_cons_of_step_events (t := .content) (e := [.start n as, .finish n])
        (by simp [step])]
    rfl
  | close n => exact run_closing h rest

/-- **The parser conforms.** -/
theorem conforming_scan : Conforming scan := by
  rintro _ ⟨n, as, body, rfl, hn, has, hbody⟩
  have hok := hbody.ok_element hn has
  unfold scan
  generalize Tag.start n as :: (body ++ [.close n]) = tags at hok
  induction tags with
  | nil => rfl
  | cons t tags ih =>
    have htags := ih fun u hu => hok u (List.mem_cons_of_mem t hu)
    change run .content (t.render ++ render tags) = some (t.events ++ events tags)
    rw [run_tag (hok t List.mem_cons_self), htags]
    rfl

end Xml
