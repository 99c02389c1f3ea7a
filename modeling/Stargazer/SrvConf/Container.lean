import Stargazer.Common
import Stargazer.Lib.Xml

set_option relaxedAutoImplicit false
set_option autoImplicit false

/-!
# Answers that are lists

`GetContainer::Parser` of `libs/srvconf/parsers/get_container.h`: an answer that lists users, tariffs
and so on is one element whose children are handed, report by report, to one parser of elements.
That parser calls back at the end of an element, with an error or with what it has gathered, and the
container adds the latter to its list.

## Main definitions

* `Stargazer.ElementParser` — a parser of elements, `Stargazer.ElementCallback` — what it calls back with.
* `Stargazer.ElementParser.run` — the parser alone.
* `Stargazer.Container.handle` — the container.

## Main results

* `Stargazer.Container.foldlM_handle` — an answer: the container delivers what the parser of the
  elements has called back with.
-/

namespace Stargazer

/-- What a parser calls back with: a reason if there is an error, and the information. -/
structure ElementCallback (ι : Type) where
  error : List Char
  info : ι

/-- A parser of elements with states `σ` and information `ι`; no state where a null pointer is
followed. -/
structure ElementParser (σ ι : Type) where
  /-- `ParseStart`. -/
  start : σ → Xml.Text → List Xml.Attr → Option σ
  /-- `ParseEnd`, which may call back. -/
  finish : σ → Xml.Text → σ × Option (ElementCallback ι)

namespace ElementParser

variable {σ ι : Type} (p : ElementParser σ ι)

/-- One report of the XML parser. -/
def step : σ × List (ElementCallback ι) → Xml.Event → Option (σ × List (ElementCallback ι))
  | (s, cbs), .start el attr => (p.start s el attr).map fun s => (s, cbs)
  | (s, cbs), .finish el => some ((p.finish s el).1, cbs ++ (p.finish s el).2.toList)

/-- The parser alone: what has been called back so far goes along. -/
def run (s : σ × List (ElementCallback ι)) (evs : List Xml.Event) : Option (σ × List (ElementCallback ι)) :=
  evs.foldlM p.step s

theorem run_cons (r : σ × List (ElementCallback ι)) (ev : Xml.Event) (evs : List Xml.Event) :
    p.run r (ev :: evs) = (p.step r ev).bind fun r => p.run r evs := rfl

theorem run_append (r : σ × List (ElementCallback ι)) (evs evs' : List Xml.Event) :
    p.run r (evs ++ evs') = (p.run r evs).bind fun r => p.run r evs' := by
  simp [run, List.foldlM_append]

end ElementParser

/-- `GetContainer::Parser`, with what it has called back with, if it has. -/
structure Container (σ ι : Type) where
  depth : ℕ := 0
  parsingAnswer : Bool := false
  element : σ
  info : List ι := []
  error : List Char := []
  answer : Option (ElementCallback (List ι)) := none

namespace Container

variable {σ ι : Type}

/-- `ElementCallback`. -/
def elementCallback (c : Container σ ι) (cb : ElementCallback ι) : Container σ ι :=
  if cb.error = [] then { c with info := c.info ++ [cb.info] } else { c with error := cb.error }

/-- `ParseStart`. -/
def parseStart (p : ElementParser σ ι) (tag : String) (c : Container σ ι) (el : Xml.Text)
    (attr : List Xml.Attr) : Option (Container σ ι) :=
  let parsingAnswer := c.parsingAnswer || (c.depth = 0 && caseEq el tag)
  let c := { c with depth := c.depth + 1, parsingAnswer := parsingAnswer }
  if 1 < c.depth ∧ c.parsingAnswer then
    (p.start c.element el attr).map fun s => { c with element := s }
  else some c

/-- `ParseEnd`. -/
def parseEnd (p : ElementParser σ ι) (c : Container σ ι) (el : Xml.Text) : Container σ ι :=
  let c := { c with depth := c.depth - 1 }
  if 0 < c.depth ∧ c.parsingAnswer then
    let r := p.finish c.element el
    r.2.elim { c with element := r.1 } ({ c with element := r.1 }).elementCallback
  else if c.depth = 0 ∧ c.parsingAnswer then
    { c with
      answer := some ⟨c.error, c.info⟩
      error := []
      info := []
      parsingAnswer := false }
  else c

/-- One report of the XML parser. -/
def handle (p : ElementParser σ ι) (tag : String) (c : Container σ ι) :
    Xml.Event → Option (Container σ ι)
  | .start el attr => c.parseStart p tag el attr
  | .finish el => some (c.parseEnd p el)

/-- The information that is delivered. -/
def delivered (cbs : List (ElementCallback ι)) : List ι :=
  cbs.filterMap fun cb => if cb.error = [] then some cb.info else none

/-- The last error. -/
def lastError (error : List Char) (cbs : List (ElementCallback ι)) : List Char :=
  cbs.foldl (fun e cb => if cb.error = [] then e else cb.error) error

theorem delivered_append (cbs cbs' : List (ElementCallback ι)) :
    delivered (cbs ++ cbs') = delivered cbs ++ delivered cbs' := List.filterMap_append

/-- The container inside of an answer: what the parser of the elements has called back with has been
gathered. -/
def within (error : List Char) (depth : ℕ) (r : σ × List (ElementCallback ι)) : Container σ ι :=
  ⟨depth, true, r.1, delivered r.2, lastError error r.2, none⟩

theorem elementCallback_within (error : List Char) (depth : ℕ) (s : σ) (cbs : List (ElementCallback ι))
    (cb : ElementCallback ι) :
    (within error depth (s, cbs)).elementCallback cb = within error depth (s, cbs ++ [cb]) := by
  by_cases h : cb.error = [] <;>
    simp [elementCallback, within, delivered, lastError, List.foldl_append, h]

variable (p : ElementParser σ ι) (tag : String)

/-- An element starts inside of an answer. -/
theorem handle_within_start (error : List Char) (depth : ℕ) (r : σ × List (ElementCallback ι))
    (el : Xml.Text) (attr : List Xml.Attr) :
    handle p tag (within error (depth + 1) r) (.start el attr) =
      (p.step r (.start el attr)).map (within error (depth + 2)) := by
  simp [handle, parseStart, within, ElementParser.step]
  rfl

/-- An element inside of an answer ends. -/
theorem handle_within_finish (error : List Char) (depth : ℕ) (r : σ × List (ElementCallback ι))
    (el : Xml.Text) :
    handle p tag (within error (depth + 2) r) (.finish el) =
      (p.step r (.finish el)).map (within error (depth + 1)) := by
  have hend : handle p tag (within error (depth + 2) r) (.finish el) =
      some ((p.finish r.1 el).2.elim (within error (depth + 1) ((p.finish r.1 el).1, r.2))
        (within error (depth + 1) ((p.finish r.1 el).1, r.2)).elementCallback) := by
    simp [handle, parseEnd, within]
  rw [hend]
  cases hcb : (p.finish r.1 el).2 with
  | none => simp [ElementParser.step, hcb]
  | some cb => simp [ElementParser.step, hcb, elementCallback_within]

/-- **The children of an answer**: the container hands them to the parser of the elements and
gathers what that calls back with.

**Proof sketch.** Induction on the tags: the container is inside of the answer as long as each
closing tag closes an element that was opened there. -/
theorem foldlM_handle_children {ts : List Xml.Tag} (hts : Xml.balanced [] ts = true)
    (r : σ × List (ElementCallback ι)) (error : List Char) :
    (Xml.events ts).foldlM (handle p tag) (within error 1 r) =
      (p.run r (Xml.events ts)).map (within error 1) := by
  have hgen : ∀ (ts : List Xml.Tag) (inner : List Xml.Text) (r : σ × List (ElementCallback ι)),
      Xml.balanced inner ts = true →
      (Xml.events ts).foldlM (handle p tag) (within error (inner.length + 1) r) =
        (p.run r (Xml.events ts)).map (within error 1) := by
    intro ts
    induction ts with
    | nil =>
      intro inner r hbalanced
      obtain rfl : inner = [] := List.isEmpty_iff.1 (by simpa [Xml.balanced] using hbalanced)
      rfl
    | cons t ts ih =>
      intro inner r hbalanced
      have hevents : Xml.events (t :: ts) = t.events ++ Xml.events ts := rfl
      rw [hevents]
      cases t with
      | start n as =>
        rw [Xml.Tag.events, List.singleton_append, List.foldlM_cons, handle_within_start,
          p.run_cons]
        cases p.step r (.start n as) with
        | none => rfl
        | some r₁ => exact ih (n :: inner) r₁ hbalanced
      | empty n as =>
        rw [Xml.Tag.events, List.cons_append, List.singleton_append, List.foldlM_cons,
          handle_within_start, p.run_cons]
        cases p.step r (.start n as) with
        | none => rfl
        | some r₁ =>
          rw [Option.map_some, Option.bind_eq_bind, Option.bind_some, Option.bind_some,
            List.foldlM_cons, handle_within_finish, p.run_cons]
          cases p.step r₁ (.finish n) with
          | none => rfl
          | some r₂ => exact ih inner r₂ hbalanced
      | close n =>
        cases inner with
        | nil => simp [Xml.balanced] at hbalanced
        | cons m inner =>
          have hbalanced : Xml.balanced inner ts = true := by
            simp only [Xml.balanced, Bool.and_eq_true] at hbalanced
            exact hbalanced.2
          rw [Xml.Tag.events, List.singleton_append, List.foldlM_cons, List.length_cons,
            handle_within_finish, p.run_cons]
          cases p.step r (.finish n) with
          | none => rfl
          | some r₁ => exact ih inner r₁ hbalanced
  exact hgen ts [] r hts

/-- **An answer**: the container delivers what the parser of the elements has called back with. -/
theorem foldlM_handle {root : Xml.Text} (hroot : caseEq root tag = true) (attrs : List Xml.Attr)
    {ts : List Xml.Tag} (hts : Xml.balanced [] ts = true) (s : σ) :
    (Xml.events (.start root attrs :: (ts ++ [.close root]))).foldlM (handle p tag)
        { element := s } =
      (p.run (s, []) (Xml.events ts)).map fun r =>
        { element := r.1, answer := some ⟨lastError [] r.2, delivered r.2⟩ } := by
  have hfirst : handle p tag { element := s } (.start root attrs) =
      some (within [] 1 (s, ([] : List (ElementCallback ι)))) := by
    simp [handle, parseStart, within, hroot, delivered, lastError]
  rw [Xml.events_element, List.foldlM_cons, hfirst, Option.bind_eq_bind, Option.bind_some,
    List.foldlM_append, foldlM_handle_children p tag hts]
  cases p.run (s, []) (Xml.events ts) with
  | none => rfl
  | some r => simp [handle, parseEnd, within]

end Container

end Stargazer
