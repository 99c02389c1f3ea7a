import Stargazer.Config.SetTariff
import Stargazer.Lib.Numerals

set_option relaxedAutoImplicit false
set_option autoImplicit false

/-!
# Malformed requests that change a tariff

A value that `CHG_TARIFF::Start` cannot read is passed over or replaced, and `CHG_TARIFF::CreateAnswer`
does not know of it.  So a request is turned down only for a reason that has nothing to do with its
values: the administrator must not change tariffs, or there is no tariff to be changed.

## Main definitions

* `Stargazer.SetTariff.Request` — a request, with any elements one inside of another.
* `Stargazer.SetTariff.Request.WellFormed` — all values of elements that have a meaning are well formed.
* `Stargazer.SetTariff.Handled` — an element that the parser can deal with.
* `Stargazer.SetTariff.RejectsMalformed` — if the request is malformed, it is turned down whole.

## Main results

* `Stargazer.SetTariff.run_nested_eq_going_iff` — what the elements of a request do.
* `Stargazer.SetTariff.rejected_iff` — when a request is turned down.
* `Stargazer.SetTariff.malformed_rejected_iff` — when malformed requests are.
-/

namespace Stargazer

namespace SetTariff

open SlashedList

/-! ## Requests -/

/-- Every element inside of the request that ends has begun, and the other way round; `n` of them have
not ended yet. -/
def Nested : ℕ → List Report → Prop
  | n, [] => n = 0
  | n, r :: rs =>
    match r.event with
    | .start _ _ => Nested (n + 1) rs
    | .finish _ => 0 < n ∧ Nested (n - 1) rs

/-- A request: its element, whether `errno` is `ERANGE` at the beginning and at the end, and what is
inside. -/
structure Request where
  el : List Char
  attr : List Xml.Attr
  erange : Bool × Bool := (false, false)
  body : List Report
  isTag : caseEq el "SetTariff" = true
  nested : Nested 0 body

/-- The reports of the XML parser. -/
def Request.reports (req : Request) : List Report :=
  ⟨.start req.el req.attr, req.erange.1⟩ :: (req.body ++ [⟨.finish req.el, req.erange.2⟩])

/-! ## Well-formed values -/

/-- A number with a point: `strtodouble2` reads it, and it is not empty. -/
def IsDouble (d : DoubleText) (t : List Char) : Prop := t ≠ [] ∧ (d.scan t).isSome = true

/-- A span of time, `h:m-h:m`. -/
def IsSpan (value : List Char) : Prop :=
  ∃ h1 m1 h2 m2, value = h1 ++ ':' :: (m1 ++ '-' :: (h2 ++ ':' :: m2)) ∧
    CString.IsNumber h1 ∧ CString.IsNumber m1 ∧ CString.IsNumber h2 ∧ CString.IsNumber m2

/-- What the value of an element has to be. -/
def WellFormedValue (d : DoubleText) (value : List Char) : TariffField → Prop
  | .price _ => (tokens value).length ≤ 10 ∧ ∀ t ∈ tokens value, IsDouble d t
  | .flag _ => ∃ zs, integersOf value = some zs
  | .time _ => IsSpan value
  | .fee | .passiveCost | .free => IsDouble d value
  | .traffType => ∃ t : TraffType, caseEq value t.toString = true
  | .period => ∃ p : Period, caseEq value p.toString = true
  | .changePolicy => ∃ p : ChangePolicy, caseEq value p.toString = true
  | .changePolicyTimeout => ∃ z, CString.Whole value z ∧ IsTime z

/-- **All values of elements that have a meaning are well formed.** -/
def Request.WellFormed (d : DoubleText) (req : Request) : Prop :=
  ∀ r ∈ req.body, ∀ el attr f, r.event = .start el attr →
    fieldOf TariffField.answerName el = some f →
      ∃ a, attr.head? = some a ∧ WellFormedValue d a.value f

/-! ## What the parser can deal with -/

/-- The value of an element fits the array or the buffers it goes into. -/
def Fitting (d : DoubleText) (erange : Bool) (value : List Char) (f : TariffField) : Prop :=
  FitsField d erange value f ∧ ∀ i, f = .time i → FitsTime erange value

/-- An element that the parser can deal with: it has a first attribute, which fits. -/
def HandledElement (d : DoubleText) (erange : Bool) (el : List Char) (attr : List Xml.Attr) : Prop :=
  ∀ f, fieldOf TariffField.answerName el = some f →
    ∃ a, attr.head? = some a ∧ Fitting d erange a.value f

/-- A report that the parser can deal with. -/
def Handled (d : DoubleText) (r : Report) : Prop :=
  ∀ el attr, r.event = .start el attr → HandledElement d r.erange el attr

/-- **The request is turned down whole**: whatever the store says, there is an answer, which is not
`ok`, and the tariffs stay. -/
def Rejected (d : DoubleText) (priv : Priv) (tariffs : TariffsImpl) (req : Request) : Prop :=
  ∀ storeError answer, ∃ srv : Server,
    Halting.run (handle d priv storeError) { tariffs := tariffs, answer := answer } req.reports =
        .going srv ∧
      srv.answer ≠ "<SetTariff Result=\"ok\"/>" ∧ srv.tariffs.tariffs = tariffs.tariffs

/-- **If the request is malformed, it is turned down whole.** -/
def RejectsMalformed (d : DoubleText) (priv : Priv) (tariffs : TariffsImpl) (req : Request) : Prop :=
  ¬ req.WellFormed d → Rejected d priv tariffs req

/-- `Find` knows the tariff, but it may not be changed or is not in the list; and the parser can deal
with all elements. -/
def TurnedDown (d : DoubleText) (priv : Priv) (tariffs : TariffsImpl) (req : Request) : Prop :=
  (∃ a, req.attr.head? = some a ∧ tariffs.Known (String.ofList a.value) ∧
    (priv.tariffChg = 0 ∨ a.value = [] ∨ String.ofList a.value ∉ tariffs.names)) ∧
  ∀ r ∈ req.body, Handled d r

/-! ## One element -/

/-- The value of an element. -/
theorem exists_readValue_iff (d : DoubleText) (erange : Bool) (td : TariffDataOpt) (value : List Char)
    (f : TariffField) :
    (∃ td', readValue d erange td value f = .going td') ↔ Fitting d erange value f := by
  have hgoing : (∃ td', readValue d erange td value f = .going td') ↔
      readValue d erange td value f ≠ .failed ∧ readValue d erange td value f ≠ .stopped := by
    cases readValue d erange td value f <;> simp
  rw [hgoing, readValue_ne_failed_iff, Fitting, and_congr_right_iff]
  intro _
  cases f with
  | time i =>
    have htime : (∀ j, TariffField.time i = .time j → FitsTime erange value) ↔ FitsTime erange value :=
      ⟨fun h => h i rfl, fun h _ _ => h⟩
    rw [htime, ← parseTariffTimeStr_ne_none_iff]
    simp only [readValue]
    split <;> simp [*]
  | price k =>
    refine iff_of_true ?_ fun j h => by cases h
    simp only [readValue]
    split <;> simp
  | flag k =>
    refine iff_of_true ?_ fun j h => by cases h
    simp only [readValue]
    split <;> simp
  | fee | passiveCost | free | traffType | period | changePolicy | changePolicyTimeout =>
    exact iff_of_true (by simp [readValue]) fun j h => by cases h

/-- **An element.** -/
theorem exists_readElement_iff (d : DoubleText) (erange : Bool) (td : TariffDataOpt) (el : List Char)
    (attr : List Xml.Attr) :
    (∃ td', readElement d erange td el attr = .going td') ↔ HandledElement d erange el attr := by
  unfold readElement HandledElement
  cases fieldOf TariffField.answerName el with
  | none => exact iff_of_true ⟨td, rfl⟩ fun f hf => by cases hf
  | some f =>
    cases attr.head? with
    | none =>
      refine iff_of_false (fun ⟨_, h⟩ => by cases h) fun h => ?_
      obtain ⟨a, ha, -⟩ := h f rfl
      cases ha
    | some a =>
      refine (exists_readValue_iff d erange td a.value f).trans ⟨fun h f' hf' => ?_, fun h => ?_⟩
      · obtain rfl := Option.some.inj hf'
        exact ⟨a, rfl, h⟩
      · obtain ⟨a', ha', hfit⟩ := h f rfl
        obtain rfl := Option.some.inj ha'
        exact hfit

/-- An element does not change the name. -/
theorem name_readElement {d : DoubleText} {erange : Bool} {td td' : TariffDataOpt} {el : List Char}
    {attr : List Xml.Attr} (h : readElement d erange td el attr = .going td') :
    td'.tariffConf.name = td.tariffConf.name := by
  unfold readElement at h
  cases hf : fieldOf TariffField.answerName el with
  | none =>
    rw [hf] at h
    cases h
    rfl
  | some f =>
    cases ha : attr.head? with
    | none =>
      rw [hf, ha] at h
      cases h
    | some a =>
      rw [hf, ha] at h
      exact name_readValue h

/-! ## The elements of a request -/

section Body

variable {d : DoubleText} {priv : Priv} {storeError : Option String}

/-- **What the elements of a request do**: they are gone through iff the parser can deal with all of
them, and then it is where it was, with the same name.

**Proof sketch.** Induction on the reports. -/
theorem run_nested_eq_going_iff {body : List Report} {n : ℕ} (hnested : Nested n body) (srv : Server)
    (hdepth : srv.parser.depth = n + 1) :
    ((∀ r ∈ body, Handled d r) →
      ∃ td, Halting.run (handle d priv storeError) srv body =
          .going { srv with parser := ⟨1, td⟩ } ∧
        td.tariffConf.name = srv.parser.td.tariffConf.name) ∧
    (∀ srv', Halting.run (handle d priv storeError) srv body = .going srv' →
      ∀ r ∈ body, Handled d r) := by
  induction body generalizing n srv with
  | nil =>
    obtain rfl : n = 0 := hnested
    obtain ⟨⟨depth, td⟩, tariffs, answer⟩ := srv
    obtain rfl : depth = 1 := hdepth
    exact ⟨fun _ => ⟨td, rfl, rfl⟩, fun _ _ r hr => by cases hr⟩
  | cons r body ih =>
    obtain ⟨event, erange⟩ := r
    cases event with
    | start el attr =>
      have hhandle : handle d priv storeError srv ⟨.start el attr, erange⟩ =
          (readElement d erange srv.parser.td el attr).map fun td =>
            { srv with parser := ⟨n + 1 + 1, td⟩ } := by
        simp only [handle, start, hdepth, Nat.add_eq_zero_iff, one_ne_zero, and_false, if_false]
        cases readElement d erange srv.parser.td el attr <;> rfl
      have hself : Handled d ⟨.start el attr, erange⟩ ↔ HandledElement d erange el attr := by
        refine ⟨fun h => h el attr rfl, fun h el' attr' heq => ?_⟩
        cases heq
        exact h
      simp only [List.forall_mem_cons, Halting.run, hhandle, hself]
      cases hread : readElement d erange srv.parser.td el attr with
      | going td =>
        have hih := ih (n := n + 1) hnested { srv with parser := ⟨n + 1 + 1, td⟩ } rfl
        refine ⟨fun hall => ?_, fun srv' hrun => ⟨?_, hih.2 srv' hrun⟩⟩
        · obtain ⟨td', hrun, hname⟩ := hih.1 hall.2
          exact ⟨td', hrun, hname.trans (name_readElement hread)⟩
        · exact (exists_readElement_iff d erange srv.parser.td el attr).mp ⟨td, hread⟩
      | stopped =>
        refine ⟨fun hall => ?_, fun srv' hrun => by cases hrun⟩
        obtain ⟨td, htd⟩ := (exists_readElement_iff d erange srv.parser.td el attr).mpr hall.1
        cases hread.symm.trans htd
      | failed =>
        refine ⟨fun hall => ?_, fun srv' hrun => by cases hrun⟩
        obtain ⟨td, htd⟩ := (exists_readElement_iff d erange srv.parser.td el attr).mpr hall.1
        cases hread.symm.trans htd
    | finish el =>
      obtain ⟨hpos, hrest⟩ := hnested
      have hhandle : handle d priv storeError srv ⟨.finish el, erange⟩ =
          .going { srv with parser := { srv.parser with depth := srv.parser.depth - 1 } } := by
        simp only [handle]
        rw [if_neg (by omega), if_neg (by omega)]
      have hself : Handled d ⟨.finish el, erange⟩ := fun el' attr' heq => by cases heq
      simp only [List.forall_mem_cons, Halting.run, hhandle, hself, true_and]
      exact ih hrest { srv with parser := { srv.parser with depth := srv.parser.depth - 1 } }
        (show srv.parser.depth - 1 = n - 1 + 1 by omega)

end Body

/-! ## The request -/

section Whole

variable {d : DoubleText} {priv : Priv} {storeError : Option String} {tariffs : TariffsImpl}

variable (priv storeError) in
/-- What the end of the request does. -/
theorem run_reports {req : Request} {answer : String} {td : TariffDataOpt} {a : Xml.Attr}
    (ha : req.attr.head? = some a)
    (htd : td = ((tariffs.deref (tariffs.findByName (String.ofList a.value))).elim {} .ofData))
    (hall : ∀ r ∈ req.body, Handled d r) :
    ∃ td', td'.tariffConf.name = td.tariffConf.name ∧
      Halting.run (handle d priv storeError) { tariffs := tariffs, answer := answer } req.reports =
        (createAnswer priv storeError
          { parser := ⟨1, td'⟩, tariffs := tariffs, answer := answer }).map fun srv =>
            { srv with parser := { srv.parser with depth := srv.parser.depth - 1 } } := by
  have hstart : handle d priv storeError { tariffs := tariffs, answer := answer }
      ⟨.start req.el req.attr, req.erange.1⟩ =
        .going { parser := ⟨1, td⟩, tariffs := tariffs, answer := answer } := by
    simp only [handle, start, if_true, req.isTag, ha]
    rw [htd]
    cases tariffs.deref (tariffs.findByName (String.ofList a.value)) <;> rfl
  obtain ⟨td', hbody, hname⟩ : ∃ td', Halting.run (handle d priv storeError)
      { parser := ⟨1, td⟩, tariffs := tariffs, answer := answer } req.body =
        .going { parser := ⟨1, td'⟩, tariffs := tariffs, answer := answer } ∧
      td'.tariffConf.name = td.tariffConf.name :=
    (run_nested_eq_going_iff req.nested _ rfl).1 hall
  refine ⟨td', hname, ?_⟩
  rw [Request.reports, Halting.run, hstart]
  dsimp only
  rw [Halting.run_append, hbody]
  dsimp only
  rw [Halting.run]
  have hfinish : handle d priv storeError { parser := ⟨1, td'⟩, tariffs := tariffs, answer := answer }
      ⟨.finish req.el, req.erange.2⟩ =
        (createAnswer priv storeError
          { parser := ⟨1, td'⟩, tariffs := tariffs, answer := answer }).map fun srv =>
            { srv with parser := { srv.parser with depth := srv.parser.depth - 1 } } := by
    simp only [handle, req.isTag, if_true]
    rfl
  rw [hfinish]
  cases createAnswer priv storeError { parser := ⟨1, td'⟩, tariffs := tariffs, answer := answer } <;> rfl

/-- A request that is gone through. -/
theorem of_run_going {req : Request} {answer : String} {srv : Server}
    (h : Halting.run (handle d priv storeError) { tariffs := tariffs, answer := answer } req.reports =
      .going srv) :
    (∃ a, req.attr.head? = some a) ∧ ∀ r ∈ req.body, Handled d r := by
  rw [Request.reports, Halting.run] at h
  cases hstart : handle d priv storeError { tariffs := tariffs, answer := answer }
      ⟨.start req.el req.attr, req.erange.1⟩ with
  | stopped =>
    rw [hstart] at h
    cases h
  | failed =>
    rw [hstart] at h
    cases h
  | going srv₁ =>
    rw [hstart] at h
    dsimp only at h
    obtain ⟨a, ha, hdepth⟩ : ∃ a, req.attr.head? = some a ∧ srv₁.parser.depth = 1 := by
      simp only [handle, start, if_true, req.isTag] at hstart
      cases ha : req.attr.head? with
      | none =>
        rw [ha] at hstart
        cases hstart
      | some a =>
        rw [ha] at hstart
        refine ⟨a, rfl, ?_⟩
        dsimp only at hstart
        split at hstart <;> cases hstart <;> rfl
    refine ⟨⟨a, ha⟩, ?_⟩
    rw [Halting.run_append] at h
    cases hbody : Halting.run (handle d priv storeError) srv₁ req.body with
    | going srv₂ => exact (run_nested_eq_going_iff req.nested srv₁ hdepth).2 srv₂ hbody
    | stopped =>
      rw [hbody] at h
      cases h
    | failed =>
      rw [hbody] at h
      cases h

/-- The answers of `CreateAnswer` to what it cannot do. -/
theorem error_ne_ok (s : String) :
    "<SetTariff Result=\"Change tariff error!" ++ s ≠ "<SetTariff Result=\"ok\"/>" := by
  intro h
  have hlist := congrArg String.toList h
  rw [String.toList_append] at hlist
  have hget := congrArg (fun l => l[19]?) hlist
  simp at hget

/-- What `FindByName` finds has the name. -/
theorem getName_of_deref {name : String} {t : TariffImpl}
    (h : tariffs.deref (tariffs.findByName name) = some t) : t.getName = name := by
  unfold TariffsImpl.findByName at h
  split_ifs at h with hno
  · subst hno
    obtain rfl := Option.some.inj h
    rfl
  · cases hidx : tariffs.findIdx name with
    | none =>
      rw [hidx] at h
      cases h
    | some i =>
      obtain ⟨t', ht', hname⟩ := TariffsImpl.getName_of_findIdx hidx
      rw [hidx] at h
      simp only [TariffsImpl.deref, if_true] at h
      obtain rfl := Option.some.inj (ht'.symm.trans h)
      exact hname

/-- The name of the tariff that is changed. -/
theorem name_get {td : TariffDataOpt} {name : String} (hname : td.tariffConf.name = some name) :
    (td.get { tariffConf := { name := "" } }).tariffConf.name = name := by
  simp only [TariffDataOpt.get, TariffConfOpt.get, hname, Option.getD_some]

/-- **When a tariff cannot be changed**, there is an answer that says so, and the tariffs stay. -/
theorem createAnswer_of_cannot {td : TariffDataOpt} {name answer : String}
    (hname : td.tariffConf.name = some name)
    (hcannot : priv.tariffChg = 0 ∨ name = "" ∨ name ∉ tariffs.names) :
    ∃ srv, createAnswer priv storeError { parser := ⟨1, td⟩, tariffs := tariffs, answer := answer } =
        .going srv ∧
      srv.answer ≠ "<SetTariff Result=\"ok\"/>" ∧ srv.tariffs.tariffs = tariffs.tariffs := by
  unfold createAnswer
  rw [hname]
  dsimp only
  by_cases hempty : name = ""
  · rw [if_neg (not_not.mpr hempty)]
    exact ⟨_, rfl, error_ne_ok "\"/>", rfl⟩
  · rw [if_pos hempty]
    have hchg : (tariffs.chg priv storeError (td.get { tariffConf := { name := "" } })).1 = false ∧
        (tariffs.chg priv storeError (td.get { tariffConf := { name := "" } })).2.tariffs =
          tariffs.tariffs := by
      unfold TariffsImpl.chg
      rw [name_get hname]
      by_cases hpriv : priv.tariffChg = 0
      · rw [if_pos hpriv]
        exact ⟨rfl, rfl⟩
      · have hnone : tariffs.findIdx name = none :=
          TariffsImpl.findIdx_eq_none.mpr ((hcannot.resolve_left hpriv).resolve_left hempty)
        rw [if_neg hpriv, hnone]
        exact ⟨rfl, rfl⟩
    refine ⟨_, rfl, ?_, hchg.2⟩
    simp only [hchg.1, Bool.false_eq_true, if_false]
    exact error_ne_ok (" " ++ _ ++ "\"/>")

/-- **Otherwise**, if the store does not complain, the answer is `ok`. -/
theorem createAnswer_of_can {td : TariffDataOpt} {name answer : String}
    (hname : td.tariffConf.name = some name)
    (hcan : ¬ (priv.tariffChg = 0 ∨ name = "" ∨ name ∉ tariffs.names)) :
    ∃ srv, createAnswer priv none { parser := ⟨1, td⟩, tariffs := tariffs, answer := answer } =
      .going srv ∧ srv.answer = "<SetTariff Result=\"ok\"/>" := by
  obtain ⟨hpriv, hempty, hmem⟩ : priv.tariffChg ≠ 0 ∧ name ≠ "" ∧ name ∈ tariffs.names := by
    push Not at hcan
    exact hcan
  obtain ⟨i, hi⟩ : ∃ i, tariffs.findIdx name = some i := by
    refine Option.ne_none_iff_exists'.mp fun hnone => ?_
    exact TariffsImpl.findIdx_eq_none.mp hnone hmem
  have hchg : (tariffs.chg priv none (td.get { tariffConf := { name := "" } })).1 = true := by
    unfold TariffsImpl.chg
    rw [name_get hname, if_neg hpriv, hi]
    rfl
  unfold createAnswer
  rw [hname]
  dsimp only
  rw [if_pos hempty]
  refine ⟨_, rfl, ?_⟩
  simp only [hchg, if_true]

/-- **When a request is turned down.** -/
theorem rejected_iff (d : DoubleText) (priv : Priv) (tariffs : TariffsImpl) (req : Request) :
    Rejected d priv tariffs req ↔ TurnedDown d priv tariffs req := by
  constructor
  · intro h
    obtain ⟨srv, hrun, hanswer, -⟩ := h none ""
    obtain ⟨⟨a, ha⟩, hall⟩ := of_run_going hrun
    obtain ⟨td, hname, hreports⟩ := run_reports priv none ha rfl hall
    rw [hreports] at hrun
    obtain ⟨srv₁, hsrv₁, rfl⟩ := Halting.map_eq_going_iff.mp hrun
    cases hderef : tariffs.deref (tariffs.findByName (String.ofList a.value)) with
    | none =>
      rw [hderef] at hname
      unfold createAnswer at hsrv₁
      dsimp only at hsrv₁
      rw [hname] at hsrv₁
      cases hsrv₁
    | some t =>
      have htname := getName_of_deref hderef
      rw [hderef] at hname
      have hname' : td.tariffConf.name = some (String.ofList a.value) :=
        hname.trans (congrArg some htname)
      refine ⟨⟨a, ha, (tariffs.deref_findByName_iff _).mp ⟨t, hderef, htname⟩, ?_⟩, hall⟩
      by_contra hcan
      obtain ⟨srv₂, hsrv₂, hok⟩ := createAnswer_of_can hname' fun h =>
        hcan (h.imp id (Or.imp String.ofList_eq_empty_iff.mp id))
      cases hsrv₁.symm.trans hsrv₂
      exact hanswer hok
  · rintro ⟨⟨a, ha, hknown, hcannot⟩, hall⟩ storeError answer
    obtain ⟨t, hderef, htname⟩ := (tariffs.deref_findByName_iff _).mpr hknown
    obtain ⟨td, hname, hreports⟩ := run_reports priv storeError ha rfl hall
    rw [hderef] at hname
    obtain ⟨srv, hsrv, hanswer, htariffs⟩ :=
      createAnswer_of_cannot (hname.trans (congrArg some htname))
        (hcannot.imp id (Or.imp String.ofList_eq_empty_iff.mpr id))
    rw [hreports, hsrv]
    exact ⟨_, rfl, hanswer, htariffs⟩

/-- **When malformed requests are turned down whole**: never because they are malformed. -/
theorem malformed_rejected_iff (d : DoubleText) (priv : Priv) (tariffs : TariffsImpl) (req : Request) :
    RejectsMalformed d priv tariffs req ↔ req.WellFormed d ∨ TurnedDown d priv tariffs req := by
  unfold RejectsMalformed
  rw [rejected_iff]
  exact ⟨fun h => or_iff_not_imp_left.mpr h, or_iff_not_imp_left.mp⟩

end Whole

/-- `<SetTariff name="t"><Threshold value="abc"/></SetTariff>`. -/
def sampleRequest : Request where
  el := "SetTariff".toList
  attr := [⟨"name".toList, ['t']⟩]
  body := [{ event := .start "Threshold".toList [⟨"value".toList, ['a', 'b', 'c']⟩] },
    { event := .finish "Threshold".toList }]
  isTag := by decide
  nested := ⟨Nat.one_pos, rfl⟩

/-- **A threshold that is no number** is not turned down. -/
theorem malformed_not_rejected :
    ¬ ∃ d : DoubleText,
      RejectsMalformed d Priv.full { tariffs := [TariffImpl.ofName "t"] } sampleRequest := by
  rintro ⟨d, h⟩
  have hmalformed : ¬ sampleRequest.WellFormed d := by
    intro hwell
    obtain ⟨a, ha, zs, hzs⟩ := hwell _ List.mem_cons_self _ _ (.flag .threshold) rfl (by decide)
    obtain rfl := Option.some.inj ha
    have htokens : tokens ['a', 'b', 'c'] = [['a', 'b', 'c']] := List.splitOn_eq_singleton (by decide)
    have hnone := (integersOf_eq_some hzs).2.1 ['a', 'b', 'c'] (by rw [htokens]; exact List.mem_cons_self)
    revert hnone
    decide
  obtain ⟨⟨a, ha, -, hcannot⟩, -⟩ := (rejected_iff d _ _ _).mp (h hmalformed)
  obtain rfl := Option.some.inj ha
  rcases hcannot with hpriv | hempty | hnames
  · exact absurd hpriv (by decide)
  · cases hempty
  · exact hnames List.mem_cons_self

end SetTariff

end Stargazer
