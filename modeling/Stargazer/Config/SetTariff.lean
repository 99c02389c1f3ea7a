import Stargazer.Config.SlashedList
import Stargazer.Lib.Halting
import Stargazer.Store.Tariffs
import Stargazer.Tariffs.TariffsImpl

set_option relaxedAutoImplicit false
set_option autoImplicit false

/-!
# Reading a request that changes a tariff

`CHG_TARIFF::Start`, `CHG_TARIFF::CreateAnswer` and `BASE_PARSER::End` of
`plugins/configuration/sgconfig`: the request begins with the data of the tariff it names, if there is
such a tariff, the elements replace some of them, and at its end the tariff is changed.  What `Start`
returns is not looked at, so that a request goes on after an error.

`errno` may have any value when a report comes: `str2x` looks at it.

## Main definitions

* `Stargazer.TariffDataOpt` — the data of a tariff, as far as they are known.
* `Stargazer.SetTariff.handle` — one report of the XML parser.
* `Stargazer.SetTariff.Guard` — the reports at which nothing is missing.

## Main results

* `Stargazer.TariffDataOpt.get_ofData` — the data of a tariff come through.
* `Stargazer.SetTariff.handle_ne_failed_iff` — when something is missing.
* `Stargazer.SetTariff.name_handle` — the name stays the one of the tariff that was found.
-/

namespace Stargazer

/-! ## Data that need not be there -/

/-- `DirPriceDataOpt`. -/
structure DirPriceDataOpt where
  hDay : Option ℤ := none
  mDay : Option ℤ := none
  hNight : Option ℤ := none
  mNight : Option ℤ := none
  priceDayA : Option Money := none
  priceDayB : Option Money := none
  priceNightA : Option Money := none
  priceNightB : Option Money := none
  threshold : Option ℤ := none
  singlePrice : Option ℤ := none
  noDiscount : Option ℤ := none

/-- `TariffConfOpt`. -/
structure TariffConfOpt where
  fee : Option Money := none
  free : Option Money := none
  traffType : Option TraffType := none
  passiveCost : Option Money := none
  name : Option String := none
  period : Option Period := none
  changePolicy : Option ChangePolicy := none
  changePolicyTimeout : Option Time := none

/-- `TariffDataOpt`. -/
structure TariffDataOpt where
  tariffConf : TariffConfOpt := {}
  dirPrice : Dir → DirPriceDataOpt := fun _ => {}

/-- `DirPriceDataOpt::operator=`. -/
def DirPriceDataOpt.ofData (p : DirPriceData) : DirPriceDataOpt where
  hDay := some p.hDay
  mDay := some p.mDay
  hNight := some p.hNight
  mNight := some p.mNight
  priceDayA := some p.priceDayA
  priceDayB := some p.priceDayB
  priceNightA := some p.priceNightA
  priceNightB := some p.priceNightB
  threshold := some p.threshold
  singlePrice := some p.singlePrice
  noDiscount := some p.noDiscount

/-- `DirPriceDataOpt::get`. -/
def DirPriceDataOpt.get (p : DirPriceDataOpt) (defaultValue : DirPriceData) : DirPriceData where
  hDay := p.hDay.getD defaultValue.hDay
  mDay := p.mDay.getD defaultValue.mDay
  hNight := p.hNight.getD defaultValue.hNight
  mNight := p.mNight.getD defaultValue.mNight
  priceDayA := p.priceDayA.getD defaultValue.priceDayA
  priceDayB := p.priceDayB.getD defaultValue.priceDayB
  priceNightA := p.priceNightA.getD defaultValue.priceNightA
  priceNightB := p.priceNightB.getD defaultValue.priceNightB
  threshold := p.threshold.getD defaultValue.threshold
  singlePrice := p.singlePrice.getD defaultValue.singlePrice
  noDiscount := p.noDiscount.getD defaultValue.noDiscount

/-- `TariffConfOpt::operator=`. -/
def TariffConfOpt.ofConf (c : TariffConf) : TariffConfOpt where
  fee := some c.fee
  free := some c.free
  traffType := some c.traffType
  passiveCost := some c.passiveCost
  name := some c.name
  period := some c.period
  changePolicy := some c.changePolicy
  changePolicyTimeout := some c.changePolicyTimeout

/-- `TariffConfOpt::get`. -/
def TariffConfOpt.get (c : TariffConfOpt) (defaultValue : TariffConf) : TariffConf where
  fee := c.fee.getD defaultValue.fee
  free := c.free.getD defaultValue.free
  traffType := c.traffType.getD defaultValue.traffType
  passiveCost := c.passiveCost.getD defaultValue.passiveCost
  name := c.name.getD defaultValue.name
  period := c.period.getD defaultValue.period
  changePolicy := c.changePolicy.getD defaultValue.changePolicy
  changePolicyTimeout := c.changePolicyTimeout.getD defaultValue.changePolicyTimeout

namespace TariffDataOpt

/-- `TariffDataOpt::operator=`. -/
def ofData (t : TariffData) : TariffDataOpt where
  tariffConf := .ofConf t.tariffConf
  dirPrice := fun i => .ofData (t.dirPrice i)

/-- `TariffDataOpt::get`. -/
def get (td : TariffDataOpt) (defaultValue : TariffData) : TariffData where
  tariffConf := td.tariffConf.get defaultValue.tariffConf
  dirPrice := fun i => (td.dirPrice i).get (defaultValue.dirPrice i)

/-- **The data of a tariff come through.** -/
theorem get_ofData (t defaultValue : TariffData) : (ofData t).get defaultValue = t := rfl

/-- A list of values for the first directions. -/
def putDirs {α : Type} (put : DirPriceDataOpt → α → DirPriceDataOpt) (vals : List α)
    (td : TariffDataOpt) : TariffDataOpt :=
  { td with
    dirPrice := fun i =>
      match vals[i.val]? with
      | some v => put (td.dirPrice i) v
      | none => td.dirPrice i }

/-- The times of a direction. -/
def putTime (i : Dir) (t : ℤ × ℤ × ℤ × ℤ) (td : TariffDataOpt) : TariffDataOpt :=
  { td with
    dirPrice := Function.update td.dirPrice i
      { td.dirPrice i with hDay := some t.1, mDay := some t.2.1, hNight := some t.2.2.1,
                           mNight := some t.2.2.2 } }

/-- A list of values changes nothing but the prices. -/
@[simp] theorem tariffConf_putDirs {α : Type} (put : DirPriceDataOpt → α → DirPriceDataOpt)
    (vals : List α) (td : TariffDataOpt) : (td.putDirs put vals).tariffConf = td.tariffConf := rfl

@[simp] theorem tariffConf_putTime (i : Dir) (t : ℤ × ℤ × ℤ × ℤ) (td : TariffDataOpt) :
    (td.putTime i t).tariffConf = td.tariffConf := rfl

end TariffDataOpt

/-- A price of a direction. -/
def PriceKind.putOpt (k : PriceKind) (p : DirPriceDataOpt) (x : Money) : DirPriceDataOpt :=
  match k with
  | .dayA => { p with priceDayA := some x }
  | .dayB => { p with priceDayB := some x }
  | .nightA => { p with priceNightA := some x }
  | .nightB => { p with priceNightB := some x }

/-- A whole number of a direction. -/
def FlagKind.putOpt (k : FlagKind) (p : DirPriceDataOpt) (x : ℤ) : DirPriceDataOpt :=
  match k with
  | .threshold => { p with threshold := some x }
  | .singlePrice => { p with singlePrice := some x }
  | .noDiscount => { p with noDiscount := some x }

/-- One report of the XML parser, and whether `errno` is `ERANGE` when it comes. -/
structure Report where
  event : Xml.Event
  erange : Bool := false

namespace SetTariff

open SlashedList

/-! ## The server -/

/-- What the first attribute of an element does. -/
def readValue (d : DoubleText) (erange : Bool) (td : TariffDataOpt) (value : List Char) :
    TariffField → Halting TariffDataOpt
  | .price k =>
    match SlashedList.string2AOS (str2resDouble d ptMega) erange value with
    | some r => .going (td.putDirs k.putOpt r.stored)
    | none => .failed
  | .flag k =>
    match SlashedList.string2AOS (str2res 1) erange value with
    | some r => .going (td.putDirs k.putOpt r.stored)
    | none => .failed
  | .time i =>
    match parseTariffTimeStr erange value with
    -- a text that does not fit its buffer
    | none => .stopped
    | some (.error _) => .going td
    | some (.ok t) => .going (td.putTime i t)
  | .fee => .going { td with tariffConf.fee := (d.scan value).or td.tariffConf.fee }
  | .passiveCost =>
    .going { td with tariffConf.passiveCost := (d.scan value).or td.tariffConf.passiveCost }
  | .free => .going { td with tariffConf.free := (d.scan value).or td.tariffConf.free }
  | .traffType => .going { td with tariffConf.traffType := some (TraffType.parse value) }
  | .period => .going { td with tariffConf.period := some (Period.parse value) }
  | .changePolicy => .going { td with tariffConf.changePolicy := some (ChangePolicy.parse value) }
  | .changePolicyTimeout =>
    .going { td with
      tariffConf.changePolicyTimeout :=
        ((str2x 64 erange value).1.map BitVec.toInt).or td.tariffConf.changePolicyTimeout }

/-- What an element inside of the request does.  It stops where the null pointer of an element without
attributes is followed. -/
def readElement (d : DoubleText) (erange : Bool) (td : TariffDataOpt) (el : List Char)
    (attr : List Xml.Attr) : Halting TariffDataOpt :=
  match fieldOf TariffField.answerName el with
  | none => .going td
  | some f =>
    match attr.head? with
    | none => .stopped
    | some a => readValue d erange td a.value f

/-- The parser: `m_depth` and `td`. -/
structure State where
  depth : ℕ := 0
  td : TariffDataOpt := {}

/-- `CHG_TARIFF::Start`. -/
def start (d : DoubleText) (erange : Bool) (tariffs : TariffsImpl) (st : State) (el : List Char)
    (attr : List Xml.Attr) : Halting State :=
  if st.depth = 0 then
    if caseEq el "SetTariff" then
      match attr.head? with
      | none => .stopped
      | some a =>
        match tariffs.deref (tariffs.findByName (String.ofList a.value)) with
        | some tariff => .going ⟨1, .ofData tariff⟩
        | none => .going { st with depth := 1 }
    else .going { st with depth := 1 }
  else (readElement d erange st.td el attr).map fun td => ⟨st.depth + 1, td⟩

/-- The parser, the tariffs, and `m_answer`. -/
structure Server where
  parser : State := {}
  tariffs : TariffsImpl
  answer : String := ""

/-- `CHG_TARIFF::CreateAnswer`; `storeError` is what the store complains about, if it does.  It fails
where the name is taken out of an `optional` without one. -/
def createAnswer (priv : Priv) (storeError : Option String) (srv : Server) : Halting Server :=
  match srv.parser.td.tariffConf.name with
  | none => .failed
  | some name =>
    if name ≠ "" then
      let r := srv.tariffs.chg priv storeError (srv.parser.td.get { tariffConf := { name := "" } })
      let answer :=
        if r.1 then "<SetTariff Result=\"ok\"/>"
        else "<SetTariff Result=\"Change tariff error! " ++ r.2.strError ++ "\"/>"
      .going { srv with tariffs := r.2, answer := answer }
    else .going { srv with answer := "<SetTariff Result=\"Change tariff error!\"/>" }

/-- One report of the XML parser: `CHG_TARIFF::Start`, or `BASE_PARSER::End`.  The parser does not
report an end without a start. -/
def handle (d : DoubleText) (priv : Priv) (storeError : Option String) (srv : Server) (r : Report) :
    Halting Server :=
  match r.event with
  | .start el attr =>
    (start d r.erange srv.tariffs srv.parser el attr).map fun st => { srv with parser := st }
  | .finish el =>
    let up (srv : Server) : Server :=
      { srv with parser := { srv.parser with depth := srv.parser.depth - 1 } }
    if srv.parser.depth = 0 then .stopped
    else if srv.parser.depth < 2 then
      if caseEq el "SetTariff" then (createAnswer priv storeError srv).map up else .going srv
    else .going (up srv)

/-! ## When something is missing -/

/-- The texts of a list fit the array: there are at most `DIR_NUM`, or one that stands for an element
is refused. -/
def Fits {α : Type} (conv : Bool → List Char → Option α × Bool) (erange : Bool) (value : List Char) :
    Prop :=
  (tokens value).length ≤ 10 ∨ ∃ t ∈ (tokens value).take 10, Refused conv erange t

/-- The value of an element fits the array, if it goes into one. -/
def FitsField (d : DoubleText) (erange : Bool) (value : List Char) : TariffField → Prop
  | .price _ => Fits (str2resDouble d ptMega) erange value
  | .flag _ => Fits (str2res 1) erange value
  | _ => True

/-- **The reports at which nothing is missing**: lists fit the array, and when the request ends it has
found its tariff. -/
def Guard (d : DoubleText) (srv : Server) (r : Report) : Prop :=
  match r.event with
  | .start el attr =>
    srv.parser.depth ≠ 0 → ∀ f a, fieldOf TariffField.answerName el = some f → attr.head? = some a →
      FitsField d r.erange a.value f
  | .finish el =>
    srv.parser.depth = 1 → caseEq el "SetTariff" = true →
      srv.parser.td.tariffConf.name.isSome = true

theorem keeps_str2resDouble (d : DoubleText) (divisor : Money) : Keeps (str2resDouble d divisor) :=
  fun _ _ _ _ => rfl

/-- **When a list stays inside of the array.** -/
theorem string2AOS_ne_none_iff {α : Type} {conv : Bool → List Char → Option α × Bool}
    (hkeep : Keeps conv) (erange : Bool) (value : List Char) :
    SlashedList.string2AOS conv erange value ≠ none ↔ Fits conv erange value := by
  rw [SlashedList.string2AOS, ne_eq, string2AOSLoop_eq_none_iff hkeep, Fits, not_and_or]
  push Not
  rfl

/-- The value of an element. -/
theorem readValue_ne_failed_iff (d : DoubleText) (erange : Bool) (td : TariffDataOpt)
    (value : List Char) (f : TariffField) :
    readValue d erange td value f ≠ .failed ↔ FitsField d erange value f := by
  cases f with
  | price k =>
    rw [FitsField, ← string2AOS_ne_none_iff (keeps_str2resDouble d ptMega), readValue]
    cases SlashedList.string2AOS (str2resDouble d ptMega) erange value <;> simp
  | flag k =>
    rw [FitsField, ← string2AOS_ne_none_iff (keeps_str2res 1), readValue]
    cases SlashedList.string2AOS (str2res 1) erange value <;> simp
  | time i =>
    refine iff_of_true ?_ trivial
    simp only [readValue]
    split <;> simp
  | fee => exact iff_of_true (Halting.going_ne_failed _) trivial
  | passiveCost => exact iff_of_true (Halting.going_ne_failed _) trivial
  | free => exact iff_of_true (Halting.going_ne_failed _) trivial
  | traffType => exact iff_of_true (Halting.going_ne_failed _) trivial
  | period => exact iff_of_true (Halting.going_ne_failed _) trivial
  | changePolicy => exact iff_of_true (Halting.going_ne_failed _) trivial
  | changePolicyTimeout => exact iff_of_true (Halting.going_ne_failed _) trivial

/-- An element. -/
theorem readElement_ne_failed_iff (d : DoubleText) (erange : Bool) (td : TariffDataOpt)
    (el : List Char) (attr : List Xml.Attr) :
    readElement d erange td el attr ≠ .failed ↔
      ∀ f a, fieldOf TariffField.answerName el = some f → attr.head? = some a →
        FitsField d erange a.value f := by
  unfold readElement
  cases hf : fieldOf TariffField.answerName el with
  | none => exact iff_of_true (Halting.going_ne_failed td) fun f a hf => by cases hf
  | some f =>
    cases ha : attr.head? with
    | none => exact iff_of_true Halting.stopped_ne_failed fun f a _ ha => by cases ha
    | some a =>
      refine (readValue_ne_failed_iff d erange td a.value f).trans ⟨fun h f' a' hf' ha' => ?_, fun h => ?_⟩
      · cases hf'
        cases ha'
        exact h
      · exact h f a rfl rfl

/-- The end of a request. -/
theorem createAnswer_ne_failed_iff (priv : Priv) (storeError : Option String) (srv : Server) :
    createAnswer priv storeError srv ≠ .failed ↔ srv.parser.td.tariffConf.name.isSome = true := by
  unfold createAnswer
  cases srv.parser.td.tariffConf.name with
  | none => exact iff_of_false (fun h => h rfl) Bool.false_ne_true
  | some name =>
    dsimp only
    split <;> exact iff_of_true (Halting.going_ne_failed _) rfl

/-- **When something is missing** at a report. -/
theorem handle_ne_failed_iff (d : DoubleText) (priv : Priv) (storeError : Option String) (srv : Server)
    (r : Report) : handle d priv storeError srv r ≠ .failed ↔ Guard d srv r := by
  obtain ⟨event, erange⟩ := r
  cases event with
  | start el attr =>
    simp only [handle, Guard, ne_eq, Halting.map_eq_failed_iff, start]
    by_cases hdepth : srv.parser.depth = 0
    · rw [if_pos hdepth]
      refine iff_of_true ?_ fun h => absurd hdepth h
      split_ifs
      · split
        · exact Halting.stopped_ne_failed
        · split <;> exact Halting.going_ne_failed _
      · exact not_false
    · rw [if_neg hdepth, Halting.map_eq_failed_iff]
      exact (readElement_ne_failed_iff d erange srv.parser.td el attr).trans
        ⟨fun h _ => h, fun h => h hdepth⟩
  | finish el =>
    simp only [handle, Guard]
    split_ifs with hzero hlt hel
    · exact iff_of_true Halting.stopped_ne_failed fun h => by omega
    · rw [ne_eq, Halting.map_eq_failed_iff, ← ne_eq, createAnswer_ne_failed_iff]
      exact ⟨fun h _ _ => h, fun h => h (by omega) hel⟩
    · exact iff_of_true (Halting.going_ne_failed _) fun _ h => absurd h hel
    · exact iff_of_true (Halting.going_ne_failed _) fun h => by omega

/-! ## The name -/

/-- The value of an element does not change the name. -/
theorem name_readValue {d : DoubleText} {erange : Bool} {td td' : TariffDataOpt} {value : List Char}
    {f : TariffField} (h : readValue d erange td value f = .going td') :
    td'.tariffConf.name = td.tariffConf.name := by
  cases f with
  | price k =>
    simp only [readValue] at h
    split at h
    · cases h
      rw [TariffDataOpt.tariffConf_putDirs]
    · cases h
  | flag k =>
    simp only [readValue] at h
    split at h
    · cases h
      rw [TariffDataOpt.tariffConf_putDirs]
    · cases h
  | time i =>
    simp only [readValue] at h
    split at h
    · cases h
    · cases h
      rfl
    · cases h
      rw [TariffDataOpt.tariffConf_putTime]
  | changePolicyTimeout => cases h; rfl
  | fee => cases h; rfl
  | passiveCost => cases h; rfl
  | free => cases h; rfl
  | traffType => cases h; rfl
  | period => cases h; rfl
  | changePolicy => cases h; rfl

/-- **Inside of a request the name stays**, so that at its end there is one iff a tariff was found when
it began. -/
theorem name_handle {d : DoubleText} {priv : Priv} {storeError : Option String} {srv srv' : Server}
    {r : Report} (hdepth : srv.parser.depth ≠ 0)
    (h : handle d priv storeError srv r = .going srv') :
    srv'.parser.td.tariffConf.name = srv.parser.td.tariffConf.name := by
  obtain ⟨event, erange⟩ := r
  cases event with
  | start el attr =>
    simp only [handle, start, if_neg hdepth] at h
    obtain ⟨st, hst, rfl⟩ := Halting.map_eq_going_iff.1 h
    obtain ⟨td, htd, rfl⟩ := Halting.map_eq_going_iff.1 hst
    unfold readElement at htd
    cases hf : fieldOf TariffField.answerName el with
    | none =>
      rw [hf] at htd
      cases htd
      rfl
    | some f =>
      cases ha : attr.head? with
      | none =>
        rw [hf, ha] at htd
        cases htd
      | some a =>
        rw [hf, ha] at htd
        exact name_readValue htd
  | finish el =>
    simp only [handle, if_neg hdepth] at h
    split_ifs at h
    · obtain ⟨srv₁, hsrv₁, rfl⟩ := Halting.map_eq_going_iff.1 h
      unfold createAnswer at hsrv₁
      split at hsrv₁
      · cases hsrv₁
      · split_ifs at hsrv₁ <;> cases hsrv₁ <;> rfl
    · cases h
      rfl
    · cases h
      rfl

end SetTariff

end Stargazer
