import Stargazer.SrvConf.GetUser
import Stargazer.SrvConf.TariffFields
import Stargazer.Store.Tariffs

set_option relaxedAutoImplicit false
set_option autoImplicit false

/-!
# Lists of tariffs

An answer `GetTariffs` on both sides: `GET_TARIFFS::CreateAnswer` of
`plugins/configuration/sgconfig/parser_tariffs.cpp` writes it, and `GetTariff::Parser` of
`libs/srvconf/parsers/get_tariff.cpp` reads it.  As with users, one parser with one `Info` reads all the
tariffs of the list, and `str2x` looks at `errno` without clearing it before.

A tariff whose name is `error` is taken for an error: nothing is reported of it, and the error waits for
the next tariff.

## Main definitions

* `Stargazer.GetTariff.answerTags` — the answer of the server.
* `Stargazer.GetTariff.parser` — the parser of one tariff, for `Stargazer.Container`.
* `Stargazer.GetTariff.ReadsBack` — the client learns the tariffs of the server.

## Main results

* `Stargazer.GetTariff.run_tariff` — one tariff of the list.
* `Stargazer.GetTariff.readsBack_iff` — when the client learns the tariffs of the server.
-/

namespace Stargazer

namespace GetTariff

open GetUser (checkValue isRange)

/-! ## The server -/

/-- The elements in the order of `CreateAnswer`. -/
def answerFields : List TariffField :=
  (List.finRange 10).map TariffField.time ++
    [TariffField.price .dayA, .price .dayB, .price .nightA, .price .nightB, .flag .threshold,
      .flag .singlePrice, .flag .noDiscount, .fee, .passiveCost, .free, .traffType, .period, .changePolicy,
      .changePolicyTimeout]

/-- The value of an element. -/
def answerText (d : NumberText) (t : TariffData) : TariffField → List Char
  | .fee => d.print t.tariffConf.fee
  | .passiveCost => d.print t.tariffConf.passiveCost
  | .free => d.print t.tariffConf.free
  | .traffType => t.tariffConf.traffType.toString.toList
  | .period => t.tariffConf.period.toString.toList
  | .changePolicy => t.tariffConf.changePolicy.toString.toList
  | .changePolicyTimeout => CString.printInt t.tariffConf.changePolicyTimeout
  | .time i =>
    timeText (t.dirPrice i).hDay (t.dirPrice i).mDay (t.dirPrice i).hNight (t.dirPrice i).mNight
  | .price k => aos2String fun i => d.print (k.get (t.dirPrice i) * ptMega)
  | .flag k => aos2String fun i => CString.printInt (k.get (t.dirPrice i) * 1)

/-- One tariff. -/
def tariffTags (d : NumberText) (t : TariffData) : List Xml.Tag :=
  .start "tariff".toList [⟨"name".toList, t.tariffConf.name.toList⟩] ::
    (answerFields.map (fun f => SrvConf.appendTag f.answerName (answerText d t f)) ++
      [.close "tariff".toList])

/-- `GET_TARIFFS::CreateAnswer`. -/
def answerTags (d : NumberText) (ts : List TariffData) : List Xml.Tag :=
  .start "Tariffs".toList [] :: (ts.flatMap (tariffTags d) ++ [.close "Tariffs".toList])

/-! ## The client -/

/-- What a parameter leaves behind: the `Info`, the result of the parser, and whether `errno` is
`ERANGE`. -/
structure Parsed where
  info : TariffData
  ok : Bool
  erange : Bool

section Parsers

variable (d : NumberText) (erange : Bool) (info : TariffData)

/-- `getValue<double>`. -/
def getDouble (put : Money → TariffData) : Option Xml.Text → Parsed
  | none => ⟨info, true, erange⟩
  | some v => ⟨put (d.strtod v), (d.scan v).isSome, erange || d.range v⟩

/-- `getSlashedValue`; `conv` is `str2x`, and `range` tells what it makes of `errno`. -/
def getSlashedValue {α : Type} (conv : Xml.Text → α × Bool) (range : Xml.Text → Bool)
    (put : DirPriceData → α → DirPriceData) : Option Xml.Text → Parsed
  | none => ⟨info, false, erange⟩
  | some v =>
    let r := getSlashed (fun t => (some (conv t).1, (conv t).2)) 10 (v.splitOn '/')
    ⟨info.putDirs put r.1, r.2, erange || ((v.splitOn '/').take r.1.length).any range⟩

/-- The parser of a parameter, on the value `checkValue` finds; there is no result where a text does not
fit the buffers of `ParseTariffTimeStr`. -/
def parseParam (value : Option Xml.Text) : TariffField → Option Parsed
  | .fee => some (getDouble d erange info (fun x => { info with tariffConf.fee := x }) value)
  | .passiveCost =>
    some (getDouble d erange info (fun x => { info with tariffConf.passiveCost := x }) value)
  | .free => some (getDouble d erange info (fun x => { info with tariffConf.free := x }) value)
  | .traffType =>
    match value with
    | none => some ⟨info, false, erange⟩
    | some v => some ⟨{ info with tariffConf.traffType := TraffType.parse v }, true, erange⟩
  | .period =>
    match value with
    | none => some ⟨info, false, erange⟩
    | some v =>
      if v = "day".toList then some ⟨{ info with tariffConf.period := .day }, true, erange⟩
      else if v = "month".toList then some ⟨{ info with tariffConf.period := .month }, true, erange⟩
      else some ⟨info, false, erange⟩
  | .changePolicy =>
    match value with
    | none => some ⟨info, false, erange⟩
    | some v =>
      if v = "allow".toList then some ⟨{ info with tariffConf.changePolicy := .allow }, true, erange⟩
      else if v = "to_cheap".toList then
        some ⟨{ info with tariffConf.changePolicy := .toCheap }, true, erange⟩
      else if v = "to_expensive".toList then
        some ⟨{ info with tariffConf.changePolicy := .toExpensive }, true, erange⟩
      else if v = "deny".toList then
        some ⟨{ info with tariffConf.changePolicy := .deny }, true, erange⟩
      else some ⟨info, false, erange⟩
  | .changePolicyTimeout =>
    match value with
    | none => some ⟨info, true, erange⟩
    | some v =>
      some ⟨{ info with tariffConf.changePolicyTimeout := (CString.strtol v).1 },
        !(erange || isRange v), erange || isRange v⟩
  | .time i =>
    match value with
    | none => some ⟨info, false, erange⟩
    | some v =>
      match parseTariffTimeStr erange v with
      | none => none
      | some (.error _) => some ⟨info, false, erange⟩
      | some (.ok t) => some ⟨TariffField.putTime i t info, true, erange⟩
  | .price k =>
    some (getSlashedValue erange info (fun t => (d.strtod t, (d.scan t).isSome)) d.range k.put value)
  | .flag k =>
    some (getSlashedValue erange info
      (fun t => ((BitVec.ofInt 32 (CString.strtol t).1).toInt, !(erange || isRange t))) isRange k.put
      value)

end Parsers

/-- `GetTariff::Parser`, and whether `errno` is `ERANGE`. -/
structure State where
  info : TariffData
  depth : ℕ := 0
  parsingAnswer : Bool := false
  error : Xml.Text := []
  erange : Bool

/-- `ParseTariff`. -/
def State.parseTariff (st : State) (el : Xml.Text) (attr : List Xml.Attr) : State :=
  if caseEq el "tariff" then
    match attr with
    | [] => { st with parsingAnswer := true }
    | a :: rest =>
      if caseEq a.value "error" then
        { st with error := rest.head?.elim "Tariff not found.".toList Xml.Attr.value }
      else if caseEq a.name "name" then
        { st with
          parsingAnswer := true
          info.tariffConf.name := String.ofList a.value }
      else { st with parsingAnswer := true }
  else st

/-- The error of `ParseTariffParams`. -/
def invalidParameter (el : Xml.Text) : Xml.Text :=
  "Invalid parameter '".toList ++ el ++ "'.".toList

/-- What the parser of a parameter makes of the state. -/
def State.after (st : State) (el : Xml.Text) (r : Parsed) : State :=
  { st with
    info := r.info
    error := if r.ok then st.error else invalidParameter el
    erange := r.erange }

/-- `ParseTariffParams`. -/
def State.parseTariffParams (d : NumberText) (st : State) (el : Xml.Text) (attr : List Xml.Attr) :
    Option State :=
  match fieldOf TariffField.requestName el with
  | none => some st
  | some f => (parseParam d st.erange st.info (checkValue attr) f).map (st.after el)

/-- `ParseStart`. -/
def State.parseStart (d : NumberText) (st : State) (el : Xml.Text) (attr : List Xml.Attr) :
    Option State :=
  let st := { st with depth := st.depth + 1 }
  let st := if st.depth = 1 then st.parseTariff el attr else st
  if st.depth = 2 ∧ st.parsingAnswer then st.parseTariffParams d el attr else some st

/-- `ParseEnd`. -/
def State.parseEnd (st : State) : State × Option (ElementCallback TariffData) :=
  let st := { st with depth := st.depth - 1 }
  if st.depth = 0 ∧ st.parsingAnswer then
    ({ st with error := [], parsingAnswer := false }, some ⟨st.error, st.info⟩)
  else (st, none)

/-- The parser of the tariffs of a list. -/
def parser (d : NumberText) : ElementParser State TariffData where
  start := State.parseStart d
  finish := fun st _ => st.parseEnd

/-- `ServConf::GetTariffs` on the text of an answer, which `read` parses: what the client is called back
with.  In the beginning the fields of the `Info` are not initialised. -/
def getTariffs (d : NumberText) (read : Xml.Text → Option (List Xml.Event)) (init : TariffData)
    (erange : Bool) (text : Xml.Text) : Option (ElementCallback (List TariffData)) :=
  (read text).bind fun evs =>
    (evs.foldlM (Container.handle (parser d) "tariffs")
      { element := { info := init, erange := erange } }).bind Container.answer

/-! ## What is asked for -/

/-- A tariff of the server whose name can stand in a value. -/
structure WireTariff where
  data : TariffData
  inRange : data.InRange
  plain : Xml.isPlain data.tariffConf.name.toList = true

/-- **The client learns the tariffs of the server**, apart from their numbers with a point. -/
def ReadsBack (d : NumberText) (read : Xml.Text → Option (List Xml.Event)) (init : TariffData)
    (erange : Bool) (ts : List WireTariff) : Prop :=
  ∃ infos, getTariffs d read init erange (Xml.render (answerTags d (ts.map WireTariff.data))) =
      some ⟨[], infos⟩ ∧
    infos.map TariffData.view = ts.map fun t => t.data.view

/-- The times of a direction have no sign and at most eight digits. -/
def IsTimes (x : ℤ × ℤ × ℤ × ℤ) : Prop :=
  IsTimePart x.1 ∧ IsTimePart x.2.1 ∧ IsTimePart x.2.2.1 ∧ IsTimePart x.2.2.2

instance (x : ℤ × ℤ × ℤ × ℤ) : Decidable (IsTimes x) :=
  inferInstanceAs (Decidable (_ ∧ _ ∧ _ ∧ _))

/-- A tariff the client can read: `errno` is not `ERANGE`, the name is not the word for an error, and
the times are short. -/
structure Readable (erange : Bool) (t : TariffData) : Prop where
  errno : erange = false
  name : caseEq t.tariffConf.name.toList "error" = false
  time : ∀ i, IsTimes (TariffField.value t (.time i))

/-! ## The answer is a document -/

/-- A time span can stand in a value. -/
theorem isPlain_timeText (h1 m1 h2 m2 : ℤ) : Xml.isPlain (timeText h1 m1 h2 m2) = true := by
  have hint (z : ℤ) : ∀ c ∈ CString.printInt z, Xml.isPlainChar c = true :=
    List.all_eq_true.mp (isPlain_printInt z)
  simp only [Xml.isPlain, List.all_eq_true, timeText, List.mem_append, List.mem_cons]
  rintro c (hc | rfl | hc | rfl | hc | rfl | hc)
  · exact hint _ c hc
  · decide
  · exact hint _ c hc
  · decide
  · exact hint _ c hc
  · decide
  · exact hint _ c hc

/-- The value of an element can stand in a value. -/
theorem isPlain_answerText (d : NumberText) (t : TariffData) (f : TariffField) :
    Xml.isPlain (answerText d t f) = true := by
  cases f with
  | fee | passiveCost | free => exact d.plain _
  | traffType => cases h : t.tariffConf.traffType <;> rw [answerText, h] <;> decide
  | period => cases h : t.tariffConf.period <;> rw [answerText, h] <;> decide
  | changePolicy => cases h : t.tariffConf.changePolicy <;> rw [answerText, h] <;> decide
  | changePolicyTimeout => exact isPlain_printInt _
  | time i => exact isPlain_timeText _ _ _ _
  | price k => exact isPlain_aos2String fun i => d.plain _
  | flag k => exact isPlain_aos2String fun i => isPlain_printInt _

/-- **The answer is a document.** -/
theorem isDocument_answerTags (d : NumberText) (ts : List WireTariff) :
    Xml.IsDocument (answerTags d (ts.map WireTariff.data)) := by
  have htariff (t : WireTariff) : Xml.IsContent (tariffTags d t.data) := by
    have hinner : Xml.IsContent (answerFields.flatMap fun f =>
        [SrvConf.appendTag f.answerName (answerText d t.data f)]) :=
      Xml.isContent_flatMap fun f _ => Xml.isContent_empty (isName_answerName f)
        (Xml.attrsOk_singleton (by decide) (isPlain_answerText d t.data f))
    rw [← List.map_eq_flatMap] at hinner
    exact hinner.element (by decide) (Xml.attrsOk_singleton (by decide) t.plain)
  refine ⟨"Tariffs".toList, [], _, rfl, by decide, Xml.attrsOk_nil, Xml.isContent_flatMap ?_⟩
  intro t ht
  obtain ⟨w, -, rfl⟩ := List.mem_map.mp ht
  exact htariff w

/-! ## One parameter -/

/-- What the client reads of an element. -/
def clientValue (d : NumberText) (t : TariffData) : (f : TariffField) → f.Value
  | .fee => d.strtod (d.print t.tariffConf.fee)
  | .passiveCost => d.strtod (d.print t.tariffConf.passiveCost)
  | .free => d.strtod (d.print t.tariffConf.free)
  | .price k => fun i => d.strtod (d.print (k.get (t.dirPrice i) * ptMega))
  | .traffType => TariffField.value t .traffType
  | .period => TariffField.value t .period
  | .changePolicy => TariffField.value t .changePolicy
  | .changePolicyTimeout => TariffField.value t .changePolicyTimeout
  | .time i => TariffField.value t (.time i)
  | .flag k => TariffField.value t (.flag k)

theorem clientValue_eq (d : NumberText) (t : TariffData) {f : TariffField} (h : f.isDouble = false) :
    clientValue d t f = f.value t := by
  cases f <;> first | rfl | cases h

/-- **A list** of texts that are all read. -/
theorem getSlashedValue_aos2String {α : Type} {conv : Xml.Text → α × Bool} {range : Xml.Text → Bool}
    (put : DirPriceData → α → DirPriceData) (info : TariffData) {texts : Dir → List Char}
    {value : Dir → α} (hne : ∀ i, texts i ≠ []) (hslash : ∀ i, '/' ∉ texts i)
    (hconv : ∀ i, conv (texts i) = (value i, true)) (hrange : ∀ i, range (texts i) = false) :
    getSlashedValue false info conv range put (some (aos2String texts)) =
      ⟨{ info with dirPrice := fun i => put (info.dirPrice i) (value i) }, true, false⟩ := by
  have hread : getSlashed (fun t => (some (conv t).1, (conv t).2)) 10
      ((aos2String texts).splitOn '/') = ((List.finRange 10).map fun i => some (value i), true) :=
    getSlashed_aos2String hne hslash fun i => by rw [hconv]
  have hany : ∀ n, (((aos2String texts).splitOn '/').take n).any range = false := by
    intro n
    rw [splitOn_aos2String hne hslash, List.any_eq_false]
    intro t ht
    obtain ⟨i, -, rfl⟩ := List.mem_map.mp (List.mem_of_mem_take ht)
    rw [hrange]
    exact Bool.false_ne_true
  simp only [getSlashedValue, hread, hany, TariffData.putDirs_all, Bool.or_self]

/-- A printed number has a digit. -/
theorem printInt_ne_nil (z : ℤ) : CString.printInt z ≠ [] := by
  unfold CString.printInt
  split_ifs
  · exact List.cons_ne_nil _ _
  · exact Nat.toDigits_ne_nil

/-- A printed number is not beyond `long`. -/
theorem isRange_printInt {z : ℤ} (h : IsTime z) : isRange (CString.printInt z) = false := by
  have hclean : (0 : ℤ) ≠ erange := by decide
  rw [isRange, decide_eq_false_iff_not, strtolErrno_eq_erange_iff, CString.scanLong_printInt]
  exact not_or.mpr ⟨not_not.mpr h, hclean⟩

/-- **An element of a readable tariff** is read. -/
theorem parseParam_answerText (d : NumberText) {t : TariffData} (ht : t.InRange)
    (htime : ∀ i, IsTimes (TariffField.value t (.time i))) (info : TariffData) (f : TariffField) :
    parseParam d false info (some (answerText d t f)) f =
      some ⟨f.put (clientValue d t f) info, true, false⟩ := by
  have hdouble (put : Money → TariffData) (x : Money) :
      getDouble d false info put (some (d.print x)) = ⟨put (d.strtod (d.print x)), true, false⟩ := by
    simp only [getDouble, d.reads, d.inRange, Bool.or_self]
  cases f with
  | fee => exact congrArg some (hdouble _ _)
  | passiveCost => exact congrArg some (hdouble _ _)
  | free => exact congrArg some (hdouble _ _)
  | traffType => simp only [parseParam, answerText, TraffType.parse_toString]; rfl
  | period =>
    have hvalue : clientValue d t .period = t.tariffConf.period := rfl
    rw [hvalue]
    cases h : t.tariffConf.period <;> simp only [parseParam, answerText, h] <;> rfl
  | changePolicy =>
    have hvalue : clientValue d t .changePolicy = t.tariffConf.changePolicy := rfl
    rw [hvalue]
    cases h : t.tariffConf.changePolicy <;> simp only [parseParam, answerText, h] <;> rfl
  | changePolicyTimeout =>
    have hz : IsTime t.tariffConf.changePolicyTimeout := ht .changePolicyTimeout
    simp only [parseParam, answerText, isRange_printInt hz, CString.strtol_printInt hz.1 hz.2]
    rfl
  | time i =>
    obtain ⟨h1, h2, h3, h4⟩ := htime i
    have hparse := parseTariffTimeStr_timeText false h1 h2 h3 h4
    simp only [TariffField.value] at hparse
    simp only [parseParam, answerText, hparse]
    rfl
  | price k =>
    refine congrArg some (getSlashedValue_aos2String k.put info (fun i => d.ne_nil _)
      (fun i => d.noSlash _) (fun i => ?_) fun i => d.inRange _)
    rw [d.reads]
    rfl
  | flag k =>
    have hint (i : Dir) : IsInt (k.get (t.dirPrice i)) := ht (.flag k) i
    have hz (i : Dir) : IsTime (k.get (t.dirPrice i) * 1) := by
      have hlow := (hint i).1
      have hhigh := (hint i).2
      exact ⟨by omega, by omega⟩
    refine congrArg some (getSlashedValue_aos2String k.put info (fun i hi => ?_)
      (fun i => CString.notMem_printInt (by decide) (by decide) _) (fun i => ?_)
      fun i => isRange_printInt (hz i))
    · exact printInt_ne_nil _ hi
    · rw [isRange_printInt (hz i), CString.strtol_printInt (hz i).1 (hz i).2, Int.mul_one,
        toInt_ofInt_of_isInt (hint i)]
      rfl

/-! ## The parameters of a tariff -/

/-- Values for some directions leave what has nothing to do with them. -/
theorem get_putDirs {α β : Type} (get : DirPriceData → β) {put : DirPriceData → α → DirPriceData}
    (h : ∀ p v, get (put p v) = get p) (vals : List (Option α)) (t : TariffData) (i : Dir) :
    get ((t.putDirs put vals).dirPrice i) = get (t.dirPrice i) := by
  simp only [TariffData.putDirs]
  split
  · exact h _ _
  · rfl

/-- **Another element keeps the times** of a direction. -/
theorem time_parseParam {d : NumberText} {erange : Bool} {info : TariffData} {value : Option Xml.Text}
    {f : TariffField} {r : Parsed} (h : parseParam d erange info value f = some r) {i : Dir}
    (hf : f ≠ .time i) : TariffField.value r.info (.time i) = TariffField.value info (.time i) := by
  have hlist {α : Type} (conv : Xml.Text → α × Bool) (range : Xml.Text → Bool)
      (put : DirPriceData → α → DirPriceData)
      (hput : ∀ p v, ((put p v).hDay, (put p v).mDay, (put p v).hNight, (put p v).mNight) =
        (p.hDay, p.mDay, p.hNight, p.mNight)) :
      TariffField.value (getSlashedValue erange info conv range put value).info (.time i) =
        TariffField.value info (.time i) := by
    cases value with
    | none => rfl
    | some v => exact get_putDirs (fun p => (p.hDay, p.mDay, p.hNight, p.mNight)) hput _ info i
  cases f with
  | price k =>
    obtain rfl := Option.some.inj h
    exact hlist _ _ _ fun p v => by cases k <;> rfl
  | flag k =>
    obtain rfl := Option.some.inj h
    exact hlist _ _ _ fun p v => by cases k <;> rfl
  | time j =>
    cases value with
    | none => obtain rfl := Option.some.inj h; rfl
    | some v =>
      simp only [parseParam] at h
      split at h
      · cases h
      · obtain rfl := Option.some.inj h
        rfl
      · obtain rfl := Option.some.inj h
        exact TariffField.value_putTime_of_ne hf.symm _ info
  | fee | passiveCost | free =>
    obtain rfl := Option.some.inj h
    cases value <;> rfl
  | traffType | changePolicyTimeout =>
    cases value <;> obtain rfl := Option.some.inj h <;> rfl
  | period | changePolicy =>
    cases value with
    | none => obtain rfl := Option.some.inj h; rfl
    | some v =>
      simp only [parseParam] at h
      split_ifs at h <;> obtain rfl := Option.some.inj h <;> rfl

/-- `errno` is not cleared. -/
theorem erange_parseParam {d : NumberText} {info : TariffData} {value : Option Xml.Text}
    {f : TariffField} {r : Parsed} (h : parseParam d true info value f = some r) :
    r.erange = true := by
  have hlist {α : Type} (conv : Xml.Text → α × Bool) (range : Xml.Text → Bool)
      (put : DirPriceData → α → DirPriceData) :
      (getSlashedValue true info conv range put value).erange = true := by
    cases value <;> rfl
  cases f with
  | price k => obtain rfl := Option.some.inj h; exact hlist _ _ _
  | flag k => obtain rfl := Option.some.inj h; exact hlist _ _ _
  | time j =>
    cases value with
    | none => obtain rfl := Option.some.inj h; rfl
    | some v =>
      simp only [parseParam] at h
      split at h
      · cases h
      · obtain rfl := Option.some.inj h
        rfl
      · obtain rfl := Option.some.inj h
        rfl
  | fee | passiveCost | free =>
    obtain rfl := Option.some.inj h
    cases value <;> rfl
  | traffType | changePolicyTimeout =>
    cases value <;> obtain rfl := Option.some.inj h <;> rfl
  | period | changePolicy =>
    cases value with
    | none => obtain rfl := Option.some.inj h; rfl
    | some v =>
      simp only [parseParam] at h
      split_ifs at h <;> obtain rfl := Option.some.inj h <;> rfl

/-- **The times of a direction that are accepted** are short, and `errno` was not `ERANGE`. -/
theorem of_parseParam_time {d : NumberText} {erange : Bool} {info : TariffData} {v : Xml.Text} {i : Dir}
    {r : Parsed} (h : parseParam d erange info (some v) (.time i) = some r) (hok : r.ok = true) :
    erange = false ∧ IsTimes (TariffField.value r.info (.time i)) := by
  simp only [parseParam] at h
  split at h
  · cases h
  · obtain rfl := Option.some.inj h
    cases hok
  next t hparse =>
    obtain rfl := Option.some.inj h
    have hvalue : TariffField.value (TariffField.putTime i t info) (.time i) = t :=
      TariffField.value_put (.time i) t info
    rw [hvalue]
    exact parseTariffTimeStr_range.1 _ _ _ _ hparse

/-- The elements of an answer, one after another. -/
def readParams (d : NumberText) (t : TariffData) : State → List TariffField → Option State
  | st, [] => some st
  | st, f :: fs =>
    (parseParam d st.erange st.info (some (answerText d t f)) f).bind fun r =>
      readParams d t (st.after f.answerName.toList r) fs

theorem invalidParameter_ne_nil (el : Xml.Text) : invalidParameter el ≠ [] := by
  intro h
  have hfirst := (List.append_eq_nil_iff.mp (List.append_eq_nil_iff.mp h).1).1
  exact absurd hfirst (by decide)

/-- **A readable tariff**: all elements are set, and there is no error. -/
theorem readParams_of_readable (d : NumberText) {t : TariffData} (ht : t.InRange)
    (htime : ∀ i, IsTimes (TariffField.value t (.time i))) (fs : List TariffField) {st : State}
    (hst : st.erange = false) :
    readParams d t st fs =
      some { st with info := tariffFields.putAll st.info (fs.map fun f => ⟨f, clientValue d t f⟩) } := by
  induction fs generalizing st with
  | nil => rfl
  | cons f fs ih =>
    rw [readParams, hst, parseParam_answerText d ht htime, Option.bind_some, ih rfl]
    simp only [State.after, if_true, List.map_cons, Fields.putAll_cons]
    rfl

/-- **A tariff that is read without an error**: there was none before, and if the times of a direction
are among what is read, `errno` was not `ERANGE` and they are short.

**Proof sketch.** Induction on the elements; the ones behind the times keep them. -/
theorem of_readParams {d : NumberText} {t : TariffData} {fs : List TariffField} {st st' : State}
    (h : readParams d t st fs = some st') (herror : st'.error = []) (hnodup : fs.Nodup) :
    st.error = [] ∧
      ∀ i, (.time i ∈ fs → st.erange = false ∧ IsTimes (TariffField.value st'.info (.time i))) ∧
        (.time i ∉ fs → TariffField.value st'.info (.time i) = TariffField.value st.info (.time i)) := by
  induction fs generalizing st with
  | nil =>
    obtain rfl := Option.some.inj h
    exact ⟨herror, fun i => ⟨fun hi => (by cases hi), fun _ => rfl⟩⟩
  | cons f fs ih =>
    rw [List.nodup_cons] at hnodup
    obtain ⟨r, hr, hrest⟩ := Option.bind_eq_some_iff.mp h
    obtain ⟨herr, hih⟩ := ih hrest hnodup.2
    have hok : r.ok = true := by
      by_contra hfalse
      simp only [State.after, hfalse] at herr
      exact invalidParameter_ne_nil _ herr
    simp only [State.after, hok, if_true] at herr hih
    refine ⟨herr, fun i => ⟨fun hi => ?_, fun hi => ?_⟩⟩
    · rcases List.mem_cons.mp hi with rfl | hi
      · obtain ⟨herrno, htimes⟩ := of_parseParam_time hr hok
        rw [← (hih i).2 hnodup.1] at htimes
        exact ⟨herrno, htimes⟩
      · obtain ⟨herrno, htimes⟩ := (hih i).1 hi
        refine ⟨?_, htimes⟩
        cases hst : st.erange with
        | false => rfl
        | true =>
          rw [hst] at hr
          exact absurd (erange_parseParam hr) (by rw [herrno]; exact Bool.false_ne_true)
    · rw [List.mem_cons, not_or] at hi
      rw [(hih i).2 hi.2, time_parseParam hr (Ne.symm hi.1)]

/-- An element inside of a tariff begins. -/
theorem parseStart_param (d : NumberText) {st : State} (hdepth : st.depth = 1)
    (hparsing : st.parsingAnswer = true) {el : Xml.Text} {attr : List Xml.Attr} {f : TariffField}
    (hf : fieldOf TariffField.requestName el = some f) {value : Option Xml.Text}
    (hvalue : checkValue attr = value) :
    st.parseStart d el attr =
      (parseParam d st.erange st.info value f).map ({ st with depth := 2 }.after el) := by
  simp [State.parseStart, State.parseTariffParams, hdepth, hparsing, hf, hvalue]

/-- An element inside of a tariff that is taken for an error begins. -/
theorem parseStart_of_error (d : NumberText) {st : State} (hdepth : st.depth = 1)
    (hparsing : st.parsingAnswer = false) (el : Xml.Text) (attr : List Xml.Attr) :
    st.parseStart d el attr = some { st with depth := 2 } := by
  simp [State.parseStart, hdepth, hparsing]

/-- What is reported of the elements of a tariff. -/
theorem events_params (d : NumberText) (t : TariffData) (f : TariffField) (fs : List TariffField) :
    Xml.events ((f :: fs).map fun f => SrvConf.appendTag f.answerName (answerText d t f)) =
      .start f.answerName.toList [⟨"value".toList, answerText d t f⟩] ::
        .finish f.answerName.toList ::
          Xml.events (fs.map fun f => SrvConf.appendTag f.answerName (answerText d t f)) := rfl

/-- **The elements of a tariff** on the parser. -/
theorem run_params (d : NumberText) (t : TariffData) (fs : List TariffField) {st : State}
    (hdepth : st.depth = 1) (hparsing : st.parsingAnswer = true)
    (cbs : List (ElementCallback TariffData)) :
    (parser d).run (st, cbs) (Xml.events (fs.map fun f =>
        SrvConf.appendTag f.answerName (answerText d t f))) =
      (readParams d t st fs).map fun st => (st, cbs) := by
  induction fs generalizing st with
  | nil => rfl
  | cons f fs ih =>
    have hname : caseEq "value".toList "value" = true := by decide
    have hvalue : checkValue [⟨"value".toList, answerText d t f⟩] = some (answerText d t f) := by
      simp only [checkValue]
      exact if_pos hname
    have hstart := parseStart_param d hdepth hparsing (fieldOf_answerName f) hvalue
    rw [events_params, ElementParser.run_cons, readParams]
    simp only [ElementParser.step, parser, hstart]
    cases parseParam d st.erange st.info (some (answerText d t f)) f with
    | none => rfl
    | some r =>
      have hend : ({ st with depth := 2 }.after f.answerName.toList r).parseEnd =
          (st.after f.answerName.toList r, none) := by
        simp [State.parseEnd, State.after, hdepth]
      simp only [Option.map_some, Option.bind_some]
      rw [ElementParser.run_cons]
      simp only [ElementParser.step, hend, Option.bind_some, Option.toList_none, List.append_nil]
      exact @ih (st.after f.answerName.toList r) hdepth hparsing

/-- The elements of a tariff that is taken for an error. -/
theorem run_params_of_error (d : NumberText) (t : TariffData) (fs : List TariffField) {st : State}
    (hdepth : st.depth = 1) (hparsing : st.parsingAnswer = false)
    (cbs : List (ElementCallback TariffData)) :
    (parser d).run (st, cbs) (Xml.events (fs.map fun f =>
        SrvConf.appendTag f.answerName (answerText d t f))) = some (st, cbs) := by
  induction fs with
  | nil => rfl
  | cons f fs ih =>
    have hstart := parseStart_of_error d hdepth hparsing f.answerName.toList
      [⟨"value".toList, answerText d t f⟩]
    have hend : ({ st with depth := 2 } : State).parseEnd = (st, none) := by
      obtain ⟨info, depth, parsing, error, erange⟩ := st
      obtain rfl : depth = 1 := hdepth
      rfl
    rw [events_params, ElementParser.run_cons]
    simp only [ElementParser.step, parser, hstart, Option.map_some, Option.bind_some]
    rw [ElementParser.run_cons]
    simp only [ElementParser.step, hend, Option.bind_some, Option.toList_none, List.append_nil]
    exact ih

/-! ## The tariffs of a list -/

/-- The parser inside of a tariff. -/
def State.opened (st : State) (name : String) : State :=
  { st with
    info.tariffConf.name := name
    depth := 1
    parsingAnswer := true }

/-- What one tariff does to a parser that is outside of all tariffs, with what it calls back with. -/
def readTariff (d : NumberText) (st : State) (t : TariffData) :
    Option (State × List (ElementCallback TariffData)) :=
  if caseEq t.tariffConf.name.toList "error" then
    some ({ st with error := "Tariff not found.".toList }, [])
  else
    (readParams d t (st.opened t.tariffConf.name) answerFields).map fun st =>
        ({ st with depth := 0, parsingAnswer := false, error := [] }, [⟨st.error, st.info⟩])

/-- The parser is where it was. -/
theorem readParams_eq {d : NumberText} {t : TariffData} {fs : List TariffField} {st st' : State}
    (h : readParams d t st fs = some st') :
    st'.depth = st.depth ∧ st'.parsingAnswer = st.parsingAnswer := by
  induction fs generalizing st with
  | nil =>
    obtain rfl := Option.some.inj h
    exact ⟨rfl, rfl⟩
  | cons f fs ih =>
    obtain ⟨r, -, hrest⟩ := Option.bind_eq_some_iff.mp h
    have hih := ih hrest
    exact hih

/-- A tariff begins. -/
theorem parseStart_tariff (d : NumberText) {st : State} (hdepth : st.depth = 0)
    (hparsing : st.parsingAnswer = false) {el : Xml.Text} {a : Xml.Attr}
    (hel : caseEq el "tariff" = true) (ha : caseEq a.name "name" = true) :
    st.parseStart d el [a] =
      some (if caseEq a.value "error" then
        { st with depth := 1, error := "Tariff not found.".toList }
      else st.opened (String.ofList a.value)) := by
  by_cases herror : caseEq a.value "error" = true
  · simp [State.parseStart, State.parseTariff, hdepth, hparsing, hel, herror]
  · simp [State.parseStart, State.parseTariff, State.opened, hdepth, hel, ha, herror]

/-- **One tariff of a list.** -/
theorem run_tariff (d : NumberText) (t : TariffData) {st : State} (hdepth : st.depth = 0)
    (hparsing : st.parsingAnswer = false) (cbs : List (ElementCallback TariffData)) :
    (parser d).run (st, cbs) (Xml.events (tariffTags d t)) =
      (readTariff d st t).map fun r => (r.1, cbs ++ r.2) := by
  have htariff : caseEq "tariff".toList "tariff" = true := by decide
  have hname : caseEq "name".toList "name" = true := by decide
  have hstart := parseStart_tariff d hdepth hparsing htariff
    (a := ⟨"name".toList, t.tariffConf.name.toList⟩) hname
  rw [tariffTags, Xml.events_element, ElementParser.run_cons, readTariff]
  simp only [ElementParser.step, parser, hstart, Option.map_some, Option.bind_some,
    String.ofList_toList]
  rw [ElementParser.run_append]
  split_ifs with herror
  · have hrun := @run_params_of_error d t answerFields
      { st with depth := 1, error := "Tariff not found.".toList } rfl hparsing cbs
    rw [parser] at hrun
    rw [hrun, Option.bind_some, ElementParser.run_cons]
    simp [ElementParser.step, ElementParser.run, State.parseEnd, hdepth, hparsing]
  · have hrun := @run_params d t answerFields (st.opened t.tariffConf.name) rfl rfl cbs
    rw [parser] at hrun
    rw [hrun]
    cases hread : readParams d t (st.opened t.tariffConf.name) answerFields with
    | none => rfl
    | some st' =>
      obtain ⟨hdepth', hparsing'⟩ := readParams_eq hread
      have hend : st'.parseEnd =
          ({ st' with depth := 0, parsingAnswer := false, error := [] },
            some ⟨st'.error, st'.info⟩) := by
        simp [State.parseEnd, hdepth', hparsing', State.opened]
      rw [Option.map_some, Option.bind_some, ElementParser.run_cons]
      simp only [ElementParser.step, ElementParser.run, hend, Option.bind_some, Option.map_some,
        List.foldlM_nil, Option.toList_some]
      rfl

/-- The tariffs of a list, one after another. -/
def readTariffs (d : NumberText) : State → List TariffData →
    Option (State × List (ElementCallback TariffData))
  | st, [] => some (st, [])
  | st, t :: ts =>
    (readTariff d st t).bind fun r =>
      (readTariffs d r.1 ts).map fun r' => (r'.1, r.2 ++ r'.2)

/-- Outside of all tariffs. -/
theorem readTariff_outside {d : NumberText} {st : State} (hdepth : st.depth = 0)
    (hparsing : st.parsingAnswer = false) {t : TariffData}
    {r : State × List (ElementCallback TariffData)} (h : readTariff d st t = some r) :
    r.1.depth = 0 ∧ r.1.parsingAnswer = false := by
  unfold readTariff at h
  split_ifs at h
  · obtain rfl := Option.some.inj h
    exact ⟨hdepth, hparsing⟩
  · obtain ⟨st', -, rfl⟩ := Option.map_eq_some_iff.mp h
    exact ⟨rfl, rfl⟩

/-- **The tariffs of a list.** -/
theorem run_tariffs (d : NumberText) (ts : List TariffData) {st : State} (hdepth : st.depth = 0)
    (hparsing : st.parsingAnswer = false) (cbs : List (ElementCallback TariffData)) :
    (parser d).run (st, cbs) (Xml.events (ts.flatMap (tariffTags d))) =
      (readTariffs d st ts).map fun r => (r.1, cbs ++ r.2) := by
  induction ts generalizing st cbs with
  | nil => simp [readTariffs, Xml.events, ElementParser.run]
  | cons t ts ih =>
    have hevents : Xml.events ((t :: ts).flatMap (tariffTags d)) =
        Xml.events (tariffTags d t) ++ Xml.events (ts.flatMap (tariffTags d)) := by
      simp [Xml.events]
    rw [hevents, ElementParser.run_append, run_tariff d t hdepth hparsing, readTariffs]
    cases hr : readTariff d st t with
    | none => rfl
    | some r =>
      obtain ⟨hdepth', hparsing'⟩ := readTariff_outside hdepth hparsing hr
      rw [Option.map_some, Option.bind_some, Option.bind_some, ih hdepth' hparsing', Option.map_map]
      congr 1
      funext r'
      simp

/-- **What the client is called back with.** -/
theorem getTariffs_answer {read : Xml.Text → Option (List Xml.Event)} (hread : Xml.Conforming read)
    (d : NumberText) (init : TariffData) (erange : Bool) (ts : List WireTariff) :
    getTariffs d read init erange (Xml.render (answerTags d (ts.map WireTariff.data))) =
      (readTariffs d { info := init, erange := erange } (ts.map WireTariff.data)).map fun r =>
        ⟨Container.lastError [] r.2, Container.delivered r.2⟩ := by
  have hroot : caseEq "Tariffs".toList "tariffs" = true := by decide
  have hbalanced : Xml.balanced [] ((ts.map WireTariff.data).flatMap (tariffTags d)) = true := by
    refine Xml.balanced_flatMap fun t _ => Xml.balanced_element _ _ ?_
    rw [List.map_eq_flatMap]
    exact Xml.balanced_flatMap fun f _ => rfl
  rw [getTariffs, hread _ (isDocument_answerTags d ts), Option.bind_some, answerTags,
    Container.foldlM_handle _ _ hroot _ hbalanced]
  have hrun := @run_tariffs d (ts.map WireTariff.data) { info := init, erange := erange } rfl rfl []
  rw [hrun]
  cases readTariffs d { info := init, erange := erange } (ts.map WireTariff.data) <;> rfl

/-! ## When the client learns the tariffs -/

/-- There is no error iff nothing that was called back with is one. -/
theorem lastError_eq_nil_iff (error : Xml.Text) (cbs : List (ElementCallback TariffData)) :
    Container.lastError error cbs = [] ↔ error = [] ∧ ∀ cb ∈ cbs, cb.error = [] := by
  induction cbs generalizing error with
  | nil => simp [Container.lastError]
  | cons cb cbs ih =>
    have hstep : Container.lastError error (cb :: cbs) =
        Container.lastError (if cb.error = [] then error else cb.error) cbs := rfl
    rw [hstep, ih, List.forall_mem_cons]
    by_cases hcb : cb.error = []
    · simp [hcb]
    · simp [hcb]

/-- Without errors everything is delivered. -/
theorem delivered_of_no_error {cbs : List (ElementCallback TariffData)} (h : ∀ cb ∈ cbs, cb.error = []) :
    Container.delivered cbs = cbs.map ElementCallback.info := by
  rw [Container.delivered, ← List.filterMap_eq_map]
  refine List.filterMap_congr fun cb hcb => ?_
  rw [if_pos (h cb hcb)]
  rfl

/-- At most one callback for each tariff. -/
theorem length_readTariffs_le {d : NumberText} {ts : List TariffData} {st : State}
    {r : State × List (ElementCallback TariffData)} (h : readTariffs d st ts = some r) :
    r.2.length ≤ ts.length := by
  induction ts generalizing st r with
  | nil =>
    obtain rfl := Option.some.inj h
    exact le_rfl
  | cons t ts ih =>
    obtain ⟨r₁, hr₁, hrest⟩ := Option.bind_eq_some_iff.mp h
    obtain ⟨r₂, hr₂, rfl⟩ := Option.map_eq_some_iff.mp hrest
    have hone : r₁.2.length ≤ 1 := by
      unfold readTariff at hr₁
      split_ifs at hr₁
      · obtain rfl := Option.some.inj hr₁
        exact Nat.zero_le 1
      · obtain ⟨st', -, rfl⟩ := Option.map_eq_some_iff.mp hr₁
        exact le_rfl
    have hih := ih hr₂
    rw [List.length_append, List.length_cons]
    omega

theorem nodup_answerFields : answerFields.Nodup := by decide

theorem mem_answerFields (f : TariffField) : f ∈ answerFields := by
  cases f with
  | time i => simp [answerFields]
  | price k => cases k <;> simp [answerFields]
  | flag k => cases k <;> simp [answerFields]
  | _ => simp [answerFields]

/-- **A readable tariff is read.** -/
theorem readTariff_of_readable (d : NumberText) {st : State} (herror : st.error = []) {t : TariffData}
    (ht : t.InRange) (h : Readable st.erange t) :
    ∃ info, readTariff d st t = some ({ st with
        info := info
        depth := 0
        parsingAnswer := false }, [⟨[], info⟩]) ∧ info.view = t.view := by
  have hread := @readParams_of_readable d t ht h.time answerFields (st.opened t.tariffConf.name)
    h.errno
  refine ⟨tariffFields.putAll (st.opened t.tariffConf.name).info
    (answerFields.map fun f => ⟨f, clientValue d t f⟩), ?_, ?_⟩
  · rw [readTariff, if_neg (by rw [h.name]; exact Bool.false_ne_true), hread]
    simp only [Option.map_some, State.opened, herror]
  rw [TariffData.view_eq_iff, name_putAll]
  refine ⟨rfl, fun f hf => ?_⟩
  rw [← clientValue_eq d t hf]
  refine tariffFields.value_putAll_of_mem ?_ (List.mem_map.mpr ⟨f, mem_answerFields f, rfl⟩) _
  rw [List.map_map]
  have hid : (Sigma.fst ∘ fun f => (⟨f, clientValue d t f⟩ : Sigma TariffField.Value)) = id := rfl
  rw [hid, List.map_id]
  exact nodup_answerFields

/-- **A tariff that is read without an error** and as it is, is readable. -/
theorem readable_of_readTariff {d : NumberText} {st : State} {t : TariffData}
    {r : State × List (ElementCallback TariffData)} (h : readTariff d st t = some r)
    (hne : r.2 ≠ []) (herror : ∀ cb ∈ r.2, cb.error = [])
    (hview : ∀ cb ∈ r.2, cb.info.view = t.view) : st.error = [] ∧ Readable st.erange t := by
  unfold readTariff at h
  split_ifs at h with hname
  · obtain rfl := Option.some.inj h
    exact absurd rfl hne
  · obtain ⟨st', hread, rfl⟩ := Option.map_eq_some_iff.mp h
    have hcb := List.mem_singleton_self (⟨st'.error, st'.info⟩ : ElementCallback TariffData)
    obtain ⟨herr, htimes⟩ := of_readParams hread (herror _ hcb) nodup_answerFields
    have hvalue := ((TariffData.view_eq_iff _ _).mp (hview _ hcb)).2
    refine ⟨herr, ⟨((htimes 0).1 (mem_answerFields _)).1, Bool.eq_false_iff.mpr hname, fun i => ?_⟩⟩
    rw [← hvalue (.time i) rfl]
    exact ((htimes i).1 (mem_answerFields _)).2

/-- **The tariffs that are read.**

**Proof sketch.** Induction on the list; a tariff that is not readable gives an error, another tariff or
none, and in the last case there are too few in the end. -/
theorem readTariffs_iff (d : NumberText) (ts : List TariffData) (hts : ∀ t ∈ ts, t.InRange) {st : State}
    (hst : ts ≠ [] → st.error = []) :
    (∃ r, readTariffs d st ts = some r ∧ (∀ cb ∈ r.2, cb.error = []) ∧
        r.2.map (fun cb => cb.info.view) = ts.map TariffData.view) ↔
      ∀ t ∈ ts, Readable st.erange t := by
  induction ts generalizing st with
  | nil => exact iff_of_true ⟨_, rfl, by simp, rfl⟩ (by simp)
  | cons t ts ih =>
    rw [List.forall_mem_cons] at hts ⊢
    have herror := hst (List.cons_ne_nil t ts)
    by_cases hreadable : Readable st.erange t
    · obtain ⟨info, hread, hview⟩ := readTariff_of_readable d herror hts.1 hreadable
      have hih := @ih hts.2 { st with info := info, depth := 0, parsingAnswer := false }
        fun _ => herror
      rw [and_iff_right hreadable, ← hih]
      simp only [readTariffs, hread, Option.bind_some, Option.map_eq_some_iff]
      constructor
      · rintro ⟨_, ⟨r, hr, rfl⟩, herr, hviews⟩
        exact ⟨r, hr, fun cb hcb => herr cb (List.mem_append_right _ hcb), (List.cons.inj hviews).2⟩
      · rintro ⟨r, hr, herr, hviews⟩
        refine ⟨_, ⟨r, hr, rfl⟩, ?_, congrArg₂ List.cons hview hviews⟩
        rw [List.singleton_append, List.forall_mem_cons]
        exact ⟨rfl, herr⟩
    · refine iff_of_false ?_ fun h => hreadable h.1
      rintro ⟨r, hr, herr, hviews⟩
      obtain ⟨r₁, hr₁, hrest⟩ := Option.bind_eq_some_iff.mp hr
      obtain ⟨r₂, hr₂, rfl⟩ := Option.map_eq_some_iff.mp hrest
      have hlen := congrArg List.length hviews
      have hle := length_readTariffs_le hr₂
      simp only [List.length_map, List.length_append, List.length_cons] at hlen
      obtain ⟨cb, cbs, hcbs⟩ := List.exists_cons_of_length_pos (l := r₁.2) (by omega)
      have hone : cbs = [] := by
        have hlen₁ : r₁.2.length ≤ 1 := by
          have hsingle : readTariffs d st [t] = some (r₁.1, r₁.2 ++ []) := by
            rw [readTariffs, hr₁, Option.bind_some, readTariffs, Option.map_some]
          have hle₁ := length_readTariffs_le hsingle
          simpa using hle₁
        rw [hcbs, List.length_cons] at hlen₁
        exact List.length_eq_zero_iff.mp (by omega)
      subst hone
      rw [hcbs] at herr hviews
      refine hreadable (readable_of_readTariff hr₁ (by rw [hcbs]; exact List.cons_ne_nil _ _) ?_ ?_).2
      · intro cb' hcb'
        rw [hcbs] at hcb'
        exact herr cb' (List.mem_append_left _ hcb')
      · intro cb' hcb'
        rw [hcbs, List.mem_singleton] at hcb'
        rw [hcb']
        exact (List.cons.inj hviews).1

/-- **When the client learns the tariffs of the server.** -/
theorem readsBack_iff {read : Xml.Text → Option (List Xml.Event)} (hread : Xml.Conforming read)
    (d : NumberText) (init : TariffData) (erange : Bool) (ts : List WireTariff) :
    ReadsBack d read init erange ts ↔ ∀ t ∈ ts, Readable erange t.data := by
  have hrange : ∀ t ∈ ts.map WireTariff.data, t.InRange := by
    intro t ht
    obtain ⟨w, -, rfl⟩ := List.mem_map.mp ht
    exact w.inRange
  have hiff := @readTariffs_iff d (ts.map WireTariff.data) hrange
    { info := init, erange := erange } fun _ => rfl
  rw [List.forall_mem_map] at hiff
  rw [← hiff, ReadsBack, getTariffs_answer hread]
  constructor
  · rintro ⟨infos, hinfos, hviews⟩
    obtain ⟨r, hr, heq⟩ := Option.map_eq_some_iff.mp hinfos
    obtain ⟨hlast, rfl⟩ := ElementCallback.mk.inj heq
    have herror := ((lastError_eq_nil_iff [] r.2).mp hlast).2
    refine ⟨r, hr, herror, ?_⟩
    rw [delivered_of_no_error herror, List.map_map] at hviews
    rw [List.map_map]
    exact hviews
  · rintro ⟨r, hr, herror, hviews⟩
    refine ⟨Container.delivered r.2, ?_, ?_⟩
    · rw [hr, Option.map_some, (lastError_eq_nil_iff [] r.2).mpr ⟨rfl, herror⟩]
    · rw [List.map_map] at hviews
      rw [delivered_of_no_error herror, List.map_map]
      exact hviews

end GetTariff

end Stargazer
