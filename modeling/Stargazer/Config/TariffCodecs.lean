import Stargazer.Config.TimeSpans
import Stargazer.SrvConf.ChgTariff
import Stargazer.Config.TariffRequests

set_option relaxedAutoImplicit false
set_option autoImplicit false

/-!
# The codecs of tariffs

A tariff goes from the server to a client as a part of an answer `GetTariffs`, and back as a request
`SetTariff` of what is to be changed.  Here the request of `ChgTariff::serialize` is given to
`CHG_TARIFF`, with any `errno` when its elements are read; together with `Stargazer.SrvConf.GetTariff` this is
the whole way of a tariff.

## Main definitions

* `Stargazer.TariffCodecs.sendTariff` — a request on its way to the server.
* `Stargazer.TariffCodecs.landed` — what the server makes of an element.
* `Stargazer.TariffCodecs.Changes` — exactly what is sent is changed.
* `Stargazer.TariffCodecs.Understood` — a request the server understands.

## Main results

* `Stargazer.TariffCodecs.readValue_requestText` — an element.
* `Stargazer.TariffCodecs.run_elements` — the elements of a request.
* `Stargazer.TariffCodecs.tariff_codecs_agree_iff` — when the codecs agree.
-/

namespace Stargazer

namespace TariffCodecs

open ChgTariff SetTariff

/-! ## The way of a request -/

/-- The reports of the XML parser; `errno` tells whether it is `ERANGE` when they come.  No element is sent
twice, so that the report says which one it is. -/
def reports (errno : Xml.Event → Bool) (evs : List Xml.Event) : List Report :=
  evs.map fun ev => ⟨ev, errno ev⟩

/-- A client sends what it wants changed, and `read` parses the text.  There is no server afterwards if
there was an exception on either side or a text did not fit its buffer. -/
def sendTariff (d : NumberText) (read : Xml.Text → Option (List Xml.Event)) (errno : Xml.Event → Bool)
    (priv : Priv) (storeError : Option String) (tariffs : TariffsImpl) (data : TariffDataOpt) :
    Option Server :=
  (chgTariff d data).bind fun tags =>
    (read (Xml.render tags)).bind fun evs =>
      (Halting.run (handle d.toDoubleText priv storeError) { tariffs := tariffs }
        (reports errno evs)).state?

/-! ## What is asked for -/

/-- The fields of a direction that have a value. -/
def shape (p : DirPriceDataOpt) : List Bool :=
  [p.hDay.isSome, p.mDay.isSome, p.hNight.isSome, p.mNight.isSome, p.priceDayA.isSome,
    p.priceDayB.isSome, p.priceNightA.isSome, p.priceNightB.isSome, p.threshold.isSome,
    p.singlePrice.isSome, p.noDiscount.isSome]

/-- A request for a tariff on the list, whose name can stand in a value: what is set for one direction is
set for all of them. -/
structure TariffRequest (tariffs : TariffsImpl) where
  data : TariffDataOpt
  tariff : TariffData
  index : ℕ
  listed : tariffs.tariffs[index]? = some tariff
  found : tariffs.findIdx tariff.tariffConf.name = some index
  name : data.tariffConf.name = some tariff.tariffConf.name
  plain : Xml.isPlain tariff.tariffConf.name.toList = true
  allDirections : ∀ i j, shape (data.dirPrice i) = shape (data.dirPrice j)
  inRange : ∀ f v, sent data f = some v → f.IsValue v

/-- **Exactly what is sent is changed**, and to what is sent; the values of numbers with a point are not
looked at. -/
structure Changed (data : TariffDataOpt) (t t' : TariffData) : Prop where
  whole : t'.view = (data.get t).view
  double : ∀ f : TariffField, f.isDouble = true → sent data f = none → f.value t' = f.value t

/-- **A request changes what is sent**, and nothing else on the list. -/
def Changes (d : NumberText) (read : Xml.Text → Option (List Xml.Event)) (errno : Xml.Event → Bool)
    (priv : Priv) (storeError : Option String) (tariffs : TariffsImpl) (req : TariffRequest tariffs) :
    Prop :=
  ∃ srv t', sendTariff d read errno priv storeError tariffs req.data = some srv ∧
    srv.tariffs.tariffs = tariffs.tariffs.set req.index t' ∧ Changed req.data req.tariff t'

/-- Is `errno` `ERANGE` when the element is read? -/
def errnoAt (d : NumberText) (errno : Xml.Event → Bool) (f : TariffField) (v : f.Value) : Bool :=
  errno (.start f.requestName.toList [⟨"value".toList, requestText d f v⟩])

/-- The value arrives, or it is passed over and the tariff has it already. -/
def Arrives (erange : Bool) (t : TariffData) : (f : TariffField) → f.Value → Prop
  | .time i, x =>
    (erange = false ∧ GetTariff.IsTimes x) ∨
      ((SignedMinutes x ∨ erange = true ∧ ReadTimes erange x) ∧ TariffField.value t (.time i) = x)
  | .flag k, x => erange = false ∨ TariffField.value t (.flag k) = x
  | .changePolicyTimeout, x => erange = false ∨ TariffField.value t .changePolicyTimeout = x
  | _, _ => True

/-- The value fits the buffers, and the tariff has it already. -/
def Stays (erange : Bool) (t : TariffData) : (f : TariffField) → f.Value → Prop
  | .time i, x => (SignedMinutes x ∨ ReadTimes erange x) ∧ TariffField.value t (.time i) = x
  | .flag k, x => TariffField.value t (.flag k) = x
  | .traffType, x => t.tariffConf.traffType = x
  | .period, x => t.tariffConf.period = x
  | .changePolicy, x => t.tariffConf.changePolicy = x
  | .changePolicyTimeout, x => t.tariffConf.changePolicyTimeout = x
  | .fee, _ | .passiveCost, _ | .free, _ | .price _, _ => True

/-- The tariff a request begins with: what `FindByName` finds. -/
def foundByName (t : TariffData) : TariffData :=
  if t.tariffConf.name = noTariffName then TariffImpl.ofName noTariffName else t

/-- The request is let through: the administrator may change tariffs, and there is a name. -/
def Accepted (priv : Priv) (t : TariffData) : Prop := priv.tariffChg ≠ 0 ∧ t.tariffConf.name ≠ ""

instance (priv : Priv) (t : TariffData) : Decidable (Accepted priv t) :=
  inferInstanceAs (Decidable (_ ∧ _))

/-- **A request the server understands**: the times of each direction are sent together, what is sent
arrives, and the tariff that is found has what is not sent.  If the request is not let through, the
tariff has already what is sent. -/
structure Understood (d : NumberText) (errno : Xml.Event → Bool) (priv : Priv) {tariffs : TariffsImpl}
    (req : TariffRequest tariffs) : Prop where
  together : TimesTogether req.data
  accepted : Accepted priv req.tariff →
    (∀ f v, sent req.data f = some v → Arrives (errnoAt d errno f v) (foundByName req.tariff) f v) ∧
      ∀ f : TariffField, sent req.data f = none → f.value (foundByName req.tariff) = f.value req.tariff
  refused : ¬ Accepted priv req.tariff → ∀ f v, sent req.data f = some v →
    Stays (errnoAt d errno f v) req.tariff f v

/-! ## What is sent -/

/-- All values of a request. -/
def sentAll (data : TariffDataOpt) : List (Sigma TariffField.Value) :=
  requestFields.filterMap fun f => (sent data f).map fun v => ⟨f, v⟩

/-- The tag of a value. -/
def tagOf (d : NumberText) (e : Sigma TariffField.Value) : Xml.Tag :=
  SrvConf.appendTag e.1.requestName (requestText d e.1 e.2)

theorem flatMap_fieldTags (d : NumberText) (data : TariffDataOpt) :
    requestFields.flatMap (fieldTags d data) = (sentAll data).map (tagOf d) := by
  unfold sentAll
  generalize requestFields = fs
  induction fs with
  | nil => rfl
  | cons f fs ih =>
    rw [List.flatMap_cons, ih, fieldTags, List.filterMap_cons]
    cases sent data f <;> rfl

theorem mem_requestFields (f : TariffField) : f ∈ requestFields := by
  cases f with
  | time i => simp [requestFields]
  | price k => cases k <;> simp [requestFields]
  | flag k => cases k <;> simp [requestFields]
  | _ => simp [requestFields]

/-- Every element is sent once at most. -/
theorem nodup_sentAll (data : TariffDataOpt) : ((sentAll data).map Sigma.fst).Nodup := by
  have hsub : ∀ fs : List TariffField, ((fs.filterMap fun f => (sent data f).map fun v =>
      (⟨f, v⟩ : Sigma TariffField.Value)).map Sigma.fst).Sublist fs := by
    intro fs
    induction fs with
    | nil => exact .slnil
    | cons f fs ih =>
      rw [List.filterMap_cons]
      cases sent data f with
      | none => exact ih.cons f
      | some v => exact ih.cons_cons f
  exact (hsub requestFields).nodup (by decide)

theorem mem_sentAll {data : TariffDataOpt} {f : TariffField} {v : f.Value} :
    ⟨f, v⟩ ∈ sentAll data ↔ sent data f = some v := by
  unfold sentAll
  rw [List.mem_filterMap]
  constructor
  · rintro ⟨g, -, hg⟩
    obtain ⟨w, hw, heq⟩ := Option.map_eq_some_iff.mp hg
    cases heq
    exact hw
  · intro h
    exact ⟨f, mem_requestFields f, by rw [h]; rfl⟩

/-- **What is asked for**, element by element. -/
theorem value_get {tariffs : TariffsImpl} (req : TariffRequest tariffs)
    (htogether : TimesTogether req.data) (t : TariffData) (f : TariffField) :
    f.value (req.data.get t) = (sent req.data f).getD (f.value t) := by
  have hshape (n : ℕ) (i j : Dir) :
      (shape (req.data.dirPrice i))[n]? = (shape (req.data.dirPrice j))[n]? :=
    congrArg (·[n]?) (req.allDirections i j)
  have hdirs {α : Type} (zero : α) (get : DirPriceDataOpt → Option α)
      (h : ∀ i j, (get (req.data.dirPrice i)).isSome = (get (req.data.dirPrice j)).isSome)
      (value : Dir → α) : (fun i => (get (req.data.dirPrice i)).getD (value i)) =
        (allDirs zero fun i => get (req.data.dirPrice i)).getD value := by
    unfold allDirs
    split_ifs with hall
    · funext i
      obtain ⟨v, hv⟩ : ∃ v, get (req.data.dirPrice i) = some v :=
        Option.isSome_iff_exists.mp (hall i)
      simp only [hv, Option.getD_some]
    · obtain ⟨j, hj⟩ := not_forall.mp hall
      funext i
      have hi : get (req.data.dirPrice i) = none := by
        have hnone := h i j
        rw [Bool.eq_false_iff.mpr hj] at hnone
        simpa using hnone
      rw [hi]
      rfl
  cases f with
  | time i =>
    obtain ⟨hm, hh2, hm2⟩ := htogether i
    show ((req.data.dirPrice i).hDay.getD _, (req.data.dirPrice i).mDay.getD _,
      (req.data.dirPrice i).hNight.getD _, (req.data.dirPrice i).mNight.getD _) =
        (sentTime (req.data.dirPrice i)).getD _
    unfold sentTime
    cases h1 : (req.data.dirPrice i).hDay <;> cases h2 : (req.data.dirPrice i).mDay <;>
      cases h3 : (req.data.dirPrice i).hNight <;> cases h4 : (req.data.dirPrice i).mNight <;>
        rw [h1] at hm hh2 hm2 <;> rw [h2] at hm <;> rw [h3] at hh2 <;> rw [h4] at hm2 <;>
          first | rfl | exact Bool.noConfusion hm | exact Bool.noConfusion hh2 |
            exact Bool.noConfusion hm2
  | price k =>
    have hfun : TariffField.value (req.data.get t) (.price k) =
        fun i => (k.getOpt (req.data.dirPrice i)).getD (k.get (t.dirPrice i)) := by
      cases k <;> rfl
    rw [hfun]
    refine hdirs 0 k.getOpt (fun i j => ?_) _
    cases k with
    | dayA => exact Option.some.inj (hshape 4 i j)
    | dayB => exact Option.some.inj (hshape 5 i j)
    | nightA => exact Option.some.inj (hshape 6 i j)
    | nightB => exact Option.some.inj (hshape 7 i j)
  | flag k =>
    have hfun : TariffField.value (req.data.get t) (.flag k) =
        fun i => (k.getOpt (req.data.dirPrice i)).getD (k.get (t.dirPrice i)) := by
      cases k <;> rfl
    rw [hfun]
    refine hdirs 0 k.getOpt (fun i j => ?_) _
    cases k with
    | threshold => exact Option.some.inj (hshape 8 i j)
    | singlePrice => exact Option.some.inj (hshape 9 i j)
    | noDiscount => exact Option.some.inj (hshape 10 i j)
  | fee | passiveCost | free | traffType | period | changePolicy | changePolicyTimeout => rfl

/-! ## One element -/

/-- What the server makes of an element that is sent: there is nothing where a text does not fit its
buffer, and no value where it is passed over. -/
def landed (d : NumberText) (erange : Bool) : (f : TariffField) → f.Value → Option (Option f.Value)
  | .fee, x | .passiveCost, x | .free, x => some (d.scan (d.stream x))
  | .traffType, x | .period, x | .changePolicy, x => some (some x)
  | .changePolicyTimeout, x => some (if erange then none else some x)
  | .time _, x =>
    if SignedMinutes x then some none
    else if ReadTimes erange x then
      some (if erange then none else some (|x.1|, x.2.1, |x.2.2.1|, x.2.2.2))
    else none
  | .price _, x => some (some fun i => (d.scan (d.print (x i))).getD 0 / ptMega)
  | .flag _, x => some (if erange then none else some x)

theorem landed_time (d : NumberText) (erange : Bool) (i : Dir) (x : ℤ × ℤ × ℤ × ℤ) :
    landed d erange (.time i) x =
      if SignedMinutes x then some none
      else if ReadTimes erange x then
        some (if erange then none else some (|x.1|, x.2.1, |x.2.2.1|, x.2.2.2))
      else none := rfl

/-- The tariff a request has arrived at. -/
def held (td : TariffDataOpt) : TariffData := td.get { tariffConf := { name := "" } }

/-- **A list** of texts that are all read. -/
theorem string2AOS_aos2String {α : Type} {conv : Bool → List Char → Option α × Bool}
    (hkeep : SlashedList.Keeps conv) {erange : Bool} {texts : Dir → List Char} {value : Dir → α}
    (hne : ∀ i, texts i ≠ []) (hslash : ∀ i, '/' ∉ texts i)
    (hconv : ∀ i, (conv erange (texts i)).1 = some (value i)) :
    SlashedList.string2AOS conv erange (aos2String texts) =
      some ⟨false, (List.finRange 10).map value, erange⟩ := by
  have htokens : SlashedList.tokens (aos2String texts) = (List.finRange 10).map texts :=
    splitOn_aos2String hne hslash
  rw [SlashedList.string2AOS, SlashedList.string2AOSLoop_of_accepted hkeep]
  · rw [htokens, List.filterMap_map]
    have hfun : (fun t => (conv erange t).1) ∘ texts = fun i => some (value i) := funext hconv
    rw [hfun, List.filterMap_eq_map']
  · rw [htokens, List.length_map, List.length_finRange]
  · intro t ht href
    rw [htokens] at ht
    obtain ⟨i, -, rfl⟩ := List.mem_map.mp ht
    cases (hconv i).symm.trans href

/-- Values for all directions. -/
theorem held_putDirs {α : Type} {putOpt : DirPriceDataOpt → α → DirPriceDataOpt}
    {put : DirPriceData → α → DirPriceData}
    (hput : ∀ p v z, (putOpt p v).get z = put (p.get z) v) (value : Dir → α) (td : TariffDataOpt) :
    held (td.putDirs putOpt ((List.finRange 10).map value)) =
      { held td with dirPrice := fun i => put ((held td).dirPrice i) (value i) } := by
  have hget (i : Dir) : ((List.finRange 10).map value)[i.val]? = some (value i) := by simp
  simp only [held, TariffDataOpt.get, TariffDataOpt.putDirs, hget, hput]

/-- The times of a direction. -/
theorem held_putTime (i : Dir) (x : ℤ × ℤ × ℤ × ℤ) (td : TariffDataOpt) :
    held (td.putTime i x) = TariffField.putTime i x (held td) := by
  have hdir : (held (td.putTime i x)).dirPrice = (TariffField.putTime i x (held td)).dirPrice := by
    funext j
    by_cases hj : j = i
    · subst hj
      simp [held, TariffDataOpt.get, TariffDataOpt.putTime, TariffField.putTime, DirPriceDataOpt.get]
    · simp [held, TariffDataOpt.get, TariffDataOpt.putTime, TariffField.putTime, hj]
  exact congrArg (TariffData.mk (held td).tariffConf) hdir

/-- A list of numbers with a point. -/
theorem readValue_price (d : NumberText) (erange : Bool) (td : TariffDataOpt) (k : PriceKind)
    (x : Dir → Money) :
    ∃ td', readValue d.toDoubleText erange td (aos2String fun i => d.print (x i)) (.price k) =
        .going td' ∧
      held td' = TariffField.put (.price k) (fun i => (d.scan (d.print (x i))).getD 0 / ptMega)
        (held td) := by
  have hconv (i : Dir) : (SlashedList.str2resDouble d.toDoubleText ptMega erange (d.print (x i))).1 =
      some ((d.scan (d.print (x i))).getD 0 / ptMega) := by
    obtain ⟨y, hy⟩ := Option.isSome_iff_exists.mp (d.reads (x i))
    simp only [SlashedList.str2resDouble, hy, Option.map_some, Option.getD_some]
  have hread := string2AOS_aos2String (keeps_str2resDouble d.toDoubleText ptMega)
    (fun i => d.ne_nil (x i)) (fun i => d.noSlash (x i)) hconv
  refine ⟨_, by simp only [readValue, hread]; rfl, ?_⟩
  exact held_putDirs (fun p v z => by cases k <;> rfl) _ td

/-- A list of whole numbers. -/
theorem readValue_flag (d : NumberText) (erange : Bool) (td : TariffDataOpt) (k : FlagKind)
    {x : Dir → ℤ} (hx : ∀ i, IsInt (x i)) :
    ∃ td', readValue d.toDoubleText erange td (aos2String fun i => CString.printInt (x i)) (.flag k) =
        .going td' ∧
      held td' = if erange then held td else TariffField.put (.flag k) x (held td) := by
  cases erange with
  | false =>
    have hconv (i : Dir) : (SlashedList.str2res 1 false (CString.printInt (x i))).1 = some (x i) := by
      rw [SlashedList.str2res_of_integerOf (SlashedList.integerOf_printInt (hx i))]
    have hread := string2AOS_aos2String (SlashedList.keeps_str2res 1)
      (fun i => GetTariff.printInt_ne_nil (x i))
      (fun i => CString.notMem_printInt (by decide) (by decide) (x i)) hconv
    refine ⟨_, by simp only [readValue, hread]; rfl, ?_⟩
    exact held_putDirs (fun p v z => by cases k <;> rfl) _ td
  | true =>
    -- the first number is refused
    obtain ⟨r, hr⟩ : ∃ r, SlashedList.string2AOS (SlashedList.str2res 1) true
        (aos2String fun i => CString.printInt (x i)) = some r := by
      refine Option.ne_none_iff_exists'.mp fun hnone => ?_
      obtain ⟨-, hall⟩ := (SlashedList.string2AOSLoop_eq_none_iff (SlashedList.keeps_str2res 1) _ _
        _).mp hnone
      obtain ⟨t, ts, hts⟩ := List.exists_cons_of_ne_nil (SlashedList.tokens_ne_nil
        (aos2String fun i => CString.printInt (x i)))
      rw [hts] at hall
      exact hall t List.mem_cons_self ((SlashedList.refused_str2res_iff 1 true t).mpr (.inl rfl))
    refine ⟨td.putDirs k.putOpt r.stored, by simp only [readValue, hr], ?_⟩
    rw [SlashedList.stored_of_erange hr]
    rfl

/-- **An element of a request.** -/
theorem readValue_requestText (d : NumberText) (erange : Bool) (td : TariffDataOpt) (f : TariffField)
    (v : f.Value) (hv : f.IsValue v) :
    (landed d erange f v = none →
      readValue d.toDoubleText erange td (requestText d f v) f = .stopped) ∧
    ∀ o, landed d erange f v = some o →
      ∃ td', readValue d.toDoubleText erange td (requestText d f v) f = .going td' ∧
        held td' = o.elim (held td) fun w => f.put w (held td) := by
  cases f with
  | fee | passiveCost | free =>
    refine ⟨fun h => (by cases h), fun o h => ?_⟩
    obtain rfl := Option.some.inj h
    obtain ⟨y, hy⟩ := Option.isSome_iff_exists.mp (d.streamReads v)
    refine ⟨_, rfl, ?_⟩
    simp only [requestText, hy]
    rfl
  | traffType =>
    refine ⟨fun h => (by cases h), fun o h => ?_⟩
    obtain rfl := Option.some.inj h
    refine ⟨_, rfl, ?_⟩
    have hparse : TraffType.parse (requestText d .traffType v) = v := TraffType.parse_toString v
    rw [hparse]
    rfl
  | period =>
    refine ⟨fun h => (by cases h), fun o h => ?_⟩
    obtain rfl := Option.some.inj h
    refine ⟨_, rfl, ?_⟩
    have hall (p : Period) : Period.parse (periodText p).toList = p := by cases p <;> decide
    have hparse : Period.parse (requestText d .period v) = v := hall v
    rw [hparse]
    rfl
  | changePolicy =>
    refine ⟨fun h => (by cases h), fun o h => ?_⟩
    obtain rfl := Option.some.inj h
    refine ⟨_, rfl, ?_⟩
    have hall (p : ChangePolicy) : ChangePolicy.parse (changePolicyText p).toList = p := by
      cases p <;> decide
    have hparse : ChangePolicy.parse (requestText d .changePolicy v) = v := hall v
    rw [hparse]
    rfl
  | changePolicyTimeout =>
    refine ⟨fun h => (by cases h), fun o h => ?_⟩
    obtain rfl := Option.some.inj h
    have hparse : str2x 64 erange (requestText d .changePolicyTimeout v) =
        (if erange then none else some (BitVec.ofInt 64 v), erange) := str2x_printInt 64 erange hv
    have hvalue : (BitVec.ofInt 64 v).toInt = v := by
      rw [BitVec.toInt_ofInt]
      exact Int.bmod_eq_of_le (by simpa using hv.1) (by simpa using hv.2)
    refine ⟨_, rfl, ?_⟩
    rw [hparse]
    cases erange with
    | true => rfl
    | false =>
      simp only [Bool.false_eq_true, if_false, Option.map_some, hvalue]
      rfl
  | time i =>
    obtain ⟨h1, m1, h2, m2⟩ := v
    have hparse : parseTariffTimeStr erange (requestText d (.time i) (h1, m1, h2, m2)) =
        if SignedMinutes (h1, m1, h2, m2) then some (.error [])
        else if ReadTimes erange (h1, m1, h2, m2) then
          some (if erange then .error [|h1|] else .ok (|h1|, m1, |h2|, m2))
        else none :=
      parseTariffTimeStr_timeText_eq erange hv.1 hv.2.1 hv.2.2.1 hv.2.2.2
    by_cases hsigned : SignedMinutes (h1, m1, h2, m2)
    · simp only [landed, readValue, hparse, if_pos hsigned]
      refine ⟨fun h => (by cases h), fun o h => ?_⟩
      obtain rfl := Option.some.inj h
      exact ⟨td, rfl, rfl⟩
    · by_cases hread : ReadTimes erange (h1, m1, h2, m2)
      · simp only [landed, readValue, hparse, if_neg hsigned, if_pos hread]
        refine ⟨fun h => (by cases h), fun o h => ?_⟩
        obtain rfl := Option.some.inj h
        cases erange with
        | true => exact ⟨td, rfl, rfl⟩
        | false => exact ⟨_, rfl, held_putTime i _ td⟩
      · simp only [landed, readValue, hparse, if_neg hsigned, if_neg hread]
        exact ⟨fun _ => trivial, fun o h => (by cases h)⟩
  | price k =>
    refine ⟨fun h => (by cases h), fun o h => ?_⟩
    obtain rfl := Option.some.inj h
    exact readValue_price d erange td k v
  | flag k =>
    refine ⟨fun h => (by cases h), fun o h => ?_⟩
    obtain rfl := Option.some.inj h
    obtain ⟨td', hread, hheld⟩ := readValue_flag d erange td k hv
    refine ⟨td', hread, hheld.trans ?_⟩
    cases erange <;> rfl

/-! ## The elements of a request -/

section Run

variable {d : NumberText} {errno : Xml.Event → Bool} {priv : Priv} {storeError : Option String}

/-- The server knows what to make of a value. -/
def Lands (d : NumberText) (errno : Xml.Event → Bool) (e : Sigma TariffField.Value) : Prop :=
  landed d (errnoAt d errno e.1 e.2) e.1 e.2 ≠ none

/-- What arrives of some values. -/
def stored (d : NumberText) (errno : Xml.Event → Bool) (l : List (Sigma TariffField.Value)) :
    List (Sigma TariffField.Value) :=
  l.filterMap fun e =>
    ((landed d (errnoAt d errno e.1 e.2) e.1 e.2).getD none).map fun w => ⟨e.1, w⟩

theorem stored_cons (e : Sigma TariffField.Value) (l : List (Sigma TariffField.Value)) :
    stored d errno (e :: l) =
      (((landed d (errnoAt d errno e.1 e.2) e.1 e.2).getD none).map fun w =>
        (⟨e.1, w⟩ : Sigma TariffField.Value)).toList ++ stored d errno l := by
  unfold stored
  rw [List.filterMap_cons]
  cases (landed d (errnoAt d errno e.1 e.2) e.1 e.2).getD none <;> rfl

/-- An element inside of a request begins. -/
theorem handle_start {srv : Server} (hdepth : srv.parser.depth = 1) (e : Sigma TariffField.Value)
    (erange : Bool) :
    handle d.toDoubleText priv storeError srv
        ⟨.start e.1.requestName.toList [⟨"value".toList, requestText d e.1 e.2⟩], erange⟩ =
      (readValue d.toDoubleText erange srv.parser.td (requestText d e.1 e.2) e.1).map fun td =>
        { srv with parser := ⟨2, td⟩ } := by
  simp only [handle, start, hdepth, readElement, fieldOf_requestName, List.head?_cons, one_ne_zero,
    if_false]
  cases readValue d.toDoubleText erange srv.parser.td (requestText d e.1 e.2) e.1 <;> rfl

/-- It ends. -/
theorem handle_finish (tariffs : TariffsImpl) (answer : String) (td : TariffDataOpt) (el : Xml.Text)
    (erange : Bool) :
    handle d.toDoubleText priv storeError ⟨⟨2, td⟩, tariffs, answer⟩ ⟨.finish el, erange⟩ =
      .going ⟨⟨1, td⟩, tariffs, answer⟩ := rfl

/-- What is reported of some values. -/
theorem reports_cons (e : Sigma TariffField.Value) (l : List (Sigma TariffField.Value)) :
    reports errno (Xml.events ((e :: l).map (tagOf d))) =
      ⟨.start e.1.requestName.toList [⟨"value".toList, requestText d e.1 e.2⟩],
          errnoAt d errno e.1 e.2⟩ ::
        ⟨.finish e.1.requestName.toList, errno (.finish e.1.requestName.toList)⟩ ::
          reports errno (Xml.events (l.map (tagOf d))) := rfl

/-- **The elements of a request**: one after another they are set, as they arrive, unless one of them
does not fit its buffer.

**Proof sketch.** Induction on the values; in front of each element the parser is inside of the request
and outside of all elements. -/
theorem run_elements (l : List (Sigma TariffField.Value)) (hl : ∀ e ∈ l, e.1.IsValue e.2) {srv : Server}
    (hdepth : srv.parser.depth = 1) :
    ((∃ e ∈ l, ¬ Lands d errno e) →
      Halting.run (handle d.toDoubleText priv storeError) srv
        (reports errno (Xml.events (l.map (tagOf d)))) = .stopped) ∧
    ((∀ e ∈ l, Lands d errno e) →
      ∃ td, Halting.run (handle d.toDoubleText priv storeError) srv
          (reports errno (Xml.events (l.map (tagOf d)))) = .going { srv with parser := ⟨1, td⟩ } ∧
        held td = tariffFields.putAll (held srv.parser.td) (stored d errno l) ∧
        td.tariffConf.name = srv.parser.td.tariffConf.name) := by
  induction l generalizing srv with
  | nil =>
    obtain ⟨⟨depth, td⟩, tariffs, answer⟩ := srv
    obtain rfl : depth = 1 := hdepth
    exact ⟨fun ⟨e, he, _⟩ => (by cases he), fun _ => ⟨td, rfl, rfl, rfl⟩⟩
  | cons e l ih =>
    rw [List.forall_mem_cons] at hl
    obtain ⟨hnone, hsome⟩ := readValue_requestText d (errnoAt d errno e.1 e.2) srv.parser.td e.1 e.2 hl.1
    rw [reports_cons, Halting.run, handle_start hdepth]
    cases hland : landed d (errnoAt d errno e.1 e.2) e.1 e.2 with
    | none =>
      have hself : ¬ Lands d errno e := fun h => h hland
      rw [hnone hland]
      exact ⟨fun _ => rfl, fun h => absurd (h e List.mem_cons_self) hself⟩
    | some o =>
      have hself : Lands d errno e := by
        intro h
        cases hland.symm.trans h
      obtain ⟨td, hread, hheld⟩ := hsome o hland
      have hih := @ih hl.2 { srv with parser := ⟨1, td⟩ } rfl
      rw [hread, List.exists_mem_cons_iff, or_iff_right (not_not.mpr hself), List.forall_mem_cons,
        and_iff_right hself]
      simp only [Halting.map, Halting.run, handle_finish]
      refine ⟨hih.1, fun hall => ?_⟩
      obtain ⟨td', hrun, hheld', hname⟩ := hih.2 hall
      refine ⟨td', hrun, ?_, hname.trans (name_readValue hread)⟩
      rw [hheld', stored_cons, hland]
      simp only [hheld, Option.getD_some]
      cases o <;> rfl

/-- What arrives is set once at most. -/
theorem nodup_stored (data : TariffDataOpt) :
    ((stored d errno (sentAll data)).map Sigma.fst).Nodup := by
  have hsub : ∀ l : List (Sigma TariffField.Value),
      ((stored d errno l).map Sigma.fst).Sublist (l.map Sigma.fst) := by
    intro l
    induction l with
    | nil => exact .slnil
    | cons e l ih =>
      rw [stored_cons]
      cases (landed d (errnoAt d errno e.1 e.2) e.1 e.2).getD none with
      | none => exact ih.cons e.1
      | some v => exact ih.cons_cons e.1
  exact (hsub (sentAll data)).nodup (nodup_sentAll data)

theorem mem_stored {data : TariffDataOpt} {f : TariffField} {w : f.Value} :
    ⟨f, w⟩ ∈ stored d errno (sentAll data) ↔
      ∃ v, sent data f = some v ∧ (landed d (errnoAt d errno f v) f v).getD none = some w := by
  unfold stored
  rw [List.mem_filterMap]
  constructor
  · rintro ⟨⟨g, v⟩, hmem, hg⟩
    obtain ⟨w', hw', heq⟩ := Option.map_eq_some_iff.mp hg
    cases heq
    exact ⟨v, mem_sentAll.mp hmem, hw'⟩
  · rintro ⟨v, hv, hw⟩
    exact ⟨⟨f, v⟩, mem_sentAll.mpr hv, by rw [hw]; rfl⟩

/-- **An element that is sent**, in the tariff the request has arrived at. -/
theorem value_of_sent {data : TariffDataOpt} {f : TariffField} {v : f.Value}
    (h : sent data f = some v) (t : TariffData) :
    f.value (tariffFields.putAll t (stored d errno (sentAll data))) =
      ((landed d (errnoAt d errno f v) f v).getD none).getD (f.value t) := by
  cases hland : (landed d (errnoAt d errno f v) f v).getD none with
  | some w => exact tariffFields.value_putAll_of_mem (nodup_stored data) (mem_stored.mpr ⟨v, h, hland⟩) t
  | none =>
    refine tariffFields.value_putAll_of_notMem (fun hmem => ?_) t
    obtain ⟨⟨g, w⟩, hw, rfl⟩ := List.mem_map.mp hmem
    obtain ⟨v', hv', hw'⟩ := mem_stored.mp hw
    obtain rfl := Option.some.inj (h.symm.trans hv')
    cases hland.symm.trans hw'

/-- **An element that is not sent.** -/
theorem value_of_unsent {data : TariffDataOpt} {f : TariffField} (h : sent data f = none)
    (t : TariffData) :
    f.value (tariffFields.putAll t (stored d errno (sentAll data))) = f.value t := by
  refine tariffFields.value_putAll_of_notMem (fun hmem => ?_) t
  obtain ⟨⟨g, w⟩, hw, rfl⟩ := List.mem_map.mp hmem
  obtain ⟨v, hv, -⟩ := mem_stored.mp hw
  cases h.symm.trans hv

end Run

/-! ## The whole request -/

section Whole

variable {d : NumberText} {read : Xml.Text → Option (List Xml.Event)} {errno : Xml.Event → Bool}
  {priv : Priv} {storeError : Option String} {tariffs : TariffsImpl}

/-- What the request begins with. -/
theorem deref_findByName (req : TariffRequest tariffs) :
    tariffs.deref (tariffs.findByName req.tariff.tariffConf.name) = some (foundByName req.tariff) := by
  unfold TariffsImpl.findByName foundByName
  split_ifs
  · rfl
  · rw [req.found]
    simp only [TariffsImpl.deref, if_true]
    exact req.listed

/-- It has the name of the tariff. -/
theorem name_foundByName (t : TariffData) : (foundByName t).tariffConf.name = t.tariffConf.name := by
  unfold foundByName
  split_ifs with h
  · exact h.symm
  · rfl

/-- The tariff itself is in its place. -/
theorem set_tariff (req : TariffRequest tariffs) :
    tariffs.tariffs.set req.index req.tariff = tariffs.tariffs := by
  obtain ⟨hlt, hget⟩ := List.getElem?_eq_some_iff.mp req.listed
  rw [← hget]
  exact List.set_getElem_self hlt

/-- The end of the request. -/
theorem createAnswer_eq (req : TariffRequest tariffs) {td : TariffDataOpt} {answer : String}
    (hname : td.tariffConf.name = some req.tariff.tariffConf.name) :
    ∃ srv, createAnswer priv storeError ⟨⟨1, td⟩, tariffs, answer⟩ = .going srv ∧
      srv.tariffs.tariffs = tariffs.tariffs.set req.index
        (if Accepted priv req.tariff then held td else req.tariff) := by
  unfold createAnswer
  rw [hname]
  dsimp only
  by_cases hempty : req.tariff.tariffConf.name = ""
  · have hrefused : ¬ Accepted priv req.tariff := fun h => h.2 hempty
    rw [if_neg (not_not.mpr hempty), if_neg hrefused, set_tariff]
    exact ⟨_, rfl, rfl⟩
  · rw [if_pos hempty]
    refine ⟨_, rfl, ?_⟩
    dsimp only
    have hfind : tariffs.findIdx (td.get { tariffConf := { name := "" } }).tariffConf.name =
        some req.index := by
      rw [name_get hname]
      exact req.found
    unfold TariffsImpl.chg
    by_cases hpriv : priv.tariffChg = 0
    · have hrefused : ¬ Accepted priv req.tariff := fun h => h.1 hpriv
      rw [if_pos hpriv, if_neg hrefused, set_tariff]
    · have haccepted : Accepted priv req.tariff := ⟨hpriv, hempty⟩
      rw [if_neg hpriv, hfind, if_pos haccepted]
      rfl

/-- **The whole request**: if the server knows what to make of all values, the tariff is replaced by the
one that was found, with what has arrived. -/
theorem sendTariff_eq (hread : Xml.Conforming read) (req : TariffRequest tariffs)
    (htogether : TimesTogether req.data) :
    ((∃ e ∈ sentAll req.data, ¬ Lands d errno e) →
      sendTariff d read errno priv storeError tariffs req.data = none) ∧
    ((∀ e ∈ sentAll req.data, Lands d errno e) →
      ∃ srv, sendTariff d read errno priv storeError tariffs req.data = some srv ∧
        srv.tariffs.tariffs = tariffs.tariffs.set req.index
          (if Accepted priv req.tariff then
            tariffFields.putAll (foundByName req.tariff) (stored d errno (sentAll req.data))
          else req.tariff)) := by
  have htags : chgTariff d req.data = some (.start "SetTariff".toList
      [⟨"name".toList, req.tariff.tariffConf.name.toList⟩] ::
        ((sentAll req.data).map (tagOf d) ++ [.close "SetTariff".toList])) := by
    rw [chgTariff, req.name, Option.bind_some, serialize_eq d htogether, Option.map_some,
      flatMap_fieldTags]
  have hdocument := isDocument_chgTariff d req.name req.plain htags
  have htag : caseEq "SetTariff".toList "SetTariff" = true := by decide
  have hvalues : ∀ e ∈ sentAll req.data, e.1.IsValue e.2 := fun e he =>
    req.inRange e.1 e.2 (mem_sentAll.mp he)
  have hstart (erange : Bool) : handle d.toDoubleText priv storeError { tariffs := tariffs }
      ⟨.start "SetTariff".toList [⟨"name".toList, req.tariff.tariffConf.name.toList⟩], erange⟩ =
        .going ⟨⟨1, .ofData (foundByName req.tariff)⟩, tariffs, ""⟩ := by
    simp only [handle, start, if_true, htag, List.head?_cons, String.ofList_toList,
      deref_findByName req]
    rfl
  obtain ⟨hstop, hgo⟩ := @run_elements d errno priv storeError (sentAll req.data) hvalues
    ⟨⟨1, .ofData (foundByName req.tariff)⟩, tariffs, ""⟩ rfl
  have hreports : reports errno (Xml.events (.start "SetTariff".toList
      [⟨"name".toList, req.tariff.tariffConf.name.toList⟩] ::
        ((sentAll req.data).map (tagOf d) ++ [.close "SetTariff".toList]))) =
      ⟨.start "SetTariff".toList [⟨"name".toList, req.tariff.tariffConf.name.toList⟩],
          errno (.start "SetTariff".toList [⟨"name".toList, req.tariff.tariffConf.name.toList⟩])⟩ ::
        (reports errno (Xml.events ((sentAll req.data).map (tagOf d))) ++
          [⟨.finish "SetTariff".toList, errno (.finish "SetTariff".toList)⟩]) := by
    rw [Xml.events_element, reports, List.map_cons, List.map_append]
    rfl
  have hsend : sendTariff d read errno priv storeError tariffs req.data =
      (Halting.run (handle d.toDoubleText priv storeError)
        ⟨⟨1, .ofData (foundByName req.tariff)⟩, tariffs, ""⟩
        (reports errno (Xml.events ((sentAll req.data).map (tagOf d))) ++
          [⟨.finish "SetTariff".toList, errno (.finish "SetTariff".toList)⟩])).state? := by
    rw [sendTariff, htags, Option.bind_some, hread _ hdocument, Option.bind_some, hreports,
      Halting.run, hstart]
  rw [hsend, Halting.run_append]
  refine ⟨fun hnot => ?_, fun hall => ?_⟩
  · rw [hstop hnot]
    rfl
  · obtain ⟨td, hrun, hheld, hname⟩ := hgo hall
    have hname' : td.tariffConf.name = some req.tariff.tariffConf.name :=
      hname.trans (congrArg some (name_foundByName req.tariff))
    obtain ⟨srv, hsrv, htariffs⟩ := @createAnswer_eq priv storeError tariffs req td "" hname'
    have hend : handle d.toDoubleText priv storeError ⟨⟨1, td⟩, tariffs, ""⟩
        ⟨.finish "SetTariff".toList, errno (.finish "SetTariff".toList)⟩ =
          .going { srv with parser := { srv.parser with depth := srv.parser.depth - 1 } } := by
      simp only [handle, htag, if_true, hsrv]
      rfl
    rw [hrun]
    dsimp only
    rw [Halting.run, hend]
    refine ⟨_, rfl, htariffs.trans ?_⟩
    rw [hheld]
    rfl

/-! ## When exactly what is sent is changed -/

/-- Times that can be read back fit the buffers. -/
theorem readTimes_of_isTimes {x : ℤ × ℤ × ℤ × ℤ} (h : GetTariff.IsTimes x) : ReadTimes false x := by
  obtain ⟨⟨a, a'⟩, ⟨b, b'⟩, ⟨c, c'⟩, ⟨e, e'⟩⟩ := h
  refine ⟨?_, fun _ => ⟨?_, ?_, ?_, ?_⟩⟩ <;> rwa [abs_of_nonneg (by assumption)]

/-- A value the server does not know what to make of. -/
theorem not_fits_of_not_lands {erange : Bool} {f : TariffField} {v : f.Value}
    (h : landed d erange f v = none) (t : TariffData) :
    ¬ Arrives erange t f v ∧ ¬ Stays erange t f v := by
  cases f with
  | time i =>
    have hneither : ¬ SignedMinutes v ∧ ¬ ReadTimes erange v := by
      rw [landed_time] at h
      by_cases hsigned : SignedMinutes v
      · rw [if_pos hsigned] at h
        cases h
      · refine ⟨hsigned, fun hread => ?_⟩
        rw [if_neg hsigned, if_pos hread] at h
        cases h
    refine ⟨?_, fun hstays => hstays.1.elim hneither.1 hneither.2⟩
    rintro (⟨rfl, htimes⟩ | ⟨hsigned | ⟨-, hread⟩, -⟩)
    · exact hneither.2 (readTimes_of_isTimes htimes)
    · exact hneither.1 hsigned
    · exact hneither.2 hread
  | fee | passiveCost | free | traffType | period | changePolicy | changePolicyTimeout | price k
    | flag k => cases h

/-- **A value arrives** if the tariff has it in the end. -/
theorem arrives_iff {erange : Bool} {f : TariffField} {v : f.Value}
    (h : landed d erange f v ≠ none) (t : TariffData) :
    Arrives erange t f v ↔
      (f.isDouble = false → ((landed d erange f v).getD none).getD (f.value t) = v) := by
  cases f with
  | time i =>
    have hdouble : (TariffField.time i).isDouble = false := rfl
    rw [forall_prop_of_true hdouble]
    rw [landed_time] at h ⊢
    simp only [Arrives]
    by_cases hsigned : SignedMinutes v
    · have htimes : ¬ GetTariff.IsTimes v := by
        rintro ⟨-, hb, -, hd⟩
        rcases hsigned with hsigned | hsigned
        · exact absurd hb.1 (by omega)
        · exact absurd hd.1 (by omega)
      simp [hsigned, htimes]
    · by_cases hread : ReadTimes erange v
      · cases erange with
        | true => simp [hsigned, hread]
        | false =>
          simp only [hsigned, hread, if_false, if_true, Bool.false_eq_true, false_and, or_false,
            true_and, Option.getD_some]
          obtain ⟨a, b, c, e⟩ := v
          have hb : 0 ≤ b ∧ 0 ≤ e := by
            simp only [SignedMinutes] at hsigned
            omega
          obtain ⟨h1, h2, h3, h4⟩ := hread.2 rfl
          constructor
          · rintro ⟨ha, -, hc, -⟩
            simp only [abs_of_nonneg ha.1, abs_of_nonneg hc.1]
          · intro heq
            simp only [Prod.mk.injEq, true_and, and_true] at heq
            have ha : 0 ≤ a := abs_eq_self.mp heq.1
            have hc : 0 ≤ c := abs_eq_self.mp heq.2
            refine ⟨⟨ha, ?_⟩, ⟨hb.1, ?_⟩, ⟨hc, ?_⟩, ⟨hb.2, ?_⟩⟩
            · rwa [abs_of_nonneg ha] at h1
            · rwa [abs_of_nonneg hb.1] at h2
            · rwa [abs_of_nonneg hc] at h3
            · rwa [abs_of_nonneg hb.2] at h4
      · simp [hsigned, hread] at h
  | flag k =>
    have hdouble : (TariffField.flag k).isDouble = false := rfl
    rw [forall_prop_of_true hdouble]
    cases erange <;> simp [Arrives, landed]
  | changePolicyTimeout =>
    have hdouble : TariffField.changePolicyTimeout.isDouble = false := rfl
    rw [forall_prop_of_true hdouble]
    cases erange <;> simp [Arrives, landed]
  | traffType | period | changePolicy => exact iff_of_true trivial fun _ => rfl
  | fee | passiveCost | free | price k => exact iff_of_true trivial fun h => by cases h

/-- **A value stays** if the tariff has it. -/
theorem stays_iff {erange : Bool} {f : TariffField} {v : f.Value} (h : landed d erange f v ≠ none)
    (t : TariffData) : Stays erange t f v ↔ (f.isDouble = false → f.value t = v) := by
  cases f with
  | time i =>
    have hdouble : (TariffField.time i).isDouble = false := rfl
    rw [forall_prop_of_true hdouble]
    refine and_iff_right ?_
    by_contra hneither
    obtain ⟨hsigned, hread⟩ := not_or.mp hneither
    rw [landed_time, if_neg hsigned, if_neg hread] at h
    exact h rfl
  | traffType | period | changePolicy | changePolicyTimeout | flag k =>
    exact ⟨fun h _ => h, fun h => h rfl⟩
  | fee | passiveCost | free | price k => exact iff_of_true trivial fun h => by cases h

/-- What is to be there in the end. -/
theorem changed_iff (req : TariffRequest tariffs) (htogether : TimesTogether req.data) {t' : TariffData}
    (hname : t'.tariffConf.name = req.tariff.tariffConf.name) :
    Changed req.data req.tariff t' ↔
      (∀ f v, sent req.data f = some v → f.isDouble = false → f.value t' = v) ∧
        ∀ f : TariffField, sent req.data f = none → f.value t' = f.value req.tariff := by
  have hget : (req.data.get req.tariff).tariffConf.name = req.tariff.tariffConf.name := by
    simp only [TariffDataOpt.get, TariffConfOpt.get, req.name, Option.getD_some]
  constructor
  · rintro ⟨hwhole, hdouble⟩
    have hvalue := ((TariffData.view_eq_iff _ _).mp hwhole).2
    refine ⟨fun f v hv hf => ?_, fun f hnone => ?_⟩
    · rw [hvalue f hf, value_get req htogether, hv, Option.getD_some]
    · cases hf : f.isDouble with
      | true => exact hdouble f hf hnone
      | false => rw [hvalue f hf, value_get req htogether, hnone, Option.getD_none]
  · rintro ⟨hsent, hunsent⟩
    refine ⟨(TariffData.view_eq_iff _ _).mpr ⟨hname.trans hget.symm, fun f hf => ?_⟩,
      fun f _ hnone => hunsent f hnone⟩
    rw [value_get req htogether]
    cases hv : sent req.data f with
    | none => exact hunsent f hv
    | some v => exact hsent f v hv hf

/-- **When exactly what is sent is changed.** -/
theorem changes_iff (hread : Xml.Conforming read) (req : TariffRequest tariffs) :
    Changes d read errno priv storeError tariffs req ↔ Understood d errno priv req := by
  by_cases htogether : TimesTogether req.data
  swap
  · have hnone : sendTariff d read errno priv storeError tariffs req.data = none := by
      rw [sendTariff, chgTariff, serialize_eq_none d htogether, req.name]
      rfl
    refine iff_of_false ?_ fun h => htogether h.together
    rintro ⟨srv, t', hsrv, -⟩
    cases hnone.symm.trans hsrv
  obtain ⟨hstop, hgo⟩ := @sendTariff_eq d read errno priv storeError tariffs hread req htogether
  by_cases hall : ∀ e ∈ sentAll req.data, Lands d errno e
  swap
  · push Not at hall
    obtain ⟨⟨f, v⟩, hmem, hnot⟩ := hall
    refine iff_of_false ?_ fun h => ?_
    · rintro ⟨srv, t', hsrv, -⟩
      cases (hstop ⟨⟨f, v⟩, hmem, hnot⟩).symm.trans hsrv
    · have hv := mem_sentAll.mp hmem
      have hnone : landed d (errnoAt d errno f v) f v = none := not_not.mp hnot
      by_cases haccepted : Accepted priv req.tariff
      · exact (not_fits_of_not_lands hnone _).1 ((h.accepted haccepted).1 f v hv)
      · exact (not_fits_of_not_lands hnone _).2 (h.refused haccepted f v hv)
  have hlands {f : TariffField} {v : f.Value} (hv : sent req.data f = some v) :
      landed d (errnoAt d errno f v) f v ≠ none := hall ⟨f, v⟩ (mem_sentAll.mpr hv)
  obtain ⟨srv, hsrv, htariffs⟩ := hgo hall
  -- there is one place, and what is in it is determined
  have hplace (t' : TariffData) : Changes d read errno priv storeError tariffs req ↔
      Changed req.data req.tariff (if Accepted priv req.tariff then
        tariffFields.putAll (foundByName req.tariff) (stored d errno (sentAll req.data))
      else req.tariff) := by
    constructor
    · rintro ⟨srv', t', hsrv', htariffs', hchanged⟩
      obtain rfl := Option.some.inj (hsrv.symm.trans hsrv')
      have hget := congrArg (·[req.index]?) (htariffs.symm.trans htariffs')
      have hlt : req.index < tariffs.tariffs.length := (List.getElem?_eq_some_iff.mp req.listed).1
      simp only [List.getElem?_set_self hlt, Option.some.injEq] at hget
      rw [hget]
      exact hchanged
    · intro hchanged
      exact ⟨srv, _, hsrv, htariffs, hchanged⟩
  rw [hplace req.tariff]
  by_cases haccepted : Accepted priv req.tariff
  · rw [if_pos haccepted, changed_iff req htogether ((name_putAll _ _).trans (name_foundByName _))]
    constructor
    · rintro ⟨hsent, hunsent⟩
      refine ⟨htogether, fun _ => ⟨fun f v hv => (arrives_iff (hlands hv) _).mpr fun hf => ?_,
        fun f hnone => ?_⟩, fun h => absurd haccepted h⟩
      · rw [← value_of_sent hv]
        exact hsent f v hv hf
      · rw [← @value_of_unsent d errno req.data f hnone]
        exact hunsent f hnone
    · intro h
      obtain ⟨harrives, hfound⟩ := h.accepted haccepted
      refine ⟨fun f v hv hf => ?_, fun f hnone => ?_⟩
      · rw [value_of_sent hv]
        exact (arrives_iff (hlands hv) _).mp (harrives f v hv) hf
      · rw [value_of_unsent hnone]
        exact hfound f hnone
  · rw [if_neg haccepted, changed_iff req htogether rfl]
    constructor
    · rintro ⟨hsent, -⟩
      exact ⟨htogether, fun h => absurd h haccepted, fun _ f v hv =>
        (stays_iff (hlands hv) _).mpr (hsent f v hv)⟩
    · intro h
      exact ⟨fun f v hv => (stays_iff (hlands hv) _).mp (h.refused haccepted f v hv), fun f _ => rfl⟩

end Whole

namespace Sample

theorem isPlain_zeros : Xml.isPlain "0.000000".toList = true := by decide

theorem notMem_zeros : '/' ∉ "0.000000".toList := by decide

theorem zeros_ne_nil : "0.000000".toList ≠ [] := by decide

theorem isPlain_zero : Xml.isPlain ['0'] = true := by decide

theorem isSome_zero (_ : Money) : (some (0 : Money)).isSome = true := rfl

/-- The number zero is printed and read. -/
def zeros : NumberText where
  print := fun _ => "0.000000".toList
  scan := fun _ => some 0
  plain := fun _ => isPlain_zeros
  reads := isSome_zero
  noSlash := fun _ => notMem_zeros
  ne_nil := fun _ => zeros_ne_nil
  stream := fun _ => ['0']
  streamPlain := fun _ => isPlain_zero
  streamReads := isSome_zero
  part := fun _ => 0
  range := fun _ => false
  inRange := fun _ => rfl

/-- A list with one tariff. -/
def registry : TariffsImpl := { tariffs := [Stargazer.Sample.nightTariff] }

/-- A tariff of a name, without prices. -/
def plainTariff (name : String) (h : Xml.isPlain name.toList = true) : GetTariff.WireTariff where
  data := TariffImpl.ofName name
  inRange := by
    intro f
    have hint : IsInt 0 := by decide
    have htime : IsTime 0 := by decide
    cases f with
    | changePolicyTimeout => exact htime
    | time i => exact ⟨hint, hint, hint, hint⟩
    | flag k => exact fun i => by cases k <;> exact hint
    | fee | passiveCost | free | traffType | period | changePolicy | price k => trivial
  plain := h

/-- The fee is for a day, and the day is from eight to ten. -/
def dayData : TariffDataOpt where
  tariffConf := { name := some "night", period := some .day }
  dirPrice := fun _ => { hDay := some 8, mDay := some 0, hNight := some 22, mNight := some 0 }

/-- A request without whole numbers for the directions. -/
def request (data : TariffDataOpt) (hname : data.tariffConf.name = some "night")
    (htimeout : data.tariffConf.changePolicyTimeout = none)
    (htime : ∀ i x, sentTime (data.dirPrice i) = some x →
      IsInt x.1 ∧ IsInt x.2.1 ∧ IsInt x.2.2.1 ∧ IsInt x.2.2.2)
    (hflag : ∀ (k : FlagKind) i, k.getOpt (data.dirPrice i) = none)
    (hshape : ∀ i j, shape (data.dirPrice i) = shape (data.dirPrice j)) : TariffRequest registry where
  data := data
  tariff := Stargazer.Sample.nightTariff
  index := 0
  listed := rfl
  found := by decide
  name := hname
  plain := by decide
  allDirections := hshape
  inRange := by
    intro f v hv
    cases f with
    | changePolicyTimeout => cases htimeout.symm.trans hv
    | time i => exact htime i v hv
    | flag k =>
      have hnone : sent data (.flag k) = none := by
        refine if_neg fun hall => ?_
        have hsome : (k.getOpt (data.dirPrice 0)).isSome = true := hall 0
        rw [hflag k 0] at hsome
        cases hsome
      cases hnone.symm.trans hv
    | fee | passiveCost | free | traffType | period | changePolicy | price k => trivial

/-- The request of times. -/
def dayRequest : TariffRequest registry :=
  request dayData rfl rfl (fun _ x h => by
    obtain rfl := Option.some.inj h
    exact ⟨by decide, by decide, by decide, by decide⟩) (fun k _ => by cases k <;> rfl) fun _ _ => rfl

end Sample

end TariffCodecs

end Stargazer
