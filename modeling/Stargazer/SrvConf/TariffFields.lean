import Stargazer.Lib.Fields
import Stargazer.SrvConf.TariffText

set_option relaxedAutoImplicit false
set_option autoImplicit false

/-!
# What the elements of a tariff hold

Each element of a tariff stands for a part of its data: one value, the four times of a direction, or a
value for every direction.  Both servers and clients write these parts as texts and read them from
texts, and a tariff is its name with the parts of all elements.

## Main definitions

* `Stargazer.TariffField.Value` — the values of an element, `Stargazer.tariffFields` — the record.
* `Stargazer.NumberText` — the two ways in which numbers with a point are printed.
* `Stargazer.TariffData.InRange` — the whole numbers are in the range of their types.

## Main results

* `Stargazer.TariffData.view_eq_iff` — a tariff is the same if its name and its elements are.
-/

namespace Stargazer

namespace TariffField

/-! ## Values -/

/-- The values of an element. -/
abbrev Value : TariffField → Type
  | .fee | .passiveCost | .free => Money
  | .traffType => TraffType
  | .period => Period
  | .changePolicy => ChangePolicy
  | .changePolicyTimeout => Time
  | .time _ => ℤ × ℤ × ℤ × ℤ
  | .price _ => Dir → Money
  | .flag _ => Dir → ℤ

/-- The numbers with a point. -/
def isDouble : TariffField → Bool
  | .fee | .passiveCost | .free | .price _ => true
  | _ => false

/-- What a tariff has for an element. -/
def value (t : TariffData) : (f : TariffField) → f.Value
  | .fee => t.tariffConf.fee
  | .passiveCost => t.tariffConf.passiveCost
  | .free => t.tariffConf.free
  | .traffType => t.tariffConf.traffType
  | .period => t.tariffConf.period
  | .changePolicy => t.tariffConf.changePolicy
  | .changePolicyTimeout => t.tariffConf.changePolicyTimeout
  | .time i =>
    ((t.dirPrice i).hDay, (t.dirPrice i).mDay, (t.dirPrice i).hNight, (t.dirPrice i).mNight)
  | .price k => fun i => k.get (t.dirPrice i)
  | .flag k => fun i => k.get (t.dirPrice i)

/-- The times of a direction. -/
def putTime (i : Dir) (x : ℤ × ℤ × ℤ × ℤ) (t : TariffData) : TariffData :=
  { t with
    dirPrice := Function.update t.dirPrice i
      { t.dirPrice i with hDay := x.1, mDay := x.2.1, hNight := x.2.2.1, mNight := x.2.2.2 } }

/-- An element is set. -/
def put : (f : TariffField) → f.Value → TariffData → TariffData
  | .fee, x, t => { t with tariffConf.fee := x }
  | .passiveCost, x, t => { t with tariffConf.passiveCost := x }
  | .free, x, t => { t with tariffConf.free := x }
  | .traffType, x, t => { t with tariffConf.traffType := x }
  | .period, x, t => { t with tariffConf.period := x }
  | .changePolicy, x, t => { t with tariffConf.changePolicy := x }
  | .changePolicyTimeout, x, t => { t with tariffConf.changePolicyTimeout := x }
  | .time i, x, t => putTime i x t
  | .price k, x, t => { t with dirPrice := fun i => k.put (t.dirPrice i) (x i) }
  | .flag k, x, t => { t with dirPrice := fun i => k.put (t.dirPrice i) (x i) }

theorem value_put (f : TariffField) (x : f.Value) (t : TariffData) : value (put f x t) f = x := by
  cases f with
  | time i => simp [put, value, putTime]
  | price k => cases k <;> rfl
  | flag k => cases k <;> rfl
  | fee | passiveCost | free | traffType | period | changePolicy | changePolicyTimeout => rfl

/-- The times of a direction are set: the other elements stay. -/
theorem value_putTime_of_ne {i : Dir} {g : TariffField} (h : g ≠ .time i) (x : ℤ × ℤ × ℤ × ℤ)
    (t : TariffData) : value (putTime i x t) g = value t g := by
  have hdir : ∀ {α : Type} (get : DirPriceData → α), (∀ p : DirPriceData, get { p with
      hDay := x.1, mDay := x.2.1, hNight := x.2.2.1, mNight := x.2.2.2 } = get p) →
      (fun j => get ((putTime i x t).dirPrice j)) = fun j => get (t.dirPrice j) := by
    intro α get hget
    funext j
    by_cases hj : j = i
    · subst hj
      simp [putTime, hget]
    · simp [putTime, hj]
  cases g with
  | time j =>
    have hj : j ≠ i := fun heq => h (heq ▸ rfl)
    simp [value, putTime, hj]
  | price k => exact hdir k.get fun p => by cases k <;> rfl
  | flag k => exact hdir k.get fun p => by cases k <;> rfl
  | fee | passiveCost | free | traffType | period | changePolicy | changePolicyTimeout => rfl

theorem value_put_of_ne {f g : TariffField} (h : g ≠ f) (x : f.Value) (t : TariffData) :
    value (put f x t) g = value t g := by
  cases f with
  | time i => exact value_putTime_of_ne h x t
  | price k =>
    cases g with
    | price k' => cases k <;> cases k' <;> first | rfl | exact absurd rfl h
    | flag k' => cases k <;> cases k' <;> rfl
    | time i => cases k <;> rfl
    | _ => rfl
  | flag k =>
    cases g with
    | price k' => cases k <;> cases k' <;> rfl
    | flag k' => cases k <;> cases k' <;> first | rfl | exact absurd rfl h
    | time i => cases k <;> rfl
    | _ => rfl
  | fee | passiveCost | free | traffType | period | changePolicy | changePolicyTimeout =>
    cases g <;> first | rfl | exact absurd rfl h

/-- Setting an element keeps the name. -/
theorem name_put (f : TariffField) (x : f.Value) (t : TariffData) :
    (put f x t).tariffConf.name = t.tariffConf.name := by
  cases f <;> rfl

end TariffField

/-- A tariff as the record of its elements. -/
def tariffFields : Fields TariffField TariffField.Value TariffData where
  value := fun f t => f.value t
  put := TariffField.put
  value_put := TariffField.value_put
  value_put_of_ne := TariffField.value_put_of_ne

/-- Setting elements keeps the name. -/
theorem name_putAll (l : List (Sigma TariffField.Value)) (t : TariffData) :
    (tariffFields.putAll t l).tariffConf.name = t.tariffConf.name := by
  induction l generalizing t with
  | nil => rfl
  | cons e l ih =>
    rw [Fields.putAll_cons, ih]
    exact TariffField.name_put e.1 e.2 t

/-- **Two tariffs are the same**, apart from their numbers with a point, if their names and their
elements are. -/
theorem TariffData.view_eq_iff (t u : TariffData) :
    t.view = u.view ↔ t.tariffConf.name = u.tariffConf.name ∧
      ∀ f : TariffField, f.isDouble = false → f.value t = f.value u := by
  constructor
  · intro h
    have hdir (i : Dir) : (t.dirPrice i).view = (u.dirPrice i).view :=
      congrFun (congrArg TariffView.dir h) i
    refine ⟨congrArg TariffView.name h, fun f hf => ?_⟩
    cases f with
    | traffType => exact congrArg TariffView.traffType h
    | period => exact congrArg TariffView.period h
    | changePolicy => exact congrArg TariffView.changePolicy h
    | changePolicyTimeout => exact congrArg TariffView.changePolicyTimeout h
    | time i =>
      exact congrArg (fun v : DirView => (v.hDay, v.mDay, v.hNight, v.mNight)) (hdir i)
    | flag k =>
      funext i
      cases k with
      | threshold => exact congrArg DirView.threshold (hdir i)
      | singlePrice => exact congrArg DirView.singlePrice (hdir i)
      | noDiscount => exact congrArg DirView.noDiscount (hdir i)
    | fee | passiveCost | free | price k => cases hf
  · rintro ⟨hname, h⟩
    refine TariffView.ext hname (h .traffType rfl) (h .period rfl) (h .changePolicy rfl)
      (h .changePolicyTimeout rfl) (funext fun i => ?_)
    have htime := h (.time i) rfl
    simp only [TariffField.value, Prod.mk.injEq] at htime
    exact DirView.ext htime.1 htime.2.1 htime.2.2.1 htime.2.2.2 (congrFun (h (.flag .threshold) rfl) i)
      (congrFun (h (.flag .singlePrice) rfl) i) (congrFun (h (.flag .noDiscount) rfl) i)

/-! ## Ranges -/

/-- The values of an element its types allow. -/
def TariffField.IsValue : (f : TariffField) → f.Value → Prop
  | .changePolicyTimeout, x => IsTime x
  | .time _, x => IsInt x.1 ∧ IsInt x.2.1 ∧ IsInt x.2.2.1 ∧ IsInt x.2.2.2
  | .flag _, x => ∀ i, IsInt (x i)
  | _, _ => True

/-- The whole numbers of a tariff are in the range of their types. -/
def TariffData.InRange (t : TariffData) : Prop := ∀ f : TariffField, f.IsValue (f.value t)

/-! ## Numbers with a point -/

/-- Numbers with a point: `print` is `std::to_string`, which is also used for lists. -/
structure NumberText extends DecimalText where
  /-- `operator<<`. -/
  stream : Money → List Char
  streamPlain : ∀ x, Xml.isPlain (stream x) = true
  streamReads : ∀ x, (scan (stream x)).isSome = true
  /-- What `strtod` makes of a text that is no number. -/
  part : List Char → Money
  /-- Does `strtod` set `errno` to `ERANGE`? -/
  range : List Char → Bool
  /-- A number with six digits behind the point is not beyond the range. -/
  inRange : ∀ x, range (print x) = false

/-- What `strtod` gives. -/
def NumberText.strtod (d : NumberText) (s : List Char) : Money := (d.scan s).getD (d.part s)

end Stargazer
