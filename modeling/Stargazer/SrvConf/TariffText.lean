import Stargazer.SrvConf.ChgUser
import Stargazer.Tariffs.Prices

set_option relaxedAutoImplicit false
set_option autoImplicit false

/-!
# The elements of a tariff

What the four codecs of tariffs have in common: `GET_TARIFFS::CreateAnswer` and `CHG_TARIFF::Start` of
`plugins/configuration/sgconfig/parser_tariffs.cpp` on the side of the server, `GetTariff::Parser` and
`ChgTariff::serialize` of `libs/srvconf/parsers` on the side of the client.  A tariff is a list of
elements; what is given for each direction is one list with slashes between the values, except for
the times of day and night, which are one element for each direction.

## Main definitions

* `Stargazer.TariffField` — the elements, with the names each side gives them.
* `Stargazer.aos2String`, `Stargazer.getSlashed`, `Stargazer.string2AOS` — lists with slashes.
* `Stargazer.TariffView` — a tariff without its numbers with a point.

## Main results

* `Stargazer.getSlashed_aos2String`, `Stargazer.string2AOS_aos2String` — both sides read the lists.
* `Stargazer.fieldOf_answerName`, `Stargazer.fieldOf_requestName` — each side knows the names the
  other one uses.
-/

namespace Stargazer

/-! ## Tariffs without their numbers with a point -/

/-- One direction. -/
@[ext]
structure DirView where
  hDay : ℤ
  mDay : ℤ
  hNight : ℤ
  mNight : ℤ
  threshold : ℤ
  singlePrice : ℤ
  noDiscount : ℤ

/-- A tariff without its numbers with a point. -/
@[ext]
structure TariffView where
  name : String
  traffType : TraffType
  period : Period
  changePolicy : ChangePolicy
  changePolicyTimeout : Time
  dir : Dir → DirView

def DirPriceData.view (p : DirPriceData) : DirView :=
  ⟨p.hDay, p.mDay, p.hNight, p.mNight, p.threshold, p.singlePrice, p.noDiscount⟩

def TariffData.view (t : TariffData) : TariffView :=
  ⟨t.tariffConf.name, t.tariffConf.traffType, t.tariffConf.period, t.tariffConf.changePolicy,
    t.tariffConf.changePolicyTimeout, fun i => (t.dirPrice i).view⟩

/-! ## The elements -/

/-- The whole numbers of a direction, apart from the times. -/
inductive FlagKind
  | threshold | singlePrice | noDiscount
  deriving DecidableEq

/-- The elements of a tariff. -/
inductive TariffField
  | fee | passiveCost | free | traffType | period | changePolicy | changePolicyTimeout
  | time (i : Dir)
  | price (k : PriceKind)
  | flag (k : FlagKind)
  deriving DecidableEq

namespace PriceKind

def put (k : PriceKind) (p : DirPriceData) (x : Money) : DirPriceData :=
  match k with
  | .dayA => { p with priceDayA := x }
  | .dayB => { p with priceDayB := x }
  | .nightA => { p with priceNightA := x }
  | .nightB => { p with priceNightB := x }

@[simp]
theorem view_put (k : PriceKind) (p : DirPriceData) (x : Money) : (k.put p x).view = p.view := by
  cases k <;> rfl

end PriceKind

namespace FlagKind

def get (k : FlagKind) (p : DirPriceData) : ℤ :=
  match k with
  | .threshold => p.threshold
  | .singlePrice => p.singlePrice
  | .noDiscount => p.noDiscount

def put (k : FlagKind) (p : DirPriceData) (x : ℤ) : DirPriceData :=
  match k with
  | .threshold => { p with threshold := x }
  | .singlePrice => { p with singlePrice := x }
  | .noDiscount => { p with noDiscount := x }

end FlagKind

namespace TariffField

/-- The names of the server, in `GET_TARIFFS::CreateAnswer` as well as in `CHG_TARIFF::Start`. -/
def answerName : TariffField → String
  | .fee => "Fee"
  | .passiveCost => "PassiveCost"
  | .free => "Free"
  | .traffType => "TraffType"
  | .period => "Period"
  | .changePolicy => "ChangePolicy"
  | .changePolicyTimeout => "ChangePolicyTimeout"
  | .time i => "Time" ++ toString i.val
  | .price .dayA => "PriceDayA"
  | .price .dayB => "PriceDayB"
  | .price .nightA => "PriceNightA"
  | .price .nightB => "PriceNightB"
  | .flag .threshold => "Threshold"
  | .flag .singlePrice => "SinglePrice"
  | .flag .noDiscount => "NoDiscount"

/-- The names of the client, in `ChgTariff::serialize` as well as in `GetTariff::Parser`. -/
def requestName : TariffField → String
  | .fee => "fee"
  | .passiveCost => "passiveCost"
  | .free => "free"
  | .traffType => "traffType"
  | .period => "period"
  | .changePolicy => "changePolicy"
  | .changePolicyTimeout => "changePolicyTimeout"
  | .time i => "time" ++ toString i.val
  | .price .dayA => "priceDayA"
  | .price .dayB => "priceDayB"
  | .price .nightA => "priceNightA"
  | .price .nightB => "priceNightB"
  | .flag .threshold => "threshold"
  | .flag .singlePrice => "singlePrice"
  | .flag .noDiscount => "noDiscount"

/-- All elements. -/
def all : List TariffField :=
  let conf : List TariffField :=
    [.fee, .passiveCost, .free, .traffType, .period, .changePolicy, .changePolicyTimeout]
  let times : List TariffField := (List.finRange 10).map .time
  let prices : List TariffField := [.price .dayA, .price .dayB, .price .nightA, .price .nightB]
  let flags : List TariffField := [.flag .threshold, .flag .singlePrice, .flag .noDiscount]
  conf ++ times ++ prices ++ flags

theorem mem_all (f : TariffField) : f ∈ all := by
  cases f with
  | time i => simp [all]
  | price k => cases k <;> simp [all]
  | flag k => cases k <;> simp [all]
  | _ => simp [all]

end TariffField

/-- The element a name stands for; capital letters make no difference. -/
def fieldOf (names : TariffField → String) (el : List Char) : Option TariffField :=
  TariffField.all.find? fun f => caseEq el (names f)

/-- **The client knows the names of the server.** -/
theorem fieldOf_answerName (f : TariffField) :
    fieldOf TariffField.requestName f.answerName.toList = some f := by
  have hall : ∀ f ∈ TariffField.all,
      fieldOf TariffField.requestName f.answerName.toList = some f := by decide +kernel
  exact hall f (TariffField.mem_all f)

/-- **The server knows the names of the client.** -/
theorem fieldOf_requestName (f : TariffField) :
    fieldOf TariffField.answerName f.requestName.toList = some f := by
  have hall : ∀ f ∈ TariffField.all,
      fieldOf TariffField.answerName f.requestName.toList = some f := by decide +kernel
  exact hall f (TariffField.mem_all f)

theorem isName_answerName (f : TariffField) : Xml.isName f.answerName.toList = true := by
  have hall : ∀ f ∈ TariffField.all, Xml.isName f.answerName.toList = true := by decide +kernel
  exact hall f (TariffField.mem_all f)

theorem isName_requestName (f : TariffField) : Xml.isName f.requestName.toList = true := by
  have hall : ∀ f ∈ TariffField.all, Xml.isName f.requestName.toList = true := by decide +kernel
  exact hall f (TariffField.mem_all f)

/-! ## Lists with slashes -/

/-- Numbers with a point in lists: no slash, and at least one character. -/
structure DecimalText extends DoubleText where
  noSlash : ∀ x, '/' ∉ print x
  ne_nil : ∀ x, print x ≠ []

/-- `AOS2String`, and the loop of `appendSlashedResetable`: the values of the directions. -/
def aos2String (texts : Dir → List Char) : List Char :=
  (List.finRange 10).foldl (fun res i => (if res = [] then res else res ++ ['/']) ++ texts i) []

/-- The texts with slashes between them. -/
theorem aos2String_eq {texts : Dir → List Char} (h : ∀ i, texts i ≠ []) :
    aos2String texts = ['/'].intercalate ((List.finRange 10).map texts) := by
  have hgen : ∀ (l : List Dir) (res : List Char), res ≠ [] →
      l.foldl (fun res i => (if res = [] then res else res ++ ['/']) ++ texts i) res =
        res ++ l.flatMap fun i => '/' :: texts i := by
    intro l
    induction l with
    | nil => intro res _; simp
    | cons i l ih =>
      intro res hres
      rw [List.foldl_cons, if_neg hres, ih _ (by simp)]
      simp
  have hjoin : ∀ (l : List Dir) (i : Dir), ['/'].intercalate ((i :: l).map texts) =
      texts i ++ l.flatMap fun i => '/' :: texts i := by
    intro l
    induction l with
    | nil => intro i; simp
    | cons j l ih =>
      intro i
      have hrest := ih j
      rw [List.map_cons] at hrest ⊢
      rw [List.map_cons, List.intercalate_cons_cons, hrest]
      simp
  obtain ⟨i, l, hl⟩ : ∃ (i : Dir) (l : List Dir), List.finRange 10 = i :: l := ⟨_, _, rfl⟩
  rw [aos2String, hl, List.foldl_cons, hjoin, hgen _ _ (by simp [h i])]
  simp

/-- The texts between the slashes. -/
theorem splitOn_aos2String {texts : Dir → List Char} (h : ∀ i, texts i ≠ [])
    (h' : ∀ i, '/' ∉ texts i) :
    (aos2String texts).splitOn '/' = (List.finRange 10).map texts := by
  rw [aos2String_eq h, List.splitOn_intercalate]
  · intro t ht
    obtain ⟨i, -, rfl⟩ := List.mem_map.1 ht
    exact h' i
  · simp

/-- A list with slashes can stand in a value. -/
theorem isPlain_aos2String {texts : Dir → List Char} (h : ∀ i, Xml.isPlain (texts i) = true) :
    Xml.isPlain (aos2String texts) = true := by
  have hgen : ∀ (l : List Dir) (res : List Char), Xml.isPlain res = true →
      Xml.isPlain (l.foldl (fun res i => (if res = [] then res else res ++ ['/']) ++ texts i) res) =
        true := by
    intro l
    induction l with
    | nil => intro res hres; exact hres
    | cons i l ih =>
      intro res hres
      refine ih _ ?_
      have hi := h i
      simp only [Xml.isPlain, List.all_eq_true] at hres hi ⊢
      intro c hc
      rcases List.mem_append.1 hc with hc | hc
      · split_ifs at hc
        · exact hres c hc
        · rcases List.mem_append.1 hc with hc | hc
          · exact hres c hc
          · rw [List.mem_singleton.1 hc]
            decide
      · exact hi c hc
  exact hgen _ [] rfl

section Slashed

variable {α : Type}

/-- The loop of `getSlashedValue` on the texts between the slashes, for so many directions: what is
stored for each direction, and whether all are numbers. -/
def getSlashed (parse : List Char → Option α × Bool) : ℕ → List (List Char) → List (Option α) × Bool
  | 0, _ => ([], true)
  | _, [] => ([], true)
  | n + 1, t :: ts =>
    if (parse t).2 then ((parse t).1 :: (getSlashed parse n ts).1, (getSlashed parse n ts).2)
    else ([(parse t).1], false)

/-- `String2AOS` on the texts between the slashes.  Nothing is stored for a text that is no number;
there is no result where something is stored behind the array.  That the result of the last text is
turned around is not to be seen: nobody looks at it. -/
def string2AOS (parse : List Char → Option α) : ℕ → List (List Char) → Option (List (Option α))
  | 0, ts => if (parse (['/'].intercalate ts)).isSome then none else some []
  | _, [] => some []
  | _ + 1, [t] => some [parse t]
  | n + 1, t :: t' :: ts =>
    match parse t with
    | none => some []
    | some v => (string2AOS parse n (t' :: ts)).map (some v :: ·)

theorem getSlashed_map {parse : List Char → Option α × Bool} {β : Type} {texts : β → List Char}
    {value : β → α} (l : List β) (h : ∀ b, parse (texts b) = (some (value b), true)) :
    getSlashed parse l.length (l.map texts) = (l.map fun b => some (value b), true) := by
  induction l with
  | nil => rfl
  | cons b l ih => simp [getSlashed, h b, ih]

theorem string2AOS_map {parse : List Char → Option α} {β : Type} {texts : β → List Char}
    {value : β → α} (l : List β) (hl : l ≠ []) (h : ∀ b, parse (texts b) = some (value b)) :
    string2AOS parse l.length (l.map texts) = some (l.map fun b => some (value b)) := by
  induction l with
  | nil => exact absurd rfl hl
  | cons b l ih =>
    cases l with
    | nil => simp [string2AOS, h b]
    | cons b' l =>
      have hrest := ih (by simp)
      simp only [List.map_cons, List.length_cons] at hrest ⊢
      simp [string2AOS, h b, hrest]

/-- **The client reads a list.** -/
theorem getSlashed_aos2String {parse : List Char → Option α × Bool} {texts : Dir → List Char}
    {value : Dir → α} (hne : ∀ i, texts i ≠ []) (hslash : ∀ i, '/' ∉ texts i)
    (h : ∀ i, parse (texts i) = (some (value i), true)) :
    getSlashed parse 10 ((aos2String texts).splitOn '/') =
      ((List.finRange 10).map fun i => some (value i), true) := by
  rw [splitOn_aos2String hne hslash]
  exact getSlashed_map (List.finRange 10) h

/-- **The server reads a list.** -/
theorem string2AOS_aos2String {parse : List Char → Option α} {texts : Dir → List Char}
    {value : Dir → α} (hne : ∀ i, texts i ≠ []) (hslash : ∀ i, '/' ∉ texts i)
    (h : ∀ i, parse (texts i) = some (value i)) :
    string2AOS parse 10 ((aos2String texts).splitOn '/') =
      some ((List.finRange 10).map fun i => some (value i)) := by
  rw [splitOn_aos2String hne hslash]
  exact string2AOS_map (List.finRange 10) (by simp) h

end Slashed

/-- Values for some directions are stored. -/
def TariffData.putDirs {α : Type} (put : DirPriceData → α → DirPriceData) (vals : List (Option α))
    (t : TariffData) : TariffData :=
  { t with
    dirPrice := fun i =>
      match vals[i.val]? with
      | some (some v) => put (t.dirPrice i) v
      | _ => t.dirPrice i }

/-- Values for all directions. -/
theorem TariffData.putDirs_all {α : Type} (put : DirPriceData → α → DirPriceData) (value : Dir → α)
    (t : TariffData) :
    t.putDirs put ((List.finRange 10).map fun i => some (value i)) =
      { t with dirPrice := fun i => put (t.dirPrice i) (value i) } := by
  have hget : ∀ i : Dir, ((List.finRange 10).map fun i => some (value i))[i.val]? =
      some (some (value i)) := by
    intro i
    simp
  simp only [putDirs, hget]

end Stargazer
