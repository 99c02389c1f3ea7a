import Stargazer.RpcConfig.Structures

set_option relaxedAutoImplicit false
set_option autoImplicit false

/-!
# What a change of a user by XML-RPC applies

`USER_HELPER::SetUserInfo` comes back with an error where a property may not be set, and it comes back
without one although a part of what was asked for is passed over: a counter that is out of range or comes
behind one that is, an address that is not read again, a tariff that there is not, or that the user may not
change to.

## Main definitions

* `Stargazer.UserHelper.Applied` — every member of a structure has been applied to a user.
* `Stargazer.UserHelper.Fits` — how a structure has to be for that.

## Main results

* `Stargazer.UserHelper.setAllNew_fst_iff` — when no property is refused.
* `Stargazer.UserHelper.held_setAllNew` — the properties are what they were set to.
* `Stargazer.UserHelper.setUserStruct_applied_iff` — `SetUserInfo` succeeds and applies everything
  exactly if the structure fits.
-/

namespace Stargazer

open XmlRpc

namespace Change

/-- The position of a change in `SetUserInfo`. -/
def place : Change → ℕ
  | .ips _ => 0
  | .alwaysOnline _ => 1
  | .text .password _ => 2
  | .text .address _ => 3
  | .text .phone _ => 4
  | .text .email _ => 5
  | .cash _ _ => 6
  | .creditExpire _ => 7
  | .credit _ => 8
  | .freeMb _ => 9
  | .disabled _ => 10
  | .passive _ => 11
  | .disabledDetailStat _ => 12
  | .text .realName _ => 13
  | .text .group _ => 14
  | .text .note _ => 15
  | .text (.userdata i) _ => 16 + i.val
  | .up _ => 26
  | .down _ => 27
  | .tariffName _ => 28
  | .nextTariff _ => 29

/-- The property has the value that was asked for.  Amounts of money are compared as the code compares
them, and the balance without what becoming passive has cost. -/
def Held (charge : Money) (p : UserProperties) : Change → Prop
  | .ips v => p.ips = v
  | .alwaysOnline v => p.alwaysOnline = v
  | .text f v => p.text f = v
  | .creditExpire v => p.creditExpire = v
  | .credit v => |p.credit - v| ≤ 1 / 1000
  | .freeMb v => |p.freeMb - v| ≤ 1 / 1000
  | .disabled v => p.disabled = v
  | .disabledDetailStat v => p.disabledDetailStat = v
  | .passive v => p.passive = v
  -- an amount that is to be added is not what the user has afterwards
  | .cash true _ => True
  | .cash false v => |p.cash + charge - v| ≤ 1 / 1000
  | .tariffName v => p.tariffName = v
  | .nextTariff v => p.nextTariff = v
  | .up v => ∀ i x, v i = some x → p.up i = x
  | .down v => ∀ i x, v i = some x → p.down i = x

section

variable {env : Env} {tariff : Option TariffImpl} {p q : UserProperties} {c d : Change}

theorem place_eq_cash (h : c.place = 6) : ∃ b v, c = .cash b v := by
  cases c with
  | cash b v => exact ⟨b, v, rfl⟩
  | text f v => cases f <;> simp only [place] at h <;> omega
  | _ => simp [place] at h

theorem place_eq_passive (h : c.place = 11) : ∃ v, c = .passive v := by
  cases c with
  | passive v => exact ⟨v, rfl⟩
  | text f v => cases f <;> simp only [place] at h <;> omega
  | _ => simp [place] at h

theorem rank_ne_of_place (h : c.place ≠ 28) : c.rank ≠ 26 := by
  intro hrank
  obtain ⟨v, rfl⟩ := rank_eq_tariffName hrank
  exact h rfl

/-- **A change in another place does not touch what a change is about**, but for the balance of a user
who becomes passive. -/
theorem agree_update_of_place (h : c.place ≠ d.place) (hcash : ¬(c.place = 6 ∧ d.place = 11))
    (hd : d.place ≠ 28) : c.Agree (d.update env tariff p) p := by
  cases d with
  | tariffName v => exact absurd rfl hd
  | text g w =>
    cases c with
    | text f v =>
      have hne : f ≠ g := by
        rintro rfl
        exact h (by cases f <;> rfl)
      exact Function.update_of_ne hne _ _
    | cash x v => exact ⟨rfl, rfl, rfl⟩
    | _ => rfl
  | passive v =>
    have hpassive : ∃ cash add time, (Change.passive v).update env tariff p =
        { p with passive := v, cash := cash, lastCashAdd := add, lastCashAddTime := time } := by
      simp only [update]
      split
      · split_ifs <;> exact ⟨_, _, _, rfl⟩
      · exact ⟨_, _, _, rfl⟩
    obtain ⟨cash, add, time, heq⟩ := hpassive
    rw [heq]
    cases c with
    | cash x v => exact absurd ⟨rfl, rfl⟩ hcash
    | passive w => exact absurd rfl h
    | _ => rfl
  | _ =>
    cases c with
    | cash x v => first | exact ⟨rfl, rfl, rfl⟩ | exact absurd rfl h
    | _ => first | rfl | exact absurd rfl h

/-- What a change is about keeps its value where it is not touched. -/
theorem Held.congr {charge : Money} (h : c.Agree p q) (hc : c.Held charge q) : c.Held charge p := by
  cases c with
  | cash b v =>
    cases b with
    | true => trivial
    | false =>
      show |p.cash + charge - v| ≤ 1 / 1000
      rw [h.1]
      exact hc
  | up v =>
    intro i x hx
    rw [show p.up = q.up from h]
    exact hc i x hx
  | down v =>
    intro i x hx
    rw [show p.down = q.down from h]
    exact hc i x hx
  | credit v =>
    show |p.credit - v| ≤ 1 / 1000
    rw [show p.credit = q.credit from h]
    exact hc
  | freeMb v =>
    show |p.freeMb - v| ≤ 1 / 1000
    rw [show p.freeMb = q.freeMb from h]
    exact hc
  | _ => exact Eq.trans h hc

/-- Only of the balance something may be taken. -/
theorem Held.of_place {charge charge' : Money} (h : c.place ≠ 6) (hc : c.Held charge p) :
    c.Held charge' p := by
  cases c with
  | cash b v => exact absurd rfl h
  | _ => exact hc

end

end Change

namespace UserHelper

/-! ## The properties one after another -/

section SetAllNew

variable {env : Env} {priv : Priv} {u u' : UserRecord} {c d : Change} {l : List Change}

/-- **One property**: it is refused, or it has its value already, or it is set. -/
theorem setNew_cases (env : Env) (priv : Priv) (u : UserRecord) (c : Change) :
    (unchanged u c = false ∧ c.maySet priv = false ∧ setNew env priv u c = (false, u)) ∨
      (unchanged u c = true ∧ setNew env priv u c = (true, u)) ∨
        (c.maySet priv = true ∧ setNew env priv u c = (true, c.set env u)) := by
  unfold setNew
  cases unchanged u c with
  | true => exact .inr (.inl ⟨rfl, rfl⟩)
  | false =>
    cases c.maySet priv with
    | true => exact .inr (.inr ⟨rfl, rfl⟩)
    | false => exact .inl ⟨rfl, rfl, rfl⟩

/-- Whether a property has its value already depends on what the change is about. -/
theorem unchanged_congr (h : c.Agree u.properties u'.properties) : unchanged u c = unchanged u' c := by
  cases c with
  | cash b v =>
    have hcash : u.user.cash = u'.user.cash := h.1
    simp only [unchanged, hcash]
  | credit v =>
    have hcredit : u.user.credit = u'.user.credit := h
    simp only [unchanged, hcredit]
  | freeMb v =>
    have hfreeMb : u.user.freeMb = u'.user.freeMb := h
    simp only [unchanged, hfreeMb]
  | ips v => rfl
  | up v => rfl
  | down v => rfl
  | alwaysOnline v => exact congrArg (· == v) h
  | text f v => exact congrArg (· == v) h
  | creditExpire v => exact congrArg (· == v) h
  | disabled v => exact congrArg (· == v) h
  | disabledDetailStat v => exact congrArg (· == v) h
  | passive v => exact congrArg (· == v) h
  | tariffName v => exact congrArg (· == v) h
  | nextTariff v => exact congrArg (· == v) h

/-- One property leaves the tariff as it is, and everything that it is not about. -/
theorem setNew_frame (env : Env) (priv : Priv) (u : UserRecord) (hd : d.place ≠ 28) :
    (setNew env priv u d).2.user.tariff = u.user.tariff ∧
      ∀ c : Change, c.place ≠ d.place → ¬(c.place = 6 ∧ d.place = 11) →
        c.Agree (setNew env priv u d).2.properties u.properties := by
  rcases setNew_cases env priv u d with ⟨-, -, h⟩ | ⟨-, h⟩ | ⟨-, h⟩
  · rw [h]
    exact ⟨rfl, fun c _ _ => .refl _ c⟩
  · rw [h]
    exact ⟨rfl, fun c _ _ => .refl _ c⟩
  · rw [h]
    refine ⟨Change.tariff_set env u (Change.rank_ne_of_place hd), fun c hne hcash => ?_⟩
    show c.Agree (d.set env u).properties u.properties
    rw [Change.properties_set]
    exact Change.agree_update_of_place hne hcash hd

/-- The user stays who he is. -/
theorem setNew_identity (env : Env) (priv : Priv) (u : UserRecord) (c : Change) :
    (setNew env priv u c).2.user.login = u.user.login ∧ (setNew env priv u c).2.indexed = u.indexed := by
  rcases setNew_cases env priv u c with ⟨-, -, h⟩ | ⟨-, h⟩ | ⟨-, h⟩
  · rw [h]
    exact ⟨rfl, rfl⟩
  · rw [h]
    exact ⟨rfl, rfl⟩
  · rw [h]
    refine ⟨Change.login_set env u c, ?_⟩
    cases c <;> rfl

/-- All properties after the first. -/
theorem setAllNew_cons_of_fst (h : (setNew env priv u c).1 = true) :
    setAllNew env priv u (c :: l) = setAllNew env priv (setNew env priv u c).2 l := by
  rw [setAllNew]
  cases hset : setNew env priv u c with
  | mk ok u' =>
    rw [hset] at h
    obtain rfl : ok = true := h
    rfl

theorem setAllNew_cons_of_not_fst (h : (setNew env priv u c).1 = false) :
    setAllNew env priv u (c :: l) = setNew env priv u c := by
  rw [setAllNew]
  cases hset : setNew env priv u c with
  | mk ok u' =>
    rw [hset] at h
    obtain rfl : ok = false := h
    rfl

/-- The properties leave the tariff as it is, and everything that none of them is about.

**Proof sketch.** Induction on the list of properties. -/
theorem setAllNew_frame (env : Env) (priv : Priv) (hl : ∀ d ∈ l, d.place ≠ 28) (u : UserRecord) :
    (setAllNew env priv u l).2.user.tariff = u.user.tariff ∧
      ∀ c : Change, (∀ d ∈ l, c.place ≠ d.place ∧ ¬(c.place = 6 ∧ d.place = 11)) →
        c.Agree (setAllNew env priv u l).2.properties u.properties := by
  induction l generalizing u with
  | nil => exact ⟨rfl, fun c _ => .refl _ c⟩
  | cons d l ih =>
    obtain ⟨htariff, hagree⟩ := setNew_frame env priv u (hl d List.mem_cons_self)
    have hhead (c : Change)
        (hc : ∀ e ∈ d :: l, c.place ≠ e.place ∧ ¬(c.place = 6 ∧ e.place = 11)) :=
      hagree c (hc d List.mem_cons_self).1 (hc d List.mem_cons_self).2
    cases hok : (setNew env priv u d).1 with
    | false =>
      rw [setAllNew_cons_of_not_fst hok]
      exact ⟨htariff, hhead⟩
    | true =>
      rw [setAllNew_cons_of_fst hok]
      obtain ⟨htariff', hagree'⟩ :=
        ih (fun e he => hl e (List.mem_cons_of_mem d he)) (setNew env priv u d).2
      exact ⟨htariff'.trans htariff, fun c hc =>
        (hagree' c fun e he => hc e (List.mem_cons_of_mem d he)).trans (hhead c hc)⟩

theorem setAllNew_identity (env : Env) (priv : Priv) (u : UserRecord) (l : List Change) :
    (setAllNew env priv u l).2.user.login = u.user.login ∧
      (setAllNew env priv u l).2.indexed = u.indexed := by
  induction l generalizing u with
  | nil => exact ⟨rfl, rfl⟩
  | cons d l ih =>
    obtain ⟨hlogin, hindexed⟩ := setNew_identity env priv u d
    cases hok : (setNew env priv u d).1 with
    | false =>
      rw [setAllNew_cons_of_not_fst hok]
      exact ⟨hlogin, hindexed⟩
    | true =>
      rw [setAllNew_cons_of_fst hok]
      obtain ⟨hlogin', hindexed'⟩ := ih (setNew env priv u d).2
      exact ⟨hlogin'.trans hlogin, hindexed'.trans hindexed⟩

/-- The properties stand in the order of `SetUserInfo`, and none of them is a tariff. -/
structure InPlace (l : List Change) : Prop where
  sorted : l.Pairwise fun c d => c.place < d.place
  lt : ∀ c ∈ l, c.place < 28

theorem InPlace.of_cons (h : InPlace (c :: l)) : InPlace l :=
  ⟨h.sorted.of_cons, fun d hd => h.lt d (List.mem_cons_of_mem c hd)⟩

/-- **When no property is refused**: each of them has its value already, or may be set.

**Proof sketch.** Induction on the list; what a later property is about is not touched by the first. -/
theorem setAllNew_fst_iff (hl : InPlace l) (u : UserRecord) :
    (setAllNew env priv u l).1 = true ↔ ∀ c ∈ l, unchanged u c = true ∨ c.maySet priv = true := by
  induction l generalizing u with
  | nil => exact iff_of_true rfl fun c hc => by cases hc
  | cons c l ih =>
    have hlt : ∀ d ∈ l, c.place < d.place := fun d hd => List.rel_of_pairwise_cons hl.sorted hd
    have hc := hl.lt c List.mem_cons_self
    obtain ⟨-, hagree⟩ := setNew_frame env priv u (d := c) (by omega)
    have hrest : ∀ d ∈ l, unchanged (setNew env priv u c).2 d = unchanged u d := by
      intro d hd
      have := hlt d hd
      exact unchanged_congr (hagree d (by omega) (by omega))
    rw [List.forall_mem_cons]
    rcases setNew_cases env priv u c with ⟨hun, hmay, h⟩ | ⟨hun, h⟩ | ⟨hmay, h⟩
    · have hok : (setNew env priv u c).1 = false := by rw [h]
      rw [setAllNew_cons_of_not_fst hok, hok, hun, hmay]
      simp
    · have hok : (setNew env priv u c).1 = true := by rw [h]
      rw [setAllNew_cons_of_fst hok, ih hl.of_cons, and_iff_right (Or.inl hun)]
      exact forall₂_congr fun d hd => by rw [hrest d hd]
    · have hok : (setNew env priv u c).1 = true := by rw [h]
      rw [setAllNew_cons_of_fst hok, ih hl.of_cons, and_iff_right (Or.inr hmay)]
      exact forall₂_congr fun d hd => by rw [hrest d hd]

/-! ### The balance -/

/-- Does one of the changes make the user passive? -/
def asksPassive (l : List Change) : Bool := l.any fun
  | .passive v => v != 0
  | _ => false

/-- What it costs the user that he becomes passive, if he does. -/
def charge (u : UserRecord) (l : List Change) : Money :=
  match u.user.tariff with
  | none => 0
  | some t => if u.user.passive = 0 ∧ asksPassive l = true then t.tariffConf.passiveCost else 0

/-- A change that makes nobody passive. -/
theorem asksPassive_cons_of_place (h : c.place ≠ 11) : asksPassive (c :: l) = asksPassive l := by
  cases c with
  | passive v => exact absurd rfl h
  | _ => rfl

/-- Behind the place of `passive` nobody becomes passive. -/
theorem asksPassive_eq_false (h : ∀ d ∈ l, 11 < d.place) : asksPassive l = false := by
  refine List.any_eq_false.mpr fun d hd => ?_
  have hne : d.place ≠ 11 := Nat.ne_of_gt (h d hd)
  cases d with
  | passive v => exact absurd rfl hne
  | _ => exact Bool.false_ne_true

theorem charge_eq_zero (u : UserRecord) (h : asksPassive l = false) : charge u l = 0 := by
  unfold charge
  rw [h]
  cases u.user.tariff with
  | none => rfl
  | some t => exact if_neg fun hp => Bool.false_ne_true hp.2

/-- What is still to be paid after a change that makes nobody passive. -/
theorem charge_setNew (env : Env) (priv : Priv) (u : UserRecord) (h : c.place ≠ 11) (hc : c.place ≠ 28) :
    charge (setNew env priv u c).2 l = charge u (c :: l) := by
  obtain ⟨htariff, hagree⟩ := setNew_frame env priv u hc
  have hpassive : (setNew env priv u c).2.user.passive = u.user.passive :=
    hagree (.passive 0) (fun heq => h heq.symm) fun hp => absurd hp.1 (by simp [Change.place])
  unfold charge
  rw [htariff, hpassive, asksPassive_cons_of_place h]

/-- **The balance** after properties of which none is the balance: becoming passive has been paid.

**Proof sketch.** Induction on the list; behind the change that makes the user passive there is no other
one. -/
theorem cash_setAllNew (hl : InPlace l) (hlt : ∀ c ∈ l, 6 < c.place) (u : UserRecord)
    (hok : (setAllNew env priv u l).1 = true) :
    (setAllNew env priv u l).2.user.cash = u.user.cash - charge u l := by
  induction l generalizing u with
  | nil => rw [charge_eq_zero u rfl, sub_zero, setAllNew]
  | cons c l ih =>
    have hc := hlt c List.mem_cons_self
    have hc' := hl.lt c List.mem_cons_self
    obtain ⟨-, hagree⟩ := setNew_frame env priv u (d := c) (by omega)
    have hfst : (setNew env priv u c).1 = true := by
      by_contra hnot
      rw [setAllNew_cons_of_not_fst (Bool.eq_false_iff.mpr hnot)] at hok
      exact hnot hok
    rw [setAllNew_cons_of_fst hfst] at hok ⊢
    rw [ih hl.of_cons (fun d hd => hlt d (List.mem_cons_of_mem c hd)) _ hok]
    by_cases hpassive : c.place = 11
    · obtain ⟨v, rfl⟩ := Change.place_eq_passive hpassive
      have hrest : asksPassive l = false := asksPassive_eq_false fun d hd =>
        hpassive ▸ List.rel_of_pairwise_cons hl.sorted hd
      have hasks : asksPassive (.passive v :: l) = (v != 0) := by
        show ((v != 0) || asksPassive l) = (v != 0)
        rw [hrest, Bool.or_false]
      rw [charge_eq_zero _ hrest, sub_zero]
      unfold charge
      rw [hasks]
      rcases setNew_cases env priv u (.passive v) with ⟨-, -, h⟩ | ⟨hun, h⟩ | ⟨-, h⟩
      · rw [h] at hfst
        cases hfst
      · -- who is passive already does not pay
        obtain rfl : u.user.passive = v := by simpa [unchanged] using hun
        rw [h]
        cases u.user.tariff with
        | none => simp
        | some t => simp
      · rw [h]
        simp only [Change.set, UserImpl.setPassive]
        cases ht : u.user.tariff with
        | none => simp
        | some t =>
          by_cases hv : v ≠ 0 ∧ u.user.passive = 0
          · simp [hv, UserImpl.setCash]
          · have hv' : ¬(u.user.passive = 0 ∧ (v != 0) = true) := fun h => hv ⟨by simpa using h.2, h.1⟩
            simp only [if_neg hv, if_neg hv', sub_zero]
    · have hcash : (setNew env priv u c).2.user.cash = u.user.cash :=
        (hagree (.cash false 0) (Nat.ne_of_lt hc) fun h => hpassive h.2).1
      rw [hcash, charge_setNew env priv u hpassive (by omega)]

/-! ### What was asked for -/

/-- A property that has its value already, or that has been set, has the value that was asked for. -/
theorem held_setNew (hok : (setNew env priv u c).1 = true) (hc : c.place ≠ 28) :
    c.Held 0 (setNew env priv u c).2.properties := by
  rcases setNew_cases env priv u c with ⟨-, -, h⟩ | ⟨hun, h⟩ | ⟨-, h⟩
  · rw [h] at hok
    cases hok
  · rw [h]
    cases c with
    | ips v => cases hun
    | up v => cases hun
    | down v => cases hun
    | cash b v =>
      cases b with
      | true => trivial
      | false => simpa [unchanged, Change.Held, UserRecord.properties] using hun
    | credit v =>
      have hnear : |u.user.credit - v| ≤ 1 / 1000 := of_decide_eq_true hun
      exact hnear
    | freeMb v =>
      have hnear : |u.user.freeMb - v| ≤ 1 / 1000 := of_decide_eq_true hun
      exact hnear
    | _ => exact eq_of_beq hun
  · rw [h]
    show c.Held 0 (c.set env u).properties
    rw [Change.properties_set]
    cases c with
    | tariffName v => exact absurd rfl hc
    | text f v => exact Function.update_self f v u.properties.text
    | cash b v => cases b <;> simp [Change.Held, Change.update]
    | credit v => simp [Change.Held, Change.update]
    | freeMb v => simp [Change.Held, Change.update]
    | up v =>
      intro i x hx
      simp [Change.update, mergeDirs, hx]
    | down v =>
      intro i x hx
      simp [Change.update, mergeDirs, hx]
    | passive v =>
      show ((Change.passive v).update env u.user.tariff u.properties).passive = v
      simp only [Change.update]
      split
      · split_ifs <;> rfl
      · rfl
    | _ => rfl

/-- **The properties are what they were set to**, if none of them is refused.

**Proof sketch.** Induction on the list: what the first property is about is not touched by the others,
but for the balance, of which only the charge is taken. -/
theorem held_setAllNew (hl : InPlace l) (u : UserRecord) (hok : (setAllNew env priv u l).1 = true) :
    ∀ c ∈ l, c.Held (charge u l) (setAllNew env priv u l).2.properties := by
  induction l generalizing u with
  | nil =>
    intro c hc
    cases hc
  | cons c l ih =>
    have hc := hl.lt c List.mem_cons_self
    have hlt : ∀ d ∈ l, c.place < d.place := fun d hd => List.rel_of_pairwise_cons hl.sorted hd
    have hfst : (setNew env priv u c).1 = true := by
      by_contra hnot
      rw [setAllNew_cons_of_not_fst (Bool.eq_false_iff.mpr hnot)] at hok
      exact hnot hok
    rw [setAllNew_cons_of_fst hfst] at hok ⊢
    have hheld := held_setNew hfst (by omega)
    rw [List.forall_mem_cons]
    constructor
    · by_cases hcash : c.place = 6
      · obtain ⟨b, v, rfl⟩ := Change.place_eq_cash hcash
        cases b with
        | true => trivial
        | false =>
          have hrest := cash_setAllNew hl.of_cons (fun d hd => hcash ▸ hlt d hd) _ hok
          rw [charge_setNew env priv u (by omega) (by omega)] at hrest
          have hv : |(setNew env priv u (.cash false v)).2.user.cash + 0 - v| ≤ 1 / 1000 := hheld
          show |(setAllNew env priv _ l).2.user.cash + charge u _ - v| ≤ 1 / 1000
          rw [hrest, sub_add_cancel]
          rwa [add_zero] at hv
      · refine Change.Held.congr ?_ (hheld.of_place hcash)
        refine (setAllNew_frame env priv (fun d hd => ?_) _).2 c fun d hd => ⟨?_, fun h => hcash h.1⟩
        · exact Nat.ne_of_lt (hl.lt d (List.mem_cons_of_mem c hd))
        · exact Nat.ne_of_lt (hlt d hd)
    · intro d hd
      have hd' := ih hl.of_cons _ hok d hd
      by_cases hpassive : c.place = 11
      · have := hlt d hd
        exact hd'.of_place (by omega)
      · rwa [charge_setNew env priv u hpassive (by omega)] at hd'

end SetAllNew

/-! ## The members of a structure -/

/-- The changes that can be read, up to the first member that cannot. -/
def readable : List (Halting Change) → List Change
  | .going c :: l => c :: readable l
  | _ => []

/-- Every member can be read. -/
def AllRead (l : List (Halting Change)) : Prop := l = (readable l).map .going

section Steps

variable {env : Env} {priv : Priv} {iconv : String → String} {errno : InfoErrno} {ips : Option UserIPs}
  {m : List (String × Value)} {u : UserRecord} {l : List (Halting Change)}

theorem allRead_cons {c : Change} : AllRead (.going c :: l) ↔ AllRead l := by
  show Halting.going c :: l = .going c :: (readable l).map .going ↔ _
  exact ⟨fun h => (List.cons.inj h).2, fun h => congrArg _ h⟩

/-- **The members one after another**: those that can be read are set, and there is a result only where
one of them is refused or all of them can be read.

**Proof sketch.** Induction on the members. -/
theorem setSteps_eq_going_iff (r : Bool × UserRecord) :
    setSteps env priv u l = .going r ↔
      setAllNew env priv u (readable l) = r ∧ (r.1 = true → AllRead l) := by
  induction l generalizing u with
  | nil =>
    show Halting.going (true, u) = .going r ↔ (true, u) = r ∧ _
    exact ⟨fun h => ⟨Halting.going.inj h, fun _ => rfl⟩, fun h => congrArg _ h.1⟩
  | cons x l ih =>
    cases x with
    | going c =>
      rw [allRead_cons]
      show setSteps env priv u (.going c :: l) = .going r ↔
        setAllNew env priv u (c :: readable l) = r ∧ _
      rw [setSteps, setAllNew]
      cases setNew env priv u c with
      | mk ok u' =>
        cases ok with
        | true => exact ih
        | false =>
          refine ⟨fun h => ?_, fun h => congrArg _ h.1⟩
          obtain rfl := Halting.going.inj h
          exact ⟨rfl, fun hok => by cases hok⟩
    | stopped =>
      refine iff_of_false (fun h => by cases h) fun h => ?_
      have hr : (true, u) = r := h.1
      have hread := h.2 (hr ▸ rfl)
      cases hread
    | failed =>
      refine iff_of_false (fun h => by cases h) fun h => ?_
      have hr : (true, u) = r := h.1
      have hread := h.2 (hr ▸ rfl)
      cases hread

/-- What can be read is among what goes on. -/
theorem readable_sublist (l : List (Halting Change)) :
    (readable l).Sublist (l.filterMap Halting.state?) := by
  induction l with
  | nil => exact .slnil
  | cons x l ih =>
    cases x with
    | going c => exact ih.cons_cons c
    | stopped => exact List.nil_sublist _
    | failed => exact List.nil_sublist _

theorem mem_readable_of_allRead (h : AllRead l) {c : Change} : .going c ∈ l ↔ c ∈ readable l := by
  constructor
  · intro hc
    rw [h] at hc
    obtain ⟨d, hd, hdc⟩ := List.mem_map.mp hc
    exact Halting.going.inj hdc ▸ hd
  · intro hc
    rw [h]
    exact List.mem_map_of_mem hc

/-- The places of the changes of a member. -/
theorem places_one {α : Type} {name : String} {conv : Value → Option α} {f : α → Change} {k : ℕ}
    (hf : ∀ a, (f a).place = k) :
    (((one m name conv f).filterMap Halting.state?).map Change.place).Sublist [k] := by
  unfold one
  cases m.lookup name with
  | none => exact List.nil_sublist _
  | some v =>
    simp only [Option.toList_some, List.map_cons, List.map_nil]
    cases conv v with
    | none => exact List.nil_sublist _
    | some a =>
      show [(f a).place].Sublist [k]
      rw [hf]

/-- The places of the ten texts. -/
theorem places_userdata (iconv : String → String) (m : List (String × Value)) :
    (((userdataSteps iconv m).filterMap Halting.state?).map Change.place).Sublist
      ((List.finRange 10).map fun i => 16 + i.val) := by
  unfold userdataSteps
  cases m.lookup "userdata" with
  | none => exact List.nil_sublist _
  | some v =>
    dsimp only
    cases v.array? with
    | none => exact List.nil_sublist _
    | some udata =>
      dsimp only
      induction List.finRange 10 with
      | nil => exact .slnil
      | cons i is ih =>
        have hone : readText iconv udata i = .stopped ∨ readText iconv udata i = .failed ∨
            ∃ text, readText iconv udata i = .going (.text (.userdata i) text) := by
          unfold readText
          cases udata[i.val]? with
          | none => exact .inr (.inl rfl)
          | some v =>
            cases hv : v.string? with
            | none =>
              simp only [hv]
              exact .inl rfl
            | some text =>
              simp only [hv]
              exact .inr (.inr ⟨_, rfl⟩)
        rw [List.map_cons, List.map_cons]
        rcases hone with h | h | ⟨text, h⟩
        · rw [h]
          exact ih.cons _
        · rw [h]
          exact ih.cons _
        · rw [h]
          exact ih.cons_cons _

/-- The place of the addresses. -/
theorem places_ips (ips : Option UserIPs) :
    (((ips.toList.map fun ips => Halting.going (.ips ips)).filterMap Halting.state?).map
      Change.place).Sublist [0] := by
  cases ips with
  | none => exact List.nil_sublist _
  | some ips => exact List.Sublist.refl _

/-- The places of the counters. -/
theorem places_traff (errno : InfoErrno) (m : List (String × Value)) :
    (((traffSteps errno m).filterMap Halting.state?).map Change.place).Sublist ([26] ++ [27]) := by
  unfold traffSteps
  cases m.lookup "traff" with
  | none => exact List.nil_sublist _
  | some v =>
    dsimp only
    cases v.struct? with
    | none => exact List.nil_sublist _
    | some traff =>
      dsimp only
      rw [List.filterMap_append, List.map_append]
      refine List.Sublist.append ?_ ?_
      · exact places_one fun _ => rfl
      · exact places_one fun _ => rfl

/-- **The members stand in the order of their places**, which are the numbers from 0 to 27. -/
theorem inPlace_readable (iconv : String → String) (errno : InfoErrno) (ips : Option UserIPs)
    (m : List (String × Value)) : InPlace (readable (steps iconv errno ips m)) := by
  have hrange : List.range 28 =
      [0] ++ [1] ++ [2] ++ [3] ++ [4] ++ [5] ++ [6] ++ [7] ++ [8] ++ [9] ++ [10] ++ [11] ++ [12] ++ [13] ++
        [14] ++ [15] ++ ((List.finRange 10).map (fun i : Fin 10 => 16 + i.val) ++ ([26] ++ [27])) := by
    decide
  have hsub : ((readable (steps iconv errno ips m)).map Change.place).Sublist (List.range 28) := by
    refine ((readable_sublist _).map _).trans ?_
    rw [hrange]
    unfold steps firstSteps
    simp only [List.filterMap_append, List.map_append]
    refine List.Sublist.append ?_ ((places_userdata iconv m).append (places_traff errno m))
    refine List.Sublist.append ?_ (places_one fun _ => rfl)
    refine List.Sublist.append ?_ (places_one fun _ => rfl)
    refine List.Sublist.append ?_ (places_one fun _ => rfl)
    refine List.Sublist.append ?_ (places_one fun _ => rfl)
    refine List.Sublist.append ?_ (places_one fun _ => rfl)
    refine List.Sublist.append ?_ (places_one fun _ => rfl)
    refine List.Sublist.append ?_ (places_one fun _ => rfl)
    refine List.Sublist.append ?_ (places_one fun _ => rfl)
    refine List.Sublist.append ?_ (places_one fun _ => rfl)
    refine List.Sublist.append ?_ (places_one fun _ => rfl)
    refine List.Sublist.append ?_ (places_one fun _ => rfl)
    refine List.Sublist.append ?_ (places_one fun _ => rfl)
    refine List.Sublist.append ?_ (places_one fun _ => rfl)
    refine List.Sublist.append ?_ (places_one fun _ => rfl)
    refine List.Sublist.append ?_ (places_one fun _ => rfl)
    exact places_ips ips
  exact ⟨List.pairwise_map.mp (List.pairwise_lt_range.sublist hsub), fun c hc =>
    List.mem_range.mp (hsub.subset (List.mem_map_of_mem hc))⟩

end Steps

/-! ## The tariff -/

/-- The tariff that was asked for, and the one that is to follow. -/
def TariffHeld (text : String) (u : UserRecord) : Prop :=
  u.user.tariffName = (splitTariff text).1 ∧
    ((splitTariff text).2 ≠ "" → u.user.nextTariff = (splitTariff text).2)

/-- The null pointer of a user without a tariff is followed. -/
def TariffCrashes (env : Env) (text : String) (u : UserRecord) : Prop :=
  (env.tariffs (splitTariff text).1).isSome = true ∧ u.user.tariff = none

/-- The user has the tariff already, or there is one that he may change to; and the one that is to follow
was to follow before, or is there and has the same name. -/
structure TariffFits (env : Env) (priv : Priv) (text : String) (u : UserRecord) : Prop where
  name : u.user.tariffName = (splitTariff text).1 ∨
    ∃ newTariff currentTariff, env.tariffs (splitTariff text).1 = some newTariff ∧
      u.user.tariff = some currentTariff ∧
      currentTariff.tariffChangeIsAllowed newTariff env.time = "" ∧
      (Change.tariffName (splitTariff text).1).maySet priv = true
  next : (splitTariff text).2 ≠ "" → u.user.nextTariff = (splitTariff text).2 ∨
    (env.tariffs (splitTariff text).2).isSome = true ∧ (splitTariff text).2 = (splitTariff text).1 ∧
      (Change.nextTariff (splitTariff text).1).maySet priv = true

section Tariff

variable {env : Env} {priv : Priv} {text name next : String} {u u' : UserRecord}

/-- Two states of a user that differ in the names of his tariffs only. -/
structure SameButTariff (u' u : UserRecord) : Prop where
  login : u'.user.login = u.user.login
  indexed : u'.indexed = u.indexed
  properties : u'.properties =
    { u.properties with tariffName := u'.user.tariffName, nextTariff := u'.user.nextTariff }

theorem SameButTariff.refl (u : UserRecord) : SameButTariff u u := ⟨rfl, rfl, rfl⟩

theorem SameButTariff.trans {u'' : UserRecord} (h : SameButTariff u'' u') (h' : SameButTariff u' u) :
    SameButTariff u'' u := by
  refine ⟨h.login.trans h'.login, h.indexed.trans h'.indexed, ?_⟩
  rw [h.properties, h'.properties]

/-- What is asked for of the other properties is what it was. -/
theorem SameButTariff.held {charge : Money} {c : Change} (h : SameButTariff u' u) (hc : c.place < 28)
    (hheld : c.Held charge u.properties) : c.Held charge u'.properties := by
  refine hheld.congr ?_
  rw [h.properties]
  cases c with
  | tariffName v => exact absurd hc (by simp [Change.place])
  | nextTariff v => exact absurd hc (by simp [Change.place])
  | cash b v => exact ⟨rfl, rfl, rfl⟩
  | _ => rfl

/-- A tariff that is set. -/
theorem sameButTariff_setTariffName (env : Env) (name : String) (u : UserRecord) :
    SameButTariff { u with user := u.user.setTariffName env name } u ∧
      (u.user.setTariffName env name).nextTariff = u.user.nextTariff := by
  have h := sameAccount_setTariffName env name u.user
  have hproperties := h.properties u
  have hnext : (u.user.setTariffName env name).nextTariff = u.user.nextTariff :=
    congrArg UserProperties.nextTariff hproperties
  refine ⟨⟨h.login, rfl, ?_⟩, hnext⟩
  rw [hproperties]
  show _ = { u.properties with tariffName := name, nextTariff := (u.user.setTariffName env name).nextTariff }
  rw [hnext]
  rfl

/-- **The change of the tariff**: nothing comes of it where a null pointer is followed, and otherwise the
user gets the tariff, or keeps his own, or it is refused. -/
theorem setTariffName_cases (env : Env) (priv : Priv) (name : String) (u : UserRecord) :
    ((env.tariffs name).isSome = true ∧ u.user.tariff = none ∧ setTariffName env priv name u = none) ∨
      ((∃ newTariff currentTariff, env.tariffs name = some newTariff ∧
          u.user.tariff = some currentTariff ∧
          currentTariff.tariffChangeIsAllowed newTariff env.time = "" ∧
          (Change.tariffName name).maySet priv = true) ∧
        u.user.tariffName ≠ name ∧
        setTariffName env priv name u = some (true, { u with user := u.user.setTariffName env name })) ∨
      (((∃ newTariff currentTariff, env.tariffs name = some newTariff ∧
          u.user.tariff = some currentTariff ∧
          currentTariff.tariffChangeIsAllowed newTariff env.time = "" ∧
          (Change.tariffName name).maySet priv = true) → u.user.tariffName = name) ∧
        ¬((env.tariffs name).isSome = true ∧ u.user.tariff = none) ∧
        (setTariffName env priv name u = some (true, u) ∨
          u.user.tariffName ≠ name ∧ setTariffName env priv name u = some (false, u))) := by
  unfold setTariffName
  cases hnew : env.tariffs name with
  | none =>
    refine .inr (.inr ⟨?_, fun h => (by simp at h), .inl rfl⟩)
    rintro ⟨newTariff, -, h, -⟩
    cases h
  | some newTariff =>
    cases hcurrent : u.user.tariff with
    | none => exact .inl ⟨rfl, rfl, rfl⟩
    | some currentTariff =>
      dsimp only
      by_cases hallowed : currentTariff.tariffChangeIsAllowed newTariff env.time = ""
      · rw [if_pos hallowed]
        by_cases hname : u.user.tariffName = name
        · rw [if_neg (not_not.mpr hname)]
          exact .inr (.inr ⟨fun _ => hname, fun h => (by cases h.2), .inl rfl⟩)
        · rw [if_pos hname]
          by_cases hmay : (Change.tariffName name).maySet priv = true
          · rw [if_pos hmay]
            exact .inr (.inl ⟨⟨_, _, rfl, rfl, hallowed, hmay⟩, hname, rfl⟩)
          · rw [if_neg hmay]
            refine .inr (.inr ⟨?_, fun h => (by cases h.2), .inr ⟨hname, rfl⟩⟩)
            rintro ⟨-, -, -, -, -, h⟩
            exact absurd h hmay
      · rw [if_neg hallowed]
        refine .inr (.inr ⟨?_, fun h => (by cases h.2), .inl rfl⟩)
        rintro ⟨newTariff', currentTariff', h, h', hallowed', -⟩
        obtain rfl := Option.some.inj h
        obtain rfl := Option.some.inj h'
        exact absurd hallowed' hallowed

/-- **The tariff that is to follow**: it is the right one exactly if there is none asked for, or it was to
follow before, or it is there and has the name of the other one. -/
theorem setNextTariff_spec (env : Env) (priv : Priv) (name next : String) (u : UserRecord) :
    SameButTariff (setNextTariff env priv name next u).2 u ∧
      (setNextTariff env priv name next u).2.user.tariffName = u.user.tariffName ∧
      (((setNextTariff env priv name next u).1 = true ∧
          (next ≠ "" → (setNextTariff env priv name next u).2.user.nextTariff = next)) ↔
        (next ≠ "" → u.user.nextTariff = next ∨ (env.tariffs next).isSome = true ∧ next = name ∧
          (Change.nextTariff name).maySet priv = true)) := by
  unfold setNextTariff
  by_cases hset : next ≠ "" ∧ (env.tariffs next).isSome ∧ u.user.nextTariff ≠ next
  · obtain ⟨hne, hsome, hother⟩ := hset
    rw [if_pos ⟨hne, hsome, hother⟩]
    by_cases hmay : (Change.nextTariff name).maySet priv = true
    · rw [if_pos hmay]
      refine ⟨⟨rfl, rfl, rfl⟩, rfl, ?_⟩
      constructor
      · rintro ⟨-, h⟩ -
        exact .inr ⟨hsome, (h hne).symm, hmay⟩
      · intro h
        rcases h hne with h | ⟨-, h, -⟩
        · exact absurd h hother
        · exact ⟨rfl, fun _ => h.symm⟩
    · rw [if_neg hmay]
      refine ⟨.refl u, rfl, iff_of_false (fun h => by cases h.1) fun h => ?_⟩
      rcases h hne with h | ⟨-, -, h⟩
      · exact hother h
      · exact hmay h
  · rw [if_neg hset]
    refine ⟨.refl u, rfl, ?_⟩
    constructor
    · rintro ⟨-, h⟩ hne
      exact .inl (h hne)
    · intro h
      refine ⟨rfl, fun hne => ?_⟩
      rcases h hne with h | ⟨hsome, -, -⟩
      · exact h
      · by_contra hother
        exact hset ⟨hne, hsome, hother⟩

/-- **The member `tariff`**: there is no result exactly where a null pointer is followed; otherwise it
succeeds with the tariffs that were asked for exactly if they fit. -/
theorem setTariff_spec (env : Env) (priv : Priv) (text : String) (u : UserRecord) :
    (setTariff env priv text u = none ↔ TariffCrashes env text u) ∧
      ∀ r, setTariff env priv text u = some r → SameButTariff r.2 u ∧
        (r.1 = true ∧ TariffHeld text r.2 ↔ TariffFits env priv text u) := by
  unfold setTariff TariffCrashes TariffHeld
  rcases setTariffName_cases env priv (splitTariff text).1 u with
    ⟨hsome, hnone, h⟩ | ⟨hfits, hname, h⟩ | ⟨hfits, hnot, h⟩
  · rw [h]
    exact ⟨iff_of_true rfl ⟨hsome, hnone⟩, fun r hr => by cases hr⟩
  · obtain ⟨hsame, hnext⟩ := sameButTariff_setTariffName env (splitTariff text).1 u
    obtain ⟨hsame', hname', hiff⟩ := setNextTariff_spec env priv (splitTariff text).1 (splitTariff text).2
      { u with user := u.user.setTariffName env (splitTariff text).1 }
    rw [h]
    refine ⟨iff_of_false (fun h => by cases h) fun h => ?_, fun r hr => ?_⟩
    · obtain ⟨-, currentTariff, -, hcurrent, -⟩ := hfits
      cases hcurrent.symm.trans h.2
    · obtain rfl := Option.some.inj hr
      refine ⟨hsame'.trans hsame, ?_⟩
      rw [hnext] at hiff
      constructor
      · rintro ⟨hok, -, hheld⟩
        exact ⟨.inr hfits, hiff.mp ⟨hok, hheld⟩⟩
      · rintro ⟨-, hnextFits⟩
        obtain ⟨hok, hheld⟩ := hiff.mpr hnextFits
        exact ⟨hok, hname', hheld⟩
  · refine ⟨iff_of_false (fun hr => ?_) hnot, ?_⟩
    · rcases h with h | ⟨-, h⟩
      · rw [h] at hr
        cases hr
      · rw [h] at hr
        cases hr
    · intro r hr
      rcases h with h | ⟨hname, h⟩
      · obtain ⟨hsame', hname', hiff⟩ :=
          setNextTariff_spec env priv (splitTariff text).1 (splitTariff text).2 u
        rw [h] at hr
        obtain rfl := Option.some.inj hr
        refine ⟨hsame', ?_⟩
        constructor
        · rintro ⟨hok, hheldName, hheld⟩
          exact ⟨.inl (hname'.symm.trans hheldName), hiff.mp ⟨hok, hheld⟩⟩
        · rintro ⟨hnameFits, hnextFits⟩
          obtain ⟨hok, hheld⟩ := hiff.mpr hnextFits
          exact ⟨hok, hname'.trans (hnameFits.elim id hfits), hheld⟩
      · rw [h] at hr
        obtain rfl := Option.some.inj hr
        refine ⟨.refl u, iff_of_false (fun h => by cases h.1) fun hf => ?_⟩
        exact hname (hf.name.elim id hfits)

end Tariff

/-! ## The whole structure -/

/-- Every counter of an array is read: none is out of range, and `errno` is not `ERANGE` before. -/
def MonthRead (isRange : Bool) (traff : List (String × Value)) (name : String) : Prop :=
  ∀ v data, traff.lookup name = some v → months? v = some data →
    ∀ text ∈ data, isRange = false ∧ IsTime (CString.scanLong text.toList).1

/-- Every counter is read. -/
def CountersRead (errno : InfoErrno) (m : List (String × Value)) : Prop :=
  ∀ traff, m.lookup "traff" = some (.struct traff) →
    MonthRead errno.mu traff "mu" ∧ MonthRead errno.md traff "md"

/-- The members but for the addresses, as they are read while `errno` is not `ERANGE`. -/
def asked (iconv : String → String) (m : List (String × Value)) : List (Halting Change) :=
  steps iconv {} none m

/-- **Every member of the structure has been applied** to a user who was like this before: the properties
have the values that were asked for, no counter was passed over, and the tariffs are the right ones. -/
structure Applied (shifted : BitVec 32) (iconv : String → String) (errno : InfoErrno)
    (m : List (String × Value)) (u u' : UserRecord) : Prop where
  ips : ∀ text, m.lookup "ips" = some (.string text) →
    UserIPs.parse ⟨shifted, false⟩ text.toList = some u'.properties.ips
  held : ∀ c, .going c ∈ asked iconv m → c.Held (charge u (readable (asked iconv m))) u'.properties
  counters : CountersRead errno m
  tariff : ∀ text, m.lookup "tariff" = some (.string text) → TariffHeld text u'

/-- **A structure that fits a user**: nobody who is always online gets several addresses, no address is in
use, and no member is refused; and if there is a result at all, then what is written is saved, the addresses
that are read again are those of the text, the counters are read, and so is the tariff one that the user may
change to. -/
structure Fits (env : Env) (priv : Priv) (iconv : String → String) (errno : InfoErrno) (login : String)
    (saved : Prop) (m : List (String × Value)) (aonline : Option Bool) (first ips : Option UserIPs)
    (s : UserList) (i : Fin s.users.length) : Prop where
  allowed : leadsToForbidden aonline first (s.users.get i) = false
  free : inUse env.shifted s login ips = false
  privileged : ∀ c ∈ readable (steps iconv errno ips m),
    unchanged (s.users.get i) c = true ∨ c.maySet priv = true
  rest : AllRead (steps iconv errno ips m) → Typed m "tariff" Value.string? →
    (∀ text, m.lookup "tariff" = some (.string text) → ¬ TariffCrashes env text (s.users.get i)) →
      saved ∧
        (∀ text, m.lookup "ips" = some (.string text) →
          UserIPs.parse ⟨env.shifted, false⟩ text.toList = ips) ∧
        CountersRead errno m ∧
        ∀ text, m.lookup "tariff" = some (.string text) → TariffFits env priv text (s.users.get i)

/-! ### What was asked for -/

section Asked

variable {iconv : String → String} {errno : InfoErrno} {m : List (String × Value)}

/-- Counters that are read are read as if `errno` were not `ERANGE`. -/
theorem MonthRead.one_eq {isRange : Bool} {traff : List (String × Value)} {name : String}
    (h : MonthRead isRange traff name) (f : (Dir → Option (BitVec 64)) → Change) :
    one traff name months? (fun data => f (readMonth isRange data)) =
      one traff name months? fun data => f (readMonth false data) := by
  unfold one
  cases hv : traff.lookup name with
  | none => rfl
  | some v =>
    cases hdata : months? v with
    | none => simp only [Option.toList_some, List.map_cons, List.map_nil, hdata, Halting.ofOption, Halting.map]
    | some data =>
      have hread : readMonth isRange data = readMonth false data := by
        cases data with
        | nil => rfl
        | cons text data => rw [(h v _ hv hdata text List.mem_cons_self).1]
      simp only [Option.toList_some, List.map_cons, List.map_nil, hdata, Halting.ofOption, Halting.map, hread]

/-- **The members are what was asked for**, if every counter is read. -/
theorem CountersRead.steps_eq (h : CountersRead errno m) (iconv : String → String)
    (ips : Option UserIPs) :
    steps iconv errno ips m =
      ips.toList.map (fun ips => .going (.ips ips)) ++ asked iconv m := by
  have htraff : traffSteps errno m = traffSteps {} m := by
    unfold traffSteps
    cases hv : m.lookup "traff" with
    | none => rfl
    | some v =>
      cases v with
      | struct traff =>
        obtain ⟨hmu, hmd⟩ := h traff hv
        simp only [Value.struct?, hmu.one_eq Change.up, hmd.one_eq Change.down]
      | _ => rfl
  have hfirst : firstSteps iconv ips m =
      ips.toList.map (fun ips => .going (.ips ips)) ++ firstSteps iconv none m := by
    simp only [firstSteps, List.append_assoc, Option.toList_none, List.map_nil, List.nil_append]
  unfold asked steps
  rw [htraff, hfirst, List.append_assoc]

theorem readable_ips_append (ips : Option UserIPs) (l : List (Halting Change)) :
    readable (ips.toList.map (fun ips => .going (.ips ips)) ++ l) =
      ips.toList.map .ips ++ readable l := by
  cases ips <;> rfl

/-- The addresses are set. -/
theorem mem_readable_ips (iconv : String → String) (errno : InfoErrno) (m : List (String × Value))
    (ips : UserIPs) : Change.ips ips ∈ readable (steps iconv errno (some ips) m) := by
  unfold steps firstSteps
  simp only [List.append_assoc]
  rw [readable_ips_append]
  exact List.mem_cons_self

/-- The addresses make nobody passive. -/
theorem charge_ips_append (u : UserRecord) (ips : Option UserIPs) (l : List Change) :
    charge u (ips.toList.map .ips ++ l) = charge u l := by
  cases ips with
  | none => rfl
  | some ips =>
    have hasks : asksPassive (.ips ips :: l) = asksPassive l :=
      asksPassive_cons_of_place (by simp [Change.place])
    show charge u (.ips ips :: l) = charge u l
    unfold charge
    rw [hasks]

end Asked

section Whole

variable {env : Env} {priv : Priv} {iconv : String → String} {errno : InfoErrno} {login : String}
  {m : List (String × Value)} {s : UserList} {i : Fin s.users.length} {u u' : UserRecord}

/-- The tariffs fit a user as long as his tariffs are the same. -/
theorem tariffFits_congr {text : String} (htariff : u'.user.tariff = u.user.tariff)
    (hname : u'.user.tariffName = u.user.tariffName) (hnext : u'.user.nextTariff = u.user.nextTariff) :
    TariffFits env priv text u' ↔ TariffFits env priv text u := by
  constructor
  · rintro ⟨h, h'⟩
    rw [hname, htariff] at h
    rw [hnext] at h'
    exact ⟨h, h'⟩
  · rintro ⟨h, h'⟩
    rw [← hname, ← htariff] at h
    rw [← hnext] at h'
    exact ⟨h, h'⟩

/-- The members but for the tariff leave the tariffs as they are. -/
theorem setAllNew_tariffs (env : Env) (priv : Priv) {l : List Change} (hl : InPlace l) (u : UserRecord) :
    (setAllNew env priv u l).2.user.tariff = u.user.tariff ∧
      (setAllNew env priv u l).2.user.tariffName = u.user.tariffName ∧
      (setAllNew env priv u l).2.user.nextTariff = u.user.nextTariff := by
  obtain ⟨htariff, hagree⟩ := setAllNew_frame env priv (fun d hd => Nat.ne_of_lt (hl.lt d hd)) u
  have hname := hagree (.tariffName "") fun d hd =>
    ⟨Nat.ne_of_gt (hl.lt d hd), fun h => absurd h.1 (by simp [Change.place])⟩
  have hnext := hagree (.nextTariff "") fun d hd =>
    ⟨Nat.ne_of_gt (Nat.lt_succ_of_lt (hl.lt d hd)), fun h => absurd h.1 (by simp [Change.place])⟩
  exact ⟨htariff, hname, hnext⟩

/-- A null pointer is followed for a user as long as his tariff is the same. -/
theorem tariffCrashes_congr {text : String} (htariff : u'.user.tariff = u.user.tariff) :
    TariffCrashes env text u' ↔ TariffCrashes env text u := by
  unfold TariffCrashes
  rw [htariff]

/-- **The member `tariff`, if it is there**: there is a result where it is a text and no null pointer is
followed, and then it succeeds with the tariffs that were asked for exactly if they fit. -/
theorem tariffStep_spec (env : Env) (priv : Priv) (m : List (String × Value)) (u : UserRecord) :
    ((∃ r, tariffStep env priv m (true, u) = .going r) ↔ Typed m "tariff" Value.string? ∧
        ∀ text, m.lookup "tariff" = some (.string text) → ¬ TariffCrashes env text u) ∧
      ∀ r, tariffStep env priv m (true, u) = .going r → SameButTariff r.2 u ∧
        (r.1 = true ∧ (∀ text, m.lookup "tariff" = some (.string text) → TariffHeld text r.2) ↔
          ∀ text, m.lookup "tariff" = some (.string text) → TariffFits env priv text u) := by
  cases hv : m.lookup "tariff" with
  | none =>
    have hstep : tariffStep env priv m (true, u) = .going (true, u) := by simp only [tariffStep, hv]
    refine ⟨iff_of_true ⟨_, hstep⟩ ⟨fun v h => ?_, fun text h => by cases h⟩, fun r hr => ?_⟩
    · cases hv.symm.trans h
    · obtain rfl := Halting.going.inj (hstep.symm.trans hr)
      exact ⟨.refl u, iff_of_true ⟨rfl, fun text h => by cases h⟩ fun text h => by cases h⟩
  | some v =>
    cases htext : v.string? with
    | none =>
      -- the tariff is no text: there is an exception
      have hstep : tariffStep env priv m (true, u) = .stopped := by simp only [tariffStep, hv, htext]
      refine ⟨iff_of_false ?_ fun h => ?_, fun r hr => ?_⟩
      · rintro ⟨r, hr⟩
        cases hstep.symm.trans hr
      · have hsome := h.1 v hv
        rw [htext] at hsome
        cases hsome
      · cases hstep.symm.trans hr
    | some text =>
      obtain rfl := eq_string_of_string? htext
      have hstep : tariffStep env priv m (true, u) = Halting.ofOption (setTariff env priv text u) := by
        simp only [tariffStep, hv, htext]
      have hone {P : String → Prop} : (∀ text', some (Value.string text) = some (.string text') → P text') ↔
          P text :=
        ⟨fun h => h text rfl, fun h text' heq => Value.string.inj (Option.some.inj heq) ▸ h⟩
      have htyped : Typed m "tariff" Value.string? := by
        intro v h
        obtain rfl := Option.some.inj (hv.symm.trans h)
        rfl
      obtain ⟨hcrash, hspec⟩ := setTariff_spec env priv text u
      rw [hone, hone, hstep, and_iff_right htyped, ← hcrash]
      simp only [hone]
      cases hset : setTariff env priv text u with
      | none =>
        refine ⟨iff_of_false ?_ fun h => h rfl, fun r hr => by cases hr⟩
        rintro ⟨r, hr⟩
        cases hr
      | some r =>
        refine ⟨iff_of_true ⟨r, rfl⟩ (fun h => by cases h), fun r' hr' => ?_⟩
        obtain rfl := Halting.going.inj hr'
        exact hspec r hset

/-- **Where everything is read and nothing is refused**, what was asked for has been applied but for what
was read in another way than it was asked for. -/
theorem applied_iff {ips : Option UserIPs} {u₁ : UserRecord}
    (hips : ∀ text, m.lookup "ips" = some (.string text) → ips.isSome = true)
    (hread : AllRead (steps iconv errno ips m))
    (hset : setAllNew env priv u (readable (steps iconv errno ips m)) = (true, u₁))
    (hsame : SameButTariff u' u₁) :
    Applied env.shifted iconv errno m u u' ↔
      (∀ text, m.lookup "ips" = some (.string text) →
        UserIPs.parse ⟨env.shifted, false⟩ text.toList = ips) ∧
      CountersRead errno m ∧
      ∀ text, m.lookup "tariff" = some (.string text) → TariffHeld text u' := by
  have hplace := inPlace_readable iconv errno ips m
  have hheld : ∀ c ∈ readable (steps iconv errno ips m),
      c.Held (charge u (readable (steps iconv errno ips m))) u₁.properties := by
    have hheld : (setAllNew env priv u (readable (steps iconv errno ips m))).1 = true → _ :=
      held_setAllNew hplace u
    rw [hset] at hheld
    exact hheld rfl
  have haddresses (text : String) (htext : m.lookup "ips" = some (.string text)) :
      ips = some u'.properties.ips := by
    obtain ⟨l, rfl⟩ := Option.isSome_iff_exists.mp (hips text htext)
    have hmem := mem_readable_ips iconv errno m l
    have hl : u'.properties.ips = l := hsame.held (hplace.lt _ hmem) (hheld _ hmem)
    rw [hl]
  constructor
  · exact fun h => ⟨fun text htext => (h.ips text htext).trans (haddresses text htext).symm, h.counters,
      h.tariff⟩
  · rintro ⟨hsame', hcounters, htariffs⟩
    refine ⟨fun text htext => (hsame' text htext).trans (haddresses text htext), fun c hc => ?_, hcounters,
      htariffs⟩
    have hsteps := hcounters.steps_eq iconv ips
    have hc' : c ∈ readable (steps iconv errno ips m) :=
      (mem_readable_of_allRead hread).mp (by rw [hsteps]; exact List.mem_append_right _ hc)
    have hheld' := hsame.held (hplace.lt c hc') (hheld c hc')
    rwa [hsteps, readable_ips_append, charge_ips_append] at hheld'

/-- **The members after the tests**: they succeed, are saved and have all been applied exactly if none of
them is refused, and, where there is a result, the rest fits. -/
theorem tariffStep_applied_iff (env : Env) (priv : Priv) (iconv : String → String) (errno : InfoErrno)
    (saved : Prop) (m : List (String × Value)) {ips : Option UserIPs}
    (hips : ∀ text, m.lookup "ips" = some (.string text) → ips.isSome = true) (u : UserRecord) :
    (∀ r r', setSteps env priv u (steps iconv errno ips m) = .going r → tariffStep env priv m r = .going r' →
        r'.1 = true ∧ saved ∧ Applied env.shifted iconv errno m u r'.2) ↔
      (∀ c ∈ readable (steps iconv errno ips m), unchanged u c = true ∨ c.maySet priv = true) ∧
        (AllRead (steps iconv errno ips m) → Typed m "tariff" Value.string? →
          (∀ text, m.lookup "tariff" = some (.string text) → ¬ TariffCrashes env text u) →
            saved ∧
              (∀ text, m.lookup "ips" = some (.string text) →
                UserIPs.parse ⟨env.shifted, false⟩ text.toList = ips) ∧
              CountersRead errno m ∧
              ∀ text, m.lookup "tariff" = some (.string text) → TariffFits env priv text u) := by
  have hplace := inPlace_readable iconv errno ips m
  have hfst : (setAllNew env priv u (readable (steps iconv errno ips m))).1 = true ↔ _ :=
    setAllNew_fst_iff hplace u
  obtain ⟨htariff, hname, hnext⟩ := setAllNew_tariffs env priv hplace u
  obtain ⟨r, hr⟩ : ∃ r, setAllNew env priv u (readable (steps iconv errno ips m)) = r := ⟨_, rfl⟩
  rw [← hfst]
  rw [hr] at htariff hname hnext ⊢
  obtain ⟨ok, u₁⟩ := r
  cases ok with
  | false =>
    -- a property is refused, and there is a result all the same
    have hgoing : setSteps env priv u (steps iconv errno ips m) = .going (false, u₁) :=
      (setSteps_eq_going_iff _).mpr ⟨hr, fun h => by cases h⟩
    refine iff_of_false (fun h => ?_) fun h => by cases h.1
    exact absurd (h _ _ hgoing rfl).1 Bool.false_ne_true
  | true =>
    rw [and_iff_right rfl]
    have hgoing (r : Bool × UserRecord) : setSteps env priv u (steps iconv errno ips m) = .going r ↔
        (true, u₁) = r ∧ AllRead (steps iconv errno ips m) := by
      rw [setSteps_eq_going_iff, hr]
      refine and_congr_right fun h => ?_
      subst h
      exact ⟨fun h => h rfl, fun h _ => h⟩
    obtain ⟨hresult, hspec⟩ := tariffStep_spec env priv m u₁
    simp only [tariffCrashes_congr htariff] at hresult
    simp only [tariffFits_congr htariff hname hnext] at hspec
    constructor
    · intro h hread htyped hnot
      obtain ⟨r', hr'⟩ := hresult.mpr ⟨htyped, hnot⟩
      obtain ⟨hsame, hiff⟩ := hspec r' hr'
      obtain ⟨hok, hsaved, happly⟩ := h _ r' ((hgoing _).mpr ⟨rfl, hread⟩) hr'
      obtain ⟨haddresses, hcounters, htariffs⟩ := (applied_iff hips hread hr hsame).mp happly
      exact ⟨hsaved, haddresses, hcounters, hiff.mp ⟨hok, htariffs⟩⟩
    · intro h r r' hgo hr'
      obtain ⟨rfl, hread⟩ := (hgoing r).mp hgo
      obtain ⟨htyped, hnot⟩ := hresult.mp ⟨r', hr'⟩
      obtain ⟨hsame, hiff⟩ := hspec r' hr'
      obtain ⟨hsaved, haddresses, hcounters, hfits⟩ := h hread htyped hnot
      obtain ⟨hok, htariffs⟩ := hiff.mpr hfits
      exact ⟨hok, hsaved, (applied_iff hips hread hr hsame).mpr ⟨haddresses, hcounters, htariffs⟩⟩

/-- **When `SetUserInfo` succeeds and applies everything.** -/
theorem setUserStruct_applied_iff (env : Env) (priv : Priv) (iconv : String → String) (errno : InfoErrno)
    (login : String) (saved : Prop) (info : Value) (s : UserList) (i : Fin s.users.length) :
    (∀ r, setUserStruct env priv iconv errno login info s i = .going r →
        r.1 = true ∧ saved ∧
          ∀ m, info.struct? = some m → Applied env.shifted iconv errno m (s.users.get i) r.2) ↔
      ∀ m aonline text first ips, info.struct? = some m →
        member m "aonline" (fun v => v.boolean?.map some) none = some aonline →
        member m "ips" (fun v => v.string?.map some) none = some text →
        text.mapM (firstIPs env.shifted errno) = some first →
        text.mapM (secondIPs env.shifted errno) = some ips →
          Fits env priv iconv errno login saved m aonline first ips s i := by
  rcases setUserStruct_cases env priv iconv errno login info s i with ⟨hstopped, hnone⟩ |
    ⟨m, aonline, text, first, ips, hm, haonline, htext, hfirst, hips, hdown, hset⟩
  · rw [hstopped]
    refine iff_of_true (fun r h => by cases h) fun m aonline text first _ hm haonline htext hfirst _ => ?_
    exact absurd hfirst (hnone m aonline text first hm haonline htext)
  · have hone : (∀ m' aonline' text' first' ips', info.struct? = some m' →
        member m' "aonline" (fun v => v.boolean?.map some) none = some aonline' →
        member m' "ips" (fun v => v.string?.map some) none = some text' →
        text'.mapM (firstIPs env.shifted errno) = some first' →
        text'.mapM (secondIPs env.shifted errno) = some ips' →
          Fits env priv iconv errno login saved m' aonline' first' ips' s i) ↔
        Fits env priv iconv errno login saved m aonline first ips s i := by
      refine ⟨fun h => h m aonline text first ips hm haonline htext hfirst hips,
        fun h m' aonline' text' first' ips' hm' h₁ h₂ h₃ h₄ => ?_⟩
      obtain rfl := Option.some.inj (hm.symm.trans hm')
      obtain rfl := Option.some.inj (haonline.symm.trans h₁)
      obtain rfl := Option.some.inj (htext.symm.trans h₂)
      obtain rfl := Option.some.inj (hfirst.symm.trans h₃)
      obtain rfl := Option.some.inj (hips.symm.trans h₄)
      exact h
    rw [hone]
    by_cases hup : leadsToForbidden aonline first (s.users.get i) = false ∧
        inUse env.shifted s login ips = false
    · have hsome (t : String) (ht : m.lookup "ips" = some (.string t)) : ips.isSome = true := by
        rcases mapM_eq_some_iff.mp hips with ⟨rfl, -⟩ | ⟨t', l, rfl, rfl, -⟩
        · rcases member_map_some htext with ⟨-, hnone⟩ | ⟨v, t', h, -, -⟩
          · cases ht.symm.trans hnone
          · cases h
        · rfl
      have hiff := tariffStep_applied_iff env priv iconv errno saved m hsome (s.users.get i)
      obtain ⟨hgoing, hstopped, hfailed⟩ := hset hup.1 hup.2
      refine Iff.trans ?_ (hiff.trans ?_)
      · cases hr : setSteps env priv (s.users.get i) (steps iconv errno ips m) with
        | going r =>
          rw [hgoing r hr]
          constructor
          · intro h r₁ r' hr₁ hr'
            obtain rfl := Halting.going.inj hr₁
            obtain ⟨hok, hsaved, happly⟩ := h r' hr'
            exact ⟨hok, hsaved, happly m hm⟩
          · intro h r' hr'
            obtain ⟨hok, hsaved, happly⟩ := h r r' rfl hr'
            exact ⟨hok, hsaved, fun m' hm' => Option.some.inj (hm.symm.trans hm') ▸ happly⟩
        | stopped =>
          rw [hstopped hr]
          exact iff_of_true (fun r h => by cases h) fun r r' h => by cases h
        | failed =>
          rw [hfailed hr]
          exact iff_of_true (fun r h => by cases h) fun r r' h => by cases h
      · constructor
        · rintro ⟨hprivileged, hrest⟩
          exact ⟨hup.1, hup.2, hprivileged, hrest⟩
        · intro h
          exact ⟨h.privileged, h.rest⟩
    · have hturned : leadsToForbidden aonline first (s.users.get i) = true ∨
          inUse env.shifted s login ips = true := by
        rwa [not_and_or, Bool.not_eq_false, Bool.not_eq_false] at hup
      refine iff_of_false (fun h => ?_) fun h => hup ⟨h.allowed, h.free⟩
      exact Bool.false_ne_true (h _ (hdown hturned)).1

/-- The steps and the tariff leave the user who he is. -/
theorem setSteps_identity {l : List (Halting Change)} {r r' : Bool × UserRecord}
    (hset : setSteps env priv u l = .going r) (h : tariffStep env priv m r = .going r') :
    r'.2.user.login = u.user.login ∧ r'.2.indexed = u.indexed := by
  have hr := ((setSteps_eq_going_iff r).mp hset).1
  have hfirst := setAllNew_identity env priv u (readable l)
  rw [hr] at hfirst
  obtain ⟨ok, u₁⟩ := r
  cases ok with
  | false =>
    obtain rfl := Halting.going.inj h
    exact hfirst
  | true =>
    unfold tariffStep at h
    cases hv : m.lookup "tariff" with
    | none =>
      simp only [hv] at h
      obtain rfl := Halting.going.inj h
      exact hfirst
    | some v =>
      cases htext : v.string? with
      | none =>
        simp only [hv, htext] at h
        cases h
      | some text =>
        simp only [hv, htext] at h
        cases htariff : setTariff env priv text u₁ with
        | none =>
          rw [htariff] at h
          cases h
        | some r₂ =>
          rw [htariff] at h
          obtain rfl := Halting.going.inj h
          have hsame := ((setTariff_spec env priv text u₁).2 r₂ htariff).1
          exact ⟨hsame.login.trans hfirst.1, hsame.indexed.trans hfirst.2⟩

/-- The user stays who he is. -/
theorem setUserStruct_identity {info : Value} {r : Bool × UserRecord}
    (h : setUserStruct env priv iconv errno login info s i = .going r) :
    r.2.user.login = (s.users.get i).user.login ∧ r.2.indexed = (s.users.get i).indexed := by
  unfold setUserStruct at h
  split at h
  · cases h
  split at h
  · split at h
    · cases h
    split_ifs at h
    · obtain rfl := Halting.going.inj h
      exact ⟨rfl, rfl⟩
    split at h
    · cases h
    split_ifs at h
    · obtain rfl := Halting.going.inj h
      exact ⟨rfl, rfl⟩
    split at h
    · next hset => exact setSteps_identity hset h
    · cases h
    · cases h
  · cases h

end Whole

end UserHelper

end Stargazer
