import Stargazer.Common
import Stargazer.Config.ChgUser
import Stargazer.Lib.Xml
import Stargazer.Users.UserIPs

set_option relaxedAutoImplicit false
set_option autoImplicit false

/-!
# The request of a client that changes a user

`ChgUser::serialize` of `libs/srvconf/parsers/chg_user.cpp`, with the helpers of
`optional_utils.h`: a client says what it wants changed in a `UserConfOpt` and a `UserStatOpt`, and
the library prints the fields that are set as the elements of a request `SetUser`.

A text that is sent as it is (the password, the names of tariffs and so on) stands for its
characters.  The other texts are sent in two letters for each byte; such a text stands for its bytes
in the encoding of the server, so that the conversion between encodings is left out.  So is the
reason that goes with a payment: it reaches only the log.

## Main definitions

* `Stargazer.UserConfOpt`, `Stargazer.UserStatOpt` — what a client asks for.
* `Stargazer.encode12`, `Stargazer.decode21` — two letters for each byte.
* `Stargazer.DoubleText` — numbers with a point as texts.
* `Stargazer.SrvConf.serialize`, `Stargazer.SrvConf.chgUser` — the request.

## Main results

* `Stargazer.decode21_encode12` — bytes are read back.
* `Stargazer.SrvConf.isDocument_chgUser` — a request whose plain texts can stand in a value is a
  document.
-/

namespace Stargazer

/-! ## Texts -/

/-- A text of bytes. -/
def IsBytes (s : List Char) : Prop := ∀ c ∈ s, c.toNat < 256

instance (s : List Char) : Decidable (IsBytes s) :=
  List.decidableBAll (fun c : Char => c.toNat < 256) s

/-- One of the sixteen letters. -/
def nibbleChar (n : ℕ) : Char := Char.ofNat ('a'.toNat + n % 16)

/-- `Encode12str`. -/
def encode12 (s : List Char) : List Char :=
  s.flatMap fun c => [nibbleChar c.toNat, nibbleChar (c.toNat / 16)]

/-- The byte two letters stand for; `char` wraps around. -/
def byteOf (c1 c2 : Char) : Char :=
  Char.ofNat ((((c1.toNat : ℤ) - 'a'.toNat) + ((c2.toNat : ℤ) - 'a'.toNat) * 16) % 256).toNat

/-- `Decode21str`. -/
def decode21 : List Char → List Char
  | c1 :: c2 :: s => byteOf c1 c2 :: decode21 s
  | _ => []

theorem toNat_nibbleChar (n : ℕ) : (nibbleChar n).toNat = 97 + n % 16 := by
  have hall : ∀ k < 16, (Char.ofNat ('a'.toNat + k)).toNat = 97 + k := by decide
  exact hall _ (Nat.mod_lt n (by decide))

theorem byteOf_nibbleChar {c : Char} (h : c.toNat < 256) :
    byteOf (nibbleChar c.toNat) (nibbleChar (c.toNat / 16)) = c := by
  have hbyte : ((((97 + c.toNat % 16 : ℕ) : ℤ) - 'a'.toNat) +
      (((97 + c.toNat / 16 % 16 : ℕ) : ℤ) - 'a'.toNat) * 16) % 256 = c.toNat := by
    have ha : ('a'.toNat : ℤ) = 97 := rfl
    rw [ha]
    omega
  rw [byteOf, toNat_nibbleChar, toNat_nibbleChar, hbyte, Int.toNat_natCast, Char.ofNat_toNat]

/-- **Bytes are read back.** -/
theorem decode21_encode12 {s : List Char} (h : IsBytes s) : decode21 (encode12 s) = s := by
  induction s with
  | nil => rfl
  | cons c s ih =>
    have hbyte : byteOf (nibbleChar c.toNat) (nibbleChar (c.toNat / 16)) = c :=
      byteOf_nibbleChar (h c List.mem_cons_self)
    have hrest := ih fun d hd => h d (List.mem_cons_of_mem c hd)
    change byteOf _ _ :: decode21 (encode12 s) = c :: s
    rw [hbyte, hrest]

theorem isPlainChar_nibbleChar (n : ℕ) : Xml.isPlainChar (nibbleChar n) = true := by
  have hall : ∀ k < 16, Xml.isPlainChar (Char.ofNat ('a'.toNat + k)) = true := by decide
  exact hall _ (Nat.mod_lt n (by decide))

/-- The letters can stand in a value. -/
theorem isPlain_encode12 (s : List Char) : Xml.isPlain (encode12 s) = true := by
  simp only [Xml.isPlain, List.all_eq_true, encode12, List.mem_flatMap]
  rintro c ⟨d, -, hc⟩
  simp only [List.mem_cons, List.not_mem_nil, or_false] at hc
  rcases hc with rfl | rfl <;> exact isPlainChar_nibbleChar _

/-- How numbers with a point are printed and read (`operator<<` and `strtodouble2`): what is printed
is a number, though not always the same one. -/
structure DoubleText where
  print : Money → List Char
  scan : List Char → Option Money
  /-- The text is made of characters that can stand in a value. -/
  plain : ∀ x, Xml.isPlain (print x) = true
  /-- It is a number. -/
  reads : ∀ x, (scan (print x)).isSome = true

/-- A character of a number can stand in a value. -/
theorem isPlainChar_of_isDigit {c : Char} (h : c.isDigit = true) : Xml.isPlainChar c = true := by
  have hall : ∀ n < 58, 48 ≤ n → Xml.isPlainChar (Char.ofNat n) = true := by decide
  obtain ⟨hlow, hhigh⟩ := Char.isDigit_iff_toNat.1 h
  rw [← Char.ofNat_toNat c]
  exact hall _ (Nat.lt_succ_of_le hhigh) hlow

/-- A number can stand in a value. -/
theorem isPlain_printInt (z : ℤ) : Xml.isPlain (CString.printInt z) = true := by
  simp only [Xml.isPlain, List.all_eq_true]
  intro c hc
  rcases CString.mem_printInt hc with rfl | hc
  · decide
  · exact isPlainChar_of_isDigit hc

/-- A list of addresses can stand in a value. -/
theorem isPlain_toString (ips : UserIPs) : Xml.isPlain (UserIPs.toString ips).toList = true := by
  cases ips with
  | nil => rfl
  | cons im ips =>
    by_cases him : im.ip = 0
    · simp only [UserIPs.toString, him, if_true]
      decide
    · simp only [Xml.isPlain, List.all_eq_true]
      intro c hc
      rcases UserIPs.mem_toString him hc with hc | hc
      · simp only [List.mem_cons, List.not_mem_nil, or_false] at hc
        rcases hc with rfl | rfl <;> decide
      · exact isPlainChar_of_isDigit hc

/-! ## What a client asks for -/

/-- The texts that are sent in letters. -/
def TextProp.isEncoded : TextProp → Bool
  | .password => false
  | _ => true

/-- `UserConfOpt`; the fields `tariffName` and so on that are texts of their own.  The texts that are
sent in letters are bytes. -/
structure UserConfOpt where
  text : TextProp → Option String := fun _ => none
  passive : Option (BitVec 32) := none
  disabled : Option (BitVec 32) := none
  disabledDetailStat : Option (BitVec 32) := none
  alwaysOnline : Option (BitVec 32) := none
  tariffName : Option String := none
  nextTariff : Option String := none
  corp : Option String := none
  services : Option (List String) := none
  credit : Option Money := none
  creditExpire : Option (BitVec 64) := none
  ips : Option UserIPs := none
  /-- Bytes. -/
  bytes : ∀ p t, p.isEncoded = true → text p = some t → IsBytes t.toList

/-- `UserStatOpt`; of `cashAdd` and `cashSet` only the amounts.  The numbers `cash` and
`lastCashAdd`, which nobody prints, are left out. -/
structure UserStatOpt where
  cashAdd : Option Money := none
  cashSet : Option Money := none
  freeMb : Option Money := none
  lastCashAddTime : Option (BitVec 64) := none
  passiveTime : Option (BitVec 64) := none
  lastActivityTime : Option (BitVec 64) := none
  sessionUp : Dir → Option (BitVec 64) := fun _ => none
  sessionDown : Dir → Option (BitVec 64) := fun _ => none
  monthUp : Dir → Option (BitVec 64) := fun _ => none
  monthDown : Dir → Option (BitVec 64) := fun _ => none

/-! ## The request -/

/-- The element of a text. -/
def TextProp.element : TextProp → String
  | .address => "address"
  | .email => "email"
  | .group => "group"
  | .note => "note"
  | .userdata i => "userdata" ++ toString i.val
  | .password => "password"
  | .phone => "phone"
  | .realName => "name"

namespace SrvConf

/-- `appendTag`. -/
def appendTag (name : String) (value : List Char) : Xml.Tag :=
  .empty name.toList [⟨"value".toList, value⟩]

/-- `appendResetableTag`: nothing where there is no value. -/
def appendResetableTag (name : String) (value : Option (List Char)) : List Xml.Tag :=
  value.toList.map (appendTag name)

/-- A text in letters, if it is set. -/
def appendEncoded (conf : UserConfOpt) (p : TextProp) : List Xml.Tag :=
  appendResetableTag p.element ((conf.text p).map fun t => encode12 t.toList)

/-- A signed number. -/
def printSigned {w : ℕ} (x : BitVec w) : List Char := CString.printInt x.toInt

/-- The element `tariff`: the tariff that is to follow, or else the tariff. -/
def tariffTag (conf : UserConfOpt) : List Xml.Tag :=
  match conf.nextTariff, conf.tariffName with
  | some t, _ => [.empty "tariff".toList [⟨"delayed".toList, t.toList⟩]]
  | none, some t => [.empty "tariff".toList [⟨"now".toList, t.toList⟩]]
  | none, none => []

/-- The element `services`. -/
def servicesTags (services : List String) : List Xml.Tag :=
  .start "services".toList [] ::
    (services.map (fun s => .empty "service".toList [⟨"name".toList, s.toList⟩]) ++
      [.close "services".toList])

/-- The element `cash`. -/
def cashTag (d : DoubleText) (stat : UserStatOpt) (msg : List Char) : List Xml.Tag :=
  match stat.cashAdd, stat.cashSet with
  | some x, _ => [.empty "cash".toList [⟨"add".toList, d.print x⟩, ⟨"msg".toList, encode12 msg⟩]]
  | none, some x =>
    [.empty "cash".toList [⟨"set".toList, d.print x⟩, ⟨"msg".toList, encode12 msg⟩]]
  | none, none => []

/-- The attributes of `traff` for one kind of counters. -/
def traffAttrs (kind : List Char) (v : Dir → Option (BitVec 64)) : List Xml.Attr :=
  (List.finRange 10).flatMap fun i =>
    (v i).toList.map fun x => ⟨kind ++ Nat.toDigits 10 i.val, CString.printInt x.toNat⟩

/-- The element `traff`. -/
def traffTag (stat : UserStatOpt) : List Xml.Tag :=
  let traff := traffAttrs ['S', 'U'] stat.sessionUp ++ traffAttrs ['S', 'D'] stat.sessionDown ++
    traffAttrs ['M', 'U'] stat.monthUp ++ traffAttrs ['M', 'D'] stat.monthDown
  if traff = [] then [] else [.empty "traff".toList traff]

/-- `ChgUser::serialize`. -/
def serialize (d : DoubleText) (conf : UserConfOpt) (stat : UserStatOpt) (msg : List Char) :
    List Xml.Tag :=
  appendResetableTag "credit" (conf.credit.map d.print) ++
  appendResetableTag "creditExpire" (conf.creditExpire.map printSigned) ++
  appendResetableTag "password" ((conf.text .password).map String.toList) ++
  appendResetableTag "down" (conf.disabled.map printSigned) ++
  appendResetableTag "passive" (conf.passive.map printSigned) ++
  appendResetableTag "disableDetailStat" (conf.disabledDetailStat.map printSigned) ++
  appendResetableTag "aonline" (conf.alwaysOnline.map printSigned) ++
  appendResetableTag "ip" (conf.ips.map fun ips => (UserIPs.toString ips).toList) ++
  tariffTag conf ++
  [.note, .realName, .address, .email, .phone, .group].flatMap (appendEncoded conf) ++
  appendResetableTag "corp" (conf.corp.map String.toList) ++
  (List.finRange 10).flatMap (fun i => appendEncoded conf (.userdata i)) ++
  conf.services.toList.flatMap servicesTags ++
  cashTag d stat msg ++
  appendResetableTag "freeMb" (stat.freeMb.map d.print) ++
  traffTag stat

/-- `ServConf::ChgUser`: the request. -/
def chgUser (d : DoubleText) (login : String) (conf : UserConfOpt) (stat : UserStatOpt)
    (msg : List Char) : List Xml.Tag :=
  .start "SetUser".toList [] ::
    ((appendTag "Login" login.toList :: serialize d conf stat msg) ++ [.close "SetUser".toList])

/-- The texts that are sent as they are. -/
def plainTexts (login : String) (conf : UserConfOpt) : List String :=
  login :: ((conf.text .password).toList ++ (conf.nextTariff <|> conf.tariffName).toList ++
    conf.corp.toList ++ conf.services.getD [])

/-- The texts that are sent as they are can stand in a value. -/
def Plain (login : String) (conf : UserConfOpt) : Prop :=
  ∀ t ∈ plainTexts login conf, Xml.isPlain t.toList = true

instance (login : String) (conf : UserConfOpt) : Decidable (Plain login conf) :=
  inferInstanceAs (Decidable (∀ t ∈ _, _))

/-! ### The request is a document -/

theorem isContent_appendResetableTag {name : String} (hname : Xml.isName name.toList = true)
    {value : Option (List Char)} (hvalue : ∀ v ∈ value, Xml.isPlain v = true) :
    Xml.IsContent (appendResetableTag name value) := by
  cases value with
  | none => exact Xml.isContent_nil
  | some v =>
    exact Xml.isContent_empty hname (Xml.attrsOk_singleton (by decide) (hvalue v rfl))

theorem isName_element (p : TextProp) : Xml.isName p.element.toList = true := by
  cases p with
  | userdata i => fin_cases i <;> decide
  | _ => decide

theorem isContent_appendEncoded (conf : UserConfOpt) (p : TextProp) :
    Xml.IsContent (appendEncoded conf p) := by
  refine isContent_appendResetableTag (isName_element p) fun v hv => ?_
  obtain ⟨t, -, rfl⟩ := Option.mem_map.1 hv
  exact isPlain_encode12 _

/-- The names of the attributes of `traff` for one kind of counters, if all are set. -/
def traffNames (kind : List Char) : List Xml.Text :=
  (List.finRange 10).map fun i => kind ++ Nat.toDigits 10 i.val

theorem sublist_traffNames (kind : List Char) (v : Dir → Option (BitVec 64)) :
    ((traffAttrs kind v).map Xml.Attr.name).Sublist (traffNames kind) := by
  rw [traffAttrs, List.map_flatMap, traffNames]
  generalize List.finRange 10 = dirs
  induction dirs with
  | nil => exact .slnil
  | cons i dirs ih =>
    rw [List.flatMap_cons, List.map_cons]
    cases v i with
    | none => exact ih.cons _
    | some x => exact ih.cons_cons _

theorem isPlain_of_mem_traffAttrs {kind : List Char} {v : Dir → Option (BitVec 64)} {a : Xml.Attr}
    (h : a ∈ traffAttrs kind v) : Xml.isPlain a.value = true := by
  obtain ⟨i, -, h⟩ := List.mem_flatMap.1 h
  obtain ⟨x, -, rfl⟩ := List.mem_map.1 h
  exact isPlain_printInt (x.toNat : ℤ)

theorem isContent_traffTag (stat : UserStatOpt) : Xml.IsContent (traffTag stat) := by
  simp only [traffTag]
  split_ifs
  · exact Xml.isContent_nil
  have hsub : ((traffAttrs ['S', 'U'] stat.sessionUp ++ traffAttrs ['S', 'D'] stat.sessionDown ++
      traffAttrs ['M', 'U'] stat.monthUp ++ traffAttrs ['M', 'D'] stat.monthDown).map
        Xml.Attr.name).Sublist (traffNames ['S', 'U'] ++ traffNames ['S', 'D'] ++
          traffNames ['M', 'U'] ++ traffNames ['M', 'D']) := by
    simp only [List.map_append]
    exact (((sublist_traffNames _ _).append (sublist_traffNames _ _)).append
      (sublist_traffNames _ _)).append (sublist_traffNames _ _)
  refine Xml.isContent_empty (by decide) ⟨fun a ha => ?_, fun a ha => ?_, ?_⟩
  · have hall : ∀ n ∈ traffNames ['S', 'U'] ++ traffNames ['S', 'D'] ++ traffNames ['M', 'U'] ++
        traffNames ['M', 'D'], Xml.isName n = true := by decide
    exact hall _ (hsub.subset (List.mem_map_of_mem ha))
  · simp only [List.mem_append] at ha
    rcases ha with ((ha | ha) | ha) | ha <;> exact isPlain_of_mem_traffAttrs ha
  · exact hsub.nodup (by decide)

theorem isContent_cashTag (d : DoubleText) (stat : UserStatOpt) (msg : List Char) :
    Xml.IsContent (cashTag d stat msg) := by
  have hattrs : ∀ (n : String) (x : Money), Xml.isName n.toList = true → n.toList ≠ "msg".toList →
      Xml.AttrsOk [⟨n.toList, d.print x⟩, ⟨"msg".toList, encode12 msg⟩] := by
    intro n x hn hne
    refine ⟨?_, ?_, by simpa using hne⟩
    · simp only [List.forall_mem_cons]
      exact ⟨hn, by decide, by simp⟩
    · simp only [List.forall_mem_cons]
      exact ⟨d.plain x, isPlain_encode12 msg, by simp⟩
  unfold cashTag
  split
  · exact Xml.isContent_empty (by decide) (hattrs _ _ (by decide) (by decide))
  · exact Xml.isContent_empty (by decide) (hattrs _ _ (by decide) (by decide))
  · exact Xml.isContent_nil

theorem isContent_servicesTags {services : List String}
    (h : ∀ s ∈ services, Xml.isPlain s.toList = true) : Xml.IsContent (servicesTags services) := by
  have hinner : Xml.IsContent (services.flatMap fun s =>
      [Xml.Tag.empty "service".toList [⟨"name".toList, s.toList⟩]]) :=
    Xml.isContent_flatMap fun s hs =>
      Xml.isContent_empty (by decide) (Xml.attrsOk_singleton (by decide) (h s hs))
  rw [← List.map_eq_flatMap] at hinner
  exact hinner.element (by decide) Xml.attrsOk_nil

theorem isContent_tariffTag {login : String} {conf : UserConfOpt} (h : Plain login conf) :
    Xml.IsContent (tariffTag conf) := by
  have hsent : ∀ t, (conf.nextTariff <|> conf.tariffName) = some t →
      Xml.isPlain t.toList = true := by
    intro t ht
    exact h t (by simp [plainTexts, ht])
  unfold tariffTag
  split
  next _ _ t hnext =>
    exact Xml.isContent_empty (by decide)
      (Xml.attrsOk_singleton (by decide) (hsent t (by simp [hnext])))
  next t hnext ht =>
    exact Xml.isContent_empty (by decide)
      (Xml.attrsOk_singleton (by decide) (hsent t (by simp [hnext, ht])))
  next => exact Xml.isContent_nil

/-- What stands inside of a request. -/
theorem isContent_request (d : DoubleText) {login : String} {conf : UserConfOpt}
    (h : Plain login conf) (stat : UserStatOpt) (msg : List Char) :
    Xml.IsContent (appendTag "Login" login.toList :: serialize d conf stat msg) := by
  have hnumber : ∀ {w : ℕ} (o : Option (BitVec w)), ∀ v ∈ o.map printSigned,
      Xml.isPlain v = true := by
    intro w o v hv
    obtain ⟨x, -, rfl⟩ := Option.mem_map.1 hv
    exact isPlain_printInt _
  have hdouble : ∀ o : Option Money, ∀ v ∈ o.map d.print, Xml.isPlain v = true := by
    intro o v hv
    obtain ⟨x, -, rfl⟩ := Option.mem_map.1 hv
    exact d.plain x
  have hplain : ∀ o : Option String, (∀ t ∈ o, t ∈ plainTexts login conf) →
      ∀ v ∈ o.map String.toList, Xml.isPlain v = true := by
    intro o ho v hv
    obtain ⟨t, ht, rfl⟩ := Option.mem_map.1 hv
    exact h t (ho t ht)
  have hips : ∀ v ∈ conf.ips.map fun ips => (UserIPs.toString ips).toList,
      Xml.isPlain v = true := by
    intro v hv
    obtain ⟨ips, -, rfl⟩ := Option.mem_map.1 hv
    exact isPlain_toString ips
  have hlogin : Xml.IsContent [appendTag "Login" login.toList] :=
    Xml.isContent_empty (by decide)
      (Xml.attrsOk_singleton (by decide) (h login (by simp [plainTexts])))
  have hserialize : Xml.IsContent (serialize d conf stat msg) := by
    unfold serialize
    refine Xml.IsContent.append ?_ (isContent_traffTag stat)
    refine Xml.IsContent.append ?_ (isContent_appendResetableTag (by decide) (hdouble _))
    refine Xml.IsContent.append ?_ (isContent_cashTag d stat msg)
    refine Xml.IsContent.append ?_ (Xml.isContent_flatMap fun ss hss => ?_)
    · refine Xml.IsContent.append ?_
        (Xml.isContent_flatMap fun i _ => isContent_appendEncoded conf _)
      refine Xml.IsContent.append ?_ (isContent_appendResetableTag (by decide)
        (hplain _ fun t ht => by simp [plainTexts, Option.mem_def.1 ht]))
      refine Xml.IsContent.append ?_
        (Xml.isContent_flatMap fun p _ => isContent_appendEncoded conf p)
      refine Xml.IsContent.append ?_ (isContent_tariffTag h)
      refine Xml.IsContent.append ?_ (isContent_appendResetableTag (by decide) hips)
      refine Xml.IsContent.append ?_ (isContent_appendResetableTag (by decide) (hnumber _))
      refine Xml.IsContent.append ?_ (isContent_appendResetableTag (by decide) (hnumber _))
      refine Xml.IsContent.append ?_ (isContent_appendResetableTag (by decide) (hnumber _))
      refine Xml.IsContent.append ?_ (isContent_appendResetableTag (by decide) (hnumber _))
      refine Xml.IsContent.append ?_ (isContent_appendResetableTag (by decide)
        (hplain _ fun t ht => by simp [plainTexts, Option.mem_def.1 ht]))
      refine Xml.IsContent.append ?_ (isContent_appendResetableTag (by decide) (hnumber _))
      exact isContent_appendResetableTag (by decide) (hdouble _)
    · have hss : conf.services = some ss := by simpa using hss
      exact isContent_servicesTags fun t ht => h t (by simp [plainTexts, hss, ht])
  have hbody := hlogin.append hserialize
  rwa [List.singleton_append] at hbody

/-- **A request whose plain texts can stand in a value is a document.** -/
theorem isDocument_chgUser (d : DoubleText) {login : String} {conf : UserConfOpt}
    (h : Plain login conf) (stat : UserStatOpt) (msg : List Char) :
    Xml.IsDocument (chgUser d login conf stat msg) := by
  unfold chgUser
  exact ⟨"SetUser".toList, [], _, rfl, by decide, Xml.attrsOk_nil,
    isContent_request d h stat msg⟩

end SrvConf

end Stargazer
