import Stargazer.Config.Login
import Stargazer.Crypto.Packed
import Stargazer.Store.ConfigFile

set_option relaxedAutoImplicit false
set_option autoImplicit false

/-!
# Administrators in the file store

`FILES_STORE::SaveAdmin` and `FILES_STORE::RestoreAdmin` (`file_store.cpp`).  A password is filled up
with zeros to four blocks, encrypted, and written with two letters for each byte.  Between the last
two steps the last byte of the cipher text is set to zero, as if it were the end of a string.  So the
last block is decrypted from something else than what was encrypted, unless that byte was zero.

Passwords and arrays are bytes, the file is a text.  An array is written at once where the source
writes it in pieces one behind the other.

## Main definitions

* `Stargazer.AdminConf` — an administrator (`include/stg/admin_conf.h`).
* `Stargazer.AdminFile.encode12`, `Stargazer.AdminFile.decode21` — `Encode12` and `Decode21`
  (`common.cpp`).
* `Stargazer.AdminFile.saveAdmin`, `Stargazer.AdminFile.restoreAdmin`.

## Main results

* `Stargazer.AdminFile.decode21_encode12` — the bytes of an array are read back.
* `Stargazer.AdminFile.admin_survives_iff` — the passwords that survive.
-/

namespace Stargazer

/-- `AdminConf`. -/
structure AdminConf where
  /-- `priv`. -/
  priv : Priv
  /-- `login`. -/
  login : String
  /-- `password`. -/
  password : List Byte

namespace AdminFile

open ConfigFile

/-- `adm_enc_passwd`. -/
def admEncPasswd : List Byte := textBytes "cjeifY8m3"

/-- The context both functions use. -/
def ctx : BlowfishCtx := Blowfish.initContext admEncPasswd admEncPasswd.length

/-! ## Letters for bytes -/

/-- `Encode12`: what is written to `dst`, which are two more letters than `srcLen` bytes give. -/
def encode12 (src : List Byte) (srcLen : ℕ) : List Byte :=
  ((List.range (srcLen + 1)).flatMap fun i =>
    [(src.getD i 0 &&& 0x0F) + 0x61, ((src.getD i 0 &&& 0xF0) >>> 4) + 0x61]).set (srcLen * 2) 0

/-- The loop of `Decode21`. -/
def decodeLoop : List Byte → List Byte
  | c1 :: c2 :: src =>
    if c1 = 0 then [] else (c1 - 0x61 + (c2 - 0x61) <<< 4) :: decodeLoop src
  | _ => []

/-- `Decode21`: the array `dst` afterwards. -/
def decode21 (dst src : List Byte) : List Byte :=
  (decodeLoop src ++ dst.drop (decodeLoop src).length).set ((cstr src).length / 2) 0

/-! ## Saving -/

/-- `adminPass`: the password in a zeroed array, with a zero at the end. -/
def adminPass (password : List Byte) : List Byte :=
  ((cstr password).take admPasswdLen |>.rightpad (admPasswdLen + 1) 0).set (admPasswdLen - 1) 0

/-- `pass`: the cipher text, with a zero at the end. -/
def encryptedPass (password : List Byte) : List Byte :=
  (Blocks.map 8 (Blowfish.encryptBlock ctx) (admPasswdLen / 8) (adminPass password) ++ [0]).set
    (admPasswdLen - 1) 0

/-- `passwordE`. -/
def passwordE (password : List Byte) : List Byte := encode12 (encryptedPass password) admPasswdLen

/-- What `SaveAdmin` writes. -/
def adminWrites (ac : AdminConf) : List (List Char × List Char) :=
  [writeString "password" (bytesText (cstr (passwordE ac.password))),
    writeInt "ChgConf" ac.priv.userConf.toNat, writeInt "ChgPassword" ac.priv.userPasswd.toNat,
    writeInt "ChgStat" ac.priv.userStat.toNat, writeInt "ChgCash" ac.priv.userCash.toNat,
    writeInt "UsrAddDel" ac.priv.userAddDel.toNat, writeInt "ChgTariff" ac.priv.tariffChg.toNat,
    writeInt "ChgAdmin" ac.priv.adminChg.toNat, writeInt "ChgService" ac.priv.serviceChg.toNat,
    writeInt "ChgCorp" ac.priv.corpChg.toNat]

/-- `FILES_STORE::SaveAdmin`: the file afterwards, or `m_errorStr`. -/
def saveAdmin (ac : AdminConf) (fileName : String) (file : Option (List Char)) :
    Except String (List Char) :=
  match load file true with
  | none => .error ("Cannot write admin " ++ ac.login ++ ". " ++ fileName)
  | some cf => .ok (flush (cf.insertAll (adminWrites ac)))

/-! ## Restoring -/

/-- The password from the text of the file.  There is none if the array `password`, of which the last
byte is not set, contains no zero before it. -/
def restorePassword (p : List Char) : Option (List Byte) :=
  let passwordE := ((cstr (textBytes (String.ofList p))).take (2 * admPasswdLen)).rightpad (2 * admPasswdLen + 2) 0
  if passwordE.headD 0 = 0 then some []
  else
    let pass := decode21 (List.replicate (admPasswdLen + 1) 0) passwordE
    let password := Blocks.map 8 (Blowfish.decryptBlock ctx) (admPasswdLen / 8) pass
    if password.contains 0 then some (cstr password) else none

/-- A privilege that must be there and must be a number. -/
def readPriv (cf : Params) (param : String) : Except String (BitVec 16) :=
  if (readUShortInt cf param 0).1 = 0 then .ok (readUShortInt cf param 0).2
  else .error ("Error in parameter " ++ param)

/-- What `RestoreAdmin` reads behind the password; two privileges came later. -/
def restorePriv (cf : Params) : Except String Priv := do
  let userConf ← readPriv cf "ChgConf"
  let userPasswd ← readPriv cf "ChgPassword"
  let userStat ← readPriv cf "ChgStat"
  let userCash ← readPriv cf "ChgCash"
  let userAddDel ← readPriv cf "UsrAddDel"
  let adminChg ← readPriv cf "ChgAdmin"
  let tariffChg ← readPriv cf "ChgTariff"
  return { userConf, userPasswd, userStat, userCash, userAddDel, adminChg, tariffChg
           serviceChg := (readUShortInt cf "ChgService" 0).2
           corpChg := (readUShortInt cf "ChgCorp" 0).2 }

/-- `FILES_STORE::RestoreAdmin`: what becomes of `*ac`, or `m_errorStr`.  There is no result where a
byte is read that was never set. -/
def restoreAdmin (ac : AdminConf) (fileName : String) (file : Option (List Char)) :
    Option (Except String AdminConf) :=
  match load file false with
  | none => some (.error ("Cannot open " ++ fileName))
  | some cf =>
    if (readString cf "password" ['*']).1 ≠ 0 then some (.error "Error in parameter password")
    else (restorePassword (readString cf "password" ['*']).2).map fun password =>
      (restorePriv cf).map fun priv => { ac with priv, password }

/-! ## The letters are read back -/

/-- The two letters of a byte. -/
def lettersOf (b : Byte) : List Byte := [(b &&& 0x0F) + 0x61, ((b &&& 0xF0) >>> 4) + 0x61]

/-- The letters of bytes. -/
def letters (l : List Byte) : List Byte := l.flatMap lettersOf

@[simp] theorem length_letters (l : List Byte) : (letters l).length = 2 * l.length := by
  induction l with
  | nil => rfl
  | cons b l ih =>
    rw [letters, List.flatMap_cons, List.length_append, ← letters, ih, List.length_cons]
    change 2 + 2 * l.length = 2 * (l.length + 1)
    omega

/-- What the letters are. -/
theorem mem_letters {l : List Byte} {c : Byte} (h : c ∈ letters l) : 0x61 ≤ c ∧ c ≤ 0x70 := by
  have hall : ∀ b : Byte, (lettersOf b).all (fun c => 0x61 ≤ c && c ≤ 0x70) = true := by
    decide +kernel
  obtain ⟨b, -, hc⟩ := List.mem_flatMap.mp h
  simpa using List.all_eq_true.mp (hall b) c hc

theorem zero_notMem_letters (l : List Byte) : 0 ∉ letters l := by
  intro h
  exact absurd (mem_letters h).1 (by decide)

/-- The string in the array `Encode12` writes. -/
theorem cstr_encode12 {src : List Byte} {n : ℕ} (hsrc : src.length = n + 1) :
    cstr (encode12 src n) = letters (src.take n) := by
  have hrange : (List.range (n + 1)).flatMap (fun i => lettersOf (src.getD i 0)) = letters src := by
    have hmap : (List.range (n + 1)).map (fun i => src.getD i 0) = src := by
      apply List.ext_getElem
      · simp [hsrc]
      · intro i hi hi'
        simp [hi']
    rw [letters, ← hmap, List.flatMap_map, hmap]
  obtain ⟨b, hb⟩ : ∃ b, src.drop n = [b] :=
    List.length_eq_one_iff.mp (by rw [List.length_drop]; omega)
  have hsplit : src = src.take n ++ [b] := by rw [← hb, List.take_append_drop]
  have hlen : (letters (src.take n)).length = n * 2 := by
    rw [length_letters, List.length_take]
    omega
  have hset : encode12 src n = letters (src.take n) ++ (lettersOf b).set 0 0 := by
    change ((List.range (n + 1)).flatMap (fun i => lettersOf (src.getD i 0))).set (n * 2) 0 = _
    rw [hrange]
    conv_lhs => rw [hsplit, letters, List.flatMap_append, ← letters]
    rw [List.set_append_right _ _ (by omega), hlen, Nat.sub_self]
    simp
  rw [hset, cstr_append_of_notMem (zero_notMem_letters _)]
  change letters (src.take n) ++ cstr (0 :: _) = _
  rw [cstr_zero_cons, List.append_nil]

/-- The loop of `Decode21` on letters with zeros behind them. -/
theorem decodeLoop_letters (l rest : List Byte) :
    decodeLoop (letters l ++ 0 :: 0 :: rest) = l := by
  have hbyte : ∀ b : Byte, (lettersOf b).headD 0 ≠ 0 ∧ decodeLoop (lettersOf b) = [b] := by
    decide +kernel
  induction l with
  | nil => rfl
  | cons b l ih =>
    have hne : (b &&& 0x0F) + 0x61 ≠ (0 : Byte) := (hbyte b).1
    have hstep : decodeLoop (lettersOf b ++ (letters l ++ 0 :: 0 :: rest)) =
        decodeLoop (lettersOf b) ++ decodeLoop (letters l ++ 0 :: 0 :: rest) := by
      simp only [lettersOf, List.cons_append, List.nil_append, decodeLoop, if_neg hne]
    rw [letters, List.flatMap_cons, List.append_assoc, ← letters, hstep, (hbyte b).2, ih]
    rfl

/-- **The bytes of an array are read back.** -/
theorem decode21_encode12 {src : List Byte} {n : ℕ} (hsrc : src.length = n + 1) :
    decode21 (List.replicate (n + 1) 0) ((cstr (encode12 src n)).rightpad (2 * n + 2) 0) =
      src.take n ++ [0] := by
  have hlen : (src.take n).length = n := by
    rw [List.length_take]
    omega
  have hpad : (cstr (encode12 src n)).rightpad (2 * n + 2) 0 = letters (src.take n) ++ [0, 0] := by
    rw [cstr_encode12 hsrc, List.rightpad, length_letters, hlen,
      show 2 * n + 2 - 2 * n = 2 by omega]
    rfl
  have hcstr : (cstr (letters (src.take n) ++ [0, 0])).length / 2 = n := by
    rw [cstr_append_of_notMem (zero_notMem_letters _), cstr_zero_cons, List.append_nil,
      length_letters, hlen]
    omega
  rw [hpad, decode21, decodeLoop_letters, hcstr, hlen, List.drop_replicate,
    show n + 1 - n = 1 by omega, List.set_append_right _ _ (by omega), hlen, Nat.sub_self]
  rfl

/-! ## The blocks of a password -/

/-- The last of the four blocks. -/
def lastBlock (password : List Byte) : List Byte := (password.drop 24).rightpad 8 0

/-- Some block with the same string as the last one is encrypted to what is left of the last block. -/
def LastSurvives (password : List Byte) : Prop :=
  ∃ block : List Byte, block.length = 8 ∧ cstr block = password.drop 24 ∧
    Blowfish.encryptBlock ctx block = (Blowfish.encryptBlock ctx (lastBlock password)).set 7 0

/-- As the decryption sees it. -/
theorem lastSurvives_iff (password : List Byte) :
    LastSurvives password ↔ cstr (Blowfish.decryptBlock ctx
      ((Blowfish.encryptBlock ctx (lastBlock password)).set 7 0)) = password.drop 24 := by
  constructor
  · rintro ⟨block, hblock, hstr, henc⟩
    rw [← henc, Blowfish.decryptBlock_encryptBlock ctx block hblock, hstr]
  · intro h
    refine ⟨_, Blowfish.length_decryptBlock ctx _, h, ?_⟩
    exact Blowfish.encryptBlock_decryptBlock ctx _
      (by rw [List.length_set, Blowfish.length_encryptBlock])

section

variable {password : List Byte} (hnul : 0 ∉ password) (hlen : password.length ≤ admPasswdLen - 1)
include hnul hlen

/-- The zero at the end is one of those behind the password. -/
theorem adminPass_eq : adminPass password = password.rightpad (admPasswdLen + 1) 0 := by
  have htake : (cstr password).take admPasswdLen = password := by
    rw [cstr_of_notMem hnul]
    exact List.take_of_length_le (by omega)
  rw [adminPass, htake, List.rightpad, List.set_append_right _ _ hlen]
  congr 1
  exact List.set_replicate_self

/-- The blocks before the last one, and the last one. -/
theorem blocks_adminPass (f : List Byte → List Byte) :
    Blocks.map 8 f (admPasswdLen / 8) (adminPass password) =
      Blocks.map 8 f 3 (adminPass password) ++ f (lastBlock password) := by
  have hadm : admPasswdLen = 32 := rfl
  have hlast : ((adminPass password).drop 24).take 8 = lastBlock password := by
    rw [adminPass_eq hnul hlen, lastBlock]
    apply List.ext_getElem
    · simp only [List.length_take, List.length_drop, List.rightpad, List.length_append,
        List.length_replicate]
      omega
    · intro i hi hi'
      simp only [List.rightpad, List.getElem_take, List.getElem_drop, List.getElem_append,
        List.length_drop, List.getElem_replicate]
      split_ifs <;> first | rfl | omega
  rw [show admPasswdLen / 8 = 3 + 1 from rfl, Blocks.map_add]
  change _ ++ (f (((adminPass password).drop 24).take 8) ++ []) = _
  rw [List.append_nil, hlast]

/-- The cipher text: its last byte is lost. -/
theorem encryptedPass_eq :
    encryptedPass password = Blocks.map 8 (Blowfish.encryptBlock ctx) 3 (adminPass password) ++
      (Blowfish.encryptBlock ctx (lastBlock password)).set 7 0 ++ [0] := by
  have hadm : admPasswdLen = 32 := rfl
  have hfst : (Blocks.map 8 (Blowfish.encryptBlock ctx) 3 (adminPass password)).length = 24 :=
    Blocks.length_map (Blowfish.length_encryptBlock ctx) 3 _
  have hlst := Blowfish.length_encryptBlock ctx (lastBlock password)
  rw [encryptedPass, blocks_adminPass hnul hlen,
    List.set_append_left _ _ (by rw [List.length_append]; omega),
    List.set_append_right _ _ (by omega), hfst]
  rfl

/-- What is decrypted: everything but the last block is as it was. -/
theorem decrypted_eq :
    Blocks.map 8 (Blowfish.decryptBlock ctx) (admPasswdLen / 8)
        ((encryptedPass password).take admPasswdLen ++ [0]) =
      (adminPass password).take 24 ++
        Blowfish.decryptBlock ctx ((Blowfish.encryptBlock ctx (lastBlock password)).set 7 0) := by
  have hadm : admPasswdLen = 32 := rfl
  obtain ⟨a, ha⟩ : ∃ a, a = Blocks.map 8 (Blowfish.encryptBlock ctx) 3 (adminPass password) :=
    ⟨_, rfl⟩
  obtain ⟨b, hb⟩ : ∃ b, b = (Blowfish.encryptBlock ctx (lastBlock password)).set 7 0 := ⟨_, rfl⟩
  have hfst : a.length = 24 := ha ▸ Blocks.length_map (Blowfish.length_encryptBlock ctx) 3 _
  have hlst : b.length = 8 := by rw [hb, List.length_set, Blowfish.length_encryptBlock]
  have htake : (encryptedPass password).take admPasswdLen = a ++ b := by
    rw [encryptedPass_eq hnul hlen, ← ha, ← hb]
    exact List.take_left' (by rw [List.length_append]; omega)
  have hsize : (adminPass password).length = admPasswdLen + 1 := by
    rw [adminPass_eq hnul hlen]
    simp only [List.length_rightpad]
    omega
  have hinv : Blocks.map 8 (Blowfish.decryptBlock ctx) 3 a = (adminPass password).take 24 := by
    have htake : ((adminPass password).take 24).length = 8 * 3 := by
      rw [List.length_take]
      omega
    have hcut : a = Blocks.map 8 (Blowfish.encryptBlock ctx) 3 ((adminPass password).take 24) := by
      rw [ha, ← Blocks.map_append_of_le 3 ((adminPass password).take 24)
        ((adminPass password).drop 24) htake.ge, List.take_append_drop]
    rw [hcut]
    exact Blocks.map_map_of_inverse (Blowfish.length_encryptBlock ctx)
      (Blowfish.decryptBlock_encryptBlock ctx) 3 _ htake
  rw [htake, List.append_assoc, show admPasswdLen / 8 = 3 + 1 from rfl,
    Blocks.map_append 3 1 a (b ++ [0]) (by omega), hinv, ← hb, Blocks.map_succ, Blocks.map_zero,
    List.append_nil, List.take_left' hlst]

/-! ## The passwords that survive -/

/-- The string that is decrypted. -/
theorem cstr_decrypted_iff :
    (0 ∈ (adminPass password).take 24 ++ Blowfish.decryptBlock ctx
        ((Blowfish.encryptBlock ctx (lastBlock password)).set 7 0) ∧
      cstr ((adminPass password).take 24 ++ Blowfish.decryptBlock ctx
        ((Blowfish.encryptBlock ctx (lastBlock password)).set 7 0)) = password) ↔
      password.length < 24 ∨ LastSurvives password := by
  have hadm : admPasswdLen = 32 := rfl
  rw [lastSurvives_iff, adminPass_eq hnul hlen, List.rightpad]
  generalize hblock : Blowfish.decryptBlock ctx
    ((Blowfish.encryptBlock ctx (lastBlock password)).set 7 0) = block
  by_cases hshort : password.length < 24
  · -- there is a zero before the last block
    obtain ⟨k, hk⟩ : ∃ k, 24 - password.length = k + 1 := ⟨23 - password.length, by omega⟩
    have htake : (password ++ List.replicate (admPasswdLen + 1 - password.length) (0 : Byte)).take 24
        = password ++ 0 :: List.replicate k 0 := by
      rw [List.take_append, List.take_of_length_le (by omega), List.take_replicate,
        Nat.min_eq_left (by omega), hk, List.replicate_succ]
    rw [htake, List.append_assoc, List.cons_append, cstr_append_of_notMem hnul, cstr_zero_cons]
    simp [hshort]
  · have htake : (password ++ List.replicate (admPasswdLen + 1 - password.length) (0 : Byte)).take 24
        = password.take 24 := List.take_append_of_le_length (by omega)
    have hfst : (0 : Byte) ∉ password.take 24 := fun h => hnul (List.mem_of_mem_take h)
    have hsame : password.take 24 ++ cstr block = password ↔ cstr block = password.drop 24 := by
      conv_lhs => rhs; rw [← List.take_append_drop 24 password]
      exact List.append_right_inj _
    rw [htake, cstr_append_of_notMem hfst, hsame]
    constructor
    · rintro ⟨-, h⟩
      exact Or.inr h
    · rintro (h | h)
      · exact absurd h hshort
      · refine ⟨List.mem_append_right _ ?_, h⟩
        -- the string is shorter than the block
        by_contra hzero
        rw [cstr_of_notMem hzero] at h
        have hsize : block.length = 8 := hblock ▸ Blowfish.length_decryptBlock ctx _
        rw [h, List.length_drop] at hsize
        omega

end

/-! ## A saved administrator -/

/-- The password from the letters in the file. -/
theorem restorePassword_saved (password : List Byte) :
    restorePassword (bytesText (cstr (passwordE password))).toList =
      let w := Blocks.map 8 (Blowfish.decryptBlock ctx) (admPasswdLen / 8)
        ((encryptedPass password).take admPasswdLen ++ [0])
      if 0 ∈ w then some (cstr w) else none := by
  have hsize : (encryptedPass password).length = admPasswdLen + 1 := by
    rw [encryptedPass, List.length_set, List.length_append,
      Blocks.length_map (Blowfish.length_encryptBlock ctx)]
    rfl
  have hletters : cstr (passwordE password) = letters ((encryptedPass password).take admPasswdLen) :=
    cstr_encode12 hsize
  have hlen : (cstr (passwordE password)).length = 2 * admPasswdLen := by
    rw [hletters, length_letters, List.length_take, hsize]
    omega
  have hnul : 0 ∉ cstr (passwordE password) := hletters ▸ zero_notMem_letters _
  have hread : ((cstr (textBytes (String.ofList (bytesText (cstr (passwordE password))).toList))).take
      (2 * admPasswdLen)).rightpad (2 * admPasswdLen + 2) 0 =
        (cstr (passwordE password)).rightpad (2 * admPasswdLen + 2) 0 := by
    rw [String.ofList_toList, textBytes_bytesText, cstr_of_notMem hnul,
      List.take_of_length_le hlen.le]
  have hhead : ((cstr (passwordE password)).rightpad (2 * admPasswdLen + 2) 0).headD 0 ≠ 0 := by
    cases hc : cstr (passwordE password) with
    | nil =>
      rw [hc] at hlen
      cases hlen
    | cons c l =>
      intro h
      exact hnul (hc ▸ h ▸ List.mem_cons_self)
  have hdecode : decode21 (List.replicate (admPasswdLen + 1) 0)
      ((cstr (passwordE password)).rightpad (2 * admPasswdLen + 2) 0) =
        (encryptedPass password).take admPasswdLen ++ [0] := decode21_encode12 hsize
  simp only [restorePassword, hread, if_neg hhead, hdecode, List.contains_iff_mem]

/-- The parameters of an administrator can be told apart and are as a file can have them. -/
theorem adminWrites_ok (ac : AdminConf) :
    ((adminWrites ac).map fun e => CString.foldCase e.1).Nodup ∧
      ∀ e ∈ adminWrites ac, ParamOk e.1 := by
  obtain ⟨keys, hkeys⟩ : ∃ keys : List String, keys = ["password", "ChgConf", "ChgPassword",
      "ChgStat", "ChgCash", "UsrAddDel", "ChgTariff", "ChgAdmin", "ChgService", "ChgCorp"] :=
    ⟨_, rfl⟩
  have hwrites : (adminWrites ac).map Prod.fst = keys.map String.toList := by
    rw [hkeys]
    rfl
  have hnodup : ((keys.map String.toList).map CString.foldCase).Nodup := by
    rw [hkeys]
    decide +kernel
  have hok : ∀ k ∈ keys.map String.toList, ParamOk k := by
    rw [hkeys]
    decide +kernel
  refine ⟨?_, fun e he => hok _ (hwrites ▸ List.mem_map_of_mem he)⟩
  rw [← hwrites, List.map_map] at hnodup
  exact hnodup

/-- No letter means anything to the file. -/
theorem plain_letters (l : List Byte) :
    '\n' ∉ (bytesText (letters l)).toList ∧ Plain (bytesText (letters l)).toList := by
  have hbyte : ∀ b : Byte, 0x61 ≤ b ∧ b ≤ 0x70 → Char.ofNat b.toNat ∉ ['\n', '#', ' ', '\t'] := by
    decide +kernel
  refine plain_of_forall fun c hc => ?_
  rw [bytesText, String.toList_ofList] at hc
  obtain ⟨b, hb, rfl⟩ := List.mem_map.mp hc
  exact hbyte b (mem_letters hb)

/-- The letters of a password. -/
theorem exists_letters (password : List Byte) : ∃ l, cstr (passwordE password) = letters l := by
  refine ⟨_, cstr_encode12 ?_⟩
  rw [encryptedPass, List.length_set, List.length_append,
    Blocks.length_map (Blowfish.length_encryptBlock ctx)]
  rfl

/-- No value that is written contains the end of a line. -/
theorem adminWrites_lines (ac : AdminConf) : ∀ e ∈ adminWrites ac, '\n' ∉ e.2 := by
  obtain ⟨l, hl⟩ := exists_letters ac.password
  have hint : ∀ z, '\n' ∉ CString.printInt z := fun z => (plain_printInt z).1
  intro e he
  simp only [adminWrites, writeInt, List.mem_cons, List.not_mem_nil, or_false] at he
  rcases he with rfl | rfl | rfl | rfl | rfl | rfl | rfl | rfl | rfl | rfl
  · rw [writeString, hl]
    exact (plain_letters l).1
  all_goals
    dsimp only
    exact hint _

/-- **What is restored after an administrator was saved**: all the privileges, and what the string of
the four blocks has become. -/
theorem restoreAdmin_saved (ac ac₀ : AdminConf) (fileName : String) (file : Option (List Char))
    {text : List Char} (hsave : saveAdmin ac fileName file = .ok text) :
    restoreAdmin ac₀ fileName (some text) =
      let w := Blocks.map 8 (Blowfish.decryptBlock ctx) (admPasswdLen / 8)
        ((encryptedPass ac.password).take admPasswdLen ++ [0])
      if 0 ∈ w then some (.ok { ac₀ with priv := ac.priv, password := cstr w }) else none := by
  unfold saveAdmin at hsave
  cases hload : load file true with
  | none =>
    rw [hload] at hsave
    cases hsave
  | some cf =>
    rw [hload] at hsave
    obtain rfl := Except.ok.inj hsave
    obtain ⟨hnodup, hok⟩ := adminWrites_ok ac
    obtain ⟨m, hm, hsaved⟩ := exists_load_save (paramOk_of_load hload)
      (fun e he => ⟨hok e he, adminWrites_lines ac e he⟩) hnodup false
    have hmem : ∀ (i : ℕ) {e : List Char × List Char}, (adminWrites ac)[i]? = some e →
        e ∈ adminWrites ac := fun _ _ h => List.mem_of_getElem? h
    have hpass : readString m "password" ['*'] =
        (0, (bytesText (cstr (passwordE ac.password))).toList) := by
      obtain ⟨l, hl⟩ := exists_letters ac.password
      rw [hsaved.readString (hmem 0 rfl) rfl, hl, clean_eq_self_iff.mpr (plain_letters l).2]
    have hword : ∀ (param : String) (x : BitVec 16), writeInt param x.toNat ∈ adminWrites ac →
        readUShortInt m param 0 = (0, x) := by
      intro param x hw
      rw [hsaved.readUShortInt hw rfl x.isLt, BitVec.ofNat_toNat, BitVec.setWidth_eq]
    have hpriv : restorePriv m = .ok ac.priv := by
      simp only [restorePriv, readPriv, hword _ _ (hmem 1 rfl), hword _ _ (hmem 2 rfl),
        hword _ _ (hmem 3 rfl), hword _ _ (hmem 4 rfl), hword _ _ (hmem 5 rfl),
        hword _ _ (hmem 6 rfl), hword _ _ (hmem 7 rfl), hword _ _ (hmem 8 rfl),
        hword _ _ (hmem 9 rfl), if_true, ok_bind]
      rfl
    simp only [restoreAdmin, hm, hpass, restorePassword_saved, hpriv, ne_eq, not_true_eq_false,
      if_false]
    split_ifs <;> rfl

/-- **The passwords that survive** are those that do not reach into the last block, and those whose
last block survives without its last byte.  The privileges always survive. -/
theorem admin_survives_iff (ac ac₀ : AdminConf) (hnul : 0 ∉ ac.password)
    (hlen : ac.password.length ≤ admPasswdLen - 1) (fileName : String) (file : Option (List Char))
    {text : List Char} (hsave : saveAdmin ac fileName file = .ok text) :
    (∃ ac', restoreAdmin ac₀ fileName (some text) = some (.ok ac') ∧
      ac'.password = ac.password ∧ ac'.priv = ac.priv) ↔
      ac.password.length < 24 ∨ LastSurvives ac.password := by
  rw [restoreAdmin_saved ac ac₀ fileName file hsave, decrypted_eq hnul hlen,
    ← cstr_decrypted_iff hnul hlen]
  dsimp only
  split_ifs with hzero
  · constructor
    · rintro ⟨ac', hac', hpass, -⟩
      obtain rfl := Except.ok.inj (Option.some.inj hac')
      exact ⟨hzero, hpass⟩
    · rintro ⟨-, hpass⟩
      exact ⟨_, rfl, hpass, rfl⟩
  · constructor
    · rintro ⟨ac', hac', -⟩
      cases hac'
    · rintro ⟨hmem, -⟩
      exact absurd hmem hzero

/-- A new file can be written. -/
theorem exists_saveAdmin (ac : AdminConf) (fileName : String) :
    ∃ text, saveAdmin ac fileName none = .ok text := ⟨_, rfl⟩

/-- A password of six bytes survives. -/
theorem admin_survives_short :
    ∃ text ac', saveAdmin ⟨Priv.full, "bob", textBytes "secret"⟩ "bob.adm" none = .ok text ∧
      restoreAdmin ⟨Priv.ofWord 0, "bob", []⟩ "bob.adm" (some text) = some (.ok ac') ∧
      ac'.password = textBytes "secret" := by
  obtain ⟨text, htext⟩ := exists_saveAdmin ⟨Priv.full, "bob", textBytes "secret"⟩ "bob.adm"
  have hnul : 0 ∉ textBytes "secret" := by decide
  have hlen : (textBytes "secret").length = 6 := rfl
  obtain ⟨ac', hrestore, hpass, -⟩ := (admin_survives_iff ⟨Priv.full, "bob", textBytes "secret"⟩
    ⟨Priv.ofWord 0, "bob", []⟩ hnul (hlen.trans_le (by decide)) "bob.adm" none htext).2
    (Or.inl (hlen.trans_lt (by decide)))
  exact ⟨text, ac', htext, hrestore, hpass⟩

/-! ## A password that does not survive -/

/-- A password of seven bytes in the last block survives only if the last byte of the cipher text is
zero. -/
theorem LastSurvives.getD_encryptBlock {password : List Byte}
    (hlen : password.length = admPasswdLen - 1) (h : LastSurvives password) :
    (Blowfish.encryptBlock ctx (lastBlock password)).getD 7 0 = 0 := by
  have hadm : admPasswdLen = 32 := rfl
  obtain ⟨block, hblock, hstr, henc⟩ := h
  have hseven : (password.drop 24).length = 7 := by
    rw [List.length_drop]
    omega
  -- the block is the string and one zero, as the last block is
  have hsame : block = lastBlock password := by
    have hsplit : cstr block ++ block.dropWhile (· ≠ 0) = block := List.takeWhile_append_dropWhile
    obtain ⟨c, hc⟩ : ∃ c, block.dropWhile (· ≠ 0) = [c] := by
      rw [← List.length_eq_one_iff]
      have hlength := congrArg List.length hsplit
      rw [List.length_append, hstr] at hlength
      omega
    have hzero : c = 0 := by
      have hhead := List.head?_dropWhile_not (· ≠ 0) block
      rw [hc] at hhead
      simpa using hhead
    rw [← hsplit, hstr, hc, hzero, lastBlock, List.rightpad, hseven]
    rfl
  rw [hsame] at henc
  rw [henc, List.getD_eq_getElem?_getD, List.getElem?_set_self
    (by rw [Blowfish.length_encryptBlock]; decide), Option.getD_some]

/-- A password of 31 bytes. -/
def Sample.longPassword : List Byte := textBytes "abcdefghijklmnopqrstuvwxyz01234"

/-- A word of the cipher, from packed boxes. -/
theorem toNat_snd_encrypt (key : List Byte) (x : BitVec 32 × BitVec 32) :
    (Blowfish.encrypt (Blowfish.init key) x).2.toNat =
      Blowfish.Packed.init
        (PackedWords.pack 32 ((Blowfish.Packed.start key).P.toList.map BitVec.toNat))
        (PackedWords.pack 32
          (0 :: (Blowfish.Packed.start key).S.toList.flatMap fun row => row.toList.map BitVec.toNat))
        fun p s => Blowfish.Packed.encrypt p s x.1.toNat x.2.toNat fun _ xr => xr := by
  obtain ⟨p, s, hrep, hinit⟩ := Blowfish.Packed.init_eq key
    (Blowfish.Packed.rep_pack (Blowfish.Packed.start key))
    fun p s => Blowfish.Packed.encrypt p s x.1.toNat x.2.toNat fun _ xr => xr
  rw [hinit, Blowfish.Packed.encrypt_eq hrep]

/-- The last byte of the cipher text of eight bytes. -/
theorem getD_encryptBlock (ctx : BlowfishCtx) (src : List Byte) :
    (Blowfish.encryptBlock ctx src).getD 7 0 =
      ((Blowfish.encrypt ctx (Blowfish.bytes2block src, Blowfish.bytes2block (src.drop 4))).2
        >>> 24 &&& 0xFF).setWidth 8 := rfl

/-- The last byte of the cipher text of `Sample.longPassword` is not zero. -/
theorem Sample.getD_encryptBlock :
    (Blowfish.encryptBlock ctx (lastBlock Sample.longPassword)).getD 7 0 ≠ 0 := by
  have hctx : ctx = Blowfish.init (textBytes "cjeifY8m3" ++ List.replicate 23 0) := by
    have hkey : Blowfish.strncpyKey admEncPasswd (min admEncPasswd.length passwdLen) =
        textBytes "cjeifY8m3" ++ List.replicate 23 0 := by decide
    rw [← hkey]
    rfl
  have hwords : (Blowfish.bytes2block (lastBlock Sample.longPassword),
      Blowfish.bytes2block ((lastBlock Sample.longPassword).drop 4)) =
        ((0x31307a79, 0x00343332) : BitVec 32 × BitVec 32) := by decide
  have hlast : (Blowfish.encrypt ctx (0x31307a79, 0x00343332)).2 = 4030360869 := by
    apply BitVec.eq_of_toNat_eq
    rw [hctx, toNat_snd_encrypt]
    decide +kernel
  rw [AdminFile.getD_encryptBlock, hwords, hlast]
  decide

/-- A password of 31 bytes does not survive. -/
theorem long_password_lost :
    ∃ text, saveAdmin ⟨Priv.full, "bob", Sample.longPassword⟩ "bob.adm" none = .ok text ∧
      ¬ ∃ ac', restoreAdmin ⟨Priv.ofWord 0, "bob", []⟩ "bob.adm" (some text) = some (.ok ac') ∧
        ac'.password = Sample.longPassword ∧ ac'.priv = Priv.full := by
  obtain ⟨text, htext⟩ := exists_saveAdmin ⟨Priv.full, "bob", Sample.longPassword⟩ "bob.adm"
  have hnul : 0 ∉ Sample.longPassword := by decide
  have hlen : Sample.longPassword.length = admPasswdLen - 1 := rfl
  refine ⟨text, htext, ?_⟩
  rintro ⟨ac', hrestore, hpass, -⟩
  rw [restoreAdmin_saved _ _ _ _ htext, decrypted_eq hnul hlen.le] at hrestore
  dsimp only at hrestore
  split_ifs at hrestore with hzero
  obtain rfl := Except.ok.inj (Option.some.inj hrestore)
  rcases (cstr_decrypted_iff hnul hlen.le).1 ⟨hzero, hpass⟩ with hshort | hlast
  · exact absurd hshort (by decide)
  · exact Sample.getD_encryptBlock (hlast.getD_encryptBlock hlen)

end AdminFile

end Stargazer
