import Stargazer.Lib.Stdio
import Stargazer.Numbers
import Stargazer.Store.UserConf
import Stargazer.Users.Messages

set_option relaxedAutoImplicit false
set_option autoImplicit false

/-!
# Messages in the file store

`FILES_STORE::EditMessage` and `FILES_STORE::ReadMessage` (`file_store.cpp`).  A message is a file of
six numbers, each in its line, and the text behind them.  The text is read in pieces, the numbers are
converted by `str2x` (`common.cpp`), which looks at `errno` without having reset it: after any earlier
number out of range no message can be read.

A character stands for one byte.  Calls of the operating system that create, open, write and rename
a file succeed.

## Main definitions

* `Stargazer.FilesStore.editMessage`, `Stargazer.FilesStore.readMessage`.

## Main results

* `Stargazer.FilesStore.readMessage_saved` — what is read from the file of a message.
* `Stargazer.FilesStore.message_survives_iff` — when messages survive.
-/

namespace Stargazer

namespace FilesStore

/-! ## Writing -/

/-- `INT_MAX`. -/
def intMax : ℕ := 2 ^ 31 - 1

/-- The name of the file of a message; the number is printed as a signed one. -/
def messageFile (st : FilesStore) (login : String) (id : ℕ) : String :=
  st.usersDir ++ "/" ++ login ++ "/messages/" ++
    String.ofList (CString.printInt (BitVec.ofNat 64 id).toInt)

/-- The numbers of a header that are written. -/
def headerNumbers (h : MessageHeader) : List ℤ :=
  [h.type.toNat, h.lastSendTime.toNat, h.creationTime.toNat, h.showTime.toNat, h.repeatCount,
    h.repeatPeriod.toNat]

/-- A number in its line. -/
def numberLine (z : ℤ) : List Char := CString.printInt z ++ ['\n']

/-- What the calls of `fprintf` write, one after another. -/
def messagePieces (msg : Message) : List (List Char) :=
  (headerNumbers msg.header).map numberLine ++ [CString.cut msg.text.toList]

/-- `FILES_STORE::EditMessage`: the store afterwards, or `m_errorStr`.  `fprintf` fails with
`EOVERFLOW` where it would have to return more than `INT_MAX`. -/
def editMessage (st : FilesStore) (msg : Message) (login : String) : Except String FilesStore :=
  let fileName := st.messageFile login msg.header.id
  if (st.files fileName).isNone then
    .error ("Message for user '" ++ login ++ "' with ID '" ++ toString msg.header.id ++
      "' does not exist.")
  else if (messagePieces msg).all (fun piece => piece.length ≤ intMax) then
    .ok { st with
      files := Function.update (Function.update st.files (fileName ++ ".new") none) fileName
        (some (messagePieces msg).flatten) }
  else .error "fprintf failed. Message: 'Value too large for defined data type'"

/-! ## Reading -/

/-- The fields of a header that are read, `d` in the source. -/
def headerFields : List (MessageHeader → BitVec 32 → MessageHeader) :=
  [fun h x => { h with type := x }, fun h x => { h with lastSendTime := x },
    fun h x => { h with creationTime := x }, fun h x => { h with showTime := x },
    fun h x => { h with repeatCount := x.toInt }, fun h x => { h with repeatPeriod := x }]

/-- The string in the buffer without the end of the line. -/
def chomp (line : List Char) : List Char :=
  CString.cutLast '\n' (CString.cutLast '\r' (CString.cut line))

/-- The loop of `ReadMessage` over the fields. -/
def readFields (errno : ℤ) (fileName : String) :
    List (MessageHeader → BitVec 32 → MessageHeader) → Stdio.Stream → MessageHeader →
      Except String (MessageHeader × Stdio.Stream)
  | [], msgFile, hdr => .ok (hdr, msgFile)
  | d :: ds, msgFile, hdr =>
    match Stdio.fgets 19 msgFile with
    | (none, _) => .error ("Cannot read file '" ++ fileName ++ "'. Missing data.")
    | (some line, msgFile) =>
      if msgFile.eof then .error ("Cannot read file '" ++ fileName ++ "'. Missing data.")
      else
        match str2xUnsigned 32 errno (chomp line) with
        | none => .error ("Cannot read file '" ++ fileName ++ "'. Incorrect value. '" ++
            String.ofList (chomp line) ++ "'")
        | some x => readFields errno fileName ds msgFile (d hdr x)

/-- `FILES_STORE::ReadMessage`: what becomes of `*hdr` and `*text`, or `m_errorStr`. -/
def readMessage (errno : ℤ) (fileName : String) (hdr : MessageHeader) (file : Option (List Char)) :
    Except String (MessageHeader × String) :=
  match file with
  | none => .error ("File '" ++ fileName ++ "' cannot be openned.")
  | some content => do
    let (hdr, msgFile) ← readFields errno fileName headerFields ⟨content, false⟩ hdr
    return (hdr, String.ofList (Stdio.readAll 2047 (msgFile.rest.length + 1) msgFile))

/-! ## Reading what was written -/

/-- A number of 32 bits, signed or not. -/
def Fits (z : ℤ) : Prop := -2 ^ 31 ≤ z ∧ z < 2 ^ 32

/-- A number has eleven characters at most. -/
theorem length_printInt {z : ℤ} (h : Fits z) : (CString.printInt z).length ≤ 11 := by
  have hdigits : (Nat.toDigits 10 z.natAbs).length ≤ 10 := by
    rw [Nat.length_toDigits_le_iff (by decide) (by decide)]
    unfold Fits at h
    omega
  unfold CString.printInt
  split_ifs
  · rw [List.length_cons]
    omega
  · omega

/-- The string that is converted. -/
theorem chomp_numberLine (z : ℤ) : chomp (numberLine z) = CString.printInt z := by
  have hnot : ∀ c ∈ ['\r', '\x00'], c ∉ numberLine z := by
    intro c hc hmem
    rcases List.mem_append.mp hmem with hmem | hmem
    · fin_cases hc <;> exact CString.notMem_printInt (by decide) (by decide) z hmem
    · fin_cases hc <;> exact absurd hmem (by decide)
  rw [chomp, CString.cut_eq_self (hnot _ (by simp)), CString.cutLast_of_notMem (hnot _ (by simp)),
    numberLine, CString.cutLast_append_singleton]

/-- Fields that are filled with numbers. -/
def fill (hdr : MessageHeader) (l : List ((MessageHeader → BitVec 32 → MessageHeader) × ℤ)) :
    MessageHeader :=
  l.foldl (fun hdr e => e.1 hdr (BitVec.ofInt 32 e.2)) hdr

/-- **The fields that are read** from the lines of numbers.

**Proof sketch.** Induction on the fields: a line is shorter than the buffer, so that it is read as a
whole and the end of the file is not found, even if nothing follows. -/
theorem readFields_numberLines {errno : ℤ} (herrno : errno ≠ erange) (fileName : String)
    (l : List ((MessageHeader → BitVec 32 → MessageHeader) × ℤ)) (hl : ∀ e ∈ l, Fits e.2)
    (hdr : MessageHeader) (rest : List Char) :
    readFields errno fileName (l.map Prod.fst)
      ⟨(l.map fun e => numberLine e.2).flatten ++ rest, false⟩ hdr =
        .ok (fill hdr l, ⟨rest, false⟩) := by
  induction l generalizing hdr with
  | nil => rfl
  | cons e l ih =>
    obtain ⟨he, hl⟩ := List.forall_mem_cons.mp hl
    have hline : '\n' ∉ CString.printInt e.2 :=
      CString.notMem_printInt (by decide) (by decide) e.2
    have hget (rest : List Char) : Stdio.fgets 19 ⟨numberLine e.2 ++ rest, false⟩ =
        (some (numberLine e.2), ⟨rest, false⟩) := by
      have hlen := length_printInt he
      rw [numberLine, List.append_assoc]
      exact Stdio.fgets_line hline (by omega) rest false
    have habs : e.2.natAbs < 2 ^ 64 := by
      unfold Fits at he
      omega
    have hword : (BitVec.ofInt 64 e.2).setWidth 32 = BitVec.ofInt 32 e.2 := by
      apply BitVec.eq_of_toNat_eq
      rw [BitVec.toNat_setWidth, BitVec.toNat_ofInt, BitVec.toNat_ofInt]
      omega
    rw [List.map_cons, List.map_cons, List.flatten_cons, List.append_assoc, readFields, hget]
    dsimp only
    rw [chomp_numberLine, str2xUnsigned_printInt 32 errno habs, if_neg herrno, hword]
    simp only [Bool.false_eq_true, if_false]
    exact ih hl (e.1 hdr (BitVec.ofInt 32 e.2))

/-- The header that is read: what is not in the file stays. -/
def readHeader (hdr h : MessageHeader) : MessageHeader := { h with id := hdr.id, ver := hdr.ver }

/-- The numbers of a header fill its fields. -/
theorem fill_headerNumbers (hdr : MessageHeader) {h : MessageHeader} (hrepeat : IsInt h.repeatCount) :
    fill hdr (headerFields.zip (headerNumbers h)) = readHeader hdr h := by
  have hword : ∀ x : BitVec 32, BitVec.ofInt 32 (x.toNat : ℤ) = x := fun x => by
    rw [BitVec.ofInt_natCast, BitVec.ofNat_toNat, BitVec.setWidth_eq]
  simp only [fill, headerFields, headerNumbers, List.zip_cons_cons, List.zip_nil_right,
    List.foldl_cons, List.foldl_nil, hword, toInt_ofInt_of_isInt hrepeat]
  rfl

/-- Every number of a header has 32 bits. -/
theorem fits_headerNumbers {h : MessageHeader} (hrepeat : IsInt h.repeatCount) :
    ∀ z ∈ headerNumbers h, Fits z := by
  have hword : ∀ x : BitVec 32, Fits x.toNat := by
    intro x
    have := x.isLt
    unfold Fits
    omega
  have hint : Fits h.repeatCount := by
    obtain ⟨hlow, hhigh⟩ := hrepeat
    unfold Fits
    omega
  intro z hz
  simp only [headerNumbers, List.mem_cons, List.not_mem_nil, or_false] at hz
  rcases hz with rfl | rfl | rfl | rfl | rfl | rfl
  · exact hword _
  · exact hword _
  · exact hword _
  · exact hword _
  · exact hint
  · exact hword _

/-- **What is read from the file of a message** is the message. -/
theorem readMessage_saved {errno : ℤ} (herrno : errno ≠ erange) (fileName : String)
    (hdr : MessageHeader) {msg : Message} (hrepeat : IsInt msg.header.repeatCount)
    (hnul : '\x00' ∉ msg.text.toList) :
    readMessage errno fileName hdr (some (messagePieces msg).flatten) =
      .ok (readHeader hdr msg.header, msg.text) := by
  obtain ⟨l, hl⟩ : ∃ l, l = headerFields.zip (headerNumbers msg.header) := ⟨_, rfl⟩
  have hfst : l.map Prod.fst = headerFields := by
    rw [hl]
    rfl
  have hsnd : (messagePieces msg).flatten =
      (l.map fun e => numberLine e.2).flatten ++ msg.text.toList := by
    rw [hl, messagePieces, CString.cut_eq_self hnul, List.flatten_append, List.flatten_singleton]
    rfl
  have hfits : ∀ e ∈ l, Fits e.2 := fun e he =>
    fits_headerNumbers hrepeat e.2 (List.of_mem_zip (hl ▸ he)).2
  have hfields := readFields_numberLines herrno fileName l hfits hdr msg.text.toList
  rw [hfst, hl, fill_headerNumbers hdr hrepeat, ← hl, ← hsnd] at hfields
  have htext : Stdio.readAll 2047 (msg.text.toList.length + 1) ⟨msg.text.toList, false⟩ =
      msg.text.toList :=
    Stdio.readAll_eq (by decide) _ _ (Nat.lt_succ_self _) (fun h => absurd h Bool.false_ne_true) hnul
  simp only [readMessage, hfields, ConfigFile.ok_bind, htext, String.ofList_toList]
  rfl

/-- Nothing is read where `errno` was `ERANGE` before. -/
theorem readMessage_erange (fileName : String) (hdr : MessageHeader) (file : Option (List Char)) :
    ∃ e, readMessage erange fileName hdr file = .error e := by
  have hconv : ∀ s, str2xUnsigned 32 erange s = none := by
    intro s
    rw [str2xUnsigned, strtoulErrno, ite_self, if_pos rfl]
  have hfields : ∀ f, ∃ e, readFields erange fileName headerFields f hdr = .error e := by
    intro f
    rw [headerFields, readFields]
    rcases Stdio.fgets 19 f with ⟨_ | line, f'⟩
    · exact ⟨_, rfl⟩
    · dsimp only
      rw [hconv]
      split_ifs <;> exact ⟨_, rfl⟩
  cases file with
  | none => exact ⟨_, rfl⟩
  | some content =>
    obtain ⟨e, he⟩ := hfields ⟨content, false⟩
    exact ⟨e, by rw [readMessage, he]; rfl⟩

/-- When a message is written. -/
theorem editMessage_eq_ok_iff {st st' : FilesStore} {msg : Message} {login : String}
    (hrepeat : IsInt msg.header.repeatCount) (hnul : '\x00' ∉ msg.text.toList)
    (hfile : (st.files (st.messageFile login msg.header.id)).isSome) :
    st.editMessage msg login = .ok st' ↔ msg.text.toList.length ≤ intMax ∧ st' = { st with
      files := Function.update
        (Function.update st.files (st.messageFile login msg.header.id ++ ".new") none)
        (st.messageFile login msg.header.id) (some (messagePieces msg).flatten) } := by
  have hlines : ∀ line ∈ (headerNumbers msg.header).map numberLine, line.length ≤ intMax := by
    intro line hline
    obtain ⟨z, hz, rfl⟩ := List.mem_map.mp hline
    have hlen := length_printInt (fits_headerNumbers hrepeat z hz)
    rw [numberLine, List.length_append]
    change _ + 1 ≤ 2 ^ 31 - 1
    omega
  have hall : (messagePieces msg).all (fun piece => piece.length ≤ intMax) = true ↔
      msg.text.toList.length ≤ intMax := by
    rw [messagePieces, CString.cut_eq_self hnul, List.all_append, Bool.and_eq_true]
    simp only [List.all_eq_true, List.all_cons, List.all_nil, Bool.and_true, decide_eq_true_eq]
    exact and_iff_right hlines
  have hsome : ¬ (st.files (st.messageFile login msg.header.id)).isNone = true := by
    simpa [Option.isSome_iff_ne_none] using hfile
  rw [editMessage, if_neg hsome]
  split_ifs with h
  · rw [Except.ok.injEq, eq_comm]
    exact (and_iff_right (hall.mp h)).symm
  · constructor
    · intro h'
      cases h'
    · rintro ⟨h', -⟩
      exact absurd (hall.mpr h') h

/-- **When messages survive**: when no number out of range was met before, and `fprintf` can return
the length of the text. -/
theorem message_survives_iff (st : FilesStore) (msg : Message) (login : String)
    (hdr : MessageHeader) (errno : ℤ) (hrepeat : IsInt msg.header.repeatCount)
    (hnul : '\x00' ∉ msg.text.toList)
    (hfile : (st.files (st.messageFile login msg.header.id)).isSome) :
    (∃ st', st.editMessage msg login = .ok st' ∧
      readMessage errno (st.messageFile login msg.header.id) hdr
        (st'.files (st.messageFile login msg.header.id)) =
          .ok (readHeader hdr msg.header, msg.text)) ↔
      errno ≠ erange ∧ msg.text.toList.length ≤ intMax := by
  simp only [editMessage_eq_ok_iff hrepeat hnul hfile]
  constructor
  · rintro ⟨st', ⟨hlen, -⟩, hread⟩
    refine ⟨?_, hlen⟩
    rintro rfl
    obtain ⟨e, he⟩ := readMessage_erange (st.messageFile login msg.header.id) hdr
      (st'.files (st.messageFile login msg.header.id))
    rw [he] at hread
    cases hread
  · rintro ⟨herrno, hlen⟩
    refine ⟨_, ⟨hlen, rfl⟩, ?_⟩
    dsimp only
    rw [Function.update_self]
    exact readMessage_saved herrno _ hdr hrepeat hnul

/-- A message to be repeated without end, and its file. -/
def Sample.message : Message :=
  { header := { id := 1, type := 1, creationTime := 0xFFFFFFFF, repeatCount := -1 }
    text := "Hello,\r\nworld\n" }

/-- A store in which every file exists. -/
def Sample.messageStore : FilesStore := ⟨"users", false, fun _ => some []⟩

/-- A message survives. -/
theorem message_survives_sample :
    ∃ st', Sample.messageStore.editMessage Sample.message "alice" = .ok st' ∧
      readMessage 0 "users/alice/messages/1" {} (st'.files "users/alice/messages/1") =
        .ok (readHeader {} Sample.message.header, "Hello,\r\nworld\n") := by
  have hrepeat : IsInt (-1) := by
    unfold IsInt
    omega
  have hname : Sample.messageStore.messageFile "alice" 1 = "users/alice/messages/1" := by
    decide
  have hsurvives := message_survives_iff Sample.messageStore Sample.message "alice" {} 0 hrepeat
    (by decide) rfl
  rw [show Sample.message.header.id = 1 from rfl, hname] at hsurvives
  exact hsurvives.2 ⟨by decide, by decide⟩

/-- **The account of the user expires at too large a time**: after `RestoreUserConf` has converted it, no
message can be read. -/
theorem message_lost_after_credit_expire :
    ¬ ∃ st', Sample.messageStore.editMessage Sample.message "alice" = .ok st' ∧
      readMessage (strtolErrno 0 "99999999999999999999".toList) "users/alice/messages/1" {}
        (st'.files "users/alice/messages/1") =
          .ok (readHeader {} Sample.message.header, "Hello,\r\nworld\n") := by
  have herrno : strtolErrno 0 "99999999999999999999".toList = erange := by decide
  rintro ⟨st', -, hread⟩
  obtain ⟨e, he⟩ := readMessage_erange "users/alice/messages/1" {}
    (st'.files "users/alice/messages/1")
  rw [herrno, he] at hread
  cases hread

end FilesStore

end Stargazer
