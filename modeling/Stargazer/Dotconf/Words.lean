import Stargazer.Lib.CString

set_option relaxedAutoImplicit false
set_option autoImplicit false

/-!
# The words of a configuration file

`DOTCONFDocument::cleanupLine` cuts a line into words: blanks and `=` stand between them, quotes
keep them together, and a backslash at the end goes on with the next line.  There is no way to write
a backslash in front of an `n`, so that not every word can be written.

## Main definitions

* `Stargazer.Cleanup` — the document and the locals of `cleanupLine`; `Stargazer.cleanupLine`.
* `Stargazer.quoteWord` — a word in quotes.
* `Stargazer.Writable` — the words that can be written so.

## Main results

* `Stargazer.cleanupLine_quoteWord_iff` — exactly they are read back.
* `Stargazer.cleanupLine_words` — a line of words.
-/

namespace Stargazer

open CString

/-! ## The words of a line -/

/-- What `cleanupLine` works on. -/
structure Cleanup where
  words : List (List Char) := []
  quoted : Bool := false
  concat : Bool := false
  /-- What stands from `start` to `bg`. -/
  start : List Char := []

namespace Cleanup

/-- `*bg++ = c` -/
def put (s : Cleanup) (c : Char) : Cleanup := { s with start := s.start ++ [c] }

/-- A word is added to the list, or to the one that began on the line before. -/
def pushWord (s : Cleanup) : Cleanup :=
  if s.start = [] then s
  else if s.concat then
    { s with words := s.words.dropLast ++ [s.words.getLastD [] ++ s.start], concat := false }
  else { s with words := s.words ++ [s.start] }

/-- A word has come to its end, and `start` is behind it. -/
def endWord (s : Cleanup) : Cleanup := { s.pushWord with start := [] }

end Cleanup

theorem Cleanup.endWord_mk (ws : List (List Char)) {w : List Char} (hw : w ≠ []) :
    Cleanup.endWord { words := ws, start := w } = { words := ws ++ [w] } := by
  simp [Cleanup.endWord, Cleanup.pushWord, hw]

/-- What a character stands for behind a backslash. -/
def escaped (c : Char) : Option Char :=
  if c = '"' ∨ c = '\'' then some c
  else if c = 'n' then some '\n'
  else if c = 'r' then some '\r'
  else none

/-- The loop of `cleanupLine`, and whether the line goes on with the next one. -/
def cleanupLoop : List Char → Cleanup → Cleanup × Bool
  | [], s => (s, false)
  | c :: line, s =>
    if (c = '#' ∨ c = ';') ∧ s.quoted = false then (s.pushWord, false)
    -- a `=` is replaced by a blank; the blanks that follow end words without a character
    else if (c = '=' ∨ isSpace c) ∧ s.quoted = false then cleanupLoop line s.endWord
    else if c = '\\' then
      match line with
      | [] => (s.put c, false)
      | d :: line' =>
        match escaped d with
        | some e => cleanupLoop line' (s.put e)
        | none =>
          if d = '\n' ∨ d = '\r' then (s.pushWord, true) else cleanupLoop (d :: line') (s.put c)
    else if c = '"' ∨ c = '\'' then cleanupLoop line { s with quoted := !s.quoted }
    else cleanupLoop line (s.put c)

/-- `DOTCONFDocument::cleanupLine` -/
def cleanupLine (words : List (List Char)) (quoted : Bool) (line : List Char) : Cleanup × ℤ :=
  let r := cleanupLoop line { words, quoted, concat := !words.isEmpty && quoted }
  (r.1, if r.1.quoted ∧ r.2 = false then -1 else if r.2 then 1 else 0)

/-! ## Writing words -/

/-- The characters that mean something outside of quotes. -/
def isPlainChar (c : Char) : Bool :=
  !isSpace c && !(['=', '#', ';', '"', '\'', '\\', '\x00'].contains c)

/-- A character inside of quotes. -/
def quoteChar (c : Char) : List Char :=
  if c = '"' ∨ c = '\'' then ['\\', c]
  else if c = '\n' then ['\\', 'n']
  else if c = '\r' then ['\\', 'r']
  else [c]

/-- A word in quotes. -/
def quoteWord (v : List Char) : List Char := '"' :: v.flatMap quoteChar ++ ['"']

/-- Words that can be written: there is something, and no backslash stands at the end or in front of a
letter it makes something else of. -/
structure Writable (v : List Char) : Prop where
  ne_nil : v ≠ []
  last : v.getLast? ≠ some '\\'
  pairs : v.IsChain fun c d => c = '\\' → d ≠ 'n' ∧ d ≠ 'r'

instance (v : List Char) : Decidable (Writable v) :=
  decidable_of_iff (v ≠ [] ∧ v.getLast? ≠ some '\\' ∧ v.IsChain fun c d => c = '\\' → d ≠ 'n' ∧ d ≠ 'r')
    ⟨fun h => ⟨h.1, h.2.1, h.2.2⟩, fun h => ⟨h.ne_nil, h.last, h.pairs⟩⟩

/-- What is read of a word in quotes. -/
def reread : List Char → List Char
  | [] => []
  | [c] => [c]
  | c :: d :: v =>
    if c = '\\' ∧ d = 'n' then '\n' :: reread v
    else if c = '\\' ∧ d = 'r' then '\r' :: reread v
    else c :: reread (d :: v)

theorem length_reread_le : ∀ v, (reread v).length ≤ v.length
  | [] => le_rfl
  | [_] => le_rfl
  | c :: d :: v => by
    have htail := length_reread_le v
    have hrest := length_reread_le (d :: v)
    rw [reread]
    split_ifs <;> simp only [List.length_cons] at * <;> omega

/-- A word is read as it is unless a backslash means something. -/
theorem reread_eq_self_iff : ∀ v,
    reread v = v ↔ v.IsChain fun c d => c = '\\' → d ≠ 'n' ∧ d ≠ 'r'
  | [] => iff_of_true rfl .nil
  | [_] => iff_of_true rfl (.singleton _)
  | c :: d :: v => by
    have hshort (e : Char) : e :: reread v ≠ c :: d :: v := by
      intro h
      have hlen := congrArg List.length h
      have hle := length_reread_le v
      simp only [List.length_cons] at hlen
      omega
    rw [reread, List.isChain_cons_cons, ← reread_eq_self_iff (d :: v)]
    split_ifs with hn hr
    · exact iff_of_false (hshort _) fun h => (h.1 hn.1).1 hn.2
    · exact iff_of_false (hshort _) fun h => (h.1 hr.1).2 hr.2
    · rw [List.cons.injEq, and_iff_right rfl, iff_and_self]
      intro _ hc
      exact ⟨fun hd => hn ⟨hc, hd⟩, fun hd => hr ⟨hc, hd⟩⟩

/-! ## Reading words -/

section Reading

variable {s : Cleanup} {tail : List Char}

theorem ne_of_isPlainChar {c d : Char} (h : isPlainChar c = true) (hd : isPlainChar d = false) :
    c ≠ d := by
  rintro rfl
  rw [h] at hd
  cases hd

theorem isSpace_of_isPlainChar {c : Char} (h : isPlainChar c = true) : isSpace c = false := by
  rw [isPlainChar, Bool.and_eq_true, Bool.not_eq_true'] at h
  exact h.1

-- the equations are derived here, once, for all the lemmas below
attribute [local simp] cleanupLoop in
/-- What the loop does with a character other than a backslash. -/
theorem cleanupLoop_of_ne {c : Char} (hback : c ≠ '\\') :
    cleanupLoop (c :: tail) s =
      if (c = '#' ∨ c = ';') ∧ s.quoted = false then (s.pushWord, false)
      else if (c = '=' ∨ isSpace c) ∧ s.quoted = false then cleanupLoop tail s.endWord
      else if c = '"' ∨ c = '\'' then cleanupLoop tail { s with quoted := !s.quoted }
      else cleanupLoop tail (s.put c) := by
  rw [cleanupLoop.eq_def]
  simp only [if_neg hback]

/-- A character that means nothing is copied. -/
theorem cleanupLoop_char {c : Char} (hback : c ≠ '\\') (hquote : c ≠ '"' ∧ c ≠ '\'')
    (h : s.quoted = true ∨ c ≠ '#' ∧ c ≠ ';' ∧ c ≠ '=' ∧ isSpace c = false) :
    cleanupLoop (c :: tail) s = cleanupLoop tail (s.put c) := by
  rw [cleanupLoop_of_ne hback, if_neg, if_neg, if_neg (not_or.mpr hquote)]
  · rintro ⟨hc, hquoted⟩
    simp_all
  · rintro ⟨hc, hquoted⟩
    simp_all

theorem cleanupLoop_plainChar {c : Char} (h : isPlainChar c = true) :
    cleanupLoop (c :: tail) s = cleanupLoop tail (s.put c) :=
  cleanupLoop_char (ne_of_isPlainChar h (by decide))
    ⟨ne_of_isPlainChar h (by decide), ne_of_isPlainChar h (by decide)⟩
    (.inr ⟨ne_of_isPlainChar h (by decide), ne_of_isPlainChar h (by decide),
      ne_of_isPlainChar h (by decide), isSpace_of_isPlainChar h⟩)

/-- A text without special characters is copied. -/
theorem cleanupLoop_plain {w : List Char} (h : ∀ c ∈ w, isPlainChar c = true) :
    cleanupLoop (w ++ tail) s = cleanupLoop tail { s with start := s.start ++ w } := by
  induction w generalizing s with
  | nil => simp
  | cons c w ih =>
    rw [List.cons_append, cleanupLoop_plainChar (h c List.mem_cons_self),
      ih fun d hd => h d (List.mem_cons_of_mem c hd)]
    simp [Cleanup.put]

/-- A blank ends a word. -/
theorem cleanupLoop_space {c : Char} (hspace : isSpace c = true) (h : s.quoted = false) :
    cleanupLoop (c :: tail) s = cleanupLoop tail s.endWord := by
  have hne {d : Char} (hd : isSpace d = false) : c ≠ d := by
    rintro rfl
    rw [hspace] at hd
    cases hd
  rw [cleanupLoop_of_ne (hne (by decide)), if_neg, if_pos ⟨.inr hspace, h⟩]
  rintro ⟨hc | hc, -⟩
  · exact hne (by decide) hc
  · exact hne (by decide) hc

/-- What is escaped comes back. -/
theorem cleanupLoop_escaped {c e : Char} (he : escaped c = some e) :
    cleanupLoop ('\\' :: c :: tail) s = cleanupLoop tail (s.put e) := by
  simp [cleanupLoop, isSpace, he]

/-- A backslash in front of another character. -/
theorem cleanupLoop_backslash {c : Char} (he : escaped c = none) (hline : c ≠ '\n' ∧ c ≠ '\r') :
    cleanupLoop ('\\' :: c :: tail) s = cleanupLoop (c :: tail) (s.put '\\') := by
  simp [cleanupLoop, isSpace, he, hline]

/-- A quote. -/
theorem cleanupLoop_quote :
    cleanupLoop ('"' :: tail) s = cleanupLoop tail { s with quoted := !s.quoted } := by
  rw [cleanupLoop_of_ne (by decide)]
  simp [isSpace]

/-- A character that begins something the loop does not take for an escape. -/
def Bare (text : List Char) : Prop :=
  ∃ c rest, text = c :: rest ∧ escaped c = none ∧ c ≠ '\n' ∧ c ≠ '\r'

/-- A character in quotes begins like that, unless it is one of two letters. -/
theorem bare_quoteChar {c : Char} (hn : c ≠ 'n') (hr : c ≠ 'r') (rest : List Char) :
    Bare (quoteChar c ++ rest) := by
  rw [quoteChar]
  split_ifs with hquote hline hreturn
  · exact ⟨'\\', _, rfl, by decide⟩
  · exact ⟨'\\', _, rfl, by decide⟩
  · exact ⟨'\\', _, rfl, by decide⟩
  · exact ⟨c, _, rfl, by simp [escaped, hquote, hn, hr], hline, hreturn⟩

/-- A character in quotes. -/
theorem cleanupLoop_quoteChar {c : Char} (hquoted : s.quoted = true) (h : c = '\\' → Bare tail) :
    cleanupLoop (quoteChar c ++ tail) s = cleanupLoop tail (s.put c) := by
  rw [quoteChar]
  split_ifs with hquote hline hreturn
  · exact cleanupLoop_escaped (if_pos hquote)
  · rw [hline]
    exact cleanupLoop_escaped (by decide)
  · rw [hreturn]
    exact cleanupLoop_escaped (by decide)
  · by_cases hback : c = '\\'
    · obtain ⟨d, rest, rfl, hescaped, hd⟩ := h hback
      rw [hback]
      exact cleanupLoop_backslash hescaped hd
    · exact cleanupLoop_char hback (not_or.mp hquote) (.inl hquoted)

/-- **The inside of quotes** is read with the backslashes that mean something. -/
theorem cleanupLoop_flatMap_quoteChar (v : List Char) (hquoted : s.quoted = true)
    (h : v.getLast? = some '\\' → Bare tail) :
    cleanupLoop (v.flatMap quoteChar ++ tail) s =
      cleanupLoop tail { s with start := s.start ++ reread v } := by
  induction v using reread.induct generalizing s with
  | case1 => simp [reread]
  | case2 c =>
    rw [List.flatMap_cons, List.flatMap_nil, List.append_nil,
      cleanupLoop_quoteChar hquoted fun hc => h (by rw [hc]; rfl)]
    rfl
  | case3 c d v hc ih =>
    obtain ⟨rfl, rfl⟩ := hc
    have hlast : v.getLast? = some '\\' → Bare tail := by
      intro hv
      apply h
      rw [List.getLast?_cons_cons, List.getLast?_cons, hv]
      rfl
    simp only [List.flatMap_cons, List.append_assoc]
    show cleanupLoop ('\\' :: 'n' :: (v.flatMap quoteChar ++ tail)) s = _
    rw [cleanupLoop_escaped (e := '\n') (by decide), ih (s := s.put '\n') hquoted hlast]
    simp [Cleanup.put, reread]
  | case4 c d v hn hc ih =>
    obtain ⟨rfl, rfl⟩ := hc
    have hlast : v.getLast? = some '\\' → Bare tail := by
      intro hv
      apply h
      rw [List.getLast?_cons_cons, List.getLast?_cons, hv]
      rfl
    simp only [List.flatMap_cons, List.append_assoc]
    show cleanupLoop ('\\' :: 'r' :: (v.flatMap quoteChar ++ tail)) s = _
    rw [cleanupLoop_escaped (e := '\r') (by decide), ih (s := s.put '\r') hquoted hlast]
    simp [Cleanup.put, reread]
  | case5 c d v hn hr ih =>
    have hbare : c = '\\' → Bare ((d :: v).flatMap quoteChar ++ tail) := by
      intro hc
      rw [List.flatMap_cons, List.append_assoc]
      exact bare_quoteChar (fun hd => hn ⟨hc, hd⟩) (fun hd => hr ⟨hc, hd⟩) _
    rw [List.flatMap_cons, List.append_assoc, cleanupLoop_quoteChar hquoted hbare,
      ih (s := s.put c) hquoted fun hv => h (by rw [List.getLast?_cons_cons, hv])]
    simp [Cleanup.put, reread, hn, hr]

/-- A word in quotes. -/
theorem cleanupLoop_quoteWord {v : List Char} (hv : v.getLast? ≠ some '\\') (hquoted : s.quoted = false) :
    cleanupLoop (quoteWord v ++ tail) s =
      cleanupLoop tail { s with start := s.start ++ reread v } := by
  rw [quoteWord, List.cons_append, List.cons_append, List.append_assoc, cleanupLoop_quote,
    cleanupLoop_flatMap_quoteChar v (by simp [hquoted]) fun h => absurd h hv,
    List.singleton_append, cleanupLoop_quote]
  simp [hquoted]

end Reading

/-- **Which words can be written in quotes**: exactly those that are `Writable`. -/
theorem cleanupLine_quoteWord_iff (v : List Char) :
    (∃ s, cleanupLine [] false (quoteWord v ++ ['\n']) = (s, 0) ∧ s.words = [v]) ↔ Writable v := by
  by_cases hlast : v.getLast? = some '\\'
  · -- the quote behind the backslash belongs to the word, and the line ends inside of it
    refine iff_of_false ?_ fun h => h.last hlast
    obtain ⟨w, rfl⟩ := List.getLast?_eq_some_iff.mp hlast
    have hloop (s : Cleanup) (hs : s.quoted = true) :
        cleanupLoop ((w ++ ['\\']).flatMap quoteChar ++ ['"', '\n']) s =
          ({ s with start := s.start ++ reread w ++ ['"', '\n'] }, false) := by
      have htail : Bare (['\\'].flatMap quoteChar ++ ['"', '\n']) := ⟨'\\', _, rfl, by decide⟩
      rw [List.flatMap_append, List.append_assoc, cleanupLoop_flatMap_quoteChar w hs fun _ => htail]
      show cleanupLoop ['\\', '"', '\n'] _ = _
      rw [cleanupLoop_escaped (e := '"') (by decide),
        cleanupLoop_char (c := '\n') (by decide) (by decide) (.inl (by exact hs))]
      simp [cleanupLoop, Cleanup.put]
    rintro ⟨s, hs, -⟩
    have hret := congrArg Prod.snd hs
    rw [cleanupLine, quoteWord, List.cons_append, List.cons_append, List.append_assoc] at hret
    simp only [cleanupLoop_quote] at hret
    rw [List.singleton_append, hloop _ rfl] at hret
    simp at hret
  · have hline : cleanupLine [] false (quoteWord v ++ ['\n']) =
        (Cleanup.endWord { start := reread v }, 0) := by
      rw [cleanupLine, cleanupLoop_quoteWord hlast rfl, cleanupLoop_space (by decide) rfl]
      simp [cleanupLoop, Cleanup.endWord, Cleanup.pushWord]
      split_ifs <;> rfl
    rw [hline]
    constructor
    · rintro ⟨s, hs, hwords⟩
      obtain rfl := (Prod.mk.inj hs).1
      by_cases hnil : reread v = []
      · simp [Cleanup.endWord, Cleanup.pushWord, hnil] at hwords
      · rw [Cleanup.endWord_mk [] hnil, List.nil_append, List.singleton_inj] at hwords
        rw [hwords] at hnil
        exact ⟨hnil, hlast, (reread_eq_self_iff v).mp hwords⟩
    · intro h
      refine ⟨_, rfl, ?_⟩
      rw [(reread_eq_self_iff v).mpr h.pairs, Cleanup.endWord_mk [] h.ne_nil]
      rfl

/-! ## A line of words -/

/-- Words in quotes behind one that has been read. -/
def wordsText (vs : List (List Char)) : List Char := vs.flatMap fun v => ' ' :: quoteWord v

/-- Reading words behind a word `w`. -/
theorem cleanupLoop_wordsText {ws vs : List (List Char)} {w tail : List Char} (hw : w ≠ [])
    (hvs : ∀ v ∈ vs, Writable v) :
    cleanupLoop (wordsText vs ++ tail) { words := ws, start := w } =
      cleanupLoop tail { words := ws ++ (w :: vs).dropLast,
                         start := (w :: vs).getLast (List.cons_ne_nil w vs) } := by
  induction vs generalizing ws w with
  | nil => simp [wordsText]
  | cons v vs ih =>
    have hv := hvs v List.mem_cons_self
    rw [wordsText, List.flatMap_cons, List.cons_append, List.cons_append, List.append_assoc,
      cleanupLoop_space (by decide) rfl, Cleanup.endWord_mk ws hw, cleanupLoop_quoteWord hv.last rfl,
      (reread_eq_self_iff v).mpr hv.pairs, List.nil_append]
    show cleanupLoop (wordsText vs ++ tail) _ = _
    rw [ih hv.ne_nil fun u hu => hvs u (List.mem_cons_of_mem v hu)]
    simp

/-- **A line of words**: a word without special characters, words in quotes, and what is added to the
last of them. -/
theorem cleanupLine_words {w : List Char} (vs : List (List Char)) (e : List Char) (hw : w ≠ [])
    (hplain : ∀ c ∈ w, isPlainChar c = true) (he : ∀ c ∈ e, isPlainChar c = true)
    (hvs : ∀ v ∈ vs, Writable v) :
    cleanupLine [] false (w ++ wordsText vs ++ e ++ ['\n']) =
      ({ words := (w :: vs).dropLast ++ [(w :: vs).getLast (List.cons_ne_nil w vs) ++ e] }, 0) := by
  have hlast : (w :: vs).getLast (List.cons_ne_nil w vs) ++ e ≠ [] := by
    intro h
    rcases List.mem_cons.mp (List.getLast_mem (List.cons_ne_nil w vs)) with hmem | hmem
    · exact hw (hmem ▸ (List.append_eq_nil_iff.mp h).1)
    · exact (hvs _ hmem).ne_nil (List.append_eq_nil_iff.mp h).1
  rw [cleanupLine, List.append_assoc, List.append_assoc, cleanupLoop_plain hplain]
  simp only [List.isEmpty_nil, Bool.not_true, Bool.false_and, List.nil_append]
  rw [cleanupLoop_wordsText hw hvs, cleanupLoop_plain he, cleanupLoop_space (by decide) rfl,
    Cleanup.endWord_mk _ hlast, List.nil_append]
  rfl

end Stargazer
