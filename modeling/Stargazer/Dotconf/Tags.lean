import Stargazer.Dotconf.Document
import Stargazer.Lib.Brackets

set_option relaxedAutoImplicit false
set_option autoImplicit false

/-!
# The tags of a configuration file

A closing tag closes the last section of its name that is open.  What is open of other names does not
matter, so that sections need not lie inside of one another: a file is accepted if the tags of each
name match, whatever their order among those of other names.

## Main definitions

* `Stargazer.DotconfTag`, `Stargazer.tags` — what the words of a line are.
* `Stargazer.DotconfDocument.opens` — how many sections of a name are open.
* `Stargazer.scanLines` — the words of the lines of a file.

## Main results

* `Stargazer.DotconfDocument.parseWords_sound`, `Stargazer.DotconfDocument.parseWords_complete` — the
  words of a line.
* `Stargazer.DotconfDocument.readLines_sound`, `Stargazer.DotconfDocument.readLines_complete` — the lines
  of a file.
* `Stargazer.DotconfDocument.parseFile_accepts_iff` — which files are accepted.
-/

namespace Stargazer

/-- What a word is. -/
inductive DotconfTag
  | value (v : List Char)
  | opening (name : List Char)
  | closing (name : List Char)
  | option (name : List Char)

/-- What a word is; `named` and `newNode` are those of `parseLine`. -/
def tagOf (named newNode : Bool) (word : List Char) : DotconfTag :=
  let text := if word.getLast? == some '>' then word.dropLast else word
  if named && !(newNode || word.head? == some '<') then .value text
  else
    match text with
    | '<' :: '/' :: name => .closing name
    | '<' :: name => .opening name
    | name => .option name

/-- What the words of a line are. -/
def tags : Bool → Bool → List (List Char) → List DotconfTag
  | _, _, [] => []
  | named, newNode, word :: words =>
    tagOf named newNode word :: tags true (word.getLast? == some '>') words

/-- The bracket a tag is, by its name. -/
def DotconfTag.bracket (env : DotconfEnv) : DotconfTag → Option (Brace (List ℕ))
  | value _ => none
  | opening name => some (.opening (env.key name))
  | closing name => some (.closing (env.key name))
  | option _ => none

/-- No value stands where the line has no node yet. -/
def owned : Bool → List DotconfTag → Bool
  | _, [] => true
  | node, .value _ :: ts => node && owned node ts
  | node, .closing _ :: ts => owned node ts
  | _, .opening _ :: ts => owned true ts
  | _, .option _ :: ts => owned true ts

/-- A line with its end. -/
def ended (str : List Char) : List Char := if str.getLast? = some '\n' then str else str ++ ['\n']

/-- The words of the lines of a file; `none` if a quote does not end, or if the last line is to go on. -/
def scanLines : List (List Char) → List (List Char) → Bool → Bool → Option (List (List (List Char)))
  | [], _, _, more => if more then none else some []
  | str :: strs, words, quoted, _ =>
    let r := cleanupLine words quoted (ended str)
    if r.2 = -1 then none
    else if r.2 ≠ 0 then scanLines strs r.1.words r.1.quoted true
    else if r.1.words = [] then scanLines strs [] r.1.quoted false
    else (scanLines strs [] r.1.quoted false).map (r.1.words :: ·)

namespace DotconfDocument

variable {env : DotconfEnv} {doc doc' : DotconfDocument}

/-! ## What is open -/

/-- Is a node closed, and what is its name? -/
def sign (env : DotconfEnv) (node : DotconfNode) : Bool × List ℕ := (node.closed, env.key node.name)

/-- How many sections of a name are open. -/
def opens (env : DotconfEnv) (doc : DotconfDocument) (a : List ℕ) : ℕ :=
  (doc.nodeTree.map (sign env)).count (false, a)

theorem map_modify_of_eq {α β : Type*} {f : α → α} {g : α → β} (h : ∀ a, g (f a) = g a)
    (l : List α) (i : ℕ) : (l.modify i f).map g = l.map g := by
  induction l generalizing i with
  | nil => simp
  | cons a l ih => cases i <;> simp [h, ih]

/-- If there is a node, `curPrev` is not null. -/
def Linked (doc : DotconfDocument) : Prop := doc.nodeTree ≠ [] → doc.curPrev.isSome = true

/-- A new node can always be added. -/
theorem exists_pushNode (h : doc.Linked) (name : List Char) (closed : Bool) :
    ∃ doc', doc.pushNode name closed = some doc' := by
  rw [pushNode]
  cases hlast : doc.nodeTree.getLast? with
  | none => exact ⟨_, rfl⟩
  | some last =>
    have hne : doc.nodeTree ≠ [] := by
      intro hnil
      rw [hnil] at hlast
      cases hlast
    obtain ⟨p, hp⟩ := Option.isSome_iff_exists.mp (h hne)
    simp only [hp]
    split_ifs <;> exact ⟨_, rfl⟩

/-- What a new node changes. -/
theorem pushNode_spec (env : DotconfEnv) {name : List Char} {closed : Bool}
    (h : doc.pushNode name closed = some doc') :
    doc'.nodeTree.map (sign env) = doc.nodeTree.map (sign env) ++ [(closed, env.key name)] ∧
      doc'.Linked ∧ doc'.words = doc.words ∧ doc'.quoted = doc.quoted := by
  rw [pushNode] at h
  split at h
  · next hlast =>
    obtain rfl := Option.some.inj h
    rw [List.getLast?_eq_none_iff.mp hlast]
    exact ⟨rfl, fun _ => rfl, rfl, rfl⟩
  · split_ifs at h
    · split at h
      · cases h
      · obtain rfl := Option.some.inj h
        refine ⟨?_, fun _ => rfl, rfl, rfl⟩
        simp only [List.map_append]
        rw [map_modify_of_eq]
        · rfl
        · exact fun _ => rfl
    · obtain rfl := Option.some.inj h
      refine ⟨?_, fun _ => rfl, rfl, rfl⟩
      simp only [List.map_append]
      rw [map_modify_of_eq]
      · rfl
      · exact fun _ => rfl

theorem opens_of_pushNode (env : DotconfEnv) {name : List Char} {closed : Bool}
    (h : doc.pushNode name closed = some doc') :
    opens env doc' = if closed then opens env doc
      else Function.update (opens env doc) (env.key name) (opens env doc (env.key name) + 1) := by
  funext a
  rw [opens, (pushNode_spec env h).1, List.count_append]
  by_cases ha : a = env.key name
  · cases closed <;> simp [ha, opens]
  · cases closed <;> simp [ha, opens, Ne.symm ha]

/-- Where the last open node of a name is. -/
theorem lastOpen_spec (env : DotconfEnv) (name : List Char) (nodes : List DotconfNode) :
    match lastOpen env name nodes with
    | none => (nodes.map (sign env)).count (false, env.key name) = 0
    | some i => ∃ front node back, nodes = front ++ node :: back ∧ front.length = i ∧
        sign env node = (false, env.key name) := by
  induction nodes with
  | nil => rfl
  | cons node nodes ih =>
    rw [lastOpen]
    cases hlast : lastOpen env name nodes with
    | some i =>
      rw [hlast] at ih
      obtain ⟨front, n, back, rfl, rfl, hn⟩ := ih
      exact ⟨node :: front, n, back, rfl, rfl, hn⟩
    | none =>
      rw [hlast] at ih
      by_cases hnode : sign env node = (false, env.key name)
      · obtain ⟨hclosed, hkey⟩ := Prod.mk.inj hnode
        have hsame : env.same name node.name = true := by simp [DotconfEnv.same, hkey]
        simp only [hsame, hclosed, Bool.not_false, Bool.and_self, if_true]
        exact ⟨[], node, nodes, rfl, rfl, hnode⟩
      · have hsame : (env.same name node.name && !node.closed) = false := by
          rw [Bool.and_eq_false_iff, Bool.not_eq_false', DotconfEnv.same, beq_eq_false_iff_ne]
          by_contra hcon
          rw [not_or, not_not, Bool.not_eq_true] at hcon
          exact hnode (Prod.ext hcon.2 hcon.1.symm)
        simp only [hsame, Bool.false_eq_true, if_false]
        rw [List.map_cons, List.count_cons_of_ne (fun h => hnode h), ih]

/-- A closing tag needs something open of its name. -/
theorem closeNode_eq_none_iff (name : List Char) :
    closeNode env doc name = none ↔ opens env doc (env.key name) = 0 := by
  have hspec := lastOpen_spec env name doc.nodeTree
  rw [closeNode, Option.map_eq_none_iff, opens]
  cases hlast : lastOpen env name doc.nodeTree with
  | none =>
    rw [hlast] at hspec
    exact iff_of_true rfl hspec
  | some i =>
    rw [hlast] at hspec
    obtain ⟨front, node, back, hnodes, -, hnode⟩ := hspec
    refine iff_of_false (by simp) fun h => ?_
    simp [hnodes, hnode] at h

/-- What a closing tag changes. -/
theorem closeNode_spec {name : List Char} (h : closeNode env doc name = some doc') :
    opens env doc' =
        Function.update (opens env doc) (env.key name) (opens env doc (env.key name) - 1) ∧
      doc'.Linked ∧ doc'.words = doc.words ∧ doc'.quoted = doc.quoted := by
  obtain ⟨i, hlast, rfl⟩ := Option.map_eq_some_iff.mp h
  refine ⟨?_, fun _ => rfl, rfl, rfl⟩
  have hspec := lastOpen_spec env name doc.nodeTree
  rw [hlast] at hspec
  obtain ⟨front, node, back, hnodes, rfl, hnode⟩ := hspec
  have hmodify : (doc.nodeTree.modify front.length fun node => { node with closed := true }) =
      front ++ { node with closed := true } :: back := by
    rw [hnodes, modify_append_cons]
  have hname : sign env { node with closed := true } = (true, env.key name) :=
    Prod.ext rfl (Prod.mk.inj hnode).2
  funext a
  rw [opens]
  simp only [hmodify, List.map_append, List.map_cons, hname]
  by_cases ha : a = env.key name
  · simp [ha, opens, hnodes, hnode]
  · simp [opens, hnodes, hnode, Function.update_of_ne ha, Ne.symm ha]

theorem opens_pushValue (i : ℕ) (v : List Char) : opens env (doc.pushValue i v) = opens env doc := by
  funext a
  rw [opens, pushValue, modifyNode]
  simp only
  rw [map_modify_of_eq]
  · rfl
  · exact fun _ => rfl

theorem linked_pushValue (h : doc.Linked) (i : ℕ) (v : List Char) : (doc.pushValue i v).Linked := by
  intro hne
  apply h
  rintro hnil
  apply hne
  simp [pushValue, modifyNode, hnil]

/-! ## The words of a line -/

/-- The brackets of tags. -/
def brackets (env : DotconfEnv) (ts : List DotconfTag) : List (Brace (List ℕ)) :=
  ts.filterMap (DotconfTag.bracket env)

/-- `parseLine` by what the word is. -/
theorem parseWords_cons (word : List Char) (words : List (List Char)) (s : LineState) :
    parseWords env (word :: words) s =
      match tagOf s.named s.newNode word with
      | .value v => s.tagNode.bind fun i => parseWords env words
          { s with named := true, newNode := word.getLast? == some '>', doc := s.doc.pushValue i v }
      | .closing name =>
        match closeNode env s.doc name with
        | none => some (s.doc, -1)
        | some doc =>
          parseWords env words { s with named := true, newNode := word.getLast? == some '>', doc }
      | .opening name => (s.doc.pushNode name false).bind fun doc => parseWords env words
          { named := true, tagNode := some s.doc.nodeTree.length, newNode := word.getLast? == some '>', doc }
      | .option name => (s.doc.pushNode name true).bind fun doc => parseWords env words
          { named := true, tagNode := some s.doc.nodeTree.length, newNode := word.getLast? == some '>',
            doc } := by
  rw [parseWords, tagOf]
  generalize (if (word.getLast? == some '>') = true then word.dropLast else word) = text
  split_ifs with hnamed
  · cases s.tagNode <;> rfl
  · split
    · next name => cases hclose : closeNode env s.doc name <;> simp only [hclose]
    · next name _ =>
      cases hpush : s.doc.pushNode name false with
      | none => simp only [hpush, Option.bind_none]
      | some doc => simp only [hpush, Option.bind_some]
    · cases hpush : s.doc.pushNode text true with
      | none => simp only [hpush, Option.bind_none]
      | some doc => simp only [hpush, Option.bind_some]

/-- What `parseLine` gives. -/
theorem parseWords_result {words : List (List Char)} {s : LineState} {r : ℤ}
    (h : parseWords env words s = some (doc', r)) : r = 0 ∨ r = -1 := by
  induction words generalizing s with
  | nil => exact Or.inl (Prod.mk.inj (Option.some.inj h)).2.symm
  | cons word words ih =>
    rw [parseWords_cons] at h
    cases htag : tagOf s.named s.newNode word with
    | value v =>
      rw [htag] at h
      obtain ⟨i, -, h⟩ := Option.bind_eq_some_iff.mp h
      exact ih h
    | closing name =>
      simp only [htag] at h
      cases hclose : closeNode env s.doc name with
      | none =>
        simp only [hclose] at h
        exact Or.inr (Prod.mk.inj (Option.some.inj h)).2.symm
      | some doc₁ =>
        simp only [hclose] at h
        exact ih h
    | opening name =>
      rw [htag] at h
      obtain ⟨doc₁, -, h⟩ := Option.bind_eq_some_iff.mp h
      exact ih h
    | option name =>
      rw [htag] at h
      obtain ⟨doc₁, -, h⟩ := Option.bind_eq_some_iff.mp h
      exact ih h

/-- If the words are parsed, no value is without a node, and every closing tag has closed something. -/
theorem parseWords_sound {words : List (List Char)} {s : LineState} (hs : s.doc.Linked)
    (h : parseWords env words s = some (doc', 0)) :
    owned s.tagNode.isSome (tags s.named s.newNode words) = true ∧
      Brace.run (opens env s.doc) (brackets env (tags s.named s.newNode words)) =
        some (opens env doc') ∧
      doc'.Linked ∧ doc'.quoted = s.doc.quoted := by
  induction words generalizing s with
  | nil =>
    obtain ⟨rfl, -⟩ := Prod.mk.inj (Option.some.inj h)
    exact ⟨rfl, rfl, hs, rfl⟩
  | cons word words ih =>
    rw [parseWords_cons] at h
    rw [tags]
    cases htag : tagOf s.named s.newNode word with
    | value v =>
      rw [htag] at h
      obtain ⟨i, hi, h⟩ := Option.bind_eq_some_iff.mp h
      have hrest := ih (linked_pushValue hs i v) h
      simp only [opens_pushValue, hi, Option.isSome_some] at hrest
      rw [hi]
      exact hrest
    | closing name =>
      rw [htag] at h
      cases hclose : closeNode env s.doc name with
      | none => simp [hclose] at h
      | some doc₁ =>
        simp only [hclose] at h
        obtain ⟨hopens, hlinked, -, hquoted⟩ := closeNode_spec hclose
        have hrest := ih hlinked h
        have hne : opens env s.doc (env.key name) ≠ 0 := by
          intro hzero
          rw [(closeNode_eq_none_iff name).mpr hzero] at hclose
          cases hclose
        refine ⟨hrest.1, ?_, hrest.2.2.1, hrest.2.2.2.trans hquoted⟩
        show Brace.run _ (.closing (env.key name) :: brackets env _) = _
        rw [Brace.run, Brace.step, if_neg hne, Option.bind_some, ← hopens]
        exact hrest.2.1
    | opening name =>
      rw [htag] at h
      obtain ⟨doc₁, hpush, h⟩ := Option.bind_eq_some_iff.mp h
      have hspec := pushNode_spec env hpush
      have hrest := ih hspec.2.1 h
      refine ⟨hrest.1, ?_, hrest.2.2.1, hrest.2.2.2.trans hspec.2.2.2⟩
      show Brace.run _ (.opening (env.key name) :: brackets env _) = _
      rw [Brace.run, Brace.step, Option.bind_some]
      have hopens := opens_of_pushNode env hpush
      simp only [Bool.false_eq_true, if_false] at hopens
      rw [← hopens]
      exact hrest.2.1
    | option name =>
      rw [htag] at h
      obtain ⟨doc₁, hpush, h⟩ := Option.bind_eq_some_iff.mp h
      have hspec := pushNode_spec env hpush
      have hrest := ih hspec.2.1 h
      refine ⟨hrest.1, ?_, hrest.2.2.1, hrest.2.2.2.trans hspec.2.2.2⟩
      have hopens := opens_of_pushNode env hpush
      rw [if_pos rfl] at hopens
      rw [← hopens]
      exact hrest.2.1

/-- If no value is without a node, and every closing tag has something to close, the words are
parsed. -/
theorem parseWords_complete {words : List (List Char)} {s : LineState} (hs : s.doc.Linked)
    (howned : owned s.tagNode.isSome (tags s.named s.newNode words) = true) {m : List ℕ → ℕ}
    (hrun : Brace.run (opens env s.doc) (brackets env (tags s.named s.newNode words)) = some m) :
    ∃ doc', parseWords env words s = some (doc', 0) := by
  induction words generalizing s with
  | nil => exact ⟨s.doc, rfl⟩
  | cons word words ih =>
    rw [parseWords_cons]
    rw [tags] at howned hrun
    cases htag : tagOf s.named s.newNode word with
    | value v =>
      rw [htag] at howned hrun
      obtain ⟨hnode, howned⟩ := Bool.and_eq_true_iff.mp howned
      obtain ⟨i, hi⟩ := Option.isSome_iff_exists.mp hnode
      rw [hi] at howned
      simp only [hi, Option.bind_some]
      exact ih (linked_pushValue hs i v) howned (by rwa [opens_pushValue])
    | closing name =>
      rw [htag] at howned hrun
      replace hrun : Brace.run _ (.closing (env.key name) :: brackets env _) = _ := hrun
      cases hclose : closeNode env s.doc name with
      | none => simp [Brace.run, Brace.step, (closeNode_eq_none_iff name).mp hclose] at hrun
      | some doc₁ =>
        obtain ⟨hopens, hlinked, -, -⟩ := closeNode_spec hclose
        have hne : opens env s.doc (env.key name) ≠ 0 := by
          intro hzero
          rw [(closeNode_eq_none_iff name).mpr hzero] at hclose
          cases hclose
        rw [Brace.run, Brace.step, if_neg hne, Option.bind_some, ← hopens] at hrun
        simp only [hclose]
        exact ih (s := { s with named := true, newNode := word.getLast? == some '>', doc := doc₁ })
          hlinked howned hrun
    | opening name =>
      rw [htag] at howned hrun
      obtain ⟨doc₁, hpush⟩ := exists_pushNode hs name false
      have hopens := opens_of_pushNode env hpush
      simp only [Bool.false_eq_true, if_false] at hopens
      replace hrun : Brace.run _ (.opening (env.key name) :: brackets env _) = _ := hrun
      rw [Brace.run, Brace.step, Option.bind_some, ← hopens] at hrun
      simp only [hpush, Option.bind_some]
      exact ih (pushNode_spec env hpush).2.1 howned hrun
    | option name =>
      rw [htag] at howned hrun
      obtain ⟨doc₁, hpush⟩ := exists_pushNode hs name true
      have hopens := opens_of_pushNode env hpush
      rw [if_pos rfl] at hopens
      simp only [hpush, Option.bind_some]
      exact ih (pushNode_spec env hpush).2.1 howned (by rw [hopens]; exact hrun)

/-! ## The lines of a file -/

/-- What the words of the lines are. -/
def lineTags (lines : List (List (List Char))) : List (List DotconfTag) := lines.map (tags false false)

/-- The words of the lines have been parsed. -/
structure Parsed (env : DotconfEnv) (doc doc' : DotconfDocument) (lines : List (List DotconfTag)) : Prop where
  owned : ∀ ts ∈ lines, owned false ts = true
  run : Brace.run (opens env doc) (lines.flatMap (brackets env)) = some (opens env doc')
  linked : doc'.Linked

theorem Parsed.nil (hopens : opens env doc' = opens env doc) (hlinked : doc'.Linked) :
    Parsed env doc doc' [] :=
  ⟨by simp, by rw [hopens]; rfl, hlinked⟩

/-- A line in front. -/
theorem Parsed.cons {doc₁ : DotconfDocument} {ts : List DotconfTag} {lines : List (List DotconfTag)}
    (hts : Stargazer.owned false ts = true)
    (hrun : Brace.run (opens env doc) (brackets env ts) = some (opens env doc₁))
    (h : Parsed env doc₁ doc' lines) : Parsed env doc doc' (ts :: lines) where
  owned := List.forall_mem_cons.mpr ⟨hts, h.owned⟩
  run := by rw [List.flatMap_cons, Brace.run_append, hrun, Option.bind_some, h.run]
  linked := h.linked

/-- The document with the words of a line. -/
def scanned (doc : DotconfDocument) (c : Cleanup) : DotconfDocument :=
  { doc with curLine := doc.curLine + 1, words := c.words, quoted := c.quoted }

theorem readLine_eq {str : List Char} (hne : str ≠ []) :
    readLine env doc str =
      let r := cleanupLine doc.words doc.quoted (ended str)
      if r.2 ≠ 0 ∨ r.1.words = [] then some (doc.scanned r.1, r.2)
      else (parseWords env r.1.words { doc := doc.scanned r.1 }).map
        fun r => ({ r.1 with words := [] }, r.2) := by
  rw [readLine]
  cases hlast : str.getLast? with
  | none => exact absurd (List.getLast?_eq_none_iff.mp hlast) hne
  | some c =>
    simp only [ended, hlast, Option.some.injEq]
    rfl

/-- If the lines are read, they scan, none is empty, and their words are parsed. -/
theorem readLines_sound {strs : List (List Char)} {ret : ℤ} (hdoc : doc.Linked)
    (h : readLines env strs (doc, ret) = some (doc', 0)) :
    (∀ str ∈ strs, str ≠ []) ∧ ∃ lines,
      scanLines strs doc.words doc.quoted (decide (ret ≠ 0)) = some lines ∧
      Parsed env doc doc' (lineTags lines) := by
  induction strs generalizing doc ret with
  | nil =>
    obtain ⟨rfl, rfl⟩ := Prod.mk.inj (Option.some.inj h)
    exact ⟨by simp, [], by simp [scanLines], .nil rfl hdoc⟩
  | cons str strs ih =>
    obtain ⟨⟨doc₁, r⟩, hline, h⟩ := Option.bind_eq_some_iff.mp h
    have hne : str ≠ [] := by
      rintro rfl
      cases hline
    rw [readLine_eq hne] at hline
    have hscanned : (doc.scanned (cleanupLine doc.words doc.quoted (ended str)).1).Linked := hdoc
    rw [List.forall_mem_cons, scanLines]
    simp only at h hline ⊢
    split_ifs at h with hr
    · cases h
      cases hr
    · split_ifs at hline with hskip
      · obtain ⟨rfl, rfl⟩ := Prod.mk.inj (Option.some.inj hline)
        obtain ⟨hstrs, lines, hlines, hparsed⟩ := ih hscanned h
        refine ⟨⟨hne, hstrs⟩, lines, ?_, ⟨hparsed.owned, hparsed.run, hparsed.linked⟩⟩
        rw [if_neg hr]
        rcases eq_or_ne (cleanupLine doc.words doc.quoted (ended str)).2 0 with hzero | hzero
        · have hwords := hskip.resolve_left (not_not.mpr hzero)
          rw [if_neg (not_not.mpr hzero), if_pos hwords, ← hlines, hzero]
          simp only [scanned, hwords, ne_eq, not_true, decide_false]
        · rw [if_pos hzero, ← hlines]
          simp only [scanned, hzero, ne_eq, not_false_eq_true, decide_true]
      · obtain ⟨hzero, hwords⟩ := not_or.mp hskip
        obtain ⟨⟨doc₂, r₂⟩, hparse, hdoc₁⟩ := Option.map_eq_some_iff.mp hline
        obtain ⟨rfl, rfl⟩ := Prod.mk.inj hdoc₁
        obtain rfl := (parseWords_result hparse).resolve_right hr
        obtain ⟨howned, hrun, hlinked, hquoted⟩ := parseWords_sound hscanned hparse
        replace hlinked : ({ doc₂ with words := [] } : DotconfDocument).Linked := hlinked
        obtain ⟨hstrs, lines, hlines, hparsed⟩ := ih hlinked h
        refine ⟨⟨hne, hstrs⟩, _ :: lines, ?_, .cons howned hrun
          ⟨hparsed.owned, hparsed.run, hparsed.linked⟩⟩
        rw [if_neg (by simp [not_not.mp hzero]), if_neg hzero, if_neg hwords]
        rw [hquoted] at hlines
        simp only [ne_eq, not_true, decide_false] at hlines
        exact Option.map_eq_some_iff.mpr ⟨lines, hlines, rfl⟩

/-- If the lines scan, none is empty, and their words can be parsed, they are read. -/
theorem readLines_complete {strs : List (List Char)} {ret : ℤ} (hdoc : doc.Linked)
    (hne : ∀ str ∈ strs, str ≠ []) {lines : List (List (List Char))}
    (hscan : scanLines strs doc.words doc.quoted (decide (ret ≠ 0)) = some lines)
    (howned : ∀ ts ∈ lineTags lines, owned false ts = true) {m : List ℕ → ℕ}
    (hrun : Brace.run (opens env doc) ((lineTags lines).flatMap (brackets env)) = some m) :
    ∃ doc', readLines env strs (doc, ret) = some (doc', 0) := by
  induction strs generalizing doc ret lines with
  | nil =>
    rw [scanLines] at hscan
    split_ifs at hscan with hret
    rw [decide_eq_true_eq, not_not] at hret
    exact ⟨doc, by rw [readLines, hret]⟩
  | cons str strs ih =>
    obtain ⟨hstr, hne⟩ := List.forall_mem_cons.mp hne
    have hscanned : (doc.scanned (cleanupLine doc.words doc.quoted (ended str)).1).Linked := hdoc
    rw [readLines]
    simp only [readLine_eq hstr]
    rw [scanLines] at hscan
    split_ifs at hscan with hr hzero hwords
    · rw [if_pos (Or.inl hzero), Option.bind_some, if_neg hr]
      apply ih hscanned hne _ howned hrun
      rw [← hscan]
      simp only [scanned, hzero, ne_eq, not_false_eq_true, decide_true]
    · rw [if_pos (Or.inr hwords), Option.bind_some, if_neg hr]
      apply ih hscanned hne _ howned hrun
      rw [← hscan]
      simp only [scanned, hwords, hzero, decide_false]
    · obtain ⟨rest, hrest, rfl⟩ := Option.map_eq_some_iff.mp hscan
      obtain ⟨hts, howned⟩ := List.forall_mem_cons.mp howned
      rw [lineTags, List.map_cons, List.flatMap_cons, Brace.run_append] at hrun
      obtain ⟨m₁, hrun₁, hrun⟩ := Option.bind_eq_some_iff.mp hrun
      obtain ⟨doc₂, hparse⟩ := parseWords_complete (s := { doc := doc.scanned _ }) hscanned hts hrun₁
      obtain ⟨-, hrun₂, hlinked, hquoted⟩ := parseWords_sound hscanned hparse
      rw [if_neg (not_or.mpr ⟨hzero, hwords⟩), hparse, Option.map_some, Option.bind_some,
        if_neg (by simp)]
      replace hlinked : ({ doc₂ with words := [] } : DotconfDocument).Linked := hlinked
      apply ih hlinked hne _ howned
      · rwa [← Option.some.inj (hrun₂.symm.trans hrun₁)] at hrun
      · rw [← hrest, hquoted]
        rfl

/-! ## Which files are accepted -/

/-- Every node is closed if nothing is open. -/
theorem opens_eq_zero_iff (env : DotconfEnv) (doc : DotconfDocument) :
    (opens env doc = fun _ => 0) ↔ ∀ node ∈ doc.nodeTree, node.closed = true := by
  constructor
  · intro h node hnode
    by_contra hopen
    have hzero := congrFun h (env.key node.name)
    rw [opens, List.count_eq_zero] at hzero
    apply hzero
    rw [List.mem_map]
    exact ⟨node, hnode, Prod.ext (Bool.eq_false_iff.mpr hopen) rfl⟩
  · intro h
    funext a
    rw [opens, List.count_eq_zero, List.mem_map]
    rintro ⟨node, hnode, hsign⟩
    have hclosed := (Prod.mk.inj hsign).1
    rw [h node hnode] at hclosed
    cases hclosed

/-- The lines of a file, as `fgets` gives them. -/
def fileLines (content : List Char) : List (List Char) :=
  Stdio.lines 511 (content.length + 1) { rest := content }

/-- A file that is accepted: every line has a first character, its quotes end, no value is without a
node, and for each name the closing tags match the opening ones. -/
structure Accepted (env : DotconfEnv) (content : List Char) (lines : List (List (List Char))) : Prop where
  nonempty : ∀ str ∈ fileLines content, str ≠ []
  scan : scanLines (fileLines content) [] false false = some lines
  owned : ∀ ts ∈ lineTags lines, owned false ts = true
  balanced : Brace.Balanced ((lineTags lines).flatMap (brackets env))

/-- **Which files are accepted.** A file is parsed, and no section of it is left open, if and only if its
lines scan, no value is without a node, and for each name by itself the tags match.

**Proof sketch.** What is open of each name is what the brackets of the tags leave open, line by line and
word by word. -/
theorem parseFile_accepts_iff (env : DotconfEnv) (doc : DotconfDocument) (parent : Option ℕ)
    (content : List Char) (hnodes : doc.nodeTree = [])
    (hwords : doc.words = []) :
    (∃ doc', parseFile env parent content doc = some (doc', 0) ∧
        ∀ node ∈ doc'.nodeTree, node.closed = true) ↔
      ∃ lines, Accepted env content lines := by
  have hlinked : ({ doc with curLine := 0, curParent := parent, quoted := false } :
      DotconfDocument).Linked := fun hne => absurd hnodes hne
  have hopens : opens env { doc with curLine := 0, curParent := parent, quoted := false } =
      fun _ => 0 := by
    funext a
    simp [opens, hnodes]
  constructor
  · rintro ⟨doc', hparse, hclosed⟩
    obtain ⟨hne, lines, hscan, hparsed⟩ := readLines_sound hlinked hparse
    simp only [hwords, ne_eq, not_true, decide_false] at hscan
    refine ⟨lines, hne, hscan, hparsed.owned, ?_⟩
    rw [← Brace.run_zero_iff, ← hopens, hparsed.run, (opens_eq_zero_iff env doc').mpr hclosed, hopens]
  · rintro ⟨lines, hne, hscan, howned, hbalanced⟩
    have hrun := (Brace.run_zero_iff _).mpr hbalanced
    rw [← hopens] at hrun
    have hstart : scanLines (fileLines content) doc.words false (decide ((0 : ℤ) ≠ 0)) = some lines := by
      rw [hwords]
      exact hscan
    obtain ⟨doc', hparse⟩ := readLines_complete hlinked hne hstart howned hrun
    obtain ⟨-, lines', hscan', hparsed⟩ := readLines_sound hlinked hparse
    simp only [hwords, ne_eq, not_true, decide_false] at hscan'
    obtain rfl := Option.some.inj (hscan'.symm.trans hscan)
    refine ⟨doc', hparse, (opens_eq_zero_iff env doc').mp ?_⟩
    rw [← hopens]
    exact Option.some.inj (hparsed.run.symm.trans hrun)

/-- Nothing of the operating system is there. -/
def bareEnv : DotconfEnv where
  getenv := fun _ => none
  realpath := fun _ => none
  file := fun _ => none
  access := fun _ => false
  glob := fun _ => none

/-- Two sections, of which none lies inside of the other one. -/
def crossing : List Char :=
  ['<', 'a', '>', '\n', '<', 'b', ' ', 'x', '>', '\n', '<', '/', 'A', '>', '\n', '<', '/', 'b', '>', '\n']

/-- Sections of two names need not lie inside of one another. -/
theorem parseFile_accepts_crossing : ∃ lines, Accepted bareEnv crossing lines := by
  have hparse : (parseFile bareEnv none crossing {}).map (fun r => (r.2, r.1.nodeTree.all (·.closed))) =
      some (0, true) := by decide +kernel
  obtain ⟨⟨doc', ret⟩, hparse, hclosed⟩ := Option.map_eq_some_iff.mp hparse
  obtain ⟨rfl, hclosed⟩ := Prod.mk.inj hclosed
  exact (parseFile_accepts_iff bareEnv {} none crossing rfl rfl).mp
    ⟨doc', hparse, List.all_eq_true.mp hclosed⟩

end DotconfDocument

end Stargazer
