import Stargazer.Dotconf.Document

set_option relaxedAutoImplicit false
set_option autoImplicit false

/-!
# Configuration files that are written

An outline is what a configuration file is to say: options with values, and sections with values and
with an outline inside.  It is written line by line, with the values in quotes, and the nodes that
`DOTCONFDocument` makes of the file are the outline again.

## Main definitions

* `Stargazer.Outline` — options and sections; `Stargazer.Outline.lines` — how they are written.
* `Stargazer.Outline.nodes` — the nodes with their links.
* `Stargazer.Outline.params` — what plugins are to get of an outline.

## Main results

* `Stargazer.Outline.readLines_lines` — the lines are read as the nodes.
* `Stargazer.Outline.toPVS_nodes` — the nodes are walked through as the outline.
* `Stargazer.Outline.setContent_text` — a file.
-/

namespace Stargazer

open CString

/-- What is written one below another. -/
inductive Outline
  | nil
  | option (name : List Char) (values : List (List Char)) (rest : Outline)
  | group (name : List Char) (values : List (List Char)) (children rest : Outline)

namespace Outline

/-! ## Writing -/

/-- A name of an option or a section. -/
def isName (name : List Char) : Bool :=
  !name.isEmpty && name.all fun c => isPlainChar c && !List.contains ['<', '>', '/'] c

/-- A value that is read as it is written. -/
structure IsValue (v : List Char) : Prop where
  writable : Writable v
  noZero : '\x00' ∉ v
  head : v.head? ≠ some '<'
  last : v.getLast? ≠ some '>'
  noMacro : DotconfDocument.hasMacro v = false

instance (v : List Char) : Decidable (IsValue v) :=
  decidable_of_iff (Writable v ∧ '\x00' ∉ v ∧ v.head? ≠ some '<' ∧ v.getLast? ≠ some '>' ∧
      DotconfDocument.hasMacro v = false)
    ⟨fun h => ⟨h.1, h.2.1, h.2.2.1, h.2.2.2.1, h.2.2.2.2⟩,
      fun h => ⟨h.writable, h.noZero, h.head, h.last, h.noMacro⟩⟩

/-- The line of an option, or the first one of a section. -/
def optionLine (name : List Char) (values : List (List Char)) : List Char := name ++ wordsText values

def openLine (name : List Char) (values : List (List Char)) : List Char :=
  '<' :: name ++ wordsText values ++ ['>']

/-- The last line of a section. -/
def closeLine (name : List Char) : List Char := '<' :: '/' :: name ++ ['>']

/-- The lines of an outline. -/
def lines : Outline → List (List Char)
  | nil => []
  | option name values rest => optionLine name values :: rest.lines
  | group name values children rest =>
    openLine name values :: (children.lines ++ closeLine name :: rest.lines)

/-- The file. -/
def text (o : Outline) : List Char := o.lines.flatMap (· ++ ['\n'])

/-- An outline that can be written: its names and values are, no file is included, and the lines are
not too long. -/
def Wf (env : DotconfEnv) : Outline → Prop
  | nil => True
  | option name values rest =>
    isName name = true ∧ (∀ v ∈ values, IsValue v) ∧ env.same "IncludeFile".toList name = false ∧
      (optionLine name values).length < 510 ∧ rest.Wf env
  | group name values children rest =>
    isName name = true ∧ (∀ v ∈ values, IsValue v) ∧ env.same "IncludeFile".toList name = false ∧
      (openLine name values).length < 510 ∧ (closeLine name).length < 510 ∧
      children.Wf env ∧ rest.Wf env

instance decidableWf (env : DotconfEnv) : (o : Outline) → Decidable (o.Wf env)
  | nil => isTrue trivial
  | option name values rest =>
    have := decidableWf env rest
    inferInstanceAs (Decidable (isName name = true ∧ (∀ v ∈ values, IsValue v) ∧
      env.same "IncludeFile".toList name = false ∧ (optionLine name values).length < 510 ∧ rest.Wf env))
  | group name values children rest =>
    have := decidableWf env children
    have := decidableWf env rest
    inferInstanceAs (Decidable (isName name = true ∧ (∀ v ∈ values, IsValue v) ∧
      env.same "IncludeFile".toList name = false ∧ (openLine name values).length < 510 ∧
      (closeLine name).length < 510 ∧ children.Wf env ∧ rest.Wf env))

/-! ## Nodes -/

/-- How many nodes there are. -/
def size : Outline → ℕ
  | nil => 0
  | option _ _ rest => rest.size + 1
  | group _ _ children rest => children.size + rest.size + 1

/-- The place of the first node. -/
def first (place : ℕ) : Outline → Option ℕ
  | nil => none
  | option _ _ _ => some place
  | group _ _ _ _ => some place

/-- The nodes of an outline from a place and a line on. -/
def nodes (file : List Char) : ℕ → ℕ → Option ℕ → Option ℕ → Outline → List DotconfNode
  | _, _, _, _, nil => []
  | place, line, parent, prev, option name values rest =>
    { name, values, lineNum := line, fileName := file, previousNode := prev, parentNode := parent,
      nextNode := rest.first (place + 1) } :: rest.nodes file (place + 1) (line + 1) parent (some place)
  | place, line, parent, prev, group name values children rest =>
    { name, values, lineNum := line, fileName := file, previousNode := prev, parentNode := parent,
      nextNode := rest.first (place + 1 + children.size), childNode := children.first (place + 1) } ::
      (children.nodes file (place + 1) (line + 1) (some place) none ++
        rest.nodes file (place + 1 + children.size) (line + 2 + children.lines.length) parent
          (some place))

theorem length_nodes (file : List Char) (place line : ℕ) (parent prev : Option ℕ) (o : Outline) :
    (o.nodes file place line parent prev).length = o.size := by
  induction o generalizing place line parent prev with
  | nil => rfl
  | option name values rest ih => simp [nodes, size, ih]
  | group name values children rest ihc ihr => simp [nodes, size, ihc, ihr]

theorem closed_of_mem_nodes {file : List Char} {place line : ℕ} {parent prev : Option ℕ} {o : Outline}
    {node : DotconfNode} (h : node ∈ o.nodes file place line parent prev) : node.closed = true := by
  induction o generalizing place line parent prev with
  | nil => cases h
  | option name values rest ih =>
    rcases List.mem_cons.mp h with rfl | h
    · rfl
    · exact ih h
  | group name values children rest ihc ihr =>
    rw [nodes, List.mem_cons, List.mem_append] at h
    rcases h with rfl | h | h
    · rfl
    · exact ihc h
    · exact ihr h

/-! ## Reading the words of a line -/

section Words

open DotconfDocument

variable {env : DotconfEnv} {doc : DotconfDocument}

/-- Values for the node at a place. -/
def pushValues (doc : DotconfDocument) (i : ℕ) (vs : List (List Char)) : DotconfDocument :=
  doc.modifyNode i fun node => { node with values := node.values ++ vs }

theorem pushValues_pushValue (doc : DotconfDocument) (i : ℕ) (v : List Char) (vs : List (List Char)) :
    pushValues (doc.pushValue i v) i vs = pushValues doc i (v :: vs) := by
  simp [pushValues, pushValue, modifyNode, List.modify_modify_eq, Function.comp_def]

variable (env doc) in
/-- A word that is a value, and whether it is the last one of a tag. -/
theorem parseWords_value {v : List Char} (words : List (List Char)) (i : ℕ) (hv : IsValue v) (e : Bool) :
    parseWords env ((v ++ if e then ['>'] else []) :: words)
        { named := true, tagNode := some i, newNode := false, doc } =
      parseWords env words { named := true, tagNode := some i, newNode := e, doc := doc.pushValue i v } := by
  have hhead : (v ++ if e then ['>'] else []).head? ≠ some '<' := by
    rw [List.head?_append_of_ne_nil _ hv.writable.ne_nil]
    exact hv.head
  have hlast : (v.getLast? == some '>') = false := beq_false_of_ne hv.last
  have hhead' : (v.head? == some '<') = false := beq_false_of_ne hv.head
  cases e with
  | true => simp_all [parseWords]
  | false => simp [parseWords, hlast, hhead']

variable (env doc) in
/-- Words that are values. -/
theorem parseWords_values {vs : List (List Char)} (words : List (List Char)) (i : ℕ)
    (hvs : ∀ v ∈ vs, IsValue v) :
    parseWords env (vs ++ words) { named := true, tagNode := some i, newNode := false, doc } =
      parseWords env words
        { named := true, tagNode := some i, newNode := false, doc := pushValues doc i vs } := by
  induction vs generalizing doc with
  | nil =>
    have hid : (fun node : DotconfNode => { node with values := node.values ++ [] }) = id := by
      funext node
      simp
    rw [List.nil_append, pushValues, modifyNode, hid, List.modify_id]
  | cons v vs ih =>
    have hword := parseWords_value env doc (vs ++ words) i (hvs v List.mem_cons_self) false
    rw [List.cons_append]
    simp only [Bool.false_eq_true, if_false, List.append_nil] at hword
    rw [hword, ih _ fun u hu => hvs u (List.mem_cons_of_mem v hu), pushValues_pushValue]

/-- The pointers to a node that is added: to its parent or to the node in front of it. -/
def link (place parent prev : Option ℕ) (nodes : List DotconfNode) : List DotconfNode :=
  match place, prev, parent with
  | none, _, _ => nodes
  | some i, some p, _ => nodes.modify p fun node => { node with nextNode := some i }
  | some i, none, some q => nodes.modify q fun node => { node with childNode := some i }
  | some _, none, none => nodes

theorem length_link (place parent prev : Option ℕ) (nodes : List DotconfNode) :
    (link place parent prev nodes).length = nodes.length := by
  unfold link
  split <;> simp

/-- Where the next node goes: it is the first one, or it follows one that is closed, or it is the first
one of a section. -/
inductive Place (doc : DotconfDocument) : Option ℕ → Option ℕ → Prop
  | root (hnodes : doc.nodeTree = []) (hparent : doc.curParent = none) : Place doc none none
  | after {last : DotconfNode} {p : ℕ} (hlast : doc.nodeTree.getLast? = some last)
      (hclosed : last.closed = true) (hprev : doc.curPrev = some p) (hp : p < doc.nodeTree.length) :
      Place doc doc.curParent (some p)
  | inside {last : DotconfNode} (hlast : doc.nodeTree.getLast? = some last)
      (hopen : last.closed = false) : Place doc (some (doc.nodeTree.length - 1)) none

/-- The document with a node more. -/
def added (doc : DotconfDocument) (parent prev : Option ℕ) (node : DotconfNode) : DotconfDocument :=
  { doc with
    nodeTree := link (some doc.nodeTree.length) parent prev doc.nodeTree ++ [node]
    curParent := parent
    curPrev := some doc.nodeTree.length }

/-- A new node without values. -/
theorem pushNode_eq {parent prev : Option ℕ} (h : Place doc parent prev) (name : List Char) (closed : Bool) :
    doc.pushNode name closed = some (added doc parent prev
      { name, closed, lineNum := doc.curLine, fileName := doc.processedFiles.getLastD [],
        previousNode := prev, parentNode := parent }) := by
  cases h with
  | root hnodes hparent => simp [pushNode, added, link, hnodes, ← hparent]
  | after hlast hclosed hprev hp => simp [pushNode, added, link, hlast, hclosed, hprev]
  | inside hlast hopen => simp [pushNode, added, link, hlast, hopen]

/-- Values for a node that has just been added. -/
theorem pushValues_added (parent prev : Option ℕ) (node : DotconfNode) (vs : List (List Char)) :
    pushValues (added doc parent prev node) doc.nodeTree.length vs =
      added doc parent prev { node with values := node.values ++ vs } := by
  have hlen := length_link (some doc.nodeTree.length) parent prev doc.nodeTree
  have hmodify := modify_append_cons (link (some doc.nodeTree.length) parent prev doc.nodeTree) node
    (fun node => { node with values := node.values ++ vs }) []
  rw [hlen] at hmodify
  rw [pushValues, modifyNode, added, hmodify, added]

theorem exists_cons_of_isName {name : List Char} (h : isName name = true) :
    ∃ c rest, name = c :: rest ∧ c ≠ '<' ∧ c ≠ '/' := by
  cases name with
  | nil => cases h
  | cons c rest =>
    simp only [isName, List.isEmpty_cons, Bool.not_false, Bool.true_and, List.all_cons, Bool.and_eq_true] at h
    have hc := h.1.2
    refine ⟨c, rest, rfl, ?_, ?_⟩
    · rintro rfl
      cases hc
    · rintro rfl
      cases hc

theorem getLast?_of_isName {name : List Char} (h : isName name = true) : name.getLast? ≠ some '>' := by
  intro hlast
  obtain ⟨init, rfl⟩ := List.getLast?_eq_some_iff.mp hlast
  simp [isName] at h

/-- What is left of a word without the end of its tag. -/
theorem strip_eq {w : List Char} (hlast : w.getLast? ≠ some '>') (e : Bool) :
    ((w ++ if e then ['>'] else []).getLast? == some '>') = e ∧
      (if e then (w ++ if e then ['>'] else []).dropLast else w ++ if e then ['>'] else []) = w := by
  cases e with
  | true => simp
  | false => simp [hlast]

variable (env doc) in
/-- The name of an option. -/
theorem parseWords_name {c : Char} {name : List Char} (words : List (List Char)) (hc : c ≠ '<')
    (hlast : (c :: name).getLast? ≠ some '>') (e : Bool) :
    parseWords env ((c :: name ++ if e then ['>'] else []) :: words) { doc } =
      (doc.pushNode (c :: name) true).bind fun doc' => parseWords env words
        { named := true, tagNode := some doc.nodeTree.length, newNode := e, doc := doc' } := by
  obtain ⟨hend, hstrip⟩ := strip_eq hlast e
  rw [parseWords]
  simp only [hend, hstrip, Bool.false_and, Bool.false_eq_true, if_false]
  split
  · next h => exact absurd (List.cons.inj h).1 hc
  · next h => exact absurd (List.cons.inj h).1 hc
  · cases doc.pushNode (c :: name) true <;> rfl

variable (env doc) in
/-- The name of a section. -/
theorem parseWords_opening {c : Char} {name : List Char} (words : List (List Char)) (hc : c ≠ '/')
    (hlast : (c :: name).getLast? ≠ some '>') (e : Bool) :
    parseWords env (('<' :: c :: name ++ if e then ['>'] else []) :: words) { doc } =
      (doc.pushNode (c :: name) false).bind fun doc' => parseWords env words
        { named := true, tagNode := some doc.nodeTree.length, newNode := e, doc := doc' } := by
  obtain ⟨hend, hstrip⟩ := strip_eq (w := '<' :: c :: name) (by rwa [List.getLast?_cons_cons]) e
  rw [parseWords]
  simp only [hend, hstrip, Bool.false_and, Bool.false_eq_true, if_false]
  split
  · next h => exact absurd (List.cons.inj (List.cons.inj h).2).1 hc
  · next h =>
    obtain rfl := (List.cons.inj h).2
    cases doc.pushNode (c :: name) false <;> rfl
  · next h => exact absurd rfl (h (c :: name))

/-- The words of an option. -/
theorem parseWords_option {parent prev : Option ℕ} (h : Place doc parent prev) {name : List Char}
    (hname : isName name = true) {vs : List (List Char)} (hvs : ∀ v ∈ vs, IsValue v) :
    parseWords env (name :: vs) { doc } = some (added doc parent prev
      { name, values := vs, lineNum := doc.curLine, fileName := doc.processedFiles.getLastD [],
        previousNode := prev, parentNode := parent }, 0) := by
  have hlast := getLast?_of_isName hname
  obtain ⟨c, rest, rfl, hc, -⟩ := exists_cons_of_isName hname
  have hfirst := parseWords_name env doc vs hc hlast false
  have hvalues := fun doc' =>
    parseWords_values env doc' [] doc.nodeTree.length hvs
  simp only [Bool.false_eq_true, if_false, List.append_nil] at hfirst hvalues
  rw [hfirst, pushNode_eq h, Option.bind_some, hvalues, pushValues_added, parseWords, List.nil_append]

/-- The words of the first line of a section. -/
theorem parseWords_open {parent prev : Option ℕ} (h : Place doc parent prev) {name : List Char}
    (hname : isName name = true) {vs : List (List Char)} (hvs : ∀ v ∈ vs, IsValue v) :
    parseWords env ((('<' :: name) :: vs).dropLast ++
        [(('<' :: name) :: vs).getLast (List.cons_ne_nil _ vs) ++ ['>']]) { doc } =
      some (added doc parent prev
        { name, values := vs, closed := false, lineNum := doc.curLine,
          fileName := doc.processedFiles.getLastD [], previousNode := prev, parentNode := parent }, 0) := by
  have hlast := getLast?_of_isName hname
  obtain ⟨c, rest, rfl, -, hc⟩ := exists_cons_of_isName hname
  have hfirst := fun words => parseWords_opening env doc words hc hlast
  rcases List.eq_nil_or_concat vs with rfl | ⟨us, v, rfl⟩
  · have hword := hfirst [] true
    rw [if_pos rfl] at hword
    rw [List.dropLast_singleton, List.nil_append, List.getLast_singleton, hword, pushNode_eq h,
      Option.bind_some, parseWords]
  · have hv := hvs v (by simp)
    have hus : ∀ u ∈ us, IsValue u := fun u hu => hvs u (by simp [hu])
    have hword := hfirst (us ++ [v ++ ['>']]) false
    have hvalues := fun doc' => parseWords_values env doc' [v ++ ['>']]
      doc.nodeTree.length hus
    have hend := fun doc' =>
      parseWords_value env doc' [] doc.nodeTree.length hv true
    simp only [Bool.false_eq_true, if_false, List.append_nil, if_true] at hword hend
    have hwords : (('<' :: c :: rest) :: us.concat v).dropLast ++
        [(('<' :: c :: rest) :: us.concat v).getLast (List.cons_ne_nil _ _) ++ ['>']] =
        ('<' :: c :: rest) :: (us ++ [v ++ ['>']]) := by
      simp only [List.concat_eq_append, ← List.cons_append, List.dropLast_concat, List.getLast_append,
        List.getLast_singleton]
      simp
    have hone : ∀ doc' : DotconfDocument, doc'.pushValue doc.nodeTree.length v =
        pushValues doc' doc.nodeTree.length [v] := fun _ => rfl
    rw [hwords, hword, pushNode_eq h, Option.bind_some, hvalues, hend, pushValues_added, hone,
      pushValues_added, parseWords, List.concat_eq_append, List.nil_append]

variable (env doc) in
/-- The word of the last line of a section. -/
theorem parseWords_close {name : List Char} {i : ℕ} (hname : name.getLast? ≠ some '>')
    (hopen : lastOpen env name doc.nodeTree = some i) :
    parseWords env [closeLine name] { doc } =
      some ({ doc with
        nodeTree := doc.nodeTree.modify i fun node => { node with closed := true }
        curParent := (doc.nodeTree[i]?).bind DotconfNode.parentNode
        curPrev := some i }, 0) := by
  have hlast : ('<' :: '/' :: name).getLast? ≠ some '>' := by
    rw [List.getLast?_cons_cons, List.getLast?_cons]
    cases h : name.getLast? with
    | none => simp
    | some c => simpa [h] using hname
  obtain ⟨hend, hstrip⟩ := strip_eq hlast true
  simp only [if_true] at hend hstrip
  rw [closeLine, List.cons_append, List.cons_append] at *
  rw [parseWords]
  simp only [hend, if_true, hstrip, Bool.false_and, Bool.false_eq_true, if_false, closeNode, hopen,
    Option.map_some, parseWords]

end Words

/-! ## Reading a line -/

section Lines

open DotconfDocument

variable {env : DotconfEnv} {doc : DotconfDocument}

theorem isPlainChar_of_mem_name {name : List Char} (h : isName name = true) {c : Char} (hc : c ∈ name) :
    isPlainChar c = true := by
  rw [isName, Bool.and_eq_true, List.all_eq_true] at h
  exact (Bool.and_eq_true_iff.mp (h.2 c hc)).1

/-- Nothing is left of a line before. -/
structure Ready (doc : DotconfDocument) : Prop where
  words : doc.words = []
  quoted : doc.quoted = false

/-- A line whose words are there. -/
theorem readLine_of_cleanupLine {line : List Char} {words : List (List Char)} (hready : Ready doc)
    (hclean : cleanupLine [] false (line ++ ['\n']) = ({ words }, 0)) (hwords : words ≠ []) :
    readLine env doc (line ++ ['\n']) =
      (parseWords env words { doc := { doc with curLine := doc.curLine + 1, words } }).map
        fun r => ({ r.1 with words := [] }, r.2) := by
  simp [readLine, hready.words, hready.quoted, hclean, hwords, parseLine]

theorem Place.congr {doc' : DotconfDocument} {parent prev : Option ℕ} (h : Place doc parent prev)
    (hnodes : doc'.nodeTree = doc.nodeTree) (hparent : doc'.curParent = doc.curParent)
    (hprev : doc'.curPrev = doc.curPrev) : Place doc' parent prev := by
  cases h with
  | root h hp => exact .root (hnodes.trans h) (hparent.trans hp)
  | after hlast hclosed h hp =>
    rw [← hparent]
    exact .after (by rwa [hnodes]) hclosed (hprev.trans h) (by rwa [hnodes])
  | inside hlast hopen =>
    rw [← hnodes]
    exact .inside (by rwa [hnodes]) hopen

/-- A line has added a node. -/
structure Grown (doc doc' : DotconfDocument) (parent prev : Option ℕ) (node : DotconfNode) : Prop where
  ready : Ready doc'
  nodes : doc'.nodeTree = link (some doc.nodeTree.length) parent prev doc.nodeTree ++ [node]
  parent : doc'.curParent = parent
  prev : doc'.curPrev = some doc.nodeTree.length
  line : doc'.curLine = doc.curLine + 1
  files : doc'.processedFiles = doc.processedFiles

/-- A line that adds a node. -/
theorem readLine_added {line : List Char} {words : List (List Char)} {parent prev : Option ℕ}
    (node : ℕ → DotconfNode) (hready : Ready doc)
    (hclean : cleanupLine [] false (line ++ ['\n']) = ({ words }, 0)) (hwords : words ≠ [])
    (hplace : Place doc parent prev)
    (hparse : ∀ doc' : DotconfDocument, Place doc' parent prev →
      doc'.processedFiles = doc.processedFiles →
      parseWords env words { doc := doc' } = some (added doc' parent prev (node doc'.curLine), 0)) :
    ∃ doc', readLine env doc (line ++ ['\n']) = some (doc', 0) ∧
      Grown doc doc' parent prev (node (doc.curLine + 1)) := by
  have hline := hparse { doc with curLine := doc.curLine + 1, words } (hplace.congr rfl rfl rfl) rfl
  rw [readLine_of_cleanupLine hready hclean hwords, hline, Option.map_some]
  exact ⟨_, rfl, ⟨rfl, hready.quoted⟩, rfl, rfl, rfl, rfl, rfl⟩

variable (env) in
/-- The line of an option. -/
theorem readLine_option {parent prev : Option ℕ} (hready : Ready doc) (hplace : Place doc parent prev)
    {name : List Char} (hname : isName name = true) {vs : List (List Char)}
    (hvs : ∀ v ∈ vs, IsValue v) :
    ∃ doc', readLine env doc (optionLine name vs ++ ['\n']) = some (doc', 0) ∧
      Grown doc doc' parent prev
        { name, values := vs, lineNum := doc.curLine + 1,
          fileName := doc.processedFiles.getLastD [], previousNode := prev, parentNode := parent } := by
  have hne : name ≠ [] := by
    rintro rfl
    cases hname
  have hclean := cleanupLine_words vs [] hne (fun c => isPlainChar_of_mem_name hname)
    (fun c hc => absurd hc List.not_mem_nil) fun v hv => (hvs v hv).writable
  rw [List.append_nil, List.append_nil, List.dropLast_append_getLast] at hclean
  refine readLine_added (fun line => ⟨name, vs, line, _, true, prev, none, parent, none⟩) hready hclean
    (List.cons_ne_nil _ _) hplace fun doc' hplace' hfiles => ?_
  rw [parseWords_option hplace' hname hvs, hfiles]

variable (env) in
/-- The first line of a section. -/
theorem readLine_open {parent prev : Option ℕ} (hready : Ready doc) (hplace : Place doc parent prev)
    {name : List Char} (hname : isName name = true) {vs : List (List Char)}
    (hvs : ∀ v ∈ vs, IsValue v) :
    ∃ doc', readLine env doc (openLine name vs ++ ['\n']) = some (doc', 0) ∧
      Grown doc doc' parent prev
        { name, values := vs, closed := false, lineNum := doc.curLine + 1,
          fileName := doc.processedFiles.getLastD [], previousNode := prev, parentNode := parent } := by
  have hplain : ∀ c ∈ '<' :: name, isPlainChar c = true := by
    intro c hc
    rcases List.mem_cons.mp hc with rfl | hc
    · rfl
    · exact isPlainChar_of_mem_name hname hc
  have hclean := cleanupLine_words vs ['>'] (List.cons_ne_nil '<' name) hplain
    (List.forall_mem_singleton.mpr rfl) fun v hv => (hvs v hv).writable
  refine readLine_added (fun line => ⟨name, vs, line, _, false, prev, none, parent, none⟩) hready hclean
    (by simp) hplace fun doc' hplace' hfiles => ?_
  rw [parseWords_open hplace' hname hvs, hfiles]

/-! ## Reading the lines of an outline -/

theorem readLines_append {strs strs' : List (List Char)} {r r' : DotconfDocument × ℤ}
    (h : readLines env strs r = some r') (hret : r'.2 ≠ -1) :
    readLines env (strs ++ strs') r = readLines env strs' r' := by
  induction strs generalizing r with
  | nil =>
    obtain rfl := Option.some.inj h
    rfl
  | cons str strs ih =>
    rw [readLines, Option.bind_eq_some_iff] at h
    obtain ⟨r₁, hline, h⟩ := h
    rw [List.cons_append, readLines, hline, Option.bind_some]
    split_ifs at h ⊢ with hstop
    · obtain rfl := Option.some.inj h
      exact absurd hstop hret
    · exact ih h

theorem readLines_cons {str : List Char} {strs : List (List Char)} {doc' : DotconfDocument} {ret : ℤ}
    (h : readLine env doc str = some (doc', 0)) :
    readLines env (str :: strs) (doc, ret) = readLines env strs (doc', 0) := by
  rw [readLines, h, Option.bind_some, if_neg (by simp)]

theorem lastOpen_of_closed {name : List Char} {nodes : List DotconfNode}
    (h : ∀ node ∈ nodes, node.closed = true) : lastOpen env name nodes = none := by
  induction nodes with
  | nil => rfl
  | cons node nodes ih =>
    rw [lastOpen, ih fun n hn => h n (List.mem_cons_of_mem node hn)]
    simp [h node List.mem_cons_self]

/-- The last node that is open, if nothing behind it is. -/
theorem lastOpen_append {name : List Char} (front : List DotconfNode) {nodes : List DotconfNode}
    {node : DotconfNode} (hsame : env.same name node.name = true) (hopen : node.closed = false)
    (h : ∀ node ∈ nodes, node.closed = true) :
    lastOpen env name (front ++ node :: nodes) = some front.length := by
  induction front with
  | nil =>
    rw [List.nil_append, lastOpen, lastOpen_of_closed h]
    simp [hsame, hopen]
  | cons n front ih => simp [lastOpen, ih]

/-- The last line of a section finds its node if nothing behind that is open. -/
theorem readLine_close (hready : Ready doc) {name : List Char} (hname : isName name = true)
    {front nodes : List DotconfNode} {node : DotconfNode} {i : ℕ} (hi : front.length = i)
    (hnodes : doc.nodeTree = front ++ node :: nodes) (hsame : env.same name node.name = true)
    (hopen : node.closed = false) (hclosed : ∀ node ∈ nodes, node.closed = true) :
    ∃ doc', readLine env doc (closeLine name ++ ['\n']) = some (doc', 0) ∧ Ready doc' ∧
      Place doc' node.parentNode (some i) ∧
      doc'.nodeTree = front ++ { node with closed := true } :: nodes ∧
      doc'.curLine = doc.curLine + 1 ∧ doc'.processedFiles = doc.processedFiles := by
  subst hi
  have hplain : ∀ c ∈ closeLine name, isPlainChar c = true := by
    intro c hc
    simp only [closeLine, List.cons_append, List.mem_cons, List.mem_append, List.not_mem_nil, or_false] at hc
    rcases hc with rfl | rfl | hc | rfl
    · rfl
    · rfl
    · exact isPlainChar_of_mem_name hname hc
    · rfl
  have hclean : cleanupLine [] false (closeLine name ++ ['\n']) = ({ words := [closeLine name] }, 0) := by
    have h := cleanupLine_words [] [] (List.cons_ne_nil '<' _) hplain
      (fun c hc => absurd hc List.not_mem_nil) fun v hv => absurd hv List.not_mem_nil
    simpa [wordsText, closeLine] using h
  have hlast : lastOpen env name doc.nodeTree = some front.length := by
    rw [hnodes]
    exact lastOpen_append front hsame hopen hclosed
  have hparse := parseWords_close env
    { doc with curLine := doc.curLine + 1, words := [closeLine name] }
    (getLast?_of_isName hname) hlast
  have hmodify : doc.nodeTree.modify front.length (fun node => { node with closed := true }) =
      front ++ { node with closed := true } :: nodes := by
    rw [hnodes, modify_append_cons]
  have hget : doc.nodeTree[front.length]? = some node := by simp [hnodes]
  rw [readLine_of_cleanupLine hready hclean (List.cons_ne_nil _ _), hparse]
  simp only [hmodify, hget, Option.bind_some, Option.map_some]
  refine ⟨_, rfl, ⟨rfl, hready.quoted⟩, ?_, rfl, rfl, rfl⟩
  -- the node at the end is closed: it is the section itself, or one inside of it
  obtain ⟨last, hend⟩ := Option.isSome_iff_exists.mp
    (List.getLast?_isSome.mpr (List.cons_ne_nil { node with closed := true } nodes))
  refine Place.after (?_ : _ = some last) ?_ rfl (by simp)
  · rw [List.getLast?_append, hend]
    rfl
  · rcases List.mem_cons.mp (List.mem_of_getLast? hend) with rfl | hmem
    · rfl
    · exact hclosed _ hmem

/-- The pointer to what follows a node. -/
theorem link_after {place parent : Option ℕ} {front : List DotconfNode} {node : DotconfNode} {i : ℕ}
    (hi : front.length = i) (hnext : node.nextNode = none) (nodes : List DotconfNode) :
    link place parent (some i) (front ++ node :: nodes) =
      front ++ { node with nextNode := place } :: nodes := by
  subst hi
  cases place with
  | none => rw [link, ← hnext]
  | some j => exact modify_append_cons front node _ nodes

/-- The pointer to the first node of a section. -/
theorem link_inside {place : Option ℕ} {front : List DotconfNode} {node : DotconfNode} {i : ℕ}
    (hi : front.length = i) (hchild : node.childNode = none) :
    link place (some i) none (front ++ [node]) = front ++ [{ node with childNode := place }] := by
  subst hi
  cases place with
  | none => rw [link, ← hchild]
  | some j => exact modify_append_cons front node _ []

/-- What follows goes behind the node that has been added, or inside of it. -/
theorem Grown.place {parent prev : Option ℕ} {node : DotconfNode} {doc' : DotconfDocument}
    (h : Grown doc doc' parent prev node) : doc'.nodeTree.length = doc.nodeTree.length + 1 ∧
      (node.closed = true → Place doc' parent (some doc.nodeTree.length)) ∧
      (node.closed = false → Place doc' (some doc.nodeTree.length) none) := by
  have hlast : doc'.nodeTree.getLast? = some node := by rw [h.nodes, List.getLast?_concat]
  have hlen : doc'.nodeTree.length = doc.nodeTree.length + 1 := by
    rw [h.nodes, List.length_append, length_link, List.length_singleton]
  refine ⟨hlen, fun hclosed => ?_, fun hopen => ?_⟩
  · rw [← h.parent]
    exact .after hlast hclosed h.prev (by omega)
  · have hinside := Place.inside hlast hopen
    rwa [hlen, Nat.add_sub_cancel] at hinside

/-- **The lines of an outline are read as its nodes.**

**Proof sketch.** Induction on the outline.  A section is read line by line: its first line opens a node,
the outline inside is read behind it, and the last line finds that node again, since everything behind
it is closed. -/
theorem readLines_lines (o : Outline) (hwf : o.Wf env) {parent prev : Option ℕ} (hready : Ready doc)
    (hplace : Place doc parent prev) :
    ∃ doc', readLines env (o.lines.map (· ++ ['\n'])) (doc, 0) = some (doc', 0) ∧ Ready doc' ∧
      doc'.nodeTree = link (o.first doc.nodeTree.length) parent prev doc.nodeTree ++
        o.nodes (doc.processedFiles.getLastD []) doc.nodeTree.length (doc.curLine + 1) parent prev ∧
      doc'.curLine = doc.curLine + o.lines.length ∧ doc'.processedFiles = doc.processedFiles := by
  induction o generalizing doc parent prev with
  | nil => exact ⟨doc, rfl, hready, by simp [first, link, nodes], rfl, rfl⟩
  | option name values rest ih =>
    obtain ⟨hname, hvalues, -, -, hrest⟩ := hwf
    obtain ⟨doc₁, hline, hgrown⟩ := readLine_option env hready hplace hname hvalues
    obtain ⟨hlen, hafter, -⟩ := hgrown.place
    obtain ⟨doc₂, hread, hready₂, hnodes, hcur, hfiles⟩ := ih hrest hgrown.ready (hafter rfl)
    refine ⟨doc₂, ?_, hready₂, ?_, ?_, hfiles.trans hgrown.files⟩
    · rw [lines, List.map_cons, readLines_cons hline, hread]
    · rw [hnodes, hgrown.nodes, hgrown.files, hgrown.line, ← hgrown.nodes, hlen, hgrown.nodes,
        link_after (length_link _ _ _ _) rfl, List.append_assoc]
      rfl
    · rw [hcur, hgrown.line, lines, List.length_cons]
      omega
  | group name values children rest ihc ihr =>
    obtain ⟨hname, hvalues, -, -, -, hchildren, hrest⟩ := hwf
    have hsame : env.same name name = true := beq_self_eq_true _
    obtain ⟨doc₁, hline, hgrown⟩ := readLine_open env hready hplace hname hvalues
    obtain ⟨hlen, -, hinside⟩ := hgrown.place
    obtain ⟨doc₂, hread, hready₂, hnodes, hcur, hfiles⟩ := ihc hchildren hgrown.ready (hinside rfl)
    rw [hgrown.nodes, link_inside (length_link _ _ _ _) rfl, ← hgrown.nodes, hlen, hgrown.files,
      hgrown.line, List.append_assoc, List.singleton_append] at hnodes
    obtain ⟨doc₃, hclose, hready₃, hplace₃, hnodes₃, hcur₃, hfiles₃⟩ := readLine_close hready₂ hname
      (length_link _ _ _ _) hnodes hsame rfl fun node h => closed_of_mem_nodes h
    obtain ⟨doc₄, hread₄, hready₄, hnodes₄, hcur₄, hfiles₄⟩ := ihr hrest hready₃ hplace₃
    have hlen₃ : doc₃.nodeTree.length = doc.nodeTree.length + 1 + children.size := by
      rw [hnodes₃, List.length_append, length_link, List.length_cons, length_nodes]
      omega
    refine ⟨doc₄, ?_, hready₄, ?_, ?_, ?_⟩
    · rw [lines, List.map_cons, readLines_cons hline, List.map_append,
        readLines_append hread (by simp), List.map_cons, readLines_cons hclose, hread₄]
    · rw [hnodes₄, hnodes₃, ← hnodes₃, hlen₃, hnodes₃, link_after (length_link _ _ _ _) rfl, hfiles₃, hfiles,
        hgrown.files, hcur₃, hcur, hgrown.line, List.append_assoc, List.cons_append]
      have hcount : doc.curLine + 1 + children.lines.length + 1 + 1 =
          doc.curLine + 1 + 2 + children.lines.length := by omega
      rw [hcount]
      rfl
    · rw [hcur₄, hcur₃, hcur, hgrown.line, lines, List.length_cons, List.length_append, List.length_cons]
      omega
    · rw [hfiles₄, hfiles₃, hfiles, hgrown.files]

end Lines

/-! ## Reading a file -/

section File

open DotconfDocument

variable {env : DotconfEnv} {doc : DotconfDocument}

theorem checkValues_of_noMacro {place : ℕ} (indices : List ℕ)
    (h : ∀ node ∈ doc.nodeTree, ∀ v ∈ node.values, hasMacro v = false) :
    checkValues env place indices doc = (doc, true) := by
  induction indices with
  | nil => rfl
  | cons index indices ih =>
    rw [checkValues]
    split
    · exact ih
    · next v hv =>
      obtain ⟨node, hnode, hv⟩ := Option.bind_eq_some_iff.mp hv
      rw [h node (List.mem_of_getElem? hnode) v (List.mem_of_getElem? hv)]
      exact ih

variable (env doc) in
/-- Nodes that are closed and have no macros are left as they are. -/
theorem checkConfig_of_closed (start : ℕ) (hclosed : ∀ node ∈ doc.nodeTree, node.closed = true)
    (h : ∀ node ∈ doc.nodeTree, ∀ v ∈ node.values, hasMacro v = false) :
    checkConfig env doc start = (doc, 0) := by
  have hall (places : List ℕ) : checkNodes env places doc = (doc, 0) := by
    induction places with
    | nil => rfl
    | cons place places ih =>
      rw [checkNodes]
      split
      · rfl
      · next node hnode =>
        rw [if_pos (hclosed node (List.mem_of_getElem? hnode)), checkValues_of_noMacro _ h]
        exact ih
  exact hall _

variable (env) in
/-- Without `IncludeFile` nothing is included. -/
theorem includeLoop_of_none (pathName : List Char) {r : DotconfDocument × ℤ}
    (h : ∀ node ∈ r.1.nodeTree, env.same "IncludeFile".toList node.name = false) (fuel i : ℕ) :
    includeLoop env pathName fuel i r = some (r, true) := by
  induction fuel generalizing i with
  | zero => rfl
  | succ fuel ih =>
    rw [includeLoop]
    split
    · rfl
    · next node hnode =>
      rw [h node (List.mem_of_getElem? hnode)]
      exact ih (i + 1)

/-- What the nodes of an outline are like. -/
theorem wf_of_mem_nodes {o : Outline} (hwf : o.Wf env) {file : List Char} {place line : ℕ}
    {parent prev : Option ℕ} {node : DotconfNode} (h : node ∈ o.nodes file place line parent prev) :
    (∀ v ∈ node.values, hasMacro v = false) ∧ env.same "IncludeFile".toList node.name = false := by
  induction o generalizing place line parent prev with
  | nil => cases h
  | option name values rest ih =>
    obtain ⟨-, hvalues, hname, -, hrest⟩ := hwf
    rcases List.mem_cons.mp h with rfl | h
    · exact ⟨fun v hv => (hvalues v hv).noMacro, hname⟩
    · exact ih hrest h
  | group name values children rest ihc ihr =>
    obtain ⟨-, hvalues, hname, -, -, hchildren, hrest⟩ := hwf
    rw [nodes, List.mem_cons, List.mem_append] at h
    rcases h with rfl | h | h
    · exact ⟨fun v hv => (hvalues v hv).noMacro, hname⟩
    · exact ihc hchildren h
    · exact ihr hrest h

/-- A character that is in the text of words is in one of them, or belongs to the quotes. -/
theorem notMem_wordsText {vs : List (List Char)} (h : ∀ v ∈ vs, '\x00' ∉ v) :
    '\n' ∉ wordsText vs ∧ '\x00' ∉ wordsText vs := by
  have hchar (c : Char) : '\n' ∉ quoteChar c ∧ (c ≠ '\x00' → '\x00' ∉ quoteChar c) := by
    rw [quoteChar]
    split_ifs with hquote hline hreturn
    · rcases hquote with rfl | rfl <;> decide
    · exact ⟨by decide, fun _ => by decide⟩
    · exact ⟨by decide, fun _ => by decide⟩
    · exact ⟨by simpa using Ne.symm hline, fun hc => by simpa using Ne.symm hc⟩
  simp only [wordsText, quoteWord, List.mem_flatMap, List.mem_cons, List.mem_append, List.cons_append,
    List.not_mem_nil, or_false, not_exists, not_and, not_or]
  refine ⟨fun v hv => ⟨by decide, by decide, ?_, by decide⟩,
    fun v hv => ⟨by decide, by decide, ?_, by decide⟩⟩
  · exact fun c _ => (hchar c).1
  · exact fun c hc => (hchar c).2 fun heq => h v hv (heq ▸ hc)

/-- The lines of an outline fit into the buffer. -/
theorem of_mem_lines {o : Outline} (hwf : o.Wf env) {l : List Char} (h : l ∈ o.lines) :
    '\n' ∉ l ∧ '\x00' ∉ l ∧ l.length + 1 < 511 := by
  have hword {name : List Char} (hname : isName name = true) : '\n' ∉ name ∧ '\x00' ∉ name :=
    ⟨fun h => absurd (isPlainChar_of_mem_name hname h) (by decide),
      fun h => absurd (isPlainChar_of_mem_name hname h) (by decide)⟩
  have hvalues {vs : List (List Char)} (hvs : ∀ v ∈ vs, IsValue v) :
      '\n' ∉ wordsText vs ∧ '\x00' ∉ wordsText vs := notMem_wordsText fun v hv => (hvs v hv).noZero
  induction o with
  | nil => cases h
  | option name values rest ih =>
    obtain ⟨hname, hvs, -, hlen, hrest⟩ := hwf
    rcases List.mem_cons.mp h with rfl | h
    · refine ⟨?_, ?_, by omega⟩
      · simp [optionLine, (hword hname).1, (hvalues hvs).1]
      · simp [optionLine, (hword hname).2, (hvalues hvs).2]
    · exact ih hrest h
  | group name values children rest ihc ihr =>
    obtain ⟨hname, hvs, -, hopen, hclose, hchildren, hrest⟩ := hwf
    rw [lines, List.mem_cons, List.mem_append, List.mem_cons] at h
    rcases h with rfl | h | rfl | h
    · refine ⟨?_, ?_, by omega⟩
      · simp [openLine, (hword hname).1, (hvalues hvs).1]
      · simp [openLine, (hword hname).2, (hvalues hvs).2]
    · exact ihc hchildren h
    · refine ⟨?_, ?_, by omega⟩
      · simp [closeLine, (hword hname).1]
      · simp [closeLine, (hword hname).2]
    · exact ihr hrest h

/-- **A file is read as the nodes of its outline.** -/
theorem setContent_text {o : Outline} (hwf : o.Wf env) {path real : List Char}
    (hpath : env.realpath path = some real) (hfile : env.file real = some o.text) (fuel : ℕ)
    (requiredOptions : List (List Char)) :
    ∃ doc, setContent env fuel requiredOptions path =
        some (doc, checkRequiredOptions env doc requiredOptions) ∧
      doc.nodeTree = o.nodes real 0 1 none none := by
  have hlines : Stdio.lines 511 (o.text.length + 1) { rest := o.text } = o.lines.map (· ++ ['\n']) := by
    refine Stdio.lines_flatMap ?_ (fun l hl => of_mem_lines hwf hl) false
    have hcount (ls : List (List Char)) : ls.length ≤ (ls.flatMap (· ++ ['\n'])).length := by
      induction ls with
      | nil => simp
      | cons l ls ih =>
        simp only [List.flatMap_cons, List.length_append, List.length_cons, List.length_nil]
        omega
    exact (hcount o.lines).trans (Nat.le_succ _)
  obtain ⟨doc, hread, -, hnodes, -, -⟩ := readLines_lines o hwf
    (⟨rfl, rfl⟩ : Ready { fileName := real, processedFiles := [real] }) (.root rfl rfl)
  have htree : doc.nodeTree = o.nodes real 0 1 none none := by
    rw [hnodes]
    cases o <;> rfl
  have hmem {node : DotconfNode} (h : node ∈ doc.nodeTree) :=
    wf_of_mem_nodes hwf (htree ▸ h : node ∈ o.nodes real 0 1 none none)
  have hcheck := checkConfig_of_closed env doc 0
    (fun node h => closed_of_mem_nodes (htree ▸ h : node ∈ o.nodes real 0 1 none none))
    fun node h => (hmem h).1
  have hloop := includeLoop_of_none env (dirname real) (r := (doc, 0))
    (fun node h => (hmem h).2) fuel 0
  refine ⟨doc, ?_, htree⟩
  rw [setContent, hpath]
  simp only [hfile, parseFile, hlines]
  rw [hread, Option.bind_some, if_neg (by simp), hcheck]
  simp only [hloop, Option.map_some, Bool.true_eq_false, if_false]
  by_cases hreq : requiredOptions = []
  · rw [if_pos hreq, hreq]
    rfl
  · rw [if_neg hreq]

end File

/-! ## Looking at the nodes -/

/-- What plugins are to get of an outline. -/
def params : Outline → List ParamValue
  | nil => []
  | option name values rest => .mk name values [] :: rest.params
  | group name values children rest => .mk name values children.params :: rest.params

/-- **The nodes are walked through as the outline.** -/
theorem toPVS_nodes {file : List Char} {line : ℕ} {parent prev : Option ℕ} (o : Outline)
    {front back all : List DotconfNode} {place : ℕ} (hplace : front.length = place)
    (hall : all = front ++ o.nodes file place line parent prev ++ back) {fuel : ℕ}
    (hfuel : o.size ≤ fuel) : toPVS all fuel (o.first place) = o.params := by
  induction o generalizing front back place line parent prev fuel with
  | nil => cases fuel <;> rfl
  | option name values rest ih =>
    obtain ⟨fuel, rfl⟩ := Nat.exists_eq_succ_of_ne_zero (Nat.ne_of_gt (Nat.zero_lt_of_lt hfuel))
    have hget : all[place]? = some
        { name, values, lineNum := line, fileName := file, previousNode := prev, parentNode := parent,
          nextNode := rest.first (place + 1) } := by
      simp [hall, nodes, ← hplace]
    rw [nodes, List.append_assoc, List.cons_append, ← List.singleton_append, ← List.append_assoc,
      ← List.append_assoc] at hall
    have hrest := ih (by simp [hplace]) hall (Nat.le_of_succ_le_succ hfuel)
    have hchild : toPVS all fuel none = [] := by cases fuel <;> rfl
    rw [first, toPVS, hget]
    simp only [hrest, hchild, params]
  | group name values children rest ihc ihr =>
    obtain ⟨fuel, rfl⟩ := Nat.exists_eq_succ_of_ne_zero (Nat.ne_of_gt (Nat.zero_lt_of_lt hfuel))
    have hget : all[place]? = some
        { name, values, lineNum := line, fileName := file, previousNode := prev, parentNode := parent,
          nextNode := rest.first (place + 1 + children.size),
          childNode := children.first (place + 1) } := by
      simp [hall, nodes, ← hplace]
    rw [size] at hfuel
    obtain ⟨node, hnode⟩ : ∃ node, node :: (children.nodes file (place + 1) (line + 1) (some place) none ++
        rest.nodes file (place + 1 + children.size) (line + 2 + children.lines.length) parent
          (some place)) = (group name values children rest).nodes file place line parent prev := ⟨_, rfl⟩
    rw [← hnode] at hall
    have hlen : (front ++ [node]).length = place + 1 := by simp [hplace]
    have hinside : all = front ++ [node] ++ children.nodes file (place + 1) (line + 1) (some place) none ++
        (rest.nodes file (place + 1 + children.size) (line + 2 + children.lines.length) parent
          (some place) ++ back) := by simp [hall]
    have hlen' : (front ++ [node] ++ children.nodes file (place + 1) (line + 1) (some place) none).length =
        place + 1 + children.size := by rw [List.length_append, hlen, length_nodes]
    have hbehind : all = front ++ [node] ++ children.nodes file (place + 1) (line + 1) (some place) none ++
        rest.nodes file (place + 1 + children.size) (line + 2 + children.lines.length) parent
          (some place) ++ back := by simp [hall]
    have hchildren := ihc hlen hinside (by omega : children.size ≤ fuel)
    have hrest := ihr hlen' hbehind (by omega : rest.size ≤ fuel)
    rw [first, toPVS, hget]
    simp only [hrest, hchildren, params]

/-- **Round trip.** A file that is written for an outline is accepted, and what its nodes say is what the
outline says: the same options and sections with the same values, in the same order, inside of one
another as they were. -/
theorem setContent_read_back {env : DotconfEnv} (o : Outline) (hwf : o.Wf env) {path real : List Char}
    (hpath : env.realpath path = some real) (hfile : env.file real = some o.text) (fuel : ℕ)
    (requiredOptions : List (List Char)) :
    ∃ doc, DotconfDocument.setContent env fuel requiredOptions path =
        some (doc, doc.checkRequiredOptions env requiredOptions) ∧
      toPVS doc.nodeTree doc.nodeTree.length doc.getFirstNode = o.params := by
  obtain ⟨doc, hread, hnodes⟩ := setContent_text hwf hpath hfile fuel requiredOptions
  refine ⟨doc, hread, ?_⟩
  have hlen : doc.nodeTree.length = o.size := by rw [hnodes, length_nodes]
  have hfirst : doc.getFirstNode = o.first 0 := by
    rw [DotconfDocument.getFirstNode, hnodes]
    cases o <;> rfl
  have hall : doc.nodeTree = [] ++ o.nodes real 0 1 none none ++ [] := by
    rw [hnodes, List.append_nil, List.nil_append]
  rw [hfirst, hlen]
  exact toPVS_nodes o rfl hall le_rfl

/-- A section with an option whose value has a quote and a blank in it. -/
def sample : Outline :=
  group ['S'] [['x']] (option ['a'] [['1'], ['\"', ' ', '\'']] nil) (option ['b'] [] nil)

/-- Where the sample is the only file. -/
def sampleEnv : DotconfEnv where
  getenv := fun _ => none
  realpath := fun path => if path = ['f'] then some ['f'] else none
  file := fun path => if path = ['f'] then some sample.text else none
  access := fun path => path == ['f']
  glob := fun _ => some []

theorem setContent_read_back_sample :
    ∃ doc, DotconfDocument.setContent sampleEnv 2 [['b']] ['f'] =
        some (doc, doc.checkRequiredOptions sampleEnv [['b']]) ∧
      toPVS doc.nodeTree doc.nodeTree.length doc.getFirstNode = sample.params := by
  have hwf : sample.Wf sampleEnv := by decide +kernel
  exact setContent_read_back sample hwf rfl rfl 2 [['b']]

end Outline

end Stargazer
