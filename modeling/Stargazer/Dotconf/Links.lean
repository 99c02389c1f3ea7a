import Stargazer.Dotconf.Tags

set_option relaxedAutoImplicit false
set_option autoImplicit false

/-!
# The links of a configuration document

Whatever a file says, also if it is refused and whatever it includes, the nodes of the document are
linked in one direction: the next node and the first node inside lie behind a node, the parent and the
previous node in front of it.  So every walk along the links ends.

## Main definitions

* `Stargazer.DotconfDocument.Forward` — the links of a document lead in one direction.

## Main results

* `Stargazer.DotconfDocument.setContent_forward` — every document is linked like that.
* `Stargazer.toPVS_succ_of_forward` — a walk goes through no more nodes than there are.
-/

namespace Stargazer

namespace DotconfDocument

variable {env : DotconfEnv} {doc doc' doc'' : DotconfDocument}

/-- The links of the node at a place. -/
structure LinksAt (size place : ℕ) (node : DotconfNode) : Prop where
  next : ∀ j ∈ node.nextNode, place < j ∧ j < size
  child : ∀ j ∈ node.childNode, place < j ∧ j < size
  parent : ∀ j ∈ node.parentNode, j < place
  previous : ∀ j ∈ node.previousNode, j < place

/-- The links of the nodes lead in one direction. -/
structure Forward (doc : DotconfDocument) : Prop where
  links : ∀ i node, doc.nodeTree[i]? = some node → LinksAt doc.nodeTree.length i node
  curPrev : ∀ p ∈ doc.curPrev, p < doc.nodeTree.length
  curParent : ∀ p ∈ doc.curParent, p < doc.nodeTree.length

/-- Nodes have been added, and the links still lead in one direction. -/
structure Extends (doc doc' : DotconfDocument) : Prop where
  forward : doc'.Forward
  length_le : doc.nodeTree.length ≤ doc'.nodeTree.length

theorem Extends.trans (h : Extends doc doc') (h' : Extends doc' doc'') : Extends doc doc'' :=
  ⟨h'.forward, h.length_le.trans h'.length_le⟩

theorem Forward.extends_self (h : doc.Forward) : Extends doc doc := ⟨h, le_rfl⟩

/-! ## One step -/

theorem LinksAt.mono {size size' place : ℕ} {node : DotconfNode} (h : LinksAt size place node)
    (hsize : size ≤ size') : LinksAt size' place node :=
  ⟨fun j hj => ⟨(h.next j hj).1, (h.next j hj).2.trans_le hsize⟩,
    fun j hj => ⟨(h.child j hj).1, (h.child j hj).2.trans_le hsize⟩, h.parent, h.previous⟩

/-- One node is changed. -/
theorem links_modify {size place : ℕ} {nodes : List DotconfNode} {f : DotconfNode → DotconfNode}
    (h : ∀ i node, nodes[i]? = some node → LinksAt size i node)
    (hf : ∀ node, LinksAt size place node → LinksAt size place (f node)) (i : ℕ) (node : DotconfNode)
    (hnode : (nodes.modify place f)[i]? = some node) : LinksAt size i node := by
  rw [List.getElem?_modify] at hnode
  obtain ⟨old, hold, rfl⟩ := Option.map_eq_some_iff.mp hnode
  split_ifs with hplace
  · subst hplace
    exact hf old (h place old hold)
  · exact h i old hold

/-- One node is added. -/
theorem links_append {size : ℕ} {nodes : List DotconfNode} {new : DotconfNode}
    (h : ∀ i node, nodes[i]? = some node → LinksAt size i node) (hnew : LinksAt size nodes.length new)
    (i : ℕ) (node : DotconfNode) (hnode : (nodes ++ [new])[i]? = some node) : LinksAt size i node := by
  rcases Nat.lt_trichotomy i nodes.length with hi | hi | hi
  · rw [List.getElem?_append_left hi] at hnode
    exact h i node hnode
  · subst hi
    rw [List.getElem?_concat_length] at hnode
    obtain rfl := Option.some.inj hnode
    exact hnew
  · rw [List.getElem?_eq_none (by simp; omega)] at hnode
    cases hnode

/-- A node is changed, but not its links. -/
theorem Forward.modifyNode (h : doc.Forward) (i : ℕ) {f : DotconfNode → DotconfNode}
    (hf : ∀ size node, LinksAt size i node → LinksAt size i (f node)) :
    Extends doc (doc.modifyNode i f) := by
  have hlen : (doc.nodeTree.modify i f).length = doc.nodeTree.length := List.length_modify _ _ _
  refine ⟨⟨?_, ?_, ?_⟩, hlen.ge⟩
  · show ∀ j node, (doc.nodeTree.modify i f)[j]? = some node →
      LinksAt (doc.nodeTree.modify i f).length j node
    rw [hlen]
    exact links_modify h.links (hf _)
  · show ∀ p ∈ doc.curPrev, p < (doc.nodeTree.modify i f).length
    rw [hlen]
    exact h.curPrev
  · show ∀ p ∈ doc.curParent, p < (doc.nodeTree.modify i f).length
    rw [hlen]
    exact h.curParent

/-- A node is added, and a node in front of it points to it. -/
theorem Forward.added {new : DotconfNode} {i : ℕ} {f : DotconfNode → DotconfNode} (h : doc.Forward)
    (hnodes : doc'.nodeTree = doc.nodeTree.modify i f ++ [new])
    (hprev : doc'.curPrev = some doc.nodeTree.length)
    (hparent : ∀ p ∈ doc'.curParent, p < doc.nodeTree.length)
    (hnew : LinksAt (doc.nodeTree.length + 1) doc.nodeTree.length new)
    (hf : ∀ node, LinksAt (doc.nodeTree.length + 1) i node →
      LinksAt (doc.nodeTree.length + 1) i (f node)) : Extends doc doc' := by
  have hlen : doc'.nodeTree.length = doc.nodeTree.length + 1 := by
    rw [hnodes, List.length_append, List.length_modify, List.length_singleton]
  refine ⟨⟨?_, ?_, ?_⟩, by omega⟩
  · rw [hlen, hnodes]
    apply links_append
    · exact links_modify (fun j node hj => (h.links j node hj).mono (Nat.le_succ _)) hf
    · rwa [List.length_modify]
  · intro p hp
    rw [hprev] at hp
    obtain rfl := Option.some.inj hp
    omega
  · intro p hp
    exact (hparent p hp).trans (by omega)

theorem forall_mem_none {P : ℕ → Prop} : ∀ j ∈ (none : Option ℕ), P j :=
  fun _ h => absurd h (Option.not_mem_none _)

/-- A new node. -/
theorem Forward.pushNode (h : doc.Forward) {name : List Char} {closed : Bool}
    (hpush : doc.pushNode name closed = some doc') : Extends doc doc' := by
  rw [DotconfDocument.pushNode] at hpush
  split at hpush
  · next hlast =>
    have hnil := List.getLast?_eq_none_iff.mp hlast
    obtain rfl := Option.some.inj hpush
    have hempty : ∀ tagNode : DotconfNode, [tagNode] = doc.nodeTree.modify 0 id ++ [tagNode] := by
      simp [hnil]
    exact h.added (hempty _) rfl h.curParent
      ⟨forall_mem_none, forall_mem_none, forall_mem_none, forall_mem_none⟩ fun _ hnode => hnode
  · next prev hlast =>
    have hpos : 0 < doc.nodeTree.length := by
      rw [List.length_pos_iff_ne_nil]
      intro hnil
      rw [hnil] at hlast
      cases hlast
    split_ifs at hpush with hclosed
    · split at hpush
      · cases hpush
      · next curPrev hprev =>
        obtain rfl := Option.some.inj hpush
        have hlt := h.curPrev curPrev hprev
        refine h.added rfl rfl h.curParent ⟨forall_mem_none, forall_mem_none, h.curParent, ?_⟩
          fun node hnode => ⟨?_, hnode.child, hnode.parent, hnode.previous⟩
        · intro j hj
          obtain rfl := Option.some.inj hj
          exact hlt
        · intro j hj
          obtain rfl := Option.some.inj hj
          exact ⟨hlt, Nat.lt_succ_self _⟩
    · obtain rfl := Option.some.inj hpush
      have hparent : ∀ j ∈ some (doc.nodeTree.length - 1), j < doc.nodeTree.length := by
        intro j hj
        obtain rfl := Option.some.inj hj
        omega
      refine h.added rfl rfl hparent ⟨forall_mem_none, forall_mem_none, hparent, forall_mem_none⟩
        fun node hnode => ⟨hnode.next, ?_, hnode.parent, hnode.previous⟩
      intro j hj
      obtain rfl := Option.some.inj hj
      omega

theorem lastOpen_lt {name : List Char} {nodes : List DotconfNode} {i : ℕ}
    (h : lastOpen env name nodes = some i) : i < nodes.length := by
  have hspec := lastOpen_spec env name nodes
  rw [h] at hspec
  obtain ⟨front, node, back, rfl, rfl, -⟩ := hspec
  simp

/-- A closing tag. -/
theorem Forward.closeNode (h : doc.Forward) {name : List Char}
    (hclose : DotconfDocument.closeNode env doc name = some doc') : Extends doc doc' := by
  obtain ⟨i, hi, rfl⟩ := Option.map_eq_some_iff.mp hclose
  have hlt := lastOpen_lt hi
  have hmodify := h.modifyNode i (f := fun node => { node with closed := true })
    fun _ node hnode => ⟨hnode.next, hnode.child, hnode.parent, hnode.previous⟩
  have hlen : (doc.nodeTree.modify i fun node => { node with closed := true }).length =
      doc.nodeTree.length := List.length_modify _ _ _
  refine ⟨⟨hmodify.forward.links, ?_, ?_⟩, hmodify.length_le⟩
  · rintro p hp
    obtain rfl := Option.some.inj hp
    exact hlt.trans_eq hlen.symm
  · intro p hp
    obtain ⟨node, hnode, hp⟩ := Option.bind_eq_some_iff.mp hp
    exact (((h.links i node hnode).parent p hp).trans hlt).trans_eq hlen.symm

theorem Forward.pushValue (h : doc.Forward) (i : ℕ) (v : List Char) : Extends doc (doc.pushValue i v) :=
  h.modifyNode i fun _ _ hnode => ⟨hnode.next, hnode.child, hnode.parent, hnode.previous⟩

/-! ## A file -/

theorem parseWords_extends {words : List (List Char)} {s : LineState} {r : ℤ} (h : s.doc.Forward)
    (hparse : parseWords env words s = some (doc', r)) : Extends s.doc doc' := by
  induction words generalizing s with
  | nil =>
    obtain ⟨rfl, -⟩ := Prod.mk.inj (Option.some.inj hparse)
    exact h.extends_self
  | cons word words ih =>
    rw [parseWords_cons] at hparse
    cases htag : tagOf s.named s.newNode word with
    | value v =>
      rw [htag] at hparse
      obtain ⟨i, -, hparse⟩ := Option.bind_eq_some_iff.mp hparse
      have hstep := h.pushValue i v
      exact hstep.trans (ih hstep.forward hparse)
    | closing name =>
      simp only [htag] at hparse
      cases hclose : closeNode env s.doc name with
      | none =>
        simp only [hclose] at hparse
        obtain ⟨rfl, -⟩ := Prod.mk.inj (Option.some.inj hparse)
        exact h.extends_self
      | some doc₁ =>
        simp only [hclose] at hparse
        have hstep := h.closeNode hclose
        exact hstep.trans (ih hstep.forward hparse)
    | opening name =>
      rw [htag] at hparse
      obtain ⟨doc₁, hpush, hparse⟩ := Option.bind_eq_some_iff.mp hparse
      have hstep := h.pushNode hpush
      exact hstep.trans (ih hstep.forward hparse)
    | option name =>
      rw [htag] at hparse
      obtain ⟨doc₁, hpush, hparse⟩ := Option.bind_eq_some_iff.mp hparse
      have hstep := h.pushNode hpush
      exact hstep.trans (ih hstep.forward hparse)

theorem readLine_extends {str : List Char} {r : ℤ} (h : doc.Forward)
    (hread : readLine env doc str = some (doc', r)) : Extends doc doc' := by
  have hne : str ≠ [] := by
    rintro rfl
    cases hread
  rw [readLine_eq hne] at hread
  have hscanned : (doc.scanned (cleanupLine doc.words doc.quoted (ended str)).1).Forward :=
    ⟨h.links, h.curPrev, h.curParent⟩
  simp only at hread
  split_ifs at hread
  · obtain ⟨rfl, -⟩ := Prod.mk.inj (Option.some.inj hread)
    exact ⟨hscanned, le_rfl⟩
  · obtain ⟨⟨doc₁, r₁⟩, hparse, hdoc₁⟩ := Option.map_eq_some_iff.mp hread
    obtain ⟨rfl, rfl⟩ := Prod.mk.inj hdoc₁
    have hstep := parseWords_extends hscanned hparse
    exact ⟨⟨hstep.forward.links, hstep.forward.curPrev, hstep.forward.curParent⟩, hstep.length_le⟩

theorem readLines_extends {strs : List (List Char)} {ret r : ℤ} (h : doc.Forward)
    (hread : readLines env strs (doc, ret) = some (doc', r)) : Extends doc doc' := by
  induction strs generalizing doc ret with
  | nil =>
    obtain ⟨rfl, -⟩ := Prod.mk.inj (Option.some.inj hread)
    exact h.extends_self
  | cons str strs ih =>
    obtain ⟨⟨doc₁, r₁⟩, hline, hread⟩ := Option.bind_eq_some_iff.mp hread
    have hstep := readLine_extends h hline
    split_ifs at hread
    · obtain ⟨rfl, -⟩ := Prod.mk.inj (Option.some.inj hread)
      exact hstep
    · exact hstep.trans (ih hstep.forward hread)

theorem parseFile_extends {parent : Option ℕ} {content : List Char} {r : ℤ} (h : doc.Forward)
    (hparent : ∀ p ∈ parent, p < doc.nodeTree.length)
    (hparse : parseFile env parent content doc = some (doc', r)) : Extends doc doc' := by
  have hstart : ({ doc with curLine := 0, curParent := parent, quoted := false } :
      DotconfDocument).Forward := ⟨h.links, h.curPrev, hparent⟩
  have hstep := readLines_extends hstart hparse
  exact ⟨hstep.forward, hstep.length_le⟩

/-! ## Macros -/

theorem checkValues_extends (env : DotconfEnv) (h : doc.Forward) (place : ℕ) (indices : List ℕ) :
    Extends doc (checkValues env place indices doc).1 := by
  induction indices generalizing doc with
  | nil => exact h.extends_self
  | cons index indices ih =>
    rw [checkValues]
    split
    · exact ih h
    · next value _ =>
      split_ifs
      · have hstep : Extends doc (macroSubstitute env doc place index value).1 :=
          h.modifyNode place fun _ _ hnode => ⟨hnode.next, hnode.child, hnode.parent, hnode.previous⟩
        split
        · next doc₁ hsubs =>
          rw [hsubs] at hstep
          exact hstep.trans (ih hstep.forward)
        · next doc₁ hsubs =>
          rw [hsubs] at hstep
          exact hstep
      · exact ih h

theorem checkNodes_extends (env : DotconfEnv) (h : doc.Forward) (places : List ℕ) :
    Extends doc (checkNodes env places doc).1 := by
  induction places generalizing doc with
  | nil => exact h.extends_self
  | cons place places ih =>
    rw [checkNodes]
    split
    · exact h.extends_self
    · next node _ =>
      split_ifs
      · have hstep := checkValues_extends env h place (List.range node.values.length)
        split
        · next doc₁ hcheck =>
          rw [hcheck] at hstep
          exact hstep.trans (ih hstep.forward)
        · next doc₁ hcheck =>
          rw [hcheck] at hstep
          exact hstep
      · exact h.extends_self

/-! ## Files that are included -/

theorem lastSibling_lt (h : doc.Forward) (fuel : ℕ) {i : ℕ} (hi : i < doc.nodeTree.length) :
    lastSibling doc.nodeTree fuel i < doc.nodeTree.length := by
  induction fuel generalizing i with
  | zero => exact hi
  | succ fuel ih =>
    rw [lastSibling]
    split
    · exact hi
    · next j hj =>
      obtain ⟨node, hnode, hj⟩ := Option.bind_eq_some_iff.mp hj
      exact ih ((h.links i node hnode).next j hj).2

/-- A node that was found in the document, and its parent. -/
def Inside (doc : DotconfDocument) (tagNode : DotconfNode) : Prop :=
  ∀ p ∈ tagNode.parentNode, p < doc.nodeTree.length

theorem includeFile_extends {tagNode : DotconfNode} {path : List Char} {ret r : ℤ} {stop : Bool}
    (h : doc.Forward) (htag : doc.Inside tagNode)
    (hfile : includeFile env tagNode path (doc, ret) = some ((doc', r), stop)) : Extends doc doc' := by
  rw [includeFile] at hfile
  by_cases haccess : env.access path = false
  · rw [if_pos haccess] at hfile
    obtain ⟨rfl, -⟩ := Prod.mk.inj (Prod.mk.inj (Option.some.inj hfile)).1
    exact h.extends_self
  rw [if_neg haccess] at hfile
  split at hfile
  · obtain ⟨rfl, -⟩ := Prod.mk.inj (Prod.mk.inj (Option.some.inj hfile)).1
    exact h.extends_self
  next real _ =>
  by_cases hreal : real ∈ doc.processedFiles
  · rw [if_pos hreal] at hfile
    obtain ⟨rfl, -⟩ := Prod.mk.inj (Prod.mk.inj (Option.some.inj hfile)).1
    exact h.extends_self
  rw [if_neg hreal] at hfile
  simp only at hfile
  have hnoted : ({ doc with processedFiles := doc.processedFiles ++ [real] } : DotconfDocument).Forward :=
    ⟨h.links, h.curPrev, h.curParent⟩
  split at hfile
  · obtain ⟨rfl, -⟩ := Prod.mk.inj (Prod.mk.inj (Option.some.inj hfile)).1
    exact ⟨hnoted, le_rfl⟩
  next content _ =>
  obtain ⟨⟨doc₁, r₁⟩, hparse, hfile⟩ := Option.map_eq_some_iff.mp hfile
  -- the nodes of the file go behind the last one of the section the directive is in
  have hlast : ∀ p ∈ (if tagNode.parentNode.isSome then
      (tagNode.parentNode.bind fun parent =>
        (doc.nodeTree[parent]?).bind DotconfNode.childNode).map
          (lastSibling doc.nodeTree doc.nodeTree.length) else doc.curPrev), p < doc.nodeTree.length := by
    intro p hp
    split_ifs at hp
    · obtain ⟨first, hfirst, rfl⟩ := Option.map_eq_some_iff.mp hp
      obtain ⟨parent, -, hfirst⟩ := Option.bind_eq_some_iff.mp hfirst
      obtain ⟨node, hnode, hfirst⟩ := Option.bind_eq_some_iff.mp hfirst
      exact lastSibling_lt h _ ((h.links parent node hnode).child first hfirst).2
    · exact h.curPrev p hp
  have hstep := parseFile_extends (by exact ⟨h.links, hlast, h.curParent⟩) (by exact htag) hparse
  split_ifs at hfile
  · obtain ⟨rfl, -⟩ := Prod.mk.inj (Prod.mk.inj hfile).1
    exact ⟨hstep.forward, hstep.length_le⟩
  · obtain ⟨rfl, -⟩ := Prod.mk.inj (Prod.mk.inj hfile).1
    have hcheck := checkNodes_extends env hstep.forward
      (List.range' doc.nodeTree.length (doc₁.nodeTree.length - doc.nodeTree.length))
    exact ⟨hcheck.forward, hstep.length_le.trans hcheck.length_le⟩

theorem Inside.mono {tagNode : DotconfNode} (h : doc.Inside tagNode) (hstep : Extends doc doc') :
    doc'.Inside tagNode := fun p hp => (h p hp).trans_le hstep.length_le

theorem includeFiles_extends {tagNode : DotconfNode} {paths : List (List Char)}
    {r r' : DotconfDocument × ℤ} (h : r.1.Forward) (htag : r.1.Inside tagNode)
    (hfiles : includeFiles env tagNode paths r = some r') : Extends r.1 r'.1 := by
  induction paths generalizing r with
  | nil =>
    obtain rfl := Option.some.inj hfiles
    exact h.extends_self
  | cons path paths ih =>
    obtain ⟨⟨r₁, stop⟩, hfile, hfiles⟩ := Option.bind_eq_some_iff.mp hfiles
    have hstep := includeFile_extends h htag hfile
    split_ifs at hfiles
    · obtain rfl := Option.some.inj hfiles
      exact hstep
    · exact hstep.trans (ih hstep.forward (htag.mono hstep) hfiles)

theorem includeValues_extends {pathName : List Char} {tagNode : DotconfNode}
    {values : List (List Char)} {r r' : DotconfDocument × ℤ} {goesOn : Bool} (h : r.1.Forward)
    (htag : r.1.Inside tagNode)
    (hvalues : includeValues env pathName tagNode values r = some (r', goesOn)) : Extends r.1 r'.1 := by
  induction values generalizing r with
  | nil =>
    obtain ⟨rfl, -⟩ := Prod.mk.inj (Option.some.inj hvalues)
    exact h.extends_self
  | cons value values ih =>
    rw [includeValues] at hvalues
    split at hvalues
    · obtain ⟨rfl, -⟩ := Prod.mk.inj (Option.some.inj hvalues)
      exact h.extends_self
    · obtain ⟨r₁, hfiles, hvalues⟩ := Option.bind_eq_some_iff.mp hvalues
      have hstep := includeFiles_extends h htag hfiles
      exact hstep.trans (ih hstep.forward (htag.mono hstep) hvalues)

theorem includeLoop_extends {pathName : List Char} {fuel i : ℕ} {r r' : DotconfDocument × ℤ}
    {goesOn : Bool} (h : r.1.Forward)
    (hloop : includeLoop env pathName fuel i r = some (r', goesOn)) : Extends r.1 r'.1 := by
  induction fuel generalizing i r with
  | zero =>
    obtain ⟨rfl, -⟩ := Prod.mk.inj (Option.some.inj hloop)
    exact h.extends_self
  | succ fuel ih =>
    rw [includeLoop] at hloop
    split at hloop
    · obtain ⟨rfl, -⟩ := Prod.mk.inj (Option.some.inj hloop)
      exact h.extends_self
    · next tagNode htag =>
      split_ifs at hloop
      · obtain ⟨⟨r₁, goesOn₁⟩, hvalues, hloop⟩ := Option.bind_eq_some_iff.mp hloop
        obtain ⟨hi, -⟩ := List.getElem?_eq_some_iff.mp htag
        have hinside : r.1.Inside tagNode :=
          fun p hp => ((h.links i tagNode htag).parent p hp).trans hi
        have hstep := includeValues_extends h hinside hvalues
        split_ifs at hloop
        · exact hstep.trans (ih hstep.forward hloop)
        · obtain ⟨rfl, -⟩ := Prod.mk.inj (Option.some.inj hloop)
          exact hstep
      · exact ih h hloop

/-- **Every document is linked in one direction**, whatever its files say and whether they are accepted
or not.

**Proof sketch.** Each step adds a node or changes what is not a link, and a node is only linked to nodes
that are there: to the last one, the one that was closed last, or the last one of the section that a
file is included in. -/
theorem forward_of_setContent {fuel : ℕ} {requiredOptions : List (List Char)} {path : List Char} {r : ℤ}
    (h : setContent env fuel requiredOptions path = some (doc, r)) : doc.Forward := by
  have hempty (file : List Char) (files : List (List Char)) :
      ({ fileName := file, processedFiles := files } : DotconfDocument).Forward :=
    ⟨fun _ _ hnode => (by cases hnode), forall_mem_none, forall_mem_none⟩
  rw [setContent] at h
  split at h
  · obtain ⟨rfl, -⟩ := Prod.mk.inj (Option.some.inj h)
    exact hempty _ _
  next real _ =>
  simp only at h
  split at h
  · obtain ⟨rfl, -⟩ := Prod.mk.inj (Option.some.inj h)
    exact hempty _ _
  obtain ⟨⟨doc₁, r₁⟩, hparse, h⟩ := Option.bind_eq_some_iff.mp h
  have hparsed := (parseFile_extends (hempty _ _) (by nofun) hparse).forward
  by_cases hr : (doc₁, r₁).2 ≠ 0
  · rw [if_pos hr] at h
    obtain ⟨rfl, -⟩ := Prod.mk.inj (Option.some.inj h)
    exact hparsed
  rw [if_neg hr] at h
  have hcheck : (checkConfig env doc₁ 0).1.Forward := (checkNodes_extends env hparsed _).forward
  split at h
  · next doc₂ hcheck₂ =>
    obtain ⟨rfl, -⟩ := Prod.mk.inj (Option.some.inj h)
    simp only at hcheck₂
    rwa [hcheck₂] at hcheck
  · next doc₂ r₂ _ hcheck₂ =>
    simp only at hcheck₂
    rw [hcheck₂] at hcheck
    obtain ⟨⟨⟨doc₃, r₃⟩, goesOn⟩, hloop, h⟩ := Option.map_eq_some_iff.mp h
    have hincluded := (includeLoop_extends (r := (doc₂, 0)) hcheck hloop).forward
    split_ifs at h
    · obtain ⟨rfl, -⟩ := Prod.mk.inj h
      exact hincluded
    · obtain ⟨rfl, -⟩ := Prod.mk.inj h
      exact hincluded
    · obtain ⟨rfl, -⟩ := Prod.mk.inj h
      exact hincluded

end DotconfDocument

/-! ## Walks -/

/-- A walk that starts nowhere. -/
theorem toPVS_none (nodes : List DotconfNode) (fuel : ℕ) : toPVS nodes fuel none = [] := by
  cases fuel <;> rfl

/-- A walk goes through no more nodes than there are behind the place where it starts. -/
theorem toPVS_succ_of_forward {doc : DotconfDocument} (h : doc.Forward) {fuel i : ℕ}
    (hfuel : doc.nodeTree.length ≤ fuel + i) :
    toPVS doc.nodeTree (fuel + 1) (some i) = toPVS doc.nodeTree fuel (some i) := by
  induction fuel generalizing i with
  | zero =>
    have hnone : doc.nodeTree[i]? = none := List.getElem?_eq_none (by omega)
    show toPVS doc.nodeTree 1 (some i) = []
    rw [toPVS, hnone]
  | succ fuel ih =>
    rw [toPVS, toPVS]
    cases hnode : doc.nodeTree[i]? with
    | none => rfl
    | some node =>
      have hlinks := h.links i node hnode
      have hwalk : ∀ place, (∀ j ∈ place, i < j ∧ j < doc.nodeTree.length) →
          toPVS doc.nodeTree (fuel + 1) place = toPVS doc.nodeTree fuel place := by
        intro place hplace
        cases place with
        | none => rw [toPVS_none, toPVS_none]
        | some j =>
          have hj := (hplace j rfl).1
          exact ih (by omega)
      simp only [hwalk _ hlinks.next, hwalk _ hlinks.child]

/-- **Walks end.** The links of every document lead in one direction, and a walk along them is done
before it has gone through as many nodes as there are. -/
theorem setContent_forward {env : DotconfEnv} {fuel : ℕ} {requiredOptions : List (List Char)}
    {path : List Char} {doc : DotconfDocument} {r : ℤ}
    (h : DotconfDocument.setContent env fuel requiredOptions path = some (doc, r)) :
    doc.Forward ∧ ∀ place steps, doc.nodeTree.length ≤ steps →
      toPVS doc.nodeTree steps place = toPVS doc.nodeTree doc.nodeTree.length place := by
  have hforward := DotconfDocument.forward_of_setContent h
  refine ⟨hforward, fun place steps hsteps => ?_⟩
  cases place with
  | none => rw [toPVS_none, toPVS_none]
  | some i =>
    induction steps, hsteps using Nat.le_induction with
    | base => rfl
    | succ steps hsteps ih => rw [toPVS_succ_of_forward hforward (by omega), ih]

/-- Where every file says the same. -/
def crossingEnv : DotconfEnv where
  getenv := fun _ => none
  realpath := fun path => some path
  file := fun _ => some DotconfDocument.crossing
  access := fun _ => true
  glob := fun path => some [path]

/-- Also where the sections of a file do not lie inside of one another. -/
theorem setContent_forward_crossing :
    ∃ doc, DotconfDocument.setContent crossingEnv 3 [] ['f'] = some (doc, 0) ∧
      doc.nodeTree.length = 2 ∧ doc.Forward := by
  have hread : (DotconfDocument.setContent crossingEnv 3 [] ['f']).map
      (fun r => (r.2, r.1.nodeTree.length)) = some (0, 2) := by decide +kernel
  obtain ⟨⟨doc, r⟩, hread, heq⟩ := Option.map_eq_some_iff.mp hread
  obtain ⟨rfl, hlen⟩ := Prod.mk.inj heq
  exact ⟨doc, hread, hlen, (setContent_forward hread).1⟩

end Stargazer
