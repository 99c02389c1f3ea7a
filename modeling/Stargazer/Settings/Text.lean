import Stargazer.Dotconf.Outline
import Stargazer.Settings.ReadSettings

set_option relaxedAutoImplicit false
set_option autoImplicit false

/-!
# The text of the settings

What `ReadSettings` makes of a file that is written for an outline depends on the entries of the outline,
and for each name only on the entries of that name.

## Main definitions

* `Stargazer.Outline.settingsNodes` — what is looked at of an outline.
* `Stargazer.Outline.names` — the names that are in an outline, also inside of sections.
* `Stargazer.Outline.entries` — what an outline consists of.

## Main results

* `Stargazer.SettingsImpl.readSettings_text` — `ReadSettings` of the text of an outline.
* `Stargazer.SettingsImpl.readSettings_reorder` — the order of the entries of different names does not
  matter.
-/

namespace Stargazer

namespace Outline

/-- The values of the first entry of a name. -/
def find (name : List Char) : Outline → Option (List (List Char))
  | nil => none
  | option n values rest =>
    if CString.foldCase name = CString.foldCase n then some values else rest.find name
  | group n values _ rest =>
    if CString.foldCase name = CString.foldCase n then some values else rest.find name

/-- What is looked at of an outline. -/
def settingsNodes : Outline → List SettingsNode
  | nil => []
  | option name values rest => { name, values } :: rest.settingsNodes
  | group name values children rest =>
    { name, values, hasChild := (children.first 0).isSome, params := children.params,
      find := fun name => children.find name } :: rest.settingsNodes

/-- The names that are in an outline. -/
def names : Outline → List (List Char)
  | nil => []
  | option name _ rest => name :: rest.names
  | group name _ children rest => name :: (children.names ++ rest.names)

theorem map_name_nodes (file : List Char) (place line : ℕ) (parent prev : Option ℕ) (o : Outline) :
    (o.nodes file place line parent prev).map DotconfNode.name = o.names := by
  induction o generalizing place line parent prev with
  | nil => rfl
  | option name values rest ih => simp [nodes, names, ih]
  | group name values children rest ihc ihr => simp [nodes, names, ihc, ihr]

/-- What an outline consists of: names with their values and, for a section, the outline inside. -/
def entries : Outline → List (List Char × List (List Char) × Option Outline)
  | nil => []
  | option name values rest => (name, values, none) :: rest.entries
  | group name values children rest => (name, values, some children) :: rest.entries

/-- What is looked at of an entry. -/
def entryNode : List Char × List (List Char) × Option Outline → SettingsNode
  | (name, values, none) => { name, values }
  | (name, values, some children) =>
    { name, values, hasChild := (children.first 0).isSome, params := children.params,
      find := fun name => children.find name }

/-- The names in an entry. -/
def entryNames : List Char × List (List Char) × Option Outline → List (List Char)
  | (name, _, none) => [name]
  | (name, _, some children) => name :: children.names

theorem settingsNodes_eq_map (o : Outline) : o.settingsNodes = o.entries.map entryNode := by
  induction o with
  | nil => rfl
  | option name values rest ih => rw [settingsNodes, entries, List.map_cons, ih, entryNode]
  | group name values children rest _ ih => rw [settingsNodes, entries, List.map_cons, ih, entryNode]

theorem names_eq_flatMap (o : Outline) : o.names = o.entries.flatMap entryNames := by
  induction o with
  | nil => rfl
  | option name values rest ih => rw [names, entries, List.flatMap_cons, ih]; rfl
  | group name values children rest _ ih => rw [names, entries, List.flatMap_cons, ih]; rfl

/-- The entries of a name, without regard to the case of its letters. -/
def entriesOf (o : Outline) (name : List Char) : List (List Char × List (List Char) × Option Outline) :=
  o.entries.filter fun e => CString.foldCase e.1 == CString.foldCase name

/-- Outlines whose entries are the same for each name by itself. -/
def SameEntries (o o' : Outline) : Prop := ∀ name, o.entriesOf name = o'.entriesOf name

theorem SameEntries.mem_entries {o o' : Outline} (h : SameEntries o o')
    (e : List Char × List (List Char) × Option Outline) : e ∈ o.entries ↔ e ∈ o'.entries := by
  have hself (o : Outline) : e ∈ o.entries ↔ e ∈ o.entriesOf e.1 := by
    rw [entriesOf, List.mem_filter]
    exact ⟨fun he => ⟨he, beq_self_eq_true _⟩, fun he => he.1⟩
  rw [hself o, h e.1, ← hself o']

theorem SameEntries.sameOptions {o o' : Outline} (h : SameEntries o o') :
    SameOptions o.settingsNodes o'.settingsNodes := by
  intro option _
  have hname (e : List Char × List (List Char) × Option Outline) : (entryNode e).name = e.1 := by
    obtain ⟨name, values, _ | children⟩ := e <;> rfl
  have hof (o : Outline) : ofOption option o.settingsNodes =
      (o.entriesOf option.name.toList).map entryNode := by
    rw [ofOption, settingsNodes_eq_map, List.filter_map, entriesOf]
    congr 2
    funext e
    show isOption option.name (entryNode e).name = _
    rw [hname]
    rfl
  rw [hof, hof, h]

/-- Options of two names that change their places. -/
theorem sameEntries_swap {a b : List Char} (h : CString.foldCase a ≠ CString.foldCase b)
    (va vb : List (List Char)) (rest : Outline) :
    (option a va (option b vb rest)).SameEntries (option b vb (option a va rest)) := by
  intro name
  simp only [entriesOf, entries, List.filter_cons]
  by_cases ha : CString.foldCase a = CString.foldCase name
  · have hb : (CString.foldCase b == CString.foldCase name) = false :=
      beq_false_of_ne fun hb => h (ha.trans hb.symm)
    simp only [hb, Bool.false_eq_true, if_false]
  · have ha : (CString.foldCase a == CString.foldCase name) = false := beq_false_of_ne ha
    simp only [ha, Bool.false_eq_true, if_false]

/-! ## Looking inside of a section -/

/-- The nodes of an outline lie inside of its section, or inside of one of its own nodes. -/
theorem parentNode_of_mem_nodes {o : Outline} {file : List Char} {place line : ℕ}
    {parent prev : Option ℕ} {node : DotconfNode} (h : node ∈ o.nodes file place line parent prev) :
    node.parentNode = parent ∨ ∃ j, place ≤ j ∧ node.parentNode = some j := by
  induction o generalizing place line parent prev with
  | nil => cases h
  | option name values rest ih =>
    rcases List.mem_cons.mp h with rfl | h
    · exact .inl rfl
    · rcases ih h with hparent | ⟨j, hj, hparent⟩
      · exact .inl hparent
      · exact .inr ⟨j, by omega, hparent⟩
  | group name values children rest ihc ihr =>
    rw [nodes, List.mem_cons, List.mem_append] at h
    rcases h with rfl | h | h
    · exact .inl rfl
    · rcases ihc h with hparent | ⟨j, hj, hparent⟩
      · exact .inr ⟨place, le_rfl, hparent⟩
      · exact .inr ⟨j, by omega, hparent⟩
    · rcases ihr h with hparent | ⟨j, hj, hparent⟩
      · exact .inl hparent
      · exact .inr ⟨j, by omega, hparent⟩

variable {env : DotconfEnv}

/-- Nodes that lie elsewhere are passed over. -/
theorem findFrom_append (env : DotconfEnv) (name : List Char) {parent : Option ℕ} {front : List DotconfNode}
    (h : ∀ node ∈ front, node.parentNode ≠ parent) (i : ℕ) (back : List DotconfNode) :
    DotconfDocument.findFrom env name parent i (front ++ back) =
      DotconfDocument.findFrom env name parent (i + front.length) back := by
  induction front generalizing i with
  | nil => rfl
  | cons node front ih =>
    have hnode : ¬(node.parentNode = parent ∧ env.same name node.name = true) :=
      fun hfound => h node List.mem_cons_self hfound.1
    rw [List.cons_append, DotconfDocument.findFrom, if_neg hnode,
      ih (fun n hn => h n (List.mem_cons_of_mem node hn)), List.length_cons, Nat.add_right_comm,
      Nat.add_assoc]

theorem same_iff (hcase : env.caseSensitive = false) (a b : List Char) :
    env.same a b = true ↔ CString.foldCase a = CString.foldCase b := by
  rw [DotconfEnv.same, beq_iff_eq, DotconfEnv.key, DotconfEnv.key, hcase]
  rfl

/-- What is found inside of the section an outline belongs to. -/
theorem findFrom_nodes (hcase : env.caseSensitive = false) (name : List Char) {file : List Char}
    {line i : ℕ} {prev : Option ℕ} (o : Outline) (front : List DotconfNode) {back all : List DotconfNode}
    (hall : all = front ++ o.nodes file front.length line (some i) prev ++ back) (hi : i < front.length)
    (hback : ∀ node ∈ back, node.parentNode ≠ some i) :
    ((DotconfDocument.findFrom env name (some i) front.length
        (o.nodes file front.length line (some i) prev ++ back)).bind fun j => all[j]?).map
          DotconfNode.values = o.find name := by
  induction o generalizing front line prev with
  | nil =>
    have hnone := findFrom_append env name hback front.length []
    rw [List.append_nil] at hnone
    rw [nodes, List.nil_append, hnone]
    rfl
  | option n values rest ih =>
    rw [nodes] at hall ⊢
    rw [List.cons_append, DotconfDocument.findFrom, find]
    by_cases hname : CString.foldCase name = CString.foldCase n
    · rw [if_pos ⟨rfl, (same_iff hcase name n).mpr hname⟩, if_pos hname, Option.bind_some]
      simp [hall]
    · rw [if_neg (fun h => hname ((same_iff hcase name n).mp h.2)), if_neg hname]
      have hrest := fun node => @ih (line + 1) (some front.length) (front ++ [node])
      simp only [List.length_append, List.length_singleton, List.append_assoc, List.singleton_append]
        at hrest
      simp only [List.append_assoc, List.cons_append] at hall
      exact hrest _ hall (by omega)
  | group n values children rest _ ihr =>
    rw [nodes] at hall ⊢
    rw [List.cons_append, DotconfDocument.findFrom, find]
    by_cases hname : CString.foldCase name = CString.foldCase n
    · rw [if_pos ⟨rfl, (same_iff hcase name n).mpr hname⟩, if_pos hname, Option.bind_some]
      simp [hall]
    · -- the nodes inside of the section that is passed over lie inside of it
      have hchildren : ∀ node ∈ children.nodes file (front.length + 1) (line + 1) (some front.length) none,
          node.parentNode ≠ some i := by
        intro node hnode hparent
        rcases parentNode_of_mem_nodes hnode with hinside | ⟨j, hj, hinside⟩
        · obtain rfl := Option.some.inj (hparent.symm.trans hinside)
          omega
        · obtain rfl := Option.some.inj (hparent.symm.trans hinside)
          omega
      rw [if_neg (fun h => hname ((same_iff hcase name n).mp h.2)), if_neg hname, List.append_assoc,
        findFrom_append env name hchildren, length_nodes]
      have hrest := fun node => @ihr (line + 2 + children.lines.length) (some front.length)
        (front ++ node :: children.nodes file (front.length + 1) (line + 1) (some front.length) none)
      have hplace : front.length + (children.size + 1) = front.length + 1 + children.size := by omega
      simp only [List.length_append, List.length_cons, length_nodes, List.append_assoc, List.cons_append,
        hplace] at hrest
      simp only [List.append_assoc, List.cons_append] at hall
      exact hrest _ hall (by omega)

/-- The nodes of an outline do not lie inside of a node that is in front of them. -/
theorem parentNode_ne_of_mem_nodes {o : Outline} {file : List Char} {place line i : ℕ}
    {prev : Option ℕ} {node : DotconfNode} (hi : i < place)
    (h : node ∈ o.nodes file place line none prev) : node.parentNode ≠ some i := by
  intro hparent
  rcases parentNode_of_mem_nodes h with htop | ⟨j, hj, hinside⟩
  · rw [htop] at hparent
    cases hparent
  · obtain rfl := Option.some.inj (hparent.symm.trans hinside)
    omega

/-- What is looked at of the node of a section with an outline inside. -/
theorem settingsNode_eq (hcase : env.caseSensitive = false) (file : List Char) (line : ℕ)
    (children : Outline) (conf : DotconfDocument) (front : List DotconfNode) {back : List DotconfNode}
    {node : DotconfNode} (hchild : node.childNode = children.first (front.length + 1))
    (hall : conf.nodeTree = front ++ node ::
      (children.nodes file (front.length + 1) line (some front.length) none ++ back))
    (hback : ∀ node ∈ back, node.parentNode ≠ some front.length) :
    settingsNode env conf front.length node =
      { name := node.name, values := node.values, hasChild := node.childNode.isSome,
        params := children.params, find := fun name => children.find name } := by
  have hlen : (front ++ [node]).length = front.length + 1 := by simp
  have hall' : conf.nodeTree =
      (front ++ [node]) ++ children.nodes file (front ++ [node]).length line (some front.length) none ++
        back := by
    rw [hall, hlen]
    simp
  have hparams : toPVS conf.nodeTree conf.nodeTree.length node.childNode = children.params := by
    rw [hchild, ← hlen]
    refine toPVS_nodes children rfl hall' ?_
    rw [hall', List.length_append, List.length_append, length_nodes]
    omega
  have hfind (name : List Char) :
      (do let place ← conf.findNode env name (some front.length) none
          let found ← conf.nodeTree[place]?
          pure found.values) = children.find name := by
    have hinside := findFrom_nodes hcase name children (front ++ [node]) hall' (by omega) hback
    have hdrop : conf.nodeTree.drop (front.length + 1) =
        children.nodes file (front.length + 1) line (some front.length) none ++ back := by
      rw [hall', ← hlen, List.append_assoc, List.drop_left]
    rw [← hinside, hlen, ← hdrop]
    show ((DotconfDocument.findFrom env name (some front.length) (front.length + 1)
      (conf.nodeTree.drop (front.length + 1))).bind fun place =>
        (conf.nodeTree[place]?).bind fun found => some found.values) = _
    rw [Option.map_bind]
    congr 1
    funext place
    exact (Option.map_eq_bind).symm
  rw [settingsNode, hparams]
  congr 1
  exact funext hfind

/-- **What is looked at of the nodes of an outline.** -/
theorem settingsNodes_nodes (hcase : env.caseSensitive = false) {file : List Char} {line : ℕ}
    {prev : Option ℕ} (o : Outline) (conf : DotconfDocument) (front : List DotconfNode)
    (hall : conf.nodeTree = front ++ o.nodes file front.length line none prev) (fuel : ℕ)
    (hfuel : o.size ≤ fuel) :
    Stargazer.settingsNodes env conf fuel (o.first front.length) = o.settingsNodes := by
  induction o generalizing front line prev fuel with
  | nil => cases fuel <;> rfl
  | option n values rest ih =>
    obtain ⟨fuel, rfl⟩ := Nat.exists_eq_succ_of_ne_zero (Nat.ne_of_gt (Nat.zero_lt_of_lt hfuel))
    rw [nodes] at hall
    have hnode := settingsNode_eq hcase file line .nil conf front rfl hall
      fun node h => parentNode_ne_of_mem_nodes (Nat.lt_succ_self _) h
    have hrest := fun node => @ih (line + 1) (some front.length) (front ++ [node])
    simp only [List.length_append, List.length_singleton, List.append_assoc, List.singleton_append]
      at hrest
    replace hrest := hrest _ hall fuel (Nat.le_of_succ_le_succ hfuel)
    rw [first, Stargazer.settingsNodes, hall, List.getElem?_append_right le_rfl, Nat.sub_self,
      List.getElem?_cons_zero]
    simp only [hnode, hrest]
    rfl
  | group n values children rest _ ihr =>
    obtain ⟨fuel, rfl⟩ := Nat.exists_eq_succ_of_ne_zero (Nat.ne_of_gt (Nat.zero_lt_of_lt hfuel))
    rw [nodes] at hall
    rw [size] at hfuel
    have hplace : front.length + (children.size + 1) = front.length + 1 + children.size := by omega
    have hnode := settingsNode_eq hcase file (line + 1) children conf front rfl hall
      fun node h => parentNode_ne_of_mem_nodes (by omega) h
    have hrest := fun node => @ihr (line + 2 + children.lines.length) (some front.length)
      (front ++ node :: children.nodes file (front.length + 1) (line + 1) (some front.length) none)
    simp only [List.length_append, List.length_cons, length_nodes, List.append_assoc, List.cons_append,
      hplace] at hrest
    replace hrest := hrest _ hall fuel (by omega)
    rw [first, Stargazer.settingsNodes, hall, List.getElem?_append_right le_rfl, Nat.sub_self,
      List.getElem?_cons_zero]
    simp only [hnode, hrest]
    rw [settingsNodes]
    cases children <;> rfl

end Outline

namespace SettingsImpl

/-- The options that have to be there are in an outline. -/
def hasRequired (o : Outline) : Bool :=
  requiredOptions.all fun option => o.names.any fun name =>
    CString.foldCase name == CString.foldCase option

/-- The files of `ReadSettings`, which compares names without regard to the case of their letters. -/
def filesOf (env : SettingsEnv) : DotconfEnv := { env.files with caseSensitive := false }

/-- The file of the settings is that of an outline. -/
structure Holds (env : SettingsEnv) (s : SettingsImpl) (o : Outline) : Prop where
  wf : o.Wf (filesOf env)
  file : ∃ real, env.files.realpath s.confFile = some real ∧ env.files.file real = some o.text

theorem fileNodes_text {env : SettingsEnv} {s : SettingsImpl} {o : Outline} (h : Holds env s o) :
    fileNodes env s.confFile = some (if hasRequired o then some o.settingsNodes else none) := by
  obtain ⟨real, hpath, hfile⟩ := h.file
  obtain ⟨doc, hread, hnodes⟩ := Outline.setContent_text h.wf hpath hfile env.fuel requiredOptions
  have hrequired : doc.checkRequiredOptions (filesOf env) requiredOptions =
      if hasRequired o then 0 else -1 := by
    have hany (option : List Char) : (doc.nodeTree.any fun node => (filesOf env).same node.name option) =
        o.names.any fun name => CString.foldCase name == CString.foldCase option := by
      rw [hnodes, ← Outline.map_name_nodes real 0 1 none none o, List.any_map]
      rfl
    simp only [DotconfDocument.checkRequiredOptions, hany]
    rfl
  have hfirst : doc.getFirstNode = o.first 0 := by
    rw [DotconfDocument.getFirstNode, hnodes]
    cases o <;> rfl
  have hcase : (filesOf env).caseSensitive = false := rfl
  have hlooked := Outline.settingsNodes_nodes hcase o doc [] hnodes doc.nodeTree.length
    (by rw [hnodes, Outline.length_nodes])
  rw [List.length_nil, ← hfirst] at hlooked
  rw [fileNodes]
  show (DotconfDocument.setContent (filesOf env) env.fuel requiredOptions s.confFile).map _ = _
  rw [hread, Option.map_some, hrequired]
  by_cases hhas : hasRequired o = true
  · simp only [if_pos hhas]
    rw [if_neg (by simp), ← hlooked]
    rfl
  · simp only [if_neg hhas]
    rw [if_pos (by simp)]

/-- **`ReadSettings` of the text of an outline.** -/
theorem readSettings_text {env : SettingsEnv} {s : SettingsImpl} {o : Outline} (h : Holds env s o) :
    s.readSettings env =
      if hasRequired o then
        (readNodes env.isDir o.settingsNodes { settings := { s with modulesSettings := [] } }).map ofReading
      else some ({ s with modulesSettings := [],
                          strError := "Cannot read file ".toList ++ s.confFile }, -1) := by
  rw [readSettings]
  show (fileNodes env s.confFile).bind _ = _
  rw [fileNodes_text h, Option.bind_some]
  by_cases hhas : hasRequired o = true
  · simp only [if_pos hhas]
  · simp only [if_neg hhas]
    rfl

theorem map_ofReading_eq_iff {s' : SettingsImpl}
    (r : Option (Except (List Char × Reading) Reading)) :
    r.map ofReading = some (s', 0) ↔ ∃ r', r = some (.ok r') ∧ r'.settings = s' := by
  rcases r with _ | r | r
  · simp
  · simp [ofReading]
  · simp [ofReading]

theorem hasRequired_of_sameEntries {o o' : Outline} (h : o.SameEntries o') :
    hasRequired o = hasRequired o' := by
  have hnames (name : List Char) : name ∈ o.names ↔ name ∈ o'.names := by
    simp only [Outline.names_eq_flatMap, List.mem_flatMap, h.mem_entries]
  rw [Bool.eq_iff_iff, hasRequired, hasRequired]
  simp only [List.all_eq_true, List.any_eq_true, hnames]

/-- **The order of the entries of a file does not matter**, as long as those of one name keep theirs:
either file is accepted if the other one is, and the settings are the same. -/
theorem readSettings_reorder {env env' : SettingsEnv} {s : SettingsImpl} {o o' : Outline}
    (h : Holds env s o) (h' : Holds env' s o') (hdir : env.isDir = env'.isDir) (hsame : o.SameEntries o')
    (s' : SettingsImpl) : s.readSettings env = some (s', 0) ↔ s.readSettings env' = some (s', 0) := by
  rw [readSettings_text h, readSettings_text h', hasRequired_of_sameEntries hsame, hdir]
  split_ifs
  · rw [map_ofReading_eq_iff, map_ofReading_eq_iff]
    have hoptions := hsame.sameOptions
    exact exists_congr fun r' => and_congr_left fun _ =>
      ⟨readNodes_of_sameOptions hoptions (Nat.zero_le 1),
        readNodes_of_sameOptions hoptions.symm (Nat.zero_le 1)⟩
  · simp

/-! ## A file -/

namespace Sample

/-- Options one below another. -/
def ofOptions (l : List (String × String)) : Outline :=
  l.foldr (fun e o => .option e.1.toList [e.2.toList] o) .nil

/-- The rest of a file. -/
def rest : Outline :=
  .group "Modules".toList [] (.group "Module".toList ["mod".toList] (ofOptions [("Port", "5555")]) .nil)
    (.option "StoreModule".toList ["store".toList]
      (ofOptions [("Rules", "r"), ("DetailStatWritePeriod", "1/6"), ("dayfee", "1"), ("DayResetTraff", "1"),
        ("SpreadFee", "no"), ("FreeMbAllowInet", "no"), ("DayFeeIsLastDay", "yes"),
        ("WriteFreeMbTraffCost", "no"), ("DayFee", "31")]))

/-- Two files that begin with the same options. -/
def first : Outline := .option "ModulesPath".toList ["p".toList] (.option "LogFile".toList ["l".toList] rest)

def second : Outline := .option "LogFile".toList ["l".toList] (.option "ModulesPath".toList ["p".toList] rest)

/-- Where the file of the settings is that of an outline. -/
def env (o : Outline) : SettingsEnv where
  files :=
    { getenv := fun _ => none, realpath := fun path => some path, file := fun _ => some o.text,
      access := fun _ => true, glob := fun path => some [path] }
  isDir := fun _ => false
  fuel := 0

end Sample

/-- Both files are accepted, with the same settings. -/
theorem readSettings_reorder_sample :
    ∃ s', (init []).readSettings (Sample.env Sample.first) = some (s', 0) ∧
      (init []).readSettings (Sample.env Sample.second) = some (s', 0) := by
  have hfirst : Holds (Sample.env Sample.first) (init []) Sample.first :=
    ⟨by decide +kernel, _, rfl, rfl⟩
  have hsecond : Holds (Sample.env Sample.second) (init []) Sample.second :=
    ⟨by decide +kernel, _, rfl, rfl⟩
  have hread : ((init []).readSettings (Sample.env Sample.first)).map Prod.snd = some 0 := by
    rw [readSettings_text hfirst]
    decide +kernel
  obtain ⟨⟨s', ret⟩, hread, rfl⟩ := Option.map_eq_some_iff.mp hread
  have hsame : Sample.first.SameEntries Sample.second := Outline.sameEntries_swap (by decide +kernel) _ _ _
  exact ⟨s', hread, (readSettings_reorder hfirst hsecond rfl hsame s').mp hread⟩

end SettingsImpl

end Stargazer
