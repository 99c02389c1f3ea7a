import Mathlib.Data.List.Infix
import Stargazer.Dotconf.Words
import Stargazer.Lib.Stdio

set_option relaxedAutoImplicit false
set_option autoImplicit false

/-!
# Configuration files

`DOTCONFDocument`: the lines of a file make a list of nodes, which are linked to a tree.  A section is
open from its tag on until the tag that closes it; a closing tag looks for the last node of its name
that is open.  Macros are replaced and files are included when a file has been read.

Pointers to nodes are their places in the list.  Where a null pointer is followed, or a line is empty
before its first character, there is no document.  The texts of the errors are left out.

## Main definitions

* `Stargazer.DotconfNode`, `Stargazer.DotconfDocument`.
* `Stargazer.DotconfDocument.parseWords` — `parseLine`.
* `Stargazer.DotconfDocument.parseFile`, `Stargazer.DotconfDocument.checkConfig`.
* `Stargazer.DotconfDocument.setContent`.
* `Stargazer.ParamValue`, `Stargazer.toPVS` — what plugins get of a section.
-/

namespace Stargazer

open CString

/-- `DOTCONFDocumentNode`. -/
structure DotconfNode where
  name : List Char
  values : List (List Char) := []
  lineNum : ℕ := 0
  fileName : List Char := []
  closed : Bool := true
  previousNode : Option ℕ := none
  nextNode : Option ℕ := none
  parentNode : Option ℕ := none
  childNode : Option ℕ := none
  deriving DecidableEq

/-- How `DOTCONFDocument` compares names, and what it asks the operating system. -/
structure DotconfEnv where
  caseSensitive : Bool := false
  getenv : List Char → Option (List Char)
  realpath : List Char → Option (List Char)
  /-- What `fopen` opens. -/
  file : List Char → Option (List Char)
  /-- `access` with `R_OK`. -/
  access : List Char → Bool
  /-- `glob`: `none` for the errors that are reported; no match is the empty list. -/
  glob : List Char → Option (List (List Char))

/-- What `cmp_func` compares of a name: `strcmp` or `strcasecmp`. -/
def DotconfEnv.key (env : DotconfEnv) (name : List Char) : List ℕ :=
  if env.caseSensitive then (cut name).map Char.toNat else foldCase name

/-- `cmp_func` finds no difference. -/
def DotconfEnv.same (env : DotconfEnv) (a b : List Char) : Bool := env.key a == env.key b

/-- `DOTCONFDocument`. -/
structure DotconfDocument where
  nodeTree : List DotconfNode := []
  curParent : Option ℕ := none
  curPrev : Option ℕ := none
  curLine : ℕ := 0
  quoted : Bool := false
  words : List (List Char) := []
  fileName : List Char := []
  processedFiles : List (List Char) := []

namespace DotconfDocument

variable (env : DotconfEnv)

/-! ## Nodes -/

/-- The node at a place is changed. -/
def modifyNode (doc : DotconfDocument) (i : ℕ) (f : DotconfNode → DotconfNode) : DotconfDocument :=
  { doc with nodeTree := doc.nodeTree.modify i f }

theorem modify_append_cons {α : Type*} (l : List α) (a : α) (f : α → α) (m : List α) :
    (l ++ a :: m).modify l.length f = l ++ f a :: m := by
  induction l with
  | nil => rfl
  | cons b l ih => simp [ih]

/-- A new node behind the last one: its child if that one is open. -/
def pushNode (doc : DotconfDocument) (name : List Char) (closed : Bool) : Option DotconfDocument :=
  let tagNode : DotconfNode :=
    { name, closed, lineNum := doc.curLine, fileName := doc.processedFiles.getLastD [] }
  let place := doc.nodeTree.length
  match doc.nodeTree.getLast? with
  | none => some { doc with nodeTree := [tagNode], curPrev := some place }
  | some prev =>
    if prev.closed then
      match doc.curPrev with
      | none => none
      | some curPrev =>
        some { doc with
          nodeTree := doc.nodeTree.modify curPrev (fun node => { node with nextNode := some place }) ++
            [{ tagNode with previousNode := some curPrev, parentNode := doc.curParent }]
          curPrev := some place }
    else
      some { doc with
        nodeTree :=
          doc.nodeTree.modify (place - 1) (fun node => { node with childNode := some place }) ++
            [{ tagNode with parentNode := some (place - 1) }]
        curParent := some (place - 1)
        curPrev := some place }

/-- The last node of a name that is open. -/
def lastOpen (name : List Char) : List DotconfNode → Option ℕ
  | [] => none
  | node :: nodes =>
    match lastOpen name nodes with
    | some i => some (i + 1)
    | none => if env.same name node.name && !node.closed then some 0 else none

/-- A closing tag; `none` if nothing of that name is open. -/
def closeNode (doc : DotconfDocument) (name : List Char) : Option DotconfDocument :=
  (lastOpen env name doc.nodeTree).map fun i =>
    { doc with
      nodeTree := doc.nodeTree.modify i fun node => { node with closed := true }
      curParent := (doc.nodeTree[i]?).bind DotconfNode.parentNode
      curPrev := some i }

/-- `pushValue` -/
def pushValue (doc : DotconfDocument) (i : ℕ) (value : List Char) : DotconfDocument :=
  doc.modifyNode i fun node => { node with values := node.values ++ [value] }

/-! ## Lines -/

/-- The locals of `parseLine`. -/
structure LineState where
  /-- `nodeName` is not null. -/
  named : Bool := false
  tagNode : Option ℕ := none
  newNode : Bool := false
  doc : DotconfDocument

/-- The loop of `parseLine`: the document and the result, `none` where a null pointer is followed. -/
def parseWords : List (List Char) → LineState → Option (DotconfDocument × ℤ)
  | [], s => some (s.doc, 0)
  | word :: words, s =>
    let named := s.named && !(s.newNode || word.head? == some '<')
    let newNode := word.getLast? == some '>'
    let word := if newNode then word.dropLast else word
    if named then
      match s.tagNode with
      | none => none
      | some tagNode =>
        parseWords words { s with named := true, newNode, doc := s.doc.pushValue tagNode word }
    else
      match word with
      | '<' :: '/' :: name =>
        match closeNode env s.doc name with
        | none => some (s.doc, -1)
        | some doc => parseWords words { s with named := true, newNode, doc }
      | '<' :: name =>
        match s.doc.pushNode name false with
        | none => none
        | some doc =>
          parseWords words { named := true, tagNode := some s.doc.nodeTree.length, newNode, doc }
      | name =>
        match s.doc.pushNode name true with
        | none => none
        | some doc =>
          parseWords words { named := true, tagNode := some s.doc.nodeTree.length, newNode, doc }

/-- `parseLine` -/
def parseLine (doc : DotconfDocument) : Option (DotconfDocument × ℤ) :=
  parseWords env doc.words { doc }

/-- One round of the loop of `parseFile`. -/
def readLine (doc : DotconfDocument) (str : List Char) : Option (DotconfDocument × ℤ) :=
  match str.getLast? with
  -- `str[slen - 1]` is in front of the buffer
  | none => none
  | some c =>
    let line := if c = '\n' then str else str ++ ['\n']
    let cleaned := cleanupLine doc.words doc.quoted line
    let doc := { doc with
      curLine := doc.curLine + 1, words := cleaned.1.words, quoted := cleaned.1.quoted }
    if cleaned.2 ≠ 0 ∨ doc.words = [] then some (doc, cleaned.2)
    else (parseLine env doc).map fun r => ({ r.1 with words := [] }, r.2)

/-- The loop of `parseFile`; `ret` is what the last line gave. -/
def readLines : List (List Char) → DotconfDocument × ℤ → Option (DotconfDocument × ℤ)
  | [], r => some r
  | str :: strs, r =>
    (readLine env r.1 str).bind fun r => if r.2 = -1 then some r else readLines strs r

/-- `parseFile`, with the characters of the file. -/
def parseFile (parent : Option ℕ) (content : List Char) (doc : DotconfDocument) :
    Option (DotconfDocument × ℤ) :=
  readLines env (Stdio.lines 511 (content.length + 1) { rest := content })
    ({ doc with curLine := 0, curParent := parent, quoted := false }, 0)

/-! ## Macros -/

/-- The default value of a macro, `none` if there is no `-` behind the `:`; quotes are dropped. -/
def macroDefault (body : List Char) : Option (Option (List Char)) :=
  match body.dropWhile (· ≠ ':') with
  | [] => some none
  | _ :: '-' :: '"' :: value => some (some value.dropLast)
  | _ :: '-' :: '\'' :: value => some (some value.dropLast)
  | _ :: '-' :: value => some (some value)
  | _ => none

/-- `getSubstitution`, for what stands between `${` and `}`. -/
def getSubstitution (nodes : List DotconfNode) (body : List Char) : Option (List Char) :=
  let name := body.takeWhile (· ≠ ':')
  (macroDefault body).bind fun defaultValue =>
    match env.getenv name with
    | some subs => some subs
    | none =>
      match nodes.find? fun node => env.same node.name name && !node.values.isEmpty with
      | some node => node.values.head?
      | none => defaultValue

/-- The loop of `macroSubstitute` for a value of the node at a place: the new value, and whether every
macro was found.  `value` is what has been written.  The first macro leaves a zero in the text it is
read from, so that `own` is what that text is then, if it is looked for itself.  The fuel counts
characters. -/
def macroLoop (nodes : List DotconfNode) (place index : ℕ) :
    ℕ → Option (List Char) → List Char → List Char → List Char × Bool
  | 0, _, value, _ => (value, true)
  | _ + 1, _, value, [] => (value, true)
  | fuel + 1, own, value, '$' :: '{' :: rest =>
    if '}' ∈ rest then
      let body := rest.takeWhile (· ≠ '}')
      let text := own.getD (value ++ ['$', '{'] ++ body.takeWhile (· ≠ ':'))
      let nodes' := nodes.modify place fun node => { node with values := node.values.set index text }
      match getSubstitution env nodes' body with
      | none => (value, false)
      | some subs =>
        macroLoop nodes place index fuel (some text) (value ++ subs) (rest.dropWhile (· ≠ '}')).tail
    else (value, false)
  | fuel + 1, own, value, c :: rest => macroLoop nodes place index fuel own (value ++ [c]) rest

/-- `macroSubstitute` -/
def macroSubstitute (doc : DotconfDocument) (place index : ℕ) (rest : List Char) :
    DotconfDocument × Bool :=
  let r := macroLoop env doc.nodeTree place index rest.length none [] rest
  (doc.modifyNode place fun node => { node with values := node.values.set index r.1 }, r.2)

/-- A value that is looked at for macros. -/
def hasMacro (value : List Char) : Bool := decide (['$', '{'] <:+: value) && value.contains '}'

/-- The values of a node in `checkConfig`. -/
def checkValues (place : ℕ) : List ℕ → DotconfDocument → DotconfDocument × Bool
  | [], doc => (doc, true)
  | index :: indices, doc =>
    match (doc.nodeTree[place]?).bind fun node => node.values[index]? with
    | none => checkValues place indices doc
    | some value =>
      if hasMacro value then
        match macroSubstitute env doc place index value with
        | (doc, true) => checkValues place indices doc
        | (doc, false) => (doc, false)
      else checkValues place indices doc

/-- The nodes in `checkConfig`. -/
def checkNodes : List ℕ → DotconfDocument → DotconfDocument × ℤ
  | [], doc => (doc, 0)
  | place :: places, doc =>
    match doc.nodeTree[place]? with
    | none => (doc, 0)
    | some node =>
      if node.closed then
        match checkValues env place (List.range node.values.length) doc with
        | (doc, true) => checkNodes places doc
        | (doc, false) => (doc, -1)
      else (doc, -1)

/-- `checkConfig`, from a place on. -/
def checkConfig (doc : DotconfDocument) (start : ℕ) : DotconfDocument × ℤ :=
  checkNodes env (List.range' start (doc.nodeTree.length - start)) doc

/-! ## Files -/

/-- `dirname` -/
def dirname (path : List Char) : List Char :=
  if path.contains '/' then
    let dir := (path.rdropWhile (· ≠ '/')).dropLast
    if dir = [] then ['/'] else dir
  else ['.']

/-- The last of the nodes that follow one another.  The fuel counts nodes. -/
def lastSibling (nodes : List DotconfNode) : ℕ → ℕ → ℕ
  | 0, i => i
  | fuel + 1, i =>
    match (nodes[i]?).bind DotconfNode.nextNode with
    | none => i
    | some next => lastSibling nodes fuel next

/-- One file of `IncludeFile`: the document with `ret`, and whether the rest of the files is left
out. -/
def includeFile (tagNode : DotconfNode) (path : List Char) (r : DotconfDocument × ℤ) :
    Option ((DotconfDocument × ℤ) × Bool) :=
  if env.access path = false then some (r, false)
  else
    match env.realpath path with
    | none => some (r, false)
    | some real =>
      if real ∈ r.1.processedFiles then some (r, true)
      else
        let doc := { r.1 with processedFiles := r.1.processedFiles ++ [real] }
        match env.file path with
        | none => some ((doc, r.2), false)
        | some content =>
          let start := doc.nodeTree.length
          let first := tagNode.parentNode.bind fun parent =>
            (doc.nodeTree[parent]?).bind DotconfNode.childNode
          let curPrev := if tagNode.parentNode.isSome then
              first.map (lastSibling doc.nodeTree doc.nodeTree.length)
            else doc.curPrev
          (parseFile env tagNode.parentNode content { doc with fileName := real, curPrev }).map fun r =>
            if r.2 = -1 then (r, false) else (((checkConfig env r.1 start).1, r.2), false)

/-- The files one value of `IncludeFile` stands for. -/
def includeFiles (tagNode : DotconfNode) : List (List Char) → DotconfDocument × ℤ →
    Option (DotconfDocument × ℤ)
  | [], r => some r
  | path :: paths, r =>
    (includeFile env tagNode path r).bind fun r =>
      if r.2 then some r.1 else includeFiles tagNode paths r.1

/-- The values of `IncludeFile`, and whether `setContent` goes on. -/
def includeValues (pathName : List Char) (tagNode : DotconfNode) : List (List Char) →
    DotconfDocument × ℤ → Option ((DotconfDocument × ℤ) × Bool)
  | [], r => some (r, true)
  | value :: values, r =>
    match env.glob (if value.head? = some '/' then value else pathName ++ '/' :: value) with
    | none => some ((r.1, -1), false)
    | some paths => (includeFiles env tagNode paths r).bind (includeValues pathName tagNode values)

/-- The loop over the nodes, of which there may become more.  The fuel counts them. -/
def includeLoop (pathName : List Char) : ℕ → ℕ → DotconfDocument × ℤ →
    Option ((DotconfDocument × ℤ) × Bool)
  | 0, _, r => some (r, true)
  | fuel + 1, i, r =>
    match r.1.nodeTree[i]? with
    | none => some (r, true)
    | some tagNode =>
      if env.same "IncludeFile".toList tagNode.name then
        (includeValues env pathName tagNode tagNode.values r).bind fun r =>
          if r.2 then includeLoop pathName fuel (i + 1) r.1 else some r
      else includeLoop pathName fuel (i + 1) r

/-- `checkRequiredOptions` -/
def checkRequiredOptions (doc : DotconfDocument) (requiredOptions : List (List Char)) : ℤ :=
  if requiredOptions.all fun option => doc.nodeTree.any fun node => env.same node.name option then 0
  else -1

/-- `setContent` of a new document. -/
def setContent (fuel : ℕ) (requiredOptions : List (List Char)) (path : List Char) :
    Option (DotconfDocument × ℤ) :=
  match env.realpath path with
  | none => some ({}, -1)
  | some real =>
    let doc : DotconfDocument := { fileName := real, processedFiles := [real] }
    match env.file real with
    | none => some (doc, -1)
    | some content =>
      (parseFile env none content doc).bind fun r =>
        if r.2 ≠ 0 then some r
        else
          match checkConfig env r.1 0 with
          | (doc, -1) => some (doc, -1)
          | (doc, _) =>
            (includeLoop env (dirname real) fuel 0 (doc, 0)).map fun r =>
              if r.2 = false then r.1
              else if requiredOptions = [] then r.1
              else (r.1.1, checkRequiredOptions env r.1.1 requiredOptions)

/-! ## Looking at the nodes -/

/-- `getFirstNode` -/
def getFirstNode (doc : DotconfDocument) : Option ℕ := if doc.nodeTree = [] then none else some 0

/-- The first node of a name and a parent from a place on. -/
def findFrom (nodeName : List Char) (parentNode : Option ℕ) : ℕ → List DotconfNode → Option ℕ
  | _, [] => none
  | i, node :: nodes =>
    if node.parentNode = parentNode ∧ env.same nodeName node.name then some i
    else findFrom nodeName parentNode (i + 1) nodes

/-- `findNode` -/
def findNode (doc : DotconfDocument) (nodeName : List Char) (parentNode : Option ℕ)
    (startNode : Option ℕ) : Option ℕ :=
  match startNode.or parentNode with
  | none => findFrom env nodeName parentNode 0 doc.nodeTree
  | some start => findFrom env nodeName parentNode (start + 1) (doc.nodeTree.drop (start + 1))

end DotconfDocument

/-- What a plugin gets of a node (`STG::ParamValue`). -/
inductive ParamValue
  | mk (param : List Char) (value : List (List Char)) (sections : List ParamValue)

/-- `toPVS`: the nodes from one on, and what is inside of them.  The fuel counts nodes. -/
def toPVS (nodes : List DotconfNode) : ℕ → Option ℕ → List ParamValue
  | 0, _ => []
  | _ + 1, none => []
  | fuel + 1, some i =>
    match nodes[i]? with
    | none => []
    | some child =>
      .mk child.name child.values (toPVS nodes fuel child.childNode) :: toPVS nodes fuel child.nextNode

end Stargazer
