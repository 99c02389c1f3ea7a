import Stargazer.Lib.Mirror
import Stargazer.Lib.Run
import Stargazer.Registry.ConfRegistry
import Stargazer.Store.ConfigFile

set_option relaxedAutoImplicit false
set_option autoImplicit false

/-!
# Services in the file store

`FILES_STORE` (`file_store.cpp`) keeps every service and every tariff in a file of its own.  Adding
an entry makes an empty file, whatever the entry is; only a change writes the parameters, and
restoring wants all of them.

A directory is a function from the names of files to their texts; the names of services and tariffs
are taken to be names of files, without `/` and zero characters.  The order in which `readdir` lists
the files is arbitrary.

## Main definitions

* `Stargazer.entryFile`, `Stargazer.getFileList` — the files of entries.
* `Stargazer.readLoop` — the loops of `ServicesImpl::Read` and `TariffsImpl::ReadTariffs`.
* `Stargazer.FilesStore.saveService`, `Stargazer.FilesStore.restoreService`.
* `Stargazer.serviceFormat` — services as entries that are mirrored in files.
* `Stargazer.ServiceFiles`, `Stargazer.ServiceFiles.step` — the registry with its files.

## Main results

* `Stargazer.ServiceFiles.mirror_step` — the operations of the registry and the store mirror each
  other.
* `Stargazer.ServiceFiles.restarts_iff_mirror` — `ServicesImpl::Read` is a restart of the mirror.
-/

namespace Stargazer

/-! ## Files of entries -/

/-- A directory: the texts of its files. -/
abbrev Files := List Char → Option (List Char)

/-- The name of the file of an entry. -/
def entryFile (ext : String) (name : String) : List Char := name.toList ++ ext.toList

theorem entryFile_injective (ext : String) : Function.Injective (entryFile ext) := by
  intro n n' h
  exact String.toList_injective (List.append_cancel_right h)

/-- The files a directory has, each once: what `readdir` gives. -/
def ReadDir (files : Files) (ls : List (List Char)) : Prop :=
  ls.Nodup ∧ ∀ f, f ∈ ls ↔ (files f).isSome

/-- `GetFileList`: the names of the files with an extension, without it. -/
def getFileList (ls : List (List Char)) (ext : String) : List String :=
  ls.filterMap fun f =>
    if f.length ≤ ext.toList.length then none
    else if f.drop (f.length - ext.toList.length) = ext.toList then
      some (String.ofList (f.take (f.length - ext.toList.length)))
    else none

/-- A file is listed under the name of its entry, unless that is empty. -/
theorem getFileList_iff {ext name : String} {f : List Char} :
    (if f.length ≤ ext.toList.length then none
      else if f.drop (f.length - ext.toList.length) = ext.toList then
        some (String.ofList (f.take (f.length - ext.toList.length)))
      else none) = some name ↔ name ≠ "" ∧ f = entryFile ext name := by
  constructor
  · intro h
    split_ifs at h with hlen hext
    obtain rfl := Option.some.inj h
    refine ⟨fun hempty => ?_, ?_⟩
    · have hnil := congrArg String.toList hempty
      rw [String.toList_ofList] at hnil
      have := congrArg List.length hnil
      simp only [List.length_take, String.toList_empty, List.length_nil] at this
      omega
    · rw [entryFile, String.toList_ofList]
      conv_lhs => rw [← List.take_append_drop (f.length - ext.toList.length) f, hext]
  · rintro ⟨hne, rfl⟩
    have hpos : 0 < name.toList.length := by
      rw [List.length_pos_iff]
      simpa using hne
    have hlen : (entryFile ext name).length = name.toList.length + ext.toList.length :=
      List.length_append
    have hsub : (entryFile ext name).length - ext.toList.length = name.toList.length := by omega
    rw [if_neg (by omega), hsub, entryFile, List.drop_left, if_pos rfl, List.take_left,
      String.ofList_toList]

/-- The names that are listed. -/
theorem nodup_getFileList {files : Files} {ls : List (List Char)} (h : ReadDir files ls)
    (ext : String) : (getFileList ls ext).Nodup ∧
      ∀ n, n ∈ getFileList ls ext ↔ n ≠ "" ∧ (files (entryFile ext n)).isSome := by
  refine ⟨List.Nodup.filterMap (fun f f' n hf hf' => ?_) h.1, fun n => ?_⟩
  · rw [Option.mem_def, getFileList_iff] at hf hf'
    rw [hf.2, hf'.2]
  · simp only [getFileList, List.mem_filterMap, getFileList_iff]
    constructor
    · rintro ⟨f, hf, hne, rfl⟩
      exact ⟨hne, (h.2 _).mp hf⟩
    · rintro ⟨hne, hsome⟩
      exact ⟨_, (h.2 _).mpr hsome, hne, rfl⟩

/-- The loops of `ServicesImpl::Read` and `TariffsImpl::ReadTariffs`, which stop at the first entry
that is not restored.  The first component is the failure of the call. -/
def readLoop {σ α ε : Type} (restore : String → Except ε α) (push : σ → α → σ) :
    List String → σ → Bool × σ
  | [], r => (false, r)
  | n :: ns, r =>
    match restore n with
    | .error _ => (true, r)
    | .ok x => readLoop restore push ns (push r x)

/-- What a loop that does not fail gives. -/
theorem readLoop_eq_iff {σ α ε : Type} {restore : String → Except ε α} {push : σ → α → σ}
    {ns : List String} {r r' : σ} :
    readLoop restore push ns r = (false, r') ↔
      ∃ l, List.Forall₂ (fun n x => restore n = .ok x) ns l ∧ r' = l.foldl push r := by
  induction ns generalizing r with
  | nil =>
    constructor
    · rintro ⟨-, rfl⟩
      exact ⟨[], .nil, rfl⟩
    · rintro ⟨l, hl, rfl⟩
      cases hl
      rfl
  | cons n ns ih =>
    rw [readLoop]
    cases hn : restore n with
    | error e =>
      constructor
      · intro h
        cases h
      · rintro ⟨l, hl, -⟩
        cases hl with
        | cons hx _ =>
          rw [hn] at hx
          cases hx
    | ok x =>
      simp only [ih]
      constructor
      · rintro ⟨l, hl, rfl⟩
        exact ⟨x :: l, .cons hn hl, rfl⟩
      · rintro ⟨l, hl, rfl⟩
        cases hl with
        | cons hx hl =>
          rw [hn] at hx
          cases hx
          exact ⟨_, hl, rfl⟩

/-- What a result without its error is. -/
theorem toOption_eq_some_iff {ε α : Type} {x : Except ε α} {a : α} :
    x.toOption = some a ↔ x = .ok a := by
  cases x <;> simp [Except.toOption]

/-- Restoring from the files of a directory: those that are listed are there. -/
theorem forall₂_restore_iff {ε α : Type} {files : Files} {ls : List (List Char)}
    (hls : ReadDir files ls) (ext : String)
    (restore : String → Option (List Char) → Except ε α) (l : List α) :
    List.Forall₂ (fun n x => restore n (files (entryFile ext n)) = .ok x) (getFileList ls ext) l ↔
      List.Forall₂ (fun n x => (files (entryFile ext n)).bind
        (fun c => (restore n (some c)).toOption) = some x) (getFileList ls ext) l := by
  have hfile : ∀ n ∈ getFileList ls ext, ∀ x, restore n (files (entryFile ext n)) = .ok x ↔
      (files (entryFile ext n)).bind (fun c => (restore n (some c)).toOption) = some x := by
    intro n hn x
    obtain ⟨c, hc⟩ := Option.isSome_iff_exists.mp (((nodup_getFileList hls ext).2 n).mp hn).2
    rw [hc, Option.bind_some, toOption_eq_some_iff]
  generalize getFileList ls ext = ns at hfile
  induction ns generalizing l with
  | nil => cases l <;> simp
  | cons n ns ih =>
    cases l with
    | nil => simp
    | cons x l =>
      have hrest := ih l fun n' hn' => hfile n' (List.mem_cons_of_mem _ hn')
      rw [List.forall₂_cons, List.forall₂_cons]
      exact and_congr (hfile n List.mem_cons_self x) hrest

/-! ## Services -/

open ConfigFile

namespace FilesStore

/-- What `SaveService` writes. -/
def serviceWrites (lib : CDouble) (conf : FullServiceConf) : List (List Char × List Char) :=
  [writeString "name" conf.name, writeString "comment" conf.comment,
    writeDouble lib "cost" conf.cost, writeInt "pay_day" conf.payDay.toNat]

/-- `FILES_STORE::SaveService`: the file afterwards, or `m_errorStr`; `path` is the directory. -/
def saveService (lib : CDouble) (path : String) (conf : FullServiceConf)
    (file : Option (List Char)) : Except String (List Char) :=
  match load file true with
  | none => .error ("Cannot write service " ++ conf.name ++ ". " ++ path ++ "/" ++ conf.name ++
      ".serv")
  | some cf => .ok (flush (cf.insertAll (serviceWrites lib conf)))

/-- `FILES_STORE::RestoreService`. -/
def restoreService (lib : CDouble) (path name : String) (file : Option (List Char)) :
    Except String FullServiceConf :=
  match load file false with
  | none => .error ("Cannot open " ++ path ++ "/" ++ name ++ ".serv")
  | some cf =>
    if (readString cf "name" name.toList).1 ≠ 0 then .error "Error in parameter 'name'"
    else if (readString cf "comment" []).1 ≠ 0 then .error "Error in parameter 'comment'"
    else if (readDouble lib cf "cost" 0).1 ≠ 0 then .error "Error in parameter 'cost'"
    else if (readUShortInt cf "pay_day" 0).1 ≠ 0 then .error "Error in parameter 'pay_day'"
    else .ok {
      name := String.ofList (readString cf "name" name.toList).2
      comment := String.ofList (readString cf "comment" []).2
      cost := (readDouble lib cf "cost" 0).2
      payDay := (readUShortInt cf "pay_day" 0).2.setWidth 8 }

/-- The parameters of a service can be told apart and are as a file can have them. -/
theorem serviceWrites_ok (lib : CDouble) (conf : FullServiceConf) :
    ((serviceWrites lib conf).map fun e => CString.foldCase e.1).Nodup ∧
      ∀ e ∈ serviceWrites lib conf, ParamOk e.1 := by
  have hnodup : (["name", "comment", "cost", "pay_day"].map fun k =>
      CString.foldCase k.toList).Nodup := by decide
  have hok : ∀ k ∈ ["name", "comment", "cost", "pay_day"], ParamOk k.toList := by decide
  refine ⟨hnodup, ?_⟩
  simpa [serviceWrites, writeString, writeDouble, writeInt] using hok

/-- **A service with plain texts is restored** from the file it was saved to, but for its cost. -/
theorem restoreService_saveService (lib : CDouble) {path : String} {conf : FullServiceConf}
    {file : Option (List Char)} {text : List Char}
    (hsave : saveService lib path conf file = .ok text) (hname : ValueOk conf.name.toList)
    (hcomment : ValueOk conf.comment.toList) (path' name : String) :
    restoreService lib path' name (some text) =
      .ok { conf with cost := (lib.strtod (lib.print conf.cost)).1 } := by
  unfold saveService at hsave
  cases hload : load file true with
  | none =>
    rw [hload] at hsave
    cases hsave
  | some cf =>
    rw [hload] at hsave
    obtain rfl := Except.ok.inj hsave
    obtain ⟨hnodup, hok⟩ := serviceWrites_ok lib conf
    have hlines : ∀ e ∈ serviceWrites lib conf, '\n' ∉ e.2 := by
      simp [serviceWrites, writeString, writeDouble, writeInt, hname.1, hcomment.1,
        (plain_print lib conf.cost).1, (plain_printInt _).1]
    obtain ⟨m, hm, hsaved⟩ := exists_load_save (paramOk_of_load hload)
      (fun e he => ⟨hok e he, hlines e he⟩) hnodup false
    have hmem : ∀ (i : ℕ) {e : List Char × List Char}, (serviceWrites lib conf)[i]? = some e →
        e ∈ serviceWrites lib conf := fun _ _ h => List.mem_of_getElem? h
    have h₁ : readString m "name" name.toList = (0, conf.name.toList) := by
      have hw : writeString "name" conf.name ∈ serviceWrites lib conf := hmem 0 rfl
      rw [hsaved.readString hw rfl, clean_eq_self_iff.mpr hname.2]
    have h₂ : readString m "comment" [] = (0, conf.comment.toList) := by
      have hw : writeString "comment" conf.comment ∈ serviceWrites lib conf := hmem 1 rfl
      rw [hsaved.readString hw rfl, clean_eq_self_iff.mpr hcomment.2]
    have h₃ : readDouble lib m "cost" 0 = (0, (lib.strtod (lib.print conf.cost)).1) := by
      have hw : writeDouble lib "cost" conf.cost ∈ serviceWrites lib conf := hmem 2 rfl
      exact hsaved.readDouble lib hw rfl _
    have h₄ : readUShortInt m "pay_day" 0 = (0, BitVec.ofNat 16 conf.payDay.toNat) := by
      have hw : writeInt "pay_day" conf.payDay.toNat ∈ serviceWrites lib conf := hmem 3 rfl
      exact hsaved.readUShortInt hw rfl (by have := conf.payDay.isLt; omega) _
    have hday : (BitVec.ofNat 16 conf.payDay.toNat).setWidth 8 = conf.payDay := by
      have := conf.payDay.isLt
      apply BitVec.eq_of_toNat_eq
      simp only [BitVec.toNat_setWidth, BitVec.toNat_ofNat]
      omega
    simp only [restoreService, hm, h₁, h₂, h₃, h₄, ne_eq, not_true_eq_false, if_false,
      String.ofList_toList, hday]

/-- What is restored from any file has plain texts. -/
theorem valueOk_of_restoreService {lib : CDouble} {path name : String} {file : Option (List Char)}
    {conf : FullServiceConf} (h : restoreService lib path name file = .ok conf) :
    ValueOk conf.name.toList ∧ ValueOk conf.comment.toList := by
  unfold restoreService at h
  cases hload : load file false with
  | none =>
    rw [hload] at h
    cases h
  | some cf =>
    simp only [hload] at h
    split_ifs at h with hname hcomment
    obtain rfl := Except.ok.inj h
    simp only [String.toList_ofList]
    refine ⟨?_, valueOk_readString hload "comment" (by decide)⟩
    unfold readString at hname ⊢
    cases hlookup : cf.lookup "name".toList with
    | none =>
      rw [hlookup] at hname
      exact absurd (by simp) hname
    | some v => exact valueOk_of_lookup hload hlookup

/-- Nothing is restored from an empty file. -/
theorem restoreService_nil (lib : CDouble) (path name : String) :
    restoreService lib path name (some []) = .error "Error in parameter 'name'" := rfl

end FilesStore

/-- Services as entries that are mirrored in files; everything but the cost is to be restored. -/
def serviceFormat (lib : CDouble) (path : String) :
    Mirror.Format String FullServiceConf (List Char) FullServiceConf where
  name x := x.name
  view x := { x with cost := 0 }
  blank := []
  save f x := (FilesStore.saveService lib path x f).toOption
  restore n c := (FilesStore.restoreService lib path n (some c)).toOption
  listed n := n ≠ ""
  Storable x := ValueOk x.name.toList ∧ ValueOk x.comment.toList
  name_eq h := by
    have := congrArg (fun x : FullServiceConf => x.name) h
    exact this
  restore_blank n := by rw [FilesStore.restoreService_nil]; rfl
  storable_of_restore h := by
    have hok := FilesStore.valueOk_of_restoreService (toOption_eq_some_iff.mp h)
    exact hok
  restore_save h hst := by
    exact ⟨_, toOption_eq_some_iff.mpr (FilesStore.restoreService_saveService lib
      (toOption_eq_some_iff.mp h) hst.1 hst.2 path _), rfl⟩

/-! ## The registry of services with its files -/

/-- The registry of services and their directory. -/
structure ServiceFiles where
  /-- The registry. -/
  registry : ServicesImpl := {}
  /-- The directory. -/
  files : Files := fun _ => none

/-- The operations on services. -/
inductive ServiceOp
  /-- `ServicesImpl::Add`. -/
  | add (priv : Priv) (conf : FullServiceConf)
  /-- `ServicesImpl::Del`. -/
  | del (priv : Priv) (name : String)
  /-- `ServicesImpl::Change`. -/
  | change (priv : Priv) (conf : FullServiceConf)

namespace ServiceFiles

variable (lib : CDouble) (path : String)

/-- An operation with its effect on the files, `none` if it is not successful. -/
def step (s : ServiceFiles) : ServiceOp → Option ServiceFiles
  | .add priv conf =>
    match s.registry.add priv none conf with
    | (true, r) => some ⟨r, Function.update s.files (entryFile ".serv" conf.name) (some [])⟩
    | (false, _) => none
  | .del priv name =>
    match s.registry.del priv none name with
    | (true, r) => some ⟨r, Function.update s.files (entryFile ".serv" name) none⟩
    | (false, _) => none
  | .change priv conf =>
    match FilesStore.saveService lib path conf (s.files (entryFile ".serv" conf.name)) with
    | .error _ => none
    | .ok text =>
      match s.registry.change priv none conf with
      | (true, r) => some ⟨r, Function.update s.files (entryFile ".serv" conf.name) (some text)⟩
      | (false, _) => none

/-- `ServicesImpl::Read` for the files in a directory. -/
def read (files : Files) (ls : List (List Char)) : Bool × ServicesImpl :=
  readLoop (fun n => FilesStore.restoreService lib path n (files (entryFile ".serv" n)))
    ConfRegistry.pushBack (getFileList ls ".serv") {}

/-- Reading the registry again succeeds and gives the services that are there, up to their cost. -/
def Restarts (s : ServiceFiles) (ls : List (List Char)) : Prop :=
  (read lib path s.files ls).1 = false ∧
    ((read lib path s.files ls).2.data.map fun x => { x with cost := 0 }).Perm
      (s.registry.data.map fun x => { x with cost := 0 })

/-- The registry as a mirror. -/
def mirror (s : ServiceFiles) : Mirror.State String FullServiceConf (List Char) :=
  ⟨s.registry.data, fun n => s.files (entryFile ".serv" n)⟩

end ServiceFiles

/-- The operation of the mirror. -/
def ServiceOp.mirror : ServiceOp → Mirror.Op String FullServiceConf
  | .add _ conf => .add conf
  | .del _ name => .del name
  | .change _ conf => .change conf

/-- The files of entries after a change of one of them. -/
theorem update_entryFile (files : Files) (ext name : String) (file : Option (List Char)) :
    (fun n => Function.update files (entryFile ext name) file (entryFile ext n)) =
      Function.update (fun n => files (entryFile ext n)) name file := by
  funext n
  by_cases hn : n = name
  · subst hn
    simp
  · rw [Function.update_of_ne hn, Function.update_of_ne ((entryFile_injective ext).ne hn)]

namespace ServiceFiles

variable {lib : CDouble} {path : String}

/-- **Registry and store mirror each other**: what a successful operation does. -/
theorem mirror_step {s s' : ServiceFiles} {op : ServiceOp} (h : s.step lib path op = some s') :
    Mirror.Step (serviceFormat lib path) s.mirror op.mirror s'.mirror := by
  cases op with
  | add priv conf =>
    simp only [step, ConfRegistry.add] at h
    split_ifs at h with hpriv
    cases hfind : s.registry.findIdx (name conf) with
    | some i =>
      rw [hfind] at h
      cases h
    | none =>
      rw [hfind] at h
      obtain rfl := Option.some.inj h
      refine ⟨ConfRegistry.findIdx_eq_none.mp hfind, ?_, update_entryFile _ _ _ _⟩
      change (s.registry.pushBack conf).data.Perm _
      rw [ConfRegistry.data_pushBack]
      exact List.perm_append_singleton _ _
  | del priv n =>
    simp only [step, ConfRegistry.del] at h
    split_ifs at h with hpriv
    cases hfind : s.registry.findIdx n with
    | none =>
      rw [hfind] at h
      cases h
    | some i =>
      rw [hfind] at h
      obtain rfl := Option.some.inj h
      obtain ⟨x, hx, hname⟩ := ConfRegistry.name_of_findIdx hfind
      obtain ⟨hi, rfl⟩ := List.getElem?_eq_some_iff.mp hx
      exact ⟨_, hname, (List.getElem_cons_eraseIdx_perm hi).symm, update_entryFile _ _ _ _⟩
  | change priv conf =>
    simp only [step] at h
    cases hsave : FilesStore.saveService lib path conf (s.files (entryFile ".serv" conf.name)) with
    | error e =>
      rw [hsave] at h
      cases h
    | ok text =>
      simp only [hsave, ConfRegistry.change] at h
      split_ifs at h with hpriv
      cases hfind : s.registry.findIdx (name conf) with
      | none =>
        rw [hfind] at h
        cases h
      | some i =>
        rw [hfind] at h
        obtain rfl := Option.some.inj h
        obtain ⟨x, hx, hname⟩ := ConfRegistry.name_of_findIdx hfind
        obtain ⟨hi, rfl⟩ := List.getElem?_eq_some_iff.mp hx
        exact ⟨_, s.registry.data.eraseIdx i, text, hname,
          (List.getElem_cons_eraseIdx_perm hi).symm, List.set_perm_cons_eraseIdx hi conf,
          toOption_eq_some_iff.mpr hsave, update_entryFile _ _ _ _⟩

/-- The entries that are pushed into a registry. -/
theorem data_foldl_pushBack (l : List FullServiceConf) (r : ServicesImpl) :
    (l.foldl ConfRegistry.pushBack r).data = r.data ++ l := by
  induction l generalizing r with
  | nil => simp
  | cons x l ih =>
    rw [List.foldl_cons, ih, ConfRegistry.data_pushBack]
    simp

/-- **`ServicesImpl::Read` is a restart of the mirror.** -/
theorem restarts_iff_mirror {s : ServiceFiles} {ls : List (List Char)} (hls : ReadDir s.files ls) :
    s.Restarts lib path ls ↔
      Mirror.Restarts (serviceFormat lib path) s.mirror (getFileList ls ".serv") := by
  have hall := forall₂_restore_iff hls ".serv" (FilesStore.restoreService lib path)
  have hdata : ∀ l : List FullServiceConf,
      (l.foldl ConfRegistry.pushBack ({} : ServicesImpl)).data = l := fun l =>
    data_foldl_pushBack l {}
  constructor
  · rintro ⟨hok, hperm⟩
    obtain ⟨l, hl, hr⟩ := readLoop_eq_iff.mp (Prod.ext hok rfl :
      read lib path s.files ls = (false, (read lib path s.files ls).2))
    rw [hr, hdata] at hperm
    exact ⟨l, (hall l).mp hl, hperm⟩
  · rintro ⟨l, hl, hperm⟩
    have hread : read lib path s.files ls = (false, l.foldl ConfRegistry.pushBack {}) :=
      readLoop_eq_iff.mpr ⟨l, (hall l).mpr hl, rfl⟩
    refine ⟨congrArg Prod.fst hread, ?_⟩
    rw [hread, hdata]
    exact hperm

end ServiceFiles

end Stargazer
