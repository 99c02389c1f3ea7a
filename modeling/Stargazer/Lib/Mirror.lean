import Mathlib.Data.List.Forall2
import Mathlib.Data.List.Nodup
import Mathlib.Data.List.Perm.Basic
import Mathlib.Logic.Function.Basic

set_option relaxedAutoImplicit false
set_option autoImplicit false

/-!
# Registries mirrored in files

A registry keeps its entries in memory and one file for each of them.  Adding an entry makes a blank
file, changing one saves it over the file that is there, deleting one removes the file.  A restart
restores an entry from every file that is listed.  When does it give the entries that were in
memory?

## Main definitions

* `Mirror.Format` — how entries are kept in files, with the laws of saving and restoring.
* `Mirror.State`, `Mirror.Op`, `Mirror.Step`, `Mirror.Run` — registry and files, and operations.
* `Mirror.Restarts` — a restart gives the entries that are in memory.
* `Mirror.Loss` — a restart that does not restore all that could be.
* `Mirror.Kept` — the last operation on every name leaves what a restart can read.

## Main results

* `Mirror.restarts_iff_sound` — a restart gives the entries iff every file is sound.
* `Mirror.Run.restarts_iff_keeps` — after a run from a synced state it does iff the operations are kept.
* `Mirror.Run.restarts_loss_iff` — when a restart that loses something gives them all the same.
-/

namespace Mirror

variable {N α C V : Type}

/-- How the entries of a registry are kept in files. -/
structure Format (N α C V : Type) where
  /-- The name of an entry. -/
  name : α → N
  /-- What is to be restored of an entry. -/
  view : α → V
  /-- A new file. -/
  blank : C
  /-- Saving an entry over a file. -/
  save : Option C → α → Option C
  /-- Restoring the entry of a name from its file. -/
  restore : N → C → Option α
  /-- The names whose files are listed. -/
  listed : N → Prop
  /-- What can be restored. -/
  Storable : V → Prop
  /-- The name is part of what is to be restored. -/
  name_eq : ∀ {a b}, view a = view b → name a = name b
  /-- Nothing is restored from a new file. -/
  restore_blank : ∀ n, restore n blank = none
  /-- What is restored can be restored. -/
  storable_of_restore : ∀ {n c a}, restore n c = some a → Storable (view a)
  /-- What can be restored is, once it is saved. -/
  restore_save : ∀ {f a c}, save f a = some c → Storable (view a) →
    ∃ b, restore (name a) c = some b ∧ view b = view a

/-- A registry and its files. -/
structure State (N α C : Type) where
  /-- The entries in memory. -/
  mem : List α
  /-- The files, by name. -/
  files : N → Option C

/-- The operations. -/
inductive Op (N α : Type)
  /-- Add an entry. -/
  | add (a : α)
  /-- Delete the entry of a name. -/
  | del (n : N)
  /-- Change the entry of a name. -/
  | change (a : α)

variable (fmt : Format N α C V)

/-- The name an operation is about. -/
def Op.name : Op N α → N
  | .add a => fmt.name a
  | .del n => n
  | .change a => fmt.name a

/-- The names of the entries in memory. -/
def State.names (s : State N α C) : List N := s.mem.map fmt.name

section Step

variable [DecidableEq N]

/-- What a successful operation does. -/
def Step (s : State N α C) (op : Op N α) (s' : State N α C) : Prop :=
  match op with
  | .add a => fmt.name a ∉ s.names fmt ∧ s'.mem.Perm (a :: s.mem) ∧
      s'.files = Function.update s.files (fmt.name a) (some fmt.blank)
  | .del n => ∃ a, fmt.name a = n ∧ s.mem.Perm (a :: s'.mem) ∧
      s'.files = Function.update s.files n none
  | .change a => ∃ b rest c, fmt.name b = fmt.name a ∧ s.mem.Perm (b :: rest) ∧
      s'.mem.Perm (a :: rest) ∧ fmt.save (s.files (fmt.name a)) a = some c ∧
      s'.files = Function.update s.files (fmt.name a) (some c)

/-- A run of successful operations. -/
inductive Run : State N α C → List (Op N α) → State N α C → Prop
  | nil (s : State N α C) : Run s [] s
  | cons {s s' t : State N α C} {op : Op N α} {ops : List (Op N α)} :
      Step fmt s op s' → Run s' ops t → Run s (op :: ops) t

end Step

/-- A restart that finds the files in the order `ls` gives the entries that are in memory. -/
def Restarts (s : State N α C) (ls : List N) : Prop :=
  ∃ l, List.Forall₂ (fun n a => (s.files n).bind (fmt.restore n) = some a) ls l ∧
    (l.map fmt.view).Perm (s.mem.map fmt.view)

/-- The names of the files that are listed, each once. -/
def Lists (s : State N α C) (ls : List N) : Prop :=
  ls.Nodup ∧ ∀ n, n ∈ ls ↔ fmt.listed n ∧ (s.files n).isSome

/-- The file of an entry is listed and gives the entry. -/
def Sound (s : State N α C) (a : α) : Prop :=
  fmt.listed (fmt.name a) ∧ ∃ c b, s.files (fmt.name a) = some c ∧
    fmt.restore (fmt.name a) c = some b ∧ fmt.view b = fmt.view a

/-- Every entry has its own file, and there are no others. -/
structure Paired (s : State N α C) : Prop where
  /-- Names are distinct. -/
  nodup : (s.names fmt).Nodup
  /-- There are files for the names of the entries. -/
  isSome_iff : ∀ n, (s.files n).isSome ↔ n ∈ s.names fmt

/-- Memory and files agree. -/
structure Synced (s : State N α C) : Prop extends Paired fmt s where
  /-- The file of every entry gives the entry. -/
  sound : ∀ a ∈ s.mem, Sound fmt s a

/-- Where the file of an entry can come from: it is new, or it gives the entry if that can be restored
at all, because the entry was saved there or was read from it at the start. -/
def Origin (s : State N α C) (a : α) : Prop :=
  s.files (fmt.name a) = some fmt.blank ∨
    ∃ c, s.files (fmt.name a) = some c ∧
      (fmt.Storable (fmt.view a) → ∃ b, fmt.restore (fmt.name a) c = some b ∧ fmt.view b = fmt.view a)

/-! ## When a restart gives the entries -/

section Restart

variable {fmt} {s : State N α C} {ls : List N}

/-- An entry that is restored comes from a file. -/
theorem exists_of_forall₂ {β : Type} {R : N → β → Prop} {l : List β} (h : List.Forall₂ R ls l)
    {b : β} (hb : b ∈ l) : ∃ n ∈ ls, R n b := by
  induction h with
  | nil => cases hb
  | cons hr _ ih =>
    rcases List.mem_cons.mp hb with rfl | hb
    · exact ⟨_, List.mem_cons_self, hr⟩
    · obtain ⟨n, hn, hr⟩ := ih hb
      exact ⟨n, List.mem_cons_of_mem _ hn, hr⟩

/-- Every file gives an entry. -/
theorem forall_of_forall₂ {β : Type} {R : N → β → Prop} {l : List β} (h : List.Forall₂ R ls l)
    {n : N} (hn : n ∈ ls) : ∃ b ∈ l, R n b := by
  induction h with
  | nil => cases hn
  | cons hr _ ih =>
    rcases List.mem_cons.mp hn with rfl | hn
    · exact ⟨_, List.mem_cons_self, hr⟩
    · obtain ⟨b, hb, hr⟩ := ih hn
      exact ⟨b, List.mem_cons_of_mem _ hb, hr⟩

/-- If every file gives an entry, a restart gives a list. -/
theorem exists_forall₂ {β : Type} {R : N → β → Prop} (h : ∀ n ∈ ls, ∃ b, R n b) :
    ∃ l, List.Forall₂ R ls l := by
  induction ls with
  | nil => exact ⟨[], .nil⟩
  | cons n ls ih =>
    obtain ⟨b, hb⟩ := h n List.mem_cons_self
    obtain ⟨l, hl⟩ := ih fun n' hn' => h n' (List.mem_cons_of_mem _ hn')
    exact ⟨b :: l, .cons hb hl⟩

/-- Entries with distinct names are distinct in what is to be restored. -/
theorem nodup_map_view {l : List α} (h : (l.map fmt.name).Nodup) : (l.map fmt.view).Nodup := by
  refine List.Nodup.map_on (fun a ha a' ha' heq => ?_) (List.Nodup.of_map _ h)
  exact List.inj_on_of_nodup_map h ha ha' (fmt.name_eq heq)

/-- If every file is sound, a restart gives the entries. -/
theorem restarts_of_sound (hp : Paired fmt s) (hls : Lists fmt s ls)
    (h : ∀ a ∈ s.mem, Sound fmt s a) : Restarts fmt s ls := by
  have hfile : ∀ n ∈ ls, ∃ b, (s.files n).bind (fmt.restore n) = some b ∧
      ∃ a ∈ s.mem, fmt.name a = n ∧ fmt.view b = fmt.view a := by
    intro n hn
    obtain ⟨a, ha, rfl⟩ := List.mem_map.mp ((hp.isSome_iff n).mp ((hls.2 n).mp hn).2)
    obtain ⟨-, c, b, hc, hb, hview⟩ := h a ha
    exact ⟨b, by rw [hc]; exact hb, a, ha, rfl, hview⟩
  obtain ⟨l, hl⟩ := exists_forall₂ hfile
  have hnames : l.map fmt.name = ls := by
    refine (List.forall₂_eq_eq_eq ▸ List.forall₂_map_right_iff.mpr ?_ : ls = l.map fmt.name).symm
    refine hl.imp fun n b hb => ?_
    obtain ⟨-, a, -, rfl, hview⟩ := hb
    exact (fmt.name_eq hview).symm
  refine ⟨l, hl.imp fun n b hb => hb.1, ?_⟩
  rw [List.perm_ext_iff_of_nodup (nodup_map_view (hnames ▸ hls.1)) (nodup_map_view hp.nodup)]
  intro v
  simp only [List.mem_map]
  constructor
  · rintro ⟨b, hb, rfl⟩
    obtain ⟨n, -, -, a, ha, -, hview⟩ := exists_of_forall₂ hl hb
    exact ⟨a, ha, hview.symm⟩
  · rintro ⟨a, ha, rfl⟩
    obtain ⟨hlisted, c, b, hc, hb, hview⟩ := h a ha
    have hn : fmt.name a ∈ ls := (hls.2 _).mpr ⟨hlisted, by rw [hc]; rfl⟩
    obtain ⟨b', hb', hrestore, -⟩ := forall_of_forall₂ hl hn
    rw [hc, Option.bind_some, hb, Option.some.injEq] at hrestore
    exact ⟨b', hb', hrestore ▸ hview⟩

/-- If a restart gives the entries, every file is sound.

**Proof sketch.** What a restart gives is storable, so the entries are.  A file that is listed is not
new, since a restart succeeds, so its entry was saved there and is restored.  An entry whose file is
not listed would have to come from the file of another name, which gives that other entry. -/
theorem sound_of_restarts (hp : Paired fmt s) (horigin : ∀ a ∈ s.mem, Origin fmt s a)
    (hls : Lists fmt s ls) (h : Restarts fmt s ls) : ∀ a ∈ s.mem, Sound fmt s a := by
  obtain ⟨l, hl, hperm⟩ := h
  have hview : ∀ a ∈ s.mem, ∃ n ∈ ls, ∃ b, (s.files n).bind (fmt.restore n) = some b ∧
      fmt.view b = fmt.view a := by
    intro a ha
    have hmem : fmt.view a ∈ l.map fmt.view := hperm.mem_iff.mpr (List.mem_map_of_mem ha)
    obtain ⟨b, hb, hview⟩ := List.mem_map.mp hmem
    obtain ⟨n, hn, hr⟩ := exists_of_forall₂ hl hb
    exact ⟨n, hn, b, hr, hview⟩
  have hstorable : ∀ a ∈ s.mem, fmt.Storable (fmt.view a) := by
    intro a ha
    obtain ⟨n, -, b, hb, hv⟩ := hview a ha
    obtain ⟨c, -, hb⟩ := Option.bind_eq_some_iff.mp hb
    exact hv ▸ fmt.storable_of_restore hb
  have hlisted : ∀ a ∈ s.mem, fmt.name a ∈ ls → Sound fmt s a := by
    intro a ha hn
    rcases horigin a ha with hblank | ⟨c, hc, hrestore⟩
    · obtain ⟨b, -, hb⟩ := forall_of_forall₂ hl hn
      rw [hblank, Option.bind_some, fmt.restore_blank] at hb
      cases hb
    · obtain ⟨b, hb, hv⟩ := hrestore (hstorable a ha)
      exact ⟨((hls.2 _).mp hn).1, c, b, hc, hb, hv⟩
  intro a ha
  obtain ⟨n, hn, b, hb, hv⟩ := hview a ha
  obtain ⟨a', ha', rfl⟩ := List.mem_map.mp ((hp.isSome_iff n).mp ((hls.2 n).mp hn).2)
  obtain ⟨-, c, b', hc, hb', hv'⟩ := hlisted a' ha' hn
  rw [hc, Option.bind_some, hb', Option.some.injEq] at hb
  have hname : fmt.name a = fmt.name a' := fmt.name_eq (hv.symm.trans (hb ▸ hv'))
  exact hlisted a ha (hname ▸ hn)

/-- **A restart gives the entries iff every file is sound.** -/
theorem restarts_iff_sound (hp : Paired fmt s) (horigin : ∀ a ∈ s.mem, Origin fmt s a)
    (hls : Lists fmt s ls) : Restarts fmt s ls ↔ ∀ a ∈ s.mem, Sound fmt s a :=
  ⟨sound_of_restarts hp horigin hls, restarts_of_sound hp hls⟩

end Restart

/-! ## Restarts that lose something -/

/-- A restart that does not restore all that could be: it gives back what is spared. -/
structure Loss (fmt : Format N α C V) where
  /-- Restoring the entry of a name from its file. -/
  restore : N → C → Option α
  /-- What is not lost. -/
  Spared : V → Prop
  /-- Nothing is restored from a new file. -/
  restore_blank : ∀ n, restore n fmt.blank = none
  /-- What is restored can be restored, and nothing of it can be lost. -/
  spared_of_restore : ∀ {n c a}, restore n c = some a →
    fmt.Storable (fmt.view a) ∧ Spared (fmt.view a)
  /-- What is spared is restored, if it can be. -/
  restore_of_spared : ∀ {n c a}, fmt.restore n c = some a → Spared (fmt.view a) →
    ∃ b, restore n c = some b ∧ fmt.view b = fmt.view a

namespace Loss

variable {fmt} {s : State N α C} {ls : List N}

/-- What is spared is there again, once it is saved. -/
theorem restore_save (l : Loss fmt) {f : Option C} {a : α} {c : C} (h : fmt.save f a = some c)
    (hst : fmt.Storable (fmt.view a) ∧ l.Spared (fmt.view a)) :
    ∃ b, l.restore (fmt.name a) c = some b ∧ fmt.view b = fmt.view a := by
  obtain ⟨b, hb, hview⟩ := fmt.restore_save h hst.1
  obtain ⟨b', hb', hview'⟩ := l.restore_of_spared hb (hview ▸ hst.2)
  exact ⟨b', hb', hview'.trans hview⟩

/-- The same files, restored with a loss. -/
def format (l : Loss fmt) : Format N α C V :=
  { fmt with
    restore := l.restore
    Storable := fun v => fmt.Storable v ∧ l.Spared v
    restore_blank := l.restore_blank
    storable_of_restore := l.spared_of_restore
    restore_save := l.restore_save }

/-- The file of an entry gives it in spite of the loss iff it would give it without, and the entry is
spared. -/
theorem sound_iff (l : Loss fmt) {a : α} (ho : Origin fmt s a) :
    Sound l.format s a ↔ Sound fmt s a ∧ l.Spared (fmt.view a) := by
  constructor
  · rintro ⟨hlisted, c, b, hc, hb, hview⟩
    obtain ⟨hstorable, hspared⟩ : fmt.Storable (fmt.view a) ∧ l.Spared (fmt.view a) :=
      (hview : fmt.view b = fmt.view a) ▸ l.spared_of_restore hb
    refine ⟨⟨hlisted, ?_⟩, hspared⟩
    rcases ho with hblank | ⟨c', hc', hrestore⟩
    · obtain rfl := Option.some.inj (hblank.symm.trans hc)
      cases (l.restore_blank _).symm.trans hb
    · obtain ⟨b', hb'⟩ := hrestore hstorable
      exact ⟨c', b', hc', hb'⟩
  · rintro ⟨⟨hlisted, c, b, hc, hb, hview⟩, hspared⟩
    obtain ⟨b', hb', hview'⟩ := l.restore_of_spared hb (hview ▸ hspared)
    exact ⟨hlisted, c, b', hc, hb', hview'.trans hview⟩

/-- **A lossy restart** gives the entries iff one without loss does, and they are all spared. -/
theorem restarts_iff_loss (l : Loss fmt) (hp : Paired fmt s) (ho : ∀ a ∈ s.mem, Origin fmt s a)
    (hls : Lists fmt s ls) :
    Restarts l.format s ls ↔ Restarts fmt s ls ∧ ∀ a ∈ s.mem, l.Spared (fmt.view a) := by
  have horigin : ∀ a ∈ s.mem, Origin l.format s a := by
    intro a ha
    refine (ho a ha).imp id fun ⟨c, hc, hrestore⟩ => ⟨c, hc, fun hst => ?_⟩
    obtain ⟨b, hb, hview⟩ := hrestore hst.1
    obtain ⟨b', hb', hview'⟩ := l.restore_of_spared hb (hview ▸ hst.2)
    exact ⟨b', hb', hview'.trans hview⟩
  have hpaired : Paired l.format s := ⟨hp.nodup, hp.isSome_iff⟩
  rw [restarts_iff_sound hpaired horigin hls, restarts_iff_sound hp ho hls, ← forall₂_and]
  exact forall₂_congr fun a ha => l.sound_iff (ho a ha)

end Loss

/-! ## Runs -/

section Runs

variable [DecidableEq N] {fmt} {s s' : State N α C} {op : Op N α}

/-- What a step does to memory: the entries of other names stay, and there may be a new entry of the
name of the operation. -/
theorem Step.mem_iff (hs : Step fmt s op s') (hp : Paired fmt s) (a : α) :
    a ∈ s'.mem ↔ a ∈ s.mem ∧ fmt.name a ≠ op.name fmt ∨
      (op = .add a ∨ op = .change a) := by
  cases op with
  | add b =>
    obtain ⟨hb, hmem, -⟩ := hs
    rw [hmem.mem_iff, List.mem_cons]
    simp only [Op.name, Op.add.injEq, reduceCtorEq, or_false]
    constructor
    · rintro (rfl | ha)
      · exact .inr rfl
      · exact .inl ⟨ha, fun hn => hb (hn ▸ List.mem_map_of_mem ha)⟩
    · rintro (⟨ha, -⟩ | rfl)
      · exact .inr ha
      · exact .inl rfl
  | del n =>
    obtain ⟨b, rfl, hmem, -⟩ := hs
    have hnodup := (hmem.map fmt.name).nodup_iff.mp hp.nodup
    rw [List.map_cons, List.nodup_cons] at hnodup
    rw [hmem.mem_iff, List.mem_cons]
    simp only [Op.name, reduceCtorEq, or_false]
    constructor
    · exact fun ha => ⟨.inr ha, fun hn => hnodup.1 (hn ▸ List.mem_map_of_mem ha)⟩
    · rintro ⟨rfl | ha, hn⟩
      · exact absurd rfl hn
      · exact ha
  | change b =>
    obtain ⟨b', rest, c, hname, hmem, hmem', -, -⟩ := hs
    have hnodup := (hmem.map fmt.name).nodup_iff.mp hp.nodup
    rw [List.map_cons, List.nodup_cons] at hnodup
    rw [hmem.mem_iff, hmem'.mem_iff, List.mem_cons, List.mem_cons]
    simp only [Op.name, Op.change.injEq, reduceCtorEq, false_or]
    constructor
    · rintro (rfl | ha)
      · exact .inr rfl
      · refine .inl ⟨.inr ha, fun hn => hnodup.1 ?_⟩
        rw [hname, ← hn]
        exact List.mem_map_of_mem ha
    · rintro (⟨rfl | ha, hn⟩ | rfl)
      · exact absurd hname hn
      · exact .inr ha
      · exact .inl rfl

/-- The files of other names stay. -/
theorem Step.files_of_ne (hs : Step fmt s op s') {n : N} (hn : n ≠ op.name fmt) :
    s'.files n = s.files n := by
  cases op with
  | add b =>
    obtain ⟨-, -, hf⟩ := hs
    rw [hf]
    exact Function.update_of_ne hn _ _
  | del m =>
    obtain ⟨b, -, -, hf⟩ := hs
    rw [hf]
    exact Function.update_of_ne hn _ _
  | change b =>
    obtain ⟨-, -, c, -, -, -, -, hf⟩ := hs
    rw [hf]
    exact Function.update_of_ne hn _ _

/-- Every step keeps the pairing of entries and files. -/
theorem Step.paired (hs : Step fmt s op s') (hp : Paired fmt s) : Paired fmt s' := by
  have hiff : ∀ n, n ≠ op.name fmt → ((s'.files n).isSome ↔ n ∈ s'.names fmt) := by
    intro n hn
    rw [hs.files_of_ne hn, hp.isSome_iff]
    simp only [State.names, List.mem_map]
    constructor
    · rintro ⟨a, ha, rfl⟩
      exact ⟨a, (hs.mem_iff hp a).mpr (.inl ⟨ha, hn⟩), rfl⟩
    · rintro ⟨a, ha, rfl⟩
      rcases (hs.mem_iff hp a).mp ha with ⟨ha, -⟩ | rfl | rfl
      · exact ⟨a, ha, rfl⟩
      · exact absurd rfl hn
      · exact absurd rfl hn
  cases op with
  | add b =>
    obtain ⟨hb, hmem, hf⟩ := hs
    have hnames := hmem.map fmt.name
    refine ⟨hnames.nodup_iff.mpr (List.nodup_cons.mpr ⟨hb, hp.nodup⟩), fun n => ?_⟩
    by_cases hn : n = fmt.name b
    · subst hn
      rw [hf, Function.update_self, State.names, hnames.mem_iff]
      simp
    · exact hiff n hn
  | del m =>
    obtain ⟨b, rfl, hmem, hf⟩ := hs
    have hnodup := (hmem.map fmt.name).nodup_iff.mp hp.nodup
    rw [List.map_cons, List.nodup_cons] at hnodup
    refine ⟨hnodup.2, fun n => ?_⟩
    by_cases hn : n = fmt.name b
    · subst hn
      rw [hf, Function.update_self]
      simpa [State.names] using hnodup.1
    · exact hiff n hn
  | change b =>
    obtain ⟨b', rest, c, hname, hmem, hmem', -, hf⟩ := hs
    have hnames := hmem'.map fmt.name
    have hnodup := (hmem.map fmt.name).nodup_iff.mp hp.nodup
    rw [List.map_cons, hname] at hnodup
    refine ⟨hnames.nodup_iff.mpr hnodup, fun n => ?_⟩
    by_cases hn : n = fmt.name b
    · subst hn
      rw [hf, Function.update_self, State.names, hnames.mem_iff]
      simp
    · exact hiff n hn

/-- Whether an entry of another name is sound does not change. -/
theorem Step.sound_of_ne (hs : Step fmt s op s') {a : α} (ha : fmt.name a ≠ op.name fmt) :
    Sound fmt s' a ↔ Sound fmt s a := by
  unfold Sound
  rw [hs.files_of_ne ha]

/-- The origin of files is kept. -/
theorem Step.origin (hs : Step fmt s op s') (hp : Paired fmt s)
    (h : ∀ a ∈ s.mem, Origin fmt s a) : ∀ a ∈ s'.mem, Origin fmt s' a := by
  intro a ha
  rcases (hs.mem_iff hp a).mp ha with ⟨ha, hn⟩ | rfl | rfl
  · unfold Origin
    rw [hs.files_of_ne hn]
    exact h a ha
  · obtain ⟨-, -, hf⟩ := hs
    exact .inl (by rw [hf, Function.update_self])
  · obtain ⟨-, -, c, -, -, -, hsave, hf⟩ := hs
    exact .inr ⟨c, by rw [hf, Function.update_self], fmt.restore_save hsave⟩

/-- An operation that leaves what a restart can read. -/
def Op.Lasting (fmt : Format N α C V) : Op N α → Prop
  | .add _ => False
  | .del _ => True
  | .change a => fmt.listed (fmt.name a) ∧ fmt.Storable (fmt.view a)

/-- The last operation on every name leaves what a restart can read. -/
def Kept (fmt : Format N α C V) : List (Op N α) → Prop
  | [] => True
  | op :: ops => (op.name fmt ∈ ops.map (Op.name fmt) ∨ op.Lasting fmt) ∧ Kept fmt ops

/-- The entry an operation leaves in memory is sound iff the operation is lasting. -/
theorem Step.sound_iff_lasting (hs : Step fmt s op s') (hp : Paired fmt s) :
    (∀ a ∈ s'.mem, fmt.name a = op.name fmt → Sound fmt s' a) ↔ op.Lasting fmt := by
  cases op with
  | add b =>
    refine ⟨fun h => ?_, False.elim⟩
    obtain ⟨-, c, b', hc, hb', -⟩ := h b ((hs.mem_iff hp b).mpr (.inr (.inl rfl))) rfl
    obtain ⟨-, -, hf⟩ := hs
    rw [hf, Function.update_self, Option.some.injEq] at hc
    rw [← hc, fmt.restore_blank] at hb'
    cases hb'
  | del n =>
    refine ⟨fun _ => trivial, fun _ a ha hn => ?_⟩
    rcases (hs.mem_iff hp a).mp ha with ⟨-, hne⟩ | h | h
    · exact absurd hn hne
    · cases h
    · cases h
  | change b =>
    have hmem : ∀ a, a ∈ s'.mem → fmt.name a = fmt.name b → a = b := by
      intro a ha hn
      rcases (hs.mem_iff hp a).mp ha with ⟨-, hne⟩ | h | h
      · exact absurd hn hne
      · cases h
      · exact (Op.change.inj h).symm
    have hb := (hs.mem_iff hp b).mpr (.inr (.inr rfl))
    obtain ⟨-, -, c, -, -, -, hsave, hf⟩ := hs
    have hfile : s'.files (fmt.name b) = some c := by rw [hf, Function.update_self]
    constructor
    · intro h
      obtain ⟨hlisted, c', b', -, hb', hview⟩ := h b hb rfl
      exact ⟨hlisted, hview ▸ fmt.storable_of_restore hb'⟩
    · rintro ⟨hlisted, hstorable⟩ a ha hn
      obtain rfl := hmem a ha hn
      obtain ⟨b', hb', hview⟩ := fmt.restore_save hsave hstorable
      exact ⟨hlisted, c, b', hfile, hb', hview⟩

/-- What a run leaves: everything is sound iff what the run does not touch was, and the operations
are kept.

**Proof sketch.** Induction on the run.  After the first step the entries that the rest does not touch
are those of other names, which did not change, and the one the step left. -/
theorem Run.sound_iff {ops : List (Op N α)} (h : Run fmt s ops s') (hp : Paired fmt s) :
    (∀ a ∈ s'.mem, Sound fmt s' a) ↔
      (∀ a ∈ s.mem, fmt.name a ∉ ops.map (Op.name fmt) → Sound fmt s a) ∧ Kept fmt ops := by
  induction h with
  | nil s => simp [Kept]
  | @cons s s₁ t op ops hs _ ih =>
    rw [ih (hs.paired hp), Kept, ← and_assoc]
    refine and_congr ?_ Iff.rfl
    rw [← hs.sound_iff_lasting hp]
    constructor
    · intro h
      refine ⟨fun a ha hn => ?_, ?_⟩
      · rw [List.map_cons, List.mem_cons, not_or] at hn
        rw [← hs.sound_of_ne hn.1]
        exact h a ((hs.mem_iff hp a).mpr (.inl ⟨ha, hn.1⟩)) hn.2
      · by_cases hmem : op.name fmt ∈ ops.map (Op.name fmt)
        · exact .inl hmem
        · exact .inr fun a ha hn => h a ha (hn ▸ hmem)
    · rintro ⟨h, hop⟩ a ha hn
      by_cases hname : fmt.name a = op.name fmt
      · exact hop.resolve_left (hname ▸ hn) a ha hname
      · rw [hs.sound_of_ne hname]
        refine h a ?_ ?_
        · rcases (hs.mem_iff hp a).mp ha with ⟨ha, -⟩ | rfl | rfl
          · exact ha
          · exact absurd rfl hname
          · exact absurd rfl hname
        · rw [List.map_cons, List.mem_cons, not_or]
          exact ⟨hname, hn⟩

/-- What every step keeps, a run keeps. -/
theorem Run.paired_origin {ops : List (Op N α)} (h : Run fmt s ops s') (hp : Paired fmt s)
    (ho : ∀ a ∈ s.mem, Origin fmt s a) : Paired fmt s' ∧ ∀ a ∈ s'.mem, Origin fmt s' a := by
  induction h with
  | nil s => exact ⟨hp, ho⟩
  | cons hs _ ih => exact ih (hs.paired hp) (hs.origin hp ho)

/-- After a run from a state in which memory and files agree, files are paired with entries and have an
origin. -/
theorem Run.paired_origin_of_synced {ops : List (Op N α)} (h : Run fmt s ops s') (hs : Synced fmt s) :
    Paired fmt s' ∧ ∀ a ∈ s'.mem, Origin fmt s' a := by
  refine h.paired_origin hs.toPaired fun a ha => ?_
  obtain ⟨-, c, b, hc, hb⟩ := hs.sound a ha
  exact .inr ⟨c, hc, fun _ => ⟨b, hb⟩⟩

/-- **Restarting after a run** from a state in which memory and files agree: it gives the entries in
memory iff the operations are kept. -/
theorem Run.restarts_iff_keeps {ops : List (Op N α)} (h : Run fmt s ops s') (hs : Synced fmt s)
    {ls : List N} (hls : Lists fmt s' ls) : Restarts fmt s' ls ↔ Kept fmt ops := by
  obtain ⟨hp, ho⟩ := h.paired_origin_of_synced hs
  rw [restarts_iff_sound hp ho hls, h.sound_iff hs.toPaired, and_iff_right]
  exact fun a ha _ => hs.sound a ha

/-- **A lossy restart after a run** gives the entries in memory iff the operations are kept and all
entries in memory are spared. -/
theorem Run.restarts_loss_iff {ops : List (Op N α)} (h : Run fmt s ops s') (hs : Synced fmt s)
    (l : Loss fmt) {ls : List N} (hls : Lists fmt s' ls) :
    Restarts l.format s' ls ↔ Kept fmt ops ∧ ∀ a ∈ s'.mem, l.Spared (fmt.view a) := by
  obtain ⟨hp, ho⟩ := h.paired_origin_of_synced hs
  rw [l.restarts_iff_loss hp ho hls, h.restarts_iff_keeps hs hls]

end Runs

end Mirror
