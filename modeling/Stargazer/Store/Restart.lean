import Stargazer.Store.Tariffs

set_option relaxedAutoImplicit false
set_option autoImplicit false

/-!
# Restarting with the file store

The registries of services and tariffs with their directories, operations on both in any order, and
a restart, which reads them again.

An entry that was added and not changed since has an empty file, and a single one of these makes the
restart fail.  What was changed last is there again after a restart if its texts and its time spans
survive their files.  The time spans of tariffs are lost, but for their first numbers, where `errno` is
`ERANGE` when a tariff is read: files of other kinds are read before.

## Main definitions

* `Stargazer.RegistryFiles`, `Stargazer.RegistryFiles.step` — both registries with their files.
* `Stargazer.RegistryFiles.Restarts` — reading everything again gives what is there.
* `Stargazer.RegistryFiles.Kept` — the last operation on every entry leaves what can be read.

## Main results

* `Stargazer.RegistryFiles.restarts_iff` — after a run of successful operations a restart gives what
  is there iff the operations are kept.
-/

namespace Stargazer

open Transition

/-- The registries of services and tariffs with their files. -/
structure RegistryFiles where
  /-- The services. -/
  services : ServiceFiles := {}
  /-- The tariffs. -/
  tariffs : TariffFiles := {}

/-- An operation on one of the registries. -/
inductive FileOp
  /-- On the services. -/
  | service (op : ServiceOp)
  /-- On the tariffs. -/
  | tariff (op : TariffOp)

namespace FileOp

/-- The operations on services, as the mirror has them. -/
def service? : FileOp → Option (Mirror.Op String FullServiceConf)
  | .service op => some op.mirror
  | .tariff _ => none

/-- The operations on tariffs, as the mirror has them. -/
def tariff? : FileOp → Option (Mirror.Op String TariffData)
  | .service _ => none
  | .tariff op => some op.mirror

end FileOp

namespace RegistryFiles

section Definitions

variable (lib : CDouble) (servicesDir tariffsDir : String)

/-- A successful operation. -/
def step (s : RegistryFiles) : FileOp → Option RegistryFiles
  | .service op => (s.services.step lib servicesDir op).map fun services => { s with services }
  | .tariff op => (s.tariffs.step lib op).map fun tariffs => { s with tariffs }

/-- `ServicesImpl::Read` and `TariffsImpl::ReadTariffs` succeed and give the entries that are there,
for directories that are listed in the given orders; `isRange` tells of every tariff whether `errno` is
`ERANGE` when its file has been read. -/
def Restarts (isRange : String → Bool) (s : RegistryFiles) (serviceFiles tariffFiles : List (List Char)) :
    Prop :=
  s.services.Restarts lib servicesDir serviceFiles ∧
    s.tariffs.Restarts lib tariffsDir isRange tariffFiles

/-- Memory and files agree, as they do after a start. -/
def Synced (s : RegistryFiles) : Prop :=
  Mirror.Synced (serviceFormat lib servicesDir) s.services.mirror ∧
    Mirror.Synced (tariffFormat lib tariffsDir) s.tariffs.mirror

/-- The last operation on every service and on every tariff is not an addition, and if it is a
change, the name is not empty and what is changed survives a file: the texts of a service are plain,
the time spans of a tariff have short numbers without a sign. -/
def Kept (ops : List FileOp) : Prop :=
  Mirror.Kept (serviceFormat lib servicesDir) (ops.filterMap FileOp.service?) ∧
    Mirror.Kept (tariffFormat lib tariffsDir) (ops.filterMap FileOp.tariff?)

/-- `errno` is not `ERANGE` when a tariff is read, unless its time spans have nothing but their first
numbers. -/
def Spared (isRange : String → Bool) (s : RegistryFiles) : Prop :=
  ∀ t ∈ s.tariffs.registry.tariffs, isRange t.tariffConf.name = true →
    ∀ dir, FilesStore.FirstOnly (t.dirPrice dir)

end Definitions

variable {lib : CDouble} {servicesDir tariffsDir : String}

/-- A new installation: there are neither entries nor files. -/
theorem synced_empty : Synced lib servicesDir tariffsDir {} := by
  refine ⟨⟨⟨List.nodup_nil, fun n => ?_⟩, fun a ha => ?_⟩,
    ⟨⟨List.nodup_nil, fun n => ?_⟩, fun a ha => ?_⟩⟩
  · simp [ServiceFiles.mirror, Mirror.State.names]
  · cases ha
  · simp [TariffFiles.mirror, Mirror.State.names]
  · cases ha

/-- Every run is a run of each of the mirrors. -/
theorem mirror_run {s s' : RegistryFiles} {ops : List FileOp}
    (h : Runs (step lib servicesDir) s ops s') :
    Mirror.Run (serviceFormat lib servicesDir) s.services.mirror
        (ops.filterMap FileOp.service?) s'.services.mirror ∧
      Mirror.Run (tariffFormat lib tariffsDir) s.tariffs.mirror
        (ops.filterMap FileOp.tariff?) s'.tariffs.mirror := by
  induction h with
  | nil s => exact ⟨.nil _, .nil _⟩
  | @cons s s₁ s' op ops _ hstep _ ih =>
    cases op with
    | service op =>
      obtain ⟨services, hs, rfl⟩ := Option.map_eq_some_iff.mp hstep
      exact ⟨.cons (ServiceFiles.mirror_step hs) ih.1, ih.2⟩
    | tariff op =>
      obtain ⟨tariffs, ht, rfl⟩ := Option.map_eq_some_iff.mp hstep
      exact ⟨ih.1, .cons (TariffFiles.mirror_step ht) ih.2⟩

/-- **Restarting after a run**: for every sequence of successful operations and every order in which
the directories are listed, reading the registries again succeeds and gives what is there iff the
operations are kept and the tariffs are spared. -/
theorem restarts_iff {s s' : RegistryFiles} {ops : List FileOp}
    (hs : Synced lib servicesDir tariffsDir s) (h : Runs (step lib servicesDir) s ops s')
    {serviceFiles tariffFiles : List (List Char)}
    (hserviceFiles : ReadDir s'.services.files serviceFiles)
    (htariffFiles : ReadDir s'.tariffs.files tariffFiles) (isRange : String → Bool) :
    Restarts lib servicesDir tariffsDir isRange s' serviceFiles tariffFiles ↔
      Kept lib servicesDir tariffsDir ops ∧ Spared isRange s' := by
  obtain ⟨hservices, htariffs⟩ := @mirror_run lib servicesDir tariffsDir s s' ops h
  unfold Restarts Kept
  rw [ServiceFiles.restarts_iff_mirror hserviceFiles, TariffFiles.restarts_iff_mirror htariffFiles,
    hservices.restarts_iff_keeps hs.1 (nodup_getFileList hserviceFiles ".serv"),
    htariffs.restarts_loss_iff hs.2 _ (nodup_getFileList htariffFiles ".tf"), ← and_assoc]
  rfl

/-- The only file of a directory. -/
theorem readDir_update (k : List Char) (text : List Char) :
    ReadDir (Function.update (fun _ => none) k (some text)) [k] := by
  refine ⟨List.nodup_singleton k, fun f => ?_⟩
  by_cases hf : f = k
  · simp [hf]
  · simp [hf]

namespace Sample

/-- An administrator who may do everything. -/
def root : Priv := ⟨1, 1, 1, 1, 1, 1, 1, 1, 1⟩

/-- A service is added and set, a tariff is added, deleted, and added and set. -/
def ops : List FileOp :=
  [.service (.add root { name := "tv", comment := "", cost := 0, payDay := 0 }),
    .tariff (.add root "night"),
    .service (.change root { name := "tv", comment := "a b", cost := 5, payDay := 7 }),
    .tariff (.del root "night"),
    .tariff (.add root "night"),
    .tariff (.chg root { tariffConf := { name := "night", fee := 10, period := .day } })]

end Sample

/-- After the sample run both registries are there again. -/
theorem restarts_sample : ∃ s', Runs (step .whole "services") {} Sample.ops s' ∧
    Restarts .whole "services" "tariffs" (fun _ => false) s' [entryFile ".serv" "tv"]
      [entryFile ".tf" "night"] := by
  have hrun : ∃ s', Runs (step .whole "services") {} Sample.ops s' ∧
      (∃ text, s'.services.files =
        Function.update (fun _ => none) (entryFile ".serv" "tv") (some text)) ∧
      ∃ text, s'.tariffs.files =
        Function.update (fun _ => none) (entryFile ".tf" "night") (some text) := by
    refine ⟨_, .cons trivial rfl (.cons trivial rfl (.cons trivial rfl (.cons trivial rfl
      (.cons trivial rfl (.cons trivial rfl (.nil _)))))), ⟨_, Function.update_idem _ _ _⟩, ?_⟩
    exact ⟨_, (Function.update_idem _ _ _).trans ((Function.update_idem _ _ _).trans
      (Function.update_idem _ _ _))⟩
  obtain ⟨s', hrun, ⟨text, hservices⟩, ⟨text', htariffs⟩⟩ := hrun
  refine ⟨s', hrun, (restarts_iff synced_empty hrun ?_ ?_ _).mpr ⟨⟨?_, ?_⟩, fun _ _ h => by cases h⟩⟩
  · exact hservices ▸ readDir_update _ _
  · exact htariffs ▸ readDir_update _ _
  · have htexts : ConfigFile.ValueOk "tv".toList ∧ ConfigFile.ValueOk "a b".toList := by decide
    have hname : "tv" ≠ "" := by decide
    exact ⟨.inl (by decide), .inr ⟨hname, htexts⟩, trivial⟩
  · have hdir : FilesStore.DirPriceStorable {} := by constructor <;> decide
    have htimeout : IsTime 0 := by decide
    have hname : "night" ≠ "" := by decide
    exact ⟨.inl (by decide), .inl (by decide), .inl (by decide),
      .inr ⟨hname, fun _ => hdir, htimeout⟩, trivial⟩

/-- **A tariff that is only added makes the restart fail.** -/
theorem added_tariff_lost : ¬ ∀ (ops : List FileOp) (s' : RegistryFiles),
    Runs (step .whole "services") {} ops s' → ∀ ls ls', ReadDir s'.services.files ls →
      ReadDir s'.tariffs.files ls' →
        Restarts .whole "services" "tariffs" (fun _ => false) s' ls ls' := by
  intro h
  have hrestarts := h [.tariff (.add Sample.root "night")] _ (.cons trivial rfl (.nil _)) []
    [entryFile ".tf" "night"] ⟨List.nodup_nil, by simp⟩ (readDir_update _ _)
  have hread := hrestarts.2.1
  have hlist : getFileList [entryFile ".tf" "night"] ".tf" = ["night"] := by decide
  simp only [TariffFiles.read, hlist, readLoop, Function.update_self,
    FilesStore.restoreTariff_nil] at hread
  cases hread

end RegistryFiles

end Stargazer
