import Mathlib.Logic.Function.Basic
import FlowType.Runs
import FlowType.UpdateManifest

/-! The update worker of the Windows program and `install` on the thread of the user
interface: what is checked, downloaded, verified and offered, and what the state file keeps
over a restart. A command runs as a whole, but a check waits for the network in between and
`install` runs beside the worker. Texts of the user interface are left out. -/
namespace FlowType

namespace UpdateWorker

inductive UpdateAction
  | none | check | download | cancel | install
  deriving DecidableEq, Repr

structure UpdateSnapshot where
  action : UpdateAction
  progress : Option (Nat × Nat) := Option.none
  version : Option String := Option.none
  deriving DecidableEq, Repr

def UpdateSnapshot.idle : UpdateSnapshot := { action := .check }

/-- A file below the directory of updates: its directory is a version. -/
abbrev InstallerPath := String × String

structure PersistedUpdate where
  lastSuccessfulCheck : Nat := 0
  highestVerifiedVersion : Option String := none
  jobId : Option String := none
  manifest : Option UpdateManifest := none
  installerPath : Option InstallerPath := none
  verified : Bool := false
  deriving DecidableEq, Repr

structure ActiveDownload where
  path : InstallerPath
  manifest : UpdateManifest
  deriving DecidableEq, Repr

inductive CheckError
  | noRelease | other
  deriving DecidableEq, Repr

/-- How far `start_download` gets. -/
inductive DownloadOutcome
  | noManager
  | noJob
  | job (id : String) (saved resumed : Bool)
  deriving DecidableEq, Repr

/-- What the job tells `poll_download`. -/
inductive JobReport
  | noState
  | notCompleted
  | transferred (content : Installer)
  | error
  | noProgress
  | progress (transferred : Nat) (total : Option Nat)
  deriving DecidableEq, Repr

/-- Where `install` is: `save` holds what it has read from the state file. -/
inductive InstallPhase
  | verify
  | load
  | save (loaded : PersistedUpdate)
  | fail
  | launch
  deriving DecidableEq, Repr

structure Installation where
  manifest : UpdateManifest
  path : InstallerPath
  phase : InstallPhase := .verify
  deriving DecidableEq, Repr

end UpdateWorker

/-- The program with the state file and the installers that outlive it. `persisted` is the
worker's copy of the state file. `lowered` records that a write of the state file put an
older highest verified version in the place of a newer one. -/
structure UpdateWorker where
  build : UpdateWorker.Build
  disk : UpdateWorker.PersistedUpdate := {}
  files : UpdateWorker.InstallerPath → Option UpdateWorker.Installer := fun _ => none
  snapshot : UpdateWorker.UpdateSnapshot := .idle
  manifest : Option UpdateWorker.UpdateManifest := none
  installerPath : Option UpdateWorker.InstallerPath := none
  persisted : UpdateWorker.PersistedUpdate := {}
  active : Option UpdateWorker.ActiveDownload := none
  available : Option UpdateWorker.UpdateManifest := none
  checking : Bool := false
  installing : Option UpdateWorker.Installation := none
  lowered : Bool := false

namespace UpdateWorker
open Machine

def setSnapshot (s : UpdateWorker) (snapshot : UpdateSnapshot) (manifest : Option UpdateManifest)
    (installerPath : Option InstallerPath) : UpdateWorker :=
  { s with
    snapshot
    manifest := manifest.or s.manifest
    installerPath := installerPath.or s.installerPath }

def savePersisted (s : UpdateWorker) (saved : Bool) (value : PersistedUpdate) : UpdateWorker :=
  if saved then
    { s with
      disk := value
      lowered := s.lowered ||
        decide (floor value.highestVerifiedVersion < floor s.disk.highestVerifiedVersion) }
  else s

def persist (s : UpdateWorker) (saved : Bool) (persisted : PersistedUpdate) : UpdateWorker :=
  { s with persisted }.savePersisted saved persisted

def removeFile (s : UpdateWorker) (path : InstallerPath) : UpdateWorker :=
  { s with files := Function.update s.files path none }

def verifies (s : UpdateWorker) (path : InstallerPath) (manifest : UpdateManifest) : Bool :=
  verifyInstaller s.build (s.files path) manifest.windows

theorem isSome_of_verifies {s : UpdateWorker} {path : InstallerPath} {manifest : UpdateManifest}
    (h : s.verifies path manifest = true) : (s.files path).isSome := by
  cases hfile : s.files path with
  | none => simp [verifies, verifyInstaller, hfile] at h
  | some installer => rfl

def downloadingSnapshot (manifest : UpdateManifest) (transferred total : Nat) : UpdateSnapshot :=
  { action := .cancel, progress := some (transferred, total), version := some manifest.version }

def setAvailable (s : UpdateWorker) (manifest : UpdateManifest) : UpdateWorker :=
  s.setSnapshot { action := .download, version := some manifest.version } (some manifest) none

def installSnapshot (manifest : UpdateManifest) : UpdateSnapshot :=
  { action := .install
    progress := some (manifest.windows.size, manifest.windows.size)
    version := some manifest.version }

def setReady (s : UpdateWorker) (manifest : UpdateManifest) (path : InstallerPath) :
    UpdateWorker :=
  s.setSnapshot (installSnapshot manifest) (some manifest) (some path)

def setFailure (s : UpdateWorker) : UpdateWorker := s.setSnapshot { action := .check } none none

def setDownloadFailure (s : UpdateWorker) (manifest : UpdateManifest) : UpdateWorker :=
  s.setSnapshot { action := .download, version := some manifest.version } (some manifest) none

def setInstallFailure (s : UpdateWorker) (manifest : UpdateManifest) (path : InstallerPath) :
    UpdateWorker :=
  s.setSnapshot (installSnapshot manifest) (some manifest) (some path)

/-- `check_for_update` up to the network. -/
def beginCheck (s : UpdateWorker) : UpdateWorker :=
  { s.setSnapshot { action := .none } none none with checking := true }

def found (s : UpdateWorker) (manifest : UpdateManifest) (saved : Bool) : UpdateWorker :=
  let s₁ := { s with available := some manifest }
  let readyPath := s.persisted.installerPath.filter fun path =>
    s.persisted.verified && (s.files path).isSome && s.verifies path manifest
  match readyPath with
  | some path =>
    (s₁.persist saved { s.persisted with manifest := some manifest }).setReady manifest path
  | none => s₁.setAvailable manifest

/-- `check_for_update` after the network; `saved` and `savedReady` say which writes of the
state file succeed. -/
def endCheck (s : UpdateWorker) (fetched : Except CheckError UpdateManifest) (now : Nat)
    (saved savedReady : Bool) : UpdateWorker :=
  let s₀ := { s with checking := false }
  match fetched with
  | .error .noRelease =>
    { s₀ with available := none }.setSnapshot { action := .check } none none
  | .error .other => s₀.setFailure
  | .ok manifest =>
    if verifyManifest s.build manifest = false then s₀.setFailure
    else if isOlder s.persisted.highestVerifiedVersion manifest.version then
      { s₀ with persisted := { s.persisted with lastSuccessfulCheck := now } }.setFailure
    else
      let s₁ := s₀.persist saved { s.persisted with
        lastSuccessfulCheck := now
        highestVerifiedVersion :=
          raiseFloor s.persisted.highestVerifiedVersion manifest.version }
      match compareVersions manifest.version s.build.version with
      | some .gt => s₁.found manifest savedReady
      | some _ => { s₁ with available := none }.setSnapshot { action := .check } none none
      | none => s₁.setFailure

/-- The file of an earlier download goes before the job is created. -/
def startDownload (s : UpdateWorker) (manifest : UpdateManifest) :
    DownloadOutcome → UpdateWorker
  | .noManager => s.setDownloadFailure manifest
  | .noJob => match fileName manifest.windows.url with
    | none => s.setDownloadFailure manifest
    | some name => (s.removeFile (manifest.version, name)).setDownloadFailure manifest
  | .job id saved resumed => match fileName manifest.windows.url with
    | none => s.setDownloadFailure manifest
    | some name =>
      let path := (manifest.version, name)
      let s₁ := (s.removeFile path).persist saved { s.persisted with
        jobId := some id
        manifest := some manifest
        installerPath := some path
        verified := false }
      if saved && resumed then
        { s₁ with active := some { path, manifest } }.setSnapshot
          (downloadingSnapshot manifest 0 manifest.windows.size) (some manifest) (some path)
      else s₁.setDownloadFailure manifest

def download (s : UpdateWorker) (outcome : DownloadOutcome) : UpdateWorker :=
  match s.active, s.available with
  | none, some manifest => s.startDownload manifest outcome
  | _, _ => s

/-- `active.take()`; the job and its file go. -/
def takeActive (s : UpdateWorker) : UpdateWorker :=
  match s.active with
  | none => s
  | some download => { s.removeFile download.path with active := none }

def cancel (s : UpdateWorker) (saved : Bool) : UpdateWorker :=
  let s₁ := s.takeActive.persist saved { s.persisted with
    jobId := none
    installerPath := none
    verified := false }
  match s.available with
  | some manifest => s₁.setAvailable manifest
  | none => s₁.setSnapshot .idle none none

/-- The loop's answer to `PollResult::Failed`. -/
def pollFailed (s : UpdateWorker) (manifest : UpdateManifest) (saved : Bool) : UpdateWorker :=
  ({ s with active := none }.persist saved { s.persisted with
    jobId := none
    verified := false }).setDownloadFailure manifest

def completeJob (s : UpdateWorker) (download : ActiveDownload) (content : Installer) :
    UpdateWorker :=
  { s with files := Function.update s.files download.path (some content) }.setSnapshot
    { action := .none, version := some download.manifest.version } (some download.manifest)
    (some download.path)

def pollDownload (s : UpdateWorker) (download : ActiveDownload) (saved : Bool) :
    JobReport → UpdateWorker
  | .transferred content =>
    let s₁ := s.completeJob download content
    if s₁.verifies download.path download.manifest then
      ({ s₁ with active := none }.persist saved { s₁.persisted with
        jobId := none
        verified := true }).setReady download.manifest download.path
    else (s₁.removeFile download.path).pollFailed download.manifest saved
  | .progress transferred total =>
    let progress := (transferred, total.getD download.manifest.windows.size)
    s.setSnapshot
      { action := .cancel, progress := some progress, version := some download.manifest.version }
      (some download.manifest) (some download.path)
  | _ => s.pollFailed download.manifest saved

def restoreDownload (s : UpdateWorker) (jobFound : Bool) : UpdateWorker :=
  match s.persisted.manifest, s.persisted.installerPath with
  | some manifest, some path =>
    if s.persisted.verified && (s.files path).isSome && s.verifies path manifest then
      s.setReady manifest path
    else match s.persisted.jobId with
      | none => s
      | some _ =>
        if jobFound then
          { s with active := some { path, manifest } }.setSnapshot
            (downloadingSnapshot manifest 0 manifest.windows.size) (some manifest) (some path)
        else s
  | _, _ => s

/-- What the worker keeps of the state file it finds: the cached manifest has to pass the
verification once more. -/
def loadPersisted (build : Build) (disk : PersistedUpdate) : PersistedUpdate :=
  match disk.manifest.filter fun cached => verifyManifest build cached with
  | none => { disk with manifest := none, jobId := none, installerPath := none, verified := false }
  | some manifest => { disk with manifest := some manifest }

def started (s : UpdateWorker) (build : Build) : UpdateWorker :=
  { s with
    build
    snapshot := .idle
    manifest := none
    installerPath := none
    persisted := loadPersisted build s.disk
    active := none
    available := (loadPersisted build s.disk).manifest
    checking := false
    installing := none }

/-- The start of a process. `build` is another one after an upgrade; `jobFound` says that
the job of the state file still exists. The state file is one that the worker has written and
is taken to be read: after an error the program goes on with the defaults and writes them over
the file, and the highest verified version is gone. -/
def newProcess (s : UpdateWorker) (build : Build) (jobFound saved : Bool) : UpdateWorker :=
  let s₁ := s.started build
  let s₂ := if s₁.persisted.manifest.isNone then s₁.savePersisted saved s₁.persisted else s₁
  s₂.restoreDownload jobFound

/-- `install` takes what the snapshot was set with last. -/
def beginInstall (s : UpdateWorker) : UpdateWorker :=
  match s.manifest, s.installerPath with
  | some manifest, some path =>
    { s with installing := some { manifest, path } }.setSnapshot
      { action := .none, version := some manifest.version } (some manifest) (some path)
  | _, _ => s

def atPhase (s : UpdateWorker) (installation : Installation) (phase : InstallPhase) :
    UpdateWorker :=
  { s with installing := some { installation with phase } }

/-- The next part of `install`. `ok` is the outcome of what the part asks the system for:
reading and writing the state file, and starting the installer. -/
def install (s : UpdateWorker) (installation : Installation) (ok : Bool) : UpdateWorker :=
  match installation.phase with
  | .verify =>
    if s.verifies installation.path installation.manifest then s.atPhase installation .launch
    else (s.removeFile installation.path).atPhase installation .load
  | .load =>
    if ok && s.disk.manifest.any (fun cached => cached.version == installation.manifest.version) then
      s.atPhase installation (.save { s.disk with
        jobId := none
        installerPath := none
        verified := false })
    else s.atPhase installation .fail
  | .save loaded => (s.savePersisted ok loaded).atPhase installation .fail
  | .fail => { s with installing := none }.setDownloadFailure installation.manifest
  | .launch =>
    if ok then { s with installing := none }
    else { s with installing := none }.setInstallFailure installation.manifest installation.path

inductive Event
  | beginCheck
  | endCheck (fetched : Except CheckError UpdateManifest) (now : Nat) (saved savedReady : Bool)
  | download (outcome : DownloadOutcome)
  | cancel (saved : Bool)
  | pollDownload (saved : Bool) (report : JobReport)
  | newProcess (build : Build) (jobFound saved : Bool)
  | beginInstall
  | install (ok : Bool)

def step (s : UpdateWorker) : Event → Option UpdateWorker
  | .beginCheck => if s.checking then none else some s.beginCheck
  | .endCheck fetched now saved savedReady =>
    if s.checking then some (s.endCheck fetched now saved savedReady) else none
  | .download outcome => if s.checking then none else some (s.download outcome)
  | .cancel saved => if s.checking then none else some (s.cancel saved)
  | .pollDownload saved report =>
    if s.checking then none
    else s.active.map fun download => s.pollDownload download saved report
  | .newProcess build jobFound saved => some (s.newProcess build jobFound saved)
  | .beginInstall => if s.installing.isSome then none else some s.beginInstall
  | .install ok => s.installing.map fun installation => s.install installation ok

/-- The manifest is newer than the program and not below the highest verified version. -/
def Current (build : Build) (highest : Option String) (manifest : UpdateManifest) : Prop :=
  compareVersions manifest.version build.version = some .gt ∧
    floor highest ≤ floor (some manifest.version)

/-- Installation is offered for a current manifest whose signature is verified and for a
file that is verified against it, and the highest verified version was never lowered. -/
def Sound (s : UpdateWorker) : Prop :=
  (s.snapshot.action = .install → ∃ manifest ∈ s.manifest, ∃ path ∈ s.installerPath,
      verifyManifest s.build manifest = true ∧
        Current s.build s.persisted.highestVerifiedVersion manifest ∧
        s.verifies path manifest = true) ∧
    s.lowered = false

/-- What `install` goes on with: a verification that fails is not about the file that is
offered meanwhile, a state file is not written back over one with a newer version, and an
installer that could not be started still fits. -/
def InstallationOk (s : UpdateWorker) (installation : Installation) (ok : Bool) : Prop :=
  match installation.phase with
  | .verify => s.verifies installation.path installation.manifest = false →
    s.snapshot.action = .install → s.installerPath ≠ some installation.path
  | .save loaded => ok = true →
    floor s.disk.highestVerifiedVersion ≤ floor loaded.highestVerifiedVersion
  | .launch => ok = false →
    Current s.build s.persisted.highestVerifiedVersion installation.manifest ∧
      s.verifies installation.path installation.manifest = true
  | _ => True

/-- A verified installer that is found at the start, and a download that ends, are of a
current version. -/
def UpdateOk (s : UpdateWorker) : Event → Prop
  | .newProcess build _ _ => ∀ manifest ∈ s.disk.manifest, ∀ path ∈ s.disk.installerPath,
    verifyManifest build manifest = true → s.disk.verified = true →
      verifyInstaller build (s.files path) manifest.windows = true →
        Current build s.disk.highestVerifiedVersion manifest
  | .pollDownload _ (.transferred content) => ∀ download ∈ s.active,
    verifyInstaller s.build (some content) download.manifest.windows = true →
      Current s.build s.persisted.highestVerifiedVersion download.manifest
  | .install ok => ∀ installation ∈ s.installing, s.InstallationOk installation ok
  | _ => True

/-- What holds whatever is offered: manifests in memory have passed the verification, and
the state file and what `install` has read of it are never ahead of the worker. -/
structure Base (s : UpdateWorker) : Prop where
  manifest : ∀ manifest ∈ s.manifest, verifyManifest s.build manifest = true
  available : ∀ manifest ∈ s.available, verifyManifest s.build manifest = true
  active : ∀ download ∈ s.active, verifyManifest s.build download.manifest = true
  installing : ∀ installation ∈ s.installing, verifyManifest s.build installation.manifest = true
  disk : floor s.disk.highestVerifiedVersion ≤ floor s.persisted.highestVerifiedVersion
  loaded : ∀ installation ∈ s.installing, ∀ loaded, installation.phase = .save loaded →
    floor loaded.highestVerifiedVersion ≤ floor s.persisted.highestVerifiedVersion
  lowered : s.lowered = false

structure Inv (s : UpdateWorker) : Prop where
  base : s.Base
  sound : s.Sound

theorem Base.shown {s : UpdateWorker} (h : s.Base) (hne : s.snapshot.action ≠ .install) : s.Inv :=
  ⟨h, fun hinstall => absurd hinstall hne, h.lowered⟩

theorem Base.setSnapshot {s : UpdateWorker} (h : s.Base) (snapshot : UpdateSnapshot)
    {manifest : Option UpdateManifest} (installerPath : Option InstallerPath)
    (hmanifest : ∀ m ∈ manifest, verifyManifest s.build m = true) :
    (s.setSnapshot snapshot manifest installerPath).Base := by
  refine ⟨?_, h.available, h.active, h.installing, h.disk, h.loaded, h.lowered⟩
  intro m hm
  cases manifest with
  | none => exact h.manifest m hm
  | some found => exact hmanifest m hm

theorem Base.removeFile {s : UpdateWorker} (h : s.Base) (path : InstallerPath) :
    (s.removeFile path).Base :=
  ⟨h.manifest, h.available, h.active, h.installing, h.disk, h.loaded, h.lowered⟩

theorem Base.withPersisted {s : UpdateWorker} (h : s.Base) {persisted : PersistedUpdate}
    (hle : floor s.persisted.highestVerifiedVersion ≤ floor persisted.highestVerifiedVersion) :
    Base { s with persisted } := by
  refine ⟨h.manifest, h.available, h.active, h.installing, h.disk.trans hle, ?_, h.lowered⟩
  intro installation hmem loaded hphase
  exact (h.loaded installation hmem loaded hphase).trans hle

/-- A write that does not lower the version, of a value the worker is not behind of. -/
theorem Base.savePersisted {s : UpdateWorker} (h : s.Base) (saved : Bool)
    {value : PersistedUpdate}
    (hdisk : floor s.disk.highestVerifiedVersion ≤ floor value.highestVerifiedVersion)
    (hvalue : floor value.highestVerifiedVersion ≤ floor s.persisted.highestVerifiedVersion) :
    (s.savePersisted saved value).Base := by
  unfold UpdateWorker.savePersisted
  split
  · refine ⟨h.manifest, h.available, h.active, h.installing, hvalue, h.loaded, ?_⟩
    simp [h.lowered, not_lt.mpr hdisk]
  · exact h

theorem Base.persist {s : UpdateWorker} (h : s.Base) (saved : Bool) (persisted : PersistedUpdate)
    (hle : floor s.persisted.highestVerifiedVersion ≤ floor persisted.highestVerifiedVersion) :
    (s.persist saved persisted).Base :=
  (h.withPersisted hle).savePersisted saved (h.disk.trans hle) le_rfl

section
variable (s : UpdateWorker) (saved : Bool) (value : PersistedUpdate)

@[simp] theorem savePersisted_build : (s.savePersisted saved value).build = s.build := by
  unfold savePersisted
  split <;> rfl

@[simp] theorem savePersisted_files : (s.savePersisted saved value).files = s.files := by
  unfold savePersisted
  split <;> rfl

@[simp] theorem savePersisted_snapshot :
    (s.savePersisted saved value).snapshot = s.snapshot := by
  unfold savePersisted
  split <;> rfl

@[simp] theorem savePersisted_persisted :
    (s.savePersisted saved value).persisted = s.persisted := by
  unfold savePersisted
  split <;> rfl

@[simp] theorem persist_build : (s.persist saved value).build = s.build := by simp [persist]

@[simp] theorem persist_files : (s.persist saved value).files = s.files := by simp [persist]

@[simp] theorem persist_persisted : (s.persist saved value).persisted = value := by simp [persist]

end

/-- What is offered is sound exactly when it is current and verified. -/
theorem setReady_sound_iff {s : UpdateWorker} (h : s.Base) {manifest : UpdateManifest}
    (path : InstallerPath) (hmanifest : verifyManifest s.build manifest = true) :
    (s.setReady manifest path).Sound ↔
      Current s.build s.persisted.highestVerifiedVersion manifest ∧
        s.verifies path manifest = true := by
  constructor
  · intro hsound
    obtain ⟨other, hother, otherPath, hotherPath, _, hcurrent, hverifies⟩ := hsound.1 rfl
    cases hother
    cases hotherPath
    exact ⟨hcurrent, hverifies⟩
  · rintro ⟨hcurrent, hverifies⟩
    exact ⟨fun _ => ⟨manifest, rfl, path, rfl, hmanifest, hcurrent, hverifies⟩, h.lowered⟩

theorem Base.setReady {s : UpdateWorker} (h : s.Base) {manifest : UpdateManifest}
    (path : InstallerPath) (hmanifest : verifyManifest s.build manifest = true) :
    (s.setReady manifest path).Base := by
  apply h.setSnapshot
  rintro _ ⟨⟩
  exact hmanifest

/-- Offering a verified file is sound exactly for a current manifest. -/
theorem setReady_keeps {s : UpdateWorker} (h : s.Base) {manifest : UpdateManifest}
    (path : InstallerPath) (hmanifest : verifyManifest s.build manifest = true)
    (hverifies : s.verifies path manifest = true) :
    ((s.setReady manifest path).Sound ↔
        Current s.build s.persisted.highestVerifiedVersion manifest) ∧
      (Current s.build s.persisted.highestVerifiedVersion manifest →
        (s.setReady manifest path).Inv) := by
  have hsound := setReady_sound_iff h path hmanifest
  rw [and_iff_left hverifies] at hsound
  exact ⟨hsound, fun hcurrent => ⟨h.setReady path hmanifest, hsound.mpr hcurrent⟩⟩

theorem Base.setDownloadFailure {s : UpdateWorker} (h : s.Base) {manifest : UpdateManifest}
    (hmanifest : verifyManifest s.build manifest = true) : (s.setDownloadFailure manifest).Inv := by
  apply Base.shown
  · apply h.setSnapshot
    rintro _ ⟨⟩
    exact hmanifest
  · simp [UpdateWorker.setDownloadFailure, UpdateWorker.setSnapshot]

theorem Base.setAvailable {s : UpdateWorker} (h : s.Base) {manifest : UpdateManifest}
    (hmanifest : verifyManifest s.build manifest = true) : (s.setAvailable manifest).Inv :=
  h.setDownloadFailure hmanifest

theorem Base.setFailure {s : UpdateWorker} (h : s.Base) : s.setFailure.Inv := by
  apply Base.shown
  · apply h.setSnapshot
    rintro _ ⟨⟩
  · simp [UpdateWorker.setFailure, UpdateWorker.setSnapshot]

theorem beginCheck_inv {s : UpdateWorker} (h : s.Base) : s.beginCheck.Inv := by
  apply Base.shown
  · exact ⟨h.manifest, h.available, h.active, h.installing, h.disk, h.loaded, h.lowered⟩
  · simp [beginCheck, setSnapshot]

theorem Base.withAvailable {s : UpdateWorker} (h : s.Base) {available : Option UpdateManifest}
    (havailable : ∀ m ∈ available, verifyManifest s.build m = true) :
    Base { s with available } :=
  ⟨h.manifest, havailable, h.active, h.installing, h.disk, h.loaded, h.lowered⟩

theorem Base.withoutActive {s : UpdateWorker} (h : s.Base) : Base { s with active := none } := by
  refine ⟨h.manifest, h.available, ?_, h.installing, h.disk, h.loaded, h.lowered⟩
  rintro _ ⟨⟩

theorem found_inv {s : UpdateWorker} (h : s.Base) {manifest : UpdateManifest}
    (hmanifest : verifyManifest s.build manifest = true)
    (hcurrent : Current s.build s.persisted.highestVerifiedVersion manifest) (saved : Bool) :
    (s.found manifest saved).Inv := by
  have hbase : Base { s with available := some manifest } := by
    apply h.withAvailable
    rintro _ ⟨⟩
    exact hmanifest
  unfold found
  dsimp only
  split
  · next path hpath =>
    have hready := (Option.filter_eq_some_iff.mp hpath).2
    simp only [Bool.and_eq_true] at hready
    have hsaved := hbase.persist saved { s.persisted with manifest := some manifest } le_rfl
    refine (setReady_keeps hsaved _ ?_ ?_).2 ?_
    · simpa using hmanifest
    · simpa [verifies] using hready.2
    · simpa using hcurrent
  · exact hbase.setAvailable hmanifest

theorem endCheck_inv {s : UpdateWorker} (h : s.Base) (fetched : Except CheckError UpdateManifest)
    (now : Nat) (saved savedReady : Bool) : (s.endCheck fetched now saved savedReady).Inv := by
  have hended : Base { s with checking := false } :=
    ⟨h.manifest, h.available, h.active, h.installing, h.disk, h.loaded, h.lowered⟩
  have hnothing : ∀ m ∈ (none : Option UpdateManifest), verifyManifest s.build m = true := by
    rintro _ ⟨⟩
  unfold endCheck
  dsimp only
  split
  · apply Base.shown
    · exact (hended.withAvailable hnothing).setSnapshot _ _ hnothing
    · simp [setSnapshot]
  · exact hended.setFailure
  · next manifest =>
    split
    · exact hended.setFailure
    · next hverified =>
      split
      · apply Base.setFailure
        exact hended.withPersisted le_rfl
      · next holder =>
        have hmanifest : verifyManifest s.build manifest = true := by simpa using hverified
        -- the bound rises to the version that was found
        obtain ⟨hfloor, hraised⟩ := floor_raiseFloor
          (parseVersion_isSome_of_verifyManifest hmanifest) (by simpa using holder)
        have hsaved := hended.persist saved { s.persisted with
          lastSuccessfulCheck := now
          highestVerifiedVersion :=
            raiseFloor s.persisted.highestVerifiedVersion manifest.version }
          (hfloor.trans_eq hraised.symm)
        split
        · next hnewer =>
          apply found_inv hsaved
          · simpa using hmanifest
          · simpa [Current, hraised] using hnewer
        · apply Base.shown
          · apply Base.setSnapshot
            · apply hsaved.withAvailable
              rintro _ ⟨⟩
            · rintro _ ⟨⟩
          · simp [setSnapshot]
        · exact hsaved.setFailure

theorem startDownload_inv {s : UpdateWorker} (h : s.Base) {manifest : UpdateManifest}
    (hmanifest : verifyManifest s.build manifest = true) (outcome : DownloadOutcome) :
    (s.startDownload manifest outcome).Inv := by
  unfold startDownload
  split
  · exact h.setDownloadFailure hmanifest
  · split
    · exact h.setDownloadFailure hmanifest
    · exact (h.removeFile _).setDownloadFailure hmanifest
  · split
    · exact h.setDownloadFailure hmanifest
    · next id saved resumed _ name _ =>
      have hsaved := (h.removeFile (manifest.version, name)).persist saved { s.persisted with
        jobId := some id
        manifest := some manifest
        installerPath := some (manifest.version, name)
        verified := false } le_rfl
      have hverified : verifyManifest ((s.removeFile (manifest.version, name)).persist saved
          { s.persisted with
            jobId := some id
            manifest := some manifest
            installerPath := some (manifest.version, name)
            verified := false }).build manifest = true := by
        rw [persist_build]
        exact hmanifest
      dsimp only
      split
      · apply Base.shown
        · apply Base.setSnapshot
          · refine ⟨hsaved.manifest, hsaved.available, ?_, hsaved.installing, hsaved.disk,
              hsaved.loaded, hsaved.lowered⟩
            rintro _ ⟨⟩
            exact hverified
          · rintro _ ⟨⟩
            exact hverified
        · simp [setSnapshot, downloadingSnapshot]
      · exact hsaved.setDownloadFailure hverified

theorem download_inv {s : UpdateWorker} (h : s.Inv) (outcome : DownloadOutcome) :
    (s.download outcome).Inv := by
  unfold download
  split
  · next manifest _ havailable =>
    exact startDownload_inv h.base (h.base.available manifest havailable) outcome
  · exact h

theorem takeActive_base {s : UpdateWorker} (h : s.Base) : s.takeActive.Base := by
  unfold takeActive
  split
  · exact h
  · exact (h.removeFile _).withoutActive

theorem takeActive_build (s : UpdateWorker) : s.takeActive.build = s.build := by
  unfold takeActive
  split <;> rfl

theorem takeActive_persisted (s : UpdateWorker) : s.takeActive.persisted = s.persisted := by
  unfold takeActive
  split <;> rfl

theorem cancel_inv {s : UpdateWorker} (h : s.Base) (saved : Bool) : (s.cancel saved).Inv := by
  have hle : floor s.takeActive.persisted.highestVerifiedVersion ≤
      floor s.persisted.highestVerifiedVersion := by rw [takeActive_persisted]
  have hsaved := (takeActive_base h).persist saved { s.persisted with
    jobId := none
    installerPath := none
    verified := false } hle
  unfold cancel
  dsimp only
  split
  · next manifest havailable =>
    apply hsaved.setAvailable
    rw [persist_build, takeActive_build]
    exact h.available manifest havailable
  · apply Base.shown
    · apply hsaved.setSnapshot
      rintro _ ⟨⟩
    · simp [setSnapshot, UpdateSnapshot.idle]

theorem pollFailed_inv {s : UpdateWorker} (h : s.Base) {manifest : UpdateManifest}
    (hmanifest : verifyManifest s.build manifest = true) (saved : Bool) :
    (s.pollFailed manifest saved).Inv := by
  have hsaved := h.withoutActive.persist saved { s.persisted with jobId := none, verified := false } le_rfl
  apply hsaved.setDownloadFailure
  simpa using hmanifest

theorem completeJob_base {s : UpdateWorker} (h : s.Base) {download : ActiveDownload}
    (hmanifest : verifyManifest s.build download.manifest = true) (content : Installer) :
    (s.completeJob download content).Base := by
  apply Base.setSnapshot
  · exact ⟨h.manifest, h.available, h.active, h.installing, h.disk, h.loaded, h.lowered⟩
  · rintro _ ⟨⟩
    exact hmanifest

@[simp] theorem completeJob_build (s : UpdateWorker) (download : ActiveDownload)
    (content : Installer) : (s.completeJob download content).build = s.build := rfl

theorem completeJob_verifies (s : UpdateWorker) (download : ActiveDownload) (content : Installer)
    (manifest : UpdateManifest) : (s.completeJob download content).verifies download.path manifest =
      verifyInstaller s.build (some content) manifest.windows := by
  simp [verifies, completeJob, setSnapshot]

theorem pollDownload_keeps {s : UpdateWorker} (h : s.Base) {download : ActiveDownload}
    (hactive : s.active = some download) (saved : Bool) (report : JobReport) :
    ((s.pollDownload download saved report).Sound ↔ s.UpdateOk (.pollDownload saved report)) ∧
      (s.UpdateOk (.pollDownload saved report) → (s.pollDownload download saved report).Inv) := by
  have hmanifest := h.active download hactive
  have hfine : ∀ {t : UpdateWorker} {P : Prop}, P → t.Inv → (t.Sound ↔ P) ∧ (P → t.Inv) :=
    fun hp ht => ⟨iff_of_true ht.sound hp, fun _ => ht⟩
  cases report with
  | transferred content =>
    have hcompleted := completeJob_base h hmanifest content
    have hok : s.UpdateOk (.pollDownload saved (.transferred content)) ↔
        (verifyInstaller s.build (some content) download.manifest.windows = true →
          Current s.build s.persisted.highestVerifiedVersion download.manifest) := by
      simp [UpdateOk, hactive]
    rw [hok, ← completeJob_verifies s download]
    unfold pollDownload
    dsimp only
    split
    · next hverifies =>
      have hsaved := hcompleted.withoutActive.persist saved
        { (s.completeJob download content).persisted with jobId := none, verified := true } le_rfl
      have hready := setReady_keeps hsaved download.path (by simpa using hmanifest)
        (by simpa [verifies] using hverifies)
      simp only [hverifies, true_implies]
      rw [persist_build, persist_persisted] at hready
      exact hready
    · next hnot =>
      apply hfine (fun hverifies => absurd hverifies hnot)
      exact pollFailed_inv (hcompleted.removeFile _) hmanifest saved
  | progress transferred total =>
    apply hfine trivial
    apply Base.shown
    · apply h.setSnapshot
      rintro _ ⟨⟩
      exact hmanifest
    · simp [pollDownload, setSnapshot]
  | noState => exact hfine trivial (pollFailed_inv h hmanifest saved)
  | notCompleted => exact hfine trivial (pollFailed_inv h hmanifest saved)
  | error => exact hfine trivial (pollFailed_inv h hmanifest saved)
  | noProgress => exact hfine trivial (pollFailed_inv h hmanifest saved)

theorem loadPersisted_highest (build : Build) (disk : PersistedUpdate) :
    (loadPersisted build disk).highestVerifiedVersion = disk.highestVerifiedVersion := by
  unfold loadPersisted
  split <;> rfl

theorem verifyManifest_of_loadPersisted {build : Build} {disk : PersistedUpdate}
    {manifest : UpdateManifest} (h : (loadPersisted build disk).manifest = some manifest) :
    verifyManifest build manifest = true := by
  unfold loadPersisted at h
  split at h
  · cases h
  · next found hfound =>
    obtain rfl : found = manifest := Option.some.inj h
    exact (Option.filter_eq_some_iff.mp hfound).2

theorem started_base {s : UpdateWorker} (hlowered : s.lowered = false) (build : Build) :
    (s.started build).Base := by
  refine ⟨?_, ?_, ?_, ?_, ?_, ?_, hlowered⟩
  · rintro _ ⟨⟩
  · exact fun manifest hmem => verifyManifest_of_loadPersisted hmem
  · rintro _ ⟨⟩
  · rintro _ ⟨⟩
  · exact (congrArg floor (loadPersisted_highest build s.disk)).ge
  · rintro _ ⟨⟩

/-- A verified installer that `restore_download` finds is of a current version. -/
def RestoreOk (s : UpdateWorker) : Prop :=
  ∀ manifest ∈ s.persisted.manifest, ∀ path ∈ s.persisted.installerPath,
    s.persisted.verified = true → s.verifies path manifest = true →
      Current s.build s.persisted.highestVerifiedVersion manifest

theorem restoreDownload_keeps {s : UpdateWorker} (h : s.Base) (hidle : s.snapshot = .idle)
    (hmanifest : ∀ manifest ∈ s.persisted.manifest, verifyManifest s.build manifest = true)
    (jobFound : Bool) :
    ((s.restoreDownload jobFound).Sound ↔ s.RestoreOk) ∧
      (s.RestoreOk → (s.restoreDownload jobFound).Inv) := by
  have hfine : ∀ {t : UpdateWorker}, s.RestoreOk → t.Inv →
      (t.Sound ↔ s.RestoreOk) ∧ (s.RestoreOk → t.Inv) :=
    fun hok ht => ⟨iff_of_true ht.sound hok, fun _ => ht⟩
  have hnothing : s.Inv := h.shown (by simp [hidle, UpdateSnapshot.idle])
  unfold restoreDownload
  split
  · next manifest path hm hp =>
    have hverified := hmanifest manifest hm
    split
    · next hready =>
      simp only [Bool.and_eq_true] at hready
      have hok : s.RestoreOk ↔ Current s.build s.persisted.highestVerifiedVersion manifest := by
        simp [RestoreOk, hm, hp, hready]
      rw [hok]
      exact setReady_keeps h _ hverified hready.2
    · next hnot =>
      have hok : s.RestoreOk := by
        intro other hother otherPath hotherPath hflag hverifies
        obtain rfl : manifest = other := Option.some.inj (hm.symm.trans hother)
        obtain rfl : path = otherPath := Option.some.inj (hp.symm.trans hotherPath)
        have hfile : (s.files path).isSome := isSome_of_verifies hverifies
        simp [hflag, hverifies, hfile] at hnot
      apply hfine hok
      split
      · exact hnothing
      · split
        · apply Base.shown
          · apply Base.setSnapshot
            · refine ⟨h.manifest, h.available, ?_, h.installing, h.disk, h.loaded, h.lowered⟩
              rintro _ ⟨⟩
              exact hverified
            · rintro _ ⟨⟩
              exact hverified
          · simp [setSnapshot, downloadingSnapshot]
        · exact hnothing
  · next hnot =>
    apply hfine ?_ hnothing
    intro manifest hm path hp
    exact absurd hp (hnot manifest path hm)

/-- What the start finds is what the state file holds, as far as it passes the
verification. -/
theorem restoreOk_iff {s t : UpdateWorker} {build : Build} (hbuild : t.build = build)
    (hfiles : t.files = s.files) (hpersisted : t.persisted = loadPersisted build s.disk)
    (jobFound saved : Bool) :
    t.RestoreOk ↔ s.UpdateOk (.newProcess build jobFound saved) := by
  subst hbuild
  simp only [RestoreOk, UpdateOk, verifies, hfiles, hpersisted, loadPersisted_highest]
  unfold loadPersisted
  split
  · next hnone =>
    have hrejected : ∀ manifest ∈ s.disk.manifest, ¬ verifyManifest t.build manifest = true :=
      fun manifest hmem hverified => Option.filter_eq_none_iff.mp hnone manifest hmem hverified
    constructor
    · intro _ manifest hmem path _ hverified
      exact absurd hverified (hrejected manifest hmem)
    · rintro _ _ ⟨⟩
  · next found hfound =>
    obtain ⟨hmem, hverified⟩ := Option.filter_eq_some_iff.mp hfound
    simp [hmem, hverified]

theorem newProcess_keeps {s : UpdateWorker} (hlowered : s.lowered = false) (build : Build)
    (jobFound saved : Bool) :
    ((s.newProcess build jobFound saved).Sound ↔
        s.UpdateOk (.newProcess build jobFound saved)) ∧
      (s.UpdateOk (.newProcess build jobFound saved) →
        (s.newProcess build jobFound saved).Inv) := by
  have hstarted := started_base hlowered build
  unfold newProcess
  dsimp only
  split
  · have hsaved := hstarted.savePersisted saved hstarted.disk le_rfl
    have hiff : ((s.started build).savePersisted saved (s.started build).persisted).RestoreOk ↔
        s.UpdateOk (.newProcess build jobFound saved) :=
      restoreOk_iff (savePersisted_build _ _ _) (savePersisted_files _ _ _)
        (savePersisted_persisted _ _ _) jobFound saved
    rw [← hiff]
    apply restoreDownload_keeps hsaved (savePersisted_snapshot _ saved _)
    rw [savePersisted_persisted, savePersisted_build]
    exact hstarted.available
  · have hiff : (s.started build).RestoreOk ↔ s.UpdateOk (.newProcess build jobFound saved) :=
      restoreOk_iff rfl rfl rfl jobFound saved
    rw [← hiff]
    exact restoreDownload_keeps hstarted rfl hstarted.available jobFound

theorem beginInstall_inv {s : UpdateWorker} (h : s.Inv) : s.beginInstall.Inv := by
  unfold beginInstall
  split
  · next manifest path hmanifest _ =>
    have hverified := h.base.manifest manifest hmanifest
    apply Base.shown
    · apply Base.setSnapshot
      · refine ⟨h.base.manifest, h.base.available, h.base.active, ?_, h.base.disk, ?_,
          h.base.lowered⟩
        · rintro _ ⟨⟩
          exact hverified
        · rintro _ ⟨⟩ loaded ⟨⟩
      · rintro _ ⟨⟩
        exact hverified
    · simp [setSnapshot]
  · exact h

/-- Another phase that holds nothing of the state file beyond the worker's. -/
theorem Base.atPhase {s : UpdateWorker} (h : s.Base) {installation : Installation}
    (hverified : verifyManifest s.build installation.manifest = true) (phase : InstallPhase)
    (hphase : ∀ loaded, phase = .save loaded →
      floor loaded.highestVerifiedVersion ≤ floor s.persisted.highestVerifiedVersion) :
    (s.atPhase installation phase).Base := by
  refine ⟨h.manifest, h.available, h.active, ?_, h.disk, ?_, h.lowered⟩
  · rintro _ ⟨⟩
    exact hverified
  · rintro _ ⟨⟩ loaded hloaded
    exact hphase loaded hloaded

theorem Base.notInstalling {s : UpdateWorker} (h : s.Base) : Base { s with installing := none } := by
  refine ⟨h.manifest, h.available, h.active, ?_, h.disk, ?_, h.lowered⟩
  · rintro _ ⟨⟩
  · rintro _ ⟨⟩

theorem Inv.of_base {s t : UpdateWorker} (h : s.Inv) (ht : t.Base)
    (hsnapshot : t.snapshot = s.snapshot) (hmanifest : t.manifest = s.manifest)
    (hpath : t.installerPath = s.installerPath) (hbuild : t.build = s.build)
    (hpersisted : t.persisted = s.persisted) (hfiles : t.files = s.files) : t.Inv := by
  refine ⟨ht, ?_, ht.lowered⟩
  have hsound := h.sound.1
  simp only [verifies] at hsound ⊢
  rw [hsnapshot, hmanifest, hpath, hbuild, hpersisted, hfiles]
  exact hsound

/-- Removing a file is sound unless it is the one that is offered. -/
theorem removeFile_sound_iff {s : UpdateWorker} (h : s.Inv) (path : InstallerPath) :
    (s.removeFile path).Sound ↔
      (s.snapshot.action = .install → s.installerPath ≠ some path) := by
  constructor
  · intro hsound hinstall hpath
    obtain ⟨manifest, _, other, hother, _, _, hverifies⟩ := hsound.1 hinstall
    obtain rfl : path = other := Option.some.inj (hpath.symm.trans hother)
    simp [verifies, verifyInstaller, removeFile] at hverifies
  · intro hne
    refine ⟨fun hinstall => ?_, h.base.lowered⟩
    obtain ⟨manifest, hmanifest, other, hother, hverified, hcurrent, hverifies⟩ :=
      h.sound.1 hinstall
    have hother' : other ≠ path := fun heq => hne hinstall (heq ▸ hother)
    refine ⟨manifest, hmanifest, other, hother, hverified, hcurrent, ?_⟩
    simpa [verifies, removeFile, hother'] using hverifies

theorem install_keeps {s : UpdateWorker} (h : s.Inv) {installation : Installation}
    (hinstalling : s.installing = some installation) (ok : Bool) :
    ((s.install installation ok).Sound ↔ s.InstallationOk installation ok) ∧
      (s.InstallationOk installation ok → (s.install installation ok).Inv) := by
  have hverified := h.base.installing installation hinstalling
  have hfine : ∀ {t : UpdateWorker} {P : Prop}, P → t.Inv → (t.Sound ↔ P) ∧ (P → t.Inv) :=
    fun hp ht => ⟨iff_of_true ht.sound hp, fun _ => ht⟩
  unfold install InstallationOk
  cases hphase : installation.phase with
  | verify =>
    dsimp only
    split
    · next hverifies =>
      apply hfine
      · simp [hverifies]
      · exact h.of_base (h.base.atPhase hverified _ (by rintro _ ⟨⟩)) rfl rfl rfl rfl rfl rfl
    · next hnot =>
      have hbase := (h.base.removeFile installation.path).atPhase hverified .load
        (by rintro _ ⟨⟩)
      have hiff := removeFile_sound_iff h installation.path
      simp only [hnot, true_implies]
      exact ⟨hiff, fun hok => ⟨hbase, hiff.mpr hok⟩⟩
  | load =>
    apply hfine trivial
    dsimp only
    split
    · apply h.of_base (h.base.atPhase hverified _ ?_) rfl rfl rfl rfl rfl rfl
      rintro _ ⟨⟩
      exact h.base.disk
    · exact h.of_base (h.base.atPhase hverified _ (by rintro _ ⟨⟩)) rfl rfl rfl rfl rfl rfl
  | save loaded =>
    have hloaded := h.base.loaded installation hinstalling loaded hphase
    dsimp only
    cases ok with
    | false =>
      apply hfine (by simp)
      exact h.of_base (h.base.atPhase hverified _ (by rintro _ ⟨⟩)) rfl rfl rfl rfl rfl rfl
    | true =>
      constructor
      · constructor
        · intro hsound _
          have hlowered := hsound.2
          simp only [savePersisted, atPhase] at hlowered
          simpa [h.base.lowered] using hlowered
        · intro hle
          exact ⟨h.sound.1, by simp [savePersisted, atPhase, h.base.lowered, hle]⟩
      · intro hle
        have hbase := (h.base.savePersisted true (hle rfl) hloaded).atPhase
          hverified .fail (by rintro _ ⟨⟩)
        exact h.of_base hbase rfl rfl rfl rfl rfl rfl
  | fail =>
    apply hfine trivial
    exact h.base.notInstalling.setDownloadFailure hverified
  | launch =>
    dsimp only
    split
    · next hok =>
      apply hfine
      · simp [hok]
      · exact h.of_base h.base.notInstalling rfl rfl rfl rfl rfl rfl
    · next hok =>
      have hiff := setReady_sound_iff h.base.notInstalling installation.path hverified
      simp only [hok, true_implies]
      exact ⟨hiff, fun hcurrent => ⟨h.base.notInstalling.setReady _ hverified, hiff.mpr hcurrent⟩⟩

theorem step_keeps {s t : UpdateWorker} {e : Event} (h : s.Inv) (hstep : s.step e = some t) :
    (t.Sound ↔ s.UpdateOk e) ∧ (s.UpdateOk e → t.Inv) := by
  have hfine : t.Inv → s.UpdateOk e → (t.Sound ↔ s.UpdateOk e) ∧ (s.UpdateOk e → t.Inv) :=
    fun ht hok => ⟨iff_of_true ht.sound hok, fun _ => ht⟩
  cases e with
  | beginCheck =>
    obtain ⟨-, ht⟩ := Option.ite_none_left_eq_some.mp hstep
    cases ht
    exact hfine (beginCheck_inv h.base) trivial
  | endCheck fetched now saved savedReady =>
    obtain ⟨-, ht⟩ := Option.ite_none_right_eq_some.mp hstep
    cases ht
    exact hfine (endCheck_inv h.base fetched now saved savedReady) trivial
  | download outcome =>
    obtain ⟨-, ht⟩ := Option.ite_none_left_eq_some.mp hstep
    cases ht
    exact hfine (download_inv h outcome) trivial
  | cancel saved =>
    obtain ⟨-, ht⟩ := Option.ite_none_left_eq_some.mp hstep
    cases ht
    exact hfine (cancel_inv h.base saved) trivial
  | pollDownload saved report =>
    obtain ⟨-, ht⟩ := Option.ite_none_left_eq_some.mp hstep
    obtain ⟨download, hactive, rfl⟩ := Option.map_eq_some_iff.mp ht
    exact pollDownload_keeps h.base hactive saved report
  | newProcess build jobFound saved =>
    cases hstep
    exact newProcess_keeps h.base.lowered build jobFound saved
  | beginInstall =>
    obtain ⟨-, ht⟩ := Option.ite_none_left_eq_some.mp hstep
    cases ht
    exact hfine (beginInstall_inv h) trivial
  | install ok =>
    obtain ⟨installation, hinstalling, rfl⟩ := Option.map_eq_some_iff.mp hstep
    have hok : s.UpdateOk (.install ok) ↔ s.InstallationOk installation ok := by
      simp [UpdateOk, hinstalling]
    rw [hok]
    exact install_keeps h hinstalling ok

/-- The first process after the installation of a program, with any files beside it. -/
def start (build : Build) (files : InstallerPath → Option Installer) : UpdateWorker :=
  { build, files }

theorem start_inv (build : Build) (files : InstallerPath → Option Installer) :
    (start build files).Inv := by
  apply Base.shown
  · refine ⟨?_, ?_, ?_, ?_, le_rfl, ?_, rfl⟩ <;> rintro _ ⟨⟩
  · simp [start, UpdateSnapshot.idle]

/-- Only verified installers of current versions are offered, and the highest verified
version is never lowered, exactly in the runs in which a restored installer, a download that
ends and what `install` goes on with are of current versions. -/
theorem install_only_current (build : Build) (files : InstallerPath → Option Installer)
    (es : List Event) :
    Always step Sound (start build files) es ↔ Along step UpdateOk (start build files) es := by
  have hstart := start_inv build files
  apply always_iff_along Inv es hstart hstart.sound
  intro s e t hinv _ hstep
  exact step_keeps hinv hstep

/-- A version is downloaded, then installed by other means, and the program starts. -/
def upgradedRun : List Event :=
  let asset : PlatformAsset :=
    { url := RELEASE_DOWNLOAD_PREFIX ++ "windows-v0.2.0/setup.exe"
      sha256 := String.ofList (List.replicate 64 'a')
      size := 1 }
  let manifest : UpdateManifest :=
    { version := "0.2.0"
      releaseUrl := RELEASE_TAG_PREFIX ++ "windows-v0.2.0"
      windows := asset
      signer := some "key" }
  let content : Installer := { length := 1, sha256 := asset.sha256, signer := some "certificate" }
  [.beginCheck, .endCheck (.ok manifest) 0 true true, .download (.job "id" true true),
    .pollDownload true (.transferred content),
    .newProcess { version := "0.2.0", updateKey := "key", certificate := some "certificate" } true
      true]

theorem upgradedRun_not_sound : ¬ Always step Sound
    (start { version := "0.1.0", updateKey := "key", certificate := some "certificate" }
      fun _ => none) upgradedRun := by
  intro h
  have hlast := h.last upgradedRun rfl
  obtain ⟨manifest, hmanifest, _, _, _, hcurrent, _⟩ := hlast.1 rfl
  cases hmanifest
  have hnewer : compareVersions "0.2.0" "0.2.0" = some .gt := hcurrent.1
  revert hnewer
  decide

end UpdateWorker

end FlowType
