import Mathlib.Data.List.Sort
import Mathlib.Logic.Function.Basic
import FlowType.Runs

/-! `UpdateManager` of the phone: what is checked, downloaded, verified and offered for
installation, what the preferences and the files keep over a restart, and the system's
`DownloadManager`. Each function runs as a whole, but a check waits for the network in
between. Texts of the user interface are left out. -/
namespace FlowType

namespace UpdateManager

inductive Action
  | none | check | download | cancel | install
  deriving DecidableEq, Repr

structure State where
  action : Action
  downloaded : Nat := 0
  total : Nat := 0
  releaseUrl : Option String := Option.none
  version : Option String := Option.none
  deriving DecidableEq, Repr

structure Asset where
  url : String
  sha256 : String
  size : Nat
  deriving DecidableEq, Repr

/-- A manifest whose signature was verified. -/
structure Manifest where
  version : String
  versionCode : Nat
  releaseUrl : String
  android : Asset
  deriving DecidableEq, Repr

/-- What is read from a file; `archive` is there if the package manager can read it: its
package name and the digests of its signers. -/
structure Apk where
  length : Nat
  sha256 : String
  archive : Option (String × List String)
  deriving DecidableEq, Repr

def sameCertificates (left right : List String) : Bool :=
  !left.isEmpty && left.length == right.length &&
    left.insertionSort (· ≤ ·) == right.insertionSort (· ≤ ·)

inductive DownloadStatus
  | pending | running | paused | successful | failed
  deriving DecidableEq, Repr

def DownloadStatus.ended : DownloadStatus → Bool
  | .successful => true
  | .failed => true
  | _ => false

/-- A task of the `DownloadManager`; it writes the file of a version. -/
structure Download where
  version : String
  status : DownloadStatus := .pending
  downloaded : Nat := 0
  total : Nat := 0
  deriving DecidableEq, Repr

structure Preferences where
  lastSuccessfulCheck : Nat := 0
  highestVersionCode : Nat := 0
  downloadId : Option Nat := none
  downloadVerified : Bool := false
  manifest : Option Manifest := none
  deriving DecidableEq, Repr

inductive CheckError
  | noRelease | other
  deriving DecidableEq, Repr

end UpdateManager

/-- The app with the preferences, the files and the downloads that outlive it. `checking`
is a check that waits for the network, `restoring` the first task of the executor. -/
structure UpdateManager where
  packageName : String
  signers : List String
  currentVersionCode : Nat
  preferences : UpdateManager.Preferences := {}
  files : String → Option UpdateManager.Apk := fun _ => none
  downloads : Nat → Option UpdateManager.Download := fun _ => none
  nextId : Nat := 0
  state : UpdateManager.State := { action := .check }
  available : Option UpdateManager.Manifest := none
  polling : Option (Nat × UpdateManager.Manifest) := none
  checking : Bool := false
  restoring : Option UpdateManager.Manifest := none

namespace UpdateManager
open Machine

def CHECK_INTERVAL_MILLIS : Nat := 24 * 60 * 60 * 1000

def RELEASES_URL : String := "https://github.com/Henry10088/FlowType/releases"

def setState (s : UpdateManager) (state : State) : UpdateManager := { s with state }

/-- `available ?: loadPersistedManifest()`. -/
def current (s : UpdateManager) : Option Manifest := s.available.or s.preferences.manifest

def delete (s : UpdateManager) (manifest : Manifest) : UpdateManager :=
  { s with files := Function.update s.files manifest.version none }

def isFile (s : UpdateManager) (manifest : Manifest) : Bool := (s.files manifest.version).isSome

/-- `verifyApk` of the file of a manifest. -/
def verifyApk (s : UpdateManager) (manifest : Manifest) : Bool :=
  match s.files manifest.version with
  | none => false
  | some apk => apk.length == manifest.android.size && apk.sha256 == manifest.android.sha256 &&
    match apk.archive with
    | none => false
    | some (packageName, signers) =>
      packageName == s.packageName && sameCertificates signers s.signers

def setAvailable (s : UpdateManager) (manifest : Manifest) : UpdateManager :=
  s.setState { action := .download, releaseUrl := manifest.releaseUrl, version := manifest.version }

def setReady (s : UpdateManager) (version : String) (busy : Bool) : UpdateManager :=
  match s.current with
  | none => s
  | some manifest => s.setState
    { action := if busy then .none else .install
      releaseUrl := manifest.releaseUrl
      version := version }

def setDownloading (s : UpdateManager) (manifest : Manifest) (downloaded total : Nat) :
    UpdateManager :=
  s.setState
    { action := .cancel
      downloaded
      total
      releaseUrl := manifest.releaseUrl
      version := manifest.version }

def setFailure (s : UpdateManager) (manifest : Manifest) : UpdateManager :=
  s.setState { action := .download, releaseUrl := manifest.releaseUrl, version := manifest.version }

def persistManifest (s : UpdateManager) (manifest : Manifest) : UpdateManager :=
  { s with preferences := { s.preferences with manifest := some manifest } }

/-- The installer intent is there when the result is `true`. -/
def prepareInstall (s : UpdateManager) (busy : Bool) : UpdateManager × Bool :=
  if busy then (s, false)
  else
    match s.current with
    | none => (s, false)
    | some manifest =>
      if s.verifyApk manifest then (s, true) else (s.setFailure manifest, false)

def refreshInstallAvailability (s : UpdateManager) (busy : Bool) : UpdateManager :=
  if s.preferences.downloadVerified then
    match s.current with
    | none => s
    | some manifest => s.setReady manifest.version busy
  else s

def shouldAutoCheck (s : UpdateManager) (now : Nat) : Bool :=
  decide (CHECK_INTERVAL_MILLIS ≤ now - s.preferences.lastSuccessfulCheck)

/-- `check` up to the network. -/
def beginCheck (s : UpdateManager) (manual : Bool) (now : Nat) : UpdateManager :=
  if manual = false ∧ s.shouldAutoCheck now = false then s
  else { s.setState { action := .none } with checking := true }

def checkFailed (s : UpdateManager) : UpdateManager :=
  match s.current.filter fun cached => decide (s.currentVersionCode < cached.versionCode) with
  | some cached => { s with available := some cached }.setAvailable cached
  | none => s.setState { action := .check, releaseUrl := RELEASES_URL }

def found (s : UpdateManager) (manifest : Manifest) (busy : Bool) : UpdateManager :=
  let s₁ := { s with available := some manifest }.persistManifest manifest
  if s₁.preferences.downloadVerified ∧ s₁.isFile manifest then
    if s₁.verifyApk manifest then s₁.setReady manifest.version busy
    else
      let s₂ := s₁.delete manifest
      { s₂ with preferences := { s₂.preferences with downloadVerified := false } }.setAvailable
        manifest
  else s₁.setAvailable manifest

/-- `check` after the network. -/
def endCheck (s : UpdateManager) (fetched : Except CheckError Manifest) (now : Nat)
    (busy : Bool) : UpdateManager :=
  let s₀ := { s with checking := false }
  match fetched with
  | .error .noRelease =>
    { s₀ with available := none }.setState { action := .check, releaseUrl := RELEASES_URL }
  | .error .other => s₀.checkFailed
  | .ok manifest =>
    if manifest.versionCode < s.preferences.highestVersionCode then s₀.checkFailed
    else
      let s₁ := { s₀ with preferences := { s.preferences with
        lastSuccessfulCheck := now
        highestVersionCode := max s.preferences.highestVersionCode manifest.versionCode } }
      if s.currentVersionCode < manifest.versionCode then s₁.found manifest busy
      else { s₁ with available := none }.setState
        { action := .check, releaseUrl := manifest.releaseUrl }

/-- A task that is removed takes its file along. -/
def removeDownload (s : UpdateManager) (id : Nat) : UpdateManager :=
  match s.downloads id with
  | none => s
  | some download => { s with
      downloads := Function.update s.downloads id none
      files := Function.update s.files download.version none }

def cancelDownload (s : UpdateManager) (removeState : Bool) : UpdateManager :=
  let s₁ := { s with polling := none }
  let s₂ := match s.preferences.downloadId with
    | none => s₁
    | some id => s₁.removeDownload id
  let s₃ := { s₂ with preferences := { s.preferences with
    downloadId := none
    downloadVerified := false } }
  match s.current with
  | none => s₃
  | some manifest =>
    if removeState then (s₃.delete manifest).setAvailable manifest else s₃.delete manifest

/-- `enqueued` says that the `DownloadManager` has taken the request. -/
def startDownload (s : UpdateManager) (enqueued : Bool) : UpdateManager :=
  match s.current with
  | none => s
  | some manifest =>
    let s₁ := (s.cancelDownload false).delete manifest
    if enqueued then
      let s₂ := { s₁ with
        downloads := Function.update s₁.downloads s.nextId (some { version := manifest.version })
        nextId := s.nextId + 1
        preferences := { s₁.preferences with downloadId := some s.nextId } }
      { (s₂.persistManifest manifest).setDownloading manifest 0 manifest.android.size with
        polling := some (s.nextId, manifest) }
    else s₁.setFailure manifest

def withoutDownload (s : UpdateManager) (downloadVerified : Bool) : UpdateManager :=
  { s with
    polling := none
    preferences := { s.preferences with downloadId := none, downloadVerified } }

/-- `pollDownload` of a task that was successful. -/
def pollSuccessful (s : UpdateManager) (manifest : Manifest) (busy : Bool) : UpdateManager :=
  if s.verifyApk manifest then
    { s.withoutDownload true with available := some manifest }.setReady manifest.version busy
  else ((s.delete manifest).withoutDownload false).setFailure manifest

def pollDownload (s : UpdateManager) (id : Nat) (manifest : Manifest) (busy : Bool) :
    UpdateManager :=
  match s.downloads id with
  | none => (s.withoutDownload s.preferences.downloadVerified).setFailure manifest
  | some download =>
    let total := if 0 < download.total then download.total else manifest.android.size
    match download.status with
    | .successful => s.pollSuccessful manifest busy
    | .failed => (s.withoutDownload s.preferences.downloadVerified).setFailure manifest
    | _ => s.setDownloading manifest download.downloaded total

/-- The constructor of a new process, with `restoreDownload`. -/
def newProcess (s : UpdateManager) (versionCode : Nat) : UpdateManager :=
  let s₁ := { s with
    currentVersionCode := versionCode
    state := { action := .check }
    available := none
    polling := none
    checking := false
    restoring := none }
  match s.preferences.manifest with
  | none => s₁
  | some manifest =>
    if manifest.versionCode ≤ versionCode then s₁
    else
      let s₂ := { s₁ with available := some manifest }
      if s.preferences.downloadVerified ∧ s.isFile manifest then
        { s₂ with restoring := some manifest }
      else match s.preferences.downloadId with
        | some id => { s₂ with polling := some (id, manifest) }
        | none => s₂.setAvailable manifest

/-- The task that `restoreDownload` leaves to the executor. -/
def restoreVerified (s : UpdateManager) (manifest : Manifest) (busy : Bool) : UpdateManager :=
  let s₁ := { s with restoring := none }
  if s.verifyApk manifest then s₁.setReady manifest.version busy
  else (s₁.delete manifest).setAvailable manifest

/-- Progress of a task of the `DownloadManager`, which writes its file meanwhile. -/
def transfer (s : UpdateManager) (id : Nat) (status : DownloadStatus) (downloaded total : Nat)
    (apk : Option Apk) : Option UpdateManager :=
  (s.downloads id).bind fun download =>
    if download.status.ended then none
    else some { s with
      downloads := Function.update s.downloads id
        (some { download with status := status, downloaded := downloaded, total := total })
      files := Function.update s.files download.version apk }

/-- `busy` is the answer of `installationBusy`. -/
inductive Event
  | beginCheck (manual : Bool) (now : Nat)
  | endCheck (fetched : Except CheckError Manifest) (now : Nat) (busy : Bool)
  | startDownload (enqueued : Bool)
  | cancelDownload
  | pollDownload (busy : Bool)
  | restoreVerified (busy : Bool)
  | prepareInstall (busy : Bool)
  | refreshInstallAvailability (busy : Bool)
  | transfer (id : Nat) (status : DownloadStatus) (downloaded total : Nat) (apk : Option Apk)
  | newProcess (versionCode : Nat)

def idle (s : UpdateManager) : Bool := !s.checking && s.restoring.isNone

def step (s : UpdateManager) : Event → Option UpdateManager
  | .beginCheck manual now => if s.idle then some (s.beginCheck manual now) else none
  | .endCheck fetched now busy => if s.checking then some (s.endCheck fetched now busy) else none
  | .startDownload enqueued => if s.idle then some (s.startDownload enqueued) else none
  | .cancelDownload => if s.idle then some (s.cancelDownload true) else none
  | .pollDownload busy =>
    if s.idle then s.polling.map fun p => s.pollDownload p.1 p.2 busy else none
  | .restoreVerified busy => s.restoring.map fun manifest => s.restoreVerified manifest busy
  | .prepareInstall busy => some (s.prepareInstall busy).1
  | .refreshInstallAvailability busy => some (s.refreshInstallAvailability busy)
  | .transfer id status downloaded total apk => s.transfer id status downloaded total apk
  | .newProcess versionCode =>
    if s.currentVersionCode ≤ versionCode then some (s.newProcess versionCode) else none

/-- Installation is offered for a file that passes the verification of the current
manifest, which is newer than the app. -/
def Sound (s : UpdateManager) : Prop :=
  s.state.action = .install → ∃ manifest ∈ s.current,
    s.verifyApk manifest = true ∧ s.currentVersionCode < manifest.versionCode

/-- The flag is read for the manifest whose file is verified and which is newer than the
app, and no older version is downloaded. -/
def InstallOk (s : UpdateManager) : Event → Prop
  | .refreshInstallAvailability busy => s.preferences.downloadVerified = true → busy = false →
    ∀ manifest ∈ s.current,
      s.verifyApk manifest = true ∧ s.currentVersionCode < manifest.versionCode
  | .pollDownload busy => busy = false → ∀ p ∈ s.polling, ∀ download ∈ s.downloads p.1,
    download.status = .successful → s.verifyApk p.2 = true →
      s.currentVersionCode < p.2.versionCode
  | _ => True

/-- What holds whatever the state offers: the only task that may still write a file is
the remembered one, it is the one that is polled, there is none beside a verified file,
and the first task of the executor is about the manifest in memory. -/
structure Base (s : UpdateManager) : Prop where
  writing : ∀ id download, s.downloads id = some download → download.status.ended = false →
    s.preferences.downloadId = some id
  polled : ∀ p ∈ s.polling, s.preferences.downloadId = some p.1
  verified : s.preferences.downloadVerified = true → s.preferences.downloadId = none
  restoring : ∀ manifest ∈ s.restoring, s.available = some manifest ∧
    s.currentVersionCode < manifest.versionCode ∧ s.preferences.downloadVerified = true
  checking : s.checking = true → s.restoring = none

structure Inv (s : UpdateManager) : Prop where
  base : s.Base
  sound : s.Sound
  offered : s.state.action = .install → s.preferences.downloadId = none

theorem Base.inv {s : UpdateManager} (h : s.Base) (hnot : s.state.action ≠ .install) : s.Inv :=
  ⟨h, fun hinstall => absurd hinstall hnot, fun hinstall => absurd hinstall hnot⟩

/-- The base does not read the state that is shown. -/
theorem Base.setState {s : UpdateManager} (h : s.Base) (state : State) : (s.setState state).Base :=
  ⟨h.writing, h.polled, h.verified, h.restoring, h.checking⟩

theorem Base.shown {s : UpdateManager} (h : s.Base) {state : State}
    (hnot : state.action ≠ .install) : (s.setState state).Inv :=
  (h.setState state).inv hnot

theorem idle_restoring {s : UpdateManager} (h : s.idle = true) :
    s.checking = false ∧ s.restoring = none := by
  simpa [idle] using h

/-- `setReady` offers the installation of the current manifest unless something is busy. -/
theorem setReady_keeps {s : UpdateManager} (manifest : Manifest) (hbase : s.Base)
    (hcurrent : s.current = some manifest) (hid : s.preferences.downloadId = none)
    (version : String) (busy : Bool) :
    let ok := busy = false → s.verifyApk manifest = true ∧
      s.currentVersionCode < manifest.versionCode
    ((s.setReady version busy).Sound ↔ ok) ∧ (ok → (s.setReady version busy).Inv) := by
  unfold setReady
  rw [hcurrent]
  dsimp only
  cases busy with
  | true =>
    have hinv : (s.setState
        { action := .none
          releaseUrl := manifest.releaseUrl
          version := version }).Inv := hbase.shown (by simp)
    exact ⟨iff_of_true hinv.sound (fun h => by cases h), fun _ => hinv⟩
  | false =>
    have hsound : (s.setState
        { action := .install
          releaseUrl := manifest.releaseUrl
          version := version }).Sound ↔
        (s.verifyApk manifest = true ∧ s.currentVersionCode < manifest.versionCode) := by
      constructor
      · intro h
        obtain ⟨found, hfound, hverified⟩ := h rfl
        obtain rfl : manifest = found := Option.some.inj (hcurrent.symm.trans hfound)
        exact hverified
      · exact fun h _ => ⟨manifest, hcurrent, h⟩
    exact ⟨hsound.trans ⟨fun h _ => h, fun h => h rfl⟩, fun h =>
      ⟨hbase.setState _, hsound.mpr (h rfl), fun _ => hid⟩⟩

theorem setReady_inv {s : UpdateManager} {manifest : Manifest} (hbase : s.Base)
    (hcurrent : s.current = some manifest) (hid : s.preferences.downloadId = none)
    (hverified : s.verifyApk manifest = true)
    (hnewer : s.currentVersionCode < manifest.versionCode) (version : String) (busy : Bool) :
    (s.setReady version busy).Inv :=
  (setReady_keeps _ hbase hcurrent hid version busy).2 fun _ => ⟨hverified, hnewer⟩

theorem delete_base {s : UpdateManager} (h : s.Base) (manifest : Manifest) :
    (s.delete manifest).Base := ⟨h.writing, h.polled, h.verified, h.restoring, h.checking⟩

theorem beginCheck_inv {s : UpdateManager} (hinv : s.Inv) (hidle : s.idle = true) (manual : Bool)
    (now : Nat) : (s.beginCheck manual now).Inv := by
  obtain ⟨-, hrestoring⟩ := idle_restoring hidle
  unfold beginCheck
  split
  · exact hinv
  · apply Base.inv
    · exact ⟨hinv.base.writing, hinv.base.polled, hinv.base.verified, hinv.base.restoring,
        fun _ => hrestoring⟩
    · simp [UpdateManager.setState]

theorem checkFailed_inv {s : UpdateManager} (hbase : s.Base) (hrestoring : s.restoring = none) :
    s.checkFailed.Inv := by
  unfold checkFailed
  split
  · next cached _ =>
    have hset : Base { s with available := some cached } := by
      refine ⟨hbase.writing, hbase.polled, hbase.verified, ?_, hbase.checking⟩
      intro manifest hmem
      cases hrestoring.symm.trans hmem
    exact hset.shown (by simp)
  · exact hbase.shown (by simp)

theorem found_inv {s : UpdateManager} {manifest : Manifest} (hbase : s.Base)
    (hrestoring : s.restoring = none) (hnewer : s.currentVersionCode < manifest.versionCode)
    (busy : Bool) : (s.found manifest busy).Inv := by
  have hset : Base ({ s with available := some manifest }.persistManifest manifest) := by
    refine ⟨hbase.writing, hbase.polled, hbase.verified, ?_, hbase.checking⟩
    intro other hmem
    cases hrestoring.symm.trans hmem
  unfold found
  dsimp only
  split
  · next hflag =>
    split
    · next hverified =>
      exact setReady_inv hset rfl (hbase.verified hflag.1) hverified hnewer _ busy
    · apply Base.shown
      · constructor
        · exact hbase.writing
        · exact hbase.polled
        · rintro ⟨⟩
        · intro other hmem
          cases hrestoring.symm.trans hmem
        · exact hbase.checking
      · simp
  · exact hset.shown (by simp)

theorem endCheck_inv {s : UpdateManager} (hinv : s.Inv) (hchecking : s.checking = true)
    (fetched : Except CheckError Manifest) (now : Nat) (busy : Bool) :
    (s.endCheck fetched now busy).Inv := by
  have hrestoring := hinv.base.checking hchecking
  have hnone : ∀ {P : Manifest → Prop}, ∀ manifest ∈ s.restoring, P manifest := by
    intro P manifest hmem
    cases hrestoring.symm.trans hmem
  have hdone : Base { s with checking := false } :=
    ⟨hinv.base.writing, hinv.base.polled, hinv.base.verified, hinv.base.restoring, fun h => by cases h⟩
  unfold endCheck
  dsimp only
  split
  · apply Base.shown
    · exact ⟨hinv.base.writing, hinv.base.polled, hinv.base.verified, hnone, fun h => by cases h⟩
    · simp
  · exact checkFailed_inv hdone hrestoring
  · next manifest =>
    split
    · exact checkFailed_inv hdone hrestoring
    · have hfloor : Base { s with
          checking := false
          preferences := { s.preferences with
            lastSuccessfulCheck := now
            highestVersionCode := max s.preferences.highestVersionCode manifest.versionCode } } :=
        ⟨hinv.base.writing, hinv.base.polled, hinv.base.verified, hnone, fun h => by cases h⟩
      split
      · next hnewer => exact found_inv hfloor hrestoring hnewer busy
      · apply Base.shown
        · exact ⟨hfloor.writing, hfloor.polled, hfloor.verified, hnone, fun h => by cases h⟩
        · simp

theorem removeDownload_downloads (s : UpdateManager) (id : Nat) :
    (s.removeDownload id).downloads = Function.update s.downloads id none := by
  unfold removeDownload
  split
  · next hnone =>
    rw [← hnone]
    exact (Function.update_eq_self id s.downloads).symm
  · rfl

theorem removeDownload_restoring (s : UpdateManager) (id : Nat) :
    (s.removeDownload id).restoring = s.restoring := by
  unfold removeDownload
  split <;> rfl

theorem removeDownload_polling (s : UpdateManager) (id : Nat) :
    (s.removeDownload id).polling = s.polling := by
  unfold removeDownload
  split <;> rfl

/-- What a cancellation leaves, apart from the files and the state that is shown. -/
structure Cancelled (s t : UpdateManager) : Prop where
  downloads : ∀ id download, t.downloads id = some download →
    s.downloads id = some download ∧ s.preferences.downloadId ≠ some id
  downloadId : t.preferences.downloadId = none
  downloadVerified : t.preferences.downloadVerified = false
  restoring : t.restoring = s.restoring
  polling : t.polling = none

theorem cancelDownload_cancelled (s : UpdateManager) (removeState : Bool) :
    Cancelled s (s.cancelDownload removeState) := by
  have hremoved : Cancelled s { (match s.preferences.downloadId with
      | none => { s with polling := none }
      | some id => { s with polling := none }.removeDownload id) with
        preferences := { s.preferences with downloadId := none, downloadVerified := false } } := by
    split
    · next hid =>
      refine ⟨fun id download hmem => ⟨hmem, ?_⟩, rfl, rfl, rfl, rfl⟩
      rw [hid]
      exact (Option.some_ne_none id).symm
    · next id hid =>
      refine ⟨fun other download hmem => ?_, rfl, rfl, removeDownload_restoring _ id,
        removeDownload_polling _ id⟩
      dsimp only at hmem
      rw [removeDownload_downloads] at hmem
      by_cases heq : other = id
      · rw [heq, Function.update_self] at hmem
        cases hmem
      · rw [Function.update_of_ne heq] at hmem
        rw [hid]
        exact ⟨hmem, fun hsame => heq (Option.some.inj hsame).symm⟩
  unfold cancelDownload
  dsimp only
  split
  · exact hremoved
  · split
    · exact ⟨hremoved.downloads, rfl, rfl, hremoved.restoring, hremoved.polling⟩
    · exact ⟨hremoved.downloads, rfl, rfl, hremoved.restoring, hremoved.polling⟩

/-- After a cancellation no task writes a file. -/
theorem Cancelled.ended {s t : UpdateManager} (h : Cancelled s t) (hbase : s.Base) {id : Nat}
    {download : Download} (hmem : t.downloads id = some download) :
    download.status.ended = true := by
  obtain ⟨hold, hne⟩ := h.downloads id download hmem
  by_contra hwriting
  exact hne (hbase.writing id download hold (by simpa using hwriting))

theorem cancelDownload_inv {s : UpdateManager} (hinv : s.Inv) (hidle : s.idle = true) :
    (s.cancelDownload true).Inv := by
  obtain ⟨-, hrestoring⟩ := idle_restoring hidle
  have hcancelled := cancelDownload_cancelled s true
  have hnone := hcancelled.restoring.trans hrestoring
  apply Base.inv
  · constructor
    · intro id download hmem hended
      rw [hcancelled.ended hinv.base hmem] at hended
      cases hended
    · intro p hmem
      cases hcancelled.polling.symm.trans hmem
    · exact fun _ => hcancelled.downloadId
    · intro manifest hmem
      cases hnone.symm.trans hmem
    · exact fun _ => hnone
  · -- Without a manifest nothing was offered before.
    intro hinstall
    unfold cancelDownload at hinstall
    dsimp only at hinstall
    split at hinstall
    · next hcurrent =>
      have hbefore : s.state.action = .install := by
        revert hinstall
        unfold removeDownload
        split
        · exact id
        · split <;> exact id
      obtain ⟨manifest, hmem, -⟩ := hinv.sound hbefore
      cases hcurrent.symm.trans hmem
    · cases hinstall

theorem startDownload_inv {s : UpdateManager} (hinv : s.Inv) (hidle : s.idle = true)
    (enqueued : Bool) : (s.startDownload enqueued).Inv := by
  obtain ⟨-, hrestoring⟩ := idle_restoring hidle
  have hcancelled := cancelDownload_cancelled s false
  have hnone := hcancelled.restoring.trans hrestoring
  unfold startDownload
  split
  · exact hinv
  · next manifest _ =>
    cases enqueued with
    | false =>
      apply Base.shown
      · constructor
        · intro id download hmem hended
          rw [hcancelled.ended hinv.base hmem] at hended
          cases hended
        · intro p hmem
          cases hcancelled.polling.symm.trans hmem
        · exact fun _ => hcancelled.downloadId
        · intro other hmem
          cases hnone.symm.trans hmem
        · exact fun _ => hnone
      · simp
    | true =>
      apply Base.inv
      · constructor
        · -- The new task is the remembered one, the others have ended.
          intro id download hmem hended
          by_cases heq : id = s.nextId
          · exact congrArg some heq.symm
          · have hother : (s.cancelDownload false).downloads id = some download :=
              (Function.update_of_ne heq _ _).symm.trans hmem
            rw [hcancelled.ended hinv.base hother] at hended
            cases hended
        · rintro p ⟨⟩
          rfl
        · intro hverified
          cases hcancelled.downloadVerified.symm.trans hverified
        · intro other hmem
          cases hnone.symm.trans hmem
        · exact fun _ => hnone
      · intro hinstall
        cases hinstall

/-- Forgetting the remembered task once it has ended. -/
theorem withoutDownload_base {s : UpdateManager} {id : Nat} (hbase : s.Base)
    (hrestoring : s.restoring = none) (hid : s.preferences.downloadId = some id)
    (hended : ∀ download, s.downloads id = some download → download.status.ended = true)
    (downloadVerified : Bool) : (s.withoutDownload downloadVerified).Base := by
  constructor
  · intro other download hmem hwriting
    have hother := hbase.writing other download hmem hwriting
    obtain rfl : id = other := Option.some.inj (hid.symm.trans hother)
    rw [hended download hmem] at hwriting
    cases hwriting
  · rintro _ ⟨⟩
  · exact fun _ => rfl
  · intro manifest hmem
    cases hrestoring.symm.trans hmem
  · exact fun _ => hrestoring

theorem pollSuccessful_keeps {s : UpdateManager} {id : Nat} (hinv : s.Inv)
    (hrestoring : s.restoring = none) (hid : s.preferences.downloadId = some id)
    (hended : ∀ download, s.downloads id = some download → download.status.ended = true)
    (manifest : Manifest) (busy : Bool) :
    let ok := busy = false → s.verifyApk manifest = true →
      s.currentVersionCode < manifest.versionCode
    ((s.pollSuccessful manifest busy).Sound ↔ ok) ∧ (ok → (s.pollSuccessful manifest busy).Inv) := by
  unfold pollSuccessful
  dsimp only
  split
  · next hverified =>
    have hforgotten := withoutDownload_base hinv.base hrestoring hid hended true
    have hbase : Base { s.withoutDownload true with available := some manifest } := by
      refine ⟨hforgotten.writing, hforgotten.polled, hforgotten.verified, ?_, hforgotten.checking⟩
      intro other hmem
      cases hrestoring.symm.trans hmem
    have hready := setReady_keeps manifest hbase rfl rfl manifest.version busy
    have hiff : (busy = false → s.verifyApk manifest = true →
          s.currentVersionCode < manifest.versionCode) ↔
        (busy = false → s.verifyApk manifest = true ∧
          s.currentVersionCode < manifest.versionCode) :=
      ⟨fun h hbusy => ⟨hverified, h hbusy hverified⟩, fun h hbusy _ => (h hbusy).2⟩
    rw [hiff]
    exact hready
  · next hbad =>
    have hinv' : (((s.delete manifest).withoutDownload false).setFailure manifest).Inv := by
      apply Base.shown
      · exact withoutDownload_base (delete_base hinv.base manifest) hrestoring hid hended false
      · simp
    exact ⟨iff_of_true hinv'.sound fun _ h => absurd h hbad, fun _ => hinv'⟩

theorem pollDownload_keeps {s : UpdateManager} {id : Nat} {manifest : Manifest} (hinv : s.Inv)
    (hidle : s.idle = true) (hpolling : s.polling = some (id, manifest)) (busy : Bool) :
    ((s.pollDownload id manifest busy).Sound ↔ s.InstallOk (.pollDownload busy)) ∧
      (s.InstallOk (.pollDownload busy) → (s.pollDownload id manifest busy).Inv) := by
  obtain ⟨-, hrestoring⟩ := idle_restoring hidle
  have hid : s.preferences.downloadId = some id := hinv.base.polled _ hpolling
  have hok : s.InstallOk (.pollDownload busy) ↔ ∀ download ∈ s.downloads id,
      download.status = .successful → busy = false → s.verifyApk manifest = true →
        s.currentVersionCode < manifest.versionCode := by
    unfold InstallOk
    rw [hpolling]
    constructor
    · exact fun h download hmem hstatus hbusy => h hbusy _ rfl download hmem hstatus
    · rintro h hbusy _ ⟨⟩ download hmem hstatus
      exact h download hmem hstatus hbusy
  have hfine : ∀ {t : UpdateManager}, t.Inv →
      (∀ download ∈ s.downloads id, download.status ≠ .successful) →
      (t.Sound ↔ s.InstallOk (.pollDownload busy)) ∧ (s.InstallOk (.pollDownload busy) → t.Inv) :=
    fun ht hnot => ⟨iff_of_true ht.sound (hok.mpr fun download hmem hstatus =>
      absurd hstatus (hnot download hmem)), fun _ => ht⟩
  have hforgotten : (∀ download, s.downloads id = some download → download.status.ended = true) →
      ((s.withoutDownload s.preferences.downloadVerified).setFailure manifest).Inv := by
    intro hended
    apply Base.shown
    · exact withoutDownload_base hinv.base hrestoring hid hended _
    · simp
  unfold pollDownload
  split
  · next hnone =>
    have hnothing : ∀ {P : Download → Prop}, ∀ download, s.downloads id = some download →
        P download := by
      intro P download hmem
      cases hnone.symm.trans hmem
    exact hfine (hforgotten hnothing) hnothing
  · next download hdownload =>
    have honly : ∀ {P : Download → Prop}, P download →
        ∀ other, s.downloads id = some other → P other := by
      intro P hP other hmem
      obtain rfl : download = other := Option.some.inj (hdownload.symm.trans hmem)
      exact hP
    dsimp only
    split
    · next hstatus =>
      have hended : download.status.ended = true := by rw [hstatus]; rfl
      have hsuccessful := pollSuccessful_keeps hinv hrestoring hid (honly hended) manifest busy
      have hiff : s.InstallOk (.pollDownload busy) ↔ (busy = false →
          s.verifyApk manifest = true → s.currentVersionCode < manifest.versionCode) := by
        rw [hok]
        exact ⟨fun h => h download hdownload hstatus, fun h => fun _ _ _ => h⟩
      rw [hiff]
      exact hsuccessful
    · next hstatus =>
      have hended : download.status.ended = true := by rw [hstatus]; rfl
      refine hfine (hforgotten (honly hended)) (honly ?_)
      rw [hstatus]
      simp
    · next hnot _ => exact hfine (hinv.base.shown (by simp)) (honly hnot)

theorem restoreVerified_inv {s : UpdateManager} {manifest : Manifest} (hinv : s.Inv)
    (hrestoring : s.restoring = some manifest) (busy : Bool) :
    (s.restoreVerified manifest busy).Inv := by
  obtain ⟨havailable, hnewer, hflag⟩ := hinv.base.restoring manifest hrestoring
  have hbase : Base { s with restoring := none } := by
    refine ⟨hinv.base.writing, hinv.base.polled, hinv.base.verified, ?_, fun _ => rfl⟩
    rintro _ ⟨⟩
  have hcurrent : ({ s with restoring := none } : UpdateManager).current = some manifest := by
    simp [current, havailable]
  unfold restoreVerified
  dsimp only
  split
  · next hverified =>
    exact setReady_inv hbase hcurrent (hinv.base.verified hflag) hverified hnewer _ busy
  · apply Base.shown
    · exact delete_base hbase manifest
    · simp

theorem prepareInstall_inv {s : UpdateManager} (hinv : s.Inv) (busy : Bool) :
    (s.prepareInstall busy).1.Inv := by
  unfold prepareInstall
  split
  · exact hinv
  · split
    · exact hinv
    · split
      · exact hinv
      · exact hinv.base.shown (by simp)

theorem refreshInstallAvailability_keeps {s : UpdateManager} (hinv : s.Inv) (busy : Bool) :
    ((s.refreshInstallAvailability busy).Sound ↔
        s.InstallOk (.refreshInstallAvailability busy)) ∧
      (s.InstallOk (.refreshInstallAvailability busy) →
        (s.refreshInstallAvailability busy).Inv) := by
  unfold refreshInstallAvailability
  split
  · next hflag =>
    split
    · next hnone =>
      refine ⟨iff_of_true hinv.sound fun _ _ manifest hmem => ?_, fun _ => hinv⟩
      cases hnone.symm.trans hmem
    · next manifest hcurrent =>
      have hready := setReady_keeps _ hinv.base hcurrent (hinv.base.verified hflag)
        manifest.version busy
      have hiff : s.InstallOk (.refreshInstallAvailability busy) ↔ (busy = false →
          s.verifyApk manifest = true ∧ s.currentVersionCode < manifest.versionCode) := by
        constructor
        · exact fun h hbusy => h hflag hbusy manifest hcurrent
        · intro h _ hbusy other hmem
          obtain rfl : manifest = other := Option.some.inj (hcurrent.symm.trans hmem)
          exact h hbusy
      rw [hiff]
      exact hready
  · next hflag => exact ⟨iff_of_true hinv.sound fun h => absurd h hflag, fun _ => hinv⟩

/-- A file that is offered is written by no task. -/
theorem transfer_inv {s t : UpdateManager} {id : Nat} {status : DownloadStatus}
    {downloaded total : Nat} {apk : Option Apk} (hinv : s.Inv)
    (h : s.transfer id status downloaded total apk = some t) : t.Inv := by
  obtain ⟨download, hdownload, ht⟩ := Option.bind_eq_some_iff.mp h
  split at ht
  · cases ht
  · next hwriting =>
    cases ht
    have hid : s.preferences.downloadId = some id :=
      hinv.base.writing id download hdownload (by simpa using hwriting)
    apply Base.inv
    · constructor
      · intro other found hmem hnot
        by_cases heq : other = id
        · rw [heq]
          exact hid
        · exact hinv.base.writing other found ((Function.update_of_ne heq _ _).symm.trans hmem) hnot
      · exact hinv.base.polled
      · exact hinv.base.verified
      · exact hinv.base.restoring
      · exact hinv.base.checking
    · intro hinstall
      cases hid.symm.trans (hinv.offered hinstall)

theorem newProcess_inv {s : UpdateManager} (hinv : s.Inv) (versionCode : Nat) :
    (s.newProcess versionCode).Inv := by
  have hstarted : ∀ available, Base { s with
      currentVersionCode := versionCode
      state := { action := .check }
      available := available
      polling := none
      checking := false
      restoring := none } := by
    intro available
    refine ⟨hinv.base.writing, ?_, hinv.base.verified, ?_, fun _ => rfl⟩
    · rintro _ ⟨⟩
    · rintro _ ⟨⟩
  unfold newProcess
  dsimp only
  split
  · exact (hstarted none).inv (by simp)
  · next manifest _ =>
    split
    · exact (hstarted none).inv (by simp)
    · next hnewer =>
      split
      · next hflag =>
        refine Base.inv ⟨hinv.base.writing, ?_, hinv.base.verified, ?_, fun h => by cases h⟩
          (by simp)
        · rintro _ ⟨⟩
        · rintro _ ⟨⟩
          exact ⟨rfl, Nat.lt_of_not_le hnewer, hflag.1⟩
      · split
        · next id hid =>
          refine Base.inv ⟨hinv.base.writing, ?_, hinv.base.verified, ?_, fun _ => rfl⟩ (by simp)
          · rintro _ ⟨⟩
            exact hid
          · rintro _ ⟨⟩
        · exact (hstarted (some manifest)).shown (by simp)

/-- The app after its first installation. -/
def start (packageName : String) (signers : List String) (versionCode : Nat) : UpdateManager :=
  { packageName, signers, currentVersionCode := versionCode }

theorem start_inv (packageName : String) (signers : List String) (versionCode : Nat) :
    (start packageName signers versionCode).Inv := by
  apply Base.inv
  · constructor
    · rintro _ _ ⟨⟩
    · rintro _ ⟨⟩
    · rintro ⟨⟩
    · rintro _ ⟨⟩
    · exact fun _ => rfl
  · simp [start]

theorem step_keeps {s t : UpdateManager} {e : Event} (hinv : s.Inv) (h : s.step e = some t) :
    (t.Sound ↔ s.InstallOk e) ∧ (s.InstallOk e → t.Inv) := by
  have hfine : t.Inv → s.InstallOk e → (t.Sound ↔ s.InstallOk e) ∧ (s.InstallOk e → t.Inv) :=
    fun ht hok => ⟨iff_of_true ht.sound hok, fun _ => ht⟩
  cases e with
  | beginCheck manual now =>
    obtain ⟨hidle, ht⟩ := Option.ite_none_right_eq_some.mp h
    cases ht
    exact hfine (beginCheck_inv hinv hidle manual now) trivial
  | endCheck fetched now busy =>
    obtain ⟨hchecking, ht⟩ := Option.ite_none_right_eq_some.mp h
    cases ht
    exact hfine (endCheck_inv hinv hchecking fetched now busy) trivial
  | startDownload enqueued =>
    obtain ⟨hidle, ht⟩ := Option.ite_none_right_eq_some.mp h
    cases ht
    exact hfine (startDownload_inv hinv hidle enqueued) trivial
  | cancelDownload =>
    obtain ⟨hidle, ht⟩ := Option.ite_none_right_eq_some.mp h
    cases ht
    exact hfine (cancelDownload_inv hinv hidle) trivial
  | pollDownload busy =>
    obtain ⟨hidle, ht⟩ := Option.ite_none_right_eq_some.mp h
    obtain ⟨p, hpolling, rfl⟩ := Option.map_eq_some_iff.mp ht
    exact pollDownload_keeps hinv hidle hpolling busy
  | restoreVerified busy =>
    obtain ⟨manifest, hrestoring, rfl⟩ := Option.map_eq_some_iff.mp h
    exact hfine (restoreVerified_inv hinv hrestoring busy) trivial
  | prepareInstall busy =>
    cases h
    exact hfine (prepareInstall_inv hinv busy) trivial
  | refreshInstallAvailability busy =>
    cases h
    exact refreshInstallAvailability_keeps hinv busy
  | transfer id status downloaded total apk => exact hfine (transfer_inv hinv h) trivial
  | newProcess versionCode =>
    obtain ⟨-, ht⟩ := Option.ite_none_right_eq_some.mp h
    cases ht
    exact hfine (newProcess_inv hinv versionCode) trivial

/-- Installation is offered only for a verified file of the current, newer manifest exactly
in the runs in which the flag is read for such a file only, and downloads that end are of
newer versions. -/
theorem install_only_verified (packageName : String) (signers : List String) (versionCode : Nat)
    (es : List Event) :
    Always step Sound (start packageName signers versionCode) es ↔
      Along step InstallOk (start packageName signers versionCode) es := by
  have hstart := start_inv packageName signers versionCode
  apply always_iff_along Inv es hstart hstart.sound
  intro s e t hinv _ hstep
  exact step_keeps hinv hstep

/-- The downloaded version has been installed, and the settings are opened. -/
def installedRun : List Event :=
  let asset : Asset := { url := "https://apk", sha256 := "d", size := 1 }
  let manifest : Manifest :=
    { version := "0.2.0", versionCode := 2, releaseUrl := "https://release", android := asset }
  let apk : Apk := { length := 1, sha256 := "d", archive := some ("app.flowtype", ["c"]) }
  [.beginCheck true 0, .endCheck (.ok manifest) 0 false, .startDownload true,
    .transfer 0 .successful 1 1 (some apk), .pollDownload false, .prepareInstall false,
    .newProcess 2, .refreshInstallAvailability false]

theorem installedRun_not_sound :
    ¬ Always step Sound (start "app.flowtype" ["c"] 1) installedRun := by
  intro h
  have hlast := h.last installedRun rfl
  obtain ⟨manifest, hcurrent, -, hnewer⟩ := hlast rfl
  cases hcurrent
  revert hnewer
  decide

end UpdateManager

end FlowType
