import FlowType.EntryStorage

/-! What is staged of an entry of an upload. Bytes are written first and recorded later, and a
phone that comes back sends from the recorded offset on: what the record says must be there. -/
namespace FlowType

open Threads

def EntryState.isOpen : EntryState → Bool
  | .pending | .transferring | .waitingNetwork => true
  | _ => false

namespace Storage

def Staged (d : Storage) (size : Nat) : Prop :=
  (∃ file, d.part = some file ∧ d.Holds file d.progress.committedOffset) ∨
    d.part = none ∧ (d.progress.committedOffset = 0 ∨
      ∃ file, d.target = some file ∧ (d.files file).bytes.length = size)

def Unrecorded (d : Storage) : Prop :=
  d.progress.state.isOpen = true ∧ 0 < d.progress.committedOffset ∧ d.part = none

structure StagingInv (size : Nat) (d : Storage) : Prop where
  committed_le : d.progress.committedOffset ≤ size
  staged : d.progress.state.isOpen = true → d.Staged size
  /-- Of an entry that was given up, what is left may be too short, and then an upload is refused. -/
  left : d.progress.state.isOpen = false → d.progress.state ≠ .completed → ∀ file,
    d.part = some file →
    (d.files file).bytes.length < d.progress.committedOffset ∨
      d.Holds file d.progress.committedOffset

structure Receiving (d : Storage) (file received : Nat) : Prop where
  part : d.part = some file
  bytes : (d.files file).bytes = d.sent
  length : d.sent.length = received
  durable : d.progress.committedOffset ≤ (d.files file).synced
  committed_le : d.progress.committedOffset ≤ received

/-- What the thread that owns the entry relies on. -/
def StagingStage (size : Nat) (d : Storage) : Stage → Prop
  | .opening offset _ => offset = d.progress.committedOffset ∧ d.progress.state ≠ .completed
  | .opened file offset _ => offset = d.progress.committedOffset ∧ d.Receiving file offset
  | .receiving file received _ | .persisting file received _ | .ending file received _ =>
    d.progress.state.isOpen = true ∧ received ≤ size ∧ d.Receiving file received
  | .recording file received _ | .finishing file received _ =>
    received ≤ size ∧ d.Receiving file received ∧ received ≤ (d.files file).synced
  | .compared _ staged => staged = true →
    ∃ file, d.part = some file ∧ (d.files file).bytes.length = size
  | .committing _ => ∃ file, d.part = some file ∧ (d.files file).bytes.length = size
  | .failing offset => offset = d.progress.committedOffset ∧ d.progress.state ≠ .completed
  | .discarding => d.progress.state = .failed
  | _ => True

section
variable {d : Storage} {size file received : Nat}

theorem stagingInv_start (size : Nat) : ({} : EntryPort).storage.StagingInv size := by
  refine ⟨Nat.zero_le _, fun _ => .inr ⟨rfl, .inl rfl⟩, ?_⟩
  intro hopen
  cases hopen

theorem Receiving.holds (h : d.Receiving file received) :
    d.Holds file d.progress.committedOffset :=
  { length_le := by rw [h.bytes, h.length]; exact h.committed_le
    durable := h.durable
    prefix_eq := by rw [h.bytes] }

theorem Receiving.inv (h : d.Receiving file received) (hle : d.progress.committedOffset ≤ size) :
    d.StagingInv size := by
  refine ⟨hle, fun _ => .inl ⟨file, h.part, h.holds⟩, ?_⟩
  intro _ _ file' hfile'
  obtain rfl : file = file' := Option.some.inj (h.part.symm.trans hfile')
  exact .inr h.holds

/-- The staged file is cut at the recorded offset. -/
theorem Receiving.cut (hpart : d.part = some file)
    (hholds : d.Holds file d.progress.committedOffset) :
    Receiving
      { d with
        files := Function.update d.files file
          ((d.files file).setLen d.progress.committedOffset)
        sent := d.sent.take d.progress.committedOffset }
      file d.progress.committedOffset := by
  have hlength : (d.sent.take d.progress.committedOffset).length = d.progress.committedOffset := by
    rw [← hholds.prefix_eq, List.length_take]
    exact Nat.min_eq_left hholds.length_le
  refine ⟨hpart, ?_, hlength, ?_, le_rfl⟩
  · simp only [Function.update_self]
    exact hholds.prefix_eq
  · simp only [Function.update_self]
    exact le_min hholds.durable le_rfl

/-- A frame is written behind what was received. -/
theorem Receiving.frame (h : d.Receiving file received) (data : List UInt8) :
    Receiving
      { d with
        files := Function.update d.files file ((d.files file).writeAt received data)
        sent := d.sent.take received ++ data }
      file (received + data.length) := by
  have htake : d.sent.take received = d.sent := List.take_of_length_le (by rw [h.length])
  refine ⟨h.part, ?_, ?_, ?_, ?_⟩
  · simp only [Function.update_self, FileData.writeAt]
    rw [h.bytes, htake, List.drop_eq_nil_of_le (by rw [h.length]; omega), List.append_nil]
  · rw [htake, List.length_append, h.length]
  · simp only [Function.update_self]
    exact le_min h.durable h.committed_le
  · exact h.committed_le.trans (Nat.le_add_right _ _)

theorem Receiving.sync (h : d.Receiving file received) :
    Receiving { d with files := Function.update d.files file (d.files file).sync } file received ∧
      received ≤ (Function.update d.files file (d.files file).sync file).synced := by
  have hlength : (d.files file).bytes.length = received := by rw [h.bytes, h.length]
  refine ⟨⟨h.part, ?_, h.length, ?_, h.committed_le⟩, ?_⟩
  · simp only [Function.update_self]
    exact h.bytes
  · simp only [Function.update_self, FileData.sync, hlength]
    exact h.committed_le
  · simp only [Function.update_self, FileData.sync, hlength]
    exact le_rfl

theorem Receiving.record (h : d.Receiving file received)
    (hsynced : received ≤ (d.files file).synced) (state : EntryState) :
    Receiving { d with progress := { state, committedOffset := received } } file received :=
  ⟨h.part, h.bytes, h.length, hsynced, le_rfl⟩

theorem Holds.powerFailure (h : d.Holds file received) (junk : Nat → List UInt8) :
    (d.powerFailure junk).Holds file received := by
  have hprefix : ((d.files file).bytes.take (d.files file).synced).length ≥ received := by
    rw [List.length_take]
    exact le_min h.durable h.length_le
  refine ⟨?_, h.durable, ?_⟩
  · change received ≤ (_ ++ _ : List UInt8).length
    rw [List.length_append]
    omega
  · change (_ ++ _ : List UInt8).take received = d.sent.take received
    rw [List.take_append_of_le_length hprefix, List.take_take, Nat.min_eq_left h.durable]
    exact h.prefix_eq

theorem length_powerFailure_le (f : FileData) (junk : List UInt8) :
    (f.powerFailure junk).bytes.length ≤ f.bytes.length := by
  change (_ ++ _ : List UInt8).length ≤ _
  simp only [List.length_append, List.length_take]
  omega

/-- A staged file has the recorded bytes, or it is too short and the entry was given up. -/
theorem StagingInv.part_cases (h : d.StagingInv size) (hnot : d.progress.state ≠ .completed)
    (hpart : d.part = some file) :
    (d.files file).bytes.length < d.progress.committedOffset ∨
      d.Holds file d.progress.committedOffset := by
  cases hopen : d.progress.state.isOpen with
  | true =>
    rcases h.staged hopen with ⟨file', hfile', hholds⟩ | ⟨hnone, -⟩
    · obtain rfl : file = file' := Option.some.inj (hpart.symm.trans hfile')
      exact .inr hholds
    · exact absurd (hpart.symm.trans hnone) (Option.some_ne_none file)
  | false => exact h.left hopen hnot file hpart

theorem StagingInv.powerFailure (h : d.StagingInv size) (junk : Nat → List UInt8)
    (htarget : d.Unrecorded → ∀ file, d.target = some file →
      ((d.files file).powerFailure (junk file)).bytes.length = (d.files file).bytes.length) :
    (d.powerFailure junk).StagingInv size := by
  refine ⟨h.committed_le, ?_, ?_⟩
  · intro hopen
    rcases h.staged hopen with ⟨file, hpart, hholds⟩ | ⟨hpart, hnone | ⟨file, hfile, hlength⟩⟩
    · exact .inl ⟨file, hpart, hholds.powerFailure junk⟩
    · exact .inr ⟨hpart, .inl hnone⟩
    · by_cases hnone : d.progress.committedOffset = 0
      · exact .inr ⟨hpart, .inl hnone⟩
      · refine .inr ⟨hpart, .inr ⟨file, hfile, ?_⟩⟩
        exact (htarget ⟨hopen, by omega, hpart⟩ file hfile).trans hlength
  · intro hopen hnot file hpart
    rcases h.left hopen hnot file hpart with hshort | hholds
    · exact .inl (lt_of_le_of_lt (length_powerFailure_le _ _) hshort)
    · exact .inr (hholds.powerFailure junk)

end

end Storage

namespace EntryPort
variable {hashFile : List UInt8 → String} {entry : ManifestEntry} {p : EntryPort}

/-- What a step of the owner has to keep. -/
structure Kept (size : Nat) (p : EntryPort) (e : StageEffect) : Prop where
  inv : e.port.storage.StagingInv size
  rises : p.progress.committedOffset ≤ e.port.progress.committedOffset
  next : e.port.storage.StagingStage size e.next

theorem Kept.same {size : Nat} {e : StageEffect} (h : p.storage.StagingInv size)
    (hport : e.port.storage = p.storage) (hnext : p.storage.StagingStage size e.next) :
    Kept size p e := by
  have hprogress : e.port.progress = p.progress := congrArg Storage.progress hport
  exact ⟨by rw [hport]; exact h, by rw [hprogress], by rw [hport]; exact hnext⟩

theorem Kept.orFail {size : Nat} {failed : Answer → Stage} {input : Input} {effect : StageEffect}
    (h : p.storage.StagingInv size)
    (hfailed : ∀ answer, p.storage.StagingStage size (failed answer))
    (heffect : (∀ code, input ≠ .fail code) → Kept size p effect) :
    Kept size p (p.orFail failed input effect) := by
  cases input with
  | fail code => exact .same h rfl (hfailed _)
  | go => exact heffect fun code hcode => by cases hcode
  | frame data persist => exact heffect fun code hcode => by cases hcode
  | endOfBody => exact heffect fun code hcode => by cases hcode

theorem stagingStage_concluded (d : Storage) (size : Nat) (runner : Runner) (answer : Answer) :
    d.StagingStage size (runner.concluded answer) := by
  cases runner <;> trivial

theorem stagingStage_pollVerification (d : Storage) (size : Nat) (hash : String) :
    d.StagingStage size (p.pollVerification hash).next := by
  unfold pollVerification
  split
  · split
    · trivial
    · split <;> trivial
  · trivial

theorem kept_serve (h : p.storage.StagingInv entry.size) (r : Request) :
    Kept entry.size p (p.serve entry .phoneToComputer r) := by
  refine .same h (serve_keeps p r).1 ?_
  cases r with
  | head => trivial
  | upload offset deferredHash =>
    rw [serve, serveUpload]
    split_ifs with h₁ h₂ h₃ h₄ h₅
    · trivial
    · trivial
    · trivial
    · trivial
    · trivial
    · exact ⟨not_not.1 h₃, h₅⟩
  | verify hash async =>
    cases async with
    | true => exact stagingStage_pollVerification _ _ hash
    | false => trivial
  | failure =>
    rw [serve]
    split
    · rename_i hfails
      refine ⟨rfl, ?_⟩
      rcases hfails with hnot | hdirection
      · exact hnot
      · cases hdirection
    · trivial
  | other => trivial

theorem openPart_of_some {file : Nat} (h : p.part = some file) : p.openPart = (p, file) := by
  rw [openPart, h]

theorem openPart_of_none (h : p.part = none) : p.openPart =
    ({ p.setFile p.nextFile {} with part := some p.nextFile, nextFile := p.nextFile + 1 },
      p.nextFile) := by
  rw [openPart, h]

/-- The staged file is opened, or made when there is none. -/
theorem openPart_spec (h : p.storage.StagingInv entry.size)
    (hnot : p.progress.state ≠ .completed) (hrecorded : ¬p.storage.Unrecorded) :
    p.openPart.1.storage.StagingInv entry.size ∧ p.openPart.1.progress = p.progress ∧
      p.openPart.1.part = some p.openPart.2 ∧
      ((p.openPart.1.files p.openPart.2).bytes.length < p.progress.committedOffset ∨
        p.openPart.1.storage.Holds p.openPart.2 p.progress.committedOffset) := by
  cases hpart : p.part with
  | some file =>
    rw [openPart_of_some hpart]
    exact ⟨h, rfl, hpart, h.part_cases hnot hpart⟩
  | none =>
    have hopened := openPart_of_none hpart
    have hempty : (p.setFile p.nextFile {}).files p.nextFile = {} := Function.update_self _ _ _
    have hholds : p.progress.committedOffset = 0 → (EntryPort.storage
        { p.setFile p.nextFile {} with
          part := some p.nextFile, nextFile := p.nextFile + 1 }).Holds p.nextFile
          p.progress.committedOffset := by
      intro hzero
      rw [hzero]
      exact ⟨Nat.zero_le _, Nat.zero_le _, rfl⟩
    have hshort : p.progress.committedOffset ≠ 0 →
        ((p.setFile p.nextFile {}).files p.nextFile).bytes.length < p.progress.committedOffset := by
      intro hnonzero
      rw [hempty]
      exact Nat.pos_of_ne_zero hnonzero
    rw [hopened]
    refine ⟨⟨h.committed_le, ?_, ?_⟩, rfl, rfl, ?_⟩
    · intro hopen
      have hzero : p.progress.committedOffset = 0 := by
        by_contra hnonzero
        exact hrecorded ⟨hopen, Nat.pos_of_ne_zero hnonzero, hpart⟩
      exact .inl ⟨p.nextFile, rfl, hholds hzero⟩
    · intro _ _ file hfile
      obtain rfl := Option.some.inj hfile
      by_cases hzero : p.progress.committedOffset = 0
      · exact .inr (hholds hzero)
      · exact .inl (hshort hzero)
    · by_cases hzero : p.progress.committedOffset = 0
      · exact .inr (hholds hzero)
      · exact .inl (hshort hzero)

/-- The staged file is cut at the recorded offset. -/
theorem kept_openStaged (h : p.storage.StagingInv entry.size) {offset : Nat} (deferredHash : Bool)
    (hoffset : offset = p.progress.committedOffset) (hnot : p.progress.state ≠ .completed)
    (hrecorded : ¬p.storage.Unrecorded) :
    Kept entry.size p (p.openStaged offset deferredHash) := by
  obtain ⟨hinv, hprogress, hpart, hlength⟩ := openPart_spec h hnot hrecorded
  have hcommitted : p.progress.committedOffset ≤ p.openPart.1.progress.committedOffset := by
    rw [hprogress]
  rw [openStaged]
  split
  · exact ⟨hinv, hcommitted, trivial⟩
  · rename_i hlong
    have hholds : p.openPart.1.storage.Holds p.openPart.2 offset := by
      rcases hlength with hshort | hholds
      · rw [← hoffset] at hshort
        exact absurd hshort hlong
      · rw [hoffset]
        exact hholds
    have hcommitted' : offset = p.openPart.1.progress.committedOffset := by
      rw [hprogress]
      exact hoffset
    subst hcommitted'
    have hreceiving := Storage.Receiving.cut hpart hholds
    exact ⟨hreceiving.inv hinv.committed_le, hcommitted, rfl, hreceiving⟩

theorem kept_receiveFrame (h : p.storage.StagingInv entry.size) {file received : Nat}
    (hashed : Option (List UInt8)) (data : List UInt8) (persist : Bool)
    (hopen : p.progress.state.isOpen = true) (hreceiving : p.storage.Receiving file received) :
    Kept entry.size p (p.receiveFrame entry file received hashed data persist) := by
  rw [receiveFrame]
  split
  · exact .same h rfl trivial
  · split
    · exact .same h rfl trivial
    · rename_i hsize
      have hframe := hreceiving.frame data
      have hnext := And.intro hopen (And.intro (not_lt.1 hsize) hframe)
      refine ⟨hframe.inv h.committed_le, le_rfl, ?_⟩
      dsimp only
      split
      · exact hnext
      · exact hnext

theorem kept_receive (h : p.storage.StagingInv entry.size) {file received : Nat}
    (hashed : Option (List UInt8)) (input : Input)
    (hstage : p.storage.StagingStage entry.size (.receiving file received hashed)) :
    Kept entry.size p (p.receive entry file received hashed input) := by
  cases input with
  | frame data persist => exact kept_receiveFrame h hashed data persist hstage.1 hstage.2.2
  | endOfBody => exact .same h rfl hstage
  | fail code => exact .same h rfl trivial
  | go => exact .same h rfl hstage

theorem kept_finishBody (h : p.storage.StagingInv entry.size) {file received : Nat}
    (hashed : Option (List UInt8)) (hsize : received ≤ entry.size)
    (hreceiving : p.storage.Receiving file received)
    (hsynced : received ≤ (p.files file).synced) :
    Kept entry.size p (p.finishBody hashFile entry received hashed) := by
  have hrecorded : ∀ state answer, Kept entry.size p
      { port := p.writeProgress state received, next := .releasing answer } :=
    fun state _ => ⟨(hreceiving.record hsynced state).inv hsize, hreceiving.committed_le, trivial⟩
  rw [finishBody]
  split
  · exact hrecorded _ _
  · split
    · exact .same h rfl trivial
    · exact hrecorded _ _

theorem kept_verification (h : p.storage.StagingInv entry.size) (input : Input) {s : Stage}
    {runner : Runner}
    (hs : (∃ hash, s = .verifying runner hash) ∨ (∃ hash staged, s = .comparing runner hash staged) ∨
      (∃ staged, s = .compared runner staged) ∨ s = .committing runner ∨ s = .completing runner)
    (hstage : p.storage.StagingStage entry.size s) :
    Kept entry.size p (p.step hashFile entry .phoneToComputer input s) := by
  have hconcluded := fun answer => stagingStage_concluded p.storage entry.size runner answer
  rcases hs with ⟨hash, rfl⟩ | ⟨hash, staged, rfl⟩ | ⟨staged, rfl⟩ | rfl | rfl
  · refine Kept.orFail h hconcluded fun _ => ?_
    rw [startVerification]
    split_ifs with h₁ h₂ h₃
    · exact .same h rfl (hconcluded _)
    · cases h₂
    · exact .same h rfl (hconcluded _)
    · exact .same h rfl trivial
  · refine Kept.orFail h hconcluded fun _ => ?_
    rw [compareFile]
    split
    · exact .same h rfl (hconcluded _)
    · rename_i file hfile
      split
      · exact .same h rfl (hconcluded _)
      · rename_i hsame
        refine .same h rfl ?_
        rintro rfl
        exact ⟨file, hfile, by_contra fun hlength => hsame (.inl hlength)⟩
  · rw [step, checkTicket]
    split
    · exact .same h rfl (hconcluded _)
    · split
      · rename_i hstaged
        exact .same h rfl (hstage hstaged)
      · exact .same h rfl trivial
  · refine Kept.orFail h hconcluded fun _ => ?_
    rw [commitPart]
    split
    · exact .same h rfl (hconcluded _)
    · split
      · exact .same h rfl (hconcluded _)
      · rename_i file hfile
        obtain ⟨file', hfile', hlength⟩ := hstage
        obtain rfl : file = file' := Option.some.inj (hfile.symm.trans hfile')
        refine ⟨⟨h.committed_le, ?_, ?_⟩, le_rfl, trivial⟩
        · exact fun _ => .inr ⟨rfl, .inr ⟨file, rfl, hlength⟩⟩
        · intro _ _ file' hfile'
          cases hfile'
  · refine Kept.orFail h hconcluded fun _ => ?_
    refine ⟨⟨le_rfl, ?_, ?_⟩, h.committed_le, stagingStage_concluded _ _ runner _⟩
    · intro hopen
      cases hopen
    · intro _ hnot
      exact absurd rfl hnot

variable (hashFile) in
theorem kept_step (h : p.storage.StagingInv entry.size) (input : Input) {s : Stage}
    (hworks : s.works = true) (hstage : p.storage.StagingStage entry.size s)
    (hrecorded : ∀ offset deferredHash, s = .opening offset deferredHash →
      (∀ code, input ≠ .fail code) → ¬p.storage.Unrecorded) :
    Kept entry.size p (p.step hashFile entry .phoneToComputer input s) := by
  cases s with
  | leased r => exact Kept.orFail h (fun _ => trivial) fun _ => kept_serve h r
  | opening offset deferredHash =>
    refine Kept.orFail h (fun _ => trivial) fun hinput => ?_
    exact kept_openStaged h deferredHash hstage.1 hstage.2 (hrecorded _ _ rfl hinput)
  | opened file offset deferredHash =>
    refine Kept.orFail h (fun _ => trivial) fun _ => ?_
    obtain ⟨hoffset, hreceiving⟩ := hstage
    have hdurable : offset ≤ (p.files file).synced := hoffset ▸ hreceiving.durable
    have hrecord := hreceiving.record hdurable .transferring
    have hsize : offset ≤ entry.size := hoffset ▸ h.committed_le
    exact ⟨hrecord.inv hsize, hoffset.ge, rfl, hsize, hrecord⟩
  | receiving file received hashed => exact kept_receive h hashed input hstage
  | persisting file received hashed =>
    refine Kept.orFail h (fun _ => trivial) fun _ => ?_
    obtain ⟨hopen, hsize, hreceiving⟩ := hstage
    obtain ⟨hsync, hsynced⟩ := hreceiving.sync
    exact ⟨hsync.inv h.committed_le, le_rfl, hsize, hsync, hsynced⟩
  | recording file received hashed =>
    refine Kept.orFail h (fun _ => trivial) fun _ => ?_
    obtain ⟨hsize, hreceiving, hsynced⟩ := hstage
    have hrecord := hreceiving.record hsynced .transferring
    exact ⟨hrecord.inv hsize, hreceiving.committed_le, rfl, hsize, hrecord⟩
  | ending file received hashed =>
    refine Kept.orFail h (fun _ => trivial) fun _ => ?_
    obtain ⟨hopen, hsize, hreceiving⟩ := hstage
    obtain ⟨hsync, hsynced⟩ := hreceiving.sync
    exact ⟨hsync.inv h.committed_le, le_rfl, hsize, hsync, hsynced⟩
  | finishing file received hashed =>
    refine Kept.orFail h (fun _ => trivial) fun _ => ?_
    obtain ⟨hsize, hreceiving, hsynced⟩ := hstage
    exact kept_finishBody h hashed hsize hreceiving hsynced
  | verifying runner hash => exact kept_verification h input (.inl ⟨hash, rfl⟩) hstage
  | comparing runner hash staged =>
    exact kept_verification h input (.inr (.inl ⟨hash, staged, rfl⟩)) hstage
  | compared runner staged => exact kept_verification h input (.inr (.inr (.inl ⟨staged, rfl⟩))) hstage
  | committing runner => exact kept_verification h input (.inr (.inr (.inr (.inl rfl)))) hstage
  | completing runner => exact kept_verification h input (.inr (.inr (.inr (.inr rfl)))) hstage
  | failing offset =>
    refine Kept.orFail h (fun _ => trivial) fun _ => ?_
    obtain ⟨rfl, hnot⟩ := hstage
    refine ⟨⟨h.committed_le, (fun hopen => by cases hopen), ?_⟩, le_rfl, ?_⟩
    · intro _ _ file hfile
      rcases h.part_cases hnot hfile with hshort | hholds
      · exact .inl hshort
      · exact .inr ⟨hholds.length_le, hholds.durable, hholds.prefix_eq⟩
    · dsimp only
      split
      · rfl
      · trivial
  | discarding =>
    have hfailed : p.progress.state = .failed := hstage
    refine ⟨⟨h.committed_le, ?_, ?_⟩, le_rfl, trivial⟩
    · intro hopen
      change p.progress.state.isOpen = true at hopen
      rw [hfailed] at hopen
      cases hopen
    · intro _ _ file hfile
      cases hfile
  | _ => cases hworks

end EntryPort

namespace PortWorld

/-- Once the file was renamed, no upload opens a staged file as long as the entry is not recorded
as completed, and no power failure takes any of its bytes. -/
def SparesRenamed (w : PortWorld) : PortEvent → Prop
  | .step thread input _ => ∀ offset deferredHash,
      w.threads thread = some (.opening offset deferredHash) → (∀ code, input ≠ .fail code) →
        w.port.state.isTerminal = false → ¬w.port.storage.Unrecorded
  | .powerFailure junk => w.port.state.isTerminal = false → w.port.storage.Unrecorded →
      ∀ file, w.port.target = some file →
        ((w.port.files file).powerFailure (junk file)).bytes.length =
          (w.port.files file).bytes.length
  | _ => True

section
variable (hashFile : List UInt8 → String) (entry : ManifestEntry)

theorem stagingDiscipline : Discipline hashFile entry .phoneToComputer SparesRenamed
    (Storage.StagingInv entry.size)
    (fun d d' => d.progress.committedOffset ≤ d'.progress.committedOffset)
    (fun d s => d.StagingStage entry.size s) where
  refl _ := le_rfl
  idle d s hworks _ := by
    cases s <;> trivial
  request _ _ _ _ _ := trivial
  pass _ _ _ _ _ := ⟨trivial, trivial⟩
  job _ _ _ := trivial
  stable d d' s howns _ _ _ := by
    cases s <;> trivial
  step w thread input fresh s hthread hworks hopen hok hinv hstage := by
    have hrecorded : ∀ offset deferredHash, s = .opening offset deferredHash →
        (∀ code, input ≠ .fail code) → ¬w.port.storage.Unrecorded := by
      intro offset deferredHash hs hinput
      exact hok offset deferredHash (hthread.trans (congrArg some hs)) hinput hopen
    have hkept := EntryPort.kept_step hashFile hinv input hworks hstage hrecorded
    exact ⟨hkept.inv, hkept.rises, hkept.next⟩
  crash w junk hopen hok hinv :=
    ⟨hinv.powerFailure junk fun hrenamed => hok hopen hrenamed, le_rfl⟩

/-- Of an open entry the recorded bytes are staged, as long as the batch is not terminal. -/
def StagingHolds (w : PortWorld) : Prop :=
  w.port.state.isTerminal = false → w.port.progress.state.isOpen = true →
    w.port.progress.committedOffset ≤ entry.size ∧ w.port.storage.Staged entry.size

/-- The recorded offset is not lowered, as long as the batch is not terminal. -/
def Rises (w : PortWorld) (e : PortEvent) : Prop :=
  ∀ w', w.step hashFile entry .phoneToComputer e = some w' → w'.port.state.isTerminal = false →
    w.port.progress.committedOffset ≤ w'.port.progress.committedOffset

variable {hashFile entry} {w w' : PortWorld}

/-- An upload makes a new staged file for an entry whose file was renamed: it is too short. -/
theorem not_staged_of_openStaged {p : EntryPort} (size : Nat) (deferredHash : Bool)
    (h : p.storage.Unrecorded) :
    (p.openStaged p.progress.committedOffset deferredHash).port.progress = p.progress ∧
      ¬(p.openStaged p.progress.committedOffset deferredHash).port.storage.Staged size := by
  obtain ⟨-, hpos, hpart⟩ := h
  have hopened := EntryPort.openPart_of_none hpart
  have hempty : (p.setFile p.nextFile {}).files p.nextFile = {} := Function.update_self _ _ _
  have heffect : p.openStaged p.progress.committedOffset deferredHash =
      { port := { p.setFile p.nextFile {} with
          part := some p.nextFile, nextFile := p.nextFile + 1 }
        next := .releasing (.error "offset_mismatch") } := by
    rw [EntryPort.openStaged, hopened]
    dsimp only
    rw [hempty, if_pos (by exact hpos)]
  rw [heffect]
  refine ⟨rfl, ?_⟩
  rintro (⟨file, hfile, hholds⟩ | ⟨hnone, -⟩)
  · obtain rfl := Option.some.inj hfile
    have hlong : p.progress.committedOffset ≤
        ((p.setFile p.nextFile {}).files p.nextFile).bytes.length := hholds.length_le
    rw [hempty] at hlong
    exact absurd hlong (not_le.2 hpos)
  · cases hnone

theorem sparesRenamed_of_stagingHolds
    (hinv : EntryInv (Storage.StagingInv entry.size) (fun d s => d.StagingStage entry.size s) w)
    {e : PortEvent} (hs : w.step hashFile entry .phoneToComputer e = some w')
    (hholds : StagingHolds entry w') : SparesRenamed w e := by
  cases e with
  | step thread input fresh =>
    intro offset deferredHash hthread hinput hopen hrenamed
    obtain ⟨hoffset, -⟩ := (hinv.holds hopen).2 thread _ hthread
    obtain ⟨stage, hstage, -, rfl⟩ := step_thread_eq hs
    obtain rfl : stage = .opening offset deferredHash :=
      Option.some.inj (hstage.symm.trans hthread)
    have heffect : w.port.step hashFile entry .phoneToComputer input
        (.opening offset deferredHash) = w.port.openStaged offset deferredHash := by
      cases input with
      | fail code => exact absurd rfl (hinput code)
      | _ => rfl
    have hport : (w.stepThread hashFile entry .phoneToComputer thread
        (.opening offset deferredHash) input fresh).port =
          (w.port.openStaged w.port.progress.committedOffset deferredHash).port := by
      change (w.port.step hashFile entry .phoneToComputer input
        (.opening offset deferredHash)).port = _
      rw [heffect, hoffset]
      rfl
    obtain ⟨hprogress, hlost⟩ := not_staged_of_openStaged entry.size deferredHash hrenamed
    rw [StagingHolds, hport, hprogress] at hholds
    have hstate : (w.port.openStaged w.port.progress.committedOffset deferredHash).port.state =
        w.port.state := congrArg BatchView.state (EntryPort.batch_openStaged _ _ _)
    rw [hstate] at hholds
    exact hlost (hholds hopen hrenamed.1).2
  | powerFailure junk =>
    intro hopen hrenamed file hfile
    cases hs
    have hbefore := (hinv.holds hopen).1.staged hrenamed.1
    have hafter := (hholds hopen hrenamed.1).2
    have hlength : ∀ d : Storage, d.Staged entry.size → d.Unrecorded → d.target = some file →
        (d.files file).bytes.length = entry.size := by
      rintro d hstaged ⟨-, hpos, hnone⟩ htarget
      rcases hstaged with ⟨file', hpart, -⟩ | ⟨-, hzero | ⟨file', hfile', hlength⟩⟩
      · exact absurd (hpart.symm.trans hnone) (Option.some_ne_none file')
      · omega
      · obtain rfl : file = file' := Option.some.inj (htarget.symm.trans hfile')
        exact hlength
    exact (hlength _ hafter hrenamed hfile).trans (hlength _ hbefore hrenamed hfile).symm
  | _ => trivial

/-- What the phone may rely on when it comes back holds exactly if a file that was renamed is
left alone until it is recorded, in every run in which no request takes the entry while a job
of it runs. -/
theorem staging_iff (es : List PortEvent)
    (hfree : Machine.Along (step hashFile entry .phoneToComputer) TakesFreeEntry {} es) :
    Machine.Always (step hashFile entry .phoneToComputer) (StagingHolds entry) {} es ∧
        Machine.Along (step hashFile entry .phoneToComputer) (Rises hashFile entry) {} es ↔
      Machine.Along (step hashFile entry .phoneToComputer) SparesRenamed {} es := by
  have hdiscipline := stagingDiscipline hashFile entry
  have hstart : EntryInv (Storage.StagingInv entry.size)
      (fun d s => d.StagingStage entry.size s) {} := EntryInv.start (Storage.stagingInv_start _)
  have hholds : ∀ w, EntryInv (Storage.StagingInv entry.size)
      (fun d s => d.StagingStage entry.size s) w → StagingHolds entry w :=
    fun w hinv hopen hstate =>
      ⟨(hinv.holds hopen).1.committed_le, (hinv.holds hopen).1.staged hstate⟩
  have hiff : Machine.Always (step hashFile entry .phoneToComputer) (StagingHolds entry) {} es ↔
      Machine.Along (step hashFile entry .phoneToComputer) SparesRenamed {} es := by
    refine Machine.always_iff_along_of _ es hstart (hholds _ hstart) ?_ hfree
    intro w e w' hinv _ hok hs
    have hkeeps := fun hspares => hdiscipline.entryInv_step hinv hok hspares hs
    exact ⟨⟨sparesRenamed_of_stagingHolds hinv hs, fun hspares => hholds w' (hkeeps hspares)⟩,
      hkeeps⟩
  constructor
  · intro h
    exact hiff.1 h.1
  · intro hspares
    refine ⟨hiff.2 hspares, ?_⟩
    refine Machine.Along.of_invariant _ es hstart ?_ (hfree.and es hspares)
    intro w e w' hinv hok hs
    refine ⟨hdiscipline.entryInv_step hinv hok.1 hok.2 hs, ?_⟩
    intro w'' hs' hopen
    exact (holds_step hdiscipline hinv hok.2 hs' hopen).2.2

end

/-- The file is uploaded and renamed, the power fails before the entry is recorded, and an upload
of no further bytes follows. -/
def reopenedUpload : List PortEvent :=
  [.offer 0, .step 0 .go 9, .prepare, .request 1 (.upload 0 true)] ++ goes 5 1 9 ++
    [.step 1 (.frame [1, 2] false) 9, .step 1 .endOfBody 9] ++ goes 4 1 9 ++
    [.request 2 (.verify "h" false)] ++ goes 7 2 9 ++
    [.powerFailure fun _ => [], .offer 3, .step 3 .go 9, .request 4 (.upload 2 true)] ++ goes 4 4 9

theorem reopened_not_staged : ¬Machine.Always (step (fun _ => "h") twoBytes .phoneToComputer)
    (StagingHolds twoBytes) {} reopenedUpload := by
  intro h
  have hend : (Machine.run (step (fun _ => "h") twoBytes .phoneToComputer) {} reopenedUpload).any
      (fun w => decide (w.port.state.isTerminal = false ∧
        w.port.progress = { state := .transferring, committedOffset := 2 } ∧
        w.port.part = some 1 ∧ (w.port.files 1).bytes.length = 0)) = true := by
    decide +kernel
  obtain ⟨w, hrun, hw⟩ := (Option.any_eq_true _ _).1 hend
  obtain ⟨hopen, hprogress, hpart, hlength⟩ := of_decide_eq_true hw
  obtain ⟨-, hstaged⟩ := h.last _ hrun hopen (by rw [hprogress]; rfl)
  rcases hstaged with ⟨file, hfile, hholds⟩ | ⟨hnone, -⟩
  · obtain rfl : 1 = file := Option.some.inj (hpart.symm.trans hfile)
    have hlong : w.port.progress.committedOffset ≤ (w.port.files 1).bytes.length := hholds.length_le
    rw [hprogress, hlength] at hlong
    cases hlong
  · exact absurd (hpart.symm.trans hnone) (Option.some_ne_none 1)

theorem staging_iff_reopened :
    Machine.Always (step (fun _ => "h") twoBytes .phoneToComputer) (StagingHolds twoBytes) {}
        reopenedUpload ∧
      Machine.Along (step (fun _ => "h") twoBytes .phoneToComputer)
        (Rises (fun _ => "h") twoBytes) {} reopenedUpload ↔
    Machine.Along (step (fun _ => "h") twoBytes .phoneToComputer) SparesRenamed {} reopenedUpload :=
  staging_iff reopenedUpload (by decide +kernel)

end PortWorld

end FlowType
