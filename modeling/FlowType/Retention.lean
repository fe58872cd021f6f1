import FlowType.BatchStates
import FlowType.IdleExpiry
import FlowType.PhoneTransferStore

/-! The clean-up of old batches, when the program of the computer starts and when the phone resumes.
Both go by the time that the row of the batch was written; what is written besides the row, and
what is answered without any writing, leaves that time as it is. -/
namespace FlowType

open IdleExpiry

/-- What is answered without anything that is written: an offer of a batch that is there, a decision
that comes again, a look at a verification, the report of a failure that is known. -/
inductive RepeatedRequest
  | offer | decision | verification | failure
  deriving DecidableEq, Repr

/-! ### The computer -/

/-- `RETENTION` in seconds. -/
def WINDOWS_RETENTION : Nat := 7 * 24 * 60 * 60

structure WindowsShelf where
  world : BatchWorld := {}
  parts : Nat → Nat := fun _ => 0

/-- The events of a batch without their times. `receive` is for bytes that go into a staged file,
`startUp` for the start of the program. -/
inductive WindowsEvent
  | create (record : BatchRecord)
  | abandon
  | update (next : BatchState)
  | writeManifest (entries : List ManifestEntry)
  | commitTargets (root : List Char) (targets : List TargetRecord)
  | writeProgress (ordinal : Nat) (progress : EntryProgress)
  | complete (request : Nat)
  | scan (request : Nat)
  | finish (request : Nat)
  | receive (ordinal bytes : Nat)
  | answer (request : RepeatedRequest)
  | startUp

namespace BatchWorld

def finishes (w : BatchWorld) (request : Nat) : Bool :=
  match w.record, w.requests request with
  | some b, some (.writing failed) =>
    b.state.canTransitionTo (if failed then .partialFailure else .completed)
  | _, _ => false

def stamp (w : BatchWorld) : Option Nat := w.record.map (·.updatedAt)

end BatchWorld

namespace WindowsEvent

def timed (now : Nat) : WindowsEvent → Option BatchEvent
  | .create record => some (.create { record with createdAt := now, updatedAt := now })
  | .abandon => some .abandon
  | .update next => some (.update next now)
  | .writeManifest entries => some (.writeManifest entries)
  | .commitTargets root targets => some (.commitTargets root targets now)
  | .writeProgress ordinal progress => some (.writeProgress ordinal progress)
  | .complete request => some (.complete request)
  | .scan request => some (.scan request)
  | .finish request => some (.finish request now)
  | .startUp => some (.restart (now - WINDOWS_RETENTION))
  | .receive _ _ => none
  | .answer _ => none

def kind (w : BatchWorld) : WindowsEvent → Kind
  | .create _ => .begins
  | .abandon => .ends
  | .update _ => .refreshes
  | .writeManifest _ => .works
  | .commitTargets _ _ => .refreshes
  | .writeProgress _ _ => .works
  | .complete _ => .passes
  | .scan _ => .passes
  | .finish request => if w.finishes request then .refreshes else .passes
  | .receive _ _ => .works
  | .answer _ => .works
  | .startUp => .sweeps

end WindowsEvent

namespace WindowsShelf

/-- Staged files go with their batch. -/
def step (lineLength : ManifestEntry → Nat) (s : WindowsShelf) (now : Nat) (e : WindowsEvent) :
    Option WindowsShelf :=
  match e.timed now with
  | some event =>
    (s.world.step lineLength event).map fun world =>
      { world, parts := if world.record.isSome then s.parts else fun _ => 0 }
  | none =>
    if s.world.record.isNone then none
    else
      match e with
      | .receive ordinal bytes =>
        some { s with parts := Function.update s.parts ordinal (s.parts ordinal + bytes) }
      | _ => some s

end WindowsShelf

section Windows
variable {lineLength : ManifestEntry → Nat} {w w' : BatchWorld} {now : Nat} {e : WindowsEvent}

theorem StoredBatch.updateState_updatedAt {b b' : StoredBatch} {next : BatchState}
    (h : b.updateState next now = some b') (hpast : b.updatedAt ≤ now) : b'.updatedAt = now := by
  rw [updateState] at h
  split_ifs at h
  obtain rfl := Option.some.inj h
  exact max_eq_left hpast

/-- What an event of the store makes of the time in the record. -/
theorem BatchWorld.stamp_step {event : BatchEvent} (hevent : e.timed now = some event)
    (h : w.step lineLength event = some w') (hpast : ∀ r, w.stamp = some r → r ≤ now) :
    w'.stamp = (e.kind w).stamp WINDOWS_RETENTION now w.stamp := by
  have hrecord : ∀ b, w.record = some b → b.updatedAt ≤ now := by
    intro b hb
    apply hpast
    rw [stamp, hb]
    rfl
  cases e with
  | create record =>
    obtain rfl := Option.some.inj hevent
    rw [step] at h
    split_ifs at h
    obtain rfl := Option.some.inj h
    rfl
  | abandon =>
    obtain rfl := Option.some.inj hevent
    rw [step] at h
    obtain rfl := Option.some.inj h
    rfl
  | update next =>
    obtain rfl := Option.some.inj hevent
    rw [step] at h
    split_ifs at h
    obtain ⟨b', hb', rfl⟩ := Option.map_eq_some_iff.1 h
    obtain ⟨b, hb, hupdate⟩ := Option.bind_eq_some_iff.1 hb'
    have hnow := StoredBatch.updateState_updatedAt hupdate (hrecord b hb)
    simp only [stamp, hb, Option.map_some, hnow, WindowsEvent.kind, Kind.stamp]
  | writeManifest entries =>
    obtain rfl := Option.some.inj hevent
    rw [step] at h
    obtain ⟨b', hb', rfl⟩ := Option.map_eq_some_iff.1 h
    obtain ⟨b, hb, hwrite⟩ := Option.bind_eq_some_iff.1 hb'
    rw [StoredBatch.writeManifest] at hwrite
    split_ifs at hwrite
    obtain ⟨_, -, rfl⟩ := Option.map_eq_some_iff.1 hwrite
    simp only [stamp, hb, Option.map_some, WindowsEvent.kind, Kind.stamp]
  | commitTargets root targets =>
    obtain rfl := Option.some.inj hevent
    rw [step] at h
    obtain ⟨b', hb', rfl⟩ := Option.map_eq_some_iff.1 h
    obtain ⟨b, hb, hcommit⟩ := Option.bind_eq_some_iff.1 hb'
    rw [StoredBatch.commitTargets] at hcommit
    split_ifs at hcommit
    obtain rfl := Option.some.inj hcommit
    have hnow : max now b.updatedAt = now := max_eq_left (hrecord b hb)
    simp only [stamp, hb, Option.map_some, hnow, WindowsEvent.kind, Kind.stamp]
  | writeProgress ordinal progress =>
    obtain rfl := Option.some.inj hevent
    rw [step] at h
    obtain ⟨b, hb, h⟩ := Option.bind_eq_some_iff.1 h
    split_ifs at h
    obtain rfl := Option.some.inj h
    simp only [stamp, hb, WindowsEvent.kind, Kind.stamp]
    rfl
  | complete request =>
    obtain rfl := Option.some.inj hevent
    rw [step] at h
    obtain ⟨b, hb, h⟩ := Option.bind_eq_some_iff.1 h
    split_ifs at h
    obtain rfl := Option.some.inj h
    rfl
  | scan request =>
    obtain rfl := Option.some.inj hevent
    rw [step] at h
    obtain ⟨b, hb, h⟩ := Option.bind_eq_some_iff.1 h
    obtain ⟨c, -, rfl⟩ := Option.map_eq_some_iff.1 h
    rfl
  | finish request =>
    obtain rfl := Option.some.inj hevent
    rw [step] at h
    obtain ⟨b, hb, h⟩ := Option.bind_eq_some_iff.1 h
    obtain ⟨c, hc, h⟩ := Option.bind_eq_some_iff.1 h
    cases c with
    | scanning ordinal terminal failed => cases h
    | writing failed =>
      have hfinishes : w.finishes request =
          b.state.canTransitionTo (if failed then .partialFailure else .completed) := by
        rw [finishes, hb, hc]
      dsimp only at h
      rw [StoredBatch.updateState] at h
      rw [WindowsEvent.kind, hfinishes]
      by_cases hgoes : b.state.canTransitionTo
          (if failed then .partialFailure else .completed) = true
      · rw [if_pos hgoes] at h ⊢
        obtain rfl := Option.some.inj h
        have hnow : max now b.updatedAt = now := max_eq_left (hrecord b hb)
        simp only [stamp, hb, Option.map_some, hnow, Kind.stamp]
      · rw [if_neg hgoes] at h ⊢
        obtain rfl := Option.some.inj h
        rfl
  | receive ordinal bytes => cases hevent
  | answer request => cases hevent
  | startUp =>
    obtain rfl := Option.some.inj hevent
    rw [step] at h
    obtain rfl := Option.some.inj h
    simp only [stamp, WindowsEvent.kind, Kind.stamp]
    cases w.record with
    | none => rfl
    | some b =>
      have hage : now - WINDOWS_RETENTION ≤ b.updatedAt ↔
          now ≤ b.updatedAt + WINDOWS_RETENTION := by
        omega
      simp only [Option.filter_some, Option.map_some, hage]
      split_ifs <;> rfl

theorem WindowsShelf.stamp_step {s s' : WindowsShelf} (h : s.step lineLength now e = some s')
    (hpast : ∀ r, s.world.stamp = some r → r ≤ now) :
    s'.world.stamp = (e.kind s.world).stamp WINDOWS_RETENTION now s.world.stamp := by
  unfold step at h
  cases htimed : e.timed now with
  | some event =>
    rw [htimed] at h
    obtain ⟨world, hworld, rfl⟩ := Option.map_eq_some_iff.1 h
    exact BatchWorld.stamp_step htimed hworld hpast
  | none =>
    rw [htimed] at h
    cases e with
    | receive ordinal bytes =>
      dsimp only at h
      split_ifs at h
      obtain rfl := Option.some.inj h
      rfl
    | answer request =>
      dsimp only at h
      split_ifs at h
      obtain rfl := Option.some.inj h
      rfl
    | _ => exact nomatch htimed

/-- The batch of the computer with its clean-up. -/
def windowsKeeper (lineLength : ManifestEntry → Nat) : Keeper WindowsShelf WindowsEvent where
  step := WindowsShelf.step lineLength
  stamp s := s.world.stamp
  kind s e := e.kind s.world
  age := WINDOWS_RETENTION
  stamp_step _ _ _ _ h hpast := WindowsShelf.stamp_step h hpast

end Windows

/-! ### The phone -/

/-- The age in milliseconds. -/
def PHONE_RETENTION : Nat := 7 * 24 * 60 * 60 * 1000

/-- The calls of the store of the phone without their times. `resume` is `cleanupExpired`. -/
inductive TransferStoreEvent
  | createBatch (batch : FileTransferBatch)
  | deleteBatch
  | appendManifestPage (page : List StoredTransferEntry)
  | updateBatchState (next : BatchState)
  | setTargetTree (targetTreeUri : String)
  | reconcileResult (state : BatchState)
  | cancelIncompleteEntries
  | updateEntryProgress (ordinal : Nat) (state : EntryState) (committedOffset : Nat)
      (targetUri : Option String) (targetName : Option (List Char)) (errorCode : Option String)
  | setEntryTarget (ordinal : Nat) (targetUri : String) (targetName : Option (List Char))
      (targetParentUri : Option String)
  | journalCommit (ordinal : Nat) (hash : String) (finalUri : Option String)
  | receive (ordinal bytes : Nat)
  | answer (request : RepeatedRequest)
  | resume

namespace TransferStoreEvent

def kind : TransferStoreEvent → Kind
  | .createBatch _ => .begins
  | .deleteBatch => .ends
  | .updateBatchState _ => .refreshes
  | .setTargetTree _ => .refreshes
  | .reconcileResult _ => .refreshes
  | .resume => .sweeps
  | _ => .works

end TransferStoreEvent

/-- The batch and the bytes in its temporary documents. -/
structure PhoneShelf where
  batch : Option PhoneBatch := none
  parts : Nat → Nat := fun _ => 0

namespace PhoneShelf

def stamp (s : PhoneShelf) : Option Nat := s.batch.map (·.batch.updatedAt)

def update (s : PhoneShelf) (call : PhoneBatch → Option PhoneBatch) : Option PhoneShelf :=
  (s.batch.bind call).map fun b => { s with batch := some b }

def step (s : PhoneShelf) (now : Nat) : TransferStoreEvent → Option PhoneShelf
  | .createBatch batch =>
    if s.batch.isSome then none
    else (PhoneBatch.create { batch with createdAt := now, updatedAt := now }).map fun b =>
      { batch := some b }
  | .deleteBatch => some {}
  | .appendManifestPage page => s.update (·.appendManifestPage page)
  | .updateBatchState next => s.update (·.updateBatchState next now)
  | .setTargetTree targetTreeUri => s.update (·.setTargetTree targetTreeUri now)
  | .reconcileResult state => s.update (·.reconcileResult state now)
  | .cancelIncompleteEntries => s.update fun b => some b.cancelIncompleteEntries
  | .updateEntryProgress ordinal state committedOffset targetUri targetName errorCode =>
    s.update (·.updateEntryProgress ordinal state committedOffset targetUri targetName errorCode)
  | .setEntryTarget ordinal targetUri targetName targetParentUri =>
    s.update (·.setEntryTarget ordinal targetUri targetName targetParentUri)
  | .journalCommit ordinal hash finalUri => s.update (·.journalCommit ordinal hash finalUri)
  | .receive ordinal bytes =>
    if s.batch.isNone then none
    else some { s with parts := Function.update s.parts ordinal (s.parts ordinal + bytes) }
  | .answer _ => if s.batch.isNone then none else some s
  | .resume =>
    -- `updated_at < cutoff`
    if s.batch.any fun b => b.batch.updatedAt + PHONE_RETENTION < now then some {} else some s

end PhoneShelf

section Phone
variable {s s' : PhoneShelf} {b b' : PhoneBatch} {now : Nat} {e : TransferStoreEvent}

theorem PhoneShelf.stamp_update {call : PhoneBatch → Option PhoneBatch}
    (h : s.update call = some s')
    (hcall : ∀ b b', call b = some b' → b'.batch.updatedAt = b.batch.updatedAt) :
    s'.stamp = s.stamp := by
  obtain ⟨b', hb', rfl⟩ := Option.map_eq_some_iff.1 h
  obtain ⟨b, hb, hcalled⟩ := Option.bind_eq_some_iff.1 hb'
  simp only [stamp, hb, Option.map_some, hcall b b' hcalled]

theorem PhoneShelf.stamp_touch {call : PhoneBatch → Option PhoneBatch}
    (h : s.update call = some s')
    (hcall : ∀ b b', s.batch = some b → call b = some b' → b'.batch.updatedAt = now) :
    s'.stamp = s.stamp.map fun _ => now := by
  obtain ⟨b', hb', rfl⟩ := Option.map_eq_some_iff.1 h
  obtain ⟨b, hb, hcalled⟩ := Option.bind_eq_some_iff.1 hb'
  simp only [stamp, hb, Option.map_some, hcall b b' hb hcalled]

theorem PhoneBatch.updateEntry_updatedAt {ordinal : Nat}
    {change : StoredTransferEntry → StoredTransferEntry}
    (h : b.updateEntry ordinal change = some b') :
    b'.batch.updatedAt = b.batch.updatedAt := by
  rw [updateEntry] at h
  split_ifs at h
  obtain rfl := Option.some.inj h
  rfl

theorem PhoneShelf.stamp_step (h : s.step now e = some s')
    (hpast : ∀ r, s.stamp = some r → r ≤ now) :
    s'.stamp = e.kind.stamp PHONE_RETENTION now s.stamp := by
  cases e with
  | createBatch batch =>
    rw [step] at h
    split_ifs at h
    obtain ⟨b, hb, rfl⟩ := Option.map_eq_some_iff.1 h
    rw [PhoneBatch.create] at hb
    split_ifs at hb
    obtain rfl := Option.some.inj hb
    rfl
  | deleteBatch =>
    obtain rfl := Option.some.inj h
    rfl
  | appendManifestPage page =>
    refine stamp_update h fun b b' hb => ?_
    rw [PhoneBatch.appendManifestPage] at hb
    split_ifs at hb
    obtain rfl := Option.some.inj hb
    rfl
  | updateBatchState next =>
    refine stamp_touch h fun b b' hbatch hb => ?_
    rw [PhoneBatch.updateBatchState] at hb
    split_ifs at hb
    obtain rfl := Option.some.inj hb
    apply max_eq_left
    apply hpast
    rw [stamp, hbatch]
    rfl
  | setTargetTree targetTreeUri =>
    refine stamp_touch h fun b b' _ hb => ?_
    rw [PhoneBatch.setTargetTree] at hb
    split_ifs at hb
    obtain rfl := Option.some.inj hb
    rfl
  | reconcileResult state =>
    refine stamp_touch h fun b b' _ hb => ?_
    rw [PhoneBatch.reconcileResult] at hb
    split_ifs at hb
    obtain rfl := Option.some.inj hb
    rfl
  | cancelIncompleteEntries =>
    refine stamp_update h fun b b' hb => ?_
    obtain rfl := Option.some.inj hb
    rfl
  | updateEntryProgress ordinal state committedOffset targetUri targetName errorCode =>
    refine stamp_update h fun b b' hb => ?_
    obtain ⟨current, -, hupdate⟩ := Option.bind_eq_some_iff.1 hb
    split_ifs at hupdate
    exact PhoneBatch.updateEntry_updatedAt hupdate
  | setEntryTarget ordinal targetUri targetName targetParentUri =>
    refine stamp_update h fun b b' hb => ?_
    rw [PhoneBatch.setEntryTarget] at hb
    split_ifs at hb
    exact PhoneBatch.updateEntry_updatedAt hb
  | journalCommit ordinal hash finalUri =>
    refine stamp_update h fun b b' hb => ?_
    rw [PhoneBatch.journalCommit] at hb
    split_ifs at hb
    exact PhoneBatch.updateEntry_updatedAt hb
  | receive ordinal bytes =>
    rw [step] at h
    split_ifs at h
    obtain rfl := Option.some.inj h
    rfl
  | answer request =>
    rw [step] at h
    split_ifs at h
    obtain rfl := Option.some.inj h
    rfl
  | resume =>
    rw [step] at h
    cases hbatch : s.batch with
    | none =>
      rw [hbatch] at h
      obtain rfl := Option.some.inj h
      simp only [stamp, hbatch, TransferStoreEvent.kind, Kind.stamp]
      rfl
    | some b =>
      rw [hbatch, Option.any_some] at h
      by_cases hold : b.batch.updatedAt + PHONE_RETENTION < now
      · rw [if_pos (decide_eq_true hold)] at h
        obtain rfl := Option.some.inj h
        have hgone : ¬now ≤ b.batch.updatedAt + PHONE_RETENTION := by omega
        simp only [stamp, hbatch, TransferStoreEvent.kind, Kind.stamp, Option.map_some,
          Option.filter_some, decide_eq_false hgone]
        rfl
      · rw [if_neg (by simpa using hold)] at h
        obtain rfl := Option.some.inj h
        have hkept : now ≤ b.batch.updatedAt + PHONE_RETENTION := by omega
        simp only [stamp, hbatch, TransferStoreEvent.kind, Kind.stamp, Option.map_some,
          Option.filter_some, decide_eq_true hkept, if_true]

/-- The batch of the phone with its clean-up. -/
def phoneKeeper : Keeper PhoneShelf TransferStoreEvent where
  step := PhoneShelf.step
  stamp := PhoneShelf.stamp
  kind _ e := e.kind
  age := PHONE_RETENTION
  stamp_step _ _ _ _ h hpast := PhoneShelf.stamp_step h hpast

end Phone

/-! ### The clean-ups -/

theorem windowsKeeper_start (lineLength : ManifestEntry → Nat) :
    (windowsKeeper lineLength).Inv { state := {} } := ⟨rfl, nofun, nofun⟩

theorem phoneKeeper_start : phoneKeeper.Inv { state := {} } := ⟨rfl, nofun, nofun⟩

/-- On both sides, no clean-up of a run deletes a batch that was active for seven days exactly when
the time in its row was written in those days too. -/
theorem retention_spares_iff (lineLength : ManifestEntry → Nat) (es : List (Nat × WindowsEvent))
    (es' : List (Nat × TransferStoreEvent)) :
    (Machine.Along (windowsKeeper lineLength).watch (windowsKeeper lineLength).SparesActive
        { state := {} } es ↔
      Machine.Along (windowsKeeper lineLength).watch (windowsKeeper lineLength).RefreshedWhenActive
        { state := {} } es) ∧
    (Machine.Along phoneKeeper.watch phoneKeeper.SparesActive { state := {} } es' ↔
      Machine.Along phoneKeeper.watch phoneKeeper.RefreshedWhenActive { state := {} } es') := by
  constructor
  · exact Keeper.along_spares_iff (windowsKeeper_start lineLength) es
  · exact Keeper.along_spares_iff phoneKeeper_start es'

def longUpload : BatchRecord :=
  { batchId := "b", phoneId := "p", direction := .phoneToComputer, state := .queued
    createdAt := 0, updatedAt := 0, fileCount := 1, directoryCount := 0, totalBytes := 1 }

def longDownload : FileTransferBatch :=
  { batchId := "b", pcId := "c", direction := .computerToPhone, state := .waitingConfirmation
    createdAt := 0, updatedAt := 0, fileCount := 1, directoryCount := 0, totalBytes := 1 }

/-- A week of uploading in one state. -/
def longUploadRun : List (Nat × WindowsEvent) :=
  [(0, .create longUpload), (0, .update .preparing), (0, .update .transferring),
    (WINDOWS_RETENTION, .receive 0 1)]

def longDownloadRun : List (Nat × TransferStoreEvent) :=
  [(0, .createBatch longDownload), (0, .updateBatchState .queued),
    (0, .updateBatchState .preparing), (0, .updateBatchState .transferring),
    (PHONE_RETENTION, .receive 0 1)]

/-- A byte has come a moment before the clean-up of either side, which deletes the batch. -/
theorem active_batch_deleted :
    ¬Machine.Along (windowsKeeper fun _ => 0).watch (windowsKeeper fun _ => 0).SparesActive
        { state := {} } (longUploadRun ++ [(WINDOWS_RETENTION + 1, .startUp)]) ∧
      ¬Machine.Along phoneKeeper.watch phoneKeeper.SparesActive { state := {} }
        (longDownloadRun ++ [(PHONE_RETENTION + 1, .resume)]) := by
  constructor
  · intro h
    have hsweep := Machine.Along.last longUploadRun h rfl rfl
    have hidle := hsweep rfl rfl _ rfl rfl WINDOWS_RETENTION rfl
    exact absurd hidle (by decide)
  · intro h
    have hsweep := Machine.Along.last longDownloadRun h rfl rfl
    have hidle := hsweep rfl rfl _ rfl rfl PHONE_RETENTION rfl
    exact absurd hidle (by decide)

end FlowType
