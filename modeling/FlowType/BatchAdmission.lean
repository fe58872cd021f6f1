import FlowType.Runs
import FlowType.Threads
import FlowType.FileTransfers

/-! The directories of the batches, and how a batch gets one. An offer of the phone and an offer to
the phone hold `batch_starts` from the first look at the directories to their answer; all else goes
on beside them, and the program can be stopped between any two accesses to the disk. -/
namespace FlowType

open Threads

/-- `record` is missing before it was written, and for good when it can no longer be read. -/
structure BatchDir where
  batchId : String
  record : Option BatchRecord := none

abbrev BatchDirs := KeyedTable BatchDir.batchId

/-- How an access to the disk goes. One that fails may have been done partly: a record was
written though an error is reported, a directory has lost its record but is there. -/
inductive Access
  | succeeds (now : Nat)
  | fails
  | partly (now : Nat)
  deriving DecidableEq, Repr

inductive ControlReply
  | error (code : String)
  | result (state : BatchState)
  | ticket
  | offered
  | done
  deriving DecidableEq, Repr

/-- A change of state that is made if the batch is in one of the states then, and the error if
it cannot be made. -/
structure Advance where
  states : List BatchState
  next : BatchState
  code : String
  deriving DecidableEq, Repr

/-- Where a call of the coordinator stands: what it does next. `unread` keeps the batches whose
records could not be read, which the program forgets. -/
inductive AdmissionStage
  -- accept_offer and create_outbound_offer
  | starting (offer : FileOffer)
  | looking (offer : FileOffer)
  | listing (offer : FileOffer)
  | scanning (offer : FileOffer) (rest : List String) (found : Bool) (unread : List String)
  | creating (offer : FileOffer) (unread : List String)
  | recording (offer : FileOffer) (batch : BatchRecord) (unread : List String)
  | resuming (offer : FileOffer)
  | ticketing (offer : FileOffer)
  | indexing (offer : FileOffer)
  | deleting (offer : FileOffer)
  | leaving (reply : ControlReply)
  -- accept_decision, cancel and the other callers of update_state
  | deciding (decision : FileDecision) (phoneId : String)
  | canceling (batchId phoneId : String)
  | advancing (batchId : String) (plan : List Advance)
  | updating (batchId : String) (next : BatchState) (code : String) (plan : List Advance)
  | answered (reply : ControlReply)

namespace BatchDirs

def loadBatch (dirs : BatchDirs) (batchId : String) : Option BatchRecord :=
  ((dirs.rows.find? fun dir => dir.batchId == batchId).bind (·.record)).filter fun batch =>
    batch.validate && batch.batchId == batchId

def contains (dirs : BatchDirs) (batchId : String) : Bool :=
  dirs.rows.any fun dir => dir.batchId == batchId

def updateState (dirs : BatchDirs) (batchId : String) (state : BatchState) (now : Nat) :
    Option BatchDirs :=
  (dirs.loadBatch batchId).bind fun batch =>
    if batch.state.canTransitionTo state then
      let updated := { batch with state := state, updatedAt := max now batch.updatedAt }
      some (dirs.insert { batchId, record := some updated })
    else none

def deleteBatch (dirs : BatchDirs) (batchId : String) : Access → BatchDirs
  | .succeeds _ => dirs.delete batchId
  | .fails => dirs
  | .partly _ => if dirs.contains batchId then dirs.insert { batchId } else dirs

/-- What `cleanup_expired` does to one batch. -/
def expire (cutoff : Nat) (access : String → Access) (dirs : BatchDirs) (batchId : String) :
    BatchDirs :=
  if (dirs.loadBatch batchId).any (·.updatedAt < cutoff) then
    dirs.deleteBatch batchId (access batchId)
  else dirs

def cleanupExpired (dirs : BatchDirs) (cutoff : Nat) (access : String → Access) : BatchDirs :=
  (dirs.rows.map (·.batchId)).foldl (expire cutoff access) dirs

end BatchDirs

structure AdmissionWorld where
  dirs : BatchDirs := .empty
  batchStarts : Bool := false
  threads : Nat → Option AdmissionStage := fun _ => none

/-- `updateState` stands for the callers of `update_state` that are not named, `spoil` for a record
that is damaged, and `restart` for the end of the program at any point and its next start. -/
inductive AdmissionEvent
  | acceptOffer (thread : Nat) (offer : FileOffer) (phoneId : String)
  | createOutboundOffer (thread : Nat) (offer : FileOffer)
  | acceptDecision (thread : Nat) (decision : FileDecision) (phoneId : String)
  | cancel (thread : Nat) (batchId phoneId : String)
  | complete (thread : Nat) (batchId : String) (hasFailures : Bool)
  | updateState (thread : Nat) (batchId : String) (next : BatchState) (code : String)
  | step (thread : Nat) (access : Access)
  | spoil (batchId : String)
  | restart (cutoff : Nat) (access : String → Access)

def FileOffer.busyCode (offer : FileOffer) : String :=
  if offer.direction = .phoneToComputer then "transfer_busy"
  else "a file transfer is already active"

def FileOffer.createCode (offer : FileOffer) : String :=
  if offer.direction = .phoneToComputer then "cannot create batch"
  else "cannot create outbound batch"

def FileOffer.invalidCode (offer : FileOffer) : String :=
  if offer.direction = .phoneToComputer then "invalid batch" else "invalid outbound batch"

def FileOffer.newBatch (offer : FileOffer) (now : Nat) : Option BatchRecord :=
  BatchRecord.new offer.batchId offer.phoneId offer.direction now offer.fileCount
    offer.directoryCount offer.totalBytes

structure BatchRecord.Matches (batch : BatchRecord) (offer : FileOffer) : Prop where
  batchId : batch.batchId = offer.batchId
  phoneId : batch.phoneId = offer.phoneId
  direction : batch.direction = offer.direction
  fileCount : batch.fileCount = offer.fileCount
  directoryCount : batch.directoryCount = offer.directoryCount
  totalBytes : batch.totalBytes = offer.totalBytes

theorem newBatch_eq_some {offer : FileOffer} {now : Nat} {batch : BatchRecord}
    (h : offer.newBatch now = some batch) :
    batch.validate = true ∧ batch.Matches offer ∧ batch.state.isTerminal = false := by
  unfold FileOffer.newBatch BatchRecord.new at h
  extract_lets new at h
  split at h
  · next hvalid =>
    obtain rfl := Option.some.inj h
    refine ⟨hvalid, ⟨rfl, rfl, rfl, rfl, rfl, rfl⟩, ?_⟩
    cases hdirection : offer.direction with
    | phoneToComputer => simp only [new, hdirection]; rfl
    | computerToPhone => simp only [new, hdirection]; rfl
  · cases h

structure AdmissionEffect where
  dirs : BatchDirs
  batchStarts : Bool
  next : AdmissionStage

namespace AdmissionWorld

def stay (w : AdmissionWorld) (next : AdmissionStage) : AdmissionEffect :=
  { dirs := w.dirs, batchStarts := w.batchStarts, next }

def leave (w : AdmissionWorld) (code : String) : AdmissionEffect := w.stay (.leaving (.error code))

def refuse (w : AdmissionWorld) (code : String) : AdmissionEffect := w.stay (.answered (.error code))

/-- `load_batch`, with what is done if there is such a batch, or else. -/
def load (w : AdmissionWorld) (batchId : String) (access : Access)
    (found : BatchRecord → AdmissionEffect) (failed : AdmissionEffect) : AdmissionEffect :=
  match access, w.dirs.loadBatch batchId with
  | .succeeds _, some batch => found batch
  | _, _ => failed

/-- `batches` at the next directory, in the search for a batch of the phone that is not over. -/
def scan (w : AdmissionWorld) (offer : FileOffer) (batchId : String) (rest : List String)
    (found : Bool) (unread : List String) : Access → AdmissionEffect
  | .succeeds _ =>
    let live := (w.dirs.loadBatch batchId).any fun batch =>
      !batch.state.isTerminal && batch.phoneId == offer.phoneId
    w.stay (.scanning offer rest (found || live) unread)
  -- a record that cannot be read is passed over
  | .fails => w.stay (.scanning offer rest found (batchId :: unread))
  -- the entry of the directory itself
  | .partly _ => w.leave "batch_unavailable"

def create (w : AdmissionWorld) (offer : FileOffer) (unread : List String) :
    Access → AdmissionEffect
  | .succeeds now =>
    match offer.newBatch now with
    | none => w.leave offer.invalidCode
    | some batch =>
      if w.dirs.contains offer.batchId then
        if offer.direction = .phoneToComputer then w.stay (.resuming offer)
        else w.leave offer.createCode
      else
        { dirs := w.dirs.insert { batchId := offer.batchId }
          batchStarts := w.batchStarts
          next := .recording offer batch unread }
  | _ => w.leave offer.createCode

def writeRecord (w : AdmissionWorld) (batch : BatchRecord) : BatchDirs :=
  w.dirs.insert { batchId := batch.batchId, record := some batch }

/-- What `accept_offer` makes of a batch that is there. -/
def resume (w : AdmissionWorld) (offer : FileOffer) (existing : BatchRecord) : AdmissionEffect :=
  if existing.phoneId ≠ offer.phoneId ∨ existing.direction ≠ offer.direction ∨
      existing.fileCount ≠ offer.fileCount ∨ existing.directoryCount ≠ offer.directoryCount ∨
      existing.totalBytes ≠ offer.totalBytes then w.leave "batch id conflict"
  else if existing.state.isTerminal then w.stay (.leaving (.result existing.state))
  else w.stay (.ticketing offer)

/-- What follows the change to `queued`. -/
def acceptPlan : List Advance :=
  [{ states := [.queued, .waitingNetwork], next := .preparing, code := "cannot prepare batch" },
    { states := [.preparing], next := .transferring, code := "cannot start batch" }]

def decide (w : AdmissionWorld) (decision : FileDecision) (phoneId : String) (batch : BatchRecord) :
    AdmissionEffect :=
  if batch.phoneId ≠ phoneId ∨ batch.direction ≠ .computerToPhone then
    w.refuse "batch owner mismatch"
  else if batch.state.isTerminal then w.stay (.answered (.result batch.state))
  else if decision.accepted = false then w.stay (.canceling decision.batchId phoneId)
  else if batch.state = .waitingConfirmation then
    w.stay (.updating decision.batchId .queued "cannot accept batch" acceptPlan)
  else w.stay (.advancing decision.batchId acceptPlan)

def cancel (w : AdmissionWorld) (batchId phoneId : String) (batch : BatchRecord) : AdmissionEffect :=
  if batch.phoneId ≠ phoneId then w.refuse "batch owner mismatch"
  else if batch.state.isTerminal then w.stay (.answered .done)
  else w.stay (.updating batchId .canceled "cannot cancel batch" [])

def update (w : AdmissionWorld) (batchId : String) (next : BatchState) (code : String)
    (plan : List Advance) : Access → AdmissionEffect
  | .succeeds now =>
    match w.dirs.updateState batchId next now with
    | some dirs => { dirs, batchStarts := w.batchStarts, next := .advancing batchId plan }
    | none => w.refuse code
  | .fails => w.refuse code
  | .partly now =>
    { dirs := (w.dirs.updateState batchId next now).getD w.dirs
      batchStarts := w.batchStarts
      next := .answered (.error code) }

/-- The record of a new batch is written. -/
def record (w : AdmissionWorld) (offer : FileOffer) (batch : BatchRecord) : Access → AdmissionEffect
  | .succeeds _ =>
    { dirs := w.writeRecord batch
      batchStarts := w.batchStarts
      next := if offer.direction = .phoneToComputer then .ticketing offer else .indexing offer }
  | .fails => w.leave offer.createCode
  | .partly _ =>
    { dirs := w.writeRecord batch
      batchStarts := w.batchStarts
      next := .leaving (.error offer.createCode) }

def effect (w : AdmissionWorld) (access : Access) : AdmissionStage → AdmissionEffect
  | .starting offer =>
    if w.batchStarts then w.refuse "transfer_busy"
    else
      { dirs := w.dirs
        batchStarts := true
        next := if offer.direction = .phoneToComputer then .looking offer else .listing offer }
  | .looking offer =>
    w.load offer.batchId access (fun _ => w.stay (.creating offer [])) (w.stay (.listing offer))
  | .listing offer =>
    match access with
    | .succeeds _ => w.stay (.scanning offer (w.dirs.rows.map (·.batchId)) false [])
    | _ => w.leave "batch_unavailable"
  | .scanning offer [] found unread =>
    if found then w.leave offer.busyCode else w.stay (.creating offer unread)
  | .scanning offer (batchId :: rest) found unread => w.scan offer batchId rest found unread access
  | .creating offer unread => w.create offer unread access
  | .recording offer batch _ => w.record offer batch access
  | .resuming offer =>
    w.load offer.batchId access (w.resume offer) (w.leave "cannot resume batch")
  | .ticketing offer =>
    w.load offer.batchId access (fun _ => w.stay (.leaving .ticket)) (w.leave "unknown batch")
  | .indexing offer =>
    match access with
    | .succeeds _ => w.stay (.leaving .offered)
    | _ => w.stay (.deleting offer)
  | .deleting offer =>
    { dirs := w.dirs.deleteBatch offer.batchId access
      batchStarts := w.batchStarts
      next := .leaving (.error "cannot create outbound manifest") }
  | .leaving reply => { dirs := w.dirs, batchStarts := false, next := .answered reply }
  | .deciding decision phoneId =>
    w.load decision.batchId access (w.decide decision phoneId) (w.refuse "unknown batch")
  | .canceling batchId phoneId =>
    w.load batchId access (w.cancel batchId phoneId) (w.refuse "unknown batch")
  | .advancing _ [] => w.stay (.answered .done)
  | .advancing batchId (advance :: plan) =>
    w.load batchId access
      (fun batch =>
        if advance.states.contains batch.state then
          w.stay (.updating batchId advance.next advance.code plan)
        else w.stay (.advancing batchId plan))
      (w.refuse "unknown batch")
  | .updating batchId next code plan => w.update batchId next code plan access
  | .answered reply => w.stay (.answered reply)

def start (w : AdmissionWorld) (thread : Nat) (stage : AdmissionStage) : Option AdmissionWorld :=
  if w.threads thread = none then
    some { w with threads := Function.update w.threads thread (some stage) }
  else none

def step (w : AdmissionWorld) : AdmissionEvent → Option AdmissionWorld
  | .acceptOffer thread offer phoneId =>
    if offer.validate phoneId = false then
      w.start thread (.answered (.error "invalid file offer"))
    else if offer.direction ≠ .phoneToComputer then
      w.start thread (.answered (.error "unexpected transfer direction"))
    else w.start thread (.starting offer)
  | .createOutboundOffer thread offer =>
    w.start thread (.starting { offer with direction := .computerToPhone })
  | .acceptDecision thread decision phoneId =>
    if (validVersions decision.protocolVersion decision.transferVersion &&
        validIdentifier decision.batchId MAX_BATCH_ID_BYTES) = false then
      w.start thread (.answered (.error "invalid file decision"))
    else w.start thread (.deciding decision phoneId)
  | .cancel thread batchId phoneId => w.start thread (.canceling batchId phoneId)
  | .complete thread batchId hasFailures =>
    w.start thread (.updating batchId (if hasFailures then .partialFailure else .completed)
      "batch_state_failed" [])
  | .updateState thread batchId next code => w.start thread (.updating batchId next code [])
  | .step thread access =>
    (w.threads thread).map fun stage =>
      let effect := w.effect access stage
      { dirs := effect.dirs
        batchStarts := effect.batchStarts
        threads := Function.update w.threads thread (some effect.next) }
  | .spoil batchId =>
    if w.dirs.contains batchId then some { w with dirs := w.dirs.insert { batchId } } else none
  | .restart cutoff access => some { dirs := w.dirs.cleanupExpired cutoff access }

end AdmissionWorld

end FlowType
