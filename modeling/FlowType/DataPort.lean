import FlowType.Runs
import FlowType.TargetMapping

/-! The data port, as far as it concerns one entry of one batch: the requests for the entry,
the verification jobs they start, and what both do to the progress, the staged file and the
target of the entry. Requests and jobs run beside each other; a step is what one of them does
under one lock or with one access to the disk. -/
namespace FlowType

inductive Request
  | head
  | upload (offset : Nat) (deferredHash : Bool)
  | verify (hash : String) (async : Bool)
  | failure
  /-- The manifest or the completion of a batch that has an entry of that name. -/
  | other
  deriving DecidableEq, Repr

def Request.isVerify : Request → Bool
  | .verify _ _ => true
  | _ => false

inductive Answer
  | error (code : String)
  | offset (committed length : Nat)
  | received (committed : Nat) (completed : Bool)
  | verifying
  | verified
  | failed
  | done
  deriving DecidableEq, Repr

/-- `bytes` is what a reader finds; of it, `synced` bytes outlive a power failure. -/
structure FileData where
  bytes : List UInt8 := []
  synced : Nat := 0
  deriving DecidableEq, Repr

namespace FileData

def setLen (f : FileData) (length : Nat) : FileData :=
  { bytes := f.bytes.take length, synced := min f.synced length }

def writeAt (f : FileData) (position : Nat) (data : List UInt8) : FileData :=
  { bytes := f.bytes.take position ++ data ++ f.bytes.drop (position + data.length)
    synced := min f.synced position }

def sync (f : FileData) : FileData := { f with synced := f.bytes.length }

/-- Bytes that were not synced can be lost or become any others. -/
def powerFailure (f : FileData) (junk : List UInt8) : FileData :=
  { bytes := f.bytes.take f.synced ++ junk.take (f.bytes.length - f.synced)
    synced := f.synced }

end FileData

structure VerificationJob where
  hash : String
  result : Option Answer := none
  started : Nat
  deriving DecidableEq, Repr

inductive Runner
  | request | job
  deriving DecidableEq, Repr

/-- Where a request, a job, an offer or a cancellation stands: what it does next. -/
inductive Stage
  -- acquire_operation
  | authorized (r : Request)
  | checked (r : Request)
  | leased (r : Request)
  -- receive_file
  | opening (offset : Nat) (deferredHash : Bool)
  | opened (file offset : Nat) (deferredHash : Bool)
  | receiving (file received : Nat) (hashed : Option (List UInt8))
  | persisting (file received : Nat) (hashed : Option (List UInt8))
  | recording (file received : Nat) (hashed : Option (List UInt8))
  | ending (file received : Nat) (hashed : Option (List UInt8))
  | finishing (file received : Nat) (hashed : Option (List UInt8))
  -- verify_entry and commit_uploaded_file
  | verifying (runner : Runner) (hash : String)
  | comparing (runner : Runner) (hash : String) (staged : Bool)
  | compared (runner : Runner) (staged : Bool)
  | committing (runner : Runner)
  | completing (runner : Runner)
  | settling (result : Answer)
  -- the report of a failure
  | failing (offset : Nat)
  | discarding
  -- the drop of the lease, and what a job does in the end
  | releasing (answer : Answer)
  | released (answer : Answer)
  | sweeping (answer : Answer)
  -- accept_offer, accept_decision and cancel
  | offering
  | canceling
  | withdrawing
  | clearing
  | answered (answer : Answer)
  deriving DecidableEq, Repr

def Runner.concluded : Runner → Answer → Stage
  | .request, result => .releasing result
  | .job, result => .settling result

/-- What the environment adds to a step: the next frame of a body and whether it is time to
persist, the end of the body, or that a check of the request, the connection or the disk fails. -/
inductive Input
  | go
  | fail (code : String)
  | frame (data : List UInt8) (persist : Bool)
  | endOfBody
  deriving DecidableEq, Repr

/-- `operation` and `verification` are what `operations` and `verifications` hold for the entry.
A file is named by a number, so that a handle stays with its file. Two fields are history:
`sent` is what the phone has sent of the entry, `canceled` says that a cancellation has
returned. -/
structure EntryPort where
  state : BatchState := .queued
  prepared : Bool := false
  ticket : Option Nat := none
  now : Nat := 0
  operation : Bool := false
  verification : Option VerificationJob := none
  progress : EntryProgress := {}
  part : Option Nat := none
  target : Option Nat := none
  files : Nat → FileData := fun _ => {}
  nextFile : Nat := 0
  sent : List UInt8 := []
  canceled : Bool := false

structure StageEffect where
  port : EntryPort
  next : Stage
  spawned : Option Stage := none

namespace EntryPort

def ticketIsActive (p : EntryPort) : Bool := p.ticket.any (p.now < ·)

def setFile (p : EntryPort) (file : Nat) (data : FileData) : EntryPort :=
  { p with files := Function.update p.files file data }

def writeProgress (p : EntryPort) (state : EntryState) (committedOffset : Nat) : EntryPort :=
  { p with progress := { state, committedOffset } }

section Steps
variable (hashFile : List UInt8 → String) (entry : ManifestEntry)
  (direction : TransferDirection)

/-- Both locks of `acquire_operation`, one after the other. -/
def acquireOperation (p : EntryPort) (r : Request) : Bool :=
  !(!r.isVerify && p.verification.isSome) && !p.operation

/-- A poll first drops a job that was finished long ago. -/
def keptVerification (p : EntryPort) : Option VerificationJob :=
  p.verification.filter fun job => job.result.isNone || p.now < job.started + 600

/-- The locked part of `poll_verification`. -/
def pollVerification (p : EntryPort) (hash : String) : StageEffect :=
  match p.keptVerification with
  | some job =>
    if job.hash ≠ hash then
      { port := { p with verification := some job }
        next := .releasing (.error "integrity_failed") }
    else match job.result with
      | some result => { port := { p with verification := none }, next := .releasing result }
      | none => { port := { p with verification := some job }, next := .releasing .verifying }
  | none =>
    { port := { p with verification := some { hash, started := p.now } }
      next := .releasing .verifying
      spawned := some (.verifying .job hash) }

/-- The first checks of `receive_file`. -/
def serveUpload (p : EntryPort) (offset : Nat) (deferredHash : Bool) : StageEffect :=
  if direction ≠ .phoneToComputer then
    { port := p, next := .releasing (.error "method_not_allowed") }
  else if entry.size < offset then { port := p, next := .releasing (.error "invalid_offset") }
  else if offset ≠ p.progress.committedOffset then
    { port := p, next := .releasing (.error "offset_mismatch") }
  else if p.prepared = false then
    { port := p, next := .releasing (.error "target_unavailable") }
  else if p.progress.state = .completed then
    { port := p, next := .releasing (.received entry.size true) }
  else { port := p, next := .opening offset deferredHash }

def serve (p : EntryPort) : Request → StageEffect
  | .head =>
    if direction = .phoneToComputer then
      { port := p, next := .releasing (.offset p.progress.committedOffset entry.size) }
    else { port := p, next := .releasing (.error "method_not_allowed") }
  | .upload offset deferredHash => p.serveUpload entry direction offset deferredHash
  | .verify hash async =>
    if async then p.pollVerification hash else { port := p, next := .verifying .request hash }
  | .failure =>
    if p.progress.state ≠ .completed ∨ direction = .computerToPhone then
      { port := p, next := .failing p.progress.committedOffset }
    else { port := p, next := .releasing .failed }
  | .other => { port := p, next := .releasing .done }

def openPart (p : EntryPort) : EntryPort × Nat :=
  match p.part with
  | some file => (p, file)
  | none => ({ p.setFile p.nextFile {} with part := some p.nextFile, nextFile := p.nextFile + 1 },
      p.nextFile)

def receiveFrame (p : EntryPort) (file received : Nat) (hashed : Option (List UInt8))
    (data : List UInt8) (persist : Bool) : StageEffect :=
  let hashed := hashed.map (· ++ data)
  if p.ticketIsActive = false then
    { port := p, next := .releasing (.error "transfer_canceled") }
  else if entry.size < received + data.length then
    { port := p, next := .releasing (.error "size_mismatch") }
  else
    { port :=
        { p.setFile file ((p.files file).writeAt received data) with
          sent := p.sent.take received ++ data }
      next := if persist then .persisting file (received + data.length) hashed
        else .receiving file (received + data.length) hashed }

/-- The end of `receive_file`, once all of the body is synced. -/
def finishBody (p : EntryPort) (received : Nat) (hashed : Option (List UInt8)) :
    StageEffect :=
  if received ≠ entry.size then
    { port := p.writeProgress .waitingNetwork received, next := .releasing (.received received false) }
  else if hashed.any fun bytes => entry.sha256.any (· ≠ hashFile bytes) then
    { port := p, next := .releasing (.error "integrity_failed") }
  else
    { port := p.writeProgress .transferring received, next := .releasing (.received received false) }

def compareFile (p : EntryPort) (runner : Runner) (hash : String) (staged : Bool) :
    StageEffect :=
  match if staged then p.part else p.target with
  | none => { port := p, next := runner.concluded (.error "target_unavailable") }
  | some file =>
    if (p.files file).bytes.length ≠ entry.size ∨ hashFile (p.files file).bytes ≠ hash then
      { port := p, next := runner.concluded (.error "integrity_failed") }
    else { port := p, next := .compared runner staged }

/-- No other program makes a file at the target between the check and the rename. -/
def commitPart (p : EntryPort) (runner : Runner) : StageEffect :=
  if p.target.isSome then { port := p, next := runner.concluded (.error "target_exists") }
  else match p.part with
    | none => { port := p, next := runner.concluded (.error "commit_failed") }
    | some file => { port := { p with part := none, target := some file }, next := .completing runner }

/-- `cleanup_partial_files`, for the entry. -/
def cleanupPartialFiles (p : EntryPort) : EntryPort :=
  if direction = .phoneToComputer ∧ p.prepared = true then { p with part := none } else p

/-- The check of the ticket, right before the target changes or the entry is recorded. -/
def checkTicket (p : EntryPort) (runner : Runner) (staged : Bool) : StageEffect :=
  if p.ticketIsActive = false then
    { port := p, next := runner.concluded (.error "transfer_canceled") }
  else if staged then { port := p, next := .committing runner }
  else { port := p, next := .completing runner }

def startVerification (p : EntryPort) (runner : Runner) (hash : String) : StageEffect :=
  if entry.sha256.any (· ≠ hash) then
    { port := p, next := runner.concluded (.error "integrity_failed") }
  else if direction = .computerToPhone then { port := p, next := .compared runner false }
  else if p.prepared = false then
    { port := p, next := runner.concluded (.error "target_unavailable") }
  else { port := p, next := .comparing runner hash p.part.isSome }

def openStaged (p : EntryPort) (offset : Nat) (deferredHash : Bool) : StageEffect :=
  let opened := p.openPart
  let data := opened.1.files opened.2
  if data.bytes.length < offset then
    { port := opened.1, next := .releasing (.error "offset_mismatch") }
  else
    { port :=
        { opened.1.setFile opened.2 (data.setLen offset) with sent := opened.1.sent.take offset }
      next := .opened opened.2 offset deferredHash }

/-- A step that can fail leaves the port as it is if it does. -/
def orFail (p : EntryPort) (failed : Answer → Stage) (input : Input) (effect : StageEffect) :
    StageEffect :=
  match input with
  | .fail code => { port := p, next := failed (.error code) }
  | _ => effect

def receive (p : EntryPort) (file received : Nat) (hashed : Option (List UInt8)) :
    Input → StageEffect
  | .frame data persist => p.receiveFrame entry file received hashed data persist
  | .endOfBody => { port := p, next := .ending file received hashed }
  | .fail code => { port := p, next := .releasing (.error code) }
  | .go => { port := p, next := .receiving file received hashed }

def step (p : EntryPort) (input : Input) : Stage → StageEffect
  | .authorized r =>
    if r.isVerify = false ∧ p.verification.isSome then
      { port := p, next := .answered (.error "transfer_busy") }
    else { port := p, next := .checked r }
  | .checked r =>
    if p.operation then { port := p, next := .answered (.error "transfer_busy") }
    else { port := { p with operation := true }, next := .leased r }
  | .leased r => p.orFail .releasing input (p.serve entry direction r)
  | .opening offset deferredHash => p.orFail .releasing input (p.openStaged offset deferredHash)
  | .opened file offset deferredHash =>
    p.orFail .releasing input
      { port := p.writeProgress .transferring offset
        next := .receiving file offset
          (if deferredHash then none else some ((p.files file).bytes.take offset)) }
  | .receiving file received hashed => p.receive entry file received hashed input
  | .persisting file received hashed =>
    p.orFail .releasing input
      { port := p.setFile file (p.files file).sync, next := .recording file received hashed }
  | .recording file received hashed =>
    p.orFail .releasing input
      { port := p.writeProgress .transferring received, next := .receiving file received hashed }
  | .ending file received hashed =>
    p.orFail .releasing input
      { port := p.setFile file (p.files file).sync, next := .finishing file received hashed }
  | .finishing _ received hashed =>
    p.orFail .releasing input (p.finishBody hashFile entry received hashed)
  | .verifying runner hash =>
    p.orFail runner.concluded input (p.startVerification entry direction runner hash)
  | .comparing runner hash staged =>
    p.orFail runner.concluded input (p.compareFile hashFile entry runner hash staged)
  | .compared runner staged => p.checkTicket runner staged
  | .committing runner => p.orFail runner.concluded input (p.commitPart runner)
  | .completing runner =>
    p.orFail runner.concluded input
      { port := p.writeProgress .completed entry.size, next := runner.concluded .verified }
  | .settling result =>
    { port := { p with verification := p.verification.map ({ · with result := some result }) }
      next := .released result }
  | .failing offset =>
    p.orFail .releasing input
      { port := p.writeProgress .failed offset
        next := if direction = .phoneToComputer ∧ p.prepared = true then .discarding
          else .releasing .failed }
  | .discarding => { port := { p with part := none }, next := .releasing .failed }
  | .releasing answer => { port := { p with operation := false }, next := .released answer }
  | .released answer =>
    if p.state = .canceled then { port := p, next := .sweeping answer }
    else { port := p, next := .answered answer }
  | .sweeping answer => { port := p.cleanupPartialFiles direction, next := .answered answer }
  | .offering =>
    { port := { p with ticket := some (p.now + TICKET_LIFETIME) }, next := .answered .done }
  | .canceling =>
    if p.state.canTransitionTo .canceled then
      { port := { p with state := .canceled }, next := .withdrawing }
    else { port := p, next := .answered (.error "cannot cancel batch") }
  | .withdrawing => { port := { p with ticket := none }, next := .clearing }
  | .clearing =>
    { port := { p.cleanupPartialFiles direction with canceled := true }, next := .answered .done }
  | .answered answer => { port := p, next := .answered answer }

end Steps

end EntryPort

structure PortWorld where
  port : EntryPort := {}
  threads : Nat → Option Stage := fun _ => none

/-- A thread is named by a number; `fresh` is the one for the job that a step may start. The
other parts of the program are `move` (the state of the batch), `prepare`, `withdraw` (the
ticket goes with the batch or the phone), `prune` and `sweep` (which other entries cause too). -/
inductive PortEvent
  | request (thread : Nat) (r : Request)
  | offer (thread : Nat)
  | cancel (thread : Nat)
  | step (thread : Nat) (input : Input) (fresh : Nat)
  | move (next : BatchState)
  | prepare
  | withdraw
  | prune
  | sweep
  | tick (seconds : Nat)
  | powerFailure (junk : Nat → List UInt8)

namespace PortWorld

def start (w : PortWorld) (thread : Nat) (stage : Stage) : Option PortWorld :=
  if w.threads thread = none then
    some { w with threads := Function.update w.threads thread (some stage) }
  else none

section Steps
variable (hashFile : List UInt8 → String) (entry : ManifestEntry)
  (direction : TransferDirection)

def stepThread (w : PortWorld) (thread : Nat) (stage : Stage) (input : Input) (fresh : Nat) :
    PortWorld :=
  let effect := w.port.step hashFile entry direction input stage
  let threads := Function.update w.threads thread (some effect.next)
  { port := effect.port
    threads := match effect.spawned with
      | none => threads
      | some job => Function.update threads fresh (some job) }

def step (w : PortWorld) : PortEvent → Option PortWorld
  | .request thread r =>
    if w.port.ticketIsActive ∧ w.port.state.isTerminal = false then
      w.start thread (.authorized r)
    else w.start thread (.answered (.error "unauthorized"))
  | .offer thread =>
    if w.port.state.isTerminal then w.start thread (.answered .done)
    else w.start thread .offering
  | .cancel thread =>
    if w.port.state.isTerminal then w.start thread .withdrawing else w.start thread .canceling
  | .step thread input fresh =>
    (w.threads thread).bind fun stage =>
      if w.threads fresh = none then
        some (w.stepThread hashFile entry direction thread stage input fresh)
      else none
  | .move next =>
    if w.port.state.canTransitionTo next ∧ next ≠ .canceled then
      some { w with port := { w.port with state := next } }
    else none
  | .prepare =>
    if w.port.state.isTerminal then none
    else some { w with port := { w.port with prepared := true } }
  | .withdraw => some { w with port := { w.port with ticket := none } }
  | .prune =>
    let verification := w.port.verification.filter fun job => job.result.isNone
    some { w with port := { w.port with verification := verification } }
  | .sweep =>
    if w.port.state = .canceled then
      some { w with port := w.port.cleanupPartialFiles direction }
    else none
  | .tick seconds => some { w with port := { w.port with now := w.port.now + seconds } }
  | .powerFailure junk =>
    some
      { port :=
          { w.port with
            ticket := none
            operation := false
            verification := none
            files := fun file => (w.port.files file).powerFailure (junk file) }
        threads := fun _ => none }

end Steps

end PortWorld

end FlowType
