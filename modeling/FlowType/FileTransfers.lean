import Mathlib.Logic.Function.Basic
import FlowType.KeyedTable
import FlowType.Protocol

/-! File transfers on Windows: the batches of the transfer store, the tickets for the data
port, and what the messages of a phone do with both. The store is taken to read and write
its records; manifests and contents of files are left out. -/
namespace FlowType

def FILE_TRANSFER_VERSION : Nat := 2

def MAX_PHONE_ID_BYTES : Nat := 128

def MAX_BATCH_ID_BYTES : Nat := 64

def MAX_ROOT_SUMMARIES : Nat := 8

def MAX_ROOT_SUMMARY_BYTES : Nat := 255

def MAX_WIRE_INTEGER : Nat := 2 ^ 63 - 1

def TICKET_LIFETIME : Nat := 24 * 60 * 60

inductive TransferDirection
  | phoneToComputer | computerToPhone
  deriving DecidableEq, Repr

inductive BatchState
  | waitingConfirmation | queued | preparing | transferring | waitingNetwork | needsReselection
  | completed | partialFailure | canceled
  deriving DecidableEq, Repr

namespace BatchState

def isTerminal : BatchState → Bool
  | .completed => true
  | .partialFailure => true
  | .canceled => true
  | _ => false

def canTransitionTo (state next : BatchState) : Bool :=
  state == next || match state with
    | .waitingConfirmation => next == .queued || next == .canceled
    | .queued => next == .preparing || next == .waitingNetwork || next == .canceled
    | .preparing => next == .transferring || next == .waitingNetwork ||
        next == .needsReselection || next == .partialFailure || next == .canceled
    | .transferring => next == .waitingNetwork || next == .needsReselection ||
        next == .completed || next == .partialFailure || next == .canceled
    | .waitingNetwork => next == .preparing || next == .transferring ||
        next == .needsReselection || next == .canceled
    | .needsReselection => next == .preparing || next == .canceled
    | _ => false

theorem canTransitionTo_self (state : BatchState) : state.canTransitionTo state = true := by
  simp [canTransitionTo]

theorem eq_of_canTransitionTo {state next : BatchState} (h : state.canTransitionTo next = true)
    (hterminal : state.isTerminal = true) : next = state := by
  revert h hterminal
  cases state <;> cases next <;> decide

theorem open_of_canTransitionTo {state next : BatchState} (h : state.canTransitionTo next = true)
    (hopen : next.isTerminal = false) : state.isTerminal = false := by
  by_contra hterminal
  rw [Bool.not_eq_false] at hterminal
  have heq := eq_of_canTransitionTo h hterminal
  rw [heq, hterminal] at hopen
  cases hopen

end BatchState

structure FileOffer where
  protocolVersion : Nat := PROTOCOL_VERSION
  transferVersion : Nat := FILE_TRANSFER_VERSION
  phoneId : String
  batchId : String
  direction : TransferDirection
  fileCount : Nat
  directoryCount : Nat
  totalBytes : Nat
  roots : List String := []
  deriving DecidableEq, Repr

structure FileDecision where
  protocolVersion : Nat := PROTOCOL_VERSION
  transferVersion : Nat := FILE_TRANSFER_VERSION
  batchId : String
  accepted : Bool
  deriving DecidableEq, Repr

structure FileCancel where
  protocolVersion : Nat := PROTOCOL_VERSION
  transferVersion : Nat := FILE_TRANSFER_VERSION
  batchId : String
  deriving DecidableEq, Repr

inductive FileClientMessage
  | fileOffer (offer : FileOffer)
  | fileDecision (decision : FileDecision)
  | fileCancel (cancel : FileCancel)
  deriving DecidableEq, Repr

inductive FileServerMessage
  | fileTicket (batchId token : String) (expiresAt : Nat)
  | fileResult (batchId : String) (state : BatchState)
  | fileError (batchId code : String)
  deriving DecidableEq, Repr

def FileServerMessage.isTicket : FileServerMessage → Bool
  | .fileTicket _ _ _ => true
  | _ => false

def validVersions (protocolVersion transferVersion : Nat) : Bool :=
  protocolVersion == PROTOCOL_VERSION && transferVersion == FILE_TRANSFER_VERSION

def validIdentifier (value : String) (maxBytes : Nat) : Bool :=
  value ≠ "" && value.utf8ByteSize ≤ maxBytes &&
    value.toList.all fun c => c.isAlphanum || c == '-' || c == '_'

def isControlChar (c : Char) : Bool := c.toNat < 32 || (127 ≤ c.toNat && c.toNat < 160)

def FileOffer.validate (offer : FileOffer) (authenticatedPhoneId : String) : Bool :=
  validVersions offer.protocolVersion offer.transferVersion &&
    offer.phoneId == authenticatedPhoneId && validIdentifier offer.phoneId MAX_PHONE_ID_BYTES &&
    validIdentifier offer.batchId MAX_BATCH_ID_BYTES &&
    !(offer.fileCount == 0 && offer.directoryCount == 0) &&
    offer.fileCount ≤ MAX_WIRE_INTEGER && offer.directoryCount ≤ MAX_WIRE_INTEGER &&
    offer.totalBytes ≤ MAX_WIRE_INTEGER && offer.roots.length ≤ MAX_ROOT_SUMMARIES &&
    offer.roots.all fun root => root ≠ "" && root.utf8ByteSize ≤ MAX_ROOT_SUMMARY_BYTES &&
      !root.toList.any isControlChar

structure BatchRecord where
  batchId : String
  phoneId : String
  direction : TransferDirection
  state : BatchState
  createdAt : Nat
  updatedAt : Nat
  fileCount : Nat
  directoryCount : Nat
  totalBytes : Nat
  deriving DecidableEq, Repr

/-- The checks of the store on a new record. -/
def BatchRecord.validate (batch : BatchRecord) : Bool :=
  validIdentifier batch.batchId MAX_BATCH_ID_BYTES &&
    validIdentifier batch.phoneId MAX_PHONE_ID_BYTES &&
    !(batch.fileCount == 0 && batch.directoryCount == 0) &&
    batch.fileCount ≤ MAX_WIRE_INTEGER && batch.directoryCount ≤ MAX_WIRE_INTEGER &&
    batch.totalBytes ≤ MAX_WIRE_INTEGER && batch.createdAt ≤ batch.updatedAt

def BatchRecord.new (batchId phoneId : String) (direction : TransferDirection) (now : Nat)
    (fileCount directoryCount totalBytes : Nat) : Option BatchRecord :=
  let batch : BatchRecord :=
    { batchId
      phoneId
      direction
      state := match direction with
        | .phoneToComputer => .queued
        | .computerToPhone => .waitingConfirmation
      createdAt := now
      updatedAt := now
      fileCount
      directoryCount
      totalBytes }
  if batch.validate then some batch else none

/-- The hash of a token stands for the token. -/
structure TicketGrant where
  phoneId : String
  token : String
  expiresAt : Nat
  direction : TransferDirection
  deriving DecidableEq, Repr

structure FileTransferCoordinator where
  batches : KeyedTable BatchRecord.batchId := .empty
  tickets : String → Option TicketGrant := fun _ => none

namespace FileTransferCoordinator

def loadBatch (s : FileTransferCoordinator) (batchId : String) : Option BatchRecord :=
  s.batches.rows.find? fun batch => batch.batchId == batchId

def recoverableBatches (s : FileTransferCoordinator) : List BatchRecord :=
  s.batches.rows.filter fun batch => !batch.state.isTerminal

def createBatch (s : FileTransferCoordinator) (batch : BatchRecord) : FileTransferCoordinator :=
  { s with batches := s.batches.insert batch }

def updateState (s : FileTransferCoordinator) (batchId : String) (state : BatchState) (now : Nat) :
    Option FileTransferCoordinator :=
  (s.loadBatch batchId).bind fun batch =>
    if batch.state.canTransitionTo state then
      let updated := { batch with state := state, updatedAt := max now batch.updatedAt }
      some { s with batches := s.batches.insert updated }
    else none

def removeTicket (s : FileTransferCoordinator) (batchId : String) : FileTransferCoordinator :=
  { s with tickets := Function.update s.tickets batchId none }

def issueTicket (s : FileTransferCoordinator) (batchId phoneId token : String) (now : Nat) :
    Except String (FileTransferCoordinator × FileServerMessage) :=
  match s.loadBatch batchId with
  | none => .error "unknown batch"
  | some batch =>
    let grant : TicketGrant :=
      { phoneId, token, expiresAt := now + TICKET_LIFETIME, direction := batch.direction }
    .ok ({ s with tickets := Function.update s.tickets batchId (some grant) },
      .fileTicket batchId token grant.expiresAt)

/-- `busy` says that another offer holds `batch_starts`. -/
def acceptOffer (s : FileTransferCoordinator) (offer : FileOffer) (authenticatedPhoneId : String)
    (busy : Bool) (token : String) (now : Nat) :
    Except String (FileTransferCoordinator × FileServerMessage) :=
  if offer.validate authenticatedPhoneId = false then .error "invalid file offer"
  else if offer.direction ≠ .phoneToComputer then .error "unexpected transfer direction"
  else if busy then .error "transfer_busy"
  else if (s.loadBatch offer.batchId).isNone &&
      s.recoverableBatches.any (fun batch => batch.phoneId == authenticatedPhoneId) then
    .error "transfer_busy"
  else match BatchRecord.new offer.batchId offer.phoneId offer.direction now offer.fileCount
      offer.directoryCount offer.totalBytes with
    | none => .error "invalid batch"
    | some batch => match s.loadBatch offer.batchId with
      | none => (s.createBatch batch).issueTicket offer.batchId authenticatedPhoneId token now
      | some existing =>
        if existing.phoneId ≠ offer.phoneId ∨ existing.direction ≠ offer.direction ∨
            existing.fileCount ≠ offer.fileCount ∨
            existing.directoryCount ≠ offer.directoryCount ∨
            existing.totalBytes ≠ offer.totalBytes then .error "batch id conflict"
        else if existing.state.isTerminal then
          .ok (s, .fileResult existing.batchId existing.state)
        else s.issueTicket offer.batchId authenticatedPhoneId token now

def cancel (s : FileTransferCoordinator) (batchId phoneId : String) (now : Nat) :
    Except String FileTransferCoordinator :=
  match s.loadBatch batchId with
  | none => .error "unknown batch"
  | some batch =>
    if batch.phoneId ≠ phoneId then .error "batch owner mismatch"
    else if batch.state.isTerminal then .ok (s.removeTicket batchId)
    else match s.updateState batchId .canceled now with
      | none => .error "cannot cancel batch"
      | some s => .ok (s.removeTicket batchId)

/-- The tickets of the phone go, and its batches are cancelled. -/
def revokePhone (s : FileTransferCoordinator) (phoneId : String) (now : Nat) :
    FileTransferCoordinator :=
  let s₁ := { s with tickets := fun batchId =>
    (s.tickets batchId).filter fun grant => decide (grant.phoneId ≠ phoneId) }
  (s₁.recoverableBatches.filter fun batch => batch.phoneId == phoneId).foldl
    (fun s batch => match s.cancel batch.batchId phoneId now with
      | .error _ => s
      | .ok s => s) s₁

/-- A batch in one of the states goes on to the next one, as `accept_decision` does it. -/
def advance (s : FileTransferCoordinator) (batchId : String) (states : List BatchState)
    (next : BatchState) (now : Nat) (code : String) : Except String FileTransferCoordinator :=
  match s.loadBatch batchId with
  | none => .error "unknown batch"
  | some batch =>
    if states.contains batch.state then
      match s.updateState batchId next now with
      | none => .error code
      | some s => .ok s
    else .ok s

def acceptDecision (s : FileTransferCoordinator) (decision : FileDecision) (phoneId : String)
    (token : String) (now : Nat) :
    Except String (FileTransferCoordinator × Option FileServerMessage) :=
  if (validVersions decision.protocolVersion decision.transferVersion &&
      validIdentifier decision.batchId MAX_BATCH_ID_BYTES) = false then
    .error "invalid file decision"
  else match s.loadBatch decision.batchId with
    | none => .error "unknown batch"
    | some batch =>
      if batch.phoneId ≠ phoneId ∨ batch.direction ≠ .computerToPhone then
        .error "batch owner mismatch"
      else if batch.state.isTerminal then
        .ok (s, some (.fileResult batch.batchId batch.state))
      else if decision.accepted = false then
        (s.cancel decision.batchId phoneId now).map fun s => (s, none)
      else do
        let s ← s.advance decision.batchId [.waitingConfirmation] .queued now
          "cannot accept batch"
        let s ← s.advance decision.batchId [.queued, .waitingNetwork] .preparing now
          "cannot prepare batch"
        let s ← s.advance decision.batchId [.preparing] .transferring now "cannot start batch"
        let (s, reply) ← s.issueTicket decision.batchId phoneId token now
        pure (s, some reply)

/-- `batchId` is the one of the frame; `message` is there if it can be read. -/
def handleControl (s : FileTransferCoordinator) (batchId : String)
    (message : Option FileClientMessage) (phoneId : String) (busy : Bool) (token : String)
    (now : Nat) : FileTransferCoordinator × Option FileServerMessage :=
  let result : Except String (FileTransferCoordinator × Option FileServerMessage) :=
    match message with
    | none => .error "invalid file request"
    | some (.fileOffer offer) =>
      (s.acceptOffer offer phoneId busy token now).map fun r => (r.1, some r.2)
    | some (.fileDecision decision) => s.acceptDecision decision phoneId token now
    | some (.fileCancel cancel) =>
      if (validVersions cancel.protocolVersion cancel.transferVersion &&
          validIdentifier cancel.batchId MAX_BATCH_ID_BYTES) = false then
        .error "invalid file cancellation"
      else (s.cancel cancel.batchId phoneId now).map fun s => (s, none)
  match result with
  | .ok r => r
  | .error code => (s, some (.fileError batchId code))

theorem handleControl_fileDecision (s : FileTransferCoordinator) (batchId : String)
    (decision : FileDecision) (phoneId : String) (busy : Bool) (token : String) (now : Nat) :
    s.handleControl batchId (some (.fileDecision decision)) phoneId busy token now =
      match s.acceptDecision decision phoneId token now with
      | .ok r => r
      | .error code => (s, some (.fileError batchId code)) := rfl

/-- `authorize_request`, with the batch that is loaded next. Expired tickets go. -/
def authorize (s : FileTransferCoordinator) (batchId bearer : String) (now : Nat) :
    FileTransferCoordinator × Option BatchRecord :=
  let s₁ := { s with tickets := fun batchId =>
    (s.tickets batchId).filter fun grant => decide (now < grant.expiresAt) }
  match s₁.tickets batchId, s₁.loadBatch batchId with
  | some grant, some batch =>
    if grant.token = bearer ∧ batch.phoneId = grant.phoneId ∧ batch.state.isTerminal = false then
      (s₁, some batch)
    else (s₁, none)
  | _, _ => (s₁, none)

end FileTransferCoordinator

end FlowType
