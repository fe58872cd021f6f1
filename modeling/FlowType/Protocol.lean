import Mathlib.Data.String.Basic

/-! The session messages of protocol v2 as the phone builds them and as Windows
validates them. Identifiers and texts are strings; a sequence number is an
integer, since no check of either side depends on the 64-bit range. -/
namespace FlowType

def PROTOCOL_VERSION : Nat := 2

def MAX_MESSAGE_BYTES : Nat := 1024 * 1024

inductive SnapshotType
  | start | update | finish
  deriving DecidableEq, Repr

structure SnapshotMessage where
  type : SnapshotType
  phoneId : String
  sessionId : String
  sequence : Int
  fullText : String
  replacesSessionId : Option String := none
  attachExisting : Bool := false
  protocolVersion : Nat := PROTOCOL_VERSION
  deriving DecidableEq, Repr

inductive ClientSessionState
  | active | finishing
  deriving DecidableEq, Repr

structure ResumeMessage where
  phoneId : String
  sessionId : String
  lastAckSequence : Int
  sequence : Int
  fullText : String
  sessionState : ClientSessionState
  protocolVersion : Nat := PROTOCOL_VERSION
  deriving DecidableEq, Repr

structure CancelMessage where
  phoneId : String
  sessionId : String
  protocolVersion : Nat := PROTOCOL_VERSION
  deriving DecidableEq, Repr

inductive ServerSessionState
  | active | finished
  deriving DecidableEq, Repr

structure AckMessage where
  sessionId : String
  appliedSequence : Int
  sessionState : ServerSessionState
  deriving DecidableEq, Repr

def AckMessage.finished (ack : AckMessage) : Bool := ack.sessionState = .finished

inductive TargetState
  | active | notForeground | invalid
  deriving DecidableEq, Repr

inductive ErrorCode
  | authFailed | sessionBusy | sessionUnknown | sessionFinished | sequenceConflict
  | textTooLarge | targetUnavailable | targetInvalid | targetModified | targetSubmitted
  | injectorUnavailable | recoveryRequired | injectionUnknown | invalidMessage
  | unsupportedProtocol
  deriving DecidableEq, Repr

inductive ClientMessage
  | start (snapshot : SnapshotMessage)
  | update (snapshot : SnapshotMessage)
  | finish (snapshot : SnapshotMessage)
  | resume (resume : ResumeMessage)
  | cancel (cancel : CancelMessage)
  deriving DecidableEq, Repr

inductive ValidationError
  | unsupportedProtocol | missingIdentifier | invalidSequence | messageTooLarge
  deriving DecidableEq, Repr

def SnapshotMessage.validate (m : SnapshotMessage) : Except ValidationError Unit :=
  if m.protocolVersion ≠ PROTOCOL_VERSION then .error .unsupportedProtocol
  else if m.phoneId = "" ∨ m.sessionId = "" then .error .missingIdentifier
  else if ∃ replaced ∈ m.replacesSessionId, replaced = "" ∨ replaced = m.sessionId then
    .error .missingIdentifier
  else if m.sequence ≤ 0 then .error .invalidSequence
  else if m.fullText.utf8ByteSize > MAX_MESSAGE_BYTES then .error .messageTooLarge
  else .ok ()

def ResumeMessage.validate (m : ResumeMessage) : Except ValidationError Unit :=
  if m.protocolVersion ≠ PROTOCOL_VERSION then .error .unsupportedProtocol
  else if m.phoneId = "" ∨ m.sessionId = "" then .error .missingIdentifier
  else if m.sequence ≤ 0 ∨ m.lastAckSequence < 0 ∨ m.lastAckSequence > m.sequence then
    .error .invalidSequence
  else if m.fullText.utf8ByteSize > MAX_MESSAGE_BYTES then .error .messageTooLarge
  else .ok ()

def CancelMessage.validate (m : CancelMessage) : Except ValidationError Unit :=
  if m.protocolVersion ≠ PROTOCOL_VERSION then .error .unsupportedProtocol
  else if m.phoneId = "" ∨ m.sessionId = "" then .error .missingIdentifier
  else .ok ()

end FlowType
