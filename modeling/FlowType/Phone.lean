import FlowType.Runs
import FlowType.InputSession
import FlowType.SyncClient

/-! The phone: the input session drives the queue of the sync client, drafts are
saved and restored, connections come and go. Besides its state a phone carries
the history that its properties speak about. -/
namespace FlowType

/-- `replacesSessionId` and `attachExisting`, the binding fields of a START. -/
abbrev Binding := Option String × Bool

def SnapshotMessage.binding (m : SnapshotMessage) : Binding :=
  (m.replacesSessionId, m.attachExisting)

def InputSession.binding (s : InputSession) : Binding :=
  (s.replacementSessionId, s.attachExistingAtCursor)

def InputSession.State.binding (s : InputSession.State) : Binding :=
  (s.replacementSessionId, s.attachExistingAtCursor)

structure ParkedSession where
  state : InputSession.State
  remoteStarted : Bool
  deriving DecidableEq, Repr

/-- `sent` holds the frames of the last event; `used`, `acked` and `first` are
history: session identifiers handed out, sessions the server has
acknowledged, and the binding fields of the first START of each session. -/
structure Phone where
  session : InputSession
  q : OutboundQueue := {}
  saved : List ParkedSession := []
  sent : List Frame := []
  used : List String := []
  acked : List String := []
  first : String → Option Binding := fun _ => none

namespace Phone
open OutboundQueue

inductive Event
  | onTextChanged (text : String) (startIfNeeded : Bool) (newId : String)
  | finish
  | startLocalDraft (attachExistingAtCursor : Bool) (newId : String)
  | restartAtCurrentCursor (newId : String)
  | resetForReplacement (text : String)
  | replaceLocalDraft (text : String)
  | reset
  | abandonSession
  | save (remoteStarted : Bool)
  | restore (parked : ParkedSession)
  | restoreQueue (parked : ParkedSession)
  | newProcess
  | queue (op : Op)
  | ackQueue (ack : AckMessage)
  | ackSession (ack : AckMessage)

/-- The session id factory returns random UUIDs: never empty, never used twice. -/
def Fresh (s : Phone) (newId : String) : Prop := newId ∉ s.used ∧ newId ≠ ""

instance (s : Phone) (newId : String) : Decidable (s.Fresh newId) :=
  inferInstanceAs (Decidable (_ ∧ _))

def noteStart (first : String → Option Binding) (m : SnapshotMessage) :
    String → Option Binding :=
  if m.type = .start ∧ first m.sessionId = none then
    Function.update first m.sessionId (some m.binding)
  else first

def noteAction (first : String → Option Binding) : Option OutboundAction → String → Option Binding
  | some ⟨m, false⟩ => noteStart first m
  | _ => first

def queueOp (s : Phone) (op : Op) : Option Phone :=
  (s.q.apply op).map fun r =>
    { s with
      q := r.1
      first := noteAction s.first r.2
      sent := s.sent ++ r.2.toList.map (sendAction r.1) }

def offer (s : Phone) (m : SnapshotMessage) : Option Phone :=
  { s with first := noteStart s.first m }.queueOp (.offer m)

def offerAll (s : Phone) : List SnapshotMessage → Option Phone
  | [] => some s
  | m :: ms => (s.offer m).bind fun t => t.offerAll ms

local instance decidableStarted (started remote : Bool) :
    Decidable (started = true → remote = true) := inferInstance

/-- `ready` is the queue's `connected`: the client sets both together. -/
def step (s₀ : Phone) (e : Event) : Option Phone :=
  let s := { s₀ with sent := [] }
  match e with
  | .onTextChanged text startIfNeeded newId =>
    if s.Fresh newId then
      (s.session.onTextChanged text startIfNeeded newId).bind fun r =>
        { s with session := r.1, used := newId :: s.used }.offerAll r.2.toList
    else none
  | .finish => s.session.finish.bind fun r => { s with session := r.1 }.offerAll r.2.toList
  | .startLocalDraft attachExistingAtCursor newId =>
    if s.Fresh newId then
      let r := s.session.startLocalDraft attachExistingAtCursor newId
      { s with session := r.1, used := newId :: s.used }.offerAll r.2.toList
    else none
  | .restartAtCurrentCursor newId =>
    if s.Fresh newId then
      (s.session.restartAtCurrentCursor newId).bind fun r =>
        { s with session := r.1, used := newId :: s.used }.offerAll r.2
    else none
  | .resetForReplacement text => some { s with session := s.session.resetForReplacement text }
  | .replaceLocalDraft text =>
    (s.session.replaceLocalDraft text).map fun session => { s with session }
  | .reset => some { s with session := s.session.reset }
  | .abandonSession =>
    match s.session.sessionId with
    | none => some s
    | some id => { s with
        sent := if s.q.connected then [.cancel { phoneId := s.session.phoneId, sessionId := id }]
          else [] }.queueOp .abandonSession
  | .save remoteStarted =>
    -- a draft is parked as started only when the queue says so
    if remoteStarted = true → s.q.remoteStarted = true then
      some { s with saved := ⟨s.session.state, remoteStarted⟩ :: s.saved }
    else none
  | .restore parked =>
    if parked ∈ s.saved then
      (s.session.restore parked.state).map fun session => { s with session }
    else none
  | .restoreQueue parked =>
    if parked ∈ s.saved then
      match s.session.recoverySnapshot with
      | none => some s
      | some m =>
        s.queueOp (.restore m parked.state.acknowledgedSequence parked.remoteStarted)
    else none
  | .newProcess => some { s with session := { phoneId := s.session.phoneId }, q := {} }
  | .queue op =>
    match op with
    -- snapshots and acknowledgements have their own events
    | .offer _ => none
    | .restore _ _ _ => none
    | .acknowledge _ => none
    | op => s.queueOp op
  | .ackQueue ack =>
    if s.q.acceptsSession ack.sessionId then
      { s with acked := ack.sessionId :: s.acked }.queueOp (.acknowledge ack)
    else some s
  | .ackSession ack =>
    if ack.sessionId ∈ s.acked then some { s with session := s.session.acknowledge ack } else none

theorem snapshot_some {s : InputSession} {type : SnapshotType} {m : SnapshotMessage}
    (h : s.snapshot type = some m) :
    s.sessionId = some m.sessionId ∧ m.type = type ∧ m.binding = s.binding := by
  obtain ⟨id, hid, rfl⟩ := Option.map_eq_some_iff.mp h
  exact ⟨hid, rfl, rfl⟩

end Phone

end FlowType
