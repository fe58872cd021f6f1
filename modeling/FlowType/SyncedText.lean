import FlowType.SessionHistory
import FlowType.Settling

/-! What the phone takes for synced and what Windows has: a phone whose session drives its
queue, a channel that keeps the order in both directions, and the server with an injector
whose text services accept. Connections and processes end at any time. -/
namespace FlowType

/-- `saved` are the drafts that were parked; `posted` are the acknowledgements that wait for
the main thread. A frame has the number of the connection it was written to, and a reply
to an older one does not arrive. `reached` and `ended` are history: the texts the injector
has had for a session, and those it has finished with, the last one first. -/
structure SyncRun where
  phone : SessionRun
  queue : OutboundQueue := {}
  saved : List ParkedSession := []
  posted : List AckMessage := []
  generation : Nat := 0
  toServer : List (Nat × Frame) := []
  toPhone : List ServerMessage := []
  task : Option (Nat × Handling) := none
  injector : Injector := {}
  reached : List TextRevision := []
  ended : List TextRevision := []

namespace SyncRun
open Machine

inductive Event
  /-- An operation of the user on the session; its snapshots go to the queue. -/
  | edit (op : InputSession.Op)
  | abandonSession
  | save (remoteStarted : Bool)
  | restore (parked : ParkedSession)
  | restoreQueue (parked : ParkedSession)
  /-- Of the frames on their way, the first `arriving` ones still get to the server. -/
  | newProcess (arriving : Nat)
  | connected
  | disconnected (arriving : Nat)
  | retry
  | startOfflineDraft
  /-- The phone's socket receives what the server has sent. -/
  | deliver
  /-- The main thread takes a posted acknowledgement. -/
  | runAck
  /-- The server receives a frame. -/
  | take
  /-- The injector settles the request of the message under way. -/
  | serve (env : Surroundings)
  /-- The app gives the request up; the injector may have executed it. -/
  | fail (failure : InjectorRequestFailure) (executed : Option Surroundings)
  | other (request : InjectorRequest) (env : Surroundings)
  | injectorRestarts

def queueOp (s : SyncRun) (op : OutboundQueue.Op) : Option SyncRun :=
  (s.queue.apply op).map fun r =>
    { s with
      queue := r.1
      toServer := s.toServer ++ r.2.toList.map fun action => (s.generation, sendAction r.1 action) }

def offerAll (s : SyncRun) : List SnapshotMessage → Option SyncRun
  | [] => some s
  | m :: ms => (s.queueOp (.offer m)).bind fun t => t.offerAll ms

def lose (s : SyncRun) (arriving : Nat) : SyncRun :=
  { s with
    queue := s.queue.onDisconnected
    generation := s.generation + 1
    toServer := s.toServer.take arriving
    toPhone := [] }

/-- What the user does to the session; the others have events of their own. -/
def isEdit : InputSession.Op → Bool
  | .acknowledge _ => false
  | .state => false
  | .restore _ => false
  | .recoverySnapshot => false
  | _ => true

def stepEdit (s : SyncRun) (op : InputSession.Op) : Option SyncRun :=
  if isEdit op then
    (s.phone.session.apply op).bind fun r =>
      (s.phone.step op).bind fun phone => { s with phone := phone }.offerAll r.2
  else none

def stepAbandon (s : SyncRun) : Option SyncRun :=
  let cancels := if s.queue.connected then
    s.phone.session.sessionId.toList.map fun id =>
      (s.generation, Frame.cancel { phoneId := s.phone.session.phoneId, sessionId := id })
    else []
  { s with toServer := s.toServer ++ cancels }.queueOp .abandonSession

/-- A draft is parked as started only when the queue says so. -/
def stepSave (s : SyncRun) (remoteStarted : Bool) : Option SyncRun :=
  if remoteStarted = true → s.queue.remoteStarted = true then
    (s.phone.step .state).map fun phone =>
      { s with phone := phone, saved := ⟨s.phone.session.state, remoteStarted⟩ :: s.saved }
  else none

def stepRestore (s : SyncRun) (parked : ParkedSession) : Option SyncRun :=
  if parked ∈ s.saved then
    (s.phone.step (.restore parked.state)).map fun phone => { s with phone := phone }
  else none

def stepRestoreQueue (s : SyncRun) (parked : ParkedSession) : Option SyncRun :=
  if parked ∈ s.saved then
    match s.phone.session.recoverySnapshot with
    | none => some s
    | some m => s.queueOp (.restore m parked.state.acknowledgedSequence parked.remoteStarted)
  else none

/-- Session, queue and what was posted go; the drafts stay. -/
def stepNewProcess (s : SyncRun) (arriving : Nat) : Option SyncRun :=
  (s.phone.step .reset).map fun phone =>
    { s.lose arriving with phone := phone, queue := {}, posted := [] }

def onMessage (s : SyncRun) : ServerMessage → Option SyncRun
  | .ack ack =>
    if s.queue.acceptsSession ack.sessionId = false then some s
    else { s with posted := s.posted ++ [ack] }.queueOp (.acknowledge ack)
  | .target sessionId targetState _ =>
    if s.queue.acceptsSession sessionId = false then some s
    else
      match targetState with
      | .active => s.queueOp .markSessionStarted
      | .notForeground => some s
      | .invalid => s.queueOp .requireExplicitStart
  | .error code sessionId =>
    if ∃ id ∈ sessionId, s.queue.acceptsSession id = false then some s
    else if code = .authFailed then some (s.lose s.toServer.length)
    else s.queueOp (if code = .targetSubmitted then .abandonSession else .requireExplicitStart)

def stepDeliver (s : SyncRun) : Option SyncRun :=
  match s.toPhone with
  | [] => none
  | message :: rest => { s with toPhone := rest }.onMessage message

def stepRunAck (s : SyncRun) : Option SyncRun :=
  match s.posted with
  | [] => none
  | ack :: rest =>
    (s.phone.step (.acknowledge ack)).map fun phone => { s with phone := phone, posted := rest }

def reply (s : SyncRun) (generation : Nat) (sent : List ServerMessage) : SyncRun :=
  if generation = s.generation then { s with toPhone := s.toPhone ++ sent } else s

/-- A frame that fails a check is not handled. -/
def stepTake (s : SyncRun) : Option SyncRun :=
  match s.task, s.toServer with
  | none, (generation, frame) :: rest =>
    let s₁ := { s with toServer := rest }
    if frame.encode.utf8ByteSize > MAX_MESSAGE_BYTES then some s₁
    else
      match handleClientMessage s.phone.session.phoneId frame.received with
      | .error _ => some s₁
      | .ok (sent, handling) =>
        some ({ s₁ with task := handling.map (generation, ·) }.reply generation sent)
  | _, _ => none

def reachedAfter (injector : Injector) (reached : List TextRevision) : List TextRevision :=
  injector.session.toList.map (·.revision) ++ reached

def endedAfter (before after : Injector) (ended : List TextRevision) : List TextRevision :=
  if after.completed = before.completed then ended
  else after.completed.toList.map (·.revision) ++ ended

def settled (s : SyncRun) (injector : Injector) : SyncRun :=
  { s with
    injector := injector
    reached := reachedAfter injector s.reached
    ended := endedAfter s.injector injector s.ended }

def proceed (s : SyncRun) (generation : Nat) (handling : Handling) (result : DispatchResult) :
    SyncRun :=
  { s with task := (handling.proceed result).2.map (generation, ·) }.reply generation
    (handling.proceed result).1

def stepServe (s : SyncRun) (env : Surroundings) : Option SyncRun :=
  match s.task with
  | none => none
  | some (generation, handling) =>
    (s.injector.handle env handling.request).map fun r =>
      (s.settled r.1).proceed generation handling (.ok r.2)

def stepFail (s : SyncRun) (failure : InjectorRequestFailure) (executed : Option Surroundings) :
    Option SyncRun :=
  match s.task, executed with
  | none, _ => none
  | some (generation, handling), none => some (s.proceed generation handling (.error failure))
  | some (generation, handling), some env =>
    (s.injector.handle env handling.request).map fun r =>
      (s.settled r.1).proceed generation handling (.error failure)

def stepOther (s : SyncRun) (request : InjectorRequest) (env : Surroundings) : Option SyncRun :=
  if Server.isOther request then (s.injector.handle env request).map fun r => s.settled r.1
  else none

def step (s : SyncRun) : Event → Option SyncRun
  | .edit op => s.stepEdit op
  | .abandonSession => s.stepAbandon
  | .save remoteStarted => s.stepSave remoteStarted
  | .restore parked => s.stepRestore parked
  | .restoreQueue parked => s.stepRestoreQueue parked
  | .newProcess arriving => s.stepNewProcess arriving
  | .connected => if s.queue.connected then none else s.queueOp .onConnected
  | .disconnected arriving => some (s.lose arriving)
  | .retry => s.queueOp .retry
  | .startOfflineDraft => s.queueOp .startOfflineDraft
  | .deliver => s.stepDeliver
  | .runAck => s.stepRunAck
  | .take => s.stepTake
  | .serve env => s.stepServe env
  | .fail failure executed => s.stepFail failure executed
  | .other request env => s.stepOther request env
  | .injectorRestarts => some (s.settled {})

def start (phoneId : String) : SyncRun := { phone := SessionRun.start phoneId }

/-- What the phone shows as acknowledged is what Windows has: in the active session, and in
the one that was finished last. -/
def Synced (s : SyncRun) : Prop :=
  ∀ id ∈ s.phone.session.sessionId,
    (∀ a ∈ s.injector.session, a.id = id →
      s.phone.session.acknowledgedSequence = s.phone.session.latestSequence →
      a.text = s.phone.session.currentText) ∧
    (s.phone.session.finished = true →
      (s.ended.find? fun c => decide (c.key = id)).map (·.value) =
        some s.phone.session.currentText)

instance (s : SyncRun) : Decidable s.Synced :=
  inferInstanceAs (Decidable (∀ id ∈ s.phone.session.sessionId, _))

/-- A draft is restored before its session has issued anything beyond it, and the text does
not change while the queue keeps an older snapshot back although nothing is in flight. -/
def InTurn (s : SyncRun) : Event → Prop
  | .restore parked => ∀ m ∈ s.phone.issued, some m.sessionId = parked.state.sessionId →
      m.sequence ≤ parked.state.latestSequence
  | .edit (.onTextChanged text _ _) =>
    s.queue.connected = true → s.queue.inFlight = none →
      ∀ m ∈ s.queue.pending, some m.sessionId = s.phone.session.sessionId →
        text = s.phone.session.currentText
  | _ => True

instance (s : SyncRun) (event : Event) : Decidable (s.InTurn event) := by
  unfold InTurn
  split <;> infer_instance

end SyncRun

end FlowType
