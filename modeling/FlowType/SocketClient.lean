import FlowType.FlowTypeController
import FlowType.BindingStore

/-! `SyncClient` down to its socket: what its calls, its timers and the frames it receives
do with the socket and the connection. What an action of the queue becomes on the wire is
left to `sendAction`; file transfers are left out. -/
namespace FlowType

/-- A socket with what its `SocketListener` was made with. -/
structure Socket where
  current : BindingStore.Binding
  generation : Nat
  deriving DecidableEq, Repr

/-- The calls of `SyncClient.Listener`. -/
inductive SocketClient.Callback
  | ready (binding : BindingStore.Binding)
  | ack (ack : AckMessage)
  | target (target : TargetMessage)
  | switchComputer (pcId : String) (requestId : Option String)
  | disconnected (binding : BindingStore.Binding)
  | failure (binding : BindingStore.Binding)
  | serverError (binding : BindingStore.Binding) (error : ErrorMessage)
  | pairingInvalid (binding : BindingStore.Binding)
  | imageTransferred (transferId : String)
  | imageTransferFailed (transferId : String)
  deriving DecidableEq, Repr

/-- What `onMessage` receives. -/
inductive SocketClient.Message
  | challenge
  | ready (fileTransfer healthCheck : Bool)
  | imageAck (transferId : String)
  | imageError (transferId : String)
  | probeResult
  | healthAck
  | ack (ack : AckMessage)
  | target (target : TargetMessage)
  | switchComputer (pcId : String) (requestId : Option String)
  | error (error : ErrorMessage)
  deriving DecidableEq, Repr

/-- `client` is the key that the `OkHttpClient` is pinned to, a runnable is there while it
is scheduled, and `calls` are the calls of the listener during the last event. -/
structure SocketClient where
  queue : OutboundQueue := {}
  client : Option String := none
  socket : Option Socket := none
  binding : Option BindingStore.Binding := none
  ready : Bool := false
  fileTransferSupported : Bool := false
  stopped : Bool := false
  generation : Nat := 0
  reconnectAttempt : Nat := 0
  reconnectRunnable : Bool := false
  connectTimeoutRunnable : Bool := false
  healthTimeoutRunnable : Bool := false
  targetRetryRunnable : Bool := false
  socketOpenedAtMs : Nat := 0
  lastServerResponseAtMs : Nat := 0
  healthCheckPending : Bool := false
  healthCheckSupported : Bool := false
  pendingImageId : Option String := none
  calls : List SocketClient.Callback := []
  deriving DecidableEq, Repr

namespace SocketClient

def CONNECT_TIMEOUT_MS : Nat := 4000
def HEALTH_IDLE_MS : Nat := 30000

/-- What comes from outside during an event: the clock, and whether the socket takes the
first and the second thing that is written to it. -/
structure Outside where
  now : Nat := 0
  taken : Bool := true
  takenNext : Bool := true
  deriving DecidableEq, Repr

def called (s : SocketClient) (calls : List Callback) : SocketClient :=
  { s with calls := s.calls ++ calls }

def openSocket (s : SocketClient) (out : Outside) : SocketClient :=
  match s.binding, s.client with
  | some current, some _ => { s with
      reconnectRunnable := false
      generation := s.generation + 1
      ready := false
      healthCheckPending := false
      healthCheckSupported := false
      queue := s.queue.onDisconnected
      socketOpenedAtMs := out.now
      socket := some ⟨current, s.generation + 1⟩
      connectTimeoutRunnable := true }
  | _, _ => s

def invalidateSocket (s : SocketClient) : SocketClient :=
  { s with
    generation := s.generation + 1
    ready := false
    healthCheckPending := false
    connectTimeoutRunnable := false
    healthTimeoutRunnable := false
    targetRetryRunnable := false
    reconnectRunnable := false
    socket := none
    queue := s.queue.onDisconnected }

def restartSocket (s : SocketClient) (out : Outside) : SocketClient :=
  if s.stopped ∨ s.binding = none then s else s.invalidateSocket.openSocket out

def connect (s : SocketClient) (out : Outside) (binding : BindingStore.Binding) : SocketClient :=
  { { s with stopped := false }.invalidateSocket with
    binding := some binding
    client := some binding.tlsSpkiSha256
    reconnectAttempt := 0 }.openSocket out

def connectionAgeMs (s : SocketClient) (out : Outside) : Nat := out.now - s.socketOpenedAtMs

def opening (s : SocketClient) (out : Outside) : Bool :=
  s.socket.isSome && decide (s.connectionAgeMs out < CONNECT_TIMEOUT_MS)

def ensureConnected (s : SocketClient) (out : Outside) : SocketClient :=
  if s.stopped ∨ s.ready ∨ s.binding = none then s
  else if s.opening out then s
  else s.restartSocket out

def forceReconnect (s : SocketClient) (out : Outside) : SocketClient :=
  if s.stopped ∨ s.binding = none then s
  else { s with reconnectAttempt := 0 }.restartSocket out

def wakeConnectionForText (s : SocketClient) (out : Outside) : SocketClient :=
  if s.stopped ∨ s.binding = none then s
  else if s.opening out then s
  else s.restartSocket out

/-- What is written to no socket or is not taken restarts the socket. -/
def written (s : SocketClient) (out : Outside) (taken : Bool) : SocketClient :=
  if s.socket.isSome ∧ taken then s else s.restartSocket out

/-- `sendActionLocked` for an action, nothing without one. -/
def sendAction (s : SocketClient) (out : Outside) (taken : Bool) :
    Option OutboundAction → SocketClient
  | none => s
  | some _ => s.written out taken

def healthCheckDue (s : SocketClient) (out : Outside) : Bool :=
  s.healthCheckSupported && !s.healthCheckPending &&
    decide (HEALTH_IDLE_MS ≤ out.now - s.lastServerResponseAtMs)

def sendHealthCheckIfIdle (s : SocketClient) (out : Outside) : SocketClient × Bool :=
  if s.healthCheckDue out = false then (s, true)
  else if s.socket.isSome ∧ out.taken then
    ({ s with healthCheckPending := true, healthTimeoutRunnable := true }, true)
  else (s.restartSocket out, false)

/-- The health check is written before the action. -/
def send (s : SocketClient) (out : Outside) (message : SnapshotMessage) : SocketClient :=
  let s₁ := { s with queue := (s.queue.offer message).1 }
  if s₁.ready then
    let r := s₁.sendHealthCheckIfIdle out
    if r.2 then r.1.sendAction out out.takenNext (s.queue.offer message).2 else r.1
  else s₁.wakeConnectionForText out

/-- The header is written before the bytes. -/
def sendImage (s : SocketClient) (out : Outside) (transferId : String) : SocketClient × Bool :=
  if s.ready = false ∨ s.socket = none ∨ s.pendingImageId ≠ none then (s, false)
  else if out.taken ∧ out.takenNext then ({ s with pendingImageId := some transferId }, true)
  else ({ s with pendingImageId := none }.restartSocket out, false)

def abandonSession (s : SocketClient) (out : Outside) : SocketClient :=
  let s₁ := { s with queue := s.queue.abandonSession }
  if s₁.ready then s₁.written out out.taken else s₁

def restore (s : SocketClient) (message : SnapshotMessage) (acknowledgedSequence : Int)
    (remoteStarted : Bool) : Option SocketClient :=
  (s.queue.restore message acknowledgedSequence remoteStarted).map fun queue =>
    { s with queue := queue }

def startOfflineDraft (s : SocketClient) (out : Outside) : SocketClient :=
  { s with queue := s.queue.startOfflineDraft.1 }.sendAction out out.taken
    s.queue.startOfflineDraft.2

def shutdown (s : SocketClient) : SocketClient :=
  { { s with stopped := true }.invalidateSocket with client := none }

def resetForTargetSelection (s : SocketClient) : SocketClient :=
  let s₁ := { s with stopped := true }.invalidateSocket
  { s₁ with client := none, binding := none, queue := s₁.queue.abandonSession }

def scheduleReconnect (s : SocketClient) : SocketClient :=
  if s.stopped ∨ s.binding = none ∨ s.reconnectRunnable then s
  else { s with
    socket := none
    reconnectAttempt := s.reconnectAttempt + 1
    reconnectRunnable := true }

/-- `connectionLostLocked`, past its guard. -/
def connectionLost (s : SocketClient) (current : BindingStore.Binding) (failed : Bool) :
    SocketClient :=
  let reconnectBinding :=
    (s.binding.filter fun binding => decide (binding.pcId = current.pcId)).getD current
  let s₁ : SocketClient := { s with
    generation := s.generation + 1
    ready := false
    connectTimeoutRunnable := false
    healthTimeoutRunnable := false
    healthCheckPending := false
    targetRetryRunnable := false
    socket := none
    queue := s.queue.onDisconnected
    pendingImageId := none
    binding := some reconnectBinding.nextPairingEndpoint }
  (s₁.called (s.pendingImageId.toList.map .imageTransferFailed ++
    [if failed then .failure reconnectBinding else .disconnected reconnectBinding])).scheduleReconnect

/-- The listener of a generation, as long as it is the current one: what it was made with
is then in the socket. -/
def listener (s : SocketClient) (generation : Nat) : Option Socket :=
  if generation ≠ s.generation ∨ s.stopped then none else s.socket

/-- `onClosed` and `onFailure`. -/
def onClosed (s : SocketClient) (generation : Nat) (failed : Bool) : SocketClient :=
  match s.listener generation with
  | none => s
  | some socket => s.connectionLost socket.current failed

def connectTimeout (s : SocketClient) (generation : Nat) : SocketClient :=
  if s.ready then s else s.onClosed generation true

def healthTimeout (s : SocketClient) (out : Outside) (generation : Nat) : SocketClient :=
  if generation ≠ s.generation ∨ s.healthCheckPending = false ∨ s.stopped then s
  else s.restartSocket out

def targetRetry (s : SocketClient) (out : Outside) : SocketClient :=
  let s₁ := { s with targetRetryRunnable := false }
  if s₁.ready then s₁.sendAction out out.taken s₁.queue.retry else s₁

def reconnect (s : SocketClient) (out : Outside) : SocketClient :=
  let s₁ := { s with reconnectRunnable := false }
  if s₁.stopped ∨ s₁.ready ∨ s₁.socket.isSome then s₁ else s₁.openSocket out

def scheduleTargetRetry (s : SocketClient) : SocketClient :=
  if s.ready then { s with targetRetryRunnable := true } else s

def markServerResponsive (s : SocketClient) (out : Outside) : SocketClient :=
  { s with
    lastServerResponseAtMs := out.now
    healthCheckPending := false
    healthTimeoutRunnable := false }

def onReady (s : SocketClient) (out : Outside) (current : BindingStore.Binding)
    (fileTransfer healthCheck : Bool) : SocketClient :=
  let authenticated := current.pairedAtCurrentEndpoint
  let s₁ : SocketClient := { s with
    connectTimeoutRunnable := false
    ready := true
    reconnectAttempt := 0
    fileTransferSupported := fileTransfer
    healthCheckSupported := healthCheck
    binding := some authenticated
    queue := s.queue.onConnected.1 }
  (s₁.called [.ready authenticated]).sendAction out out.taken s.queue.onConnected.2

/-- `image_ack` and `image_error`. -/
def onImageReply (s : SocketClient) (transferId : String) (transferred : Bool) : SocketClient :=
  if s.pendingImageId ≠ some transferId then s
  else { s with pendingImageId := none }.called
    [if transferred then .imageTransferred transferId else .imageTransferFailed transferId]

def onAck (s : SocketClient) (out : Outside) (ack : AckMessage) : SocketClient :=
  if s.queue.acceptsSession ack.sessionId = false then s
  else ({ s with queue := (s.queue.acknowledge ack).1 }.sendAction out out.taken
    (s.queue.acknowledge ack).2).called [.ack ack]

def onTarget (s : SocketClient) (target : TargetMessage) : SocketClient :=
  if s.queue.acceptsSession target.sessionId = false then s
  else (match target.targetState with
    | .active => { s with queue := s.queue.markSessionStarted }
    | .notForeground => s.scheduleTargetRetry
    | .invalid => { s with queue := s.queue.requireExplicitStart }).called [.target target]

def onError (s : SocketClient) (current : BindingStore.Binding) (error : ErrorMessage) :
    SocketClient :=
  if ∃ sessionId ∈ error.sessionId, s.queue.acceptsSession sessionId = false then s
  else if error.code = .authFailed then
    { s with stopped := true }.invalidateSocket.called [.pairingInvalid current]
  else
    { s with queue := if error.code = ErrorCode.targetSubmitted then s.queue.abandonSession
      else s.queue.requireExplicitStart }.called [.serverError current error]

/-- `onMessage`. A message that cannot be read fails the socket. -/
def onMessage (s : SocketClient) (out : Outside) (generation : Nat) (message : Message) :
    SocketClient :=
  match s.listener generation with
  | none => s
  | some socket =>
    let s₁ := s.markServerResponsive out
    match message with
    | .challenge => s₁.written out out.taken
    | .ready fileTransfer healthCheck => s₁.onReady out socket.current fileTransfer healthCheck
    | .imageAck transferId => s₁.onImageReply transferId true
    | .imageError transferId => s₁.onImageReply transferId false
    | .probeResult => s₁
    | .healthAck => s₁
    | .ack ack => s₁.onAck out ack
    | .target target => s₁.onTarget target
    | .switchComputer pcId requestId => s₁.called [.switchComputer pcId requestId]
    | .error error => s₁.onError socket.current error

/-- The completion of `onSwitchComputer`, for a request with an id. -/
def switchAnswered (s : SocketClient) (out : Outside) (generation : Nat) : SocketClient :=
  if generation ≠ s.generation ∨ s.stopped ∨ s.ready = false then s else s.written out out.taken

inductive Action
  | connect (binding : BindingStore.Binding)
  | ensureConnected
  | forceReconnect
  | send (message : SnapshotMessage)
  | sendImage (transferId : String)
  | abandonSession
  | restore (message : SnapshotMessage) (acknowledgedSequence : Int) (remoteStarted : Bool)
  | startOfflineDraft
  | shutdown
  | resetForTargetSelection
  | onMessage (generation : Nat) (message : Message)
  | onClosed (generation : Nat) (failed : Bool)
  | connectTimeout (generation : Nat)
  | healthTimeout (generation : Nat)
  | targetRetry
  | reconnect
  | switchAnswered (generation : Nat)
  deriving DecidableEq, Repr

def act (s : SocketClient) (out : Outside) : Action → Option SocketClient
  | .connect binding => some (s.connect out binding)
  | .ensureConnected => some (s.ensureConnected out)
  | .forceReconnect => some (s.forceReconnect out)
  | .send message => some (s.send out message)
  | .sendImage transferId => some (s.sendImage out transferId).1
  | .abandonSession => some (s.abandonSession out)
  | .restore message acknowledgedSequence remoteStarted =>
    s.restore message acknowledgedSequence remoteStarted
  | .startOfflineDraft => some (s.startOfflineDraft out)
  | .shutdown => some s.shutdown
  | .resetForTargetSelection => some s.resetForTargetSelection
  | .onMessage generation message => some (s.onMessage out generation message)
  | .onClosed generation failed => some (s.onClosed generation failed)
  | .connectTimeout generation => some (s.connectTimeout generation)
  | .healthTimeout generation => some (s.healthTimeout out generation)
  | .targetRetry => some (s.targetRetry out)
  | .reconnect => some (s.reconnect out)
  | .switchAnswered generation => some (s.switchAnswered out generation)

structure Event where
  action : Action
  out : Outside := {}
  deriving DecidableEq, Repr

def step (s : SocketClient) (e : Event) : Option SocketClient :=
  { s with calls := [] }.act e.out e.action

end SocketClient

end FlowType
