import FlowType.ComputerSessions

/-! `FlowTypeController` on the main thread with its `SyncClient`: the live session, the
drafts, the queue and the two snapshots that wait for an automatic selection. What a
socket receives changes the queue at once, on its own thread; the listener's handler
is posted to the main thread. Texts of the user interface, images and files are left
out. -/
namespace FlowType

structure ComputerBinding where
  pcId : String
  pairingToken : Option String := none
  deriving DecidableEq, Repr

def ComputerBinding.pairedAtCurrentEndpoint (binding : ComputerBinding) : ComputerBinding :=
  { binding with pairingToken := none }

structure TargetMessage where
  sessionId : String
  targetState : TargetState
  deriving DecidableEq, Repr

structure ErrorMessage where
  code : ErrorCode
  sessionId : Option String := none
  deriving DecidableEq, Repr

/-- The calls of `SyncClient.Listener` that concern text. -/
inductive Callback
  | ready (binding : ComputerBinding)
  | ack (ack : AckMessage)
  | target (target : TargetMessage)
  | disconnected
  | serverError (binding : ComputerBinding) (error : ErrorMessage)
  | pairingInvalid (binding : ComputerBinding)
  deriving DecidableEq, Repr

/-- What the socket receives, as far as it concerns text. -/
inductive SyncClient.ServerMessage
  | ready
  | ack (ack : AckMessage)
  | target (target : TargetMessage)
  | error (error : ErrorMessage)
  deriving DecidableEq, Repr

/-- `ready` is the `connected` of the queue. A socket that is lost may be open again at
once, so one is there as long as the client is not stopped and has a binding. -/
structure SyncClient where
  queue : OutboundQueue := {}
  binding : Option ComputerBinding := none
  stopped : Bool := false
  deriving DecidableEq, Repr

namespace SyncClient

def withQueue (c : SyncClient) (queue : OutboundQueue) : SyncClient := { c with queue := queue }

def restartSocket (c : SyncClient) : SyncClient :=
  if c.stopped ∨ c.binding = none then c else c.withQueue c.queue.onDisconnected

/-- What is written to a socket that does not take it restarts the socket. -/
def written (c : SyncClient) (linked : Bool) : SyncClient :=
  if linked ∨ c.queue.connected = false then c else c.restartSocket

def connect (c : SyncClient) (binding : ComputerBinding) : SyncClient :=
  { queue := c.queue.onDisconnected, binding := some binding, stopped := false }

def forceReconnect (c : SyncClient) : SyncClient := c.restartSocket

def send (c : SyncClient) (linked : Bool) (message : SnapshotMessage) : SyncClient :=
  (c.withQueue (c.queue.offer message).1).written linked

def abandonSession (c : SyncClient) (linked : Bool) : SyncClient :=
  (c.withQueue c.queue.abandonSession).written linked

def restore (c : SyncClient) (message : SnapshotMessage) (acknowledgedSequence : Int)
    (remoteStarted : Bool) : Option SyncClient :=
  (c.queue.restore message acknowledgedSequence remoteStarted).map c.withQueue

def startOfflineDraft (c : SyncClient) (linked : Bool) : SyncClient :=
  match c.queue.startOfflineDraft with
  | (_, none) => c
  | (queue, some _) => (c.withQueue queue).written linked

def requiresExplicitStart (c : SyncClient) : Bool := c.queue.requiresExplicitStart

def remoteStarted (c : SyncClient) : Bool := c.queue.remoteStarted

def shutdown (c : SyncClient) : SyncClient :=
  { c with queue := c.queue.onDisconnected, stopped := true }

def resetForTargetSelection (c : SyncClient) : SyncClient :=
  { queue := c.queue.onDisconnected.abandonSession, binding := none, stopped := true }

/-- `SocketListener.onMessage`: the client afterwards and what it calls. -/
def onMessage (c : SyncClient) (current : ComputerBinding) (linked : Bool) :
    ServerMessage → SyncClient × List Callback
  | .ready =>
    let authenticated := current.pairedAtCurrentEndpoint
    let c₁ := { c with queue := c.queue.onConnected.1, binding := some authenticated }
    (if c.queue.onConnected.2 = none then c₁ else c₁.written linked, [.ready authenticated])
  | .ack ack =>
    if c.queue.acceptsSession ack.sessionId = false then (c, [])
    else
      let c₁ := c.withQueue (c.queue.acknowledge ack).1
      (if (c.queue.acknowledge ack).2 = none then c₁ else c₁.written linked, [.ack ack])
  | .target target =>
    if c.queue.acceptsSession target.sessionId = false then (c, [])
    else
      (match target.targetState with
        | .active => c.withQueue c.queue.markSessionStarted
        | .notForeground => c
        | .invalid => c.withQueue c.queue.requireExplicitStart,
       [.target target])
  | .error error =>
    if ∃ sessionId ∈ error.sessionId, c.queue.acceptsSession sessionId = false then (c, [])
    else if error.code = .authFailed then
      ({ c with queue := c.queue.onDisconnected, stopped := true }, [.pairingInvalid current])
    else
      (c.withQueue (if error.code = .targetSubmitted then c.queue.abandonSession
        else c.queue.requireExplicitStart), [.serverError current error])

end SyncClient

/-- What waits for the main thread. `pcId` is the computer of the connection that has
called. -/
inductive Posted
  | callback (pcId : String) (callback : Callback)
  | chosen (winner fallback : Option ComputerBinding)
  deriving DecidableEq, Repr

/-- A probe of `AutoSelectionCoordinator.choose` that has not been answered. -/
structure Probe where
  candidates : List ComputerBinding
  fallback : Option ComputerBinding
  deriving DecidableEq, Repr

/-- `computers` is `bindings.list()`, the selected computer first. -/
structure FlowTypeController where
  sessions : ComputerSessions
  client : SyncClient := {}
  computers : List ComputerBinding := []
  currentBinding : Option ComputerBinding := none
  storageReady : Bool := false
  targetState : Option TargetState := none
  autoSelectComputer : Bool := true
  autoSelecting : Bool := false
  autoSelectionTargetPcId : Option String := none
  pendingAutoStart : Option SnapshotMessage := none
  pendingAutoLatest : Option SnapshotMessage := none
  manualStartPending : Bool := false
  connectivityRunning : Bool := false
  probing : Option Probe := none
  posted : List Posted := []

/-- What comes from outside while an event is handled: the id of the session id
factory, and whether the socket takes what is written. -/
structure Outside where
  newId : String := ""
  linked : Bool := true
  deriving DecidableEq, Repr

namespace FlowTypeController

def session (s : FlowTypeController) : InputSession := s.sessions.current

def withSession (s : FlowTypeController) (session : InputSession) : FlowTypeController :=
  { s with sessions := { s.sessions with current := session } }

/-- `BindingStore.save`: the saved binding is the selected one. -/
def saveBinding (s : FlowTypeController) (binding : ComputerBinding) : FlowTypeController :=
  { s with computers := binding :: s.computers.filter fun b => decide (b.pcId ≠ binding.pcId) }

def removeBinding (s : FlowTypeController) (pcId : String) : FlowTypeController :=
  { s with computers := s.computers.filter fun b => decide (b.pcId ≠ pcId) }

def findBinding (s : FlowTypeController) (pcId : String) : Option ComputerBinding :=
  s.computers.find? fun b => decide (b.pcId = pcId)

def shouldBeginAutoSelection (s : FlowTypeController) : Bool :=
  s.autoSelectComputer && s.session.sessionId.isNone && !s.manualStartPending

/-- `restoredDraftRequiresExplicitStart`. -/
def draftRequiresExplicitStart (s : FlowTypeController) : Bool :=
  s.session.sessionId.isNone && decide (s.session.currentText ≠ "")

def saveDraftNow (s : FlowTypeController) : FlowTypeController :=
  { s with sessions := s.sessions.saveCurrent s.client.remoteStarted }

def clearAutoSelection (s : FlowTypeController) : FlowTypeController :=
  { s with
    probing := none
    autoSelecting := false
    autoSelectionTargetPcId := none
    pendingAutoStart := none
    pendingAutoLatest := none }

def restoreQueue (s : FlowTypeController) (restored : ParkedSession) :
    Option FlowTypeController :=
  match s.session.recoverySnapshot with
  | none => some s
  | some snapshot =>
    (s.client.restore snapshot restored.state.acknowledgedSequence restored.remoteStarted).map
      fun client => { s with client := client }

def restoreSessionFor (s : FlowTypeController) (pcId : String) : Option FlowTypeController :=
  (s.sessions.activate pcId).bind fun r =>
    let s₁ := { s with sessions := r.1 }
    let s₂ := { s₁ with manualStartPending := s₁.draftRequiresExplicitStart }
    match r.2 with
    | none => some s₂
    | some restored => s₂.restoreQueue restored

def connect (s : FlowTypeController) (binding : ComputerBinding) : FlowTypeController :=
  { s with currentBinding := some binding, client := s.client.connect binding }

def switchToComputer (s : FlowTypeController) (binding : ComputerBinding) :
    Option FlowTypeController :=
  let s₁ := s.saveDraftNow
  let s₂ := { s₁ with client := s₁.client.resetForTargetSelection }
  (s₂.restoreSessionFor binding.pcId).map fun s₃ =>
    let s₄ := { s₃.clearAutoSelection with targetState := none }
    { s₄ with manualStartPending := s₄.draftRequiresExplicitStart }.connect binding

def resetFailedSession (s : FlowTypeController) (out : Outside) : FlowTypeController :=
  let text := s.session.currentText
  let s₁ := s.clearAutoSelection
  let s₂ := if s.session.sessionId = none then s₁
    else { s₁ with client := s₁.client.abandonSession out.linked }
  let s₃ := if s.session.sessionId ≠ none ∨ s.session.finishing then
      s₂.withSession (s.session.resetForReplacement text)
    else s₂
  { s₃ with targetState := none, manualStartPending := true }

def failAutoSelection (s : FlowTypeController) (fallback : Option ComputerBinding) :
    Option FlowTypeController :=
  let s₁ := { s with
    autoSelecting := false
    autoSelectionTargetPcId := none
    pendingAutoStart := none
    pendingAutoLatest := none }
  match fallback with
  | none => some s₁
  | some binding => (s₁.restoreSessionFor binding.pcId).map fun s₂ => s₂.connect binding

def connectAutoSelected (s : FlowTypeController) (binding : ComputerBinding) :
    Option (FlowTypeController × Bool) :=
  (s.sessions.activateForAutomaticSelection binding.pcId).bind fun r =>
    let s₁ := { s with sessions := r.1 }
    match r.2 with
    | .conflict => some (s₁, false)
    | .activated (some parked) => (s₁.restoreQueue parked).map fun s₂ => (s₂.connect binding, true)
    | .activated none =>
      some ({ s₁ with sessions := s₁.sessions.saveCurrent false }.connect binding, true)

/-- The completion that `beginAutoSelection` hands to the coordinator. -/
def onChosen (s : FlowTypeController) (winner fallback : Option ComputerBinding) :
    Option FlowTypeController :=
  if s.autoSelecting = false then some s
  else
    match winner with
    | none => s.failAutoSelection fallback
    | some binding =>
      ({ s with autoSelectionTargetPcId := some binding.pcId }.connectAutoSelected binding).bind
        fun r => if r.2 then some r.1 else r.1.failAutoSelection fallback

/-- A single candidate is chosen at once. -/
def beginAutoSelection (s : FlowTypeController) : Option FlowTypeController :=
  if s.autoSelecting ∨ s.shouldBeginAutoSelection = false then some s
  else
    let candidates := s.computers.filter fun b => decide (b.pairingToken = none)
    if candidates = [] then s.failAutoSelection s.currentBinding
    else
      let s₁ := { s with
        autoSelecting := true
        manualStartPending := false
        pendingAutoStart := none
        pendingAutoLatest := none
        autoSelectionTargetPcId := none }.saveDraftNow
      let s₂ := { s₁ with client := s₁.client.resetForTargetSelection, probing := none }
      match candidates with
      | [winner] => s₂.onChosen (some winner) s.currentBinding
      | _ => some { s₂ with probing := some ⟨candidates, s.currentBinding⟩ }

def beginIfAutomatic (s : FlowTypeController) : Option FlowTypeController :=
  if s.autoSelectComputer then s.beginAutoSelection else some s

/-- What `textChanged` and `finish` do with a snapshot. -/
def deliver (s : FlowTypeController) (out : Outside) (snapshot : SnapshotMessage) :
    FlowTypeController :=
  if s.autoSelecting then
    { s with
      pendingAutoStart := if snapshot.type = .start ∧ s.pendingAutoStart = none then some snapshot
        else s.pendingAutoStart
      pendingAutoLatest := some snapshot }
  else
    { s with
      manualStartPending := s.manualStartPending && decide (snapshot.type ≠ .start)
      client := s.client.send out.linked snapshot }

def textChanged (s : FlowTypeController) (text : String) (out : Outside) :
    Option FlowTypeController :=
  let s₁ := if s.session.sessionId ≠ none ∧ s.client.requiresExplicitStart then
    s.resetFailedSession out else s
  let s₂ := if s₁.session.sessionId = none ∧ text ≠ "" then { s₁ with targetState := none } else s₁
  (s₂.session.onTextChanged text (!s₂.manualStartPending) out.newId).map fun r =>
    match r.2 with
    | none => s₂.withSession r.1
    | some snapshot => (s₂.withSession r.1).deliver out snapshot

def clearCurrentInput (s : FlowTypeController) (out : Outside) : Option FlowTypeController :=
  if s.session.finishing ∨ s.session.currentText = "" then some s else s.textChanged "" out

/-- The draft is saved before the snapshot is queued. -/
def finish (s : FlowTypeController) (out : Outside) : Option FlowTypeController :=
  s.session.finish.map fun r =>
    match r.2 with
    | none => s.withSession r.1
    | some snapshot => (s.withSession r.1).saveDraftNow.deliver out snapshot

def abandonSyncAndFinish (s : FlowTypeController) (out : Outside) : Option FlowTypeController :=
  if s.session.sessionId = none ∨ s.session.finishing = false then some s
  else
    let s₁ := s.clearAutoSelection
    { s₁ with
      client := s₁.client.abandonSession out.linked
      sessions := s₁.sessions.prepareNewSession
      targetState := none }.beginIfAutomatic

def startNewSession (s : FlowTypeController) (out : Outside) : Option FlowTypeController :=
  let s₁ := s.clearAutoSelection
  let s₂ := if s.session.sessionId = none then { s₁ with sessions := s₁.sessions.clearCurrent }
    else
      { s₁ with
        client := s₁.client.abandonSession out.linked
        sessions := s₁.sessions.prepareNewSession }
  { s₂ with manualStartPending := false, targetState := none }.beginIfAutomatic

def syncToCurrentCursor (s : FlowTypeController) (out : Outside) : Option FlowTypeController :=
  if s.session.sessionId = none then some s
  else
    let s₁ := { s with client := s.client.abandonSession out.linked, targetState := none }
    (s₁.session.restartAtCurrentCursor out.newId).map fun r =>
      let s₂ := s₁.withSession r.1
      if r.2 = [] then { s₂ with sessions := s₂.sessions.clearCurrent }
      else { s₂ with client := r.2.foldl (fun c m => c.send out.linked m) s₂.client }.saveDraftNow

def syncFullText (s : FlowTypeController) (out : Outside) : FlowTypeController :=
  let s₁ := if s.session.sessionId ≠ none ∧ s.client.requiresExplicitStart then
    s.resetFailedSession out else s
  let r := s₁.session.startLocalDraft true out.newId
  let s₂ := match r.2 with
    | none => { s₁ with client := s₁.client.startOfflineDraft out.linked }
    | some start => { s₁.withSession r.1 with client := s₁.client.send out.linked start }
  { s₂ with targetState := none, manualStartPending := false }

/-- The first branch of `sync`. -/
def syncsFullText (s : FlowTypeController) : Bool :=
  s.session.sessionId.isNone || s.manualStartPending || s.client.requiresExplicitStart

def sync (s : FlowTypeController) (out : Outside) : Option FlowTypeController :=
  if s.session.currentText = "" then some s
  else if s.syncsFullText then some (s.syncFullText out)
  else if s.targetState = some .notForeground then s.syncToCurrentCursor out
  else some s

def replaceWithHistory (s : FlowTypeController) (text : String) : Option FlowTypeController :=
  if s.session.sessionId ≠ none then some s
  else (s.session.replaceLocalDraft text).map fun session => (s.withSession session).saveDraftNow

def acceptBinding (s : FlowTypeController) (binding : ComputerBinding) :
    Option FlowTypeController :=
  (s.saveBinding binding).switchToComputer binding

def setAutoSelectComputer (s : FlowTypeController) (enabled : Bool) :
    Option FlowTypeController :=
  if s.session.sessionId ≠ none then some s
  else
    let s₁ := { s with autoSelectComputer := enabled }
    if enabled then s₁.beginAutoSelection
    else
      some { s₁.clearAutoSelection with
        manualStartPending := decide (s.session.currentText ≠ "") }

def selectComputer (s : FlowTypeController) (pcId : String) : Option FlowTypeController :=
  match s.findBinding pcId with
  | none => some s
  | some binding =>
    let s₁ := s.saveBinding binding
    if s.currentBinding.map (·.pcId) = some pcId then
      some { s₁ with targetState := none, client := s₁.client.forceReconnect }
    else s₁.switchToComputer binding

/-- The name is not modelled; what remains is the lookup of the current binding. -/
def renameComputer (s : FlowTypeController) : FlowTypeController :=
  { s with currentBinding := s.currentBinding.bind fun binding => s.findBinding binding.pcId }

def fallBack (s : FlowTypeController) : Option FlowTypeController :=
  match s.computers with
  | [] => some { s with currentBinding := none }
  | binding :: _ =>
    let s₁ := { s with client := s.client.resetForTargetSelection }
    (s₁.restoreSessionFor binding.pcId).map fun s₂ => s₂.connect binding

def forget (s : FlowTypeController) (pcId : String) : FlowTypeController :=
  { s with sessions := s.sessions.remove pcId }.removeBinding pcId

def unbindComputer (s : FlowTypeController) (pcId : String) (out : Outside) :
    Option FlowTypeController :=
  if s.currentBinding.map (·.pcId) = some pcId then
    let client := if s.session.sessionId = none then s.client
      else s.client.abandonSession out.linked
    ({ s with client := client.shutdown }.forget pcId).fallBack
  else some (s.forget pcId)

def activateCurrentConnectivity (s : FlowTypeController) : Option FlowTypeController :=
  let s₁ : FlowTypeController := match s.currentBinding with
    | none => s
    | some binding => s.connect binding
  if s₁.shouldBeginAutoSelection then s₁.beginAutoSelection else some s₁

def resumeConnectivity (s : FlowTypeController) : Option FlowTypeController :=
  if s.connectivityRunning then some s
  else
    let s₁ := { s with connectivityRunning := true }
    if s.storageReady then s₁.activateCurrentConnectivity else some s₁

def suspendConnectivity (s : FlowTypeController) : FlowTypeController :=
  if s.connectivityRunning = false then s
  else
    { s.clearAutoSelection with
      connectivityRunning := false
      client := s.client.shutdown
      targetState := none }

/-- The completion of the preload; `fileActive` says that a file transfer is to be
resumed. -/
def preloaded (s : FlowTypeController) (fileActive : Bool) : Option FlowTypeController :=
  let s₁ := { s with storageReady := true }
  (match s.currentBinding with
    | none => some s₁
    | some binding => s₁.restoreSessionFor binding.pcId).bind fun s₂ =>
      if fileActive then s₂.resumeConnectivity
      else if s₂.connectivityRunning then s₂.activateCurrentConnectivity
      else some s₂

/-- `required` says that something demands a connection. -/
def switchFromWindows (s : FlowTypeController) (pcId : String) (required : Bool) :
    Option FlowTypeController :=
  match s.findBinding pcId with
  | none => some s
  | some binding =>
    let s₁ := s.saveBinding binding
    if s.currentBinding.map (·.pcId) = some pcId then
      if required then s₁.resumeConnectivity else some s₁
    else s₁.switchToComputer binding

def onReady (s : FlowTypeController) (binding : ComputerBinding) (out : Outside) :
    FlowTypeController :=
  let paired := binding.pairedAtCurrentEndpoint
  let s₁ := { s.saveBinding paired with currentBinding := some paired, targetState := none }
  if s.autoSelecting ∧ s.autoSelectionTargetPcId = some binding.pcId then
    let unsent := s.pendingAutoStart.toList ++
      s.pendingAutoLatest.toList.filter fun latest => decide (some latest ≠ s.pendingAutoStart)
    { s₁ with
      client := unsent.foldl (fun c m => c.send out.linked m) s₁.client
      autoSelecting := false
      autoSelectionTargetPcId := none
      pendingAutoStart := none
      pendingAutoLatest := none
      manualStartPending := false }
  else s₁

def onAck (s : FlowTypeController) (ack : AckMessage) : FlowTypeController :=
  let s₁ := s.withSession (s.session.acknowledge ack)
  if s₁.session.finished then { s₁ with sessions := s₁.sessions.clearCurrent } else s₁

def onTarget (s : FlowTypeController) (target : TargetMessage) (out : Outside) :
    FlowTypeController :=
  let s₁ := { s with targetState := some target.targetState }
  if target.targetState = .invalid then s₁.resetFailedSession out else s₁

def onServerError (s : FlowTypeController) (error : ErrorMessage) (out : Outside) :
    FlowTypeController :=
  if error.code = .targetSubmitted then
    { s.clearAutoSelection with sessions := s.sessions.clearCurrent, targetState := none }
  else s.resetFailedSession out

def onPairingInvalid (s : FlowTypeController) (binding : ComputerBinding) :
    Option FlowTypeController :=
  ({ s with targetState := none }.forget binding.pcId).fallBack

def onCallback (s : FlowTypeController) (out : Outside) :
    Callback → Option FlowTypeController
  | .ready binding => some (s.onReady binding out)
  | .ack ack => some (s.onAck ack)
  | .target target => some (s.onTarget target out)
  | .disconnected => some { s with targetState := none }
  | .serverError _ error => some (s.onServerError error out)
  | .pairingInvalid binding => s.onPairingInvalid binding

def handle (s : FlowTypeController) (out : Outside) : Posted → Option FlowTypeController
  | .callback _ callback => s.onCallback out callback
  | .chosen winner fallback => s.onChosen winner fallback

inductive Event
  | textChanged (text : String) (out : Outside)
  | clearCurrentInput (out : Outside)
  | finish (out : Outside)
  | abandonSyncAndFinish (out : Outside)
  | startNewSession (out : Outside)
  | syncToCurrentCursor (out : Outside)
  | syncFullText (out : Outside)
  | sync (out : Outside)
  | replaceWithHistory (text : String)
  | acceptBinding (binding : ComputerBinding)
  | setAutoSelectComputer (enabled : Bool)
  | selectComputer (pcId : String)
  | renameComputer
  | unbindComputer (pcId : String) (out : Outside)
  | switchFromWindows (pcId : String) (required : Bool)
  | resumeConnectivity
  | suspendConnectivity
  /-- `saveNow`, or the save that `scheduleDraftSave` has delayed. -/
  | saveDraft
  | preloaded (fileActive : Bool)
  /-- The socket receives a message. -/
  | receive (message : SyncClient.ServerMessage) (linked : Bool)
  /-- The connection is lost; a connect timeout is found on the main thread. -/
  | connectionLost (timeout : Bool)
  /-- The socket is opened again. -/
  | reopened
  /-- The probes are done. -/
  | probed (winner : Option ComputerBinding)
  /-- The main thread takes what was posted first. -/
  | run (out : Outside)
  deriving DecidableEq, Repr

def stepReceive (s : FlowTypeController) (message : SyncClient.ServerMessage) (linked : Bool) :
    Option FlowTypeController :=
  match s.client.binding with
  | none => none
  | some current =>
    if s.client.stopped then none
    else
      let r := s.client.onMessage current linked message
      some { s with
        client := r.1
        posted := s.posted ++ r.2.map (Posted.callback current.pcId) }

def stepConnectionLost (s : FlowTypeController) (timeout : Bool) : Option FlowTypeController :=
  match s.client.binding with
  | none => none
  | some current =>
    if s.client.stopped then none
    else
      let s₁ := { s with client := s.client.withQueue s.client.queue.onDisconnected }
      some (if timeout then { s₁ with targetState := none }
        else { s₁ with posted := s.posted ++ [.callback current.pcId .disconnected] })

def stepProbed (s : FlowTypeController) (winner : Option ComputerBinding) :
    Option FlowTypeController :=
  match s.probing with
  | none => none
  | some probe =>
    if ∃ binding ∈ winner, binding ∉ probe.candidates then none
    else some { s with probing := none, posted := s.posted ++ [.chosen winner probe.fallback] }

def stepRun (s : FlowTypeController) (out : Outside) : Option FlowTypeController :=
  match s.posted with
  | [] => none
  | posted :: rest => { s with posted := rest }.handle out posted

/-- `none`: a check of the code throws, or the event cannot happen. -/
def step (s : FlowTypeController) : Event → Option FlowTypeController
  | .textChanged text out => s.textChanged text out
  | .clearCurrentInput out => s.clearCurrentInput out
  | .finish out => s.finish out
  | .abandonSyncAndFinish out => s.abandonSyncAndFinish out
  | .startNewSession out => s.startNewSession out
  | .syncToCurrentCursor out => s.syncToCurrentCursor out
  | .syncFullText out => some (s.syncFullText out)
  | .sync out => s.sync out
  | .replaceWithHistory text => s.replaceWithHistory text
  | .acceptBinding binding => s.acceptBinding binding
  | .setAutoSelectComputer enabled => s.setAutoSelectComputer enabled
  | .selectComputer pcId => s.selectComputer pcId
  | .renameComputer => some s.renameComputer
  | .unbindComputer pcId out => s.unbindComputer pcId out
  | .switchFromWindows pcId required => s.switchFromWindows pcId required
  | .resumeConnectivity => s.resumeConnectivity
  | .suspendConnectivity => some s.suspendConnectivity
  | .saveDraft => some s.saveDraftNow
  | .preloaded fileActive => if s.storageReady then none else s.preloaded fileActive
  | .receive message linked => s.stepReceive message linked
  | .connectionLost timeout => s.stepConnectionLost timeout
  | .reopened => some { s with client := s.client.restartSocket }
  | .probed winner => s.stepProbed winner
  | .run out => s.stepRun out

/-- `start`: what the process finds in its stores. `recoverablePcId` is the computer of
a file transfer that can be resumed. -/
def start (phoneId : String) (store : String → Option ParkedSession)
    (computers : List ComputerBinding) (recoverablePcId : Option String)
    (autoSelectComputer : Bool) : FlowTypeController where
  sessions := { phoneId, store, current := { phoneId } }
  computers := computers
  currentBinding :=
    (recoverablePcId.bind fun pcId => computers.find? fun b => decide (b.pcId = pcId)) <|>
      computers.head?
  autoSelectComputer := autoSelectComputer

end FlowTypeController

end FlowType
