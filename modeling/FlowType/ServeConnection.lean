import FlowType.Connections
import FlowType.FileTransfers
import FlowType.Pairing

/-! `serve_connection` with everything that a frame of a phone can reach: the injector, the
clipboard, the file transfers and the phone store. The injector and the clipboard answer as
they like. The limits on the number of connections, the status that is displayed and the
switch requests are left out. -/
namespace FlowType

def MAX_IMAGE_BYTES : Nat := 32 * 1024 * 1024

structure ProbeMessage where
  protocolVersion : Nat := PROTOCOL_VERSION
  phoneId : String
  deriving DecidableEq, Repr

def ProbeMessage.validate (m : ProbeMessage) : Except ValidationError Unit :=
  if m.protocolVersion ≠ PROTOCOL_VERSION then .error .unsupportedProtocol
  else if m.phoneId = "" then .error .missingIdentifier
  else .ok ()

structure HealthCheckMessage where
  protocolVersion : Nat := PROTOCOL_VERSION
  phoneId : String
  deriving DecidableEq, Repr

def HealthCheckMessage.validate (m : HealthCheckMessage) : Except ValidationError Unit :=
  if m.protocolVersion ≠ PROTOCOL_VERSION then .error .unsupportedProtocol
  else if m.phoneId = "" then .error .missingIdentifier
  else .ok ()

structure SwitchAckMessage where
  protocolVersion : Nat := PROTOCOL_VERSION
  requestId : String
  pcId : String
  accepted : Bool
  deriving DecidableEq, Repr

def SwitchAckMessage.validate (m : SwitchAckMessage) : Except ValidationError Unit :=
  if m.protocolVersion ≠ PROTOCOL_VERSION then .error .unsupportedProtocol
  else if m.requestId = "" ∨ m.pcId = "" then .error .missingIdentifier
  else .ok ()

structure ImageStart where
  protocolVersion : Nat := PROTOCOL_VERSION
  transferId : String
  phoneId : String
  mimeType : String
  width : Nat
  height : Nat
  byteLength : Nat
  sha256 : String
  original : Bool := false
  deriving DecidableEq, Repr

def isAsciiHexdigit (c : Char) : Bool :=
  c.isDigit || ('a' ≤ c && c ≤ 'f') || ('A' ≤ c && c ≤ 'F')

def ImageStart.validate (image : ImageStart) (authenticatedPhoneId : String) : Except String Unit :=
  let maxBytes := if image.original then MAX_IMAGE_BYTES else 15 * 1024 * 1024
  if image.protocolVersion ≠ PROTOCOL_VERSION ∨ image.phoneId ≠ authenticatedPhoneId ∨
      image.transferId = "" ∨ 64 < image.transferId.utf8ByteSize ∨
      (image.mimeType ≠ "image/jpeg" ∧ image.mimeType ≠ "image/png") ∨
      image.width = 0 ∨ image.height = 0 ∨ 40000000 < image.width * image.height ∨
      image.byteLength = 0 ∨ maxBytes < image.byteLength ∨ image.sha256.utf8ByteSize ≠ 64 ∨
      image.sha256.toList.all isAsciiHexdigit = false then
    .error "invalid image metadata"
  else .ok ()

/-- A binary frame: its length and the hash of its bytes. -/
structure BinaryFrame where
  length : Nat
  sha256 : String
  deriving DecidableEq, Repr

def ImageStart.matchesBytes (image : ImageStart) (bytes : BinaryFrame) : Bool :=
  bytes.length == image.byteLength && bytes.sha256 == image.sha256.toLower

/-- A text frame by its type; a message is there if its fields can be read. `invalid` is
too long or no JSON, and `client` has the type of session input or an unknown one. -/
inductive TextFrame
  | invalid
  | probe (probe : Option ProbeMessage)
  | healthCheck (health : Option HealthCheckMessage)
  | switchAck (ack : Option SwitchAckMessage)
  | file (batchId : String) (message : Option FileClientMessage)
  | imageStart (image : Option ImageStart)
  | client (message : Option ClientMessage)
  deriving DecidableEq, Repr

def TextFrame.isControlMessage : TextFrame → Bool
  | .imageStart _ => false
  | .client _ => false
  | _ => true

/-- Who has sent a message, and how its connection stood when the message was received:
whether another connection had claimed the input since it did, and whether its phone had
been unpaired since it authenticated. -/
structure Sender where
  connectionId : Nat
  isControl : Bool
  superseded : Bool
  revoked : Bool
  deriving DecidableEq, Repr

/-- What a connection is busy with; `asked` says that the injector has the request. -/
inductive Work
  | message (handling : Handling) (transition : SessionTransition) (asked : Bool)
  | probe (asked : Bool)
  | poll (sessionId : String) (asked : Bool)
  | image (image : ImageStart)
  | file (batchId : String) (message : Option FileClientMessage)
  deriving DecidableEq, Repr

structure ServedConnection where
  phoneId : String
  isControl : Bool
  lease : Bool := false
  inputSession : Option (String × Sender) := none
  pendingImage : Option (ImageStart × Sender) := none
  monitoredSession : Option String := none
  work : Option (Work × Sender) := none
  revoked : Bool := false
  deriving DecidableEq, Repr

namespace ServedConnection

def track (c : ServedConnection) (sessionId : String) (sender : Sender) : ServedConnection :=
  { c with inputSession := some (sessionId, sender) }

def complete (c : ServedConnection) (sessionId : String) : ServedConnection :=
  if c.inputSession.any fun session => session.1 == sessionId then { c with inputSession := none }
  else c

def monitor (c : ServedConnection) : ClientMessage → Option String
  | .start snapshot =>
    if snapshot.sessionId = "" then c.monitoredSession else some snapshot.sessionId
  | .update snapshot =>
    if snapshot.sessionId = "" then c.monitoredSession else some snapshot.sessionId
  | .resume resume =>
    if resume.sessionState = .active ∧ resume.sessionId ≠ "" then some resume.sessionId else none
  | .finish _ => none
  | .cancel _ => c.monitoredSession

def handled (c : ServedConnection) (transition : SessionTransition) : ServedConnection :=
  if transition.completesSession then { c with work := none }.complete transition.sessionId
  else { c with work := none }

end ServedConnection

structure CancelTimer where
  phoneId : String
  sessionId : String
  sender : Sender
  deriving DecidableEq, Repr

/-- What a step does outside of the program, or to what other connections rely on. -/
inductive Effect
  /-- A request that a message, or the session that a message named, has led to. -/
  | request (sender : Sender) (request : InjectorRequest)
  | clipboard (header bytes : Sender) (image : ImageStart)
  | claim (sender : Sender) (previous : Option (String × Nat))
  /-- A poll sends a session state; `elsewhere` says that its connection is superseded and
  the connection that has the input tracks the session. -/
  | sessionState (connectionId : Nat) (sessionId : String) (elsewhere : Bool)
  | transfers (sender : Sender)
  /-- `revoked` says that the phone has been unpaired since the connection authenticated. -/
  | ticket (phoneId : String) (revoked : Bool)
  | authorized (phoneId : String) (paired : Bool)
  /-- The phone was not paired before; `drawn` says that it had a token of a pairing. -/
  | added (phoneId : String) (drawn : Bool)
  deriving DecidableEq, Repr

/-- `unpairing` is the phone whose removal has not returned yet, `dataRequests` lists the
batches of the data requests that have shown their ticket, `tokens` the tokens that were
drawn, and `effects` what the last event has caused. -/
structure AppState where
  authenticator : Authenticator
  transfers : FileTransferCoordinator := {}
  active : Option (String × Nat) := none
  connections : Nat → Option ServedConnection := fun _ => none
  timers : Nat → Option CancelTimer := fun _ => none
  nextConnectionId : Nat := 1
  unpairing : Option String := none
  dataRequests : List BatchRecord := []
  tokens : List String := []
  effects : List Effect := []

namespace AppState

inductive Event
  | beginPairing (token : String)
  | cancelPairing
  /-- A phone answers the challenge. -/
  | authenticate (auth : AuthMessage) (nonce : String)
  /-- The phone store is written; a phone that is let in gets its connection. -/
  | write (now : Nat) (saved : Bool)
  | restore
  /-- `unpair_phone`: the phone leaves the store. -/
  | removePhone (phoneId : String) (saved : Bool)
  /-- The rest of `unpair_phone`. -/
  | revokePhone (now : Nat)
  | receive (id : Nat) (frame : TextFrame) (delivered : Bool) (now : Nat)
  | receiveBytes (id : Nat) (bytes : BinaryFrame) (delivered : Bool)
  | tick (id : Nat)
  | submit (id : Nat)
  | answer (id : Nat) (result : DispatchResult) (delivered : Bool)
  /-- The write of the clipboard is over. -/
  | stored (id : Nat) (delivered : Bool)
  | handleFile (id : Nat) (busy : Bool) (token : String) (now : Nat) (delivered : Bool)
  | close (id : Nat)
  | expire (id : Nat)
  /-- `create_outbound_offer`. -/
  | createOutbound (batch : BatchRecord)
  | authorize (batchId bearer : String) (now : Nat)
  /-- The look at the phone store that follows in `route_request`. -/
  | route (batch : BatchRecord) (now : Nat)
  /-- What an authorized data request makes of its batch. -/
  | transfer (batchId : String) (state : BatchState) (now : Nat)

def setConnection (s : AppState) (id : Nat) (c : ServedConnection) : AppState :=
  { s with connections := Function.update s.connections id (some c) }

def setTimer (s : AppState) (id : Nat) (timer : Option CancelTimer) : AppState :=
  { s with timers := Function.update s.timers id timer }

def emit (s : AppState) (effect : Effect) : AppState :=
  { s with effects := s.effects ++ [effect] }

def isActiveConnection (s : AppState) (phoneId : String) (id : Nat) : Prop :=
  s.active = some (phoneId, id)

instance (s : AppState) (phoneId : String) (id : Nat) :
    Decidable (s.isActiveConnection phoneId id) :=
  inferInstanceAs (Decidable (_ = _))

def hasReplacementConnection (s : AppState) (phoneId : String) (id : Nat) : Bool :=
  s.active.any fun active => active.1 == phoneId && active.2 != id

def superseded (s : AppState) (id : Nat) (c : ServedConnection) : Bool :=
  c.lease && !decide (s.isActiveConnection c.phoneId id)

def sender (s : AppState) (id : Nat) (c : ServedConnection) : Sender :=
  { connectionId := id
    isControl := c.isControl
    superseded := s.superseded id c
    revoked := c.revoked }

def activeTracks (s : AppState) (sessionId : String) : Bool :=
  s.active.any fun active => (s.connections active.2).any fun c =>
    c.inputSession.any fun session => session.1 == sessionId

/-- The loop is left: the lease is dropped, and a tracked session gets a timer. -/
def drop (s : AppState) (id : Nat) (c : ServedConnection) : AppState :=
  { s with
    connections := Function.update s.connections id none
    timers := match c.inputSession with
      | none => s.timers
      | some (sessionId, sender) => Function.update s.timers id
          (some { phoneId := c.phoneId, sessionId := sessionId, sender := sender })
    active := if c.lease = true ∧ s.isActiveConnection c.phoneId id then none else s.active }

/-- `claim_active_connection`, unless the connection has its lease. -/
def claim (s : AppState) (id : Nat) (c : ServedConnection) (sender : Sender) : AppState :=
  if c.lease then s
  else { s with active := some (c.phoneId, id) }.emit (.claim sender s.active)

/-- The connection goes on if what it sends arrives. -/
def reply (s : AppState) (id : Nat) (c : ServedConnection) (delivered : Bool) : AppState :=
  if delivered then s.setConnection id c else s.drop id c

def handle (s : AppState) (id : Nat) (c : ServedConnection) (sender : Sender)
    (message : ClientMessage) (delivered : Bool) : AppState :=
  let transition := SessionTransition.fromMessage message
  let c₁ := { c.track transition.sessionId sender with monitoredSession := c.monitor message }
  match handleClientMessage c.phoneId message with
  | .error _ => s.drop id c₁
  | .ok (_, some handling) =>
    s.setConnection id { c₁ with work := some (.message handling transition false, sender) }
  | .ok (_, none) => s.reply id (c₁.handled transition) delivered

/-- The branches behind the checks of the connection. -/
def dispatch (s : AppState) (id : Nat) (c : ServedConnection) (sender : Sender)
    (delivered : Bool) (now : Nat) : TextFrame → AppState
  | .invalid => s.drop id c
  | .file batchId message =>
    if (s.authenticator.pairedPhones.publicKey c.phoneId).isNone then
      { s with transfers := s.transfers.revokePhone c.phoneId now }.drop id c
    else s.setConnection id { c with work := some (.file batchId message, sender) }
  | .imageStart none => s.drop id c
  | .imageStart (some image) => match image.validate c.phoneId with
    | .error _ => s.drop id c
    | .ok _ =>
      if c.pendingImage.isSome then s.reply id c delivered
      else s.setConnection id { c with pendingImage := some (image, sender) }
  | .healthCheck none => s.drop id c
  | .healthCheck (some health) => match health.validate with
    | .error _ => s.drop id c
    | .ok _ => if health.phoneId ≠ c.phoneId then s.drop id c else s.reply id c delivered
  | .switchAck none => s.drop id c
  | .switchAck (some ack) => match ack.validate with
    | .error _ => s.drop id c
    | .ok _ => if ack.pcId ≠ s.authenticator.pcId then s.drop id c else s
  | .probe none => s.drop id c
  | .probe (some probe) => match probe.validate with
    | .error _ => s.drop id c
    | .ok _ =>
      if probe.phoneId ≠ c.phoneId then s.reply id c delivered
      else s.setConnection id { c with work := some (.probe false, sender) }
  | .client none => s.drop id c
  | .client (some message) => s.handle id c sender message delivered

/-- A text frame. Anything but a control message claims the input first, and a connection
that has been superseded is closed. -/
def receive (s : AppState) (id : Nat) (c : ServedConnection) (frame : TextFrame)
    (delivered : Bool) (now : Nat) : AppState :=
  if frame = .invalid then s.drop id c
  else
    let sender := s.sender id c
    if frame.isControlMessage then
      if s.superseded id c then s.drop id c else s.dispatch id c sender delivered now frame
    else
      let s₁ := s.claim id c sender
      let c₁ := { c with lease := true }
      if s₁.superseded id c₁ then s₁.drop id c₁
      else s₁.dispatch id c₁ sender delivered now frame

def receiveBytes (s : AppState) (id : Nat) (c : ServedConnection) (bytes : BinaryFrame)
    (delivered : Bool) : AppState :=
  let sender := s.sender id c
  let s₁ := s.claim id c sender
  let c₁ := { c with lease := true }
  if s₁.superseded id c₁ then s₁.drop id c₁
  else match c.pendingImage with
    | none => s₁.setConnection id c₁
    | some (image, header) =>
      let c₂ := { c₁ with pendingImage := none }
      if image.matchesBytes bytes then
        (s₁.setConnection id { c₂ with work := some (.image image, sender) }).emit
          (.clipboard header sender image)
      else s₁.reply id c₂ delivered

def Work.request? : Work → Option InjectorRequest
  | .message handling _ false => some handling.request
  | .probe false => some .probeTarget
  | .poll sessionId false => some (.querySession sessionId)
  | _ => none

def Work.ask : Work → Work
  | .message handling transition _ => .message handling transition true
  | .probe _ => .probe true
  | .poll sessionId _ => .poll sessionId true
  | work => work

/-- A poll asks on behalf of no message. -/
def submit (s : AppState) (id : Nat) (c : ServedConnection) (work : Work) (sender : Sender) :
    Option AppState :=
  (Work.request? work).map fun request =>
    let s₁ := s.setConnection id { c with work := some (Work.ask work, sender) }
    match work with
    | .poll _ _ => s₁
    | _ => s₁.emit (.request sender request)

def answer (s : AppState) (id : Nat) (c : ServedConnection) (work : Work) (sender : Sender)
    (result : DispatchResult) (delivered : Bool) : Option AppState :=
  match work with
  | .message handling transition true =>
    let c₁ := match (handling.proceed result).2 with
      | some handling => { c with work := some (.message handling transition false, sender) }
      | none => c.handled transition
    if (handling.proceed result).1 ≠ [] ∧ delivered = false then some (s.drop id c)
    else some (s.setConnection id c₁)
  | .probe true => some (s.reply id { c with work := none } delivered)
  | .poll sessionId true =>
    match result with
    | .ok (.sessionActive _ _ _) => some (s.setConnection id { c with work := none })
    | _ =>
      let elsewhere := s.superseded id c && s.activeTracks sessionId
      some ((s.reply id { c with work := none, monitoredSession := none } delivered).emit
        (.sessionState id sessionId elsewhere))
  | _ => none

/-- `handle_control`, for a message that was let through. -/
def handleFile (s : AppState) (id : Nat) (c : ServedConnection) (batchId : String)
    (message : Option FileClientMessage) (sender : Sender) (busy : Bool) (token : String)
    (now : Nat) (delivered : Bool) : AppState :=
  let (transfers, reply) := s.transfers.handleControl batchId message c.phoneId busy token now
  let s₁ := { s with transfers }.emit (.transfers sender)
  let s₂ := if reply.any FileServerMessage.isTicket then s₁.emit (.ticket c.phoneId c.revoked)
    else s₁
  s₂.reply id { c with work := none } (reply.isNone || delivered)

/-- After the grace period: another connection of the phone takes over, or the session is
cancelled. -/
def expire (s : AppState) (id : Nat) (timer : CancelTimer) : AppState :=
  let s₁ := s.setTimer id none
  if s.hasReplacementConnection timer.phoneId id then s₁
  else s₁.emit (.request timer.sender (.cancelInvalidSession timer.sessionId))

def connect (s : AppState) (auth : AuthMessage) : AppState :=
  { s.setConnection s.nextConnectionId
      { phoneId := auth.phoneId, isControl := auth.connectionMode == some "control" } with
    nextConnectionId := s.nextConnectionId + 1 }

def Attempt.Next.auth? : Attempt.Next → Option AuthMessage
  | .upsert auth _ _ => some auth
  | .restore _ => none
  | .markConnected auth => some auth

def Attempt.Next.token? : Attempt.Next → Option String
  | .upsert _ supplied _ => some supplied
  | .restore supplied => some supplied
  | .markConnected _ => none

def write (s : AppState) (next : Attempt.Next) (now : Nat) (saved : Bool) : Option AppState :=
  (s.authenticator.write now saved).map fun r =>
    let s₁ := { s with authenticator := r.1 }
    match r.2, Attempt.Next.auth? next with
    | some (.ok _), some auth =>
      let s₂ := s₁.connect auth
      if (s.authenticator.pairedPhones auth.phoneId).isNone then
        s₂.emit (.added auth.phoneId ((Attempt.Next.token? next).any s.tokens.contains))
      else s₂
    | _, _ => s₁

/-- The rest of `unpair_phone`: what its connections do from now on is revoked. -/
def revokePhone (s : AppState) (phoneId : String) (now : Nat) : AppState :=
  { s with
    transfers := s.transfers.revokePhone phoneId now
    unpairing := none
    connections := fun id => (s.connections id).map fun c =>
      if c.phoneId = phoneId then { c with revoked := true } else c }

def authorize (s : AppState) (batchId bearer : String) (now : Nat) : AppState :=
  let (transfers, batch) := s.transfers.authorize batchId bearer now
  { s with transfers, dataRequests := batch.toList ++ s.dataRequests }

def route (s : AppState) (batch : BatchRecord) (now : Nat) : AppState :=
  let s₁ := { s with dataRequests := s.dataRequests.erase batch }
  let paired := (s.authenticator.pairedPhones.publicKey batch.phoneId).isSome
  if paired then s₁.emit (.authorized batch.phoneId paired)
  else { s₁ with transfers := s.transfers.revokePhone batch.phoneId now }

def idleConnection (s : AppState) (id : Nat) : Option ServedConnection :=
  (s.connections id).filter fun c => c.work.isNone

def stepEvent (verify : Verifier) (s : AppState) : Event → Option AppState
  | .beginPairing token => some { s with
      authenticator := s.authenticator.beginPairing token
      tokens := token :: s.tokens }
  | .cancelPairing => some { s with authenticator := s.authenticator.cancelPairing }
  | .authenticate auth nonce =>
    if s.authenticator.attempt ≠ none then none
    else match s.authenticator.check verify auth nonce with
      | .error _ => some s
      | .ok authenticator => some { s with authenticator }
  | .write now saved => s.authenticator.attempt.bind fun next => s.write next now saved
  | .restore => s.authenticator.restore.map fun authenticator => { s with authenticator }
  | .removePhone phoneId saved =>
    if s.unpairing ≠ none then none
    else some { s with
      authenticator := s.authenticator.removePhone phoneId saved
      unpairing := if saved then some phoneId else none }
  | .revokePhone now => s.unpairing.map fun phoneId => s.revokePhone phoneId now
  | .receive id frame delivered now =>
    (s.idleConnection id).map fun c => s.receive id c frame delivered now
  | .receiveBytes id bytes delivered =>
    (s.idleConnection id).map fun c => s.receiveBytes id c bytes delivered
  | .tick id => (s.idleConnection id).bind fun c =>
    if c.lease then c.monitoredSession.map fun sessionId =>
      s.setConnection id { c with work := some (.poll sessionId false, s.sender id c) }
    else none
  | .submit id => (s.connections id).bind fun c => c.work.bind fun w => s.submit id c w.1 w.2
  | .answer id result delivered => (s.connections id).bind fun c => c.work.bind fun w =>
    s.answer id c w.1 w.2 result delivered
  | .stored id delivered => (s.connections id).bind fun c => match c.work with
    | some (.image _, _) => some (s.reply id { c with work := none } delivered)
    | _ => none
  | .handleFile id busy token now delivered => (s.connections id).bind fun c => match c.work with
    | some (.file batchId message, sender) =>
      some (s.handleFile id c batchId message sender busy token now delivered)
    | _ => none
  | .close id => (s.idleConnection id).map fun c => s.drop id c
  | .expire id => (s.timers id).map fun timer => s.expire id timer
  | .createOutbound batch =>
    if (s.transfers.loadBatch batch.batchId).isSome then none
    else some { s with transfers := s.transfers.createBatch batch }
  | .authorize batchId bearer now => some (s.authorize batchId bearer now)
  | .route batch now => if batch ∈ s.dataRequests then some (s.route batch now) else none
  | .transfer batchId state now =>
    (s.transfers.updateState batchId state now).map fun transfers => { s with transfers }

/-- `effects` is about the last event only. -/
def step (verify : Verifier) (s : AppState) (e : Event) : Option AppState :=
  stepEvent verify { s with effects := [] } e

def start (pcId : String) (pairedPhones : PairedPhones)
    (batches : KeyedTable BatchRecord.batchId) : AppState :=
  { authenticator := { pcId, pairedPhones }, transfers := { batches } }

/-- A phone that has been paired before, for the runs below. -/
def knownPhone : PairedPhones :=
  Function.update (fun _ => none) "phone"
    (some { phoneName := "Phone", publicKeySpki := "key", pairedAt := 1, lastConnected := none })

def knownAuth (connectionMode : Option String) : AuthMessage :=
  { messageType := "authenticate"
    phoneId := "phone"
    phoneName := "Phone"
    connectionMode
    signature := "signature" }

end AppState

end FlowType
