import FlowType.PhoneAuthentication
import FlowType.SocketClient

/-! `ControlClient` of the phone: the socket to a computer that is not the selected one, over which
the computer asks to be selected. The calls and the runnables of the handler are on the main
thread, the sockets have threads of their own, and all of them take the lock. -/
namespace FlowType

inductive ControlTask
  | connectTimeout (socket : Socket)
  | reconnect
  deriving DecidableEq, Repr

structure ControlRunnable where
  id : Nat
  task : ControlTask
  delayMs : Nat
  deriving DecidableEq, Repr

/-- A call of `Listener.onSwitchComputer`, with the socket that it came from. -/
structure ControlSwitch where
  socket : Socket
  pcId : String
  requestId : Option String
  deriving DecidableEq, Repr

inductive ControlFrame
  | auth (message : AuthMessage)
  | switchAck (requestId pcId : String) (accepted : Bool)
  deriving DecidableEq, Repr

/-- What `onMessage` receives, and whether the socket takes what is written in answer. -/
inductive ControlMessage
  | challenge (challenge : Challenge) (sent : Bool)
  | ready
  | switchComputer (protocolVersion : Nat) (pcId requestId : String)
  | other
  deriving DecidableEq, Repr

structure PhoneKeys where
  phoneId : String
  phoneName : String
  publicKey : String → String
  sign : String → String → String

/-- `client` is the binding that the `OkHttpClient` was built for. Besides the client there are the
runnables of the handler, the one that the main thread has taken from it and not yet run, the
sockets that were opened, and what was reported and written. -/
structure ControlClient where
  client : Option BindingStore.Binding := none
  socket : Option Socket := none
  binding : Option BindingStore.Binding := none
  generation : Nat := 0
  reconnectAttempt : Nat := 0
  reconnectRunnable : Option Nat := none
  connectTimeoutRunnable : Option Nat := none
  stopped : Bool := true
  ready : Bool := false
  handler : List ControlRunnable := []
  taken : Option ControlRunnable := none
  posted : Nat := 0
  opened : List Socket := []
  changes : List (String × Bool) := []
  switches : List ControlSwitch := []
  writes : List (Socket × ControlFrame) := []
  deriving DecidableEq, Repr

namespace ControlClient
open Machine

def CONTROL_CONNECT_TIMEOUT_MS : Nat := 4000

def RECONNECT_DELAYS : List Nat := [1000, 5000, 15000, 30000, 60000]

/-- Only a change is reported. -/
def setReadyLocked (c : ControlClient) (value : Bool) : ControlClient :=
  { c with
    ready := value
    changes := if c.ready = value then c.changes
      else (c.binding.toList.map fun binding => (binding.pcId, value)) ++ c.changes }

def removeCallbacks (c : ControlClient) (runnable : Option Nat) : ControlClient :=
  { c with handler := c.handler.filter fun r => some r.id ≠ runnable }

def stopLocked (c : ControlClient) : ControlClient :=
  let c := c.setReadyLocked false
  let c := (c.removeCallbacks c.reconnectRunnable).removeCallbacks c.connectTimeoutRunnable
  { c with
    stopped := true
    generation := c.generation + 1
    reconnectRunnable := none
    connectTimeoutRunnable := none
    socket := none
    client := none }

def openSocketLocked (c : ControlClient) : ControlClient :=
  match c.binding, c.client with
  | some current, some _ =>
    let socket : Socket := ⟨current, c.generation + 1⟩
    { c with
      generation := c.generation + 1
      socket := some socket
      opened := socket :: c.opened
      connectTimeoutRunnable := some c.posted
      handler := ⟨c.posted, .connectTimeout socket, CONTROL_CONNECT_TIMEOUT_MS⟩ :: c.handler
      posted := c.posted + 1 }
  | _, _ => c

def scheduleReconnectLocked (c : ControlClient) : ControlClient :=
  if c.stopped = true ∨ c.binding = none ∨ c.reconnectRunnable ≠ none then c
  else { c with
    reconnectAttempt := c.reconnectAttempt + 1
    reconnectRunnable := some c.posted
    handler := ⟨c.posted, .reconnect,
      RECONNECT_DELAYS.getD (min c.reconnectAttempt (RECONNECT_DELAYS.length - 1)) 0⟩ :: c.handler
    posted := c.posted + 1 }

def connectionLostLocked (c : ControlClient) (lost : Socket) : ControlClient :=
  if lost.generation ≠ c.generation ∨ c.stopped = true then c
  else
    let c := c.setReadyLocked false
    let c := c.removeCallbacks c.connectTimeoutRunnable
    scheduleReconnectLocked { c with
      generation := c.generation + 1
      connectTimeoutRunnable := none
      socket := none
      binding := some lost.current }

def update (c : ControlClient) (next : BindingStore.Binding) : ControlClient :=
  if c.stopped = false ∧ c.binding = some next ∧ c.socket ≠ none then c
  else openSocketLocked { c.stopLocked with
    binding := some next, stopped := false, client := some next, reconnectAttempt := 0 }

def shutdown (c : ControlClient) : ControlClient := { c.stopLocked with binding := none }

def ensureConnected (c : ControlClient) : ControlClient :=
  if c.stopped = true ∨ c.binding = none ∨ c.socket ≠ none then c
  else openSocketLocked { c.removeCallbacks c.reconnectRunnable with reconnectRunnable := none }

def runTask (c : ControlClient) : ControlTask → ControlClient
  | .connectTimeout socket => c.connectionLostLocked socket
  | .reconnect =>
    let c := { c with reconnectRunnable := none }
    if c.stopped = false ∧ c.socket = none then c.openSocketLocked else c

/-- `SocketListener.onMessage`; an exception in it changes nothing. -/
def onMessage (phone : PhoneKeys) (c : ControlClient) (socket : Socket) (message : ControlMessage) :
    ControlClient :=
  if socket.generation ≠ c.generation ∨ c.stopped = true then c
  else match message with
    | .challenge challenge sent =>
      match controlAuthenticate phone.phoneId phone.phoneName (phone.publicKey socket.current.pcId)
          (phone.sign socket.current.pcId) socket.current challenge with
      | some auth => if sent then { c with writes := (socket, .auth auth) :: c.writes } else c
      | none => c
    | .ready =>
      setReadyLocked { c.removeCallbacks c.connectTimeoutRunnable with
        connectTimeoutRunnable := none, reconnectAttempt := 0 } true
    | .switchComputer protocolVersion pcId requestId =>
      if protocolVersion ≠ PROTOCOL_VERSION then c
      else { c with switches :=
        ⟨socket, pcId, if requestId = "" then none else some requestId⟩ :: c.switches }
    | .other => c

/-- The completion that was handed to `onSwitchComputer`. -/
def complete (c : ControlClient) (switch : ControlSwitch) (accepted sent : Bool) : ControlClient :=
  match switch.requestId with
  | none => c
  | some requestId =>
    if switch.socket.generation ≠ c.generation ∨ c.stopped = true then c
    else match c.socket, sent with
      | some socket, true =>
        { c with writes := (socket, .switchAck requestId switch.pcId accepted) :: c.writes }
      | _, _ => c.connectionLostLocked switch.socket

inductive Event
  | update (next : BindingStore.Binding)
  | ensureConnected
  | shutdown
  | take (index : Nat)
  | turn
  | message (index : Nat) (message : ControlMessage)
  | lost (index : Nat)
  | complete (index : Nat) (accepted sent : Bool)
  deriving DecidableEq, Repr

/-- The main thread does one thing at a time; a runnable that it has taken cannot be removed. -/
def step (phone : PhoneKeys) (c : ControlClient) : Event → Option ControlClient
  | .update next => if c.taken = none then some (c.update next) else none
  | .ensureConnected => if c.taken = none then some c.ensureConnected else none
  | .shutdown => if c.taken = none then some c.shutdown else none
  | .take index =>
    if c.taken = none then
      (c.handler[index]?).map fun r =>
        { c with taken := some r, handler := c.handler.eraseIdx index }
    else none
  | .turn => c.taken.map fun r => runTask { c with taken := none } r.task
  | .message index message => (c.opened[index]?).map fun socket => c.onMessage phone socket message
  | .lost index => (c.opened[index]?).map fun socket => c.connectionLostLocked socket
  | .complete index accepted sent =>
    (c.switches[index]?).map fun switch => c.complete switch accepted sent

def pending (c : ControlClient) : List ControlRunnable := c.taken.toList ++ c.handler

/-- The reports are pairs for one computer each: connected, then not connected. -/
inductive Paired : List (String × Bool) → Prop
  | nil : Paired []
  | pair {changes : List (String × Bool)} (pcId : String) :
      Paired changes → Paired ((pcId, false) :: (pcId, true) :: changes)

inductive Reported (binding : Option BindingStore.Binding) : Bool → List (String × Bool) → Prop
  | closed {changes : List (String × Bool)} : Paired changes → Reported binding false changes
  | ready {changes : List (String × Bool)} (current : BindingStore.Binding) :
      binding = some current → Paired changes →
        Reported binding true ((current.pcId, true) :: changes)

/-- It is connected, or gives up the socket that it waits for, or opens another one. -/
inductive Live (c : ControlClient) : Prop
  | connected (socket : Socket) : c.socket = some socket → c.ready = true → Live c
  | connecting (socket : Socket) (r : ControlRunnable) : c.socket = some socket →
      r ∈ c.pending → r.task = .connectTimeout socket → Live c
  | waiting (r : ControlRunnable) : c.socket = none → r ∈ c.pending → r.task = .reconnect → Live c

/-- What is written: the answer to a challenge in control mode, or that to a switch request that
came over this socket. -/
def Written (phone : PhoneKeys) (c : ControlClient) : Socket × ControlFrame → Prop
  | (socket, .auth message) => socket ∈ c.opened ∧ ∃ challenge,
      controlAuthenticate phone.phoneId phone.phoneName (phone.publicKey socket.current.pcId)
        (phone.sign socket.current.pcId) socket.current challenge = some message
  | (socket, .switchAck requestId pcId _) => ⟨socket, pcId, some requestId⟩ ∈ c.switches

structure Sound (phone : PhoneKeys) (c : ControlClient) : Prop where
  live : c.stopped = false → c.Live
  current : ∀ socket, c.socket = some socket → c.stopped = false ∧
    c.binding = some socket.current ∧ c.client = some socket.current ∧
    socket.generation = c.generation
  reported : Reported c.binding c.ready c.changes
  written : ∀ write ∈ c.writes, c.Written phone write

def Event.fromOutside : Event → Bool
  | .take _ | .turn | .message _ _ => true
  | _ => false

end ControlClient

end FlowType
