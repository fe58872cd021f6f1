import FlowType.Dispatcher
import FlowType.WireAcceptance

/-! How the desktop app handles a message of a phone: `handle_client_message` and
`handle_resume`, cut at their requests to the injector, and the server that runs
one message after the other while other tasks use the same dispatcher. -/
namespace FlowType

inductive ServerMessage
  | ack (ack : AckMessage)
  | target (sessionId : String) (targetState : TargetState) (targetName : Option String)
  | error (code : ErrorCode) (sessionId : Option String)
  deriving DecidableEq, Repr

/-- `send_injector_state`. -/
def injectorState (sessionId : String) : InjectorResponse → ServerMessage
  | .targetNotForeground targetName => .target sessionId .notForeground (some targetName)
  | .targetInvalid => .target sessionId .invalid none
  | .targetModified => .error .targetModified (some sessionId)
  | .targetSubmitted => .error .targetSubmitted (some sessionId)
  | .targetUnsupported => .error .targetUnavailable (some sessionId)
  | .tsfUnavailable => .error .injectorUnavailable (some sessionId)
  | .injectionUnknown => .error .injectionUnknown (some sessionId)
  | .invalidRequest => .error .sequenceConflict (some sessionId)
  | _ => .target sessionId .invalid none

/-- `send_injector_failure`. -/
def injectorFailure (sessionId : String) : InjectorRequestFailure → ServerMessage
  | .unavailable => .error .injectorUnavailable (some sessionId)
  | .recoveryRequired => .error .recoveryRequired (some sessionId)

def ackMessage (sessionId : String) (sequence : Int) (finished : Bool) : ServerMessage :=
  .ack ⟨sessionId, sequence, if finished then .finished else .active⟩

inductive Handling
  | begin (snapshot : SnapshotMessage)
  | apply (snapshot : SnapshotMessage) (finishing : Bool)
  | resume (resume : ResumeMessage)
  | finish (sessionId : String) (sequence : Int)
  | cancel (cancel : CancelMessage)
  deriving DecidableEq, Repr

namespace Handling

def request : Handling → InjectorRequest
  | .begin snapshot => .beginSession snapshot.sessionId snapshot.replacesSessionId snapshot.sequence
      snapshot.fullText snapshot.attachExisting
  | .apply snapshot _ => .applyState snapshot.sessionId snapshot.sequence snapshot.fullText
  | .resume m => .applyState m.sessionId m.sequence m.fullText
  | .finish sessionId sequence => .finishSession sessionId sequence
  | .cancel m => .cancelInvalidSession m.sessionId

def proceed : Handling → DispatchResult → List ServerMessage × Option Handling
  | .begin snapshot, .error failure => ([injectorFailure snapshot.sessionId failure], none)
  | .begin snapshot, .ok response =>
    match response with
    | .sessionBegun targetName =>
      ([.target snapshot.sessionId .active (some targetName)], some (.apply snapshot false))
    | .sessionFinished sessionId sequence fullText =>
      if sessionId = snapshot.sessionId ∧ sequence = snapshot.sequence ∧
          fullText = snapshot.fullText then
        ([ackMessage snapshot.sessionId sequence true], none)
      else ([injectorState snapshot.sessionId response], none)
    | other => ([injectorState snapshot.sessionId other], none)
  | .apply snapshot _, .error failure => ([injectorFailure snapshot.sessionId failure], none)
  | .apply snapshot finishing, .ok response =>
    match response with
    | .applied sequence =>
      if finishing then ([], some (.finish snapshot.sessionId sequence))
      else ([ackMessage snapshot.sessionId sequence false], none)
    | other => ([injectorState snapshot.sessionId other], none)
  | .resume m, .error failure => ([injectorFailure m.sessionId failure], none)
  | .resume m, .ok response =>
    match response with
    | .finished sequence => ([ackMessage m.sessionId sequence true], none)
    | .applied sequence =>
      if m.sessionState = .finishing then ([], some (.finish m.sessionId sequence))
      else ([ackMessage m.sessionId sequence false], none)
    | other => ([injectorState m.sessionId other], none)
  | .finish sessionId _, .error failure => ([injectorFailure sessionId failure], none)
  | .finish sessionId _, .ok response =>
    match response with
    | .finished sequence => ([ackMessage sessionId sequence true], none)
    | other => ([injectorState sessionId other], none)
  | .cancel _, _ => ([], none)

end Handling

/-- The start of `handle_client_message`: an error closes the connection. -/
def handleClientMessage (authenticatedPhoneId : String) (message : ClientMessage) :
    Except String (List ServerMessage × Option Handling) :=
  (checkClientMessage authenticatedPhoneId message).map fun
    | some code => ([.error code (match message with
        | .start snapshot => some snapshot.sessionId
        | .update snapshot => some snapshot.sessionId
        | .finish snapshot => some snapshot.sessionId
        | _ => none)], none)
    | none => ([], some (match message with
        | .start snapshot => .begin snapshot
        | .update snapshot => .apply snapshot false
        | .finish snapshot => .apply snapshot true
        | .resume resume => .resume resume
        | .cancel cancel => .cancel cancel))

inductive Progress
  /-- The request waits for the slot of the dispatcher. -/
  | ready
  | waiting
  | answered (result : DispatchResult)
  deriving DecidableEq, Repr

/-- One connection of a phone. `task` is the message under way; `owner` says that
the dispatcher works for it, and not for another task. -/
structure Server where
  dispatcher : Dispatcher := {}
  task : Option (Handling × Progress) := none
  owner : Bool := false
  sent : List ServerMessage := []

namespace Server

inductive Event
  | receive (authenticatedPhoneId : String) (message : ClientMessage)
  | submit
  /-- A probe, a status query or the cancellation of an ended connection. -/
  | other (request : InjectorRequest)
  | dispatcher (event : Dispatcher.Event)
  | proceed

def isOther : InjectorRequest → Bool
  | .querySession _ => true
  | .probeTarget => true
  | .cancelInvalidSession _ => true
  | _ => false

def stepReceive (s : Server) (authenticatedPhoneId : String) (message : ClientMessage) :
    Option Server :=
  match s.task, handleClientMessage authenticatedPhoneId message with
  | none, .ok (sent, handling) =>
    some { s with task := handling.map (·, .ready), sent := sent }
  | _, _ => none

def stepSubmit (s : Server) : Option Server :=
  match s.task with
  | some (handling, .ready) =>
    (s.dispatcher.step (.submit handling.request)).map fun dispatcher =>
      { s with dispatcher := dispatcher, task := some (handling, .waiting), owner := true }
  | _ => none

def stepOther (s : Server) (request : InjectorRequest) : Option Server :=
  if isOther request then
    (s.dispatcher.step (.submit request)).map fun dispatcher =>
      { s with dispatcher := dispatcher, owner := false }
  else none

def passOn (owner : Bool) (task : Option (Handling × Progress)) :
    Option DispatchResult → Option (Handling × Progress)
  | none => task
  | some result => if owner then task.map fun (handling, _) => (handling, .answered result)
    else task

def stepDispatcher (s : Server) (event : Dispatcher.Event) : Option Server :=
  match event with
  | .submit _ => none
  | _ => (s.dispatcher.step event).map fun dispatcher =>
      { s with
        dispatcher := dispatcher
        task := passOn s.owner s.task dispatcher.result }

def stepProceed (s : Server) : Option Server :=
  match s.task with
  | some (handling, .answered result) =>
    some { s with
      task := (handling.proceed result).2.map (·, .ready)
      sent := (handling.proceed result).1 }
  | _ => none

def step (s₀ : Server) (e : Event) : Option Server :=
  let s := { s₀ with sent := [] }
  match e with
  | .receive authenticatedPhoneId message => s.stepReceive authenticatedPhoneId message
  | .submit => s.stepSubmit
  | .other request => s.stepOther request
  | .dispatcher event => s.stepDispatcher event
  | .proceed => s.stepProceed

structure SlotInv (s : Server) : Prop where
  owned : s.owner = true → ∀ request, s.dispatcher.phase.request? = some request →
    ∃ handling, s.task = some (handling, .waiting) ∧ handling.request = request
  other : s.owner = false → ∀ request, s.dispatcher.phase.request? = some request →
    isOther request = true

theorem wire_isOther {request : InjectorRequest} (attempt : Attempt) (h : isOther request = true) :
    isOther (attempt.wire request) = true := by
  cases attempt with
  | first previous => exact h
  | again => exact h
  | query => cases request <;> simp_all [isOther, Attempt.wire]

theorem submit_request {d d' : Dispatcher} {request : InjectorRequest}
    (h : d.step (.submit request) = some d') :
    d'.phase.request? = some request ∧ d'.windows = d.windows := by
  simp only [Dispatcher.step, Dispatcher.stepSubmit] at h
  split at h
  · obtain rfl : _ = d' := by simpa using h
    refine ⟨?_, rfl⟩
    cases d.client <;> rfl
  · simp at h

theorem step_slotInv {s t : Server} {e : Event} (h : s.SlotInv) (hs : s.step e = some t) :
    t.SlotInv := by
  cases e with
  | receive phoneId message =>
    simp only [step, stepReceive] at hs
    split at hs
    · rename_i sent handling htask hmsg
      obtain rfl : _ = t := by simpa using hs
      refine ⟨?_, h.other⟩
      intro howner request hreq
      obtain ⟨x, hx, -⟩ := h.owned howner request hreq
      simp [show s.task = none from htask] at hx
    · simp at hs
  | submit =>
    simp only [step, stepSubmit] at hs
    split at hs
    · rename_i handling htask
      obtain ⟨d, hd, rfl⟩ := Option.map_eq_some_iff.mp hs
      refine ⟨?_, by simp⟩
      intro _ request hr
      exact ⟨handling, rfl, by simpa [(submit_request hd).1] using hr⟩
    · simp at hs
  | other request =>
    simp only [step, stepOther] at hs
    split at hs
    · rename_i hother
      obtain ⟨d, hd, rfl⟩ := Option.map_eq_some_iff.mp hs
      refine ⟨by simp, ?_⟩
      intro _ r hr
      obtain rfl : request = r := by simpa [(submit_request hd).1] using hr
      exact hother
    · simp at hs
  | dispatcher event =>
    simp only [step, stepDispatcher] at hs
    split at hs
    · simp at hs
    · rename_i hne
      obtain ⟨d, hd, rfl⟩ := Option.map_eq_some_iff.mp hs
      -- the dispatcher goes on with the request it had, or it is done
      have hreq : ∀ request, d.phase.request? = some request →
          s.dispatcher.phase.request? = some request := by
        intro request hr
        rcases Dispatcher.step_request hd with hidle | ⟨heq, -⟩ | ⟨r, he, -⟩
        · simp [hidle, Phase.request?] at hr
        · rw [← heq]
          exact hr
        · exact absurd he (hne r)
      refine ⟨?_, fun ho r hr => h.other ho r (hreq r hr)⟩
      intro ho r hr
      rcases Dispatcher.step_result hd with hnone | ⟨hidle, -⟩
      · rw [hnone]
        exact h.owned ho r (hreq r hr)
      · simp [hidle, Phase.request?] at hr
  | proceed =>
    simp only [step, stepProceed] at hs
    split at hs
    · rename_i handling result htask
      obtain rfl : _ = t := by simpa using hs
      refine ⟨?_, h.other⟩
      intro howner request hreq
      obtain ⟨x, hx, -⟩ := h.owned howner request hreq
      simp [show s.task = some (handling, .answered result) from htask] at hx
    · simp at hs

theorem slotInv_initial : SlotInv {} := by
  refine ⟨by simp, ?_⟩
  simp [Phase.request?]

end Server

end FlowType
