import FlowType.StrandedSessions

/-! The gate before the installation of an update: `update_install_blocked` asks whether
the status that the app shows names a target. The handlers, the polls and the probes of all
connections, their leases and the timers that they leave behind write there. -/
namespace FlowType

inductive TargetChange
  | keep
  | set (targetName : String)
  | clear
  deriving DecidableEq, Repr

structure RuntimeStatus where
  targetName : Option String := none
  deriving DecidableEq, Repr

namespace RuntimeStatus

def change (status : RuntimeStatus) : TargetChange → RuntimeStatus
  | .keep => status
  | .set targetName => { status with targetName := some targetName }
  | .clear => { status with targetName := none }

def markInputFinished (status : RuntimeStatus) : RuntimeStatus := status.change .clear

def hasActiveInput (status : RuntimeStatus) : Bool := status.targetName.isSome

end RuntimeStatus

/-- What `send_injector_state` does to the target. -/
def InjectorResponse.targetChange : InjectorResponse → TargetChange
  | .targetNotForeground targetName => .set targetName
  | .targetInvalid => .clear
  | .targetSubmitted => .clear
  | .targetUnsupported => .clear
  | .tsfUnavailable => .clear
  | _ => .keep

def Handling.targetChange : Handling → InjectorResponse → TargetChange
  | .begin snapshot, response =>
    match response with
    | .sessionBegun targetName => .set targetName
    | .sessionFinished sessionId sequence fullText =>
      if sessionId = snapshot.sessionId ∧ sequence = snapshot.sequence ∧
          fullText = snapshot.fullText then .clear
      else response.targetChange
    | other => other.targetChange
  | .apply _ _, response =>
    match response with
    | .applied _ => .keep
    | other => other.targetChange
  | .resume _, response =>
    match response with
    | .finished _ => .clear
    | .applied _ => .keep
    | other => other.targetChange
  | .finish _ _, response =>
    match response with
    | .finished _ => .clear
    | other => other.targetChange
  | .cancel _, _ => .clear

/-- A failed request clears the target in `injector_request_async`, whoever has made it. -/
def Task.targetChange : Task → DispatchResult → TargetChange
  | _, .error _ => .clear
  | .message handling _, .ok response => handling.targetChange response
  | .poll _, .ok response =>
    match response with
    | .sessionActive _ _ _ => .keep
    | other => other.targetChange
  | .probe, .ok response =>
    match response with
    | .targetReady targetName _ => .set targetName
    | _ => .clear

def Connection.targetChange (c : Connection) : TargetChange :=
  match c.task with
  | some (task, .answered result) => task.targetChange result
  | _ => .keep

/-- The network with the status that it shows. Connections that authenticated as `control`
do not count as online. -/
structure UpdateGate where
  network : Network := {}
  onlineConnections : List Nat := []
  status : RuntimeStatus := {}

namespace UpdateGate

inductive Event
  | network (event : Network.Event)
  /-- A phone has authenticated as `control`. -/
  | acceptControl (phoneId : String)

def updateInstallBlocked (s : UpdateGate) : Bool := s.status.hasActiveInput

def refreshOnlineStatus (s : UpdateGate) : UpdateGate :=
  if s.onlineConnections = [] then { s with status := s.status.change .clear } else s

def markOnlineConnection (s : UpdateGate) (id : Nat) : UpdateGate :=
  refreshOnlineStatus { s with onlineConnections := id :: s.onlineConnections }

def clearOnlineConnection (s : UpdateGate) (id : Nat) : UpdateGate :=
  if id ∈ s.onlineConnections then
    refreshOnlineStatus { s with onlineConnections := s.onlineConnections.erase id }
  else s

/-- `claim_active_connection`. -/
def claim (s : UpdateGate) (id : Nat) (c : Connection) : UpdateGate :=
  if c.lease then s
  else { s with network := s.network.claim id c, status := s.status.change .clear }

/-- The leases of a connection are dropped: the one of the input, if the connection still
has it, and the one that counts it as online. -/
def drop (s : UpdateGate) (id : Nat) (c : Connection) : UpdateGate :=
  let status := if c.lease = true ∧ s.network.isActiveConnection c.phoneId id then
    s.status.change .clear else s.status
  clearOnlineConnection { s with status := status } id

def proceed (s : UpdateGate) (network : Network) (id : Nat) (c : Connection) : UpdateGate :=
  { (if (network.connections id).isNone then s.drop id c else s) with network := network }

def stepInput (s : UpdateGate) (id : Nat) (event : Network.Event) : Option UpdateGate :=
  (s.network.connections id).bind fun c => (s.network.step event).map fun network =>
    (s.claim id c).proceed network id { c with lease := true }

def stepLoop (s : UpdateGate) (id : Nat) (change : Connection → TargetChange)
    (event : Network.Event) : Option UpdateGate :=
  (s.network.connections id).bind fun c => (s.network.step event).map fun network =>
    proceed { s with status := s.status.change (change c) } network id c

def passOn (s : UpdateGate) (result : Option DispatchResult) : RuntimeStatus :=
  match s.network.owner, result with
  | some (.timer _), some _ => s.status.markInputFinished
  | _, _ => s.status

def stepNetwork (s : UpdateGate) (event : Network.Event) : Option UpdateGate :=
  match event with
  | .accept _ => (s.network.step event).map fun network =>
      { s.markOnlineConnection s.network.nextConnectionId with network := network }
  | .frame id => s.stepInput id event
  | .receive id _ _ => s.stepInput id event
  | .probe id => s.stepLoop id (fun _ => .keep) event
  | .proceed id _ => s.stepLoop id (fun c => c.targetChange) event
  | .close id => s.stepLoop id (fun _ => .keep) event
  | .dispatcher _ => (s.network.step event).map fun network =>
      { s with network := network, status := s.passOn network.dispatcher.result }
  | _ => (s.network.step event).map fun network => { s with network := network }

def step (s : UpdateGate) : Event → Option UpdateGate
  | .network event => s.stepNetwork event
  | .acceptControl phoneId => (s.network.step (.accept phoneId)).map fun network =>
      { s with network := network }

end UpdateGate

namespace Injector

end Injector

namespace Windows

/-- The answer of a text service that has begun the offered session arrives. -/
def Begins (s : Windows) : Event → Prop
  | .deliver tip => ∃ key command token call rest rejected generation p queue,
    s.waiting = some (.call key command token (.begin call rest rejected)) ∧
      s.client tip = some ⟨generation, p :: queue⟩ ∧ p.token = token ∧
        p.answer = some (.begun call.sessionId)
  | _ => False

theorem Begins.held {s t : Windows} {e : Event} (h : s.Begins e) (hstep : s.step e = some t) :
    t.injector.session ≠ none := by
  cases e with
  | deliver tip =>
    obtain ⟨key, command, token, call, rest, rejected, generation, p, queue, hwaiting, hclient,
      rfl, hanswer⟩ := h
    obtain ⟨generation', p', rest', answer, hclient', hanswer', hcase⟩ := stepDeliver_some hstep
    have hsame := hclient.symm.trans hclient'
    simp only [Option.some.injEq, Client.mk.injEq, List.cons.injEq] at hsame
    obtain ⟨rfl, rfl, rfl⟩ := hsame
    obtain rfl : TipResponse.begun call.sessionId = answer :=
      Option.some.inj (hanswer.symm.trans hanswer')
    rcases hcase with ⟨key', command', wait, hwait, rfl⟩ | ⟨hnone, -⟩
    · cases hwaiting.symm.trans hwait
      rw [perform_injector]
      simp [Injector.resume, Injector.resumeBegin]
    · exact absurd hwaiting (hnone _ _ _)
  | _ => cases h

end Windows

namespace Dispatcher

theorem windows_of_step {s t : Dispatcher} {event : Windows.Event}
    (hstep : s.step (.windows event) = some t) :
    s.windows.step event = some t.windows ∧ t.result = none := by
  cases step_does hstep with
  | windows event windows hrequest hpipeLost hrestart hwindows => exact ⟨hwindows, rfl⟩

end Dispatcher

namespace Network

/-- The injector holds an active session. -/
def Held (s : Network) : Prop := s.dispatcher.windows.injector.session ≠ none

instance (s : Network) : Decidable s.Held := inferInstanceAs (Decidable (_ ≠ none))

def Begins (s : Network) : Event → Prop
  | .dispatcher (.windows event) => s.dispatcher.windows.Begins event
  | _ => False

@[simp] theorem setConnection_dispatcher (s : Network) (k : Nat) (c : Connection) :
    (s.setConnection k c).dispatcher = s.dispatcher := rfl

@[simp] theorem drop_dispatcher (s : Network) (k : Nat) (c : Connection) :
    (s.drop k c).dispatcher = s.dispatcher := rfl

theorem passOn_dispatcher (s : Network) (result : DispatchResult) :
    (s.passOn result).dispatcher = s.dispatcher := by
  rcases s.passOn_cases result with ⟨k, timers, -, h, -⟩ | ⟨k, c, task, progress, -, -, -, h⟩ |
    ⟨-, -, h⟩
  · rw [h]
  · rw [h, setConnection_dispatcher]
  · rw [h]

theorem handle_dispatcher (s : Network) (k : Nat) (c : Connection) (message : ClientMessage)
    (delivered : Bool) : (s.handle k c message delivered).dispatcher = s.dispatcher := by
  obtain ⟨c', -, -, -, ⟨h, -⟩ | ⟨handling, sent, -, h⟩ | ⟨sent, -, -, h⟩⟩ :=
    s.handle_cases k c message delivered
  · rw [h, drop_dispatcher]
  · rw [h, setConnection_dispatcher]
  · rw [h, setConnection_dispatcher]

theorem proceed_dispatcher (s : Network) (k : Nat) (c : Connection) (task : Task)
    (result : DispatchResult) (delivered : Bool) :
    (s.proceed k c task result delivered).dispatcher = s.dispatcher := by
  rcases s.proceed_cases k c task result delivered with ⟨c', -, h⟩ | ⟨c', -, -, h⟩ |
    ⟨handling, handling', transition, -, -, h⟩ | ⟨handling, transition, -, -, -, h⟩
  · rw [h, drop_dispatcher]
  · rw [h, setConnection_dispatcher]
  · rw [h, setConnection_dispatcher]
  · rw [h, setConnection_dispatcher]

/-- Only the dispatcher changes what is behind the pipe. -/
theorem step_windows {s t : Network} {e : Event} (hstep : s.step e = some t)
    (he : ∀ event, e ≠ .dispatcher event) : t.dispatcher.windows = s.dispatcher.windows := by
  cases e with
  | accept phoneId =>
    cases hstep
    rfl
  | frame k =>
    obtain ⟨c, active, -, -, rfl | rfl⟩ := stepFrame_some hstep
    · rfl
    · rfl
  | receive k message delivered =>
    obtain ⟨c, active, -, -, ⟨-, rfl⟩ | rfl⟩ := stepReceive_some hstep
    · rw [handle_dispatcher]
    · rfl
  | probe k =>
    obtain ⟨c, -, -, rfl | rfl⟩ := stepProbe_some hstep
    · rfl
    · rfl
  | tick k =>
    obtain ⟨c, sessionId, -, -, rfl⟩ := stepTick_some hstep
    rfl
  | submit k =>
    obtain ⟨c, task, dispatcher, -, -, hsubmit, rfl⟩ := stepSubmit_some hstep
    exact (Server.submit_request hsubmit).2
  | proceed k delivered =>
    obtain ⟨c, task, result, -, -, rfl⟩ := stepProceed_some hstep
    rw [proceed_dispatcher]
  | close k =>
    obtain ⟨c, -, -, rfl⟩ := stepClose_some hstep
    rfl
  | expire k =>
    obtain ⟨timer, -, -, ⟨-, rfl⟩ | rfl⟩ := stepExpire_some hstep
    · rfl
    · rfl
  | submitTimer k =>
    obtain ⟨timer, dispatcher, -, -, hsubmit, rfl⟩ := stepSubmitTimer_some hstep
    exact (Server.submit_request hsubmit).2
  | dispatcher event => exact absurd rfl (he event)

theorem stepDispatcher_dispatcher {s t : Network} {event : Dispatcher.Event}
    (hstep : s.stepDispatcher event = some t) : s.dispatcher.step event = some t.dispatcher := by
  obtain ⟨-, dispatcher, hdispatcher, ⟨-, rfl⟩ | ⟨result, -, rfl⟩⟩ := stepDispatcher_some hstep
  · exact hdispatcher
  · have hsame := passOn_dispatcher { s with dispatcher := dispatcher } result
    rw [hdispatcher]
    exact congrArg some hsame.symm

theorem Begins.held {s t : Network} {e : Event} (h : s.Begins e) (hstep : s.step e = some t) :
    t.Held := by
  unfold Begins at h
  split at h
  · next event =>
    have hdispatcher : s.dispatcher.step (.windows event) = some t.dispatcher :=
      stepDispatcher_dispatcher hstep
    exact Windows.Begins.held h (Dispatcher.windows_of_step hdispatcher).1
  · cases h

end Network

namespace UpdateGate
open Machine

/-- The connection has the input, or no other one is online. -/
def Carries (s : UpdateGate) (id : Nat) (c : Connection) : Prop :=
  (c.lease = true ∧ s.network.isActiveConnection c.phoneId id) ∨ s.onlineConnections = [id]

def Ends (s : UpdateGate) (event : Network.Event) (id : Nat) : Prop :=
  ∃ network, s.network.step event = some network ∧ network.connections id = none

/-- The event clears the target: input claims the single input connection, an answer that
clears the target reaches its connection, a connection ends that has the input or is the
last one online, or a timer gets its answer. -/
def Clears (s : UpdateGate) : Event → Prop
  | .network event => match event with
    | .frame id => ∃ c, s.network.connections id = some c ∧
      (c.lease = false ∨ (s.Ends event id ∧ s.Carries id c))
    | .receive id _ _ => ∃ c, s.network.connections id = some c ∧
      (c.lease = false ∨ (s.Ends event id ∧ s.Carries id c))
    | .probe id => ∃ c, s.network.connections id = some c ∧ s.Ends event id ∧ s.Carries id c
    | .proceed id _ => ∃ c, s.network.connections id = some c ∧
      (c.targetChange = .clear ∨ (s.Ends event id ∧ s.Carries id c))
    | .close id => ∃ c, s.network.connections id = some c ∧ s.Ends event id ∧ s.Carries id c
    | .dispatcher event => (∃ id, s.network.owner = some (.timer id)) ∧
      ∃ dispatcher, s.network.dispatcher.step event = some dispatcher ∧ dispatcher.result ≠ none
    | _ => False
  | .acceptControl _ => False

instance (s : UpdateGate) (id : Nat) (c : Connection) : Decidable (s.Carries id c) :=
  inferInstanceAs (Decidable (_ ∨ _))

theorem clearOnlineConnection_status (s : UpdateGate) (id : Nat) :
    (s.clearOnlineConnection id).status =
      if s.onlineConnections = [id] then s.status.change .clear else s.status := by
  unfold clearOnlineConnection refreshOnlineStatus
  by_cases honline : s.onlineConnections = [id]
  · simp [honline]
  · rw [if_neg honline]
    split_ifs with hmem hempty
    · rcases List.erase_eq_nil_iff.mp hempty with hnil | hlast
      · rw [hnil] at hmem
        cases hmem
      · exact absurd hlast honline
    · rfl
    · rfl

theorem drop_status (s : UpdateGate) (id : Nat) (c : Connection) :
    (s.drop id c).status =
      if s.Carries id c then s.status.change .clear else s.status := by
  unfold drop Carries
  rw [clearOnlineConnection_status]
  by_cases hlease : c.lease = true ∧ s.network.isActiveConnection c.phoneId id
  · simp only [hlease, true_or, and_self, if_true]
    split_ifs
    · rfl
    · rfl
  · simp only [hlease, false_or, if_false]

theorem proceed_status (s : UpdateGate) (network : Network) (id : Nat) (c : Connection) :
    (s.proceed network id c).status =
      if network.connections id = none ∧ s.Carries id c then s.status.change .clear
      else s.status := by
  unfold proceed
  by_cases hends : network.connections id = none
  · simp only [hends, Option.isNone_none, if_true, true_and]
    exact s.drop_status id c
  · simp [hends]

theorem stepInput_some {s t : UpdateGate} {id : Nat} {event : Network.Event}
    (h : s.stepInput id event = some t) : ∃ c network, s.network.connections id = some c ∧
      s.network.step event = some network ∧
        t = (s.claim id c).proceed network id { c with lease := true } := by
  obtain ⟨c, hc, h⟩ := Option.bind_eq_some_iff.mp h
  obtain ⟨network, hnetwork, rfl⟩ := Option.map_eq_some_iff.mp h
  exact ⟨c, network, hc, hnetwork, rfl⟩

theorem stepLoop_some {s t : UpdateGate} {id : Nat} {change : Connection → TargetChange}
    {event : Network.Event} (h : s.stepLoop id change event = some t) :
    ∃ c network, s.network.connections id = some c ∧ s.network.step event = some network ∧
      t = proceed { s with status := s.status.change (change c) } network id c := by
  obtain ⟨c, hc, h⟩ := Option.bind_eq_some_iff.mp h
  obtain ⟨network, hnetwork, rfl⟩ := Option.map_eq_some_iff.mp h
  exact ⟨c, network, hc, hnetwork, rfl⟩

theorem ends_iff {s : UpdateGate} {event : Network.Event} {id : Nat} {network : Network}
    (h : s.network.step event = some network) :
    s.Ends event id ↔ network.connections id = none := by
  constructor
  · rintro ⟨other, hother, hends⟩
    obtain rfl : network = other := Option.some.inj (h.symm.trans hother)
    exact hends
  · intro hends
    exact ⟨network, h, hends⟩

/-- A cleared target stays cleared when the connection ends. -/
theorem proceed_cleared {s : UpdateGate} (network : Network) (id : Nat) (c : Connection)
    (h : s.updateInstallBlocked = false) :
    (s.proceed network id c).updateInstallBlocked = false := by
  unfold updateInstallBlocked
  rw [proceed_status]
  split_ifs
  · rfl
  · exact h

theorem stepLoop_status {s t : UpdateGate} {id : Nat} {change : Connection → TargetChange}
    {event : Network.Event} (h : s.stepLoop id change event = some t) :
    ∃ c, s.network.connections id = some c ∧
      (change c = .clear ∨ (s.Ends event id ∧ s.Carries id c) →
        t.updateInstallBlocked = false) ∧
      (¬ (s.Ends event id ∧ s.Carries id c) → t.status = s.status.change (change c)) := by
  obtain ⟨c, network, hc, hnetwork, rfl⟩ := stepLoop_some h
  refine ⟨c, hc, ?_, ?_⟩
  · rintro (hclear | ⟨hends, hcarries⟩)
    · apply proceed_cleared
      rw [hclear]
      rfl
    · have hgone := (ends_iff hnetwork).mp hends
      unfold updateInstallBlocked
      rw [proceed_status, if_pos ⟨hgone, hcarries⟩]
      rfl
  · intro hstays
    rw [proceed_status, if_neg]
    rintro ⟨hgone, hcarries⟩
    exact hstays ⟨(ends_iff hnetwork).mpr hgone, hcarries⟩

theorem stepInput_status {s t : UpdateGate} {id : Nat} {event : Network.Event}
    (h : s.stepInput id event = some t) : ∃ c, s.network.connections id = some c ∧
      (c.lease = false ∨ (s.Ends event id ∧ s.Carries id c) →
        t.updateInstallBlocked = false) ∧
      (¬ (c.lease = false ∨ (s.Ends event id ∧ s.Carries id c)) → t.status = s.status) := by
  obtain ⟨c, network, hc, hnetwork, rfl⟩ := stepInput_some h
  refine ⟨c, hc, ?_⟩
  cases hlease : c.lease with
  | false =>
    refine ⟨fun _ => proceed_cleared network id _ ?_, fun hnot => absurd (Or.inl rfl) hnot⟩
    unfold claim
    rw [hlease]
    rfl
  | true =>
    -- the connection had the lease: nothing is claimed, and it is the one that ends
    have hclaim : s.claim id c = s := by
      unfold claim
      rw [hlease]
      rfl
    have hsame : { c with lease := true } = c := by
      rw [← hlease]
    rw [hclaim, hsame]
    constructor
    · rintro (hfalse | ⟨hends, hcarries⟩)
      · cases hfalse
      · have hgone := (ends_iff hnetwork).mp hends
        unfold updateInstallBlocked
        rw [proceed_status, if_pos ⟨hgone, hcarries⟩]
        rfl
    · intro hnot
      rw [proceed_status, if_neg]
      rintro ⟨hgone, hcarries⟩
      exact hnot (Or.inr ⟨(ends_iff hnetwork).mpr hgone, hcarries⟩)

theorem Clears.cleared {s t : UpdateGate} {e : Event} (h : s.Clears e)
    (hstep : s.step e = some t) : t.updateInstallBlocked = false := by
  cases e with
  | acceptControl phoneId => cases h
  | network event =>
    cases event with
    | frame id =>
      obtain ⟨c, hc, hclears, -⟩ := stepInput_status hstep
      obtain ⟨c', hc', h⟩ := h
      cases hc.symm.trans hc'
      exact hclears h
    | receive id message delivered =>
      obtain ⟨c, hc, hclears, -⟩ := stepInput_status hstep
      obtain ⟨c', hc', h⟩ := h
      cases hc.symm.trans hc'
      exact hclears h
    | probe id =>
      obtain ⟨c, hc, hclears, -⟩ := stepLoop_status hstep
      obtain ⟨c', hc', h⟩ := h
      cases hc.symm.trans hc'
      exact hclears (Or.inr h)
    | proceed id delivered =>
      obtain ⟨c, hc, hclears, -⟩ := stepLoop_status hstep
      obtain ⟨c', hc', h⟩ := h
      cases hc.symm.trans hc'
      exact hclears h
    | close id =>
      obtain ⟨c, hc, hclears, -⟩ := stepLoop_status hstep
      obtain ⟨c', hc', h⟩ := h
      cases hc.symm.trans hc'
      exact hclears (Or.inr h)
    | dispatcher event =>
      obtain ⟨⟨id, howner⟩, dispatcher, hdispatcher, hresult⟩ := h
      obtain ⟨network, hnetwork, rfl⟩ := Option.map_eq_some_iff.mp hstep
      have hsame := Network.stepDispatcher_dispatcher hnetwork
      obtain rfl : dispatcher = network.dispatcher :=
        Option.some.inj (hdispatcher.symm.trans hsame)
      obtain ⟨result, hsome⟩ := Option.ne_none_iff_exists'.mp hresult
      simp only [updateInstallBlocked, passOn, howner, hsome]
      rfl
    | _ => cases h

end UpdateGate

end FlowType
