import FlowType.Handler

/-! The connections of the desktop app: `serve_connection` with the input session
that each connection tracks, the lease of the one active connection, and the timers
that closed connections leave behind. All of them share one dispatcher. -/
namespace FlowType

inductive SessionTransition
  | active (sessionId : String)
  | complete (sessionId : String)
  deriving DecidableEq, Repr

namespace SessionTransition

def fromMessage : ClientMessage → SessionTransition
  | .start snapshot => .active snapshot.sessionId
  | .update snapshot => .active snapshot.sessionId
  | .finish snapshot => .complete snapshot.sessionId
  | .resume resume =>
    if resume.sessionState = .finishing then .complete resume.sessionId
    else .active resume.sessionId
  | .cancel cancel => .complete cancel.sessionId

def sessionId : SessionTransition → String
  | .active sessionId => sessionId
  | .complete sessionId => sessionId

def completesSession : SessionTransition → Bool
  | .active _ => false
  | .complete _ => true

end SessionTransition

inductive Task
  | message (handling : Handling) (transition : SessionTransition)
  | poll (sessionId : String)
  | probe
  deriving DecidableEq, Repr

def Task.request : Task → InjectorRequest
  | .message handling _ => handling.request
  | .poll sessionId => .querySession sessionId
  | .probe => .probeTarget

/-- `inputSession` is the session of its `ConnectionInputSession`, `lease` says that
it has an `ActiveConnectionLease`. -/
structure Connection where
  phoneId : String
  lease : Bool := false
  inputSession : Option String := none
  monitoredSession : Option String := none
  task : Option (Task × Progress) := none
  deriving DecidableEq, Repr

namespace Connection

def track (c : Connection) (sessionId : String) : Connection :=
  { c with inputSession := some sessionId }

def complete (c : Connection) (sessionId : String) : Connection :=
  if c.inputSession = some sessionId then { c with inputSession := none } else c

def monitor (c : Connection) : ClientMessage → Option String
  | .start snapshot =>
    if snapshot.sessionId = "" then c.monitoredSession else some snapshot.sessionId
  | .update snapshot =>
    if snapshot.sessionId = "" then c.monitoredSession else some snapshot.sessionId
  | .resume resume =>
    if resume.sessionState = .active ∧ resume.sessionId ≠ "" then some resume.sessionId else none
  | .finish _ => none
  | .cancel _ => c.monitoredSession

def handled (c : Connection) (transition : SessionTransition) : Connection :=
  if transition.completesSession then { c with task := none }.complete transition.sessionId
  else { c with task := none }

end Connection

inductive TimerState
  | sleeping | ready | waiting
  deriving DecidableEq, Repr

/-- What a dropped `ConnectionInputSession` has spawned. -/
structure GraceTimer where
  phoneId : String
  sessionId : String
  state : TimerState := .sleeping
  deriving DecidableEq, Repr

inductive Owner
  | connection (id : Nat)
  | timer (id : Nat)
  deriving DecidableEq, Repr

structure Network where
  dispatcher : Dispatcher := {}
  owner : Option Owner := none
  connections : Nat → Option Connection := fun _ => none
  timers : Nat → Option GraceTimer := fun _ => none
  active : Option (String × Nat) := none
  nextConnectionId : Nat := 1

namespace Network

inductive Event
  /-- A phone has authenticated. -/
  | accept (phoneId : String)
  /-- An image or a binary frame: input that belongs to no session. -/
  | frame (id : Nat)
  /-- A message of the phone; `delivered` says that what is sent arrives. -/
  | receive (id : Nat) (message : ClientMessage) (delivered : Bool)
  | probe (id : Nat)
  /-- The poll of the target is due. -/
  | tick (id : Nat)
  | submit (id : Nat)
  | proceed (id : Nat) (delivered : Bool)
  /-- The socket is closed, or the loop ends with an error. -/
  | close (id : Nat)
  /-- The grace period of a closed connection is over. -/
  | expire (id : Nat)
  | submitTimer (id : Nat)
  | dispatcher (event : Dispatcher.Event)

def setConnection (s : Network) (id : Nat) (c : Connection) : Network :=
  { s with connections := Function.update s.connections id (some c) }

def setTimer (s : Network) (id : Nat) (timer : Option GraceTimer) : Network :=
  { s with timers := Function.update s.timers id timer }

def isActiveConnection (s : Network) (phoneId : String) (id : Nat) : Prop :=
  s.active = some (phoneId, id)

instance (s : Network) (phoneId : String) (id : Nat) : Decidable (s.isActiveConnection phoneId id) :=
  inferInstanceAs (Decidable (_ = _))

def hasReplacementConnection (s : Network) (phoneId : String) (id : Nat) : Bool :=
  match s.active with
  | none => false
  | some (activePhone, activeId) => decide (activePhone = phoneId) && decide (activeId ≠ id)

/-- The loop is left: the leases are dropped, and a tracked session gets a timer. -/
def drop (s : Network) (id : Nat) (c : Connection) : Network :=
  { s with
    connections := Function.update s.connections id none
    timers := match c.inputSession with
      | none => s.timers
      | some sessionId => Function.update s.timers id
          (some { phoneId := c.phoneId, sessionId := sessionId })
    active := if c.lease = true ∧ s.isActiveConnection c.phoneId id then none else s.active }

/-- Input claims the single input connection unless the connection has its lease. -/
def claim (s : Network) (id : Nat) (c : Connection) : Network :=
  if c.lease then s else { s with active := some (c.phoneId, id) }

def stepAccept (s : Network) (phoneId : String) : Option Network :=
  some { s.setConnection s.nextConnectionId { phoneId := phoneId } with
    nextConnectionId := s.nextConnectionId + 1 }

/-- Input on an idle connection. A superseded connection is closed. -/
def stepFrame (s : Network) (id : Nat) : Option Network :=
  match s.connections id with
  | none => none
  | some c =>
    if c.task ≠ none then none
    else if (s.claim id c).isActiveConnection c.phoneId id then
      some ((s.claim id c).setConnection id { c with lease := true })
    else some ((s.claim id c).drop id { c with lease := true })

def handle (s : Network) (id : Nat) (c : Connection) (message : ClientMessage) (delivered : Bool) :
    Network :=
  let transition := SessionTransition.fromMessage message
  let c := { c.track transition.sessionId with monitoredSession := c.monitor message }
  match handleClientMessage c.phoneId message with
  | .error _ => s.drop id c
  | .ok (sent, handling) =>
    if sent ≠ [] ∧ delivered = false then s.drop id c
    else match handling with
      | some handling => s.setConnection id { c with task := some (.message handling transition, .ready) }
      | none => s.setConnection id (c.handled transition)

def stepReceive (s : Network) (id : Nat) (message : ClientMessage) (delivered : Bool) :
    Option Network :=
  match s.connections id with
  | none => none
  | some c =>
    if c.task ≠ none then none
    else if (s.claim id c).isActiveConnection c.phoneId id then
      some ((s.claim id c).handle id { c with lease := true } message delivered)
    else some ((s.claim id c).drop id { c with lease := true })

def stepProbe (s : Network) (id : Nat) : Option Network :=
  match s.connections id with
  | none => none
  | some c =>
    if c.task ≠ none then none
    else if c.lease = true ∧ ¬ s.isActiveConnection c.phoneId id then some (s.drop id c)
    else some (s.setConnection id { c with task := some (.probe, .ready) })

def stepTick (s : Network) (id : Nat) : Option Network :=
  match s.connections id with
  | none => none
  | some c =>
    match c.task, c.monitoredSession, c.lease with
    | none, some sessionId, true =>
      some (s.setConnection id { c with task := some (.poll sessionId, .ready) })
    | _, _, _ => none

def stepSubmit (s : Network) (id : Nat) : Option Network :=
  match s.connections id with
  | none => none
  | some c =>
    match c.task with
    | some (task, .ready) =>
      (s.dispatcher.step (.submit task.request)).map fun dispatcher =>
        { s.setConnection id { c with task := some (task, .waiting) } with
          dispatcher := dispatcher, owner := some (.connection id) }
    | _ => none

def proceed (s : Network) (id : Nat) (c : Connection) (task : Task) (result : DispatchResult)
    (delivered : Bool) : Network :=
  match task with
  | .message handling transition =>
    if (handling.proceed result).1 ≠ [] ∧ delivered = false then s.drop id c
    else match (handling.proceed result).2 with
      | some handling =>
        s.setConnection id { c with task := some (.message handling transition, .ready) }
      | none => s.setConnection id (c.handled transition)
  | .poll _ =>
    match result with
    | .ok (.sessionActive _ _ _) => s.setConnection id { c with task := none }
    | _ =>
      if delivered then s.setConnection id { c with task := none, monitoredSession := none }
      else s.drop id { c with monitoredSession := none }
  | .probe => if delivered then s.setConnection id { c with task := none } else s.drop id c

def stepProceed (s : Network) (id : Nat) (delivered : Bool) : Option Network :=
  match s.connections id with
  | none => none
  | some c =>
    match c.task with
    | some (task, .answered result) => some (s.proceed id c task result delivered)
    | _ => none

def stepClose (s : Network) (id : Nat) : Option Network :=
  match s.connections id with
  | none => none
  | some c => if c.task = none then some (s.drop id c) else none

/-- After the grace period: another connection of the phone takes over, or the
session is cancelled. -/
def stepExpire (s : Network) (id : Nat) : Option Network :=
  match s.timers id with
  | none => none
  | some timer =>
    if timer.state ≠ .sleeping then none
    else if s.hasReplacementConnection timer.phoneId id then some (s.setTimer id none)
    else some (s.setTimer id (some { timer with state := .ready }))

def stepSubmitTimer (s : Network) (id : Nat) : Option Network :=
  match s.timers id with
  | none => none
  | some timer =>
    if timer.state ≠ .ready then none
    else (s.dispatcher.step (.submit (.cancelInvalidSession timer.sessionId))).map fun dispatcher =>
      { s.setTimer id (some { timer with state := .waiting }) with
        dispatcher := dispatcher, owner := some (.timer id) }

def passOn (s : Network) (result : DispatchResult) : Network :=
  match s.owner with
  | none => s
  | some (.timer id) => s.setTimer id none
  | some (.connection id) =>
    match s.connections id with
    | none => s
    | some c =>
      match c.task with
      | none => s
      | some (task, _) => s.setConnection id { c with task := some (task, .answered result) }

def stepDispatcher (s : Network) (event : Dispatcher.Event) : Option Network :=
  match event with
  | .submit _ => none
  | _ => (s.dispatcher.step event).map fun dispatcher =>
      match dispatcher.result with
      | none => { s with dispatcher := dispatcher }
      | some result => { { s with dispatcher := dispatcher }.passOn result with owner := none }

def step (s : Network) : Event → Option Network
  | .accept phoneId => s.stepAccept phoneId
  | .frame id => s.stepFrame id
  | .receive id message delivered => s.stepReceive id message delivered
  | .probe id => s.stepProbe id
  | .tick id => s.stepTick id
  | .submit id => s.stepSubmit id
  | .proceed id delivered => s.stepProceed id delivered
  | .close id => s.stepClose id
  | .expire id => s.stepExpire id
  | .submitTimer id => s.stepSubmitTimer id
  | .dispatcher event => s.stepDispatcher event

section Frames
variable (s : Network) (k : Nat) (c : Connection) (timer : Option GraceTimer)

@[simp] theorem setConnection_self : (s.setConnection k c).connections k = some c :=
  Function.update_self ..

theorem setConnection_of_ne {j : Nat} (h : j ≠ k) :
    (s.setConnection k c).connections j = s.connections j := Function.update_of_ne h ..

@[simp] theorem setConnection_timers : (s.setConnection k c).timers = s.timers := rfl

@[simp] theorem setTimer_self : (s.setTimer k timer).timers k = timer := Function.update_self ..

theorem setTimer_of_ne {j : Nat} (h : j ≠ k) : (s.setTimer k timer).timers j = s.timers j :=
  Function.update_of_ne h ..

@[simp] theorem setTimer_connections : (s.setTimer k timer).connections = s.connections := rfl

@[simp] theorem drop_self : (s.drop k c).connections k = none := Function.update_self ..

theorem drop_of_ne {j : Nat} (h : j ≠ k) : (s.drop k c).connections j = s.connections j ∧
    (s.drop k c).timers j = s.timers j := by
  refine ⟨Function.update_of_ne h .., ?_⟩
  unfold drop
  cases c.inputSession with
  | none => rfl
  | some sessionId => exact Function.update_of_ne h ..

/-- The session of a dropped connection is left to its timer. -/
theorem drop_timer {sessionId : String} (h : c.inputSession = some sessionId) :
    (s.drop k c).timers k = some { phoneId := c.phoneId, sessionId := sessionId } := by
  unfold drop
  rw [h]
  exact Function.update_self ..

theorem claim_eq : ∃ active, s.claim k c = { s with active := active } := by
  unfold claim
  split
  · exact ⟨s.active, rfl⟩
  · exact ⟨_, rfl⟩

end Frames

section Inversions
variable {s t : Network} {k : Nat}

theorem stepFrame_some (h : s.stepFrame k = some t) : ∃ c active, s.connections k = some c ∧
    c.task = none ∧ (t = { s with active := active }.setConnection k { c with lease := true } ∨
      t = { s with active := active }.drop k { c with lease := true }) := by
  unfold stepFrame at h
  split at h
  · simp at h
  · rename_i c hc
    obtain ⟨active, hactive⟩ := s.claim_eq k c
    rw [hactive] at h
    split_ifs at h with h₁ h₂
    · exact ⟨c, active, hc, by simpa using h₁, Or.inl (Option.some.inj h).symm⟩
    · exact ⟨c, active, hc, by simpa using h₁, Or.inr (Option.some.inj h).symm⟩

theorem stepReceive_some {message : ClientMessage} {delivered : Bool}
    (h : s.stepReceive k message delivered = some t) : ∃ c active, s.connections k = some c ∧
    c.task = none ∧ (((s.claim k c).isActiveConnection c.phoneId k ∧
      t = { s with active := active }.handle k { c with lease := true } message delivered) ∨
      t = { s with active := active }.drop k { c with lease := true }) := by
  unfold stepReceive at h
  split at h
  · simp at h
  · rename_i c hc
    obtain ⟨active, hactive⟩ := s.claim_eq k c
    split_ifs at h with h₁ h₂
    · exact ⟨c, active, hc, by simpa using h₁, Or.inl ⟨h₂, by rw [← hactive]; exact
        (Option.some.inj h).symm⟩⟩
    · exact ⟨c, active, hc, by simpa using h₁, Or.inr (by rw [← hactive]; exact
        (Option.some.inj h).symm)⟩

/-- A message is refused, asks for something, or is done at once. -/
theorem handle_cases (s : Network) (k : Nat) (c : Connection) (message : ClientMessage)
    (delivered : Bool) : ∃ c', c'.phoneId = c.phoneId ∧ c'.task = c.task ∧
      c'.inputSession = some (SessionTransition.fromMessage message).sessionId ∧
      ((s.handle k c message delivered = s.drop k c' ∧
        ∀ handling, handleClientMessage c.phoneId message ≠ .ok ([], some handling)) ∨
      (∃ handling sent, handleClientMessage c.phoneId message = .ok (sent, some handling) ∧
        s.handle k c message delivered = s.setConnection k { c' with
          task := some (.message handling (SessionTransition.fromMessage message), .ready) }) ∨
      ∃ sent, handleClientMessage c.phoneId message = .ok (sent, none) ∧
        (sent = [] ∨ delivered = true) ∧ s.handle k c message delivered =
          s.setConnection k (c'.handled (SessionTransition.fromMessage message))) := by
  let c' := { c.track (SessionTransition.fromMessage message).sessionId with
    monitoredSession := c.monitor message }
  refine ⟨c', rfl, rfl, rfl, ?_⟩
  have hphone : c'.phoneId = c.phoneId := rfl
  unfold handle
  cases hm : handleClientMessage c.phoneId message with
  | error failure =>
    refine Or.inl ⟨?_, by simp⟩
    simp only [Connection.track, hm]
    rfl
  | ok result =>
    obtain ⟨sent, handling⟩ := result
    simp only [Connection.track, hm]
    split_ifs with h
    · refine Or.inl ⟨rfl, ?_⟩
      intro handling' heq
      simp only [Except.ok.injEq, Prod.mk.injEq] at heq
      exact h.1 heq.1
    · cases handling with
      | some handling => exact Or.inr (Or.inl ⟨handling, sent, rfl, rfl⟩)
      | none =>
        refine Or.inr (Or.inr ⟨sent, rfl, ?_, rfl⟩)
        by_cases hsent : sent = []
        · exact Or.inl hsent
        · exact Or.inr (by simpa [hsent] using h)

theorem stepProbe_some (h : s.stepProbe k = some t) : ∃ c, s.connections k = some c ∧
    c.task = none ∧ (t = s.drop k c ∨
      t = s.setConnection k { c with task := some (.probe, .ready) }) := by
  unfold stepProbe at h
  split at h
  · simp at h
  · rename_i c hc
    split_ifs at h with h₁ h₂
    · exact ⟨c, hc, by simpa using h₁, Or.inl (Option.some.inj h).symm⟩
    · exact ⟨c, hc, by simpa using h₁, Or.inr (Option.some.inj h).symm⟩

theorem stepTick_some (h : s.stepTick k = some t) : ∃ c sessionId, s.connections k = some c ∧
    c.task = none ∧ t = s.setConnection k { c with task := some (.poll sessionId, .ready) } := by
  unfold stepTick at h
  split at h
  · simp at h
  · rename_i c hc
    split at h
    · rename_i sessionId htask hm hl
      exact ⟨c, sessionId, hc, htask, (Option.some.inj h).symm⟩
    · simp at h

theorem stepSubmit_some (h : s.stepSubmit k = some t) : ∃ c task dispatcher,
    s.connections k = some c ∧ c.task = some (task, .ready) ∧
    s.dispatcher.step (.submit task.request) = some dispatcher ∧
    t = { s.setConnection k { c with task := some (task, .waiting) } with
      dispatcher := dispatcher, owner := some (.connection k) } := by
  unfold stepSubmit at h
  split at h
  · simp at h
  · rename_i c hc
    split at h
    · rename_i task htask
      obtain ⟨d, hd, rfl⟩ := Option.map_eq_some_iff.mp h
      exact ⟨c, task, d, hc, htask, hd, rfl⟩
    · simp at h

theorem stepProceed_some {delivered : Bool} (h : s.stepProceed k delivered = some t) :
    ∃ c task result, s.connections k = some c ∧ c.task = some (task, .answered result) ∧
      t = s.proceed k c task result delivered := by
  unfold stepProceed at h
  split at h
  · simp at h
  · rename_i c hc
    split at h
    · rename_i task result htask
      exact ⟨c, task, result, hc, htask, (Option.some.inj h).symm⟩
    · simp at h

/-- An answer makes the connection go on, be done with the message, or close. -/
theorem proceed_cases (s : Network) (k : Nat) (c : Connection) (task : Task)
    (result : DispatchResult) (delivered : Bool) :
    (∃ c', c'.inputSession = c.inputSession ∧
      s.proceed k c task result delivered = s.drop k c') ∨
    (∃ c', c'.inputSession = c.inputSession ∧ c'.task = none ∧
      s.proceed k c task result delivered = s.setConnection k c') ∨
    (∃ handling handling' transition, task = .message handling transition ∧
      (handling.proceed result).2 = some handling' ∧
      s.proceed k c task result delivered = s.setConnection k
        { c with task := some (.message handling' transition, .ready) }) ∨
    ∃ handling transition, task = .message handling transition ∧
      (handling.proceed result).2 = none ∧
      ((handling.proceed result).1 = [] ∨ delivered = true) ∧
      s.proceed k c task result delivered = s.setConnection k (c.handled transition) := by
  cases task with
  | message handling transition =>
    simp only [proceed]
    split_ifs with h
    · exact Or.inl ⟨c, rfl, rfl⟩
    · cases hnext : (handling.proceed result).2 with
      | some handling' =>
        exact Or.inr (Or.inr (Or.inl ⟨handling, handling', transition, rfl, hnext, rfl⟩))
      | none =>
        refine Or.inr (Or.inr (Or.inr ⟨handling, transition, rfl, hnext, ?_, rfl⟩))
        by_cases hsent : (handling.proceed result).1 = []
        · exact Or.inl hsent
        · exact Or.inr (by simpa [hsent] using h)
  | poll sessionId =>
    simp only [proceed]
    split
    · exact Or.inr (Or.inl ⟨{ c with task := none }, rfl, rfl, rfl⟩)
    · split_ifs
      · exact Or.inr (Or.inl ⟨{ c with task := none, monitoredSession := none }, rfl, rfl, rfl⟩)
      · exact Or.inl ⟨{ c with monitoredSession := none }, rfl, rfl⟩
  | probe =>
    simp only [proceed]
    split_ifs
    · exact Or.inr (Or.inl ⟨{ c with task := none }, rfl, rfl, rfl⟩)
    · exact Or.inl ⟨c, rfl, rfl⟩

theorem stepClose_some (h : s.stepClose k = some t) : ∃ c, s.connections k = some c ∧
    c.task = none ∧ t = s.drop k c := by
  unfold stepClose at h
  split at h
  · simp at h
  · rename_i c hc
    split_ifs at h with htask
    exact ⟨c, hc, htask, (Option.some.inj h).symm⟩

theorem stepExpire_some (h : s.stepExpire k = some t) : ∃ timer, s.timers k = some timer ∧
    timer.state = .sleeping ∧
    ((s.hasReplacementConnection timer.phoneId k = true ∧ t = s.setTimer k none) ∨
      t = s.setTimer k (some { timer with state := .ready })) := by
  unfold stepExpire at h
  split at h
  · simp at h
  · rename_i timer ht
    split_ifs at h with h₁ h₂
    · exact ⟨timer, ht, by simpa using h₁, Or.inl ⟨h₂, (Option.some.inj h).symm⟩⟩
    · exact ⟨timer, ht, by simpa using h₁, Or.inr (Option.some.inj h).symm⟩

theorem stepSubmitTimer_some (h : s.stepSubmitTimer k = some t) : ∃ timer dispatcher,
    s.timers k = some timer ∧ timer.state = .ready ∧
    s.dispatcher.step (.submit (.cancelInvalidSession timer.sessionId)) = some dispatcher ∧
    t = { s.setTimer k (some { timer with state := .waiting }) with
      dispatcher := dispatcher, owner := some (.timer k) } := by
  unfold stepSubmitTimer at h
  split at h
  · simp at h
  · rename_i timer ht
    split_ifs at h with hstate
    obtain ⟨d, hd, rfl⟩ := Option.map_eq_some_iff.mp h
    exact ⟨timer, d, ht, by simpa using hstate, hd, rfl⟩

theorem stepDispatcher_some {event : Dispatcher.Event} (h : s.stepDispatcher event = some t) :
    (∀ request, event ≠ .submit request) ∧ ∃ d, s.dispatcher.step event = some d ∧
      ((d.result = none ∧ t = { s with dispatcher := d }) ∨
        ∃ result, d.result = some result ∧
          t = { { s with dispatcher := d }.passOn result with owner := none }) := by
  unfold stepDispatcher at h
  split at h
  · simp at h
  · rename_i hne
    obtain ⟨d, hd, rfl⟩ := Option.map_eq_some_iff.mp h
    refine ⟨hne, d, hd, ?_⟩
    cases hr : d.result with
    | none => exact Or.inl ⟨rfl, rfl⟩
    | some result => exact Or.inr ⟨result, rfl, rfl⟩

/-- What becomes of connections and timers when a result is passed on. -/
theorem passOn_cases (s : Network) (result : DispatchResult) :
    (∃ k timers, s.owner = some (.timer k) ∧ s.passOn result = { s with timers := timers } ∧
      timers = Function.update s.timers k none) ∨
    (∃ k c task progress, s.owner = some (.connection k) ∧ s.connections k = some c ∧
      c.task = some (task, progress) ∧ s.passOn result =
        s.setConnection k { c with task := some (task, .answered result) }) ∨
    ((∀ k, s.owner ≠ some (.timer k)) ∧ (∀ k c task, s.owner = some (.connection k) →
      s.connections k = some c → c.task ≠ some task) ∧ s.passOn result = s) := by
  unfold passOn
  split
  · rename_i ho
    exact Or.inr (Or.inr ⟨by simp [ho], by simp [ho], rfl⟩)
  · rename_i k ho
    exact Or.inl ⟨k, _, ho, rfl, rfl⟩
  · rename_i k ho
    split
    · rename_i hc
      refine Or.inr (Or.inr ⟨by simp [ho], ?_, rfl⟩)
      rintro j c task hj hc'
      obtain rfl : k = j := by simpa [ho] using hj
      simp [hc] at hc'
    · rename_i c hc
      split
      · rename_i htask
        refine Or.inr (Or.inr ⟨by simp [ho], ?_, rfl⟩)
        rintro j c' task hj hc'
        obtain rfl : k = j := by simpa [ho] using hj
        obtain rfl : c = c' := by simpa [hc] using hc'
        simp [htask]
      · rename_i task progress htask
        exact Or.inr (Or.inl ⟨k, c, task, progress, ho, hc, htask, rfl⟩)

end Inversions

end Network

end FlowType
