import FlowType.Windows

/-! The dispatcher of the desktop app, which passes one request at a time to the
injector over a named pipe, and what it does when the outcome of a request is
unknown. The injector serves one pipe; when it finds that pipe closed it ends its
session and accepts the next one. -/
namespace FlowType

inductive InjectorRequestFailure
  | unavailable | recoveryRequired
  deriving DecidableEq, Repr

inductive ReconcileDecision
  | applied | finished | retry | unknown
  deriving DecidableEq, Repr

def classifyApplyRecovery (sessionId : String) (sequence : Int) (fullText : String) :
    InjectorResponse → ReconcileDecision
  | .sessionFinished finishedSession finishedSequence finishedText =>
    if finishedSession = sessionId ∧ finishedSequence = sequence ∧ finishedText = fullText then
      .finished
    else .unknown
  | .sessionActive activeSession activeSequence activeText =>
    if activeSession = sessionId ∧ activeSequence = sequence ∧ activeText = fullText then .applied
    else if activeSession = sessionId ∧ activeSequence < sequence then .retry
    else .unknown
  | _ => .unknown

def classifyFinishRecovery (sessionId : String) (sequence : Int) :
    InjectorResponse → ReconcileDecision
  | .sessionFinished finishedSession finishedSequence _ =>
    if finishedSession = sessionId ∧ finishedSequence = sequence then .finished else .unknown
  | .sessionActive activeSession activeSequence _ =>
    if activeSession = sessionId ∧ activeSequence = sequence then .retry else .unknown
  | _ => .unknown

/-- Which of its exchanges `request_blocking` is in: the first one, a repetition
whose answer is the result, or the query that decides on a repetition. -/
inductive Attempt
  | first (previousInstance : Nat)
  | again
  | query
  deriving DecidableEq, Repr

def Attempt.wire (request : InjectorRequest) : Attempt → InjectorRequest
  | .first _ => request
  | .again => request
  | .query => match request with
    | .applyState sessionId _ _ => .querySession sessionId
    | .finishSession sessionId _ => .querySession sessionId
    | other => other

inductive Phase
  | idle
  | connect (request : InjectorRequest)
  | send (request : InjectorRequest) (attempt : Attempt)
  | receive (request : InjectorRequest) (attempt : Attempt)
  | reconnect (request : InjectorRequest) (previousInstance : Nat)
  deriving DecidableEq, Repr

def Phase.request? : Phase → Option InjectorRequest
  | .idle => none
  | .connect request => some request
  | .send request _ => some request
  | .receive request _ => some request
  | .reconnect request _ => some request

/-- The start of `reconcile_injector_request`: how the request goes on after an
unknown outcome, if it does. -/
def reconcileAttempt (sameInstance : Bool) : InjectorRequest → Option Attempt
  | .beginSession _ _ _ _ _ => some .again
  | .probeTarget => some .again
  | .cancelInvalidSession _ => some .again
  | .applyState _ _ _ => if sameInstance then some .query else none
  | .finishSession _ _ => if sameInstance then some .query else none
  | .querySession _ => if sameInstance then some .again else none

abbrev DispatchResult := Except InjectorRequestFailure InjectorResponse

/-- `client` is the instance of the injector that the app has a pipe to, and
`serving` says that the injector serves a pipe. `log` lists the requests handed
to the dispatcher, `origin` says to which of them a request of the injector
belongs; `result` is what the last event returned. -/
structure Dispatcher where
  windows : Windows := {}
  instanceId : Nat := 0
  serving : Bool := false
  client : Option Nat := none
  phase : Phase := .idle
  response : Option InjectorResponse := none
  result : Option DispatchResult := none
  log : List InjectorRequest := []
  origin : Nat → Option Nat := fun _ => none

namespace Dispatcher

inductive Event
  /-- `InjectorDispatcher::request` has the slot. -/
  | submit (request : InjectorRequest)
  | connected
  | connectFails
  /-- The request is written, and the injector reads it. -/
  | write (desktop : Desktop)
  | writeFails
  | read
  /-- A read error, or no response within 4 s. -/
  | readFails
  | windows (event : Windows.Event)
  /-- The injector finds its pipe closed. -/
  | pipeLost
  | restart
  /-- `InjectorDispatcher::repair`. -/
  | repair

/-- The pipe of the app is the one that the injector serves. -/
def Linked (s : Dispatcher) : Prop := s.client = some s.instanceId

instance (s : Dispatcher) : Decidable s.Linked := inferInstanceAs (Decidable (_ = _))

def Accepting (s : Dispatcher) : Prop := s.serving = false ∧ s.windows.waiting = none

instance (s : Dispatcher) : Decidable s.Accepting := inferInstanceAs (Decidable (_ ∧ _))

def finish (s : Dispatcher) (result : DispatchResult) : Dispatcher :=
  { s with phase := .idle, result := some result }

/-- An exchange has failed: the pipe is dropped, and the first failure makes the
dispatcher connect again. -/
def failed (s : Dispatcher) (request : InjectorRequest) : Attempt → Dispatcher
  | .first previousInstance =>
    { s with client := none, response := none, phase := .reconnect request previousInstance }
  | _ => { s with client := none, response := none }.finish (.error .unavailable)

def link (s : Dispatcher) : Dispatcher :=
  { s with client := some s.instanceId, serving := true }

/-- The answer to the query of `reconcile_injector_request`. -/
def reconcile (s : Dispatcher) (request : InjectorRequest) (state : InjectorResponse) :
    Dispatcher :=
  match request with
  | .applyState sessionId sequence fullText =>
    match classifyApplyRecovery sessionId sequence fullText state with
    | .applied => s.finish (.ok (.applied sequence))
    | .retry => { s with phase := .send request .again }
    | .finished => s.finish (.ok (.finished sequence))
    | .unknown => s.finish (.error .recoveryRequired)
  | .finishSession sessionId sequence =>
    match classifyFinishRecovery sessionId sequence state with
    | .finished => s.finish (.ok (.finished sequence))
    | .retry => { s with phase := .send request .again }
    | .applied => s.finish (.error .recoveryRequired)
    | .unknown => s.finish (.error .recoveryRequired)
  | _ => s.finish (.error .recoveryRequired)

def stepSubmit (s : Dispatcher) (request : InjectorRequest) : Option Dispatcher :=
  match s.phase with
  | .idle => some { s with
      log := s.log ++ [request]
      phase := match s.client with
        | none => .connect request
        | some previousInstance => .send request (.first previousInstance) }
  | _ => none

def stepConnected (s : Dispatcher) : Option Dispatcher :=
  if s.Accepting then
    match s.phase with
    | .connect request => some { s.link with phase := .send request (.first s.instanceId) }
    | .reconnect request previousInstance =>
      match reconcileAttempt (decide (s.instanceId = previousInstance)) request with
      | some attempt => some { s.link with phase := .send request attempt }
      | none => some (s.link.finish (.error .recoveryRequired))
    | _ => none
  else none

def stepConnectFails (s : Dispatcher) : Option Dispatcher :=
  match s.phase with
  | .connect _ => some (s.finish (.error .unavailable))
  | .reconnect _ _ => some (s.finish (.error .unavailable))
  | _ => none

def stepWrite (s : Dispatcher) (desktop : Desktop) : Option Dispatcher :=
  match s.phase with
  | .send request attempt =>
    if s.Linked then
      (s.windows.step (.request (attempt.wire request) desktop)).map fun windows =>
        { s with
          windows := windows
          response := windows.reply
          phase := .receive request attempt
          origin := Function.update s.origin windows.requests (some (s.log.length - 1)) }
    else none
  | _ => none

def stepRead (s : Dispatcher) : Option Dispatcher :=
  match s.phase, s.response with
  | .receive request attempt, some response =>
    let s' := { s with response := none }
    match attempt with
    | .query => some (s'.reconcile request response)
    | _ => some (s'.finish (.ok response))
  | _, _ => none

/-- Everything behind the pipe; an answer gets lost when the app has dropped it. -/
def stepWindows (s : Dispatcher) (event : Windows.Event) : Option Dispatcher :=
  match event with
  | .request _ _ => none
  | .pipeLost => none
  | .restart => none
  | _ => (s.windows.step event).map fun windows =>
      { s with
        windows := windows
        response := if s.Linked ∧ windows.reply ≠ none then windows.reply else s.response }

def step (s₀ : Dispatcher) (e : Event) : Option Dispatcher :=
  let s := { s₀ with result := none }
  match e with
  | .submit request => s.stepSubmit request
  | .connected => s.stepConnected
  | .connectFails => s.stepConnectFails
  | .write desktop => s.stepWrite desktop
  | .writeFails => match s.phase with
    | .send request attempt => some (s.failed request attempt)
    | _ => none
  | .read => s.stepRead
  | .readFails => match s.phase with
    | .receive request attempt => some (s.failed request attempt)
    | _ => none
  | .windows event => s.stepWindows event
  | .pipeLost =>
    if s.serving = true ∧ ¬ s.Linked then
      (s.windows.step .pipeLost).map fun windows =>
        { s with windows := windows, serving := false }
    else none
  | .restart => (s.windows.step .restart).map fun windows =>
      { s with windows := windows, instanceId := s.instanceId + 1, serving := false }
  | .repair =>
    if s.phase = .idle ∧ s.Accepting then some s.link else none

inductive Does (s : Dispatcher) : Event → Dispatcher → Prop
  | submit (request : InjectorRequest) : s.phase = .idle → Does s (.submit request) { s with
      log := s.log ++ [request]
      phase := match s.client with
        | none => .connect request
        | some previousInstance => .send request (.first previousInstance) }
  | connect (request : InjectorRequest) : s.Accepting → s.phase = .connect request →
      Does s .connected { s.link with phase := .send request (.first s.instanceId) }
  | reconnect (request : InjectorRequest) (previousInstance : Nat) (attempt : Attempt) :
      s.Accepting → s.phase = .reconnect request previousInstance →
      reconcileAttempt (decide (s.instanceId = previousInstance)) request = some attempt →
      Does s .connected { s.link with phase := .send request attempt }
  | giveUp (request : InjectorRequest) (previousInstance : Nat) : s.Accepting →
      s.phase = .reconnect request previousInstance →
      Does s .connected (s.link.finish (.error .recoveryRequired))
  | connectFails (request : InjectorRequest) :
      s.phase = .connect request ∨ (∃ previousInstance, s.phase = .reconnect request
        previousInstance) → Does s .connectFails (s.finish (.error .unavailable))
  | write (request : InjectorRequest) (attempt : Attempt) (desktop : Desktop) (windows : Windows) :
      s.phase = .send request attempt → s.Linked →
      s.windows.step (.request (attempt.wire request) desktop) = some windows →
      Does s (.write desktop) { s with
        windows := windows
        response := windows.reply
        phase := .receive request attempt
        origin := Function.update s.origin windows.requests (some (s.log.length - 1)) }
  | writeFails (request : InjectorRequest) (attempt : Attempt) : s.phase = .send request attempt →
      Does s .writeFails (s.failed request attempt)
  | readFails (request : InjectorRequest) (attempt : Attempt) :
      s.phase = .receive request attempt → Does s .readFails (s.failed request attempt)
  | read (request : InjectorRequest) (attempt : Attempt) (response : InjectorResponse) :
      s.phase = .receive request attempt → s.response = some response → attempt ≠ .query →
      Does s .read ({ s with response := none }.finish (.ok response))
  | reconcile (request : InjectorRequest) (response : InjectorResponse) :
      s.phase = .receive request .query → s.response = some response →
      Does s .read ({ s with response := none }.reconcile request response)
  | windows (event : Windows.Event) (windows : Windows) :
      (∀ request desktop, event ≠ .request request desktop) → event ≠ .pipeLost →
      event ≠ .restart → s.windows.step event = some windows →
      Does s (.windows event) { s with
        windows := windows
        response := if s.Linked ∧ windows.reply ≠ none then windows.reply else s.response }
  | pipeLost (windows : Windows) : s.serving = true → ¬ s.Linked →
      s.windows.step .pipeLost = some windows →
      Does s .pipeLost { s with windows := windows, serving := false }
  | restart (windows : Windows) : s.windows.step .restart = some windows →
      Does s .restart { s with
        windows := windows, instanceId := s.instanceId + 1, serving := false }
  | repair : s.phase = .idle → s.Accepting → Does s .repair s.link

theorem step_does {s t : Dispatcher} {e : Event} (hs : s.step e = some t) :
    Does { s with result := none } e t := by
  cases e with
  | submit request =>
    simp only [step, stepSubmit] at hs
    split at hs
    · rename_i hp
      obtain rfl : _ = t := by simpa using hs
      exact .submit request hp
    · simp at hs
  | connected =>
    simp only [step, stepConnected] at hs
    split at hs
    · rename_i hacc
      split at hs
      · rename_i request hp
        obtain rfl : _ = t := by simpa using hs
        exact .connect request hacc hp
      · rename_i request previous hp
        split at hs
        · rename_i attempt ha
          obtain rfl : _ = t := by simpa using hs
          exact .reconnect request previous attempt hacc hp ha
        · obtain rfl : _ = t := by simpa using hs
          exact .giveUp request previous hacc hp
      · simp at hs
    · simp at hs
  | connectFails =>
    simp only [step, stepConnectFails] at hs
    split at hs
    · rename_i request hp
      obtain rfl : _ = t := by simpa using hs
      exact .connectFails request (Or.inl hp)
    · rename_i request previous hp
      obtain rfl : _ = t := by simpa using hs
      exact .connectFails request (Or.inr ⟨previous, hp⟩)
    · simp at hs
  | write desktop =>
    simp only [step, stepWrite] at hs
    split at hs
    · rename_i request attempt hp
      split at hs
      · rename_i hl
        obtain ⟨w, hw, rfl⟩ := Option.map_eq_some_iff.mp hs
        exact .write request attempt desktop w hp hl hw
      · simp at hs
    · simp at hs
  | writeFails =>
    simp only [step] at hs
    split at hs
    · rename_i request attempt hp
      obtain rfl : _ = t := by simpa using hs
      exact .writeFails request attempt hp
    · simp at hs
  | read =>
    simp only [step, stepRead] at hs
    split at hs
    · rename_i request attempt response hp hr
      split at hs
      · obtain rfl : _ = t := by simpa using hs
        exact .reconcile request response hp hr
      · rename_i hq
        obtain rfl : _ = t := by simpa using hs
        exact .read request attempt response hp hr hq
    · simp at hs
  | readFails =>
    simp only [step] at hs
    split at hs
    · rename_i request attempt hp
      obtain rfl : _ = t := by simpa using hs
      exact .readFails request attempt hp
    · simp at hs
  | windows event =>
    simp only [step, stepWindows] at hs
    split at hs
    · simp at hs
    · simp at hs
    · simp at hs
    · rename_i hne hpipe hrestart
      obtain ⟨w, hw, rfl⟩ := Option.map_eq_some_iff.mp hs
      exact .windows event w hne hpipe hrestart hw
  | pipeLost =>
    simp only [step] at hs
    split at hs
    · rename_i hc
      obtain ⟨w, hw, rfl⟩ := Option.map_eq_some_iff.mp hs
      exact .pipeLost w hc.1 hc.2 hw
    · simp at hs
  | restart =>
    simp only [step] at hs
    obtain ⟨w, hw, rfl⟩ := Option.map_eq_some_iff.mp hs
    exact .restart w hw
  | repair =>
    simp only [step] at hs
    split at hs
    · rename_i hc
      obtain rfl : _ = t := by simpa using hs
      exact .repair hc.1 hc.2
    · simp at hs

theorem failed_frame (s : Dispatcher) (request : InjectorRequest) (attempt : Attempt) :
    (s.failed request attempt).windows = s.windows ∧ (s.failed request attempt).origin = s.origin ∧
    (s.failed request attempt).log = s.log ∧ (s.failed request attempt).serving = s.serving ∧
    (s.failed request attempt).client = none ∧ (s.failed request attempt).response = none := by
  cases attempt <;> exact ⟨rfl, rfl, rfl, rfl, rfl, rfl⟩

/-- A query leads to a result or to a repetition of the request. -/
theorem reconcile_cases (s : Dispatcher) (request : InjectorRequest) (state : InjectorResponse) :
    (∃ result, s.reconcile request state = s.finish result) ∨
      s.reconcile request state = { s with phase := .send request .again } := by
  unfold reconcile
  split
  · split
    · exact Or.inl ⟨_, rfl⟩
    · exact Or.inr rfl
    · exact Or.inl ⟨_, rfl⟩
    · exact Or.inl ⟨_, rfl⟩
  · split
    · exact Or.inl ⟨_, rfl⟩
    · exact Or.inr rfl
    · exact Or.inl ⟨_, rfl⟩
    · exact Or.inl ⟨_, rfl⟩
  · exact Or.inl ⟨_, rfl⟩

/-- What a step of the dispatcher does behind the pipe: nothing, the request that
is written, or an event of the injector's own. -/
theorem step_windows {s t : Dispatcher} {e : Event} (hs : s.step e = some t) :
    (t.windows = s.windows ∧ t.origin = s.origin ∧
      (t.log = s.log ∨ ∃ request, t.log = s.log ++ [request])) ∨
    (∃ request attempt desktop, s.phase = .send request attempt ∧
      s.windows.step (.request (attempt.wire request) desktop) = some t.windows ∧
      t.log = s.log ∧
      t.origin = Function.update s.origin t.windows.requests (some (s.log.length - 1))) ∨
    (∃ event, s.windows.step event = some t.windows ∧ t.origin = s.origin ∧ t.log = s.log ∧
      (∀ request desktop, event ≠ .request request desktop) ∧
      (e = .windows event ∨ event = .pipeLost ∨ event = .restart)) := by
  cases step_does hs with
  | submit request hp => exact Or.inl ⟨rfl, rfl, Or.inr ⟨request, rfl⟩⟩
  | connect request hacc hp => exact Or.inl ⟨rfl, rfl, Or.inl rfl⟩
  | reconnect request previous attempt hacc hp ha => exact Or.inl ⟨rfl, rfl, Or.inl rfl⟩
  | giveUp request previous hacc hp => exact Or.inl ⟨rfl, rfl, Or.inl rfl⟩
  | connectFails request hp => exact Or.inl ⟨rfl, rfl, Or.inl rfl⟩
  | write request attempt desktop w hp hl hw =>
    exact Or.inr (Or.inl ⟨request, attempt, desktop, hp, hw, rfl, rfl⟩)
  | writeFails request attempt hp =>
    obtain ⟨hw, ho, hlog, -⟩ := failed_frame { s with result := none } request attempt
    exact Or.inl ⟨hw, ho, Or.inl hlog⟩
  | readFails request attempt hp =>
    obtain ⟨hw, ho, hlog, -⟩ := failed_frame { s with result := none } request attempt
    exact Or.inl ⟨hw, ho, Or.inl hlog⟩
  | read request attempt response hp hr hq => exact Or.inl ⟨rfl, rfl, Or.inl rfl⟩
  | reconcile request response hp hr =>
    rcases reconcile_cases { s with result := none, response := none } request response with
      ⟨result, h⟩ | h
    · rw [h]
      exact Or.inl ⟨rfl, rfl, Or.inl rfl⟩
    · rw [h]
      exact Or.inl ⟨rfl, rfl, Or.inl rfl⟩
  | windows event w hne hpipe hrestart hw =>
    exact Or.inr (Or.inr ⟨event, hw, rfl, rfl, hne, Or.inl rfl⟩)
  | pipeLost w hserving hl hw =>
    exact Or.inr (Or.inr ⟨.pipeLost, hw, rfl, rfl, by simp, Or.inr (Or.inl rfl)⟩)
  | restart w hw => exact Or.inr (Or.inr ⟨.restart, hw, rfl, rfl, by simp, Or.inr (Or.inr rfl)⟩)
  | repair hp hacc => exact Or.inl ⟨rfl, rfl, Or.inl rfl⟩

/-- A request stays under way until it is done. -/
theorem step_request {s t : Dispatcher} {e : Event} (hs : s.step e = some t) :
    t.phase = .idle ∨ (t.phase.request? = s.phase.request? ∧ s.phase ≠ .idle) ∨
      ∃ request, e = .submit request ∧ t.phase.request? = some request ∧ s.phase = .idle := by
  -- a phase that goes on with the request it had
  have hsame : ∀ {request : InjectorRequest}, s.phase.request? = some request →
      t.phase.request? = some request →
      t.phase.request? = s.phase.request? ∧ s.phase ≠ .idle := by
    intro request hp ht
    refine ⟨ht.trans hp.symm, ?_⟩
    rintro h
    simp [h, Phase.request?] at hp
  have hkeep : t.phase = s.phase → t.phase = .idle ∨
      (t.phase.request? = s.phase.request? ∧ s.phase ≠ .idle) := by
    intro h
    by_cases hp : s.phase = .idle
    · exact Or.inl (h.trans hp)
    · exact Or.inr ⟨by rw [h], hp⟩
  have hfailed : ∀ request attempt, s.phase.request? = some request →
      t = failed { s with result := none } request attempt →
      t.phase = .idle ∨ (t.phase.request? = s.phase.request? ∧ s.phase ≠ .idle) := by
    intro request attempt hp ht
    cases attempt with
    | first previous => exact Or.inr (hsame hp (by rw [ht]; rfl))
    | again => exact Or.inl (by rw [ht]; rfl)
    | query => exact Or.inl (by rw [ht]; rfl)
  cases step_does hs with
  | submit request hp =>
    refine Or.inr (Or.inr ⟨request, rfl, ?_, hp⟩)
    cases s.client <;> rfl
  | connect request hacc hp =>
    exact Or.inr (Or.inl (hsame (by rw [show s.phase = _ from hp]; rfl) rfl))
  | reconnect request previous attempt hacc hp ha =>
    exact Or.inr (Or.inl (hsame (by rw [show s.phase = _ from hp]; rfl) rfl))
  | giveUp request previous hacc hp => exact Or.inl rfl
  | connectFails request hp => exact Or.inl rfl
  | write request attempt desktop w hp hl hw =>
    exact Or.inr (Or.inl (hsame (by rw [show s.phase = _ from hp]; rfl) rfl))
  | writeFails request attempt hp =>
    rcases hfailed request attempt (by rw [show s.phase = _ from hp]; rfl) rfl with h | h
    · exact Or.inl h
    · exact Or.inr (Or.inl h)
  | readFails request attempt hp =>
    rcases hfailed request attempt (by rw [show s.phase = _ from hp]; rfl) rfl with h | h
    · exact Or.inl h
    · exact Or.inr (Or.inl h)
  | read request attempt response hp hr hq => exact Or.inl rfl
  | reconcile request response hp hr =>
    rcases reconcile_cases { s with result := none, response := none } request response with
      ⟨result, h⟩ | h
    · exact Or.inl (by rw [h]; rfl)
    · exact Or.inr (Or.inl (hsame (by rw [show s.phase = _ from hp]; rfl) (by rw [h]; rfl)))
  | windows event w hne hpipe hrestart hw =>
    rcases hkeep rfl with h | h
    · exact Or.inl h
    · exact Or.inr (Or.inl h)
  | pipeLost w hserving hl hw =>
    rcases hkeep rfl with h | h
    · exact Or.inl h
    · exact Or.inr (Or.inl h)
  | restart w hw =>
    rcases hkeep rfl with h | h
    · exact Or.inl h
    · exact Or.inr (Or.inl h)
  | repair hp hacc => exact Or.inl hp

@[simp] theorem reconcile_windows (s : Dispatcher) (request : InjectorRequest)
    (state : InjectorResponse) : (s.reconcile request state).windows = s.windows := by
  rcases s.reconcile_cases request state with ⟨result, h⟩ | h
  · rw [h]
    rfl
  · rw [h]

/-- A result is final, and a response is returned only after it was read. -/
theorem step_result {s t : Dispatcher} {e : Event} (hs : s.step e = some t) :
    t.result = none ∨ (t.phase = .idle ∧ s.phase ≠ .idle ∧
      ((∃ failure, t.result = some (.error failure)) ∨
      ∃ request attempt state, s.phase = .receive request attempt ∧ s.response = some state ∧
        t.windows = s.windows ∧
        ((attempt ≠ .query ∧ t.result = some (.ok state)) ∨
          (attempt = .query ∧
            t = reconcile { s with result := none, response := none } request state)))) := by
  have hfailed : ∀ request attempt, s.phase ≠ .idle →
      t = failed { s with result := none } request attempt →
      t.result = none ∨ (t.phase = .idle ∧ s.phase ≠ .idle ∧
        ∃ failure, t.result = some (.error failure)) := by
    intro request attempt hp ht
    cases attempt with
    | first previous => exact Or.inl (by rw [ht]; rfl)
    | again => exact Or.inr ⟨by rw [ht]; rfl, hp, _, by rw [ht]; rfl⟩
    | query => exact Or.inr ⟨by rw [ht]; rfl, hp, _, by rw [ht]; rfl⟩
  cases step_does hs with
  | submit request hp => exact Or.inl rfl
  | connect request hacc hp => exact Or.inl rfl
  | reconnect request previous attempt hacc hp ha => exact Or.inl rfl
  | giveUp request previous hacc hp =>
    exact Or.inr ⟨rfl, by simp [show s.phase = _ from hp], Or.inl ⟨_, rfl⟩⟩
  | connectFails request hp =>
    refine Or.inr ⟨rfl, ?_, Or.inl ⟨_, rfl⟩⟩
    rcases hp with hp | ⟨previous, hp⟩ <;> simp [show s.phase = _ from hp]
  | write request attempt desktop w hp hl hw => exact Or.inl rfl
  | writeFails request attempt hp =>
    rcases hfailed request attempt (by simp [show s.phase = _ from hp]) rfl with h | ⟨hi, hne, h⟩
    · exact Or.inl h
    · exact Or.inr ⟨hi, hne, Or.inl h⟩
  | readFails request attempt hp =>
    rcases hfailed request attempt (by simp [show s.phase = _ from hp]) rfl with h | ⟨hi, hne, h⟩
    · exact Or.inl h
    · exact Or.inr ⟨hi, hne, Or.inl h⟩
  | read request attempt response hp hr hq =>
    exact Or.inr ⟨rfl, by simp [show s.phase = _ from hp], Or.inr ⟨request, attempt, response, hp,
      hr, rfl, Or.inl ⟨hq, rfl⟩⟩⟩
  | reconcile request response hp hr =>
    rcases reconcile_cases { s with result := none, response := none } request response with
      ⟨result, h⟩ | h
    · exact Or.inr ⟨by rw [h]; rfl, by simp [show s.phase = _ from hp], Or.inr ⟨request, .query,
        response, hp, hr, by rw [h]; rfl, Or.inr ⟨rfl, rfl⟩⟩⟩
    · exact Or.inl (by rw [h])
  | windows event w hne hpipe hrestart hw => exact Or.inl rfl
  | pipeLost w hserving hl hw => exact Or.inl rfl
  | restart w hw => exact Or.inl rfl
  | repair hp hacc => exact Or.inl rfl

end Dispatcher

end FlowType
