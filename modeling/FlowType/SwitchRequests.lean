import FlowType.Runs
import Mathlib.Data.List.Basic

/-! The switch requests of the floating window: `request_switch_to_current`, its timer
and `acknowledge_switch`, cut at their locks. The window makes one call after the other;
timers and acknowledgements run on other threads. -/
namespace FlowType

structure SwitchRequest where
  pcId : String
  pcName : String
  requestId : String
  deriving DecidableEq, Repr

structure SwitchAck where
  requestId : String
  pcId : String
  accepted : Bool
  deriving DecidableEq, Repr

structure PendingSwitch where
  pcId : String
  requestId : String
  deriving DecidableEq, Repr

/-- `queue` is what the sender has put into the channel; `closed` says that the receiver
is gone. -/
structure SwitchChannel where
  isControl : Bool
  supportsSwitchAck : Bool
  queue : List SwitchRequest := []
  closed : Bool := false
  deriving DecidableEq, Repr

def SWITCH_CHANNEL_CAPACITY : Nat := 4

inductive SwitchStatus
  | phoneNotConnected | alreadyPending | phoneDidNotRespond | requestSent | switching
  | switched | notPairedOnPhone
  deriving DecidableEq, Repr

def SwitchStatus.answer (accepted : Bool) : SwitchStatus :=
  if accepted then .switched else .notPairedOnPhone

inductive SwitchCall
  | choose (request : SwitchRequest) (preferredId : Option Nat)
  | store (requestId : String)
  | announce (requestId : String)
  | finish (status : SwitchStatus)
  deriving DecidableEq, Repr

/-- The part of `AppState` that switching uses. `timers` sleep, `timedOut` and
`answering` are threads that have left the slot and have the status to set. -/
structure Switching where
  pcId : String
  pcName : String
  activeConnection : Option Nat := none
  /-- The online connections, with their `is_probe`. -/
  onlineConnections : List (Nat × Bool) := []
  switchChannels : List (Nat × SwitchChannel) := []
  pendingSwitch : Option PendingSwitch := none
  summary : Option SwitchStatus := none
  call : Option SwitchCall := none
  timers : List String := []
  timedOut : List String := []
  answering : List (String × Bool) := []
  deriving DecidableEq, Repr

namespace Switching

def channel (s : Switching) (id : Nat) : Option SwitchChannel := s.switchChannels.lookup id

/-- The connections that may get a request: control connections, and those that are
online for input. -/
def Usable (s : Switching) (id : Nat) : Bool :=
  (s.channel id).any (·.isControl) || (s.onlineConnections.lookup id).any fun isProbe => !isProbe

def candidateId (s : Switching) (preferredId : Option Nat) : Option Nat :=
  (preferredId.filter fun id => (s.channel id).isSome) <|>
    ((s.switchChannels.map Prod.fst).filter s.Usable).max?

def setChannel (s : Switching) (id : Nat) (channel : SwitchChannel) : Switching :=
  { s with switchChannels := (id, channel) :: s.switchChannels.filter fun c => decide (c.1 ≠ id) }

def removeChannel (s : Switching) (id : Nat) : Switching :=
  { s with switchChannels := s.switchChannels.filter fun c => decide (c.1 ≠ id) }

def begin (s : Switching) (requestId : String) : Option Switching :=
  match s.call with
  | some _ => none
  | none => some { s with
      call := some (.choose ⟨s.pcId, s.pcName, requestId⟩ s.activeConnection) }

/-- `try_send` under the lock of the channels. -/
def dispatch (s : Switching) : Option Switching :=
  match s.call with
  | some (.choose request preferredId) =>
    match s.candidateId preferredId with
    | none => some { s with call := some (.finish .phoneNotConnected) }
    | some id =>
      match s.channel id with
      | none => some { s.removeChannel id with call := some (.finish .phoneDidNotRespond) }
      | some channel =>
        if channel.closed then
          some { s.removeChannel id with call := some (.finish .phoneDidNotRespond) }
        else if SWITCH_CHANNEL_CAPACITY ≤ channel.queue.length then
          some { s with call := some (.finish .alreadyPending) }
        else
          some { s.setChannel id { channel with queue := channel.queue ++ [request] } with
            call := some (if channel.supportsSwitchAck then .store request.requestId
              else .finish .requestSent) }
  | _ => none

/-- The request that `dispatch` hands to a connection, and whether it supports
acknowledgements. -/
def handsOver (s : Switching) : Option (String × Bool) :=
  match s.call with
  | some (.choose request preferredId) =>
    (s.candidateId preferredId).bind fun id =>
      ((s.channel id).filter fun channel =>
        !channel.closed && decide (channel.queue.length < SWITCH_CHANNEL_CAPACITY)).map
          fun channel => (request.requestId, channel.supportsSwitchAck)
  | _ => none

def store (s : Switching) : Option Switching :=
  match s.call with
  | some (.store requestId) =>
    some { s with
      pendingSwitch := some ⟨s.pcId, requestId⟩
      call := some (.announce requestId) }
  | _ => none

def announce (s : Switching) : Option Switching :=
  match s.call with
  | some (.announce requestId) =>
    some { s with
      summary := some .switching, call := none, timers := requestId :: s.timers }
  | some (.finish status) => some { s with summary := some status, call := none }
  | _ => none

/-- The timer wakes up and takes the slot if it is still its own. -/
def fire (s : Switching) (requestId : String) : Option Switching :=
  if requestId ∉ s.timers then none
  else
    let s₁ := { s with timers := s.timers.erase requestId }
    if ∃ pending ∈ s.pendingSwitch, pending.requestId = requestId then
      some { s₁ with pendingSwitch := none, timedOut := requestId :: s.timedOut }
    else some s₁

def reportTimeout (s : Switching) (requestId : String) : Option Switching :=
  if requestId ∈ s.timedOut then
    some { s with
      timedOut := s.timedOut.erase requestId, summary := some .phoneDidNotRespond }
  else none

/-- `acknowledge_switch` up to its status. -/
def acknowledgeSwitch (s : Switching) (ack : SwitchAck) : Switching :=
  if ∃ pending ∈ s.pendingSwitch, pending.requestId = ack.requestId ∧ pending.pcId = ack.pcId then
    { s with pendingSwitch := none, answering := (ack.requestId, ack.accepted) :: s.answering }
  else s

def reportAnswer (s : Switching) (requestId : String) (accepted : Bool) : Option Switching :=
  if (requestId, accepted) ∈ s.answering then
    some { s with
      answering := s.answering.erase (requestId, accepted)
      summary := some (.answer accepted) }
  else none

end Switching

/-- An acknowledgement that has arrived. `inTime`: it is the first one for the latest
request, and the timer of the request has not fired. `changed`: it changes something. -/
structure SwitchAnswer where
  ack : SwitchAck
  inTime : Bool
  changed : Bool
  deriving DecidableEq, Repr

/-- A run remembers the tokens drawn, the request that was handed over last with
whether its connection supports acknowledgements, the timers that have fired, the
acknowledgements, and what was reported about which request, the latest first. -/
structure SwitchRun where
  app : Switching
  drawn : List String := []
  handed : List String := []
  latest : Option (String × Bool) := none
  fired : List String := []
  answers : List SwitchAnswer := []
  reports : List (String × SwitchStatus) := []
  deriving DecidableEq, Repr

namespace SwitchRun
open Machine

inductive Event
  | request (requestId : String)
  | dispatch
  | store
  | announce
  | fire (requestId : String)
  | reportTimeout (requestId : String)
  | acknowledge (ack : SwitchAck)
  | reportAnswer (requestId : String) (accepted : Bool)
  | registerChannel (id : Nat) (isControl supportsSwitchAck : Bool)
  | clearChannel (id : Nat)
  | closeChannel (id : Nat)
  /-- The connection takes a request out of its channel and sends it. -/
  | receive (id : Nat)
  | setActive (id : Option Nat)
  | setOnline (onlineConnections : List (Nat × Bool))
  | rename (pcName : String)
  deriving DecidableEq, Repr

def withApp (s : SwitchRun) (app : Switching) : SwitchRun := { s with app := app }

/-- The acknowledgement is the first one for the latest request, whose timer has not
fired. -/
def InTime (s : SwitchRun) (requestId : String) : Prop :=
  s.latest.map Prod.fst = some requestId ∧ requestId ∉ s.fired ∧
    ∀ answer ∈ s.answers, answer.inTime = true → answer.ack.requestId ≠ requestId

instance (s : SwitchRun) (requestId : String) : Decidable (s.InTime requestId) :=
  inferInstanceAs (Decidable (_ ∧ _ ∧ _))

def lastReport (s : SwitchRun) (requestId : String) : Option SwitchStatus :=
  s.reports.lookup requestId

/-- A random token is not drawn twice. -/
def stepRequest (s : SwitchRun) (requestId : String) : Option SwitchRun :=
  if requestId ∈ s.drawn then none
  else (s.app.begin requestId).map fun app =>
    { s with app := app, drawn := requestId :: s.drawn }

def stepDispatch (s : SwitchRun) : Option SwitchRun :=
  s.app.dispatch.map fun app =>
    match s.app.handsOver with
    | none => s.withApp app
    | some (requestId, supportsSwitchAck) =>
      { s with
        app := app
        handed := requestId :: s.handed
        latest := some (requestId, supportsSwitchAck) }

def stepAnnounce (s : SwitchRun) : Option SwitchRun :=
  s.app.announce.map fun app =>
    match s.app.call with
    | some (.announce requestId) =>
      { s with app := app, reports := (requestId, .switching) :: s.reports }
    | _ => s.withApp app

/-- Only a request that was handed over is acknowledged, and the connection checks the
computer first. -/
def stepAcknowledge (s : SwitchRun) (ack : SwitchAck) : Option SwitchRun :=
  if ack.requestId ∉ s.handed ∨ ack.pcId ≠ s.app.pcId then none
  else some { s with
    app := s.app.acknowledgeSwitch ack
    answers :=
      ⟨ack, decide (s.InTime ack.requestId), decide (s.app.acknowledgeSwitch ack ≠ s.app)⟩ ::
        s.answers }

def stepChannel (s : SwitchRun) (id : Nat) (update : SwitchChannel → Option SwitchChannel) :
    Option SwitchRun :=
  (s.app.channel id).bind fun channel =>
    (update channel).map fun channel => s.withApp (s.app.setChannel id channel)

def step (s : SwitchRun) : Event → Option SwitchRun
  | .request requestId => s.stepRequest requestId
  | .dispatch => s.stepDispatch
  | .store => s.app.store.map s.withApp
  | .announce => s.stepAnnounce
  | .fire requestId => (s.app.fire requestId).map fun app =>
    { s with app := app, fired := requestId :: s.fired }
  | .reportTimeout requestId => (s.app.reportTimeout requestId).map fun app =>
    { s with app := app, reports := (requestId, .phoneDidNotRespond) :: s.reports }
  | .acknowledge ack => s.stepAcknowledge ack
  | .reportAnswer requestId accepted => (s.app.reportAnswer requestId accepted).map fun app =>
    { s with app := app, reports := (requestId, .answer accepted) :: s.reports }
  | .registerChannel id isControl supportsSwitchAck =>
    some (s.withApp (s.app.setChannel id ⟨isControl, supportsSwitchAck, [], false⟩))
  | .clearChannel id => some (s.withApp (s.app.removeChannel id))
  | .closeChannel id => s.stepChannel id fun channel => some { channel with closed := true }
  | .receive id => s.stepChannel id fun channel =>
    if channel.queue = [] then none else some { channel with queue := channel.queue.tail }
  | .setActive id => some (s.withApp { s.app with activeConnection := id })
  | .setOnline onlineConnections =>
    some (s.withApp { s.app with onlineConnections := onlineConnections })
  | .rename pcName => some (s.withApp { s.app with pcName := pcName })

def start (pcId pcName : String) : SwitchRun := { app := { pcId, pcName } }

/-- The first acknowledgement of the latest request that comes in time is reported, and
nothing is reported about the request afterwards; all others change nothing. -/
def Sound (s : SwitchRun) : Prop :=
  ∀ answer ∈ s.answers, answer.changed = answer.inTime ∧ (answer.inTime = true →
    (answer.ack.requestId, answer.ack.accepted) ∈ s.app.answering ∨
      s.lastReport answer.ack.requestId = some (.answer answer.ack.accepted))

instance (s : SwitchRun) : Decidable s.Sound :=
  inferInstanceAs (Decidable (∀ answer ∈ s.answers, _ ∧ (_ → _ ∨ _)))

/-- The latest request went to a connection that supports acknowledgements, and its call
has stored it. -/
def Stored (s : SwitchRun) : Prop :=
  ∃ latest ∈ s.latest, latest.2 = true ∧ s.app.call ≠ some (.store latest.1)

instance (s : SwitchRun) : Decidable s.Stored :=
  inferInstanceAs (Decidable (∃ latest ∈ s.latest, _ ∧ _))

def Concerns (s : SwitchRun) (requestId : String) : Prop :=
  s.latest.map Prod.fst = some requestId ∨
    s.app.pendingSwitch.map (·.requestId) = some requestId

instance (s : SwitchRun) (requestId : String) : Decidable (s.Concerns requestId) :=
  inferInstanceAs (Decidable (_ ∨ _))

/-- An acknowledgement comes when the latest request is stored, and its answer is not
reported before the call has set its own status. -/
def SwitchOk (s : SwitchRun) : Event → Prop
  | .acknowledge ack => s.Concerns ack.requestId → s.Stored
  | .announce => ∀ requestId, s.app.call = some (.announce requestId) →
      s.lastReport requestId = none
  | _ => True

/-- The slot, the threads and the reports agree with what has arrived. -/
structure Inv (s : SwitchRun) : Prop where
  drawn : ∀ id ∈ s.handed, id ∈ s.drawn
  chosen : ∀ request preferredId, s.app.call = some (.choose request preferredId) →
    request.requestId ∈ s.drawn ∧ request.requestId ∉ s.handed
  timers : ∀ id ∈ s.app.timers, id ∈ s.handed
  timedOut : ∀ id ∈ s.app.timedOut, id ∈ s.fired
  fired : ∀ id ∈ s.fired, id ∈ s.handed
  answered : ∀ answer ∈ s.answers, answer.ack.requestId ∈ s.handed
  told : ∀ id, s.lastReport id ≠ none → id ∈ s.handed
  latest : ∀ latest ∈ s.latest, latest.1 ∈ s.handed
  storing : ∀ id, s.app.call = some (.store id) →
    s.latest = some (id, true) ∧ s.lastReport id = none
  announcing : ∀ id, s.app.call = some (.announce id) → s.latest = some (id, true) ∧
    id ∉ s.app.timers ∧ id ∉ s.fired ∧ (s.lastReport id ≠ none →
      ∃ answer ∈ s.answers, answer.inTime = true ∧ answer.ack.requestId = id ∧
        (id, answer.ack.accepted) ∉ s.app.answering)
  unstored : ¬ s.Stored → ∀ latest ∈ s.latest, latest.1 ∉ s.app.timers ∧ latest.1 ∉ s.fired ∧
    (∀ answer ∈ s.answers, answer.inTime = true → answer.ack.requestId ≠ latest.1) ∧
    s.app.pendingSwitch.map (·.requestId) ≠ some latest.1
  slot : ∀ pending ∈ s.app.pendingSwitch, pending.pcId = s.app.pcId ∧
    pending.requestId ∈ s.handed ∧ pending.requestId ∉ s.fired ∧
    ∀ answer ∈ s.answers, answer.inTime = true → answer.ack.requestId ≠ pending.requestId
  current : s.Stored → ∀ pending ∈ s.app.pendingSwitch,
    s.latest.map Prod.fst = some pending.requestId
  kept : s.Stored → ∀ latest ∈ s.latest, s.app.pendingSwitch ≠ none ∨ latest.1 ∈ s.fired ∨
    ∃ answer ∈ s.answers, answer.inTime = true ∧ answer.ack.requestId = latest.1
  expired : ∀ id ∈ s.app.timedOut, ∀ answer ∈ s.answers, answer.inTime = true →
    answer.ack.requestId ≠ id
  answering : ∀ id accepted, (id, accepted) ∈ s.app.answering → ∃ answer ∈ s.answers,
    answer.inTime = true ∧ answer.ack.requestId = id ∧ answer.ack.accepted = accepted
  once : s.app.answering.Nodup
  first : ∀ x ∈ s.answers, ∀ y ∈ s.answers, x.inTime = true → y.inTime = true →
    x.ack.requestId = y.ack.requestId → x = y

theorem start_inv (pcId pcName : String) : (start pcId pcName).Inv := by
  constructor <;> simp [start, lastReport, Stored]

theorem start_sound (pcId pcName : String) : (start pcId pcName).Sound := by
  simp [start, Sound]

structure Frame (s t : SwitchRun) : Prop where
  pcId : t.app.pcId = s.app.pcId
  call : t.app.call = s.app.call
  slot : t.app.pendingSwitch = s.app.pendingSwitch
  timers : t.app.timers = s.app.timers
  timedOut : t.app.timedOut = s.app.timedOut
  answering : t.app.answering = s.app.answering
  record : t = { s with app := t.app }

theorem Frame.stored {s t : SwitchRun} (h : Frame s t) : t.Stored ↔ s.Stored := by
  rw [h.record]
  simp only [Stored, h.call]

theorem Frame.inv {s t : SwitchRun} (h : Frame s t) (hinv : s.Inv) : t.Inv := by
  have hstored := h.stored
  obtain ⟨hpc, hcall, hslot, htimers, htimed, hanswering, hrecord⟩ := h
  rw [hrecord] at hstored ⊢
  constructor
  all_goals simp only [hpc, hcall, hslot, htimers, htimed, hanswering, lastReport, hstored]
  · exact hinv.drawn
  · exact hinv.chosen
  · exact hinv.timers
  · exact hinv.timedOut
  · exact hinv.fired
  · exact hinv.answered
  · exact hinv.told
  · exact hinv.latest
  · exact hinv.storing
  · exact hinv.announcing
  · exact hinv.unstored
  · exact hinv.slot
  · exact hinv.current
  · exact hinv.kept
  · exact hinv.expired
  · exact hinv.answering
  · exact hinv.once
  · exact hinv.first

theorem Frame.sound {s t : SwitchRun} (h : Frame s t) (hsound : s.Sound) : t.Sound := by
  have hanswering := h.answering
  rw [h.record]
  simpa only [Sound, hanswering, lastReport] using hsound

theorem lookup_report (id other : String) (status : SwitchStatus)
    (reports : List (String × SwitchStatus)) :
    List.lookup other ((id, status) :: reports) =
      if other = id then some status else reports.lookup other := by
  by_cases h : other = id
  · simp [h]
  · have hne : (other == id) = false := by simpa using h
    simp [List.lookup_cons, h, hne]

theorem stepRequest_keeps {s t : SwitchRun} {id : String} (hinv : s.Inv)
    (h : s.stepRequest id = some t) : t.Inv ∧ (s.Sound → t.Sound) := by
  unfold stepRequest at h
  split at h
  · cases h
  · next hnew =>
    obtain ⟨app, hbegin, rfl⟩ := Option.map_eq_some_iff.mp h
    unfold Switching.begin at hbegin
    split at hbegin
    · cases hbegin
    · next hcall =>
      cases hbegin
      have hstored : Stored { s with
          app := { s.app with call := some (.choose ⟨s.app.pcId, s.app.pcName, id⟩
            s.app.activeConnection) }
          drawn := id :: s.drawn } ↔ s.Stored := by
        simp [Stored, hcall]
      refine ⟨?_, fun hsound => hsound⟩
      constructor
      all_goals simp only [lastReport, hstored, reduceCtorEq, Option.some.injEq, false_implies,
        implies_true]
      · exact fun id' hid => List.mem_cons_of_mem _ (hinv.drawn id' hid)
      · intro request preferredId hchoose
        cases hchoose
        exact ⟨List.mem_cons_self, fun hhanded => hnew (hinv.drawn _ hhanded)⟩
      · exact hinv.timers
      · exact hinv.timedOut
      · exact hinv.fired
      · exact hinv.answered
      · exact hinv.told
      · exact hinv.latest
      · exact hinv.unstored
      · exact hinv.slot
      · exact hinv.current
      · exact hinv.kept
      · exact hinv.expired
      · exact hinv.answering
      · exact hinv.once
      · exact hinv.first

theorem call_keeps {s : SwitchRun} {call : Option SwitchCall} {summary : Option SwitchStatus}
    {channels : List (Nat × SwitchChannel)} (hinv : s.Inv)
    (hidle : ∀ id, s.app.call ≠ some (.store id))
    (hcall : ∀ c ∈ call, ∃ status, c = .finish status) :
    Inv { s with app := { s.app with
      call := call, summary := summary, switchChannels := channels } } := by
  have hnot : ∀ c, (∀ status, c ≠ SwitchCall.finish status) → call ≠ some c := by
    intro c hc heq
    obtain ⟨status, rfl⟩ := hcall c heq
    exact hc status rfl
  have hstored : Stored { s with app := { s.app with
      call := call, summary := summary, switchChannels := channels } } ↔ s.Stored := by
    have hstore : ∀ id, call ≠ some (.store id) := fun id => hnot _ (by simp)
    simp [Stored, hidle, hstore]
  constructor
  all_goals simp only [lastReport, hstored]
  · exact hinv.drawn
  · exact fun request preferredId hc => absurd hc (hnot _ (by simp))
  · exact hinv.timers
  · exact hinv.timedOut
  · exact hinv.fired
  · exact hinv.answered
  · exact hinv.told
  · exact hinv.latest
  · exact fun id hc => absurd hc (hnot _ (by simp))
  · exact fun id hc => absurd hc (hnot _ (by simp))
  · exact hinv.unstored
  · exact hinv.slot
  · exact hinv.current
  · exact hinv.kept
  · exact hinv.expired
  · exact hinv.answering
  · exact hinv.once
  · exact hinv.first

/-- What `dispatch` does: the call ends, or the request is handed over. -/
theorem dispatch_cases {s : SwitchRun} {app : Switching} (h : s.app.dispatch = some app) :
    ∃ request preferredId, s.app.call = some (.choose request preferredId) ∧
      ((s.app.handsOver = none ∧ ∃ status channels, app =
          { s.app with call := some (.finish status), switchChannels := channels }) ∨
        ∃ supports channels, s.app.handsOver = some (request.requestId, supports) ∧ app =
          { s.app with
            call := some (if supports then .store request.requestId else .finish .requestSent)
            switchChannels := channels }) := by
  unfold Switching.dispatch at h
  split at h
  · next request preferredId hcall =>
    refine ⟨request, preferredId, hcall, ?_⟩
    simp only [Switching.handsOver, hcall]
    split at h
    · next hcandidate =>
      cases h
      exact Or.inl ⟨by simp [hcandidate], .phoneNotConnected, _, rfl⟩
    · next id hcandidate =>
      split at h
      · next hchannel =>
        cases h
        exact Or.inl ⟨by simp [hcandidate, hchannel], .phoneDidNotRespond, _, rfl⟩
      · next channel hchannel =>
        split at h
        · next hclosed =>
          cases h
          refine Or.inl ⟨?_, .phoneDidNotRespond, _, rfl⟩
          simp [hcandidate, hchannel, hclosed, Option.filter]
        · next hopen =>
          split at h
          · next hfull =>
            cases h
            refine Or.inl ⟨?_, .alreadyPending, _, rfl⟩
            have hnot : ¬ channel.queue.length < SWITCH_CHANNEL_CAPACITY := by omega
            simp [hcandidate, hchannel, hnot, Option.filter]
          · next hroom =>
            cases h
            refine Or.inr ⟨channel.supportsSwitchAck, _, ?_, rfl⟩
            have hlt : channel.queue.length < SWITCH_CHANNEL_CAPACITY := by omega
            simp [hcandidate, hchannel, hopen, hlt, Option.filter]
  · cases h

theorem handed_keeps {s : SwitchRun} {id : String} {supports : Bool}
    {channels : List (Nat × SwitchChannel)} (hinv : s.Inv) (hdrawn : id ∈ s.drawn)
    (hnew : id ∉ s.handed) :
    Inv { s with
      app := { s.app with
        call := some (if supports then .store id else .finish .requestSent)
        switchChannels := channels }
      handed := id :: s.handed
      latest := some (id, supports) } := by
  have hstored : ¬ Stored { s with
      app := { s.app with
        call := some (if supports then .store id else .finish .requestSent)
        switchChannels := channels }
      handed := id :: s.handed
      latest := some (id, supports) } := by
    cases supports <;> simp [Stored]
  have hreport : s.lastReport id = none := by
    by_contra htold
    exact hnew (hinv.told id htold)
  constructor
  all_goals simp only [lastReport, hstored, false_implies]
  · intro other hother
    rcases List.mem_cons.mp hother with rfl | hold
    · exact hdrawn
    · exact hinv.drawn other hold
  · intro request preferredId hcall
    cases supports <;> cases hcall
  · exact fun other h => List.mem_cons_of_mem _ (hinv.timers other h)
  · exact hinv.timedOut
  · exact fun other h => List.mem_cons_of_mem _ (hinv.fired other h)
  · exact fun answer h => List.mem_cons_of_mem _ (hinv.answered answer h)
  · exact fun other h => List.mem_cons_of_mem _ (hinv.told other h)
  · rintro latest ⟨⟩
    exact List.mem_cons_self
  · intro other hcall
    cases supports with
    | false => cases hcall
    | true =>
      cases hcall
      exact ⟨rfl, hreport⟩
  · intro other hcall
    cases supports <;> cases hcall
  · rintro - latest ⟨⟩
    refine ⟨fun h => hnew (hinv.timers id h), fun h => hnew (hinv.fired id h), ?_, ?_⟩
    · intro answer hanswer _ heq
      have hid : answer.ack.requestId = id := heq
      have hhanded := hinv.answered answer hanswer
      rw [hid] at hhanded
      exact hnew hhanded
    · intro hslot
      obtain ⟨pending, hpending, heq⟩ := Option.map_eq_some_iff.mp hslot
      have hid : pending.requestId = id := heq
      have hhanded := (hinv.slot pending hpending).2.1
      rw [hid] at hhanded
      exact hnew hhanded
  · intro pending hpending
    obtain ⟨hpc, hhanded, hrest⟩ := hinv.slot pending hpending
    exact ⟨hpc, List.mem_cons_of_mem _ hhanded, hrest⟩
  · exact hinv.expired
  · exact hinv.answering
  · exact hinv.once
  · exact hinv.first

theorem stepDispatch_keeps {s t : SwitchRun} (hinv : s.Inv) (h : s.stepDispatch = some t) :
    t.Inv ∧ (s.Sound → t.Sound) := by
  obtain ⟨app, hdispatch, rfl⟩ := Option.map_eq_some_iff.mp h
  obtain ⟨request, preferredId, hcall, hcases⟩ := dispatch_cases hdispatch
  rcases hcases with ⟨hover, status, channels, rfl⟩ | ⟨supports, channels, hover, rfl⟩
  · rw [hover]
    refine ⟨?_, fun hsound => hsound⟩
    apply call_keeps hinv
    · simp [hcall]
    · rintro c ⟨⟩
      exact ⟨status, rfl⟩
  · rw [hover]
    obtain ⟨hdrawn, hnew⟩ := hinv.chosen request preferredId hcall
    exact ⟨handed_keeps hinv hdrawn hnew, fun hsound => hsound⟩

theorem store_keeps {s : SwitchRun} {app : Switching} (hinv : s.Inv)
    (h : s.app.store = some app) : (s.withApp app).Inv ∧ (s.Sound → (s.withApp app).Sound) := by
  unfold Switching.store at h
  split at h
  · next id hcall =>
    cases h
    obtain ⟨hlatest, hreport⟩ := hinv.storing id hcall
    have hunstored : ¬ s.Stored := by simp [Stored, hlatest, hcall]
    obtain ⟨htimers, hfired, hanswers, -⟩ := hinv.unstored hunstored _ hlatest
    have hhanded : id ∈ s.handed := hinv.latest _ hlatest
    have hstored : Stored (s.withApp { s.app with
        pendingSwitch := some ⟨s.app.pcId, id⟩, call := some (.announce id) }) := by
      simp [Stored, withApp, hlatest]
    refine ⟨?_, fun hsound => hsound⟩
    constructor
    · exact hinv.drawn
    · rintro request preferredId ⟨⟩
    · exact hinv.timers
    · exact hinv.timedOut
    · exact hinv.fired
    · exact hinv.answered
    · exact hinv.told
    · exact hinv.latest
    · rintro other ⟨⟩
    · rintro other ⟨⟩
      exact ⟨hlatest, htimers, hfired, fun htold => absurd hreport htold⟩
    · exact fun hnot => absurd hstored hnot
    · rintro pending ⟨⟩
      exact ⟨rfl, hhanded, hfired, hanswers⟩
    · rintro - pending ⟨⟩
      simp [withApp, hlatest]
    · exact fun _ latest _ => Or.inl (Option.some_ne_none _)
    · exact hinv.expired
    · exact hinv.answering
    · exact hinv.once
    · exact hinv.first
  · cases h

theorem lastReport_cons (s : SwitchRun) (app : Switching) (id other : String)
    (status : SwitchStatus) :
    lastReport { s with app := app, reports := (id, status) :: s.reports } other =
      if other = id then some status else s.lastReport other :=
  lookup_report id other status s.reports

/-- A report about a request that nobody acknowledges is no loss. -/
theorem Sound.report {s : SwitchRun} {app : Switching} {id : String} {status : SwitchStatus}
    (hsound : s.Sound) (hsame : app.answering = s.app.answering)
    (hunanswered : ∀ answer ∈ s.answers, answer.inTime = true → answer.ack.requestId ≠ id) :
    Sound { s with app := app, reports := (id, status) :: s.reports } := by
  intro answer hanswer
  obtain ⟨hchanged, hreported⟩ := hsound answer hanswer
  refine ⟨hchanged, fun hin => ?_⟩
  rw [lastReport_cons, if_neg (hunanswered answer hanswer hin), hsame]
  exact hreported hin

theorem stepAnnounce_keeps {s t : SwitchRun} (hinv : s.Inv) (hsound : s.Sound)
    (h : s.stepAnnounce = some t) :
    (t.Sound ↔ s.SwitchOk .announce) ∧ (s.SwitchOk .announce → t.Inv) := by
  obtain ⟨app, hannounce, rfl⟩ := Option.map_eq_some_iff.mp h
  unfold Switching.announce at hannounce
  split at hannounce
  · next id hcall =>
    cases hannounce
    obtain ⟨hlatest, htimers, hfired, htold⟩ := hinv.announcing id hcall
    have hhanded : id ∈ s.handed := hinv.latest _ hlatest
    have hok : s.SwitchOk .announce ↔ s.lastReport id = none := by
      simp [SwitchOk, hcall]
    rw [hok, hcall]
    constructor
    · constructor
      · -- a report there was cannot be the last one any more
        intro hafter
        by_contra hbefore
        obtain ⟨answer, hanswer, hin, rfl, hgone⟩ := htold hbefore
        rcases (hafter answer hanswer).2 hin with hwaits | hlast
        · exact hgone hwaits
        · rw [lastReport_cons, if_pos rfl] at hlast
          cases haccepted : answer.ack.accepted <;> rw [haccepted] at hlast <;> cases hlast
      · intro hnone answer hanswer
        obtain ⟨hchanged, hreported⟩ := hsound answer hanswer
        refine ⟨hchanged, fun hin => ?_⟩
        by_cases hid : answer.ack.requestId = id
        · rcases hreported hin with hwaits | hlast
          · exact Or.inl hwaits
          · rw [hid, hnone] at hlast
            cases hlast
        · rw [lastReport_cons, if_neg hid]
          exact hreported hin
    · intro hnone
      have hstored : s.Stored := by simp [Stored, hlatest, hcall]
      constructor
      · exact hinv.drawn
      · rintro request preferredId ⟨⟩
      · intro other hother
        rcases List.mem_cons.mp hother with rfl | hold
        · exact hhanded
        · exact hinv.timers other hold
      · exact hinv.timedOut
      · exact hinv.fired
      · exact hinv.answered
      · intro other hother
        rw [lastReport_cons] at hother
        by_cases hid : other = id
        · exact hid ▸ hhanded
        · rw [if_neg hid] at hother
          exact hinv.told other hother
      · exact hinv.latest
      · rintro other ⟨⟩
      · rintro other ⟨⟩
      · intro hnot
        exact absurd (by simp [Stored, hlatest]) hnot
      · exact hinv.slot
      · exact fun _ => hinv.current hstored
      · exact fun _ => hinv.kept hstored
      · exact hinv.expired
      · exact hinv.answering
      · exact hinv.once
      · exact hinv.first
  · next status hcall =>
    cases hannounce
    have hok : s.SwitchOk .announce := by simp [SwitchOk, hcall]
    rw [hcall]
    refine ⟨iff_of_true hsound hok, fun _ => ?_⟩
    apply call_keeps hinv
    · simp [hcall]
    · rintro c ⟨⟩
  · cases hannounce

theorem fire_keeps {s : SwitchRun} {app : Switching} {id : String} (hinv : s.Inv)
    (h : s.app.fire id = some app) :
    Inv { s with app := app, fired := id :: s.fired } ∧
      (s.Sound → Sound { s with app := app, fired := id :: s.fired }) := by
  unfold Switching.fire at h
  split at h
  · cases h
  · next hsleeping =>
    have htimer : id ∈ s.app.timers := not_not.mp hsleeping
    have hhanded : id ∈ s.handed := hinv.timers id htimer
    have hfired : ∀ other ∈ id :: s.fired, other ∈ s.handed := by
      intro other hother
      rcases List.mem_cons.mp hother with rfl | hold
      · exact hhanded
      · exact hinv.fired other hold
    have hother : ∀ other, other ∉ s.app.timers → other ∉ s.fired → other ∉ id :: s.fired := by
      intro other hsleep hold hmem
      rcases List.mem_cons.mp hmem with rfl | hmem
      · exact hsleep htimer
      · exact hold hmem
    have hsleep : ∀ other, other ∉ s.app.timers → other ∉ s.app.timers.erase id :=
      fun other hnot hmem => hnot (List.mem_of_mem_erase hmem)
    dsimp only at h
    split at h
    · next hslot =>
      obtain ⟨pending, hpending, hid⟩ := hslot
      cases h
      obtain ⟨-, -, -, hunanswered⟩ := hinv.slot pending hpending
      rw [hid] at hunanswered
      refine ⟨?_, fun hsound => hsound⟩
      constructor
      · exact hinv.drawn
      · exact hinv.chosen
      · exact fun other h => hinv.timers other (List.mem_of_mem_erase h)
      · intro other hmem
        rcases List.mem_cons.mp hmem with rfl | hold
        · exact List.mem_cons_self
        · exact List.mem_cons_of_mem _ (hinv.timedOut other hold)
      · exact hfired
      · exact hinv.answered
      · exact hinv.told
      · exact hinv.latest
      · exact hinv.storing
      · intro other hcall
        obtain ⟨hlatest, htimers, hold, htold⟩ := hinv.announcing other hcall
        exact ⟨hlatest, hsleep other htimers, hother other htimers hold, htold⟩
      · intro hnot latest hlatest
        obtain ⟨htimers, hold, hanswers, -⟩ := hinv.unstored hnot latest hlatest
        exact ⟨hsleep _ htimers, hother _ htimers hold, hanswers, by simp⟩
      · rintro p ⟨⟩
      · rintro - p ⟨⟩
      · intro hstored latest hlatest
        have hcurrent := hinv.current hstored pending hpending
        rw [hlatest, hid] at hcurrent
        refine Or.inr (Or.inl ?_)
        rw [show latest.1 = id from Option.some.inj hcurrent]
        exact List.mem_cons_self
      · intro other hmem
        rcases List.mem_cons.mp hmem with rfl | hold
        · exact hunanswered
        · exact hinv.expired other hold
      · exact hinv.answering
      · exact hinv.once
      · exact hinv.first
    · next hslot =>
      cases h
      refine ⟨?_, fun hsound => hsound⟩
      constructor
      · exact hinv.drawn
      · exact hinv.chosen
      · exact fun other h => hinv.timers other (List.mem_of_mem_erase h)
      · exact fun other hmem => List.mem_cons_of_mem _ (hinv.timedOut other hmem)
      · exact hfired
      · exact hinv.answered
      · exact hinv.told
      · exact hinv.latest
      · exact hinv.storing
      · intro other hcall
        obtain ⟨hlatest, htimers, hold, htold⟩ := hinv.announcing other hcall
        exact ⟨hlatest, hsleep other htimers, hother other htimers hold, htold⟩
      · intro hnot latest hlatest
        obtain ⟨htimers, hold, hanswers, hslot'⟩ := hinv.unstored hnot latest hlatest
        exact ⟨hsleep _ htimers, hother _ htimers hold, hanswers, hslot'⟩
      · intro pending hpending
        obtain ⟨hpc, hhanded', hold, hunanswered⟩ := hinv.slot pending hpending
        refine ⟨hpc, hhanded', ?_, hunanswered⟩
        intro hmem
        rcases List.mem_cons.mp hmem with heq | hmem
        · exact hslot ⟨pending, hpending, heq⟩
        · exact hold hmem
      · exact hinv.current
      · intro hstored latest hlatest
        rcases hinv.kept hstored latest hlatest with hkept | hold | hanswered
        · exact Or.inl hkept
        · exact Or.inr (Or.inl (List.mem_cons_of_mem _ hold))
        · exact Or.inr (Or.inr hanswered)
      · exact hinv.expired
      · exact hinv.answering
      · exact hinv.once
      · exact hinv.first

theorem reportTimeout_keeps {s : SwitchRun} {app : Switching} {id : String} (hinv : s.Inv)
    (h : s.app.reportTimeout id = some app) :
    Inv { s with app := app, reports := (id, .phoneDidNotRespond) :: s.reports } ∧
      (s.Sound → Sound
        { s with app := app, reports := (id, .phoneDidNotRespond) :: s.reports }) := by
  unfold Switching.reportTimeout at h
  split at h
  · next htimed =>
    cases h
    have hfired : id ∈ s.fired := hinv.timedOut id htimed
    have hhanded : id ∈ s.handed := hinv.fired id hfired
    have hexpired := hinv.expired id htimed
    refine ⟨?_, fun hsound => hsound.report rfl hexpired⟩
    constructor
    all_goals simp only [lastReport_cons]
    · exact hinv.drawn
    · exact hinv.chosen
    · exact hinv.timers
    · exact fun other h => hinv.timedOut other (List.mem_of_mem_erase h)
    · exact hinv.fired
    · exact hinv.answered
    · intro other hother
      by_cases hid : other = id
      · exact hid ▸ hhanded
      · rw [if_neg hid] at hother
        exact hinv.told other hother
    · exact hinv.latest
    · intro other hcall
      obtain ⟨hlatest, hnone⟩ := hinv.storing other hcall
      have hunstored : ¬ s.Stored := by simp [Stored, hlatest, hcall]
      obtain ⟨-, hold, -, -⟩ := hinv.unstored hunstored _ hlatest
      have hid : other ≠ id := fun heq => hold (heq ▸ hfired)
      rw [if_neg hid]
      exact ⟨hlatest, hnone⟩
    · intro other hcall
      obtain ⟨hlatest, htimers, hold, htold⟩ := hinv.announcing other hcall
      have hid : other ≠ id := fun heq => hold (heq ▸ hfired)
      rw [if_neg hid]
      exact ⟨hlatest, htimers, hold, htold⟩
    · exact hinv.unstored
    · exact hinv.slot
    · exact hinv.current
    · exact hinv.kept
    · exact fun other h => hinv.expired other (List.mem_of_mem_erase h)
    · exact hinv.answering
    · exact hinv.once
    · exact hinv.first
  · cases h

theorem reportAnswer_keeps {s : SwitchRun} {app : Switching} {id : String} {accepted : Bool}
    (hinv : s.Inv) (h : s.app.reportAnswer id accepted = some app) :
    Inv { s with app := app, reports := (id, .answer accepted) :: s.reports } ∧
      (s.Sound → Sound
        { s with app := app, reports := (id, .answer accepted) :: s.reports }) := by
  unfold Switching.reportAnswer at h
  split at h
  · next hwaits =>
    cases h
    obtain ⟨told, htold, hin, hid, haccepted⟩ := hinv.answering id accepted hwaits
    have hhanded : id ∈ s.handed := by
      rw [← hid]
      exact hinv.answered told htold
    have hgone : (id, accepted) ∉ s.app.answering.erase (id, accepted) :=
      hinv.once.not_mem_erase
    have hunique : ∀ answer ∈ s.answers, answer.inTime = true →
        answer.ack.requestId = id → answer = told := fun answer hanswer hin' hid' =>
      hinv.first answer hanswer told htold hin' hin (hid'.trans hid.symm)
    refine ⟨?_, ?_⟩
    · constructor
      all_goals simp only [lastReport_cons]
      · exact hinv.drawn
      · exact hinv.chosen
      · exact hinv.timers
      · exact hinv.timedOut
      · exact hinv.fired
      · exact hinv.answered
      · intro other hother
        by_cases heq : other = id
        · exact heq ▸ hhanded
        · rw [if_neg heq] at hother
          exact hinv.told other hother
      · exact hinv.latest
      · intro other hcall
        obtain ⟨hlatest, hnone⟩ := hinv.storing other hcall
        have hunstored : ¬ s.Stored := by simp [Stored, hlatest, hcall]
        obtain ⟨-, -, hanswers, -⟩ := hinv.unstored hunstored _ hlatest
        have hne : other ≠ id := fun heq => hanswers told htold hin (hid.trans heq.symm)
        rw [if_neg hne]
        exact ⟨hlatest, hnone⟩
      · intro other hcall
        obtain ⟨hlatest, htimers, hfired, hother⟩ := hinv.announcing other hcall
        refine ⟨hlatest, htimers, hfired, fun hlast => ?_⟩
        by_cases heq : other = id
        · rw [heq]
          exact ⟨told, htold, hin, hid, haccepted ▸ hgone⟩
        · rw [if_neg heq] at hlast
          obtain ⟨answer, hanswer, hin', hid', hnot⟩ := hother hlast
          exact ⟨answer, hanswer, hin', hid', fun hmem => hnot (List.mem_of_mem_erase hmem)⟩
      · exact hinv.unstored
      · exact hinv.slot
      · exact hinv.current
      · exact hinv.kept
      · exact hinv.expired
      · exact fun other b h => hinv.answering other b (List.mem_of_mem_erase h)
      · exact hinv.once.erase _
      · exact hinv.first
    · intro hsound answer hanswer
      obtain ⟨hchanged, hreported⟩ := hsound answer hanswer
      refine ⟨hchanged, fun hin' => ?_⟩
      rw [lastReport_cons]
      by_cases heq : answer.ack.requestId = id
      · have hsame := hunique answer hanswer hin' heq
        rw [if_pos heq, hsame, haccepted]
        exact Or.inr rfl
      · rw [if_neg heq]
        rcases hreported hin' with hmem | hlast
        · refine Or.inl ((List.mem_erase_of_ne ?_).mpr hmem)
          exact fun hpair => heq (Prod.mk.inj hpair).1
        · exact Or.inr hlast
  · cases h

theorem acknowledge_taken {s : SwitchRun} {ack : SwitchAck} {pending : PendingSwitch}
    (hslot : s.app.pendingSwitch = some pending) (hid : pending.requestId = ack.requestId)
    (hpc : pending.pcId = ack.pcId) :
    s.app.acknowledgeSwitch ack = { s.app with
      pendingSwitch := none, answering := (ack.requestId, ack.accepted) :: s.app.answering } := by
  unfold Switching.acknowledgeSwitch
  rw [if_pos ⟨pending, hslot, hid, hpc⟩]

theorem acknowledge_ignored {s : SwitchRun} {ack : SwitchAck}
    (h : s.app.pendingSwitch.map (·.requestId) ≠ some ack.requestId) :
    s.app.acknowledgeSwitch ack = s.app := by
  unfold Switching.acknowledgeSwitch
  rw [if_neg]
  rintro ⟨pending, hslot, hid, -⟩
  apply h
  rw [show s.app.pendingSwitch = some pending from hslot]
  exact congrArg some hid

/-- The answer that takes the slot is the first one in time. -/
theorem inTime_of_slot {s : SwitchRun} {pending : PendingSwitch} (hinv : s.Inv)
    (hslot : pending ∈ s.app.pendingSwitch) (hstored : s.Stored) : s.InTime pending.requestId := by
  obtain ⟨-, -, hfired, hunanswered⟩ := hinv.slot pending hslot
  exact ⟨hinv.current hstored pending hslot, hfired, hunanswered⟩

theorem taken_keeps {s : SwitchRun} {ack : SwitchAck} {pending : PendingSwitch} {changed : Bool}
    (hinv : s.Inv) (hslot : s.app.pendingSwitch = some pending)
    (hid : pending.requestId = ack.requestId) (hstored : s.Stored) :
    Inv { s with
      app := { s.app with
        pendingSwitch := none
        answering := (ack.requestId, ack.accepted) :: s.app.answering }
      answers := ⟨ack, true, changed⟩ :: s.answers } := by
  obtain ⟨-, hhanded, hfired, hunanswered⟩ := hinv.slot pending hslot
  have hcurrent := hinv.current hstored pending hslot
  rw [hid] at hhanded hfired hunanswered hcurrent
  constructor
  · exact hinv.drawn
  · exact hinv.chosen
  · exact hinv.timers
  · exact hinv.timedOut
  · exact hinv.fired
  · intro answer hanswer
    rcases List.mem_cons.mp hanswer with rfl | hold
    · exact hhanded
    · exact hinv.answered answer hold
  · exact hinv.told
  · exact hinv.latest
  · exact hinv.storing
  · intro other hcall
    obtain ⟨hlatest, htimers, hnot, htold⟩ := hinv.announcing other hcall
    refine ⟨hlatest, htimers, hnot, fun hlast => ?_⟩
    obtain ⟨answer, hanswer, hin, rfl, hgone⟩ := htold hlast
    refine ⟨answer, List.mem_cons_of_mem _ hanswer, hin, rfl, fun hmem => ?_⟩
    rcases List.mem_cons.mp hmem with heq | hold
    · exact hunanswered answer hanswer hin (Prod.mk.inj heq).1
    · exact hgone hold
  · exact fun hnot => absurd hstored hnot
  · rintro p ⟨⟩
  · rintro - p ⟨⟩
  · intro _ latest hlatest
    have hsame : latest.1 = ack.requestId := by
      rw [hlatest] at hcurrent
      exact Option.some.inj hcurrent
    exact Or.inr (Or.inr ⟨_, List.mem_cons_self, rfl, hsame.symm⟩)
  · intro other hmem answer hanswer hin
    rcases List.mem_cons.mp hanswer with rfl | hold
    · exact fun heq => hfired (heq ▸ hinv.timedOut other hmem)
    · exact hinv.expired other hmem answer hold hin
  · intro other accepted hmem
    rcases List.mem_cons.mp hmem with heq | hold
    · obtain ⟨rfl, rfl⟩ := Prod.mk.inj heq
      exact ⟨_, List.mem_cons_self, rfl, rfl, rfl⟩
    · obtain ⟨answer, hanswer, hrest⟩ := hinv.answering other accepted hold
      exact ⟨answer, List.mem_cons_of_mem _ hanswer, hrest⟩
  · refine List.nodup_cons.mpr ⟨fun hmem => ?_, hinv.once⟩
    obtain ⟨answer, hanswer, hin, heq, -⟩ := hinv.answering _ _ hmem
    exact hunanswered answer hanswer hin heq
  · intro x hx y hy hxin hyin heq
    rcases List.mem_cons.mp hx with rfl | hx
    · rcases List.mem_cons.mp hy with rfl | hy
      · rfl
      · exact absurd heq.symm (hunanswered y hy hyin)
    · rcases List.mem_cons.mp hy with rfl | hy
      · exact absurd heq (hunanswered x hx hxin)
      · exact hinv.first x hx y hy hxin hyin heq

theorem ignored_keeps {s : SwitchRun} {ack : SwitchAck} {changed : Bool} (hinv : s.Inv)
    (hhanded : ack.requestId ∈ s.handed) :
    Inv { s with answers := ⟨ack, false, changed⟩ :: s.answers } := by
  -- only answers in time matter
  have hold : ∀ {P : SwitchAnswer → Prop}, (∀ answer ∈ s.answers, answer.inTime = true → P answer) →
      ∀ answer ∈ (⟨ack, false, changed⟩ : SwitchAnswer) :: s.answers, answer.inTime = true →
        P answer := by
    intro P hP answer hanswer hin
    rcases List.mem_cons.mp hanswer with rfl | hmem
    · cases hin
    · exact hP answer hmem hin
  constructor
  · exact hinv.drawn
  · exact hinv.chosen
  · exact hinv.timers
  · exact hinv.timedOut
  · exact hinv.fired
  · intro answer hanswer
    rcases List.mem_cons.mp hanswer with rfl | hmem
    · exact hhanded
    · exact hinv.answered answer hmem
  · exact hinv.told
  · exact hinv.latest
  · exact hinv.storing
  · intro other hcall
    obtain ⟨hlatest, htimers, hfired, htold⟩ := hinv.announcing other hcall
    refine ⟨hlatest, htimers, hfired, fun hlast => ?_⟩
    obtain ⟨answer, hanswer, hrest⟩ := htold hlast
    exact ⟨answer, List.mem_cons_of_mem _ hanswer, hrest⟩
  · intro hnot latest hlatest
    obtain ⟨htimers, hfired, hanswers, hslot⟩ := hinv.unstored hnot latest hlatest
    exact ⟨htimers, hfired, hold hanswers, hslot⟩
  · intro pending hpending
    obtain ⟨hpc, hmem, hfired, hunanswered⟩ := hinv.slot pending hpending
    exact ⟨hpc, hmem, hfired, hold hunanswered⟩
  · exact hinv.current
  · intro hstored latest hlatest
    rcases hinv.kept hstored latest hlatest with hkept | hfired | ⟨answer, hanswer, hrest⟩
    · exact Or.inl hkept
    · exact Or.inr (Or.inl hfired)
    · exact Or.inr (Or.inr ⟨answer, List.mem_cons_of_mem _ hanswer, hrest⟩)
  · exact fun other hmem => hold (hinv.expired other hmem)
  · intro other accepted hmem
    obtain ⟨answer, hanswer, hrest⟩ := hinv.answering other accepted hmem
    exact ⟨answer, List.mem_cons_of_mem _ hanswer, hrest⟩
  · exact hinv.once
  · intro x hx y hy hxin hyin
    exact hold (P := fun x => x.ack.requestId = y.ack.requestId → x = y)
      (fun x hx hxin => hold (P := fun y => x.ack.requestId = y.ack.requestId → x = y)
        (fun y hy hyin => hinv.first x hx y hy hxin hyin) y hy hyin) x hx hxin

/-- A stored request that is in time is in the slot. -/
theorem slot_of_inTime {s : SwitchRun} {id : String} (hinv : s.Inv) (hstored : s.Stored)
    (hin : s.InTime id) : s.app.pendingSwitch.map (·.requestId) = some id := by
  obtain ⟨hlatest, hfired, hunanswered⟩ := hin
  obtain ⟨latest, hmem, hid⟩ := Option.map_eq_some_iff.mp hlatest
  rcases hinv.kept hstored latest hmem with hkept | hfired' | ⟨answer, hanswer, hin, heq⟩
  · obtain ⟨pending, hslot⟩ := Option.ne_none_iff_exists'.mp hkept
    have hcurrent := hinv.current hstored pending hslot
    rw [hslot]
    exact hcurrent.symm.trans hlatest
  · exact absurd (hid ▸ hfired') hfired
  · exact absurd (heq.trans hid) (hunanswered answer hanswer hin)

theorem stepAcknowledge_keeps {s t : SwitchRun} {ack : SwitchAck} (hinv : s.Inv)
    (hsound : s.Sound) (h : s.stepAcknowledge ack = some t) :
    (t.Sound ↔ s.SwitchOk (.acknowledge ack)) ∧ (s.SwitchOk (.acknowledge ack) → t.Inv) := by
  unfold stepAcknowledge at h
  split at h
  · cases h
  · next hchecked =>
    push Not at hchecked
    obtain ⟨hhanded, hpcId⟩ := hchecked
    cases h
    by_cases hslot : s.app.pendingSwitch.map (·.requestId) = some ack.requestId
    · obtain ⟨pending, hpending, hid⟩ := Option.map_eq_some_iff.mp hslot
      have hpc : pending.pcId = ack.pcId := (hinv.slot pending hpending).1.trans hpcId.symm
      have htaken := acknowledge_taken hpending hid hpc
      have hchanged : s.app.acknowledgeSwitch ack ≠ s.app := by
        intro heq
        have hnone := congrArg Switching.pendingSwitch (htaken.symm.trans heq)
        rw [hpending] at hnone
        cases hnone
      have hok : s.SwitchOk (.acknowledge ack) ↔ s.Stored :=
        ⟨fun hok => hok (Or.inr hslot), fun hstored _ => hstored⟩
      have hin : s.InTime ack.requestId ↔ s.Stored := by
        constructor
        · intro hin
          by_contra hnot
          obtain ⟨latest, hlatest, hsame⟩ := Option.map_eq_some_iff.mp hin.1
          obtain ⟨-, -, -, hother⟩ := hinv.unstored hnot latest hlatest
          rw [hsame] at hother
          exact hother hslot
        · intro hstored
          rw [← hid]
          exact inTime_of_slot hinv hpending hstored
      rw [hok, ← hin, decide_eq_true hchanged, htaken]
      constructor
      · constructor
        · intro hafter
          have hnew : true = decide (s.InTime ack.requestId) := (hafter _ List.mem_cons_self).1
          exact of_decide_eq_true hnew.symm
        · intro htime answer hanswer
          rcases List.mem_cons.mp hanswer with rfl | hmem
          · exact ⟨(decide_eq_true htime).symm, fun _ => Or.inl List.mem_cons_self⟩
          · obtain ⟨hsame, hreported⟩ := hsound answer hmem
            refine ⟨hsame, fun htime' => ?_⟩
            rcases hreported htime' with hwaits | hlast
            · exact Or.inl (List.mem_cons_of_mem _ hwaits)
            · exact Or.inr hlast
      · intro htime
        rw [decide_eq_true htime]
        exact taken_keeps hinv hpending hid (hin.mp htime)
    · have hignored := acknowledge_ignored hslot
      have hok : s.SwitchOk (.acknowledge ack) ↔ ¬ s.InTime ack.requestId := by
        constructor
        · intro hok htime
          exact hslot (slot_of_inTime hinv (hok (Or.inl htime.1)) htime)
        · intro hlate hconcerns
          by_contra hnot
          obtain hlatest := hconcerns.resolve_right hslot
          obtain ⟨latest, hmem, hid⟩ := Option.map_eq_some_iff.mp hlatest
          obtain ⟨-, hfired, hanswers, -⟩ := hinv.unstored hnot latest hmem
          rw [hid] at hfired hanswers
          exact hlate ⟨hlatest, hfired, hanswers⟩
      rw [hok, hignored]
      constructor
      · constructor
        · intro hafter htime
          have hnew := (hafter _ List.mem_cons_self).1
          rw [decide_eq_true htime] at hnew
          exact absurd hnew (by simp)
        · intro hlate answer hanswer
          rcases List.mem_cons.mp hanswer with rfl | hmem
          · rw [decide_eq_false hlate]
            exact ⟨by simp, fun h => by cases h⟩
          · exact hsound answer hmem
      · intro hlate
        rw [decide_eq_false hlate]
        exact ignored_keeps hinv hhanded

theorem frame_channels (s : SwitchRun) (channels : List (Nat × SwitchChannel)) :
    Frame s (s.withApp { s.app with switchChannels := channels }) :=
  ⟨rfl, rfl, rfl, rfl, rfl, rfl, rfl⟩

theorem frame_stepChannel {s t : SwitchRun} {id : Nat}
    {update : SwitchChannel → Option SwitchChannel} (h : s.stepChannel id update = some t) :
    Frame s t := by
  obtain ⟨channel, -, h⟩ := Option.bind_eq_some_iff.mp h
  obtain ⟨channel', -, rfl⟩ := Option.map_eq_some_iff.mp h
  exact frame_channels s _

theorem step_keeps {s t : SwitchRun} {e : Event} (hinv : s.Inv) (hsound : s.Sound)
    (h : s.step e = some t) : (t.Sound ↔ s.SwitchOk e) ∧ (s.SwitchOk e → t.Inv) := by
  -- every event but two keeps both without a condition
  have hkept : t.Inv ∧ (s.Sound → t.Sound) → s.SwitchOk e →
      (t.Sound ↔ s.SwitchOk e) ∧ (s.SwitchOk e → t.Inv) :=
    fun hboth hok => ⟨iff_of_true (hboth.2 hsound) hok, fun _ => hboth.1⟩
  have hframe : Frame s t → t.Inv ∧ (s.Sound → t.Sound) :=
    fun hframe => ⟨hframe.inv hinv, hframe.sound⟩
  cases e with
  | request requestId => exact hkept (stepRequest_keeps hinv h) trivial
  | dispatch => exact hkept (stepDispatch_keeps hinv h) trivial
  | store =>
    obtain ⟨app, hstore, rfl⟩ := Option.map_eq_some_iff.mp h
    exact hkept (store_keeps hinv hstore) trivial
  | announce => exact stepAnnounce_keeps hinv hsound h
  | fire requestId =>
    obtain ⟨app, hfire, rfl⟩ := Option.map_eq_some_iff.mp h
    exact hkept (fire_keeps hinv hfire) trivial
  | reportTimeout requestId =>
    obtain ⟨app, hreport, rfl⟩ := Option.map_eq_some_iff.mp h
    exact hkept (reportTimeout_keeps hinv hreport) trivial
  | acknowledge ack => exact stepAcknowledge_keeps hinv hsound h
  | reportAnswer requestId accepted =>
    obtain ⟨app, hreport, rfl⟩ := Option.map_eq_some_iff.mp h
    exact hkept (reportAnswer_keeps hinv hreport) trivial
  | registerChannel id isControl supportsSwitchAck =>
    cases h
    exact hkept (hframe (frame_channels s _)) trivial
  | clearChannel id =>
    cases h
    exact hkept (hframe (frame_channels s _)) trivial
  | closeChannel id => exact hkept (hframe (frame_stepChannel h)) trivial
  | receive id => exact hkept (hframe (frame_stepChannel h)) trivial
  | setActive id =>
    cases h
    exact hkept (hframe ⟨rfl, rfl, rfl, rfl, rfl, rfl, rfl⟩) trivial
  | setOnline onlineConnections =>
    cases h
    exact hkept (hframe ⟨rfl, rfl, rfl, rfl, rfl, rfl, rfl⟩) trivial
  | rename pcName =>
    cases h
    exact hkept (hframe ⟨rfl, rfl, rfl, rfl, rfl, rfl, rfl⟩) trivial

/-- Acknowledgements of switch requests are not lost exactly in the runs in which each
comes after its request was stored, and is not reported before the call has set its
status. -/
theorem switch_answer_kept (pcId pcName : String) (es : List Event) :
    Always step Sound (start pcId pcName) es ↔ Along step SwitchOk (start pcId pcName) es := by
  apply always_iff_along Inv es (start_inv pcId pcName) (start_sound pcId pcName)
  intro s e t hinv hsound hstep
  exact step_keeps hinv hsound hstep

/-- The acknowledgement of the phone overtakes the entry that waits for it. -/
def overtakingRun : List Event :=
  [.registerChannel 1 true true, .request "r", .dispatch, .receive 1,
    .acknowledge ⟨"r", "pc", true⟩, .store, .announce, .fire "r", .reportTimeout "r"]

theorem overtaking_not_kept : ¬ Always step Sound (start "pc" "PC") overtakingRun := by
  decide

end SwitchRun

end FlowType
