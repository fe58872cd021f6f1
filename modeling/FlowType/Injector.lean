import FlowType.Tip

/-! The injector process. `handle_request` is cut at its calls to a text service:
each part returns the injector after it and what it does next, and `resume` goes
on with the answer. -/
namespace FlowType

structure TipId where
  processId : Nat
  threadId : Nat
  deriving DecidableEq, Repr

structure TipKey where
  id : TipId
  generation : Nat
  deriving DecidableEq, Repr

structure TargetWindow where
  processId : Nat
  threadId : Nat
  title : String
  deriving DecidableEq, Repr

structure ActiveSession where
  id : String
  sequence : Int
  text : String
  target : TargetWindow
  tip : TipKey
  inputEpoch : Nat
  deriving DecidableEq, Repr

structure CompletedSession where
  id : String
  sequence : Int
  text : String
  deriving DecidableEq, Repr

inductive InjectorRequest
  | beginSession (sessionId : String) (replacesSessionId : Option String) (sequence : Int)
      (fullText : String) (attachExisting : Bool)
  | applyState (sessionId : String) (sequence : Int) (fullText : String)
  | finishSession (sessionId : String) (sequence : Int)
  | querySession (sessionId : String)
  | probeTarget
  | cancelInvalidSession (sessionId : String)
  deriving DecidableEq, Repr

inductive InjectorResponse
  | sessionBegun (targetName : String)
  | applied (sequence : Int)
  | finished (sequence : Int)
  | sessionActive (sessionId : String) (sequence : Int) (fullText : String)
  | sessionFinished (sessionId : String) (sequence : Int) (fullText : String)
  | sessionMissing
  | targetReady (targetName : String) (activityAgeMs : Nat)
  | cancelled
  | targetNotForeground (targetName : String)
  | targetInvalid
  | targetModified
  | targetSubmitted
  | targetUnsupported
  | tsfUnavailable
  | injectionUnknown
  | invalidRequest
  deriving DecidableEq, Repr

structure Desktop where
  /-- `TargetWindow::capture_foreground`, which passes over the windows of the app itself. -/
  foreground : Option TargetWindow := none
  foregroundValid : Bool := true
  remoteDesktopClient : Bool := false
  /-- The second look at the captured window; `false` as long as its process stays the same. -/
  flowtypeWindow : Bool := false
  activated : Bool := true
  monitorStarted : Bool := true
  activityAgeMs : Nat := 0
  /-- `is_valid` and `is_foreground` of the target of the active session. -/
  targetValid : Bool := true
  targetForeground : Bool := true
  /-- At least `TIP_STATE_QUERY_INTERVAL` since the last query of the text service. -/
  queryDue : Bool := true
  deriving DecidableEq, Repr

structure InputMonitor where
  epoch : Nat := 0
  lastEventWasReturn : Bool := false
  deriving DecidableEq, Repr

structure Injector where
  session : Option ActiveSession := none
  completed : Option CompletedSession := none
  deriving DecidableEq, Repr

/-- The session that `begin_for_target` offers to the text services. -/
structure TipBegin where
  sessionId : String
  sequence : Int
  fullText : String
  attachExisting : Bool
  target : TargetWindow
  deriving DecidableEq, Repr

/-- What follows the cancellation of `end_failed_session`. -/
inductive AfterCancel
  | reply (response : InjectorResponse)
  | begin (sessionId : String) (sequence : Int) (fullText : String) (attachExisting : Bool)
      (desktop : Desktop)
  /-- The pipe is gone: forget the completed session and accept the next one. -/
  | accept
  deriving DecidableEq, Repr

inductive Wait
  | cancel (after : AfterCancel)
  | begin (call : TipBegin) (rest : List TipKey) (rejected : Bool)
  | update (sessionId : String) (sequence : Int) (fullText : String)
  | finish (sessionId : String) (sequence : Int)
  | query (sessionId : String) (inputEpoch : Nat) (sequence : Int) (fullText : String)
  deriving DecidableEq, Repr

inductive Next
  | reply (response : InjectorResponse)
  | accept
  | call (tip : TipKey) (command : TipCommand) (wait : Wait)
  /-- The loop of `begin_for_target` before a round of candidates. -/
  | select (call : TipBegin) (rejected tried : Bool)
  deriving DecidableEq, Repr

inductive SessionReplacement
  | start | replace | reject
  deriving DecidableEq, Repr

def classifySessionReplacement (activeSessionId replacesSessionId : Option String) :
    SessionReplacement :=
  match activeSessionId with
  | none => .start
  | some active => if replacesSessionId = some active then .replace else .reject

def isSubmittedCandidate (fullText : String) (sessionInputEpoch currentInputEpoch : Nat)
    (lastEventWasReturn : Bool) : Bool :=
  decide (fullText.toList.getLast? = some '\n') && decide (currentInputEpoch ≠ sessionInputEpoch) &&
    lastEventWasReturn

def completedApplyResponse (completed : Option CompletedSession) (sessionId : String)
    (sequence : Int) (fullText : String) : Option InjectorResponse :=
  (completed.filter fun finished => decide (finished.id = sessionId)).map fun finished =>
    if finished.sequence = sequence ∧ finished.text = fullText then .finished sequence
    else .invalidRequest

def TipBegin.command (call : TipBegin) : TipCommand :=
  .begin call.sessionId call.sequence call.fullText call.attachExisting

/-- One round of `begin_for_target` over the remaining candidates. -/
def beginCandidates (call : TipBegin) (rejected : Bool) : List TipKey → Next
  | [] => .select call rejected true
  | client :: rest => .call client call.command (.begin call rest rejected)

/-- The deadline of `begin_for_target`. -/
def beginExpired (rejected : Bool) : Next :=
  .reply (if rejected then .targetUnsupported else .tsfUnavailable)

/-- From the capture of the target on. -/
def captureAndBegin (sessionId : String) (sequence : Int) (fullText : String)
    (attachExisting : Bool) (desktop : Desktop) : Next :=
  match desktop.foreground with
  | none => .reply .targetInvalid
  | some target =>
    if desktop.remoteDesktopClient then .reply .targetUnsupported
    else if desktop.flowtypeWindow then .reply .targetUnsupported
    else if desktop.activated = false then .reply (.targetNotForeground target.title)
    else if desktop.monitorStarted = false then .reply .injectionUnknown
    else .select ⟨sessionId, sequence, fullText, attachExisting, target⟩ false false

namespace Injector

def afterCancel (s : Injector) : AfterCancel → Injector × Next
  | .reply response => (s, .reply response)
  | .begin sessionId sequence fullText attachExisting desktop =>
    (s, captureAndBegin sessionId sequence fullText attachExisting desktop)
  | .accept => ({ s with completed := none }, .accept)

/-- The session is taken before the text service is told, and the answer is
ignored. -/
def endFailedSession (s : Injector) (after : AfterCancel) : Injector × Next :=
  match s.session with
  | none => s.afterCancel after
  | some active =>
    ({ s with session := none }, .call active.tip (.cancel active.id) (.cancel after))

def beginSession (s : Injector) (desktop : Desktop) (sessionId : String)
    (replacesSessionId : Option String) (sequence : Int) (fullText : String)
    (attachExisting : Bool) : Injector × Next :=
  match s.session.filter fun active => decide (active.id = sessionId) with
  | some active => (s, .reply (.sessionBegun active.target.title))
  | none =>
    match s.completed.filter fun finished => decide (finished.id = sessionId) with
    | some finished => (s, .reply (.sessionFinished sessionId finished.sequence finished.text))
    | none =>
      match classifySessionReplacement (s.session.map (·.id)) replacesSessionId with
      | .reject => (s, .reply .invalidRequest)
      | .replace => s.endFailedSession (.begin sessionId sequence fullText attachExisting desktop)
      | .start => (s, captureAndBegin sessionId sequence fullText attachExisting desktop)

def applyState (s : Injector) (desktop : Desktop) (input : InputMonitor) (sessionId : String)
    (sequence : Int) (fullText : String) : Injector × Next :=
  match s.session.filter fun active => decide (active.id = sessionId) with
  | none => (s, .reply .invalidRequest)
  | some active =>
    if desktop.targetValid = false then (s, .reply .targetInvalid)
    else if active.inputEpoch ≠ input.epoch then s.endFailedSession (.reply .targetModified)
    else if desktop.targetForeground = false then
      (s, .reply (.targetNotForeground active.target.title))
    else if sequence < active.sequence then (s, .reply (.applied active.sequence))
    else if sequence = active.sequence then
      if fullText = active.text then (s, .reply (.applied sequence))
      else s.endFailedSession (.reply .invalidRequest)
    else (s, .call active.tip (.update sessionId sequence fullText)
      (.update sessionId sequence fullText))

def finishSession (s : Injector) (sessionId : String) (sequence : Int) : Injector × Next :=
  match s.session with
  | none => (s, .reply .invalidRequest)
  | some active =>
    if active.id ≠ sessionId ∨ active.sequence ≠ sequence then (s, .reply .invalidRequest)
    else (s, .call active.tip (.finish sessionId sequence) (.finish sessionId sequence))

def queryActiveSession (s : Injector) (desktop : Desktop) (input : InputMonitor)
    (active : ActiveSession) : Injector × Next :=
  if active.inputEpoch ≠ input.epoch then
    s.endFailedSession (.reply (if isSubmittedCandidate active.text active.inputEpoch input.epoch
      input.lastEventWasReturn then .targetSubmitted else .targetModified))
  else if desktop.queryDue = false then
    (s, .reply (.sessionActive active.id active.sequence active.text))
  else (s, .call active.tip (.query active.id)
    (.query active.id active.inputEpoch active.sequence active.text))

def querySession (s : Injector) (desktop : Desktop) (input : InputMonitor) (sessionId : String) :
    Injector × Next :=
  match s.session.filter fun active => decide (active.id = sessionId) with
  | some active => s.queryActiveSession desktop input active
  | none =>
    match s.completed.filter fun finished => decide (finished.id = sessionId) with
    | some finished => (s, .reply (.sessionFinished sessionId finished.sequence finished.text))
    | none => (s, .reply .sessionMissing)

def probeTarget (desktop : Desktop) : InjectorResponse :=
  match desktop.foreground with
  | none => .targetInvalid
  | some target =>
    if desktop.foregroundValid = false then .targetInvalid
    else if desktop.remoteDesktopClient then .targetUnsupported
    else if desktop.flowtypeWindow then .targetUnsupported
    else .targetReady target.title desktop.activityAgeMs

def cancelInvalidSession (s : Injector) (sessionId : String) : Injector × Next :=
  match s.session.filter fun active => decide (active.id = sessionId) with
  | none => (s, .reply .cancelled)
  | some _ => s.endFailedSession (.reply .cancelled)

def handleRequest (s : Injector) (desktop : Desktop) (input : InputMonitor) :
    InjectorRequest → Injector × Next
  | .beginSession sessionId replacesSessionId sequence fullText attachExisting =>
    s.beginSession desktop sessionId replacesSessionId sequence fullText attachExisting
  | .applyState sessionId sequence fullText =>
    match completedApplyResponse s.completed sessionId sequence fullText with
    | some response => (s, .reply response)
    | none => s.applyState desktop input sessionId sequence fullText
  | .finishSession sessionId sequence => s.finishSession sessionId sequence
  | .querySession sessionId => s.querySession desktop input sessionId
  | .probeTarget => (s, .reply (probeTarget desktop))
  | .cancelInvalidSession sessionId => s.cancelInvalidSession sessionId

def resumeBegin (s : Injector) (input : InputMonitor) (tip : TipKey) (call : TipBegin)
    (rest : List TipKey) (rejected : Bool) (answer : Option TipResponse) : Injector × Next :=
  if answer = some (.begun call.sessionId) then
    ({ session := some
        { id := call.sessionId, sequence := call.sequence, text := call.fullText
          target := call.target, tip := tip, inputEpoch := input.epoch }
       completed := none },
      .reply (.sessionBegun call.target.title))
  else if answer = some .rebindRejected then (s, .reply .targetModified)
  else
    (s, beginCandidates call
      (rejected || decide (answer = some .noFocus) || decide (answer = some .editRejected)) rest)

def resumeUpdate (s : Injector) (active : ActiveSession) (sessionId : String) (sequence : Int)
    (fullText : String) (answer : Option TipResponse) : Injector × Next :=
  match answer with
  | some (.applied appliedSession appliedSequence) =>
    if appliedSession = sessionId then
      if appliedSequence = sequence then
        ({ s with session := some { active with sequence := sequence, text := fullText } },
          .reply (.applied appliedSequence))
      else (s, .reply (.applied appliedSequence))
    else s.endFailedSession (.reply .injectionUnknown)
  | some .noFocus => (s, .reply (.targetNotForeground active.target.title))
  | some .compositionTerminated => s.endFailedSession (.reply .targetModified)
  -- the text service and the injector no longer agree: force both back to idle
  | some .sessionMismatch => s.endFailedSession (.reply .invalidRequest)
  | some .sequenceConflict => s.endFailedSession (.reply .invalidRequest)
  | _ => s.endFailedSession (.reply .injectionUnknown)

def resumeFinish (s : Injector) (active : ActiveSession) (sessionId : String) (sequence : Int)
    (answer : Option TipResponse) : Injector × Next :=
  match answer with
  | some (.finished finishedSession finishedSequence) =>
    if finishedSession = sessionId ∧ finishedSequence = sequence then
      ({ session := none, completed := some ⟨sessionId, sequence, active.text⟩ },
        .reply (.finished sequence))
    else s.endFailedSession (.reply .injectionUnknown)
  | some .sessionMismatch => s.endFailedSession (.reply .invalidRequest)
  | some .sequenceConflict => s.endFailedSession (.reply .invalidRequest)
  | _ => s.endFailedSession (.reply .injectionUnknown)

def resumeQuery (s : Injector) (input : InputMonitor) (sessionId : String) (inputEpoch : Nat)
    (sequence : Int) (fullText : String) (answer : Option TipResponse) : Injector × Next :=
  match answer with
  | some (.sessionActive _ _) => (s, .reply (.sessionActive sessionId sequence fullText))
  | some .compositionTerminated =>
    s.endFailedSession (.reply (if isSubmittedCandidate fullText inputEpoch input.epoch
      input.lastEventWasReturn then .targetSubmitted else .targetModified))
  | _ => s.endFailedSession (.reply .targetModified)

/-- Going on after a call; `none` is an I/O error: the text service left or did
not answer within 1.5 s. The active session of an update or a finish is the one
the request found. -/
def resume (s : Injector) (input : InputMonitor) (tip : TipKey) (wait : Wait)
    (answer : Option TipResponse) : Injector × Next :=
  match wait, s.session with
  | .cancel after, _ => s.afterCancel after
  | .begin call rest rejected, _ => s.resumeBegin input tip call rest rejected answer
  | .update sessionId sequence fullText, some active =>
    s.resumeUpdate active sessionId sequence fullText answer
  | .finish sessionId sequence, some active => s.resumeFinish active sessionId sequence answer
  | .query sessionId inputEpoch sequence fullText, _ =>
    s.resumeQuery input sessionId inputEpoch sequence fullText answer
  | _, none => (s, .reply .invalidRequest)

def pipeLost (s : Injector) : Injector × Next := s.endFailedSession .accept

/-- What a request can do before its first call: answer, give the session up,
pass a command on to its text service, or look for one to begin in. -/
inductive Move (s : Injector) : Injector × Next → Prop
  | reply (response : InjectorResponse) : Move s (s, .reply response)
  | accept : s.session = none → Move s ({ s with completed := none }, .accept)
  | cancel {a : ActiveSession} (after : AfterCancel) : s.session = some a →
      Move s ({ s with session := none }, .call a.tip (.cancel a.id) (.cancel after))
  | update {a : ActiveSession} (sequence : Int) (text : String) : s.session = some a →
      a.sequence < sequence → Move s (s, .call a.tip (.update a.id sequence text)
        (.update a.id sequence text))
  | finish {a : ActiveSession} : s.session = some a →
      Move s (s, .call a.tip (.finish a.id a.sequence) (.finish a.id a.sequence))
  | query {a : ActiveSession} : s.session = some a →
      Move s (s, .call a.tip (.query a.id) (.query a.id a.inputEpoch a.sequence a.text))
  | select (call : TipBegin) : s.session = none → Move s (s, .select call false false)

theorem Move.session {s : Injector} {r : Injector × Next} (h : Move s r) {a : ActiveSession}
    (ha : r.1.session = some a) : s.session = some a := by
  cases h with
  | reply response => exact ha
  | accept hs => exact ha
  | cancel after hs => simp at ha
  | update sequence text hs hlt => exact ha
  | finish hs => exact ha
  | query hs => exact ha
  | select call hs => exact ha

theorem Move.completed {s : Injector} {r : Injector × Next} (h : Move s r) {f : CompletedSession}
    (hf : r.1.completed = some f) : s.completed = some f := by
  cases h with
  | reply response => exact hf
  | accept hs => simp at hf
  | cancel after hs => exact hf
  | update sequence text hs hlt => exact hf
  | finish hs => exact hf
  | query hs => exact hf
  | select call hs => exact hf

theorem filter_id_some {s : Option ActiveSession} {sessionId : String} {a : ActiveSession}
    (h : s.filter (fun active => decide (active.id = sessionId)) = some a) :
    s = some a ∧ a.id = sessionId := by
  cases s with
  | none => simp at h
  | some b =>
    simp only [Option.filter, decide_eq_true_eq] at h
    split at h
    · rename_i hb
      obtain rfl : b = a := by simpa using h
      exact ⟨rfl, hb⟩
    · simp at h

theorem captureAndBegin_move (s : Injector) (hs : s.session = none) (sessionId : String)
    (sequence : Int) (fullText : String) (attachExisting : Bool) (desktop : Desktop) :
    Move s (s, captureAndBegin sessionId sequence fullText attachExisting desktop) := by
  unfold captureAndBegin
  split
  · exact .reply _
  · split_ifs
    · exact .reply _
    · exact .reply _
    · exact .reply _
    · exact .reply _
    · exact .select _ hs

theorem afterCancel_move (s : Injector) (hs : s.session = none) (after : AfterCancel) :
    Move s (s.afterCancel after) := by
  cases after with
  | reply response => exact .reply response
  | begin sessionId sequence fullText attachExisting desktop =>
    exact s.captureAndBegin_move hs sessionId sequence fullText attachExisting desktop
  | accept => exact .accept hs

theorem endFailedSession_of_some (s : Injector) {a : ActiveSession} (hs : s.session = some a)
    (after : AfterCancel) : s.endFailedSession after =
      ({ s with session := none }, .call a.tip (.cancel a.id) (.cancel after)) := by
  rw [endFailedSession, hs]

theorem endFailedSession_move (s : Injector) (after : AfterCancel) :
    Move s (s.endFailedSession after) := by
  unfold endFailedSession
  split
  · rename_i hs
    exact s.afterCancel_move hs after
  · rename_i a hs
    exact .cancel after hs

theorem beginSession_move (s : Injector) (desktop : Desktop) (sessionId : String)
    (replaces : Option String) (sequence : Int) (fullText : String) (attach : Bool) :
    Move s (s.beginSession desktop sessionId replaces sequence fullText attach) := by
  unfold beginSession
  split
  · exact .reply _
  · split
    · exact .reply _
    · split
      · exact .reply _
      · exact s.endFailedSession_move _
      · rename_i hr
        refine s.captureAndBegin_move ?_ sessionId sequence fullText attach desktop
        cases hs : s.session with
        | none => rfl
        | some a =>
          simp only [hs, Option.map_some, classifySessionReplacement] at hr
          split at hr <;> simp at hr

theorem applyState_move (s : Injector) (desktop : Desktop) (input : InputMonitor)
    (sessionId : String) (sequence : Int) (fullText : String) :
    Move s (s.applyState desktop input sessionId sequence fullText) := by
  unfold applyState
  split
  · exact .reply _
  · rename_i a ha
    obtain ⟨hs, rfl⟩ := filter_id_some ha
    split_ifs
    · exact .reply _
    · exact s.endFailedSession_move _
    · exact .reply _
    · exact .reply _
    · exact .reply _
    · exact s.endFailedSession_move _
    · exact .update sequence fullText hs (by omega)

theorem finishSession_move (s : Injector) (sessionId : String) (sequence : Int) :
    Move s (s.finishSession sessionId sequence) := by
  unfold finishSession
  split
  · exact .reply _
  · rename_i a hs
    split
    · exact .reply _
    · rename_i hne
      push Not at hne
      obtain ⟨rfl, rfl⟩ := hne
      exact .finish hs

theorem querySession_move (s : Injector) (desktop : Desktop) (input : InputMonitor)
    (sessionId : String) : Move s (s.querySession desktop input sessionId) := by
  unfold querySession
  split
  · rename_i a ha
    obtain ⟨hs, -⟩ := filter_id_some ha
    unfold queryActiveSession
    split_ifs
    · exact s.endFailedSession_move _
    · exact s.endFailedSession_move _
    · exact .reply _
    · exact .query hs
  · split
    · exact .reply _
    · exact .reply _

theorem handleRequest_move (s : Injector) (desktop : Desktop) (input : InputMonitor)
    (request : InjectorRequest) : Move s (s.handleRequest desktop input request) := by
  cases request with
  | beginSession sessionId replaces sequence fullText attach =>
    exact s.beginSession_move desktop sessionId replaces sequence fullText attach
  | applyState sessionId sequence fullText =>
    simp only [handleRequest]
    split
    · exact .reply _
    · exact s.applyState_move desktop input sessionId sequence fullText
  | finishSession sessionId sequence => exact s.finishSession_move sessionId sequence
  | querySession sessionId => exact s.querySession_move desktop input sessionId
  | probeTarget => exact .reply _
  | cancelInvalidSession sessionId =>
    simp only [handleRequest, cancelInvalidSession]
    split
    · exact .reply _
    · exact s.endFailedSession_move _

/-- The answer to an offered session: it is begun, refused for good, or the
remaining candidates are tried. -/
theorem resumeBegin_cases (s : Injector) (input : InputMonitor) (tip : TipKey) (call : TipBegin)
    (rest : List TipKey) (rejected : Bool) (answer : Option TipResponse) :
    (answer = some (.begun call.sessionId) ∧
      s.resumeBegin input tip call rest rejected answer =
        ({ session := some
            { id := call.sessionId, sequence := call.sequence, text := call.fullText
              target := call.target, tip := tip, inputEpoch := input.epoch }
           completed := none }, .reply (.sessionBegun call.target.title))) ∨
    (answer ≠ some (.begun call.sessionId) ∧
      (s.resumeBegin input tip call rest rejected answer = (s, .reply .targetModified) ∨
      ∃ rejected', s.resumeBegin input tip call rest rejected answer =
        (s, beginCandidates call rejected' rest))) := by
  unfold resumeBegin
  split
  · rename_i h
    exact Or.inl ⟨h, rfl⟩
  · rename_i h
    refine Or.inr ⟨h, ?_⟩
    split
    · exact Or.inl rfl
    · exact Or.inr ⟨_, rfl⟩

theorem resumeUpdate_cases (s : Injector) {a : ActiveSession} (hs : s.session = some a)
    (sessionId : String) (sequence : Int) (fullText : String) (answer : Option TipResponse) :
    (answer = some (.applied sessionId sequence) ∧
      s.resumeUpdate a sessionId sequence fullText answer =
        ({ s with session := some { a with sequence := sequence, text := fullText } },
          .reply (.applied sequence))) ∨
    (∃ n, n ≠ sequence ∧ answer = some (.applied sessionId n) ∧
      s.resumeUpdate a sessionId sequence fullText answer = (s, .reply (.applied n))) ∨
    (answer = some .noFocus ∧ s.resumeUpdate a sessionId sequence fullText answer =
      (s, .reply (.targetNotForeground a.target.title))) ∨
    ∃ response, (response = .injectionUnknown ∨ response = .targetModified ∨
        response = .invalidRequest) ∧
      s.resumeUpdate a sessionId sequence fullText answer =
        ({ s with session := none }, .call a.tip (.cancel a.id) (.cancel (.reply response))) := by
  have hend := fun response => s.endFailedSession_of_some hs (.reply response)
  unfold resumeUpdate
  split
  · split_ifs with h1 h2
    · subst h1
      subst h2
      exact Or.inl ⟨rfl, rfl⟩
    · subst h1
      exact Or.inr (Or.inl ⟨_, h2, rfl, rfl⟩)
    · exact Or.inr (Or.inr (Or.inr ⟨_, Or.inl rfl, hend _⟩))
  · exact Or.inr (Or.inr (Or.inl ⟨rfl, rfl⟩))
  · exact Or.inr (Or.inr (Or.inr ⟨_, Or.inr (Or.inl rfl), hend _⟩))
  · exact Or.inr (Or.inr (Or.inr ⟨_, Or.inr (Or.inr rfl), hend _⟩))
  · exact Or.inr (Or.inr (Or.inr ⟨_, Or.inr (Or.inr rfl), hend _⟩))
  · exact Or.inr (Or.inr (Or.inr ⟨_, Or.inl rfl, hend _⟩))

theorem resumeFinish_cases (s : Injector) {a : ActiveSession} (hs : s.session = some a)
    (sessionId : String) (sequence : Int) (answer : Option TipResponse) :
    (answer = some (.finished sessionId sequence) ∧
      s.resumeFinish a sessionId sequence answer =
        ({ session := none, completed := some ⟨sessionId, sequence, a.text⟩ },
          .reply (.finished sequence))) ∨
    ∃ response, (response = .injectionUnknown ∨ response = .invalidRequest) ∧
      s.resumeFinish a sessionId sequence answer =
        ({ s with session := none }, .call a.tip (.cancel a.id) (.cancel (.reply response))) := by
  have hend := fun response => s.endFailedSession_of_some hs (.reply response)
  unfold resumeFinish
  split
  · split_ifs with h
    · obtain ⟨rfl, rfl⟩ := h
      exact Or.inl ⟨rfl, rfl⟩
    · exact Or.inr ⟨_, Or.inl rfl, hend _⟩
  · exact Or.inr ⟨_, Or.inr rfl, hend _⟩
  · exact Or.inr ⟨_, Or.inr rfl, hend _⟩
  · exact Or.inr ⟨_, Or.inl rfl, hend _⟩

theorem resumeQuery_move (s : Injector) (input : InputMonitor) (sessionId : String)
    (inputEpoch : Nat) (sequence : Int) (fullText : String) (answer : Option TipResponse) :
    Move s (s.resumeQuery input sessionId inputEpoch sequence fullText answer) := by
  unfold resumeQuery
  split
  · exact .reply _
  · exact s.endFailedSession_move _
  · exact s.endFailedSession_move _

/-- What the injector waits for fits to its session: the session of an update, a
finish or a query is still there, and there is none while a Begin is offered or
a Cancel is on its way. -/
def WaitFits (s : Injector) (key : TipKey) (command : TipCommand) : Wait → Prop
  | .cancel _ => s.session = none ∧ ∃ id, command = .cancel id
  | .begin call _ _ => command = call.command ∧ s.session = none
  | .update id sequence text => command = .update id sequence text ∧
      ∃ a, s.session = some a ∧ a.id = id ∧ a.tip = key ∧ a.sequence < sequence
  | .finish id sequence => command = .finish id sequence ∧
      ∃ a, s.session = some a ∧ a.id = id ∧ a.tip = key ∧ a.sequence = sequence
  | .query id _ sequence text => command = .query id ∧
      ∃ a, s.session = some a ∧ a.id = id ∧ a.tip = key ∧ a.sequence = sequence ∧ a.text = text

def NextFits (s : Injector) : Next → Prop
  | .reply _ => True
  | .accept => True
  | .select _ _ _ => s.session = none
  | .call key command wait => s.WaitFits key command wait

theorem Move.fits {s : Injector} {r : Injector × Next} (h : Move s r) : r.1.NextFits r.2 := by
  cases h with
  | reply response => trivial
  | accept hs => trivial
  | cancel after hs => exact ⟨rfl, _, rfl⟩
  | update sequence text hs hlt => exact ⟨rfl, _, hs, rfl, rfl, hlt⟩
  | finish hs => exact ⟨rfl, _, hs, rfl, rfl, rfl⟩
  | query hs => exact ⟨rfl, _, hs, rfl, rfl, rfl, rfl⟩
  | select call hs => exact hs

theorem beginCandidates_fits (s : Injector) (hs : s.session = none) (call : TipBegin)
    (rejected : Bool) (rest : List TipKey) : s.NextFits (beginCandidates call rejected rest) := by
  cases rest with
  | nil => exact hs
  | cons key rest => exact ⟨rfl, hs⟩

theorem resume_fits (s : Injector) (input : InputMonitor) (key : TipKey) (command : TipCommand)
    (wait : Wait) (answer : Option TipResponse) (h : s.WaitFits key command wait) :
    (s.resume input key wait answer).1.NextFits (s.resume input key wait answer).2 := by
  cases wait with
  | cancel after => exact (s.afterCancel_move h.1 after).fits
  | begin call rest rejected =>
    have hs := h.2
    rcases s.resumeBegin_cases input key call rest rejected answer with
      ⟨-, hr⟩ | ⟨-, hr | ⟨rejected', hr⟩⟩
    · simp only [resume, hr]
      trivial
    · simp only [resume, hr]
      trivial
    · simp only [resume, hr]
      exact s.beginCandidates_fits hs call rejected' rest
  | update id sequence text =>
    obtain ⟨-, a, hs, -⟩ := h
    simp only [resume, hs]
    rcases s.resumeUpdate_cases hs id sequence text answer with
      ⟨-, hr⟩ | ⟨n, -, -, hr⟩ | ⟨-, hr⟩ | ⟨response, -, hr⟩
    · rw [hr]
      trivial
    · rw [hr]
      trivial
    · rw [hr]
      trivial
    · rw [hr]
      exact ⟨rfl, _, rfl⟩
  | finish id sequence =>
    obtain ⟨-, a, hs, -⟩ := h
    simp only [resume, hs]
    rcases s.resumeFinish_cases hs id sequence answer with ⟨-, hr⟩ | ⟨response, -, hr⟩
    · rw [hr]
      trivial
    · rw [hr]
      exact ⟨rfl, _, rfl⟩
  | query id inputEpoch sequence text =>
    exact (s.resumeQuery_move input id inputEpoch sequence text answer).fits

/-- A call under way goes to the text service of the active session. -/
theorem WaitFits.tip {s : Injector} {key : TipKey} {command : TipCommand} {wait : Wait}
    (h : s.WaitFits key command wait) {a : ActiveSession} (ha : s.session = some a) :
    a.tip = key := by
  cases wait with
  | cancel after => simp [h.1] at ha
  | begin call rest rejected => simp [h.2] at ha
  | update id sequence text =>
    obtain ⟨-, b, hb, -, hkey, -⟩ := h
    obtain rfl : b = a := by simpa [hb] using ha
    exact hkey
  | finish id sequence =>
    obtain ⟨-, b, hb, -, hkey, -⟩ := h
    obtain rfl : b = a := by simpa [hb] using ha
    exact hkey
  | query id inputEpoch sequence text =>
    obtain ⟨-, b, hb, -, hkey, -⟩ := h
    obtain rfl : b = a := by simpa [hb] using ha
    exact hkey

/-- The active session stays with its text service, or that one is told to cancel. -/
def Keeps (s : Injector) (r : Injector × Next) : Prop :=
  ∀ a, s.session = some a → (∃ a', r.1.session = some a' ∧ a'.id = a.id ∧ a'.tip = a.tip) ∨
    ∃ wait, r.2 = .call a.tip (.cancel a.id) wait

theorem Move.keeps {s : Injector} {r : Injector × Next} (h : Move s r) : s.Keeps r := by
  intro a ha
  cases h with
  | reply response => exact Or.inl ⟨a, ha, rfl, rfl⟩
  | accept hs => simp [hs] at ha
  | cancel after hs =>
    obtain rfl : _ = a := by simpa [hs] using ha
    exact Or.inr ⟨_, rfl⟩
  | update sequence text hs hlt => exact Or.inl ⟨a, ha, rfl, rfl⟩
  | finish hs => exact Or.inl ⟨a, ha, rfl, rfl⟩
  | query hs => exact Or.inl ⟨a, ha, rfl, rfl⟩
  | select call hs => simp [hs] at ha

/-- Only a finished session goes without a Cancel. -/
theorem resume_keeps (s : Injector) (input : InputMonitor) (key : TipKey) (command : TipCommand)
    (wait : Wait) (answer : Option TipResponse) (h : s.WaitFits key command wait)
    (hf : ∀ id n, wait = .finish id n → answer ≠ some (.finished id n)) :
    s.Keeps (s.resume input key wait answer) := by
  intro a ha
  cases wait with
  | cancel after => simp [h.1] at ha
  | begin call rest rejected => simp [h.2] at ha
  | update id sequence text =>
    simp only [resume, ha]
    rcases s.resumeUpdate_cases ha id sequence text answer with
      ⟨-, hr⟩ | ⟨n, -, -, hr⟩ | ⟨-, hr⟩ | ⟨response, -, hr⟩
    · rw [hr]
      exact Or.inl ⟨_, rfl, rfl, rfl⟩
    · rw [hr]
      exact Or.inl ⟨a, ha, rfl, rfl⟩
    · rw [hr]
      exact Or.inl ⟨a, ha, rfl, rfl⟩
    · rw [hr]
      exact Or.inr ⟨_, rfl⟩
  | finish id sequence =>
    simp only [resume, ha]
    rcases s.resumeFinish_cases ha id sequence answer with ⟨he, -⟩ | ⟨response, -, hr⟩
    · exact absurd he (hf id sequence rfl)
    · rw [hr]
      exact Or.inr ⟨_, rfl⟩
  | query id inputEpoch sequence text =>
    exact (s.resumeQuery_move input id inputEpoch sequence text answer).keeps a ha

/-- A Begin is sent only to the next candidate of an offer that was not answered
for good. -/
theorem resume_begin {s : Injector} {input : InputMonitor} {key key' : TipKey} {wait : Wait}
    {answer : Option TipResponse} {command : TipCommand} {call : TipBegin} {rest : List TipKey}
    {rejected : Bool}
    (h : (s.resume input key wait answer).2 = .call key' command (.begin call rest rejected)) :
    ∃ rejected', wait = .begin call (key' :: rest) rejected' ∧
      answer ≠ some (.begun call.sessionId) ∧ answer ≠ some .rebindRejected := by
  have hmove : ∀ r, Move s r → r.2 ≠ .call key' command (.begin call rest rejected) := by
    rintro r hr hcall
    cases hr <;> simp at hcall
  cases wait with
  | cancel after =>
    cases after with
    | reply response => simp [resume, afterCancel] at h
    | accept => simp [resume, afterCancel] at h
    | begin sessionId sequence text attach desktop =>
      simp only [resume, afterCancel, captureAndBegin] at h
      split at h
      · simp at h
      · split_ifs at h
  | begin call' rest' rejected' =>
    simp only [resume, resumeBegin] at h
    split_ifs at h with hb hr
    cases rest' with
    | nil => simp [beginCandidates] at h
    | cons k ks =>
      simp only [beginCandidates, Next.call.injEq, Wait.begin.injEq] at h
      obtain ⟨rfl, -, rfl, rfl, -⟩ := h
      exact ⟨_, rfl, hb, hr⟩
  | update id sequence text =>
    cases hs : s.session with
    | none => simp [resume, hs] at h
    | some a =>
      simp only [resume, hs] at h
      rcases s.resumeUpdate_cases hs id sequence text answer with
        ⟨-, hr⟩ | ⟨n, -, -, hr⟩ | ⟨-, hr⟩ | ⟨response, -, hr⟩ <;> simp [hr] at h
  | finish id sequence =>
    cases hs : s.session with
    | none => simp [resume, hs] at h
    | some a =>
      simp only [resume, hs] at h
      rcases s.resumeFinish_cases hs id sequence answer with ⟨-, hr⟩ | ⟨response, -, hr⟩ <;>
        simp [hr] at h
  | query id inputEpoch sequence text =>
    exact absurd h (hmove _ (s.resumeQuery_move input id inputEpoch sequence text answer))

end Injector

/-! The session that is about to be offered. -/

def InjectorRequest.begins : InjectorRequest → Option String
  | .beginSession sessionId _ _ _ _ => some sessionId
  | _ => none

def Wait.offers : Wait → Option String
  | .cancel (.begin sessionId _ _ _ _) => some sessionId
  | .begin call _ _ => some call.sessionId
  | _ => none

def Next.offers : Next → Option String
  | .call _ _ wait => wait.offers
  | .select offer _ _ => some offer.sessionId
  | _ => none

namespace Injector

theorem captureAndBegin_offers {sessionId : String} {sequence : Int} {fullText : String}
    {attach : Bool} {desktop : Desktop} {id : String}
    (h : (captureAndBegin sessionId sequence fullText attach desktop).offers = some id) :
    sessionId = id := by
  unfold captureAndBegin at h
  split at h
  · simp [Next.offers] at h
  · split_ifs at h
    · simp [Next.offers] at h
    · simp [Next.offers] at h
    · simp [Next.offers] at h
    · simp [Next.offers] at h
    · exact Option.some.inj h

/-- Ending a session that answers or accepts afterwards offers nothing. -/
theorem endFailedSession_offers (s : Injector) {after : AfterCancel} {id : String}
    (h : (s.endFailedSession after).2.offers = some id) :
    (Wait.cancel after).offers = some id := by
  unfold endFailedSession at h
  split at h
  · cases after with
    | reply response => simp [afterCancel, Next.offers] at h
    | accept => simp [afterCancel, Next.offers] at h
    | begin sessionId sequence fullText attach desktop =>
      rw [captureAndBegin_offers h]
      rfl
  · exact h

theorem endFailedSession_reply_offers (s : Injector) (response : InjectorResponse) :
    (s.endFailedSession (.reply response)).2.offers = none := by
  cases h : (s.endFailedSession (.reply response)).2.offers with
  | none => rfl
  | some id => simpa [Wait.offers] using s.endFailedSession_offers h

/-- Only a Begin offers its session. -/
theorem handleRequest_offers (s : Injector) (desktop : Desktop) (input : InputMonitor)
    {request : InjectorRequest} {id : String}
    (h : (s.handleRequest desktop input request).2.offers = some id) :
    request.begins = some id := by
  have hend := s.endFailedSession_reply_offers
  cases request with
  | beginSession sessionId replaces sequence fullText attach =>
    simp only [handleRequest, beginSession] at h
    split at h
    · simp [Next.offers] at h
    · split at h
      · simp [Next.offers] at h
      · split at h
        · simp [Next.offers] at h
        · exact s.endFailedSession_offers h
        · rw [captureAndBegin_offers h]
          rfl
  | applyState sessionId sequence fullText =>
    simp only [handleRequest] at h
    split at h
    · simp [Next.offers] at h
    · unfold applyState at h
      split at h
      · simp [Next.offers] at h
      · split_ifs at h
        · simp [Next.offers] at h
        · simp [hend] at h
        · simp [Next.offers] at h
        · simp [Next.offers] at h
        · simp [Next.offers] at h
        · simp [hend] at h
        · simp [Next.offers, Wait.offers] at h
  | finishSession sessionId sequence =>
    simp only [handleRequest, finishSession] at h
    split at h
    · simp [Next.offers] at h
    · split at h
      · simp [Next.offers] at h
      · simp [Next.offers, Wait.offers] at h
  | querySession sessionId =>
    simp only [handleRequest, querySession] at h
    split at h
    · unfold queryActiveSession at h
      split_ifs at h
      · simp [hend] at h
      · simp [hend] at h
      · simp [Next.offers] at h
      · simp [Next.offers, Wait.offers] at h
    · split at h
      · simp [Next.offers] at h
      · simp [Next.offers] at h
  | probeTarget => simp [handleRequest, Next.offers] at h
  | cancelInvalidSession sessionId =>
    simp only [handleRequest, cancelInvalidSession] at h
    split at h
    · simp [Next.offers] at h
    · simp [hend] at h

/-- Going on after a call offers no other session than before. -/
theorem resume_offers (s : Injector) (input : InputMonitor) (key : TipKey) {wait : Wait}
    (answer : Option TipResponse) {id : String}
    (h : (s.resume input key wait answer).2.offers = some id) : wait.offers = some id := by
  have hend := s.endFailedSession_reply_offers
  cases wait with
  | cancel after =>
    cases after with
    | reply response => simp [resume, afterCancel, Next.offers] at h
    | accept => simp [resume, afterCancel, Next.offers] at h
    | begin sessionId sequence fullText attach desktop =>
      rw [captureAndBegin_offers h]
      rfl
  | begin call rest rejected =>
    simp only [resume, resumeBegin] at h
    split_ifs at h
    · simp [Next.offers] at h
    · simp [Next.offers] at h
    · cases rest with
      | nil => exact h
      | cons k ks => exact h
  | update id' sequence text =>
    cases hs : s.session with
    | none => simp [resume, hs, Next.offers] at h
    | some a =>
      simp only [resume, hs, resumeUpdate] at h
      split at h
      · split_ifs at h
        · simp [Next.offers] at h
        · simp [Next.offers] at h
        · simp [hend] at h
      · simp [Next.offers] at h
      · simp [hend] at h
      · simp [hend] at h
      · simp [hend] at h
      · simp [hend] at h
  | finish id' sequence =>
    cases hs : s.session with
    | none => simp [resume, hs, Next.offers] at h
    | some a =>
      simp only [resume, hs, resumeFinish] at h
      split at h
      · split_ifs at h
        · simp [Next.offers] at h
        · simp [hend] at h
      · simp [hend] at h
      · simp [hend] at h
      · simp [hend] at h
  | query id' inputEpoch sequence text =>
    simp only [resume, resumeQuery] at h
    split at h
    · simp [Next.offers] at h
    · simp [hend] at h
    · simp [hend] at h

end Injector

end FlowType
