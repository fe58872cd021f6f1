import FlowType.Reconciliation
import FlowType.Handler

/-! A completed session that a phone delivers again. The injector remembers it for as
long as its pipe stays open and no other session begins; the four kinds of messages
ask for it in different ways, and the server translates each answer on its own. -/
namespace FlowType

/-- What an injector that remembers `f` and has no session answers. -/
def CompletedSession.Answers (f : CompletedSession) : InjectorRequest → InjectorResponse → Prop
  | .beginSession _ _ _ _ _, response => response = .sessionFinished f.id f.sequence f.text
  | .applyState sessionId sequence fullText, response => response =
    if f.id = sessionId ∧ f.sequence = sequence ∧ f.text = fullText then .finished sequence
    else .invalidRequest
  | _, _ => True

namespace Injector

/-- Requests that begin no other session are answered at once and change nothing. -/
theorem handleRequest_remembered (f : CompletedSession) (desktop : Desktop) (input : InputMonitor)
    {request : InjectorRequest} (h : ∀ id, request.begins = some id → id = f.id) :
    ∃ response, Injector.handleRequest ⟨none, some f⟩ desktop input request =
      (⟨none, some f⟩, .reply response) ∧ f.Answers request response := by
  have hfilter : ∀ id, (some f).filter (fun finished => decide (finished.id = id)) =
      if f.id = id then some f else none := by
    intro id
    simp [Option.filter]
  cases request with
  | beginSession sessionId replaces sequence text attach =>
    obtain rfl := h sessionId rfl
    exact ⟨_, by simp only [handleRequest, beginSession, hfilter, if_true]; rfl, rfl⟩
  | applyState sessionId sequence text =>
    by_cases hid : f.id = sessionId
    · refine ⟨if f.sequence = sequence ∧ f.text = text then .finished sequence
        else .invalidRequest, ?_, ?_⟩
      · simp only [handleRequest, completedApplyResponse, hfilter, hid, if_true, Option.map_some]
      · simp [CompletedSession.Answers, hid]
    · refine ⟨.invalidRequest, ?_, ?_⟩
      · simp only [handleRequest, completedApplyResponse, hfilter, hid, if_false, Option.map_none]
        rfl
      · simp [CompletedSession.Answers, hid]
  | finishSession sessionId sequence => exact ⟨.invalidRequest, rfl, trivial⟩
  | querySession sessionId =>
    by_cases hid : f.id = sessionId
    · refine ⟨.sessionFinished sessionId f.sequence f.text, ?_, trivial⟩
      simp only [handleRequest, querySession, hfilter, hid, if_true]
      rfl
    · refine ⟨.sessionMissing, ?_, trivial⟩
      simp only [handleRequest, querySession, hfilter, hid, if_false]
      rfl
  | probeTarget => exact ⟨_, rfl, trivial⟩
  | cancelInvalidSession sessionId => exact ⟨.cancelled, rfl, trivial⟩

/-- A session is cancelled only if there is one. -/
theorem Move.cancelling {s : Injector} {r : Injector × Next} (h : Move s r) (hs : s.Exclusive)
    {key : TipKey} {command : TipCommand} {after : AfterCancel}
    (hr : r.2 = .call key command (.cancel after)) : r.1.completed = none := by
  cases h with
  | cancel after' ha => exact hs _ ha
  | reply response => simp at hr
  | accept hn => simp at hr
  | update sequence text ha hlt => simp at hr
  | finish ha => simp at hr
  | query ha => simp at hr
  | select call hn => simp at hr

theorem resume_cancelling (s : Injector) (input : InputMonitor) (key : TipKey)
    (command : TipCommand) {wait : Wait} (answer : Option TipResponse)
    (hfits : s.WaitFits key command wait) (hs : s.Exclusive) {key' : TipKey}
    {command' : TipCommand} {after : AfterCancel}
    (hr : (s.resume input key wait answer).2 = .call key' command' (.cancel after)) :
    (s.resume input key wait answer).1.completed = none := by
  cases wait with
  | cancel after' => exact (s.afterCancel_move hfits.1 after').cancelling hs hr
  | begin call rest rejected =>
    rcases s.resumeBegin_cases input key call rest rejected answer with
      ⟨-, h⟩ | ⟨-, h | ⟨rejected', h⟩⟩
    · simp [resume, h] at hr
    · simp [resume, h] at hr
    · cases rest <;> simp [resume, h, beginCandidates] at hr
  | update id sequence text =>
    obtain ⟨-, a, ha, -⟩ := hfits
    simp only [resume, ha] at hr ⊢
    rcases s.resumeUpdate_cases ha id sequence text answer with
      ⟨-, h⟩ | ⟨n, -, -, h⟩ | ⟨-, h⟩ | ⟨response, -, h⟩
    · simp [h] at hr
    · simp [h] at hr
    · simp [h] at hr
    · rw [h]
      exact hs a ha
  | finish id sequence =>
    obtain ⟨-, a, ha, -⟩ := hfits
    simp only [resume, ha] at hr ⊢
    rcases s.resumeFinish_cases ha id sequence answer with ⟨-, h⟩ | ⟨response, -, h⟩
    · simp [h] at hr
    · rw [h]
      exact hs a ha
  | query id inputEpoch sequence text =>
    exact (s.resumeQuery_move input id inputEpoch sequence text answer).cancelling hs hr

end Injector

namespace Windows

/-- While a session is cancelled no completed one is remembered. -/
def Cancelling (s : Windows) : Prop :=
  ∀ key command token after, s.waiting = some (.call key command token (.cancel after)) →
    s.injector.completed = none

theorem step_cancelling {s t : Windows} {e : Event} (hfits : s.Fits)
    (hexclusive : s.injector.Exclusive) (h : s.Cancelling) (hs : s.step e = some t) :
    t.Cancelling := by
  intro key command token after hw
  rcases step_acts hs with ⟨hi, hw', -⟩ | ⟨-, -, hw', -⟩ | ⟨u, r, rfl, -, -, hacts⟩
  · rw [hi]
    exact h key command token after (hw'.symm.trans hw)
  · simp [hw'] at hw
  · rw [perform_injector]
    obtain ⟨key', command', hr⟩ : ∃ key' command', r.2 = .call key' command' (.cancel after) := by
      rw [perform_waiting] at hw
      split at hw
      · rename_i hr
        obtain ⟨-, -, -, rfl⟩ : _ ∧ _ ∧ _ ∧ _ = Wait.cancel after := by simpa using hw
        exact ⟨_, _, hr⟩
      · simp at hw
      · simp at hw
    cases hacts with
    | request request desktop _ =>
      exact (s.injector.handleRequest_move desktop s.input request).cancelling hexclusive hr
    | @select call rejected tried candidates _ =>
      cases candidates <;> simp [beginCandidates] at hr
    | expire _ => simp [beginExpired] at hr
    | @deliver k c tok wait tip answer hwait =>
      exact s.injector.resume_cancelling s.input k c (some answer) (hfits _ hwait) hexclusive hr
    | @giveUp k c tok wait hwait =>
      exact s.injector.resume_cancelling s.input k c none (hfits _ hwait) hexclusive hr
    | pipeLost _ => exact (s.injector.endFailedSession_move _).cancelling hexclusive hr

end Windows

namespace Dispatcher

theorem step_cancelling {s t : Dispatcher} {e : Event} (hserve : s.ServeInv)
    (h : s.windows.Cancelling) (hs : s.step e = some t) : t.windows.Cancelling := by
  rcases step_windows hs with ⟨hw, -⟩ | ⟨request, attempt, desktop, -, hw, -⟩ | ⟨event, hw, -⟩
  · rw [hw]
    exact h
  · exact Windows.step_cancelling hserve.fits hserve.exclusive h hw
  · exact Windows.step_cancelling hserve.fits hserve.exclusive h hw

/-- The injector remembers `f`, it is not busy, and no command has been sent since
`u`. -/
structure Remembers (f : CompletedSession) (u : Windows) (s : Dispatcher) : Prop where
  injector : s.windows.injector = ⟨none, some f⟩
  idle : s.windows.waiting = none
  linked : s.Linked
  serving : s.serving = true
  due : ∀ tip p, s.windows.Unexecuted tip p → u.Unexecuted tip p

def StaysOpen : Event → Bool
  | .writeFails => false
  | .readFails => false
  | .restart => false
  | _ => true

theorem Remembers.of_windows {f : CompletedSession} {u : Windows} {s t : Dispatcher}
    (h : s.Remembers f u) (hw : t.windows = s.windows) (hclient : t.client = s.client)
    (hinstance : t.instanceId = s.instanceId) (hserving : t.serving = s.serving) :
    t.Remembers f u := by
  refine ⟨hw ▸ h.injector, hw ▸ h.idle, ?_, hserving ▸ h.serving, hw ▸ h.due⟩
  rw [Linked, hclient, hinstance]
  exact h.linked

/-- A request is read: it is answered, and nothing else happens. -/
theorem Remembers.read {f : CompletedSession} {u : Windows} {s : Dispatcher}
    (h : s.Remembers f u) {request : InjectorRequest} {desktop : Desktop} {w : Windows}
    (hbegins : ∀ id, request.begins = some id → id = f.id)
    (hw : s.windows.step (.request request desktop) = some w) :
    w.injector = ⟨none, some f⟩ ∧ w.waiting = none ∧ w.hosts = s.windows.hosts ∧
      ∃ response, w.reply = some response ∧ f.Answers request response := by
  obtain ⟨-, rfl⟩ := Windows.stepRequest_some hw
  obtain ⟨response, hr, hanswers⟩ :=
    Injector.handleRequest_remembered f desktop s.windows.input hbegins
  rw [show s.windows.injector = _ from h.injector, hr]
  exact ⟨rfl, rfl, rfl, response, rfl, hanswers⟩

theorem Remembers.due_step {f : CompletedSession} {u : Windows} {s : Dispatcher}
    (h : s.Remembers f u) {event : Windows.Event} {w : Windows}
    (hw : s.windows.step event = some w) (hidle : w.waiting = none) :
    ∀ tip p, w.Unexecuted tip p → u.Unexecuted tip p := by
  intro tip p hp
  rcases Windows.step_unexecuted hw hp with hp | ⟨_, _, -, -, hwait, -⟩
  · exact h.due tip p hp
  · simp [hidle] at hwait

theorem step_remembers {f : CompletedSession} {u : Windows} {s t : Dispatcher} {e : Event}
    (h : s.Remembers f u) (hopen : StaysOpen e = true)
    (hbegins : ∀ request, s.phase.request? = some request →
      ∀ id, request.begins = some id → id = f.id)
    (hs : s.step e = some t) :
    t.Remembers f u ∧ (t.windows.hosts = s.windows.hosts ∨ ∃ event, e = .windows event) := by
  have haway : ¬ Accepting { s with result := none } := by
    intro hacc
    exact absurd hacc.1 (by simp [h.serving])
  cases step_does hs with
  | submit request hp => exact ⟨h.of_windows rfl rfl rfl rfl, Or.inl rfl⟩
  | connect request hacc hp => exact absurd hacc haway
  | reconnect request previous attempt hacc hp ha => exact absurd hacc haway
  | giveUp request previous hacc hp => exact absurd hacc haway
  | connectFails request hp => exact ⟨h.of_windows rfl rfl rfl rfl, Or.inl rfl⟩
  | write request attempt desktop w hp hl hw =>
    have hb : ∀ id, (attempt.wire request).begins = some id → id = f.id := by
      rw [attempt.wire_begins]
      exact hbegins request (by rw [show s.phase = _ from hp]; rfl)
    obtain ⟨hi, hidle, hhosts, -⟩ := h.read hb hw
    exact ⟨⟨hi, hidle, h.linked, h.serving, h.due_step hw hidle⟩, Or.inl hhosts⟩
  | writeFails request attempt hp => simp [StaysOpen] at hopen
  | readFails request attempt hp => simp [StaysOpen] at hopen
  | read request attempt response hp hr hq => exact ⟨h.of_windows rfl rfl rfl rfl, Or.inl rfl⟩
  | reconcile request response hp hr =>
    rcases reconcile_cases { s with result := none, response := none } request response with
      ⟨result, heq⟩ | heq
    · rw [heq]
      exact ⟨h.of_windows rfl rfl rfl rfl, Or.inl rfl⟩
    · rw [heq]
      exact ⟨h.of_windows rfl rfl rfl rfl, Or.inl rfl⟩
  | windows event w hne hpipe hrestart hw =>
    obtain ⟨hi, hidle, -⟩ := Windows.step_idle hw h.idle hne hpipe hrestart
    exact ⟨⟨hi.trans h.injector, hidle, h.linked, h.serving, h.due_step hw hidle⟩,
      Or.inr ⟨event, rfl⟩⟩
  | pipeLost w hserving hl hw => exact absurd h.linked hl
  | restart w hw => simp [StaysOpen] at hopen
  | repair hp hacc => exact absurd hacc haway

/-- The first exchange of a request is under way, and its answer is the one of an
injector that remembers `f`. -/
def Exchanging (f : CompletedSession) (request : InjectorRequest) (s : Dispatcher) : Prop :=
  (∃ previousInstance, s.phase = .send request (.first previousInstance)) ∨
    ∃ previousInstance response, s.phase = .receive request (.first previousInstance) ∧
      s.response = some response ∧ f.Answers request response

/-- An exchange goes on, or it ends with its answer. -/
theorem step_exchanging {f : CompletedSession} {u : Windows} {s t : Dispatcher} {e : Event}
    {request : InjectorRequest} (h : s.Remembers f u) (hx : s.Exchanging f request)
    (hopen : StaysOpen e = true) (hbegins : ∀ id, request.begins = some id → id = f.id)
    (hs : s.step e = some t) :
    (t.Exchanging f request ∧ t.result = none) ∨
      (t.phase = .idle ∧ ∃ response, t.result = some (.ok response) ∧
        f.Answers request response) := by
  have hbusy : s.phase.request? = some request := by
    rcases hx with ⟨previous, hp⟩ | ⟨previous, response, hp, -⟩ <;> simp [hp, Phase.request?]
  cases step_does hs with
  | submit request' hp => simp [show s.phase = _ from hp, Phase.request?] at hbusy
  | connect request' hacc hp => exact absurd hacc.1 (by simp [h.serving])
  | reconnect request' previous attempt hacc hp ha => exact absurd hacc.1 (by simp [h.serving])
  | giveUp request' previous hacc hp => exact absurd hacc.1 (by simp [h.serving])
  | connectFails request' hp =>
    rcases hp with hp | ⟨previous, hp⟩ <;> simp [Exchanging, show s.phase = _ from hp] at hx
  | write request' attempt desktop w hp hl hw =>
    simp only [Exchanging, show s.phase = _ from hp] at hx
    rcases hx with ⟨previous, hx⟩ | ⟨previous, response, hx, -⟩
    · obtain ⟨rfl, rfl⟩ := Phase.send.inj hx
      obtain ⟨-, -, -, response, hr, hanswers⟩ := h.read hbegins hw
      exact Or.inl ⟨Or.inr ⟨previous, response, rfl, hr, hanswers⟩, rfl⟩
    · simp at hx
  | writeFails request' attempt hp => simp [StaysOpen] at hopen
  | readFails request' attempt hp => simp [StaysOpen] at hopen
  | read request' attempt state hp hr hq =>
    simp only [Exchanging, show s.phase = _ from hp, show s.response = _ from hr] at hx
    rcases hx with ⟨previous, hx⟩ | ⟨previous, response, hx, hresponse, hanswers⟩
    · simp at hx
    · obtain rfl := Option.some.inj hresponse
      exact Or.inr ⟨rfl, state, rfl, hanswers⟩
  | reconcile request' state hp hr =>
    simp [Exchanging, show s.phase = _ from hp] at hx
  | windows event w hne hpipe hrestart hw =>
    refine Or.inl ⟨?_, rfl⟩
    have hreply := (Windows.step_idle hw h.idle hne hpipe hrestart).2.2
    simpa [Exchanging, hreply] using hx
  | pipeLost w hserving hl hw => exact absurd h.linked hl
  | restart w hw => simp [StaysOpen] at hopen
  | repair hp hacc => exact absurd hacc.1 (by simp [h.serving])

end Dispatcher

/-- The state of a session that a message carries. -/
def ClientMessage.state : ClientMessage → Option CompletedSession
  | .start snapshot => some ⟨snapshot.sessionId, snapshot.sequence, snapshot.fullText⟩
  | .update snapshot => some ⟨snapshot.sessionId, snapshot.sequence, snapshot.fullText⟩
  | .finish snapshot => some ⟨snapshot.sessionId, snapshot.sequence, snapshot.fullText⟩
  | .resume m => some ⟨m.sessionId, m.sequence, m.fullText⟩
  | .cancel _ => none

/-- The message goes to the injector as an ApplyState of `handle_client_message`. -/
def ClientMessage.isText : ClientMessage → Bool
  | .update _ => true
  | .finish _ => true
  | _ => false

def ClientMessage.handling : ClientMessage → Handling
  | .start snapshot => .begin snapshot
  | .update snapshot => .apply snapshot false
  | .finish snapshot => .apply snapshot true
  | .resume m => .resume m
  | .cancel m => .cancel m

theorem handleClientMessage_cases {phoneId : String} {message : ClientMessage}
    {sent : List ServerMessage} {handling : Option Handling}
    (h : handleClientMessage phoneId message = .ok (sent, handling)) :
    (checkClientMessage phoneId message = .ok none ∧ sent = [] ∧
      handling = some message.handling) ∨
    (checkClientMessage phoneId message ≠ .ok none ∧ handling = none ∧
      ∃ code sessionId, sent = [.error code sessionId]) := by
  unfold handleClientMessage at h
  cases hcheck : checkClientMessage phoneId message with
  | error e => simp [hcheck, Except.map] at h
  | ok code =>
    simp only [hcheck, Except.map, Except.ok.injEq] at h
    cases code with
    | some code =>
      obtain ⟨rfl, rfl⟩ := Prod.mk.inj h
      exact Or.inr ⟨by simp, rfl, _, _, rfl⟩
    | none =>
      obtain ⟨rfl, rfl⟩ := Prod.mk.inj h
      refine Or.inl ⟨rfl, rfl, ?_⟩
      cases message <;> rfl

/-- A redelivery begins no session but the completed one. -/
theorem ClientMessage.begins_handling {f : CompletedSession} {message : ClientMessage}
    (h : ∀ snapshot, message = .start snapshot → snapshot.sessionId = f.id) {id : String}
    (hid : message.handling.request.begins = some id) : id = f.id := by
  cases message with
  | start snapshot =>
    obtain rfl : snapshot.sessionId = id := Option.some.inj hid
    exact h snapshot rfl
  | _ => simp [handling, Handling.request, InjectorRequest.begins] at hid

/-- How the server translates what an injector says that remembers `f`. -/
theorem proceed_remembered {f : CompletedSession} {message : ClientMessage}
    {response : InjectorResponse}
    (hstart : ∀ snapshot, message = .start snapshot → snapshot.sessionId = f.id)
    (h : f.Answers message.handling.request response) :
    (message.handling.proceed (.ok response)).2 = none ∧
    (message.state = some f → message.isText = false →
      (message.handling.proceed (.ok response)).1 = [ackMessage f.id f.sequence true]) ∧
    (message.state ≠ some f ∨ message.isText = true → ∀ ack,
      ServerMessage.ack ack ∉ (message.handling.proceed (.ok response)).1) := by
  cases message with
  | start snapshot =>
    have hid := hstart snapshot rfl
    obtain rfl : response = _ := h
    by_cases hexact : f.sequence = snapshot.sequence ∧ f.text = snapshot.fullText
    · have hf : f = ⟨snapshot.sessionId, snapshot.sequence, snapshot.fullText⟩ := by
        rw [hid, ← hexact.1, ← hexact.2]
      refine ⟨?_, ?_, ?_⟩
      · simp [ClientMessage.handling, Handling.proceed, hid, hexact]
      · intro _ _
        simp [ClientMessage.handling, Handling.proceed, hid, hexact]
      · rintro (hne | htext)
        · exact absurd (by rw [hf]; rfl) hne
        · simp [ClientMessage.isText] at htext
    · refine ⟨?_, ?_, ?_⟩
      · simp [ClientMessage.handling, Handling.proceed, hexact]
      · intro hstate _
        obtain rfl := Option.some.inj hstate
        exact absurd ⟨rfl, rfl⟩ hexact
      · intro _ ack
        simp [ClientMessage.handling, Handling.proceed, hexact, injectorState]
  | update snapshot =>
    have hr : response = .finished snapshot.sequence ∨ response = .invalidRequest := by
      simp only [ClientMessage.handling, Handling.request, CompletedSession.Answers] at h
      split_ifs at h
      · exact Or.inl h
      · exact Or.inr h
    rcases hr with rfl | rfl <;>
      simp [ClientMessage.handling, Handling.proceed, injectorState, ClientMessage.isText]
  | finish snapshot =>
    have hr : response = .finished snapshot.sequence ∨ response = .invalidRequest := by
      simp only [ClientMessage.handling, Handling.request, CompletedSession.Answers] at h
      split_ifs at h
      · exact Or.inl h
      · exact Or.inr h
    rcases hr with rfl | rfl <;>
      simp [ClientMessage.handling, Handling.proceed, injectorState, ClientMessage.isText]
  | resume m =>
    simp only [ClientMessage.handling, Handling.request, CompletedSession.Answers] at h
    split_ifs at h with hexact
    · obtain ⟨hid, hseq, htext⟩ := hexact
      subst h
      refine ⟨rfl, ?_, ?_⟩
      · intro _ _
        simp [ClientMessage.handling, Handling.proceed, hid, hseq]
      · rintro (hne | htext')
        · refine absurd ?_ hne
          rw [ClientMessage.state, ← hid, ← hseq, ← htext]
        · simp [ClientMessage.isText] at htext'
    · subst h
      refine ⟨rfl, ?_, ?_⟩
      · intro hstate _
        obtain rfl := Option.some.inj hstate
        exact absurd ⟨rfl, rfl, rfl⟩ hexact
      · intro _ ack
        simp [ClientMessage.handling, Handling.proceed, injectorState]
  | cancel m =>
    refine ⟨rfl, ?_, ?_⟩
    · intro hstate
      simp [ClientMessage.state] at hstate
    · intro _ ack
      simp [ClientMessage.handling, Handling.proceed]

/-- A run of the server after a session was completed. `message` is what the phone
delivered last, `answers` what it got for it, and `hosts` the text services after what
they have done by themselves. -/
structure RedeliveryRun where
  server : Server
  message : Option (String × ClientMessage) := none
  answers : List ServerMessage := []
  hosts : TipId → Host

namespace RedeliveryRun
open Machine Dispatcher

def start (server : Server) : RedeliveryRun :=
  { server := server, hosts := server.dispatcher.windows.hosts }

def allowed (f : CompletedSession) : Server.Event → Bool
  | .receive _ (.start snapshot) => decide (snapshot.sessionId = f.id)
  | .dispatcher event => StaysOpen event
  | _ => true

def step (f : CompletedSession) (s : RedeliveryRun) (e : Server.Event) : Option RedeliveryRun :=
  if allowed f e then
    (s.server.step e).map fun server =>
      { server := server
        message := match e with
          | .receive phoneId message => some (phoneId, message)
          | _ => s.message
        answers := match e with
          | .receive _ _ => server.sent
          | _ => s.answers ++ server.sent
        hosts := match e with
          | .dispatcher (.windows _) => server.dispatcher.windows.hosts
          | _ => s.hosts }
  else none

/-- Since `u` the injector is as it was, it has sent no command, and the text services
are as they have left themselves; a redelivery that has been handled was acknowledged
as finished if it carried the completed state and was accepted, and not acknowledged if
it carried another one. -/
structure Idempotent (f : CompletedSession) (u : Windows) (s : RedeliveryRun) : Prop where
  injector : s.server.dispatcher.windows.injector = u.injector
  sent : ∀ tip p, s.server.dispatcher.windows.Unexecuted tip p → u.Unexecuted tip p
  hosts : s.server.dispatcher.windows.hosts = s.hosts
  exact : ∀ phoneId message, s.message = some (phoneId, message) → s.server.task = none →
    message.state = some f → checkClientMessage phoneId message = .ok none →
    s.answers = [ackMessage f.id f.sequence true]
  other : ∀ phoneId message, s.message = some (phoneId, message) → s.server.task = none →
    ∀ state, message.state = some state → state.id = f.id → state ≠ f →
    ∀ ack, ServerMessage.ack ack ∉ s.answers

/-- The answer is not the one to an Update or a Finish that carries exactly the completed
state. -/
def Translated (f : CompletedSession) (s : RedeliveryRun) : Server.Event → Prop
  | .proceed => ∀ x ∈ s.message, ¬ (x.2.isText = true ∧ x.2.state = some f)
  | _ => True

instance (f : CompletedSession) (s : RedeliveryRun) (e : Server.Event) :
    Decidable (s.Translated f e) := by
  unfold Translated
  split <;> infer_instance

def Handled (f : CompletedSession) (s : RedeliveryRun) (handling : Handling) : Progress → Prop
  | .ready => True
  | .waiting => s.server.owner = true ∧ s.server.dispatcher.Exchanging f handling.request
  | .answered result => ∃ response, result = .ok response ∧ f.Answers handling.request response

structure Inv (f : CompletedSession) (u : Windows) (s : RedeliveryRun) : Prop where
  slot : s.server.SlotInv
  remembers : s.server.dispatcher.Remembers f u
  hosts : s.server.dispatcher.windows.hosts = s.hosts
  task : ∀ handling progress, s.server.task = some (handling, progress) → s.answers = [] ∧
    s.Handled f handling progress ∧ ∃ phoneId message, s.message = some (phoneId, message) ∧
      handling = message.handling ∧ checkClientMessage phoneId message = .ok none ∧
      ∀ snapshot, message = .start snapshot → snapshot.sessionId = f.id

theorem Inv.injector {f : CompletedSession} {u : Windows} {s : RedeliveryRun} (h : s.Inv f u)
    (hu : u.injector = ⟨none, some f⟩) : s.server.dispatcher.windows.injector = u.injector :=
  h.remembers.injector.trans hu.symm

theorem Inv.begins {f : CompletedSession} {u : Windows} {s : RedeliveryRun} (h : s.Inv f u)
    {request : InjectorRequest} (hp : s.server.dispatcher.phase.request? = some request)
    {id : String} (hid : request.begins = some id) : id = f.id := by
  cases howner : s.server.owner with
  | false =>
    have hother := h.slot.other howner request hp
    cases request <;> simp_all [Server.isOther, InjectorRequest.begins]
  | true =>
    obtain ⟨handling, htask, rfl⟩ := h.slot.owned howner request hp
    obtain ⟨-, -, phoneId, message, -, rfl, -, hstart⟩ := h.task _ _ htask
    exact ClientMessage.begins_handling hstart hid

/-- While the message under way waits for nothing, no result is meant for it. -/
theorem Inv.passOn_eq {f : CompletedSession} {u : Windows} {s : RedeliveryRun} (h : s.Inv f u)
    {d : Dispatcher} {event : Dispatcher.Event} (hd : s.server.dispatcher.step event = some d)
    (hne : ∀ handling, s.server.task ≠ some (handling, .waiting)) :
    Server.passOn s.server.owner s.server.task d.result = s.server.task := by
  cases howner : s.server.owner with
  | false => cases d.result <;> rfl
  | true =>
    rcases step_result hd with hnone | ⟨-, hbusy, -⟩
    · rw [hnone]
      rfl
    · -- the dispatcher would work for a message that waits
      obtain ⟨request, hp⟩ : ∃ request, s.server.dispatcher.phase.request? = some request := by
        cases hp : s.server.dispatcher.phase with
        | idle => exact absurd hp hbusy
        | connect r => exact ⟨r, rfl⟩
        | send r a => exact ⟨r, rfl⟩
        | receive r a => exact ⟨r, rfl⟩
        | reconnect r p => exact ⟨r, rfl⟩
      obtain ⟨handling, htask, -⟩ := h.slot.owned howner request hp
      exact absurd htask (hne handling)

theorem Inv.submit {f : CompletedSession} {u : Windows} {s : RedeliveryRun} (h : s.Inv f u)
    {d : Dispatcher} {request : InjectorRequest}
    (hd : s.server.dispatcher.step (.submit request) = some d) :
    d.Remembers f u ∧ d.windows.hosts = s.hosts ∧ d.Exchanging f request ∧
      s.server.dispatcher.phase = .idle := by
  simp only [Dispatcher.step, stepSubmit] at hd
  split at hd
  · rename_i hp
    obtain rfl : _ = d := by simpa using hd
    refine ⟨h.remembers.of_windows rfl rfl rfl rfl, h.hosts, ?_, hp⟩
    refine Or.inl ⟨s.server.dispatcher.instanceId, ?_⟩
    simp only [show s.server.dispatcher.client = _ from h.remembers.linked]
  · simp at hd

theorem step_inv {f : CompletedSession} {u : Windows} {s t : RedeliveryRun} {e : Server.Event}
    (h : s.Inv f u) (hs : s.step f e = some t) : t.Inv f u := by
  unfold step at hs
  split_ifs at hs with hallowed
  obtain ⟨server, hserver, rfl⟩ := Option.map_eq_some_iff.mp hs
  have hslot := Server.step_slotInv h.slot hserver
  cases e with
  | receive phoneId message =>
    simp only [Server.step, Server.stepReceive] at hserver
    split at hserver
    · rename_i sent handling htask hmsg
      obtain rfl : _ = server := by simpa using hserver
      refine ⟨hslot, h.remembers, h.hosts, ?_⟩
      intro x progress hx
      obtain ⟨y, hy, hxy⟩ := Option.map_eq_some_iff.mp hx
      obtain ⟨rfl, rfl⟩ := Prod.mk.inj hxy
      rcases handleClientMessage_cases hmsg with ⟨hcheck, rfl, hhandling⟩ | ⟨-, hhandling, -⟩
      · obtain rfl := Option.some.inj (hy.symm.trans hhandling)
        refine ⟨rfl, trivial, phoneId, message, rfl, rfl, hcheck, ?_⟩
        rintro snapshot rfl
        simpa [allowed] using hallowed
      · simp [hy] at hhandling
    · simp at hserver
  | submit =>
    simp only [Server.step, Server.stepSubmit] at hserver
    split at hserver
    · rename_i handling htask
      obtain ⟨d, hd, rfl⟩ := Option.map_eq_some_iff.mp hserver
      obtain ⟨hremembers, hhosts, hexchanging, -⟩ := h.submit hd
      obtain ⟨hanswers, -, hmessage⟩ := h.task handling .ready htask
      refine ⟨hslot, hremembers, hhosts, ?_⟩
      rintro x progress ⟨⟩
      exact ⟨by simpa using hanswers, ⟨rfl, hexchanging⟩, hmessage⟩
    · simp at hserver
  | other request =>
    simp only [Server.step, Server.stepOther] at hserver
    split_ifs at hserver
    obtain ⟨d, hd, rfl⟩ := Option.map_eq_some_iff.mp hserver
    obtain ⟨hremembers, hhosts, -, hidle⟩ := h.submit hd
    refine ⟨hslot, hremembers, hhosts, ?_⟩
    intro x progress hx
    obtain ⟨hanswers, hhandled, hmessage⟩ := h.task x progress hx
    refine ⟨by simpa using hanswers, ?_, hmessage⟩
    cases progress with
    | ready => trivial
    | waiting =>
      obtain ⟨-, ⟨previous, hp⟩ | ⟨previous, response, hp, -⟩⟩ := hhandled
      · simp [hidle] at hp
      · simp [hidle] at hp
    | answered result => exact hhandled
  | dispatcher event =>
    simp only [Server.step, Server.stepDispatcher] at hserver
    split at hserver
    · simp at hserver
    · obtain ⟨d, hd, rfl⟩ := Option.map_eq_some_iff.mp hserver
      obtain ⟨hremembers, hhosts⟩ := step_remembers h.remembers hallowed
        (fun request hp id hid => h.begins hp hid) hd
      have hhosts' : d.windows.hosts = (match (Server.Event.dispatcher event) with
          | .dispatcher (.windows _) => d.windows.hosts
          | _ => s.hosts) := by
        rcases hhosts with heq | ⟨ev, rfl⟩
        · cases event with
          | windows ev => rfl
          | _ => exact heq.trans h.hosts
        · rfl
      refine ⟨hslot, hremembers, hhosts', ?_⟩
      by_cases hwaiting : ∃ handling, s.server.task = some (handling, .waiting)
      · obtain ⟨handling, htask⟩ := hwaiting
        obtain ⟨hanswers, ⟨howner, hexchanging⟩, hmessage⟩ := h.task _ _ htask
        obtain ⟨phoneId, message, hm, rfl, hcheck, hstart⟩ := hmessage
        rcases step_exchanging h.remembers hexchanging hallowed
          (fun id hid => ClientMessage.begins_handling hstart hid) hd with
          ⟨hgoes, hnone⟩ | ⟨-, response, hresult, hfits⟩
        · rw [hnone, htask]
          rintro x progress ⟨⟩
          exact ⟨by simpa using hanswers, ⟨howner, hgoes⟩, phoneId, message, hm, rfl, hcheck,
            hstart⟩
        · rw [hresult, htask, howner]
          rintro x progress ⟨⟩
          exact ⟨by simpa using hanswers, ⟨response, rfl, hfits⟩, phoneId, message, hm, rfl,
            hcheck, hstart⟩
      · rw [h.passOn_eq hd fun handling htask => hwaiting ⟨handling, htask⟩]
        intro x progress hx
        obtain ⟨hanswers, hhandled, hmessage⟩ := h.task x progress hx
        refine ⟨by simpa using hanswers, ?_, hmessage⟩
        cases progress with
        | ready => trivial
        | waiting => exact absurd ⟨x, hx⟩ hwaiting
        | answered result => exact hhandled
  | proceed =>
    simp only [Server.step, Server.stepProceed] at hserver
    split at hserver
    · rename_i handling result htask
      obtain rfl : _ = server := by simpa using hserver
      obtain ⟨-, ⟨response, rfl, hfits⟩, phoneId, message, -, rfl, -, hstart⟩ := h.task _ _ htask
      refine ⟨hslot, h.remembers, h.hosts, ?_⟩
      intro x progress hx
      simp [(proceed_remembered hstart hfits).1] at hx
    · simp at hserver

theorem step_idempotent {f : CompletedSession} {u : Windows} {s t : RedeliveryRun}
    {e : Server.Event} (hu : u.injector = ⟨none, some f⟩) (h : s.Inv f u)
    (hP : s.Idempotent f u) (hs : s.step f e = some t) :
    t.Idempotent f u ↔ s.Translated f e := by
  have ht := step_inv h hs
  unfold step at hs
  split_ifs at hs with hallowed
  obtain ⟨server, hserver, rfl⟩ := Option.map_eq_some_iff.mp hs
  have hkept : ∀ message : Option (String × ClientMessage), ∀ answers : List ServerMessage,
      (∀ phoneId m, message = some (phoneId, m) → server.task = none → m.state = some f →
        checkClientMessage phoneId m = .ok none → answers = [ackMessage f.id f.sequence true]) →
      (∀ phoneId m, message = some (phoneId, m) → server.task = none → ∀ state,
        m.state = some state → state.id = f.id → state ≠ f → ∀ ack,
        ServerMessage.ack ack ∉ answers) → ∀ hosts, server.dispatcher.windows.hosts = hosts →
      Idempotent f u ⟨server, message, answers, hosts⟩ := by
    intro message answers hexact hother hosts hhosts
    exact ⟨ht.injector hu, ht.remembers.due, hhosts, hexact, hother⟩
  -- an event that leaves the message as it was
  have hsame : server.task = s.server.task → server.sent = [] → ∀ hosts,
      server.dispatcher.windows.hosts = hosts →
      Idempotent f u ⟨server, s.message, s.answers ++ server.sent, hosts⟩ := by
    intro htask hsent hosts hhosts
    refine hkept _ _ ?_ ?_ hosts hhosts
    · rw [htask, hsent, List.append_nil]
      exact hP.exact
    · rw [htask, hsent, List.append_nil]
      exact hP.other
  -- an event after which the message is still under way
  have hbusy : ∀ answers, server.task ≠ none → ∀ hosts,
      server.dispatcher.windows.hosts = hosts →
      Idempotent f u ⟨server, s.message, answers, hosts⟩ := by
    intro answers htask hosts hhosts
    exact hkept _ _ (fun _ _ _ hn => absurd hn htask) (fun _ _ _ hn => absurd hn htask) hosts hhosts
  cases e with
  | receive phoneId message =>
    refine iff_of_true ?_ trivial
    simp only [Server.step, Server.stepReceive] at hserver
    split at hserver
    · rename_i sent handling htask hmsg
      obtain rfl : _ = server := by simpa using hserver
      refine hkept _ _ ?_ ?_ _ ht.hosts
      · rintro x m ⟨⟩ hnone hstate hcheck
        rcases handleClientMessage_cases hmsg with ⟨-, -, rfl⟩ | ⟨hne, -⟩
        · simp at hnone
        · exact absurd hcheck hne
      · rintro x m ⟨⟩ hnone state - - - ack
        rcases handleClientMessage_cases hmsg with ⟨-, -, rfl⟩ | ⟨-, -, code, sessionId, rfl⟩
        · simp at hnone
        · simp
    · simp at hserver
  | submit =>
    refine iff_of_true ?_ trivial
    simp only [Server.step, Server.stepSubmit] at hserver
    split at hserver
    · obtain ⟨d, hd, rfl⟩ := Option.map_eq_some_iff.mp hserver
      exact hbusy _ (by simp) _ ht.hosts
    · simp at hserver
  | other request =>
    refine iff_of_true ?_ trivial
    simp only [Server.step, Server.stepOther] at hserver
    split_ifs at hserver
    obtain ⟨d, hd, rfl⟩ := Option.map_eq_some_iff.mp hserver
    exact hsame rfl rfl _ ht.hosts
  | dispatcher event =>
    refine iff_of_true ?_ trivial
    simp only [Server.step, Server.stepDispatcher] at hserver
    split at hserver
    · simp at hserver
    · obtain ⟨d, hd, rfl⟩ := Option.map_eq_some_iff.mp hserver
      by_cases htask : s.server.task = none
      · have hpass : Server.passOn s.server.owner s.server.task d.result = s.server.task := by
          rw [htask]
          cases d.result <;> cases s.server.owner <;> rfl
        exact hsame hpass rfl _ ht.hosts
      · have hpass : Server.passOn s.server.owner s.server.task d.result ≠ none := by
          cases d.result <;> cases s.server.owner <;> simp [Server.passOn, htask]
        exact hbusy (s.answers ++ []) hpass _ ht.hosts
  | proceed =>
    simp only [Server.step, Server.stepProceed] at hserver
    split at hserver
    · rename_i handling result htask
      obtain rfl : _ = server := by simpa using hserver
      obtain ⟨hanswers, ⟨response, rfl, hfits⟩, phoneId, message, hm, rfl, hcheck, hstart⟩ :=
        h.task _ _ htask
      obtain ⟨hnone, hexact, hother⟩ := proceed_remembered hstart hfits
      constructor
      · rintro hP' x hx ⟨htext, hstate⟩
        obtain rfl : x = (phoneId, message) := by
          rw [hm] at hx
          exact (Option.some.inj hx).symm
        -- the redelivery was answered, but not with an Ack
        have hack := hP'.exact phoneId message hm (by simp [hnone]) hstate hcheck
        change s.answers ++ (message.handling.proceed (.ok response)).1 = _ at hack
        rw [hanswers, List.nil_append] at hack
        refine hother (Or.inr htext) ⟨f.id, f.sequence, .finished⟩ ?_
        rw [hack]
        simp [ackMessage]
      · intro htranslated
        refine hkept _ _ ?_ ?_ _ ht.hosts
        · intro x m hxm _ hstate _
          obtain ⟨rfl, rfl⟩ : phoneId = x ∧ message = m := by simpa [hm] using hxm
          have htext : message.isText = false := by
            rw [Bool.eq_false_iff]
            exact fun htext => htranslated _ hm ⟨htext, hstate⟩
          rw [hanswers, List.nil_append]
          exact hexact hstate htext
        · intro x m hxm _ state hstate _ hne ack
          obtain ⟨rfl, rfl⟩ : phoneId = x ∧ message = m := by simpa [hm] using hxm
          rw [hanswers, List.nil_append]
          refine hother (Or.inl ?_) ack
          rintro hstate'
          exact hne (Option.some.inj (hstate.symm.trans hstate'))
    · simp at hserver

/-- What every run of the server keeps. -/
structure ServerInv (s : Server) : Prop where
  slot : s.SlotInv
  serve : s.dispatcher.ServeInv
  cancelling : s.dispatcher.windows.Cancelling

theorem step_serverInv {s t : Server} {e : Server.Event} (h : ServerInv s)
    (hs : s.step e = some t) : ServerInv t := by
  have hslot := Server.step_slotInv h.slot hs
  have hdispatcher : ∀ event, s.dispatcher.step event = some t.dispatcher → ServerInv t := by
    intro event hd
    exact ⟨hslot, step_serveInv h.serve hd, Dispatcher.step_cancelling h.serve h.cancelling hd⟩
  cases e with
  | receive phoneId message =>
    simp only [Server.step, Server.stepReceive] at hs
    split at hs
    · obtain rfl : _ = t := by simpa using hs
      exact ⟨hslot, h.serve, h.cancelling⟩
    · simp at hs
  | submit =>
    simp only [Server.step, Server.stepSubmit] at hs
    split at hs
    · obtain ⟨d, hd, rfl⟩ := Option.map_eq_some_iff.mp hs
      exact hdispatcher _ hd
    · simp at hs
  | other request =>
    simp only [Server.step, Server.stepOther] at hs
    split_ifs at hs
    obtain ⟨d, hd, rfl⟩ := Option.map_eq_some_iff.mp hs
    exact hdispatcher _ hd
  | dispatcher event =>
    simp only [Server.step, Server.stepDispatcher] at hs
    split at hs
    · simp at hs
    · obtain ⟨d, hd, rfl⟩ := Option.map_eq_some_iff.mp hs
      exact hdispatcher _ hd
  | proceed =>
    simp only [Server.step, Server.stepProceed] at hs
    split at hs
    · obtain rfl : _ = t := by simpa using hs
      exact ⟨hslot, h.serve, h.cancelling⟩
    · simp at hs

theorem serverInv_initial : ServerInv {} :=
  ⟨Server.slotInv_initial, serveInv_initial, by simp [Windows.Cancelling]⟩

/-- An injector that remembers a completed session waits for nothing, unless another
session is about to begin. -/
theorem ServerInv.remembers {s : Server} (h : ServerInv s) (htask : s.task = none)
    {f : CompletedSession} (hf : s.dispatcher.windows.injector.completed = some f)
    (hl : s.dispatcher.Linked) : s.dispatcher.Remembers f s.dispatcher.windows := by
  have hsession : s.dispatcher.windows.injector.session = none := by
    cases hsession : s.dispatcher.windows.injector.session with
    | none => rfl
    | some a =>
      have hnone := h.serve.exclusive a hsession
      simp [hf] at hnone
  have hbegins : ∀ request, s.dispatcher.phase.request? = some request → request.begins = none := by
    intro request hp
    cases howner : s.owner with
    | false =>
      have hother := h.slot.other howner request hp
      cases request <;> simp_all [Server.isOther, InjectorRequest.begins]
    | true =>
      obtain ⟨handling, hx, -⟩ := h.slot.owned howner request hp
      simp [htask] at hx
  refine ⟨?_, ?_, hl, h.serve.served hl, fun _ _ hp => hp⟩
  · rw [show s.dispatcher.windows.injector = ⟨s.dispatcher.windows.injector.session,
      s.dispatcher.windows.injector.completed⟩ from rfl, hsession, hf]
  · cases hw : s.dispatcher.windows.waiting with
    | none => rfl
    | some w =>
      obtain ⟨request, attempt, hp, hoffers⟩ := h.serve.busy hl w hw
      have hnone := hbegins request (by rw [hp]; rfl)
      have hfits := h.serve.fits w hw
      cases w with
      | select call rejected tried =>
        have hoffer := hoffers call.sessionId rfl
        simp [hnone] at hoffer
      | call key command token wait =>
        cases wait with
        | cancel after =>
          have hcompleted := h.cancelling key command token after hw
          simp [hf] at hcompleted
        | begin call rest rejected =>
          have hoffer := hoffers call.sessionId rfl
          simp [hnone] at hoffer
        | update id sequence text =>
          obtain ⟨-, a, ha, -⟩ := hfits
          simp [hsession] at ha
        | finish id sequence =>
          obtain ⟨-, a, ha, -⟩ := hfits
          simp [hsession] at ha
        | query id inputEpoch sequence text =>
          obtain ⟨-, a, ha, -⟩ := hfits
          simp [hsession] at ha

/-- After a session was completed, its redeliveries are idempotent in a run over a pipe
that stays open exactly when no answer to an Update or a Finish with the completed state
is passed on. -/
theorem redelivery_idempotent (f : CompletedSession) (before : List Server.Event) (u : Server)
    (hrun : run Server.step {} before = some u) (htask : u.task = none)
    (hf : u.dispatcher.windows.injector.completed = some f) (hl : u.dispatcher.Linked)
    (es : List Server.Event) :
    Always (step f) (Idempotent f u.dispatcher.windows) (start u) es ↔
      Along (step f) (Translated f) (start u) es := by
  have hserver : ServerInv u :=
    run_invariant ServerInv before serverInv_initial (fun _ _ _ h hs => step_serverInv h hs) hrun
  have hremembers := hserver.remembers htask hf hl
  have hinv : (start u).Inv f u.dispatcher.windows := by
    refine ⟨hserver.slot, hremembers, rfl, ?_⟩
    intro handling progress hx
    simp [start, htask] at hx
  refine always_iff_along (Inv f u.dispatcher.windows) es hinv ?_ ?_
  · exact ⟨rfl, fun _ _ hp => hp, rfl, by simp [start], by simp [start]⟩
  · intro s e t h hP hs
    exact ⟨step_idempotent hremembers.injector h hP hs, fun _ => step_inv h hs⟩

def oneLetter (type : SnapshotType) : SnapshotMessage :=
  { type := type, phoneId := "phone", sessionId := "s", sequence := 1, fullText := "a" }

/-- The injector answers the request of the message at once. -/
def answeredAtOnce : List Server.Event :=
  [.submit, .dispatcher (.write {}), .dispatcher .read, .proceed]

/-- One letter is typed, and its session is finished. -/
def finishedLetter : List Server.Event :=
  [.dispatcher (.windows (.connect ⟨1, 1⟩)), .receive "phone" (.start (oneLetter .start)), .submit,
   .dispatcher .connected, .dispatcher (.write { foreground := some Windows.notepad }),
   .dispatcher (.windows (.select [⟨⟨1, 1⟩, 1⟩])),
   .dispatcher (.windows (.execute ⟨1, 1⟩ Windows.editDone)),
   .dispatcher (.windows (.deliver ⟨1, 1⟩)), .dispatcher .read, .proceed] ++ answeredAtOnce ++
  [.receive "phone" (.finish (oneLetter .finish))] ++ answeredAtOnce ++
  [.submit, .dispatcher (.write {}), .dispatcher (.windows (.execute ⟨1, 1⟩ Windows.editDone)),
   .dispatcher (.windows (.deliver ⟨1, 1⟩)), .dispatcher .read, .proceed]

def letterDone : Server := (run Server.step {} finishedLetter).get (by decide)

/-- The last Ack is lost: the session is resumed, started again, and updated with
another text. -/
def lostAck : List Server.Event :=
  .receive "phone" (.resume ⟨"phone", "s", 0, 1, "a", .finishing, PROTOCOL_VERSION⟩) ::
    answeredAtOnce ++ .receive "phone" (.start (oneLetter .start)) :: answeredAtOnce ++
  .receive "phone" (.update { oneLetter .update with fullText := "b" }) :: answeredAtOnce

theorem redelivery_idempotent_lost_ack :
    Along (step ⟨"s", 1, "a"⟩) (Translated ⟨"s", 1, "a"⟩) (start letterDone) lostAck ∧
    Always (step ⟨"s", 1, "a"⟩) (Idempotent ⟨"s", 1, "a"⟩ letterDone.dispatcher.windows)
      (start letterDone) lostAck := by
  have h : Along (step ⟨"s", 1, "a"⟩) (Translated ⟨"s", 1, "a"⟩) (start letterDone) lostAck := by
    decide
  exact ⟨h, (redelivery_idempotent ⟨"s", 1, "a"⟩ finishedLetter letterDone
    (Option.some_get _).symm (by decide) (by decide) (by decide) lostAck).mpr h⟩

/-- A finish with the completed state is answered with an invalid target. -/
def repeatedFinish : List Server.Event :=
  .receive "phone" (.finish (oneLetter .finish)) :: answeredAtOnce

theorem repeated_finish_not_acknowledged :
    run Server.step {} finishedLetter = some letterDone ∧ letterDone.task = none ∧
    letterDone.dispatcher.windows.injector.completed = some ⟨"s", 1, "a"⟩ ∧
    letterDone.dispatcher.Linked ∧
    ¬ Always (step ⟨"s", 1, "a"⟩) (Idempotent ⟨"s", 1, "a"⟩ letterDone.dispatcher.windows)
      (start letterDone) repeatedFinish := by
  refine ⟨(Option.some_get _).symm, by decide, by decide, by decide, ?_⟩
  intro h
  have hlast := h.last repeatedFinish (Option.some_get (by decide)).symm
  have hack := hlast.exact "phone" (.finish (oneLetter .finish)) (by decide) (by decide) rfl
    (by decide)
  exact absurd hack (by decide)

end RedeliveryRun

end FlowType
