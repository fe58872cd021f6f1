import FlowType.Dispatcher

/-! The injector behind a pipe that does not fail while the injector lives: where
its active session comes from, and when a request has ended it. -/
namespace FlowType

namespace Injector

/-- A session is active only while no session is remembered as completed. -/
def Exclusive (s : Injector) : Prop := ∀ a, s.session = some a → s.completed = none

theorem Exclusive.of_none {s : Injector} (h : s.session = none) : s.Exclusive := by
  intro a ha
  simp [h] at ha

theorem Move.exclusive {s : Injector} {r : Injector × Next} (h : Move s r) (hs : s.Exclusive) :
    r.1.Exclusive := by
  cases h with
  | reply response => exact hs
  | accept hn => exact .of_none hn
  | cancel after ha => exact .of_none rfl
  | update sequence text ha hlt => exact hs
  | finish ha => exact hs
  | query ha => exact hs
  | select call hn => exact hs

/-- Where the active session of an injector comes from: it was there, or it has
been offered. -/
theorem resume_session (s : Injector) (input : InputMonitor) (key : TipKey)
    (command : TipCommand) {wait : Wait} (answer : Option TipResponse)
    (h : s.WaitFits key command wait) {a : ActiveSession}
    (ha : (s.resume input key wait answer).1.session = some a) :
    (∃ a₀, s.session = some a₀ ∧ a₀.id = a.id) ∨ wait.offers = some a.id := by
  cases wait with
  | cancel after => exact Or.inl ⟨a, (s.afterCancel_move h.1 after).session ha, rfl⟩
  | begin call rest rejected =>
    rcases s.resumeBegin_cases input key call rest rejected answer with
      ⟨-, hr⟩ | ⟨-, hr | ⟨rejected', hr⟩⟩
    · simp only [resume, hr, Option.some.injEq] at ha
      exact Or.inr (by rw [← ha]; rfl)
    · simp [resume, hr, h.2] at ha
    · simp [resume, hr, h.2] at ha
  | update id n text =>
    obtain ⟨-, b, hb, -⟩ := h
    simp only [resume, hb] at ha
    rcases s.resumeUpdate_cases hb id n text answer with
      ⟨-, hr⟩ | ⟨m, -, -, hr⟩ | ⟨-, hr⟩ | ⟨response, -, hr⟩
    · simp only [hr, Option.some.injEq] at ha
      exact Or.inl ⟨b, hb, by rw [← ha]⟩
    · exact Or.inl ⟨a, by simpa [hr] using ha, rfl⟩
    · exact Or.inl ⟨a, by simpa [hr] using ha, rfl⟩
    · simp [hr] at ha
  | finish id n =>
    obtain ⟨-, b, hb, -⟩ := h
    simp only [resume, hb] at ha
    rcases s.resumeFinish_cases hb id n answer with ⟨-, hr⟩ | ⟨response, -, hr⟩
    · simp [hr] at ha
    · simp [hr] at ha
  | query id inputEpoch n text =>
    exact Or.inl ⟨a, (s.resumeQuery_move input id inputEpoch n text answer).session ha, rfl⟩

theorem resume_exclusive (s : Injector) (input : InputMonitor) (key : TipKey)
    (command : TipCommand) {wait : Wait} (answer : Option TipResponse)
    (h : s.WaitFits key command wait) (hs : s.Exclusive) :
    (s.resume input key wait answer).1.Exclusive := by
  cases wait with
  | cancel after => exact (s.afterCancel_move h.1 after).exclusive hs
  | begin call rest rejected =>
    rcases s.resumeBegin_cases input key call rest rejected answer with
      ⟨-, hr⟩ | ⟨-, hr | ⟨rejected', hr⟩⟩
    · simp only [resume, hr]
      exact fun _ _ => rfl
    · simp only [resume, hr]
      exact hs
    · simp only [resume, hr]
      exact hs
  | update id n text =>
    obtain ⟨-, b, hb, -⟩ := h
    simp only [resume, hb]
    rcases s.resumeUpdate_cases hb id n text answer with
      ⟨-, hr⟩ | ⟨m, -, -, hr⟩ | ⟨-, hr⟩ | ⟨response, -, hr⟩
    · rw [hr]
      exact fun _ _ => hs b hb
    · rw [hr]
      exact hs
    · rw [hr]
      exact hs
    · rw [hr]
      exact .of_none rfl
  | finish id n =>
    obtain ⟨-, b, hb, -⟩ := h
    simp only [resume, hb]
    rcases s.resumeFinish_cases hb id n answer with ⟨-, hr⟩ | ⟨response, -, hr⟩
    · rw [hr]
      exact .of_none rfl
    · rw [hr]
      exact .of_none rfl
  | query id inputEpoch n text =>
    exact (s.resumeQuery_move input id inputEpoch n text answer).exclusive hs

end Injector

/-- The session that a request makes the injector give up, if it has it. -/
def InjectorRequest.ends : InjectorRequest → Option String
  | .cancelInvalidSession sessionId => some sessionId
  | .beginSession sessionId replacesSessionId _ _ _ =>
    replacesSessionId.filter fun replaced => decide (replaced ≠ sessionId)
  | _ => none

/-- After such a request the injector does not have the session. -/
theorem Injector.handleRequest_ends (s : Injector) (hs : s.Exclusive) (desktop : Desktop)
    (input : InputMonitor) {request : InjectorRequest} {a : ActiveSession}
    (ha : (s.handleRequest desktop input request).1.session = some a) :
    request.ends ≠ some a.id := by
  have hend : ∀ after, (s.endFailedSession after).1.session = none := by
    intro after
    cases hs : s.session with
    | none =>
      cases after <;> simp [endFailedSession, hs, afterCancel]
    | some b => simp [endFailedSession, hs]
  cases request with
  | beginSession sessionId replaces n text attach =>
    intro hends
    simp only [InjectorRequest.ends, Option.filter_eq_some_iff, decide_eq_true_eq] at hends
    obtain ⟨hrep, hne⟩ := hends
    simp only [handleRequest, beginSession] at ha
    split at ha
    · rename_i b hb
      obtain ⟨hb, hid⟩ := filter_id_some hb
      obtain rfl : b = a := by simpa [hb] using ha
      exact hne hid
    · split at ha
      · rename_i f hf
        have hnone := hs a ha
        simp [hnone] at hf
      · rw [hrep] at ha
        split at ha
        · rename_i hr
          simp only [show s.session = some a from ha, Option.map_some,
            classifySessionReplacement, if_true] at hr
          simp at hr
        · simp [hend] at ha
        · rename_i hr
          simp only [show s.session = some a from ha, Option.map_some,
            classifySessionReplacement, if_true] at hr
          simp at hr
  | cancelInvalidSession sessionId =>
    intro hends
    obtain rfl : sessionId = a.id := by simpa [InjectorRequest.ends] using hends
    simp only [handleRequest, cancelInvalidSession] at ha
    split at ha
    · rename_i hf
      simp [show s.session = some a from ha, Option.filter] at hf
    · simp [hend] at ha
  | applyState sessionId n text => simp [InjectorRequest.ends]
  | finishSession sessionId n => simp [InjectorRequest.ends]
  | querySession sessionId => simp [InjectorRequest.ends]
  | probeTarget => simp [InjectorRequest.ends]

namespace Windows

/-- What a step without a request does: it goes on with what is under way. -/
structure Continues (s t : Windows) : Prop where
  session : ∀ a, t.injector.session = some a →
    (∃ a₀, s.injector.session = some a₀ ∧ a₀.id = a.id) ∨
      ∃ w, s.waiting = some w ∧ w.offers = some a.id
  waiting : ∀ w, t.waiting = some w → ∃ w₀, s.waiting = some w₀ ∧
    ∀ id, w.offers = some id → w₀.offers = some id
  exclusive : s.injector.Exclusive → t.injector.Exclusive
  reply : t.reply ≠ none → t.waiting = none

theorem Continues.of_eq {s t : Windows} (hi : t.injector = s.injector) (hw : t.waiting = s.waiting)
    (hr : t.reply = none) : s.Continues t := by
  refine ⟨?_, ?_, ?_, ?_⟩
  · intro a ha
    exact Or.inl ⟨a, hi ▸ ha, rfl⟩
  · intro w hw'
    exact ⟨w, hw ▸ hw', fun _ h => h⟩
  · intro h
    rw [hi]
    exact h
  · intro h
    exact absurd hr h

theorem perform_reply_waiting {s : Windows} (hr : s.reply = none) (r : Injector × Next) :
    (s.perform r).reply ≠ none → (s.perform r).waiting = none := by
  rw [perform_reply, perform_waiting]
  cases r.2 <;> simp [hr]

/-- The offer of what `perform` waits for. -/
theorem perform_offers {s : Windows} {r : Injector × Next} {w : Waiting}
    (hw : (s.perform r).waiting = some w) : w.offers = r.2.offers := by
  rw [perform_waiting] at hw
  split at hw
  · rename_i hr
    rw [hr]
    obtain rfl := Option.some.inj hw
    rfl
  · rename_i hr
    rw [hr]
    obtain rfl := Option.some.inj hw
    rfl
  · simp at hw

theorem perform_continues {s u : Windows} {w : Waiting} {r : Injector × Next}
    (hw : s.waiting = some w) (hr : u.reply = none)
    (hsession : ∀ a, r.1.session = some a →
      (∃ a₀, s.injector.session = some a₀ ∧ a₀.id = a.id) ∨ w.offers = some a.id)
    (hoffers : ∀ id, r.2.offers = some id → w.offers = some id)
    (hexclusive : s.injector.Exclusive → r.1.Exclusive) : s.Continues (u.perform r) := by
  refine ⟨?_, ?_, ?_, perform_reply_waiting hr r⟩
  · intro a ha
    rw [perform_injector] at ha
    rcases hsession a ha with h | h
    · exact Or.inl h
    · exact Or.inr ⟨w, hw, h⟩
  · intro w' hw'
    refine ⟨w, hw, ?_⟩
    intro id hid
    rw [perform_offers hw'] at hid
    exact hoffers id hid
  · intro h
    rw [perform_injector]
    exact hexclusive h

theorem step_continues {s t : Windows} {e : Event} (h : s.Fits) (hs : s.step e = some t)
    (hrequest : ∀ request desktop, e ≠ .request request desktop) (hpipe : e ≠ .pipeLost)
    (hrestart : e ≠ .restart) : s.Continues t := by
  cases e with
  | request request desktop => exact absurd rfl (hrequest request desktop)
  | select candidates =>
    obtain ⟨call, rejected, tried, hw, -, rfl⟩ := stepSelect_some hs
    refine perform_continues hw rfl ?_ ?_ (fun h => h)
    · exact fun a ha => Or.inl ⟨a, ha, rfl⟩
    · intro id hid
      cases candidates with
      | nil => exact hid
      | cons k ks => exact hid
  | expire =>
    obtain ⟨call, rejected, hw, rfl⟩ := stepExpire_some hs
    refine perform_continues hw rfl ?_ ?_ (fun h => h)
    · exact fun a ha => Or.inl ⟨a, ha, rfl⟩
    · simp [beginExpired, Next.offers]
  | execute tip env =>
    obtain ⟨_, _, _, -, -, rfl⟩ := stepExecute_some hs
    exact .of_eq rfl rfl rfl
  | deliver tip =>
    obtain ⟨_, p, _, answer, -, -, ⟨key, command, wait, hw, rfl⟩ | ⟨-, rfl⟩⟩ := stepDeliver_some hs
    · refine perform_continues hw rfl ?_ ?_ ?_
      · exact fun a ha => s.injector.resume_session s.input key command _ (h _ hw) ha
      · exact fun id hid => s.injector.resume_offers s.input key _ hid
      · exact s.injector.resume_exclusive s.input key command _ (h _ hw)
    · exact .of_eq rfl rfl rfl
  | giveUp =>
    obtain ⟨key, command, token, wait, hw, rfl⟩ := stepGiveUp_some hs
    refine perform_continues hw rfl ?_ ?_ ?_
    · exact fun a ha => s.injector.resume_session s.input key command _ (h _ hw) ha
    · exact fun id hid => s.injector.resume_offers s.input key _ hid
    · exact s.injector.resume_exclusive s.input key command _ (h _ hw)
  | disconnect tip =>
    obtain ⟨-, rfl⟩ := stepDisconnect_some hs
    exact .of_eq rfl rfl rfl
  | executeDetached tip env =>
    obtain ⟨_, -, rfl⟩ := stepExecuteDetached_some hs
    exact .of_eq rfl rfl rfl
  | connect tip =>
    obtain ⟨-, -, rfl⟩ := stepConnect_some hs
    exact .of_eq rfl rfl rfl
  | externalEdit tip =>
    obtain rfl := step_externalEdit_some hs
    exact .of_eq rfl rfl rfl
  | pipeLost => exact absurd rfl hpipe
  | restart => exact absurd rfl hrestart
  | dropDetached tip =>
    obtain rfl : _ = t := by simpa [step] using hs
    exact .of_eq rfl rfl rfl
  | deactivate tip =>
    obtain rfl : _ = t := by simpa [step] using hs
    exact .of_eq rfl rfl rfl
  | physicalInput isReturn =>
    obtain rfl : _ = t := by simpa [step] using hs
    exact .of_eq rfl rfl rfl

end Windows

theorem InjectorRequest.ends_ne_begins {request : InjectorRequest} {id : String}
    (h : request.begins = some id) : request.ends ≠ some id := by
  cases request with
  | beginSession sessionId replaces n text attach =>
    obtain rfl : sessionId = id := by simpa [begins] using h
    simp [ends, Option.filter_eq_some_iff]
  | applyState sessionId n text => simp [ends]
  | finishSession sessionId n => simp [ends]
  | querySession sessionId => simp [ends]
  | probeTarget => simp [ends]
  | cancelInvalidSession sessionId => simp [begins] at h

theorem Attempt.wire_begins (attempt : Attempt) (request : InjectorRequest) :
    (attempt.wire request).begins = request.begins := by
  cases attempt with
  | first previous => rfl
  | again => rfl
  | query => cases request <;> rfl

theorem Attempt.wire_ends (attempt : Attempt) (request : InjectorRequest) :
    (attempt.wire request).ends = request.ends := by
  cases attempt with
  | first previous => rfl
  | again => rfl
  | query => cases request <;> rfl

namespace Dispatcher

/-- No exchange with a living injector fails. -/
def Reliable (s : Dispatcher) : Event → Prop
  | .writeFails => s.serving = false
  | .readFails => s.serving = false
  | _ => True

instance (s : Dispatcher) (e : Event) : Decidable (s.Reliable e) := by
  unfold Reliable
  split <;> infer_instance

/-- The pipe of the app is the one the injector serves; what the injector waits
for belongs to the request under way, and a session that this request ends is
gone once the injector has read it. -/
structure PipeInv (s : Dispatcher) : Prop where
  fits : s.windows.Fits
  exclusive : s.windows.injector.Exclusive
  linked : s.serving = true ↔ s.Linked
  away : s.serving = false → s.windows.injector.session = none ∧ s.windows.waiting = none
  present : ∀ n, s.client = some n → n ≤ s.instanceId
  unlinked : ∀ request, s.phase = .connect request ∨ (∃ previousInstance,
    s.phase = .reconnect request previousInstance) → s.client = none
  busy : ∀ w, s.windows.waiting = some w → ∃ request attempt, s.phase = .receive request attempt ∧
    ∀ id, w.offers = some id → request.begins = some id
  answered : s.response ≠ none → s.windows.waiting = none
  ended : ∀ request attempt, s.phase = .receive request attempt →
    ∀ a, s.windows.injector.session = some a → request.ends ≠ some a.id

theorem PipeInv.of_phase {s t : Dispatcher} (h : s.PipeInv) (hw : t.windows = s.windows)
    (hidle : s.windows.waiting = none) (hlinked : t.serving = true ↔ t.Linked)
    (hserving : t.serving = false → s.serving = false)
    (hpresent : ∀ n, t.client = some n → n ≤ t.instanceId)
    (hunlinked : ∀ request, t.phase = .connect request ∨ (∃ previousInstance,
      t.phase = .reconnect request previousInstance) → t.client = none)
    (hphase : ∀ request attempt, t.phase ≠ .receive request attempt) : t.PipeInv := by
  refine ⟨hw ▸ h.fits, hw ▸ h.exclusive, hlinked, ?_, hpresent, hunlinked, ?_, ?_, ?_⟩
  · intro hn
    rw [hw]
    exact h.away (hserving hn)
  · intro w hw'
    rw [hw, hidle] at hw'
    simp at hw'
  · intro _
    rw [hw]
    exact hidle
  · intro request attempt hp
    exact absurd hp (hphase request attempt)

theorem PipeInv.idle {s : Dispatcher} (h : s.PipeInv)
    (hp : ∀ request attempt, s.phase ≠ .receive request attempt) : s.windows.waiting = none := by
  cases hw : s.windows.waiting with
  | none => rfl
  | some w =>
    obtain ⟨request, attempt, hp', -⟩ := h.busy w hw
    exact absurd hp' (hp request attempt)

theorem link_linked (s : Dispatcher) : s.link.serving = true ↔ s.link.Linked := by
  simp [link, Linked]

theorem PipeInv.write {s : Dispatcher} (h : s.PipeInv) {request : InjectorRequest}
    {attempt : Attempt} {desktop : Desktop} {w : Windows} (hl : s.Linked)
    (hw : s.windows.step (.request (attempt.wire request) desktop) = some w)
    (origin : Nat → Option Nat) :
    PipeInv { s with windows := w, response := w.reply, phase := .receive request attempt
                     origin := origin } := by
  have hfits := Windows.step_fits h.fits hw
  obtain ⟨-, rfl⟩ := Windows.stepRequest_some hw
  have hmove := s.windows.injector.handleRequest_move desktop s.windows.input
    (attempt.wire request)
  have hserving := h.linked.mpr hl
  refine ⟨hfits, ?_, h.linked, ?_, h.present, ?_, ?_, ?_, ?_⟩
  · rw [Windows.perform_injector]
    exact hmove.exclusive h.exclusive
  · intro hn
    exact absurd hn (by simp [hserving])
  · intro r hr
    simp at hr
  · intro w' hw'
    refine ⟨request, attempt, rfl, ?_⟩
    intro id hid
    rw [Windows.perform_offers hw'] at hid
    rw [← attempt.wire_begins request]
    exact s.windows.injector.handleRequest_offers desktop s.windows.input hid
  · exact Windows.perform_reply_waiting rfl _
  · rintro r a ⟨⟩ b hb
    rw [Windows.perform_injector] at hb
    rw [← attempt.wire_ends request]
    exact s.windows.injector.handleRequest_ends h.exclusive desktop s.windows.input hb

theorem PipeInv.windows {s : Dispatcher} (h : s.PipeInv) {event : Windows.Event} {w : Windows}
    (hw : s.windows.step event = some w)
    (hrequest : ∀ request desktop, event ≠ .request request desktop) (hpipe : event ≠ .pipeLost)
    (hrestart : event ≠ .restart) :
    PipeInv { s with windows := w, response :=
      if s.Linked ∧ w.reply ≠ none then w.reply else s.response } := by
  have hc := Windows.step_continues h.fits hw hrequest hpipe hrestart
  have hnone : s.windows.waiting = none → w.waiting = none := by
    intro hn
    cases hw' : w.waiting with
    | none => rfl
    | some w' =>
      obtain ⟨w₀, hw₀, -⟩ := hc.waiting w' hw'
      simp [hn] at hw₀
  refine ⟨Windows.step_fits h.fits hw, hc.exclusive h.exclusive, h.linked, ?_, h.present,
    h.unlinked, ?_, ?_, ?_⟩
  · intro hserving
    obtain ⟨hsession, hwaiting⟩ := h.away hserving
    refine ⟨?_, hnone hwaiting⟩
    cases ha : w.injector.session with
    | none => rfl
    | some a =>
      rcases hc.session a ha with ⟨a₀, ha₀, -⟩ | ⟨w₀, hw₀, -⟩
      · simp [hsession] at ha₀
      · simp [hwaiting] at hw₀
  · intro w' hw'
    obtain ⟨w₀, hw₀, hoffers⟩ := hc.waiting w' hw'
    obtain ⟨request, attempt, hp, hbegins⟩ := h.busy w₀ hw₀
    exact ⟨request, attempt, hp, fun id hid => hbegins id (hoffers id hid)⟩
  · intro hresponse
    by_cases hl : s.Linked ∧ w.reply ≠ none
    · exact hc.reply hl.2
    · simp only [hl, if_false] at hresponse
      exact hnone (h.answered hresponse)
  · intro request attempt hp a ha
    rcases hc.session a ha with ⟨a₀, ha₀, hid⟩ | ⟨w₀, hw₀, hoffers⟩
    · rw [← hid]
      exact h.ended request attempt hp a₀ ha₀
    · obtain ⟨r, at', hp', hbegins⟩ := h.busy w₀ hw₀
      rw [hp] at hp'
      obtain ⟨rfl, -⟩ := Phase.receive.inj hp'
      exact InjectorRequest.ends_ne_begins (hbegins _ hoffers)

theorem step_pipeInv {s t : Dispatcher} {e : Event} (h : s.PipeInv) (hok : s.Reliable e)
    (hs : s.step e = some t) : t.PipeInv := by
  have h₀ : PipeInv { s with result := none } := ⟨h.fits, h.exclusive, h.linked, h.away, h.present,
    h.unlinked, h.busy, h.answered, h.ended⟩
  have hfailed : ∀ request attempt, s.serving = false →
      PipeInv (failed { s with result := none } request attempt) := by
    intro request attempt hn
    obtain ⟨hw, -, -, hserving, hclient, -⟩ := failed_frame { s with result := none } request attempt
    refine h.of_phase hw (h.away hn).2 ?_ (fun _ => hn) ?_ (fun _ _ => hclient) ?_
    · rw [hserving, Linked, hclient]
      simp [hn]
    · simp [hclient]
    · cases attempt <;> simp [failed, finish]
  cases step_does hs with
  | submit request hp =>
    refine h.of_phase rfl (h.idle (by simp [show s.phase = _ from hp])) h.linked (fun h => h)
      h.present ?_ ?_
    · intro r hr
      cases hc : s.client with
      | none => rfl
      | some n => simp [hc] at hr
    · cases s.client <;> simp
  | connect request hacc hp =>
    refine h.of_phase rfl hacc.2 s.link_linked (by simp [link]) ?_ ?_ ?_
    · simp [link]
    · simp
    · simp
  | reconnect request previous attempt hacc hp ha =>
    refine h.of_phase rfl hacc.2 s.link_linked (by simp [link]) ?_ ?_ ?_
    · simp [link]
    · simp
    · simp
  | giveUp request previous hacc hp =>
    refine h.of_phase rfl hacc.2 s.link_linked (by simp [link, finish]) ?_ ?_ ?_
    · simp [link, finish]
    · simp [finish]
    · simp [finish]
  | connectFails request hp =>
    refine h.of_phase rfl (h.idle ?_) h.linked (fun h => h) h.present ?_ ?_
    · rcases hp with hp | ⟨previous, hp⟩ <;> simp [show s.phase = _ from hp]
    · simp [finish]
    · simp [finish]
  | write request attempt desktop w hp hl hw => exact h₀.write hl hw _
  | writeFails request attempt hp => exact hfailed request attempt hok
  | readFails request attempt hp => exact hfailed request attempt hok
  | read request attempt response hp hr hq =>
    refine h.of_phase rfl (h.answered (by simp [show s.response = _ from hr])) h.linked
      (fun h => h) h.present ?_ ?_
    · simp [finish]
    · simp [finish]
  | reconcile request response hp hr =>
    have hidle := h.answered (by simp [show s.response = _ from hr])
    rcases reconcile_cases { s with result := none, response := none } request response with
      ⟨result, heq⟩ | heq
    · rw [heq]
      exact h.of_phase rfl hidle h.linked (fun h => h) h.present (by simp [finish])
        (by simp [finish])
    · rw [heq]
      exact h.of_phase rfl hidle h.linked (fun h => h) h.present (by simp) (by simp)
  | windows event w hne hpipe hrestart hw => exact h₀.windows hw hne hpipe hrestart
  | pipeLost w hserving hl hw => exact absurd (h.linked.mp hserving) hl
  | restart w hw =>
    obtain rfl : _ = w := by simpa [Windows.step] using hw
    refine ⟨Windows.step_fits h.fits hw, .of_none rfl, ?_, fun _ => ⟨rfl, rfl⟩, ?_, h.unlinked,
      by simp, fun _ => rfl, by simp⟩
    · simp only [Bool.false_eq_true, Linked, false_iff]
      intro hc
      have := h.present _ hc
      omega
    · intro n hn
      have := h.present n hn
      simp only
      omega
  | repair hp hacc =>
    refine h.of_phase rfl hacc.2 s.link_linked (by simp [link]) ?_ ?_ ?_
    · simp [link]
    · simp [link, show s.phase = _ from hp]
    · simp [link, show s.phase = _ from hp]

theorem pipeInv_initial : PipeInv {} := by
  refine ⟨?_, .of_none rfl, by simp [Linked], fun _ => ⟨rfl, rfl⟩, by simp, by simp, by simp,
    by simp, by simp⟩
  intro w hw
  simp at hw

/-- A request that is done without its answer has met no injector. -/
theorem result_gone {s t : Dispatcher} {e : Event} (h : s.PipeInv) (hok : s.Reliable e)
    (hs : s.step e = some t) (hr : t.result ≠ none) :
    t.windows.injector.session = none ∨
      ∃ request attempt, s.phase = .receive request attempt ∧ t.windows = s.windows := by
  have hfailed : ∀ request attempt, s.serving = false →
      (failed { s with result := none } request attempt).windows.injector.session = none := by
    intro request attempt hn
    rw [(failed_frame { s with result := none } request attempt).1]
    exact (h.away hn).1
  cases step_does hs with
  | submit request hp => simp at hr
  | connect request hacc hp => simp [link] at hr
  | reconnect request previous attempt hacc hp ha => simp [link] at hr
  | giveUp request previous hacc hp => exact Or.inl (h.away hacc.1).1
  | connectFails request hp =>
    have hserving : s.serving = false := by
      rw [Bool.eq_false_iff]
      intro hn
      have hl := h.linked.mp hn
      rw [Linked, h.unlinked request hp] at hl
      simp at hl
    exact Or.inl (h.away hserving).1
  | write request attempt desktop w hp hl hw => simp at hr
  | writeFails request attempt hp => exact Or.inl (hfailed request attempt hok)
  | readFails request attempt hp => exact Or.inl (hfailed request attempt hok)
  | read request attempt response hp hresp hq => exact Or.inr ⟨request, attempt, hp, rfl⟩
  | reconcile request response hp hresp =>
    exact Or.inr ⟨request, .query, hp, reconcile_windows _ _ _⟩
  | windows event w hne hpipe hrestart hw => simp at hr
  | pipeLost w hserving hl hw => simp at hr
  | restart w hw => simp at hr
  | repair hp hacc => simp [link] at hr

/-- A request is under way until there is a result. -/
theorem step_busy {s t : Dispatcher} {e : Event} (hs : s.step e = some t) (hp : s.phase ≠ .idle)
    (hr : t.result = none) : t.phase ≠ .idle := by
  have hfailed : ∀ request attempt,
      (failed { s with result := none } request attempt).result = none →
      (failed { s with result := none } request attempt).phase ≠ .idle := by
    intro request attempt
    cases attempt <;> simp [failed, finish]
  cases step_does hs with
  | submit request hidle => exact absurd hidle hp
  | connect request hacc hp' => simp
  | reconnect request previous attempt hacc hp' ha => simp
  | giveUp request previous hacc hp' => simp [finish] at hr
  | connectFails request hp' => simp [finish] at hr
  | write request attempt desktop w hp' hl hw => simp
  | writeFails request attempt hp' => exact hfailed request attempt hr
  | readFails request attempt hp' => exact hfailed request attempt hr
  | read request attempt response hp' hresp hq => simp [finish] at hr
  | reconcile request response hp' hresp =>
    rcases reconcile_cases { s with result := none, response := none } request response with
      ⟨result, heq⟩ | heq
    · simp [heq, finish] at hr
    · simp [heq]
  | windows event w hne hpipe hrestart hw => exact hp
  | pipeLost w hserving hl hw => exact hp
  | restart w hw => exact hp
  | repair hidle hacc => exact absurd hidle hp

/-- Where the active session comes from: it was there, or the request under way has
begun it. -/
theorem step_session {s t : Dispatcher} {e : Event} (h : s.PipeInv) (hs : s.step e = some t)
    {a : ActiveSession} (ha : t.windows.injector.session = some a) :
    (∃ a₀, s.windows.injector.session = some a₀ ∧ a₀.id = a.id) ∨
      ∃ request attempt, s.phase = .receive request attempt ∧ request.begins = some a.id := by
  rcases step_windows hs with ⟨hw, -, -⟩ | ⟨request, attempt, desktop, -, hw, -, -⟩ |
    ⟨event, hw, -, -, hne, hevent⟩
  · rw [hw] at ha
    exact Or.inl ⟨a, ha, rfl⟩
  · obtain ⟨-, hw⟩ := Windows.stepRequest_some hw
    rw [hw, Windows.perform_injector] at ha
    exact Or.inl ⟨a, (s.windows.injector.handleRequest_move desktop s.windows.input
      (attempt.wire request)).session ha, rfl⟩
  · by_cases hrestart : event = .restart
    · subst hrestart
      obtain hw : _ = t.windows := by simpa [Windows.step] using hw
      simp [← hw] at ha
    · by_cases hpipe : event = .pipeLost
      · subst hpipe
        simp only [Windows.step] at hw
        split_ifs at hw
        obtain hw := Option.some.inj hw
        rw [← hw, Windows.perform_injector] at ha
        exact Or.inl ⟨a, (s.windows.injector.endFailedSession_move _).session ha, rfl⟩
      · rcases (Windows.step_continues h.fits hw hne hpipe hrestart).session a ha with
          hold | ⟨w, hwait, hoffers⟩
        · exact Or.inl hold
        · obtain ⟨request, attempt, hp, hbegins⟩ := h.busy w hwait
          exact Or.inr ⟨request, attempt, hp, hbegins _ hoffers⟩

end Dispatcher

end FlowType
