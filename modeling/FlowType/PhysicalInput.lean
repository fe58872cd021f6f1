import FlowType.Windows

/-! Physical keyboard and mouse input against the requests of the app. A run
remembers which sessions have seen input since the injector recorded them, and
the request that is being handled for such a session. -/
namespace FlowType

def InjectorRequest.concerns : InjectorRequest → Option String
  | .applyState sessionId _ _ => some sessionId
  | .querySession sessionId => some sessionId
  | _ => none

/-- A request of a touched session: whether the injector held the session, and
whether its target window was still there. -/
structure Asked where
  request : InjectorRequest
  held : Bool
  targetValid : Bool
  deriving DecidableEq, Repr

structure InputRun where
  windows : Windows := {}
  touched : List String := []
  asked : Option Asked := none

namespace InputRun
open Machine

def holds (s : InputRun) (sessionId : String) : Bool :=
  decide (s.windows.injector.session.map (·.id) = some sessionId)

/-- Input touches the session that is held; a session that is recorded starts
untouched. -/
def touch (s : InputRun) (e : Windows.Event) (t : Windows) : List String :=
  match e with
  | .physicalInput _ => (s.windows.injector.session.map (·.id)).toList ++ s.touched
  | _ =>
    match s.windows.injector.session, t.injector.session with
    | none, some active => s.touched.filter fun id => decide (id ≠ active.id)
    | _, _ => s.touched

def ask (s : InputRun) : Windows.Event → Option Asked
  | .request request desktop =>
    (request.concerns.filter fun id => decide (id ∈ s.touched)).map fun id =>
      ⟨request, s.holds id, desktop.targetValid⟩
  | .restart => none
  | _ => if s.windows.waiting = none then none else s.asked

def step (s : InputRun) (e : Windows.Event) : Option InputRun :=
  (s.windows.step e).map fun t => { windows := t, touched := s.touch e t, asked := s.ask e }

def Refused (response : InjectorResponse) : Prop :=
  response = .targetModified ∨ response = .targetSubmitted

instance (response : InjectorResponse) : Decidable (Refused response) :=
  inferInstanceAs (Decidable (_ ∨ _))

/-- What happens to a request of a touched session. Nothing but the cancellation
of the session is sent to a text service, the answer is never SessionActive, and
a session that was held is ended and refused, unless its window has gone. -/
structure Heeds (s : InputRun) (q : Asked) : Prop where
  pending : s.windows.waiting ≠ none ∨ s.windows.reply ≠ none
  sent : ∀ w ∈ s.windows.waiting, ∃ key id token response,
    w = .call key (.cancel id) token (.cancel (.reply response)) ∧ Refused response ∧
      q.held = true ∧ s.windows.injector.session = none
  answered : ∀ response ∈ s.windows.reply,
    (∀ id n text, response ≠ .sessionActive id n text) ∧
    (q.held = true → (Refused response ∧ s.windows.injector.session = none) ∨
      (response = .targetInvalid ∧ q.targetValid = false ∧
        ∃ id n text, q.request = .applyState id n text))

def Heeded (s : InputRun) : Prop := ∀ q ∈ s.asked, s.Heeds q

/-- The epoch of the held session is the one of its recording, and input since
then has advanced the counter. -/
structure InputInv (s : InputRun) : Prop where
  fits : s.windows.Fits
  epoch : ∀ a ∈ s.windows.injector.session, a.inputEpoch ≤ s.windows.input.epoch ∧
    (a.id ∈ s.touched → a.inputEpoch < s.windows.input.epoch)
  completed : s.windows.injector.session ≠ none → s.windows.injector.completed = none
  heeded : s.Heeded

end InputRun

namespace Injector

/-- The session after an answer is the one before it, or it has just been
recorded with the current epoch. -/
theorem resume_kept_or_new {s : Injector} {input : InputMonitor} {key : TipKey}
    {command : TipCommand} {wait : Wait} {answer : Option TipResponse}
    (hfit : s.WaitFits key command wait) {a : ActiveSession}
    (ha : (s.resume input key wait answer).1.session = some a) :
    (∃ b, s.session = some b ∧ b.id = a.id ∧ b.inputEpoch = a.inputEpoch ∧
      (s.resume input key wait answer).1.completed = s.completed) ∨
    (s.session = none ∧ a.inputEpoch = input.epoch ∧
      (s.resume input key wait answer).1.completed = none) := by
  cases wait with
  | cancel after =>
    -- the session is gone while a Cancel is on its way
    have hm := (s.afterCancel_move hfit.1 after).session ha
    simp [hfit.1] at hm
  | begin call rest rejected =>
    rcases s.resumeBegin_cases input key call rest rejected answer with
      ⟨-, h⟩ | ⟨-, h | ⟨rejected', h⟩⟩
    · simp only [resume] at ha ⊢
      rw [h] at ha ⊢
      obtain rfl : _ = a := by simpa using ha
      exact Or.inr ⟨hfit.2, rfl, rfl⟩
    · simp only [resume] at ha
      rw [h] at ha
      simp [hfit.2] at ha
    · simp only [resume] at ha
      rw [h] at ha
      simp [hfit.2] at ha
  | update id sequence text =>
    obtain ⟨-, b, hb, -, -, -⟩ := hfit
    have hres : s.resume input key (.update id sequence text) answer =
        s.resumeUpdate b id sequence text answer := by simp only [resume, hb]
    rw [hres] at ha ⊢
    rcases s.resumeUpdate_cases hb id sequence text answer with
      ⟨-, h⟩ | ⟨n, -, -, h⟩ | ⟨-, h⟩ | ⟨response, -, h⟩
    · rw [h] at ha ⊢
      obtain rfl : _ = a := by simpa using ha
      exact Or.inl ⟨b, hb, rfl, rfl, rfl⟩
    · rw [h] at ha ⊢
      obtain rfl : b = a := by simpa [hb] using ha
      exact Or.inl ⟨b, hb, rfl, rfl, rfl⟩
    · rw [h] at ha ⊢
      obtain rfl : b = a := by simpa [hb] using ha
      exact Or.inl ⟨b, hb, rfl, rfl, rfl⟩
    · rw [h] at ha
      simp at ha
  | finish id sequence =>
    obtain ⟨-, b, hb, -, -, -⟩ := hfit
    have hres : s.resume input key (.finish id sequence) answer =
        s.resumeFinish b id sequence answer := by simp only [resume, hb]
    rw [hres] at ha
    rcases s.resumeFinish_cases hb id sequence answer with ⟨-, h⟩ | ⟨response, -, h⟩
    · rw [h] at ha
      simp at ha
    · rw [h] at ha
      simp at ha
  | query id inputEpoch sequence text =>
    have hres : s.resume input key (.query id inputEpoch sequence text) answer =
        s.resumeQuery input id inputEpoch sequence text answer := by simp only [resume]
    rw [hres] at ha ⊢
    have hmove := s.resumeQuery_move input id inputEpoch sequence text answer
    have hs := hmove.session ha
    refine Or.inl ⟨a, hs, rfl, rfl, ?_⟩
    generalize s.resumeQuery input id inputEpoch sequence text answer = r at hmove ha
    cases hmove with
    | accept hnone => simp [hnone] at hs
    | _ => rfl

/-- A request of a held session whose epoch has passed: refused, with the session
ended, unless an ApplyState finds the window gone. -/
theorem handleRequest_touched {s : Injector} {a : ActiveSession} (desktop : Desktop)
    {input : InputMonitor} {request : InjectorRequest} (hs : s.session = some a)
    (hcompleted : s.completed = none) (hepoch : a.inputEpoch < input.epoch)
    (hid : request.concerns = some a.id) :
    (∃ response, (response = .targetModified ∨ response = .targetSubmitted) ∧
      s.handleRequest desktop input request =
        ({ s with session := none }, .call a.tip (.cancel a.id) (.cancel (.reply response)))) ∨
    (desktop.targetValid = false ∧ (∃ id n text, request = .applyState id n text) ∧
      s.handleRequest desktop input request = (s, .reply .targetInvalid)) := by
  have hne : a.inputEpoch ≠ input.epoch := by omega
  have hend := fun response => s.endFailedSession_of_some hs (.reply response)
  cases request with
  | applyState id n text =>
    obtain rfl : id = a.id := by simpa [InjectorRequest.concerns] using hid
    have hheld : s.session.filter (fun active => decide (active.id = a.id)) = some a := by
      simp [hs, Option.filter]
    have happly : s.handleRequest desktop input (.applyState a.id n text) =
        s.applyState desktop input a.id n text := by
      simp only [handleRequest, hcompleted, completedApplyResponse, Option.filter_none,
        Option.map_none]
    rw [happly]
    simp only [applyState, hheld]
    by_cases hv : desktop.targetValid = false
    · rw [if_pos hv]
      exact Or.inr ⟨hv, ⟨_, _, _, rfl⟩, rfl⟩
    · rw [if_neg hv, if_pos hne]
      exact Or.inl ⟨_, Or.inl rfl, hend _⟩
  | querySession id =>
    obtain rfl : id = a.id := by simpa [InjectorRequest.concerns] using hid
    have hheld : s.session.filter (fun active => decide (active.id = a.id)) = some a := by
      simp [hs, Option.filter]
    simp only [handleRequest, querySession, hheld, queryActiveSession]
    rw [if_pos hne]
    refine Or.inl ⟨_, ?_, hend _⟩
    split
    · exact Or.inr rfl
    · exact Or.inl rfl
  | _ => simp [InjectorRequest.concerns] at hid

/-- A request of a session that is not held is answered at once, and not with
SessionActive. -/
theorem handleRequest_not_held {s : Injector} (desktop : Desktop) (input : InputMonitor)
    {request : InjectorRequest} {id : String} (hid : request.concerns = some id)
    (hs : s.session.map (·.id) ≠ some id) :
    ∃ response, s.handleRequest desktop input request = (s, .reply response) ∧
      ∀ id n text, response ≠ .sessionActive id n text := by
  have hheld : s.session.filter (fun active => decide (active.id = id)) = none := by
    cases hsess : s.session with
    | none => rfl
    | some a =>
      have hne : a.id ≠ id := fun h => hs (by simp [hsess, h])
      simp [Option.filter, hne]
  cases request with
  | applyState id' n text =>
    obtain rfl : id' = id := by simpa [InjectorRequest.concerns] using hid
    simp only [handleRequest, applyState, hheld]
    split
    · rename_i response hresponse
      refine ⟨response, rfl, ?_⟩
      obtain ⟨f, -, rfl⟩ := Option.map_eq_some_iff.mp hresponse
      intro id n text
      split <;> simp
    · exact ⟨_, rfl, by simp⟩
  | querySession id' =>
    obtain rfl : id' = id := by simpa [InjectorRequest.concerns] using hid
    simp only [handleRequest, querySession, hheld]
    split
    · exact ⟨_, rfl, by simp⟩
    · exact ⟨_, rfl, by simp⟩
  | _ => simp [InjectorRequest.concerns] at hid

end Injector

namespace Windows

/-- The held session after a step is the one before it, or it has just been
recorded with the current epoch. -/
theorem step_session {s t : Windows} {e : Event} (hf : s.Fits) (h : s.step e = some t)
    {a : ActiveSession} (ha : t.injector.session = some a) :
    (∃ b, s.injector.session = some b ∧ b.id = a.id ∧ b.inputEpoch = a.inputEpoch ∧
      (s.injector.completed = none → t.injector.completed = none)) ∨
    (s.injector.session = none ∧ a.inputEpoch = s.input.epoch ∧ t.injector.completed = none ∧
      t.input = s.input ∧ ∀ isReturn, e ≠ .physicalInput isReturn) := by
  -- an action that begins nothing keeps or ends the session
  have hmove : ∀ u r, t = perform u r → Injector.Move s.injector r →
      ∃ b, s.injector.session = some b ∧ b.id = a.id ∧ b.inputEpoch = a.inputEpoch ∧
        (s.injector.completed = none → t.injector.completed = none) := by
    rintro u r rfl hm
    rw [perform_injector] at ha ⊢
    refine ⟨a, hm.session ha, rfl, rfl, ?_⟩
    intro hnone
    by_contra hc
    obtain ⟨f, hf'⟩ := Option.ne_none_iff_exists'.mp hc
    simp [hm.completed hf'] at hnone
  rcases step_acts h with ⟨hinj, -, -, -⟩ | ⟨-, hinj, -, -⟩ | ⟨u, r, ht, hinput, -, hact⟩
  · rw [hinj] at ha ⊢
    exact Or.inl ⟨a, ha, rfl, rfl, id⟩
  · rw [hinj] at ha
    simp at ha
  · cases hact with
    | request request desktop _ =>
      exact Or.inl (hmove u _ ht (s.injector.handleRequest_move desktop s.input request))
    | select candidates hw =>
      have hnone : s.injector.session = none := hf _ hw
      rw [ht, perform_injector] at ha
      simp [hnone] at ha
    | expire hw =>
      have hnone : s.injector.session = none := hf _ hw
      rw [ht, perform_injector] at ha
      simp [hnone] at ha
    | @deliver key command token wait tip answer hw =>
      rw [ht, perform_injector] at ha
      rcases Injector.resume_kept_or_new (hf _ hw) ha with ⟨b, h1, h2, h3, h4⟩ | ⟨h1, h2, h3⟩
      · exact Or.inl ⟨b, h1, h2, h3, fun hnone => by rw [ht, perform_injector, h4, hnone]⟩
      · refine Or.inr ⟨h1, h2, by rw [ht, perform_injector, h3], ?_, by simp⟩
        rw [ht, perform_input, hinput]
    | @giveUp key command token wait hw =>
      rw [ht, perform_injector] at ha
      rcases Injector.resume_kept_or_new (hf _ hw) ha with ⟨b, h1, h2, h3, h4⟩ | ⟨h1, h2, h3⟩
      · exact Or.inl ⟨b, h1, h2, h3, fun hnone => by rw [ht, perform_injector, h4, hnone]⟩
      · refine Or.inr ⟨h1, h2, by rw [ht, perform_injector, h3], ?_, by simp⟩
        rw [ht, perform_input, hinput]
    | pipeLost _ => exact Or.inl (hmove u _ ht (s.injector.endFailedSession_move _))

/-- The counter of the input monitor only grows, unless the injector is started
anew. -/
theorem step_epoch {s t : Windows} {e : Event} (h : s.step e = some t) :
    t.input = s.input ∨ (∃ isReturn, e = .physicalInput isReturn ∧ t.injector = s.injector ∧
      t.input.epoch = s.input.epoch + 1) ∨ t.injector.session = none := by
  rcases step_acts h with ⟨hinj, -, -, hin | ⟨isReturn, he, hin⟩⟩ | ⟨-, hinj, -, -⟩ |
    ⟨u, r, ht, hinput, -, -⟩
  · exact Or.inl hin
  · exact Or.inr (Or.inl ⟨isReturn, he, hinj, by rw [hin]⟩)
  · exact Or.inr (Or.inr (by rw [hinj]))
  · exact Or.inl (by rw [ht, perform_input, hinput])

end Windows

namespace InputRun
open Machine Windows

theorem touch_subset {s : InputRun} {e : Event} {t : Windows}
    (he : ∀ isReturn, e ≠ .physicalInput isReturn) : s.touch e t ⊆ s.touched := by
  have hfilter : (match s.windows.injector.session, t.injector.session with
      | none, some active => s.touched.filter fun id => decide (id ≠ active.id)
      | _, _ => s.touched) ⊆ s.touched := by
    split
    · exact List.filter_subset_self _
    · exact List.Subset.refl _
  cases e with
  | physicalInput isReturn => exact absurd rfl (he isReturn)
  | _ => exact hfilter

/-- Which sessions are touched agrees with their epochs. -/
theorem step_epochs {s t : InputRun} {e : Event} (hI : s.InputInv) (h : s.step e = some t) :
    (∀ a ∈ t.windows.injector.session, a.inputEpoch ≤ t.windows.input.epoch ∧
      (a.id ∈ t.touched → a.inputEpoch < t.windows.input.epoch)) ∧
    (t.windows.injector.session ≠ none → t.windows.injector.completed = none) := by
  obtain ⟨w, hw, rfl⟩ := Option.map_eq_some_iff.mp h
  dsimp only
  have hsession := fun a ha => step_session hI.fits hw (a := a) ha
  refine ⟨?_, ?_⟩
  · intro a ha
    rcases hsession a ha with ⟨b, hb, hid, hepoch, -⟩ | ⟨hnone, hepoch, -, hin, he⟩
    · obtain ⟨hle, hlt⟩ := hI.epoch b hb
      rw [← hepoch, ← hid]
      rcases step_epoch hw with hin | ⟨isReturn, -, -, hin⟩ | hnone
      · rw [hin]
        refine ⟨hle, fun hmem => hlt ?_⟩
        by_cases he : ∃ isReturn, e = .physicalInput isReturn
        · -- the counter stands still, so this is not an input event
          obtain ⟨isReturn, rfl⟩ := he
          have hw' : w.input.epoch = s.windows.input.epoch + 1 := by
            obtain rfl : _ = w := by simpa [Windows.step] using hw
            rfl
          rw [hin] at hw'
          omega
        · exact touch_subset (fun isReturn hr => he ⟨isReturn, hr⟩) hmem
      · rw [hin]
        exact ⟨by omega, fun _ => by omega⟩
      · rw [show w.injector.session = some a from ha] at hnone
        simp at hnone
    · -- recorded in this step: untouched
      rw [hin, hepoch]
      refine ⟨le_refl _, fun hmem => ?_⟩
      have htouch : s.touch e w = s.touched.filter fun id => decide (id ≠ a.id) := by
        have ha' : w.injector.session = some a := ha
        cases e with
        | physicalInput isReturn => exact absurd rfl (he isReturn)
        | _ => simp only [touch, hnone, ha']
      rw [htouch] at hmem
      simp at hmem
  · intro hne
    obtain ⟨a, ha⟩ := Option.ne_none_iff_exists'.mp hne
    rcases hsession a ha with ⟨b, hb, -, -, hc⟩ | ⟨-, -, hc, -, -⟩
    · exact hc (hI.completed (by simp [hb]))
    · exact hc

/-- The step that takes a request of a touched session in. -/
theorem request_heeded {s : InputRun} {t : Windows} {request : InjectorRequest} {desktop : Desktop}
    {q : Asked} (hI : s.InputInv) (h : s.windows.step (.request request desktop) = some t)
    (hq : s.ask (.request request desktop) = some q) :
    Heeds { windows := t, touched := s.touch (.request request desktop) t
            asked := s.ask (.request request desktop) } q := by
  obtain ⟨-, ht⟩ := stepRequest_some h
  obtain ⟨id, hfilter, hq'⟩ := Option.map_eq_some_iff.mp hq
  obtain ⟨hid, hmem⟩ := Option.filter_eq_some_iff.mp hfilter
  have hmem' : id ∈ s.touched := by simpa using hmem
  by_cases hheld : s.windows.injector.session.map (·.id) = some id
  · obtain ⟨a, ha, hida⟩ := Option.map_eq_some_iff.mp hheld
    obtain ⟨-, hlt⟩ := hI.epoch a ha
    have hepoch := hlt (by rw [hida]; exact hmem')
    have hcompleted := hI.completed (by simp [ha])
    rcases Injector.handleRequest_touched desktop ha hcompleted hepoch
      (by rw [hid, hida]) with ⟨response, href, hres⟩ | ⟨hv, happly, hres⟩
    · have hres' : s.windows.injector.handleRequest desktop s.windows.input request = _ := hres
      rw [ht]
      refine ⟨Or.inl ?_, ?_, ?_⟩
      · rw [perform_waiting]
        simp [hres']
      · intro w hw
        rw [perform_waiting, hres'] at hw
        refine ⟨a.tip, a.id, _, response, (Option.some.inj hw).symm, href, ?_, ?_⟩
        · rw [← hq']
          simpa [holds] using hheld
        · rw [perform_injector, hres']
      · intro r hr
        rw [perform_reply, hres'] at hr
        simp at hr
    · have hres' : s.windows.injector.handleRequest desktop s.windows.input request = _ := hres
      rw [ht]
      refine ⟨Or.inr ?_, ?_, ?_⟩
      · rw [perform_reply]
        simp [hres']
      · intro w hw
        rw [perform_waiting, hres'] at hw
        simp at hw
      · intro r hr
        rw [perform_reply, hres'] at hr
        obtain rfl : _ = r := by simpa using hr
        exact ⟨by simp, fun _ => Or.inr ⟨rfl, by rw [← hq']; exact hv, by rw [← hq']; exact happly⟩⟩
  · obtain ⟨response, hres, hactive⟩ :=
      Injector.handleRequest_not_held desktop s.windows.input hid hheld
    have hnot : q.held = false := by
      rw [← hq']
      simpa [holds] using hheld
    have hres' : s.windows.injector.handleRequest desktop s.windows.input request = _ := hres
    rw [ht]
    refine ⟨Or.inr ?_, ?_, ?_⟩
    · rw [perform_reply]
      simp [hres']
    · intro w hw
      rw [perform_waiting, hres'] at hw
      simp at hw
    · intro r hr
      rw [perform_reply, hres'] at hr
      obtain rfl : response = r := by simpa using hr
      exact ⟨hactive, fun hheld' => by simp [hnot] at hheld'⟩

/-- While the request is in hand, only its cancellation can go on. -/
theorem waiting_heeded {s : InputRun} {t : Windows} {e : Event} {q : Asked}
    (hheeds : s.Heeds q) (hwait : s.windows.waiting ≠ none) (hrestart : e ≠ .restart)
    (h : s.windows.step e = some t) {touched : List String} {asked : Option Asked} :
    Heeds { windows := t, touched := touched, asked := asked } q := by
  obtain ⟨w, hw⟩ := Option.ne_none_iff_exists'.mp hwait
  obtain ⟨key, id, token, response, hcall, href, hheld, hnone⟩ := hheeds.sent w hw
  rw [hcall] at hw
  have hanswer : ∀ u answer, t = perform u (s.windows.injector.resume s.windows.input key
      (.cancel (.reply response)) answer) →
      Heeds { windows := t, touched := touched, asked := asked } q := by
    rintro u answer rfl
    have hresume : s.windows.injector.resume s.windows.input key (.cancel (.reply response)) answer =
        (s.windows.injector, .reply response) := by simp only [Injector.resume, Injector.afterCancel]
    rw [hresume]
    refine ⟨Or.inr ?_, ?_, ?_⟩
    · simp [perform_reply]
    · intro w' hw'
      rw [perform_waiting] at hw'
      simp at hw'
    · intro r hr
      rw [perform_reply] at hr
      obtain rfl : response = r := by simpa using hr
      refine ⟨?_, fun _ => Or.inl ⟨href, by rw [perform_injector]; exact hnone⟩⟩
      intro id n text
      rcases href with rfl | rfl <;> simp
  rcases step_acts h with ⟨hinj, hsame, hreply, -⟩ | ⟨he, -⟩ | ⟨u, r, ht, -, -, hact⟩
  · refine ⟨Or.inl ?_, ?_, ?_⟩
    · rw [hsame]
      exact hwait
    · intro w' hw'
      rw [hsame, hw] at hw'
      obtain rfl : _ = w' := by simpa using hw'
      exact ⟨key, id, token, response, rfl, href, hheld, by rw [hinj]; exact hnone⟩
    · intro r hr
      rw [hreply] at hr
      simp at hr
  · exact absurd he hrestart
  · cases hact with
    | request request desktop hw' => exact absurd hw' hwait
    | select candidates hw' => simp [hw] at hw'
    | expire hw' => simp [hw] at hw'
    | deliver tip answer hw' =>
      obtain ⟨rfl, rfl, rfl, rfl⟩ := Waiting.call.inj (Option.some.inj (hw.symm.trans hw'))
      exact hanswer u _ ht
    | giveUp hw' =>
      obtain ⟨rfl, rfl, rfl, rfl⟩ := Waiting.call.inj (Option.some.inj (hw.symm.trans hw'))
      exact hanswer u _ ht
    | pipeLost hw' => exact absurd hw' hwait

theorem step_inputInv {s t : InputRun} {e : Event} (hI : s.InputInv) (h : s.step e = some t) :
    t.InputInv := by
  obtain ⟨hepoch, hcompleted⟩ := step_epochs hI h
  obtain ⟨w, hw, rfl⟩ := Option.map_eq_some_iff.mp h
  refine ⟨step_fits hI.fits hw, hepoch, hcompleted, ?_⟩
  intro q hq
  -- any event but a request keeps the request that is in hand
  have hkeep : e ≠ .restart → s.ask e = (if s.windows.waiting = none then none else s.asked) →
      Heeds { windows := w, touched := s.touch e w, asked := s.ask e } q := by
    intro hrestart hask
    have hq' : s.ask e = some q := hq
    rw [hask] at hq'
    split at hq'
    · simp at hq'
    · rename_i hwait
      exact waiting_heeded (hI.heeded q hq') hwait hrestart hw
  cases e with
  | request request desktop => exact request_heeded hI hw hq
  | restart => simp [ask] at hq
  | _ => exact hkeep (by simp) rfl

theorem initial_inputInv : InputInv {} := by
  refine ⟨?_, ?_, ?_, ?_⟩ <;> simp [Windows.Fits, Heeded]

/-- In every run: a request of a session that has seen physical input since it
was recorded sends no update and is not answered SessionActive; the session is
ended and the request refused, unless an ApplyState finds the window gone. -/
theorem physical_input_heeded (es : List Event) : Always step Heeded {} es :=
  always_of_invariant InputInv es initial_inputInv (fun _ hI => hI.heeded)
    fun _ _ _ hI h => step_inputInv hI h

/-- A session is begun in the text service of the thread, which inserts its text
before the injector has the answer. -/
def beginning : List Event :=
  [.connect ⟨1, 1⟩,
    .request (.beginSession "s" none 1 "a" false) { foreground := some notepad },
    .select [⟨⟨1, 1⟩, 1⟩], .execute ⟨1, 1⟩ editDone]

/-- Input between the insertion and the recording goes unnoticed: the next state
is sent as an update. And an ApplyState that finds the window gone after a later
input leaves the session as it is. -/
theorem input_after_insertion_missed :
    ((run Windows.step {} beginning).map (·.written) = some [(1, ⟨"s", "a", true⟩)] ∧
      (run Windows.step {} (beginning ++ [.physicalInput false, .deliver ⟨1, 1⟩,
        .request (.applyState "s" 2 "ab") {}])).map (·.waiting) =
        some (some (.call ⟨⟨1, 1⟩, 1⟩ (.update "s" 2 "ab") 1 (.update "s" 2 "ab")))) ∧
    (run Windows.step {} (beginning ++ [.deliver ⟨1, 1⟩, .physicalInput false,
      .request (.applyState "s" 2 "ab") { targetValid := false }])).map
        (fun w => (w.reply, w.injector.session.map (·.id))) =
        some (some .targetInvalid, some "s") := by
  decide

end InputRun

end FlowType
