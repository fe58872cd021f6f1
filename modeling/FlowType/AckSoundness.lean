import FlowType.TextLedger
import FlowType.Handler

/-! When an acknowledgement tells the truth: the acknowledged state is the text that
was last written, and nothing on its way can change it. -/
namespace FlowType

namespace Injector

/-- What a response says about the injector that gave it. -/
def Reports (s : Injector) (request : InjectorRequest) : InjectorResponse → Prop
  | .applied n => ∀ id m text, request = .applyState id m text →
      ∃ a, s.session = some a ∧ a.id = id ∧ a.sequence = n
  | .finished n => ∀ id, ((∃ m text, request = .applyState id m text) ∨
      ∃ m, request = .finishSession id m) → ∃ f, s.completed = some f ∧ f.id = id ∧ f.sequence = n
  | .sessionActive id n text => ∃ a, s.session = some a ∧ a.id = id ∧ a.sequence = n ∧ a.text = text
  | .sessionFinished id n text =>
      ∃ f, s.completed = some f ∧ f.id = id ∧ f.sequence = n ∧ f.text = text
  | _ => True

def IsPlain : InjectorResponse → Prop
  | .applied _ => False
  | .finished _ => False
  | .sessionActive _ _ _ => False
  | .sessionFinished _ _ _ => False
  | _ => True

theorem reports_of_plain {s : Injector} {request : InjectorRequest} {response : InjectorResponse}
    (h : IsPlain response) : s.Reports request response := by
  cases response <;> simp_all [IsPlain, Reports]

def Answers (request : InjectorRequest) : Wait → Prop
  | .cancel (.reply response) => IsPlain response
  | .update id n text => request = .applyState id n text
  | .finish id n => request = .finishSession id n
  | _ => True

def NextReports (request : InjectorRequest) (r : Injector × Next) : Prop :=
  match r.2 with
  | .reply response => r.1.Reports request response
  | .call _ _ wait => Answers request wait
  | _ => True

theorem endFailedSession_reports (s : Injector) (request : InjectorRequest)
    {response : InjectorResponse} (h : IsPlain response) :
    NextReports request (s.endFailedSession (.reply response)) := by
  unfold endFailedSession
  split
  · exact reports_of_plain h
  · exact h

theorem captureAndBegin_reports (s : Injector) (request : InjectorRequest) (sessionId : String)
    (sequence : Int) (fullText : String) (attach : Bool) (desktop : Desktop) :
    NextReports request (s, captureAndBegin sessionId sequence fullText attach desktop) := by
  unfold captureAndBegin
  split
  · trivial
  · split_ifs
    · trivial
    · trivial
    · trivial
    · trivial
    · trivial

theorem completed_filter_some {completed : Option CompletedSession} {sessionId : String}
    {f : CompletedSession}
    (h : (completed.filter fun finished => decide (finished.id = sessionId)) = some f) :
    completed = some f ∧ f.id = sessionId := by
  rw [Option.filter_eq_some_iff] at h
  exact ⟨h.1, by simpa using h.2⟩

theorem applyState_reports (s : Injector) (desktop : Desktop) (input : InputMonitor)
    (sessionId : String) (sequence : Int) (fullText : String) :
    NextReports (.applyState sessionId sequence fullText)
      (s.applyState desktop input sessionId sequence fullText) := by
  unfold applyState
  split
  · trivial
  · rename_i a ha
    obtain ⟨hs, rfl⟩ := filter_id_some ha
    split_ifs with h1 h2 h3 h4 h5 h6
    · trivial
    · exact s.endFailedSession_reports _ trivial
    · trivial
    · rintro id m text ⟨⟩
      exact ⟨a, hs, rfl, rfl⟩
    · rintro id m text ⟨⟩
      exact ⟨a, hs, rfl, h5.symm⟩
    · exact s.endFailedSession_reports _ trivial
    · rfl

theorem handleRequest_reports (s : Injector) (desktop : Desktop) (input : InputMonitor)
    (request : InjectorRequest) : NextReports request (s.handleRequest desktop input request) := by
  cases request with
  | beginSession sessionId replaces sequence fullText attach =>
    simp only [handleRequest, beginSession]
    split
    · trivial
    · split
      · rename_i f hf
        obtain ⟨hc, rfl⟩ := completed_filter_some hf
        exact ⟨f, hc, rfl, rfl, rfl⟩
      · split
        · trivial
        · unfold endFailedSession
          split
          · exact s.captureAndBegin_reports _ sessionId sequence fullText attach desktop
          · trivial
        · exact s.captureAndBegin_reports _ sessionId sequence fullText attach desktop
  | applyState sessionId sequence fullText =>
    simp only [handleRequest]
    split
    · rename_i response hr
      obtain ⟨f, hf, rfl⟩ := Option.map_eq_some_iff.mp hr
      obtain ⟨hc, rfl⟩ := completed_filter_some hf
      split_ifs with h
      · rintro id (⟨m, text, ⟨⟩⟩ | ⟨m, hm⟩)
        · exact ⟨f, hc, rfl, h.1⟩
        · simp at hm
      · trivial
    · exact s.applyState_reports desktop input sessionId sequence fullText
  | finishSession sessionId sequence =>
    simp only [handleRequest, finishSession]
    split
    · trivial
    · split
      · trivial
      · rfl
  | querySession sessionId =>
    simp only [handleRequest, querySession]
    split
    · rename_i a ha
      obtain ⟨hs, -⟩ := filter_id_some ha
      unfold queryActiveSession
      split_ifs
      · exact s.endFailedSession_reports _ trivial
      · exact s.endFailedSession_reports _ trivial
      · exact ⟨a, hs, rfl, rfl, rfl⟩
      · trivial
    · split
      · rename_i f hf
        obtain ⟨hc, rfl⟩ := completed_filter_some hf
        exact ⟨f, hc, rfl, rfl, rfl⟩
      · trivial
  | probeTarget =>
    refine reports_of_plain ?_
    unfold probeTarget
    split
    · trivial
    · split_ifs <;> trivial
  | cancelInvalidSession sessionId =>
    simp only [handleRequest, cancelInvalidSession]
    split
    · trivial
    · exact s.endFailedSession_reports _ trivial

/-- The answer to a call fits to the request, if no text service is ahead of the
injector. -/
theorem resume_reports (s : Injector) (input : InputMonitor) (key : TipKey) (command : TipCommand)
    (wait : Wait) (answer : Option TipResponse) (request : InjectorRequest)
    (hfits : s.WaitFits key command wait) (h : Answers request wait)
    (happlied : ∀ id n text m, wait = .update id n text → answer = some (.applied id m) → m = n) :
    NextReports request (s.resume input key wait answer) := by
  cases wait with
  | cancel after =>
    cases after with
    | reply response => exact reports_of_plain h
    | accept => trivial
    | begin sessionId sequence fullText attach desktop =>
      exact s.captureAndBegin_reports _ sessionId sequence fullText attach desktop
  | begin call rest rejected =>
    simp only [resume, resumeBegin]
    split_ifs
    · trivial
    · trivial
    · cases rest with
      | nil => trivial
      | cons k ks => trivial
  | update id n text =>
    obtain ⟨-, a, ha, rfl, -, -⟩ := hfits
    simp only [resume, ha]
    rcases s.resumeUpdate_cases ha a.id n text answer with
      ⟨-, hr⟩ | ⟨m, hm, hans, -⟩ | ⟨-, hr⟩ | ⟨response, hresp, hr⟩
    · rw [hr]
      intro id m text' hreq
      obtain ⟨rfl, -, -⟩ : a.id = id ∧ n = m ∧ text = text' := by
        simpa using (show request = _ from h).symm.trans hreq
      exact ⟨_, rfl, rfl, rfl⟩
    · exact absurd (happlied _ n text m rfl hans) hm
    · rw [hr]
      trivial
    · rw [hr]
      rcases hresp with rfl | rfl | rfl <;> trivial
  | finish id n =>
    obtain ⟨-, a, ha, rfl, -, -⟩ := hfits
    simp only [resume, ha]
    rcases s.resumeFinish_cases ha a.id n answer with ⟨-, hr⟩ | ⟨response, hresp, hr⟩
    · rw [hr]
      rintro id (⟨m, text', hreq⟩ | ⟨m, hreq⟩)
      · exact absurd ((show request = _ from h).symm.trans hreq) (by simp)
      · obtain ⟨rfl, -⟩ : a.id = id ∧ n = m := by
          simpa using (show request = _ from h).symm.trans hreq
        exact ⟨_, rfl, rfl, rfl⟩
    · rw [hr]
      rcases hresp with rfl | rfl <;> trivial
  | query id epoch n text =>
    obtain ⟨-, a, ha, rfl, -, rfl, rfl⟩ := hfits
    simp only [resume, resumeQuery]
    split
    · exact ⟨a, ha, rfl, rfl, rfl⟩
    · refine s.endFailedSession_reports _ ?_
      split_ifs <;> trivial
    · exact s.endFailedSession_reports _ trivial

end Injector

namespace Windows
variable {T : String → Int → String}

/-- The text of this sequence is the last one written, and nothing on its way can
change it. -/
def Settled (T : String → Int → String) (s : Windows) (id : String) (n : Int) : Prop :=
  s.lastText id = some (T id n) ∧ s.Clean id

/-- Everything the response says about a session is settled. -/
def Sound (T : String → Int → String) (s : Windows) (request : InjectorRequest) :
    InjectorResponse → Prop
  | .applied n => ∀ id m text, request = .applyState id m text → s.Settled T id n
  | .finished n => ∀ id, ((∃ m text, request = .applyState id m text) ∨
      ∃ m, request = .finishSession id m) → s.Settled T id n
  | .sessionActive id n text => text = T id n ∧ s.Settled T id n
  | .sessionFinished id n text => text = T id n ∧ s.Settled T id n
  | _ => True

theorem Sound.mono {s t : Windows} (h : ∀ id n, s.Settled T id n → t.Settled T id n)
    {request : InjectorRequest} {response : InjectorResponse} (hs : s.Sound T request response) :
    t.Sound T request response := by
  cases response with
  | applied n => exact fun id m text hr => h id n (hs id m text hr)
  | finished n => exact fun id hr => h id n (hs id hr)
  | sessionActive id n text => exact ⟨hs.1, h id n hs.2⟩
  | sessionFinished id n text => exact ⟨hs.1, h id n hs.2⟩
  | _ => trivial

/-- What an idle injector says is sound. -/
theorem Ledger.sound {s : Windows} (h : s.Ledger T) (hw : s.waiting = none)
    {request : InjectorRequest} {response : InjectorResponse}
    (hreport : s.injector.Reports request response) : s.Sound T request response := by
  have hactive : ∀ a, s.injector.session = some a → s.Settled T a.id a.sequence := by
    intro a ha
    have hst := h.steady a ha (by simp [hw])
    exact ⟨by rw [hst.lastText, (h.session a ha).1], hst.clean⟩
  have hfinished : ∀ f, s.injector.completed = some f → s.Settled T f.id f.sequence := by
    intro f hf
    obtain ⟨htext, hclean, hl⟩ := h.completed f hf
    exact ⟨by rw [hl, htext], hclean⟩
  cases response with
  | applied n =>
    intro id m text hr
    obtain ⟨a, ha, rfl, rfl⟩ := hreport id m text hr
    exact hactive a ha
  | finished n =>
    intro id hr
    obtain ⟨f, hf, rfl, rfl⟩ := hreport id hr
    exact hfinished f hf
  | sessionActive id n text =>
    obtain ⟨a, ha, rfl, rfl, rfl⟩ := hreport
    exact ⟨(h.session a ha).1, hactive a ha⟩
  | sessionFinished id n text =>
    obtain ⟨f, hf, rfl, rfl, rfl⟩ := hreport
    exact ⟨(h.completed f hf).1, hfinished f hf⟩
  | _ => trivial

/-- The call under way carries no text. -/
def Textless : Waiting → Prop
  | .call _ _ _ (.cancel (.begin _ _ _ _ _)) => False
  | .call _ _ _ (.cancel _) => True
  | .call _ _ _ (.finish _ _) => True
  | .call _ _ _ (.query _ _ _ _) => True
  | _ => False

/-- A step that sends no text for the session leaves it settled. -/
theorem step_settled {s t : Windows} {e : Event} (hshape : s.Shape) (hs : s.step e = some t)
    {id : String} {n : Int} (h : s.Settled T id n)
    (hsend : ∀ key command wait, t.waiting = some (.call key command s.nextToken wait) →
      command.textSession ≠ some id) : t.Settled T id n := by
  refine ⟨?_, ?_⟩
  · rw [← h.1]
    rcases step_written hs with ⟨hwritten, -⟩ | ⟨tip, env, p, hrun, -⟩
    · exact lastText_congr hwritten id
    · exact (hrun.ran hshape hs).lastText_of_ne (h.2 tip p hrun.unexecuted)
  · intro u q hq
    rcases step_unexecuted hs hq with hq | ⟨generation, wait, -, -, hw, -⟩
    · exact h.2 u q hq
    · exact hsend _ _ _ hw

/-- After a move the injector has answered as it should, or waits for a call of the
request. -/
theorem perform_reports {s : Windows} (hr : s.reply = none) {r : Injector × Next}
    {request : InjectorRequest} (h : Injector.NextReports request r) :
    (∀ response, (s.perform r).reply = some response →
      (s.perform r).waiting = none ∧ (s.perform r).injector.Reports request response) ∧
    ∀ key command token wait, (s.perform r).waiting = some (.call key command token wait) →
      Injector.Answers request wait := by
  refine ⟨?_, ?_⟩
  · intro response hresp
    rw [perform_reply] at hresp
    rw [perform_waiting, perform_injector]
    unfold Injector.NextReports at h
    split at hresp
    · rename_i hnext
      obtain rfl : _ = response := by simpa using hresp
      rw [hnext] at h ⊢
      exact ⟨rfl, h⟩
    · simp [hr] at hresp
  · intro key command token wait hw
    rw [perform_waiting] at hw
    unfold Injector.NextReports at h
    split at hw
    · rename_i hnext
      obtain ⟨-, -, -, rfl⟩ : _ = key ∧ _ = command ∧ _ = token ∧ _ = wait := by simpa using hw
      rw [hnext] at h
      exact h
    · simp at hw
    · simp at hw

/-- The request that the injector works on: it reads one, or goes on with it. -/
theorem step_reports {s t : Windows} {e : Event} (h : s.Ledger T) (hshape : s.Shape)
    (hfits : s.Fits) (hs : s.step e = some t) {request : InjectorRequest}
    (he : (∃ desktop, e = .request request desktop) ∨ ((∀ r desktop, e ≠ .request r desktop) ∧
      e ≠ .pipeLost ∧ ∀ key command token wait, s.waiting = some (.call key command token wait) →
        Injector.Answers request wait)) :
    (∀ response, t.reply = some response →
      t.waiting = none ∧ t.injector.Reports request response) ∧
    ∀ key command token wait, t.waiting = some (.call key command token wait) →
      Injector.Answers request wait := by
  have hkeep : t.reply = none → t.waiting = s.waiting → (∀ key command token wait,
      s.waiting = some (.call key command token wait) → Injector.Answers request wait) →
      (∀ response, t.reply = some response →
        t.waiting = none ∧ t.injector.Reports request response) ∧
      ∀ key command token wait, t.waiting = some (.call key command token wait) →
        Injector.Answers request wait := by
    intro hr hw hans
    refine ⟨by simp [hr], ?_⟩
    rw [hw]
    exact hans
  rcases he with ⟨desktop, rfl⟩ | ⟨hne, hpipe, hans⟩
  · obtain ⟨-, rfl⟩ := stepRequest_some hs
    exact perform_reports rfl (s.injector.handleRequest_reports desktop s.input request)
  · by_cases hquiet : e.isQuiet = true
    · refine hkeep ?_ (step_quiet hs hquiet).waiting hans
      cases e with
      | disconnect tip =>
        obtain ⟨-, rfl⟩ := stepDisconnect_some hs
        rfl
      | dropDetached tip =>
        obtain rfl : _ = t := by simpa [step] using hs
        rfl
      | connect tip =>
        obtain ⟨-, -, rfl⟩ := stepConnect_some hs
        rfl
      | deactivate tip =>
        obtain rfl : _ = t := by simpa [step] using hs
        rfl
      | externalEdit tip =>
        obtain rfl := step_externalEdit_some hs
        rfl
      | physicalInput isReturn =>
        obtain rfl : _ = t := by simpa [step] using hs
        rfl
      | _ => simp [Event.isQuiet] at hquiet
    cases e with
    | request r desktop => exact absurd rfl (hne r desktop)
    | select candidates =>
      obtain ⟨call, rejected, tried, hw, -, rfl⟩ := stepSelect_some hs
      refine perform_reports rfl ?_
      cases candidates with
      | nil => trivial
      | cons k ks => trivial
    | expire =>
      obtain ⟨call, rejected, hw, rfl⟩ := stepExpire_some hs
      refine perform_reports rfl ?_
      unfold beginExpired
      cases rejected <;> trivial
    | execute tip env =>
      obtain ⟨_, _, _, -, -, rfl⟩ := stepExecute_some hs
      exact hkeep rfl rfl hans
    | executeDetached tip env =>
      obtain ⟨_, -, rfl⟩ := stepExecuteDetached_some hs
      exact hkeep rfl rfl hans
    | deliver tip =>
      obtain ⟨generation, p, rest, answer, hc, hp, ⟨key, command, wait, hw, rfl⟩ | ⟨-, rfl⟩⟩ :=
        stepDeliver_some hs
      · obtain ⟨rfl, rfl, -⟩ := hshape.awaited_last hc hw
        refine perform_reports rfl (s.injector.resume_reports s.input _ command wait _ request
          (hfits _ hw) (hans _ _ _ _ hw) ?_)
        -- a text service that answers another sequence would have been ahead before
        rintro id n text m rfl happ
        obtain ⟨-, a, ha, -⟩ : s.injector.WaitFits _ command (.update id n text) := hfits _ hw
        have hclause := (h.update _ _ _ _ _ _ hw).2 a ha _ p hc List.mem_cons_self rfl
        exact (hclause.2 m (by rw [hp]; exact happ)).1
      · exact hkeep rfl rfl hans
    | giveUp =>
      obtain ⟨key, command, token, wait, hw, rfl⟩ := stepGiveUp_some hs
      exact perform_reports rfl (s.injector.resume_reports s.input key command wait none request
        (hfits _ hw) (hans _ _ _ _ hw) (by simp))
    | pipeLost => exact absurd rfl hpipe
    | restart =>
      obtain rfl : _ = t := by simpa [step] using hs
      exact ⟨by simp, by simp⟩
    | _ => simp [Event.isQuiet] at hquiet

/-- What follows a request or a call without text has none either. -/
def NextTextless : Next → Prop
  | .select _ _ _ => False
  | .call key command wait => Textless (.call key command 0 wait)
  | _ => True

theorem perform_textless (s : Windows) {r : Injector × Next} (h : NextTextless r.2) :
    ∀ w, (s.perform r).waiting = some w → Textless w := by
  intro w hw
  rw [perform_waiting] at hw
  split at hw
  · rename_i key command wait hr
    rw [hr] at h
    obtain rfl : _ = w := by simpa using hw
    cases wait with
    | cancel after => cases after <;> exact h
    | _ => exact h
  · rename_i hr
    rw [hr] at h
    exact absurd h (by simp [NextTextless])
  · simp at hw

theorem endFailedSession_textless (s : Injector) (after : AfterCancel)
    (h : ∀ sessionId sequence fullText attach desktop,
      after ≠ .begin sessionId sequence fullText attach desktop) :
    NextTextless (s.endFailedSession after).2 := by
  unfold Injector.endFailedSession
  split
  · cases after with
    | reply response => trivial
    | accept => trivial
    | begin sessionId sequence fullText attach desktop => exact absurd rfl (h _ _ _ _ _)
  · cases after with
    | reply response => trivial
    | accept => trivial
    | begin sessionId sequence fullText attach desktop => exact absurd rfl (h _ _ _ _ _)

theorem handleRequest_textless (s : Injector) (desktop : Desktop) (input : InputMonitor)
    {request : InjectorRequest} (h : Server.isOther request = true) :
    NextTextless (s.handleRequest desktop input request).2 := by
  cases request with
  | querySession sessionId =>
    simp only [Injector.handleRequest, Injector.querySession]
    split
    · unfold Injector.queryActiveSession
      split_ifs
      · exact endFailedSession_textless s _ (by simp)
      · exact endFailedSession_textless s _ (by simp)
      · trivial
      · trivial
    · split <;> trivial
  | probeTarget => trivial
  | cancelInvalidSession sessionId =>
    simp only [Injector.handleRequest, Injector.cancelInvalidSession]
    split
    · trivial
    · exact endFailedSession_textless s _ (by simp)
  | _ => simp [Server.isOther] at h

theorem resume_textless (s : Injector) (input : InputMonitor) (key : TipKey) (command : TipCommand)
    (token : Nat) (wait : Wait) (answer : Option TipResponse)
    (h : Textless (.call key command token wait)) :
    NextTextless (s.resume input key wait answer).2 := by
  have hend : ∀ response, NextTextless (s.endFailedSession (.reply response)).2 :=
    fun response => endFailedSession_textless s _ (by simp)
  cases wait with
  | cancel after =>
    cases after with
    | reply response => trivial
    | accept => trivial
    | begin sessionId sequence fullText attach desktop => exact absurd h (by simp [Textless])
  | begin call rest rejected => exact absurd h (by simp [Textless])
  | update id n text => exact absurd h (by simp [Textless])
  | finish id n =>
    cases hs : s.session with
    | none => simp [Injector.resume, hs, NextTextless]
    | some a =>
      simp only [Injector.resume, hs, Injector.resumeFinish]
      split
      · split_ifs
        · trivial
        · exact hend _
      · exact hend _
      · exact hend _
      · exact hend _
  | query id epoch n text =>
    simp only [Injector.resume, Injector.resumeQuery]
    split
    · trivial
    · exact hend _
    · exact hend _

/-- Without a request that carries text, none is sent. -/
theorem step_textless {s t : Windows} {e : Event} (hs : s.step e = some t)
    (h : ∀ w, s.waiting = some w → Textless w)
    (he : ∀ request desktop, e = .request request desktop → Server.isOther request = true) :
    ∀ w, t.waiting = some w → Textless w := by
  by_cases hquiet : e.isQuiet = true
  · rw [(step_quiet hs hquiet).waiting]
    exact h
  cases e with
  | request request desktop =>
    obtain ⟨-, rfl⟩ := stepRequest_some hs
    exact perform_textless _ (handleRequest_textless s.injector desktop s.input
      (he request desktop rfl))
  | select candidates =>
    obtain ⟨call, rejected, tried, hw, -, rfl⟩ := stepSelect_some hs
    exact absurd (h _ hw) (by simp [Textless])
  | expire =>
    obtain ⟨call, rejected, hw, rfl⟩ := stepExpire_some hs
    exact absurd (h _ hw) (by simp [Textless])
  | execute tip env =>
    obtain ⟨_, _, _, -, -, rfl⟩ := stepExecute_some hs
    exact h
  | executeDetached tip env =>
    obtain ⟨_, -, rfl⟩ := stepExecuteDetached_some hs
    exact h
  | deliver tip =>
    obtain ⟨generation, p, rest, answer, hc, hp, ⟨key, command, wait, hw, rfl⟩ | ⟨-, rfl⟩⟩ :=
      stepDeliver_some hs
    · exact perform_textless _ (resume_textless s.injector s.input key command _ wait _ (h _ hw))
    · exact h
  | giveUp =>
    obtain ⟨key, command, token, wait, hw, rfl⟩ := stepGiveUp_some hs
    exact perform_textless _ (resume_textless s.injector s.input key command _ wait _ (h _ hw))
  | pipeLost =>
    obtain ⟨-, rfl⟩ := step_pipeLost_some hs
    exact perform_textless _ (endFailedSession_textless s.injector _ (by simp))
  | restart =>
    obtain rfl : _ = t := by simpa [step] using hs
    simp
  | _ => simp [Event.isQuiet] at hquiet

/-- A call without text sends no text. -/
theorem textSession_of_textless {s : Windows} (hfits : s.Fits) {key : TipKey}
    {command : TipCommand} {token : Nat} {wait : Wait}
    (hw : s.waiting = some (.call key command token wait))
    (h : Textless (.call key command token wait)) : command.textSession = none := by
  have hfit := hfits _ hw
  cases wait with
  | cancel after =>
    obtain ⟨-, id, rfl⟩ := hfit
    rfl
  | begin call rest rejected => exact absurd h (by simp [Textless])
  | update id n text => exact absurd h (by simp [Textless])
  | finish id n =>
    obtain ⟨rfl, -⟩ := hfit
    rfl
  | query id epoch n text =>
    obtain ⟨rfl, -⟩ := hfit
    rfl

theorem step_settled_of_textless {s t : Windows} {e : Event} (hshape : s.Shape) (hfits : t.Fits)
    (hs : s.step e = some t) (h : ∀ w, t.waiting = some w → Textless w) {id : String} {n : Int}
    (hset : s.Settled T id n) : t.Settled T id n := by
  refine step_settled hshape hs hset ?_
  intro key command wait hw
  rw [textSession_of_textless hfits hw (h _ hw)]
  simp

end Windows

theorem Attempt.wire_carries {T : String → Int → String} {request : InjectorRequest}
    (attempt : Attempt) (h : request.Carries T) : (attempt.wire request).Carries T := by
  cases attempt with
  | first previous => exact h
  | again => exact h
  | query => cases request <;> first | exact h | trivial

namespace Dispatcher
variable {T : String → Int → String}

/-- The Begins of the event agree with what they find and run alone. -/
def BeginsSettled (s : Dispatcher) : Event → Prop
  | .windows event => s.windows.BeginAgrees event ∧ s.windows.BeginAlone event
  | _ => True

structure SoundInv (T : String → Int → String) (s : Dispatcher) : Prop where
  shape : s.windows.Shape
  fits : s.windows.Fits
  ledger : s.windows.Ledger T
  carries : ∀ request, s.phase.request? = some request → request.Carries T
  answers : ∀ request attempt, s.phase = .receive request attempt → s.Linked →
    ∀ key command token wait, s.windows.waiting = some (.call key command token wait) →
      Injector.Answers (attempt.wire request) wait
  response : ∀ request attempt response, s.phase = .receive request attempt →
    s.response = some response → (∀ w, s.windows.waiting = some w → Windows.Textless w) ∧
      s.windows.Sound T (attempt.wire request) response

theorem SoundInv.of_phase {s : Dispatcher} (hshape : s.windows.Shape) (hfits : s.windows.Fits)
    (hledger : s.windows.Ledger T)
    (hcarries : ∀ request, s.phase.request? = some request → request.Carries T)
    (hphase : ∀ request attempt, s.phase ≠ .receive request attempt) : s.SoundInv T :=
  ⟨hshape, hfits, hledger, hcarries, fun r a h => absurd h (hphase r a),
    fun r a _ h => absurd h (hphase r a)⟩

theorem SoundInv.windows {s t : Dispatcher} (h : s.SoundInv T) {event : Windows.Event}
    (hw : s.windows.step event = some t.windows) (hphase : t.phase = s.phase)
    (hrequest : ∀ request desktop, event ≠ .request request desktop)
    (hagrees : s.windows.BeginAgrees event) (halone : s.windows.BeginAlone event)
    (hlinked : t.Linked → t.windows.waiting = none ∨ (s.Linked ∧ event ≠ .pipeLost))
    (hresponse : t.response = s.response ∨
      (s.Linked ∧ event ≠ .pipeLost ∧ t.response = t.windows.reply)) : t.SoundInv T := by
  have hshape := Windows.step_shape h.shape hw
  have hfits := Windows.step_fits h.fits hw
  have hledger := Windows.step_ledger h.ledger h.shape h.fits hw
    (fun request desktop he => absurd he (hrequest request desktop)) hagrees halone
  have hrep : ∀ request attempt, s.phase = .receive request attempt → s.Linked →
      event ≠ .pipeLost → (∀ response, t.windows.reply = some response →
        t.windows.waiting = none ∧
          t.windows.injector.Reports (attempt.wire request) response) ∧
      ∀ key command token wait, t.windows.waiting = some (.call key command token wait) →
        Injector.Answers (attempt.wire request) wait := by
    intro request attempt hp hl hne
    exact Windows.step_reports h.ledger h.shape h.fits hw
      (Or.inr ⟨hrequest, hne, h.answers request attempt hp hl⟩)
  refine ⟨hshape, hfits, hledger, by rw [hphase]; exact h.carries, ?_, ?_⟩
  · intro request attempt hp hl
    rw [hphase] at hp
    rcases hlinked hl with hnone | ⟨hl', hne⟩
    · simp [hnone]
    · exact (hrep request attempt hp hl' hne).2
  · intro request attempt response hp hr
    rw [hphase] at hp
    rcases hresponse with heq | ⟨hl, hne, heq⟩
    · rw [heq] at hr
      obtain ⟨htextless, hsound⟩ := h.response request attempt response hp hr
      have htextless' := Windows.step_textless hw htextless
        (fun r d he => absurd he (hrequest r d))
      exact ⟨htextless', hsound.mono fun id n hset =>
        Windows.step_settled_of_textless h.shape hfits hw htextless' hset⟩
    · rw [heq] at hr
      obtain ⟨hnone, hreport⟩ := (hrep request attempt hp hl hne).1 response hr
      exact ⟨by simp [hnone], hledger.sound hnone hreport⟩

theorem step_soundInv {s t : Dispatcher} {e : Event} (h : s.SoundInv T)
    (hcarries : ∀ request, e = .submit request → request.Carries T)
    (hok : s.BeginsSettled e) (hs : s.step e = some t) : t.SoundInv T := by
  have hrequest : ∀ request, t.phase.request? = some request → request.Carries T := by
    intro request hr
    rcases step_request hs with hidle | ⟨heq, -⟩ | ⟨r, he, heq, -⟩
    · simp [hidle, Phase.request?] at hr
    · exact h.carries request (by rw [← heq]; exact hr)
    · obtain rfl : r = request := by simpa [heq] using hr
      exact hcarries r he
  have hfailed : ∀ request attempt, t = failed { s with result := none } request attempt →
      t.SoundInv T := by
    intro request attempt ht
    have hw : t.windows = s.windows := by
      rw [ht]
      exact (failed_frame _ request attempt).1
    refine SoundInv.of_phase (hw ▸ h.shape) (hw ▸ h.fits) (hw ▸ h.ledger) hrequest ?_
    rw [ht]
    cases attempt <;> simp [failed, finish]
  cases step_does hs with
  | submit request hp =>
    refine SoundInv.of_phase h.shape h.fits h.ledger hrequest ?_
    cases s.client <;> simp
  | connect request hacc hp => exact SoundInv.of_phase h.shape h.fits h.ledger hrequest (by simp)
  | reconnect request previous attempt hacc hp ha =>
    exact SoundInv.of_phase h.shape h.fits h.ledger hrequest (by simp)
  | giveUp request previous hacc hp =>
    exact SoundInv.of_phase h.shape h.fits h.ledger hrequest (by simp [finish])
  | connectFails request hp =>
    exact SoundInv.of_phase h.shape h.fits h.ledger hrequest (by simp [finish])
  | write request attempt desktop w hp hl hw =>
    have hwire : (attempt.wire request).Carries T :=
      attempt.wire_carries (h.carries request (by rw [show s.phase = _ from hp]; rfl))
    have hledger : w.Ledger T := Windows.step_ledger h.ledger h.shape h.fits hw
      (by rintro r d ⟨⟩; exact hwire) (by rintro _ _ _ _ _ _ _ _ _ _ _ _ ⟨⟩)
      (by intro key call hoffer; simp [Windows.nextOffer] at hoffer)
    have hrep := Windows.step_reports h.ledger h.shape h.fits hw (Or.inl ⟨desktop, rfl⟩)
    refine ⟨Windows.step_shape h.shape hw, Windows.step_fits h.fits hw, hledger, hrequest, ?_, ?_⟩
    · rintro r a ⟨⟩ -
      exact hrep.2
    · rintro r a response ⟨⟩ hr
      obtain ⟨hnone, hreport⟩ := hrep.1 response hr
      exact ⟨by simp [hnone], hledger.sound hnone hreport⟩
  | writeFails request attempt hp => exact hfailed request attempt rfl
  | readFails request attempt hp => exact hfailed request attempt rfl
  | read request attempt response hp hr hq =>
    exact SoundInv.of_phase h.shape h.fits h.ledger hrequest (by simp [finish])
  | reconcile request response hp hr =>
    rcases reconcile_cases { s with result := none, response := none } request response with
      ⟨result, heq⟩ | heq
    · rw [heq] at hrequest ⊢
      exact SoundInv.of_phase h.shape h.fits h.ledger hrequest (by simp [finish])
    · rw [heq] at hrequest ⊢
      exact SoundInv.of_phase h.shape h.fits h.ledger hrequest (by simp)
  | windows event w hne hpipe hrestart hw =>
    refine h.windows hw rfl hne hok.1 hok.2 ?_ ?_
    · exact fun hl => Or.inr ⟨hl, hpipe⟩
    · by_cases hl : s.Linked ∧ w.reply ≠ none
      · refine Or.inr ⟨hl.1, hpipe, ?_⟩
        exact if_pos hl
      · refine Or.inl ?_
        exact if_neg hl
  | pipeLost w hserving hl hw =>
    refine h.windows hw rfl (by simp) (by rintro _ _ _ _ _ _ _ _ _ _ _ _ ⟨⟩)
      (by intro key call hoffer; simp [Windows.nextOffer] at hoffer) ?_ (Or.inl rfl)
    exact fun hl' => absurd hl' hl
  | restart w hw =>
    refine h.windows hw rfl (by simp) (by rintro _ _ _ _ _ _ _ _ _ _ _ _ ⟨⟩)
      (by intro key call hoffer; simp [Windows.nextOffer] at hoffer) ?_ (Or.inl rfl)
    intro _
    obtain rfl : _ = w := by simpa [Windows.step] using hw
    exact Or.inl rfl
  | repair hp hacc =>
    exact SoundInv.of_phase h.shape h.fits h.ledger hrequest (by simp [link, show s.phase = _ from hp])

/-- What the reconciliation makes of the answer to its query is as sound as that
answer. -/
theorem reconcile_ok {s : Dispatcher} {request : InjectorRequest}
    {state response : InjectorResponse}
    (hr : (s.reconcile request state).result = some (.ok response)) (hnone : s.result = none)
    {w : Windows} (h : w.Sound T (Attempt.query.wire request) state) :
    w.Sound T request response := by
  unfold reconcile at hr
  split at hr
  · rename_i id n text
    cases state with
    | sessionActive id' n' text' =>
      simp only [classifyApplyRecovery] at hr
      split_ifs at hr with h1 h2
      · obtain ⟨rfl, rfl, -⟩ := h1
        obtain rfl : _ = response := by simpa [finish] using hr
        rintro id m text'' ⟨⟩
        exact h.2
      · simp [hnone] at hr
      · simp [finish] at hr
    | sessionFinished id' n' text' =>
      simp only [classifyApplyRecovery] at hr
      split_ifs at hr with h1
      · obtain ⟨rfl, rfl, -⟩ := h1
        obtain rfl : _ = response := by simpa [finish] using hr
        rintro id (⟨m, text'', ⟨⟩⟩ | ⟨m, hm⟩)
        · exact h.2
        · simp at hm
      · simp [finish] at hr
    | _ => simp [classifyApplyRecovery, finish] at hr
  · rename_i id n
    cases state with
    | sessionActive id' n' text' =>
      simp only [classifyFinishRecovery] at hr
      split_ifs at hr with h1
      · simp [hnone] at hr
      · simp [finish] at hr
    | sessionFinished id' n' text' =>
      simp only [classifyFinishRecovery] at hr
      split_ifs at hr with h1
      · obtain ⟨rfl, rfl⟩ := h1
        obtain rfl : _ = response := by simpa [finish] using hr
        rintro id (⟨m, text'', hm⟩ | ⟨m, ⟨⟩⟩)
        · simp at hm
        · exact h.2
      · simp [finish] at hr
    | _ => simp [classifyFinishRecovery, finish] at hr
  · simp [finish] at hr

/-- A response that the dispatcher returns is sound, and nothing that carries text
is under way. -/
theorem result_sound {s t : Dispatcher} {e : Event} (h : s.SoundInv T) (hs : s.step e = some t)
    {response : InjectorResponse} (hr : t.result = some (.ok response))
    {request : InjectorRequest} (hreq : s.phase.request? = some request) :
    t.windows.Sound T request response ∧
      ∀ w, t.windows.waiting = some w → Windows.Textless w := by
  rcases step_result hs with hnone | ⟨-, -, ⟨failure, hfail⟩ |
    ⟨request', attempt, state, hp, hresp, hwin, hcase⟩⟩
  · simp [hnone] at hr
  · simp [hfail] at hr
  · obtain rfl : request' = request := by simpa [hp, Phase.request?] using hreq
    obtain ⟨htextless, hsound⟩ := h.response request' attempt state hp hresp
    rw [hwin]
    refine ⟨?_, htextless⟩
    rcases hcase with ⟨hq, hres⟩ | ⟨rfl, rfl⟩
    · obtain rfl : state = response := by simpa [hres] using hr
      cases attempt with
      | first previous => exact hsound
      | again => exact hsound
      | query => exact absurd rfl hq
    · exact reconcile_ok hr rfl hsound

end Dispatcher

/-- Every message has the one text of its session and sequence. -/
def ClientMessage.Carries (T : String → Int → String) : ClientMessage → Prop
  | .start snapshot => snapshot.fullText = T snapshot.sessionId snapshot.sequence
  | .update snapshot => snapshot.fullText = T snapshot.sessionId snapshot.sequence
  | .finish snapshot => snapshot.fullText = T snapshot.sessionId snapshot.sequence
  | .resume m => m.fullText = T m.sessionId m.sequence
  | .cancel _ => True

namespace Handling
variable {T : String → Int → String}

theorem injectorState_ne_ack (sessionId : String) (response : InjectorResponse) (ack : AckMessage) :
    ServerMessage.ack ack ≠ injectorState sessionId response := by
  cases response <;> simp [injectorState]

theorem injectorFailure_ne_ack (sessionId : String) (failure : InjectorRequestFailure)
    (ack : AckMessage) : ServerMessage.ack ack ≠ injectorFailure sessionId failure := by
  cases failure <;> simp [injectorFailure]

/-- An acknowledgement repeats what a sound response has said. -/
theorem proceed_ack {handling : Handling} {response : InjectorResponse} {ack : AckMessage}
    (h : ServerMessage.ack ack ∈ (handling.proceed (.ok response)).1) {w : Windows}
    (hsound : w.Sound T handling.request response) :
    w.Settled T ack.sessionId ack.appliedSequence := by
  have hstate : ∀ sessionId, ServerMessage.ack ack ∉ [injectorState sessionId response] := by
    intro sessionId hmem
    exact injectorState_ne_ack sessionId response ack (List.mem_singleton.mp hmem)
  cases handling with
  | begin snapshot =>
    simp only [proceed] at h
    split at h
    · simp at h
    · split_ifs at h with hmatch
      · obtain ⟨rfl, rfl, rfl⟩ := hmatch
        obtain rfl : ack = _ := by simpa [ackMessage] using h
        exact hsound.2
      · exact absurd h (hstate _)
    · exact absurd h (hstate _)
  | apply snapshot finishing =>
    simp only [proceed] at h
    split at h
    · split_ifs at h
      · simp at h
      · obtain rfl : ack = _ := by simpa [ackMessage] using h
        exact hsound _ _ _ rfl
    · exact absurd h (hstate _)
  | resume m =>
    simp only [proceed] at h
    split at h
    · obtain rfl : ack = _ := by simpa [ackMessage] using h
      exact hsound _ (Or.inl ⟨_, _, rfl⟩)
    · split_ifs at h
      · simp at h
      · obtain rfl : ack = _ := by simpa [ackMessage] using h
        exact hsound _ _ _ rfl
    · exact absurd h (hstate _)
  | finish sessionId n =>
    simp only [proceed] at h
    split at h
    · obtain rfl : ack = _ := by simpa [ackMessage] using h
      exact hsound _ (Or.inr ⟨_, rfl⟩)
    · exact absurd h (hstate _)
  | cancel m => simp [proceed] at h

theorem proceed_error (handling : Handling) (failure : InjectorRequestFailure) (ack : AckMessage) :
    ServerMessage.ack ack ∉ (handling.proceed (.error failure)).1 := by
  have hfail : ∀ sessionId, ServerMessage.ack ack ∉ [injectorFailure sessionId failure] := by
    intro sessionId hmem
    exact injectorFailure_ne_ack sessionId failure ack (List.mem_singleton.mp hmem)
  cases handling with
  | begin snapshot => exact hfail _
  | apply snapshot finishing => exact hfail _
  | resume m => exact hfail _
  | finish sessionId n => exact hfail _
  | cancel m => simp [proceed]

/-- The next request of a message carries the text of the message. -/
theorem proceed_carries {handling handling' : Handling} {result : DispatchResult}
    (h : (handling.proceed result).2 = some handling') (hc : handling.request.Carries T) :
    handling'.request.Carries T := by
  cases handling with
  | begin snapshot =>
    cases result with
    | error failure => simp [proceed] at h
    | ok response =>
      simp only [proceed] at h
      split at h
      · obtain rfl : _ = handling' := by simpa using h
        exact hc
      · split_ifs at h
      · simp at h
  | apply snapshot finishing =>
    cases result with
    | error failure => simp [proceed] at h
    | ok response =>
      simp only [proceed] at h
      split at h
      · split_ifs at h
        obtain rfl : _ = handling' := by simpa using h
        trivial
      · simp at h
  | resume m =>
    cases result with
    | error failure => simp [proceed] at h
    | ok response =>
      simp only [proceed] at h
      split at h
      · simp at h
      · split_ifs at h
        obtain rfl : _ = handling' := by simpa using h
        trivial
      · simp at h
  | finish sessionId n =>
    cases result with
    | error failure => simp [proceed] at h
    | ok response =>
      simp only [proceed] at h
      split at h <;> simp at h
  | cancel m => simp [proceed] at h

end Handling

theorem handleClientMessage_ok {T : String → Int → String} {phoneId : String}
    {message : ClientMessage} {sent : List ServerMessage} {handling : Option Handling}
    (h : handleClientMessage phoneId message = .ok (sent, handling)) (hc : message.Carries T) :
    (∀ ack, ServerMessage.ack ack ∉ sent) ∧
      ∀ x, handling = some x → x.request.Carries T := by
  unfold handleClientMessage at h
  cases hcheck : checkClientMessage phoneId message with
  | error e => simp [hcheck, Except.map] at h
  | ok code =>
    simp only [hcheck, Except.map, Except.ok.injEq] at h
    cases code with
    | some code =>
      obtain ⟨rfl, rfl⟩ := Prod.mk.inj h
      exact ⟨by simp, by simp⟩
    | none =>
      obtain ⟨rfl, rfl⟩ := Prod.mk.inj h
      refine ⟨by simp, ?_⟩
      intro x hx
      obtain rfl : _ = x := by simpa using hx
      cases message <;> exact hc

namespace Server
open Machine
variable {T : String → Int → String}

/-- Every acknowledgement that is sent is settled. -/
def AckSound (T : String → Int → String) (s : Server) : Prop :=
  ∀ ack, ServerMessage.ack ack ∈ s.sent →
    s.dispatcher.windows.Settled T ack.sessionId ack.appliedSequence

/-- A session and sequence always come with the same text; an awaited Begin that
meets its session already open finds it in the state it asks for, with that text
written last; and a Begin is sent only when no other text service has yet to run a
command with text of the session. -/
def SettledBegins (T : String → Int → String) (s : Server) : Event → Prop
  | .receive _ message => message.Carries T
  | .dispatcher event => s.dispatcher.BeginsSettled event
  | _ => True

structure AckInv (T : String → Int → String) (s : Server) : Prop extends SlotInv s where
  dispatcher : s.dispatcher.SoundInv T
  carries : ∀ handling progress, s.task = some (handling, progress) → handling.request.Carries T
  answered : ∀ handling response, s.task = some (handling, .answered (.ok response)) →
    s.dispatcher.windows.Sound T handling.request response ∧
    (∀ w, s.dispatcher.windows.waiting = some w → Windows.Textless w) ∧
    (s.owner = true → s.dispatcher.phase = .idle)

theorem isOther_carries {request : InjectorRequest} (h : isOther request = true) :
    request.Carries T := by
  cases request <;> simp_all [isOther, InjectorRequest.Carries]

/-- An answer that waits to be passed on stays true while only requests without
text are handled. -/
theorem AckInv.answered_step {s : Server} (h : s.AckInv T) {d : Dispatcher}
    {e : Dispatcher.Event} (hd : s.dispatcher.step e = some d) (hinv : d.SoundInv T)
    {handling : Handling} {response : InjectorResponse}
    (ht : s.task = some (handling, .answered (.ok response))) :
    d.windows.Sound T handling.request response ∧
      ∀ w, d.windows.waiting = some w → Windows.Textless w := by
  obtain ⟨hsound, htextless, hidle⟩ := h.answered handling response ht
  have hstep : ∀ event, s.dispatcher.windows.step event = some d.windows →
      (∀ request desktop, event = .request request desktop → isOther request = true) →
      d.windows.Sound T handling.request response ∧
        ∀ w, d.windows.waiting = some w → Windows.Textless w := by
    intro event hw hother
    have htextless' := Windows.step_textless hw htextless hother
    exact ⟨hsound.mono fun id n hset => Windows.step_settled_of_textless h.dispatcher.shape
      hinv.fits hw htextless' hset, htextless'⟩
  rcases Dispatcher.step_windows hd with ⟨hwin, -⟩ | ⟨request, attempt, desktop, hp, hw, -, -⟩ |
    ⟨event, hw, -, -, hne, -⟩
  · rw [hwin]
    exact ⟨hsound, htextless⟩
  · refine hstep _ hw ?_
    rintro r d' ⟨⟩
    -- the dispatcher works for another task
    have howner : s.owner = false := by
      by_contra howner
      have := hidle (by simpa using howner)
      simp [hp] at this
    exact wire_isOther attempt (h.other howner request (by rw [hp]; rfl))
  · exact hstep event hw (fun r d he => absurd he (hne r d))

theorem step_ackInv {s t : Server} {e : Event} (h : s.AckInv T) (hok : s.SettledBegins T e)
    (hs : s.step e = some t) : t.AckInv T ∧ t.AckSound T := by
  have hnothing : ∀ u : Server, u.sent = [] → u.AckSound T := by
    intro u hu ack hmem
    simp [hu] at hmem
  have hslot := step_slotInv h.toSlotInv hs
  cases e with
  | receive phoneId message =>
    simp only [step, stepReceive] at hs
    split at hs
    · rename_i sent handling htask hmsg
      obtain rfl : _ = t := by simpa using hs
      obtain ⟨hnoack, hcarries⟩ := handleClientMessage_ok hmsg hok
      refine ⟨⟨hslot, h.dispatcher, ?_, ?_⟩, fun ack hmem => absurd hmem (hnoack ack)⟩
      · intro x progress hx
        obtain ⟨y, hy, hxy⟩ := Option.map_eq_some_iff.mp hx
        obtain rfl : y = x := congrArg Prod.fst hxy
        exact hcarries y hy
      · intro x response hx
        obtain ⟨y, hy, hxy⟩ := Option.map_eq_some_iff.mp hx
        simp at hxy
    · simp at hs
  | submit =>
    simp only [step, stepSubmit] at hs
    split at hs
    · rename_i handling htask
      have hc := h.carries handling .ready htask
      obtain ⟨d, hd, rfl⟩ := Option.map_eq_some_iff.mp hs
      have hinv : d.SoundInv T := by
        refine Dispatcher.step_soundInv h.dispatcher ?_ (e := .submit _) trivial hd
        rintro r ⟨⟩
        exact hc
      refine ⟨⟨hslot, hinv, ?_, by simp⟩, hnothing _ rfl⟩
      rintro x progress ⟨⟩
      exact hc
    · simp at hs
  | other request =>
    simp only [step, stepOther] at hs
    split at hs
    · rename_i hother
      obtain ⟨d, hd, rfl⟩ := Option.map_eq_some_iff.mp hs
      obtain ⟨-, hwin⟩ := submit_request hd
      have hinv : d.SoundInv T := by
        refine Dispatcher.step_soundInv h.dispatcher ?_ (e := .submit _) trivial hd
        rintro r ⟨⟩
        exact isOther_carries hother
      refine ⟨⟨hslot, hinv, h.carries, ?_⟩, hnothing _ rfl⟩
      intro x response hx
      obtain ⟨hsound, htextless, -⟩ := h.answered x response hx
      rw [hwin]
      exact ⟨hsound, htextless, by simp⟩
    · simp at hs
  | dispatcher event =>
    simp only [step, stepDispatcher] at hs
    split at hs
    · simp at hs
    · rename_i hne
      obtain ⟨d, hd, rfl⟩ := Option.map_eq_some_iff.mp hs
      have hinv := Dispatcher.step_soundInv h.dispatcher
        (fun r he => absurd he (hne r)) hok hd
      -- a task that was answered before keeps its answer
      have hold : ∀ x response, s.task = some (x, .answered (.ok response)) →
          d.windows.Sound T x.request response ∧
          (∀ w, d.windows.waiting = some w → Windows.Textless w) ∧
          (s.owner = true → d.phase = .idle) := by
        intro x response hx
        obtain ⟨hsound, htextless⟩ := h.answered_step hd hinv hx
        refine ⟨hsound, htextless, ?_⟩
        intro howner
        have hidle := (h.answered x response hx).2.2 howner
        rcases Dispatcher.step_request hd with hidle' | ⟨-, hbusy⟩ | ⟨r, he, -⟩
        · exact hidle'
        · exact absurd hidle hbusy
        · exact absurd he (hne r)
      refine ⟨?_, hnothing _ rfl⟩
      rcases Dispatcher.step_result hd with hnone | ⟨hidle, hbusy, -⟩
      · have htask : passOn s.owner s.task d.result = s.task := by
          rw [hnone]
          rfl
        refine ⟨hslot, hinv, ?_, ?_⟩
        · rw [htask]
          exact h.carries
        · rw [htask]
          exact hold
      · cases howner : s.owner with
        | false =>
          have htask : passOn false s.task d.result = s.task := by
            cases d.result <;> rfl
          rw [howner] at hslot hold
          refine ⟨hslot, hinv, ?_, ?_⟩
          · rw [htask]
            exact h.carries
          · rw [htask]
            exact hold
        | true =>
          obtain ⟨request, hphase⟩ : ∃ request, s.dispatcher.phase.request? = some request := by
            cases hp : s.dispatcher.phase with
            | idle => exact absurd hp hbusy
            | connect r => exact ⟨r, rfl⟩
            | send r a => exact ⟨r, rfl⟩
            | receive r a => exact ⟨r, rfl⟩
            | reconnect r p => exact ⟨r, rfl⟩
          obtain ⟨handling, htask, rfl⟩ := h.owned howner request hphase
          have hc := h.carries _ _ htask
          rw [howner, htask] at hslot
          rw [htask]
          cases hres : d.result with
          | none =>
            rw [hres] at hslot
            refine ⟨hslot, hinv, ?_, by simp [passOn]⟩
            rintro x progress ⟨⟩
            exact hc
          | some result =>
            rw [hres] at hslot
            refine ⟨hslot, hinv, ?_, ?_⟩
            · rintro x progress ⟨⟩
              exact hc
            · rintro x response ⟨⟩
              obtain ⟨hsound, htextless⟩ := Dispatcher.result_sound h.dispatcher hd hres hphase
              exact ⟨hsound, htextless, fun _ => hidle⟩
  | proceed =>
    simp only [step, stepProceed] at hs
    split at hs
    · rename_i handling result htask
      have htask' : s.task = some (handling, .answered result) := htask
      obtain rfl : _ = t := by simpa using hs
      refine ⟨⟨hslot, h.dispatcher, ?_, ?_⟩, ?_⟩
      · intro x progress hx
        obtain ⟨y, hy, hxy⟩ := Option.map_eq_some_iff.mp hx
        obtain rfl : y = x := congrArg Prod.fst hxy
        exact Handling.proceed_carries hy (h.carries _ _ htask')
      · intro x response hx
        obtain ⟨y, hy, hxy⟩ := Option.map_eq_some_iff.mp hx
        simp at hxy
      · intro ack hmem
        cases result with
        | error failure => exact absurd hmem (handling.proceed_error failure ack)
        | ok response => exact Handling.proceed_ack hmem (h.answered handling response htask').1
    · simp at hs

theorem ackInv_initial (T : String → Int → String) : AckInv T {} := by
  refine ⟨slotInv_initial, ⟨Windows.shape_initial, ?_, Windows.ledger_initial T, ?_, ?_, ?_⟩,
    ?_, ?_⟩
  · intro w hw
    simp at hw
  · simp [Phase.request?]
  · simp
  · simp
  · simp
  · simp

/-- In a run whose Begins meet what they ask for, every acknowledgement names the
text that was last written for its session, and no command on its way can change
it. -/
theorem acknowledged_text_settled (T : String → Int → String) (es : List Event)
    (h : Along step (SettledBegins T) {} es) : Always step (AckSound T) {} es := by
  refine always_of_along (AckInv T) es (ackInv_initial T) ?_ ?_ h
  · intro ack hmem
    simp at hmem
  · intro s e t hinv hok hs
    exact step_ackInv hinv hok hs

def typedText (_ : String) (n : Int) : String := if n = 1 then "a" else "ab"

def startMessage (n : Int) : ClientMessage :=
  .start { type := .start, phoneId := "phone", sessionId := "s", sequence := n
           fullText := typedText "s" n }

/-- The request under way is written, and the only text service runs its Begin. -/
def beginEvents : List Event :=
  [.dispatcher (.write { foreground := some Windows.notepad }),
   .dispatcher (.windows (.select [⟨⟨1, 1⟩, 1⟩])),
   .dispatcher (.windows (.execute ⟨1, 1⟩ Windows.editDone)),
   .dispatcher (.windows (.deliver ⟨1, 1⟩)), .dispatcher .read, .proceed]

def applyEvents : List Event :=
  [.submit, .dispatcher (.write { foreground := some Windows.notepad }), .dispatcher .read,
   .proceed]

def firstLetter : List Event :=
  [.dispatcher (.windows (.connect ⟨1, 1⟩)), .receive "phone" (startMessage 1), .submit,
   .dispatcher .connected] ++ beginEvents ++ applyEvents

theorem first_letter_settled : Along step (SettledBegins typedText) {} firstLetter ∧
    Always step (AckSound typedText) {} firstLetter ∧
    (run step {} firstLetter).map (·.sent) = some [ackMessage "s" 1 false] := by
  have hquiet : ∀ (s : Server) (event : Windows.Event), s.dispatcher.windows.nextOffer event = none →
      (∀ tip env, event ≠ .execute tip env) →
      s.SettledBegins typedText (.dispatcher (.windows event)) := by
    intro s event hoffer hexecute
    refine ⟨?_, ?_⟩
    · intro tip env _ _ _ _ _ _ _ _ _ _ he
      exact absurd he (hexecute tip env)
    · intro key call hsome
      simp [hoffer] at hsome
  have h : Along step (SettledBegins typedText) {} firstLetter := by
    refine ⟨hquiet _ _ rfl (by simp), rfl, trivial, trivial, trivial, ⟨?_, ?_⟩, ⟨?_, ?_⟩,
      hquiet _ _ rfl (by simp), trivial, trivial, trivial, trivial, trivial, trivial, trivial⟩
    · intro tip env _ _ _ _ _ _ _ _ _ _ he
      simp at he
    · -- no other text service is connected
      intro key call hoffer t p ht hp
      obtain ⟨rfl, rfl⟩ := Prod.mk.inj (Option.some.inj hoffer)
      rcases hp with ⟨c, hc, -⟩ | hd
      · have hclient : (Function.update (fun _ => ({} : Host)) ⟨1, 1⟩
            { client := some ⟨1, []⟩ } t).client = some c := hc
        rw [Function.update_of_ne ht] at hclient
        simp at hclient
      · have hdetached : (Function.update (fun _ => ({} : Host)) ⟨1, 1⟩
            { client := some ⟨1, []⟩ } t).detached = some p := hd
        rw [Function.update_of_ne ht] at hdetached
        simp at hdetached
    · -- the composition is still empty
      rintro tip env c p rest id n text attach key command wait ⟨⟩ - - - - hid
      have hnone : none = some id := hid
      simp at hnone
    · intro key call hoffer
      have hnone : none = some (key, call) := hoffer
      simp at hnone
  exact ⟨h, acknowledged_text_settled typedText firstLetter h, by decide⟩

/-- The first start is given up before its Begin runs; the second one then finds
its session open, with the text of the first. -/
def secondStart : List Event :=
  [.dispatcher (.windows (.connect ⟨1, 1⟩)), .receive "phone" (startMessage 1), .submit,
   .dispatcher .connected, .dispatcher (.write { foreground := some Windows.notepad }),
   .dispatcher (.windows (.select [⟨⟨1, 1⟩, 1⟩])), .dispatcher (.windows .giveUp),
   .dispatcher (.windows .expire), .dispatcher .read, .proceed,
   .dispatcher (.windows (.execute ⟨1, 1⟩ Windows.editDone)),
   .dispatcher (.windows (.deliver ⟨1, 1⟩)), .receive "phone" (startMessage 2), .submit] ++
  beginEvents ++ applyEvents

theorem second_start_not_settled :
    (∀ phoneId message, Event.receive phoneId message ∈ secondStart →
      message.Carries typedText) ∧
    ¬ Always step (AckSound typedText) {} secondStart := by
  refine ⟨?_, ?_⟩
  · intro phoneId message hmem
    have hmem' : message = startMessage 1 ∨ message = startMessage 2 := by
      simp [secondStart, beginEvents, applyEvents] at hmem
      tauto
    rcases hmem' with rfl | rfl <;> rfl
  intro h
  have hlast := h.last secondStart (Option.some_get (by decide)).symm
  have hset := (hlast ⟨"s", 2, .active⟩ (by decide)).1
  exact absurd hset (by decide)

end Server

end FlowType
