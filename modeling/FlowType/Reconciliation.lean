import FlowType.Commands
import FlowType.ReliablePipe

/-! What becomes of an ApplyState or a FinishSession whose exchange with the injector
has failed. The injector accepts a new pipe only after it has given up what it had,
so the query of `reconcile_injector_request` finds neither an active nor a completed
session. -/
namespace FlowType

def InjectorRequest.isEdit : InjectorRequest → Bool
  | .applyState _ _ _ => true
  | .finishSession _ _ => true
  | _ => false

def TipCommand.isEdit : TipCommand → Bool
  | .update _ _ _ => true
  | .finish _ _ => true
  | _ => false

def Next.isEdit : Next → Bool
  | .call _ command _ => command.isEdit
  | _ => false

namespace Injector

theorem captureAndBegin_isEdit (sessionId : String) (sequence : Int) (fullText : String)
    (attach : Bool) (desktop : Desktop) :
    (captureAndBegin sessionId sequence fullText attach desktop).isEdit = false := by
  unfold captureAndBegin
  split
  · rfl
  · split_ifs <;> rfl

theorem afterCancel_isEdit (s : Injector) (after : AfterCancel) :
    (s.afterCancel after).2.isEdit = false := by
  cases after with
  | reply response => rfl
  | begin sessionId sequence text attach desktop => exact captureAndBegin_isEdit ..
  | accept => rfl

theorem endFailedSession_isEdit (s : Injector) (after : AfterCancel) :
    (s.endFailedSession after).2.isEdit = false := by
  unfold endFailedSession
  split
  · exact s.afterCancel_isEdit after
  · rfl

/-- An edit is sent for a request that asks for one. -/
theorem handleRequest_isEdit (s : Injector) (desktop : Desktop) (input : InputMonitor)
    {request : InjectorRequest} (h : (s.handleRequest desktop input request).2.isEdit = true) :
    request.isEdit = true := by
  have hend := s.endFailedSession_isEdit
  cases request with
  | beginSession sessionId replaces sequence text attach =>
    simp only [handleRequest, beginSession] at h
    split at h
    · simp [Next.isEdit] at h
    · split at h
      · simp [Next.isEdit] at h
      · split at h
        · simp [Next.isEdit] at h
        · simp [hend] at h
        · simp [captureAndBegin_isEdit] at h
  | applyState sessionId sequence text => rfl
  | finishSession sessionId sequence => rfl
  | querySession sessionId =>
    simp only [handleRequest, querySession] at h
    split at h
    · unfold queryActiveSession at h
      split_ifs at h
      · simp [hend] at h
      · simp [hend] at h
      · simp [Next.isEdit] at h
      · simp [Next.isEdit, TipCommand.isEdit] at h
    · split at h
      · simp [Next.isEdit] at h
      · simp [Next.isEdit] at h
  | probeTarget => simp [handleRequest, Next.isEdit] at h
  | cancelInvalidSession sessionId =>
    simp only [handleRequest, cancelInvalidSession] at h
    split at h
    · simp [Next.isEdit] at h
    · simp [hend] at h

/-- Going on after a call sends no edit. -/
theorem resume_isEdit (s : Injector) (input : InputMonitor) (key : TipKey) (wait : Wait)
    (answer : Option TipResponse) : (s.resume input key wait answer).2.isEdit = false := by
  have hend := s.endFailedSession_isEdit
  cases wait with
  | cancel after => exact s.afterCancel_isEdit after
  | begin call rest rejected =>
    rcases s.resumeBegin_cases input key call rest rejected answer with
      ⟨-, hr⟩ | ⟨-, hr | ⟨rejected', hr⟩⟩
    · simp [resume, hr, Next.isEdit]
    · simp [resume, hr, Next.isEdit]
    · cases rest with
      | nil => simp [resume, hr, beginCandidates, Next.isEdit]
      | cons k ks =>
        simp [resume, hr, beginCandidates, Next.isEdit, TipBegin.command, TipCommand.isEdit]
  | update id sequence text =>
    cases hs : s.session with
    | none => simp [resume, hs, Next.isEdit]
    | some a =>
      simp only [resume, hs]
      rcases s.resumeUpdate_cases hs id sequence text answer with
        ⟨-, hr⟩ | ⟨n, -, -, hr⟩ | ⟨-, hr⟩ | ⟨response, -, hr⟩ <;>
        simp [hr, Next.isEdit, TipCommand.isEdit]
  | finish id sequence =>
    cases hs : s.session with
    | none => simp [resume, hs, Next.isEdit]
    | some a =>
      simp only [resume, hs]
      rcases s.resumeFinish_cases hs id sequence answer with ⟨-, hr⟩ | ⟨response, -, hr⟩ <;>
        simp [hr, Next.isEdit, TipCommand.isEdit]
  | query id inputEpoch sequence text =>
    simp only [resume, resumeQuery]
    split
    · rfl
    · exact hend _
    · exact hend _

end Injector

namespace Windows

/-- While the injector waits for nothing, only a request or the loss of its pipe
makes it act. -/
theorem step_idle {s t : Windows} {e : Event} (hs : s.step e = some t) (hw : s.waiting = none)
    (hrequest : ∀ request desktop, e ≠ .request request desktop) (hpipe : e ≠ .pipeLost)
    (hrestart : e ≠ .restart) :
    t.injector = s.injector ∧ t.waiting = none ∧ t.reply = none := by
  rcases step_acts hs with ⟨hi, hw', hr, -⟩ | ⟨he, -⟩ | ⟨u, r, -, -, -, hacts⟩
  · exact ⟨hi, hw'.trans hw, hr⟩
  · exact absurd he hrestart
  · -- every action goes on with a call or an offer
    cases hacts with
    | request request desktop _ => exact absurd rfl (hrequest request desktop)
    | select candidates h => simp [hw] at h
    | expire h => simp [hw] at h
    | deliver tip answer h => simp [hw] at h
    | giveUp h => simp [hw] at h
    | pipeLost _ => exact absurd rfl hpipe

/-- A step that carries out no action of the injector, or the end of the call
`key command` with `wait`. -/
theorem step_call {s t : Windows} {e : Event} {key : TipKey} {command : TipCommand} {token : Nat}
    {wait : Wait} (hs : s.step e = some t)
    (hw : s.waiting = some (.call key command token wait)) (hrestart : e ≠ .restart) :
    (t.injector = s.injector ∧ t.waiting = s.waiting ∧ t.reply = none) ∨
      ∃ u answer, t = perform u (s.injector.resume s.input key wait answer) ∧ u.reply = none := by
  rcases step_acts hs with ⟨hi, hw', hr, -⟩ | ⟨he, -⟩ | ⟨u, r, rfl, -, hr, hacts⟩
  · exact Or.inl ⟨hi, hw', hr⟩
  · exact absurd he hrestart
  · cases hacts with
    | request request desktop h => simp [hw] at h
    | select candidates h => simp [hw] at h
    | expire h => simp [hw] at h
    | deliver tip answer h =>
      obtain ⟨rfl, -, -, rfl⟩ : _ = key ∧ _ = command ∧ _ = token ∧ _ = wait := by
        simpa [h] using hw
      exact Or.inr ⟨u, some answer, rfl, hr⟩
    | giveUp h =>
      obtain ⟨rfl, -, -, rfl⟩ : _ = key ∧ _ = command ∧ _ = token ∧ _ = wait := by
        simpa [h] using hw
      exact Or.inr ⟨u, none, rfl, hr⟩
    | pipeLost h => simp [hw] at h

/-- The injector cancels its session because its pipe is gone. -/
def Leaving (s : Windows) : Prop :=
  ∀ w, s.waiting = some w → ∃ key command token, w = .call key command token (.cancel .accept)

/-- Once its pipe is gone the injector has nothing, and it stays so. -/
theorem step_leaving {s t : Windows} {e : Event} (hs : s.step e = some t) (h : s.Leaving)
    (hsession : s.injector.session = none) (hcompleted : s.injector.completed = none)
    (hrequest : ∀ request desktop, e ≠ .request request desktop) (hpipe : e ≠ .pipeLost)
    (hrestart : e ≠ .restart) :
    t.injector.session = none ∧ t.injector.completed = none ∧ t.Leaving := by
  cases hw : s.waiting with
  | none =>
    obtain ⟨hi, hw', -⟩ := step_idle hs hw hrequest hpipe hrestart
    refine ⟨by rw [hi]; exact hsession, by rw [hi]; exact hcompleted, ?_⟩
    intro w hw''
    simp [hw'] at hw''
  | some w =>
    obtain ⟨key, command, token, rfl⟩ := h w hw
    rcases step_call hs hw hrestart with ⟨hi, hw', -⟩ | ⟨u, answer, rfl, -⟩
    · refine ⟨by rw [hi]; exact hsession, by rw [hi]; exact hcompleted, ?_⟩
      rw [Leaving, hw']
      exact h
    · refine ⟨?_, ?_, ?_⟩
      · simpa [Injector.resume, Injector.afterCancel] using hsession
      · simp [Injector.resume, Injector.afterCancel]
      · intro w hw'
        simp [perform_waiting, Injector.resume, Injector.afterCancel] at hw'

/-- The loss of the pipe: the session is given up, and what was completed is
forgotten. -/
theorem pipeLost_leaving {s t : Windows} (hs : s.step .pipeLost = some t)
    (hexclusive : s.injector.Exclusive) :
    t.injector.session = none ∧ t.injector.completed = none ∧ t.Leaving := by
  simp only [step] at hs
  split_ifs at hs
  obtain rfl := Option.some.inj hs
  cases hsession : s.injector.session with
  | none =>
    refine ⟨?_, ?_, ?_⟩
    · simp [Injector.pipeLost, Injector.endFailedSession, hsession, Injector.afterCancel]
    · simp [Injector.pipeLost, Injector.endFailedSession, hsession, Injector.afterCancel]
    · intro w hw
      simp [perform_waiting, Injector.pipeLost, Injector.endFailedSession, hsession,
        Injector.afterCancel] at hw
  | some a =>
    refine ⟨?_, ?_, ?_⟩
    · simp [Injector.pipeLost, Injector.endFailedSession, hsession]
    · simpa [Injector.pipeLost, Injector.endFailedSession, hsession] using hexclusive a hsession
    · intro w hw
      rw [perform_waiting] at hw
      simp only [Injector.pipeLost, Injector.endFailedSession, hsession] at hw
      exact ⟨_, _, _, (Option.some.inj hw).symm⟩

/-- Whatever happens, at most one session is active or remembered. -/
theorem step_exclusive {s t : Windows} {e : Event} (hfits : s.Fits) (h : s.injector.Exclusive)
    (hs : s.step e = some t) : t.injector.Exclusive := by
  by_cases hrestart : e = .restart
  · subst hrestart
    obtain rfl : _ = t := by simpa [step] using hs
    exact .of_none rfl
  · by_cases hpipe : e = .pipeLost
    · subst hpipe
      exact .of_none (pipeLost_leaving hs h).1
    · cases e with
      | request request desktop =>
        obtain ⟨-, rfl⟩ := stepRequest_some hs
        rw [perform_injector]
        exact (s.injector.handleRequest_move desktop s.input request).exclusive h
      | _ => exact (step_continues hfits hs (by simp) hpipe hrestart).exclusive h

/-- An edit is sent when a request that asks for one is read. -/
theorem step_isEdit {s t : Windows} {e : Event} {key : TipKey} {command : TipCommand} {wait : Wait}
    (hshape : s.Shape) (hs : s.step e = some t)
    (hw : t.waiting = some (.call key command s.nextToken wait)) (hedit : command.isEdit = true) :
    ∃ request desktop, e = .request request desktop ∧ request.isEdit = true := by
  rcases step_acts hs with ⟨-, hw', -⟩ | ⟨-, -, hw', -⟩ | ⟨u, r, rfl, -, -, hacts⟩
  · -- the call was there before, so its token is an older one
    have := (hshape.awaited key command s.nextToken wait (hw'.symm.trans hw)).1
    omega
  · simp [hw'] at hw
  · have hr : r.2.isEdit = true := by
      rw [perform_waiting] at hw
      split at hw
      · rename_i hr
        obtain ⟨-, rfl, -⟩ : _ ∧ _ = command ∧ _ := by simpa using hw
        rw [hr]
        exact hedit
      · simp at hw
      · simp at hw
    cases hacts with
    | request request desktop _ =>
      exact ⟨request, desktop, rfl, s.injector.handleRequest_isEdit desktop s.input hr⟩
    | @select call rejected tried candidates _ =>
      cases candidates with
      | nil => simp [beginCandidates, Next.isEdit] at hr
      | cons k ks =>
        simp [beginCandidates, Next.isEdit, TipBegin.command, TipCommand.isEdit] at hr
    | expire _ => simp [beginExpired, Next.isEdit] at hr
    | deliver tip answer _ => simp [Injector.resume_isEdit] at hr
    | giveUp _ => simp [Injector.resume_isEdit] at hr
    | pipeLost _ => simp [Injector.pipeLost, Injector.endFailedSession_isEdit] at hr

/-- The command that the event runs. -/
def running (s : Windows) : Event → Option Pending
  | .execute tip _ =>
    match s.client tip with
    | some ⟨_, p :: _⟩ => if p.answer = none then some p else none
    | _ => none
  | .executeDetached tip _ => (s.hosts tip).detached
  | _ => none

theorem runs_of_running {s : Windows} {e : Event} {p : Pending} (h : s.running e = some p) :
    ∃ tip env, s.Runs e tip env p := by
  cases e with
  | execute tip env =>
    simp only [running] at h
    split at h
    · rename_i generation q rest hc
      split_ifs at h with hq
      obtain rfl := Option.some.inj h
      exact ⟨tip, env, Or.inl ⟨rfl, generation, rest, hc, hq⟩⟩
    · simp at h
  | executeDetached tip env => exact ⟨tip, env, Or.inr ⟨rfl, h⟩⟩
  | _ => simp [running] at h

/-- An edit for one of the requests in `Q`. -/
def EditFor (Q : Nat → Prop) (p : Pending) : Prop := p.command.isEdit = true ∧ Q p.request

instance (Q : Nat → Prop) [DecidablePred Q] : DecidablePred (EditFor Q) :=
  fun p => inferInstanceAs (Decidable (p.command.isEdit = true ∧ Q p.request))

/-- At most one edit for the requests in `Q` is due or has been run. -/
structure EditOnce (s : Windows) (executed : List Pending) (Q : Nat → Prop) [DecidablePred Q] :
    Prop where
  single : ∀ t p u q, s.Unexecuted t p → s.Unexecuted u q → EditFor Q p → EditFor Q q →
    t = u ∧ p.token = q.token
  fresh : ∀ t p, s.Unexecuted t p → EditFor Q p → executed.countP (fun x => EditFor Q x) = 0
  once : executed.countP (fun x => EditFor Q x) ≤ 1

/-- No edit for the requests in `Q` was ever sent. -/
theorem EditOnce.of_unused {s : Windows} {executed : List Pending} {Q : Nat → Prop}
    [DecidablePred Q] (hdue : ∀ t p, s.Unexecuted t p → ¬ Q p.request)
    (hexecuted : ∀ p ∈ executed, ¬ Q p.request) : s.EditOnce executed Q := by
  have hzero : executed.countP (fun x => EditFor Q x) = 0 := by
    rw [List.countP_eq_zero]
    intro p hp h
    exact hexecuted p hp (of_decide_eq_true h).2
  refine ⟨?_, ?_, by omega⟩
  · exact fun t p u q hp _ hQ _ => absurd hQ.2 (hdue t p hp)
  · exact fun t p _ _ => hzero

theorem EditOnce.congr {s : Windows} {executed : List Pending} {Q Q' : Nat → Prop}
    [DecidablePred Q] [DecidablePred Q'] (h : s.EditOnce executed Q)
    (hdue : ∀ t p, s.Unexecuted t p → (Q p.request ↔ Q' p.request))
    (hexecuted : ∀ p ∈ executed, (Q p.request ↔ Q' p.request)) : s.EditOnce executed Q' := by
  have hd : ∀ t p, s.Unexecuted t p → EditFor Q' p → EditFor Q p := by
    rintro t p hp ⟨hedit, hQ⟩
    exact ⟨hedit, (hdue t p hp).mpr hQ⟩
  have hcount : executed.countP (fun x => EditFor Q' x) = executed.countP (fun x => EditFor Q x) := by
    refine List.countP_congr ?_
    intro p hp
    have hiff : EditFor Q' p ↔ EditFor Q p := by simp only [EditFor, hexecuted p hp]
    simpa using hiff
  refine ⟨?_, ?_, by rw [hcount]; exact h.once⟩
  · exact fun t p u q hp hq hQp hQq => h.single t p u q hp hq (hd t p hp hQp) (hd u q hq hQq)
  · intro t p hp hQ
    rw [hcount]
    exact h.fresh t p hp (hd t p hp hQ)

/-- A step keeps it when a new edit for `Q` is the first one. -/
theorem EditOnce.step {s t : Windows} {e : Event} {executed : List Pending} {Q : Nat → Prop}
    [DecidablePred Q] (h : s.EditOnce executed Q) (hshape : s.Shape) (hs : s.step e = some t)
    (hguard : ∀ request desktop, e = .request request desktop → request.isEdit = true →
      Q t.requests → (∀ u p, s.Unexecuted u p → ¬ Q p.request) ∧ ∀ p ∈ executed, ¬ Q p.request) :
    t.EditOnce ((s.running e).toList ++ executed) Q := by
  -- a due edit was due before, or it is the first one
  have hnew : ∀ u q, t.Unexecuted u q → EditFor Q q → s.Unexecuted u q ∨
      (q.token = s.nextToken ∧ (∃ generation wait, t.waiting =
        some (.call ⟨u, generation⟩ q.command s.nextToken wait)) ∧
        (∃ request desktop, e = .request request desktop) ∧
        (∀ u p, s.Unexecuted u p → ¬ Q p.request) ∧ ∀ p ∈ executed, ¬ Q p.request) := by
    intro u q hq hQ
    rcases step_unexecuted hs hq with hq | ⟨generation, wait, htok, hreq, hw, -⟩
    · exact Or.inl hq
    · obtain ⟨request, desktop, he, hedit⟩ := step_isEdit hshape hs hw hQ.1
      have hQ' : Q t.requests := hreq ▸ hQ.2
      exact Or.inr ⟨htok, ⟨generation, wait, hw⟩, ⟨request, desktop, he⟩,
        hguard request desktop he hedit hQ'⟩
  cases hrun : s.running e with
  | none =>
    simp only [Option.toList_none, List.nil_append]
    refine ⟨?_, ?_, h.once⟩
    · intro u p v q hp hq hQp hQq
      rcases hnew u p hp hQp with hp | ⟨hptok, ⟨gp, wp, hwp⟩, -, hfresh, -⟩
      · rcases hnew v q hq hQq with hq | ⟨-, -, -, hfresh, -⟩
        · exact h.single u p v q hp hq hQp hQq
        · exact absurd hQp.2 (hfresh u p hp)
      · rcases hnew v q hq hQq with hq | ⟨hqtok, ⟨gq, wq, hwq⟩, -, -, -⟩
        · exact absurd hQq.2 (hfresh v q hq)
        · obtain ⟨⟨rfl, -⟩, -⟩ : (u = v ∧ gp = gq) ∧ _ := by simpa using hwp.symm.trans hwq
          exact ⟨rfl, hptok.trans hqtok.symm⟩
    · intro u p hp hQ
      rcases hnew u p hp hQ with hp | ⟨-, -, -, -, hfresh⟩
      · exact h.fresh u p hp hQ
      · rw [List.countP_eq_zero]
        intro x hx hx'
        exact hfresh x hx (of_decide_eq_true hx').2
  | some p =>
    obtain ⟨tip, env, hruns⟩ := runs_of_running hrun
    have hdue : ∀ u q, t.Unexecuted u q → EditFor Q q → s.Unexecuted u q := by
      intro u q hq hQ
      rcases hnew u q hq hQ with hq | ⟨-, -, ⟨request, desktop, rfl⟩, -⟩
      · exact hq
      · simp [running] at hrun
    simp only [Option.toList_some, List.singleton_append]
    by_cases hp : EditFor Q p
    · -- it was the only one due, and it is not due any more
      have hgone : ∀ u q, t.Unexecuted u q → ¬ EditFor Q q := by
        intro u q hq hQ
        obtain ⟨rfl, htok⟩ := h.single tip p u q hruns.unexecuted (hdue u q hq hQ) hp hQ
        exact (hruns.done hshape hs hq).2 htok.symm
      have hzero := h.fresh tip p hruns.unexecuted hp
      refine ⟨?_, ?_, ?_⟩
      · exact fun u q _ _ hq _ hQ => absurd hQ (hgone u q hq)
      · exact fun u q hq hQ => absurd hQ (hgone u q hq)
      · rw [List.countP_cons, hzero]
        split_ifs <;> omega
    · have hcount : (p :: executed).countP (fun x => EditFor Q x) =
          executed.countP (fun x => EditFor Q x) := by
        rw [List.countP_cons, if_neg (by simpa using hp), Nat.add_zero]
      refine ⟨?_, ?_, by rw [hcount]; exact h.once⟩
      · exact fun u q v r hq hr hQq hQr =>
          h.single u q v r (hdue u q hq hQq) (hdue v r hr hQr) hQq hQr
      · intro u q hq hQ
        rw [hcount]
        exact h.fresh u q (hdue u q hq hQ) hQ

end Windows

namespace Dispatcher

/-- What holds however the exchanges fail: the injector serves the pipe of the app if
there is one, it has nothing while it serves none, and what it waits for belongs to
the request under way. -/
structure ServeInv (s : Dispatcher) : Prop where
  fits : s.windows.Fits
  exclusive : s.windows.injector.Exclusive
  away : s.serving = false → s.windows.injector.session = none ∧
    s.windows.injector.completed = none ∧ s.windows.Leaving
  served : s.Linked → s.serving = true
  present : ∀ n, s.client = some n → n ≤ s.instanceId
  busy : s.Linked → ∀ w, s.windows.waiting = some w → ∃ request attempt,
    s.phase = .receive request attempt ∧ ∀ id, w.offers = some id → request.begins = some id
  answered : s.Linked → s.response ≠ none → s.windows.waiting = none

/-- A new pipe meets an injector without a session. -/
theorem ServeInv.accepting {s : Dispatcher} (h : s.ServeInv) (hacc : s.Accepting) :
    s.windows.injector.session = none ∧ s.windows.injector.completed = none ∧
      s.windows.waiting = none :=
  ⟨(h.away hacc.1).1, (h.away hacc.1).2.1, hacc.2⟩

theorem ServeInv.idle {s : Dispatcher} (h : s.ServeInv) (hl : s.Linked)
    (hp : ∀ request attempt, s.phase ≠ .receive request attempt) : s.windows.waiting = none := by
  cases hw : s.windows.waiting with
  | none => rfl
  | some w =>
    obtain ⟨request, attempt, hp', -⟩ := h.busy hl w hw
    exact absurd hp' (hp request attempt)

theorem ServeInv.of_windows {s t : Dispatcher} (h : s.ServeInv) (hw : t.windows = s.windows)
    (hserving : t.serving = false → s.serving = false) (hserved : t.Linked → t.serving = true)
    (hpresent : ∀ n, t.client = some n → n ≤ t.instanceId)
    (hidle : t.Linked → s.windows.waiting = none) : t.ServeInv := by
  refine ⟨hw ▸ h.fits, hw ▸ h.exclusive, ?_, hserved, hpresent, ?_, ?_⟩
  · intro hn
    rw [hw]
    exact h.away (hserving hn)
  · intro hl w hwait
    rw [hw, hidle hl] at hwait
    simp at hwait
  · intro hl _
    rw [hw]
    exact hidle hl

theorem ServeInv.link {s t : Dispatcher} (h : s.ServeInv) (hacc : s.Accepting)
    (hw : t.windows = s.windows) (hserving : t.serving = true)
    (hclient : t.client = some t.instanceId) : t.ServeInv := by
  refine h.of_windows hw (by simp [hserving]) (fun _ => hserving) ?_ (fun _ => hacc.2)
  intro n hn
  rw [hclient] at hn
  obtain rfl := Option.some.inj hn
  exact le_rfl

theorem ServeInv.write {s : Dispatcher} (h : s.ServeInv) {request : InjectorRequest}
    {attempt : Attempt} {desktop : Desktop} {w : Windows} (hl : s.Linked)
    (hw : s.windows.step (.request (attempt.wire request) desktop) = some w)
    (origin : Nat → Option Nat) :
    ServeInv { s with windows := w, response := w.reply, phase := .receive request attempt
                      origin := origin } := by
  have hserving := h.served hl
  refine ⟨Windows.step_fits h.fits hw, Windows.step_exclusive h.fits h.exclusive hw, ?_, h.served,
    h.present, ?_, ?_⟩
  · intro hn
    exact absurd hn (by simp [hserving])
  · intro _ w' hw'
    refine ⟨request, attempt, rfl, ?_⟩
    intro id hid
    obtain ⟨-, rfl⟩ := Windows.stepRequest_some hw
    rw [Windows.perform_offers hw'] at hid
    rw [← attempt.wire_begins request]
    exact s.windows.injector.handleRequest_offers desktop s.windows.input hid
  · intro _ hreply
    obtain ⟨-, rfl⟩ := Windows.stepRequest_some hw
    exact Windows.perform_reply_waiting rfl _ hreply

theorem ServeInv.windows {s : Dispatcher} (h : s.ServeInv) {event : Windows.Event} {w : Windows}
    (hw : s.windows.step event = some w)
    (hrequest : ∀ request desktop, event ≠ .request request desktop) (hpipe : event ≠ .pipeLost)
    (hrestart : event ≠ .restart) :
    ServeInv { s with windows := w, response :=
      if s.Linked ∧ w.reply ≠ none then w.reply else s.response } := by
  have hc := Windows.step_continues h.fits hw hrequest hpipe hrestart
  refine ⟨Windows.step_fits h.fits hw, hc.exclusive h.exclusive, ?_, h.served, h.present, ?_, ?_⟩
  · intro hn
    obtain ⟨hsession, hcompleted, hleaving⟩ := h.away hn
    exact Windows.step_leaving hw hleaving hsession hcompleted hrequest hpipe hrestart
  · intro hl w' hw'
    obtain ⟨w₀, hw₀, hoffers⟩ := hc.waiting w' hw'
    obtain ⟨request, attempt, hp, hbegins⟩ := h.busy hl w₀ hw₀
    exact ⟨request, attempt, hp, fun id hid => hbegins id (hoffers id hid)⟩
  · intro hl hresponse
    by_cases hreply : w.reply = none
    · -- the answer was there before, so the injector was not busy
      simp only [hreply, ne_eq, not_true_eq_false, and_false, if_false] at hresponse
      exact (Windows.step_idle hw (h.answered hl hresponse) hrequest hpipe hrestart).2.1
    · exact hc.reply hreply

theorem step_serveInv {s t : Dispatcher} {e : Event} (h : s.ServeInv) (hs : s.step e = some t) :
    t.ServeInv := by
  have h₀ : ServeInv { s with result := none } :=
    ⟨h.fits, h.exclusive, h.away, h.served, h.present, h.busy, h.answered⟩
  have hfailed : ∀ request attempt, ServeInv (failed { s with result := none } request attempt) := by
    intro request attempt
    obtain ⟨hw, -, -, hserving, hclient, -⟩ := failed_frame { s with result := none } request attempt
    have hl : ¬ (failed { s with result := none } request attempt).Linked := by
      simp [Linked, hclient]
    refine h.of_windows hw ?_ (fun hn => absurd hn hl) ?_ (fun hn => absurd hn hl)
    · rw [hserving]
      exact fun hn => hn
    · simp [hclient]
  have hanswered : ∀ response, s.response = some response → s.Linked → s.windows.waiting = none := by
    intro response hr hl
    exact h.answered hl (by simp [hr])
  cases step_does hs with
  | submit request hp =>
    refine h.of_windows rfl (fun hn => hn) h.served h.present ?_
    exact fun hl => h.idle hl (by simp [show s.phase = _ from hp])
  | connect request hacc hp => exact h.link hacc rfl rfl rfl
  | reconnect request previous attempt hacc hp ha => exact h.link hacc rfl rfl rfl
  | giveUp request previous hacc hp => exact h.link hacc rfl rfl rfl
  | connectFails request hp =>
    refine h.of_windows rfl (fun hn => hn) h.served h.present ?_
    intro hl
    refine h.idle hl ?_
    rcases hp with hp | ⟨previous, hp⟩ <;> simp [show s.phase = _ from hp]
  | write request attempt desktop w hp hl hw => exact h₀.write hl hw _
  | writeFails request attempt hp => exact hfailed request attempt
  | readFails request attempt hp => exact hfailed request attempt
  | read request attempt response hp hr hq =>
    exact h.of_windows rfl (fun hn => hn) h.served h.present (hanswered response hr)
  | reconcile request response hp hr =>
    rcases reconcile_cases { s with result := none, response := none } request response with
      ⟨result, heq⟩ | heq
    · rw [heq]
      exact h.of_windows rfl (fun hn => hn) h.served h.present (hanswered response hr)
    · rw [heq]
      exact h.of_windows rfl (fun hn => hn) h.served h.present (hanswered response hr)
  | windows event w hne hpipe hrestart hw => exact h₀.windows hw hne hpipe hrestart
  | pipeLost w hserving hl hw =>
    have hl' : ¬ Linked { s with result := none, windows := w, serving := false } := hl
    refine ⟨Windows.step_fits h.fits hw, Windows.step_exclusive h.fits h.exclusive hw, ?_,
      fun hn => absurd hn hl', h.present, fun hn => absurd hn hl', fun hn => absurd hn hl'⟩
    exact fun _ => Windows.pipeLost_leaving hw h.exclusive
  | restart w hw =>
    have hl : s.client ≠ some (s.instanceId + 1) := by
      intro hn
      have := h.present _ hn
      omega
    have hl' : ¬ Linked { s with
        result := none, windows := w, instanceId := s.instanceId + 1, serving := false } := hl
    refine ⟨Windows.step_fits h.fits hw, Windows.step_exclusive h.fits h.exclusive hw, ?_,
      fun hn => absurd hn hl', ?_, fun hn => absurd hn hl', fun hn => absurd hn hl'⟩
    · obtain rfl : _ = w := by simpa [Windows.step] using hw
      exact fun _ => ⟨rfl, rfl, by simp [Windows.Leaving]⟩
    · intro n hn
      have := h.present n hn
      simp only
      omega
  | repair hp hacc => exact h.link hacc rfl rfl rfl

theorem serveInv_initial : ServeInv {} := by
  refine ⟨?_, .of_none rfl, fun _ => ⟨rfl, rfl, by simp [Windows.Leaving]⟩, by simp [Linked],
    by simp, by simp, by simp⟩
  intro w hw
  simp at hw

/-- Which requests are repeated, and what the query of a recovery meets: an injector
without a session. -/
def Recovering (s : Dispatcher) : Prop :=
  match s.phase with
  | .send request .again => request.isEdit = false
  | .receive request .again => request.isEdit = false
  | .send request .query => request.isEdit = true ∧ (s.Linked →
      s.windows.injector.session = none ∧ s.windows.injector.completed = none)
  | .receive request .query => request.isEdit = true ∧ s.response = some .sessionMissing
  | _ => True

theorem reconcileAttempt_cases {sameInstance : Bool} {request : InjectorRequest}
    {attempt : Attempt} (h : reconcileAttempt sameInstance request = some attempt) :
    (attempt = .again ∧ request.isEdit = false) ∨ (attempt = .query ∧ request.isEdit = true) := by
  cases request <;> cases sameInstance <;> simp [reconcileAttempt] at h <;> subst h <;>
    simp [InjectorRequest.isEdit]

/-- The query for a session that the injector does not have. -/
theorem write_query {s t : Windows} {request : InjectorRequest} {desktop : Desktop}
    (hs : s.step (.request (Attempt.query.wire request) desktop) = some t)
    (hedit : request.isEdit = true) (hsession : s.injector.session = none)
    (hcompleted : s.injector.completed = none) : t.reply = some .sessionMissing := by
  obtain ⟨-, rfl⟩ := Windows.stepRequest_some hs
  rw [Windows.perform_reply]
  cases request with
  | applyState sessionId sequence text =>
    simp [Attempt.wire, Injector.handleRequest, Injector.querySession, hsession, hcompleted]
  | finishSession sessionId sequence =>
    simp [Attempt.wire, Injector.handleRequest, Injector.querySession, hsession, hcompleted]
  | beginSession sessionId replaces sequence text attach => simp [InjectorRequest.isEdit] at hedit
  | querySession sessionId => simp [InjectorRequest.isEdit] at hedit
  | probeTarget => simp [InjectorRequest.isEdit] at hedit
  | cancelInvalidSession sessionId => simp [InjectorRequest.isEdit] at hedit

theorem reconcile_missing (s : Dispatcher) (request : InjectorRequest) :
    s.reconcile request .sessionMissing = s.finish (.error .recoveryRequired) := by
  cases request <;> rfl

theorem step_recovering {s t : Dispatcher} {e : Event} (hserve : s.ServeInv) (h : s.Recovering)
    (hs : s.step e = some t) : t.Recovering := by
  have hfailed : ∀ request attempt,
      (failed { s with result := none } request attempt).Recovering := by
    intro request attempt
    cases attempt <;> simp [failed, finish, Recovering]
  cases step_does hs with
  | submit request hp =>
    cases s.client <;> simp [Recovering]
  | connect request hacc hp => simp [Recovering]
  | reconnect request previous attempt hacc hp ha =>
    rcases reconcileAttempt_cases ha with ⟨rfl, hedit⟩ | ⟨rfl, hedit⟩
    · simp [Recovering, hedit]
    · obtain ⟨hsession, hcompleted, -⟩ := hserve.accepting hacc
      simp [Recovering, hedit, link, hsession, hcompleted]
  | giveUp request previous hacc hp => simp [Recovering, finish]
  | connectFails request hp => simp [Recovering, finish]
  | write request attempt desktop w hp hl hw =>
    simp only [Recovering, show s.phase = _ from hp] at h
    cases attempt with
    | first previous => simp [Recovering]
    | again => exact h
    | query =>
      obtain ⟨hedit, hnone⟩ := h
      exact ⟨hedit, write_query hw hedit (hnone hl).1 (hnone hl).2⟩
  | writeFails request attempt hp => exact hfailed request attempt
  | readFails request attempt hp => exact hfailed request attempt
  | read request attempt response hp hr hq => simp [Recovering, finish]
  | reconcile request response hp hr =>
    simp only [Recovering, show s.phase = _ from hp] at h
    obtain rfl : response = .sessionMissing := by
      rw [show s.response = _ from hr] at h
      exact Option.some.inj h.2
    rw [reconcile_missing]
    simp [Recovering, finish]
  | windows event w hne hpipe hrestart hw =>
    unfold Recovering at h ⊢
    split at h
    · rename_i request hp
      simp only [hp]
      exact h
    · rename_i request hp
      simp only [hp]
      exact h
    · rename_i request hp
      simp only [hp]
      refine ⟨h.1, fun hl => ?_⟩
      have hidle := hserve.idle hl (by simp [hp])
      rw [(Windows.step_idle hw hidle hne hpipe hrestart).1]
      exact h.2 hl
    · rename_i request hp
      simp only [hp]
      refine ⟨h.1, ?_⟩
      split_ifs with hc
      · -- the query has been answered, so the injector has nothing more to say
        have hidle := hserve.answered hc.1 (by simp [h.2])
        exact absurd (Windows.step_idle hw hidle hne hpipe hrestart).2.2 hc.2
      · exact h.2
    · simp only
  | pipeLost w hserving hl hw =>
    have hl' : ¬ Linked { s with result := none, windows := w, serving := false } := hl
    unfold Recovering at h ⊢
    split <;> simp_all
  | restart w hw =>
    have hl : ¬ Linked { s with
        result := none, windows := w, instanceId := s.instanceId + 1, serving := false } := by
      intro hn
      have hle : s.instanceId + 1 ≤ s.instanceId := hserve.present _ hn
      omega
    unfold Recovering at h ⊢
    split <;> simp_all
  | repair hp hacc => simp [Recovering, link, show s.phase = _ from hp]

end Dispatcher

/-- What a response says of the session of a request: the injector holds it at that
sequence, with the text of the request if it carries one. -/
def Injector.Confirms (s : Injector) : InjectorRequest → InjectorResponse → Prop
  | .applyState sessionId _ fullText, .applied n =>
    ∃ a, s.session = some a ∧ a.id = sessionId ∧ a.sequence = n ∧ a.text = fullText
  | .applyState sessionId _ fullText, .finished n =>
    s.completed = some ⟨sessionId, n, fullText⟩
  | .finishSession sessionId _, .applied n =>
    ∃ a, s.session = some a ∧ a.id = sessionId ∧ a.sequence = n
  | .finishSession sessionId _, .finished n =>
    ∃ f, s.completed = some f ∧ f.id = sessionId ∧ f.sequence = n
  | _, _ => True

def InjectorRequest.Outstanding : InjectorRequest → InjectorResponse → Prop
  | .applyState sessionId sequence _, .sessionActive active n _ =>
    active = sessionId ∧ n < sequence
  | .finishSession sessionId sequence, .sessionActive active n _ =>
    active = sessionId ∧ n = sequence
  | _, _ => False

/-- A run of the dispatcher that records, for the request handed over last, whether an
exchange of it has failed and what its query found, and for all requests which commands
the text services have run. -/
structure RecoveryRun where
  dispatcher : Dispatcher := {}
  interrupted : Bool := false
  queried : Option InjectorResponse := none
  executed : List Pending := []

namespace RecoveryRun
open Machine Dispatcher

def queriedBy (s : RecoveryRun) : Event → Option InjectorResponse
  | .submit _ => none
  | .read =>
    match s.dispatcher.phase with
    | .receive _ .query => s.dispatcher.response
    | _ => s.queried
  | _ => s.queried

def interruptedBy (s : RecoveryRun) : Event → Bool
  | .submit _ => false
  | .writeFails => true
  | .readFails => true
  | _ => s.interrupted

def executedBy (s : RecoveryRun) : Event → List Pending
  | .windows event => (s.dispatcher.windows.running event).toList ++ s.executed
  | _ => s.executed

def step (s : RecoveryRun) (e : Event) : Option RecoveryRun :=
  (s.dispatcher.step e).map fun dispatcher =>
    { dispatcher := dispatcher
      interrupted := s.interruptedBy e
      queried := s.queriedBy e
      executed := s.executedBy e }

def edits (s : RecoveryRun) (n : Nat) : Nat :=
  s.executed.countP fun p => Windows.EditFor (fun k => s.dispatcher.origin k = some n) p

/-- An interrupted request is answered only with what the injector holds, it is sent
again only while the queried session lacks it, and its edit is run at most once. -/
structure Sound (s : RecoveryRun) : Prop where
  returned : ∀ request response, s.interrupted = true →
    s.dispatcher.log.getLast? = some request → s.dispatcher.result = some (.ok response) →
    s.dispatcher.windows.injector.Confirms request response
  repeated : ∀ request attempt, s.interrupted = true → request.isEdit = true →
    (s.dispatcher.phase = .send request attempt ∨ s.dispatcher.phase = .receive request attempt) →
    attempt.wire request = request → ∃ state, s.queried = some state ∧ request.Outstanding state
  once : ∀ n request, s.dispatcher.log[n]? = some request → request.isEdit = true → s.edits n ≤ 1

def Untried (phase : Phase) : Prop :=
  ∃ request, phase = .connect request ∨ ∃ previousInstance, phase = .send request (.first
    previousInstance)

def Trying (phase : Phase) : Prop :=
  Untried phase ∨ ∃ request previousInstance, phase = .receive request (.first previousInstance)

/-- Commands are numbered by requests that the injector has read, and of the edits of
one request at most one is due or has been run. -/
structure Numbered (s : Dispatcher) (executed : List Pending) : Prop where
  shape : s.windows.Shape
  origin_lt : ∀ k n, s.origin k = some n → n < s.log.length
  origin_le : ∀ k n, s.origin k = some n → k ≤ s.windows.requests
  due_le : ∀ t p, s.windows.Unexecuted t p → p.request ≤ s.windows.requests
  executed_le : ∀ p ∈ executed, p.request ≤ s.windows.requests
  once : ∀ n, s.windows.EditOnce executed fun k => s.origin k = some n

structure Inv (s : RecoveryRun) : Prop extends Numbered s.dispatcher s.executed where
  serve : s.dispatcher.ServeInv
  recovering : s.dispatcher.Recovering
  logged : ∀ request, s.dispatcher.phase.request? = some request →
    s.dispatcher.log.getLast? = some request
  untried : Untried s.dispatcher.phase →
    ∀ k, s.dispatcher.origin k ≠ some (s.dispatcher.log.length - 1)
  interrupted : s.interrupted = true → ¬ Trying s.dispatcher.phase
  failed : s.interrupted = true → ∀ request, s.dispatcher.log.getLast? = some request →
    request.isEdit = true → ∀ response, s.dispatcher.result ≠ some (.ok response)

theorem Inv.sound {s : RecoveryRun} (h : s.Inv) : s.Sound := by
  refine ⟨?_, ?_, fun n _ _ _ => (h.once n).once⟩
  · intro request response hi hlog hr
    by_cases hedit : request.isEdit = true
    · exact absurd hr (h.failed hi request hlog hedit response)
    · cases request <;> simp_all [Injector.Confirms, InjectorRequest.isEdit]
  · intro request attempt hi hedit hp hwire
    have hrec := h.recovering
    unfold Recovering at hrec
    cases attempt with
    | first previous =>
      refine absurd ?_ (h.interrupted hi)
      rcases hp with hp | hp
      · exact Or.inl ⟨request, Or.inr ⟨previous, hp⟩⟩
      · exact Or.inr ⟨request, previous, hp⟩
    | again => rcases hp with hp | hp <;> simp [hp, hedit] at hrec
    | query => cases request <;> simp_all [Attempt.wire, InjectorRequest.isEdit]

/-- The log grows when a request is handed over, and only then. -/
theorem step_log {s t : Dispatcher} {e : Event} (hs : s.step e = some t) :
    (t.log = s.log ∧ ∀ request, e ≠ .submit request) ∨
      ∃ request, e = .submit request ∧ s.phase = .idle ∧ t.log = s.log ++ [request] ∧
        t.phase.request? = some request ∧ t.windows = s.windows ∧ t.origin = s.origin := by
  cases step_does hs with
  | submit request hp =>
    refine Or.inr ⟨request, rfl, hp, rfl, ?_, rfl, rfl⟩
    cases s.client <;> rfl
  | connect request hacc hp => exact Or.inl ⟨rfl, by simp⟩
  | reconnect request previous attempt hacc hp ha => exact Or.inl ⟨rfl, by simp⟩
  | giveUp request previous hacc hp => exact Or.inl ⟨rfl, by simp⟩
  | connectFails request hp => exact Or.inl ⟨rfl, by simp⟩
  | write request attempt desktop w hp hl hw => exact Or.inl ⟨rfl, by simp⟩
  | writeFails request attempt hp =>
    exact Or.inl ⟨(failed_frame { s with result := none } request attempt).2.2.1, by simp⟩
  | readFails request attempt hp =>
    exact Or.inl ⟨(failed_frame { s with result := none } request attempt).2.2.1, by simp⟩
  | read request attempt response hp hr hq => exact Or.inl ⟨rfl, by simp⟩
  | reconcile request response hp hr =>
    rcases reconcile_cases { s with result := none, response := none } request response with
      ⟨result, heq⟩ | heq
    · exact Or.inl ⟨by rw [heq]; rfl, by simp⟩
    · exact Or.inl ⟨by rw [heq], by simp⟩
  | windows event w hne hpipe hrestart hw => exact Or.inl ⟨rfl, by simp⟩
  | pipeLost w hserving hl hw => exact Or.inl ⟨rfl, by simp⟩
  | restart w hw => exact Or.inl ⟨rfl, by simp⟩
  | repair hp hacc => exact Or.inl ⟨rfl, by simp⟩

/-- The request under way is the last one of the log. -/
theorem step_logged {s t : Dispatcher} {e : Event} (hs : s.step e = some t)
    (h : ∀ request, s.phase.request? = some request → s.log.getLast? = some request)
    {request : InjectorRequest} (hp : t.phase.request? = some request) :
    t.log.getLast? = some request := by
  rcases step_log hs with ⟨hlog, hne⟩ | ⟨r, -, -, hlog, hr, -⟩
  · rcases step_request hs with hidle | ⟨hsame, -⟩ | ⟨r, rfl, -⟩
    · simp [hidle, Phase.request?] at hp
    · rw [hlog]
      exact h request (hsame.symm.trans hp)
    · exact absurd rfl (hne r)
  · rw [hr] at hp
    obtain rfl := Option.some.inj hp
    simp [hlog]

/-- Where the first exchange of a request comes from: it has just been handed over, or
it was in its first exchange before and nothing has failed. -/
theorem step_trying {s t : Dispatcher} {e : Event} (hs : s.step e = some t)
    (ht : Trying t.phase) : (∃ request, e = .submit request) ∨
      (Trying s.phase ∧ e ≠ .writeFails ∧ e ≠ .readFails ∧
        (Untried t.phase → Untried s.phase ∧ t.origin = s.origin)) := by
  have hidle : ¬ Trying .idle := by simp [Trying, Untried]
  have hfailed : ∀ request attempt,
      ¬ Trying (failed { s with result := none } request attempt).phase := by
    intro request attempt
    cases attempt <;> simp [failed, finish, Trying, Untried]
  cases step_does hs with
  | submit request hp => exact Or.inl ⟨request, rfl⟩
  | connect request hacc hp =>
    have huntried : Untried s.phase := ⟨request, Or.inl hp⟩
    exact Or.inr ⟨Or.inl huntried, by simp, by simp, fun _ => ⟨huntried, rfl⟩⟩
  | reconnect request previous attempt hacc hp ha =>
    rcases reconcileAttempt_cases ha with ⟨rfl, -⟩ | ⟨rfl, -⟩ <;> simp [Trying, Untried] at ht
  | giveUp request previous hacc hp => exact absurd ht hidle
  | connectFails request hp => exact absurd ht hidle
  | write request attempt desktop w hp hl hw =>
    obtain ⟨r, hr⟩ | ⟨r, previous, hr⟩ := ht
    · simp at hr
    · obtain ⟨rfl, rfl⟩ := Phase.receive.inj hr
      refine Or.inr ⟨Or.inl ⟨_, Or.inr ⟨previous, hp⟩⟩, by simp, by simp, ?_⟩
      rintro ⟨r, hr⟩
      simp at hr
  | writeFails request attempt hp => exact absurd ht (hfailed request attempt)
  | readFails request attempt hp => exact absurd ht (hfailed request attempt)
  | read request attempt response hp hr hq => exact absurd ht hidle
  | reconcile request response hp hr =>
    rcases reconcile_cases { s with result := none, response := none } request response with
      ⟨result, heq⟩ | heq
    · rw [heq] at ht
      exact absurd ht hidle
    · rw [heq] at ht
      simp [Trying, Untried] at ht
  | windows event w hne hpipe hrestart hw =>
    exact Or.inr ⟨ht, by simp, by simp, fun hu => ⟨hu, rfl⟩⟩
  | pipeLost w hserving hl hw => exact Or.inr ⟨ht, by simp, by simp, fun hu => ⟨hu, rfl⟩⟩
  | restart w hw => exact Or.inr ⟨ht, by simp, by simp, fun hu => ⟨hu, rfl⟩⟩
  | repair hp hacc => exact Or.inr ⟨ht, by simp, by simp, fun hu => ⟨hu, rfl⟩⟩

/-- A response is returned when it is read. -/
theorem step_ok {s t : Dispatcher} {e : Event} (hs : s.step e = some t)
    {response : InjectorResponse} (hr : t.result = some (.ok response)) :
    e = .read ∧ ∃ request attempt state, s.phase = .receive request attempt ∧
      s.response = some state ∧ (attempt = .query →
        t = reconcile { s with result := none, response := none } request state) := by
  have hfailed : ∀ request attempt,
      (failed { s with result := none } request attempt).result ≠ some (.ok response) := by
    intro request attempt
    cases attempt <;> simp [failed, finish]
  cases step_does hs with
  | submit request hp => simp at hr
  | connect request hacc hp => simp [link] at hr
  | reconnect request previous attempt hacc hp ha => simp [link] at hr
  | giveUp request previous hacc hp => simp [finish] at hr
  | connectFails request hp => simp [finish] at hr
  | write request attempt desktop w hp hl hw => simp at hr
  | writeFails request attempt hp => exact absurd hr (hfailed request attempt)
  | readFails request attempt hp => exact absurd hr (hfailed request attempt)
  | read request attempt state hp hstate hq =>
    exact ⟨rfl, request, attempt, state, hp, hstate, fun h => absurd h hq⟩
  | reconcile request state hp hstate =>
    exact ⟨rfl, request, .query, state, hp, hstate, fun _ => rfl⟩
  | windows event w hne hpipe hrestart hw => simp at hr
  | pipeLost w hserving hl hw => simp at hr
  | restart w hw => simp at hr
  | repair hp hacc => simp [link] at hr

theorem Inv.tags {s : RecoveryRun} (h : s.Inv) {w : Windows} {event : Windows.Event}
    (hw : s.dispatcher.windows.step event = some w) :
    (∀ u p, w.Unexecuted u p → p.request ≤ w.requests) ∧
      ∀ p ∈ (s.dispatcher.windows.running event).toList ++ s.executed, p.request ≤ w.requests := by
  have hle := Windows.step_requests_le hw
  refine ⟨?_, ?_⟩
  · intro u p hp
    rcases Windows.step_unexecuted hw hp with hp | ⟨_, _, -, hreq, -⟩
    · exact (h.due_le u p hp).trans hle
    · exact hreq.le
  · intro p hp
    rcases List.mem_append.mp hp with hp | hp
    · obtain ⟨tip, env, hruns⟩ := Windows.runs_of_running (by simpa using hp)
      exact (h.due_le tip p hruns.unexecuted).trans hle
    · exact (h.executed_le p hp).trans hle

/-- An event of the injector's own sends no edit. -/
theorem Inv.editOnce_event {s : RecoveryRun} (h : s.Inv) {w : Windows} {event : Windows.Event}
    (hw : s.dispatcher.windows.step event = some w)
    (hne : ∀ request desktop, event ≠ .request request desktop) (n : Nat) :
    w.EditOnce ((s.dispatcher.windows.running event).toList ++ s.executed)
      fun k => s.dispatcher.origin k = some n := by
  refine (h.once n).step h.shape hw ?_
  intro request desktop he
  exact absurd he (hne request desktop)

theorem Inv.editOnce_write {s : RecoveryRun} (h : s.Inv) {request : InjectorRequest}
    {attempt : Attempt} {desktop : Desktop} {w : Windows}
    (hp : s.dispatcher.phase = .send request attempt)
    (hw : s.dispatcher.windows.step (.request (attempt.wire request) desktop) = some w) (n : Nat) :
    w.EditOnce s.executed fun k => Function.update s.dispatcher.origin w.requests
      (some (s.dispatcher.log.length - 1)) k = some n := by
  have hreq : w.requests = s.dispatcher.windows.requests + 1 := by
    obtain ⟨-, heq⟩ := Windows.stepRequest_some hw
    rw [heq]
    simp
  have hstable : ∀ k, k ≤ s.dispatcher.windows.requests →
      Function.update s.dispatcher.origin w.requests (some (s.dispatcher.log.length - 1)) k =
        s.dispatcher.origin k := by
    intro k hk
    rw [Function.update_of_ne]
    omega
  have hold : s.dispatcher.windows.EditOnce s.executed fun k =>
      Function.update s.dispatcher.origin w.requests (some (s.dispatcher.log.length - 1)) k =
        some n := by
    refine (h.once n).congr ?_ ?_
    · intro u p hp
      rw [hstable _ (h.due_le u p hp)]
    · intro p hp
      rw [hstable _ (h.executed_le p hp)]
  refine hold.step h.shape hw ?_
  intro request' desktop' he hedit hQ
  obtain ⟨rfl, -⟩ := Windows.Event.request.inj he
  have hn : s.dispatcher.log.length - 1 = n := by simpa using hQ
  have hrec := h.recovering
  simp only [Dispatcher.Recovering, hp] at hrec
  cases attempt with
  | first previous =>
    -- nothing has been sent for this number yet
    have hnone := h.untried ⟨request, Or.inr ⟨previous, hp⟩⟩
    rw [hn] at hnone
    refine ⟨?_, ?_⟩
    · intro u p hdue
      rw [hstable _ (h.due_le u p hdue)]
      exact hnone _
    · intro p hmem
      rw [hstable _ (h.executed_le p hmem)]
      exact hnone _
  | again => simp [Attempt.wire, hrec] at hedit
  | query => cases request <;> simp_all [Attempt.wire, InjectorRequest.isEdit]

/-- After a failure no exchange is a first one. -/
theorem Inv.not_trying {s : RecoveryRun} (h : s.Inv) {d : Dispatcher} {e : Event}
    (hd : s.dispatcher.step e = some d) (hi : s.interruptedBy e = true) : ¬ Trying d.phase := by
  intro htry
  rcases step_trying hd htry with ⟨request, rfl⟩ | ⟨hold, hwrite, hread, -⟩
  · simp [interruptedBy] at hi
  · refine h.interrupted ?_ hold
    cases e with
    | writeFails => exact absurd rfl hwrite
    | readFails => exact absurd rfl hread
    | submit request => simp [interruptedBy] at hi
    | _ => exact hi

/-- A request for an edit that was interrupted ends with a failure. -/
theorem Inv.not_ok {s : RecoveryRun} (h : s.Inv) {d : Dispatcher} {e : Event}
    (hd : s.dispatcher.step e = some d) (hi : s.interruptedBy e = true)
    {request : InjectorRequest} (hlog : d.log.getLast? = some request)
    (hedit : request.isEdit = true) (response : InjectorResponse) :
    d.result ≠ some (.ok response) := by
  intro hr
  obtain ⟨rfl, request', attempt, state, hp, hstate, hquery⟩ := step_ok hd hr
  have hlast := h.logged request' (by simp [hp, Phase.request?])
  rcases step_log hd with ⟨hlog', -⟩ | ⟨r, he, -⟩
  · rw [hlog', hlast] at hlog
    obtain rfl := Option.some.inj hlog
    have hrec := h.recovering
    simp only [Recovering, hp] at hrec
    cases attempt with
    | first previous => exact h.interrupted hi (Or.inr ⟨request', previous, hp⟩)
    | again => simp [hedit] at hrec
    | query =>
      -- the session was gone, and that is no answer
      rw [hstate] at hrec
      obtain rfl := Option.some.inj hrec.2
      rw [hquery rfl, reconcile_missing] at hr
      simp [Dispatcher.finish] at hr
  · simp at he

/-- A request that no exchange has been tried for has no number yet. -/
theorem Inv.step_untried {s : RecoveryRun} (h : s.Inv) {d : Dispatcher} {e : Event}
    (hd : s.dispatcher.step e = some d) (hu : Untried d.phase) (k : Nat) :
    d.origin k ≠ some (d.log.length - 1) := by
  rcases step_log hd with ⟨hlog, hne⟩ | ⟨request, -, -, hlog, -, -, ho⟩
  · rcases step_trying hd (Or.inl hu) with ⟨request, rfl⟩ | ⟨-, -, -, hold⟩
    · exact absurd rfl (hne request)
    · rw [(hold hu).2, hlog]
      exact h.untried (hold hu).1 k
  · rw [ho, hlog]
    intro hk
    have := h.origin_lt k _ hk
    simp at this

theorem Inv.numbered_event {s : RecoveryRun} (h : s.Inv) {d : Dispatcher} {event : Windows.Event}
    (hw : s.dispatcher.windows.step event = some d.windows) (ho : d.origin = s.dispatcher.origin)
    (hlog : d.log = s.dispatcher.log)
    (hne : ∀ request desktop, event ≠ .request request desktop) :
    Numbered d ((s.dispatcher.windows.running event).toList ++ s.executed) := by
  refine ⟨Windows.step_shape h.shape hw, ?_, ?_, (h.tags hw).1, (h.tags hw).2, ?_⟩
  · rw [ho, hlog]
    exact h.origin_lt
  · rw [ho]
    exact fun k n hk => (h.origin_le k n hk).trans (Windows.step_requests_le hw)
  · rw [ho]
    exact h.editOnce_event hw hne

theorem Inv.step_numbered {s : RecoveryRun} (h : s.Inv) {d : Dispatcher} {e : Event}
    (hd : s.dispatcher.step e = some d) : Numbered d (s.executedBy e) := by
  by_cases he : ∃ event, e = .windows event
  · obtain ⟨event, rfl⟩ := he
    cases step_does hd with
    | windows event w hne hpipe hrestart hw => exact h.numbered_event hw rfl rfl hne
  · have hexecuted : s.executedBy e = s.executed := by
      cases e with
      | windows event => exact absurd ⟨event, rfl⟩ he
      | _ => rfl
    rw [hexecuted]
    rcases step_windows hd with ⟨hw, ho, hlog⟩ |
      ⟨request, attempt, desktop, hphase, hw, hlog, ho⟩ | ⟨event, hw, ho, hlog, hne, hevent⟩
    · have hlen : s.dispatcher.log.length ≤ d.log.length := by
        rcases hlog with heq | ⟨request, heq⟩ <;> simp [heq]
      refine ⟨hw ▸ h.shape, ?_, ?_, hw ▸ h.due_le, hw ▸ h.executed_le, ?_⟩
      · rw [ho]
        exact fun k n hk => (h.origin_lt k n hk).trans_le hlen
      · rw [ho, hw]
        exact h.origin_le
      · rw [ho, hw]
        exact h.once
    · have hreq := Windows.step_requests_le hw
      have hpos : 0 < s.dispatcher.log.length := by
        have hlast := h.logged request (by simp [hphase, Phase.request?])
        exact List.length_pos_of_ne_nil (by rintro hnil; simp [hnil] at hlast)
      refine ⟨Windows.step_shape h.shape hw, ?_, ?_, (h.tags hw).1, (h.tags hw).2, ?_⟩
      · intro k n hk
        rw [ho, Function.update_apply] at hk
        rw [hlog]
        split at hk
        · obtain rfl : _ = n := by simpa using hk
          omega
        · exact h.origin_lt k n hk
      · intro k n hk
        rw [ho, Function.update_apply] at hk
        split at hk
        · omega
        · exact (h.origin_le k n hk).trans hreq
      · rw [ho]
        exact h.editOnce_write hphase hw
    · rcases hevent with rfl | rfl | rfl
      · exact absurd ⟨event, rfl⟩ he
      · exact h.numbered_event hw ho hlog hne
      · exact h.numbered_event hw ho hlog hne

theorem step_inv {s t : RecoveryRun} {e : Event} (h : s.Inv) (hs : s.step e = some t) : t.Inv := by
  obtain ⟨d, hd, rfl⟩ := Option.map_eq_some_iff.mp hs
  exact {
    toNumbered := h.step_numbered hd
    serve := step_serveInv h.serve hd
    recovering := step_recovering h.serve h.recovering hd
    logged := fun request hp => step_logged hd h.logged hp
    untried := fun hu k => h.step_untried hd hu k
    interrupted := fun hi => h.not_trying hd hi
    failed := fun hi request hlog hedit response => h.not_ok hd hi hlog hedit response }

theorem inv_initial : Inv {} := by
  have hdue : ∀ t p, ¬ Windows.Unexecuted {} t p := by
    rintro t p (⟨c, hc, -⟩ | hd)
    · simp [Windows.client] at hc
    · simp at hd
  have hnumbered : Numbered {} [] := by
    refine ⟨Windows.shape_initial, by simp, by simp, ?_, by simp, ?_⟩
    · exact fun t p hp => absurd hp (hdue t p)
    · exact fun n => .of_unused (fun t p hp => absurd hp (hdue t p)) (by simp)
  refine ⟨hnumbered, serveInv_initial, trivial, by simp [Phase.request?], ?_, by simp, by simp⟩
  rintro ⟨request, hp | ⟨previous, hp⟩⟩ <;> simp at hp

/-- In every run an interrupted request is answered soundly: with what the injector
holds, after a repetition only where the injector lacked it, and with at most one edit. -/
theorem reconciliation_sound (es : List Event) : Always step Sound {} es :=
  always_of_invariant Inv es inv_initial (fun _ h => h.sound) fun _ _ _ h hs => step_inv h hs

end RecoveryRun

end FlowType
