import FlowType.Lockstep

/-! The sequence numbers of a session at the injector and at its text service:
both move on together, and a snapshot is decided as `AppliedState` classifies it. -/
namespace FlowType

open Machine

/-- `AppliedState` of the core crate. -/
structure AppliedState where
  sequence : Int
  text : String
  finished : Bool
  deriving DecidableEq, Repr

inductive IncomingDisposition
  | apply | duplicate | stale | conflict | finished
  deriving DecidableEq, Repr

def AppliedState.classify (s : AppliedState) (sequence : Int) (text : String) :
    IncomingDisposition :=
  if s.finished then .finished
  else if sequence < s.sequence then .stale
  else if sequence = s.sequence then
    if text = s.text then .duplicate else .conflict
  else .apply

namespace AppliedState
variable (m n : Int) (old text : String)

theorem classify_apply : (⟨m, old, false⟩ : AppliedState).classify n text = .apply ↔ m < n := by
  simp only [classify, Bool.false_eq_true, if_false]
  split_ifs with h₁ h₂ h₃ <;> simp <;> omega

theorem classify_known : (⟨m, old, false⟩ : AppliedState).classify n text = .duplicate ∨
    (⟨m, old, false⟩ : AppliedState).classify n text = .stale ↔
      n < m ∨ (n = m ∧ text = old) := by
  simp only [classify, Bool.false_eq_true, if_false]
  split_ifs with h₁ h₂ h₃
  · simp [h₁]
  · simp [h₂, h₃]
  · simp [h₂, h₃]
  · simp [h₁, h₂]

theorem classify_conflict : (⟨m, old, false⟩ : AppliedState).classify n text = .conflict ↔
    n = m ∧ text ≠ old := by
  simp only [classify, Bool.false_eq_true, if_false]
  split_ifs with h₁ h₂ h₃
  · simp
    omega
  · simp [h₂, h₃]
  · simp [h₂, h₃]
  · simp [h₂]

end AppliedState

/-- The state of a session as far as the injector knows it. -/
def Injector.appliedState (s : Injector) (id : String) : Option AppliedState :=
  match s.completed.filter fun finished => decide (finished.id = id) with
  | some finished => some ⟨finished.sequence, finished.text, true⟩
  | none => (s.session.filter fun active => decide (active.id = id)).map fun active =>
    ⟨active.sequence, active.text, false⟩

def Newer (n : Int) (text : String) (n' : Int) (text' : String) : Prop :=
  (n' = n ∧ text' = text) ∨ n < n'

def Composition.Kept (c c' : Composition) : Prop :=
  c'.sessionId = none ∨ (c'.sessionId = c.sessionId ∧ c'.sequence = c.sequence ∧ c'.text = c.text)

theorem Composition.Kept.refl (c : Composition) : c.Kept c := Or.inr ⟨rfl, rfl, rfl⟩

theorem Composition.Kept.trans {c₁ c₂ c₃ : Composition} (h₁ : c₁.Kept c₂) (h₂ : c₂.Kept c₃) :
    c₁.Kept c₃ := by
  rcases h₂ with h | ⟨hid, hn, htext⟩
  · exact Or.inl h
  · rcases h₁ with h | ⟨hid', hn', htext'⟩
    · exact Or.inl (hid.trans h)
    · exact Or.inr ⟨hid.trans hid', hn.trans hn', htext.trans htext'⟩

theorem Composition.cancel_kept (c : Composition) (id : String) :
    c.Kept (c.cancel id).composition := by
  unfold cancel
  split_ifs
  · exact .refl _
  · exact Or.inl rfl

theorem Composition.handleCommand_newer (c : Composition) (env : EditEnv) (command : TipCommand)
    {id : String} (h : c.sessionId = some id)
    (h' : (c.handleCommand env command).composition.sessionId = some id) :
    Newer c.sequence c.text (c.handleCommand env command).composition.sequence
      (c.handleCommand env command).composition.text := by
  cases command with
  | begin id' n text attach =>
    refine Or.inl ?_
    simp only [handleCommand, begin, h] at h' ⊢
    split_ifs at h' ⊢ <;> simp_all
  | update id' n text =>
    simp only [handleCommand, update]
    split_ifs with h1 h2 h3 h4 h5 h6
    · exact Or.inl ⟨rfl, rfl⟩
    · exact Or.inl ⟨rfl, rfl⟩
    · exact Or.inl ⟨rfl, rfl⟩
    · exact Or.inl ⟨rfl, rfl⟩
    · exact Or.inl ⟨rfl, rfl⟩
    · exact Or.inl ⟨rfl, rfl⟩
    · cases env.edit with
      | done =>
        have hlt : c.sequence < n := by omega
        exact Or.inr hlt
      | failed wrote modified => exact Or.inl ⟨rfl, rfl⟩
  | finish id' n =>
    simp only [handleCommand, finish] at h' ⊢
    split_ifs at h' ⊢
    · exact Or.inl ⟨rfl, rfl⟩
    · exact Or.inl ⟨rfl, rfl⟩
    · cases he : env.edit with
      | done => simp [he] at h'
      | failed wrote modified => exact Or.inl ⟨rfl, rfl⟩
  | cancel id' =>
    simp only [handleCommand, cancel] at h' ⊢
    split_ifs at h' ⊢
    · exact Or.inl ⟨rfl, rfl⟩
  | query id' =>
    refine Or.inl ?_
    simp only [handleCommand, query]
    split_ifs <;> exact ⟨rfl, rfl⟩

namespace Injector

/-- A session that is still there has the snapshot it had or a newer one. -/
def Advances (s t : Injector) : Prop :=
  ∀ a a', s.session = some a → t.session = some a' →
    Newer a.sequence a.text a'.sequence a'.text

theorem Advances.of_eq {s t : Injector} (h : t.session = s.session) : s.Advances t := by
  intro a a' ha ha'
  obtain rfl : a = a' := by
    rw [h, ha] at ha'
    exact Option.some.inj ha'
  exact Or.inl ⟨rfl, rfl⟩

theorem Advances.of_none {s t : Injector} (h : t.session = none) : s.Advances t := by
  intro a a' _ ha'
  simp [h] at ha'

theorem Move.advances {s : Injector} {r : Injector × Next} (h : Move s r) : s.Advances r.1 := by
  cases h with
  | reply response => exact .of_eq rfl
  | accept hs => exact .of_eq rfl
  | cancel after hs => exact .of_none rfl
  | update n text hs hlt => exact .of_eq rfl
  | finish hs => exact .of_eq rfl
  | query hs => exact .of_eq rfl
  | select call hs => exact .of_eq rfl

theorem resume_advances (s : Injector) (input : InputMonitor) (key : TipKey)
    (command : TipCommand) (wait : Wait) (answer : Option TipResponse)
    (h : s.WaitFits key command wait) : s.Advances (s.resume input key wait answer).1 := by
  cases wait with
  | cancel after => exact (s.afterCancel_move h.1 after).advances
  | begin call rest rejected =>
    intro a a' ha
    simp [h.2] at ha
  | update id n text =>
    obtain ⟨-, a, ha, -, -, hlt⟩ := h
    simp only [resume, ha]
    rcases s.resumeUpdate_cases ha id n text answer with
      ⟨-, hr⟩ | ⟨m, -, -, hr⟩ | ⟨-, hr⟩ | ⟨response, -, hr⟩
    · rw [hr]
      rintro b b' hb ⟨⟩
      obtain rfl : a = b := by simpa [ha] using hb
      exact Or.inr hlt
    · rw [hr]
      exact .of_eq rfl
    · rw [hr]
      exact .of_eq rfl
    · rw [hr]
      exact .of_none rfl
  | finish id n =>
    obtain ⟨-, a, ha, -⟩ := h
    simp only [resume, ha]
    rcases s.resumeFinish_cases ha id n answer with ⟨-, hr⟩ | ⟨response, -, hr⟩
    · rw [hr]
      exact .of_none rfl
    · rw [hr]
      exact .of_none rfl
  | query id inputEpoch n text =>
    exact (s.resumeQuery_move input id inputEpoch n text answer).advances

theorem appliedState_some {s : Injector} {id : String} {state : AppliedState}
    (h : s.appliedState id = some state) :
    (∃ f, s.completed.filter (fun finished => decide (finished.id = id)) = some f ∧
      state = ⟨f.sequence, f.text, true⟩) ∨
    ∃ a, s.completed.filter (fun finished => decide (finished.id = id)) = none ∧
      s.session = some a ∧ a.id = id ∧ state = ⟨a.sequence, a.text, false⟩ := by
  unfold appliedState at h
  split at h
  · rename_i f hf
    exact Or.inl ⟨f, hf, (Option.some.inj h).symm⟩
  · rename_i hf
    obtain ⟨a, ha, rfl⟩ := Option.map_eq_some_iff.mp h
    obtain ⟨hs, hid⟩ := filter_id_some ha
    exact Or.inr ⟨a, hf, hs, hid, rfl⟩

/-- The state of a session that is not finished is the one of the active session. -/
theorem active_of_open {s : Injector} {id : String} {state : AppliedState}
    (h : s.appliedState id = some state) (hc : state.finished = false) :
    ∃ a, s.completed.filter (fun finished => decide (finished.id = a.id)) = none ∧
      s.session = some a ∧ a.id = id ∧ state = ⟨a.sequence, a.text, false⟩ := by
  rcases appliedState_some h with ⟨f, -, rfl⟩ | ⟨a, hf, ha, rfl, rfl⟩
  · simp at hc
  · exact ⟨a, hf, ha, rfl, rfl⟩

/-- A snapshot of the active session goes to `apply_state`. -/
theorem handleRequest_apply {s : Injector} {a : ActiveSession} (desktop : Desktop)
    (input : InputMonitor) (n : Int) (text : String)
    (hf : s.completed.filter (fun finished => decide (finished.id = a.id)) = none)
    (ha : s.session = some a) :
    s.handleRequest desktop input (.applyState a.id n text) =
      if desktop.targetValid = false then (s, .reply .targetInvalid)
      else if a.inputEpoch ≠ input.epoch then s.endFailedSession (.reply .targetModified)
      else if desktop.targetForeground = false then
        (s, .reply (.targetNotForeground a.target.title))
      else if n < a.sequence then (s, .reply (.applied a.sequence))
      else if n = a.sequence then
        if text = a.text then (s, .reply (.applied n))
        else s.endFailedSession (.reply .invalidRequest)
      else (s, .call a.tip (.update a.id n text) (.update a.id n text)) := by
  simp only [handleRequest, completedApplyResponse, hf, Option.map_none, applyState, ha]
  simp [Option.filter]

/-- Without a newer snapshot a request answers at once or gives the session up;
with a conflicting one it never answers that it was applied. -/
theorem handleRequest_decided {s : Injector} {id : String} {state : AppliedState} {n : Int}
    {text : String} (desktop : Desktop) (input : InputMonitor)
    (h : s.appliedState id = some state) (hc : state.classify n text ≠ .apply) :
    ∃ response, (state.classify n text = .conflict → ∀ m, response ≠ .applied m) ∧
      (s.handleRequest desktop input (.applyState id n text) = (s, .reply response) ∨
        ∃ a, s.session = some a ∧ s.handleRequest desktop input (.applyState id n text) =
          ({ s with session := none }, .call a.tip (.cancel a.id) (.cancel (.reply response)))) := by
  rcases appliedState_some h with ⟨f, hf, rfl⟩ | ⟨a, hf, ha, rfl, rfl⟩
  · refine ⟨if f.sequence = n ∧ f.text = text then .finished n else .invalidRequest, ?_, ?_⟩
    · intro hconf
      simp [AppliedState.classify] at hconf
    · refine Or.inl ?_
      simp [handleRequest, completedApplyResponse, hf]
  · have hend : ∀ response, s.endFailedSession (.reply response) =
        ({ s with session := none }, .call a.tip (.cancel a.id) (.cancel (.reply response))) := by
      intro response
      simp [endFailedSession, ha]
    rw [handleRequest_apply desktop input n text hf ha]
    by_cases hvalid : desktop.targetValid = false
    · rw [if_pos hvalid]
      exact ⟨_, by simp, Or.inl rfl⟩
    by_cases hepoch : a.inputEpoch ≠ input.epoch
    · rw [if_neg hvalid, if_pos hepoch, hend]
      exact ⟨_, by simp, Or.inr ⟨a, ha, rfl⟩⟩
    by_cases hfore : desktop.targetForeground = false
    · rw [if_neg hvalid, if_neg hepoch, if_pos hfore]
      exact ⟨_, by simp, Or.inl rfl⟩
    rw [if_neg hvalid, if_neg hepoch, if_neg hfore]
    by_cases hlt : n < a.sequence
    · rw [if_pos hlt]
      exact ⟨_, by simp [AppliedState.classify, hlt], Or.inl rfl⟩
    by_cases heq : n = a.sequence
    · rw [if_neg hlt, if_pos heq]
      by_cases htext : text = a.text
      · rw [if_pos htext]
        exact ⟨_, by simp [AppliedState.classify, heq, htext], Or.inl rfl⟩
      · rw [if_neg htext, hend]
        exact ⟨_, by simp, Or.inr ⟨a, ha, rfl⟩⟩
    · exact absurd (by simp [AppliedState.classify, hlt, heq]) hc

end Injector

namespace Windows

/-- The text service of the active session holds the same snapshot, unless its
answer to the command of the injector is still on its way. -/
def InStep (s : Windows) : Prop :=
  ∀ a, s.injector.session = some a →
    (∀ c, s.client a.tip.id = some c → ∀ p ∈ c.queue, p.answer = none) →
    (s.hosts a.tip.id).composition.Holds a.id a.sequence a.text

theorem Lockstep.inStep {s : Windows} (h : s.Lockstep) : s.InStep := by
  intro a ha hanswer
  by_cases hn : ∀ key command token wait, s.waiting ≠ some (.call key command token wait)
  · exact (h.idle hn).holds a ha
  · push Not at hn
    obtain ⟨key, command, token, wait, hw⟩ := hn
    have hfits := h.fits _ hw
    obtain rfl := Injector.WaitFits.tip hfits ha
    obtain ⟨p, hc, -, -, hfit⟩ := (h.called _ _ _ _ hw).queue
    rw [hanswer _ hc p List.mem_cons_self] at hfit
    cases wait with
    | cancel after => simp [hfits.1] at ha
    | begin call rest rejected => simp [hfits.2] at ha
    | update id n text =>
      simp only [CallFits, reduceCtorEq, if_false] at hfit
      exact hfit.1 a ha
    | finish id n =>
      simp only [CallFits, reduceCtorEq, if_false] at hfit
      exact hfit a ha
    | query id inputEpoch n text => exact hfit a ha

/-- Injector and text services change a text only with a higher sequence number. -/
def Advances (s t : Windows) : Prop :=
  s.injector.Advances t.injector ∧
  ∀ u id, (s.hosts u).composition.sessionId = some id →
    (t.hosts u).composition.sessionId = some id →
    Newer (s.hosts u).composition.sequence (s.hosts u).composition.text
      (t.hosts u).composition.sequence (t.hosts u).composition.text

theorem advances_of_hosts {s t : Windows} (hi : s.injector.Advances t.injector)
    (hh : ∀ u, (s.hosts u).composition.Kept (t.hosts u).composition) : s.Advances t := by
  refine ⟨hi, ?_⟩
  intro u id _ hu'
  rcases hh u with hn | ⟨-, hn, htext⟩
  · simp [hn] at hu'
  · exact Or.inl ⟨hn, htext⟩

theorem perform_kept (s : Windows) (r : Injector × Next) (u : TipId) :
    (s.hosts u).composition.Kept ((s.perform r).hosts u).composition := by
  rw [(perform_host s r u).1]
  exact .refl _

theorem setHost_kept (s : Windows) (tip : TipId) (host : Host)
    (h : (s.hosts tip).composition.Kept host.composition) (u : TipId) :
    (s.hosts u).composition.Kept ((s.setHost tip host).hosts u).composition := by
  by_cases hu : u = tip
  · subst hu
    rw [setHost_self]
    exact h
  · rw [setHost_of_ne s _ _ hu]
    exact .refl _

theorem step_advances {s t : Windows} {e : Event} (h : s.Lockstep) (he : e.isTimely = true)
    (hs : s.step e = some t) : s.Advances t := by
  cases e with
  | request request desktop =>
    obtain ⟨-, rfl⟩ := stepRequest_some hs
    refine advances_of_hosts ?_ (perform_kept _ _)
    rw [perform_injector]
    exact (s.injector.handleRequest_move desktop s.input request).advances
  | select candidates =>
    obtain ⟨call, rejected, tried, -, -, rfl⟩ := stepSelect_some hs
    refine advances_of_hosts ?_ (perform_kept _ _)
    rw [perform_injector]
    exact .of_eq rfl
  | expire =>
    obtain ⟨call, rejected, -, rfl⟩ := stepExpire_some hs
    refine advances_of_hosts ?_ (perform_kept _ _)
    rw [perform_injector]
    exact .of_eq rfl
  | execute tip env =>
    obtain ⟨g, p, rest, -, -, rfl⟩ := stepExecute_some hs
    refine ⟨.of_eq rfl, ?_⟩
    intro u id hu hu'
    by_cases hut : u = tip
    · subst hut
      rw [runCommand_self] at hu' ⊢
      exact Composition.handleCommand_newer _ env p.command hu hu'
    · rw [runCommand_of_ne _ _ _ _ _ hut]
      exact Or.inl ⟨rfl, rfl⟩
  | deliver tip =>
    obtain ⟨g, p, rest, answer, hc, -, ⟨key, command, wait, hw, rfl⟩ | ⟨-, rfl⟩⟩ :=
      stepDeliver_some hs
    · refine advances_of_hosts ?_ ?_
      · rw [perform_injector]
        exact s.injector.resume_advances s.input key command wait _ (h.fits _ hw)
      · intro u
        rw [(perform_host _ _ u).1]
        refine setHost_kept { s with reply := none } tip _ ?_ u
        exact .refl _
    · exact advances_of_hosts (.of_eq rfl) (setHost_kept { s with reply := none } tip _ (.refl _))
  | connect tip =>
    obtain ⟨-, -, rfl⟩ := stepConnect_some hs
    exact advances_of_hosts (.of_eq rfl) (setHost_kept { s with reply := none } tip _ (.refl _))
  | externalEdit tip =>
    obtain rfl := step_externalEdit_some hs
    exact advances_of_hosts (.of_eq rfl)
      (setHost_kept { s with reply := none } tip _ (Or.inr ⟨rfl, rfl, rfl⟩))
  | physicalInput isReturn =>
    obtain rfl : _ = t := by simpa [step] using hs
    exact advances_of_hosts (.of_eq rfl) (fun _ => .refl _)
  | giveUp => simp [Event.isTimely] at he
  | disconnect tip => simp [Event.isTimely] at he
  | executeDetached tip env => simp [Event.isTimely] at he
  | dropDetached tip => simp [Event.isTimely] at he
  | deactivate tip => simp [Event.isTimely] at he
  | pipeLost => simp [Event.isTimely] at he
  | restart => simp [Event.isTimely] at he

def Event.follows : Event → Bool
  | .request _ _ => false
  | e => e.isTimely

/-- A request on its way to its answer, without any edit: the state `t` after a
request that was made in the state `s`. -/
structure Concluding (s : Windows) (i : Injector) (response : InjectorResponse) (t : Windows) :
    Prop where
  lockstep : t.Lockstep
  waiting : t.waiting = none ∨ ∃ key id token,
    t.waiting = some (.call key (.cancel id) token (.cancel (.reply response)))
  injector : t.injector = i
  written : t.written = s.written
  reply : t.reply = none ∨ t.reply = some response
  kept : ∀ u, (s.hosts u).composition.Kept (t.hosts u).composition

theorem Concluding.step {s t t' : Windows} {i : Injector} {response : InjectorResponse} {e : Event}
    (h : Concluding s i response t) (he : e.follows = true) (hs : t.step e = some t') :
    Concluding s i response t' := by
  have htimely : e.isTimely = true := by
    cases e <;> simp_all [Event.follows, Event.isTimely]
  have hlock := step_lockstep h.lockstep htimely hs
  -- the events that leave the call under way alone
  have hidle : t'.waiting = t.waiting → t'.injector = t.injector → t'.written = t.written →
      t'.reply = none → (∀ u, (t.hosts u).composition.Kept (t'.hosts u).composition) →
      Concluding s i response t' := by
    intro hw hi hwr hr hk
    exact ⟨hlock, hw ▸ h.waiting, hi.trans h.injector, hwr.trans h.written, Or.inl hr,
      fun u => (h.kept u).trans (hk u)⟩
  cases e with
  | request request desktop => simp [Event.follows] at he
  | select candidates =>
    obtain ⟨call, rejected, tried, hw, -, -⟩ := stepSelect_some hs
    rcases h.waiting with hn | ⟨key, id, token, hn⟩
    · exact absurd (hn.symm.trans hw) (by simp)
    · exact absurd (hn.symm.trans hw) (by simp)
  | expire =>
    obtain ⟨call, rejected, hw, -⟩ := stepExpire_some hs
    rcases h.waiting with hn | ⟨key, id, token, hn⟩
    · exact absurd (hn.symm.trans hw) (by simp)
    · exact absurd (hn.symm.trans hw) (by simp)
  | execute tip env =>
    obtain ⟨g, p, rest, hc, -, rfl⟩ := stepExecute_some hs
    obtain ⟨wait, hw, -⟩ := h.lockstep.head hc
    rcases h.waiting with hn | ⟨key, id, token, hn⟩
    · exact absurd (hn.symm.trans hw) (by simp)
    rw [hn] at hw
    obtain ⟨-, hcmd, -⟩ := Waiting.call.inj (Option.some.inj hw)
    refine hidle rfl rfl ?_ rfl ?_
    · rw [← hcmd]
      simp only [runCommand, Composition.handleCommand, Composition.cancel]
      split_ifs <;> rfl
    · intro u
      by_cases hu : u = tip
      · subst hu
        rw [runCommand_self, ← hcmd]
        exact Composition.cancel_kept _ id
      · rw [runCommand_of_ne _ _ _ _ _ hu]
        exact .refl _
  | deliver tip =>
    obtain ⟨g, p, rest, answer, hc, -, ht⟩ := stepDeliver_some hs
    obtain ⟨wait, hw, -⟩ := h.lockstep.head hc
    rcases h.waiting with hn | ⟨key, id, token, hn⟩
    · exact absurd (hn.symm.trans hw) (by simp)
    rcases ht with ⟨key', command', wait', hw', rfl⟩ | ⟨hne, -⟩
    · have heq := Waiting.call.inj (Option.some.inj (hn.symm.trans hw'))
      obtain ⟨-, -, -, rfl⟩ := heq
      refine ⟨hlock, Or.inl rfl, h.injector, h.written, Or.inr rfl, ?_⟩
      intro u
      refine (h.kept u).trans ?_
      refine setHost_kept { t with reply := none } tip _ ?_ u
      exact .refl _
    · exact absurd hw (hne _ _ _)
  | connect tip =>
    obtain ⟨-, -, rfl⟩ := stepConnect_some hs
    exact hidle rfl rfl rfl rfl (setHost_kept { t with reply := none } tip _ (.refl _))
  | externalEdit tip =>
    obtain rfl := Windows.step_externalEdit_some hs
    exact hidle rfl rfl rfl rfl
      (setHost_kept { t with reply := none } tip _ (Or.inr ⟨rfl, rfl, rfl⟩))
  | physicalInput isReturn =>
    obtain rfl : _ = t' := by simpa [Windows.step] using hs
    exact hidle rfl rfl rfl rfl (fun _ => .refl _)
  | giveUp => simp [Event.isTimely] at htimely
  | disconnect tip => simp [Event.isTimely] at htimely
  | executeDetached tip env => simp [Event.isTimely] at htimely
  | dropDetached tip => simp [Event.isTimely] at htimely
  | deactivate tip => simp [Event.isTimely] at htimely
  | pipeLost => simp [Event.isTimely] at htimely
  | restart => simp [Event.isTimely] at htimely

theorem Concluding.run {s t t' : Windows} {i : Injector} {response : InjectorResponse}
    (es : List Event) (h : Concluding s i response t) (he : ∀ e ∈ es, e.follows = true)
    (hr : Machine.run Windows.step t es = some t') : Concluding s i response t' := by
  induction es generalizing t with
  | nil =>
    obtain rfl : t = t' := by simpa [Machine.run] using hr
    exact h
  | cons e es ih =>
    obtain ⟨u, hu, hr⟩ := Option.bind_eq_some_iff.mp hr
    exact ih (h.step (he e List.mem_cons_self) hu)
      (fun e' he' => he e' (List.mem_cons_of_mem _ he')) hr

/-- A request that answers at once or gives the session up. -/
theorem concluding_request {s t : Windows} {request : InjectorRequest} {desktop : Desktop}
    {response : InjectorResponse} (h : s.Lockstep)
    (hs : s.step (.request request desktop) = some t)
    (hr : s.injector.handleRequest desktop s.input request = (s.injector, .reply response) ∨
      ∃ a, s.injector.session = some a ∧ s.injector.handleRequest desktop s.input request =
        ({ s.injector with session := none },
          .call a.tip (.cancel a.id) (.cancel (.reply response)))) :
    Concluding s (s.injector.handleRequest desktop s.input request).1 response t := by
  have hlock := step_lockstep h rfl hs
  obtain ⟨-, rfl⟩ := stepRequest_some hs
  refine ⟨hlock, ?_, perform_injector _ _, perform_written _ _, ?_, perform_kept _ _⟩
  · rw [perform_waiting]
    rcases hr with hr | ⟨a, -, hr⟩
    · exact Or.inl (by rw [hr])
    · exact Or.inr ⟨a.tip, a.id, s.nextToken, by rw [hr]⟩
  · rcases hr with hr | ⟨a, -, hr⟩
    · rw [hr]
      exact Or.inr rfl
    · rw [hr]
      exact Or.inl (enqueue_fields _ _ _).2.2.2.2.1

/-- The target of the session is valid, in the foreground and untouched. -/
def Untouched (s : Windows) (desktop : Desktop) : Prop :=
  desktop.targetValid = true ∧ desktop.targetForeground = true ∧
    ∀ a, s.injector.session = some a → a.inputEpoch = s.input.epoch

/-- How a snapshot `(n, text)` for a session with the state `state` is decided,
whatever happens until the next request. -/
structure Decides (s : Windows) (state : AppliedState) (id : String) (n : Int) (text : String)
    (desktop : Desktop) : Prop where
  /-- Only a newer snapshot is written. -/
  edits : state.classify n text ≠ .apply → ∀ es t, (∀ e ∈ es, e.follows = true) →
    run step s (.request (.applyState id n text) desktop :: es) = some t →
    t.written = s.written ∧ ∀ u, (s.hosts u).composition.Kept (t.hosts u).composition
  /-- A snapshot that is known or older is acknowledged as what was applied. -/
  known : state.classify n text = .duplicate ∨ state.classify n text = .stale →
    s.Untouched desktop → s.waiting = none →
    s.step (.request (.applyState id n text) desktop) =
      some { s with requests := s.requests + 1, reply := some (.applied state.sequence) }
  /-- A conflicting snapshot is never acknowledged. -/
  refused : state.classify n text = .conflict → ∀ es t, (∀ e ∈ es, e.follows = true) →
    run step s (.request (.applyState id n text) desktop :: es) = some t →
    ∀ m, t.reply ≠ some (.applied m)
  /-- It ends the session at the injector and at the text service. -/
  ended : state.classify n text = .conflict → s.Untouched desktop →
    ∀ es t, (∀ e ∈ es, e.follows = true) →
    run step s (.request (.applyState id n text) desktop :: es) = some t →
    t.injector.session = none ∧
      (t.waiting = none → ∀ u, (t.hosts u).composition.sessionId = none)
  answered : state.classify n text = .conflict → s.Untouched desktop → s.waiting = none →
    ∀ a env, s.injector.session = some a → ∃ t,
      run step s [.request (.applyState id n text) desktop, .execute a.tip.id env,
        .deliver a.tip.id] = some t ∧ t.waiting = none ∧ t.reply = some .invalidRequest
  /-- A newer snapshot whose edit succeeds is applied by both. -/
  applied : state.classify n text = .apply → s.Untouched desktop → s.waiting = none →
    ∀ a env, s.injector.session = some a →
    (s.hosts a.tip.id).composition.targetModified = false → env.focused = true →
    env.sameContext = true → env.edit = .done → ∃ t,
      run step s [.request (.applyState id n text) desktop, .execute a.tip.id env,
        .deliver a.tip.id] = some t ∧ t.waiting = none ∧ t.reply = some (.applied n) ∧
      t.injector.session = some { a with sequence := n, text := text } ∧
      (t.hosts a.tip.id).composition.Holds id n text

theorem step_request {s : Windows} (hw : s.waiting = none) (request : InjectorRequest)
    (desktop : Desktop) : s.step (.request request desktop) =
      some ({ s with reply := none, requests := s.requests + 1 }.perform
        (s.injector.handleRequest desktop s.input request)) := by
  simp [step, stepRequest, hw]

/-- On an untouched target the sequence number decides. -/
theorem handleRequest_untouched {s : Windows} {a : ActiveSession} {desktop : Desktop}
    (n : Int) (text : String) (hu : s.Untouched desktop)
    (hf : s.injector.completed.filter (fun finished => decide (finished.id = a.id)) = none)
    (ha : s.injector.session = some a) :
    s.injector.handleRequest desktop s.input (.applyState a.id n text) =
      if n < a.sequence then (s.injector, .reply (.applied a.sequence))
      else if n = a.sequence then
        if text = a.text then (s.injector, .reply (.applied n))
        else ({ s.injector with session := none },
          .call a.tip (.cancel a.id) (.cancel (.reply .invalidRequest)))
      else (s.injector, .call a.tip (.update a.id n text) (.update a.id n text)) := by
  obtain ⟨hv, hfore, hepoch⟩ := hu
  rw [Injector.handleRequest_apply desktop s.input n text hf ha]
  simp [hv, hfore, hepoch a ha, Injector.endFailedSession, ha]

theorem Lockstep.decides {s : Windows} (h : s.Lockstep) {id : String} {state : AppliedState}
    (hstate : s.injector.appliedState id = some state) (n : Int) (text : String)
    (desktop : Desktop) : s.Decides state id n text desktop := by
  -- whatever is not a newer snapshot only waits for its answer
  have hconc : state.classify n text ≠ .apply → ∃ response,
      (state.classify n text = .conflict → ∀ m, response ≠ .applied m) ∧
      ∀ es t, (∀ e ∈ es, e.follows = true) →
        run step s (.request (.applyState id n text) desktop :: es) = some t →
        Concluding s (s.injector.handleRequest desktop s.input (.applyState id n text)).1
          response t := by
    intro hc
    obtain ⟨response, hne, hr⟩ := Injector.handleRequest_decided desktop s.input hstate hc
    refine ⟨response, hne, ?_⟩
    intro es t hes hrun
    obtain ⟨u, hu, hrun⟩ := Option.bind_eq_some_iff.mp hrun
    exact (concluding_request h hu hr).run es hes hrun
  have hopen : state.classify n text ≠ .finished → ∃ a,
      s.injector.completed.filter (fun finished => decide (finished.id = a.id)) = none ∧
      s.injector.session = some a ∧ a.id = id ∧ state = ⟨a.sequence, a.text, false⟩ := by
    intro hc
    refine Injector.active_of_open hstate ?_
    by_contra hf
    exact hc (by simp [AppliedState.classify, hf])
  refine ⟨?_, ?_, ?_, ?_, ?_, ?_⟩
  · intro hc es t hes hrun
    obtain ⟨response, -, hall⟩ := hconc hc
    exact ⟨(hall es t hes hrun).written, (hall es t hes hrun).kept⟩
  · intro hc hu hw
    obtain ⟨a, hf, ha, rfl, rfl⟩ := hopen (by rcases hc with hc | hc <;> simp [hc])
    rw [step_request hw, handleRequest_untouched n text hu hf ha]
    rcases (AppliedState.classify_known _ _ _ _).mp hc with hlt | ⟨rfl, rfl⟩
    · simp [hlt, perform, hw]
    · simp [perform, hw]
  · intro hc es t hes hrun m hm
    obtain ⟨response, hne, hall⟩ := hconc (by simp [hc])
    rcases (hall es t hes hrun).reply with hr | hr
    · simp [hr] at hm
    · rw [hr] at hm
      exact hne hc m (Option.some.inj hm)
  · intro hc hu es t hes hrun
    obtain ⟨a, hf, ha, rfl, rfl⟩ := hopen (by simp [hc])
    obtain ⟨response, -, hall⟩ := hconc (by simp [hc])
    obtain ⟨rfl, hne⟩ := (AppliedState.classify_conflict _ _ _ _).mp hc
    have hend := hall es t hes hrun
    have hnone : t.injector.session = none := by
      rw [hend.injector, handleRequest_untouched a.sequence text hu hf ha]
      simp [hne]
    refine ⟨hnone, ?_⟩
    intro hw u
    refine (hend.lockstep.idle (by simp [hw])).off u ?_
    simp [hnone]
  · intro hc hu hw a env ha
    obtain ⟨b, hf, hb, rfl, rfl⟩ := hopen (by simp [hc])
    obtain rfl : a = b := by simpa [ha] using hb
    obtain ⟨rfl, hne⟩ := (AppliedState.classify_conflict _ _ _ _).mp hc
    have hidle := h.idle (by simp [hw])
    obtain ⟨u, hu'⟩ := run_answer (s := { s with reply := none, requests := s.requests + 1 })
      (hidle.linked a ha) hidle.empty { s.injector with session := none } (.cancel a.id)
      (.cancel (.reply .invalidRequest)) env
    refine ⟨u.perform ({ s.injector with session := none }, .reply .invalidRequest), ?_, rfl, rfl⟩
    rw [run, step_request hw, handleRequest_untouched a.sequence text hu hf ha]
    simpa [hne, Injector.resume, Injector.afterCancel] using hu'
  · intro hc hu hw a env ha hmod hfocus hcontext hedit
    obtain ⟨b, hf, hb, rfl, rfl⟩ := hopen (by simp [hc])
    obtain rfl : a = b := by simpa [ha] using hb
    have hlt := (AppliedState.classify_apply _ _ _ _).mp hc
    have hidle := h.idle (by simp [hw])
    obtain ⟨hid, hn, -⟩ := hidle.holds a ha
    have hresponse : ((s.hosts a.tip.id).composition.handleCommand env
        (.update a.id n text)).response = .applied a.id n := by
      have hge : ¬ n < a.sequence := by omega
      have hne : n ≠ a.sequence := by omega
      simp [Composition.handleCommand, Composition.update, hid, hn, hmod, hge, hne, hfocus,
        hcontext, hedit]
    obtain ⟨u, hu'⟩ := run_answer (s := { s with reply := none, requests := s.requests + 1 })
      (hidle.linked a ha) hidle.empty s.injector (.update a.id n text) (.update a.id n text) env
    have hrun : run step s [.request (.applyState a.id n text) desktop, .execute a.tip.id env,
        .deliver a.tip.id] = some (u.perform
          ({ s.injector with session := some { a with sequence := n, text := text } },
            .reply (.applied n))) := by
      rw [run, step_request hw, handleRequest_untouched n text hu hf ha,
        if_neg (by omega), if_neg (by omega)]
      simpa [hresponse, Injector.resume, ha, Injector.resumeUpdate] using hu'
    have hlock := run_lockstep h _ (by simp [Event.isTimely]) hrun
    exact ⟨_, hrun, rfl, rfl, rfl, (hlock.idle (by simp [perform])).holds _ rfl⟩

/-- In every run whose commands are executed and answered, the text service of
the active session holds the same snapshot, both change their text only with a
higher sequence number, and a snapshot is decided as it is classified. -/
theorem sequence_discipline {es : List Event} {s : Windows} (hr : run step {} es = some s)
    (hes : ∀ e ∈ es, e.isTimely = true) :
    s.InStep ∧
    (∀ e t, e.isTimely = true → s.step e = some t → s.Advances t) ∧
    ∀ id state n text desktop, s.injector.appliedState id = some state →
      s.Decides state id n text desktop := by
  have h := run_lockstep lockstep_initial es hes hr
  refine ⟨?_, ?_, ?_⟩
  · exact h.inStep
  · intro e t he hs
    exact step_advances h he hs
  · intro id state n text desktop hstate
    exact h.decides hstate n text desktop

/-- A session with one snapshot applied. -/
def openRun : List Event :=
  [.connect ⟨1, 1⟩, .request (.beginSession "s" none 1 "a" false) { foreground := some notepad },
    .select [⟨⟨1, 1⟩, 1⟩], .execute ⟨1, 1⟩ editDone, .deliver ⟨1, 1⟩,
    .request (.applyState "s" 2 "ab") {}, .execute ⟨1, 1⟩ editDone, .deliver ⟨1, 1⟩]

theorem sequence_discipline_open : ∃ s, run step {} openRun = some s ∧
    s.injector.appliedState "s" = some ⟨2, "ab", false⟩ ∧ s.InStep ∧
    s.Decides ⟨2, "ab", false⟩ "s" 2 "ax" {} := by
  have hr := (Option.some_get (x := run step {} openRun) (by decide)).symm
  have h := sequence_discipline hr (by decide)
  have hstate : ((run step {} openRun).get (by decide)).injector.appliedState "s" =
      some ⟨2, "ab", false⟩ := by decide
  exact ⟨_, hr, hstate, h.1, h.2.2 _ _ _ _ _ hstate⟩

end Windows

end FlowType
