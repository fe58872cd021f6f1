import Mathlib.Data.Int.Order.Basic
import FlowType.Handler
import FlowType.Revisions

/-! The injector with text services that accept what they are told: a request then settles
in one step, with one of a few outcomes. -/
namespace FlowType

/-- What a request finds around the injector; `tip` is the text service that is offered a
Begin, and `queried` answers a query. -/
structure Surroundings where
  desktop : Desktop := {}
  input : InputMonitor := {}
  tip : Option TipKey := none
  queried : Option TipResponse := none
  deriving DecidableEq, Repr

def TipCommand.accepted (queried : Option TipResponse) : TipCommand → Option TipResponse
  | .begin sessionId _ _ _ => some (.begun sessionId)
  | .update sessionId sequence _ => some (.applied sessionId sequence)
  | .finish sessionId sequence => some (.finished sessionId sequence)
  | .cancel sessionId => some (.cancelled sessionId)
  | .query _ => queried

namespace Injector

def settle (env : Surroundings) : Nat → Injector × Next → Option (Injector × InjectorResponse)
  | 0, _ => none
  | _ + 1, (s, .reply response) => some (s, response)
  | _ + 1, (_, .accept) => none
  | n + 1, (s, .call key command wait) =>
    settle env n (s.resume env.input key wait (command.accepted env.queried))
  | n + 1, (s, .select call rejected _) =>
    settle env n (s, match env.tip with
      | none => beginExpired rejected
      | some key => .call key call.command (.begin call [] rejected))

def handle (s : Injector) (env : Surroundings) (request : InjectorRequest) :
    Option (Injector × InjectorResponse) :=
  settle env 4 (s.handleRequest env.desktop env.input request)

end Injector

abbrev TextRevision := Revision String Int String

def ActiveSession.revision (a : ActiveSession) : TextRevision := ⟨a.id, a.sequence, a.text⟩

def CompletedSession.revision (c : CompletedSession) : TextRevision := ⟨c.id, c.sequence, c.text⟩

def InjectorRequest.revision? : InjectorRequest → Option TextRevision
  | .beginSession sessionId _ sequence fullText _ => some ⟨sessionId, sequence, fullText⟩
  | .applyState sessionId sequence fullText => some ⟨sessionId, sequence, fullText⟩
  | _ => none

def InjectorRequest.sessionId? : InjectorRequest → Option String
  | .beginSession sessionId _ _ _ _ => some sessionId
  | .applyState sessionId _ _ => some sessionId
  | .finishSession sessionId _ => some sessionId
  | .querySession sessionId => some sessionId
  | .cancelInvalidSession sessionId => some sessionId
  | .probeTarget => none

theorem InjectorRequest.sessionId?_of_revision {request : InjectorRequest} {r : TextRevision}
    (h : request.revision? = some r) :
    request.sessionId? = some r.key := by
  cases request with
  | beginSession sessionId replaces sequence fullText attachExisting =>
    cases h
    rfl
  | applyState sessionId sequence fullText =>
    cases h
    rfl
  | finishSession sessionId sequence => cases h
  | querySession sessionId => cases h
  | probeTarget => cases h
  | cancelInvalidSession sessionId => cases h

/-- The response says nothing about what was applied or finished. -/
def InjectorResponse.Quiet : InjectorResponse → Prop
  | .applied _ => False
  | .finished _ => False
  | .sessionFinished _ _ _ => False
  | _ => True

namespace Injector

/-- What a request can lead to when the text services accept. -/
inductive Outcome (s : Injector) (request : InjectorRequest) : Injector → InjectorResponse → Prop
  | unchanged {response : InjectorResponse} : response.Quiet → Outcome s request s response
  | ended {t : Injector} {response : InjectorResponse} : t.session = none →
      t.completed = s.completed → response.Quiet → Outcome s request t response
  | opened {a : ActiveSession} {targetName : String} : request.revision? = some a.revision →
      Outcome s request ⟨some a, none⟩ (.sessionBegun targetName)
  | kept {a : ActiveSession} : s.session = some a → request.sessionId? = some a.id →
      Outcome s request s (.applied a.sequence)
  | advanced {a : ActiveSession} : request.revision? = some a.revision →
      Outcome s request { s with session := some a } (.applied a.sequence)
  | finished {a : ActiveSession} : s.session = some a → request.sessionId? = some a.id →
      Outcome s request ⟨none, some ⟨a.id, a.sequence, a.text⟩⟩ (.finished a.sequence)
  | known {c : CompletedSession} {response : InjectorResponse} : s.completed = some c →
      request.sessionId? = some c.id → response = .finished c.sequence ∨
        response = .sessionFinished c.id c.sequence c.text → Outcome s request s response

variable (s : Injector) (env : Surroundings) {request : InjectorRequest}

theorem settle_endFailed (n : Nat) (response : InjectorResponse) :
    settle env (n + 2) (s.endFailedSession (.reply response)) =
      some ({ s with session := none }, response) := by
  unfold endFailedSession
  split
  · next hnone =>
    have hsame : s = { s with session := none } := by
      cases s
      cases hnone
      rfl
    rw [← hsame]
    rfl
  · rfl

theorem endFailed_outcome (n : Nat) {response : InjectorResponse} (hquiet : response.Quiet) :
    ∃ t answer, settle env (n + 2) (s.endFailedSession (.reply response)) = some (t, answer) ∧
      Outcome s request t answer :=
  ⟨_, _, settle_endFailed s env n response, .ended rfl rfl hquiet⟩

/-- A Begin opens its session, or nothing changes. -/
theorem capture_outcome (n : Nat) (sessionId : String) (sequence : Int) (fullText : String)
    (attachExisting : Bool) (desktop : Desktop) :
    ∃ t answer, settle env (n + 3)
        (s, captureAndBegin sessionId sequence fullText attachExisting desktop) =
          some (t, answer) ∧
      (t = s ∧ answer.Quiet ∨
        ∃ a targetName, a.revision = ⟨sessionId, sequence, fullText⟩ ∧ t = ⟨some a, none⟩ ∧
          answer = .sessionBegun targetName) := by
  unfold captureAndBegin
  split
  · exact ⟨_, _, rfl, Or.inl ⟨rfl, trivial⟩⟩
  · next target _ =>
    split_ifs
    · exact ⟨_, _, rfl, Or.inl ⟨rfl, trivial⟩⟩
    · exact ⟨_, _, rfl, Or.inl ⟨rfl, trivial⟩⟩
    · exact ⟨_, _, rfl, Or.inl ⟨rfl, trivial⟩⟩
    · exact ⟨_, _, rfl, Or.inl ⟨rfl, trivial⟩⟩
    · -- a text service is there and begins, or the deadline passes
      rcases htip : env.tip with _ | key
      · refine ⟨s, .tsfUnavailable, ?_, Or.inl ⟨rfl, trivial⟩⟩
        simp [settle, htip, beginExpired]
      · let begun : ActiveSession :=
          { id := sessionId, sequence := sequence, text := fullText
            target := target, tip := key, inputEpoch := env.input.epoch }
        refine ⟨⟨some begun, none⟩, _, ?_, Or.inr ⟨begun, target.title, rfl, rfl, rfl⟩⟩
        simp [settle, htip, resume, resumeBegin, TipBegin.command, TipCommand.accepted, begun]

theorem begin_outcome {sessionId : String} {replaces : Option String} {sequence : Int}
    {fullText : String} {attachExisting : Bool}
    (hrequest : request =
      .beginSession sessionId replaces sequence fullText attachExisting) :
    ∃ t answer, s.handle env request = some (t, answer) ∧ Outcome s request t answer := by
  have hrevision : request.revision? = some ⟨sessionId, sequence, fullText⟩ := by
    rw [hrequest]
    rfl
  have hsession : request.sessionId? = some sessionId := by
    rw [hrequest]
    rfl
  unfold handle
  rw [hrequest]
  simp only [handleRequest, beginSession]
  rw [← hrequest]
  split
  · exact ⟨_, _, rfl, .unchanged trivial⟩
  · split
    · next finished hcompleted =>
      obtain ⟨hfinished, hid⟩ := Option.filter_eq_some_iff.mp hcompleted
      have hid : finished.id = sessionId := of_decide_eq_true hid
      refine ⟨_, _, rfl, .known hfinished ?_ (Or.inr ?_)⟩
      · rw [hid]
        exact hsession
      · rw [hid]
    · split
      · exact ⟨_, _, rfl, .unchanged trivial⟩
      · -- the old session goes, and nothing but the Begin comes after its Cancel
        unfold endFailedSession
        split
        · obtain ⟨t, answer, hsettle, hcases⟩ := capture_outcome s env 1 sessionId sequence
            fullText attachExisting env.desktop
          refine ⟨t, answer, hsettle, ?_⟩
          rcases hcases with ⟨rfl, hquiet⟩ | ⟨a, targetName, ha, rfl, rfl⟩
          · exact .unchanged hquiet
          · exact .opened (by rw [ha, hrevision])
        · obtain ⟨t, answer, hsettle, hcases⟩ := capture_outcome { s with session := none } env 0
            sessionId sequence fullText attachExisting env.desktop
          refine ⟨t, answer, hsettle, ?_⟩
          rcases hcases with ⟨rfl, hquiet⟩ | ⟨a, targetName, ha, rfl, rfl⟩
          · exact .ended rfl rfl hquiet
          · exact .opened (by rw [ha, hrevision])
      · obtain ⟨t, answer, hsettle, hcases⟩ := capture_outcome s env 1 sessionId sequence
          fullText attachExisting env.desktop
        refine ⟨t, answer, hsettle, ?_⟩
        rcases hcases with ⟨rfl, hquiet⟩ | ⟨a, targetName, ha, rfl, rfl⟩
        · exact .unchanged hquiet
        · exact .opened (by rw [ha, hrevision])

theorem apply_outcome {sessionId : String} {sequence : Int} {fullText : String}
    (hrequest : request = .applyState sessionId sequence fullText) :
    ∃ t answer, s.handle env request = some (t, answer) ∧ Outcome s request t answer := by
  have hrevision : request.revision? = some ⟨sessionId, sequence, fullText⟩ := by
    rw [hrequest]
    rfl
  have hsession : request.sessionId? = some sessionId := by
    rw [hrequest]
    rfl
  unfold handle
  rw [hrequest]
  simp only [handleRequest]
  rw [← hrequest]
  split
  · next response hresponse =>
    -- the session was finished before
    obtain ⟨finished, hfinished, hanswer⟩ := Option.map_eq_some_iff.mp hresponse
    obtain ⟨hcompleted, hid⟩ := Option.filter_eq_some_iff.mp hfinished
    have hid : finished.id = sessionId := of_decide_eq_true hid
    refine ⟨_, _, rfl, ?_⟩
    split_ifs at hanswer with hsame
    · refine .known hcompleted ?_ (Or.inl ?_)
      · rw [hid]
        exact hsession
      · rw [← hanswer, hsame.1]
    · rw [← hanswer]
      exact .unchanged trivial
  · unfold applyState
    split
    · exact ⟨_, _, rfl, .unchanged trivial⟩
    · next active hfilter =>
      obtain ⟨hactive, hid⟩ := filter_id_some hfilter
      have hown : request.sessionId? = some active.id := by
        rw [hid]
        exact hsession
      split_ifs with _ _ _ hstale hequal htext
      · exact ⟨_, _, rfl, .unchanged trivial⟩
      · exact endFailed_outcome s env 2 trivial
      · exact ⟨_, _, rfl, .unchanged trivial⟩
      · exact ⟨_, _, rfl, .kept hactive hown⟩
      · refine ⟨_, _, rfl, ?_⟩
        rw [hequal]
        exact .kept hactive hown
      · exact endFailed_outcome s env 2 trivial
      · let applied : ActiveSession := { active with sequence := sequence, text := fullText }
        refine ⟨{ s with session := some applied }, .applied applied.sequence, ?_, .advanced ?_⟩
        · simp [settle, resume, hactive, resumeUpdate, TipCommand.accepted, applied]
        · rw [hrevision, ← hid]
          rfl

theorem finish_outcome {sessionId : String} {sequence : Int}
    (hrequest : request = .finishSession sessionId sequence) :
    ∃ t answer, s.handle env request = some (t, answer) ∧ Outcome s request t answer := by
  unfold handle
  rw [hrequest]
  simp only [handleRequest, finishSession]
  rw [← hrequest]
  split
  · exact ⟨_, _, rfl, .unchanged trivial⟩
  · next active hactive =>
    split
    · exact ⟨_, _, rfl, .unchanged trivial⟩
    · next hsame =>
      push Not at hsame
      obtain ⟨rfl, rfl⟩ := hsame
      refine ⟨_, _, ?_, .finished hactive (by rw [hrequest]; rfl)⟩
      simp [settle, resume, hactive, resumeFinish, TipCommand.accepted]

theorem query_outcome {sessionId : String} (hrequest : request = .querySession sessionId) :
    ∃ t answer, s.handle env request = some (t, answer) ∧ Outcome s request t answer := by
  unfold handle
  rw [hrequest]
  simp only [handleRequest, querySession]
  rw [← hrequest]
  split
  · next active hfilter =>
    unfold queryActiveSession
    split_ifs
    · exact endFailed_outcome s env 2 trivial
    · exact endFailed_outcome s env 2 trivial
    · exact ⟨_, _, rfl, .unchanged trivial⟩
    · -- whatever the text service answers, the session stays or is ended
      simp only [settle, TipCommand.accepted, resume, resumeQuery]
      split
      · exact ⟨_, _, rfl, .unchanged trivial⟩
      · exact endFailed_outcome s env 1 (by split_ifs <;> trivial)
      · exact endFailed_outcome s env 1 trivial
  · split
    · next finished hcompleted =>
      obtain ⟨hfinished, hid⟩ := Option.filter_eq_some_iff.mp hcompleted
      have hid : finished.id = sessionId := of_decide_eq_true hid
      refine ⟨_, _, rfl, .known hfinished ?_ (Or.inr ?_)⟩
      · rw [hid, hrequest]
        rfl
      · rw [hid]
    · exact ⟨_, _, rfl, .unchanged trivial⟩

theorem probe_quiet (desktop : Desktop) : (probeTarget desktop).Quiet := by
  unfold probeTarget
  split
  · trivial
  · split_ifs <;> trivial

/-- Every request settles, with one of the outcomes. -/
theorem handle_outcome (request : InjectorRequest) :
    ∃ t answer, s.handle env request = some (t, answer) ∧ Outcome s request t answer := by
  cases request with
  | beginSession sessionId replaces sequence fullText attachExisting =>
    exact begin_outcome s env rfl
  | applyState sessionId sequence fullText => exact apply_outcome s env rfl
  | finishSession sessionId sequence => exact finish_outcome s env rfl
  | querySession sessionId => exact query_outcome s env rfl
  | probeTarget => exact ⟨_, _, rfl, .unchanged (probe_quiet env.desktop)⟩
  | cancelInvalidSession sessionId =>
    unfold handle
    simp only [handleRequest, cancelInvalidSession]
    split
    · exact ⟨_, _, rfl, .unchanged trivial⟩
    · exact endFailed_outcome s env 2 trivial

theorem outcome_of_handle {t : Injector} {response : InjectorResponse}
    (h : s.handle env request = some (t, response)) : Outcome s request t response := by
  obtain ⟨t', answer, h', hout⟩ := s.handle_outcome env request
  cases h.symm.trans h'
  exact hout

namespace Outcome

variable {s t : Injector} {request : InjectorRequest} {response : InjectorResponse}

/-- A session goes on, or it has the text of the request. -/
theorem session_eq (h : Outcome s request t response) :
    ∀ a ∈ t.session, s.session = some a ∨ request.revision? = some a.revision := by
  intro a ha
  cases h with
  | unchanged _ => exact Or.inl ha
  | ended hnone _ _ =>
    rw [hnone] at ha
    cases ha
  | opened hrevision =>
    cases ha
    exact Or.inr hrevision
  | kept _ _ => exact Or.inl ha
  | advanced hrevision =>
    cases ha
    exact Or.inr hrevision
  | finished _ _ => cases ha
  | known _ _ _ => exact Or.inl ha

theorem completed_eq (h : Outcome s request t response) :
    t.completed = s.completed ∨ t.completed = none ∨
      ∃ a, s.session = some a ∧ t.completed = some ⟨a.id, a.sequence, a.text⟩ := by
  cases h with
  | unchanged _ => exact Or.inl rfl
  | ended _ hsame _ => exact Or.inl hsame
  | opened _ => exact Or.inr (Or.inl rfl)
  | kept _ _ => exact Or.inl rfl
  | advanced _ => exact Or.inl rfl
  | finished hactive _ => exact Or.inr (Or.inr ⟨_, hactive, rfl⟩)
  | known _ _ _ => exact Or.inl rfl

/-- What a response says was applied is in the active session. -/
theorem of_applied {n : Int} (h : Outcome s request t (.applied n)) :
    ∃ a, t.session = some a ∧ request.sessionId? = some a.id ∧ a.sequence = n := by
  generalize hresponse : InjectorResponse.applied n = response at h
  cases h with
  | unchanged hquiet =>
    rw [← hresponse] at hquiet
    cases hquiet
  | ended _ _ hquiet =>
    rw [← hresponse] at hquiet
    cases hquiet
  | opened _ => cases hresponse
  | kept hactive hown =>
    cases hresponse
    exact ⟨_, hactive, hown, rfl⟩
  | advanced hrevision =>
    cases hresponse
    exact ⟨_, rfl, InjectorRequest.sessionId?_of_revision hrevision, rfl⟩
  | finished _ _ => cases hresponse
  | known _ _ hanswer =>
    rw [← hresponse] at hanswer
    rcases hanswer with hanswer | hanswer
    · cases hanswer
    · cases hanswer

/-- What a response says was finished has been completed. -/
theorem of_finished {n : Int} {id text : String}
    (h : Outcome s request t response)
    (hresponse : response = .finished n ∨ response = .sessionFinished id n text) :
    ∃ c, t.completed = some c ∧ request.sessionId? = some c.id ∧ c.sequence = n := by
  have hloud : ¬ response.Quiet := by
    rcases hresponse with rfl | rfl
    · exact fun hquiet => hquiet
    · exact fun hquiet => hquiet
  cases h with
  | unchanged hquiet => exact absurd hquiet hloud
  | ended _ _ hquiet => exact absurd hquiet hloud
  | opened _ => exact absurd trivial hloud
  | kept _ _ =>
    rcases hresponse with hresponse | hresponse
    · cases hresponse
    · cases hresponse
  | advanced _ =>
    rcases hresponse with hresponse | hresponse
    · cases hresponse
    · cases hresponse
  | finished _ hown =>
    rcases hresponse with hresponse | hresponse
    · cases hresponse
      exact ⟨_, rfl, hown, rfl⟩
    · cases hresponse
  | known hcompleted hown hanswer =>
    refine ⟨_, hcompleted, hown, ?_⟩
    rcases hanswer with rfl | rfl
    · rcases hresponse with hresponse | hresponse
      · cases hresponse
        rfl
      · cases hresponse
    · rcases hresponse with hresponse | hresponse
      · cases hresponse
      · cases hresponse
        rfl

end Outcome

end Injector

end FlowType
