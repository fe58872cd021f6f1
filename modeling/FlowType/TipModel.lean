import FlowType.TipRefinement

/-! `TipSessionModel`, the session that the broker's tests take for a text service, and the
controller that it stands for: while TSF does what it is asked, both answer alike. -/
namespace FlowType

structure TipSessionModel where
  sessionId : Option String := none
  sequence : Int := 0
  text : String := ""
  compositionEnded : Bool := false
  targetModified : Bool := false
  deriving DecidableEq, Repr

namespace TipSessionModel

def begin (m : TipSessionModel) (sessionId : String) (sequence : Int) (fullText : String) :
    TipSessionModel × Except TipResponse Unit :=
  if m.sessionId = some sessionId then
    (m, if m.targetModified then .error .compositionTerminated else .ok ())
  else if m.sessionId ≠ none then (m, .error .sessionMismatch)
  else ({ sessionId := some sessionId, sequence, text := fullText }, .ok ())

def update (m : TipSessionModel) (sessionId : String) (sequence : Int) (fullText : String) :
    TipSessionModel × Except TipResponse Bool :=
  if m.sessionId ≠ some sessionId then (m, .error .sessionMismatch)
  else if m.targetModified then (m, .error .compositionTerminated)
  else if sequence < m.sequence then (m, .ok false)
  else if sequence = m.sequence then
    (m, if m.text = fullText then .ok false else .error .sequenceConflict)
  else ({ m with sequence := sequence, text := fullText }, .ok true)

def terminate (m : TipSessionModel) : TipSessionModel := { m with targetModified := true }

def endComposition (m : TipSessionModel) : TipSessionModel := { m with compositionEnded := true }

def finish (m : TipSessionModel) (sessionId : String) (sequence : Int) :
    TipSessionModel × Except TipResponse Unit :=
  if m.sessionId ≠ some sessionId ∨ m.sequence ≠ sequence then (m, .error .sessionMismatch)
  else if m.targetModified then (m, .error .compositionTerminated)
  else ({}, .ok ())

def cancel (m : TipSessionModel) (sessionId : String) :
    TipSessionModel × Except TipResponse Unit :=
  if m.sessionId ≠ some sessionId then (m, .error .sessionMismatch) else ({}, .ok ())

/-- What a controller with the model's fields answers: success with the current sequence, and
a Begin that finds another session with its rejection. A query only reads the fields. -/
def handleCommand (m : TipSessionModel) : TipCommand → TipSessionModel × TipResponse
  | .begin sessionId sequence fullText _ =>
    let r := m.begin sessionId sequence fullText
    (r.1, match r.2 with
      | .ok _ => .begun sessionId
      | .error .sessionMismatch => .rebindRejected
      | .error response => response)
  | .update sessionId sequence fullText =>
    let r := m.update sessionId sequence fullText
    (r.1, match r.2 with
      | .ok _ => .applied sessionId r.1.sequence
      | .error response => response)
  | .finish sessionId sequence =>
    let r := m.finish sessionId sequence
    (r.1, match r.2 with
      | .ok _ => .finished sessionId m.sequence
      | .error response => response)
  | .cancel sessionId =>
    let r := m.cancel sessionId
    (r.1, match r.2 with
      | .ok _ => .cancelled sessionId
      | .error response => response)
  | .query sessionId =>
    (m, if m.sessionId ≠ some sessionId then .sessionMismatch
      else if m.targetModified then .compositionTerminated
      else .sessionActive sessionId m.sequence)

end TipSessionModel

structure ModelRun where
  model : TipSessionModel := {}
  controller : Controller := {}

namespace ModelRun

/-- A command, with what TSF answers to it; or the composition ends: from outside, or `within`
a request of the text service itself. -/
inductive Event
  | command (command : TipCommand) (env again : TsfEnv)
  | terminated (within : Bool)

def step (w : ModelRun) : Event → Option ModelRun
  | .command command env again =>
    some ⟨(w.model.handleCommand command).1, (w.controller.handleCommand env again command).1⟩
  | .terminated within =>
    (w.controller.step (.terminated within)).map fun controller =>
      ⟨if within then w.model.endComposition else w.model.terminate, controller⟩

/-- A command that reaches TSF finds its context in focus, is subscribed to the edits of the
context, and has its edit session run. -/
def Succeeds (k : Controller) (env : TsfEnv) : TipCommand → Prop
  | .begin id _ text attach => k.composition.sessionId = none →
    ∃ context k₁, env.focused = some context ∧ k.startSession id context env = some k₁ ∧
      (k₁.requestEdit context env fun c d => c.beginEdit d env text attach).2 = true
  | .update id n text => k.composition.sessionId = some id →
    k.composition.targetModified = false → k.composition.sequence < n →
    ∃ context, k.activeFocusedContext env = some context ∧
      (k.requestEdit context env fun c d => c.updateEdit d env text).2 = true
  | .finish id n => k.composition.sessionId = some id → k.composition.targetModified = false →
    k.composition.sequence = n →
    ∀ context, k.composition.context = some context →
      (k.requestEdit context env fun c d => c.finishEdit d env false).2 = true
  | _ => True

def Cooperates (w : ModelRun) : Event → Prop
  | .command command env _ => Succeeds w.controller env command
  | .terminated _ => True

structure Simulates (w : ModelRun) : Prop where
  sessionId : w.controller.composition.sessionId = w.model.sessionId
  sequence : w.controller.composition.sequence = w.model.sequence
  text : w.controller.composition.text = w.model.text
  targetModified : w.controller.composition.targetModified = w.model.targetModified

def Agrees (w : ModelRun) : Event → Prop
  | .command command env again =>
    (w.controller.handleCommand env again command).2 = (w.model.handleCommand command).2
  | .terminated _ => True

open CompositionState (Follows)

variable {m : TipSessionModel} {k : Controller} {env again : TsfEnv} {w w' : ModelRun}
  {id text : String} {n : Int} {attach : Bool}

/-- A Begin that reaches TSF opens the session it names, with its text applied. -/
theorem begin_succeeds {context : Nat} {k₁ : Controller}
    (hstart : k.startSession id context env = some k₁)
    (hedit : (k₁.requestEdit context env fun c d => c.beginEdit d env text attach).2 = true) :
    ∃ k₂, (k₁.requestEdit context env fun c d => c.beginEdit d env text attach) = (k₂, true) ∧
      k₂.composition.sessionId = some id ∧ k₂.composition.targetModified = false := by
  refine ⟨_, Prod.ext rfl hedit, ?_, ?_⟩
  · have hfollows := Controller.requestEdit_follows k₁ context env
      fun c d => Follows.beginEdit c d env text attach
    exact hfollows.sessionId.trans (Controller.startSession_fresh hstart).sessionId
  · have hmodified := Controller.requestEdit_targetModified k₁ context env
      fun c d => CompositionState.beginEdit_targetModified c d env text attach
    exact hmodified.trans (Controller.startSession_fresh hstart).unmodified

theorem begin_simulated (h : Simulates ⟨m, k⟩) (hok : Succeeds k env (.begin id n text attach)) :
    (k.begin env again id n text attach).2 =
      (m.handleCommand (.begin id n text attach)).2 ∧
    Simulates ⟨(m.handleCommand (.begin id n text attach)).1,
      (k.begin env again id n text attach).1⟩ := by
  have hid : k.composition.sessionId = m.sessionId := h.sessionId
  have hmodified : k.composition.targetModified = m.targetModified := h.targetModified
  simp only [TipSessionModel.handleCommand]
  by_cases hsame : m.sessionId = some id
  · rw [Controller.begin, if_pos (hid.trans hsame), TipSessionModel.begin, if_pos hsame, hmodified]
    refine ⟨?_, h⟩
    cases m.targetModified <;> rfl
  by_cases hbusy : m.sessionId ≠ none
  · rw [Controller.begin, if_neg (hid ▸ hsame), if_pos (hid ▸ hbusy), TipSessionModel.begin,
      if_neg hsame, if_pos hbusy]
    exact ⟨rfl, h⟩
  · obtain ⟨context, k₁, hfocus, hstart, hedit⟩ := hok (hid.trans (not_not.1 hbusy))
    obtain ⟨k₂, hrequest, hopened, hunmodified⟩ := begin_succeeds hstart hedit
    rw [Controller.begin, if_neg (hid ▸ hsame), if_neg (hid ▸ hbusy), TipSessionModel.begin,
      if_neg hsame, if_neg hbusy]
    simp only [hfocus, hstart, hrequest]
    exact ⟨trivial, hopened, rfl, rfl, hunmodified⟩

theorem update_simulated (h : Simulates ⟨m, k⟩) (hok : Succeeds k env (.update id n text)) :
    (k.update env id n text).2 = (m.handleCommand (.update id n text)).2 ∧
    Simulates ⟨(m.handleCommand (.update id n text)).1, (k.update env id n text).1⟩ := by
  have hid : k.composition.sessionId = m.sessionId := h.sessionId
  have hsequence : k.composition.sequence = m.sequence := h.sequence
  have htext : k.composition.text = m.text := h.text
  have hmodified : k.composition.targetModified = m.targetModified := h.targetModified
  simp only [TipSessionModel.handleCommand]
  rw [Controller.update, TipSessionModel.update, hid, hmodified, hsequence, htext]
  by_cases hother : m.sessionId ≠ some id
  · rw [if_pos hother, if_pos hother]
    exact ⟨rfl, h⟩
  rw [if_neg hother, if_neg hother]
  by_cases hedited : m.targetModified = true
  · rw [if_pos hedited, if_pos hedited]
    exact ⟨rfl, h⟩
  rw [if_neg hedited, if_neg hedited]
  by_cases hold : n < m.sequence
  · rw [if_pos hold, if_pos hold]
    exact ⟨rfl, h⟩
  rw [if_neg hold, if_neg hold]
  by_cases hrepeat : n = m.sequence
  · rw [if_pos hrepeat, if_pos hrepeat]
    refine ⟨?_, h⟩
    by_cases hsame : m.text = text
    · rw [if_pos hsame, if_pos hsame, hrepeat]
    · rw [if_neg hsame, if_neg hsame]
  rw [if_neg hrepeat, if_neg hrepeat]
  obtain ⟨context, hfocus, hedit⟩ := hok (hid.trans (not_not.1 hother))
    (hmodified.trans (by simpa using hedited)) (by omega)
  have hfollows := Controller.requestEdit_follows k context env
    fun c d => Follows.updateEdit c d env text
  obtain ⟨hlocked, hrun⟩ := Controller.requestEdit_ok hedit
  have hunmodified : (k.requestEdit context env fun c d =>
      c.updateEdit d env text).1.composition.targetModified = false := by
    rw [Controller.requestEdit_locked hlocked]
    exact CompositionState.updateEdit_ok hrun
  have hkept : m.targetModified = false := by simpa using hedited
  simp only [hfocus]
  generalize k.requestEdit context env (fun c d => c.updateEdit d env text) = r
    at hedit hfollows hunmodified
  obtain ⟨k₁, ran⟩ := r
  subst hedit
  exact ⟨rfl, hfollows.sessionId.trans hid, rfl, rfl, hunmodified.trans hkept.symm⟩

theorem finish_simulated (h : Simulates ⟨m, k⟩) (hbound : k.Bound)
    (hok : Succeeds k env (.finish id n)) :
    (k.finish env id n).2 = (m.handleCommand (.finish id n)).2 ∧
    Simulates ⟨(m.handleCommand (.finish id n)).1, (k.finish env id n).1⟩ := by
  have hid : k.composition.sessionId = m.sessionId := h.sessionId
  have hsequence : k.composition.sequence = m.sequence := h.sequence
  have hmodified : k.composition.targetModified = m.targetModified := h.targetModified
  simp only [TipSessionModel.handleCommand]
  rw [Controller.finish, TipSessionModel.finish, hid, hmodified, hsequence]
  by_cases hother : m.sessionId ≠ some id ∨ m.sequence ≠ n
  · rw [if_pos hother, if_pos hother]
    exact ⟨rfl, h⟩
  rw [if_neg hother, if_neg hother]
  by_cases hedited : m.targetModified = true
  · rw [if_pos hedited, if_pos hedited]
    exact ⟨rfl, h⟩
  rw [if_neg hedited, if_neg hedited]
  rw [not_or, not_not, not_not] at hother
  have hopen : k.composition.sessionId ≠ none := by
    rw [hid, hother.1]
    exact Option.some_ne_none id
  obtain ⟨context, hcontext⟩ := Option.ne_none_iff_exists'.1 (hbound hopen)
  have hedit := hok (hid.trans hother.1) (hmodified.trans (by simpa using hedited))
    (hsequence.trans hother.2) context hcontext
  simp only [hcontext]
  generalize k.requestEdit context env (fun c d => c.finishEdit d env false) = r at hedit
  obtain ⟨k₁, ran⟩ := r
  subst hedit
  exact ⟨by rw [hother.2], rfl, rfl, rfl, rfl⟩

theorem cancel_simulated (h : Simulates ⟨m, k⟩) :
    (k.cancel env id).2 = (m.handleCommand (.cancel id)).2 ∧
    Simulates ⟨(m.handleCommand (.cancel id)).1, (k.cancel env id).1⟩ := by
  have hid : k.composition.sessionId = m.sessionId := h.sessionId
  simp only [TipSessionModel.handleCommand]
  rw [Controller.cancel, TipSessionModel.cancel, hid]
  by_cases hother : m.sessionId ≠ some id
  · rw [if_pos hother, if_pos hother]
    exact ⟨rfl, h⟩
  · rw [if_neg hother, if_neg hother]
    exact ⟨rfl, rfl, rfl, rfl, rfl⟩

theorem query_simulated (h : Simulates ⟨m, k⟩) :
    k.query id = (m.handleCommand (.query id)).2 := by
  have hid : k.composition.sessionId = m.sessionId := h.sessionId
  have hsequence : k.composition.sequence = m.sequence := h.sequence
  have hmodified : k.composition.targetModified = m.targetModified := h.targetModified
  simp only [TipSessionModel.handleCommand]
  rw [Controller.query, hid, hmodified, hsequence, ite_not]

/-- A command that succeeds is answered alike, and both end alike. -/
theorem command_simulated {command : TipCommand} (h : Simulates ⟨m, k⟩) (hbound : k.Bound)
    (hok : Succeeds k env command) :
    (k.handleCommand env again command).2 = (m.handleCommand command).2 ∧
    Simulates ⟨(m.handleCommand command).1, (k.handleCommand env again command).1⟩ := by
  cases command with
  | begin id n text attach => exact begin_simulated h hok
  | update id n text => exact update_simulated h hok
  | finish id n => exact finish_simulated h hbound hok
  | cancel id => exact cancel_simulated h
  | query id => exact ⟨query_simulated h, h⟩

/-- A composition that ends while no request of the text service runs stops the session on
both sides; one that a request ends stops it on neither. -/
theorem terminated_simulated {k' : Controller} (within : Bool) (h : Simulates ⟨m, k⟩)
    (hk : k.step (.terminated within) = some k') :
    Simulates ⟨if within then m.endComposition else m.terminate, k'⟩ := by
  have hid : k.composition.sessionId = m.sessionId := h.sessionId
  have hsequence : k.composition.sequence = m.sequence := h.sequence
  have htext : k.composition.text = m.text := h.text
  have hmodified : k.composition.targetModified = m.targetModified := h.targetModified
  have hk' : (k.during within fun k =>
      { k with composition := k.composition.compositionTerminated }) = k' := Option.some.inj hk
  subst hk'
  cases within with
  | true => exact ⟨hid, hsequence, htext, hmodified⟩
  | false => exact ⟨hid, hsequence, htext, rfl⟩

/-- What carries the simulation: an open session of the controller knows its context. -/
structure Inv (w : ModelRun) : Prop where
  simulates : Simulates w
  bound : w.controller.Bound

theorem inv_init : Inv {} :=
  ⟨⟨rfl, rfl, rfl, rfl⟩, fun hopen => absurd rfl hopen⟩

theorem step_simulated {e : Event} (h : Inv w) (hok : Cooperates w e)
    (hs : step w e = some w') : Inv w' ∧ Agrees w e := by
  cases e with
  | command command env again =>
    have hw : ModelRun.mk (w.model.handleCommand command).1
        (w.controller.handleCommand env again command).1 = w' := Option.some.inj hs
    subst hw
    obtain ⟨hagree, hsimulates⟩ : (w.controller.handleCommand env again command).2 =
        (w.model.handleCommand command).2 ∧ Simulates ⟨(w.model.handleCommand command).1,
          (w.controller.handleCommand env again command).1⟩ :=
      command_simulated h.simulates h.bound hok
    have hbound : (w.controller.handleCommand env again command).1.Bound :=
      Controller.step_bound (e := .command command env again) h.bound rfl
    exact ⟨⟨hsimulates, hbound⟩, hagree⟩
  | terminated within =>
    simp only [step, Option.map_eq_some_iff] at hs
    obtain ⟨k', hk, hw⟩ := hs
    subst hw
    have hsimulates := terminated_simulated within h.simulates hk
    exact ⟨⟨hsimulates, Controller.step_bound h.bound hk⟩, trivial⟩

/-- Over every run of commands and ends of compositions in which TSF does what it is asked,
the controller and the model hold the same session and give the same answers. -/
theorem controller_refines_model (es : List Event) (h : Machine.Along step Cooperates {} es) :
    Machine.Always step Simulates {} es ∧ Machine.Along step Agrees {} es := by
  constructor
  · apply Machine.always_of_along Inv es inv_init inv_init.simulates ?_ h
    intro w e w' hw hok hs
    have hinv := (step_simulated hw hok hs).1
    exact ⟨hinv, hinv.simulates⟩
  · apply h.of_invariant Inv es inv_init
    intro w e w' hw hok hs
    exact step_simulated hw hok hs

/-- Two updates reach the composition, the session finishes, and the next one is stopped. -/
theorem session_lifecycle_agrees :
    let es : List Event := [.command (.begin "a" 1 "h" false) {} {},
      .command (.update "a" 2 "hi") {} {}, .command (.update "a" 3 "his") {} {},
      .command (.finish "a" 3) {} {}, .command (.begin "b" 1 "x" false) {} {},
      .command (.begin "c" 1 "y" false) {} {}, .terminated false, .command (.query "b") {} {}]
    Machine.Always step Simulates {} es ∧ Machine.Along step Agrees {} es :=
  controller_refines_model _
    ⟨fun _ => ⟨0, _, rfl, rfl, by decide⟩, fun _ _ _ => ⟨0, rfl, by decide⟩,
      fun _ _ _ => ⟨0, rfl, by decide⟩,
      fun _ _ _ context hcontext => by cases hcontext; decide,
      fun _ => ⟨0, _, rfl, rfl, by decide⟩, fun h => absurd h (by decide), trivial, trivial,
      trivial⟩

/-- The focused context refuses only the subscription to its edits. The edit request of this
Begin, a forced finish, succeeds; the session opens on the side of the model alone. -/
theorem unsubscribed_begin_differs :
    let env : TsfEnv := { advised := false }
    let k : Controller := {}
    let m : TipSessionModel := {}
    let command : TipCommand := .begin "a" 1 "h" false
    env.focused = some 0 ∧
      (k.requestEdit 0 env fun c d => c.finishEdit d env true).2 = true ∧
      (k.handleCommand env env command).2 = .editRejected ∧
      (m.handleCommand command).2 = .begun "a" ∧
      (k.handleCommand env env command).1.composition.sessionId = none ∧
      (m.handleCommand command).1.sessionId = some "a" := by
  decide

end ModelRun
end FlowType
