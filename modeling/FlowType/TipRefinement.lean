import FlowType.TipCommands

/-! The text service refines the composition that the injector's side is verified
against: every command has an environment under which the composition gives the same
answer, and whatever else happens to a session is an edit by somebody else or its
end. -/
namespace FlowType

namespace Controller

open CompositionState (Follows)

/-- What the injector's side sees of a text service. Without a session nothing of it
matters. -/
def view (k : Controller) : Composition :=
  if k.composition.sessionId = none then {}
  else ⟨k.composition.sessionId, k.composition.sequence, k.composition.text,
    k.composition.targetModified⟩

variable {k k' : Controller} {env again : TsfEnv}

theorem view_open {id : String} (h : k.composition.sessionId = some id) :
    k.view = ⟨some id, k.composition.sequence, k.composition.text,
      k.composition.targetModified⟩ := by
  simp [view, h]

theorem view_idle (h : k.composition.sessionId = none) : k.view = {} := if_pos h

@[simp] theorem view_sessionId : k.view.sessionId = k.composition.sessionId := by
  unfold view
  split_ifs with h
  · exact h.symm
  · rfl

theorem view_clear : k.clear.view = {} := rfl

/-- A session that goes on shows what was applied, and a modified target for good. -/
theorem view_follows (h : Follows k.composition k'.composition) :
    k'.view = k.view ∨
      k.composition.sessionId ≠ none ∧ k'.view = { k.view with targetModified := true } := by
  cases hid : k.composition.sessionId with
  | none => exact Or.inl ((view_idle (h.sessionId.trans hid)).trans (view_idle hid).symm)
  | some id =>
    have hid' : k'.composition.sessionId = some id := h.sessionId.trans hid
    rw [view_open hid, view_open hid', h.sequence, h.text]
    cases hmodified : k.composition.targetModified with
    | true =>
      rw [h.modified hmodified]
      exact Or.inl rfl
    | false =>
      cases k'.composition.targetModified with
      | true => exact Or.inr ⟨Option.some_ne_none id, rfl⟩
      | false => exact Or.inl rfl

/-- What is not a command shows as an edit by somebody else, as the end of the session
or not at all. -/
theorem step_view {e : Event} (hcommand : ∀ command env again, e ≠ .command command env again)
    (h : k.step e = some k') :
    k'.view = k.view ∨ k'.view = {} ∨
      k.composition.sessionId ≠ none ∧ k'.view = { k.view with targetModified := true } := by
  rcases (step_follows hcommand h).1 with hcleared | hfollows
  · exact Or.inr (Or.inl (view_idle (congrArg CompositionState.sessionId hcleared)))
  · rcases view_follows hfollows with hsame | hmodified
    · exact Or.inl hsame
    · exact Or.inr (Or.inr hmodified)

/-- The environment of the composition for what TSF answered; `result` is the outcome
of the edit session. -/
def editEnv (k : Controller) (env : TsfEnv) (result : EditResult) : EditEnv where
  focused := env.focused.isSome
  sameContext := (k.activeFocusedContext env).isSome
  advised := k.composition.editSink.isSome || env.advised
  suffixFound := false
  edit := result

def Bound (k : Controller) : Prop :=
  k.composition.sessionId ≠ none → k.composition.context ≠ none

theorem startSession_none {id : String} {context : Nat}
    (h : k.startSession id context env = none) :
    k.composition.editSink = none ∧ env.advised = false := by
  unfold startSession at h
  split_ifs at h with hsink
  exact hsink

theorem startSession_advised {k₁ : Controller} {id : String} {context : Nat}
    (h : k.startSession id context env = some k₁) :
    ¬ (k.composition.editSink = none ∧ env.advised = false) := by
  unfold startSession at h
  split_ifs at h with hsink
  exact hsink

def Answers (k : Controller) (command : TipCommand) (r : Controller × TipResponse)
    (result : EditResult) (env : TsfEnv) : Prop :=
  (k.view.handleCommand (k.editEnv env result) command).composition = r.1.view ∧
    (k.view.handleCommand (k.editEnv env result) command).response = r.2

theorem begin_refines (id : String) (n : Int) (text : String) (attach : Bool) :
    ∃ result, k.Answers (.begin id n text attach) (k.begin env again id n text attach)
      result env := by
  by_cases hopen : k.composition.sessionId = none
  · -- a fresh Begin: the outcome of its edit session decides
    have hview := view_idle hopen
    cases hfocus : env.focused with
    | none =>
      refine ⟨.done, ?_⟩
      simp [Answers, begin, hopen, hview, Composition.handleCommand, Composition.begin, editEnv,
        hfocus]
    | some context =>
      cases hstart : k.startSession id context env with
      | none =>
        refine ⟨.done, ?_⟩
        have hadvised := startSession_none hstart
        simp [Answers, begin, hopen, hview, Composition.handleCommand, Composition.begin, editEnv,
          hfocus, hstart, hadvised, view_clear]
      | some k₁ =>
        have hfresh := startSession_fresh hstart
        have hadvised := startSession_advised hstart
        cases hedit : k₁.requestEdit context env fun c d => c.beginEdit d env text attach with
        | mk k₂ ok =>
          cases ok with
          | false =>
            refine ⟨.failed true false, ?_⟩
            simp [Answers, begin, hopen, hview, Composition.handleCommand, Composition.begin,
              editEnv, hfocus, hstart, hadvised, hedit, view_clear]
          | true =>
            obtain ⟨hfollows, hmodified, -⟩ := begin_edited hedit
            have hid : k₂.composition.sessionId = some id :=
              hfollows.sessionId.trans hfresh.sessionId
            refine ⟨.done, ?_⟩
            simp [Answers, begin, hopen, Composition.handleCommand, Composition.begin, editEnv,
              hfocus, hstart, hadvised, hedit, view, CompositionState.applied, hid, hmodified,
              hfresh.unmodified]
  · refine ⟨.done, ?_⟩
    obtain ⟨id', hid⟩ := Option.ne_none_iff_exists'.mp hopen
    simp only [Answers, begin, Composition.handleCommand, Composition.begin, view_open hid, hid]
    by_cases hsame : id' = id
    · subst hsame
      cases hmodified : k.composition.targetModified <;> simp [view_open hid, hmodified]
    · simp [hsame, view_open hid]

/-- An update that reaches its edit session. -/
theorem update_refines_edit {id : String} {n : Int} {text : String}
    (hopen : k.composition.sessionId = some id) (hmodified : k.composition.targetModified = false)
    (hnew : k.composition.sequence < n) :
    ∃ result, k.Answers (.update id n text) (k.update env id n text) result env := by
  have hview := view_open hopen
  have hlt : ¬ n < k.composition.sequence := by omega
  have hne : n ≠ k.composition.sequence := by omega
  cases hfocus : k.activeFocusedContext env with
  | none =>
    refine ⟨.done, ?_⟩
    simp [Answers, update, hopen, hmodified, hview, Composition.handleCommand,
      Composition.update, hlt, hne, hfocus, editEnv]
  | some context =>
    have hfocused : env.focused = some context := (Option.filter_eq_some_iff.mp hfocus).1
    have hfollows := requestEdit_follows k context env
      fun c d => Follows.updateEdit c d env text
    cases hedit : k.requestEdit context env fun c d => c.updateEdit d env text with
    | mk k₁ ok =>
      rw [hedit] at hfollows
      have hid : k₁.composition.sessionId = some id := hfollows.sessionId.trans hopen
      have hsequence : k₁.composition.sequence = k.composition.sequence := hfollows.sequence
      have htext : k₁.composition.text = k.composition.text := hfollows.text
      cases ok with
      | false =>
        refine ⟨.failed true k₁.composition.targetModified, ?_⟩
        simp [Answers, update, hopen, hmodified, hview, Composition.handleCommand,
          Composition.update, hlt, hne, hfocus, editEnv, hfocused, hedit, view_open hid,
          hsequence, htext]
      | true =>
        have hok := requestEdit_ok (congrArg Prod.snd hedit)
        have hstate : (k.requestEdit context env fun c d =>
            c.updateEdit d env text).1.composition.targetModified = _ :=
          congrArg (fun r => r.1.composition.targetModified) (requestEdit_locked hok.1)
        simp only [hedit] at hstate
        have hunmodified := hstate.trans (CompositionState.updateEdit_ok hok.2)
        refine ⟨.done, ?_⟩
        simp [Answers, update, hopen, hmodified, Composition.handleCommand, Composition.update,
          hlt, hne, hfocus, editEnv, hfocused, hedit, view, CompositionState.applied, hid,
          hunmodified]

theorem update_refines (id : String) (n : Int) (text : String) :
    ∃ result, k.Answers (.update id n text) (k.update env id n text) result env := by
  by_cases hopen : k.composition.sessionId = some id
  · have hview := view_open hopen
    cases hmodified : k.composition.targetModified with
    | true =>
      refine ⟨.done, ?_⟩
      simp [Answers, update, hopen, hmodified, hview, Composition.handleCommand,
        Composition.update]
    | false =>
      rcases lt_trichotomy n k.composition.sequence with hlt | heq | hgt
      · refine ⟨.done, ?_⟩
        simp [Answers, update, hopen, hmodified, hview, Composition.handleCommand,
          Composition.update, hlt]
      · refine ⟨.done, ?_⟩
        by_cases htext : k.composition.text = text <;>
          simp [Answers, update, hopen, hmodified, hview, Composition.handleCommand,
            Composition.update, heq, htext]
      · exact update_refines_edit hopen hmodified hgt
  · refine ⟨.done, ?_⟩
    simp [Answers, update, hopen, Composition.handleCommand, Composition.update]

theorem finish_refines (hbound : k.Bound) (id : String) (n : Int) :
    ∃ result, k.Answers (.finish id n) (k.finish env id n) result env := by
  by_cases hopen : k.composition.sessionId = some id ∧ k.composition.sequence = n
  · have hview := view_open hopen.1
    cases hmodified : k.composition.targetModified with
    | true =>
      refine ⟨.done, ?_⟩
      simp [Answers, finish, hopen.1, hopen.2, hmodified, hview, Composition.handleCommand,
        Composition.finish]
    | false =>
      have hne : k.composition.sessionId ≠ none := by simp [hopen.1]
      obtain ⟨context, hcontext⟩ := Option.ne_none_iff_exists'.mp (hbound hne)
      have hfollows := requestEdit_follows k context env
        fun c d => Follows.finishEdit c d env false
      have hkept := requestEdit_targetModified k context env
        fun c d => CompositionState.finishEdit_targetModified c d env false
      cases hedit : k.requestEdit context env fun c d => c.finishEdit d env false with
      | mk k₁ ok =>
        rw [hedit] at hfollows hkept
        have hid : k₁.composition.sessionId = some id := hfollows.sessionId.trans hopen.1
        have hsequence : k₁.composition.sequence = k.composition.sequence := hfollows.sequence
        have htext : k₁.composition.text = k.composition.text := hfollows.text
        have hunmodified : k₁.composition.targetModified = false := hkept.trans hmodified
        cases ok with
        | false =>
          refine ⟨.failed false false, ?_⟩
          simp [Answers, finish, hopen.1, hopen.2, hmodified, hview, Composition.handleCommand,
            Composition.finish, hcontext, editEnv, hedit, view_open hid, hsequence, htext,
            hunmodified]
        | true =>
          refine ⟨.done, ?_⟩
          simp [Answers, finish, hopen.1, hopen.2, hmodified, hview, Composition.handleCommand,
            Composition.finish, hcontext, editEnv, hedit, view_clear]
  · refine ⟨.done, ?_⟩
    have hrejected : k.composition.sessionId ≠ some id ∨ k.composition.sequence ≠ n := by tauto
    have hview : k.view.sessionId ≠ some id ∨ k.view.sequence ≠ n := by
      cases hid : k.composition.sessionId with
      | none => simp [hid]
      | some id' => simpa [view_open hid, hid] using hrejected
    rw [Answers, finish, if_pos hrejected, Composition.handleCommand, Composition.finish,
      if_pos hview]
    exact ⟨rfl, rfl⟩

theorem cancel_refines (id : String) :
    ∃ result, k.Answers (.cancel id) (k.cancel env id) result env := by
  refine ⟨.done, ?_⟩
  by_cases hopen : k.composition.sessionId = some id <;>
    simp [Answers, cancel, hopen, Composition.handleCommand, Composition.cancel, view_clear]

/-- Every command of the text service is one of the composition. -/
theorem handleCommand_refines (hbound : k.Bound) (command : TipCommand) :
    ∃ result, k.Answers command (k.handleCommand env again command) result env := by
  cases command with
  | begin id n text attach => exact begin_refines id n text attach
  | update id n text => exact update_refines id n text
  | finish id n => exact finish_refines hbound id n
  | cancel id => exact cancel_refines id
  | query id =>
    refine ⟨.done, ?_⟩
    by_cases hopen : k.composition.sessionId = some id
    · cases hmodified : k.composition.targetModified <;>
        simp [Answers, handleCommand, query, hopen, hmodified, Composition.handleCommand,
          Composition.query, view_open hopen]
    · simp [Answers, handleCommand, query, hopen, Composition.handleCommand, Composition.query]

theorem bound_follows (hbound : k.Bound) (h : Follows k.composition k'.composition) :
    k'.Bound := by
  intro hopen
  rw [h.sessionId] at hopen
  rw [h.context]
  exact hbound hopen

theorem bound_cleared (h : k'.composition = {}) : k'.Bound := by
  intro hopen
  rw [h] at hopen
  exact absurd rfl hopen

theorem Moves.bound {command : TipCommand} {response : TipResponse}
    (h : Moves k k' command response) (hbound : k.Bound) : k'.Bound := by
  cases h with
  | cleared hempty _ => exact bound_cleared hempty
  | kept hfollows _ _ => exact bound_follows hbound hfollows
  | @updated c _ _ _ hfollows happlied _ =>
    intro hopen
    rw [happlied] at hopen ⊢
    change c.context ≠ none
    rw [hfollows.context]
    apply hbound
    rw [← hfollows.sessionId]
    exact hopen
  | begun _ _ hcontext _ _ happlied _ =>
    intro _
    rw [happlied]
    exact hcontext

/-- In every state that a text service reaches, an open session knows its context. -/
theorem step_bound {e : Event} (hbound : k.Bound) (h : k.step e = some k') : k'.Bound := by
  by_cases hcommand : ∃ command env again, e = .command command env again
  · obtain ⟨command, env, again, rfl⟩ := hcommand
    cases h
    exact (handleCommand_moves command).bound hbound
  · have hother : ∀ command env again, e ≠ .command command env again :=
      fun command env again he => hcommand ⟨command, env, again, he⟩
    rcases (step_follows hother h).1 with hempty | hfollows
    · exact bound_cleared hempty
    · exact bound_follows hbound hfollows

/-- Along every run, each step of the text service is a command that the composition
answers alike, an edit by somebody else, the end of the session, or unseen. -/
def Refines (k k' : Controller) : Event → Prop
  | .command command env again =>
    k' = (k.handleCommand env again command).1 ∧
      ∃ result, k.Answers command (k.handleCommand env again command) result env
  | _ => k'.view = k.view ∨ k'.view = {} ∨
      k.composition.sessionId ≠ none ∧ k'.view = { k.view with targetModified := true }

theorem reach_refines {e : Event} (h : Machine.Reach step (fun _ _ => True) {} k)
    (he : k.step e = some k') : k.Refines k' e := by
  have hbound : k.Bound := h.invariant Bound (fun hopen => absurd rfl hopen)
    fun s e t hs _ ht => step_bound hs ht
  cases e with
  | command command env again =>
    exact ⟨(Option.some.inj he).symm, handleCommand_refines hbound command⟩
  | _ => exact step_view (by simp) he

end Controller

end FlowType
