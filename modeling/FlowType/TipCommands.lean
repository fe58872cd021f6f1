import FlowType.EditSessions

/-! What the commands of the injector and the notifications of TSF do to a session of
the text service, and to the documents. -/
namespace FlowType

namespace Controller

open CompositionState (Follows)

variable {k k' : Controller} {context : Nat} {env again : TsfEnv}
  {edit : CompositionState → Document → Edited}

inductive Moves (k k' : Controller) : TipCommand → TipResponse → Prop
  | cleared {command : TipCommand} {response : TipResponse}
      (empty : k'.composition = {}) (sessions : k.sessions ≤ k'.sessions) :
      Moves k k' command response
  | kept {command : TipCommand} {response : TipResponse}
      (follows : Follows k.composition k'.composition) (sessions : k'.sessions = k.sessions)
      (acknowledged : ∀ id id' n text, command = .update id n text →
        response = .applied id' n → k.composition.text = text) :
      Moves k k' command response
  | updated {c : CompositionState} {id : String} {n : Int} {text : String}
      (follows : Follows k.composition c) (applied : k'.composition = c.applied n text)
      (sessions : k'.sessions = k.sessions) :
      Moves k k' (.update id n text) (.applied id n)
  | begun {c : CompositionState} {id : String} {n : Int} {text : String} {attach : Bool}
      (idle : k.composition.sessionId = none) (opened : c.sessionId = some id)
      (bound : c.context ≠ none) (unmodified : c.targetModified = false) (settled : c.Settled)
      (applied : k'.composition = c.applied n text) (sessions : k'.sessions = k.sessions + 1) :
      Moves k k' (.begin id n text attach) (.begun id)

theorem Moves.same {command : TipCommand} {response : TipResponse}
    (hack : ∀ id id' n text, command = .update id n text → response = .applied id' n →
      k.composition.text = text) : Moves k k command response :=
  .kept (Follows.refl _) rfl hack

/-- A session that has just been started. -/
structure Fresh (k k₁ : Controller) (id : String) (context : Nat) : Prop where
  sessionId : k₁.composition.sessionId = some id
  context : k₁.composition.context = some context
  unmodified : k₁.composition.targetModified = false
  sessions : k₁.sessions = k.sessions + 1
  documents : k₁.documents = k.documents
  asynchronous : k₁.asynchronous = k.asynchronous

theorem startSession_fresh {k₁ : Controller} {id : String}
    (h : k.startSession id context env = some k₁) : Fresh k k₁ id context := by
  unfold startSession at h
  split_ifs at h
  cases h
  exact ⟨rfl, rfl, rfl, rfl, rfl, rfl⟩

/-- The edit session of a Begin that goes through. -/
theorem begin_edited {k₁ k₂ : Controller} {text : String} {attach : Bool}
    (h : (k₁.requestEdit context env fun c d => c.beginEdit d env text attach) = (k₂, true)) :
    Follows k₁.composition k₂.composition ∧
      k₂.composition.targetModified = k₁.composition.targetModified ∧
      k₂.composition.Settled := by
  have hfollows := requestEdit_follows k₁ context env
    fun c d => Follows.beginEdit c d env text attach
  have hmodified := requestEdit_targetModified k₁ context env
    fun c d => CompositionState.beginEdit_targetModified c d env text attach
  have hok := requestEdit_ok (congrArg Prod.snd h)
  have hsettled := CompositionState.beginEdit_settled _ _ _ _ _ hok.2
  have hstate : (k₁.requestEdit context env fun c d => c.beginEdit d env text attach).1 = _ :=
    congrArg Prod.fst (requestEdit_locked hok.1)
  simp only [h] at hfollows hmodified hstate
  refine ⟨hfollows, hmodified, ?_⟩
  rw [hstate]
  exact hsettled

theorem begin_moves (id : String) (n : Int) (text : String) (attach : Bool) :
    Moves k (k.begin env again id n text attach).1 (.begin id n text attach)
      (k.begin env again id n text attach).2 := by
  have hsame (response : TipResponse) : Moves k k (.begin id n text attach) response :=
    Moves.same fun _ _ _ _ h => by cases h
  unfold begin
  split_ifs with h1 hmodified h2
  · exact hsame _
  · exact hsame _
  · exact hsame _
  · have hidle : k.composition.sessionId = none := by simpa using h2
    split
    · exact hsame _
    · next context _ =>
      split
      · exact .cleared rfl (by simp [clear, forceFinish])
      · next k₁ hstart =>
        have hfresh := startSession_fresh hstart
        split
        · next k₂ hedit =>
          -- a failed Begin clears the session that it has just opened
          have hsessions : k₂.sessions = k₁.sessions := by
            rw [← requestEdit_sessions k₁, hedit]
          refine .cleared rfl ?_
          simp only [clear, forceFinish, requestEdit_sessions]
          rw [hsessions, hfresh.sessions]
          exact Nat.le_succ _
        · next k₂ hedit =>
          have hsessions : k₂.sessions = k₁.sessions := by
            rw [← requestEdit_sessions k₁, hedit]
          obtain ⟨hfollows, hmodified, hsettled⟩ := begin_edited hedit
          have hbound : k₂.composition.context ≠ none := by
            rw [hfollows.context, hfresh.context]
            exact Option.some_ne_none _
          exact .begun hidle (hfollows.sessionId.trans hfresh.sessionId) hbound
            (hmodified.trans hfresh.unmodified) hsettled rfl (hsessions.trans hfresh.sessions)

theorem update_moves (id : String) (n : Int) (text : String) :
    Moves k (k.update env id n text).1 (.update id n text) (k.update env id n text).2 := by
  have hrejected (response : TipResponse) (h : ∀ id' n', response ≠ .applied id' n') :
      Moves k k (.update id n text) response :=
    Moves.same fun _ _ _ _ _ hr => absurd hr (h _ _)
  unfold update
  split_ifs with h1 h2 h3 h4 h5
  · exact hrejected _ (by simp)
  · exact hrejected _ (by simp)
  · -- an older sequence is answered with the newer one
    refine Moves.same fun id₁ id' n' text' hc hr => ?_
    cases hc
    cases hr
    omega
  · refine Moves.same fun id₁ id' n' text' hc _ => ?_
    cases hc
    exact h5
  · exact hrejected _ (by simp)
  · split
    · exact hrejected _ (by simp)
    · next context _ =>
      have hfollows := requestEdit_follows k context env
        fun c d => Follows.updateEdit c d env text
      have hsessions := requestEdit_sessions k context env
        (fun c d => c.updateEdit d env text)
      split
      · next k₁ hedit =>
        rw [hedit] at hfollows hsessions
        refine .kept hfollows hsessions fun _ _ _ _ _ hr => ?_
        split_ifs at hr
      · next k₁ hedit =>
        rw [hedit] at hfollows hsessions
        exact .updated hfollows rfl hsessions

theorem finish_moves (id : String) (n : Int) :
    Moves k (k.finish env id n).1 (.finish id n) (k.finish env id n).2 := by
  have hsame (response : TipResponse) : Moves k k (.finish id n) response :=
    Moves.same fun _ _ _ _ h => by cases h
  unfold finish
  split_ifs
  · exact hsame _
  · exact hsame _
  · split
    · exact hsame _
    · next context _ =>
      have hfollows := requestEdit_follows k context env
        fun c d => Follows.finishEdit c d env false
      have hsessions := requestEdit_sessions k context env
        (fun c d => c.finishEdit d env false)
      split
      · next k₁ hedit =>
        rw [hedit] at hfollows hsessions
        exact .kept hfollows hsessions fun _ _ _ _ h => by cases h
      · next k₁ hedit =>
        rw [hedit] at hsessions
        exact .cleared rfl hsessions.ge

@[simp] theorem endComposition_sessions : (k.endComposition env).sessions = k.sessions := by
  unfold endComposition forceFinish
  split
  · rfl
  · split <;> simp

theorem cancel_moves (id : String) :
    Moves k (k.cancel env id).1 (.cancel id) (k.cancel env id).2 := by
  unfold cancel
  split_ifs
  · exact Moves.same fun _ _ _ _ h => by cases h
  · exact .cleared rfl (by simp [clear])

theorem handleCommand_moves (command : TipCommand) :
    Moves k (k.handleCommand env again command).1 command
      (k.handleCommand env again command).2 := by
  cases command with
  | begin id n text attach => exact begin_moves id n text attach
  | update id n text => exact update_moves id n text
  | finish id n => exact finish_moves id n
  | cancel id => exact cancel_moves id
  | query id => exact Moves.same fun _ _ _ _ h => by cases h

/-- A command keeps the state of the composition settled. -/
theorem Moves.settled {command : TipCommand} {response : TipResponse}
    (h : Moves k k' command response) (hsettled : k.composition.Settled) :
    k'.composition.Settled := by
  cases h with
  | cleared hempty _ =>
    rw [hempty]
    exact fun hterminated => absurd hterminated Bool.false_ne_true
  | kept hfollows _ _ => exact hfollows.settled hsettled
  | updated hfollows happlied _ =>
    rw [happlied]
    exact hfollows.settled hsettled
  | begun _ _ _ _ hopened happlied _ =>
    rw [happlied]
    exact hopened

/-- The range and the caret of the session are as expected. -/
def Expects (k : Controller) (context : Nat) (range : Span) : Prop :=
  k.composition.context = some context ∧ k.composition.range = some range ∧
    k.composition.Expected (k.documents context) range

/-- The text of `range` is replaced, and no other text changes. -/
def Replaces (k : Controller) (context : Nat) (range : Span) (text : String)
    (documents : Nat → Document) : Prop :=
  ∀ c, (documents c).text =
    if c = context then ((k.documents c).replace range (encodeUtf16 text)).text
    else (k.documents c).text

theorem activeFocusedContext_some (h : k.activeFocusedContext env = some context) :
    k.composition.context = some context :=
  of_decide_eq_true (Option.filter_eq_some_iff.mp h).2

/-- An update leaves the documents alone and acknowledges nothing new, or it replaces
a range that is as expected. -/
theorem update_documents (k : Controller) (env : TsfEnv) (id : String) (n : Int)
    (text : String) :
    ((k.update env id n text).1.documents = k.documents ∧
      ∀ id' n', (k.update env id n text).2 = .applied id' n' → n' = k.composition.sequence) ∨
    k.composition.sessionId = some id ∧ ∃ context range, k.Expects context range ∧
      k.Replaces context range text (k.update env id n text).1.documents := by
  unfold update
  split_ifs with h1 h2 h3 h4 h5
  · exact Or.inl ⟨rfl, fun _ _ h => by cases h⟩
  · exact Or.inl ⟨rfl, fun _ _ h => by cases h⟩
  · exact Or.inl ⟨rfl, fun _ _ h => by cases h; rfl⟩
  · exact Or.inl ⟨rfl, fun _ _ h => by cases h; exact h4⟩
  · exact Or.inl ⟨rfl, fun _ _ h => by cases h⟩
  · split
    · exact Or.inl ⟨rfl, fun _ _ h => by cases h⟩
    · next context hfocus =>
      have hcontext := activeFocusedContext_some hfocus
      rcases CompositionState.updateEdit_document
          { k.composition with applyingRemoteEdit := true } (k.documents context) env text with
        ⟨hkept, hfailed⟩ | ⟨range, hrange, hexpected, hreplaced⟩
      · -- the edit session has failed before it wrote
        have hdocuments := requestEdit_documents k context env
          (fun c d => c.updateEdit d env text) hkept
        split
        · next k₁ hedit =>
          rw [hedit] at hdocuments
          refine Or.inl ⟨hdocuments, fun _ _ h => ?_⟩
          split_ifs at h
        · next k₁ hedit =>
          have hok := (requestEdit_ok (congrArg Prod.snd hedit)).2
          exact absurd (hfailed.symm.trans hok) Bool.false_ne_true
      · cases hlocked : env.locked with
        | false =>
          rw [requestEdit_rejected hlocked]
          refine Or.inl ⟨rfl, fun _ _ h => ?_⟩
          simp only at h
          split_ifs at h
        | true =>
          have hreplaces : k.Replaces context range text
              (k.setDocument context
                (k.doEdit context fun c d => c.updateEdit d env text).document).documents := by
            intro c
            by_cases hc : c = context
            · subst hc
              simp only [setDocument, Function.update_self, if_true]
              exact hreplaced
            · simp [setDocument, hc]
          have hid : k.composition.sessionId = some id := not_not.mp h1
          refine Or.inr ⟨hid, context, range,
            ⟨hcontext, hrange, ⟨hexpected.text, hexpected.caret⟩⟩, ?_⟩
          rw [requestEdit_locked hlocked]
          split
          all_goals
            next k₁ hedit =>
            have hk := congrArg Prod.fst hedit
            subst hk
            exact hreplaces

theorem finish_documents (k : Controller) (env : TsfEnv) (id : String) (n : Int) :
    (k.finish env id n).1.documents = k.documents := by
  unfold finish
  split_ifs
  · rfl
  · rfl
  · split
    · rfl
    · next context _ =>
      have hdocuments := requestEdit_documents k context env
        (fun c d => c.finishEdit d env false)
        (CompositionState.finishEdit_document _ _ _ _)
      split
      · next k₁ hedit => rwa [hedit] at hdocuments
      · next k₁ hedit => rwa [hedit] at hdocuments

/-- A Finish is acknowledged only for a range and a caret that are as expected. -/
theorem finish_finished {id id' : String} {n n' : Int}
    (h : (k.finish env id n).2 = .finished id' n') :
    k.composition.sessionId = some id ∧ ∃ context range, k.Expects context range := by
  unfold finish at h
  split_ifs at h with h1
  have hid : k.composition.sessionId = some id := by
    by_contra hne
    exact h1 (Or.inl hne)
  split at h
  · cases h
  · next context hcontext =>
    split at h
    · cases h
    · next k₁ hedit =>
      obtain ⟨range, hrange, hexpected⟩ :=
        CompositionState.finishEdit_ok (requestEdit_ok (congrArg Prod.snd hedit)).2
      exact ⟨hid, context, range, hcontext, hrange, ⟨hexpected.text, hexpected.caret⟩⟩

/-- What a session answers once its target was modified. -/
def Refused (response : TipResponse) : Prop :=
  response = .sessionMismatch ∨ response = .compositionTerminated

variable (env) in
theorem update_modified (h : k.composition.targetModified = true) (id : String) (n : Int)
    (text : String) :
    (k.update env id n text).1 = k ∧ Refused (k.update env id n text).2 := by
  unfold update
  split_ifs
  · exact ⟨rfl, Or.inl rfl⟩
  · exact ⟨rfl, Or.inr rfl⟩

variable (env) in
theorem finish_modified (h : k.composition.targetModified = true) (id : String) (n : Int) :
    (k.finish env id n).1 = k ∧ Refused (k.finish env id n).2 := by
  unfold finish
  split_ifs
  · exact ⟨rfl, Or.inl rfl⟩
  · exact ⟨rfl, Or.inr rfl⟩

theorem during_follows (within : Bool) {notify : Controller → Controller}
    (h : ∀ k, Follows k.composition (notify k).composition) :
    Follows k.composition (k.during within notify).composition := by
  unfold during
  have hbefore := Follows.applying k.composition within
  have hnotify := h { k with composition := { k.composition with applyingRemoteEdit := within } }
  exact (hbefore.trans hnotify).trans (Follows.applying _ false)

theorem onEndEdit_follows : Follows k.composition (k.onEndEdit context env).composition := by
  unfold onEndEdit
  dsimp only
  split_ifs
  · exact Follows.refl _
  · exact Follows.refl _
  · exact Follows.marked _
  · exact Follows.marked _

theorem onEndEdit_sessions : (k.onEndEdit context env).sessions = k.sessions := by
  unfold onEndEdit
  dsimp only
  split_ifs <;> rfl

theorem edit_follows (document : Document) (range : Span) :
    Follows k.composition (k.edit context document range).composition :=
  Follows.moved _ _

theorem granted_composition (entry : AsyncEdit) :
    (k.granted entry env).composition =
      (k.composition.finishEdit (k.documents entry.context) env true).state := rfl

theorem foreign_follows (document : Document) (range : Span) (within : Bool)
    (h : k.step (.foreign context document range within env) = some k') :
    Follows k.composition k'.composition ∧ k'.sessions = k.sessions := by
  cases h
  split_ifs
  · exact ⟨(edit_follows document range).trans (during_follows within fun _ => onEndEdit_follows),
      onEndEdit_sessions⟩
  · exact ⟨edit_follows document range, rfl⟩

/-- What an event that is no command can do to the session. -/
theorem step_follows {e : Event} (hcommand : ∀ command env again, e ≠ .command command env again)
    (h : k.step e = some k') :
    (k'.composition = {} ∨ Follows k.composition k'.composition) ∧
      k'.sessions = k.sessions := by
  cases e with
  | command command env again => exact absurd rfl (hcommand command env again)
  | deactivate env =>
    cases h
    exact ⟨Or.inl rfl, by simp [deactivate, clear]⟩
  | foreign context document range within env =>
    obtain ⟨hfollows, hsessions⟩ := foreign_follows document range within h
    exact ⟨Or.inr hfollows, hsessions⟩
  | terminated within =>
    cases h
    exact ⟨Or.inr (during_follows within fun _ => Follows.compositionTerminated _), rfl⟩
  | grant index env =>
    obtain ⟨entry, -, hk⟩ := Option.map_eq_some_iff.mp h
    subst hk
    exact ⟨Or.inr (Follows.finishEdit _ _ _ _), rfl⟩
  | drop index =>
    cases h
    exact ⟨Or.inr (Follows.refl _), rfl⟩

/-- `OnEndEdit` finds a divergence, or range and caret are as expected. -/
theorem onEndEdit_detects {range : Span} (hopen : k.composition.sessionId ≠ none)
    (hcontext : k.composition.context = some context) (hrange : k.composition.range = some range)
    (hflag : k.composition.applyingRemoteEdit = false)
    (hactive : k.composition.terminated = false) (hreadable : env.readable = true) :
    (k.onEndEdit context env).composition.targetModified = true ∨
      (k.onEndEdit context env).Expects context range := by
  have hstate : k.composition.matchesExpectedEditState (k.documents context) env =
      some (k.composition.matchesExpectedRange (k.documents context) range) := by
    simp [CompositionState.matchesExpectedEditState, hreadable, hrange]
  unfold onEndEdit
  simp only [hopen, hflag, hactive, hstate, false_or, Bool.false_eq_true]
  by_cases hmodified : k.composition.targetModified = true
  · simp only [hmodified, if_true]
    exact Or.inl trivial
  · cases hmatch : k.composition.matchesExpectedRange (k.documents context) range with
    | true =>
      have hexpected := (CompositionState.matchesExpectedRange_iff _ _ _).mp hmatch
      simp only [hmodified]
      exact Or.inr ⟨hcontext, hrange, hexpected⟩
    | false =>
      simp only [hmodified, Bool.false_eq_true, ne_eq, not_true_eq_false, if_false]
      left
      split <;> rfl

/-- While the edit sink is advised, no reported edit of the session's document goes
unnoticed. -/
theorem foreign_detected {document : Document} {range : Span}
    (hopen : k.composition.sessionId ≠ none) (hsink : k.composition.editSink = some context)
    (hcontext : k.composition.context = some context) (hrange : k.composition.range ≠ none)
    (hactive : k.composition.terminated = false) (hreadable : env.readable = true)
    (h : k.step (.foreign context document range false env) = some k') :
    k'.composition.targetModified = true ∨ k'.Expects context range := by
  obtain ⟨tracked, htracked⟩ := Option.ne_none_iff_exists'.mp hrange
  have hmoved : (k.edit context document range).composition.range = some range := by
    simp [edit, hcontext, htracked]
  cases h
  simp only [hsink, if_true]
  have hflagged := onEndEdit_detects
    (k := { k.edit context document range with composition :=
      { (k.edit context document range).composition with applyingRemoteEdit := false } })
    hopen hcontext hmoved rfl hactive hreadable
  rcases hflagged with hmodified | ⟨hctx, hrng, hexpected⟩
  · exact Or.inl hmodified
  · exact Or.inr ⟨hctx, hrng, ⟨hexpected.text, hexpected.caret⟩⟩

end Controller

end FlowType
