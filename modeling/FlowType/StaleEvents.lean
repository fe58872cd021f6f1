import FlowType.CouplingRuns

/-! Handlers that run later than the message they are for was received: in between the user
may have left the session, the computer or its binding. -/
namespace FlowType

namespace FlowTypeController

structure Steady (s t : FlowTypeController) : Prop where
  posted : t.posted = s.posted
  regular : t.session.Regular

section Operations

variable {s t u : FlowTypeController}

theorem Steady.refl (h : s.session.Regular) : Steady s s := ⟨rfl, h⟩

theorem Steady.trans (h₁ : Steady s t) (h₂ : Steady t u) : Steady s u :=
  ⟨h₂.posted.trans h₁.posted, h₂.regular⟩

theorem saveDraftNow_steady (h : s.session.Regular) : Steady s s.saveDraftNow :=
  ⟨rfl, (same_saveDraftNow h).regular⟩

theorem resetFailedSession_steady (h : s.session.Regular) (out : Outside) :
    Steady s (s.resetFailedSession out) := by
  unfold resetFailedSession
  dsimp only
  constructor
  · split_ifs <;> rfl
  · split_ifs with hreset
    · exact InputSession.regular_resetForReplacement _ _
    · exact InputSession.regular_resetForReplacement _ _
    · exact h
    · exact h

theorem deliver_steady (h : s.session.Regular) (out : Outside) (snapshot : SnapshotMessage) :
    Steady s (s.deliver out snapshot) := by
  unfold deliver
  split
  · exact ⟨rfl, h⟩
  · exact ⟨rfl, h⟩

theorem restoreSessionFor_steady (h : s.session.Regular) {pcId : String}
    (ht : s.restoreSessionFor pcId = some t) : Steady s t := by
  obtain ⟨helse, -⟩ := restoreSessionFor_cases h ht
  exact ⟨helse.posted, helse.regular⟩

theorem switchToComputer_steady (h : s.session.Regular) {binding : ComputerBinding}
    (ht : s.switchToComputer binding = some t) : Steady s t := by
  obtain ⟨u, hu, rfl⟩ := Option.map_eq_some_iff.mp ht
  have hsaved := saveDraftNow_steady h
  have hrestored := restoreSessionFor_steady
    (s := { s.saveDraftNow with client := s.saveDraftNow.client.resetForTargetSelection })
    hsaved.regular hu
  exact ⟨hrestored.posted, hrestored.regular⟩

theorem failAutoSelection_steady (h : s.session.Regular) {fallback : Option ComputerBinding}
    (ht : s.failAutoSelection fallback = some t) : Steady s t := by
  unfold failAutoSelection at ht
  cases fallback with
  | none =>
    cases ht
    exact ⟨rfl, h⟩
  | some binding =>
    obtain ⟨u, hu, rfl⟩ := Option.map_eq_some_iff.mp ht
    have hrestored := restoreSessionFor_steady (s := { s with
      autoSelecting := false
      autoSelectionTargetPcId := none
      pendingAutoStart := none
      pendingAutoLatest := none }) h hu
    exact ⟨hrestored.posted, hrestored.regular⟩

theorem connectAutoSelected_steady (h : s.session.Regular) {binding : ComputerBinding}
    {connected : Bool} (ht : s.connectAutoSelected binding = some (t, connected)) :
    Steady s t := by
  obtain ⟨⟨sessions, activation⟩, hactivate, ht⟩ := Option.bind_eq_some_iff.mp ht
  cases activation with
  | conflict =>
    obtain ⟨rfl, -⟩ := automatic_conflict hactivate
    cases ht
    exact ⟨rfl, h⟩
  | activated parked =>
    obtain ⟨hregular, -⟩ := automatic_session h hactivate
    cases parked with
    | none =>
      cases ht
      have hcurrent : (sessions.saveCurrent false).current = sessions.current :=
        ComputerSessions.saveCurrent_current _ _
      refine ⟨rfl, ?_⟩
      change (sessions.saveCurrent false).current.Regular
      rw [hcurrent]
      exact hregular
    | some parked =>
      obtain ⟨u, hu, heq⟩ := Option.map_eq_some_iff.mp ht
      cases heq
      rcases restoreQueue_cases hu with ⟨-, rfl⟩ | ⟨client, m, rfl, -, -⟩
      · exact ⟨rfl, hregular⟩
      · exact ⟨rfl, hregular⟩

theorem onChosen_steady (h : s.session.Regular) {winner fallback : Option ComputerBinding}
    (ht : s.onChosen winner fallback = some t) : Steady s t := by
  unfold onChosen at ht
  split at ht
  · cases ht
    exact Steady.refl h
  · cases winner with
    | none => exact failAutoSelection_steady h ht
    | some binding =>
      obtain ⟨⟨u, connected⟩, hu, ht⟩ := Option.bind_eq_some_iff.mp ht
      have hconnected := connectAutoSelected_steady
        (s := { s with autoSelectionTargetPcId := some binding.pcId }) h hu
      have hsteady : Steady s u := ⟨hconnected.posted, hconnected.regular⟩
      cases connected with
      | true =>
        cases ht
        exact hsteady
      | false => exact hsteady.trans (failAutoSelection_steady hsteady.regular ht)

theorem beginAutoSelection_steady (h : s.session.Regular)
    (ht : s.beginAutoSelection = some t) : Steady s t := by
  unfold beginAutoSelection at ht
  split at ht
  · cases ht
    exact Steady.refl h
  · dsimp only at ht
    split at ht
    · exact failAutoSelection_steady h ht
    · have hregular : s.saveDraftNow.session.Regular := (saveDraftNow_steady h).regular
      split at ht
      · have hchosen := onChosen_steady (s := { { s with
          autoSelecting := true
          manualStartPending := false
          pendingAutoStart := none
          pendingAutoLatest := none
          autoSelectionTargetPcId := none }.saveDraftNow with
          client := s.client.resetForTargetSelection, probing := none }) hregular ht
        exact ⟨hchosen.posted, hchosen.regular⟩
      · cases ht
        exact ⟨rfl, hregular⟩

theorem beginIfAutomatic_steady (h : s.session.Regular) (ht : s.beginIfAutomatic = some t) :
    Steady s t := by
  unfold beginIfAutomatic at ht
  split at ht
  · exact beginAutoSelection_steady h ht
  · cases ht
    exact Steady.refl h

theorem regular_edited {session session' : InputSession} (h : session.Regular) {text newId : String}
    {startIfNeeded : Bool} {o : Option SnapshotMessage}
    (hedit : session.onTextChanged text startIfNeeded newId = some (session', o)) :
    session'.Regular := by
  have hacknowledged := h.acknowledged
  rcases InputSession.onTextChanged_spec hedit with ⟨-, rfl, -⟩ | ⟨-, -, rfl⟩ | ⟨hid, -, rfl⟩
  · exact ⟨hacknowledged, h.unfinished, h.unopened⟩
  · refine ⟨?_, h.unfinished, fun hnone => absurd hnone (Option.some_ne_none _)⟩
    dsimp only
    omega
  · refine ⟨?_, h.unfinished, fun hnone => absurd hnone hid⟩
    dsimp only
    omega

/-- A session whose start was refused is reset before it goes on. -/
theorem resetIfRefused_steady (h : s.session.Regular) (out : Outside) :
    Steady s (if s.session.sessionId ≠ none ∧ s.client.requiresExplicitStart then
      s.resetFailedSession out else s) := by
  split
  · exact resetFailedSession_steady h out
  · exact Steady.refl h

theorem textChanged_steady (h : s.session.Regular) {text : String} {out : Outside}
    (ht : s.textChanged text out = some t) : Steady s t := by
  have hreset := resetIfRefused_steady h out
  unfold textChanged at ht
  dsimp only at ht
  generalize (if s.session.sessionId ≠ none ∧ s.client.requiresExplicitStart then
    s.resetFailedSession out else s) = u at hreset ht
  obtain ⟨⟨session, o⟩, hedit, rfl⟩ := Option.map_eq_some_iff.mp ht
  have hretargeted : Steady s (if u.session.sessionId = none ∧ text ≠ "" then
      { u with targetState := none } else u) := by
    split
    · exact ⟨hreset.posted, hreset.regular⟩
    · exact hreset
  generalize (if u.session.sessionId = none ∧ text ≠ "" then
    { u with targetState := none } else u) = v at hretargeted hedit
  have hedited := regular_edited hretargeted.regular hedit
  cases o with
  | none => exact ⟨hretargeted.posted, hedited⟩
  | some snapshot =>
    have hdelivered := deliver_steady (s := v.withSession session) hedited out snapshot
    exact ⟨hdelivered.posted.trans hretargeted.posted, hdelivered.regular⟩

theorem clearCurrentInput_steady (h : s.session.Regular) {out : Outside}
    (ht : s.clearCurrentInput out = some t) : Steady s t := by
  unfold clearCurrentInput at ht
  split at ht
  · cases ht
    exact Steady.refl h
  · exact textChanged_steady h ht

theorem finish_steady (h : s.session.Regular) {out : Outside} (ht : s.finish out = some t) :
    Steady s t := by
  obtain ⟨⟨session, o⟩, hfinish, rfl⟩ := Option.map_eq_some_iff.mp ht
  rcases InputSession.finish_spec hfinish with ⟨-, rfl, rfl⟩ | ⟨id, hid, hsession, rfl⟩
  · exact Steady.refl h
  · have hne : s.session.sessionId ≠ none := by
      rw [hid]
      exact Option.some_ne_none id
    have hregular : session.Regular := by
      rw [hsession]
      exact h.finishing hne
    have hsaved := saveDraftNow_steady (s := s.withSession session) hregular
    exact ⟨(deliver_steady hsaved.regular out _).posted, (deliver_steady hsaved.regular out _).regular⟩

theorem abandonSyncAndFinish_steady (h : s.session.Regular) {out : Outside}
    (ht : s.abandonSyncAndFinish out = some t) : Steady s t := by
  unfold abandonSyncAndFinish at ht
  split at ht
  · cases ht
    exact Steady.refl h
  · have hbegun := beginIfAutomatic_steady (givenUp_inv s out).regular ht
    exact ⟨hbegun.posted, hbegun.regular⟩

theorem startNewSession_steady {out : Outside} (ht : s.startNewSession out = some t) :
    Steady s t := by
  unfold startNewSession at ht
  dsimp only at ht
  split at ht
  · have hbegun := beginIfAutomatic_steady (s := { s.clearAutoSelection with
      sessions := s.sessions.clearCurrent, manualStartPending := false, targetState := none })
      (InputSession.regular_reset _) ht
    exact ⟨hbegun.posted, hbegun.regular⟩
  · have hbegun := beginIfAutomatic_steady (s := { s.clearAutoSelection with
      client := s.clearAutoSelection.client.abandonSession out.linked
      sessions := s.sessions.prepareNewSession, manualStartPending := false, targetState := none })
      (givenUp_inv s out).regular ht
    exact ⟨hbegun.posted, hbegun.regular⟩

theorem regular_restarted {session session' : InputSession} {newId : String}
    {snapshots : List SnapshotMessage}
    (h : session.restartAtCurrentCursor newId = some (session', snapshots)) :
    session'.Regular := by
  have hreset := InputSession.regular_resetForReplacement session session.currentText
  rcases InputSession.restartAtCurrentCursor_spec h with
    ⟨-, rfl⟩ | ⟨start, opened, rfl, -, ⟨-, rfl⟩ | ⟨finish, hfinish, -⟩⟩
  · exact hreset
  · exact hreset.opened rfl _ _
  · rcases InputSession.finish_spec hfinish with ⟨hnone, -⟩ | ⟨id, -, hsession, -⟩
    · cases hnone
    · rw [hsession]
      exact (hreset.opened rfl newId true).finishing (Option.some_ne_none newId)

theorem syncToCurrentCursor_steady (h : s.session.Regular) {out : Outside}
    (ht : s.syncToCurrentCursor out = some t) : Steady s t := by
  unfold syncToCurrentCursor at ht
  split at ht
  · cases ht
    exact Steady.refl h
  · obtain ⟨⟨session, snapshots⟩, hrestart, rfl⟩ := Option.map_eq_some_iff.mp ht
    have hregular := regular_restarted hrestart
    dsimp only
    split
    · exact ⟨rfl, InputSession.regular_reset _⟩
    · refine ⟨rfl, ?_⟩
      rw [saveDraftNow_session]
      exact hregular

theorem syncFullText_steady (h : s.session.Regular) (out : Outside) :
    Steady s (s.syncFullText out) := by
  have hreset := resetIfRefused_steady h out
  unfold syncFullText
  dsimp only
  generalize (if s.session.sessionId ≠ none ∧ s.client.requiresExplicitStart then
    s.resetFailedSession out else s) = u at hreset
  rcases InputSession.startLocalDraft_spec u.session true out.newId with
    hsame | ⟨hid, -, hsession, hstart⟩
  · rw [hsame]
    exact ⟨hreset.posted, hreset.regular⟩
  · have hopened : (u.session.startLocalDraft true out.newId).1.sessionId ≠ none := by
      rw [hsession]
      exact Option.some_ne_none _
    obtain ⟨m, hm⟩ := InputSession.snapshot_isSome hopened .start
    rw [hstart, hm]
    refine ⟨hreset.posted, ?_⟩
    change (u.session.startLocalDraft true out.newId).1.Regular
    rw [hsession]
    exact hreset.regular.opened hid _ _

theorem sync_steady (h : s.session.Regular) {out : Outside} (ht : s.sync out = some t) :
    Steady s t := by
  unfold sync at ht
  split at ht
  · cases ht
    exact Steady.refl h
  · split at ht
    · cases ht
      exact syncFullText_steady h out
    · split at ht
      · exact syncToCurrentCursor_steady h ht
      · cases ht
        exact Steady.refl h

theorem replaceWithHistory_steady (h : s.session.Regular) {text : String}
    (ht : s.replaceWithHistory text = some t) : Steady s t := by
  unfold replaceWithHistory at ht
  split at ht
  · cases ht
    exact Steady.refl h
  · obtain ⟨session, hreplace, rfl⟩ := Option.map_eq_some_iff.mp ht
    unfold InputSession.replaceLocalDraft at hreplace
    split at hreplace
    · cases hreplace
    · cases hreplace
      have hregular : InputSession.Regular { s.session with currentText := text } :=
        ⟨h.acknowledged, h.unfinished, h.unopened⟩
      have hsaved := saveDraftNow_steady
        (s := s.withSession { s.session with currentText := text }) hregular
      exact ⟨rfl, hsaved.regular⟩

theorem setAutoSelectComputer_steady (h : s.session.Regular) {enabled : Bool}
    (ht : s.setAutoSelectComputer enabled = some t) : Steady s t := by
  unfold setAutoSelectComputer at ht
  split at ht
  · cases ht
    exact Steady.refl h
  · dsimp only at ht
    split at ht
    · have hbegun := beginAutoSelection_steady (s := { s with autoSelectComputer := enabled }) h ht
      exact ⟨hbegun.posted, hbegun.regular⟩
    · cases ht
      exact ⟨rfl, h⟩

theorem selectComputer_steady (h : s.session.Regular) {pcId : String}
    (ht : s.selectComputer pcId = some t) : Steady s t := by
  unfold selectComputer at ht
  split at ht
  · cases ht
    exact Steady.refl h
  · next binding hfind =>
    dsimp only at ht
    split at ht
    · cases ht
      exact ⟨rfl, h⟩
    · have hswitched := switchToComputer_steady (s := s.saveBinding binding) h ht
      exact ⟨hswitched.posted, hswitched.regular⟩

theorem fallBack_steady (h : s.session.Regular) (ht : s.fallBack = some t) : Steady s t := by
  unfold fallBack at ht
  split at ht
  · cases ht
    exact ⟨rfl, h⟩
  · obtain ⟨u, hu, rfl⟩ := Option.map_eq_some_iff.mp ht
    have hrestored := restoreSessionFor_steady
      (s := { s with client := s.client.resetForTargetSelection }) h hu
    exact ⟨hrestored.posted, hrestored.regular⟩

theorem unbindComputer_steady (h : s.session.Regular) {pcId : String} {out : Outside}
    (ht : s.unbindComputer pcId out = some t) : Steady s t := by
  unfold unbindComputer at ht
  split at ht
  · have hregular := forget_regular (s := { s with client := (if s.session.sessionId = none
      then s.client else s.client.abandonSession out.linked).shutdown }) h pcId
    have hfallen := fallBack_steady hregular ht
    exact ⟨hfallen.posted, hfallen.regular⟩
  · cases ht
    exact ⟨rfl, forget_regular h pcId⟩

theorem activateCurrentConnectivity_steady (h : s.session.Regular)
    (ht : s.activateCurrentConnectivity = some t) : Steady s t := by
  have hbegin : ∀ u : FlowTypeController, Steady s u →
      (if u.shouldBeginAutoSelection then u.beginAutoSelection else some u) = some t →
        Steady s t := by
    intro u hu hut
    split at hut
    · exact hu.trans (beginAutoSelection_steady hu.regular hut)
    · cases hut
      exact hu
  refine hbegin _ ?_ ht
  split
  · exact Steady.refl h
  · exact ⟨rfl, h⟩

theorem resumeConnectivity_steady (h : s.session.Regular)
    (ht : s.resumeConnectivity = some t) : Steady s t := by
  unfold resumeConnectivity at ht
  split at ht
  · cases ht
    exact Steady.refl h
  · dsimp only at ht
    split at ht
    · have hactivated := activateCurrentConnectivity_steady
        (s := { s with connectivityRunning := true }) h ht
      exact ⟨hactivated.posted, hactivated.regular⟩
    · cases ht
      exact ⟨rfl, h⟩

theorem suspendConnectivity_steady (h : s.session.Regular) : Steady s s.suspendConnectivity := by
  unfold suspendConnectivity
  split
  · exact Steady.refl h
  · exact ⟨rfl, h⟩

theorem preloaded_steady (h : s.session.Regular) {fileActive : Bool}
    (ht : s.preloaded fileActive = some t) : Steady s t := by
  obtain ⟨u, hu, ht⟩ := Option.bind_eq_some_iff.mp ht
  have hrestored : Steady s u := by
    split at hu
    · cases hu
      exact ⟨rfl, h⟩
    · have hrestored := restoreSessionFor_steady (s := { s with storageReady := true }) h hu
      exact ⟨hrestored.posted, hrestored.regular⟩
  split at ht
  · exact hrestored.trans (resumeConnectivity_steady hrestored.regular ht)
  · split at ht
    · exact hrestored.trans (activateCurrentConnectivity_steady hrestored.regular ht)
    · cases ht
      exact hrestored

theorem switchFromWindows_steady (h : s.session.Regular) {pcId : String} {required : Bool}
    (ht : s.switchFromWindows pcId required = some t) : Steady s t := by
  unfold switchFromWindows at ht
  split at ht
  · cases ht
    exact Steady.refl h
  · next binding hfind =>
    have hsaved : Steady s (s.saveBinding binding) := ⟨rfl, h⟩
    dsimp only at ht
    split at ht
    · split at ht
      · exact hsaved.trans (resumeConnectivity_steady hsaved.regular ht)
      · cases ht
        exact hsaved
    · exact hsaved.trans (switchToComputer_steady hsaved.regular ht)

theorem onReady_steady (h : s.session.Regular) (binding : ComputerBinding) (out : Outside) :
    Steady s (s.onReady binding out) := by
  unfold onReady
  dsimp only
  split
  · exact ⟨rfl, h⟩
  · exact ⟨rfl, h⟩

theorem onAck_steady (h : s.session.Regular) (ack : AckMessage) : Steady s (s.onAck ack) := by
  unfold onAck
  dsimp only
  split
  · exact ⟨rfl, InputSession.regular_reset _⟩
  · next hactive =>
    refine ⟨rfl, InputSession.regular_acknowledge h fun hends => hactive ?_⟩
    exact (InputSession.acknowledge_finished h ack).mpr hends

theorem onTarget_steady (h : s.session.Regular) (target : TargetMessage) (out : Outside) :
    Steady s (s.onTarget target out) := by
  unfold onTarget
  dsimp only
  split
  · have hreset := resetFailedSession_steady
      (s := { s with targetState := some target.targetState }) h out
    exact ⟨hreset.posted, hreset.regular⟩
  · exact ⟨rfl, h⟩

theorem onServerError_steady (h : s.session.Regular) (error : ErrorMessage) (out : Outside) :
    Steady s (s.onServerError error out) := by
  unfold onServerError
  split
  · exact ⟨rfl, InputSession.regular_reset _⟩
  · exact resetFailedSession_steady h out

theorem onPairingInvalid_steady (h : s.session.Regular) {binding : ComputerBinding}
    (ht : s.onPairingInvalid binding = some t) : Steady s t := by
  have hregular := forget_regular (s := { s with targetState := none }) h binding.pcId
  have hfallen := fallBack_steady hregular ht
  exact ⟨hfallen.posted, hfallen.regular⟩

theorem handle_steady (h : s.session.Regular) {out : Outside} {posted : Posted}
    (ht : s.handle out posted = some t) : Steady s t := by
  cases posted with
  | chosen winner fallback => exact onChosen_steady h ht
  | callback pcId callback =>
    cases callback with
    | ready binding =>
      cases ht
      exact onReady_steady h binding out
    | ack ack =>
      cases ht
      exact onAck_steady h ack
    | target target =>
      cases ht
      exact onTarget_steady h target out
    | disconnected =>
      cases ht
      exact ⟨rfl, h⟩
    | serverError binding error =>
      cases ht
      exact onServerError_steady h error out
    | pairingInvalid binding => exact onPairingInvalid_steady h ht

end Operations

end FlowTypeController

/-- The binding that a handler is given. -/
def Callback.binding? : Callback → Option ComputerBinding
  | .ready binding => some binding
  | .serverError binding _ => some binding
  | .pairingInvalid binding => some binding
  | _ => none

/-- The session that a handler is for: `origin` is the one that was queued when the message
came, which is what an error without a session speaks of. -/
def Callback.sessionId (origin : Option String) : Callback → Option String
  | .ack received => some received.sessionId
  | .target received => some received.sessionId
  | .serverError _ error => error.sessionId <|> origin
  | _ => none

def Callback.OfConnection : Callback → Prop
  | .ready _ => True
  | .disconnected => True
  | _ => False

def Posted.Named : Posted → Prop
  | .callback pcId called => ∀ binding ∈ called.binding?, binding.pcId = pcId
  | .chosen _ _ => True

theorem SyncClient.onMessage_named (c : SyncClient) (current : ComputerBinding) (linked : Bool)
    (message : ServerMessage) {callback : Callback}
    (h : callback ∈ (c.onMessage current linked message).2) :
    (Posted.callback current.pcId callback).Named := by
  cases message with
  | ready =>
    obtain rfl := List.mem_singleton.mp h
    rintro binding ⟨⟩
    rfl
  | ack ack =>
    unfold onMessage at h
    dsimp only at h
    split at h
    · cases h
    · obtain rfl := List.mem_singleton.mp h
      rintro binding ⟨⟩
  | target target =>
    unfold onMessage at h
    dsimp only at h
    split at h
    · cases h
    · obtain rfl := List.mem_singleton.mp h
      rintro binding ⟨⟩
  | error error =>
    unfold onMessage at h
    dsimp only at h
    split_ifs at h
    · cases h
    all_goals
      obtain rfl := List.mem_singleton.mp h
      rintro binding ⟨⟩
      rfl

namespace FlowTypeController

variable {s t : FlowTypeController}

structure Posts (s : FlowTypeController) (event : Event) (t : FlowTypeController) : Prop where
  regular : t.session.Regular
  taken : ∀ out, event = .run out → s.posted.tail = t.posted
  added : (∀ out, event ≠ .run out) →
    ∃ added, t.posted = s.posted ++ added ∧ ∀ posted ∈ added, posted.Named

theorem Steady.posts {event : Event} (h : Steady s t) (hrun : ∀ out, event ≠ .run out) :
    Posts s event t :=
  ⟨h.regular, fun out he => absurd he (hrun out), fun _ => ⟨[], by simp [h.posted], by simp⟩⟩

theorem step_posts (h : s.session.Regular) {event : Event} (ht : s.step event = some t) :
    Posts s event t := by
  cases event with
  | textChanged text out => exact (textChanged_steady h ht).posts (by simp)
  | clearCurrentInput out => exact (clearCurrentInput_steady h ht).posts (by simp)
  | finish out => exact (finish_steady h ht).posts (by simp)
  | abandonSyncAndFinish out => exact (abandonSyncAndFinish_steady h ht).posts (by simp)
  | startNewSession out => exact (startNewSession_steady ht).posts (by simp)
  | syncToCurrentCursor out => exact (syncToCurrentCursor_steady h ht).posts (by simp)
  | syncFullText out =>
    cases ht
    exact (syncFullText_steady h out).posts (by simp)
  | sync out => exact (sync_steady h ht).posts (by simp)
  | replaceWithHistory text => exact (replaceWithHistory_steady h ht).posts (by simp)
  | acceptBinding binding =>
    have hswitched := switchToComputer_steady (s := s.saveBinding binding) h ht
    exact Steady.posts ⟨hswitched.posted, hswitched.regular⟩ (by simp)
  | setAutoSelectComputer enabled => exact (setAutoSelectComputer_steady h ht).posts (by simp)
  | selectComputer pcId => exact (selectComputer_steady h ht).posts (by simp)
  | renameComputer =>
    cases ht
    exact Steady.posts ⟨rfl, h⟩ (by simp)
  | unbindComputer pcId out => exact (unbindComputer_steady h ht).posts (by simp)
  | switchFromWindows pcId required => exact (switchFromWindows_steady h ht).posts (by simp)
  | resumeConnectivity => exact (resumeConnectivity_steady h ht).posts (by simp)
  | suspendConnectivity =>
    cases ht
    exact (suspendConnectivity_steady h).posts (by simp)
  | saveDraft =>
    cases ht
    exact (saveDraftNow_steady h).posts (by simp)
  | preloaded fileActive =>
    change (if s.storageReady then none else s.preloaded fileActive) = some t at ht
    split at ht
    · cases ht
    · exact (preloaded_steady h ht).posts (by simp)
  | receive message linked =>
    change s.stepReceive message linked = some t at ht
    unfold stepReceive at ht
    split at ht
    · cases ht
    · split at ht
      · cases ht
      · next current hcurrent hstopped =>
        cases ht
        refine ⟨h, by simp, fun _ => ⟨_, rfl, ?_⟩⟩
        intro posted hposted
        obtain ⟨callback, hmem, rfl⟩ := List.mem_map.mp hposted
        exact SyncClient.onMessage_named _ current linked message hmem
  | connectionLost timeout =>
    change s.stepConnectionLost timeout = some t at ht
    unfold stepConnectionLost at ht
    split at ht
    · cases ht
    · next current hcurrent =>
      split at ht
      · cases ht
      · dsimp only at ht
        cases timeout with
        | true =>
          cases ht
          exact Steady.posts ⟨rfl, h⟩ (by simp)
        | false =>
          cases ht
          refine ⟨h, by simp, fun _ => ⟨_, rfl, ?_⟩⟩
          intro posted hposted
          obtain rfl := List.mem_singleton.mp hposted
          rintro binding ⟨⟩
  | reopened =>
    cases ht
    exact Steady.posts ⟨rfl, h⟩ (by simp)
  | probed winner =>
    change s.stepProbed winner = some t at ht
    unfold stepProbed at ht
    split at ht
    · cases ht
    · split at ht
      · cases ht
      · cases ht
        refine ⟨h, by simp, fun _ => ⟨_, rfl, ?_⟩⟩
        intro posted hposted
        obtain rfl := List.mem_singleton.mp hposted
        trivial
  | run out =>
    change s.stepRun out = some t at ht
    unfold stepRun at ht
    split at ht
    · cases ht
    · next posted rest hposted =>
      have hsteady := handle_steady (s := { s with posted := rest }) h ht
      refine ⟨hsteady.regular, fun _ _ => ?_, fun hrun => absurd rfl (hrun out)⟩
      rw [hposted]
      exact hsteady.posted.symm

def queuedSession (s : FlowTypeController) : Option String :=
  s.client.queue.latest.map (·.sessionId)

def IsCurrent (s : FlowTypeController) (pcId : String) : Prop :=
  s.currentBinding.map (·.pcId) = some pcId

instance (s : FlowTypeController) (pcId : String) : Decidable (s.IsCurrent pcId) :=
  inferInstanceAs (Decidable (_ = _))

def Stored (s : FlowTypeController) (pcId : String) : Prop :=
  ∃ binding ∈ s.computers, binding.pcId = pcId

instance (s : FlowTypeController) (pcId : String) : Decidable (s.Stored pcId) :=
  inferInstanceAs (Decidable (∃ binding ∈ s.computers, _))

/-- The session of the handler is the live one; a handler that is for no session is about
the computer. -/
def Concerns (s : FlowTypeController) (pcId : String) (origin : Option String) :
    Callback → Prop
  | .ready _ => s.IsCurrent pcId
  | .disconnected => s.IsCurrent pcId
  | .pairingInvalid _ => s.IsCurrent pcId ∧ s.sessions.activePcId = some pcId
  | callback =>
    s.session.sessionId = callback.sessionId origin ∧
      (callback.sessionId origin = none → s.IsCurrent pcId)

instance (s : FlowTypeController) (pcId : String) (origin : Option String)
    (callback : Callback) : Decidable (s.Concerns pcId origin callback) := by
  unfold Concerns
  split <;> infer_instance

/-- The handler of computer `pcId` takes `s` to `t` and leaves the sessions and the
computers alone that it is not for. -/
structure Isolated (s t : FlowTypeController) (pcId : String) (origin : Option String)
    (callback : Callback) : Prop where
  /-- Besides the binding and the stored draft of its computer nothing changes. -/
  foreign : ¬ s.Concerns pcId origin callback →
    ∃ computers store, t = { s with
      computers := computers, sessions := { s.sessions with store := store } }
  session : callback.OfConnection → t.session = s.session
  /-- The queue of another session is not given up. -/
  queued : ∀ id ∈ s.queuedSession, ∀ own ∈ callback.sessionId origin, id ≠ own →
    t.client = s.client
  unselected : ¬ s.IsCurrent pcId → t.currentBinding = s.currentBinding
  others : t.others pcId = s.others pcId
  removed : ¬ s.Stored pcId → ¬ t.Stored pcId
  drafts : ∀ other, other ≠ pcId →
    callback.OfConnection ∨ ¬ s.Concerns pcId origin callback ∨
      s.sessions.activePcId ≠ some other →
    t.sessions.store other = s.sessions.store other

def QueueAgrees (s : FlowTypeController) : Prop :=
  s.session.sessionId ≠ none → ∀ id ∈ s.queuedSession, s.session.sessionId = some id

instance (s : FlowTypeController) : Decidable s.QueueAgrees :=
  inferInstanceAs (Decidable (_ → _))

/-- When a handler finds what it was posted for: the code checks this for an
acknowledgement only. -/
def StaleOk (s : FlowTypeController) (pcId : String) (origin : Option String) :
    Callback → Prop
  | .ack _ => True
  | .ready _ => s.IsCurrent pcId ∧ s.Stored pcId
  | .target target =>
    s.Concerns pcId origin (.target target) ∧ (target.targetState = .invalid → s.QueueAgrees)
  | .serverError binding error =>
    s.Concerns pcId origin (.serverError binding error) ∧
      (error.code ≠ .targetSubmitted → s.QueueAgrees)
  | callback => s.Concerns pcId origin callback

instance (s : FlowTypeController) (pcId : String) (origin : Option String)
    (callback : Callback) : Decidable (s.StaleOk pcId origin callback) := by
  unfold StaleOk
  split <;> infer_instance

section Handlers

variable {pcId : String} {origin : Option String}

theorem others_saveBinding (s : FlowTypeController) (binding : ComputerBinding) :
    (s.saveBinding binding).others binding.pcId = s.others binding.pcId := by
  unfold others saveBinding
  rw [List.filter_cons_of_neg (by simp), List.filter_filter]
  simp

theorem onReady_computers (s : FlowTypeController) (binding : ComputerBinding) (out : Outside) :
    (s.onReady binding out).computers =
      (s.saveBinding binding.pairedAtCurrentEndpoint).computers := by
  unfold onReady
  dsimp only
  split <;> rfl

theorem onReady_sessions (s : FlowTypeController) (binding : ComputerBinding) (out : Outside) :
    (s.onReady binding out).sessions = s.sessions := by
  unfold onReady
  dsimp only
  split <;> rfl

theorem onReady_binding (s : FlowTypeController) (binding : ComputerBinding) (out : Outside) :
    (s.onReady binding out).currentBinding = some binding.pairedAtCurrentEndpoint := by
  unfold onReady
  dsimp only
  split <;> rfl

/-- A late `Ready` selects its computer again, and stores a binding that was removed. -/
theorem onReady_isolated_iff (s : FlowTypeController) (binding : ComputerBinding) (out : Outside) :
    Isolated s (s.onReady binding out) binding.pcId origin (.ready binding) ↔
      s.IsCurrent binding.pcId ∧ s.Stored binding.pcId := by
  have hsessions := onReady_sessions s binding out
  have hcomputers := onReady_computers s binding out
  have hbinding := onReady_binding s binding out
  constructor
  · intro h
    constructor
    · by_contra hother
      have hkept := h.unselected hother
      apply hother
      unfold IsCurrent
      rw [← hkept, hbinding]
      rfl
    · by_contra hgone
      apply h.removed hgone
      refine ⟨binding.pairedAtCurrentEndpoint, ?_, rfl⟩
      rw [hcomputers]
      exact List.mem_cons_self
  · rintro ⟨hcurrent, hstored⟩
    refine ⟨fun hforeign => absurd hcurrent hforeign, fun _ => ?_, ?_,
      fun hother => absurd hcurrent hother, ?_, fun hgone => absurd hstored hgone, ?_⟩
    · unfold session
      rw [hsessions]
    · rintro id - own ⟨⟩
    · have hsaved := others_saveBinding s binding.pairedAtCurrentEndpoint
      unfold others at hsaved ⊢
      rw [hcomputers]
      exact hsaved
    · intro other _ _
      rw [hsessions]

theorem onDisconnected_isolated (hcurrent : s.IsCurrent pcId) :
    Isolated s { s with targetState := none } pcId origin .disconnected := by
  refine ⟨fun hforeign => absurd hcurrent hforeign, fun _ => rfl, ?_, fun _ => rfl, rfl,
    fun hgone => hgone, fun _ _ _ => rfl⟩
  rintro id - own ⟨⟩

/-- An acknowledgement checks the session, so it can be late. -/
theorem onAck_isolated (h : s.session.Regular) (ack : AckMessage) :
    Isolated s (s.onAck ack) pcId origin (.ack ack) := by
  have hforeign : ¬ s.Concerns pcId origin (.ack ack) → s.onAck ack = s := by
    intro hforeign
    have hother : some ack.sessionId ≠ s.session.sessionId :=
      fun hid => hforeign ⟨hid.symm, fun hnone => nomatch hnone⟩
    have hsame : s.session.acknowledge ack = s.session := by
      unfold InputSession.acknowledge
      rw [if_pos (Or.inl hother)]
    unfold onAck
    dsimp only
    rw [hsame, if_neg]
    · rfl
    · change ¬ s.session.finished = true
      rw [h.unfinished]
      exact Bool.false_ne_true
  have hclient : (s.onAck ack).client = s.client := by
    unfold onAck
    dsimp only
    split <;> rfl
  have hcomputers : (s.onAck ack).computers = s.computers := by
    unfold onAck
    dsimp only
    split <;> rfl
  refine ⟨fun hne => ⟨s.computers, s.sessions.store, hforeign hne⟩, False.elim,
    fun _ _ _ _ _ => hclient, fun _ => ?_, ?_, ?_, ?_⟩
  · unfold onAck
    dsimp only
    split <;> rfl
  · unfold others
    rw [hcomputers]
  · unfold Stored
    rw [hcomputers]
    exact id
  · intro other _ hcases
    rcases hcases with hno | hne | hinactive
    · exact hno.elim
    · rw [hforeign hne]
    · unfold onAck
      dsimp only
      split
      · exact ComputerSessions.clearActive_store hinactive
      · rfl

/-- What `resetFailedSession` leaves alone. -/
structure OwnReset (s t : FlowTypeController) : Prop where
  computers : t.computers = s.computers
  binding : t.currentBinding = s.currentBinding
  store : t.sessions.store = s.sessions.store
  client : s.session.sessionId = none → t.client = s.client

theorem resetFailedSession_own (s : FlowTypeController) (out : Outside) :
    OwnReset s (s.resetFailedSession out) := by
  unfold resetFailedSession
  dsimp only
  constructor
  · split_ifs <;> rfl
  · split_ifs <;> rfl
  · split_ifs <;> rfl
  · intro hid
    rw [if_pos hid]
    split_ifs <;> rfl

/-- A handler that meets its own session resets that session and no other. -/
theorem OwnReset.isolated {callback : Callback} (h : OwnReset s t)
    (hconcerns : s.Concerns pcId origin callback) (hsession : ¬ callback.OfConnection)
    (hid : s.session.sessionId = callback.sessionId origin) (hqueue : s.QueueAgrees) :
    Isolated s t pcId origin callback := by
  refine ⟨fun hforeign => absurd hconcerns hforeign, fun hno => absurd hno hsession, ?_,
    fun _ => h.binding, ?_, ?_, fun other _ _ => congrFun h.store other⟩
  · intro id hqueued own hown hne
    apply h.client
    by_contra hlive
    have hagrees := hqueue hlive id hqueued
    rw [hid, hown] at hagrees
    exact hne (Option.some.inj hagrees).symm
  · unfold others
    rw [h.computers]
  · unfold Stored
    rw [h.computers]
    exact id

theorem onTarget_isolated {target : TargetMessage}
    (hok : s.StaleOk pcId origin (.target target)) (out : Outside) :
    Isolated s (s.onTarget target out) pcId origin (.target target) := by
  obtain ⟨hconcerns, hqueue⟩ := hok
  unfold onTarget
  dsimp only
  split
  · next hinvalid =>
    have hreset := resetFailedSession_own { s with targetState := some target.targetState } out
    exact OwnReset.isolated ⟨hreset.computers, hreset.binding, hreset.store, hreset.client⟩
      hconcerns id hconcerns.1 (hqueue hinvalid)
  · exact ⟨fun hforeign => absurd hconcerns hforeign, False.elim, fun _ _ _ _ _ => rfl,
      fun _ => rfl, rfl, id, fun _ _ _ => rfl⟩

theorem onServerError_isolated {binding : ComputerBinding} {error : ErrorMessage}
    (hok : s.StaleOk pcId origin (.serverError binding error)) (out : Outside) :
    Isolated s (s.onServerError error out) pcId origin (.serverError binding error) := by
  obtain ⟨hconcerns, hqueue⟩ := hok
  unfold onServerError
  split
  · refine ⟨fun hforeign => absurd hconcerns hforeign, False.elim, fun _ _ _ _ _ => rfl,
      fun _ => rfl, rfl, id, ?_⟩
    intro other _ hcases
    have hinactive := (hcases.resolve_left id).resolve_left (not_not.mpr hconcerns)
    exact ComputerSessions.clearActive_store hinactive
  · next hcode =>
    exact (resetFailedSession_own s out).isolated hconcerns id hconcerns.1 (hqueue hcode)

theorem activate_store {s t : ComputerSessions} {pcId : String} {r : Option ParkedSession}
    (h : s.activate pcId = some (t, r)) : t.store = s.store := by
  by_cases hactive : s.activePcId = some pcId
  · unfold ComputerSessions.activate at h
    rw [if_pos hactive] at h
    cases h
    rfl
  · exact (ComputerSessions.activate_cases hactive h).1

theorem restoreQueue_sessions {parked : ParkedSession} (h : s.restoreQueue parked = some t) :
    t.sessions = s.sessions ∧ t.computers = s.computers := by
  rcases restoreQueue_cases h with ⟨-, rfl⟩ | ⟨client, m, rfl, -, -⟩
  · exact ⟨rfl, rfl⟩
  · exact ⟨rfl, rfl⟩

theorem restoreSessionFor_store (h : s.restoreSessionFor pcId = some t) :
    t.sessions.store = s.sessions.store ∧ t.computers = s.computers := by
  obtain ⟨⟨sessions, restored⟩, hactivate, h⟩ := Option.bind_eq_some_iff.mp h
  have hstore := activate_store hactivate
  cases restored with
  | none =>
    cases h
    exact ⟨hstore, rfl⟩
  | some parked =>
    obtain ⟨hsessions, hcomputers⟩ := restoreQueue_sessions h
    rw [hsessions, hcomputers]
    exact ⟨hstore, rfl⟩

theorem fallBack_store (h : s.fallBack = some t) :
    t.sessions.store = s.sessions.store ∧ t.computers = s.computers := by
  unfold fallBack at h
  split at h
  · cases h
    exact ⟨rfl, rfl⟩
  · obtain ⟨u, hu, rfl⟩ := Option.map_eq_some_iff.mp h
    have hrestored := restoreSessionFor_store
      (s := { s with client := s.client.resetForTargetSelection }) hu
    exact hrestored

theorem onPairingInvalid_isolated {binding : ComputerBinding}
    (hconcerns : s.Concerns binding.pcId origin (.pairingInvalid binding))
    (h : s.onPairingInvalid binding = some t) :
    Isolated s t binding.pcId origin (.pairingInvalid binding) := by
  obtain ⟨hstore, hcomputers⟩ := fallBack_store h
  have hleft : t.computers = s.others binding.pcId := hcomputers
  refine ⟨fun hforeign => absurd hconcerns hforeign, False.elim, ?_,
    fun hother => absurd hconcerns.1 hother, ?_, ?_, ?_⟩
  · rintro id - own ⟨⟩
  · unfold others at hleft ⊢
    rw [hleft, List.filter_filter]
    simp
  · rintro - ⟨b, hb, hid⟩
    rw [hleft] at hb
    have hne := (List.mem_filter.mp hb).2
    exact of_decide_eq_true hne hid
  · intro other hother _
    rw [hstore]
    exact forget_store hother

theorem onCallback_isolated (h : s.session.Regular) {callback : Callback}
    (hnamed : (Posted.callback pcId callback).Named) (hok : s.StaleOk pcId origin callback)
    {out : Outside} (ht : s.onCallback out callback = some t) :
    Isolated s t pcId origin callback := by
  cases callback with
  | ready binding =>
    cases ht
    obtain rfl := hnamed binding rfl
    exact (onReady_isolated_iff s binding out).mpr hok
  | ack ack =>
    cases ht
    exact onAck_isolated h ack
  | target target =>
    cases ht
    exact onTarget_isolated hok out
  | disconnected =>
    cases ht
    exact onDisconnected_isolated hok
  | serverError binding error =>
    cases ht
    exact onServerError_isolated hok out
  | pairingInvalid binding =>
    obtain rfl := hnamed binding rfl
    exact onPairingInvalid_isolated hok ht

end Handlers

end FlowTypeController

/-- The controller with, for each posted handler, the session that was queued when its
message came. -/
structure PostedRun where
  controller : FlowTypeController
  origins : List (Option String) := []

namespace PostedRun
open FlowTypeController Machine

def step (r : PostedRun) (event : Event) : Option PostedRun :=
  (r.controller.step event).map fun t =>
    { controller := t
      origins := match event with
        | .run _ => r.origins.tail
        | _ => r.origins ++
          List.replicate (t.posted.length - r.controller.posted.length)
            r.controller.queuedSession }

/-- The handler that `event` runs has what it needs to be isolated. -/
def StaleOk (r : PostedRun) : Event → Prop
  | .run _ =>
    match r.controller.posted with
    | .callback pcId callback :: rest =>
      { r.controller with posted := rest }.StaleOk pcId r.origins.head?.join callback
    | _ => True
  | _ => True

instance (r : PostedRun) (event : Event) : Decidable (r.StaleOk event) := by
  apply Event.casesOn (motive := fun event => Decidable (r.StaleOk event)) event <;> intros <;>
    unfold StaleOk
  case run =>
    dsimp only
    split <;> infer_instance
  all_goals infer_instance

/-- The handler that `event` runs changes what it is for and nothing else. -/
def Isolates (r : PostedRun) (event : Event) : Prop :=
  ∀ t out pcId callback rest, r.step event = some t → event = .run out →
    r.controller.posted = .callback pcId callback :: rest →
    Isolated { r.controller with posted := rest } t.controller pcId r.origins.head?.join callback

/-- Every posted handler has an origin and names its own computer. -/
structure Inv (r : PostedRun) : Prop where
  regular : r.controller.session.Regular
  origins : r.origins.length = r.controller.posted.length
  named : ∀ posted ∈ r.controller.posted, posted.Named

/-- What is posted by anything but a handler keeps the session that is queued now. -/
theorem step_origins {r r' : PostedRun} {event : Event} (hr : r.step event = some r')
    (hrun : ¬ ∃ out, event = .run out) :
    r'.origins.length =
      r.origins.length + (r'.controller.posted.length - r.controller.posted.length) := by
  obtain ⟨t, -, rfl⟩ := Option.map_eq_some_iff.mp hr
  dsimp only
  split
  · next out => exact absurd ⟨out, rfl⟩ hrun
  · rw [List.length_append, List.length_replicate]

theorem step_inv {r r' : PostedRun} {event : Event} (h : r.Inv) (hr : r.step event = some r') :
    r'.Inv := by
  have horigins := step_origins hr
  obtain ⟨t, ht, rfl⟩ := Option.map_eq_some_iff.mp hr
  obtain ⟨hregular, htaken, hadded⟩ := step_posts h.regular ht
  by_cases hrun : ∃ out, event = .run out
  · obtain ⟨out, rfl⟩ := hrun
    have htail := htaken out rfl
    refine ⟨hregular, ?_, ?_⟩
    · change r.origins.tail.length = t.posted.length
      rw [← htail, List.length_tail, List.length_tail, h.origins]
    · intro posted hposted
      rw [← htail] at hposted
      exact h.named posted (List.mem_of_mem_tail hposted)
  · obtain ⟨added, hposted, hnamed⟩ := hadded fun out he => hrun ⟨out, he⟩
    refine ⟨hregular, ?_, ?_⟩
    · have hlength : t.posted.length = r.controller.posted.length + added.length := by
        rw [hposted, List.length_append]
      have hgrown := horigins hrun
      rw [h.origins] at hgrown
      dsimp only at hgrown ⊢
      omega
    · intro posted hmem
      rw [hposted] at hmem
      rcases List.mem_append.mp hmem with hold | hnew
      · exact h.named posted hold
      · exact hnamed posted hnew

theorem step_isolates {r : PostedRun} {event : Event} (h : r.Inv) (hok : r.StaleOk event) :
    r.Isolates event := by
  rintro t' out pcId callback rest hr rfl hposted
  obtain ⟨t, ht, rfl⟩ := Option.map_eq_some_iff.mp hr
  have hnamed := h.named (.callback pcId callback) (by simp [hposted])
  unfold StaleOk at hok
  rw [hposted] at hok
  change r.controller.stepRun out = some t at ht
  unfold stepRun at ht
  rw [hposted] at ht
  exact onCallback_isolated (s := { r.controller with posted := rest }) h.regular hnamed hok ht

/-- The process starts with nothing posted. -/
def start (phoneId : String) (store : String → Option ParkedSession)
    (computers : List ComputerBinding) (recoverablePcId : Option String)
    (autoSelectComputer : Bool) : PostedRun where
  controller :=
    FlowTypeController.start phoneId store computers recoverablePcId autoSelectComputer

/-- Whatever the user does between a message and its handler: when every handler finds the
session and the computer it was posted for, none changes another one. -/
theorem stale_isolated (phoneId : String) (store : String → Option ParkedSession)
    (computers : List ComputerBinding) (recoverablePcId : Option String)
    (autoSelectComputer : Bool) (events : List Event)
    (h : Along step StaleOk (start phoneId store computers recoverablePcId autoSelectComputer)
      events) :
    Along step Isolates (start phoneId store computers recoverablePcId autoSelectComputer)
      events := by
  refine Along.imp Inv events ?_ ?_ h
  · exact ⟨InputSession.regular_new _, rfl, fun posted hposted => nomatch hposted⟩
  · intro r event r' hr hstep
    exact ⟨step_inv hr hstep, step_isolates hr⟩

def twoComputers : List ComputerBinding := [{ pcId := "pc1" }, { pcId := "pc2" }]

/-- The handler runs before the user does anything. -/
theorem stale_isolated_in_time :
    Along step Isolates (start "phone" (fun _ => none) twoComputers none false)
      [.resumeConnectivity, .preloaded false, .receive .ready true, .run {},
        .selectComputer "pc2"] :=
  stale_isolated "phone" (fun _ => none) twoComputers none false _ (by decide)

/-- The first computer is ready, the user selects the second one, and then the handler
takes the selection back. -/
theorem late_ready_not_isolated :
    ¬ Along step Isolates (start "phone" (fun _ => none) twoComputers none false)
      [.resumeConnectivity, .preloaded false, .receive .ready true, .selectComputer "pc2",
        .run {}] := by
  intro h
  have hlast := Along.last
    [Event.resumeConnectivity, .preloaded false, .receive .ready true, .selectComputer "pc2"] h rfl rfl
  have hisolated := hlast _ {} "pc1" (.ready { pcId := "pc1" }) [] rfl rfl rfl
  have hbinding := hisolated.unselected (by decide)
  exact absurd hbinding (by decide)

end PostedRun

end FlowType
