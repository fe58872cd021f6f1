import FlowType.SessionCoupling

/-! Each event of the controller keeps the live session and the queue together under a
condition on the state before it; so a run whose events meet theirs does. -/
namespace FlowType

open Machine

namespace SyncClient

theorem foldl_send_latest (c : SyncClient) (linked : Bool) (ms : List SnapshotMessage)
    (m : SnapshotMessage) :
    ((ms ++ [m]).foldl (fun c m => c.send linked m) c).queue.latest = some m := by
  rw [List.foldl_append]
  exact send_latest _ linked m

end SyncClient

namespace FlowTypeController

section Operations

variable {s t : FlowTypeController}

theorem clearCurrentInput_inv (h : s.Inv) {out : Outside}
    (ht : s.clearCurrentInput out = some t) : t.Inv := by
  unfold clearCurrentInput at ht
  split at ht
  · cases ht
    exact h
  · exact textChanged_inv h ht

theorem finish_inv (h : s.Inv) {out : Outside} (ht : s.finish out = some t) : t.Inv := by
  obtain ⟨⟨session, o⟩, hfinish, rfl⟩ := Option.map_eq_some_iff.mp ht
  rcases InputSession.finish_spec hfinish with ⟨-, rfl, rfl⟩ | ⟨id, hid, hsession, rfl⟩
  · exact h
  · have hsaved : (s.withSession session).saveDraftNow.session = session :=
      saveDraftNow_session _
    apply deliver_inv
    · rw [hsaved, hsession]
      exact h.regular.finishing (by simp [hid])
    · rw [hsaved, hsession]
      exact ⟨hid, rfl, rfl⟩
    · exact fun hcalm => ⟨h.calm hcalm, h.paired (h.calm hcalm)⟩

theorem beginIfAutomatic_inv (h : s.Inv) (ht : s.beginIfAutomatic = some t) : t.Inv := by
  unfold beginIfAutomatic at ht
  split at ht
  · exact beginAutoSelection_inv h ht
  · cases ht
    exact h

theorem prepareNewSession_current (sessions : ComputerSessions) :
    sessions.prepareNewSession.current = sessions.current.resetForReplacement "" :=
  ComputerSessions.saveCurrent_current _ _

theorem givenUp_inv (s : FlowTypeController) (out : Outside) :
    Inv { s.clearAutoSelection with
      client := s.client.abandonSession out.linked
      sessions := s.sessions.prepareNewSession
      targetState := none } := by
  have hcurrent := prepareNewSession_current s.sessions
  apply inv_idle _ _ (SyncClient.abandonSession_empty _ _) rfl rfl
  · change s.sessions.prepareNewSession.current.Regular
    rw [hcurrent]
    exact InputSession.regular_resetForReplacement _ _
  · change s.sessions.prepareNewSession.current.sessionId = none
    rw [hcurrent]
    rfl

theorem abandonSyncAndFinish_inv (h : s.Inv) {out : Outside}
    (ht : s.abandonSyncAndFinish out = some t) : t.Inv := by
  unfold abandonSyncAndFinish at ht
  split at ht
  · cases ht
    exact h
  · exact beginIfAutomatic_inv (givenUp_inv s out) ht

theorem startNewSession_inv (h : s.Inv) {out : Outside}
    (ht : s.startNewSession out = some t) : t.Inv := by
  unfold startNewSession at ht
  refine beginIfAutomatic_inv ?_ ht
  by_cases hid : s.session.sessionId = none
  · have hid' : s.clearAutoSelection.session.sessionId = none := hid
    rw [if_pos hid]
    exact inv_idle (InputSession.regular_reset _) rfl (h.idle hid).2 rfl rfl
  · rw [if_neg hid]
    have hgiven := givenUp_inv s out
    exact hgiven.congr ⟨rfl, rfl, rfl, rfl, hgiven.regular⟩ rfl rfl

/-- The text is sent again under a new id, without what is pending. -/
def CursorOk (s : FlowTypeController) : Prop :=
  s.session.sessionId = none ∨ s.pendingAutoLatest = none

instance (s : FlowTypeController) : Decidable s.CursorOk := inferInstanceAs (Decidable (_ ∨ _))

theorem syncToCurrentCursor_inv (h : s.Inv) {out : Outside} (hok : s.CursorOk)
    (ht : s.syncToCurrentCursor out = some t) : t.Inv := by
  unfold syncToCurrentCursor at ht
  split at ht
  · cases ht
    exact h
  · next hid =>
    have hlatest : s.pendingAutoLatest = none := hok.resolve_left hid
    obtain ⟨⟨session, ms⟩, hrestart, rfl⟩ := Option.map_eq_some_iff.mp ht
    rcases InputSession.restartAtCurrentCursor_spec hrestart with
      ⟨rfl, rfl⟩ | ⟨start, s₁, hs₁, hstart, hms⟩
    · exact inv_idle (InputSession.regular_reset _) rfl (SyncClient.abandonSession_empty _ _)
        hlatest (h.paired hlatest)
    · have hreset := InputSession.regular_resetForReplacement s.session s.session.currentText
      -- the last snapshot is the START, or the FINISH of a finishing session
      have hlast : ∃ before m, ms = before ++ [m] ∧ session.Current m ∧ session.Regular := by
        rcases hms with ⟨rfl, rfl⟩ | ⟨finish, hfinish, rfl⟩
        · refine ⟨[], start, rfl, InputSession.snapshot_current hstart, ?_⟩
          rw [hs₁]
          exact hreset.opened rfl _ _
        · refine ⟨[start], finish, rfl, ?_⟩
          rcases InputSession.finish_spec hfinish with ⟨-, hnone, -⟩ | ⟨id, hid₁, hsession, hm⟩
          · cases hnone
          · cases hm
            rw [hsession]
            refine ⟨⟨hid₁, rfl, rfl⟩, ?_⟩
            rw [hs₁]
            exact (hreset.opened rfl _ _).finishing (by simp)
      obtain ⟨before, m, rfl, hcurrent, hregular⟩ := hlast
      rw [if_neg (by simp)]
      apply saveDraftNow_inv
      exact inv_live ⟨hregular, hlatest, h.paired hlatest⟩
        (SyncClient.foldl_send_latest _ _ _ _) hcurrent

theorem syncFullText_inv (h : s.Inv) (out : Outside) : (s.syncFullText out).Inv := by
  have h₁ : Inv (if s.session.sessionId ≠ none ∧ s.client.requiresExplicitStart then
      s.resetFailedSession out else s) := by
    split
    · exact (resetFailedSession_inv h out).1
    · exact h
  unfold syncFullText
  dsimp only
  generalize (if s.session.sessionId ≠ none ∧ s.client.requiresExplicitStart then
    s.resetFailedSession out else s) = u at h₁
  rcases InputSession.startLocalDraft_spec u.session true out.newId with
    hsame | ⟨hid, -, hsession, hstart⟩
  · rw [hsame]
    refine Same.inv (s := u) ⟨h₁.regular, rfl, rfl, rfl, rfl, ?_, rfl, rfl, rfl⟩ h₁ fun _ hp => hp
    exact SyncClient.startOfflineDraft_keeps u.client out.linked
  · obtain ⟨hlatest, -⟩ := h₁.idle hid
    have hopened : (u.session.startLocalDraft true out.newId).1.sessionId ≠ none := by
      simp [hsession]
    obtain ⟨m, hm⟩ := InputSession.snapshot_isSome hopened .start
    rw [hstart, hm]
    refine inv_live ⟨?_, hlatest, h₁.paired hlatest⟩ (SyncClient.send_latest _ _ _)
      (InputSession.snapshot_current hm)
    change (u.session.startLocalDraft true out.newId).1.Regular
    rw [hsession]
    exact h₁.regular.opened hid _ _

theorem sync_inv (h : s.Inv) {out : Outside}
    (hok : s.session.currentText = "" ∨ s.syncsFullText = true ∨
      s.targetState ≠ some .notForeground ∨ s.CursorOk)
    (ht : s.sync out = some t) : t.Inv := by
  unfold sync at ht
  split at ht
  · cases ht
    exact h
  · next htext =>
    split at ht
    · cases ht
      exact syncFullText_inv h out
    · next hfull =>
      split at ht
      · next htarget =>
        have hcursor := ((hok.resolve_left htext).resolve_left hfull).resolve_left
          (not_not.mpr htarget)
        exact syncToCurrentCursor_inv h hcursor ht
      · cases ht
        exact h

theorem replaceWithHistory_inv (h : s.Inv) {text : String}
    (ht : s.replaceWithHistory text = some t) : t.Inv := by
  unfold replaceWithHistory at ht
  split at ht
  · cases ht
    exact h
  · next hid =>
    have hnone : s.session.sessionId = none := not_not.mp hid
    obtain ⟨hlatest, hempty⟩ := h.idle hnone
    obtain ⟨session, hreplace, rfl⟩ := Option.map_eq_some_iff.mp ht
    unfold InputSession.replaceLocalDraft at hreplace
    split at hreplace
    · cases hreplace
    · cases hreplace
      apply saveDraftNow_inv
      exact inv_idle ⟨h.regular.acknowledged, h.regular.unfinished, h.regular.unopened⟩ hnone
        hempty hlatest (h.paired hlatest)

/-- No text without a computer has a session that would go along. -/
def SwitchOk (s : FlowTypeController) (pcId : String) : Prop :=
  s.sessions.CarriesTo pcId → s.session.sessionId = none

instance (s : FlowTypeController) (pcId : String) : Decidable (s.SwitchOk pcId) :=
  inferInstanceAs (Decidable (_ → _))

/-- What the save leaves of the active computer: a draft, unless there is no session. -/
theorem saveCurrent_stored {sessions : ComputerSessions} {started : Bool} {pcId : String}
    (hactive : sessions.activePcId = some pcId) (hid : sessions.current.sessionId ≠ none) :
    (sessions.saveCurrent started).store pcId ≠ none := by
  have hblank : ¬ DraftStore.Blank sessions.current.state := fun hblank => hid hblank.1
  unfold ComputerSessions.saveCurrent
  rw [hactive]
  dsimp only
  rw [if_neg hblank]
  simp [ComputerSessions.save]

theorem saveCurrent_unassigned {sessions : ComputerSessions} (started : Bool)
    (hactive : sessions.activePcId = none) : sessions.saveCurrent started = sessions := by
  unfold ComputerSessions.saveCurrent
  rw [hactive]

/-- A restore after the client was reset: a session that stays needs its stored draft. -/
theorem reset_restored {pcId : String} (hregular : s.session.Regular)
    (hstays : s.Stays pcId → s.session.sessionId = none ∨
      s.sessions.activePcId = some pcId ∧ s.sessions.store pcId ≠ none)
    (h : { s with client := s.client.resetForTargetSelection }.restoreSessionFor pcId = some t) :
    Elsewhere s t ∧ t.Coupled := by
  have hreset : OutboundQueue.Empty s.client.resetForTargetSelection.queue :=
    OutboundQueue.abandonSession_empty _
  obtain ⟨helse, hrestored⟩ := restoreSessionFor_cases
    (s := { s with client := s.client.resetForTargetSelection }) hregular h
  refine ⟨⟨helse.posted, helse.start, helse.latest, helse.selecting, helse.regular⟩, ?_⟩
  cases hrestored with
  | queued _ hlatest hcurrent => exact coupled_live hlatest hcurrent
  | stays hs hsession hclient hunsaved =>
    have hempty : t.client.queue.Empty := by
      rw [hclient]
      exact hreset
    apply coupled_idle _ hempty
    rw [hsession]
    rcases hunsaved with hidle | hnot
    · exact hidle
    · exact (hstays hs).resolve_right hnot
  | blank _ hidle hclient _ =>
    apply coupled_idle hidle
    rw [hclient]
    exact hreset

theorem switchToComputer_inv (h : s.Inv) {binding : ComputerBinding}
    (hok : s.SwitchOk binding.pcId) (ht : s.switchToComputer binding = some t) : t.Inv := by
  obtain ⟨u, hu, rfl⟩ := Option.map_eq_some_iff.mp ht
  have hsession := saveDraftNow_session s
  have hactive := ComputerSessions.saveCurrent_activePcId s.sessions s.client.remoteStarted
  have hregular : s.saveDraftNow.session.Regular := by
    rw [hsession]
    exact h.regular
  have hrestored := reset_restored hregular ?_ hu
  · obtain ⟨helse, hcoupled⟩ := hrestored
    apply connect_inv
    apply Settled.inv
    · exact ⟨helse.regular, rfl, rfl⟩
    · exact Or.inl (coupled_congr rfl rfl hcoupled)
  · rw [hsession]
    intro hstays
    by_cases hid : s.session.sessionId = none
    · exact Or.inl hid
    · rcases hstays with hsame | hcarry
      · rw [show s.saveDraftNow.sessions.activePcId = s.sessions.activePcId from hactive] at hsame ⊢
        exact Or.inr ⟨hsame, saveCurrent_stored hsame hid⟩
      · -- without an active computer nothing was saved
        have hunassigned : s.sessions.activePcId = none := hactive.symm.trans hcarry.1
        have hsaved : s.saveDraftNow.sessions = s.sessions := saveCurrent_unassigned _ hunassigned
        rw [hsaved] at hcarry
        exact Or.inl (hok hcarry)

theorem saveBinding_inv (h : s.Inv) (binding : ComputerBinding) : (s.saveBinding binding).Inv :=
  h.congr ⟨rfl, rfl, rfl, rfl, h.regular⟩ rfl rfl

theorem acceptBinding_inv (h : s.Inv) {binding : ComputerBinding} (hok : s.SwitchOk binding.pcId)
    (ht : s.acceptBinding binding = some t) : t.Inv :=
  switchToComputer_inv (saveBinding_inv h binding) hok ht

theorem setAutoSelectComputer_inv (h : s.Inv) {enabled : Bool}
    (ht : s.setAutoSelectComputer enabled = some t) : t.Inv := by
  unfold setAutoSelectComputer at ht
  split at ht
  · cases ht
    exact h
  · next hid =>
    have hset : Inv { s with autoSelectComputer := enabled } :=
      h.congr ⟨rfl, rfl, rfl, rfl, h.regular⟩ rfl rfl
    dsimp only at ht
    split at ht
    · exact beginAutoSelection_inv hset ht
    · cases ht
      have hnone : s.session.sessionId = none := not_not.mp hid
      exact inv_idle h.regular hnone (h.idle hnone).2 rfl rfl

theorem selectComputer_inv (h : s.Inv) {pcId : String}
    (hok : s.currentBinding.map (·.pcId) ≠ some pcId → s.SwitchOk pcId)
    (ht : s.selectComputer pcId = some t) : t.Inv := by
  unfold selectComputer at ht
  split at ht
  · cases ht
    exact h
  · next binding hfind =>
    have hpcId : binding.pcId = pcId := by simpa using List.find?_some hfind
    have hsaved := saveBinding_inv h binding
    dsimp only at ht
    split at ht
    · cases ht
      have hretargeted := retarget_inv hsaved none
      exact (same_client hretargeted.regular (SyncClient.restartSocket_keeps _)).inv hretargeted
        fun _ hp => hp
    · next hother =>
      refine switchToComputer_inv hsaved ?_ ht
      rw [hpcId]
      exact hok hother

theorem renameComputer_inv (h : s.Inv) : s.renameComputer.Inv :=
  h.congr ⟨rfl, rfl, rfl, rfl, h.regular⟩ rfl rfl

/-- A session without a computer to go on with may only be left when nothing waits; one
that stays needs its stored draft. -/
theorem fallBack_inv (hsettled : s.Settled)
    (hempty : s.computers = [] → s.client.queue.Empty)
    (hnext : s.session.sessionId = none ∨ ∃ next ∈ s.computers.head?,
      ¬ s.sessions.CarriesTo next.pcId ∧
        (s.sessions.activePcId = some next.pcId → s.sessions.store next.pcId ≠ none))
    (ht : s.fallBack = some t) : t.Inv := by
  unfold fallBack at ht
  split at ht
  · next hcomputers =>
    cases ht
    have hid : s.session.sessionId = none := by
      rcases hnext with hid | ⟨next, hhead, -⟩
      · exact hid
      · rw [hcomputers] at hhead
        cases hhead
    exact inv_idle hsettled.regular hid (hempty hcomputers) hsettled.latest hsettled.start
  · next binding rest hcomputers =>
    obtain ⟨u, hu, rfl⟩ := Option.map_eq_some_iff.mp ht
    have hrestored := reset_restored hsettled.regular ?_ hu
    · obtain ⟨helse, hcoupled⟩ := hrestored
      exact connect_inv ((hsettled.elsewhere helse).inv (Or.inl hcoupled)) binding
    · intro hstays
      rcases hnext with hid | ⟨next, hhead, hcarry, hstored⟩
      · exact Or.inl hid
      · rw [hcomputers] at hhead
        cases hhead
        have hactive := hstays.resolve_right hcarry
        exact Or.inr ⟨hactive, hstored hactive⟩

/-- The computer that `forget` removes from the live session. -/
theorem forget_session (s : FlowTypeController) (pcId : String) :
    (s.sessions.activePcId = some pcId ∧ (s.forget pcId).session = s.sessions.newSession ∧
      (s.forget pcId).sessions.activePcId = none) ∨
    (s.sessions.activePcId ≠ some pcId ∧ (s.forget pcId).session = s.session ∧
      (s.forget pcId).sessions.activePcId = s.sessions.activePcId) := by
  by_cases hactive : s.sessions.activePcId = some pcId
  · refine Or.inl ⟨hactive, ?_, ?_⟩
    all_goals simp [forget, removeBinding, session, ComputerSessions.remove, hactive]
  · refine Or.inr ⟨hactive, ?_, ?_⟩
    all_goals simp [forget, removeBinding, session, ComputerSessions.remove, hactive,
      ComputerSessions.clear]

theorem forget_regular (h : s.session.Regular) (pcId : String) :
    (s.forget pcId).session.Regular := by
  rcases forget_session s pcId with ⟨-, hsession, -⟩ | ⟨-, hsession, -⟩
  · rw [hsession]
    exact InputSession.regular_new _
  · rw [hsession]
    exact h

theorem forget_idle (hid : s.session.sessionId = none) (pcId : String) :
    (s.forget pcId).session.sessionId = none := by
  rcases forget_session s pcId with ⟨-, hsession, -⟩ | ⟨-, hsession, -⟩
  · rw [hsession]
    rfl
  · rw [hsession]
    exact hid

theorem forget_store {pcId other : String} (hne : other ≠ pcId) :
    (s.forget pcId).sessions.store other = s.sessions.store other := by
  unfold forget removeBinding ComputerSessions.remove
  dsimp only
  split <;> exact Function.update_of_ne hne _ _

/-- The removed computer has no text that waits, or the next one takes the session. -/
def NextOk (s : FlowTypeController) (pcId : String) : Prop :=
  s.session.sessionId = none ∨ s.pendingAutoLatest = none ∧
    (s.sessions.activePcId = some pcId ∨
      ∃ next ∈ (s.computers.filter fun b => decide (b.pcId ≠ pcId)).head?,
        ¬ s.sessions.CarriesTo next.pcId ∧
          (s.sessions.activePcId = some next.pcId → s.sessions.store next.pcId ≠ none))

instance (s : FlowTypeController) (pcId : String) : Decidable (s.NextOk pcId) :=
  inferInstanceAs (Decidable (_ ∨ _ ∧ (_ ∨ ∃ next ∈ List.head? _, _ ∧ _)))

def ForgetOk (s : FlowTypeController) (pcId : String) : Prop :=
  s.sessions.activePcId ≠ some pcId ∨ s.session.sessionId = none ∨
    s.client.queue.Empty ∧ s.pendingAutoLatest = none

instance (s : FlowTypeController) (pcId : String) : Decidable (s.ForgetOk pcId) :=
  inferInstanceAs (Decidable (_ ∨ _ ∨ _))

theorem forget_inv (h : s.Inv) {pcId : String} (hok : s.ForgetOk pcId) :
    (s.forget pcId).Inv := by
  have hregular := forget_regular h.regular pcId
  rcases forget_session s pcId with ⟨hactive, hsession, -⟩ | ⟨-, hsession, -⟩
  · have hid : (s.forget pcId).session.sessionId = none := by
      rw [hsession]
      rfl
    rcases hok.resolve_left (not_not.mpr hactive) with hnone | ⟨hempty, hlatest⟩
    · obtain ⟨hlatest, hempty⟩ := h.idle hnone
      exact inv_idle hregular hid hempty hlatest (h.paired hlatest)
    · exact inv_idle hregular hid hempty hlatest (h.paired hlatest)
  · exact h.congr ⟨rfl, rfl, rfl, rfl, hregular⟩ hsession rfl

/-- The next computer is connected after `pcId` was removed. -/
theorem forget_fallBack_inv {pcId : String} (hsettled : s.Settled)
    (hempty : (s.forget pcId).computers = [] → s.client.queue.Empty) (hok : s.NextOk pcId)
    (ht : (s.forget pcId).fallBack = some t) : t.Inv := by
  have hforgotten : (s.forget pcId).Settled :=
    ⟨forget_regular hsettled.regular pcId, hsettled.latest, hsettled.start⟩
  refine fallBack_inv hforgotten hempty ?_ ht
  rcases hok with hid | ⟨-, hremoved | ⟨next, hhead, hcarry, hstored⟩⟩
  · exact Or.inl (forget_idle hid pcId)
  · left
    rcases forget_session s pcId with ⟨-, hsession, -⟩ | ⟨hother, -, -⟩
    · rw [hsession]
      rfl
    · exact absurd hremoved hother
  · rcases forget_session s pcId with ⟨-, hsession, -⟩ | ⟨-, hsession, hactive⟩
    · left
      rw [hsession]
      rfl
    · right
      have hnext : next ∈ s.computers.filter fun b => decide (b.pcId ≠ pcId) :=
        List.mem_of_mem_head? hhead
      have hne : next.pcId ≠ pcId := by simpa using (List.mem_filter.mp hnext).2
      have hstore := forget_store (s := s) hne
      refine ⟨next, hhead, ?_, ?_⟩
      · intro hcarries
        apply hcarry
        have htext : s.session.currentText ≠ "" := by
          rw [← hsession]
          exact hcarries.2.2
        exact ⟨hactive.symm.trans hcarries.1, hstore.symm.trans hcarries.2.1, htext⟩
      · rw [hactive, hstore]
        exact hstored

theorem unbindComputer_inv (h : s.Inv) {pcId : String} {out : Outside}
    (hok : if s.currentBinding.map (·.pcId) = some pcId then s.NextOk pcId else s.ForgetOk pcId)
    (ht : s.unbindComputer pcId out = some t) : t.Inv := by
  unfold unbindComputer at ht
  split at ht
  · next hselected =>
    rw [if_pos hselected] at hok
    have hlatest : s.pendingAutoLatest = none := by
      rcases hok with hid | ⟨hlatest, -⟩
      · exact (h.idle hid).1
      · exact hlatest
    have hempty : OutboundQueue.Empty (if s.session.sessionId = none then s.client
        else s.client.abandonSession out.linked).shutdown.queue := by
      split
      · next hid => exact (h.idle hid).2
      · exact SyncClient.abandonSession_empty s.client out.linked
    exact forget_fallBack_inv (s := { s with client := (if s.session.sessionId = none then s.client
      else s.client.abandonSession out.linked).shutdown })
      ⟨h.regular, hlatest, h.paired hlatest⟩ (fun _ => hempty) hok ht
  · next hother =>
    rw [if_neg hother] at hok
    cases ht
    exact forget_inv h hok

theorem activateCurrentConnectivity_inv (h : s.Inv)
    (ht : s.activateCurrentConnectivity = some t) : t.Inv := by
  have hbegin : ∀ u : FlowTypeController, u.Inv →
      (if u.shouldBeginAutoSelection then u.beginAutoSelection else some u) = some t → t.Inv := by
    intro u hu hut
    split at hut
    · exact beginAutoSelection_inv hu hut
    · cases hut
      exact hu
  refine hbegin _ ?_ ht
  split
  · exact h
  · exact connect_inv h _

theorem resumeConnectivity_inv (h : s.Inv) (ht : s.resumeConnectivity = some t) : t.Inv := by
  unfold resumeConnectivity at ht
  split at ht
  · cases ht
    exact h
  · have hrunning : Inv { s with connectivityRunning := true } :=
      h.congr ⟨rfl, rfl, rfl, rfl, h.regular⟩ rfl rfl
    dsimp only at ht
    split at ht
    · exact activateCurrentConnectivity_inv hrunning ht
    · cases ht
      exact hrunning

theorem suspendConnectivity_inv (h : s.Inv)
    (hok : s.connectivityRunning = true → s.Queued) : s.suspendConnectivity.Inv := by
  unfold suspendConnectivity
  split
  · exact h
  · next hrunning =>
    have hqueued := hok (by simpa using hrunning)
    have hkeeps := OutboundQueue.onDisconnected_keeps s.client.queue
    have hsame : Same { s with pendingAutoStart := none, pendingAutoLatest := none }
        { s.clearAutoSelection with
          autoSelecting := s.autoSelecting
          connectivityRunning := false
          client := s.client.shutdown
          targetState := none } := ⟨h.regular, rfl, rfl, rfl, rfl, hkeeps, rfl, rfl, rfl⟩
    refine Settled.inv ⟨h.regular, rfl, rfl⟩ ?_
    rcases hqueued.coupled h with hcoupled | hending
    · exact Or.inl (coupled_congr rfl rfl (hsame.coupled (coupled_congr rfl rfl hcoupled)))
    · exact Or.inr (ending_congr rfl rfl rfl
        (hsame.ending (fun _ hp => hp) (ending_congr rfl rfl rfl hending)))

theorem switchFromWindows_inv (h : s.Inv) {pcId : String} {required : Bool}
    (hok : s.currentBinding.map (·.pcId) ≠ some pcId → s.SwitchOk pcId)
    (ht : s.switchFromWindows pcId required = some t) : t.Inv := by
  unfold switchFromWindows at ht
  split at ht
  · cases ht
    exact h
  · next binding hfind =>
    have hpcId : binding.pcId = pcId := by simpa using List.find?_some hfind
    have hsaved := saveBinding_inv h binding
    dsimp only at ht
    split at ht
    · split at ht
      · exact resumeConnectivity_inv hsaved ht
      · cases ht
        exact hsaved
    · next hother =>
      refine switchToComputer_inv hsaved ?_ ht
      rw [hpcId]
      exact hok hother

/-- The stored draft of the process comes in before text was typed, or there is one. -/
def PreloadOk (s : FlowTypeController) : Prop :=
  ∀ binding ∈ s.currentBinding, s.Stays binding.pcId ∨
    s.pendingAutoLatest = none ∧ (s.client.queue.Empty ∨ s.StoresSession binding.pcId)

instance (s : FlowTypeController) : Decidable s.PreloadOk :=
  inferInstanceAs (Decidable (∀ binding ∈ s.currentBinding, _))

theorem restoreSessionFor_inv (h : s.Inv) {pcId : String}
    (hok : s.Stays pcId ∨
      s.pendingAutoLatest = none ∧ (s.client.queue.Empty ∨ s.StoresSession pcId))
    (ht : s.restoreSessionFor pcId = some t) : t.Inv := by
  obtain ⟨helse, hrestored⟩ := restoreSessionFor_cases h.regular ht
  cases hrestored with
  | queued hkept hlatest hcurrent =>
    rcases hkept with hsession | hleaves
    · exact h.requeued helse hsession hlatest hcurrent
    · have hnone := (hok.resolve_left hleaves).1
      exact inv_live ((h.settled hnone).elsewhere helse) hlatest hcurrent
  | stays _ hsession hclient _ => exact h.congr helse hsession hclient
  | blank hleaves hidle hclient hstored =>
    obtain ⟨hnone, hempty | ⟨parked, hparked, hid⟩⟩ := hok.resolve_left hleaves
    · apply ((h.settled hnone).elsewhere helse).inv
      refine Or.inl (coupled_idle hidle ?_)
      rw [hclient]
      exact hempty
    · exact absurd (hstored parked hparked) hid

theorem preloaded_inv (h : s.Inv) {fileActive : Bool} (hok : s.PreloadOk)
    (ht : s.preloaded fileActive = some t) : t.Inv := by
  have hready : Inv { s with storageReady := true } :=
    h.congr ⟨rfl, rfl, rfl, rfl, h.regular⟩ rfl rfl
  obtain ⟨u, hu, ht⟩ := Option.bind_eq_some_iff.mp ht
  have huinv : u.Inv := by
    split at hu
    · cases hu
      exact hready
    · next binding hbinding => exact restoreSessionFor_inv hready (hok binding hbinding) hu
  split at ht
  · exact resumeConnectivity_inv huinv ht
  · split at ht
    · exact activateCurrentConnectivity_inv huinv ht
    · cases ht
      exact huinv

def ReceiveOk (s : FlowTypeController) : SyncClient.ServerMessage → Prop
  | .ack ack => s.client.Empties (.ack ack) →
    s.pendingAutoLatest ≠ none ∨ s.session.FinishedBy ack
  | _ => True

instance (s : FlowTypeController) (message : SyncClient.ServerMessage) :
    Decidable (s.ReceiveOk message) := by
  apply SyncClient.ServerMessage.casesOn (motive := fun message => Decidable (s.ReceiveOk message))
    message <;> intros <;> unfold ReceiveOk <;> infer_instance

theorem stepReceive_inv (h : s.Inv) {message : SyncClient.ServerMessage} {linked : Bool}
    (hok : s.ReceiveOk message) (ht : s.stepReceive message linked = some t) : t.Inv := by
  unfold stepReceive at ht
  split at ht
  · cases ht
  · next current hbinding =>
    split at ht
    · cases ht
    · cases ht
      by_cases hends : s.client.Empties message
      · -- the queue is empty, and the handler that ends the session is posted
        obtain ⟨hempty, hcalls⟩ := SyncClient.onMessage_empties hends current linked
        refine ⟨h.regular, h.calm, h.paired, h.waiting, fun hnone => Or.inr ⟨hempty, ?_⟩⟩
        rcases hcalls with ⟨ack, rfl, hcall⟩ | ⟨error, hcode, hcall⟩
        · have hfinished := (hok hends).resolve_left (not_not.mpr hnone)
          refine ⟨.callback current.pcId (.ack ack), List.mem_append_right _ ?_, hfinished⟩
          simp [hcall]
        · refine ⟨.callback current.pcId (.serverError current error),
            List.mem_append_right _ ?_, hcode⟩
          simp [hcall]
      · have hkeeps := SyncClient.onMessage_keeps hends current linked
        refine Same.inv (s := s) ⟨h.regular, rfl, rfl, rfl, rfl, hkeeps, rfl, rfl, rfl⟩ h ?_
        exact fun p hp => List.mem_append_left _ hp

theorem stepConnectionLost_inv (h : s.Inv) {timeout : Bool}
    (ht : s.stepConnectionLost timeout = some t) : t.Inv := by
  unfold stepConnectionLost at ht
  split at ht
  · cases ht
  · next current hbinding =>
    split at ht
    · cases ht
    · cases ht
      have hkeeps := OutboundQueue.onDisconnected_keeps s.client.queue
      have hlost : Inv { s with client := s.client.withQueue s.client.queue.onDisconnected } :=
        (same_client h.regular hkeeps).inv h fun _ hp => hp
      split
      · exact retarget_inv hlost none
      · refine Same.inv (s := s) ⟨h.regular, rfl, rfl, rfl, rfl, hkeeps, rfl, rfl, rfl⟩ h ?_
        exact fun p hp => List.mem_append_left _ hp

theorem reopened_inv (h : s.Inv) : Inv { s with client := s.client.restartSocket } :=
  (same_client h.regular (SyncClient.restartSocket_keeps _)).inv h fun _ hp => hp

theorem stepProbed_inv (h : s.Inv) {winner : Option ComputerBinding}
    (ht : s.stepProbed winner = some t) : t.Inv := by
  unfold stepProbed at ht
  split at ht
  · cases ht
  · split at ht
    · cases ht
    · cases ht
      refine Same.inv (s := s) ⟨h.regular, rfl, rfl, rfl, rfl, OutboundQueue.Keeps.refl _, rfl,
        rfl, rfl⟩ h ?_
      exact fun p hp => List.mem_append_left _ hp

/-- The handler that is taken was the one that ends the session, or was not needed. -/
theorem popped {p : Posted} {rest : List Posted} (h : s.Inv) (hposted : s.posted = p :: rest) :
    Inv { s with posted := rest } ∨ p.Ends s.session := by
  by_cases hends : p.Ends s.session
  · exact Or.inr hends
  · left
    refine ⟨h.regular, h.calm, h.paired, h.waiting, fun hnone => ?_⟩
    rcases h.coupled hnone with hcoupled | ⟨hempty, q, hq, hq'⟩
    · exact Or.inl (coupled_congr rfl rfl hcoupled)
    · rw [hposted] at hq
      rcases List.mem_cons.mp hq with rfl | hrest
      · exact absurd hq' hends
      · exact Or.inr ⟨hempty, q, hrest, hq'⟩

theorem onReady_inv (h : s.Inv) (binding : ComputerBinding) (out : Outside) :
    (s.onReady binding out).Inv := by
  have hpaired : Inv { s.saveBinding binding.pairedAtCurrentEndpoint with
      currentBinding := some binding.pairedAtCurrentEndpoint, targetState := none } :=
    h.congr ⟨rfl, rfl, rfl, rfl, h.regular⟩ rfl rfl
  unfold onReady
  dsimp only
  split
  · cases hlatest : s.pendingAutoLatest with
    | none =>
      have hstart := h.paired hlatest
      rw [hstart]
      apply Settled.inv
      · exact ⟨h.regular, rfl, rfl⟩
      · rcases h.coupled hlatest with hcoupled | hending
        · exact Or.inl (coupled_congr rfl rfl hcoupled)
        · exact Or.inr (ending_congr rfl rfl rfl hending)
    | some m =>
      -- the START goes first, unless it is the latest one itself
      obtain ⟨before, hunsent⟩ : ∃ before, s.pendingAutoStart.toList ++ (some m).toList.filter
          (fun latest => decide (some latest ≠ s.pendingAutoStart)) = before ++ [m] := by
        by_cases hstart : s.pendingAutoStart = some m
        · exact ⟨[], by simp [hstart]⟩
        · exact ⟨s.pendingAutoStart.toList, by simp [Ne.symm hstart]⟩
      rw [hunsent]
      apply inv_live
      · exact ⟨h.regular, rfl, rfl⟩
      · exact SyncClient.foldl_send_latest _ _ _ _
      · exact h.waiting m hlatest
  · exact hpaired

theorem onAck_inv {ack : AckMessage} (h : ¬ s.session.FinishedBy ack → s.Inv)
    (hregular : s.session.Regular)
    (hok : s.session.FinishedBy ack → s.client.queue.Empty ∧ s.pendingAutoLatest = none ∧
      s.pendingAutoStart = none) : (s.onAck ack).Inv := by
  have hfinished := InputSession.acknowledge_finished hregular ack
  unfold onAck
  dsimp only
  by_cases hends : s.session.FinishedBy ack
  · obtain ⟨hempty, hlatest, hstart⟩ := hok hends
    have hdone : (s.withSession (s.session.acknowledge ack)).session.finished = true :=
      hfinished.mpr hends
    rw [if_pos hdone]
    exact inv_idle (InputSession.regular_reset _) rfl hempty hlatest hstart
  · have hactive : ¬ (s.withSession (s.session.acknowledge ack)).session.finished = true :=
      fun hdone => hends (hfinished.mp hdone)
    rw [if_neg hactive]
    obtain ⟨hid, hsequence, htext, hfinishing⟩ := InputSession.acknowledge_same s.session ack
    exact Same.inv (s := s) ⟨InputSession.regular_acknowledge hregular hends, hid, hsequence,
      htext, hfinishing, OutboundQueue.Keeps.refl _, rfl, rfl, rfl⟩ (h hends) fun _ hp => hp

theorem onTarget_inv (h : s.Inv) (target : TargetMessage) (out : Outside) :
    (s.onTarget target out).Inv := by
  have hretargeted := retarget_inv h (some target.targetState)
  unfold onTarget
  dsimp only
  split
  · exact (resetFailedSession_inv hretargeted out).1
  · exact hretargeted

theorem onServerError_inv {error : ErrorMessage} (h : error.code ≠ .targetSubmitted → s.Inv)
    (hok : error.code = .targetSubmitted → s.client.queue.Empty) (out : Outside) :
    (s.onServerError error out).Inv := by
  unfold onServerError
  split
  · next hcode => exact inv_idle (InputSession.regular_reset _) rfl (hok hcode) rfl rfl
  · next hcode => exact (resetFailedSession_inv (h hcode) out).1

/-- The computers that are left when `pcId` goes. -/
def others (s : FlowTypeController) (pcId : String) : List ComputerBinding :=
  s.computers.filter fun b => decide (b.pcId ≠ pcId)

/-- The computer of a rejected pairing goes without its session's text. -/
def PairingOk (s : FlowTypeController) (pcId : String) : Prop :=
  if s.others pcId = [] then s.ForgetOk pcId else s.NextOk pcId

instance (s : FlowTypeController) (pcId : String) : Decidable (s.PairingOk pcId) := by
  unfold PairingOk
  infer_instance

theorem onPairingInvalid_inv (h : s.Inv) {binding : ComputerBinding}
    (hok : s.PairingOk binding.pcId) (ht : s.onPairingInvalid binding = some t) : t.Inv := by
  have hretargeted := retarget_inv h none
  unfold onPairingInvalid at ht
  by_cases hleft : s.others binding.pcId = []
  · have hforget : s.ForgetOk binding.pcId := by rwa [PairingOk, if_pos hleft] at hok
    have hforgotten := forget_inv hretargeted hforget
    unfold fallBack at ht
    split at ht
    · cases ht
      exact hforgotten.congr ⟨rfl, rfl, rfl, rfl, hforgotten.regular⟩ rfl rfl
    · next hcomputers => exact absurd (hleft.symm.trans hcomputers) (by simp)
  · have hnext : s.NextOk binding.pcId := by rwa [PairingOk, if_neg hleft] at hok
    have hlatest : s.pendingAutoLatest = none := by
      rcases hnext with hid | ⟨hlatest, -⟩
      · exact (h.idle hid).1
      · exact hlatest
    exact forget_fallBack_inv (hretargeted.settled hlatest) (fun hnone => absurd hnone hleft)
      hnext ht

def HandleOk (s : FlowTypeController) : Posted → Prop
  | .callback _ (.ack ack) =>
    s.session.FinishedBy ack → s.client.queue.Empty ∧ s.pendingAutoLatest = none
  | .callback _ (.serverError _ error) =>
    error.code = .targetSubmitted → s.client.queue.Empty
  | .callback _ (.pairingInvalid binding) => s.PairingOk binding.pcId
  | .chosen winner fallback => s.ChosenOk winner fallback
  | _ => True

instance (s : FlowTypeController) (posted : Posted) : Decidable (s.HandleOk posted) := by
  apply Posted.casesOn (motive := fun posted => Decidable (s.HandleOk posted)) posted <;> intros
  · rename_i pcId callback
    apply Callback.casesOn (motive := fun callback => Decidable (s.HandleOk (.callback pcId callback)))
      callback <;> intros <;> unfold HandleOk <;> infer_instance
  · unfold HandleOk
    infer_instance

theorem stepRun_inv (h : s.Inv) {out : Outside} (hok : ∀ p ∈ s.posted.head?, s.HandleOk p)
    (ht : s.stepRun out = some t) : t.Inv := by
  unfold stepRun at ht
  split at ht
  · cases ht
  · next p rest hposted =>
    have hp : s.HandleOk p := hok p (by simp [hposted])
    have hpopped := popped h hposted
    cases p with
    | chosen winner fallback =>
      exact onChosen_inv (hpopped.resolve_right id) hp ht
    | callback pcId callback =>
      cases callback with
      | ready binding =>
        cases ht
        exact onReady_inv (hpopped.resolve_right id) binding out
      | ack ack =>
        cases ht
        refine onAck_inv (fun hactive => hpopped.resolve_right hactive) h.regular fun hends => ?_
        obtain ⟨hempty, hlatest⟩ := hp hends
        exact ⟨hempty, hlatest, h.paired hlatest⟩
      | target target =>
        cases ht
        exact onTarget_inv (hpopped.resolve_right id) target out
      | disconnected =>
        cases ht
        exact retarget_inv (hpopped.resolve_right id) none
      | serverError binding error =>
        cases ht
        exact onServerError_inv (fun hcode => hpopped.resolve_right hcode) hp out
      | pairingInvalid binding =>
        exact onPairingInvalid_inv (hpopped.resolve_right id) hp ht

end Operations

/-- What an event needs of the state it meets. Text that only waits for an automatic
selection, or that a restored session brings along without its queue, is what the
handlers lose. -/
def CoupleOk (s : FlowTypeController) : Event → Prop
  | .syncToCurrentCursor _ => s.CursorOk
  | .sync _ => s.session.currentText = "" ∨ s.syncsFullText = true ∨
      s.targetState ≠ some .notForeground ∨ s.CursorOk
  | .acceptBinding binding => s.SwitchOk binding.pcId
  | .selectComputer pcId => s.currentBinding.map (·.pcId) ≠ some pcId → s.SwitchOk pcId
  | .switchFromWindows pcId _ => s.currentBinding.map (·.pcId) ≠ some pcId → s.SwitchOk pcId
  | .unbindComputer pcId _ =>
    if s.currentBinding.map (·.pcId) = some pcId then s.NextOk pcId else s.ForgetOk pcId
  | .suspendConnectivity => s.connectivityRunning = true → s.Queued
  | .preloaded _ => s.PreloadOk
  | .receive message _ => s.ReceiveOk message
  | .run _ => ∀ p ∈ s.posted.head?, s.HandleOk p
  | _ => True

instance (s : FlowTypeController) (e : Event) : Decidable (s.CoupleOk e) := by
  cases e <;> unfold CoupleOk <;> infer_instance

theorem step_inv {s t : FlowTypeController} (e : Event) (h : s.Inv) (hok : s.CoupleOk e)
    (ht : s.step e = some t) : t.Inv := by
  cases e with
  | textChanged text out => exact textChanged_inv h ht
  | clearCurrentInput out => exact clearCurrentInput_inv h ht
  | finish out => exact finish_inv h ht
  | abandonSyncAndFinish out => exact abandonSyncAndFinish_inv h ht
  | startNewSession out => exact startNewSession_inv h ht
  | syncToCurrentCursor out => exact syncToCurrentCursor_inv h hok ht
  | syncFullText out =>
    cases ht
    exact syncFullText_inv h out
  | sync out => exact sync_inv h hok ht
  | replaceWithHistory text => exact replaceWithHistory_inv h ht
  | acceptBinding binding => exact acceptBinding_inv h hok ht
  | setAutoSelectComputer enabled => exact setAutoSelectComputer_inv h ht
  | selectComputer pcId => exact selectComputer_inv h hok ht
  | renameComputer =>
    cases ht
    exact renameComputer_inv h
  | unbindComputer pcId out => exact unbindComputer_inv h hok ht
  | switchFromWindows pcId required => exact switchFromWindows_inv h hok ht
  | resumeConnectivity => exact resumeConnectivity_inv h ht
  | suspendConnectivity =>
    cases ht
    exact suspendConnectivity_inv h hok
  | saveDraft =>
    cases ht
    exact saveDraftNow_inv h
  | preloaded fileActive =>
    have hloaded : (if s.storageReady then none else s.preloaded fileActive) = some t := ht
    split at hloaded
    · cases hloaded
    · exact preloaded_inv h hok hloaded
  | receive message linked => exact stepReceive_inv h hok ht
  | connectionLost timeout => exact stepConnectionLost_inv h ht
  | reopened =>
    cases ht
    exact reopened_inv h
  | probed winner => exact stepProbed_inv h ht
  | run out => exact stepRun_inv h hok ht

theorem start_inv (phoneId : String) (store : String → Option ParkedSession)
    (computers : List ComputerBinding) (recoverablePcId : Option String)
    (autoSelectComputer : Bool) :
    (start phoneId store computers recoverablePcId autoSelectComputer).Inv :=
  inv_idle (InputSession.regular_new phoneId) rfl ⟨rfl, rfl, rfl⟩ rfl rfl

/-- The live session and the queue stay coupled in every run of the controller whose
events meet their conditions. -/
theorem coupled_always (phoneId : String) (store : String → Option ParkedSession)
    (computers : List ComputerBinding) (recoverablePcId : Option String)
    (autoSelectComputer : Bool) (es : List Event)
    (h : Along step CoupleOk
      (start phoneId store computers recoverablePcId autoSelectComputer) es) :
    Always step Sound (start phoneId store computers recoverablePcId autoSelectComputer) es := by
  have hstart := start_inv phoneId store computers recoverablePcId autoSelectComputer
  refine always_of_along Inv es hstart hstart.sound ?_ h
  intro s e t hinv hok hstep
  have ht := step_inv e hinv hok hstep
  exact ⟨ht, ht.sound⟩

/-- Two computers are paired and a computer is to be selected automatically. -/
def pairedStart : FlowTypeController :=
  start "phone" (fun _ => none) [⟨"pc1", none⟩, ⟨"pc2", none⟩] none true

def selectedRun : List Event :=
  [.preloaded false, .resumeConnectivity, .textChanged "a" ⟨"session", true⟩,
    .probed (some ⟨"pc2", none⟩), .run {}, .receive .ready true, .run {},
    .textChanged "ab" {}, .receive (.ack ⟨"session", 2, .active⟩) true, .run {},
    .finish {}, .receive (.ack ⟨"session", 2, .finished⟩) true, .run {}]

theorem coupled_selectedRun : Always step Sound pairedStart selectedRun :=
  coupled_always "phone" (fun _ => none) [⟨"pc1", none⟩, ⟨"pc2", none⟩] none true selectedRun
    (by decide +kernel)

/-- Text is typed while the computers are probed, and the connection is suspended. -/
def suspendedRun : List Event :=
  [.preloaded false, .resumeConnectivity, .textChanged "a" ⟨"session", true⟩,
    .suspendConnectivity]

theorem suspendedRun_not_coupled : ¬ Always step Sound pairedStart suspendedRun := by
  decide +kernel

end FlowTypeController

end FlowType
