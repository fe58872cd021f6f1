import FlowType.FlowTypeController

/-! The live session and the outbound queue: outside an automatic selection the latest
snapshot of the queue is the one of the session, and a queue without a session is
empty. What is typed during a selection waits in the pending snapshots; whatever drops
these, or replaces the session, has to leave the two together. -/
namespace FlowType

namespace OutboundQueue

def Empty (q : OutboundQueue) : Prop := q.latest = none ∧ q.pending = none ∧ q.inFlight = none

instance (q : OutboundQueue) : Decidable q.Empty := inferInstanceAs (Decidable (_ ∧ _ ∧ _))

/-- An operation that neither brings a snapshot nor drops the latest one. -/
structure Keeps (q q' : OutboundQueue) : Prop where
  latest : q'.latest = q.latest
  empty : q.Empty → q'.Empty

theorem Keeps.refl (q : OutboundQueue) : Keeps q q := ⟨rfl, id⟩

theorem Keeps.trans {q q₁ q₂ : OutboundQueue} (h₁ : Keeps q q₁) (h₂ : Keeps q₁ q₂) :
    Keeps q q₂ :=
  ⟨h₂.latest.trans h₁.latest, fun h => h₂.empty (h₁.empty h)⟩

theorem onDisconnected_keeps (q : OutboundQueue) : Keeps q q.onDisconnected := ⟨rfl, id⟩

theorem markSessionStarted_keeps (q : OutboundQueue) : Keeps q q.markSessionStarted := ⟨rfl, id⟩

theorem requireExplicitStart_keeps (q : OutboundQueue) : Keeps q q.requireExplicitStart :=
  ⟨rfl, fun h => ⟨h.1, h.1, rfl⟩⟩

theorem onConnected_keeps (q : OutboundQueue) : Keeps q q.onConnected.1 := by
  refine ⟨onConnected_latest q, fun h => ?_⟩
  have hnone : q.onConnected.1 = { q with connected := true } := by
    simp [onConnected, h.1, h.2.1, h.2.2]
  rw [hnone]
  exact h

theorem startOfflineDraft_keeps (q : OutboundQueue) : Keeps q q.startOfflineDraft.1 := by
  refine ⟨startOfflineDraft_latest q, fun h => ?_⟩
  have hnone : q.startOfflineDraft.1 = q := by
    unfold startOfflineDraft
    split
    · rfl
    · simp [h.1, h.2.1]
  rw [hnone]
  exact h

theorem abandonSession_empty (q : OutboundQueue) : q.abandonSession.Empty := ⟨rfl, rfl, rfl⟩

theorem not_acceptsSession {q : OutboundQueue} (h : q.Empty) (sessionId : String) :
    q.acceptsSession sessionId = false := by
  simp [acceptsSession, h.1, h.2.1, h.2.2]

/-- Only a final acknowledgement that is not stale empties the queue. -/
theorem acknowledge_keeps {q : OutboundQueue} {ack : AckMessage}
    (h : ack.finished = false ∨ ack.appliedSequence < q.lastAckSequence) :
    Keeps q (q.acknowledge ack).1 := by
  by_cases haccepts : q.acceptsSession ack.sessionId = false
  · have hsame : (q.acknowledge ack).1 = q := by simp [acknowledge, haccepts]
    rw [hsame]
    exact Keeps.refl q
  · have hnotempty : ¬ q.Empty := fun hempty => haccepts (not_acceptsSession hempty _)
    refine ⟨?_, fun hempty => absurd hempty hnotempty⟩
    unfold acknowledge
    rw [if_neg haccepts]
    rcases h with hactive | hstale
    · dsimp only
      split
      · rfl
      · rw [hactive]
        simp only [Bool.false_eq_true, if_false]
        split <;> rfl
    · rw [if_pos hstale]

theorem acknowledge_empty {q : OutboundQueue} {ack : AckMessage}
    (haccepts : q.acceptsSession ack.sessionId = true) (hfinal : ack.finished = true)
    (hfresh : q.lastAckSequence ≤ ack.appliedSequence) : (q.acknowledge ack).1.Empty := by
  have hnotstale : ¬ ack.appliedSequence < q.lastAckSequence := by omega
  simp [acknowledge, haccepts, hfinal, hnotstale, reset, Empty]

end OutboundQueue

namespace InputSession

/-- The snapshot has the id, the sequence and the text of the session. -/
def Current (session : InputSession) (m : SnapshotMessage) : Prop :=
  session.sessionId = some m.sessionId ∧ m.sequence = session.latestSequence ∧
    m.fullText = session.currentText

instance (session : InputSession) (m : SnapshotMessage) : Decidable (session.Current m) :=
  inferInstanceAs (Decidable (_ ∧ _ ∧ _))

structure Regular (session : InputSession) : Prop where
  acknowledged : session.acknowledgedSequence ≤ session.latestSequence
  unfinished : session.finished = false
  unopened : session.sessionId = none → session.latestSequence = 0

theorem snapshot_current {session : InputSession} {type : SnapshotType} {m : SnapshotMessage}
    (h : session.snapshot type = some m) : session.Current m := by
  obtain ⟨id, hid, rfl⟩ := Option.map_eq_some_iff.mp h
  exact ⟨hid, rfl, rfl⟩

theorem snapshot_isSome {session : InputSession} (h : session.sessionId ≠ none)
    (type : SnapshotType) : ∃ m, session.snapshot type = some m := by
  obtain ⟨id, hid⟩ := Option.ne_none_iff_exists'.mp h
  unfold snapshot
  rw [hid]
  exact ⟨_, rfl⟩

theorem regular_new (phoneId : String) : Regular { phoneId } := ⟨le_rfl, rfl, fun _ => rfl⟩

theorem regular_reset (session : InputSession) : session.reset.Regular :=
  ⟨le_rfl, rfl, fun _ => rfl⟩

theorem regular_resetForReplacement (session : InputSession) (text : String) :
    (session.resetForReplacement text).Regular := ⟨le_rfl, rfl, fun _ => rfl⟩

theorem regular_restore {session restored : InputSession} {st : State}
    (h : session.restore st = some restored) : restored.Regular := by
  unfold restore at h
  split_ifs at h with h1 h2
  cases h
  refine ⟨?_, rfl, h2.mp⟩
  dsimp only
  omega

/-- The session that `startLocalDraft` opens. -/
theorem Regular.opened {session : InputSession} (h : session.Regular)
    (hid : session.sessionId = none) (newId : String) (attach : Bool) :
    Regular { session with
      sessionId := some newId, attachExistingAtCursor := attach, latestSequence := 1 } := by
  have hack := h.acknowledged
  have hzero := h.unopened hid
  refine ⟨?_, h.unfinished, fun hnone => absurd hnone (Option.some_ne_none _)⟩
  dsimp only
  omega

theorem Regular.finishing {session : InputSession} (h : session.Regular)
    (hid : session.sessionId ≠ none) :
    Regular { session with
      finishing := true
      latestSequence := if session.latestSequence = 0 then 1 else session.latestSequence } := by
  have hack := h.acknowledged
  refine ⟨?_, h.unfinished, fun hnone => absurd hnone hid⟩
  dsimp only
  split <;> omega

/-- A regular session takes an acknowledgement without losing its snapshot. -/
theorem acknowledge_same (session : InputSession) (ack : AckMessage) :
    (session.acknowledge ack).sessionId = session.sessionId ∧
      (session.acknowledge ack).latestSequence = session.latestSequence ∧
      (session.acknowledge ack).currentText = session.currentText ∧
      (session.acknowledge ack).finishing = session.finishing := by
  unfold acknowledge
  split
  · exact ⟨rfl, rfl, rfl, rfl⟩
  · dsimp only
    split_ifs <;> exact ⟨rfl, rfl, rfl, rfl⟩

/-- The acknowledgement finishes the session. -/
def FinishedBy (session : InputSession) (ack : AckMessage) : Prop :=
  ack.finished = true ∧ session.sessionId = some ack.sessionId ∧ session.finishing = true ∧
    session.latestSequence ≤ ack.appliedSequence

instance (session : InputSession) (ack : AckMessage) : Decidable (session.FinishedBy ack) :=
  inferInstanceAs (Decidable (_ ∧ _ ∧ _ ∧ _))

theorem acknowledge_finished {session : InputSession} (hregular : session.Regular)
    (ack : AckMessage) :
    (session.acknowledge ack).finished = true ↔ session.FinishedBy ack := by
  have hle := hregular.acknowledged
  have hunfinished := hregular.unfinished
  unfold acknowledge FinishedBy
  split
  · next hskip =>
    simp only [hunfinished, Bool.false_eq_true, false_iff]
    rintro ⟨-, hid, -, happlied⟩
    rcases hskip with hother | hstale
    · exact hother hid.symm
    · omega
  · next htake =>
    push Not at htake
    dsimp only
    have hmin : min ack.appliedSequence session.latestSequence = session.latestSequence ↔
        session.latestSequence ≤ ack.appliedSequence := min_eq_right_iff
    split_ifs with h1 h2 h2
    all_goals simp_all

theorem regular_acknowledge {session : InputSession} (hregular : session.Regular)
    {ack : AckMessage} (hactive : ¬ session.FinishedBy ack) :
    (session.acknowledge ack).Regular := by
  obtain ⟨hid, hsequence, -, -⟩ := acknowledge_same session ack
  refine ⟨?_, ?_, ?_⟩
  · have hle := hregular.acknowledged
    unfold acknowledge
    split
    · exact hle
    · dsimp only
      split_ifs <;> exact min_le_right _ _
  · exact Bool.eq_false_iff.mpr fun h => hactive ((acknowledge_finished hregular ack).mp h)
  · rw [hid, hsequence]
    exact hregular.unopened

end InputSession

namespace SyncClient

open OutboundQueue (Keeps)

theorem restartSocket_keeps (c : SyncClient) : Keeps c.queue c.restartSocket.queue := by
  unfold restartSocket
  split
  · exact Keeps.refl _
  · exact OutboundQueue.onDisconnected_keeps _

theorem written_keeps {q : OutboundQueue} {c : SyncClient} (h : Keeps q c.queue)
    (linked : Bool) : Keeps q (c.written linked).queue := by
  unfold written
  split
  · exact h
  · exact h.trans (restartSocket_keeps c)

theorem send_latest (c : SyncClient) (linked : Bool) (m : SnapshotMessage) :
    (c.send linked m).queue.latest = some m :=
  (written_keeps (Keeps.refl _) linked).latest.trans (OutboundQueue.offer_latest c.queue m)

theorem abandonSession_empty (c : SyncClient) (linked : Bool) :
    (c.abandonSession linked).queue.Empty :=
  (written_keeps (Keeps.refl _) linked).empty (OutboundQueue.abandonSession_empty _)

theorem startOfflineDraft_keeps (c : SyncClient) (linked : Bool) :
    Keeps c.queue (c.startOfflineDraft linked).queue := by
  have hqueue := OutboundQueue.startOfflineDraft_keeps c.queue
  unfold startOfflineDraft
  split
  · exact Keeps.refl _
  · next queue action heq =>
    rw [heq] at hqueue
    exact written_keeps hqueue linked

theorem connect_keeps (c : SyncClient) (binding : ComputerBinding) :
    Keeps c.queue (c.connect binding).queue := OutboundQueue.onDisconnected_keeps _

theorem restore_latest {c c' : SyncClient} {m : SnapshotMessage} {acknowledged : Int}
    {started : Bool} (h : c.restore m acknowledged started = some c') :
    c'.queue.latest = some m := by
  obtain ⟨queue, hqueue, rfl⟩ := Option.map_eq_some_iff.mp h
  unfold OutboundQueue.restore at hqueue
  split_ifs at hqueue
  cases hqueue
  rfl

def Empties (c : SyncClient) : ServerMessage → Prop
  | .ack ack => c.queue.acceptsSession ack.sessionId = true ∧ ack.finished = true ∧
      c.queue.lastAckSequence ≤ ack.appliedSequence
  | .error error => error.code = .targetSubmitted ∧
      ¬ ∃ sessionId ∈ error.sessionId, c.queue.acceptsSession sessionId = false
  | _ => False

instance (c : SyncClient) (message : ServerMessage) : Decidable (c.Empties message) := by
  cases message <;> unfold Empties <;> infer_instance

theorem onMessage_keeps {c : SyncClient} {message : ServerMessage} (h : ¬ c.Empties message)
    (current : ComputerBinding) (linked : Bool) :
    Keeps c.queue (c.onMessage current linked message).1.queue := by
  cases message with
  | ready =>
    have hconnected := OutboundQueue.onConnected_keeps c.queue
    unfold onMessage
    dsimp only
    split
    · exact hconnected
    · exact written_keeps hconnected linked
  | ack ack =>
    unfold onMessage
    dsimp only
    split
    · exact Keeps.refl _
    · next haccepts =>
      have hactive : ack.finished = false ∨ ack.appliedSequence < c.queue.lastAckSequence := by
        by_contra hends
        push Not at hends
        exact h ⟨by simpa using haccepts, by simpa using hends.1, hends.2⟩
      have htaken := OutboundQueue.acknowledge_keeps hactive
      split
      · exact htaken
      · exact written_keeps htaken linked
  | target target =>
    unfold onMessage
    dsimp only
    split
    · exact Keeps.refl _
    · cases target.targetState with
      | active => exact OutboundQueue.markSessionStarted_keeps _
      | notForeground => exact Keeps.refl _
      | invalid => exact OutboundQueue.requireExplicitStart_keeps _
  | error error =>
    unfold onMessage
    dsimp only
    split
    · exact Keeps.refl _
    · next haccepts =>
      split
      · exact OutboundQueue.onDisconnected_keeps _
      · rw [if_neg fun hcode => h ⟨hcode, haccepts⟩]
        exact OutboundQueue.requireExplicitStart_keeps _

/-- The handler of a message that empties the queue. -/
theorem onMessage_empties {c : SyncClient} {message : ServerMessage} (h : c.Empties message)
    (current : ComputerBinding) (linked : Bool) :
    (c.onMessage current linked message).1.queue.Empty ∧
      ((∃ ack, message = .ack ack ∧ (c.onMessage current linked message).2 = [.ack ack]) ∨
        ∃ error, error.code = .targetSubmitted ∧
          (c.onMessage current linked message).2 = [.serverError current error]) := by
  cases message with
  | ready => exact h.elim
  | target target => exact h.elim
  | ack ack =>
    obtain ⟨haccepts, hfinal, hfresh⟩ := h
    have htaken := OutboundQueue.acknowledge_empty haccepts hfinal hfresh
    unfold onMessage
    simp only [haccepts, Bool.true_eq_false, if_false]
    refine ⟨?_, Or.inl ⟨ack, rfl, rfl⟩⟩
    split
    · exact htaken
    · exact (written_keeps (Keeps.refl _) linked).empty htaken
  | error error =>
    obtain ⟨hcode, haccepts⟩ := h
    have hpaired : error.code ≠ .authFailed := by simp [hcode]
    unfold onMessage
    dsimp only
    rw [if_neg haccepts, if_neg hpaired, if_pos hcode]
    exact ⟨OutboundQueue.abandonSession_empty _, Or.inr ⟨error, hcode, rfl⟩⟩

end SyncClient

/-- The handler ends the session. -/
def Posted.Ends (session : InputSession) : Posted → Prop
  | .callback _ (.ack ack) => session.FinishedBy ack
  | .callback _ (.serverError _ error) => error.code = .targetSubmitted
  | _ => False

instance (session : InputSession) (posted : Posted) : Decidable (posted.Ends session) := by
  unfold Posted.Ends
  split <;> infer_instance

namespace FlowTypeController

/-- The queue of a live session has its snapshot last, the queue without a session is
empty. -/
def Coupled (s : FlowTypeController) : Prop :=
  if s.session.sessionId = none then s.client.queue.Empty
  else ∃ m ∈ s.client.queue.latest, s.session.Current m

instance (s : FlowTypeController) : Decidable s.Coupled := by
  unfold Coupled
  infer_instance

/-- The message that ended the session has emptied the queue; its handler is posted. -/
def Ending (s : FlowTypeController) : Prop :=
  s.client.queue.Empty ∧ ∃ posted ∈ s.posted, posted.Ends s.session

instance (s : FlowTypeController) : Decidable s.Ending := inferInstanceAs (Decidable (_ ∧ _))

/-- Outside a selection the two agree, or the main thread has yet to run the handler of
the message that has ended the session in the queue. -/
def Sound (s : FlowTypeController) : Prop :=
  s.autoSelecting = false → s.Coupled ∨ s.Ending

instance (s : FlowTypeController) : Decidable s.Sound := inferInstanceAs (Decidable (_ → _))

theorem coupled_idle {s : FlowTypeController} (hid : s.session.sessionId = none)
    (hempty : s.client.queue.Empty) : s.Coupled := by
  rw [Coupled, if_pos hid]
  exact hempty

theorem coupled_live {s : FlowTypeController} {m : SnapshotMessage}
    (hlatest : s.client.queue.latest = some m) (hcurrent : s.session.Current m) : s.Coupled := by
  have hid : s.session.sessionId ≠ none := by
    rw [hcurrent.1]
    exact Option.some_ne_none _
  rw [Coupled, if_neg hid]
  exact ⟨m, hlatest, hcurrent⟩

/-- What is not pending is in the queue, or its end is posted. -/
structure Inv (s : FlowTypeController) : Prop where
  regular : s.session.Regular
  calm : s.autoSelecting = false → s.pendingAutoLatest = none
  paired : s.pendingAutoLatest = none → s.pendingAutoStart = none
  waiting : ∀ m ∈ s.pendingAutoLatest, s.session.Current m
  coupled : s.pendingAutoLatest = none → s.Coupled ∨ s.Ending

theorem Inv.sound {s : FlowTypeController} (h : s.Inv) : s.Sound :=
  fun hcalm => h.coupled (h.calm hcalm)

theorem Inv.idle {s : FlowTypeController} (h : s.Inv) (hid : s.session.sessionId = none) :
    s.pendingAutoLatest = none ∧ s.client.queue.Empty := by
  have hpending : s.pendingAutoLatest = none := by
    cases hlatest : s.pendingAutoLatest with
    | none => rfl
    | some m =>
      have hcurrent := h.waiting m hlatest
      rw [hcurrent.1] at hid
      exact absurd hid (Option.some_ne_none _)
  refine ⟨hpending, ?_⟩
  rcases h.coupled hpending with hcoupled | hending
  · rwa [Coupled, if_pos hid] at hcoupled
  · exact hending.1

/-- A state that waits for nothing. -/
structure Settled (s : FlowTypeController) : Prop where
  regular : s.session.Regular
  latest : s.pendingAutoLatest = none
  start : s.pendingAutoStart = none

theorem Settled.inv {s : FlowTypeController} (h : s.Settled) (hcoupled : s.Coupled ∨ s.Ending) :
    s.Inv where
  regular := h.regular
  calm _ := h.latest
  paired _ := h.start
  waiting m hm := by
    rw [h.latest] at hm
    cases hm
  coupled _ := hcoupled

/-- Nothing that the invariant speaks about has changed, apart from handlers that were
posted. -/
structure Same (s t : FlowTypeController) : Prop where
  regular : t.session.Regular
  sessionId : t.session.sessionId = s.session.sessionId
  sequence : t.session.latestSequence = s.session.latestSequence
  text : t.session.currentText = s.session.currentText
  finishing : t.session.finishing = s.session.finishing
  queue : s.client.queue.Keeps t.client.queue
  start : t.pendingAutoStart = s.pendingAutoStart
  latest : t.pendingAutoLatest = s.pendingAutoLatest
  selecting : t.autoSelecting = s.autoSelecting

namespace Same

variable {s t : FlowTypeController}

theorem current (h : Same s t) {m : SnapshotMessage} (hm : s.session.Current m) :
    t.session.Current m :=
  ⟨h.sessionId.trans hm.1, hm.2.1.trans h.sequence.symm, hm.2.2.trans h.text.symm⟩

theorem coupled (h : Same s t) (hc : s.Coupled) : t.Coupled := by
  by_cases hid : s.session.sessionId = none
  · rw [Coupled, if_pos hid] at hc
    exact coupled_idle (h.sessionId.trans hid) (h.queue.empty hc)
  · rw [Coupled, if_neg hid] at hc
    obtain ⟨m, hlatest, hcurrent⟩ := hc
    exact coupled_live (h.queue.latest.trans hlatest) (h.current hcurrent)

theorem ends (h : Same s t) {posted : Posted} (hp : posted.Ends s.session) :
    posted.Ends t.session := by
  unfold Posted.Ends at hp ⊢
  split at hp
  · exact ⟨hp.1, h.sessionId.trans hp.2.1, h.finishing.trans hp.2.2.1, h.sequence.trans_le hp.2.2.2⟩
  · exact hp
  · exact hp

theorem ending (h : Same s t) (hposted : ∀ p ∈ s.posted, p ∈ t.posted) (he : s.Ending) :
    t.Ending := by
  obtain ⟨hempty, p, hp, hends⟩ := he
  exact ⟨h.queue.empty hempty, p, hposted p hp, h.ends hends⟩

theorem inv_of (h : Same s t) (hinv : s.Inv) (hending : s.Ending → t.Coupled ∨ t.Ending) :
    t.Inv where
  regular := h.regular
  calm hcalm := h.latest.trans (hinv.calm (h.selecting.symm.trans hcalm))
  paired hnone := h.start.trans (hinv.paired (h.latest.symm.trans hnone))
  waiting m hm := h.current (hinv.waiting m (h.latest.symm.trans hm))
  coupled hnone := by
    rcases hinv.coupled (h.latest.symm.trans hnone) with hcoupled | he
    · exact Or.inl (h.coupled hcoupled)
    · exact hending he

theorem inv (h : Same s t) (hinv : s.Inv) (hposted : ∀ p ∈ s.posted, p ∈ t.posted) : t.Inv :=
  h.inv_of hinv fun he => Or.inr (h.ending hposted he)

end Same

section Operations

variable {s t : FlowTypeController}

theorem Inv.settled (h : s.Inv) (hnone : s.pendingAutoLatest = none) : s.Settled :=
  ⟨h.regular, hnone, h.paired hnone⟩

theorem inv_idle (hregular : s.session.Regular) (hid : s.session.sessionId = none)
    (hempty : s.client.queue.Empty) (hlatest : s.pendingAutoLatest = none)
    (hstart : s.pendingAutoStart = none) : s.Inv :=
  Settled.inv ⟨hregular, hlatest, hstart⟩ (Or.inl (coupled_idle hid hempty))

theorem inv_live {m : SnapshotMessage} (hsettled : s.Settled)
    (hlatest : s.client.queue.latest = some m) (hcurrent : s.session.Current m) : s.Inv :=
  hsettled.inv (Or.inl (coupled_live hlatest hcurrent))

theorem saveDraftNow_session (s : FlowTypeController) : s.saveDraftNow.session = s.session :=
  ComputerSessions.saveCurrent_current _ _

theorem same_saveDraftNow (h : s.session.Regular) : Same s s.saveDraftNow := by
  have hsession := saveDraftNow_session s
  refine ⟨?_, ?_, ?_, ?_, ?_, OutboundQueue.Keeps.refl _, rfl, rfl, rfl⟩
  all_goals rw [hsession]
  exact h

theorem saveDraftNow_inv (h : s.Inv) : s.saveDraftNow.Inv :=
  (same_saveDraftNow h.regular).inv h fun _ hp => hp

theorem same_client (h : s.session.Regular) {client : SyncClient}
    (hqueue : s.client.queue.Keeps client.queue) : Same s { s with client := client } :=
  ⟨h, rfl, rfl, rfl, rfl, hqueue, rfl, rfl, rfl⟩

theorem connect_inv (h : s.Inv) (binding : ComputerBinding) : (s.connect binding).Inv :=
  (⟨h.regular, rfl, rfl, rfl, rfl, SyncClient.connect_keeps _ _, rfl, rfl, rfl⟩ :
    Same s (s.connect binding)).inv h fun _ hp => hp

/-- The queue of a live session gets the session's recovery snapshot. -/
theorem restoreQueue_cases {restored : ParkedSession} (h : s.restoreQueue restored = some t) :
    (s.session.sessionId = none ∧ t = s) ∨
    ∃ client m, t = { s with client := client } ∧ client.queue.latest = some m ∧
      s.session.Current m := by
  unfold restoreQueue at h
  split at h
  · next hnone =>
    cases h
    refine Or.inl ⟨?_, rfl⟩
    by_contra hid
    obtain ⟨m, hm⟩ := InputSession.snapshot_isSome hid
      (if s.session.finishing then .finish else .update)
    exact absurd (hnone.symm.trans hm) (Option.some_ne_none m).symm
  · next m hm =>
    obtain ⟨client, hclient, rfl⟩ := Option.map_eq_some_iff.mp h
    exact Or.inr ⟨client, m, rfl, SyncClient.restore_latest hclient,
      InputSession.snapshot_current hm⟩

instance (s : ComputerSessions) (pcId : String) : Decidable (s.CarriesTo pcId) :=
  inferInstanceAs (Decidable (_ ∧ _ ∧ _))

/-- The session stays live when this computer is activated. -/
def Stays (s : FlowTypeController) (pcId : String) : Prop :=
  s.sessions.activePcId = some pcId ∨ s.sessions.CarriesTo pcId

instance (s : FlowTypeController) (pcId : String) : Decidable (s.Stays pcId) :=
  inferInstanceAs (Decidable (_ ∨ _))

/-- What `restoreSessionFor` leaves besides the drafts. -/
structure Elsewhere (s t : FlowTypeController) : Prop where
  posted : t.posted = s.posted
  start : t.pendingAutoStart = s.pendingAutoStart
  latest : t.pendingAutoLatest = s.pendingAutoLatest
  selecting : t.autoSelecting = s.autoSelecting
  regular : t.session.Regular

inductive Restored (s : FlowTypeController) (pcId : String) (t : FlowTypeController) : Prop
  | queued {m : SnapshotMessage} (session : t.session = s.session ∨ ¬ s.Stays pcId)
      (latest : t.client.queue.latest = some m) (current : t.session.Current m)
  | stays (stays : s.Stays pcId) (session : t.session = s.session) (client : t.client = s.client)
      (unsaved : s.session.sessionId = none ∨
        ¬ (s.sessions.activePcId = some pcId ∧ s.sessions.store pcId ≠ none))
  | blank (leaves : ¬ s.Stays pcId) (idle : t.session.sessionId = none)
      (client : t.client = s.client)
      (stored : ∀ parked ∈ s.sessions.store pcId, parked.state.sessionId = none)

/-- The activation without its queue. -/
theorem activate_session {s u : ComputerSessions} {pcId : String} {restored : Option ParkedSession}
    (hregular : s.current.Regular) (h : s.activate pcId = some (u, restored)) :
    restored = s.store pcId ∧ u.current.Regular ∧
      (((s.activePcId = some pcId ∨ s.CarriesTo pcId) ∧ u.current = s.current ∧
          (s.CarriesTo pcId → restored = none)) ∨
        (¬ (s.activePcId = some pcId ∨ s.CarriesTo pcId) ∧
          (restored = none → u.current.sessionId = none) ∧
          ∀ parked ∈ restored, u.current.sessionId = parked.state.sessionId)) := by
  unfold ComputerSessions.activate at h
  by_cases hactive : s.activePcId = some pcId
  · rw [if_pos hactive] at h
    cases h
    refine ⟨rfl, hregular, Or.inl ⟨Or.inl hactive, rfl, fun hcarry => hcarry.2.1⟩⟩
  · rw [if_neg hactive] at h
    dsimp only at h
    split at h
    · next hcarry =>
      cases h
      exact ⟨rfl, hregular, Or.inl ⟨Or.inr hcarry, rfl, fun _ => hcarry.2.1⟩⟩
    · next hcarry =>
      have hleaves : ¬ (s.activePcId = some pcId ∨ s.CarriesTo pcId) := by
        rintro (h₁ | h₁)
        · exact hactive h₁
        · exact hcarry h₁
      split at h
      · next hnone =>
        cases h
        exact ⟨hnone.symm, InputSession.regular_new _, Or.inr ⟨hleaves, fun _ => rfl, by simp⟩⟩
      · next parked hsome =>
        obtain ⟨current, hrestore, heq⟩ := Option.map_eq_some_iff.mp h
        cases heq
        refine ⟨hsome.symm, InputSession.regular_restore hrestore, Or.inr ⟨hleaves, by simp, ?_⟩⟩
        intro parked' hp
        cases hp
        exact congrArg InputSession.State.sessionId (InputSession.restore_state hrestore).2

theorem restoreSessionFor_cases {pcId : String} (hregular : s.session.Regular)
    (h : s.restoreSessionFor pcId = some t) : Elsewhere s t ∧ Restored s pcId t := by
  obtain ⟨⟨sessions, restored⟩, hactivate, h⟩ := Option.bind_eq_some_iff.mp h
  obtain ⟨hstored, hregular', hcases⟩ := activate_session hregular hactivate
  dsimp only at h
  cases restored with
  | none =>
    cases h
    refine ⟨⟨rfl, rfl, rfl, rfl, hregular'⟩, ?_⟩
    rcases hcases with ⟨hstays, hsession, -⟩ | ⟨hleaves, hidle, -⟩
    · exact .stays hstays hsession rfl (Or.inr fun hsaved => hsaved.2 hstored.symm)
    · exact .blank hleaves (hidle rfl) rfl (by rw [← hstored]; simp)
  | some parked =>
    rcases restoreQueue_cases h with ⟨hid, rfl⟩ | ⟨client, m, rfl, hlatest, hcurrent⟩
    · refine ⟨⟨rfl, rfl, rfl, rfl, hregular'⟩, ?_⟩
      rcases hcases with ⟨hstays, hsession, -⟩ | ⟨hleaves, -, hparked⟩
      · refine .stays hstays hsession rfl (Or.inl ?_)
        rw [← hid]
        exact congrArg InputSession.sessionId hsession.symm
      · refine .blank hleaves hid rfl ?_
        intro parked' hp
        rw [← hstored] at hp
        rw [← hparked parked' hp]
        exact hid
    · refine ⟨⟨rfl, rfl, rfl, rfl, hregular'⟩, ?_⟩
      rcases hcases with ⟨-, hsession, -⟩ | ⟨hleaves, -, -⟩
      · exact .queued (Or.inl hsession) hlatest hcurrent
      · exact .queued (Or.inr hleaves) hlatest hcurrent

theorem coupled_congr (hsession : t.session = s.session) (hclient : t.client = s.client)
    (h : s.Coupled) : t.Coupled := by
  unfold Coupled at h ⊢
  rwa [hsession, hclient]

theorem ending_congr (hsession : t.session = s.session) (hclient : t.client = s.client)
    (hposted : t.posted = s.posted) (h : s.Ending) : t.Ending := by
  unfold Ending at h ⊢
  rwa [hsession, hclient, hposted]

theorem Inv.requeued {m : SnapshotMessage} (h : s.Inv) (helse : Elsewhere s t)
    (hsession : t.session = s.session) (hlatest : t.client.queue.latest = some m)
    (hcurrent : t.session.Current m) : t.Inv where
  regular := helse.regular
  calm hcalm := helse.latest.trans (h.calm (helse.selecting.symm.trans hcalm))
  paired hnone := helse.start.trans (h.paired (helse.latest.symm.trans hnone))
  waiting m hm := by
    rw [hsession]
    exact h.waiting m (helse.latest.symm.trans hm)
  coupled _ := Or.inl (coupled_live hlatest hcurrent)

theorem Inv.congr (h : s.Inv) (helse : Elsewhere s t) (hsession : t.session = s.session)
    (hclient : t.client = s.client) : t.Inv where
  regular := helse.regular
  calm hcalm := helse.latest.trans (h.calm (helse.selecting.symm.trans hcalm))
  paired hnone := helse.start.trans (h.paired (helse.latest.symm.trans hnone))
  waiting m hm := by
    rw [hsession]
    exact h.waiting m (helse.latest.symm.trans hm)
  coupled hnone := by
    rcases h.coupled (helse.latest.symm.trans hnone) with hcoupled | hending
    · exact Or.inl (coupled_congr hsession hclient hcoupled)
    · exact Or.inr (ending_congr hsession hclient helse.posted hending)

theorem Settled.elsewhere (h : s.Settled) (helse : Elsewhere s t) : t.Settled :=
  ⟨helse.regular, helse.latest.trans h.latest, helse.start.trans h.start⟩

theorem resetFailedSession_inv (h : s.Inv) (out : Outside) :
    (s.resetFailedSession out).Inv ∧ (s.resetFailedSession out).session.sessionId = none := by
  by_cases hid : s.session.sessionId = none
  · obtain ⟨-, hempty⟩ := h.idle hid
    by_cases hfinishing : s.session.finishing = true
    · have hreset : s.resetFailedSession out =
          { s.clearAutoSelection.withSession
              (s.session.resetForReplacement s.session.currentText) with
            targetState := none, manualStartPending := true } := by
        simp [resetFailedSession, hid, hfinishing]
      have hnone : (s.session.resetForReplacement s.session.currentText).sessionId = none := rfl
      rw [hreset]
      exact ⟨inv_idle (InputSession.regular_resetForReplacement _ _) hnone hempty rfl rfl, hnone⟩
    · have hsame : s.resetFailedSession out =
          { s.clearAutoSelection with targetState := none, manualStartPending := true } := by
        simp [resetFailedSession, hid, hfinishing]
      rw [hsame]
      exact ⟨inv_idle h.regular hid hempty rfl rfl, hid⟩
  · have hreset : s.resetFailedSession out =
        { ({ s.clearAutoSelection with client := s.client.abandonSession out.linked }).withSession
            (s.session.resetForReplacement s.session.currentText) with
          targetState := none, manualStartPending := true } := by
      simp [resetFailedSession, hid, clearAutoSelection]
    rw [hreset]
    exact ⟨inv_idle (InputSession.regular_resetForReplacement _ _) rfl
      (SyncClient.abandonSession_empty _ _) rfl rfl, rfl⟩

theorem deliver_inv {m : SnapshotMessage} (hregular : s.session.Regular)
    (hcurrent : s.session.Current m)
    (hcalm : s.autoSelecting = false → s.pendingAutoLatest = none ∧ s.pendingAutoStart = none)
    (out : Outside) : (s.deliver out m).Inv := by
  unfold deliver
  split
  · next hselecting =>
    refine ⟨hregular, ?_, ?_, ?_, ?_⟩
    · intro h
      exact absurd (hselecting.symm.trans h) (by decide)
    · intro h
      cases h
    · intro m' hm
      cases hm
      exact hcurrent
    · intro h
      cases h
  · next hselecting =>
    obtain ⟨hlatest, hstart⟩ := hcalm (Bool.eq_false_iff.mpr hselecting)
    exact inv_live ⟨hregular, hlatest, hstart⟩ (SyncClient.send_latest _ _ _) hcurrent

/-- The edit of `textChanged`, whatever starts a session. -/
theorem edited_inv (h : s.Inv) {text newId : String} {startIfNeeded : Bool}
    {r : InputSession × Option SnapshotMessage}
    (hedit : s.session.onTextChanged text startIfNeeded newId = some r) (out : Outside) :
    Inv (match r.2 with
      | none => s.withSession r.1
      | some snapshot => (s.withSession r.1).deliver out snapshot) := by
  obtain ⟨session, o⟩ := r
  have hack := h.regular.acknowledged
  have hcalm : s.autoSelecting = false →
      s.pendingAutoLatest = none ∧ s.pendingAutoStart = none :=
    fun hc => ⟨h.calm hc, h.paired (h.calm hc)⟩
  rcases InputSession.onTextChanged_spec hedit with
    ⟨rfl, rfl, htext⟩ | ⟨hid, ho, hsession⟩ | ⟨hid, ho, hsession⟩
  · -- no snapshot: without a session nothing waits, with one the text is the same
    by_cases hid : s.session.sessionId = none
    · obtain ⟨hlatest, hempty⟩ := h.idle hid
      exact inv_idle ⟨hack, h.regular.unfinished, h.regular.unopened⟩ hid hempty hlatest
        (h.paired hlatest)
    · obtain rfl := htext hid
      exact h
  · have hne : session.sessionId ≠ none := by simp [hsession]
    obtain ⟨m, hm⟩ := InputSession.snapshot_isSome hne .start
    rw [ho, hm]
    refine deliver_inv (s := s.withSession session) ?_ (InputSession.snapshot_current hm) hcalm out
    refine ⟨?_, ?_, fun hnone => absurd hnone hne⟩
    · change session.acknowledgedSequence ≤ session.latestSequence
      simp only [hsession]
      omega
    · change session.finished = false
      simp only [hsession]
      exact h.regular.unfinished
  · have hne : session.sessionId ≠ none := by simpa [hsession] using hid
    obtain ⟨m, hm⟩ := InputSession.snapshot_isSome hne .update
    rw [ho, hm]
    refine deliver_inv (s := s.withSession session) ?_ (InputSession.snapshot_current hm) hcalm out
    refine ⟨?_, ?_, fun hnone => absurd hnone hne⟩
    · change session.acknowledgedSequence ≤ session.latestSequence
      simp only [hsession]
      omega
    · change session.finished = false
      simp only [hsession]
      exact h.regular.unfinished

theorem retarget_inv (h : s.Inv) (targetState : Option TargetState) :
    Inv { s with targetState := targetState } :=
  h.congr ⟨rfl, rfl, rfl, rfl, h.regular⟩ rfl rfl

theorem textChanged_inv (h : s.Inv) {text : String} {out : Outside}
    (ht : s.textChanged text out = some t) : t.Inv := by
  have h₁ : Inv (if s.session.sessionId ≠ none ∧ s.client.requiresExplicitStart then
      s.resetFailedSession out else s) := by
    split
    · exact (resetFailedSession_inv h out).1
    · exact h
  unfold textChanged at ht
  dsimp only at ht
  generalize (if s.session.sessionId ≠ none ∧ s.client.requiresExplicitStart then
    s.resetFailedSession out else s) = u at h₁ ht
  obtain ⟨r, hedit, rfl⟩ := Option.map_eq_some_iff.mp ht
  refine edited_inv ?_ hedit out
  split
  · exact retarget_inv h₁ none
  · exact h₁

/-- No text is in the pending snapshots only. -/
def Queued (s : FlowTypeController) : Prop := s.pendingAutoLatest = none ∨ s.Coupled

instance (s : FlowTypeController) : Decidable s.Queued := inferInstanceAs (Decidable (_ ∨ _))

def StoresSession (s : FlowTypeController) (pcId : String) : Prop :=
  ∃ parked ∈ s.sessions.store pcId, parked.state.sessionId ≠ none

instance (s : FlowTypeController) (pcId : String) : Decidable (s.StoresSession pcId) :=
  inferInstanceAs (Decidable (∃ parked ∈ s.sessions.store pcId, _))

/-- An automatic selection fails without a text that is only pending, or the fallback
has the draft of the session. -/
def FailOk (s : FlowTypeController) : Option ComputerBinding → Prop
  | none => s.Queued
  | some binding =>
    if s.Stays binding.pcId then
      s.Queued ∨ s.sessions.activePcId = some binding.pcId ∧ s.sessions.store binding.pcId ≠ none
    else s.client.queue.Empty ∨ s.StoresSession binding.pcId

instance (s : FlowTypeController) (fallback : Option ComputerBinding) :
    Decidable (s.FailOk fallback) := by
  cases fallback <;> unfold FailOk <;> infer_instance

theorem failOk_idle (hempty : s.client.queue.Empty) (hlatest : s.pendingAutoLatest = none)
    (fallback : Option ComputerBinding) : s.FailOk fallback := by
  cases fallback with
  | none => exact Or.inl hlatest
  | some binding =>
    have hqueued : s.Queued := Or.inl hlatest
    by_cases hs : s.Stays binding.pcId
    · simp only [FailOk, if_pos hs]
      exact Or.inl hqueued
    · simp only [FailOk, if_neg hs]
      exact Or.inl hempty

theorem Queued.coupled (hqueued : s.Queued) (h : s.Inv) : s.Coupled ∨ s.Ending := by
  rcases hqueued with hnone | hcoupled
  · exact h.coupled hnone
  · exact Or.inl hcoupled

theorem restored_inv {pcId : String} (hsettled : s.Settled) (helse : Elsewhere s t)
    (hrestored : Restored s pcId t)
    (hstays : s.Stays pcId → (s.session.sessionId = none ∨
      ¬ (s.sessions.activePcId = some pcId ∧ s.sessions.store pcId ≠ none)) →
      s.Coupled ∨ s.Ending)
    (hleaves : ¬ s.Stays pcId → s.client.queue.Empty ∨ s.StoresSession pcId) : t.Inv := by
  have ht := hsettled.elsewhere helse
  cases hrestored with
  | queued _ hlatest hcurrent => exact inv_live ht hlatest hcurrent
  | stays hs hsession hclient hunsaved =>
    rcases hstays hs hunsaved with hcoupled | hending
    · exact ht.inv (Or.inl (coupled_congr hsession hclient hcoupled))
    · exact ht.inv (Or.inr (ending_congr hsession hclient helse.posted hending))
  | blank hl hidle hclient hstored =>
    rcases hleaves hl with hempty | ⟨parked, hparked, hid⟩
    · rw [← hclient] at hempty
      exact ht.inv (Or.inl (coupled_idle hidle hempty))
    · exact absurd (hstored parked hparked) hid

theorem failAutoSelection_inv (h : s.Inv) {fallback : Option ComputerBinding}
    (hok : s.FailOk fallback) (hf : s.failAutoSelection fallback = some t) : t.Inv := by
  unfold failAutoSelection at hf
  dsimp only at hf
  cases fallback with
  | none =>
    cases hf
    rcases hok.coupled h with hcoupled | hending
    · exact Settled.inv ⟨h.regular, rfl, rfl⟩ (Or.inl (coupled_congr rfl rfl hcoupled))
    · exact Settled.inv ⟨h.regular, rfl, rfl⟩ (Or.inr (ending_congr rfl rfl rfl hending))
  | some binding =>
    obtain ⟨u, hu, rfl⟩ := Option.map_eq_some_iff.mp hf
    have hsettled : Settled { s with
        autoSelecting := false
        autoSelectionTargetPcId := none
        pendingAutoStart := none
        pendingAutoLatest := none } := ⟨h.regular, rfl, rfl⟩
    obtain ⟨helse, hrestored⟩ := restoreSessionFor_cases hsettled.regular hu
    apply connect_inv
    refine restored_inv hsettled helse hrestored ?_ ?_
    · intro hs hunsaved
      have hstays : s.Stays binding.pcId := hs
      simp only [FailOk, if_pos hstays] at hok
      rcases hok with hqueued | hsaved
      · rcases hqueued.coupled h with hcoupled | hending
        · exact Or.inl (coupled_congr rfl rfl hcoupled)
        · exact Or.inr (ending_congr rfl rfl rfl hending)
      · -- the draft was saved, so only a session without an id is not queued again
        have hid : s.session.sessionId = none := hunsaved.resolve_right (not_not.mpr hsaved)
        exact Or.inl (coupled_idle hid (h.idle hid).2)
    · intro hl
      have hleaves : ¬ s.Stays binding.pcId := hl
      simp only [FailOk, if_neg hleaves] at hok
      exact hok

/-- The winner has a draft of its own, and there is input to move. -/
def Conflicts (s : FlowTypeController) (pcId : String) : Prop :=
  s.sessions.activePcId ≠ some pcId ∧ s.sessions.movingInput = true ∧
    s.sessions.store pcId ≠ none

instance (s : FlowTypeController) (pcId : String) : Decidable (s.Conflicts pcId) :=
  inferInstanceAs (Decidable (_ ∧ _ ∧ _))

theorem clearActive_current (s : ComputerSessions) : s.clearActive.current = s.current := by
  unfold ComputerSessions.clearActive
  split <;> rfl

/-- An activation of the automatic selection keeps the session, or there was none. -/
theorem automatic_session {s u : ComputerSessions} {pcId : String} {parked : Option ParkedSession}
    (hregular : s.current.Regular)
    (h : s.activateForAutomaticSelection pcId = some (u, .activated parked)) :
    u.current.Regular ∧ (u.current = s.current ∨
      s.current.sessionId = none ∧ (parked = none → u.current.sessionId = none)) := by
  unfold ComputerSessions.activateForAutomaticSelection at h
  split at h
  · cases h
    exact ⟨hregular, Or.inl rfl⟩
  · split at h
    · cases h
    · split at h
      · cases h
        have hcurrent := clearActive_current s
        refine ⟨?_, Or.inl hcurrent⟩
        change s.clearActive.current.Regular
        rw [hcurrent]
        exact hregular
      · next hidle =>
        obtain ⟨r, hactivate, heq⟩ := Option.map_eq_some_iff.mp h
        cases heq
        obtain ⟨-, hregular', hcases⟩ := activate_session hregular hactivate
        refine ⟨hregular', ?_⟩
        rcases hcases with ⟨-, hsession, -⟩ | ⟨-, hnone, -⟩
        · exact Or.inl hsession
        · refine Or.inr ⟨?_, hnone⟩
          by_contra hid
          have hsome : s.current.sessionId.isSome = true := Option.isSome_iff_ne_none.mpr hid
          exact hidle (by simp [ComputerSessions.movingInput, hsome])

theorem automatic_conflict {s u : ComputerSessions} {pcId : String}
    (h : s.activateForAutomaticSelection pcId = some (u, .conflict)) :
    u = s ∧ s.activePcId ≠ some pcId ∧ s.movingInput = true ∧ s.store pcId ≠ none := by
  unfold ComputerSessions.activateForAutomaticSelection at h
  split at h
  · cases h
  · next hactive =>
    split at h
    · next hconflict =>
      cases h
      exact ⟨rfl, hactive, hconflict⟩
    · split at h
      · cases h
      · obtain ⟨r, -, heq⟩ := Option.map_eq_some_iff.mp h
        cases heq

/-- Drafts of another computer come in when there was no session, or the session is
the same. -/
theorem activated_inv (h : s.Inv) {sessions : ComputerSessions}
    (hregular : sessions.current.Regular)
    (hcases : sessions.current = s.session ∨
      s.session.sessionId = none ∧ sessions.current.sessionId = none) :
    Inv { s with sessions := sessions } := by
  rcases hcases with hsession | ⟨hid, hidle⟩
  · exact h.congr ⟨rfl, rfl, rfl, rfl, hregular⟩ hsession rfl
  · obtain ⟨hlatest, hempty⟩ := h.idle hid
    exact inv_idle hregular hidle hempty hlatest (h.paired hlatest)

theorem connectAutoSelected_inv (h : s.Inv) {binding : ComputerBinding} {connected : Bool}
    (hc : s.connectAutoSelected binding = some (t, connected)) :
    t.Inv ∧ (connected = false → t = s ∧ s.Conflicts binding.pcId) := by
  obtain ⟨⟨sessions, activation⟩, hactivate, hc⟩ := Option.bind_eq_some_iff.mp hc
  cases activation with
  | conflict =>
    obtain ⟨rfl, hconflicts⟩ := automatic_conflict hactivate
    cases hc
    exact ⟨h, fun _ => ⟨rfl, hconflicts⟩⟩
  | activated parked =>
    obtain ⟨hregular, hcases⟩ := automatic_session h.regular hactivate
    cases parked with
    | none =>
      cases hc
      refine ⟨connect_inv ?_ binding, fun hfalse => absurd hfalse.symm Bool.false_ne_true⟩
      have hcurrent : (sessions.saveCurrent false).current = sessions.current :=
        ComputerSessions.saveCurrent_current _ _
      have hsaved : Inv { s with sessions := sessions } :=
        activated_inv h hregular (hcases.imp id fun hidle => ⟨hidle.1, hidle.2 rfl⟩)
      refine hsaved.congr ⟨rfl, rfl, rfl, rfl, ?_⟩ hcurrent rfl
      change (sessions.saveCurrent false).current.Regular
      rw [hcurrent]
      exact hregular
    | some parked =>
      obtain ⟨u, hu, heq⟩ := Option.map_eq_some_iff.mp hc
      cases heq
      refine ⟨connect_inv ?_ binding, fun hfalse => absurd hfalse.symm Bool.false_ne_true⟩
      rcases restoreQueue_cases hu with ⟨hid, rfl⟩ | ⟨client, m, rfl, hlatest, hcurrent⟩
      · exact activated_inv h hregular (hcases.imp id fun hidle => ⟨hidle.1, hid⟩)
      · rcases hcases with hsession | ⟨hid, -⟩
        · exact h.requeued ⟨rfl, rfl, rfl, rfl, hregular⟩ hsession hlatest hcurrent
        · obtain ⟨hnone, -⟩ := h.idle hid
          exact inv_live ⟨hregular, hnone, h.paired hnone⟩ hlatest hcurrent

/-- The outcome of the probes ends the selection only as `FailOk` allows. -/
def ChosenOk (s : FlowTypeController) (winner fallback : Option ComputerBinding) : Prop :=
  s.autoSelecting = true → (∀ binding ∈ winner, s.Conflicts binding.pcId) → s.FailOk fallback

instance (s : FlowTypeController) (winner fallback : Option ComputerBinding) :
    Decidable (s.ChosenOk winner fallback) :=
  inferInstanceAs (Decidable (_ → (∀ binding ∈ winner, _) → _))

theorem onChosen_inv (h : s.Inv) {winner fallback : Option ComputerBinding}
    (hok : s.ChosenOk winner fallback) (hc : s.onChosen winner fallback = some t) : t.Inv := by
  unfold onChosen at hc
  split at hc
  · cases hc
    exact h
  · next hselecting =>
    have hok' := hok (by simpa using hselecting)
    cases winner with
    | none => exact failAutoSelection_inv h (hok' (by simp)) hc
    | some binding =>
      obtain ⟨⟨u, connected⟩, hu, hc⟩ := Option.bind_eq_some_iff.mp hc
      have htarget : Inv { s with autoSelectionTargetPcId := some binding.pcId } :=
        h.congr ⟨rfl, rfl, rfl, rfl, h.regular⟩ rfl rfl
      obtain ⟨huinv, hconflict⟩ := connectAutoSelected_inv htarget hu
      cases connected with
      | true =>
        cases hc
        exact huinv
      | false =>
        obtain ⟨rfl, hconflicts⟩ := hconflict rfl
        refine failAutoSelection_inv huinv ?_ hc
        have hfail := hok' fun b hb => by
          cases hb
          exact hconflicts
        cases fallback with
        | none => exact hfail
        | some b => exact hfail

theorem beginAutoSelection_inv (h : s.Inv) (hb : s.beginAutoSelection = some t) : t.Inv := by
  unfold beginAutoSelection at hb
  split at hb
  · cases hb
    exact h
  · next hbegin =>
    have hid : s.session.sessionId = none := by
      simp only [shouldBeginAutoSelection, not_or, Bool.not_eq_false, Bool.and_eq_true,
        Option.isNone_iff_eq_none] at hbegin
      exact hbegin.2.1.2
    obtain ⟨hlatest, hempty⟩ := h.idle hid
    dsimp only at hb
    split at hb
    · exact failAutoSelection_inv h (failOk_idle hempty hlatest _) hb
    · -- the draft is saved and the target reset: there is no session and an empty queue
      have hsession := saveDraftNow_session s
      have hselecting : Inv { { s with
          autoSelecting := true
          manualStartPending := false
          pendingAutoStart := none
          pendingAutoLatest := none
          autoSelectionTargetPcId := none }.saveDraftNow with
          client := s.client.resetForTargetSelection, probing := none } := by
        apply inv_idle _ _ (OutboundQueue.abandonSession_empty _) rfl rfl
        · change s.saveDraftNow.session.Regular
          rw [hsession]
          exact h.regular
        · change s.saveDraftNow.session.sessionId = none
          rw [hsession]
          exact hid
      split at hb
      · refine onChosen_inv hselecting ?_ hb
        exact fun _ _ => failOk_idle (OutboundQueue.abandonSession_empty _) rfl _
      · cases hb
        exact hselecting.congr ⟨rfl, rfl, rfl, rfl, hselecting.regular⟩ rfl rfl

end Operations

end FlowTypeController

end FlowType
