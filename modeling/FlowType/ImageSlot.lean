import FlowType.SocketClient

/-! The image in transfer of `SyncClient`: on which socket it was accepted, and what
becomes of it when that socket goes. -/
namespace FlowType

structure ImageReport where
  transferId : String
  transferred : Bool
  deriving DecidableEq, Repr

def SocketClient.Callback.imageReport? : SocketClient.Callback → Option ImageReport
  | .imageTransferred transferId => some ⟨transferId, true⟩
  | .imageTransferFailed transferId => some ⟨transferId, false⟩
  | _ => none

namespace SocketClient

def imageReports (s : SocketClient) : List ImageReport := s.calls.filterMap Callback.imageReport?

structure Connected (s : SocketClient) : Prop where
  ready : s.ready = true
  running : s.stopped = false
  bound : s.binding ≠ none
  client : s.client ≠ none
  socket : s.socket ≠ none

/-- A socket is no newer than the generation, and only a running client with a binding
has one. -/
structure Wired (s : SocketClient) : Prop where
  generation : ∀ socket ∈ s.socket, socket.generation ≤ s.generation
  running : s.socket ≠ none → s.stopped = false ∧ s.binding ≠ none ∧ s.client ≠ none

theorem wired_of_none {s : SocketClient} (h : s.socket = none) : s.Wired := by
  constructor
  · rw [h]
    rintro _ ⟨⟩
  · exact fun hsocket => absurd h hsocket

/-- The socket goes by `invalidateSocketLocked` during the event. -/
def Invalidates (s : SocketClient) (out : Outside) : Action → Prop
  | .connect _ => True
  | .forceReconnect => s.stopped = false ∧ s.binding ≠ none
  | .send message => (s.healthCheckDue out = true ∧ out.taken = false) ∨
    ((s.queue.offer message).2 ≠ none ∧ out.takenNext = false)
  | .abandonSession => out.taken = false
  | .startOfflineDraft => s.queue.startOfflineDraft.2 ≠ none ∧ out.taken = false
  | .shutdown => True
  | .resetForTargetSelection => True
  | .onMessage generation message => generation = s.generation ∧ match message with
    | .challenge => out.taken = false
    | .ready _ _ => s.queue.onConnected.2 ≠ none ∧ out.taken = false
    | .ack ack => s.queue.acceptsSession ack.sessionId = true ∧
      (s.queue.acknowledge ack).2 ≠ none ∧ out.taken = false
    | .error error => error.code = .authFailed ∧
      ¬ ∃ sessionId ∈ error.sessionId, s.queue.acceptsSession sessionId = false
    | _ => False
  | .healthTimeout generation => generation = s.generation ∧ s.healthCheckPending = true
  | .targetRetry => s.queue.retry ≠ none ∧ out.taken = false
  | .switchAnswered generation => generation = s.generation ∧ out.taken = false
  | _ => False

instance (s : SocketClient) (out : Outside) (action : Action) :
    Decidable (s.Invalidates out action) := by
  unfold Invalidates
  split
  all_goals try infer_instance
  split <;> infer_instance

/-- What a step does that neither ends a transfer nor begins one: a connected client loses
its socket when `torn` holds, and keeps it otherwise. -/
structure Moves (torn : Prop) (s t : SocketClient) : Prop where
  pending : t.pendingImageId = s.pendingImageId
  reports : t.imageReports = s.imageReports
  generation : s.generation ≤ t.generation
  wired : s.Wired → t.Wired
  kept : s.Connected → ¬ torn → t.socket = s.socket ∧ t.Connected
  gone : s.Connected → torn → ∀ socket ∈ t.socket, s.generation < socket.generation

namespace Moves

variable {p q : Prop} {s t u : SocketClient}

theorem refl_of_not (h : ¬ p) : Moves p s s :=
  ⟨rfl, rfl, le_rfl, id, fun hs _ => ⟨rfl, hs⟩, fun _ hp => absurd hp h⟩

theorem refl : Moves False s s := refl_of_not id

/-- Outside a connection it does not matter what tears the socket down. -/
theorem idle (h : Moves p s t) (hs : ¬ s.Connected) : Moves q s t :=
  ⟨h.pending, h.reports, h.generation, h.wired, fun hc => absurd hc hs, fun hc => absurd hc hs⟩

theorem iff (h : Moves p s t) (hpq : s.Connected → (p ↔ q)) : Moves q s t :=
  ⟨h.pending, h.reports, h.generation, h.wired,
    fun hs hq => h.kept hs fun hp => hq ((hpq hs).mp hp),
    fun hs hq => h.gone hs ((hpq hs).mpr hq)⟩

theorem trans (h : Moves False s t) (h' : Moves p t u) : Moves p s u where
  pending := h'.pending.trans h.pending
  reports := h'.reports.trans h.reports
  generation := h.generation.trans h'.generation
  wired hs := h'.wired (h.wired hs)
  kept hs hp := by
    obtain ⟨hsocket, ht⟩ := h.kept hs id
    obtain ⟨hsocket', hu⟩ := h'.kept ht hp
    exact ⟨hsocket'.trans hsocket, hu⟩
  gone hs hp socket hmem := by
    have ht := (h.kept hs id).2
    exact lt_of_le_of_lt h.generation (h'.gone ht hp socket hmem)

end Moves

/-- Opening a socket where there is none. -/
theorem openSocket_fresh {s : SocketClient} (out : Outside) (hs : s.socket = none) :
    ∀ socket ∈ (s.openSocket out).socket,
      s.generation < socket.generation ∧ socket.generation ≤ (s.openSocket out).generation := by
  unfold openSocket
  split
  · rintro _ ⟨⟩
    exact ⟨Nat.lt_succ_self _, le_rfl⟩
  · rw [hs]
    rintro _ ⟨⟩

theorem openSocket_wired {s : SocketClient} {out : Outside} (hs : s.socket = none)
    (hstopped : s.stopped = false) : (s.openSocket out).Wired := by
  have hfresh := openSocket_fresh out hs
  refine ⟨fun socket hmem => (hfresh socket hmem).2, fun hsocket => ?_⟩
  unfold openSocket at hsocket ⊢
  split
  · next hbinding hclient =>
    dsimp only
    rw [hbinding, hclient]
    exact ⟨hstopped, Option.some_ne_none _, Option.some_ne_none _⟩
  · next hnone =>
    split at hsocket
    · next hbinding hclient => exact absurd hclient (hnone _ _ hbinding)
    · exact absurd hs hsocket

theorem invalidated_moves {s s' : SocketClient} {out : Outside} (hsocket : s'.socket = none)
    (hstopped : s'.stopped = false)
    (hpending : s'.pendingImageId = s.pendingImageId) (hcalls : s'.calls = s.calls)
    (hgeneration : s.generation ≤ s'.generation) : Moves True s (s'.openSocket out) where
  pending := by
    rw [← hpending]
    unfold openSocket
    split <;> rfl
  reports := by
    unfold imageReports
    rw [← hcalls]
    unfold openSocket
    split <;> rfl
  generation := by
    refine hgeneration.trans ?_
    unfold openSocket
    split
    · exact Nat.le_succ _
    · exact le_rfl
  wired _ := openSocket_wired hsocket hstopped
  kept _ h := absurd trivial h
  gone _ _ := fun socket hmem =>
    lt_of_le_of_lt hgeneration (openSocket_fresh out hsocket socket hmem).1

theorem restartSocket_moves (s : SocketClient) (out : Outside) :
    Moves True s (s.restartSocket out) := by
  unfold restartSocket
  split
  · next h =>
    refine Moves.idle (Moves.refl (s := s)) fun hs => ?_
    rcases h with hstopped | hbinding
    · rw [hs.running] at hstopped
      cases hstopped
    · exact hs.bound hbinding
  · next h =>
    have hstopped : s.stopped = false := by simpa using (not_or.mp h).1
    exact invalidated_moves rfl hstopped rfl rfl (Nat.le_succ _)

theorem connect_moves (s : SocketClient) (out : Outside) (binding : BindingStore.Binding) :
    Moves True s (s.connect out binding) :=
  invalidated_moves rfl rfl rfl rfl (Nat.le_succ _)

/-- Without a ready connection a restart is nobody's loss. -/
theorem restart_unready {s : SocketClient} {out : Outside} (h : s.ready = false) :
    Moves False s (s.restartSocket out) := by
  refine (restartSocket_moves s out).idle fun hs => ?_
  rw [hs.ready] at h
  cases h

theorem ensureConnected_moves (s : SocketClient) (out : Outside) :
    Moves False s (s.ensureConnected out) := by
  unfold ensureConnected
  split
  · exact Moves.refl
  · next h =>
    split
    · exact Moves.refl
    · apply restart_unready
      simpa using (not_or.mp (not_or.mp h).2).1

theorem wakeConnectionForText_moves {s : SocketClient} (out : Outside) (h : s.ready = false) :
    Moves False s (s.wakeConnectionForText out) := by
  unfold wakeConnectionForText
  split
  · exact Moves.refl
  · split
    · exact Moves.refl
    · exact restart_unready h

/-- Fields that have nothing to do with the socket. -/
theorem moves_of_eq {s t : SocketClient} (hsocket : t.socket = s.socket)
    (hpending : t.pendingImageId = s.pendingImageId) (hreports : t.imageReports = s.imageReports)
    (hgeneration : t.generation = s.generation) (hready : s.ready = true → t.ready = true)
    (hstopped : t.stopped = s.stopped) (hbinding : s.binding ≠ none → t.binding ≠ none)
    (hclient : t.client = s.client) : Moves False s t where
  pending := hpending
  reports := hreports
  generation := hgeneration.ge
  wired hs := by
    constructor
    · intro socket hmem
      rw [hsocket] at hmem
      rw [hgeneration]
      exact hs.generation socket hmem
    · intro hne
      rw [hsocket] at hne
      obtain ⟨hrunning, hbound, hcl⟩ := hs.running hne
      rw [hstopped, hclient]
      exact ⟨hrunning, hbinding hbound, hcl⟩
  kept hs _ := by
    refine ⟨hsocket, hready hs.ready, ?_, hbinding hs.bound, ?_, ?_⟩
    · rw [hstopped, hs.running]
    · rw [hclient]
      exact hs.client
    · rw [hsocket]
      exact hs.socket
  gone _ h := h.elim

theorem forceReconnect_moves (s : SocketClient) (out : Outside) :
    Moves (s.stopped = false ∧ s.binding ≠ none) s (s.forceReconnect out) := by
  unfold forceReconnect
  split
  · next h =>
    apply Moves.refl_of_not
    rintro ⟨hstopped, hbinding⟩
    rcases h with h | h
    · rw [hstopped] at h
      cases h
    · exact hbinding h
  · next h =>
    have hset : Moves False s { s with reconnectAttempt := 0 } :=
      moves_of_eq rfl rfl rfl rfl id rfl id rfl
    have hrestart := hset.trans (restartSocket_moves { s with reconnectAttempt := 0 } out)
    exact hrestart.iff fun hs => iff_of_true trivial ⟨hs.running, hs.bound⟩

theorem written_moves (s : SocketClient) (out : Outside) (taken : Bool) :
    Moves (taken = false) s (s.written out taken) := by
  unfold written
  split
  · next h => exact Moves.refl_of_not (by simp [h.2])
  · next h =>
    refine (restartSocket_moves s out).iff fun hs => iff_of_true trivial ?_
    cases taken with
    | false => rfl
    | true => exact absurd ⟨Option.isSome_iff_ne_none.mpr hs.socket, rfl⟩ h

theorem sendAction_moves (s : SocketClient) (out : Outside) (taken : Bool)
    (action : Option OutboundAction) :
    Moves (action ≠ none ∧ taken = false) s (s.sendAction out taken action) := by
  cases action with
  | none => exact Moves.refl_of_not fun h => h.1 rfl
  | some action =>
    have h := written_moves s out taken
    exact h.iff fun _ => (and_iff_right (Option.some_ne_none action)).symm

theorem withQueue_moves (s : SocketClient) (queue : OutboundQueue) :
    Moves False s { s with queue := queue } :=
  moves_of_eq rfl rfl rfl rfl id rfl id rfl

/-- A call of the listener that ends no transfer. -/
theorem Moves.called {p : Prop} {s t : SocketClient} (h : Moves p s t) {callback : Callback}
    (hcallback : callback.imageReport? = none) : Moves p s (t.called [callback]) where
  pending := h.pending
  reports := by
    have hsame : (t.called [callback]).imageReports = t.imageReports := by
      simp [imageReports, SocketClient.called, hcallback]
    exact hsame.trans h.reports
  generation := h.generation
  wired hs := ⟨(h.wired hs).generation, (h.wired hs).running⟩
  kept hs hp := by
    obtain ⟨hsocket, ht⟩ := h.kept hs hp
    exact ⟨hsocket, ht.ready, ht.running, ht.bound, ht.client, ht.socket⟩
  gone := h.gone

theorem send_moves (s : SocketClient) (out : Outside) (message : SnapshotMessage) :
    Moves ((s.healthCheckDue out = true ∧ out.taken = false) ∨
      ((s.queue.offer message).2 ≠ none ∧ out.takenNext = false)) s (s.send out message) := by
  have hqueue := withQueue_moves s (s.queue.offer message).1
  unfold send
  dsimp only
  split
  · unfold sendHealthCheckIfIdle
    split
    · next hdue =>
      rw [if_pos rfl]
      have haction := hqueue.trans (sendAction_moves _ out out.takenNext (s.queue.offer message).2)
      refine haction.iff fun _ => (or_iff_right fun h => ?_).symm
      rw [show s.healthCheckDue out = false from hdue] at h
      cases h.1
    · next hdue =>
      split
      · next htaken =>
        rw [if_pos rfl]
        have hpending := hqueue.trans (t := { s with queue := (s.queue.offer message).1 })
          (moves_of_eq (t := { s with
            queue := (s.queue.offer message).1
            healthCheckPending := true
            healthTimeoutRunnable := true }) rfl rfl rfl rfl id rfl id rfl)
        have haction := hpending.trans
          (sendAction_moves _ out out.takenNext (s.queue.offer message).2)
        refine haction.iff fun _ => (or_iff_right fun h => ?_).symm
        rw [htaken.2] at h
        cases h.2
      · next htaken =>
        rw [if_neg Bool.false_ne_true]
        have hrestart := hqueue.trans (restartSocket_moves _ out)
        refine hrestart.iff fun hs => iff_of_true trivial (Or.inl ⟨?_, ?_⟩)
        · exact Bool.not_eq_false _ ▸ hdue
        · by_contra hsent
          exact htaken ⟨Option.isSome_iff_ne_none.mpr hs.socket, Bool.not_eq_false _ ▸ hsent⟩
  · next hready =>
    have hunready : s.ready = false := by simpa using hready
    have hwake := hqueue.trans (wakeConnectionForText_moves
      (s := { s with queue := (s.queue.offer message).1 }) out hunready)
    refine hwake.idle fun hs => ?_
    rw [hs.ready] at hunready
    cases hunready

theorem abandonSession_moves (s : SocketClient) (out : Outside) :
    Moves (out.taken = false) s (s.abandonSession out) := by
  have hqueue := withQueue_moves s s.queue.abandonSession
  unfold abandonSession
  dsimp only
  split
  · exact hqueue.trans (written_moves _ out out.taken)
  · next hready => exact hqueue.idle fun hs => hready hs.ready

theorem shutdown_moves (s : SocketClient) : Moves True s s.shutdown := by
  refine ⟨rfl, rfl, Nat.le_succ _, fun _ => wired_of_none rfl, fun _ h => absurd trivial h,
    fun _ _ => ?_⟩
  rintro _ ⟨⟩

theorem resetForTargetSelection_moves (s : SocketClient) :
    Moves True s s.resetForTargetSelection := by
  refine ⟨rfl, rfl, Nat.le_succ _, fun _ => wired_of_none rfl, fun _ h => absurd trivial h,
    fun _ _ => ?_⟩
  rintro _ ⟨⟩

theorem healthTimeout_moves (s : SocketClient) (out : Outside) (generation : Nat) :
    Moves (generation = s.generation ∧ s.healthCheckPending = true) s
      (s.healthTimeout out generation) := by
  unfold healthTimeout
  split
  · next h =>
    refine Moves.refl.iff fun hs => iff_of_false id ?_
    rintro ⟨hgeneration, hpending⟩
    rcases h with h | h | h
    · exact h hgeneration
    · rw [hpending] at h
      cases h
    · rw [hs.running] at h
      cases h
  · next h =>
    obtain ⟨hgeneration, hpending, -⟩ : generation = s.generation ∧
        s.healthCheckPending = true ∧ s.stopped = false := by
      simpa using h
    exact (restartSocket_moves s out).iff fun _ => iff_of_true trivial ⟨hgeneration, hpending⟩

theorem targetRetry_moves (s : SocketClient) (out : Outside) :
    Moves (s.queue.retry ≠ none ∧ out.taken = false) s (s.targetRetry out) := by
  have hset : Moves False s { s with targetRetryRunnable := false } :=
    moves_of_eq rfl rfl rfl rfl id rfl id rfl
  unfold targetRetry
  dsimp only
  split
  · exact hset.trans (sendAction_moves _ out out.taken s.queue.retry)
  · next hready => exact hset.idle fun hs => hready hs.ready

theorem reconnect_moves (s : SocketClient) (out : Outside) :
    Moves False s (s.reconnect out) := by
  have hset : Moves False s { s with reconnectRunnable := false } :=
    moves_of_eq rfl rfl rfl rfl id rfl id rfl
  unfold reconnect
  dsimp only
  split
  · exact hset
  · next h =>
    obtain ⟨hstopped, -, hsocket⟩ : s.stopped = false ∧ s.ready = false ∧ s.socket = none := by
      simpa using h
    have hopen : Moves True s ({ s with reconnectRunnable := false }.openSocket out) :=
      invalidated_moves hsocket hstopped rfl rfl le_rfl
    exact hopen.idle fun hs => hs.socket hsocket

theorem switchAnswered_moves (s : SocketClient) (out : Outside) (generation : Nat) :
    Moves (generation = s.generation ∧ out.taken = false) s (s.switchAnswered out generation) := by
  unfold switchAnswered
  split
  · next h =>
    refine Moves.refl.iff fun hs => iff_of_false id ?_
    rintro ⟨hgeneration, -⟩
    rcases h with h | h | h
    · exact h hgeneration
    · rw [hs.running] at h
      cases h
    · rw [hs.ready] at h
      cases h
  · next h =>
    have hgeneration : generation = s.generation := not_not.mp (not_or.mp h).1
    exact (written_moves s out out.taken).iff fun _ => (and_iff_right hgeneration).symm

theorem onReady_moves (s : SocketClient) (out : Outside) (current : BindingStore.Binding)
    (fileTransfer healthCheck : Bool) :
    Moves (s.queue.onConnected.2 ≠ none ∧ out.taken = false) s
      (s.onReady out current fileTransfer healthCheck) := by
  have hset : Moves False s { s with
      connectTimeoutRunnable := false
      ready := true
      reconnectAttempt := 0
      fileTransferSupported := fileTransfer
      healthCheckSupported := healthCheck
      binding := some current.pairedAtCurrentEndpoint
      queue := s.queue.onConnected.1 } :=
    moves_of_eq rfl rfl rfl rfl (fun _ => rfl) rfl (fun _ => Option.some_ne_none _) rfl
  exact (hset.called rfl).trans (sendAction_moves _ out out.taken _)

theorem onAck_moves (s : SocketClient) (out : Outside) (ack : AckMessage) :
    Moves (s.queue.acceptsSession ack.sessionId = true ∧ (s.queue.acknowledge ack).2 ≠ none ∧
      out.taken = false) s (s.onAck out ack) := by
  unfold onAck
  split
  · next h => exact Moves.refl_of_not fun hp => Bool.false_ne_true (h.symm.trans hp.1)
  · next h =>
    have haccepts : s.queue.acceptsSession ack.sessionId = true := by simpa using h
    have haction := (withQueue_moves s (s.queue.acknowledge ack).1).trans
      (sendAction_moves _ out out.taken (s.queue.acknowledge ack).2)
    refine Moves.called ?_ rfl
    exact haction.iff fun _ => (and_iff_right haccepts).symm

theorem onTarget_moves (s : SocketClient) (target : TargetMessage) :
    Moves False s (s.onTarget target) := by
  unfold onTarget
  split
  · exact Moves.refl
  · refine Moves.called ?_ rfl
    split
    · exact withQueue_moves s _
    · unfold scheduleTargetRetry
      split
      · exact moves_of_eq rfl rfl rfl rfl id rfl id rfl
      · exact Moves.refl
    · exact withQueue_moves s _

theorem onError_moves (s : SocketClient) (current : BindingStore.Binding) (error : ErrorMessage) :
    Moves (error.code = .authFailed ∧
      ¬ ∃ sessionId ∈ error.sessionId, s.queue.acceptsSession sessionId = false) s
      (s.onError current error) := by
  unfold onError
  split
  · next h => exact Moves.refl_of_not fun hp => hp.2 h
  · next h =>
    split
    · next hcode =>
      refine ⟨rfl, ?_, Nat.le_succ _, fun _ => wired_of_none rfl,
        fun _ hp => absurd ⟨hcode, h⟩ hp, fun _ _ => ?_⟩
      · simp [imageReports, called, invalidateSocket, Callback.imageReport?]
      · rintro _ ⟨⟩
    · next hcode =>
      refine Moves.called ?_ rfl
      exact (withQueue_moves s _).iff fun _ => iff_of_false id fun hp => hcode hp.1

theorem markServerResponsive_moves (s : SocketClient) (out : Outside) :
    Moves False s (s.markServerResponsive out) :=
  moves_of_eq rfl rfl rfl rfl id rfl id rfl

theorem onMessage_moves (s : SocketClient) (out : Outside) (generation : Nat) (message : Message)
    (hack : ∀ transferId, message ≠ .imageAck transferId)
    (herror : ∀ transferId, message ≠ .imageError transferId) :
    Moves (s.Invalidates out (.onMessage generation message)) s
      (s.onMessage out generation message) := by
  have hresponsive := markServerResponsive_moves s out
  unfold onMessage
  split
  · next hnone =>
    refine Moves.refl.iff fun hs => iff_of_false id ?_
    rintro ⟨hgeneration, -⟩
    unfold listener at hnone
    rw [if_neg (by simp [hgeneration, hs.running])] at hnone
    exact hs.socket hnone
  · next socket hsome =>
    have hgeneration : generation = s.generation := by
      unfold listener at hsome
      split at hsome
      · cases hsome
      · next h => exact not_not.mp (not_or.mp h).1
    have hcurrent : ∀ {p : Prop} {t : SocketClient}, Moves p s t →
        Moves (generation = s.generation ∧ p) s t :=
      fun h => h.iff fun _ => (and_iff_right hgeneration).symm
    let s₁ := s.markServerResponsive out
    cases message with
    | challenge => exact hcurrent (hresponsive.trans (written_moves s₁ out out.taken))
    | ready fileTransfer healthCheck =>
      exact hcurrent (hresponsive.trans (onReady_moves s₁ out socket.current fileTransfer healthCheck))
    | imageAck transferId => exact absurd rfl (hack transferId)
    | imageError transferId => exact absurd rfl (herror transferId)
    | probeResult => exact hcurrent hresponsive
    | healthAck => exact hcurrent hresponsive
    | ack ack => exact hcurrent (hresponsive.trans (onAck_moves s₁ out ack))
    | target target => exact hcurrent (hresponsive.trans (onTarget_moves s₁ target))
    | switchComputer pcId requestId => exact hcurrent (hresponsive.called rfl)
    | error error => exact hcurrent (hresponsive.trans (onError_moves s₁ socket.current error))

theorem act_moves {s t : SocketClient} {out : Outside} {action : Action}
    (hsend : ∀ transferId, action ≠ .sendImage transferId)
    (hack : ∀ generation transferId, action ≠ .onMessage generation (.imageAck transferId))
    (herror : ∀ generation transferId, action ≠ .onMessage generation (.imageError transferId))
    (hclosed : ∀ generation failed, action ≠ .onClosed generation failed)
    (htimeout : ∀ generation, action ≠ .connectTimeout generation)
    (h : s.act out action = some t) : Moves (s.Invalidates out action) s t := by
  cases action with
  | connect binding =>
    cases h
    exact connect_moves s out binding
  | ensureConnected =>
    cases h
    exact ensureConnected_moves s out
  | forceReconnect =>
    cases h
    exact forceReconnect_moves s out
  | send message =>
    cases h
    exact send_moves s out message
  | sendImage transferId => exact absurd rfl (hsend transferId)
  | abandonSession =>
    cases h
    exact abandonSession_moves s out
  | restore message acknowledgedSequence remoteStarted =>
    obtain ⟨queue, -, rfl⟩ := Option.map_eq_some_iff.mp h
    exact withQueue_moves s queue
  | startOfflineDraft =>
    cases h
    have hqueue := withQueue_moves s s.queue.startOfflineDraft.1
    exact hqueue.trans (sendAction_moves _ out out.taken s.queue.startOfflineDraft.2)
  | shutdown =>
    cases h
    exact shutdown_moves s
  | resetForTargetSelection =>
    cases h
    exact resetForTargetSelection_moves s
  | onMessage generation message =>
    cases h
    apply onMessage_moves s out generation message
    · rintro transferId rfl
      exact hack generation transferId rfl
    · rintro transferId rfl
      exact herror generation transferId rfl
  | onClosed generation failed => exact absurd rfl (hclosed generation failed)
  | connectTimeout generation => exact absurd rfl (htimeout generation)
  | healthTimeout generation =>
    cases h
    exact healthTimeout_moves s out generation
  | targetRetry =>
    cases h
    exact targetRetry_moves s out
  | reconnect =>
    cases h
    exact reconnect_moves s out
  | switchAnswered generation =>
    cases h
    exact switchAnswered_moves s out generation

/-- What becomes of the slot when the socket is lost: its transfer is reported, and there
is no socket. -/
structure Loses (s t : SocketClient) : Prop where
  pending : t.pendingImageId = none
  reports : t.imageReports = s.imageReports ++ s.pendingImageId.toList.map (⟨·, false⟩)
  socket : t.socket = none

theorem connectionLost_loses (s : SocketClient) (current : BindingStore.Binding) (failed : Bool) :
    Loses s (s.connectionLost current failed) := by
  have hcalls : ∀ (binding : BindingStore.Binding),
      (s.calls ++ (s.pendingImageId.toList.map Callback.imageTransferFailed ++
        [if failed then Callback.failure binding else Callback.disconnected binding])).filterMap
          Callback.imageReport? = s.imageReports ++ s.pendingImageId.toList.map (⟨·, false⟩) := by
    intro binding
    rw [List.filterMap_append, List.filterMap_append]
    cases failed <;> cases s.pendingImageId <;> rfl
  have hschedule : ∀ s' : SocketClient, Loses s s' → Loses s s'.scheduleReconnect := by
    intro s' h
    unfold scheduleReconnect
    split
    · exact h
    · exact ⟨h.pending, h.reports, rfl⟩
  exact hschedule _ ⟨rfl, hcalls _, rfl⟩

/-- A socket that closes is the one of the client, or an old one. -/
theorem onClosed_loses (s : SocketClient) (generation : Nat) (failed : Bool) :
    s.onClosed generation failed = s ∨ Loses s (s.onClosed generation failed) := by
  unfold onClosed
  split
  · exact Or.inl rfl
  · exact Or.inr (connectionLost_loses s _ failed)

theorem connectTimeout_loses (s : SocketClient) (generation : Nat) :
    s.connectTimeout generation = s ∨ Loses s (s.connectTimeout generation) := by
  unfold connectTimeout
  split
  · exact Or.inl rfl
  · exact onClosed_loses s generation true

/-- An answer of the transfer that is pending. -/
structure Answers (transferId : String) (transferred : Bool) (s t : SocketClient) : Prop where
  was : s.pendingImageId = some transferId
  pending : t.pendingImageId = none
  reports : t.imageReports = s.imageReports ++ [⟨transferId, transferred⟩]
  socket : t.socket = s.socket
  wired : s.Wired → t.Wired

theorem onImageReply_answers (s : SocketClient) (transferId : String) (transferred : Bool) :
    s.onImageReply transferId transferred = s ∨
      Answers transferId transferred s (s.onImageReply transferId transferred) := by
  unfold onImageReply
  split
  · exact Or.inl rfl
  · next hpending =>
    refine Or.inr ⟨not_not.mp hpending, rfl, ?_, rfl, fun hs => ⟨hs.generation, hs.running⟩⟩
    unfold imageReports called
    rw [List.filterMap_append]
    cases transferred <;> rfl

/-- Answers of transfers: for another transfer nothing happens. -/
theorem onMessage_answers (s : SocketClient) (out : Outside) (generation : Nat)
    (transferId : String) (transferred : Bool) :
    let t := s.onMessage out generation
      (if transferred then .imageAck transferId else .imageError transferId)
    Moves False s t ∨ Answers transferId transferred s t := by
  have hresponsive := markServerResponsive_moves s out
  have hreply := onImageReply_answers (s.markServerResponsive out) transferId transferred
  unfold onMessage
  dsimp only
  split
  · exact Or.inl Moves.refl
  · have hsame : ∀ t : SocketClient, t = s.markServerResponsive out ∨
        Answers transferId transferred (s.markServerResponsive out) t →
        Moves False s t ∨ Answers transferId transferred s t := by
      rintro t (rfl | h)
      · exact Or.inl hresponsive
      · exact Or.inr ⟨h.was, h.pending, h.reports, h.socket, fun hs => h.wired (hresponsive.wired hs)⟩
    cases transferred with
    | true => exact hsame _ hreply
    | false => exact hsame _ hreply

theorem sendImage_calls (s : SocketClient) (calls : List Callback) (out : Outside)
    (transferId : String) :
    ({ s with calls := calls }.sendImage out transferId).2 = (s.sendImage out transferId).2 := by
  unfold sendImage
  split_ifs <;> rfl

theorem sendImage_moves (s : SocketClient) (out : Outside) (transferId : String) :
    (s.sendImage out transferId = ({ s with pendingImageId := some transferId }, true) ∧
      s.ready = true ∧ s.socket ≠ none ∧ s.pendingImageId = none) ∨
    ((s.sendImage out transferId).2 = false ∧
      Moves (s.pendingImageId = none ∧ (out.taken && out.takenNext) = false) s
        (s.sendImage out transferId).1) := by
  unfold sendImage
  split
  · next h =>
    refine Or.inr ⟨rfl, Moves.refl.iff fun hs => iff_of_false id ?_⟩
    rintro ⟨hpending, -⟩
    rcases h with h | h | h
    · rw [hs.ready] at h
      cases h
    · exact hs.socket h
    · exact h hpending
  · next h =>
    obtain ⟨hready, hsocket, hpending⟩ : s.ready = true ∧ s.socket ≠ none ∧
        s.pendingImageId = none := by
      simpa using h
    split
    · exact Or.inl ⟨rfl, hready, hsocket, hpending⟩
    · next htaken =>
      refine Or.inr ⟨rfl, ?_⟩
      have hset : Moves False s { s with pendingImageId := none } :=
        moves_of_eq rfl hpending.symm rfl rfl id rfl id rfl
      have hrestart := hset.trans (restartSocket_moves _ out)
      refine hrestart.iff fun _ => iff_of_true trivial ⟨hpending, ?_⟩
      simpa using htaken

end SocketClient

/-- An image that was pending when its socket went: what was reported during that event,
and the slot after it. -/
structure ImageDrop where
  transferId : String
  reports : List ImageReport
  slot : Option String
  deriving DecidableEq, Repr

/-- The client with the history of its images, the latest first: the image accepted last
with the generation of the socket that has taken it, what was accepted and reported, and
the sockets that went with an image pending. -/
structure ImageRun where
  client : SocketClient := {}
  acceptedOn : Option (String × Nat) := none
  accepted : List String := []
  reported : List ImageReport := []
  drops : List ImageDrop := []
  deriving DecidableEq, Repr

namespace ImageRun
open Machine SocketClient

def acceptedBy (s : SocketClient) (e : SocketClient.Event) : Option String :=
  match e.action with
  | .sendImage transferId => if (s.sendImage e.out transferId).2 then some transferId else none
  | _ => none

/-- The client after an event in which `accepted` was accepted. -/
def record (s : ImageRun) (accepted : Option String) (client : SocketClient) : ImageRun where
  client
  acceptedOn := match accepted with
    | some transferId => client.socket.map fun socket => (transferId, socket.generation)
    | none => s.acceptedOn
  accepted := accepted.toList ++ s.accepted
  reported := client.imageReports ++ s.reported
  drops := if client.socket = s.client.socket then s.drops
    else s.client.pendingImageId.toList.map
      (fun transferId => ⟨transferId, client.imageReports, client.pendingImageId⟩) ++ s.drops

def step (s : ImageRun) (e : SocketClient.Event) : Option ImageRun :=
  (s.client.step e).map (s.record (acceptedBy s.client e))

/-- The pending image was accepted on the socket that is open, each socket that went with
an image pending has failed it exactly once and freed the slot, and each accepted image
is pending or was reported once. -/
structure Sound (s : ImageRun) : Prop where
  onSocket : ∀ transferId ∈ s.client.pendingImageId, ∃ socket ∈ s.client.socket,
    s.acceptedOn = some (transferId, socket.generation)
  dropped : ∀ drop ∈ s.drops, drop.reports = [⟨drop.transferId, false⟩] ∧ drop.slot = none
  settled : s.accepted = s.client.pendingImageId.toList ++ s.reported.map (·.transferId)

/-- No image is pending when the socket is torn down by `invalidateSocketLocked`. -/
def ImageOk (s : ImageRun) (e : SocketClient.Event) : Prop :=
  s.client.pendingImageId = none ∨ ¬ s.client.Invalidates e.out e.action

structure Inv (s : ImageRun) : Prop where
  sound : s.Sound
  wired : s.client.Wired
  connected : s.client.pendingImageId ≠ none → s.client.Connected

theorem start_sound : Sound {} := by
  constructor
  · rintro _ ⟨⟩
  · rintro _ ⟨⟩
  · rfl

theorem start_inv : Inv {} := by
  constructor
  · exact start_sound
  · exact wired_of_none rfl
  · exact fun h => absurd rfl h

theorem record_drops {s : ImageRun} {accepted : Option String} {client : SocketClient}
    {drop : ImageDrop} (h : drop ∈ (s.record accepted client).drops) :
    drop ∈ s.drops ∨ (client.socket ≠ s.client.socket ∧
      ∃ transferId ∈ s.client.pendingImageId,
        drop = ⟨transferId, client.imageReports, client.pendingImageId⟩) := by
  unfold record at h
  dsimp only at h
  split at h
  · exact Or.inl h
  · next hgone =>
    rcases List.mem_append.mp h with hnew | hold
    · obtain ⟨transferId, hmem, rfl⟩ := List.mem_map.mp hnew
      exact Or.inr ⟨hgone, transferId, Option.mem_toList.mp hmem, rfl⟩
    · exact Or.inl hold

theorem moves_inv {s : ImageRun} {t : SocketClient} {p : Prop} (hinv : s.Inv)
    (h : Moves p { s.client with calls := [] } t)
    (hok : s.client.pendingImageId = none ∨ ¬ p) : (s.record none t).Inv := by
  have hreports : t.imageReports = [] := h.reports
  have hpending : t.pendingImageId = s.client.pendingImageId := h.pending
  -- With an image in the slot the socket is the one that has taken it.
  have hsocket : t.pendingImageId ≠ none → t.socket = s.client.socket ∧ t.Connected := by
    intro hsome
    rw [hpending] at hsome
    have hs := hinv.connected hsome
    exact h.kept ⟨hs.ready, hs.running, hs.bound, hs.client, hs.socket⟩ (hok.resolve_left hsome)
  constructor
  · constructor
    · intro transferId hmem
      have hkept := (hsocket (Option.ne_none_iff_exists'.mpr ⟨transferId, hmem⟩)).1
      obtain ⟨socket, hs, hon⟩ := hinv.sound.onSocket transferId (hpending.symm.trans hmem)
      exact ⟨socket, hkept.trans hs, hon⟩
    · intro drop hdrop
      rcases record_drops hdrop with hold | ⟨hgone, transferId, hmem, rfl⟩
      · exact hinv.sound.dropped drop hold
      · have hsome := hpending.trans hmem
        exact absurd (hsocket (Option.ne_none_iff_exists'.mpr ⟨transferId, hsome⟩)).1 hgone
    · have hsettled := hinv.sound.settled
      rw [← hpending] at hsettled
      simpa [record, hreports] using hsettled
  · exact h.wired ⟨hinv.wired.generation, hinv.wired.running⟩
  · exact fun hsome => (hsocket hsome).2

/-- When the socket of a pending image is torn down, the image is in no socket. -/
theorem torn_not_sound {s : ImageRun} {t : SocketClient} {p : Prop} (hinv : s.Inv)
    (h : Moves p { s.client with calls := [] } t) (hsome : s.client.pendingImageId ≠ none)
    (hp : p) : ¬ (s.record none t).Sound := by
  intro hsound
  have hs := hinv.connected hsome
  obtain ⟨transferId, htransfer⟩ := Option.ne_none_iff_exists'.mp hsome
  have hpending : t.pendingImageId = some transferId := h.pending.trans htransfer
  obtain ⟨socket, hmem, hon⟩ := hsound.onSocket transferId hpending
  obtain ⟨old, hold, hon'⟩ := hinv.sound.onSocket transferId htransfer
  have hnewer : s.client.generation < socket.generation :=
    h.gone ⟨hs.ready, hs.running, hs.bound, hs.client, hs.socket⟩ hp socket hmem
  have hbound : old.generation ≤ s.client.generation := hinv.wired.generation old hold
  have hsame : socket.generation = old.generation :=
    congrArg Prod.snd (Option.some.inj (hon.symm.trans hon'))
  omega

theorem moves_keeps {s : ImageRun} {t : SocketClient} {p : Prop} (hinv : s.Inv)
    (h : Moves p { s.client with calls := [] } t) :
    ((s.record none t).Sound ↔ s.client.pendingImageId = none ∨ ¬ p) ∧
      (s.client.pendingImageId = none ∨ ¬ p → (s.record none t).Inv) := by
  refine ⟨⟨fun hsound => ?_, fun hok => (moves_inv hinv h hok).sound⟩, moves_inv hinv h⟩
  by_contra hbad
  obtain ⟨hsome, hp⟩ := not_or.mp hbad
  exact torn_not_sound hinv h hsome (not_not.mp hp) hsound

theorem ended_inv {s : ImageRun} {t : SocketClient} (hinv : s.Inv) (hwired : t.Wired)
    (hpending : t.pendingImageId = none)
    (hreports : t.imageReports.map (·.transferId) = s.client.pendingImageId.toList)
    (hfailed : t.socket ≠ s.client.socket → ∀ transferId ∈ s.client.pendingImageId,
      t.imageReports = [⟨transferId, false⟩]) : (s.record none t).Inv := by
  constructor
  · constructor
    · intro transferId hmem
      cases hpending.symm.trans hmem
    · intro drop hdrop
      rcases record_drops hdrop with hold | ⟨hgone, transferId, hmem, rfl⟩
      · exact hinv.sound.dropped drop hold
      · exact ⟨hfailed hgone transferId hmem, hpending⟩
    · have hsettled := hinv.sound.settled
      rw [← hreports] at hsettled
      simpa [record, hpending] using hsettled
  · exact hwired
  · exact fun hsome => absurd hpending hsome

theorem loses_inv {s : ImageRun} {t : SocketClient} (hinv : s.Inv)
    (h : Loses { s.client with calls := [] } t) : (s.record none t).Inv := by
  have hreports : t.imageReports =
      s.client.pendingImageId.toList.map (fun transferId => ⟨transferId, false⟩) := h.reports
  apply ended_inv hinv (wired_of_none h.socket) h.pending
  · rw [hreports]
    cases s.client.pendingImageId <;> rfl
  · intro _ transferId hmem
    rw [hreports, Option.mem_def.mp hmem]
    rfl

theorem answers_inv {s : ImageRun} {t : SocketClient} {transferId : String} {transferred : Bool}
    (hinv : s.Inv) (h : Answers transferId transferred { s.client with calls := [] } t) :
    (s.record none t).Inv := by
  have hwas : s.client.pendingImageId = some transferId := h.was
  have hreports : t.imageReports = [⟨transferId, transferred⟩] := h.reports
  apply ended_inv hinv (h.wired ⟨hinv.wired.generation, hinv.wired.running⟩) h.pending
  · rw [hreports, hwas]
    rfl
  · exact fun hgone => absurd h.socket hgone

theorem accepted_inv {s : ImageRun} {transferId : String} (hinv : s.Inv)
    (hready : s.client.ready = true) (hsocket : s.client.socket ≠ none)
    (hfree : s.client.pendingImageId = none) :
    (s.record (some transferId) { s.client with
      calls := []
      pendingImageId := some transferId }).Inv := by
  obtain ⟨hrunning, hbound, hclient⟩ := hinv.wired.running hsocket
  constructor
  · constructor
    · rintro _ ⟨⟩
      obtain ⟨socket, hsome⟩ := Option.ne_none_iff_exists'.mp hsocket
      refine ⟨socket, hsome, ?_⟩
      simp [record, hsome]
    · intro drop hdrop
      rcases record_drops hdrop with hold | ⟨hgone, -⟩
      · exact hinv.sound.dropped drop hold
      · exact absurd rfl hgone
    · have hsettled := hinv.sound.settled
      rw [hfree] at hsettled
      simpa [record, imageReports] using hsettled
  · exact ⟨hinv.wired.generation, hinv.wired.running⟩
  · exact fun _ => ⟨hready, hrunning, hbound, hclient, hsocket⟩

theorem step_keeps {s t : ImageRun} {e : SocketClient.Event} (hinv : s.Inv)
    (h : s.step e = some t) : (t.Sound ↔ s.ImageOk e) ∧ (s.ImageOk e → t.Inv) := by
  obtain ⟨client, hclient, rfl⟩ := Option.map_eq_some_iff.mp h
  obtain ⟨action, out⟩ := e
  let s₀ : SocketClient := { s.client with calls := [] }
  have hkept : ∀ {s' : ImageRun}, s'.Inv → ¬ s.client.Invalidates out action →
      (s'.Sound ↔ s.ImageOk ⟨action, out⟩) ∧ (s.ImageOk ⟨action, out⟩ → s'.Inv) :=
    fun hs' hnot => ⟨iff_of_true hs'.sound (Or.inr hnot), fun _ => hs'⟩
  have hlost : client = s₀ ∨ Loses s₀ client → (s.record none client).Inv := by
    rintro (rfl | hloses)
    · exact moves_inv hinv Moves.refl (Or.inr id)
    · exact loses_inv hinv hloses
  have hanswered : ∀ generation transferId (transferred : Bool),
      client = s₀.onMessage out generation
        (if transferred then .imageAck transferId else .imageError transferId) →
      (s.record none client).Inv := by
    rintro generation transferId transferred rfl
    rcases onMessage_answers s₀ out generation transferId transferred with hmoves | hanswers
    · exact moves_inv hinv hmoves (Or.inr id)
    · exact answers_inv hinv hanswers
  cases action with
  | sendImage transferId =>
    cases hclient
    rcases sendImage_moves s₀ out transferId with ⟨hsend, hready, hsocket, hfree⟩ | ⟨hrefused, hmoves⟩
    · have haccepted : acceptedBy s.client ⟨.sendImage transferId, out⟩ = some transferId := by
        simp [acceptedBy, ← sendImage_calls s.client [], s₀, hsend]
      rw [haccepted, hsend]
      exact hkept (accepted_inv hinv hready hsocket hfree) id
    · have haccepted : acceptedBy s.client ⟨.sendImage transferId, out⟩ = none := by
        simp [acceptedBy, ← sendImage_calls s.client [], s₀, hrefused]
      rw [haccepted]
      -- A refused image found the slot taken, or it leaves the slot free.
      have hok : s.client.pendingImageId = none ∨
          ¬ (s.client.pendingImageId = none ∧ (out.taken && out.takenNext) = false) :=
        (Classical.em _).imp_right fun hsome hp => hsome hp.1
      exact hkept (moves_inv hinv hmoves hok) id
  | onMessage generation message =>
    cases message with
    | imageAck transferId =>
      cases hclient
      exact hkept (hanswered generation transferId true rfl) fun hp => hp.2
    | imageError transferId =>
      cases hclient
      exact hkept (hanswered generation transferId false rfl) fun hp => hp.2
    | _ => exact moves_keeps hinv (act_moves (by simp) (by simp) (by simp) (by simp) (by simp) hclient)
  | onClosed generation failed =>
    cases hclient
    exact hkept (hlost (onClosed_loses _ generation failed)) id
  | connectTimeout generation =>
    cases hclient
    exact hkept (hlost (connectTimeout_loses _ generation)) id
  | _ => exact moves_keeps hinv (act_moves (by simp) (by simp) (by simp) (by simp) (by simp) hclient)

/-- The image slot never outlives its connection exactly in the runs in which no image is
pending when the socket is torn down by `invalidateSocketLocked`. -/
theorem image_slot_freed (es : List SocketClient.Event) :
    Always step Sound {} es ↔ Along step ImageOk {} es := by
  apply always_iff_along Inv es start_inv start_sound
  intro s e t hinv _ hstep
  exact step_keeps hinv hstep

/-- The connection is forced anew while an image is on its way. -/
def reconnectRun : List SocketClient.Event :=
  [⟨.connect { pcId := "pc", pcName := "PC", endpoint := "wss://pc", tlsSpkiSha256 := "k" }, {}⟩,
    ⟨.onMessage 2 .challenge, {}⟩, ⟨.onMessage 2 (.ready true true), {}⟩, ⟨.sendImage "image", {}⟩,
    ⟨.forceReconnect, {}⟩]

theorem reconnectRun_not_sound : ¬ Always step Sound {} reconnectRun := by
  intro h
  have hlast := h.last reconnectRun rfl
  obtain ⟨socket, hsocket, hon⟩ := hlast.onSocket "image" rfl
  cases hsocket
  cases hon

end ImageRun

end FlowType
