import FlowType.Protocol

/-! The phone's `OutboundQueue`: one message in flight, the latest one pending.
Every operation returns the queue after it and the action it emits. -/
namespace FlowType

structure OutboundAction where
  snapshot : SnapshotMessage
  resume : Bool
  deriving DecidableEq, Repr

structure OutboundQueue where
  connected : Bool := false
  sessionStarted : Bool := false
  startAttempted : Bool := false
  inFlight : Option SnapshotMessage := none
  pending : Option SnapshotMessage := none
  latest : Option SnapshotMessage := none
  lastAckSequence : Int := 0
  deriving DecidableEq, Repr

namespace OutboundQueue

def offer (q : OutboundQueue) (snapshot : SnapshotMessage) :
    OutboundQueue × Option OutboundAction :=
  let q := { q with latest := some snapshot }
  if q.connected = false ∨ q.inFlight ≠ none then ({ q with pending := some snapshot }, none)
  else
    ({ q with
        inFlight := some snapshot
        startAttempted := q.startAttempted || decide (snapshot.type = .start) },
      some ⟨snapshot, false⟩)

def onConnected (q : OutboundQueue) : OutboundQueue × Option OutboundAction :=
  let q := { q with connected := true }
  match q.latest <|> q.pending <|> q.inFlight with
  | none => (q, none)
  | some latestSnapshot =>
    if q.sessionStarted = false ∧ q.startAttempted = false then (q, none)
    else
      -- START was sent but its confirmation was lost: restart the remote session
      let snapshot := if q.sessionStarted = false then
        { latestSnapshot with type := .start } else latestSnapshot
      ({ q with inFlight := some snapshot, pending := none }, some ⟨snapshot, q.sessionStarted⟩)

def onDisconnected (q : OutboundQueue) : OutboundQueue := { q with connected := false }

def markSessionStarted (q : OutboundQueue) : OutboundQueue := { q with sessionStarted := true }

def restore (q : OutboundQueue) (snapshot : SnapshotMessage) (acknowledgedSequence : Int)
    (remoteStarted : Bool) : Option OutboundQueue :=
  if 0 ≤ acknowledgedSequence ∧ acknowledgedSequence ≤ snapshot.sequence then
    some { q with
      latest := some snapshot
      pending := some snapshot
      lastAckSequence := acknowledgedSequence
      sessionStarted := remoteStarted
      startAttempted := remoteStarted }
  else none

def startOfflineDraft (q : OutboundQueue) : OutboundQueue × Option OutboundAction :=
  if q.connected = false ∨ q.sessionStarted ∨ q.startAttempted then (q, none)
  else
    match q.latest <|> q.pending with
    | none => (q, none)
    | some snapshot =>
      let start := { snapshot with type := SnapshotType.start }
      ({ q with inFlight := some start, pending := none, startAttempted := true },
        some ⟨start, false⟩)

def requireExplicitStart (q : OutboundQueue) : OutboundQueue :=
  { q with
    sessionStarted := false
    startAttempted := false
    inFlight := none
    pending := q.latest }

def requiresExplicitStart (q : OutboundQueue) : Bool :=
  q.connected && q.latest.isSome && !q.sessionStarted && !q.startAttempted

def remoteStarted (q : OutboundQueue) : Bool := q.sessionStarted

def acceptsSession (q : OutboundQueue) (sessionId : String) : Bool :=
  decide (q.latest.map (·.sessionId) = some sessionId) ||
  decide (q.pending.map (·.sessionId) = some sessionId) ||
  decide (q.inFlight.map (·.sessionId) = some sessionId)

/-- `reset` keeps the connection: only the session is forgotten. -/
def reset (q : OutboundQueue) : OutboundQueue := { connected := q.connected }

def abandonSession (q : OutboundQueue) : OutboundQueue := q.reset

def acknowledge (q : OutboundQueue) (ack : AckMessage) : OutboundQueue × Option OutboundAction :=
  if q.acceptsSession ack.sessionId = false then (q, none)
  else if ack.appliedSequence < q.lastAckSequence then (q, none)
  else
    let q := { q with lastAckSequence := ack.appliedSequence }
    if ack.finished then (q.reset, none)
    else
      let covered := q.inFlight.any fun m => decide (m.sequence ≤ ack.appliedSequence)
      let q := { q with
        sessionStarted := true
        inFlight := if covered then none else q.inFlight }
      match q.pending with
      | none => (q, none)
      | some next =>
        ({ q with pending := none, inFlight := some next },
          if q.connected then some ⟨next, false⟩ else none)

def retry (q : OutboundQueue) : Option OutboundAction :=
  if q.connected = false then none
  else q.inFlight.map fun snapshot =>
    if q.sessionStarted ∧ snapshot.type = .start then ⟨{ snapshot with type := .update }, false⟩
    else ⟨snapshot, false⟩

@[simp] theorem offer_latest (q : OutboundQueue) (m : SnapshotMessage) :
    (q.offer m).1.latest = some m := by
  unfold offer
  dsimp only
  split <;> rfl

@[simp] theorem offer_lastAck (q : OutboundQueue) (m : SnapshotMessage) :
    (q.offer m).1.lastAckSequence = q.lastAckSequence := by
  unfold offer
  dsimp only
  split <;> rfl

theorem offer_holds (q : OutboundQueue) (m : SnapshotMessage) :
    (q.offer m).1.inFlight = some m ∨ (q.offer m).1.pending = some m := by
  unfold offer
  dsimp only
  split
  · exact Or.inr rfl
  · exact Or.inl rfl

@[simp] theorem onConnected_latest (q : OutboundQueue) : q.onConnected.1.latest = q.latest := by
  unfold onConnected
  dsimp only
  split
  · rfl
  · split <;> rfl

/-- Without a started or attempted session a new connection only marks itself. -/
theorem onConnected_idle (q : OutboundQueue) (hst : q.sessionStarted = false)
    (hat : q.startAttempted = false) : q.onConnected = ({ q with connected := true }, none) := by
  unfold onConnected
  dsimp only
  split
  · rfl
  · simp [hst, hat]

@[simp] theorem startOfflineDraft_latest (q : OutboundQueue) :
    q.startOfflineDraft.1.latest = q.latest := by
  unfold startOfflineDraft
  split
  · rfl
  · split <;> rfl

/-- The acknowledgement passes both checks of `acknowledge` and is not final. -/
def TakesEffect (q : OutboundQueue) (ack : AckMessage) : Prop :=
  q.acceptsSession ack.sessionId = true ∧ q.lastAckSequence ≤ ack.appliedSequence ∧
    ack.finished = false

instance (q : OutboundQueue) (ack : AckMessage) : Decidable (TakesEffect q ack) :=
  inferInstanceAs (Decidable (_ ∧ _ ∧ _))

/-- The effect of an accepted, non-final acknowledgement. -/
theorem acknowledge_effect (q : OutboundQueue) (ack : AckMessage) (h : TakesEffect q ack) :
    (q.acknowledge ack).1 = { q with
      lastAckSequence := ack.appliedSequence
      sessionStarted := true
      inFlight := q.pending <|> q.inFlight.filter fun x => decide (ack.appliedSequence < x.sequence)
      pending := none } := by
  obtain ⟨ha, hl, hf⟩ := h
  have hl' : ¬ ack.appliedSequence < q.lastAckSequence := by omega
  unfold acknowledge
  simp only [ha, hl', hf, Bool.true_eq_false, Bool.false_eq_true, if_false]
  cases hp : q.pending with
  | some p => rfl
  | none =>
    cases hi : q.inFlight with
    | none => rfl
    | some x =>
      by_cases hx : x.sequence ≤ ack.appliedSequence
      · simp [hx, Option.filter, show ¬ ack.appliedSequence < x.sequence by omega]
      · simp [hx, Option.filter, show ack.appliedSequence < x.sequence by omega]

/-- An acknowledgement without effect leaves the queue or forgets its session. -/
theorem acknowledge_no_effect (q : OutboundQueue) (ack : AckMessage) (h : ¬ TakesEffect q ack) :
    (q.acknowledge ack).1 = q ∨ (q.acknowledge ack).1.latest = none := by
  unfold acknowledge
  by_cases ha : q.acceptsSession ack.sessionId = true
  · by_cases hl : ack.appliedSequence < q.lastAckSequence
    · simp [ha, hl]
    · have hf : ack.finished = true := by
        by_contra hf
        exact h ⟨ha, by omega, by simpa using hf⟩
      simp [ha, hl, hf, reset]
  · simp [ha]

/-- The queue operations, with what each of them is given. -/
inductive Op
  | offer (snapshot : SnapshotMessage)
  | onConnected
  | onDisconnected
  | markSessionStarted
  | startOfflineDraft
  | requireExplicitStart
  | acknowledge (ack : AckMessage)
  | retry
  | restore (snapshot : SnapshotMessage) (acknowledgedSequence : Int) (remoteStarted : Bool)
  | abandonSession
  deriving DecidableEq, Repr

/-- One operation; `none` is the failed `require` of `restore`. -/
def apply (q : OutboundQueue) : Op → Option (OutboundQueue × Option OutboundAction)
  | .offer snapshot => some (q.offer snapshot)
  | .onConnected => some q.onConnected
  | .onDisconnected => some (q.onDisconnected, none)
  | .markSessionStarted => some (q.markSessionStarted, none)
  | .startOfflineDraft => some q.startOfflineDraft
  | .requireExplicitStart => some (q.requireExplicitStart, none)
  | .acknowledge ack => some (q.acknowledge ack)
  | .retry => some (q, q.retry)
  | .restore snapshot acknowledgedSequence remoteStarted =>
    (q.restore snapshot acknowledgedSequence remoteStarted).map (·, none)
  | .abandonSession => some (q.abandonSession, none)

/-- Every message the queue holds. -/
def messages (q : OutboundQueue) : List SnapshotMessage :=
  q.latest.toList ++ q.pending.toList ++ q.inFlight.toList

def Op.given : Op → Option SnapshotMessage
  | .offer m => some m
  | .restore m _ _ => some m
  | _ => none

def rebuilt (q : OutboundQueue) : Op → Option SnapshotMessage
  | .onConnected =>
    if q.sessionStarted = false ∧ q.startAttempted = true then
      q.latest <|> q.pending <|> q.inFlight else none
  | .startOfflineDraft =>
    if q.connected = true ∧ q.sessionStarted = false ∧ q.startAttempted = false then
      q.latest <|> q.pending else none
  | _ => none

theorem mem_messages {q : OutboundQueue} {x : SnapshotMessage} :
    x ∈ q.messages ↔ q.latest = some x ∨ q.pending = some x ∨ q.inFlight = some x := by
  simp [messages]

theorem elvis_eq_some {α : Type*} {a b : Option α} {x : α} (h : (a <|> b) = some x) :
    a = some x ∨ b = some x := by
  simp only [Option.orElse_eq_orElse, Option.orElse_eq_or, Option.or_eq_some_iff] at h
  exact h.imp_right And.right

theorem rebuilt_mem {q : OutboundQueue} {op : Op} {m : SnapshotMessage}
    (h : q.rebuilt op = some m) : m ∈ q.messages := by
  rw [mem_messages]
  cases op with
  | onConnected =>
    simp only [rebuilt] at h
    split at h
    · rcases elvis_eq_some h with h | h
      · exact Or.inl h
      · exact Or.inr (elvis_eq_some h)
    · simp at h
  | startOfflineDraft =>
    simp only [rebuilt] at h
    split at h
    · rcases elvis_eq_some h with h | h
      · exact Or.inl h
      · exact Or.inr (Or.inl h)
    · simp at h
  | _ => simp [rebuilt] at h

def Origin (q : OutboundQueue) (op : Op) (x : SnapshotMessage) : Prop :=
  x ∈ q.messages ∨ op.given = some x ∨ ∃ m, q.rebuilt op = some m ∧ x = { m with type := .start }

theorem offer_messages (q : OutboundQueue) (m x : SnapshotMessage)
    (h : x ∈ (q.offer m).1.messages) : x ∈ q.messages ∨ x = m := by
  rw [mem_messages] at h ⊢
  unfold offer at h
  dsimp only at h
  split at h
  · simp only [Option.some.injEq] at h
    tauto
  · simp only [Option.some.injEq] at h
    tauto

theorem onConnected_messages (q : OutboundQueue) (x : SnapshotMessage)
    (h : x ∈ q.onConnected.1.messages) : Origin q .onConnected x := by
  by_cases hst : q.sessionStarted = true
  · refine Or.inl ?_
    rw [mem_messages] at h ⊢
    unfold onConnected at h
    dsimp only at h
    split at h
    · exact h
    · rename_i m hm
      have hm' := elvis_eq_some hm
      simp only [hst, Bool.true_eq_false, false_and, if_false, reduceCtorEq, false_or,
        Option.some.injEq] at h
      rcases h with h | rfl
      · exact Or.inl h
      · exact hm'.imp_right elvis_eq_some
  · by_cases hat : q.startAttempted = true
    · unfold onConnected at h
      dsimp only at h
      split at h
      · exact Or.inl h
      · rename_i m hm
        simp only [hst, hat, Bool.true_eq_false, and_false, if_false, if_true] at h
        rw [mem_messages] at h
        simp only [reduceCtorEq, false_or, Option.some.injEq] at h
        rcases h with h | h
        · exact Or.inl (mem_messages.mpr (Or.inl h))
        · exact Or.inr (Or.inr ⟨m, by rw [rebuilt, if_pos ⟨by simpa using hst, hat⟩, hm], h.symm⟩)
    · rw [onConnected_idle q (by simpa using hst) (by simpa using hat)] at h
      exact Or.inl h

theorem startOfflineDraft_messages (q : OutboundQueue) (x : SnapshotMessage)
    (h : x ∈ q.startOfflineDraft.1.messages) : Origin q .startOfflineDraft x := by
  unfold startOfflineDraft at h
  split at h
  · exact Or.inl h
  · rename_i hg
    simp only [not_or, Bool.not_eq_false, Bool.not_eq_true] at hg
    split at h
    · exact Or.inl h
    · rename_i m hm
      rw [mem_messages] at h
      simp only [reduceCtorEq, false_or, Option.some.injEq] at h
      rcases h with h | h
      · exact Or.inl (mem_messages.mpr (Or.inl h))
      · exact Or.inr (Or.inr ⟨m, by rw [rebuilt, if_pos hg, hm], h.symm⟩)

theorem acknowledge_messages (q : OutboundQueue) (ack : AckMessage) (x : SnapshotMessage)
    (h : x ∈ (q.acknowledge ack).1.messages) : x ∈ q.messages := by
  unfold acknowledge at h
  dsimp only at h
  split at h
  · exact h
  · split at h
    · exact h
    · split at h
      · simp [mem_messages, reset] at h
      · rw [mem_messages] at h ⊢
        split at h
        · rename_i hp
          rcases h with h | h | h
          · exact Or.inl h
          · exact Or.inr (Or.inl h)
          · dsimp only at h
            split at h
            · simp at h
            · exact Or.inr (Or.inr h)
        · rename_i next hp
          simp only [reduceCtorEq, false_or, Option.some.injEq] at h
          rcases h with h | rfl
          · exact Or.inl h
          · exact Or.inr (Or.inl hp)

/-- One operation adds no message but the given one and a rebuilt START. -/
theorem apply_messages {q q' : OutboundQueue} {op : Op} {a : Option OutboundAction}
    (h : q.apply op = some (q', a)) : ∀ x ∈ q'.messages, Origin q op x := by
  intro x hx
  cases op with
  | offer m =>
    obtain ⟨rfl, -⟩ : (q.offer m).1 = q' ∧ _ := by simpa [apply, Prod.ext_iff] using h
    rcases offer_messages q m x hx with h | rfl
    · exact Or.inl h
    · exact Or.inr (Or.inl rfl)
  | onConnected =>
    obtain ⟨rfl, -⟩ : q.onConnected.1 = q' ∧ _ := by simpa [apply, Prod.ext_iff] using h
    exact onConnected_messages q x hx
  | startOfflineDraft =>
    obtain ⟨rfl, -⟩ : q.startOfflineDraft.1 = q' ∧ _ := by simpa [apply, Prod.ext_iff] using h
    exact startOfflineDraft_messages q x hx
  | acknowledge ack =>
    obtain ⟨rfl, -⟩ : (q.acknowledge ack).1 = q' ∧ _ := by simpa [apply, Prod.ext_iff] using h
    exact Or.inl (acknowledge_messages q ack x hx)
  | onDisconnected =>
    obtain ⟨rfl, -⟩ : q.onDisconnected = q' ∧ _ := by simpa [apply, Prod.ext_iff] using h
    exact Or.inl hx
  | markSessionStarted =>
    obtain ⟨rfl, -⟩ : q.markSessionStarted = q' ∧ _ := by simpa [apply, Prod.ext_iff] using h
    exact Or.inl hx
  | requireExplicitStart =>
    obtain ⟨rfl, -⟩ : q.requireExplicitStart = q' ∧ _ := by simpa [apply, Prod.ext_iff] using h
    rw [mem_messages] at hx
    refine Or.inl (mem_messages.mpr ?_)
    simp only [OutboundQueue.requireExplicitStart, reduceCtorEq, or_false] at hx
    tauto
  | retry =>
    obtain ⟨rfl, -⟩ : q = q' ∧ _ := by simpa [apply, Prod.ext_iff] using h
    exact Or.inl hx
  | restore m n r =>
    simp only [apply, OutboundQueue.restore] at h
    split at h
    · obtain ⟨rfl, -⟩ : _ = q' ∧ _ := by simpa [Prod.ext_iff] using h
      rw [mem_messages] at hx
      simp only [Option.some.injEq] at hx
      rcases hx with rfl | rfl | hx
      · exact Or.inr (Or.inl rfl)
      · exact Or.inr (Or.inl rfl)
      · exact Or.inl (mem_messages.mpr (Or.inr (Or.inr hx)))
    · simp at h
  | abandonSession =>
    obtain ⟨rfl, -⟩ : q.abandonSession = q' ∧ _ := by simpa [apply, Prod.ext_iff] using h
    simp [mem_messages, OutboundQueue.abandonSession, reset] at hx

/-- A rebuilt message is sent as a START and not as a resume. -/
theorem rebuilt_action {q q' : OutboundQueue} {op : Op} {a : Option OutboundAction}
    {m : SnapshotMessage} (h : q.apply op = some (q', a)) (hm : q.rebuilt op = some m) :
    a = some ⟨{ m with type := .start }, false⟩ := by
  cases op with
  | onConnected =>
    simp only [rebuilt] at hm
    split at hm
    · rename_i hg
      simp only [apply, OutboundQueue.onConnected, hm, hg.1, hg.2, Bool.true_eq_false, and_false,
        if_false, if_true, Option.some.injEq, Prod.mk.injEq] at h
      exact h.2.symm
    · simp at hm
  | startOfflineDraft =>
    simp only [rebuilt] at hm
    split at hm
    · rename_i hg
      simp only [apply, OutboundQueue.startOfflineDraft, hm, hg.1, hg.2.1, hg.2.2,
        Bool.true_eq_false, Bool.false_eq_true, or_false, if_false, Option.some.injEq,
        Prod.mk.injEq] at h
      exact h.2.symm
    · simp at hm
  | _ => simp [rebuilt] at hm

theorem offer_action (q : OutboundQueue) (m : SnapshotMessage) (a : OutboundAction)
    (h : (q.offer m).2 = some a) : a.snapshot = m := by
  unfold offer at h
  dsimp only at h
  split at h
  · simp at h
  · obtain rfl : _ = a := by simpa using h
    rfl

theorem onConnected_action (q : OutboundQueue) (a : OutboundAction)
    (h : q.onConnected.2 = some a) :
    q.onConnected.1.inFlight = some a.snapshot ∧ a.resume = q.sessionStarted := by
  unfold onConnected at h ⊢
  dsimp only at h ⊢
  split
  · rename_i hm
    simp only [hm, reduceCtorEq] at h
  · rename_i m hm
    simp only [hm] at h
    split
    · rename_i hg
      simp only [hg, and_self, if_true, reduceCtorEq] at h
    · rename_i hg
      simp only [hg, if_false, Option.some.injEq] at h
      subst h
      exact ⟨rfl, rfl⟩

theorem startOfflineDraft_action (q : OutboundQueue) (a : OutboundAction)
    (h : q.startOfflineDraft.2 = some a) :
    q.startOfflineDraft.1.inFlight = some a.snapshot := by
  unfold startOfflineDraft at h ⊢
  split
  · rename_i hg
    simp [hg] at h
  · rename_i hg
    simp only [hg, if_false] at h
    split
    · rename_i hm
      simp only [hm, reduceCtorEq] at h
    · rename_i m hm
      simp only [hm, Option.some.injEq] at h
      subst h
      rfl

theorem acknowledge_action (q : OutboundQueue) (ack : AckMessage) (a : OutboundAction)
    (h : (q.acknowledge ack).2 = some a) :
    (q.acknowledge ack).1.inFlight = some a.snapshot ∧ a.resume = false := by
  unfold acknowledge at h ⊢
  dsimp only at h ⊢
  split
  · rename_i hg
    simp [hg] at h
  · rename_i hg
    simp only [hg] at h
    split
    · rename_i hl
      simp [hl] at h
    · rename_i hl
      simp only [hl, if_false] at h
      split
      · rename_i hf
        simp [hf] at h
      · rename_i hf
        simp only [hf] at h
        split
        · rename_i hp
          simp [hp] at h
        · rename_i next hp
          simp only [hp] at h
          by_cases hc : q.connected = true
          · obtain rfl : _ = a := by simpa [hc] using h
            exact ⟨rfl, rfl⟩
          · simp [hc] at h

/-- What is sent is held by the queue; only `retry` sends a copy of it, an
UPDATE in place of a confirmed START. -/
theorem apply_action {q q' : OutboundQueue} {op : Op} {a : OutboundAction}
    (h : q.apply op = some (q', some a)) :
    ∃ m ∈ q'.messages, a.snapshot = m ∨ a.snapshot = { m with type := .update } := by
  have hin : ∀ {m : SnapshotMessage}, q'.inFlight = some m → m ∈ q'.messages :=
    fun hm => mem_messages.mpr (Or.inr (Or.inr hm))
  cases op with
  | offer m =>
    obtain ⟨rfl, ha⟩ : (q.offer m).1 = q' ∧ (q.offer m).2 = some a := by
      simpa [apply, Prod.ext_iff] using h
    refine ⟨m, mem_messages.mpr (Or.inl (offer_latest q m)), Or.inl (offer_action q m a ha)⟩
  | onConnected =>
    obtain ⟨rfl, ha⟩ : q.onConnected.1 = q' ∧ q.onConnected.2 = some a := by
      simpa [apply, Prod.ext_iff] using h
    exact ⟨a.snapshot, hin (onConnected_action q a ha).1, Or.inl rfl⟩
  | startOfflineDraft =>
    obtain ⟨rfl, ha⟩ : q.startOfflineDraft.1 = q' ∧ q.startOfflineDraft.2 = some a := by
      simpa [apply, Prod.ext_iff] using h
    exact ⟨a.snapshot, hin (startOfflineDraft_action q a ha), Or.inl rfl⟩
  | acknowledge ack =>
    obtain ⟨rfl, ha⟩ : (q.acknowledge ack).1 = q' ∧ (q.acknowledge ack).2 = some a := by
      simpa [apply, Prod.ext_iff] using h
    exact ⟨a.snapshot, hin (acknowledge_action q ack a ha).1, Or.inl rfl⟩
  | retry =>
    obtain ⟨rfl, ha⟩ : q = q' ∧ q.retry = some a := by simpa [apply, Prod.ext_iff] using h
    unfold OutboundQueue.retry at ha
    split at ha
    · simp at ha
    · obtain ⟨m, hm, rfl⟩ := Option.map_eq_some_iff.mp ha
      refine ⟨m, hin hm, ?_⟩
      split
      · exact Or.inr rfl
      · exact Or.inl rfl
  | restore m n r =>
    simp only [apply, OutboundQueue.restore] at h
    split at h <;> simp at h
  | _ => simp [apply] at h

/-- Only a new connection resumes, and it resumes the latest message it finds. -/
theorem apply_resume {q q' : OutboundQueue} {op : Op} {a : OutboundAction}
    (h : q.apply op = some (q', some a)) (hr : a.resume = true) :
    op = .onConnected ∧ (q.latest <|> q.pending <|> q.inFlight) = some a.snapshot := by
  cases op with
  | onConnected =>
    refine ⟨rfl, ?_⟩
    obtain ⟨-, ha⟩ : q.onConnected.1 = q' ∧ q.onConnected.2 = some a := by
      simpa [apply, Prod.ext_iff] using h
    have hst := (onConnected_action q a ha).2
    rw [hr] at hst
    unfold OutboundQueue.onConnected at ha
    dsimp only at ha
    split at ha
    · simp at ha
    · rename_i m hm
      rw [hm]
      simp only [← hst, Bool.true_eq_false, false_and, if_false, Option.some.injEq] at ha
      rw [← ha]
  | offer m =>
    obtain ⟨-, ha⟩ : (q.offer m).1 = q' ∧ (q.offer m).2 = some a := by
      simpa [apply, Prod.ext_iff] using h
    unfold OutboundQueue.offer at ha
    dsimp only at ha
    split at ha
    · simp at ha
    · obtain rfl : _ = a := by simpa using ha
      simp at hr
  | startOfflineDraft =>
    obtain ⟨-, ha⟩ : q.startOfflineDraft.1 = q' ∧ q.startOfflineDraft.2 = some a := by
      simpa [apply, Prod.ext_iff] using h
    unfold OutboundQueue.startOfflineDraft at ha
    split at ha
    · simp at ha
    · split at ha
      · simp at ha
      · obtain rfl : _ = a := by simpa using ha
        simp at hr
  | acknowledge ack =>
    obtain ⟨-, ha⟩ : (q.acknowledge ack).1 = q' ∧ (q.acknowledge ack).2 = some a := by
      simpa [apply, Prod.ext_iff] using h
    simp [(acknowledge_action q ack a ha).2] at hr
  | retry =>
    obtain ⟨-, ha⟩ : q = q' ∧ q.retry = some a := by simpa [apply, Prod.ext_iff] using h
    unfold OutboundQueue.retry at ha
    split at ha
    · simp at ha
    · obtain ⟨m, -, rfl⟩ := Option.map_eq_some_iff.mp ha
      split at hr <;> simp at hr
  | restore m n r =>
    simp only [apply, OutboundQueue.restore] at h
    split at h <;> simp at h
  | _ => simp [apply] at h

/-- An operation forgets the session, or its latest message is the given one or
the one before. -/
theorem apply_latest {q q' : OutboundQueue} {op : Op} {a : Option OutboundAction}
    (h : q.apply op = some (q', a)) :
    q' = { connected := q.connected } ∨ q'.latest = (op.given <|> q.latest) := by
  cases op with
  | acknowledge ack =>
    obtain ⟨rfl, -⟩ : (q.acknowledge ack).1 = q' ∧ _ := by simpa [apply, Prod.ext_iff] using h
    unfold OutboundQueue.acknowledge
    dsimp only
    split
    · exact Or.inr rfl
    · split
      · exact Or.inr rfl
      · split
        · exact Or.inl rfl
        · split
          · exact Or.inr rfl
          · exact Or.inr rfl
  | offer m =>
    obtain ⟨rfl, -⟩ : (q.offer m).1 = q' ∧ _ := by simpa [apply, Prod.ext_iff] using h
    exact Or.inr (offer_latest q m)
  | onConnected =>
    obtain ⟨rfl, -⟩ : q.onConnected.1 = q' ∧ _ := by simpa [apply, Prod.ext_iff] using h
    exact Or.inr (onConnected_latest q)
  | startOfflineDraft =>
    obtain ⟨rfl, -⟩ : q.startOfflineDraft.1 = q' ∧ _ := by simpa [apply, Prod.ext_iff] using h
    exact Or.inr (startOfflineDraft_latest q)
  | restore m n r =>
    simp only [apply, OutboundQueue.restore] at h
    split at h
    · obtain ⟨rfl, -⟩ : _ = q' ∧ _ := by simpa [Prod.ext_iff] using h
      exact Or.inr rfl
    · simp at h
  | _ =>
    simp only [apply, Option.some.injEq, Prod.mk.injEq] at h
    obtain ⟨rfl, -⟩ := h
    first
      | exact Or.inl rfl
      | exact Or.inr rfl

/-- Only an acknowledgement or a restore changes the recorded acknowledgement of
a session that is kept. -/
theorem apply_lastAck {q q' : OutboundQueue} {op : Op} {a : Option OutboundAction}
    (h : q.apply op = some (q', a)) :
    q' = { connected := q.connected } ∨
    (∃ ack, op = .acknowledge ack ∧ TakesEffect q ack ∧ q'.lastAckSequence = ack.appliedSequence) ∨
    (∃ m n r, op = .restore m n r ∧ 0 ≤ n ∧ n ≤ m.sequence ∧ q'.lastAckSequence = n) ∨
    ((∀ m n r, op ≠ .restore m n r) ∧ q'.lastAckSequence = q.lastAckSequence) := by
  cases op with
  | acknowledge ack =>
    obtain ⟨rfl, -⟩ : (q.acknowledge ack).1 = q' ∧ _ := by simpa [apply, Prod.ext_iff] using h
    by_cases he : TakesEffect q ack
    · exact Or.inr (Or.inl ⟨ack, rfl, he, by rw [acknowledge_effect q ack he]⟩)
    · unfold OutboundQueue.acknowledge
      dsimp only
      split
      · exact Or.inr (Or.inr (Or.inr ⟨by simp, rfl⟩))
      · split
        · exact Or.inr (Or.inr (Or.inr ⟨by simp, rfl⟩))
        · split
          · exact Or.inl rfl
          · rename_i hs hl hf
            exact absurd ⟨by simpa using hs, by omega, by simpa using hf⟩ he
  | restore m n r =>
    simp only [apply, OutboundQueue.restore] at h
    split at h
    · rename_i hn
      obtain ⟨rfl, -⟩ : _ = q' ∧ _ := by simpa [Prod.ext_iff] using h
      exact Or.inr (Or.inr (Or.inl ⟨m, n, r, rfl, hn.1, hn.2, rfl⟩))
    · simp at h
  | offer m =>
    obtain ⟨rfl, -⟩ : (q.offer m).1 = q' ∧ _ := by simpa [apply, Prod.ext_iff] using h
    exact Or.inr (Or.inr (Or.inr ⟨by simp, offer_lastAck q m⟩))
  | onConnected =>
    obtain ⟨rfl, -⟩ : q.onConnected.1 = q' ∧ _ := by simpa [apply, Prod.ext_iff] using h
    refine Or.inr (Or.inr (Or.inr ⟨by simp, ?_⟩))
    unfold OutboundQueue.onConnected
    dsimp only
    split
    · rfl
    · split <;> rfl
  | startOfflineDraft =>
    obtain ⟨rfl, -⟩ : q.startOfflineDraft.1 = q' ∧ _ := by simpa [apply, Prod.ext_iff] using h
    refine Or.inr (Or.inr (Or.inr ⟨by simp, ?_⟩))
    unfold OutboundQueue.startOfflineDraft
    split
    · rfl
    · split <;> rfl
  | _ =>
    simp only [apply, Option.some.injEq, Prod.mk.injEq] at h
    obtain ⟨rfl, -⟩ := h
    first
      | exact Or.inl rfl
      | exact Or.inr (Or.inr (Or.inr ⟨by simp, rfl⟩))

end OutboundQueue

end FlowType
