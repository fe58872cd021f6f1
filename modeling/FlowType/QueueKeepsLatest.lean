import FlowType.Runs
import FlowType.OutboundQueue

/-! Whether the queue can lose the latest snapshot. A run also remembers which
snapshots were offered and which acknowledgements the server sent. -/
namespace FlowType

structure QueueRun where
  q : OutboundQueue := {}
  offered : List SnapshotMessage := []
  acks : List AckMessage := []
  deriving DecidableEq, Repr

namespace QueueRun
open OutboundQueue Machine

def step (s : QueueRun) (op : Op) : Option QueueRun :=
  (s.q.apply op).map fun r =>
    { q := r.1
      offered := match op with
        | .offer m => m :: s.offered
        | _ => s.offered
      acks := match op with
        | .acknowledge ack => ack :: s.acks
        | _ => s.acks }

/-- The producer: sequence numbers of one session do not decrease, a FINISH is
the last snapshot of its session, and only an abandoned queue is restored. -/
def Producer (s : QueueRun) : Op → Prop
  | .offer m => ∀ n ∈ s.offered, n.sessionId = m.sessionId →
      n.sequence ≤ m.sequence ∧ n.type ≠ .finish
  | .restore _ _ _ => s.q.latest = none ∧ s.q.pending = none ∧ s.q.inFlight = none
  | _ => True

instance (s : QueueRun) (op : Op) : Decidable (s.Producer op) := by
  cases op <;> simp only [Producer] <;> infer_instance

/-- `x` would deliver `m`: same session, sequence and text, and a FINISH as a
FINISH. -/
def Carries (x m : SnapshotMessage) : Prop :=
  x.sessionId = m.sessionId ∧ x.sequence = m.sequence ∧ x.fullText = m.fullText ∧
    (m.type = .finish → x.type = .finish)

instance (x m : SnapshotMessage) : Decidable (Carries x m) :=
  inferInstanceAs (Decidable (_ ∧ _ ∧ _ ∧ _))

def AckedBy (acks : List AckMessage) (m : SnapshotMessage) : Prop :=
  ∃ ack ∈ acks, ack.sessionId = m.sessionId ∧ m.sequence ≤ ack.appliedSequence

instance (acks : List AckMessage) (m : SnapshotMessage) : Decidable (AckedBy acks m) :=
  inferInstanceAs (Decidable (∃ ack ∈ acks, _))

/-- The server has acknowledged `m`. The finished acknowledgement of a FINISH
resets the queue, so a FINISH that is still the latest is not acknowledged. -/
def Acknowledged (s : QueueRun) (m : SnapshotMessage) : Prop :=
  m.type ≠ .finish ∧ m.sequence ≤ s.q.lastAckSequence ∧ AckedBy s.acks m

instance (s : QueueRun) (m : SnapshotMessage) : Decidable (s.Acknowledged m) :=
  inferInstanceAs (Decidable (_ ∧ _ ∧ _))

def KeepsLatest (s : QueueRun) : Prop :=
  ∀ m ∈ s.q.latest, s.Acknowledged m ∨
    (∃ x ∈ s.q.inFlight, Carries x m) ∨ (∃ x ∈ s.q.pending, Carries x m)

instance (s : QueueRun) : Decidable s.KeepsLatest :=
  inferInstanceAs (Decidable (∀ m ∈ s.q.latest, _ ∨ (∃ x ∈ s.q.inFlight, _) ∨ ∃ x ∈ s.q.pending, _))

/-- No FINISH is turned into a START, and no acknowledgement drops the latest
snapshot: neither by sending an outdated pending one in its place nor by
covering the FINISH in flight without being final. -/
def StepKeeps (s : QueueRun) : Op → Prop
  | .onConnected => ∀ m ∈ s.q.latest, m.type = .finish →
      s.q.sessionStarted = true ∨ s.q.startAttempted = false
  | .startOfflineDraft => ∀ m ∈ s.q.latest, m.type = .finish →
      s.q.connected = false ∨ s.q.sessionStarted = true ∨ s.q.startAttempted = true
  | .acknowledge ack => TakesEffect s.q ack → ∀ m ∈ s.q.latest,
      match s.q.pending with
      | some p => Carries p m ∨
          (m.type ≠ .finish ∧ m.sequence ≤ ack.appliedSequence ∧ AckedBy (ack :: s.acks) m)
      | none => m.type = .finish → ∀ x ∈ s.q.inFlight, ack.appliedSequence < x.sequence
  | _ => True

theorem carries_refl (m : SnapshotMessage) : Carries m m := ⟨rfl, rfl, rfl, id⟩

theorem ackedBy_cons (ack : AckMessage) (acks : List AckMessage) (m : SnapshotMessage)
    (h : AckedBy acks m) : AckedBy (ack :: acks) m := by
  obtain ⟨a, ha, hm⟩ := h
  exact ⟨a, List.mem_cons_of_mem _ ha, hm⟩

/-- A message that carries the latest snapshot belongs to its session, so an
accepted acknowledgement with nothing pending speaks about that session. -/
theorem accepted_session (q : OutboundQueue) (m x : SnapshotMessage) (id : String)
    (hm : q.latest = some m) (hx : q.inFlight = some x) (hc : Carries x m)
    (hp : q.pending = none) (ha : q.acceptsSession id = true) : id = m.sessionId := by
  simp only [acceptsSession, hm, hx, hp, Option.map_some, Option.map_none, hc.1,
    Bool.or_eq_true, decide_eq_true_eq, Option.some.injEq, reduceCtorEq, or_false] at ha
  rcases ha with h | h
  · exact h.symm
  · exact h.symm

theorem keeps_acknowledge_iff (s : QueueRun) (ack : AckMessage) (hk : s.KeepsLatest)
    (he : TakesEffect s.q ack) :
    KeepsLatest ⟨(s.q.acknowledge ack).1, s.offered, ack :: s.acks⟩ ↔
      s.StepKeeps (.acknowledge ack) := by
  rw [acknowledge_effect s.q ack he]
  have hl := he.2.1
  cases hm : s.q.latest with
  | none => simp [KeepsLatest, StepKeeps, hm]
  | some m =>
    have hk' := hk m hm
    cases hp : s.q.pending with
    | some p =>
      simp [KeepsLatest, StepKeeps, hm, hp, he, Acknowledged, or_comm]
    | none =>
      simp only [hp, Option.mem_def, reduceCtorEq, false_and, exists_false, or_false] at hk'
      by_cases hfin : m.type = .finish
      · -- a FINISH stays exactly when it is in flight and not covered
        have hx : ∃ x, s.q.inFlight = some x ∧ Carries x m := by
          rcases hk' with h | h
          · exact absurd hfin h.1
          · exact h
        obtain ⟨x, hx, hc⟩ := hx
        by_cases hlt : ack.appliedSequence < x.sequence
        · simp [KeepsLatest, StepKeeps, hm, hp, hx, he, Acknowledged, hfin, Option.filter, hlt, hc]
        · simp [KeepsLatest, StepKeeps, hm, hp, hx, he, Acknowledged, hfin, Option.filter, hlt]
      · have hsk : s.StepKeeps (.acknowledge ack) := by
          simp [StepKeeps, hm, hp, hfin]
        refine iff_of_true ?_ hsk
        intro m' hm'
        obtain rfl : m = m' := by simpa [hm] using hm'
        rcases hk' with h | ⟨x, hx, hc⟩
        · exact Or.inl ⟨hfin, h.2.1.trans hl, ackedBy_cons _ _ _ h.2.2⟩
        · by_cases hlt : ack.appliedSequence < x.sequence
          · exact Or.inr (Or.inl ⟨x, by simp [hx, Option.filter, hlt], hc⟩)
          · have hle : m.sequence ≤ ack.appliedSequence := by
              have := hc.2.1
              omega
            have hid := accepted_session s.q m x _ hm hx hc hp he.1
            exact Or.inl ⟨hfin, hle, ack, List.mem_cons_self, hid, hle⟩

theorem keeps_onConnected_iff (s : QueueRun) (hk : s.KeepsLatest) :
    KeepsLatest { s with q := s.q.onConnected.1 } ↔ s.StepKeeps .onConnected := by
  cases hm : s.q.latest with
  | none => simp [KeepsLatest, StepKeeps, hm]
  | some m =>
    by_cases hst : s.q.sessionStarted = true
    · simp [KeepsLatest, StepKeeps, OutboundQueue.onConnected, hm, hst, carries_refl]
    · by_cases hat : s.q.startAttempted = true
      · simp [KeepsLatest, StepKeeps, OutboundQueue.onConnected, hm, hst, hat, Carries, Acknowledged]
        tauto
      · rw [onConnected_idle s.q (by simpa using hst) (by simpa using hat)]
        exact iff_of_true hk (by simp [StepKeeps, hat])

theorem keeps_startOfflineDraft_iff (s : QueueRun) (hk : s.KeepsLatest) :
    KeepsLatest { s with q := s.q.startOfflineDraft.1 } ↔ s.StepKeeps .startOfflineDraft := by
  by_cases hg : s.q.connected = false ∨ s.q.sessionStarted = true ∨ s.q.startAttempted = true
  · have hq : s.q.startOfflineDraft.1 = s.q := by simp [OutboundQueue.startOfflineDraft, hg]
    rw [hq]
    exact iff_of_true hk (fun _ _ _ => hg)
  · cases hm : s.q.latest with
    | none => simp [KeepsLatest, StepKeeps, hm]
    | some m =>
      simp only [not_or, Bool.not_eq_false, Bool.not_eq_true] at hg
      obtain ⟨hc, hst, hat⟩ := hg
      simp [KeepsLatest, StepKeeps, OutboundQueue.startOfflineDraft, hm, hc, hst, hat, Carries,
        Acknowledged]
      tauto

theorem keeps_offer (s : QueueRun) (m : SnapshotMessage) :
    KeepsLatest { s with q := (s.q.offer m).1, offered := m :: s.offered } := by
  intro m' hm'
  obtain rfl : m = m' := by simpa using hm'
  rcases offer_holds s.q m with h | h
  · exact Or.inr (Or.inl ⟨m, h, carries_refl m⟩)
  · exact Or.inr (Or.inr ⟨m, h, carries_refl m⟩)

/-- One operation keeps the latest snapshot exactly when it meets `StepKeeps`. -/
theorem step_keeps_iff (s t : QueueRun) (op : Op) (hk : s.KeepsLatest)
    (hs : s.step op = some t) : t.KeepsLatest ↔ s.StepKeeps op := by
  cases op with
  | offer m =>
    obtain rfl : _ = t := by simpa [step, apply] using hs
    exact iff_of_true (keeps_offer s m) trivial
  | onConnected =>
    obtain rfl : _ = t := by simpa [step, apply] using hs
    exact keeps_onConnected_iff s hk
  | onDisconnected =>
    obtain rfl : _ = t := by simpa [step, apply] using hs
    exact iff_of_true (by simpa [KeepsLatest, Acknowledged, OutboundQueue.onDisconnected] using hk)
      trivial
  | markSessionStarted =>
    obtain rfl : _ = t := by simpa [step, apply] using hs
    exact iff_of_true
      (by simpa [KeepsLatest, Acknowledged, OutboundQueue.markSessionStarted] using hk) trivial
  | startOfflineDraft =>
    obtain rfl : _ = t := by simpa [step, apply] using hs
    exact keeps_startOfflineDraft_iff s hk
  | requireExplicitStart =>
    obtain rfl : _ = t := by simpa [step, apply] using hs
    refine iff_of_true ?_ trivial
    intro m hm
    exact Or.inr (Or.inr ⟨m, hm, carries_refl m⟩)
  | acknowledge ack =>
    obtain rfl : _ = t := by simpa [step, apply] using hs
    by_cases he : TakesEffect s.q ack
    · exact keeps_acknowledge_iff s ack hk he
    · refine iff_of_true ?_ (fun h => absurd h he)
      intro m hm
      rcases acknowledge_no_effect s.q ack he with hq | hq
      · rw [hq] at hm ⊢
        rcases hk m hm with h | h
        · exact Or.inl ⟨h.1, h.2.1, ackedBy_cons _ _ _ h.2.2⟩
        · exact Or.inr h
      · simp [hq] at hm
  | retry =>
    obtain rfl : s = t := by simpa [step, apply] using hs
    exact iff_of_true hk trivial
  | restore m n r =>
    refine iff_of_true ?_ trivial
    simp only [step, apply, OutboundQueue.restore] at hs
    split at hs
    · obtain rfl : _ = t := by simpa using hs
      intro m' hm'
      exact Or.inr (Or.inr ⟨m', hm', carries_refl m'⟩)
    · simp at hs
  | abandonSession =>
    obtain rfl : _ = t := by simpa [step, apply] using hs
    refine iff_of_true ?_ trivial
    intro m hm
    simp [OutboundQueue.abandonSession, OutboundQueue.reset] at hm

/-- Starting from the empty queue, the latest snapshot is acknowledged or still
held in every state of a run exactly when every operation of the run meets
`StepKeeps` in the state it is applied to. -/
theorem queue_keeps_latest_iff (ops : List Op) :
    Always step KeepsLatest {} ops ↔ Along step StepKeeps {} ops := by
  apply always_iff_along (fun _ => True) ops trivial
  · intro m hm
    simp at hm
  · intro s op t _ hk hs
    exact ⟨step_keeps_iff s t op hk hs, fun _ => trivial⟩

def startOne : SnapshotMessage :=
  { type := .start, phoneId := "phone", sessionId := "s", sequence := 1, fullText := "a" }

def finishOne : SnapshotMessage :=
  { type := .finish, phoneId := "phone", sessionId := "s", sequence := 1, fullText := "a" }

/-- START and FINISH are offered, the connection is replaced before the START
is confirmed, and the reconnect sends a START in place of the FINISH. -/
def finishLostOps : List Op :=
  [.onConnected, .offer startOne, .offer finishOne, .onDisconnected, .onConnected]

theorem queue_loses_finish :
    Along step Producer {} finishLostOps ∧ ¬ Always step KeepsLatest {} finishLostOps := by
  decide

end QueueRun

end FlowType
