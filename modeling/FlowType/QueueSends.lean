import Mathlib.Data.Int.ConditionallyCompleteOrder
import Mathlib.Order.ConditionallyCompleteLattice.Basic
import FlowType.QueueOrder
import FlowType.Settling

/-! What the operations of the queue send and keep, as revisions of a session's text: the
queue passes the newest ones on in order. -/
namespace FlowType

def SnapshotMessage.revision (m : SnapshotMessage) : TextRevision :=
  ⟨m.sessionId, m.sequence, m.fullText⟩

def Frame.revision? : Frame → Option TextRevision
  | .snapshot m => some m.revision
  | .resume m => some ⟨m.sessionId, m.sequence, m.fullText⟩
  | .cancel _ => none

theorem sendAction_revision (q : OutboundQueue) (action : OutboundAction) :
    (sendAction q action).revision? = some action.snapshot.revision := by
  unfold sendAction
  split <;> rfl

namespace OutboundQueue

variable {q q' : OutboundQueue} {a : Option OutboundAction}

def Tidy (q : OutboundQueue) : Prop := q.latest = none → q.pending = none ∧ q.inFlight = none

/-- What an operation keeps back was kept back or is the latest one; what it puts in flight
and sends was in flight, kept back or is the latest one. -/
structure Sends (q q' : OutboundQueue) (a : Option OutboundAction) : Prop where
  tidy : q'.Tidy
  pending : ∀ m ∈ q'.pending, q.pending = some m ∨ q'.latest = some m
  flight : ∀ f ∈ q'.inFlight, q.inFlight = some f ∨
    ∃ m, (q'.latest = some m ∨ q.pending = some m) ∧ f.revision = m.revision
  sent : ∀ x ∈ a, ∃ f, q'.inFlight = some f ∧ x.snapshot.revision = f.revision

theorem Tidy.candidate (h : q.Tidy) : (q.latest <|> q.pending <|> q.inFlight) = q.latest := by
  cases hlatest : q.latest with
  | some m => rfl
  | none =>
    obtain ⟨hpending, hflight⟩ := h hlatest
    rw [hpending, hflight]
    rfl

/-- Nothing is sent, and nothing is kept back or in flight that was not. -/
theorem Sends.quiet (htidy : q'.Tidy) (hpending : ∀ m ∈ q'.pending, q.pending = some m)
    (hflight : ∀ f ∈ q'.inFlight, q.inFlight = some f) : Sends q q' none :=
  ⟨htidy, fun m hm => Or.inl (hpending m hm), fun f hf => Or.inl (hflight f hf),
    fun _ hx => nomatch hx⟩

/-- The latest snapshot is sent, perhaps as a START. -/
theorem Sends.latest {m : SnapshotMessage} {x : OutboundAction} (hlatest : q'.latest = some m)
    (hpending : q'.pending = none) (hflight : q'.inFlight = some x.snapshot)
    (hrevision : x.snapshot.revision = m.revision) : Sends q q' (some x) := by
  refine ⟨?_, ?_, ?_, ?_⟩
  · intro hnone
    rw [hlatest] at hnone
    cases hnone
  · rw [hpending]
    intro y hy
    cases hy
  · rw [hflight]
    rintro f ⟨⟩
    exact Or.inr ⟨m, Or.inl hlatest, hrevision⟩
  · rintro y ⟨⟩
    exact ⟨_, hflight, rfl⟩

theorem offer_tidy (q : OutboundQueue) (m : SnapshotMessage) : (q.offer m).1.Tidy := by
  intro hlatest
  rw [offer_latest] at hlatest
  cases hlatest

theorem onConnected_sends (h : q.Tidy) : Sends q q.onConnected.1 q.onConnected.2 := by
  unfold onConnected
  dsimp only
  rw [h.candidate]
  cases hlatest : q.latest with
  | none => exact Sends.quiet (fun _ => h hlatest) (fun _ hm => hm) (fun _ hf => hf)
  | some m =>
    dsimp only
    split
    · exact Sends.quiet (fun hnone => nomatch hnone) (fun _ hm => hm) (fun _ hf => hf)
    · refine Sends.latest (m := m) rfl rfl rfl ?_
      dsimp only
      split <;> rfl

theorem startOfflineDraft_sends (h : q.Tidy) :
    Sends q q.startOfflineDraft.1 q.startOfflineDraft.2 := by
  unfold startOfflineDraft
  split
  · exact Sends.quiet h (fun _ hm => hm) (fun _ hf => hf)
  · have hcandidate : (q.latest <|> q.pending) = q.latest := by
      cases hlatest : q.latest with
      | none => rw [(h hlatest).1]; rfl
      | some m => rfl
    rw [hcandidate]
    cases hlatest : q.latest with
    | none => exact Sends.quiet h (fun _ hm => hm) (fun _ hf => hf)
    | some m => exact Sends.latest (m := m) rfl rfl rfl rfl

theorem acknowledge_sends_latest (h : q.Tidy) (ack : AckMessage) :
    Sends q (q.acknowledge ack).1 (q.acknowledge ack).2 := by
  have hsame : Sends q q none := Sends.quiet h (fun _ hm => hm) (fun _ hf => hf)
  unfold acknowledge
  dsimp only
  split
  · exact hsame
  · split
    · exact hsame
    · split
      · exact Sends.quiet (fun _ => ⟨rfl, rfl⟩) (fun _ hm => nomatch hm) (fun _ hf => nomatch hf)
      · split
        · next hpending =>
          refine Sends.quiet ?_ (fun _ hm => hm) ?_
          · intro hlatest
            refine ⟨hpending, ?_⟩
            have hflight := (h hlatest).2
            dsimp only
            split
            · rfl
            · exact hflight
          · intro f hf
            dsimp only at hf
            split at hf
            · cases hf
            · exact hf
        · next m hpending =>
          refine ⟨?_, (fun _ hx => nomatch hx), ?_, ?_⟩
          · intro hlatest
            have hnone := (h hlatest).1
            rw [hnone] at hpending
            cases hpending
          · rintro f ⟨⟩
            exact Or.inr ⟨m, Or.inr hpending, rfl⟩
          · intro x hx
            dsimp only at hx
            split at hx
            · cases hx
              exact ⟨m, rfl, rfl⟩
            · cases hx

theorem retry_sends (h : q.Tidy) : Sends q q q.retry := by
  refine ⟨h, fun m hm => Or.inl hm, fun f hf => Or.inl hf, ?_⟩
  intro x hx
  unfold retry at hx
  split at hx
  · cases hx
  · obtain ⟨m, hm, hx⟩ := Option.map_eq_some_iff.mp hx
    refine ⟨m, hm, ?_⟩
    split at hx
    · cases hx
      rfl
    · cases hx
      rfl

/-- Every operation but an offer. -/
theorem apply_sends {op : Op} (h : q.Tidy) (hop : ∀ m, op ≠ .offer m)
    (hq : q.apply op = some (q', a)) : Sends q q' a := by
  cases op with
  | offer m => exact absurd rfl (hop m)
  | onConnected =>
    have hr : q.onConnected = (q', a) := Option.some.inj hq
    have hsends := onConnected_sends h
    rw [hr] at hsends
    exact hsends
  | startOfflineDraft =>
    have hr : q.startOfflineDraft = (q', a) := Option.some.inj hq
    have hsends := startOfflineDraft_sends h
    rw [hr] at hsends
    exact hsends
  | acknowledge ack =>
    have hr : q.acknowledge ack = (q', a) := Option.some.inj hq
    have hsends := acknowledge_sends_latest h ack
    rw [hr] at hsends
    exact hsends
  | retry =>
    cases hq
    exact retry_sends h
  | onDisconnected =>
    cases hq
    exact Sends.quiet h (fun _ hm => hm) (fun _ hf => hf)
  | markSessionStarted =>
    cases hq
    exact Sends.quiet h (fun _ hm => hm) (fun _ hf => hf)
  | requireExplicitStart =>
    cases hq
    exact ⟨fun hlatest => ⟨hlatest, rfl⟩, fun m hm => Or.inr hm, (fun _ hf => nomatch hf),
      (fun _ hx => nomatch hx)⟩
  | abandonSession =>
    cases hq
    exact Sends.quiet (fun _ => ⟨rfl, rfl⟩) (fun _ hm => nomatch hm) (fun _ hf => nomatch hf)
  | restore m n remoteStarted =>
    obtain ⟨restored, hrestore, heq⟩ := Option.map_eq_some_iff.mp hq
    cases heq
    unfold restore at hrestore
    split at hrestore
    · cases hrestore
      refine ⟨(fun hlatest => nomatch hlatest), fun x hx => Or.inr hx, fun f hf => Or.inl hf,
        (fun _ hx => nomatch hx)⟩
    · cases hrestore

end OutboundQueue

namespace SyncRun
open Revision

variable {issued reached line : List TextRevision} {q q' : OutboundQueue}

/-- The queue passes the issued texts on in order. -/
structure Travels (issued reached line : List TextRevision) (q : OutboundQueue) : Prop where
  flow : Flow issued reached line (q.inFlight.map (·.revision))
  tidy : q.Tidy
  latest : ∀ m ∈ q.latest, Newest issued m.revision
  pending : ∀ m ∈ q.pending, Newest issued m.revision

def sentLine (line : List TextRevision) (a : Option OutboundAction) : List TextRevision :=
  line ++ a.toList.map (·.snapshot.revision)

/-- The snapshot in flight may change for a newest one, and may be sent. -/
theorem flow_sends {a : Option OutboundAction}
    (h : Flow issued reached line (q.inFlight.map (·.revision)))
    (hflight : ∀ f ∈ q'.inFlight, q.inFlight = some f ∨ Newest issued f.revision)
    (hsent : ∀ x ∈ a, ∃ f, q'.inFlight = some f ∧ x.snapshot.revision = f.revision) :
    Flow issued reached (sentLine line a) (q'.inFlight.map (·.revision)) := by
  have hheld : Flow issued reached line (q'.inFlight.map (·.revision)) := by
    cases hq : q'.inFlight with
    | none => exact h.release
    | some f =>
      rcases hflight f hq with hsame | hnewest
      · rw [hsame] at h
        exact h
      · exact h.hold hnewest
  unfold sentLine
  cases a with
  | none =>
    rw [Option.toList_none, List.map_nil, List.append_nil]
    exact hheld
  | some x =>
    obtain ⟨f, hf, hrevision⟩ := hsent x rfl
    rw [hf] at hheld ⊢
    change Flow issued reached (line ++ [x.snapshot.revision]) (some f.revision)
    rw [hrevision]
    exact hheld.send

theorem Travels.apply {op : OutboundQueue.Op} {a : Option OutboundAction}
    (h : Travels issued reached line q) (hop : ∀ m, op ≠ .offer m)
    (hgiven : ∀ m ∈ op.given, Newest issued m.revision) (hq : q.apply op = some (q', a)) :
    Travels issued reached (sentLine line a) q' := by
  obtain ⟨htidy, hpending, hflight, hsent⟩ := OutboundQueue.apply_sends h.tidy hop hq
  have hlatest : ∀ m ∈ q'.latest, Newest issued m.revision := by
    intro m hm
    rcases OutboundQueue.apply_latest hq with rfl | hlatest
    · cases hm
    · rw [hlatest] at hm
      rcases OutboundQueue.elvis_eq_some hm with hm | hm
      · exact hgiven m hm
      · exact h.latest m hm
  refine ⟨flow_sends h.flow ?_ hsent, htidy, hlatest, ?_⟩
  · intro f hf
    rcases hflight f hf with hsame | ⟨m, hm, hrevision⟩
    · exact Or.inl hsame
    · right
      rw [hrevision]
      exact hm.elim (hlatest m) (h.pending m)
  · intro m hm
    exact (hpending m hm).elim (h.pending m) (hlatest m)

/-- An offered snapshot has to be newest; so has what stays kept back behind it. -/
theorem offer_travels {m : SnapshotMessage}
    (h : Flow issued reached line (q.inFlight.map (·.revision))) (hm : Newest issued m.revision)
    (hkept : q.connected = true → q.inFlight = none →
      ∀ p ∈ q.pending, Newest issued p.revision) :
    Travels issued reached (sentLine line (q.offer m).2) (q.offer m).1 := by
  have htidy := OutboundQueue.offer_tidy q m
  have hlatest : ∀ x ∈ (q.offer m).1.latest, Newest issued x.revision := by
    rw [OutboundQueue.offer_latest]
    rintro x ⟨⟩
    exact hm
  have hflight : ∀ f ∈ (q.offer m).1.inFlight, q.inFlight = some f ∨ Newest issued f.revision := by
    unfold OutboundQueue.offer
    dsimp only
    split
    · exact fun f hf => Or.inl hf
    · rintro f ⟨⟩
      exact Or.inr hm
  have hsent : ∀ x ∈ (q.offer m).2, ∃ f, (q.offer m).1.inFlight = some f ∧
      x.snapshot.revision = f.revision := by
    unfold OutboundQueue.offer
    dsimp only
    split
    · intro x hx
      cases hx
    · rintro x ⟨⟩
      exact ⟨m, rfl, rfl⟩
  refine ⟨flow_sends h hflight hsent, htidy, hlatest, ?_⟩
  unfold OutboundQueue.offer
  dsimp only
  split
  · rintro p ⟨⟩
    exact hm
  · next hfree =>
    push Not at hfree
    exact hkept (by simpa using hfree.1) hfree.2

end SyncRun

end FlowType
