import FlowType.Runs
import FlowType.OutboundQueue

/-! In which order the queue sends on a connection: what the first message of a
session is, and how many of its sequences are unacknowledged at a time. A run
remembers what was emitted on the current connection, which sessions the server
has confirmed and which sessions the producer has brought in. -/
namespace FlowType

/-- `emitted` is the newest action first. `settled` keeps the last acknowledged
sequence of the sessions that the queue no longer holds. -/
structure ConnectionRun where
  queue : OutboundQueue := {}
  emitted : List OutboundAction := []
  confirmed : List String := []
  known : List String := []
  settled : String → Int := fun _ => 0

namespace ConnectionRun
open OutboundQueue Machine

/-- The producer offers an UPDATE or a FINISH of a session it has offered or
restored, no UPDATE while an explicit start is required, and the sync client
marks only a session that the queue holds. -/
def Permitted (s : ConnectionRun) : Op → Prop
  | .offer m => (m.type ≠ .start → m.sessionId ∈ s.known) ∧
      (m.type = .update → s.queue.requiresExplicitStart = false)
  | .markSessionStarted => s.queue.messages ≠ []
  | _ => True

instance (s : ConnectionRun) (op : Op) : Decidable (s.Permitted op) := by
  apply Op.casesOn (motive := fun op => Decidable (s.Permitted op)) op <;> intros <;>
    simp only [Permitted] <;> infer_instance

/-- The acknowledgement passes the checks of `acknowledge` and is final. -/
def Completes (q : OutboundQueue) (ack : AckMessage) : Prop :=
  q.acceptsSession ack.sessionId = true ∧ q.lastAckSequence ≤ ack.appliedSequence ∧
    ack.finished = true

instance (q : OutboundQueue) (ack : AckMessage) : Decidable (Completes q ack) :=
  inferInstanceAs (Decidable (_ ∧ _ ∧ _))

def settle (s : ConnectionRun) (sequence : Int) (sessionId : String) : Int :=
  if s.queue.acceptsSession sessionId then sequence else s.settled sessionId

def step (s : ConnectionRun) (op : Op) : Option ConnectionRun :=
  if s.Permitted op then
    (s.queue.apply op).map fun r =>
      { queue := r.1
        emitted := match op with
          | .onConnected => r.2.toList
          | .onDisconnected => []
          | _ => r.2.toList ++ s.emitted
        confirmed := match op with
          | .markSessionStarted => s.queue.messages.map (·.sessionId) ++ s.confirmed
          | .acknowledge ack =>
            if s.queue.acceptsSession ack.sessionId then ack.sessionId :: s.confirmed
            else s.confirmed
          | .restore m _ remoteStarted =>
            if remoteStarted then m.sessionId :: s.confirmed else s.confirmed
          | _ => s.confirmed
        known := (op.given.map (·.sessionId)).toList ++ s.known
        settled := match op with
          | .acknowledge ack =>
            if Completes s.queue ack then s.settle ack.appliedSequence else s.settled
          | .abandonSession => s.settle s.queue.lastAckSequence
          | _ => s.settled }
  else none

def lastAckOf (s : ConnectionRun) (sessionId : String) : Int :=
  s.settle s.queue.lastAckSequence sessionId

def StartsFirst (confirmed : List String) : List OutboundAction → Prop
  | [] => True
  | a :: earlier =>
    ((∃ b ∈ earlier, b.snapshot.sessionId = a.snapshot.sessionId) ∨
      (a.resume = false ∧ a.snapshot.type = .start) ∨
      (a.resume = true ∧ a.snapshot.sessionId ∈ confirmed)) ∧ StartsFirst confirmed earlier

instance StartsFirst.decidable (confirmed : List String) :
    ∀ l, Decidable (StartsFirst confirmed l)
  | [] => inferInstanceAs (Decidable True)
  | _ :: earlier =>
    have := StartsFirst.decidable confirmed earlier
    inferInstanceAs (Decidable ((_ ∨ _ ∨ _) ∧ StartsFirst confirmed earlier))

def OneUnacknowledged (s : ConnectionRun) : Prop :=
  ∀ a ∈ s.emitted, ∀ b ∈ s.emitted, a.snapshot.sessionId = b.snapshot.sessionId →
    s.lastAckOf a.snapshot.sessionId < a.snapshot.sequence →
    s.lastAckOf b.snapshot.sessionId < b.snapshot.sequence →
    a.snapshot.sequence = b.snapshot.sequence

instance (s : ConnectionRun) : Decidable s.OneUnacknowledged :=
  inferInstanceAs (Decidable (∀ a ∈ s.emitted, ∀ b ∈ s.emitted, _))

def InOrder (s : ConnectionRun) : Prop := StartsFirst s.confirmed s.emitted ∧ s.OneUnacknowledged

instance (s : ConnectionRun) : Decidable s.InOrder :=
  inferInstanceAs (Decidable (StartsFirst _ _ ∧ _))

def Underway (q : OutboundQueue) : Prop := q.sessionStarted = true ∨ q.startAttempted = true

instance (q : OutboundQueue) : Decidable (Underway q) := inferInstanceAs (Decidable (_ ∨ _))

/-- A START opens a new session on an empty queue, other snapshots belong to the
session that is held; nothing but a START is sent at once, and no confirmation
arrives, while an explicit start is required; an acknowledgement that sends the
pending snapshot covers the one in flight; a draft is started again only when
the session's emitted snapshots are acknowledged; and only an idle queue without
a connection is restored. -/
def Orderly (s : ConnectionRun) : Op → Prop
  | .offer m =>
      (m.type = .start → s.queue.messages = [] ∧ m.sessionId ∉ s.known) ∧
      (m.type ≠ .start → (∀ x ∈ s.queue.messages, x.sessionId = m.sessionId) ∧
        (s.queue.connected = true → s.queue.inFlight = none → Underway s.queue))
  | .startOfflineDraft => s.queue.connected = true → ¬ Underway s.queue →
      ∀ m ∈ s.queue.latest, ∀ a ∈ s.emitted, a.snapshot.sessionId = m.sessionId →
        a.snapshot.sequence ≤ s.queue.lastAckSequence ∨ a.snapshot.sequence = m.sequence
  | .markSessionStarted => s.queue.connected = true → Underway s.queue
  | .acknowledge ack => TakesEffect s.queue ack → s.queue.connected = true →
      Underway s.queue ∧ ∀ next ∈ s.queue.pending, ∀ x ∈ s.queue.inFlight,
        x.sequence ≤ ack.appliedSequence ∨ x.sequence = next.sequence
  | .restore _ _ _ => s.queue.connected = false ∧ s.queue.inFlight = none
  | _ => True

instance (s : ConnectionRun) (op : Op) : Decidable (s.Orderly op) := by
  apply Op.casesOn (motive := fun op => Decidable (s.Orderly op)) op <;> intros <;>
    simp only [Orderly] <;> infer_instance

theorem acceptsSession_iff {q : OutboundQueue} {sessionId : String} :
    q.acceptsSession sessionId = true ↔ ∃ x ∈ q.messages, x.sessionId = sessionId := by
  simp only [mem_messages, acceptsSession, Bool.or_eq_true, decide_eq_true_eq,
    Option.map_eq_some_iff]
  constructor
  · rintro ((⟨x, hx, hid⟩ | ⟨x, hx, hid⟩) | ⟨x, hx, hid⟩)
    · exact ⟨x, Or.inl hx, hid⟩
    · exact ⟨x, Or.inr (Or.inl hx), hid⟩
    · exact ⟨x, Or.inr (Or.inr hx), hid⟩
  · rintro ⟨x, hx | hx | hx, hid⟩
    · exact Or.inl (Or.inl ⟨x, hx, hid⟩)
    · exact Or.inl (Or.inr ⟨x, hx, hid⟩)
    · exact Or.inr ⟨x, hx, hid⟩

theorem lastAckOf_held {s : ConnectionRun} {x : SnapshotMessage} (h : x ∈ s.queue.messages) :
    s.lastAckOf x.sessionId = s.queue.lastAckSequence := by
  have hacc : s.queue.acceptsSession x.sessionId = true := acceptsSession_iff.mpr ⟨x, h, rfl⟩
  simp [lastAckOf, settle, hacc]

/-- What links the queue to what was really emitted. -/
structure OrderInv (s : ConnectionRun) : Prop where
  oneSession : ∀ x ∈ s.queue.messages, ∀ y ∈ s.queue.messages, x.sessionId = y.sessionId
  empty : s.queue.latest = none → s.queue.messages = [] ∧ ¬ Underway s.queue
  idle : ¬ Underway s.queue → s.queue.inFlight = none
  confirmed : s.queue.sessionStarted = true → ∀ x ∈ s.queue.messages, x.sessionId ∈ s.confirmed
  reached : s.queue.connected = true → Underway s.queue → ∀ x ∈ s.queue.messages,
    ∃ a ∈ s.emitted, a.snapshot.sessionId = x.sessionId
  covered : s.queue.connected = true → Underway s.queue → s.queue.inFlight = none →
    ∀ x ∈ s.queue.messages, ∀ a ∈ s.emitted, a.snapshot.sessionId = x.sessionId →
      a.snapshot.sequence ≤ s.queue.lastAckSequence
  inFlight : ∀ x ∈ s.queue.inFlight, ∀ a ∈ s.emitted, a.snapshot.sessionId = x.sessionId →
    a.snapshot.sequence ≤ s.queue.lastAckSequence ∨ a.snapshot.sequence = x.sequence
  disconnected : s.queue.connected = false → s.emitted = []
  knownEmitted : ∀ a ∈ s.emitted, a.snapshot.sessionId ∈ s.known
  knownHeld : ∀ x ∈ s.queue.messages, x.sessionId ∈ s.known
  order : s.InOrder

theorem StartsFirst.mono {confirmed confirmed' : List String} (hsub : confirmed ⊆ confirmed') :
    ∀ {l : List OutboundAction}, StartsFirst confirmed l → StartsFirst confirmed' l
  | [], _ => trivial
  | _ :: _, ⟨hhead, htail⟩ =>
    ⟨hhead.imp_right (Or.imp_right fun h => ⟨h.1, hsub h.2⟩), htail.mono hsub⟩

/-- Nothing new is emitted and no acknowledgement is taken back. -/
theorem OneUnacknowledged.of_le {s t : ConnectionRun} (h : s.OneUnacknowledged)
    (hsub : t.emitted ⊆ s.emitted)
    (hle : ∀ a ∈ t.emitted, s.lastAckOf a.snapshot.sessionId ≤ t.lastAckOf a.snapshot.sessionId) :
    t.OneUnacknowledged := by
  intro a ha b hb hid hua hub
  have hla := hle a ha
  have hlb := hle b hb
  apply h a (hsub ha) b (hsub hb) hid
  · omega
  · omega

/-- One more action: what is still unacknowledged has its sequence. -/
theorem OneUnacknowledged.cons {s t : ConnectionRun} {a : OutboundAction}
    (h : s.OneUnacknowledged) (ht : t.emitted = a :: s.emitted)
    (hle : ∀ b ∈ s.emitted, s.lastAckOf b.snapshot.sessionId ≤ t.lastAckOf b.snapshot.sessionId)
    (hnew : ∀ b ∈ s.emitted, b.snapshot.sessionId = a.snapshot.sessionId →
      b.snapshot.sequence ≤ t.lastAckOf a.snapshot.sessionId ∨
        b.snapshot.sequence = a.snapshot.sequence) : t.OneUnacknowledged := by
  have hold : ∀ b ∈ s.emitted, b.snapshot.sessionId = a.snapshot.sessionId →
      t.lastAckOf b.snapshot.sessionId < b.snapshot.sequence →
      b.snapshot.sequence = a.snapshot.sequence := by
    intro b hb hid hub
    rw [hid] at hub
    rcases hnew b hb hid with h | h
    · omega
    · exact h
  intro b hb c hc hid hub huc
  rw [ht] at hb hc
  rcases List.mem_cons.mp hb with hba | hb
  · rcases List.mem_cons.mp hc with hca | hc
    · rw [hba, hca]
    · rw [hba] at hid ⊢
      exact (hold c hc hid.symm huc).symm
  · rcases List.mem_cons.mp hc with hca | hc
    · rw [hca] at hid ⊢
      exact hold b hb hid hub
    · have hlb := hle b hb
      have hlc := hle c hc
      exact h b hb c hc hid (by omega) (by omega)

theorem lastAckOf_not_held {s : ConnectionRun} {sessionId : String}
    (h : ∀ x ∈ s.queue.messages, x.sessionId ≠ sessionId) :
    s.lastAckOf sessionId = s.settled sessionId := by
  have hacc : ¬ s.queue.acceptsSession sessionId = true := by
    rw [acceptsSession_iff]
    rintro ⟨x, hx, hid⟩
    exact h x hx hid
  simp [lastAckOf, settle, hacc]

/-- A step that holds the same sessions and settles nothing keeps what is
acknowledged of every session. -/
theorem lastAckOf_congr {s t : ConnectionRun} {sessionId : String}
    (hheld : (∃ x ∈ t.queue.messages, x.sessionId = sessionId) ↔
      ∃ x ∈ s.queue.messages, x.sessionId = sessionId)
    (hset : t.settled = s.settled) (hack : t.queue.lastAckSequence = s.queue.lastAckSequence) :
    t.lastAckOf sessionId = s.lastAckOf sessionId := by
  have hacc : t.queue.acceptsSession sessionId = s.queue.acceptsSession sessionId := by
    rw [Bool.eq_iff_iff, acceptsSession_iff, acceptsSession_iff]
    exact hheld
  simp only [lastAckOf, settle, hacc, hset, hack]

theorem messages_eq_nil_iff {q : OutboundQueue} :
    q.messages = [] ↔ q.latest = none ∧ q.pending = none ∧ q.inFlight = none := by
  simp only [messages, List.append_eq_nil_iff, Option.toList_eq_nil_iff, and_assoc]

theorem latest_of_messages {s : ConnectionRun} (hI : s.OrderInv) (h : s.queue.messages ≠ []) :
    ∃ m, s.queue.latest = some m := by
  apply Option.ne_none_iff_exists'.mp
  intro hnone
  exact h (hI.empty hnone).1

theorem latest_of_underway {s : ConnectionRun} (hI : s.OrderInv) (h : Underway s.queue) :
    ∃ m, s.queue.latest = some m := by
  apply Option.ne_none_iff_exists'.mp
  intro hnone
  exact (hI.empty hnone).2 h

/-- What a step that sends `a` has to show: `a` and what is in flight agree, the
queue holds the session of `a` only, and what was sent of it before is
acknowledged or has its sequence. -/
theorem sent_orderInv {s t : ConnectionRun} {a : OutboundAction} {x : SnapshotMessage}
    (horder : s.InOrder) (hemitted : ∀ b ∈ s.emitted, b.snapshot.sessionId ∈ t.known)
    (hc : t.queue.connected = true) (hlatest : t.queue.latest ≠ none) (hu : Underway t.queue)
    (hin : t.queue.inFlight = some x) (hseq : a.snapshot.sequence = x.sequence)
    (hheld : ∀ y ∈ t.queue.messages, y.sessionId = a.snapshot.sessionId)
    (he : t.emitted = a :: s.emitted) (hconf : s.confirmed ⊆ t.confirmed)
    (hstarted : t.queue.sessionStarted = true → a.snapshot.sessionId ∈ t.confirmed)
    (hknown : a.snapshot.sessionId ∈ t.known)
    (hfirst : (∃ b ∈ s.emitted, b.snapshot.sessionId = a.snapshot.sessionId) ∨
      (a.resume = false ∧ a.snapshot.type = .start) ∨
      (a.resume = true ∧ a.snapshot.sessionId ∈ t.confirmed))
    (hlast : ∀ b ∈ s.emitted, s.lastAckOf b.snapshot.sessionId ≤
      t.lastAckOf b.snapshot.sessionId)
    (hopen : ∀ b ∈ s.emitted, b.snapshot.sessionId = a.snapshot.sessionId →
      b.snapshot.sequence ≤ t.queue.lastAckSequence ∨
        b.snapshot.sequence = a.snapshot.sequence) : t.OrderInv := by
  have hmem : ∀ b ∈ t.emitted, b = a ∨ b ∈ s.emitted := by
    intro b hb
    rw [he] at hb
    exact List.mem_cons.mp hb
  have hxm : x ∈ t.queue.messages := mem_messages.mpr (Or.inr (Or.inr hin))
  have hack : t.lastAckOf a.snapshot.sessionId = t.queue.lastAckSequence := by
    rw [← hheld x hxm]
    exact lastAckOf_held hxm
  refine ⟨fun y hy z hz => (hheld y hy).trans (hheld z hz).symm, fun h => absurd h hlatest,
    fun h => absurd hu h, ?_, ?_, by simp [hin], ?_, by simp [hc], ?_, ?_, ?_, ?_⟩
  · intro hst y hy
    rw [hheld y hy]
    exact hstarted hst
  · intro _ _ y hy
    exact ⟨a, by rw [he]; exact List.mem_cons_self, (hheld y hy).symm⟩
  · intro y hy b hb hid
    obtain rfl : x = y := by simpa [hin] using hy
    rcases hmem b hb with rfl | hb
    · exact Or.inr hseq
    · rw [← hseq]
      exact hopen b hb (hid.trans (hheld x hxm))
  · intro b hb
    rcases hmem b hb with rfl | hb
    · exact hknown
    · exact hemitted b hb
  · intro y hy
    rw [hheld y hy]
    exact hknown
  · rw [he]
    exact ⟨hfirst, horder.1.mono hconf⟩
  · apply horder.2.cons he hlast
    rw [hack]
    exact hopen

/-- After a permitted offer the queue holds the session of the offered message
only. -/
theorem offer_held {s : ConnectionRun} {m : SnapshotMessage} (hok : s.Orderly (.offer m))
    {x : SnapshotMessage} (hx : x ∈ (s.queue.offer m).1.messages) :
    x.sessionId = m.sessionId := by
  rcases offer_messages s.queue m x hx with hx | rfl
  · by_cases htype : m.type = .start
    · rw [(hok.1 htype).1] at hx
      simp at hx
    · exact (hok.2 htype).1 x hx
  · rfl

/-- What was emitted of the offered session belongs to the session that the
queue holds: a START is new, and another snapshot is not sent to an empty queue
on a connection. -/
theorem offer_emitted {s : ConnectionRun} {m : SnapshotMessage} (hI : s.OrderInv)
    (hok : s.Orderly (.offer m)) {a : OutboundAction} (ha : a ∈ s.emitted)
    (hid : a.snapshot.sessionId = m.sessionId) : ∃ x ∈ s.queue.messages, x.sessionId = m.sessionId := by
  by_cases htype : m.type = .start
  · exact absurd (hid ▸ hI.knownEmitted a ha) (hok.1 htype).2
  · obtain ⟨hsame, hunder⟩ := hok.2 htype
    by_cases hnil : s.queue.messages = []
    · have hc : s.queue.connected = true := by
        by_contra hc
        have := hI.disconnected (by simpa using hc)
        simp [this] at ha
      obtain ⟨hlatest, -, hflight⟩ := messages_eq_nil_iff.mp hnil
      exact absurd (hunder hc hflight) (hI.empty hlatest).2
    · obtain ⟨x, hx⟩ := List.exists_mem_of_ne_nil _ hnil
      exact ⟨x, hx, hsame x hx⟩

theorem offer_lastAckOf {s t : ConnectionRun} {m : SnapshotMessage} (hI : s.OrderInv)
    (hok : s.Orderly (.offer m)) (hq : t.queue = (s.queue.offer m).1)
    (hset : t.settled = s.settled) {a : OutboundAction} (ha : a ∈ s.emitted) :
    t.lastAckOf a.snapshot.sessionId = s.lastAckOf a.snapshot.sessionId := by
  apply lastAckOf_congr _ hset (by rw [hq, offer_lastAck])
  rw [hq]
  constructor
  · rintro ⟨x, hx, hid⟩
    have hm : x.sessionId = m.sessionId := offer_held hok hx
    obtain ⟨y, hy, hyid⟩ := offer_emitted hI hok ha (hid.symm.trans hm)
    exact ⟨y, hy, hyid.trans (hm.symm.trans hid)⟩
  · rintro ⟨x, hx, hid⟩
    refine ⟨m, mem_messages.mpr (Or.inl (offer_latest _ _)), ?_⟩
    by_cases htype : m.type = .start
    · rw [(hok.1 htype).1] at hx
      simp at hx
    · rw [← (hok.2 htype).1 x hx, hid]

theorem offer_orderInv {s t : ConnectionRun} {m : SnapshotMessage} (hI : s.OrderInv)
    (hok : s.Orderly (.offer m)) (hq : t.queue = (s.queue.offer m).1)
    (he : t.emitted = (s.queue.offer m).2.toList ++ s.emitted)
    (hconf : t.confirmed = s.confirmed) (hknown : t.known = m.sessionId :: s.known)
    (hset : t.settled = s.settled) : t.OrderInv := by
  have hheld : ∀ x ∈ t.queue.messages, x.sessionId = m.sessionId := by
    rw [hq]
    exact fun x hx => offer_held hok hx
  have hlast : ∀ a ∈ s.emitted, s.lastAckOf a.snapshot.sessionId ≤
      t.lastAckOf a.snapshot.sessionId := fun a ha => le_of_eq (offer_lastAckOf hI hok hq hset ha).symm
  have hlatest : t.queue.latest = some m := by rw [hq, offer_latest]
  have hack : t.queue.lastAckSequence = s.queue.lastAckSequence := by rw [hq, offer_lastAck]
  have hone : ∀ x ∈ t.queue.messages, ∀ y ∈ t.queue.messages, x.sessionId = y.sessionId :=
    fun x hx y hy => (hheld x hx).trans (hheld y hy).symm
  have hknownHeld : ∀ x ∈ t.queue.messages, x.sessionId ∈ t.known := by
    intro x hx
    rw [hknown, hheld x hx]
    exact List.mem_cons_self
  have hstarted : s.queue.sessionStarted = true → m.sessionId ∈ s.confirmed := by
    intro hst
    obtain ⟨x, hx⟩ := latest_of_underway hI (Or.inl hst)
    have hxm : x ∈ s.queue.messages := mem_messages.mpr (Or.inl hx)
    by_cases htype : m.type = .start
    · rw [(hok.1 htype).1] at hxm
      simp at hxm
    · rw [← (hok.2 htype).1 x hxm]
      exact hI.confirmed hst x hxm
  by_cases hwait : s.queue.connected = false ∨ s.queue.inFlight ≠ none
  · -- the snapshot is kept back: only `latest` and `pending` change
    have hoff : s.queue.offer m =
        ({ s.queue with latest := some m, pending := some m }, none) := by
      simp only [OutboundQueue.offer, hwait, if_true]
    rw [hoff] at hq he
    have he' : t.emitted = s.emitted := he
    have hsame : Underway t.queue ↔ Underway s.queue := by rw [hq]; rfl
    refine ⟨hone, by simp [hlatest], ?_, ?_, ?_, ?_, ?_, ?_, ?_, hknownHeld, ?_, ?_⟩
    · rw [hsame, hq]
      exact hI.idle
    · intro hst x hx
      rw [hconf, hheld x hx]
      exact hstarted (by rw [hq] at hst; exact hst)
    · intro hc hu x hx
      have hu' := hsame.mp hu
      obtain ⟨y, hy⟩ := latest_of_underway hI hu'
      have hym : y ∈ s.queue.messages := mem_messages.mpr (Or.inl hy)
      obtain ⟨a, ha, hid⟩ := hI.reached (by rw [hq] at hc; exact hc) hu' y hym
      refine ⟨a, by rw [he']; exact ha, ?_⟩
      by_cases htype : m.type = .start
      · rw [(hok.1 htype).1] at hym
        simp at hym
      · rw [hid, hheld x hx, (hok.2 htype).1 y hym]
    · intro hc _ hnone
      rw [hq] at hc hnone
      rcases hwait with hwait | hwait
      · simp [hwait] at hc
      · exact absurd hnone hwait
    · rw [hq, he']
      exact hI.inFlight
    · rw [hq, he']
      exact hI.disconnected
    · intro a ha
      rw [hknown]
      exact List.mem_cons_of_mem _ (hI.knownEmitted a (he' ▸ ha))
    · rw [hconf, he']
      exact hI.order.1
    · apply hI.order.2.of_le (by rw [he']; exact List.Subset.refl _)
      rw [he']
      exact hlast
  · push Not at hwait
    have hc : s.queue.connected = true := by simpa using hwait.1
    have hflight := hwait.2
    have hoff : s.queue.offer m = ({ s.queue with
        latest := some m
        inFlight := some m
        startAttempted := s.queue.startAttempted || decide (m.type = .start) },
        some ⟨m, false⟩) := by
      simp only [OutboundQueue.offer, hc, hflight, Bool.true_eq_false, ne_eq, not_true_eq_false,
        or_self, if_false]
    rw [hoff] at hq he
    have he' : t.emitted = ⟨m, false⟩ :: s.emitted := he
    -- everything of the session that was sent before is acknowledged
    have hcov : ∀ a ∈ s.emitted, a.snapshot.sessionId = m.sessionId →
        a.snapshot.sequence ≤ s.queue.lastAckSequence := by
      intro a ha hid
      obtain ⟨x, hx, hxid⟩ := offer_emitted hI hok ha hid
      by_cases htype : m.type = .start
      · rw [(hok.1 htype).1] at hx
        simp at hx
      · exact hI.covered hc ((hok.2 htype).2 hc hflight) hflight x hx a ha (hid.trans hxid.symm)
    have hfirst : m.type = .start ∨ ∃ b ∈ s.emitted, b.snapshot.sessionId = m.sessionId := by
      by_cases htype : m.type = .start
      · exact Or.inl htype
      · obtain ⟨hsame, hunder⟩ := hok.2 htype
        have hu := hunder hc hflight
        obtain ⟨x, hx⟩ := latest_of_underway hI hu
        have hxm : x ∈ s.queue.messages := mem_messages.mpr (Or.inl hx)
        obtain ⟨a, ha, hid⟩ := hI.reached hc hu x hxm
        exact Or.inr ⟨a, ha, hid.trans (hsame x hxm)⟩
    have hunder : Underway t.queue := by
      by_cases htype : m.type = .start
      · refine Or.inr ?_
        rw [hq]
        simp [htype]
      · rcases (hok.2 htype).2 hc hflight with h | h
        · exact Or.inl (by rw [hq]; exact h)
        · exact Or.inr (by rw [hq]; simp [h])
    have hknown' : ∀ b ∈ s.emitted, b.snapshot.sessionId ∈ t.known := by
      intro b hb
      rw [hknown]
      exact List.mem_cons_of_mem _ (hI.knownEmitted b hb)
    apply sent_orderInv hI.order hknown' (by rw [hq]; exact hc) (by simp [hlatest]) hunder
      (by rw [hq]) rfl hheld he' (by rw [hconf]; exact List.Subset.refl _)
    · intro hst
      rw [hconf]
      exact hstarted (by rw [hq] at hst; exact hst)
    · rw [hknown]
      exact List.mem_cons_self
    · rcases hfirst with htype | hb
      · exact Or.inr (Or.inl ⟨rfl, htype⟩)
      · exact Or.inl hb
    · exact hlast
    · intro b hb hid
      rw [hack]
      exact Or.inl (hcov b hb hid)

theorem onDisconnected_orderInv {s t : ConnectionRun} (hI : s.OrderInv)
    (hq : t.queue = s.queue.onDisconnected) (he : t.emitted = [])
    (hconf : t.confirmed = s.confirmed) (hknown : t.known = s.known) : t.OrderInv := by
  have hm : t.queue.messages = s.queue.messages := by rw [hq]; rfl
  refine ⟨?_, ?_, ?_, ?_, ?_, ?_, by simp [he], fun _ => he, by simp [he], ?_, ?_, ?_⟩
  · rw [hm]
    exact hI.oneSession
  · rw [hm, hq]
    exact hI.empty
  · rw [hq]
    exact hI.idle
  · rw [hm, hq, hconf]
    exact hI.confirmed
  · intro hc
    simp [hq, onDisconnected] at hc
  · intro hc
    simp [hq, onDisconnected] at hc
  · rw [hm, hknown]
    exact hI.knownHeld
  · rw [he]
    trivial
  · intro a ha
    simp [he] at ha

/-- A new connection sends the latest message, if a session is under way. -/
theorem onConnected_cases {s : ConnectionRun} (hI : s.OrderInv) :
    (s.queue.onConnected = ({ s.queue with connected := true }, none) ∧ ¬ Underway s.queue) ∨
    ∃ m x, s.queue.latest = some m ∧ x.sessionId = m.sessionId ∧
      s.queue.onConnected = ({ s.queue with connected := true, inFlight := some x, pending := none },
        some ⟨x, s.queue.sessionStarted⟩) ∧
      Underway s.queue ∧ (s.queue.sessionStarted = false → x.type = .start) := by
  by_cases hu : Underway s.queue
  · obtain ⟨m, hm⟩ := latest_of_underway hI hu
    have hne : ¬ (s.queue.sessionStarted = false ∧ s.queue.startAttempted = false) := by
      rintro ⟨h1, h2⟩
      rcases hu with h | h
      · simp [h1] at h
      · simp [h2] at h
    refine Or.inr ⟨m, if s.queue.sessionStarted = false then { m with type := .start } else m,
      hm, ?_, ?_, hu, ?_⟩
    · split <;> rfl
    · have helvis : (s.queue.latest <|> s.queue.pending <|> s.queue.inFlight) = some m := by
        simp [hm]
      unfold OutboundQueue.onConnected
      simp only [helvis, hne, if_false]
    · intro hst
      simp [hst]
  · have h1 : s.queue.sessionStarted = false := by
      by_contra h
      exact hu (Or.inl (by simpa using h))
    have h2 : s.queue.startAttempted = false := by
      by_contra h
      exact hu (Or.inr (by simpa using h))
    exact Or.inl ⟨onConnected_idle _ h1 h2, hu⟩

theorem onConnected_orderInv {s t : ConnectionRun} (hI : s.OrderInv)
    (hq : t.queue = s.queue.onConnected.1) (he : t.emitted = s.queue.onConnected.2.toList)
    (hconf : t.confirmed = s.confirmed) (hknown : t.known = s.known) : t.OrderInv := by
  rcases onConnected_cases hI with ⟨hoc, hu⟩ | ⟨m, x, hm, hid, hoc, hu, hstart⟩
  · rw [hoc] at hq he
    have he' : t.emitted = [] := he
    have hmsg : t.queue.messages = s.queue.messages := by rw [hq]; rfl
    have hu' : ¬ Underway t.queue := by rw [hq]; exact hu
    refine ⟨?_, ?_, ?_, ?_, fun _ h => absurd h hu', fun _ h => absurd h hu', by simp [he'],
      fun _ => he', by simp [he'], ?_, ?_, ?_⟩
    · rw [hmsg]
      exact hI.oneSession
    · rw [hmsg, hq]
      exact hI.empty
    · rw [hq]
      exact hI.idle
    · rw [hmsg, hq, hconf]
      exact hI.confirmed
    · rw [hmsg, hknown]
      exact hI.knownHeld
    · rw [he']
      trivial
    · intro a ha
      simp [he'] at ha
  · rw [hoc] at hq he
    have he' : t.emitted = [⟨x, s.queue.sessionStarted⟩] := he
    have hmm : m ∈ s.queue.messages := mem_messages.mpr (Or.inl hm)
    have hheld : ∀ y ∈ t.queue.messages, y.sessionId = m.sessionId := by
      intro y hy
      rw [hq, mem_messages] at hy
      rcases hy with hy | hy | hy
      · rw [Option.some.inj (hm.symm.trans hy)]
      · simp at hy
      · obtain rfl : x = y := by simpa using hy
        exact hid
    have hxid : ∀ y ∈ t.queue.messages, y.sessionId = x.sessionId := fun y hy =>
      (hheld y hy).trans hid.symm
    -- nothing has been sent on the new connection
    have horder : InOrder { s with emitted := [] } := ⟨trivial, by simp [OneUnacknowledged]⟩
    apply sent_orderInv horder (by simp) (by rw [hq]) (by rw [hq]; simp [hm])
      (by rw [hq]; exact hu) (by rw [hq]) rfl hxid he' (by rw [hconf]; exact List.Subset.refl _)
    · intro hst
      rw [hconf, hid]
      exact hI.confirmed (by rw [hq] at hst; exact hst) m hmm
    · rw [hknown, hid]
      exact hI.knownHeld m hmm
    · cases hst : s.queue.sessionStarted with
      | false => exact Or.inr (Or.inl ⟨rfl, hstart hst⟩)
      | true =>
        refine Or.inr (Or.inr ⟨rfl, ?_⟩)
        rw [hconf, hid]
        exact hI.confirmed hst m hmm
    · simp
    · simp

theorem markSessionStarted_orderInv {s t : ConnectionRun} (hI : s.OrderInv)
    (hp : s.Permitted .markSessionStarted) (hok : s.Orderly .markSessionStarted)
    (hq : t.queue = s.queue.markSessionStarted) (he : t.emitted = s.emitted)
    (hconf : t.confirmed = s.queue.messages.map (·.sessionId) ++ s.confirmed)
    (hknown : t.known = s.known) (hset : t.settled = s.settled) : t.OrderInv := by
  have hmsg : t.queue.messages = s.queue.messages := by rw [hq]; rfl
  have hc : t.queue.connected = s.queue.connected := by rw [hq]; rfl
  have hack : t.queue.lastAckSequence = s.queue.lastAckSequence := by rw [hq]; rfl
  have hu : Underway t.queue := Or.inl (by rw [hq]; rfl)
  refine ⟨?_, ?_, fun h => absurd hu h, ?_, ?_, ?_, ?_, ?_, ?_, ?_, ?_, ?_⟩
  · rw [hmsg]
    exact hI.oneSession
  · intro hnone
    obtain ⟨m, hm⟩ := latest_of_messages hI hp
    have hm' : t.queue.latest = some m := by rw [hq]; exact hm
    simp [hnone] at hm'
  · intro _ x hx
    rw [hconf]
    rw [hmsg] at hx
    exact List.mem_append_left _ (List.mem_map_of_mem hx)
  · intro hc' _
    rw [hc] at hc'
    rw [hmsg, he]
    exact hI.reached hc' (hok hc')
  · intro hc' _
    rw [hc] at hc'
    rw [hmsg, he, hack]
    have hflight : t.queue.inFlight = s.queue.inFlight := by rw [hq]; rfl
    rw [hflight]
    exact hI.covered hc' (hok hc')
  · rw [he, hack, hq]
    exact hI.inFlight
  · rw [hc, he]
    exact hI.disconnected
  · rw [he, hknown]
    exact hI.knownEmitted
  · rw [hmsg, hknown]
    exact hI.knownHeld
  · rw [he, hconf]
    exact hI.order.1.mono (List.subset_append_right _ _)
  · apply hI.order.2.of_le (by rw [he]; exact List.Subset.refl _)
    intro a _
    exact le_of_eq (lastAckOf_congr (by rw [hmsg]) hset hack).symm

theorem requireExplicitStart_orderInv {s t : ConnectionRun} (hI : s.OrderInv)
    (hq : t.queue = s.queue.requireExplicitStart) (he : t.emitted = s.emitted)
    (hconf : t.confirmed = s.confirmed) (hknown : t.known = s.known)
    (hset : t.settled = s.settled) : t.OrderInv := by
  have hu : ¬ Underway t.queue := by
    rw [hq]
    simp [Underway, OutboundQueue.requireExplicitStart]
  have hsub : ∀ x ∈ t.queue.messages, x ∈ s.queue.messages := by
    intro x hx
    rw [hq, mem_messages] at hx
    simp only [OutboundQueue.requireExplicitStart, reduceCtorEq, or_false, or_self] at hx
    exact mem_messages.mpr (Or.inl hx)
  have hheld : ∀ id, (∃ x ∈ t.queue.messages, x.sessionId = id) ↔
      ∃ x ∈ s.queue.messages, x.sessionId = id := by
    intro id
    constructor
    · rintro ⟨x, hx, hid⟩
      exact ⟨x, hsub x hx, hid⟩
    · rintro ⟨x, hx, hid⟩
      obtain ⟨m, hm⟩ := latest_of_messages hI (List.ne_nil_of_mem hx)
      refine ⟨m, ?_, ?_⟩
      · rw [hq]
        exact mem_messages.mpr (Or.inl hm)
      · rw [← hid]
        exact hI.oneSession m (mem_messages.mpr (Or.inl hm)) x hx
  refine ⟨?_, ?_, ?_, ?_, fun _ h => absurd h hu, fun _ h => absurd h hu, ?_, ?_, ?_, ?_, ?_, ?_⟩
  · exact fun x hx y hy => hI.oneSession x (hsub x hx) y (hsub y hy)
  · intro hnone
    have hnone' : s.queue.latest = none := by rw [hq] at hnone; exact hnone
    refine ⟨?_, hu⟩
    rw [hq]
    exact messages_eq_nil_iff.mpr ⟨hnone', hnone', rfl⟩
  · intro _
    rw [hq]
    rfl
  · intro hst
    exact absurd (Or.inl hst) hu
  · intro x hx
    rw [hq] at hx
    simp [OutboundQueue.requireExplicitStart] at hx
  · rw [he, hq]
    exact hI.disconnected
  · rw [he, hknown]
    exact hI.knownEmitted
  · intro x hx
    rw [hknown]
    exact hI.knownHeld x (hsub x hx)
  · rw [he, hconf]
    exact hI.order.1
  · apply hI.order.2.of_le (by rw [he]; exact List.Subset.refl _)
    intro a _
    exact le_of_eq (lastAckOf_congr (hheld _) hset (by rw [hq]; rfl)).symm

/-- A queue that forgets its session settles what was acknowledged of it. -/
theorem forget_orderInv {s t : ConnectionRun} {sequence : Int} (hI : s.OrderInv)
    (hseq : s.queue.lastAckSequence ≤ sequence) (hq : t.queue = s.queue.reset)
    (he : t.emitted = s.emitted) (hconf : s.confirmed ⊆ t.confirmed) (hknown : t.known = s.known)
    (hset : t.settled = s.settle sequence) : t.OrderInv := by
  have hnil : t.queue.messages = [] := by rw [hq]; rfl
  have hu : ¬ Underway t.queue := by
    rw [hq]
    simp [Underway, OutboundQueue.reset]
  refine ⟨by simp [hnil], fun _ => ⟨hnil, hu⟩, ?_, by simp [hnil], by simp [hnil], by simp [hnil],
    ?_, ?_, ?_, by simp [hnil], ?_, ?_⟩
  · intro _
    rw [hq]
    rfl
  · intro x hx
    rw [hq] at hx
    simp [OutboundQueue.reset] at hx
  · rw [he, hq]
    exact hI.disconnected
  · rw [he, hknown]
    exact hI.knownEmitted
  · rw [he]
    exact hI.order.1.mono hconf
  · apply hI.order.2.of_le (by rw [he]; exact List.Subset.refl _)
    intro a _
    rw [lastAckOf_not_held (s := t) (by simp [hnil]), hset]
    unfold lastAckOf settle
    split <;> omega

theorem restore_orderInv {s t : ConnectionRun} {m : SnapshotMessage} {n : Int} {r : Bool}
    (hI : s.OrderInv) (hok : s.Orderly (.restore m n r)) (hq : s.queue.restore m n r = some t.queue)
    (he : t.emitted = s.emitted)
    (hconf : t.confirmed = if r then m.sessionId :: s.confirmed else s.confirmed)
    (hknown : t.known = m.sessionId :: s.known) : t.OrderInv := by
  obtain ⟨hdisc, hflight⟩ := hok
  have he' : t.emitted = [] := he.trans (hI.disconnected hdisc)
  have hq' : t.queue = { s.queue with
      latest := some m, pending := some m, lastAckSequence := n, sessionStarted := r
      startAttempted := r } := by
    unfold OutboundQueue.restore at hq
    split at hq
    · exact (Option.some.inj hq).symm
    · simp at hq
  have hheld : ∀ x ∈ t.queue.messages, x.sessionId = m.sessionId := by
    intro x hx
    rw [hq', mem_messages] at hx
    rcases hx with hx | hx | hx
    · rw [Option.some.inj hx]
    · rw [Option.some.inj hx]
    · simp [hflight] at hx
  have hdisc' : t.queue.connected = false := by rw [hq']; exact hdisc
  refine ⟨fun x hx y hy => (hheld x hx).trans (hheld y hy).symm, ?_, ?_, ?_, ?_, ?_, by simp [he'],
    fun _ => he', by simp [he'], ?_, ?_, ?_⟩
  · intro hnone
    rw [hq'] at hnone
    simp at hnone
  · intro _
    rw [hq']
    exact hflight
  · intro hst x hx
    have hr : r = true := by rw [hq'] at hst; exact hst
    rw [hconf, hr, hheld x hx]
    exact List.mem_cons_self
  · intro hc
    simp [hdisc'] at hc
  · intro hc
    simp [hdisc'] at hc
  · intro x hx
    rw [hknown, hheld x hx]
    exact List.mem_cons_self
  · rw [he']
    trivial
  · intro a ha
    simp [he'] at ha

/-- `retry` sends the session and sequence that are in flight once more. -/
theorem retry_orderInv {s t : ConnectionRun} (hI : s.OrderInv) (hq : t.queue = s.queue)
    (he : t.emitted = s.queue.retry.toList ++ s.emitted) (hconf : t.confirmed = s.confirmed)
    (hknown : t.known = s.known) (hset : t.settled = s.settled) : t.OrderInv := by
  cases hr : s.queue.retry with
  | none =>
    have he' : t.emitted = s.emitted := by rw [he, hr]; rfl
    obtain ⟨q, emitted, confirmed, known, settled⟩ := t
    obtain ⟨rfl, rfl, rfl, rfl, rfl⟩ : q = s.queue ∧ emitted = s.emitted ∧
      confirmed = s.confirmed ∧ known = s.known ∧ settled = s.settled :=
        ⟨hq, he', hconf, hknown, hset⟩
    exact hI
  | some a =>
    have he' : t.emitted = a :: s.emitted := by rw [he, hr]; rfl
    -- the action repeats the snapshot in flight, perhaps as an UPDATE
    obtain ⟨x, hx, hid, hseq, hc⟩ : ∃ x, s.queue.inFlight = some x ∧
        a.snapshot.sessionId = x.sessionId ∧ a.snapshot.sequence = x.sequence ∧
        s.queue.connected = true := by
      unfold OutboundQueue.retry at hr
      split at hr
      · simp at hr
      · rename_i hc
        obtain ⟨x, hx, rfl⟩ := Option.map_eq_some_iff.mp hr
        refine ⟨x, hx, ?_, ?_, by simpa using hc⟩
        · split <;> rfl
        · split <;> rfl
    have hxm : x ∈ s.queue.messages := mem_messages.mpr (Or.inr (Or.inr hx))
    have hu : Underway s.queue := by
      by_contra hu
      simp [hI.idle hu] at hx
    obtain ⟨b, hb, hbid⟩ := hI.reached hc hu x hxm
    have hlast : ∀ id, t.lastAckOf id = s.lastAckOf id := fun id =>
      lastAckOf_congr (by rw [hq]) hset (by rw [hq])
    have hheld : ∀ y ∈ t.queue.messages, y.sessionId = a.snapshot.sessionId := by
      intro y hy
      rw [hid]
      exact hI.oneSession y (hq ▸ hy) x hxm
    obtain ⟨m, hm⟩ := latest_of_underway hI hu
    apply sent_orderInv hI.order (by rw [hknown]; exact hI.knownEmitted) (by rw [hq]; exact hc)
      (by simp [hq, hm]) (by rw [hq]; exact hu) (by rw [hq]; exact hx) hseq hheld he'
      (by rw [hconf]; exact List.Subset.refl _)
    · intro hst
      rw [hconf, hid]
      exact hI.confirmed (hq ▸ hst) x hxm
    · rw [hknown, hid]
      exact hI.knownHeld x hxm
    · exact Or.inl ⟨b, hb, hbid.trans hid.symm⟩
    · exact fun c _ => le_of_eq (hlast _).symm
    · intro c hc' hcid
      rw [hq, hseq]
      exact hI.inFlight x hx c hc' (hcid.trans hid)

theorem startOfflineDraft_orderInv {s t : ConnectionRun} (hI : s.OrderInv)
    (hok : s.Orderly .startOfflineDraft) (hq : t.queue = s.queue.startOfflineDraft.1)
    (he : t.emitted = s.queue.startOfflineDraft.2.toList ++ s.emitted)
    (hconf : t.confirmed = s.confirmed) (hknown : t.known = s.known)
    (hset : t.settled = s.settled) : t.OrderInv := by
  by_cases hidle : s.queue.startOfflineDraft = (s.queue, none)
  · rw [hidle] at hq he
    obtain ⟨q, emitted, confirmed, known, settled⟩ := t
    obtain ⟨rfl, rfl, rfl, rfl, rfl⟩ : q = s.queue ∧ emitted = s.emitted ∧
      confirmed = s.confirmed ∧ known = s.known ∧ settled = s.settled := ⟨hq, he, hconf, hknown, hset⟩
    exact hI
  · obtain ⟨m, hm, hc, hu, hstart⟩ : ∃ m, s.queue.latest = some m ∧ s.queue.connected = true ∧
        ¬ Underway s.queue ∧ s.queue.startOfflineDraft =
          ({ s.queue with
              inFlight := some { m with type := .start }, pending := none, startAttempted := true },
            some ⟨{ m with type := .start }, false⟩) := by
      unfold OutboundQueue.startOfflineDraft at hidle ⊢
      by_cases hg : s.queue.connected = false ∨ s.queue.sessionStarted ∨ s.queue.startAttempted
      · simp [hg] at hidle
      · rw [if_neg hg]
        rw [if_neg hg] at hidle
        push Not at hg
        obtain ⟨m, hm⟩ := latest_of_messages hI (by
          intro hnil
          obtain ⟨h1, h2, -⟩ := messages_eq_nil_iff.mp hnil
          simp [h1, h2] at hidle)
        have helvis : (s.queue.latest <|> s.queue.pending) = some m := by simp [hm]
        refine ⟨m, hm, by simpa using hg.1, ?_, by rw [helvis]⟩
        rintro (h | h)
        · exact hg.2.1 h
        · exact hg.2.2 h
    rw [hstart] at hq he
    have he' : t.emitted = ⟨{ m with type := .start }, false⟩ :: s.emitted := he
    have hmm : m ∈ s.queue.messages := mem_messages.mpr (Or.inl hm)
    have hlatest : t.queue.latest = some m := by rw [hq]; exact hm
    have hheld : ∀ x ∈ t.queue.messages, x.sessionId = m.sessionId := by
      intro x hx
      rw [hq, mem_messages] at hx
      rcases hx with hx | hx | hx
      · rw [Option.some.inj (hm.symm.trans hx)]
      · simp at hx
      · rw [← Option.some.inj hx]
    have hack : t.queue.lastAckSequence = s.queue.lastAckSequence := by rw [hq]
    have hu' : Underway t.queue := Or.inr (by rw [hq])
    have hsame : ∀ id, (∃ x ∈ t.queue.messages, x.sessionId = id) ↔
        ∃ x ∈ s.queue.messages, x.sessionId = id := by
      intro id
      constructor
      · rintro ⟨x, hx, hid⟩
        exact ⟨m, hmm, (hheld x hx).symm.trans hid⟩
      · rintro ⟨x, hx, hid⟩
        exact ⟨m, mem_messages.mpr (Or.inl hlatest), (hI.oneSession m hmm x hx).trans hid⟩
    have hlast : ∀ id, t.lastAckOf id = s.lastAckOf id := fun id => lastAckOf_congr (hsame id) hset hack
    apply sent_orderInv hI.order (by rw [hknown]; exact hI.knownEmitted) (by rw [hq]; exact hc)
      (by simp [hlatest]) hu' (by rw [hq]) rfl hheld he' (by rw [hconf]; exact List.Subset.refl _)
    · intro hst
      rw [hq] at hst
      exact absurd (Or.inl hst) hu
    · rw [hknown]
      exact hI.knownHeld m hmm
    · exact Or.inr (Or.inl ⟨rfl, rfl⟩)
    · exact fun a _ => le_of_eq (hlast _).symm
    · intro b hb hid
      rw [hack]
      exact hok hc hu m hm b hb hid

theorem acknowledge_sends (q : OutboundQueue) (ack : AckMessage) (h : TakesEffect q ack) :
    (q.acknowledge ack).2 =
      q.pending.bind fun next => if q.connected then some ⟨next, false⟩ else none := by
  obtain ⟨ha, hl, hf⟩ := h
  have hl' : ¬ ack.appliedSequence < q.lastAckSequence := by omega
  unfold OutboundQueue.acknowledge
  simp only [ha, hl', hf, Bool.true_eq_false, Bool.false_eq_true, if_false]
  cases q.pending with
  | none => rfl
  | some next => rfl

/-- What an acknowledgement does not cover is in flight. -/
theorem unacknowledged_in_flight {s : ConnectionRun} {m : SnapshotMessage} {n : Int}
    (hI : s.OrderInv) (hc : s.queue.connected = true) (hu : Underway s.queue)
    (hm : m ∈ s.queue.messages) (hn : s.queue.lastAckSequence ≤ n) {a : OutboundAction}
    (ha : a ∈ s.emitted) (hid : a.snapshot.sessionId = m.sessionId) :
    a.snapshot.sequence ≤ n ∨
      ∃ x, s.queue.inFlight = some x ∧ n < x.sequence ∧ a.snapshot.sequence = x.sequence := by
  cases hfl : s.queue.inFlight with
  | none =>
    have hcov := hI.covered hc hu hfl m hm a ha hid
    left
    omega
  | some x =>
    have hxm : x ∈ s.queue.messages := mem_messages.mpr (Or.inr (Or.inr hfl))
    have hxid : x.sessionId = m.sessionId := hI.oneSession x hxm m hm
    rcases hI.inFlight x hfl a ha (hid.trans hxid.symm) with h | h
    · left
      omega
    · by_cases hle : x.sequence ≤ n
      · left
        omega
      · exact Or.inr ⟨x, rfl, by omega, h⟩

/-- An acknowledgement that is not final and passes the checks. What it leaves
unacknowledged has the sequence in flight, and the pending snapshot is sent only
in its place. -/
theorem acknowledge_orderInv {s t : ConnectionRun} {ack : AckMessage} (hI : s.OrderInv)
    (hok : s.Orderly (.acknowledge ack)) (heff : TakesEffect s.queue ack)
    (hq : t.queue = (s.queue.acknowledge ack).1)
    (he : t.emitted = (s.queue.acknowledge ack).2.toList ++ s.emitted)
    (hconf : t.confirmed = ack.sessionId :: s.confirmed) (hknown : t.known = s.known)
    (hset : t.settled = s.settled) : t.OrderInv := by
  obtain ⟨held, hheldm, hheldid⟩ := acceptsSession_iff.mp heff.1
  have hseq := heff.2.1
  rw [acknowledge_effect _ _ heff] at hq
  rw [acknowledge_sends _ _ heff] at he
  have hack : t.queue.lastAckSequence = ack.appliedSequence := by rw [hq]
  have hlatest : t.queue.latest = s.queue.latest := by rw [hq]
  have hu : Underway t.queue := Or.inl (by rw [hq])
  have hc : t.queue.connected = s.queue.connected := by rw [hq]
  have hin : t.queue.inFlight = (s.queue.pending <|>
      s.queue.inFlight.filter fun x => decide (ack.appliedSequence < x.sequence)) := by rw [hq]
  obtain ⟨m, hm⟩ := latest_of_messages hI (List.ne_nil_of_mem hheldm)
  have hmm : m ∈ s.queue.messages := mem_messages.mpr (Or.inl hm)
  have hsub : ∀ x ∈ t.queue.messages, x ∈ s.queue.messages := by
    intro x hx
    rcases mem_messages.mp hx with hx | hx | hx
    · exact mem_messages.mpr (Or.inl (hlatest ▸ hx))
    · rw [hq] at hx
      simp at hx
    · rw [hin] at hx
      rcases elvis_eq_some hx with hx | hx
      · exact mem_messages.mpr (Or.inr (Or.inl hx))
      · exact mem_messages.mpr (Or.inr (Or.inr (Option.filter_eq_some_iff.mp hx).1))
  have hsession : ∀ x ∈ s.queue.messages, x.sessionId = m.sessionId := fun x hx =>
    hI.oneSession x hx m hmm
  have hmt : m ∈ t.queue.messages := mem_messages.mpr (Or.inl (hlatest.trans hm))
  have hlast : ∀ a ∈ s.emitted, s.lastAckOf a.snapshot.sessionId ≤
      t.lastAckOf a.snapshot.sessionId := by
    intro a _
    by_cases hid : a.snapshot.sessionId = m.sessionId
    · rw [hid, lastAckOf_held hmm, lastAckOf_held hmt, hack]
      exact hseq
    · have h1 : s.lastAckOf a.snapshot.sessionId = s.settled a.snapshot.sessionId :=
        lastAckOf_not_held fun x hx hxid => hid (hxid.symm.trans (hsession x hx))
      have h2 : t.lastAckOf a.snapshot.sessionId = t.settled a.snapshot.sessionId :=
        lastAckOf_not_held fun x hx hxid => hid (hxid.symm.trans (hsession x (hsub x hx)))
      rw [h1, h2, hset]
  have hopen : s.queue.connected = true → ∀ a ∈ s.emitted, a.snapshot.sessionId = m.sessionId →
      a.snapshot.sequence ≤ ack.appliedSequence ∨
        ∃ x, s.queue.inFlight = some x ∧ ack.appliedSequence < x.sequence ∧
          a.snapshot.sequence = x.sequence := fun hc' a ha hid =>
    unacknowledged_in_flight hI hc' (hok heff hc').1 hmm hseq ha hid
  have hconfirmed : ∀ x ∈ t.queue.messages, x.sessionId ∈ t.confirmed := by
    intro x hx
    rw [hconf, hsession x (hsub x hx), ← hsession held hheldm, hheldid]
    exact List.mem_cons_self
  have hempty : t.queue.latest = none → t.queue.messages = [] ∧ ¬ Underway t.queue := by
    intro hnone
    rw [hlatest, hm] at hnone
    simp at hnone
  have hone := fun x hx y hy => hI.oneSession x (hsub x hx) y (hsub y hy)
  have hheld' : ∀ x ∈ t.queue.messages, x.sessionId ∈ t.known := by
    intro x hx
    rw [hknown]
    exact hI.knownHeld x (hsub x hx)
  have hconf' : s.confirmed ⊆ t.confirmed := hconf ▸ List.subset_cons_self _ _
  by_cases hsend : ∃ next, s.queue.pending = some next ∧ s.queue.connected = true
  · obtain ⟨next, hnext, hc'⟩ := hsend
    have he' : t.emitted = ⟨next, false⟩ :: s.emitted := by
      rw [he, hnext, Option.bind_some, hc']
      rfl
    have hin' : t.queue.inFlight = some next := by rw [hin, hnext]; rfl
    have hnextm : next ∈ s.queue.messages := mem_messages.mpr (Or.inr (Or.inl hnext))
    have hnextid := hsession next hnextm
    have hopen' : ∀ a ∈ s.emitted, a.snapshot.sessionId = next.sessionId →
        a.snapshot.sequence ≤ ack.appliedSequence ∨ a.snapshot.sequence = next.sequence := by
      intro a ha hid
      rcases hopen hc' a ha (hid.trans hnextid) with h | ⟨x, hx, hlt, h⟩
      · exact Or.inl h
      · rcases (hok heff hc').2 next hnext x hx with hle | heq
        · omega
        · exact Or.inr (h.trans heq)
    have hheld : ∀ x ∈ t.queue.messages, x.sessionId = next.sessionId := fun x hx =>
      hI.oneSession x (hsub x hx) next hnextm
    obtain ⟨b, hb, hbid⟩ := hI.reached hc' (hok heff hc').1 next hnextm
    apply sent_orderInv hI.order (by rw [hknown]; exact hI.knownEmitted) (hc.trans hc')
      (by simp [hlatest, hm]) hu hin' rfl hheld he' hconf'
    · intro _
      have := hconfirmed m hmt
      rwa [← hnextid] at this
    · rw [hknown]
      exact hI.knownHeld next hnextm
    · exact Or.inl ⟨b, hb, hbid⟩
    · exact hlast
    · rw [hack]
      exact hopen'
  · have he' : t.emitted = s.emitted := by
      rw [he]
      cases hnext : s.queue.pending with
      | none => rfl
      | some next =>
        have hc' : s.queue.connected = false := by
          by_contra hc'
          exact hsend ⟨next, hnext, by simpa using hc'⟩
        rw [Option.bind_some, hc']
        rfl
    refine ⟨hone, hempty, fun h => absurd hu h, fun _ => hconfirmed, ?_, ?_, ?_, ?_, ?_, hheld', ?_, ?_⟩
    · intro hc' _ x hx
      rw [hc] at hc'
      rw [he']
      exact hI.reached hc' (hok heff hc').1 x (hsub x hx)
    · intro hc' _ hnone x hx a ha hid
      rw [hc] at hc'
      rw [he'] at ha
      rw [hack]
      rcases hopen hc' a ha (hid.trans (hsession x (hsub x hx))) with h | ⟨y, hy, hlt, h⟩
      · exact h
      · -- what is not covered stays in flight
        rw [hin, hy] at hnone
        cases hnext : s.queue.pending with
        | none => simp [hnext, Option.filter, hlt] at hnone
        | some next => exact absurd ⟨next, hnext, hc'⟩ hsend
    · intro x hx a ha hid
      rw [he'] at ha
      rw [hack]
      by_cases hc' : s.queue.connected = true
      · have hxm : x ∈ t.queue.messages := mem_messages.mpr (Or.inr (Or.inr hx))
        rcases hopen hc' a ha (hid.trans (hsession x (hsub x hxm))) with h | ⟨y, hy, hlt, h⟩
        · exact Or.inl h
        · cases hnext : s.queue.pending with
          | none =>
            have hx' : t.queue.inFlight = some x := hx
            rw [hin, hnext, hy] at hx'
            obtain rfl : y = x := by simpa [Option.filter, hlt] using hx'
            exact Or.inr h
          | some next => exact absurd ⟨next, hnext, hc'⟩ hsend
      · simp [hI.disconnected (by simpa using hc')] at ha
    · rw [he', hc]
      exact hI.disconnected
    · rw [he', hknown]
      exact hI.knownEmitted
    · rw [he']
      exact hI.order.1.mono hconf'
    · apply hI.order.2.of_le (by rw [he']; exact List.Subset.refl _)
      rw [he']
      exact hlast

theorem acknowledge_ignored {q : OutboundQueue} {ack : AckMessage} (h : ¬ TakesEffect q ack)
    (hc : ¬ Completes q ack) : q.acknowledge ack = (q, none) := by
  unfold OutboundQueue.acknowledge
  by_cases ha : q.acceptsSession ack.sessionId = true
  · by_cases hl : ack.appliedSequence < q.lastAckSequence
    · simp [ha, hl]
    · cases hf : ack.finished with
      | false => exact absurd ⟨ha, by omega, hf⟩ h
      | true => exact absurd ⟨ha, by omega, hf⟩ hc
  · simp [ha]

theorem acknowledge_completes {q : OutboundQueue} {ack : AckMessage} (h : Completes q ack) :
    q.acknowledge ack = (q.reset, none) := by
  obtain ⟨ha, hl, hf⟩ := h
  have hl' : ¬ ack.appliedSequence < q.lastAckSequence := by omega
  simp [OutboundQueue.acknowledge, ha, hl', hf, OutboundQueue.reset]

theorem OrderInv.confirm {s : ConnectionRun} (hI : s.OrderInv) {confirmed : List String}
    (h : s.confirmed ⊆ confirmed) : OrderInv { s with confirmed } :=
  ⟨hI.oneSession, hI.empty, hI.idle, fun hst x hx => h (hI.confirmed hst x hx), hI.reached,
    hI.covered, hI.inFlight, hI.disconnected, hI.knownEmitted, hI.knownHeld,
    hI.order.1.mono h, hI.order.2⟩

/-- One operation keeps the link between the queue and the connection. -/
theorem step_orderInv {s t : ConnectionRun} {op : Op} (hI : s.OrderInv) (hok : s.Orderly op)
    (h : s.step op = some t) : t.OrderInv := by
  unfold step at h
  split at h
  · rename_i hp
    obtain ⟨⟨q, o⟩, happly, ht⟩ := Option.map_eq_some_iff.mp h
    cases op with
    | offer m =>
      obtain ⟨rfl, rfl⟩ := Prod.ext_iff.mp (Option.some.inj happly)
      subst ht
      exact offer_orderInv hI hok rfl rfl rfl rfl rfl
    | onConnected =>
      obtain ⟨rfl, rfl⟩ := Prod.ext_iff.mp (Option.some.inj happly)
      subst ht
      exact onConnected_orderInv hI rfl rfl rfl rfl
    | onDisconnected =>
      obtain ⟨rfl, rfl⟩ := Prod.ext_iff.mp (Option.some.inj happly)
      subst ht
      exact onDisconnected_orderInv hI rfl rfl rfl rfl
    | markSessionStarted =>
      obtain ⟨rfl, rfl⟩ := Prod.ext_iff.mp (Option.some.inj happly)
      subst ht
      exact markSessionStarted_orderInv hI hp hok rfl rfl rfl rfl rfl
    | startOfflineDraft =>
      obtain ⟨rfl, rfl⟩ := Prod.ext_iff.mp (Option.some.inj happly)
      subst ht
      exact startOfflineDraft_orderInv hI hok rfl rfl rfl rfl rfl
    | requireExplicitStart =>
      obtain ⟨rfl, rfl⟩ := Prod.ext_iff.mp (Option.some.inj happly)
      subst ht
      exact requireExplicitStart_orderInv hI rfl rfl rfl rfl rfl
    | acknowledge ack =>
      obtain ⟨rfl, rfl⟩ := Prod.ext_iff.mp (Option.some.inj happly)
      subst ht
      by_cases heff : TakesEffect s.queue ack
      · refine acknowledge_orderInv hI hok heff rfl rfl ?_ rfl ?_
        · simp [heff.1]
        · have hnc : ¬ Completes s.queue ack := by
            rintro ⟨-, -, hf⟩
            simp [heff.2.2] at hf
          simp [hnc]
      · by_cases hc : Completes s.queue ack
        · refine forget_orderInv hI hc.2.1 ?_ ?_ ?_ rfl ?_
          · rw [acknowledge_completes hc]
          · rw [acknowledge_completes hc]
            rfl
          · simp [hc.1]
          · simp [hc]
        · have hconf : s.confirmed ⊆ if s.queue.acceptsSession ack.sessionId then
              ack.sessionId :: s.confirmed else s.confirmed := by
            split
            · exact List.subset_cons_self _ _
            · exact List.Subset.refl _
          simpa [acknowledge_ignored heff hc, hc, Op.given] using hI.confirm hconf
    | retry =>
      obtain ⟨rfl, rfl⟩ := Prod.ext_iff.mp (Option.some.inj happly)
      subst ht
      exact retry_orderInv hI rfl rfl rfl rfl rfl
    | restore m n r =>
      obtain ⟨q', hr, hq'⟩ := Option.map_eq_some_iff.mp happly
      obtain ⟨rfl, rfl⟩ := Prod.ext_iff.mp hq'
      subst ht
      exact restore_orderInv hI hok hr rfl rfl rfl
    | abandonSession =>
      obtain ⟨rfl, rfl⟩ := Prod.ext_iff.mp (Option.some.inj happly)
      subst ht
      exact forget_orderInv hI (le_refl _) rfl rfl (List.Subset.refl _) rfl rfl
  · simp at h

theorem initial_orderInv : OrderInv {} := by
  have hnil : (({} : OutboundQueue)).messages = [] := rfl
  refine ⟨?_, ?_, ?_, ?_, ?_, ?_, ?_, ?_, ?_, ?_, trivial, ?_⟩ <;>
    simp [hnil, Underway, OneUnacknowledged]

/-- In every orderly run each connection opens a session with a START or resumes
a confirmed one, and one sequence at a time waits for its acknowledgement. -/
theorem orderly_run_in_order (ops : List Op) (h : Along step Orderly {} ops) :
    Always step InOrder {} ops := by
  refine always_of_along OrderInv ops initial_orderInv initial_orderInv.order ?_ h
  intro s op t hI hok hstep
  have hI' := step_orderInv hI hok hstep
  exact ⟨hI', hI'.order⟩

def typed (type : SnapshotType) (sequence : Int) (text : String) : SnapshotMessage :=
  { type := type, phoneId := "phone", sessionId := "s", sequence := sequence, fullText := text }

def acked (sequence : Int) : AckMessage :=
  { sessionId := "s", appliedSequence := sequence, sessionState := .active }

theorem orderly_run_in_order_typing :
    Along step Orderly {} [.onConnected, .offer (typed .start 1 "a"), .offer (typed .update 2 "ab"),
      .acknowledge (acked 1), .offer (typed .update 3 "abc"), .onDisconnected, .onConnected] ∧
    Always step InOrder {} [.onConnected, .offer (typed .start 1 "a"),
      .offer (typed .update 2 "ab"), .acknowledge (acked 1), .offer (typed .update 3 "abc"),
      .onDisconnected, .onConnected] :=
  ⟨by decide, orderly_run_in_order _ (by decide)⟩

/-- A repeated acknowledgement sends the pending snapshot while another one is
unacknowledged; and a FINISH offered while an explicit start is required is the
first message of its session. -/
theorem repeated_ack_and_finish_out_of_order :
    ¬ Always step InOrder {} [.onConnected, .offer (typed .start 1 "a"), .acknowledge (acked 1),
      .offer (typed .update 2 "ab"), .offer (typed .update 3 "abc"), .acknowledge (acked 1)] ∧
    ¬ Always step InOrder {} [.offer (typed .start 1 "a"), .onConnected,
      .offer (typed .finish 1 "a")] := by
  decide

end ConnectionRun

end FlowType
