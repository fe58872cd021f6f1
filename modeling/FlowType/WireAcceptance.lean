import Mathlib.Data.Int.Range
import FlowType.Phone

/-! What Windows checks before a frame of the phone reaches the injector, and when
every frame of a phone passes. A frame that fails closes the connection, and the
phone sends it again on the next one. -/
namespace FlowType

/-- The message `serde_json` reads back: absent binding fields take their
defaults. -/
def Frame.received : Frame → ClientMessage
  | .snapshot m =>
    match m.type with
    | .start => .start m
    | .update => .update { m with replacesSessionId := none, attachExisting := false }
    | .finish => .finish { m with replacesSessionId := none, attachExisting := false }
  | .resume m => .resume m
  | .cancel m => .cancel m

def validateResumeForPhone (resume : ResumeMessage) (authenticatedPhoneId : String) :
    Except String Unit :=
  match resume.validate with
  | .error _ => .error "invalid resume"
  | .ok _ => if resume.phoneId ≠ authenticatedPhoneId then .error "resume phone does not match"
    else .ok ()

def validateCancelForPhone (cancel : CancelMessage) (authenticatedPhoneId : String) :
    Except String Unit :=
  match cancel.validate with
  | .error _ => .error "invalid cancel"
  | .ok _ => if cancel.phoneId ≠ authenticatedPhoneId then .error "cancel phone does not match"
    else .ok ()

/-- The checks of a snapshot; a foreign phone id is answered, not an error. -/
def checkSnapshot (start : Bool) (snapshot : SnapshotMessage) (authenticatedPhoneId : String) :
    Except String (Option ErrorCode) :=
  match snapshot.validate with
  | .error _ => .error "invalid snapshot"
  | .ok _ =>
    if snapshot.attachExisting ∧ start = false then .error "only start can attach existing text"
    else if snapshot.phoneId ≠ authenticatedPhoneId then .ok (some .invalidMessage)
    else .ok none

/-- The checks of `handle_client_message`; `ok none` goes on to the injector. -/
def checkClientMessage (authenticatedPhoneId : String) :
    ClientMessage → Except String (Option ErrorCode)
  | .start snapshot => checkSnapshot true snapshot authenticatedPhoneId
  | .update snapshot => checkSnapshot false snapshot authenticatedPhoneId
  | .finish snapshot => checkSnapshot false snapshot authenticatedPhoneId
  | .resume resume => (validateResumeForPhone resume authenticatedPhoneId).map fun _ => none
  | .cancel cancel => (validateCancelForPhone cancel authenticatedPhoneId).map fun _ => none

/-- The text branch of `serve_connection`; an error closes the connection. -/
def serveText (authenticatedPhoneId : String) (frame : Frame) : Except String (Option ErrorCode) :=
  if frame.encode.utf8ByteSize > MAX_MESSAGE_BYTES then .error "message too large"
  else checkClientMessage authenticatedPhoneId frame.received

theorem serveText_of_fits {authenticatedPhoneId : String} (frame : Frame)
    (h : frame.encode.utf8ByteSize ≤ MAX_MESSAGE_BYTES) :
    serveText authenticatedPhoneId frame =
      checkClientMessage authenticatedPhoneId frame.received :=
  if_neg (Nat.not_lt.mpr h)

/-- Every form in which the message can be sent fits into one frame. -/
def SnapshotMessage.Fits (m : SnapshotMessage) : Prop :=
  ∀ type, ({ m with type } : SnapshotMessage).encode.utf8ByteSize ≤ MAX_MESSAGE_BYTES ∧
    ∀ n, 0 ≤ n → n ≤ m.sequence →
      (({ m with type } : SnapshotMessage).toResume n).encode.utf8ByteSize ≤ MAX_MESSAGE_BYTES

instance (m : SnapshotMessage) : Decidable m.Fits :=
  decidable_of_iff (∀ type ∈ [SnapshotType.start, .update, .finish],
      ({ m with type } : SnapshotMessage).encode.utf8ByteSize ≤ MAX_MESSAGE_BYTES ∧
      ∀ n, 0 ≤ n → n ≤ m.sequence →
        (({ m with type } : SnapshotMessage).toResume n).encode.utf8ByteSize ≤ MAX_MESSAGE_BYTES)
    ⟨fun h type => h type (by cases type <;> simp), fun h type _ => h type⟩

structure SnapshotMessage.Sendable (phoneId : String) (m : SnapshotMessage) : Prop where
  phone : m.phoneId = phoneId
  version : m.protocolVersion = PROTOCOL_VERSION
  session : m.sessionId ≠ ""
  replaces : ∀ id ∈ m.replacesSessionId, id ≠ "" ∧ id ≠ m.sessionId
  sequence : 0 < m.sequence
  fits : m.Fits

theorem SnapshotMessage.Sendable.withType {phoneId : String} {m : SnapshotMessage}
    (h : m.Sendable phoneId) (type : SnapshotType) :
    ({ m with type } : SnapshotMessage).Sendable phoneId :=
  ⟨h.phone, h.version, h.session, h.replaces, h.sequence, h.fits⟩

theorem SnapshotMessage.Sendable.validate {phoneId : String} {m : SnapshotMessage}
    (h : m.Sendable phoneId) (hp : phoneId ≠ "") : m.validate = .ok () := by
  have hsize : m.fullText.utf8ByteSize ≤ MAX_MESSAGE_BYTES :=
    m.text_size_le.trans (h.fits m.type).1
  have hrep : ¬ ∃ id ∈ m.replacesSessionId, id = "" ∨ id = m.sessionId := by
    rintro ⟨id, hid, hbad⟩
    have := h.replaces id hid
    tauto
  have hseq := h.sequence
  unfold SnapshotMessage.validate
  rw [if_neg (by simp [h.version]), if_neg (by simp [h.phone, hp, h.session]), if_neg hrep,
    if_neg (by omega), if_neg (by omega)]

theorem SnapshotMessage.Sendable.withoutBinding {phoneId : String} {m : SnapshotMessage}
    (h : m.Sendable phoneId) (hp : phoneId ≠ "") :
    ({ m with replacesSessionId := none, attachExisting := false } : SnapshotMessage).validate =
      .ok () := by
  have hv := h.validate hp
  unfold SnapshotMessage.validate at hv ⊢
  split_ifs at hv ⊢ <;> simp_all

/-- A sendable snapshot passes every check, whatever its type. -/
theorem SnapshotMessage.Sendable.accepted {phoneId : String} {m : SnapshotMessage}
    (h : m.Sendable phoneId) (hp : phoneId ≠ "") : serveText phoneId (.snapshot m) = .ok none := by
  have hv := h.withoutBinding hp
  rw [serveText_of_fits (.snapshot m) (h.fits m.type).1]
  cases ht : m.type with
  | start => simp [Frame.received, ht, checkClientMessage, checkSnapshot, h.validate hp, h.phone]
  | update =>
    simp only [ht, h.phone] at hv
    simp [Frame.received, ht, checkClientMessage, checkSnapshot, hv, h.phone]
  | finish =>
    simp only [ht, h.phone] at hv
    simp [Frame.received, ht, checkClientMessage, checkSnapshot, hv, h.phone]

theorem SnapshotMessage.Sendable.resume_accepted {phoneId : String} {m : SnapshotMessage}
    (h : m.Sendable phoneId) (hp : phoneId ≠ "") {n : Int} (h0 : 0 ≤ n) (hn : n ≤ m.sequence) :
    serveText phoneId (.resume (m.toResume n)) = .ok none := by
  have hfit : (m.toResume n).encode.utf8ByteSize ≤ MAX_MESSAGE_BYTES := (h.fits m.type).2 n h0 hn
  have hsize : m.fullText.utf8ByteSize ≤ MAX_MESSAGE_BYTES :=
    (m.toResume n).text_size_le.trans hfit
  have hseq := h.sequence
  have hv : (m.toResume n).validate = .ok () := by
    rw [ResumeMessage.validate, if_neg (by simp [toResume]),
      if_neg (by simp [toResume, h.phone, hp, h.session]),
      if_neg (by simp only [toResume]; omega), if_neg (by simp only [toResume]; omega)]
  have hphone : (m.toResume n).phoneId = phoneId := h.phone
  rw [serveText_of_fits (.resume _) hfit]
  simp [Frame.received, checkClientMessage, validateResumeForPhone, hv, hphone, Except.map]

theorem cancel_accepted {phoneId id : String} (hp : phoneId ≠ "") (hid : id ≠ "")
    (hfit : (CancelMessage.encode { phoneId, sessionId := id }).utf8ByteSize ≤ MAX_MESSAGE_BYTES) :
    serveText phoneId (.cancel { phoneId, sessionId := id }) = .ok none := by
  rw [serveText_of_fits (.cancel _) hfit]
  simp [Frame.received, checkClientMessage, validateCancelForPhone, CancelMessage.validate, hp, hid,
    Except.map]

namespace Phone
open OutboundQueue Machine

/-- Windows accepts every frame the last event sent. -/
def FramesAccepted (s : Phone) : Prop :=
  ∀ f ∈ s.sent, serveText s.session.phoneId f = .ok none

instance (s : Phone) : Decidable s.FramesAccepted :=
  inferInstanceAs (Decidable (∀ f ∈ s.sent, _ = _))

/-- The snapshots an event hands over to the queue. -/
def offers (s : Phone) : Event → List SnapshotMessage
  | .onTextChanged text startIfNeeded newId =>
    (s.session.onTextChanged text startIfNeeded newId).elim [] fun r => r.2.toList
  | .finish => s.session.finish.elim [] fun r => r.2.toList
  | .startLocalDraft attachExistingAtCursor newId =>
    (s.session.startLocalDraft attachExistingAtCursor newId).2.toList
  | .restartAtCurrentCursor newId =>
    (s.session.restartAtCurrentCursor newId).elim [] fun r => r.2
  | .restoreQueue _ => s.session.recoverySnapshot.toList
  | _ => []

/-- Every snapshot handed over fits into a frame and is not behind the recorded
acknowledgement, and no acknowledgement that takes effect is ahead of the latest
snapshot. Restoring the queue replaces the recorded acknowledgement. -/
def WireOk (s : Phone) (e : Event) : Prop :=
  (∀ m ∈ s.offers e, m.Fits) ∧
  match e with
  | .ackQueue ack => TakesEffect s.q ack → ∀ m ∈ s.q.latest, ack.appliedSequence ≤ m.sequence
  | .restoreQueue _ => True
  | e => ∀ m ∈ s.offers e, s.q.lastAckSequence ≤ m.sequence

instance (s : Phone) (e : Event) : Decidable (s.WireOk e) := by
  apply Event.casesOn (motive := fun e => Decidable (s.WireOk e)) e <;> intros <;>
    simp only [WireOk] <;> infer_instance

structure StateOk (phoneId : String) (used : List String) (st : InputSession.State) : Prop where
  sequence : 0 ≤ st.latestSequence
  positive : st.sessionId ≠ none → 0 < st.latestSequence
  id : ∀ id ∈ st.sessionId, id ≠ "" ∧ id ∈ used ∧
    (CancelMessage.encode { phoneId, sessionId := id }).utf8ByteSize ≤ MAX_MESSAGE_BYTES
  replaced : ∀ id ∈ st.replacementSessionId, id ≠ "" ∧ id ∈ used ∧ some id ≠ st.sessionId

theorem StateOk.mono {phoneId : String} {used used' : List String} {st : InputSession.State}
    (h : StateOk phoneId used st) (hu : ∀ id ∈ used, id ∈ used') : StateOk phoneId used' st := by
  refine ⟨h.sequence, h.positive, ?_, ?_⟩
  · intro id hid
    obtain ⟨h1, h2, h3⟩ := h.id id hid
    exact ⟨h1, hu id h2, h3⟩
  · intro id hid
    obtain ⟨h1, h2, h3⟩ := h.replaced id hid
    exact ⟨h1, hu id h2, h3⟩

theorem StateOk.sendable {s : InputSession} {used : List String} {type : SnapshotType}
    {m : SnapshotMessage} (h : StateOk s.phoneId used s.state) (hm : s.snapshot type = some m)
    (hf : m.Fits) : m.Sendable s.phoneId := by
  obtain ⟨id, hid, rfl⟩ := Option.map_eq_some_iff.mp hm
  refine ⟨rfl, rfl, (h.id id hid).1, ?_, h.positive (by simp [InputSession.state, hid]), hf⟩
  intro r hr
  obtain ⟨h1, -, h3⟩ := h.replaced r hr
  refine ⟨h1, ?_⟩
  rintro rfl
  exact h3 hid.symm

/-- The latest snapshot is there whenever any is, and the acknowledgement is not
ahead of it. -/
structure QueueOk (phoneId : String) (q : OutboundQueue) : Prop where
  held : ∀ m ∈ q.messages, m.Sendable phoneId
  latest : q.latest = none → q.messages = []
  ack : 0 ≤ q.lastAckSequence ∧ ∀ m ∈ q.latest, q.lastAckSequence ≤ m.sequence

theorem QueueOk.empty (phoneId : String) (b : Bool) : QueueOk phoneId { connected := b } :=
  ⟨by simp [messages], fun _ => rfl, by simp⟩

/-- What a queue operation needs: an offered snapshot not behind the recorded
acknowledgement, an acknowledgement not ahead of the latest snapshot. -/
def OpOk (q : OutboundQueue) : Op → Prop
  | .offer m => q.lastAckSequence ≤ m.sequence
  | .acknowledge ack => TakesEffect q ack → ∀ m ∈ q.latest, ack.appliedSequence ≤ m.sequence
  | _ => True

theorem QueueOk.held_apply {phoneId : String} {q q' : OutboundQueue} {op : Op}
    {a : Option OutboundAction} (h : QueueOk phoneId q)
    (hg : ∀ m, op.given = some m → m.Sendable phoneId) (hq : q.apply op = some (q', a)) :
    ∀ m ∈ q'.messages, m.Sendable phoneId := by
  intro m hm
  rcases apply_messages hq m hm with hm | hm | ⟨x, hx, rfl⟩
  · exact h.held m hm
  · exact hg m hm
  · exact (h.held x (rebuilt_mem hx)).withType .start

theorem QueueOk.apply {phoneId : String} {q q' : OutboundQueue} {op : Op}
    {a : Option OutboundAction} (h : QueueOk phoneId q)
    (hg : ∀ m, op.given = some m → m.Sendable phoneId) (hok : OpOk q op)
    (hq : q.apply op = some (q', a)) : QueueOk phoneId q' := by
  rcases apply_latest hq with rfl | hl
  · exact QueueOk.empty phoneId q.connected
  refine ⟨h.held_apply hg hq, ?_, ?_⟩
  · intro hn
    rw [hl] at hn
    -- without a given message nothing can enter an empty queue
    have hgn : op.given = none := by
      cases hgiven : op.given with
      | none => rfl
      | some m => simp [hgiven] at hn
    have hqn : q.latest = none := by simpa [hgn] using hn
    have hempty := h.latest hqn
    rw [List.eq_nil_iff_forall_not_mem]
    intro m hm
    rcases apply_messages hq m hm with hm | hm | ⟨x, hx, -⟩
    · simp [hempty] at hm
    · simp [hgn] at hm
    · have := rebuilt_mem hx
      simp [hempty] at this
  · rcases apply_lastAck hq with rfl | ⟨ack, rfl, he, ha⟩ | ⟨m, n, r, rfl, h0, hn, ha⟩ | ⟨hr, ha⟩
    · simp
    · have hle := he.2.1
      have h0 := h.ack.1
      rw [ha]
      refine ⟨by omega, ?_⟩
      intro m hm
      rw [hl] at hm
      exact hok he m (by simpa [Op.given] using hm)
    · rw [ha]
      refine ⟨h0, ?_⟩
      intro m' hm'
      rw [hl] at hm'
      obtain rfl : m = m' := by simpa [Op.given] using hm'
      exact hn
    · rw [ha]
      refine ⟨h.ack.1, ?_⟩
      intro m hm
      rw [hl] at hm
      cases op with
      | offer x =>
        obtain rfl : x = m := by simpa [Op.given] using hm
        exact hok
      | restore x n r => exact absurd rfl (hr x n r)
      | _ => exact h.ack.2 m (by simpa [Op.given] using hm)

theorem QueueOk.accepted {phoneId : String} {q q' : OutboundQueue} {op : Op} {a : OutboundAction}
    (hp : phoneId ≠ "") (h : QueueOk phoneId q)
    (hg : ∀ m, op.given = some m → m.Sendable phoneId)
    (hq : q.apply op = some (q', some a)) : serveText phoneId (sendAction q' a) = .ok none := by
  have hs : a.snapshot.Sendable phoneId := by
    obtain ⟨m, hm, ha⟩ := apply_action hq
    have hm' := h.held_apply hg hq m hm
    rcases ha with rfl | ha
    · exact hm'
    · rw [ha]
      exact hm'.withType .update
  unfold sendAction
  split
  · rename_i hr
    obtain ⟨rfl, hm⟩ := apply_resume hq hr
    have hlatest : q.latest = some a.snapshot := by
      cases hl : q.latest with
      | some m => simpa [hl] using hm
      | none =>
        have hempty := h.latest hl
        have hin : a.snapshot ∈ q.messages := mem_messages.mpr (by
          rcases elvis_eq_some hm with hm | hm
          · exact Or.inl hm
          · exact Or.inr (elvis_eq_some hm))
        simp [hempty] at hin
    have hack : q'.lastAckSequence = q.lastAckSequence := by
      rcases apply_lastAck hq with rfl | ⟨ack, hop, -⟩ | ⟨m, n, r, hop, -⟩ | ⟨-, ha⟩
      · have := (onConnected_latest q).symm
        rw [hlatest] at this
        simp only [OutboundQueue.apply, Option.some.injEq] at hq
        simp [hq] at this
      · simp at hop
      · simp at hop
      · exact ha
    rw [hack]
    exact hs.resume_accepted hp h.ack.1 (h.ack.2 _ hlatest)
  · exact hs.accepted hp

structure WireInv (s : Phone) : Prop where
  phone : s.session.phoneId ≠ ""
  session : StateOk s.session.phoneId s.used s.session.state
  saved : ∀ p ∈ s.saved, StateOk s.session.phoneId s.used p.state
  queue : QueueOk s.session.phoneId s.q

theorem framesAccepted_of_nil {s : Phone} (h : s.sent = []) : s.FramesAccepted := by
  intro f hf
  simp [h] at hf

theorem WireInv.withHistory {s : Phone} (hI : s.WireInv) (sent : List Frame)
    (acked : List String) : WireInv { s with sent, acked } :=
  ⟨hI.phone, hI.session, hI.saved, hI.queue⟩

theorem queueOp_wire {s t : Phone} {op : Op} (hI : s.WireInv) (hF : s.FramesAccepted)
    (hg : ∀ m, op.given = some m → m.Sendable s.session.phoneId) (hok : OpOk s.q op)
    (h : s.queueOp op = some t) : t.WireInv ∧ t.FramesAccepted := by
  obtain ⟨⟨q', a⟩, hq, rfl⟩ := Option.map_eq_some_iff.mp h
  refine ⟨⟨hI.phone, hI.session, hI.saved, hI.queue.apply hg hok hq⟩, ?_⟩
  intro f hf
  rcases List.mem_append.mp hf with hf | hf
  · exact hF f hf
  · obtain ⟨x, hx, rfl⟩ := List.mem_map.mp hf
    obtain rfl : a = some x := by simpa using hx
    exact hI.queue.accepted hI.phone hg hq

theorem offerAll_wire {s t : Phone} {ms : List SnapshotMessage} (hI : s.WireInv)
    (hF : s.FramesAccepted)
    (hms : ∀ m ∈ ms, m.Sendable s.session.phoneId ∧ s.q.lastAckSequence ≤ m.sequence)
    (h : s.offerAll ms = some t) : t.WireInv ∧ t.FramesAccepted := by
  induction ms generalizing s with
  | nil =>
    obtain rfl : s = t := by simpa [offerAll] using h
    exact ⟨hI, hF⟩
  | cons m ms ih =>
    obtain ⟨u, hu, h⟩ := Option.bind_eq_some_iff.mp h
    have hm := hms m List.mem_cons_self
    have hI' : WireInv { s with first := noteStart s.first m } :=
      ⟨hI.phone, hI.session, hI.saved, hI.queue⟩
    have hg : ∀ x, (Op.offer m).given = some x → x.Sendable s.session.phoneId := by
      rintro x ⟨⟩
      exact hm.1
    obtain ⟨hIu, hFu⟩ := queueOp_wire hI' hF hg hm.2 hu
    refine ih hIu hFu ?_ h
    -- offering changes neither the session nor the recorded acknowledgement
    rw [offer, queueOp] at hu
    obtain ⟨⟨q', a⟩, hq, rfl⟩ := Option.map_eq_some_iff.mp hu
    obtain ⟨rfl, -⟩ : (s.q.offer m).1 = q' ∧ _ := by
      simpa [OutboundQueue.apply, Prod.ext_iff] using hq
    intro x hx
    have hx' := hms x (List.mem_cons_of_mem _ hx)
    exact ⟨hx'.1, by simpa using hx'.2⟩

theorem StateOk.opened {b s : InputSession} {used : List String} {m : SnapshotMessage}
    (h : StateOk b.phoneId used b.state) (hfresh : m.sessionId ∉ used) (hne : m.sessionId ≠ "")
    (hm : s.snapshot .start = some m)
    (hrep : s.replacementSessionId = b.replacementSessionId) (hseq : 0 < s.latestSequence)
    (hf : m.Fits) : StateOk s.phoneId (m.sessionId :: used) s.state := by
  obtain ⟨id, hid, rfl⟩ := Option.map_eq_some_iff.mp hm
  have hcancel := (cancel_encode_size_le _).trans (hf .start).1
  refine ⟨hseq.le, fun _ => hseq, ?_, ?_⟩
  · intro i hi
    obtain rfl : id = i := by simpa [InputSession.state, hid] using hi
    exact ⟨hne, List.mem_cons_self, hcancel⟩
  · intro r hr
    obtain ⟨h1, h2, -⟩ := h.replaced r (by simpa [InputSession.state, hrep] using hr)
    refine ⟨h1, List.mem_cons_of_mem _ h2, ?_⟩
    simp only [InputSession.state, hid, ne_eq, Option.some.injEq]
    rintro rfl
    exact hfresh h2

theorem WireInv.withSession {s : Phone} (hI : s.WireInv) (session : InputSession)
    (used : List String) (hu : ∀ id ∈ s.used, id ∈ used)
    (hphone : session.phoneId = s.session.phoneId)
    (hs : StateOk session.phoneId used session.state) : WireInv { s with session, used } := by
  refine ⟨?_, hs, ?_, ?_⟩
  · rw [hphone]
    exact hI.phone
  · intro p hp
    rw [hphone]
    exact (hI.saved p hp).mono hu
  · rw [hphone]
    exact hI.queue

theorem finish_wire {s s' : InputSession} {used : List String} {m : SnapshotMessage}
    (h : StateOk s.phoneId used s.state) (hr : s.finish = some (s', some m)) (hf : m.Fits) :
    s'.phoneId = s.phoneId ∧ StateOk s.phoneId used s'.state ∧ m.Sendable s.phoneId := by
  rcases InputSession.finish_spec hr with ⟨-, hm, -⟩ | ⟨id, hid, hs', hm⟩
  · simp at hm
  · have hpos : 0 < s.latestSequence := h.positive (by simp [InputSession.state, hid])
    have hne : s.latestSequence ≠ 0 := by omega
    simp only [Option.some.injEq] at hm
    subst hs'
    subst hm
    refine ⟨rfl, ⟨?_, ?_, h.id, h.replaced⟩, ⟨rfl, rfl, (h.id id hid).1, by simp, ?_, hf⟩⟩
    · simpa [InputSession.state, hne] using hpos.le
    · simpa [InputSession.state, hne] using fun _ => hpos
    · simpa [hne] using hpos

/-- An event whose session changes as described and whose offered snapshots are
sendable keeps invariant and acceptance. -/
theorem session_wire {s t : Phone} {session : InputSession} {used : List String}
    {ms : List SnapshotMessage} (hI : s.WireInv) (hs : s.sent = [])
    (hu : ∀ id ∈ s.used, id ∈ used) (hphone : session.phoneId = s.session.phoneId)
    (hst : StateOk session.phoneId used session.state)
    (hms : ∀ m ∈ ms, m.Sendable s.session.phoneId ∧ s.q.lastAckSequence ≤ m.sequence)
    (h : offerAll { s with session, used } ms = some t) : t.WireInv ∧ t.FramesAccepted := by
  refine offerAll_wire (hI.withSession session used hu hphone hst) (framesAccepted_of_nil hs) ?_ h
  intro m hm
  obtain ⟨h1, h2⟩ := hms m hm
  exact ⟨by rw [hphone]; exact h1, h2⟩

theorem onTextChanged_wire {s t : Phone} {text newId : String} {b : Bool} {session : InputSession}
    {o : Option SnapshotMessage} (hI : s.WireInv) (hs : s.sent = []) (hfresh : s.Fresh newId)
    (hr : s.session.onTextChanged text b newId = some (session, o))
    (hok : ∀ m ∈ o, m.Fits ∧ s.q.lastAckSequence ≤ m.sequence)
    (h : offerAll { s with session, used := newId :: s.used } o.toList = some t) :
    t.WireInv ∧ t.FramesAccepted := by
  have hu : ∀ id ∈ s.used, id ∈ newId :: s.used := fun id hid => List.mem_cons_of_mem _ hid
  have hst := hI.session
  have h0 := hst.sequence
  simp only [InputSession.state] at h0
  rcases InputSession.onTextChanged_spec hr with ⟨rfl, hs', -⟩ | ⟨-, ho, hs'⟩ | ⟨hid, ho, hs'⟩
  · refine session_wire hI hs hu (by rw [hs']) ?_ (by simp) h
    rw [hs']
    exact ⟨hst.sequence, hst.positive, (hst.mono hu).id, (hst.mono hu).replaced⟩
  · obtain ⟨m, hm⟩ : ∃ m, session.snapshot .start = some m := by
      simp [hs', InputSession.snapshot]
    obtain ⟨hmid, -, -⟩ := snapshot_some hm
    obtain rfl : newId = m.sessionId := by simpa [hs'] using hmid
    obtain ⟨hfit, hack⟩ := hok m (by rw [ho, hm]; rfl)
    have hphone : session.phoneId = s.session.phoneId := by rw [hs']
    have hopen := hst.opened hfresh.1 hfresh.2 hm (by rw [hs']) (by rw [hs']; dsimp only; omega) hfit
    refine session_wire hI hs hu hphone hopen ?_ h
    intro x hx
    obtain rfl : x = m := by simpa [ho, hm] using hx
    rw [← hphone]
    exact ⟨hopen.sendable hm hfit, hack⟩
  · obtain ⟨id, hid⟩ := Option.ne_none_iff_exists'.mp hid
    have hphone : session.phoneId = s.session.phoneId := by rw [hs']
    have hst' : StateOk session.phoneId (newId :: s.used) session.state := by
      rw [hs']
      refine ⟨?_, ?_, (hst.mono hu).id, (hst.mono hu).replaced⟩
      · simp only [InputSession.state]
        omega
      · intro _
        simp only [InputSession.state]
        omega
    refine session_wire hI hs hu hphone hst' ?_ h
    intro x hx
    have hx' : o = some x := by simpa using hx
    obtain ⟨hfit, hack⟩ := hok x hx'
    rw [← hphone]
    exact ⟨hst'.sendable (by rw [← ho]; exact hx') hfit, hack⟩

theorem startLocalDraft_wire {s t : Phone} {attach : Bool} {newId : String} (hI : s.WireInv)
    (hs : s.sent = []) (hfresh : s.Fresh newId)
    (hok : ∀ m ∈ (s.session.startLocalDraft attach newId).2,
      m.Fits ∧ s.q.lastAckSequence ≤ m.sequence)
    (h : offerAll
      { s with session := (s.session.startLocalDraft attach newId).1, used := newId :: s.used }
      (s.session.startLocalDraft attach newId).2.toList = some t) :
    t.WireInv ∧ t.FramesAccepted := by
  have hu : ∀ id ∈ s.used, id ∈ newId :: s.used := fun id hid => List.mem_cons_of_mem _ hid
  rcases InputSession.startLocalDraft_spec s.session attach newId with hd | ⟨-, -, h1, h2⟩
  · rw [hd] at h
    exact session_wire hI hs hu rfl (hI.session.mono hu) (by simp) h
  · rw [h2] at h hok
    generalize (s.session.startLocalDraft attach newId).1 = session at h1 h hok
    obtain ⟨m, hm⟩ : ∃ m, session.snapshot .start = some m := by
      simp [h1, InputSession.snapshot]
    obtain ⟨hmid, -, -⟩ := snapshot_some hm
    obtain rfl : newId = m.sessionId := by simpa [h1] using hmid
    obtain ⟨hfit, hack⟩ := hok m hm
    have hphone : session.phoneId = s.session.phoneId := by rw [h1]
    have hopen := hI.session.opened hfresh.1 hfresh.2 hm (by rw [h1]) (by simp [h1]) hfit
    refine session_wire hI hs hu hphone hopen ?_ h
    intro x hx
    obtain rfl : x = m := by simpa [hm] using hx
    rw [← hphone]
    exact ⟨hopen.sendable hm hfit, hack⟩

theorem StateOk.replacement {s : InputSession} {used : List String}
    (h : StateOk s.phoneId used s.state) (text : String) :
    StateOk s.phoneId used (s.resetForReplacement text).state := by
  refine ⟨le_rfl, fun hn => absurd rfl hn, by simp [InputSession.state,
    InputSession.resetForReplacement, InputSession.reset], ?_⟩
  intro id hid
  rcases elvis_eq_some hid with hid | hid
  · obtain ⟨h1, h2, -⟩ := h.id id hid
    exact ⟨h1, h2, by simp [InputSession.state, InputSession.resetForReplacement,
      InputSession.reset]⟩
  · obtain ⟨h1, h2, -⟩ := h.replaced id hid
    exact ⟨h1, h2, by simp [InputSession.state, InputSession.resetForReplacement,
      InputSession.reset]⟩

theorem restartAtCurrentCursor_wire {s t : Phone} {newId : String} {session : InputSession}
    {ms : List SnapshotMessage} (hI : s.WireInv) (hs : s.sent = []) (hfresh : s.Fresh newId)
    (hr : s.session.restartAtCurrentCursor newId = some (session, ms))
    (hok : ∀ m ∈ ms, m.Fits ∧ s.q.lastAckSequence ≤ m.sequence)
    (h : offerAll { s with session, used := newId :: s.used } ms = some t) :
    t.WireInv ∧ t.FramesAccepted := by
  have hu : ∀ id ∈ s.used, id ∈ newId :: s.used := fun id hid => List.mem_cons_of_mem _ hid
  have hrep := hI.session.replacement s.session.currentText
  rcases InputSession.restartAtCurrentCursor_spec hr with ⟨rfl, hs'⟩ | ⟨start, s₁, hs₁, hst, hms⟩
  · refine session_wire hI hs hu (by rw [hs']; rfl) ?_ (by simp) h
    rw [hs']
    exact hrep.mono hu
  · obtain ⟨hmid, -, -⟩ := snapshot_some hst
    obtain rfl : newId = start.sessionId := by simpa [hs₁] using hmid
    have hphone₁ : s₁.phoneId = s.session.phoneId := by
      rw [hs₁]
      rfl
    have hstart : start ∈ ms := by
      rcases hms with ⟨rfl, -⟩ | ⟨_, -, rfl⟩
      · exact List.mem_cons_self
      · exact List.mem_cons_self
    have hfit := (hok start hstart).1
    have hopen : StateOk s₁.phoneId (start.sessionId :: s.used) s₁.state :=
      StateOk.opened (b := s.session.resetForReplacement s.session.currentText) hrep hfresh.1
        hfresh.2 hst (by rw [hs₁]) (by simp [hs₁]) hfit
    rcases hms with ⟨rfl, rfl⟩ | ⟨finish, hfin, rfl⟩
    · refine session_wire hI hs hu hphone₁ hopen ?_ h
      intro x hx
      obtain rfl : x = start := by simpa using hx
      rw [← hphone₁]
      exact ⟨hopen.sendable hst hfit, (hok x hstart).2⟩
    · have hfin' := finish_wire hopen hfin (hok finish (by simp)).1
      obtain ⟨hphone, hst', hsend⟩ := hfin'
      refine session_wire hI hs hu (hphone.trans hphone₁) (by rw [hphone]; exact hst') ?_ h
      intro x hx
      refine ⟨?_, (hok x hx).2⟩
      rw [← hphone₁]
      rcases List.mem_cons.mp hx with rfl | hx
      · exact hopen.sendable hst hfit
      · obtain rfl : x = finish := by simpa using hx
        exact hsend

/-- An acknowledgement changes neither identifier nor sequence and at most
clears the replaced session. -/
theorem StateOk.acknowledge {s : InputSession} {used : List String}
    (h : StateOk s.phoneId used s.state) (ack : AckMessage) :
    (s.acknowledge ack).phoneId = s.phoneId ∧ StateOk s.phoneId used (s.acknowledge ack).state := by
  have hkeep : ∀ s' : InputSession, s'.phoneId = s.phoneId → s'.sessionId = s.sessionId →
      s'.latestSequence = s.latestSequence →
      (s'.replacementSessionId = s.replacementSessionId ∨ s'.replacementSessionId = none) →
      s'.phoneId = s.phoneId ∧ StateOk s.phoneId used s'.state := by
    intro s' hp hid hseq hrep
    refine ⟨hp, ⟨?_, ?_, ?_, ?_⟩⟩
    · simpa [InputSession.state, hseq] using h.sequence
    · simpa [InputSession.state, hseq, hid] using h.positive
    · simpa [InputSession.state, hid] using h.id
    · rcases hrep with hrep | hrep
      · simpa [InputSession.state, hid, hrep] using h.replaced
      · simp [InputSession.state, hrep]
  unfold InputSession.acknowledge
  dsimp only
  split
  · exact hkeep s rfl rfl rfl (Or.inl rfl)
  · split <;> split <;> exact hkeep _ rfl rfl rfl (by simp)

theorem step_wire {s t : Phone} {e : Event} (hI : s.WireInv) (hok : s.WireOk e)
    (h : s.step e = some t) : t.WireInv ∧ t.FramesAccepted := by
  have hI₀ := hI.withHistory [] s.acked
  have hF₀ : FramesAccepted { s with sent := [] } := framesAccepted_of_nil rfl
  obtain ⟨hfit, hok⟩ := hok
  cases e with
  | onTextChanged text b newId =>
    simp only [step] at h
    split at h
    · rename_i hf
      obtain ⟨⟨session, o⟩, hr, h⟩ := Option.bind_eq_some_iff.mp h
      simp only [offers, hr, Option.elim_some, Option.mem_toList] at hfit hok
      exact onTextChanged_wire hI₀ rfl hf hr (fun m hm => ⟨hfit m hm, hok m hm⟩) h
    · simp at h
  | finish =>
    obtain ⟨⟨session, o⟩, hr, h⟩ := Option.bind_eq_some_iff.mp h
    have hr' : s.session.finish = some (session, o) := hr
    simp only [offers, hr', Option.elim_some, Option.mem_toList] at hfit hok
    cases o with
    | none =>
      rcases InputSession.finish_spec hr' with ⟨-, -, hs'⟩ | ⟨_, -, -, hm⟩
      · exact session_wire hI₀ rfl (fun _ h => h) (by rw [hs']) (by rw [hs']; exact hI.session)
          (by simp) h
      · simp at hm
    | some m =>
      obtain ⟨hphone, hst, hsend⟩ := finish_wire hI.session hr' (hfit m rfl)
      refine session_wire hI₀ rfl (fun _ h => h) hphone (by rw [hphone]; exact hst) ?_ h
      intro x hx
      obtain rfl : x = m := by simpa using hx
      exact ⟨hsend, hok x rfl⟩
  | startLocalDraft attach newId =>
    simp only [step] at h
    split at h
    · rename_i hf
      simp only [offers, Option.mem_toList] at hfit hok
      exact startLocalDraft_wire hI₀ rfl hf (fun m hm => ⟨hfit m hm, hok m hm⟩) h
    · simp at h
  | restartAtCurrentCursor newId =>
    simp only [step] at h
    split at h
    · rename_i hf
      obtain ⟨⟨session, ms⟩, hr, h⟩ := Option.bind_eq_some_iff.mp h
      simp only [offers, hr, Option.elim_some] at hfit hok
      exact restartAtCurrentCursor_wire hI₀ rfl hf hr (fun m hm => ⟨hfit m hm, hok m hm⟩) h
    · simp at h
  | resetForReplacement text =>
    obtain rfl : _ = t := by simpa [step] using h
    exact ⟨hI₀.withSession _ s.used (fun _ h => h) rfl (hI.session.replacement text),
      framesAccepted_of_nil rfl⟩
  | replaceLocalDraft text =>
    obtain ⟨session, hr, rfl⟩ := Option.map_eq_some_iff.mp h
    refine ⟨?_, framesAccepted_of_nil rfl⟩
    unfold InputSession.replaceLocalDraft at hr
    split at hr
    · simp at hr
    · obtain rfl : _ = session := by simpa using hr
      have hst := hI.session
      exact hI₀.withSession _ s.used (fun _ h => h) rfl
        ⟨hst.sequence, hst.positive, hst.id, hst.replaced⟩
  | reset =>
    obtain rfl : _ = t := by simpa [step] using h
    refine ⟨hI₀.withSession _ s.used (fun _ h => h) rfl ?_, framesAccepted_of_nil rfl⟩
    exact ⟨le_rfl, fun hn => absurd rfl hn, by simp [InputSession.reset, InputSession.state],
      by simp [InputSession.reset, InputSession.state]⟩
  | abandonSession =>
    simp only [step] at h
    split at h
    · obtain rfl : _ = t := by simpa using h
      exact ⟨hI₀, hF₀⟩
    · rename_i id hid
      refine queueOp_wire (hI.withHistory _ s.acked) ?_ (by simp [Op.given]) (by trivial) h
      intro f hf
      dsimp only at hf
      split at hf
      · obtain rfl : f = _ := by simpa using hf
        obtain ⟨h1, -, h3⟩ := hI.session.id id hid
        exact cancel_accepted hI.phone h1 h3
      · simp at hf
  | save r =>
    simp only [step] at h
    split at h
    · obtain rfl : _ = t := by simpa using h
      refine ⟨⟨hI.phone, hI.session, ?_, hI.queue⟩, hF₀⟩
      intro p hp
      rcases List.mem_cons.mp hp with rfl | hp
      · exact hI.session
      · exact hI.saved p hp
    · simp at h
  | restore p =>
    simp only [step] at h
    split at h
    · rename_i hp
      obtain ⟨session, hr, rfl⟩ := Option.map_eq_some_iff.mp h
      obtain ⟨hphone, hst⟩ := InputSession.restore_state hr
      refine ⟨hI₀.withSession session s.used (fun _ h => h) hphone ?_, framesAccepted_of_nil rfl⟩
      rw [hst, hphone]
      exact hI.saved p hp
    · simp at h
  | restoreQueue p =>
    simp only [step] at h
    split at h
    · split at h
      · obtain rfl : _ = t := by simpa using h
        exact ⟨hI₀, hF₀⟩
      · rename_i m hm
        have hm' : s.session.recoverySnapshot = some m := hm
        have hf : m.Fits := hfit m (by simp [offers, hm'])
        have hg : ∀ x, (Op.restore m p.state.acknowledgedSequence p.remoteStarted).given = some x →
            x.Sendable s.session.phoneId := by
          rintro x ⟨⟩
          exact hI.session.sendable hm' hf
        exact queueOp_wire hI₀ hF₀ hg trivial h
    · simp at h
  | newProcess =>
    obtain rfl : _ = t := by simpa [step] using h
    refine ⟨⟨hI.phone, ?_, hI.saved, QueueOk.empty _ false⟩, framesAccepted_of_nil rfl⟩
    exact ⟨le_rfl, fun hn => absurd rfl hn, by simp [InputSession.state],
      by simp [InputSession.state]⟩
  | queue op =>
    have hg : op.given = none ∧ OpOk s.q op ∧ queueOp { s with sent := [] } op = some t := by
      cases op <;> simp_all [step, Op.given, OpOk]
    exact queueOp_wire hI₀ hF₀ (by simp [hg.1]) hg.2.1 hg.2.2
  | ackQueue ack =>
    simp only [step] at h
    split at h
    · exact queueOp_wire (hI.withHistory [] _) (framesAccepted_of_nil rfl) (by simp [Op.given])
        (by exact hok) h
    · obtain rfl : _ = t := by simpa using h
      exact ⟨hI₀, hF₀⟩
  | ackSession ack =>
    simp only [step] at h
    split at h
    · obtain rfl : _ = t := by simpa using h
      obtain ⟨hphone, hst⟩ := hI.session.acknowledge ack
      exact ⟨hI₀.withSession _ s.used (fun _ h => h) hphone (by rw [hphone]; exact hst),
        framesAccepted_of_nil rfl⟩
    · simp at h

/-- From a fresh phone, in every run whose events all meet `WireOk`, every frame
the phone sends is accepted. -/
theorem sent_frames_accepted (phoneId : String) (es : List Event) (hp : phoneId ≠ "")
    (h : Along step WireOk { session := { phoneId } } es) :
    Always step FramesAccepted { session := { phoneId } } es := by
  refine always_of_along WireInv es ?_ (framesAccepted_of_nil rfl) ?_ h
  · refine ⟨hp, ?_, by simp, QueueOk.empty phoneId false⟩
    exact ⟨le_rfl, fun hn => absurd rfl hn, by simp [InputSession.state],
      by simp [InputSession.state]⟩
  · intro s e t hI hok hs
    exact step_wire hI hok hs

/-- A phone that connects and types one letter. -/
def typedLetterEvents : List Event := [.queue .onConnected, .onTextChanged "a" true "s1"]

theorem typed_letter_accepted :
    Always step FramesAccepted { session := { phoneId := "phone" } } typedLetterEvents :=
  sent_frames_accepted "phone" typedLetterEvents (by decide) (by decide +kernel)

/-- The draft of sequence 1 is restored after sequence 2 was acknowledged: the
injector answers with its own sequence, which the next resume sends back. -/
def resumeRejectedEvents : List Event :=
  [.queue .onConnected, .onTextChanged "a" true "s1",
    .ackQueue ⟨"s1", 1, .active⟩, .ackSession ⟨"s1", 1, .active⟩, .save true,
    .onTextChanged "ab" true "s2", .ackQueue ⟨"s1", 2, .active⟩, .newProcess,
    .restore ⟨⟨some "s1", "a", 1, 1, false, none, false⟩, true⟩,
    .restoreQueue ⟨⟨some "s1", "a", 1, 1, false, none, false⟩, true⟩,
    .queue .onConnected, .ackQueue ⟨"s1", 2, .active⟩, .queue .onDisconnected,
    .queue .onConnected]

theorem resume_rejected :
    ¬ Always step FramesAccepted { session := { phoneId := "phone" } } resumeRejectedEvents := by
  decide +kernel

end Phone

end FlowType
