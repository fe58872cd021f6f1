import FlowType.ControlConnections

/-! What a phone can still do after it has been unpaired: the branches for text and images
do not look at the phone store, those for file messages and data requests do. -/
namespace FlowType

namespace FileTransferCoordinator

def asksTicket : Option FileClientMessage → Bool
  | some (.fileOffer _) => true
  | some (.fileDecision decision) => decision.accepted
  | _ => false

theorem acceptDecision_refused {s s' : FileTransferCoordinator} {decision : FileDecision}
    {phoneId token : String} {now : Nat} {reply : Option FileServerMessage}
    (hrefused : decision.accepted = false)
    (h : s.acceptDecision decision phoneId token now = .ok (s', reply)) :
    reply.any FileServerMessage.isTicket = false := by
  unfold acceptDecision at h
  split_ifs at h
  split at h
  · cases h
  · split_ifs at h
    · cases h
      rfl
    · cases hcancel : s.cancel decision.batchId phoneId now with
      | error code =>
        rw [hcancel] at h
        cases h
      | ok cancelled =>
        rw [hcancel] at h
        cases h
        rfl

theorem asksTicket_of_isTicket {s : FileTransferCoordinator} {batchId : String}
    {message : Option FileClientMessage} {phoneId : String} {busy : Bool} {token : String}
    {now : Nat} (h : (s.handleControl batchId message phoneId busy token now).2.any
      FileServerMessage.isTicket = true) : asksTicket message = true := by
  cases message with
  | none =>
    have hrefused : false = true := h
    cases hrefused
  | some message =>
    cases message with
    | fileOffer offer => rfl
    | fileDecision decision =>
      cases haccepted : decision.accepted with
      | true => exact haccepted
      | false =>
        rw [handleControl_fileDecision] at h
        split at h
        · next r hr =>
          rw [acceptDecision_refused haccepted hr] at h
          cases h
        · cases h
    | fileCancel cancel =>
      dsimp only [handleControl] at h
      split at h
      · next r hr =>
        split_ifs at hr
        cases hcancel : s.cancel cancel.batchId phoneId now with
        | error code =>
          rw [hcancel] at hr
          cases hr
        | ok cancelled =>
          rw [hcancel] at hr
          cases hr
          cases h
      · cases h

end FileTransferCoordinator

namespace AppState
open Machine

/-- A phone that was unpaired is not behind a request, an image, a change of a batch or a
ticket, no data request is let through for a phone that is not paired, and a phone is added
with a token only. -/
def UnpairedEffect : Effect → Prop
  | .request sender _ => sender.revoked = false
  | .clipboard _ bytes _ => bytes.revoked = false
  | .transfers sender => sender.revoked = false
  | .ticket _ revoked => revoked = false
  | .authorized _ paired => paired = true
  | .added _ drawn => drawn = true
  | _ => True

def UnpairedSilent (s : AppState) : Prop := ∀ effect ∈ s.effects, UnpairedEffect effect

def TextFrame.isProbe (phoneId : String) : TextFrame → Bool
  | .probe (some probe) => probe.validate = .ok () ∧ probe.phoneId = phoneId
  | _ => false

def TextFrame.isFile : TextFrame → Bool
  | .file _ _ => true
  | _ => false

def Work.asksTicket : Work → Bool
  | .file _ message => FileTransferCoordinator.asksTicket message
  | _ => false

/-- A connection that had authenticated before its phone was unpaired, and that has not
been superseded, sends no session input, no probe and no bytes that match its image, sends
file messages only while the phone is not paired, and was not waiting with an offer or an
accepted decision. -/
def UnpairedOk (s : AppState) : Event → Prop
  | .receive id frame _ _ => ∀ c ∈ s.idleConnection id, c.revoked = true →
    s.superseded id c = false → TextFrame.isInput frame = false ∧
      TextFrame.isProbe c.phoneId frame = false ∧
      (TextFrame.isFile frame = true → s.paired c = false)
  | .receiveBytes id bytes _ => ∀ c ∈ s.idleConnection id, c.revoked = true →
    s.superseded id c = false → ∀ image ∈ c.pendingImage, image.1.matchesBytes bytes = false
  | .handleFile id _ _ _ _ => ∀ c ∈ s.connections id, c.revoked = true →
    ∀ w ∈ c.work, Work.asksTicket w.1 = false
  | _ => True

instance (s : AppState) (e : Event) : Decidable (s.UnpairedOk e) := by
  apply Event.casesOn (motive := fun e => Decidable (s.UnpairedOk e)) e <;> intros <;>
    unfold UnpairedOk <;> infer_instance

def pairedMarks : Marks where
  input sender := sender.revoked = false
  probe sender := sender.revoked = false
  header _ := True
  file sender := sender.revoked = false

theorem pairedMarks_admits {s : AppState} {id : Nat} {c : ServedConnection} {frame : TextFrame}
    (h : c.revoked = true → TextFrame.isInput frame = false ∧
      TextFrame.isProbe c.phoneId frame = false ∧
      (TextFrame.isFile frame = true → s.paired c = false)) :
    pairedMarks.Admits (s.sender id c) c.phoneId (s.paired c) frame := by
  cases hrevoked : c.revoked with
  | false =>
    unfold Marks.Admits
    split
    · exact hrevoked
    · exact fun _ _ => hrevoked
    · trivial
    · exact fun _ => hrevoked
    · trivial
  | true =>
    obtain ⟨hinput, hprobe, hfile⟩ := h hrevoked
    unfold Marks.Admits
    split
    · cases hinput
    · next probe =>
      intro hvalid hphone
      have hsent : TextFrame.isProbe c.phoneId (.probe (some probe)) = true :=
        decide_eq_true ⟨hvalid, hphone⟩
      rw [hsent] at hprobe
      cases hprobe
    · trivial
    · intro hpaired
      rw [hfile rfl] at hpaired
      cases hpaired
    · trivial

theorem unpairedEffect_of_explained {s : AppState} {e : Event} {effect : Effect}
    (hok : s.UnpairedOk e) (h : Explained pairedMarks s e effect) : UnpairedEffect effect := by
  cases effect with
  | request sender request =>
    rcases h with hinput | ⟨-, hprobe⟩
    · exact hinput
    · exact hprobe
  | clipboard header bytes image =>
    obtain ⟨-, id, frame, delivered, c, rfl, hidle, hcurrent, rfl, hpending, hmatches⟩ := h
    by_contra hrevoked
    have hbytes := hok c hidle (eq_true_of_ne_false hrevoked) hcurrent
    have hrefused := hbytes (image, header) hpending
    rw [hmatches] at hrefused
    cases hrefused
  | ticket phoneId revoked =>
    obtain ⟨id, busy, token, now, delivered, c, batchId, message, sender, rfl, hconnection, hwork,
      rfl, rfl, hticket⟩ := h
    by_contra hrevoked
    have hrefused : FileTransferCoordinator.asksTicket message = false :=
      hok c hconnection (eq_true_of_ne_false hrevoked) _ hwork
    rw [FileTransferCoordinator.asksTicket_of_isTicket hticket] at hrefused
    cases hrefused
  | transfers sender => exact h
  | authorized phoneId paired => exact h
  | added phoneId drawn => exact h
  | claim sender previous => trivial
  | sessionState id sessionId elsewhere => trivial

theorem step_unpairedSilent {verify : Verifier} {s t : AppState} {e : Event}
    (h : s.Marked pairedMarks) (hok : s.UnpairedOk e) (hstep : step verify s e = some t) :
    t.Marked pairedMarks ∧ t.UnpairedSilent := by
  have htraced := step_traced h (by
    rintro id frame delivered now rfl c hidle hcurrent
    exact pairedMarks_admits fun hrevoked => hok c hidle hrevoked hcurrent) hstep
  exact ⟨htraced.marked, fun effect hmem =>
    unpairedEffect_of_explained hok (htraced.effects effect hmem)⟩

/-- Unpairing revokes at once in the runs in which the open connections of the phone send
nothing that is let through without a look at the phone store. -/
theorem unpaired_silent (verify : Verifier) (pcId : String) (pairedPhones : PairedPhones)
    (batches : KeyedTable BatchRecord.batchId) (es : List Event)
    (h : Along (step verify) UnpairedOk (start pcId pairedPhones batches) es) :
    Always (step verify) UnpairedSilent (start pcId pairedPhones batches) es := by
  have hstart := start_marked pairedMarks pcId pairedPhones batches
  have hsilent : (start pcId pairedPhones batches).UnpairedSilent := by
    rintro _ ⟨⟩
  apply always_of_along (Marked pairedMarks) es hstart hsilent _ h
  intro s e t hmarked hok hstep
  exact step_unpairedSilent hmarked hok hstep

/-- The phone is unpaired, and a file message of its connection is refused. -/
def unpairedFileRun : List Event :=
  [.authenticate (knownAuth none) "n", .write 2 true, .removePhone "phone" true, .revokePhone 3,
    .receive 1 (.healthCheck (some { phoneId := "phone" })) true 4,
    .receive 1 (.file "b" (some (.fileCancel { batchId := "b" }))) true 4]

theorem unpaired_silent_file :
    Along (step fun _ _ _ => .ok ()) UnpairedOk (start "pc" knownPhone .empty)
        unpairedFileRun ∧
      Always (step fun _ _ _ => .ok ()) UnpairedSilent (start "pc" knownPhone .empty)
        unpairedFileRun := by
  have h : Along (step fun _ _ _ => .ok ()) UnpairedOk (start "pc" knownPhone .empty)
      unpairedFileRun := by decide
  exact ⟨h, unpaired_silent _ _ _ _ _ h⟩

/-- The phone is unpaired, and its connection starts a session. -/
def unpairedStartRun : List Event :=
  let snapshot : SnapshotMessage :=
    { type := .start, phoneId := "phone", sessionId := "s", sequence := 1, fullText := "a" }
  [.authenticate (knownAuth none) "n", .write 2 true, .removePhone "phone" true, .revokePhone 3,
    .receive 1 (.client (some (.start snapshot))) true 4, .submit 1]

theorem unpairedStartRun_not_silent : ¬ Always (step fun _ _ _ => .ok ()) UnpairedSilent
    (start "pc" knownPhone .empty) unpairedStartRun := by
  intro h
  have hlast := h.last unpairedStartRun rfl
  have hrevoked := hlast (.request ⟨1, false, false, true⟩ (.beginSession "s" none 1 "a" false))
    (by decide)
  cases hrevoked

end AppState

end FlowType
