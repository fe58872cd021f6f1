import FlowType.ServeConnection

/-! Who is behind what the desktop app does for its connections: a step keeps the senders of
the messages that it has let through, and explains each of its effects by one of them or by
the event itself. -/
namespace FlowType

namespace AppState

/-- Which senders may be behind session input, a probe, the header of an image and a file
message. -/
structure Marks where
  input : Sender → Prop
  probe : Sender → Prop
  header : Sender → Prop
  file : Sender → Prop

/-- A frame that may be let through on a connection of the phone; `paired` says that the
phone is paired now. -/
def Marks.Admits (m : Marks) (sender : Sender) (phoneId : String) (paired : Bool) :
    TextFrame → Prop
  | .client (some _) => m.input sender
  | .probe (some probe) => probe.validate = .ok () → probe.phoneId = phoneId → m.probe sender
  | .imageStart (some _) => m.header sender
  | .file _ _ => paired = true → m.file sender
  | _ => True

def Marks.Doing (m : Marks) (sender : Sender) : Work → Prop
  | .message _ _ _ => m.input sender
  | .probe _ => m.probe sender
  | .file _ _ => m.file sender
  | _ => True

structure Marks.Fits (m : Marks) (c : ServedConnection) : Prop where
  work : ∀ w ∈ c.work, m.Doing w.2 w.1
  session : ∀ session ∈ c.inputSession, m.input session.2
  image : ∀ image ∈ c.pendingImage, m.header image.2

structure Drawn (a : Authenticator) (tokens : List String) : Prop where
  slot : ∀ token ∈ a.pairingToken, token ∈ tokens
  attempt : ∀ next ∈ a.attempt, ∀ token ∈ Attempt.Next.token? next, token ∈ tokens

structure Marked (m : Marks) (s : AppState) : Prop where
  connections : ∀ id c, s.connections id = some c → m.Fits c
  timers : ∀ id timer, s.timers id = some timer → m.input timer.sender
  drawn : Drawn s.authenticator s.tokens

def paired (s : AppState) (c : ServedConnection) : Bool :=
  (s.authenticator.pairedPhones.publicKey c.phoneId).isSome

def Explained (m : Marks) (s : AppState) (e : Event) : Effect → Prop
  | .request sender request => m.input sender ∨ (request = .probeTarget ∧ m.probe sender)
  | .clipboard header bytes image => m.header header ∧ ∃ id frame delivered c,
    e = .receiveBytes id frame delivered ∧ s.idleConnection id = some c ∧
      s.superseded id c = false ∧ bytes = s.sender id c ∧
      c.pendingImage = some (image, header) ∧ image.matchesBytes frame = true
  | .claim sender previous => previous = s.active ∧ ∃ id c, s.idleConnection id = some c ∧
    c.lease = false ∧ sender = s.sender id c ∧
      ((∃ frame delivered now, e = .receive id frame delivered now ∧
        frame.isControlMessage = false) ∨
      ∃ frame delivered, e = .receiveBytes id frame delivered)
  | .sessionState id sessionId elsewhere => ∃ result delivered c sender,
    e = .answer id result delivered ∧ s.connections id = some c ∧
      c.work = some (.poll sessionId true, sender) ∧
      (∀ a b d, result ≠ .ok (.sessionActive a b d)) ∧
      elsewhere = (s.superseded id c && s.activeTracks sessionId)
  | .transfers sender => m.file sender
  | .ticket phoneId revoked => ∃ id busy token now delivered c batchId message sender,
    e = .handleFile id busy token now delivered ∧ s.connections id = some c ∧
      c.work = some (.file batchId message, sender) ∧ phoneId = c.phoneId ∧
      revoked = c.revoked ∧
      (s.transfers.handleControl batchId message c.phoneId busy token now).2.any
        FileServerMessage.isTicket = true
  | .authorized _ paired => paired = true
  | .added _ drawn => drawn = true

theorem Drawn.beginPairing {a : Authenticator} {tokens : List String} (h : Drawn a tokens)
    (token : String) : Drawn (a.beginPairing token) (token :: tokens) := by
  constructor
  · rintro _ ⟨⟩
    exact List.mem_cons_self
  · intro next hnext other hother
    exact List.mem_cons_of_mem _ (h.attempt next hnext other hother)

theorem Drawn.cancelPairing {a : Authenticator} {tokens : List String} (h : Drawn a tokens) :
    Drawn a.cancelPairing tokens :=
  ⟨(fun _ hslot => by cases hslot), h.attempt⟩

theorem Drawn.removePhone {a : Authenticator} {tokens : List String} (h : Drawn a tokens)
    (phoneId : String) (saved : Bool) : Drawn (a.removePhone phoneId saved) tokens := by
  unfold Authenticator.removePhone
  split
  · exact ⟨h.slot, h.attempt⟩
  · exact h

theorem Drawn.check {verify : Verifier} {a a' : Authenticator} {tokens : List String}
    {auth : AuthMessage} {nonce : String} (h : Drawn a tokens)
    (hcheck : a.check verify auth nonce = .ok a') : Drawn a' tokens := by
  rcases PairingRun.check_ok hcheck with ⟨supplied, publicKey, hslot, rfl⟩ | rfl
  · constructor
    · rintro _ ⟨⟩
    · rintro _ ⟨⟩ _ ⟨⟩
      exact h.slot supplied hslot
  · refine ⟨h.slot, ?_⟩
    rintro _ ⟨⟩ _ ⟨⟩

theorem Drawn.restore {a a' : Authenticator} {tokens : List String} (h : Drawn a tokens)
    (hrestore : a.restore = some a') : Drawn a' tokens := by
  unfold Authenticator.restore at hrestore
  split at hrestore
  · next supplied hattempt =>
    cases hrestore
    refine ⟨?_, fun _ hnext => by cases hnext⟩
    intro token htoken
    dsimp only at htoken
    split at htoken
    · cases htoken
      exact h.attempt _ hattempt _ rfl
    · exact h.slot token htoken
  · cases hrestore

/-- A write keeps the tokens, and it lets a phone in that is paired or has a token. -/
theorem Drawn.write {a : Authenticator} {tokens : List String} {next : Attempt.Next} {now : Nat}
    {saved : Bool} {r : Authenticator × Option (Except String Unit)} (h : Drawn a tokens)
    (hattempt : a.attempt = some next) (hwrite : a.write now saved = some r) :
    Drawn r.1 tokens ∧ ∀ auth, Attempt.Next.auth? next = some auth → r.2 = some (.ok ()) →
      a.pairedPhones auth.phoneId = none →
        (Attempt.Next.token? next).any tokens.contains = true := by
  have hnone : ∀ phones, Drawn { a with pairedPhones := phones, attempt := none } tokens :=
    fun _ => ⟨h.slot, fun _ hnext => by cases hnext⟩
  unfold Authenticator.write at hwrite
  rw [hattempt] at hwrite
  cases next with
  | upsert auth supplied publicKey =>
    have hsupplied : supplied ∈ tokens := h.attempt _ hattempt supplied rfl
    have htoken : (Attempt.Next.token? (.upsert auth supplied publicKey)).any tokens.contains =
        true := by simpa [Attempt.Next.token?] using hsupplied
    refine ⟨?_, fun _ _ _ _ => htoken⟩
    cases saved with
    | true =>
      cases hwrite
      exact hnone _
    | false =>
      cases hwrite
      refine ⟨h.slot, ?_⟩
      rintro _ ⟨⟩ _ ⟨⟩
      exact hsupplied
  | restore supplied => cases hwrite
  | markConnected auth =>
    dsimp only at hwrite
    split at hwrite
    · cases hwrite
      refine ⟨hnone _, ?_⟩
      rintro _ _ ⟨⟩
    · next phones hphones =>
      have hpaired : a.pairedPhones auth.phoneId ≠ none := by
        intro hmissing
        simp [PairedPhones.markConnected, hmissing] at hphones
      cases saved with
      | true =>
        cases hwrite
        refine ⟨hnone _, ?_⟩
        rintro _ ⟨⟩ _ hmissing
        exact absurd hmissing hpaired
      | false =>
        cases hwrite
        refine ⟨hnone _, ?_⟩
        rintro _ _ ⟨⟩

section
variable {m : Marks} {s : AppState} {id : Nat} {c : ServedConnection}

theorem Marked.setConnection (h : s.Marked m) (hc : m.Fits c) :
    (s.setConnection id c).Marked m := by
  refine ⟨?_, h.timers, h.drawn⟩
  intro other found hfound
  by_cases heq : other = id
  · subst heq
    simp only [AppState.setConnection, Function.update_self, Option.some.injEq] at hfound
    exact hfound ▸ hc
  · simp only [AppState.setConnection, Function.update_of_ne heq] at hfound
    exact h.connections other found hfound

theorem Marked.setTimer_none (h : s.Marked m) : (s.setTimer id none).Marked m := by
  refine ⟨h.connections, ?_, h.drawn⟩
  intro other timer htimer
  by_cases heq : other = id
  · subst heq
    simp [AppState.setTimer] at htimer
  · simp only [AppState.setTimer, Function.update_of_ne heq] at htimer
    exact h.timers other timer htimer

theorem Marked.drop (h : s.Marked m) (hc : m.Fits c) : (s.drop id c).Marked m := by
  constructor
  · intro other found hfound
    by_cases heq : other = id
    · subst heq
      simp [AppState.drop] at hfound
    · simp only [AppState.drop, Function.update_of_ne heq] at hfound
      exact h.connections other found hfound
  · intro other timer htimer
    cases hsession : c.inputSession with
    | none =>
      simp only [AppState.drop, hsession] at htimer
      exact h.timers other timer htimer
    | some session =>
      simp only [AppState.drop, hsession] at htimer
      by_cases heq : other = id
      · subst heq
        simp only [Function.update_self, Option.some.injEq] at htimer
        subst htimer
        exact hc.session session hsession
      · simp only [Function.update_of_ne heq] at htimer
        exact h.timers other timer htimer
  · exact h.drawn

theorem Marked.emit (h : s.Marked m) (effect : Effect) : (s.emit effect).Marked m :=
  ⟨h.connections, h.timers, h.drawn⟩

theorem Marks.Fits.done (h : m.Fits c) : m.Fits { c with work := none } :=
  ⟨(fun _ hw => by cases hw), h.session, h.image⟩

theorem Marks.Fits.busy (h : m.Fits c) {work : Work} {sender : Sender}
    (hwork : m.Doing sender work) : m.Fits { c with work := some (work, sender) } := by
  refine ⟨?_, h.session, h.image⟩
  rintro _ ⟨⟩
  exact hwork

theorem Marks.Fits.handled (h : m.Fits c) (transition : SessionTransition) :
    m.Fits (c.handled transition) := by
  unfold ServedConnection.handled
  split
  · unfold ServedConnection.complete
    split
    · refine ⟨?_, ?_, h.image⟩
      · rintro _ ⟨⟩
      · rintro _ ⟨⟩
    · exact h.done
  · exact h.done

end

/-- A state that keeps the senders and has only explained effects. -/
structure Traced (m : Marks) (s₀ : AppState) (e : Event) (t : AppState) : Prop where
  marked : t.Marked m
  effects : ∀ effect ∈ t.effects, Explained m s₀ e effect

section
variable {m : Marks} {s₀ s : AppState} {e : Event} {id : Nat} {c : ServedConnection}

theorem Traced.setConnection (h : Traced m s₀ e s) (hc : m.Fits c) :
    Traced m s₀ e (s.setConnection id c) :=
  ⟨h.marked.setConnection hc, h.effects⟩

theorem Traced.drop (h : Traced m s₀ e s) (hc : m.Fits c) : Traced m s₀ e (s.drop id c) :=
  ⟨h.marked.drop hc, h.effects⟩

theorem Traced.reply (h : Traced m s₀ e s) (hc : m.Fits c) (delivered : Bool) :
    Traced m s₀ e (s.reply id c delivered) := by
  unfold AppState.reply
  split
  · exact h.setConnection hc
  · exact h.drop hc

theorem Traced.emit (h : Traced m s₀ e s) {effect : Effect} (heffect : Explained m s₀ e effect) :
    Traced m s₀ e (s.emit effect) := by
  refine ⟨h.marked.emit effect, ?_⟩
  intro other hother
  rcases List.mem_append.mp hother with hold | hnew
  · exact h.effects other hold
  · rw [List.mem_singleton.mp hnew]
    exact heffect

theorem Traced.withStores (h : Traced m s₀ e s) (transfers : FileTransferCoordinator)
    (active : Option (String × Nat)) (nextConnectionId : Nat) (unpairing : Option String)
    (dataRequests : List BatchRecord) :
    Traced m s₀ e { s with transfers, active, nextConnectionId, unpairing, dataRequests } :=
  ⟨⟨h.marked.connections, h.marked.timers, h.marked.drawn⟩, h.effects⟩

theorem Traced.withAuthenticator (h : Traced m s₀ e s) {authenticator : Authenticator}
    {tokens : List String} (hdrawn : Drawn authenticator tokens) :
    Traced m s₀ e { s with authenticator, tokens } :=
  ⟨⟨h.marked.connections, h.marked.timers, hdrawn⟩, h.effects⟩

theorem handle_traced (h : Traced m s₀ e s) (hc : m.Fits c) {sender : Sender}
    (hsender : m.input sender) (message : ClientMessage) (delivered : Bool) :
    Traced m s₀ e (s.handle id c sender message delivered) := by
  have htracked : m.Fits { c.track (SessionTransition.fromMessage message).sessionId sender with
      monitoredSession := c.monitor message } := by
    refine ⟨hc.work, ?_, hc.image⟩
    rintro _ ⟨⟩
    exact hsender
  unfold AppState.handle
  dsimp only
  split
  · exact h.drop htracked
  · exact h.setConnection (htracked.busy hsender)
  · exact h.reply (htracked.handled _) delivered

theorem dispatch_traced (h : Traced m s₀ e s) (hc : m.Fits c) {sender : Sender}
    {frame : TextFrame} (hsender : m.Admits sender c.phoneId (s.paired c) frame)
    (delivered : Bool) (now : Nat) :
    Traced m s₀ e (s.dispatch id c sender delivered now frame) := by
  unfold AppState.dispatch
  split
  · exact h.drop hc
  · split
    · exact (h.withStores (s.transfers.revokePhone c.phoneId now) _ _ _ _).drop hc
    · next hpaired =>
      have hfile := hsender (by simpa [paired, Option.isSome_iff_ne_none] using hpaired)
      exact h.setConnection (hc.busy hfile)
  · exact h.drop hc
  · split
    · exact h.drop hc
    · split
      · exact h.reply hc delivered
      · apply h.setConnection
        refine ⟨hc.work, hc.session, ?_⟩
        rintro _ ⟨⟩
        exact hsender
  · exact h.drop hc
  · split
    · exact h.drop hc
    · split
      · exact h.drop hc
      · exact h.reply hc delivered
  · exact h.drop hc
  · split
    · exact h.drop hc
    · split
      · exact h.drop hc
      · exact h
  · exact h.drop hc
  · split
    · exact h.drop hc
    · next hvalid =>
      split
      · exact h.reply hc delivered
      · next hphone =>
        have hprobe := hsender hvalid (by simpa using hphone)
        exact h.setConnection (hc.busy hprobe)
  · exact h.drop hc
  · exact handle_traced h hc hsender _ delivered

end

section
variable {m : Marks} {s : AppState} {id : Nat} {c : ServedConnection}

theorem claim_traced {e : Event} (h : Traced m s e s) (hidle : s.idleConnection id = some c)
    (he : (∃ frame delivered now, e = .receive id frame delivered now ∧
        frame.isControlMessage = false) ∨
      ∃ frame delivered, e = .receiveBytes id frame delivered) :
    Traced m s e (s.claim id c (s.sender id c)) := by
  unfold AppState.claim
  split
  · exact h
  · next hlease =>
    apply Traced.emit
    · exact h.withStores _ (some (c.phoneId, id)) _ _ _
    · exact ⟨rfl, id, c, hidle, by simpa using hlease, rfl, he⟩

/-- After its claim a connection is superseded only if it was before. -/
theorem claim_superseded (sender : Sender) : (s.claim id c sender).superseded id
    { c with lease := true } = s.superseded id c := by
  unfold AppState.claim AppState.superseded
  split
  · next hlease => simp [hlease]
  · next hlease => simp [AppState.emit, AppState.isActiveConnection, hlease]

theorem claim_paired (sender : Sender) : (s.claim id c sender).paired c = s.paired c := by
  unfold AppState.claim
  split <;> rfl

theorem idleConnection_some (h : s.idleConnection id = some c) :
    s.connections id = some c ∧ c.work = none := by
  obtain ⟨hc, hwork⟩ := Option.filter_eq_some_iff.mp h
  exact ⟨hc, by simpa using hwork⟩

theorem Marks.Fits.leased (h : m.Fits c) : m.Fits { c with lease := true } :=
  ⟨h.work, h.session, h.image⟩

theorem receive_traced {frame : TextFrame} {delivered : Bool} {now : Nat}
    (h : Traced m s (.receive id frame delivered now) s) (hidle : s.idleConnection id = some c)
    (hadmits : s.superseded id c = false →
      m.Admits (s.sender id c) c.phoneId (s.paired c) frame) :
    Traced m s (.receive id frame delivered now) (s.receive id c frame delivered now) := by
  have hc := h.marked.connections id c (idleConnection_some hidle).1
  unfold AppState.receive
  split
  · exact h.drop hc
  · dsimp only
    split
    · split
      · exact h.drop hc
      · next hcurrent =>
        have hadmitted := hadmits (by simpa using hcurrent)
        exact dispatch_traced h hc hadmitted delivered now
    · next hcontrol =>
      have hclaim := claim_traced h hidle
        (Or.inl ⟨frame, delivered, now, rfl, by simpa using hcontrol⟩)
      rw [claim_superseded]
      split
      · exact hclaim.drop hc.leased
      · next hcurrent =>
        have hadmitted := hadmits (by simpa using hcurrent)
        rw [← claim_paired (s.sender id c)] at hadmitted
        exact dispatch_traced hclaim hc.leased hadmitted delivered now

theorem receiveBytes_traced {frame : BinaryFrame} {delivered : Bool}
    (h : Traced m s (.receiveBytes id frame delivered) s)
    (hidle : s.idleConnection id = some c) :
    Traced m s (.receiveBytes id frame delivered) (s.receiveBytes id c frame delivered) := by
  have hc := h.marked.connections id c (idleConnection_some hidle).1
  have hclaim := claim_traced h hidle (Or.inr ⟨frame, delivered, rfl⟩)
  unfold AppState.receiveBytes
  dsimp only
  rw [claim_superseded]
  split
  · exact hclaim.drop hc.leased
  · next hcurrent =>
    split
    · exact hclaim.setConnection hc.leased
    · next image header hpending =>
      have htaken : m.Fits { c with lease := true, pendingImage := none } :=
        ⟨hc.work, hc.session, (fun _ himage => by cases himage)⟩
      split
      · next hmatches =>
        apply Traced.emit
        · exact hclaim.setConnection (htaken.busy trivial)
        · exact ⟨hc.image (image, header) hpending, id, frame, delivered, c, rfl, hidle,
            by simpa using hcurrent, rfl, hpending, hmatches⟩
      · exact hclaim.reply htaken delivered

theorem submit_traced {e : Event} {t : AppState} {work : Work} {sender : Sender}
    (h : Traced m s e s) (hconnection : s.connections id = some c)
    (hwork : c.work = some (work, sender)) (ht : s.submit id c work sender = some t) :
    Traced m s e t := by
  have hc := h.marked.connections id c hconnection
  have hdoing : m.Doing sender work := hc.work (work, sender) hwork
  obtain ⟨request, hrequest, rfl⟩ := Option.map_eq_some_iff.mp ht
  cases work with
  | message handling transition asked =>
    apply Traced.emit
    · exact h.setConnection (hc.busy hdoing)
    · exact Or.inl hdoing
  | probe asked =>
    cases asked with
    | true => cases hrequest
    | false =>
      apply Traced.emit
      · exact h.setConnection (hc.busy hdoing)
      · exact Or.inr ⟨(Option.some.inj hrequest).symm, hdoing⟩
  | poll sessionId asked => exact h.setConnection (hc.busy trivial)
  | image image => cases hrequest
  | file batchId message => cases hrequest

theorem answer_traced {result : DispatchResult} {delivered : Bool} {t : AppState} {work : Work}
    {sender : Sender} (h : Traced m s (.answer id result delivered) s)
    (hconnection : s.connections id = some c) (hwork : c.work = some (work, sender))
    (ht : s.answer id c work sender result delivered = some t) :
    Traced m s (.answer id result delivered) t := by
  have hc := h.marked.connections id c hconnection
  have hdoing : m.Doing sender work := hc.work (work, sender) hwork
  unfold AppState.answer at ht
  split at ht
  · dsimp only at ht
    split at ht
    · cases ht
      exact h.drop hc
    · cases ht
      apply h.setConnection
      split
      · exact hc.busy hdoing
      · exact hc.handled _
  · cases ht
    exact h.reply hc.done delivered
  · split at ht
    · cases ht
      exact h.setConnection hc.done
    · next sessionId hnot =>
      cases ht
      have hpolled : m.Fits { c with work := none, monitoredSession := none } :=
        ⟨hc.done.work, hc.session, hc.image⟩
      apply Traced.emit
      · exact h.reply hpolled delivered
      · exact ⟨result, delivered, c, sender, rfl, hconnection, hwork, hnot, rfl⟩
  · cases ht

theorem handleFile_traced {busy : Bool} {token : String} {now : Nat} {delivered : Bool}
    {batchId : String} {message : Option FileClientMessage} {sender : Sender}
    (h : Traced m s (.handleFile id busy token now delivered) s)
    (hconnection : s.connections id = some c)
    (hwork : c.work = some (.file batchId message, sender)) :
    Traced m s (.handleFile id busy token now delivered)
      (s.handleFile id c batchId message sender busy token now delivered) := by
  have hc := h.marked.connections id c hconnection
  have hdoing : m.file sender := hc.work _ hwork
  unfold AppState.handleFile
  dsimp only
  have htransfers : Traced m s (.handleFile id busy token now delivered) ({ s with
      transfers := (s.transfers.handleControl batchId message c.phoneId busy token now).1 }.emit
      (.transfers sender)) := by
    apply Traced.emit
    · exact h.withStores _ _ _ _ _
    · exact hdoing
  apply Traced.reply _ hc.done
  split
  · next hticket =>
    apply htransfers.emit
    exact ⟨id, busy, token, now, delivered, c, batchId, message, sender, rfl, hconnection,
      hwork, rfl, rfl, hticket⟩
  · exact htransfers

theorem expire_traced {e : Event} {timer : CancelTimer} (h : Traced m s e s)
    (htimer : s.timers id = some timer) : Traced m s e (s.expire id timer) := by
  have hsender := h.marked.timers id timer htimer
  have hset : Traced m s e (s.setTimer id none) := ⟨h.marked.setTimer_none, h.effects⟩
  unfold AppState.expire
  dsimp only
  split
  · exact hset
  · exact hset.emit (Or.inl hsender)

theorem write_traced {e : Event} {next : Attempt.Next} {now : Nat} {saved : Bool} {t : AppState}
    (h : Traced m s e s) (hattempt : s.authenticator.attempt = some next)
    (ht : s.write next now saved = some t) : Traced m s e t := by
  obtain ⟨r, hr, rfl⟩ := Option.map_eq_some_iff.mp ht
  obtain ⟨hdrawn, hadded⟩ := h.marked.drawn.write hattempt hr
  have hwritten : Traced m s e { s with authenticator := r.1 } := h.withAuthenticator hdrawn
  dsimp only
  split
  · next auth hok hauth =>
    have hfresh : m.Fits { phoneId := auth.phoneId
                           isControl := auth.connectionMode == some "control" } := by
      refine ⟨?_, ?_, ?_⟩ <;> rintro _ ⟨⟩
    have hadmitted : Traced m s e (AppState.connect { s with authenticator := r.1 } auth) :=
      (hwritten.setConnection hfresh).withStores _ _ _ _ _
    split
    · next hnone => exact hadmitted.emit (hadded auth hauth hok (by simpa using hnone))
    · exact hadmitted
  · exact hwritten

theorem revokePhone_traced {e : Event} (h : Traced m s e s) (phoneId : String) (now : Nat) :
    Traced m s e (s.revokePhone phoneId now) := by
  refine ⟨⟨?_, h.marked.timers, h.marked.drawn⟩, h.effects⟩
  intro other found hfound
  obtain ⟨c, hc, rfl⟩ := Option.map_eq_some_iff.mp hfound
  have hfits := h.marked.connections other c hc
  split
  · exact ⟨hfits.work, hfits.session, hfits.image⟩
  · exact hfits

theorem route_traced {e : Event} (h : Traced m s e s) (batch : BatchRecord) (now : Nat) :
    Traced m s e (s.route batch now) := by
  have herased : Traced m s e { s with dataRequests := s.dataRequests.erase batch } :=
    h.withStores _ _ _ _ _
  unfold AppState.route
  dsimp only
  split
  · next hpaired => exact herased.emit hpaired
  · exact herased.withStores _ _ _ _ _

end

section
variable {m : Marks} {s t : AppState} {verify : Verifier} {e : Event}

theorem stepEvent_traced (h : Traced m s e s)
    (hadmits : ∀ id frame delivered now, e = .receive id frame delivered now →
      ∀ c, s.idleConnection id = some c → s.superseded id c = false →
        m.Admits (s.sender id c) c.phoneId (s.paired c) frame)
    (ht : stepEvent verify s e = some t) : Traced m s e t := by
  cases e with
  | beginPairing token =>
    cases ht
    exact h.withAuthenticator (h.marked.drawn.beginPairing token)
  | cancelPairing =>
    cases ht
    exact h.withAuthenticator h.marked.drawn.cancelPairing
  | authenticate auth nonce =>
    obtain ⟨-, ht⟩ := Option.ite_none_left_eq_some.mp ht
    split at ht
    · cases ht
      exact h
    · next hcheck =>
      cases ht
      exact h.withAuthenticator (h.marked.drawn.check hcheck)
  | write now saved =>
    obtain ⟨next, hattempt, ht⟩ := Option.bind_eq_some_iff.mp ht
    exact write_traced h hattempt ht
  | restore =>
    obtain ⟨authenticator, hrestore, rfl⟩ := Option.map_eq_some_iff.mp ht
    exact h.withAuthenticator (h.marked.drawn.restore hrestore)
  | removePhone phoneId saved =>
    obtain ⟨-, ht⟩ := Option.ite_none_left_eq_some.mp ht
    cases ht
    have hremoved := h.withAuthenticator (h.marked.drawn.removePhone phoneId saved)
    exact hremoved.withStores _ _ _ _ _
  | revokePhone now =>
    obtain ⟨phoneId, -, rfl⟩ := Option.map_eq_some_iff.mp ht
    exact revokePhone_traced h phoneId now
  | receive id frame delivered now =>
    obtain ⟨c, hidle, rfl⟩ := Option.map_eq_some_iff.mp ht
    exact receive_traced h hidle (hadmits id frame delivered now rfl c hidle)
  | receiveBytes id bytes delivered =>
    obtain ⟨c, hidle, rfl⟩ := Option.map_eq_some_iff.mp ht
    exact receiveBytes_traced h hidle
  | tick id =>
    obtain ⟨c, hidle, ht⟩ := Option.bind_eq_some_iff.mp ht
    obtain ⟨-, ht⟩ := Option.ite_none_right_eq_some.mp ht
    obtain ⟨sessionId, -, rfl⟩ := Option.map_eq_some_iff.mp ht
    have hc := h.marked.connections id c (idleConnection_some hidle).1
    exact h.setConnection (hc.busy trivial)
  | submit id =>
    obtain ⟨c, hconnection, ht⟩ := Option.bind_eq_some_iff.mp ht
    obtain ⟨w, hwork, ht⟩ := Option.bind_eq_some_iff.mp ht
    exact submit_traced h hconnection hwork ht
  | answer id result delivered =>
    obtain ⟨c, hconnection, ht⟩ := Option.bind_eq_some_iff.mp ht
    obtain ⟨w, hwork, ht⟩ := Option.bind_eq_some_iff.mp ht
    exact answer_traced h hconnection hwork ht
  | stored id delivered =>
    obtain ⟨c, hconnection, ht⟩ := Option.bind_eq_some_iff.mp ht
    split at ht
    · cases ht
      exact h.reply (h.marked.connections id c hconnection).done delivered
    · cases ht
  | handleFile id busy token now delivered =>
    obtain ⟨c, hconnection, ht⟩ := Option.bind_eq_some_iff.mp ht
    split at ht
    · next batchId message sender hwork =>
      cases ht
      exact handleFile_traced h hconnection hwork
    · cases ht
  | close id =>
    obtain ⟨c, hidle, rfl⟩ := Option.map_eq_some_iff.mp ht
    exact h.drop (h.marked.connections id c (idleConnection_some hidle).1)
  | expire id =>
    obtain ⟨timer, htimer, rfl⟩ := Option.map_eq_some_iff.mp ht
    exact expire_traced h htimer
  | createOutbound batch =>
    obtain ⟨-, ht⟩ := Option.ite_none_left_eq_some.mp ht
    cases ht
    exact h.withStores _ _ _ _ _
  | authorize batchId bearer now =>
    cases ht
    exact h.withStores _ _ _ _ _
  | route batch now =>
    obtain ⟨-, ht⟩ := Option.ite_none_right_eq_some.mp ht
    cases ht
    exact route_traced h batch now
  | transfer batchId state now =>
    obtain ⟨transfers, -, rfl⟩ := Option.map_eq_some_iff.mp ht
    exact h.withStores _ _ _ _ _

theorem step_traced (h : s.Marked m)
    (hadmits : ∀ id frame delivered now, e = .receive id frame delivered now →
      ∀ c, s.idleConnection id = some c → s.superseded id c = false →
        m.Admits (s.sender id c) c.phoneId (s.paired c) frame)
    (ht : step verify s e = some t) : Traced m s e t := by
  have hcleared : Traced m { s with effects := [] } e { s with effects := [] } :=
    ⟨⟨h.connections, h.timers, h.drawn⟩, (fun _ hmem => by cases hmem)⟩
  have htraced := stepEvent_traced hcleared hadmits ht
  refine ⟨htraced.marked, ?_⟩
  intro effect hmem
  have hexplained := htraced.effects effect hmem
  cases effect <;> exact hexplained

theorem start_marked (m : Marks) (pcId : String) (pairedPhones : PairedPhones)
    (batches : KeyedTable BatchRecord.batchId) : (start pcId pairedPhones batches).Marked m := by
  refine ⟨?_, ?_, ⟨?_, ?_⟩⟩
  · rintro _ _ ⟨⟩
  · rintro _ _ ⟨⟩
  · rintro _ ⟨⟩
  · rintro _ ⟨⟩

end

end AppState

end FlowType
