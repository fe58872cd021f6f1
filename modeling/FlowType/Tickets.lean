import FlowType.FileTransfers
import FlowType.Runs

/-! The tickets of the data port: which bearer a request for a batch is let in with. The hash of
a token stands for the token, and the calls of the coordinator come one after the other. -/
namespace FlowType

namespace FileTransferCoordinator

def authorizedDirection (s : FileTransferCoordinator) (batchId bearer : String) (now : Nat) :
    FileTransferCoordinator × Option TransferDirection :=
  match s.authorize batchId bearer now with
  | (s, some _) => (s, (s.tickets batchId).map (·.direction))
  | (s, none) => (s, none)

def authorizeRequest (s : FileTransferCoordinator) (batchId : String) (bearer : Option String)
    (now : Nat) : FileTransferCoordinator × Except String TransferDirection :=
  match bearer with
  | none => (s, .error "unauthorized")
  | some bearer =>
    match s.authorizedDirection batchId bearer now with
    | (s, some direction) => (s, .ok direction)
    | (s, none) => (s, .error "unauthorized")

/-- The request that completes a batch. `entries` says whether some entry failed, once all of
them are terminal. -/
def complete (s : FileTransferCoordinator) (batchId : String) (entries : Option Bool)
    (now : Nat) : Except String FileTransferCoordinator :=
  match entries with
  | none => .error "batch_incomplete"
  | some hasFailures =>
    match s.updateState batchId (if hasFailures then .partialFailure else .completed) now with
    | none => .error "batch_state_failed"
    | some s => .ok (s.removeTicket batchId)

def KeepsOwners (s s' : FileTransferCoordinator) : Prop :=
  ∀ batchId batch, s.loadBatch batchId = some batch →
    ∃ batch', s'.loadBatch batchId = some batch' ∧ batch'.phoneId = batch.phoneId

variable {s s' : FileTransferCoordinator} {batchId phoneId token : String} {now : Nat}

theorem KeepsOwners.refl (s : FileTransferCoordinator) : KeepsOwners s s :=
  fun _ batch h => ⟨batch, h, rfl⟩

theorem KeepsOwners.trans {s'' : FileTransferCoordinator} (h : KeepsOwners s s')
    (h' : KeepsOwners s' s'') : KeepsOwners s s'' := by
  intro batchId batch hload
  obtain ⟨batch', hload', howner⟩ := h batchId batch hload
  obtain ⟨batch'', hload'', howner'⟩ := h' batchId batch' hload'
  exact ⟨batch'', hload'', howner'.trans howner⟩

theorem loadBatch_insert (s : FileTransferCoordinator) (new : BatchRecord) (batchId : String) :
    loadBatch { s with batches := s.batches.insert new } batchId =
      if batchId = new.batchId then some new else s.loadBatch batchId :=
  s.batches.get?_insert new batchId

theorem batchId_of_loadBatch {batch : BatchRecord} (h : s.loadBatch batchId = some batch) :
    batch.batchId = batchId := (KeyedTable.find?_eq_some_iff.1 h).2

theorem keepsOwners_insert {new : BatchRecord}
    (h : ∀ batch, s.loadBatch new.batchId = some batch → new.phoneId = batch.phoneId) :
    KeepsOwners s { s with batches := s.batches.insert new } := by
  intro batchId batch hload
  rw [loadBatch_insert]
  split_ifs with hid
  · rw [hid] at hload
    exact ⟨new, rfl, h batch hload⟩
  · exact ⟨batch, hload, rfl⟩

theorem updateState_effect {state : BatchState} (h : s.updateState batchId state now = some s') :
    s'.tickets = s.tickets ∧ KeepsOwners s s' := by
  obtain ⟨batch, hload, hstep⟩ := Option.bind_eq_some_iff.1 h
  split at hstep
  · obtain rfl := Option.some.inj hstep
    have hid : batch.batchId = batchId := batchId_of_loadBatch hload
    refine ⟨rfl, keepsOwners_insert fun old hold => ?_⟩
    change s.loadBatch batch.batchId = some old at hold
    rw [hid, hload] at hold
    obtain rfl := Option.some.inj hold
    rfl
  · cases hstep

theorem cancel_effect (h : s.cancel batchId phoneId now = .ok s') :
    s'.tickets = Function.update s.tickets batchId none ∧ KeepsOwners s s' ∧
      ∃ batch, s.loadBatch batchId = some batch ∧ batch.phoneId = phoneId := by
  rw [cancel] at h
  cases hload : s.loadBatch batchId with
  | none => simp [hload] at h
  | some batch =>
    simp only [hload] at h
    split_ifs at h with howner hterminal
    · obtain rfl := Except.ok.inj h
      exact ⟨rfl, KeepsOwners.refl s, batch, rfl, not_not.1 howner⟩
    · cases hupdate : s.updateState batchId .canceled now with
      | none => simp [hupdate] at h
      | some s₁ =>
        simp only [hupdate] at h
        obtain rfl := Except.ok.inj h
        obtain ⟨htickets, hkeeps⟩ := updateState_effect hupdate
        refine ⟨?_, hkeeps, batch, rfl, not_not.1 howner⟩
        rw [← htickets]
        rfl

theorem complete_effect {entries : Option Bool} (h : s.complete batchId entries now = .ok s') :
    s'.tickets = Function.update s.tickets batchId none ∧ KeepsOwners s s' := by
  cases entries with
  | none => cases h
  | some hasFailures =>
    simp only [complete] at h
    split at h
    · cases h
    · rename_i s₁ hupdate
      obtain rfl := Except.ok.inj h
      obtain ⟨htickets, hkeeps⟩ := updateState_effect hupdate
      refine ⟨?_, hkeeps⟩
      rw [← htickets]
      rfl

theorem issueTicket_effect {reply : FileServerMessage}
    (h : s.issueTicket batchId phoneId token now = .ok (s', reply)) :
    ∃ batch, s.loadBatch batchId = some batch ∧ s' = { s with
        tickets := Function.update s.tickets batchId
          (some ⟨phoneId, token, now + TICKET_LIFETIME, batch.direction⟩) } ∧
      reply = .fileTicket batchId token (now + TICKET_LIFETIME) := by
  rw [issueTicket] at h
  cases hload : s.loadBatch batchId with
  | none => simp [hload] at h
  | some batch =>
    simp only [hload] at h
    obtain ⟨rfl, rfl⟩ := Prod.mk.inj (Except.ok.inj h)
    exact ⟨batch, rfl, rfl, rfl⟩

def Issues (s s' : FileTransferCoordinator) (phoneId token : String) : FileServerMessage → Prop
  | .fileTicket batchId issued expiresAt => issued = token ∧ KeepsOwners s s' ∧
    (∃ batch, s'.loadBatch batchId = some batch ∧ batch.phoneId = phoneId) ∧
    ∃ direction, s'.tickets =
      Function.update s.tickets batchId (some ⟨phoneId, token, expiresAt, direction⟩)
  | _ => s'.tickets = s.tickets ∧ KeepsOwners s s'

theorem issues_of_issueTicket {s₀ : FileTransferCoordinator} {reply : FileServerMessage}
    (h : s.issueTicket batchId phoneId token now = .ok (s', reply))
    (htickets : s.tickets = s₀.tickets) (hkeeps : KeepsOwners s₀ s)
    (howner : ∀ batch, s.loadBatch batchId = some batch → batch.phoneId = phoneId) :
    Issues s₀ s' phoneId token reply := by
  obtain ⟨batch, hload, rfl, rfl⟩ := issueTicket_effect h
  refine ⟨rfl, hkeeps, ⟨batch, hload, howner batch hload⟩, batch.direction, ?_⟩
  rw [← htickets]

theorem phoneId_of_validate {offer : FileOffer} (h : offer.validate phoneId = true) :
    offer.phoneId = phoneId := by
  simp only [FileOffer.validate, Bool.and_eq_true, beq_iff_eq] at h
  exact h.1.1.1.1.1.1.1.1.2

theorem new_batch {direction : TransferDirection} {fileCount directoryCount totalBytes : Nat}
    {batch : BatchRecord} (h : BatchRecord.new batchId phoneId direction now fileCount
      directoryCount totalBytes = some batch) :
    batch.batchId = batchId ∧ batch.phoneId = phoneId := by
  unfold BatchRecord.new at h
  extract_lets new at h
  split_ifs at h
  obtain rfl := Option.some.inj h
  exact ⟨rfl, rfl⟩

theorem acceptOffer_effect {offer : FileOffer} {busy : Bool} {reply : FileServerMessage}
    (h : s.acceptOffer offer phoneId busy token now = .ok (s', reply)) :
    Issues s s' phoneId token reply := by
  rw [acceptOffer] at h
  split_ifs at h with hinvalid hdirection hbusy hother
  have hphone : offer.phoneId = phoneId := phoneId_of_validate (by simpa using hinvalid)
  cases hnew : BatchRecord.new offer.batchId offer.phoneId offer.direction now offer.fileCount
      offer.directoryCount offer.totalBytes with
  | none => simp [hnew] at h
  | some batch =>
    obtain ⟨hid, howner⟩ := new_batch hnew
    cases hload : s.loadBatch offer.batchId with
    | none =>
      simp only [hnew, hload] at h
      refine issues_of_issueTicket h rfl (keepsOwners_insert fun old hold => ?_)
        fun created hcreated => ?_
      · rw [hid, hload] at hold
        cases hold
      · rw [createBatch, loadBatch_insert, if_pos hid.symm] at hcreated
        obtain rfl := Option.some.inj hcreated
        exact howner.trans hphone
    | some existing =>
      simp only [hnew, hload] at h
      split_ifs at h with hconflict hterminal
      · obtain ⟨rfl, rfl⟩ := Prod.mk.inj (Except.ok.inj h)
        exact ⟨rfl, KeepsOwners.refl _⟩
      · refine issues_of_issueTicket h rfl (KeepsOwners.refl s) fun same hsame => ?_
        rw [hload] at hsame
        obtain rfl := Option.some.inj hsame
        simp only [not_or, not_not] at hconflict
        exact hconflict.1.trans hphone

theorem advance_effect {states : List BatchState} {next : BatchState} {code : String}
    (h : s.advance batchId states next now code = .ok s') :
    s'.tickets = s.tickets ∧ KeepsOwners s s' := by
  rw [advance] at h
  split at h
  · cases h
  · split_ifs at h
    · split at h
      · cases h
      · rename_i s₁ hupdate
        obtain rfl := Except.ok.inj h
        exact updateState_effect hupdate
    · obtain rfl := Except.ok.inj h
      exact ⟨rfl, KeepsOwners.refl s⟩

/-- What comes of a decision: a ticket or a result, or the batch is cancelled. -/
def Decides (s s' : FileTransferCoordinator) (decision : FileDecision) (phoneId token : String)
    (now : Nat) : Option FileServerMessage → Prop
  | some reply => Issues s s' phoneId token reply
  | none => s.cancel decision.batchId phoneId now = .ok s'

theorem bind_eq_ok {α β : Type} {x : Except String α} {f : α → Except String β} {b : β}
    (h : (x >>= f) = .ok b) : ∃ a, x = .ok a ∧ f a = .ok b := by
  cases x with
  | error code => cases h
  | ok a => exact ⟨a, rfl, h⟩

theorem acceptDecision_effect {decision : FileDecision} {reply : Option FileServerMessage}
    (h : s.acceptDecision decision phoneId token now = .ok (s', reply)) :
    Decides s s' decision phoneId token now reply := by
  rw [acceptDecision] at h
  by_cases hinvalid : (validVersions decision.protocolVersion decision.transferVersion &&
      validIdentifier decision.batchId MAX_BATCH_ID_BYTES) = false
  · rw [if_pos hinvalid] at h
    cases h
  rw [if_neg hinvalid] at h
  cases hload : s.loadBatch decision.batchId with
  | none => simp [hload] at h
  | some batch =>
    simp only [hload] at h
    split_ifs at h with howner hterminal hrefused
    · obtain ⟨rfl, rfl⟩ := Prod.mk.inj (Except.ok.inj h)
      exact ⟨rfl, KeepsOwners.refl _⟩
    · cases hcancel : s.cancel decision.batchId phoneId now with
      | error code => simp [hcancel, Except.map] at h
      | ok s₁ =>
        simp only [hcancel, Except.map] at h
        obtain ⟨rfl, rfl⟩ := Prod.mk.inj (Except.ok.inj h)
        exact hcancel
    · have hphone : batch.phoneId = phoneId := not_not.1 (not_or.1 howner).1
      obtain ⟨s₁, hqueued, h⟩ := bind_eq_ok h
      obtain ⟨s₂, hprepared, h⟩ := bind_eq_ok h
      obtain ⟨s₃, hstarted, h⟩ := bind_eq_ok h
      obtain ⟨⟨s₄, ticket⟩, hissued, h⟩ := bind_eq_ok h
      obtain ⟨rfl, rfl⟩ := Prod.mk.inj (Except.ok.inj h)
      have hqueued := advance_effect hqueued
      have hprepared := advance_effect hprepared
      have hstarted := advance_effect hstarted
      have hkeeps := (hqueued.2.trans hprepared.2).trans hstarted.2
      refine issues_of_issueTicket hissued
        (hstarted.1.trans (hprepared.1.trans hqueued.1)) hkeeps fun same hsame => ?_
      obtain ⟨batch', hload', howner'⟩ := hkeeps _ _ hload
      rw [hload'] at hsame
      obtain rfl := Option.some.inj hsame
      exact howner'.trans hphone

structure Revokes (phoneId : String) (s s' : FileTransferCoordinator) : Prop where
  keeps : KeepsOwners s s'
  held : ∀ batchId grant, s'.tickets batchId = some grant → s.tickets batchId = some grant
  others : ∀ batchId grant batch, s.tickets batchId = some grant →
    s.loadBatch batchId = some batch → batch.phoneId ≠ phoneId → s'.tickets batchId = some grant

theorem Revokes.refl (phoneId : String) (s : FileTransferCoordinator) : Revokes phoneId s s :=
  ⟨KeepsOwners.refl s, fun _ _ h => h, fun _ _ _ h _ _ => h⟩

theorem Revokes.trans {s'' : FileTransferCoordinator} (h : Revokes phoneId s s')
    (h' : Revokes phoneId s' s'') : Revokes phoneId s s'' := by
  refine ⟨h.keeps.trans h'.keeps, fun k grant hgrant => h.held k grant (h'.held k grant hgrant), ?_⟩
  intro k grant batch hgrant hload howner
  obtain ⟨batch', hload', hsame⟩ := h.keeps k batch hload
  have hgrant' := h.others k grant batch hgrant hload howner
  exact h'.others k grant batch' hgrant' hload' (hsame ▸ howner)

theorem revokes_cancel (h : s.cancel batchId phoneId now = .ok s') : Revokes phoneId s s' := by
  obtain ⟨htickets, hkeeps, batch, hload, howner⟩ := cancel_effect h
  refine ⟨hkeeps, fun k grant hgrant => ?_, fun k grant other hgrant hother hne => ?_⟩
  · rw [htickets] at hgrant
    by_cases hk : k = batchId
    · rw [hk, Function.update_self] at hgrant
      cases hgrant
    · rwa [Function.update_of_ne hk] at hgrant
  · rw [htickets]
    by_cases hk : k = batchId
    · rw [hk, hload] at hother
      obtain rfl := Option.some.inj hother
      exact absurd howner hne
    · rwa [Function.update_of_ne hk]

theorem revokePhone_effect (s : FileTransferCoordinator) (phoneId : String) (now : Nat) :
    Revokes phoneId { s with tickets := fun batchId =>
      (s.tickets batchId).filter fun grant => decide (grant.phoneId ≠ phoneId) }
      (s.revokePhone phoneId now) := by
  have hfold (step : FileTransferCoordinator → BatchRecord → FileTransferCoordinator)
      (hstep : ∀ s batch, Revokes phoneId s (step s batch)) :
      ∀ (batches : List BatchRecord) (s : FileTransferCoordinator),
        Revokes phoneId s (batches.foldl step s) := by
    intro batches
    induction batches with
    | nil => exact Revokes.refl phoneId
    | cons batch batches ih =>
      intro s
      rw [List.foldl_cons]
      exact Revokes.trans (hstep s batch) (ih _)
  apply hfold
  intro s batch
  cases hcancel : s.cancel batch.batchId phoneId now with
  | error code => exact Revokes.refl phoneId s
  | ok s' => exact revokes_cancel hcancel

/-- The tickets that are still good. -/
def expireTickets (s : FileTransferCoordinator) (now : Nat) : FileTransferCoordinator :=
  { s with tickets := fun batchId =>
      (s.tickets batchId).filter fun grant => decide (now < grant.expiresAt) }

theorem expireTickets_eq_some {grant : TicketGrant} :
    (s.expireTickets now).tickets batchId = some grant ↔
      s.tickets batchId = some grant ∧ now < grant.expiresAt := by
  simp [expireTickets, Option.filter_eq_some_iff]

theorem authorize_eq (s : FileTransferCoordinator) (batchId bearer : String) (now : Nat) :
    s.authorize batchId bearer now =
      match (s.expireTickets now).tickets batchId, s.loadBatch batchId with
      | some grant, some batch =>
        if grant.token = bearer ∧ batch.phoneId = grant.phoneId ∧
            batch.state.isTerminal = false then (s.expireTickets now, some batch)
        else (s.expireTickets now, none)
      | _, _ => (s.expireTickets now, none) := rfl

theorem authorize_fst (s : FileTransferCoordinator) (batchId bearer : String) (now : Nat) :
    (s.authorize batchId bearer now).1 = s.expireTickets now := by
  rw [authorize_eq]
  split
  · split_ifs <;> rfl
  · rfl

/-- A bearer is let in when the ticket of the batch is its own and still good, and the batch
runs and is the ticket's phone's. -/
theorem authorize_isSome_iff {bearer : String} :
    (s.authorize batchId bearer now).2.isSome = true ↔
      ∃ grant batch, s.tickets batchId = some grant ∧ now < grant.expiresAt ∧
        s.loadBatch batchId = some batch ∧ grant.token = bearer ∧
        batch.phoneId = grant.phoneId ∧ batch.state.isTerminal = false := by
  rw [authorize_eq]
  constructor
  · intro h
    split at h
    · rename_i grant batch hgrant hload
      split_ifs at h with hfits
      · obtain ⟨hticket, hgood⟩ := expireTickets_eq_some.1 hgrant
        exact ⟨grant, batch, hticket, hgood, hload, hfits⟩
      · cases h
    · cases h
  · rintro ⟨grant, batch, hticket, hgood, hload, hfits⟩
    simp only [expireTickets_eq_some.2 ⟨hticket, hgood⟩, hload]
    rw [if_pos hfits]
    rfl

theorem authorizeRequest_fst (s : FileTransferCoordinator) (batchId : String)
    (bearer : Option String) (now : Nat) :
    (s.authorizeRequest batchId bearer now).1 = s ∨
      (s.authorizeRequest batchId bearer now).1 = s.expireTickets now := by
  cases bearer with
  | none => exact .inl rfl
  | some bearer =>
    right
    rw [← authorize_fst s batchId bearer now, authorizeRequest, authorizedDirection]
    cases s.authorize batchId bearer now with
    | mk s' found =>
      cases found with
      | none => rfl
      | some batch => cases hticket : s'.tickets batchId <;> simp [hticket]

/-- The second lookup finds the ticket that the first one has let in. -/
theorem authorizeRequest_toBool (s : FileTransferCoordinator) (batchId bearer : String)
    (now : Nat) :
    (s.authorizeRequest batchId (some bearer) now).2.toBool =
      (s.authorize batchId bearer now).2.isSome := by
  rw [authorizeRequest, authorizedDirection]
  have hfst := authorize_fst s batchId bearer now
  cases hauthorize : s.authorize batchId bearer now with
  | mk s' found =>
    cases found with
    | none => rfl
    | some batch =>
      have hsome : (s.authorize batchId bearer now).2.isSome = true := by rw [hauthorize]; rfl
      obtain ⟨grant, _, hticket, hgood, -⟩ := authorize_isSome_iff.1 hsome
      rw [hauthorize] at hfst
      obtain rfl : s' = s.expireTickets now := hfst
      simp only [expireTickets_eq_some.2 ⟨hticket, hgood⟩]
      rfl

end FileTransferCoordinator

structure IssuedTicket where
  batchId : String
  phoneId : String
  token : String
  expiresAt : Nat
  deriving DecidableEq, Repr

/-- A run remembers the tickets that phones were sent, the last one first, and the batches whose
last ticket a later cancel, complete or revoke has taken back. -/
structure TicketRun where
  coordinator : FileTransferCoordinator := {}
  clock : Nat := 0
  issued : List IssuedTicket := []
  removed : String → Bool := fun _ => false

inductive TicketEvent
  | advance (seconds : Nat)
  | acceptOffer (offer : FileOffer) (phoneId : String) (busy : Bool) (token : String)
  | acceptDecision (decision : FileDecision) (phoneId token : String)
  | cancel (batchId phoneId : String)
  | complete (batchId : String) (entries : Option Bool)
  | revokePhone (phoneId : String)
  | authorize (batchId : String) (bearer : Option String)
  | createBatch (batch : BatchRecord)
  | updateState (batchId : String) (state : BatchState)
  deriving DecidableEq, Repr

namespace TicketRun

def lastIssued (w : TicketRun) (batchId : String) : Option IssuedTicket :=
  w.issued.find? fun i => i.batchId == batchId

/-- The phone gets the reply, and with it perhaps a ticket. -/
def reply (w : TicketRun) (coordinator : FileTransferCoordinator) (phoneId : String) :
    FileServerMessage → TicketRun
  | .fileTicket batchId token expiresAt =>
    { w with
      coordinator := coordinator
      issued := ⟨batchId, phoneId, token, expiresAt⟩ :: w.issued
      removed := Function.update w.removed batchId false }
  | _ => { w with coordinator := coordinator }

def remove (w : TicketRun) (coordinator : FileTransferCoordinator) (batchId : String) :
    TicketRun :=
  { w with
    coordinator := coordinator
    removed := Function.update w.removed batchId true }

/-- A random token is not drawn twice; the store creates the batches the computer offers, and
the data port moves the state of a batch, besides the calls that deal with tickets. -/
def step (w : TicketRun) : TicketEvent → Option TicketRun
  | .advance seconds => some { w with clock := w.clock + seconds }
  | .acceptOffer offer phoneId busy token =>
    if token ∈ w.issued.map (·.token) then none
    else match w.coordinator.acceptOffer offer phoneId busy token w.clock with
      | .ok (coordinator, reply) => some (w.reply coordinator phoneId reply)
      | .error _ => some w
  | .acceptDecision decision phoneId token =>
    if token ∈ w.issued.map (·.token) then none
    else match w.coordinator.acceptDecision decision phoneId token w.clock with
      | .ok (coordinator, some reply) => some (w.reply coordinator phoneId reply)
      | .ok (coordinator, none) => some (w.remove coordinator decision.batchId)
      | .error _ => some w
  | .cancel batchId phoneId =>
    match w.coordinator.cancel batchId phoneId w.clock with
    | .ok coordinator => some (w.remove coordinator batchId)
    | .error _ => some w
  | .complete batchId entries =>
    match w.coordinator.complete batchId entries w.clock with
    | .ok coordinator => some (w.remove coordinator batchId)
    | .error _ => some w
  | .revokePhone phoneId => some { w with
      coordinator := w.coordinator.revokePhone phoneId w.clock
      removed := fun batchId => w.removed batchId ||
        (w.lastIssued batchId).any fun i => i.phoneId == phoneId }
  | .authorize batchId bearer =>
    some { w with coordinator := (w.coordinator.authorizeRequest batchId bearer w.clock).1 }
  | .createBatch batch =>
    if (w.coordinator.loadBatch batch.batchId).isSome then none
    else some { w with coordinator := w.coordinator.createBatch batch }
  | .updateState batchId state =>
    (w.coordinator.updateState batchId state w.clock).map fun coordinator =>
      { w with coordinator := coordinator }

/-- The bearer is the last ticket of the batch, still good, for a batch that still runs and is
its phone's. -/
def Valid (w : TicketRun) (batchId bearer : String) : Prop :=
  ∃ i, w.lastIssued batchId = some i ∧ i.token = bearer ∧ w.clock < i.expiresAt ∧
    w.removed batchId = false ∧ ∃ batch, w.coordinator.loadBatch batchId = some batch ∧
      batch.state.isTerminal = false ∧ batch.phoneId = i.phoneId

def Admits (w : TicketRun) (batchId : String) (bearer : Option String) : Prop :=
  (w.coordinator.authorizeRequest batchId bearer w.clock).2.toBool = true

structure Authorizes (w : TicketRun) : Prop where
  admits_iff : ∀ batchId bearer, w.Admits batchId (some bearer) ↔ w.Valid batchId bearer
  bearer : ∀ batchId, ¬w.Admits batchId none
  outdated : ∀ i ∈ w.issued, ∀ batchId,
    i.batchId ≠ batchId ∨ w.lastIssued batchId ≠ some i → ¬w.Admits batchId (some i.token)

open FileTransferCoordinator

variable {w w' : TicketRun} {batchId phoneId token : String}

/-- The tickets of the coordinator are the last ones issued, less those that were taken back or
have run out. -/
structure Inv (w : TicketRun) : Prop where
  distinct : (w.issued.map (·.token)).Nodup
  owner : ∀ batchId i, w.lastIssued batchId = some i →
    ∃ batch, w.coordinator.loadBatch batchId = some batch ∧ batch.phoneId = i.phoneId
  held : ∀ batchId grant, w.coordinator.tickets batchId = some grant →
    w.removed batchId = false ∧ ∃ i, w.lastIssued batchId = some i ∧
      grant.phoneId = i.phoneId ∧ grant.token = i.token ∧ grant.expiresAt = i.expiresAt
  lost : ∀ batchId i, w.lastIssued batchId = some i → w.coordinator.tickets batchId = none →
    w.removed batchId = true ∨ i.expiresAt ≤ w.clock

theorem admits_iff : w.Admits batchId (some token) ↔ ∃ grant batch,
    w.coordinator.tickets batchId = some grant ∧ w.clock < grant.expiresAt ∧
      w.coordinator.loadBatch batchId = some batch ∧ grant.token = token ∧
      batch.phoneId = grant.phoneId ∧ batch.state.isTerminal = false := by
  rw [Admits, authorizeRequest_toBool, authorize_isSome_iff]

theorem Inv.admits_iff_valid (h : Inv w) :
    w.Admits batchId (some token) ↔ w.Valid batchId token := by
  rw [admits_iff]
  constructor
  · rintro ⟨grant, batch, hticket, hgood, hload, htoken, howner, hopen⟩
    obtain ⟨hremoved, i, hlast, hphone, hissued, hexpires⟩ := h.held batchId grant hticket
    exact ⟨i, hlast, hissued.symm.trans htoken, hexpires ▸ hgood, hremoved, batch, hload, hopen,
      howner.trans hphone⟩
  · rintro ⟨i, hlast, htoken, hgood, hremoved, batch, hload, hopen, howner⟩
    cases hticket : w.coordinator.tickets batchId with
    | none =>
      rcases h.lost batchId i hlast hticket with hback | hexpired
      · cases hremoved.symm.trans hback
      · exact absurd hgood (Nat.not_lt.2 hexpired)
    | some grant =>
      obtain ⟨-, j, hlast', hphone, hissued, hexpires⟩ := h.held batchId grant hticket
      obtain rfl : i = j := Option.some.inj (hlast.symm.trans hlast')
      exact ⟨grant, batch, rfl, hexpires ▸ hgood, hload, hissued.trans htoken,
        howner.trans hphone.symm, hopen⟩

theorem mem_of_lastIssued {i : IssuedTicket} (h : w.lastIssued batchId = some i) :
    i ∈ w.issued ∧ i.batchId = batchId :=
  ⟨List.mem_of_find?_eq_some h, by simpa using List.find?_some h⟩

theorem Inv.authorizes (h : Inv w) : Authorizes w := by
  refine ⟨fun batchId bearer => h.admits_iff_valid, fun batchId => ?_, ?_⟩
  · exact Bool.false_ne_true
  · intro i hi batchId hother hadmits
    obtain ⟨j, hlast, htoken, -⟩ := h.admits_iff_valid.1 hadmits
    obtain ⟨hj, hbatch⟩ := mem_of_lastIssued hlast
    obtain rfl : j = i := List.inj_on_of_nodup_map h.distinct hj hi htoken
    rcases hother with hne | hne
    · exact hne hbatch
    · exact hne hlast

theorem inv_start : Inv {} := by
  refine ⟨List.nodup_nil, ?_, ?_, ?_⟩
  · intro batchId i h
    cases h
  · intro batchId grant h
    cases h
  · intro batchId i h
    cases h

theorem Inv.keeps (h : Inv w) {s : FileTransferCoordinator}
    (htickets : s.tickets = w.coordinator.tickets) (hkeeps : KeepsOwners w.coordinator s) :
    Inv { w with coordinator := s } := by
  refine ⟨h.distinct, ?_, ?_, ?_⟩
  · intro k i hlast
    obtain ⟨batch, hload, howner⟩ := h.owner k i hlast
    obtain ⟨batch', hload', hsame⟩ := hkeeps k batch hload
    exact ⟨batch', hload', hsame.trans howner⟩
  · intro k grant hgrant
    exact h.held k grant (htickets ▸ hgrant)
  · intro k i hlast hnone
    exact h.lost k i hlast (htickets ▸ hnone)

theorem Inv.remove (h : Inv w) {s : FileTransferCoordinator}
    (htickets : s.tickets = Function.update w.coordinator.tickets batchId none)
    (hkeeps : KeepsOwners w.coordinator s) : Inv (w.remove s batchId) := by
  refine ⟨h.distinct, (h.keeps (s := { s with tickets := w.coordinator.tickets }) rfl
    hkeeps).owner, ?_, ?_⟩
  · intro k grant hgrant
    change s.tickets k = some grant at hgrant
    rw [htickets] at hgrant
    by_cases hk : k = batchId
    · rw [hk, Function.update_self] at hgrant
      cases hgrant
    · rw [Function.update_of_ne hk] at hgrant
      obtain ⟨hremoved, hissued⟩ := h.held k grant hgrant
      exact ⟨(Function.update_of_ne hk _ _).trans hremoved, hissued⟩
  · intro k i hlast hnone
    change s.tickets k = none at hnone
    by_cases hk : k = batchId
    · left
      rw [hk]
      exact Function.update_self _ _ _
    · rw [htickets, Function.update_of_ne hk] at hnone
      rcases h.lost k i hlast hnone with hremoved | hexpired
      · exact .inl ((Function.update_of_ne hk _ _).trans hremoved)
      · exact .inr hexpired

theorem Inv.reply (h : Inv w) {s : FileTransferCoordinator} {reply : FileServerMessage}
    (hfresh : token ∉ w.issued.map (·.token))
    (hissues : Issues w.coordinator s phoneId token reply) :
    Inv (w.reply s phoneId reply) := by
  cases reply with
  | fileResult batchId state => exact h.keeps hissues.1 hissues.2
  | fileError batchId code => exact h.keeps hissues.1 hissues.2
  | fileTicket batchId issued expiresAt =>
    obtain ⟨rfl, hkeeps, ⟨batch, hload, howner⟩, direction, htickets⟩ := hissues
    have hlast : ∀ k, lastIssued (w.reply s phoneId (.fileTicket batchId issued expiresAt)) k =
        if k = batchId then some ⟨batchId, phoneId, issued, expiresAt⟩ else w.lastIssued k := by
      intro k
      unfold lastIssued TicketRun.reply
      by_cases hk : k = batchId
      · rw [if_pos hk, List.find?_cons_of_pos (by simp [hk])]
      · rw [if_neg hk, List.find?_cons_of_neg (by simpa using fun h => hk h.symm)]
    refine ⟨List.nodup_cons.2 ⟨hfresh, h.distinct⟩, ?_, ?_, ?_⟩
    · intro k i hi
      rw [hlast] at hi
      split_ifs at hi with hk
      · obtain rfl := Option.some.inj hi
        exact ⟨batch, hk ▸ hload, howner⟩
      · exact (h.keeps (s := { s with tickets := w.coordinator.tickets }) rfl hkeeps).owner k i hi
    · intro k grant hgrant
      change s.tickets k = some grant at hgrant
      rw [htickets] at hgrant
      rw [hlast]
      by_cases hk : k = batchId
      · rw [hk, Function.update_self] at hgrant
        obtain rfl := Option.some.inj hgrant
        rw [if_pos hk, hk]
        exact ⟨Function.update_self _ _ _, _, rfl, rfl, rfl, rfl⟩
      · rw [Function.update_of_ne hk] at hgrant
        obtain ⟨hremoved, hissued⟩ := h.held k grant hgrant
        rw [if_neg hk]
        exact ⟨(Function.update_of_ne hk _ _).trans hremoved, hissued⟩
    · intro k i hi hnone
      change s.tickets k = none at hnone
      rw [htickets] at hnone
      rw [hlast] at hi
      by_cases hk : k = batchId
      · rw [hk, Function.update_self] at hnone
        cases hnone
      · rw [if_neg hk] at hi
        rw [Function.update_of_ne hk] at hnone
        rcases h.lost k i hi hnone with hremoved | hexpired
        · exact .inl ((Function.update_of_ne hk _ _).trans hremoved)
        · exact .inr hexpired

theorem Inv.expire (h : Inv w) :
    Inv { w with coordinator := w.coordinator.expireTickets w.clock } := by
  refine ⟨h.distinct, h.owner, ?_, ?_⟩
  · intro k grant hgrant
    exact h.held k grant (expireTickets_eq_some.1 hgrant).1
  · intro k i hlast hnone
    cases hticket : w.coordinator.tickets k with
    | none => exact h.lost k i hlast hticket
    | some grant =>
      obtain ⟨-, j, hlast', -, -, hexpires⟩ := h.held k grant hticket
      obtain rfl : i = j := Option.some.inj (hlast.symm.trans hlast')
      by_contra hlive
      rw [not_or, Nat.not_le] at hlive
      have hgood := expireTickets_eq_some.2 ⟨hticket, hexpires ▸ hlive.2⟩
      cases hgood.symm.trans hnone

theorem Inv.revoke (h : Inv w) : Inv { w with
    coordinator := w.coordinator.revokePhone phoneId w.clock
    removed := fun batchId => w.removed batchId ||
      (w.lastIssued batchId).any fun i => i.phoneId == phoneId } := by
  have hrevokes := revokePhone_effect w.coordinator phoneId w.clock
  refine ⟨h.distinct, ?_, ?_, ?_⟩
  · intro k i hlast
    obtain ⟨batch, hload, howner⟩ := h.owner k i hlast
    obtain ⟨batch', hload', hsame⟩ := hrevokes.keeps k batch hload
    exact ⟨batch', hload', hsame.trans howner⟩
  · intro k grant hgrant
    obtain ⟨hticket, hother⟩ := Option.filter_eq_some_iff.1 (hrevokes.held k grant hgrant)
    obtain ⟨hremoved, i, hlast, hphone, hissued⟩ := h.held k grant hticket
    refine ⟨?_, i, hlast, hphone, hissued⟩
    change (w.removed k || (w.lastIssued k).any fun i => i.phoneId == phoneId) = false
    rw [hlast, hremoved, Bool.false_or, Option.any_some, beq_eq_false_iff_ne, ← hphone]
    exact of_decide_eq_true hother
  · intro k i hlast hnone
    change w.lastIssued k = some i at hlast
    by_cases hphone : i.phoneId = phoneId
    · left
      change (w.removed k || (w.lastIssued k).any fun i => i.phoneId == phoneId) = true
      rw [hlast, Option.any_some, hphone, beq_self_eq_true, Bool.or_true]
    · cases hticket : w.coordinator.tickets k with
      | none =>
        rcases h.lost k i hlast hticket with hremoved | hexpired
        · left
          change (w.removed k || _) = true
          rw [hremoved, Bool.true_or]
        · exact .inr hexpired
      | some grant =>
        obtain ⟨-, j, hlast', hsame, -⟩ := h.held k grant hticket
        obtain rfl : i = j := Option.some.inj (hlast.symm.trans hlast')
        obtain ⟨batch, hload, howner⟩ := h.owner k i hlast
        have hkept := hrevokes.others k grant batch
          (Option.filter_eq_some_iff.2 ⟨hticket, decide_eq_true (hsame ▸ hphone)⟩) hload
          (howner ▸ hphone)
        cases hkept.symm.trans hnone

theorem step_inv {e : TicketEvent} (h : Inv w) (hs : w.step e = some w') : Inv w' := by
  cases e with
  | advance seconds =>
    obtain rfl := Option.some.inj hs
    refine ⟨h.distinct, h.owner, h.held, fun k i hlast hnone => ?_⟩
    rcases h.lost k i hlast hnone with hremoved | hexpired
    · exact .inl hremoved
    · exact .inr (hexpired.trans (Nat.le_add_right _ _))
  | acceptOffer offer phoneId busy token =>
    rw [step] at hs
    split_ifs at hs with hdrawn
    split at hs
    · rename_i coordinator reply hoffer
      obtain rfl := Option.some.inj hs
      exact h.reply hdrawn (acceptOffer_effect hoffer)
    · obtain rfl := Option.some.inj hs
      exact h
  | acceptDecision decision phoneId token =>
    rw [step] at hs
    split_ifs at hs with hdrawn
    split at hs
    · rename_i coordinator reply hdecision
      obtain rfl := Option.some.inj hs
      exact h.reply hdrawn (acceptDecision_effect hdecision)
    · rename_i coordinator hdecision
      obtain rfl := Option.some.inj hs
      obtain ⟨htickets, hkeeps, -⟩ := cancel_effect (acceptDecision_effect hdecision)
      exact h.remove htickets hkeeps
    · obtain rfl := Option.some.inj hs
      exact h
  | cancel batchId phoneId =>
    rw [step] at hs
    split at hs
    · rename_i coordinator hcancel
      obtain rfl := Option.some.inj hs
      obtain ⟨htickets, hkeeps, -⟩ := cancel_effect hcancel
      exact h.remove htickets hkeeps
    · obtain rfl := Option.some.inj hs
      exact h
  | complete batchId entries =>
    rw [step] at hs
    split at hs
    · rename_i coordinator hcomplete
      obtain rfl := Option.some.inj hs
      obtain ⟨htickets, hkeeps⟩ := complete_effect hcomplete
      exact h.remove htickets hkeeps
    · obtain rfl := Option.some.inj hs
      exact h
  | revokePhone phoneId =>
    obtain rfl := Option.some.inj hs
    exact h.revoke
  | authorize batchId bearer =>
    obtain rfl := Option.some.inj hs
    rcases authorizeRequest_fst w.coordinator batchId bearer w.clock with hsame | hexpired
    · rw [hsame]
      exact h
    · rw [hexpired]
      exact h.expire
  | createBatch batch =>
    rw [step] at hs
    split_ifs at hs with hnew
    obtain rfl := Option.some.inj hs
    refine h.keeps (s := w.coordinator.createBatch batch) rfl (keepsOwners_insert fun old hold => ?_)
    rw [hold] at hnew
    exact absurd rfl hnew
  | updateState batchId state =>
    obtain ⟨coordinator, hupdate, rfl⟩ := Option.map_eq_some_iff.1 hs
    obtain ⟨htickets, hkeeps⟩ := updateState_effect hupdate
    exact h.keeps htickets hkeeps

/-- After every history of calls a request is let in exactly with the ticket most recently
issued for its batch, while it is good and was not taken back, for a batch that still runs and
is the phone's that got the ticket; older tickets and those of other batches are refused. -/
theorem ticket_authorization (es : List TicketEvent) :
    Machine.Always step Authorizes {} es :=
  Machine.always_of_invariant Inv es inv_start (fun _ h => h.authorizes) fun _ _ _ h hs =>
    step_inv h hs

end TicketRun
end FlowType
