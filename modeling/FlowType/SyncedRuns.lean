import FlowType.PhoneTexts

/-! A run that restores no overtaken draft keeps phone and Windows in step: whatever is
queued, under way, applied or acknowledged is an issued text of its session, and the order
of the channel lets nothing fall behind what was applied. -/
namespace FlowType

namespace SyncRun
open Machine Revision

variable {reached : List TextRevision}

/-- The injector's active session is where the history is, and what it has completed is
what the session was finished with. -/
structure Holds (injector : Injector) (reached ended : List TextRevision) : Prop where
  active : ∀ a ∈ injector.session, a.revision ∈ reached ∧ ∀ r ∈ reached, Upto r a.revision
  completed : ∀ c ∈ injector.completed, lastEnded ended c.id = some c.revision
  ended : ∀ c ∈ ended, c ∈ reached

section Injector

variable {s t : Injector} {request : InjectorRequest} {response : InjectorResponse}
  {ended : List TextRevision}

/-- What is finished now does not count until something was completed. -/
theorem endedAfter_cases (ended : List TextRevision)
    (h : Injector.Outcome s request t response) :
    endedAfter s t ended = ended ∧ (t.completed = s.completed ∨ t.completed = none) ∨
      ∃ a, s.session = some a ∧ t.completed = some ⟨a.id, a.sequence, a.text⟩ ∧
        endedAfter s t ended = a.revision :: ended := by
  unfold endedAfter
  by_cases hsame : t.completed = s.completed
  · rw [if_pos hsame]
    exact Or.inl ⟨rfl, Or.inl hsame⟩
  · rw [if_neg hsame]
    rcases h.completed_eq with heq | hnone | ⟨a, hactive, hcompleted⟩
    · exact absurd heq hsame
    · rw [hnone]
      exact Or.inl ⟨rfl, Or.inr rfl⟩
    · rw [hcompleted]
      exact Or.inr ⟨a, hactive, rfl, rfl⟩

theorem settle_grows (hholds : Holds s reached ended)
    (h : Injector.Outcome s request t response) :
    Grows reached ended (reachedAfter t reached) (endedAfter s t ended) := by
  refine ⟨List.subset_append_right _ _, ?_⟩
  intro id c hc
  rcases endedAfter_cases ended h with ⟨hsame, -⟩ | ⟨a, hactive, -, hnew⟩
  · rw [hsame]
    exact ⟨c, hc, le_refl _⟩
  · rw [hnew, lastEnded_cons]
    split
    · next hkey =>
      obtain ⟨hmem, hid⟩ := lastEnded_mem hc
      refine ⟨_, rfl, ?_⟩
      exact (hholds.active a hactive).2 c (hholds.ended c hmem) (hid.trans hkey.symm)
    · exact ⟨c, hc, le_refl _⟩

theorem Holds.settle (hholds : Holds s reached ended)
    (h : Injector.Outcome s request t response)
    (hahead : ∀ m ∈ request.revision?, ∀ r ∈ reached, Upto r m) :
    Holds t (reachedAfter t reached) (endedAfter s t ended) := by
  have hbehind : ∀ a ∈ t.session, ∀ r ∈ reached, Upto r a.revision := by
    intro a ha
    rcases h.session_eq a ha with hsame | hrevision
    · exact (hholds.active a hsame).2
    · exact hahead a.revision hrevision
  refine ⟨?_, ?_, ?_⟩
  · intro a ha
    have hafter : reachedAfter t reached = a.revision :: reached := by
      unfold reachedAfter
      rw [ha]
      rfl
    rw [hafter]
    refine ⟨List.mem_cons_self, ?_⟩
    intro r hr
    rcases List.mem_cons.mp hr with rfl | hold
    · exact Upto.refl _
    · exact hbehind a ha r hold
  · intro c hc
    rcases endedAfter_cases ended h with ⟨hsame, hcompleted⟩ | ⟨a, -, hcompleted, hnew⟩
    · rw [hsame]
      rcases hcompleted with hcompleted | hnone
      · exact hholds.completed c (hcompleted ▸ hc)
      · rw [hnone] at hc
        cases hc
    · rw [hnew, lastEnded_cons]
      rw [hcompleted] at hc
      cases hc
      exact if_pos rfl
  · intro c hc
    rcases endedAfter_cases ended h with ⟨hsame, -⟩ | ⟨a, hactive, -, hnew⟩
    · rw [hsame] at hc
      exact List.mem_append_right _ (hholds.ended c hc)
    · rw [hnew] at hc
      rcases List.mem_cons.mp hc with rfl | hold
      · exact List.mem_append_right _ (hholds.active a hactive).1
      · exact List.mem_append_right _ (hholds.ended c hold)

/-- The texts that a settled request adds were under way first. -/
theorem settle_flow {held : Option TextRevision} {rest : List TextRevision}
    (hholds : Holds s reached ended) (h : Injector.Outcome s request t response)
    (hflow : Flow issued reached (request.revision?.toList ++ rest) held) :
    Flow issued (reachedAfter t reached) (request.revision?.toList ++ rest) held := by
  unfold reachedAfter
  cases hsession : t.session with
  | none => exact hflow
  | some a =>
    rcases h.session_eq a hsession with hsame | hrevision
    · exact hflow.again (hholds.active a hsame).1
    · rw [hrevision] at hflow ⊢
      exact hflow.reach

end Injector

/-- The text that a message under way brings. -/
def handlingRevision (handling : Handling) : Option TextRevision := handling.request.revision?

def underway (s : SyncRun) : List TextRevision :=
  (s.task.bind fun task => handlingRevision task.2).toList ++
    s.toServer.filterMap fun frame => frame.2.revision?

def ackOf : ServerMessage → Option AckMessage
  | .ack ack => some ack
  | _ => none

def acks (s : SyncRun) : List AckMessage := s.posted ++ s.toPhone.filterMap ackOf

structure Inv (s : SyncRun) : Prop where
  phone : PhoneInv s.phone s.saved s.reached s.ended
  acks : ∀ ack ∈ s.acks, Covered s.reached s.ended ack
  travels : Travels (texts s.phone) s.reached s.underway s.queue
  holds : Holds s.injector s.reached s.ended

section Handling

variable {handling : Handling} {result : DispatchResult}

theorem injectorState_quiet (sessionId : String) (response : InjectorResponse) :
    ackOf (injectorState sessionId response) = none := by
  cases response <;> rfl

theorem injectorFailure_quiet (sessionId : String) (failure : InjectorRequestFailure) :
    ackOf (injectorFailure sessionId failure) = none := by
  cases failure <;> rfl

def Repeats (request : InjectorRequest) (response : InjectorResponse) (ack : AckMessage) : Prop :=
  request.sessionId? = some ack.sessionId ∧
    (response = .applied ack.appliedSequence ∧ ack.finished = false ∨
      response = .finished ack.appliedSequence ∨
      ∃ text, response = .sessionFinished ack.sessionId ack.appliedSequence text)

theorem proceed_failed (handling : Handling) (failure : InjectorRequestFailure) :
    (handling.proceed (.error failure)).1.filterMap ackOf = [] ∧
      (handling.proceed (.error failure)).2 = none := by
  cases handling with
  | begin snapshot => exact ⟨by simp [Handling.proceed, injectorFailure_quiet], rfl⟩
  | apply snapshot finishing => exact ⟨by simp [Handling.proceed, injectorFailure_quiet], rfl⟩
  | resume m => exact ⟨by simp [Handling.proceed, injectorFailure_quiet], rfl⟩
  | finish sessionId sequence => exact ⟨by simp [Handling.proceed, injectorFailure_quiet], rfl⟩
  | cancel m => exact ⟨rfl, rfl⟩

theorem state_no_ack {sessionId : String} {response : InjectorResponse} {ack : AckMessage}
    (h : ack ∈ [injectorState sessionId response].filterMap ackOf) : False := by
  rw [List.filterMap_cons_none (injectorState_quiet sessionId response)] at h
  cases h

theorem proceed_acks {response : InjectorResponse} {ack : AckMessage}
    (h : ack ∈ (handling.proceed (.ok response)).1.filterMap ackOf) :
    Repeats handling.request response ack := by
  cases handling with
  | begin snapshot =>
    cases response with
    | sessionBegun targetName => cases h
    | sessionFinished sessionId sequence fullText =>
      simp only [Handling.proceed] at h
      split at h
      · next hsame =>
        obtain ⟨rfl, -, -⟩ := hsame
        obtain rfl := List.mem_singleton.mp h
        exact ⟨rfl, Or.inr (Or.inr ⟨fullText, rfl⟩)⟩
      · exact (state_no_ack h).elim
    | _ => exact (state_no_ack h).elim
  | apply snapshot finishing =>
    cases response with
    | applied sequence =>
      simp only [Handling.proceed] at h
      split at h
      · cases h
      · obtain rfl := List.mem_singleton.mp h
        exact ⟨rfl, Or.inl ⟨rfl, rfl⟩⟩
    | _ => exact (state_no_ack h).elim
  | resume m =>
    cases response with
    | applied sequence =>
      simp only [Handling.proceed] at h
      split at h
      · cases h
      · obtain rfl := List.mem_singleton.mp h
        exact ⟨rfl, Or.inl ⟨rfl, rfl⟩⟩
    | finished sequence =>
      obtain rfl := List.mem_singleton.mp h
      exact ⟨rfl, Or.inr (Or.inl rfl)⟩
    | _ => exact (state_no_ack h).elim
  | finish sessionId sequence =>
    cases response with
    | finished n =>
      obtain rfl := List.mem_singleton.mp h
      exact ⟨rfl, Or.inr (Or.inl rfl)⟩
    | _ => exact (state_no_ack h).elim
  | cancel m => cases h

/-- What is asked next brings the same text or none. -/
theorem proceed_next {response : InjectorResponse} {next : Handling}
    (h : (handling.proceed (.ok response)).2 = some next) :
    handlingRevision next = none ∨ handlingRevision next = handlingRevision handling := by
  cases handling with
  | begin snapshot =>
    cases response with
    | sessionBegun targetName =>
      cases h
      exact Or.inr rfl
    | sessionFinished sessionId sequence fullText =>
      simp only [Handling.proceed] at h
      split at h <;> cases h
    | _ => cases h
  | apply snapshot finishing =>
    cases response with
    | applied sequence =>
      simp only [Handling.proceed] at h
      split at h
      · cases h
        exact Or.inl rfl
      · cases h
    | _ => cases h
  | resume m =>
    cases response with
    | applied sequence =>
      simp only [Handling.proceed] at h
      split at h
      · cases h
        exact Or.inl rfl
      · cases h
    | _ => cases h
  | finish sessionId sequence => cases response <;> cases h
  | cancel m => cases h

/-- An acknowledgement of what the injector has said is covered by the history. -/
theorem repeats_covered {s t : Injector} {request : InjectorRequest}
    {response : InjectorResponse} {ack : AckMessage} {ended : List TextRevision}
    (h : Injector.Outcome s request t response)
    (hholds : Holds t (reachedAfter t reached) (endedAfter s t ended))
    (hrepeats : Repeats request response ack) :
    Covered (reachedAfter t reached) (endedAfter s t ended) ack := by
  obtain ⟨hid, hcases⟩ := hrepeats
  have hfinal : ∀ text, response = .finished ack.appliedSequence ∨
      response = .sessionFinished ack.sessionId ack.appliedSequence text →
        Covered (reachedAfter t reached) (endedAfter s t ended) ack := by
    intro text hresponse
    obtain ⟨c, hcompleted, hown, hnumber⟩ := h.of_finished hresponse
    have hkey : c.id = ack.sessionId := Option.some.inj (hown.symm.trans hid)
    have hlast := hholds.completed c hcompleted
    refine ⟨⟨c.revision, ?_, hkey, hnumber.ge⟩, fun _ => ⟨c.revision, ?_, hnumber.ge⟩⟩
    · exact hholds.ended _ (lastEnded_mem hlast).1
    · rw [← hkey]
      exact hlast
  rcases hcases with ⟨rfl, hactive⟩ | hfinished | ⟨text, hfinished⟩
  · obtain ⟨a, hsession, hown, hnumber⟩ := h.of_applied
    have hkey : a.id = ack.sessionId := Option.some.inj (hown.symm.trans hid)
    refine ⟨⟨a.revision, (hholds.active a hsession).1, hkey, hnumber.ge⟩, fun hfin => ?_⟩
    rw [hactive] at hfin
    cases hfin
  · exact hfinal "" (Or.inl hfinished)
  · exact hfinal text (Or.inr hfinished)

end Handling

section Steps

variable {s t : SyncRun}

theorem underway_idle (h : s.task = none) :
    s.underway = s.toServer.filterMap fun frame => frame.2.revision? := by
  unfold underway
  rw [h]
  rfl

theorem underway_task {generation : Nat} {handling : Handling}
    (h : s.task = some (generation, handling)) :
    s.underway = (handlingRevision handling).toList ++
      s.toServer.filterMap fun frame => frame.2.revision? := by
  unfold underway
  rw [h]
  rfl

/-- What a queue sends goes to the end of the line. -/
theorem underway_sent (s : SyncRun) (q : OutboundQueue) (a : Option OutboundAction) :
    underway { s with
      queue := q
      toServer := s.toServer ++ a.toList.map fun x => (s.generation, sendAction q x) } =
        sentLine s.underway a := by
  unfold underway sentLine
  rw [List.filterMap_append, List.append_assoc]
  cases a with
  | none => rfl
  | some x =>
    congr 2
    simp [sendAction_revision]

theorem queueOp_inv (h : s.Inv) {op : OutboundQueue.Op} (hop : ∀ m, op ≠ .offer m)
    (hgiven : ∀ m ∈ op.given, Newest (texts s.phone) m.revision) (ht : s.queueOp op = some t) :
    t.Inv := by
  obtain ⟨⟨q, a⟩, hq, rfl⟩ := Option.map_eq_some_iff.mp ht
  refine ⟨h.phone, h.acks, ?_, h.holds⟩
  rw [underway_sent]
  exact h.travels.apply hop hgiven hq

theorem queueOp_inv_plain (h : s.Inv) {op : OutboundQueue.Op} (hop : op.given = none)
    (ht : s.queueOp op = some t) : t.Inv := by
  refine queueOp_inv h ?_ ?_ ht
  · rintro m rfl
    cases hop
  · intro m hm
    rw [hop] at hm
    cases hm

theorem offer_inv {m : SnapshotMessage} (hphone : PhoneInv s.phone s.saved s.reached s.ended)
    (hacks : ∀ ack ∈ s.acks, Covered s.reached s.ended ack)
    (hholds : Holds s.injector s.reached s.ended)
    (hflow : Flow (texts s.phone) s.reached s.underway (s.queue.inFlight.map (·.revision)))
    (hm : Newest (texts s.phone) m.revision)
    (hkept : s.queue.connected = true → s.queue.inFlight = none →
      ∀ p ∈ s.queue.pending, Newest (texts s.phone) p.revision)
    (ht : s.queueOp (.offer m) = some t) : t.Inv := by
  obtain ⟨⟨q, a⟩, hq, rfl⟩ := Option.map_eq_some_iff.mp ht
  have hr : s.queue.offer m = (q, a) := Option.some.inj hq
  have htravels := offer_travels hflow hm hkept
  rw [hr] at htravels
  refine ⟨hphone, hacks, ?_, hholds⟩
  rw [underway_sent]
  exact htravels

theorem queueOp_phone {op : OutboundQueue.Op} (ht : s.queueOp op = some t) :
    t.phone = s.phone := by
  obtain ⟨r, -, rfl⟩ := Option.map_eq_some_iff.mp ht
  rfl

theorem offerAll_inv {ms : List SnapshotMessage} (h : s.Inv)
    (hms : ∀ m ∈ ms, Newest (texts s.phone) m.revision) (ht : s.offerAll ms = some t) :
    t.Inv := by
  induction ms generalizing s with
  | nil =>
    cases ht
    exact h
  | cons m ms ih =>
    obtain ⟨u, hu, ht⟩ := Option.bind_eq_some_iff.mp ht
    have hoffered := offer_inv h.phone h.acks h.holds h.travels.flow (hms m List.mem_cons_self)
      (fun _ _ => h.travels.pending) hu
    refine ih hoffered ?_ ht
    rw [queueOp_phone hu]
    exact fun x hx => hms x (List.mem_cons_of_mem m hx)

theorem stepEdit_inv (h : s.Inv) {op : InputSession.Op} (hok : s.InTurn (.edit op))
    (ht : s.stepEdit op = some t) : t.Inv := by
  unfold stepEdit at ht
  split at ht
  · next hop =>
    obtain ⟨⟨s', ms⟩, happly, ht⟩ := Option.bind_eq_some_iff.mp ht
    obtain ⟨phone, hstep, ht⟩ := Option.bind_eq_some_iff.mp ht
    have hphone := h.phone.edit hop hstep
    have htexts := texts_step hstep happly
    obtain ⟨-, s'', ms', happly', hs', -⟩ := SessionRun.step_some hstep
    cases happly.symm.trans happly'
    have hcarries := issued_carries h.phone.history happly
    rw [← hs'] at hcarries
    have hnewest : ∀ m ∈ ms, Newest (texts phone) m.revision := fun m hm =>
      newest_of_carries hphone.history (hcarries m hm)
    have hone := texts_oneValue hphone.history
    rw [htexts] at hone
    have hflow := h.travels.flow.issue hone
    rw [← htexts] at hflow
    cases ms with
    | nil =>
      cases ht
      refine ⟨hphone, h.acks, ?_, h.holds⟩
      have hsame : texts phone = texts s.phone := htexts
      change Travels (texts phone) s.reached s.underway s.queue
      rw [hsame]
      exact h.travels
    | cons m ms =>
      obtain ⟨u, hu, ht⟩ := Option.bind_eq_some_iff.mp ht
      have hoffered := offer_inv (s := { s with phone := phone }) hphone h.acks h.holds hflow
        (hnewest m List.mem_cons_self) ?_ hu
      · refine offerAll_inv hoffered ?_ ht
        rw [queueOp_phone hu]
        exact fun x hx => hnewest x (List.mem_cons_of_mem m hx)
      · intro hconnected hidle p hp
        refine kept_newest h.phone.history hop hstep (h.travels.pending p hp) ?_
        rintro text b newId rfl hid
        exact hok hconnected hidle p hp hid
  · cases ht

theorem Inv.shrink (h : s.Inv) (hphone : t.phone = s.phone) (hsaved : t.saved = s.saved)
    (hreached : t.reached = s.reached) (hended : t.ended = s.ended)
    (hinjector : t.injector = s.injector) (hacks : t.acks ⊆ s.acks)
    (hline : t.underway.Sublist s.underway) (hflight : t.queue.inFlight = s.queue.inFlight)
    (hpending : t.queue.pending = s.queue.pending) (hlatest : t.queue.latest = s.queue.latest) :
    t.Inv := by
  refine ⟨?_, ?_, ⟨?_, ?_, ?_, ?_⟩, ?_⟩
  · rw [hphone, hsaved, hreached, hended]
    exact h.phone
  · rw [hreached, hended]
    exact fun ack hack => h.acks ack (hacks hack)
  · rw [hphone, hreached, hflight]
    exact h.travels.flow.sublist hline
  · unfold OutboundQueue.Tidy
    rw [hlatest, hpending, hflight]
    exact h.travels.tidy
  · rw [hlatest, hphone]
    exact h.travels.latest
  · rw [hpending, hphone]
    exact h.travels.pending
  · rw [hinjector, hreached, hended]
    exact h.holds

theorem take_underway (s : SyncRun) (arriving : Nat) :
    ((s.task.bind fun task => handlingRevision task.2).toList ++
      (s.toServer.take arriving).filterMap fun frame => frame.2.revision?).Sublist s.underway :=
  (List.Sublist.refl _).append ((List.take_sublist _ _).filterMap _)

theorem lose_inv (h : s.Inv) (arriving : Nat) : (s.lose arriving).Inv := by
  refine h.shrink rfl rfl rfl rfl rfl ?_ (take_underway s arriving) rfl rfl rfl
  unfold acks lose
  dsimp only
  rw [List.filterMap_nil, List.append_nil]
  exact List.subset_append_left _ _

theorem stepAbandon_inv (h : s.Inv) (ht : s.stepAbandon = some t) : t.Inv := by
  unfold stepAbandon at ht
  refine queueOp_inv_plain ?_ rfl ht
  refine h.shrink rfl rfl rfl rfl rfl (List.Subset.refl _) ?_ rfl rfl rfl
  unfold underway
  dsimp only
  rw [List.filterMap_append]
  -- a Cancel brings no text
  have hcancel : ∀ ids : List String, (ids.map fun id => (s.generation,
      Frame.cancel { phoneId := s.phone.session.phoneId, sessionId := id })).filterMap
        (fun frame => frame.2.revision?) = [] := by
    intro ids
    rw [List.filterMap_map, List.filterMap_eq_nil_iff]
    exact fun _ _ => rfl
  split
  · rw [hcancel, List.append_nil]
  · rw [List.filterMap_nil, List.append_nil]

theorem Inv.withPhone (h : s.Inv) {phone : SessionRun} {saved : List ParkedSession}
    {posted : List AckMessage} (hphone : PhoneInv phone saved s.reached s.ended)
    (htexts : texts phone = texts s.phone) (hposted : posted ⊆ s.posted) :
    Inv { s with phone := phone, saved := saved, posted := posted } := by
  refine ⟨hphone, ?_, ?_, h.holds⟩
  · intro ack hack
    refine h.acks ack ?_
    rcases List.mem_append.mp hack with hold | hlater
    · exact List.mem_append_left _ (hposted hold)
    · exact List.mem_append_right _ hlater
  · change Travels (texts phone) s.reached s.underway s.queue
    rw [htexts]
    exact h.travels

theorem stepSave_inv (h : s.Inv) {remoteStarted : Bool} (ht : s.stepSave remoteStarted = some t) :
    t.Inv := by
  unfold stepSave at ht
  split at ht
  · obtain ⟨phone, hstep, rfl⟩ := Option.map_eq_some_iff.mp ht
    have hphone := h.phone.save remoteStarted hstep
    exact h.withPhone hphone (texts_step hstep rfl) (List.Subset.refl _)
  · cases ht

theorem stepRestore_inv (h : s.Inv) {parked : ParkedSession} (hok : s.InTurn (.restore parked))
    (ht : s.stepRestore parked = some t) : t.Inv := by
  unfold stepRestore at ht
  split at ht
  · next hparked =>
    obtain ⟨phone, hstep, rfl⟩ := Option.map_eq_some_iff.mp ht
    have hphone := h.phone.restore hparked hok hstep
    obtain ⟨-, s', ms, happly, -⟩ := SessionRun.step_some hstep
    have htexts := texts_step hstep happly
    obtain ⟨restored, -, heq⟩ := Option.map_eq_some_iff.mp happly
    cases heq
    exact h.withPhone hphone htexts (List.Subset.refl _)
  · cases ht

theorem stepRestoreQueue_inv (h : s.Inv) {parked : ParkedSession}
    (ht : s.stepRestoreQueue parked = some t) : t.Inv := by
  unfold stepRestoreQueue at ht
  split at ht
  · split at ht
    · cases ht
      exact h
    · next m hm =>
      refine queueOp_inv h (by rintro x ⟨⟩) ?_ ht
      rintro x ⟨⟩
      exact newest_of_carries h.phone.history (SessionRun.snapshot_carries hm)
  · cases ht

theorem stepNewProcess_inv (h : s.Inv) {arriving : Nat}
    (ht : s.stepNewProcess arriving = some t) : t.Inv := by
  obtain ⟨phone, hstep, rfl⟩ := Option.map_eq_some_iff.mp ht
  have hphone := h.phone.edit rfl hstep
  have hsame : texts phone = texts s.phone := texts_step hstep rfl
  refine ⟨hphone, (fun ack hack => nomatch hack), ?_, h.holds⟩
  refine ⟨?_, fun _ => ⟨rfl, rfl⟩, (fun m hm => nomatch hm), (fun m hm => nomatch hm)⟩
  change Flow (texts phone) s.reached _ none
  rw [hsame]
  exact (h.travels.flow.sublist (take_underway s arriving)).release

theorem stepRunAck_inv (h : s.Inv) (ht : s.stepRunAck = some t) : t.Inv := by
  unfold stepRunAck at ht
  split at ht
  · cases ht
  · next ack rest hposted =>
    obtain ⟨phone, hstep, rfl⟩ := Option.map_eq_some_iff.mp ht
    have hmem : ack ∈ s.acks := by
      unfold acks
      rw [hposted]
      exact List.mem_cons_self
    have hphone := h.phone.acknowledge (h.acks ack hmem) hstep
    refine h.withPhone hphone (texts_step hstep rfl) ?_
    rw [hposted]
    exact List.subset_cons_self _ _

theorem stepDeliver_inv (h : s.Inv) (ht : s.stepDeliver = some t) : t.Inv := by
  unfold stepDeliver at ht
  split at ht
  · cases ht
  · next message rest hmessages =>
    have hrest : rest.filterMap ackOf ⊆ s.toPhone.filterMap ackOf := by
      rw [hmessages]
      exact ((List.sublist_cons_self _ _).filterMap ackOf).subset
    have hreceived : Inv { s with toPhone := rest } := by
      refine h.shrink rfl rfl rfl rfl rfl ?_ (List.Sublist.refl _) rfl rfl rfl
      exact List.append_subset.mpr ⟨List.subset_append_left _ _,
        fun ack hack => List.mem_append_right _ (hrest hack)⟩
    cases message with
    | ack ack =>
      simp only [onMessage] at ht
      split at ht
      · cases ht
        exact hreceived
      · refine queueOp_inv_plain ?_ rfl ht
        refine h.shrink rfl rfl rfl rfl rfl ?_ (List.Sublist.refl _) rfl rfl rfl
        have hmem : ack ∈ s.toPhone.filterMap ackOf := by
          rw [hmessages]
          exact List.mem_cons_self
        intro x hx
        rcases List.mem_append.mp hx with hposted | hlater
        · rcases List.mem_append.mp hposted with hold | hnew
          · exact List.mem_append_left _ hold
          · rw [List.mem_singleton.mp hnew]
            exact List.mem_append_right _ hmem
        · exact List.mem_append_right _ (hrest hlater)
    | target sessionId targetState targetName =>
      simp only [onMessage] at ht
      split at ht
      · cases ht
        exact hreceived
      · cases targetState with
        | active => exact queueOp_inv_plain hreceived rfl ht
        | notForeground =>
          cases ht
          exact hreceived
        | invalid => exact queueOp_inv_plain hreceived rfl ht
    | error code sessionId =>
      simp only [onMessage] at ht
      split at ht
      · cases ht
        exact hreceived
      · split at ht
        · cases ht
          exact lose_inv hreceived _
        · split at ht
          · exact queueOp_inv_plain hreceived rfl ht
          · exact queueOp_inv_plain hreceived rfl ht

theorem reply_inv (h : s.Inv) (generation : Nat) {sent : List ServerMessage}
    (hsent : ∀ ack ∈ sent.filterMap ackOf, Covered s.reached s.ended ack) :
    (s.reply generation sent).Inv := by
  unfold reply
  split
  · refine ⟨h.phone, ?_, h.travels, h.holds⟩
    intro ack hack
    unfold acks at hack
    dsimp only at hack
    rw [List.filterMap_append, ← List.append_assoc] at hack
    rcases List.mem_append.mp hack with hold | hnew
    · exact h.acks ack hold
    · exact hsent ack hnew
  · exact h

/-- A frame that passes the checks brings its text to the injector. -/
theorem handle_frame {phoneId : String} {frame : Frame} {sent : List ServerMessage}
    {handling : Option Handling}
    (h : handleClientMessage phoneId frame.received = .ok (sent, handling)) :
    sent.filterMap ackOf = [] ∧
      ∀ next ∈ handling, handlingRevision next = frame.revision? := by
  unfold handleClientMessage at h
  cases hchecked : checkClientMessage phoneId frame.received with
  | error reason =>
    rw [hchecked] at h
    cases h
  | ok code =>
    rw [hchecked] at h
    cases code with
    | some code =>
      cases h
      exact ⟨rfl, fun next hnext => nomatch hnext⟩
    | none =>
      cases h
      refine ⟨rfl, ?_⟩
      rintro next ⟨⟩
      cases frame with
      | snapshot m => rcases htype : m.type <;> simp [Frame.received, htype, Frame.revision?,
          handlingRevision, Handling.request, InjectorRequest.revision?, SnapshotMessage.revision]
      | resume m => rfl
      | cancel m => rfl

theorem stepTake_inv (h : s.Inv) (ht : s.stepTake = some t) : t.Inv := by
  unfold stepTake at ht
  split at ht
  · next generation frame rest htask hframes =>
    have hunderway := underway_idle htask
    rw [hframes] at hunderway
    have hline : (rest.filterMap fun frame => frame.2.revision?).Sublist s.underway := by
      rw [hunderway]
      exact (List.sublist_cons_self _ _).filterMap _
    have hdropped : Inv { s with toServer := rest } := by
      refine h.shrink rfl rfl rfl rfl rfl (List.Subset.refl _) ?_ rfl rfl rfl
      rw [underway_idle (s := { s with toServer := rest }) htask]
      exact hline
    dsimp only at ht
    split at ht
    · cases ht
      exact hdropped
    · split at ht
      · cases ht
        exact hdropped
      · next sent handling hhandled =>
        cases ht
        obtain ⟨hquiet, hrevision⟩ := handle_frame hhandled
        refine reply_inv ?_ generation ?_
        · refine h.shrink rfl rfl rfl rfl rfl (List.Subset.refl _) ?_ rfl rfl rfl
          cases handling with
          | none => exact hline
          | some next =>
            -- the text of the frame is the first one under way, as before
            have hsame := hrevision next rfl
            rw [underway_task rfl, hsame, hunderway]
            cases hframe : frame.revision? with
            | none => exact (List.sublist_cons_self _ _).filterMap _
            | some r =>
              rw [List.filterMap_cons_some (by exact hframe)]
              exact List.Sublist.refl _
        · rw [hquiet]
          exact fun ack hack => nomatch hack
  · cases ht

theorem settled_inv (h : s.Inv) {request : InjectorRequest} {response : InjectorResponse}
    {injector : Injector} (hout : Injector.Outcome s.injector request injector response)
    {rest : List TextRevision} (hline : s.underway = request.revision?.toList ++ rest) :
    (s.settled injector).Inv := by
  have hgrows := settle_grows h.holds hout
  have hflow := h.travels.flow
  rw [hline] at hflow
  have hahead : ∀ m ∈ request.revision?, ∀ r ∈ s.reached, Upto r m := by
    intro m hm r hr
    refine hflow.ahead r hr m (List.mem_append_left _ ?_)
    rw [hm]
    exact List.mem_singleton_self m
  have hsettled := settle_flow h.holds hout hflow
  rw [← hline] at hsettled
  refine ⟨h.phone.mono hgrows, fun ack hack => (h.acks ack hack).mono hgrows, ?_,
    h.holds.settle hout hahead⟩
  exact ⟨hsettled, h.travels.tidy, h.travels.latest, h.travels.pending⟩

theorem proceed_inv (h : s.Inv) {generation : Nat} {handling : Handling} {result : DispatchResult}
    {rest : List TextRevision}
    (hline : s.underway = (handlingRevision handling).toList ++ rest)
    (hrest : rest = s.toServer.filterMap fun frame => frame.2.revision?)
    (hnext : ∀ next ∈ (handling.proceed result).2,
      handlingRevision next = none ∨ handlingRevision next = handlingRevision handling)
    (hsent : ∀ ack ∈ (handling.proceed result).1.filterMap ackOf,
      Covered s.reached s.ended ack) :
    (s.proceed generation handling result).Inv := by
  refine reply_inv ?_ generation hsent
  refine h.shrink rfl rfl rfl rfl rfl (List.Subset.refl _) ?_ rfl rfl rfl
  rw [hline]
  unfold underway
  dsimp only
  rw [← hrest]
  refine List.Sublist.append ?_ (List.Sublist.refl _)
  cases hproceeds : (handling.proceed result).2 with
  | none => exact List.nil_sublist _
  | some next =>
    change (handlingRevision next).toList.Sublist _
    rcases hnext next hproceeds with hnone | hsame
    · rw [hnone]
      exact List.nil_sublist _
    · rw [hsame]

theorem stepServe_inv (h : s.Inv) {env : Surroundings} (ht : s.stepServe env = some t) :
    t.Inv := by
  unfold stepServe at ht
  split at ht
  · cases ht
  · next generation handling htask =>
    have hline := underway_task htask
    obtain ⟨⟨injector, response⟩, hhandle, rfl⟩ := Option.map_eq_some_iff.mp ht
    have hout := s.injector.outcome_of_handle env hhandle
    have hsettled := settled_inv h hout hline
    refine proceed_inv hsettled hline rfl (fun next hnext => proceed_next hnext) ?_
    intro ack hack
    exact repeats_covered hout hsettled.holds (proceed_acks hack)

theorem failed_inv (h : s.Inv) {generation : Nat} {handling : Handling}
    (hline : s.underway = (handlingRevision handling).toList ++
      s.toServer.filterMap fun frame => frame.2.revision?)
    (failure : InjectorRequestFailure) :
    (s.proceed generation handling (.error failure)).Inv := by
  obtain ⟨hquiet, hdone⟩ := proceed_failed handling failure
  refine proceed_inv h hline rfl ?_ ?_
  · rw [hdone]
    exact fun next hnext => nomatch hnext
  · rw [hquiet]
    exact fun ack hack => nomatch hack

theorem stepFail_inv (h : s.Inv) {failure : InjectorRequestFailure}
    {executed : Option Surroundings} (ht : s.stepFail failure executed = some t) : t.Inv := by
  unfold stepFail at ht
  split at ht
  · cases ht
  · next generation handling htask =>
    cases ht
    exact failed_inv h (underway_task htask) failure
  · next generation handling env htask =>
    have hline := underway_task htask
    obtain ⟨⟨injector, response⟩, hhandle, rfl⟩ := Option.map_eq_some_iff.mp ht
    have hout := s.injector.outcome_of_handle env hhandle
    exact failed_inv (settled_inv h hout hline) hline failure

theorem stepOther_inv (h : s.Inv) {request : InjectorRequest} {env : Surroundings}
    (ht : s.stepOther request env = some t) : t.Inv := by
  unfold stepOther at ht
  split at ht
  · next hother =>
    have hrevision : request.revision? = none := by
      cases request with
      | beginSession _ _ _ _ _ => cases hother
      | applyState _ _ _ => cases hother
      | _ => rfl
    obtain ⟨⟨injector, response⟩, hhandle, rfl⟩ := Option.map_eq_some_iff.mp ht
    have hout := s.injector.outcome_of_handle env hhandle
    have hline : s.underway = request.revision?.toList ++ s.underway := by
      rw [hrevision]
      rfl
    exact settled_inv h hout hline
  · cases ht

theorem restarted_inv (h : s.Inv) : (s.settled {}).Inv := by
  have hended : endedAfter s.injector {} s.ended = s.ended := by
    unfold endedAfter
    split <;> rfl
  have hgrows : Grows s.reached s.ended s.reached (endedAfter s.injector {} s.ended) := by
    rw [hended]
    exact ⟨List.Subset.refl _, fun id c hc => ⟨c, hc, le_refl _⟩⟩
  refine ⟨h.phone.mono hgrows, fun ack hack => (h.acks ack hack).mono hgrows, h.travels, ?_⟩
  refine ⟨(fun a ha => nomatch ha), (fun c hc => nomatch hc), ?_⟩
  intro c hc
  change c ∈ endedAfter s.injector {} s.ended at hc
  rw [hended] at hc
  exact h.holds.ended c hc

theorem step_inv (h : s.Inv) {event : Event} (hok : s.InTurn event) (ht : s.step event = some t) :
    t.Inv := by
  cases event with
  | edit op => exact stepEdit_inv h hok ht
  | abandonSession => exact stepAbandon_inv h ht
  | save remoteStarted => exact stepSave_inv h ht
  | restore parked => exact stepRestore_inv h hok ht
  | restoreQueue parked => exact stepRestoreQueue_inv h ht
  | newProcess arriving => exact stepNewProcess_inv h ht
  | connected =>
    change (if s.queue.connected then none else s.queueOp .onConnected) = some t at ht
    split at ht
    · cases ht
    · exact queueOp_inv_plain h rfl ht
  | disconnected arriving =>
    cases ht
    exact lose_inv h arriving
  | retry => exact queueOp_inv_plain h rfl ht
  | startOfflineDraft => exact queueOp_inv_plain h rfl ht
  | deliver => exact stepDeliver_inv h ht
  | runAck => exact stepRunAck_inv h ht
  | take => exact stepTake_inv h ht
  | serve env => exact stepServe_inv h ht
  | fail failure executed => exact stepFail_inv h ht
  | other request env => exact stepOther_inv h ht
  | injectorRestarts =>
    cases ht
    exact restarted_inv h

end Steps

theorem start_inv (phoneId : String) : (start phoneId).Inv := by
  refine ⟨⟨SessionRun.start_historyInv phoneId, ?_, ?_, ?_⟩, ?_, ⟨Flow.empty, ?_, ?_, ?_⟩, ?_⟩
  · exact fun parked hparked => nomatch hparked
  · exact fun id hid => nomatch hid
  · intro hfinished
    cases hfinished
  · exact fun ack hack => nomatch hack
  · exact fun _ => ⟨rfl, rfl⟩
  · exact fun m hm => nomatch hm
  · exact fun m hm => nomatch hm
  · exact ⟨(fun a ha => nomatch ha), (fun c hc => nomatch hc), (fun c hc => nomatch hc)⟩

/-- A text with the session's number, or beyond it, is the session's text. -/
theorem text_of_number {s : SyncRun} (h : s.Inv) {r : TextRevision} (hr : r ∈ s.reached)
    (hid : s.phone.session.sessionId = some r.key)
    (hnumber : s.phone.session.latestSequence ≤ r.number) :
    r.value = s.phone.session.currentText := by
  have hflow := h.travels.flow
  have hissued := hflow.reached_issued r hr
  obtain ⟨m, hm, hown, hlatest, htext⟩ := h.phone.history.session.issued r.key hid
  obtain ⟨m', hm', rfl⟩ := mem_texts.mp hissued
  have hle := h.phone.history.newest m' hm' hid.symm
  have hequal := hflow.value_eq (mem_texts.mpr ⟨m, hm, rfl⟩) hissued hown
    (hlatest.le.trans hnumber) (hle.trans hlatest.ge)
  exact hequal.symm.trans htext

theorem Inv.synced {s : SyncRun} (h : s.Inv) : s.Synced := by
  intro id hid
  constructor
  · intro a ha hown hacknowledged
    -- a session has a number, so something was acknowledged
    have hpositive : 0 < s.phone.session.acknowledgedSequence := by
      have hnumbered := h.phone.history.session.numbered
      have hbounds := h.phone.history.session.acknowledged
      have hne : s.phone.session.latestSequence ≠ 0 := by
        intro hzero
        have hnone : s.phone.session.sessionId = none := hnumbered.mpr hzero
        rw [hnone] at hid
        cases hid
      have hnonneg : 0 ≤ s.phone.session.acknowledgedSequence := hbounds.1
      omega
    obtain ⟨r, hr, hkey, hle⟩ := h.phone.session id hid hpositive
    obtain ⟨hreached, hahead⟩ := h.holds.active a ha
    have hlater := hahead r hr (hkey.trans hown.symm)
    refine text_of_number h hreached ?_ ?_
    · change s.phone.session.sessionId = some a.id
      rw [hown]
      exact hid
    · have hnumber : s.phone.session.acknowledgedSequence ≤ r.number := hle
      exact hacknowledged.ge.trans (hnumber.trans hlater)
  · intro hfinished
    obtain ⟨id', hid', c, hc, hle⟩ := h.phone.finished hfinished
    obtain rfl : id' = id := Option.some.inj (hid'.symm.trans hid)
    obtain ⟨hmem, hkey⟩ := lastEnded_mem hc
    have htext := text_of_number h (h.holds.ended c hmem) (by rw [hkey]; exact hid) hle
    unfold lastEnded at hc
    rw [hc, ← htext]
    rfl

/-- Whatever the user, the connections and the processes do: when no overtaken draft is
restored and no snapshot is kept back behind a newer one, what the phone shows as
acknowledged is what Windows has. -/
theorem acknowledged_synced (phoneId : String) (events : List Event)
    (h : Along step InTurn (start phoneId) events) : Always step Synced (start phoneId) events := by
  refine always_of_along Inv events (start_inv phoneId) (start_inv phoneId).synced ?_ h
  intro s event t hs hok ht
  have htinv := step_inv hs hok ht
  exact ⟨htinv, htinv.synced⟩

/-- A text service that is there to be begun in. -/
def editor : Surroundings :=
  { desktop := { foreground := some ⟨1, 1, "Editor"⟩ }, tip := some ⟨⟨1, 1⟩, 0⟩ }

/-- The draft after the first character, acknowledged. -/
def firstDraft : ParkedSession :=
  { state := { sessionId := some "s1", text := "a", latestSequence := 1, acknowledgedSequence := 1
               finishing := false }
    remoteStarted := true }

def firstCharacterRun : List Event :=
  [.connected, .edit (.onTextChanged "a" true "s1"), .take, .serve editor, .serve editor,
    .deliver, .deliver, .runAck, .save true]

/-- The second character is sent and acknowledged as well. -/
def secondCharacterRun : List Event :=
  firstCharacterRun ++
    [.edit (.onTextChanged "ab" true "s2"), .take, .serve editor, .deliver, .runAck]

theorem acknowledged_synced_restored :
    Always step Synced (start "phone")
      (firstCharacterRun ++ [.newProcess 0, .restore firstDraft, .restoreQueue firstDraft]) :=
  acknowledged_synced "phone" _ (by decide +kernel)

/-- The process dies after the second character: the draft of the first one comes back as
acknowledged, and Windows has both. -/
theorem stale_draft_not_synced :
    ¬ Always step Synced (start "phone")
      (secondCharacterRun ++ [.newProcess 0, .restore firstDraft]) := by
  decide +kernel

-- The START is kept back after an error while the next character goes out and is
-- acknowledged; then the START is sent again, and a session that was cancelled meanwhile
-- begins with the first character.
example : ¬ Always step Synced (start "phone")
      [.connected, .edit (.onTextChanged "a" true "s1"), .take, .serve editor,
        .fail .unavailable (some editor), .deliver, .deliver,
        .edit (.onTextChanged "ab" true "s2"), .take, .serve editor, .deliver, .runAck,
        .other (.cancelInvalidSession "s1") editor, .take, .serve editor] := by
  decide +kernel

end SyncRun

end FlowType
