import FlowType.ReliablePipe
import FlowType.Connections

/-! Whether the injector can keep a session that no connection and no timer of the
desktop app knows of any more. -/
namespace FlowType

open Machine

def Handling.sessionId : Handling → String
  | .begin snapshot => snapshot.sessionId
  | .apply snapshot _ => snapshot.sessionId
  | .resume m => m.sessionId
  | .finish sessionId _ => sessionId
  | .cancel m => m.sessionId

theorem Handling.proceed_sessionId {handling handling' : Handling} {result : DispatchResult}
    (h : (handling.proceed result).2 = some handling') :
    handling'.sessionId = handling.sessionId := by
  cases result with
  | error failure => cases handling <;> simp [proceed] at h
  | ok response =>
    cases handling with
    | begin snapshot =>
      simp only [proceed] at h
      split at h
      · obtain rfl := Option.some.inj h
        rfl
      · split_ifs at h
      · simp at h
    | apply snapshot finishing =>
      simp only [proceed] at h
      split at h
      · split_ifs at h
        obtain rfl := Option.some.inj h
        rfl
      · simp at h
    | resume m =>
      simp only [proceed] at h
      split at h
      · simp at h
      · split_ifs at h
        obtain rfl := Option.some.inj h
        rfl
      · simp at h
    | finish sessionId n =>
      simp only [proceed] at h
      split at h <;> simp at h
    | cancel m => simp [proceed] at h

/-- A message that passes its checks sends nothing before its first request. -/
theorem handleClientMessage_handling {phoneId : String} {message : ClientMessage}
    {sent : List ServerMessage} {handling : Handling}
    (h : handleClientMessage phoneId message = .ok (sent, some handling)) :
    sent = [] ∧ handling.sessionId = (SessionTransition.fromMessage message).sessionId ∧
      ∀ snapshot, message = .start snapshot → handling = .begin snapshot := by
  unfold handleClientMessage at h
  cases hc : checkClientMessage phoneId message with
  | error failure => simp [hc, Except.map] at h
  | ok code =>
    cases code with
    | some code => simp [hc, Except.map] at h
    | none =>
      simp only [hc, Except.map, Except.ok.injEq, Prod.mk.injEq, Option.some.injEq] at h
      obtain ⟨rfl, rfl⟩ := h
      refine ⟨rfl, ?_, ?_⟩
      · cases message with
        | start snapshot => rfl
        | update snapshot => rfl
        | finish snapshot => rfl
        | resume m =>
          simp only [Handling.sessionId, SessionTransition.fromMessage]
          split_ifs <;> rfl
        | cancel m => rfl
      · rintro snapshot rfl
        rfl

namespace Connection

/-- No request of the connection is under way. -/
def Settled (c : Connection) : Prop :=
  ∀ task, c.task ≠ some (task, .ready) ∧ c.task ≠ some (task, .waiting)

/-- The connection is about to have the session replaced: the injector has not
read its Begin yet. -/
def Replacing (c : Connection) (phase : Phase) (id : String) : Prop :=
  ∃ snapshot transition progress,
    c.task = some (.message (.begin snapshot) transition, progress) ∧
    snapshot.replacesSessionId = some id ∧ snapshot.sessionId ≠ id ∧
    (progress = .ready ∨
      (progress = .waiting ∧ ∀ request attempt, phase ≠ .receive request attempt))

def Tracking (c : Connection) : Prop :=
  ∀ handling transition progress, c.task = some (.message handling transition, progress) →
    c.inputSession = some handling.sessionId ∧ handling.sessionId = transition.sessionId

theorem Settled.not_replacing {c : Connection} (h : c.Settled) (phase : Phase) (id : String) :
    ¬ c.Replacing phase id := by
  rintro ⟨snapshot, transition, progress, htask, -, -, rfl | ⟨rfl, -⟩⟩
  · exact (h _).1 htask
  · exact (h _).2 htask

theorem Replacing.phase {c : Connection} {phase phase' : Phase} {id : String}
    (h : c.Replacing phase id) (hp : ∀ request attempt, phase' ≠ .receive request attempt) :
    c.Replacing phase' id := by
  obtain ⟨snapshot, transition, progress, htask, hrep, hne, hprog⟩ := h
  refine ⟨snapshot, transition, progress, htask, hrep, hne, ?_⟩
  rcases hprog with hprog | ⟨hprog, -⟩
  · exact Or.inl hprog
  · exact Or.inr ⟨hprog, hp⟩

/-- While the answer to another request is awaited, the Begin has not been sent. -/
theorem Replacing.ready {c : Connection} {phase : Phase} {id : String} (h : c.Replacing phase id)
    (hp : ∃ request attempt, phase = .receive request attempt) :
    (∃ task, c.task = some (task, .ready)) ∧ ∀ phase', c.Replacing phase' id := by
  obtain ⟨snapshot, transition, progress, htask, hrep, hne, rfl | ⟨-, hprog⟩⟩ := h
  · exact ⟨⟨_, htask⟩, fun _ => ⟨snapshot, transition, .ready, htask, hrep, hne, Or.inl rfl⟩⟩
  · obtain ⟨request, attempt, hp⟩ := hp
    exact absurd hp (hprog request attempt)

theorem settled_of_none {c : Connection} (h : c.task = none) : c.Settled := by
  intro task
  simp [h]

theorem settled_of_answered {c : Connection} {task : Task} {result : DispatchResult}
    (h : c.task = some (task, .answered result)) : c.Settled := by
  intro task'
  simp [h]

end Connection

namespace Network

/-- The injector holds the session. -/
def Holds (s : Network) (id : String) : Prop :=
  s.dispatcher.windows.injector.session.map (·.id) = some id

instance (s : Network) (id : String) : Decidable (s.Holds id) :=
  inferInstanceAs (Decidable (_ = _))

def Closed (s : Network) : Prop := ∀ k, s.connections k = none ∧ s.timers k = none

/-- A closed network has left no session behind. -/
def NotStranded (s : Network) : Prop :=
  s.Closed → s.dispatcher.windows.injector.session = none

/-- Another connection or timer than that of `k` knows the session. -/
def TrackedBesides (s : Network) (k : Nat) (id : String) : Prop :=
  ∃ j < s.nextConnectionId, j ≠ k ∧ ((s.connections j).bind (·.inputSession) = some id ∨
    (s.timers j).map (·.sessionId) = some id)

instance (s : Network) (k : Nat) (id : String) : Decidable (s.TrackedBesides k id) :=
  inferInstanceAs (Decidable (∃ j < _, _))

/-- The connection or the timer of `k` may forget the session. -/
def MayForget (s : Network) (k : Nat) (id : String) : Prop :=
  ¬ s.Holds id ∨ s.TrackedBesides k id

instance (s : Network) (k : Nat) (id : String) : Decidable (s.MayForget k id) :=
  inferInstanceAs (Decidable (_ ∨ _))

def CoversAt (s : Network) (k : Nat) (id : String) : Prop :=
  (∃ c, s.connections k = some c ∧
    (c.inputSession = some id ∨ c.Replacing s.dispatcher.phase id)) ∨
  ∃ timer, s.timers k = some timer ∧ timer.sessionId = id

structure Fresh (s : Network) : Prop where
  next : ∀ k, s.nextConnectionId ≤ k → s.connections k = none ∧ s.timers k = none
  apart : ∀ k, s.connections k ≠ none → s.timers k = none

/-- Every session of the injector is known to a connection or a timer. -/
structure NetInv (s : Network) : Prop where
  fresh : s.Fresh
  pipe : s.dispatcher.PipeInv
  owned : ∀ request, s.dispatcher.phase.request? = some request →
    (∃ k c task, s.owner = some (.connection k) ∧ s.connections k = some c ∧
      c.task = some (task, .waiting) ∧ task.request = request) ∨
    ∃ k timer, s.owner = some (.timer k) ∧ s.timers k = some timer ∧ timer.state = .waiting ∧
      request = .cancelInvalidSession timer.sessionId
  waits : ∀ k c task, s.connections k = some c → c.task = some (task, .waiting) →
    s.owner = some (.connection k) ∧ s.dispatcher.phase ≠ .idle
  tracking : ∀ k c, s.connections k = some c → c.Tracking
  covered : ∀ id, s.Holds id → ∃ k, s.CoversAt k id

theorem NetInv.notStranded {s : Network} (h : s.NetInv) : s.NotStranded := by
  intro hclosed
  cases ha : s.dispatcher.windows.injector.session with
  | none => rfl
  | some a =>
    obtain ⟨k, ⟨c, hc, -⟩ | ⟨timer, ht, -⟩⟩ := h.covered a.id (by simp [Holds, ha])
    · simp [(hclosed k).1] at hc
    · simp [(hclosed k).2] at ht

theorem NetInv.touch {s t : Network} (h : s.NetInv) (k : Nat) (hfresh : t.Fresh)
    (hd : t.dispatcher = s.dispatcher) (ho : t.owner = s.owner)
    (hother : ∀ j, j ≠ k → t.connections j = s.connections j ∧ t.timers j = s.timers j)
    (hsettled : ∀ c, s.connections k = some c → c.Settled)
    (htimer : ∀ timer, s.timers k = some timer → timer.state = .waiting →
      t.timers k = some timer)
    (hnew : ∀ c, t.connections k = some c → c.Tracking ∧ ∀ task, c.task ≠ some (task, .waiting))
    (hcover : ∀ id, s.Holds id → s.CoversAt k id → t.CoversAt k id ∨ s.TrackedBesides k id) :
    t.NetInv := by
  have hat : ∀ j id, j ≠ k → s.CoversAt j id → t.CoversAt j id := by
    intro j id hj hc
    unfold CoversAt at hc ⊢
    rw [(hother j hj).1, (hother j hj).2, hd]
    exact hc
  refine ⟨hfresh, hd ▸ h.pipe, ?_, ?_, ?_, ?_⟩
  · intro request hr
    rw [hd] at hr
    rw [ho]
    rcases h.owned request hr with ⟨j, c, task, howner, hc, htask, hreq⟩ |
      ⟨j, timer, howner, htm, hstate, hreq⟩
    · have hj : j ≠ k := by
        rintro rfl
        exact (hsettled c hc task).2 htask
      exact Or.inl ⟨j, c, task, howner, (hother j hj).1.trans hc, htask, hreq⟩
    · refine Or.inr ⟨j, timer, howner, ?_, hstate, hreq⟩
      by_cases hj : j = k
      · subst hj
        exact htimer timer htm hstate
      · exact (hother j hj).2.trans htm
  · intro j c task hc htask
    by_cases hj : j = k
    · subst hj
      exact absurd htask ((hnew c hc).2 task)
    · rw [ho, hd]
      exact h.waits j c task ((hother j hj).1.symm.trans hc) htask
  · intro j c hc
    by_cases hj : j = k
    · subst hj
      exact (hnew c hc).1
    · exact h.tracking j c ((hother j hj).1.symm.trans hc)
  · intro id hid
    have hid' : s.Holds id := by
      unfold Holds at hid ⊢
      rwa [hd] at hid
    obtain ⟨j, hj⟩ := h.covered id hid'
    by_cases hjk : j = k
    · subst hjk
      rcases hcover id hid' hj with hc | ⟨i, -, hi, hc⟩
      · exact ⟨j, hc⟩
      · refine ⟨i, hat i id hi ?_⟩
        rcases hc with hc | hc
        · obtain ⟨c, hc, hs⟩ := Option.bind_eq_some_iff.mp hc
          exact Or.inl ⟨c, hc, Or.inl hs⟩
        · obtain ⟨timer, ht, hs⟩ := Option.map_eq_some_iff.mp hc
          exact Or.inr ⟨timer, ht, hs⟩
    · exact ⟨j, hat j id hjk hj⟩

/-- The message is the Start of a session in place of the old one, and it is not
refused before the injector sees it. -/
def Replaces (phoneId : String) (message : ClientMessage) (old : String) : Prop :=
  match message with
  | .start snapshot => snapshot.replacesSessionId = some old ∧
      checkClientMessage phoneId message = .ok none
  | _ => False

instance (phoneId : String) (message : ClientMessage) (old : String) :
    Decidable (Replaces phoneId message old) := by
  unfold Replaces
  split <;> infer_instance

def MayComplete (s : Network) (k : Nat) (transition : SessionTransition) : Prop :=
  transition.completesSession = true → s.MayForget k transition.sessionId

instance (s : Network) (k : Nat) (transition : SessionTransition) :
    Decidable (s.MayComplete k transition) := inferInstanceAs (Decidable (_ → _))

/-- The connection gets a message: the session it tracks changes, and it changes again
when the message is refused with an answer. -/
def MayReceive (s : Network) (k : Nat) (c : Connection) (message : ClientMessage)
    (delivered : Bool) : Prop :=
  (∀ old ∈ c.inputSession, old ≠ (SessionTransition.fromMessage message).sessionId →
    s.MayForget k old ∨ Replaces c.phoneId message old) ∧
  match handleClientMessage c.phoneId message with
  | .ok (sent, none) => sent = [] ∨ delivered = true →
      s.MayComplete k (SessionTransition.fromMessage message)
  | _ => True

instance (s : Network) (k : Nat) (c : Connection) (message : ClientMessage) (delivered : Bool) :
    Decidable (s.MayReceive k c message delivered) := by
  unfold MayReceive
  have : Decidable (match handleClientMessage c.phoneId message with
      | .ok (sent, none) => sent = [] ∨ delivered = true →
          s.MayComplete k (SessionTransition.fromMessage message)
      | _ => True) := by
    split <;> infer_instance
  infer_instance

def MayProceed (s : Network) (k : Nat) (c : Connection) (delivered : Bool) : Prop :=
  match c.task with
  | some (.message handling transition, .answered result) =>
    (handling.proceed result).2 = none →
      (handling.proceed result).1 = [] ∨ delivered = true → s.MayComplete k transition
  | _ => True

instance (s : Network) (k : Nat) (c : Connection) (delivered : Bool) :
    Decidable (s.MayProceed k c delivered) := by
  unfold MayProceed
  split <;> infer_instance

/-- Which steps a run may take: nobody forgets a session that the injector still
holds and that nobody else knows. -/
def Careful (s : Network) : Event → Prop
  | .receive k message delivered => ∀ c ∈ s.connections k,
      (s.claim k c).isActiveConnection c.phoneId k → s.MayReceive k c message delivered
  | .proceed k delivered => ∀ c ∈ s.connections k, s.MayProceed k c delivered
  | .expire k => ∀ timer ∈ s.timers k,
      s.hasReplacementConnection timer.phoneId k = true → s.MayForget k timer.sessionId
  | .dispatcher event => s.dispatcher.Reliable event
  | _ => True

instance (s : Network) (e : Event) : Decidable (s.Careful e) := by
  unfold Careful
  split <;> infer_instance

theorem Fresh.setConnection {s : Network} (h : s.Fresh) {k : Nat} (hk : s.connections k ≠ none)
    (c : Connection) : (s.setConnection k c).Fresh := by
  have hlt : ∀ j, s.nextConnectionId ≤ j → j ≠ k := by
    rintro j hj rfl
    exact hk (h.next j hj).1
  refine ⟨?_, ?_⟩
  · intro j hj
    rw [setConnection_of_ne s k c (hlt j hj)]
    exact h.next j hj
  · intro j hj
    by_cases hjk : j = k
    · subst hjk
      exact h.apart j hk
    · rw [setConnection_of_ne s k c hjk] at hj
      exact h.apart j hj

theorem Fresh.drop {s : Network} (h : s.Fresh) {k : Nat} (hk : s.connections k ≠ none)
    (c : Connection) : (s.drop k c).Fresh := by
  have hlt : ∀ j, s.nextConnectionId ≤ j → j ≠ k := by
    rintro j hj rfl
    exact hk (h.next j hj).1
  refine ⟨?_, ?_⟩
  · intro j hj
    rw [(drop_of_ne s k c (hlt j hj)).1, (drop_of_ne s k c (hlt j hj)).2]
    exact h.next j hj
  · intro j hj
    by_cases hjk : j = k
    · subst hjk
      simp at hj
    · rw [(drop_of_ne s k c hjk).1] at hj
      rw [(drop_of_ne s k c hjk).2]
      exact h.apart j hj

theorem Fresh.setTimer {s : Network} (h : s.Fresh) {k : Nat} (hk : s.timers k ≠ none)
    (timer : Option GraceTimer) : (s.setTimer k timer).Fresh := by
  refine ⟨?_, ?_⟩
  · intro j hj
    have hjk : j ≠ k := by
      rintro rfl
      exact hk (h.next j hj).2
    rw [setTimer_of_ne s k timer hjk]
    exact h.next j hj
  · intro j hj
    by_cases hjk : j = k
    · subst hjk
      exact absurd (h.apart j hj) hk
    · rw [setTimer_of_ne s k timer hjk]
      exact h.apart j hj

theorem Fresh.congr {s t : Network} (h : s.Fresh) (hc : t.connections = s.connections)
    (ht : t.timers = s.timers) (hn : t.nextConnectionId = s.nextConnectionId) : t.Fresh := by
  refine ⟨?_, ?_⟩
  · rw [hc, ht, hn]
    exact h.next
  · rw [hc, ht]
    exact h.apart

theorem step_fresh {s t : Network} {e : Event} (h : s.Fresh) (hs : s.step e = some t) :
    t.Fresh := by
  cases e with
  | accept phoneId =>
    obtain rfl : _ = t := Option.some.inj hs
    refine ⟨?_, ?_⟩
    · intro j hj
      have hne : j ≠ s.nextConnectionId := by
        simp only at hj
        omega
      refine ⟨(setConnection_of_ne s _ _ hne).trans (h.next j ?_).1, (h.next j ?_).2⟩
      all_goals
        simp only at hj
        omega
    · intro j hj
      by_cases hjk : j = s.nextConnectionId
      · subst hjk
        exact (h.next _ le_rfl).2
      · exact h.apart j ((setConnection_of_ne s _ _ hjk) ▸ hj)
  | frame k =>
    obtain ⟨c, active, hc, -, rfl | rfl⟩ := stepFrame_some hs
    · exact (h.congr (t := { s with active := active }) rfl rfl rfl).setConnection (by simp [hc]) _
    · exact (h.congr (t := { s with active := active }) rfl rfl rfl).drop (by simp [hc]) _
  | receive k message delivered =>
    obtain ⟨c, active, hc, -, ⟨-, rfl⟩ | rfl⟩ := stepReceive_some hs
    · have h' : Fresh { s with active := active } := h.congr rfl rfl rfl
      obtain ⟨c', -, -, -, ⟨heq, -⟩ | ⟨handling, sent, -, heq⟩ | ⟨sent, -, -, heq⟩⟩ :=
        handle_cases { s with active := active } k { c with lease := true } message delivered
      · rw [heq]
        exact h'.drop (by simp [hc]) _
      · rw [heq]
        exact h'.setConnection (by simp [hc]) _
      · rw [heq]
        exact h'.setConnection (by simp [hc]) _
    · exact (h.congr (t := { s with active := active }) rfl rfl rfl).drop (by simp [hc]) _
  | probe k =>
    obtain ⟨c, hc, -, rfl | rfl⟩ := stepProbe_some hs
    · exact h.drop (by simp [hc]) _
    · exact h.setConnection (by simp [hc]) _
  | tick k =>
    obtain ⟨c, sessionId, hc, -, rfl⟩ := stepTick_some hs
    exact h.setConnection (by simp [hc]) _
  | submit k =>
    obtain ⟨c, task, d, hc, -, -, rfl⟩ := stepSubmit_some hs
    exact (h.setConnection (k := k) (by simp [hc]) _).congr rfl rfl rfl
  | proceed k delivered =>
    obtain ⟨c, task, result, hc, -, rfl⟩ := stepProceed_some hs
    rcases proceed_cases s k c task result delivered with ⟨c', -, heq⟩ | ⟨c', -, -, heq⟩ |
      ⟨handling, handling', transition, -, -, heq⟩ | ⟨handling, transition, -, -, -, heq⟩
    · rw [heq]
      exact h.drop (by simp [hc]) _
    · rw [heq]
      exact h.setConnection (by simp [hc]) _
    · rw [heq]
      exact h.setConnection (by simp [hc]) _
    · rw [heq]
      exact h.setConnection (by simp [hc]) _
  | close k =>
    obtain ⟨c, hc, -, rfl⟩ := stepClose_some hs
    exact h.drop (by simp [hc]) _
  | expire k =>
    obtain ⟨timer, ht, -, ⟨-, rfl⟩ | rfl⟩ := stepExpire_some hs
    · exact h.setTimer (by simp [ht]) _
    · exact h.setTimer (by simp [ht]) _
  | submitTimer k =>
    obtain ⟨timer, d, ht, -, -, rfl⟩ := stepSubmitTimer_some hs
    exact (h.setTimer (k := k) (by simp [ht]) _).congr rfl rfl rfl
  | dispatcher event =>
    obtain ⟨-, d, -, ⟨-, rfl⟩ | ⟨result, -, rfl⟩⟩ := stepDispatcher_some hs
    · exact h.congr rfl rfl rfl
    · have h' : Fresh { s with dispatcher := d } := h.congr rfl rfl rfl
      rcases passOn_cases { s with dispatcher := d } result with
        ⟨k, timers, -, heq, htimers⟩ | ⟨k, c, task, progress, -, hc, -, heq⟩ | ⟨-, -, heq⟩
      · rw [heq, htimers]
        refine ⟨?_, ?_⟩
        · intro j hj
          refine ⟨(h.next j hj).1, ?_⟩
          simp only [Function.update_apply]
          split_ifs
          · rfl
          · exact (h.next j hj).2
        · intro j hj
          simp only [Function.update_apply]
          split_ifs
          · rfl
          · exact h.apart j hj
      · rw [heq]
        exact (h'.setConnection (k := k) (by simp [show s.connections k = _ from hc]) _).congr
          rfl rfl rfl
      · rw [heq]
        exact h'.congr rfl rfl rfl

theorem Fresh.closed {s : Network} (h : s.Fresh) (hlt : ∀ k < s.nextConnectionId,
    s.connections k = none ∧ s.timers k = none) : s.Closed := by
  intro k
  by_cases hk : k < s.nextConnectionId
  · exact hlt k hk
  · exact h.next k (Nat.le_of_not_lt hk)

theorem fresh_initial : Fresh {} := ⟨fun _ _ => ⟨rfl, rfl⟩, fun _ _ => rfl⟩

theorem NetInv.setConnection {s t : Network} (h : s.NetInv) {k : Nat} {c c' : Connection}
    {a : Option (String × Nat)} (hfresh : t.Fresh)
    (ht : t = { s with active := a }.setConnection k c')
    (hc : s.connections k = some c) (hsettled : c.Settled) (htracking : c'.Tracking)
    (hwait : ∀ task, c'.task ≠ some (task, .waiting))
    (hcover : ∀ id, s.Holds id → c.inputSession = some id → c'.inputSession = some id ∨
      c'.Replacing s.dispatcher.phase id ∨ s.TrackedBesides k id) : t.NetInv := by
  subst ht
  refine h.touch k hfresh rfl rfl ?_ ?_ (fun _ ht _ => ht) ?_ ?_
  · intro j hj
    exact ⟨setConnection_of_ne _ k c' hj, rfl⟩
  · intro c₀ hc₀
    obtain rfl : c = c₀ := by simpa [hc] using hc₀
    exact hsettled
  · intro c₁ hc₁
    obtain rfl : c' = c₁ := by simpa using hc₁
    exact ⟨htracking, hwait⟩
  · rintro id hid (⟨c₀, hc₀, hin | hrep⟩ | ⟨timer, htm, -⟩)
    · obtain rfl : c = c₀ := by simpa [hc] using hc₀
      rcases hcover id hid hin with hin' | hrep | hbesides
      · exact Or.inl (Or.inl ⟨c', setConnection_self .., Or.inl hin'⟩)
      · exact Or.inl (Or.inl ⟨c', setConnection_self .., Or.inr hrep⟩)
      · exact Or.inr hbesides
    · obtain rfl : c = c₀ := by simpa [hc] using hc₀
      exact absurd hrep (hsettled.not_replacing _ _)
    · simp [h.fresh.apart k (by simp [hc])] at htm

theorem NetInv.drop {s t : Network} (h : s.NetInv) {k : Nat} {c c' : Connection}
    {a : Option (String × Nat)} (hfresh : t.Fresh)
    (ht : t = { s with active := a }.drop k c') (hc : s.connections k = some c)
    (hsettled : c.Settled)
    (hcover : ∀ id, s.Holds id → c.inputSession = some id →
      c'.inputSession = some id ∨ s.TrackedBesides k id) : t.NetInv := by
  subst ht
  refine h.touch k hfresh rfl rfl (fun j hj => drop_of_ne _ k c' hj) ?_ ?_ ?_ ?_
  · intro c₀ hc₀
    obtain rfl : c = c₀ := by simpa [hc] using hc₀
    exact hsettled
  · intro timer htm
    simp [h.fresh.apart k (by simp [hc])] at htm
  · intro c₁ hc₁
    simp at hc₁
  · rintro id hid (⟨c₀, hc₀, hin | hrep⟩ | ⟨timer, htm, -⟩)
    · obtain rfl : c = c₀ := by simpa [hc] using hc₀
      rcases hcover id hid hin with hin' | hbesides
      · exact Or.inl (Or.inr ⟨_, drop_timer _ k c' hin', rfl⟩)
      · exact Or.inr hbesides
    · obtain rfl : c = c₀ := by simpa [hc] using hc₀
      exact absurd hrep (hsettled.not_replacing _ _)
    · simp [h.fresh.apart k (by simp [hc])] at htm

theorem MayForget.besides {s : Network} {k : Nat} {id : String} (h : s.MayForget k id)
    (hid : s.Holds id) : s.TrackedBesides k id := by
  rcases h with h | h
  · exact absurd hid h
  · exact h

/-- What a connection tracks once it is done with a message. -/
theorem handled_cases (c : Connection) (transition : SessionTransition) :
    (c.handled transition).task = none ∧
    ((c.handled transition).inputSession = c.inputSession ∨
      (transition.completesSession = true ∧ c.inputSession = some transition.sessionId ∧
        (c.handled transition).inputSession = none)) := by
  unfold Connection.handled
  split_ifs with h
  · unfold Connection.complete
    split_ifs with hin
    · exact ⟨rfl, Or.inr ⟨h, hin, rfl⟩⟩
    · exact ⟨rfl, Or.inl rfl⟩
  · exact ⟨rfl, Or.inl rfl⟩

theorem tracking_of_none {c : Connection} (h : c.task = none) : c.Tracking := by
  intro handling transition progress htask
  simp [h] at htask

theorem NetInv.receive {s t : Network} (h : s.NetInv) {k : Nat} {message : ClientMessage}
    {delivered : Bool} (hok : s.Careful (.receive k message delivered)) (hfresh : t.Fresh)
    (hs : s.stepReceive k message delivered = some t) : t.NetInv := by
  obtain ⟨c, active, hc, htask, ⟨hactive, rfl⟩ | rfl⟩ := stepReceive_some hs
  · obtain ⟨hold, hdone⟩ := hok c hc hactive
    have hsettled := Connection.settled_of_none htask
    obtain ⟨c', -, htask', hin, hcases⟩ := handle_cases { s with active := active } k
      { c with lease := true } message delivered
    -- the connection may forget the session it tracked, or has it replaced
    have hforget : ∀ id, s.Holds id → c.inputSession = some id → c'.inputSession = some id ∨
        s.TrackedBesides k id ∨ Replaces c.phoneId message id := by
      intro id hid hin'
      by_cases heq : id = (SessionTransition.fromMessage message).sessionId
      · exact Or.inl (by rw [hin, heq])
      · rcases hold id hin' heq with hf | hr
        · exact Or.inr (Or.inl (hf.besides hid))
        · exact Or.inr (Or.inr hr)
    have hreplaces : ∀ id, Replaces c.phoneId message id → ∃ snapshot,
        message = .start snapshot ∧ snapshot.replacesSessionId = some id ∧
        handleClientMessage c.phoneId message = .ok ([], some (.begin snapshot)) := by
      intro id hr
      cases message with
      | start snapshot => exact ⟨snapshot, rfl, hr.1, by simp [handleClientMessage, hr.2, Except.map]⟩
      | update snapshot => exact hr.elim
      | finish snapshot => exact hr.elim
      | resume m => exact hr.elim
      | cancel m => exact hr.elim
    rcases hcases with ⟨heq, hne⟩ | ⟨handling, sent, hm, heq⟩ | ⟨sent, hm, hsent, heq⟩
    · refine h.drop hfresh heq hc hsettled ?_
      intro id hid hin'
      rcases hforget id hid hin' with h1 | h1 | h1
      · exact Or.inl h1
      · exact Or.inr h1
      · obtain ⟨snapshot, -, -, hm⟩ := hreplaces id h1
        exact absurd hm (hne _)
    · obtain ⟨-, hsession, hbegin⟩ := handleClientMessage_handling hm
      refine h.setConnection hfresh heq hc hsettled ?_ (by simp) ?_
      · intro handling' transition progress htask₁
        obtain ⟨⟨rfl, rfl⟩, rfl⟩ : (handling = handling' ∧
          SessionTransition.fromMessage message = transition) ∧ Progress.ready = progress := by
          simpa using htask₁
        exact ⟨by rw [hsession]; exact hin, hsession⟩
      · intro id hid hin'
        by_cases hid' : id = (SessionTransition.fromMessage message).sessionId
        · exact Or.inl (by rw [hid']; exact hin)
        · rcases hforget id hid hin' with h1 | h1 | h1
          · exact Or.inl h1
          · exact Or.inr (Or.inr h1)
          · obtain ⟨snapshot, rfl, hrep, -⟩ := hreplaces id h1
            refine Or.inr (Or.inl ⟨snapshot, .fromMessage (.start snapshot), .ready, ?_, hrep, ?_,
              Or.inl rfl⟩)
            · rw [hbegin snapshot rfl]
            · exact fun heq' => hid' heq'.symm
    · obtain ⟨htask₁, hcases₁⟩ := handled_cases c' (SessionTransition.fromMessage message)
      refine h.setConnection hfresh heq hc hsettled (tracking_of_none htask₁) (by simp [htask₁]) ?_
      intro id hid hin'
      rcases hforget id hid hin' with h1 | h1 | h1
      · rcases hcases₁ with hsame | ⟨hcomp, hin₁, -⟩
        · exact Or.inl (hsame.trans h1)
        · obtain rfl : _ = id := by simpa [hin₁] using h1
          have hm₀ : handleClientMessage c.phoneId message = .ok (sent, none) := hm
          rw [hm₀] at hdone
          exact Or.inr (Or.inr ((hdone hsent hcomp).besides hid))
      · exact Or.inr (Or.inr h1)
      · obtain ⟨snapshot, -, -, hm'⟩ := hreplaces id h1
        have hm₀ : handleClientMessage c.phoneId message = .ok (sent, none) := hm
        rw [hm₀] at hm'
        simp at hm'
  · exact h.drop hfresh rfl hc (Connection.settled_of_none htask) (fun id _ hin => Or.inl hin)

theorem NetInv.proceed {s t : Network} (h : s.NetInv) {k : Nat} {delivered : Bool}
    (hok : s.Careful (.proceed k delivered)) (hfresh : t.Fresh)
    (hs : s.stepProceed k delivered = some t) : t.NetInv := by
  obtain ⟨c, task, result, hc, htask, rfl⟩ := stepProceed_some hs
  have hsettled := Connection.settled_of_answered htask
  rcases proceed_cases s k c task result delivered with ⟨c', hin, heq⟩ | ⟨c', hin, hnone, heq⟩ |
    ⟨handling, handling', transition, rfl, hnext, heq⟩ | ⟨handling, transition, rfl, hnext, hsent, heq⟩
  · exact h.drop (a := s.active) hfresh heq hc hsettled (fun id _ h' => Or.inl (hin.trans h'))
  · exact h.setConnection (a := s.active) hfresh heq hc hsettled (tracking_of_none hnone)
      (by simp [hnone]) (fun id _ h' => Or.inl (hin.trans h'))
  · refine h.setConnection (a := s.active) hfresh heq hc hsettled ?_ (by simp)
      (fun id _ h' => Or.inl h')
    obtain ⟨hin, hid⟩ := h.tracking k c hc handling transition _ htask
    have hsame := Handling.proceed_sessionId hnext
    intro handling₁ transition₁ progress htask₁
    obtain ⟨⟨rfl, rfl⟩, -⟩ : (handling' = handling₁ ∧ transition = transition₁) ∧
      Progress.ready = progress := by simpa using htask₁
    exact ⟨by rw [hsame]; exact hin, hsame.trans hid⟩
  · obtain ⟨htask₁, hcases⟩ := handled_cases c transition
    refine h.setConnection (a := s.active) hfresh heq hc hsettled (tracking_of_none htask₁)
      (by simp [htask₁]) ?_
    intro id hid hin
    rcases hcases with hsame | ⟨hcomp, hin₁, -⟩
    · exact Or.inl (hsame.trans hin)
    · obtain rfl : _ = id := by simpa [hin₁] using hin
      have hproceed := hok c hc
      simp only [MayProceed, htask] at hproceed
      exact Or.inr (Or.inr ((hproceed hnext hsent hcomp).besides hid))

/-- A request gets the slot of the dispatcher. -/
theorem submit_some {d d' : Dispatcher} {request : InjectorRequest}
    (h : d.step (.submit request) = some d') : d.phase = .idle ∧
      d'.phase.request? = some request ∧ d'.windows = d.windows ∧ d'.phase ≠ .idle ∧
      ∀ request attempt, d'.phase ≠ .receive request attempt := by
  cases Dispatcher.step_does h with
  | submit request hp =>
    refine ⟨hp, ?_, rfl, ?_, ?_⟩
    · cases d.client <;> rfl
    · cases d.client <;> simp
    · cases d.client <;> simp

theorem NetInv.submit {s t : Network} (h : s.NetInv) {d : Dispatcher} {request : InjectorRequest}
    (hfresh : t.Fresh) (hstep : s.dispatcher.step (.submit request) = some d)
    (hd : t.dispatcher = d)
    (howned : (∃ k c task, t.owner = some (.connection k) ∧ t.connections k = some c ∧
        c.task = some (task, .waiting) ∧ task.request = request) ∨
      ∃ k timer, t.owner = some (.timer k) ∧ t.timers k = some timer ∧ timer.state = .waiting ∧
        request = .cancelInvalidSession timer.sessionId)
    (hconn : ∀ j c', t.connections j = some c' → ∃ c, s.connections j = some c ∧
      (c' = c ∨ ∃ task, c.task = some (task, .ready) ∧ c' = { c with task := some (task, .waiting) } ∧
        t.owner = some (.connection j)))
    (hback : ∀ j c, s.connections j = some c → t.connections j = some c ∨
      ∃ task, c.task = some (task, .ready) ∧
        t.connections j = some { c with task := some (task, .waiting) })
    (htimers : ∀ j timer, s.timers j = some timer → ∃ timer', t.timers j = some timer' ∧
      timer'.sessionId = timer.sessionId) : t.NetInv := by
  obtain ⟨hidle, hreq, hw, hbusy, hphase⟩ := submit_some hstep
  subst hd
  refine ⟨hfresh, Dispatcher.step_pipeInv (e := .submit request) h.pipe trivial hstep, ?_, ?_, ?_, ?_⟩
  · intro request' hr
    obtain rfl : request = request' := by simpa [hreq] using hr
    exact howned
  · intro j c' task' hc' htask'
    obtain ⟨c, hc, rfl | ⟨task, htask, rfl, howner⟩⟩ := hconn j c' hc'
    · exact absurd hidle (h.waits j c' task' hc htask').2
    · exact ⟨howner, hbusy⟩
  · intro j c' hc'
    obtain ⟨c, hc, rfl | ⟨task, htask, rfl, -⟩⟩ := hconn j c' hc'
    · exact h.tracking j c' hc
    · intro handling transition progress htask'
      obtain ⟨rfl, -⟩ : task = .message handling transition ∧ Progress.waiting = progress := by
        simpa using htask'
      exact h.tracking j c hc handling transition _ htask
  · intro id hid
    have hid' : s.Holds id := by
      unfold Holds at hid ⊢
      rwa [hw] at hid
    obtain ⟨j, ⟨c, hc, hcov⟩ | ⟨timer, htm, hts⟩⟩ := h.covered id hid'
    · refine ⟨j, Or.inl ?_⟩
      rcases hback j c hc with hc' | ⟨task, htask, hc'⟩
      · refine ⟨c, hc', ?_⟩
        rcases hcov with hin | hrep
        · exact Or.inl hin
        · exact Or.inr (hrep.phase hphase)
      · refine ⟨_, hc', ?_⟩
        rcases hcov with hin | ⟨snapshot, transition, progress, htask', hrep, hne, -⟩
        · exact Or.inl hin
        · obtain ⟨rfl, rfl⟩ : task = .message (.begin snapshot) transition ∧
            Progress.ready = progress := by
            rw [htask] at htask'
            simpa using htask'
          exact Or.inr ⟨snapshot, transition, .waiting, rfl, hrep, hne, Or.inr ⟨rfl, hphase⟩⟩
    · obtain ⟨timer', htm', hts'⟩ := htimers j timer htm
      exact ⟨j, Or.inr ⟨timer', htm', hts'.trans hts⟩⟩

theorem task_begin {task : Task} {id : String} (h : task.request.begins = some id) :
    ∃ snapshot transition, task = .message (.begin snapshot) transition ∧
      snapshot.sessionId = id := by
  cases task with
  | message handling transition =>
    cases handling with
    | begin snapshot => exact ⟨snapshot, transition, rfl, by
        simpa [Task.request, Handling.request, InjectorRequest.begins] using h⟩
    | apply snapshot finishing => simp [Task.request, Handling.request, InjectorRequest.begins] at h
    | resume m => simp [Task.request, Handling.request, InjectorRequest.begins] at h
    | finish sessionId n => simp [Task.request, Handling.request, InjectorRequest.begins] at h
    | cancel m => simp [Task.request, Handling.request, InjectorRequest.begins] at h
  | poll sessionId => simp [Task.request, InjectorRequest.begins] at h
  | probe => simp [Task.request, InjectorRequest.begins] at h

/-- A session that the injector holds after a step of the dispatcher was covered
before it. -/
theorem NetInv.covered_step {s : Network} (h : s.NetInv) {d : Dispatcher}
    {event : Dispatcher.Event} (hstep : s.dispatcher.step event = some d) {a : ActiveSession}
    (ha : d.windows.injector.session = some a) : ∃ k, s.CoversAt k a.id := by
  rcases Dispatcher.step_session h.pipe hstep ha with ⟨a₀, ha₀, hid⟩ |
    ⟨request, attempt, hp, hbegins⟩
  · exact h.covered a.id (by simp [Holds, ha₀, hid])
  · rcases h.owned request (by rw [hp]; rfl) with ⟨k, c, task, -, hc, htask, hreq⟩ |
      ⟨k, timer, -, -, -, hreq⟩
    · rw [← hreq] at hbegins
      obtain ⟨snapshot, transition, rfl, hid⟩ := task_begin hbegins
      refine ⟨k, Or.inl ⟨c, hc, Or.inl ?_⟩⟩
      rw [← hid]
      exact (h.tracking k c hc _ _ _ htask).1
    · simp [hreq, InjectorRequest.begins] at hbegins

/-- A replaced session is gone once the injector has read the Begin. -/
theorem NetInv.replacing_step {s : Network} (h : s.NetInv) {d : Dispatcher}
    {event : Dispatcher.Event} (hstep : s.dispatcher.step event = some d)
    (hsubmit : ∀ request, event ≠ .submit request) (hpipe : d.PipeInv) {a : ActiveSession}
    (ha : d.windows.injector.session = some a) {k : Nat} {c : Connection}
    (hc : s.connections k = some c) (hrep : c.Replacing s.dispatcher.phase a.id) :
    c.Replacing d.phase a.id := by
  obtain ⟨snapshot, transition, progress, htask, hrepl, hne, hprog⟩ := hrep
  refine ⟨snapshot, transition, progress, htask, hrepl, hne, ?_⟩
  rcases hprog with hprog | ⟨rfl, hphase⟩
  · exact Or.inl hprog
  refine Or.inr ⟨rfl, ?_⟩
  intro request attempt hp
  obtain ⟨howner, hbusy⟩ := h.waits k c _ hc htask
  -- the request that is read now is the Begin of this connection
  have hreq : s.dispatcher.phase.request? = some request := by
    rcases Dispatcher.step_request hstep with hidle | ⟨heq, -⟩ | ⟨r, he, -⟩
    · simp [hidle] at hp
    · rw [← heq, hp]
      rfl
    · exact absurd he (hsubmit r)
  rcases h.owned request hreq with ⟨j, c', task, hj, hc', htask', hr⟩ | ⟨j, timer, hj, -⟩
  · obtain rfl : k = j := by simpa [howner] using hj
    obtain rfl : c = c' := by simpa [hc] using hc'
    obtain rfl : Task.message (.begin snapshot) transition = task := by
      rw [htask] at htask'
      simpa using htask'
    refine hpipe.ended request attempt hp a ha ?_
    rw [← hr]
    simp [Task.request, Handling.request, InjectorRequest.ends, hrepl, Option.filter, hne.symm]
  · simp [howner] at hj

theorem NetInv.dispatch {s t : Network} (h : s.NetInv) {event : Dispatcher.Event}
    (hok : s.dispatcher.Reliable event) (hfresh : t.Fresh)
    (hs : s.stepDispatcher event = some t) : t.NetInv := by
  obtain ⟨hsubmit, d, hstep, ⟨hresult, rfl⟩ | ⟨result, hresult, rfl⟩⟩ := stepDispatcher_some hs
  · have hpipe := Dispatcher.step_pipeInv h.pipe hok hstep
    refine ⟨hfresh, hpipe, ?_, ?_, h.tracking, ?_⟩
    · intro request hr
      rcases Dispatcher.step_request hstep with hidle | ⟨heq, -⟩ | ⟨r, he, -⟩
      · simp [hidle, Phase.request?] at hr
      · exact h.owned request (heq ▸ hr)
      · exact absurd he (hsubmit r)
    · intro k c task hc htask
      obtain ⟨howner, hbusy⟩ := h.waits k c task hc htask
      exact ⟨howner, Dispatcher.step_busy hstep hbusy hresult⟩
    · intro id hid
      obtain ⟨a, ha, rfl⟩ := Option.map_eq_some_iff.mp hid
      obtain ⟨k, ⟨c, hc, hin | hrep⟩ | htm⟩ := h.covered_step hstep ha
      · exact ⟨k, Or.inl ⟨c, hc, Or.inl hin⟩⟩
      · exact ⟨k, Or.inl ⟨c, hc, Or.inr (h.replacing_step hstep hsubmit hpipe ha hc hrep)⟩⟩
      · exact ⟨k, Or.inr htm⟩
  · have hpipe := Dispatcher.step_pipeInv h.pipe hok hstep
    have hidle : d.phase = .idle := by
      rcases Dispatcher.step_result hstep with hn | ⟨hidle, -⟩
      · simp [hn] at hresult
      · exact hidle
    -- a session that is left was there when the answer was read
    have hread : ∀ id, d.windows.injector.session.map (·.id) = some id → s.Holds id ∧
        ∃ request attempt, s.dispatcher.phase = .receive request attempt := by
      intro id hid
      rcases Dispatcher.result_gone h.pipe hok hstep (by simp [hresult]) with
        hn | ⟨request, attempt, hp, hw⟩
      · simp [hn] at hid
      · exact ⟨by rw [Holds, ← hw]; exact hid, request, attempt, hp⟩
    rcases passOn_cases { s with dispatcher := d } result with
      ⟨k, timers, howner, heq, rfl⟩ | ⟨k, c, task, progress, howner, hc, htask, heq⟩ |
      ⟨htimer, hconn, heq⟩
    · have howner' : s.owner = some (.timer k) := howner
      rw [heq]
      refine ⟨heq ▸ hfresh, hpipe, ?_, ?_, h.tracking, ?_⟩
      · simp [hidle, Phase.request?]
      · intro j c task hc htask
        have hw := (h.waits j c task hc htask).1
        simp [howner'] at hw
      · intro id hid
        obtain ⟨hid', request, attempt, hp⟩ := hread id hid
        obtain ⟨j, ⟨c, hc, hin | hrep⟩ | ⟨timer, htm, hts⟩⟩ := h.covered id hid'
        · exact ⟨j, Or.inl ⟨c, hc, Or.inl hin⟩⟩
        · exact ⟨j, Or.inl ⟨c, hc, Or.inr ((hrep.ready ⟨request, attempt, hp⟩).2 _)⟩⟩
        · have hjk : j ≠ k := by
            rintro rfl
            rcases h.owned request (by rw [hp]; rfl) with ⟨i, c, task, hi, -⟩ |
              ⟨i, timer', hi, htm', -, hreq⟩
            · simp [howner'] at hi
            · obtain rfl : j = i := by simpa [howner'] using hi
              obtain rfl : timer = timer' := by simpa [htm] using htm'
              obtain ⟨a, ha, rfl⟩ := Option.map_eq_some_iff.mp hid'
              exact h.pipe.ended request attempt hp a ha (by rw [hreq, ← hts]; rfl)
          exact ⟨j, Or.inr ⟨timer, (Function.update_of_ne hjk ..).trans htm, hts⟩⟩
    · have howner' : s.owner = some (.connection k) := howner
      have hc' : s.connections k = some c := hc
      have hconn : ∀ j, j ≠ k → (Network.setConnection { s with dispatcher := d } k
          { c with task := some (task, .answered result) }).connections j = s.connections j :=
        fun j hj => setConnection_of_ne { s with dispatcher := d } k _ hj
      rw [heq]
      refine ⟨heq ▸ hfresh, hpipe, ?_, ?_, ?_, ?_⟩
      · intro request hr
        have hr' : d.phase.request? = some request := hr
        simp [hidle, Phase.request?] at hr'
      · intro j c₁ task₁ hc₁ htask₁
        by_cases hj : j = k
        · subst hj
          obtain rfl := Option.some.inj ((setConnection_self ..).symm.trans hc₁)
          simp at htask₁
        · have hw := (h.waits j c₁ task₁ ((hconn j hj).symm.trans hc₁) htask₁).1
          exact absurd (by simpa [howner'] using hw) (Ne.symm hj)
      · intro j c₁ hc₁
        by_cases hj : j = k
        · subst hj
          obtain rfl := Option.some.inj ((setConnection_self ..).symm.trans hc₁)
          intro handling transition progress' htask'
          obtain ⟨rfl, -⟩ : task = .message handling transition ∧ _ = progress' := by
            simpa using htask'
          exact h.tracking j c hc' handling transition progress htask
        · exact h.tracking j c₁ ((hconn j hj).symm.trans hc₁)
      · intro id hid
        obtain ⟨hid', hp⟩ := hread id hid
        obtain ⟨j, ⟨c₁, hc₁, hcov⟩ | htm⟩ := h.covered id hid'
        · by_cases hj : j = k
          · subst hj
            obtain rfl : c = c₁ := by simpa [hc'] using hc₁
            refine ⟨j, Or.inl ⟨_, setConnection_self .., ?_⟩⟩
            rcases hcov with hin | hrep
            · exact Or.inl hin
            · obtain ⟨task', htask'⟩ := (hrep.ready hp).1
              obtain ⟨request, attempt, hp⟩ := hp
              rcases h.owned request (by rw [hp]; rfl) with ⟨i, c', task₁, hi, hci, htaski, -⟩ |
                ⟨i, timer', hi, -⟩
              · obtain rfl : j = i := by simpa [howner'] using hi
                obtain rfl : c = c' := by simpa [hc'] using hci
                simp [htask'] at htaski
              · simp [howner'] at hi
          · refine ⟨j, Or.inl ⟨c₁, (hconn j hj).trans hc₁, ?_⟩⟩
            rcases hcov with hin | hrep
            · exact Or.inl hin
            · exact Or.inr ((hrep.ready hp).2 _)
        · exact ⟨j, Or.inr htm⟩
    · rw [heq]
      refine ⟨heq ▸ hfresh, hpipe, ?_, ?_, h.tracking, ?_⟩
      · simp [hidle, Phase.request?]
      · intro j c task hc htask
        exact absurd htask (hconn j c _ (h.waits j c task hc htask).1 hc)
      · intro id hid
        obtain ⟨hid', hp⟩ := hread id hid
        obtain ⟨j, ⟨c, hc, hin | hrep⟩ | htm⟩ := h.covered id hid'
        · exact ⟨j, Or.inl ⟨c, hc, Or.inl hin⟩⟩
        · exact ⟨j, Or.inl ⟨c, hc, Or.inr ((hrep.ready hp).2 _)⟩⟩
        · exact ⟨j, Or.inr htm⟩

theorem step_netInv {s t : Network} {e : Event} (h : s.NetInv) (hok : s.Careful e)
    (hs : s.step e = some t) : t.NetInv := by
  have hfresh := step_fresh h.fresh hs
  cases e with
  | accept phoneId =>
    obtain rfl : _ = t := Option.some.inj hs
    obtain ⟨hconn, htimer⟩ := h.fresh.next s.nextConnectionId le_rfl
    refine h.touch s.nextConnectionId hfresh rfl rfl ?_ ?_ (fun _ ht _ => ht) ?_ ?_
    · intro j hj
      exact ⟨setConnection_of_ne s _ _ hj, rfl⟩
    · simp [hconn]
    · intro c hc
      obtain rfl := Option.some.inj ((setConnection_self ..).symm.trans hc)
      exact ⟨tracking_of_none rfl, by simp⟩
    · rintro id - (⟨c, hc, -⟩ | ⟨timer, ht, -⟩)
      · simp [hconn] at hc
      · simp [htimer] at ht
  | frame k =>
    obtain ⟨c, active, hc, htask, rfl | rfl⟩ := stepFrame_some hs
    · exact h.setConnection hfresh rfl hc (Connection.settled_of_none htask)
        (tracking_of_none htask) (by simp [htask]) (fun id _ hin => Or.inl hin)
    · exact h.drop hfresh rfl hc (Connection.settled_of_none htask) (fun id _ hin => Or.inl hin)
  | receive k message delivered => exact h.receive hok hfresh hs
  | probe k =>
    obtain ⟨c, hc, htask, rfl | rfl⟩ := stepProbe_some hs
    · exact h.drop (a := s.active) hfresh rfl hc (Connection.settled_of_none htask)
        (fun id _ hin => Or.inl hin)
    · refine h.setConnection (a := s.active) hfresh rfl hc (Connection.settled_of_none htask) ?_
        (by simp) (fun id _ hin => Or.inl hin)
      intro handling transition progress htask'
      simp at htask'
  | tick k =>
    obtain ⟨c, sessionId, hc, htask, rfl⟩ := stepTick_some hs
    refine h.setConnection (a := s.active) hfresh rfl hc (Connection.settled_of_none htask) ?_
      (by simp) (fun id _ hin => Or.inl hin)
    intro handling transition progress htask'
    simp at htask'
  | submit k =>
    obtain ⟨c, task, d, hc, htask, hd, rfl⟩ := stepSubmit_some hs
    refine h.submit hfresh hd rfl (Or.inl ⟨k, _, task, rfl, setConnection_self .., rfl, rfl⟩) ?_ ?_
      (fun j timer ht => ⟨timer, ht, rfl⟩)
    · intro j c' hc'
      by_cases hj : j = k
      · subst hj
        obtain rfl := Option.some.inj ((setConnection_self ..).symm.trans hc')
        exact ⟨c, hc, Or.inr ⟨task, htask, rfl, rfl⟩⟩
      · exact ⟨c', (setConnection_of_ne s k _ hj).symm.trans hc', Or.inl rfl⟩
    · intro j c₀ hc₀
      by_cases hj : j = k
      · subst hj
        obtain rfl : c = c₀ := by simpa [hc] using hc₀
        exact Or.inr ⟨task, htask, setConnection_self ..⟩
      · exact Or.inl ((setConnection_of_ne s k _ hj).trans hc₀)
  | proceed k delivered => exact h.proceed hok hfresh hs
  | close k =>
    obtain ⟨c, hc, htask, rfl⟩ := stepClose_some hs
    exact h.drop (a := s.active) hfresh rfl hc (Connection.settled_of_none htask)
      (fun id _ hin => Or.inl hin)
  | expire k =>
    obtain ⟨timer, ht, hstate, hcases⟩ := stepExpire_some hs
    have hconn : s.connections k = none := by
      by_contra hne
      simp [h.fresh.apart k hne] at ht
    have hsleep : ∀ timer', s.timers k = some timer' → timer'.state ≠ .waiting := by
      intro timer' ht'
      obtain rfl : timer = timer' := by simpa [ht] using ht'
      simp [hstate]
    rcases hcases with ⟨hrepl, rfl⟩ | rfl
    · refine h.touch k hfresh rfl rfl (fun j hj => ⟨rfl, setTimer_of_ne s k _ hj⟩) (by simp [hconn])
        (fun timer' ht' hw => absurd hw (hsleep timer' ht')) (by simp [hconn]) ?_
      rintro id hid (⟨c, hc, -⟩ | ⟨timer', ht', hts⟩)
      · simp [hconn] at hc
      · obtain rfl : timer = timer' := by simpa [ht] using ht'
        subst hts
        exact Or.inr ((hok timer ht hrepl).besides hid)
    · refine h.touch k hfresh rfl rfl (fun j hj => ⟨rfl, setTimer_of_ne s k _ hj⟩) (by simp [hconn])
        (fun timer' ht' hw => absurd hw (hsleep timer' ht')) (by simp [hconn]) ?_
      rintro id - (⟨c, hc, -⟩ | ⟨timer', ht', hts⟩)
      · simp [hconn] at hc
      · obtain rfl : timer = timer' := by simpa [ht] using ht'
        exact Or.inl (Or.inr ⟨_, setTimer_self .., hts⟩)
  | submitTimer k =>
    obtain ⟨timer, d, ht, hstate, hd, rfl⟩ := stepSubmitTimer_some hs
    refine h.submit hfresh hd rfl (Or.inr ⟨k, _, rfl, setTimer_self .., rfl, rfl⟩)
      (fun j c hc => ⟨c, hc, Or.inl rfl⟩) (fun j c hc => Or.inl hc) ?_
    intro j timer' ht'
    by_cases hj : j = k
    · subst hj
      obtain rfl : timer = timer' := by simpa [ht] using ht'
      exact ⟨_, setTimer_self .., rfl⟩
    · exact ⟨timer', (setTimer_of_ne s k _ hj).trans ht', rfl⟩
  | dispatcher event => exact h.dispatch hok hfresh hs

theorem netInv_initial : NetInv {} := by
  refine ⟨fresh_initial, Dispatcher.pipeInv_initial, ?_, ?_, ?_, ?_⟩
  · simp [Phase.request?]
  · simp
  · simp
  · simp [Holds]

/-- In every run in which nobody forgets a session that only it knows of, a closed
network leaves no session behind. -/
theorem no_stranded_session (es : List Event) (h : Along step Careful {} es) :
    Always step NotStranded {} es := by
  refine always_of_along NetInv es netInv_initial netInv_initial.notStranded ?_ h
  intro s e t hI hok hs
  have hI' := step_netInv hI hok hs
  exact ⟨hI', hI'.notStranded⟩

/-- A snapshot of the one session of the phone `p`. -/
def typed (type : SnapshotType) : SnapshotMessage :=
  { type := type, phoneId := "p", sessionId := "s", sequence := 1, fullText := "a" }

def startEvents : List Event :=
  [.dispatcher (.windows (.connect ⟨1, 1⟩)), .accept "p", .receive 1 (.start (typed .start)) true,
    .submit 1, .dispatcher .connected,
    .dispatcher (.write { foreground := some Windows.notepad }),
    .dispatcher (.windows (.select [⟨⟨1, 1⟩, 1⟩])),
    .dispatcher (.windows (.execute ⟨1, 1⟩ Windows.editDone)),
    .dispatcher (.windows (.deliver ⟨1, 1⟩)), .dispatcher .read, .proceed 1 true,
    .submit 1, .dispatcher (.write {}), .dispatcher .read, .proceed 1 true]

def lostPhone : List Event :=
  startEvents ++ [.close 1, .expire 1, .submitTimer 1, .dispatcher (.write {}),
    .dispatcher (.windows (.execute ⟨1, 1⟩ Windows.editDone)),
    .dispatcher (.windows (.deliver ⟨1, 1⟩)), .dispatcher .read]

theorem lost_phone_not_stranded : Along step Careful {} lostPhone ∧
    ∃ s, run step {} lostPhone = some s ∧ s.Closed ∧
      s.dispatcher.windows.injector.session = none := by
  have h : Along step Careful {} lostPhone := by decide
  have hr := (Option.some_get (x := run step {} lostPhone) (by decide)).symm
  have hfresh : Fresh ((run step {} lostPhone).get (by decide)) :=
    run_invariant Fresh lostPhone fresh_initial (fun _ _ _ => step_fresh) hr
  have hclosed := hfresh.closed (by decide)
  exact ⟨h, _, hr, hclosed, (no_stranded_session lostPhone h).last lostPhone hr hclosed⟩

/-- The phone finishes while its target is in the background, and goes. -/
def refusedFinish : List Event :=
  startEvents ++ [.receive 1 (.finish (typed .finish)) true, .submit 1,
    .dispatcher (.write { targetForeground := false }), .dispatcher .read, .proceed 1 true, .close 1]

/-- The injector answers that the target is not in the foreground and keeps the
session; the connection forgets it all the same. -/
theorem refused_finish_stranded : ¬ Always step NotStranded {} refusedFinish := by
  intro h
  have hr := (Option.some_get (x := run step {} refusedFinish) (by decide)).symm
  have hfresh : Fresh ((run step {} refusedFinish).get (by decide)) :=
    run_invariant Fresh refusedFinish fresh_initial (fun _ _ _ => step_fresh) hr
  exact absurd (h.last refusedFinish hr (hfresh.closed (by decide))) (by decide)

end Network

end FlowType
