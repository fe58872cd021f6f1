import FlowType.Phone

/-! A re-sent START keeps its binding fields, unless a FINISH that lost them is
turned into a START. -/
namespace FlowType

namespace Phone
open OutboundQueue Machine

/-- Every START sent for a session without acknowledgement has the fields of
the first START of that session. -/
def KeepsBinding (s : Phone) : Prop :=
  ∀ f ∈ s.sent, ∀ m ∈ f.start?, m.sessionId ∉ s.acked → s.first m.sessionId = some m.binding

instance (s : Phone) : Decidable s.KeepsBinding :=
  inferInstanceAs (Decidable (∀ f ∈ s.sent, ∀ m ∈ f.start?, _ → _ = _))

/-- No FINISH that `finish` built without binding fields is rebuilt into the
START of an unacknowledged session whose START had some. -/
def BindOk (s : Phone) : Event → Prop
  | .queue op => ∀ m ∈ s.q.rebuilt op, m.type = .finish → m.binding = (none, false) →
      m.sessionId ∈ s.acked ∨ s.first m.sessionId = some (none, false)
  | _ => True

instance (s : Phone) (e : Event) : Decidable (s.BindOk e) := by
  cases e <;> simp only [BindOk] <;> infer_instance

def Bound (s : Phone) (id : String) (b : Binding) : Prop :=
  ∃ f, s.first id = some f ∧ (id ∈ s.acked ∨ f = b)

/-- A held message has the fields of its session, or is a FINISH without any. -/
def Held (s : Phone) (m : SnapshotMessage) : Prop :=
  ∃ f, s.first m.sessionId = some f ∧
    (m.sessionId ∈ s.acked ∨ f = m.binding ∨ (m.type = .finish ∧ m.binding = (none, false)))

structure Inv (s : Phone) : Prop where
  session : ∀ id ∈ s.session.sessionId, s.Bound id s.session.binding
  saved : ∀ p ∈ s.saved, ∀ id ∈ p.state.sessionId, s.Bound id p.state.binding
  held : ∀ m ∈ s.q.messages, s.Held m
  used : ∀ id, s.first id ≠ none → id ∈ s.used

theorem Bound.held {s : Phone} {m : SnapshotMessage} (h : s.Bound m.sessionId m.binding) :
    s.Held m := by
  obtain ⟨f, hf, h⟩ := h
  exact ⟨f, hf, h.imp_right Or.inl⟩

theorem noteStart_of_some {first : String → Option Binding} {m : SnapshotMessage}
    (h : first m.sessionId ≠ none) : noteStart first m = first := by
  simp [noteStart, h]

theorem noteStart_self {first : String → Option Binding} {m : SnapshotMessage}
    (ht : m.type = .start) (h : first m.sessionId = none) :
    noteStart first m m.sessionId = some m.binding := by
  simp [noteStart, ht, h]

/-- Recording a START keeps what is on record. -/
theorem noteStart_extends {first : String → Option Binding} {m : SnapshotMessage} {id : String}
    {f : Binding} (h : first id = some f) : noteStart first m id = some f := by
  unfold noteStart
  split
  · rename_i hm
    have hne : id ≠ m.sessionId := by
      rintro rfl
      simp [h] at hm
    rw [Function.update_of_ne hne, h]
  · exact h

theorem noteStart_used {first : String → Option Binding} {m : SnapshotMessage} {id : String}
    (h : noteStart first m id ≠ none) : first id ≠ none ∨ id = m.sessionId := by
  by_cases hid : id = m.sessionId
  · exact Or.inr hid
  · refine Or.inl ?_
    unfold noteStart at h
    split at h
    · rwa [Function.update_of_ne hid] at h
    · exact h

/-- What an allowed queue operation does to the run: nothing but the queue and
the actions change, and the invariant and the property survive. -/
theorem queueOp_inv {s t : Phone} {op : Op} (hI : s.Inv) (hK : s.KeepsBinding)
    (hg : ∀ m, op.given = some m → s.Held m) (hok : s.BindOk (.queue op))
    (h : s.queueOp op = some t) :
    t.Inv ∧ t.KeepsBinding ∧ t.session = s.session ∧ t.first = s.first ∧ t.acked = s.acked := by
  obtain ⟨⟨q', a⟩, hq, rfl⟩ := Option.map_eq_some_iff.mp h
  have hheld : ∀ m ∈ q'.messages, s.Held m := by
    intro m hm
    rcases apply_messages hq m hm with hm | hm | ⟨x, hx, rfl⟩
    · exact hI.held m hm
    · exact hg m hm
    · -- the rebuilt START: the guard excludes a FINISH that lost its fields
      obtain ⟨f, hf, h⟩ := hI.held x (rebuilt_mem hx)
      refine ⟨f, hf, ?_⟩
      rcases h with h | h | ⟨hfin, hb⟩
      · exact Or.inl h
      · exact Or.inr (Or.inl h)
      · rcases hok x hx hfin hb with h | h
        · exact Or.inl h
        · refine Or.inr (Or.inl ?_)
          have hfn : f = (none, false) := by simpa [hf] using h
          rw [hfn]
          exact hb.symm
  have hfirst : noteAction s.first a = s.first := by
    rcases a with _ | ⟨m, _ | _⟩
    · rfl
    · obtain ⟨x, hx, hxm⟩ := apply_action hq
      obtain ⟨f, hf, -⟩ := hheld x hx
      refine noteStart_of_some ?_
      rcases hxm with rfl | rfl
      · simp [hf]
      · simp [hf]
    · rfl
  have hsent : ∀ x ∈ a, ∀ m ∈ (sendAction q' x).start?, m.sessionId ∉ s.acked →
      s.first m.sessionId = some m.binding := by
    rintro x rfl m hm hna
    obtain ⟨-, rfl, hst⟩ := sendAction_start? hm
    obtain ⟨m, hm, hxm⟩ := apply_action hq
    obtain ⟨f, hf, h⟩ := hheld m hm
    rcases hxm with rfl | hxm
    · rcases h with h | rfl | ⟨hfin, -⟩
      · exact absurd h hna
      · exact hf
      · simp [hst] at hfin
    · simp [hxm] at hst
  refine ⟨⟨?_, ?_, ?_, ?_⟩, ?_, rfl, hfirst, rfl⟩
  · simpa [Bound, hfirst] using hI.session
  · simpa [Bound, hfirst] using hI.saved
  · simpa [Held, hfirst] using hheld
  · simpa [hfirst] using hI.used
  · intro f hf m hm hna
    simp only [hfirst]
    rcases List.mem_append.mp hf with hf | hf
    · exact hK f hf m hm hna
    · obtain ⟨x, hx, rfl⟩ := List.mem_map.mp hf
      exact hsent x (by simpa using hx) m hm hna

theorem Inv.withSession {s : Phone} (hI : s.Inv) (session : InputSession)
    (used : List String) (hu : ∀ id ∈ s.used, id ∈ used)
    (hs : ∀ id ∈ session.sessionId, s.Bound id session.binding) :
    Inv { s with session, used } :=
  ⟨hs, hI.saved, hI.held, fun id hid => hu id (hI.used id hid)⟩

theorem Inv.fresh {s : Phone} (hI : s.Inv) {newId : String} (h : newId ∉ s.used) :
    s.first newId = none := by
  by_contra hne
  exact h (hI.used newId hne)

theorem Inv.withStart {s : Phone} (hI : s.Inv) (session : InputSession)
    (m : SnapshotMessage) (hfresh : m.sessionId ∉ s.used) (ht : m.type = .start)
    (hid : session.sessionId = some m.sessionId) (hb : session.binding = m.binding) :
    Inv { s with session, used := m.sessionId :: s.used, first := noteStart s.first m } ∧
      noteStart s.first m m.sessionId = some m.binding := by
  have hself := noteStart_self ht (hI.fresh hfresh)
  refine ⟨⟨?_, ?_, ?_, ?_⟩, hself⟩
  · intro id h
    obtain rfl : m.sessionId = id := by simpa [hid] using h
    exact ⟨m.binding, hself, Or.inr hb.symm⟩
  · intro st hst id h
    obtain ⟨f, hf, hr⟩ := hI.saved st hst id h
    exact ⟨f, noteStart_extends hf, hr⟩
  · intro x hx
    obtain ⟨f, hf, hr⟩ := hI.held x hx
    exact ⟨f, noteStart_extends hf, hr⟩
  · intro id h
    rcases noteStart_used h with h | rfl
    · exact List.mem_cons_of_mem _ (hI.used id h)
    · exact List.mem_cons_self

theorem bindOk_offer (s : Phone) (m : SnapshotMessage) : s.BindOk (.queue (.offer m)) := by
  simp [BindOk, rebuilt]

theorem offer_inv {s t : Phone} {m : SnapshotMessage} (hI : s.Inv) (hK : s.KeepsBinding)
    (hm : s.Held m) (h : s.offer m = some t) :
    t.Inv ∧ t.KeepsBinding ∧ t.session = s.session ∧ t.first = s.first ∧ t.acked = s.acked := by
  have hf : noteStart s.first m = s.first := by
    obtain ⟨f, hf, -⟩ := hm
    exact noteStart_of_some (by simp [hf])
  rw [offer, hf] at h
  refine queueOp_inv hI hK ?_ (bindOk_offer _ _) h
  rintro x ⟨⟩
  exact hm

theorem offer_start_inv {s t : Phone} (hI : s.Inv) (hK : s.sent = []) (session : InputSession)
    (m : SnapshotMessage) (hfresh : m.sessionId ∉ s.used) (ht : m.type = .start)
    (hid : session.sessionId = some m.sessionId) (hb : session.binding = m.binding)
    (h : Phone.offer { s with session, used := m.sessionId :: s.used } m = some t) :
    t.Inv ∧ t.KeepsBinding ∧ t.session = session ∧ t.first m.sessionId = some m.binding := by
  obtain ⟨hI', hself⟩ := hI.withStart session m hfresh ht hid hb
  have hK' : KeepsBinding { s with
      session, used := m.sessionId :: s.used, first := noteStart s.first m } := by
    intro a ha
    simp [hK] at ha
  have hg : ∀ x, (Op.offer m).given = some x → Held { s with
      session, used := m.sessionId :: s.used, first := noteStart s.first m } x := by
    rintro x ⟨⟩
    exact ⟨m.binding, hself, Or.inr (Or.inl rfl)⟩
  obtain ⟨h1, h2, h3, h4, -⟩ := queueOp_inv hI' hK' hg (bindOk_offer _ _) h
  exact ⟨h1, h2, h3, by rw [h4]; exact hself⟩

theorem Inv.withSent {s : Phone} (hI : s.Inv) (sent : List Frame) : Inv { s with sent } :=
  ⟨hI.session, hI.saved, hI.held, hI.used⟩

theorem keepsBinding_of_nil {s : Phone} (h : s.sent = []) : s.KeepsBinding := by
  intro a ha
  simp [h] at ha

theorem onTextChanged_inv {s t : Phone} {text newId : String} {b : Bool}
    {session : InputSession} {o : Option SnapshotMessage} (hI : s.Inv) (hs : s.sent = [])
    (hfresh : newId ∉ s.used) (hr : s.session.onTextChanged text b newId = some (session, o))
    (h : Phone.offerAll { s with session, used := newId :: s.used } o.toList = some t) :
    t.Inv ∧ t.KeepsBinding := by
  have hu : ∀ id ∈ s.used, id ∈ newId :: s.used := fun id hid => List.mem_cons_of_mem _ hid
  rcases InputSession.onTextChanged_spec hr with ⟨rfl, hs', -⟩ | ⟨-, ho, hs'⟩ | ⟨hid, ho, hs'⟩
  · obtain rfl : _ = t := by simpa [offerAll] using h
    refine ⟨hI.withSession session _ hu ?_, keepsBinding_of_nil hs⟩
    rw [hs']
    exact hI.session
  · obtain ⟨m, hm⟩ : ∃ m, session.snapshot .start = some m := by
      simp [hs', InputSession.snapshot]
    obtain ⟨hmid, hmt, hmb⟩ := snapshot_some hm
    obtain rfl : newId = m.sessionId := by simpa [hs'] using hmid
    rw [ho, hm] at h
    simp only [Option.toList_some, offerAll, Option.bind_fun_some] at h
    obtain ⟨h1, h2, -⟩ := offer_start_inv hI hs session m hfresh hmt hmid hmb.symm h
    exact ⟨h1, h2⟩
  · obtain ⟨id, hid⟩ := Option.ne_none_iff_exists'.mp hid
    obtain ⟨m, hm⟩ : ∃ m, session.snapshot .update = some m := by
      simp [hs', InputSession.snapshot, hid]
    obtain ⟨hmid, -, hmb⟩ := snapshot_some hm
    have hbound : s.Bound m.sessionId session.binding := by
      have := hI.session id hid
      rw [hs'] at hmid ⊢
      obtain rfl : id = m.sessionId := by simpa [hid] using hmid
      exact this
    rw [ho, hm] at h
    simp only [Option.toList_some, offerAll, Option.bind_fun_some] at h
    have hI' := hI.withSession session _ hu (by
      intro id' hid'
      obtain rfl : m.sessionId = id' := by simpa [hmid] using hid'
      exact hbound)
    obtain ⟨h1, h2, -⟩ := offer_inv hI' (keepsBinding_of_nil hs)
      (Bound.held (by rw [hmb]; exact hbound)) h
    exact ⟨h1, h2⟩

theorem finish_held {s : Phone} {session : InputSession} {m : SnapshotMessage} {id : String}
    {b : Binding} (hfin : s.session.finish = some (session, some m))
    (hid : s.session.sessionId = some id) (hb : s.Bound id b) :
    session.sessionId = some id ∧ session.binding = s.session.binding ∧ s.Held m := by
  rcases InputSession.finish_spec hfin with ⟨hn, -⟩ | ⟨id', hid', hs', hm⟩
  · simp [hid] at hn
  · obtain rfl : id = id' := by simpa [hid] using hid'
    obtain ⟨f, hf, -⟩ := hb
    simp only [Option.some.injEq] at hm
    refine ⟨by rw [hs']; exact hid, by rw [hs']; rfl, f, ?_, Or.inr (Or.inr ?_)⟩
    · rw [hm]
      exact hf
    · rw [hm]
      exact ⟨rfl, rfl⟩

theorem finish_inv {s t : Phone} {session : InputSession} {o : Option SnapshotMessage}
    (hI : s.Inv) (hK : s.KeepsBinding) (hr : s.session.finish = some (session, o))
    (h : Phone.offerAll { s with session } o.toList = some t) : t.Inv ∧ t.KeepsBinding := by
  cases o with
  | none =>
    obtain rfl : _ = t := by simpa [offerAll] using h
    rcases InputSession.finish_spec hr with ⟨-, -, hs'⟩ | ⟨id, -, -, hm⟩
    · rw [hs']
      exact ⟨hI, hK⟩
    · simp at hm
  | some m =>
    simp only [Option.toList_some, offerAll, Option.bind_fun_some] at h
    obtain ⟨id, hid⟩ : ∃ id, s.session.sessionId = some id := by
      rcases InputSession.finish_spec hr with ⟨-, hm, -⟩ | ⟨id, hid, -⟩
      · simp at hm
      · exact ⟨id, hid⟩
    have hb := hI.session id hid
    obtain ⟨hid', hb', hheld⟩ := finish_held hr hid hb
    have hI' := hI.withSession session s.used (fun _ h => h) (by
      intro i hi
      obtain rfl : id = i := by simpa [hid'] using hi
      rw [hb']
      exact hb)
    obtain ⟨h1, h2, -⟩ := offer_inv hI' hK hheld h
    exact ⟨h1, h2⟩

theorem startLocalDraft_inv {s t : Phone} {attach : Bool} {newId : String}
    (hI : s.Inv) (hs : s.sent = []) (hfresh : newId ∉ s.used)
    (h : Phone.offerAll
      { s with session := (s.session.startLocalDraft attach newId).1, used := newId :: s.used }
      (s.session.startLocalDraft attach newId).2.toList = some t) :
    t.Inv ∧ t.KeepsBinding := by
  rcases InputSession.startLocalDraft_spec s.session attach newId with hd | ⟨-, -, h1, h2⟩
  · rw [hd] at h
    obtain rfl : _ = t := by simpa [offerAll] using h
    exact ⟨hI.withSession s.session _ (fun id hid => List.mem_cons_of_mem _ hid) hI.session,
      keepsBinding_of_nil hs⟩
  · rw [h2] at h
    generalize (s.session.startLocalDraft attach newId).1 = session at h1 h
    obtain ⟨m, hm⟩ : ∃ m, session.snapshot .start = some m := by
      simp [h1, InputSession.snapshot]
    obtain ⟨hmid, hmt, hmb⟩ := snapshot_some hm
    obtain rfl : newId = m.sessionId := by simpa [h1] using hmid
    rw [hm] at h
    simp only [Option.toList_some, offerAll, Option.bind_fun_some] at h
    obtain ⟨h1, h2, -⟩ := offer_start_inv hI hs session m hfresh hmt hmid hmb.symm h
    exact ⟨h1, h2⟩

theorem restartAtCurrentCursor_inv {s t : Phone} {newId : String} {session : InputSession}
    {ms : List SnapshotMessage} (hI : s.Inv) (hs : s.sent = []) (hfresh : newId ∉ s.used)
    (hr : s.session.restartAtCurrentCursor newId = some (session, ms))
    (h : Phone.offerAll { s with session, used := newId :: s.used } ms = some t) :
    t.Inv ∧ t.KeepsBinding := by
  rcases InputSession.restartAtCurrentCursor_spec hr with ⟨rfl, hs'⟩ | ⟨start, s₁, hs₁, hst, hms⟩
  · obtain rfl : _ = t := by simpa [offerAll] using h
    refine ⟨hI.withSession session _ (fun id hid => List.mem_cons_of_mem _ hid) ?_,
      keepsBinding_of_nil hs⟩
    simp [hs', InputSession.resetForReplacement, InputSession.reset]
  · obtain ⟨hmid, hmt, hmb⟩ := snapshot_some hst
    obtain rfl : newId = start.sessionId := by simpa [hs₁] using hmid
    rcases hms with ⟨rfl, rfl⟩ | ⟨finish, hfin, rfl⟩
    · simp only [offerAll, Option.bind_fun_some] at h
      obtain ⟨h1, h2, -⟩ := offer_start_inv hI hs session start hfresh hmt hmid hmb.symm h
      exact ⟨h1, h2⟩
    · -- the FINISH of the restarted session follows its START
      have hsess : session.sessionId = some start.sessionId ∧ session.binding = start.binding := by
        rcases InputSession.finish_spec hfin with ⟨-, hm, -⟩ | ⟨id, hid, hs', -⟩
        · simp at hm
        · rw [hs', hmb]
          exact ⟨hmid, rfl⟩
      simp only [offerAll, Option.bind_fun_some] at h
      obtain ⟨u, hu, h⟩ := Option.bind_eq_some_iff.mp h
      obtain ⟨h1, h2, -, h4⟩ := offer_start_inv hI hs session start hfresh hmt hsess.1 hsess.2 hu
      have hheld : u.Held finish := by
        rcases InputSession.finish_spec hfin with ⟨-, hm, -⟩ | ⟨id, hid, -, hm⟩
        · simp at hm
        · obtain rfl : start.sessionId = id := by simpa [hmid] using hid
          simp only [Option.some.injEq] at hm
          refine ⟨start.binding, ?_, Or.inr (Or.inr ?_)⟩
          · rw [hm]
            exact h4
          · rw [hm]
            exact ⟨rfl, rfl⟩
      obtain ⟨h1, h2, -⟩ := offer_inv h1 h2 hheld h
      exact ⟨h1, h2⟩

theorem Bound.acked {s : Phone} {id : String} {b : Binding} (h : s.Bound id b)
    (acked : List String) (ha : ∀ x ∈ s.acked, x ∈ acked) : Bound { s with acked } id b := by
  obtain ⟨f, hf, h⟩ := h
  exact ⟨f, hf, h.imp_left (ha id)⟩

theorem Inv.withAcked {s : Phone} (hI : s.Inv) (acked : List String)
    (ha : ∀ x ∈ s.acked, x ∈ acked) : Inv { s with acked } := by
  refine ⟨fun id h => (hI.session id h).acked acked ha,
    fun st hst id h => (hI.saved st hst id h).acked acked ha, ?_, hI.used⟩
  intro m hm
  obtain ⟨f, hf, h⟩ := hI.held m hm
  exact ⟨f, hf, h.imp_left (ha _)⟩

/-- An acknowledgement may clear the fields of an acknowledged session only. -/
theorem acknowledge_bound {s : Phone} {ack : AckMessage} (hI : s.Inv)
    (ha : ack.sessionId ∈ s.acked) (id : String)
    (hid : id ∈ (s.session.acknowledge ack).sessionId) :
    s.Bound id (s.session.acknowledge ack).binding := by
  unfold InputSession.acknowledge at hid ⊢
  split
  · rename_i hg
    simp only [hg, if_true] at hid
    exact hI.session id hid
  · rename_i hg
    have hs : s.session.sessionId = some ack.sessionId := by
      by_contra hne
      exact hg (Or.inl (fun h => hne h.symm))
    have hid' : id = ack.sessionId := by
      simp only [hg, if_false] at hid
      split at hid <;> split at hid <;> simpa [hs, eq_comm] using hid
    subst hid'
    obtain ⟨f, hf, -⟩ := hI.session ack.sessionId hs
    exact ⟨f, hf, Or.inl ha⟩

theorem step_inv {s t : Phone} {e : Event} (hI : s.Inv) (hok : s.BindOk e)
    (h : s.step e = some t) : t.Inv ∧ t.KeepsBinding := by
  have hI₀ := hI.withSent []
  have hK₀ : KeepsBinding { s with sent := [] } := keepsBinding_of_nil rfl
  cases e with
  | onTextChanged text b newId =>
    simp only [step] at h
    split at h
    · rename_i hf
      obtain ⟨⟨session, o⟩, hr, h⟩ := Option.bind_eq_some_iff.mp h
      exact onTextChanged_inv hI₀ rfl hf.1 hr h
    · simp at h
  | finish =>
    obtain ⟨⟨session, o⟩, hr, h⟩ := Option.bind_eq_some_iff.mp h
    exact finish_inv hI₀ hK₀ hr h
  | startLocalDraft attach newId =>
    simp only [step] at h
    split at h
    · rename_i hf
      exact startLocalDraft_inv hI₀ rfl hf.1 h
    · simp at h
  | restartAtCurrentCursor newId =>
    simp only [step] at h
    split at h
    · rename_i hf
      obtain ⟨⟨session, ms⟩, hr, h⟩ := Option.bind_eq_some_iff.mp h
      exact restartAtCurrentCursor_inv hI₀ rfl hf.1 hr h
    · simp at h
  | resetForReplacement text =>
    obtain rfl : _ = t := by simpa [step] using h
    refine ⟨hI₀.withSession _ s.used (fun _ h => h) ?_, hK₀⟩
    simp [InputSession.resetForReplacement, InputSession.reset]
  | replaceLocalDraft text =>
    obtain ⟨session, hr, rfl⟩ := Option.map_eq_some_iff.mp h
    refine ⟨hI₀.withSession session s.used (fun _ h => h) ?_, hK₀⟩
    unfold InputSession.replaceLocalDraft at hr
    split at hr
    · simp at hr
    · obtain rfl : _ = session := by simpa using hr
      exact hI₀.session
  | reset =>
    obtain rfl : _ = t := by simpa [step] using h
    refine ⟨hI₀.withSession _ s.used (fun _ h => h) ?_, hK₀⟩
    simp [InputSession.reset]
  | abandonSession =>
    simp only [step] at h
    split at h
    · obtain rfl : _ = t := by simpa using h
      exact ⟨hI₀, hK₀⟩
    · refine (queueOp_inv (hI.withSent _) ?_ (by simp [Op.given]) (by simp [BindOk, rebuilt]) h).imp
        id And.left
      intro f hf m hm
      dsimp only at hf
      split at hf
      · obtain rfl : f = _ := by simpa using hf
        simp [Frame.start?] at hm
      · simp at hf
  | save r =>
    simp only [step] at h
    split at h
    · obtain rfl : _ = t := by simpa using h
      refine ⟨⟨hI₀.session, ?_, hI₀.held, hI₀.used⟩, hK₀⟩
      intro p hp id hid
      rcases List.mem_cons.mp hp with rfl | hp
      · exact hI₀.session id hid
      · exact hI₀.saved p hp id hid
    · simp at h
  | restore p =>
    simp only [step] at h
    split at h
    · rename_i hp
      obtain ⟨session, hr, rfl⟩ := Option.map_eq_some_iff.mp h
      refine ⟨hI₀.withSession session s.used (fun _ h => h) ?_, hK₀⟩
      unfold InputSession.restore at hr
      split at hr
      · simp at hr
      · split at hr
        · simp at hr
        · obtain rfl : _ = session := by simpa using hr
          exact hI₀.saved p hp
    · simp at h
  | restoreQueue p =>
    simp only [step] at h
    split at h
    · split at h
      · obtain rfl : _ = t := by simpa using h
        exact ⟨hI₀, hK₀⟩
      · rename_i m hm
        have hmid := snapshot_some hm
        have hg : ∀ x, (Op.restore m p.state.acknowledgedSequence p.remoteStarted).given = some x →
            Held { s with sent := [] } x := by
          rintro x ⟨⟩
          refine Bound.held ?_
          rw [hmid.2.2]
          exact hI₀.session _ hmid.1
        obtain ⟨h1, h2, -⟩ := queueOp_inv hI₀ hK₀ hg (by simp [BindOk, rebuilt]) h
        exact ⟨h1, h2⟩
    · simp at h
  | newProcess =>
    obtain rfl : _ = t := by simpa [step] using h
    refine ⟨⟨by simp, hI₀.saved, ?_, hI₀.used⟩, hK₀⟩
    simp [messages]
  | queue op =>
    have hg : op.given = none ∧ queueOp { s with sent := [] } op = some t := by
      cases op <;> simp_all [step, Op.given]
    obtain ⟨h1, h2, -⟩ := queueOp_inv hI₀ hK₀ (by simp [hg.1]) hok hg.2
    exact ⟨h1, h2⟩
  | ackQueue ack =>
    simp only [step] at h
    split at h
    · have hI' := hI₀.withAcked (ack.sessionId :: s.acked) (fun _ h => List.mem_cons_of_mem _ h)
      obtain ⟨h1, h2, -⟩ := queueOp_inv hI' (keepsBinding_of_nil rfl) (by simp [Op.given])
        (by simp [BindOk, rebuilt]) h
      exact ⟨h1, h2⟩
    · obtain rfl : _ = t := by simpa using h
      exact ⟨hI₀, hK₀⟩
  | ackSession ack =>
    simp only [step] at h
    split at h
    · rename_i ha
      obtain rfl : _ = t := by simpa using h
      have hb := acknowledge_bound (s := { s with sent := [] }) hI₀ ha
      exact ⟨hI₀.withSession _ s.used (fun _ h => h) hb, hK₀⟩
    · simp at h

/-- Rebuilding such a FINISH sends a START without the fields of its session. -/
theorem not_keepsBinding {s t : Phone} {e : Event} (hI : s.Inv) (hok : ¬ s.BindOk e)
    (h : s.step e = some t) : ¬ t.KeepsBinding := by
  cases e with
  | queue op =>
    simp only [BindOk, Option.mem_def, not_forall, not_or] at hok
    obtain ⟨m, hm, -, hb, hna, hf⟩ := hok
    have hq : queueOp { s with sent := [] } op = some t := by
      cases op <;> simp_all [step, rebuilt]
    obtain ⟨⟨q', a⟩, ha, rfl⟩ := Option.map_eq_some_iff.mp hq
    obtain rfl := rebuilt_action ha hm
    obtain ⟨f, hf', -⟩ := hI.held m (rebuilt_mem hm)
    intro hK
    have hk := hK (.snapshot { m with type := .start }) (by simp [sendAction]) _ rfl hna
    have hn : noteStart s.first { m with type := .start } = s.first :=
      noteStart_of_some (by simp [hf'])
    simp only [noteAction, hn] at hk
    exact hf (hb ▸ hk)
  | _ => simp [BindOk] at hok

/-- From the empty phone, every re-sent START keeps the binding fields of its
session in every state of a run exactly when every event meets `BindOk`. -/
theorem start_keeps_binding_iff (phoneId : String) (es : List Event) :
    Always step KeepsBinding { session := { phoneId } } es ↔
      Along step BindOk { session := { phoneId } } es := by
  apply always_iff_along Inv es
  · refine ⟨by simp, by simp, ?_, by simp⟩
    simp [messages]
  · exact keepsBinding_of_nil rfl
  · intro s e t hI _ h
    by_cases hok : s.BindOk e
    · exact ⟨iff_of_true (step_inv hI hok h).2 hok, fun _ => (step_inv hI hok h).1⟩
    · exact ⟨iff_of_false (not_keepsBinding hI hok h) hok, fun h => absurd h hok⟩

/-- A finishing session is moved to the current cursor, and the connection is
replaced before its START is confirmed. -/
def bindingLostEvents : List Event :=
  [.queue .onConnected, .onTextChanged "a" true "s1", .finish, .queue .abandonSession,
    .restartAtCurrentCursor "s2", .queue .onDisconnected, .queue .onConnected]

theorem reconnect_loses_binding :
    ¬ Always step KeepsBinding { session := { phoneId := "phone" } } bindingLostEvents := by
  decide

end Phone

end FlowType
