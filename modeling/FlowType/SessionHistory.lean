import FlowType.DraftStore

/-! Every run of an `InputSession`: its counters, the texts it gives to its
sequence numbers, and what a saved draft brings back. A run remembers the
snapshots that were issued, the states that were taken of the session and the
identifiers that the factory has handed out. -/
namespace FlowType

structure SessionRun where
  session : InputSession
  issued : List SnapshotMessage := []
  states : List InputSession.State := []
  used : List String := []

namespace SessionRun
open InputSession Machine

/-- The factory returns random UUIDs: never empty, never used twice. -/
def FreshIds (s : SessionRun) (op : Op) : Prop :=
  ∀ newId ∈ op.newId?, newId ∉ s.used ∧ newId ≠ ""

instance (s : SessionRun) (op : Op) : Decidable (s.FreshIds op) :=
  inferInstanceAs (Decidable (∀ newId ∈ op.newId?, _))

def step (s : SessionRun) (op : Op) : Option SessionRun :=
  if s.FreshIds op then
    (s.session.apply op).map fun r =>
      { session := r.1
        issued := r.2 ++ s.issued
        states := match op with
          | .state => s.session.state :: s.states
          | _ => s.states
        used := op.newId?.toList ++ s.used }
  else none

def start (phoneId : String) : SessionRun := { session := { phoneId := phoneId } }

def OneText (issued : List SnapshotMessage) : Prop :=
  ∀ m ∈ issued, ∀ m' ∈ issued, m.sessionId = m'.sessionId → m.sequence = m'.sequence →
    m.fullText = m'.fullText

instance (issued : List SnapshotMessage) : Decidable (OneText issued) :=
  inferInstanceAs (Decidable (∀ m ∈ issued, ∀ m' ∈ issued, _))

def Sound (s : SessionRun) : Prop :=
  (0 ≤ s.session.acknowledgedSequence ∧
    s.session.acknowledgedSequence ≤ s.session.latestSequence) ∧
  (s.session.sessionId = none ↔ s.session.latestSequence = 0) ∧
  OneText s.issued ∧
  ∀ id ∈ s.session.replacementSessionId, s.session.sessionId ≠ some id

instance (s : SessionRun) : Decidable s.Sound :=
  inferInstanceAs (Decidable (_ ∧ (_ ↔ _) ∧ _ ∧ ∀ id ∈ s.session.replacementSessionId, _))

/-- Whatever `save` stores of the session comes back equal from `load`, and
neither `restore` nor the queue's `restore` of its recovery snapshot throws. -/
def Persists (s : SessionRun) : Prop :=
  ∀ (codec : DraftCodec) (preferences : Preferences) (pcId : String) (remoteStarted : Bool),
    ¬ DraftStore.Blank s.session.state →
    (DraftStore.load codec
      (DraftStore.save codec preferences pcId ⟨s.session.state, remoteStarted⟩) pcId).2 =
        some ⟨s.session.state, remoteStarted⟩ ∧
    ∀ other : InputSession, ∃ restored, other.restore s.session.state = some restored ∧
      ∀ m ∈ restored.recoverySnapshot, ∀ q : OutboundQueue,
        q.restore m s.session.state.acknowledgedSequence remoteStarted ≠ none

/-- A restored state was taken of the session before, and no snapshot beyond it
has been issued for that session. -/
def RestoresLatest (s : SessionRun) : Op → Prop
  | .restore st => st ∈ s.states ∧
      ∀ m ∈ s.issued, some m.sessionId = st.sessionId → m.sequence ≤ st.latestSequence
  | _ => True

instance (s : SessionRun) (op : Op) : Decidable (s.RestoresLatest op) := by
  unfold RestoresLatest
  split <;> infer_instance

structure Known (used : List String) (issued : List SnapshotMessage) (st : State) : Prop where
  acknowledged : 0 ≤ st.acknowledgedSequence ∧ st.acknowledgedSequence ≤ st.latestSequence
  numbered : st.sessionId = none ↔ st.latestSequence = 0
  replaced : ∀ id ∈ st.replacementSessionId, st.sessionId ≠ some id
  named : ∀ id, st.sessionId = some id ∨ st.replacementSessionId = some id → id ∈ used
  issued : ∀ id ∈ st.sessionId, ∃ m ∈ issued, m.sessionId = id ∧
    m.sequence = st.latestSequence ∧ m.fullText = st.text

theorem Known.mono {used used' : List String} {issued issued' : List SnapshotMessage} {st : State}
    (h : Known used issued st) (hu : used ⊆ used') (hi : issued ⊆ issued') :
    Known used' issued' st := by
  refine ⟨h.acknowledged, h.numbered, h.replaced, fun id hid => hu (h.named id hid), ?_⟩
  intro id hid
  obtain ⟨m, hm, hrest⟩ := h.issued id hid
  exact ⟨m, hi hm, hrest⟩

structure HistoryInv (s : SessionRun) : Prop where
  session : Known s.used s.issued s.session.state
  states : ∀ st ∈ s.states, Known s.used s.issued st
  newest : ∀ m ∈ s.issued, some m.sessionId = s.session.sessionId →
    m.sequence ≤ s.session.latestSequence
  oneText : OneText s.issued
  used : ∀ m ∈ s.issued, m.sessionId ∈ s.used
  named : "" ∉ s.used

/-- A snapshot that carries the session's number and text. -/
def Carries (s : InputSession) (m : SnapshotMessage) : Prop :=
  s.sessionId = some m.sessionId ∧ m.sequence = s.latestSequence ∧ m.fullText = s.currentText

inductive Effect (s : InputSession) : Op → InputSession → List SnapshotMessage → Prop
  /-- Session, number and text of the session stay; a draft may change its text. -/
  | keeps {op : Op} {s' : InputSession} {ms : List SnapshotMessage} :
      s'.sessionId = s.sessionId → s'.latestSequence = s.latestSequence →
      (s.sessionId ≠ none → s'.currentText = s.currentText) →
      (0 ≤ s'.acknowledgedSequence ∧ s'.acknowledgedSequence ≤ s'.latestSequence) →
      (∀ id ∈ s'.replacementSessionId, s.replacementSessionId = some id) →
      (∀ m ∈ ms, Carries s' m) → Effect s op s' ms
  | opens {op : Op} {s' : InputSession} {ms : List SnapshotMessage} (newId : String) :
      op.newId? = some newId → s'.sessionId = some newId → s'.latestSequence = 1 →
      s'.acknowledgedSequence = 0 →
      (∀ id ∈ s'.replacementSessionId, s.sessionId = some id ∨ s.replacementSessionId = some id) →
      ms ≠ [] → (∀ m ∈ ms, Carries s' m) → Effect s op s' ms
  | advances {op : Op} {s' : InputSession} {m : SnapshotMessage} : s.sessionId ≠ none →
      s'.sessionId = s.sessionId → s'.latestSequence = s.latestSequence + 1 →
      s'.acknowledgedSequence = s.acknowledgedSequence →
      s'.replacementSessionId = s.replacementSessionId → Carries s' m → Effect s op s' [m]
  | closes {op : Op} {s' : InputSession} : s'.sessionId = none → s'.latestSequence = 0 →
      s'.acknowledgedSequence = 0 →
      (∀ id ∈ s'.replacementSessionId, s.sessionId = some id ∨ s.replacementSessionId = some id) →
      Effect s op s' []
  | restores {s' : InputSession} (st : State) : s'.state = st → Effect s (.restore st) s' []

theorem snapshot_carries {s : InputSession} {type : SnapshotType} {m : SnapshotMessage}
    (h : s.snapshot type = some m) : Carries s m := by
  obtain ⟨id, hid, rfl⟩ := Option.map_eq_some_iff.mp h
  exact ⟨hid, rfl, rfl⟩

theorem exists_snapshot {s : InputSession} (type : SnapshotType) (h : s.sessionId ≠ none) :
    ∃ m, s.snapshot type = some m ∧ Carries s m := by
  obtain ⟨id, hid⟩ := Option.ne_none_iff_exists'.mp h
  have hm : s.snapshot type = some _ := congrArg (Option.map _) hid
  exact ⟨_, hm, snapshot_carries hm⟩

theorem elvis_mem {a b : Option String} {id : String} (h : (a <|> b) = some id) :
    a = some id ∨ b = some id := OutboundQueue.elvis_eq_some h

theorem resetForReplacement_effect (s : InputSession) (op : Op) (text : String) :
    Effect s op (s.resetForReplacement text) [] := by
  refine .closes rfl rfl rfl ?_
  intro id hid
  exact elvis_mem hid

def Unnumbered (s : InputSession) : Prop :=
  s.sessionId = none → s.latestSequence = 0 ∧ s.acknowledgedSequence = 0

theorem onTextChanged_effect {s s' : InputSession} {text newId : String} {b : Bool}
    {o : Option SnapshotMessage}
    (hack : 0 ≤ s.acknowledgedSequence ∧ s.acknowledgedSequence ≤ s.latestSequence)
    (hnum : Unnumbered s) (h : s.onTextChanged text b newId = some (s', o)) :
    Effect s (.onTextChanged text b newId) s' o.toList := by
  rcases onTextChanged_spec h with ⟨rfl, rfl, hsame⟩ | ⟨hid, ho, hs'⟩ | ⟨hid, ho, hs'⟩
  · -- no snapshot: the text of an open session is the text it had
    exact .keeps rfl rfl hsame hack (fun id hid => hid) (by simp)
  · obtain ⟨hl, ha⟩ := hnum hid
    obtain ⟨m, hm, hc⟩ := exists_snapshot .start (by rw [hs']; simp : s'.sessionId ≠ none)
    have hseq : s'.latestSequence = 1 := by simp [hs', hl]
    have hrep : ∀ id ∈ s'.replacementSessionId, s.replacementSessionId = some id := by simp [hs']
    rw [ho, hm]
    exact .opens newId rfl (by rw [hs']) hseq (by rw [hs']; exact ha)
      (fun id hid => Or.inr (hrep id hid)) (by simp) (by simpa using hc)
  · obtain ⟨m, hm, hc⟩ := exists_snapshot .update (by rw [hs']; exact hid : s'.sessionId ≠ none)
    rw [ho, hm]
    exact .advances hid (by rw [hs']) (by rw [hs']) (by rw [hs']) (by rw [hs']) hc

theorem finish_effect {s s' : InputSession} {o : Option SnapshotMessage}
    (hack : 0 ≤ s.acknowledgedSequence ∧ s.acknowledgedSequence ≤ s.latestSequence)
    (hnum : s.sessionId ≠ none → s.latestSequence ≠ 0) (h : s.finish = some (s', o)) :
    Effect s .finish s' o.toList := by
  rcases finish_spec h with ⟨-, rfl, rfl⟩ | ⟨id, hid, rfl, rfl⟩
  · exact .keeps rfl rfl (fun _ => rfl) hack (fun id hid => hid) (by simp)
  · have hl : s.latestSequence ≠ 0 := hnum (by simp [hid])
    refine .keeps rfl (by simp [hl]) (fun _ => rfl) (by simpa [hl] using hack)
      (fun id hid => hid) ?_
    intro m hm
    obtain rfl : m = _ := by simpa using hm
    exact ⟨hid, rfl, rfl⟩

theorem startLocalDraft_effect (s : InputSession) (attach : Bool) (newId : String)
    (hack : 0 ≤ s.acknowledgedSequence ∧ s.acknowledgedSequence ≤ s.latestSequence)
    (hnum : Unnumbered s) :
    Effect s (.startLocalDraft attach newId) (s.startLocalDraft attach newId).1
      (s.startLocalDraft attach newId).2.toList := by
  rcases startLocalDraft_spec s attach newId with h | ⟨hid, -, h1, h2⟩
  · rw [h]
    exact .keeps rfl rfl (fun _ => rfl) hack (fun id hid => hid) (by simp)
  · have hsome : (s.startLocalDraft attach newId).1.sessionId ≠ none := by simp [h1]
    obtain ⟨m, hm, hc⟩ := exists_snapshot .start hsome
    rw [h2, hm]
    refine .opens newId rfl (by rw [h1]) (by rw [h1]) ?_ ?_ (by simp) (by simpa using hc)
    · rw [h1]
      exact (hnum hid).2
    · rw [h1]
      exact fun id hid => Or.inr hid

theorem restartAtCurrentCursor_effect {s s' : InputSession} {newId : String}
    {ms : List SnapshotMessage} (h : s.restartAtCurrentCursor newId = some (s', ms)) :
    Effect s (.restartAtCurrentCursor newId) s' ms := by
  rcases restartAtCurrentCursor_spec h with ⟨rfl, rfl⟩ | ⟨start, s₁, rfl, hstart, hms⟩
  · exact resetForReplacement_effect s _ _
  · have hc := snapshot_carries hstart
    have hrep : ∀ id ∈ (s.resetForReplacement s.currentText).replacementSessionId,
        s.sessionId = some id ∨ s.replacementSessionId = some id := fun id hid => elvis_mem hid
    rcases hms with ⟨rfl, rfl⟩ | ⟨finish, hf, rfl⟩
    · refine .opens newId rfl rfl rfl rfl hrep (by simp) ?_
      intro m hm
      obtain rfl : m = start := by simpa using hm
      exact hc
    · -- the finishing session issues its FINISH with the START's number and text
      rcases finish_spec hf with ⟨hid, -, -⟩ | ⟨id, hid, rfl, hfin⟩
      · simp at hid
      · obtain rfl : newId = id := by simpa using hid
        refine .opens newId rfl rfl rfl rfl hrep (by simp) ?_
        intro m hm
        rcases List.mem_cons.mp hm with rfl | hm
        · exact hc
        · obtain rfl : m = finish := by simpa using hm
          rw [Option.some.inj hfin]
          exact ⟨rfl, rfl, rfl⟩

theorem acknowledge_effect (s : InputSession) (ack : AckMessage)
    (hack : 0 ≤ s.acknowledgedSequence ∧ s.acknowledgedSequence ≤ s.latestSequence) :
    Effect s (.acknowledge ack) (s.acknowledge ack) [] := by
  unfold acknowledge
  split
  · exact .keeps rfl rfl (fun _ => rfl) hack (fun id hid => hid) (by simp)
  · rename_i hg
    push Not at hg
    have hmin : 0 ≤ min ack.appliedSequence s.latestSequence ∧
        min ack.appliedSequence s.latestSequence ≤ s.latestSequence := by
      have := hg.2
      omega
    dsimp only
    split_ifs
    · exact .keeps rfl rfl (fun _ => rfl) hmin (by simp) (by simp)
    · exact .keeps rfl rfl (fun _ => rfl) hmin (by simp) (by simp)
    · exact .keeps rfl rfl (fun _ => rfl) hmin (fun id hid => hid) (by simp)
    · exact .keeps rfl rfl (fun _ => rfl) hmin (fun id hid => hid) (by simp)

theorem replaceLocalDraft_effect {s s' : InputSession} {text : String}
    (hack : 0 ≤ s.acknowledgedSequence ∧ s.acknowledgedSequence ≤ s.latestSequence)
    (h : s.replaceLocalDraft text = some s') : Effect s (.replaceLocalDraft text) s' [] := by
  unfold replaceLocalDraft at h
  split at h
  · simp at h
  · rename_i hg
    push Not at hg
    obtain rfl : _ = s' := by simpa using h
    -- only a draft without a session may be replaced
    exact .keeps rfl rfl (fun hid => absurd hg.1 hid) hack (fun id hid => hid) (by simp)

/-- Every operation is one of the five effects. -/
theorem apply_effect {s s' : InputSession} {op : Op} {ms : List SnapshotMessage}
    (hack : 0 ≤ s.acknowledgedSequence ∧ s.acknowledgedSequence ≤ s.latestSequence)
    (hnum : s.sessionId = none ↔ s.latestSequence = 0) (h : s.apply op = some (s', ms)) :
    Effect s op s' ms := by
  have hun : Unnumbered s := by
    intro hid
    have hl := hnum.mp hid
    omega
  have hpos : s.sessionId ≠ none → s.latestSequence ≠ 0 := fun hid hl => hid (hnum.mpr hl)
  cases op with
  | onTextChanged text startIfNeeded newId =>
    obtain ⟨⟨s₁, o⟩, hr, heq⟩ := Option.map_eq_some_iff.mp h
    obtain ⟨rfl, rfl⟩ := Prod.mk.inj heq
    exact onTextChanged_effect hack hun hr
  | finish =>
    obtain ⟨⟨s₁, o⟩, hr, heq⟩ := Option.map_eq_some_iff.mp h
    obtain ⟨rfl, rfl⟩ := Prod.mk.inj heq
    exact finish_effect hack hpos hr
  | restartAtCurrentCursor newId => exact restartAtCurrentCursor_effect h
  | resetForReplacement text =>
    obtain ⟨rfl, rfl⟩ := Prod.mk.inj (Option.some.inj h)
    exact resetForReplacement_effect s _ text
  | replaceLocalDraft text =>
    obtain ⟨s₁, hr, heq⟩ := Option.map_eq_some_iff.mp h
    obtain ⟨rfl, rfl⟩ := Prod.mk.inj heq
    exact replaceLocalDraft_effect hack hr
  | startLocalDraft attach newId =>
    obtain ⟨rfl, rfl⟩ := Prod.mk.inj (Option.some.inj h)
    exact startLocalDraft_effect s attach newId hack hun
  | acknowledge ack =>
    obtain ⟨rfl, rfl⟩ := Prod.mk.inj (Option.some.inj h)
    exact acknowledge_effect s ack hack
  | reset =>
    obtain ⟨rfl, rfl⟩ := Prod.mk.inj (Option.some.inj h)
    exact .closes rfl rfl rfl (by simp [InputSession.reset])
  | state =>
    obtain ⟨rfl, rfl⟩ := Prod.mk.inj (Option.some.inj h)
    exact .keeps rfl rfl (fun _ => rfl) hack (fun id hid => hid) (by simp)
  | restore st =>
    obtain ⟨s₁, hr, heq⟩ := Option.map_eq_some_iff.mp h
    obtain ⟨rfl, rfl⟩ := Prod.mk.inj heq
    exact .restores st (restore_state hr).2
  | recoverySnapshot =>
    obtain ⟨rfl, rfl⟩ := Prod.mk.inj (Option.some.inj h)
    refine .keeps rfl rfl (fun _ => rfl) hack (fun id hid => hid) ?_
    intro m hm
    have hm' : s.recoverySnapshot = some m := by simpa using hm
    exact snapshot_carries hm'

/-- New snapshots carry the session's number and text, so they agree with the
old ones as soon as the old ones of that number have that text. -/
theorem OneText.append {issued ms : List SnapshotMessage} {s : InputSession} (h : OneText issued)
    (hms : ∀ m ∈ ms, Carries s m)
    (hold : ∀ m ∈ issued, s.sessionId = some m.sessionId → m.sequence = s.latestSequence →
      m.fullText = s.currentText) : OneText (ms ++ issued) := by
  have hmixed : ∀ m ∈ ms, ∀ m' ∈ issued, m.sessionId = m'.sessionId → m.sequence = m'.sequence →
      m.fullText = m'.fullText := by
    intro m hm m' hm' hid hseq
    obtain ⟨hc1, hc2, hc3⟩ := hms m hm
    have hm'id : s.sessionId = some m'.sessionId := by rw [hc1, hid]
    rw [hc3, hold m' hm' hm'id (by rw [← hc2, hseq])]
  intro m hm m' hm' hid hseq
  rcases List.mem_append.mp hm with hm | hm <;> rcases List.mem_append.mp hm' with hm' | hm'
  · rw [(hms m hm).2.2, (hms m' hm').2.2]
  · exact hmixed m hm m' hm' hid hseq
  · exact (hmixed m' hm' m hm hid.symm hseq.symm).symm
  · exact h m hm m' hm' hid hseq

/-- The part of the invariant that the effect decides: the session afterwards is
known, nothing is issued beyond it, and no number has two texts. -/
theorem effect_known {s : SessionRun} {op : Op} {s' : InputSession} {ms : List SnapshotMessage}
    (hI : s.HistoryInv) (hfresh : s.FreshIds op) (hlatest : s.RestoresLatest op)
    (h : Effect s.session op s' ms) :
    Known (op.newId?.toList ++ s.used) (ms ++ s.issued) s'.state ∧
    (∀ m ∈ ms ++ s.issued, some m.sessionId = s'.sessionId → m.sequence ≤ s'.latestSequence) ∧
    OneText (ms ++ s.issued) ∧ ∀ m ∈ ms, s'.sessionId = some m.sessionId := by
  have hK := hI.session
  have hused : s.used ⊆ op.newId?.toList ++ s.used := List.subset_append_right _ _
  have hissued : s.issued ⊆ ms ++ s.issued := List.subset_append_right _ _
  cases h with
  | keeps hid hseq htext hack hrep hms =>
    have hid' : s'.state.sessionId = s.session.state.sessionId := hid
    have hseq' : s'.state.latestSequence = s.session.state.latestSequence := hseq
    have hold : ∀ m ∈ s.issued, s'.sessionId = some m.sessionId →
        m.sequence = s'.latestSequence → m.fullText = s'.currentText := by
      intro m hm hmid hmseq
      rw [hid] at hmid
      obtain ⟨m₀, hm₀, h1, h2, h3⟩ := hK.issued _ hmid
      rw [htext (by simp [hmid])]
      exact (hI.oneText m hm m₀ hm₀ h1.symm (by rw [hmseq, h2]; exact hseq)).trans h3
    refine ⟨⟨hack, ?_, ?_, ?_, ?_⟩, ?_, hI.oneText.append hms hold, fun m hm => (hms m hm).1⟩
    · rw [hid', hseq']
      exact hK.numbered
    · intro id hrid
      rw [hid']
      exact hK.replaced id (hrep id hrid)
    · intro id hnamed
      rw [hid'] at hnamed
      exact hused (hK.named id (hnamed.imp_right (hrep id)))
    · intro id hsid
      rw [hid'] at hsid
      obtain ⟨m₀, hm₀, h1, h2, h3⟩ := hK.issued id hsid
      have hne : s.session.sessionId ≠ none := by
        rw [show s.session.sessionId = some id from hsid]
        simp
      exact ⟨m₀, hissued hm₀, h1, by rw [h2, hseq'], by rw [h3]; exact (htext hne).symm⟩
    · intro m hm hmid
      rcases List.mem_append.mp hm with hm | hm
      · exact le_of_eq (hms m hm).2.1
      · rw [hseq]
        exact hI.newest m hm (by rw [hmid, hid])
  | opens newId hnew hid hseq hack hrep hne hms =>
    obtain ⟨hunused, hnonempty⟩ := hfresh newId hnew
    -- the new session has issued nothing before
    have hnone : ∀ m ∈ s.issued, s'.sessionId ≠ some m.sessionId := by
      intro m hm hmid
      have hmnew : m.sessionId = newId := Option.some.inj (hmid.symm.trans hid)
      exact hunused (hmnew ▸ hI.used m hm)
    have hmem : newId ∈ op.newId?.toList ++ s.used := by simp [hnew]
    have hrep' : ∀ id ∈ s'.replacementSessionId, id ∈ s.used := fun id hrid =>
      hK.named id (hrep id hrid)
    have hid' : s'.state.sessionId = some newId := hid
    have hseq' : s'.state.latestSequence = 1 := hseq
    have hack' : s'.state.acknowledgedSequence = 0 := hack
    refine ⟨⟨?_, ?_, ?_, ?_, ?_⟩, ?_, ?_, fun m hm => (hms m hm).1⟩
    · rw [hack', hseq']
      decide
    · simp [hid', hseq']
    · intro id hrid hsid
      have hidnew : newId = id := by simpa [hid'] using hsid
      exact hunused (hidnew ▸ hrep' id hrid)
    · rintro id (hsid | hrid)
      · have hidnew : newId = id := by simpa [hid'] using hsid
        exact hidnew ▸ hmem
      · exact hused (hrep' id hrid)
    · intro id hsid
      obtain ⟨m, ms', rfl⟩ := List.exists_cons_of_ne_nil hne
      obtain ⟨h1, h2, h3⟩ := hms m (by simp)
      exact ⟨m, by simp, Option.some.inj (h1.symm.trans hsid), h2, h3⟩
    · intro m hm hmid
      rcases List.mem_append.mp hm with hm | hm
      · exact le_of_eq (hms m hm).2.1
      · exact absurd hmid.symm (hnone m hm)
    · exact hI.oneText.append hms fun m hm hmid => absurd hmid (hnone m hm)
  | @advances _ _ m hsome hid hseq hack hrep hc =>
    have hid' : s'.state.sessionId = s.session.state.sessionId := hid
    have hseq' : s'.state.latestSequence = s.session.state.latestSequence + 1 := hseq
    have hack' : s'.state.acknowledgedSequence = s.session.state.acknowledgedSequence := hack
    have hrep' : s'.state.replacementSessionId = s.session.state.replacementSessionId := hrep
    have hbound := hK.acknowledged
    have hms : ∀ x ∈ [m], Carries s' x := by simpa using hc
    -- nothing has been issued with the new number
    have hold : ∀ x ∈ s.issued, some x.sessionId = s'.sessionId →
        x.sequence < s'.latestSequence := by
      intro x hx hxid
      have := hI.newest x hx (by rw [hxid, hid])
      omega
    refine ⟨⟨?_, ?_, ?_, ?_, ?_⟩, ?_, ?_, fun x hx => (hms x hx).1⟩
    · rw [hack', hseq']
      omega
    · rw [hid', hseq']
      constructor
      · intro hnone
        exact absurd hnone hsome
      · intro hzero
        omega
    · rw [hid', hrep']
      exact hK.replaced
    · rw [hid', hrep']
      exact fun id hnamed => hused (hK.named id hnamed)
    · intro id hsid
      exact ⟨m, by simp, Option.some.inj (hc.1.symm.trans hsid), hc.2⟩
    · intro x hx hxid
      rcases List.mem_append.mp hx with hx | hx
      · exact le_of_eq (hms x hx).2.1
      · exact le_of_lt (hold x hx hxid)
    · refine hI.oneText.append hms ?_
      intro x hx hxid hxseq
      have := hold x hx hxid.symm
      omega
  | closes hid hseq hack hrep =>
    have hid' : s'.state.sessionId = none := hid
    have hseq' : s'.state.latestSequence = 0 := hseq
    have hack' : s'.state.acknowledgedSequence = 0 := hack
    refine ⟨⟨by simp [hack', hseq'], by simp [hid', hseq'], by simp [hid'], ?_, by simp [hid']⟩,
      ?_, hI.oneText, by simp⟩
    · rintro id (hsid | hrid)
      · simp [hid'] at hsid
      · exact hused (hK.named id (hrep id hrid))
    · intro m _ hmid
      simp [hid] at hmid
  | restores st hst =>
    obtain ⟨hmem, hbeyond⟩ := hlatest
    refine ⟨?_, ?_, hI.oneText, by simp⟩
    · rw [hst]
      exact (hI.states st hmem).mono hused hissued
    · intro m hm hmid
      have hm' : m ∈ s.issued := by simpa using hm
      rw [← hst] at hbeyond
      exact hbeyond m hm' hmid

theorem step_some {s t : SessionRun} {op : Op} (h : s.step op = some t) :
    s.FreshIds op ∧ ∃ s' ms, s.session.apply op = some (s', ms) ∧ t.session = s' ∧
      t.issued = ms ++ s.issued ∧ t.used = op.newId?.toList ++ s.used ∧
      ∀ st ∈ t.states, st ∈ s.states ∨ st = s.session.state := by
  unfold step at h
  split at h
  · rename_i hfresh
    obtain ⟨⟨s', ms⟩, happly, rfl⟩ := Option.map_eq_some_iff.mp h
    refine ⟨hfresh, s', ms, happly, rfl, rfl, rfl, ?_⟩
    cases op with
    | state =>
      intro st hst
      rcases List.mem_cons.mp hst with rfl | hst
      · exact Or.inr rfl
      · exact Or.inl hst
    | _ => exact fun st hst => Or.inl hst
  · simp at h

/-- One permitted operation keeps the history's invariant, unless it restores a
state that has been overtaken. -/
theorem step_historyInv {s t : SessionRun} {op : Op} (hI : s.HistoryInv)
    (hlatest : s.RestoresLatest op) (h : s.step op = some t) : t.HistoryInv := by
  obtain ⟨hfresh, s', ms, happly, hs', hms, hu, hst⟩ := step_some h
  have heffect := apply_effect hI.session.acknowledged hI.session.numbered happly
  obtain ⟨hknown, hnewest, hone, hids⟩ := effect_known hI hfresh hlatest heffect
  have hused : s.used ⊆ t.used := hu ▸ List.subset_append_right _ _
  have hissued : s.issued ⊆ t.issued := hms ▸ List.subset_append_right _ _
  refine ⟨?_, ?_, ?_, ?_, ?_, ?_⟩
  · rw [hu, hms, hs']
    exact hknown
  · intro st hmem
    rcases hst st hmem with hmem | rfl
    · exact (hI.states st hmem).mono hused hissued
    · exact hI.session.mono hused hissued
  · rw [hms, hs']
    exact hnewest
  · rw [hms]
    exact hone
  · intro m hm
    rw [hms] at hm
    rcases List.mem_append.mp hm with hm | hm
    · rw [hu]
      exact hknown.named m.sessionId (Or.inl (hids m hm))
    · exact hused (hI.used m hm)
  · rw [hu]
    intro hempty
    rcases List.mem_append.mp hempty with hnew | hold
    · exact (hfresh "" (by simpa using hnew)).2 rfl
    · exact hI.named hold

theorem start_historyInv (phoneId : String) : (start phoneId).HistoryInv := by
  refine ⟨⟨?_, ?_, ?_, ?_, ?_⟩, ?_, ?_, ?_, ?_, ?_⟩ <;>
    simp [start, OneText, InputSession.state]

theorem HistoryInv.sound {s : SessionRun} (h : s.HistoryInv) : s.Sound :=
  ⟨h.session.acknowledged, h.session.numbered, h.oneText, h.session.replaced⟩

/-- `restore` accepts every state of a sound session, and the queue accepts its
recovery snapshot: they check what the session keeps. -/
theorem restore_accepts {used : List String} {issued : List SnapshotMessage}
    {st : InputSession.State} (h : Known used issued st) (other : InputSession)
    (remoteStarted : Bool) :
    ∃ restored, other.restore st = some restored ∧ ∀ m ∈ restored.recoverySnapshot,
      ∀ q : OutboundQueue, q.restore m st.acknowledgedSequence remoteStarted ≠ none := by
  have hack : ¬ (st.latestSequence < st.acknowledgedSequence ∨ st.acknowledgedSequence < 0) := by
    have := h.acknowledged
    omega
  obtain ⟨restored, hrestore⟩ : ∃ restored, other.restore st = some restored := by
    unfold InputSession.restore
    rw [if_neg hack, if_neg (not_not.mpr h.numbered)]
    exact ⟨_, rfl⟩
  refine ⟨restored, hrestore, ?_⟩
  intro m hm q
  have hseq : m.sequence = st.latestSequence := by
    rw [(snapshot_carries hm).2.1, ← (restore_state hrestore).2]
    rfl
  have hbound : 0 ≤ st.acknowledgedSequence ∧ st.acknowledgedSequence ≤ m.sequence := by
    rw [hseq]
    exact h.acknowledged
  simp [OutboundQueue.restore, hbound]

theorem HistoryInv.persists {s : SessionRun} (h : s.HistoryInv) : s.Persists := by
  intro codec preferences pcId remoteStarted hblank
  have hnamed : DraftStore.Named s.session.state :=
    ⟨fun hid => h.named (h.session.named "" (Or.inl hid)),
      fun hid => h.named (h.session.named "" (Or.inr hid))⟩
  have hload := DraftStore.load_save codec preferences pcId ⟨s.session.state, remoteStarted⟩
    hblank hnamed
  exact ⟨congrArg Prod.snd hload, fun other => restore_accepts h.session other remoteStarted⟩

/-- In every run that restores no overtaken state, the session keeps its
counters, gives each of its numbers one text, and persists. -/
theorem session_history_sound (phoneId : String) (ops : List Op)
    (h : Along step RestoresLatest (start phoneId) ops) :
    Always step (fun s => s.Sound ∧ s.Persists) (start phoneId) ops := by
  have hstart := start_historyInv phoneId
  refine always_of_along HistoryInv ops hstart ⟨hstart.sound, hstart.persists⟩ ?_ h
  intro s op t hI hlatest hstep
  have hI' := step_historyInv hI hlatest hstep
  exact ⟨hI', hI'.sound, hI'.persists⟩

/-- The state taken after the first character of the draft. -/
def firstCharacter : InputSession.State :=
  { sessionId := some "s1", text := "a", latestSequence := 1, acknowledgedSequence := 0
    finishing := false }

theorem session_history_sound_typed_and_restored :
    Along step RestoresLatest (start "phone")
      [.onTextChanged "a" true "s1", .state, .restore firstCharacter,
        .onTextChanged "ab" true "s2"] ∧
    Always step (fun s => s.Sound ∧ s.Persists) (start "phone")
      [.onTextChanged "a" true "s1", .state, .restore firstCharacter,
        .onTextChanged "ab" true "s2"] :=
  ⟨by decide, session_history_sound "phone" _ (by decide)⟩

/-- A draft that was saved before the last character comes back after it was
sent: the next character takes a number that is already in use. -/
theorem stale_draft_reuses_sequence :
    ¬ Always step Sound (start "phone")
      [.onTextChanged "a" true "s1", .state, .onTextChanged "ab" true "s2",
        .restore firstCharacter, .onTextChanged "ac" true "s3"] := by
  decide

end SessionRun

end FlowType
