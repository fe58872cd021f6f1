import FlowType.QueueSends
import FlowType.SyncedText

/-! The phone's side of a synced text: what its operations do to the counters, what its
drafts and acknowledgements stand for, and which of its snapshots are the newest. -/
namespace FlowType

namespace InputSession

/-- What the user's operations leave of the counters: nothing is acknowledged by them, and
a finished session stays as it is or is given up. -/
structure Edited (s s' : InputSession) : Prop where
  acknowledged : s'.acknowledgedSequence = 0 ∨
    s'.acknowledgedSequence = s.acknowledgedSequence ∧ s'.sessionId = s.sessionId
  finished : s'.finished = true → s.finished = true ∧ (s.sessionId ≠ none → s' = s)

theorem Edited.of_open {s s' : InputSession} (hopen : s'.finished = false)
    (hacknowledged : s'.acknowledgedSequence = 0 ∨
      s'.acknowledgedSequence = s.acknowledgedSequence ∧ s'.sessionId = s.sessionId) :
    Edited s s' := by
  refine ⟨hacknowledged, fun hfinished => ?_⟩
  rw [hopen] at hfinished
  cases hfinished

theorem Edited.refl (s : InputSession) : Edited s s :=
  ⟨Or.inr ⟨rfl, rfl⟩, fun hfinished => ⟨hfinished, fun _ => rfl⟩⟩

theorem onTextChanged_edited {s s' : InputSession} {text newId : String} {b : Bool}
    {o : Option SnapshotMessage} (hidle : s.sessionId = none → s.acknowledgedSequence = 0)
    (h : s.onTextChanged text b newId = some (s', o)) : Edited s s' := by
  have hopen : s.finished = false := by
    unfold onTextChanged at h
    split at h
    · cases h
    · next hguard =>
      push Not at hguard
      simpa using hguard.2
  rcases onTextChanged_spec h with ⟨-, rfl, -⟩ | ⟨hid, -, rfl⟩ | ⟨-, -, rfl⟩
  · exact Edited.of_open hopen (Or.inr ⟨rfl, rfl⟩)
  · exact Edited.of_open hopen (Or.inl (hidle hid))
  · exact Edited.of_open hopen (Or.inr ⟨rfl, rfl⟩)

theorem finish_edited {s s' : InputSession} {o : Option SnapshotMessage}
    (h : s.finish = some (s', o)) : Edited s s' := by
  rcases finish_spec h with ⟨-, -, rfl⟩ | ⟨id, hid, rfl, -⟩
  · exact Edited.refl s'
  · have hopen : s.finished = false := by
      unfold finish at h
      rw [hid] at h
      dsimp only at h
      split at h
      · cases h
      · next hguard =>
        push Not at hguard
        simpa using hguard.2
    exact Edited.of_open hopen (Or.inr ⟨rfl, rfl⟩)

theorem restart_edited {s s' : InputSession} {newId : String} {ms : List SnapshotMessage}
    (h : s.restartAtCurrentCursor newId = some (s', ms)) : Edited s s' := by
  rcases restartAtCurrentCursor_spec h with ⟨-, rfl⟩ | ⟨start, opened, rfl, -, hms⟩
  · exact Edited.of_open rfl (Or.inl rfl)
  · rcases hms with ⟨-, rfl⟩ | ⟨finish, hfinish, -⟩
    · exact Edited.of_open rfl (Or.inl rfl)
    · rcases finish_spec hfinish with ⟨hnone, -⟩ | ⟨id, -, rfl, -⟩
      · cases hnone
      · exact Edited.of_open rfl (Or.inl rfl)

end InputSession

namespace SyncRun
open Machine Revision

theorem apply_edited {s s' : InputSession} {op : InputSession.Op} {ms : List SnapshotMessage}
    (hop : isEdit op = true) (hidle : s.sessionId = none → s.acknowledgedSequence = 0)
    (h : s.apply op = some (s', ms)) : InputSession.Edited s s' := by
  cases op with
  | onTextChanged text startIfNeeded newId =>
    obtain ⟨⟨u, o⟩, hu, heq⟩ := Option.map_eq_some_iff.mp h
    cases heq
    exact InputSession.onTextChanged_edited hidle hu
  | finish =>
    obtain ⟨⟨u, o⟩, hu, heq⟩ := Option.map_eq_some_iff.mp h
    cases heq
    exact InputSession.finish_edited hu
  | restartAtCurrentCursor newId => exact InputSession.restart_edited h
  | resetForReplacement text =>
    cases h
    exact InputSession.Edited.of_open rfl (Or.inl rfl)
  | replaceLocalDraft text =>
    obtain ⟨u, hu, heq⟩ := Option.map_eq_some_iff.mp h
    cases heq
    unfold InputSession.replaceLocalDraft at hu
    split at hu
    · cases hu
    · next hguard =>
      push Not at hguard
      cases hu
      exact InputSession.Edited.of_open (by simpa using hguard.2.2) (Or.inr ⟨rfl, rfl⟩)
  | startLocalDraft attach newId =>
    cases h
    rcases InputSession.startLocalDraft_spec s attach newId with hsame | ⟨hid, -, hopened, -⟩
    · rw [hsame]
      exact InputSession.Edited.refl s
    · rw [hopened]
      exact ⟨Or.inl (hidle hid), fun hfinished => ⟨hfinished, fun hne => absurd hid hne⟩⟩
  | reset =>
    cases h
    exact InputSession.Edited.of_open rfl (Or.inl rfl)
  | acknowledge ack => cases hop
  | state => cases hop
  | restore st => cases hop
  | recoverySnapshot => cases hop

def texts (phone : SessionRun) : List TextRevision := phone.issued.map (·.revision)

variable {reached ended : List TextRevision}

def Confirmed (reached : List TextRevision) (st : InputSession.State) : Prop :=
  ∀ id ∈ st.sessionId, 0 < st.acknowledgedSequence →
    ∃ r ∈ reached, r.key = id ∧ st.acknowledgedSequence ≤ r.number

def lastEnded (ended : List TextRevision) (id : String) : Option TextRevision :=
  ended.find? fun c => decide (c.key = id)

theorem lastEnded_mem {id : String} {c : TextRevision} (h : lastEnded ended id = some c) :
    c ∈ ended ∧ c.key = id := by
  unfold lastEnded at h
  have hkey := List.find?_some h
  exact ⟨List.mem_of_find?_eq_some h, of_decide_eq_true hkey⟩

theorem lastEnded_cons (c : TextRevision) (id : String) :
    lastEnded (c :: ended) id = if c.key = id then some c else lastEnded ended id := by
  unfold lastEnded
  rw [List.find?_cons]
  split
  · next h => rw [if_pos (of_decide_eq_true h)]
  · next h => rw [if_neg (of_decide_eq_false h)]

structure Covered (reached ended : List TextRevision) (ack : AckMessage) : Prop where
  applied : ∃ r ∈ reached, r.key = ack.sessionId ∧ ack.appliedSequence ≤ r.number
  finished : ack.finished = true →
    ∃ c, lastEnded ended ack.sessionId = some c ∧ ack.appliedSequence ≤ c.number

structure Grows (reached ended reached' ended' : List TextRevision) : Prop where
  reached : reached ⊆ reached'
  ended : ∀ id c, lastEnded ended id = some c →
    ∃ c', lastEnded ended' id = some c' ∧ c.number ≤ c'.number

structure PhoneInv (phone : SessionRun) (saved : List ParkedSession)
    (reached ended : List TextRevision) : Prop where
  history : phone.HistoryInv
  saved : ∀ parked ∈ saved, parked.state ∈ phone.states ∧ Confirmed reached parked.state
  session : Confirmed reached phone.session.state
  finished : phone.session.finished = true →
    ∃ id, phone.session.sessionId = some id ∧
      ∃ c, lastEnded ended id = some c ∧ phone.session.latestSequence ≤ c.number

section Phone

variable {phone phone' : SessionRun} {saved : List ParkedSession}
  {reached' ended' : List TextRevision}

theorem Confirmed.mono {st : InputSession.State} (h : Confirmed reached st)
    (hsub : reached ⊆ reached') : Confirmed reached' st := by
  intro id hid hpos
  obtain ⟨r, hr, hrest⟩ := h id hid hpos
  exact ⟨r, hsub hr, hrest⟩

theorem Covered.mono {ack : AckMessage} (h : Covered reached ended ack)
    (hgrows : Grows reached ended reached' ended') : Covered reached' ended' ack := by
  refine ⟨?_, fun hfinal => ?_⟩
  · obtain ⟨r, hr, hrest⟩ := h.applied
    exact ⟨r, hgrows.reached hr, hrest⟩
  · obtain ⟨c, hc, hle⟩ := h.finished hfinal
    obtain ⟨c', hc', hle'⟩ := hgrows.ended _ c hc
    exact ⟨c', hc', hle.trans hle'⟩

theorem PhoneInv.mono (h : PhoneInv phone saved reached ended)
    (hgrows : Grows reached ended reached' ended') : PhoneInv phone saved reached' ended' := by
  refine ⟨h.history, ?_, h.session.mono hgrows.reached, ?_⟩
  · intro parked hparked
    obtain ⟨hstate, hconfirmed⟩ := h.saved parked hparked
    exact ⟨hstate, hconfirmed.mono hgrows.reached⟩
  · intro hfinished
    obtain ⟨id, hid, c, hc, hle⟩ := h.finished hfinished
    obtain ⟨c', hc', hle'⟩ := hgrows.ended id c hc
    exact ⟨id, hid, c', hc', hle.trans hle'⟩

theorem step_states {op : InputSession.Op} (h : phone.step op = some phone') :
    phone.states ⊆ phone'.states := by
  unfold SessionRun.step at h
  split at h
  · obtain ⟨r, -, rfl⟩ := Option.map_eq_some_iff.mp h
    dsimp only
    split
    · exact List.subset_cons_self _ _
    · exact List.Subset.refl _
  · cases h

theorem state_states (h : phone.step .state = some phone') :
    phone.session.state ∈ phone'.states := by
  unfold SessionRun.step at h
  split at h
  · cases h
    exact List.mem_cons_self
  · cases h

/-- After a step the history is in order and the saved drafts are what they were; what is
left is the session. -/
theorem PhoneInv.of_step (h : PhoneInv phone saved reached ended) {op : InputSession.Op}
    (hlatest : phone.RestoresLatest op) (hstep : phone.step op = some phone')
    (hsession : Confirmed reached phone'.session.state)
    (hfinished : phone'.session.finished = true →
      ∃ id, phone'.session.sessionId = some id ∧
        ∃ c, lastEnded ended id = some c ∧ phone'.session.latestSequence ≤ c.number) :
    PhoneInv phone' saved reached ended := by
  refine ⟨SessionRun.step_historyInv h.history hlatest hstep, ?_, hsession, hfinished⟩
  intro parked hparked
  obtain ⟨hstate, hconfirmed⟩ := h.saved parked hparked
  exact ⟨step_states hstep hstate, hconfirmed⟩

theorem idle_acknowledged (h : phone.HistoryInv) (hid : phone.session.sessionId = none) :
    phone.session.acknowledgedSequence = 0 := by
  have hlatest : phone.session.latestSequence = 0 := h.session.numbered.mp hid
  have hbounds : 0 ≤ phone.session.acknowledgedSequence ∧
      phone.session.acknowledgedSequence ≤ phone.session.latestSequence := h.session.acknowledged
  omega

theorem PhoneInv.edit (h : PhoneInv phone saved reached ended) {op : InputSession.Op}
    (hop : isEdit op = true) (hstep : phone.step op = some phone') :
    PhoneInv phone' saved reached ended := by
  obtain ⟨-, s', ms, happly, hs', -⟩ := SessionRun.step_some hstep
  have hedited := apply_edited hop (idle_acknowledged h.history) happly
  rw [← hs'] at hedited
  have hlatest : phone.RestoresLatest op := by
    cases op with
    | restore st => cases hop
    | _ => trivial
  refine h.of_step hlatest hstep ?_ ?_
  · intro id hid hpos
    rcases hedited.acknowledged with hzero | ⟨hsame, hsession⟩
    · change 0 < phone'.session.acknowledgedSequence at hpos
      omega
    · have hid' : phone.session.sessionId = some id := hsession.symm.trans hid
      change 0 < phone'.session.acknowledgedSequence at hpos
      rw [hsame] at hpos
      obtain ⟨r, hr, hkey, hle⟩ := h.session id hid' hpos
      refine ⟨r, hr, hkey, ?_⟩
      change phone'.session.acknowledgedSequence ≤ r.number
      rw [hsame]
      exact hle
  · intro hfinished
    obtain ⟨hwas, hsame⟩ := hedited.finished hfinished
    have hended := h.finished hwas
    obtain ⟨id, hid, -⟩ := hended
    have hne : phone.session.sessionId ≠ none := by
      rw [hid]
      exact Option.some_ne_none id
    rw [hsame hne]
    exact h.finished hwas

theorem PhoneInv.save (h : PhoneInv phone saved reached ended) (remoteStarted : Bool)
    (hstep : phone.step .state = some phone') :
    PhoneInv phone' (⟨phone.session.state, remoteStarted⟩ :: saved) reached ended := by
  obtain ⟨-, s', ms, happly, hs', -⟩ := SessionRun.step_some hstep
  cases happly
  have hlatest : phone.RestoresLatest .state := trivial
  have hkept : PhoneInv phone' saved reached ended := by
    refine h.of_step hlatest hstep ?_ ?_
    · rw [hs']
      exact h.session
    · rw [hs']
      exact h.finished
  refine ⟨hkept.history, ?_, hkept.session, hkept.finished⟩
  intro parked hparked
  rcases List.mem_cons.mp hparked with rfl | hold
  · exact ⟨state_states hstep, h.session⟩
  · exact hkept.saved parked hold

theorem PhoneInv.restore (h : PhoneInv phone saved reached ended) {parked : ParkedSession}
    (hparked : parked ∈ saved)
    (hnewest : ∀ m ∈ phone.issued, some m.sessionId = parked.state.sessionId →
      m.sequence ≤ parked.state.latestSequence)
    (hstep : phone.step (.restore parked.state) = some phone') :
    PhoneInv phone' saved reached ended := by
  obtain ⟨hstate, hconfirmed⟩ := h.saved parked hparked
  have hlatest : phone.RestoresLatest (.restore parked.state) := ⟨hstate, hnewest⟩
  obtain ⟨-, s', ms, happly, hs', -⟩ := SessionRun.step_some hstep
  obtain ⟨restored, hrestore, heq⟩ := Option.map_eq_some_iff.mp happly
  cases heq
  refine h.of_step hlatest hstep ?_ ?_
  · rw [hs', (InputSession.restore_state hrestore).2]
    exact hconfirmed
  · intro hfinished
    rw [hs'] at hfinished
    unfold InputSession.restore at hrestore
    split at hrestore
    · cases hrestore
    · split at hrestore
      · cases hrestore
      · cases hrestore
        cases hfinished

/-- An acknowledgement counts as far as its text was reached. -/
theorem PhoneInv.acknowledge (h : PhoneInv phone saved reached ended) {ack : AckMessage}
    (hack : Covered reached ended ack) (hstep : phone.step (.acknowledge ack) = some phone') :
    PhoneInv phone' saved reached ended := by
  have hlatest : phone.RestoresLatest (.acknowledge ack) := trivial
  obtain ⟨-, s', ms, happly, hs', -⟩ := SessionRun.step_some hstep
  cases happly
  by_cases hignored : some ack.sessionId ≠ phone.session.sessionId ∨
      ack.appliedSequence < phone.session.acknowledgedSequence
  · have hsame : phone.session.acknowledge ack = phone.session := by
      unfold InputSession.acknowledge
      rw [if_pos hignored]
    rw [hsame] at hs'
    refine h.of_step hlatest hstep ?_ ?_
    · rw [hs']
      exact h.session
    · rw [hs']
      exact h.finished
  · have hid : some ack.sessionId = phone.session.sessionId := by
      by_contra hne
      exact hignored (Or.inl hne)
    have hfields : phone'.session.sessionId = phone.session.sessionId ∧
        phone'.session.latestSequence = phone.session.latestSequence ∧
        phone'.session.acknowledgedSequence =
          min ack.appliedSequence phone.session.latestSequence := by
      rw [hs']
      unfold InputSession.acknowledge
      rw [if_neg hignored]
      dsimp only
      split_ifs <;> exact ⟨rfl, rfl, rfl⟩
    obtain ⟨hsession, hnumber, hcounted⟩ := hfields
    refine h.of_step hlatest hstep ?_ ?_
    · intro id hid' hpos
      obtain ⟨r, hr, hkey, hle⟩ := hack.applied
      have hown : ack.sessionId = id :=
        Option.some.inj ((hid.trans hsession.symm).trans hid')
      refine ⟨r, hr, hkey.trans hown, ?_⟩
      change phone'.session.acknowledgedSequence ≤ r.number
      rw [hcounted]
      exact (min_le_left _ _).trans hle
    · intro hfinished
      rw [hnumber, hsession]
      by_cases hwas : phone.session.finished = true
      · exact h.finished hwas
      · -- it is finished by this acknowledgement, at the latest number
        have hfinal : ack.finished = true ∧
            min ack.appliedSequence phone.session.latestSequence =
              phone.session.latestSequence := by
          rw [hs'] at hfinished
          unfold InputSession.acknowledge at hfinished
          rw [if_neg hignored] at hfinished
          dsimp only at hfinished
          split_ifs at hfinished with h1 h2 h3
          · exact ⟨h2.1, h2.2.2⟩
          · exact absurd hfinished hwas
          · exact ⟨h3.1, h3.2.2⟩
          · exact absurd hfinished hwas
        obtain ⟨c, hc, hle⟩ := hack.finished hfinal.1
        refine ⟨ack.sessionId, hid.symm, c, hc, ?_⟩
        have hmin := hfinal.2
        omega

end Phone

section Texts

variable {phone phone' : SessionRun} {op : InputSession.Op}

theorem mem_texts {r : TextRevision} :
    r ∈ texts phone ↔ ∃ m ∈ phone.issued, m.revision = r := List.mem_map

theorem texts_oneValue (h : phone.HistoryInv) : OneValue (texts phone) := by
  intro a ha b hb hkey hnumber
  obtain ⟨m, hm, rfl⟩ := mem_texts.mp ha
  obtain ⟨m', hm', rfl⟩ := mem_texts.mp hb
  exact h.oneText m hm m' hm' hkey hnumber

theorem texts_step (hstep : phone.step op = some phone') {s' : InputSession}
    {ms : List SnapshotMessage} (happly : phone.session.apply op = some (s', ms)) :
    texts phone' = ms.map (·.revision) ++ texts phone := by
  obtain ⟨-, s'', ms', happly', -, hissued, -⟩ := SessionRun.step_some hstep
  cases happly.symm.trans happly'
  unfold texts
  rw [hissued, List.map_append]

/-- A snapshot that carries the session's number and text is a newest one. -/
theorem newest_of_carries (h : phone.HistoryInv) {m : SnapshotMessage}
    (hm : SessionRun.Carries phone.session m) : Newest (texts phone) m.revision := by
  obtain ⟨hid, hnumber, htext⟩ := hm
  constructor
  · obtain ⟨m', hm', hid', hnumber', htext'⟩ := h.session.issued m.sessionId hid
    refine mem_texts.mpr ⟨m', hm', ?_⟩
    unfold SnapshotMessage.revision
    rw [hid', hnumber', htext', hnumber, htext]
    rfl
  · intro r hr hkey
    obtain ⟨m', hm', rfl⟩ := mem_texts.mp hr
    have hle := h.newest m' hm' (by rw [hid]; exact congrArg some hkey)
    exact hle.trans hnumber.ge

/-- An edit that issues nothing new for the session it finds. -/
theorem edit_number {s s' : InputSession} {ms : List SnapshotMessage} (hop : isEdit op = true)
    (hpositive : s.sessionId ≠ none → s.latestSequence ≠ 0) (h : s.apply op = some (s', ms))
    {m : SnapshotMessage} (hm : m ∈ ms) (hid : s.sessionId = some m.sessionId) :
    (∃ text b newId, op = .onTextChanged text b newId ∧ text ≠ s.currentText) ∨
      m.sequence = s.latestSequence ∨ op.newId? = some m.sessionId := by
  have hne : s.sessionId ≠ none := by
    rw [hid]
    exact Option.some_ne_none _
  cases op with
  | onTextChanged text startIfNeeded newId =>
    refine Or.inl ⟨text, startIfNeeded, newId, rfl, ?_⟩
    rintro rfl
    obtain ⟨⟨u, o⟩, hu, heq⟩ := Option.map_eq_some_iff.mp h
    cases heq
    unfold InputSession.onTextChanged at hu
    split at hu
    · cases hu
    · rw [if_pos rfl] at hu
      cases hu
      cases hm
  | finish =>
    obtain ⟨⟨u, o⟩, hu, heq⟩ := Option.map_eq_some_iff.mp h
    cases heq
    rcases InputSession.finish_spec hu with ⟨hnone, -⟩ | ⟨id, -, rfl, rfl⟩
    · exact absurd hnone hne
    · obtain rfl := List.mem_singleton.mp hm
      right
      left
      exact if_neg (hpositive hne)
  | restartAtCurrentCursor newId =>
    right
    right
    rcases InputSession.restartAtCurrentCursor_spec h with ⟨rfl, -⟩ | ⟨start, u, rfl, hstart, hms⟩
    · cases hm
    · obtain ⟨hopened, -⟩ := SessionRun.snapshot_carries hstart
      rcases hms with ⟨rfl, -⟩ | ⟨finish, hfinish, rfl⟩
      · obtain rfl := List.mem_singleton.mp hm
        exact hopened
      · rcases List.mem_cons.mp hm with rfl | hm
        · exact hopened
        · obtain rfl := List.mem_singleton.mp hm
          rcases InputSession.finish_spec hfinish with ⟨hnone, -⟩ | ⟨id, hid', -, hfin⟩
          · cases hnone
          · cases hfin
            exact hid'
  | startLocalDraft attach newId =>
    cases h
    rcases InputSession.startLocalDraft_spec s attach newId with hsame | ⟨hnone, -⟩
    · rw [hsame] at hm
      cases hm
    · exact absurd hnone hne
  | resetForReplacement text =>
    cases h
    cases hm
  | replaceLocalDraft text =>
    obtain ⟨u, -, heq⟩ := Option.map_eq_some_iff.mp h
    cases heq
    cases hm
  | reset =>
    cases h
    cases hm
  | acknowledge ack => cases hop
  | state => cases hop
  | restore st => cases hop
  | recoverySnapshot => cases hop

/-- What an operation issues carries the session after it. -/
theorem issued_carries (h : phone.HistoryInv) {s' : InputSession} {ms : List SnapshotMessage}
    (happly : phone.session.apply op = some (s', ms)) : ∀ m ∈ ms, SessionRun.Carries s' m := by
  intro m hm
  have heffect := SessionRun.apply_effect h.session.acknowledged h.session.numbered happly
  cases heffect with
  | keeps _ _ _ _ _ hcarries => exact hcarries m hm
  | opens _ _ _ _ _ _ _ hcarries => exact hcarries m hm
  | advances _ _ _ _ _ hcarries =>
    obtain rfl := List.mem_singleton.mp hm
    exact hcarries
  | closes _ _ _ _ => cases hm
  | restores _ _ => cases hm

/-- What is kept back stays newest, unless the text of its session changes. -/
theorem kept_newest (h : phone.HistoryInv) (hop : isEdit op = true)
    (hstep : phone.step op = some phone') {p : SnapshotMessage}
    (hp : Newest (texts phone) p.revision)
    (hsame : ∀ text b newId, op = .onTextChanged text b newId →
      some p.sessionId = phone.session.sessionId → text = phone.session.currentText) :
    Newest (texts phone') p.revision := by
  obtain ⟨hfresh, s', ms, happly, -⟩ := SessionRun.step_some hstep
  have htexts := texts_step hstep happly
  have hpositive : phone.session.sessionId ≠ none → phone.session.latestSequence ≠ 0 :=
    fun hne hzero => hne (h.session.numbered.mpr hzero)
  obtain ⟨p', hp', hrevision⟩ := mem_texts.mp hp.1
  have hused : p.sessionId ∈ phone.used := by
    have hkey : p'.sessionId = p.sessionId := congrArg Revision.key hrevision
    rw [← hkey]
    exact h.used p' hp'
  have hnotfresh : op.newId? ≠ some p.sessionId := fun hnew => (hfresh _ hnew).1 hused
  rw [htexts]
  refine ⟨List.mem_append_right _ hp.1, ?_⟩
  intro r hr hkey
  rcases List.mem_append.mp hr with hnew | hold
  · obtain ⟨m, hm, rfl⟩ := List.mem_map.mp hnew
    have hkey : m.sessionId = p.sessionId := hkey
    by_cases hid : phone.session.sessionId = some m.sessionId
    · rcases edit_number hop hpositive happly hm hid with
        ⟨text, b, newId, rfl, hchanged⟩ | hnumber | hnewId
      · exact absurd (hsame text b newId rfl (by rw [hid, hkey])) hchanged
      · -- the session's own number has been issued before
        obtain ⟨m', hm', hid', hnumber', -⟩ := h.session.issued m.sessionId hid
        have hle := hp.2 m'.revision (mem_texts.mpr ⟨m', hm', rfl⟩) (hid'.trans hkey)
        have hsequence : m.sequence = m'.sequence := hnumber.trans hnumber'.symm
        exact hsequence.le.trans hle
      · rw [hkey] at hnewId
        exact absurd hnewId hnotfresh
    · -- a session that has just been opened has no older snapshot
      have hrestore : op.isRestore = false := by
        cases op with
        | restore st => cases hop
        | _ => rfl
      obtain ⟨hcarried, -⟩ := issued_carries h happly m hm
      rcases InputSession.apply_sessionId hrestore happly with hids | hnone | ⟨newId, hnewId, hids⟩
      · exact absurd (hids.symm.trans hcarried) hid
      · rw [hnone] at hcarried
        cases hcarried
      · have hown : newId = p.sessionId :=
          (Option.some.inj (hids.symm.trans hcarried)).trans hkey
        rw [hown] at hnewId
        exact absurd hnewId hnotfresh
  · exact hp.2 r hold hkey

end Texts

end SyncRun

end FlowType
