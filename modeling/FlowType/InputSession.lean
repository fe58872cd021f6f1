import FlowType.Protocol

/-! The phone's `InputSession`. A failed `check` or `require` is `none`; an
operation that may create a session takes the identifier that the session id
factory returns. -/
namespace FlowType

structure InputSession where
  phoneId : String
  sessionId : Option String := none
  currentText : String := ""
  latestSequence : Int := 0
  acknowledgedSequence : Int := 0
  finishing : Bool := false
  finished : Bool := false
  replacementSessionId : Option String := none
  attachExistingAtCursor : Bool := false
  deriving DecidableEq, Repr

namespace InputSession

/-- `InputSession.State`, the part of a session that is persisted. -/
structure State where
  sessionId : Option String
  text : String
  latestSequence : Int
  acknowledgedSequence : Int
  finishing : Bool
  replacementSessionId : Option String := none
  attachExistingAtCursor : Bool := false
  deriving DecidableEq, Repr

def snapshot (s : InputSession) (type : SnapshotType) : Option SnapshotMessage :=
  s.sessionId.map fun id =>
    { type := type, phoneId := s.phoneId, sessionId := id, sequence := s.latestSequence
      fullText := s.currentText, replacesSessionId := s.replacementSessionId
      attachExisting := s.attachExistingAtCursor }

def onTextChanged (s : InputSession) (text : String) (startIfNeeded : Bool) (newId : String) :
    Option (InputSession × Option SnapshotMessage) :=
  if s.finishing ∨ s.finished then none
  else if text = s.currentText then some (s, none)
  else if s.sessionId = none ∧ (text = "" ∨ startIfNeeded = false) then
    some ({ s with currentText := text }, none)
  else
    let type : SnapshotType := if s.sessionId = none then .start else .update
    let s' := if s.sessionId = none then
      { s with sessionId := some newId, attachExistingAtCursor := false } else s
    let s'' := { s' with currentText := text, latestSequence := s'.latestSequence + 1 }
    some (s'', s''.snapshot type)

/-- `finish` writes its message out by hand: the two binding fields keep their
defaults. -/
def finish (s : InputSession) : Option (InputSession × Option SnapshotMessage) :=
  match s.sessionId with
  | none => some (s, none)
  | some id =>
    if s.finishing ∨ s.finished then none
    else
      let s' := { s with
        finishing := true
        latestSequence := if s.latestSequence = 0 then 1 else s.latestSequence }
      some (s', some
        { type := .finish, phoneId := s'.phoneId, sessionId := id
          sequence := s'.latestSequence, fullText := s'.currentText })

def reset (s : InputSession) : InputSession := { phoneId := s.phoneId }

def resetForReplacement (s : InputSession) (text : String) : InputSession :=
  { s.reset with
    replacementSessionId := s.sessionId <|> s.replacementSessionId
    currentText := text }

def replaceLocalDraft (s : InputSession) (text : String) : Option InputSession :=
  if s.sessionId ≠ none ∨ s.finishing ∨ s.finished then none
  else some { s with currentText := text }

def startLocalDraft (s : InputSession) (attachExistingAtCursor : Bool) (newId : String) :
    InputSession × Option SnapshotMessage :=
  if s.sessionId ≠ none ∨ s.currentText = "" then (s, none)
  else
    let s' := { s with
      sessionId := some newId
      attachExistingAtCursor := attachExistingAtCursor
      latestSequence := 1 }
    (s', s'.snapshot .start)

def restartAtCurrentCursor (s : InputSession) (newId : String) :
    Option (InputSession × List SnapshotMessage) :=
  if s.sessionId = none ∨ s.finished then none
  else
    let r := (s.resetForReplacement s.currentText).startLocalDraft true newId
    match r.2 with
    | none => some (r.1, [])
    | some start =>
      if s.finishing then
        match r.1.finish with
        | some (s', some finish) => some (s', [start, finish])
        | _ => none
      else some (r.1, [start])

def acknowledge (s : InputSession) (ack : AckMessage) : InputSession :=
  if some ack.sessionId ≠ s.sessionId ∨ ack.appliedSequence < s.acknowledgedSequence then s
  else
    let s' := { s with acknowledgedSequence := min ack.appliedSequence s.latestSequence }
    let s'' := if 0 < s'.acknowledgedSequence then
      { s' with replacementSessionId := none, attachExistingAtCursor := false } else s'
    if ack.finished ∧ s''.finishing ∧ s''.acknowledgedSequence = s''.latestSequence then
      { s'' with finished := true } else s''

def state (s : InputSession) : State where
  sessionId := s.sessionId
  text := s.currentText
  latestSequence := s.latestSequence
  acknowledgedSequence := s.acknowledgedSequence
  finishing := s.finishing
  replacementSessionId := s.replacementSessionId
  attachExistingAtCursor := s.attachExistingAtCursor

def restore (s : InputSession) (st : State) : Option InputSession :=
  if st.latestSequence < st.acknowledgedSequence ∨ st.acknowledgedSequence < 0 then none
  else if ¬ (st.sessionId = none ↔ st.latestSequence = 0) then none
  else some
    { phoneId := s.phoneId
      sessionId := st.sessionId
      currentText := st.text
      latestSequence := st.latestSequence
      acknowledgedSequence := st.acknowledgedSequence
      finishing := st.finishing
      finished := false
      replacementSessionId := st.replacementSessionId
      attachExistingAtCursor := st.attachExistingAtCursor }

def recoverySnapshot (s : InputSession) : Option SnapshotMessage :=
  s.snapshot (if s.finishing then .finish else .update)

/-- A START opens the session `newId`; an UPDATE belongs to the session there was. -/
theorem onTextChanged_spec {s s' : InputSession} {text newId : String} {b : Bool}
    {o : Option SnapshotMessage} (h : s.onTextChanged text b newId = some (s', o)) :
    (o = none ∧ s' = { s with currentText := text } ∧
      (s.sessionId ≠ none → text = s.currentText)) ∨
    (s.sessionId = none ∧ o = s'.snapshot .start ∧ s' = { s with
      sessionId := some newId, attachExistingAtCursor := false, currentText := text
      latestSequence := s.latestSequence + 1 }) ∨
    (s.sessionId ≠ none ∧ o = s'.snapshot .update ∧
      s' = { s with currentText := text, latestSequence := s.latestSequence + 1 }) := by
  unfold onTextChanged at h
  dsimp only at h
  split at h
  · simp at h
  · split at h
    · rename_i ht
      obtain ⟨rfl, rfl⟩ : s = s' ∧ none = o := by simpa using h
      exact Or.inl ⟨rfl, by rw [ht], fun _ => ht⟩
    · split at h
      · rename_i hnone
        obtain ⟨rfl, rfl⟩ : _ = s' ∧ none = o := by simpa using h
        exact Or.inl ⟨rfl, rfl, fun hid => absurd hnone.1 hid⟩
      · by_cases hid : s.sessionId = none
        · simp only [hid, if_true, Option.some.injEq, Prod.mk.injEq] at h
          obtain ⟨rfl, rfl⟩ := h
          exact Or.inr (Or.inl ⟨hid, rfl, rfl⟩)
        · simp only [hid, if_false, Option.some.injEq, Prod.mk.injEq] at h
          obtain ⟨rfl, rfl⟩ := h
          exact Or.inr (Or.inr ⟨hid, rfl, rfl⟩)

theorem finish_spec {s s' : InputSession} {o : Option SnapshotMessage}
    (h : s.finish = some (s', o)) :
    (s.sessionId = none ∧ o = none ∧ s' = s) ∨
    ∃ id, s.sessionId = some id ∧
      s' = { s with
        finishing := true
        latestSequence := if s.latestSequence = 0 then 1 else s.latestSequence } ∧
      o = some { type := .finish, phoneId := s'.phoneId, sessionId := id
                 sequence := s'.latestSequence, fullText := s'.currentText } := by
  unfold finish at h
  split at h
  · rename_i hid
    obtain ⟨rfl, rfl⟩ : s = s' ∧ none = o := by simpa using h
    exact Or.inl ⟨hid, rfl, rfl⟩
  · rename_i id hid
    split at h
    · simp at h
    · simp only [Option.some.injEq, Prod.mk.injEq] at h
      obtain ⟨rfl, rfl⟩ := h
      exact Or.inr ⟨id, hid, rfl, rfl⟩

theorem startLocalDraft_spec (s : InputSession) (attach : Bool) (newId : String) :
    s.startLocalDraft attach newId = (s, none) ∨
    (s.sessionId = none ∧ s.currentText ≠ "" ∧
      (s.startLocalDraft attach newId).1 = { s with
        sessionId := some newId, attachExistingAtCursor := attach, latestSequence := 1 } ∧
      (s.startLocalDraft attach newId).2 = (s.startLocalDraft attach newId).1.snapshot .start) := by
  unfold startLocalDraft
  split
  · exact Or.inl rfl
  · rename_i hg
    push Not at hg
    exact Or.inr ⟨hg.1, hg.2, rfl, rfl⟩

/-- A restart opens a new session that replaces the old one and attaches to its
text; a finishing session is finished again. -/
theorem restartAtCurrentCursor_spec {s s' : InputSession} {newId : String}
    {ms : List SnapshotMessage} (h : s.restartAtCurrentCursor newId = some (s', ms)) :
    (ms = [] ∧ s' = s.resetForReplacement s.currentText) ∨
    ∃ start s₁, s₁ = { s.resetForReplacement s.currentText with
        sessionId := some newId, attachExistingAtCursor := true, latestSequence := 1 } ∧
      s₁.snapshot .start = some start ∧
      ((ms = [start] ∧ s' = s₁) ∨
        ∃ finish, s₁.finish = some (s', some finish) ∧ ms = [start, finish]) := by
  unfold restartAtCurrentCursor at h
  split at h
  · simp at h
  · dsimp only at h
    rcases startLocalDraft_spec (s.resetForReplacement s.currentText) true newId with hd | hd
    · rw [hd] at h
      obtain ⟨rfl, rfl⟩ : _ = s' ∧ [] = ms := by simpa using h
      exact Or.inl ⟨rfl, rfl⟩
    · obtain ⟨-, -, h1, h2⟩ := hd
      rw [h2] at h
      split at h
      · rename_i hn
        simp [h1, snapshot] at hn
      · rename_i start hstart
        refine Or.inr ⟨start, _, h1.symm ▸ rfl, h1 ▸ hstart, ?_⟩
        split at h
        · split at h
          · rename_i s₂ finish hf
            obtain ⟨rfl, rfl⟩ : s₂ = s' ∧ [start, finish] = ms := by simpa using h
            exact Or.inr ⟨finish, h1 ▸ hf, rfl⟩
          · simp at h
        · obtain ⟨rfl, rfl⟩ : _ = s' ∧ [start] = ms := by simpa using h
          exact Or.inl ⟨rfl, h1⟩

/-- The public operations, with what each of them is given; `newId` is what the
session id factory returns if the operation asks it. -/
inductive Op
  | onTextChanged (text : String) (startIfNeeded : Bool) (newId : String)
  | finish
  | restartAtCurrentCursor (newId : String)
  | resetForReplacement (text : String)
  | replaceLocalDraft (text : String)
  | startLocalDraft (attachExistingAtCursor : Bool) (newId : String)
  | acknowledge (ack : AckMessage)
  | reset
  | state
  | restore (state : State)
  | recoverySnapshot
  deriving DecidableEq, Repr

/-- One operation with the snapshots it returns; `none` is a failed check. -/
def apply (s : InputSession) : Op → Option (InputSession × List SnapshotMessage)
  | .onTextChanged text startIfNeeded newId =>
    (s.onTextChanged text startIfNeeded newId).map fun r => (r.1, r.2.toList)
  | .finish => s.finish.map fun r => (r.1, r.2.toList)
  | .restartAtCurrentCursor newId => s.restartAtCurrentCursor newId
  | .resetForReplacement text => some (s.resetForReplacement text, [])
  | .replaceLocalDraft text => (s.replaceLocalDraft text).map (·, [])
  | .startLocalDraft attachExistingAtCursor newId =>
    some ((s.startLocalDraft attachExistingAtCursor newId).1,
      (s.startLocalDraft attachExistingAtCursor newId).2.toList)
  | .acknowledge ack => some (s.acknowledge ack, [])
  | .reset => some (s.reset, [])
  | .state => some (s, [])
  | .restore state => (s.restore state).map (·, [])
  | .recoverySnapshot => some (s, s.recoverySnapshot.toList)

def Op.newId? : Op → Option String
  | .onTextChanged _ _ newId => some newId
  | .restartAtCurrentCursor newId => some newId
  | .startLocalDraft _ newId => some newId
  | _ => none

def Op.isRestore : Op → Bool
  | .restore _ => true
  | _ => false

/-- An operation other than a restore keeps the session, ends it or opens the one
that the factory names. -/
theorem apply_sessionId {s s' : InputSession} {op : Op} {ms : List SnapshotMessage}
    (hop : op.isRestore = false) (h : s.apply op = some (s', ms)) :
    s'.sessionId = s.sessionId ∨ s'.sessionId = none ∨
      ∃ newId, op.newId? = some newId ∧ s'.sessionId = some newId := by
  cases op with
  | onTextChanged text startIfNeeded newId =>
    obtain ⟨⟨s₁, o⟩, hr, heq⟩ := Option.map_eq_some_iff.mp h
    obtain ⟨rfl, rfl⟩ := Prod.mk.inj heq
    rcases onTextChanged_spec hr with ⟨-, hs', -⟩ | ⟨-, -, hs'⟩ | ⟨-, -, hs'⟩
    · exact Or.inl (by rw [hs'])
    · exact Or.inr (Or.inr ⟨newId, rfl, by rw [hs']⟩)
    · exact Or.inl (by rw [hs'])
  | finish =>
    obtain ⟨⟨s₁, o⟩, hr, heq⟩ := Option.map_eq_some_iff.mp h
    obtain ⟨rfl, rfl⟩ := Prod.mk.inj heq
    rcases finish_spec hr with ⟨-, -, hs'⟩ | ⟨id, -, hs', -⟩ <;> exact Or.inl (by rw [hs'])
  | restartAtCurrentCursor newId =>
    rcases restartAtCurrentCursor_spec h with ⟨-, rfl⟩ | ⟨start, s₁, rfl, -, hms⟩
    · exact Or.inr (Or.inl rfl)
    · refine Or.inr (Or.inr ⟨newId, rfl, ?_⟩)
      rcases hms with ⟨-, rfl⟩ | ⟨finish, hf, -⟩
      · rfl
      · rcases finish_spec hf with ⟨-, -, hs'⟩ | ⟨id, -, hs', -⟩ <;> rw [hs']
  | resetForReplacement text =>
    obtain ⟨rfl, -⟩ := Prod.mk.inj (Option.some.inj h)
    exact Or.inr (Or.inl rfl)
  | replaceLocalDraft text =>
    obtain ⟨s₁, hr, heq⟩ := Option.map_eq_some_iff.mp h
    obtain ⟨rfl, -⟩ := Prod.mk.inj heq
    unfold replaceLocalDraft at hr
    split at hr
    · simp at hr
    · obtain rfl : _ = s₁ := by simpa using hr
      exact Or.inl rfl
  | startLocalDraft attach newId =>
    obtain ⟨rfl, -⟩ := Prod.mk.inj (Option.some.inj h)
    rcases startLocalDraft_spec s attach newId with hs | ⟨-, -, hs, -⟩
    · exact Or.inl (by rw [hs])
    · exact Or.inr (Or.inr ⟨newId, rfl, by rw [hs]⟩)
  | acknowledge ack =>
    obtain ⟨rfl, -⟩ := Prod.mk.inj (Option.some.inj h)
    refine Or.inl ?_
    unfold acknowledge
    dsimp only
    split
    · rfl
    · split_ifs <;> rfl
  | reset =>
    obtain ⟨rfl, -⟩ := Prod.mk.inj (Option.some.inj h)
    exact Or.inr (Or.inl rfl)
  | restore st => simp [Op.isRestore] at hop
  | _ =>
    obtain ⟨rfl, -⟩ := Prod.mk.inj (Option.some.inj h)
    exact Or.inl rfl

/-- A restored session has exactly the restored state. -/
theorem restore_state {s s' : InputSession} {st : State} (h : s.restore st = some s') :
    s'.phoneId = s.phoneId ∧ s'.state = st := by
  unfold restore at h
  split at h
  · simp at h
  · split at h
    · simp at h
    · obtain rfl : _ = s' := by simpa using h
      exact ⟨rfl, rfl⟩

end InputSession

end FlowType
