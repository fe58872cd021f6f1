import Mathlib.Data.String.Basic

/-! The text service of a target thread: the commands of the injector, the
composition it keeps and the answers of its `Controller`. What Windows decides
while a command runs (focus, edit sink, edit session) is given with the command. -/
namespace FlowType

inductive TipCommand
  | begin (sessionId : String) (sequence : Int) (fullText : String) (attachExisting : Bool)
  | update (sessionId : String) (sequence : Int) (fullText : String)
  | finish (sessionId : String) (sequence : Int)
  | cancel (sessionId : String)
  | query (sessionId : String)
  deriving DecidableEq, Repr

inductive TipResponse
  | begun (sessionId : String)
  | applied (sessionId : String) (sequence : Int)
  | finished (sessionId : String) (sequence : Int)
  | cancelled (sessionId : String)
  | noFocus
  | sessionMismatch
  | sequenceConflict
  | compositionTerminated
  | sessionActive (sessionId : String) (sequence : Int)
  | rebindRejected
  | editRejected
  deriving DecidableEq, Repr

/-- `CompositionState`: the session, what was last applied for it, and whether
somebody else has edited the target. -/
structure Composition where
  sessionId : Option String := none
  sequence : Int := 0
  text : String := ""
  targetModified : Bool := false
  deriving DecidableEq, Repr

/-- The outcome of an edit session. A failed one may have written its text
before the failure and may have found the target modified. -/
inductive EditResult
  | done
  | failed (wrote modified : Bool)
  deriving DecidableEq, Repr

structure EditEnv where
  /-- The thread has the focus and a document. -/
  focused : Bool
  /-- The focused context is the one of the session. -/
  sameContext : Bool
  /-- The edit sink of a new session could be advised. -/
  advised : Bool
  /-- An attaching edit found the text right before the caret. -/
  suffixFound : Bool
  edit : EditResult
  deriving DecidableEq, Repr

structure TipWrite where
  sessionId : String
  text : String
  inserted : Bool
  deriving DecidableEq, Repr

structure TipResult where
  composition : Composition
  response : TipResponse
  write : Option TipWrite := none
  deriving DecidableEq, Repr

namespace Composition

def begin (c : Composition) (env : EditEnv) (sessionId : String) (sequence : Int)
    (fullText : String) (attachExisting : Bool) : TipResult :=
  if c.sessionId = some sessionId then
    if c.targetModified then ⟨c, .compositionTerminated, none⟩ else ⟨c, .begun sessionId, none⟩
  else if c.sessionId ≠ none then ⟨c, .rebindRejected, none⟩
  else if env.focused = false then ⟨c, .noFocus, none⟩
  else if env.advised = false then ⟨{}, .editRejected, none⟩
  else
    let write : TipWrite := ⟨sessionId, fullText, !(attachExisting && env.suffixFound)⟩
    match env.edit with
    | .done => ⟨⟨some sessionId, sequence, fullText, false⟩, .begun sessionId, some write⟩
    | .failed wrote _ => ⟨{}, .editRejected, if wrote then some write else none⟩

def update (c : Composition) (env : EditEnv) (sessionId : String) (sequence : Int)
    (fullText : String) : TipResult :=
  if c.sessionId ≠ some sessionId then ⟨c, .sessionMismatch, none⟩
  else if c.targetModified then ⟨c, .compositionTerminated, none⟩
  else if sequence < c.sequence then ⟨c, .applied sessionId c.sequence, none⟩
  else if sequence = c.sequence then
    if c.text = fullText then ⟨c, .applied sessionId sequence, none⟩
    else ⟨c, .sequenceConflict, none⟩
  else if env.focused = false ∨ env.sameContext = false then ⟨c, .noFocus, none⟩
  else
    match env.edit with
    | .done => ⟨{ c with sequence := sequence, text := fullText }, .applied sessionId sequence,
        some ⟨sessionId, fullText, false⟩⟩
    | .failed wrote modified => ⟨{ c with targetModified := modified },
        if modified then .compositionTerminated else .editRejected,
        if wrote then some ⟨sessionId, fullText, false⟩ else none⟩

def finish (c : Composition) (env : EditEnv) (sessionId : String) (sequence : Int) : TipResult :=
  if c.sessionId ≠ some sessionId ∨ c.sequence ≠ sequence then ⟨c, .sessionMismatch, none⟩
  else if c.targetModified then ⟨c, .compositionTerminated, none⟩
  else
    match env.edit with
    | .done => ⟨{}, .finished sessionId sequence, none⟩
    | .failed _ _ => ⟨c, .editRejected, none⟩

/-- Cancelling ignores the result of its edit: the text stays, the session goes. -/
def cancel (c : Composition) (sessionId : String) : TipResult :=
  if c.sessionId ≠ some sessionId then ⟨c, .sessionMismatch, none⟩
  else ⟨{}, .cancelled sessionId, none⟩

def query (c : Composition) (sessionId : String) : TipResult :=
  if c.sessionId = some sessionId then
    if c.targetModified then ⟨c, .compositionTerminated, none⟩
    else ⟨c, .sessionActive sessionId c.sequence, none⟩
  else ⟨c, .sessionMismatch, none⟩

def handleCommand (c : Composition) (env : EditEnv) : TipCommand → TipResult
  | .begin sessionId sequence fullText attachExisting =>
    c.begin env sessionId sequence fullText attachExisting
  | .update sessionId sequence fullText => c.update env sessionId sequence fullText
  | .finish sessionId sequence => c.finish env sessionId sequence
  | .cancel sessionId => c.cancel sessionId
  | .query sessionId => c.query sessionId

/-- A command keeps the session, ends it, or is the Begin that opens it. -/
theorem handleCommand_session (c : Composition) (env : EditEnv) (command : TipCommand) :
    (c.handleCommand env command).composition.sessionId = c.sessionId ∨
    (c.handleCommand env command).composition.sessionId = none ∨
    ∃ id sequence text attach, command = .begin id sequence text attach ∧
      (c.sessionId = none ∧ env.focused = true ∧ env.advised = true ∧ env.edit = .done) ∧
      (c.handleCommand env command).composition = ⟨some id, sequence, text, false⟩ ∧
      (c.handleCommand env command).response = .begun id := by
  cases command with
  | begin id sequence text attach =>
    simp only [handleCommand, begin]
    split_ifs with h1 h2 h3 h4 h5
    · exact Or.inl rfl
    · exact Or.inl rfl
    · exact Or.inl rfl
    · exact Or.inl rfl
    · exact Or.inr (Or.inl rfl)
    · have hopen : c.sessionId = none := by simpa using h3
      cases he : env.edit with
      | done => exact Or.inr (Or.inr ⟨id, sequence, text, attach, rfl,
          ⟨hopen, by simpa using h4, by simpa using h5, rfl⟩, rfl, rfl⟩)
      | failed wrote modified => exact Or.inr (Or.inl rfl)
  | update id sequence text =>
    refine Or.inl ?_
    simp only [handleCommand, update]
    split_ifs
    · rfl
    · rfl
    · rfl
    · rfl
    · rfl
    · rfl
    · cases env.edit <;> rfl
  | finish id sequence =>
    simp only [handleCommand, finish]
    split_ifs
    · exact Or.inl rfl
    · exact Or.inl rfl
    · cases env.edit with
      | done => exact Or.inr (Or.inl rfl)
      | failed wrote modified => exact Or.inl rfl
  | cancel id =>
    simp only [handleCommand, cancel]
    split_ifs
    · exact Or.inl rfl
    · exact Or.inr (Or.inl rfl)
  | query id =>
    refine Or.inl ?_
    simp only [handleCommand, query]
    split_ifs <;> rfl

theorem cancel_sessionId (c : Composition) (id : String) :
    (c.cancel id).composition.sessionId ≠ some id := by
  unfold cancel
  split_ifs with h
  · exact h
  · simp

theorem handleCommand_finished {c : Composition} {env : EditEnv} {command : TipCommand}
    {id : String} {n : Int} (h : (c.handleCommand env command).response = .finished id n) :
    command = .finish id n ∧ c.sessionId = some id ∧ c.sequence = n ∧
      (c.handleCommand env command).composition = {} := by
  cases command with
  | begin id sequence text attach =>
    simp only [handleCommand, begin] at h
    split_ifs at h
    cases he : env.edit <;> simp [he] at h
  | update id sequence text =>
    simp only [handleCommand, update] at h
    split_ifs at h
    cases he : env.edit with
    | done => simp [he] at h
    | failed wrote modified =>
      simp only [he] at h
      split_ifs at h
  | finish id' sequence =>
    simp only [handleCommand, finish] at h ⊢
    split_ifs at h ⊢ with h1 h2
    push Not at h1
    cases he : env.edit with
    | done =>
      simp only [he, TipResponse.finished.injEq] at h
      obtain ⟨rfl, rfl⟩ := h
      exact ⟨rfl, h1.1, h1.2, rfl⟩
    | failed wrote modified => simp [he] at h
  | cancel id =>
    simp only [handleCommand, cancel] at h
    split_ifs at h
  | query id =>
    simp only [handleCommand, query] at h
    split_ifs at h

end Composition

end FlowType
