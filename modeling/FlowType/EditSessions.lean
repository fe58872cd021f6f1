import FlowType.TextService

/-! The edit sessions of the text service: what each of them may do to the state of
the composition and to its document, and what a request of one does. -/
namespace FlowType

namespace Document

/-- More is read than the expected text has, so an equal read is the whole range. -/
theorem read_eq_of_take {d : Document} {span : Span} {expected : List Nat}
    (h : (d.read span).take (expected.length + 1) = expected) : d.read span = expected := by
  have hlen := congrArg List.length h
  rw [List.length_take] at hlen
  have hshort : (d.read span).length ≤ expected.length + 1 := by omega
  rwa [List.take_of_length_le hshort] at h

end Document

namespace CompositionState

/-- The range has the text last applied, and the selection is the empty caret at its
end. -/
structure Expected (c : CompositionState) (d : Document) (range : Span) : Prop where
  text : d.read range = encodeUtf16 c.text
  caret : d.selection = ⟨range.stop, range.stop⟩

theorem matchesExpectedRange_iff (c : CompositionState) (d : Document) (range : Span) :
    c.matchesExpectedRange d range = true ↔ c.Expected d range := by
  simp only [matchesExpectedRange, Bool.and_eq_true, decide_eq_true_eq]
  constructor
  · intro h
    have hstop : d.selection.stop = range.stop := h.1.2.symm.trans h.2
    refine ⟨Document.read_eq_of_take h.1.1, ?_⟩
    cases hs : d.selection with
    | mk start stop =>
      rw [hs] at h hstop
      rw [show start = range.stop from h.2, show stop = range.stop from hstop]
  · intro h
    have htake : (encodeUtf16 c.text).take ((encodeUtf16 c.text).length + 1) =
        encodeUtf16 c.text := List.take_of_length_le (Nat.le_succ _)
    rw [h.text, h.caret]
    exact ⟨⟨htake, rfl⟩, rfl⟩

theorem matchesExpectedEditState_some {c : CompositionState} {d : Document} {env : TsfEnv}
    (h : c.matchesExpectedEditState d env = some true) :
    ∃ range, c.range = some range ∧ c.Expected d range := by
  unfold matchesExpectedEditState at h
  split_ifs at h
  obtain ⟨range, hrange, hmatch⟩ := Option.map_eq_some_iff.mp h
  exact ⟨range, hrange, (matchesExpectedRange_iff c d range).mp hmatch⟩

def Settled (c : CompositionState) : Prop :=
  c.terminated = true → c.composition = false ∧ c.editSink = none

/-- What an edit session or a notification leaves of a session: the session itself
and what was last applied, and a divergence that was found. -/
structure Follows (c c' : CompositionState) : Prop where
  sessionId : c'.sessionId = c.sessionId
  sequence : c'.sequence = c.sequence
  text : c'.text = c.text
  context : c'.context = c.context
  modified : c.targetModified = true → c'.targetModified = true
  settled : c.Settled → c'.Settled

namespace Follows

theorem refl (c : CompositionState) : Follows c c :=
  ⟨rfl, rfl, rfl, rfl, id, id⟩

theorem trans {a b c : CompositionState} (h₁ : Follows a b) (h₂ : Follows b c) :
    Follows a c where
  sessionId := h₂.sessionId.trans h₁.sessionId
  sequence := h₂.sequence.trans h₁.sequence
  text := h₂.text.trans h₁.text
  context := h₂.context.trans h₁.context
  modified h := h₂.modified (h₁.modified h)
  settled h := h₂.settled (h₁.settled h)

theorem applying (c : CompositionState) (flag : Bool) :
    Follows c { c with applyingRemoteEdit := flag } :=
  ⟨rfl, rfl, rfl, rfl, id, id⟩

theorem moved (c : CompositionState) (range : Option Span) :
    Follows c { c with range := range } :=
  ⟨rfl, rfl, rfl, rfl, id, id⟩

theorem marked (c : CompositionState) : Follows c c.markExternalEdit :=
  ⟨rfl, rfl, rfl, rfl, fun _ => rfl, id⟩

theorem ended (c : CompositionState) : Follows c c.markTerminated :=
  ⟨rfl, rfl, rfl, rfl, id, fun _ _ => ⟨rfl, rfl⟩⟩

theorem compositionTerminated (c : CompositionState) : Follows c c.compositionTerminated := by
  unfold CompositionState.compositionTerminated
  split_ifs
  · exact ended c
  · exact (marked c).trans (ended _)

theorem notified (c : CompositionState) (ends : Bool) : Follows c (c.notified ends) := by
  unfold CompositionState.notified
  split_ifs
  · exact compositionTerminated c
  · exact refl c

theorem started (c : CompositionState) (composition : Bool) (range : Option Span) :
    Follows c { c with composition := composition, range := range, terminated := false } :=
  ⟨rfl, rfl, rfl, rfl, id, fun _ h => by cases h⟩

theorem beginEdit (c : CompositionState) (d : Document) (env : TsfEnv) (text : String)
    (attachExisting : Bool) : Follows c (c.beginEdit d env text attachExisting).state := by
  -- the flag is cleared before the composition is started, so whatever follows is settled
  have h₁ : Follows c ({ c with terminated := false }.notified env.startEnds) :=
    (started c c.composition c.range).trans (notified _ _)
  unfold CompositionState.beginEdit
  dsimp only
  split_ifs
  · exact refl c
  · exact h₁
  · exact h₁.trans (started _ _ _)
  · exact h₁.trans (started _ _ _)
  · exact h₁.trans (started _ _ _)
  · exact (h₁.trans (started _ _ _)).trans (notified _ _)
  · exact (h₁.trans (started _ _ _)).trans (notified _ _)

theorem setText (c : CompositionState) (d : Document) (env : TsfEnv) (range : Span)
    (text : String) : Follows c (c.setText d env range text).state := by
  unfold CompositionState.setText
  dsimp only
  split_ifs
  · exact refl c
  all_goals exact (moved c _).trans (notified _ _)

theorem updateEdit (c : CompositionState) (d : Document) (env : TsfEnv) (text : String) :
    Follows c (c.updateEdit d env text).state := by
  unfold CompositionState.updateEdit
  split
  · exact refl c
  · split
    · exact (marked c).trans (notified _ _)
    · exact setText c d env _ text
    · exact refl c

theorem finishEdit (c : CompositionState) (d : Document) (env : TsfEnv) (forced : Bool) :
    Follows c (c.finishEdit d env forced).state := by
  unfold CompositionState.finishEdit
  split_ifs
  · exact refl c
  · exact (notified _ _).trans (ended _)
  · exact notified _ _

end Follows

/-- Under the flag of `request_edit` the end of the composition is no divergence. -/
theorem notified_targetModified (c : CompositionState) (ends : Bool)
    (happlying : c.applyingRemoteEdit = true) :
    (c.notified ends).targetModified = c.targetModified := by
  cases ends with
  | false => rfl
  | true => simp [notified, compositionTerminated, happlying, markTerminated]

theorem notified_applyingRemoteEdit (c : CompositionState) (ends : Bool) :
    (c.notified ends).applyingRemoteEdit = c.applyingRemoteEdit := by
  unfold notified compositionTerminated
  split_ifs <;> rfl

theorem beginEdit_targetModified (c : CompositionState) (d : Document) (env : TsfEnv)
    (text : String) (attachExisting : Bool) (happlying : c.applyingRemoteEdit = true) :
    (c.beginEdit d env text attachExisting).state.targetModified = c.targetModified := by
  have h₁ : ({ c with terminated := false }.notified env.startEnds).targetModified =
      c.targetModified := notified_targetModified { c with terminated := false } _ happlying
  have h₂ : ({ c with terminated := false }.notified env.startEnds).applyingRemoteEdit = true :=
    (notified_applyingRemoteEdit _ _).trans happlying
  unfold beginEdit
  dsimp only
  split_ifs
  · rfl
  · exact h₁
  · exact h₁
  · exact h₁
  · exact h₁
  -- the sink may also be told while the text is written
  all_goals
    rw [notified_targetModified]
    · exact h₁
    · exact h₂

/-- A Begin that goes through has cleared the flag first. -/
theorem beginEdit_settled (c : CompositionState) (d : Document) (env : TsfEnv) (text : String)
    (attachExisting : Bool) (hok : (c.beginEdit d env text attachExisting).ok = true) :
    (c.beginEdit d env text attachExisting).state.Settled := by
  have hcleared (c' : CompositionState) (composition : Bool) (range : Option Span) :
      Settled { c' with composition := composition, range := range, terminated := false } :=
    fun h => absurd h Bool.false_ne_true
  unfold beginEdit at hok ⊢
  dsimp only at hok ⊢
  split_ifs at hok ⊢
  · exact hcleared _ _ _
  · exact hcleared _ _ _
  all_goals
    apply (Follows.notified _ env.writeEnds).settled
    exact hcleared _ _ _

theorem finishEdit_document (c : CompositionState) (d : Document) (env : TsfEnv)
    (forced : Bool) : (c.finishEdit d env forced).document = d := by
  unfold finishEdit
  split_ifs <;> rfl

theorem finishEdit_targetModified (c : CompositionState) (d : Document) (env : TsfEnv)
    (forced : Bool) (happlying : c.applyingRemoteEdit = true) :
    (c.finishEdit d env forced).state.targetModified = c.targetModified := by
  unfold finishEdit
  split_ifs
  · rfl
  · exact notified_targetModified c _ happlying
  · exact notified_targetModified c _ happlying

theorem finishEdit_ok {c : CompositionState} {d : Document} {env : TsfEnv}
    (h : (c.finishEdit d env false).ok = true) :
    ∃ range, c.range = some range ∧ c.Expected d range := by
  have hmatch : c.matchesExpectedEditState d env = some true := by
    by_contra hne
    rw [finishEdit, if_pos ⟨rfl, Or.inr hne⟩] at h
    exact Bool.false_ne_true h
  exact matchesExpectedEditState_some hmatch

theorem setText_ok {c : CompositionState} {d : Document} {env : TsfEnv} {range : Span}
    {text : String} (h : (c.setText d env range text).ok = true) :
    (c.setText d env range text).state.targetModified = false := by
  unfold setText at h ⊢
  dsimp only at h ⊢
  split_ifs at h ⊢ with h1 hmodified hcaret
  · exact Bool.eq_false_iff.mpr hmodified
  · exact Bool.eq_false_iff.mpr hmodified

/-- An update that goes through has not found the target modified. -/
theorem updateEdit_ok {c : CompositionState} {d : Document} {env : TsfEnv} {text : String}
    (h : (c.updateEdit d env text).ok = true) :
    (c.updateEdit d env text).state.targetModified = false := by
  unfold updateEdit at h ⊢
  by_cases hmodified : c.targetModified = true
  · rw [if_pos hmodified] at h
    exact absurd h Bool.false_ne_true
  · rw [if_neg hmodified] at h ⊢
    split at h
    · exact absurd h Bool.false_ne_true
    · exact setText_ok h
    · exact absurd h Bool.false_ne_true

theorem setText_document (c : CompositionState) (d : Document) (env : TsfEnv) (range : Span)
    (text : String) :
    (c.setText d env range text).document = d ∧ (c.setText d env range text).ok = false ∨
    (c.setText d env range text).document.text = (d.replace range (encodeUtf16 text)).text := by
  unfold setText
  dsimp only
  split_ifs
  · exact Or.inl ⟨rfl, rfl⟩
  all_goals exact Or.inr rfl

/-- An update leaves the document alone, or replaces a range that is as expected. -/
theorem updateEdit_document (c : CompositionState) (d : Document) (env : TsfEnv)
    (text : String) :
    (c.updateEdit d env text).document = d ∧ (c.updateEdit d env text).ok = false ∨
    ∃ range, c.range = some range ∧ c.Expected d range ∧
      (c.updateEdit d env text).document.text = (d.replace range (encodeUtf16 text)).text := by
  unfold updateEdit
  split
  · exact Or.inl ⟨rfl, rfl⟩
  · split
    · exact Or.inl ⟨rfl, rfl⟩
    · next range hmatch hrange =>
      obtain ⟨range', hrange', hexpected⟩ := matchesExpectedEditState_some hmatch
      have hsame : range' = range := Option.some.inj (hrange'.symm.trans hrange)
      rw [hsame] at hexpected
      rcases setText_document c d env range text with h | h
      · exact Or.inl h
      · exact Or.inr ⟨range, hrange, hexpected, h⟩
    · exact Or.inl ⟨rfl, rfl⟩

end CompositionState

namespace Controller

open CompositionState (Follows)

variable {k k' : Controller} {context : Nat} {env again : TsfEnv}
  {edit : CompositionState → Document → Edited}

theorem requestEdit_locked (hlocked : env.locked = true) :
    k.requestEdit context env edit =
      ({ k.setDocument context (k.doEdit context edit).document with
          composition := { (k.doEdit context edit).state with applyingRemoteEdit := false } },
        (k.doEdit context edit).ok) :=
  if_pos hlocked

theorem requestEdit_rejected (hlocked : env.locked = false) :
    k.requestEdit context env edit =
      ({ k with composition := { k.composition with applyingRemoteEdit := false } }, false) := by
  simp [requestEdit, hlocked]

variable (k context env edit) in
@[simp] theorem requestEdit_sessions :
    (k.requestEdit context env edit).1.sessions = k.sessions := by
  unfold requestEdit
  split <;> rfl

@[simp] theorem requestEdit_asynchronous :
    (k.requestEdit context env edit).1.asynchronous = k.asynchronous := by
  unfold requestEdit
  split <;> rfl

variable (k context env) in
theorem requestEdit_follows (hedit : ∀ c d, Follows c (edit c d).state) :
    Follows k.composition (k.requestEdit context env edit).1.composition := by
  cases hlocked : env.locked with
  | false =>
    rw [requestEdit_rejected hlocked]
    exact Follows.applying _ _
  | true =>
    rw [requestEdit_locked hlocked]
    exact ((Follows.applying _ _).trans (hedit _ _)).trans (Follows.applying _ _)

variable (k context env) in
theorem requestEdit_targetModified
    (hedit : ∀ c d, c.applyingRemoteEdit = true →
      (edit c d).state.targetModified = c.targetModified) :
    (k.requestEdit context env edit).1.composition.targetModified =
      k.composition.targetModified := by
  cases hlocked : env.locked with
  | false => rw [requestEdit_rejected hlocked]
  | true =>
    rw [requestEdit_locked hlocked]
    exact hedit _ _ rfl

/-- A request that has gone through has run its edit session. -/
theorem requestEdit_ok (h : (k.requestEdit context env edit).2 = true) :
    env.locked = true ∧ (k.doEdit context edit).ok = true := by
  cases hlocked : env.locked with
  | false =>
    rw [requestEdit_rejected hlocked] at h
    exact absurd h Bool.false_ne_true
  | true =>
    rw [requestEdit_locked hlocked] at h
    exact ⟨rfl, h⟩

variable (k context env edit) in
/-- An edit session that leaves its document alone leaves all of them alone. -/
theorem requestEdit_documents
    (hedit : (k.doEdit context edit).document = k.documents context) :
    (k.requestEdit context env edit).1.documents = k.documents := by
  cases hlocked : env.locked with
  | false => rw [requestEdit_rejected hlocked]
  | true =>
    rw [requestEdit_locked hlocked, hedit]
    exact Function.update_eq_self context k.documents
end Controller

end FlowType
