import FlowType.DraftStore

/-! `ComputerSessions`: one live input session, a draft store with one entry for
each computer, and the computer the live session belongs to. The store is what
`load`, `save` and `clear` work on; a stored state that `restore` refuses makes
an activation throw. -/
namespace FlowType

structure ComputerSessions where
  phoneId : String
  store : String → Option ParkedSession := fun _ => none
  activePcId : Option String := none
  current : InputSession

inductive AutomaticActivation
  | activated (parked : Option ParkedSession)
  | conflict
  deriving DecidableEq, Repr

namespace ComputerSessions
open Machine

def newSession (s : ComputerSessions) : InputSession := { phoneId := s.phoneId }

def save (s : ComputerSessions) (pcId : String) (parked : ParkedSession) : ComputerSessions :=
  { s with store := Function.update s.store pcId (some parked) }

def clear (s : ComputerSessions) (pcId : String) : ComputerSessions :=
  { s with store := Function.update s.store pcId none }

/-- `activePcId?.let(clear)`. -/
def clearActive (s : ComputerSessions) : ComputerSessions :=
  match s.activePcId with
  | none => s
  | some pcId => s.clear pcId

def activate (s : ComputerSessions) (pcId : String) :
    Option (ComputerSessions × Option ParkedSession) :=
  if s.activePcId = some pcId then some (s, s.store pcId)
  else
    let stored := s.store pcId
    if s.activePcId = none ∧ stored = none ∧ s.current.currentText ≠ "" then
      -- the unassigned draft is carried along
      some ({ s with activePcId := some pcId }, stored)
    else
      match stored with
      | none => some ({ s with current := s.newSession, activePcId := some pcId }, none)
      | some parked =>
        (s.newSession.restore parked.state).map fun current =>
          ({ s with current, activePcId := some pcId }, some parked)

def saveCurrent (s : ComputerSessions) (remoteStarted : Bool) : ComputerSessions :=
  match s.activePcId with
  | none => s
  | some pcId =>
    if DraftStore.Blank s.current.state then s.clear pcId
    else s.save pcId ⟨s.current.state, remoteStarted⟩

def movingInput (s : ComputerSessions) : Bool :=
  s.current.sessionId.isSome || decide (s.current.currentText ≠ "")

def activateForAutomaticSelection (s : ComputerSessions) (pcId : String) :
    Option (ComputerSessions × AutomaticActivation) :=
  if s.activePcId = some pcId then some (s, .activated (s.store pcId))
  else if s.movingInput ∧ s.store pcId ≠ none then some (s, .conflict)
  else if s.movingInput then
    some ({ s.clearActive with activePcId := some pcId }, .activated none)
  else (s.activate pcId).map fun r => (r.1, .activated r.2)

def clearCurrent (s : ComputerSessions) : ComputerSessions :=
  { s.clearActive with current := s.current.reset }

def prepareNewSession (s : ComputerSessions) : ComputerSessions :=
  saveCurrent { s with current := s.current.resetForReplacement "" } false

def remove (s : ComputerSessions) (pcId : String) : ComputerSessions :=
  if s.activePcId = some pcId then
    { s.clear pcId with activePcId := none, current := s.newSession }
  else s.clear pcId

/-- The public operations; `edit` is an operation of the current session. -/
inductive Op
  | activate (pcId : String)
  | saveCurrent (remoteStarted : Bool)
  | activateForAutomaticSelection (pcId : String)
  | clearCurrent
  | prepareNewSession
  | remove (pcId : String)
  | edit (op : InputSession.Op)
  deriving DecidableEq, Repr

def apply (s : ComputerSessions) : Op → Option ComputerSessions
  | .activate pcId => (s.activate pcId).map Prod.fst
  | .saveCurrent remoteStarted => some (s.saveCurrent remoteStarted)
  | .activateForAutomaticSelection pcId => (s.activateForAutomaticSelection pcId).map Prod.fst
  | .clearCurrent => some s.clearCurrent
  | .prepareNewSession => some s.prepareNewSession
  | .remove pcId => some (s.remove pcId)
  | .edit op => (s.current.apply op).map fun r => { s with current := r.1 }

def draftOf (st : InputSession.State) : Option InputSession.State :=
  if DraftStore.Blank st then none else some st

def storedDraft (s : ComputerSessions) (pcId : String) : Option InputSession.State :=
  (s.store pcId).bind fun parked => draftOf parked.state

/-- The draft at a place: a computer, or `none` for the input that belongs to no
computer. The live session is the draft of the active place. -/
def place (s : ComputerSessions) (p : Option String) : Option InputSession.State :=
  if p = s.activePcId then draftOf s.current.state else p.bind s.storedDraft

def Saved (s : ComputerSessions) : Prop :=
  ∀ pcId ∈ s.activePcId, s.storedDraft pcId = draftOf s.current.state

instance (s : ComputerSessions) : Decidable s.Saved :=
  inferInstanceAs (Decidable (∀ pcId ∈ s.activePcId, _))

def CarriesTo (s : ComputerSessions) (pcId : String) : Prop :=
  s.activePcId = none ∧ s.store pcId = none ∧ s.current.currentText ≠ ""

/-- The automatic selection takes the current input to a computer without a
stored draft. -/
def MovesTo (s : ComputerSessions) (pcId : String) : Prop :=
  s.activePcId ≠ some pcId ∧ s.movingInput = true ∧ s.store pcId = none

/-- The computers whose draft an operation may change. -/
def Touches (s : ComputerSessions) : Op → String → Prop
  | .activate pcId, a => a = pcId ∧ s.CarriesTo pcId
  | .saveCurrent _, _ => False
  | .activateForAutomaticSelection pcId, a =>
    s.MovesTo pcId ∧ (a = pcId ∨ s.activePcId = some a)
  | .remove pcId, a => a = pcId
  | .clearCurrent, a => s.activePcId = some a
  | .prepareNewSession, a => s.activePcId = some a
  | .edit _, a => s.activePcId = some a

def OnCurrent : Op → Prop
  | .edit _ => True
  | .clearCurrent => True
  | .prepareNewSession => True
  | _ => False

/-- What one operation does to the drafts: those it does not touch stay, carried
and moved input arrives and leaves its old place, unassigned text is not lost,
and a conflict changes nothing. -/
structure Conserves (s : ComputerSessions) (op : Op) (t : ComputerSessions) : Prop where
  untouched : ∀ a, ¬ s.Touches op a → t.place (some a) = s.place (some a)
  carried : ∀ pcId, op = .activate pcId → s.CarriesTo pcId →
    s.place (some pcId) = none ∧ t.place (some pcId) = draftOf s.current.state
  moved : ∀ pcId, op = .activateForAutomaticSelection pcId → s.MovesTo pcId →
    s.place (some pcId) = none ∧ t.place (some pcId) = draftOf s.current.state ∧
    ∀ a ∈ s.activePcId, t.place (some a) = none
  unassigned : s.activePcId = none → s.current.currentText ≠ "" → ¬ OnCurrent op →
    t.current.state = s.current.state
  conflict : ∀ pcId, op = .activateForAutomaticSelection pcId →
    (s.activateForAutomaticSelection pcId).map Prod.snd = some .conflict → t = s

/-- An activation that gives up the text typed while no computer was active for
another draft that the computer has stored. -/
def DropsUnassigned (s : ComputerSessions) : Op → Prop
  | .activate pcId => s.activePcId = none ∧ s.current.currentText ≠ "" ∧
      ∃ parked ∈ s.store pcId, parked.state ≠ s.current.state
  | _ => False

instance (s : ComputerSessions) (op : Op) : Decidable (s.DropsUnassigned op) := by
  cases op <;> simp only [DropsUnassigned] <;> infer_instance

theorem place_active (s : ComputerSessions) : s.place s.activePcId = draftOf s.current.state := by
  simp [place]

theorem place_stored {s : ComputerSessions} {a : String} (h : s.activePcId ≠ some a) :
    s.place (some a) = s.storedDraft a := by
  have hne : some a ≠ s.activePcId := Ne.symm h
  simp [place, hne]

theorem draftOf_newSession (s : ComputerSessions) : draftOf s.newSession.state = none := by
  simp [draftOf, newSession, InputSession.state, DraftStore.Blank]

theorem storedDraft_none {s : ComputerSessions} {a : String} (h : s.store a = none) :
    s.storedDraft a = none := by
  simp [storedDraft, h]

/-- Places of two states with the same computer active agree where the store
does. -/
theorem place_congr {s t : ComputerSessions} {a : String} (hpc : t.activePcId = s.activePcId)
    (ha : s.activePcId ≠ some a) (hstore : t.store a = s.store a) :
    t.place (some a) = s.place (some a) := by
  rw [place_stored ha, place_stored (hpc ▸ ha)]
  simp only [storedDraft, hstore]

/-- What an activation of another computer does. -/
theorem activate_cases {s t : ComputerSessions} {pcId : String} {r : Option ParkedSession}
    (hpc : s.activePcId ≠ some pcId) (h : s.activate pcId = some (t, r)) :
    t.store = s.store ∧ t.phoneId = s.phoneId ∧ t.activePcId = some pcId ∧ r = s.store pcId ∧
    ((s.CarriesTo pcId ∧ t.current = s.current) ∨
      (¬ s.CarriesTo pcId ∧ draftOf t.current.state = s.storedDraft pcId ∧
        ∀ parked ∈ s.store pcId, t.current.state = parked.state)) := by
  unfold activate at h
  rw [if_neg hpc] at h
  dsimp only at h
  split at h
  · rename_i hcarry
    obtain ⟨rfl, rfl⟩ := Prod.mk.inj (Option.some.inj h)
    exact ⟨rfl, rfl, rfl, rfl, Or.inl ⟨hcarry, rfl⟩⟩
  · rename_i hcarry
    split at h
    · rename_i hnone
      obtain ⟨rfl, rfl⟩ := Prod.mk.inj (Option.some.inj h)
      refine ⟨rfl, rfl, rfl, hnone.symm, Or.inr ⟨hcarry, ?_, by simp [hnone]⟩⟩
      rw [storedDraft_none hnone]
      exact draftOf_newSession s
    · rename_i parked hsome
      obtain ⟨current, hrestore, heq⟩ := Option.map_eq_some_iff.mp h
      obtain ⟨rfl, rfl⟩ := Prod.mk.inj heq
      have hst := (InputSession.restore_state hrestore).2
      refine ⟨rfl, rfl, rfl, hsome.symm, Or.inr ⟨hcarry, ?_, ?_⟩⟩
      · simp [storedDraft, hsome, hst]
      · intro parked' hp
        obtain rfl : parked = parked' := by simpa [hsome] using hp
        exact hst

/-- Activating another computer after the live session has been saved changes no
draft, except that the unassigned one is carried. -/
theorem activate_place {s t : ComputerSessions} {pcId : String} {r : Option ParkedSession}
    (hpc : s.activePcId ≠ some pcId) (hsaved : s.Saved) (h : s.activate pcId = some (t, r))
    {a : String} (ha : ¬ (a = pcId ∧ s.CarriesTo pcId)) : t.place (some a) = s.place (some a) := by
  obtain ⟨hstore, -, hact, -, hcases⟩ := activate_cases hpc h
  have hdraft : ∀ b, t.storedDraft b = s.storedDraft b := by
    intro b
    simp only [storedDraft, hstore]
  by_cases hap : a = pcId
  · subst hap
    rcases hcases with ⟨hcarry, -⟩ | ⟨-, hcur, -⟩
    · exact absurd ⟨rfl, hcarry⟩ ha
    · rw [← hact, place_active, hact, place_stored hpc, hcur]
  · have hta : t.activePcId ≠ some a := by
      rw [hact]
      exact fun heq => hap (Option.some.inj heq).symm
    rw [place_stored hta, hdraft]
    by_cases hsa : s.activePcId = some a
    · -- the computer that is left: its draft has been saved
      rw [← hsa, place_active]
      exact hsaved a hsa
    · rw [place_stored hsa]

theorem saveCurrent_place (s : ComputerSessions) (remoteStarted : Bool) (p : Option String) :
    (s.saveCurrent remoteStarted).place p = s.place p := by
  unfold saveCurrent
  cases hact : s.activePcId with
  | none => rfl
  | some pcId =>
    by_cases hp : p = some pcId
    · -- the active place shows the live session, whatever is stored
      subst hp
      dsimp only
      split <;> simp [place, clear, save, hact]
    · have hstored : ∀ a, a ≠ pcId → ∀ o, (Function.update s.store pcId o) a = s.store a :=
        fun a ha o => Function.update_of_ne ha o s.store
      cases p with
      | none =>
        dsimp only
        split <;> simp [place, clear, save, hact]
      | some a =>
        have ha : a ≠ pcId := fun heq => hp (by rw [heq])
        have hsa : s.activePcId ≠ some a := by
          rw [hact]
          exact fun heq => ha (Option.some.inj heq).symm
        dsimp only
        split
        · exact place_congr rfl hsa (hstored a ha _)
        · exact place_congr rfl hsa (hstored a ha _)

theorem clearActive_store {s : ComputerSessions} {a : String} (h : s.activePcId ≠ some a) :
    s.clearActive.store a = s.store a := by
  unfold clearActive
  split
  · rfl
  · rename_i pcId hact
    have ha : a ≠ pcId := fun heq => h (by rw [hact, heq])
    exact Function.update_of_ne ha _ _

theorem clearActive_activePcId (s : ComputerSessions) : s.clearActive.activePcId = s.activePcId := by
  unfold clearActive
  split <;> rfl

theorem clearActive_none {s : ComputerSessions} {a : String} (h : s.activePcId = some a) :
    s.clearActive.storedDraft a = none := by
  apply storedDraft_none
  simp [clearActive, h, clear]

/-- The automatic selection of another computer: a conflict, a move of the
input, or an activation without input. -/
theorem automatic_cases {s t : ComputerSessions} {pcId : String} {r : AutomaticActivation}
    (hpc : s.activePcId ≠ some pcId) (h : s.activateForAutomaticSelection pcId = some (t, r)) :
    (r = .conflict ∧ t = s ∧ s.movingInput = true ∧ s.store pcId ≠ none) ∨
    (s.MovesTo pcId ∧ r = .activated none ∧ t = { s.clearActive with activePcId := some pcId }) ∨
    (s.movingInput = false ∧ ∃ parked, r = .activated parked ∧
      s.activate pcId = some (t, parked)) := by
  unfold activateForAutomaticSelection at h
  rw [if_neg hpc] at h
  split at h
  · rename_i hconflict
    obtain ⟨rfl, rfl⟩ := Prod.mk.inj (Option.some.inj h)
    exact Or.inl ⟨rfl, rfl, hconflict.1, hconflict.2⟩
  · rename_i hconflict
    split at h
    · rename_i hmoving
      obtain ⟨rfl, rfl⟩ := Prod.mk.inj (Option.some.inj h)
      have hnone : s.store pcId = none := by
        by_contra hne
        exact hconflict ⟨hmoving, hne⟩
      exact Or.inr (Or.inl ⟨⟨hpc, hmoving, hnone⟩, rfl, rfl⟩)
    · rename_i hmoving
      obtain ⟨⟨t', parked⟩, hact, heq⟩ := Option.map_eq_some_iff.mp h
      obtain ⟨rfl, rfl⟩ := Prod.mk.inj heq
      exact Or.inr (Or.inr ⟨by simpa using hmoving, parked, rfl, hact⟩)

/-- Moved input is the draft of its new computer, its old one has none, and the
other drafts stay. -/
theorem moved_place {s t : ComputerSessions} {pcId : String} (hmove : s.MovesTo pcId)
    (ht : t = { s.clearActive with activePcId := some pcId }) :
    t.current = s.current ∧ t.place (some pcId) = draftOf s.current.state ∧
    (∀ a ∈ s.activePcId, t.place (some a) = none) ∧
    ∀ a, ¬ (a = pcId ∨ s.activePcId = some a) → t.place (some a) = s.place (some a) := by
  have hcur : t.current = s.current := by
    rw [ht]
    unfold clearActive
    split <;> rfl
  have hact : t.activePcId = some pcId := by rw [ht]
  have hstored : ∀ a, t.storedDraft a = s.clearActive.storedDraft a := by
    intro a
    rw [ht]
    rfl
  refine ⟨hcur, ?_, ?_, ?_⟩
  · rw [← hact, place_active, hcur]
  · intro a ha
    have hne : t.activePcId ≠ some a := by
      rw [hact]
      intro heq
      exact hmove.1 (by rw [heq]; exact ha)
    rw [place_stored hne, hstored, clearActive_none ha]
  · intro a ha
    push Not at ha
    have hne : t.activePcId ≠ some a := by
      rw [hact]
      exact fun heq => ha.1 (Option.some.inj heq).symm
    rw [place_stored hne, place_stored ha.2, hstored]
    simp only [storedDraft, clearActive_store ha.2]

/-- The caller saves the live session before it activates another computer; the
automatic selection takes unsaved input along. -/
def SavesFirst (s : ComputerSessions) : Op → Prop
  | .activate pcId => s.activePcId ≠ some pcId → s.Saved
  | .activateForAutomaticSelection pcId =>
    s.activePcId ≠ some pcId → s.movingInput = false → s.Saved
  | _ => True

instance (s : ComputerSessions) (op : Op) : Decidable (s.SavesFirst op) := by
  cases op <;> simp only [SavesFirst] <;> infer_instance

theorem conserves_refl {s : ComputerSessions} {op : Op}
    (hcarry : ∀ pcId, op = .activate pcId → ¬ s.CarriesTo pcId)
    (hmove : ∀ pcId, op = .activateForAutomaticSelection pcId → ¬ s.MovesTo pcId) :
    s.Conserves op s :=
  ⟨fun _ _ => rfl, fun pcId hop h => absurd h (hcarry pcId hop),
    fun pcId hop h => absurd h (hmove pcId hop), fun _ _ _ => rfl, fun _ _ _ => rfl⟩

theorem activate_conserves_iff {s t : ComputerSessions} {pcId : String}
    (hsaved : s.SavesFirst (.activate pcId)) (happly : s.apply (.activate pcId) = some t) :
    s.Conserves (.activate pcId) t ↔ ¬ s.DropsUnassigned (.activate pcId) := by
  obtain ⟨⟨t, r⟩, h, rfl⟩ := Option.map_eq_some_iff.mp happly
  dsimp only
  by_cases hpc : s.activePcId = some pcId
  · -- the active computer again: nothing happens
    have hts : s = t := by
      unfold activate at h
      rw [if_pos hpc] at h
      exact (Prod.mk.inj (Option.some.inj h)).1
    have hcons : s.Conserves (.activate pcId) t := by
      subst hts
      refine conserves_refl ?_ (by simp)
      rintro pcId' - ⟨hnone, -⟩
      simp [hpc] at hnone
    refine ⟨fun _ hdrop => ?_, fun _ => hcons⟩
    simp [DropsUnassigned, hpc] at hdrop
  · obtain ⟨-, -, hact, -, hcases⟩ := activate_cases hpc h
    have hplace := fun a => activate_place hpc (hsaved hpc) h (a := a)
    constructor
    · rintro hcons ⟨hnone, htext, parked, hparked, hne⟩
      have hkept := hcons.unassigned hnone htext id
      rcases hcases with ⟨⟨-, hstore, -⟩, -⟩ | ⟨-, -, hrestored⟩
      · rw [hstore] at hparked
        simp at hparked
      · exact hne ((hrestored parked hparked).symm.trans hkept)
    · intro hdrop
      refine ⟨fun a ha => hplace a ha, ?_, by simp, ?_, by simp⟩
      · rintro pcId' hop hcarry
        obtain rfl : pcId = pcId' := by simpa using hop
        refine ⟨?_, ?_⟩
        · rw [place_stored hpc, storedDraft_none hcarry.2.1]
        · rcases hcases with ⟨-, hcur⟩ | ⟨hno, -⟩
          · rw [← hact, place_active, hcur]
          · exact absurd hcarry hno
      · intro hnone htext _
        rcases hcases with ⟨-, hcur⟩ | ⟨hno, -, hrestored⟩
        · rw [hcur]
        · -- not carried, so the computer has a draft of its own: the same one
          obtain ⟨parked, hparked⟩ : ∃ parked, s.store pcId = some parked := by
            apply Option.ne_none_iff_exists'.mp
            exact fun hst => hno ⟨hnone, hst, htext⟩
          by_contra hne
          refine hdrop ⟨hnone, htext, parked, hparked, ?_⟩
          rw [← hrestored parked hparked]
          exact hne

theorem automatic_conserves {s t : ComputerSessions} {pcId : String}
    (hsaved : s.SavesFirst (.activateForAutomaticSelection pcId))
    (happly : s.apply (.activateForAutomaticSelection pcId) = some t) :
    s.Conserves (.activateForAutomaticSelection pcId) t := by
  obtain ⟨⟨t, r⟩, h, rfl⟩ := Option.map_eq_some_iff.mp happly
  dsimp only
  by_cases hpc : s.activePcId = some pcId
  · have hts : s = t := by
      unfold activateForAutomaticSelection at h
      rw [if_pos hpc] at h
      exact (Prod.mk.inj (Option.some.inj h)).1
    subst hts
    refine conserves_refl (by simp) ?_
    rintro pcId' hop ⟨hne, -⟩
    obtain rfl : pcId = pcId' := by simpa using hop
    exact hne hpc
  · rcases automatic_cases hpc h with ⟨-, rfl, -, hstore⟩ | ⟨hmove, rfl, ht⟩ |
      ⟨hmoving, parked, rfl, hact⟩
    · refine conserves_refl (by simp) ?_
      rintro pcId' hop ⟨-, -, hnone⟩
      obtain rfl : pcId = pcId' := by simpa using hop
      exact hstore hnone
    · obtain ⟨hcur, hnew, hold, hrest⟩ := moved_place hmove ht
      refine ⟨?_, by simp, ?_, fun _ _ _ => by rw [hcur], ?_⟩
      · intro a ha
        exact hrest a fun hor => ha ⟨hmove, hor⟩
      · intro pcId' hop _
        obtain rfl : pcId = pcId' := by simpa using hop
        refine ⟨?_, hnew, hold⟩
        rw [place_stored hpc, storedDraft_none hmove.2.2]
      · intro pcId' hop hconflict
        obtain rfl : pcId = pcId' := by simpa using hop
        simp [h] at hconflict
    · -- no input to move: a plain activation, and nothing to carry
      have hnotext : s.current.currentText = "" := by
        by_contra htext
        simp [movingInput, htext] at hmoving
      have hcarry : ¬ s.CarriesTo pcId := fun hc => hc.2.2 hnotext
      have hmove : ¬ s.MovesTo pcId := fun hm => by simp [hm.2.1] at hmoving
      refine ⟨?_, by simp, ?_, fun _ htext => absurd hnotext htext, ?_⟩
      · intro a _
        exact activate_place hpc (hsaved hpc hmoving) hact fun hc => hcarry hc.2
      · intro pcId' hop hm
        obtain rfl : pcId = pcId' := by simpa using hop
        exact absurd hm hmove
      · intro pcId' hop hconflict
        obtain rfl : pcId = pcId' := by simpa using hop
        simp [h] at hconflict

/-- An operation that works on the live session leaves the other computers. -/
theorem live_conserves {s t : ComputerSessions} {op : Op} (hop : OnCurrent op)
    (hact : t.activePcId = s.activePcId)
    (hstore : ∀ a, s.activePcId ≠ some a → t.store a = s.store a) : s.Conserves op t := by
  refine ⟨?_, ?_, ?_, fun _ _ hno => absurd hop hno, ?_⟩
  · intro a ha
    have hne : s.activePcId ≠ some a := by
      cases op with
      | edit _ => exact ha
      | clearCurrent => exact ha
      | prepareNewSession => exact ha
      | _ => exact absurd hop id
    exact place_congr hact hne (hstore a hne)
  · rintro pcId rfl
    exact absurd hop id
  · rintro pcId rfl
    exact absurd hop id
  · rintro pcId rfl
    exact absurd hop id

theorem saveCurrent_activePcId (s : ComputerSessions) (remoteStarted : Bool) :
    (s.saveCurrent remoteStarted).activePcId = s.activePcId := by
  unfold saveCurrent
  split
  · rfl
  · split <;> rfl

theorem saveCurrent_current (s : ComputerSessions) (remoteStarted : Bool) :
    (s.saveCurrent remoteStarted).current = s.current := by
  unfold saveCurrent
  split
  · rfl
  · split <;> rfl

theorem saveCurrent_store {s : ComputerSessions} {remoteStarted : Bool} {a : String}
    (h : s.activePcId ≠ some a) : (s.saveCurrent remoteStarted).store a = s.store a := by
  unfold saveCurrent
  split
  · rfl
  · rename_i pcId hact
    have ha : a ≠ pcId := fun heq => h (by rw [hact, heq])
    split
    · exact Function.update_of_ne ha _ _
    · exact Function.update_of_ne ha _ _

theorem remove_conserves (s : ComputerSessions) (pcId : String) :
    s.Conserves (.remove pcId) (s.remove pcId) := by
  refine ⟨?_, by simp, by simp, ?_, by simp⟩
  · intro a ha
    have hne : a ≠ pcId := ha
    have hstore : (s.remove pcId).store a = s.store a := by
      unfold remove
      split
      · exact Function.update_of_ne hne _ _
      · exact Function.update_of_ne hne _ _
    by_cases hact : s.activePcId = some pcId
    · have hna : (s.remove pcId).activePcId ≠ some a := by simp [remove, hact]
      have hsa : s.activePcId ≠ some a := by
        rw [hact]
        exact fun heq => hne (Option.some.inj heq).symm
      rw [place_stored hna, place_stored hsa]
      simp only [storedDraft, hstore]
    · have hsame : (s.remove pcId).activePcId = s.activePcId := by simp [remove, hact, clear]
      by_cases hsa : s.activePcId = some a
      · have hcur : (s.remove pcId).current = s.current := by simp [remove, hact, clear]
        rw [← hsa, place_active, ← hsame, place_active, hcur]
      · exact place_congr hsame hsa hstore
  · intro hnone _ _
    simp [remove, hnone, clear]

/-- One operation conserves the drafts exactly if it does not drop an unassigned
one. -/
theorem apply_conserves_iff {s t : ComputerSessions} {op : Op} (hsaved : s.SavesFirst op)
    (h : s.apply op = some t) : s.Conserves op t ↔ ¬ s.DropsUnassigned op := by
  cases op with
  | activate pcId => exact activate_conserves_iff hsaved h
  | activateForAutomaticSelection pcId => exact iff_of_true (automatic_conserves hsaved h) id
  | saveCurrent remoteStarted =>
    obtain rfl : _ = t := Option.some.inj h
    refine iff_of_true ⟨fun a _ => saveCurrent_place s _ _, by simp, by simp, ?_, by simp⟩ id
    intro _ _ _
    rw [saveCurrent_current]
  | clearCurrent =>
    obtain rfl : _ = t := Option.some.inj h
    refine iff_of_true (live_conserves trivial (clearActive_activePcId s) ?_) id
    exact fun a ha => clearActive_store ha
  | prepareNewSession =>
    obtain rfl : _ = t := Option.some.inj h
    refine iff_of_true (live_conserves trivial (saveCurrent_activePcId _ _) ?_) id
    intro a ha
    exact saveCurrent_store (s := { s with current := s.current.resetForReplacement "" }) ha
  | remove pcId =>
    obtain rfl : _ = t := Option.some.inj h
    exact iff_of_true (remove_conserves s pcId) id
  | edit op =>
    obtain ⟨r, -, rfl⟩ := Option.map_eq_some_iff.mp h
    exact iff_of_true (live_conserves trivial rfl fun _ _ => rfl) id

/-- The session of the draft at a place. -/
def idAt (s : ComputerSessions) (p : Option String) : Option String :=
  (s.place p).bind (·.sessionId)

theorem draftOf_sessionId (st : InputSession.State) :
    (draftOf st).bind (·.sessionId) = st.sessionId := by
  unfold draftOf
  split
  · rename_i hblank
    exact hblank.1.symm
  · rfl

theorem idAt_active (s : ComputerSessions) : s.idAt s.activePcId = s.current.sessionId := by
  rw [idAt, place_active, draftOf_sessionId]
  rfl

theorem idAt_none {s : ComputerSessions} {pcId : String} (h : s.activePcId = some pcId) :
    s.idAt none = none := by
  simp [idAt, place, h]

end ComputerSessions

/-- A run of `ComputerSessions` with the session identifiers used so far. -/
structure DraftRun where
  sessions : ComputerSessions
  used : List String := []

namespace DraftRun
open ComputerSessions Machine

/-- Edits take fresh identifiers and do not restore, and the caller saves before
it activates another computer. -/
def Permitted (s : DraftRun) (op : Op) : Prop :=
  s.sessions.SavesFirst op ∧ match op with
    | .edit op => op.isRestore = false ∧ ∀ newId ∈ op.newId?, newId ∉ s.used
    | _ => True

instance (s : DraftRun) (op : Op) : Decidable (s.Permitted op) := by
  cases op <;> simp only [Permitted] <;> infer_instance

def newIds : Op → List String
  | .edit op => op.newId?.toList
  | _ => []

def step (s : DraftRun) (op : Op) : Option DraftRun :=
  if s.Permitted op then
    (s.sessions.apply op).map fun t => { sessions := t, used := newIds op ++ s.used }
  else none

/-- No session is the draft of two places. -/
def Apart (s : DraftRun) : Prop :=
  ∀ p q x, s.sessions.idAt p = some x → s.sessions.idAt q = some x → p = q

structure Inv (s : DraftRun) : Prop where
  apart : s.Apart
  used : ∀ p x, s.sessions.idAt p = some x → x ∈ s.used

/-- Drafts that keep their session, each at a place of its own, stay apart. -/
theorem Inv.relocate {s t : DraftRun} (hI : s.Inv) (f : Option String → Option String)
    (hid : ∀ p x, t.sessions.idAt p = some x → s.sessions.idAt (f p) = some x)
    (hinj : ∀ p q x, t.sessions.idAt p = some x → t.sessions.idAt q = some x → f p = f q → p = q)
    (hused : s.used ⊆ t.used) : t.Inv := by
  refine ⟨?_, ?_⟩
  · intro p q x hp hq
    exact hinj p q x hp hq (hI.apart _ _ x (hid p x hp) (hid q x hq))
  · intro p x hp
    exact hused (hI.used _ x (hid p x hp))

theorem Inv.shrink {s t : DraftRun} (hI : s.Inv)
    (hid : ∀ p x, t.sessions.idAt p = some x → s.sessions.idAt p = some x)
    (hused : s.used ⊆ t.used) : t.Inv :=
  hI.relocate id hid (fun _ _ _ _ _ h => h) hused

/-- A step that works on the live session only, and keeps its identifier or ends
it, or opens a new one. -/
theorem Inv.live {s t : DraftRun} (hI : s.Inv)
    (hact : t.sessions.activePcId = s.sessions.activePcId)
    (hplace : ∀ a, s.sessions.activePcId ≠ some a →
      t.sessions.place (some a) = s.sessions.place (some a))
    (hused : s.used ⊆ t.used)
    (hid : t.sessions.current.sessionId = s.sessions.current.sessionId ∨
      t.sessions.current.sessionId = none ∨
      ∃ x, t.sessions.current.sessionId = some x ∧ x ∉ s.used ∧ x ∈ t.used) : t.Inv := by
  -- the other places keep their drafts
  have hother : ∀ p, p ≠ s.sessions.activePcId → t.sessions.idAt p = s.sessions.idAt p := by
    intro p hp
    cases p with
    | some a =>
      simp only [idAt]
      rw [hplace a (Ne.symm hp)]
    | none =>
      obtain ⟨pcId, hpc⟩ := Option.ne_none_iff_exists'.mp (Ne.symm hp)
      rw [idAt_none hpc, idAt_none (hact.trans hpc)]
  have hlive : t.sessions.idAt s.sessions.activePcId = t.sessions.current.sessionId := by
    rw [← hact]
    exact idAt_active _
  have hlive' : s.sessions.idAt s.sessions.activePcId = s.sessions.current.sessionId :=
    idAt_active _
  rcases hid with hid | hid | ⟨new, hid, hfresh, hmem⟩
  · refine hI.shrink ?_ hused
    intro p x hp
    by_cases hpa : p = s.sessions.activePcId
    · rw [hpa, hlive, hid] at hp
      rw [hpa, hlive', hp]
    · rw [← hother p hpa]
      exact hp
  · refine hI.shrink ?_ hused
    intro p x hp
    by_cases hpa : p = s.sessions.activePcId
    · rw [hpa, hlive, hid] at hp
      simp at hp
    · rw [← hother p hpa]
      exact hp
  · -- the new identifier is at the active place and nowhere else
    have hnot : ∀ p, p ≠ s.sessions.activePcId → t.sessions.idAt p ≠ some new := by
      intro p hp hx
      rw [hother p hp] at hx
      exact hfresh (hI.used p new hx)
    have hat : ∀ p x, t.sessions.idAt p = some x → x ≠ new → p ≠ s.sessions.activePcId := by
      rintro p x hp hne rfl
      rw [hlive, hid] at hp
      exact hne (Option.some.inj hp).symm
    refine ⟨?_, ?_⟩
    · intro p q x hp hq
      by_cases hx : x = new
      · subst hx
        have hp' : p = s.sessions.activePcId := by
          by_contra hne
          exact hnot p hne hp
        have hq' : q = s.sessions.activePcId := by
          by_contra hne
          exact hnot q hne hq
        rw [hp', hq']
      · rw [hother p (hat p x hp hx)] at hp
        rw [hother q (hat q x hq hx)] at hq
        exact hI.apart p q x hp hq
    · intro p x hp
      by_cases hx : x = new
      · rw [hx]
        exact hmem
      · rw [hother p (hat p x hp hx)] at hp
        exact hused (hI.used p x hp)

theorem activate_inv {s t : DraftRun} {pcId : String} {r : Option ParkedSession} (hI : s.Inv)
    (hsaved : s.sessions.activePcId ≠ some pcId → s.sessions.Saved)
    (h : s.sessions.activate pcId = some (t.sessions, r)) (hused : t.used = s.used) : t.Inv := by
  have hused' : s.used ⊆ t.used := hused ▸ List.Subset.refl _
  by_cases hpc : s.sessions.activePcId = some pcId
  · have hts : s.sessions = t.sessions := by
      unfold activate at h
      rw [if_pos hpc] at h
      exact (Prod.mk.inj (Option.some.inj h)).1
    refine hI.shrink ?_ hused'
    intro p x hp
    rw [hts]
    exact hp
  · have hplace := fun a => activate_place hpc (hsaved hpc) h (a := a)
    obtain ⟨-, -, hact, -, hcases⟩ := activate_cases hpc h
    have hnone := idAt_none hact
    rcases hcases with ⟨hcarry, hcur⟩ | ⟨hno, -⟩
    · -- the unassigned draft comes to the computer
      refine hI.relocate (fun p => if p = some pcId then none else p) ?_ ?_ hused'
      · intro p x hp
        by_cases hpp : p = some pcId
        · rw [hpp, ← hact, idAt_active, hcur] at hp
          rw [if_pos hpp, ← hcarry.1, idAt_active, hp]
        · rw [if_neg hpp]
          cases p with
          | none => simp [hnone] at hp
          | some a =>
            have ha : ¬ (a = pcId ∧ s.sessions.CarriesTo pcId) := fun h => hpp (by rw [h.1])
            simp only [idAt] at hp ⊢
            rw [← hplace a ha]
            exact hp
      · intro p q x hp hq hf
        have hpn : p ≠ none := fun h => by simp [h, hnone] at hp
        have hqn : q ≠ none := fun h => by simp [h, hnone] at hq
        by_cases hpp : p = some pcId <;> by_cases hqq : q = some pcId
        · rw [hpp, hqq]
        · rw [if_pos hpp, if_neg hqq] at hf
          exact absurd hf.symm hqn
        · rw [if_neg hpp, if_pos hqq] at hf
          exact absurd hf hpn
        · rw [if_neg hpp, if_neg hqq] at hf
          exact hf
    · refine hI.shrink ?_ hused'
      intro p x hp
      cases p with
      | none => simp [hnone] at hp
      | some a =>
        simp only [idAt] at hp ⊢
        rw [← hplace a fun h => hno h.2]
        exact hp

theorem moved_inv {s t : DraftRun} {pcId : String} (hI : s.Inv) (hmove : s.sessions.MovesTo pcId)
    (ht : t.sessions = { s.sessions.clearActive with activePcId := some pcId })
    (hused : t.used = s.used) : t.Inv := by
  obtain ⟨hcur, -, hold, hrest⟩ := moved_place hmove ht
  have hact : t.sessions.activePcId = some pcId := by rw [ht]
  have hnone := idAt_none hact
  -- the old place is empty, whether it was a computer or none
  have holdId : t.sessions.idAt s.sessions.activePcId = none := by
    cases hsa : s.sessions.activePcId with
    | none => exact hnone
    | some a => simp [idAt, hold a hsa]
  refine hI.relocate (fun p => if p = some pcId then s.sessions.activePcId else p) ?_ ?_
    (hused ▸ List.Subset.refl _)
  · intro p x hp
    by_cases hpp : p = some pcId
    · rw [hpp, ← hact, idAt_active, hcur] at hp
      rw [if_pos hpp, idAt_active, hp]
    · rw [if_neg hpp]
      cases p with
      | none => simp [hnone] at hp
      | some a =>
        have ha : ¬ (a = pcId ∨ s.sessions.activePcId = some a) := by
          rintro (h | h)
          · exact hpp (by rw [h])
          · rw [← h, holdId] at hp
            simp at hp
        simp only [idAt] at hp ⊢
        rw [← hrest a ha]
        exact hp
  · intro p q x hp hq hf
    have hpn : p ≠ s.sessions.activePcId := fun h => by simp [h, holdId] at hp
    have hqn : q ≠ s.sessions.activePcId := fun h => by simp [h, holdId] at hq
    by_cases hpp : p = some pcId <;> by_cases hqq : q = some pcId
    · rw [hpp, hqq]
    · rw [if_pos hpp, if_neg hqq] at hf
      exact absurd hf.symm hqn
    · rw [if_neg hpp, if_pos hqq] at hf
      exact absurd hf hpn
    · rw [if_neg hpp, if_neg hqq] at hf
      exact hf

theorem automatic_inv {s t : DraftRun} {pcId : String} {r : AutomaticActivation} (hI : s.Inv)
    (hsaved : s.sessions.SavesFirst (.activateForAutomaticSelection pcId))
    (h : s.sessions.activateForAutomaticSelection pcId = some (t.sessions, r))
    (hused : t.used = s.used) : t.Inv := by
  have hsame : t.sessions = s.sessions → t.Inv := by
    intro hts
    refine hI.shrink ?_ (hused ▸ List.Subset.refl _)
    intro p x hp
    rw [← hts]
    exact hp
  by_cases hpc : s.sessions.activePcId = some pcId
  · apply hsame
    unfold activateForAutomaticSelection at h
    rw [if_pos hpc] at h
    exact (Prod.mk.inj (Option.some.inj h)).1.symm
  · rcases automatic_cases hpc h with ⟨-, hts, -⟩ | ⟨hmove, -, ht⟩ | ⟨hmoving, parked, -, hact⟩
    · exact hsame hts
    · exact moved_inv hI hmove ht hused
    · exact activate_inv hI (fun hne => hsaved hne hmoving) hact hused

theorem remove_inv {s t : DraftRun} {pcId : String} (hI : s.Inv)
    (ht : t.sessions = s.sessions.remove pcId) (hused : t.used = s.used) : t.Inv := by
  have hcons := remove_conserves s.sessions pcId
  refine hI.shrink ?_ (hused ▸ List.Subset.refl _)
  intro p x hp
  rw [ht] at hp
  cases p with
  | some a =>
    by_cases ha : a = pcId
    · -- the removed computer has no draft left
      subst ha
      exfalso
      have hnot : (s.sessions.remove a).activePcId ≠ some a := by
        unfold ComputerSessions.remove
        split
        · simp
        · assumption
      have hstore : (s.sessions.remove a).store a = none := by
        unfold ComputerSessions.remove
        split <;> simp [clear]
      rw [idAt, place_stored hnot, storedDraft_none hstore] at hp
      simp at hp
    · simp only [idAt] at hp ⊢
      rw [← hcons.untouched a ha]
      exact hp
  | none =>
    by_cases hact : s.sessions.activePcId = some pcId
    · have hnew : (s.sessions.remove pcId).activePcId = none := by
        simp [ComputerSessions.remove, hact]
      rw [← hnew, idAt_active] at hp
      simp [ComputerSessions.remove, hact, newSession] at hp
    · have hrem : s.sessions.remove pcId = s.sessions.clear pcId := by
        simp [ComputerSessions.remove, hact]
      rw [hrem] at hp
      exact hp

theorem step_inv {s t : DraftRun} {op : Op} (hI : s.Inv) (h : s.step op = some t) : t.Inv := by
  unfold step at h
  split at h
  · rename_i hp
    obtain ⟨u, happly, rfl⟩ := Option.map_eq_some_iff.mp h
    cases op with
    | activate pcId =>
      obtain ⟨⟨u, r⟩, hact, rfl⟩ := Option.map_eq_some_iff.mp happly
      exact activate_inv hI hp.1 hact rfl
    | activateForAutomaticSelection pcId =>
      obtain ⟨⟨u, r⟩, hact, rfl⟩ := Option.map_eq_some_iff.mp happly
      exact automatic_inv hI hp.1 hact rfl
    | saveCurrent remoteStarted =>
      obtain rfl : _ = u := Option.some.inj happly
      refine hI.shrink ?_ (List.Subset.refl _)
      intro p x hpx
      simp only [idAt] at hpx ⊢
      rw [← saveCurrent_place s.sessions remoteStarted p]
      exact hpx
    | clearCurrent =>
      obtain rfl : _ = u := Option.some.inj happly
      have hcons := (apply_conserves_iff hp.1 happly).mpr id
      exact hI.live (clearActive_activePcId _) hcons.untouched (List.Subset.refl _)
        (Or.inr (Or.inl rfl))
    | prepareNewSession =>
      obtain rfl : _ = u := Option.some.inj happly
      have hcons := (apply_conserves_iff hp.1 happly).mpr id
      refine hI.live (saveCurrent_activePcId _ _) hcons.untouched (List.Subset.refl _)
        (Or.inr (Or.inl ?_))
      dsimp only [ComputerSessions.prepareNewSession]
      rw [saveCurrent_current]
      rfl
    | remove pcId =>
      obtain rfl : _ = u := Option.some.inj happly
      exact remove_inv hI rfl rfl
    | edit op =>
      have hcons := (apply_conserves_iff hp.1 happly).mpr id
      obtain ⟨r, hedit, rfl⟩ := Option.map_eq_some_iff.mp happly
      have hids := InputSession.apply_sessionId hp.2.1 hedit
      refine hI.live rfl hcons.untouched (List.subset_append_right _ _) ?_
      refine hids.imp_right (Or.imp_right ?_)
      rintro ⟨x, hnew, hx⟩
      exact ⟨x, hx, hp.2.2 x hnew, List.mem_append_left _ (by simp [newIds, hnew])⟩
  · simp at h

def start (phoneId : String) (store : String → Option ParkedSession) (used : List String) :
    DraftRun :=
  { sessions := { phoneId := phoneId, store := store, current := { phoneId := phoneId } }
    used := used }

/-- The operation does to the drafts what it is meant to do. -/
def Keeps (s : DraftRun) (op : Op) : Prop :=
  ∀ t, s.step op = some t → s.sessions.Conserves op t.sessions

theorem step_keeps_iff {s t : DraftRun} {op : Op} (h : s.step op = some t) :
    s.Keeps op ↔ ¬ s.sessions.DropsUnassigned op := by
  have hstep := h
  unfold step at h
  split at h
  · rename_i hp
    obtain ⟨u, happly, rfl⟩ := Option.map_eq_some_iff.mp h
    have hiff := apply_conserves_iff hp.1 happly
    constructor
    · intro hkeeps
      exact hiff.mp (hkeeps _ hstep)
    · intro hdrop t' ht'
      obtain rfl := Option.some.inj (hstep.symm.trans ht')
      exact hiff.mpr hdrop
  · simp at h

theorem along_keeps_iff (s : DraftRun) (ops : List Op) :
    Along step Keeps s ops ↔ Along step (fun s op => ¬ s.sessions.DropsUnassigned op) s ops := by
  refine along_congr (fun _ => True) ops trivial ?_
  intro s op t _ hstep
  exact ⟨trivial, step_keeps_iff hstep⟩

/-- Whatever drafts a run starts with: its operations conserve the drafts exactly
if no activation drops unassigned text, and no session is ever the draft of two
places. -/
theorem drafts_conserved (phoneId : String) (store : String → Option ParkedSession)
    (used : List String) (ops : List Op) (hstore : (start phoneId store used).Inv) :
    (Along step Keeps (start phoneId store used) ops ↔
      Along step (fun s op => ¬ s.sessions.DropsUnassigned op) (start phoneId store used) ops) ∧
    Always step Apart (start phoneId store used) ops := by
  refine ⟨along_keeps_iff _ ops, ?_⟩
  exact always_of_invariant Inv ops hstore (fun s hI => hI.apart) fun s op t hI hstep =>
    step_inv hI hstep

/-- A draft that is stored for a computer. -/
def storedNote : ParkedSession :=
  { state := { sessionId := none, text := "note", latestSequence := 0, acknowledgedSequence := 0
               finishing := false }
    remoteStarted := false }

def withNote (pcId : String) : Option ParkedSession :=
  if pcId = "desk" then some storedNote else none

theorem withNote_inv : (start "phone" withNote []).Inv := by
  have hid : ∀ p, (start "phone" withNote []).sessions.idAt p = none := by
    intro p
    cases p with
    | none => decide
    | some a =>
      rw [idAt, place_stored (by simp [start])]
      simp only [start, storedDraft, withNote]
      split <;> rfl
  refine ⟨?_, ?_⟩
  · intro p q x hp
    simp [hid] at hp
  · intro p x hp
    simp [hid] at hp

theorem drafts_conserved_typed_then_activated :
    Along step Keeps (start "phone" withNote [])
      [.activate "desk", .saveCurrent false, .activate "laptop",
        .edit (.onTextChanged "hi" true "s1"), .saveCurrent false, .activate "desk"] ∧
    Always step Apart (start "phone" withNote [])
      [.activate "desk", .saveCurrent false, .activate "laptop",
        .edit (.onTextChanged "hi" true "s1"), .saveCurrent false, .activate "desk"] := by
  have h := drafts_conserved "phone" withNote []
    [.activate "desk", .saveCurrent false, .activate "laptop",
      .edit (.onTextChanged "hi" true "s1"), .saveCurrent false, .activate "desk"] withNote_inv
  exact ⟨h.1.mpr (by decide), h.2⟩

/-- Text typed while no computer is active is lost when a computer that has a
draft of its own is activated. -/
theorem activation_loses_unassigned_text :
    ¬ Along step Keeps (start "phone" withNote [])
      [.edit (.onTextChanged "typed" false "s1"), .activate "desk"] := by
  rw [along_keeps_iff]
  decide

end DraftRun

end FlowType
