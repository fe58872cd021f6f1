import Mathlib.Data.List.Basic
import Mathlib.Order.Basic

/-! Numbered revisions of the values under some keys. They are issued on one side, pass
through a line in order, and are reached on the other side. Nothing here refers to a
particular program. -/

structure Revision (κ ν α : Type*) where
  key : κ
  number : ν
  value : α
  deriving DecidableEq, Repr

namespace Revision

variable {κ ν α : Type*} [PartialOrder ν]

def Upto (a b : Revision κ ν α) : Prop := a.key = b.key → a.number ≤ b.number

theorem Upto.refl (a : Revision κ ν α) : Upto a a := fun _ => le_refl a.number

def OneValue (issued : List (Revision κ ν α)) : Prop :=
  ∀ a ∈ issued, ∀ b ∈ issued, a.key = b.key → a.number = b.number → a.value = b.value

/-- No issued revision is ahead of `r`. -/
def Newest (issued : List (Revision κ ν α)) (r : Revision κ ν α) : Prop :=
  r ∈ issued ∧ ∀ q ∈ issued, Upto q r

/-- Everything comes from the issued revisions and in order: a line does not fall behind
what was reached, and nothing in it is ahead of what is held for sending again. -/
structure Flow (issued reached line : List (Revision κ ν α)) (held : Option (Revision κ ν α)) :
    Prop where
  oneValue : OneValue issued
  line_issued : ∀ r ∈ line, r ∈ issued
  reached_issued : ∀ r ∈ reached, r ∈ issued
  held_issued : ∀ r ∈ held, r ∈ issued
  ordered : line.Pairwise Upto
  ahead : ∀ q ∈ reached, ∀ r ∈ line, Upto q r
  line_held : ∀ r ∈ line, ∀ h ∈ held, Upto r h
  reached_held : ∀ r ∈ reached, ∀ h ∈ held, Upto r h

namespace Flow

variable {issued reached line line' new : List (Revision κ ν α)} {held : Option (Revision κ ν α)}
  {a b m : Revision κ ν α}

theorem empty : Flow ([] : List (Revision κ ν α)) [] [] none := by
  constructor
  · intro a ha
    cases ha
  all_goals simp

theorem value_eq (h : Flow issued reached line held) (ha : a ∈ issued) (hb : b ∈ issued)
    (hkey : a.key = b.key) (hle : a.number ≤ b.number) (hge : b.number ≤ a.number) :
    a.value = b.value :=
  h.oneValue a ha b hb hkey (le_antisymm hle hge)

/-- What is lost or done leaves the line. -/
theorem sublist (h : Flow issued reached line held) (hsub : line'.Sublist line) :
    Flow issued reached line' held where
  oneValue := h.oneValue
  line_issued := fun r hr => h.line_issued r (hsub.subset hr)
  reached_issued := h.reached_issued
  held_issued := h.held_issued
  ordered := h.ordered.sublist hsub
  ahead := fun q hq r hr => h.ahead q hq r (hsub.subset hr)
  line_held := fun r hr => h.line_held r (hsub.subset hr)
  reached_held := h.reached_held

theorem release (h : Flow issued reached line held) : Flow issued reached line none where
  oneValue := h.oneValue
  line_issued := h.line_issued
  reached_issued := h.reached_issued
  held_issued := fun _ hr => nomatch hr
  ordered := h.ordered
  ahead := h.ahead
  line_held := fun _ _ _ hx => nomatch hx
  reached_held := fun _ _ _ hx => nomatch hx

/-- A newest revision may be held. -/
theorem hold (h : Flow issued reached line held) (hm : Newest issued m) :
    Flow issued reached line (some m) where
  oneValue := h.oneValue
  line_issued := h.line_issued
  reached_issued := h.reached_issued
  held_issued := by
    rintro r ⟨⟩
    exact hm.1
  ordered := h.ordered
  ahead := h.ahead
  line_held := by
    rintro r hr x ⟨⟩
    exact hm.2 r (h.line_issued r hr)
  reached_held := by
    rintro r hr x ⟨⟩
    exact hm.2 r (h.reached_issued r hr)

/-- What is held may be sent, as often as it is held. -/
theorem send (h : Flow issued reached line (some m)) :
    Flow issued reached (line ++ [m]) (some m) where
  oneValue := h.oneValue
  line_issued := by
    intro r hr
    rcases List.mem_append.mp hr with hold | hnew
    · exact h.line_issued r hold
    · rw [List.mem_singleton.mp hnew]
      exact h.held_issued m rfl
  reached_issued := h.reached_issued
  held_issued := h.held_issued
  ordered := by
    rw [List.pairwise_append]
    refine ⟨h.ordered, List.pairwise_singleton _ _, ?_⟩
    intro r hr x hx
    rw [List.mem_singleton.mp hx]
    exact h.line_held r hr m rfl
  ahead := by
    intro q hq r hr
    rcases List.mem_append.mp hr with hold | hnew
    · exact h.ahead q hq r hold
    · rw [List.mem_singleton.mp hnew]
      exact h.reached_held q hq m rfl
  line_held := by
    rintro r hr x ⟨⟩
    rcases List.mem_append.mp hr with hold | hnew
    · exact h.line_held r hold m rfl
    · rw [List.mem_singleton.mp hnew]
      exact Upto.refl m
  reached_held := h.reached_held

/-- The first one of the line arrives. -/
theorem reach (h : Flow issued reached (m :: line) held) :
    Flow issued (m :: reached) (m :: line) held where
  oneValue := h.oneValue
  line_issued := h.line_issued
  reached_issued := by
    intro r hr
    rcases List.mem_cons.mp hr with rfl | hold
    · exact h.line_issued r List.mem_cons_self
    · exact h.reached_issued r hold
  held_issued := h.held_issued
  ordered := h.ordered
  ahead := by
    intro q hq r hr
    rcases List.mem_cons.mp hq with rfl | hold
    · rcases List.mem_cons.mp hr with rfl | hlater
      · exact Upto.refl r
      · exact List.rel_of_pairwise_cons h.ordered hlater
    · exact h.ahead q hold r hr
  line_held := h.line_held
  reached_held := by
    intro r hr
    rcases List.mem_cons.mp hr with rfl | hold
    · exact h.line_held r List.mem_cons_self
    · exact h.reached_held r hold

/-- What was reached is still reached. -/
theorem again (h : Flow issued reached line held) (hm : m ∈ reached) :
    Flow issued (m :: reached) line held where
  oneValue := h.oneValue
  line_issued := h.line_issued
  reached_issued := by
    intro r hr
    rcases List.mem_cons.mp hr with rfl | hold
    · exact h.reached_issued r hm
    · exact h.reached_issued r hold
  held_issued := h.held_issued
  ordered := h.ordered
  ahead := by
    intro q hq
    rcases List.mem_cons.mp hq with rfl | hold
    · exact h.ahead q hm
    · exact h.ahead q hold
  line_held := h.line_held
  reached_held := by
    intro r hr
    rcases List.mem_cons.mp hr with rfl | hold
    · exact h.reached_held r hm
    · exact h.reached_held r hold

/-- New revisions are issued. -/
theorem issue (h : Flow issued reached line held) (hone : OneValue (new ++ issued)) :
    Flow (new ++ issued) reached line held where
  oneValue := hone
  line_issued := fun r hr => List.mem_append_right _ (h.line_issued r hr)
  reached_issued := fun r hr => List.mem_append_right _ (h.reached_issued r hr)
  held_issued := fun r hr => List.mem_append_right _ (h.held_issued r hr)
  ordered := h.ordered
  ahead := h.ahead
  line_held := h.line_held
  reached_held := h.reached_held

end Flow

end Revision
