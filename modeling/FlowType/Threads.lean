import Mathlib.Logic.Function.Basic

/-! Threads that run beside each other, each at a stage of its own. Nothing here refers to a
particular program. -/
namespace Threads

variable {ι σ : Type*} {threads : ι → Option σ} {P : σ → Prop} {i : ι} {s s' : σ}

def Occupied (threads : ι → Option σ) (P : σ → Prop) : Prop :=
  ∃ i s, threads i = some s ∧ P s

def AtMostOne (threads : ι → Option σ) (P : σ → Prop) : Prop :=
  ∀ i j s t, threads i = some s → threads j = some t → P s → P t → i = j

/-- Every thread is at a stage of that kind. -/
def All (threads : ι → Option σ) (P : σ → Prop) : Prop :=
  ∀ i s, threads i = some s → P s

theorem not_occupied_empty : ¬Occupied (fun _ : ι => none) P := by
  rintro ⟨i, s, h, -⟩
  cases h

theorem atMostOne_empty : AtMostOne (fun _ : ι => none) P := by
  intro i j s t h
  cases h

theorem all_empty : All (fun _ : ι => none) P := by
  intro i s h
  cases h

theorem not_occupied_iff : ¬Occupied threads P ↔ All threads fun s => ¬P s := by
  constructor
  · intro h i s hi hs
    exact h ⟨i, s, hi, hs⟩
  · rintro h ⟨i, s, hi, hs⟩
    exact h i s hi hs

variable [DecidableEq ι]

theorem All.update (h : All threads P) (hs : P s) :
    All (Function.update threads i (some s)) P := by
  intro j t hj
  by_cases hji : j = i
  · rw [hji, Function.update_self] at hj
    obtain rfl := Option.some.inj hj
    exact hs
  · rw [Function.update_of_ne hji] at hj
    exact h j t hj

theorem Occupied.update_of (hs : P s) : Occupied (Function.update threads i (some s)) P :=
  ⟨i, s, Function.update_self _ _ _, hs⟩

theorem Occupied.of_update (h : Occupied (Function.update threads i (some s)) P) (hs : ¬P s) :
    Occupied threads P := by
  obtain ⟨j, t, hj, ht⟩ := h
  by_cases hji : j = i
  · rw [hji, Function.update_self] at hj
    obtain rfl := Option.some.inj hj
    exact absurd ht hs
  · rw [Function.update_of_ne hji] at hj
    exact ⟨j, t, hj, ht⟩

/-- A thread that moves between two stages of the same kind changes nothing. -/
theorem occupied_update_iff (h : threads i = some s) (hsame : P s' ↔ P s) :
    Occupied (Function.update threads i (some s')) P ↔ Occupied threads P := by
  constructor
  · rintro ⟨j, t, hj, ht⟩
    by_cases hji : j = i
    · rw [hji, Function.update_self] at hj
      obtain rfl := Option.some.inj hj
      exact ⟨i, s, h, hsame.1 ht⟩
    · rw [Function.update_of_ne hji] at hj
      exact ⟨j, t, hj, ht⟩
  · rintro ⟨j, t, hj, ht⟩
    by_cases hji : j = i
    · rw [hji, h] at hj
      obtain rfl := Option.some.inj hj
      exact Occupied.update_of (hsame.2 ht)
    · exact ⟨j, t, by rw [Function.update_of_ne hji, hj], ht⟩

/-- A new thread that is not of the kind changes nothing. -/
theorem occupied_start_iff (h : threads i = none) (hs : ¬P s) :
    Occupied (Function.update threads i (some s)) P ↔ Occupied threads P := by
  constructor
  · intro hocc
    exact hocc.of_update hs
  · rintro ⟨j, t, hj, ht⟩
    have hji : j ≠ i := by
      rintro rfl
      rw [h] at hj
      cases hj
    exact ⟨j, t, by rw [Function.update_of_ne hji, hj], ht⟩

theorem AtMostOne.update (h : AtMostOne threads P) (hi : threads i = some s) (hs : P s' → P s) :
    AtMostOne (Function.update threads i (some s')) P := by
  have hback : ∀ j t, Function.update threads i (some s') j = some t → P t →
      ∃ t', threads j = some t' ∧ P t' := by
    intro j t hj ht
    by_cases hji : j = i
    · rw [hji, Function.update_self] at hj
      obtain rfl := Option.some.inj hj
      exact ⟨s, by rw [hji, hi], hs ht⟩
    · rw [Function.update_of_ne hji] at hj
      exact ⟨t, hj, ht⟩
  intro j k t u hj hk ht hu
  obtain ⟨t', hj', ht'⟩ := hback j t hj ht
  obtain ⟨u', hk', hu'⟩ := hback k u hk hu
  exact h j k t' u' hj' hk' ht' hu'

theorem AtMostOne.start (h : AtMostOne threads P) (hs : ¬P s) :
    AtMostOne (Function.update threads i (some s)) P := by
  have hback : ∀ j t, Function.update threads i (some s) j = some t → P t → threads j = some t := by
    intro j t hj ht
    by_cases hji : j = i
    · rw [hji, Function.update_self] at hj
      obtain rfl := Option.some.inj hj
      exact absurd ht hs
    · rwa [Function.update_of_ne hji] at hj
  intro j k t u hj hk ht hu
  exact h j k t u (hback j t hj ht) (hback k u hk hu) ht hu

/-- The first of its kind is the only one. -/
theorem atMostOne_update_of_free (h : ¬Occupied threads P) :
    AtMostOne (Function.update threads i (some s)) P := by
  have hat : ∀ j t, Function.update threads i (some s) j = some t → P t → j = i := by
    intro j t hj ht
    by_contra hji
    rw [Function.update_of_ne hji] at hj
    exact h ⟨j, t, hj, ht⟩
  intro j k t u hj hk ht hu
  rw [hat j t hj ht, hat k u hk hu]

/-- When the only one of its kind moves on, none is left. -/
theorem not_occupied_update (h : AtMostOne threads P) (hi : threads i = some s) (hs : P s)
    (hs' : ¬P s') : ¬Occupied (Function.update threads i (some s')) P := by
  rintro ⟨j, t, hj, ht⟩
  by_cases hji : j = i
  · rw [hji, Function.update_self] at hj
    obtain rfl := Option.some.inj hj
    exact hs' ht
  · rw [Function.update_of_ne hji] at hj
    exact hji (h j i t s hj hi ht hs)

end Threads
