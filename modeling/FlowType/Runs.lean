import Mathlib.Order.Basic

/-! Runs of a machine whose events carry everything the machine does not decide
itself. A step is a partial function; a guard says which events a run may take
in which states. Nothing here refers to a particular program. -/
namespace Machine

variable {σ ε : Type*}

/-- The states a guarded run can reach: each event is allowed in the state
before it. -/
inductive Reach (step : σ → ε → Option σ) (ok : σ → ε → Prop) (s₀ : σ) : σ → Prop
  | start : Reach step ok s₀ s₀
  | next {s t : σ} {e : ε} :
      Reach step ok s₀ s → ok s e → step s e = some t → Reach step ok s₀ t

variable {step : σ → ε → Option σ} {ok ok' : σ → ε → Prop} {s₀ s t : σ}

/-- What holds at the start and survives every allowed step holds in every
state of every run. -/
theorem Reach.invariant (I : σ → Prop) (h0 : I s₀)
    (hstep : ∀ s e t, I s → ok s e → step s e = some t → I t)
    (h : Reach step ok s₀ s) : I s := by
  induction h with
  | start => exact h0
  | next _ hok hs ih => exact hstep _ _ _ ih hok hs

/-- Executing a list of events. -/
def run (step : σ → ε → Option σ) : σ → List ε → Option σ
  | s, [] => some s
  | s, e :: es => (step s e).bind fun t => run step t es

theorem run_append (es es' : List ε) :
    run step s (es ++ es') = (run step s es).bind fun t => run step t es' := by
  induction es generalizing s with
  | nil => rfl
  | cons e es ih =>
    simp only [List.cons_append, run]
    cases step s e with
    | none => rfl
    | some t => exact ih

theorem exists_run_take (es : List ε) (n : Nat) (h : run step s es = some t) :
    ∃ u, run step s (es.take n) = some u := by
  rw [← List.take_append_drop n es, run_append] at h
  obtain ⟨u, hu, -⟩ := Option.bind_eq_some_iff.mp h
  exact ⟨u, hu⟩

/-- The guard holds at every step the list takes, each in the state it meets. -/
def Along (step : σ → ε → Option σ) (ok : σ → ε → Prop) : σ → List ε → Prop
  | _, [] => True
  | s, e :: es => match step s e with
    | none => True
    | some t => ok s e ∧ Along step ok t es

/-- A list of allowed events leads from a reachable state to a reachable state. -/
theorem Reach.run (es : List ε) (h : Reach step ok s₀ s) (hok : Along step ok s es)
    (hr : Machine.run step s es = some t) : Reach step ok s₀ t := by
  induction es generalizing s with
  | nil =>
    obtain rfl : s = t := by simpa [Machine.run] using hr
    exact h
  | cons e es ih =>
    obtain ⟨u, hu, hr⟩ := Option.bind_eq_some_iff.mp hr
    simp only [Along, hu] at hok
    exact ih (h.next hok.1 hu) hok.2 hr

theorem along_of_forall (es : List ε) (h : ∀ e ∈ es, ∀ s, ok s e) : Along step ok s es := by
  induction es generalizing s with
  | nil => trivial
  | cons e es ih =>
    cases hs : step s e with
    | none => simp [Along, hs]
    | some t =>
      simp only [Along, hs]
      exact ⟨h e List.mem_cons_self s, ih fun d hd => h d (List.mem_cons_of_mem e hd)⟩

/-- A property of every state the list passes through. -/
def Always (step : σ → ε → Option σ) (P : σ → Prop) : σ → List ε → Prop
  | s, [] => P s
  | s, e :: es => P s ∧ match step s e with
    | none => True
    | some t => Always step P t es

instance Along.decidable [∀ s e, Decidable (ok s e)] :
    ∀ s es, Decidable (Along step ok s es)
  | _, [] => inferInstanceAs (Decidable True)
  | s, e :: es =>
    match h : step s e with
    | none => decidable_of_iff True (by simp [Along, h])
    | some t =>
      have := Along.decidable t es
      decidable_of_iff (ok s e ∧ Along step ok t es) (by simp [Along, h])

instance Always.decidable {P : σ → Prop} [∀ s, Decidable (P s)] :
    ∀ s es, Decidable (Always step P s es)
  | s, [] => inferInstanceAs (Decidable (P s))
  | s, e :: es =>
    match h : step s e with
    | none => decidable_of_iff (P s) (by simp [Always, h])
    | some t =>
      have := Always.decidable (P := P) t es
      decidable_of_iff (P s ∧ Always step P t es) (by simp [Always, h])

theorem Always.head {P : σ → Prop} {es : List ε} (h : Always step P s es) : P s := by
  cases es with
  | nil => exact h
  | cons e es => exact h.1

theorem Always.last {P : σ → Prop} (es : List ε) (h : Always step P s es)
    (hr : run step s es = some t) : P t := by
  induction es generalizing s with
  | nil =>
    obtain rfl : s = t := by simpa [run] using hr
    exact h
  | cons e es ih =>
    obtain ⟨u, hu, hr⟩ := Option.bind_eq_some_iff.mp hr
    have h' := h.2
    simp only [hu] at h'
    exact ih h' hr

/-- What every step keeps holds after a run. -/
theorem run_invariant (I : σ → Prop) (es : List ε) (h0 : I s)
    (hstep : ∀ s e t, I s → step s e = some t → I t) (hr : run step s es = some t) : I t := by
  induction es generalizing s with
  | nil =>
    obtain rfl : s = t := by simpa [run] using hr
    exact h0
  | cons e es ih =>
    obtain ⟨u, hu, hr⟩ := Option.bind_eq_some_iff.mp hr
    exact ih (hstep s e u h0 hu) hr

/-- When an allowed step keeps invariant and property, so does a whole list of
allowed steps. -/
theorem always_of_along {P : σ → Prop} (I : σ → Prop) (es : List ε) (hI : I s) (hP : P s)
    (hstep : ∀ s e t, I s → ok s e → step s e = some t → I t ∧ P t)
    (h : Along step ok s es) : Always step P s es := by
  induction es generalizing s with
  | nil => exact hP
  | cons e es ih =>
    refine ⟨hP, ?_⟩
    cases hs : step s e with
    | none => trivial
    | some t =>
      simp only [Along, hs] at h
      obtain ⟨hIt, hPt⟩ := hstep s e t hI h.1 hs
      exact ih hIt hPt h.2

/-- What every step keeps gives its property in every state of a list of steps. -/
theorem always_of_invariant {P : σ → Prop} (I : σ → Prop) (es : List ε) (hI : I s)
    (hP : ∀ s, I s → P s) (hstep : ∀ s e t, I s → step s e = some t → I t) :
    Always step P s es := by
  induction es generalizing s with
  | nil => exact hP s hI
  | cons e es ih =>
    refine ⟨hP s hI, ?_⟩
    cases hs : step s e with
    | none => trivial
    | some t => exact ih (hstep s e t hI hs)

/-- When a step keeps the property exactly if it meets the guard, so does a
whole list of steps. The invariant may need the guard too. -/
theorem always_iff_along_of {P : σ → Prop} (I : σ → Prop) (es : List ε) (hI : I s) (hP : P s)
    (hstep : ∀ s e t, I s → P s → ok' s e → step s e = some t →
      (P t ↔ ok s e) ∧ (ok s e → I t)) (halong : Along step ok' s es) :
    Always step P s es ↔ Along step ok s es := by
  induction es generalizing s with
  | nil => exact ⟨fun _ => trivial, fun _ => hP⟩
  | cons e es ih =>
    cases hs : step s e with
    | none => simp [Always, Along, hs, hP]
    | some t =>
      simp only [Along, hs] at halong
      obtain ⟨hPt, hIt⟩ := hstep s e t hI hP halong.1 hs
      simp only [Always, Along, hs, hP, true_and]
      constructor
      · intro h
        have hok := hPt.mp h.head
        exact ⟨hok, (ih (hIt hok) h.head halong.2).mp h⟩
      · intro h
        exact (ih (hIt h.1) (hPt.mpr h.1) halong.2).mpr h.2

theorem always_iff_along {P : σ → Prop} (I : σ → Prop) (es : List ε) (hI : I s) (hP : P s)
    (hstep : ∀ s e t, I s → P s → step s e = some t → (P t ↔ ok s e) ∧ (ok s e → I t)) :
    Always step P s es ↔ Along step ok s es :=
  always_iff_along_of I es hI hP (fun s e t hs hp _ he => hstep s e t hs hp he)
    (along_of_forall es fun _ _ _ => trivial)

theorem Along.and (es : List ε) (h : Along step ok s es) (h' : Along step ok' s es) :
    Along step (fun s e => ok s e ∧ ok' s e) s es := by
  induction es generalizing s with
  | nil => trivial
  | cons e es ih =>
    cases hs : step s e with
    | none => simp [Along, hs]
    | some t =>
      simp only [Along, hs] at h h' ⊢
      exact ⟨⟨h.1, h'.1⟩, ih h.2 h'.2⟩

/-- A guard that keeps an invariant and then implies another one implies it along a run. -/
theorem Along.of_invariant (I : σ → Prop) (es : List ε) (hI : I s)
    (hstep : ∀ s e t, I s → ok s e → step s e = some t → I t ∧ ok' s e)
    (h : Along step ok s es) : Along step ok' s es := by
  induction es generalizing s with
  | nil => trivial
  | cons e es ih =>
    cases hs : step s e with
    | none => simp [Along, hs]
    | some t =>
      simp only [Along, hs] at h ⊢
      obtain ⟨hIt, hok⟩ := hstep s e t hI h.1 hs
      exact ⟨hok, ih hIt h.2⟩

theorem Along.imp (I : σ → Prop) (es : List ε) (hI : I s)
    (hstep : ∀ s e t, I s → step s e = some t → I t ∧ (ok s e → ok' s e))
    (h : Along step ok s es) : Along step ok' s es :=
  h.of_invariant I es hI fun s e t hs hok he => (hstep s e t hs he).imp_right fun himp => himp hok

theorem along_congr (I : σ → Prop) (es : List ε) (hI : I s)
    (hstep : ∀ s e t, I s → step s e = some t → I t ∧ (ok s e ↔ ok' s e)) :
    Along step ok s es ↔ Along step ok' s es := by
  constructor
  · exact Along.imp I es hI fun s e t hs he => (hstep s e t hs he).imp_right Iff.mp
  · exact Along.imp I es hI fun s e t hs he => (hstep s e t hs he).imp_right Iff.mpr

/-- The guard holds at the last step of a run. -/
theorem Along.last {e : ε} {u : σ} (es : List ε) (h : Along step ok s (es ++ [e]))
    (hr : run step s es = some t) (hs : step t e = some u) : ok t e := by
  induction es generalizing s with
  | nil =>
    obtain rfl : s = t := by simpa [run] using hr
    simp only [List.nil_append, Along, hs] at h
    exact h.1
  | cons d es ih =>
    obtain ⟨v, hv, hr⟩ := Option.bind_eq_some_iff.mp hr
    simp only [List.cons_append, Along, hv] at h
    exact ih h.2 hr

/-- The machine comes to the property however the moves are taken, and can always take one
until then. -/
inductive Eventually (step : σ → ε → Option σ) (moves : ε → Prop) (P : σ → Prop) : σ → Prop
  | now {s : σ} : P s → Eventually step moves P s
  | later {s : σ} (hmove : ∃ e t, moves e ∧ step s e = some t)
      (hnext : ∀ e t, moves e → step s e = some t → Eventually step moves P t) :
      Eventually step moves P s

variable {moves : ε → Prop} {P Q : σ → Prop} {e : ε}

theorem Eventually.next (h : Eventually step moves P s) (hP : ¬P s) (hmove : moves e)
    (hs : step s e = some t) : Eventually step moves P t := by
  cases h with
  | now hnow => exact absurd hnow hP
  | later _ hnext => exact hnext e t hmove hs

/-- Moves that are there until the property holds, and that a measure counts down. -/
theorem eventually_of_measure (I : σ → Prop) (measure : σ → Nat)
    (hmove : ∀ s, I s → ¬P s → ∃ e t, moves e ∧ step s e = some t)
    (hstep : ∀ s e t, I s → ¬P s → moves e → step s e = some t → I t ∧ measure t < measure s)
    (h : I s) : Eventually step moves P s := by
  induction hn : measure s using Nat.strongRecOn generalizing s with
  | ind n ih =>
    by_cases hP : P s
    · exact .now hP
    · refine .later (hmove s h hP) fun e t he hs => ?_
      obtain ⟨hI, hlt⟩ := hstep s e t h hP he hs
      exact ih (measure t) (hn ▸ hlt) hI rfl

/-- A machine that stays where it is comes to nothing new. -/
theorem not_eventually_of_loop (hP : ¬P s) (hmove : moves e) (hs : step s e = some s) :
    ¬Eventually step moves P s := by
  intro h
  induction h with
  | now hnow => exact hP hnow
  | later _ _ ih => exact ih e _ hmove hs hP hs

end Machine
