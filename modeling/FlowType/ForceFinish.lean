import FlowType.TipCommands

/-! The ForceFinish that `OnEndEdit` asks for asynchronously. Edit sessions share one
composition state and carry no session id, so one that is granted late runs on
whatever session is open then. -/
namespace FlowType

/-- An asynchronous edit session that was granted: the state that it met and the
state that it left. -/
structure Grant where
  entry : AsyncEdit
  sessions : Nat
  before : CompositionState
  after : CompositionState
  deriving DecidableEq

/-- The session that was open when the edit session ran, which had been requested for
another one, has its composition, its marks and its edit sink still. -/
def Grant.Isolated (g : Grant) : Prop :=
  g.entry.session ≠ g.sessions → g.before.sessionId ≠ none →
    g.after.composition = g.before.composition ∧ g.after.terminated = g.before.terminated ∧
      g.after.targetModified = g.before.targetModified ∧ g.after.editSink = g.before.editSink

instance (g : Grant) : Decidable g.Isolated := by
  unfold Grant.Isolated
  infer_instance

structure GrantRun where
  controller : Controller := {}
  last : Option Grant := none

namespace GrantRun

open CompositionState (Follows Settled)

def grantOf (r : GrantRun) (k : Controller) : Controller.Event → Option Grant
  | .grant index _ => r.controller.asynchronous[index]?.map fun entry =>
    ⟨entry, r.controller.sessions, r.controller.composition, k.composition⟩
  | _ => none

def step (r : GrantRun) (e : Controller.Event) : Option GrantRun :=
  (r.controller.step e).map fun k => ⟨k, r.grantOf k e⟩

def Isolated (r : GrantRun) : Prop := ∀ g ∈ r.last, g.Isolated

instance (r : GrantRun) : Decidable r.Isolated :=
  decidable_of_iff (r.last.all fun g => decide g.Isolated) (by
    simp [Isolated, Option.all_eq_true])

/-- A granted edit session was requested for the session that is open, or none is
open, or the composition of the open one has ended. -/
def Timely (r : GrantRun) : Controller.Event → Prop
  | .grant index _ => ∀ entry ∈ r.controller.asynchronous[index]?,
      entry.session = r.controller.sessions ∨ r.controller.composition.sessionId = none ∨
        r.controller.composition.terminated = true
  | _ => True

/-- A forced finish leaves a state alone only if its composition has ended. -/
theorem finishEdit_forced {c : CompositionState} (d : Document) (env : TsfEnv)
    (hsettled : c.Settled) :
    let c' := (c.finishEdit d env true).state
    (c'.composition = c.composition ∧ c'.terminated = c.terminated ∧
      c'.targetModified = c.targetModified ∧ c'.editSink = c.editSink) ↔ c.terminated = true := by
  have hforced : (c.finishEdit d env true).state =
      (c.notified (c.composition && env.endEnds)).markTerminated := by
    simp [CompositionState.finishEdit]
  simp only [hforced]
  constructor
  · intro h
    exact h.2.1.symm
  · intro hterminated
    -- there is no composition left to end, so the sink is not told again
    obtain ⟨hcomposition, hsink⟩ := hsettled hterminated
    rw [hcomposition]
    exact ⟨rfl, hterminated.symm, rfl, hsink.symm⟩

theorem step_settled {r t : GrantRun} {e : Controller.Event}
    (hsettled : r.controller.composition.Settled) (h : r.step e = some t) :
    t.controller.composition.Settled := by
  obtain ⟨k, hk, ht⟩ := Option.map_eq_some_iff.mp h
  subst ht
  by_cases hcommand : ∃ command env again, e = .command command env again
  · obtain ⟨command, env, again, rfl⟩ := hcommand
    cases hk
    exact (Controller.handleCommand_moves command).settled hsettled
  · have hother : ∀ command env again, e ≠ .command command env again :=
      fun command env again he => hcommand ⟨command, env, again, he⟩
    rcases (Controller.step_follows hother hk).1 with hcleared | hfollows
    · change Settled k.composition
      rw [hcleared]
      exact fun hterminated => absurd hterminated Bool.false_ne_true
    · exact hfollows.settled hsettled

theorem step_isolated {r t : GrantRun} {e : Controller.Event}
    (hsettled : r.controller.composition.Settled) (h : r.step e = some t) :
    t.Isolated ↔ r.Timely e := by
  obtain ⟨k, hk, ht⟩ := Option.map_eq_some_iff.mp h
  subst ht
  cases e with
  | grant index env =>
    obtain ⟨entry, hentry, hk⟩ := Option.map_eq_some_iff.mp hk
    subst hk
    have hforced := finishEdit_forced (r.controller.documents entry.context) env hsettled
    simp only [Isolated, Timely, grantOf, hentry, Option.map_some, Option.mem_some_iff,
      forall_eq', Grant.Isolated, Controller.granted_composition, hforced]
    tauto
  | _ => simp [Isolated, Timely, grantOf]

/-- A granted edit session leaves later sessions alone exactly as long as none with a
composition is open when it comes late. -/
theorem force_finish_isolated (es : List Controller.Event) :
    Machine.Always step Isolated {} es ↔ Machine.Along step Timely {} es := by
  have hinitial : Isolated {} := by
    intro g hg
    cases hg
  apply Machine.always_iff_along (fun r => r.controller.composition.Settled) es
    (fun h => absurd h Bool.false_ne_true) hinitial
  intro r e t hsettled _ h
  exact ⟨step_isolated hsettled h, fun _ => step_settled hsettled h⟩

/-- The user edits the text of session s, s is cancelled and t begins: the edit
session for s ends the composition of t. -/
def lateGrant : List Controller.Event :=
  [.command (.begin "s" 1 "a" false) {} {},
    .foreign 0 ⟨[0x61, 0x62], ⟨2, 2⟩⟩ ⟨0, 2⟩ false {},
    .command (.cancel "s") {} {},
    .command (.begin "t" 1 "c" false) {} {},
    .grant 0 {}]

theorem lateGrant_not_isolated : ¬ Machine.Always step Isolated {} lateGrant := by
  decide +kernel

end GrantRun

end FlowType
