import FlowType.TipCommands

/-! Edits of the user against the commands of the injector: an update replaces only
what it wrote itself, an edit that is reported is found, and a session whose target was
found modified acknowledges nothing and writes nothing until it is cleared. -/
namespace FlowType

structure Handled where
  before : Controller
  diverged : List Nat
  applied : String
  command : TipCommand
  response : TipResponse
  after : Nat → Document

/-- `diverged` lists the sessions whose target was found modified, by their ordinals,
and `applied` is the text that the open session has acknowledged last. -/
structure EditRun where
  controller : Controller := {}
  diverged : List Nat := []
  applied : String := ""
  last : Option Handled := none

def Handled.Checked (h : Handled) (context : Nat) (range : Span) : Prop :=
  h.before.Expects context range ∧
    (h.before.documents context).read range = encodeUtf16 h.applied

structure Handled.Sound (h : Handled) : Prop where
  replaced : ∀ id n text, h.command = .update id n text →
    (h.after = h.before.documents ∧
      ∀ id' n', h.response = .applied id' n' → n' = h.before.composition.sequence) ∨
    ∃ context range, h.Checked context range ∧ h.before.Replaces context range text h.after
  finished : ∀ id n, h.command = .finish id n →
    h.after = h.before.documents ∧
      ∀ id' n', h.response = .finished id' n' → ∃ context range, h.Checked context range
  refused : h.before.composition.sessionId ≠ none → h.before.sessions ∈ h.diverged →
    ∀ id n text, h.command = .update id n text ∨ h.command = .finish id n →
      h.after = h.before.documents ∧ Controller.Refused h.response

namespace EditRun

open CompositionState (Follows)

def acknowledged (r : EditRun) (k : Controller) : TipCommand → TipResponse → String
  | .begin _ _ text _, .begun _ => if r.controller.sessions < k.sessions then text else r.applied
  | .update _ n text, .applied _ n' => if n = n' then text else r.applied
  | _, _ => r.applied

def divergedNow (r : EditRun) (k : Controller) : List Nat :=
  if r.controller.composition.targetModified = false ∧ k.composition.targetModified then
    k.sessions :: r.diverged
  else r.diverged

def record (r : EditRun) (k : Controller) : Controller.Event → EditRun
  | .command command env again =>
    let response := (r.controller.handleCommand env again command).2
    { controller := k
      diverged := r.divergedNow k
      applied := r.acknowledged k command response
      last := some ⟨r.controller, r.diverged, r.applied, command, response, k.documents⟩ }
  | _ => { controller := k, diverged := r.divergedNow k, applied := r.applied }

def step (r : EditRun) (e : Controller.Event) : Option EditRun :=
  (r.controller.step e).map fun k => r.record k e

structure Watches (r : EditRun) (context : Nat) : Prop where
  opened : r.controller.composition.sessionId ≠ none
  sink : r.controller.composition.editSink = some context
  context : r.controller.composition.context = some context
  tracked : r.controller.composition.range ≠ none
  active : r.controller.composition.terminated = false

/-- The commands are sound, and an edit that is reported is found to diverge, or leaves the
applied text in the range and the caret at its end. -/
structure Sound (r : EditRun) : Prop where
  handled : ∀ handled, r.last = some handled → handled.Sound
  detected : ∀ context document range env t, r.Watches context → env.readable = true →
    r.step (.foreign context document range false env) = some t →
    t.controller.composition.targetModified = true ∨
      t.controller.Expects context range ∧
        (t.controller.documents context).read range = encodeUtf16 t.applied

structure Inv (r : EditRun) : Prop where
  ordinals : ∀ n ∈ r.diverged, n ≤ r.controller.sessions
  modified : r.controller.composition.sessionId ≠ none →
    r.controller.sessions ∈ r.diverged → r.controller.composition.targetModified = true
  applied : r.controller.composition.sessionId ≠ none →
    r.applied = r.controller.composition.text

theorem inv_initial : Inv {} where
  ordinals _ hn := absurd hn List.not_mem_nil
  modified h := absurd rfl h
  applied h := absurd rfl h

theorem mem_divergedNow {r : EditRun} {k : Controller} {n : Nat}
    (h : n ∈ r.divergedNow k) :
    n ∈ r.diverged ∨ n = k.sessions ∧ k.composition.targetModified = true := by
  unfold divergedNow at h
  split_ifs at h with hset
  · rcases List.mem_cons.mp h with hn | hn
    · exact Or.inr ⟨hn, hset.2⟩
    · exact Or.inl hn
  · exact Or.inl h

theorem divergedNow_ordinals {r : EditRun} {k : Controller} (hinv : r.Inv)
    (hsessions : r.controller.sessions ≤ k.sessions) :
    ∀ n ∈ r.divergedNow k, n ≤ k.sessions := by
  intro n hn
  rcases mem_divergedNow hn with hold | ⟨hnew, -⟩
  · exact (hinv.ordinals n hold).trans hsessions
  · exact hnew.le

/-- The session goes on: a divergence it has is still marked. -/
theorem divergedNow_modified {r : EditRun} {k : Controller} (hinv : r.Inv)
    (hopen : k.composition.sessionId ≠ none)
    (hsame : k.composition.sessionId = r.controller.composition.sessionId)
    (hsessions : k.sessions = r.controller.sessions)
    (hkept : r.controller.composition.targetModified = true → k.composition.targetModified = true)
    (hn : k.sessions ∈ r.divergedNow k) : k.composition.targetModified = true := by
  rcases mem_divergedNow hn with hold | ⟨-, hnew⟩
  · rw [hsessions] at hold
    rw [hsame] at hopen
    exact hkept (hinv.modified hopen hold)
  · exact hnew

theorem divergedNow_begun {r : EditRun} {k : Controller} (hinv : r.Inv)
    (hsessions : k.sessions = r.controller.sessions + 1)
    (hn : k.sessions ∈ r.divergedNow k) : k.composition.targetModified = true := by
  rcases mem_divergedNow hn with hold | ⟨-, hnew⟩
  · have hle := hinv.ordinals _ hold
    omega
  · exact hnew

theorem inv_cleared {r : EditRun} {k : Controller} {applied : String} {last : Option Handled}
    (hinv : r.Inv) (hempty : k.composition = {}) (hsessions : r.controller.sessions ≤ k.sessions) :
    Inv ⟨k, r.divergedNow k, applied, last⟩ where
  ordinals := divergedNow_ordinals hinv hsessions
  modified h := absurd (congrArg CompositionState.sessionId hempty) h
  applied h := absurd (congrArg CompositionState.sessionId hempty) h

theorem inv_kept {r : EditRun} {k : Controller} {applied : String} {last : Option Handled}
    (hinv : r.Inv) (hfollows : Follows r.controller.composition k.composition)
    (hsessions : k.sessions = r.controller.sessions)
    (happlied : k.composition.sessionId ≠ none → applied = k.composition.text) :
    Inv ⟨k, r.divergedNow k, applied, last⟩ where
  ordinals := divergedNow_ordinals hinv hsessions.ge
  modified hopen :=
    divergedNow_modified hinv hopen hfollows.sessionId hsessions hfollows.modified
  applied := happlied

/-- What a command that keeps the session acknowledges is what it had applied. -/
theorem acknowledged_kept {r : EditRun} {k : Controller} {command : TipCommand}
    {response : TipResponse} (hsessions : k.sessions = r.controller.sessions)
    (happlied : r.applied = r.controller.composition.text)
    (hack : ∀ id id' n text, command = .update id n text → response = .applied id' n →
      r.controller.composition.text = text) :
    r.acknowledged k command response = r.controller.composition.text := by
  unfold acknowledged
  split
  · rw [if_neg (by omega)]
    exact happlied
  · next id n text id' n' =>
    split_ifs with hn
    · subst hn
      exact (hack id id' n text rfl rfl).symm
    · exact happlied
  · exact happlied

theorem inv_command {r : EditRun} {k : Controller} {command : TipCommand}
    {response : TipResponse} {last : Option Handled} (hinv : r.Inv)
    (hmoves : Controller.Moves r.controller k command response) :
    Inv ⟨k, r.divergedNow k, r.acknowledged k command response, last⟩ := by
  cases hmoves with
  | cleared hempty hsessions => exact inv_cleared hinv hempty hsessions
  | kept hfollows hsessions hack =>
    refine inv_kept hinv hfollows hsessions fun hopen => ?_
    rw [hfollows.sessionId] at hopen
    rw [hfollows.text]
    exact acknowledged_kept hsessions (hinv.applied hopen) hack
  | @updated c id n text hfollows happlied hsessions =>
    have hid : k.composition.sessionId = c.sessionId := by rw [happlied]; rfl
    have hmodified : k.composition.targetModified = c.targetModified := by rw [happlied]; rfl
    have htext : k.composition.text = text := by rw [happlied]; rfl
    refine ⟨divergedNow_ordinals hinv hsessions.ge, fun hopen => ?_, fun _ => ?_⟩
    · apply divergedNow_modified hinv hopen (hid.trans hfollows.sessionId) hsessions
      intro h
      rw [hmodified]
      exact hfollows.modified h
    · simp [acknowledged, htext]
  | @begun c id n text attach hidle hopened hbound hunmodified hsettled happlied hsessions =>
    have htext : k.composition.text = text := by rw [happlied]; rfl
    refine ⟨divergedNow_ordinals hinv (by omega), fun _ => divergedNow_begun hinv hsessions,
      fun _ => ?_⟩
    simp [acknowledged, htext, hsessions]

theorem step_inv {r t : EditRun} {e : Controller.Event} (hinv : r.Inv)
    (h : r.step e = some t) : t.Inv := by
  obtain ⟨k, hk, ht⟩ := Option.map_eq_some_iff.mp h
  subst ht
  by_cases hcommand : ∃ command env again, e = .command command env again
  · obtain ⟨command, env, again, rfl⟩ := hcommand
    cases hk
    exact inv_command hinv (Controller.handleCommand_moves command)
  · have hother : ∀ command env again, e ≠ .command command env again :=
      fun command env again he => hcommand ⟨command, env, again, he⟩
    have hrecord : r.record k e = ⟨k, r.divergedNow k, r.applied, none⟩ := by
      cases e with
      | command command env again => exact absurd rfl (hother command env again)
      | _ => rfl
    rw [hrecord]
    obtain ⟨hcleared | hfollows, hsessions⟩ := Controller.step_follows hother hk
    · exact inv_cleared hinv hcleared hsessions.ge
    · refine inv_kept hinv hfollows hsessions fun hopen => ?_
      rw [hfollows.sessionId] at hopen
      rw [hfollows.text]
      exact hinv.applied hopen

/-- The check reads the text that the session has acknowledged last. -/
theorem expects_checked {r : EditRun} (hinv : r.Inv) {id : String} {context : Nat} {range : Span}
    (hopen : r.controller.composition.sessionId = some id)
    (h : r.controller.Expects context range) :
    (r.controller.documents context).read range = encodeUtf16 r.applied := by
  have hne : r.controller.composition.sessionId ≠ none := by simp [hopen]
  rw [hinv.applied hne]
  exact h.2.2.text

theorem handled_sound {r : EditRun} (hinv : r.Inv) (command : TipCommand) (env again : TsfEnv) :
    Handled.Sound ⟨r.controller, r.diverged, r.applied, command,
      (r.controller.handleCommand env again command).2,
      (r.controller.handleCommand env again command).1.documents⟩ where
  replaced id n text hcommand := by
    obtain rfl : command = .update id n text := hcommand
    rcases Controller.update_documents r.controller env id n text with
      hkept | ⟨hopen, context, range, hexpects, hreplaces⟩
    · exact Or.inl hkept
    · exact Or.inr ⟨context, range, ⟨hexpects, expects_checked hinv hopen hexpects⟩, hreplaces⟩
  finished id n hcommand := by
    obtain rfl : command = .finish id n := hcommand
    refine ⟨Controller.finish_documents r.controller env id n, fun id' n' hresponse => ?_⟩
    obtain ⟨hopen, context, range, hexpects⟩ := Controller.finish_finished hresponse
    exact ⟨context, range, hexpects, expects_checked hinv hopen hexpects⟩
  refused hopen hdiverged id n text hcommand := by
    have hmodified := hinv.modified hopen hdiverged
    rcases hcommand with hupdate | hfinish
    · obtain rfl : command = .update id n text := hupdate
      obtain ⟨hkept, hrefused⟩ := Controller.update_modified env hmodified id n text
      exact ⟨congrArg Controller.documents hkept, hrefused⟩
    · obtain rfl : command = .finish id n := hfinish
      obtain ⟨hkept, hrefused⟩ := Controller.finish_modified env hmodified id n
      exact ⟨congrArg Controller.documents hkept, hrefused⟩

theorem step_handled {r t : EditRun} {e : Controller.Event} (hinv : r.Inv)
    (h : r.step e = some t) : ∀ handled, t.last = some handled → handled.Sound := by
  obtain ⟨k, hk, ht⟩ := Option.map_eq_some_iff.mp h
  subst ht
  intro handled hlast
  cases e with
  | command command env again =>
    cases hk
    cases hlast
    exact handled_sound hinv command env again
  | _ => cases hlast

/-- The divergence that `OnEndEdit` looks for is one from the acknowledged text. -/
theorem foreign_found {r t : EditRun} {context : Nat} {document : Document} {range : Span}
    {env : TsfEnv} (hinv : r.Inv) (hwatches : r.Watches context) (hreadable : env.readable = true)
    (h : r.step (.foreign context document range false env) = some t) :
    t.controller.composition.targetModified = true ∨
      t.controller.Expects context range ∧
        (t.controller.documents context).read range = encodeUtf16 t.applied := by
  have htinv := step_inv hinv h
  obtain ⟨k, hk, rfl⟩ := Option.map_eq_some_iff.mp h
  have hfollows := (Controller.foreign_follows document range false hk).1
  rcases Controller.foreign_detected hwatches.opened hwatches.sink hwatches.context
    hwatches.tracked hwatches.active hreadable hk with hmodified | hexpects
  · exact Or.inl hmodified
  · obtain ⟨id, hid⟩ := Option.ne_none_iff_exists'.mp hwatches.opened
    have hopen : k.composition.sessionId = some id := hfollows.sessionId.trans hid
    exact Or.inr ⟨hexpects, expects_checked htinv hopen hexpects⟩

/-- Whatever the user and the application do between the commands and during them. -/
theorem user_edits_kept (es : List Controller.Event) :
    Machine.Always EditRun.step Sound {} es := by
  apply Machine.always_of_invariant
    (fun r => r.Inv ∧ ∀ handled, r.last = some handled → handled.Sound) es
  · refine ⟨inv_initial, fun handled hlast => ?_⟩
    cases hlast
  · intro r h
    exact ⟨h.2, fun _ _ _ _ _ => foreign_found h.1⟩
  · intro r e t hinv h
    exact ⟨step_inv hinv.1 h, step_handled hinv.1 h⟩

end EditRun

end FlowType
