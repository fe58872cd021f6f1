import FlowType.ServedSenders

/-! Connections that have authenticated as `control`. The mode is looked at before the loop
only: their frames are dispatched like those of any other connection. -/
namespace FlowType

namespace AppState
open Machine

def TextFrame.isInput : TextFrame → Bool
  | .client (some _) => true
  | _ => false

/-- A control connection is not behind session input or an image, and it takes the input
from no other connection. -/
def ControlEffect : Effect → Prop
  | .request sender request => sender.isControl = true → request = .probeTarget
  | .clipboard _ bytes _ => bytes.isControl = false
  | .claim sender previous => sender.isControl = true →
    ∀ other ∈ previous, other.2 = sender.connectionId
  | _ => True

def ControlSilent (s : AppState) : Prop := ∀ effect ∈ s.effects, ControlEffect effect

def InputFree (s : AppState) (id : Nat) : Prop := ∀ other ∈ s.active, other.2 = id

/-- A control connection that is not superseded sends no session input and no bytes that
match its image, and what claims the input comes while no other connection has it. -/
def ControlOk (s : AppState) : Event → Prop
  | .receive id frame _ _ => ∀ c ∈ s.idleConnection id, c.isControl = true →
    s.superseded id c = false → TextFrame.isInput frame = false ∧
      (frame.isControlMessage = false → c.lease = false → s.InputFree id)
  | .receiveBytes id bytes _ => ∀ c ∈ s.idleConnection id, c.isControl = true →
    s.superseded id c = false → (c.lease = false → s.InputFree id) ∧
      ∀ image ∈ c.pendingImage, image.1.matchesBytes bytes = false
  | _ => True

instance (s : AppState) (id : Nat) : Decidable (s.InputFree id) :=
  inferInstanceAs (Decidable (∀ other ∈ s.active, other.2 = id))

instance (s : AppState) (e : Event) : Decidable (s.ControlOk e) := by
  cases e <;> unfold ControlOk <;> infer_instance

def inputMarks : Marks where
  input sender := sender.isControl = false
  probe _ := True
  header _ := True
  file _ := True

theorem inputMarks_admits {s : AppState} {id : Nat} {c : ServedConnection} {frame : TextFrame}
    (h : c.isControl = true → TextFrame.isInput frame = false) (phoneId : String)
    (paired : Bool) : inputMarks.Admits (s.sender id c) phoneId paired frame := by
  unfold Marks.Admits
  split
  · by_contra hcontrol
    have hinput := h (eq_true_of_ne_false hcontrol)
    cases hinput
  · exact fun _ _ => trivial
  · trivial
  · exact fun _ => trivial
  · trivial

theorem superseded_of_not_lease (s : AppState) (id : Nat) {c : ServedConnection}
    (h : c.lease = false) : s.superseded id c = false := by
  simp [superseded, h]

theorem controlEffect_of_explained {s : AppState} {e : Event} {effect : Effect}
    (hok : s.ControlOk e) (h : Explained inputMarks s e effect) : ControlEffect effect := by
  cases effect with
  | request sender request =>
    intro hcontrol
    rcases h with hinput | ⟨hprobe, -⟩
    · exact absurd hcontrol (ne_true_of_eq_false hinput)
    · exact hprobe
  | clipboard header bytes image =>
    obtain ⟨-, id, frame, delivered, c, rfl, hidle, hcurrent, rfl, hpending, hmatches⟩ := h
    by_contra hcontrol
    obtain ⟨-, hbytes⟩ := hok c hidle (eq_true_of_ne_false hcontrol) hcurrent
    have hrefused := hbytes (image, header) hpending
    rw [hmatches] at hrefused
    cases hrefused
  | claim sender previous =>
    intro hcontrol
    obtain ⟨rfl, id, c, hidle, hlease, rfl, hevent⟩ := h
    have hcurrent := superseded_of_not_lease s id hlease
    rcases hevent with ⟨frame, delivered, now, rfl, hframe⟩ | ⟨frame, delivered, rfl⟩
    · exact (hok c hidle hcontrol hcurrent).2 hframe hlease
    · exact (hok c hidle hcontrol hcurrent).1 hlease
  | sessionState id sessionId elsewhere => trivial
  | transfers sender => trivial
  | ticket phoneId revoked => trivial
  | authorized phoneId paired => trivial
  | added phoneId drawn => trivial

theorem step_controlSilent {verify : Verifier} {s t : AppState} {e : Event}
    (h : s.Marked inputMarks) (hok : s.ControlOk e) (hstep : step verify s e = some t) :
    t.Marked inputMarks ∧ t.ControlSilent := by
  have htraced := step_traced h (by
    rintro id frame delivered now rfl c hidle hcurrent
    exact inputMarks_admits (fun hcontrol => (hok c hidle hcontrol hcurrent).1) _ _) hstep
  exact ⟨htraced.marked, fun effect hmem =>
    controlEffect_of_explained hok (htraced.effects effect hmem)⟩

/-- Control connections submit no input in the runs in which they send none. -/
theorem control_silent (verify : Verifier) (pcId : String) (pairedPhones : PairedPhones)
    (batches : KeyedTable BatchRecord.batchId) (es : List Event)
    (h : Along (step verify) ControlOk (start pcId pairedPhones batches) es) :
    Always (step verify) ControlSilent (start pcId pairedPhones batches) es := by
  have hstart := start_marked inputMarks pcId pairedPhones batches
  have hsilent : (start pcId pairedPhones batches).ControlSilent := by
    rintro _ ⟨⟩
  apply always_of_along (Marked inputMarks) es hstart hsilent _ h
  intro s e t hmarked hok hstep
  exact step_controlSilent hmarked hok hstep

/-- The control connection is asked for its health and probes the target. -/
def controlProbeRun : List Event :=
  [.authenticate (knownAuth (some "control")) "n", .write 2 true,
    .receive 1 (.healthCheck (some { phoneId := "phone" })) true 2,
    .receive 1 (.probe (some { phoneId := "phone" })) true 2, .submit 1,
    .answer 1 (.ok .targetUnsupported) true]

theorem control_silent_probe :
    Along (step fun _ _ _ => .ok ()) ControlOk (start "pc" knownPhone .empty) controlProbeRun ∧
      Always (step fun _ _ _ => .ok ()) ControlSilent (start "pc" knownPhone .empty)
        controlProbeRun := by
  have h : Along (step fun _ _ _ => .ok ()) ControlOk (start "pc" knownPhone .empty)
      controlProbeRun := by decide
  exact ⟨h, control_silent _ _ _ _ _ h⟩

/-- The control connection starts a session beside the one of the other connection. -/
def controlStartRun : List Event :=
  let snapshot (sessionId : String) : SnapshotMessage :=
    { type := .start, phoneId := "phone", sessionId, sequence := 1, fullText := "a" }
  [.authenticate (knownAuth none) "n", .write 2 true,
    .receive 1 (.client (some (.start (snapshot "s")))) true 2, .submit 1,
    .authenticate (knownAuth (some "control")) "m", .write 2 true,
    .receive 2 (.client (some (.start (snapshot "t")))) true 2, .submit 2]

theorem controlStartRun_not_silent : ¬ Always (step fun _ _ _ => .ok ()) ControlSilent
    (start "pc" knownPhone .empty) controlStartRun := by
  intro h
  have hlast := h.last controlStartRun rfl
  have hprobe := hlast (.request ⟨2, true, false, false⟩ (.beginSession "t" none 1 "a" false))
    (by decide) rfl
  cases hprobe

end AppState

end FlowType
