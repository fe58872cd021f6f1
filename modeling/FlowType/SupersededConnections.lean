import FlowType.ServedSenders

/-! A connection whose input has been taken over: none of its messages reaches the injector
or the clipboard, but its poll of the target goes on. -/
namespace FlowType

namespace AppState
open Machine

/-- Nothing that was received on a superseded connection has led to the effect, and no poll
of one has reported on a session of the connection that has the input. -/
def CurrentEffect : Effect → Prop
  | .request sender _ => sender.superseded = false
  | .clipboard header bytes _ => header.superseded = false ∧ bytes.superseded = false
  | .sessionState _ _ elsewhere => elsewhere = false
  | _ => True

def Silent (s : AppState) : Prop := ∀ effect ∈ s.effects, CurrentEffect effect

/-- A superseded connection that has polled for a session of the connection that has the
input hears that the session is active. -/
def PollOk (s : AppState) : Event → Prop
  | .answer id result _ => ∀ c ∈ s.connections id, ∀ sessionId sender,
    c.work = some (.poll sessionId true, sender) → s.superseded id c = true →
      s.activeTracks sessionId = true → ∃ active sequence text,
        result = .ok (.sessionActive active sequence text)
  | _ => True

def currentMarks : Marks where
  input sender := sender.superseded = false
  probe sender := sender.superseded = false
  header sender := sender.superseded = false
  file _ := True

/-- Whatever is let through comes from a connection that is not superseded. -/
theorem currentMarks_admits {s : AppState} {id : Nat} {c : ServedConnection}
    (h : s.superseded id c = false) (phoneId : String) (paired : Bool) (frame : TextFrame) :
    currentMarks.Admits (s.sender id c) phoneId paired frame := by
  unfold Marks.Admits
  split
  · exact h
  · exact fun _ _ => h
  · exact h
  · exact fun _ => trivial
  · trivial

/-- The answer to a poll that is reported. -/
theorem step_answer_poll {verify : Verifier} {s t : AppState} {id : Nat} {result : DispatchResult}
    {delivered : Bool} {c : ServedConnection} {sessionId : String} {sender : Sender}
    (h : step verify s (.answer id result delivered) = some t)
    (hconnection : s.connections id = some c)
    (hwork : c.work = some (.poll sessionId true, sender))
    (hresult : ∀ active sequence text, result ≠ .ok (.sessionActive active sequence text)) :
    Effect.sessionState id sessionId (s.superseded id c && s.activeTracks sessionId) ∈
      t.effects := by
  obtain ⟨found, hfound, h⟩ := Option.bind_eq_some_iff.mp h
  obtain rfl : c = found := Option.some.inj (hconnection.symm.trans hfound)
  obtain ⟨w, hw, h⟩ := Option.bind_eq_some_iff.mp h
  obtain rfl : (Work.poll sessionId true, sender) = w := Option.some.inj (hwork.symm.trans hw)
  simp only [AppState.answer] at h
  cases h
  exact List.mem_append_right _ (List.mem_singleton_self _)

theorem answer_poll_ok {verify : Verifier} {s t : AppState} {id : Nat} {result : DispatchResult}
    {delivered : Bool} (h : step verify s (.answer id result delivered) = some t)
    (hsilent : t.Silent) : s.PollOk (.answer id result delivered) := by
  intro c hconnection sessionId sender hwork hsuperseded htracks
  by_contra hnot
  push Not at hnot
  have hreported := step_answer_poll h hconnection hwork hnot
  have hcurrent := hsilent _ hreported
  simp [CurrentEffect, hsuperseded, htracks] at hcurrent

/-- An explained effect is of a current connection, if the poll is. -/
theorem current_of_explained {s : AppState} {e : Event} {effect : Effect} (hok : s.PollOk e)
    (h : Explained currentMarks s e effect) : CurrentEffect effect := by
  cases effect with
  | request sender request =>
    rcases h with hinput | ⟨-, hprobe⟩
    · exact hinput
    · exact hprobe
  | clipboard header bytes image =>
    obtain ⟨hheader, id, frame, delivered, c, -, -, hcurrent, rfl, -, -⟩ := h
    exact ⟨hheader, hcurrent⟩
  | sessionState id sessionId elsewhere =>
    obtain ⟨result, delivered, c, sender, rfl, hconnection, hwork, hresult, rfl⟩ := h
    by_contra hnot
    have helsewhere : (s.superseded id c && s.activeTracks sessionId) = true := by
      simpa [CurrentEffect] using hnot
    obtain ⟨hsuperseded, htracks⟩ := Bool.and_eq_true_iff.mp helsewhere
    obtain ⟨active, sequence, text, hactive⟩ :=
      hok c hconnection sessionId sender hwork hsuperseded htracks
    exact hresult active sequence text hactive
  | claim sender previous => trivial
  | transfers sender => trivial
  | ticket phoneId revoked => trivial
  | authorized phoneId paired => trivial
  | added phoneId drawn => trivial

theorem step_silent {verify : Verifier} {s t : AppState} {e : Event}
    (h : s.Marked currentMarks) (hstep : step verify s e = some t) :
    (t.Silent ↔ s.PollOk e) ∧ t.Marked currentMarks := by
  have htraced := step_traced h (fun id frame delivered now _ c _ hcurrent =>
    currentMarks_admits hcurrent c.phoneId _ frame) hstep
  refine ⟨⟨?_, fun hok effect hmem => current_of_explained hok (htraced.effects effect hmem)⟩,
    htraced.marked⟩
  intro hsilent
  cases e with
  | answer id result delivered => exact answer_poll_ok hstep hsilent
  | _ => trivial

/-- Superseded connections are silent exactly in the runs in which their polls for a session
of the connection that has the input hear that the session is active. -/
theorem superseded_silent (verify : Verifier) (pcId : String) (pairedPhones : PairedPhones)
    (batches : KeyedTable BatchRecord.batchId) (es : List Event) :
    Always (step verify) Silent (start pcId pairedPhones batches) es ↔
      Along (step verify) PollOk (start pcId pairedPhones batches) es := by
  have hstart := start_marked currentMarks pcId pairedPhones batches
  have hsilent : (start pcId pairedPhones batches).Silent := by
    rintro _ ⟨⟩
  apply always_iff_along (Marked currentMarks) es hstart hsilent
  intro s e t hmarked _ hstep
  obtain ⟨hiff, ht⟩ := step_silent hmarked hstep
  exact ⟨hiff, fun _ => ht⟩

/-- The phone connects once more and resumes its session. The user clicks into the target, and
the poll of the old connection is the first one to hear that the session has ended. -/
def reconnectedRun : List Event :=
  let snapshot : SnapshotMessage :=
    { type := .start, phoneId := "phone", sessionId := "s", sequence := 1, fullText := "a" }
  let resume : ResumeMessage :=
    { phoneId := "phone"
      sessionId := "s"
      lastAckSequence := 1
      sequence := 2
      fullText := "ab"
      sessionState := .active }
  [.authenticate (knownAuth none) "n", .write 2 true,
    .receive 1 (.client (some (.start snapshot))) true 2, .submit 1,
    .answer 1 (.ok (.sessionBegun "Editor")) true, .submit 1, .answer 1 (.ok (.applied 1)) true,
    .authenticate (knownAuth none) "m", .write 3 true,
    .receive 2 (.client (some (.resume resume))) true 3, .submit 2,
    .answer 2 (.ok (.applied 2)) true,
    .tick 1, .submit 1, .answer 1 (.ok .targetModified) true]

theorem reconnectedRun_not_silent : ¬ Always (step fun _ _ _ => .ok ()) Silent
    (start "pc" knownPhone .empty) reconnectedRun := by
  intro h
  have hlast := h.last reconnectedRun rfl
  have hcurrent := hlast (.sessionState 1 "s" true) (by decide)
  cases hcurrent

end AppState

end FlowType
