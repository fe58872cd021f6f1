import FlowType.UploadResume

/-! Entries that the phone cannot complete any more: those that were given up without their staged
bytes, and empty ones that were renamed without being recorded. All others it gets through. -/
namespace FlowType

open Threads

structure Storage.Lost (committed : Nat) (d : Storage) : Prop where
  not_completed : d.progress.state ≠ .completed
  committed_eq : d.progress.committedOffset = committed
  target : d.target = none
  short : ∀ file, d.part = some file → (d.files file).bytes.length < committed

structure Storage.Blocked (state : BatchState) (d : Storage) : Prop where
  not_canceled : state ≠ .canceled
  not_completed : d.progress.state ≠ .completed
  part : d.part.isSome = true
  target : d.target.isSome = true

namespace Stage

def Loses (committed : Nat) : Stage → Prop
  | .opening offset _ | .failing offset => offset = committed
  | .opened _ _ _ | .receiving _ _ _ | .persisting _ _ _ | .recording _ _ _ | .ending _ _ _
  | .finishing _ _ _ | .compared _ _ | .committing _ | .completing _ => False
  | _ => True

def Blocks : Stage → Prop
  | .authorized r | .checked r | .leased r => r ≠ .failure
  | .comparing _ _ staged | .compared _ staged => staged = true
  | .completing _ | .failing _ | .discarding | .sweeping _ | .canceling | .withdrawing
  | .clearing => False
  | _ => True

instance : DecidablePred Blocks := fun s => by
  cases s <;> unfold Blocks <;> infer_instance

end Stage

/-- What holds after a step of a thread. -/
def StageEffect.Keeps (J : BatchState → Storage → Prop) (Q : Stage → Prop) (e : StageEffect) :
    Prop :=
  J e.port.state e.port.storage ∧ Q e.next

namespace EntryPort
variable {hashFile : List UInt8 → String} {entry : ManifestEntry} {p : EntryPort}
  {J : BatchState → Storage → Prop} {Q : Stage → Prop}

theorem keeps_orFail {failed : Answer → Stage} {input : Input} {effect : StageEffect}
    (h : J p.state p.storage) (hfailed : ∀ answer, Q (failed answer)) (heffect : effect.Keeps J Q) :
    (p.orFail failed input effect).Keeps J Q := by
  rcases orFail_cases p failed input effect with ⟨code, hcode⟩ | hcode
  · rw [hcode]
    exact ⟨h, hfailed _⟩
  · rw [hcode]
    exact heffect

theorem state_pollVerification (p : EntryPort) (hash : String) :
    (p.pollVerification hash).port.state = p.state :=
  congrArg BatchView.state (pollVerification_keeps p hash).2

theorem keeps_pollVerification (h : J p.state p.storage) (hreleasing : ∀ answer, Q (.releasing answer))
    (hash : String) : (p.pollVerification hash).Keeps J Q := by
  constructor
  · rw [state_pollVerification, (pollVerification_keeps _ _).1]
    exact h
  · unfold pollVerification
    split
    · split
      · exact hreleasing _
      · split <;> exact hreleasing _
    · exact hreleasing _

section Lost
variable {c : Nat}

theorem loses_concluded (runner : Runner) (answer : Answer) :
    (runner.concluded answer).Loses c := by
  cases runner <;> trivial

theorem lost_serve (h : p.storage.Lost c) (r : Request) :
    (p.serve entry .phoneToComputer r).Keeps (fun _ => Storage.Lost c) (Stage.Loses c) := by
  cases r with
  | head => exact ⟨h, trivial⟩
  | upload offset deferredHash =>
    rw [serve, serveUpload]
    split_ifs with h₁ h₂ h₃ h₄ h₅
    · exact ⟨h, trivial⟩
    · exact ⟨h, trivial⟩
    · exact ⟨h, trivial⟩
    · exact ⟨h, trivial⟩
    · exact ⟨h, trivial⟩
    · exact ⟨h, (not_not.1 h₃).trans h.committed_eq⟩
  | verify hash async =>
    cases async with
    | true =>
      exact keeps_pollVerification (J := fun _ => Storage.Lost c) h (fun _ => trivial) hash
    | false => exact ⟨h, trivial⟩
  | failure =>
    rw [serve]
    split
    · exact ⟨h, h.committed_eq⟩
    · exact ⟨h, trivial⟩
  | other => exact ⟨h, trivial⟩

/-- The staged file is too short for the recorded offset. -/
theorem lost_openStaged (h : p.storage.Lost c) (hpos : 0 < c) (deferredHash : Bool) :
    (p.openStaged c deferredHash).Keeps (fun _ => Storage.Lost c) (Stage.Loses c) := by
  have hopened : p.openPart.1.storage.Lost c ∧
      (p.openPart.1.files p.openPart.2).bytes.length < c := by
    cases hpart : p.part with
    | some file =>
      rw [openPart_of_some hpart]
      exact ⟨h, h.short file hpart⟩
    | none =>
      have hempty : (Function.update p.files p.nextFile {} p.nextFile).bytes.length < c := by
        rw [Function.update_self]
        exact hpos
      rw [openPart_of_none hpart]
      refine ⟨⟨h.not_completed, h.committed_eq, h.target, ?_⟩, hempty⟩
      intro file hfile
      obtain rfl := Option.some.inj hfile
      exact hempty
  rw [openStaged, if_pos hopened.2]
  exact ⟨hopened.1, trivial⟩

theorem lost_compareFile (h : p.storage.Lost c) (hle : c ≤ entry.size) (runner : Runner)
    (hash : String) (staged : Bool) :
    (p.compareFile hashFile entry runner hash staged).Keeps (fun _ => Storage.Lost c)
      (Stage.Loses c) := by
  rw [compareFile]
  split
  · exact ⟨h, loses_concluded _ _⟩
  · rename_i file hfile
    cases staged with
    | true =>
      have hshort : (p.files file).bytes.length < c := h.short file hfile
      rw [if_pos (.inl (by omega))]
      exact ⟨h, loses_concluded _ _⟩
    | false => exact absurd (h.target.symm.trans hfile) (Option.some_ne_none file).symm

variable (hashFile) in
theorem lost_step (hpos : 0 < c) (hle : c ≤ entry.size) (h : p.storage.Lost c) (input : Input)
    {s : Stage} (hs : s.Loses c) :
    (p.step hashFile entry .phoneToComputer input s).Keeps (fun _ => Storage.Lost c)
      (Stage.Loses c) := by
  have horFail : ∀ {failed : Answer → Stage} {effect : StageEffect},
      (∀ answer, (failed answer).Loses c) →
      effect.Keeps (fun _ => Storage.Lost c) (Stage.Loses c) →
      (p.orFail failed input effect).Keeps (fun _ => Storage.Lost c) (Stage.Loses c) :=
    fun hfailed heffect => keeps_orFail (J := fun _ => Storage.Lost c) h hfailed heffect
  -- the staged file may go, the record stays
  have hunstaged : Storage.Lost c { p.storage with part := none } := by
    refine ⟨h.not_completed, h.committed_eq, h.target, ?_⟩
    intro file hfile
    cases hfile
  have hcleaned : (p.cleanupPartialFiles .phoneToComputer).storage.Lost c := by
    rw [cleanupPartialFiles]
    split
    · exact hunstaged
    · exact h
  cases s with
  | authorized r =>
    rw [step]
    split <;> exact ⟨h, trivial⟩
  | checked r =>
    rw [step]
    split <;> exact ⟨h, trivial⟩
  | leased r => exact horFail (fun _ => trivial) (lost_serve h r)
  | opening offset deferredHash =>
    obtain rfl : offset = c := hs
    exact horFail (fun _ => trivial) (lost_openStaged h hpos deferredHash)
  | verifying runner hash =>
    refine horFail (loses_concluded runner) ?_
    rw [startVerification]
    split_ifs with h₁ h₂ h₃
    · exact ⟨h, loses_concluded _ _⟩
    · cases h₂
    · exact ⟨h, loses_concluded _ _⟩
    · exact ⟨h, trivial⟩
  | comparing runner hash staged =>
    exact horFail (loses_concluded runner) (lost_compareFile h hle runner hash staged)
  | settling result => exact ⟨h, trivial⟩
  | failing offset =>
    obtain rfl : offset = c := hs
    refine horFail (fun _ => trivial) ⟨⟨?_, rfl, h.target, h.short⟩, ?_⟩
    · exact EntryState.noConfusion
    · dsimp only
      split <;> trivial
  | discarding => exact ⟨hunstaged, trivial⟩
  | releasing answer => exact ⟨h, trivial⟩
  | released answer =>
    rw [step]
    split <;> exact ⟨h, trivial⟩
  | sweeping answer => exact ⟨hcleaned, trivial⟩
  | offering => exact ⟨h, trivial⟩
  | canceling =>
    rw [step]
    split <;> exact ⟨h, trivial⟩
  | withdrawing => exact ⟨h, trivial⟩
  | clearing => exact ⟨hcleaned, trivial⟩
  | answered answer => exact ⟨h, trivial⟩
  | _ => exact hs.elim

end Lost

section Blocked

theorem blocks_concluded (runner : Runner) (answer : Answer) :
    (runner.concluded answer).Blocks := by
  cases runner <;> trivial

theorem blocked_serve (h : p.storage.Blocked p.state) {r : Request} (hr : r ≠ .failure) :
    (p.serve entry .phoneToComputer r).Keeps Storage.Blocked Stage.Blocks := by
  cases r with
  | head => exact ⟨h, trivial⟩
  | upload offset deferredHash =>
    rw [serve, serveUpload]
    split_ifs <;> exact ⟨h, trivial⟩
  | verify hash async =>
    cases async with
    | true => exact keeps_pollVerification h (fun _ => trivial) hash
    | false => exact ⟨h, trivial⟩
  | failure => exact absurd rfl hr
  | other => exact ⟨h, trivial⟩

theorem blocked_openStaged (h : p.storage.Blocked p.state) (offset : Nat) (deferredHash : Bool) :
    (p.openStaged offset deferredHash).Keeps Storage.Blocked Stage.Blocks := by
  obtain ⟨file, hpart⟩ := Option.isSome_iff_exists.1 h.part
  rw [openStaged, openPart_of_some hpart]
  split <;> exact ⟨⟨h.not_canceled, h.not_completed, h.part, h.target⟩, trivial⟩

theorem blocked_receive (h : p.storage.Blocked p.state) (file received : Nat)
    (hashed : Option (List UInt8)) (input : Input) :
    (p.receive entry file received hashed input).Keeps Storage.Blocked Stage.Blocks := by
  cases input with
  | frame data persist =>
    rw [receive, receiveFrame]
    split
    · exact ⟨h, trivial⟩
    · split
      · exact ⟨h, trivial⟩
      · refine ⟨⟨h.not_canceled, h.not_completed, h.part, h.target⟩, ?_⟩
        dsimp only
        split <;> trivial
  | _ => exact ⟨h, trivial⟩

variable (hashFile) in
theorem blocked_step (h : p.storage.Blocked p.state) (input : Input) {s : Stage} (hs : s.Blocks) :
    (p.step hashFile entry .phoneToComputer input s).Keeps Storage.Blocked Stage.Blocks := by
  have hwritten : ∀ state committed, state ≠ .completed →
      (p.writeProgress state committed).storage.Blocked (p.writeProgress state committed).state :=
    fun state committed hstate => ⟨h.not_canceled, hstate, h.part, h.target⟩
  have hsynced : ∀ file data,
      (p.setFile file data).storage.Blocked (p.setFile file data).state :=
    fun file data => ⟨h.not_canceled, h.not_completed, h.part, h.target⟩
  cases s with
  | authorized r =>
    rw [step]
    split
    · exact ⟨h, trivial⟩
    · exact ⟨h, hs⟩
  | checked r =>
    rw [step]
    split
    · exact ⟨h, trivial⟩
    · exact ⟨h, hs⟩
  | leased r => exact keeps_orFail h (fun _ => trivial) (blocked_serve h hs)
  | opening offset deferredHash =>
    exact keeps_orFail h (fun _ => trivial) (blocked_openStaged h offset deferredHash)
  | opened file offset deferredHash =>
    exact keeps_orFail h (fun _ => trivial) ⟨hwritten _ _ EntryState.noConfusion, trivial⟩
  | receiving file received hashed => exact blocked_receive h file received hashed input
  | persisting file received hashed =>
    exact keeps_orFail h (fun _ => trivial) ⟨hsynced _ _, trivial⟩
  | recording file received hashed =>
    exact keeps_orFail h (fun _ => trivial) ⟨hwritten _ _ EntryState.noConfusion, trivial⟩
  | ending file received hashed =>
    exact keeps_orFail h (fun _ => trivial) ⟨hsynced _ _, trivial⟩
  | finishing file received hashed =>
    refine keeps_orFail h (fun _ => trivial) ?_
    rw [finishBody]
    split
    · exact ⟨hwritten _ _ EntryState.noConfusion, trivial⟩
    · split
      · exact ⟨h, trivial⟩
      · exact ⟨hwritten _ _ EntryState.noConfusion, trivial⟩
  | verifying runner hash =>
    refine keeps_orFail h (blocks_concluded runner) ?_
    rw [startVerification]
    split_ifs with h₁ h₂ h₃
    · exact ⟨h, blocks_concluded _ _⟩
    · cases h₂
    · exact ⟨h, blocks_concluded _ _⟩
    · exact ⟨h, h.part⟩
  | comparing runner hash staged =>
    refine keeps_orFail h (blocks_concluded runner) ?_
    rw [compareFile]
    split
    · exact ⟨h, blocks_concluded _ _⟩
    · split
      · exact ⟨h, blocks_concluded _ _⟩
      · exact ⟨h, hs⟩
  | compared runner staged =>
    obtain rfl : staged = true := hs
    rw [step, checkTicket]
    split
    · exact ⟨h, blocks_concluded _ _⟩
    · exact ⟨h, trivial⟩
  | committing runner =>
    refine keeps_orFail h (blocks_concluded runner) ?_
    have htaken : p.target.isSome = true := h.target
    rw [commitPart, if_pos htaken]
    exact ⟨h, blocks_concluded _ _⟩
  | settling result => exact ⟨h, trivial⟩
  | releasing answer => exact ⟨h, trivial⟩
  | released answer =>
    rw [step, if_neg h.not_canceled]
    exact ⟨h, trivial⟩
  | offering => exact ⟨h, trivial⟩
  | answered answer => exact ⟨h, trivial⟩
  | _ => exact hs.elim

end Blocked

variable (hashFile entry) in
/-- While a result waits, the phone is not told the offset. -/
theorem runStage_head_busy (h : p.verification.isSome = true) :
    p.runStage hashFile entry .phoneToComputer [.go, .go, .go, .go, .go] (.authorized .head) =
      some (p, .answered (.error "transfer_busy")) := by
  have hbusy : p.step hashFile entry .phoneToComputer .go (.authorized .head) =
      { port := p, next := .answered (.error "transfer_busy") } := by
    rw [step, if_pos ⟨rfl, h⟩]
  rw [runStage_cons hbusy]
  rfl

end EntryPort

namespace PortWorld

section
variable (hashFile : List UInt8 → String) (entry : ManifestEntry)

/-- What confines an entry: no event that is considered leads out of `J`, and no thread that is
in `Q` leaves `Q`. -/
structure Confines (ok : PortEvent → Prop) (J : BatchState → Storage → Prop) (Q : Stage → Prop) :
    Prop where
  answered : ∀ answer, Q (.answered answer)
  offering : Q .offering
  job : ∀ hash, Q (.verifying .job hash)
  request : ∀ thread r, ok (.request thread r) → Q (.authorized r)
  cancel : ∀ thread, ok (.cancel thread) → Q .canceling ∧ Q .withdrawing
  move : ∀ state state' d, state' ≠ .canceled → J state d → J state' d
  sweep : ∀ d, J .canceled d → J .canceled { d with part := none }
  crash : ∀ state d junk, J state d → J state (d.powerFailure junk)
  step : ∀ (p : EntryPort) (input : Input) (s : Stage), J p.state p.storage → Q s →
    (p.step hashFile entry .phoneToComputer input s).Keeps J Q

end

section
variable {hashFile : List UInt8 → String} {entry : ManifestEntry} {ok : PortEvent → Prop}
  {J : BatchState → Storage → Prop} {Q : Stage → Prop} {w w' : PortWorld}

theorem confines_step (h : Confines hashFile entry ok J Q)
    (hJ : J w.port.state w.port.storage) (hQ : All w.threads Q) {e : PortEvent} (hok : ok e)
    (hs : w.step hashFile entry .phoneToComputer e = some w') :
    J w'.port.state w'.port.storage ∧ All w'.threads Q := by
  have hstart : ∀ {thread : Nat} {stage : Stage}, w.start thread stage = some w' → Q stage →
      J w'.port.state w'.port.storage ∧ All w'.threads Q := by
    intro thread stage hstarted hstage
    obtain ⟨hport, hthreads⟩ := start_threads hstarted
    rw [hport, hthreads]
    exact ⟨hJ, hQ.update hstage⟩
  cases e with
  | request thread r =>
    rw [step] at hs
    split at hs
    · exact hstart hs (h.request thread r hok)
    · exact hstart hs (h.answered _)
  | offer thread =>
    rw [step] at hs
    split at hs
    · exact hstart hs (h.answered _)
    · exact hstart hs h.offering
  | cancel thread =>
    rw [step] at hs
    split at hs
    · exact hstart hs (h.cancel thread hok).2
    · exact hstart hs (h.cancel thread hok).1
  | step thread input fresh =>
    obtain ⟨stage, hstage, -, rfl⟩ := step_thread_eq hs
    obtain ⟨hkept, hnext⟩ := h.step w.port input stage hJ (hQ thread stage hstage)
    rcases EntryPort.spawned_cases hashFile entry .phoneToComputer w.port input stage with
      hspawned | ⟨hash, -, hspawned⟩
    · rw [stepThread_of_not_spawned hspawned]
      exact ⟨hkept, hQ.update hnext⟩
    · rw [stepThread_of_spawned hspawned]
      exact ⟨hkept, (hQ.update hnext).update (h.job hash)⟩
  | move next =>
    rw [step] at hs
    split at hs
    · rename_i hmove
      cases hs
      exact ⟨h.move _ _ _ hmove.2 hJ, hQ⟩
    · cases hs
  | prepare =>
    rw [step] at hs
    split at hs
    · cases hs
    · cases hs
      exact ⟨hJ, hQ⟩
  | withdraw =>
    cases hs
    exact ⟨hJ, hQ⟩
  | prune =>
    cases hs
    exact ⟨hJ, hQ⟩
  | sweep =>
    rw [step] at hs
    split at hs
    · rename_i hcanceled
      cases hs
      refine ⟨?_, hQ⟩
      dsimp only
      rw [EntryPort.cleanupPartialFiles]
      split
      · change J w.port.state { w.port.storage with part := none }
        rw [hcanceled] at hJ ⊢
        exact h.sweep _ hJ
      · exact hJ
    · cases hs
  | tick seconds =>
    cases hs
    exact ⟨hJ, hQ⟩
  | powerFailure junk =>
    cases hs
    exact ⟨h.crash _ _ junk hJ, all_empty⟩

theorem Confines.run (h : Confines hashFile entry ok J Q) (hJ : J w.port.state w.port.storage)
    (hQ : All w.threads Q) {es : List PortEvent} (hok : ∀ e ∈ es, ok e)
    (hrun : Machine.run (PortWorld.step hashFile entry .phoneToComputer) w es = some w') :
    J w'.port.state w'.port.storage := by
  induction es generalizing w with
  | nil =>
    cases hrun
    exact hJ
  | cons e es ih =>
    obtain ⟨u, hu, hrest⟩ := Option.bind_eq_some_iff.1 hrun
    obtain ⟨hJ', hQ'⟩ := confines_step h hJ hQ (hok e List.mem_cons_self) hu
    exact ih hJ' hQ' (fun d hd => hok d (List.mem_cons_of_mem e hd)) hrest

theorem confines_lost {c : Nat} (hpos : 0 < c) (hle : c ≤ entry.size) :
    Confines hashFile entry (fun _ => True) (fun _ => Storage.Lost c) (Stage.Loses c) where
  answered _ := trivial
  offering := trivial
  job _ := trivial
  request _ _ _ := trivial
  cancel _ _ := ⟨trivial, trivial⟩
  move _ _ _ _ h := h
  sweep d h := by
    refine ⟨h.not_completed, h.committed_eq, h.target, ?_⟩
    intro file hfile
    cases hfile
  crash _ d junk h := by
    refine ⟨h.not_completed, h.committed_eq, h.target, ?_⟩
    intro file hfile
    exact (Storage.length_powerFailure_le _ _).trans_lt (h.short file hfile)
  step _ input _ hJ hQ := EntryPort.lost_step hashFile hpos hle hJ input hQ

/-- Nobody cancels the batch or gives the entry up. -/
def GoesOn : PortEvent → Prop
  | .request _ r => r ≠ .failure
  | .cancel _ => False
  | _ => True

theorem confines_blocked : Confines hashFile entry GoesOn Storage.Blocked Stage.Blocks where
  answered _ := trivial
  offering := trivial
  job _ := trivial
  request _ _ hok := hok
  cancel _ hok := hok.elim
  move _ _ _ hstate h := ⟨hstate, h.not_completed, h.part, h.target⟩
  sweep _ h := absurd rfl h.not_canceled
  crash _ _ _ h := ⟨h.not_canceled, h.not_completed, h.part, h.target⟩
  step _ input _ hJ hQ := EntryPort.blocked_step hashFile hJ input hQ

/-- Whatever happens to a lost entry, it is never completed. -/
theorem lost_forever {c : Nat} (hpos : 0 < c) (hle : c ≤ entry.size) (hquiet : w.Quiet)
    (hlost : w.port.storage.Lost c) {es : List PortEvent}
    (hrun : Machine.run (PortWorld.step hashFile entry .phoneToComputer) w es = some w') :
    w'.port.storage.Lost c := by
  refine (confines_lost hpos hle).run hlost ?_ (fun _ _ => trivial) hrun
  intro i s hi
  obtain ⟨answer, rfl⟩ := hquiet i s hi
  trivial

theorem goesOn_feeds (thread fresh : Nat) (inputs : List Input) :
    ∀ e ∈ feeds thread fresh inputs, GoesOn e := by
  intro e he
  obtain ⟨input, -, rfl⟩ := List.mem_map.1 he
  trivial

theorem goesOn_verifies (hash : String) (n : Nat) : ∀ e ∈ verifies hash n, GoesOn e := by
  intro e he
  simp only [verifies, List.mem_append, List.mem_cons] at he
  rcases he with (((rfl | he) | rfl | he) | he) | rfl | he
  · exact Request.noConfusion
  · exact goesOn_feeds _ _ _ e he
  · trivial
  · exact goesOn_feeds _ _ _ e he
  · exact goesOn_feeds _ _ _ e he
  · exact Request.noConfusion
  · exact goesOn_feeds _ _ _ e he

end

section
variable (hashFile : List UInt8 → String) (entry : ManifestEntry) (content : List UInt8)

/-- What an upload may meet: no request takes the entry while a job of it runs, and all that comes
in is from the phone. -/
def UploadOk (w : PortWorld) (e : PortEvent) : Prop :=
  w.TakesFreeEntry e ∧ w.FromPhone hashFile entry content e

instance (w : PortWorld) (e : PortEvent) : Decidable (w.UploadOk hashFile entry content e) :=
  inferInstanceAs (Decidable (_ ∧ _))

/-- The phone comes back, is told the offset, sends the rest and verifies; then the entry is
complete. -/
def GetsThrough (w : PortWorld) (n : Nat) : Prop :=
  ∃ offset w₁ w₂,
    Machine.run (step hashFile entry .phoneToComputer) w (comesBack n) = some w₁ ∧
    w₁.threads (n + 1) = some (.answered (.offset offset entry.size)) ∧
    Machine.run (step hashFile entry .phoneToComputer) w₁
      (goesOn entry.size content (hashFile content) (n + 2) offset) = some w₂ ∧
    w₂.threads (n + 5) = some (.answered .verified) ∧
    w₂.port.progress = { state := .completed, committedOffset := entry.size }

/-- What is recovered from a state that a crash or a broken connection has left. -/
structure Recovers (w : PortWorld) : Prop where
  target : ∀ file, w.port.target = some file →
    (w.port.files file).bytes.length = entry.size ∧
      hashFile (w.port.files file).bytes = hashFile content
  kept : ∀ e w', w.UploadOk hashFile entry content e →
    w.step hashFile entry .phoneToComputer e = some w' → w'.port.state.isTerminal = false →
      ∀ file, w.port.target = some file →
        w'.port.target = some file ∧ w'.port.files file = w.port.files file
  /-- A file that was renamed and not recorded is recognised. -/
  renamed : w.Quiet → w.port.verification = none → w.port.part = none →
    w.port.target.isSome = true → ∃ n w₁ w₂,
      Machine.run (step hashFile entry .phoneToComputer) w (comesBack n) = some w₁ ∧
      Machine.run (step hashFile entry .phoneToComputer) w₁ (verifies (hashFile content) (n + 2)) =
        some w₂ ∧
      w₂.threads (n + 4) = some (.answered .verified) ∧
      w₂.port.progress = { state := .completed, committedOffset := entry.size }
  bounded : ∃ n, ∀ i ≥ n, w.threads i = none
  resumes : w.Quiet → ∀ n, (∀ i ≥ n, w.threads i = none) →
    (GetsThrough hashFile entry content w n ↔
      w.port.verification = none ∧ Resumable entry.size w.port.storage)

end

section
variable {hashFile : List UInt8 → String} {entry : ManifestEntry} {content : List UInt8}
  {w : PortWorld} {n : Nat}

theorem GetsThrough.not_verifying (h : GetsThrough hashFile entry content w n)
    (hopen : w.port.state.isTerminal = false) (hbeyond : ∀ i ≥ n, w.threads i = none) :
    w.port.verification = none := by
  by_contra hjob
  have hsome : w.port.verification.isSome = true := Option.isSome_iff_ne_none.2 hjob
  obtain ⟨offset, w₁, -, hrun₁, hanswer, -⟩ := h
  obtain ⟨w₁', hrun, hbusy, -⟩ := run_comesBack_of hopen hbeyond
    (EntryPort.runStage_head_busy hashFile entry hsome)
  obtain rfl : w₁ = w₁' := Option.some.inj (hrun₁.symm.trans hrun)
  have hsame := hanswer.symm.trans hbusy
  cases hsame

/-- The phone does not get through to a lost entry, nor to one whose empty file was renamed. -/
theorem GetsThrough.resumable (h : GetsThrough hashFile entry content w n)
    (hopen : w.port.state.isTerminal = false) (hoperation : w.port.operation = false)
    (hcontent : content.length = entry.size) (hstaging : w.port.storage.StagingInv entry.size)
    (hupload : w.port.storage.UploadInv hashFile entry.size content) (hquiet : w.Quiet)
    (hbeyond : ∀ i ≥ n, w.threads i = none) : Resumable entry.size w.port.storage := by
  have hverification := h.not_verifying hopen hbeyond
  obtain ⟨offset, w₁, w₂, hrun₁, hanswer, hrun₂, -, hprogress⟩ := h
  obtain ⟨w₁', hrun, hoffset, hready, hstorage, hbeyond₁, hquiets⟩ :=
    run_comesBack hashFile entry hopen hoperation hverification hbeyond
  obtain rfl : w₁ = w₁' := Option.some.inj (hrun₁.symm.trans hrun)
  have hcompleted : w₂.port.storage.progress.state = .completed := by
    rw [show w₂.port.storage.progress = w₂.port.progress from rfl, hprogress]
  constructor
  · intro hgiven hnot htarget hpos
    by_contra hshort
    have hlost : w.port.storage.Lost w.port.storage.progress.committedOffset := by
      refine ⟨hnot, rfl, htarget, ?_⟩
      intro file hpart
      by_contra hlong
      exact hshort ⟨file, hpart, not_lt.1 hlong⟩
    have hall : Machine.run (step hashFile entry .phoneToComputer) w
        (comesBack n ++ goesOn entry.size content (hashFile content) (n + 2) offset) = some w₂ := by
      rw [Machine.run_append, hrun₁, Option.bind_some, hrun₂]
    have hend := lost_forever hpos hstaging.committed_le hquiet hlost hall
    exact hend.not_completed hcompleted
  · intro htarget hnot
    by_contra hempty
    have hzero : w₁.port.progress.committedOffset = 0 := by
      have hall : w₁.port.storage.progress.committedOffset = entry.size := by
        rw [hstorage]
        exact hupload.all_recorded htarget
      exact hall.trans (by omega)
    obtain rfl : offset = w₁.port.progress.committedOffset := by
      have hsame := Option.some.inj (hanswer.symm.trans hoffset)
      have hrecorded : w₁.port.storage.progress = w.port.storage.progress :=
        congrArg Storage.progress hstorage
      injection hsame with hsame
      injection hsame with hsame
      exact hsame.trans (congrArg EntryProgress.committedOffset hrecorded).symm
    rw [← hstorage] at hstaging hupload htarget hnot
    -- the upload stages an empty file beside the target
    obtain ⟨q, file, hupl, hreadyq, htargetq, hprogressq, hpartq, -⟩ :=
      EntryPort.runStage_upload hready hstaging hupload hcontent hnot (.inr hzero)
        (fits_of_none_recorded hzero)
    obtain ⟨w₃, hrun₃, hport₃, hown₃, hothers₃⟩ :=
      run_request hready.serves (hbeyond₁ (n + 2) le_rfl) (hbeyond₁ (n + 3) (by omega)) (by omega)
        hupl
    have hblocked : w₃.port.storage.Blocked w₃.port.state := by
      rw [hport₃]
      refine ⟨EntryPort.not_canceled hreadyq.serves, ?_, ?_, ?_⟩
      · rw [show q.storage.progress = q.progress from rfl, hprogressq]
        exact EntryState.noConfusion
      · rw [show q.storage.part = q.part from rfl, hpartq]
        rfl
      · rw [show q.storage.target = q.target from rfl, htargetq]
        exact htarget
    have hquiet₃ : All w₃.threads Stage.Blocks := by
      intro i s hi
      by_cases hown : i = n + 2
      · rw [hown, hown₃] at hi
        obtain rfl := Option.some.inj hi
        trivial
      · rw [hothers₃ i hown] at hi
        obtain ⟨answer, rfl⟩ := hquiets hquiet i s hi
        trivial
    rw [goesOn, if_neg (by omega), Machine.run_append, hrun₃, Option.bind_some] at hrun₂
    have hend := confines_blocked.run hblocked hquiet₃ (goesOn_verifies _ _) hrun₂
    exact hend.not_completed hcompleted

end

def emptyFile : ManifestEntry :=
  { ordinal := 0, entryId := "f", relativePath := ['f'], kind := .file }

end PortWorld

end FlowType
