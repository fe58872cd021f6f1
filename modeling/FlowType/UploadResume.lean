import FlowType.UploadRecovery

/-! What the phone does when it comes back: it asks for the offset, sends what is missing and
verifies. Nothing else happens meanwhile. -/
namespace FlowType

open Threads

structure BatchView.Serves (b : BatchView) : Prop where
  not_terminal : b.state.isTerminal = false
  ticket : b.ticket.any (b.now < ·) = true
  prepared : b.prepared = true

/-- The staged file has the recorded bytes, or none are recorded and there is no such file. -/
def Storage.Fits (d : Storage) : Prop :=
  (∃ file, d.part = some file ∧ d.Holds file d.progress.committedOffset) ∨
    d.part = none ∧ d.progress.committedOffset = 0

namespace EntryPort

section
variable (hashFile : List UInt8 → String) (entry : ManifestEntry) (direction : TransferDirection)

def runStage (p : EntryPort) : List Input → Stage → Option (EntryPort × Stage)
  | [], s => some (p, s)
  | input :: inputs, s =>
    let effect := p.step hashFile entry direction input s
    if effect.spawned.isSome then none else effect.port.runStage inputs effect.next

end

structure Ready (p : EntryPort) : Prop where
  operation : p.operation = false
  verification : p.verification = none
  serves : p.batch.Serves

section
variable {hashFile : List UInt8 → String} {entry : ManifestEntry} {content : List UInt8}
  {p p' : EntryPort}

theorem not_canceled (h : p.batch.Serves) : p.state ≠ .canceled := by
  intro hcanceled
  have hopen : p.state.isTerminal = false := h.not_terminal
  rw [hcanceled] at hopen
  cases hopen

theorem runStage_cons {input : Input} {inputs : List Input} {s s' : Stage}
    (h : p.step hashFile entry .phoneToComputer input s = { port := p', next := s' }) :
    p.runStage hashFile entry .phoneToComputer (input :: inputs) s =
      p'.runStage hashFile entry .phoneToComputer inputs s' := by
  simp only [runStage, h]
  rfl

variable (hashFile entry) in
theorem runStage_enter (hfree : p.operation = false) {r : Request}
    (hjob : r.isVerify = true ∨ p.verification = none) (inputs : List Input) :
    p.runStage hashFile entry .phoneToComputer (.go :: .go :: inputs) (.authorized r) =
      { p with operation := true }.runStage hashFile entry .phoneToComputer inputs (.leased r) := by
  have hauthorized : p.step hashFile entry .phoneToComputer .go (.authorized r) =
      { port := p, next := .checked r } := by
    rw [step, if_neg]
    rintro ⟨hnot, hsome⟩
    rcases hjob with hverify | hnone
    · rw [hverify] at hnot
      cases hnot
    · rw [hnone] at hsome
      cases hsome
  have hchecked : p.step hashFile entry .phoneToComputer .go (.checked r) =
      { port := { p with operation := true }, next := .leased r } := by
    rw [step, if_neg (by simp [hfree])]
  rw [runStage_cons hauthorized, runStage_cons hchecked]

theorem runStage_released (h : p.batch.Serves) (answer : Answer) (inputs : List Input) :
    p.runStage hashFile entry .phoneToComputer (.go :: inputs) (.released answer) =
      p.runStage hashFile entry .phoneToComputer inputs (.answered answer) := by
  have hreleased : p.step hashFile entry .phoneToComputer .go (.released answer) =
      { port := p, next := .answered answer } := by
    rw [step, if_neg (not_canceled h)]
  exact runStage_cons hreleased

variable (hashFile entry) in
theorem runStage_leave (h : p.batch.Serves) (answer : Answer) (inputs : List Input) :
    p.runStage hashFile entry .phoneToComputer (.go :: .go :: inputs) (.releasing answer) =
      { p with operation := false }.runStage hashFile entry .phoneToComputer inputs
        (.answered answer) :=
  (runStage_cons rfl).trans (runStage_released (p := { p with operation := false }) h answer inputs)

theorem runStage_head (h : p.Ready) :
    p.runStage hashFile entry .phoneToComputer [.go, .go, .go, .go, .go] (.authorized .head) =
      some (p, .answered (.offset p.progress.committedOffset entry.size)) := by
  have hreleased : { p with operation := false } = p := by rw [← h.operation]
  rw [runStage_enter hashFile entry h.operation (.inr h.verification), runStage_cons rfl,
    runStage_leave hashFile entry (by exact h.serves)]
  exact congrArg (fun p => some (p, _)) hreleased

theorem openStaged_rest (p : EntryPort) (offset : Nat) (deferredHash : Bool) :
    (p.openStaged offset deferredHash).port.operation = p.operation ∧
      (p.openStaged offset deferredHash).port.verification = p.verification ∧
      (p.openStaged offset deferredHash).port.target = p.target ∧
      (p.openStaged offset deferredHash).port.progress = p.progress := by
  have hopened : p.openPart.1.operation = p.operation ∧
      p.openPart.1.verification = p.verification ∧ p.openPart.1.target = p.target ∧
      p.openPart.1.progress = p.progress := by
    unfold openPart
    split <;> exact ⟨rfl, rfl, rfl, rfl⟩
  unfold openStaged
  extract_lets opened data
  split
  · exact hopened
  · exact hopened

/-- A staged file that the phone can go on with is there, or none is needed. -/
theorem openStaged_next (hfits : p.storage.Fits) (deferredHash : Bool) :
    (p.openStaged p.progress.committedOffset deferredHash).next =
      .opened p.openPart.2 p.progress.committedOffset deferredHash := by
  have hlong : ¬(p.openPart.1.files p.openPart.2).bytes.length < p.progress.committedOffset := by
    rcases hfits with ⟨file, hpart, hholds⟩ | ⟨-, hzero⟩
    · rw [openPart_of_some hpart]
      exact not_lt.2 hholds.length_le
    · rw [show p.progress.committedOffset = 0 from hzero]
      exact Nat.not_lt_zero _
  rw [openStaged, if_neg hlong]

theorem step_opening (hinv : p.storage.StagingInv entry.size)
    (hupload : p.storage.UploadInv hashFile entry.size content)
    (hnot : p.progress.state ≠ .completed)
    (hphone : p.progress.committedOffset < entry.size ∨ p.progress.committedOffset = 0)
    (hfits : p.storage.Fits) :
    ∃ q file, p.step hashFile entry .phoneToComputer .go
        (.opening p.progress.committedOffset true) =
          { port := q, next := .opened file p.progress.committedOffset true } ∧
      q.batch = p.batch ∧ q.operation = p.operation ∧ q.verification = p.verification ∧
      q.target = p.target ∧ q.progress = p.progress ∧
      q.storage.Receiving file p.progress.committedOffset ∧
      q.sent = content.take p.progress.committedOffset := by
  have hnext := openStaged_next hfits true
  obtain ⟨hoperation, hverification, htarget, hprogress⟩ :=
    openStaged_rest p p.progress.committedOffset true
  have hspawned : (p.openStaged p.progress.committedOffset true).spawned = none := by
    unfold openStaged
    extract_lets opened data
    split <;> rfl
  have hkept := kept_openStaged hinv true rfl hnot (hupload.not_unrecorded hinv rfl hphone)
  have hstage := hkept.next
  rw [hnext] at hstage
  have hreceiving := hstage.2
  have hsent := (uploads_openStaged hupload hinv true rfl hnot hphone).inv.sent
  refine ⟨(p.openStaged p.progress.committedOffset true).port, p.openPart.2, ?_,
    batch_openStaged p _ _, hoperation, hverification, htarget, hprogress, hreceiving, ?_⟩
  · change p.openStaged p.progress.committedOffset true = _
    rw [← hnext, ← hspawned]
  · have htaken := List.prefix_iff_eq_take.1 hsent
    rw [hreceiving.length] at htaken
    exact htaken

/-- An upload from the recorded offset on is accepted. -/
theorem step_upload (hle : p.progress.committedOffset ≤ entry.size) (hprepared : p.prepared = true)
    (hnot : p.progress.state ≠ .completed) (deferredHash : Bool) :
    p.step hashFile entry .phoneToComputer .go
        (.leased (.upload p.progress.committedOffset deferredHash)) =
      { port := p, next := .opening p.progress.committedOffset deferredHash } := by
  change p.serve entry .phoneToComputer (.upload p.progress.committedOffset deferredHash) = _
  rw [serve, serveUpload, if_neg (by decide), if_neg (not_lt.2 hle), if_neg (not_not.2 rfl),
    if_neg (by simp [hprepared]), if_neg hnot]

variable (hashFile) in
theorem runStage_receiving (hserves : p.batch.Serves) (hcontent : content.length = entry.size)
    {file received : Nat} (hreceiving : p.storage.Receiving file received)
    (hsent : p.sent = content.take received) :
    ∃ q, p.runStage hashFile entry .phoneToComputer
        [.frame (content.drop received) false, .endOfBody, .go, .go, .go, .go]
        (.receiving file received none) = some (q, .answered (.received entry.size false)) ∧
      q.batch = p.batch ∧ q.operation = false ∧ q.verification = p.verification ∧
      q.target = p.target ∧
      q.progress = { state := .transferring, committedOffset := entry.size } ∧
      q.part = some file ∧ (q.files file).bytes = content := by
  have hsize : received + (content.drop received).length = entry.size := by
    have hlength : p.sent.length = received := hreceiving.length
    rw [hsent, List.length_take] at hlength
    rw [List.length_drop]
    omega
  have hwritten := hreceiving.frame (content.drop received)
  have hframe : p.step hashFile entry .phoneToComputer (.frame (content.drop received) false)
      (.receiving file received none) =
        { port :=
            { p.setFile file ((p.files file).writeAt received (content.drop received)) with
              sent := p.sent.take received ++ content.drop received }
          next := .receiving file entry.size none } := by
    have hticket : p.ticketIsActive = true := hserves.ticket
    rw [step, receive, receiveFrame, if_neg (by simp [hticket]), if_neg (by omega), hsize]
    rfl
  have hfinish : ∀ q : EntryPort, q.step hashFile entry .phoneToComputer .go
      (.finishing file entry.size none) =
        { port := q.writeProgress .transferring entry.size
          next := .releasing (.received entry.size false) } := by
    intro q
    change q.finishBody hashFile entry entry.size none = _
    rw [finishBody, if_neg (not_not.2 rfl)]
    rfl
  rw [runStage_cons hframe, runStage_cons rfl, runStage_cons rfl, runStage_cons (hfinish _),
    runStage_leave hashFile entry (by exact hserves)]
  refine ⟨_, rfl, rfl, rfl, rfl, rfl, rfl, hwritten.part, ?_⟩
  have hbytes := hwritten.bytes
  have htake : p.sent.take received ++ content.drop received = content := by
    rw [hsent, List.take_take, Nat.min_self, List.take_append_drop]
  have hsync : ∀ q : EntryPort,
      ((q.setFile file (q.files file).sync).files file).bytes = (q.files file).bytes := by
    intro q
    have hself : (q.setFile file (q.files file).sync).files file = (q.files file).sync :=
      Function.update_self _ _ _
    rw [hself]
    rfl
  exact (hsync _).trans (hbytes.trans htake)

theorem runStage_upload (h : p.Ready) (hinv : p.storage.StagingInv entry.size)
    (hupload : p.storage.UploadInv hashFile entry.size content)
    (hcontent : content.length = entry.size) (hnot : p.progress.state ≠ .completed)
    (hphone : p.progress.committedOffset < entry.size ∨ p.progress.committedOffset = 0)
    (hfits : p.storage.Fits) :
    ∃ q file, p.runStage hashFile entry .phoneToComputer
        [.go, .go, .go, .go, .go, .frame (content.drop p.progress.committedOffset) false,
          .endOfBody, .go, .go, .go, .go]
        (.authorized (.upload p.progress.committedOffset true)) =
          some (q, .answered (.received entry.size false)) ∧
      q.Ready ∧ q.target = p.target ∧
      q.progress = { state := .transferring, committedOffset := entry.size } ∧
      q.part = some file ∧ (q.files file).bytes = content := by
  have hle : p.progress.committedOffset ≤ entry.size := hinv.committed_le
  obtain ⟨q, file, hopened, hbatch, -, hverification, htarget, hsame, hreceiving, hsent⟩ :=
    step_opening (p := { p with operation := true }) hinv hupload hnot hphone hfits
  have hserves : (q.writeProgress .transferring p.progress.committedOffset).batch.Serves := by
    change q.batch.Serves
    rw [hbatch]
    exact h.serves
  have hdurable : p.progress.committedOffset ≤ (q.files file).synced := by
    have hcommitted : q.progress.committedOffset ≤ (q.files file).synced := hreceiving.durable
    rwa [hsame] at hcommitted
  have hrecord := hreceiving.record hdurable .transferring
  obtain ⟨q', hrun, hbatch', hfree, hjob, htarget', hprogress, hpart, hbytes⟩ :=
    runStage_receiving hashFile hserves hcontent hrecord hsent
  refine ⟨q', file, ?_, ⟨hfree, ?_, ?_⟩, htarget'.trans htarget, hprogress, hpart, hbytes⟩
  · rw [runStage_enter hashFile entry h.operation (.inr h.verification),
      runStage_cons (step_upload (by exact hle) (by exact h.serves.prepared) (by exact hnot) true),
      runStage_cons hopened, runStage_cons rfl]
    exact hrun
  · exact hjob.trans (hverification.trans h.verification)
  · rw [hbatch']
    exact hserves

end

end EntryPort

namespace PortWorld

/-- The inputs of one thread, which starts no other. -/
def feeds (thread fresh : Nat) (inputs : List Input) : List PortEvent :=
  inputs.map fun input => .step thread input fresh

def verifies (hash : String) (n : Nat) : List PortEvent :=
  (.request n (.verify hash true) :: feeds n (n + 3) [.go, .go]) ++
    (.step n .go (n + 1) :: feeds n (n + 3) [.go, .go]) ++
    feeds (n + 1) (n + 3) [.go, .go, .go, .go, .go, .go, .go] ++
    .request (n + 2) (.verify hash true) :: feeds (n + 2) (n + 3) [.go, .go, .go, .go, .go]

/-- The phone offers the batch again, the manifest is there already, and it asks for the offset. -/
def comesBack (n : Nat) : List PortEvent :=
  [.offer n, .step n .go (n + 2), .prepare] ++
    .request (n + 1) .head :: feeds (n + 1) (n + 2) [.go, .go, .go, .go, .go]

/-- The phone sends the rest of the file, unless all of it is recorded, and verifies. -/
def goesOn (size : Nat) (content : List UInt8) (hash : String) (n offset : Nat) : List PortEvent :=
  (if 0 < offset ∧ offset = size then []
    else .request n (.upload offset true) :: feeds n (n + 1)
      [.go, .go, .go, .go, .go, .frame (content.drop offset) false, .endOfBody, .go, .go, .go, .go]) ++
    verifies hash (n + 1)

section
variable {hashFile : List UInt8 → String} {entry : ManifestEntry} {w w' : PortWorld}

structure Moved (w w' : PortWorld) (thread : Nat) (p : EntryPort) (s : Stage) : Prop where
  port : w'.port = p
  own : w'.threads thread = some s
  others : ∀ i ≠ thread, w'.threads i = w.threads i

theorem moved_update (w : PortWorld) (thread : Nat) (p : EntryPort) (s : Stage) :
    Moved w { port := p, threads := Function.update w.threads thread (some s) } thread p s :=
  ⟨rfl, Function.update_self _ _ _, fun _ hi => Function.update_of_ne hi _ _⟩

theorem run_feeds {thread fresh : Nat} {inputs : List Input} {s s' : Stage} {p : EntryPort}
    (hthread : w.threads thread = some s) (hfresh : w.threads fresh = none)
    (h : w.port.runStage hashFile entry .phoneToComputer inputs s = some (p, s')) :
    ∃ w', Machine.run (step hashFile entry .phoneToComputer) w (feeds thread fresh inputs) =
      some w' ∧ Moved w w' thread p s' := by
  induction inputs generalizing w s with
  | nil =>
    cases h
    exact ⟨w, rfl, rfl, hthread, fun _ _ => rfl⟩
  | cons input inputs ih =>
    have hne : fresh ≠ thread := by
      rintro rfl
      rw [hfresh] at hthread
      cases hthread
    rw [EntryPort.runStage] at h
    split at h
    · cases h
    · rename_i hspawned
      have hstep : w.step hashFile entry .phoneToComputer (.step thread input fresh) =
          some (w.stepThread hashFile entry .phoneToComputer thread s input fresh) := by
        rw [step, hthread, Option.bind_some, if_pos hfresh]
      have hmoved := moved_update w thread
        (w.port.step hashFile entry .phoneToComputer input s).port
        (w.port.step hashFile entry .phoneToComputer input s).next
      rw [stepThread_of_not_spawned (by simpa using hspawned)] at hstep
      obtain ⟨w', hrun, hw'⟩ := ih hmoved.own ((hmoved.others fresh hne).trans hfresh) h
      refine ⟨w', ?_, hw'.port, hw'.own, fun i hi => (hw'.others i hi).trans (hmoved.others i hi)⟩
      rw [feeds, List.map_cons, Machine.run, hstep]
      exact hrun

/-- A request that runs alone. -/
theorem run_request (hserves : w.port.batch.Serves) {thread fresh : Nat} {r : Request}
    {inputs : List Input} {s : Stage} {p : EntryPort} (hthread : w.threads thread = none)
    (hfresh : w.threads fresh = none) (hne : fresh ≠ thread)
    (h : w.port.runStage hashFile entry .phoneToComputer inputs (.authorized r) = some (p, s)) :
    ∃ w', Machine.run (step hashFile entry .phoneToComputer) w
        (.request thread r :: feeds thread fresh inputs) = some w' ∧ Moved w w' thread p s := by
  have hstart : w.step hashFile entry .phoneToComputer (.request thread r) =
      some { w with threads := Function.update w.threads thread (some (.authorized r)) } := by
    rw [step, if_pos ⟨hserves.ticket, hserves.not_terminal⟩, start, if_pos hthread]
  have hmoved := moved_update w thread w.port (.authorized r)
  obtain ⟨w', hrun, hw'⟩ :=
    run_feeds hmoved.own ((hmoved.others fresh hne).trans hfresh) h
  refine ⟨w', ?_, hw'.port, hw'.own, fun i hi => (hw'.others i hi).trans (hmoved.others i hi)⟩
  rw [Machine.run, hstart]
  exact hrun

/-- The phone comes back; what it is told when it asks for the offset is `s`. -/
theorem run_comesBack_of (hopen : w.port.state.isTerminal = false) {n : Nat}
    (hbeyond : ∀ i ≥ n, w.threads i = none) {s : Stage} {q : EntryPort}
    (hhead : EntryPort.runStage hashFile entry .phoneToComputer
      { w.port with ticket := some (w.port.now + TICKET_LIFETIME), prepared := true }
      [.go, .go, .go, .go, .go] (.authorized .head) = some (q, s)) :
    ∃ w', Machine.run (step hashFile entry .phoneToComputer) w (comesBack n) = some w' ∧
      w'.threads (n + 1) = some s ∧ w'.port = q ∧
      (∀ i ≥ n + 2, w'.threads i = none) ∧ (w.Quiet → (∃ answer, s = .answered answer) → w'.Quiet) := by
  have hoffer : w.step hashFile entry .phoneToComputer (.offer n) =
      some { w with threads := Function.update w.threads n (some .offering) } := by
    rw [step, if_neg (by simp [hopen]), start, if_pos (hbeyond n le_rfl)]
  have hmoved := moved_update w n w.port .offering
  have hfree : Function.update w.threads n (some .offering) (n + 2) = none :=
    (hmoved.others _ (by omega)).trans (hbeyond _ (by omega))
  have hoffering : w.port.runStage hashFile entry .phoneToComputer [.go] .offering =
      some ({ w.port with ticket := some (w.port.now + TICKET_LIFETIME) }, .answered .done) := rfl
  obtain ⟨w₁, hrun₁, hport₁, hown₁, hothers₁⟩ := run_feeds hmoved.own hfree hoffering
  have hprepare : w₁.step hashFile entry .phoneToComputer .prepare =
      some { w₁ with port := { w₁.port with prepared := true } } := by
    rw [step, if_neg]
    rw [hport₁]
    exact Bool.eq_false_iff.1 hopen
  have hserves : BatchView.Serves (EntryPort.batch { w₁.port with prepared := true }) := by
    rw [hport₁]
    refine ⟨hopen, ?_, rfl⟩
    simp [EntryPort.batch, TICKET_LIFETIME]
  have hothers : ∀ i ≠ n, w₁.threads i = w.threads i := fun i hi =>
    (hothers₁ i hi).trans (hmoved.others i hi)
  have hold : ∀ i ≥ n + 1, w₁.threads i = none := fun i hi =>
    (hothers i (by omega)).trans (hbeyond i (by omega))
  have hprepared : EntryPort.mk w₁.port.state true w₁.port.ticket w₁.port.now w₁.port.operation
      w₁.port.verification w₁.port.progress w₁.port.part w₁.port.target w₁.port.files
      w₁.port.nextFile w₁.port.sent w₁.port.canceled =
        { w.port with ticket := some (w.port.now + TICKET_LIFETIME), prepared := true } := by
    rw [hport₁]
  rw [← hprepared] at hhead
  obtain ⟨w₂, hrun₂, hport₂, hown₂, hothers₂⟩ :=
    run_request (w := { w₁ with port := { w₁.port with prepared := true } }) hserves
      (hold (n + 1) le_rfl) (hold (n + 2) (by omega)) (by omega) hhead
  refine ⟨w₂, ?_, hown₂, hport₂, ?_, ?_⟩
  · rw [comesBack, List.cons_append, Machine.run, hoffer, Option.bind_some,
      show [PortEvent.step n .go (n + 2), .prepare] = feeds n (n + 2) [.go] ++ [.prepare] from rfl,
      List.append_assoc, Machine.run_append, hrun₁, Option.bind_some, List.singleton_append,
      Machine.run, hprepare, Option.bind_some, hrun₂]
  · intro i hi
    rw [hothers₂ i (by omega)]
    exact hold i (by omega)
  · intro hquiet hs i t hi
    by_cases hhead : i = n + 1
    · rw [hhead, hown₂] at hi
      obtain rfl := Option.some.inj hi
      exact hs
    · rw [hothers₂ i hhead] at hi
      by_cases hoffered : i = n
      · rw [hoffered] at hi
        exact ⟨.done, (Option.some.inj (hown₁.symm.trans hi)).symm⟩
      · exact hquiet i t ((hothers i hoffered).symm.trans hi)

variable (hashFile entry) in
theorem run_comesBack (hopen : w.port.state.isTerminal = false)
    (hoperation : w.port.operation = false) (hverification : w.port.verification = none) {n : Nat}
    (hbeyond : ∀ i ≥ n, w.threads i = none) :
    ∃ w', Machine.run (step hashFile entry .phoneToComputer) w (comesBack n) = some w' ∧
      w'.threads (n + 1) =
        some (.answered (.offset w.port.progress.committedOffset entry.size)) ∧
      w'.port.Ready ∧ w'.port.storage = w.port.storage ∧
      (∀ i ≥ n + 2, w'.threads i = none) ∧ (w.Quiet → w'.Quiet) := by
  have hready : EntryPort.Ready
      { w.port with ticket := some (w.port.now + TICKET_LIFETIME), prepared := true } := by
    refine ⟨hoperation, hverification, hopen, ?_, rfl⟩
    simp [EntryPort.batch, TICKET_LIFETIME]
  obtain ⟨w', hrun, hanswer, hport, hbeyond', hquiet⟩ :=
    run_comesBack_of hopen hbeyond (EntryPort.runStage_head hready)
  refine ⟨w', hrun, hanswer, ?_, ?_, hbeyond', fun h => hquiet h ⟨_, rfl⟩⟩
  · rw [hport]
    exact hready
  · rw [hport]
    rfl

/-- An upload that was broken off can be taken up again: when the entry was given up, what is
recorded is still staged, and no empty file was renamed without being recorded. -/
structure Resumable (size : Nat) (d : Storage) : Prop where
  not_lost : d.progress.state.isOpen = false → d.progress.state ≠ .completed → d.target = none →
    0 < d.progress.committedOffset →
      ∃ file, d.part = some file ∧ d.progress.committedOffset ≤ (d.files file).bytes.length
  not_empty : d.target.isSome = true → d.progress.state ≠ .completed → 0 < size

theorem fits_of_none_recorded {d : Storage} (hzero : d.progress.committedOffset = 0) : d.Fits := by
  cases hpart : d.part with
  | none => exact .inr ⟨hpart, hzero⟩
  | some file =>
    refine .inl ⟨file, hpart, ?_⟩
    rw [hzero]
    exact ⟨Nat.zero_le _, Nat.zero_le _, rfl⟩

theorem Resumable.fits {d : Storage} {size : Nat} (h : Resumable size d) (hinv : d.StagingInv size)
    (hnot : d.progress.state ≠ .completed) (htarget : d.target = none) : d.Fits := by
  cases hopen : d.progress.state.isOpen with
  | true =>
    rcases hinv.staged hopen with hpart | ⟨-, hnone | ⟨file, hfile, -⟩⟩
    · exact .inl hpart
    · exact fits_of_none_recorded hnone
    · exact absurd (htarget.symm.trans hfile) (Option.some_ne_none file).symm
  | false =>
    by_cases hnone : d.progress.committedOffset = 0
    · exact fits_of_none_recorded hnone
    · obtain ⟨file, hpart, hlong⟩ := h.not_lost hopen hnot htarget (Nat.pos_of_ne_zero hnone)
      rcases hinv.part_cases hnot hpart with hshort | hholds
      · omega
      · exact .inl ⟨file, hpart, hholds⟩

end

end PortWorld

end FlowType
