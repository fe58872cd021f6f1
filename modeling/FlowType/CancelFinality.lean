import FlowType.StageEffects

/-! What is left of an entry after its batch was canceled. The state, the ticket and the files change
one after the other, and an upload that is being received goes on; whoever holds the lease clears
up when it gives the lease back. -/
namespace FlowType

open Threads

namespace PortWorld
variable {hashFile : List UInt8 → String} {entry : ManifestEntry} {direction : TransferDirection}
  {w w' : PortWorld}

section Threads
variable {thread fresh : Nat} {input : Input} {stage : Stage}

/-- Where the threads stand after one of them has done a step. -/
theorem threads_stepThread {i : Nat} {s : Stage}
    (hi : (w.stepThread hashFile entry direction thread stage input fresh).threads i = some s) :
    i = thread ∧ s = (w.port.step hashFile entry direction input stage).next ∨
      (∃ hash, s = .verifying .job hash) ∨ i ≠ thread ∧ w.threads i = some s := by
  have hown : Function.update w.threads thread
      (some (w.port.step hashFile entry direction input stage).next) i = some s →
      i = thread ∧ s = (w.port.step hashFile entry direction input stage).next ∨
        (∃ hash, s = .verifying .job hash) ∨ i ≠ thread ∧ w.threads i = some s := by
    intro hi
    by_cases hthread : i = thread
    · rw [hthread, Function.update_self] at hi
      exact .inl ⟨hthread, (Option.some.inj hi).symm⟩
    · rw [Function.update_of_ne hthread] at hi
      exact .inr (.inr ⟨hthread, hi⟩)
  rcases EntryPort.spawned_cases hashFile entry direction w.port input stage with
    hspawned | ⟨hash, -, hspawned⟩
  · rw [stepThread_of_not_spawned hspawned] at hi
    exact hown hi
  · rw [stepThread_of_spawned hspawned] at hi
    by_cases hfresh : i = fresh
    · rw [hfresh] at hi
      simp only [Function.update_self] at hi
      exact .inr (.inl ⟨hash, (Option.some.inj hi).symm⟩)
    · exact hown ((Function.update_of_ne hfresh _ _).symm.trans hi)

theorem stepThread_own (hthread : w.threads thread = some stage) (hfresh : w.threads fresh = none) :
    (w.stepThread hashFile entry direction thread stage input fresh).threads thread =
      some (w.port.step hashFile entry direction input stage).next := by
  have hne : thread ≠ fresh := by
    rintro rfl
    rw [hfresh] at hthread
    cases hthread
  rcases EntryPort.spawned_cases hashFile entry direction w.port input stage with
    hspawned | ⟨hash, -, hspawned⟩
  · rw [stepThread_of_not_spawned hspawned]
    exact Function.update_self _ _ _
  · rw [stepThread_of_spawned hspawned]
    exact (Function.update_of_ne hne _ _).trans (Function.update_self _ _ _)

theorem stepThread_other (hfresh : w.threads fresh = none) {i : Nat} {s : Stage}
    (hi : w.threads i = some s) (hne : i ≠ thread) :
    (w.stepThread hashFile entry direction thread stage input fresh).threads i = some s := by
  have hnew : i ≠ fresh := by
    rintro rfl
    rw [hfresh] at hi
    cases hi
  rcases EntryPort.spawned_cases hashFile entry direction w.port input stage with
    hspawned | ⟨hash, -, hspawned⟩
  · rw [stepThread_of_not_spawned hspawned]
    exact (Function.update_of_ne hne _ _).trans hi
  · rw [stepThread_of_spawned hspawned]
    exact ((Function.update_of_ne hnew _ _).trans (Function.update_of_ne hne _ _)).trans hi

end Threads

/-- A cancellation has taken the ticket away. -/
def Withdrawn (w : PortWorld) : Prop :=
  w.port.canceled = true ∨ Occupied w.threads fun s => s.clears = true

/-- What holds at all times, so that nothing is left after a cancellation. -/
structure CancelInv (direction : TransferDirection) (w : PortWorld) : Prop where
  entry : EntryInv (fun _ => True) (fun _ _ => True) w
  terminal : w.port.canceled = true → w.port.state.isTerminal = true
  ticket : w.Withdrawn → w.port.ticket = none
  prepared : w.port.part.isSome = true → direction = .phoneToComputer ∧ w.port.prepared = true
  opens : All w.threads fun s => s.opens = true →
    direction = .phoneToComputer ∧ w.port.prepared = true
  part_lt : ∀ file, w.port.part = some file → file < w.port.nextFile ∧ w.port.target ≠ some file
  target_lt : ∀ file, w.port.target = some file → file < w.port.nextFile
  handle_lt : All w.threads fun s => ∀ file, s.handle = some file →
    file < w.port.nextFile ∧ w.port.target ≠ some file
  swept : w.port.canceled = true → w.port.part.isSome = true →
    w.port.state = .canceled ∧ Occupied w.threads fun s => s.willSweep = true
  committed : w.port.canceled = true → w.port.part.isSome = true →
    All w.threads fun s => s.commits = false

/-- Once a cancellation has taken the ticket away no offer brings one back, and when it has
returned no upload opens the staged file of a batch that had ended otherwise. The program is not
restarted. -/
def RespectsCancel (w : PortWorld) : PortEvent → Prop
  | .step thread _ _ =>
    (w.threads thread = some .offering → ¬w.Withdrawn) ∧
      ∀ s, w.threads thread = some s → s.opens = true → w.port.canceled = true →
        w.port.state = .canceled
  | .powerFailure _ => False
  | _ => True

def CancelOk (w : PortWorld) (e : PortEvent) : Prop := TakesFreeEntry w e ∧ w.RespectsCancel e

/-- When a cancellation has returned and all requests and jobs are over, nothing is staged, the
batch is terminal and has no active ticket. -/
def CancelFinal (w : PortWorld) : Prop :=
  w.port.canceled = true → w.Quiet →
    w.port.part = none ∧ w.port.state.isTerminal = true ∧ w.port.ticketIsActive = false

/-- A target stays as it is, and after a cancellation none appears. -/
structure KeepsTarget (w w' : PortWorld) : Prop where
  kept : ∀ file, w.port.target = some file →
    w'.port.target = some file ∧ w'.port.files file = w.port.files file
  final : w.port.canceled = true → w'.port.target = w.port.target

theorem cancelInv_start : CancelInv direction {} where
  entry := EntryInv.start trivial
  terminal h := by cases h
  ticket _ := rfl
  prepared h := by cases h
  opens := all_empty
  part_lt _ h := by cases h
  target_lt _ h := by cases h
  handle_lt := all_empty
  swept h := by cases h
  committed h := by cases h

variable (hashFile entry direction) in
theorem anyDiscipline : Discipline hashFile entry direction (fun _ _ => True) (fun _ => True)
    (fun _ _ => True) (fun _ _ => True) where
  refl _ := trivial
  idle _ _ _ _ := trivial
  request _ _ _ _ _ := trivial
  pass _ _ _ _ _ := ⟨trivial, trivial⟩
  job _ _ _ := trivial
  stable _ _ _ _ _ _ _ := trivial
  step _ _ _ _ _ _ _ _ _ _ _ := ⟨trivial, trivial, trivial⟩
  crash _ _ _ _ _ := ⟨trivial, trivial⟩

section Steps
variable {thread fresh : Nat} {input : Input} {stage : Stage}

/-- Nobody clears after a step who did not before, unless a ticket was withdrawn. -/
theorem withdrawn_stepThread (hthread : w.threads thread = some stage)
    (hcanceled : (w.port.step hashFile entry direction input stage).port.canceled = true →
      w.port.canceled = true ∨ stage = .clearing)
    (hwithdrawing : stage ≠ .withdrawing)
    (h : (w.stepThread hashFile entry direction thread stage input fresh).Withdrawn) :
    w.Withdrawn := by
  rcases h with h | ⟨i, s, hi, hs⟩
  · rcases hcanceled h with hbefore | rfl
    · exact .inl hbefore
    · exact .inr ⟨thread, .clearing, hthread, rfl⟩
  · rcases threads_stepThread hi with ⟨-, rfl⟩ | ⟨hash, rfl⟩ | ⟨-, hold⟩
    · rcases EntryPort.leads_step hashFile entry direction w.port input stage with
        ⟨runner, -, -, hnext⟩ | ⟨r, -, -, -, hnext⟩ | ⟨hstage, -⟩ | ⟨-, -, hclears⟩
      · rw [hnext] at hs
        cases hs
      · obtain ⟨offset, deferredHash, heq⟩ := Stage.eq_opening hnext
        rw [heq] at hs
        cases hs
      · exact absurd hstage hwithdrawing
      · rw [hclears] at hs
        cases hs
    · cases hs
    · exact .inr ⟨i, s, hold, hs⟩

theorem CancelInv.start (h : CancelInv direction w) (hs : w.start thread stage = some w')
    (hstage : (∃ r, stage = .authorized r) ∨ (∃ answer, stage = .answered answer) ∨
      stage = .offering ∨ stage = .canceling ∨ stage = .withdrawing)
    (hentry : EntryInv (fun _ => True) (fun _ _ => True) w') :
    CancelInv direction w' ∧ KeepsTarget w w' := by
  obtain ⟨hnone, rfl⟩ := start_eq hs
  have hkind : stage.clears = false ∧ stage.opens = false ∧ stage.handle = none ∧
      stage.willSweep = false ∧ stage.commits = false := by
    rcases hstage with ⟨r, rfl⟩ | ⟨answer, rfl⟩ | rfl | rfl | rfl <;> exact ⟨rfl, rfl, rfl, rfl, rfl⟩
  obtain ⟨hclears, hopens, hhandle, hsweep, hcommits⟩ := hkind
  have hwithdrawn : ∀ h' : w.port.canceled = true ∨
      Occupied (Function.update w.threads thread (some stage)) (fun s => s.clears = true),
      w.Withdrawn := by
    rintro (hcanceled | hocc)
    · exact .inl hcanceled
    · exact .inr (hocc.of_update (by simp [hclears]))
  refine ⟨⟨hentry, h.terminal, fun h' => h.ticket (hwithdrawn h'), h.prepared, ?_, h.part_lt,
    h.target_lt, ?_, ?_, ?_⟩, fun _ hfile => ⟨hfile, rfl⟩, fun _ => rfl⟩
  · exact h.opens.update fun hopening => by rw [hopens] at hopening; cases hopening
  · exact h.handle_lt.update fun file hfile => by rw [hhandle] at hfile; cases hfile
  · intro hcanceled hpart
    obtain ⟨hstate, hocc⟩ := h.swept hcanceled hpart
    exact ⟨hstate, (occupied_start_iff hnone (by simp [hsweep])).2 hocc⟩
  · intro hcanceled hpart
    exact (h.committed hcanceled hpart).update hcommits

theorem CancelInv.same (h : CancelInv direction w)
    (hentry : EntryInv (fun _ => True) (fun _ _ => True) w') (hthreads : w'.threads = w.threads)
    (hcanceled : w'.port.canceled = w.port.canceled)
    (hterminal : w.port.state.isTerminal = true → w'.port.state = w.port.state)
    (hticket : w'.port.ticket = w.port.ticket ∨ w'.port.ticket = none)
    (hprepared : w.port.prepared = true → w'.port.prepared = true)
    (hpart : w'.port.part = w.port.part ∨ w'.port.part = none)
    (htarget : w'.port.target = w.port.target) (hnextFile : w'.port.nextFile = w.port.nextFile)
    (hfiles : w'.port.files = w.port.files) :
    CancelInv direction w' ∧ KeepsTarget w w' := by
  have hstaged : w'.port.part.isSome = true → w'.port.part = w.port.part := by
    intro hsome
    rcases hpart with hsame | hnone
    · exact hsame
    · rw [hnone] at hsome
      cases hsome
  have hpreparedAll : direction = .phoneToComputer ∧ w.port.prepared = true →
      direction = .phoneToComputer ∧ w'.port.prepared = true := fun hold => ⟨hold.1, hprepared hold.2⟩
  refine ⟨⟨hentry, ?_, ?_, ?_, ?_, ?_, ?_, ?_, ?_, ?_⟩, ?_, fun _ => htarget⟩
  · intro hafter
    rw [hcanceled] at hafter
    rw [hterminal (h.terminal hafter)]
    exact h.terminal hafter
  · intro hafter
    rw [Withdrawn, hcanceled, hthreads] at hafter
    rcases hticket with hsame | hnone
    · rw [hsame]
      exact h.ticket hafter
    · exact hnone
  · intro hsome
    exact hpreparedAll (h.prepared (hstaged hsome ▸ hsome))
  · rw [hthreads]
    exact fun i s hi hs => hpreparedAll (h.opens i s hi hs)
  · intro file hfile
    rw [hnextFile, htarget]
    have hsame := hstaged (by rw [hfile]; rfl)
    exact h.part_lt file (hsame.symm.trans hfile)
  · intro file hfile
    rw [hnextFile]
    exact h.target_lt file (htarget.symm.trans hfile)
  · rw [hthreads, hnextFile, htarget]
    exact h.handle_lt
  · intro hafter hsome
    rw [hcanceled] at hafter
    obtain ⟨hstate, hocc⟩ := h.swept hafter (hstaged hsome ▸ hsome)
    rw [hterminal (h.terminal hafter), hthreads]
    exact ⟨hstate, hocc⟩
  · intro hafter hsome
    rw [hcanceled] at hafter
    rw [hthreads]
    exact h.committed hafter (hstaged hsome ▸ hsome)
  · intro file hfile
    rw [htarget, hfiles]
    exact ⟨hfile, rfl⟩

variable (hashFile entry input) in
/-- A cancellation that clears up leaves nothing staged, nor does a thread that sweeps. -/
theorem part_cleared (hprepared : w.port.part.isSome = true →
      direction = .phoneToComputer ∧ w.port.prepared = true)
    (hstage : stage = .clearing ∨ ∃ answer, stage = .sweeping answer) :
    (w.port.step hashFile entry direction input stage).port.part = none := by
  have hcleaned : (w.port.cleanupPartialFiles direction).part = none := by
    rw [EntryPort.cleanupPartialFiles]
    split
    · rfl
    · rename_i hnot
      cases hpart : w.port.part with
      | none => rfl
      | some file => exact absurd (hprepared (by rw [hpart]; rfl)) hnot
  rcases hstage with rfl | ⟨answer, rfl⟩
  · exact hcleaned
  · exact hcleaned

theorem Stage.ownsEntry_of_handle {s : Stage} {file : Nat} (h : s.handle = some file) :
    s.ownsEntry = true := by
  cases s <;> first | rfl | cases h

theorem ownsEntry_of_opens {s : Stage} (h : s.opens = true) : s.ownsEntry = true := by
  cases s <;> first | rfl | cases h

theorem ownsEntry_of_commits {s : Stage} (h : s.commits = true) : s.ownsEntry = true := by
  cases s <;> first | rfl | cases h

theorem CancelInv.keepsTarget_stepThread (h : CancelInv direction w)
    (hthread : w.threads thread = some stage) :
    KeepsTarget w (w.stepThread hashFile entry direction thread stage input fresh) := by
  rcases EntryPort.diskEffect_step hashFile entry direction w.port input stage with
    ⟨-, htarget, -, hfiles, -⟩ | ⟨file, -, -, hfile, htarget, hfiles, -⟩ |
    ⟨file, hs, hpart, -, hfree, -, -, -, -⟩
  · refine ⟨fun other hother => ⟨htarget.trans hother, hfiles other ?_⟩, fun _ => htarget⟩
    intro hhandle
    exact (h.handle_lt thread stage hthread other hhandle).2 hother
  · refine ⟨fun other hother => ⟨htarget.trans hother, hfiles other ?_⟩, fun _ => htarget⟩
    rintro rfl
    rcases hfile with ⟨hpart, -⟩ | ⟨rfl, -⟩
    · exact (h.part_lt _ hpart).2 hother
    · exact absurd (h.target_lt _ hother) (lt_irrefl _)
  · refine ⟨fun other hother => ?_, fun hcanceled => ?_⟩
    · rw [hfree] at hother
      cases hother
    · have hnot : stage.commits = false :=
        h.committed hcanceled (by rw [hpart]; rfl) thread stage hthread
      rw [hs] at hnot
      cases hnot

variable (hashFile entry input fresh) in
/-- Who writes to a file does not write to the target. -/
theorem handle_lt_stepThread (h : CancelInv direction w)
    (hthread : w.threads thread = some stage) :
    let w' := w.stepThread hashFile entry direction thread stage input fresh
    (∀ file, w'.port.part = some file → file < w'.port.nextFile ∧ w'.port.target ≠ some file) ∧
      (∀ file, w'.port.target = some file → file < w'.port.nextFile) ∧
      All w'.threads fun s => ∀ file, s.handle = some file →
        file < w'.port.nextFile ∧ w'.port.target ≠ some file := by
  intro w'
  have hjob : ∀ hash file, (Stage.verifying .job hash).handle ≠ some file := by
    intro hash file hfile
    cases hfile
  rcases EntryPort.diskEffect_step hashFile entry direction w.port input stage with
    ⟨hpart, htarget, hnextFile, -, hhandle⟩ | ⟨file, -, hpart, hfile, htarget, -, hhandle⟩ |
    ⟨file, hs, hpart, hpart', hfree, htarget, hnextFile, -, hhandle⟩
  · change w'.port.part = _ ∨ w'.port.part = none at hpart
    change w'.port.target = _ at htarget
    change w'.port.nextFile = _ at hnextFile
    rw [hnextFile, htarget]
    refine ⟨?_, h.target_lt, ?_⟩
    · intro file hfile
      rcases hpart with hsame | hnone
      · exact h.part_lt file (hsame.symm.trans hfile)
      · rw [hnone] at hfile
        cases hfile
    · intro i s hi file hfile
      rcases threads_stepThread hi with ⟨-, rfl⟩ | ⟨hash, rfl⟩ | ⟨-, hold⟩
      · rcases hhandle with hnone | hsame
        · rw [hnone] at hfile
          cases hfile
        · exact h.handle_lt thread stage hthread file (hsame.symm.trans hfile)
      · exact absurd hfile (hjob hash file)
      · exact h.handle_lt i s hold file hfile
  · change w'.port.part = _ at hpart
    change w'.port.target = _ at htarget
    have hgrows : w.port.nextFile ≤ w'.port.nextFile := by
      rcases hfile with ⟨-, hsame⟩ | ⟨-, hmore⟩
      · exact hsame.ge
      · exact (Nat.le_succ _).trans hmore.ge
    have hown : file < w'.port.nextFile ∧ w.port.target ≠ some file := by
      rcases hfile with ⟨hold, hsame⟩ | ⟨rfl, hmore⟩
      · exact ⟨(h.part_lt file hold).1.trans_le hsame.ge, (h.part_lt file hold).2⟩
      · refine ⟨lt_of_lt_of_le (Nat.lt_succ_self _) hmore.ge, ?_⟩
        intro htaken
        exact absurd (h.target_lt _ htaken) (lt_irrefl _)
    rw [htarget]
    refine ⟨?_, fun other hother => (h.target_lt other hother).trans_le hgrows, ?_⟩
    · intro other hother
      obtain rfl : file = other := Option.some.inj (hpart.symm.trans hother)
      exact hown
    · intro i s hi other hother
      rcases threads_stepThread hi with ⟨-, rfl⟩ | ⟨hash, rfl⟩ | ⟨-, hold⟩
      · rcases hhandle with hnone | hsome
        · rw [hnone] at hother
          cases hother
        · obtain rfl : file = other := Option.some.inj (hsome.symm.trans hother)
          exact hown
      · exact absurd hother (hjob hash other)
      · obtain ⟨hlt, hne⟩ := h.handle_lt i s hold other hother
        exact ⟨hlt.trans_le hgrows, hne⟩
  · change w'.port.part = none at hpart'
    change w'.port.target = _ at htarget
    change w'.port.nextFile = _ at hnextFile
    rw [hnextFile, htarget]
    refine ⟨?_, ?_, ?_⟩
    · intro other hother
      rw [hpart'] at hother
      cases hother
    · intro other hother
      obtain rfl := Option.some.inj hother
      exact (h.part_lt file hpart).1
    · intro i s hi other hother
      rcases threads_stepThread hi with ⟨-, rfl⟩ | ⟨hash, rfl⟩ | ⟨hne, hold⟩
      · rw [hhandle] at hother
        cases hother
      · exact absurd hother (hjob hash other)
      · have hsame := h.entry.exclusive i thread s stage hold hthread
          (Stage.ownsEntry_of_handle hother) (ownsEntry_of_commits hs)
        exact absurd hsame hne

theorem CancelInv.stepThread (h : CancelInv direction w) (hthread : w.threads thread = some stage)
    (hfresh : w.threads fresh = none) (hoffer : stage = .offering → ¬w.Withdrawn)
    (hopening : stage.opens = true → w.port.canceled = true → w.port.state = .canceled)
    (hentry : EntryInv (fun _ => True) (fun _ _ => True)
      (w.stepThread hashFile entry direction thread stage input fresh)) :
    CancelInv direction (w.stepThread hashFile entry direction thread stage input fresh) := by
  have hbatch := EntryPort.batchEffect_step hashFile entry direction w.port input stage
  have hdisk := EntryPort.diskEffect_step hashFile entry direction w.port input stage
  have hleads := EntryPort.leads_step hashFile entry direction w.port input stage
  obtain ⟨hpart_lt, htarget_lt, hhandle_lt⟩ :=
    handle_lt_stepThread hashFile entry fresh input h hthread
  -- a cancellation had returned before, unless it returns now and has cleared up
  have hbefore : (w.port.step hashFile entry direction input stage).port.canceled = true →
      (w.port.step hashFile entry direction input stage).port.part.isSome = true →
      w.port.canceled = true := by
    intro hcanceled hsome
    rcases hbatch.canceled hcanceled with hold | hclearing
    · exact hold
    · have hnone := part_cleared hashFile entry input h.prepared (.inl hclearing)
      exact absurd hnone (Option.isSome_iff_ne_none.1 hsome)
  -- what was staged before, or is made now
  have hstaged : (w.port.step hashFile entry direction input stage).port.part.isSome = true →
      w.port.part.isSome = true ∨ stage.opens = true := by
    intro hsome
    rcases hdisk with ⟨hsame | hnone, -⟩ | ⟨file, hopens, -⟩ | ⟨file, -, -, hnone, -⟩
    · exact .inl (hsame ▸ hsome)
    · rw [hnone] at hsome
      cases hsome
    · exact .inr hopens
    · rw [hnone] at hsome
      cases hsome
  refine ⟨hentry, ?_, ?_, ?_, ?_, hpart_lt, htarget_lt, hhandle_lt, ?_, ?_⟩
  · intro hcanceled
    have hterminal : w.port.state.isTerminal = true := by
      rcases hbatch.canceled hcanceled with hold | rfl
      · exact h.terminal hold
      · exact h.entry.sweeps thread _ hthread rfl
    exact (congrArg BatchState.isTerminal (hbatch.terminal hterminal)).trans hterminal
  · intro hwithdrawn
    by_cases hstage : stage = .withdrawing
    · exact hbatch.withdrawn hstage
    · have hold := withdrawn_stepThread hthread hbatch.canceled hstage hwithdrawn
      rcases hbatch.ticket (fun hoffering => hoffer hoffering hold) with hsame | hnone
      · exact hsame.trans (h.ticket hold)
      · exact hnone
  · intro hsome
    have hold : direction = .phoneToComputer ∧ w.port.prepared = true := by
      rcases hstaged hsome with hpart | hopens
      · exact h.prepared hpart
      · exact h.opens thread stage hthread hopens
    exact ⟨hold.1, hbatch.prepared.trans hold.2⟩
  · intro i s hi hs
    have hprepared : direction = .phoneToComputer ∧ w.port.prepared = true →
        direction = .phoneToComputer ∧
          (w.port.step hashFile entry direction input stage).port.prepared = true :=
      fun hold => ⟨hold.1, hbatch.prepared.trans hold.2⟩
    rcases threads_stepThread hi with ⟨-, rfl⟩ | ⟨hash, rfl⟩ | ⟨-, hold⟩
    · rcases hleads with ⟨runner, -, -, hnext⟩ | ⟨r, -, hdirection, hready, -⟩ | ⟨-, hnext⟩ |
        ⟨-, hopens, -⟩
      · rw [hnext] at hs
        cases hs
      · exact hprepared ⟨hdirection, hready⟩
      · rw [hnext] at hs
        cases hs
      · rw [hopens] at hs
        cases hs
    · cases hs
    · exact hprepared (h.opens i s hold hs)
  · intro hcanceled hsome
    have hwas := hbefore hcanceled hsome
    have hnotSweeping : ∀ answer, stage ≠ .sweeping answer := by
      intro answer hsweeping
      have hnone := part_cleared hashFile entry input h.prepared (.inr ⟨answer, hsweeping⟩)
      exact absurd hnone (Option.isSome_iff_ne_none.1 hsome)
    have hown : w.port.state = .canceled → stage.willSweep = true →
        Occupied (w.stepThread hashFile entry direction thread stage input fresh).threads
          fun s => s.willSweep = true := fun hstate hwill =>
      ⟨thread, _, stepThread_own hthread hfresh,
        EntryPort.willSweep_step hashFile entry input hstate hwill hnotSweeping⟩
    have hstate : w.port.state = .canceled → (w.stepThread hashFile entry direction thread stage
        input fresh).port.state = .canceled :=
      fun hstate => (hbatch.terminal (h.terminal hwas)).trans hstate
    rcases hstaged hsome with hpart | hopens
    · obtain ⟨hold, i, s, hi, hs⟩ := h.swept hwas hpart
      refine ⟨hstate hold, ?_⟩
      by_cases hsame : i = thread
      · obtain rfl : stage = s := Option.some.inj (hthread.symm.trans (hsame ▸ hi))
        exact hown hold hs
      · exact ⟨i, s, stepThread_other hfresh hi hsame, hs⟩
    · have hold := hopening hopens hwas
      refine ⟨hstate hold, hown hold ?_⟩
      obtain ⟨offset, deferredHash, rfl⟩ := Stage.eq_opening hopens
      rfl
  · intro hcanceled hsome i s hi
    have hwas := hbefore hcanceled hsome
    rcases threads_stepThread hi with ⟨-, rfl⟩ | ⟨hash, rfl⟩ | ⟨hne, hold⟩
    · rcases hleads with ⟨runner, -, hticket, -⟩ | ⟨r, -, -, -, hnext⟩ | ⟨-, hnext⟩ | ⟨hcommits, -⟩
      · rw [EntryPort.ticketIsActive, h.ticket (.inl hwas)] at hticket
        cases hticket
      · obtain ⟨offset, deferredHash, heq⟩ := Stage.eq_opening hnext
        rw [heq]
        rfl
      · rw [hnext]
        rfl
      · exact hcommits
    · rfl
    · rcases hstaged hsome with hpart | hopens
      · exact h.committed hwas hpart i s hold
      · by_contra hcommits
        have hsame := h.entry.exclusive i thread s stage hold hthread
          (ownsEntry_of_commits (by simpa using hcommits)) (ownsEntry_of_opens hopens)
        exact hne hsame

end Steps

theorem cancelInv_step (h : CancelInv direction w) {e : PortEvent} (hok : CancelOk w e)
    (hs : w.step hashFile entry direction e = some w') :
    CancelInv direction w' ∧ KeepsTarget w w' := by
  have hentry : EntryInv (fun _ => True) (fun _ _ => True) w' :=
    (anyDiscipline hashFile entry direction).entryInv_step h.entry hok.1 trivial hs
  have hstart : ((∃ thread r, e = .request thread r) ∨ (∃ thread, e = .offer thread) ∨
      ∃ thread, e = .cancel thread) → CancelInv direction w' ∧ KeepsTarget w w' := by
    intro he
    obtain ⟨thread, stage, hstarted, -, hstage⟩ := step_start hs he
    exact h.start hstarted hstage hentry
  cases e with
  | request thread r => exact hstart (.inl ⟨thread, r, rfl⟩)
  | offer thread => exact hstart (.inr (.inl ⟨thread, rfl⟩))
  | cancel thread => exact hstart (.inr (.inr ⟨thread, rfl⟩))
  | step thread input fresh =>
    obtain ⟨stage, hthread, hfresh, rfl⟩ := step_thread_eq hs
    obtain ⟨hoffer, hopening⟩ := hok.2
    refine ⟨h.stepThread hthread hfresh ?_ (hopening stage hthread) hentry,
      h.keepsTarget_stepThread hthread⟩
    rintro rfl
    exact hoffer hthread
  | move next =>
    rw [step] at hs
    split at hs
    · rename_i hmove
      cases hs
      refine h.same hentry rfl rfl ?_ (.inl rfl) id (.inl rfl) rfl rfl rfl
      exact BatchState.eq_of_canTransitionTo hmove.1
    · cases hs
  | prepare =>
    rw [step] at hs
    split at hs
    · cases hs
    · cases hs
      exact h.same hentry rfl rfl (fun _ => rfl) (.inl rfl) (fun _ => rfl) (.inl rfl) rfl rfl rfl
  | withdraw =>
    cases hs
    exact h.same hentry rfl rfl (fun _ => rfl) (.inr rfl) id (.inl rfl) rfl rfl rfl
  | prune =>
    cases hs
    exact h.same hentry rfl rfl (fun _ => rfl) (.inl rfl) id (.inl rfl) rfl rfl rfl
  | sweep =>
    rw [step] at hs
    split at hs
    · cases hs
      have hcleaned : ∃ part, w.port.cleanupPartialFiles direction = { w.port with part } ∧
          (part = w.port.part ∨ part = none) := by
        rw [EntryPort.cleanupPartialFiles]
        split
        · exact ⟨none, rfl, .inr rfl⟩
        · exact ⟨w.port.part, rfl, .inl rfl⟩
      obtain ⟨part, heq, hpart⟩ := hcleaned
      rw [heq] at hentry ⊢
      exact h.same hentry rfl rfl (fun _ => rfl) (.inl rfl) id hpart rfl rfl rfl
    · cases hs
  | tick seconds =>
    cases hs
    exact h.same hentry rfl rfl (fun _ => rfl) (.inl rfl) id (.inl rfl) rfl rfl rfl
  | powerFailure junk => exact hok.2.elim

theorem respectsCancel_of {thread fresh : Nat} {input : Input} {s : Stage}
    (hthread : w.threads thread = some s) (hoffer : s ≠ .offering)
    (hopens : s.opens = false) : RespectsCancel w (.step thread input fresh) := by
  constructor
  · intro hoffering
    exact absurd (Option.some.inj (hthread.symm.trans hoffering)) hoffer
  · intro s' hs' hopening
    obtain rfl : s = s' := Option.some.inj (hthread.symm.trans hs')
    rw [hopens] at hopening
    cases hopening

theorem CancelInv.final (h : CancelInv direction w) : CancelFinal w := by
  intro hcanceled hquiet
  have hticket : w.port.ticketIsActive = false := by
    rw [EntryPort.ticketIsActive, h.ticket (.inl hcanceled)]
    rfl
  refine ⟨?_, h.terminal hcanceled, hticket⟩
  by_contra hpart
  obtain ⟨-, i, s, hi, hs⟩ := h.swept hcanceled (Option.isSome_iff_ne_none.2 hpart)
  obtain ⟨answer, rfl⟩ := hquiet i s hi
  cases hs

variable (hashFile entry direction) in
/-- In every run in which no ticket is issued after a cancellation has taken it away, a cancellation
is final and leaves what was committed before. -/
theorem cancel_final (es : List PortEvent)
    (hok : Machine.Along (step hashFile entry direction) CancelOk {} es) :
    Machine.Always (step hashFile entry direction) CancelFinal {} es ∧
      Machine.Along (step hashFile entry direction)
        (fun w e => ∀ w', w.step hashFile entry direction e = some w' → KeepsTarget w w') {} es := by
  have hstart : CancelInv direction {} := cancelInv_start
  constructor
  · refine Machine.always_of_along (CancelInv direction) es hstart hstart.final ?_ hok
    intro w e w' hinv hok hs
    have hinv' := (cancelInv_step hinv hok hs).1
    exact ⟨hinv', hinv'.final⟩
  · refine Machine.Along.of_invariant (CancelInv direction) es hstart ?_ hok
    intro w e w' hinv hok hs
    refine ⟨(cancelInv_step hinv hok hs).1, ?_⟩
    intro w'' hs'
    exact (cancelInv_step hinv hok hs').2

/-- The batch is offered and canceled. -/
def offeredThenCanceled : List PortEvent :=
  [.offer 0, .step 0 .go 9, .cancel 1] ++ goes 3 1 9

theorem cancel_final_offered :
    Machine.Always (step (fun _ => "h") twoBytes .phoneToComputer) CancelFinal {}
        offeredThenCanceled ∧
      Machine.Along (step (fun _ => "h") twoBytes .phoneToComputer)
        (fun w e => ∀ w', w.step (fun _ => "h") twoBytes .phoneToComputer e = some w' →
          KeepsTarget w w') {} offeredThenCanceled := by
  refine cancel_final (fun _ => "h") twoBytes .phoneToComputer offeredThenCanceled ?_
  have hnotWithdrawn : ¬Withdrawn
      { threads := Function.update (fun _ => none) 0 (some .offering) } := by
    rintro (hcanceled | hclearing)
    · cases hcanceled
    · exact not_occupied_empty (hclearing.of_update Bool.false_ne_true)
  refine ⟨⟨trivial, trivial⟩, ⟨?_, ?_⟩, ⟨trivial, trivial⟩, ⟨?_, ?_⟩, ⟨?_, ?_⟩, ⟨?_, ?_⟩, trivial⟩
  · intro r hr
    cases hr
  · refine ⟨fun _ => hnotWithdrawn, fun s hs hopens => ?_⟩
    obtain rfl := Option.some.inj hs
    cases hopens
  · intro r hr
    cases hr
  · exact respectsCancel_of (s := .canceling) rfl Stage.noConfusion rfl
  · intro r hr
    cases hr
  · exact respectsCancel_of (s := .withdrawing) rfl Stage.noConfusion rfl
  · intro r hr
    cases hr
  · exact respectsCancel_of (s := .clearing) rfl Stage.noConfusion rfl

/-- While the batch is offered once more it is canceled, and the ticket comes after that. -/
def reofferedLate : List PortEvent :=
  [.offer 0, .step 0 .go 9, .offer 1, .cancel 2] ++ goes 3 2 9 ++ [.step 1 .go 9]

theorem reoffered_not_final :
    ¬Machine.Always (step (fun _ => "h") twoBytes .phoneToComputer) CancelFinal {}
      reofferedLate := by
  intro h
  have hend : (Machine.run (step (fun _ => "h") twoBytes .phoneToComputer) {} reofferedLate).any
      (fun w => decide (w.port.canceled = true ∧ w.port.ticketIsActive = true ∧
        ∀ i < 10, (w.threads i).all fun s => decide (s = .answered .done))) = true := by
    decide +kernel
  obtain ⟨w, hrun, hw⟩ := (Option.any_eq_true _ _).1 hend
  obtain ⟨hcanceled, hticket, hthreads⟩ := of_decide_eq_true hw
  have hquiet : w.Quiet := by
    refine all_of_below (n := 10) (by decide) hrun ?_
    intro i hlt s hi
    have hall := hthreads i hlt
    rw [hi] at hall
    exact ⟨.done, of_decide_eq_true hall⟩
  obtain ⟨-, -, hnone⟩ := h.last _ hrun hcanceled hquiet
  rw [hticket] at hnone
  cases hnone

end PortWorld

end FlowType
