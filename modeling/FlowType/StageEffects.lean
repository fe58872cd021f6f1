import FlowType.EntryStorage

/-! What one step of a thread can do to the staged file and the target, to what is known of the
batch, and where it leads the thread. -/
namespace FlowType

open Threads

namespace Stage

def handle : Stage → Option Nat
  | .opened file _ _ | .receiving file _ _ | .persisting file _ _ | .recording file _ _
  | .ending file _ _ | .finishing file _ _ => some file
  | _ => none

def opens : Stage → Bool
  | .opening _ _ => true
  | _ => false

def commits : Stage → Bool
  | .committing _ => true
  | _ => false

def clears : Stage → Bool
  | .clearing => true
  | _ => false

def willSweep : Stage → Bool
  | .released _ | .sweeping _ => true
  | s => s.holdsLease

theorem eq_opening {s : Stage} (h : s.opens = true) :
    ∃ offset deferredHash, s = .opening offset deferredHash := by
  cases s with
  | opening offset deferredHash => exact ⟨offset, deferredHash, rfl⟩
  | _ => cases h

end Stage

namespace EntryPort
variable (hashFile : List UInt8 → String) (entry : ManifestEntry) (direction : TransferDirection)

inductive DiskEffect (p : EntryPort) (s : Stage) (e : StageEffect) : Prop
  | kept (hpart : e.port.part = p.part ∨ e.port.part = none) (htarget : e.port.target = p.target)
      (hnextFile : e.port.nextFile = p.nextFile)
      (hfiles : ∀ file, s.handle ≠ some file → e.port.files file = p.files file)
      (hhandle : e.next.handle = none ∨ e.next.handle = s.handle)
  | opened (file : Nat) (hs : s.opens = true) (hpart : e.port.part = some file)
      (hfile : p.part = some file ∧ e.port.nextFile = p.nextFile ∨
        file = p.nextFile ∧ e.port.nextFile = p.nextFile + 1)
      (htarget : e.port.target = p.target)
      (hfiles : ∀ other, other ≠ file → e.port.files other = p.files other)
      (hhandle : e.next.handle = none ∨ e.next.handle = some file)
  | committed (file : Nat) (hs : s.commits = true) (hpart : p.part = some file)
      (hpart' : e.port.part = none) (hfree : p.target = none) (htarget : e.port.target = some file)
      (hnextFile : e.port.nextFile = p.nextFile) (hfiles : e.port.files = p.files)
      (hhandle : e.next.handle = none)

variable {hashFile entry direction} {p : EntryPort}

theorem DiskEffect.same {s : Stage} {e : StageEffect} (hport : e.port.storage = p.storage)
    (hhandle : e.next.handle = none ∨ e.next.handle = s.handle) : DiskEffect p s e :=
  .kept (.inl (congrArg Storage.part hport)) (congrArg Storage.target hport)
    (congrArg Storage.nextFile hport) (fun file _ => congrFun (congrArg Storage.files hport) file)
    hhandle

theorem DiskEffect.of_orFail {s : Stage} {failed : Answer → Stage} {input : Input}
    {effect : StageEffect} (hfailed : ∀ answer, (failed answer).handle = none)
    (heffect : DiskEffect p s effect) : DiskEffect p s (p.orFail failed input effect) := by
  rcases orFail_cases p failed input effect with ⟨code, h⟩ | h
  · rw [h]
    exact .same rfl (.inl (hfailed _))
  · rw [h]
    exact heffect

theorem handle_concluded (runner : Runner) (answer : Answer) :
    (runner.concluded answer).handle = none := by
  cases runner <;> rfl

theorem handle_serve (r : Request) : (p.serve entry direction r).next.handle = none := by
  cases r with
  | head =>
    rw [serve]
    split <;> rfl
  | upload offset deferredHash =>
    rw [serve, serveUpload]
    split_ifs <;> rfl
  | verify hash async =>
    cases async with
    | true =>
      change (p.pollVerification hash).next.handle = none
      unfold pollVerification
      split
      · split
        · rfl
        · split <;> rfl
      · rfl
    | false => rfl
  | failure =>
    rw [serve]
    split <;> rfl
  | other => rfl

theorem diskEffect_openStaged (offset : Nat) (deferredHash : Bool) :
    DiskEffect p (.opening offset deferredHash) (p.openStaged offset deferredHash) := by
  have hopened : ∃ file, p.openPart.2 = file ∧ p.openPart.1.part = some file ∧
      p.openPart.1.target = p.target ∧
      (p.part = some file ∧ p.openPart.1.nextFile = p.nextFile ∨
        file = p.nextFile ∧ p.openPart.1.nextFile = p.nextFile + 1) ∧
      ∀ other, other ≠ file → p.openPart.1.files other = p.files other := by
    unfold openPart
    cases hpart : p.part with
    | some file => exact ⟨file, rfl, hpart, rfl, .inl ⟨rfl, rfl⟩, fun _ _ => rfl⟩
    | none =>
      refine ⟨p.nextFile, rfl, rfl, rfl, .inr ⟨rfl, rfl⟩, ?_⟩
      intro other hother
      exact Function.update_of_ne hother _ _
  obtain ⟨file, hfile, hpart, htarget, hnextFile, hfiles⟩ := hopened
  rw [openStaged]
  split
  · exact .opened file rfl hpart hnextFile htarget hfiles (.inl rfl)
  · refine .opened file rfl hpart hnextFile htarget ?_ (.inr (congrArg some hfile))
    intro other hother
    refine (Function.update_of_ne ?_ _ _).trans (hfiles other hother)
    rw [hfile]
    exact hother

theorem diskEffect_receive (file received : Nat) (hashed : Option (List UInt8)) (input : Input) :
    DiskEffect p (.receiving file received hashed)
      (p.receive entry file received hashed input) := by
  cases input with
  | frame data persist =>
    rw [receive, receiveFrame]
    split
    · exact .same rfl (.inl rfl)
    · split
      · exact .same rfl (.inl rfl)
      · refine .kept (.inl rfl) rfl rfl ?_ (.inr ?_)
        · intro other hother
          refine Function.update_of_ne ?_ _ _
          rintro rfl
          exact hother rfl
        · dsimp only
          split <;> rfl
  | endOfBody => exact .same rfl (.inr rfl)
  | fail code => exact .same rfl (.inl rfl)
  | go => exact .same rfl (.inr rfl)

theorem diskEffect_sync {s next : Stage} {file : Nat} (hs : s.handle = some file)
    (hnext : next.handle = s.handle) :
    DiskEffect p s { port := p.setFile file (p.files file).sync, next } := by
  refine .kept (.inl rfl) rfl rfl ?_ (.inr hnext)
  intro other hother
  refine Function.update_of_ne ?_ _ _
  rintro rfl
  exact hother hs

theorem diskEffect_commitPart (runner : Runner) :
    DiskEffect p (.committing runner) (p.commitPart runner) := by
  rw [commitPart]
  split
  · exact .same rfl (.inl (handle_concluded _ _))
  · rename_i hfree
    split
    · exact .same rfl (.inl (handle_concluded _ _))
    · rename_i file hpart
      exact .committed file rfl hpart rfl (by simpa using hfree) rfl rfl rfl rfl

theorem diskEffect_cleanupPartialFiles {s : Stage} {next : Stage} (hnext : next.handle = none) :
    DiskEffect p s { port := p.cleanupPartialFiles direction, next } := by
  rw [cleanupPartialFiles]
  split
  · exact .kept (.inr rfl) rfl rfl (fun _ _ => rfl) (.inl hnext)
  · exact .same rfl (.inl hnext)

variable (hashFile entry direction) in
theorem diskEffect_step (p : EntryPort) (input : Input) (s : Stage) :
    DiskEffect p s (p.step hashFile entry direction input s) := by
  cases s with
  | authorized r =>
    rw [step]
    split <;> exact .same rfl (.inl rfl)
  | checked r =>
    rw [step]
    split <;> exact .same rfl (.inl rfl)
  | leased r =>
    exact .of_orFail (fun _ => rfl) (.same (serve_keeps p r).1 (.inl (handle_serve r)))
  | opening offset deferredHash =>
    exact .of_orFail (fun _ => rfl) (diskEffect_openStaged offset deferredHash)
  | opened file offset deferredHash =>
    exact .of_orFail (fun _ => rfl) (.kept (.inl rfl) rfl rfl (fun _ _ => rfl) (.inr rfl))
  | receiving file received hashed => exact diskEffect_receive file received hashed input
  | persisting file received hashed =>
    exact .of_orFail (fun _ => rfl) (diskEffect_sync rfl rfl)
  | recording file received hashed =>
    exact .of_orFail (fun _ => rfl) (.kept (.inl rfl) rfl rfl (fun _ _ => rfl) (.inr rfl))
  | ending file received hashed =>
    exact .of_orFail (fun _ => rfl) (diskEffect_sync rfl rfl)
  | finishing file received hashed =>
    refine .of_orFail (fun _ => rfl) ?_
    rw [finishBody]
    split
    · exact .kept (.inl rfl) rfl rfl (fun _ _ => rfl) (.inl rfl)
    · split
      · exact .same rfl (.inl rfl)
      · exact .kept (.inl rfl) rfl rfl (fun _ _ => rfl) (.inl rfl)
  | verifying runner hash =>
    refine .of_orFail (handle_concluded runner) ?_
    rw [startVerification]
    split_ifs
    · exact .same rfl (.inl (handle_concluded _ _))
    · exact .same rfl (.inl rfl)
    · exact .same rfl (.inl (handle_concluded _ _))
    · exact .same rfl (.inl rfl)
  | comparing runner hash staged =>
    refine .of_orFail (handle_concluded runner) ?_
    unfold compareFile
    split
    · exact .same rfl (.inl (handle_concluded _ _))
    · split
      · exact .same rfl (.inl (handle_concluded _ _))
      · exact .same rfl (.inl rfl)
  | compared runner staged =>
    rw [step, checkTicket]
    split_ifs
    · exact .same rfl (.inl (handle_concluded _ _))
    · exact .same rfl (.inl rfl)
    · exact .same rfl (.inl rfl)
  | committing runner =>
    exact .of_orFail (handle_concluded runner) (diskEffect_commitPart runner)
  | completing runner =>
    refine .of_orFail (handle_concluded runner) ?_
    exact .kept (.inl rfl) rfl rfl (fun _ _ => rfl) (.inl (handle_concluded _ _))
  | settling result => exact .same rfl (.inl rfl)
  | failing offset =>
    refine .of_orFail (fun _ => rfl) (.kept (.inl rfl) rfl rfl (fun _ _ => rfl) (.inl ?_))
    dsimp only
    split <;> rfl
  | discarding => exact .kept (.inr rfl) rfl rfl (fun _ _ => rfl) (.inl rfl)
  | releasing answer => exact .same rfl (.inl rfl)
  | released answer =>
    rw [step]
    split <;> exact .same rfl (.inl rfl)
  | sweeping answer => exact diskEffect_cleanupPartialFiles rfl
  | offering => exact .same rfl (.inl rfl)
  | canceling =>
    rw [step]
    split <;> exact .same rfl (.inl rfl)
  | withdrawing => exact .same rfl (.inl rfl)
  | clearing =>
    rw [step, cleanupPartialFiles]
    split
    · exact .kept (.inr rfl) rfl rfl (fun _ _ => rfl) (.inl rfl)
    · exact .same rfl (.inl rfl)
  | answered answer => exact .same rfl (.inl rfl)

variable (hashFile entry direction) in
/-- Only an offer and the steps of a cancellation change what is known of the batch. -/
theorem batch_step_of (p : EntryPort) (input : Input) {s : Stage} (hoffer : s ≠ .offering)
    (hcancel : s ≠ .canceling) (hwithdraw : s ≠ .withdrawing) (hclear : s ≠ .clearing) :
    (p.step hashFile entry direction input s).port.batch = p.batch := by
  cases hworks : s.works with
  | true => exact batch_step hashFile entry direction p input hworks
  | false =>
    cases s with
    | authorized r =>
      rw [step]
      split <;> rfl
    | checked r =>
      rw [step]
      split <;> rfl
    | settling result => rfl
    | releasing answer => rfl
    | released answer =>
      rw [step]
      split <;> rfl
    | sweeping answer =>
      rw [step, cleanupPartialFiles]
      split <;> rfl
    | answered answer => rfl
    | offering => exact absurd rfl hoffer
    | canceling => exact absurd rfl hcancel
    | withdrawing => exact absurd rfl hwithdraw
    | clearing => exact absurd rfl hclear
    | _ => cases hworks

/-- What a step can do to the batch. -/
structure BatchEffect (p : EntryPort) (s : Stage) (e : StageEffect) : Prop where
  canceled : e.port.canceled = true → p.canceled = true ∨ s = .clearing
  ticket : s ≠ .offering → e.port.ticket = p.ticket ∨ e.port.ticket = none
  withdrawn : s = .withdrawing → e.port.ticket = none
  terminal : p.state.isTerminal = true → e.port.state = p.state
  prepared : e.port.prepared = p.prepared

theorem BatchEffect.same {s : Stage} {e : StageEffect} (h : e.port.batch = p.batch)
    (hs : s ≠ .withdrawing) : BatchEffect p s e where
  canceled hcanceled := .inl ((congrArg BatchView.canceled h).symm.trans hcanceled)
  ticket _ := .inl (congrArg BatchView.ticket h)
  withdrawn hwithdrawing := absurd hwithdrawing hs
  terminal _ := congrArg BatchView.state h
  prepared := congrArg BatchView.prepared h

variable (hashFile entry direction) in
theorem batchEffect_step (p : EntryPort) (input : Input) (s : Stage) :
    BatchEffect p s (p.step hashFile entry direction input s) := by
  cases s with
  | offering => exact ⟨.inl, fun h => absurd rfl h, Stage.noConfusion, fun _ => rfl, rfl⟩
  | canceling =>
    rw [step]
    split
    · rename_i hcan
      refine ⟨.inl, fun _ => .inl rfl, Stage.noConfusion, fun hterminal => ?_, rfl⟩
      exact BatchState.eq_of_canTransitionTo hcan hterminal
    · exact .same rfl Stage.noConfusion
  | withdrawing => exact ⟨.inl, fun _ => .inr rfl, fun _ => rfl, fun _ => rfl, rfl⟩
  | clearing =>
    rw [step, cleanupPartialFiles]
    split
    · exact ⟨fun _ => .inr rfl, fun _ => .inl rfl, Stage.noConfusion, fun _ => rfl, rfl⟩
    · exact ⟨fun _ => .inr rfl, fun _ => .inl rfl, Stage.noConfusion, fun _ => rfl, rfl⟩
  | _ =>
    refine .same (batch_step_of hashFile entry direction p input ?_ ?_ ?_ ?_) ?_ <;>
      exact Stage.noConfusion

variable (direction) in
inductive Leads (p : EntryPort) (s next : Stage) : Prop
  | commits (runner : Runner) (hs : s = .compared runner true) (hticket : p.ticketIsActive = true)
      (hnext : next = .committing runner)
  | opens (r : Request) (hs : s = .leased r) (hdirection : direction = .phoneToComputer)
      (hprepared : p.prepared = true) (hnext : next.opens = true)
  | clears (hs : s = .withdrawing) (hnext : next = .clearing)
  | other (hcommits : next.commits = false) (hopens : next.opens = false)
      (hclears : next.clears = false)

theorem Leads.concluded {s : Stage} (runner : Runner) (answer : Answer) :
    Leads direction p s (runner.concluded answer) := by
  cases runner
  · exact .other rfl rfl rfl
  · exact .other rfl rfl rfl

theorem Leads.of_orFail {s : Stage} {failed : Answer → Stage} {input : Input}
    {effect : StageEffect} (hfailed : ∀ answer, Leads direction p s (failed answer))
    (heffect : Leads direction p s effect.next) :
    Leads direction p s (p.orFail failed input effect).next := by
  rcases orFail_cases p failed input effect with ⟨code, h⟩ | h
  · rw [h]
    exact hfailed _
  · rw [h]
    exact heffect

theorem Leads.releasing {s : Stage} (answer : Answer) : Leads direction p s (.releasing answer) :=
  .other rfl rfl rfl

theorem leads_serve (r : Request) :
    Leads direction p (.leased r) (p.serve entry direction r).next := by
  cases r with
  | head =>
    rw [serve]
    split <;> exact .releasing _
  | upload offset deferredHash =>
    rw [serve, serveUpload]
    split_ifs with h₁ h₂ h₃ h₄ h₅
    · exact .releasing _
    · exact .releasing _
    · exact .releasing _
    · exact .releasing _
    · exact .releasing _
    · exact .opens _ rfl (not_not.1 h₁) (by simpa using h₄) rfl
  | verify hash async =>
    cases async with
    | true =>
      change Leads direction p _ (p.pollVerification hash).next
      unfold pollVerification
      split
      · split
        · exact .releasing _
        · split <;> exact .releasing _
      · exact .releasing _
    | false => exact .other rfl rfl rfl
  | failure =>
    rw [serve]
    split
    · exact .other rfl rfl rfl
    · exact .releasing _
  | other => exact .releasing _

theorem leads_receive (file received : Nat) (hashed : Option (List UInt8)) (input : Input) :
    Leads direction p (.receiving file received hashed)
      (p.receive entry file received hashed input).next := by
  cases input with
  | frame data persist =>
    rw [receive, receiveFrame]
    split
    · exact .releasing _
    · split
      · exact .releasing _
      · dsimp only
        split <;> exact .other rfl rfl rfl
  | _ => exact .other rfl rfl rfl

variable (hashFile entry direction) in
theorem leads_step (p : EntryPort) (input : Input) (s : Stage) :
    Leads direction p s (p.step hashFile entry direction input s).next := by
  have hother : ∀ {effect : StageEffect} {failed : Answer → Stage},
      (∀ answer, Leads direction p s (failed answer)) → effect.next.commits = false →
      effect.next.opens = false → effect.next.clears = false →
      Leads direction p s (p.orFail failed input effect).next :=
    fun hfailed hcommits hopens hclears => .of_orFail hfailed (.other hcommits hopens hclears)
  cases s with
  | authorized r =>
    rw [step]
    split <;> exact .other rfl rfl rfl
  | checked r =>
    rw [step]
    split <;> exact .other rfl rfl rfl
  | leased r => exact .of_orFail .releasing (leads_serve r)
  | opening offset deferredHash =>
    refine .of_orFail .releasing ?_
    rw [openStaged]
    split <;> exact .other rfl rfl rfl
  | opened file offset deferredHash => exact hother .releasing rfl rfl rfl
  | receiving file received hashed => exact leads_receive file received hashed input
  | persisting file received hashed => exact hother .releasing rfl rfl rfl
  | recording file received hashed => exact hother .releasing rfl rfl rfl
  | ending file received hashed => exact hother .releasing rfl rfl rfl
  | finishing file received hashed =>
    refine .of_orFail .releasing ?_
    rw [finishBody]
    split_ifs <;> exact .releasing _
  | verifying runner hash =>
    refine .of_orFail (.concluded runner) ?_
    rw [startVerification]
    split_ifs
    · exact .concluded _ _
    · exact .other rfl rfl rfl
    · exact .concluded _ _
    · exact .other rfl rfl rfl
  | comparing runner hash staged =>
    refine .of_orFail (.concluded runner) ?_
    unfold compareFile
    split
    · exact .concluded _ _
    · split
      · exact .concluded _ _
      · exact .other rfl rfl rfl
  | compared runner staged =>
    rw [step, checkTicket]
    split_ifs with hticket hstaged
    · exact .concluded _ _
    · obtain rfl := hstaged
      exact .commits runner rfl (by simpa using hticket) rfl
    · exact .other rfl rfl rfl
  | committing runner =>
    refine .of_orFail (.concluded runner) ?_
    unfold commitPart
    split
    · exact .concluded _ _
    · split
      · exact .concluded _ _
      · exact .other rfl rfl rfl
  | completing runner => exact .of_orFail (.concluded runner) (.concluded runner _)
  | settling result => exact .other rfl rfl rfl
  | failing offset =>
    refine .of_orFail .releasing ?_
    dsimp only
    split <;> exact .other rfl rfl rfl
  | discarding => exact .other rfl rfl rfl
  | releasing answer => exact .other rfl rfl rfl
  | released answer =>
    rw [step]
    split <;> exact .other rfl rfl rfl
  | sweeping answer => exact .other rfl rfl rfl
  | offering => exact .other rfl rfl rfl
  | canceling =>
    rw [step]
    split <;> exact .other rfl rfl rfl
  | withdrawing => exact .clears rfl rfl
  | clearing => exact .other rfl rfl rfl
  | answered answer => exact .other rfl rfl rfl

variable (hashFile entry) in
/-- Who will clear up goes on to do so, as long as the batch is canceled. -/
theorem willSweep_step (input : Input) {s : Stage} (hcanceled : p.state = .canceled)
    (hs : s.willSweep = true) (hsweeping : ∀ answer, s ≠ .sweeping answer) :
    (p.step hashFile entry direction input s).next.willSweep = true := by
  have hholds : s.holdsLease = true →
      (p.step hashFile entry direction input s).next.willSweep = true := by
    intro hheld
    have hwill : ∀ next : Stage, next.holdsLease = true → next.willSweep = true := by
      intro next hnext
      cases next with
      | released answer => rfl
      | sweeping answer => rfl
      | _ => exact hnext
    rcases leaseEffect_step hashFile entry direction p input s with
      ⟨r, rfl, -, -, hnext, -⟩ | ⟨answer, rfl, -, hnext, -⟩ | ⟨hash, rfl, -, -, -, hnext, -⟩ |
      ⟨result, rfl, -, -, hnext, -⟩ | ⟨-, -, hsame, -, -, -, -⟩
    · cases hheld
    · rw [hnext]
      rfl
    · rw [hnext]
      rfl
    · cases hheld
    · exact hwill _ (hsame.trans hheld)
  cases s with
  | released answer =>
    rw [step, if_pos hcanceled]
    rfl
  | sweeping answer => exact absurd rfl (hsweeping answer)
  | _ => exact hholds hs

end EntryPort

end FlowType
