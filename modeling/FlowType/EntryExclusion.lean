import FlowType.DataPort
import FlowType.Threads

/-! Which requests and jobs work on an entry at the same time. `operations` lets one request in,
`verifications` knows the job that outlives its request; they are checked one after the other. -/
namespace FlowType

open Threads

namespace Runner

def isJob : Runner → Bool
  | .job => true
  | .request => false

end Runner

namespace Stage

/-- The stages of a request that has the lease. -/
def holdsLease : Stage → Bool
  | .leased _ | .opening _ _ | .opened _ _ _ | .receiving _ _ _ | .persisting _ _ _
  | .recording _ _ _ | .ending _ _ _ | .finishing _ _ _ | .failing _ | .discarding
  | .releasing _ => true
  | .verifying runner _ | .comparing runner _ _ | .compared runner _ | .committing runner
  | .completing runner => !runner.isJob
  | _ => false

def isLiveJob : Stage → Bool
  | .verifying runner _ | .comparing runner _ _ | .compared runner _ | .committing runner
  | .completing runner => runner.isJob
  | .settling _ => true
  | _ => false

def checkedRequest : Stage → Option Request
  | .checked r => some r
  | _ => none

theorem eq_checked {s : Stage} {r : Request} (h : s.checkedRequest = some r) : s = .checked r := by
  cases s with
  | checked r' => exact congrArg checked (Option.some.inj h)
  | _ => cases h

end Stage

/-- The requests that own the entry: an upload, a verification that the request runs itself and
the report of a failure. -/
def Request.ownsEntry : Request → Bool
  | .upload _ _ => true
  | .verify _ async => !async
  | .failure => true
  | _ => false

def Stage.ownsEntry : Stage → Bool
  | .leased r => r.ownsEntry
  | .opening _ _ | .opened _ _ _ | .receiving _ _ _ | .persisting _ _ _ | .recording _ _ _
  | .ending _ _ _ | .finishing _ _ _ | .failing _ | .discarding => true
  | .verifying _ _ | .comparing _ _ _ | .compared _ _ | .committing _ | .completing _
  | .settling _ => true
  | _ => false

def EntryPort.hasLiveJob (p : EntryPort) : Bool := p.verification.any (·.result.isNone)

namespace EntryPort
variable (hashFile : List UInt8 → String) (entry : ManifestEntry)
  (direction : TransferDirection)

inductive LeaseEffect (p : EntryPort) (s : Stage) (e : StageEffect) : Prop
  | take (r : Request) (hs : s = .checked r) (hfree : p.operation = false)
      (hport : e.port = { p with operation := true }) (hnext : e.next = .leased r)
      (hspawned : e.spawned = none)
  | drop (answer : Answer) (hs : s = .releasing answer)
      (hport : e.port = { p with operation := false }) (hnext : e.next = .released answer)
      (hspawned : e.spawned = none)
  | start (hash : String) (hs : s = .leased (.verify hash true)) (hnone : p.hasLiveJob = false)
      (hop : e.port.operation = p.operation) (hjob : e.port.hasLiveJob = true)
      (hnext : e.next = .releasing .verifying) (hspawned : e.spawned = some (.verifying .job hash))
  | settle (result : Answer) (hs : s = .settling result) (hop : e.port.operation = p.operation)
      (hjob : e.port.hasLiveJob = false) (hnext : e.next = .released result)
      (hspawned : e.spawned = none)
  | other (hop : e.port.operation = p.operation) (hjob : e.port.hasLiveJob = p.hasLiveJob)
      (hholds : e.next.holdsLease = s.holdsLease) (hlive : e.next.isLiveJob = s.isLiveJob)
      (howns : e.next.ownsEntry = true → s.ownsEntry = true) (hspawned : e.spawned = none)
      (hpolled : e.port.verification = p.verification ∨ ∃ hash, s = .leased (.verify hash true))

variable {hashFile entry direction}

theorem LeaseEffect.same {p : EntryPort} {s : Stage} {e : StageEffect}
    (hop : e.port.operation = p.operation) (hver : e.port.verification = p.verification)
    (hholds : e.next.holdsLease = s.holdsLease) (hlive : e.next.isLiveJob = s.isLiveJob)
    (howns : e.next.ownsEntry = true → s.ownsEntry = true) (hspawned : e.spawned = none) :
    LeaseEffect p s e :=
  .other hop (by rw [hasLiveJob, hasLiveJob, hver]) hholds hlive howns hspawned (.inl hver)

theorem orFail_cases (p : EntryPort) (failed : Answer → Stage) (input : Input)
    (effect : StageEffect) :
    (∃ code, p.orFail failed input effect = { port := p, next := failed (.error code) }) ∨
      p.orFail failed input effect = effect := by
  cases input with
  | fail code => exact .inl ⟨code, rfl⟩
  | go => exact .inr rfl
  | frame data persist => exact .inr rfl
  | endOfBody => exact .inr rfl

/-- A step that a failure may end, with the lease and the jobs as they are. -/
theorem LeaseEffect.of_orFail {p : EntryPort} {s : Stage} {failed : Answer → Stage}
    {input : Input} {effect : StageEffect} (heffect : LeaseEffect p s effect)
    (hholds : ∀ answer, (failed answer).holdsLease = s.holdsLease)
    (hlive : ∀ answer, (failed answer).isLiveJob = s.isLiveJob)
    (howns : ∀ answer, (failed answer).ownsEntry = true → s.ownsEntry = true) :
    LeaseEffect p s (p.orFail failed input effect) := by
  rcases orFail_cases p failed input effect with ⟨code, h⟩ | h
  · rw [h]
    exact .same rfl rfl (hholds _) (hlive _) (howns _) rfl
  · rw [h]
    exact heffect

theorem hasLiveJob_keptVerification (p : EntryPort) :
    p.keptVerification.any (·.result.isNone) = p.hasLiveJob := by
  unfold keptVerification hasLiveJob
  cases p.verification with
  | none => rfl
  | some job =>
    cases hresult : job.result with
    | none => simp [hresult]
    | some result =>
      by_cases hlate : p.now < job.started + 600
      · simp [hresult, hlate]
      · simp [hresult, hlate]

theorem leaseEffect_pollVerification (p : EntryPort) (hash : String) :
    LeaseEffect p (.leased (.verify hash true)) (p.pollVerification hash) := by
  have hlive := hasLiveJob_keptVerification p
  unfold pollVerification
  split
  · rename_i job hjob
    rw [hjob] at hlive
    split
    · exact .other rfl hlive rfl rfl (by simp [Stage.ownsEntry]) rfl (.inr ⟨hash, rfl⟩)
    · split
      · rename_i result hresult
        refine .other rfl ?_ rfl rfl (by simp [Stage.ownsEntry]) rfl (.inr ⟨hash, rfl⟩)
        rw [← hlive]
        simp [hasLiveJob, hresult]
      · exact .other rfl hlive rfl rfl (by simp [Stage.ownsEntry]) rfl (.inr ⟨hash, rfl⟩)
  · rename_i hnone
    rw [hnone] at hlive
    exact .start hash rfl hlive.symm rfl rfl rfl rfl

theorem leaseEffect_serve (p : EntryPort) (r : Request) :
    LeaseEffect p (.leased r) (p.serve entry direction r) := by
  cases r with
  | head =>
    rw [serve]
    split
    · exact .same rfl rfl rfl rfl (by simp [Stage.ownsEntry]) rfl
    · exact .same rfl rfl rfl rfl (by simp [Stage.ownsEntry]) rfl
  | upload offset deferredHash =>
    rw [serve, serveUpload]
    split_ifs <;> exact .same rfl rfl rfl rfl (fun _ => rfl) rfl
  | verify hash async =>
    cases async with
    | true => exact leaseEffect_pollVerification p hash
    | false => exact .same rfl rfl rfl rfl (fun _ => rfl) rfl
  | failure =>
    rw [serve]
    split
    · exact .same rfl rfl rfl rfl (fun _ => rfl) rfl
    · exact .same rfl rfl rfl rfl (fun _ => rfl) rfl
  | other => exact .same rfl rfl rfl rfl (by simp [serve, Stage.ownsEntry]) rfl

@[simp] theorem holdsLease_concluded (runner : Runner) (answer : Answer) :
    (runner.concluded answer).holdsLease = !runner.isJob := by
  cases runner <;> rfl

@[simp] theorem isLiveJob_concluded (runner : Runner) (answer : Answer) :
    (runner.concluded answer).isLiveJob = runner.isJob := by
  cases runner <;> rfl

/-- The steps of a verification stay with the one who runs it. -/
theorem LeaseEffect.of_verification {p : EntryPort} {s : Stage} {runner : Runner}
    {e : StageEffect}
    (hholds : s.holdsLease = !runner.isJob) (hlive : s.isLiveJob = runner.isJob)
    (howns : s.ownsEntry = true) (hop : e.port.operation = p.operation)
    (hjob : e.port.verification = p.verification) (hnextHolds : e.next.holdsLease = !runner.isJob)
    (hnextLive : e.next.isLiveJob = runner.isJob) (hspawned : e.spawned = none) :
    LeaseEffect p s e :=
  .same hop hjob (hnextHolds.trans hholds.symm) (hnextLive.trans hlive.symm) (fun _ => howns)
    hspawned

theorem leaseEffect_verification (p : EntryPort) (input : Input) {s : Stage} {runner : Runner}
    (hs : (∃ hash, s = .verifying runner hash) ∨ (∃ hash staged, s = .comparing runner hash staged) ∨
      (∃ staged, s = .compared runner staged) ∨ s = .committing runner ∨ s = .completing runner) :
    LeaseEffect p s (p.step hashFile entry direction input s) := by
  rcases hs with ⟨hash, rfl⟩ | ⟨hash, staged, rfl⟩ | ⟨staged, rfl⟩ | rfl | rfl
  · refine LeaseEffect.of_orFail ?_ (holdsLease_concluded runner) (isLiveJob_concluded runner)
      (fun _ _ => rfl)
    unfold startVerification
    split_ifs <;> exact .of_verification rfl rfl rfl rfl rfl (by first | rfl | simp)
      (by first | rfl | simp) rfl
  · refine LeaseEffect.of_orFail ?_ (holdsLease_concluded runner) (isLiveJob_concluded runner)
      (fun _ _ => rfl)
    unfold compareFile
    split
    · exact .of_verification rfl rfl rfl rfl rfl (by simp) (by simp) rfl
    · split
      · exact .of_verification rfl rfl rfl rfl rfl (by simp) (by simp) rfl
      · exact .of_verification rfl rfl rfl rfl rfl rfl rfl rfl
  · rw [step, checkTicket]
    split_ifs <;> exact .of_verification rfl rfl rfl rfl rfl (by first | rfl | simp)
      (by first | rfl | simp) rfl
  · refine LeaseEffect.of_orFail ?_ (holdsLease_concluded runner) (isLiveJob_concluded runner)
      (fun _ _ => rfl)
    unfold commitPart
    split
    · exact .of_verification rfl rfl rfl rfl rfl (by simp) (by simp) rfl
    · split
      · exact .of_verification rfl rfl rfl rfl rfl (by simp) (by simp) rfl
      · exact .of_verification rfl rfl rfl rfl rfl rfl rfl rfl
  · exact LeaseEffect.of_orFail
      (.of_verification rfl rfl rfl rfl rfl (by simp) (by simp) rfl)
      (holdsLease_concluded runner) (isLiveJob_concluded runner) (fun _ _ => rfl)

theorem leaseEffect_openStaged (p : EntryPort) (offset : Nat) (deferredHash : Bool) :
    LeaseEffect p (.opening offset deferredHash) (p.openStaged offset deferredHash) := by
  have hopened : p.openPart.1.operation = p.operation ∧
      p.openPart.1.verification = p.verification := by
    unfold openPart
    split
    · exact ⟨rfl, rfl⟩
    · exact ⟨rfl, rfl⟩
  unfold openStaged
  extract_lets opened data
  split
  · exact .same hopened.1 hopened.2 rfl rfl (fun _ => rfl) rfl
  · exact .same hopened.1 hopened.2 rfl rfl (fun _ => rfl) rfl

theorem leaseEffect_receive (p : EntryPort) (file received : Nat)
    (hashed : Option (List UInt8)) (input : Input) :
    LeaseEffect p (.receiving file received hashed) (p.receive entry file received hashed input) := by
  cases input with
  | go => exact .same rfl rfl rfl rfl (fun _ => rfl) rfl
  | fail code => exact .same rfl rfl rfl rfl (fun _ => rfl) rfl
  | endOfBody => exact .same rfl rfl rfl rfl (fun _ => rfl) rfl
  | frame data persist =>
    rw [receive, receiveFrame]
    split
    · exact .same rfl rfl rfl rfl (fun _ => rfl) rfl
    · split
      · exact .same rfl rfl rfl rfl (fun _ => rfl) rfl
      · refine .same rfl rfl ?_ ?_ (fun _ => rfl) rfl
        · split <;> rfl
        · split <;> rfl

theorem leaseEffect_finishBody (p : EntryPort) (file received : Nat)
    (hashed : Option (List UInt8)) :
    LeaseEffect p (.finishing file received hashed) (p.finishBody hashFile entry received hashed) := by
  unfold finishBody
  split_ifs <;> exact .same rfl rfl rfl rfl (fun _ => rfl) rfl

theorem operation_cleanupPartialFiles (p : EntryPort) :
    (p.cleanupPartialFiles direction).operation = p.operation ∧
      (p.cleanupPartialFiles direction).verification = p.verification := by
  unfold cleanupPartialFiles
  split
  · exact ⟨rfl, rfl⟩
  · exact ⟨rfl, rfl⟩

variable (hashFile entry direction) in
theorem leaseEffect_step (p : EntryPort) (input : Input) (s : Stage) :
    LeaseEffect p s (p.step hashFile entry direction input s) := by
  cases s with
  | authorized r =>
    rw [step]
    split
    · exact .same rfl rfl rfl rfl id rfl
    · exact .same rfl rfl rfl rfl id rfl
  | checked r =>
    rw [step]
    split
    · exact .same rfl rfl rfl rfl (by simp [Stage.ownsEntry]) rfl
    · rename_i hfree
      exact .take r rfl (by simpa using hfree) rfl rfl rfl
  | leased r =>
    exact (leaseEffect_serve p r).of_orFail (fun _ => rfl) (fun _ => rfl) (by simp [Stage.ownsEntry])
  | opening offset deferredHash =>
    exact (leaseEffect_openStaged p offset deferredHash).of_orFail (fun _ => rfl) (fun _ => rfl)
      (fun _ _ => rfl)
  | opened file offset deferredHash =>
    exact LeaseEffect.of_orFail (.same rfl rfl rfl rfl id rfl) (fun _ => rfl) (fun _ => rfl)
      (fun _ _ => rfl)
  | receiving file received hashed => exact leaseEffect_receive p file received hashed input
  | persisting file received hashed =>
    exact LeaseEffect.of_orFail (.same rfl rfl rfl rfl id rfl) (fun _ => rfl) (fun _ => rfl)
      (fun _ _ => rfl)
  | recording file received hashed =>
    exact LeaseEffect.of_orFail (.same rfl rfl rfl rfl id rfl) (fun _ => rfl) (fun _ => rfl)
      (fun _ _ => rfl)
  | ending file received hashed =>
    exact LeaseEffect.of_orFail (.same rfl rfl rfl rfl id rfl) (fun _ => rfl) (fun _ => rfl)
      (fun _ _ => rfl)
  | finishing file received hashed =>
    exact (leaseEffect_finishBody p file received hashed).of_orFail (fun _ => rfl) (fun _ => rfl)
      (fun _ _ => rfl)
  | verifying runner hash => exact leaseEffect_verification p input (.inl ⟨hash, rfl⟩)
  | comparing runner hash staged =>
    exact leaseEffect_verification p input (.inr (.inl ⟨hash, staged, rfl⟩))
  | compared runner staged => exact leaseEffect_verification p input (.inr (.inr (.inl ⟨staged, rfl⟩)))
  | committing runner => exact leaseEffect_verification p input (.inr (.inr (.inr (.inl rfl))))
  | completing runner => exact leaseEffect_verification p input (.inr (.inr (.inr (.inr rfl))))
  | settling result =>
    refine .settle result rfl rfl ?_ rfl rfl
    change (p.verification.map _).any _ = false
    cases p.verification <;> rfl
  | failing offset =>
    refine LeaseEffect.of_orFail (.same rfl rfl ?_ ?_ (fun _ => rfl) rfl) (fun _ => rfl)
      (fun _ => rfl) (fun _ _ => rfl)
    · dsimp only
      split <;> rfl
    · dsimp only
      split <;> rfl
  | discarding => exact .same rfl rfl rfl rfl (fun _ => rfl) rfl
  | releasing answer => exact .drop answer rfl rfl rfl rfl
  | released answer =>
    rw [step]
    split
    · exact .same rfl rfl rfl rfl id rfl
    · exact .same rfl rfl rfl rfl id rfl
  | sweeping answer =>
    exact .same (operation_cleanupPartialFiles p).1 (operation_cleanupPartialFiles p).2 rfl rfl id rfl
  | offering => exact .same rfl rfl rfl rfl id rfl
  | canceling =>
    rw [step]
    split
    · exact .same rfl rfl rfl rfl id rfl
    · exact .same rfl rfl rfl rfl id rfl
  | withdrawing => exact .same rfl rfl rfl rfl id rfl
  | clearing =>
    exact .same (operation_cleanupPartialFiles p).1 (operation_cleanupPartialFiles p).2 rfl rfl id rfl
  | answered answer => exact .same rfl rfl rfl rfl id rfl

end EntryPort

/-- All threads that an event names are below a bound. -/
def PortEvent.below (n : Nat) : PortEvent → Bool
  | .request thread _ => thread < n
  | .offer thread => thread < n
  | .cancel thread => thread < n
  | .step thread _ fresh => thread < n && fresh < n
  | _ => true

namespace PortWorld
variable {hashFile : List UInt8 → String} {entry : ManifestEntry} {direction : TransferDirection}
  {w w' : PortWorld}

/-- The two collections hold what the threads make of them: `operations` the one request that
has the lease, `verifications` the one job that is not finished. -/
structure LeaseInv (w : PortWorld) : Prop where
  held : w.port.operation = true ↔ Occupied w.threads fun s => s.holdsLease = true
  one : AtMostOne w.threads fun s => s.holdsLease = true
  live : w.port.hasLiveJob = true ↔ Occupied w.threads fun s => s.isLiveJob = true
  oneJob : AtMostOne w.threads fun s => s.isLiveJob = true

/-- No two threads own the entry. -/
def Exclusive (w : PortWorld) : Prop := AtMostOne w.threads fun s => s.ownsEntry = true

theorem leaseInv_of_threads_none (hop : w.port.operation = false) (hjob : w.port.hasLiveJob = false)
    (hthreads : w.threads = fun _ => none) : LeaseInv w := by
  refine ⟨?_, ?_, ?_, ?_⟩
  · rw [hop, hthreads]
    exact iff_of_false Bool.false_ne_true not_occupied_empty
  · rw [hthreads]
    exact atMostOne_empty
  · rw [hjob, hthreads]
    exact iff_of_false Bool.false_ne_true not_occupied_empty
  · rw [hthreads]
    exact atMostOne_empty

theorem start_eq {thread : Nat} {stage : Stage} (hs : w.start thread stage = some w') :
    w.threads thread = none ∧
      w' = { w with threads := Function.update w.threads thread (some stage) } := by
  unfold start at hs
  split at hs
  · rename_i hfree
    exact ⟨hfree, (Option.some.inj hs).symm⟩
  · cases hs

theorem LeaseInv.start (h : LeaseInv w) {thread : Nat} {stage : Stage}
    (hs : w.start thread stage = some w') (hholds : stage.holdsLease = false)
    (hlive : stage.isLiveJob = false) : LeaseInv w' := by
  obtain ⟨hfree, rfl⟩ := start_eq hs
  refine ⟨?_, ?_, ?_, ?_⟩
  · rw [occupied_start_iff hfree (by simp [hholds])]
    exact h.held
  · exact h.one.start (by simp [hholds])
  · rw [occupied_start_iff hfree (by simp [hlive])]
    exact h.live
  · exact h.oneJob.start (by simp [hlive])

theorem stepThread_of_not_spawned {thread fresh : Nat} {stage : Stage} {input : Input}
    (h : (w.port.step hashFile entry direction input stage).spawned = none) :
    w.stepThread hashFile entry direction thread stage input fresh =
      { port := (w.port.step hashFile entry direction input stage).port
        threads := Function.update w.threads thread
          (some (w.port.step hashFile entry direction input stage).next) } := by
  unfold stepThread
  simp only [h]

theorem stepThread_of_spawned {thread fresh : Nat} {stage job : Stage} {input : Input}
    (h : (w.port.step hashFile entry direction input stage).spawned = some job) :
    w.stepThread hashFile entry direction thread stage input fresh =
      { port := (w.port.step hashFile entry direction input stage).port
        threads := Function.update (Function.update w.threads thread
          (some (w.port.step hashFile entry direction input stage).next)) fresh (some job) } := by
  unfold stepThread
  simp only [h]

theorem LeaseInv.stepThread (h : LeaseInv w) {thread fresh : Nat} {stage : Stage}
    (input : Input) (hthread : w.threads thread = some stage) (hfresh : w.threads fresh = none) :
    LeaseInv (w.stepThread hashFile entry direction thread stage input fresh) := by
  rcases EntryPort.leaseEffect_step hashFile entry direction w.port input stage with
    ⟨r, rfl, hfree, hport, hnext, hspawned⟩ | ⟨answer, rfl, hport, hnext, hspawned⟩ |
    ⟨hash, rfl, hnone, hop, hjob, hnext, hspawned⟩ | ⟨result, rfl, hop, hjob, hnext, hspawned⟩ |
    ⟨hop, hjob, hholds, hlive, -, hspawned, -⟩
  · rw [stepThread_of_not_spawned hspawned, hport, hnext]
    have hnone : ¬Occupied w.threads fun s => s.holdsLease = true := by
      rw [← h.held, hfree]
      exact Bool.false_ne_true
    refine ⟨?_, ?_, ?_, ?_⟩
    · exact iff_of_true rfl (Occupied.update_of rfl)
    · exact atMostOne_update_of_free hnone
    · rw [occupied_update_iff hthread (by simp [Stage.isLiveJob])]
      exact h.live
    · exact h.oneJob.update hthread (by simp [Stage.isLiveJob])
  · rw [stepThread_of_not_spawned hspawned, hport, hnext]
    refine ⟨?_, ?_, ?_, ?_⟩
    · exact iff_of_false Bool.false_ne_true
        (not_occupied_update h.one hthread rfl (by simp [Stage.holdsLease]))
    · exact h.one.update hthread (by simp [Stage.holdsLease])
    · rw [occupied_update_iff hthread (by simp [Stage.isLiveJob])]
      exact h.live
    · exact h.oneJob.update hthread (by simp [Stage.isLiveJob])
  · rw [stepThread_of_spawned hspawned, hnext]
    have hne : fresh ≠ thread := by
      rintro rfl
      rw [hfresh] at hthread
      cases hthread
    have hfresh' : Function.update w.threads thread (some (.releasing .verifying)) fresh = none := by
      rw [Function.update_of_ne hne, hfresh]
    have hfree : ¬Occupied w.threads fun s => s.isLiveJob = true := by
      rw [← h.live, hnone]
      exact Bool.false_ne_true
    have hfree' : ¬Occupied (Function.update w.threads thread (some (.releasing .verifying)))
        fun s => s.isLiveJob = true := by
      rw [occupied_update_iff hthread (by simp [Stage.isLiveJob])]
      exact hfree
    refine ⟨?_, ?_, ?_, ?_⟩
    · rw [hop, occupied_start_iff hfresh' (by simp [Stage.holdsLease, Runner.isJob]),
        occupied_update_iff hthread (by simp [Stage.holdsLease])]
      exact h.held
    · exact (h.one.update hthread (by simp [Stage.holdsLease])).start
        (by simp [Stage.holdsLease, Runner.isJob])
    · exact iff_of_true hjob (Occupied.update_of rfl)
    · exact atMostOne_update_of_free hfree'
  · rw [stepThread_of_not_spawned hspawned, hnext]
    refine ⟨?_, ?_, ?_, ?_⟩
    · rw [hop, occupied_update_iff hthread (by simp [Stage.holdsLease])]
      exact h.held
    · exact h.one.update hthread (by simp [Stage.holdsLease])
    · rw [hjob]
      exact iff_of_false Bool.false_ne_true
        (not_occupied_update h.oneJob hthread rfl (by simp [Stage.isLiveJob]))
    · exact h.oneJob.update hthread (by simp [Stage.isLiveJob])
  · rw [stepThread_of_not_spawned hspawned]
    refine ⟨?_, ?_, ?_, ?_⟩
    · rw [hop, occupied_update_iff hthread (by rw [hholds])]
      exact h.held
    · exact h.one.update hthread (by rw [hholds]; exact id)
    · rw [hjob, occupied_update_iff hthread (by rw [hlive])]
      exact h.live
    · exact h.oneJob.update hthread (by rw [hlive]; exact id)

theorem hasLiveJob_prune (p : EntryPort) :
    (p.verification.filter fun job => job.result.isNone).any (·.result.isNone) = p.hasLiveJob := by
  unfold EntryPort.hasLiveJob
  cases p.verification with
  | none => rfl
  | some job => cases hresult : job.result <;> simp [hresult]

theorem step_thread_eq {thread fresh : Nat} {input : Input}
    (hs : w.step hashFile entry direction (.step thread input fresh) = some w') :
    ∃ stage, w.threads thread = some stage ∧ w.threads fresh = none ∧
      w' = w.stepThread hashFile entry direction thread stage input fresh := by
  obtain ⟨stage, hstage, hs⟩ := Option.bind_eq_some_iff.1 hs
  split at hs
  · rename_i hfresh
    exact ⟨stage, hstage, hfresh, (Option.some.inj hs).symm⟩
  · cases hs

/-- The events that only start a thread do so before the lease is asked for. -/
theorem step_start {e : PortEvent} (hs : w.step hashFile entry direction e = some w')
    (he : (∃ thread r, e = .request thread r) ∨ (∃ thread, e = .offer thread) ∨
      ∃ thread, e = .cancel thread) :
    ∃ thread stage, w.start thread stage = some w' ∧ (∀ i input fresh, e ≠ .step i input fresh) ∧
      ((∃ r, stage = .authorized r) ∨ (∃ answer, stage = .answered answer) ∨ stage = .offering ∨
        stage = .canceling ∨ stage = .withdrawing) := by
  rcases he with ⟨thread, r, rfl⟩ | ⟨thread, rfl⟩ | ⟨thread, rfl⟩
  · rw [step] at hs
    split at hs
    · exact ⟨_, _, hs, by simp, .inl ⟨r, rfl⟩⟩
    · exact ⟨_, _, hs, by simp, .inr (.inl ⟨_, rfl⟩)⟩
  · rw [step] at hs
    split at hs
    · exact ⟨_, _, hs, by simp, .inr (.inl ⟨_, rfl⟩)⟩
    · exact ⟨_, _, hs, by simp, .inr (.inr (.inl rfl))⟩
  · rw [step] at hs
    split at hs
    · exact ⟨_, _, hs, by simp, .inr (.inr (.inr (.inr rfl)))⟩
    · exact ⟨_, _, hs, by simp, .inr (.inr (.inr (.inl rfl)))⟩

/-- What an event can be: a thread starts, a thread does a step, the rest of the program changes
the port, or the power fails. -/
theorem step_cases {e : PortEvent} (hs : w.step hashFile entry direction e = some w') :
    (∃ thread stage, w.start thread stage = some w' ∧ (∀ i input fresh, e ≠ .step i input fresh) ∧
      ((∃ r, stage = .authorized r) ∨ (∃ answer, stage = .answered answer) ∨ stage = .offering ∨
        stage = .canceling ∨ stage = .withdrawing)) ∨
    (∃ thread input fresh stage, e = .step thread input fresh ∧ w.threads thread = some stage ∧
      w.threads fresh = none ∧
      w' = w.stepThread hashFile entry direction thread stage input fresh) ∨
    (w'.threads = w.threads ∧ w'.port.operation = w.port.operation ∧
      w'.port.hasLiveJob = w.port.hasLiveJob ∧ ∀ thread input fresh, e ≠ .step thread input fresh) ∨
    ∃ junk, e = .powerFailure junk ∧ w'.port.operation = false ∧ w'.port.verification = none ∧
      w'.threads = fun _ => none := by
  cases e with
  | request thread r => exact .inl (step_start hs (.inl ⟨thread, r, rfl⟩))
  | offer thread => exact .inl (step_start hs (.inr (.inl ⟨thread, rfl⟩)))
  | cancel thread => exact .inl (step_start hs (.inr (.inr ⟨thread, rfl⟩)))
  | step thread input fresh =>
    obtain ⟨stage, hstage, hfresh, rfl⟩ := step_thread_eq hs
    exact .inr (.inl ⟨thread, input, fresh, stage, rfl, hstage, hfresh, rfl⟩)
  | move next =>
    rw [step] at hs
    split at hs
    · cases hs
      exact .inr (.inr (.inl ⟨rfl, rfl, rfl, by simp⟩))
    · cases hs
  | prepare =>
    rw [step] at hs
    split at hs
    · cases hs
    · cases hs
      exact .inr (.inr (.inl ⟨rfl, rfl, rfl, by simp⟩))
  | withdraw =>
    cases hs
    exact .inr (.inr (.inl ⟨rfl, rfl, rfl, by simp⟩))
  | prune =>
    cases hs
    exact .inr (.inr (.inl ⟨rfl, rfl, hasLiveJob_prune w.port, by simp⟩))
  | sweep =>
    rw [step] at hs
    split at hs
    · cases hs
      exact .inr (.inr (.inl ⟨rfl, (EntryPort.operation_cleanupPartialFiles w.port).1,
        congrArg (Option.any _) (EntryPort.operation_cleanupPartialFiles w.port).2, by simp⟩))
    · cases hs
  | tick seconds =>
    cases hs
    exact .inr (.inr (.inl ⟨rfl, rfl, rfl, by simp⟩))
  | powerFailure junk =>
    cases hs
    exact .inr (.inr (.inr ⟨junk, rfl, rfl, rfl, rfl⟩))

theorem LeaseInv.step (h : LeaseInv w) {e : PortEvent}
    (hs : w.step hashFile entry direction e = some w') : LeaseInv w' := by
  rcases step_cases hs with ⟨thread, stage, hstart, -, hstage⟩ |
    ⟨thread, input, fresh, stage, -, hthread, hfresh, rfl⟩ | ⟨hthreads, hop, hjob, -⟩ |
    ⟨junk, -, hop, hjob, hthreads⟩
  · refine h.start hstart ?_ ?_
    · rcases hstage with ⟨r, rfl⟩ | ⟨answer, rfl⟩ | rfl | rfl | rfl <;> rfl
    · rcases hstage with ⟨r, rfl⟩ | ⟨answer, rfl⟩ | rfl | rfl | rfl <;> rfl
  · exact h.stepThread input hthread hfresh
  · refine ⟨?_, ?_, ?_, ?_⟩
    · rw [hop, hthreads]
      exact h.held
    · rw [hthreads]
      exact h.one
    · rw [hjob, hthreads]
      exact h.live
    · rw [hthreads]
      exact h.oneJob
  · exact leaseInv_of_threads_none hop (by rw [EntryPort.hasLiveJob, hjob]; rfl) hthreads

theorem ownsEntry_cases {s : Stage} (h : s.ownsEntry = true) :
    s.holdsLease = true ∨ s.isLiveJob = true := by
  have hrunner : ∀ runner : Runner, (!runner.isJob) = true ∨ runner.isJob = true := by
    intro runner
    cases runner
    · exact .inl rfl
    · exact .inr rfl
  cases s <;> first | exact .inl rfl | exact .inr rfl | exact hrunner _ | cases h

theorem ownsEntry_of_isLiveJob {s : Stage} (h : s.isLiveJob = true) : s.ownsEntry = true := by
  cases s <;> first | rfl | cases h

/-- A step that lets a request take the entry does so while no job of the entry runs. The
code looks at the jobs too early, or not at all. -/
def TakesFreeEntry (w : PortWorld) : PortEvent → Prop
  | .step thread _ _ => ∀ r, w.threads thread = some (.checked r) → r.ownsEntry = true →
      w.port.operation = false → w.port.hasLiveJob = false
  | _ => True

instance TakesFreeEntry.decidable (w : PortWorld) : ∀ e, Decidable (w.TakesFreeEntry e)
  | .step thread _ _ =>
    decidable_of_iff
      (∀ s ∈ w.threads thread, ∀ r ∈ s.checkedRequest, r.ownsEntry = true →
        w.port.operation = false → w.port.hasLiveJob = false)
      (by
        constructor
        · intro h r hr
          exact h _ hr r rfl
        · intro h s hs r hr
          obtain rfl := Stage.eq_checked hr
          exact h r hs)
  | .request _ _ | .offer _ | .cancel _ | .move _ | .prepare | .withdraw | .prune | .sweep
  | .tick _ | .powerFailure _ => isTrue trivial

theorem exclusive_stepThread (h : LeaseInv w) (hexcl : Exclusive w) {thread fresh : Nat}
    {stage : Stage} (input : Input) (hthread : w.threads thread = some stage) :
    Exclusive (w.stepThread hashFile entry direction thread stage input fresh) ↔
      ∀ r, stage = .checked r → r.ownsEntry = true → w.port.operation = false →
        w.port.hasLiveJob = false := by
  rcases EntryPort.leaseEffect_step hashFile entry direction w.port input stage with
    ⟨r, rfl, hfree, hport, hnext, hspawned⟩ | ⟨answer, rfl, hport, hnext, hspawned⟩ |
    ⟨hash, rfl, hnone, hop, hjob, hnext, hspawned⟩ | ⟨result, rfl, hop, hjob, hnext, hspawned⟩ |
    ⟨hop, hjob, hholds, hlive, howns, hspawned, -⟩
  · rw [stepThread_of_not_spawned hspawned, hport, hnext]
    have hnotHeld : ¬Occupied w.threads fun s => s.holdsLease = true := by
      rw [← h.held, hfree]
      exact Bool.false_ne_true
    constructor
    · -- a running job and the request that comes in are two
      intro hnext r' hr' howns _
      obtain rfl : r = r' := by simpa using hr'
      by_contra hrunning
      obtain ⟨i, s, hi, hs⟩ := h.live.1 (by simpa using hrunning)
      have hne : i ≠ thread := by
        rintro rfl
        rw [hthread] at hi
        obtain rfl := Option.some.inj hi
        cases hs
      exact hne (hnext i thread s (.leased r) (by simp only [Function.update_of_ne hne, hi])
        (by simp only [Function.update_self]) (ownsEntry_of_isLiveJob hs) howns)
    · intro hok
      by_cases howns : r.ownsEntry = true
      · have hidle := hok r rfl howns hfree
        refine atMostOne_update_of_free ?_
        rintro ⟨i, s, hi, hs⟩
        rcases ownsEntry_cases hs with hholds | hlive
        · exact hnotHeld ⟨i, s, hi, hholds⟩
        · have hjob := h.live.2 ⟨i, s, hi, hlive⟩
          rw [hidle] at hjob
          cases hjob
      · exact hexcl.update hthread fun hleased => absurd hleased howns
  · rw [stepThread_of_not_spawned hspawned, hnext]
    exact iff_of_true (hexcl.update hthread (by simp [Stage.ownsEntry])) (by simp)
  · rw [stepThread_of_spawned hspawned, hnext]
    refine iff_of_true ?_ (by simp)
    have hnotLive : ¬Occupied w.threads fun s => s.isLiveJob = true := by
      rw [← h.live, hnone]
      exact Bool.false_ne_true
    refine atMostOne_update_of_free ?_
    intro hocc
    have hold : Occupied w.threads fun s => s.ownsEntry = true := by
      rwa [occupied_update_iff hthread (by simp [Stage.ownsEntry, Request.ownsEntry])] at hocc
    obtain ⟨i, s, hi, hs⟩ := hold
    rcases ownsEntry_cases hs with hholds | hlive
    · have hsame : i = thread := h.one i thread s _ hi hthread hholds rfl
      rw [hsame, hthread] at hi
      obtain rfl := Option.some.inj hi
      cases hs
    · exact hnotLive ⟨i, s, hi, hlive⟩
  · rw [stepThread_of_not_spawned hspawned, hnext]
    exact iff_of_true (hexcl.update hthread (by simp [Stage.ownsEntry])) (by simp)
  · rw [stepThread_of_not_spawned hspawned]
    refine iff_of_true (hexcl.update hthread howns) ?_
    rintro r rfl - hfree
    -- a request that can take the lease takes it
    have hleased : (w.port.step hashFile entry direction input (.checked r)).next = .leased r := by
      simp [EntryPort.step, hfree]
    rw [hleased] at hholds
    cases hholds

theorem exclusive_step (h : LeaseInv w) (hexcl : Exclusive w) {e : PortEvent}
    (hs : w.step hashFile entry direction e = some w') :
    Exclusive w' ↔ TakesFreeEntry w e := by
  rcases step_cases hs with ⟨thread, stage, hstart, he, hstage⟩ |
    ⟨thread, input, fresh, stage, rfl, hthread, hfresh, rfl⟩ | ⟨hthreads, -, -, he⟩ |
    ⟨junk, rfl, -, -, hthreads⟩
  · obtain ⟨hfree, rfl⟩ := start_eq hstart
    have hnot : stage.ownsEntry = false := by
      rcases hstage with ⟨r, rfl⟩ | ⟨answer, rfl⟩ | rfl | rfl | rfl <;> rfl
    refine iff_of_true (hexcl.start (by simp [hnot])) ?_
    cases e with
    | step thread input fresh => exact absurd rfl (he thread input fresh)
    | _ => trivial
  · rw [exclusive_stepThread h hexcl input hthread]
    constructor
    · intro hok r hr
      rw [hthread] at hr
      exact hok r (Option.some.inj hr)
    · intro hok r hr
      exact hok r (by rw [hthread, hr])
  · refine iff_of_true ?_ ?_
    · rw [Exclusive, hthreads]
      exact hexcl
    · cases e with
      | step thread input fresh => exact absurd rfl (he thread input fresh)
      | _ => trivial
  · refine iff_of_true ?_ trivial
    rw [Exclusive, hthreads]
    exact atMostOne_empty

/-- No two of an upload, a verification and the report of a failure work on an entry at the same
time, in every state of a run, exactly if no request of them takes the entry while a job runs. -/
theorem exclusive_iff (es : List PortEvent) :
    Machine.Always (step hashFile entry direction) Exclusive {} es ↔
      Machine.Along (step hashFile entry direction) TakesFreeEntry {} es := by
  refine Machine.always_iff_along LeaseInv es ?_ ?_ ?_
  · exact leaseInv_of_threads_none rfl rfl rfl
  · exact atMostOne_empty
  · intro w e w' h hexcl hs
    exact ⟨exclusive_step h hexcl hs, fun _ => h.step hs⟩

theorem threads_start_beyond {thread n : Nat} {stage : Stage} (hthread : thread < n)
    (hs : w.start thread stage = some w') {i : Nat} (hi : n ≤ i) (hnone : w.threads i = none) :
    w'.threads i = none := by
  obtain ⟨-, rfl⟩ := start_eq hs
  simp only [Function.update_of_ne (by omega : i ≠ thread), hnone]

theorem threads_beyond_step {n : Nat} {e : PortEvent} (he : e.below n = true)
    (hs : w.step hashFile entry direction e = some w') {i : Nat} (hi : n ≤ i)
    (hnone : w.threads i = none) : w'.threads i = none := by
  cases e with
  | request thread r =>
    have hthread : thread < n := of_decide_eq_true he
    rw [step] at hs
    split at hs
    · exact threads_start_beyond hthread hs hi hnone
    · exact threads_start_beyond hthread hs hi hnone
  | offer thread =>
    have hthread : thread < n := of_decide_eq_true he
    rw [step] at hs
    split at hs
    · exact threads_start_beyond hthread hs hi hnone
    · exact threads_start_beyond hthread hs hi hnone
  | cancel thread =>
    have hthread : thread < n := of_decide_eq_true he
    rw [step] at hs
    split at hs
    · exact threads_start_beyond hthread hs hi hnone
    · exact threads_start_beyond hthread hs hi hnone
  | step thread input fresh =>
    obtain ⟨stage, -, -, rfl⟩ := step_thread_eq hs
    simp only [PortEvent.below, Bool.and_eq_true, decide_eq_true_eq] at he
    have hthread : i ≠ thread := by omega
    have hfresh : i ≠ fresh := by omega
    cases hspawned : (w.port.step hashFile entry direction input stage).spawned with
    | none =>
      rw [stepThread_of_not_spawned hspawned]
      simp only [Function.update_of_ne hthread, hnone]
    | some job =>
      rw [stepThread_of_spawned hspawned]
      simp only [Function.update_of_ne hfresh, Function.update_of_ne hthread, hnone]
  | powerFailure junk =>
    cases hs
    rfl
  | move next =>
    rw [step] at hs
    split at hs <;> cases hs
    exact hnone
  | prepare =>
    rw [step] at hs
    split at hs <;> cases hs
    exact hnone
  | sweep =>
    rw [step] at hs
    split at hs <;> cases hs
    exact hnone
  | withdraw =>
    cases hs
    exact hnone
  | prune =>
    cases hs
    exact hnone
  | tick seconds =>
    cases hs
    exact hnone

theorem threads_beyond {n : Nat} {es : List PortEvent} (hes : ∀ e ∈ es, e.below n = true)
    (hr : Machine.run (step hashFile entry direction) w es = some w') {i : Nat} (hi : n ≤ i)
    (hnone : w.threads i = none) : w'.threads i = none := by
  induction es generalizing w with
  | nil =>
    obtain rfl := Option.some.inj hr
    exact hnone
  | cons e es ih =>
    obtain ⟨v, hv, hr⟩ := Option.bind_eq_some_iff.1 hr
    have hstep := threads_beyond_step (hes e List.mem_cons_self) hv hi hnone
    exact ih (fun e he => hes e (List.mem_cons_of_mem _ he)) hr hstep

/-- What holds of the first threads holds of all that such a run has started. -/
theorem all_of_below {P : Stage → Prop} {n : Nat} {es : List PortEvent}
    (hes : ∀ e ∈ es, e.below n = true)
    (hr : Machine.run (step hashFile entry direction) {} es = some w)
    (hfirst : ∀ i < n, ∀ s, w.threads i = some s → P s) : All w.threads P := by
  intro i s hi
  by_cases hlt : i < n
  · exact hfirst i hlt s hi
  · rw [threads_beyond hes hr (not_lt.1 hlt) rfl] at hi
    cases hi

/-- So many steps of a thread without input. -/
def goes (steps thread fresh : Nat) : List PortEvent :=
  List.replicate steps (.step thread .go fresh)

/-- A file of two bytes. -/
def twoBytes : ManifestEntry :=
  { ordinal := 0, entryId := "e", relativePath := ['f'], kind := .file, size := 2 }

/-- An upload looks at the jobs; then a verification of the entry is asked for, starts a job and
is answered; then the upload takes the entry. -/
def overtakenUpload : List PortEvent :=
  [.offer 0, .step 0 .go 4, .prepare, .request 1 (.upload 0 true), .step 1 .go 4,
    .request 2 (.verify "h" true)] ++ goes 3 2 3 ++ goes 2 2 4 ++
    goes 4 1 4

theorem overtaken_not_exclusive :
    ¬Machine.Always (step (fun _ => "h") twoBytes .phoneToComputer) Exclusive {} overtakenUpload := by
  intro h
  have hend : (Machine.run (step (fun _ => "h") twoBytes .phoneToComputer) {} overtakenUpload).any
      (fun w => decide (w.threads 1 = some (.receiving 0 0 none) ∧
        w.threads 3 = some (.verifying .job "h"))) = true := by
    decide +kernel
  obtain ⟨w, hrun, hw⟩ := (Option.any_eq_true _ _).1 hend
  obtain ⟨hupload, hjob⟩ := of_decide_eq_true hw
  have hsame : 1 = 3 := h.last _ hrun 1 3 _ _ hupload hjob rfl rfl
  cases hsame

/-- No upload, verification or failure report of the entry is being executed. -/
def Idle (w : PortWorld) : Prop := All w.threads fun s => s.ownsEntry = false

theorem leaseInv_run {es : List PortEvent}
    (hr : Machine.run (step hashFile entry direction) {} es = some w) : LeaseInv w :=
  Machine.run_invariant LeaseInv es (leaseInv_of_threads_none rfl rfl rfl)
    (fun _ _ _ h hs => h.step hs) hr

/-- A request other than a verification gets an entry on which nothing is executed exactly if no
result of a finished job waits for a poll and no other request for the entry is being answered. -/
theorem acquire_iff {es : List PortEvent}
    (hr : Machine.run (step hashFile entry direction) {} es = some w) (hidle : Idle w)
    {r : Request} (hverify : r.isVerify = false) :
    w.port.acquireOperation r = true ↔
      (∀ job, w.port.verification = some job → job.result = none) ∧
        All w.threads fun s => s.holdsLease = false := by
  have h := leaseInv_run hr
  have hlive : w.port.hasLiveJob = false := by
    rw [Bool.eq_false_iff, Ne, h.live, not_occupied_iff]
    intro i s hi hs
    have hnot : s.ownsEntry = false := hidle i s hi
    rw [ownsEntry_of_isLiveJob hs] at hnot
    cases hnot
  have hfree : w.port.operation = false ↔ All w.threads fun s => s.holdsLease = false := by
    rw [Bool.eq_false_iff, Ne, h.held, not_occupied_iff]
    simp [All]
  have hnone : w.port.verification = none ↔
      ∀ job, w.port.verification = some job → job.result = none := by
    constructor
    · intro hnone job hjob
      rw [hnone] at hjob
      cases hjob
    · intro hresult
      cases hjob : w.port.verification with
      | none => rfl
      | some job =>
        rw [EntryPort.hasLiveJob, hjob, Option.any_some, hresult job hjob] at hlive
        cases hlive
  rw [EntryPort.acquireOperation, hverify, ← hnone, ← hfree]
  simp

/-- A file is uploaded, its verification is asked for, and the job ends with nobody asking for
its result. -/
def unpolledJob : List PortEvent :=
  [.offer 0, .step 0 .go 4, .prepare, .request 1 (.upload 0 true)] ++
    goes 5 1 4 ++
    [.step 1 (.frame [1, 2] false) 4, .step 1 .endOfBody 4] ++
    goes 4 1 4 ++
    [.request 2 (.verify "h" true)] ++ goes 3 2 3 ++ goes 2 2 4 ++
    goes 7 3 4

theorem unpolled_refused :
    ∃ w, Machine.run (step (fun _ => "h") twoBytes .phoneToComputer) {} unpolledJob = some w ∧
      Idle w ∧ w.port.acquireOperation .head = false ∧
      w.port.acquireOperation (.upload 0 true) = false ∧
      w.port.acquireOperation .failure = false := by
  have hend : (Machine.run (step (fun _ => "h") twoBytes .phoneToComputer) {} unpolledJob).any
      (fun w => decide (((List.range 5).all fun i => (w.threads i).all (!·.ownsEntry)) = true ∧
        w.port.acquireOperation .head = false ∧
        w.port.acquireOperation (.upload 0 true) = false ∧
        w.port.acquireOperation .failure = false)) = true := by
    decide +kernel
  obtain ⟨w, hrun, hw⟩ := (Option.any_eq_true _ _).1 hend
  obtain ⟨hidle, hrefused⟩ := of_decide_eq_true hw
  refine ⟨w, hrun, ?_, hrefused⟩
  intro i s hi
  by_cases hlt : i < 5
  · have hall := List.all_eq_true.1 hidle i (List.mem_range.2 hlt)
    rw [hi] at hall
    simpa using hall
  · have hnone := threads_beyond (by decide) hrun (by omega : 5 ≤ i) rfl
    rw [hnone] at hi
    cases hi

theorem acquire_iff_start : ({} : PortWorld).port.acquireOperation .head = true ↔
    (∀ job, ({} : PortWorld).port.verification = some job → job.result = none) ∧
      All ({} : PortWorld).threads fun s => s.holdsLease = false := by
  have hrun : Machine.run (step (fun _ => "h") twoBytes .phoneToComputer) {} [] = some {} := rfl
  exact acquire_iff hrun all_empty rfl

end PortWorld

end FlowType
