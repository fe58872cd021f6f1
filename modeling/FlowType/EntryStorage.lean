import FlowType.EntryExclusion

/-! The durable data of an entry: the record of its progress, the staged file and the target. As
long as the batch is not terminal only the owner of the entry changes them, so what the owner
relies on holds until its next step; the others rely only on what the owner guarantees. -/
namespace FlowType

open Threads

structure Storage where
  progress : EntryProgress
  part : Option Nat
  target : Option Nat
  files : Nat → FileData
  nextFile : Nat
  sent : List UInt8

namespace Storage

/-- `file` holds the first `length` bytes that were sent, and a power failure leaves them. -/
structure Holds (d : Storage) (file length : Nat) : Prop where
  length_le : length ≤ (d.files file).bytes.length
  durable : length ≤ (d.files file).synced
  prefix_eq : (d.files file).bytes.take length = d.sent.take length

def powerFailure (d : Storage) (junk : Nat → List UInt8) : Storage :=
  { d with files := fun file => (d.files file).powerFailure (junk file) }

end Storage

def EntryPort.storage (p : EntryPort) : Storage :=
  { progress := p.progress
    part := p.part
    target := p.target
    files := p.files
    nextFile := p.nextFile
    sent := p.sent }

structure BatchView where
  state : BatchState
  prepared : Bool
  ticket : Option Nat
  now : Nat
  canceled : Bool
  deriving DecidableEq

def EntryPort.batch (p : EntryPort) : BatchView :=
  { state := p.state
    prepared := p.prepared
    ticket := p.ticket
    now := p.now
    canceled := p.canceled }

namespace Stage

def sweeps : Stage → Bool
  | .sweeping _ | .withdrawing | .clearing => true
  | _ => false

def works : Stage → Bool
  | .leased _ => true
  | .settling _ => false
  | s => s.ownsEntry

def waits : Stage → Option Request
  | .authorized r | .checked r => some r
  | _ => none

end Stage

theorem Stage.sweeps_of_holds {s : Stage} (h : s.holdsLease = true ∨ s.isLiveJob = true) :
    s.sweeps = false := by
  cases s with
  | sweeping answer => rcases h with h | h <;> cases h
  | withdrawing => rcases h with h | h <;> cases h
  | clearing => rcases h with h | h <;> cases h
  | _ => rfl

namespace EntryPort
variable {hashFile : List UInt8 → String} {entry : ManifestEntry} {direction : TransferDirection}

theorem pollVerification_keeps (p : EntryPort) (hash : String) :
    (p.pollVerification hash).port.storage = p.storage ∧
      (p.pollVerification hash).port.batch = p.batch := by
  unfold pollVerification
  split
  · split
    · exact ⟨rfl, rfl⟩
    · split <;> exact ⟨rfl, rfl⟩
  · exact ⟨rfl, rfl⟩

theorem serve_keeps (p : EntryPort) (r : Request) :
    (p.serve entry direction r).port.storage = p.storage ∧
      (p.serve entry direction r).port.batch = p.batch := by
  cases r with
  | head =>
    rw [serve]
    split <;> exact ⟨rfl, rfl⟩
  | upload offset deferredHash =>
    rw [serve, serveUpload]
    split_ifs <;> exact ⟨rfl, rfl⟩
  | verify hash async =>
    cases async with
    | true => exact pollVerification_keeps p hash
    | false => exact ⟨rfl, rfl⟩
  | failure =>
    rw [serve]
    split <;> exact ⟨rfl, rfl⟩
  | other => exact ⟨rfl, rfl⟩

theorem batch_orFail {p : EntryPort} {failed : Answer → Stage} {input : Input}
    {effect : StageEffect} (heffect : effect.port.batch = p.batch) :
    (p.orFail failed input effect).port.batch = p.batch := by
  rcases orFail_cases p failed input effect with ⟨code, h⟩ | h
  · rw [h]
  · rw [h]
    exact heffect

theorem batch_openStaged (p : EntryPort) (offset : Nat) (deferredHash : Bool) :
    (p.openStaged offset deferredHash).port.batch = p.batch := by
  have hopened : p.openPart.1.batch = p.batch := by
    unfold openPart
    split <;> rfl
  unfold openStaged
  extract_lets opened data
  split
  · exact hopened
  · exact hopened

theorem batch_receive (p : EntryPort) (file received : Nat) (hashed : Option (List UInt8))
    (input : Input) : (p.receive entry file received hashed input).port.batch = p.batch := by
  cases input with
  | frame data persist =>
    rw [receive, receiveFrame]
    split
    · rfl
    · split <;> rfl
  | _ => rfl

variable (hashFile entry direction) in
theorem batch_step (p : EntryPort) (input : Input) {s : Stage} (hworks : s.works = true) :
    (p.step hashFile entry direction input s).port.batch = p.batch := by
  cases s with
  | leased r => exact batch_orFail (serve_keeps p r).2
  | opening offset deferredHash => exact batch_orFail (batch_openStaged p offset deferredHash)
  | opened file offset deferredHash => exact batch_orFail rfl
  | receiving file received hashed => exact batch_receive p file received hashed input
  | persisting file received hashed => exact batch_orFail rfl
  | recording file received hashed => exact batch_orFail rfl
  | ending file received hashed => exact batch_orFail rfl
  | finishing file received hashed =>
    refine batch_orFail ?_
    unfold finishBody
    split_ifs <;> rfl
  | verifying runner hash =>
    refine batch_orFail ?_
    unfold startVerification
    split_ifs <;> rfl
  | comparing runner hash staged =>
    refine batch_orFail ?_
    unfold compareFile
    split
    · rfl
    · split <;> rfl
  | compared runner staged =>
    rw [step, checkTicket]
    split_ifs <;> rfl
  | committing runner =>
    refine batch_orFail ?_
    unfold commitPart
    split
    · rfl
    · split <;> rfl
  | completing runner => exact batch_orFail rfl
  | failing offset => exact batch_orFail rfl
  | discarding => rfl
  | _ => cases hworks

/-- No step of a thread reopens the batch. -/
theorem open_of_step (p : EntryPort) (input : Input) (s : Stage)
    (hopen : (p.step hashFile entry direction input s).port.state.isTerminal = false) :
    p.state.isTerminal = false := by
  by_cases hworks : s.works = true
  · have hbatch := congrArg BatchView.state (batch_step hashFile entry direction p input hworks)
    change (p.step hashFile entry direction input s).port.state = p.state at hbatch
    rwa [hbatch] at hopen
  · cases s with
    | authorized r =>
      rw [step] at hopen
      split at hopen <;> exact hopen
    | checked r =>
      rw [step] at hopen
      split at hopen <;> exact hopen
    | settling result => exact hopen
    | releasing answer => exact hopen
    | released answer =>
      rw [step] at hopen
      split at hopen <;> exact hopen
    | sweeping answer =>
      rw [step, cleanupPartialFiles] at hopen
      split at hopen <;> exact hopen
    | offering => exact hopen
    | canceling =>
      rw [step] at hopen
      split at hopen
      · cases hopen
      · exact hopen
    | withdrawing => exact hopen
    | clearing =>
      rw [step, cleanupPartialFiles] at hopen
      split at hopen <;> exact hopen
    | answered answer => exact hopen
    | _ => exact absurd rfl hworks

theorem storage_leased (p : EntryPort) (input : Input) (r : Request) :
    (p.step hashFile entry direction input (.leased r)).port.storage = p.storage := by
  rcases orFail_cases p .releasing input (p.serve entry direction r) with ⟨code, h⟩ | h
  · rw [step, h]
  · rw [step, h]
    exact (serve_keeps p r).1

variable (hashFile entry direction) in
/-- The other threads change nothing of the entry, unless the batch is terminal. -/
theorem storage_step (p : EntryPort) (input : Input) {s : Stage} (hworks : s.works = false)
    (hsweeps : s.sweeps = false) :
    (p.step hashFile entry direction input s).port.storage = p.storage := by
  cases s with
  | authorized r =>
    rw [step]
    split <;> rfl
  | checked r =>
    rw [step]
    split <;> rfl
  | settling result => rfl
  | releasing answer => rfl
  | released answer =>
    rw [step]
    split <;> rfl
  | offering => rfl
  | canceling =>
    rw [step]
    split <;> rfl
  | answered answer => rfl
  | sweeping answer => cases hsweeps
  | withdrawing => cases hsweeps
  | clearing => cases hsweeps
  | _ => cases hworks

variable (hashFile entry direction) in
/-- Only a request to verify starts a thread. -/
theorem spawned_cases (p : EntryPort) (input : Input) (s : Stage) :
    (p.step hashFile entry direction input s).spawned = none ∨
      ∃ hash, s = .leased (.verify hash true) ∧
        (p.step hashFile entry direction input s).spawned = some (.verifying .job hash) := by
  rcases leaseEffect_step hashFile entry direction p input s with
    ⟨r, rfl, hfree, hport, hnext, hspawned⟩ | ⟨answer, rfl, hport, hnext, hspawned⟩ |
    ⟨hash, rfl, hnone, hop, hjob, hnext, hspawned⟩ | ⟨result, rfl, hop, hjob, hnext, hspawned⟩ |
    ⟨hop, hjob, hholds, hlive, howns, hspawned, -⟩
  · exact .inl hspawned
  · exact .inl hspawned
  · exact .inr ⟨hash, rfl, hspawned⟩
  · exact .inl hspawned
  · exact .inl hspawned

/-- A thread that has worked on the entry does not sweep next. -/
theorem sweeps_of_works (p : EntryPort) (input : Input) {s : Stage} (hworks : s.works = true) :
    (p.step hashFile entry direction input s).next.sweeps = false := by
  rcases leaseEffect_step hashFile entry direction p input s with
    ⟨r, rfl, hfree, hport, hnext, hspawned⟩ | ⟨answer, rfl, hport, hnext, hspawned⟩ |
    ⟨hash, rfl, hnone, hop, hjob, hnext, hspawned⟩ | ⟨result, rfl, hop, hjob, hnext, hspawned⟩ |
    ⟨hop, hjob, hholds, hlive, howns, hspawned, -⟩
  · cases hworks
  · cases hworks
  · rw [hnext]
    rfl
  · cases hworks
  · apply Stage.sweeps_of_holds
    rw [hholds, hlive]
    cases s with
    | leased r => exact .inl rfl
    | authorized r => cases hworks
    | checked r => cases hworks
    | settling result => cases hworks
    | _ => exact PortWorld.ownsEntry_cases hworks

variable (hashFile entry direction) in
/-- Where such a thread stands afterwards. -/
theorem next_of_not_works (p : EntryPort) (input : Input) {s : Stage} (hworks : s.works = false)
    (hsweeps : s.sweeps = false) :
    (∃ r, s.waits = some r ∧ ((p.step hashFile entry direction input s).next = .checked r ∨
      (p.step hashFile entry direction input s).next = .leased r)) ∨
    (∃ answer, (p.step hashFile entry direction input s).next = .answered answer) ∨
    (∃ answer, (p.step hashFile entry direction input s).next = .released answer) ∨
    ((p.step hashFile entry direction input s).next.sweeps = true ∧
      (p.step hashFile entry direction input s).port.state.isTerminal = true) := by
  cases s with
  | authorized r =>
    rw [step]
    split
    · exact .inr (.inl ⟨_, rfl⟩)
    · exact .inl ⟨r, rfl, .inl rfl⟩
  | checked r =>
    rw [step]
    split
    · exact .inr (.inl ⟨_, rfl⟩)
    · exact .inl ⟨r, rfl, .inr rfl⟩
  | settling result => exact .inr (.inr (.inl ⟨_, rfl⟩))
  | releasing answer => exact .inr (.inr (.inl ⟨_, rfl⟩))
  | released answer =>
    rw [step]
    split
    · rename_i hcanceled
      exact .inr (.inr (.inr ⟨rfl, by rw [hcanceled]; rfl⟩))
    · exact .inr (.inl ⟨_, rfl⟩)
  | offering => exact .inr (.inl ⟨_, rfl⟩)
  | canceling =>
    rw [step]
    split
    · exact .inr (.inr (.inr ⟨rfl, rfl⟩))
    · exact .inr (.inl ⟨_, rfl⟩)
  | answered answer => exact .inr (.inl ⟨_, rfl⟩)
  | sweeping answer => cases hsweeps
  | withdrawing => cases hsweeps
  | clearing => cases hsweeps
  | _ => cases hworks

end EntryPort

/-- A request that works without owning the entry only looks at it. -/
theorem Stage.eq_leased {s : Stage} (hworks : s.works = true) (howns : s.ownsEntry = false) :
    ∃ r, s = .leased r := by
  cases s with
  | leased r => exact ⟨r, rfl⟩
  | _ =>
    first
    | exact absurd hworks Bool.false_ne_true
    | exact absurd howns.symm Bool.false_ne_true

namespace PortWorld

/-- All requests, jobs, offers and cancellations are over. -/
def Quiet (w : PortWorld) : Prop := All w.threads fun s => ∃ answer, s = .answered answer

variable (hashFile : List UInt8 → String) (entry : ManifestEntry) (direction : TransferDirection)

/-- What has to be shown of one entry: `J` holds of its data, `Q` is what a thread relies on, `T`
is what every step guarantees, and `ok` says which events are considered. -/
structure Discipline (ok : PortWorld → PortEvent → Prop) (J : Storage → Prop)
    (T : Storage → Storage → Prop) (Q : Storage → Stage → Prop) : Prop where
  refl : ∀ d, T d d
  idle : ∀ d s, s.works = false → s.waits = none → Q d s
  request : ∀ w thread r, ok w (.request thread r) → J w.port.storage →
    Q w.port.storage (.authorized r)
  pass : ∀ d r s, s.waits = some r → Q d s → Q d (.checked r) ∧ Q d (.leased r)
  job : ∀ d hash, Q d (.leased (.verify hash true)) → Q d (.verifying .job hash)
  stable : ∀ d d' s, s.ownsEntry = false → J d' → T d d' → Q d s → Q d' s
  step : ∀ w thread input fresh s, w.threads thread = some s → s.works = true →
    w.port.state.isTerminal = false → ok w (.step thread input fresh) → J w.port.storage →
    Q w.port.storage s →
      let effect := w.port.step hashFile entry direction input s
      J effect.port.storage ∧ T w.port.storage effect.port.storage ∧
        Q effect.port.storage effect.next
  crash : ∀ w junk, w.port.state.isTerminal = false → ok w (.powerFailure junk) →
    J w.port.storage →
      J (w.port.storage.powerFailure junk) ∧ T w.port.storage (w.port.storage.powerFailure junk)

structure EntryInv (J : Storage → Prop) (Q : Storage → Stage → Prop) (w : PortWorld) : Prop where
  lease : LeaseInv w
  exclusive : Exclusive w
  sweeps : All w.threads fun s => s.sweeps = true → w.port.state.isTerminal = true
  holds : w.port.state.isTerminal = false → J w.port.storage ∧ All w.threads (Q w.port.storage)

section Steps
variable {hashFile entry direction} {ok : PortWorld → PortEvent → Prop} {J : Storage → Prop}
  {T : Storage → Storage → Prop} {Q : Storage → Stage → Prop} {w w' : PortWorld}

theorem EntryInv.start (hJ : J ({} : EntryPort).storage) : EntryInv J Q {} :=
  ⟨leaseInv_of_threads_none rfl rfl rfl, atMostOne_empty, all_empty, fun _ => ⟨hJ, all_empty⟩⟩

/-- A thread's step, with what the other threads rely on. -/
theorem holds_stepThread (h : Discipline hashFile entry direction ok J T Q) (hinv : EntryInv J Q w)
    {thread fresh : Nat} {input : Input} {stage : Stage} (hstage : w.threads thread = some stage)
    (hok : ok w (.step thread input fresh)) (hwasOpen : w.port.state.isTerminal = false)
    (hopen : (w.port.step hashFile entry direction input stage).port.state.isTerminal = false) :
    let w' := w.stepThread hashFile entry direction thread stage input fresh
    J w'.port.storage ∧ All w'.threads (Q w'.port.storage) ∧ T w.port.storage w'.port.storage := by
  intro w'
  obtain ⟨hJ, hQ⟩ := hinv.holds hwasOpen
  have hsweeps : stage.sweeps = false := by
    by_contra hsweeps
    have hterminal := hinv.sweeps thread stage hstage (by simpa using hsweeps)
    rw [hwasOpen] at hterminal
    cases hterminal
  cases hworks : stage.works with
  | false =>
    have hstorage := EntryPort.storage_step hashFile entry direction w.port input hworks hsweeps
    have hspawned : (w.port.step hashFile entry direction input stage).spawned = none := by
      rcases EntryPort.spawned_cases hashFile entry direction w.port input stage with hnone | ⟨hash, rfl, -⟩
      · exact hnone
      · cases hworks
    have hw' : w' = _ := stepThread_of_not_spawned hspawned
    rw [hw']
    dsimp only
    rw [hstorage]
    refine ⟨hJ, hQ.update ?_, h.refl _⟩
    rcases EntryPort.next_of_not_works hashFile entry direction w.port input hworks hsweeps with
      ⟨r, hr, hnext | hnext⟩ | ⟨answer, hnext⟩ | ⟨answer, hnext⟩ | ⟨-, hterminal⟩
    · rw [hnext]
      exact (h.pass _ r stage hr (hQ thread stage hstage)).1
    · rw [hnext]
      exact (h.pass _ r stage hr (hQ thread stage hstage)).2
    · rw [hnext]
      exact h.idle _ _ rfl rfl
    · rw [hnext]
      exact h.idle _ _ rfl rfl
    · rw [hopen] at hterminal
      cases hterminal
  | true =>
    obtain ⟨hJ', hT, hnext⟩ :=
      h.step w thread input fresh stage hstage hworks hwasOpen hok hJ (hQ thread stage hstage)
    have hothers : ∀ i s, i ≠ thread → w.threads i = some s →
        Q (w.port.step hashFile entry direction input stage).port.storage s := by
      intro i s hi hs
      have hsQ := hQ i s hs
      cases hsOwns : s.ownsEntry with
      | false => exact h.stable _ _ s hsOwns hJ' hT hsQ
      | true =>
        cases hstageOwns : stage.ownsEntry with
        | true => exact absurd (hinv.exclusive i thread s stage hs hstage hsOwns hstageOwns) hi
        | false =>
          obtain ⟨r, rfl⟩ := Stage.eq_leased hworks hstageOwns
          rw [EntryPort.storage_leased]
          exact hsQ
    have hown : All (Function.update w.threads thread
        (some (w.port.step hashFile entry direction input stage).next))
        (Q (w.port.step hashFile entry direction input stage).port.storage) := by
      intro i s hs
      by_cases hi : i = thread
      · rw [hi, Function.update_self] at hs
        obtain rfl := Option.some.inj hs
        exact hnext
      · rw [Function.update_of_ne hi] at hs
        exact hothers i s hi hs
    rcases EntryPort.spawned_cases hashFile entry direction w.port input stage with
      hspawned | ⟨hash, rfl, hspawned⟩
    · have hw' : w' = _ := stepThread_of_not_spawned hspawned
      rw [hw']
      exact ⟨hJ', hown, hT⟩
    · have hw' : w' = _ := stepThread_of_spawned hspawned
      have hjob := h.job _ hash (hQ thread _ hstage)
      rw [hw']
      refine ⟨hJ', hown.update ?_, hT⟩
      rw [EntryPort.storage_leased]
      exact hjob

theorem start_threads {thread : Nat} {stage : Stage} (hs : w.start thread stage = some w') :
    w'.port = w.port ∧ w'.threads = Function.update w.threads thread (some stage) := by
  obtain ⟨-, rfl⟩ := start_eq hs
  exact ⟨rfl, rfl⟩

/-- The event does not reopen the batch. -/
theorem open_step {e : PortEvent} (hs : w.step hashFile entry direction e = some w')
    (hopen : w'.port.state.isTerminal = false) : w.port.state.isTerminal = false := by
  cases e with
  | request thread r =>
    obtain ⟨_, _, hstart, -⟩ := step_start hs (.inl ⟨thread, r, rfl⟩)
    rwa [(start_threads hstart).1] at hopen
  | offer thread =>
    obtain ⟨_, _, hstart, -⟩ := step_start hs (.inr (.inl ⟨thread, rfl⟩))
    rwa [(start_threads hstart).1] at hopen
  | cancel thread =>
    obtain ⟨_, _, hstart, -⟩ := step_start hs (.inr (.inr ⟨thread, rfl⟩))
    rwa [(start_threads hstart).1] at hopen
  | step thread input fresh =>
    obtain ⟨stage, -, -, rfl⟩ := step_thread_eq hs
    exact EntryPort.open_of_step w.port input stage hopen
  | move next =>
    rw [step] at hs
    split at hs
    · rename_i hnext
      cases hs
      exact BatchState.open_of_canTransitionTo hnext.1 hopen
    · cases hs
  | prepare =>
    rw [step] at hs
    split at hs
    · cases hs
    · cases hs
      exact hopen
  | withdraw =>
    cases hs
    exact hopen
  | prune =>
    cases hs
    exact hopen
  | sweep =>
    rw [step] at hs
    split at hs
    · cases hs
      change (w.port.cleanupPartialFiles direction).state.isTerminal = false at hopen
      rw [EntryPort.cleanupPartialFiles] at hopen
      split at hopen <;> exact hopen
    · cases hs
  | tick seconds =>
    cases hs
    exact hopen
  | powerFailure junk =>
    cases hs
    exact hopen

/-- What an event does to the data of the entry and to the threads, while the batch is open. -/
theorem holds_step (h : Discipline hashFile entry direction ok J T Q) (hinv : EntryInv J Q w)
    {e : PortEvent} (hok : ok w e) (hs : w.step hashFile entry direction e = some w')
    (hopen : w'.port.state.isTerminal = false) :
    J w'.port.storage ∧ All w'.threads (Q w'.port.storage) ∧ T w.port.storage w'.port.storage := by
  have hwasOpen := open_step hs hopen
  obtain ⟨hJ, hQ⟩ := hinv.holds hwasOpen
  have hstart : ∀ {thread : Nat} {stage : Stage}, w.start thread stage = some w' →
      Q w.port.storage stage → J w'.port.storage ∧ All w'.threads (Q w'.port.storage) ∧
        T w.port.storage w'.port.storage := by
    intro thread stage hstarted hstage
    obtain ⟨hport, hthreads⟩ := start_threads hstarted
    rw [hport, hthreads]
    exact ⟨hJ, hQ.update hstage, h.refl _⟩
  have hsame : w'.port.storage = w.port.storage → w'.threads = w.threads →
      J w'.port.storage ∧ All w'.threads (Q w'.port.storage) ∧
        T w.port.storage w'.port.storage := by
    intro hstorage hthreads
    rw [hstorage, hthreads]
    exact ⟨hJ, hQ, h.refl _⟩
  cases e with
  | request thread r =>
    rw [step] at hs
    split at hs
    · exact hstart hs (h.request w thread r hok hJ)
    · exact hstart hs (h.idle _ _ rfl rfl)
  | offer thread =>
    rw [step] at hs
    split at hs
    · exact hstart hs (h.idle _ _ rfl rfl)
    · exact hstart hs (h.idle _ _ rfl rfl)
  | cancel thread =>
    rw [step] at hs
    split at hs
    · exact hstart hs (h.idle _ _ rfl rfl)
    · exact hstart hs (h.idle _ _ rfl rfl)
  | step thread input fresh =>
    obtain ⟨stage, hstage, -, rfl⟩ := step_thread_eq hs
    exact holds_stepThread h hinv hstage hok hwasOpen hopen
  | move next =>
    rw [step] at hs
    split at hs
    · cases hs
      exact hsame rfl rfl
    · cases hs
  | prepare =>
    rw [step] at hs
    split at hs
    · cases hs
    · cases hs
      exact hsame rfl rfl
  | withdraw =>
    cases hs
    exact hsame rfl rfl
  | prune =>
    cases hs
    exact hsame rfl rfl
  | sweep =>
    rw [step] at hs
    split at hs
    · rename_i hcanceled
      rw [hcanceled] at hwasOpen
      cases hwasOpen
    · cases hs
  | tick seconds =>
    cases hs
    exact hsame rfl rfl
  | powerFailure junk =>
    cases hs
    obtain ⟨hJ', hT⟩ := h.crash w junk hwasOpen hok hJ
    exact ⟨hJ', all_empty, hT⟩

/-- Only the threads of a terminal batch sweep. -/
theorem sweeps_step (hinv : EntryInv J Q w) {e : PortEvent}
    (hs : w.step hashFile entry direction e = some w') :
    All w'.threads fun s => s.sweeps = true → w'.port.state.isTerminal = true := by
  have hkeeps : w.port.state.isTerminal = true → w'.port.state.isTerminal = true := by
    intro hterminal
    by_contra hopen
    rw [open_step hs (by simpa using hopen)] at hterminal
    cases hterminal
  have hold : All w.threads fun s => s.sweeps = true → w'.port.state.isTerminal = true :=
    fun i s hi hsweeps => hkeeps (hinv.sweeps i s hi hsweeps)
  have hstart : ∀ {thread : Nat} {stage : Stage}, w.start thread stage = some w' →
      (stage.sweeps = true → w'.port.state.isTerminal = true) →
      All w'.threads fun s => s.sweeps = true → w'.port.state.isTerminal = true := by
    intro thread stage hstarted hstage
    rw [(start_threads hstarted).2]
    exact hold.update hstage
  cases e with
  | request thread r =>
    rw [step] at hs
    split at hs
    · exact hstart hs fun h => by cases h
    · exact hstart hs fun h => by cases h
  | offer thread =>
    rw [step] at hs
    split at hs
    · exact hstart hs fun h => by cases h
    · exact hstart hs fun h => by cases h
  | cancel thread =>
    rw [step] at hs
    split at hs
    · rename_i hterminal
      exact hstart hs fun _ => hkeeps hterminal
    · exact hstart hs fun h => by cases h
  | step thread input fresh =>
    obtain ⟨stage, hstage, -, rfl⟩ := step_thread_eq hs
    have hterminal : (w.port.step hashFile entry direction input stage).next.sweeps = true →
        (w.port.step hashFile entry direction input stage).port.state.isTerminal = true := by
      intro hnext
      cases hworks : stage.works with
      | true =>
        rw [EntryPort.sweeps_of_works w.port input hworks] at hnext
        cases hnext
      | false =>
        cases hsweeps : stage.sweeps with
        | true => exact hkeeps (hinv.sweeps thread stage hstage hsweeps)
        | false =>
          rcases EntryPort.next_of_not_works hashFile entry direction w.port input hworks hsweeps with
            ⟨r, -, heq | heq⟩ | ⟨answer, heq⟩ | ⟨answer, heq⟩ | ⟨-, hterminal⟩
          · rw [heq] at hnext
            cases hnext
          · rw [heq] at hnext
            cases hnext
          · rw [heq] at hnext
            cases hnext
          · rw [heq] at hnext
            cases hnext
          · exact hterminal
    rcases EntryPort.spawned_cases hashFile entry direction w.port input stage with hspawned | ⟨hash, -, hspawned⟩
    · rw [stepThread_of_not_spawned hspawned] at hold ⊢
      exact hold.update hterminal
    · rw [stepThread_of_spawned hspawned] at hold ⊢
      exact (hold.update hterminal).update fun h => by cases h
  | powerFailure junk =>
    cases hs
    exact all_empty
  | move next =>
    rw [step] at hs
    split at hs
    · cases hs
      exact hold
    · cases hs
  | prepare =>
    rw [step] at hs
    split at hs
    · cases hs
    · cases hs
      exact hold
  | sweep =>
    rw [step] at hs
    split at hs
    · cases hs
      exact hold
    · cases hs
  | withdraw =>
    cases hs
    exact hold
  | prune =>
    cases hs
    exact hold
  | tick seconds =>
    cases hs
    exact hold

theorem Discipline.entryInv_step (h : Discipline hashFile entry direction ok J T Q)
    (hinv : EntryInv J Q w) {e : PortEvent} (hfree : TakesFreeEntry w e) (hok : ok w e)
    (hs : w.step hashFile entry direction e = some w') : EntryInv J Q w' :=
  { lease := hinv.lease.step hs
    exclusive := (exclusive_step hinv.lease hinv.exclusive hs).2 hfree
    sweeps := sweeps_step hinv hs
    holds := fun hopen =>
      have hholds := holds_step h hinv hok hs hopen
      ⟨hholds.1, hholds.2.1⟩ }

end Steps

end PortWorld

end FlowType
