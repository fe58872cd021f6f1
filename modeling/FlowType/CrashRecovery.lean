import FlowType.OneLiveBatch

/-! A program that is stopped between two accesses to the disk leaves what the accesses before have
written. After the next start a phone offers its batch again, and a batch that is not over is brought
to its end or cancelled. -/
namespace FlowType

open Threads

/-- What happens while no access to the disk fails. A crash stops every call where it stands. -/
inductive CrashEvent
  | offer (thread : Nat) (batchId : String)
  | decide (thread : Nat) (decision : FileDecision) (phoneId : String)
  | cancel (thread : Nat) (batchId phoneId : String)
  | complete (thread : Nat) (batchId : String) (hasFailures : Bool)
  | updateState (thread : Nat) (batchId : String) (next : BatchState) (code : String)
  | step (thread : Nat) (now : Nat)
  | crash (cutoff : Nat)

def AdmissionStage.offer? : AdmissionStage → Option FileOffer
  | .starting offer | .looking offer | .listing offer | .scanning offer _ _ _ | .creating offer _
  | .recording offer _ _ | .resuming offer | .ticketing offer | .indexing offer | .deleting offer =>
    some offer
  | _ => none

def AdmissionStage.unread : AdmissionStage → List String
  | .scanning _ _ _ unread | .creating _ unread | .recording _ _ unread => unread
  | _ => []

def AdmissionStage.isRecording : AdmissionStage → Bool
  | .recording _ _ _ => true
  | _ => false

inductive ManifestFile
  | manifest | index | progress | complete
  deriving DecidableEq, Repr

abbrev ManifestFiles := ManifestFile → Bool

inductive ManifestAccess
  | removeIfExists (file : ManifestFile)
  -- fails when the file is there
  | createNew (file : ManifestFile)
  | write (file : ManifestFile)
  deriving DecidableEq, Repr

namespace ManifestFiles

def access (files : ManifestFiles) : ManifestAccess → Option ManifestFiles
  | .removeIfExists file => some (Function.update files file false)
  | .createNew file => if files file then none else some (Function.update files file true)
  | .write file => some (Function.update files file true)

def beginManifest : List ManifestAccess :=
  [.removeIfExists .manifest, .removeIfExists .index, .removeIfExists .progress,
    .removeIfExists .complete, .createNew .manifest, .createNew .index]

/-- `ManifestWriter::finish`; the lines and the index are in their files then. -/
def finish : List ManifestAccess := [.createNew .progress, .write .complete]

/-- The upload of a manifest that is stopped after some accesses. A complete one stays. -/
def upload (files : ManifestFiles) (accesses : Nat) : Option ManifestFiles :=
  if files .complete then some files
  else Machine.run access files ((beginManifest ++ finish).take accesses)

/-- What a stopped upload left is in nobody's way. -/
theorem run_upload (files : ManifestFiles) :
    Machine.run access files (beginManifest ++ finish) = some fun _ => true := by
  simp only [beginManifest, finish, List.cons_append, List.nil_append, Machine.run, access,
    Option.bind_some, Function.update, reduceCtorEq, ↓reduceDIte, ↓reduceIte,
    Bool.false_eq_true]
  congr 1
  funext file
  cases file <;> rfl

/-- A manifest is complete or can be uploaded from its start, whatever was stopped before. -/
def Recovers : Prop :=
  ∀ stops : List Nat, ∃ files : ManifestFiles,
    Machine.run upload (fun _ => false) stops = some files ∧
      (upload files (beginManifest ++ finish).length).any (· .complete) = true

theorem recovers : Recovers := by
  intro stops
  have hrun : ∀ files : ManifestFiles, ∃ files', Machine.run upload files stops = some files' := by
    induction stops with
    | nil => exact fun files => ⟨files, rfl⟩
    | cons stop stops ih =>
      intro files
      have hstep : ∃ files', upload files stop = some files' := by
        unfold upload
        split
        · exact ⟨files, rfl⟩
        · exact Machine.exists_run_take _ stop (run_upload files)
      obtain ⟨files', hfiles'⟩ := hstep
      rw [Machine.run, hfiles']
      exact ih files'
  obtain ⟨files, hfiles⟩ := hrun fun _ => false
  refine ⟨files, hfiles, ?_⟩
  unfold upload
  split
  · rename_i hcomplete
    exact hcomplete
  · rw [List.take_length, run_upload]
    rfl

end ManifestFiles

namespace AdmissionWorld

inductive DirsEffect (w : AdmissionWorld) (now : Nat) (s : AdmissionStage) (e : AdmissionEffect) :
    Prop
  | keep (hdirs : e.dirs = w.dirs)
      (hoffer : ∀ offer, e.next.offer? = some offer → s.offer? = some offer)
      (hs : s.isRecording = false) (hnext : e.next.isRecording = false)
  | create (offer : FileOffer) (batch : BatchRecord) (unread : List String)
      (hs : s = .creating offer unread)
      (hnew : offer.newBatch now = some batch)
      (hdirs : e.dirs = w.dirs.insert { batchId := offer.batchId })
      (hnext : e.next = .recording offer batch unread)
  | write (offer : FileOffer) (batch : BatchRecord) (unread : List String)
      (hs : s = .recording offer batch unread)
      (hdirs : e.dirs = w.writeRecord batch)
      (hoffer : e.next.offer? = some offer) (hnext : e.next.isRecording = false)
  | update (batchId : String) (state : BatchState)
      (hdirs : w.dirs.updateState batchId state now = some e.dirs)
      (hs : s.isRecording = false) (hnext : e.next.offer? = none)
  | delete (batchId : String) (hdirs : e.dirs = w.dirs.delete batchId)
      (hs : s.isRecording = false) (hnext : e.next.offer? = none)

variable {w w' : AdmissionWorld}

theorem DirsEffect.stay {now : Nat} {s next : AdmissionStage}
    (hoffer : ∀ offer, next.offer? = some offer → s.offer? = some offer)
    (hs : s.isRecording = false) (hnext : next.isRecording = false) :
    DirsEffect w now s (w.stay next) := .keep rfl hoffer hs hnext

theorem DirsEffect.over {now : Nat} {s next : AdmissionStage} (hs : s.isRecording = false)
    (hoffer : next.offer? = none) (hnext : next.isRecording = false) :
    DirsEffect w now s (w.stay next) := by
  refine .stay (fun offer h => ?_) hs hnext
  rw [hoffer] at h
  cases h

theorem DirsEffect.load {now : Nat} {s : AdmissionStage} {batchId : String}
    {found : BatchRecord → AdmissionEffect} {failed : AdmissionEffect}
    (hfound : ∀ batch, DirsEffect w now s (found batch)) (hfailed : DirsEffect w now s failed) :
    DirsEffect w now s (w.load batchId (.succeeds now) found failed) := by
  unfold AdmissionWorld.load
  split
  · exact hfound _
  · exact hfailed

theorem dirsEffect_effect (now : Nat) (s : AdmissionStage) :
    DirsEffect w now s (w.effect (.succeeds now) s) := by
  cases s with
  | starting offer =>
    rw [effect]
    split
    · exact .over rfl rfl rfl
    · refine .keep rfl ?_ rfl ?_
      · split <;> exact fun _ h => h
      · split <;> rfl
  | looking offer =>
    exact .load (fun _ => .stay (fun _ h => h) rfl rfl) (.stay (fun _ h => h) rfl rfl)
  | listing offer => exact .stay (fun _ h => h) rfl rfl
  | scanning offer rest found unread =>
    cases rest with
    | nil =>
      cases found with
      | true => exact .over rfl rfl rfl
      | false => exact .stay (fun _ h => h) rfl rfl
    | cons batchId rest => exact .stay (fun _ h => h) rfl rfl
  | creating offer unread =>
    rw [effect, create]
    split
    · exact .over rfl rfl rfl
    · rename_i batch hnew
      split
      · split
        · exact .stay (fun _ h => h) rfl rfl
        · exact .over rfl rfl rfl
      · exact .create offer batch unread rfl hnew rfl rfl
  | recording offer batch unread =>
    refine .write offer batch unread rfl rfl ?_ ?_
    · rw [effect, record]
      split <;> rfl
    · rw [effect, record]
      split <;> rfl
  | resuming offer =>
    refine .load (fun batch => ?_) (.over rfl rfl rfl)
    rw [resume]
    split_ifs
    · exact .over rfl rfl rfl
    · exact .over rfl rfl rfl
    · exact .stay (fun _ h => h) rfl rfl
  | ticketing offer => exact .load (fun _ => .over rfl rfl rfl) (.over rfl rfl rfl)
  | indexing offer => exact .over rfl rfl rfl
  | deleting offer => exact .delete offer.batchId rfl rfl rfl
  | leaving reply => exact .keep rfl (fun _ h => h) rfl rfl
  | deciding decision phoneId =>
    refine .load (fun batch => ?_) (.over rfl rfl rfl)
    rw [decide]
    split_ifs
    all_goals exact .over rfl rfl rfl
  | canceling batchId phoneId =>
    refine .load (fun batch => ?_) (.over rfl rfl rfl)
    rw [cancel]
    split_ifs
    all_goals exact .over rfl rfl rfl
  | advancing batchId plan =>
    cases plan with
    | nil => exact .over rfl rfl rfl
    | cons advance plan =>
      refine .load (fun batch => ?_) (.over rfl rfl rfl)
      split
      · exact .over rfl rfl rfl
      · exact .over rfl rfl rfl
  | updating batchId next code plan =>
    rw [effect, update]
    split
    · rename_i dirs hupdate
      exact .update batchId next hupdate rfl rfl
    · exact .over rfl rfl rfl
  | answered reply => exact .over rfl rfl rfl

/-- While no access fails, no record is unread. -/
theorem unread_effect (now : Nat) {s : AdmissionStage} (h : s.unread = []) :
    (w.effect (.succeeds now) s).next.unread = [] := by
  have hload : ∀ {batchId : String} {found : BatchRecord → AdmissionEffect}
      {failed : AdmissionEffect}, (∀ batch, (found batch).next.unread = []) →
      failed.next.unread = [] →
        (w.load batchId (.succeeds now) found failed).next.unread = [] := by
    intro batchId found failed hfound hfailed
    unfold AdmissionWorld.load
    split
    · exact hfound _
    · exact hfailed
  cases s with
  | starting offer =>
    rw [effect]
    split
    · rfl
    · dsimp only
      split <;> rfl
  | looking offer => exact hload (fun _ => rfl) rfl
  | listing offer => rfl
  | scanning offer rest found unread =>
    obtain rfl : unread = [] := h
    cases rest with
    | nil => cases found <;> rfl
    | cons batchId rest => rfl
  | creating offer unread =>
    obtain rfl : unread = [] := h
    rw [effect, create]
    split
    · rfl
    · split
      · split <;> rfl
      · rfl
  | recording offer batch unread =>
    rw [effect, record]
    dsimp only
    split <;> rfl
  | resuming offer =>
    refine hload (fun batch => ?_) rfl
    rw [resume]
    split_ifs <;> rfl
  | ticketing offer => exact hload (fun _ => rfl) rfl
  | indexing offer => rfl
  | deleting offer => rfl
  | leaving reply => rfl
  | deciding decision phoneId =>
    refine hload (fun batch => ?_) rfl
    rw [decide]
    split_ifs <;> rfl
  | canceling batchId phoneId =>
    refine hload (fun batch => ?_) rfl
    rw [cancel]
    split_ifs <;> rfl
  | advancing batchId plan =>
    cases plan with
    | nil => rfl
    | cons advance plan =>
      refine hload (fun batch => ?_) rfl
      split <;> rfl
  | updating batchId next code plan =>
    rw [effect, update]
    split <;> rfl
  | answered reply => rfl

/-- An offer that was checked makes a batch. -/
theorem newBatch_of_validate {offer : FileOffer} {phoneId : String}
    (h : offer.validate phoneId = true) (now : Nat) : ∃ batch, offer.newBatch now = some batch := by
  simp only [FileOffer.validate, Bool.and_eq_true] at h
  obtain ⟨⟨⟨⟨⟨⟨⟨⟨⟨-, -⟩, hphone⟩, hbatch⟩, hempty⟩, hfiles⟩, hdirectories⟩, hbytes⟩, -⟩, -⟩ := h
  unfold FileOffer.newBatch BatchRecord.new
  extract_lets new
  have hvalid : new.validate = true := by
    simp only [BatchRecord.validate, new, hphone, hbatch, hempty, hfiles, hdirectories, hbytes,
      le_refl, decide_true, Bool.and_self]
  rw [if_pos hvalid]
  exact ⟨new, rfl⟩

section Plan
variable (plan : String → FileOffer)

/-- The offer with the id: a batch that is offered again has the same files. -/
def offered (batchId : String) : FileOffer := { plan batchId with batchId }

/-- An offer of the phone comes over the network, one to the phone is made here. -/
def toAdmission : CrashEvent → AdmissionEvent
  | .offer thread batchId =>
    if (offered plan batchId).direction = .phoneToComputer then
      .acceptOffer thread (offered plan batchId) (offered plan batchId).phoneId
    else .createOutboundOffer thread (offered plan batchId)
  | .decide thread decision phoneId => .acceptDecision thread decision phoneId
  | .cancel thread batchId phoneId => .cancel thread batchId phoneId
  | .complete thread batchId hasFailures => .complete thread batchId hasFailures
  | .updateState thread batchId next code => .updateState thread batchId next code
  | .step thread now => .step thread (.succeeds now)
  | .crash cutoff => .restart cutoff fun _ => .succeeds cutoff

def crashStep (w : AdmissionWorld) (e : CrashEvent) : Option AdmissionWorld :=
  w.step (toAdmission plan e)

structure Planned (s : AdmissionStage) : Prop where
  offer : ∀ offer, s.offer? = some offer → offer = offered plan offer.batchId
  batch : ∀ offer batch unread, s = .recording offer batch unread →
    batch.validate = true ∧ batch.Matches offer

/-- What is kept while no access to the disk fails, and no crash leaves a directory of a batch of a
phone without its record. -/
structure Kept (w : AdmissionWorld) : Prop where
  admission : AdmissionInv w
  lock : w.batchStarts = true → Occupied w.threads fun s => s.holdsLock = true
  planned : All w.threads (Planned plan)
  read : All w.threads fun s => s.unread = []
  records : ∀ dir ∈ w.dirs.rows, ∀ batch, dir.record = some batch →
    batch.validate = true ∧ batch.Matches (offered plan dir.batchId)
  half : ∀ dir ∈ w.dirs.rows, dir.record = none →
    (offered plan dir.batchId).direction = .phoneToComputer →
    Occupied w.threads fun s =>
      ∃ batch unread, s = .recording (offered plan dir.batchId) batch unread

variable {plan}

theorem Planned.of_offer_none {s : AdmissionStage} (h : s.offer? = none) : Planned plan s where
  offer offer hoffer := by
    rw [h] at hoffer
    cases hoffer
  batch offer batch unread hs := by
    rw [hs] at h
    cases h

theorem Planned.of_keeps {s s' : AdmissionStage} (h : Planned plan s)
    (hoffer : ∀ offer, s'.offer? = some offer → s.offer? = some offer)
    (hnext : s'.isRecording = false) : Planned plan s' where
  offer offer ho := h.offer offer (hoffer offer ho)
  batch offer batch unread hs := by
    rw [hs] at hnext
    cases hnext

/-- What a call that goes on leaves of the threads that make a directory. -/
theorem occupied_recording_update {threads : Nat → Option AdmissionStage} {thread : Nat}
    {s s' : AdmissionStage} {offer : FileOffer} (hthread : threads thread = some s)
    (hs : s.isRecording = false)
    (h : Occupied threads fun s => ∃ batch unread, s = .recording offer batch unread) :
    Occupied (Function.update threads thread (some s'))
      fun s => ∃ batch unread, s = .recording offer batch unread := by
  obtain ⟨other, _, hother, batch, unread, rfl⟩ := h
  have hne : other ≠ thread := by
    rintro rfl
    rw [hthread] at hother
    obtain rfl := Option.some.inj hother
    cases hs
  exact ⟨other, _, by rw [Function.update_of_ne hne, hother], batch, unread, rfl⟩

section Step
variable {now thread : Nat} {s : AdmissionStage} {e : AdmissionEffect}

theorem planned_next (h : Planned plan s) (heffect : DirsEffect w now s e) :
    Planned plan e.next := by
  cases heffect with
  | keep hdirs hoffer hs hnext => exact h.of_keeps hoffer hnext
  | create offer batch unread hs hnew hdirs hnext =>
    rw [hs] at h
    rw [hnext]
    constructor
    · intro other hother
      obtain rfl := Option.some.inj hother
      exact h.offer offer rfl
    · intro other record left hrecord
      obtain ⟨rfl, rfl, -⟩ : offer = other ∧ batch = record ∧ unread = left := by
        simpa using hrecord
      obtain ⟨hvalid, hmatches, -⟩ := newBatch_eq_some hnew
      exact ⟨hvalid, hmatches⟩
  | write offer batch unread hs hdirs hoffer hnext =>
    rw [hs] at h
    refine h.of_keeps (fun other hother => ?_) hnext
    rw [hoffer] at hother
    exact hother
  | update batchId state hdirs hs hnext => exact .of_offer_none hnext
  | delete batchId hdirs hs hnext => exact .of_offer_none hnext

/-- The directory with a batch has another state then, and nothing else. -/
theorem mem_updateState {dirs dirs' : BatchDirs} {batchId : String} {state : BatchState}
    (h : dirs.updateState batchId state now = some dirs') {dir : BatchDir} (hmem : dir ∈ dirs'.rows) :
    dir ∈ dirs.rows ∨ ∃ batch, (∃ old ∈ dirs.rows, old.batchId = batchId ∧
        old.record = some batch) ∧ dir.batchId = batchId ∧
      dir.record = some { batch with state, updatedAt := max now batch.updatedAt } := by
  obtain ⟨batch, hload, hstep⟩ := Option.bind_eq_some_iff.1 h
  split at hstep
  · obtain rfl := Option.some.inj hstep
    rcases KeyedTable.mem_insert.1 hmem with ⟨hold, -⟩ | rfl
    · exact .inl hold
    · exact .inr ⟨batch, (BatchDirs.loadBatch_eq_some_iff.1 hload).1, rfl, rfl⟩
  · cases hstep

theorem records_next (h : Kept plan w) (hplanned : Planned plan s)
    (heffect : DirsEffect w now s e) : ∀ dir ∈ e.dirs.rows, ∀ batch, dir.record = some batch →
      batch.validate = true ∧ batch.Matches (offered plan dir.batchId) := by
  intro dir hmem record hrecord
  cases heffect with
  | keep hdirs hoffer hs hnext =>
    rw [hdirs] at hmem
    exact h.records dir hmem record hrecord
  | create offer batch unread hs hnew hdirs hnext =>
    rw [hdirs] at hmem
    rcases KeyedTable.mem_insert.1 hmem with ⟨hold, -⟩ | rfl
    · exact h.records dir hold record hrecord
    · cases hrecord
  | write offer batch unread hs hdirs hoffer hnext =>
    rw [hs] at hplanned
    rw [hdirs] at hmem
    rcases KeyedTable.mem_insert.1 hmem with ⟨hold, -⟩ | rfl
    · exact h.records dir hold record hrecord
    · obtain rfl := Option.some.inj hrecord
      obtain ⟨hvalid, hmatches⟩ := hplanned.batch offer batch unread rfl
      have hplan : offer = offered plan offer.batchId := hplanned.offer offer rfl
      rw [hmatches.batchId, ← hplan]
      exact ⟨hvalid, hmatches⟩
  | update batchId state hdirs hs hnext =>
    rcases mem_updateState hdirs hmem with hold | ⟨batch, ⟨old, hold, hkey, hold'⟩, rfl, hupdated⟩
    · exact h.records dir hold record hrecord
    · obtain ⟨hvalid, hmatches⟩ := h.records old hold batch hold'
      rw [hupdated] at hrecord
      obtain rfl := Option.some.inj hrecord
      rw [hkey] at hmatches
      refine ⟨?_, hmatches.1, hmatches.2, hmatches.3, hmatches.4, hmatches.5, hmatches.6⟩
      simp only [BatchRecord.validate, Bool.and_eq_true, decide_eq_true_eq] at hvalid ⊢
      exact ⟨hvalid.1, le_max_of_le_right hvalid.2⟩
  | delete batchId hdirs hs hnext =>
    rw [hdirs] at hmem
    exact h.records dir (KeyedTable.mem_delete.1 hmem).1 record hrecord

/-- Who makes a directory is the one that writes its record. -/
theorem half_next (h : Kept plan w) (hthread : w.threads thread = some s)
    (heffect : DirsEffect w now s e) : ∀ dir ∈ e.dirs.rows, dir.record = none →
      (offered plan dir.batchId).direction = .phoneToComputer →
      Occupied (Function.update w.threads thread (some e.next))
        fun s =>
      ∃ batch unread, s = .recording (offered plan dir.batchId) batch unread := by
  intro dir hmem hnone hdirection
  have hplanned := h.planned thread s hthread
  cases heffect with
  | keep hdirs hoffer hs hnext =>
    rw [hdirs] at hmem
    exact occupied_recording_update hthread hs (h.half dir hmem hnone hdirection)
  | create offer batch unread hs hnew hdirs hnext =>
    rw [hs] at hplanned
    rw [hdirs] at hmem
    rcases KeyedTable.mem_insert.1 hmem with ⟨hold, -⟩ | rfl
    · refine occupied_recording_update hthread ?_ (h.half dir hold hnone hdirection)
      rw [hs]
      rfl
    · have hoffer : offer = offered plan offer.batchId := hplanned.offer offer rfl
      rw [hnext]
      refine ⟨thread, _, Function.update_self _ _ _, batch, unread, ?_⟩
      rw [← hoffer]
  | write offer batch unread hs hdirs hoffer hnext =>
    rw [hs] at hplanned
    rw [hdirs] at hmem
    rcases KeyedTable.mem_insert.1 hmem with ⟨hold, hother⟩ | rfl
    · obtain ⟨i, _, hi, record, left, rfl⟩ := h.half dir hold hnone hdirection
      -- another call records it: the directory of this one has just got its record
      have hne : i ≠ thread := by
        rintro rfl
        rw [hthread, hs] at hi
        obtain ⟨rfl, -⟩ : offer = offered plan dir.batchId ∧ batch = record ∧ unread = left := by
          simpa using hi
        exact hother (hplanned.batch _ _ _ rfl).2.batchId.symm
      exact ⟨i, _, by rw [Function.update_of_ne hne, hi], record, left, rfl⟩
    · cases hnone
  | update batchId state hdirs hs hnext =>
    rcases mem_updateState hdirs hmem with hold | ⟨batch, -, -, hupdated⟩
    · exact occupied_recording_update hthread hs (h.half dir hold hnone hdirection)
    · rw [hupdated] at hnone
      cases hnone
  | delete batchId hdirs hs hnext =>
    rw [hdirs] at hmem
    exact occupied_recording_update hthread hs
      (h.half dir (KeyedTable.mem_delete.1 hmem).1 hnone hdirection)

end Step

/-- Who has the lock can still give it back. -/
theorem lock_next (h : Kept plan w) {thread : Nat} {s : AdmissionStage}
    (hthread : w.threads thread = some s) {e : AdmissionEffect} (heffect : LockEffect w s e)
    (hlocked : e.batchStarts = true) :
    Occupied (Function.update w.threads thread (some e.next)) fun s => s.holdsLock = true := by
  cases heffect with
  | take hs hfree hlock hnext => exact .update_of hnext
  | drop hs hlock hnext =>
    rw [hlock] at hlocked
    cases hlocked
  | keep hlock hnext =>
    have hiff : e.next.holdsLock = true ↔ s.holdsLock = true := by rw [hnext]
    exact (occupied_update_iff hthread hiff).2 (h.lock (hlock.symm.trans hlocked))

/-- The calls that could still give a directory its record. -/
def RecordsIncoming (s : AdmissionStage) : Prop :=
  ∃ offer batch unread, s = .recording offer batch unread ∧ offer.direction = .phoneToComputer

/-- No crash comes between the directory of a batch of a phone and its record. -/
def CrashesElsewhere (w : AdmissionWorld) : CrashEvent → Prop
  | .crash _ => ¬Occupied w.threads RecordsIncoming
  | _ => True

theorem mem_cleanupExpired {dirs : BatchDirs} {cutoff now : Nat} {dir : BatchDir}
    (h : dir ∈ (dirs.cleanupExpired cutoff fun _ => .succeeds now).rows) : dir ∈ dirs.rows := by
  have hfold : ∀ (ids : List String) (dirs : BatchDirs),
      dir ∈ (ids.foldl (BatchDirs.expire cutoff fun _ => .succeeds now) dirs).rows →
        dir ∈ dirs.rows := by
    intro ids
    induction ids with
    | nil => exact fun _ h => h
    | cons id ids ih =>
      intro dirs h
      have hexpired := ih _ h
      rw [BatchDirs.expire] at hexpired
      split at hexpired
      · exact (KeyedTable.mem_delete.1 hexpired).1
      · exact hexpired
  exact hfold _ _ h

/-- A call that starts has done nothing. -/
theorem kept_start (h : Kept plan w) {thread : Nat} {stage : AdmissionStage}
    (hstart : w.start thread stage = some w') (hadmission : AdmissionInv w')
    (hplanned : Planned plan stage) (hholds : stage.holdsLock = false)
    (hrecording : stage.isRecording = false) (hread : stage.unread = []) : Kept plan w' := by
  rw [start] at hstart
  split at hstart
  · rename_i hnone
    obtain rfl := Option.some.inj hstart
    refine ⟨hadmission, fun hlock => ?_, h.planned.update hplanned,
      h.read.update hread, h.records, ?_⟩
    · exact (occupied_start_iff hnone (by simp [hholds])).2 (h.lock hlock)
    · intro dir hmem hdir hdirection
      refine (occupied_start_iff hnone ?_).2 (h.half dir hmem hdir hdirection)
      rintro ⟨batch, unread, rfl⟩
      cases hrecording
  · cases hstart

/-- No call has missed a record. -/
theorem recordsRead_of_read (h : All w.threads fun s => s.unread = []) (e : CrashEvent) :
    w.RecordsRead (toAdmission plan e) := by
  cases e with
  | offer thread batchId =>
    rw [toAdmission]
    split <;> trivial
  | step thread now =>
    intro s hthread
    have hread := h thread s hthread
    cases s with
    | recording offer batch unread =>
      obtain rfl : unread = [] := hread
      exact fun _ _ => nofun
    | _ => trivial
  | _ => trivial

theorem kept_step (h : Kept plan w) {e : CrashEvent} (hok : CrashesElsewhere w e)
    (hs : crashStep plan w e = some w') : Kept plan w' := by
  have hok' : w.RecordsRead (toAdmission plan e) := recordsRead_of_read h.read e
  have hadmission : AdmissionInv w' := admissionInv_step h.admission hok' hs
  cases e with
  | offer thread batchId =>
    rw [crashStep, toAdmission] at hs
    split at hs
    · rw [AdmissionWorld.step] at hs
      split at hs
      · exact kept_start h hs hadmission (.of_offer_none rfl) rfl rfl rfl
      · split at hs
        · exact kept_start h hs hadmission (.of_offer_none rfl) rfl rfl rfl
        · refine kept_start h hs hadmission ⟨?_, fun _ _ _ hrecording => by cases hrecording⟩ rfl rfl rfl
          intro offer hoffer
          obtain rfl := Option.some.inj hoffer
          rfl
    · rename_i hdirection
      refine kept_start h hs hadmission ⟨?_, fun _ _ _ hrecording => by cases hrecording⟩ rfl rfl rfl
      intro offer hoffer
      obtain rfl := Option.some.inj hoffer
      have houtbound : (offered plan batchId).direction = .computerToPhone := by
        cases hcase : (offered plan batchId).direction with
        | phoneToComputer => exact absurd hcase hdirection
        | computerToPhone => rfl
      change { offered plan batchId with direction := .computerToPhone } = offered plan batchId
      rw [← houtbound]
  | decide thread decision phoneId =>
    rw [crashStep, toAdmission, AdmissionWorld.step] at hs
    split at hs
    · exact kept_start h hs hadmission (.of_offer_none rfl) rfl rfl rfl
    · exact kept_start h hs hadmission (.of_offer_none rfl) rfl rfl rfl
  | cancel thread batchId phoneId =>
    exact kept_start h hs hadmission (.of_offer_none rfl) rfl rfl rfl
  | complete thread batchId hasFailures =>
    exact kept_start h hs hadmission (.of_offer_none rfl) rfl rfl rfl
  | updateState thread batchId next code =>
    exact kept_start h hs hadmission (.of_offer_none rfl) rfl rfl rfl
  | step thread now =>
    obtain ⟨s, hthread, rfl⟩ := Option.map_eq_some_iff.1 hs
    have heffect := dirsEffect_effect (w := w) now s
    have hlock := (admits_effect h.admission.one (h.admission.seen thread s hthread)
      (hok' s hthread)).lock
    have hplanned := h.planned thread s hthread
    exact ⟨hadmission, lock_next h hthread hlock, h.planned.update (planned_next hplanned heffect),
      h.read.update (unread_effect now (h.read thread s hthread)),
      records_next h hplanned heffect, half_next h hthread heffect⟩
  | crash cutoff =>
    obtain rfl := Option.some.inj hs
    refine ⟨hadmission, (fun hlock => by cases hlock), all_empty, all_empty, ?_, ?_⟩
    · intro dir hmem
      exact h.records dir (mem_cleanupExpired hmem)
    · intro dir hmem hnone hdirection
      obtain ⟨i, _, hi, batch, unread, rfl⟩ :=
        h.half dir (mem_cleanupExpired hmem) hnone hdirection
      exact absurd ⟨i, _, hi, _, batch, unread, rfl, hdirection⟩ hok

theorem kept_empty : Kept plan {} where
  admission := admissionInv_start
  lock h := by cases h
  planned := all_empty
  read := all_empty
  records dir hmem := by cases hmem
  half dir hmem := by cases hmem

/-- The steps of one call. -/
def Alone (thread : Nat) (e : CrashEvent) : Prop := ∃ now, e = .step thread now

abbrev ComesTo (plan : String → FileOffer) (thread : Nat) (P : AdmissionWorld → Prop) :
    AdmissionWorld → Prop := Machine.Eventually (crashStep plan) (Alone thread) P

def put (w : AdmissionWorld) (thread : Nat) (e : AdmissionEffect) : AdmissionWorld where
  dirs := e.dirs
  batchStarts := e.batchStarts
  threads := Function.update w.threads thread (some e.next)

section Alone
variable {thread : Nat} {P : AdmissionWorld → Prop} {dirs : BatchDirs} {batchStarts : Bool}
  {offer : FileOffer} {unread : List String}

theorem step_put (w : AdmissionWorld) (thread now : Nat) (e : AdmissionEffect) :
    crashStep plan (w.put thread e) (.step thread now) =
      some (w.put thread ((w.put thread e).effect (.succeeds now) e.next)) := by
  have hthread : (w.put thread e).threads thread = some e.next := Function.update_self _ _ _
  rw [crashStep, toAdmission, AdmissionWorld.step, hthread, Option.map_some]
  simp only [put, Function.update_idem]

theorem comesTo_put {e : AdmissionEffect}
    (h : ∀ now, ComesTo plan thread P
      (w.put thread ((w.put thread e).effect (.succeeds now) e.next))) :
    ComesTo plan thread P (w.put thread e) := by
  refine .later ⟨_, _, ⟨0, rfl⟩, step_put w thread 0 e⟩ ?_
  rintro _ w' ⟨now, rfl⟩ hs
  rw [step_put] at hs
  obtain rfl := Option.some.inj hs
  exact h now

theorem comesTo_leaving {reply : ControlReply}
    (h : P (w.put thread { dirs, batchStarts := false, next := .answered reply })) :
    ComesTo plan thread P (w.put thread { dirs, batchStarts, next := .leaving reply }) :=
  comesTo_put fun _ => .now h

theorem load_put_of_some {batchId : String} {batch : BatchRecord} {next : AdmissionStage}
    (h : dirs.loadBatch batchId = some batch) (now : Nat)
    (found : BatchRecord → AdmissionEffect) (failed : AdmissionEffect) :
    (w.put thread { dirs, batchStarts, next }).load batchId (.succeeds now) found failed =
      found batch := by
  unfold AdmissionWorld.load
  simp only [put, h]

theorem load_put_of_none {batchId : String} {next : AdmissionStage}
    (h : dirs.loadBatch batchId = none) (now : Nat)
    (found : BatchRecord → AdmissionEffect) (failed : AdmissionEffect) :
    (w.put thread { dirs, batchStarts, next }).load batchId (.succeeds now) found failed =
      failed := by
  unfold AdmissionWorld.load
  simp only [put, h]

theorem effect_starting_put {now : Nat} {next : AdmissionStage} (hfree : batchStarts = false)
    (hdirection : offer.direction = .phoneToComputer) :
    (w.put thread { dirs, batchStarts, next }).effect (.succeeds now) (.starting offer) =
      { dirs, batchStarts := true, next := .looking offer } := by
  rw [effect]
  simp only [put, hfree, hdirection, Bool.false_eq_true, ↓reduceIte]

theorem stay_put {next next' : AdmissionStage} :
    (w.put thread { dirs, batchStarts, next }).stay next' =
      { dirs, batchStarts, next := next' } := rfl

theorem create_put_of_fresh {batch : BatchRecord} {now : Nat} {next : AdmissionStage}
    (hbatch : offer.newBatch now = some batch) (hnew : dirs.contains offer.batchId = false) :
    (w.put thread { dirs, batchStarts, next }).create offer unread (.succeeds now) =
      { dirs := dirs.insert { batchId := offer.batchId }
        batchStarts
        next := .recording offer batch unread } := by
  rw [create]
  simp only [put, hbatch, hnew, Bool.false_eq_true, ↓reduceIte]

theorem create_put_of_contains {batch : BatchRecord} {now : Nat} {next : AdmissionStage}
    (hbatch : offer.newBatch now = some batch) (hthere : dirs.contains offer.batchId = true)
    (hdirection : offer.direction = .phoneToComputer) :
    (w.put thread { dirs, batchStarts, next }).create offer unread (.succeeds now) =
      { dirs, batchStarts, next := .resuming offer } := by
  rw [create]
  simp only [put, stay, hbatch, hthere, hdirection, ↓reduceIte]

theorem comesTo_ticketing {batch : BatchRecord}
    (hload : dirs.loadBatch offer.batchId = some batch)
    (h : P (w.put thread { dirs, batchStarts := false, next := .answered .ticket })) :
    ComesTo plan thread P (w.put thread { dirs, batchStarts, next := .ticketing offer }) := by
  apply comesTo_put
  intro now
  rw [effect, load_put_of_some hload]
  exact comesTo_leaving h

theorem comesTo_creating (hdirection : offer.direction = .phoneToComputer) {phoneId : String}
    (hvalid : offer.validate phoneId = true) (hnew : dirs.contains offer.batchId = false)
    (h : ∀ dirs' : BatchDirs, dirs'.Live offer.phoneId offer.batchId →
      P (w.put thread { dirs := dirs', batchStarts := false, next := .answered .ticket })) :
    ComesTo plan thread P (w.put thread { dirs, batchStarts, next := .creating offer unread }) := by
  apply comesTo_put
  intro now
  obtain ⟨batch, hbatch⟩ := newBatch_of_validate hvalid now
  obtain ⟨hrecord, hmatches, hopen⟩ := newBatch_eq_some hbatch
  rw [effect, create_put_of_fresh hbatch hnew]
  apply comesTo_put
  intro now
  rw [effect, record, hdirection, if_pos rfl]
  have hload : BatchDirs.loadBatch ((dirs.insert { batchId := offer.batchId }).insert
      { batchId := batch.batchId, record := some batch }) offer.batchId = some batch := by
    refine BatchDirs.loadBatch_eq_some_iff.2 ⟨?_, hrecord, hmatches.batchId⟩
    exact ⟨{ batchId := batch.batchId, record := some batch }, KeyedTable.mem_insert.2 (.inr rfl),
      hmatches.batchId, rfl⟩
  refine comesTo_ticketing hload (h _ ?_)
  exact ⟨batch, hload, hopen, hmatches.phoneId⟩

theorem comesTo_resuming {batch : BatchRecord}
    (hload : dirs.loadBatch offer.batchId = some batch) (hmatches : batch.Matches offer)
    (hopen : batch.state.isTerminal = false →
      P (w.put thread { dirs, batchStarts := false, next := .answered .ticket }))
    (hover : batch.state.isTerminal = true →
      P (w.put thread { dirs, batchStarts := false, next := .answered (.result batch.state) })) :
    ComesTo plan thread P (w.put thread { dirs, batchStarts, next := .resuming offer }) := by
  apply comesTo_put
  intro now
  have hagree : ¬(batch.phoneId ≠ offer.phoneId ∨ batch.direction ≠ offer.direction ∨
      batch.fileCount ≠ offer.fileCount ∨ batch.directoryCount ≠ offer.directoryCount ∨
      batch.totalBytes ≠ offer.totalBytes) := by
    simp [hmatches.phoneId, hmatches.direction, hmatches.fileCount, hmatches.directoryCount,
      hmatches.totalBytes]
  rw [effect, load_put_of_some hload, resume, if_neg hagree]
  by_cases hterminal : batch.state.isTerminal = true
  · rw [if_pos hterminal]
    exact comesTo_leaving (hover hterminal)
  · rw [if_neg hterminal]
    rw [Bool.not_eq_true] at hterminal
    exact comesTo_ticketing hload (hopen hterminal)

theorem comesTo_scanning (hdirection : offer.direction = .phoneToComputer)
    (hbusy : (∃ batchId, dirs.Live offer.phoneId batchId) →
      P (w.put thread
        { dirs, batchStarts := false, next := .answered (.error "transfer_busy") }))
    (hfree : ComesTo plan thread P (w.put thread { dirs, batchStarts, next := .creating offer unread }))
    (rest : List String) (found : Bool)
    (hfound : found = true → ∃ batchId, dirs.Live offer.phoneId batchId) :
    ComesTo plan thread P
      (w.put thread { dirs, batchStarts, next := .scanning offer rest found unread }) := by
  induction rest generalizing found with
  | nil =>
    apply comesTo_put
    intro now
    rw [effect]
    cases found with
    | true =>
      rw [if_pos rfl, FileOffer.busyCode, if_pos hdirection]
      exact comesTo_leaving (hbusy (hfound rfl))
    | false =>
      rw [if_neg Bool.false_ne_true]
      exact hfree
  | cons batchId rest ih =>
    apply comesTo_put
    intro now
    apply ih
    intro hany
    rcases Bool.or_eq_true_iff.1 hany with hbefore | hlive
    · exact hfound hbefore
    · obtain ⟨batch, hload, hbatch⟩ := (Option.any_eq_true _ _).1 hlive
      simp only [Bool.and_eq_true, Bool.not_eq_true', beq_iff_eq] at hbatch
      exact ⟨batchId, batch, hload, hbatch.1, hbatch.2⟩

end Alone

/-- Every call has its answer. -/
def Quiet (w : AdmissionWorld) : Prop := All w.threads fun s => ∃ reply, s = .answered reply

/-- What a phone is told that offers a batch again: it gets a ticket for the batch, hears how the
batch has ended, or that another batch of it is not over. -/
inductive Reoffered (dirs : BatchDirs) (offer : FileOffer) (w : AdmissionWorld) :
    ControlReply → Prop
  | ticket (hlive : w.dirs.Live offer.phoneId offer.batchId) : Reoffered dirs offer w .ticket
  | over (batch : BatchRecord) (hload : dirs.loadBatch offer.batchId = some batch)
      (hover : batch.state.isTerminal = true) : Reoffered dirs offer w (.result batch.state)
  | busy (other : String) (hnew : dirs.loadBatch offer.batchId = none)
      (hlive : dirs.Live offer.phoneId other) : Reoffered dirs offer w (.error "transfer_busy")

theorem Reoffered.ne_error {dirs : BatchDirs} {offer : FileOffer} {reply : ControlReply}
    {code : String} (h : Reoffered dirs offer w reply) (hcode : code ≠ "transfer_busy") :
    reply ≠ .error code := by
  intro hreply
  rcases h with _ | _ | _
  · cases hreply
  · cases hreply
  · exact hcode (ControlReply.error.inj hreply).symm

/-- Every batch of a phone can be offered again, and every batch that keeps others out can be
cancelled. -/
structure Unwedged (plan : String → FileOffer) (w : AdmissionWorld) : Prop where
  reoffer : ∀ thread batchId, w.threads thread = none →
    (offered plan batchId).direction = .phoneToComputer →
    (offered plan batchId).validate (offered plan batchId).phoneId = true →
    ∃ w₁, crashStep plan w (.offer thread batchId) = some w₁ ∧
      ComesTo plan thread (fun w₂ => ∃ reply, w₂.threads thread = some (.answered reply) ∧
        Reoffered w.dirs (offered plan batchId) w₂ reply) w₁
  cancel : ∀ thread phoneId batchId, w.threads thread = none → w.dirs.Live phoneId batchId →
    ∃ w₁, crashStep plan w (.cancel thread batchId phoneId) = some w₁ ∧
      ComesTo plan thread (fun w₂ => w₂.threads thread = some (.answered .done) ∧
        ∀ other, ¬w₂.dirs.Live phoneId other) w₁

section Quiet
variable {thread : Nat} {batchId phoneId : String}

theorem Quiet.unlocked (h : Kept plan w) (hquiet : w.Quiet) : w.batchStarts = false := by
  cases hlock : w.batchStarts with
  | false => rfl
  | true =>
    obtain ⟨i, s, hi, hholds⟩ := h.lock hlock
    obtain ⟨reply, rfl⟩ := hquiet i s hi
    cases hholds

/-- No directory of a batch of a phone is without its record. -/
theorem Quiet.loadBatch_of_contains (h : Kept plan w) (hquiet : w.Quiet)
    (hdirection : (offered plan batchId).direction = .phoneToComputer)
    (hthere : w.dirs.contains batchId = true) :
    ∃ batch, w.dirs.loadBatch batchId = some batch ∧ batch.Matches (offered plan batchId) := by
  obtain ⟨dir, hmem, rfl⟩ := BatchDirs.contains_iff.1 hthere
  cases hrecord : dir.record with
  | none =>
    obtain ⟨i, s, hi, batch, unread, hs⟩ := h.half dir hmem hrecord hdirection
    obtain ⟨reply, rfl⟩ := hquiet i s hi
    cases hs
  | some batch =>
    obtain ⟨hvalid, hmatches⟩ := h.records dir hmem batch hrecord
    have hid : batch.batchId = dir.batchId := hmatches.batchId
    exact ⟨batch, BatchDirs.loadBatch_eq_some_iff.2 ⟨⟨dir, hmem, rfl, hrecord⟩, hvalid, hid⟩,
      hmatches⟩

theorem start_of_free {stage : AdmissionStage} (h : w.threads thread = none) :
    w.start thread stage =
      some (w.put thread { dirs := w.dirs, batchStarts := w.batchStarts, next := stage }) := by
  rw [start, if_pos h, put]

/-- A batch of the phone that is offered again. -/
theorem Quiet.reoffer (h : Kept plan w) (hquiet : w.Quiet) (hthread : w.threads thread = none)
    (hdirection : (offered plan batchId).direction = .phoneToComputer)
    (hvalid : (offered plan batchId).validate (offered plan batchId).phoneId = true) :
    ∃ w₁, crashStep plan w (.offer thread batchId) = some w₁ ∧
      ComesTo plan thread (fun w₂ => ∃ reply, w₂.threads thread = some (.answered reply) ∧
        Reoffered w.dirs (offered plan batchId) w₂ reply) w₁ := by
  have hstep : crashStep plan w (.offer thread batchId) =
      some (w.put thread
        { dirs := w.dirs
          batchStarts := w.batchStarts
          next := .starting (offered plan batchId) }) := by
    rw [crashStep, toAdmission, if_pos hdirection, AdmissionWorld.step, if_neg (by simp [hvalid]),
      if_neg (by simp [hdirection])]
    exact start_of_free hthread
  refine ⟨_, hstep, ?_⟩
  have hanswered : ∀ (dirs : BatchDirs) (reply : ControlReply),
      (w.put thread { dirs, batchStarts := false, next := .answered reply }).threads thread =
        some (.answered reply) := fun _ _ => Function.update_self _ _ _
  apply comesTo_put
  intro now
  rw [effect_starting_put (hquiet.unlocked h) hdirection]
  apply comesTo_put
  intro now
  rw [effect]
  cases hload : w.dirs.loadBatch batchId with
  | some batch =>
    have hload' : w.dirs.loadBatch (offered plan batchId).batchId = some batch := hload
    have hthere := BatchDirs.contains_of_loadBatch hload
    obtain ⟨_, hagain, hmatches⟩ := hquiet.loadBatch_of_contains h hdirection hthere
    obtain rfl := Option.some.inj (hload.symm.trans hagain)
    rw [load_put_of_some hload', stay_put]
    apply comesTo_put
    intro now
    obtain ⟨new, hnew⟩ := newBatch_of_validate hvalid now
    rw [effect, create_put_of_contains hnew hthere hdirection]
    refine comesTo_resuming hload' hmatches (fun hopen => ?_) fun hover => ?_
    · exact ⟨_, hanswered _ _, .ticket ⟨batch, hload', hopen, hmatches.phoneId⟩⟩
    · exact ⟨_, hanswered _ _, .over batch hload' hover⟩
  | none =>
    have hload' : w.dirs.loadBatch (offered plan batchId).batchId = none := hload
    have hnew : w.dirs.contains batchId = false := by
      by_contra hthere
      rw [Bool.not_eq_false] at hthere
      obtain ⟨batch, hsome, -⟩ := hquiet.loadBatch_of_contains h hdirection hthere
      rw [hload] at hsome
      cases hsome
    rw [load_put_of_none hload', stay_put]
    apply comesTo_put
    intro now
    refine comesTo_scanning hdirection (fun hlive => ?_) ?_ _ false (fun hfound => by cases hfound)
    · obtain ⟨other, hlive⟩ := hlive
      exact ⟨_, hanswered _ _, .busy other hload' hlive⟩
    · refine comesTo_creating hdirection hvalid hnew fun dirs' hlive => ?_
      exact ⟨_, hanswered _ _, .ticket hlive⟩

theorem update_put_of_some {dirs dirs' : BatchDirs} {batchStarts : Bool} {next : AdmissionStage}
    {state : BatchState} {now : Nat} {code : String} {rest : List Advance}
    (h : dirs.updateState batchId state now = some dirs') :
    (w.put thread { dirs, batchStarts, next }).update batchId state code rest (.succeeds now) =
      { dirs := dirs', batchStarts, next := .advancing batchId rest } := by
  rw [update]
  simp only [put, h]

theorem canTransitionTo_canceled {state : BatchState} (h : state.isTerminal = false) :
    state.canTransitionTo .canceled = true := by
  cases state
  all_goals first | rfl | cases h

/-- A batch that is not over and is cancelled no longer keeps others out. -/
theorem Kept.cancel (h : Kept plan w) (hthread : w.threads thread = none)
    (hlive : w.dirs.Live phoneId batchId) :
    ∃ w₁, crashStep plan w (.cancel thread batchId phoneId) = some w₁ ∧
      ComesTo plan thread (fun w₂ => w₂.threads thread = some (.answered .done) ∧
        ∀ other, ¬w₂.dirs.Live phoneId other) w₁ := by
  refine ⟨_, start_of_free hthread, ?_⟩
  have hone := h.admission.one phoneId batchId
  obtain ⟨batch, hload, hopen, rfl⟩ := id hlive
  apply comesTo_put
  intro now
  have hcancel : ¬batch.phoneId ≠ batch.phoneId := fun hne => hne rfl
  rw [effect, load_put_of_some hload, AdmissionWorld.cancel, if_neg hcancel,
    if_neg (by simp [hopen])]
  apply comesTo_put
  intro now
  have hupdate : ∃ dirs, w.dirs.updateState batchId .canceled now = some dirs := by
    rw [BatchDirs.updateState, hload, Option.bind_some, if_pos (canTransitionTo_canceled hopen)]
    exact ⟨_, rfl⟩
  obtain ⟨dirs, hdirs⟩ := hupdate
  have hends := BatchDirs.ends_updateState hdirs
  have hnone : ∀ other, ¬dirs.Live batch.phoneId other := by
    intro other hother
    obtain rfl := hone other hlive (hends.live _ _ hother)
    obtain ⟨record, hrecord, hrecordOpen, -⟩ := hother
    obtain ⟨⟨dir, hmem, hkey, hdir⟩, -⟩ := BatchDirs.loadBatch_eq_some_iff.1 hrecord
    rw [BatchDirs.updateState, hload, Option.bind_some,
      if_pos (canTransitionTo_canceled hopen)] at hdirs
    obtain rfl := Option.some.inj hdirs
    rcases KeyedTable.mem_insert.1 hmem with ⟨-, hne⟩ | rfl
    · exact hne hkey
    · obtain rfl := Option.some.inj hdir
      cases hrecordOpen
  rw [stay_put, effect, update_put_of_some hdirs]
  apply comesTo_put
  intro now
  exact .now ⟨Function.update_self _ _ _, hnone⟩

theorem Kept.unwedged (h : Kept plan w) (hquiet : w.Quiet) : Unwedged plan w where
  reoffer _ _ hthread hdirection hvalid := hquiet.reoffer h hthread hdirection hvalid
  cancel _ _ _ hthread hlive := h.cancel hthread hlive

end Quiet

/-- However often the program crashes, when it never does between the directory of a batch of a phone
and its record, no batch is stuck once the calls after the start have their answers, and no manifest
is. -/
theorem unwedged_of_crashesElsewhere (plan : String → FileOffer) (es : List CrashEvent)
    (h : Machine.Along (crashStep plan) CrashesElsewhere {} es) :
    Machine.Always (crashStep plan) (fun w => w.Quiet → Unwedged plan w) {} es ∧
      ManifestFiles.Recovers := by
  refine ⟨?_, ManifestFiles.recovers⟩
  refine Machine.always_of_along (Kept plan) es kept_empty (fun hquiet => ?_) ?_ h
  · exact kept_empty.unwedged hquiet
  · intro w e w' hkept hok hs
    have hkept' := kept_step hkept hok hs
    exact ⟨hkept', fun hquiet => hkept'.unwedged hquiet⟩

end Plan

/-- One empty file. -/
def emptyFile (batchId : String) : FileOffer :=
  { phoneId := "phone-1"
    batchId
    direction := .phoneToComputer
    fileCount := 1
    directoryCount := 0
    totalBytes := 0 }

/-- A crash while the phone's offer looks for its batch. -/
theorem stopped_while_looking :
    Machine.Always (crashStep emptyFile) (fun w => w.Quiet → Unwedged emptyFile w) {}
      [.offer 0 "batch-1", .step 0 0, .crash 0] ∧ ManifestFiles.Recovers := by
  refine unwedged_of_crashesElsewhere emptyFile _ ⟨trivial, trivial, ?_, trivial⟩
  rintro ⟨thread, s, hthread, offer, batch, unread, rfl, -⟩
  change Function.update _ 0 _ thread = _ at hthread
  by_cases hfirst : thread = 0
  · rw [hfirst, Function.update_self] at hthread
    cases hthread
  · rw [Function.update_of_ne hfirst] at hthread
    change Function.update _ 0 _ thread = _ at hthread
    rw [Function.update_of_ne hfirst] at hthread
    cases hthread

section HalfMade

/-- The offer has made the directory when the program is stopped. -/
def stoppedBeforeRecord : List CrashEvent :=
  [.offer 0 "batch-1", .step 0 0, .step 0 0, .step 0 0, .step 0 0, .step 0 0, .crash 0]

theorem ComesTo.next_of_unanswered {plan : String → FileOffer} {thread : Nat} {e : AdmissionEffect}
    {R : AdmissionWorld → ControlReply → Prop}
    (h : ComesTo plan thread (fun w => ∃ reply, w.threads thread = some (.answered reply) ∧
      R w reply) (w.put thread e)) (hne : ∀ reply, e.next ≠ .answered reply) :
    ComesTo plan thread (fun w => ∃ reply, w.threads thread = some (.answered reply) ∧ R w reply)
      (w.put thread ((w.put thread e).effect (.succeeds 0) e.next)) := by
  refine h.next ?_ ⟨0, rfl⟩ (step_put w thread 0 e)
  rintro ⟨reply, hanswered, -⟩
  have hstage : (w.put thread e).threads thread = some e.next := Function.update_self _ _ _
  rw [hstage] at hanswered
  exact hne reply (Option.some.inj hanswered)

theorem run_stoppedBeforeRecord :
    Machine.run (crashStep emptyFile) {} stoppedBeforeRecord =
      some { dirs := KeyedTable.insert .empty { batchId := "batch-1" } } := rfl

/-- A directory without a record refuses its own batch for good. -/
theorem half_made_wedged :
    ¬∀ (plan : String → FileOffer) (es : List CrashEvent),
      Machine.Always (crashStep plan) (fun w => w.Quiet → Unwedged plan w) {} es := by
  intro h
  have hunwedged := (h emptyFile stoppedBeforeRecord).last _ run_stoppedBeforeRecord all_empty
  obtain ⟨w₁, hoffer, hcomes⟩ := hunwedged.reoffer 0 "batch-1" rfl rfl (by decide +kernel)
  have hstart : w₁ = put { dirs := KeyedTable.insert .empty { batchId := "batch-1" } } 0
      { dirs := KeyedTable.insert .empty { batchId := "batch-1" }
        batchStarts := false
        next := .starting (offered emptyFile "batch-1") } := (Option.some.inj hoffer).symm
  rw [hstart] at hcomes
  -- the lock, the record that is missing, the directories, the one that is there, and once more
  -- the record
  have hlooking := hcomes.next_of_unanswered fun _ h => nomatch h
  have hlisting := hlooking.next_of_unanswered fun _ h => nomatch h
  have hscanning := hlisting.next_of_unanswered fun _ h => nomatch h
  have hscanned := hscanning.next_of_unanswered fun _ h => nomatch h
  have hcreating := hscanned.next_of_unanswered fun _ h => nomatch h
  have hresuming := hcreating.next_of_unanswered fun _ h => nomatch h
  have hleaving := hresuming.next_of_unanswered fun _ h => nomatch h
  have hanswered := hleaving.next_of_unanswered fun _ h => nomatch h
  refine Machine.not_eventually_of_loop ?_ ⟨0, rfl⟩ ?_ hanswered
  · rintro ⟨reply, hreply, hgood⟩
    have hcode : .error "cannot resume batch" = reply :=
      AdmissionStage.answered.inj (Option.some.inj hreply)
    exact hgood.ne_error (by decide) hcode.symm
  · exact step_put _ 0 0 _

end HalfMade

end AdmissionWorld

end FlowType
