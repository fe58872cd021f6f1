import FlowType.BatchAdmission

/-! At most one batch of a phone is not over, unless a record could not be read. Who holds
`batch_starts` has seen every other record, and what the others do meanwhile only ends batches. -/
namespace FlowType

open Threads

namespace BatchDirs
variable {dirs dirs' : BatchDirs} {phoneId batchId : String}

def recoverableBatches (dirs : BatchDirs) : List BatchRecord :=
  (dirs.rows.filterMap fun dir => dirs.loadBatch dir.batchId).filter fun batch =>
    !batch.state.isTerminal

def Live (dirs : BatchDirs) (phoneId batchId : String) : Prop :=
  ∃ batch, dirs.loadBatch batchId = some batch ∧ batch.state.isTerminal = false ∧
    batch.phoneId = phoneId

def OneLive (dirs : BatchDirs) : Prop :=
  ∀ phoneId batchId batchId', dirs.Live phoneId batchId → dirs.Live phoneId batchId' →
    batchId = batchId'

structure Ends (dirs dirs' : BatchDirs) : Prop where
  live : ∀ phoneId batchId, dirs'.Live phoneId batchId → dirs.Live phoneId batchId
  contains : ∀ batchId, dirs.contains batchId = true → dirs'.contains batchId = true

theorem loadBatch_eq_some_iff {batch : BatchRecord} :
    dirs.loadBatch batchId = some batch ↔
      (∃ dir ∈ dirs.rows, dir.batchId = batchId ∧ dir.record = some batch) ∧
        batch.validate = true ∧ batch.batchId = batchId := by
  rw [loadBatch, Option.filter_eq_some_iff, Option.bind_eq_some_iff, Bool.and_eq_true, beq_iff_eq]
  refine and_congr_left fun _ => ?_
  constructor
  · rintro ⟨dir, hfound, hrecord⟩
    obtain ⟨hmem, hkey⟩ := KeyedTable.find?_eq_some_iff.1 hfound
    exact ⟨dir, hmem, hkey, hrecord⟩
  · rintro ⟨dir, hmem, hkey, hrecord⟩
    exact ⟨dir, KeyedTable.find?_eq_some_iff.2 ⟨hmem, hkey⟩, hrecord⟩

theorem contains_iff : dirs.contains batchId = true ↔ ∃ dir ∈ dirs.rows, dir.batchId = batchId := by
  simp [contains]

theorem contains_of_loadBatch {batch : BatchRecord} (h : dirs.loadBatch batchId = some batch) :
    dirs.contains batchId = true := by
  obtain ⟨⟨dir, hmem, hkey, -⟩, -⟩ := loadBatch_eq_some_iff.1 h
  exact contains_iff.2 ⟨dir, hmem, hkey⟩

theorem contains_insert {new : BatchDir} (h : dirs.contains batchId = true) :
    BatchDirs.contains (dirs.insert new) batchId = true := by
  obtain ⟨dir, hmem, hkey⟩ := contains_iff.1 h
  rw [contains_iff]
  by_cases hnew : dir.batchId = new.batchId
  · exact ⟨new, KeyedTable.mem_insert.2 (.inr rfl), hnew.symm.trans hkey⟩
  · exact ⟨dir, KeyedTable.mem_insert.2 (.inl ⟨hmem, hnew⟩), hkey⟩

/-- What is live after a directory was written: the batch in it, or what was live before. -/
theorem live_insert {new : BatchDir} (h : Live (dirs.insert new) phoneId batchId) :
    dirs.Live phoneId batchId ∨ ∃ batch, new.record = some batch ∧ new.batchId = batchId ∧
      batch.batchId = batchId ∧ batch.state.isTerminal = false ∧ batch.phoneId = phoneId := by
  obtain ⟨batch, hload, hopen, hphone⟩ := h
  obtain ⟨⟨dir, hmem, hkey, hrecord⟩, hvalid, hid⟩ := loadBatch_eq_some_iff.1 hload
  rcases KeyedTable.mem_insert.1 hmem with ⟨hold, -⟩ | rfl
  · have hloaded : dirs.loadBatch batchId = some batch :=
      loadBatch_eq_some_iff.2 ⟨⟨dir, hold, hkey, hrecord⟩, hvalid, hid⟩
    exact .inl ⟨batch, hloaded, hopen, hphone⟩
  · exact .inr ⟨batch, hrecord, hkey, hid, hopen, hphone⟩

theorem live_insert_of_ne {new : BatchDir} (h : dirs.Live phoneId batchId)
    (hne : batchId ≠ new.batchId) : Live (dirs.insert new) phoneId batchId := by
  obtain ⟨batch, hload, hopen, hphone⟩ := h
  obtain ⟨⟨dir, hmem, hkey, hrecord⟩, hvalid, hid⟩ := loadBatch_eq_some_iff.1 hload
  have hold : dir ∈ (dirs.insert new).rows :=
    KeyedTable.mem_insert.2 (.inl ⟨hmem, by rwa [hkey]⟩)
  exact ⟨batch, loadBatch_eq_some_iff.2 ⟨⟨dir, hold, hkey, hrecord⟩, hvalid, hid⟩, hopen, hphone⟩

/-- A batch whose record was written is live if it is not over. -/
theorem live_insert_new {batch : BatchRecord} (hvalid : batch.validate = true)
    (hopen : batch.state.isTerminal = false) :
    Live (dirs.insert { batchId := batch.batchId, record := some batch }) batch.phoneId
      batch.batchId :=
  ⟨batch, loadBatch_eq_some_iff.2 ⟨⟨_, KeyedTable.mem_insert.2 (.inr rfl), rfl, rfl⟩, hvalid, rfl⟩,
    hopen, rfl⟩

theorem live_delete {k : String} (h : Live (dirs.delete k) phoneId batchId) :
    dirs.Live phoneId batchId := by
  obtain ⟨batch, hload, hopen, hphone⟩ := h
  obtain ⟨⟨dir, hmem, hkey, hrecord⟩, hvalid, hid⟩ := loadBatch_eq_some_iff.1 hload
  have hold := (KeyedTable.mem_delete.1 hmem).1
  exact ⟨batch, loadBatch_eq_some_iff.2 ⟨⟨dir, hold, hkey, hrecord⟩, hvalid, hid⟩, hopen, hphone⟩

theorem Ends.refl (dirs : BatchDirs) : Ends dirs dirs := ⟨fun _ _ h => h, fun _ h => h⟩

/-- A record that is missing is no batch. -/
theorem ends_insert_empty (dirs : BatchDirs) (batchId : String) :
    Ends dirs (dirs.insert { batchId }) := by
  refine ⟨fun phoneId other h => ?_, fun _ h => contains_insert h⟩
  rcases live_insert h with hold | ⟨batch, hrecord, -⟩
  · exact hold
  · cases hrecord

theorem ends_updateState {state : BatchState} {now : Nat}
    (h : dirs.updateState batchId state now = some dirs') : Ends dirs dirs' := by
  obtain ⟨batch, hload, hstep⟩ := Option.bind_eq_some_iff.1 h
  split at hstep
  · rename_i hcan
    obtain rfl := Option.some.inj hstep
    refine ⟨fun phoneId other hlive => ?_, fun _ h => contains_insert h⟩
    rcases live_insert hlive with hold | ⟨updated, hrecord, hkey, hid, hopen, hphone⟩
    · exact hold
    · obtain rfl := Option.some.inj hrecord
      obtain rfl : batchId = other := hkey
      have hwasOpen := BatchState.open_of_canTransitionTo hcan hopen
      exact ⟨batch, hload, hwasOpen, hphone⟩
  · cases hstep

theorem live_deleteBatch {access : Access} (h : (dirs.deleteBatch batchId access).Live phoneId k) :
    dirs.Live phoneId k := by
  cases access with
  | succeeds now => exact live_delete h
  | fails => exact h
  | partly now =>
    rw [deleteBatch] at h
    split at h
    · exact (ends_insert_empty dirs batchId).live _ _ h
    · exact h

theorem live_cleanupExpired {cutoff : Nat} {access : String → Access}
    (h : (dirs.cleanupExpired cutoff access).Live phoneId batchId) : dirs.Live phoneId batchId := by
  have hfold : ∀ (ids : List String) (dirs : BatchDirs),
      (ids.foldl (expire cutoff access) dirs).Live phoneId batchId → dirs.Live phoneId batchId := by
    intro ids
    induction ids with
    | nil => exact fun _ h => h
    | cons id ids ih =>
      intro dirs h
      have hexpired := ih _ h
      rw [expire] at hexpired
      split at hexpired
      · exact live_deleteBatch hexpired
      · exact hexpired
  exact hfold _ _ h

theorem OneLive.of_live (h : dirs.OneLive)
    (hlive : ∀ phoneId batchId, dirs'.Live phoneId batchId → dirs.Live phoneId batchId) :
    dirs'.OneLive := fun phoneId _ _ h₁ h₂ => h phoneId _ _ (hlive _ _ h₁) (hlive _ _ h₂)

/-- When no batch of its phone is live, a new one is the only one. -/
theorem OneLive.insert (h : dirs.OneLive) {batch : BatchRecord}
    (hnone : ∀ batchId, ¬dirs.Live batch.phoneId batchId) :
    OneLive (dirs.insert { batchId := batch.batchId, record := some batch }) := by
  intro phoneId first second hfirst hsecond
  rcases live_insert hfirst with hold | ⟨_, hrecord, hkey, -, -, hphone⟩
  · rcases live_insert hsecond with hold' | ⟨_, hrecord', -, -, -, hphone'⟩
    · exact h phoneId first second hold hold'
    · obtain rfl := Option.some.inj hrecord'
      rw [← hphone'] at hold
      exact absurd hold (hnone first)
  · obtain rfl := Option.some.inj hrecord
    rcases live_insert hsecond with hold' | ⟨_, -, hkey', -, -, -⟩
    · rw [← hphone] at hold'
      exact absurd hold' (hnone second)
    · exact hkey.symm.trans hkey'

end BatchDirs

/-- The stages of a call that has taken `batch_starts`. -/
def AdmissionStage.holdsLock : AdmissionStage → Bool
  | .looking _ | .listing _ | .scanning .. | .creating _ _ | .recording _ _ _ | .resuming _
  | .ticketing _ | .indexing _ | .deleting _ | .leaving _ => true
  | _ => false

/-- What a call that holds the lock has seen of the directories. -/
def BatchDirs.Seen (dirs : BatchDirs) : AdmissionStage → Prop
  | .scanning offer rest found unread => found = false →
    ∀ batchId, dirs.Live offer.phoneId batchId → batchId ∈ rest ∨ batchId ∈ unread
  | .creating offer unread => dirs.contains offer.batchId = true ∨
    ∀ batchId, dirs.Live offer.phoneId batchId → batchId ∈ unread
  | .recording offer batch unread => (∃ now, offer.newBatch now = some batch) ∧
    ¬dirs.Live offer.phoneId offer.batchId ∧
      ∀ batchId, dirs.Live offer.phoneId batchId → batchId ∈ unread
  | _ => True

def BatchDirs.NoneMissed (dirs : BatchDirs) (access : Access) : AdmissionStage → Prop
  | .recording offer _ unread => access ≠ .fails →
    ∀ batchId ∈ unread, ¬dirs.Live offer.phoneId batchId
  | _ => True

namespace BatchDirs
variable {dirs dirs' : BatchDirs}

theorem seen_of_not_holds {s : AdmissionStage} (h : s.holdsLock = false) : dirs.Seen s := by
  cases s <;> trivial

/-- What has been seen stays true while the others end batches. -/
theorem Ends.seen (h : Ends dirs dirs') {s : AdmissionStage} (hs : dirs.Seen s) : dirs'.Seen s := by
  cases s with
  | scanning offer rest found unread =>
    intro hfound batchId hlive
    exact hs hfound batchId (h.live _ _ hlive)
  | creating offer unread =>
    rcases hs with hcontains | hunread
    · exact .inl (h.contains _ hcontains)
    · exact .inr fun batchId hlive => hunread batchId (h.live _ _ hlive)
  | recording offer batch unread =>
    obtain ⟨hnew, hfresh, hunread⟩ := hs
    exact ⟨hnew, fun hlive => hfresh (h.live _ _ hlive),
      fun batchId hlive => hunread batchId (h.live _ _ hlive)⟩
  | _ => trivial

end BatchDirs

namespace AdmissionWorld
variable {w w' : AdmissionWorld}

structure AdmissionInv (w : AdmissionWorld) : Prop where
  one : w.dirs.OneLive
  lock : (Occupied w.threads fun s => s.holdsLock = true) → w.batchStarts = true
  exclusive : AtMostOne w.threads fun s => s.holdsLock = true
  seen : All w.threads w.dirs.Seen

/-- What a step can do to the lock. -/
inductive LockEffect (w : AdmissionWorld) (s : AdmissionStage) (e : AdmissionEffect) : Prop
  | take (hs : s.holdsLock = false) (hfree : w.batchStarts = false) (hlock : e.batchStarts = true)
      (hnext : e.next.holdsLock = true)
  | drop (hs : s.holdsLock = true) (hlock : e.batchStarts = false)
      (hnext : e.next.holdsLock = false)
  | keep (hlock : e.batchStarts = w.batchStarts) (hnext : e.next.holdsLock = s.holdsLock)

structure Admits (w : AdmissionWorld) (s : AdmissionStage) (e : AdmissionEffect) : Prop where
  lock : LockEffect w s e
  one : e.dirs.OneLive
  others : s.holdsLock = true ∨ w.dirs.Ends e.dirs
  next : e.dirs.Seen e.next

theorem Admits.stay (hone : w.dirs.OneLive) {s next : AdmissionStage}
    (hholds : next.holdsLock = s.holdsLock) (hnext : w.dirs.Seen next) :
    Admits w s (w.stay next) :=
  ⟨.keep rfl hholds, hone, .inr (.refl _), hnext⟩

theorem Admits.leave (hone : w.dirs.OneLive) {s : AdmissionStage} (hs : s.holdsLock = true)
    (code : String) : Admits w s (w.leave code) :=
  .stay hone hs.symm trivial

theorem Admits.refuse (hone : w.dirs.OneLive) {s : AdmissionStage} (hs : s.holdsLock = false)
    (code : String) : Admits w s (w.refuse code) :=
  .stay hone hs.symm trivial

/-- A record is loaded, or the call goes on without it. -/
theorem Admits.load {s : AdmissionStage} {batchId : String} {access : Access}
    {found : BatchRecord → AdmissionEffect} {failed : AdmissionEffect}
    (hfound : ∀ batch, w.dirs.loadBatch batchId = some batch → Admits w s (found batch))
    (hfailed : Admits w s failed) : Admits w s (w.load batchId access found failed) := by
  unfold AdmissionWorld.load
  split
  · rename_i batch hload
    exact hfound batch hload
  · exact hfailed

theorem admits_create (hone : w.dirs.OneLive) {offer : FileOffer} {unread : List String}
    (access : Access) (hs : w.dirs.Seen (.creating offer unread)) :
    Admits w (.creating offer unread) (w.create offer unread access) := by
  cases access with
  | fails => exact .leave hone rfl _
  | partly now => exact .leave hone rfl _
  | succeeds now =>
    rw [create]
    split
    · exact .leave hone rfl _
    · rename_i batch hnew
      split
      · split
        · exact .stay hone rfl trivial
        · exact .leave hone rfl _
      · rename_i hfresh
        have hends := BatchDirs.ends_insert_empty w.dirs offer.batchId
        have hunread : ∀ batchId, w.dirs.Live offer.phoneId batchId → batchId ∈ unread :=
          hs.resolve_left hfresh
        refine ⟨.keep rfl rfl, hone.of_live hends.live, .inl rfl, ⟨now, hnew⟩, ?_, ?_⟩
        · intro hlive
          obtain ⟨batch, hload, -⟩ := hends.live _ _ hlive
          exact hfresh (BatchDirs.contains_of_loadBatch hload)
        · exact fun batchId hlive => hunread batchId (hends.live _ _ hlive)

/-- The new batch is the only one of its phone if none was missed. -/
theorem oneLive_writeRecord (hone : w.dirs.OneLive) {offer : FileOffer} {batch : BatchRecord}
    {unread : List String} (hs : w.dirs.Seen (.recording offer batch unread))
    (hmissed : ∀ batchId ∈ unread, ¬w.dirs.Live offer.phoneId batchId) :
    (w.writeRecord batch).OneLive := by
  obtain ⟨⟨now, hnew⟩, -, hunread⟩ := hs
  apply hone.insert
  rw [(newBatch_eq_some hnew).2.1.phoneId]
  intro batchId hlive
  exact hmissed batchId (hunread batchId hlive) hlive

/-- A batch that was missed and the new one are two. -/
theorem not_live_of_oneLive_writeRecord {offer : FileOffer} {batch : BatchRecord}
    {unread : List String} (hs : w.dirs.Seen (.recording offer batch unread))
    (hone : (w.writeRecord batch).OneLive) (batchId : String) :
    ¬w.dirs.Live offer.phoneId batchId := by
  intro hlive
  obtain ⟨⟨now, hnew⟩, hfresh, -⟩ := hs
  obtain ⟨hvalid, hmatches, hopen⟩ := newBatch_eq_some hnew
  have hne : batchId ≠ batch.batchId := by
    rw [hmatches.batchId]
    rintro rfl
    exact hfresh hlive
  have hkept : (w.writeRecord batch).Live offer.phoneId batchId :=
    BatchDirs.live_insert_of_ne hlive hne
  have hwritten : (w.writeRecord batch).Live batch.phoneId batch.batchId :=
    BatchDirs.live_insert_new hvalid hopen
  rw [hmatches.phoneId] at hwritten
  exact hne (hone _ _ _ hkept hwritten)

theorem admits_record (hone : w.dirs.OneLive) {offer : FileOffer} {batch : BatchRecord}
    {unread : List String} (access : Access) (hs : w.dirs.Seen (.recording offer batch unread))
    (hmissed : w.dirs.NoneMissed access (.recording offer batch unread)) :
    Admits w (.recording offer batch unread) (w.record offer batch access) := by
  cases access with
  | fails => exact .leave hone rfl _
  | partly now =>
    have hwritten := oneLive_writeRecord hone hs (hmissed nofun)
    exact ⟨.keep rfl rfl, hwritten, .inl rfl, trivial⟩
  | succeeds now =>
    have hwritten := oneLive_writeRecord hone hs (hmissed nofun)
    rw [record]
    by_cases hdirection : offer.direction = .phoneToComputer
    · rw [if_pos hdirection]
      exact ⟨.keep rfl rfl, hwritten, .inl rfl, trivial⟩
    · rw [if_neg hdirection]
      exact ⟨.keep rfl rfl, hwritten, .inl rfl, trivial⟩

/-- One more record is read; it is live and of the phone, or need not be looked at again. -/
theorem seen_scanning {dirs : BatchDirs} {offer : FileOffer} {batchId : String}
    {rest unread : List String} {found : Bool}
    (hs : dirs.Seen (.scanning offer (batchId :: rest) found unread)) :
    dirs.Seen (.scanning offer rest (found || (dirs.loadBatch batchId).any fun batch =>
      !batch.state.isTerminal && batch.phoneId == offer.phoneId) unread) := by
  intro hnone other hlive
  rw [Bool.or_eq_false_iff] at hnone
  rcases hs hnone.1 other hlive with hmem | hmem
  · rcases List.mem_cons.1 hmem with rfl | hrest
    · obtain ⟨batch, hload, hopen, hphone⟩ := hlive
      have hfound := hnone.2
      rw [hload, Option.any_some, hopen, hphone] at hfound
      simp at hfound
    · exact .inl hrest
  · exact .inr hmem

/-- A record that cannot be read goes to those that are missed. -/
theorem seen_scanning_unread {dirs : BatchDirs} {offer : FileOffer} {batchId : String}
    {rest unread : List String} {found : Bool}
    (hs : dirs.Seen (.scanning offer (batchId :: rest) found unread)) :
    dirs.Seen (.scanning offer rest found (batchId :: unread)) := by
  intro hnone other hlive
  rcases hs hnone other hlive with hmem | hmem
  · rcases List.mem_cons.1 hmem with rfl | hrest
    · exact .inr List.mem_cons_self
    · exact .inl hrest
  · exact .inr (List.mem_cons_of_mem batchId hmem)

theorem admits_scan (hone : w.dirs.OneLive) {offer : FileOffer} {batchId : String}
    {rest unread : List String} {found : Bool} (access : Access)
    (hs : w.dirs.Seen (.scanning offer (batchId :: rest) found unread)) :
    Admits w (.scanning offer (batchId :: rest) found unread)
      (w.scan offer batchId rest found unread access) := by
  cases access with
  | succeeds now => exact .stay hone rfl (seen_scanning hs)
  | fails => exact .stay hone rfl (seen_scanning_unread hs)
  | partly now => exact .leave hone rfl _

theorem admits_update (hone : w.dirs.OneLive) (batchId : String) (next : BatchState)
    (code : String) (plan : List Advance) (access : Access) :
    Admits w (.updating batchId next code plan) (w.update batchId next code plan access) := by
  cases access with
  | fails => exact .refuse hone rfl _
  | partly now =>
    have hends : w.dirs.Ends ((w.dirs.updateState batchId next now).getD w.dirs) := by
      cases hupdate : w.dirs.updateState batchId next now with
      | none => exact .refl _
      | some dirs => exact BatchDirs.ends_updateState hupdate
    exact ⟨.keep rfl rfl, hone.of_live hends.live, .inr hends, trivial⟩
  | succeeds now =>
    rw [update]
    split
    · rename_i dirs hupdate
      have hends := BatchDirs.ends_updateState hupdate
      exact ⟨.keep rfl rfl, hone.of_live hends.live, .inr hends, trivial⟩
    · exact .refuse hone rfl _

/-- A call that refuses or decides changes no directory. -/
theorem admits_decide (hone : w.dirs.OneLive) (decision : FileDecision) (phoneId : String)
    (batch : BatchRecord) :
    Admits w (.deciding decision phoneId) (w.decide decision phoneId batch) := by
  rw [decide]
  split_ifs
  · exact .refuse hone rfl _
  · exact .stay hone rfl trivial
  · exact .stay hone rfl trivial
  · exact .stay hone rfl trivial
  · exact .stay hone rfl trivial

theorem admits_cancel (hone : w.dirs.OneLive) (batchId phoneId : String) (batch : BatchRecord) :
    Admits w (.canceling batchId phoneId) (w.cancel batchId phoneId batch) := by
  rw [cancel]
  split_ifs
  · exact .refuse hone rfl _
  · exact .stay hone rfl trivial
  · exact .stay hone rfl trivial

theorem admits_resume (hone : w.dirs.OneLive) (offer : FileOffer) (existing : BatchRecord) :
    Admits w (.resuming offer) (w.resume offer existing) := by
  rw [resume]
  split_ifs
  · exact .leave hone rfl _
  · exact .stay hone rfl trivial
  · exact .stay hone rfl trivial

theorem admits_effect (hone : w.dirs.OneLive) {access : Access} {s : AdmissionStage}
    (hs : w.dirs.Seen s) (hmissed : w.dirs.NoneMissed access s) :
    Admits w s (w.effect access s) := by
  cases s with
  | starting offer =>
    rw [effect]
    split
    · exact .refuse hone rfl _
    · rename_i hfree
      have hnext : ∀ next : AdmissionStage, next.holdsLock = true → w.dirs.Seen next →
          Admits w (.starting offer) { dirs := w.dirs, batchStarts := true, next } :=
        fun next hholds hseen => ⟨.take rfl (by simpa using hfree) rfl hholds, hone, .inr (.refl _), hseen⟩
      split
      · exact hnext _ rfl trivial
      · exact hnext _ rfl trivial
  | looking offer =>
    refine Admits.load (fun batch hload => .stay hone rfl ?_) (.stay hone rfl trivial)
    exact .inl (BatchDirs.contains_of_loadBatch hload)
  | listing offer =>
    cases access with
    | fails => exact .leave hone rfl _
    | partly now => exact .leave hone rfl _
    | succeeds now =>
      refine .stay hone rfl ?_
      rintro - batchId ⟨batch, hload, -⟩
      obtain ⟨dir, hmem, hkey⟩ := BatchDirs.contains_iff.1 (BatchDirs.contains_of_loadBatch hload)
      exact .inl (List.mem_map.2 ⟨dir, hmem, hkey⟩)
  | scanning offer rest found unread =>
    cases rest with
    | nil =>
      cases found with
      | true => exact .leave hone rfl _
      | false =>
        refine .stay hone rfl (.inr ?_)
        intro batchId hlive
        exact (hs rfl batchId hlive).resolve_left List.not_mem_nil
    | cons batchId rest => exact admits_scan hone access hs
  | creating offer unread => exact admits_create hone access hs
  | recording offer batch unread => exact admits_record hone access hs hmissed
  | resuming offer =>
    exact Admits.load (fun batch _ => admits_resume hone offer batch) (.leave hone rfl _)
  | ticketing offer => exact Admits.load (fun _ _ => .stay hone rfl trivial) (.leave hone rfl _)
  | indexing offer =>
    cases access with
    | succeeds now => exact .stay hone rfl trivial
    | fails => exact .stay hone rfl trivial
    | partly now => exact .stay hone rfl trivial
  | deleting offer =>
    exact ⟨.keep rfl rfl, hone.of_live fun _ _ => BatchDirs.live_deleteBatch, .inl rfl, trivial⟩
  | leaving reply => exact ⟨.drop rfl rfl rfl, hone, .inl rfl, trivial⟩
  | deciding decision phoneId =>
    exact Admits.load (fun batch _ => admits_decide hone decision phoneId batch)
      (.refuse hone rfl _)
  | canceling batchId phoneId =>
    exact Admits.load (fun batch _ => admits_cancel hone batchId phoneId batch)
      (.refuse hone rfl _)
  | advancing batchId plan =>
    cases plan with
    | nil => exact .stay hone rfl trivial
    | cons advance plan =>
      refine Admits.load (fun batch _ => ?_) (.refuse hone rfl _)
      split
      · exact .stay hone rfl trivial
      · exact .stay hone rfl trivial
  | updating batchId next code plan => exact admits_update hone batchId next code plan access
  | answered reply => exact .stay hone rfl trivial

theorem admissionInv_stepThread (h : AdmissionInv w) {thread : Nat} {s : AdmissionStage}
    (hthread : w.threads thread = some s) {access : Access}
    (hmissed : w.dirs.NoneMissed access s) :
    AdmissionInv
      { dirs := (w.effect access s).dirs
        batchStarts := (w.effect access s).batchStarts
        threads := Function.update w.threads thread (some (w.effect access s).next) } := by
  obtain ⟨hlock, hone, hothers, hnext⟩ := admits_effect h.one (h.seen thread s hthread) hmissed
  have hseen : All (Function.update w.threads thread (some (w.effect access s).next))
      (w.effect access s).dirs.Seen := by
    intro i t hi
    by_cases hsame : i = thread
    · rw [hsame, Function.update_self] at hi
      obtain rfl := Option.some.inj hi
      exact hnext
    · rw [Function.update_of_ne hsame] at hi
      rcases hothers with hholds | hends
      · cases ht : t.holdsLock with
        | true => exact absurd (h.exclusive i thread t s hi hthread ht hholds) hsame
        | false => exact BatchDirs.seen_of_not_holds ht
      · exact hends.seen (h.seen i t hi)
  rcases hlock with ⟨hs, hfree, hlock, hholds⟩ | ⟨hs, hlock, hholds⟩ | ⟨hlock, hholds⟩
  · have hnobody : ¬Occupied w.threads fun s => s.holdsLock = true := by
      intro hocc
      rw [h.lock hocc] at hfree
      cases hfree
    exact ⟨hone, fun _ => hlock, atMostOne_update_of_free hnobody, hseen⟩
  · refine ⟨hone, fun hocc => ?_, h.exclusive.update hthread fun _ => hs, hseen⟩
    exact absurd hocc (not_occupied_update h.exclusive hthread hs (by simp [hholds]))
  · refine ⟨hone, fun hocc => ?_, h.exclusive.update hthread fun ht => hholds ▸ ht, hseen⟩
    have hiff : (w.effect access s).next.holdsLock = true ↔ s.holdsLock = true := by rw [hholds]
    exact hlock.trans (h.lock ((occupied_update_iff hthread hiff).1 hocc))

/-- Whenever the record of a new batch gets to the disk, every batch of the phone whose record
could not be read is over. -/
def RecordsRead (w : AdmissionWorld) : AdmissionEvent → Prop
  | .step thread access => ∀ s, w.threads thread = some s → w.dirs.NoneMissed access s
  | _ => True

theorem admissionInv_step (h : AdmissionInv w) {e : AdmissionEvent} (hok : w.RecordsRead e)
    (hs : w.step e = some w') : AdmissionInv w' := by
  have hstart : ∀ {thread : Nat} {stage : AdmissionStage}, w.start thread stage = some w' →
      stage.holdsLock = false → AdmissionInv w' := by
    intro thread stage hstarted hholds
    rw [start] at hstarted
    split at hstarted
    · rename_i hnone
      obtain rfl := Option.some.inj hstarted
      refine ⟨h.one, fun hocc => ?_, h.exclusive.start (by simp [hholds]),
        h.seen.update (BatchDirs.seen_of_not_holds hholds)⟩
      exact h.lock ((occupied_start_iff hnone (by simp [hholds])).1 hocc)
    · cases hstarted
  cases e with
  | acceptOffer thread offer phoneId =>
    rw [step] at hs
    split at hs
    · exact hstart hs rfl
    · split at hs <;> exact hstart hs rfl
  | createOutboundOffer thread offer => exact hstart hs rfl
  | acceptDecision thread decision phoneId =>
    rw [step] at hs
    split at hs <;> exact hstart hs rfl
  | cancel thread batchId phoneId => exact hstart hs rfl
  | complete thread batchId hasFailures => exact hstart hs rfl
  | updateState thread batchId next code => exact hstart hs rfl
  | step thread access =>
    obtain ⟨s, hthread, rfl⟩ := Option.map_eq_some_iff.1 hs
    exact admissionInv_stepThread h hthread (hok s hthread)
  | spoil batchId =>
    rw [step] at hs
    split at hs
    · obtain rfl := Option.some.inj hs
      have hends := BatchDirs.ends_insert_empty w.dirs batchId
      exact ⟨h.one.of_live hends.live, h.lock, h.exclusive,
        fun i s hi => hends.seen (h.seen i s hi)⟩
    · cases hs
  | restart cutoff access =>
    obtain rfl := Option.some.inj hs
    exact ⟨h.one.of_live fun _ _ => BatchDirs.live_cleanupExpired,
      fun hocc => absurd hocc not_occupied_empty, atMostOne_empty, all_empty⟩

theorem admissionInv_start : AdmissionInv {} where
  one _ _ _ h := by
    obtain ⟨batch, hload, -⟩ := h
    cases hload
  lock hocc := absurd hocc not_occupied_empty
  exclusive := atMostOne_empty
  seen := all_empty

/-- One batch of the phone at most is persisted and not over. -/
def OneLiveBatch (w : AdmissionWorld) : Prop :=
  ∀ phoneId, (w.dirs.recoverableBatches.filter fun batch => batch.phoneId == phoneId).length ≤ 1

theorem mem_recoverable_iff {phoneId : String} {batch : BatchRecord} :
    batch ∈ w.dirs.recoverableBatches.filter (fun batch => batch.phoneId == phoneId) ↔
      w.dirs.loadBatch batch.batchId = some batch ∧ batch.state.isTerminal = false ∧
        batch.phoneId = phoneId := by
  simp only [BatchDirs.recoverableBatches, List.mem_filter, List.mem_filterMap,
    Bool.not_eq_true', beq_iff_eq, and_assoc]
  refine and_congr_left fun _ => ?_
  constructor
  · rintro ⟨dir, -, hload⟩
    rwa [(BatchDirs.loadBatch_eq_some_iff.1 hload).2.2]
  · intro hload
    obtain ⟨dir, hmem, hkey⟩ := BatchDirs.contains_iff.1 (BatchDirs.contains_of_loadBatch hload)
    exact ⟨dir, hmem, by rwa [hkey]⟩

theorem oneLiveBatch_iff : w.OneLiveBatch ↔ w.dirs.OneLive := by
  constructor
  · rintro h phoneId first second ⟨batch, hload, hopen, hphone⟩ ⟨batch', hload', hopen', hphone'⟩
    obtain rfl := (BatchDirs.loadBatch_eq_some_iff.1 hload).2.2
    obtain rfl := (BatchDirs.loadBatch_eq_some_iff.1 hload').2.2
    have hmem := mem_recoverable_iff.2 ⟨hload, hopen, hphone⟩
    have hmem' := mem_recoverable_iff.2 ⟨hload', hopen', hphone'⟩
    obtain ⟨i, hi, hfirst⟩ := List.getElem_of_mem hmem
    obtain ⟨j, hj, hsecond⟩ := List.getElem_of_mem hmem'
    have hone := h phoneId
    obtain rfl : i = j := by omega
    rw [← hfirst, ← hsecond]
  · intro h phoneId
    have hdistinct : (w.dirs.recoverableBatches.filter fun batch =>
        batch.phoneId == phoneId).Pairwise fun b b' => b.batchId ≠ b'.batchId := by
      refine List.Pairwise.filter _ (List.Pairwise.filter _ ?_)
      rw [List.pairwise_filterMap]
      refine (List.pairwise_map.1 w.dirs.nodup).imp ?_
      intro dir dir' hne batch hload batch' hload'
      rw [(BatchDirs.loadBatch_eq_some_iff.1 hload).2.2,
        (BatchDirs.loadBatch_eq_some_iff.1 hload').2.2]
      exact hne
    have hlive : ∀ batch ∈ w.dirs.recoverableBatches.filter
        (fun batch => batch.phoneId == phoneId), w.dirs.Live phoneId batch.batchId :=
      fun batch hmem => ⟨batch, mem_recoverable_iff.1 hmem⟩
    generalize (w.dirs.recoverableBatches.filter fun batch => batch.phoneId == phoneId) = rows
      at hdistinct hlive ⊢
    match rows with
    | [] => exact Nat.zero_le 1
    | [batch] => exact le_rfl
    | batch :: batch' :: rest =>
      have hsame := h phoneId batch.batchId batch'.batchId (hlive batch List.mem_cons_self)
        (hlive batch' (List.mem_cons_of_mem _ List.mem_cons_self))
      exact absurd hsame ((List.pairwise_cons.1 hdistinct).1 batch' List.mem_cons_self)

/-- A step after which no phone has two batches has missed none. -/
theorem recordsRead_of_oneLive (h : AdmissionInv w) {e : AdmissionEvent}
    (hs : w.step e = some w') (hone : w'.dirs.OneLive) : w.RecordsRead e := by
  cases e with
  | step thread access =>
    intro s hthread
    obtain ⟨s', hthread', rfl⟩ := Option.map_eq_some_iff.1 hs
    obtain rfl := Option.some.inj (hthread.symm.trans hthread')
    cases s with
    | recording offer batch unread =>
      intro hwrites batchId _
      have hwritten : (w.effect access (.recording offer batch unread)).dirs =
          w.writeRecord batch := by
        cases access with
        | succeeds now => rfl
        | fails => exact absurd rfl hwrites
        | partly now => rfl
      dsimp only at hone
      rw [hwritten] at hone
      exact not_live_of_oneLive_writeRecord (h.seen thread _ hthread) hone batchId
    | _ => trivial
  | _ => trivial

/-- Whatever order the calls take their steps in, and whenever the program is stopped, one batch of
a phone at most is not over, exactly in the runs in which no record of a new batch is written beside
a batch of its phone that could not be read and is not over. -/
theorem one_live_batch (es : List AdmissionEvent) :
    Machine.Always step OneLiveBatch {} es ↔ Machine.Along step RecordsRead {} es := by
  have hstart : OneLiveBatch {} := oneLiveBatch_iff.2 admissionInv_start.one
  refine Machine.always_iff_along AdmissionInv es admissionInv_start hstart ?_
  intro w e w' h _ hs
  have hnext : w.RecordsRead e → AdmissionInv w' := fun hok => admissionInv_step h hok hs
  refine ⟨⟨?_, fun hok => oneLiveBatch_iff.2 (hnext hok).one⟩, hnext⟩
  exact fun hone => recordsRead_of_oneLive h hs (oneLiveBatch_iff.1 hone)

/-- A phone offers a second batch while the record of its first one cannot be read. -/
def unreadRun : List AdmissionEvent :=
  let offer (batchId : String) : FileOffer :=
    { phoneId := "phone", batchId, direction := .phoneToComputer, fileCount := 1
      directoryCount := 0, totalBytes := 1 }
  let done : Access := .succeeds 1
  [.acceptOffer 1 (offer "first") "phone", .step 1 done, .step 1 done, .step 1 done, .step 1 done,
    .step 1 done, .step 1 done, .step 1 done, .step 1 done,
    .acceptOffer 2 (offer "second") "phone", .step 2 done, .step 2 done, .step 2 done,
    .step 2 .fails, .step 2 done, .step 2 done, .step 2 done]

theorem unreadRun_two_live : ¬Machine.Always step OneLiveBatch {} unreadRun := by
  intro h
  have hr := (Option.some_get (x := Machine.run step {} unreadRun) (by decide)).symm
  have hone := h.last unreadRun hr "phone"
  exact absurd hone (by decide)

end AdmissionWorld

end FlowType
