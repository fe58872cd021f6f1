import FlowType.OneLiveBatch
import FlowType.OutboundOffers

/-! Sending files to the phone: the batch is made, on the disk too, before its offer is put into the
channel of the connection, which holds four offers and may have been closed. -/
namespace FlowType

structure OnlineConnection where
  phoneId : String
  isProbe : Bool
  deriving DecidableEq, Repr

structure OfferChannel where
  pending : List FileOffer := []
  closed : Bool := false
  deriving DecidableEq, Repr

def OFFER_CHANNEL_CAPACITY : Nat := 4

namespace OfferChannel

def HasRoom (c : OfferChannel) : Prop :=
  c.closed = false ∧ c.pending.length < OFFER_CHANNEL_CAPACITY

instance (c : OfferChannel) : Decidable c.HasRoom :=
  inferInstanceAs (Decidable (c.closed = false ∧ c.pending.length < OFFER_CHANNEL_CAPACITY))

def push (c : OfferChannel) (offer : FileOffer) : OfferChannel :=
  { c with pending := c.pending ++ [offer] }

def trySend (c : OfferChannel) (offer : FileOffer) : Option OfferChannel :=
  if c.HasRoom then some (c.push offer) else none

end OfferChannel

inductive IndexStep
  | beginManifest | beginSources | finishManifest | finishSources | readManifest | writeProgress
  deriving DecidableEq, Repr

def IndexStep.code : IndexStep → String
  | .beginManifest => "cannot create outbound manifest"
  | .beginSources => "cannot create outbound source index"
  | .finishManifest => "cannot finish outbound manifest"
  | .finishSources => "cannot save outbound sources"
  | .readManifest => "cannot read outbound manifest"
  | .writeProgress => "cannot initialize outbound directory"

/-- `unprepared` and `unwritten` stand for the errors about the selected paths themselves. -/
inductive SendError
  | message (text : String)
  | unprepared
  | unwritten
  deriving DecidableEq, Repr

/-- How it goes while an offer is made: whether `batch_starts` is free, the batches can be listed
and the directory can be created, how the record is written, which steps of the index fail, and how
the deletion goes. -/
structure OfferAccess where
  starts : Bool := true
  lists : Bool := true
  directory : Bool := true
  record : Access
  indexFails : IndexStep → Bool := fun _ => false
  deletion : Access

namespace BatchDirs

/-- `create_batch`, and whether it returns without an error. -/
def createBatch (dirs : BatchDirs) (batch : BatchRecord) (access : OfferAccess) :
    Bool × BatchDirs :=
  if access.directory = false ∨ dirs.contains batch.batchId = true then (false, dirs)
  else
    match access.record with
    | .succeeds _ => (true, dirs.insert { batchId := batch.batchId, record := some batch })
    | .fails => (false, dirs.insert { batchId := batch.batchId })
    | .partly _ => (false, dirs.insert { batchId := batch.batchId, record := some batch })

end BatchDirs

/-- A lock that was poisoned has `none`. -/
structure FileSender where
  onlineConnections : Option (List (Nat × OnlineConnection))
  fileOfferChannels : Option (Nat → Option OfferChannel)
  dirs : BatchDirs

/-- A call of `send_files_to_phone`: the identifier and the time that are drawn for the batch, and
what becomes of the channel while the batch is made. -/
structure FileSend where
  phoneId : String
  paths : List SelectedRoot
  batchId : String
  now : Nat
  access : OfferAccess
  meanwhile : OfferChannel → OfferChannel := id

section Send
variable (lower : List Char → List Char) (lineLength : ManifestEntry → Nat)
  (entryId : Nat → String)

def indexOutbound (fails : IndexStep → Bool) (prepared : OutboundPlan) (batch : BatchRecord) :
    Except SendError (List ManifestEntry) :=
  let fail (step : IndexStep) : Except SendError (List ManifestEntry) :=
    .error (.message step.code)
  let writer : ManifestWriter :=
    { expectedFiles := batch.fileCount
      expectedDirectories := batch.directoryCount
      expectedBytes := batch.totalBytes }
  if fails .beginManifest then fail .beginManifest
  else if fails .beginSources then fail .beginSources
  else
    match prepared.roots.foldlM (fun s root => writeOutbound lineLength entryId root.1.written
      root.2 s) (({} : OutboundStats), writer) with
    | none => .error .unwritten
    | some written =>
      if written.1.fileCount ≠ prepared.stats.fileCount ∨
          written.1.directoryCount ≠ prepared.stats.directoryCount ∨
          written.1.totalBytes ≠ prepared.stats.totalBytes then
        .error (.message "source changed while preparing transfer")
      else if fails .finishManifest then fail .finishManifest
      else
        match written.2.finish with
        | none => fail .finishManifest
        | some entries =>
          if fails .finishSources then fail .finishSources
          else if fails .readManifest then fail .readManifest
          else if fails .writeProgress then fail .writeProgress
          else .ok entries

namespace FileSender

/-- `create_outbound_offer`. -/
def createOffer (dirs : BatchDirs) (call : FileSend) : Except SendError FileOffer × BatchDirs :=
  if call.access.starts = false then (.error (.message "transfer_busy"), dirs)
  else if call.access.lists = false then (.error (.message "batch_unavailable"), dirs)
  else if dirs.recoverableBatches.any fun batch => batch.phoneId == call.phoneId then
    (.error (.message "a file transfer is already active"), dirs)
  else
    match prepareOutboundPlan lower call.paths with
    | none => (.error .unprepared, dirs)
    | some prepared =>
      match BatchRecord.new call.batchId call.phoneId .computerToPhone call.now
        prepared.stats.fileCount prepared.stats.directoryCount prepared.stats.totalBytes with
      | none => (.error (.message "invalid outbound batch"), dirs)
      | some batch =>
        match dirs.createBatch batch call.access with
        | (false, dirs) => (.error (.message "cannot create outbound batch"), dirs)
        | (true, dirs) =>
          match indexOutbound lineLength entryId call.access.indexFails prepared batch with
          | .error e => (.error e, dirs.deleteBatch call.batchId call.access.deletion)
          | .ok _ => (.ok (FileOffer.ofBatch batch prepared.summaries), dirs)

def phoneConnection (s : FileSender) (phoneId : String) : Option Nat :=
  s.onlineConnections.bind fun connections =>
    ((connections.filter fun c => c.2.phoneId == phoneId && !c.2.isProbe).map Prod.fst).max?

def sendFilesToPhone (s : FileSender) (call : FileSend) : Except SendError Unit × FileSender :=
  match s.phoneConnection call.phoneId with
  | none => (.error (.message "phone is not connected"), s)
  | some id =>
    match s.fileOfferChannels with
    | none => (.error (.message "file offer channel unavailable"), s)
    | some channels =>
      match channels id with
      | none => (.error (.message "phone connection does not support file transfer"), s)
      | some sender =>
        match createOffer lower lineLength entryId s.dirs call with
        | (.error e, dirs) => (.error e, { s with dirs })
        | (.ok offer, dirs) =>
          let left (channel : OfferChannel) : FileSender :=
            { s with dirs, fileOfferChannels := some (Function.update channels id (some channel)) }
          match (call.meanwhile sender).trySend offer with
          | none => (.error (.message "phone file queue is busy"), left (call.meanwhile sender))
          | some sent => (.ok (), left sent)

end FileSender

/-- The call gets as far as the directory of a new batch: what has been planned, and its record. -/
structure Recording (dirs : BatchDirs) (call : FileSend) (prepared : OutboundPlan)
    (batch : BatchRecord) : Prop where
  starts : call.access.starts = true
  lists : call.access.lists = true
  idle : dirs.recoverableBatches.any (fun batch => batch.phoneId == call.phoneId) = false
  plan : prepareOutboundPlan lower call.paths = some prepared
  record : BatchRecord.new call.batchId call.phoneId .computerToPhone call.now
    prepared.stats.fileCount prepared.stats.directoryCount prepared.stats.totalBytes = some batch
  directory : call.access.directory = true
  fresh : dirs.contains call.batchId = false

/-- So does a call for a phone with a connection that takes offers into `sender`. -/
structure Reaching (s : FileSender) (call : FileSend) (sender : OfferChannel)
    (prepared : OutboundPlan) (batch : BatchRecord) : Prop where
  connected : ∃ id channels, s.phoneConnection call.phoneId = some id ∧
    s.fileOfferChannels = some channels ∧ channels id = some sender
  recording : Recording lower s.dirs call prepared batch

/-- Nothing goes wrong from the moment at which the record of the batch is on the disk, or what
goes wrong is followed by a deletion that takes the record away. -/
structure SendsCleanly (s : FileSender) (call : FileSend) : Prop where
  record : ∀ sender prepared batch, Reaching lower s call sender prepared batch →
    ∀ now, call.access.record ≠ .partly now
  deletion : ∀ sender prepared batch now e, Reaching lower s call sender prepared batch →
    call.access.record = .succeeds now →
    indexOutbound lineLength entryId call.access.indexFails prepared batch = .error e →
    call.access.deletion ≠ .fails
  room : ∀ sender prepared batch now entries, Reaching lower s call sender prepared batch →
    call.access.record = .succeeds now →
    indexOutbound lineLength entryId call.access.indexFails prepared batch = .ok entries →
    (call.meanwhile sender).HasRoom

/-- The store has the same batches. -/
def SameBatches (dirs dirs' : BatchDirs) : Prop := ∀ k, dirs'.loadBatch k = dirs.loadBatch k

structure OneMore (dirs dirs' : BatchDirs) (batch : BatchRecord) : Prop where
  fresh : dirs.loadBatch batch.batchId = none
  loads : ∀ k, dirs'.loadBatch k = if k = batch.batchId then some batch else dirs.loadBatch k

/-- The connection of the phone was handed the offer of one new batch. -/
structure HandedOver (s s' : FileSender) (call : FileSend) : Prop where
  connections : s'.onlineConnections = s.onlineConnections
  handed : ∃ id channels sender offer stored, s.phoneConnection call.phoneId = some id ∧
    s.fileOfferChannels = some channels ∧ channels id = some sender ∧
    createOutboundOffer lower lineLength entryId s.dirs.recoverableBatches call.phoneId call.batchId
      call.now call.paths = some (offer, stored) ∧
    OneMore s.dirs s'.dirs stored.toBatchRecord ∧
    s'.fileOfferChannels =
      some (Function.update channels id (some ((call.meanwhile sender).push offer)))

/-- What a call should leave. -/
structure SendsWhole (s : FileSender) (call : FileSend)
    (result : Except SendError Unit × FileSender) : Prop where
  failed : ∀ e, result.1 = .error e → SameBatches s.dirs result.2.dirs ∧
    ∀ phoneId, result.2.dirs.recoverableBatches.any (fun batch => batch.phoneId == phoneId) =
      s.dirs.recoverableBatches.any fun batch => batch.phoneId == phoneId
  sent : result.1 = .ok () → HandedOver lower lineLength entryId s result.2 call

end Send

/-! ### The directories -/

namespace BatchDirs
variable {dirs dirs' : BatchDirs} {batch : BatchRecord} {batchId : String}

theorem loadBatch_eq (dirs : BatchDirs) (k : String) :
    dirs.loadBatch k = ((dirs.get? k).bind (·.record)).filter fun batch =>
      batch.validate && batch.batchId == k := rfl

theorem loadBatch_insert (dirs : BatchDirs) (new : BatchDir) (k : String) :
    loadBatch (dirs.insert new) k =
      if k = new.batchId then new.record.filter fun batch => batch.validate && batch.batchId == k
      else dirs.loadBatch k := by
  rw [loadBatch_eq, KeyedTable.get?_insert, loadBatch_eq]
  split_ifs <;> rfl

theorem loadBatch_of_not_contains (h : dirs.contains batchId = false) :
    dirs.loadBatch batchId = none := by
  cases hload : dirs.loadBatch batchId with
  | none => rfl
  | some batch =>
    rw [contains_of_loadBatch hload] at h
    exact nomatch h

theorem loadBatch_delete (dirs : BatchDirs) (batchId k : String) :
    loadBatch (dirs.delete batchId) k = if k = batchId then none else dirs.loadBatch k := by
  apply Option.ext
  intro batch
  rw [loadBatch_eq_some_iff]
  split_ifs with hk
  · refine iff_of_false ?_ nofun
    rintro ⟨⟨dir, hmem, hkey, -⟩, -⟩
    exact (KeyedTable.mem_delete.1 hmem).2 (hkey.trans hk)
  · rw [loadBatch_eq_some_iff]
    refine and_congr_left fun _ => exists_congr fun dir => ?_
    rw [KeyedTable.mem_delete]
    constructor
    · rintro ⟨⟨hmem, -⟩, hkey, hrecord⟩
      exact ⟨hmem, hkey, hrecord⟩
    · rintro ⟨hmem, hkey, hrecord⟩
      exact ⟨⟨hmem, fun heq => hk (hkey.symm.trans heq)⟩, hkey, hrecord⟩

end BatchDirs

section Batches
variable {dirs dirs' : BatchDirs} {batch : BatchRecord} {batchId : String}

open BatchDirs

theorem same_insert (h : dirs.loadBatch batchId = none) :
    SameBatches dirs (dirs.insert { batchId }) := by
  intro k
  rw [loadBatch_insert]
  split_ifs with hk
  · rw [hk, h]
    rfl
  · rfl

theorem oneMore_insert (hfresh : dirs.loadBatch batch.batchId = none)
    (hvalid : batch.validate = true) :
    OneMore dirs (dirs.insert { batchId := batch.batchId, record := some batch }) batch := by
  refine ⟨hfresh, ?_⟩
  intro k
  rw [loadBatch_insert]
  split_ifs with hk
  · simp only [hk, Option.filter_some, hvalid, beq_self_eq_true, Bool.and_self, if_true]
  · rfl

theorem OneMore.not_same (h : OneMore dirs dirs' batch) : ¬SameBatches dirs dirs' := by
  intro hsame
  have hloaded := hsame batch.batchId
  rw [h.loads, if_pos rfl, h.fresh] at hloaded
  exact nomatch hloaded

/-- A deletion takes the record away unless it fails. -/
theorem OneMore.same_iff {access : Access} (h : OneMore dirs dirs' batch) :
    SameBatches dirs (dirs'.deleteBatch batch.batchId access) ↔ access ≠ .fails := by
  have hdeleted : ∀ dirs₁ : BatchDirs,
      (∀ k, dirs₁.loadBatch k = if k = batch.batchId then none else dirs'.loadBatch k) →
        SameBatches dirs dirs₁ := by
    intro dirs₁ hloads k
    rw [hloads k]
    split_ifs with hk
    · rw [hk, h.fresh]
    · rw [h.loads k, if_neg hk]
  cases access with
  | fails =>
    exact iff_of_false h.not_same (fun hne => hne rfl)
  | succeeds now =>
    refine iff_of_true (hdeleted _ ?_) (fun hne => by cases hne)
    intro k
    rw [deleteBatch, loadBatch_delete]
  | partly now =>
    have hcontains : dirs'.contains batch.batchId = true := by
      apply contains_of_loadBatch
      rw [h.loads, if_pos rfl]
    refine iff_of_true (hdeleted _ ?_) (fun hne => by cases hne)
    intro k
    rw [deleteBatch, if_pos hcontains, loadBatch_insert]
    rfl

/-- Whether a batch of a phone is not over can be read off the batches. -/
theorem BatchDirs.recoverable_any_iff {phoneId : String} :
    (dirs.recoverableBatches.any fun batch => batch.phoneId == phoneId) = true ↔
      ∃ k, dirs.Live phoneId k := by
  rw [List.any_eq_true]
  constructor
  · rintro ⟨batch, hmem, hphone⟩
    obtain ⟨hloaded, hopen⟩ := List.mem_filter.1 hmem
    obtain ⟨dir, -, hload⟩ := List.mem_filterMap.1 hloaded
    exact ⟨dir.batchId, batch, hload, by simpa using hopen, beq_iff_eq.1 hphone⟩
  · rintro ⟨k, batch, hload, hopen, hphone⟩
    obtain ⟨dir, hmem, hkey⟩ := contains_iff.1 (contains_of_loadBatch hload)
    have hloaded : dirs.loadBatch dir.batchId = some batch := hkey ▸ hload
    refine ⟨batch, List.mem_filter.2 ⟨?_, ?_⟩, beq_iff_eq.2 hphone⟩
    · exact List.mem_filterMap.2 ⟨dir, hmem, hloaded⟩
    · rw [hopen]
      rfl

theorem SameBatches.recoverable (h : SameBatches dirs dirs') (phoneId : String) :
    (dirs'.recoverableBatches.any fun batch => batch.phoneId == phoneId) =
      dirs.recoverableBatches.any fun batch => batch.phoneId == phoneId := by
  rw [Bool.eq_iff_iff, recoverable_any_iff, recoverable_any_iff]
  simp only [Live, h _]

end Batches

/-! ### The call -/

section Send
variable {lower : List Char → List Char} {lineLength : ManifestEntry → Nat}
  {entryId : Nat → String} {s : FileSender} {call : FileSend} {dirs : BatchDirs}
  {sender sender' : OfferChannel} {prepared prepared' : OutboundPlan} {batch batch' : BatchRecord}

theorem Recording.batchId (h : Recording lower dirs call prepared batch) :
    batch.batchId = call.batchId ∧ batch.validate = true := by
  have hbatch := h.record
  unfold BatchRecord.new at hbatch
  extract_lets record at hbatch
  split_ifs at hbatch with hvalid
  obtain rfl := Option.some.inj hbatch
  exact ⟨rfl, hvalid⟩

theorem Recording.fresh_load (h : Recording lower dirs call prepared batch) :
    dirs.loadBatch batch.batchId = none := by
  rw [h.batchId.1]
  exact BatchDirs.loadBatch_of_not_contains h.fresh

theorem Reaching.eq (h : Reaching lower s call sender prepared batch)
    (h' : Reaching lower s call sender' prepared' batch') :
    sender' = sender ∧ prepared' = prepared ∧ batch' = batch := by
  obtain ⟨id, channels, hid, hchannels, hsender⟩ := h.connected
  obtain ⟨id', channels', hid', hchannels', hsender'⟩ := h'.connected
  obtain rfl := Option.some.inj (hid.symm.trans hid')
  obtain rfl := Option.some.inj (hchannels.symm.trans hchannels')
  have hprepared := h.recording.plan.symm.trans h'.recording.plan
  obtain rfl := Option.some.inj hprepared
  have hbatch := h.recording.record.symm.trans h'.recording.record
  have hchannel := hsender'.symm.trans hsender
  exact ⟨Option.some.inj hchannel, rfl, (Option.some.inj hbatch).symm⟩

/-- A call that does not get as far as a directory changes nothing. -/
theorem createOffer_refused (h : ¬∃ prepared batch, Recording lower dirs call prepared batch) :
    ∃ e, FileSender.createOffer lower lineLength entryId dirs call = (.error e, dirs) := by
  rw [FileSender.createOffer]
  split_ifs with hstarts hlists hbusy
  · exact ⟨_, rfl⟩
  · exact ⟨_, rfl⟩
  · exact ⟨_, rfl⟩
  · cases hprepared : prepareOutboundPlan lower call.paths with
    | none => exact ⟨_, rfl⟩
    | some prepared =>
      dsimp only
      cases hbatch : BatchRecord.new call.batchId call.phoneId .computerToPhone call.now
          prepared.stats.fileCount prepared.stats.directoryCount prepared.stats.totalBytes with
      | none => exact ⟨_, rfl⟩
      | some batch =>
        have hid : batch.batchId = call.batchId := by
          unfold BatchRecord.new at hbatch
          extract_lets record at hbatch
          split_ifs at hbatch
          obtain rfl := Option.some.inj hbatch
          rfl
        have hclosed : call.access.directory = false ∨ dirs.contains batch.batchId = true := by
          by_contra hopen
          rw [not_or, Bool.not_eq_false, Bool.not_eq_true, hid] at hopen
          refine h ⟨prepared, batch, ?_, ?_, ?_, hprepared, hbatch, hopen.1, hopen.2⟩
          · simpa using hstarts
          · simpa using hlists
          · simpa using hbusy
        dsimp only
        rw [BatchDirs.createBatch, if_pos hclosed]
        exact ⟨_, rfl⟩

/-- What a call does that gets as far as a directory. -/
theorem createOffer_recording (h : Recording lower dirs call prepared batch) :
    FileSender.createOffer lower lineLength entryId dirs call =
      match call.access.record with
      | .succeeds _ =>
        let dirs := dirs.insert { batchId := batch.batchId, record := some batch }
        match indexOutbound lineLength entryId call.access.indexFails prepared batch with
        | .error e => (.error e, BatchDirs.deleteBatch dirs call.batchId call.access.deletion)
        | .ok _ => (.ok (FileOffer.ofBatch batch prepared.summaries), dirs)
      | .fails =>
        (.error (.message "cannot create outbound batch"), dirs.insert { batchId := batch.batchId })
      | .partly _ =>
        (.error (.message "cannot create outbound batch"),
          dirs.insert { batchId := batch.batchId, record := some batch }) := by
  have hopen : ¬(call.access.directory = false ∨ dirs.contains batch.batchId = true) := by
    rw [h.directory, h.batchId.1, h.fresh]
    simp
  rw [FileSender.createOffer, h.starts, h.lists, h.idle, h.plan]
  simp only [Bool.true_eq_false, if_false, Bool.false_eq_true]
  rw [h.record]
  simp only [BatchDirs.createBatch]
  rw [if_neg hopen]
  cases call.access.record <;> rfl

/-- The offer is the one of the plan and the manifest. -/
theorem createOutboundOffer_of_index {entries : List ManifestEntry}
    (h : Recording lower dirs call prepared batch)
    (hindex : indexOutbound lineLength entryId call.access.indexFails prepared batch =
      .ok entries) :
    ∃ stored, createOutboundOffer lower lineLength entryId dirs.recoverableBatches call.phoneId
          call.batchId call.now call.paths =
        some (FileOffer.ofBatch batch prepared.summaries, stored) ∧
      stored.toBatchRecord = batch := by
  have hidle :
      ¬dirs.recoverableBatches.any (fun batch => batch.phoneId == call.phoneId) = true := by
    rw [h.idle]
    exact Bool.false_ne_true
  unfold indexOutbound at hindex
  extract_lets fail writer at hindex
  split at hindex
  · exact nomatch hindex
  · split at hindex
    · exact nomatch hindex
    · split at hindex
      · exact nomatch hindex
      · rename_i written hwritten
        split at hindex
        · exact nomatch hindex
        · rename_i hsame
          split at hindex
          · exact nomatch hindex
          · split at hindex
            · exact nomatch hindex
            · rename_i finished hfinish
              rw [createOutboundOffer, if_neg hidle, h.plan, Option.bind_some, h.record,
                Option.bind_some]
              dsimp only
              rw [hwritten, Option.bind_some, if_neg hsame, hfinish]
              exact ⟨_, rfl, rfl⟩

theorem send_refused
    (h : ¬∃ sender prepared batch, Reaching lower s call sender prepared batch) :
    ∃ e s', FileSender.sendFilesToPhone lower lineLength entryId s call = (.error e, s') ∧
      s'.dirs = s.dirs := by
  rw [FileSender.sendFilesToPhone]
  cases hid : s.phoneConnection call.phoneId with
  | none => exact ⟨_, s, rfl, rfl⟩
  | some id =>
    cases hchannels : s.fileOfferChannels with
    | none => exact ⟨_, s, rfl, rfl⟩
    | some channels =>
      dsimp only
      cases hsender : channels id with
      | none => exact ⟨_, s, rfl, rfl⟩
      | some sender =>
        have hrecording : ¬∃ prepared batch, Recording lower s.dirs call prepared batch := by
          rintro ⟨prepared, batch, hrecording⟩
          have hreach : Reaching lower s call sender prepared batch :=
            ⟨⟨id, channels, hid, hchannels, hsender⟩, hrecording⟩
          exact h ⟨sender, prepared, batch, hreach⟩
        have hcreate : ∃ e, FileSender.createOffer lower lineLength entryId s.dirs call =
            (.error e, s.dirs) := createOffer_refused hrecording
        obtain ⟨e, hcreate⟩ := hcreate
        dsimp only
        rw [hcreate]
        exact ⟨e, _, rfl, rfl⟩

/-- What a call does for a phone whose connection takes offers. -/
theorem send_connected {id : Nat} {channels : Nat → Option OfferChannel}
    (hid : s.phoneConnection call.phoneId = some id)
    (hchannels : s.fileOfferChannels = some channels) (hsender : channels id = some sender) :
    FileSender.sendFilesToPhone lower lineLength entryId s call =
      match FileSender.createOffer lower lineLength entryId s.dirs call with
      | (.error e, dirs) => (.error e, { s with dirs })
      | (.ok offer, dirs) =>
        let left (channel : OfferChannel) : FileSender :=
          { s with dirs, fileOfferChannels := some (Function.update channels id (some channel)) }
        match (call.meanwhile sender).trySend offer with
        | none => (.error (.message "phone file queue is busy"), left (call.meanwhile sender))
        | some sent => (.ok (), left sent) := by
  rw [FileSender.sendFilesToPhone, hid, hchannels]
  dsimp only
  rw [hsender]

theorem sendsWhole_of_error {e : SendError} {s' : FileSender}
    (h : SameBatches s.dirs s'.dirs) :
    SendsWhole lower lineLength entryId s call (.error e, s') :=
  ⟨fun _ _ => ⟨h, h.recoverable⟩, nofun⟩

theorem sendsWhole_error_iff {e : SendError} {s' : FileSender} :
    SendsWhole lower lineLength entryId s call (.error e, s') ↔ SameBatches s.dirs s'.dirs :=
  ⟨fun h => (h.failed e rfl).1, sendsWhole_of_error⟩

/-- Of a call that gets as far as a directory. -/
theorem sendsWhole_reaching (h : Reaching lower s call sender prepared batch) :
    SendsWhole lower lineLength entryId s call
        (FileSender.sendFilesToPhone lower lineLength entryId s call) ↔
      SendsCleanly lower lineLength entryId s call := by
  obtain ⟨id, channels, hid, hchannels, hsender⟩ := h.connected
  have hrecording := h.recording
  have hfresh := hrecording.fresh_load
  have hmore := oneMore_insert hfresh hrecording.batchId.2
  rw [send_connected hid hchannels hsender, createOffer_recording hrecording]
  cases hrecord : call.access.record with
  | fails =>
    dsimp only
    rw [sendsWhole_error_iff]
    refine iff_of_true (same_insert hfresh) ⟨?_, ?_, ?_⟩
    · intro _ _ _ _ now heq
      exact nomatch hrecord.symm.trans heq
    · intro _ _ _ now _ _ heq
      exact nomatch hrecord.symm.trans heq
    · intro _ _ _ now _ _ heq
      exact nomatch hrecord.symm.trans heq
  | partly now =>
    dsimp only
    rw [sendsWhole_error_iff]
    refine iff_of_false hmore.not_same ?_
    intro hclean
    exact hclean.record sender prepared batch h now hrecord
  | succeeds now =>
    dsimp only
    cases hindex : indexOutbound lineLength entryId call.access.indexFails prepared batch with
    | error e =>
      dsimp only
      rw [sendsWhole_error_iff, ← hrecording.batchId.1, hmore.same_iff]
      constructor
      · intro hdeletion
        refine ⟨?_, fun _ _ _ _ _ _ _ _ => hdeletion, ?_⟩
        · intro _ _ _ _ now heq
          exact nomatch hrecord.symm.trans heq
        · intro sender' prepared' batch' _ entries h' _ hok
          obtain ⟨-, rfl, rfl⟩ := h.eq h'
          exact nomatch hindex.symm.trans hok
      · intro hclean
        exact hclean.deletion sender prepared batch now e h hrecord hindex
    | ok entries =>
      dsimp only
      have hclean : SendsCleanly lower lineLength entryId s call ↔
          (call.meanwhile sender).HasRoom := by
        constructor
        · intro hclean
          exact hclean.room sender prepared batch now entries h hrecord hindex
        · intro hroom
          refine ⟨?_, ?_, ?_⟩
          · intro _ _ _ _ now heq
            exact nomatch hrecord.symm.trans heq
          · intro sender' prepared' batch' _ e h' _ herror
            obtain ⟨-, rfl, rfl⟩ := h.eq h'
            exact nomatch hindex.symm.trans herror
          · intro sender' prepared' batch' _ entries h' _ _
            obtain ⟨rfl, -, -⟩ := h.eq h'
            exact hroom
      rw [hclean, OfferChannel.trySend]
      split_ifs with hroom
      · refine iff_of_true ⟨nofun, fun _ => ⟨rfl, ?_⟩⟩ hroom
        obtain ⟨stored, hstored, hbatch⟩ := createOutboundOffer_of_index hrecording hindex
        refine ⟨id, channels, sender, _, stored, hid, hchannels, hsender, hstored, ?_, rfl⟩
        rw [hbatch]
        exact hmore
      · dsimp only
        rw [sendsWhole_error_iff]
        exact iff_of_false hmore.not_same hroom

/-- A call does what it should exactly when it sends cleanly. -/
theorem sendFilesToPhone_whole_iff (lower : List Char → List Char)
    (lineLength : ManifestEntry → Nat) (entryId : Nat → String) (s : FileSender)
    (call : FileSend) :
    SendsWhole lower lineLength entryId s call
        (FileSender.sendFilesToPhone lower lineLength entryId s call) ↔
      SendsCleanly lower lineLength entryId s call := by
  by_cases hreach : ∃ sender prepared batch, Reaching lower s call sender prepared batch
  · obtain ⟨sender, prepared, batch, h⟩ := hreach
    exact sendsWhole_reaching h
  · have hrefused : ∃ e s', FileSender.sendFilesToPhone lower lineLength entryId s call =
        (.error e, s') ∧ s'.dirs = s.dirs := send_refused hreach
    obtain ⟨e, s', hsend, hdirs⟩ := hrefused
    have hsame : SameBatches s.dirs s'.dirs := fun k => by rw [hdirs]
    rw [hsend, sendsWhole_error_iff]
    refine iff_of_true hsame ⟨?_, ?_, ?_⟩
    · intro sender prepared batch h
      exact absurd ⟨sender, prepared, batch, h⟩ hreach
    · intro sender prepared batch _ _ h
      exact absurd ⟨sender, prepared, batch, h⟩ hreach
    · intro sender prepared batch _ _ h
      exact absurd ⟨sender, prepared, batch, h⟩ hreach

end Send

/-- A phone with one connection. -/
def connectedPhone (id : Nat) (dirs : BatchDirs) : FileSender where
  onlineConnections := some [(id, ⟨"phone", false⟩)]
  fileOfferChannels := some fun other => if other = id then some {} else none
  dirs

/-- One file for it; the connection ends while the batch is made. -/
def oneFile : FileSend where
  phoneId := "phone"
  paths := [⟨some ['a'], .file 1 none, .file 1 none⟩]
  batchId := "batch"
  now := 0
  access := { record := .succeeds 0, deletion := .succeeds 0 }
  meanwhile := fun c => { c with closed := true }

/-- The call fails, the batch stays, and after the phone has come back the next call is refused
because of it. -/
theorem failed_send_leaves_batch :
    let result := FileSender.sendFilesToPhone (List.map Char.toLower) (fun _ => 0) (fun _ => "e")
      (connectedPhone 1 .empty) oneFile
    result.1 = .error (.message "phone file queue is busy") ∧
      ¬ SameBatches (connectedPhone 1 .empty).dirs result.2.dirs ∧
      (FileSender.sendFilesToPhone (List.map Char.toLower) (fun _ => 0) (fun _ => "e")
        (connectedPhone 2 result.2.dirs) { oneFile with batchId := "other", meanwhile := id }).1 =
          .error (.message "a file transfer is already active") := by
  refine ⟨by decide, ?_, by decide⟩
  intro hsame
  exact absurd (hsame "batch") (by decide)

end FlowType
