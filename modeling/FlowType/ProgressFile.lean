import FlowType.ByteFiles
import FlowType.TargetMapping

/-! The progress of the entries of a batch on the disk: a file of records of one size, in which
an entry without a record, or with one of zeros, is pending. -/
namespace FlowType

open ByteFiles

def PROGRESS_RECORD_BYTES : Nat := 16

def PROGRESS_RECORD_VERSION : UInt8 := 1

def EntryState.toByte : EntryState → UInt8
  | .pending => 0
  | .transferring => 1
  | .waitingNetwork => 2
  | .needsReselection => 3
  | .completed => 4
  | .failed => 5
  | .canceled => 6

def EntryState.tryFrom (value : UInt8) : Option EntryState :=
  match value.toNat with
  | 0 => some .pending
  | 1 => some .transferring
  | 2 => some .waitingNetwork
  | 3 => some .needsReselection
  | 4 => some .completed
  | 5 => some .failed
  | 6 => some .canceled
  | _ => none

/-- `EntryProgress` with the offset's own type. -/
structure StoredProgress where
  state : EntryState := .pending
  committedOffset : UInt64 := 0
  deriving DecidableEq, Repr

def encodeProgress (progress : StoredProgress) : List UInt8 :=
  [PROGRESS_RECORD_VERSION, progress.state.toByte] ++ List.replicate 6 0 ++
    leBytes 8 progress.committedOffset.toNat

def decodeProgress (record : List UInt8) : Except String StoredProgress :=
  if record.all (· == 0) then .ok {}
  else if byteAt record 0 ≠ PROGRESS_RECORD_VERSION ∨ (readAt record 2 6).any (· != 0) = true then
    .error "invalid progress record"
  else
    match EntryState.tryFrom (byteAt record 1) with
    | none => .error "invalid progress state"
    | some state => .ok ⟨state, UInt64.ofNat (ofLeBytes (readAt record 8 8))⟩

/-- `ProgressSummary`; its sums saturate. -/
structure ProgressSummary where
  completedBytes : Nat := 0
  completedEntries : Nat := 0
  failedEntries : Nat := 0
  deriving DecidableEq, Repr

def saturatingAdd (a b : Nat) : Nat := min (a + b) (2 ^ 64 - 1)

def ProgressSummary.add (summary : ProgressSummary) (progress : StoredProgress) :
    ProgressSummary where
  completedBytes := saturatingAdd summary.completedBytes progress.committedOffset.toNat
  completedEntries := if progress.state = .completed then saturatingAdd summary.completedEntries 1
    else summary.completedEntries
  failedEntries := if progress.state = .failed then saturatingAdd summary.failedEntries 1
    else summary.failedEntries

/-- The entries of a manifest that is committed; `initialize_progress` has found their number to
be in range. -/
structure CommittedManifest (lineLength : ManifestEntry → Nat) where
  entries : List ManifestEntry
  valid : ∀ entry ∈ entries, entry.validate lineLength = true
  numbered : ∀ i (h : i < entries.length), (entries[i]).ordinal = i
  inRange : entries.length * PROGRESS_RECORD_BYTES < 2 ^ 64

structure CommittedBatch (lineLength : ManifestEntry → Nat) extends
    CommittedManifest lineLength where
  file : List UInt8

/-- The batch with the file that `initialize_progress` creates. -/
def CommittedManifest.initializeProgress {lineLength : ManifestEntry → Nat}
    (m : CommittedManifest lineLength) : CommittedBatch lineLength := { m with file := [] }

namespace CommittedBatch

variable {lineLength : ManifestEntry → Nat}

def writeProgress (s : CommittedBatch lineLength) (ordinal : Nat) (progress : StoredProgress) :
    Except String (CommittedBatch lineLength) :=
  if s.entries.length ≤ ordinal then .error "progress ordinal is outside the manifest"
  else if 2 ^ 64 ≤ ordinal * PROGRESS_RECORD_BYTES then .error "progress offset overflow"
  else .ok { s with
    file := writeAt s.file (ordinal * PROGRESS_RECORD_BYTES) (encodeProgress progress) }

def readProgress (s : CommittedBatch lineLength) (ordinal : Nat) : Except String StoredProgress :=
  if s.entries.length ≤ ordinal then .error "progress ordinal is outside the manifest"
  else if 2 ^ 64 ≤ ordinal * PROGRESS_RECORD_BYTES then .error "progress offset overflow"
  else
    let filled := readAt s.file (ordinal * PROGRESS_RECORD_BYTES) PROGRESS_RECORD_BYTES
    if filled.length ≠ 0 ∧ filled.length ≠ PROGRESS_RECORD_BYTES then
      .error "incomplete progress record"
    else decodeProgress (recordAt PROGRESS_RECORD_BYTES s.file ordinal)

/-- The loop of `progress_summary` over what is left of the file. -/
def summaryLoop : Nat → List UInt8 → ProgressSummary → Except String ProgressSummary
  | 0, _, summary => .ok summary
  | entryCount + 1, file, summary =>
    let filled := readAt file 0 PROGRESS_RECORD_BYTES
    if filled.length = 0 then .ok summary
    else if filled.length ≠ PROGRESS_RECORD_BYTES then .error "incomplete progress record"
    else
      match decodeProgress filled with
      | .error message => .error message
      | .ok progress =>
        summaryLoop entryCount (file.drop PROGRESS_RECORD_BYTES) (summary.add progress)

def progressSummary (s : CommittedBatch lineLength) (entryCount : Nat) :
    Except String ProgressSummary := summaryLoop entryCount s.file {}

/-- How `all_entries_terminal` takes an entry into `(terminal, failed)`. -/
def countEntry (counted : Bool × Bool) (entry : ManifestEntry) (progress : StoredProgress) :
    Bool × Bool :=
  match progress.state with
  | .completed =>
    if progress.committedOffset.toNat = entry.size then counted else (false, counted.2)
  | .failed => (counted.1, true)
  | .canceled => (counted.1, true)
  | _ => (false, counted.2)

def allEntriesTerminal (s : CommittedBatch lineLength) : Option (Bool × Bool) :=
  let visited := forEachManifestEntry lineLength
    (fun counted entry =>
      match s.readProgress entry.ordinal with
      | .error _ => (counted, false)
      | .ok progress => (countEntry counted entry progress, true))
    0 s.entries (true, false)
  if visited.2 then some visited.1 else none

/-- A sequence of writes, of which those outside the manifest fail. -/
def writeAll (s : CommittedBatch lineLength) :
    List (Nat × StoredProgress) → CommittedBatch lineLength
  | [] => s
  | write :: writes =>
    match s.writeProgress write.1 write.2 with
    | .error _ => s.writeAll writes
    | .ok s' => s'.writeAll writes

end CommittedBatch

/-- The last value that was written for an entry. -/
def lastWritten (writes : List (Nat × StoredProgress)) (ordinal : Nat) : StoredProgress :=
  match (writes.filter fun write => write.1 = ordinal).getLast? with
  | some write => write.2
  | none => {}

theorem tryFrom_toByte (state : EntryState) : EntryState.tryFrom state.toByte = some state := by
  cases state <;> rfl

theorem length_encodeProgress (progress : StoredProgress) :
    (encodeProgress progress).length = PROGRESS_RECORD_BYTES := by
  simp [encodeProgress, PROGRESS_RECORD_BYTES]

theorem decodeProgress_encodeProgress (progress : StoredProgress) :
    decodeProgress (encodeProgress progress) = .ok progress := by
  have hversion : byteAt (encodeProgress progress) 0 = PROGRESS_RECORD_VERSION := rfl
  have hstate : byteAt (encodeProgress progress) 1 = progress.state.toByte := rfl
  have hzeros : readAt (encodeProgress progress) 2 6 = List.replicate 6 0 := rfl
  have hoffset : readAt (encodeProgress progress) 8 8 =
      leBytes 8 progress.committedOffset.toNat := by
    have hdrop : (encodeProgress progress).drop 8 = leBytes 8 progress.committedOffset.toNat := rfl
    rw [readAt, hdrop]
    exact List.take_of_length_le (by simp)
  have hsome : ¬(encodeProgress progress).all (· == 0) = true := by
    simp [encodeProgress, PROGRESS_RECORD_VERSION]
  have hvalue : ofLeBytes (leBytes 8 progress.committedOffset.toNat) =
      progress.committedOffset.toNat := by
    rw [ofLeBytes_leBytes]
    exact Nat.mod_eq_of_lt progress.committedOffset.toNat_lt
  rw [decodeProgress, if_neg hsome, hversion, hzeros, if_neg (by decide), hstate,
    tryFrom_toByte, hoffset, hvalue, UInt64.ofNat_toNat]

theorem decodeProgress_zeros (count : Nat) :
    decodeProgress (List.replicate count 0) = .ok {} := by
  rw [decodeProgress, if_pos]
  simp

namespace CommittedBatch

variable {lineLength : ManifestEntry → Nat} {s s' : CommittedBatch lineLength}
  {f g : Nat → StoredProgress}

/-- The file is whole records, and they are the values of `f`. -/
structure Holds (s : CommittedBatch lineLength) (f : Nat → StoredProgress) : Prop where
  whole : s.file.length % PROGRESS_RECORD_BYTES = 0
  records : ∀ i, decodeProgress (recordAt PROGRESS_RECORD_BYTES s.file i) = .ok (f i)

theorem holds_initializeProgress (m : CommittedManifest lineLength) :
    m.initializeProgress.Holds fun _ => {} := by
  refine ⟨rfl, ?_⟩
  intro i
  have hzeros : recordAt PROGRESS_RECORD_BYTES m.initializeProgress.file i =
      List.replicate PROGRESS_RECORD_BYTES 0 := by
    have hempty : m.initializeProgress.file = [] := rfl
    rw [recordAt, readAt, hempty, List.drop_nil, List.take_nil]
    rfl
  rw [hzeros]
  exact decodeProgress_zeros _

theorem lt_of_lt_length (s : CommittedBatch lineLength) {ordinal : Nat}
    (h : ordinal < s.entries.length) : ordinal * PROGRESS_RECORD_BYTES < 2 ^ 64 := by
  have hle := Nat.mul_le_mul_right PROGRESS_RECORD_BYTES h.le
  have hrange := s.inRange
  omega

theorem readProgress_of_holds (h : s.Holds f) {ordinal : Nat} (hlt : ordinal < s.entries.length) :
    s.readProgress ordinal = .ok (f ordinal) := by
  have hoffset := s.lt_of_lt_length hlt
  have hfilled := length_readAt_of_whole (by decide : 0 < PROGRESS_RECORD_BYTES) h.whole ordinal
  rw [readProgress, if_neg (by omega), if_neg (by omega)]
  dsimp only
  rw [if_neg (by omega), h.records]

/-- A write changes one value of the map. -/
theorem Holds.writeProgress (h : s.Holds f) {ordinal : Nat} {progress : StoredProgress}
    (hwrite : s.writeProgress ordinal progress = .ok s') :
    s'.Holds (Function.update f ordinal progress) ∧
      s'.toCommittedManifest = s.toCommittedManifest := by
  unfold CommittedBatch.writeProgress at hwrite
  split_ifs at hwrite
  obtain rfl := Except.ok.inj hwrite
  have hlength := length_encodeProgress progress
  refine ⟨⟨?_, ?_⟩, rfl⟩
  · exact length_writeAt_mod hlength h.whole ordinal
  · intro i
    dsimp only
    rw [recordAt_writeAt hlength]
    by_cases hsame : i = ordinal
    · rw [if_pos hsame, hsame, Function.update_self]
      exact decodeProgress_encodeProgress progress
    · rw [if_neg hsame, Function.update_of_ne hsame]
      exact h.records i

/-- The values after a sequence of writes, of which those behind `entryCount` fail. -/
def valuesAfter (entryCount : Nat) (f : Nat → StoredProgress) :
    List (Nat × StoredProgress) → Nat → StoredProgress
  | [] => f
  | write :: writes =>
    valuesAfter entryCount (if write.1 < entryCount then Function.update f write.1 write.2 else f)
      writes

theorem Holds.writeAll (h : s.Holds f) (writes : List (Nat × StoredProgress)) :
    (s.writeAll writes).Holds (valuesAfter s.entries.length f writes) ∧
      (s.writeAll writes).toCommittedManifest = s.toCommittedManifest := by
  induction writes generalizing s f with
  | nil => exact ⟨h, rfl⟩
  | cons write writes ih =>
    rw [CommittedBatch.writeAll, valuesAfter]
    by_cases hlt : write.1 < s.entries.length
    · have hok : s.writeProgress write.1 write.2 = .ok { s with
          file := writeAt s.file (write.1 * PROGRESS_RECORD_BYTES) (encodeProgress write.2) } := by
        have hoffset := s.lt_of_lt_length hlt
        rw [CommittedBatch.writeProgress, if_neg (by omega), if_neg (by omega)]
      obtain ⟨hnext, hsame⟩ := h.writeProgress hok
      rw [hok, if_pos hlt]
      exact ih hnext
    · have herror : s.writeProgress write.1 write.2 =
          .error "progress ordinal is outside the manifest" := by
        rw [CommittedBatch.writeProgress, if_pos (by omega)]
      rw [herror, if_neg hlt]
      exact ih h

theorem valuesAfter_eq {entryCount : Nat} {ordinal : Nat} (hlt : ordinal < entryCount)
    (f : Nat → StoredProgress) (writes : List (Nat × StoredProgress)) :
    valuesAfter entryCount f writes ordinal =
      match (writes.filter fun write => write.1 = ordinal).getLast? with
      | some write => write.2
      | none => f ordinal := by
  induction writes generalizing f with
  | nil => rfl
  | cons write writes ih =>
    rw [valuesAfter, ih]
    by_cases hsame : write.1 = ordinal
    · rw [List.filter_cons_of_pos (by simpa using hsame), List.getLast?_cons]
      cases (writes.filter fun write => write.1 = ordinal).getLast? with
      | some last => rfl
      | none => simp [hsame, hlt]
    · rw [List.filter_cons_of_neg (by simpa using hsame)]
      cases (writes.filter fun write => write.1 = ordinal).getLast? with
      | some last => rfl
      | none =>
        dsimp only
        split
        · exact Function.update_of_ne (Ne.symm hsame) _ _
        · rfl

/-- What is read after the writes. -/
theorem readProgress_writeAll (m : CommittedManifest lineLength)
    (writes : List (Nat × StoredProgress)) {ordinal : Nat} (hlt : ordinal < m.entries.length) :
    (m.initializeProgress.writeAll writes).readProgress ordinal =
      .ok (lastWritten writes ordinal) := by
  obtain ⟨hholds, hsame⟩ := (holds_initializeProgress m).writeAll writes
  have hentries : (m.initializeProgress.writeAll writes).entries = m.entries :=
    congrArg CommittedManifest.entries hsame
  have hordinal : ordinal < (m.initializeProgress.writeAll writes).entries.length := by
    rw [hentries]
    exact hlt
  rw [readProgress_of_holds hholds hordinal]
  exact congrArg _ (valuesAfter_eq hlt _ writes)

/-! ### The readers of all entries -/

theorem saturatingAdd_zero {a : Nat} (h : a ≤ 2 ^ 64 - 1) : saturatingAdd a 0 = a := by
  unfold saturatingAdd
  omega

theorem add_pending {summary : ProgressSummary} (h : summary.completedBytes ≤ 2 ^ 64 - 1) :
    summary.add {} = summary := by
  have hsame : saturatingAdd summary.completedBytes 0 = summary.completedBytes :=
    saturatingAdd_zero h
  cases summary
  simp only [ProgressSummary.add] at hsame ⊢
  rw [show (0 : UInt64).toNat = 0 from rfl, hsame]
  rfl

theorem add_le (summary : ProgressSummary) (progress : StoredProgress) :
    (summary.add progress).completedBytes ≤ 2 ^ 64 - 1 := Nat.min_le_right _ _

theorem foldl_add_pending {summary : ProgressSummary} (h : summary.completedBytes ≤ 2 ^ 64 - 1)
    (count : Nat) :
    (List.replicate count ({} : StoredProgress)).foldl ProgressSummary.add summary = summary := by
  induction count with
  | zero => rfl
  | succ count ih => rw [List.replicate_succ, List.foldl_cons, add_pending h, ih]

theorem recordAt_drop (file : List UInt8) (i : Nat) :
    recordAt PROGRESS_RECORD_BYTES (file.drop PROGRESS_RECORD_BYTES) i =
      recordAt PROGRESS_RECORD_BYTES file (i + 1) := by
  have hplace : PROGRESS_RECORD_BYTES + i * PROGRESS_RECORD_BYTES =
      (i + 1) * PROGRESS_RECORD_BYTES := by rw [Nat.succ_mul]; omega
  rw [recordAt, recordAt, readAt, readAt, List.drop_drop, hplace]

/-- The loop that stops at the end of the file counts all entries: what is behind the end is
pending and adds nothing. -/
theorem summaryLoop_eq {file : List UInt8} (hwhole : file.length % PROGRESS_RECORD_BYTES = 0)
    (hrecords : ∀ i, decodeProgress (recordAt PROGRESS_RECORD_BYTES file i) = .ok (f i))
    {summary : ProgressSummary} (hbound : summary.completedBytes ≤ 2 ^ 64 - 1)
    (entryCount : Nat) :
    summaryLoop entryCount file summary =
      .ok (((List.range entryCount).map f).foldl ProgressSummary.add summary) := by
  induction entryCount generalizing file f summary with
  | zero => rfl
  | succ entryCount ih =>
    have hfilled := length_readAt_of_whole (by decide : 0 < PROGRESS_RECORD_BYTES) hwhole 0
    rw [Nat.zero_mul] at hfilled
    rw [summaryLoop]
    by_cases hend : (readAt file 0 PROGRESS_RECORD_BYTES).length = 0
    · -- Nothing is left, so every further record is one of zeros.
      have hempty : file = [] := by
        have hlength : min PROGRESS_RECORD_BYTES file.length = 0 := by
          rwa [readAt, List.length_take, List.drop_zero] at hend
        have hpos : 0 < PROGRESS_RECORD_BYTES := by decide
        exact List.length_eq_zero_iff.1 (by omega)
      have hpending : ∀ i, f i = {} := by
        intro i
        have hrecord := hrecords i
        rw [hempty, recordAt, readAt, List.drop_nil, List.take_nil, List.nil_append,
          decodeProgress_zeros] at hrecord
        exact (Except.ok.inj hrecord).symm
      have hmap : (List.range (entryCount + 1)).map f = List.replicate (entryCount + 1) {} := by
        rw [List.eq_replicate_iff]
        refine ⟨by simp, ?_⟩
        intro progress hmem
        obtain ⟨i, _, rfl⟩ := List.mem_map.1 hmem
        exact hpending i
      rw [if_pos hend, hmap, foldl_add_pending hbound]
    · have hfull : (readAt file 0 PROGRESS_RECORD_BYTES).length = PROGRESS_RECORD_BYTES := by omega
      have hfirst : decodeProgress (readAt file 0 PROGRESS_RECORD_BYTES) = .ok (f 0) := by
        have hrecord := hrecords 0
        rw [recordAt, Nat.zero_mul, hfull, Nat.sub_self, List.replicate_zero,
          List.append_nil] at hrecord
        exact hrecord
      have hrest : (file.drop PROGRESS_RECORD_BYTES).length % PROGRESS_RECORD_BYTES = 0 := by
        rw [List.length_drop]
        have hle : PROGRESS_RECORD_BYTES ≤ file.length := by
          rw [readAt, List.length_take, List.drop_zero] at hfull
          omega
        rw [← Nat.mod_eq_sub_mod hle]
        exact hwhole
      have hshift : ∀ i, decodeProgress (recordAt PROGRESS_RECORD_BYTES
          (file.drop PROGRESS_RECORD_BYTES) i) = .ok (f (i + 1)) := by
        intro i
        rw [recordAt_drop]
        exact hrecords (i + 1)
      rw [if_neg hend, if_neg (by omega), hfirst]
      dsimp only
      rw [ih hrest hshift (add_le _ _), List.range_succ_eq_map, List.map_cons, List.foldl_cons,
        List.map_map]
      rfl

/-- A visit of entries that are valid and numbered from `ordinal` on. -/
theorem forEachManifestEntry_of_visit {σ : Type} {visit : σ → ManifestEntry → σ × Bool}
    {next : σ → ManifestEntry × Nat → σ} {entries : List ManifestEntry} {ordinal : Nat}
    (hvalid : ∀ entry ∈ entries, entry.validate lineLength = true)
    (hnumbered : ∀ i (h : i < entries.length), (entries[i]).ordinal = ordinal + i)
    (hvisit : ∀ i (h : i < entries.length) s,
      visit s entries[i] = (next s (entries[i], ordinal + i), true)) (s : σ) :
    forEachManifestEntry lineLength visit ordinal entries s =
      ((entries.zipIdx ordinal).foldl next s, true) := by
  induction entries generalizing ordinal s with
  | nil => rfl
  | cons entry entries ih =>
    have hfirst : entry.ordinal = ordinal := hnumbered 0 (by simp)
    have hstep : visit s entry = (next s (entry, ordinal), true) := hvisit 0 (by simp) s
    rw [List.forall_mem_cons] at hvalid
    rw [forEachManifestEntry, if_neg (by simp [hvalid.1, hfirst]), hstep]
    dsimp only
    rw [ih hvalid.2, List.zipIdx_cons, List.foldl_cons]
    · intro i hi
      have hlater := hnumbered (i + 1) (by simpa using hi)
      rw [List.getElem_cons_succ] at hlater
      omega
    · intro i hi s
      have hlater := hvisit (i + 1) (by simpa using hi) s
      rw [List.getElem_cons_succ, ← Nat.add_assoc, Nat.add_right_comm] at hlater
      exact hlater

/-- A fold of saturating sums saturates once. -/
theorem foldl_add_eq (l : List StoredProgress) {summary : ProgressSummary}
    (hbytes : summary.completedBytes ≤ 2 ^ 64 - 1)
    (hcompleted : summary.completedEntries ≤ 2 ^ 64 - 1)
    (hfailed : summary.failedEntries ≤ 2 ^ 64 - 1) :
    l.foldl ProgressSummary.add summary =
      { completedBytes :=
          min (summary.completedBytes + (l.map (·.committedOffset.toNat)).sum) (2 ^ 64 - 1)
        completedEntries :=
          min (summary.completedEntries + l.countP (·.state = .completed)) (2 ^ 64 - 1)
        failedEntries :=
          min (summary.failedEntries + l.countP (·.state = .failed)) (2 ^ 64 - 1) } := by
  have hcount : ∀ (a count : Nat) (p : Prop) [Decidable p], a ≤ 2 ^ 64 - 1 →
      (if p then saturatingAdd a 1 else a) ≤ 2 ^ 64 - 1 ∧
        min ((if p then saturatingAdd a 1 else a) + count) (2 ^ 64 - 1) =
          min (a + (count + if p then 1 else 0)) (2 ^ 64 - 1) := by
    intro a count p _ ha
    unfold saturatingAdd
    split
    · omega
    · omega
  induction l generalizing summary with
  | nil =>
    simp only [List.foldl_nil, List.map_nil, List.sum_nil, List.countP_nil, Nat.add_zero,
      Nat.min_eq_left hbytes, Nat.min_eq_left hcompleted, Nat.min_eq_left hfailed]
  | cons progress l ih =>
    obtain ⟨hcompleted', hcompletedSum⟩ := hcount summary.completedEntries
      (l.countP (·.state = .completed)) (progress.state = .completed) hcompleted
    obtain ⟨hfailed', hfailedSum⟩ := hcount summary.failedEntries
      (l.countP (·.state = .failed)) (progress.state = .failed) hfailed
    have hbytesSum : min ((summary.add progress).completedBytes +
        (l.map (·.committedOffset.toNat)).sum) (2 ^ 64 - 1) =
        min (summary.completedBytes + (progress.committedOffset.toNat +
          (l.map (·.committedOffset.toNat)).sum)) (2 ^ 64 - 1) := by
      simp only [ProgressSummary.add, saturatingAdd]
      omega
    rw [List.foldl_cons, ih (add_le summary progress) hcompleted' hfailed', List.map_cons,
      List.sum_cons, List.countP_cons, List.countP_cons]
    simp only [decide_eq_true_eq]
    rw [← hcompletedSum, ← hfailedSum, ← hbytesSum]
    rfl

/-- What `progress_summary` says of a committed manifest: there are too few entries for their
numbers to saturate. -/
theorem progressSummary_of_holds (h : s.Holds f) (hvalues : ∀ i < s.entries.length, f i = g i) :
    s.progressSummary s.entries.length =
      .ok
        { completedBytes := min ((List.range s.entries.length).map
            fun i => (g i).committedOffset.toNat).sum (2 ^ 64 - 1)
          completedEntries := (List.range s.entries.length).countP
            fun i => (g i).state = .completed
          failedEntries := (List.range s.entries.length).countP
            fun i => (g i).state = .failed } := by
  have hzero : ({} : ProgressSummary).completedBytes ≤ 2 ^ 64 - 1 := Nat.zero_le _
  have hcount : ∀ state : EntryState,
      (List.range s.entries.length).countP (fun i => (g i).state = state) ≤ 2 ^ 64 - 1 := by
    intro state
    have hle := List.countP_le_length (p := fun i => (g i).state = state)
      (l := List.range s.entries.length)
    rw [List.length_range] at hle
    have hrange := s.inRange
    unfold PROGRESS_RECORD_BYTES at hrange
    omega
  have hmap : (List.range s.entries.length).map f = (List.range s.entries.length).map g :=
    List.map_congr_left fun i hi => hvalues i (List.mem_range.1 hi)
  rw [progressSummary, summaryLoop_eq h.whole h.records hzero, hmap,
    foldl_add_eq _ hzero (Nat.zero_le _) (Nat.zero_le _)]
  simp only [Nat.zero_add, List.map_map, List.countP_map, Function.comp_def,
    Nat.min_eq_left (hcount .completed), Nat.min_eq_left (hcount .failed)]

/-- The entry has come to its end. -/
def EntryOver (entry : ManifestEntry) (progress : StoredProgress) : Prop :=
  (progress.state = .completed ∧ progress.committedOffset.toNat = entry.size) ∨
    progress.state = .failed ∨ progress.state = .canceled

/-- Every entry that is not over clears the first flag, and every one that failed or was canceled
sets the second one. -/
theorem foldl_countEntry (f : Nat → StoredProgress) (l : List (ManifestEntry × Nat))
    (counted : Bool × Bool) :
    ((l.foldl (fun counted p => countEntry counted p.1 (f p.2)) counted).1 = true ↔
      counted.1 = true ∧ ∀ p ∈ l, EntryOver p.1 (f p.2)) ∧
    ((l.foldl (fun counted p => countEntry counted p.1 (f p.2)) counted).2 = true ↔
      counted.2 = true ∨ ∃ p ∈ l, (f p.2).state = .failed ∨ (f p.2).state = .canceled) := by
  induction l generalizing counted with
  | nil => simp
  | cons p l ih =>
    obtain ⟨hterminal, hfailed⟩ := ih (countEntry counted p.1 (f p.2))
    have hfirst : (countEntry counted p.1 (f p.2)).1 = true ↔
        counted.1 = true ∧ EntryOver p.1 (f p.2) := by
      unfold countEntry EntryOver
      cases hstate : (f p.2).state with
      | completed => by_cases hsize : (f p.2).committedOffset.toNat = p.1.size <;> simp [hsize]
      | _ => simp
    have hsecond : (countEntry counted p.1 (f p.2)).2 = true ↔
        counted.2 = true ∨ (f p.2).state = .failed ∨ (f p.2).state = .canceled := by
      unfold countEntry
      cases hstate : (f p.2).state with
      | completed => by_cases hsize : (f p.2).committedOffset.toNat = p.1.size <;> simp [hsize]
      | _ => simp
    rw [List.foldl_cons, hterminal, hfailed, hfirst, hsecond, List.forall_mem_cons,
      List.exists_mem_cons_iff, and_assoc, or_assoc]
    exact ⟨Iff.rfl, Iff.rfl⟩

/-- What `all_entries_terminal` says of a committed manifest. -/
theorem allEntriesTerminal_of_holds (h : s.Holds f)
    (hvalues : ∀ i < s.entries.length, f i = g i) :
    ∃ terminal failed, s.allEntriesTerminal = some (terminal, failed) ∧
      (terminal = true ↔ ∀ i (hi : i < s.entries.length), EntryOver s.entries[i] (g i)) ∧
      (failed = true ↔ ∃ i < s.entries.length,
        (g i).state = .failed ∨ (g i).state = .canceled) := by
  have hvisit := @forEachManifestEntry_of_visit lineLength _
    (fun counted entry =>
      match s.readProgress entry.ordinal with
      | .error _ => (counted, false)
      | .ok progress => (countEntry counted entry progress, true))
    (fun counted p => countEntry counted p.1 (g p.2)) s.entries 0 s.valid
    (fun i hi => by rw [s.numbered i hi, Nat.zero_add]) ?_ (true, false)
  · obtain ⟨hterminal, hfailed⟩ := foldl_countEntry g s.entries.zipIdx (true, false)
    refine ⟨_, _, ?_, hterminal.trans ?_, hfailed.trans ?_⟩
    · rw [allEntriesTerminal, hvisit]
      rfl
    · rw [eq_self_iff_true, true_and]
      constructor
      · intro hall i hi
        have hmem : (s.entries[i], i) ∈ s.entries.zipIdx :=
          List.mem_zipIdx_iff_getElem?.2 (List.getElem?_eq_getElem hi)
        exact hall _ hmem
      · intro hall p hp
        obtain ⟨hi, hentry⟩ := List.getElem?_eq_some_iff.1 (List.mem_zipIdx_iff_getElem?.1 hp)
        rw [← hentry]
        exact hall p.2 hi
    · rw [Bool.false_eq_true, false_or]
      constructor
      · rintro ⟨p, hp, hstate⟩
        obtain ⟨hi, -⟩ := List.getElem?_eq_some_iff.1 (List.mem_zipIdx_iff_getElem?.1 hp)
        exact ⟨p.2, hi, hstate⟩
      · rintro ⟨i, hi, hstate⟩
        exact ⟨(s.entries[i], i), List.mem_zipIdx_iff_getElem?.2 (List.getElem?_eq_getElem hi),
          hstate⟩
  · intro i hi counted
    dsimp only
    rw [s.numbered i hi, readProgress_of_holds h hi, hvalues i hi, Nat.zero_add]

/-- For every sequence of writes on a committed manifest: each entry reads as the last value that
was written for it, an encoded value decodes to itself, the summary is the sum of the offsets and
the numbers of the completed and the failed entries, and the manifest is terminal when all its
entries are over, with a failure when one failed or was canceled. -/
theorem progress_is_map (m : CommittedManifest lineLength)
    (writes : List (Nat × StoredProgress)) :
    (∀ i, i < m.entries.length →
      (m.initializeProgress.writeAll writes).readProgress i = .ok (lastWritten writes i)) ∧
    (∀ progress, decodeProgress (encodeProgress progress) = .ok progress) ∧
    (m.initializeProgress.writeAll writes).progressSummary m.entries.length =
      .ok
        { completedBytes := min ((List.range m.entries.length).map
            fun i => (lastWritten writes i).committedOffset.toNat).sum (2 ^ 64 - 1)
          completedEntries := (List.range m.entries.length).countP
            fun i => (lastWritten writes i).state = .completed
          failedEntries := (List.range m.entries.length).countP
            fun i => (lastWritten writes i).state = .failed } ∧
    ∃ terminal failed,
      (m.initializeProgress.writeAll writes).allEntriesTerminal = some (terminal, failed) ∧
      (terminal = true ↔ ∀ i (h : i < m.entries.length),
        EntryOver m.entries[i] (lastWritten writes i)) ∧
      (failed = true ↔ ∃ i < m.entries.length,
        (lastWritten writes i).state = .failed ∨ (lastWritten writes i).state = .canceled) := by
  obtain ⟨hholds, hsame⟩ := (holds_initializeProgress m).writeAll writes
  have hentries : (m.initializeProgress.writeAll writes).entries = m.entries :=
    congrArg CommittedManifest.entries hsame
  have hvalues : ∀ i < (m.initializeProgress.writeAll writes).entries.length,
      valuesAfter m.initializeProgress.entries.length (fun _ => {}) writes i =
        lastWritten writes i := by
    intro i hi
    rw [hentries] at hi
    exact valuesAfter_eq hi _ writes
  have hsummary := progressSummary_of_holds hholds hvalues
  have hterminal := allEntriesTerminal_of_holds hholds hvalues
  simp only [hentries] at hsummary hterminal
  exact ⟨fun i hi => readProgress_writeAll m writes hi, decodeProgress_encodeProgress, hsummary,
    hterminal⟩

end CommittedBatch

end FlowType
