import FlowType.ByteFiles
import FlowType.ManifestIngest

/-! The manifest of a batch on the disk: the file of its lines, the file with the place of each
line, and the record of completion. What is read of the three, and what a writer leaves of them
when it finishes, fails, is dropped or is lost with its process. -/
namespace FlowType

open ByteFiles

/-- JSON of one entry, which is assumed to come back as it was and to be one line. -/
structure EntryJson where
  encode : ManifestEntry → List UInt8
  decode : List UInt8 → Option ManifestEntry
  roundTrip : ∀ entry, decode (encode entry) = some entry
  oneLine : ∀ entry, LF ∉ encode entry

def EntryJson.lineLength (json : EntryJson) (entry : ManifestEntry) : Nat :=
  (json.encode entry).length

structure ManifestComplete where
  entryCount : Nat
  sha256 : String
  deriving DecidableEq, Repr

section Files

variable (json : EntryJson)

def manifestBytes (entries : List ManifestEntry) : List UInt8 :=
  joinLines LF (entries.map json.encode)

def indexBytes (nextOffset : Nat) : List ManifestEntry → List UInt8
  | [] => []
  | entry :: entries =>
    leBytes 8 nextOffset ++ indexBytes (nextOffset + (json.encode entry).length + 1) entries

/-- The loop of `for_each_manifest_entry` with a visit that never fails: the entries it visits. -/
def visitLines (ordinal : Nat) (file : List UInt8) : Except String (List ManifestEntry) :=
  match _ : file.idxOf? LF with
  | none => if file = [] then .ok [] else .error "incomplete manifest line"
  | some newline =>
    match json.decode (file.take newline) with
    | none => .error "invalid json"
    | some entry =>
      if entry.validate json.lineLength = false then .error "invalid manifest entry"
      else if entry.ordinal ≠ ordinal then .error "manifest ordinals are not contiguous"
      else (visitLines (ordinal + 1) (file.drop (newline + 1))).map (entry :: ·)
termination_by file.length
decreasing_by
  have hne : file ≠ [] := by
    rintro rfl
    cases ‹List.idxOf? LF [] = some _›
  have hpos := List.length_pos_iff.2 hne
  rw [List.length_drop]
  omega

/-- `for_each_manifest_entry`. -/
def listEntries (digest : List UInt8 → String) (complete : Option ManifestComplete)
    (manifest : Option (List UInt8)) : Except String (List ManifestEntry) :=
  match complete, manifest with
  | some completed, some file =>
    match visitLines json 0 file with
    | .error message => .error message
    | .ok entries =>
      if entries.length ≠ completed.entryCount ∨ digest file ≠ completed.sha256 then
        .error "manifest completion record does not match"
      else .ok entries
  | _, _ => .error "file not found"

/-- `manifest_entry`. -/
def readEntry (complete : Option ManifestComplete) (manifest index : Option (List UInt8))
    (ordinal : Nat) : Except String ManifestEntry :=
  match complete, manifest, index with
  | some completed, some manifest, some index =>
    if completed.entryCount ≤ ordinal then .error "manifest ordinal is outside the batch"
    else if 2 ^ 64 ≤ ordinal * 8 then .error "manifest index offset overflow"
    else
      let encodedOffset := readAt index (ordinal * 8) 8
      let line := manifest.drop (ofLeBytes encodedOffset)
      if encodedOffset.length ≠ 8 then .error "unexpected end of file"
      else if LF ∉ line then .error "incomplete manifest line"
      else
        match json.decode (line.takeWhile (· ≠ LF)) with
        | none => .error "invalid json"
        | some entry =>
          if entry.validate json.lineLength = false then .error "invalid manifest entry"
          else if entry.ordinal ≠ ordinal then .error "manifest index does not match entry"
          else .ok entry
  | _, _, _ => .error "file not found"

variable {json} {entries : List ManifestEntry} {entry : ManifestEntry} {ordinal : Nat}

@[simp] theorem manifestBytes_nil : manifestBytes json [] = [] := rfl

@[simp] theorem manifestBytes_cons : manifestBytes json (entry :: entries) =
    json.encode entry ++ LF :: manifestBytes json entries := joinLines_cons

theorem manifestBytes_append (entries entries' : List ManifestEntry) :
    manifestBytes json (entries ++ entries') =
      manifestBytes json entries ++ manifestBytes json entries' := by
  rw [manifestBytes, List.map_append, joinLines_append]
  rfl

theorem visitLines_nil : visitLines json ordinal [] = .ok [] := by
  rw [visitLines]
  rfl

theorem visitLines_cons (entry : ManifestEntry) (rest : List UInt8) :
    visitLines json ordinal (json.encode entry ++ LF :: rest) =
      if entry.validate json.lineLength = false then .error "invalid manifest entry"
      else if entry.ordinal ≠ ordinal then .error "manifest ordinals are not contiguous"
      else (visitLines json (ordinal + 1) rest).map (entry :: ·) := by
  have hfound := idxOf?_line (json.oneLine entry) rest
  have hdrop : (json.encode entry ++ LF :: rest).drop ((json.encode entry).length + 1) = rest := by
    rw [List.append_cons]
    exact List.drop_left' (by simp)
  rw [visitLines]
  split
  · rename_i hnone
    rw [hfound] at hnone
    cases hnone
  · rename_i newline hsome
    rw [hfound] at hsome
    obtain rfl := Option.some.inj hsome
    rw [List.take_left, hdrop, json.roundTrip]

/-- Whole lines of entries that are valid and numbered are visited in order. -/
theorem visitLines_manifestBytes (hvalid : ∀ entry ∈ entries, entry.validate json.lineLength = true)
    (hnumbered : ∀ i (h : i < entries.length), (entries[i]).ordinal = ordinal + i) :
    visitLines json ordinal (manifestBytes json entries) = .ok entries := by
  induction entries generalizing ordinal with
  | nil => exact visitLines_nil
  | cons entry entries ih =>
    have hfirst : entry.ordinal = ordinal := hnumbered 0 (by simp)
    rw [List.forall_mem_cons] at hvalid
    have hrest : visitLines json (ordinal + 1) (manifestBytes json entries) = .ok entries := by
      apply ih hvalid.2
      intro i hi
      have hlater := hnumbered (i + 1) (by simpa using hi)
      rw [List.getElem_cons_succ] at hlater
      omega
    rw [manifestBytes_cons, visitLines_cons, if_neg (by simp [hvalid.1]), if_neg (by simp [hfirst]),
      hrest]
    rfl

/-- The place in the index of an entry is where its line starts. -/
theorem readAt_indexBytes (nextOffset : Nat) (h : ordinal < entries.length) :
    readAt (indexBytes json nextOffset entries) (ordinal * 8) 8 =
      leBytes 8 (nextOffset + (manifestBytes json (entries.take ordinal)).length) := by
  induction entries generalizing nextOffset ordinal with
  | nil => exact absurd h (Nat.not_lt_zero _)
  | cons entry entries ih =>
    rw [indexBytes]
    cases ordinal with
    | zero =>
      rw [readAt, Nat.zero_mul, List.drop_zero, List.take_left' (length_leBytes 8 _)]
      rfl
    | succ ordinal =>
      have hskip : (ordinal + 1) * 8 = (leBytes 8 nextOffset).length + ordinal * 8 := by
        rw [length_leBytes]
        omega
      have hplace : nextOffset + (json.encode entry).length + 1 +
          (manifestBytes json (entries.take ordinal)).length =
          nextOffset + (manifestBytes json ((entry :: entries).take (ordinal + 1))).length := by
        rw [List.take_succ_cons, manifestBytes_cons, List.length_append, List.length_cons]
        omega
      have hrest := ih (nextOffset + (json.encode entry).length + 1) (Nat.lt_of_succ_lt_succ h)
      rw [readAt] at hrest ⊢
      rw [hskip, List.drop_length_add_append, hrest, hplace]

/-- Behind the place of an entry is its line. -/
theorem drop_manifestBytes (h : ordinal < entries.length) :
    (manifestBytes json entries).drop (manifestBytes json (entries.take ordinal)).length =
      json.encode entries[ordinal] ++ LF :: manifestBytes json (entries.drop (ordinal + 1)) := by
  have hsplit : entries =
      entries.take ordinal ++ (entries[ordinal] :: entries.drop (ordinal + 1)) := by
    rw [← List.drop_eq_getElem_cons h, List.take_append_drop]
  have hbytes : manifestBytes json entries = manifestBytes json (entries.take ordinal) ++
      manifestBytes json (entries[ordinal] :: entries.drop (ordinal + 1)) := by
    rw [← manifestBytes_append, ← hsplit]
  rw [hbytes, List.drop_left, manifestBytes_cons]

end Files

/-- What the entries that a writer has taken are. -/
structure TakenEntries (json : EntryJson) (entries : List ManifestEntry) : Prop where
  valid : ∀ entry ∈ entries, entry.validate json.lineLength = true
  numbered : ∀ i (h : i < entries.length), (entries[i]).ordinal = i
  distinct : (entries.map ManifestEntry.entryId).Nodup

structure MeetsTotals (b : StoredBatch) (entries : List ManifestEntry) : Prop where
  files : entries.countP (·.kind = .file) = b.fileCount
  directories : entries.countP (·.kind = .directory) = b.directoryCount
  bytes : (entries.map ManifestEntry.size).sum = b.totalBytes

structure WriterInv (json : EntryJson) (b : StoredBatch) (w : ManifestWriter) : Prop where
  expectedFiles : w.expectedFiles = b.fileCount
  expectedDirectories : w.expectedDirectories = b.directoryCount
  expectedBytes : w.expectedBytes = b.totalBytes
  files : w.files = w.entries.countP (·.kind = .file)
  directories : w.directories = w.entries.countP (·.kind = .directory)
  bytes : w.bytes = (w.entries.map ManifestEntry.size).sum
  taken : TakenEntries json w.entries

section Writer

variable {json : EntryJson} {b : StoredBatch} {w w' : ManifestWriter} {entry : ManifestEntry}
  {entries : List ManifestEntry}

/-- The writer that `begin_manifest` returns. -/
def newWriter (b : StoredBatch) : ManifestWriter where
  expectedFiles := b.fileCount
  expectedDirectories := b.directoryCount
  expectedBytes := b.totalBytes

theorem writerInv_newWriter (b : StoredBatch) : WriterInv json b (newWriter b) where
  expectedFiles := rfl
  expectedDirectories := rfl
  expectedBytes := rfl
  files := rfl
  directories := rfl
  bytes := rfl
  taken := ⟨by simp [newWriter], by simp [newWriter], by simp [newWriter]⟩

theorem WriterInv.append (h : WriterInv json b w)
    (happend : w.append json.lineLength entry = some w') : WriterInv json b w' := by
  obtain ⟨hvalid, hordinal, hentries⟩ := ManifestWriter.append_spec happend
  have hshape := happend
  unfold ManifestWriter.append at hshape
  extract_lets files directories bytes at hshape
  split_ifs at hshape with _ _ hid _ _
  obtain rfl := Option.some.inj hshape
  refine ⟨h.expectedFiles, h.expectedDirectories, h.expectedBytes, ?_, ?_, ?_, ?_, ?_, ?_⟩
  · rw [hentries, List.countP_append, ← h.files, List.countP_singleton]
    dsimp only [files]
    split_ifs <;> simp_all
  · rw [hentries, List.countP_append, ← h.directories, List.countP_singleton]
    dsimp only [directories]
    split_ifs <;> simp_all
  · rw [hentries, List.map_append, List.sum_append, ← h.bytes]
    simp [bytes]
  · intro other hother
    rw [hentries, List.mem_append, List.mem_singleton] at hother
    rcases hother with hold | rfl
    · exact h.taken.valid other hold
    · exact hvalid
  · intro i hi
    dsimp only at hi ⊢
    rw [List.length_append, List.length_singleton] at hi
    by_cases hold : i < w.entries.length
    · rw [List.getElem_append_left hold]
      exact h.taken.numbered i hold
    · have hlast : i = w.entries.length := by omega
      subst hlast
      simpa using hordinal
  · rw [hentries, List.map_append, List.nodup_append]
    refine ⟨h.taken.distinct, by simp, ?_⟩
    intro id hold other hother heq
    rw [List.map_singleton, List.mem_singleton] at hother
    apply hid
    rw [List.contains_iff_mem, ← hother, ← heq]
    exact hold

theorem WriterInv.meetsTotals (h : WriterInv json b w) (hfinish : w.finish = some entries) :
    entries = w.entries ∧ MeetsTotals b entries := by
  have hentries := finish_eq_entries hfinish
  unfold ManifestWriter.finish at hfinish
  split_ifs at hfinish with hcounts
  obtain ⟨_, hfiles, hdirectories, hbytes⟩ := hcounts
  refine ⟨hentries, ?_, ?_, ?_⟩
  · rw [hentries, ← h.files, hfiles, h.expectedFiles]
  · rw [hentries, ← h.directories, hdirectories, h.expectedDirectories]
  · rw [hentries, ← h.bytes, hbytes, h.expectedBytes]

theorem listEntries_of_taken {digest : List UInt8 → String} (h : TakenEntries json entries) :
    listEntries json digest (some ⟨entries.length, digest (manifestBytes json entries)⟩)
      (some (manifestBytes json entries)) = .ok entries := by
  have hvisit := @visitLines_manifestBytes json entries 0 h.valid
    fun i hi => by rw [h.numbered i hi, Nat.zero_add]
  rw [listEntries, hvisit]
  exact if_neg (by simp)

/-- And each is read by its place in the index. -/
theorem readEntry_of_taken {sha256 : String} (h : TakenEntries json entries)
    (hbytes : (manifestBytes json entries).length < 2 ^ 64)
    (hrange : entries.length * 8 < 2 ^ 64) {i : Nat} (hi : i < entries.length) :
    readEntry json (some ⟨entries.length, sha256⟩) (some (manifestBytes json entries))
      (some (indexBytes json 0 entries)) i = .ok entries[i] := by
  have hplace : ofLeBytes (readAt (indexBytes json 0 entries) (i * 8) 8) =
      (manifestBytes json (entries.take i)).length := by
    have hpre : (manifestBytes json (entries.take i)).length ≤
        (manifestBytes json entries).length := by
      conv_rhs => rw [← List.take_append_drop i entries, manifestBytes_append, List.length_append]
      omega
    rw [readAt_indexBytes 0 hi, ofLeBytes_leBytes, Nat.zero_add]
    exact Nat.mod_eq_of_lt (by omega)
  have height : (readAt (indexBytes json 0 entries) (i * 8) 8).length = 8 := by
    rw [readAt_indexBytes 0 hi, length_leBytes]
  have hline : (json.encode entries[i] ++
      LF :: manifestBytes json (entries.drop (i + 1))).takeWhile (· ≠ LF) =
        json.encode entries[i] := by
    have hall : ∀ byte ∈ json.encode entries[i], (decide (byte ≠ LF)) = true := by
      intro byte hbyte
      have hne : byte ≠ LF := fun heq => json.oneLine _ (heq ▸ hbyte)
      simpa using hne
    rw [List.takeWhile_append_of_pos hall]
    simp
  have hinside : ¬entries.length ≤ i := by omega
  rw [readEntry, if_neg hinside, if_neg (by omega)]
  dsimp only
  rw [if_neg (by simp [height]), hplace, drop_manifestBytes hi, if_neg (by simp), hline,
    json.roundTrip]
  dsimp only
  rw [if_neg (by simp [h.valid _ (List.getElem_mem hi)]), if_neg (by simp [h.numbered i hi])]

end Writer

end FlowType
