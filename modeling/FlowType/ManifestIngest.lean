import FlowType.TargetMapping

/-! The manifest of an upload as it comes in: frames of bytes, cut into lines, the lines parsed
and appended. `pending` carries the start of a line from one frame to the next. -/
namespace FlowType

def joinLines (mark : UInt8) (lines : List (List UInt8)) : List UInt8 :=
  lines.flatMap fun line => line ++ [mark]

section Lines

variable {mark : UInt8} {line rest bytes : List UInt8} {lines : List (List UInt8)}

@[simp] theorem joinLines_nil : joinLines mark [] = [] := rfl

@[simp] theorem joinLines_cons :
    joinLines mark (line :: lines) = line ++ mark :: joinLines mark lines := by
  simp [joinLines]

theorem joinLines_append (lines lines' : List (List UInt8)) :
    joinLines mark (lines ++ lines') = joinLines mark lines ++ joinLines mark lines' := by
  simp [joinLines]

/-- What has no terminator lies within the first line. -/
theorem isPrefix_line {tail more : List UInt8} (hrest : mark ∉ rest)
    (h : rest ++ more = line ++ mark :: tail) : rest <+: line := by
  rcases List.append_eq_append_iff.1 h with ⟨inner, hline, _⟩ | ⟨inner, hfront, hinner⟩
  · exact ⟨inner, hline.symm⟩
  · cases inner with
    | nil =>
      rw [hfront, List.append_nil]
    | cons byte inner =>
      rw [List.cons_append, List.cons.injEq] at hinner
      exact absurd (by rw [hfront, ← hinner.1]; simp) hrest

/-- Bytes are whole lines and the start of another one. -/
theorem exists_joinLines (mark : UInt8) (bytes : List UInt8) : ∃ lines rest,
    bytes = joinLines mark lines ++ rest ∧ (∀ line ∈ lines, mark ∉ line) ∧ mark ∉ rest := by
  induction bytes with
  | nil => exact ⟨[], [], rfl, by simp, by simp⟩
  | cons byte bytes ih =>
    obtain ⟨lines, rest, rfl, hlines, hrest⟩ := ih
    by_cases hmark : byte = mark
    · refine ⟨[] :: lines, rest, ?_, ?_, hrest⟩
      · rw [hmark, joinLines_cons]
        rfl
      · rw [List.forall_mem_cons]
        exact ⟨by simp, hlines⟩
    · have hnew : ∀ tail : List UInt8, mark ∉ tail → mark ∉ byte :: tail := by
        intro tail htail hmem
        rcases List.mem_cons.1 hmem with heq | hin
        · exact hmark heq.symm
        · exact htail hin
      cases lines with
      | nil => exact ⟨[], byte :: rest, rfl, by simp, hnew rest hrest⟩
      | cons line lines =>
        rw [List.forall_mem_cons] at hlines
        refine ⟨(byte :: line) :: lines, rest, ?_, ?_, hrest⟩
        · rw [joinLines_cons, joinLines_cons]
          rfl
        · rw [List.forall_mem_cons]
          exact ⟨hnew line hlines.1, hlines.2⟩

/-- Two ways to cut bytes into lines are the same as far as both go. -/
theorem joinLines_split {lines' : List (List UInt8)} (hlines : ∀ line ∈ lines, mark ∉ line)
    (hlines' : ∀ line ∈ lines', mark ∉ line)
    (h : joinLines mark lines ++ rest = joinLines mark lines') :
    ∃ more, lines' = lines ++ more ∧ rest = joinLines mark more := by
  induction lines generalizing lines' with
  | nil => exact ⟨lines', rfl, h⟩
  | cons line lines ih =>
    rw [List.forall_mem_cons] at hlines
    cases lines' with
    | nil => simp at h
    | cons line' lines' =>
      rw [List.forall_mem_cons] at hlines'
      rw [joinLines_cons, joinLines_cons, List.append_assoc, List.cons_append] at h
      have hpre := isPrefix_line hlines.1 h
      have hpre' := isPrefix_line hlines'.1 h.symm
      obtain rfl := hpre.eq_of_length (Nat.le_antisymm hpre.length_le hpre'.length_le)
      have htail := (List.cons.inj (List.append_cancel_left h)).2
      obtain ⟨more, rfl, hmore⟩ := ih hlines.2 hlines'.2 htail
      exact ⟨more, rfl, hmore⟩

theorem joinLines_eq_of_notMem (h : joinLines mark lines = rest) (hrest : mark ∉ rest) :
    lines = [] ∧ rest = [] := by
  cases lines with
  | nil => exact ⟨rfl, h.symm⟩
  | cons line lines =>
    rw [← h] at hrest
    simp at hrest

end Lines

def LF : UInt8 := 10

def CR : UInt8 := 13

/-- A frame of a body; trailers are skipped. -/
inductive BodyFrame
  | data (bytes : List UInt8)
  | trailers
  deriving DecidableEq, Repr

/-- What comes of waiting for a frame: it is there, thirty seconds pass, the ticket is no longer
active, or reading fails. -/
inductive BodyEvent
  | frame (frame : BodyFrame)
  | idle
  | canceled
  | failed
  deriving DecidableEq, Repr

def BodyFrame.bytes : BodyFrame → List UInt8
  | .data bytes => bytes
  | .trailers => []

def lineContent (line : List UInt8) : List UInt8 :=
  if line.getLast? = some CR then line.dropLast else line

section Ingest

variable (lineLength : ManifestEntry → Nat) (parse : List UInt8 → Option ManifestEntry)

/-- `consume_manifest_lines`; `parse` is `serde_json::from_slice`. -/
def consumeManifestLines (pending : List UInt8) (writer : ManifestWriter) :
    Except String (List UInt8 × ManifestWriter) :=
  match _ : pending.idxOf? LF with
  | none => .ok (pending, writer)
  | some newline =>
    if MAX_MANIFEST_LINE_BYTES < newline then .error "manifest_line_too_large"
    else
      match parse (lineContent (pending.take newline)) with
      | none => .error "invalid_manifest"
      | some entry =>
        match writer.append lineLength entry with
        | none => .error "invalid_manifest"
        | some writer => consumeManifestLines (pending.drop (newline + 1)) writer
termination_by pending.length
decreasing_by
  have hne : pending ≠ [] := by
    rintro rfl
    cases ‹List.idxOf? LF [] = some _›
  have hpos := List.length_pos_iff.2 hne
  rw [List.length_drop]
  omega

/-- The loop of `ingest_manifest` and what follows it up to `finish`. -/
def ingestFrames (pending : List UInt8) (writer : ManifestWriter) :
    List BodyEvent → Except String (List ManifestEntry)
  | [] =>
    if pending ≠ [] then .error "incomplete_manifest_line"
    else
      match writer.finish with
      | none => .error "manifest_count_mismatch"
      | some entries => .ok entries
  | .idle :: _ => .error "body_idle_timeout"
  | .canceled :: _ => .error "transfer_canceled"
  | .failed :: _ => .error "body_read_failed"
  | .frame .trailers :: events => ingestFrames pending writer events
  | .frame (.data bytes) :: events =>
    match consumeManifestLines lineLength parse (pending ++ bytes) writer with
    | .error message => .error message
    | .ok (pending, writer) =>
      if MAX_MANIFEST_LINE_BYTES < pending.length then .error "manifest_line_too_large"
      else ingestFrames pending writer events

/-- `ingest_manifest`, with `prepare_incoming` behind it. -/
def ingestManifest (prepareIncoming : StoredBatch → Except String StoredBatch) (b : StoredBatch)
    (body : List BodyEvent) : Except String StoredBatch :=
  if b.manifest.isSome then .error "manifest_already_started"
  else
    let writer : ManifestWriter :=
      { expectedFiles := b.fileCount
        expectedDirectories := b.directoryCount
        expectedBytes := b.totalBytes }
    match ingestFrames lineLength parse [] writer body with
    | .error message => .error message
    | .ok entries =>
      prepareIncoming { b with manifest := some entries, progress := fun _ => {} }

/-- Lines that are read one after another: none is too long, each parses, and the writer takes
each entry. -/
def readLines (writer : ManifestWriter) : List (List UInt8) → Option ManifestWriter
  | [] => some writer
  | line :: lines =>
    if MAX_MANIFEST_LINE_BYTES < line.length then none
    else
      (parse (lineContent line)).bind fun entry =>
        (writer.append lineLength entry).bind fun writer => readLines writer lines

variable {lineLength parse} {pending rest bytes line : List UInt8} {writer writer' : ManifestWriter}
  {lines lines' : List (List UInt8)}

theorem readLines_append (writer : ManifestWriter) (lines lines' : List (List UInt8)) :
    readLines lineLength parse writer (lines ++ lines') =
      (readLines lineLength parse writer lines).bind fun writer =>
        readLines lineLength parse writer lines' := by
  induction lines generalizing writer with
  | nil => rfl
  | cons line lines ih =>
    rw [List.cons_append, readLines, readLines]
    by_cases hlong : MAX_MANIFEST_LINE_BYTES < line.length
    · rw [if_pos hlong, if_pos hlong]
      rfl
    · rw [if_neg hlong, if_neg hlong]
      cases parse (lineContent line) with
      | none => rfl
      | some entry =>
        cases happend : writer.append lineLength entry with
        | none => simp [happend]
        | some next => simpa [happend] using ih next

/-- Reading lines is parsing them all and appending the entries in order. -/
theorem readLines_eq_some : readLines lineLength parse writer lines = some writer' ↔
    (∀ line ∈ lines, line.length ≤ MAX_MANIFEST_LINE_BYTES) ∧
      ∃ entries, lines.mapM (fun line => parse (lineContent line)) = some entries ∧
        entries.foldlM (ManifestWriter.append lineLength) writer = some writer' := by
  induction lines generalizing writer with
  | nil => simp [readLines]
  | cons line lines ih =>
    rw [readLines, List.forall_mem_cons, List.mapM_cons]
    by_cases hlong : MAX_MANIFEST_LINE_BYTES < line.length
    · rw [if_pos hlong]
      refine iff_of_false (by simp) ?_
      rintro ⟨⟨hshort, _⟩, _⟩
      omega
    · rw [if_neg hlong]
      cases hparse : parse (lineContent line) with
      | none => simp
      | some entry =>
        cases happend : writer.append lineLength entry with
        | none =>
          refine iff_of_false (by simp [happend]) ?_
          rintro ⟨_, entries, hentries, hfold⟩
          cases htail : lines.mapM (fun line => parse (lineContent line)) with
          | none => simp [htail] at hentries
          | some tail =>
            simp only [htail, Option.bind_eq_bind, Option.bind_some, Option.pure_def,
              Option.some.injEq] at hentries
            rw [← hentries, List.foldlM_cons, happend] at hfold
            cases hfold
        | some next =>
          simp only [Option.bind_some, happend, Option.bind_eq_bind, Option.pure_def]
          rw [ih]
          constructor
          · rintro ⟨hshort, entries, hentries, hfold⟩
            refine ⟨⟨by omega, hshort⟩, entry :: entries, by rw [hentries]; rfl, ?_⟩
            rw [List.foldlM_cons, happend]
            exact hfold
          · rintro ⟨⟨_, hshort⟩, entries, hentries, hfold⟩
            cases htail : lines.mapM (fun line => parse (lineContent line)) with
            | none =>
              rw [htail] at hentries
              cases hentries
            | some tail =>
              rw [htail, Option.bind_some, Option.some.injEq] at hentries
              rw [← hentries, List.foldlM_cons, happend] at hfold
              exact ⟨hshort, tail, rfl, hfold⟩

theorem idxOf?_line (h : LF ∉ line) (rest : List UInt8) :
    (line ++ LF :: rest).idxOf? LF = some line.length := by
  induction line with
  | nil => simp [List.idxOf?_cons]
  | cons byte line ih =>
    rw [List.mem_cons, not_or] at h
    rw [List.cons_append, List.idxOf?_cons, ih h.2]
    simp [Ne.symm h.1]

theorem consumeManifestLines_rest (h : LF ∉ rest) (writer : ManifestWriter) :
    consumeManifestLines lineLength parse rest writer = .ok (rest, writer) := by
  have hnone := List.idxOf?_eq_none_iff.2 h
  rw [consumeManifestLines]
  split
  · rfl
  · rename_i newline hsome
    rw [hnone] at hsome
    cases hsome

/-- One line at the front of what is pending. -/
theorem consumeManifestLines_line (h : LF ∉ line) (rest : List UInt8) (writer : ManifestWriter) :
    consumeManifestLines lineLength parse (line ++ LF :: rest) writer =
      if MAX_MANIFEST_LINE_BYTES < line.length then .error "manifest_line_too_large"
      else
        match parse (lineContent line) with
        | none => .error "invalid_manifest"
        | some entry =>
          match writer.append lineLength entry with
          | none => .error "invalid_manifest"
          | some writer => consumeManifestLines lineLength parse rest writer := by
  have hfound := idxOf?_line h rest
  rw [consumeManifestLines]
  split
  · rename_i hnone
    rw [hfound] at hnone
    cases hnone
  · rename_i newline hsome
    rw [hfound] at hsome
    obtain rfl := Option.some.inj hsome
    have hdrop : (line ++ LF :: rest).drop (line.length + 1) = rest := by
      rw [List.append_cons]
      exact List.drop_left' (by simp)
    rw [List.take_left, hdrop]

/-- What is consumed of whole lines and the start of another one. -/
theorem toOption_consumeManifestLines (hlines : ∀ line ∈ lines, LF ∉ line) (hrest : LF ∉ rest)
    (writer : ManifestWriter) :
    (consumeManifestLines lineLength parse (joinLines LF lines ++ rest) writer).toOption =
      (readLines lineLength parse writer lines).map fun writer => (rest, writer) := by
  induction lines generalizing writer with
  | nil =>
    rw [joinLines_nil, List.nil_append, consumeManifestLines_rest hrest]
    rfl
  | cons line lines ih =>
    rw [List.forall_mem_cons] at hlines
    rw [joinLines_cons, List.append_assoc, List.cons_append,
      consumeManifestLines_line hlines.1, readLines]
    by_cases hlong : MAX_MANIFEST_LINE_BYTES < line.length
    · rw [if_pos hlong, if_pos hlong]
      rfl
    · rw [if_neg hlong, if_neg hlong]
      cases parse (lineContent line) with
      | none => rfl
      | some entry =>
        cases happend : writer.append lineLength entry with
        | none => simp [happend, Except.toOption]
        | some next => simpa [happend] using ih hlines.2 next

/-- The lines of the bytes, each of at most the limit up to its line feed. -/
structure CutsInto (bytes : List UInt8) (lines : List (List UInt8)) : Prop where
  joined : bytes = joinLines LF lines
  whole : ∀ line ∈ lines, LF ∉ line
  short : ∀ line ∈ lines, line.length ≤ MAX_MANIFEST_LINE_BYTES

theorem short_of_readLines (h : readLines lineLength parse writer lines = some writer') :
    ∀ line ∈ lines, line.length ≤ MAX_MANIFEST_LINE_BYTES := (readLines_eq_some.1 h).1

/-- The frames are accepted exactly when the bytes that are pending and theirs are whole lines
that are read; that no start of a line exceeds the limit follows from its line. -/
theorem ingestFrames_eq_ok {frames : List BodyFrame} {entries : List ManifestEntry}
    (hpending : LF ∉ pending) :
    ingestFrames lineLength parse pending writer (frames.map .frame) = .ok entries ↔
      ∃ lines writer', pending ++ frames.flatMap BodyFrame.bytes = joinLines LF lines ∧
        (∀ line ∈ lines, LF ∉ line) ∧
        readLines lineLength parse writer lines = some writer' ∧
        writer'.finish = some entries := by
  induction frames generalizing pending writer with
  | nil =>
    rw [List.map_nil, List.flatMap_nil, List.append_nil, ingestFrames]
    by_cases hempty : pending = []
    · rw [if_neg (by simp [hempty]), hempty]
      constructor
      · intro h
        cases hfinish : writer.finish with
        | none =>
          rw [hfinish] at h
          cases h
        | some finished =>
          rw [hfinish] at h
          cases h
          exact ⟨[], writer, rfl, by simp, rfl, hfinish⟩
      · rintro ⟨lines, writer', hjoined, _, hread, hfinish⟩
        obtain ⟨rfl, _⟩ := joinLines_eq_of_notMem hjoined.symm (by simp)
        cases hread
        rw [hfinish]
    · rw [if_pos hempty]
      refine iff_of_false (by simp) ?_
      rintro ⟨lines, _, hjoined, _⟩
      exact hempty (joinLines_eq_of_notMem hjoined.symm hpending).2
  | cons frame frames ih =>
    cases frame with
    | trailers =>
      rw [List.map_cons, ingestFrames, ih hpending]
      rfl
    | data bytes =>
      obtain ⟨lines, rest, hcut, hlines, hrest⟩ := exists_joinLines LF (pending ++ bytes)
      have hconsume := @toOption_consumeManifestLines lineLength parse _ _ hlines hrest writer
      rw [← hcut] at hconsume
      have hbytes : pending ++ (BodyFrame.data bytes :: frames).flatMap BodyFrame.bytes =
          joinLines LF lines ++ (rest ++ frames.flatMap BodyFrame.bytes) := by
        rw [List.flatMap_cons, ← List.append_assoc, ← List.append_assoc, ← hcut]
        rfl
      rw [hbytes, List.map_cons, ingestFrames]
      cases hread : readLines lineLength parse writer lines with
      | none =>
        -- A line of this frame is refused.
        rw [hread] at hconsume
        cases hresult : consumeManifestLines lineLength parse (pending ++ bytes) writer with
        | ok result =>
          rw [hresult] at hconsume
          cases hconsume
        | error message =>
          refine iff_of_false (by simp) ?_
          rintro ⟨all, writer', hjoined, hall, hreadAll, _⟩
          obtain ⟨more, rfl, _⟩ := joinLines_split hlines hall hjoined
          rw [readLines_append, hread] at hreadAll
          cases hreadAll
      | some next =>
        rw [hread] at hconsume
        cases hresult : consumeManifestLines lineLength parse (pending ++ bytes) writer with
        | error message =>
          rw [hresult] at hconsume
          cases hconsume
        | ok result =>
          rw [hresult] at hconsume
          obtain rfl := Option.some.inj hconsume
          dsimp only
          by_cases hlong : MAX_MANIFEST_LINE_BYTES < rest.length
          · -- The line that this start belongs to is longer still.
            rw [if_pos hlong]
            refine iff_of_false (by simp) ?_
            rintro ⟨all, writer', hjoined, hall, hreadAll, _⟩
            obtain ⟨more, rfl, hmore⟩ := joinLines_split hlines hall hjoined
            cases more with
            | nil =>
              have hnil := List.append_eq_nil_iff.1 hmore
              rw [hnil.1, List.length_nil] at hlong
              omega
            | cons line more =>
              have hshort := short_of_readLines hreadAll line (by simp)
              rw [joinLines_cons] at hmore
              have hle := (isPrefix_line hrest hmore).length_le
              omega
          · rw [if_neg hlong, ih hrest]
            constructor
            · rintro ⟨more, writer', hjoined, hmore, hreadMore, hfinish⟩
              refine ⟨lines ++ more, writer', ?_, ?_, ?_, hfinish⟩
              · rw [joinLines_append, hjoined]
              · intro line hline
                rcases List.mem_append.1 hline with hin | hin
                · exact hlines line hin
                · exact hmore line hin
              · rw [readLines_append, hread]
                exact hreadMore
            · rintro ⟨all, writer', hjoined, hall, hreadAll, hfinish⟩
              obtain ⟨more, rfl, hmore⟩ := joinLines_split hlines hall hjoined
              rw [readLines_append, hread] at hreadAll
              refine ⟨more, writer', hmore, ?_, hreadAll, hfinish⟩
              intro line hline
              exact hall line (List.mem_append_right _ hline)

theorem entries_foldlM {entries : List ManifestEntry}
    (h : entries.foldlM (ManifestWriter.append lineLength) writer = some writer') :
    writer'.entries = writer.entries ++ entries := by
  induction entries generalizing writer with
  | nil =>
    cases h
    simp
  | cons entry entries ih =>
    rw [List.foldlM_cons] at h
    obtain ⟨next, hnext, hrest⟩ := Option.bind_eq_some_iff.1 h
    rw [ih hrest, (ManifestWriter.append_spec hnext).2.2]
    simp

theorem finish_eq_entries {entries : List ManifestEntry} (h : writer.finish = some entries) :
    entries = writer.entries := by
  unfold ManifestWriter.finish at h
  split_ifs at h
  exact (Option.some.inj h).symm

/-- What is accepted: lines of at most the limit that each parse, whose entries make the
manifest of the batch, and a batch that is prepared with it. -/
def AcceptsManifest (lineLength : ManifestEntry → Nat) (parse : List UInt8 → Option ManifestEntry)
    (prepareIncoming : StoredBatch → Except String StoredBatch) (b : StoredBatch)
    (bytes : List UInt8) (b' : StoredBatch) : Prop :=
  ∃ lines entries stored, CutsInto bytes lines ∧
    lines.mapM (fun line => parse (lineContent line)) = some entries ∧
    b.writeManifest lineLength entries = some stored ∧ stored.manifest = some entries ∧
    prepareIncoming stored = .ok b'

variable {prepareIncoming : StoredBatch → Except String StoredBatch} {b b' : StoredBatch}

theorem ingestManifest_eq_ok {frames : List BodyFrame} :
    ingestManifest lineLength parse prepareIncoming b (frames.map .frame) = .ok b' ↔
      AcceptsManifest lineLength parse prepareIncoming b (frames.flatMap BodyFrame.bytes) b' := by
  unfold ingestManifest
  by_cases hstarted : b.manifest.isSome = true
  · rw [if_pos hstarted]
    refine iff_of_false (by simp) ?_
    rintro ⟨_, entries, stored, _, _, hwrite, _⟩
    rw [StoredBatch.writeManifest, if_pos hstarted] at hwrite
    cases hwrite
  · rw [if_neg hstarted]
    extract_lets writer
    have hframes : ∀ entries, ingestFrames lineLength parse [] writer (frames.map .frame) =
        .ok entries ↔ ∃ lines writer', [] ++ frames.flatMap BodyFrame.bytes = joinLines LF lines ∧
          (∀ line ∈ lines, LF ∉ line) ∧ readLines lineLength parse writer lines = some writer' ∧
          writer'.finish = some entries := fun entries => ingestFrames_eq_ok (by simp)
    constructor
    · intro h
      cases hingest : ingestFrames lineLength parse [] writer (frames.map .frame) with
      | error message =>
        rw [hingest] at h
        cases h
      | ok entries =>
        rw [hingest] at h
        obtain ⟨lines, writer', hjoined, hwhole, hread, hfinish⟩ := (hframes entries).1 hingest
        obtain ⟨hshort, parsed, hparsed, hfold⟩ := readLines_eq_some.1 hread
        have hentries : entries = parsed := by
          rw [finish_eq_entries hfinish, entries_foldlM hfold]
          rfl
        refine ⟨lines, parsed, _, ⟨hjoined, hwhole, hshort⟩, hparsed, ?_, ?_, h⟩
        · rw [StoredBatch.writeManifest, if_neg hstarted, hfold, Option.bind_some, hfinish]
          rfl
        · rw [hentries]
    · rintro ⟨lines, entries, stored, hcuts, hparsed, hwrite, hmanifest, hprepare⟩
      rw [StoredBatch.writeManifest, if_neg hstarted] at hwrite
      obtain ⟨finished, hfinished, rfl⟩ := Option.map_eq_some_iff.1 hwrite
      obtain ⟨writer', hfold, hfinish⟩ := Option.bind_eq_some_iff.1 hfinished
      have hread := readLines_eq_some.2 ⟨hcuts.short, entries, hparsed, hfold⟩
      rw [(hframes finished).2 ⟨lines, writer', hcuts.joined, hcuts.whole, hread, hfinish⟩]
      exact hprepare

end Ingest

/-- The frames do not matter: what is accepted, and with which entries, is a matter of the bytes,
which are lines whose length counts up to the line feed. -/
theorem ingestManifest_chunks (lineLength : ManifestEntry → Nat)
    (parse : List UInt8 → Option ManifestEntry)
    (prepareIncoming : StoredBatch → Except String StoredBatch) (b b' : StoredBatch) :
    (∀ frames : List BodyFrame,
      ingestManifest lineLength parse prepareIncoming b (frames.map .frame) = .ok b' ↔
        AcceptsManifest lineLength parse prepareIncoming b (frames.flatMap BodyFrame.bytes) b') ∧
    ∀ frames frames' : List BodyFrame,
      frames.flatMap BodyFrame.bytes = frames'.flatMap BodyFrame.bytes →
      (ingestManifest lineLength parse prepareIncoming b (frames.map .frame) = .ok b' ↔
        ingestManifest lineLength parse prepareIncoming b (frames'.map .frame) = .ok b') := by
  constructor
  · intro frames
    exact ingestManifest_eq_ok
  · intro frames frames' h
    rw [ingestManifest_eq_ok, ingestManifest_eq_ok, h]

/-- One directory, and its line with blanks in front. -/
def photos : ManifestEntry where
  ordinal := 0
  entryId := "a"
  relativePath := "photos".toList
  kind := .directory

def photosJson : List UInt8 :=
  ("\x7b\"ordinal\":0,\"entry_id\":\"a\",\"relative_path\":\"photos\",\"kind\":" ++
    "\"directory\",\"size\":0\x7d").toList.map fun c => UInt8.ofNat c.toNat

def photosLine : List UInt8 :=
  List.replicate (MAX_MANIFEST_LINE_BYTES - photosJson.length) 32 ++ photosJson

def photosBatch : StoredBatch where
  batchId := "b"
  phoneId := "p"
  direction := .phoneToComputer
  state := .queued
  createdAt := 0
  updatedAt := 0
  fileCount := 0
  directoryCount := 1
  totalBytes := 0

theorem length_photosLine : photosLine.length = MAX_MANIFEST_LINE_BYTES := by
  have hshort : photosJson.length ≤ MAX_MANIFEST_LINE_BYTES := by decide
  rw [photosLine, List.length_append, List.length_replicate]
  omega

theorem notMem_photosLine : LF ∉ photosLine := by
  have hjson : LF ∉ photosJson := by decide
  rw [photosLine, List.mem_append, not_or]
  refine ⟨?_, hjson⟩
  intro hmem
  exact absurd (List.eq_of_mem_replicate hmem) (by decide)

theorem lineContent_photosLine : lineContent photosLine = photosLine := by
  have hlast : photosLine.getLast? = some 125 := by
    have hne : photosJson ≠ [] := by decide
    rw [photosLine, List.getLast?_append_of_ne_nil _ hne]
    decide
  rw [lineContent, hlast]
  exact if_neg (by decide)

/-- A carriage return in front of the line feed counts for the limit. -/
theorem ingestManifest_crlf {lineLength : ManifestEntry → Nat}
    {parse : List UInt8 → Option ManifestEntry}
    {prepareIncoming : StoredBatch → Except String StoredBatch} {b : StoredBatch}
    {line : List UInt8} (hstarted : b.manifest = none) (hline : LF ∉ line)
    (hlength : line.length = MAX_MANIFEST_LINE_BYTES) :
    ingestManifest lineLength parse prepareIncoming b
      [.frame (.data (line ++ [CR, LF]))] = .error "manifest_line_too_large" := by
  have hreturn : LF ∉ line ++ [CR] := by
    rw [List.mem_append, not_or]
    exact ⟨hline, by decide⟩
  have hlong : MAX_MANIFEST_LINE_BYTES < (line ++ [CR]).length := by
    rw [List.length_append, hlength]
    exact Nat.lt_succ_self _
  have hbytes : [] ++ (line ++ [CR, LF]) = (line ++ [CR]) ++ LF :: [] := by simp
  rw [ingestManifest, if_neg (by simp [hstarted])]
  dsimp only
  rw [ingestFrames, hbytes, consumeManifestLines_line hreturn, if_pos hlong]

theorem ingestManifest_lf {lineLength : ManifestEntry → Nat}
    {parse : List UInt8 → Option ManifestEntry} {b stored : StoredBatch} {entry : ManifestEntry}
    {line : List UInt8} (hline : LF ∉ line) (hlength : line.length = MAX_MANIFEST_LINE_BYTES)
    (hparse : parse (lineContent line) = some entry)
    (hwrite : b.writeManifest lineLength [entry] = some stored)
    (hmanifest : stored.manifest = some [entry]) :
    ingestManifest lineLength parse .ok b [.frame (.data (line ++ [LF]))] = .ok stored := by
  have haccepts : AcceptsManifest lineLength parse .ok b
      ([BodyFrame.data (line ++ [LF])].flatMap BodyFrame.bytes) stored := by
    refine ⟨[line], [entry], stored, ⟨?_, ?_, ?_⟩, ?_, hwrite, hmanifest, rfl⟩
    · simp [BodyFrame.bytes]
    · simpa using hline
    · simpa using hlength.le
    · simp [hparse]
  exact ingestManifest_eq_ok.2 haccepts

/-- A line that has as many bytes as the limit is taken in front of a line feed and refused in
front of a carriage return and a line feed. -/
theorem crlf_line_refused : ∃ lineLength parse, photosLine.length = MAX_MANIFEST_LINE_BYTES ∧
    parse photosLine = some photos ∧
    (∃ b', ingestManifest lineLength parse .ok photosBatch
      [.frame (.data (photosLine ++ [LF]))] = .ok b') ∧
    ingestManifest lineLength parse .ok photosBatch
      [.frame (.data (photosLine ++ [CR, LF]))] = .error "manifest_line_too_large" := by
  have hwrite : photosBatch.writeManifest (fun _ => photosJson.length) [photos] =
      some { photosBatch with manifest := some [photos] } := rfl
  refine ⟨fun _ => photosJson.length, fun text => if text = photosLine then some photos else none,
    length_photosLine, if_pos rfl, ⟨{ photosBatch with manifest := some [photos] }, ?_⟩,
    ingestManifest_crlf rfl notMem_photosLine length_photosLine⟩
  refine ingestManifest_lf notMem_photosLine length_photosLine ?_ hwrite rfl
  rw [lineContent_photosLine]
  exact if_pos rfl

end FlowType
