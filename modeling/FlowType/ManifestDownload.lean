import FlowType.ManifestWriters
import FlowType.ProgressFile
import FlowType.SaveLocation

/-! The manifest of a batch for the phone: the computer hands it out in pages, and
`downloadManifest` of the phone fetches the pages that its store has not got, whenever the download
is taken up again. -/
namespace FlowType

structure ManifestResponse where
  next : Nat
  count : Nat
  body : List UInt8

structure ManifestPage where
  entries : List ManifestEntry
  nextOrdinal : Nat
  totalEntries : Nat
  deriving DecidableEq, Repr

structure ManifestSummary where
  files : Nat := 0
  directories : Nat := 0
  bytes : Nat := 0
  deriving DecidableEq, Repr

namespace ManifestDownload

section Computer

variable (json : EntryJson) (complete : Option ManifestComplete)
  (manifest index : Option (List UInt8))

def readEntries (ordinal : Nat) : Nat → Except String (List ManifestEntry)
  | 0 => .ok []
  | count + 1 =>
    match readEntry json complete manifest index ordinal with
    | .error message => .error message
    | .ok entry => (readEntries (ordinal + 1) count).map (entry :: ·)

/-- `GET` of the manifest from an ordinal on. -/
def serveManifest (stored : Option StoredBatch) (start : Nat) : Except String ManifestResponse :=
  match stored with
  | none => .error "batch_not_found"
  | some batch =>
    let count := saturatingAdd batch.fileCount batch.directoryCount
    if count < start then .error "invalid_ordinal"
    else
      let next := min (saturatingAdd start MAX_MANIFEST_PAGE_ENTRIES) count
      match readEntries json complete manifest index start (next - start) with
      | .error _ => .error "manifest_unavailable"
      | .ok entries => .ok ⟨next, count, manifestBytes json entries⟩

end Computer

/-- `readUtf8LineStrict`: the line without its end, and what comes after it. -/
def readLineStrict (limit : Nat) (body : List UInt8) : Option (List UInt8 × List UInt8) :=
  match body.idxOf? LF with
  | none => none
  | some newline =>
    let line := body.take newline
    if newline ≤ limit ∨ newline = limit + 1 ∧ line.getLast? = some CR then
      some (if line.getLast? = some CR then line.dropLast else line, body.drop (newline + 1))
    else none

theorem readLineStrict_shorter {limit : Nat} {body line rest : List UInt8}
    (h : readLineStrict limit body = some (line, rest)) : rest.length < body.length := by
  unfold readLineStrict at h
  split at h
  · cases h
  · next newline hnewline =>
    have hne : body ≠ [] := by
      rintro rfl
      cases hnewline
    have hpos := List.length_pos_iff.2 hne
    simp only at h
    split at h
    · obtain ⟨-, rfl⟩ := Prod.mk.inj (Option.some.inj h)
      rw [List.length_drop]
      omega
    · cases h

/-- The entries of a body; `size` of them were read before. -/
def readBody (decode : List UInt8 → Option ManifestEntry) (size : Nat) (body : List UInt8) :
    Except String (List ManifestEntry) :=
  if body = [] then .ok []
  else if MAX_MANIFEST_PAGE_ENTRIES ≤ size then .error "manifest page too large"
  else
    match _ : readLineStrict MAX_MANIFEST_LINE_BYTES body with
    | none => .error "end of file"
    | some (line, rest) =>
      if line = [] then readBody decode size rest
      else
        match decode line with
        | none => .error "invalid manifest entry"
        | some entry => (readBody decode (size + 1) rest).map (entry :: ·)
termination_by body.length
decreasing_by all_goals exact readLineStrict_shorter ‹_›

/-- `downloadManifestPage`, from the answer of the computer on. -/
def readPage (decode : List UInt8 → Option ManifestEntry) (start : Nat)
    (response : ManifestResponse) : Except String ManifestPage :=
  match readBody decode 0 response.body with
  | .error message => .error message
  | .ok entries =>
    if response.next = start + entries.length ∧ response.next ≤ response.count then
      .ok ⟨entries, response.next, response.count⟩
    else .error "check failed"

def expected (b : PhoneBatch) : Nat := b.batch.fileCount + b.batch.directoryCount

/-- The loop of `downloadManifest`, for that many pages. What was appended stays in the store. -/
def downloadPages (fetch : Nat → Except String ManifestPage) :
    Nat → Nat → PhoneBatch → PhoneBatch × Except String Unit
  | 0, _, b => (b, .ok ())
  | pages + 1, next, b =>
    if expected b ≤ next then (b, .ok ())
    else
      match fetch next with
      | .error message => (b, .error message)
      | .ok page =>
        if page.totalEntries ≠ expected b ∨ page.entries = [] then
          (b, .error "manifest count changed")
        else if page.entries.head?.map (·.ordinal) ≠ some next ∨ page.nextOrdinal ≤ next then
          (b, .error "manifest is not contiguous")
        else
          match b.appendManifestPage (page.entries.map fun entry => { manifest := entry }) with
          | none => (b, .error "invalid manifest page")
          | some b => downloadPages fetch pages page.nextOrdinal b

def addEntry (summary : ManifestSummary) (entry : StoredTransferEntry) :
    Except String ManifestSummary :=
  if MAX_WIRE_INTEGER < summary.bytes + entry.manifest.size then .error "long overflow"
  else .ok
    { files := if entry.manifest.kind = .file then summary.files + 1 else summary.files
      directories :=
        if entry.manifest.kind = .file then summary.directories else summary.directories + 1
      bytes := summary.bytes + entry.manifest.size }

def addEntries (summary : ManifestSummary) :
    List StoredTransferEntry → Except String ManifestSummary
  | [] => .ok summary
  | entry :: entries =>
    match addEntry summary entry with
    | .error message => .error message
    | .ok summary => addEntries summary entries

def summarizePages (b : PhoneBatch) : Nat → Nat → ManifestSummary → Except String ManifestSummary
  | 0, _, summary => .ok summary
  | pages + 1, ordinal, summary =>
    let page := b.entriesPage ordinal MAX_MANIFEST_PAGE_ENTRIES
    if page = [] then .ok summary
    else
      match addEntries summary page with
      | .error message => .error message
      | .ok summary =>
        summarizePages b pages (page.foldl (fun _ stored => stored.manifest.ordinal + 1) ordinal)
          summary

/-- `downloadManifest`: the batch that it leaves in the store, and whether it returns. There are
not more pages than entries. -/
def downloadManifest (fetch : Nat → Except String ManifestPage) (b : PhoneBatch) :
    PhoneBatch × Except String Unit :=
  if expected b < b.entries.length then (b, .error "local manifest is invalid")
  else
    match downloadPages fetch (expected b - b.entries.length) b.entries.length b with
    | (b, .error message) => (b, .error message)
    | (b, .ok ()) =>
      match summarizePages b (b.entries.length + 1) 0 {} with
      | .error message => (b, .error message)
      | .ok summary =>
        if summary.files = b.batch.fileCount ∧ summary.directories = b.batch.directoryCount ∧
            summary.bytes = b.batch.totalBytes then (b, .ok ())
        else (b, .error "manifest summary mismatch")

/-- Downloads of the manifest and the other calls of the store. -/
inductive Event
  | download (fetch : Nat → Except String ManifestPage)
  | store (now : Nat) (call : TransferStoreEvent)

/-- Only `downloadManifest` appends to a batch of this direction. -/
def step (s : PhoneShelf) : Event → Option PhoneShelf
  | .download fetch => s.batch.map fun b => { s with batch := some (downloadManifest fetch b).1 }
  | .store _ (.appendManifestPage _) => none
  | .store now call => s.step now call

section Served

variable (json : EntryJson) (digest : List UInt8 → String) (stored : StoredBatch)
  (entries : List ManifestEntry) (decode : List UInt8 → Option ManifestEntry)

def fetchPage (start : Nat) : Except String ManifestPage :=
  match serveManifest json (some ⟨entries.length, digest (manifestBytes json entries)⟩)
      (some (manifestBytes json entries)) (some (indexBytes json 0 entries)) (some stored)
      start with
  | .error message => .error message
  | .ok response => readPage decode start response

/-- Requests may fail, and those that do not bring what the computer has. -/
def Answers (fetch : Nat → Except String ManifestPage) : Prop :=
  ∀ start page, fetch start = .ok page →
    fetchPage json digest stored entries decode start = .ok page

/-- The manifest of the computer: complete, of the totals of its batch, and no longer than its
files can be. -/
structure Complete : Prop where
  taken : TakenEntries json entries
  totals : MeetsTotals stored entries
  bytes : (manifestBytes json entries).length ≤ MAX_WIRE_INTEGER
  index : entries.length * 8 ≤ MAX_WIRE_INTEGER

/-- The phone reads a line as the entry it was made of, or refuses it; no line is empty or ends in
a carriage return. -/
structure Readable : Prop where
  own : ∀ entry ∈ entries, decode (json.encode entry) = some entry ∨
    decode (json.encode entry) = none
  plain : ∀ entry ∈ entries, json.encode entry ≠ [] ∧ (json.encode entry).getLast? ≠ some CR

end Served

structure Copied (entries : List ManifestEntry) (b : PhoneBatch) : Prop where
  sound : b.Sound
  front : b.entries.map (·.manifest) <+: entries
  counted : b.entries ≠ [] → expected b = entries.length
  offered : 0 < expected b

structure Whole (entries : List ManifestEntry) (b : PhoneBatch) : Prop where
  all : b.entries.map (·.manifest) = entries
  files : entries.countP (·.kind = .file) = b.batch.fileCount
  directories : entries.countP (·.kind = .directory) = b.batch.directoryCount
  bytes : (entries.map ManifestEntry.size).sum = b.batch.totalBytes

/-- The batch was offered with the totals of the computer, which the phone can add up, and it takes
every entry. -/
structure Acceptable (json : EntryJson) (stored : StoredBatch) (entries : List ManifestEntry)
    (decode : List UInt8 → Option ManifestEntry) (b : PhoneBatch) : Prop where
  files : b.batch.fileCount = stored.fileCount
  directories : b.batch.directoryCount = stored.directoryCount
  bytes : b.batch.totalBytes = stored.totalBytes
  sum : stored.totalBytes ≤ MAX_WIRE_INTEGER
  accepted : ∀ entry ∈ entries, decode (json.encode entry) = some entry ∧
    validateStored entry = true

section Pages

variable {json : EntryJson} {digest : List UInt8 → String} {stored : StoredBatch}
  {entries : List ManifestEntry} {decode : List UInt8 → Option ManifestEntry} {start : Nat}
  {entry : ManifestEntry} {page : ManifestPage}

theorem readEntries_of_taken {sha256 : String} (h : Complete json stored entries) (n : Nat)
    (hn : start + n ≤ entries.length) :
    readEntries json (some ⟨entries.length, sha256⟩) (some (manifestBytes json entries))
      (some (indexBytes json 0 entries)) start n = .ok ((entries.drop start).take n) := by
  induction n generalizing start with
  | zero => rfl
  | succ n ih =>
    have hstart : start < entries.length := by omega
    have hfirst : readEntry json (some ⟨entries.length, sha256⟩) (some (manifestBytes json entries))
        (some (indexBytes json 0 entries)) start = .ok entries[start] :=
      readEntry_of_taken h.taken (Nat.lt_of_le_of_lt h.bytes (by decide))
        (Nat.lt_of_le_of_lt h.index (by decide)) hstart
    have hdrop : entries.drop start = entries[start] :: entries.drop (start + 1) :=
      List.drop_eq_getElem_cons hstart
    rw [readEntries, hfirst, ih (by omega), hdrop]
    rfl

theorem length_of_totals (h : MeetsTotals stored entries) :
    stored.fileCount + stored.directoryCount = entries.length := by
  -- an entry is a file or a directory
  have hkinds : ∀ entries : List ManifestEntry,
      entries.countP (·.kind = .file) + entries.countP (·.kind = .directory) = entries.length := by
    intro entries
    induction entries with
    | nil => rfl
    | cons entry entries ih =>
      simp only [List.countP_cons, List.length_cons]
      cases hkind : entry.kind <;> simp <;> omega
  rw [← h.files, ← h.directories]
  exact hkinds entries

/-- The computer hands out the part of the manifest that was asked for. -/
theorem serveManifest_eq {sha256 : String} (h : Complete json stored entries) :
    serveManifest json (some ⟨entries.length, sha256⟩) (some (manifestBytes json entries))
      (some (indexBytes json 0 entries)) (some stored) start =
    if entries.length < start then .error "invalid_ordinal"
    else .ok ⟨min (start + MAX_MANIFEST_PAGE_ENTRIES) entries.length, entries.length,
      manifestBytes json ((entries.drop start).take MAX_MANIFEST_PAGE_ENTRIES)⟩ := by
  have hindex := h.index
  have hwire : MAX_WIRE_INTEGER = 9223372036854775807 := by decide
  -- a complete manifest is too short for the sums to saturate
  have hcount : saturatingAdd stored.fileCount stored.directoryCount = entries.length := by
    rw [saturatingAdd, length_of_totals h.totals]
    omega
  simp only [serveManifest, hcount]
  split
  · rfl
  · next hstart =>
    have hpage : MAX_MANIFEST_PAGE_ENTRIES = 256 := rfl
    have hend : min (saturatingAdd start MAX_MANIFEST_PAGE_ENTRIES) entries.length =
        min (start + MAX_MANIFEST_PAGE_ENTRIES) entries.length := by
      rw [saturatingAdd]
      omega
    rw [hend, readEntries_of_taken h _ (by omega)]
    have htake : (entries.drop start).take
        (min (start + MAX_MANIFEST_PAGE_ENTRIES) entries.length - start) =
          (entries.drop start).take MAX_MANIFEST_PAGE_ENTRIES := by
      apply List.take_eq_take_iff.mpr
      rw [List.length_drop]
      omega
    rw [htake]

theorem readLineStrict_line {line : List UInt8} {limit : Nat} (hline : LF ∉ line)
    (hlimit : line.length ≤ limit) (hplain : line.getLast? ≠ some CR) (rest : List UInt8) :
    readLineStrict limit (line ++ LF :: rest) = some (line, rest) := by
  have hdrop : (line ++ LF :: rest).drop (line.length + 1) = rest := by
    rw [List.append_cons]
    exact List.drop_left' (by simp)
  simp only [readLineStrict, idxOf?_line hline rest, List.take_left, hdrop, hlimit, true_or,
    if_true, if_neg hplain]

theorem readBody_nil (size : Nat) : readBody decode size [] = .ok [] := by
  rw [readBody]
  rfl

theorem readBody_cons {rest : List UInt8} {size : Nat}
    (hvalid : entry.validate json.lineLength = true)
    (hplain : json.encode entry ≠ [] ∧ (json.encode entry).getLast? ≠ some CR) :
    readBody decode size (json.encode entry ++ LF :: rest) =
      if MAX_MANIFEST_PAGE_ENTRIES ≤ size then .error "manifest page too large"
      else
        match decode (json.encode entry) with
        | none => .error "invalid manifest entry"
        | some entry => (readBody decode (size + 1) rest).map (entry :: ·) := by
  have hlimit : (json.encode entry).length ≤ MAX_MANIFEST_LINE_BYTES := by
    simp only [ManifestEntry.validate, Bool.and_eq_true, decide_eq_true_iff] at hvalid
    exact hvalid.2
  have hread := readLineStrict_line (json.oneLine entry) hlimit hplain.2 rest
  rw [readBody, if_neg (by simp)]
  split
  · rfl
  · split
    · next hnone =>
      rw [hread] at hnone
      cases hnone
    · next line other hsome =>
      rw [hread] at hsome
      obtain ⟨rfl, rfl⟩ := Prod.mk.inj (Option.some.inj hsome)
      rw [if_neg hplain.1]

/-- What is read of a page is what was written to it. -/
theorem readBody_own {page got : List ManifestEntry} {size : Nat}
    (hvalid : ∀ entry ∈ page, entry.validate json.lineLength = true)
    (h : Readable json page decode)
    (hread : readBody decode size (manifestBytes json page) = .ok got) : got = page := by
  induction page generalizing size got with
  | nil =>
    rw [manifestBytes_nil, readBody_nil] at hread
    exact (Except.ok.inj hread).symm
  | cons entry page ih =>
    rw [manifestBytes_cons, readBody_cons (hvalid entry List.mem_cons_self)
      (h.plain entry List.mem_cons_self)] at hread
    split at hread
    · cases hread
    · rcases h.own entry List.mem_cons_self with hown | hown
      · simp only [hown] at hread
        cases hrest : readBody decode (size + 1) (manifestBytes json page) with
        | error message =>
          rw [hrest] at hread
          cases hread
        | ok more =>
          rw [hrest] at hread
          obtain rfl := Except.ok.inj hread
          have hmore := ih (fun other hother => hvalid other (List.mem_cons_of_mem _ hother))
            ⟨fun other hother => h.own other (List.mem_cons_of_mem _ hother),
              fun other hother => h.plain other (List.mem_cons_of_mem _ hother)⟩ hrest
          rw [hmore]
      -- the phone has refused this line
      · simp only [hown] at hread
        cases hread

theorem readBody_all {page : List ManifestEntry} (size : Nat)
    (hvalid : ∀ entry ∈ page, entry.validate json.lineLength = true)
    (h : Readable json page decode)
    (haccepted : ∀ entry ∈ page, decode (json.encode entry) = some entry)
    (hsize : size + page.length ≤ MAX_MANIFEST_PAGE_ENTRIES) :
    readBody decode size (manifestBytes json page) = .ok page := by
  induction page generalizing size with
  | nil => exact readBody_nil size
  | cons entry page ih =>
    rw [List.length_cons] at hsize
    have hrest := ih (size + 1) (fun other hother => hvalid other (List.mem_cons_of_mem _ hother))
      ⟨fun other hother => h.own other (List.mem_cons_of_mem _ hother),
        fun other hother => h.plain other (List.mem_cons_of_mem _ hother)⟩
      (fun other hother => haccepted other (List.mem_cons_of_mem _ hother)) (by omega)
    rw [manifestBytes_cons, readBody_cons (hvalid entry List.mem_cons_self)
      (h.plain entry List.mem_cons_self), if_neg (by omega),
      haccepted entry List.mem_cons_self, hrest]
    rfl

/-- What comes of a request is a part of the manifest. -/
theorem fetchPage_spec (hcomplete : Complete json stored entries)
    (hreadable : Readable json entries decode)
    (h : fetchPage json digest stored entries decode start = .ok page) :
    page.entries = (entries.drop start).take MAX_MANIFEST_PAGE_ENTRIES ∧
      page.nextOrdinal = start + page.entries.length ∧ page.totalEntries = entries.length := by
  rw [fetchPage, serveManifest_eq hcomplete] at h
  split_ifs at h
  simp only [readPage] at h
  split at h
  · cases h
  · next got hread =>
    split_ifs at h with hnext
    obtain rfl := Except.ok.inj h
    have hmem : ∀ entry ∈ (entries.drop start).take MAX_MANIFEST_PAGE_ENTRIES, entry ∈ entries :=
      fun entry hentry => List.mem_of_mem_drop (List.mem_of_mem_take hentry)
    have hgot := readBody_own (fun entry hentry => hcomplete.taken.valid entry (hmem entry hentry))
      ⟨fun entry hentry => hreadable.own entry (hmem entry hentry),
        fun entry hentry => hreadable.plain entry (hmem entry hentry)⟩ hread
    exact ⟨hgot, hnext.1, rfl⟩

theorem fetchPage_ok (digest : List UInt8 → String) (hcomplete : Complete json stored entries)
    (hreadable : Readable json entries decode)
    (haccepted : ∀ entry ∈ entries, decode (json.encode entry) = some entry)
    (hstart : start ≤ entries.length) :
    fetchPage json digest stored entries decode start =
      .ok ⟨(entries.drop start).take MAX_MANIFEST_PAGE_ENTRIES,
        min (start + MAX_MANIFEST_PAGE_ENTRIES) entries.length, entries.length⟩ := by
  have hmem : ∀ entry ∈ (entries.drop start).take MAX_MANIFEST_PAGE_ENTRIES, entry ∈ entries :=
    fun entry hentry => List.mem_of_mem_drop (List.mem_of_mem_take hentry)
  have hread := readBody_all 0
    (fun entry hentry => hcomplete.taken.valid entry (hmem entry hentry))
    ⟨fun entry hentry => hreadable.own entry (hmem entry hentry),
      fun entry hentry => hreadable.plain entry (hmem entry hentry)⟩
    (fun entry hentry => haccepted entry (hmem entry hentry))
    (by rw [List.length_take]; omega)
  rw [fetchPage, serveManifest_eq hcomplete, if_neg (by omega)]
  simp only [readPage, hread]
  rw [if_pos ?_]
  rw [List.length_take, List.length_drop]
  omega

end Pages

section Copy

variable {json : EntryJson} {digest : List UInt8 → String} {stored : StoredBatch}
  {entries : List ManifestEntry} {decode : List UInt8 → Option ManifestEntry}
  {fetch : Nat → Except String ManifestPage} {b b' : PhoneBatch} {s t : PhoneShelf}

theorem Copied.length_le (h : Copied entries b) : b.entries.length ≤ expected b := by
  by_cases hnil : b.entries = []
  · rw [hnil]
    exact Nat.zero_le _
  · have hlength := h.front.length_le
    rw [List.length_map] at hlength
    rw [h.counted hnil]
    exact hlength

/-- A copy of as many entries as were offered is all of the manifest. -/
theorem Copied.all (h : Copied entries b) (hlength : expected b ≤ b.entries.length) :
    b.entries.map (·.manifest) = entries := by
  have hoffered := h.offered
  have hne : b.entries ≠ [] := by
    apply List.ne_nil_of_length_pos
    omega
  apply h.front.eq_of_length_le
  rw [List.length_map, ← h.counted hne]
  exact hlength

theorem manifests_of_page (page : List ManifestEntry) :
    (page.map fun entry => ({ manifest := entry } : StoredTransferEntry)).map (·.manifest) =
      page := by
  rw [List.map_map]
  exact List.map_id _

/-- A page that goes on where the copy ends. -/
theorem Copied.append (h : Copied entries b) {page : List ManifestEntry} {limit : Nat}
    (hpage : page = (entries.drop b.entries.length).take limit)
    (hcounted : expected b = entries.length)
    (happend : b.appendManifestPage (page.map fun entry => { manifest := entry }) = some b') :
    Copied entries b' ∧ expected b' = expected b ∧
      b'.entries.length = b.entries.length + page.length := by
  have hsound := h.sound.appendManifestPage happend
  rw [PhoneBatch.appendManifestPage] at happend
  split_ifs at happend
  obtain rfl := Option.some.inj happend
  refine ⟨⟨hsound, ?_, fun _ => hcounted, h.offered⟩, rfl, ?_⟩
  · have hfront := List.prefix_iff_eq_take.mp h.front
    rw [List.length_map] at hfront
    rw [List.map_append, manifests_of_page, hfront, hpage, ← List.take_add]
    exact List.take_prefix _ _
  · rw [List.length_append, List.length_map]

/-- The pages that come keep the copy a beginning of the manifest; with enough of them the loop
returns with as many entries as were offered. -/
theorem downloadPages_spec (hcomplete : Complete json stored entries)
    (hreadable : Readable json entries decode)
    (hanswers : Answers json digest stored entries decode fetch) (pages : Nat)
    (h : Copied entries b) :
    Copied entries (downloadPages fetch pages b.entries.length b).1 ∧
      (expected b ≤ b.entries.length + pages →
        (downloadPages fetch pages b.entries.length b).2 = .ok () →
        expected (downloadPages fetch pages b.entries.length b).1 ≤
          (downloadPages fetch pages b.entries.length b).1.entries.length) := by
  induction pages generalizing b with
  | zero => exact ⟨h, fun hpages _ => hpages⟩
  | succ pages ih =>
    rw [downloadPages]
    by_cases hdone : expected b ≤ b.entries.length
    · rw [if_pos hdone]
      exact ⟨h, fun _ _ => hdone⟩
    rw [if_neg hdone]
    -- the next page is asked for from the end of the copy on
    cases hfetch : fetch b.entries.length with
    | error message =>
      refine ⟨h, fun _ hok => ?_⟩
      cases hok
    | ok page =>
      obtain ⟨hpage, hnext, htotal⟩ := fetchPage_spec hcomplete hreadable (hanswers _ _ hfetch)
      dsimp only
      split
      · refine ⟨h, fun _ hok => ?_⟩
        cases hok
      next hcount =>
      split
      · refine ⟨h, fun _ hok => ?_⟩
        cases hok
      next hcontiguous =>
      simp only [not_or, not_not, not_le] at hcount hcontiguous
      cases happend : b.appendManifestPage
          (page.entries.map fun entry => { manifest := entry }) with
      | none =>
        refine ⟨h, fun _ hok => ?_⟩
        cases hok
      | some b' =>
        have hcopied := h.append hpage (hcount.1.symm.trans htotal) happend
        have hplace : page.nextOrdinal = b'.entries.length := by
          rw [hcopied.2.2]
          exact hnext
        dsimp only
        rw [hplace]
        refine ⟨(ih hcopied.1).1, fun hpages hok => (ih hcopied.1).2 ?_ hok⟩
        have hmore := hcontiguous.2
        rw [hcopied.2.1]
        omega

/-- The pages of the summary are the entries of the store. -/
theorem summarizePages_eq (hsound : b.Sound) (pages start : Nat) (summary : ManifestSummary)
    (hpages : b.entries.length < start + pages) :
    summarizePages b pages start summary = addEntries summary (b.entries.drop start) := by
  have happend : ∀ (front back : List StoredTransferEntry) (summary : ManifestSummary),
      addEntries summary (front ++ back) = match addEntries summary front with
        | .error message => .error message
        | .ok summary => addEntries summary back := by
    intro front back
    induction front with
    | nil => exact fun _ => rfl
    | cons entry front ih =>
      intro summary
      simp only [List.cons_append, addEntries]
      cases addEntry summary entry with
      | error message => rfl
      | ok summary => exact ih summary
  induction pages generalizing start summary with
  | zero =>
    rw [List.drop_eq_nil_of_le (by omega)]
    rfl
  | succ pages ih =>
    have hpage := entriesPage_eq hsound.ordinals start MAX_MANIFEST_PAGE_ENTRIES
    rw [summarizePages, hpage]
    split
    · next hnil =>
      have hdrop : b.entries.drop start = [] := by
        have hlength := congrArg List.length hnil
        rw [List.length_take, List.length_nil] at hlength
        have hpos : 0 < MAX_MANIFEST_PAGE_ENTRIES := by decide
        exact List.eq_nil_of_length_eq_zero (by omega)
      rw [hdrop]
      rfl
    · next hne =>
      -- the next page starts after the last ordinal of this one
      have hordinals : ((b.entries.drop start).take MAX_MANIFEST_PAGE_ENTRIES).map
          (·.manifest.ordinal) = List.range' start
            ((b.entries.drop start).take MAX_MANIFEST_PAGE_ENTRIES).length := by
        rw [List.map_take, List.map_drop, hsound.ordinals, List.range_eq_range', List.drop_range',
          List.length_take, List.length_drop, Nat.zero_add, Nat.mul_one]
        rcases Nat.le_total MAX_MANIFEST_PAGE_ENTRIES (b.entries.length - start) with hmore | hlast
        · rw [List.take_range'_of_length_ge hmore, Nat.min_eq_left hmore]
        · rw [List.take_range'_of_length_le hlast, Nat.min_eq_right hlast]
      have hpos := List.length_pos_iff.mpr hne
      rw [next_ordinal hordinals]
      conv_rhs => rw [← List.take_append_drop MAX_MANIFEST_PAGE_ENTRIES (b.entries.drop start),
        happend]
      cases addEntries summary ((b.entries.drop start).take MAX_MANIFEST_PAGE_ENTRIES) with
      | error message => rfl
      | ok summary =>
        dsimp only
        rw [ih _ _ (by omega), List.drop_drop]
        by_cases hlast : b.entries.length ≤ start + MAX_MANIFEST_PAGE_ENTRIES
        · rw [List.drop_eq_nil_of_le (by rw [List.length_take, List.length_drop]; omega),
            List.drop_eq_nil_of_le hlast]
        · congr 2
          rw [List.length_take, List.length_drop]
          omega

/-- What the summary of some entries says, and when it can be made. -/
theorem addEntries_spec (stored : List StoredTransferEntry) (summary : ManifestSummary) :
    (∀ total, addEntries summary stored = .ok total →
      total.files = summary.files + (stored.map (·.manifest)).countP (·.kind = .file) ∧
      total.directories =
        summary.directories + (stored.map (·.manifest)).countP (·.kind = .directory) ∧
      total.bytes = summary.bytes + ((stored.map (·.manifest)).map ManifestEntry.size).sum) ∧
    (summary.bytes + ((stored.map (·.manifest)).map ManifestEntry.size).sum ≤ MAX_WIRE_INTEGER →
      ∃ total, addEntries summary stored = .ok total) := by
  induction stored generalizing summary with
  | nil =>
    refine ⟨?_, fun _ => ⟨summary, rfl⟩⟩
    intro total h
    obtain rfl := Except.ok.inj h
    exact ⟨rfl, rfl, rfl⟩
  | cons entry stored ih =>
    simp only [addEntries, addEntry, List.map_cons, List.countP_cons, List.sum_cons]
    constructor
    · intro total h
      split at h
      · cases h
      · next next hadd =>
        split at hadd
        · cases hadd
        · obtain rfl := Except.ok.inj hadd
          obtain ⟨hfiles, hdirectories, hbytes⟩ := (ih _).1 total h
          refine ⟨?_, ?_, ?_⟩
          · rw [hfiles]
            cases entry.manifest.kind with
            | file =>
              simp only [if_true, decide_true]
              omega
            | directory => simp
          · rw [hdirectories]
            cases entry.manifest.kind with
            | file => simp
            | directory =>
              simp only [reduceCtorEq, if_false, decide_true, if_true]
              omega
          · rw [hbytes]
            exact Nat.add_assoc _ _ _
    · intro hsum
      rw [if_neg (by omega)]
      exact (ih _).2 (by dsimp only; omega)

theorem downloadManifest_error {message : String} (hle : b.entries.length ≤ expected b)
    (h : downloadPages fetch (expected b - b.entries.length) b.entries.length b =
      (b', .error message)) : downloadManifest fetch b = (b', .error message) := by
  rw [downloadManifest, if_neg (by omega), h]

/-- However a download ends, what it leaves is a beginning of the manifest; one that returns has
all of it. -/
theorem downloadManifest_spec (hcomplete : Complete json stored entries)
    (hreadable : Readable json entries decode)
    (hanswers : Answers json digest stored entries decode fetch) (h : Copied entries b) :
    Copied entries (downloadManifest fetch b).1 ∧
      ((downloadManifest fetch b).2 = .ok () → Whole entries (downloadManifest fetch b).1) := by
  have hle := h.length_le
  have hpages := downloadPages_spec hcomplete hreadable hanswers
    (expected b - b.entries.length) h
  rw [downloadManifest, if_neg (by omega)]
  cases hdownload : downloadPages fetch (expected b - b.entries.length) b.entries.length b with
  | mk b' outcome =>
    rw [hdownload] at hpages
    cases outcome with
    | error message =>
      refine ⟨hpages.1, fun hok => ?_⟩
      cases hok
    | ok done =>
      have hcopied : Copied entries b' := hpages.1
      have hlength : expected b' ≤ b'.entries.length := hpages.2 (by omega) rfl
      have hsummary := summarizePages_eq hcopied.sound (b'.entries.length + 1) 0 {} (by omega)
      have hspec := (addEntries_spec (b'.entries.drop 0) {}).1
      dsimp only
      rw [hsummary]
      cases htotal : addEntries {} (b'.entries.drop 0) with
      | error message =>
        refine ⟨hcopied, fun hok => ?_⟩
        cases hok
      | ok total =>
        dsimp only
        split
        · next htotals =>
          refine ⟨hcopied, fun _ => ?_⟩
          obtain ⟨hfiles, hdirectories, hbytes⟩ := hspec total htotal
          have hall := hcopied.all hlength
          rw [List.drop_zero, hall, Nat.zero_add] at hfiles hdirectories hbytes
          exact ⟨hall, hfiles.symm.trans htotals.1, hdirectories.symm.trans htotals.2.1,
            hbytes.symm.trans htotals.2.2⟩
        · refine ⟨hcopied, fun hok => ?_⟩
          cases hok

/-- A page that the phone takes is appended. -/
theorem append_ok (hcomplete : Complete json stored entries) (h : Copied entries b)
    (haccepted : ∀ entry ∈ entries, validateStored entry = true)
    (hmore : b.entries.length < entries.length) :
    ∃ b', b.appendManifestPage (((entries.drop b.entries.length).take
      MAX_MANIFEST_PAGE_ENTRIES).map fun entry => { manifest := entry }) = some b' ∧
        b'.batch = b.batch := by
  have hlimit : MAX_MANIFEST_PAGE_ENTRIES = 256 := rfl
  let page := (entries.drop b.entries.length).take MAX_MANIFEST_PAGE_ENTRIES
  let rows : List StoredTransferEntry := page.map fun entry => { manifest := entry }
  have hlength : page.length =
      min MAX_MANIFEST_PAGE_ENTRIES (entries.length - b.entries.length) := by
    rw [List.length_take, List.length_drop]
  have hnonempty : rows ≠ [] := by
    apply List.ne_nil_of_length_pos
    rw [List.length_map]
    omega
  have hvalid : rows.all (·.validate) = true := by
    apply List.all_eq_true.mpr
    intro row hrow
    obtain ⟨entry, hentry, rfl⟩ := List.mem_map.mp hrow
    have hentry := haccepted entry (List.mem_of_mem_drop (List.mem_of_mem_take hentry))
    simp [StoredTransferEntry.validate, hentry]
  have hordinals : rows.map (·.manifest.ordinal) =
      List.range' b.entries.length page.length := by
    simp only [rows, List.map_map]
    apply List.ext_getElem
    · simp
    · intro i hi _
      rw [List.length_map, hlength] at hi
      simp only [page, List.getElem_map, Function.comp_apply, List.getElem_take, List.getElem_drop,
        List.getElem_range', Nat.one_mul]
      exact hcomplete.taken.numbered _ (by omega)
  have hdistinct : ((b.entries ++ rows).map (·.manifest.entryId)).Nodup := by
    have hfront := List.prefix_iff_eq_take.mp h.front
    rw [List.length_map] at hfront
    have hmanifests : (b.entries ++ rows).map (·.manifest) =
        entries.take (b.entries.length + MAX_MANIFEST_PAGE_ENTRIES) := by
      rw [List.map_append, manifests_of_page, hfront, List.take_add]
    have hids : (b.entries ++ rows).map (·.manifest.entryId) =
        (entries.take (b.entries.length + MAX_MANIFEST_PAGE_ENTRIES)).map
          ManifestEntry.entryId := by
      rw [← hmanifests, List.map_map]
      rfl
    rw [hids]
    exact hcomplete.taken.distinct.sublist ((List.take_sublist _ _).map _)
  refine ⟨{ b with entries := b.entries ++ rows }, ?_, rfl⟩
  rw [PhoneBatch.appendManifestPage, if_neg]
  simp only [not_or, not_not, Bool.not_eq_false]
  refine ⟨hnonempty, ?_, hvalid, ?_, hdistinct⟩
  · have hrows : rows.length ≤ MAX_MANIFEST_PAGE_ENTRIES := by
      rw [List.length_map, hlength]
      exact Nat.min_le_left _ _
    exact Nat.not_lt.mpr hrows
  · rw [List.length_map]
    exact hordinals

/-- One turn of the loop: the next page is appended. -/
theorem downloadPages_turn (digest : List UInt8 → String)
    (hcomplete : Complete json stored entries) (hreadable : Readable json entries decode)
    (pages : Nat) (h : Copied entries b)
    (hacceptable : Acceptable json stored entries decode b)
    (hmore : b.entries.length < entries.length)
    (hfetch : fetch b.entries.length =
      fetchPage json digest stored entries decode b.entries.length) :
    ∃ b', Copied entries b' ∧ b'.batch = b.batch ∧
      b'.entries.length = min (b.entries.length + MAX_MANIFEST_PAGE_ENTRIES) entries.length ∧
      downloadPages fetch (pages + 1) b.entries.length b =
        downloadPages fetch pages b'.entries.length b' := by
  have hexpected : expected b = entries.length := by
    rw [expected, hacceptable.files, hacceptable.directories]
    exact length_of_totals hcomplete.totals
  have hpos : 0 < MAX_MANIFEST_PAGE_ENTRIES := by decide
  have hpage := fetchPage_ok digest hcomplete hreadable
    (fun entry hentry => (hacceptable.accepted entry hentry).1) (Nat.le_of_lt hmore)
  obtain ⟨b', happend, hbatch⟩ := append_ok hcomplete h
    (fun entry hentry => (hacceptable.accepted entry hentry).2) hmore
  have hcopied := h.append rfl hexpected happend
  -- the page begins at the end of the copy: the checks of the loop pass
  have hfirst : ((entries.drop b.entries.length).take MAX_MANIFEST_PAGE_ENTRIES).head?.map
      (·.ordinal) = some b.entries.length := by
    rw [List.head?_take, if_neg (by omega), List.head?_drop, List.getElem?_eq_getElem hmore]
    exact congrArg some (hcomplete.taken.numbered _ hmore)
  have hnonempty : (entries.drop b.entries.length).take MAX_MANIFEST_PAGE_ENTRIES ≠ [] := by
    apply List.ne_nil_of_length_pos
    rw [List.length_take, List.length_drop]
    omega
  have hplace : b'.entries.length =
      min (b.entries.length + MAX_MANIFEST_PAGE_ENTRIES) entries.length := by
    rw [hcopied.2.2, List.length_take, List.length_drop]
    omega
  refine ⟨b', hcopied.1, hbatch, hplace, ?_⟩
  rw [downloadPages, if_neg (by omega), hfetch, hpage]
  dsimp only
  rw [if_neg (by simp [hexpected, hnonempty]), if_neg (by simp only [hfirst]; simp; omega),
    happend]
  dsimp only
  rw [hplace]

theorem Acceptable.of_batch (h : Acceptable json stored entries decode b)
    (hbatch : b'.batch = b.batch) : Acceptable json stored entries decode b' := by
  refine ⟨?_, ?_, ?_, h.sum, h.accepted⟩ <;> rw [hbatch]
  · exact h.files
  · exact h.directories
  · exact h.bytes

theorem downloadPages_ok (digest : List UInt8 → String)
    (hcomplete : Complete json stored entries) (hreadable : Readable json entries decode)
    (pages : Nat) (h : Copied entries b)
    (hacceptable : Acceptable json stored entries decode b) :
    ∃ b', downloadPages (fetchPage json digest stored entries decode) pages b.entries.length b =
      (b', .ok ()) ∧ b'.batch = b.batch := by
  induction pages generalizing b with
  | zero => exact ⟨b, rfl, rfl⟩
  | succ pages ih =>
    by_cases hdone : expected b ≤ b.entries.length
    · rw [downloadPages, if_pos hdone]
      exact ⟨b, rfl, rfl⟩
    have hmore : b.entries.length < entries.length := by
      rw [expected, hacceptable.files, hacceptable.directories,
        length_of_totals hcomplete.totals] at hdone
      omega
    obtain ⟨b', hcopied, hbatch, -, hturn⟩ :=
      downloadPages_turn digest hcomplete hreadable pages h hacceptable hmore rfl
    obtain ⟨last, hrest, hlast⟩ := ih hcopied (hacceptable.of_batch hbatch)
    exact ⟨last, hturn.trans hrest, hlast.trans hbatch⟩

/-- A download that nothing disturbs returns, wherever the last one has left off. -/
theorem downloadManifest_ok (hcomplete : Complete json stored entries)
    (hreadable : Readable json entries decode) (h : Copied entries b)
    (hacceptable : Acceptable json stored entries decode b) :
    (downloadManifest (fetchPage json digest stored entries decode) b).2 = .ok () := by
  have hle := h.length_le
  have hanswers : Answers json digest stored entries decode
      (fetchPage json digest stored entries decode) := fun _ _ hfetch => hfetch
  have hpages := downloadPages_spec hcomplete hreadable hanswers (expected b - b.entries.length) h
  obtain ⟨b', hdownload, hbatch⟩ := downloadPages_ok digest hcomplete hreadable
    (expected b - b.entries.length) h hacceptable
  rw [hdownload] at hpages
  have hcopied : Copied entries b' := hpages.1
  have hall := hcopied.all (hpages.2 (by omega) rfl)
  have hsummary := summarizePages_eq hcopied.sound (b'.entries.length + 1) 0 {} (by omega)
  have hspec := addEntries_spec b'.entries {}
  rw [hall, Nat.zero_add, Nat.zero_add, Nat.zero_add, hcomplete.totals.bytes] at hspec
  obtain ⟨total, htotal⟩ := hspec.2 hacceptable.sum
  obtain ⟨hfiles, hdirectories, hbytes⟩ := hspec.1 total htotal
  rw [List.drop_zero, htotal] at hsummary
  rw [downloadManifest, if_neg (by omega), hdownload]
  dsimp only
  rw [hsummary]
  dsimp only
  rw [if_pos]
  rw [hbatch, hacceptable.files, hacceptable.directories, hacceptable.bytes]
  exact ⟨hfiles.trans hcomplete.totals.files, hdirectories.trans hcomplete.totals.directories,
    hbytes⟩

theorem Copied.of_same (h : Copied entries b)
    (hmanifests : b'.entries.map (·.manifest) = b.entries.map (·.manifest))
    (hexpected : expected b' = expected b) : Copied entries b' := by
  refine ⟨h.sound.of_manifests hmanifests, ?_, ?_, ?_⟩
  · rw [hmanifests]
    exact h.front
  · intro hne
    rw [hexpected]
    apply h.counted
    rintro hnil
    rw [hnil] at hmanifests
    exact hne (List.map_eq_nil_iff.mp hmanifests)
  · rw [hexpected]
    exact h.offered

theorem Copied.updateEntry (h : Copied entries b) {ordinal : Nat}
    {change : StoredTransferEntry → StoredTransferEntry}
    (hupdate : b.updateEntry ordinal change = some b')
    (hchange : ∀ entry, (change entry).manifest = entry.manifest) : Copied entries b' := by
  rw [PhoneBatch.updateEntry] at hupdate
  split_ifs at hupdate
  obtain rfl := Option.some.inj hupdate
  exact h.of_same (map_manifest_modify hchange _ _) rfl

/-- The copy on the shelf, if there is one. -/
def CopiedShelf (entries : List ManifestEntry) (s : PhoneShelf) : Prop :=
  ∀ b, s.batch = some b → Copied entries b

theorem CopiedShelf.update (h : CopiedShelf entries s) {call : PhoneBatch → Option PhoneBatch}
    (hcall : ∀ b b', Copied entries b → call b = some b' → Copied entries b')
    (hupdate : s.update call = some t) : CopiedShelf entries t := by
  obtain ⟨b', hb', rfl⟩ := Option.map_eq_some_iff.1 hupdate
  obtain ⟨b, hb, hcalled⟩ := Option.bind_eq_some_iff.1 hb'
  intro other hother
  obtain rfl := Option.some.inj hother
  exact hcall b b' (h b hb) hcalled

/-- No other call of the store touches what was copied. -/
theorem CopiedShelf.step (h : CopiedShelf entries s) {now : Nat} {call : TransferStoreEvent}
    (hcall : ∀ page, call ≠ .appendManifestPage page) (hstep : s.step now call = some t) :
    CopiedShelf entries t := by
  cases call with
  | createBatch batch =>
    rw [PhoneShelf.step] at hstep
    split_ifs at hstep
    obtain ⟨b, hb, rfl⟩ := Option.map_eq_some_iff.1 hstep
    rw [PhoneBatch.create] at hb
    split_ifs at hb with hvalid
    obtain rfl := Option.some.inj hb
    intro other hother
    obtain rfl := Option.some.inj hother
    simp only [FileTransferBatch.validate, Bool.and_eq_true, Bool.or_eq_true, decide_eq_true_iff]
      at hvalid
    refine ⟨⟨rfl, by simp⟩, List.nil_prefix, fun hne => absurd rfl hne, ?_⟩
    -- nothing is copied yet, and an offer has at least one entry
    have hsome := hvalid.1.2
    simp only [expected]
    omega
  | appendManifestPage page => exact absurd rfl (hcall page)
  | updateBatchState next =>
    apply h.update _ hstep
    intro b b' hb hcalled
    rw [PhoneBatch.updateBatchState] at hcalled
    split_ifs at hcalled
    obtain rfl := Option.some.inj hcalled
    exact hb.of_same rfl rfl
  | setTargetTree targetTreeUri =>
    apply h.update _ hstep
    intro b b' hb hcalled
    have hcounts : expected b' = expected b := by
      rw [PhoneBatch.setTargetTree] at hcalled
      split_ifs at hcalled
      obtain rfl := Option.some.inj hcalled
      rfl
    apply hb.of_same _ hcounts
    rw [PhoneBatch.setTargetTree] at hcalled
    split_ifs at hcalled
    obtain rfl := Option.some.inj hcalled
    simp only
    split_ifs
    · rw [List.map_map]
      apply List.map_congr_left
      intro entry _
      simp only [Function.comp_apply]
      split_ifs <;> rfl
    · rfl
  | reconcileResult state =>
    apply h.update _ hstep
    intro b b' hb hcalled
    rw [PhoneBatch.reconcileResult] at hcalled
    split_ifs at hcalled
    obtain rfl := Option.some.inj hcalled
    exact hb.of_same rfl rfl
  | cancelIncompleteEntries =>
    apply h.update _ hstep
    intro b b' hb hcalled
    obtain rfl := Option.some.inj hcalled
    have hmanifests : b.cancelIncompleteEntries.entries.map (·.manifest) =
        b.entries.map (·.manifest) := by
      rw [PhoneBatch.cancelIncompleteEntries, List.map_map]
      apply List.map_congr_left
      intro entry _
      simp only [Function.comp_apply]
      split_ifs <;> rfl
    exact hb.of_same hmanifests rfl
  | updateEntryProgress ordinal state committedOffset targetUri targetName errorCode =>
    apply h.update _ hstep
    intro b b' hb hcalled
    rw [PhoneBatch.updateEntryProgress] at hcalled
    obtain ⟨current, -, hcalled⟩ := Option.bind_eq_some_iff.1 hcalled
    split_ifs at hcalled
    exact hb.updateEntry hcalled fun _ => rfl
  | setEntryTarget ordinal targetUri targetName targetParentUri =>
    apply h.update _ hstep
    intro b b' hb hcalled
    rw [PhoneBatch.setEntryTarget] at hcalled
    split_ifs at hcalled
    exact hb.updateEntry hcalled fun _ => rfl
  | journalCommit ordinal hash finalUri =>
    apply h.update _ hstep
    intro b b' hb hcalled
    rw [PhoneBatch.journalCommit] at hcalled
    split_ifs at hcalled
    exact hb.updateEntry hcalled fun _ => rfl
  | receive ordinal bytes | answer request =>
    rw [PhoneShelf.step] at hstep
    split_ifs at hstep
    obtain rfl := Option.some.inj hstep
    exact h
  | deleteBatch =>
    obtain rfl := Option.some.inj hstep
    intro other hother
    cases hother
  | resume =>
    rw [PhoneShelf.step] at hstep
    split_ifs at hstep
    · obtain rfl := Option.some.inj hstep
      intro other hother
      cases hother
    · obtain rfl := Option.some.inj hstep
      exact h

/-- Whatever downloads fail and whatever else happens to the batch between them, the phone has the
beginning of the computer's manifest; a download of the manifest that returns has all of it, with
the totals that were offered, and the next one that is not disturbed returns. -/
theorem manifest_download (hcomplete : Complete json stored entries)
    (hreadable : Readable json entries decode) {es : List Event}
    (hes : ∀ fetch, .download fetch ∈ es → Answers json digest stored entries decode fetch)
    (hr : Machine.run step {} es = some s) (hb : s.batch = some b) :
    Copied entries b ∧
    (∀ fetch, Answers json digest stored entries decode fetch →
      (downloadManifest fetch b).2 = .ok () → Whole entries (downloadManifest fetch b).1) ∧
    (Acceptable json stored entries decode b →
      (downloadManifest (fetchPage json digest stored entries decode) b).2 = .ok ()) := by
  -- the downloads of this run are answered by the one computer
  let ok : PhoneShelf → Event → Prop := fun _ e =>
    ∀ fetch, e = .download fetch → Answers json digest stored entries decode fetch
  have hok : Machine.Along step ok {} es := by
    apply Machine.along_of_forall
    rintro e he _ fetch rfl
    exact hes fetch he
  have hcopied : CopiedShelf entries s := by
    refine Machine.Reach.invariant (CopiedShelf entries) ?_ ?_ (Machine.Reach.run es .start hok hr)
    · intro b hnone
      cases hnone
    · intro s e t hs he hstep
      unfold step at hstep
      split at hstep
      · next fetch =>
        obtain ⟨b, hb, rfl⟩ := Option.map_eq_some_iff.1 hstep
        intro other hother
        obtain rfl := Option.some.inj hother
        exact (downloadManifest_spec hcomplete hreadable (he fetch rfl) (hs b hb)).1
      · cases hstep
      · next hcall => exact hs.step hcall hstep
  have hstart := hcopied b hb
  refine ⟨hstart, ?_, downloadManifest_ok hcomplete hreadable hstart⟩
  intro fetch hanswers
  exact (downloadManifest_spec hcomplete hreadable hanswers hstart).2

end Copy

/-! ### More directories than a page holds -/

section Albums

open ManifestWorld

/-- A directory of the offer, and its line. -/
def album (n : Nat) : ManifestEntry where
  ordinal := n
  entryId := toString n
  relativePath := wirePath ["album".toList ++ Nat.toDigits 10 n]
  kind := .directory

def albumText (n : Nat) : List Char :=
  "\x7b\"ordinal\":".toList ++ (Nat.toDigits 10 n ++ ',' :: ("\"entry_id\":\"".toList ++
    Nat.toDigits 10 n ++ "\",\"relative_path\":\"album".toList ++ Nat.toDigits 10 n ++
    "\",\"kind\":\"directory\",\"size\":0\x7d".toList))

def albumJson (n : Nat) : List UInt8 := (albumText n).map fun c => UInt8.ofNat c.toNat

def albums : List ManifestEntry := (List.range 257).map album

theorem albumText_ascii (n : Nat) : ∀ c ∈ albumText n, 32 ≤ c.toNat ∧ c.toNat < 128 := by
  have hdigits : ∀ c ∈ Nat.toDigits 10 n, 32 ≤ c.toNat ∧ c.toNat < 128 := by
    intro c hc
    have hrange := toNat_of_mem_toDigits hc
    omega
  unfold albumText
  simp only [List.forall_mem_append, List.forall_mem_cons, String.reduceToList]
  simpa using hdigits

theorem toNat_byte {c : Char} (h : c.toNat < 128) : (UInt8.ofNat c.toNat).toNat = c.toNat := by
  rw [UInt8.toNat_ofNat']
  omega

theorem digits_injective : Function.Injective (Nat.toDigits 10) := by
  intro n m h
  calc
    n = Nat.ofDigitChars 10 (Nat.toDigits 10 n) 0 := Nat.ofDigitChars_ten_toDigits.symm
    _ = Nat.ofDigitChars 10 (Nat.toDigits 10 m) 0 := by rw [h]
    _ = m := Nat.ofDigitChars_ten_toDigits

theorem albumJson_injective : Function.Injective albumJson := by
  intro n m h
  have htext : ∀ n, (albumJson n).map (fun b => Char.ofNat b.toNat) = albumText n := by
    intro n
    rw [albumJson, List.map_map]
    conv_rhs => rw [← List.map_id (albumText n)]
    apply List.map_congr_left
    intro c hc
    simp only [Function.comp_apply, toNat_byte (albumText_ascii n c hc).2, Char.ofNat_toNat, id_eq]
  have hrest := List.append_cancel_left (((htext n).symm.trans (by rw [h])).trans (htext m))
  -- the ordinal ends at the first comma
  have hnumber : ∀ n rest, (Nat.toDigits 10 n ++ ',' :: rest).takeWhile (· ≠ ',') =
      Nat.toDigits 10 n := by
    intro n rest
    rw [List.takeWhile_append_of_pos]
    · simp
    · intro c hc
      have hrange := toNat_of_mem_toDigits hc
      rw [decide_eq_true_eq]
      rintro rfl
      exact absurd hrange (by decide)
  have hdigits := congrArg (List.takeWhile (· ≠ ',')) hrest
  rw [hnumber, hnumber] at hdigits
  exact digits_injective hdigits

theorem albumJson_line (n : Nat) :
    LF ∉ albumJson n ∧ 123 ∈ albumJson n ∧ (albumJson n).getLast? ≠ some CR := by
  have hbyte : ∀ b ∈ albumJson n, 32 ≤ b.toNat := by
    intro b hb
    obtain ⟨c, hc, rfl⟩ := List.mem_map.mp hb
    have hascii := albumText_ascii n c hc
    rw [toNat_byte hascii.2]
    exact hascii.1
  refine ⟨fun hmem => absurd (hbyte _ hmem) (by decide), ?_, fun hlast =>
    absurd (hbyte _ (List.mem_of_getLast? hlast)) (by decide)⟩
  apply List.mem_map_of_mem (a := '\x7b')
  exact List.mem_append_left _ (by decide)

theorem length_albumJson {n : Nat} (h : n < 257) :
    (albumJson n).length ≤ MAX_MANIFEST_LINE_BYTES := by
  have hdigits : (Nat.toDigits 10 n).length ≤ 3 := Nat.toDigits_length 10 n 3 (by decide) (by omega)
  have hlimit : 200 ≤ MAX_MANIFEST_LINE_BYTES := by decide
  have hlength : (albumJson n).length = 3 * (Nat.toDigits 10 n).length + 78 := by
    unfold albumJson albumText
    simp only [List.length_map, List.length_append, List.length_cons, String.reduceToList,
      List.length_nil]
    ring
  omega

theorem album_validFields {n : Nat} (h : n < 257) : (album n).validFields = true := by
  have hsize : (toString n).utf8ByteSize ≤ 3 := natural_size_le (by decide) (by omega)
  have hid : validIdentifier (album n).entryId MAX_ENTRY_ID_BYTES = true := by
    have hlimit : (album n).entryId.utf8ByteSize ≤ MAX_ENTRY_ID_BYTES := hsize.trans (by decide)
    have hne : (album n).entryId ≠ "" := by
      rw [album, Nat.toString_eq_ofList_toDigits]
      exact fun hempty => Nat.toDigits_ne_nil (String.ofList_eq_empty_iff.mp hempty)
    simp only [validIdentifier, Bool.and_eq_true, decide_eq_true_eq]
    refine ⟨⟨hne, hlimit⟩, ?_⟩
    rw [album, Nat.toString_eq_ofList_toDigits, String.toList_ofList, List.all_eq_true]
    intro c hc
    have hdigit := Nat.isDigit_of_mem_toDigits (by decide) (by decide) hc
    simp [Char.isAlphanum, hdigit]
  have hname : PlainName ("album".toList ++ Nat.toDigits 10 n) := by
    refine ⟨by simp, by simp, by simp, ?_⟩
    rw [List.forall_mem_append]
    exact ⟨List.all_eq_true.mp (by decide),
      fun c hc => plainChar_of_digit (toNat_of_mem_toDigits hc)⟩
  have hlength : utf8Length ("album".toList ++ Nat.toDigits 10 n) ≤ 8 := by
    have halbum : utf8Length "album".toList = 5 := by decide
    rw [utf8ByteSize_eq, Nat.toString_eq_ofList_toDigits, String.toList_ofList] at hsize
    rw [utf8Length_append]
    omega
  have hunits := utf16Length_le_utf8Length ("album".toList ++ Nat.toDigits 10 n)
  have hpath : validateRelativePath (album n).relativePath = true := by
    have hlimit : 8 ≤ MAX_RELATIVE_PATH_BYTES := by decide
    rw [album, validateRelativePath_wirePath (List.cons_ne_nil _ _)
      (by simpa using hname) (List.forall_mem_singleton.mpr (by omega)) (by simp)]
    simpa [wirePath] using hlength.trans hlimit
  simp only [ManifestEntry.validFields, hid, hpath]
  rfl

/-- Both sides take the entries. -/
theorem album_valid {n : Nat} (h : n < 257) (lineLength : ManifestEntry → Nat)
    (hline : lineLength (album n) = (albumJson n).length) :
    (album n).validate lineLength = true ∧ validateStored (album n) = true := by
  have hfields := album_validFields h
  have hordinal : (album n).ordinal ≤ MAX_WIRE_INTEGER := by
    have hwire : 257 ≤ MAX_WIRE_INTEGER := by decide
    exact h.le.trans hwire
  have hsize : (album n).size ≤ MAX_WIRE_INTEGER := Nat.zero_le _
  constructor
  · simp only [ManifestEntry.validFields, Bool.and_eq_true] at hfields
    obtain ⟨⟨⟨hid, hpath⟩, hkind⟩, hsha⟩ := hfields
    have hmime : (album n).mimeType = none := rfl
    simp only [ManifestEntry.validate, hordinal, hsize, hid, hpath, hkind, hmime, hsha, hline,
      length_albumJson h, decide_true, Option.all_none, Bool.and_self]
  · have hrange : (album n).InRange := ⟨hordinal, hsize, fun _ htime => by cases htime⟩
    have haccepted : Kotlin.validateEntry (album n) = true :=
      (Kotlin.validateEntry_iff hrange).mpr ⟨hfields, rfl⟩
    simp only [validateStored, haccepted, hordinal, hsize, decide_true, Bool.and_self]

/-- The batch of the computer, and the offer as the phone stores it. -/
def albumsBatch : StoredBatch :=
  { photosBatch with direction := .computerToPhone, directoryCount := 257 }

def albumsOffer : FileTransferBatch where
  batchId := "albums"
  pcId := "desktop"
  direction := .computerToPhone
  state := .waitingConfirmation
  createdAt := 0
  updatedAt := 0
  fileCount := 0
  directoryCount := 257
  totalBytes := 0

variable {json : EntryJson}

theorem mem_albums {entry : ManifestEntry} (h : entry ∈ albums) : ∃ n < 257, entry = album n := by
  obtain ⟨n, hn, rfl⟩ := List.mem_map.mp h
  exact ⟨n, List.mem_range.mp hn, rfl⟩

theorem exists_albumsJson : ∃ json : EntryJson, ∀ n < 257, json.encode (album n) = albumJson n := by
  obtain ⟨json, hjson⟩ := @exists_entryJson_lines albums (fun entry => albumJson entry.ordinal)
    (fun entry _ => (albumJson_line entry.ordinal).1)
    (fun entry _ => (albumJson_line entry.ordinal).2.1) (by
      intro entry hentry other hother heq
      obtain ⟨n, -, rfl⟩ := mem_albums hentry
      obtain ⟨m, -, rfl⟩ := mem_albums hother
      exact congrArg album (albumJson_injective heq))
  exact ⟨json, fun n hn => hjson (album n) (List.mem_map_of_mem (List.mem_range.mpr hn))⟩

theorem albums_complete (hjson : ∀ n < 257, json.encode (album n) = albumJson n) :
    Complete json albumsBatch albums := by
  have hlength : albums.length = 257 := by rw [albums, List.length_map, List.length_range]
  refine ⟨⟨?_, ?_, ?_⟩, ⟨?_, ?_, ?_⟩, ?_, ?_⟩
  · intro entry hentry
    obtain ⟨n, hn, rfl⟩ := mem_albums hentry
    exact (album_valid hn _ (by rw [EntryJson.lineLength, hjson n hn])).1
  · intro i hi
    simp [albums, album]
  · rw [albums, List.map_map]
    apply List.nodup_range.map
    intro n m h
    simp only [Function.comp_apply, album, Nat.toString_eq_ofList_toDigits, String.ofList_inj] at h
    exact digits_injective h
  · rw [List.countP_eq_zero.mpr]
    · rfl
    · intro entry hentry
      obtain ⟨n, -, rfl⟩ := mem_albums hentry
      simp [album]
  · rw [List.countP_eq_length.mpr, hlength]
    · rfl
    · intro entry hentry
      obtain ⟨n, -, rfl⟩ := mem_albums hentry
      rfl
  · apply List.sum_eq_zero
    intro size hsize
    obtain ⟨entry, hentry, rfl⟩ := List.mem_map.mp hsize
    obtain ⟨n, -, rfl⟩ := mem_albums hentry
    rfl
  · have hbytes : ∀ entries ⊆ albums, (manifestBytes json entries).length ≤
        entries.length * (MAX_MANIFEST_LINE_BYTES + 1) := by
      intro entries hentries
      induction entries with
      | nil => exact Nat.zero_le _
      | cons entry entries ih =>
        rw [List.cons_subset] at hentries
        have hrest := ih hentries.2
        obtain ⟨n, hn, rfl⟩ := mem_albums hentries.1
        have hline := length_albumJson hn
        rw [manifestBytes_cons, hjson n hn, List.length_append, List.length_cons, List.length_cons]
        linarith
    have hall := hbytes albums (List.Subset.refl _)
    rw [hlength] at hall
    exact hall.trans (by decide)
  · rw [hlength]
    decide

/-- The second page of the first download does not come; the second download goes on with it. -/
theorem manifest_download_albums : ∃ (json : EntryJson) (s : PhoneShelf) (b : PhoneBatch),
    (∀ n < 257, json.encode (album n) = albumJson n) ∧
    Machine.run step {} [.store 5 (.createBatch albumsOffer),
      .download fun start =>
        if start = 0 then
          fetchPage json (fun _ => photosDigest) albumsBatch albums json.decode start
        else .error "connection reset"] = some s ∧ s.batch = some b ∧
    b.entries.map (·.manifest) = albums.take 256 ∧
    (downloadManifest (fetchPage json (fun _ => photosDigest) albumsBatch albums json.decode)
      b).2 = .ok () ∧
    Whole albums
      (downloadManifest (fetchPage json (fun _ => photosDigest) albumsBatch albums json.decode)
        b).1 := by
  obtain ⟨json, hjson⟩ := exists_albumsJson
  have hlength : albums.length = 257 := by rw [albums, List.length_map, List.length_range]
  have hcomplete := albums_complete hjson
  have hreadable : Readable json albums json.decode := by
    refine ⟨fun entry _ => .inl (json.roundTrip entry), ?_⟩
    intro entry hentry
    obtain ⟨n, hn, rfl⟩ := mem_albums hentry
    rw [hjson n hn]
    exact ⟨List.ne_nil_of_mem (albumJson_line n).2.1, (albumJson_line n).2.2⟩
  let fetch : Nat → Except String ManifestPage := fun start =>
    if start = 0 then fetchPage json (fun _ => photosDigest) albumsBatch albums json.decode start
    else .error "connection reset"
  let created : PhoneBatch := { batch := { albumsOffer with createdAt := 5, updatedAt := 5 } }
  have hoffer : Machine.run step {} [.store 5 (.createBatch albumsOffer)] =
      some { batch := some created } := rfl
  have hacceptable : Acceptable json albumsBatch albums json.decode created := by
    refine ⟨rfl, rfl, rfl, Nat.zero_le _, ?_⟩
    intro entry hentry
    obtain ⟨n, hn, rfl⟩ := mem_albums hentry
    exact ⟨json.roundTrip _, (album_valid hn json.lineLength
      (by rw [EntryJson.lineLength, hjson n hn])).2⟩
  have hnone : ∀ other, .download other ∈ ([.store 5 (.createBatch albumsOffer)] : List Event) →
      Answers json (fun _ => photosDigest) albumsBatch albums json.decode other := by
    intro other hmem
    simp at hmem
  have hcreated : Copied albums created :=
    (manifest_download hcomplete hreadable hnone hoffer rfl).1
  -- the first page is appended, and the request for the second one fails
  have hfetch : fetch created.entries.length =
      fetchPage json (fun _ => photosDigest) albumsBatch albums json.decode
        created.entries.length := if_pos rfl
  obtain ⟨b, -, hbatch, hpage, hturn⟩ := downloadPages_turn _ hcomplete hreadable 256 hcreated
    hacceptable (by rw [hlength]; decide) hfetch
  rw [hlength] at hpage
  have hstored : b.entries.length = 256 := hpage
  have hexpected : expected b = 257 := by
    rw [expected, hbatch]
    rfl
  have hstop : downloadPages fetch 256 b.entries.length b = (b, .error "connection reset") := by
    rw [hstored, downloadPages, hexpected]
    rfl
  have hfirst : downloadManifest fetch created = (b, .error "connection reset") := by
    apply downloadManifest_error (Nat.zero_le _)
    have hcount : expected created - created.entries.length = 256 + 1 := by decide
    rw [hcount, hturn, hstop]
  have hrun : Machine.run step {} ([.store 5 (.createBatch albumsOffer)] ++ [.download fetch]) =
      some { batch := some b } := by
    rw [Machine.run_append, hoffer, Option.bind_some, Machine.run, step, Option.map_some, hfirst]
    rfl
  have hanswers : ∀ other,
      .download other ∈ ([.store 5 (.createBatch albumsOffer), .download fetch] : List Event) →
        Answers json (fun _ => photosDigest) albumsBatch albums json.decode other := by
    intro other hmem start page hother
    simp only [List.mem_cons, reduceCtorEq, Event.download.injEq, List.not_mem_nil, or_false,
      false_or] at hmem
    subst hmem
    dsimp only [fetch] at hother
    split_ifs at hother
    exact hother
  have hdownload := manifest_download hcomplete hreadable hanswers hrun rfl
  have hok := hdownload.2.2 (hacceptable.of_batch hbatch)
  have hfront := List.prefix_iff_eq_take.mp hdownload.1.front
  rw [List.length_map, hstored] at hfront
  exact ⟨json, _, b, hjson, hrun, rfl, hfront, hok, hdownload.2.1 _ (fun _ _ h => h) hok⟩

end Albums

end ManifestDownload

end FlowType
