import FlowType.ByteFiles
import FlowType.Runs
import FlowType.TargetMapping
import FlowType.UpdateManifest

/-! The download of a file in ranges. The phone asks for all that is behind its offset, Windows
cuts what it answers at 8 MiB, and the phone goes on until the file is whole. A download that was
stopped goes on with what is on the disk in front of the recorded offset. -/
namespace FlowType

open ByteFiles
open UpdateWorker (parseU64)

def MAX_RANGE_BYTES : Nat := 8 * 1024 * 1024

def splitOnce (mark : Char) (text : List Char) : Option (List Char × List Char) :=
  if mark ∈ text then some (text.takeWhile (· ≠ mark), (text.dropWhile (· ≠ mark)).tail) else none

def requestedEnd (text : List Char) (total : Nat) : Option Nat :=
  if text = [] then some (total - 1) else (parseU64 text).map fun n => min n (total - 1)

def parseRange (value : List Char) (total : Nat) : Option (Nat × Nat) :=
  if total = 0 ∨ "bytes=".toList.isPrefixOf value = false then none
  else
    (splitOnce '-' (value.drop "bytes=".length)).bind fun texts =>
      (parseU64 texts.1).bind fun start =>
        if total ≤ start then none
        else
          (requestedEnd texts.2 total).bind fun last =>
            if last < start then none
            -- `saturating_add`
            else some (start, min last (min (start + (MAX_RANGE_BYTES - 1)) (2 ^ 64 - 1)))

variable {value text : List Char} {total n offset : Nat} {range : Nat × Nat}

theorem parseU64_lt (h : parseU64 text = some n) : n < 2 ^ 64 := by
  unfold parseU64 at h
  extract_lets digits number at h
  split_ifs at h with _ hlt
  obtain rfl := Option.some.inj h
  exact hlt

/-- A number is read from its digits. -/
theorem parseU64_toDigits (h : n < 2 ^ 64) : parseU64 (Nat.toDigits 10 n) = some n := by
  have hdigits : ∀ c ∈ Nat.toDigits 10 n, c.isDigit = true :=
    fun c hc => Nat.isDigit_of_mem_toDigits (by decide) (by decide) hc
  have hnonempty : Nat.toDigits 10 n ≠ [] := List.length_pos_iff.1 Nat.length_toDigits_pos
  have hvalue : (Nat.toDigits 10 n).foldl (fun m c => 10 * m + (c.toNat - 48)) 0 = n := by
    have hread := @Nat.ofDigitChars_ten_toDigits n
    rw [Nat.ofDigitChars_eq_foldl] at hread
    exact hread
  simp only [parseU64]
  split
  · -- no number starts with a sign
    rename_i rest hsign
    have hplus := hdigits '+' (hsign ▸ List.mem_cons_self)
    exact absurd hplus (by decide)
  · rw [if_neg, hvalue, if_pos h]
    rw [not_or, not_not, List.all_eq_true]
    exact ⟨hnonempty, hdigits⟩

/-- `end - start + 1` in numbers of 64 bits. -/
def responseLength (range : Nat × Nat) : Nat := (range.2 + 2 ^ 64 - range.1 + 1) % 2 ^ 64

/-- A range that is parsed lies in the file and holds at most 8 MiB. -/
structure RangeWithin (total : Nat) (range : Nat × Nat) : Prop where
  ordered : range.1 ≤ range.2
  inside : range.2 < total
  short : range.2 - range.1 + 1 ≤ MAX_RANGE_BYTES

theorem requestedEnd_lt (htotal : 0 < total) (h : requestedEnd text total = some n) :
    n < total := by
  unfold requestedEnd at h
  split_ifs at h
  · obtain rfl := Option.some.inj h
    omega
  · obtain ⟨given, _, rfl⟩ := Option.map_eq_some_iff.1 h
    omega

theorem parseRange_within (h : parseRange value total = some range) : RangeWithin total range := by
  unfold parseRange at h
  split_ifs at h with hempty
  rw [not_or] at hempty
  obtain ⟨texts, _, h⟩ := Option.bind_eq_some_iff.1 h
  obtain ⟨start, hstart, h⟩ := Option.bind_eq_some_iff.1 h
  split_ifs at h with hinside
  obtain ⟨last, hend, h⟩ := Option.bind_eq_some_iff.1 h
  split_ifs at h with hordered
  obtain rfl := Option.some.inj h
  have hbound := parseU64_lt hstart
  have hlast := requestedEnd_lt (by omega) hend
  have hmax : MAX_RANGE_BYTES = 8388608 := rfl
  constructor
  · -- the cap of `saturating_add` is not below the start
    dsimp only
    omega
  · dsimp only
    omega
  · dsimp only
    omega

theorem RangeWithin.responseLength_eq (h : RangeWithin total range) (htotal : total < 2 ^ 64) :
    responseLength range = range.2 - range.1 + 1 := by
  obtain ⟨hordered, hinside, _⟩ := h
  have hsum : range.2 + 2 ^ 64 - range.1 + 1 = (range.2 - range.1 + 1) + 2 ^ 64 := by omega
  rw [responseLength, hsum, Nat.add_mod_right]
  exact Nat.mod_eq_of_lt (by omega)

/-- A file on the disk of the computer. -/
structure SourceFile where
  isSymlink : Bool := false
  isFile : Bool := true
  modifiedAt : Option Int := none
  content : List UInt8
  deriving DecidableEq, Repr

def sourceMatchesEntry (source : Option SourceFile) (entry : ManifestEntry) : Bool :=
  match source with
  | none => false
  | some source =>
    !source.isSymlink && source.isFile && source.content.length == entry.size &&
      entry.modifiedAt.all fun expected => source.modifiedAt == some expected

inductive RangeAnswer
  | partialContent (contentRange : String) (contentLength : Nat) (body : List UInt8)
  | refused (status : Nat) (code : String)
  deriving DecidableEq, Repr

def contentRange (first last total : Nat) : String :=
  "bytes " ++ toString first ++ "-" ++ toString last ++ "/" ++ toString total

/-- The answer to a GET of an entry: `sourcePath` is what the store has recorded for it. -/
def serveRange (sourcePath : Option (List Char)) (files : List Char → Option SourceFile)
    (entry : ManifestEntry) (header : Option (List Char)) : RangeAnswer :=
  match header.bind fun value => parseRange value entry.size with
  | none => .refused 416 "invalid_range"
  | some range =>
    match sourcePath with
    | none => .refused 404 "source_unavailable"
    | some path =>
      if sourceMatchesEntry (files path) entry = false then .refused 409 "source_changed"
      else
        match files path with
        | none => .refused 404 "source_unavailable"
        | some source =>
          let length := responseLength range
          let body := readAt source.content range.1 length
          -- `read_exact`
          if body.length ≠ length then .refused 409 "source_changed"
          else .partialContent (contentRange range.1 range.2 entry.size) length body

/-- The header `Range` of the phone. -/
def rangeHeader (offset : Nat) : List Char := "bytes=".toList ++ Nat.toDigits 10 offset ++ ['-']

/-- `downloadChunk`; `serve` is what the computer answers to a header. -/
def downloadChunk (entry : ManifestEntry) (offset : Nat)
    (serve : Option (List Char) → RangeAnswer) : Except String (List UInt8) :=
  if entry.size ≤ offset then .error "Failed requirement."
  else
    match serve (some (rangeHeader offset)) with
    | .refused _ code => .error ("file download failed: " ++ code)
    | .partialContent range _ body =>
      if MAX_RANGE_BYTES < body.length then .error "file chunk too large"
      else if body = [] ∨ entry.size < offset + body.length then .error "invalid file chunk"
      else if range ≠ contentRange offset (offset + body.length - 1) entry.size then
        .error "invalid file range"
      else .ok body

/-- The source is as it was when its entry was written to the manifest. -/
structure UnchangedSource (sourcePath : Option (List Char)) (files : List Char → Option SourceFile)
    (entry : ManifestEntry) (content : List UInt8) : Prop where
  size : entry.size ≤ MAX_WIRE_INTEGER
  served : ∃ path source, sourcePath = some path ∧ files path = some source ∧
    sourceMatchesEntry (some source) entry = true ∧ source.content = content

variable {sourcePath : Option (List Char)} {files : List Char → Option SourceFile}
  {entry : ManifestEntry} {content : List UInt8}

theorem UnchangedSource.length (h : UnchangedSource sourcePath files entry content) :
    content.length = entry.size := by
  obtain ⟨_, source, _, _, hmatches, rfl⟩ := h.served
  simp only [sourceMatchesEntry, Bool.and_eq_true, beq_iff_eq] at hmatches
  exact hmatches.1.2

/-- The phone asks for all that is behind its offset and gets up to 8 MiB of it. -/
theorem parseRange_rangeHeader (hoffset : offset < total) (htotal : total < 2 ^ 64) :
    parseRange (rangeHeader offset) total =
      some (offset, min (total - 1) (offset + (MAX_RANGE_BYTES - 1))) := by
  have hdash : '-' ∉ Nat.toDigits 10 offset := by
    intro hmem
    have hdigit := Nat.isDigit_of_mem_toDigits (by decide) (by decide) hmem
    exact absurd hdigit (by decide)
  have hsplit : splitOnce '-' (Nat.toDigits 10 offset ++ ['-']) =
      some (Nat.toDigits 10 offset, []) := by
    have hall : ∀ c ∈ Nat.toDigits 10 offset, decide (c ≠ '-') = true := by
      intro c hc
      have hne : c ≠ '-' := fun heq => hdash (heq ▸ hc)
      simpa using hne
    rw [splitOnce, if_pos (by simp), List.takeWhile_append_of_pos hall,
      List.dropWhile_append_of_pos hall]
    simp
  have hheader : rangeHeader offset = "bytes=".toList ++ (Nat.toDigits 10 offset ++ ['-']) :=
    List.append_assoc _ _ _
  have hstart : "bytes=".toList.isPrefixOf (rangeHeader offset) = true :=
    List.isPrefixOf_iff_prefix.2 (hheader ▸ List.prefix_append _ _)
  have hrest : (rangeHeader offset).drop "bytes=".length = Nat.toDigits 10 offset ++ ['-'] := by
    simp only [hheader]
    exact List.drop_left' rfl
  have hcap : min (total - 1) (min (offset + (MAX_RANGE_BYTES - 1)) (2 ^ 64 - 1)) =
      min (total - 1) (offset + (MAX_RANGE_BYTES - 1)) := by
    have hbelow : total - 1 ≤ 2 ^ 64 - 1 := by omega
    rw [min_left_comm, min_eq_left hbelow, min_comm]
  have hnonempty : ¬(total = 0 ∨ "bytes=".toList.isPrefixOf (rangeHeader offset) = false) := by
    rw [hstart, not_or]
    exact ⟨by omega, Bool.true_eq_false_eq_False⟩
  have hnumber := parseU64_toDigits (hoffset.trans htotal)
  have hlast : requestedEnd [] total = some (total - 1) := if_pos rfl
  have hbegin : ¬total ≤ offset := not_le.2 hoffset
  have hordered : ¬total - 1 < offset := by omega
  simp only [parseRange, if_neg hnonempty, hrest, hsplit, Option.bind_some, hnumber, hlast,
    if_neg hbegin, if_neg hordered, hcap]

theorem downloadChunk_unchanged (h : UnchangedSource sourcePath files entry content)
    (hoffset : offset < entry.size) :
    downloadChunk entry offset (serveRange sourcePath files entry) =
      .ok (readAt content offset MAX_RANGE_BYTES) := by
  obtain ⟨path, source, hpath, hfile, hmatches, rfl⟩ := h.served
  have hsize := h.size
  have hlength := h.length
  have hmax : MAX_RANGE_BYTES = 8388608 := rfl
  have hwire : MAX_WIRE_INTEGER = 9223372036854775807 := rfl
  have hparse := @parseRange_rangeHeader entry.size offset hoffset (by omega)
  have hwithin := parseRange_within hparse
  have hresponse := hwithin.responseLength_eq (by omega)
  generalize hlast : min (entry.size - 1) (offset + (MAX_RANGE_BYTES - 1)) = last
    at hparse hwithin hresponse
  obtain ⟨hordered, hinside, hshort⟩ := hwithin
  dsimp only at hordered hinside hshort hresponse
  -- up to the end of the range, the file or 8 MiB is the same here
  have hbody : readAt source.content offset (last - offset + 1) =
      readAt source.content offset MAX_RANGE_BYTES := by
    rw [readAt, readAt, List.take_eq_take_iff, List.length_drop]
    omega
  have hread : (readAt source.content offset (last - offset + 1)).length = last - offset + 1 := by
    rw [readAt, List.length_take, List.length_drop]
    omega
  have hserve : serveRange sourcePath files entry (some (rangeHeader offset)) =
      .partialContent (contentRange offset last entry.size) (last - offset + 1)
        (readAt source.content offset (last - offset + 1)) := by
    simp only [serveRange, Option.bind_some, hparse, hpath, hfile, hmatches, hresponse, hread]
    simp
  have hnonempty : readAt source.content offset (last - offset + 1) ≠ [] := by
    rw [← List.length_pos_iff, hread]
    omega
  have hend : offset + (last - offset + 1) - 1 = last := by omega
  rw [downloadChunk, if_neg (by omega), hserve]
  dsimp only
  rw [hread, hend, if_neg (by omega), if_neg (by rw [not_or]; exact ⟨hnonempty, by omega⟩),
    if_neg (by simp), hbody]

/-- Where `downloadEntry` is. `digested` is what its digest has seen. -/
inductive DownloadPhase
  | idle
  | opened
  | truncated (offset : Nat)
  | recording (offset : Nat) (digested : List UInt8)
  | fetching (offset : Nat) (digested : List UInt8)
  | writing (offset : Nat) (digested bytes : List UInt8) (written : Nat)
  | verifying (hash : String)
  deriving DecidableEq, Repr

/-- The target file, the offset that is recorded for it and the call of `downloadEntry`. -/
structure Download where
  target : List UInt8 := []
  committedOffset : Nat := 0
  phase : DownloadPhase := .idle
  deriving DecidableEq, Repr

/-- `write` stands for a `channel.write` that takes `count` bytes and leaves some. `interrupt`
stands for an error, a cancellation or a crash, after which `left` is in the file. -/
inductive DownloadEvent
  | go
  | write (count : Nat)
  | interrupt (left : List UInt8)
  deriving DecidableEq, Repr

namespace Download

variable (digest : List UInt8 → String) (entry : ManifestEntry)
  (serve : Option (List Char) → RangeAnswer)

/-- What is in front of the recorded offset was forced to the disk before it was recorded. The
rest may be anything, and the file may be shorter than it is recorded. -/
def LeftBy (s : Download) (left : List UInt8) : Prop :=
  left.length < s.committedOffset ∨
    left.take s.committedOffset = s.target.take s.committedOffset

instance (s : Download) (left : List UInt8) : Decidable (s.LeftBy left) :=
  inferInstanceAs (Decidable (_ ∨ _))

/-- One step of `downloadEntry` up to the verification. -/
def go (s : Download) : Option Download :=
  match s.phase with
  | .idle => some { s with phase := .opened }
  | .opened =>
    let offset := if s.target.length < s.committedOffset then 0 else s.committedOffset
    let target := if s.target.length ≠ offset then s.target.take offset else s.target
    some { s with target, phase := .truncated offset }
  | .truncated offset =>
    let read := s.target.take offset
    -- "partial file became shorter"
    if read.length < offset then some { s with phase := .idle }
    else some { s with phase := .recording offset read }
  | .recording offset digested =>
    -- `updateEntryProgress`
    if offset ≤ entry.size ∧ (s.committedOffset ≤ offset ∨ offset = 0) then
      some { s with committedOffset := offset, phase := .fetching offset digested }
    else some { s with phase := .idle }
  | .fetching offset digested =>
    if offset < entry.size then
      match downloadChunk entry offset serve with
      | .error _ => some { s with phase := .idle }
      | .ok bytes => some { s with phase := .writing offset digested bytes 0 }
    else some { s with phase := .verifying (digest digested) }
  | .writing offset digested bytes written =>
    some { s with
      target := writeAt s.target (offset + written) (bytes.drop written)
      phase := .recording (offset + bytes.length) (digested ++ bytes) }
  | .verifying _ => none

def step (s : Download) : DownloadEvent → Option Download
  | .go => s.go digest entry serve
  | .write count =>
    match s.phase with
    | .writing offset digested bytes written =>
      if written + count < bytes.length then
        some { s with
          target := writeAt s.target (offset + written) ((bytes.drop written).take count)
          phase := .writing offset digested bytes (written + count) }
      else none
    | _ => none
  | .interrupt left =>
    if s.LeftBy left then some { s with target := left, phase := .idle } else none

/-- The recorded offset stands for what the target has of the content, or the target is too
short for it, as after a crash. -/
def Resumable (content : List UInt8) (s : Download) : Prop :=
  s.target.length < s.committedOffset ∨
    s.target.take s.committedOffset = content.take s.committedOffset

/-- What is taken over of a target. -/
def kept (s : Download) : List UInt8 :=
  if s.target.length < s.committedOffset then [] else s.target.take s.committedOffset

/-- What a call has digested is what is in the target in front of its offset. -/
structure Sound (digest : List UInt8 → String) (entry : ManifestEntry) (content : List UInt8)
    (s : Download) : Prop where
  committed : s.committedOffset ≤ entry.size
  phase : match s.phase with
    | .idle => True
    | .opened => True
    | .truncated offset => s.target.length = offset ∧ offset ≤ entry.size ∧
        (s.committedOffset ≤ offset ∨ offset = 0)
    | .recording offset digested => digested = s.target ∧ s.target.length = offset ∧
        offset ≤ entry.size ∧ (s.committedOffset ≤ offset ∨ offset = 0)
    | .fetching offset digested => digested = s.target ∧ s.target.length = offset ∧
        s.committedOffset = offset
    | .writing offset digested bytes written => s.target = digested ++ bytes.take written ∧
        digested.length = offset ∧ s.committedOffset = offset ∧ offset < entry.size ∧
        bytes = readAt content offset MAX_RANGE_BYTES ∧ written ≤ bytes.length
    | .verifying hash => s.target.length = entry.size ∧ hash = digest s.target

def FrontOf (content : List UInt8) (s : Download) : Prop :=
  match s.phase with
  | .idle => s.Resumable content
  | .opened => s.Resumable content
  | _ => s.target <+: content

variable {digest : List UInt8 → String} {entry : ManifestEntry} {content : List UInt8}
  {sourcePath : Option (List Char)} {files : List Char → Option SourceFile} {s t : Download}
  {offset : Nat} {digested : List UInt8}

theorem resumable_of_prefix (h : s.target <+: content) : s.Resumable content := by
  obtain ⟨rest, rfl⟩ := h
  rcases lt_or_ge s.target.length s.committedOffset with hshort | hlong
  · exact .inl hshort
  · right
    rw [List.take_append_of_le_length hlong]

theorem FrontOf.resumable (h : s.FrontOf content) : s.Resumable content := by
  unfold FrontOf at h
  split at h
  · exact h
  · exact h
  · exact resumable_of_prefix h

theorem Resumable.of_leftBy {left : List UInt8} (h : s.Resumable content) (hleft : s.LeftBy left) :
    Resumable content { s with target := left, phase := .idle } := by
  rcases hleft with hshort | hsame
  · exact .inl hshort
  · rcases h with hold | hold
    · -- the target was too short, and it is so still
      left
      have hlength := congrArg List.length hsame
      rw [List.length_take, List.length_take] at hlength
      dsimp only
      omega
    · exact .inr (hsame.trans hold)

theorem kept_length_le (s : Download) : s.kept.length ≤ s.committedOffset := by
  unfold kept
  split_ifs
  · exact Nat.zero_le _
  · rw [List.length_take]
    exact min_le_left _ _

theorem Resumable.kept_prefix (h : s.Resumable content) : s.kept <+: content := by
  unfold kept
  split_ifs with hshort
  · exact List.nil_prefix
  · rcases h with hold | hold
    · exact absurd hold hshort
    · rw [hold]
      exact List.take_prefix _ _

/-- Behind the offset comes what one answer holds and then the rest. -/
theorem drop_eq_chunk (content : List UInt8) (offset : Nat) :
    content.drop offset = readAt content offset MAX_RANGE_BYTES ++
      content.drop (offset + (readAt content offset MAX_RANGE_BYTES).length) := by
  have hrest : content.drop (offset + (readAt content offset MAX_RANGE_BYTES).length) =
      (content.drop offset).drop MAX_RANGE_BYTES := by
    rw [List.drop_drop, readAt, List.length_take, List.length_drop]
    rcases le_total MAX_RANGE_BYTES (content.length - offset) with hle | hle
    · rw [min_eq_left hle]
    · rw [min_eq_right hle, List.drop_eq_nil_of_le (by omega), List.drop_eq_nil_of_le (by omega)]
  rw [hrest, readAt, List.take_append_drop]

theorem chunk_pos (hoffset : offset < content.length) :
    0 < (readAt content offset MAX_RANGE_BYTES).length := by
  have hmax : 0 < MAX_RANGE_BYTES := by decide
  rw [readAt, List.length_take, List.length_drop]
  omega

theorem chunk_le (content : List UInt8) (hoffset : offset ≤ content.length) :
    offset + (readAt content offset MAX_RANGE_BYTES).length ≤ content.length := by
  rw [readAt, List.length_take, List.length_drop]
  omega

/-- Once around the loop: an answer is fetched, written, and its end recorded. -/
theorem go_around (h : UnchangedSource sourcePath files entry content)
    (hphase : s.phase = .fetching offset s.target) (hlength : s.target.length = offset)
    (hcommitted : s.committedOffset = offset) (hoffset : offset < entry.size) :
    Machine.run (step digest entry (serveRange sourcePath files entry)) s [.go, .go, .go] =
      some {
        target := s.target ++ readAt content offset MAX_RANGE_BYTES
        committedOffset := offset + (readAt content offset MAX_RANGE_BYTES).length
        phase := .fetching (offset + (readAt content offset MAX_RANGE_BYTES).length)
          (s.target ++ readAt content offset MAX_RANGE_BYTES) } := by
  have hend := chunk_le content (h.length.symm ▸ hoffset.le)
  rw [h.length] at hend
  have hwrite : writeAt s.target (offset + 0) ((readAt content offset MAX_RANGE_BYTES).drop 0) =
      s.target ++ readAt content offset MAX_RANGE_BYTES := by
    rw [writeAt_end (by omega), List.drop_zero]
  have hrecord : offset + (readAt content offset MAX_RANGE_BYTES).length ≤ entry.size ∧
      (s.committedOffset ≤ offset + (readAt content offset MAX_RANGE_BYTES).length ∨
        offset + (readAt content offset MAX_RANGE_BYTES).length = 0) :=
    ⟨hend, .inl (by omega)⟩
  simp only [Machine.run, step, go, hphase, if_pos hoffset, downloadChunk_unchanged h hoffset,
    Option.bind_some, hwrite, if_pos hrecord]

/-- The loop ends, with all of the content behind the offset in the target. -/
theorem go_loop (h : UnchangedSource sourcePath files entry content) (s : Download) (offset : Nat)
    (hphase : s.phase = .fetching offset s.target) (hlength : s.target.length = offset)
    (hcommitted : s.committedOffset = offset) (hoffset : offset ≤ entry.size) :
    ∃ n ≤ 3 * (entry.size - offset) + 1,
      Machine.run (step digest entry (serveRange sourcePath files entry)) s
        (List.replicate n .go) = some {
          target := s.target ++ content.drop offset
          committedOffset := entry.size
          phase := .verifying (digest (s.target ++ content.drop offset)) } := by
  -- each turn leaves less of the content
  induction hleft : entry.size - offset using Nat.strong_induction_on generalizing s offset with
  | _ left ih =>
    rcases Nat.lt_or_ge offset entry.size with hlt | hge
    · have hpos := chunk_pos (h.length.symm ▸ hlt)
      have hend := chunk_le content (h.length.symm ▸ hoffset)
      rw [h.length] at hend
      have haround := @go_around digest entry content sourcePath files s offset h hphase hlength
        hcommitted hlt
      obtain ⟨n, hn, hrun⟩ := ih _ (by omega) {
          target := s.target ++ readAt content offset MAX_RANGE_BYTES
          committedOffset := offset + (readAt content offset MAX_RANGE_BYTES).length
          phase := .fetching (offset + (readAt content offset MAX_RANGE_BYTES).length)
            (s.target ++ readAt content offset MAX_RANGE_BYTES) }
        (offset + (readAt content offset MAX_RANGE_BYTES).length) rfl
        (by rw [List.length_append, hlength]) rfl hend rfl
      refine ⟨3 + n, by omega, ?_⟩
      have hevents : List.replicate (3 + n) DownloadEvent.go =
          [.go, .go, .go] ++ List.replicate n .go := by
        rw [← List.replicate_append_replicate]
        rfl
      rw [hevents, Machine.run_append, haround, Option.bind_some, hrun]
      dsimp only
      rw [List.append_assoc, ← drop_eq_chunk]
    · have hall : offset = entry.size := by omega
      refine ⟨1, by omega, ?_⟩
      have hnothing : content.drop offset = [] := by
        rw [List.drop_eq_nil_iff, h.length]
        exact hge
      rw [List.replicate_one, hnothing, List.append_nil]
      simp only [Machine.run, step, go, hphase, hcommitted, hall, lt_irrefl, if_false,
        Option.bind_some]

/-- From every recorded offset and every target file the call comes to the verification. -/
theorem go_ends (h : UnchangedSource sourcePath files entry content) (s : Download)
    (hphase : s.phase = .idle) (hcommitted : s.committedOffset ≤ entry.size) :
    ∃ n ≤ 3 * entry.size + 5,
      Machine.run (step digest entry (serveRange sourcePath files entry)) s
        (List.replicate n .go) = some {
          target := s.kept ++ content.drop s.kept.length
          committedOffset := entry.size
          phase := .verifying (digest (s.kept ++ content.drop s.kept.length)) } := by
  have hlength : s.kept.length =
      if s.target.length < s.committedOffset then 0 else s.committedOffset := by
    unfold kept
    split_ifs with hshort
    · rfl
    · rw [List.length_take]
      omega
  have hkept : (if s.target.length ≠ s.kept.length then s.target.take s.kept.length
      else s.target) = s.kept := by
    have htake : s.target.take s.kept.length = s.kept := by
      rw [hlength]
      unfold kept
      split_ifs
      · rfl
      · rfl
    split_ifs with hsame
    · exact htake
    · rw [not_not] at hsame
      rw [← htake, ← hsame, List.take_length]
  have hle := kept_length_le s
  have hrecord : s.kept.length ≤ entry.size ∧
      (s.committedOffset ≤ s.kept.length ∨ s.kept.length = 0) := by
    refine ⟨by omega, ?_⟩
    rw [hlength]
    split_ifs
    · exact .inr rfl
    · exact .inl le_rfl
  have hopen : Machine.run (step digest entry (serveRange sourcePath files entry)) s
      [.go, .go, .go, .go] = some {
        target := s.kept
        committedOffset := s.kept.length
        phase := .fetching s.kept.length s.kept } := by
    simp only [Machine.run, step, go, hphase, Option.bind_some, ← hlength, hkept, List.take_length,
      lt_irrefl, if_false, if_pos hrecord]
  obtain ⟨n, hn, hrun⟩ := @go_loop digest entry content sourcePath files h
    { target := s.kept, committedOffset := s.kept.length, phase := .fetching s.kept.length s.kept }
    s.kept.length rfl rfl rfl hrecord.1
  refine ⟨4 + n, by omega, ?_⟩
  have hevents : List.replicate (4 + n) DownloadEvent.go =
      [.go, .go, .go, .go] ++ List.replicate n .go := by
    rw [← List.replicate_append_replicate]
    rfl
  rw [hevents, Machine.run_append, hopen, Option.bind_some, hrun]

/-- With a target that has a front part of the content, that is the content. -/
theorem kept_append_drop (h : s.Resumable content) :
    s.kept ++ content.drop s.kept.length = content := by
  obtain ⟨rest, hrest⟩ := h.kept_prefix
  rw [← hrest, List.drop_left]

/-- The next bytes of a chunk follow those that are written. -/
theorem writeAt_chunk {target digested bytes data : List UInt8} {offset written : Nat}
    (htarget : target = digested ++ bytes.take written) (hlength : digested.length = offset)
    (hwritten : written ≤ bytes.length) :
    writeAt target (offset + written) data = digested ++ (bytes.take written ++ data) := by
  have hplace : offset + written = target.length := by
    rw [htarget, List.length_append, List.length_take]
    omega
  rw [writeAt_end hplace, htarget, List.append_assoc]

theorem Sound.go (h : UnchangedSource sourcePath files entry content)
    (hs : s.Sound digest entry content)
    (hstep : s.go digest entry (serveRange sourcePath files entry) = some t) :
    t.Sound digest entry content := by
  obtain ⟨hcommitted, hphase⟩ := hs
  unfold Download.go at hstep
  cases hp : s.phase with
  | idle =>
    simp only [hp] at hstep
    obtain rfl := Option.some.inj hstep
    exact ⟨hcommitted, trivial⟩
  | opened =>
    simp only [hp] at hstep
    obtain rfl := Option.some.inj hstep
    refine ⟨hcommitted, ?_⟩
    dsimp only
    split_ifs with hshort hlong hlong
    · exact ⟨by simp, Nat.zero_le _, .inr rfl⟩
    · exact ⟨not_not.1 hlong, Nat.zero_le _, .inr rfl⟩
    · refine ⟨?_, hcommitted, .inl le_rfl⟩
      rw [List.length_take]
      omega
    · exact ⟨not_not.1 hlong, hcommitted, .inl le_rfl⟩
  | truncated offset =>
    simp only [hp] at hstep hphase
    obtain ⟨hlength, hle, hor⟩ := hphase
    have hall : s.target.take offset = s.target := by rw [← hlength, List.take_length]
    rw [hall, hlength, if_neg (lt_irrefl _)] at hstep
    obtain rfl := Option.some.inj hstep
    exact ⟨hcommitted, rfl, hlength, hle, hor⟩
  | recording offset digested =>
    simp only [hp] at hstep hphase
    obtain ⟨hdigested, hlength, hle, hor⟩ := hphase
    rw [if_pos ⟨hle, hor⟩] at hstep
    obtain rfl := Option.some.inj hstep
    exact ⟨hle, hdigested, hlength, rfl⟩
  | fetching offset digested =>
    simp only [hp] at hstep hphase
    obtain ⟨hdigested, hlength, hoffset⟩ := hphase
    split_ifs at hstep with hlt
    · rw [downloadChunk_unchanged h hlt] at hstep
      obtain rfl := Option.some.inj hstep
      refine ⟨hcommitted, ?_, hdigested ▸ hlength, hoffset, hlt, rfl, Nat.zero_le _⟩
      rw [List.take_zero, List.append_nil, hdigested]
    · obtain rfl := Option.some.inj hstep
      have hall : s.target.length = entry.size := by omega
      exact ⟨hcommitted, hall, by rw [hdigested]⟩
  | writing offset digested bytes written =>
    simp only [hp] at hstep hphase
    obtain ⟨htarget, hlength, hoffset, hlt, hbytes, hwritten⟩ := hphase
    obtain rfl := Option.some.inj hstep
    have hwhole : writeAt s.target (offset + written) (bytes.drop written) =
        digested ++ bytes := by
      rw [writeAt_chunk htarget hlength hwritten, List.take_append_drop]
    have hend := chunk_le content (h.length.symm ▸ hlt.le)
    rw [h.length, ← hbytes] at hend
    refine ⟨hcommitted, hwhole.symm, ?_, hend, .inl ?_⟩
    · dsimp only
      rw [hwhole, List.length_append, hlength]
    · dsimp only
      omega
  | verifying hash =>
    simp only [hp] at hstep
    cases hstep

theorem Sound.step (h : UnchangedSource sourcePath files entry content)
    (hs : s.Sound digest entry content) (e : DownloadEvent)
    (hstep : s.step digest entry (serveRange sourcePath files entry) e = some t) :
    t.Sound digest entry content := by
  cases e with
  | go => exact hs.go h hstep
  | write count =>
    simp only [Download.step] at hstep
    split at hstep
    · rename_i offset digested bytes written hp
      obtain ⟨hcommitted, hphase⟩ := hs
      rw [hp] at hphase
      obtain ⟨htarget, hlength, hoffset, hlt, hbytes, hwritten⟩ := hphase
      split_ifs at hstep with hcount
      obtain rfl := Option.some.inj hstep
      refine ⟨hcommitted, ?_, hlength, hoffset, hlt, hbytes, hcount.le⟩
      dsimp only
      rw [writeAt_chunk htarget hlength hwritten, List.take_add]
    · cases hstep
  | interrupt left =>
    simp only [Download.step] at hstep
    split_ifs at hstep
    obtain rfl := Option.some.inj hstep
    exact ⟨hs.committed, trivial⟩

/-- Written behind a front part of the content, an answer gives a longer one. -/
theorem front_append {written : List UInt8} (hfront : digested <+: content)
    (hlength : digested.length = offset) (hwritten : written <+: readAt content offset
      MAX_RANGE_BYTES) : digested ++ written <+: content := by
  obtain ⟨rest, rfl⟩ := hfront
  have hbehind : (digested ++ rest).drop offset = rest := List.drop_left' hlength
  rw [List.prefix_append_right_inj]
  apply hwritten.trans
  simp only [readAt, hbehind]
  exact List.take_prefix _ _

theorem FrontOf.go (h : UnchangedSource sourcePath files entry content)
    (hs : s.Sound digest entry content) (hf : s.FrontOf content)
    (hstep : s.go digest entry (serveRange sourcePath files entry) = some t) :
    t.FrontOf content := by
  have hphase := hs.phase
  unfold Download.go at hstep
  unfold FrontOf at hf
  cases hp : s.phase with
  | idle =>
    simp only [hp] at hstep hf
    obtain rfl := Option.some.inj hstep
    exact hf
  | opened =>
    simp only [hp] at hstep hf
    obtain rfl := Option.some.inj hstep
    have hkept := hf.kept_prefix
    unfold kept at hkept
    simp only [FrontOf]
    split_ifs with hshort hlong hlong
    · exact List.nil_prefix
    · rw [List.length_eq_zero_iff.1 (not_not.1 hlong)]
      exact List.nil_prefix
    · rwa [if_neg hshort] at hkept
    · rw [if_neg hshort] at hkept
      rwa [← not_not.1 hlong, List.take_length] at hkept
  | truncated offset =>
    simp only [hp] at hstep hf
    split_ifs at hstep <;> obtain rfl := Option.some.inj hstep
    · exact resumable_of_prefix hf
    · exact hf
  | recording offset digested =>
    simp only [hp] at hstep hf
    split_ifs at hstep <;> obtain rfl := Option.some.inj hstep
    · exact hf
    · exact resumable_of_prefix hf
  | fetching offset digested =>
    simp only [hp] at hstep hf
    split_ifs at hstep with hlt
    · rw [downloadChunk_unchanged h hlt] at hstep
      obtain rfl := Option.some.inj hstep
      exact hf
    · obtain rfl := Option.some.inj hstep
      exact hf
  | writing offset digested bytes written =>
    simp only [hp] at hstep hf hphase
    obtain ⟨htarget, hlength, -, -, hbytes, hwritten⟩ := hphase
    obtain rfl := Option.some.inj hstep
    simp only [FrontOf]
    rw [writeAt_chunk htarget hlength hwritten, List.take_append_drop, hbytes]
    rw [htarget] at hf
    exact front_append ((List.prefix_append _ _).trans hf) hlength List.prefix_rfl
  | verifying hash =>
    simp only [hp] at hstep
    cases hstep

theorem FrontOf.step (h : UnchangedSource sourcePath files entry content)
    (hs : s.Sound digest entry content) (hf : s.FrontOf content) (e : DownloadEvent)
    (hstep : s.step digest entry (serveRange sourcePath files entry) e = some t) :
    t.FrontOf content := by
  cases e with
  | go => exact hf.go h hs hstep
  | write count =>
    simp only [Download.step] at hstep
    split at hstep
    · rename_i offset digested bytes written hp
      have hphase := hs.phase
      unfold FrontOf at hf
      simp only [hp] at hf hphase
      obtain ⟨htarget, hlength, -, -, hbytes, hwritten⟩ := hphase
      split_ifs at hstep with hcount
      obtain rfl := Option.some.inj hstep
      simp only [FrontOf]
      rw [writeAt_chunk htarget hlength hwritten, ← List.take_add, hbytes]
      rw [htarget] at hf
      exact front_append ((List.prefix_append _ _).trans hf) hlength (List.take_prefix _ _)
    · cases hstep
  | interrupt left =>
    simp only [Download.step] at hstep
    split_ifs at hstep with hleft
    obtain rfl := Option.some.inj hstep
    exact hf.resumable.of_leftBy hleft

/-- A turn of the loop comes further in the file and records how far. -/
def Advances (digest : List UInt8 → String) (entry : ManifestEntry)
    (serve : Option (List Char) → RangeAnswer) (s : Download) : Prop :=
  ∀ offset digested, s.phase = .fetching offset digested → offset < entry.size →
    ∃ offset' digested' t, Machine.run (step digest entry serve) s [.go, .go, .go] = some t ∧
      t.phase = .fetching offset' digested' ∧ t.committedOffset = offset' ∧
      offset < offset' ∧ offset' ≤ entry.size

/-- What is verified is the content of the source, under its digest. -/
structure Reassembles (digest : List UInt8 → String) (content : List UInt8) (s : Download) :
    Prop where
  resumable : s.Resumable content
  verified : ∀ hash, s.phase = .verifying hash → s.target = content ∧ hash = digest content

theorem Sound.advances (h : UnchangedSource sourcePath files entry content)
    (hs : s.Sound digest entry content) :
    s.Advances digest entry (serveRange sourcePath files entry) := by
  intro offset digested hp hlt
  have hphase := hs.phase
  simp only [hp] at hphase
  obtain ⟨rfl, hlength, hcommitted⟩ := hphase
  have hpos := chunk_pos (h.length.symm ▸ hlt)
  have hend := chunk_le content (h.length.symm ▸ hlt.le)
  rw [h.length] at hend
  exact ⟨_, _, _, go_around h hp hlength hcommitted hlt, rfl, rfl, by omega, hend⟩

theorem reassembles (h : UnchangedSource sourcePath files entry content)
    (hs : s.Sound digest entry content) (hf : s.FrontOf content) :
    s.Reassembles digest content := by
  refine ⟨hf.resumable, ?_⟩
  intro hash hp
  have hphase := hs.phase
  unfold FrontOf at hf
  simp only [hp] at hf hphase
  have hwhole : s.target = content := by
    apply hf.eq_of_length
    rw [hphase.1, h.length]
  exact ⟨hwhole, hwhole ▸ hphase.2⟩

end Download

open Download in
/-- Every range that is parsed is within the file and at most 8 MiB, and its length is that of
the answer. While the source is unchanged, a download comes to its verification from every
recorded offset and every target, with every turn of its loop further in the file; and with a
target that earlier calls have left, interrupted anywhere, what is verified is the source. -/
theorem rangedDownload_reassembles (digest : List UInt8 → String)
    (sourcePath : Option (List Char)) (files : List Char → Option SourceFile)
    (entry : ManifestEntry) (content : List UInt8) :
    (∀ value total range, total < 2 ^ 64 → parseRange value total = some range →
      RangeWithin total range ∧ responseLength range = range.2 - range.1 + 1) ∧
    (UnchangedSource sourcePath files entry content → ∀ s : Download, s.phase = .idle →
      s.committedOffset ≤ entry.size →
      (∃ n ≤ 3 * entry.size + 5,
        Machine.run (step digest entry (serveRange sourcePath files entry)) s
          (List.replicate n .go) = some {
            target := s.kept ++ content.drop s.kept.length
            committedOffset := entry.size
            phase := .verifying (digest (s.kept ++ content.drop s.kept.length)) }) ∧
      (s.Resumable content → s.kept ++ content.drop s.kept.length = content) ∧
      ∀ es, Machine.Always (step digest entry (serveRange sourcePath files entry))
          (fun t => t.committedOffset ≤ entry.size ∧
            Advances digest entry (serveRange sourcePath files entry) t) s es ∧
        (s.Resumable content →
          Machine.Always (step digest entry (serveRange sourcePath files entry))
            (Reassembles digest content) s es)) := by
  refine ⟨?_, ?_⟩
  · intro value total range htotal hparse
    have hwithin := parseRange_within hparse
    exact ⟨hwithin, hwithin.responseLength_eq htotal⟩
  · intro h s hidle hcommitted
    have hsound : s.Sound digest entry content := ⟨hcommitted, by rw [hidle]; trivial⟩
    refine ⟨go_ends h s hidle hcommitted, kept_append_drop, ?_⟩
    intro es
    constructor
    · apply Machine.always_of_invariant (fun t => t.Sound digest entry content) es hsound
      · intro t ht
        exact ⟨ht.committed, ht.advances h⟩
      · intro t e u ht hstep
        exact ht.step h e hstep
    · intro hresumable
      have hfront : s.FrontOf content := by
        rw [FrontOf, hidle]
        exact hresumable
      apply Machine.always_of_invariant
        (fun t => t.Sound digest entry content ∧ t.FrontOf content) es ⟨hsound, hfront⟩
      · intro t ht
        exact reassembles h ht.1 ht.2
      · intro t e u ht hstep
        exact ⟨ht.1.step h e hstep, ht.2.step h ht.1 e hstep⟩

/-- A file of ten bytes more than one answer holds. -/
def videoContent : List UInt8 := (List.range (MAX_RANGE_BYTES + 10)).map UInt8.ofNat

def video : ManifestEntry where
  ordinal := 0
  entryId := "v"
  relativePath := "video".toList
  kind := .file
  size := MAX_RANGE_BYTES + 10

def videoFiles (path : List Char) : Option SourceFile :=
  if path = "video".toList then some { content := videoContent } else none

def videoDigest : String :=
  "7408708fc251b8fc3fc1d07dbedf62e2b359572f13da32aa6b7b766c5a66b606"

theorem length_videoContent : videoContent.length = video.size := by
  simp only [videoContent, video, List.length_map, List.length_range]

theorem video_unchanged :
    UnchangedSource (some "video".toList) videoFiles video videoContent := by
  have hsize : video.size ≤ MAX_WIRE_INTEGER := by decide
  have hmatches : sourceMatchesEntry (some { content := videoContent }) video = true := by
    have hmodified : video.modifiedAt = none := rfl
    simp [sourceMatchesEntry, length_videoContent, hmodified]
  refine ⟨hsize, "video".toList, { content := videoContent }, rfl, if_pos rfl, hmatches, ?_⟩
  dsimp only

open Download in
/-- Five bytes of the file are recorded and seven written: the first answer ends before the file
does, and with the second one it is whole. -/
theorem rangedDownload_video :
    (∃ bytes, downloadChunk video 5 (serveRange (some "video".toList) videoFiles video) = .ok bytes ∧
      bytes.length = MAX_RANGE_BYTES ∧ 5 + bytes.length < video.size) ∧
    ∃ n, Machine.run (step (fun _ => videoDigest) video
        (serveRange (some "video".toList) videoFiles video))
      { target := videoContent.take 7, committedOffset := 5 } (List.replicate n .go) =
        some { target := videoContent
               committedOffset := video.size
               phase := .verifying videoDigest } := by
  have hsize : video.size = MAX_RANGE_BYTES + 10 := rfl
  have hlength := length_videoContent
  have hseven : (videoContent.take 7).length = 7 := by
    rw [List.length_take]
    omega
  constructor
  · refine ⟨_, downloadChunk_unchanged video_unchanged (by omega), ?_⟩
    rw [readAt, List.length_take, List.length_drop]
    omega
  · let s : Download := { target := videoContent.take 7, committedOffset := 5 }
    have hresumable : s.Resumable videoContent := by
      right
      rw [List.take_take]
      rfl
    have hrecorded : s.committedOffset ≤ video.size := by decide
    obtain ⟨⟨n, -, hrun⟩, hkept, -⟩ := (rangedDownload_reassembles (fun _ => videoDigest)
      (some "video".toList) videoFiles video videoContent).2 video_unchanged s rfl hrecorded
    rw [hkept hresumable] at hrun
    exact ⟨n, hrun⟩

end FlowType
