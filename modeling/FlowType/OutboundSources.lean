import FlowType.IndexedLines
import FlowType.ManifestIngest
import FlowType.OutboundOffers
import FlowType.ProgressFile

/-! The sources of a batch for the phone: next to the manifest, `write_outbound` writes where each
entry comes from, and `source_path` reads it when the entry is sent. -/
namespace FlowType

open ByteFiles

/-- A unit of a path as Windows has it: a character, or a surrogate that is not part of a pair. -/
inductive OsChar
  | scalar (c : Char)
  | surrogate (unit : Nat)
  deriving DecidableEq, Repr

abbrev OsString := List OsChar

namespace OsString

def ofChars (text : List Char) : OsString := text.map .scalar

def toStr (s : OsString) : Option (List Char) :=
  s.mapM fun unit => match unit with
    | .scalar c => some c
    | .surrogate _ => none

def lossyChar : OsChar → Char
  | .scalar c => c
  | .surrogate _ => Char.ofNat 0xfffd

def toStringLossy (s : OsString) : List Char := s.map lossyChar

def isSeparator (unit : OsChar) : Bool :=
  unit == .scalar (Char.ofNat 0x5c) || unit == .scalar '/'

/-- `Path::join` with the name of a file. -/
def join (path : OsString) (name : List Char) : OsString :=
  if path.getLast?.any isSeparator then path ++ ofChars name
  else path ++ .scalar (Char.ofNat 0x5c) :: ofChars name

end OsString

structure SourceRecord where
  ordinal : Nat
  path : List Char
  deriving DecidableEq, Repr

/-- JSON of one record, which is assumed to come back as it was and to be one line. -/
structure SourceJson where
  encode : SourceRecord → List UInt8
  decode : List UInt8 → Option SourceRecord
  roundTrip : ∀ record, decode (encode record) = some record
  oneLine : ∀ record, LF ∉ encode record

/-- `sources.jsonl` and its index. -/
structure SourceFiles where
  data : List UInt8
  index : List UInt8

structure SourceWriter where
  nextOrdinal : Nat := 0
  nextOffset : Nat := 0
  expectedEntryCount : Nat
  data : List UInt8 := []
  index : List UInt8 := []

section Sources
variable (json : SourceJson) (isAbsolute : OsString → Bool)

namespace SourceWriter

def append (w : SourceWriter) (ordinal : Nat) (path : OsString) : Option SourceWriter :=
  if ordinal ≠ w.nextOrdinal ∨ isAbsolute path = false then none
  else
    let line := json.encode { ordinal, path := path.toStringLossy } ++ [LF]
    (checkedAdd w.nextOffset line.length).map fun nextOffset =>
      { w with
        nextOrdinal := w.nextOrdinal + 1
        nextOffset
        data := w.data ++ line
        index := w.index ++ leBytes 8 w.nextOffset }

def finish (w : SourceWriter) : Option SourceFiles :=
  if w.nextOrdinal ≠ w.expectedEntryCount then none else some ⟨w.data, w.index⟩

end SourceWriter

def beginSourcePaths (batch : BatchRecord) : Option SourceWriter :=
  (checkedAdd batch.fileCount batch.directoryCount).map fun expectedEntryCount =>
    { expectedEntryCount }

def readIndexedJsonLine (files : SourceFiles) (ordinal : Nat) : Except String SourceRecord :=
  if 2 ^ 64 ≤ ordinal * 8 then .error "index offset overflow"
  else
    let encodedOffset := readAt files.index (ordinal * 8) 8
    let rest := files.data.drop (ofLeBytes encodedOffset)
    if encodedOffset.length ≠ 8 then .error "unexpected end of file"
    else if LF ∉ rest then .error "incomplete indexed record"
    else
      match json.decode (rest.takeWhile (· ≠ LF)) with
      | none => .error "invalid json"
      | some record => .ok record

def sourcePath (files : SourceFiles) (ordinal : Nat) : Except String OsString :=
  (readIndexedJsonLine json files ordinal).bind fun record =>
    if record.ordinal ≠ ordinal then .error "source index does not match entry"
    else
      let path := OsString.ofChars record.path
      if isAbsolute path = false then .error "source path is not absolute" else .ok path

/-- A path that is selected, in full. -/
structure LocatedRoot extends SelectedRoot where
  path : OsString

/-- What `write_outbound` carries along. -/
structure OutboundWriters where
  stats : OutboundStats := {}
  manifest : ManifestWriter
  sources : SourceWriter

variable (lineLength : ManifestEntry → Nat) (entryId : Nat → String)

namespace OutboundWriters

/-- What `write_outbound` does before it looks below a directory. -/
def append (path : OsString) (relativePath : List Char) (kind : EntryKind) (length size : Nat)
    (modified : Option Nat) (s : OutboundWriters) : Option OutboundWriters :=
  if validateRelativePath relativePath = false then none
  else (s.stats.count kind length).bind fun stats =>
    (s.manifest.append lineLength (outboundEntry entryId s.stats.nextOrdinal relativePath kind size
      modified)).bind fun manifest =>
        (s.sources.append json isAbsolute s.stats.nextOrdinal path).bind fun sources =>
          (checkedAdd stats.nextOrdinal 1).map fun nextOrdinal =>
            { stats := { stats with nextOrdinal }, manifest, sources }

mutual

def writeOutbound : SourceTree → OsString → List Char → OutboundWriters → Option OutboundWriters
  | .directory modified children, path, relativePath, s =>
    (s.append json isAbsolute lineLength entryId path relativePath .directory 0 0 modified).bind
      (writeChildren children path relativePath)
  | .file length modified, path, relativePath, s =>
    s.append json isAbsolute lineLength entryId path relativePath .file length length modified
  | .other length modified, path, relativePath, s =>
    s.append json isAbsolute lineLength entryId path relativePath .file length 0 modified
  | _, _, _, _ => none

def writeChildren : SourceList → OsString → List Char → OutboundWriters → Option OutboundWriters
  | .nil, _, _, s => some s
  | .cons name child rest, path, relativePath, s =>
    name.bind fun name =>
      (writeOutbound child (path.join name) (relativePath ++ '/' :: name) s).bind
        (writeChildren rest path relativePath)

end

/-- The loop of `create_outbound_offer` over the planned roots. -/
def writeRoots (roots : List (LocatedRoot × List Char)) (s : OutboundWriters) :
    Option OutboundWriters :=
  roots.foldlM (fun s root => writeOutbound json isAbsolute lineLength entryId root.1.written
    root.1.path root.2 s) s

end OutboundWriters

variable (lower : List Char → List Char)

/-- The offer of a new batch, the batch as it is stored, and its sources. -/
def createOutboundBatch (recoverable : List BatchRecord) (phoneId batchId : String) (now : Nat)
    (roots : List LocatedRoot) : Option (FileOffer × StoredBatch × SourceFiles) :=
  if recoverable.any (fun batch => batch.phoneId == phoneId) then none
  else (prepareOutboundPlan lower (roots.map (·.toSelectedRoot))).bind fun prepared =>
    (BatchRecord.new batchId phoneId .computerToPhone now prepared.stats.fileCount
      prepared.stats.directoryCount prepared.stats.totalBytes).bind fun batch =>
        (beginSourcePaths batch).bind fun sources =>
          let manifest : ManifestWriter :=
            { expectedFiles := batch.fileCount
              expectedDirectories := batch.directoryCount
              expectedBytes := batch.totalBytes }
          (OutboundWriters.writeRoots json isAbsolute lineLength entryId
            (roots.zip (prepared.roots.map Prod.snd)) { manifest, sources }).bind fun written =>
              if written.stats.fileCount ≠ prepared.stats.fileCount ∨
                  written.stats.directoryCount ≠ prepared.stats.directoryCount ∨
                  written.stats.totalBytes ≠ prepared.stats.totalBytes then none
              else written.manifest.finish.bind fun entries =>
                -- `initialize_progress`
                if 2 ^ 64 ≤ entries.length * PROGRESS_RECORD_BYTES then none
                else written.sources.finish.map fun files =>
                  (FileOffer.ofBatch batch prepared.summaries,
                    { batch with
                      manifest := some entries
                      progress := fun ordinal =>
                        if (entries[ordinal]?.any fun entry => entry.kind == .directory) then
                          { state := .completed }
                        else {} },
                    files)

end Sources

end FlowType
