import FlowType.PreparedTransfers

/-! `FileTransferStore` of the phone, for one batch: its row and the rows of its entries. A call
that throws changes nothing and is `none`. -/
namespace FlowType

def MAX_MANIFEST_PAGE_ENTRIES : Nat := 256

def MAX_URI_CHARS : Nat := 32 * 1024

structure FileTransferBatch where
  batchId : String
  pcId : String
  direction : TransferDirection
  state : BatchState
  createdAt : Nat
  updatedAt : Nat
  fileCount : Nat
  directoryCount : Nat
  totalBytes : Nat
  targetTreeUri : Option String := none
  deriving DecidableEq, Repr

structure StoredTransferEntry where
  manifest : ManifestEntry
  sourceUri : Option String := none
  targetUri : Option String := none
  targetName : Option (List Char) := none
  targetParentUri : Option String := none
  state : EntryState := .pending
  committedOffset : Nat := 0
  errorCode : Option String := none
  commitSha256 : Option String := none
  finalUri : Option String := none
  deriving DecidableEq, Repr

namespace Kotlin

def isNotBlank (text : List Char) : Bool := !text.all isWhitespace

end Kotlin

def validUri (uri : String) : Bool := utf16Length uri.toList ≤ MAX_URI_CHARS

/-- `isNotBlank` and at most 255 units. -/
def validTargetName (name : List Char) : Bool := Kotlin.isNotBlank name && utf16Length name ≤ 255

/-- The pattern `[a-z0-9_]{1,64}`. -/
def validErrorCode (code : String) : Bool :=
  1 ≤ code.toList.length && code.toList.length ≤ 64 &&
    code.toList.all fun c => ('a' ≤ c && c ≤ 'z') || ('0' ≤ c && c ≤ '9') || c == '_'

/-- The pattern `[0-9a-f]{64}`. -/
def validCommitHash (hash : String) : Bool :=
  hash.toList.length == 64 && hash.toList.all fun c => c.isDigit || ('a' ≤ c && c ≤ 'f')

namespace FileTransferBatch

def validate (batch : FileTransferBatch) : Bool :=
  validIdentifier batch.batchId MAX_BATCH_ID_BYTES &&
    Kotlin.isNotBlank batch.pcId.toList && utf16Length batch.pcId.toList ≤ 128 &&
    batch.createdAt ≤ batch.updatedAt && (0 < batch.fileCount || 0 < batch.directoryCount) &&
    batch.targetTreeUri.all validUri

end FileTransferBatch

namespace StoredTransferEntry

def validate (entry : StoredTransferEntry) : Bool :=
  validateStored entry.manifest && entry.committedOffset ≤ entry.manifest.size &&
    (entry.state != .completed || entry.committedOffset == entry.manifest.size) &&
    entry.sourceUri.all validUri && entry.targetUri.all validUri &&
    entry.targetName.all validTargetName && entry.targetParentUri.all validUri &&
    entry.errorCode.all validErrorCode

def isTerminal (entry : StoredTransferEntry) : Bool :=
  entry.state == .completed || entry.state == .failed || entry.state == .canceled

def isCompletedFile (entry : StoredTransferEntry) : Bool :=
  entry.manifest.kind == .file && entry.state == .completed

/-- The values of an entry that has no target and has not been begun. -/
def reset (entry : StoredTransferEntry) : StoredTransferEntry :=
  { manifest := entry.manifest, sourceUri := entry.sourceUri }

end StoredTransferEntry

structure PhoneBatch where
  batch : FileTransferBatch
  /-- In the order of their ordinals. -/
  entries : List StoredTransferEntry := []
  deriving DecidableEq, Repr

namespace PhoneBatch

def create (batch : FileTransferBatch) : Option PhoneBatch :=
  if batch.validate then some { batch } else none

/-- The ordinals of a page go on from the last one, and no entry identifier is used twice. -/
def appendManifestPage (b : PhoneBatch) (page : List StoredTransferEntry) : Option PhoneBatch :=
  if page = [] ∨ MAX_MANIFEST_PAGE_ENTRIES < page.length ∨ page.all (·.validate) = false ∨
      page.map (·.manifest.ordinal) ≠ List.range' b.entries.length page.length ∨
      ¬((b.entries ++ page).map (·.manifest.entryId)).Nodup then none
  else some { b with entries := b.entries ++ page }

/-- `update` of the entry with that ordinal; it throws when there is none. -/
def updateEntry (b : PhoneBatch) (ordinal : Nat)
    (change : StoredTransferEntry → StoredTransferEntry) : Option PhoneBatch :=
  if ordinal < b.entries.length then some { b with entries := b.entries.modify ordinal change }
  else none

/-- The entries from an ordinal on, not more than `limit`. -/
def entriesPage (b : PhoneBatch) (startOrdinal limit : Nat) : List StoredTransferEntry :=
  (b.entries.filter fun entry => startOrdinal ≤ entry.manifest.ordinal).take limit

def updateBatchState (b : PhoneBatch) (next : BatchState) (now : Nat) : Option PhoneBatch :=
  if b.batch.state.canTransitionTo next then
    some { b with batch := { b.batch with state := next, updatedAt := max now b.batch.updatedAt } }
  else none

def cancelIncompleteEntries (b : PhoneBatch) : PhoneBatch :=
  { b with entries := b.entries.map fun entry =>
      if entry.isTerminal then entry else { entry with state := .canceled } }

/-- Another tree than before takes back all but the files that are completed. -/
def setTargetTree (b : PhoneBatch) (targetTreeUri : String) (now : Nat) : Option PhoneBatch :=
  if Kotlin.isNotBlank targetTreeUri.toList && validUri targetTreeUri then
    let changed := b.batch.targetTreeUri.isSome && b.batch.targetTreeUri != some targetTreeUri
    some
      { batch := { b.batch with targetTreeUri := some targetTreeUri, updatedAt := now }
        entries := if changed then
            b.entries.map fun entry => if entry.isCompletedFile then entry else entry.reset
          else b.entries }
  else none

def reconcileResult (b : PhoneBatch) (state : BatchState) (now : Nat) : Option PhoneBatch :=
  if state.isTerminal then some { b with batch := { b.batch with state, updatedAt := now } }
  else none

/-- A target that is not given stays. -/
def updateEntryProgress (b : PhoneBatch) (ordinal : Nat) (state : EntryState)
    (committedOffset : Nat) (targetUri : Option String) (targetName : Option (List Char))
    (errorCode : Option String) : Option PhoneBatch :=
  b.entries[ordinal]?.bind fun current =>
    if current.manifest.size < committedOffset then none
    else if committedOffset < current.committedOffset ∧ committedOffset ≠ 0 then none
    else if state = .completed ∧ committedOffset ≠ current.manifest.size then none
    else if errorCode.all validErrorCode = false then none
    else
      b.updateEntry ordinal fun entry =>
        { entry with
          state, committedOffset, errorCode
          targetUri := targetUri.or entry.targetUri
          targetName := targetName.or entry.targetName }

def setEntryTarget (b : PhoneBatch) (ordinal : Nat) (targetUri : String)
    (targetName : Option (List Char)) (targetParentUri : Option String) : Option PhoneBatch :=
  if Kotlin.isNotBlank targetUri.toList && validUri targetUri && targetName.all validTargetName then
    b.updateEntry ordinal fun entry =>
      { entry with targetUri := some targetUri, targetName, targetParentUri }
  else none

def journalCommit (b : PhoneBatch) (ordinal : Nat) (hash : String) (finalUri : Option String) :
    Option PhoneBatch :=
  if validCommitHash hash then
    b.updateEntry ordinal fun entry => { entry with commitSha256 := some hash, finalUri }
  else none

end PhoneBatch

end FlowType
