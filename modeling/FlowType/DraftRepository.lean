import FlowType.DraftStore

/-! `DraftRepository`: drafts are kept in memory and written behind. Saves and clears are queued for
the storage thread, which also preloads; a load goes to the store once for each computer and holds
the lock of the repository meanwhile, but not off the storage thread, which writes without it. -/
namespace FlowType

open DraftStore

inductive DraftWrite
  | save (pcId : String) (draft : ParkedSession)
  | clear (pcId : String)

namespace DraftWrite

def pcId : DraftWrite → String
  | save pcId _ => pcId
  | clear pcId => pcId

def draft : DraftWrite → Option ParkedSession
  | save _ draft => some draft
  | clear _ => none

def apply (codec : DraftCodec) (preferences : Preferences) : DraftWrite → Preferences
  | save pcId draft => DraftStore.save codec preferences pcId draft
  | clear pcId => DraftStore.clear codec preferences pcId

end DraftWrite

inductive StorageAction
  | write (write : DraftWrite)
  | preload (pcIds : List String)

inductive StorageThread
  | idle
  | writing (write : DraftWrite)
  | preloading (pcIds : List String)

/-- Where `SecureDraftStore.load` stands: which access to the preferences comes next. -/
inductive LoadStage
  | reading
  | readingLegacy
  | migrating (value : String)
  | decoding (value : String)
  | clearing

structure Loading where
  pcId : String
  stage : LoadStage := .reading

/-- `returned` is what a call of `load` has returned in the last step, if one has. -/
structure DraftRepository where
  preferences : Preferences
  loaded : List String := []
  cache : String → Option ParkedSession := fun _ => none
  queue : List StorageAction := []
  storage : StorageThread := .idle
  loading : Option Loading := none
  returned : Option (String × Option ParkedSession) := none

inductive DraftEvent
  | load (pcId : String)
  | save (pcId : String) (draft : ParkedSession)
  | clear (pcId : String)
  | preload (pcIds : List String)
  -- the storage thread
  | take
  | commit
  | preloadNext
  -- the load that holds the lock
  | loadStep

namespace DraftRepository
variable (codec : DraftCodec)

def unlocked (r : DraftRepository) : Bool := r.loading.isNone

def call (r : DraftRepository) (write : DraftWrite) : DraftRepository :=
  { r with
    loaded := write.pcId :: r.loaded
    cache := Function.update r.cache write.pcId write.draft
    queue := r.queue ++ [.write write]
    returned := none }

def finishLoad (r : DraftRepository) (pcId : String) (draft : Option ParkedSession) :
    DraftRepository :=
  let cache := if draft.isSome then Function.update r.cache pcId draft else r.cache
  { r with
    loaded := pcId :: r.loaded
    cache
    loading := none
    returned := some (pcId, cache pcId) }

/-- One access of `SecureDraftStore.load`. -/
def loadStep (r : DraftRepository) (pcId : String) : LoadStage → DraftRepository
  | .reading =>
    match r.preferences (storageKey codec pcId) with
    | some value => { r with loading := some { pcId, stage := .decoding value }, returned := none }
    | none => { r with loading := some { pcId, stage := .readingLegacy }, returned := none }
  | .readingLegacy =>
    match r.preferences LEGACY_KEY with
    | some value => { r with loading := some { pcId, stage := .migrating value }, returned := none }
    | none => r.finishLoad pcId none
  | .migrating value =>
    { r with
      preferences := Function.update
        (Function.update r.preferences (storageKey codec pcId) (some value)) LEGACY_KEY none
      loading := some { pcId, stage := .decoding value }
      returned := none }
  | .decoding value =>
    match (codec.decode value).bind parse with
    | some draft => r.finishLoad pcId (some draft)
    | none => { r with loading := some { pcId, stage := .clearing }, returned := none }
  | .clearing =>
    { r with preferences := DraftStore.clear codec r.preferences pcId }.finishLoad pcId none

def step (r : DraftRepository) : DraftEvent → Option DraftRepository
  | .load pcId =>
    if r.unlocked = false then none
    else if pcId ∈ r.loaded then some { r with returned := some (pcId, r.cache pcId) }
    else some { r with loading := some { pcId }, returned := none }
  | .save pcId draft => if r.unlocked then some (r.call (.save pcId draft)) else none
  | .clear pcId => if r.unlocked then some (r.call (.clear pcId)) else none
  | .preload pcIds => some { r with queue := r.queue ++ [.preload pcIds], returned := none }
  | .take =>
    match r.storage, r.queue with
    | .idle, .write write :: queue =>
      some { r with queue, storage := .writing write, returned := none }
    | .idle, .preload pcIds :: queue =>
      some { r with queue, storage := .preloading pcIds, returned := none }
    | _, _ => none
  | .commit =>
    match r.storage with
    | .writing write =>
      some { r with
        preferences := write.apply codec r.preferences, storage := .idle, returned := none }
    | _ => none
  | .preloadNext =>
    match r.storage with
    | .preloading [] => some { r with storage := .idle, returned := none }
    | .preloading (pcId :: pcIds) =>
      if r.unlocked = false then none
      else if pcId ∈ r.loaded then
        some { r with storage := .preloading pcIds, returned := some (pcId, r.cache pcId) }
      else
        some { r with
          storage := .preloading pcIds, loading := some { pcId }, returned := none }
    | _ => none
  | .loadStep => r.loading.map fun loading => r.loadStep codec loading.pcId loading.stage

end DraftRepository

end FlowType
