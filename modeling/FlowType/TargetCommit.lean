import FlowType.PreparedTransfers

/-! The commit of a downloaded file on the phone: the row of its entry, the documents of the
target folder, and the calls that commit, recover and clean up, one access of the database or of
the document provider at a time. -/
namespace FlowType

/-- `own` says that this entry has created the document. -/
structure TargetDocument where
  uri : Nat
  name : List Char
  content : List UInt8 := []
  own : Bool := false
  deriving DecidableEq, Repr

/-- The documents of the folder, in the order in which the provider lists them. -/
abbrev TargetFolder := KeyedTable TargetDocument.uri

structure EntryRow where
  completed : Bool := false
  targetUri : Option Nat := none
  targetName : List Char := []
  commitSha256 : Option String := none
  finalUri : Option Nat := none
  deriving DecidableEq, Repr

/-- Where a call is. `cleanup` tells `cleanupPartialTargets` from `downloadEntry`, which both begin
with `recoverCommit`. A cleanup deletes under the `finalUri` that the row had at its begin. -/
inductive CommitPhase
  | idle
  | recovering (cleanup : Bool)
  | matched (cleanup : Bool) (candidate : Nat)
  | rejecting (cleanup : Bool) (candidate : Nat)
  | unjournaling (cleanup : Bool) (candidate : Nat)
  | discardingFinal (finalUri : Option Nat)
  | discardingTarget
  | downloading
  | naming (hash : String)
  | journaling (hash : String)
  | renamingTarget
  | renamed (uri : Nat)
  | creating
  | created (finalUri : Nat)
  | copying (finalUri : Nat)
  | copied (finalUri : Nat)
  | undoing (finalUri : Nat)
  | retiring (old : Nat)
  deriving DecidableEq, Repr

/-- `harmed` says that a document of somebody else was deleted or overwritten. -/
structure CommitWorld where
  docs : TargetFolder := KeyedTable.empty
  row : EntryRow := {}
  phase : CommitPhase := .idle
  harmed : Bool := false

/-- `next` is a step that the phone decides alone. `download` stands for what is on the disk
while the file is downloaded, `verified` for the answer of the computer to its hash. In `rename`,
`create`, `copy` and `remove` the provider answers. `fail` is an exception or a cancellation,
`crash` the end of the process, `foreign` what others make of their documents. -/
inductive CommitEvent
  | begin (cleanup : Bool)
  | next
  | download (content : List UInt8)
  | verified
  | rename (uri : Nat) (name : List Char)
  | renameUnsupported
  | create (uri : Nat) (name : List Char)
  | copy (count : Nat)
  | remove (deleted : Bool)
  | fail
  | crash
  | foreign (docs : TargetFolder)

namespace CommitWorld

variable (lower : List Char → List Char) (digest : List UInt8 → String) (size : Nat)

def childNames (s : CommitWorld) : List (List Char) := s.docs.rows.map fun r => lower r.name

def findChild (s : CommitWorld) (name : List Char) : Option Nat :=
  (s.docs.rows.find? fun r => r.name == name).map TargetDocument.uri

/-- `matches`. -/
def documentMatches (s : CommitWorld) (uri : Nat) (hash : String) : Bool :=
  (s.docs.get? uri).any fun r => r.content.length == size && digest r.content == hash

/-- The document under which `recoverCommit` looks for what was committed. -/
def candidate (s : CommitWorld) : Option Nat :=
  s.row.finalUri <|> s.findChild s.row.targetName

def goTo (s : CommitWorld) (phase : CommitPhase) : CommitWorld := { s with phase }

/-- What comes after a `recoverCommit` that has recovered nothing. -/
def unrecovered (s : CommitWorld) (cleanup : Bool) (finalUri : Option Nat) : CommitWorld :=
  s.goTo (if cleanup then .discardingFinal finalUri else .downloading)

def complete (s : CommitWorld) (uri : Nat) (phase : CommitPhase) : CommitWorld :=
  { s with row := { s.row with completed := true, targetUri := some uri }, phase }

def write (s : CommitWorld) (uri : Nat) (content : List UInt8) : CommitWorld :=
  match s.docs.get? uri with
  | none => s
  | some r => { s with docs := s.docs.insert { r with content := content } }

/-- `deleteDocument`; without the document, or when the provider refuses, nothing happens. -/
def delete (s : CommitWorld) (uri : Option Nat) (deleted : Bool) : CommitWorld :=
  match uri with
  | none => s
  | some uri => if deleted then { s with docs := s.docs.delete uri } else s

def recover (s : CommitWorld) (cleanup : Bool) : CommitWorld :=
  match s.row.commitSha256, s.candidate with
  | some hash, some candidate =>
    if s.documentMatches digest size candidate hash then s.goTo (.matched cleanup candidate)
    else if s.row.finalUri ≠ none then s.goTo (.rejecting cleanup candidate)
    else s.unrecovered cleanup s.row.finalUri
  | _, _ => s.unrecovered cleanup s.row.finalUri

/-- The steps that need no answer of the provider. -/
def next (s : CommitWorld) : Option CommitWorld :=
  match s.phase with
  | .recovering cleanup => some (s.recover digest size cleanup)
  | .matched _ candidate => some (s.complete candidate
      (match s.row.targetUri with
        | none => .idle
        | some old => if old = candidate then .idle else .retiring old))
  | .unjournaling cleanup candidate =>
    some ({ s with row := { s.row with finalUri := none } }.unrecovered cleanup (some candidate))
  | .naming hash =>
    match reserveName lower (s.childNames lower) s.row.targetName with
    | none => some (s.goTo .idle)
    | some (name, _) =>
      some { s with row := { s.row with targetName := name }, phase := .journaling hash }
  | .journaling hash => some { s with
      row := { s.row with commitSha256 := some hash, finalUri := none }
      phase := .renamingTarget }
  | .renamed uri => some (s.complete uri .idle)
  | .created finalUri => some { s with
      row := { s.row with finalUri := some finalUri }
      phase := .copying finalUri }
  | .copied finalUri => some (s.complete finalUri
      (match s.row.targetUri with
        | none => .idle
        | some old => .retiring old))
  | _ => none

/-- A `recoverCommit` ends with an exception. -/
def abandon (s : CommitWorld) (cleanup : Bool) : CommitWorld :=
  s.goTo (if cleanup then .discardingFinal s.row.finalUri else .idle)

/-- What an exception leads to: the `catch` of `commit`, the deletions of a cleanup, or the end
of the call. -/
def fail (s : CommitWorld) : Option CommitWorld :=
  match s.phase with
  | .idle => none
  | .rejecting _ _ => none
  | .discardingFinal _ => none
  | .discardingTarget => none
  | .undoing _ => none
  | .retiring _ => none
  | .recovering cleanup => some (s.abandon cleanup)
  | .matched cleanup _ => some (s.abandon cleanup)
  | .unjournaling cleanup _ => some (s.abandon cleanup)
  | .created finalUri => some (s.goTo (.undoing finalUri))
  | .copying finalUri => some (s.goTo (.undoing finalUri))
  | .copied finalUri => some (s.goTo (.undoing finalUri))
  | _ => some (s.goTo .idle)

/-- The answers of the provider, and what happens to the process. -/
def stepCore (s : CommitWorld) : CommitEvent → Option CommitWorld
  | .begin cleanup =>
    if s.phase = .idle ∧ s.row.completed = false then some (s.goTo (.recovering cleanup)) else none
  | .next => s.next lower digest size
  | .download content =>
    match s.phase, s.row.targetUri with
    | .downloading, some target =>
      if (s.docs.get? target).isSome then some (s.write target content) else none
    | _, _ => none
  | .verified =>
    match s.phase, s.row.targetUri.bind s.docs.get? with
    | .downloading, some r =>
      if r.content.length = size then some (s.goTo (.naming (digest r.content))) else none
    | _, _ => none
  | .rename uri name =>
    match s.phase, s.row.targetUri.bind s.docs.get? with
    | .renamingTarget, some r =>
      if uri = r.uri ∨ s.docs.get? uri = none then
        some { s with
          docs := (s.docs.delete r.uri).insert { r with uri := uri, name := name }
          phase := .renamed uri }
      else none
    | _, _ => none
  | .renameUnsupported => if s.phase = .renamingTarget then some (s.goTo .creating) else none
  | .create uri name =>
    if s.phase = .creating ∧ s.docs.get? uri = none then
      some { s with docs := s.docs.insert ⟨uri, name, [], true⟩, phase := .created uri }
    else none
  | .copy count =>
    match s.phase, s.row.targetUri.bind s.docs.get? with
    | .copying finalUri, some r =>
      if (s.docs.get? finalUri).isSome then
        some ((s.write finalUri (r.content.take count)).goTo
          (if r.content.length ≤ count then .copied finalUri else .copying finalUri))
      else none
    | _, _ => none
  | .remove deleted =>
    match s.phase with
    | .rejecting cleanup candidate =>
      some ((s.delete (some candidate) deleted).goTo (.unjournaling cleanup candidate))
    | .discardingFinal finalUri => some ((s.delete finalUri deleted).goTo .discardingTarget)
    | .discardingTarget => some ((s.delete s.row.targetUri deleted).goTo .idle)
    | .undoing finalUri => some ((s.delete (some finalUri) deleted).goTo .idle)
    | .retiring old => some ((s.delete (some old) deleted).goTo .idle)
    | _ => none
  | .fail => s.fail
  | .crash => some (s.goTo .idle)
  | .foreign docs =>
    -- the documents of this entry are left to it
    if (s.docs.rows.filter (·.own)).Perm (docs.rows.filter (·.own)) then some { s with docs }
    else none

def step (s : CommitWorld) (e : CommitEvent) : Option CommitWorld :=
  (s.stepCore lower digest size e).map fun s' =>
    match e with
    | .foreign _ => s'
    | _ => { s' with
        harmed := s.harmed || s.docs.rows.any fun r => !r.own && !s'.docs.rows.contains r }

structure Done (s : CommitWorld) (r : TargetDocument) : Prop where
  there : r ∈ s.docs.rows
  own : r.own = true
  stored : s.row.targetUri = some r.uri
  length : r.content.length = size
  hash : s.row.commitSha256 = some (digest r.content)
  only : ∀ r' ∈ s.docs.rows, r'.own = true → r' = r

/-- What the calls keep: they touch no document of somebody else, and when they have completed
the entry, then with its one document. -/
structure Committed (s : CommitWorld) : Prop where
  unharmed : s.harmed = false
  done : s.row.completed = true → s.phase = .idle → ∃ r, s.Done digest size r

/-- The addresses that a call itself takes for those of own documents. -/
def Keeps : CommitPhase → Nat → Prop
  | .discardingFinal finalUri, uri => finalUri = some uri
  | .created finalUri, uri => finalUri = uri
  | .undoing finalUri, uri => finalUri = uri
  | .retiring old, uri => old = uri
  | _, _ => False

/-- The addresses at which this call or a later one takes a document for its own. -/
def Holds (s : CommitWorld) (uri : Nat) : Prop :=
  s.row.targetUri = some uri ∨ s.row.finalUri = some uri ∨ Keeps s.phase uri

def Removes (s : CommitWorld) (uri : Nat) (deleted : Bool) : Prop :=
  deleted = true ∨ s.docs.get? uri = none

/-- What the recovery relies on: a final document that is created is journaled before the process
ends, or is deleted; what is left of the target is deleted after the commit; a document that has
the name, the size and the hash that are looked for is one of this entry; and nobody else puts
a document where the row says that its own is. -/
def Undisturbed (s : CommitWorld) : CommitEvent → Prop
  | .crash =>
    match s.phase with
    | .created _ => False
    | .undoing finalUri => s.row.finalUri = some finalUri
    | .retiring old => s.docs.get? old = none
    | _ => True
  | .remove deleted =>
    match s.phase with
    | .rejecting _ candidate => s.Removes candidate deleted
    | .undoing finalUri => s.Removes finalUri deleted ∨ s.row.finalUri = some finalUri
    | .retiring old => s.Removes old deleted
    | _ => True
  | .next =>
    match s.phase with
    | .recovering _ => s.row.finalUri = none → ∀ hash ∈ s.row.commitSha256,
        ∀ uri ∈ s.findChild s.row.targetName, ∀ r ∈ s.docs.get? uri,
        s.documentMatches digest size uri hash = true → r.own = true
    | _ => True
  | .foreign docs => ∀ r ∈ docs.rows, r.own = false → ¬s.Holds r.uri
  | _ => True

instance (phase : CommitPhase) (uri : Nat) : Decidable (Keeps phase uri) := by
  unfold Keeps
  split <;> infer_instance

instance (s : CommitWorld) (e : CommitEvent) : Decidable (Undisturbed digest size s e) := by
  unfold Undisturbed Removes Holds
  repeat' split
  all_goals infer_instance

/-- The temporary document of the entry is there, and nothing is downloaded. -/
def prepared (docs : TargetFolder) (uri : Nat) (tempName targetName : List Char) : CommitWorld where
  docs := docs.insert ⟨uri, tempName, [], true⟩
  row := { targetUri := some uri, targetName }

end CommitWorld

end FlowType
