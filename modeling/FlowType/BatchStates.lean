import FlowType.Runs
import FlowType.TargetMapping
import FlowType.Threads

/-! The persisted state of one batch. Control messages and requests for data write the record of
the batch and the progress of its entries; the requests that complete the batch read all
entries first and write the state afterwards, under no common lock. -/
namespace FlowType

open Threads

inductive EntryOutcome
  | completed | failed | unfinished
  deriving DecidableEq, Repr

/-- How `all_entries_terminal` counts an entry. -/
def entryOutcome (entry : ManifestEntry) (progress : EntryProgress) : EntryOutcome :=
  match progress.state with
  | .completed => if progress.committedOffset = entry.size then .completed else .unfinished
  | .failed => .failed
  | .canceled => .failed
  | _ => .unfinished

/-- A request that completes the batch: it has read the entries before `ordinal`, or all. -/
inductive Completion
  | scanning (ordinal : Nat) (terminal failed : Bool)
  | writing (failed : Bool)
  deriving DecidableEq, Repr

structure BatchWorld where
  record : Option StoredBatch := none
  requests : Nat → Option Completion := fun _ => none

/-- `create_batch` and its undoing, `update_state` for all callers but the completion, a manifest
that is received, the end of `prepare_windows_targets`, `write_progress` by whoever, the steps of
a completion, and the start of the program, which drops the records from before `cutoff`. -/
inductive BatchEvent
  | create (record : BatchRecord)
  | abandon
  | update (next : BatchState) (now : Nat)
  | writeManifest (entries : List ManifestEntry)
  | commitTargets (root : List Char) (targets : List TargetRecord) (now : Nat)
  | writeProgress (ordinal : Nat) (progress : EntryProgress)
  | complete (request : Nat)
  | scan (request : Nat)
  | finish (request : Nat) (now : Nat)
  | restart (cutoff : Nat)

namespace StoredBatch

def updateState (b : StoredBatch) (next : BatchState) (now : Nat) : Option StoredBatch :=
  if b.state.canTransitionTo next then
    some { b with state := next, updatedAt := max now b.updatedAt }
  else none

def commitTargets (b : StoredBatch) (root : List Char) (targets : List TargetRecord) (now : Nat) :
    Option StoredBatch :=
  if b.state.isTerminal then none
  else some { b with targetRoot := some root, targets, updatedAt := max now b.updatedAt }

def entryCount (b : StoredBatch) : Nat := (b.manifest.getD []).length

def manifestEntry (b : StoredBatch) (ordinal : Nat) : Option ManifestEntry :=
  b.manifest.bind (·[ordinal]?)

end StoredBatch

/-- The next entry is read, or the verdict is there: the batch is not complete, or its state is
to be written. -/
def Completion.scan (b : StoredBatch) : Completion → Option Completion
  | .scanning ordinal terminal failed =>
    if b.manifest.isNone then none
    else match b.manifestEntry ordinal with
      | some entry =>
        let outcome := entryOutcome entry (b.progress ordinal)
        some (.scanning (ordinal + 1) (terminal && outcome != .unfinished)
          (failed || outcome == .failed))
      | none => if terminal then some (.writing failed) else none
  | .writing failed => some (.writing failed)

def Completion.HasRead (c : Completion) (ordinal : Nat) : Prop :=
  match c with
  | .scanning next terminal _ => terminal = true ∧ ordinal < next
  | .writing _ => True

namespace BatchWorld

def setRequest (w : BatchWorld) (request : Nat) (next : Option Completion) : BatchWorld :=
  { w with requests := Function.update w.requests request next }

section Steps
variable (lineLength : ManifestEntry → Nat)

def step (w : BatchWorld) : BatchEvent → Option BatchWorld
  | .create record =>
    if w.record.isNone ∧ BatchRecord.new record.batchId record.phoneId record.direction
        record.createdAt record.fileCount record.directoryCount record.totalBytes = some record then
      some { w with record := some { toBatchRecord := record } }
    else none
  | .abandon => some { record := none, requests := fun _ => none }
  | .update next now =>
    if next = .completed ∨ next = .partialFailure then none
    else (w.record.bind (·.updateState next now)).map fun b => { w with record := some b }
  | .writeManifest entries =>
    (w.record.bind (·.writeManifest lineLength entries)).map fun b => { w with record := some b }
  | .commitTargets root targets now =>
    (w.record.bind (·.commitTargets root targets now)).map fun b => { w with record := some b }
  | .writeProgress ordinal progress =>
    w.record.bind fun b =>
      if ordinal < b.entryCount then some { w with record := some (b.writeProgress ordinal progress) }
      else none
  | .complete request =>
    w.record.bind fun b =>
      if b.state.isTerminal ∨ (w.requests request).isSome then none
      else some (w.setRequest request (some (.scanning 0 true false)))
  | .scan request =>
    w.record.bind fun b => (w.requests request).map fun c => w.setRequest request (c.scan b)
  | .finish request now =>
    w.record.bind fun b => (w.requests request).bind fun c =>
      match c with
      | .writing failed =>
        let next := if failed then BatchState.partialFailure else .completed
        match b.updateState next now with
        | some b => some { w.setRequest request none with record := some b }
        | none => some (w.setRequest request none)
      | .scanning _ _ _ => none
  | .restart cutoff =>
    some { record := w.record.filter (cutoff ≤ ·.updatedAt), requests := fun _ => none }

end Steps

/-- A request that completes the batch has read the entry, may still write the state, and has
not written it yet. -/
def HasRead (w : BatchWorld) (ordinal : Nat) : Prop :=
  Occupied w.requests fun c => c.HasRead ordinal

/-- No entry is given another outcome while a completion that has read it is under way. -/
def Unraced (w : BatchWorld) : BatchEvent → Prop
  | .writeProgress ordinal progress => ∀ b entry, w.record = some b → b.state.isTerminal = false →
      b.manifestEntry ordinal = some entry → w.HasRead ordinal →
        entryOutcome entry progress = entryOutcome entry (b.progress ordinal)
  | _ => True

/-- A step of the persisted batch goes along the table of transitions and keeps a terminal state. A
batch becomes completed with whole entries only, and a partial failure with one that has failed and
none that is unfinished. -/
structure Follows (b b' : StoredBatch) : Prop where
  path : b.state.canTransitionTo b'.state = true
  absorbing : b.state.isTerminal = true → b'.state = b.state ∧ b'.targetRoot = b.targetRoot
  completed : b'.state = .completed → b.state ≠ .completed →
    b'.manifest.isSome = true ∧ ∀ i entry, b'.manifestEntry i = some entry →
      b'.progress i = { state := .completed, committedOffset := entry.size }
  partialFailure : b'.state = .partialFailure → b.state ≠ .partialFailure →
    (∀ i entry, b'.manifestEntry i = some entry →
      entryOutcome entry (b'.progress i) ≠ .unfinished) ∧
    ∃ i entry, b'.manifestEntry i = some entry ∧ entryOutcome entry (b'.progress i) = .failed

/-- Of the entries `read`, none is unfinished, and some has failed if `failed` says so. -/
structure Verdict (b : StoredBatch) (read : Nat → Prop) (failed : Bool) : Prop where
  terminal : ∀ i entry, read i → b.manifestEntry i = some entry →
    entryOutcome entry (b.progress i) ≠ .unfinished
  failed_iff : failed = true ↔ ∃ i entry, read i ∧ b.manifestEntry i = some entry ∧
    entryOutcome entry (b.progress i) = .failed

def ScanOk (b : StoredBatch) : Completion → Prop
  | .scanning ordinal terminal failed => terminal = true →
    (b.manifest = none → ordinal = 0 ∧ failed = false) ∧ Verdict b (· < ordinal) failed
  | .writing failed => b.manifest.isSome = true ∧ Verdict b (fun _ => True) failed

structure Inv (w : BatchWorld) : Prop where
  idle : w.record = none → w.requests = fun _ => none
  scans : ∀ b, w.record = some b → b.state.isTerminal = false → All w.requests (ScanOk b)

section Steps
variable {lineLength : ManifestEntry → Nat} {w w' : BatchWorld} {b b' : StoredBatch}

/-- What was read stays true as long as no outcome that was read changes. -/
theorem Verdict.of_same {read : Nat → Prop} {failed : Bool} (h : Verdict b read failed)
    (hmanifest : b'.manifest = b.manifest)
    (hprogress : ∀ i entry, b.manifestEntry i = some entry → read i →
      entryOutcome entry (b'.progress i) = entryOutcome entry (b.progress i)) :
    Verdict b' read failed := by
  have hentry : ∀ i, b'.manifestEntry i = b.manifestEntry i := by
    intro i
    rw [StoredBatch.manifestEntry, hmanifest]
    rfl
  refine ⟨?_, ?_⟩
  · intro i entry hi he
    rw [hentry] at he
    rw [hprogress i entry he hi]
    exact h.terminal i entry hi he
  · rw [h.failed_iff]
    constructor
    · rintro ⟨i, entry, hi, he, hout⟩
      exact ⟨i, entry, hi, by rw [hentry, he], by rw [hprogress i entry he hi, hout]⟩
    · rintro ⟨i, entry, hi, he, hout⟩
      rw [hentry] at he
      exact ⟨i, entry, hi, he, by rw [← hprogress i entry he hi, hout]⟩

theorem Verdict.empty : Verdict b (· < 0) false := by
  refine ⟨fun i _ hi => absurd hi (by omega), ?_⟩
  constructor
  · intro hfalse
    cases hfalse
  · rintro ⟨i, _, hi, -⟩
    omega

/-- One more entry is read, which is not unfinished. -/
theorem Verdict.next {ordinal : Nat} {failed : Bool} {entry : ManifestEntry}
    (h : Verdict b (· < ordinal) failed) (hentry : b.manifestEntry ordinal = some entry)
    (hout : entryOutcome entry (b.progress ordinal) ≠ .unfinished) :
    Verdict b (· < ordinal + 1)
      (failed || entryOutcome entry (b.progress ordinal) == .failed) := by
  refine ⟨?_, ?_⟩
  · intro i e hi he
    rcases Nat.lt_succ_iff_lt_or_eq.1 hi with hlt | rfl
    · exact h.terminal i e hlt he
    · rw [hentry] at he
      cases he
      exact hout
  · rw [Bool.or_eq_true, h.failed_iff, beq_iff_eq]
    constructor
    · rintro (⟨i, e, hi, he, hfailed⟩ | hfailed)
      · exact ⟨i, e, by omega, he, hfailed⟩
      · exact ⟨ordinal, entry, by omega, hentry, hfailed⟩
    · rintro ⟨i, e, hi, he, hfailed⟩
      rcases Nat.lt_succ_iff_lt_or_eq.1 hi with hlt | rfl
      · exact .inl ⟨i, e, hlt, he, hfailed⟩
      · rw [hentry] at he
        cases he
        exact .inr hfailed

/-- After the last entry all are read. -/
theorem Verdict.all {ordinal : Nat} {failed : Bool} (h : Verdict b (· < ordinal) failed)
    (hmanifest : b.manifest.isSome = true) (hend : b.manifestEntry ordinal = none) :
    Verdict b (fun _ => True) failed := by
  have hbefore : ∀ i entry, b.manifestEntry i = some entry → i < ordinal := by
    intro i entry he
    by_contra hge
    obtain ⟨entries, hentries⟩ := Option.isSome_iff_exists.1 hmanifest
    rw [StoredBatch.manifestEntry, hentries, Option.bind_some] at he hend
    have hlt := (List.getElem?_eq_some_iff.1 he).1
    have hlen := List.getElem?_eq_none_iff.1 hend
    omega
  refine ⟨fun i entry _ he => h.terminal i entry (hbefore i entry he) he, ?_⟩
  rw [h.failed_iff]
  constructor
  · rintro ⟨i, entry, -, he, hout⟩
    exact ⟨i, entry, trivial, he, hout⟩
  · rintro ⟨i, entry, -, he, hout⟩
    exact ⟨i, entry, hbefore i entry he, he, hout⟩

theorem ScanOk.of_same {c : Completion} (h : ScanOk b c) (hmanifest : b'.manifest = b.manifest)
    (hprogress : ∀ i entry, b.manifestEntry i = some entry → c.HasRead i →
      entryOutcome entry (b'.progress i) = entryOutcome entry (b.progress i)) : ScanOk b' c := by
  cases c with
  | scanning ordinal terminal failed =>
    intro hflag
    obtain ⟨hnone, hverdict⟩ := h hflag
    refine ⟨by rw [hmanifest]; exact hnone, ?_⟩
    exact hverdict.of_same hmanifest fun i entry he hi => hprogress i entry he ⟨hflag, hi⟩
  | writing failed =>
    obtain ⟨hsome, hverdict⟩ := h
    refine ⟨by rw [hmanifest]; exact hsome, ?_⟩
    exact hverdict.of_same hmanifest fun i entry he _ => hprogress i entry he trivial

theorem ScanOk.scan {c next : Completion} (h : ScanOk b c) (hnext : c.scan b = some next) :
    ScanOk b next := by
  cases c with
  | writing failed =>
    cases hnext
    exact h
  | scanning ordinal terminal failed =>
    rw [Completion.scan] at hnext
    split at hnext
    · cases hnext
    · rename_i hmanifest
      have hsome : b.manifest.isSome = true := by
        rw [Option.isSome_iff_ne_none]
        intro hnone
        exact hmanifest (by rw [hnone]; rfl)
      split at hnext
      · rename_i entry hentry
        cases hnext
        intro hflag
        rw [Bool.and_eq_true, bne_iff_ne] at hflag
        refine ⟨?_, (h hflag.1).2.next hentry hflag.2⟩
        intro hnone
        rw [hnone] at hsome
        cases hsome
      · rename_i hend
        split at hnext
        · rename_i hflag
          cases hnext
          exact ⟨hsome, (h hflag).2.all hsome hend⟩
        · cases hnext

theorem Follows.of_state_eq (hstate : b'.state = b.state)
    (hroot : b.state.isTerminal = true → b'.targetRoot = b.targetRoot) : Follows b b' := by
  refine ⟨?_, fun hterminal => ⟨hstate, hroot hterminal⟩, ?_, ?_⟩
  · rw [hstate]
    exact BatchState.canTransitionTo_self _
  · intro hcompleted hnot
    rw [hstate] at hcompleted
    exact absurd hcompleted hnot
  · intro hhalf hnot
    rw [hstate] at hhalf
    exact absurd hhalf hnot

theorem updateState_cases {next : BatchState} {now : Nat} (h : b.updateState next now = some b') :
    b.state.canTransitionTo next = true ∧
      b' = { b with state := next, updatedAt := max now b.updatedAt } := by
  rw [StoredBatch.updateState] at h
  split at h
  · rename_i hcan
    exact ⟨hcan, (Option.some.inj h).symm⟩
  · cases h

theorem Follows.of_updateState {next : BatchState} {now : Nat}
    (h : b.updateState next now = some b')
    (hcompleted : next = .completed → b'.manifest.isSome = true ∧
      ∀ i entry, b'.manifestEntry i = some entry →
        b'.progress i = { state := .completed, committedOffset := entry.size })
    (hhalf : next = .partialFailure →
      (∀ i entry, b'.manifestEntry i = some entry →
        entryOutcome entry (b'.progress i) ≠ .unfinished) ∧
      ∃ i entry, b'.manifestEntry i = some entry ∧
        entryOutcome entry (b'.progress i) = .failed) : Follows b b' := by
  obtain ⟨hcan, rfl⟩ := updateState_cases h
  refine ⟨hcan, ?_, fun hnext _ => hcompleted hnext, fun hnext _ => hhalf hnext⟩
  intro hterminal
  exact ⟨BatchState.eq_of_canTransitionTo hcan hterminal, rfl⟩

theorem Inv.start : Inv {} := ⟨fun _ => rfl, fun _ h => by cases h⟩

theorem Inv.of_record (h : Inv w) (hb : w.record = some b)
    (hopen : b'.state.isTerminal = false → b.state.isTerminal = false)
    (hscan : ∀ c, Occupied w.requests (· = c) → b.state.isTerminal = false → ScanOk b c →
      ScanOk b' c) : Inv { w with record := some b' } := by
  refine ⟨(fun hnone => by cases hnone), ?_⟩
  intro b'' hb'' hb'open i c hc
  obtain rfl := Option.some.inj hb''
  have hbopen := hopen hb'open
  exact hscan c ⟨i, c, hc, rfl⟩ hbopen (h.scans b hb hbopen i c hc)

theorem Inv.of_record_same (h : Inv w) (hb : w.record = some b)
    (hopen : b'.state.isTerminal = false → b.state.isTerminal = false)
    (hmanifest : b'.manifest = b.manifest) (hprogress : b'.progress = b.progress) :
    Inv { w with record := some b' } :=
  h.of_record hb hopen fun _ _ _ hc => hc.of_same hmanifest fun i _ _ _ => by rw [hprogress]

theorem Inv.setRequest (h : Inv w) (hb : w.record = some b) (request : Nat)
    {next : Option Completion}
    (hnext : ∀ c, next = some c → b.state.isTerminal = false → ScanOk b c) :
    Inv (w.setRequest request next) := by
  refine ⟨fun hnone => ?_, ?_⟩
  · change w.record = none at hnone
    rw [hb] at hnone
    cases hnone
  · intro b' hb' hopen i c hc
    change w.record = some b' at hb'
    rw [hb] at hb'
    obtain rfl := Option.some.inj hb'
    change Function.update w.requests request next i = some c at hc
    by_cases hi : i = request
    · rw [hi, Function.update_self] at hc
      exact hnext c hc hopen
    · rw [Function.update_of_ne hi] at hc
      exact h.scans b hb hopen i c hc

theorem writeManifest_cases {entries : List ManifestEntry}
    (h : b.writeManifest lineLength entries = some b') :
    b.manifest = none ∧ ∃ written, b' = { b with manifest := some written, progress := fun _ => {} } := by
  rw [StoredBatch.writeManifest] at h
  split at h
  · cases h
  · rename_i hnone
    obtain ⟨written, -, rfl⟩ := Option.map_eq_some_iff.1 h
    exact ⟨by simpa using hnone, written, rfl⟩

theorem commitTargets_cases {root : List Char} {targets : List TargetRecord} {now : Nat}
    (h : b.commitTargets root targets now = some b') : b.state.isTerminal = false ∧
      b' = { b with targetRoot := some root, targets, updatedAt := max now b.updatedAt } := by
  rw [StoredBatch.commitTargets] at h
  split at h
  · cases h
  · rename_i hopen
    exact ⟨by simpa using hopen, (Option.some.inj h).symm⟩

/-- An entry that has neither failed nor is unfinished has all of its bytes. -/
theorem eq_of_entryOutcome {entry : ManifestEntry} {progress : EntryProgress}
    (hdone : entryOutcome entry progress ≠ .unfinished)
    (hok : entryOutcome entry progress ≠ .failed) :
    progress = { state := .completed, committedOffset := entry.size } := by
  obtain ⟨state, committed⟩ := progress
  cases state with
  | completed =>
    have hall : committed = entry.size := by
      by_contra hne
      exact hdone (if_neg hne)
    rw [hall]
  | failed => exact absurd rfl hok
  | canceled => exact absurd rfl hok
  | pending => exact absurd rfl hdone
  | transferring => exact absurd rfl hdone
  | waitingNetwork => exact absurd rfl hdone
  | needsReselection => exact absurd rfl hdone

/-- The completion writes the state that its reading allows. -/
theorem follows_of_writing {failed : Bool} {now : Nat} (h : ScanOk b (.writing failed))
    (hupdate : b.updateState (if failed then .partialFailure else .completed) now = some b') :
    Follows b b' := by
  obtain ⟨hsome, hverdict⟩ := h
  obtain ⟨-, hb'⟩ := updateState_cases hupdate
  have hmanifest : b'.manifest = b.manifest := by rw [hb']
  have hprogress : b'.progress = b.progress := by rw [hb']
  have hverdict' : Verdict b' (fun _ => True) failed :=
    hverdict.of_same hmanifest fun i _ _ _ => by rw [hprogress]
  refine Follows.of_updateState hupdate ?_ ?_
  · intro hnext
    have hnone : failed = false := by
      cases failed with
      | true => cases hnext
      | false => rfl
    refine ⟨by rw [hmanifest]; exact hsome, ?_⟩
    intro i entry he
    apply eq_of_entryOutcome (hverdict'.terminal i entry trivial he)
    intro hout
    have hflag := hverdict'.failed_iff.2 ⟨i, entry, trivial, he, hout⟩
    rw [hnone] at hflag
    cases hflag
  · intro hnext
    have hflag : failed = true := by
      cases failed with
      | true => rfl
      | false => cases hnext
    obtain ⟨i, entry, -, he, hout⟩ := hverdict'.failed_iff.1 hflag
    exact ⟨fun i entry he => hverdict'.terminal i entry trivial he, i, entry, he, hout⟩

theorem inv_step (h : Inv w) {e : BatchEvent} (hok : w.Unraced e)
    (hs : w.step lineLength e = some w') :
    Inv w' ∧ ∀ b b', w.record = some b → w'.record = some b' → Follows b b' := by
  cases e with
  | create record =>
    rw [step] at hs
    split at hs
    · rename_i hnew
      cases hs
      have hnone : w.record = none := by simpa using hnew.1
      refine ⟨⟨(fun hcontra => by cases hcontra), ?_⟩, ?_⟩
      · intro b _ _ i c hc
        rw [h.idle hnone] at hc
        cases hc
      · intro b b' hb
        rw [hnone] at hb
        cases hb
    · cases hs
  | abandon =>
    cases hs
    exact ⟨⟨fun _ => rfl, (fun _ hb => by cases hb)⟩, (fun _ _ _ hb' => by cases hb')⟩
  | update next now =>
    rw [step] at hs
    split at hs
    · cases hs
    · rename_i hnext
      obtain ⟨b', hupdate, rfl⟩ := Option.map_eq_some_iff.1 hs
      obtain ⟨b, hb, hupdate⟩ := Option.bind_eq_some_iff.1 hupdate
      obtain ⟨hcan, hb'⟩ := updateState_cases hupdate
      have hopen : b'.state.isTerminal = false → b.state.isTerminal = false := by
        rw [hb']
        exact BatchState.open_of_canTransitionTo hcan
      refine ⟨h.of_record_same hb hopen (by rw [hb']) (by rw [hb']), ?_⟩
      intro b₁ b₂ h₁ h₂
      rw [hb] at h₁
      obtain rfl := Option.some.inj h₁
      obtain rfl := Option.some.inj h₂
      exact Follows.of_updateState hupdate (fun heq => absurd (.inl heq) hnext)
        fun heq => absurd (.inr heq) hnext
  | writeManifest entries =>
    obtain ⟨b', hwrite, rfl⟩ := Option.map_eq_some_iff.1 hs
    obtain ⟨b, hb, hwrite⟩ := Option.bind_eq_some_iff.1 hwrite
    obtain ⟨hnone, written, rfl⟩ := writeManifest_cases hwrite
    refine ⟨h.of_record hb id ?_, ?_⟩
    · intro c _ _ hc
      cases c with
      | scanning ordinal terminal failed =>
        intro hflag
        obtain ⟨rfl, rfl⟩ := (hc hflag).1 hnone
        exact ⟨(fun hcontra => by cases hcontra), Verdict.empty⟩
      | writing failed =>
        rw [ScanOk, hnone] at hc
        cases hc.1
    · intro b₁ b₂ h₁ h₂
      rw [hb] at h₁
      obtain rfl := Option.some.inj h₁
      obtain rfl := Option.some.inj h₂
      exact Follows.of_state_eq rfl fun _ => rfl
  | commitTargets root targets now =>
    obtain ⟨b', hcommit, rfl⟩ := Option.map_eq_some_iff.1 hs
    obtain ⟨b, hb, hcommit⟩ := Option.bind_eq_some_iff.1 hcommit
    obtain ⟨hopen, rfl⟩ := commitTargets_cases hcommit
    refine ⟨h.of_record_same hb id rfl rfl, ?_⟩
    intro b₁ b₂ h₁ h₂
    rw [hb] at h₁
    obtain rfl := Option.some.inj h₁
    obtain rfl := Option.some.inj h₂
    refine Follows.of_state_eq rfl fun hterminal => ?_
    rw [hopen] at hterminal
    cases hterminal
  | writeProgress ordinal progress =>
    obtain ⟨b, hb, hs⟩ := Option.bind_eq_some_iff.1 hs
    split at hs
    · cases hs
      refine ⟨h.of_record hb id ?_, ?_⟩
      · intro c hocc hopen hc
        refine hc.of_same rfl ?_
        intro i entry he hread
        by_cases hi : i = ordinal
        · subst hi
          obtain ⟨j, c', hj, rfl⟩ := hocc
          have hsame := hok b entry hb hopen he ⟨j, c', hj, hread⟩
          simpa [StoredBatch.writeProgress] using hsame
        · simp [StoredBatch.writeProgress, Function.update_of_ne hi]
      · intro b₁ b₂ h₁ h₂
        rw [hb] at h₁
        obtain rfl := Option.some.inj h₁
        obtain rfl := Option.some.inj h₂
        exact Follows.of_state_eq rfl fun _ => rfl
    · cases hs
  | complete request =>
    obtain ⟨b, hb, hs⟩ := Option.bind_eq_some_iff.1 hs
    split at hs
    · cases hs
    · cases hs
      refine ⟨h.setRequest hb request ?_, ?_⟩
      · intro c hc _
        obtain rfl := Option.some.inj hc
        exact fun _ => ⟨fun _ => ⟨rfl, rfl⟩, Verdict.empty⟩
      · intro b₁ b₂ h₁ h₂
        obtain rfl := Option.some.inj (h₁.symm.trans h₂)
        exact Follows.of_state_eq rfl fun _ => rfl
  | scan request =>
    obtain ⟨b, hb, hs⟩ := Option.bind_eq_some_iff.1 hs
    obtain ⟨c, hc, rfl⟩ := Option.map_eq_some_iff.1 hs
    refine ⟨h.setRequest hb request ?_, ?_⟩
    · intro next hnext hopen
      exact (h.scans b hb hopen _ c hc).scan hnext
    · intro b₁ b₂ h₁ h₂
      obtain rfl := Option.some.inj (h₁.symm.trans h₂)
      exact Follows.of_state_eq rfl fun _ => rfl
  | finish request now =>
    obtain ⟨b, hb, hs⟩ := Option.bind_eq_some_iff.1 hs
    obtain ⟨c, hc, hs⟩ := Option.bind_eq_some_iff.1 hs
    have hcleared : Inv (w.setRequest request none) :=
      h.setRequest hb request fun c hc => by cases hc
    cases c with
    | scanning ordinal terminal failed => cases hs
    | writing failed =>
      simp only at hs
      split at hs
      · rename_i b' hupdate
        cases hs
        obtain ⟨hcan, hb'⟩ := updateState_cases hupdate
        have hopen : b'.state.isTerminal = false → b.state.isTerminal = false := by
          rw [hb']
          exact BatchState.open_of_canTransitionTo hcan
        refine ⟨hcleared.of_record_same hb hopen (by rw [hb']) (by rw [hb']), ?_⟩
        intro b₁ b₂ h₁ h₂
        rw [hb] at h₁
        obtain rfl := Option.some.inj h₁
        obtain rfl := Option.some.inj h₂
        cases hterminal : b.state.isTerminal with
        | true =>
          -- another request has written the state meanwhile
          refine Follows.of_state_eq ?_ fun _ => by rw [hb']
          rw [hb']
          exact BatchState.eq_of_canTransitionTo hcan hterminal
        | false => exact follows_of_writing (h.scans _ hb hterminal _ _ hc) hupdate
      · cases hs
        refine ⟨hcleared, ?_⟩
        intro b₁ b₂ h₁ h₂
        obtain rfl := Option.some.inj (h₁.symm.trans h₂)
        exact Follows.of_state_eq rfl fun _ => rfl
  | restart cutoff =>
    cases hs
    refine ⟨⟨fun _ => rfl, fun _ _ _ => all_empty⟩, ?_⟩
    intro b₁ b₂ h₁ h₂
    have hkept : w.record = some b₂ := (Option.filter_eq_some_iff.1 h₂).1
    obtain rfl := Option.some.inj (h₁.symm.trans hkept)
    exact Follows.of_state_eq rfl fun _ => rfl

end Steps

/-- A batch goes from state to state as `can_transition_to` says, a terminal one stays as it is,
and it is completed, or partly failed, only when its entries are: in every run in which no entry
that a completion has read gets another outcome before the completion writes the state. -/
theorem batch_follows {lineLength : ManifestEntry → Nat} {w w' : BatchWorld} {e : BatchEvent}
    (hreach : Machine.Reach (step lineLength) Unraced {} w) (hok : w.Unraced e)
    (hs : w.step lineLength e = some w') {b b' : StoredBatch} (hb : w.record = some b)
    (hb' : w'.record = some b') : Follows b b' := by
  have hinv : Inv w := hreach.invariant Inv Inv.start
    fun w e w' h hok hs => (inv_step h hok hs).1
  exact (inv_step hinv hok hs).2 b b' hb hb'

/-- A batch of one file for the phone, before the file is transferred. -/
def fileEvents : List BatchEvent :=
  [.create
      { batchId := "batch"
        phoneId := "phone"
        direction := .computerToPhone
        state := .waitingConfirmation
        createdAt := 0
        updatedAt := 0
        fileCount := 1
        directoryCount := 0
        totalBytes := 2 },
    .writeManifest
      [{ ordinal := 0, entryId := "f", relativePath := ['f'], kind := .file, size := 2 }],
    .update .queued 1, .update .preparing 2, .update .transferring 3]

def fileBatch : StoredBatch :=
  { batchId := "batch"
    phoneId := "phone"
    direction := .computerToPhone
    state := .transferring
    createdAt := 0
    updatedAt := 3
    fileCount := 1
    directoryCount := 0
    totalBytes := 2
    manifest := some
      [{ ordinal := 0, entryId := "f", relativePath := ['f'], kind := .file, size := 2 }] }

def doneBatch : StoredBatch :=
  fileBatch.writeProgress 0 { state := .completed, committedOffset := 2 }

theorem run_fileEvents :
    Machine.run (step fun _ => 10) {} fileEvents = some { record := some fileBatch } := rfl

def readEvents : List BatchEvent := [.complete 0, .scan 0, .scan 0]

theorem batch_follows_file : ∃ w w' b b',
    Machine.Reach (step fun _ => 10) Unraced {} w ∧ w.Unraced (.finish 0 4) ∧
      w.step (fun _ => 10) (.finish 0 4) = some w' ∧ w.record = some b ∧ w'.record = some b' ∧
      b'.state = .completed ∧ Follows b b' := by
  have hfile : Machine.Reach (step fun _ => 10) Unraced {} { record := some fileBatch } :=
    Machine.Reach.start.run fileEvents
      (Machine.along_of_forall _ (by simp [fileEvents, Unraced])) run_fileEvents
  have hnone : ¬HasRead { record := some fileBatch } 0 := by
    rintro ⟨i, c, hc, -⟩
    cases hc
  have hdone : Machine.Reach (step fun _ => 10) Unraced {} { record := some doneBatch } :=
    hfile.next (e := .writeProgress 0 { state := .completed, committedOffset := 2 })
      (fun _ _ _ _ _ hread => absurd hread hnone) rfl
  have hread : ∃ w, Machine.run (step fun _ => 10) { record := some doneBatch } readEvents =
      some w ∧ w.requests 0 = some (.writing false) ∧ w.record = some doneBatch :=
    ⟨_, rfl, rfl, rfl⟩
  obtain ⟨w, hrun, hrequest, hrecord⟩ := hread
  have hreach := hdone.run readEvents
    (Machine.along_of_forall _ (by simp [readEvents, Unraced])) hrun
  have hfinish : w.step (fun _ => 10) (.finish 0 4) = some
      { w.setRequest 0 none with
        record := some { doneBatch with state := .completed, updatedAt := 4 } } := by
    rw [step, hrecord, hrequest]
    rfl
  exact ⟨w, _, doneBatch, _, hreach, trivial, hfinish, hrecord, rfl, rfl,
    batch_follows (e := .finish 0 4) hreach trivial hfinish hrecord rfl⟩

/-- The phone reports that it could not publish the file, after a request that completes the
batch has read that the file is there. -/
def overtakenEvents : List BatchEvent :=
  fileEvents ++ .writeProgress 0 { state := .completed, committedOffset := 2 } :: readEvents ++
    [.writeProgress 0 { state := .failed, committedOffset := 2 }]

theorem completed_with_failed : ∃ w w' b b',
    Machine.run (step fun _ => 10) {} overtakenEvents = some w ∧
      w.step (fun _ => 10) (.finish 0 4) = some w' ∧ w.record = some b ∧ w'.record = some b' ∧
      ¬Follows b b' := by
  refine ⟨_, _, _, _, rfl, rfl, rfl, rfl, ?_⟩
  intro h
  have hall := (h.completed rfl (by decide)).2 0 _ rfl
  have hstate := congrArg EntryProgress.state hall
  cases hstate

end BatchWorld

end FlowType
