import FlowType.ManifestStorage
import FlowType.Runs
import Mathlib.Data.Countable.Basic
import Mathlib.Logic.Equiv.List
import Mathlib.Tactic.DeriveCountable
import Mathlib.Tactic.IntervalCases

/-! The writers of the manifest of one batch. Each name in the batch's directory leads to the file
that some writer has created, or nowhere; a file whose name is removed is still written to by
the writer that has it open, and a writer that is dropped removes by name. -/
namespace FlowType

/-- How far a writer is; `dropping` counts the names that its drop has gone through. -/
inductive WriterPhase
  | writing
  | manifestWritten
  | indexWritten
  | progressMade
  | committed
  | dropping (names : Nat)
  | gone
  deriving DecidableEq, Repr

structure StoredWriter where
  writer : ManifestWriter
  manifestFile : List UInt8 := []
  indexFile : List UInt8 := []
  phase : WriterPhase := .writing

/-- The directory of the batch, and the writers that have been. -/
structure ManifestWorld where
  manifest : Option Nat := none
  index : Option Nat := none
  progress : Bool := false
  complete : Option ManifestComplete := none
  next : Nat := 0
  writers : Nat → Option StoredWriter := fun _ => none

/-- `begin` may stop after some of its accesses. `spill` is what lies on the disk of the files
that are not flushed. `finish` is the next step of a writer that finishes. `fail` stands for an
error or a writer that is given up, `remove` for the next removal of its drop, which may fail. -/
inductive ManifestStep
  | begin (accesses : Nat)
  | append (id : Nat) (entry : ManifestEntry)
  | spill (id : Nat) (manifestFile indexFile : List UInt8)
  | finish (id : Nat)
  | fail (id : Nat)
  | remove (id : Nat) (removed : Bool)
  | crash

namespace StoredWriter

def Alive (w : StoredWriter) : Prop := w.phase ≠ .committed ∧ w.phase ≠ .gone

/-- How many of the files are whole, counted from one; none of a writer that is dropped. -/
def stage (w : StoredWriter) : Nat :=
  match w.phase with
  | .writing => 1
  | .manifestWritten => 2
  | .indexWritten => 3
  | .progressMade => 4
  | .committed => 5
  | .dropping _ => 0
  | .gone => 0

end StoredWriter

namespace ManifestWorld

variable (json : EntryJson) (digest : List UInt8 → String) (b : StoredBatch)

def setWriter (s : ManifestWorld) (id : Nat) (w : StoredWriter) : ManifestWorld :=
  { s with writers := Function.update s.writers id (some w) }

/-- The accesses of `begin_manifest`; the last one is the writer that is returned. -/
def beginAccesses : List (ManifestWorld → ManifestWorld) :=
  [fun s => { s with manifest := none },
    fun s => { s with index := none },
    fun s => { s with progress := false },
    fun s => { s with complete := none },
    fun s => { s with manifest := some s.next },
    fun s => { s with index := some s.next },
    fun s => { s.setWriter s.next { writer := newWriter b } with next := s.next + 1 }]

/-- The removals of `ManifestWriter::drop`. -/
def removeName (s : ManifestWorld) : Nat → ManifestWorld
  | 0 => { s with manifest := none }
  | 1 => { s with index := none }
  | 2 => { s with progress := false }
  | _ => { s with complete := none }

def drop (s : ManifestWorld) (id : Nat) (w : StoredWriter) : ManifestWorld :=
  s.setWriter id { w with phase := .dropping 0 }

/-- `ManifestWriter::append`; an error gives the writer up. -/
def append (s : ManifestWorld) (id : Nat) (w : StoredWriter) (entry : ManifestEntry) :
    ManifestWorld :=
  match w.writer.append json.lineLength entry with
  | none => s.drop id w
  | some writer =>
    if 2 ^ 64 ≤ (manifestBytes json writer.entries).length then s.drop id w
    else s.setWriter id { w with writer := writer }

/-- The steps of `ManifestWriter::finish`. -/
def finish (s : ManifestWorld) (id : Nat) (w : StoredWriter) : Option ManifestWorld :=
  match w.phase with
  | .writing =>
    if w.writer.finish.isNone then some (s.drop id w)
    else some (s.setWriter id { w with
      manifestFile := manifestBytes json w.writer.entries
      phase := .manifestWritten })
  | .manifestWritten => some (s.setWriter id { w with
      indexFile := indexBytes json 0 w.writer.entries
      phase := .indexWritten })
  | .indexWritten =>
    -- `initialize_progress`
    if 2 ^ 64 ≤ w.writer.entries.length * 16 ∨ s.progress = true then some (s.drop id w)
    else some { s.setWriter id { w with phase := .progressMade } with progress := true }
  | .progressMade => some { s.setWriter id { w with phase := .committed } with
      complete := some ⟨w.writer.entries.length, digest (manifestBytes json w.writer.entries)⟩ }
  | _ => none

def step (s : ManifestWorld) : ManifestStep → Option ManifestWorld
  | .begin accesses =>
    if s.complete.isSome then none
    else some (((beginAccesses b).take accesses).foldl (fun s access => access s) s)
  | .append id entry =>
    (s.writers id).bind fun w =>
      if w.phase = .writing then some (s.append json id w entry) else none
  | .spill id manifestFile indexFile =>
    (s.writers id).bind fun w =>
      if w.phase = .writing then some (s.setWriter id { w with manifestFile, indexFile })
      else if w.phase = .manifestWritten then some (s.setWriter id { w with indexFile })
      else none
  | .finish id => (s.writers id).bind fun w => s.finish json digest id w
  | .fail id =>
    (s.writers id).bind fun w =>
      if 1 ≤ w.stage ∧ w.stage ≤ 4 then some (s.drop id w) else none
  | .remove id removed =>
    (s.writers id).bind fun w =>
      match w.phase with
      | .dropping names =>
        let s := if removed then s.removeName names else s
        some (s.setWriter id { w with
          phase := if names < 3 then .dropping (names + 1) else .gone })
      | _ => none
  | .crash => some { s with
      writers := fun id => (s.writers id).map fun w =>
        if w.phase = .committed then w else { w with phase := .gone } }

def manifestFile (s : ManifestWorld) : Option (List UInt8) :=
  s.manifest.map fun id => ((s.writers id).map StoredWriter.manifestFile).getD []

def indexFile (s : ManifestWorld) : Option (List UInt8) :=
  s.index.map fun id => ((s.writers id).map StoredWriter.indexFile).getD []

def listManifest (s : ManifestWorld) : Except String (List ManifestEntry) :=
  listEntries json digest s.complete s.manifestFile

def manifestEntry (s : ManifestWorld) (ordinal : Nat) : Except String ManifestEntry :=
  readEntry json s.complete s.manifestFile s.indexFile ordinal

/-- The writers have succeeded that are committed, and what they have taken is what is read; a
manifest is complete and readable or it can be begun. -/
structure Stored (s : ManifestWorld) : Prop where
  finished : ∀ id w, s.writers id = some w → w.phase = .committed →
    s.listManifest json digest = .ok w.writer.entries ∧
    (∀ i (h : i < w.writer.entries.length),
      s.manifestEntry json i = .ok w.writer.entries[i]) ∧
    TakenEntries json w.writer.entries ∧ MeetsTotals b w.writer.entries
  refused : (∃ id w, s.writers id = some w ∧ w.phase = .committed) →
    ∀ accesses, s.step json digest b (.begin accesses) = none
  readable : s.complete = none ∨ ∃ entries, s.listManifest json digest = .ok entries
  restarts : s.complete = none → ∃ s' id w, s.step json digest b (.begin 7) = some s' ∧
    s'.manifest = some id ∧ s'.index = some id ∧ s'.writers id = some w ∧
    w.phase = .writing ∧ w.writer = newWriter b

/-- A manifest is begun when no writer of the batch is alive. -/
def OneWriter (s : ManifestWorld) : ManifestStep → Prop
  | .begin _ => ∀ id w, s.writers id = some w → ¬w.Alive
  | _ => True

variable {json : EntryJson} {digest : List UInt8 → String} {b : StoredBatch}
  {s s' : ManifestWorld} {id : Nat} {w w' : StoredWriter}

/-- What a writer has reached: the names lead to its files, and those are whole that it is past. -/
structure Reached (json : EntryJson) (digest : List UInt8 → String) (s : ManifestWorld)
    (id : Nat) (w : StoredWriter) : Prop where
  manifestName : 1 ≤ w.stage → s.manifest = some id
  indexName : 1 ≤ w.stage → s.index = some id
  finished : 2 ≤ w.stage → w.writer.finish ≠ none
  manifest : 2 ≤ w.stage → w.manifestFile = manifestBytes json w.writer.entries
  index : 3 ≤ w.stage → w.indexFile = indexBytes json 0 w.writer.entries
  counted : 4 ≤ w.stage → w.writer.entries.length * 16 < 2 ^ 64
  complete : 5 ≤ w.stage → s.complete =
    some ⟨w.writer.entries.length, digest (manifestBytes json w.writer.entries)⟩

structure Written (json : EntryJson) (b : StoredBatch) (w : ManifestWriter) : Prop where
  inv : WriterInv json b w
  short : (manifestBytes json w.entries).length < 2 ^ 64

structure Inv (json : EntryJson) (digest : List UInt8 → String) (b : StoredBatch)
    (s : ManifestWorld) : Prop where
  fresh : ∀ id w, s.writers id = some w → id < s.next
  written : ∀ id w, s.writers id = some w → Written json b w.writer
  reached : ∀ id w, s.writers id = some w → Reached json digest s id w
  alone : ∀ id w id' w', s.writers id = some w → s.writers id' = some w' →
    w.Alive → w'.Alive → id = id'
  exclusive : ∀ id w, s.writers id = some w → w.Alive → s.complete = none
  owned : s.complete ≠ none → ∃ id w, s.writers id = some w ∧ w.phase = .committed

theorem Reached.of_gone (hphase : w.stage = 0) : Reached json digest s id w := by
  constructor <;> intro h <;> omega

theorem Inv.start : Inv json digest b {} where
  fresh _ _ h := nomatch h
  written _ _ h := nomatch h
  reached _ _ h := nomatch h
  alone _ _ _ _ h := nomatch h
  exclusive _ _ h := nomatch h
  owned h := absurd rfl h

/-- Next to a directory that is not complete every writer is alive or gone. -/
theorem Inv.gone (h : Inv json digest b s) (hcomplete : s.complete = none)
    (hw : s.writers id = some w) (hdead : ¬w.Alive) : w.phase = .gone := by
  by_contra hphase
  have hcommitted : w.phase = .committed := by
    by_contra hne
    exact hdead ⟨hne, hphase⟩
  have hstage : 5 ≤ w.stage := by simp [StoredWriter.stage, hcommitted]
  have hrecord := (h.reached id w hw).complete hstage
  rw [hcomplete] at hrecord
  cases hrecord

/-- A step of the writer that is alive. The others are gone, so that nothing is to be shown of
the names for them. -/
theorem Inv.setWriter (h : Inv json digest b s) (hw : s.writers id = some w) (halive : w.Alive)
    (hwriters : s'.writers = Function.update s.writers id (some w')) (hnext : s'.next = s.next)
    (hwritten : Written json b w'.writer) (hreached : Reached json digest s' id w')
    (hcomplete : s'.complete = none ∨ w'.phase = .committed) : Inv json digest b s' := by
  have hsame : s'.writers id = some w' := by rw [hwriters, Function.update_self]
  have hother : ∀ id' v, s'.writers id' = some v → id' ≠ id →
      s.writers id' = some v ∧ v.phase = .gone := by
    intro id' v hv hne
    rw [hwriters, Function.update_of_ne hne] at hv
    refine ⟨hv, h.gone (h.exclusive id w hw halive) hv ?_⟩
    intro hv'
    exact hne (h.alone id' v id w hv hw hv' halive)
  constructor
  · intro id' v hv
    rw [hnext]
    by_cases hid : id' = id
    · exact hid ▸ h.fresh id w hw
    · exact h.fresh id' v (hother id' v hv hid).1
  · intro id' v hv
    by_cases hid : id' = id
    · subst hid
      obtain rfl := Option.some.inj (hsame.symm.trans hv)
      exact hwritten
    · exact h.written id' v (hother id' v hv hid).1
  · intro id' v hv
    by_cases hid : id' = id
    · subst hid
      obtain rfl := Option.some.inj (hsame.symm.trans hv)
      exact hreached
    · apply Reached.of_gone
      simp [StoredWriter.stage, (hother id' v hv hid).2]
  · intro id₁ v₁ id₂ v₂ h₁ h₂ halive₁ halive₂
    have honly : ∀ id' v, s'.writers id' = some v → v.Alive → id' = id := by
      intro id' v hv hv'
      by_contra hid
      exact hv'.2 (hother id' v hv hid).2
    rw [honly id₁ v₁ h₁ halive₁, honly id₂ v₂ h₂ halive₂]
  · intro id' v hv hv'
    rcases hcomplete with hnone | hcommitted
    · exact hnone
    · by_cases hid : id' = id
      · subst hid
        obtain rfl := Option.some.inj (hsame.symm.trans hv)
        exact absurd hcommitted hv'.1
      · exact absurd (hother id' v hv hid).2 hv'.2
  · intro hsome
    rcases hcomplete with hnone | hcommitted
    · exact absurd hnone hsome
    · exact ⟨id, w', hsame, hcommitted⟩

theorem Inv.drop (h : Inv json digest b s) (hw : s.writers id = some w) (halive : w.Alive) :
    Inv json digest b (s.drop id w) :=
  h.setWriter hw halive rfl rfl (h.written id w hw) (Reached.of_gone rfl)
    (.inl (h.exclusive id w hw halive))

theorem Inv.append (h : Inv json digest b s) (hw : s.writers id = some w)
    (hphase : w.phase = .writing) (entry : ManifestEntry) :
    Inv json digest b (s.append json id w entry) := by
  have halive : w.Alive := by simp [StoredWriter.Alive, hphase]
  have hreached := h.reached id w hw
  have hstage : w.stage = 1 := by simp [StoredWriter.stage, hphase]
  unfold ManifestWorld.append
  split
  · exact h.drop hw halive
  · rename_i writer happend
    split_ifs with hshort
    · exact h.drop hw halive
    · refine h.setWriter hw halive rfl rfl ?_ ?_ (.inl (h.exclusive id w hw halive))
      · exact ⟨(h.written id w hw).inv.append happend, not_le.1 hshort⟩
      · have hstage' : { w with writer := writer }.stage = 1 := hstage
        constructor <;> intro hle <;> rw [hstage'] at hle
        · exact hreached.manifestName hstage.ge
        · exact hreached.indexName hstage.ge
        all_goals omega

theorem Inv.spill (h : Inv json digest b s) (hw : s.writers id = some w)
    (manifestFile indexFile : List UInt8)
    (hphase : w.phase = .writing ∨ w.phase = .manifestWritten ∧ manifestFile = w.manifestFile) :
    Inv json digest b (s.setWriter id { w with manifestFile, indexFile }) := by
  have halive : w.Alive := by
    rcases hphase with hphase | ⟨hphase, _⟩ <;> simp [StoredWriter.Alive, hphase]
  have hreached := h.reached id w hw
  have hsame : { w with manifestFile, indexFile }.stage = w.stage := rfl
  refine h.setWriter hw halive rfl rfl (h.written id w hw) ?_
    (.inl (h.exclusive id w hw halive))
  have hstage : w.stage = 1 ∨ w.stage = 2 ∧ manifestFile = w.manifestFile := by
    rcases hphase with hphase | ⟨hphase, hfile⟩
    · left
      simp [StoredWriter.stage, hphase]
    · right
      simp [StoredWriter.stage, hphase, hfile]
  constructor <;> intro hle <;> rw [hsame] at hle
  · exact hreached.manifestName hle
  · exact hreached.indexName hle
  · exact hreached.finished hle
  · rcases hstage with hone | ⟨_, hfile⟩
    · omega
    · exact hfile.trans (hreached.manifest hle)
  all_goals omega

/-- One step of `finish`: what is reached before stays and one file more is whole. -/
theorem Inv.finish (h : Inv json digest b s) (hw : s.writers id = some w)
    (hstep : s.finish json digest id w = some s') : Inv json digest b s' := by
  have hreached := h.reached id w hw
  have hwritten := h.written id w hw
  unfold ManifestWorld.finish at hstep
  split at hstep
  · rename_i hphase
    have halive : w.Alive := by simp [StoredWriter.Alive, hphase]
    have hstage : w.stage = 1 := by simp [StoredWriter.stage, hphase]
    split_ifs at hstep with hfinish
    · obtain rfl := Option.some.inj hstep
      exact h.drop hw halive
    · obtain rfl := Option.some.inj hstep
      refine h.setWriter hw halive rfl rfl hwritten ?_ (.inl (h.exclusive id w hw halive))
      constructor <;> intro hle <;> simp only [StoredWriter.stage] at hle
      · exact hreached.manifestName hstage.ge
      · exact hreached.indexName hstage.ge
      · simpa using hfinish
      · rfl
      all_goals omega
  · rename_i hphase
    have halive : w.Alive := by simp [StoredWriter.Alive, hphase]
    have hstage : w.stage = 2 := by simp [StoredWriter.stage, hphase]
    obtain rfl := Option.some.inj hstep
    refine h.setWriter hw halive rfl rfl hwritten ?_ (.inl (h.exclusive id w hw halive))
    constructor <;> intro hle <;> simp only [StoredWriter.stage] at hle
    · exact hreached.manifestName (by omega)
    · exact hreached.indexName (by omega)
    · exact hreached.finished hstage.ge
    · exact hreached.manifest hstage.ge
    · rfl
    all_goals omega
  · rename_i hphase
    have halive : w.Alive := by simp [StoredWriter.Alive, hphase]
    have hstage : w.stage = 3 := by simp [StoredWriter.stage, hphase]
    split_ifs at hstep with hcounted
    · obtain rfl := Option.some.inj hstep
      exact h.drop hw halive
    · obtain rfl := Option.some.inj hstep
      rw [not_or] at hcounted
      refine h.setWriter hw halive rfl rfl hwritten ?_ (.inl (h.exclusive id w hw halive))
      constructor <;> intro hle <;> simp only [StoredWriter.stage] at hle
      · exact hreached.manifestName (by omega)
      · exact hreached.indexName (by omega)
      · exact hreached.finished (by omega)
      · exact hreached.manifest (by omega)
      · exact hreached.index hstage.ge
      · exact not_le.1 hcounted.1
      · omega
  · rename_i hphase
    have halive : w.Alive := by simp [StoredWriter.Alive, hphase]
    have hstage : w.stage = 4 := by simp [StoredWriter.stage, hphase]
    obtain rfl := Option.some.inj hstep
    refine h.setWriter hw halive rfl rfl hwritten ?_ (.inr rfl)
    constructor <;> intro _
    · exact hreached.manifestName (by omega)
    · exact hreached.indexName (by omega)
    · exact hreached.finished (by omega)
    · exact hreached.manifest (by omega)
    · exact hreached.index (by omega)
    · exact hreached.counted hstage.ge
    · rfl
  · cases hstep

@[simp] theorem removeName_writers (s : ManifestWorld) (name : Nat) :
    (s.removeName name).writers = s.writers := by
  unfold removeName
  split <;> rfl

@[simp] theorem removeName_next (s : ManifestWorld) (name : Nat) :
    (s.removeName name).next = s.next := by
  unfold removeName
  split <;> rfl

theorem removeName_complete (s : ManifestWorld) (name : Nat) (h : s.complete = none) :
    (s.removeName name).complete = none := by
  unfold removeName
  split
  · exact h
  · exact h
  · exact h
  · rfl

theorem Inv.remove (h : Inv json digest b s) (hw : s.writers id = some w) {names : Nat}
    (hphase : w.phase = .dropping names) (removed : Bool) (phase : WriterPhase)
    (hstage : { w with phase := phase }.stage = 0) :
    Inv json digest b ((if removed then s.removeName names else s).setWriter id
      { w with phase := phase }) := by
  have halive : w.Alive := by simp [StoredWriter.Alive, hphase]
  have hnone := h.exclusive id w hw halive
  cases removed with
  | false =>
    exact h.setWriter hw halive rfl rfl (h.written id w hw) (Reached.of_gone hstage) (.inl hnone)
  | true =>
    refine @Inv.setWriter json digest b s _ id w { w with phase := phase } h hw halive ?_ ?_
      (h.written id w hw) (Reached.of_gone hstage) (.inl ?_)
    · simp [ManifestWorld.setWriter]
    · simp [ManifestWorld.setWriter]
    · exact removeName_complete s names hnone

/-- The accesses of `begin_manifest` before the last one touch names only. -/
theorem beginAccesses_early {accesses : Nat} (hearly : accesses < 7)
    (hcomplete : s.complete = none) {t : ManifestWorld}
    (ht : ((beginAccesses b).take accesses).foldl (fun s access => access s) s = t) :
    t.writers = s.writers ∧ t.next = s.next ∧ t.complete = none := by
  subst ht
  interval_cases accesses <;> simp [beginAccesses, hcomplete]

/-- What all the accesses leave: the names lead to the files of the new writer. -/
def begun (b : StoredBatch) (s : ManifestWorld) : ManifestWorld where
  manifest := some s.next
  index := some s.next
  next := s.next + 1
  writers := Function.update s.writers s.next (some { writer := newWriter b })

theorem beginAccesses_all {accesses : Nat} (hall : 7 ≤ accesses) (hcomplete : s.complete = none) :
    ((beginAccesses b).take accesses).foldl (fun s access => access s) s = begun b s := by
  rw [List.take_of_length_le (by simpa [beginAccesses] using hall)]
  simp [beginAccesses, ManifestWorld.setWriter, hcomplete, begun]

theorem written_newWriter (b : StoredBatch) : Written json b (newWriter b) :=
  ⟨writerInv_newWriter b, by simp [newWriter]⟩

theorem Inv.begin (h : Inv json digest b s) (hcomplete : s.complete = none)
    (halone : ∀ id w, s.writers id = some w → ¬w.Alive) (accesses : Nat) :
    Inv json digest b
      (((beginAccesses b).take accesses).foldl (fun s access => access s) s) := by
  have hgone : ∀ id w, s.writers id = some w → w.phase = .gone :=
    fun id w hw => h.gone hcomplete hw (halone id w hw)
  rcases lt_or_ge accesses 7 with hearly | hall
  · obtain ⟨hwriters, hnext, hnone⟩ := @beginAccesses_early b s accesses hearly hcomplete _ rfl
    constructor
    · intro id w hw
      rw [hwriters] at hw
      rw [hnext]
      exact h.fresh id w hw
    · intro id w hw
      rw [hwriters] at hw
      exact h.written id w hw
    · intro id w hw
      rw [hwriters] at hw
      apply Reached.of_gone
      simp [StoredWriter.stage, hgone id w hw]
    · intro id w _ _ hw _ halive
      rw [hwriters] at hw
      exact absurd halive (halone id w hw)
    · intro _ _ _ _
      exact hnone
    · intro hsome
      exact absurd hnone hsome
  · rw [beginAccesses_all hall hcomplete, begun]
    have hcases : ∀ id w, Function.update s.writers s.next
        (some { writer := newWriter b }) id = some w →
        (id = s.next ∧ w = { writer := newWriter b }) ∨ s.writers id = some w := by
      intro id w hw
      by_cases hid : id = s.next
      · subst hid
        rw [Function.update_self] at hw
        exact .inl ⟨rfl, (Option.some.inj hw).symm⟩
      · rw [Function.update_of_ne hid] at hw
        exact .inr hw
    constructor
    · intro id w hw
      rcases hcases id w hw with ⟨hid, _⟩ | hold
      · exact hid ▸ Nat.lt_succ_self _
      · exact Nat.lt_succ_of_lt (h.fresh id w hold)
    · intro id w hw
      rcases hcases id w hw with ⟨_, rfl⟩ | hold
      · exact written_newWriter b
      · exact h.written id w hold
    · intro id w hw
      rcases hcases id w hw with ⟨rfl, rfl⟩ | hold
      · constructor <;> intro hle <;> simp only [StoredWriter.stage] at hle
        · rfl
        · rfl
        all_goals omega
      · apply Reached.of_gone
        simp [StoredWriter.stage, hgone id w hold]
    · intro id w id' w' hw hw' halive halive'
      rcases hcases id w hw with ⟨hid, _⟩ | hold
      · rcases hcases id' w' hw' with ⟨hid', _⟩ | hold'
        · rw [hid, hid']
        · exact absurd halive' (halone id' w' hold')
      · exact absurd halive (halone id w hold)
    · intro _ _ _ _
      rfl
    · intro hsome
      exact absurd rfl hsome

theorem Inv.crash (h : Inv json digest b s) : Inv json digest b { s with
    writers := fun id => (s.writers id).map fun w =>
      if w.phase = .committed then w else { w with phase := .gone } } := by
  have hcases : ∀ id v, ((s.writers id).map fun w =>
      if w.phase = .committed then w else { w with phase := .gone }) = some v →
      ∃ w, s.writers id = some w ∧ v.writer = w.writer ∧
        (v.phase = .gone ∨ v = w ∧ v.phase = .committed) := by
    intro id v hv
    obtain ⟨w, hw, rfl⟩ := Option.map_eq_some_iff.1 hv
    refine ⟨w, hw, ?_⟩
    split_ifs with hcommitted
    · exact ⟨rfl, .inr ⟨rfl, hcommitted⟩⟩
    · exact ⟨rfl, .inl rfl⟩
  have hdead : ∀ id v, ((s.writers id).map fun w =>
      if w.phase = .committed then w else { w with phase := .gone }) = some v → ¬v.Alive := by
    intro id v hv halive
    obtain ⟨_, _, _, hgone | ⟨_, hcommitted⟩⟩ := hcases id v hv
    · exact halive.2 hgone
    · exact halive.1 hcommitted
  constructor
  · intro id v hv
    obtain ⟨w, hw, _⟩ := hcases id v hv
    exact h.fresh id w hw
  · intro id v hv
    obtain ⟨w, hw, hwriter, _⟩ := hcases id v hv
    rw [hwriter]
    exact h.written id w hw
  · intro id v hv
    obtain ⟨w, hw, _, hgone | ⟨rfl, _⟩⟩ := hcases id v hv
    · apply Reached.of_gone
      simp [StoredWriter.stage, hgone]
    · have hreached := h.reached id v hw
      exact ⟨hreached.manifestName, hreached.indexName, hreached.finished, hreached.manifest,
        hreached.index, hreached.counted, hreached.complete⟩
  · intro id v _ _ hv _ halive
    exact absurd halive (hdead id v hv)
  · intro id v hv halive
    exact absurd halive (hdead id v hv)
  · intro hsome
    obtain ⟨id, w, hw, hcommitted⟩ := h.owned hsome
    refine ⟨id, w, ?_, hcommitted⟩
    simp [hw, hcommitted]

theorem Inv.step {e : ManifestStep} (h : Inv json digest b s) (hok : OneWriter s e)
    (hstep : s.step json digest b e = some s') : Inv json digest b s' := by
  cases e with
  | begin accesses =>
    simp only [ManifestWorld.step] at hstep
    split_ifs at hstep with hcomplete
    obtain rfl := Option.some.inj hstep
    exact h.begin (by simpa using hcomplete) hok accesses
  | append id entry =>
    obtain ⟨w, hw, hstep⟩ := Option.bind_eq_some_iff.1 hstep
    split_ifs at hstep with hphase
    obtain rfl := Option.some.inj hstep
    exact h.append hw hphase entry
  | spill id manifestFile indexFile =>
    obtain ⟨w, hw, hstep⟩ := Option.bind_eq_some_iff.1 hstep
    split_ifs at hstep with hwriting hmanifest
    · obtain rfl := Option.some.inj hstep
      exact h.spill hw manifestFile indexFile (.inl hwriting)
    · obtain rfl := Option.some.inj hstep
      exact h.spill hw w.manifestFile indexFile (.inr ⟨hmanifest, rfl⟩)
  | finish id =>
    obtain ⟨w, hw, hstep⟩ := Option.bind_eq_some_iff.1 hstep
    exact h.finish hw hstep
  | fail id =>
    obtain ⟨w, hw, hstep⟩ := Option.bind_eq_some_iff.1 hstep
    split_ifs at hstep with hstage
    obtain rfl := Option.some.inj hstep
    have halive : w.Alive := by
      constructor <;> intro hphase <;> simp [StoredWriter.stage, hphase] at hstage
    exact h.drop hw halive
  | remove id removed =>
    obtain ⟨w, hw, hstep⟩ := Option.bind_eq_some_iff.1 hstep
    split at hstep
    · rename_i names hphase
      obtain rfl := Option.some.inj hstep
      apply h.remove hw hphase removed
      simp only [StoredWriter.stage]
      split_ifs <;> rfl
    · cases hstep
  | crash =>
    obtain rfl := Option.some.inj hstep
    exact h.crash

theorem Inv.read (h : Inv json digest b s) (hw : s.writers id = some w)
    (hcommitted : w.phase = .committed) :
    s.complete = some ⟨w.writer.entries.length, digest (manifestBytes json w.writer.entries)⟩ ∧
    s.manifestFile = some (manifestBytes json w.writer.entries) ∧
    s.indexFile = some (indexBytes json 0 w.writer.entries) := by
  have hstage : w.stage = 5 := by simp [StoredWriter.stage, hcommitted]
  have hreached := h.reached id w hw
  refine ⟨hreached.complete hstage.ge, ?_, ?_⟩
  · rw [ManifestWorld.manifestFile, hreached.manifestName (by omega)]
    simp [hw, hreached.manifest (by omega)]
  · rw [ManifestWorld.indexFile, hreached.indexName (by omega)]
    simp [hw, hreached.index (by omega)]

theorem Inv.listed (h : Inv json digest b s) (hw : s.writers id = some w)
    (hcommitted : w.phase = .committed) : s.listManifest json digest = .ok w.writer.entries := by
  obtain ⟨hcomplete, hmanifest, _⟩ := h.read hw hcommitted
  rw [listManifest, hcomplete, hmanifest]
  exact listEntries_of_taken (h.written id w hw).inv.taken

theorem Inv.stored (h : Inv json digest b s) : Stored json digest b s := by
  constructor
  · intro id w hw hcommitted
    have hstage : w.stage = 5 := by simp [StoredWriter.stage, hcommitted]
    have hwritten := h.written id w hw
    have hcounted := (h.reached id w hw).counted (by omega)
    obtain ⟨hcomplete, hmanifest, hindex⟩ := h.read hw hcommitted
    refine ⟨h.listed hw hcommitted, ?_, hwritten.inv.taken, ?_⟩
    · intro i hi
      rw [manifestEntry, hcomplete, hmanifest, hindex]
      exact readEntry_of_taken hwritten.inv.taken hwritten.short (by omega) hi
    · obtain ⟨entries, hfinish⟩ := Option.ne_none_iff_exists'.1
        ((h.reached id w hw).finished (by omega))
      obtain ⟨rfl, htotals⟩ := hwritten.inv.meetsTotals hfinish
      exact htotals
  · rintro ⟨id, w, hw, hcommitted⟩ accesses
    have hcomplete := (h.read hw hcommitted).1
    simp [ManifestWorld.step, hcomplete]
  · by_cases hcomplete : s.complete = none
    · exact .inl hcomplete
    · obtain ⟨id, w, hw, hcommitted⟩ := h.owned hcomplete
      exact .inr ⟨_, h.listed hw hcommitted⟩
  · intro hcomplete
    refine ⟨begun b s, s.next, { writer := newWriter b }, ?_, rfl, rfl, ?_, rfl, rfl⟩
    · simp only [ManifestWorld.step, hcomplete, beginAccesses_all le_rfl hcomplete]
      simp
    · exact Function.update_self ..

/-- What a writer has taken; nothing before it is there. -/
def entriesOf (s : ManifestWorld) (id : Nat) : List ManifestEntry :=
  ((s.writers id).map fun w => w.writer.entries).getD []

def Goes (s : ManifestWorld) (id : Nat) : Prop := ∀ w, s.writers id = some w → 1 ≤ w.stage

/-- The writers that are not given up have been none before, and have taken what is `added`. -/
def Continues (s s' : ManifestWorld) (added : Nat → List ManifestEntry) : Prop :=
  ∀ id, s'.Goes id → s.Goes id ∧ s'.entriesOf id = s.entriesOf id ++ added id

theorem Continues.trans {t : ManifestWorld} {added added' : Nat → List ManifestEntry}
    (h : Continues s t added) (h' : Continues t s' added') :
    Continues s s' fun id => added id ++ added' id := by
  intro id hgoes
  obtain ⟨hgoes', hentries'⟩ := h' id hgoes
  obtain ⟨hgoes, hentries⟩ := h id hgoes'
  refine ⟨hgoes, ?_⟩
  rw [hentries', hentries, List.append_assoc]

instance : Countable Char :=
  @Function.Injective.countable _ _ _ Char.toNat fun _ _ h => Char.toNat_inj.1 h

instance : Countable String :=
  @Function.Injective.countable _ _ _ String.toList fun _ _ h => String.toList_inj.1 h

deriving instance Countable for EntryKind, ManifestEntry

/-- There is a JSON of the entries that gives some of them the lines they are to have. -/
theorem exists_entryJson_lines {entries : List ManifestEntry} {line : ManifestEntry → List UInt8}
    (hline : ∀ entry ∈ entries, LF ∉ line entry) (hbrace : ∀ entry ∈ entries, 123 ∈ line entry)
    (hdistinct : ∀ entry ∈ entries, ∀ other ∈ entries, line entry = line other → entry = other) :
    ∃ json : EntryJson, ∀ entry ∈ entries, json.encode entry = line entry := by
  obtain ⟨number, hnumber⟩ := exists_injective_nat ManifestEntry
  let encode := fun e => if e ∈ entries then line e else List.replicate (number e) (49 : UInt8)
  have hother : ∀ entry ∈ entries, ∀ n, line entry ≠ List.replicate n 49 := by
    intro entry hentry n heq
    have hmem := hbrace entry hentry
    rw [heq] at hmem
    exact absurd (List.eq_of_mem_replicate hmem) (by decide)
  have hinjective : Function.Injective encode := by
    intro e e' heq
    dsimp only [encode] at heq
    split_ifs at heq with he he' he'
    · exact hdistinct e he e' he' heq
    · exact absurd heq (hother e he _)
    · exact absurd heq.symm (hother e' he' _)
    · apply hnumber
      simpa using congrArg List.length heq
  refine ⟨⟨encode, Function.partialInv encode, Function.partialInv_left hinjective, ?_⟩,
    fun entry hentry => if_pos hentry⟩
  intro e hmem
  dsimp only [encode] at hmem
  split_ifs at hmem with he
  · exact hline e he hmem
  · exact absurd (List.eq_of_mem_replicate hmem) (by decide)

/-- The digest of the line of the entry. -/
def photosDigest : String :=
  "9bd4e99c6f5b78d415c527dccf3385fee0a4b8754593334ee88580aa8e1c8906"

end ManifestWorld

end FlowType
