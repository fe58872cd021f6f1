import FlowType.Runs
import FlowType.TargetMapping

/-! Two batches that are received below one root. The targets of a batch are chosen against
the names that are on the disk while its manifest is walked; the targets of the files come
into existence when the files are committed. -/
namespace FlowType

/-- A path below the receive root. -/
abbrev RootPath := List (List Char)

inductive TargetStage
  | unprepared
  | walking (p : Preparation)
  | mapped (records : List TargetRecord)

/-- `made` has the paths that each of the two batches has put below the root, `others` what
else is there. -/
structure SharedRoot where
  manifest : Bool → List ManifestEntry
  stage : Bool → TargetStage := fun _ => .unprepared
  made : Bool → List RootPath := fun _ => []
  others : List RootPath := []

/-- The files that neither batch has put there come and go, and a path that a batch has made
may be taken away. -/
inductive RootEvent
  | start (batch : Bool)
  | visit (batch : Bool)
  | commit (batch : Bool)
  | abandon (batch : Bool)
  | makeDirectory (batch : Bool) (ordinal : Nat)
  | commitFile (batch : Bool) (ordinal : Nat)
  | outside (kept : RootPath → Bool) (others : List RootPath)

def TargetRecord.segments (record : TargetRecord) : RootPath := record.relativePath.splitOn '/'

def TargetStage.records : TargetStage → List TargetRecord
  | .unprepared => []
  | .walking p => p.records
  | .mapped records => records

namespace SharedRoot

def setStage (w : SharedRoot) (batch : Bool) (stage : TargetStage) : SharedRoot :=
  { w with stage := Function.update w.stage batch stage }

def targets (w : SharedRoot) (batch : Bool) : List RootPath :=
  (w.stage batch).records.map TargetRecord.segments

def present (w : SharedRoot) : List RootPath := w.made false ++ w.made true ++ w.others

variable (lineLength : ManifestEntry → Nat) (lower : List Char → List Char)

/-- The names that are in the directory `parent`; the file system ignores case. -/
def existing (w : SharedRoot) (parent : RootPath) : List (List Char) :=
  (w.present.filter fun path => path.dropLast.map lower = parent.map lower).filterMap List.getLast?

/-- `target_path`, once the mapping is committed, with the kind of the entry. -/
def targetOf (w : SharedRoot) (batch : Bool) (ordinal : Nat) : Option (EntryKind × RootPath) :=
  match w.stage batch with
  | .mapped records =>
    (w.manifest batch)[ordinal]?.bind fun entry =>
      records[ordinal]?.map fun record => (entry.kind, record.segments)
  | _ => none

def isPresent (w : SharedRoot) (target : RootPath) : Bool :=
  (w.present.map (List.map lower)).contains (target.map lower)

/-- A path that is there already stays as it is: a directory is not made twice, a file that is
committed again is not renamed again, and a file that is not the batch's own is not replaced
(`target_exists`). -/
def make (w : SharedRoot) (batch : Bool) (target : RootPath) : SharedRoot :=
  if w.isPresent lower target then w
  else { w with made := Function.update w.made batch (target :: w.made batch) }

def step (w : SharedRoot) : RootEvent → Option SharedRoot
  | .start batch =>
    match w.stage batch with
    | .unprepared => some (w.setStage batch (.walking {}))
    | _ => none
  | .visit batch =>
    match w.stage batch with
    | .walking p =>
      (w.manifest batch)[p.records.length]?.bind fun entry =>
        if entry.validate lineLength = false ∨ entry.ordinal ≠ p.records.length then none
        else match p.visit lower (w.existing lower) entry with
          | (p', true) => some (w.setStage batch (.walking p'))
          | (_, false) => none
    | _ => none
  | .commit batch =>
    match w.stage batch with
    | .walking p =>
      if p.records.length = (w.manifest batch).length then
        some (w.setStage batch (.mapped p.records))
      else none
    | _ => none
  | .abandon batch =>
    match w.stage batch with
    | .walking _ => some (w.setStage batch .unprepared)
    | _ => none
  | .makeDirectory batch ordinal =>
    match w.targetOf batch ordinal with
    | some (.directory, target) => some (w.make lower batch target)
    | _ => none
  | .commitFile batch ordinal =>
    match w.targetOf batch ordinal with
    | some (.file, target) => some (w.make lower batch target)
    | _ => none
  | .outside kept others =>
    some { w with made := fun batch => (w.made batch).filter kept, others }

/-- No target of one batch is, but for case, a target of the other. -/
def Apart (w : SharedRoot) : Prop :=
  ∀ target ∈ w.targets false, ∀ other ∈ w.targets true, target.map lower ≠ other.map lower

/-- Nothing that the other batch has made is where a target of a batch goes. -/
def Unblocked (w : SharedRoot) : Prop :=
  ∀ batch ordinal kind target, w.targetOf batch ordinal = some (kind, target) →
    ∀ path ∈ w.made !batch, path.map lower ≠ target.map lower

/-- When the walk of a batch comes to an entry at the top, the name that is the first free one
among those that the batch saw in the root or gave out itself is not one that the other batch
has chosen. -/
def Meets (w : SharedRoot) : RootEvent → Prop
  | .visit batch =>
    ∀ p entry, w.stage batch = .walking p → (w.manifest batch)[p.records.length]? = some entry →
      sourceParent entry.relativePath = [] →
      ∀ name, (p.reservation lower (w.existing lower) []).FirstFree lower
          (sanitizeWindowsSegment (sourceName entry.relativePath)) (entry.kind == .directory)
          name →
        ∀ other ∈ w.targets !batch, other.map lower ≠ [lower name]
  | _ => True

variable {lineLength lower}

theorem apart_iff (w : SharedRoot) (batch : Bool) :
    w.Apart lower ↔ ∀ target ∈ w.targets batch, ∀ other ∈ w.targets !batch,
      target.map lower ≠ other.map lower := by
  cases batch with
  | false => rfl
  | true =>
    constructor
    · intro h target htarget other hother heq
      exact h other hother target htarget heq.symm
    · intro h target htarget other hother heq
      exact h other hother target htarget heq.symm

theorem targets_setStage (w : SharedRoot) (batch : Bool) (stage : TargetStage) :
    (w.setStage batch stage).targets batch = stage.records.map TargetRecord.segments := by
  simp [targets, setStage]

theorem targets_setStage_other (w : SharedRoot) (batch : Bool) (stage : TargetStage) :
    (w.setStage batch stage).targets (!batch) = w.targets !batch := by
  simp [targets, setStage]

end SharedRoot

/-- The targets of a batch are made of plain names, and each lies in the root or in a target of
the same batch. -/
structure ClosedTargets (records : List TargetRecord) : Prop where
  plain : ∀ target ∈ records.map TargetRecord.segments, ∀ name ∈ target, PlainName name
  parent : ∀ target ∈ records.map TargetRecord.segments, ∃ parent name,
    target = parent ++ [name] ∧
      (parent = [] ∨ parent ∈ records.map TargetRecord.segments)

/-- What a walk keeps: the root is the directory of the entries at the top, and the other
directories are targets of the batch. -/
structure WalkInv (p : Preparation) : Prop where
  closed : ClosedTargets p.records
  mapped : ∀ path target, p.mappedDirectories.lookup path = some target →
    (path = [] ∧ target = []) ∨
      (path ≠ [] ∧ target ∈ p.records.map TargetRecord.segments)

def TargetStage.Inv : TargetStage → Prop
  | .unprepared => True
  | .walking p => WalkInv p
  | .mapped records => ClosedTargets records

theorem ClosedTargets.nil : ClosedTargets [] := ⟨by simp, by simp⟩

theorem TargetStage.Inv.closed {stage : TargetStage} (h : stage.Inv) :
    ClosedTargets stage.records := by
  cases stage with
  | unprepared => exact ClosedTargets.nil
  | walking p => exact WalkInv.closed h
  | mapped records => exact h

theorem ClosedTargets.concat {records : List TargetRecord} (h : ClosedTargets records)
    {record : TargetRecord} {parent : RootPath} {name : List Char}
    (hrecord : record.relativePath = wirePath (parent ++ [name])) (hname : PlainName name)
    (hparent : parent = [] ∨ parent ∈ records.map TargetRecord.segments) :
    (records ++ [record]).map TargetRecord.segments =
        records.map TargetRecord.segments ++ [parent ++ [name]] ∧
      ClosedTargets (records ++ [record]) := by
  have hplain : ∀ n ∈ parent ++ [name], PlainName n := by
    intro n hn
    rcases List.mem_append.1 hn with habove | hown
    · rcases hparent with rfl | hmem
      · cases habove
      · exact h.plain parent hmem n habove
    · rw [List.mem_singleton.1 hown]
      exact hname
  have hsegments : record.segments = parent ++ [name] := by
    rw [TargetRecord.segments, hrecord]
    exact splitOn_wirePath (by simp) fun name hname => (hplain name hname).pathName
  have hall : (records ++ [record]).map TargetRecord.segments =
      records.map TargetRecord.segments ++ [parent ++ [name]] := by
    rw [List.map_append, List.map_singleton, hsegments]
  refine ⟨hall, ?_, ?_⟩
  · intro target htarget
    rw [hall] at htarget
    rcases List.mem_append.1 htarget with hold | hlast
    · exact h.plain target hold
    · rw [List.mem_singleton.1 hlast]
      exact hplain
  · intro target htarget
    rw [hall] at htarget ⊢
    rcases List.mem_append.1 htarget with hold | hlast
    · obtain ⟨above, own, htarget, habove⟩ := h.parent target hold
      exact ⟨above, own, htarget, habove.imp_right fun hmem => List.mem_append_left _ hmem⟩
    · exact ⟨parent, name, List.mem_singleton.1 hlast,
        hparent.imp_right fun hmem => List.mem_append_left _ hmem⟩

theorem WalkInv.start : WalkInv {} := by
  refine ⟨ClosedTargets.nil, ?_⟩
  intro path target h
  by_cases hpath : path = []
  · rw [hpath] at h ⊢
    exact .inl ⟨rfl, (Option.some.inj h).symm⟩
  · have hnone : ([([], [])] : List (List Char × RootPath)).lookup path = none := by
      rw [List.lookup_cons, beq_false_of_ne hpath]
      rfl
    rw [hnone] at h
    cases h

section Visit
variable {lower : List Char → List Char} {existing : RootPath → List (List Char)}
variable {p p' : Preparation} {entry : ManifestEntry} {parent : RootPath} {name : List Char}
variable {r : WindowsNameReservation}

theorem WalkInv.parent_cases (h : WalkInv p)
    (hvisit : Preparation.Visit lower existing p entry parent name r p') :
    (sourceParent entry.relativePath = [] ∧ parent = []) ∨
      (sourceParent entry.relativePath ≠ [] ∧ parent ∈ p.records.map TargetRecord.segments) :=
  h.mapped _ _ hvisit.lookup

theorem WalkInv.visit (h : WalkInv p) (hpath : entry.relativePath ≠ [])
    (hvisit : Preparation.Visit lower existing p entry parent name r p') :
    p'.records.map TargetRecord.segments =
        p.records.map TargetRecord.segments ++ [parent ++ [name]] ∧ WalkInv p' := by
  have hparent : parent = [] ∨ parent ∈ p.records.map TargetRecord.segments :=
    (h.parent_cases hvisit).imp And.right And.right
  have hplain := (WindowsNameReservation.reserve_spec hvisit.reserve).1
  let record : TargetRecord := ⟨entry.ordinal, wirePath (parent ++ [name])⟩
  have hrecord : record.relativePath = wirePath (parent ++ [name]) := rfl
  obtain ⟨hall, hclosed⟩ := h.closed.concat hrecord hplain hparent
  rw [hvisit.after]
  refine ⟨hall, hclosed, ?_⟩
  intro path target hlookup
  rw [hall]
  have hold : ∀ target, p.mappedDirectories.lookup path = some target →
      (path = [] ∧ target = []) ∨ (path ≠ [] ∧
        target ∈ p.records.map TargetRecord.segments ++ [parent ++ [name]]) := by
    intro target htarget
    exact (h.mapped path target htarget).imp_right fun hmem =>
      ⟨hmem.1, List.mem_append_left _ hmem.2⟩
  by_cases hkind : entry.kind = .directory
  · simp only [if_pos hkind, List.lookup_cons] at hlookup
    split at hlookup
    · rename_i heq
      obtain rfl := Option.some.inj hlookup
      rw [beq_iff_eq.1 heq]
      exact .inr ⟨hpath, by simp⟩
    · exact hold target hlookup
  · simp only [if_neg hkind] at hlookup
    exact hold target hlookup

end Visit

namespace SharedRoot
variable {lineLength : ManifestEntry → Nat} {lower : List Char → List Char}

/-- What holds in every state: the stages of both batches are in order, and a batch has made
nothing but targets of a mapping that is committed. -/
structure Inv (w : SharedRoot) : Prop where
  stage : ∀ batch, (w.stage batch).Inv
  made : ∀ batch, ∀ path ∈ w.made batch, ∃ records, w.stage batch = .mapped records ∧
    path ∈ records.map TargetRecord.segments

/-- A walk that takes one entry further. -/
theorem step_visit {w w' : SharedRoot} {batch : Bool}
    (h : w.step lineLength lower (.visit batch) = some w') :
    ∃ p entry parent name r p', w.stage batch = .walking p ∧
      (w.manifest batch)[p.records.length]? = some entry ∧ entry.relativePath ≠ [] ∧
      Preparation.Visit lower (w.existing lower) p entry parent name r p' ∧
      w' = w.setStage batch (.walking p') := by
  rw [step] at h
  split at h
  · rename_i p hstage
    obtain ⟨entry, hentry, h⟩ := Option.bind_eq_some_iff.1 h
    split at h
    · cases h
    · rename_i hvalid
      simp only [not_or, Bool.not_eq_false] at hvalid
      split at h
      · rename_i p' hvisit
        obtain ⟨parent, name, r, hvisit⟩ := Preparation.visit_cases _ _ hvisit
        refine ⟨p, entry, parent, name, r, p', hstage, hentry, ?_, hvisit,
          (Option.some.inj h).symm⟩
        intro hnil
        have hpath := hvalid.1
        simp [ManifestEntry.validate, hnil, validateRelativePath] at hpath
      · cases h
  · cases h

/-- A target in a directory of its batch meets no target of a batch that was apart: their
directories would have met before. -/
theorem ne_of_parent_mem {w : SharedRoot} (hapart : w.Apart lower) {batch : Bool}
    (hclosed : ClosedTargets (w.stage (!batch)).records) {parent : RootPath} {name : List Char}
    (hparent : parent ∈ w.targets batch) (hne : parent ≠ []) :
    ∀ other ∈ w.targets !batch, other.map lower ≠ (parent ++ [name]).map lower := by
  intro other hother heq
  obtain ⟨parent', name', rfl, hparent'⟩ := hclosed.parent other hother
  rw [List.map_append, List.map_append] at heq
  have hparents : parent'.map lower = parent.map lower := (List.append_inj' heq rfl).1
  rcases hparent' with rfl | hmem
  · exact hne (List.map_eq_nil_iff.1 hparents.symm)
  · exact (w.apart_iff batch).1 hapart parent hparent parent' hmem hparents.symm

theorem apart_visit {w w' : SharedRoot} (hw : w.Inv) (hapart : w.Apart lower) {batch : Bool}
    (h : w.step lineLength lower (.visit batch) = some w') :
    w'.Apart lower ↔ w.Meets lower (.visit batch) := by
  obtain ⟨p, entry, parent, name, r, p', hstage, hentry, hpath, hvisit, rfl⟩ := step_visit h
  have hwalk : WalkInv p := by
    have hinv := hw.stage batch
    rwa [hstage] at hinv
  have hold : w.targets batch = p.records.map TargetRecord.segments := by
    rw [targets, hstage]
    rfl
  obtain ⟨hall, -⟩ := hwalk.visit hpath hvisit
  -- The targets are apart still when the new one meets none of the other batch.
  have hafter : (w.setStage batch (.walking p')).Apart lower ↔
      ∀ other ∈ w.targets !batch, other.map lower ≠ (parent ++ [name]).map lower := by
    rw [apart_iff _ batch, targets_setStage, targets_setStage_other]
    have hrecords : (TargetStage.walking p').records.map TargetRecord.segments =
        w.targets batch ++ [parent ++ [name]] := by
      rw [hold]
      exact hall
    rw [hrecords]
    constructor
    · intro hsep other hother heq
      exact hsep _ (by simp) other hother heq.symm
    · intro hsep target htarget other hother
      rcases List.mem_append.1 htarget with hmem | hlast
      · exact (w.apart_iff batch).1 hapart target hmem other hother
      · rw [List.mem_singleton.1 hlast]
        exact (hsep other hother).symm
  rw [hafter]
  rcases hwalk.parent_cases hvisit with ⟨htop, rfl⟩ | ⟨hdeep, hmem⟩
  · have hfirst : (p.reservation lower (w.existing lower) []).FirstFree lower
        (sanitizeWindowsSegment (sourceName entry.relativePath)) (entry.kind == .directory)
        name := by
      have hused := (WindowsNameReservation.reserve_spec hvisit.reserve).2.2.2
      rw [WindowsNameReservation.firstFree_iff, hvisit.reserve, ← hused]
    constructor
    · intro hsep p₁ entry₁ hstage₁ hentry₁ _ name₁ hname₁
      obtain rfl : p = p₁ := by
        rw [hstage] at hstage₁
        exact TargetStage.walking.inj hstage₁
      obtain rfl : entry = entry₁ := Option.some.inj (hentry.symm.trans hentry₁)
      have hsame : name = name₁ := by
        rw [WindowsNameReservation.firstFree_iff] at hfirst hname₁
        exact (Prod.mk.inj (Option.some.inj (hfirst.symm.trans hname₁))).1
      rw [← hsame]
      exact hsep
    · intro hmeets
      exact hmeets p entry hstage hentry htop name hfirst
  · have hne : parent ≠ [] := by
      obtain ⟨above, own, hparent, -⟩ := hwalk.closed.parent parent hmem
      simp [hparent]
    constructor
    · intro _ p₁ entry₁ hstage₁ hentry₁ htop₁
      obtain rfl : p = p₁ := by
        rw [hstage] at hstage₁
        exact TargetStage.walking.inj hstage₁
      obtain rfl : entry = entry₁ := Option.some.inj (hentry.symm.trans hentry₁)
      exact absurd htop₁ hdeep
    · intro _
      exact ne_of_parent_mem hapart (TargetStage.Inv.closed (hw.stage !batch)) (hold ▸ hmem) hne

theorem Inv.setStage {w : SharedRoot} (hw : w.Inv) {batch : Bool} {stage : TargetStage}
    (hstage : stage.Inv) (hunmapped : ∀ records, w.stage batch ≠ .mapped records) :
    (w.setStage batch stage).Inv := by
  constructor
  · intro other
    by_cases hother : other = batch
    · rw [hother]
      simpa [SharedRoot.setStage] using hstage
    · simpa [SharedRoot.setStage, hother] using hw.stage other
  · intro other path hpath
    obtain ⟨records, hmapped, hmem⟩ := hw.made other path hpath
    have hother : other ≠ batch := by
      rintro rfl
      exact hunmapped records hmapped
    exact ⟨records, by simpa [SharedRoot.setStage, hother] using hmapped, hmem⟩

theorem targetOf_eq_some {w : SharedRoot} {batch : Bool} {ordinal : Nat} {kind : EntryKind}
    {target : RootPath} (h : w.targetOf batch ordinal = some (kind, target)) :
    ∃ records, w.stage batch = .mapped records ∧ target ∈ records.map TargetRecord.segments := by
  rw [targetOf] at h
  split at h
  · rename_i records hstage
    obtain ⟨entry, -, h⟩ := Option.bind_eq_some_iff.1 h
    obtain ⟨record, hrecord, heq⟩ := Option.map_eq_some_iff.1 h
    obtain ⟨-, rfl⟩ := Prod.mk.inj heq
    exact ⟨records, hstage, List.mem_map_of_mem (List.mem_of_getElem? hrecord)⟩
  · cases h

theorem stage_make (w : SharedRoot) (batch : Bool) (target : RootPath) :
    (w.make lower batch target).stage = w.stage := by
  unfold make
  split <;> rfl

theorem Inv.make {w : SharedRoot} (hw : w.Inv) {batch : Bool} {ordinal : Nat} {kind : EntryKind}
    {target : RootPath} (h : w.targetOf batch ordinal = some (kind, target)) :
    (w.make lower batch target).Inv := by
  constructor
  · rw [stage_make]
    exact hw.stage
  · intro other path hpath
    rw [stage_make]
    unfold SharedRoot.make at hpath
    split at hpath
    · exact hw.made other path hpath
    · by_cases hother : other = batch
      · subst hother
        simp only [Function.update_self, List.mem_cons] at hpath
        rcases hpath with rfl | hpath
        · exact targetOf_eq_some h
        · exact hw.made other path hpath
      · simp only [Function.update_of_ne hother] at hpath
        exact hw.made other path hpath

/-- Every step keeps the invariant, and every step but a visit leaves the targets as they are
or takes some away. -/
theorem inv_step {w w' : SharedRoot} (hw : w.Inv) {event : RootEvent}
    (h : w.step lineLength lower event = some w') :
    w'.Inv ∧ ((∀ batch, event ≠ .visit batch) →
      ∀ batch, w'.targets batch ⊆ w.targets batch) := by
  cases event with
  | start batch =>
    rw [step] at h
    split at h
    · rename_i hstage
      obtain rfl := Option.some.inj h
      refine ⟨hw.setStage WalkInv.start (by simp [hstage]), ?_⟩
      intro _ other
      by_cases hother : other = batch
      · rw [hother, targets_setStage]
        exact List.nil_subset _
      · simp [targets, setStage, hother]
    · cases h
  | visit batch =>
    obtain ⟨p, entry, parent, name, r, p', hstage, -, hpath, hvisit, rfl⟩ := step_visit h
    have hwalk : WalkInv p := by
      have hinv := hw.stage batch
      rwa [hstage] at hinv
    refine ⟨hw.setStage (hwalk.visit hpath hvisit).2 (by simp [hstage]), ?_⟩
    intro hother
    exact absurd rfl (hother batch)
  | commit batch =>
    rw [step] at h
    split at h
    · rename_i p hstage
      split at h
      · obtain rfl := Option.some.inj h
        have hwalk : WalkInv p := by
          have hinv := hw.stage batch
          rwa [hstage] at hinv
        refine ⟨hw.setStage hwalk.closed (by simp [hstage]), ?_⟩
        intro _ other
        by_cases hother : other = batch
        · rw [hother, targets_setStage, targets, hstage]
          exact List.Subset.refl _
        · simp [targets, setStage, hother]
      · cases h
    · cases h
  | abandon batch =>
    rw [step] at h
    split at h
    · rename_i p hstage
      obtain rfl := Option.some.inj h
      refine ⟨hw.setStage trivial (by simp [hstage]), ?_⟩
      intro _ other
      by_cases hother : other = batch
      · rw [hother, targets_setStage]
        exact List.nil_subset _
      · simp [targets, setStage, hother]
    · cases h
  | makeDirectory batch ordinal =>
    rw [step] at h
    split at h
    · rename_i target htarget
      obtain rfl := Option.some.inj h
      refine ⟨hw.make htarget, ?_⟩
      intro _ other
      simp [targets, stage_make]
    · cases h
  | commitFile batch ordinal =>
    rw [step] at h
    split at h
    · rename_i target htarget
      obtain rfl := Option.some.inj h
      refine ⟨hw.make htarget, ?_⟩
      intro _ other
      simp [targets, stage_make]
    · cases h
  | outside kept others =>
    obtain rfl := Option.some.inj h
    refine ⟨⟨hw.stage, ?_⟩, fun _ other => List.Subset.refl _⟩
    intro other path hpath
    exact hw.made other path (List.mem_of_mem_filter hpath)

theorem Apart.unblocked {w : SharedRoot} (hw : w.Inv) (h : w.Apart lower) :
    w.Unblocked lower := by
  intro batch ordinal kind target htarget path hpath heq
  obtain ⟨records, hstage, hmem⟩ := targetOf_eq_some htarget
  obtain ⟨records', hstage', hmem'⟩ := hw.made (!batch) path hpath
  have hown : target ∈ w.targets batch := by rwa [targets, hstage]
  have hother : path ∈ w.targets !batch := by rwa [targets, hstage']
  exact (w.apart_iff batch).1 h target hown path hother heq.symm

theorem apart_step {w w' : SharedRoot} (hw : w.Inv) (hapart : w.Apart lower) {event : RootEvent}
    (h : w.step lineLength lower event = some w') : w'.Apart lower ↔ w.Meets lower event := by
  obtain ⟨-, hkept⟩ := inv_step hw h
  have hother : (∀ batch, event ≠ .visit batch) → w'.Apart lower := by
    intro hne target htarget other hother
    exact hapart target (hkept hne false htarget) other (hkept hne true hother)
  cases event with
  | visit batch => exact apart_visit hw hapart h
  | start batch => exact iff_of_true (hother (by simp)) trivial
  | commit batch => exact iff_of_true (hother (by simp)) trivial
  | abandon batch => exact iff_of_true (hother (by simp)) trivial
  | makeDirectory batch ordinal => exact iff_of_true (hother (by simp)) trivial
  | commitFile batch ordinal => exact iff_of_true (hother (by simp)) trivial
  | outside kept others => exact iff_of_true (hother (by simp)) trivial

/-- Two batches stay apart, and neither finds the way of its files blocked by the other, in
exactly the runs whose walks take no name that the other batch has chosen. -/
theorem batches_apart_iff (lineLength : ManifestEntry → Nat) (lower : List Char → List Char)
    (manifest : Bool → List ManifestEntry) (others : List RootPath) (events : List RootEvent) :
    Machine.Always (step lineLength lower) (fun w => w.Apart lower ∧ w.Unblocked lower)
        { manifest, others } events ↔
      Machine.Along (step lineLength lower) (Meets lower) { manifest, others } events := by
  have hinv : Inv { manifest, others } := ⟨fun _ => trivial, by simp⟩
  have hapart : Apart lower { manifest, others } := by simp [Apart, targets, TargetStage.records]
  refine Machine.always_iff_along Inv events hinv ⟨hapart, hapart.unblocked hinv⟩ ?_
  intro w event w' hw hp hstep
  have hw' : w'.Inv := (inv_step hw hstep).1
  have happly := apart_step hw hp.1 hstep
  constructor
  · constructor
    · intro hafter
      exact happly.1 hafter.1
    · intro hmeets
      have hafter := happly.2 hmeets
      exact ⟨hafter, hafter.unblocked hw'⟩
  · intro _
    exact hw'

end SharedRoot

/-- One file at the top. -/
def singleFile : List ManifestEntry :=
  [{ ordinal := 0, entryId := "f", relativePath := ['a'], kind := .file }]

/-- Both batches are prepared before either commits its file. -/
def preparedTogether : List RootEvent :=
  [.start false, .visit false, .commit false, .start true, .visit true, .commit true,
    .commitFile false 0, .commitFile true 0]

/-- Both batches choose one target. When the first has committed its file, the second is
refused. -/
theorem prepared_together_meet :
    (∃ w, Machine.run (SharedRoot.step (fun _ => 0) (List.map Char.toLower))
        { manifest := fun _ => singleFile } preparedTogether = some w ∧
      w.targetOf true 0 = some (.file, [['a']]) ∧ w.made false = [[['a']]] ∧ w.made true = []) ∧
    ¬Machine.Always (SharedRoot.step (fun _ => 0) (List.map Char.toLower))
      (fun w => w.Apart (List.map Char.toLower) ∧ w.Unblocked (List.map Char.toLower))
      { manifest := fun _ => singleFile } preparedTogether := by
  have hend : (Machine.run (SharedRoot.step (fun _ => 0) (List.map Char.toLower))
      { manifest := fun _ => singleFile } preparedTogether).any
      (fun w => decide (w.targetOf true 0 = some (.file, [['a']]) ∧ w.made false = [[['a']]] ∧
        w.made true = [])) = true := by
    decide +kernel
  obtain ⟨w, hrun, hw⟩ := (Option.any_eq_true _ _).1 hend
  obtain ⟨htarget, hfirst, hsecond⟩ := of_decide_eq_true hw
  refine ⟨⟨w, hrun, htarget, hfirst, hsecond⟩, ?_⟩
  intro halways
  have hunblocked := (halways.last _ hrun).2
  exact hunblocked true 0 _ _ htarget [['a']] (by simp [hfirst]) rfl

end FlowType
