import Mathlib.Data.List.Infix
import FlowType.WindowsNames

/-! The store of a batch that is received: its manifest, and the mapping of the entries of
the manifest to paths below the receive root. -/
namespace FlowType

def MAX_ENTRY_ID_BYTES : Nat := 64

def MAX_MANIFEST_LINE_BYTES : Nat := 16 * 1024

inductive EntryKind
  | file | directory
  deriving DecidableEq, Repr

inductive EntryState
  | pending | transferring | waitingNetwork | needsReselection | completed | failed | canceled
  deriving DecidableEq, Repr

structure ManifestEntry where
  ordinal : Nat
  entryId : String
  relativePath : List Char
  kind : EntryKind
  size : Nat := 0
  modifiedAt : Option Int := none
  mimeType : Option String := none
  sha256 : Option String := none
  deriving DecidableEq, Repr

def validSha256 (value : String) : Bool :=
  value.utf8ByteSize == 64 && value.toList.all fun c =>
    c.isDigit || ('a' ≤ c && c ≤ 'f') || ('A' ≤ c && c ≤ 'F')

/-- `lineLength` is the length of the entry as a line of JSON. -/
def ManifestEntry.validate (lineLength : ManifestEntry → Nat) (entry : ManifestEntry) : Bool :=
  entry.ordinal ≤ MAX_WIRE_INTEGER && entry.size ≤ MAX_WIRE_INTEGER &&
    validIdentifier entry.entryId MAX_ENTRY_ID_BYTES && validateRelativePath entry.relativePath &&
    !(entry.kind == .directory && entry.size != 0) &&
    (entry.mimeType.all fun mime =>
      mime ≠ "" && mime.utf8ByteSize ≤ 255 && !mime.toList.any isControlChar) &&
    entry.sha256.all validSha256 && lineLength entry ≤ MAX_MANIFEST_LINE_BYTES

structure TargetRecord where
  ordinal : Nat
  relativePath : List Char
  deriving DecidableEq, Repr

structure EntryProgress where
  state : EntryState := .pending
  committedOffset : Nat := 0
  deriving DecidableEq, Repr

/-- A batch as it lies on the disk. -/
structure StoredBatch extends BatchRecord where
  targetRoot : Option (List Char) := none
  manifest : Option (List ManifestEntry) := none
  targets : List TargetRecord := []
  progress : Nat → EntryProgress := fun _ => {}

/-- The check of `BatchRecord::validate` on the root. -/
def validRoot (root : List Char) : Bool :=
  root ≠ [] && utf8Length root ≤ 32 * 1024 && !root.any isControlChar

structure ManifestWriter where
  expectedFiles : Nat
  expectedDirectories : Nat
  expectedBytes : Nat
  files : Nat := 0
  directories : Nat := 0
  bytes : Nat := 0
  entries : List ManifestEntry := []

section Store
variable (lineLength : ManifestEntry → Nat)

namespace ManifestWriter

def append (w : ManifestWriter) (entry : ManifestEntry) : Option ManifestWriter :=
  let files := if entry.kind = .file then w.files + 1 else w.files
  let directories := if entry.kind = .directory then w.directories + 1 else w.directories
  let bytes := w.bytes + entry.size
  if entry.validate lineLength = false then none
  else if entry.ordinal ≠ w.entries.length ∨
      w.expectedFiles + w.expectedDirectories ≤ w.entries.length then none
  else if (w.entries.map ManifestEntry.entryId).contains entry.entryId then none
  else if 2 ^ 64 ≤ bytes then none
  else if w.expectedFiles < files ∨ w.expectedDirectories < directories ∨ w.expectedBytes < bytes then
    none
  else some { w with files, directories, bytes, entries := w.entries ++ [entry] }

def finish (w : ManifestWriter) : Option (List ManifestEntry) :=
  if w.entries.length = w.expectedFiles + w.expectedDirectories ∧ w.files = w.expectedFiles ∧
      w.directories = w.expectedDirectories ∧ w.bytes = w.expectedBytes then some w.entries
  else none

end ManifestWriter

/-- `begin_manifest`, the entries appended in order, and `finish`. -/
def StoredBatch.writeManifest (b : StoredBatch) (entries : List ManifestEntry) :
    Option StoredBatch :=
  let writer : ManifestWriter :=
    { expectedFiles := b.fileCount
      expectedDirectories := b.directoryCount
      expectedBytes := b.totalBytes }
  if b.manifest.isSome then none
  else ((entries.foldlM (ManifestWriter.append lineLength) writer).bind ManifestWriter.finish).map
    fun entries => { b with manifest := some entries, progress := fun _ => {} }

/-- `for_each_manifest_entry` over the lines from `ordinal` on: what was visited, and whether
all lines were. -/
def forEachManifestEntry {σ : Type} (visit : σ → ManifestEntry → σ × Bool) :
    Nat → List ManifestEntry → σ → σ × Bool
  | _, [], s => (s, true)
  | ordinal, entry :: entries, s =>
    if entry.validate lineLength = false ∨ entry.ordinal ≠ ordinal then (s, false)
    else match visit s entry with
      | (s, true) => forEachManifestEntry visit (ordinal + 1) entries s
      | (s, false) => (s, false)

variable {lineLength}

theorem ManifestWriter.append_spec {w w' : ManifestWriter} {entry : ManifestEntry}
    (h : w.append lineLength entry = some w') :
    entry.validate lineLength = true ∧ entry.ordinal = w.entries.length ∧
      w'.entries = w.entries ++ [entry] := by
  unfold append at h
  extract_lets files directories bytes at h
  split_ifs at h with hvalid hordinal hid hbytes hexpected
  obtain rfl := Option.some.inj h
  rw [Bool.not_eq_false] at hvalid
  rw [not_or, not_not] at hordinal
  exact ⟨hvalid, hordinal.1, rfl⟩

theorem forEachManifestEntry_induct_from {σ : Type} {visit : σ → ManifestEntry → σ × Bool}
    {P : List ManifestEntry → σ → Prop}
    (hstep : ∀ visited s entry s', P visited s → entry.validate lineLength = true →
      entry.ordinal = visited.length → visit s entry = (s', true) → P (visited ++ [entry]) s')
    {visited rest : List ManifestEntry} {s s' : σ} (hs : P visited s)
    (h : forEachManifestEntry lineLength visit visited.length rest s = (s', true)) :
    P (visited ++ rest) s' := by
  induction rest generalizing visited s with
  | nil =>
    cases h
    simpa using hs
  | cons entry rest ih =>
    rw [forEachManifestEntry] at h
    split at h
    · cases h
    · rename_i hvalid
      simp only [not_or, Bool.not_eq_false, Decidable.not_not] at hvalid
      split at h
      · rename_i s₁ hvisit
        have hnext := hstep visited s entry s₁ hs hvalid.1 hvalid.2 hvisit
        have hlen : visited.length + 1 = (visited ++ [entry]).length := by simp
        rw [hlen] at h
        have hrest := ih hnext h
        rwa [List.append_assoc] at hrest
      · cases h

theorem forEachManifestEntry_induct {σ : Type} {visit : σ → ManifestEntry → σ × Bool}
    {P : List ManifestEntry → σ → Prop}
    (hstep : ∀ visited s entry s', P visited s → entry.validate lineLength = true →
      entry.ordinal = visited.length → visit s entry = (s', true) → P (visited ++ [entry]) s')
    {entries : List ManifestEntry} {s s' : σ} (hs : P [] s)
    (h : forEachManifestEntry lineLength visit 0 entries s = (s', true)) : P entries s' :=
  forEachManifestEntry_induct_from hstep hs h

variable (lineLength)

/-- What `prepare_windows_targets` keeps while it walks the manifest. -/
structure Preparation where
  sourcePaths : List (List Char) := []
  mappedDirectories : List (List Char × List (List Char)) := [([], [])]
  reservations : List (List (List Char) × WindowsNameReservation) := []
  records : List TargetRecord := []

def sourceParent (path : List Char) : List Char :=
  match rsplitOnce '/' path with
  | some (parent, _) => parent
  | none => []

def sourceName (path : List Char) : List Char :=
  match rsplitOnce '/' path with
  | some (_, name) => name
  | none => path

variable (lower : List Char → List Char) (existing : List (List Char) → List (List Char))

/-- The names of a target directory that are not free: before anything is reserved there,
those that `existing` lists. -/
def Preparation.reservation (p : Preparation) (targetParent : List (List Char)) :
    WindowsNameReservation :=
  (p.reservations.lookup targetParent).getD (.new lower (existing targetParent))

def Preparation.visit (p : Preparation) (entry : ManifestEntry) : Preparation × Bool :=
  if p.sourcePaths.contains (lower entry.relativePath) then (p, false)
  else match p.mappedDirectories.lookup (sourceParent entry.relativePath) with
    | none => (p, false)
    | some targetParent =>
      match (p.reservation lower existing targetParent).reserve lower
          (sanitizeWindowsSegment (sourceName entry.relativePath))
          (entry.kind == .directory) with
      | none => (p, false)
      | some (targetName, reservation) =>
        let targetRelative := targetParent ++ [targetName]
        ({ sourcePaths := lower entry.relativePath :: p.sourcePaths
           mappedDirectories :=
            if entry.kind = .directory then
              (entry.relativePath, targetRelative) :: p.mappedDirectories
            else p.mappedDirectories
           reservations := (targetParent, reservation) :: p.reservations
           records := p.records ++ [⟨entry.ordinal, wirePath targetRelative⟩] }, true)

/-- A visit that goes well: the entry gets `name` in the directory `parent`. -/
structure Preparation.Visit (p : Preparation) (entry : ManifestEntry)
    (parent : List (List Char)) (name : List Char) (r : WindowsNameReservation)
    (p' : Preparation) : Prop where
  fresh : lower entry.relativePath ∉ p.sourcePaths
  lookup : p.mappedDirectories.lookup (sourceParent entry.relativePath) = some parent
  reserve : (p.reservation lower existing parent).reserve lower
    (sanitizeWindowsSegment (sourceName entry.relativePath)) (entry.kind == .directory) =
      some (name, r)
  after : p' =
    { sourcePaths := lower entry.relativePath :: p.sourcePaths
      mappedDirectories :=
        if entry.kind = .directory then
          (entry.relativePath, parent ++ [name]) :: p.mappedDirectories
        else p.mappedDirectories
      reservations := (parent, r) :: p.reservations
      records := p.records ++ [⟨entry.ordinal, wirePath (parent ++ [name])⟩] }

theorem Preparation.visit_cases {p p' : Preparation} {entry : ManifestEntry}
    (h : p.visit lower existing entry = (p', true)) :
    ∃ parent name r, Preparation.Visit lower existing p entry parent name r p' := by
  unfold visit at h
  split at h
  · cases h
  · rename_i hfresh
    split at h
    · cases h
    · rename_i parent hparent
      split at h
      · cases h
      · rename_i name r hreserve
        exact ⟨parent, name, r, by simpa using hfresh, hparent, hreserve, (Prod.mk.inj h).1.symm⟩

structure Placement where
  entry : ManifestEntry
  target : List (List Char)

def Placement.record (q : Placement) : TargetRecord := ⟨q.entry.ordinal, wirePath q.target⟩

def Mapped (placed : List Placement) (path : List Char) (target : List (List Char)) : Prop :=
  (path = [] ∧ target = []) ∨
    ∃ q ∈ placed, q.entry.kind = .directory ∧ q.entry.relativePath = path ∧ q.target = target

theorem Mapped.concat {placed : List Placement} {path : List Char} {target : List (List Char)}
    (h : Mapped placed path target) (q : Placement) : Mapped (placed ++ [q]) path target := by
  rcases h with hroot | ⟨q', hq', hrest⟩
  · exact .inl hroot
  · exact .inr ⟨q', List.mem_append_left _ hq', hrest⟩

/-- What a walk over a manifest has made so far of the entries it visited. -/
structure Preparation.Inv (placed : List Placement) (p : Preparation) : Prop where
  records : p.records = placed.map Placement.record
  sources : p.sourcePaths = (placed.map fun q => lower q.entry.relativePath).reverse
  fresh : (placed.map fun q => lower q.entry.relativePath).Nodup
  distinct : (placed.map fun q => q.target.map lower).Nodup
  mapped : ∀ path target, p.mappedDirectories.lookup path = some target → Mapped placed path target
  names : ∀ q ∈ placed, ∀ name ∈ q.target, PlainName name ∧ utf16Length name ≤ 255
  child : ∀ q ∈ placed, ∃ parent name, q.target = parent ++ [name] ∧
    Mapped placed (sourceParent q.entry.relativePath) parent ∧
    lower name ∉ (existing parent).map lower
  existing_used : ∀ parent, ∀ name ∈ existing parent,
    lower name ∈ (p.reservation lower existing parent).used
  placed_used : ∀ q ∈ placed, ∀ parent name, q.target = parent ++ [name] →
    lower name ∈ (p.reservation lower existing parent).used

variable {lower existing}

theorem Preparation.reservation_cons (p : Preparation) (parent q : List (List Char))
    (r : WindowsNameReservation) (sources : List (List Char))
    (directories : List (List Char × List (List Char))) (records : List TargetRecord) :
    Preparation.reservation lower existing
      ⟨sources, directories, (parent, r) :: p.reservations, records⟩ q =
        if q = parent then r else p.reservation lower existing q := by
  unfold reservation
  rw [List.lookup_cons]
  by_cases h : q = parent
  · simp [h]
  · rw [if_neg h, beq_false_of_ne h]

namespace Preparation.Inv
variable {placed : List Placement} {p p' : Preparation}

theorem mapped_eq (h : Inv lower existing placed p) {path₁ path₂ : List Char}
    {target₁ target₂ : List (List Char)} (h₁ : Mapped placed path₁ target₁)
    (h₂ : Mapped placed path₂ target₂) (hlower : target₁.map lower = target₂.map lower) :
    target₁ = target₂ := by
  rcases h₁ with ⟨-, rfl⟩ | ⟨q₁, hq₁, -, -, rfl⟩
  · exact (List.map_eq_nil_iff.1 hlower.symm).symm
  · rcases h₂ with ⟨-, rfl⟩ | ⟨q₂, hq₂, -, -, rfl⟩
    · exact List.map_eq_nil_iff.1 hlower
    · have hsame : q₁ = q₂ := List.inj_on_of_nodup_map h.distinct hq₁ hq₂ hlower
      rw [hsame]

/-- A name that is free in the reservation of a directory makes a target that is not taken. -/
theorem fresh_target (h : Inv lower existing placed p) {path name : List Char}
    {parent : List (List Char)} (hparent : Mapped placed path parent)
    (hname : lower name ∉ (p.reservation lower existing parent).used) :
    ∀ q ∈ placed, q.target.map lower ≠ (parent ++ [name]).map lower := by
  intro q hq heq
  obtain ⟨parent', name', htarget, hparent', -⟩ := h.child q hq
  rw [htarget, List.map_append, List.map_append] at heq
  obtain ⟨hparents, hnames⟩ := List.append_inj' heq rfl
  have hsame : parent' = parent := h.mapped_eq hparent' hparent hparents
  have hlower : lower name' = lower name := by simpa using hnames
  have hused := h.placed_used q hq parent' name' htarget
  rw [hsame, hlower] at hused
  exact hname hused

theorem visit (h : Inv lower existing placed p) {entry : ManifestEntry}
    {parent : List (List Char)} {name : List Char} {r : WindowsNameReservation}
    (hvisit : Visit lower existing p entry parent name r p') :
    Inv lower existing (placed ++ [⟨entry, parent ++ [name]⟩]) p' := by
  obtain ⟨hnew, hlookup, hreserve, rfl⟩ := hvisit
  obtain ⟨hplain, hunits, hfree, hused⟩ := WindowsNameReservation.reserve_spec hreserve
  have hparent : Mapped placed (sourceParent entry.relativePath) parent := h.mapped _ _ hlookup
  have hdistinct := h.fresh_target hparent hfree
  have hkeep : ∀ q, ∀ name ∈ (p.reservation lower existing q).used,
      name ∈ (if q = parent then r else p.reservation lower existing q).used := by
    intro q name hname
    split
    · rename_i heq
      rw [hused, ← heq]
      exact List.mem_cons_of_mem _ hname
    · exact hname
  constructor
  · rw [h.records]
    simp [Placement.record]
  · rw [h.sources]
    simp
  · rw [List.map_append]
    refine List.Nodup.append h.fresh (List.nodup_singleton _) ?_
    rw [List.map_singleton, List.disjoint_singleton]
    rw [h.sources] at hnew
    simpa using hnew
  · rw [List.map_append]
    refine List.Nodup.append h.distinct (List.nodup_singleton _) ?_
    rw [List.map_singleton, List.disjoint_singleton]
    intro hmem
    obtain ⟨q, hq, heq⟩ := List.mem_map.1 hmem
    exact hdistinct q hq heq
  · intro path target hmapped
    by_cases hkind : entry.kind = .directory
    · rw [if_pos hkind, List.lookup_cons] at hmapped
      split at hmapped
      · rename_i hpath
        refine .inr ⟨⟨entry, parent ++ [name]⟩, by simp, hkind, ?_, Option.some.inj hmapped⟩
        exact (beq_iff_eq.1 hpath).symm
      · exact (h.mapped path target hmapped).concat _
    · rw [if_neg hkind] at hmapped
      exact (h.mapped path target hmapped).concat _
  · intro q hq n hn
    rcases List.mem_append.1 hq with hold | hlast
    · exact h.names q hold n hn
    · rw [List.mem_singleton.1 hlast] at hn
      rcases List.mem_append.1 hn with habove | hown
      · rcases hparent with ⟨-, rfl⟩ | ⟨q', hq', -, -, rfl⟩
        · cases habove
        · exact h.names q' hq' n habove
      · rw [List.mem_singleton.1 hown]
        exact ⟨hplain, hunits⟩
  · intro q hq
    rcases List.mem_append.1 hq with hold | hlast
    · obtain ⟨parent', name', htarget, hmapped, hname'⟩ := h.child q hold
      exact ⟨parent', name', htarget, hmapped.concat _, hname'⟩
    · rw [List.mem_singleton.1 hlast]
      refine ⟨parent, name, rfl, hparent.concat _, ?_⟩
      intro hmem
      obtain ⟨other, hother, heq⟩ := List.mem_map.1 hmem
      rw [← heq] at hfree
      exact hfree (h.existing_used parent other hother)
  · intro q other hother
    rw [Preparation.reservation_cons]
    exact hkeep q _ (h.existing_used q other hother)
  · intro q hq parent' name' htarget
    rw [Preparation.reservation_cons]
    rcases List.mem_append.1 hq with hold | hlast
    · exact hkeep parent' _ (h.placed_used q hold parent' name' htarget)
    · rw [List.mem_singleton.1 hlast] at htarget
      obtain ⟨hsame, hnames⟩ := List.append_inj' htarget rfl
      obtain rfl : name = name' := by simpa using hnames
      rw [if_pos hsame.symm, hused]
      exact List.mem_cons_self

theorem start : Inv lower existing [] {} := by
  refine ⟨rfl, rfl, List.nodup_nil, List.nodup_nil, ?_, by simp, by simp, ?_, by simp⟩
  · intro path target hlookup
    by_cases hpath : path = []
    · rw [hpath] at hlookup ⊢
      exact .inl ⟨rfl, (Option.some.inj hlookup).symm⟩
    · have hnone : ([([], [])] : List (List Char × List (List Char))).lookup path = none := by
        rw [List.lookup_cons, beq_false_of_ne hpath]
        rfl
      rw [hnone] at hlookup
      cases hlookup
  · intro parent name hname
    exact List.mem_map_of_mem hname

/-- The whole walk places each entry of the manifest, in order. What a visit keeps besides the
invariant, `Q`, holds in the end too. -/
theorem of_walk {Q : List Placement → Preparation → Prop} (hstart : Q [] {})
    (hstep : ∀ placed p entry parent name r p', Inv lower existing placed p → Q placed p →
      entry.validate lineLength = true → Visit lower existing p entry parent name r p' →
      Q (placed ++ [⟨entry, parent ++ [name]⟩]) p')
    {entries : List ManifestEntry}
    (h : forEachManifestEntry lineLength (Preparation.visit lower existing) 0 entries {} =
      (p, true)) :
    ∃ placed, placed.map Placement.entry = entries ∧ Inv lower existing placed p ∧ Q placed p ∧
      ∀ i (q : Placement), placed[i]? = some q → q.entry.ordinal = i ∧
        q.entry.validate lineLength = true := by
  refine forEachManifestEntry_induct (P := fun visited p => ∃ placed,
    placed.map Placement.entry = visited ∧ Inv lower existing placed p ∧ Q placed p ∧
      ∀ i (q : Placement), placed[i]? = some q → q.entry.ordinal = i ∧
        q.entry.validate lineLength = true) ?_ ⟨[], rfl, start, hstart, by simp⟩ h
  rintro visited p entry p' ⟨placed, hvisited, hinv, hq, hordinal⟩ hvalid hord hvisit
  obtain ⟨parent, name, r, hvisit⟩ := Preparation.visit_cases _ _ hvisit
  refine ⟨_, by simp [hvisited], hinv.visit hvisit, hstep _ _ _ _ _ _ _ hinv hq hvalid hvisit, ?_⟩
  intro i q hq
  rw [List.getElem?_append] at hq
  split at hq
  · exact hordinal i q hq
  · have hlen : visited.length = placed.length := by rw [← hvisited, List.length_map]
    rw [List.getElem?_singleton] at hq
    split at hq
    · cases hq
      exact ⟨by rw [hord]; omega, hvalid⟩
    · cases hq

end Preparation.Inv

variable (lower existing)

/-- A path below the receive root. -/
structure TargetPath where
  root : List Char
  segments : List (List Char)
  deriving DecidableEq, Repr

namespace StoredBatch
variable (links : TargetPath → Bool)

/-- `links` says which paths are symbolic links. Joining a segment goes one directory down:
the segments that are written are names for Windows, which hold no drive and no separator. -/
def targetPath (b : StoredBatch) (ordinal : Nat) : Option TargetPath :=
  b.targetRoot.bind fun root =>
    b.targets[ordinal]?.bind fun record =>
      let segments := record.relativePath.splitOn '/'
      if record.ordinal ≠ ordinal then none
      else if validateRelativePath record.relativePath = false then none
      else if segments.inits.tail.any (fun ancestor => links ⟨root, ancestor⟩) then none
      else some ⟨root, segments⟩

def writeProgress (b : StoredBatch) (ordinal : Nat) (progress : EntryProgress) : StoredBatch :=
  { b with progress := Function.update b.progress ordinal progress }

def finishDirectory (b : StoredBatch) (entry : ManifestEntry) : StoredBatch × Bool :=
  if entry.kind = .directory then
    if (b.targetPath links entry.ordinal).isSome then
      (b.writeProgress entry.ordinal { state := .completed, committedOffset := 0 }, true)
    else (b, false)
  else (b, true)

def finishTargetDirectories (b : StoredBatch) : StoredBatch × Bool :=
  match b.manifest with
  | none => (b, false)
  | some entries => forEachManifestEntry lineLength (finishDirectory links) 0 entries b

/-- `existing` lists the names in a directory below `root` while the mapping is made: what
`read_dir` yields, and nothing where it fails or a name is not UTF-16. -/
def prepareWindowsTargets (b : StoredBatch) (root : List Char) (now : Nat) : StoredBatch × Bool :=
  if b.targetRoot.isSome then b.finishTargetDirectories lineLength links
  else match b.manifest with
    | none => ({ b with targets := [] }, false)
    | some entries =>
      match forEachManifestEntry lineLength (Preparation.visit lower existing) 0 entries {} with
      | (_, false) => ({ b with targets := [] }, false)
      | (p, true) =>
        if b.state.isTerminal || !validRoot root then ({ b with targets := p.records }, false)
        else
          let committed : StoredBatch :=
            { b with
              targets := p.records
              targetRoot := some root
              updatedAt := max now b.updatedAt }
          committed.finishTargetDirectories lineLength links

variable {lineLength links lower existing}

theorem forEachManifestEntry_keeps {σ : Type} {visit : σ → ManifestEntry → σ × Bool}
    {P : σ → Prop} (hstep : ∀ s entry, P s → P (visit s entry).1) (ordinal : Nat)
    (entries : List ManifestEntry) {s : σ} (hs : P s) :
    P (forEachManifestEntry lineLength visit ordinal entries s).1 := by
  induction entries generalizing ordinal s with
  | nil => exact hs
  | cons entry entries ih =>
    have hnext := hstep s entry hs
    rw [forEachManifestEntry]
    split
    · exact hs
    · split
      · rename_i s₁ hvisit
        rw [hvisit] at hnext
        exact ih _ hnext
      · rename_i s₁ hvisit
        rw [hvisit] at hnext
        exact hnext

/-- The mapping of a batch: all that `target_path` reads of it. -/
def mapping (b : StoredBatch) : Option (List Char) × List TargetRecord × Option (List ManifestEntry) :=
  (b.targetRoot, b.targets, b.manifest)

theorem mapping_finishTargetDirectories (b : StoredBatch) :
    (b.finishTargetDirectories lineLength links).1.mapping = b.mapping := by
  unfold finishTargetDirectories
  split
  · rfl
  · refine forEachManifestEntry_keeps (P := fun s : StoredBatch => s.mapping = b.mapping) ?_ 0 _ rfl
    intro s entry hs
    rw [finishDirectory]
    split
    · split
      · exact hs
      · exact hs
    · exact hs

theorem targetRoot_finishTargetDirectories (b : StoredBatch) :
    (b.finishTargetDirectories lineLength links).1.targetRoot = b.targetRoot :=
  congrArg Prod.fst (mapping_finishTargetDirectories b)

/-- A mapping is committed together with its root, and holds what the walk has made. -/
theorem mapping_of_commit {b : StoredBatch} {entries : List ManifestEntry} {root : List Char}
    {now : Nat} (hmanifest : b.manifest = some entries) (hroot : b.targetRoot = none)
    (h : (b.prepareWindowsTargets lineLength lower existing links root now).1.targetRoot ≠ none) :
    ∃ p, forEachManifestEntry lineLength (Preparation.visit lower existing) 0 entries {} =
        (p, true) ∧
      (b.prepareWindowsTargets lineLength lower existing links root now).1.mapping =
        (some root, p.records, some entries) := by
  have hnone : ¬b.targetRoot.isSome = true := by simp [hroot]
  unfold prepareWindowsTargets at h ⊢
  rw [if_neg hnone, hmanifest] at h ⊢
  simp only at h ⊢
  split at h
  · exact absurd hroot h
  · rename_i p hwalk
    split at h
    · exact absurd hroot h
    · rename_i hcommit
      refine ⟨p, hwalk, ?_⟩
      rw [if_neg hcommit, mapping_finishTargetDirectories]
      simp [mapping]

theorem targetRoot_of_prepared {b : StoredBatch} {root : List Char} {now : Nat}
    (hroot : b.targetRoot = none)
    (h : (b.prepareWindowsTargets lineLength lower existing links root now).2 = true) :
    (b.prepareWindowsTargets lineLength lower existing links root now).1.targetRoot ≠ none := by
  have hnone : ¬b.targetRoot.isSome = true := by simp [hroot]
  unfold prepareWindowsTargets at h ⊢
  rw [if_neg hnone] at h ⊢
  split at h
  · cases h
  · split at h
    · cases h
    · split at h
      · cases h
      · rename_i hcommit
        rw [if_neg hcommit]
        rw [targetRoot_finishTargetDirectories]
        exact Option.some_ne_none root

theorem mapping_prepareWindowsTargets {b : StoredBatch} {root : List Char} {now : Nat}
    (hroot : b.targetRoot ≠ none) :
    (b.prepareWindowsTargets lineLength lower existing links root now).1.mapping = b.mapping := by
  unfold prepareWindowsTargets
  rw [if_pos (Option.isSome_iff_ne_none.2 hroot)]
  exact mapping_finishTargetDirectories b

end StoredBatch

/-- What happens to a stored batch: its targets are prepared, the process ends while it prepares
them, and other operations write its state and its progress. -/
inductive StoreEvent
  | prepare (existing : List (List Char) → List (List Char)) (links : TargetPath → Bool)
      (root : List Char) (now : Nat)
  | killed (written : List TargetRecord) (finished : Nat → Bool)
  | write (state : BatchState) (now : Nat) (progress : Nat → EntryProgress)

/-- Until the root is in the record, the mapping that a killed process has left is any one;
after that, it was about to make the directories. -/
def StoredBatch.step (b : StoredBatch) : StoreEvent → StoredBatch
  | .prepare existing links root now =>
    (b.prepareWindowsTargets lineLength lower existing links root now).1
  | .killed written finished =>
    if b.targetRoot = none then { b with targets := written }
    else { b with progress := fun i => if finished i then { state := .completed } else b.progress i }
  | .write state now progress => { b with state, updatedAt := max now b.updatedAt, progress }

def StoredBatch.run (b : StoredBatch) (events : List StoreEvent) : StoredBatch :=
  events.foldl (StoredBatch.step lineLength lower) b

variable {lineLength lower existing}

theorem StoredBatch.mapping_step {b : StoredBatch} (h : b.targetRoot ≠ none) (event : StoreEvent) :
    (b.step lineLength lower event).mapping = b.mapping := by
  cases event with
  | prepare existing links root now => exact mapping_prepareWindowsTargets h
  | killed written finished =>
    rw [step, if_neg h]
    rfl
  | write state now progress => rfl

variable (lineLength lower) in
theorem StoredBatch.mapping_run {b : StoredBatch} (h : b.targetRoot ≠ none)
    (events : List StoreEvent) : (b.run lineLength lower events).mapping = b.mapping := by
  induction events generalizing b with
  | nil => rfl
  | cons event events ih =>
    have hstep : (b.step lineLength lower event).mapping = b.mapping := mapping_step h event
    have hroot : (b.step lineLength lower event).targetRoot = b.targetRoot :=
      congrArg Prod.fst hstep
    have hrest := ih (hroot ▸ h)
    rw [run, List.foldl_cons]
    exact hrest.trans hstep

theorem StoredBatch.targetPath_eq_of_mapping {b b' : StoredBatch} (h : b'.mapping = b.mapping)
    (links : TargetPath → Bool) (ordinal : Nat) :
    b'.targetPath links ordinal = b.targetPath links ordinal := by
  have hroot : b'.targetRoot = b.targetRoot := congrArg Prod.fst h
  have htargets : b'.targets = b.targets := congrArg (fun m => m.2.1) h
  rw [targetPath, targetPath, hroot, htargets]

/-- What a target path is once the mapping is committed. -/
theorem StoredBatch.targetPath_eq_some {b : StoredBatch} {root : List Char}
    {entries : List ManifestEntry} {placed : List Placement} {p : Preparation}
    (hb : b.mapping = (some root, p.records, some entries))
    (hinv : p.Inv lower existing placed)
    (hordinal : ∀ i (q : Placement), placed[i]? = some q → q.entry.ordinal = i)
    (links : TargetPath → Bool) (i : Nat) (t : TargetPath) :
    b.targetPath links i = some t ↔ ∃ q, placed[i]? = some q ∧ t = ⟨root, q.target⟩ ∧
      validateRelativePath (wirePath q.target) = true ∧
      ∀ ancestor ∈ q.target.inits.tail, links ⟨root, ancestor⟩ = false := by
  have hroot : b.targetRoot = some root := congrArg Prod.fst hb
  have htargets : b.targets = placed.map Placement.record :=
    (congrArg (fun m => m.2.1) hb).trans hinv.records
  rw [targetPath, hroot, htargets, Option.bind_some, List.getElem?_map]
  cases hq : placed[i]? with
  | none => simp
  | some q =>
    have hmem : q ∈ placed := List.mem_of_getElem? hq
    have hne : q.target ≠ [] := by
      obtain ⟨parent, name, htarget, -⟩ := hinv.child q hmem
      rw [htarget]
      simp
    have hsplit : (wirePath q.target).splitOn '/' = q.target :=
      splitOn_wirePath hne fun name hname => (hinv.names q hmem name hname).1.pathName
    simp only [Option.map_some, Option.bind_some, Placement.record, hsplit, hordinal i q hq]
    constructor
    · intro h
      split at h
      · cases h
      · split at h
        · cases h
        · rename_i hvalid
          split at h
          · cases h
          · rename_i hlinks
            refine ⟨q, rfl, (Option.some.inj h).symm, by simpa using hvalid, ?_⟩
            simpa using hlinks
    · rintro ⟨q', hq', rfl, hvalid, hlinks⟩
      obtain rfl := Option.some.inj hq'
      rw [if_neg (by simp), if_neg (by simp [hvalid]), if_neg (by simpa using hlinks)]

theorem mem_tail_inits_append {α : Type} {l m : List α} (rest : List α) (h : l ∈ m.inits.tail) :
    l ∈ (m ++ rest).inits.tail := by
  have hne : m.inits ≠ [] := by
    intro hnil
    rw [hnil] at h
    cases h
  rw [List.inits_append, List.tail_append_of_ne_nil hne]
  exact List.mem_append_left _ h

/-- A path that can be read back has a directory that can be read back. -/
theorem validateRelativePath_parent {parent : List (List Char)} {name : List Char}
    (hne : parent ≠ [])
    (hnames : ∀ n ∈ parent ++ [name], PlainName n ∧ utf16Length n ≤ 255)
    (h : validateRelativePath (wirePath (parent ++ [name])) = true) :
    validateRelativePath (wirePath parent) = true := by
  have hsplit : (wirePath (parent ++ [name])).splitOn '/' = parent ++ [name] :=
    splitOn_wirePath (by simp) fun n hn => (hnames n hn).1.pathName
  simp only [validateRelativePath, hsplit, Bool.and_eq_true, decide_eq_true_eq] at h
  have hcount : (parent ++ [name]).length ≤ 128 := h.2
  have hbytes : utf8Length (wirePath (parent ++ [name])) ≤ MAX_RELATIVE_PATH_BYTES := by
    tauto
  rw [wirePath_concat hne, utf8Length_append] at hbytes
  rw [List.length_append] at hcount
  rw [validateRelativePath_wirePath hne
    (fun n hn => (hnames n (List.mem_append_left _ hn)).1)
    (fun n hn => (hnames n (List.mem_append_left _ hn)).2) (by omega)]
  simp only [decide_eq_true_eq]
  omega

/-- Every mapping that preparing a batch commits keeps the entries apart, below the root, in the
directories they belong to and away from what was there. It is never changed again.
What was there is what `existing` lists, which is all of it where the listing succeeds. -/
theorem target_mapping {b b' : StoredBatch} {entries : List ManifestEntry} {root : List Char}
    {now : Nat} (hmanifest : b.manifest = some entries) (hroot : b.targetRoot = none)
    (h : b.prepareWindowsTargets lineLength lower existing links root now = (b', true)) :
    (∀ seen i j t u, b'.targetPath seen i = some t → b'.targetPath seen j = some u →
      t.segments.map lower = u.segments.map lower → i = j) ∧
    (∀ seen i t, b'.targetPath seen i = some t →
      t.root = root ∧ t.segments ≠ [] ∧ ∀ name ∈ t.segments, PlainName name) ∧
    (∀ seen i entry t, entries[i]? = some entry → b'.targetPath seen i = some t →
      ∃ parent name, t.segments = parent ++ [name] ∧
        lower name ∉ (existing parent).map lower ∧
        ((sourceParent entry.relativePath = [] ∧ parent = []) ∨
          ∃ j directory, entries[j]? = some directory ∧ directory.kind = .directory ∧
            directory.relativePath = sourceParent entry.relativePath ∧
            b'.targetPath seen j = some ⟨root, parent⟩)) ∧
    ∀ events, (b'.run lineLength lower events).targetRoot = some root ∧
      ∀ seen i, (b'.run lineLength lower events).targetPath seen i = b'.targetPath seen i := by
  have hcommit : (b.prepareWindowsTargets lineLength lower existing links root now).1.targetRoot ≠
      none := StoredBatch.targetRoot_of_prepared hroot (by rw [h])
  obtain ⟨p, hwalk, hb⟩ := StoredBatch.mapping_of_commit hmanifest hroot hcommit
  rw [h] at hb hcommit
  obtain ⟨placed, hplaced, hinv, -, hordinal⟩ := Preparation.Inv.of_walk lineLength
    (Q := fun _ _ => True) trivial (fun _ _ _ _ _ _ _ _ _ _ _ => trivial) hwalk
  have hpath := StoredBatch.targetPath_eq_some hb hinv fun i q hq => (hordinal i q hq).1
  refine ⟨?_, ?_, ?_, ?_⟩
  · intro seen i j t u hi hj heq
    obtain ⟨q, hq, rfl, -⟩ := (hpath seen i t).1 hi
    obtain ⟨q', hq', rfl, -⟩ := (hpath seen j u).1 hj
    have hlt : i < (placed.map fun q => q.target.map lower).length := by
      rw [List.length_map]
      exact (List.getElem?_eq_some_iff.1 hq).1
    apply (List.getElem?_inj hlt hinv.distinct).1
    simp only [List.getElem?_map, hq, hq', Option.map_some]
    exact congrArg some heq
  · intro seen i t hi
    obtain ⟨q, hq, rfl, -⟩ := (hpath seen i t).1 hi
    have hmem : q ∈ placed := List.mem_of_getElem? hq
    obtain ⟨parent, name, htarget, -⟩ := hinv.child q hmem
    exact ⟨rfl, by simp [htarget], fun name hname => (hinv.names q hmem name hname).1⟩
  · intro seen i entry t hentry hi
    obtain ⟨q, hq, rfl, hvalid, hlinks⟩ := (hpath seen i t).1 hi
    have hmem : q ∈ placed := List.mem_of_getElem? hq
    obtain rfl : q.entry = entry := by
      rw [← hplaced, List.getElem?_map, hq] at hentry
      exact Option.some.inj hentry
    obtain ⟨parent, name, htarget, hparent, hfree⟩ := hinv.child q hmem
    refine ⟨parent, name, htarget, hfree, ?_⟩
    rcases hparent with hrootdir | ⟨d, hd, hkind, hdpath, rfl⟩
    · exact .inl hrootdir
    · obtain ⟨j, hj⟩ := List.mem_iff_getElem?.1 hd
      have hne : d.target ≠ [] := by
        obtain ⟨above, own, hown, -⟩ := hinv.child d hd
        simp [hown]
      refine .inr ⟨j, d.entry, ?_, hkind, hdpath, (hpath seen j _).2 ⟨d, hj, rfl, ?_, ?_⟩⟩
      · rw [← hplaced, List.getElem?_map, hj]
        rfl
      · rw [htarget] at hvalid
        refine validateRelativePath_parent hne ?_ hvalid
        rw [← htarget]
        exact hinv.names q hmem
      · intro ancestor hancestor
        apply hlinks ancestor
        rw [htarget]
        exact mem_tail_inits_append [name] hancestor
  · intro events
    have hrun := StoredBatch.mapping_run lineLength lower hcommit events
    have hrootRun : (b'.run lineLength lower events).targetRoot = b'.targetRoot :=
      congrArg Prod.fst hrun
    have hrootCommitted : b'.targetRoot = some root := congrArg Prod.fst hb
    exact ⟨hrootRun.trans hrootCommitted, fun seen i =>
      StoredBatch.targetPath_eq_of_mapping hrun seen i⟩

end Store

/-- A directory and a file in it. -/
def nestedEntries : List ManifestEntry :=
  [{ ordinal := 0, entryId := "d", relativePath := ['a'], kind := .directory },
    { ordinal := 1, entryId := "f", relativePath := ['a', '/', 'b'], kind := .file }]

def nestedBatch : StoredBatch :=
  { batchId := "batch"
    phoneId := "phone"
    direction := .phoneToComputer
    state := .queued
    createdAt := 0
    updatedAt := 0
    fileCount := 1
    directoryCount := 1
    totalBytes := 0
    manifest := some nestedEntries }

/-- The receive root has a directory of the same name, in capitals. -/
theorem target_mapping_nested :
    ∃ b', nestedBatch.prepareWindowsTargets (fun _ => 100) (List.map Char.toLower)
        (fun directory => if directory = [] then [['A']] else []) (fun _ => false) ['C'] 1 =
          (b', true) ∧
      b'.targetPath (fun _ => false) 1 = some ⟨['C'], [['a', ' ', '(', '1', ')'], ['b']]⟩ ∧
      ∀ events, (b'.run (fun _ => 100) (List.map Char.toLower) events).targetRoot = some ['C'] := by
  have hok : (nestedBatch.prepareWindowsTargets (fun _ => 100) (List.map Char.toLower)
      (fun directory => if directory = [] then [['A']] else []) (fun _ => false) ['C'] 1).2 =
        true := by
    decide +kernel
  refine ⟨_, Prod.ext rfl hok, by decide +kernel, fun events => ?_⟩
  exact ((target_mapping rfl rfl (Prod.ext rfl hok)).2.2.2 events).1

end FlowType
