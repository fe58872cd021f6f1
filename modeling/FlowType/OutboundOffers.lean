import FlowType.TargetMapping

/-! The offer of a batch that goes to the phone: the plan made of the selected files and
directories, the manifest written from them, and the offer that is made again from the
manifest. -/
namespace FlowType

mutual

/-- What a path leads to, as its metadata tell; `modified` is in milliseconds. -/
inductive SourceTree
  | unavailable
  | symlink
  | other (length : Nat) (modified : Option Nat)
  | file (length : Nat) (modified : Option Nat)
  | directory (modified : Option Nat) (children : SourceList)

/-- The children of a directory in the order of `sorted_children`. A name that is not Unicode
is `none`. -/
inductive SourceList
  | nil
  | cons (name : Option (List Char)) (child : SourceTree) (rest : SourceList)

end

/-- A path that is selected: the last part of its name, and what is there while the offer is
planned and while the manifest is written. -/
structure SelectedRoot where
  name : Option (List Char)
  planned : SourceTree
  written : SourceTree

def SourceTree.isDir : SourceTree → Bool
  | .directory _ _ => true
  | _ => false

/-- `checked_add` of unsigned 64-bit integers. -/
def checkedAdd (a b : Nat) : Option Nat := if a + b < 2 ^ 64 then some (a + b) else none

structure OutboundStats where
  nextOrdinal : Nat := 0
  fileCount : Nat := 0
  directoryCount : Nat := 0
  totalBytes : Nat := 0

mutual

def countOutbound : SourceTree → OutboundStats → Option OutboundStats
  | .directory _ children, stats =>
    (checkedAdd stats.directoryCount 1).bind fun directoryCount =>
      countChildren children { stats with directoryCount }
  | .file length _, stats =>
    (checkedAdd stats.fileCount 1).bind fun fileCount =>
      (checkedAdd stats.totalBytes length).map fun totalBytes =>
        { stats with fileCount, totalBytes }
  | _, _ => none

def countChildren : SourceList → OutboundStats → Option OutboundStats
  | .nil, stats => some stats
  | .cons _ child rest, stats => (countOutbound child stats).bind (countChildren rest)

end

/-- What the loop of `prepare_outbound_plan` keeps. -/
structure OutboundPlan where
  rootNames : WindowsNameReservation
  roots : List (SelectedRoot × List Char) := []
  stats : OutboundStats := {}

section Offer
variable (lower : List Char → List Char)

def OutboundPlan.addRoot (plan : OutboundPlan) (root : SelectedRoot) : Option OutboundPlan :=
  match root.planned with
  | .unavailable => none
  | .symlink => none
  | planned =>
    root.name.bind fun name =>
      (plan.rootNames.reserve lower name planned.isDir).bind fun reserved =>
        (countOutbound planned plan.stats).map fun stats =>
          { rootNames := reserved.2, roots := plan.roots ++ [(root, reserved.1)], stats }

def prepareOutboundPlan (roots : List SelectedRoot) : Option OutboundPlan :=
  if roots = [] then none
  else (roots.foldlM (OutboundPlan.addRoot lower) { rootNames := .new lower [] }).bind fun plan =>
    if MAX_WIRE_INTEGER < plan.stats.totalBytes then none else some plan

def OutboundPlan.summaries (plan : OutboundPlan) : List String :=
  (plan.roots.map fun root => String.ofList root.2).take 8

variable (lineLength : ManifestEntry → Nat) (entryId : Nat → String)

def OutboundStats.count (stats : OutboundStats) (kind : EntryKind) (length : Nat) :
    Option OutboundStats :=
  match kind with
  | .directory =>
    (checkedAdd stats.directoryCount 1).map fun directoryCount => { stats with directoryCount }
  | .file =>
    (checkedAdd stats.fileCount 1).bind fun fileCount =>
      (checkedAdd stats.totalBytes length).map fun totalBytes =>
        { stats with fileCount, totalBytes }

/-- The time of the last change, if it fits into a signed 64-bit integer. -/
def outboundEntry (ordinal : Nat) (relativePath : List Char) (kind : EntryKind) (size : Nat)
    (modified : Option Nat) : ManifestEntry :=
  { ordinal
    entryId := entryId ordinal
    relativePath
    kind
    size
    modifiedAt := (modified.filter (· < 2 ^ 63)).map Int.ofNat }

/-- What `write_outbound` does before it looks below a directory. An entry that is neither a file
nor a directory is written as an empty file, with its length in the total. -/
def appendOutbound (relativePath : List Char) (kind : EntryKind) (length size : Nat)
    (modified : Option Nat) (s : OutboundStats × ManifestWriter) :
    Option (OutboundStats × ManifestWriter) :=
  if validateRelativePath relativePath = false then none
  else (s.1.count kind length).bind fun stats =>
    (s.2.append lineLength
      (outboundEntry entryId s.1.nextOrdinal relativePath kind size modified)).bind fun manifest =>
        (checkedAdd stats.nextOrdinal 1).map fun nextOrdinal =>
          ({ stats with nextOrdinal }, manifest)

mutual

def writeOutbound : SourceTree → List Char → OutboundStats × ManifestWriter →
    Option (OutboundStats × ManifestWriter)
  | .directory modified children, relativePath, s =>
    (appendOutbound lineLength entryId relativePath .directory 0 0 modified s).bind
      (writeChildren children relativePath)
  | .file length modified, relativePath, s =>
    appendOutbound lineLength entryId relativePath .file length length modified s
  | .other length modified, relativePath, s =>
    appendOutbound lineLength entryId relativePath .file length 0 modified s
  | _, _, _ => none

def writeChildren : SourceList → List Char → OutboundStats × ManifestWriter →
    Option (OutboundStats × ManifestWriter)
  | .nil, _, s => some s
  | .cons name child rest, relativePath, s =>
    name.bind fun name =>
      (writeOutbound child (relativePath ++ '/' :: name) s).bind (writeChildren rest relativePath)

end

def FileOffer.ofBatch (batch : BatchRecord) (roots : List String) : FileOffer :=
  { phoneId := batch.phoneId
    batchId := batch.batchId
    direction := .computerToPhone
    fileCount := batch.fileCount
    directoryCount := batch.directoryCount
    totalBytes := batch.totalBytes
    roots }

/-- The offer of a new batch and the batch as it is stored. `recoverable` has the batches that
are not finished, `entryId` the identifiers drawn for the entries. -/
def createOutboundOffer (recoverable : List BatchRecord) (phoneId batchId : String) (now : Nat)
    (roots : List SelectedRoot) : Option (FileOffer × StoredBatch) :=
  if recoverable.any (fun batch => batch.phoneId == phoneId) then none
  else (prepareOutboundPlan lower roots).bind fun prepared =>
    (BatchRecord.new batchId phoneId .computerToPhone now prepared.stats.fileCount
      prepared.stats.directoryCount prepared.stats.totalBytes).bind fun batch =>
        let writer : ManifestWriter :=
          { expectedFiles := batch.fileCount
            expectedDirectories := batch.directoryCount
            expectedBytes := batch.totalBytes }
        (prepared.roots.foldlM (fun s root => writeOutbound lineLength entryId root.1.written
          root.2 s) (({} : OutboundStats), writer)).bind fun written =>
            if written.1.fileCount ≠ prepared.stats.fileCount ∨
                written.1.directoryCount ≠ prepared.stats.directoryCount ∨
                written.1.totalBytes ≠ prepared.stats.totalBytes then none
            else written.2.finish.map fun entries =>
              (FileOffer.ofBatch batch prepared.summaries,
                { batch with
                  manifest := some entries
                  progress := fun ordinal =>
                    if (entries[ordinal]?.any fun entry => entry.kind == .directory) then
                      { state := .completed }
                    else {} })

/-- `path.split('/').next()`. -/
def firstSegment (path : List Char) : List Char := path.takeWhile (· ≠ '/')

def collectRoot (roots : List String) (entry : ManifestEntry) : List String :=
  let root := String.ofList (firstSegment entry.relativePath)
  if root ≠ "" ∧ root ∉ roots ∧ roots.length < 8 then roots ++ [root] else roots

def pendingOutboundOffers (recoverable : List StoredBatch) (phoneId : String) :
    List FileOffer :=
  (recoverable.filter fun batch =>
    batch.phoneId == phoneId && batch.direction == .computerToPhone).filterMap fun batch =>
      batch.manifest.bind fun entries =>
        match forEachManifestEntry lineLength
          (fun roots entry => (collectRoot roots entry, true)) 0 entries [] with
        | (roots, true) => some (FileOffer.ofBatch batch.toBatchRecord roots)
        | (_, false) => none

/-- The names that the selected paths get on the wire, one after another. -/
def wireNames (r : WindowsNameReservation) : List SelectedRoot → List (List Char)
  | [] => []
  | root :: rest =>
    match root.name.bind fun name => r.reserve lower name root.planned.isDir with
    | some (wireName, r') => wireName :: wireNames r' rest
    | none => []

end Offer

/-! ### The manifest that is written -/

/-- What holds of every entry that is written for a selected path of the name `top`. -/
structure OutboundEntry (lineLength : ManifestEntry → Nat) (top : List Char)
    (entry : ManifestEntry) : Prop where
  valid : entry.validate lineLength = true
  untyped : entry.mimeType = none
  modified : ∀ time ∈ entry.modifiedAt, time.natAbs ≤ 2 ^ 63
  top : firstSegment entry.relativePath = top

inductive WrittenBelow (lineLength : ManifestEntry → Nat) (top : List Char) (w : ManifestWriter) :
    ManifestWriter → Prop
  | refl : WrittenBelow lineLength top w w
  | append {w₁ w₂ : ManifestWriter} {entry : ManifestEntry} :
      WrittenBelow lineLength top w w₁ → w₁.append lineLength entry = some w₂ →
      OutboundEntry lineLength top entry → WrittenBelow lineLength top w w₂

section Written
variable {lineLength : ManifestEntry → Nat} {entryId : Nat → String} {top : List Char}
variable {w w₁ w₂ : ManifestWriter}

theorem WrittenBelow.trans (h₁ : WrittenBelow lineLength top w w₁)
    (h₂ : WrittenBelow lineLength top w₁ w₂) : WrittenBelow lineLength top w w₂ := by
  induction h₂ with
  | refl => exact h₁
  | append _ happend hentry ih => exact ih.append happend hentry

theorem WrittenBelow.entries (h : WrittenBelow lineLength top w w₁) :
    ∃ added, w₁.entries = w.entries ++ added ∧ ∀ i entry, added[i]? = some entry →
      entry.ordinal = w.entries.length + i ∧ OutboundEntry lineLength top entry := by
  induction h with
  | refl => exact ⟨[], by simp⟩
  | append _ happend hentry ih =>
    obtain ⟨added, hadded, hall⟩ := ih
    obtain ⟨-, hordinal, hentries⟩ := ManifestWriter.append_spec happend
    refine ⟨added ++ [_], by rw [hentries, hadded, List.append_assoc], ?_⟩
    intro i entry hi
    rw [List.getElem?_append] at hi
    split at hi
    · exact hall i entry hi
    · rw [List.getElem?_singleton] at hi
      split at hi
      · obtain rfl := Option.some.inj hi
        refine ⟨?_, hentry⟩
        rw [hordinal, hadded, List.length_append]
        omega
      · cases hi

theorem appendOutbound_spec {relativePath : List Char} {kind : EntryKind} {length size : Nat}
    {modified : Option Nat} {s s' : OutboundStats × ManifestWriter}
    (htop : firstSegment relativePath = top)
    (h : appendOutbound lineLength entryId relativePath kind length size modified s = some s') :
    WrittenBelow lineLength top s.2 s'.2 ∧ s.2.entries.length < s'.2.entries.length := by
  rw [appendOutbound] at h
  split_ifs at h with hpath
  obtain ⟨stats, -, h⟩ := Option.bind_eq_some_iff.1 h
  obtain ⟨manifest, happend, h⟩ := Option.bind_eq_some_iff.1 h
  obtain ⟨ordinal, -, rfl⟩ := Option.map_eq_some_iff.1 h
  obtain ⟨hvalid, -, hentries⟩ := ManifestWriter.append_spec happend
  have hentry : OutboundEntry lineLength top
      (outboundEntry entryId s.1.nextOrdinal relativePath kind size modified) := by
    refine ⟨hvalid, rfl, ?_, htop⟩
    intro time htime
    obtain ⟨millis, hmillis, rfl⟩ := Option.map_eq_some_iff.1 htime
    have hsmall : millis < 2 ^ 63 := by simpa using (Option.filter_eq_some_iff.1 hmillis).2
    simp only [Int.ofNat_eq_natCast, Int.natAbs_natCast]
    omega
  refine ⟨WrittenBelow.refl.append happend hentry, ?_⟩
  rw [hentries, List.length_append]
  exact Nat.lt_succ_self _

theorem firstSegment_child (path name : List Char) :
    firstSegment (path ++ '/' :: name) = firstSegment path := by
  induction path with
  | nil => rfl
  | cons c path ih =>
    unfold firstSegment at ih ⊢
    by_cases hc : c = '/'
    · simp [hc]
    · simp only [List.cons_append, ne_eq, hc, not_false_eq_true, decide_true,
        List.takeWhile_cons_of_pos, ih]

theorem firstSegment_of_not_mem {name : List Char} (h : '/' ∉ name) : firstSegment name = name := by
  rw [firstSegment, List.takeWhile_eq_self_iff]
  intro c hc
  have hne : c ≠ '/' := fun heq => h (heq ▸ hc)
  simpa using hne

mutual

theorem writeOutbound_spec (tree : SourceTree) {path : List Char}
    {s s' : OutboundStats × ManifestWriter} (htop : firstSegment path = top)
    (h : writeOutbound lineLength entryId tree path s = some s') :
    WrittenBelow lineLength top s.2 s'.2 ∧ s.2.entries.length < s'.2.entries.length := by
  cases tree with
  | unavailable => cases h
  | symlink => cases h
  | other length modified =>
    rw [writeOutbound] at h
    exact appendOutbound_spec htop h
  | file length modified =>
    rw [writeOutbound] at h
    exact appendOutbound_spec htop h
  | directory modified children =>
    rw [writeOutbound] at h
    obtain ⟨s₁, hown, hbelow⟩ := Option.bind_eq_some_iff.1 h
    obtain ⟨hwritten, hmore⟩ := appendOutbound_spec htop hown
    obtain ⟨hrest, hlength⟩ := writeChildren_spec children htop hbelow
    exact ⟨hwritten.trans hrest, lt_of_lt_of_le hmore hlength⟩

theorem writeChildren_spec (children : SourceList) {path : List Char}
    {s s' : OutboundStats × ManifestWriter} (htop : firstSegment path = top)
    (h : writeChildren lineLength entryId children path s = some s') :
    WrittenBelow lineLength top s.2 s'.2 ∧ s.2.entries.length ≤ s'.2.entries.length := by
  cases children with
  | nil =>
    rw [writeChildren] at h
    obtain rfl := Option.some.inj h
    exact ⟨.refl, le_rfl⟩
  | cons name child rest =>
    rw [writeChildren] at h
    obtain ⟨name, -, h⟩ := Option.bind_eq_some_iff.1 h
    obtain ⟨s₁, hchild, hrest⟩ := Option.bind_eq_some_iff.1 h
    have hpath : firstSegment (path ++ '/' :: name) = top :=
      (firstSegment_child path name).trans htop
    obtain ⟨hwritten, hmore⟩ := writeOutbound_spec child hpath hchild
    obtain ⟨hothers, hlength⟩ := writeChildren_spec rest htop hrest
    exact ⟨hwritten.trans hothers, hmore.le.trans hlength⟩

end

end Written

/-! ### The roots of a manifest -/

def keepRoot (roots : List String) (root : String) : List String :=
  if root ∉ roots ∧ roots.length < 8 then roots ++ [root] else roots

theorem foldl_keepRoot_of_full {roots block : List String} {top : String}
    (hblock : ∀ root ∈ block, root = top) (h : top ∈ roots ∨ 8 ≤ roots.length) :
    block.foldl keepRoot roots = roots := by
  induction block with
  | nil => rfl
  | cons root block ih =>
    have hroot : root = top := hblock root List.mem_cons_self
    have hkept : keepRoot roots root = roots := by
      rw [keepRoot, hroot, if_neg]
      rcases h with hmem | hfull
      · exact fun hnew => hnew.1 hmem
      · exact fun hnew => absurd hnew.2 (not_lt.2 hfull)
    rw [List.foldl_cons, hkept]
    exact ih fun other hother => hblock other (List.mem_cons_of_mem _ hother)

/-- A run of one root that is new adds it, if there is room. -/
theorem foldl_keepRoot_block {done block : List String} {top : String} (hne : block ≠ [])
    (hblock : ∀ root ∈ block, root = top) (hnew : top ∉ done) :
    block.foldl keepRoot (done.take 8) = (done ++ [top]).take 8 := by
  obtain ⟨root, rest, rfl⟩ := List.exists_cons_of_ne_nil hne
  have hroot : root = top := hblock root List.mem_cons_self
  have hrest : ∀ other ∈ rest, other = top := fun other hother =>
    hblock other (List.mem_cons_of_mem _ hother)
  by_cases hroom : done.length < 8
  · have hall : done.take 8 = done := List.take_of_length_le hroom.le
    have hkept : keepRoot done root = done ++ [top] := by
      rw [keepRoot, hroot, if_pos ⟨hnew, hroom⟩]
    rw [List.foldl_cons, hall, hkept, foldl_keepRoot_of_full hrest (.inl (by simp))]
    rw [List.take_of_length_le]
    rw [List.length_append]
    exact hroom
  · have hfull : 8 ≤ (done.take 8).length := by
      rw [List.length_take]
      omega
    rw [foldl_keepRoot_of_full hblock (.inr hfull), List.take_append_of_le_length (by omega)]

theorem foldl_collectRoot {entries : List ManifestEntry} {top : List Char} (hne : top ≠ [])
    (h : ∀ entry ∈ entries, firstSegment entry.relativePath = top) (roots : List String) :
    entries.foldl collectRoot roots =
      (entries.map fun _ => String.ofList top).foldl keepRoot roots := by
  induction entries generalizing roots with
  | nil => rfl
  | cons entry entries ih =>
    have hentry := h entry List.mem_cons_self
    have hroot : String.ofList top ≠ "" := by
      intro hempty
      exact hne (String.ofList_inj.1 (hempty.trans String.ofList_nil.symm))
    have hkept : collectRoot roots entry = keepRoot roots (String.ofList top) := by
      unfold collectRoot keepRoot
      rw [hentry]
      simp [hroot]
    rw [List.foldl_cons, List.map_cons, List.foldl_cons, hkept]
    exact ih (fun other hother => h other (List.mem_cons_of_mem _ hother)) _

/-- The manifest of the selected paths that got the names `done`. -/
structure OutboundManifest (lineLength : ManifestEntry → Nat) (done : List (List Char))
    (entries : List ManifestEntry) : Prop where
  ordered : ∀ i (entry : ManifestEntry), entries[i]? = some entry →
    entry.ordinal = i ∧ entry.validate lineLength = true
  untyped : ∀ entry ∈ entries, entry.mimeType = none
  modified : ∀ entry ∈ entries, ∀ time ∈ entry.modifiedAt, time.natAbs ≤ 2 ^ 63
  roots : entries.foldl collectRoot [] = (done.map String.ofList).take 8

section Manifest
variable {lineLength : ManifestEntry → Nat} {entryId : Nat → String} {done : List (List Char)}

theorem OutboundManifest.written {w w' : ManifestWriter} {top : List Char}
    (h : OutboundManifest lineLength done w.entries) (htop : top ≠ []) (hnew : top ∉ done)
    (hwritten : WrittenBelow lineLength top w w')
    (hmore : w.entries.length < w'.entries.length) :
    OutboundManifest lineLength (done ++ [top]) w'.entries := by
  obtain ⟨added, hadded, hall⟩ := hwritten.entries
  have hentry : ∀ entry ∈ added, OutboundEntry lineLength top entry := by
    intro entry hmem
    obtain ⟨i, hi⟩ := List.mem_iff_getElem?.1 hmem
    exact (hall i entry hi).2
  have hne : added ≠ [] := by
    rintro rfl
    rw [hadded, List.append_nil] at hmore
    exact lt_irrefl _ hmore
  rw [hadded]
  constructor
  · intro i entry hi
    rw [List.getElem?_append] at hi
    split at hi
    · exact h.ordered i entry hi
    · obtain ⟨hordinal, hvalid⟩ := hall _ entry hi
      exact ⟨by omega, hvalid.valid⟩
  · intro entry hmem
    rcases List.mem_append.1 hmem with hold | hlast
    · exact h.untyped entry hold
    · exact (hentry entry hlast).untyped
  · intro entry hmem
    rcases List.mem_append.1 hmem with hold | hlast
    · exact h.modified entry hold
    · exact (hentry entry hlast).modified
  · have htops : ∀ entry ∈ added, firstSegment entry.relativePath = top :=
      fun entry hmem => (hentry entry hmem).top
    have hfresh : String.ofList top ∉ done.map String.ofList := by
      intro hmem
      obtain ⟨other, hother, heq⟩ := List.mem_map.1 hmem
      exact hnew (String.ofList_inj.1 heq ▸ hother)
    rw [List.foldl_append, h.roots, foldl_collectRoot htop htops, List.map_append,
      List.map_singleton]
    refine foldl_keepRoot_block (by simpa using hne) ?_ hfresh
    intro root hroot
    obtain ⟨entry, -, rfl⟩ := List.mem_map.1 hroot
    rfl

structure WireNames (names : List (List Char)) : Prop where
  nodup : names.Nodup
  plain : ∀ name ∈ names, PlainName name

theorem writeRoots_spec {roots : List (SelectedRoot × List Char)}
    {s s' : OutboundStats × ManifestWriter} (hnames : WireNames (done ++ roots.map Prod.snd))
    (hs : OutboundManifest lineLength done s.2.entries)
    (h : roots.foldlM (fun s root => writeOutbound lineLength entryId root.1.written root.2 s) s =
      some s') :
    OutboundManifest lineLength (done ++ roots.map Prod.snd) s'.2.entries := by
  induction roots generalizing done s with
  | nil =>
    obtain rfl := Option.some.inj h
    simpa using hs
  | cons root roots ih =>
    rw [List.foldlM_cons] at h
    obtain ⟨s₁, hroot, hrest⟩ := Option.bind_eq_some_iff.1 h
    have hsplit : done ++ (root :: roots).map Prod.snd =
        (done ++ [root.2]) ++ roots.map Prod.snd := by simp
    have hplain : PlainName root.2 := hnames.plain root.2 (by simp)
    have hnew : root.2 ∉ done := by
      intro hmem
      exact List.disjoint_of_nodup_append hnames.nodup hmem (by simp)
    have htop : firstSegment root.2 = root.2 :=
      firstSegment_of_not_mem (not_mem_of_plainName hplain (by decide))
    obtain ⟨hwritten, hmore⟩ := writeOutbound_spec root.1.written htop hroot
    have hnext := hs.written hplain.nonempty hnew hwritten hmore
    rw [hsplit] at hnames ⊢
    exact ih hnames hnext hrest

end Manifest

/-! ### The plan -/

section Plan
variable {lower : List Char → List Char} {lineLength : ManifestEntry → Nat}
variable {entryId : Nat → String}

structure OutboundPlan.Named (lower : List Char → List Char) (plan : OutboundPlan)
    (names : List (List Char)) : Prop where
  roots : plan.roots.map Prod.snd = names
  wire : WireNames names
  used : ∀ name ∈ names, lower name ∈ plan.rootNames.used

theorem OutboundPlan.addRoot_spec {plan plan' : OutboundPlan} {root : SelectedRoot}
    {names : List (List Char)} (hplan : plan.Named lower names)
    (h : plan.addRoot lower root = some plan') :
    ∃ name, (root.name.bind fun name => plan.rootNames.reserve lower name root.planned.isDir) =
      some (name, plan'.rootNames) ∧ plan'.Named lower (names ++ [name]) := by
  have hadded : (root.name.bind fun name =>
      (plan.rootNames.reserve lower name root.planned.isDir).bind fun reserved =>
        (countOutbound root.planned plan.stats).map fun stats =>
          ({ rootNames := reserved.2, roots := plan.roots ++ [(root, reserved.1)], stats } :
            OutboundPlan)) = some plan' := by
    rw [addRoot] at h
    split at h
    · cases h
    · cases h
    · exact h
  obtain ⟨name, hname, hadded⟩ := Option.bind_eq_some_iff.1 hadded
  obtain ⟨⟨wireName, r⟩, hreserve, hadded⟩ := Option.bind_eq_some_iff.1 hadded
  obtain ⟨stats, -, rfl⟩ := Option.map_eq_some_iff.1 hadded
  obtain ⟨hplain, -, hfree, hused⟩ := WindowsNameReservation.reserve_spec hreserve
  have hnew : wireName ∉ names := fun hmem => hfree (hplan.used wireName hmem)
  refine ⟨wireName, by rw [hname, Option.bind_some, hreserve], ?_, ⟨?_, ?_⟩, ?_⟩
  · rw [List.map_append, hplan.roots]
    rfl
  · rw [List.nodup_append_comm]
    exact List.nodup_cons.2 ⟨hnew, hplan.wire.nodup⟩
  · intro other hmem
    rcases List.mem_append.1 hmem with hold | hlast
    · exact hplan.wire.plain other hold
    · rw [List.mem_singleton.1 hlast]
      exact hplain
  · intro other hmem
    rw [hused]
    rcases List.mem_append.1 hmem with hold | hlast
    · exact List.mem_cons_of_mem _ (hplan.used other hold)
    · rw [List.mem_singleton.1 hlast]
      exact List.mem_cons_self

theorem OutboundPlan.addRoots_spec {roots : List SelectedRoot} {plan plan' : OutboundPlan}
    {names : List (List Char)} (hplan : plan.Named lower names)
    (h : roots.foldlM (addRoot lower) plan = some plan') :
    plan'.Named lower (names ++ wireNames lower plan.rootNames roots) := by
  induction roots generalizing plan names with
  | nil =>
    obtain rfl := Option.some.inj h
    rw [wireNames, List.append_nil]
    exact hplan
  | cons root roots ih =>
    rw [List.foldlM_cons] at h
    obtain ⟨plan₁, hadd, hrest⟩ := Option.bind_eq_some_iff.1 h
    obtain ⟨name, hreserve, hnamed⟩ := addRoot_spec hplan hadd
    have hrest := ih hnamed hrest
    rw [List.append_assoc] at hrest
    rw [wireNames, hreserve]
    exact hrest

theorem prepareOutboundPlan_spec {roots : List SelectedRoot} {plan : OutboundPlan}
    (h : prepareOutboundPlan lower roots = some plan) :
    plan.Named lower (wireNames lower (.new lower []) roots) := by
  have hstart : OutboundPlan.Named lower { rootNames := .new lower [] } [] :=
    ⟨rfl, ⟨List.nodup_nil, by simp⟩, by simp⟩
  rw [prepareOutboundPlan] at h
  split_ifs at h with hempty
  obtain ⟨plan', hroots, h⟩ := Option.bind_eq_some_iff.1 h
  split_ifs at h with hbytes
  obtain rfl := Option.some.inj h
  have hnamed := OutboundPlan.addRoots_spec hstart hroots
  rwa [List.nil_append] at hnamed

/-- What a batch for the phone is made of. -/
structure OutboundBatch (lower : List Char → List Char) (lineLength : ManifestEntry → Nat)
    (phoneId : String) (roots : List SelectedRoot) (offer : FileOffer) (stored : StoredBatch)
    (entries : List ManifestEntry) : Prop where
  record : stored.toBatchRecord.validate = true
  phone : stored.phoneId = phoneId
  direction : stored.direction = .computerToPhone
  manifest : stored.manifest = some entries
  offer : offer = FileOffer.ofBatch stored.toBatchRecord
    (((wireNames lower (.new lower []) roots).map String.ofList).take 8)
  names : WireNames (wireNames lower (.new lower []) roots)
  written : OutboundManifest lineLength (wireNames lower (.new lower []) roots) entries

theorem BatchRecord.new_spec {batchId phoneId : String} {direction : TransferDirection}
    {now files directories bytes : Nat} {batch : BatchRecord}
    (h : BatchRecord.new batchId phoneId direction now files directories bytes = some batch) :
    batch.validate = true ∧ batch.phoneId = phoneId ∧ batch.direction = direction := by
  unfold BatchRecord.new at h
  extract_lets record at h
  split_ifs at h with hvalid
  obtain rfl := Option.some.inj h
  exact ⟨hvalid, rfl, rfl⟩

theorem createOutboundOffer_spec {recoverable : List BatchRecord} {phoneId batchId : String}
    {now : Nat} {roots : List SelectedRoot} {offer : FileOffer} {stored : StoredBatch}
    (h : createOutboundOffer lower lineLength entryId recoverable phoneId batchId now roots =
      some (offer, stored)) :
    ∃ entries, OutboundBatch lower lineLength phoneId roots offer stored entries := by
  rw [createOutboundOffer] at h
  split_ifs at h with hactive
  obtain ⟨prepared, hprepared, h⟩ := Option.bind_eq_some_iff.1 h
  obtain ⟨batch, hbatch, h⟩ := Option.bind_eq_some_iff.1 h
  obtain ⟨written, hwritten, h⟩ := Option.bind_eq_some_iff.1 h
  split_ifs at h with hchanged
  obtain ⟨entries, hfinish, h⟩ := Option.map_eq_some_iff.1 h
  obtain ⟨hoffer, hstored⟩ := Prod.mk.inj h
  have hplan := prepareOutboundPlan_spec hprepared
  obtain ⟨hvalid, hphone, hdirection⟩ := BatchRecord.new_spec hbatch
  have hentries : written.2.entries = entries := by
    unfold ManifestWriter.finish at hfinish
    split_ifs at hfinish with hcounts
    exact Option.some.inj hfinish
  have hempty : OutboundManifest lineLength [] ([] : List ManifestEntry) :=
    ⟨by simp, by simp, by simp, rfl⟩
  have hnames : WireNames ([] ++ prepared.roots.map Prod.snd) := by
    rw [List.nil_append, hplan.roots]
    exact hplan.wire
  have hmanifest := writeRoots_spec hnames hempty hwritten
  rw [List.nil_append, hplan.roots, hentries] at hmanifest
  refine ⟨entries, ?_⟩
  subst hstored hoffer
  refine ⟨hvalid, hphone, hdirection, rfl, ?_, hplan.wire, hmanifest⟩
  rw [OutboundPlan.summaries, ← hplan.roots, List.map_map]
  rfl

end Plan

/-! ### The offer that is made again -/

theorem forEachManifestEntry_foldl {σ : Type} {lineLength : ManifestEntry → Nat}
    (f : σ → ManifestEntry → σ) {entries : List ManifestEntry} {ordinal : Nat}
    (h : ∀ i entry, entries[i]? = some entry →
      entry.ordinal = ordinal + i ∧ entry.validate lineLength = true) (s : σ) :
    forEachManifestEntry lineLength (fun s entry => (f s entry, true)) ordinal entries s =
      (entries.foldl f s, true) := by
  induction entries generalizing ordinal s with
  | nil => rfl
  | cons entry entries ih =>
    obtain ⟨hordinal, hvalid⟩ := h 0 entry rfl
    have hok : ¬(entry.validate lineLength = false ∨ entry.ordinal ≠ ordinal) := by
      simp [hvalid, hordinal]
    rw [forEachManifestEntry, if_neg hok, List.foldl_cons]
    apply ih
    intro i other hother
    have hnext := h (i + 1) other hother
    exact ⟨by omega, hnext.2⟩

/-- While the batch lasts, the offer that is made again is the one that was made first. -/
theorem OutboundBatch.pending {lower : List Char → List Char} {lineLength : ManifestEntry → Nat}
    {phoneId : String} {roots : List SelectedRoot} {offer : FileOffer} {stored : StoredBatch}
    {entries : List ManifestEntry}
    (h : OutboundBatch lower lineLength phoneId roots offer stored entries) (state : BatchState)
    (updatedAt : Nat) (progress : Nat → EntryProgress) :
    pendingOutboundOffers lineLength [{ stored with state, updatedAt, progress }] phoneId =
      [offer] := by
  have hkept : (stored.phoneId == phoneId && stored.direction == .computerToPhone) = true := by
    simp [h.phone, h.direction]
  have hordered : ∀ i entry, entries[i]? = some entry →
      entry.ordinal = 0 + i ∧ entry.validate lineLength = true := by
    intro i entry hi
    rw [Nat.zero_add]
    exact h.written.ordered i entry hi
  have hwalk := forEachManifestEntry_foldl collectRoot hordered []
  simp only [pendingOutboundOffers, List.filter_cons, List.filter_nil, hkept, if_true,
    List.filterMap_cons, List.filterMap_nil, h.manifest, Option.bind_some, hwalk,
    h.written.roots]
  rw [h.offer]
  rfl

end FlowType
