import Mathlib.Data.List.Perm.Basic
import Mathlib.Logic.Equiv.List
import FlowType.OutboundPreparation
import FlowType.TransferValidators

/-! What a batch for the phone is made of: counted and written entries are the same, the manifest
and the sources run in parallel, and the offer can be made again. The path of a source is kept as
text, so it is read back if it was Unicode. -/
namespace FlowType

open ByteFiles

/-! ### Paths as text -/

namespace OsString

theorem isSome_toStr_iff {path : OsString} :
    path.toStr.isSome = true ↔ ∀ unit ∈ path, ∃ c, unit = .scalar c := by
  induction path with
  | nil => simp [toStr]
  | cons unit path ih =>
    rw [List.forall_mem_cons, ← ih]
    cases unit with
    | scalar c =>
      cases hrest : toStr path with
      | none =>
        simp only [toStr] at hrest
        simp [toStr, hrest]
      | some rest =>
        simp only [toStr] at hrest
        simp [toStr, hrest]
    | surrogate unit => simp [toStr]

/-- Text that stands for a path is that path only if it had one. -/
theorem ofChars_toStringLossy {path : OsString} :
    ofChars path.toStringLossy = path ↔ path.toStr.isSome = true := by
  rw [isSome_toStr_iff, ofChars, toStringLossy, List.map_map]
  constructor
  · intro h unit hunit
    have hmem : unit ∈ path.map (OsChar.scalar ∘ lossyChar) := h.symm ▸ hunit
    obtain ⟨other, -, heq⟩ := List.mem_map.mp hmem
    exact ⟨lossyChar other, heq.symm⟩
  · intro h
    calc
      path.map (OsChar.scalar ∘ lossyChar) = path.map id := by
        apply List.map_congr_left
        intro unit hunit
        obtain ⟨c, rfl⟩ := h unit hunit
        rfl
      _ = path := List.map_id path

theorem isSome_toStr_join {path : OsString} {name : List Char} :
    (path.join name).toStr.isSome = true ↔ path.toStr.isSome = true := by
  have hname : ∀ unit ∈ ofChars name, ∃ c, unit = OsChar.scalar c := by
    intro unit hunit
    obtain ⟨c, -, rfl⟩ := List.mem_map.mp hunit
    exact ⟨c, rfl⟩
  rw [isSome_toStr_iff, isSome_toStr_iff, join]
  split <;> simp only [List.mem_append, List.mem_cons, or_imp, forall_and, forall_eq]
  · exact ⟨fun h => h.1, fun h => ⟨h, hname⟩⟩
  · exact ⟨fun h => h.1, fun h => ⟨h, ⟨_, rfl⟩, hname⟩⟩

end OsString

theorem OutboundPlace.isSome_toStr_path (p : OutboundPlace) :
    p.path.toStr.isSome = true ↔ p.root.path.toStr.isSome = true := by
  unfold path
  generalize p.visit.names.reduceOption = names
  induction names using List.reverseRecOn with
  | nil => rfl
  | append_singleton names name ih =>
    rw [List.foldl_append, List.foldl_cons, List.foldl_nil, OsString.isSome_toStr_join]
    exact ih

/-! ### Reading the sources -/

section Reading
variable {json : SourceJson} {isAbsolute : OsString → Bool} {s : OutboundWriters}
variable {places : List OutboundPlace} {ordinal : Nat}

theorem OutboundWriters.Wrote.read (hs : s.Wrote json isAbsolute places)
    (h : ordinal < places.length) (hsmall : ordinal * 8 < 2 ^ 64) :
    readIndexedJsonLine json ⟨s.sources.data, s.sources.index⟩ ordinal =
      .ok { ordinal, path := places[ordinal].path.toStringLossy } := by
  have hrecords : ordinal < (sourceRecords places).length := by
    rw [sourceRecords, List.length_mapIdx]
    exact h
  have hrecord : (sourceRecords places)[ordinal] =
      { ordinal, path := places[ordinal].path.toStringLossy } := by
    simp [sourceRecords]
  have hplace := @readAt_lineOffsets _ LF json.encode _ 0 _ hrecords
  rw [Nat.zero_add, ← hs.index] at hplace
  have hline := @drop_lineBytes _ LF json.encode _ _ hrecords
  rw [hrecord, ← hs.data] at hline
  have hoffset : (lineBytes LF json.encode ((sourceRecords places).take ordinal)).length <
      2 ^ 64 := by
    have hlength := congrArg List.length (congrArg (lineBytes LF json.encode)
      (List.take_append_drop ordinal (sourceRecords places)))
    rw [lineBytes_append, List.length_append, ← hs.data, ← hs.nextOffset] at hlength
    have htotal := hs.small
    omega
  have hread : ofLeBytes (leBytes 8
      (lineBytes LF json.encode ((sourceRecords places).take ordinal)).length) =
      (lineBytes LF json.encode ((sourceRecords places).take ordinal)).length := by
    rw [ofLeBytes_leBytes]
    exact Nat.mod_eq_of_lt hoffset
  have hmark : LF ∈ json.encode { ordinal, path := places[ordinal].path.toStringLossy } ++
      LF :: lineBytes LF json.encode ((sourceRecords places).drop (ordinal + 1)) := by simp
  have hwhole := @takeWhile_line _ LF json.encode _
    (json.oneLine { ordinal, path := places[ordinal].path.toStringLossy })
    (lineBytes LF json.encode ((sourceRecords places).drop (ordinal + 1)))
  rw [readIndexedJsonLine, if_neg (not_le.mpr hsmall)]
  simp only [hplace, length_leBytes, ne_eq, not_true_eq_false, if_false, hread, hline, hmark,
    hwhole, json.roundTrip]

/-- The path of a source is read back exactly if it is Unicode. -/
theorem OutboundWriters.Wrote.sourcePath_iff (hs : s.Wrote json isAbsolute places)
    (h : ordinal < places.length) (hsmall : ordinal * 8 < 2 ^ 64) :
    sourcePath json isAbsolute ⟨s.sources.data, s.sources.index⟩ ordinal =
      .ok places[ordinal].path ↔ places[ordinal].root.path.toStr.isSome = true := by
  have habsolute := hs.absolute places[ordinal] (List.getElem_mem h)
  rw [← OutboundPlace.isSome_toStr_path, ← OsString.ofChars_toStringLossy, sourcePath,
    hs.read h hsmall]
  simp only [Except.bind, ne_eq, not_true_eq_false, if_false]
  constructor
  · intro heq
    split at heq
    · exact absurd heq (by simp)
    · exact Except.ok.inj heq
  · intro heq
    rw [heq, habsolute]
    rfl

end Reading

/-! ### Directories first -/

mutual

theorem SourceTree.visits_parent (tree : SourceTree) (names : List (Option (List Char))) {i : Nat}
    {v : OutboundVisit} (h : (tree.visits names)[i]? = some v) :
    v.names = names ∨ ∃ j < i, ∃ parent, (tree.visits names)[j]? = some parent ∧
      parent.kind = .directory ∧ ∃ name, v.names = parent.names ++ [name] := by
  cases tree with
  | unavailable => simp [SourceTree.visits] at h
  | symlink => simp [SourceTree.visits] at h
  | other length modified =>
    rw [SourceTree.visits, List.getElem?_singleton] at h
    split at h
    · exact .inl (Option.some.inj h ▸ rfl)
    · cases h
  | file length modified =>
    rw [SourceTree.visits, List.getElem?_singleton] at h
    split at h
    · exact .inl (Option.some.inj h ▸ rfl)
    · cases h
  | directory modified children =>
    rw [SourceTree.visits] at h ⊢
    cases i with
    | zero => exact .inl (Option.some.inj h ▸ rfl)
    | succ i =>
      rw [List.getElem?_cons_succ] at h
      right
      rcases children.visits_parent names h with ⟨name, hname⟩ | ⟨j, hj, parent, hparent, hrest⟩
      · exact ⟨0, by omega, _, rfl, rfl, name, hname⟩
      · exact ⟨j + 1, by omega, parent, hparent, hrest⟩

theorem SourceList.visits_parent (children : SourceList) (names : List (Option (List Char)))
    {i : Nat} {v : OutboundVisit} (h : (children.visits names)[i]? = some v) :
    (∃ name, v.names = names ++ [name]) ∨
      ∃ j < i, ∃ parent, (children.visits names)[j]? = some parent ∧
        parent.kind = .directory ∧ ∃ name, v.names = parent.names ++ [name] := by
  cases children with
  | nil => simp [SourceList.visits] at h
  | cons name child rest =>
    rw [SourceList.visits] at h ⊢
    rw [List.getElem?_append] at h
    split at h
    · rename_i hin
      rcases child.visits_parent (names ++ [name]) h with hown | ⟨j, hj, parent, hparent, hrest⟩
      · exact .inl ⟨name, hown⟩
      · refine .inr ⟨j, hj, parent, ?_, hrest⟩
        rw [List.getElem?_append_left (by omega)]
        exact hparent
    · rename_i hout
      rcases rest.visits_parent names h with hown | ⟨j, hj, parent, hparent, hrest⟩
      · exact .inl hown
      · refine .inr ⟨j + (child.visits (names ++ [name])).length, by omega, parent, ?_, hrest⟩
        rw [List.getElem?_append_right (by omega), Nat.add_sub_cancel]
        exact hparent

end

/-- A place that is not at the top comes after the directory it is in. -/
theorem outboundPlaces_parent (roots : List (LocatedRoot × List Char)) {i : Nat}
    {p : OutboundPlace} (h : (outboundPlaces roots)[i]? = some p) :
    p.visit.names = [] ∨ ∃ j < i, ∃ parent, (outboundPlaces roots)[j]? = some parent ∧
      parent.root = p.root ∧ parent.name = p.name ∧ parent.visit.kind = .directory ∧
      ∃ name, p.visit.names = parent.visit.names ++ [name] := by
  induction roots generalizing i with
  | nil => simp [outboundPlaces] at h
  | cons root roots ih =>
    rw [outboundPlaces, List.flatMap_cons] at h ⊢
    rw [List.getElem?_append] at h
    split at h
    · rw [List.getElem?_map] at h
      obtain ⟨v, hv, rfl⟩ := Option.map_eq_some_iff.mp h
      rcases root.1.written.visits_parent [] hv with hown | ⟨j, hj, parent, hparent, hrest⟩
      · exact .inl hown
      · refine .inr ⟨j, hj, ⟨root.1, root.2, parent⟩, ?_, rfl, rfl, hrest⟩
        have hbound := (List.getElem?_eq_some_iff.mp hparent).1
        rw [List.getElem?_append_left (by rw [List.length_map]; exact hbound), List.getElem?_map,
          hparent]
        rfl
    · rename_i hout
      rcases ih h with hown | ⟨j, hj, parent, hparent, hrest⟩
      · exact .inl hown
      · refine .inr ⟨j + ((root.1.written.visits []).map (OutboundPlace.mk root.1 root.2)).length,
          by omega, parent, ?_, hrest⟩
        rw [List.getElem?_append_right (by omega), Nat.add_sub_cancel]
        exact hparent

/-! ### The batch -/

def selectedRoots (roots : List LocatedRoot) : List SelectedRoot := roots.map (·.toSelectedRoot)

/-- The places of a batch, under the names that the selected paths get. -/
def batchPlaces (lower : List Char → List Char) (roots : List LocatedRoot) : List OutboundPlace :=
  outboundPlaces (roots.zip (wireNames lower (.new lower []) (selectedRoots roots)))

def BatchRecord.totals (batch : BatchRecord) : OutboundTotals :=
  ⟨batch.fileCount, batch.directoryCount, batch.totalBytes⟩

/-- What holds of the batch that is created, and of the offer that is made again for it. -/
structure OutboundPreparation (json : SourceJson) (isAbsolute : OsString → Bool)
    (lineLength : ManifestEntry → Nat) (lower : List Char → List Char) (phoneId : String)
    (roots : List LocatedRoot) (offer : FileOffer) (stored : StoredBatch) (files : SourceFiles)
    (entries : List ManifestEntry) : Prop where
  manifest : stored.manifest = some entries
  counted : ∃ plan, prepareOutboundPlan lower (selectedRoots roots) = some plan ∧
    (roots.flatMap fun root => root.planned.visits []).foldlM OutboundStats.visit {} =
      some plan.stats ∧ plan.stats.totals = stored.toBatchRecord.totals
  visited : (roots.flatMap fun root => root.planned.visits []).Perm
    ((batchPlaces lower roots).map OutboundPlace.visit)
  written : visitTotals ((batchPlaces lower roots).map OutboundPlace.visit) =
    stored.toBatchRecord.totals
  matching : List.Forall₂ OutboundPlace.Matches (batchPlaces lower roots) entries
  ordinals : ∀ (i : Nat) (entry : ManifestEntry), entries[i]? = some entry → entry.ordinal = i
  parents : ∀ (i : Nat) (p : OutboundPlace) (entry : ManifestEntry),
    (batchPlaces lower roots)[i]? = some p → entries[i]? = some entry → p.visit.names ≠ [] →
    ∃ j < i, ∃ directory name, entries[j]? = some directory ∧ directory.kind = .directory ∧
      entry.relativePath = directory.relativePath ++ '/' :: name
  sources : ∀ (i : Nat) (p : OutboundPlace), (batchPlaces lower roots)[i]? = some p →
    sourcePath json isAbsolute files i = .ok p.path
  names : (wireNames lower (.new lower []) (selectedRoots roots)).Nodup
  pending : ∀ (before after : List StoredBatch) (state : BatchState) (updatedAt : Nat)
    (progress : Nat → EntryProgress), (∀ batch ∈ before ++ after, batch.phoneId ≠ phoneId) →
    pendingOutboundOffers lineLength
      (before ++ { stored with state, updatedAt, progress } :: after) phoneId = [offer]

section Batch
variable {json : SourceJson} {isAbsolute : OsString → Bool} {lineLength : ManifestEntry → Nat}
variable {entryId : Nat → String} {lower : List Char → List Char} {recoverable : List BatchRecord}
variable {phoneId batchId : String} {now : Nat} {roots : List LocatedRoot} {offer : FileOffer}
variable {stored : StoredBatch} {files : SourceFiles}

/-- What the writers were when the batch was done. -/
structure BatchWritten (json : SourceJson) (isAbsolute : OsString → Bool)
    (lower : List Char → List Char) (roots : List LocatedRoot) (stored : StoredBatch)
    (files : SourceFiles) (plan : OutboundPlan) (written : OutboundWriters) : Prop where
  prepared : prepareOutboundPlan lower (selectedRoots roots) = some plan
  wrote : written.Wrote json isAbsolute (batchPlaces lower roots)
  manifest : stored.manifest = some written.manifest.entries
  saved : files = ⟨written.sources.data, written.sources.index⟩
  short : written.manifest.entries.length * PROGRESS_RECORD_BYTES < 2 ^ 64
  planned : plan.stats.totals = stored.toBatchRecord.totals
  counted : written.stats.totals = plan.stats.totals
  located : (roots.zip (wireNames lower (.new lower []) (selectedRoots roots))).map Prod.fst = roots
  found : ∀ root ∈ roots, root.written.visits [] ≠ []

theorem BatchRecord.new_totals {direction : TransferDirection} {stats : OutboundStats}
    {batch : BatchRecord} (h : BatchRecord.new batchId phoneId direction now stats.fileCount
      stats.directoryCount stats.totalBytes = some batch) : stats.totals = batch.totals := by
  unfold BatchRecord.new at h
  extract_lets record at h
  split_ifs at h with hvalid
  obtain rfl := Option.some.inj h
  rfl

theorem finish_entries {w : ManifestWriter} {entries : List ManifestEntry}
    (h : w.finish = some entries) : w.entries = entries := by
  unfold ManifestWriter.finish at h
  split_ifs at h with hcounts
  exact Option.some.inj h

theorem writeRoots_found {pairs : List (LocatedRoot × List Char)} {s s' : OutboundWriters}
    (h : OutboundWriters.writeRoots json isAbsolute lineLength entryId pairs s = some s') :
    ∀ root ∈ pairs.map Prod.fst, root.written.visits [] ≠ [] := by
  unfold OutboundWriters.writeRoots at h
  induction pairs generalizing s with
  | nil => simp
  | cons pair pairs ih =>
    rw [List.foldlM_cons] at h
    obtain ⟨s₁, hroot, hrest⟩ := Option.bind_eq_some_iff.mp h
    rw [List.map_cons, List.forall_mem_cons]
    refine ⟨?_, ih hrest⟩
    generalize pair.1.written = tree at hroot ⊢
    cases tree with
    | unavailable => cases hroot
    | symlink => cases hroot
    | other length modified => simp [SourceTree.visits]
    | file length modified => simp [SourceTree.visits]
    | directory modified children => simp [SourceTree.visits]

theorem createOutboundBatch_spec
    (h : createOutboundBatch json isAbsolute lineLength entryId lower recoverable phoneId batchId
      now roots = some (offer, stored, files)) :
    createOutboundOffer lower lineLength entryId recoverable phoneId batchId now
      (selectedRoots roots) = some (offer, stored) ∧
    ∃ plan written, BatchWritten json isAbsolute lower roots stored files plan written := by
  unfold createOutboundBatch at h
  split_ifs at h with hactive
  obtain ⟨prepared, hprepared, h⟩ := Option.bind_eq_some_iff.mp h
  obtain ⟨batch, hbatch, h⟩ := Option.bind_eq_some_iff.mp h
  obtain ⟨sources, hsources, h⟩ := Option.bind_eq_some_iff.mp h
  obtain ⟨written, hwritten, h⟩ := Option.bind_eq_some_iff.mp h
  split_ifs at h with hchanged
  obtain ⟨entries, hfinish, h⟩ := Option.bind_eq_some_iff.mp h
  split_ifs at h with hprogress
  obtain ⟨saved, hsaved, h⟩ := Option.map_eq_some_iff.mp h
  obtain ⟨rfl, hstored⟩ := Prod.mk.inj h
  obtain ⟨rfl, rfl⟩ := Prod.mk.inj hstored
  have hroots := (prepareOutboundPlan_visits hprepared).1
  have hnames := (prepareOutboundPlan_spec hprepared).roots
  have hpairs : prepared.roots = (roots.zip (prepared.roots.map Prod.snd)).map
      fun root => (root.1.toSelectedRoot, root.2) := by
    calc
      prepared.roots = (roots.map (·.toSelectedRoot)).zip (prepared.roots.map Prod.snd) :=
        List.zip_of_prod hroots rfl
      _ = _ := by rw [List.zip_map_left]; rfl
  have hoffer := OutboundWriters.writeRoots_offer _ hwritten
  rw [← hpairs] at hoffer
  constructor
  · simp only [createOutboundOffer, if_neg hactive, selectedRoots, hprepared, hbatch,
      Option.bind_some, hoffer, if_neg hchanged, hfinish, Option.map_some]
  · have hlength : roots.length = (prepared.roots.map Prod.snd).length := by
      have hcount := congrArg List.length hroots
      rw [List.length_map, List.length_map] at hcount
      rw [List.length_map, hcount]
    have hlocated : (roots.zip (prepared.roots.map Prod.snd)).map Prod.fst = roots :=
      List.map_fst_zip hlength.le
    refine ⟨prepared, written, hprepared, ?_, ?_, ?_, ?_, ?_, ?_, ?_, ?_⟩
    · have hstart : OutboundWriters.Wrote json isAbsolute
          { manifest := { expectedFiles := batch.fileCount
                          expectedDirectories := batch.directoryCount
                          expectedBytes := batch.totalBytes }
            sources } [] := by
        obtain ⟨count, -, rfl⟩ := Option.map_eq_some_iff.mp hsources
        exact ⟨.nil, rfl, rfl, rfl, Nat.two_pow_pos 64, rfl, rfl, by simp, by simp⟩
      have hwrote := OutboundWriters.writeRoots_wrote _ hstart hwritten
      rw [List.nil_append, hnames] at hwrote
      exact hwrote
    · rw [finish_entries hfinish]
    · unfold SourceWriter.finish at hsaved
      split_ifs at hsaved with hcount
      exact (Option.some.inj hsaved).symm
    · rw [finish_entries hfinish]
      omega
    · exact BatchRecord.new_totals hbatch
    · rw [not_or, not_or, not_not, not_not, not_not] at hchanged
      rw [OutboundStats.totals, hchanged.1, hchanged.2.1, hchanged.2.2]
      rfl
    · rw [selectedRoots, ← hnames, hlocated]
    · have hfound := writeRoots_found hwritten
      rwa [hlocated] at hfound

/-- Only the batch of the phone gives it an offer. -/
theorem pendingOutboundOffers_others {before after : List StoredBatch} {batch : StoredBatch}
    (hothers : ∀ other ∈ before ++ after, other.phoneId ≠ phoneId) :
    pendingOutboundOffers lineLength (before ++ batch :: after) phoneId =
      pendingOutboundOffers lineLength [batch] phoneId := by
  have hnone : ∀ others : List StoredBatch, (∀ other ∈ others, other.phoneId ≠ phoneId) →
      (others.filter fun other =>
        other.phoneId == phoneId && other.direction == .computerToPhone) = [] := by
    intro others hall
    rw [List.filter_eq_nil_iff]
    intro other hother
    simp [hall other hother]
  have hbefore := hnone before fun other hother => hothers other (List.mem_append_left _ hother)
  have hafter := hnone after fun other hother => hothers other (List.mem_append_right _ hother)
  unfold pendingOutboundOffers
  rw [List.filter_append, hbefore, List.nil_append, List.filter_cons, hafter, List.filter_cons,
    List.filter_nil]

section Prepared
variable {plan : OutboundPlan} {written : OutboundWriters}

theorem BatchWritten.visits
    (h : BatchWritten json isAbsolute lower roots stored files plan written) :
    (batchPlaces lower roots).map OutboundPlace.visit =
      roots.flatMap fun root => root.written.visits [] := by
  have hroots := h.located
  rw [batchPlaces, outboundPlaces, List.map_flatMap]
  generalize roots.zip _ = pairs at hroots ⊢
  subst hroots
  rw [List.flatMap_map]
  simp [Function.comp_def]

theorem BatchWritten.exists_place
    (h : BatchWritten json isAbsolute lower roots stored files plan written) {root : LocatedRoot}
    (hroot : root ∈ roots) : ∃ p ∈ batchPlaces lower roots, p.root = root := by
  have hpair := hroot
  rw [← h.located] at hpair
  obtain ⟨pair, hmem, rfl⟩ := List.mem_map.mp hpair
  obtain ⟨v, hv⟩ := List.exists_mem_of_ne_nil _ (h.found pair.1 hroot)
  exact ⟨⟨pair.1, pair.2, v⟩, List.mem_flatMap.mpr ⟨pair, hmem, List.mem_map_of_mem hv⟩, rfl⟩

theorem BatchWritten.root_mem
    (h : BatchWritten json isAbsolute lower roots stored files plan written) {p : OutboundPlace}
    (hp : p ∈ batchPlaces lower roots) : p.root ∈ roots := by
  obtain ⟨pair, hpair, hvisit⟩ := List.mem_flatMap.mp hp
  obtain ⟨v, -, rfl⟩ := List.mem_map.mp hvisit
  rw [← h.located]
  exact List.mem_map_of_mem hpair

/-- The parent of an entry is a directory that stands before it. -/
theorem BatchWritten.parents
    (h : BatchWritten json isAbsolute lower roots stored files plan written) {i : Nat}
    {p : OutboundPlace} {entry : ManifestEntry} (hplace : (batchPlaces lower roots)[i]? = some p)
    (hentry : written.manifest.entries[i]? = some entry) (hbelow : p.visit.names ≠ []) :
    ∃ j < i, ∃ directory name, written.manifest.entries[j]? = some directory ∧
      directory.kind = .directory ∧ entry.relativePath = directory.relativePath ++ '/' :: name := by
  obtain ⟨j, hj, parent, hparent, hroot, hname, hkind, name, hnames⟩ :=
    (outboundPlaces_parent _ hplace).resolve_left hbelow
  have hmatches := List.forall₂_iff_get.mp h.wrote.entries
  obtain ⟨hi, hgetPlace⟩ := List.getElem?_eq_some_iff.mp hplace
  obtain ⟨hi', hgetEntry⟩ := List.getElem?_eq_some_iff.mp hentry
  obtain ⟨hjPlace, hgetParent⟩ := List.getElem?_eq_some_iff.mp hparent
  have hjEntry : j < written.manifest.entries.length := by omega
  have hown : p.Matches entry := by
    have hpair := hmatches.2 i hi hi'
    simp only [List.get_eq_getElem, hgetPlace, hgetEntry] at hpair
    exact hpair
  have hdirectory : parent.Matches written.manifest.entries[j] := by
    have hpair := hmatches.2 j hjPlace hjEntry
    simp only [List.get_eq_getElem] at hpair
    exact hgetParent ▸ hpair
  have hnamed := h.wrote.named p (List.mem_of_getElem? hplace) name (by rw [hnames]; simp)
  obtain ⟨given, rfl⟩ := Option.ne_none_iff_exists'.mp hnamed
  refine ⟨j, hj, _, given, List.getElem?_eq_getElem hjEntry, ?_, ?_⟩
  · rw [hdirectory.kind, hkind]
  · rw [hown.relativePath, hdirectory.relativePath, OutboundPlace.relativePath, hnames,
      List.reduceOption_append, List.foldl_append, OutboundPlace.relativePath, hname]
    rfl

end Prepared

/-- A batch that is created from paths that do not change meanwhile is what it should be, with the
paths of its sources as they are, exactly if all selected paths are Unicode. -/
theorem outbound_preparation_iff (json : SourceJson) (isAbsolute : OsString → Bool)
    (lineLength : ManifestEntry → Nat) (entryId : Nat → String) (lower : List Char → List Char)
    (recoverable : List BatchRecord) (phoneId batchId : String) (now : Nat)
    (roots : List LocatedRoot) (offer : FileOffer) (stored : StoredBatch) (files : SourceFiles)
    (hunchanged : ∀ root ∈ roots, root.planned.Same root.written)
    (h : createOutboundBatch json isAbsolute lineLength entryId lower recoverable phoneId batchId
      now roots = some (offer, stored, files)) :
    (∃ entries, OutboundPreparation json isAbsolute lineLength lower phoneId roots offer stored
      files entries) ↔ ∀ root ∈ roots, root.path.toStr.isSome = true := by
  obtain ⟨hoffer, plan, written, hwritten⟩ := createOutboundBatch_spec h
  obtain ⟨entries, hbatch⟩ := createOutboundOffer_spec hoffer
  obtain rfl : written.manifest.entries = entries := by
    have hmanifest := hwritten.manifest.symm.trans hbatch.manifest
    exact Option.some.inj hmanifest
  have hcount : (batchPlaces lower roots).length = written.manifest.entries.length :=
    hwritten.wrote.entries.length_eq
  have hread (i : Nat) (hi : i < (batchPlaces lower roots).length) :
      sourcePath json isAbsolute files i = .ok (batchPlaces lower roots)[i].path ↔
        (batchPlaces lower roots)[i].root.path.toStr.isSome = true := by
    have hshort := hwritten.short
    rw [PROGRESS_RECORD_BYTES] at hshort
    rw [hwritten.saved]
    exact hwritten.wrote.sourcePath_iff hi (by omega)
  constructor
  · rintro ⟨entries, hall⟩ root hroot
    obtain ⟨p, hmem, rfl⟩ := hwritten.exists_place hroot
    obtain ⟨i, hi, rfl⟩ := List.getElem_of_mem hmem
    exact (hread i hi).mp (hall.sources i _ (List.getElem?_eq_getElem hi))
  · intro hunicode
    have hvisits := hwritten.visits
    have hvisited : (roots.flatMap fun root => root.planned.visits []).Perm
        ((batchPlaces lower roots).map OutboundPlace.visit) := by
      rw [hvisits]
      exact List.Perm.flatMap_left roots fun root hroot => (hunchanged root hroot).visits []
    have hsources : ∀ (i : Nat) (p : OutboundPlace), (batchPlaces lower roots)[i]? = some p →
        sourcePath json isAbsolute files i = .ok p.path := by
      intro i p hp
      obtain ⟨hi, rfl⟩ := List.getElem?_eq_some_iff.mp hp
      exact (hread i hi).mpr (hunicode _ (hwritten.root_mem (List.getElem_mem hi)))
    refine ⟨written.manifest.entries, hwritten.manifest, ⟨plan, hwritten.prepared, ?_,
      hwritten.planned⟩, hvisited, ?_, hwritten.wrote.entries,
      fun i entry hi => (hbatch.written.ordered i entry hi).1,
      fun i p entry hp hentry hne => hwritten.parents hp hentry hne, hsources,
      hbatch.names.nodup, ?_⟩
    · have hcounted := (prepareOutboundPlan_visits hwritten.prepared).2
      rw [selectedRoots, List.flatMap_map] at hcounted
      exact hcounted
    · rw [← hwritten.wrote.totals, hwritten.counted, hwritten.planned]
    · intro before after state updatedAt progress hothers
      rw [pendingOutboundOffers_others hothers]
      exact hbatch.pending state updatedAt progress

end Batch

/-! ### One file -/

/-- `Path::is_absolute` of a path that begins with the letter of a drive. -/
def driveRooted : OsString → Bool
  | .scalar letter :: .scalar ':' :: separator :: _ =>
    letter.isAlpha && OsString.isSeparator separator
  | _ => false

def fileName : List Char := "a.txt".toList

/-- A file of one byte. -/
def fileAt (path : OsString) : LocatedRoot where
  name := some fileName
  planned := .file 1 none
  written := .file 1 none
  path := path

/-- A file on a drive, in the directory of this name. -/
def pathIn (directory : OsChar) : OsString :=
  OsString.ofChars ['C', ':', Char.ofNat 0x5c] ++ directory ::
    OsString.ofChars (Char.ofNat 0x5c :: fileName)

def asciiBytes (text : String) : List UInt8 := text.toList.map fun c => UInt8.ofNat c.toNat

/-- The record of such a file, with the bytes of the name of the directory. -/
def recordJson (directory : List UInt8) : List UInt8 :=
  asciiBytes "\x7b\"ordinal\":0,\"path\":\"C:\\\\" ++ directory ++ asciiBytes "\\\\a.txt\"\x7d"



theorem countable_sourceRecord : Countable SourceRecord := by
  apply Function.Injective.countable (f := fun r : SourceRecord =>
    (r.ordinal, r.path.map Char.toNat))
  intro r r' h
  obtain ⟨hordinal, hpath⟩ := Prod.mk.inj h
  cases r
  cases r'
  simp only [SourceRecord.mk.injEq]
  have hinjective : Function.Injective Char.toNat := fun _ _ hc => Char.toNat_inj.mp hc
  exact ⟨hordinal, List.map_injective_iff.mpr hinjective hpath⟩

/-- There is a JSON of the records that gives one of them the line it is to have. -/
theorem exists_sourceJson (record : SourceRecord) (line : List UInt8) (hline : LF ∉ line)
    (hbrace : 123 ∈ line) : ∃ json : SourceJson, json.encode record = line := by
  have := countable_sourceRecord
  have hother : ∀ count, line ≠ List.replicate count 49 := by
    intro count heq
    rw [heq] at hbrace
    exact absurd (List.eq_of_mem_replicate hbrace) (by decide)
  obtain ⟨encode, decode, hround, hone, hrecord⟩ :=
    exists_encoding record hline (by decide : (49 : UInt8) ≠ LF) hother
  exact ⟨⟨encode, decode, hround, hone⟩, hrecord⟩

theorem create_fileAt (json : SourceJson) (directory : OsChar)
    (hline : (json.encode ⟨0, (pathIn directory).toStringLossy⟩).length < 99) :
    ∃ made, createOutboundBatch json driveRooted serdeLineLength (fun _ => "e")
      (List.map Char.toLower) [] "phone" "batch" 0 [fileAt (pathIn directory)] = some made := by
  have hname : prepareOutboundPlan (List.map Char.toLower)
      [(fileAt (pathIn directory)).toSelectedRoot] =
      some { rootNames := ⟨[fileName]⟩
             roots := [((fileAt (pathIn directory)).toSelectedRoot, fileName)]
             stats := { fileCount := 1, totalBytes := 1 } } := rfl
  have hvalid : (outboundEntry (fun _ => "e") 0 fileName .file 1 none).validate
      serdeLineLength = true := by decide +kernel
  have hpath : validateRelativePath fileName = true := by decide +kernel
  have habsolute : driveRooted (pathIn directory) = true := rfl
  have hid : validIdentifier "batch" MAX_BATCH_ID_BYTES = true := by decide
  have hphone : validIdentifier "phone" MAX_PHONE_ID_BYTES = true := by decide
  have hlength : (json.encode ⟨0, (pathIn directory).toStringLossy⟩).length + 1 <
      18446744073709551616 := by omega
  have hentry : (outboundEntry (fun _ => "e") 0 fileName .file 1 none).ordinal = 0 := rfl
  have hkind : (outboundEntry (fun _ => "e") 0 fileName .file 1 none).kind = .file := rfl
  have hsize : (outboundEntry (fun _ => "e") 0 fileName .file 1 none).size = 1 := rfl
  have hselected : (fileAt (pathIn directory)).written = .file 1 none := rfl
  have hroot : (fileAt (pathIn directory)).path = pathIn directory := rfl
  simp [createOutboundBatch, hname, BatchRecord.new, BatchRecord.validate, hid, hphone,
    beginSourcePaths, checkedAdd, OutboundWriters.writeRoots, hselected, hroot,
    OutboundWriters.writeOutbound, OutboundWriters.append, hpath, OutboundStats.count,
    ManifestWriter.append, hvalid, hentry, hkind, hsize, SourceWriter.append, habsolute, hlength,
    ManifestWriter.finish, SourceWriter.finish, MAX_WIRE_INTEGER, PROGRESS_RECORD_BYTES]

theorem outbound_preparation_drive : ∃ (json : SourceJson) (offer : FileOffer)
    (stored : StoredBatch) (files : SourceFiles),
    json.encode ⟨0, (pathIn (.scalar 'd')).toStringLossy⟩ = recordJson (asciiBytes "d") ∧
    createOutboundBatch json driveRooted serdeLineLength (fun _ => "e") (List.map Char.toLower) []
      "phone" "batch" 0 [fileAt (pathIn (.scalar 'd'))] = some (offer, stored, files) ∧
    ((∃ entries, OutboundPreparation json driveRooted serdeLineLength (List.map Char.toLower)
      "phone" [fileAt (pathIn (.scalar 'd'))] offer stored files entries) ↔
      ∀ root ∈ [fileAt (pathIn (.scalar 'd'))], root.path.toStr.isSome = true) := by
  obtain ⟨json, hjson⟩ := exists_sourceJson ⟨0, (pathIn (.scalar 'd')).toStringLossy⟩
    (recordJson (asciiBytes "d")) (by decide) (by decide)
  obtain ⟨⟨offer, stored, files⟩, hmade⟩ :=
    create_fileAt json (.scalar 'd') (by rw [hjson]; decide)
  refine ⟨json, offer, stored, files, hjson, hmade, ?_⟩
  apply outbound_preparation_iff json driveRooted serdeLineLength (fun _ => "e")
    (List.map Char.toLower) [] "phone" "batch" 0 _ offer stored files _ hmade
  intro root hroot
  rw [List.mem_singleton.mp hroot]
  exact .refl _

/-- The entry of the file. -/
def filePlace (directory : OsChar) : OutboundPlace where
  root := fileAt (pathIn directory)
  name := fileName
  visit := ⟨[], .file, 1, 1, none⟩

theorem batchPlaces_fileAt (directory : OsChar) :
    batchPlaces (List.map Char.toLower) [fileAt (pathIn directory)] = [filePlace directory] := by
  have hname : wireNames (List.map Char.toLower) (.new (List.map Char.toLower) [])
      (selectedRoots [fileAt (pathIn directory)]) = [fileName] := by
    change wireNames _ _ [⟨some fileName, .file 1 none, .file 1 none⟩] = _
    decide +kernel
  rw [batchPlaces, hname]
  rfl

/-- The name of the directory is half a surrogate pair: the offer is made, and its source is read
back as a path that names another directory. -/
theorem source_path_replaced : ∃ (json : SourceJson) (offer : FileOffer) (stored : StoredBatch)
    (files : SourceFiles),
    json.encode ⟨0, (pathIn (.surrogate 0xd800)).toStringLossy⟩ =
      recordJson [0xef, 0xbf, 0xbd] ∧
    createOutboundBatch json driveRooted serdeLineLength (fun _ => "e") (List.map Char.toLower) []
      "phone" "batch" 0 [fileAt (pathIn (.surrogate 0xd800))] = some (offer, stored, files) ∧
    sourcePath json driveRooted files 0 = .ok (pathIn (.scalar (Char.ofNat 0xfffd))) ∧
    ¬∃ entries, OutboundPreparation json driveRooted serdeLineLength (List.map Char.toLower)
      "phone" [fileAt (pathIn (.surrogate 0xd800))] offer stored files entries := by
  obtain ⟨json, hjson⟩ := exists_sourceJson ⟨0, (pathIn (.surrogate 0xd800)).toStringLossy⟩
    (recordJson [0xef, 0xbf, 0xbd]) (by decide) (by decide)
  obtain ⟨⟨offer, stored, files⟩, hmade⟩ :=
    create_fileAt json (.surrogate 0xd800) (by rw [hjson]; decide)
  obtain ⟨-, plan, written, hwritten⟩ := createOutboundBatch_spec hmade
  have hplaces := batchPlaces_fileAt (.surrogate 0xd800)
  have hwrote := hwritten.wrote
  rw [hplaces] at hwrote
  have hread : readIndexedJsonLine json ⟨written.sources.data, written.sources.index⟩ 0 = _ :=
    hwrote.read Nat.zero_lt_one (Nat.two_pow_pos 64)
  have hreplaced : sourcePath json driveRooted files 0 =
      .ok (pathIn (.scalar (Char.ofNat 0xfffd))) := by
    rw [sourcePath, hwritten.saved, hread]
    rfl
  refine ⟨json, offer, stored, files, hjson, hmade, hreplaced, ?_⟩
  rintro ⟨entries, hall⟩
  have hpath := hall.sources 0 (filePlace (.surrogate 0xd800)) (by rw [hplaces]; rfl)
  rw [hreplaced] at hpath
  exact absurd (Except.ok.inj hpath) (by decide)

end FlowType
