import FlowType.OutboundVisits

/-! What is prepared for the phone: the manifest and the sources list what was counted, place by
place, and the offer can be made again. -/
namespace FlowType

open ByteFiles

/-- An entry of a batch: the selected path it belongs to, the name of that on the wire, and how the
entry was visited. -/
structure OutboundPlace where
  root : LocatedRoot
  name : List Char
  visit : OutboundVisit

namespace OutboundPlace

def path (p : OutboundPlace) : OsString :=
  p.visit.names.reduceOption.foldl OsString.join p.root.path

def relativePath (p : OutboundPlace) : List Char :=
  p.visit.names.reduceOption.foldl (fun path name => path ++ '/' :: name) p.name

structure Matches (p : OutboundPlace) (entry : ManifestEntry) : Prop where
  relativePath : entry.relativePath = p.relativePath
  kind : entry.kind = p.visit.kind
  size : entry.size = p.visit.size

end OutboundPlace

def outboundPlaces (roots : List (LocatedRoot × List Char)) : List OutboundPlace :=
  roots.flatMap fun root =>
    (root.1.written.visits []).map (OutboundPlace.mk root.1 root.2)

def sourceRecords (places : List OutboundPlace) : List SourceRecord :=
  places.mapIdx fun ordinal p => { ordinal, path := p.path.toStringLossy }

/-- What the writers have taken of the places so far. -/
structure OutboundWriters.Wrote (json : SourceJson) (isAbsolute : OsString → Bool)
    (s : OutboundWriters) (places : List OutboundPlace) : Prop where
  entries : List.Forall₂ OutboundPlace.Matches places s.manifest.entries
  totals : s.stats.totals = visitTotals (places.map OutboundPlace.visit)
  nextOrdinal : s.sources.nextOrdinal = places.length
  nextOffset : s.sources.nextOffset = s.sources.data.length
  small : s.sources.nextOffset < 2 ^ 64
  data : s.sources.data = lineBytes LF json.encode (sourceRecords places)
  index : s.sources.index = lineOffsets json.encode 0 (sourceRecords places)
  absolute : ∀ p ∈ places, isAbsolute p.path = true
  named : ∀ p ∈ places, ∀ name ∈ p.visit.names, name ≠ none

section Writing
variable {json : SourceJson} {isAbsolute : OsString → Bool} {lineLength : ManifestEntry → Nat}
variable {entryId : Nat → String} {s s' : OutboundWriters} {places : List OutboundPlace}

theorem sourceRecords_concat (places : List OutboundPlace) (p : OutboundPlace) :
    sourceRecords (places ++ [p]) =
      sourceRecords places ++ [{ ordinal := places.length, path := p.path.toStringLossy }] := by
  simp [sourceRecords, List.mapIdx_concat]

theorem SourceWriter.append_spec {w w' : SourceWriter} {ordinal : Nat} {path : OsString}
    (h : w.append json isAbsolute ordinal path = some w') :
    ordinal = w.nextOrdinal ∧ isAbsolute path = true ∧
      w'.nextOrdinal = w.nextOrdinal + 1 ∧ w'.nextOffset < 2 ^ 64 ∧
      w'.nextOffset = w.nextOffset +
        (json.encode { ordinal, path := path.toStringLossy } ++ [LF]).length ∧
      w'.data = w.data ++ (json.encode { ordinal, path := path.toStringLossy } ++ [LF]) ∧
      w'.index = w.index ++ leBytes 8 w.nextOffset := by
  unfold append at h
  split_ifs at h with hbad
  rw [not_or, not_not, Bool.not_eq_false] at hbad
  obtain ⟨nextOffset, hadd, rfl⟩ := Option.map_eq_some_iff.mp h
  have hsum := eq_of_checkedAdd hadd
  have hsmall : nextOffset < 2 ^ 64 := by
    unfold checkedAdd at hadd
    split_ifs at hadd with hfits
    omega
  exact ⟨hbad.1, hbad.2, rfl, hsmall, hsum, rfl, rfl⟩

/-- An entry is appended to both files. -/
theorem OutboundWriters.append_wrote (hs : s.Wrote json isAbsolute places) (p : OutboundPlace)
    (hnamed : ∀ name ∈ p.visit.names, name ≠ none)
    (h : s.append json isAbsolute lineLength entryId p.path p.relativePath p.visit.kind
      p.visit.length p.visit.size p.visit.modified = some s') :
    s'.Wrote json isAbsolute (places ++ [p]) := by
  unfold append at h
  split_ifs at h with hpath
  obtain ⟨stats, hcount, h⟩ := Option.bind_eq_some_iff.mp h
  obtain ⟨manifest, hmanifest, h⟩ := Option.bind_eq_some_iff.mp h
  obtain ⟨sources, hsources, h⟩ := Option.bind_eq_some_iff.mp h
  obtain ⟨nextOrdinal, hnext, rfl⟩ := Option.map_eq_some_iff.mp h
  obtain ⟨-, -, hentries⟩ := ManifestWriter.append_spec hmanifest
  obtain ⟨hordinal, habsolute, hcounted, hsmall, hoffset, hdata, hindex⟩ :=
    SourceWriter.append_spec hsources
  have hplace : s.stats.nextOrdinal = places.length := hordinal.trans hs.nextOrdinal
  have hrecords := sourceRecords_concat places p
  rw [hplace] at hoffset hdata
  constructor
  · rw [hentries]
    exact List.rel_append hs.entries (.cons ⟨rfl, rfl, rfl⟩ .nil)
  · have hone : [p.visit].foldlM OutboundStats.visit s.stats = some stats := by
      rw [List.foldlM_cons, OutboundStats.visit, hcount]
      rfl
    have hsum := OutboundStats.visit_totals [p.visit] hone
    have htotals := hs.totals
    rw [OutboundStats.totals, OutboundTotals.mk.injEq] at htotals
    rw [List.map_append, List.map_singleton, visitTotals_append, ← htotals.1, ← htotals.2.1,
      ← htotals.2.2]
    exact hsum
  · simp only [hcounted, hs.nextOrdinal, List.length_append, List.length_singleton]
  · simp only [hoffset, hdata, hs.nextOffset, List.length_append]
  · exact hsmall
  · simp only [hdata, hrecords, lineBytes_append, hs.data]
    simp [lineBytes]
  · have hlength : s.sources.nextOffset =
        0 + (lineBytes LF json.encode (sourceRecords places)).length := by
      rw [Nat.zero_add, ← hs.data, hs.nextOffset]
    rw [hrecords, lineOffsets_concat, ← hlength, ← hs.index]
    exact hindex
  · intro q hq
    rcases List.mem_append.mp hq with hold | hlast
    · exact hs.absolute q hold
    · rw [List.mem_singleton.mp hlast]
      exact habsolute
  · intro q hq
    rcases List.mem_append.mp hq with hold | hlast
    · exact hs.named q hold
    · rw [List.mem_singleton.mp hlast]
      exact hnamed

mutual

/-- The walk below a path takes the places that are visited. -/
theorem OutboundWriters.writeOutbound_wrote {s s' : OutboundWriters} {places : List OutboundPlace}
    (tree : SourceTree) (root : LocatedRoot) (name : List Char)
    (names : List (Option (List Char))) {path : OsString} {relativePath : List Char}
    (hs : s.Wrote json isAbsolute places)
    (hnamed : ∀ name ∈ names, name ≠ none)
    (hpath : names.reduceOption.foldl OsString.join root.path = path)
    (hrelative : names.reduceOption.foldl (fun path name => path ++ '/' :: name) name =
      relativePath)
    (h : writeOutbound json isAbsolute lineLength entryId tree path relativePath s = some s') :
    s'.Wrote json isAbsolute
      (places ++ (tree.visits names).map (OutboundPlace.mk root name)) := by
  subst hpath hrelative
  cases tree with
  | unavailable => cases h
  | symlink => cases h
  | other length modified =>
    rw [writeOutbound] at h
    exact append_wrote hs { root, name, visit := ⟨names, .file, length, 0, modified⟩ } hnamed h
  | file length modified =>
    rw [writeOutbound] at h
    exact append_wrote hs { root, name, visit := ⟨names, .file, length, length, modified⟩ } hnamed h
  | directory modified children =>
    rw [writeOutbound] at h
    obtain ⟨s₁, hown, hbelow⟩ := Option.bind_eq_some_iff.mp h
    have hfirst := append_wrote hs { root, name, visit := ⟨names, .directory, 0, 0, modified⟩ }
      hnamed hown
    have hrest := writeChildren_wrote children root name names hfirst hnamed rfl rfl hbelow
    rw [SourceTree.visits, List.map_cons, List.append_cons]
    exact hrest

theorem OutboundWriters.writeChildren_wrote {s s' : OutboundWriters} {places : List OutboundPlace}
    (children : SourceList) (root : LocatedRoot) (name : List Char)
    (names : List (Option (List Char))) {path : OsString} {relativePath : List Char}
    (hs : s.Wrote json isAbsolute places)
    (hnamed : ∀ name ∈ names, name ≠ none)
    (hpath : names.reduceOption.foldl OsString.join root.path = path)
    (hrelative : names.reduceOption.foldl (fun path name => path ++ '/' :: name) name =
      relativePath)
    (h : writeChildren json isAbsolute lineLength entryId children path relativePath s = some s') :
    s'.Wrote json isAbsolute
      (places ++ (children.visits names).map (OutboundPlace.mk root name)) := by
  cases children with
  | nil =>
    rw [writeChildren] at h
    obtain rfl := Option.some.inj h
    simpa [SourceList.visits] using hs
  | cons childName child rest =>
    rw [writeChildren] at h
    obtain ⟨given, hgiven, hwrite⟩ := Option.bind_eq_some_iff.mp h
    obtain ⟨s₁, hchild, hrest⟩ := Option.bind_eq_some_iff.mp hwrite
    subst hgiven
    have hnames : (names ++ [some given]).reduceOption = names.reduceOption ++ [given] := by
      rw [List.reduceOption_append]
      rfl
    have hgiven : ∀ other ∈ names ++ [some given], other ≠ none := by
      intro other hmem
      rcases List.mem_append.mp hmem with hold | hlast
      · exact hnamed other hold
      · rw [List.mem_singleton.mp hlast]
        exact Option.some_ne_none given
    have hfirst := writeOutbound_wrote child root name (names ++ [some given]) hs hgiven
      (by rw [hnames, List.foldl_append, hpath, List.foldl_cons, List.foldl_nil])
      (by rw [hnames, List.foldl_append, hrelative, List.foldl_cons, List.foldl_nil]) hchild
    have hothers := writeChildren_wrote rest root name names hfirst hnamed hpath hrelative hrest
    rw [SourceList.visits, List.map_append, ← List.append_assoc]
    exact hothers

end

theorem OutboundWriters.writeRoots_wrote (roots : List (LocatedRoot × List Char))
    (hs : s.Wrote json isAbsolute places)
    (h : writeRoots json isAbsolute lineLength entryId roots s = some s') :
    s'.Wrote json isAbsolute (places ++ outboundPlaces roots) := by
  unfold writeRoots at h
  induction roots generalizing places s with
  | nil =>
    obtain rfl := Option.some.inj h
    simpa [outboundPlaces] using hs
  | cons root roots ih =>
    rw [List.foldlM_cons] at h
    obtain ⟨s₁, hroot, hrest⟩ := Option.bind_eq_some_iff.mp h
    have hfirst := writeOutbound_wrote root.1.written root.1 root.2 [] hs (by simp) rfl rfl hroot
    have hrest := ih hfirst hrest
    rw [outboundPlaces, List.flatMap_cons, ← List.append_assoc]
    exact hrest

/-! ### Without the sources -/

theorem OutboundWriters.append_offer {path : OsString} {relativePath : List Char}
    {kind : EntryKind} {length size : Nat} {modified : Option Nat}
    (h : s.append json isAbsolute lineLength entryId path relativePath kind length size modified =
      some s') :
    appendOutbound lineLength entryId relativePath kind length size modified
      (s.stats, s.manifest) = some (s'.stats, s'.manifest) := by
  unfold append at h
  split_ifs at h with hpath
  obtain ⟨stats, hcount, h⟩ := Option.bind_eq_some_iff.mp h
  obtain ⟨manifest, hmanifest, h⟩ := Option.bind_eq_some_iff.mp h
  obtain ⟨sources, hsources, h⟩ := Option.bind_eq_some_iff.mp h
  obtain ⟨nextOrdinal, hnext, rfl⟩ := Option.map_eq_some_iff.mp h
  simp only [appendOutbound, if_neg hpath, hcount, hmanifest, hnext, Option.bind_some,
    Option.map_some]

mutual

theorem OutboundWriters.writeOutbound_offer {s s' : OutboundWriters} (tree : SourceTree)
    {path : OsString} {relativePath : List Char}
    (h : writeOutbound json isAbsolute lineLength entryId tree path relativePath s = some s') :
    FlowType.writeOutbound lineLength entryId tree relativePath (s.stats, s.manifest) =
      some (s'.stats, s'.manifest) := by
  cases tree with
  | unavailable => cases h
  | symlink => cases h
  | other length modified =>
    rw [writeOutbound] at h
    exact append_offer h
  | file length modified =>
    rw [writeOutbound] at h
    exact append_offer h
  | directory modified children =>
    rw [writeOutbound] at h
    obtain ⟨s₁, hown, hbelow⟩ := Option.bind_eq_some_iff.mp h
    rw [FlowType.writeOutbound, append_offer hown, Option.bind_some]
    exact writeChildren_offer children hbelow

theorem OutboundWriters.writeChildren_offer {s s' : OutboundWriters} (children : SourceList)
    {path : OsString} {relativePath : List Char}
    (h : writeChildren json isAbsolute lineLength entryId children path relativePath s = some s') :
    FlowType.writeChildren lineLength entryId children relativePath (s.stats, s.manifest) =
      some (s'.stats, s'.manifest) := by
  cases children with
  | nil =>
    rw [writeChildren] at h
    obtain rfl := Option.some.inj h
    rfl
  | cons name child rest =>
    rw [writeChildren] at h
    obtain ⟨given, hgiven, hwrite⟩ := Option.bind_eq_some_iff.mp h
    obtain ⟨s₁, hchild, hrest⟩ := Option.bind_eq_some_iff.mp hwrite
    rw [FlowType.writeChildren, hgiven, Option.bind_some, writeOutbound_offer child hchild,
      Option.bind_some]
    exact writeChildren_offer rest hrest

end

theorem OutboundWriters.writeRoots_offer (roots : List (LocatedRoot × List Char))
    (h : writeRoots json isAbsolute lineLength entryId roots s = some s') :
    (roots.map fun root => (root.1.toSelectedRoot, root.2)).foldlM (fun s root =>
      FlowType.writeOutbound lineLength entryId root.1.written root.2 s) (s.stats, s.manifest) =
        some (s'.stats, s'.manifest) := by
  unfold writeRoots at h
  induction roots generalizing s with
  | nil =>
    obtain rfl := Option.some.inj h
    rfl
  | cons root roots ih =>
    rw [List.foldlM_cons] at h
    obtain ⟨s₁, hroot, hrest⟩ := Option.bind_eq_some_iff.mp h
    rw [List.map_cons, List.foldlM_cons, writeOutbound_offer root.1.written hroot]
    exact ih hrest

end Writing

end FlowType
