import FlowType.TargetMapping

/-! Whether a mapping that is committed can be read back. The writer checks each name, the
reader the length of the whole path. -/
namespace FlowType

section Targets
variable (lower : List Char → List Char) (existing : List (List Char) → List (List Char))

/-- The names of a directory after each of these entries got its name there. -/
def reserveAll (r : WindowsNameReservation) : List ManifestEntry → Option WindowsNameReservation
  | [] => some r
  | entry :: entries =>
    (r.reserve lower (sanitizeWindowsSegment (sourceName entry.relativePath))
      (entry.kind == .directory)).bind fun given => reserveAll given.2 entries

def inDirectory (path : List Char) (entry : ManifestEntry) : Bool :=
  sourceParent entry.relativePath == path

/-- The target of a path of a manifest: in each directory the names are given in the order of
the manifest, to that directory's entries alone, next to the names that are there. -/
inductive Target (entries : List ManifestEntry) : List Char → List (List Char) → Prop
  | root : Target entries [] []
  | entry {before after : List ManifestEntry} {e : ManifestEntry} {parent : List (List Char)}
      {r r' : WindowsNameReservation} {name : List Char}
      (hentries : entries = before ++ e :: after)
      (hparent : Target entries (sourceParent e.relativePath) parent)
      (hearlier : reserveAll lower (.new lower (existing parent))
        (before.filter (inDirectory (sourceParent e.relativePath))) = some r)
      (hname : r.reserve lower (sanitizeWindowsSegment (sourceName e.relativePath))
        (e.kind == .directory) = some (name, r')) :
      Target entries e.relativePath (parent ++ [name])

variable {lower existing}

theorem reserveAll_concat {r r₁ r₂ : WindowsNameReservation} {entries : List ManifestEntry}
    {entry : ManifestEntry} {name : List Char} (h : reserveAll lower r entries = some r₁)
    (hlast : r₁.reserve lower (sanitizeWindowsSegment (sourceName entry.relativePath))
      (entry.kind == .directory) = some (name, r₂)) :
    reserveAll lower r (entries ++ [entry]) = some r₂ := by
  induction entries generalizing r with
  | nil =>
    obtain rfl : r = r₁ := Option.some.inj h
    simp [reserveAll, hlast]
  | cons first rest ih =>
    obtain ⟨given, hgiven, hrest⟩ := Option.bind_eq_some_iff.1 h
    rw [List.cons_append, reserveAll, hgiven]
    exact ih hrest

theorem Target.concat {entries : List ManifestEntry} {path : List Char}
    {target : List (List Char)} (h : Target lower existing entries path target)
    (entry : ManifestEntry) : Target lower existing (entries ++ [entry]) path target := by
  induction h with
  | root => exact .root
  | @entry before after e _ _ _ _ hentries _ hearlier hname ih =>
    have hmore : entries ++ [entry] = before ++ e :: (after ++ [entry]) := by simp [hentries]
    exact .entry hmore ih hearlier hname

theorem Target.eq_root_or_entry {entries : List ManifestEntry} {path : List Char}
    {target : List (List Char)} (h : Target lower existing entries path target) :
    (path = [] ∧ target = []) ∨ ∃ before e after parent r r' name,
      entries = before ++ e :: after ∧ path = e.relativePath ∧ target = parent ++ [name] ∧
      Target lower existing entries (sourceParent e.relativePath) parent ∧
      reserveAll lower (.new lower (existing parent))
        (before.filter (inDirectory (sourceParent e.relativePath))) = some r ∧
      r.reserve lower (sanitizeWindowsSegment (sourceName e.relativePath))
        (e.kind == .directory) = some (name, r') := by
  cases h with
  | root => exact .inl ⟨rfl, rfl⟩
  | entry hentries hparent hearlier hname =>
    exact .inr ⟨_, _, _, _, _, _, _, hentries, rfl, rfl, hparent, hearlier, hname⟩

/-- In a manifest without two equal paths a path has one target. -/
theorem Target.unique {entries : List ManifestEntry}
    (hpaths : (entries.map ManifestEntry.relativePath).Nodup)
    (hnonempty : ∀ entry ∈ entries, entry.relativePath ≠ []) {path : List Char}
    {target target' : List (List Char)} (h : Target lower existing entries path target)
    (h' : Target lower existing entries path target') : target = target' := by
  induction h generalizing target' with
  | root =>
    rcases h'.eq_root_or_entry with ⟨-, rfl⟩ | ⟨before, e, after, -, -, -, -, hentries, hpath, -⟩
    · rfl
    · exact absurd hpath.symm (hnonempty e (by simp [hentries]))
  | @entry before after e parent r r' name hentries _ hearlier hname ih =>
    rcases h'.eq_root_or_entry with ⟨hpath, -⟩ |
      ⟨before', e', after', parent', r₁, r₁', name', hentries', hpath, rfl, hparent', hearlier',
        hname'⟩
    · exact absurd hpath (hnonempty e (by simp [hentries]))
    · have hmem : e ∈ entries := by simp [hentries]
      have hmem' : e' ∈ entries := by simp [hentries']
      obtain rfl : e = e' := List.inj_on_of_nodup_map hpaths hmem hmem' hpath
      have hnodup : (before' ++ e :: after').Nodup := hentries' ▸ hpaths.of_map
      obtain ⟨hbefore, hafter⟩ : e ∉ before' ∧ e ∉ after' := by
        have hcons := List.nodup_append.1 hnodup
        refine ⟨fun hin => hcons.2.2 e hin e List.mem_cons_self rfl, ?_⟩
        exact (List.nodup_cons.1 hcons.2.1).1
      obtain ⟨rfl, -, -⟩ :=
        (List.append_cons_inj_of_notMem hbefore hafter).1 (hentries'.symm.trans hentries)
      obtain rfl := ih hparent'
      rw [hearlier'] at hearlier
      obtain rfl := Option.some.inj hearlier
      rw [hname'] at hname
      cases hname
      rfl

/-- The number of segments of a path. -/
def depth (path : List Char) : Nat := if path = [] then 0 else (path.splitOn '/').length

theorem depth_sourceParent {path : List Char} (hne : path ≠ []) (hhead : path.head? ≠ some '/') :
    depth path = depth (sourceParent path) + 1 := by
  rw [depth, if_neg hne]
  unfold sourceParent
  split
  · rename_i parent name h
    obtain ⟨hpath, hname⟩ := eq_of_rsplitOnce h
    have hparent : parent ≠ [] := by
      rintro rfl
      exact hhead (by rw [hpath]; rfl)
    rw [depth, if_neg hparent, hpath, List.splitOn_append_cons_self,
      List.splitOn_eq_singleton hname]
    simp
  · rename_i h
    rw [List.splitOn_eq_singleton (rsplitOnce_eq_none.1 h)]
    rfl

theorem depth_le {lineLength : ManifestEntry → Nat} {entry : ManifestEntry}
    (h : entry.validate lineLength = true) : entry.relativePath ≠ [] ∧
      entry.relativePath.head? ≠ some '/' ∧ depth entry.relativePath ≤ 128 := by
  have hvalid : validateRelativePath entry.relativePath = true := by
    simp only [ManifestEntry.validate, Bool.and_eq_true] at h
    tauto
  simp only [validateRelativePath, Bool.and_eq_true, decide_eq_true_eq] at hvalid
  have hne : entry.relativePath ≠ [] := by tauto
  have hhead : entry.relativePath.head? ≠ some '/' := by tauto
  refine ⟨hne, hhead, ?_⟩
  rw [depth, if_neg hne]
  exact hvalid.2

variable (lower existing) in
/-- The walk gives the targets that the definition of `Target` says. -/
structure Preparation.Named (placed : List Placement) (p : Preparation) : Prop where
  nonempty : ∀ q ∈ placed, q.entry.relativePath ≠ []
  target : ∀ q ∈ placed,
    Target lower existing (placed.map Placement.entry) q.entry.relativePath q.target
  depth : ∀ q ∈ placed, q.target.length = depth q.entry.relativePath
  reserved : ∀ path t, Mapped placed path t →
    reserveAll lower (.new lower (existing t))
      ((placed.map Placement.entry).filter (inDirectory path)) =
        some (p.reservation lower existing t)
  keys : ∀ t, p.reservations.lookup t ≠ none → ∃ path, Mapped placed path t

namespace Preparation.Named
variable {placed : List Placement} {p p' : Preparation}

theorem start : Named lower existing [] {} := by
  refine ⟨by simp, by simp, by simp, ?_, by simp⟩
  rintro path t (⟨rfl, rfl⟩ | ⟨q, hq, -⟩)
  · rfl
  · cases hq

theorem target_of_mapped (h : Named lower existing placed p)
    {path : List Char} {t : List (List Char)} (ht : Mapped placed path t) :
    Target lower existing (placed.map Placement.entry) path t := by
  rcases ht with ⟨rfl, rfl⟩ | ⟨q, hq, -, rfl, rfl⟩
  · exact .root
  · exact h.target q hq

theorem length_of_mapped (h : Named lower existing placed p)
    {path : List Char} {t : List (List Char)} (ht : Mapped placed path t) :
    t.length = FlowType.depth path := by
  rcases ht with ⟨rfl, rfl⟩ | ⟨q, hq, -, rfl, rfl⟩
  · rfl
  · exact h.depth q hq

theorem target_unique (hinv : Inv lower existing placed p)
    (h : Named lower existing placed p) {path : List Char}
    {t₁ t₂ : List (List Char)} (h₁ : Mapped placed path t₁) (h₂ : Mapped placed path t₂) :
    t₁ = t₂ := by
  rcases h₁ with ⟨hroot, rfl⟩ | ⟨q₁, hq₁, -, hpath₁, rfl⟩
  · rcases h₂ with ⟨-, rfl⟩ | ⟨q₂, hq₂, -, hpath₂, rfl⟩
    · rfl
    · exact absurd (hpath₂.trans hroot) (h.nonempty q₂ hq₂)
  · rcases h₂ with ⟨hroot, rfl⟩ | ⟨q₂, hq₂, -, hpath₂, rfl⟩
    · exact absurd (hpath₁.trans hroot) (h.nonempty q₁ hq₁)
    · have hsame : q₁ = q₂ := by
        apply List.inj_on_of_nodup_map hinv.fresh hq₁ hq₂
        rw [hpath₁, hpath₂]
      rw [hsame]

theorem path_unique (hinv : Inv lower existing placed p) {path₁ path₂ : List Char}
    {t : List (List Char)} (h₁ : Mapped placed path₁ t) (h₂ : Mapped placed path₂ t) :
    path₁ = path₂ := by
  have hne : ∀ q ∈ placed, q.target ≠ [] := by
    intro q hq
    obtain ⟨parent, name, htarget, -⟩ := hinv.child q hq
    simp [htarget]
  rcases h₁ with ⟨rfl, rfl⟩ | ⟨q₁, hq₁, -, rfl, rfl⟩
  · rcases h₂ with ⟨rfl, -⟩ | ⟨q₂, hq₂, -, -, ht⟩
    · rfl
    · exact absurd ht (hne q₂ hq₂)
  · rcases h₂ with ⟨-, ht⟩ | ⟨q₂, hq₂, -, rfl, ht⟩
    · exact absurd ht (hne q₁ hq₁)
    · have hsame : q₁ = q₂ := by
        apply List.inj_on_of_nodup_map hinv.distinct hq₁ hq₂
        rw [ht]
      rw [hsame]

/-- No visited entry lies in a directory that is not visited yet. -/
theorem no_siblings (hinv : Inv lower existing placed p) {path : List Char} (hne : path ≠ [])
    (hfresh : ∀ q ∈ placed, q.entry.relativePath ≠ path) :
    (placed.map Placement.entry).filter (inDirectory path) = [] := by
  rw [List.filter_eq_nil_iff]
  intro entry hentry hin
  obtain ⟨q, hq, rfl⟩ := List.mem_map.1 hentry
  obtain ⟨parent, name, -, hparent, -⟩ := hinv.child q hq
  rw [beq_iff_eq.1 hin] at hparent
  rcases hparent with ⟨hroot, -⟩ | ⟨d, hd, -, hpath, -⟩
  · exact hne hroot
  · exact hfresh d hd hpath

theorem visit (hinv : Inv lower existing placed p)
    (h : Named lower existing placed p) {entry : ManifestEntry}
    {parent : List (List Char)} {name : List Char} {r : WindowsNameReservation}
    (hpath : entry.relativePath ≠ []) (hhead : entry.relativePath.head? ≠ some '/')
    (hvisit : Visit lower existing p entry parent name r p') :
    Named lower existing
      (placed ++ [⟨entry, parent ++ [name]⟩]) p' := by
  obtain ⟨hnew, hlookup, hreserve, rfl⟩ := hvisit
  have hparent : Mapped placed (sourceParent entry.relativePath) parent :=
    hinv.mapped _ _ hlookup
  have hfree := (WindowsNameReservation.reserve_spec hreserve).2.2.1
  have hdistinct := hinv.fresh_target hparent hfree
  have hfresh : ∀ q ∈ placed, q.entry.relativePath ≠ entry.relativePath := by
    intro q hq heq
    rw [hinv.sources] at hnew
    refine hnew (List.mem_reverse.2 (List.mem_map.2 ⟨q, hq, ?_⟩))
    rw [heq]
  have hearlier := h.reserved _ _ hparent
  constructor
  · intro q hq
    rcases List.mem_append.1 hq with hold | hlast
    · exact h.nonempty q hold
    · rw [List.mem_singleton.1 hlast]
      exact hpath
  · intro q hq
    rw [List.map_append, List.map_singleton]
    rcases List.mem_append.1 hq with hold | hlast
    · exact (h.target q hold).concat entry
    · rw [List.mem_singleton.1 hlast]
      exact .entry rfl ((h.target_of_mapped hparent).concat entry) hearlier hreserve
  · intro q hq
    rcases List.mem_append.1 hq with hold | hlast
    · exact h.depth q hold
    · rw [List.mem_singleton.1 hlast]
      have hlength := h.length_of_mapped hparent
      rw [depth_sourceParent hpath hhead, List.length_append, hlength]
      rfl
  · intro path t ht
    rw [Preparation.reservation_cons, List.map_append, List.map_singleton, List.filter_append]
    have hold : Mapped placed path t → reserveAll lower (.new lower (existing t))
        ((placed.map Placement.entry).filter (inDirectory path) ++
          [entry].filter (inDirectory path)) =
        some (if t = parent then r else p.reservation lower existing t) := by
      intro hmapped
      by_cases hin : sourceParent entry.relativePath = path
      · have hsame : t = parent := h.target_unique hinv hmapped (hin ▸ hparent)
        rw [if_pos hsame, List.filter_singleton, inDirectory, beq_iff_eq.2 hin, ← hin, hsame]
        exact reserveAll_concat hearlier hreserve
      · have hother : t ≠ parent := by
          rintro rfl
          exact hin (path_unique hinv hparent hmapped)
        rw [if_neg hother, List.filter_singleton, inDirectory, beq_false_of_ne hin,
          ← h.reserved _ _ hmapped]
        simp
    rcases ht with hroot | ⟨q, hq, hkind, hqpath, hqtarget⟩
    · exact hold (.inl hroot)
    · rcases List.mem_append.1 hq with holdq | hlast
      · exact hold (.inr ⟨q, holdq, hkind, hqpath, hqtarget⟩)
      · -- the directory is new: nothing is in it yet
        obtain rfl := List.mem_singleton.1 hlast
        obtain rfl : entry.relativePath = path := hqpath
        obtain rfl : parent ++ [name] = t := hqtarget
        have hself : inDirectory entry.relativePath entry = false := by
          refine beq_false_of_ne fun heq => ?_
          have hdepth := depth_sourceParent hpath hhead
          rw [heq] at hdepth
          omega
        have hunmapped : p.reservations.lookup (parent ++ [name]) = none := by
          by_contra hsome
          obtain ⟨path', hmapped⟩ := h.keys _ hsome
          rcases hmapped with ⟨-, hnil⟩ | ⟨d, hd, -, -, hdt⟩
          · simp at hnil
          · exact hdistinct d hd (by rw [hdt])
        rw [no_siblings hinv hpath hfresh, List.filter_singleton, hself,
          if_neg (by simp), Preparation.reservation, hunmapped]
        rfl
  · intro t ht
    by_cases heq : t = parent
    · exact ⟨_, (heq ▸ hparent).concat _⟩
    · have hkey : p.reservations.lookup t ≠ none := by
        simpa [List.lookup_cons, beq_false_of_ne heq] using ht
      obtain ⟨path, hmapped⟩ := h.keys t hkey
      exact ⟨path, hmapped.concat _⟩

end Preparation.Named

theorem Preparation.Named.of_walk {lineLength : ManifestEntry → Nat} {p : Preparation}
    {entries : List ManifestEntry}
    (h : forEachManifestEntry lineLength (Preparation.visit lower existing) 0 entries {} =
      (p, true)) :
    ∃ placed, placed.map Placement.entry = entries ∧ Preparation.Inv lower existing placed p ∧
      Preparation.Named lower existing placed p ∧
      ∀ i (q : Placement), placed[i]? = some q → q.entry.ordinal = i ∧
        q.entry.validate lineLength = true := by
  refine Preparation.Inv.of_walk lineLength start ?_ h
  intro placed p entry parent name r p' hinv hnamed hvalid hvisit
  obtain ⟨hne, hhead, -⟩ := depth_le hvalid
  exact hnamed.visit hinv hne hhead hvisit

/-- Once a mapping is committed, an entry's target can be read back, at any time later, exactly
if the path of the target is no longer than a path of the wire may be. -/
theorem target_resolves_iff {lineLength : ManifestEntry → Nat} {links : TargetPath → Bool}
    {b : StoredBatch} {entries : List ManifestEntry} {root : List Char} {now : Nat}
    (hmanifest : b.manifest = some entries) (hroot : b.targetRoot = none)
    (hcommit : (b.prepareWindowsTargets lineLength lower existing links root now).1.targetRoot ≠
      none) (events : List StoreEvent) {i : Nat} {entry : ManifestEntry}
    (hentry : entries[i]? = some entry) :
    (((b.prepareWindowsTargets lineLength lower existing links root now).1.run lineLength lower
      events).targetPath (fun _ => false) i).isSome = true ↔
      ∀ target, Target lower existing entries entry.relativePath target →
        utf8Length (wirePath target) ≤ MAX_RELATIVE_PATH_BYTES := by
  obtain ⟨p, hwalk, hb⟩ := StoredBatch.mapping_of_commit hmanifest hroot hcommit
  obtain ⟨placed, rfl, hinv, hnamed, hordinal⟩ := Preparation.Named.of_walk hwalk
  have hrun := (StoredBatch.mapping_run lineLength lower hcommit events).trans hb
  have hpath := StoredBatch.targetPath_eq_some hrun hinv (fun i q hq => (hordinal i q hq).1)
    (fun _ => false) i
  obtain ⟨q, hq, rfl⟩ : ∃ q, placed[i]? = some q ∧ q.entry = entry := by
    simpa using hentry
  have hmem : q ∈ placed := List.mem_of_getElem? hq
  have hne : q.target ≠ [] := by
    obtain ⟨parent, name, htarget, -⟩ := hinv.child q hmem
    simp [htarget]
  have hdepth := (depth_le (hordinal i q hq).2).2.2
  have hread : validateRelativePath (wirePath q.target) = true ↔
      utf8Length (wirePath q.target) ≤ MAX_RELATIVE_PATH_BYTES := by
    rw [validateRelativePath_wirePath hne (fun n hn => (hinv.names q hmem n hn).1)
      (fun n hn => (hinv.names q hmem n hn).2) (by rw [hnamed.depth q hmem]; exact hdepth)]
    simp
  have hpaths : ((placed.map Placement.entry).map ManifestEntry.relativePath).Nodup := by
    have hfresh := hinv.fresh
    rw [List.map_map]
    exact List.Nodup.of_map lower (by simpa [Function.comp_def] using hfresh)
  have hnonempty : ∀ entry ∈ placed.map Placement.entry, entry.relativePath ≠ [] := by
    intro entry hentry
    obtain ⟨q, hq, rfl⟩ := List.mem_map.1 hentry
    exact hnamed.nonempty q hq
  constructor
  · intro hsome target htarget
    obtain ⟨t, ht⟩ := Option.isSome_iff_exists.1 hsome
    obtain ⟨q', hq', -, hvalid, -⟩ := (hpath t).1 ht
    obtain rfl : q = q' := Option.some.inj (hq.symm.trans hq')
    have hsame : target = q.target := htarget.unique hpaths hnonempty (hnamed.target q hmem)
    rw [hsame]
    exact hread.1 hvalid
  · intro hshort
    have hvalid := hread.2 (hshort q.target (hnamed.target q hmem))
    rw [(hpath ⟨root, q.target⟩).2 ⟨q, hq, rfl, hvalid, fun _ _ => rfl⟩]
    rfl

end Targets

/-- The length of an entry as a line of JSON, for an entry without optional fields and without
characters that are escaped. -/
def jsonLength (entry : ManifestEntry) : Nat :=
  63 + (Nat.toDigits 10 entry.ordinal).length + entry.entryId.utf8ByteSize +
    utf8Length entry.relativePath + (if entry.kind = .directory then 9 else 4) +
    (Nat.toDigits 10 entry.size).length

theorem target_resolves_nested :
    (((nestedBatch.prepareWindowsTargets jsonLength (List.map Char.toLower) (fun _ => [])
      (fun _ => false) ['C'] 1).1.run jsonLength (List.map Char.toLower) []).targetPath
        (fun _ => false) 1).isSome = true ∧
    ∀ target, Target (List.map Char.toLower) (fun _ => []) nestedEntries ['a', '/', 'b'] target →
      utf8Length (wirePath target) ≤ MAX_RELATIVE_PATH_BYTES := by
  have hcommit : (nestedBatch.prepareWindowsTargets jsonLength (List.map Char.toLower)
      (fun _ => []) (fun _ => false) ['C'] 1).1.targetRoot ≠ none := by
    decide +kernel
  have hresolves : (((nestedBatch.prepareWindowsTargets jsonLength (List.map Char.toLower)
      (fun _ => []) (fun _ => false) ['C'] 1).1.run jsonLength (List.map Char.toLower)
        []).targetPath (fun _ => false) 1).isSome = true := by
    decide +kernel
  exact ⟨hresolves, (target_resolves_iff (i := 1) rfl rfl hcommit [] rfl).1 hresolves⟩

/-- Names of the longest kind below the directory `a`, and a file that makes the whole path as
long as a path of the wire may be. -/
def longEntries : List ManifestEntry :=
  let folder (depth : Nat) : List (List Char) :=
    ['a'] :: List.replicate depth (List.replicate 240 '中')
  let directory (depth : Nat) : ManifestEntry :=
    { ordinal := depth
      entryId := "d" ++ Nat.repr depth
      relativePath := wirePath (folder depth)
      kind := .directory }
  [directory 0, directory 1, directory 2, directory 3, directory 4, directory 5,
    { ordinal := 6
      entryId := "f"
      relativePath := wirePath (folder 5 ++ [List.replicate 163 '中'])
      kind := .file }]

def longBatch : StoredBatch :=
  { batchId := "batch"
    phoneId := "phone"
    direction := .phoneToComputer
    state := .queued
    createdAt := 0
    updatedAt := 0
    fileCount := 1
    directoryCount := 6
    totalBytes := 0 }

/-- The receive root has an `a` already, so the new one gets a number: the mapping is committed,
and the file has no target for good. -/
theorem target_lost :
    ∃ b, longBatch.writeManifest jsonLength longEntries = some b ∧
      (b.prepareWindowsTargets jsonLength (List.map Char.toLower)
        (fun directory => if directory = [] then [['a']] else []) (fun _ => false) ['C'] 1).1.targetRoot
          = some ['C'] ∧
      6 < longEntries.length ∧
      (b.prepareWindowsTargets jsonLength (List.map Char.toLower)
        (fun directory => if directory = [] then [['a']] else []) (fun _ => false) ['C'] 1).1.targetPath
          (fun _ => false) 6 = none := by
  have hrun : (longBatch.writeManifest jsonLength longEntries).any (fun b =>
      let prepared := (b.prepareWindowsTargets jsonLength (List.map Char.toLower)
        (fun directory => if directory = [] then [['a']] else []) (fun _ => false) ['C'] 1).1
      decide (prepared.targetRoot = some ['C'] ∧ prepared.targetPath (fun _ => false) 6 = none)) =
        true := by
    decide +kernel
  obtain ⟨b, hb, hlost⟩ := (Option.any_eq_true _ _).1 hrun
  rw [decide_eq_true_eq] at hlost
  exact ⟨b, hb, hlost.1, by decide, hlost.2⟩

end FlowType
