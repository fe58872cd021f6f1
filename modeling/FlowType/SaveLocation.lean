import FlowType.PlacedEntries
import FlowType.Retention

/-! Another save location for a batch that is coming in: what `setTargetTree` takes back, and what
`prepare` then places in the new tree. -/
namespace FlowType

open AndroidTargetStore

/-! ### Batches of the store -/

section Sound
variable {b b' : PhoneBatch} {s s' : PhoneShelf}

/-- Whether a batch is sound is a matter of its manifest. -/
theorem PhoneBatch.Sound.of_manifests (h : b.Sound)
    (hsame : b'.entries.map (·.manifest) = b.entries.map (·.manifest)) : b'.Sound := by
  have hlength : b'.entries.length = b.entries.length := by
    simpa using congrArg List.length hsame
  constructor
  · have hordinals := congrArg (List.map ManifestEntry.ordinal) hsame
    rw [List.map_map, List.map_map] at hordinals
    rw [hlength, ← h.ordinals]
    exact hordinals
  · intro entry hentry
    have hmem : entry.manifest ∈ b.entries.map (·.manifest) := by
      rw [← hsame]
      exact List.mem_map_of_mem hentry
    obtain ⟨other, hother, heq⟩ := List.mem_map.1 hmem
    rw [← heq]
    exact h.manifests other hother

theorem map_manifest_modify {change : StoredTransferEntry → StoredTransferEntry}
    (hchange : ∀ entry, (change entry).manifest = entry.manifest)
    (entries : List StoredTransferEntry) (ordinal : Nat) :
    (entries.modify ordinal change).map (·.manifest) = entries.map (·.manifest) := by
  induction entries generalizing ordinal with
  | nil => simp
  | cons entry entries ih =>
    cases ordinal with
    | zero => simp [hchange]
    | succ ordinal => simp [ih]

theorem PhoneBatch.Sound.updateEntry (h : b.Sound) {ordinal : Nat}
    {change : StoredTransferEntry → StoredTransferEntry}
    (hupdate : b.updateEntry ordinal change = some b')
    (hchange : ∀ entry, (change entry).manifest = entry.manifest) : b'.Sound := by
  rw [PhoneBatch.updateEntry] at hupdate
  split_ifs at hupdate
  obtain rfl := Option.some.inj hupdate
  exact h.of_manifests (map_manifest_modify hchange _ _)

theorem PhoneBatch.Sound.setTargetTree (h : b.Sound) {treeUri : String} {now : Nat}
    (hset : b.setTargetTree treeUri now = some b') : b'.Sound := by
  rw [PhoneBatch.setTargetTree] at hset
  split_ifs at hset
  obtain rfl := Option.some.inj hset
  apply h.of_manifests
  simp only
  split_ifs
  · rw [List.map_map]
    apply List.map_congr_left
    intro entry hentry
    simp only [Function.comp_apply]
    split_ifs <;> rfl
  · rfl

theorem PhoneBatch.Sound.appendManifestPage (h : b.Sound) {page : List StoredTransferEntry}
    (happend : b.appendManifestPage page = some b') : b'.Sound := by
  rw [PhoneBatch.appendManifestPage] at happend
  split_ifs at happend with hbad
  obtain rfl := Option.some.inj happend
  simp only [not_or, not_not, Bool.not_eq_false] at hbad
  obtain ⟨-, -, hvalid, hordinals, -⟩ := hbad
  constructor
  · rw [List.map_append, h.ordinals, hordinals, List.length_append, List.range_eq_range',
      List.range_eq_range']
    have hjoin := @List.range'_append_1 0 b.entries.length page.length
    rw [Nat.zero_add] at hjoin
    exact hjoin
  · intro entry hentry
    rcases List.mem_append.1 hentry with hold | hnew
    · exact h.manifests entry hold
    · have hentry := List.all_eq_true.1 hvalid entry hnew
      simp only [StoredTransferEntry.validate, Bool.and_eq_true] at hentry
      exact hentry.1.1.1.1.1.1.1

/-- The batch on the shelf is sound. -/
def PhoneShelf.Sound (s : PhoneShelf) : Prop := ∀ b, s.batch = some b → b.Sound

theorem PhoneShelf.Sound.update (h : s.Sound) {call : PhoneBatch → Option PhoneBatch}
    (hcall : ∀ b b', b.Sound → call b = some b' → b'.Sound) (hupdate : s.update call = some s') :
    s'.Sound := by
  obtain ⟨b', hb', rfl⟩ := Option.map_eq_some_iff.1 hupdate
  obtain ⟨b, hb, hcalled⟩ := Option.bind_eq_some_iff.1 hb'
  intro other hother
  obtain rfl := Option.some.inj hother
  exact hcall b b' (h b hb) hcalled

theorem PhoneShelf.Sound.step (h : s.Sound) {now : Nat} {e : TransferStoreEvent}
    (hstep : s.step now e = some s') : s'.Sound := by
  cases e with
  | createBatch batch =>
    rw [PhoneShelf.step] at hstep
    split_ifs at hstep
    obtain ⟨b, hb, rfl⟩ := Option.map_eq_some_iff.1 hstep
    rw [PhoneBatch.create] at hb
    split_ifs at hb
    obtain rfl := Option.some.inj hb
    intro other hother
    obtain rfl := Option.some.inj hother
    exact ⟨rfl, by simp⟩
  | deleteBatch =>
    obtain rfl := Option.some.inj hstep
    intro other hother
    cases hother
  | appendManifestPage page =>
    exact h.update (fun _ _ hb hcall => hb.appendManifestPage hcall) hstep
  | updateBatchState next =>
    apply h.update _ hstep
    intro b b' hb hcall
    rw [PhoneBatch.updateBatchState] at hcall
    split_ifs at hcall
    obtain rfl := Option.some.inj hcall
    exact hb.of_manifests rfl
  | setTargetTree targetTreeUri => exact h.update (fun _ _ hb hcall => hb.setTargetTree hcall) hstep
  | reconcileResult state =>
    apply h.update _ hstep
    intro b b' hb hcall
    rw [PhoneBatch.reconcileResult] at hcall
    split_ifs at hcall
    obtain rfl := Option.some.inj hcall
    exact hb.of_manifests rfl
  | cancelIncompleteEntries =>
    apply h.update _ hstep
    intro b b' hb hcall
    obtain rfl := Option.some.inj hcall
    apply hb.of_manifests
    rw [PhoneBatch.cancelIncompleteEntries, List.map_map]
    apply List.map_congr_left
    intro entry hentry
    simp only [Function.comp_apply]
    split_ifs <;> rfl
  | updateEntryProgress ordinal state committedOffset targetUri targetName errorCode =>
    apply h.update _ hstep
    intro b b' hb hcall
    rw [PhoneBatch.updateEntryProgress] at hcall
    obtain ⟨current, -, hcall⟩ := Option.bind_eq_some_iff.1 hcall
    split_ifs at hcall
    exact hb.updateEntry hcall fun _ => rfl
  | setEntryTarget ordinal targetUri targetName targetParentUri =>
    apply h.update _ hstep
    intro b b' hb hcall
    rw [PhoneBatch.setEntryTarget] at hcall
    split_ifs at hcall
    exact hb.updateEntry hcall fun _ => rfl
  | journalCommit ordinal hash finalUri =>
    apply h.update _ hstep
    intro b b' hb hcall
    rw [PhoneBatch.journalCommit] at hcall
    split_ifs at hcall
    exact hb.updateEntry hcall fun _ => rfl
  | receive ordinal bytes =>
    rw [PhoneShelf.step] at hstep
    split_ifs at hstep
    obtain rfl := Option.some.inj hstep
    exact h
  | answer request =>
    rw [PhoneShelf.step] at hstep
    split_ifs at hstep
    obtain rfl := Option.some.inj hstep
    exact h
  | resume =>
    rw [PhoneShelf.step] at hstep
    split_ifs at hstep
    · obtain rfl := Option.some.inj hstep
      intro other hother
      cases hother
    · obtain rfl := Option.some.inj hstep
      exact h

theorem PhoneShelf.sound_of_run {es : List (Nat × TransferStoreEvent)}
    (hrun : Machine.run (fun s e => PhoneShelf.step s e.1 e.2) {} es = some s) : s.Sound := by
  apply Machine.run_invariant PhoneShelf.Sound es _ _ hrun
  · intro b hb
    cases hb
  · intro s e t hs hstep
    exact hs.step hstep

end Sound

/-! ### Another tree -/

section Change
variable {σ : Type} (lower : List Char → List Char) (contract : DocumentsContract σ)

/-- The providers create what they are asked for. -/
def Creates : Prop :=
  ∀ (documents : σ) (parent mimeType : String) (name : List Char), ∃ uri documents',
    contract.createDocument documents parent mimeType name = some (uri, documents') ∧
      Kotlin.isNotBlank uri.toList = true ∧ validUri uri = true

inductive UnderTree (root : String) : String → Prop
  | root : UnderTree root root
  | child {documents documents' : σ} {parent mimeType uri : String} {name : List Char} :
      UnderTree root parent →
      contract.createDocument documents parent mimeType name = some (uri, documents') →
      UnderTree root uri

/-- Every directory that an entry needs stands before it. -/
def DirectoriesFirst (entries : List StoredTransferEntry) : Prop :=
  ∀ (i : Nat) (entry : StoredTransferEntry), entries[i]? = some entry →
    entry.isCompletedFile = false → DirectoryBefore entries i entry.manifest.relativePath

/-- What a change of the tree does: `b` before `setTargetTree`, `b'` after it, and `c` when the
manifest has come. -/
structure SaveLocation (treeUri : String) (documents : σ) (b b' c : PhoneBatch) : Prop where
  row : b'.batch.targetTreeUri = some treeUri
  changed : ∀ previous, b.batch.targetTreeUri = some previous → previous ≠ treeUri →
    b'.entries = b.entries.map fun entry =>
      if entry.isCompletedFile then entry
      else { manifest := entry.manifest, sourceUri := entry.sourceUri }
  same : b.batch.targetTreeUri = some treeUri → b'.entries = b.entries
  lookups : ∀ (i : Nat) (entry : StoredTransferEntry) (given : List (Option TargetPlace))
    (places : TargetPlaces σ), c.entries[i]? = some entry →
    placeEntries lower contract (start contract treeUri documents) (c.entries.take i) =
      some (given, places) →
    DirectoryBefore c.entries i entry.manifest.relativePath →
    (places.directories (parentPath entry.manifest.relativePath)).isSome = true
  prepared : DirectoriesFirst c.entries → ∃ c' documents' names,
    prepare lower contract c treeUri documents = some (c', documents') ∧
      PreparedTargets lower contract (contract.treeDocument treeUri) names c.entries c'.entries ∧
      ∀ previous, b.batch.targetTreeUri = some previous → previous ≠ treeUri →
        (∀ entry ∈ c.entries, entry.isCompletedFile = false → entry.targetUri = none) ∧
        ∀ entry ∈ c'.entries, entry.isCompletedFile = false → ∃ uri, entry.targetUri = some uri ∧
          UnderTree contract (contract.treeDocument treeUri) uri

end Change

section Changed
variable {σ : Type} {lower : List Char → List Char} {contract : DocumentsContract σ}
variable {treeUri : String} {documents : σ} {b b' c : PhoneBatch}

/-- New documents for all that is left are all in the new tree. -/
theorem PreparedTargets.underTree {root : String} {names : Nat → List Char}
    {entries entries' : List StoredTransferEntry}
    (h : PreparedTargets lower contract root names entries entries')
    (hnew : ∀ entry ∈ entries, entry.isCompletedFile = false → entry.targetUri = none) {i : Nat}
    {entry' : StoredTransferEntry} (hentry' : entries'[i]? = some entry')
    (hfile' : entry'.isCompletedFile = false) :
    ∃ uri, entry'.targetUri = some uri ∧ UnderTree contract root uri := by
  induction i using Nat.strong_induction_on generalizing entry' with
  | _ i ih =>
    have hi := (List.getElem?_eq_some_iff.1 hentry').1
    obtain ⟨entry, hentry⟩ : ∃ entry, entries[i]? = some entry :=
      ⟨_, List.getElem?_eq_getElem (h.length ▸ hi)⟩
    have hfile : entry.isCompletedFile = false := by
      by_contra hdone
      rw [Bool.not_eq_false] at hdone
      have hstays := h.stays i entry hentry (.inl hdone)
      rw [hentry'] at hstays
      obtain rfl := Option.some.inj hstays
      rw [hdone] at hfile'
      cases hfile'
    have huri := hnew entry (List.mem_of_getElem? hentry) hfile
    obtain ⟨place, -, ⟨documents, documents', hcreate⟩, hparent, hgiven⟩ :=
      h.given i entry hentry hfile huri
    rw [hentry'] at hgiven
    obtain rfl := Option.some.inj hgiven
    have htarget : (entry.given (some place)).targetUri = some place.uri := by
      rw [StoredTransferEntry.given]
      cases entry.manifest.kind <;> rfl
    refine ⟨place.uri, htarget, .child ?_ hcreate⟩
    rcases @documentOf_cases root (parentPath entry.manifest.relativePath) (entries'.take i) with
      hroot | ⟨directory, hmem, hdirectory, heq⟩
    · rw [hparent] at hroot
      split_ifs at hroot
      obtain rfl := Option.some.inj hroot
      exact .root
    · obtain ⟨j, hj⟩ := List.mem_iff_getElem?.1 hmem
      rw [List.getElem?_take] at hj
      split_ifs at hj with hlt
      have hopen : directory.isCompletedFile = false := by
        by_contra hdone
        rw [Bool.not_eq_false] at hdone
        rw [isDirectory_of_completed hdone] at hdirectory
        cases hdirectory
      obtain ⟨uri, huri', hunder⟩ := ih j hlt hj hopen
      rw [hparent, huri'] at heq
      obtain rfl := Option.some.inj heq
      exact hunder

/-- The directory of an entry that has been walked over is known. -/
theorem directory_known {entries : List StoredTransferEntry} {i : Nat}
    {entry : StoredTransferEntry} {given : List (Option TargetPlace)} {places : TargetPlaces σ}
    (hplaced : placeEntries lower contract (start contract treeUri documents) (entries.take i) =
      some (given, places))
    (hbefore : DirectoryBefore entries i entry.manifest.relativePath) :
    (places.directories (parentPath entry.manifest.relativePath)).isSome = true := by
  have hwalk := walked_of_placeEntries .start hplaced
  rw [List.nil_append] at hwalk
  have hlength := length_placeEntries hplaced
  rw [hwalk.directories_eq]
  apply documentOf_isSome
  · intro directory hmem hdirectory
    exact hwalk.directory_placed hmem hdirectory
  · rcases hbefore with hroot | ⟨j, hj, directory, hget, hdirectory, hpath⟩
    · exact .inl hroot
    · right
      have htake : (entries.take i)[j]? = some directory := by
        rw [List.getElem?_take_of_lt hj, hget]
      have hlt := (List.getElem?_eq_some_iff.1 htake).1
      have hplace := List.getElem?_eq_getElem (hlength ▸ hlt)
      have hzip : ((entries.take i).zip given)[j]? = some (directory, given[j]) :=
        List.getElem?_zip_eq_some.2 ⟨htake, hplace⟩
      refine ⟨directory.given given[j], ?_, ?_, ?_⟩
      · exact List.mem_map.2 ⟨_, List.mem_of_getElem? hzip, rfl⟩
      · rw [given_isDirectory, hdirectory]
      · rw [given_manifest, hpath]

/-- The store takes the new documents if it takes their names. -/
theorem takes_of_names (hcreates : Creates contract) {entries : List StoredTransferEntry}
    {given : List (Option TargetPlace)} {last : TargetPlaces σ}
    (hplaced : placeEntries lower contract (start contract treeUri documents) entries =
      some (given, last)) :
    ((entries.zip given).all fun x => x.1.takes x.2) = true ↔
      ∀ (i : Nat) (entry : StoredTransferEntry) (place : TargetPlace), entries[i]? = some entry →
        entry.isDirectory = false → given[i]? = some (some place) →
        validTargetName place.name = true := by
  have hwalk := walked_of_placeEntries .start hplaced
  rw [List.nil_append] at hwalk
  rw [List.all_eq_true]
  constructor
  · intro hall i entry place hentry hfile hplace
    have hx : (entries.zip given)[i]? = some (entry, some place) :=
      List.getElem?_zip_eq_some.2 ⟨hentry, hplace⟩
    have htakes := hall _ (List.mem_of_getElem? hx)
    simp only [StoredTransferEntry.takes, hfile, Bool.false_or, Bool.and_eq_true] at htakes
    exact htakes.2
  · rintro hnames ⟨entry, place⟩ hmem
    obtain ⟨i, hx⟩ := List.mem_iff_getElem?.1 hmem
    obtain ⟨hentry, hplace⟩ := List.getElem?_zip_eq_some.1 hx
    obtain ⟨before, after, -, hturn⟩ := hwalk.turn_at hx
    cases hturn with
    | completed hdone => rfl
    | kept parent uri hfile hparent huri => rfl
    | created place documents hfile hparent huri hname hcall =>
      obtain ⟨uri, to', hmade, hblank, hvalid⟩ := hcreates before.documents place.parent
        (newDocument entry.manifest place.name).1 (newDocument entry.manifest place.name).2
      have hcall : contract.createDocument before.documents place.parent
        (newDocument entry.manifest place.name).1 (newDocument entry.manifest place.name).2 =
          some (place.uri, documents) := hcall
      rw [hmade] at hcall
      obtain ⟨rfl, -⟩ := Prod.mk.inj (Option.some.inj hcall)
      simp only [StoredTransferEntry.takes, hblank, hvalid, Bool.true_and, Bool.or_eq_true]
      by_cases hdirectory : entry.isDirectory = true
      · exact .inl hdirectory
      · rw [Bool.not_eq_true] at hdirectory
        exact .inr (hnames i entry place hentry hdirectory hplace)

/-- What `setTargetTree` leaves of the entries. -/
theorem setTargetTree_entries {now : Nat} (h : b.setTargetTree treeUri now = some b') :
    b'.batch.targetTreeUri = some treeUri ∧
      (b.batch.targetTreeUri = some treeUri → b'.entries = b.entries) ∧
      ∀ previous, b.batch.targetTreeUri = some previous → previous ≠ treeUri →
        b'.entries = b.entries.map fun entry =>
          if entry.isCompletedFile then entry
          else { manifest := entry.manifest, sourceUri := entry.sourceUri } := by
  rw [PhoneBatch.setTargetTree] at h
  split_ifs at h
  obtain rfl := Option.some.inj h
  refine ⟨rfl, ?_, ?_⟩
  · intro hsame
    simp [hsame]
  · intro previous hprevious hother
    simp only [hprevious, Option.isSome_some, Bool.true_and, bne_iff_ne, ne_eq,
      Option.some.injEq, hother, not_false_eq_true, if_true]
    rfl

/-- The pages of the manifest that come later are added. -/
theorem append_pages {pages : List (List StoredTransferEntry)} (hsound : b'.Sound)
    (hpages : pages.foldlM PhoneBatch.appendManifestPage b' = some c) :
    c.Sound ∧ c.entries = b'.entries ++ pages.flatten := by
  induction pages generalizing b' with
  | nil =>
    obtain rfl := Option.some.inj hpages
    simpa using hsound
  | cons page pages ih =>
    rw [List.foldlM_cons] at hpages
    obtain ⟨b₁, happend, hpages⟩ := Option.bind_eq_some_iff.1 hpages
    obtain ⟨hc, heq⟩ := ih (hsound.appendManifestPage happend) hpages
    refine ⟨hc, ?_⟩
    rw [PhoneBatch.appendManifestPage] at happend
    split_ifs at happend
    obtain rfl := Option.some.inj happend
    rw [heq, List.flatten_cons, List.append_assoc]

end Changed

/-- Another save location for a batch in any state. All that is said of it holds, up to one point:
`prepare` gives every entry that is left a document exactly if the names of the files are
allowed. -/
theorem save_location_iff {σ : Type} (lower : List Char → List Char)
    (contract : DocumentsContract σ) (hcreates : Creates contract) (documents : σ)
    (es : List (Nat × TransferStoreEvent)) (s : PhoneShelf) (b b' c : PhoneBatch)
    (treeUri : String) (now : Nat) (pages : List (List StoredTransferEntry))
    (hrun : Machine.run (fun s e => PhoneShelf.step s e.1 e.2) {} es = some s)
    (hbatch : s.batch = some b) (hset : b.setTargetTree treeUri now = some b')
    (hpages : pages.foldlM PhoneBatch.appendManifestPage b' = some c)
    (hnew : ∀ page ∈ pages, ∀ entry ∈ page, entry.targetUri = none) :
    SaveLocation lower contract treeUri documents b b' c ↔
      (DirectoriesFirst c.entries → NamesAllowed lower contract treeUri documents c.entries) := by
  have hsound : b.Sound := PhoneShelf.sound_of_run hrun b hbatch
  obtain ⟨hc, hentries⟩ := append_pages (hsound.setTargetTree hset) hpages
  obtain ⟨hrow, hsame, hchanged⟩ := setTargetTree_entries hset
  constructor
  · intro h hfirst
    obtain ⟨c', documents', names, hprepare, -⟩ := h.prepared hfirst
    obtain ⟨given, last, hplaced, htakes, -⟩ := (prepareTargets_iff hc).1 hprepare
    exact namesAllowed_iff.2
      ⟨given, last, hplaced, (takes_of_names hcreates hplaced).1 htakes⟩
  · intro hallowed
    refine ⟨hrow, hchanged, hsame, ?_, ?_⟩
    · intro i entry given places hentry hplaced hbefore
      exact directory_known hplaced hbefore
    · intro hfirst
      obtain ⟨given, last, hplaced, hnames⟩ := namesAllowed_iff.1 (hallowed hfirst)
      have hprepared := preparedTargets_of_placeEntries hplaced
      refine ⟨_, _, nameAt c.entries given, (prepareTargets_iff hc).2
        ⟨given, last, hplaced, (takes_of_names hcreates hplaced).2 hnames, rfl, rfl⟩,
        hprepared, ?_⟩
      intro previous hprevious hother
      have hopen : ∀ entry ∈ c.entries, entry.isCompletedFile = false →
          entry.targetUri = none := by
        intro entry hentry hfile
        rw [hentries, hchanged previous hprevious hother, List.mem_append] at hentry
        rcases hentry with hold | hlater
        · obtain ⟨original, -, rfl⟩ := List.mem_map.1 hold
          split_ifs at hfile ⊢ with hdone
          · exact absurd hdone (by simp [hfile])
          · rfl
        · obtain ⟨page, hpage, hmem⟩ := List.mem_flatten.1 hlater
          exact hnew page hpage entry hmem
      refine ⟨hopen, ?_⟩
      intro entry hentry hfile
      obtain ⟨i, hi⟩ := List.mem_iff_getElem?.1 hentry
      exact hprepared.underTree hopen hi hfile

/-- A provider with empty directories that has some URIs to give away. -/
def phoneDocuments : DocumentsContract (List String) where
  treeDocument treeUri := treeUri ++ "/document/1"
  childNames _ _ := []
  createDocument documents _ _ _ :=
    let uri := documents.headD ""
    some (if Kotlin.isNotBlank uri.toList && validUri uri then uri else "content://d",
      documents.tail)

theorem phoneDocuments_creates : Creates phoneDocuments := by
  intro documents parent mimeType name
  refine ⟨_, _, rfl, ?_⟩
  split_ifs with hvalid
  · rwa [Bool.and_eq_true] at hvalid
  · decide +kernel

def twoInFolder (name : List Char) : List StoredTransferEntry :=
  [{ manifest := { ordinal := 0, entryId := "0", relativePath := ['d'], kind := .directory } },
    { manifest := { ordinal := 1, entryId := "1", relativePath := "d/x".toList, kind := .file
                    size := 1 } },
    { manifest := { ordinal := 2, entryId := "2", relativePath := "d/".toList ++ name, kind := .file
                    size := 1 } }]

/-- One of the files has come when the other tree is chosen. -/
def halfDownload (name : List Char) : List (Nat × TransferStoreEvent) :=
  [(0, .createBatch longDownload), (0, .appendManifestPage (twoInFolder name)),
    (0, .setTargetTree "content://a"),
    (0, .setEntryTarget 0 "content://a/2" none (some "content://a/document/1")),
    (0, .updateEntryProgress 0 .completed 0 none none none),
    (0, .setEntryTarget 1 "content://a/3" (some ['x']) (some "content://a/2")),
    (0, .updateEntryProgress 1 .completed 1 none none none)]

def halfBatch (name : List Char) : Option PhoneBatch :=
  (Machine.run (fun s e => PhoneShelf.step s e.1 e.2) {} (halfDownload name)).bind (·.batch)

theorem save_location_half : ∃ s b b',
    Machine.run (fun s e => PhoneShelf.step s e.1 e.2) {} (halfDownload ['y']) = some s ∧
      s.batch = some b ∧ b.setTargetTree "content://b" 1 = some b' ∧
      (AndroidTargetStore.prepare (List.map Char.toLower) phoneDocuments b' "content://b"
        ["content://b/2", "content://b/3"]).isSome = true ∧
      SaveLocation (List.map Char.toLower) phoneDocuments "content://b"
        ["content://b/2", "content://b/3"] b b' b' := by
  have hsome : ((halfBatch ['y']).bind fun b => (b.setTargetTree "content://b" 1).bind fun b' =>
      AndroidTargetStore.prepare (List.map Char.toLower) phoneDocuments b' "content://b"
        ["content://b/2", "content://b/3"]).isSome = true := by decide +kernel
  obtain ⟨prepared, hprepared⟩ := Option.isSome_iff_exists.1 hsome
  obtain ⟨b, hb, hprepared⟩ := Option.bind_eq_some_iff.1 hprepared
  obtain ⟨b', hset, hprepared⟩ := Option.bind_eq_some_iff.1 hprepared
  obtain ⟨s, hrun, hbatch⟩ := Option.bind_eq_some_iff.1 hb
  refine ⟨s, b, b', hrun, hbatch, hset, by rw [hprepared]; rfl, ?_⟩
  apply (save_location_iff (List.map Char.toLower) phoneDocuments phoneDocuments_creates
    ["content://b/2", "content://b/3"] (halfDownload ['y']) s b b' b' "content://b" 1 [] hrun
    hbatch hset rfl (by simp)).2
  intro hfirst
  have hsound := (PhoneShelf.sound_of_run hrun b hbatch).setTargetTree hset
  obtain ⟨given, last, hplaced, htakes, -⟩ := (prepareTargets_iff hsound).1 hprepared
  exact namesAllowed_iff.2
    ⟨given, last, hplaced, (takes_of_names phoneDocuments_creates hplaced).1 htakes⟩

/-- A file of the computer can have the ideographic space for its name. -/
def blankName : List Char := [Char.ofNat 0x3000]

theorem blank_name_refused : ∃ s b b',
    Machine.run (fun s e => PhoneShelf.step s e.1 e.2) {} (halfDownload blankName) = some s ∧
      s.batch = some b ∧ b.setTargetTree "content://b" 1 = some b' ∧
      ¬SaveLocation (List.map Char.toLower) phoneDocuments "content://b"
        ["content://b/2", "content://b/3"] b b' b' := by
  have hmoved : ((halfBatch blankName).bind fun b => (b.setTargetTree "content://b" 1)).map
      (·.entries) = some
        [{ manifest := { ordinal := 0, entryId := "0", relativePath := ['d']
                         kind := .directory } },
          { manifest := { ordinal := 1, entryId := "1", relativePath := "d/x".toList, kind := .file
                          size := 1 }
            targetUri := "content://a/3", targetName := ['x'], targetParentUri := "content://a/2"
            state := .completed, committedOffset := 1 },
          { manifest := { ordinal := 2, entryId := "2", relativePath := "d/".toList ++ blankName
                          kind := .file, size := 1 } }] := by decide +kernel
  have hthrows : ((halfBatch blankName).bind fun b => (b.setTargetTree "content://b" 1).bind
      fun b' => AndroidTargetStore.prepare (List.map Char.toLower) phoneDocuments b' "content://b"
        ["content://b/2", "content://b/3"]).isNone = true := by decide +kernel
  obtain ⟨b', hb', hentries⟩ := Option.map_eq_some_iff.1 hmoved
  obtain ⟨b, hb, hset⟩ := Option.bind_eq_some_iff.1 hb'
  obtain ⟨s, hrun, hbatch⟩ := Option.bind_eq_some_iff.1 hb
  refine ⟨s, b, b', hrun, hbatch, hset, ?_⟩
  intro h
  have hfirst : DirectoriesFirst b'.entries := by
    rw [hentries]
    intro i entry hentry hfile
    match i with
    | 0 =>
      obtain rfl := Option.some.inj hentry
      exact .inl (by decide +kernel)
    | 1 =>
      obtain rfl := Option.some.inj hentry
      cases hfile
    | 2 =>
      obtain rfl := Option.some.inj hentry
      exact .inr ⟨0, by decide, _, rfl, rfl, by decide +kernel⟩
  obtain ⟨c', documents', names, hprepare, -⟩ := h.prepared hfirst
  rw [hb, Option.bind_some, hset, Option.bind_some, hprepare] at hthrows
  cases hthrows

end FlowType
