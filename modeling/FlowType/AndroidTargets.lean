import Mathlib.Logic.Function.Basic
import FlowType.PhoneTransferStore

/-! `AndroidTargetStore.prepare`: the places for the entries of a batch in the tree that was chosen.
The entries are walked in pages; a walk over all of them at once comes to the same. -/
namespace FlowType

/-- The documents of the phone; `σ` is what the providers have stored. -/
structure DocumentsContract (σ : Type) where
  /-- The document of a tree, by the URI of the tree. -/
  treeDocument : String → String
  childNames : σ → String → List (List Char)
  createDocument : σ → String → String → List Char → Option (String × σ)

def MIME_TYPE_DIR : String := "vnd.android.document/directory"

/-- `substringBeforeLast('/', "")`. -/
def parentPath (path : List Char) : List Char :=
  if '/' ∈ path then (path.rdropWhile fun c => c ≠ '/').dropLast else []

/-- `substringAfterLast('/')`. -/
def lastName (path : List Char) : List Char := path.rtakeWhile fun c => c ≠ '/'

/-- What `prepare` remembers on its way. -/
structure TargetPlaces (σ : Type) where
  /-- The document of a directory, by the path of the directory. -/
  directories : List Char → Option String
  /-- The names in lower case that are taken in a document. -/
  reserved : String → Option (List (List Char)) := fun _ => none
  documents : σ

structure TargetPlace where
  parent : String
  name : List Char
  uri : String
  deriving DecidableEq, Repr

namespace StoredTransferEntry

def isDirectory (entry : StoredTransferEntry) : Bool := entry.manifest.kind == .directory

def given (entry : StoredTransferEntry) : Option TargetPlace → StoredTransferEntry
  | none => entry
  | some place =>
    match entry.manifest.kind with
    | .directory =>
      { entry with
        targetUri := some place.uri
        targetName := none
        targetParentUri := some place.parent
        state := .completed
        committedOffset := 0
        errorCode := none }
    | .file =>
      { entry with
        targetUri := some place.uri
        targetName := some place.name
        targetParentUri := some place.parent }

/-- What `setEntryTarget` checks of it. -/
def takes (entry : StoredTransferEntry) : Option TargetPlace → Bool
  | none => true
  | some place =>
    Kotlin.isNotBlank place.uri.toList && validUri place.uri &&
      (entry.isDirectory || validTargetName place.name)

end StoredTransferEntry

namespace AndroidTargetStore
variable {σ : Type} (lower : List Char → List Char) (contract : DocumentsContract σ)

/-- `reserved.getOrPut(parent) { childNames(parent) }`. -/
def names (places : TargetPlaces σ) (parent : String) : List (List Char) :=
  (places.reserved parent).getD ((contract.childNames places.documents parent).map lower)

def keepPlace (places : TargetPlaces σ) (parent : String) (stored : StoredTransferEntry)
    (uri : String) : TargetPlaces σ :=
  if stored.isDirectory then
    { places with
      directories := Function.update places.directories stored.manifest.relativePath (some uri) }
  else match stored.targetName with
    | some name =>
      { places with
        reserved := Function.update places.reserved parent
          (some (lower name :: names lower contract places parent)) }
    | none => places

/-- The type and the name of the document that is created. A file has another name until it is
complete. -/
def newDocument (manifest : ManifestEntry) (desired : List Char) : String × List Char :=
  match manifest.kind with
  | .directory => (MIME_TYPE_DIR, desired)
  | .file => (manifest.mimeType.getD "application/octet-stream",
      ".flowtype-".toList ++ manifest.entryId.toList ++ ".part".toList)

def placeEntry (places : TargetPlaces σ) (stored : StoredTransferEntry) :
    Option (Option TargetPlace × TargetPlaces σ) :=
  -- completed files stay where they are
  if stored.isCompletedFile then some (none, places)
  else (places.directories (parentPath stored.manifest.relativePath)).bind fun parent =>
    match stored.targetUri with
    | some uri => some (none, keepPlace lower contract places parent stored uri)
    | none =>
      (reserveName lower (names lower contract places parent)
          (lastName stored.manifest.relativePath)).bind fun (desired, taken) =>
        let document := newDocument stored.manifest desired
        (contract.createDocument places.documents parent document.1 document.2).map
          fun (created, documents) =>
            (some { parent, name := desired, uri := created },
              { directories := if stored.isDirectory then
                  Function.update places.directories stored.manifest.relativePath (some created)
                  else places.directories
                reserved := Function.update places.reserved parent (some taken)
                documents })

/-- The calls of the store; a directory is complete with its document. -/
def storePlace (b : PhoneBatch) (manifest : ManifestEntry) (place : TargetPlace) :
    Option PhoneBatch :=
  match manifest.kind with
  | .directory =>
    (b.setEntryTarget manifest.ordinal place.uri none (some place.parent)).bind fun b =>
      b.updateEntryProgress manifest.ordinal .completed 0 none none none
  | .file => b.setEntryTarget manifest.ordinal place.uri (some place.name) (some place.parent)

def prepareEntry (s : PhoneBatch × TargetPlaces σ) (stored : StoredTransferEntry) :
    Option (PhoneBatch × TargetPlaces σ) :=
  (placeEntry lower contract s.2 stored).bind fun (place, places) =>
    match place with
    | none => some (s.1, places)
    | some place => (storePlace s.1 stored.manifest place).map fun b => (b, places)

def preparePages : Nat → PhoneBatch × TargetPlaces σ → Nat → Option (PhoneBatch × TargetPlaces σ)
  | 0, _, _ => none
  | pages + 1, s, ordinal =>
    let page := s.1.entriesPage ordinal MAX_MANIFEST_PAGE_ENTRIES
    if page = [] then some s
    else (page.foldlM (prepareEntry lower contract) s).bind fun s =>
      preparePages pages s (page.foldl (fun _ stored => stored.manifest.ordinal + 1) ordinal)

/-- What `prepare` begins with. -/
def start (treeUri : String) (documents : σ) : TargetPlaces σ where
  directories := Function.update (fun _ => none) [] (some (contract.treeDocument treeUri))
  documents := documents

/-- `prepare`; there are not more pages than entries. -/
def prepare (b : PhoneBatch) (treeUri : String) (documents : σ) : Option (PhoneBatch × σ) :=
  (preparePages lower contract (b.entries.length + 1) (b, start contract treeUri documents) 0).map
    fun s => (s.1, s.2.documents)

def placeEntries (places : TargetPlaces σ) :
    List StoredTransferEntry → Option (List (Option TargetPlace) × TargetPlaces σ)
  | [] => some ([], places)
  | stored :: rest =>
    (placeEntry lower contract places stored).bind fun (place, places) =>
      (placeEntries places rest).map fun (more, last) => (place :: more, last)

end AndroidTargetStore

/-! ### The calls of the store -/

/-- The ordinal of an entry is its place, and a directory has no size. -/
structure PhoneBatch.Sound (b : PhoneBatch) : Prop where
  ordinals : b.entries.map (·.manifest.ordinal) = List.range b.entries.length
  manifests : ∀ entry ∈ b.entries, validateStored entry.manifest = true

section Store
variable {b : PhoneBatch} {done rest : List StoredTransferEntry} {stored : StoredTransferEntry}

theorem PhoneBatch.updateEntry_append (hentries : b.entries = done ++ stored :: rest)
    (change : StoredTransferEntry → StoredTransferEntry) :
    b.updateEntry done.length change =
      some { b with entries := done ++ change stored :: rest } := by
  have hthere : done.length < b.entries.length := by simp [hentries]
  rw [updateEntry, if_pos hthere, hentries]
  have hmodify := List.modifyTailIdx_add (List.modifyHead change) 0 done (stored :: rest)
  rw [Nat.add_zero] at hmodify
  rw [List.modify, hmodify]
  rfl

theorem given_manifest (place : Option TargetPlace) :
    (stored.given place).manifest = stored.manifest := by
  cases place with
  | none => rfl
  | some place =>
    rw [StoredTransferEntry.given]
    cases stored.manifest.kind <;> rfl

theorem given_isDirectory (place : Option TargetPlace) :
    (stored.given place).isDirectory = stored.isDirectory := by
  rw [StoredTransferEntry.isDirectory, given_manifest, StoredTransferEntry.isDirectory]

theorem directory_size (hvalid : validateStored stored.manifest = true)
    (hkind : stored.manifest.kind = .directory) : stored.manifest.size = 0 := by
  simp only [validateStored, Kotlin.validateEntry, Bool.and_eq_true] at hvalid
  simpa [hkind] using hvalid.2.1.1.1.2

/-- The store takes a new document, or the call throws. -/
theorem storePlace_append (hentries : b.entries = done ++ stored :: rest)
    (hordinal : stored.manifest.ordinal = done.length)
    (hvalid : validateStored stored.manifest = true) (place : TargetPlace) :
    AndroidTargetStore.storePlace b stored.manifest place =
      if stored.takes (some place) then
        some { b with entries := done ++ stored.given (some place) :: rest }
      else none := by
  rw [AndroidTargetStore.storePlace, hordinal]
  cases hkind : stored.manifest.kind with
  | file =>
    simp only [PhoneBatch.setEntryTarget, StoredTransferEntry.takes, StoredTransferEntry.given,
      StoredTransferEntry.isDirectory, hkind, PhoneBatch.updateEntry_append hentries,
      Option.all_some]
    rfl
  | directory =>
    have hsize := directory_size hvalid hkind
    simp only [PhoneBatch.setEntryTarget, StoredTransferEntry.takes, StoredTransferEntry.given,
      StoredTransferEntry.isDirectory, hkind, PhoneBatch.updateEntry_append hentries,
      Option.all_none]
    by_cases huri : (Kotlin.isNotBlank place.uri.toList && validUri place.uri) = true
    · simp only [huri, Bool.and_true, beq_self_eq_true, Bool.true_or, if_true,
        Option.bind_some, PhoneBatch.updateEntryProgress]
      have hcurrent : ∀ entry : StoredTransferEntry,
          (done ++ entry :: rest)[done.length]? = some entry := by simp
      rw [hcurrent, Option.bind_some]
      simp only [hsize, Nat.not_lt_zero, if_false, ne_eq, not_true_eq_false, and_false,
        Option.all_none, Bool.true_eq_false]
      rw [PhoneBatch.updateEntry_append rfl]
      rfl
    · simp [huri]

section Walk
variable {σ : Type} {lower : List Char → List Char} {contract : DocumentsContract σ}
variable {places : TargetPlaces σ}

theorem prepareEntry_append (hentries : b.entries = done ++ stored :: rest)
    (hordinal : stored.manifest.ordinal = done.length)
    (hvalid : validateStored stored.manifest = true) :
    AndroidTargetStore.prepareEntry lower contract (b, places) stored =
      (AndroidTargetStore.placeEntry lower contract places stored).bind fun (place, places) =>
        if stored.takes place then
          some ({ b with entries := done ++ stored.given place :: rest }, places)
        else none := by
  rw [AndroidTargetStore.prepareEntry]
  congr 1
  funext ⟨place, places'⟩
  cases place with
  | none =>
    have hsame : { b with entries := done ++ stored.given none :: rest } = b := by
      rw [StoredTransferEntry.given, ← hentries]
    simp only [StoredTransferEntry.takes, if_true, hsame]
  | some place =>
    simp only [storePlace_append hentries hordinal hvalid]
    split_ifs <;> rfl

/-- Some entries in a row: first the documents, then the calls of the store. -/
theorem foldlM_prepareEntry {page later : List StoredTransferEntry}
    (hentries : b.entries = done ++ (page ++ later))
    (hordinals : page.map (·.manifest.ordinal) = List.range' done.length page.length)
    (hvalid : ∀ entry ∈ page, validateStored entry.manifest = true) :
    page.foldlM (AndroidTargetStore.prepareEntry lower contract) (b, places) =
      (AndroidTargetStore.placeEntries lower contract places page).bind fun (given, last) =>
        if (page.zip given).all fun x => x.1.takes x.2 then
          some ({ b with entries :=
            done ++ (List.zipWith StoredTransferEntry.given page given ++ later) }, last)
        else none := by
  induction page generalizing b done places with
  | nil =>
    rw [List.nil_append] at hentries
    simp [AndroidTargetStore.placeEntries, ← hentries]
  | cons stored page ih =>
    rw [List.map_cons, List.length_cons, List.range'_succ, List.cons.injEq] at hordinals
    rw [List.forall_mem_cons] at hvalid
    rw [List.foldlM_cons, prepareEntry_append hentries hordinals.1 hvalid.1,
      AndroidTargetStore.placeEntries]
    cases AndroidTargetStore.placeEntry lower contract places stored with
    | none => rfl
    | some placed =>
      obtain ⟨place, places'⟩ := placed
      simp only [Option.bind_some]
      by_cases htakes : stored.takes place = true
      · have hnext := @ih { b with entries := done ++ stored.given place :: (page ++ later) }
          (done ++ [stored.given place]) places' (by simp) (by simpa using hordinals.2) hvalid.2
        rw [if_pos htakes]
        refine hnext.trans ?_
        cases AndroidTargetStore.placeEntries lower contract places' page with
        | none => rfl
        | some given =>
          obtain ⟨given, last⟩ := given
          simp only [Option.bind_some, Option.map_some, List.zip_cons_cons, List.all_cons, htakes,
            Bool.true_and, List.zipWith_cons_cons, List.append_assoc, List.cons_append,
            List.nil_append]
      · rw [if_neg htakes]
        cases AndroidTargetStore.placeEntries lower contract places' page with
        | none => rfl
        | some given =>
          obtain ⟨given, last⟩ := given
          simp [htakes]

theorem placeEntries_append (page later : List StoredTransferEntry) :
    AndroidTargetStore.placeEntries lower contract places (page ++ later) =
      (AndroidTargetStore.placeEntries lower contract places page).bind fun (given, places) =>
        (AndroidTargetStore.placeEntries lower contract places later).map fun (more, last) =>
          (given ++ more, last) := by
  induction page generalizing places with
  | nil => simp [AndroidTargetStore.placeEntries]
  | cons stored page ih =>
    rw [List.cons_append, AndroidTargetStore.placeEntries, AndroidTargetStore.placeEntries]
    cases AndroidTargetStore.placeEntry lower contract places stored with
    | none => rfl
    | some placed =>
      simp only [Option.bind_some, ih]
      cases AndroidTargetStore.placeEntries lower contract placed.2 page with
      | none => rfl
      | some given =>
        simp only [Option.bind_some, Option.map_some]
        cases AndroidTargetStore.placeEntries lower contract given.2 later <;> rfl

theorem length_placeEntries {page : List StoredTransferEntry} {given : List (Option TargetPlace)}
    {last : TargetPlaces σ}
    (h : AndroidTargetStore.placeEntries lower contract places page = some (given, last)) :
    given.length = page.length := by
  induction page generalizing places given last with
  | nil =>
    obtain ⟨rfl, -⟩ := Prod.mk.inj (Option.some.inj h)
    rfl
  | cons stored page ih =>
    rw [AndroidTargetStore.placeEntries] at h
    obtain ⟨placed, -, h⟩ := Option.bind_eq_some_iff.1 h
    obtain ⟨more, hmore, heq⟩ := Option.map_eq_some_iff.1 h
    obtain ⟨rfl, -⟩ := Prod.mk.inj heq
    rw [List.length_cons, List.length_cons, ih hmore]

/-! ### Pages -/

theorem entriesPage_eq {batch : PhoneBatch}
    (hordinals : batch.entries.map (·.manifest.ordinal) = List.range batch.entries.length)
    (start limit : Nat) :
    batch.entriesPage start limit = (batch.entries.drop start).take limit := by
  have hplace (i : Nat) (entry : StoredTransferEntry) (hentry : batch.entries[i]? = some entry) :
      entry.manifest.ordinal = i := by
    have hrange := congrArg (·[i]?) hordinals
    have hi := (List.getElem?_eq_some_iff.1 hentry).1
    simpa [hentry, List.getElem?_range hi] using hrange
  have hbefore : (batch.entries.take start).filter
      (fun entry => start ≤ entry.manifest.ordinal) = [] := by
    rw [List.filter_eq_nil_iff]
    intro entry hmem
    obtain ⟨i, hi⟩ := List.mem_iff_getElem?.1 hmem
    rw [List.getElem?_take] at hi
    split_ifs at hi with hlt
    simp [hplace i entry hi, hlt]
  have hafter : (batch.entries.drop start).filter
      (fun entry => start ≤ entry.manifest.ordinal) = batch.entries.drop start := by
    rw [List.filter_eq_self]
    intro entry hmem
    obtain ⟨i, hi⟩ := List.mem_iff_getElem?.1 hmem
    rw [List.getElem?_drop] at hi
    simp [hplace (start + i) entry hi]
  rw [PhoneBatch.entriesPage]
  conv_lhs => rw [← List.take_append_drop start batch.entries]
  rw [List.filter_append, hbefore, hafter, List.nil_append]

theorem next_ordinal {page : List StoredTransferEntry} {start : Nat}
    (hordinals : page.map (·.manifest.ordinal) = List.range' start page.length) :
    page.foldl (fun _ stored => stored.manifest.ordinal + 1) start = start + page.length := by
  induction page generalizing start with
  | nil => rfl
  | cons stored page ih =>
    rw [List.map_cons, List.length_cons, List.range'_succ, List.cons.injEq] at hordinals
    rw [List.foldl_cons, hordinals.1, ih hordinals.2, List.length_cons]
    omega

theorem map_ordinal_given {page : List StoredTransferEntry} {given : List (Option TargetPlace)}
    (hlength : given.length = page.length) :
    (List.zipWith StoredTransferEntry.given page given).map (·.manifest.ordinal) =
      page.map (·.manifest.ordinal) := by
  induction page generalizing given with
  | nil => rfl
  | cons stored page ih =>
    cases given with
    | nil => cases hlength
    | cons place given =>
      rw [List.zipWith_cons_cons, List.map_cons, List.map_cons, given_manifest,
        ih (Nat.succ.inj hlength)]

theorem ordinals_middle {page later : List StoredTransferEntry}
    (h : (done ++ (page ++ later)).map (·.manifest.ordinal) =
      List.range (done ++ (page ++ later)).length) :
    page.map (·.manifest.ordinal) = List.range' done.length page.length := by
  rw [List.length_append, List.length_append, List.range_eq_range', ← List.range'_append_1,
    ← List.range'_append_1, List.map_append, List.map_append, Nat.zero_add] at h
  have hrest := (List.append_inj h (by simp)).2
  exact (List.append_inj hrest (by simp)).1

theorem preparePages_eq {pages : Nat} {more : List StoredTransferEntry}
    (hentries : b.entries = done ++ more)
    (hordinals : b.entries.map (·.manifest.ordinal) = List.range b.entries.length)
    (hvalid : ∀ entry ∈ more, validateStored entry.manifest = true) (hpages : more.length < pages) :
    AndroidTargetStore.preparePages lower contract pages (b, places) done.length =
      (AndroidTargetStore.placeEntries lower contract places more).bind fun (given, last) =>
        if (more.zip given).all fun x => x.1.takes x.2 then
          some ({ b with entries :=
            done ++ List.zipWith StoredTransferEntry.given more given }, last)
        else none := by
  induction pages generalizing b done more places with
  | zero => omega
  | succ pages ih =>
    have hpage : b.entriesPage done.length MAX_MANIFEST_PAGE_ENTRIES =
        more.take MAX_MANIFEST_PAGE_ENTRIES := by
      rw [entriesPage_eq hordinals, hentries, List.drop_left]
    rw [AndroidTargetStore.preparePages]
    simp only [hpage]
    by_cases hnone : more = []
    · subst hnone
      simp [AndroidTargetStore.placeEntries, ← hentries]
    · have hsome : more.take MAX_MANIFEST_PAGE_ENTRIES ≠ [] := by
        have hlength := List.length_pos_iff.2 hnone
        rw [ne_eq, List.take_eq_nil_iff, not_or]
        exact ⟨by decide, hnone⟩
      have hshorter : (more.drop MAX_MANIFEST_PAGE_ENTRIES).length < pages := by
        have hlength := List.length_pos_iff.2 hnone
        have hlimit : MAX_MANIFEST_PAGE_ENTRIES = 256 := rfl
        rw [List.length_drop]
        omega
      have hsplit : more = more.take MAX_MANIFEST_PAGE_ENTRIES ++
        more.drop MAX_MANIFEST_PAGE_ENTRIES := (List.take_append_drop _ _).symm
      generalize more.take MAX_MANIFEST_PAGE_ENTRIES = page at hsome hsplit ⊢
      generalize more.drop MAX_MANIFEST_PAGE_ENTRIES = later at hshorter hsplit
      subst hsplit
      rw [List.forall_mem_append] at hvalid
      have hrange : page.map (·.manifest.ordinal) = List.range' done.length page.length := by
        rw [hentries] at hordinals
        exact ordinals_middle hordinals
      rw [if_neg hsome, foldlM_prepareEntry hentries hrange hvalid.1, next_ordinal hrange,
        placeEntries_append]
      cases hplaced : AndroidTargetStore.placeEntries lower contract places page with
      | none => rfl
      | some placed =>
        obtain ⟨given, places'⟩ := placed
        have hlength := length_placeEntries hplaced
        have hmany : (List.zipWith StoredTransferEntry.given page given).length =
            page.length := by
          rw [List.length_zipWith, hlength, Nat.min_self]
        simp only [Option.bind_some]
        by_cases htakes : ((page.zip given).all fun x => x.1.takes x.2) = true
        · have hnext := @ih { b with entries :=
              done ++ (List.zipWith StoredTransferEntry.given page given ++ later) }
            (done ++ List.zipWith StoredTransferEntry.given page given) places' later
            (by simp) ?_ hvalid.2 hshorter
          · rw [List.length_append, hmany] at hnext
            rw [if_pos htakes, Option.bind_some, hnext]
            cases AndroidTargetStore.placeEntries lower contract places' later with
            | none => rfl
            | some placed =>
              obtain ⟨given', last⟩ := placed
              simp only [Option.bind_some, Option.map_some, List.zip_append hlength.symm,
                List.all_append, htakes, Bool.true_and, List.zipWith_append hlength.symm,
                List.append_assoc]
          · rw [hentries] at hordinals
            rw [List.map_append, List.map_append, map_ordinal_given hlength, ← List.map_append,
              ← List.map_append, hordinals]
            simp only [List.length_append, hmany]
        · rw [if_neg htakes, Option.bind_none]
          cases AndroidTargetStore.placeEntries lower contract places' later with
          | none => rfl
          | some placed =>
            obtain ⟨given', last⟩ := placed
            simp only [Option.bind_some, Option.map_some, List.zip_append hlength.symm,
              List.all_append, htakes, Bool.false_and]
            rfl

/-- `prepare` comes to an end if there is a document for every entry, and the store takes them. -/
theorem prepareTargets_iff (hb : b.Sound) {treeUri : String} {documents documents' : σ}
    {b' : PhoneBatch} :
    AndroidTargetStore.prepare lower contract b treeUri documents = some (b', documents') ↔
      ∃ given last, AndroidTargetStore.placeEntries lower contract
          (AndroidTargetStore.start contract treeUri documents) b.entries = some (given, last) ∧
        ((b.entries.zip given).all fun x => x.1.takes x.2) = true ∧
        b' = { b with entries := List.zipWith StoredTransferEntry.given b.entries given } ∧
        documents' = last.documents := by
  have hpages := @preparePages_eq b [] σ lower contract
    (AndroidTargetStore.start contract treeUri documents) (b.entries.length + 1) b.entries rfl
    hb.ordinals hb.manifests (Nat.lt_succ_self _)
  rw [List.length_nil] at hpages
  simp only [AndroidTargetStore.prepare, hpages, Option.map_eq_some_iff, Option.bind_eq_some_iff,
    List.nil_append]
  constructor
  · rintro ⟨s, ⟨⟨given, last⟩, hplaced, hs⟩, hout⟩
    split_ifs at hs with htakes
    obtain rfl := Option.some.inj hs
    obtain ⟨rfl, rfl⟩ := Prod.mk.inj hout
    exact ⟨given, last, hplaced, htakes, rfl, rfl⟩
  · rintro ⟨given, last, hplaced, htakes, rfl, rfl⟩
    exact ⟨_, ⟨(given, last), hplaced, if_pos htakes⟩, rfl⟩

end Walk

end Store

end FlowType
