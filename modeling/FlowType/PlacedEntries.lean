import FlowType.AndroidTargets

/-! The walk of `prepare` over the entries of a batch: which document an entry gets, in which
directory and under which name. -/
namespace FlowType

open AndroidTargetStore

/-- The document of a directory, by its path; of two directories the later one counts. -/
def documentOf (root : String) (entries : List StoredTransferEntry) (path : List Char) :
    Option String :=
  entries.foldl (fun found entry =>
      if entry.isDirectory ∧ entry.manifest.relativePath = path then entry.targetUri else found)
    (if path = [] then some root else none)

def DirectoryBefore (entries : List StoredTransferEntry) (i : Nat) (path : List Char) : Prop :=
  parentPath path = [] ∨ ∃ j < i, ∃ directory, entries[j]? = some directory ∧
    directory.isDirectory = true ∧ directory.manifest.relativePath = parentPath path

section Documents
variable {root : String} {path : List Char}

theorem documentOf_concat (entries : List StoredTransferEntry) (entry : StoredTransferEntry) :
    documentOf root (entries ++ [entry]) path =
      if entry.isDirectory ∧ entry.manifest.relativePath = path then entry.targetUri
      else documentOf root entries path := by
  rw [documentOf, List.foldl_append, List.foldl_cons, List.foldl_nil, documentOf]

theorem documentOf_cases (entries : List StoredTransferEntry) :
    documentOf root entries path = (if path = [] then some root else none) ∨
      ∃ entry ∈ entries, entry.isDirectory = true ∧
        documentOf root entries path = entry.targetUri := by
  induction entries using List.reverseRecOn with
  | nil => exact .inl rfl
  | append_singleton entries entry ih =>
    rw [documentOf_concat]
    by_cases hentry : entry.isDirectory ∧ entry.manifest.relativePath = path
    · rw [if_pos hentry]
      exact .inr ⟨entry, by simp, hentry.1, rfl⟩
    · rw [if_neg hentry]
      rcases ih with hroot | ⟨other, hother, hdirectory, heq⟩
      · exact .inl hroot
      · exact .inr ⟨other, List.mem_append_left _ hother, hdirectory, heq⟩

theorem documentOf_isSome {entries : List StoredTransferEntry}
    (hplaced : ∀ entry ∈ entries, entry.isDirectory = true → entry.targetUri.isSome = true)
    (hpath : path = [] ∨ ∃ entry ∈ entries, entry.isDirectory = true ∧
      entry.manifest.relativePath = path) : (documentOf root entries path).isSome = true := by
  induction entries using List.reverseRecOn with
  | nil =>
    rcases hpath with rfl | ⟨entry, hentry, -⟩
    · rfl
    · cases hentry
  | append_singleton entries entry ih =>
    rw [documentOf_concat]
    split_ifs with hentry
    · exact hplaced entry (by simp) hentry.1
    · apply ih
      · intro other hother
        exact hplaced other (List.mem_append_left _ hother)
      · rcases hpath with hroot | ⟨other, hother, hdirectory, heq⟩
        · exact .inl hroot
        · rcases List.mem_append.1 hother with hbefore | hlast
          · exact .inr ⟨other, hbefore, hdirectory, heq⟩
          · rw [List.mem_singleton.1 hlast] at hdirectory heq
            exact absurd ⟨hdirectory, heq⟩ hentry

end Documents

/-! ### One entry -/

section Walk
variable {σ : Type} {lower : List Char → List Char} {contract : DocumentsContract σ}
variable {places places' : TargetPlaces σ} {stored : StoredTransferEntry}
variable {place : Option TargetPlace}

structure Created (contract : DocumentsContract σ) (stored : StoredTransferEntry)
    (place : TargetPlace) : Prop where
  call : ∃ documents documents', contract.createDocument documents place.parent
    (newDocument stored.manifest place.name).1 (newDocument stored.manifest place.name).2 =
      some (place.uri, documents')

theorem isDirectory_of_completed (h : stored.isCompletedFile = true) :
    stored.isDirectory = false := by
  simp only [StoredTransferEntry.isCompletedFile, Bool.and_eq_true, beq_iff_eq] at h
  simp [StoredTransferEntry.isDirectory, h.1]

/-- An entry is a completed file, keeps its document, or gets one in the directory that holds it:
under its own name if that is free, else under the one with the first free number. -/
inductive Turn (lower : List Char → List Char) (contract : DocumentsContract σ)
    (places : TargetPlaces σ) (stored : StoredTransferEntry) :
    Option TargetPlace → TargetPlaces σ → Prop
  | completed (hcompleted : stored.isCompletedFile = true) :
      Turn lower contract places stored none places
  | kept (parent uri : String) (hcompleted : stored.isCompletedFile = false)
      (hparent : places.directories (parentPath stored.manifest.relativePath) = some parent)
      (huri : stored.targetUri = some uri) :
      Turn lower contract places stored none (keepPlace lower contract places parent stored uri)
  | created (place : TargetPlace) (documents : σ) (hcompleted : stored.isCompletedFile = false)
      (hparent : places.directories (parentPath stored.manifest.relativePath) = some place.parent)
      (huri : stored.targetUri = none)
      (hname : FirstFree lower (· ∈ names lower contract places place.parent)
        (lastName stored.manifest.relativePath) place.name)
      (hcreated : contract.createDocument places.documents place.parent
        (newDocument stored.manifest place.name).1 (newDocument stored.manifest place.name).2 =
          some (place.uri, documents)) :
      Turn lower contract places stored (some place)
        { directories := if stored.isDirectory then
            Function.update places.directories stored.manifest.relativePath (some place.uri)
            else places.directories
          reserved := Function.update places.reserved place.parent
            (some (lower place.name :: names lower contract places place.parent))
          documents }

theorem placeEntry_iff :
    AndroidTargetStore.placeEntry lower contract places stored = some (place, places') ↔
      Turn lower contract places stored place places' := by
  constructor
  · intro h
    rw [AndroidTargetStore.placeEntry] at h
    by_cases hcompleted : stored.isCompletedFile = true
    · rw [if_pos hcompleted] at h
      obtain ⟨rfl, rfl⟩ := Prod.mk.inj (Option.some.inj h)
      exact .completed hcompleted
    · rw [if_neg hcompleted] at h
      rw [Bool.not_eq_true] at hcompleted
      obtain ⟨parent, hparent, h⟩ := Option.bind_eq_some_iff.1 h
      cases huri : stored.targetUri with
      | some uri =>
        rw [huri] at h
        obtain ⟨rfl, rfl⟩ := Prod.mk.inj (Option.some.inj h)
        exact .kept parent uri hcompleted hparent huri
      | none =>
        rw [huri] at h
        obtain ⟨⟨desired, taken⟩, hreserve, h⟩ := Option.bind_eq_some_iff.1 h
        obtain ⟨⟨created, documents⟩, hcreate, h⟩ := Option.map_eq_some_iff.1 h
        obtain ⟨rfl, rfl⟩ := Prod.mk.inj h
        obtain ⟨hname, rfl⟩ := reserveName_iff.1 hreserve
        exact .created ⟨parent, desired, created⟩ documents hcompleted hparent huri hname hcreate
  · intro h
    rw [AndroidTargetStore.placeEntry]
    cases h with
    | completed hcompleted => rw [if_pos hcompleted]
    | kept parent uri hcompleted hparent huri =>
      simp only [hcompleted, Bool.false_eq_true, if_false, hparent, Option.bind_some, huri]
    | created place documents hcompleted hparent huri hname hcreated =>
      have hreserve : reserveName lower (names lower contract places place.parent)
          (lastName stored.manifest.relativePath) =
            some (place.name, lower place.name :: names lower contract places place.parent) :=
        reserveName_iff.2 ⟨hname, rfl⟩
      simp only [hcompleted, Bool.false_eq_true, if_false, hparent, Option.bind_some, huri,
        hreserve, hcreated, Option.map_some]

/-- A directory has its document from its turn on. -/
theorem Turn.directories (h : Turn lower contract places stored place places') (path : List Char) :
    places'.directories path =
      if stored.isDirectory ∧ stored.manifest.relativePath = path then
        (stored.given place).targetUri
      else places.directories path := by
  cases h with
  | completed hcompleted =>
    simp only [isDirectory_of_completed hcompleted, Bool.false_eq_true, false_and, if_false]
  | kept parent uri hcompleted hparent huri =>
    rw [keepPlace]
    by_cases hdirectory : stored.isDirectory = true
    · simp only [hdirectory, if_true, Function.update_apply, true_and, StoredTransferEntry.given,
        huri, eq_comm]
    · rw [if_neg hdirectory, if_neg fun hboth => hdirectory hboth.1]
      cases stored.targetName <;> rfl
  | created place documents hcompleted hparent huri hname hcreated =>
    by_cases hdirectory : stored.isDirectory = true
    · have huri' : (stored.given (some place)).targetUri = some place.uri := by
        rw [StoredTransferEntry.given]
        cases stored.manifest.kind <;> rfl
      simp only [hdirectory, if_true, Function.update_apply, true_and, huri', eq_comm]
    · simp only [hdirectory, Bool.false_eq_true, if_false, false_and]

/-! ### All entries -/

/-- The entries that have had their turn, each with its new document. -/
inductive Walked (lower : List Char → List Char) (contract : DocumentsContract σ) (treeUri : String)
    (documents : σ) : List (StoredTransferEntry × Option TargetPlace) → TargetPlaces σ → Prop
  | start : Walked lower contract treeUri documents [] (start contract treeUri documents)
  | step {done : List (StoredTransferEntry × Option TargetPlace)} {places places' : TargetPlaces σ}
      {stored : StoredTransferEntry} {place : Option TargetPlace}
      (hdone : Walked lower contract treeUri documents done places)
      (hturn : Turn lower contract places stored place places') :
      Walked lower contract treeUri documents (done ++ [(stored, place)]) places'

def storedOf (done : List (StoredTransferEntry × Option TargetPlace)) : List StoredTransferEntry :=
  done.map fun x => x.1.given x.2

variable {treeUri : String} {documents : σ}
variable {done : List (StoredTransferEntry × Option TargetPlace)}

theorem walked_of_placeEntries {rest : List StoredTransferEntry} {given : List (Option TargetPlace)}
    {last : TargetPlaces σ} (hdone : Walked lower contract treeUri documents done places)
    (h : placeEntries lower contract places rest = some (given, last)) :
    Walked lower contract treeUri documents (done ++ rest.zip given) last := by
  induction rest generalizing done places given with
  | nil =>
    obtain ⟨rfl, rfl⟩ := Prod.mk.inj (Option.some.inj h)
    simpa using hdone
  | cons stored rest ih =>
    rw [placeEntries] at h
    obtain ⟨⟨place, places'⟩, hplace, h⟩ := Option.bind_eq_some_iff.1 h
    obtain ⟨⟨more, last'⟩, hmore, heq⟩ := Option.map_eq_some_iff.1 h
    obtain ⟨rfl, rfl⟩ := Prod.mk.inj heq
    have hnext := ih (hdone.step (placeEntry_iff.1 hplace)) hmore
    simpa using hnext

theorem placeEntries_of_walked (h : Walked lower contract treeUri documents done places) :
    placeEntries lower contract (start contract treeUri documents) (done.map Prod.fst) =
      some (done.map Prod.snd, places) := by
  induction h with
  | start => rfl
  | @step done places places' stored place hdone hturn ih =>
    have hlast : placeEntries lower contract places [stored] = some ([place], places') := by
      simp [placeEntries, placeEntry_iff.2 hturn]
    simp only [List.map_append, List.map_singleton, placeEntries_append, ih, Option.bind_some,
      hlast, Option.map_some]

/-- At each place of the walk is the turn of an entry. -/
theorem Walked.turn_at (h : Walked lower contract treeUri documents done places) {i : Nat}
    {x : StoredTransferEntry × Option TargetPlace} (hx : done[i]? = some x) :
    ∃ before after, Walked lower contract treeUri documents (done.take i) before ∧
      Turn lower contract before x.1 x.2 after := by
  induction h with
  | start => cases hx
  | @step done places places' stored place hdone hturn ih =>
    have hi := (List.getElem?_eq_some_iff.1 hx).1
    rw [List.length_append, List.length_singleton] at hi
    rcases Nat.lt_succ_iff_lt_or_eq.1 hi with hlt | rfl
    · rw [List.getElem?_append_left hlt] at hx
      rw [List.take_append_of_le_length hlt.le]
      exact ih hx
    · rw [List.getElem?_concat_length] at hx
      obtain rfl := Option.some.inj hx
      rw [List.take_left]
      exact ⟨places, places', hdone, hturn⟩

/-- Every directory that has had its turn has a document. -/
theorem Walked.directory_placed (h : Walked lower contract treeUri documents done places)
    {entry : StoredTransferEntry} (hentry : entry ∈ storedOf done)
    (hdirectory : entry.isDirectory = true) : entry.targetUri.isSome = true := by
  obtain ⟨x, hx, rfl⟩ := List.mem_map.1 hentry
  obtain ⟨i, hi⟩ := List.mem_iff_getElem?.1 hx
  obtain ⟨before, after, -, hturn⟩ := h.turn_at hi
  obtain ⟨stored, place⟩ := x
  rw [given_isDirectory] at hdirectory
  cases hturn with
  | completed hcompleted =>
    rw [isDirectory_of_completed hcompleted] at hdirectory
    cases hdirectory
  | kept parent uri hcompleted hparent huri =>
    rw [StoredTransferEntry.given, huri]
    rfl
  | created place documents hcompleted hparent huri hname hcreated =>
    rw [StoredTransferEntry.given]
    cases stored.manifest.kind <;> rfl

/-- The documents of the directories are those that are stored. -/
theorem Walked.directories_eq (h : Walked lower contract treeUri documents done places)
    (path : List Char) :
    places.directories path = documentOf (contract.treeDocument treeUri) (storedOf done) path := by
  induction h with
  | start =>
    simp only [AndroidTargetStore.start, Function.update_apply]
    rfl
  | @step done places places' stored place hdone hturn ih =>
    have hstored : storedOf (done ++ [(stored, place)]) =
        storedOf done ++ [stored.given place] := by
      simp [storedOf]
    rw [hstored, documentOf_concat, given_isDirectory, given_manifest, ← ih, hturn.directories]

/-! ### Names -/

/-- What is taken in a document stays taken. -/
theorem Turn.reserved (h : Turn lower contract places stored place places') {parent : String}
    {taken : List (List Char)} (htaken : places.reserved parent = some taken) :
    ∃ taken', places'.reserved parent = some taken' ∧ taken ⊆ taken' := by
  have hupdate (other : String) (name : List Char) :
      ∃ taken', Function.update places.reserved other
          (some (name :: names lower contract places other)) parent = some taken' ∧
        taken ⊆ taken' := by
    by_cases hsame : parent = other
    · subst hsame
      rw [Function.update_self, names, htaken]
      exact ⟨name :: taken, rfl, List.subset_cons_self _ _⟩
    · rw [Function.update_of_ne hsame]
      exact ⟨taken, htaken, List.Subset.refl _⟩
  cases h with
  | completed hcompleted => exact ⟨taken, htaken, List.Subset.refl _⟩
  | kept other uri hcompleted hparent huri =>
    rw [keepPlace]
    by_cases hdirectory : stored.isDirectory = true
    · rw [if_pos hdirectory]
      exact ⟨taken, htaken, List.Subset.refl _⟩
    · rw [if_neg hdirectory]
      cases stored.targetName with
      | none => exact ⟨taken, htaken, List.Subset.refl _⟩
      | some name => exact hupdate other (lower name)
  | created place documents hcompleted hparent huri hname hcreated =>
    exact hupdate place.parent (lower place.name)

/-- The name that an entry takes in the document of its directory. -/
def TakesName (x : StoredTransferEntry × Option TargetPlace) (name : List Char) : Prop :=
  x.1.isCompletedFile = false ∧ ((∃ place, x.2 = some place ∧ place.name = name) ∨
    x.2 = none ∧ x.1.isDirectory = false ∧ x.1.targetName = some name)

theorem Walked.taken (h : Walked lower contract treeUri documents done places) {i : Nat}
    {x : StoredTransferEntry × Option TargetPlace} (hx : done[i]? = some x) {name : List Char}
    (hname : TakesName x name) {parent : String}
    (hparent : documentOf (contract.treeDocument treeUri) (storedOf (done.take i))
      (parentPath x.1.manifest.relativePath) = some parent) :
    ∃ taken, places.reserved parent = some taken ∧ lower name ∈ taken := by
  induction h with
  | start => cases hx
  | @step done places places' stored place hdone hturn ih =>
    have hi := (List.getElem?_eq_some_iff.1 hx).1
    rw [List.length_append, List.length_singleton] at hi
    rcases Nat.lt_succ_iff_lt_or_eq.1 hi with hlt | rfl
    · rw [List.getElem?_append_left hlt] at hx
      rw [List.take_append_of_le_length hlt.le] at hparent
      obtain ⟨taken, htaken, hmem⟩ := ih hx hparent
      obtain ⟨taken', htaken', hsubset⟩ := hturn.reserved htaken
      exact ⟨taken', htaken', hsubset hmem⟩
    · rw [List.getElem?_concat_length] at hx
      obtain rfl := Option.some.inj hx
      rw [List.take_left, ← hdone.directories_eq] at hparent
      obtain ⟨hcompleted, hname⟩ := hname
      cases hturn with
      | completed hdone => exact absurd hdone (by simp [hcompleted])
      | kept other uri hfile hother huri =>
        obtain rfl : parent = other := Option.some.inj (hparent.symm.trans hother)
        rcases hname with ⟨place, hplace, -⟩ | ⟨-, hdirectory, htarget⟩
        · cases hplace
        · have hfile : stored.isDirectory = false := hdirectory
          have htarget : stored.targetName = some name := htarget
          rw [keepPlace]
          simp only [hfile, Bool.false_eq_true, if_false, htarget, Function.update_self]
          exact ⟨_, rfl, List.mem_cons_self⟩
      | created place documents hfile hother huri hfirst hcreated =>
        obtain rfl : parent = place.parent := Option.some.inj (hparent.symm.trans hother)
        rcases hname with ⟨place', hplace, rfl⟩ | ⟨hplace, -⟩
        · obtain rfl := Option.some.inj hplace
          simp only [Function.update_self]
          exact ⟨_, rfl, List.mem_cons_self⟩
        · cases hplace

/-- A new document has a name that no entry before it takes in the same place. -/
theorem Walked.distinct (h : Walked lower contract treeUri documents done places) {i j : Nat}
    (hij : i < j) {x y : StoredTransferEntry × Option TargetPlace} (hx : done[i]? = some x)
    {name : List Char} (hname : TakesName x name) {place : TargetPlace} (hy : done[j]? = some y)
    (hplace : y.2 = some place)
    (hparent : documentOf (contract.treeDocument treeUri) (storedOf (done.take i))
      (parentPath x.1.manifest.relativePath) = some place.parent) :
    lower name ≠ lower place.name := by
  obtain ⟨before, after, hbefore, hturn⟩ := h.turn_at hy
  have hx' : (done.take j)[i]? = some x := by rw [List.getElem?_take_of_lt hij, hx]
  have htake : (done.take j).take i = done.take i := by
    rw [List.take_take, Nat.min_eq_left hij.le]
  obtain ⟨taken, htaken, hmem⟩ := hbefore.taken hx' hname (by rw [htake]; exact hparent)
  rw [hplace] at hturn
  cases hturn with
  | created place documents hfile hother huri hfirst hcreated =>
    have hfree : lower place.name ∉ names lower contract before place.parent := hfirst.free
    rw [names, htaken] at hfree
    intro heq
    rw [← heq] at hfree
    exact hfree hmem

/-! ### What is stored in the end -/

/-- What `prepare` makes of the entries, given the name of each in its directory. -/
structure PreparedTargets (lower : List Char → List Char) (contract : DocumentsContract σ)
    (root : String) (names : Nat → List Char) (entries entries' : List StoredTransferEntry) :
    Prop where
  length : entries'.length = entries.length
  stays : ∀ (i : Nat) (entry : StoredTransferEntry), entries[i]? = some entry →
    entry.isCompletedFile = true ∨ entry.targetUri.isSome = true → entries'[i]? = some entry
  given : ∀ (i : Nat) (entry : StoredTransferEntry), entries[i]? = some entry →
    entry.isCompletedFile = false → entry.targetUri = none →
    ∃ place : TargetPlace, place.name = names i ∧ Created contract entry place ∧
      documentOf root (entries'.take i) (parentPath entry.manifest.relativePath) =
        some place.parent ∧
      entries'[i]? = some (entry.given (some place))
  distinct : ∀ (i j : Nat) (entry entry' : StoredTransferEntry) (parent : String), i < j →
    entries[i]? = some entry → entry.isCompletedFile = false →
    (entry.targetUri = none ∨ entry.isDirectory = false ∧ entry.targetName = some (names i)) →
    entries[j]? = some entry' → entry'.isCompletedFile = false → entry'.targetUri = none →
    documentOf root (entries'.take i) (parentPath entry.manifest.relativePath) = some parent →
    documentOf root (entries'.take j) (parentPath entry'.manifest.relativePath) = some parent →
    lower (names i) ≠ lower (names j)

def nameAt (entries : List StoredTransferEntry) (given : List (Option TargetPlace)) (i : Nat) :
    List Char :=
  match given[i]? with
  | some (some place) => place.name
  | _ => (entries[i]?.bind (·.targetName)).getD []

theorem storedOf_zip (entries : List StoredTransferEntry) (given : List (Option TargetPlace)) :
    storedOf (entries.zip given) = List.zipWith StoredTransferEntry.given entries given := by
  rw [storedOf, List.zip, List.map_zipWith]

theorem preparedTargets_of_placeEntries {entries : List StoredTransferEntry}
    {given : List (Option TargetPlace)}
    (h : placeEntries lower contract (start contract treeUri documents) entries =
      some (given, places)) :
    PreparedTargets lower contract (contract.treeDocument treeUri) (nameAt entries given) entries
      (List.zipWith StoredTransferEntry.given entries given) := by
  have hwalk : Walked lower contract treeUri documents (entries.zip given) places := by
    have hall := walked_of_placeEntries .start h
    rwa [List.nil_append] at hall
  have hlength := length_placeEntries h
  have hget (i : Nat) (entry : StoredTransferEntry) (hentry : entries[i]? = some entry) :
      ∃ place, given[i]? = some place ∧ (entries.zip given)[i]? = some (entry, place) := by
    have hi := (List.getElem?_eq_some_iff.1 hentry).1
    have hplace := List.getElem?_eq_getElem (hlength ▸ hi)
    exact ⟨_, hplace, List.getElem?_zip_eq_some.2 ⟨hentry, hplace⟩⟩
  have hstored (i : Nat) : (List.zipWith StoredTransferEntry.given entries given).take i =
      storedOf ((entries.zip given).take i) := by
    rw [← storedOf_zip, storedOf, storedOf, List.map_take]
  have hout (i : Nat) (entry : StoredTransferEntry) (place : Option TargetPlace)
      (hx : (entries.zip given)[i]? = some (entry, place)) :
      (List.zipWith StoredTransferEntry.given entries given)[i]? = some (entry.given place) := by
    rw [← storedOf_zip, storedOf, List.getElem?_map, hx]
    rfl
  -- an entry that has no document gets one
  have hnew (i : Nat) (entry : StoredTransferEntry) (hentry : entries[i]? = some entry)
      (hfile : entry.isCompletedFile = false) (huri : entry.targetUri = none) :
      ∃ place : TargetPlace, given[i]? = some (some place) ∧
        (entries.zip given)[i]? = some (entry, some place) ∧ Created contract entry place ∧
        documentOf (contract.treeDocument treeUri) (storedOf ((entries.zip given).take i))
          (parentPath entry.manifest.relativePath) = some place.parent := by
    obtain ⟨place, hplace, hx⟩ := hget i entry hentry
    obtain ⟨before, after, hbefore, hturn⟩ := hwalk.turn_at hx
    cases hturn with
    | completed hdone => exact absurd hdone (by simp [hfile])
    | kept parent uri hfile hparent hkept => exact absurd hkept (by simp [huri])
    | created place documents hfile hparent huri hname hcreated =>
      exact ⟨place, hplace, hx, ⟨_, _, hcreated⟩, by rw [← hbefore.directories_eq, hparent]⟩
  constructor
  · rw [List.length_zipWith, hlength, Nat.min_self]
  · intro i entry hentry hold
    obtain ⟨place, hplace, hx⟩ := hget i entry hentry
    obtain ⟨before, after, hbefore, hturn⟩ := hwalk.turn_at hx
    rw [hout i entry place hx]
    cases hturn with
    | completed hdone => rfl
    | kept parent uri hfile hparent hkept => rfl
    | created place documents hfile hparent huri hname hcreated =>
      have hnone : entry.targetUri = none := huri
      have hopen : entry.isCompletedFile = false := hfile
      rw [hnone, hopen] at hold
      simp at hold
  · intro i entry hentry hfile huri
    obtain ⟨place, hplace, hx, hcreated, hparent⟩ := hnew i entry hentry hfile huri
    refine ⟨place, ?_, hcreated, ?_, hout i entry (some place) hx⟩
    · rw [nameAt, hplace]
    · rw [hstored, hparent]
  · intro i j entry entry' parent hij hentry hfile htakes hentry' hfile' huri' hparent hparent'
    obtain ⟨place', hplace', hy, -, hother⟩ := hnew j entry' hentry' hfile' huri'
    obtain ⟨place, hplace, hx⟩ := hget i entry hentry
    rw [hstored] at hparent hparent'
    obtain rfl : parent = place'.parent := Option.some.inj (hparent'.symm.trans hother)
    have hname' : nameAt entries given j = place'.name := by rw [nameAt, hplace']
    have hname : TakesName (entry, place) (nameAt entries given i) := by
      refine ⟨hfile, ?_⟩
      rw [nameAt, hplace, hentry]
      cases place with
      | some place => exact .inl ⟨place, rfl, rfl⟩
      | none =>
        rcases htakes with huri | ⟨hdirectory, htarget⟩
        · obtain ⟨place, hsome, -⟩ := hnew i entry hentry hfile huri
          rw [hplace] at hsome
          cases hsome
        · refine .inr ⟨rfl, hdirectory, ?_⟩
          rw [nameAt, hplace, hentry] at htarget
          exact htarget
    rw [hname']
    exact hwalk.distinct hij hx hname hy rfl hparent

/-! ### Names that the store takes -/

/-- Every entry has its turn, and the name that a file gets then, its own or the one with the first
number that is free in its directory, is neither blank nor too long. -/
def NamesAllowed (lower : List Char → List Char) (contract : DocumentsContract σ)
    (treeUri : String) (documents : σ) (entries : List StoredTransferEntry) : Prop :=
  ∃ done places, Walked lower contract treeUri documents done places ∧
    done.map Prod.fst = entries ∧
    ∀ (entry : StoredTransferEntry) (place : TargetPlace), (entry, some place) ∈ done →
      entry.isDirectory = false → validTargetName place.name = true

theorem namesAllowed_iff {entries : List StoredTransferEntry} :
    NamesAllowed lower contract treeUri documents entries ↔
      ∃ given last, placeEntries lower contract (start contract treeUri documents) entries =
          some (given, last) ∧
        ∀ (i : Nat) (entry : StoredTransferEntry) (place : TargetPlace),
          entries[i]? = some entry → entry.isDirectory = false →
          given[i]? = some (some place) → validTargetName place.name = true := by
  constructor
  · rintro ⟨done, last, hwalked, rfl, hnames⟩
    refine ⟨done.map Prod.snd, last, placeEntries_of_walked hwalked, ?_⟩
    intro i entry place hentry hfile hplace
    rw [List.getElem?_map, Option.map_eq_some_iff] at hentry hplace
    obtain ⟨x, hx, rfl⟩ := hentry
    obtain ⟨y, hy, hplace⟩ := hplace
    obtain rfl := Option.some.inj (hx.symm.trans hy)
    apply hnames x.1 place _ hfile
    rw [← hplace]
    exact List.mem_of_getElem? hx
  · rintro ⟨given, last, hplaced, hnames⟩
    have hwalked := walked_of_placeEntries .start hplaced
    rw [List.nil_append] at hwalked
    refine ⟨entries.zip given, last, hwalked,
      List.map_fst_zip (length_placeEntries hplaced).ge, ?_⟩
    intro entry place hmem hfile
    obtain ⟨i, hi⟩ := List.mem_iff_getElem?.1 hmem
    obtain ⟨hentry, hplace⟩ := List.getElem?_zip_eq_some.1 hi
    exact hnames i entry place hentry hfile hplace

end Walk

end FlowType
