import FlowType.OutboundOffers
import FlowType.ValidatorAgreement

/-! The offer of a batch that goes to the computer: the manifest that the phone builds of the
selected documents, the offer made of its summary, and the offer that is made again. With the
offers of the other direction: which offers pass the check of the side that receives them. -/
namespace FlowType

namespace Kotlin

def isWhitespace (c : Char) : Bool :=
  (9 ≤ c.toNat && c.toNat ≤ 13) || (0x1c ≤ c.toNat && c.toNat ≤ 0x20) || c.toNat == 0xA0 ||
    c.toNat == 0x1680 || (0x2000 ≤ c.toNat && c.toNat ≤ 0x200A) || c.toNat == 0x2028 ||
    c.toNat == 0x2029 || c.toNat == 0x202F || c.toNat == 0x205F || c.toNat == 0x3000

def trim (text : List Char) : List Char := (text.dropWhile isWhitespace).rdropWhile isWhitespace

end Kotlin

structure DocumentMetadata where
  uri : String
  name : List Char
  size : Option Nat
  modifiedAt : Option Int64 := none
  mimeType : Option String := none

mutual

inductive DocumentTree
  | file (document : DocumentMetadata)
  | directory (uri : String) (name : List Char) (children : DocumentList)
  | unreadable (name : List Char)

inductive DocumentList
  | nil
  | cons (child : DocumentTree) (rest : DocumentList)

end

def DocumentTree.name : DocumentTree → List Char
  | .file document => document.name
  | .directory _ name _ => name
  | .unreadable name => name

inductive DocumentSelection
  | files (documents : List DocumentMetadata)
  | directory (uri : String) (name : List Char) (children : DocumentList)

def safeSegment (value : List Char) : List Char :=
  let segment := Kotlin.trim (value.map fun c => if c = '/' ∨ c = '\\' then '_' else c)
  if segment ≠ [] ∧ segment ≠ ['.'] ∧ segment ≠ ['.', '.'] then segment else "未命名".toList

section Builder
variable (lower : List Char → List Char)

local instance lawfulBEqName : LawfulBEq (List Char) := inferInstance

/-- The first number in brackets that gives a free name, among the next `numbers` ones. -/
def numberedName (names : List (List Char)) (parts : List Char × List Char) :
    Nat → Nat → Option (List Char)
  | 0, _ => none
  | numbers + 1, suffix =>
    let candidate := parts.1 ++ collisionSuffix suffix ++ parts.2
    if lower candidate ∈ names then numberedName names parts numbers (suffix + 1)
    else some candidate

/-- `reserve` of the manifest builder and of the target store: the name that is reserved, and the
names in lower case that are taken then. -/
def reserveName (names : List (List Char)) (desired : List Char) :
    Option (List Char × List (List Char)) :=
  let name := if lower desired ∈ names then
      numberedName lower names (splitExtension desired) (2 ^ 31 - 1) 1
    else some desired
  name.map fun name => (name, lower name :: names)

def fileNames (names : List (List Char)) : List DocumentMetadata → List (List Char)
  | [] => []
  | document :: rest =>
    match reserveName lower names (safeSegment document.name) with
    | some (name, names') => name :: fileNames names' rest
    | none => []

/-- The names at the top of the manifest. -/
def DocumentSelection.topNames : DocumentSelection → List (List Char)
  | .files documents => fileNames lower [] documents
  | .directory _ name _ => [safeSegment name]

variable (stableEntryId : Nat → String → String)

def addDocument (document : DocumentMetadata) (relativePath : List Char)
    (entries : List ManifestEntry) : Option (List ManifestEntry) :=
  document.size.map fun size =>
    entries ++ [{ ordinal := entries.length
                  entryId := stableEntryId entries.length document.uri
                  relativePath
                  kind := .file
                  size
                  modifiedAt := document.modifiedAt.map Int64.toInt
                  mimeType := document.mimeType }]

/-- The documents that are picked one by one have no time of change. -/
def appendFiles : List DocumentMetadata → List (List Char) → List ManifestEntry →
    Option (List ManifestEntry)
  | [], _, entries => some entries
  | document :: rest, names, entries =>
    (reserveName lower names (safeSegment document.name)).bind fun reserved =>
      (addDocument stableEntryId { document with modifiedAt := none } reserved.1 entries).bind
        (appendFiles rest reserved.2)

mutual

/-- A blank MIME type in a directory counts as none. -/
def appendDocument : DocumentTree → List Char → List ManifestEntry → Option (List ManifestEntry)
  | .file document, relativePath, entries =>
    let mimeType := document.mimeType.filter fun mime => !mime.toList.all Kotlin.isWhitespace
    addDocument stableEntryId { document with mimeType } relativePath entries
  | .directory uri _ children, relativePath, entries =>
    appendChildren children relativePath []
      (entries ++ [{ ordinal := entries.length
                     entryId := stableEntryId entries.length uri
                     relativePath
                     kind := .directory }])
  | .unreadable _, _, _ => none

def appendChildren : DocumentList → List Char → List (List Char) → List ManifestEntry →
    Option (List ManifestEntry)
  | .nil, _, _, entries => some entries
  | .cons child rest, relativePath, names, entries =>
    (reserveName lower names (safeSegment child.name)).bind fun reserved =>
      (appendDocument child (relativePath ++ '/' :: reserved.1) entries).bind
        (appendChildren rest relativePath reserved.2)

end

/-- The sequence that `AndroidManifestBuilder` makes, walked to its end. -/
def DocumentSelection.entries : DocumentSelection → Option (List ManifestEntry)
  | .files documents =>
    if documents = [] then none else appendFiles lower stableEntryId documents [] []
  | .directory uri name children =>
    appendDocument lower stableEntryId (.directory uri name children) (safeSegment name) []

/-- `StoredTransferEntry.validate`. A number that is no `Long` has wrapped and is negative. -/
def validateStored (entry : ManifestEntry) : Bool :=
  entry.ordinal ≤ MAX_WIRE_INTEGER && entry.size ≤ MAX_WIRE_INTEGER && Kotlin.validateEntry entry

structure PreparedTransfer where
  roots : List String := []
  fileCount : Nat := 0
  directoryCount : Nat := 0
  totalBytes : Nat := 0
  deriving DecidableEq

/-- One step of `summarize`; the sum of the sizes is exact. -/
def PreparedTransfer.add (prepared : PreparedTransfer) (entry : ManifestEntry) :
    Option PreparedTransfer :=
  if validateStored entry = false then none
  else if MAX_WIRE_INTEGER < prepared.totalBytes + entry.size then none
  else some
    { roots := keepRoot prepared.roots (String.ofList (firstSegment entry.relativePath))
      fileCount := if entry.kind = .file then prepared.fileCount + 1 else prepared.fileCount
      directoryCount :=
        if entry.kind = .file then prepared.directoryCount else prepared.directoryCount + 1
      totalBytes := prepared.totalBytes + entry.size }

def summarize (entries : List ManifestEntry) : Option PreparedTransfer :=
  (entries.foldlM PreparedTransfer.add {}).bind fun prepared =>
    if 0 < prepared.fileCount ∨ 0 < prepared.directoryCount then some prepared else none

def appendStored (stored : List ManifestEntry) (entry : ManifestEntry) :
    Option (List ManifestEntry) :=
  if validateStored entry = true ∧ entry.ordinal = stored.length ∧
      entry.entryId ∉ stored.map ManifestEntry.entryId then some (stored ++ [entry])
  else none

/-- The offer of a new batch and its manifest as it is stored. The documents are walked twice:
`planned` is what is there for the summary, `written` what is there for the manifest. -/
def createTransfer (phoneId batchId : String) (planned written : DocumentSelection) :
    Option (FileOffer × List ManifestEntry) :=
  ((planned.entries lower stableEntryId).bind summarize).bind fun prepared =>
    if Kotlin.validIdentifier batchId MAX_BATCH_ID_BYTES = false ∨
        MAX_WIRE_INTEGER < prepared.fileCount ∨ MAX_WIRE_INTEGER < prepared.directoryCount then none
    else (written.entries lower stableEntryId).bind fun entries =>
      (entries.foldlM appendStored []).bind fun stored =>
        if (entries.filter fun entry => entry.kind = .file).length = prepared.fileCount ∧
            (entries.filter fun entry => entry.kind ≠ .file).length = prepared.directoryCount ∧
            (entries.map ManifestEntry.size).sum = prepared.totalBytes then
          some ({ phoneId
                  batchId
                  direction := .phoneToComputer
                  fileCount := prepared.fileCount
                  directoryCount := prepared.directoryCount
                  totalBytes := prepared.totalBytes
                  roots := prepared.roots }, stored)
        else none

/-- `roots`, for an offer that is made again. -/
def storedRoots (stored : List ManifestEntry) : List String :=
  (((stored.take 256).map fun entry =>
    String.ofList (firstSegment entry.relativePath)).eraseDups).take 8

end Builder

/-! ### Names -/

section Names
variable {lower : List Char → List Char}

theorem safeSegment_pathName (value : List Char) : PathName (safeSegment value) := by
  unfold safeSegment
  extract_lets segment
  split
  · rename_i hkept
    have hreplaced : ∀ c ∈ segment, c ≠ '/' ∧ c ≠ '\\' := by
      intro c hmem
      have hdrop := (List.rdropWhile_prefix _ _).subset hmem
      have hmap := (List.dropWhile_sublist _).subset hdrop
      obtain ⟨d, -, rfl⟩ := List.mem_map.1 hmap
      split
      · decide
      · rename_i hother
        exact not_or.1 hother
    exact ⟨hkept.1, fun hmem => (hreplaced _ hmem).1 rfl, fun hmem => (hreplaced _ hmem).2 rfl,
      hkept.2.1, hkept.2.2⟩
  · exact ⟨by decide, by decide, by decide, by decide, by decide⟩

theorem safeSegment_slash (value : List Char) : '/' ∉ safeSegment value :=
  (safeSegment_pathName value).slash

def numbered (desired : List Char) (number : Nat) : List Char :=
  (splitExtension desired).1 ++ collisionSuffix number ++ (splitExtension desired).2

inductive FirstFree (lower : List Char → List Char) (taken : List Char → Prop)
    (desired : List Char) : List Char → Prop
  | own (hfree : ¬taken (lower desired)) : FirstFree lower taken desired desired
  | number (number : Nat) (hown : taken (lower desired)) (hpositive : 0 < number)
      (hlarge : number < 2 ^ 31) (hfree : ¬taken (lower (numbered desired number)))
      (hfirst : ∀ n, 0 < n → n < number → taken (lower (numbered desired n))) :
      FirstFree lower taken desired (numbered desired number)

theorem FirstFree.free {taken : List Char → Prop} {desired name : List Char}
    (h : FirstFree lower taken desired name) : ¬taken (lower name) := by
  cases h with
  | own hfree => exact hfree
  | number number hown hpositive hlarge hfree hfirst => exact hfree

theorem numberedName_iff {names : List (List Char)} {desired name : List Char}
    {numbers suffix : Nat} :
    numberedName lower names (splitExtension desired) numbers suffix = some name ↔
      ∃ number, suffix ≤ number ∧ number < suffix + numbers ∧ name = numbered desired number ∧
        lower name ∉ names ∧
        ∀ n, suffix ≤ n → n < number → lower (numbered desired n) ∈ names := by
  induction numbers generalizing suffix with
  | zero =>
    constructor
    · intro h
      cases h
    · rintro ⟨number, hlow, hhigh, -⟩
      omega
  | succ numbers ih =>
    rw [numberedName]
    change (if lower (numbered desired suffix) ∈ names then _ else some (numbered desired suffix)) =
      some name ↔ _
    split_ifs with hused
    · rw [ih]
      constructor
      · rintro ⟨number, hlow, hhigh, rfl, hfree, hfirst⟩
        refine ⟨number, by omega, by omega, rfl, hfree, ?_⟩
        intro n hn hlt
        rcases hn.eq_or_lt with rfl | hlater
        · exact hused
        · exact hfirst n hlater hlt
      · rintro ⟨number, hlow, hhigh, rfl, hfree, hfirst⟩
        have hne : suffix ≠ number := by
          rintro rfl
          exact hfree hused
        exact ⟨number, by omega, by omega, rfl, hfree, fun n hn => hfirst n (by omega)⟩
    · constructor
      · intro h
        obtain rfl := Option.some.inj h
        exact ⟨suffix, le_rfl, by omega, rfl, hused, fun n hn hlt => by omega⟩
      · rintro ⟨number, hlow, hhigh, rfl, hfree, hfirst⟩
        obtain rfl : suffix = number := by
          by_contra hne
          exact hused (hfirst suffix le_rfl (by omega))
        rfl

theorem reserveName_iff {names names' : List (List Char)} {desired name : List Char} :
    reserveName lower names desired = some (name, names') ↔
      FirstFree lower (· ∈ names) desired name ∧ names' = lower name :: names := by
  have hsome : reserveName lower names desired = some (name, names') ↔
      (if lower desired ∈ names then
        numberedName lower names (splitExtension desired) (2 ^ 31 - 1) 1
        else some desired) = some name ∧ names' = lower name :: names := by
    rw [reserveName, Option.map_eq_some_iff]
    constructor
    · rintro ⟨found, hfound, ⟨rfl, rfl⟩⟩
      exact ⟨hfound, rfl⟩
    · rintro ⟨hfound, rfl⟩
      exact ⟨name, hfound, rfl⟩
  rw [hsome]
  apply and_congr_left
  intro _
  split_ifs with hused
  · rw [numberedName_iff]
    constructor
    · rintro ⟨number, hlow, hhigh, rfl, hfree, hfirst⟩
      exact .number number hused (by omega) (by omega) hfree hfirst
    · intro h
      cases h with
      | own hfree => exact absurd hused hfree
      | number number _ hpositive hlarge hfree hfirst =>
        exact ⟨number, hpositive, by omega, rfl, hfree, hfirst⟩
  · constructor
    · intro h
      obtain rfl := Option.some.inj h
      exact .own hused
    · intro h
      cases h with
      | own hfree => rfl
      | number number hown => exact absurd hown hused

/-- A name with a number between its parts is still a name. -/
theorem pathName_numbered {desired : List Char} (h : PathName desired) (number : Nat) :
    PathName (numbered desired number) := by
  unfold numbered
  have hopen : '(' ∈ collisionSuffix number := by simp [collisionSuffix]
  have hparts : ∀ c, c ∉ desired → c ∉ collisionSuffix number →
      c ∉ (splitExtension desired).1 ++ collisionSuffix number ++ (splitExtension desired).2 := by
    intro c hc hsuffix hmem
    rw [← splitExtension_append desired, List.mem_append, not_or] at hc
    simp only [List.mem_append] at hmem
    tauto
  have hplain : ∀ c, plainChar c = false → c ∉ collisionSuffix number := by
    intro c hc hmem
    rw [plainChar_collisionSuffix number c hmem] at hc
    cases hc
  have hmem : '(' ∈
      (splitExtension desired).1 ++ collisionSuffix number ++ (splitExtension desired).2 := by
    simp [hopen]
  refine ⟨List.ne_nil_of_mem hmem, hparts _ h.slash (hplain _ (by decide)),
    hparts _ h.backslash (hplain _ (by decide)), ?_, ?_⟩
  · intro heq
    rw [heq] at hmem
    exact absurd hmem (by decide)
  · intro heq
    rw [heq] at hmem
    exact absurd hmem (by decide)

theorem reserveName_spec {names names' : List (List Char)} {desired name : List Char}
    (hdesired : PathName desired) (h : reserveName lower names desired = some (name, names')) :
    PathName name ∧ lower name ∉ names ∧ names' = lower name :: names := by
  obtain ⟨hname, rfl⟩ := reserveName_iff.1 h
  refine ⟨?_, hname.free, rfl⟩
  cases hname with
  | own hfree => exact hdesired
  | number number => exact pathName_numbered hdesired number

theorem fileNames_spec (documents : List DocumentMetadata) (names : List (List Char)) :
    (∀ name ∈ fileNames lower names documents, '/' ∉ name ∧ lower name ∉ names) ∧
      (fileNames lower names documents).Nodup := by
  induction documents generalizing names with
  | nil => exact ⟨by simp [fileNames], List.nodup_nil⟩
  | cons document rest ih =>
    rw [fileNames]
    split
    · rename_i name names' hreserve
      obtain ⟨hpath, hfree, rfl⟩ := reserveName_spec (safeSegment_pathName _) hreserve
      obtain ⟨hnames, hnodup⟩ := ih (lower name :: names)
      constructor
      · intro other hother
        rcases List.mem_cons.1 hother with rfl | hrest
        · exact ⟨hpath.slash, hfree⟩
        · obtain ⟨hplain, hnew⟩ := hnames other hrest
          exact ⟨hplain, fun hmem => hnew (List.mem_cons_of_mem _ hmem)⟩
      · refine List.nodup_cons.2 ⟨?_, hnodup⟩
        intro hmem
        exact (hnames name hmem).2 List.mem_cons_self
    · exact ⟨by simp, List.nodup_nil⟩

end Names

/-! ### Entries -/

/-- What the manifest says of the place of an entry. -/
def rootOf (entry : ManifestEntry) : String := String.ofList (firstSegment entry.relativePath)

/-- The time of change of an entry is a `Long`. -/
def LongTime (entry : ManifestEntry) : Prop := ∀ time ∈ entry.modifiedAt, time.natAbs ≤ 2 ^ 63

section Entries
variable {lower : List Char → List Char} {stableEntryId : Nat → String → String}

theorem natAbs_toInt_le (n : Int64) : n.toInt.natAbs ≤ 2 ^ 63 := by
  have hlow := n.le_toInt
  have hhigh := n.toInt_lt
  omega

theorem addDocument_spec {document : DocumentMetadata} {path : List Char}
    {entries entries' : List ManifestEntry}
    (h : addDocument stableEntryId document path entries = some entries') :
    ∃ entry, entries' = entries ++ [entry] ∧ entry.relativePath = path ∧ LongTime entry := by
  obtain ⟨size, -, rfl⟩ := Option.map_eq_some_iff.1 h
  refine ⟨_, rfl, rfl, ?_⟩
  intro time htime
  obtain ⟨n, -, rfl⟩ := Option.map_eq_some_iff.1 htime
  exact natAbs_toInt_le n

theorem appendFiles_spec {documents : List DocumentMetadata} {names : List (List Char)}
    {entries entries' : List ManifestEntry}
    (h : appendFiles lower stableEntryId documents names entries = some entries') :
    ∃ added, entries' = entries ++ added ∧ (∀ entry ∈ added, LongTime entry) ∧
      added.map rootOf = (fileNames lower names documents).map String.ofList := by
  induction documents generalizing names entries with
  | nil =>
    obtain rfl := Option.some.inj h
    exact ⟨[], by simp [fileNames]⟩
  | cons document rest ih =>
    rw [appendFiles] at h
    obtain ⟨⟨name, names'⟩, hreserve, h⟩ := Option.bind_eq_some_iff.1 h
    obtain ⟨entries₁, hadd, hrest⟩ := Option.bind_eq_some_iff.1 h
    obtain ⟨entry, rfl, hpath, hlong⟩ := addDocument_spec hadd
    obtain ⟨added, rfl, hadded, hnames⟩ := ih hrest
    have hslash := (reserveName_spec (safeSegment_pathName _) hreserve).1.slash
    have hroot : rootOf entry = String.ofList name := by
      rw [rootOf, hpath, firstSegment_of_not_mem hslash]
    refine ⟨entry :: added, by simp, ?_, ?_⟩
    · intro other hother
      rcases List.mem_cons.1 hother with rfl | hmem
      · exact hlong
      · exact hadded other hmem
    · rw [fileNames, hreserve, List.map_cons, List.map_cons, hroot, hnames]

mutual

theorem appendDocument_spec (tree : DocumentTree) {path top : List Char}
    {entries entries' : List ManifestEntry} (htop : firstSegment path = top)
    (h : appendDocument lower stableEntryId tree path entries = some entries') :
    ∃ entry added, entries' = entries ++ entry :: added ∧ ∀ other ∈ entry :: added,
      LongTime other ∧ firstSegment other.relativePath = top := by
  cases tree with
  | unreadable name => cases h
  | file document =>
    rw [appendDocument] at h
    obtain ⟨entry, rfl, hpath, hlong⟩ := addDocument_spec h
    refine ⟨entry, [], rfl, ?_⟩
    intro other hother
    rw [List.mem_singleton.1 hother, hpath]
    exact ⟨hlong, htop⟩
  | directory uri name children =>
    rw [appendDocument] at h
    obtain ⟨added, rfl, hadded⟩ := appendChildren_spec children htop h
    refine ⟨_, added, List.append_assoc _ _ _, ?_⟩
    intro other hother
    rcases List.mem_cons.1 hother with rfl | hmem
    · refine ⟨?_, htop⟩
      intro time htime
      cases htime
    · exact hadded other hmem

theorem appendChildren_spec (children : DocumentList) {path top : List Char}
    {names : List (List Char)} {entries entries' : List ManifestEntry}
    (htop : firstSegment path = top)
    (h : appendChildren lower stableEntryId children path names entries = some entries') :
    ∃ added, entries' = entries ++ added ∧ ∀ other ∈ added,
      LongTime other ∧ firstSegment other.relativePath = top := by
  cases children with
  | nil =>
    rw [appendChildren] at h
    obtain rfl := Option.some.inj h
    exact ⟨[], by simp⟩
  | cons child rest =>
    rw [appendChildren] at h
    obtain ⟨⟨name, names'⟩, -, h⟩ := Option.bind_eq_some_iff.1 h
    obtain ⟨entries₁, hchild, hrest⟩ := Option.bind_eq_some_iff.1 h
    have hpath : firstSegment (path ++ '/' :: name) = top :=
      (firstSegment_child path name).trans htop
    obtain ⟨entry, below, rfl, hbelow⟩ := appendDocument_spec child hpath hchild
    obtain ⟨added, rfl, hadded⟩ := appendChildren_spec rest htop hrest
    refine ⟨entry :: below ++ added, List.append_assoc _ _ _, ?_⟩
    intro other hother
    rcases List.mem_append.1 hother with hmem | hmem
    · exact hbelow other hmem
    · exact hadded other hmem

end

/-! ### Roots -/

theorem foldl_keepRoot_nodup {done roots : List String} (h : (done ++ roots).Nodup) :
    roots.foldl keepRoot (done.take 8) = (done ++ roots).take 8 := by
  induction roots generalizing done with
  | nil => simp
  | cons root roots ih =>
    have hnew : root ∉ done := by
      intro hmem
      exact List.disjoint_of_nodup_append h hmem List.mem_cons_self
    have hkept : keepRoot (done.take 8) root = (done ++ [root]).take 8 :=
      @foldl_keepRoot_block _ [root] _ (by simp) (by simp) hnew
    rw [List.append_cons] at h ⊢
    rw [List.foldl_cons]
    rw [hkept]
    exact ih h

theorem eraseDups_of_forall_eq {roots : List String} {top : String} (hne : roots ≠ [])
    (h : ∀ root ∈ roots, root = top) : roots.eraseDups = [top] := by
  obtain ⟨root, rest, rfl⟩ := List.exists_cons_of_ne_nil hne
  have hroot : root = top := h root List.mem_cons_self
  have hnone : (rest.filter fun other => !other == root) = [] := by
    rw [List.filter_eq_nil_iff]
    intro other hother
    simp [h other (List.mem_cons_of_mem _ hother), hroot]
  rw [List.eraseDups_cons, hnone, hroot]
  rfl

theorem mem_foldl_keepRoot {roots kept : List String} {root : String}
    (h : root ∈ roots.foldl keepRoot kept) : root ∈ kept ∨ root ∈ roots := by
  induction roots generalizing kept with
  | nil => exact .inl h
  | cons other roots ih =>
    rcases ih h with hkept | hmem
    · unfold keepRoot at hkept
      split at hkept
      · rcases List.mem_append.1 hkept with hold | hlast
        · exact .inl hold
        · exact .inr (List.mem_singleton.1 hlast ▸ List.mem_cons_self)
      · exact .inl hkept
    · exact .inr (List.mem_cons_of_mem _ hmem)

/-- The summary that is taken while the manifest is walked and the one that is taken from the
store are both the first eight names at the top. -/
theorem DocumentSelection.entries_spec {selection : DocumentSelection}
    {entries : List ManifestEntry}
    (h : selection.entries lower stableEntryId = some entries) :
    (∀ entry ∈ entries, LongTime entry) ∧
      (entries.map rootOf).foldl keepRoot [] =
        ((selection.topNames lower).map String.ofList).take 8 ∧
      storedRoots entries = ((selection.topNames lower).map String.ofList).take 8 := by
  cases selection with
  | files documents =>
    rw [DocumentSelection.entries] at h
    split_ifs at h with hempty
    obtain ⟨added, hadded, hlong, hroots⟩ := appendFiles_spec h
    rw [List.nil_append] at hadded
    subst hadded
    have hnodup : ((fileNames lower [] documents).map String.ofList).Nodup :=
      (fileNames_spec documents []).2.map fun _ _ heq => String.ofList_inj.1 heq
    refine ⟨hlong, ?_, ?_⟩
    · rw [hroots]
      exact @foldl_keepRoot_nodup [] _ hnodup
    · show ((((entries.take 256).map rootOf)).eraseDups).take 8 = _
      rw [List.map_take, hroots, eraseDups_of_nodup (hnodup.sublist (List.take_sublist _ _)),
        List.take_take]
      rfl
  | directory uri name children =>
    rw [DocumentSelection.entries] at h
    have htop : firstSegment (safeSegment name) = safeSegment name :=
      firstSegment_of_not_mem (safeSegment_slash name)
    obtain ⟨entry, added, rfl, hall⟩ := appendDocument_spec _ htop h
    rw [List.nil_append]
    have hroots : ∀ root ∈ (entry :: added).map rootOf,
        root = String.ofList (safeSegment name) := by
      intro root hroot
      obtain ⟨other, hother, rfl⟩ := List.mem_map.1 hroot
      rw [rootOf, (hall other hother).2]
    refine ⟨fun other hother => (hall other hother).1, ?_, ?_⟩
    · exact @foldl_keepRoot_block [] _ _ (by simp) hroots (by simp)
    · show ((((entry :: added).take 256).map rootOf).eraseDups).take 8 = _
      rw [List.map_take, eraseDups_of_forall_eq (by simp) fun root hroot =>
        hroots root (List.mem_of_mem_take hroot)]
      rfl

end Entries

/-! ### The offer and the manifest of a batch -/

section Transfer
variable {lower : List Char → List Char} {stableEntryId : Nat → String → String}

theorem summarize_spec {entries : List ManifestEntry} {prepared : PreparedTransfer}
    (h : summarize entries = some prepared) :
    (∀ entry ∈ entries, validateStored entry = true) ∧
      prepared.roots = (entries.map rootOf).foldl keepRoot [] ∧
      prepared.totalBytes ≤ MAX_WIRE_INTEGER ∧
      (0 < prepared.fileCount ∨ 0 < prepared.directoryCount) := by
  have hwalk : ∀ (entries : List ManifestEntry) (p p' : PreparedTransfer),
      p.totalBytes ≤ MAX_WIRE_INTEGER → entries.foldlM PreparedTransfer.add p = some p' →
      (∀ entry ∈ entries, validateStored entry = true) ∧
        p'.roots = (entries.map rootOf).foldl keepRoot p.roots ∧
        p'.totalBytes ≤ MAX_WIRE_INTEGER := by
    intro entries
    induction entries with
    | nil =>
      intro p p' hbytes hp
      obtain rfl := Option.some.inj hp
      exact ⟨by simp, rfl, hbytes⟩
    | cons entry entries ih =>
      intro p p' hbytes hp
      rw [List.foldlM_cons] at hp
      obtain ⟨p₁, hadd, hrest⟩ := Option.bind_eq_some_iff.1 hp
      rw [PreparedTransfer.add] at hadd
      split at hadd
      · cases hadd
      · rename_i hvalid
        split at hadd
        · cases hadd
        · rename_i hsum
          obtain rfl := Option.some.inj hadd
          obtain ⟨hall, hroots, htotal⟩ := ih _ _ (not_lt.1 hsum) hrest
          refine ⟨?_, hroots, htotal⟩
          intro other hother
          rcases List.mem_cons.1 hother with rfl | hmem
          · simpa using hvalid
          · exact hall other hmem
  obtain ⟨p, hp, h⟩ := Option.bind_eq_some_iff.1 h
  split_ifs at h with hcount
  obtain rfl := Option.some.inj h
  obtain ⟨hall, hroots, htotal⟩ := hwalk entries {} p (Nat.zero_le _) hp
  exact ⟨hall, hroots, htotal, hcount⟩

theorem appendStored_spec {entries stored stored' : List ManifestEntry}
    (h : entries.foldlM appendStored stored = some stored') :
    stored' = stored ++ entries ∧ ∀ entry ∈ entries, validateStored entry = true := by
  induction entries generalizing stored with
  | nil =>
    obtain rfl := Option.some.inj h
    exact ⟨by simp, by simp⟩
  | cons entry entries ih =>
    rw [List.foldlM_cons] at h
    obtain ⟨stored₁, happend, hrest⟩ := Option.bind_eq_some_iff.1 h
    rw [appendStored] at happend
    split_ifs at happend with hvalid
    obtain rfl := Option.some.inj happend
    obtain ⟨rfl, hall⟩ := ih hrest
    refine ⟨by simp, ?_⟩
    intro other hother
    rcases List.mem_cons.1 hother with rfl | hmem
    · exact hvalid.1
    · exact hall other hmem

/-- The root of a path that is in order is a name without control characters. -/
theorem firstSegment_of_valid {path : List Char} (h : validateRelativePath path = true) :
    firstSegment path ≠ [] ∧ (firstSegment path).any isControlChar = false := by
  simp only [validateRelativePath, Bool.and_eq_true, decide_eq_true_eq, Bool.not_eq_true',
    ne_eq] at h
  obtain ⟨⟨⟨⟨⟨⟨⟨hne, -⟩, hhead⟩, -⟩, -⟩, hcontrol⟩, -⟩, -⟩ := h
  constructor
  · obtain ⟨c, rest, rfl⟩ := List.exists_cons_of_ne_nil hne
    have hc : c ≠ '/' := by simpa using hhead
    rw [firstSegment, List.takeWhile_cons_of_pos (by simpa using hc)]
    exact List.cons_ne_nil _ _
  · rw [List.any_eq_false] at hcontrol ⊢
    intro c hc
    exact hcontrol c ((List.takeWhile_prefix _).subset hc)

theorem names_of_roots {entries : List ManifestEntry} {names : List (List Char)}
    (hvalid : ∀ entry ∈ entries, validateStored entry = true)
    (hroots : (entries.map rootOf).foldl keepRoot [] = (names.map String.ofList).take 8) :
    ∀ name ∈ names.take 8, name ≠ [] ∧ name.any isControlChar = false := by
  intro name hname
  have hmem : String.ofList name ∈ (entries.map rootOf).foldl keepRoot [] := by
    rw [hroots, ← List.map_take]
    exact List.mem_map_of_mem hname
  rcases mem_foldl_keepRoot hmem with hnil | hroot
  · cases hnil
  · obtain ⟨entry, hentry, heq⟩ := List.mem_map.1 hroot
    have hstored := hvalid entry hentry
    simp only [validateStored, Kotlin.validateEntry, Bool.and_eq_true,
      Kotlin.validateRelativeTransferPath_eq] at hstored
    have hpath : validateRelativePath entry.relativePath = true := hstored.2.1.1.1.1.2
    rw [← String.ofList_inj.1 heq]
    exact firstSegment_of_valid hpath

/-- An offer that is in order but for its roots, which are the first eight of some names, passes
the check of Windows exactly if these are short. -/
theorem FileOffer.validate_iff_short {offer : FileOffer} {phoneId : String}
    {names : List (List Char)} (hother : ({ offer with roots := [] }).validate phoneId = true)
    (hroots : offer.roots = (names.map String.ofList).take 8)
    (hnames : ∀ name ∈ names.take 8, name ≠ [] ∧ name.any isControlChar = false) :
    offer.validate phoneId = true ↔
      ∀ name ∈ names.take 8, utf8Length name ≤ MAX_ROOT_SUMMARY_BYTES := by
  have hcount : ((names.take 8).map String.ofList).length ≤ MAX_ROOT_SUMMARIES := by
    rw [List.length_map, List.length_take]
    exact Nat.min_le_left _ _
  simp only [validate, Bool.and_eq_true, decide_eq_true_eq, List.all_nil] at hother
  rw [← List.map_take] at hroots
  simp only [validate, Bool.and_eq_true, decide_eq_true_eq, hother, true_and, hroots, hcount,
    List.all_map, List.all_eq_true, Function.comp_apply, utf8ByteSize_eq, String.toList_ofList]
  constructor
  · intro h name hname
    exact (h name hname).1.2
  · intro h name hname
    obtain ⟨hne, hcontrol⟩ := hnames name hname
    have hnonempty : String.ofList name ≠ "" := fun hempty =>
      hne (String.ofList_inj.1 (hempty.trans String.ofList_nil.symm))
    exact ⟨⟨hnonempty, h name hname⟩, by simp [hcontrol]⟩

/-- `BindingStore.phoneId`: a SHA-256 in hexadecimal or a UUID. -/
structure PhoneId where
  value : String
  valid : validIdentifier value MAX_PHONE_ID_BYTES = true

/-- What a batch for the computer is made of. -/
theorem createTransfer_spec {phone : PhoneId} {batchId : String}
    {planned written : DocumentSelection} {offer : FileOffer} {stored : List ManifestEntry}
    (h : createTransfer lower stableEntryId phone.value batchId planned written =
      some (offer, stored)) :
    (offer.validate phone.value = true ↔
        ∀ name ∈ (planned.topNames lower).take 8, utf8Length name ≤ MAX_ROOT_SUMMARY_BYTES) ∧
      (({ offer with roots := storedRoots stored }).validate phone.value = true ↔
        ∀ name ∈ (written.topNames lower).take 8, utf8Length name ≤ MAX_ROOT_SUMMARY_BYTES) ∧
      ∀ entry ∈ stored, validateStored entry = true ∧ LongTime entry := by
  obtain ⟨prepared, hprepared, h⟩ := Option.bind_eq_some_iff.1 h
  obtain ⟨entries, hentries, hsummary⟩ := Option.bind_eq_some_iff.1 hprepared
  split_ifs at h with hbatch
  obtain ⟨entries', hwritten, h⟩ := Option.bind_eq_some_iff.1 h
  obtain ⟨stored', hstored, h⟩ := Option.bind_eq_some_iff.1 h
  split_ifs at h with hsame
  obtain ⟨hoffer, rfl⟩ := Prod.mk.inj (Option.some.inj h)
  obtain ⟨hvalid, hroots, hbytes, hcount⟩ := summarize_spec hsummary
  obtain ⟨-, htop, -⟩ := DocumentSelection.entries_spec hentries
  obtain ⟨hall, hvalid'⟩ := appendStored_spec hstored
  rw [List.nil_append] at hall
  subst hall
  obtain ⟨hlong, htop', hagain⟩ := DocumentSelection.entries_spec hwritten
  rw [not_or, not_or, Bool.not_eq_false, Kotlin.validIdentifier_eq, not_lt, not_lt] at hbatch
  obtain ⟨hid, hfiles, hdirectories⟩ := hbatch
  have hsome : ¬(prepared.fileCount = 0 ∧ prepared.directoryCount = 0) := by omega
  have hother : ({ offer with roots := [] }).validate phone.value = true := by
    subst hoffer
    simp [FileOffer.validate, validVersions, phone.valid, hid, hfiles, hdirectories, hbytes]
    omega
  have hoffered : offer.roots = ((planned.topNames lower).map String.ofList).take 8 := by
    subst hoffer
    exact hroots.trans htop
  refine ⟨FileOffer.validate_iff_short hother hoffered (names_of_roots hvalid htop), ?_, ?_⟩
  · exact FileOffer.validate_iff_short hother hagain (names_of_roots hvalid' htop')
  · intro entry hentry
    exact ⟨hvalid' entry hentry, hlong entry hentry⟩

end Transfer

/-! ### Which offers are accepted -/

theorem PlainName.no_control {name : List Char} (h : PlainName name) :
    name ≠ [] ∧ name.any isControlChar = false := by
  refine ⟨h.nonempty, ?_⟩
  rw [List.any_eq_false]
  intro c hc hcontrol
  have hplain := h.chars c hc
  simp [plainChar, hcontrol] at hplain

section Outbound
variable {lower : List Char → List Char} {phoneId : String} {roots : List SelectedRoot}
variable {offer : FileOffer} {stored : StoredBatch} {entries : List ManifestEntry}

theorem OutboundBatch.offer_accepted
    (h : OutboundBatch lower serdeLineLength phoneId roots offer stored entries) :
    Kotlin.validateOffer offer phoneId = true ↔
      ∀ name ∈ (wireNames lower (.new lower []) roots).take 8,
        utf8Length name ≤ MAX_ROOT_SUMMARY_BYTES := by
  have hrecord := h.record
  simp only [BatchRecord.validate, Bool.and_eq_true, decide_eq_true_eq] at hrecord
  obtain ⟨⟨⟨⟨⟨⟨hid, hphone⟩, hcount⟩, hfiles⟩, hdirectories⟩, hbytes⟩, -⟩ := hrecord
  rw [h.phone] at hphone
  have hnames : ∀ name ∈ (wireNames lower (.new lower []) roots).take 8,
      name ≠ [] ∧ name.any isControlChar = false := by
    intro name hname
    exact (h.names.plain name (List.mem_of_mem_take hname)).no_control
  have hroots : offer.roots =
      ((wireNames lower (.new lower []) roots).map String.ofList).take 8 := by
    rw [h.offer]
    rfl
  have hother : ({ offer with roots := [] }).validate phoneId = true := by
    rw [h.offer]
    simp [FileOffer.ofBatch, FileOffer.validate, validVersions, h.phone, hphone, hid, hfiles,
      hdirectories, hbytes]
    simpa using hcount
  have heq : Kotlin.validateOffer offer phoneId = offer.validate phoneId := by
    apply Kotlin.validateOffer_eq
    · rw [h.offer]
      exact hfiles
    · rw [h.offer]
      exact hdirectories
    · rw [h.offer]
      exact hbytes
  rw [heq]
  exact FileOffer.validate_iff_short hother hroots hnames

theorem OutboundBatch.entry_accepted
    (h : OutboundBatch lower serdeLineLength phoneId roots offer stored entries)
    {entry : ManifestEntry} (hentry : entry ∈ entries) : Kotlin.validateEntry entry = true := by
  obtain ⟨i, hi⟩ := List.mem_iff_getElem?.1 hentry
  have hvalid := (h.written.ordered i entry hi).2
  have hrange : entry.InRange := by
    have hfields := hvalid
    simp only [ManifestEntry.validate, Bool.and_eq_true, decide_eq_true_eq] at hfields
    obtain ⟨⟨⟨⟨⟨⟨⟨hordinal, hsize⟩, -⟩, -⟩, -⟩, -⟩, -⟩, -⟩ := hfields
    exact ⟨hordinal, hsize, h.written.modified entry hentry⟩
  refine ((entries_agree_iff hrange).2 ?_).2 hvalid
  rintro ⟨-, mime, hmime, -⟩
  rw [h.written.untyped entry hentry] at hmime
  cases hmime

end Outbound

/-- Windows refuses an entry of the phone's store exactly for a long MIME type. -/
theorem stored_accepted_iff {entry : ManifestEntry} (hstored : validateStored entry = true)
    (hlong : LongTime entry) : entry.validate serdeLineLength = true ↔
      ∀ mime ∈ entry.mimeType, mime.utf8ByteSize ≤ 255 := by
  simp only [validateStored, Bool.and_eq_true, decide_eq_true_eq] at hstored
  obtain ⟨⟨hordinal, hsize⟩, haccepted⟩ := hstored
  have hrange : entry.InRange := ⟨hordinal, hsize, hlong⟩
  have hagree := entries_agree_iff hrange
  obtain ⟨hfields, hmimes⟩ := (Kotlin.validateEntry_iff hrange).1 haccepted
  constructor
  · intro hvalid mime hmime
    by_contra hwide
    have htype := hmimes
    simp only [validMimeType, Option.mem_def.1 hmime, Option.all_some, Bool.and_eq_true,
      decide_eq_true_eq, Bool.not_eq_true'] at htype
    exact hagree.1 (iff_of_true haccepted hvalid)
      ⟨hfields, mime, hmime, not_le.1 hwide, htype.1.2, htype.2⟩
  · intro hshort
    refine (hagree.2 ?_).1 haccepted
    rintro ⟨-, mime, hmime, hwide, -⟩
    exact absurd (hshort mime hmime) (not_le.2 hwide)

/-- An offer passes the check of the other side exactly if the first eight names at the top have
at most 255 bytes; the offer that is made again is as good as the first. The entries that come
from the computer all pass, those from the phone if their MIME types are short. -/
theorem built_offers_accepted (lower : List Char → List Char) :
    (∀ entryId recoverable phoneId batchId now roots offer stored,
      createOutboundOffer lower serdeLineLength entryId recoverable phoneId batchId now roots =
        some (offer, stored) →
      (Kotlin.validateOffer offer phoneId = true ↔
        ∀ name ∈ (wireNames lower (.new lower []) roots).take 8,
          utf8Length name ≤ MAX_ROOT_SUMMARY_BYTES) ∧
      (∀ state updatedAt progress, pendingOutboundOffers serdeLineLength
        [{ stored with state, updatedAt, progress }] phoneId = [offer]) ∧
      ∃ entries, stored.manifest = some entries ∧
        ∀ entry ∈ entries, Kotlin.validateEntry entry = true) ∧
    ∀ stableEntryId (phone : PhoneId) batchId planned written offer stored,
      createTransfer lower stableEntryId phone.value batchId planned written =
        some (offer, stored) →
      (offer.validate phone.value = true ↔
        ∀ name ∈ (planned.topNames lower).take 8, utf8Length name ≤ MAX_ROOT_SUMMARY_BYTES) ∧
      (({ offer with roots := storedRoots stored }).validate phone.value = true ↔
        ∀ name ∈ (written.topNames lower).take 8, utf8Length name ≤ MAX_ROOT_SUMMARY_BYTES) ∧
      ∀ entry ∈ stored, (entry.validate serdeLineLength = true ↔
        ∀ mime ∈ entry.mimeType, mime.utf8ByteSize ≤ 255) := by
  constructor
  · intro entryId recoverable phoneId batchId now roots offer stored h
    obtain ⟨entries, hbatch⟩ := createOutboundOffer_spec h
    exact ⟨hbatch.offer_accepted, hbatch.pending, entries, hbatch.manifest,
      fun entry hentry => hbatch.entry_accepted hentry⟩
  · intro stableEntryId phone batchId planned written offer stored h
    obtain ⟨hoffer, hagain, hentries⟩ := createTransfer_spec h
    refine ⟨hoffer, hagain, ?_⟩
    intro entry hentry
    obtain ⟨hstored, hlong⟩ := hentries entry hentry
    exact stored_accepted_iff hstored hlong

/-- The entry of a file with one byte. -/
def singleEntry (name : List Char) : ManifestEntry :=
  { ordinal := 0, entryId := "e", relativePath := name, kind := .file, size := 1 }

theorem single_file_outbound {lower : List Char → List Char} {lineLength : ManifestEntry → Nat}
    {phoneId batchId : String} {name : List Char} (hbase : sanitizeWindowsSegment name = name)
    (hpath : validateRelativePath name = true)
    (hvalid : (singleEntry name).validate lineLength = true)
    (hid : validIdentifier batchId MAX_BATCH_ID_BYTES = true)
    (hphone : validIdentifier phoneId MAX_PHONE_ID_BYTES = true) :
    ∃ made, createOutboundOffer lower lineLength (fun _ => "e") [] phoneId batchId 0
      [⟨some name, .file 1 none, .file 1 none⟩] = some made := by
  have hordinal : (singleEntry name).ordinal = 0 := rfl
  have hkind : (singleEntry name).kind = .file := rfl
  have hsize : (singleEntry name).size = 1 := rfl
  have hentry : outboundEntry (fun _ => "e") 0 name .file 1 none = singleEntry name := rfl
  have hplan : prepareOutboundPlan lower [⟨some name, .file 1 none, .file 1 none⟩] =
      some { rootNames := ⟨[lower name]⟩
             roots := [(⟨some name, .file 1 none, .file 1 none⟩, name)]
             stats := { fileCount := 1, totalBytes := 1 } } := by
    simp [prepareOutboundPlan, OutboundPlan.addRoot, WindowsNameReservation.reserve,
      WindowsNameReservation.new, hbase, countOutbound, checkedAdd, MAX_WIRE_INTEGER]
  simp [createOutboundOffer, hplan, BatchRecord.new, BatchRecord.validate, hid, hphone,
    writeOutbound, appendOutbound, hpath, OutboundStats.count, checkedAdd, hentry,
    ManifestWriter.append, hvalid, ManifestWriter.finish, hordinal, hkind, hsize,
    MAX_WIRE_INTEGER]

theorem single_file_transfer {lower : List Char → List Char} {phoneId batchId : String}
    {name : List Char} (hsegment : safeSegment name = name)
    (hstored : validateStored (singleEntry name) = true)
    (hid : validIdentifier batchId MAX_BATCH_ID_BYTES = true) :
    ∃ made, createTransfer lower (fun _ _ => "e") phoneId batchId
      (.files [{ uri := "u", name, size := some 1 }])
      (.files [{ uri := "u", name, size := some 1 }]) = some made := by
  have hordinal : (singleEntry name).ordinal = 0 := rfl
  have hkind : (singleEntry name).kind = .file := rfl
  have hsize : (singleEntry name).size = 1 := rfl
  have hadd : addDocument (fun _ _ => "e") { uri := "u", name, size := some 1 } name [] =
      some [singleEntry name] := rfl
  simp [createTransfer, DocumentSelection.entries, appendFiles, reserveName, hsegment, hadd,
    summarize, PreparedTransfer.add, hstored, appendStored, hordinal, hkind, hsize,
    Kotlin.validIdentifier_eq, hid, MAX_WIRE_INTEGER]

/-- A name of 86 characters and 258 bytes. -/
def wideName : List Char := List.replicate 86 '中'

theorem wideName_valid : (singleEntry wideName).validate serdeLineLength = true ∧
    validateStored (singleEntry wideName) = true := by
  have hrange : (singleEntry wideName).InRange := ⟨by decide, by decide, by simp [singleEntry]⟩
  have hfields : (singleEntry wideName).validFields = true := by decide +kernel
  have haccepted : Kotlin.validateEntry (singleEntry wideName) = true :=
    (Kotlin.validateEntry_iff hrange).2 ⟨hfields, rfl⟩
  refine ⟨(ManifestEntry.validate_iff hrange).2 ⟨hfields, rfl⟩, ?_⟩
  simp only [validateStored, haccepted, Bool.and_true]
  decide

/-- A file of that name is offered by either side, and refused by the other. -/
theorem wide_name_refused :
    (∃ offer stored, createOutboundOffer (List.map Char.toLower) serdeLineLength (fun _ => "e") []
        "phone" "batch" 0 [⟨some wideName, .file 1 none, .file 1 none⟩] = some (offer, stored) ∧
      Kotlin.validateOffer offer "phone" = false) ∧
    ∃ offer stored, createTransfer (List.map Char.toLower) (fun _ _ => "e") "phone" "batch"
        (.files [{ uri := "u", name := wideName, size := some 1 }])
        (.files [{ uri := "u", name := wideName, size := some 1 }]) = some (offer, stored) ∧
      offer.validate "phone" = false := by
  have hwide : 255 < utf8Length wideName := by decide +kernel
  have hid : validIdentifier "batch" MAX_BATCH_ID_BYTES = true := by decide
  have hphone : validIdentifier "phone" MAX_PHONE_ID_BYTES = true := by decide
  constructor
  · have hbase : sanitizeWindowsSegment wideName = wideName := by decide +kernel
    have hpath : validateRelativePath wideName = true := by decide +kernel
    obtain ⟨⟨offer, stored⟩, hmade⟩ :=
      single_file_outbound hbase hpath wideName_valid.1 hid hphone
    refine ⟨offer, stored, hmade, ?_⟩
    obtain ⟨entries, hbatch⟩ := createOutboundOffer_spec hmade
    have hnames : wireNames (List.map Char.toLower) (.new (List.map Char.toLower) [])
        [⟨some wideName, .file 1 none, .file 1 none⟩] = [wideName] := by
      simp [wireNames, WindowsNameReservation.reserve, WindowsNameReservation.new, hbase]
    rw [← Bool.not_eq_true, hbatch.offer_accepted, hnames]
    intro hshort
    exact absurd (hshort wideName (by simp)) (not_le.2 hwide)
  · have hsegment : safeSegment wideName = wideName := by decide +kernel
    obtain ⟨⟨offer, stored⟩, hmade⟩ := single_file_transfer hsegment wideName_valid.2 hid
    refine ⟨offer, stored, hmade, ?_⟩
    let phone : PhoneId := ⟨"phone", hphone⟩
    have hnames : DocumentSelection.topNames (List.map Char.toLower)
        (.files [{ uri := "u", name := wideName, size := some 1 }]) = [wideName] := by
      simp [DocumentSelection.topNames, fileNames, reserveName, hsegment]
    have haccepted := (@createTransfer_spec _ _ phone _ _ _ _ _ hmade).1
    rw [hnames] at haccepted
    rw [← Bool.not_eq_true]
    intro hvalid
    exact absurd (haccepted.1 hvalid wideName (by simp)) (not_le.2 hwide)

end FlowType
