import FlowType.DocumentChains
import FlowType.PhoneTransferStore

/-! What `AndroidManifestBuilder` makes of a selection: the manifest is in order whenever there is
one, and there is one unless a name is longer than what is allowed or has control characters. -/
namespace FlowType

/-! ### Summaries -/

theorem foldl_keepRoot_eq (roots : List String) :
    roots.foldl keepRoot [] = roots.eraseDups.take 8 := by
  induction roots using List.reverseRecOn with
  | nil => rfl
  | append_singleton roots root ih =>
    rw [List.foldl_append, List.foldl_cons, List.foldl_nil, ih, keepRoot, List.eraseDups_append]
    by_cases hmem : root ∈ roots
    · have hnone : [root].removeAll roots = [] := by simp [List.removeAll, hmem]
      have hold : ¬(root ∉ roots.eraseDups.take 8 ∧ (roots.eraseDups.take 8).length < 8) := by
        rintro ⟨hnew, hshort⟩
        have hall : roots.eraseDups.take 8 = roots.eraseDups := by
          apply List.take_of_length_le
          rw [List.length_take] at hshort
          omega
        rw [hall, List.mem_eraseDups] at hnew
        exact hnew hmem
      rw [if_neg hold, hnone, List.eraseDups_nil, List.append_nil]
    · have hone : [root].removeAll roots = [root] := by simp [List.removeAll, hmem]
      have hnew : root ∉ roots.eraseDups.take 8 := by
        intro htaken
        exact hmem (List.mem_eraseDups.1 (List.mem_of_mem_take htaken))
      have hsingle : [root].eraseDups = [root] := by simp [List.eraseDups_cons]
      rw [hone, hsingle]
      by_cases hshort : roots.eraseDups.length < 8
      · have hall : roots.eraseDups.take 8 = roots.eraseDups := List.take_of_length_le hshort.le
        have hboth : (roots.eraseDups ++ [root]).length ≤ 8 := by
          rw [List.length_append, List.length_singleton]
          omega
        rw [if_pos ⟨hnew, by rw [hall]; exact hshort⟩, hall, List.take_of_length_le hboth]
      · have hfull : ¬(roots.eraseDups.take 8).length < 8 := by
          rw [List.length_take]
          omega
        rw [if_neg fun h => hfull h.2, List.take_append_of_le_length (by omega)]

def summaryOf (entries : List ManifestEntry) : PreparedTransfer where
  roots := (entries.map rootOf).eraseDups.take 8
  fileCount := entries.countP (·.kind = .file)
  directoryCount := entries.countP (·.kind = .directory)
  totalBytes := (entries.map ManifestEntry.size).sum

theorem foldlM_add_iff {entries : List ManifestEntry} {p p' : PreparedTransfer}
    (hp : p.totalBytes ≤ MAX_WIRE_INTEGER) :
    entries.foldlM PreparedTransfer.add p = some p' ↔
      (∀ entry ∈ entries, validateStored entry = true) ∧
        p.totalBytes + (entries.map ManifestEntry.size).sum ≤ MAX_WIRE_INTEGER ∧
        p' = { roots := (entries.map rootOf).foldl keepRoot p.roots
               fileCount := p.fileCount + entries.countP (·.kind = .file)
               directoryCount := p.directoryCount + entries.countP (·.kind = .directory)
               totalBytes := p.totalBytes + (entries.map ManifestEntry.size).sum } := by
  induction entries generalizing p with
  | nil =>
    constructor
    · intro h
      obtain rfl := Option.some.inj h
      exact ⟨by simp, by simpa using hp, rfl⟩
    · rintro ⟨-, -, rfl⟩
      rfl
  | cons entry entries ih =>
    rw [List.foldlM_cons, List.forall_mem_cons, List.map_cons, List.sum_cons]
    by_cases hvalid : validateStored entry = true
    · by_cases hsum : MAX_WIRE_INTEGER < p.totalBytes + entry.size
      · have hadd : p.add entry = none := by simp [PreparedTransfer.add, hvalid, hsum]
        rw [hadd]
        constructor
        · intro h
          cases h
        · intro h
          omega
      · have hadd : p.add entry = some
            { roots := keepRoot p.roots (rootOf entry)
              fileCount := if entry.kind = .file then p.fileCount + 1 else p.fileCount
              directoryCount :=
                if entry.kind = .file then p.directoryCount else p.directoryCount + 1
              totalBytes := p.totalBytes + entry.size } := by
          simp only [PreparedTransfer.add, hvalid, hsum, if_false, Bool.true_eq_false]
          rfl
        rw [hadd]
        refine (ih (not_lt.1 hsum)).trans ?_
        cases hkind : entry.kind <;> simp [hvalid, hkind, Nat.add_assoc, Nat.add_comm 1]
    · have hadd : p.add entry = none := by simp [PreparedTransfer.add, hvalid]
      rw [hadd]
      constructor
      · intro h
        cases h
      · intro h
        exact absurd h.1.1 hvalid

/-- A manifest is summed up if every entry is in order and the sizes fit. -/
theorem summarize_iff {entries : List ManifestEntry} {prepared : PreparedTransfer} :
    summarize entries = some prepared ↔ (∀ entry ∈ entries, validateStored entry = true) ∧
      (entries.map ManifestEntry.size).sum ≤ MAX_WIRE_INTEGER ∧ entries ≠ [] ∧
      prepared = summaryOf entries := by
  have hsome : 0 < entries.countP (·.kind = .file) ∨ 0 < entries.countP (·.kind = .directory) ↔
      entries ≠ [] := by
    constructor
    · rintro h rfl
      simp at h
    · intro hne
      obtain ⟨entry, hentry⟩ := List.exists_mem_of_ne_nil entries hne
      rw [List.countP_pos_iff, List.countP_pos_iff]
      cases hkind : entry.kind with
      | file => exact .inl ⟨entry, hentry, by simp [hkind]⟩
      | directory => exact .inr ⟨entry, hentry, by simp [hkind]⟩
  rw [summarize, Option.bind_eq_some_iff]
  constructor
  · rintro ⟨p, hp, h⟩
    obtain ⟨hvalid, hsum, rfl⟩ := (foldlM_add_iff (Nat.zero_le _)).1 hp
    split_ifs at h with hcount
    obtain rfl := Option.some.inj h
    simp only [Nat.zero_add] at hsum hcount ⊢
    refine ⟨hvalid, hsum, hsome.1 hcount, ?_⟩
    rw [summaryOf, foldl_keepRoot_eq]
  · rintro ⟨hvalid, hsum, hne, rfl⟩
    refine ⟨summaryOf entries, (foldlM_add_iff (Nat.zero_le _)).2 ⟨hvalid, ?_, ?_⟩, ?_⟩
    · simpa using hsum
    · simp only [summaryOf, Nat.zero_add, foldl_keepRoot_eq]
    · exact if_pos (hsome.2 hne)

/-! ### The builder -/

/-- The text whose bytes name an entry. -/
def entryIdText (ordinal : Nat) (uri : String) : String :=
  String.ofList (Nat.toDigits 10 ordinal ++ Char.ofNat 0 :: uri.toList)

/-- `stableEntryId`. -/
def documentEntryId (nameUUIDFromBytes : String → String) (ordinal : Nat) (uri : String) : String :=
  nameUUIDFromBytes (entryIdText ordinal uri)

/-- The sequence of entries, and its summary. `StoredTransferEntry.validate` looks at the URI of
the document too. -/
def DocumentSelection.prepare (lower : List Char → List Char) (nameUUIDFromBytes : String → String)
    (selection : DocumentSelection) : Option (List ManifestEntry × PreparedTransfer) :=
  if (selection.facts.getD []).all fun document => validUri document.uri then
    (selection.entries lower (documentEntryId nameUUIDFromBytes)).bind fun entries =>
      (summarize entries).map fun prepared => (entries, prepared)
  else none

/-- Every name, cleaned and numbered in its folder, has no control characters and is not too long,
nor is a path made of such names. -/
def NamesFit (lower : List Char → List Char) (selection : DocumentSelection) : Prop :=
  ∃ chains, selection.chains lower = some chains ∧ ∀ chain ∈ chains,
    utf8Length (wirePath chain) ≤ MAX_RELATIVE_PATH_BYTES ∧
      ∀ name ∈ chain, name.any isControlChar = false ∧ utf16Length name ≤ 255

structure ManifestBuilt (lower : List Char → List Char) (entries : List ManifestEntry)
    (prepared : PreparedTransfer) : Prop where
  ordinals : ∀ (i : Nat) (entry : ManifestEntry), entries[i]? = some entry → entry.ordinal = i
  ids : (entries.map ManifestEntry.entryId).Nodup
  parents : ∀ (i : Nat) (entry : ManifestEntry), entries[i]? = some entry →
    '/' ∈ entry.relativePath → ∃ j < i, ∃ directory name, entries[j]? = some directory ∧
      directory.kind = .directory ∧ '/' ∉ name ∧
      entry.relativePath = directory.relativePath ++ '/' :: name
  valid : ∀ entry ∈ entries, Kotlin.validateRelativeTransferPath entry.relativePath = true
  distinct : (entries.map fun entry => lower entry.relativePath).Nodup
  summary : prepared = summaryOf entries

/-- What the builder promises of a selection. -/
structure ManifestConstruction (lower : List Char → List Char) (nameUUIDFromBytes : String → String)
    (selection : DocumentSelection) : Prop where
  built : ∀ entries prepared, selection.prepare lower nameUUIDFromBytes = some (entries, prepared) →
    ManifestBuilt lower entries prepared
  again : ∀ entries prepared phoneId batchId,
    selection.prepare lower nameUUIDFromBytes = some (entries, prepared) →
    Kotlin.validIdentifier batchId MAX_BATCH_ID_BYTES = true →
    prepared.fileCount ≤ MAX_WIRE_INTEGER → prepared.directoryCount ≤ MAX_WIRE_INTEGER →
    ∃ offer, createTransfer lower (documentEntryId nameUUIDFromBytes) phoneId batchId selection
      selection = some (offer, entries)
  names : ∀ other : DocumentSelection, other.unnamed = selection.unnamed →
    (other.prepare lower nameUUIDFromBytes).isSome = true →
    (selection.prepare lower nameUUIDFromBytes).isSome = true

section Builder
variable {lower : List Char → List Char} {nameUUIDFromBytes : String → String}
variable {stableEntryId : Nat → String → String} {selection : DocumentSelection}

/-- The digits of an ordinal end where the zero character stands. -/
theorem entryIdText_inj {ordinal ordinal' : Nat} {uri uri' : String}
    (h : entryIdText ordinal uri = entryIdText ordinal' uri') : ordinal = ordinal' := by
  have htext := String.ofList_inj.1 h
  have hdigits (n : Nat) (rest : List Char) :
      (Nat.toDigits 10 n ++ Char.ofNat 0 :: rest).takeWhile Char.isDigit = Nat.toDigits 10 n := by
    rw [List.takeWhile_append_of_pos fun c hc =>
      Nat.isDigit_of_mem_toDigits (by decide) (by decide) hc]
    have hstop : (Char.ofNat 0).isDigit = false := by decide
    simp [hstop]
  have hsame := congrArg (List.takeWhile Char.isDigit) htext
  rw [hdigits, hdigits] at hsame
  have hvalue := congrArg (Nat.ofDigitChars 10 · 0) hsame
  simpa only [Nat.ofDigitChars_ten_toDigits] using hvalue

/-- Of an entry that is in order, only the path has to be looked at under other names. -/
theorem validateStored_rename {ordinal : Nat} {document : DocumentFacts}
    {chain chain' : List (List Char)}
    (h : validateStored (placeEntry stableEntryId ordinal (document, chain)) = true) :
    validateStored (placeEntry stableEntryId ordinal (document, chain')) = true ↔
      validateRelativePath (wirePath chain') = true := by
  simp only [validateStored, Bool.and_eq_true, decide_eq_true_eq] at h ⊢
  obtain ⟨⟨hordinal, hsize⟩, haccepted⟩ := h
  have htime : ∀ time ∈ document.modifiedAt.map Int64.toInt, time.natAbs ≤ 2 ^ 63 := by
    intro time htime
    obtain ⟨n, -, rfl⟩ := Option.map_eq_some_iff.1 htime
    exact natAbs_toInt_le n
  have hrange (names : List (List Char)) :
      (placeEntry stableEntryId ordinal (document, names)).InRange := ⟨hordinal, hsize, htime⟩
  obtain ⟨hfields, hmime⟩ := (Kotlin.validateEntry_iff (hrange chain)).1 haccepted
  rw [Kotlin.validateEntry_iff (hrange chain')]
  simp only [ManifestEntry.validFields, Bool.and_eq_true] at hfields ⊢
  constructor
  · intro hvalid
    exact hvalid.2.1.1.1.2
  · intro hpath
    exact ⟨⟨hordinal, hsize⟩, ⟨⟨⟨hfields.1.1.1, hpath⟩, hfields.1.2⟩, hfields.2⟩, hmime⟩

theorem path_valid_of_stored {entry : ManifestEntry} (h : validateStored entry = true) :
    validateRelativePath entry.relativePath = true := by
  simp only [validateStored, Kotlin.validateEntry, Bool.and_eq_true,
    Kotlin.validateRelativeTransferPath_eq] at h
  exact h.2.1.1.1.1.2

theorem prepare_iff {entries : List ManifestEntry} {prepared : PreparedTransfer} :
    selection.prepare lower nameUUIDFromBytes = some (entries, prepared) ↔
      ∃ facts chains, selection.facts = some facts ∧ selection.chains lower = some chains ∧
        (∀ document ∈ facts, validUri document.uri = true) ∧
        entries = assembleEntries (documentEntryId nameUUIDFromBytes) 0 (facts.zip chains) ∧
        (∀ entry ∈ entries, validateStored entry = true) ∧
        (entries.map ManifestEntry.size).sum ≤ MAX_WIRE_INTEGER ∧ entries ≠ [] ∧
        prepared = summaryOf entries := by
  rw [DocumentSelection.prepare, DocumentSelection.entries_eq]
  cases hfacts : selection.facts with
  | none => simp
  | some facts =>
    cases hchains : selection.chains lower with
    | none => simp
    | some chains =>
      by_cases huris : ∀ document ∈ facts, validUri document.uri = true
      · have hall : facts.all (fun document => validUri document.uri) = true :=
          List.all_eq_true.2 huris
        simp only [Option.getD_some, hall, if_true, Option.bind_some, Option.map_some,
          Option.map_eq_some_iff, Prod.mk.injEq, summarize_iff]
        constructor
        · rintro ⟨p, hp, rfl, rfl⟩
          exact ⟨facts, chains, rfl, rfl, huris, rfl, hp⟩
        · rintro ⟨facts', chains', hf, hc, -, rfl, hp⟩
          obtain rfl := Option.some.inj hf
          obtain rfl := Option.some.inj hc
          exact ⟨prepared, hp, rfl, rfl⟩
      · have hall : facts.all (fun document => validUri document.uri) = false := by
          rw [Bool.eq_false_iff]
          exact fun htrue => huris (List.all_eq_true.1 htrue)
        simp only [Option.getD_some, hall, Bool.false_eq_true, if_false]
        constructor
        · intro h
          cases h
        · rintro ⟨facts', chains', hf, -, huris', -⟩
          obtain rfl := Option.some.inj hf
          exact absurd huris' huris

/-- What stands at a place of the manifest. -/
theorem getElem?_assembled {facts : List DocumentFacts} {chains : List (List (List Char))} {i : Nat}
    {entry : ManifestEntry} :
    (assembleEntries stableEntryId 0 (facts.zip chains))[i]? = some entry ↔
      ∃ document chain, facts[i]? = some document ∧ chains[i]? = some chain ∧
        entry = placeEntry stableEntryId i (document, chain) := by
  rw [assembleEntries, List.getElem?_mapIdx, Option.map_eq_some_iff, Nat.zero_add]
  constructor
  · rintro ⟨⟨document, chain⟩, hplace, rfl⟩
    obtain ⟨hdocument, hchain⟩ := List.getElem?_zip_eq_some.1 hplace
    exact ⟨document, chain, hdocument, hchain, rfl⟩
  · rintro ⟨document, chain, hdocument, hchain, rfl⟩
    exact ⟨(document, chain), List.getElem?_zip_eq_some.2 ⟨hdocument, hchain⟩, rfl⟩

/-- The texts that name the entries of a selection are not confused. -/
def IdsApart (nameUUIDFromBytes : String → String) (selection : DocumentSelection) : Prop :=
  ∀ facts, selection.facts = some facts → Set.InjOn nameUUIDFromBytes
    {text | ∃ i document, facts[i]? = some document ∧ text = entryIdText i document.uri}

theorem ids_nodup {facts : List DocumentFacts} {chains : List (List (List Char))}
    (hids : Set.InjOn nameUUIDFromBytes
      {text | ∃ i document, facts[i]? = some document ∧ text = entryIdText i document.uri}) :
    ((assembleEntries (documentEntryId nameUUIDFromBytes) 0 (facts.zip chains)).map
      ManifestEntry.entryId).Nodup := by
  rw [List.nodup_iff_getElem?_ne_getElem?]
  intro i j hij hj hsame
  rw [List.length_map] at hj
  have hfirst := List.getElem?_eq_getElem (hij.trans hj)
  have hsecond := List.getElem?_eq_getElem hj
  rw [List.getElem?_map, List.getElem?_map, hfirst, hsecond] at hsame
  obtain ⟨document, chain, hdocument, -, hentry⟩ := getElem?_assembled.1 hfirst
  obtain ⟨document', chain', hdocument', -, hentry'⟩ := getElem?_assembled.1 hsecond
  rw [hentry, hentry'] at hsame
  have htext := hids ⟨i, document, hdocument, rfl⟩ ⟨j, document', hdocument', rfl⟩
    (Option.some.inj hsame)
  have hplace := entryIdText_inj htext
  omega

/-- In lower case a path is still made of its names. -/
theorem lower_wirePath (hslash : ∀ a b, lower (a ++ '/' :: b) = lower a ++ '/' :: lower b)
    {chain : List (List Char)} (hne : chain ≠ []) :
    lower (wirePath chain) = wirePath (chain.map lower) := by
  induction chain with
  | nil => exact absurd rfl hne
  | cons name chain ih =>
    by_cases hrest : chain = []
    · subst hrest
      simp [wirePath]
    · have hmap : chain.map lower ≠ [] := by simpa using hrest
      rw [wirePath_cons hrest, hslash, ih hrest, List.map_cons, wirePath_cons hmap]

theorem paths_nodup (hslash : ∀ a b, lower (a ++ '/' :: b) = lower a ++ '/' :: lower b)
    (hname : ∀ name, '/' ∉ name → '/' ∉ lower name) {facts : List DocumentFacts}
    {chains : List (List (List Char))} (hspec : SelectionChains lower facts chains) :
    ((assembleEntries stableEntryId 0 (facts.zip chains)).map
      fun entry => lower entry.relativePath).Nodup := by
  rw [List.nodup_iff_getElem?_ne_getElem?]
  intro i j hij hj hsame
  rw [List.length_map] at hj
  have hfirst := List.getElem?_eq_getElem (hij.trans hj)
  have hsecond := List.getElem?_eq_getElem hj
  rw [List.getElem?_map, List.getElem?_map, hfirst, hsecond] at hsame
  obtain ⟨document, chain, -, hchain, hentry⟩ := getElem?_assembled.1 hfirst
  obtain ⟨document', chain', -, hchain', hentry'⟩ := getElem?_assembled.1 hsecond
  rw [hentry, hentry'] at hsame
  have hsplit (c : List (List Char)) (hc : c ∈ chains) :
      (lower (wirePath c)).splitOn '/' = c.map lower := by
    rw [lower_wirePath hslash (hspec.nonempty c hc), wirePath, List.splitOn_intercalate]
    · intro name hmem
      obtain ⟨original, horiginal, rfl⟩ := List.mem_map.1 hmem
      exact hname original (hspec.pathName c hc original horiginal).slash
    · simpa using hspec.nonempty c hc
  have hlower : lower (wirePath chain) = lower (wirePath chain') := Option.some.inj hsame
  have hchains : chain.map lower = chain'.map lower := by
    rw [← hsplit chain (List.mem_of_getElem? hchain), hlower,
      hsplit chain' (List.mem_of_getElem? hchain')]
  apply List.nodup_iff_getElem?_ne_getElem?.1 hspec.distinct i j hij
  · rw [List.length_map]
    exact (List.getElem?_eq_some_iff.1 hchain').1
  · rw [List.getElem?_map, List.getElem?_map, hchain, hchain', Option.map_some, Option.map_some,
      hchains]

/-- Before an entry in a directory comes the directory. -/
theorem parent_before {facts : List DocumentFacts} {chains : List (List (List Char))}
    (hspec : SelectionChains lower facts chains) {i : Nat} {entry : ManifestEntry}
    (hentry : (assembleEntries stableEntryId 0 (facts.zip chains))[i]? = some entry)
    (hslash : '/' ∈ entry.relativePath) :
    ∃ j < i, ∃ directory name,
      (assembleEntries stableEntryId 0 (facts.zip chains))[j]? = some directory ∧
        directory.kind = .directory ∧ '/' ∉ name ∧
        entry.relativePath = directory.relativePath ++ '/' :: name := by
  obtain ⟨document, chain, -, hchain, rfl⟩ := getElem?_assembled.1 hentry
  have hnames := hspec.pathName chain (List.mem_of_getElem? hchain)
  have hpath : (placeEntry stableEntryId i (document, chain)).relativePath = wirePath chain := rfl
  rw [hpath] at hslash ⊢
  rcases hspec.parent i chain hchain with ⟨name, rfl⟩ | hparent
  · rw [wirePath, List.intercalate_singleton] at hslash
    exact absurd hslash (hnames name (List.mem_singleton_self name)).slash
  · obtain ⟨j, hj, parent, name, directory, hplace, hdirectory, hkind, rfl⟩ := hparent
    refine ⟨j, hj, placeEntry stableEntryId j (directory, parent), name,
      getElem?_assembled.2 ⟨directory, parent, hdirectory, hplace, rfl⟩, hkind, ?_, ?_⟩
    · exact (hnames name (by simp)).slash
    · exact wirePath_concat (hspec.nonempty parent (List.mem_of_getElem? hplace)) name

/-- What is built is in order, whatever the names are. -/
theorem manifest_built (hslash : ∀ a b, lower (a ++ '/' :: b) = lower a ++ '/' :: lower b)
    (hname : ∀ name, '/' ∉ name → '/' ∉ lower name) (hids : IdsApart nameUUIDFromBytes selection)
    {entries : List ManifestEntry} {prepared : PreparedTransfer}
    (h : selection.prepare lower nameUUIDFromBytes = some (entries, prepared)) :
    ManifestBuilt lower entries prepared := by
  obtain ⟨facts, chains, hfacts, hchains, -, rfl, hvalid, -, -, hsummary⟩ := prepare_iff.1 h
  have hspec := selection.chains_spec hfacts hchains
  refine ⟨?_, ids_nodup (hids facts hfacts), ?_, ?_, paths_nodup hslash hname hspec, hsummary⟩
  · intro i entry hentry
    obtain ⟨document, chain, -, -, rfl⟩ := getElem?_assembled.1 hentry
    rfl
  · intro i entry hentry hpath
    exact parent_before hspec hentry hpath
  · intro entry hentry
    rw [Kotlin.validateRelativeTransferPath_eq]
    exact path_valid_of_stored (hvalid entry hentry)

/-- The names of a manifest that is built fit. -/
theorem namesFit_of_prepare {built : List ManifestEntry × PreparedTransfer}
    (h : selection.prepare lower nameUUIDFromBytes = some built) : NamesFit lower selection := by
  obtain ⟨facts, chains, hfacts, hchains, -, hentries, hvalid, -⟩ := prepare_iff.1 h
  have hspec := selection.chains_spec hfacts hchains
  refine ⟨chains, hchains, ?_⟩
  intro chain hchain
  obtain ⟨i, hi, hget⟩ := List.mem_iff_getElem.1 hchain
  have hplace : chains[i]? = some chain := List.getElem?_eq_some_iff.2 ⟨hi, hget⟩
  obtain ⟨document, hdocument⟩ : ∃ document, facts[i]? = some document :=
    ⟨_, List.getElem?_eq_getElem (hspec.length.symm ▸ hi)⟩
  have hentry : built.1[i]? =
      some (placeEntry (documentEntryId nameUUIDFromBytes) i (document, chain)) := by
    rw [hentries]
    exact getElem?_assembled.2 ⟨document, chain, hdocument, hplace, rfl⟩
  have hpath := path_valid_of_stored (hvalid _ (List.mem_of_getElem? hentry))
  obtain ⟨hbytes, -, hnames⟩ := (validateRelativePath_iff (hspec.nonempty chain hchain)
    (hspec.pathName chain hchain)).1 hpath
  exact ⟨hbytes, hnames⟩

theorem map_size_assembled (stableEntryId : Nat → String → String) {facts : List DocumentFacts}
    {chains : List (List (List Char))} (hlength : facts.length = chains.length) :
    (assembleEntries stableEntryId 0 (facts.zip chains)).map ManifestEntry.size =
      facts.map DocumentFacts.size := by
  apply List.ext_getElem?
  intro i
  rw [List.getElem?_map, List.getElem?_map, assembleEntries, List.getElem?_mapIdx]
  cases hplace : (facts.zip chains)[i]? with
  | some place =>
    rw [(List.getElem?_zip_eq_some.1 hplace).1]
    rfl
  | none =>
    rw [List.getElem?_eq_none_iff, List.length_zip, ← hlength, Nat.min_self] at hplace
    rw [List.getElem?_eq_none hplace]
    rfl

/-- Names that fit make no difference. -/
theorem prepare_of_namesFit {other : DocumentSelection} (hsame : other.unnamed = selection.unnamed)
    (hfit : NamesFit lower selection)
    (h : (other.prepare lower nameUUIDFromBytes).isSome = true) :
    (selection.prepare lower nameUUIDFromBytes).isSome = true := by
  obtain ⟨⟨entries, prepared⟩, hprepare⟩ := Option.isSome_iff_exists.1 h
  obtain ⟨facts, chains', hother, hchains', huris, rfl, hvalid, hsum, hne, -⟩ :=
    prepare_iff.1 hprepare
  obtain ⟨chains, hchains, hfits⟩ := hfit
  have hfacts : selection.facts = some facts := by
    rw [← selection.facts_unnamed, ← hsame, other.facts_unnamed, hother]
  have hspec := selection.chains_spec hfacts hchains
  have hspec' := other.chains_spec hother hchains'
  have hdepths : chains.map List.length = chains'.map List.length := by
    rw [selection.map_length_chains hchains, other.map_length_chains hchains',
      ← selection.depths_unnamed, ← hsame, other.depths_unnamed]
  have hentries : ∀ entry ∈ assembleEntries (documentEntryId nameUUIDFromBytes) 0
      (facts.zip chains), validateStored entry = true := by
    intro entry hentry
    obtain ⟨i, hi⟩ := List.mem_iff_getElem?.1 hentry
    obtain ⟨document, chain, hdocument, hchain, rfl⟩ := getElem?_assembled.1 hi
    have hmem := List.mem_of_getElem? hchain
    -- the same document has stood at this place under the other names
    have hdepth := congrArg (·[i]?) hdepths
    simp only [List.getElem?_map, hchain, Option.map_some] at hdepth
    obtain ⟨chain', hchain', hlength⟩ := Option.map_eq_some_iff.1 hdepth.symm
    have hmem' := List.mem_of_getElem? hchain'
    have hstored := hvalid _ (List.mem_of_getElem?
      (getElem?_assembled.2 ⟨document, chain', hdocument, hchain', rfl⟩))
    have hpath' := path_valid_of_stored hstored
    obtain ⟨-, hcount, -⟩ := (validateRelativePath_iff (hspec'.nonempty chain' hmem')
      (hspec'.pathName chain' hmem')).1 hpath'
    obtain ⟨hbytes, hnames⟩ := hfits chain hmem
    apply (validateStored_rename hstored).2
    apply (validateRelativePath_iff (hspec.nonempty chain hmem) (hspec.pathName chain hmem)).2
    exact ⟨hbytes, hlength ▸ hcount, hnames⟩
  have hsizes := map_size_assembled (documentEntryId nameUUIDFromBytes) hspec.length
  rw [map_size_assembled _ hspec'.length, ← hsizes] at hsum
  have hnonempty :
      assembleEntries (documentEntryId nameUUIDFromBytes) 0 (facts.zip chains) ≠ [] := by
    intro hnil
    apply hne
    rw [← List.length_eq_zero_iff, length_assembleEntries, List.length_zip, ← hspec'.length,
      Nat.min_self]
    rw [← List.length_eq_zero_iff, length_assembleEntries, List.length_zip, ← hspec.length,
      Nat.min_self] at hnil
    exact hnil
  apply Option.isSome_iff_exists.2
  exact ⟨(_, _), prepare_iff.2
    ⟨facts, chains, hfacts, hchains, huris, rfl, hentries, hsum, hnonempty, rfl⟩⟩

theorem appendStored_all {entries stored : List ManifestEntry}
    (hvalid : ∀ entry ∈ entries, validateStored entry = true)
    (hordinals : ∀ (i : Nat) (entry : ManifestEntry), entries[i]? = some entry →
      entry.ordinal = stored.length + i)
    (hids : ((stored ++ entries).map ManifestEntry.entryId).Nodup) :
    entries.foldlM appendStored stored = some (stored ++ entries) := by
  induction entries generalizing stored with
  | nil => simp
  | cons entry entries ih =>
    rw [List.forall_mem_cons] at hvalid
    have hordinal : entry.ordinal = stored.length := hordinals 0 entry rfl
    have hnew : entry.entryId ∉ stored.map ManifestEntry.entryId := by
      rw [List.map_append, List.map_cons, List.nodup_append] at hids
      intro hmem
      exact hids.2.2 _ hmem _ List.mem_cons_self rfl
    have hfirst : appendStored stored entry = some (stored ++ [entry]) :=
      if_pos ⟨hvalid.1, hordinal, hnew⟩
    rw [List.foldlM_cons, hfirst]
    have hrest := @ih (stored ++ [entry]) hvalid.2 ?_ (by simpa using hids)
    · simpa using hrest
    · intro i other hother
      have hlater := hordinals (i + 1) other hother
      rw [List.length_append, List.length_singleton]
      omega

/-- The store takes the same sequence when it is walked again. -/
theorem createTransfer_again {entries : List ManifestEntry} {prepared : PreparedTransfer}
    {phoneId batchId : String}
    (h : selection.prepare lower nameUUIDFromBytes = some (entries, prepared))
    (hordinals : ∀ (i : Nat) (entry : ManifestEntry), entries[i]? = some entry → entry.ordinal = i)
    (hids : (entries.map ManifestEntry.entryId).Nodup)
    (hbatch : Kotlin.validIdentifier batchId MAX_BATCH_ID_BYTES = true)
    (hfiles : prepared.fileCount ≤ MAX_WIRE_INTEGER)
    (hdirectories : prepared.directoryCount ≤ MAX_WIRE_INTEGER) :
    ∃ offer, createTransfer lower (documentEntryId nameUUIDFromBytes) phoneId batchId
      selection selection = some (offer, entries) := by
  obtain ⟨facts, chains, hfacts, hchains, -, hentries, hvalid, hsum, hne, rfl⟩ := prepare_iff.1 h
  have hwalk : selection.entries lower (documentEntryId nameUUIDFromBytes) = some entries := by
    rw [selection.entries_eq, hfacts, hchains, hentries]
    rfl
  have hsummary : summarize entries = some (summaryOf entries) :=
    summarize_iff.2 ⟨hvalid, hsum, hne, rfl⟩
  have hstored : entries.foldlM appendStored [] = some entries :=
    appendStored_all hvalid (by simpa using hordinals) hids
  have hcheck : ¬(Kotlin.validIdentifier batchId MAX_BATCH_ID_BYTES = false ∨
      MAX_WIRE_INTEGER < (summaryOf entries).fileCount ∨
      MAX_WIRE_INTEGER < (summaryOf entries).directoryCount) := by
    rw [hbatch]
    simp only [Bool.true_eq_false, false_or]
    omega
  have hcounts : (entries.filter fun entry => entry.kind = .file).length =
        (summaryOf entries).fileCount ∧
      (entries.filter fun entry => entry.kind ≠ .file).length =
        (summaryOf entries).directoryCount ∧
      (entries.map ManifestEntry.size).sum = (summaryOf entries).totalBytes := by
    refine ⟨List.countP_eq_length_filter.symm, ?_, rfl⟩
    rw [← List.countP_eq_length_filter]
    apply List.countP_congr
    intro entry hentry
    cases entry.kind <;> simp
  rw [createTransfer, hwalk, Option.bind_some, hsummary, Option.bind_some, if_neg hcheck,
    Option.bind_some, hstored, Option.bind_some, if_pos hcounts]
  exact ⟨_, rfl⟩

end Builder

/-- What the builder promises holds of a selection exactly if its names fit, or the selection could
not be prepared under any names. -/
theorem manifest_construction_iff (lower : List Char → List Char)
    (hslash : ∀ a b, lower (a ++ '/' :: b) = lower a ++ '/' :: lower b)
    (hname : ∀ name, '/' ∉ name → '/' ∉ lower name) (nameUUIDFromBytes : String → String)
    (selection : DocumentSelection) (hids : IdsApart nameUUIDFromBytes selection) :
    ManifestConstruction lower nameUUIDFromBytes selection ↔
      ((∃ other : DocumentSelection, other.unnamed = selection.unnamed ∧
          (other.prepare lower nameUUIDFromBytes).isSome = true) → NamesFit lower selection) := by
  constructor
  · rintro h ⟨other, hsame, hother⟩
    obtain ⟨built, hbuilt⟩ := Option.isSome_iff_exists.1 (h.names other hsame hother)
    exact namesFit_of_prepare hbuilt
  · intro hfit
    constructor
    · intro entries prepared h
      exact manifest_built hslash hname hids h
    · intro entries prepared phoneId batchId h hbatch hfiles hdirectories
      have hbuilt := manifest_built hslash hname hids h
      exact createTransfer_again h hbuilt.ordinals hbuilt.ids hbatch hfiles hdirectories
    · intro other hsame hother
      exact prepare_of_namesFit hsame (hfit ⟨other, hsame, hother⟩) hother

/-- The UUIDs of two texts. -/
def documentUuid (text : String) : String :=
  if text = entryIdText 0 "content://a" then "e244accd-c040-35ad-8f5b-b68907e26055"
  else "4432368a-973a-3e41-91b9-60f950c566d3"

def twoDocuments (name name' : List Char) : DocumentSelection :=
  .files [{ uri := "content://a", name, size := some 1 },
    { uri := "content://b", name := name', size := some 2 }]

theorem slash_mem_map_toLower {name : List Char} (h : '/' ∉ name) :
    '/' ∉ name.map Char.toLower := by
  intro hmem
  obtain ⟨c, hc, heq⟩ := List.mem_map.1 hmem
  delta Char.toLower at heq
  split at heq
  · rename_i hupper
    have hcode := congrArg (fun c => c.val.toNat) heq
    have hlow : (65 : Nat) ≤ c.val.toNat := hupper.1
    have hhigh : c.val.toNat ≤ 90 := hupper.2
    have hshift : ('a'.val - 'A'.val).toNat = 32 := by decide
    have hslash : ('/' : Char).val.toNat = 47 := by decide
    rw [UInt32.toNat_add, hshift, hslash, Nat.mod_eq_of_lt (by omega)] at hcode
    omega
  · exact h (heq ▸ hc)

theorem twoDocuments_apart (name name' : List Char) :
    IdsApart documentUuid (twoDocuments name name') := by
  intro facts hfacts
  have htexts (i : Nat) (document : DocumentFacts) (hdocument : facts[i]? = some document) :
      entryIdText i document.uri = entryIdText 0 "content://a" ∨
        entryIdText i document.uri = entryIdText 1 "content://b" := by
    obtain rfl := Option.some.inj hfacts
    match i with
    | 0 =>
      obtain rfl := Option.some.inj hdocument
      exact .inl rfl
    | 1 =>
      obtain rfl := Option.some.inj hdocument
      exact .inr rfl
  rintro - ⟨i, document, hdocument, rfl⟩ - ⟨i', document', hdocument', rfl⟩ hsame
  have hfirst := htexts i document hdocument
  have hsecond := htexts i' document' hdocument'
  rcases hfirst with hfirst | hfirst <;> rcases hsecond with hsecond | hsecond <;>
    rw [hfirst, hsecond] at hsame ⊢
  · exact absurd hsame (by decide +kernel)
  · exact absurd hsame (by decide +kernel)

theorem manifest_construction_two :
    ((twoDocuments "a.txt".toList "A.txt".toList).prepare (List.map Char.toLower)
      documentUuid).isSome = true ∧
    ManifestConstruction (List.map Char.toLower) documentUuid
      (twoDocuments "a.txt".toList "A.txt".toList) := by
  refine ⟨by decide +kernel, ?_⟩
  apply (manifest_construction_iff (List.map Char.toLower) ?_ ?_ documentUuid _ ?_).2
  · intro hother
    refine ⟨[["a.txt".toList], ["A (1).txt".toList]], by decide +kernel, by decide +kernel⟩
  · intro a b
    simp only [List.map_append, List.map_cons]
    rfl
  · intro name
    exact slash_mem_map_toLower
  · exact twoDocuments_apart _ _

/-- The cleaning of a name leaves control characters in it. -/
theorem control_name_refused :
    ¬ManifestConstruction (List.map Char.toLower) documentUuid
      (twoDocuments ['a', Char.ofNat 7, 'b'] "A.txt".toList) := by
  intro h
  have hother := h.names (twoDocuments "ab".toList "A.txt".toList) rfl (by decide +kernel)
  have hnow : ((twoDocuments ['a', Char.ofNat 7, 'b'] "A.txt".toList).prepare
      (List.map Char.toLower) documentUuid).isSome = false := by decide +kernel
  rw [hnow] at hother
  cases hother

end FlowType
