import FlowType.PreparedTransfers

/-! The manifest of the selected documents, taken apart: what the entries have of the documents, and
the names that lead to them. Only the second depends on the display names. -/
namespace FlowType

structure DocumentFacts where
  uri : String
  kind : EntryKind
  size : Nat := 0
  modifiedAt : Option Int64 := none
  mimeType : Option String := none

mutual

def DocumentTree.facts : DocumentTree → Option (List DocumentFacts)
  | .file document => document.size.map fun size =>
    [{ uri := document.uri
       kind := .file
       size
       modifiedAt := document.modifiedAt
       mimeType := document.mimeType.filter fun mime => !mime.toList.all Kotlin.isWhitespace }]
  | .directory uri _ children => children.facts.map ({ uri, kind := .directory } :: ·)
  | .unreadable _ => none

def DocumentList.facts : DocumentList → Option (List DocumentFacts)
  | .nil => some []
  | .cons child rest => child.facts.bind fun own => rest.facts.map (own ++ ·)

end

def fileFacts : List DocumentMetadata → Option (List DocumentFacts)
  | [] => some []
  | document :: rest => document.size.bind fun size => (fileFacts rest).map
    ({ uri := document.uri, kind := .file, size, mimeType := document.mimeType } :: ·)

def DocumentSelection.facts : DocumentSelection → Option (List DocumentFacts)
  | .files documents => if documents = [] then none else fileFacts documents
  | .directory uri name children => (DocumentTree.directory uri name children).facts

section Chains
variable (lower : List Char → List Char)

mutual

/-- The names that lead to the entries of a tree, `chain` to the tree itself. -/
def DocumentTree.chains : DocumentTree → List (List Char) → Option (List (List (List Char)))
  | .directory _ _ children, chain => (children.chains chain []).map (chain :: ·)
  | _, chain => some [chain]

def DocumentList.chains : DocumentList → List (List Char) → List (List Char) →
    Option (List (List (List Char)))
  | .nil, _, _ => some []
  | .cons child rest, chain, names =>
    (reserveName lower names (safeSegment child.name)).bind fun reserved =>
      (child.chains (chain ++ [reserved.1])).bind fun below =>
        (rest.chains chain reserved.2).map (below ++ ·)

end

def fileChains : List DocumentMetadata → List (List Char) → Option (List (List (List Char)))
  | [], _ => some []
  | document :: rest, names =>
    (reserveName lower names (safeSegment document.name)).bind fun reserved =>
      (fileChains rest reserved.2).map ([reserved.1] :: ·)

def DocumentSelection.chains : DocumentSelection → Option (List (List (List Char)))
  | .files documents => fileChains lower documents []
  | .directory uri name children =>
    (DocumentTree.directory uri name children).chains lower [safeSegment name]

end Chains

def placeEntry (stableEntryId : Nat → String → String) (ordinal : Nat)
    (place : DocumentFacts × List (List Char)) : ManifestEntry where
  ordinal := ordinal
  entryId := stableEntryId ordinal place.1.uri
  relativePath := wirePath place.2
  kind := place.1.kind
  size := place.1.size
  modifiedAt := place.1.modifiedAt.map Int64.toInt
  mimeType := place.1.mimeType

/-- The entries of some documents, the first with the ordinal `first`. -/
def assembleEntries (stableEntryId : Nat → String → String) (first : Nat)
    (places : List (DocumentFacts × List (List Char))) : List ManifestEntry :=
  places.mapIdx fun i place => placeEntry stableEntryId (first + i) place

/-! ### The entries are assembled -/

section Assembled
variable {lower : List Char → List Char} {stableEntryId : Nat → String → String}

theorem assembleEntries_append (first : Nat)
    (places places' : List (DocumentFacts × List (List Char))) :
    assembleEntries stableEntryId first (places ++ places') =
      assembleEntries stableEntryId first places ++
        assembleEntries stableEntryId (first + places.length) places' := by
  simp only [assembleEntries, List.mapIdx_append, Nat.add_assoc, Nat.add_comm places.length]

theorem assembleEntries_cons (first : Nat) (place : DocumentFacts × List (List Char))
    (places : List (DocumentFacts × List (List Char))) :
    assembleEntries stableEntryId first (place :: places) =
      placeEntry stableEntryId first place :: assembleEntries stableEntryId (first + 1) places := by
  rw [assembleEntries, List.mapIdx_cons, assembleEntries]
  simp only [Nat.add_zero, Nat.add_assoc, Nat.add_comm 1]

theorem length_assembleEntries (first : Nat)
    (places : List (DocumentFacts × List (List Char))) :
    (assembleEntries stableEntryId first places).length = places.length := by
  rw [assembleEntries, List.length_mapIdx]

mutual

theorem DocumentTree.length_chains (tree : DocumentTree) {chain : List (List Char)}
    {facts : List DocumentFacts} {chains : List (List (List Char))}
    (hfacts : tree.facts = some facts) (h : tree.chains lower chain = some chains) : facts.length = chains.length := by
  cases tree with
  | unreadable name => cases hfacts
  | file document =>
    obtain ⟨size, -, rfl⟩ := Option.map_eq_some_iff.1 hfacts
    rw [DocumentTree.chains] at h
    · obtain rfl := Option.some.inj h
      rfl
    · simp
  | directory uri name children =>
    rw [DocumentTree.facts] at hfacts
    rw [DocumentTree.chains] at h
    obtain ⟨own, hown, rfl⟩ := Option.map_eq_some_iff.1 hfacts
    obtain ⟨below, hbelow, rfl⟩ := Option.map_eq_some_iff.1 h
    rw [List.length_cons, List.length_cons, DocumentList.length_chains children hown hbelow]

theorem DocumentList.length_chains (children : DocumentList) {chain names : List (List Char)}
    {facts : List DocumentFacts} {chains : List (List (List Char))}
    (hfacts : children.facts = some facts) (h : children.chains lower chain names = some chains) :
    facts.length = chains.length := by
  cases children with
  | nil =>
    rw [DocumentList.facts] at hfacts
    rw [DocumentList.chains] at h
    obtain rfl := Option.some.inj hfacts
    obtain rfl := Option.some.inj h
    rfl
  | cons child rest =>
    rw [DocumentList.facts] at hfacts
    rw [DocumentList.chains] at h
    obtain ⟨own, hown, hfacts⟩ := Option.bind_eq_some_iff.1 hfacts
    obtain ⟨others, hothers, rfl⟩ := Option.map_eq_some_iff.1 hfacts
    obtain ⟨reserved, -, h⟩ := Option.bind_eq_some_iff.1 h
    obtain ⟨below, hbelow, h⟩ := Option.bind_eq_some_iff.1 h
    obtain ⟨after, hafter, rfl⟩ := Option.map_eq_some_iff.1 h
    rw [List.length_append, List.length_append, DocumentTree.length_chains child hown hbelow,
      DocumentList.length_chains rest hothers hafter]

end

mutual

theorem appendDocument_eq (tree : DocumentTree) {chain : List (List Char)} (hchain : chain ≠ [])
    (entries : List ManifestEntry) :
    appendDocument lower stableEntryId tree (wirePath chain) entries =
      tree.facts.bind fun facts => (tree.chains lower chain).map fun chains =>
        entries ++ assembleEntries stableEntryId entries.length (facts.zip chains) := by
  cases tree with
  | unreadable name => rfl
  | file document =>
    rw [appendDocument, addDocument, DocumentTree.facts]
    cases document.size with
    | none => rfl
    | some size => simp [DocumentTree.chains, assembleEntries, placeEntry]
  | directory uri name children =>
    rw [appendDocument, appendChildren_eq children hchain, DocumentTree.facts, DocumentTree.chains]
    cases children.facts with
    | none => rfl
    | some facts =>
      cases children.chains lower chain [] with
      | none => rfl
      | some chains =>
        simp only [Option.map_some, Option.bind_some, List.zip_cons_cons, List.length_append,
          List.length_singleton, List.append_assoc, assembleEntries_cons]
        rfl

theorem appendChildren_eq (children : DocumentList) {chain : List (List Char)}
    (hchain : chain ≠ []) (names : List (List Char)) (entries : List ManifestEntry) :
    appendChildren lower stableEntryId children (wirePath chain) names entries =
      children.facts.bind fun facts => (children.chains lower chain names).map fun chains =>
        entries ++ assembleEntries stableEntryId entries.length (facts.zip chains) := by
  cases children with
  | nil => simp [appendChildren, DocumentList.facts, DocumentList.chains, assembleEntries]
  | cons child rest =>
    rw [appendChildren, DocumentList.facts, DocumentList.chains]
    have hfirst := fun reserved : List Char => appendDocument_eq child
      (List.append_ne_nil_of_left_ne_nil hchain [reserved]) entries
    simp only [wirePath_concat hchain] at hfirst
    cases hown : child.facts with
    | none => simp [hfirst, hown]
    | some own =>
      cases hreserve : reserveName lower names (safeSegment child.name) with
      | none => simp
      | some reserved =>
        cases hbelow : child.chains lower (chain ++ [reserved.1]) with
        | none => simp [hfirst, hown, hbelow]
        | some below =>
          have hlength := DocumentTree.length_chains child hown hbelow
          have hrest := appendChildren_eq rest hchain reserved.2
            (entries ++ assembleEntries stableEntryId entries.length (own.zip below))
          have hmore (others : List DocumentFacts) (after : List (List (List Char))) :
              entries ++ (assembleEntries stableEntryId entries.length (own.zip below) ++
                assembleEntries stableEntryId (entries.length + (own.zip below).length)
                  (others.zip after)) =
              entries ++ assembleEntries stableEntryId entries.length
                ((own ++ others).zip (below ++ after)) := by
            rw [List.zip_append hlength, assembleEntries_append]
          simp only [hfirst, hown, hbelow, hrest, Option.bind_some, Option.map_some,
            List.length_append, length_assembleEntries, List.append_assoc, hmore]
          cases rest.facts with
          | none => rfl
          | some others => cases rest.chains lower chain reserved.2 <;> rfl

end

theorem appendFiles_eq (documents : List DocumentMetadata) (names : List (List Char))
    (entries : List ManifestEntry) :
    appendFiles lower stableEntryId documents names entries =
      (fileFacts documents).bind fun facts => (fileChains lower documents names).map fun chains =>
        entries ++ assembleEntries stableEntryId entries.length (facts.zip chains) := by
  induction documents generalizing names entries with
  | nil => simp [appendFiles, fileFacts, fileChains, assembleEntries]
  | cons document rest ih =>
    rw [appendFiles, fileFacts, fileChains]
    cases hreserve : reserveName lower names (safeSegment document.name) with
    | none => simp
    | some reserved =>
      simp only [addDocument, Option.bind_some, ih]
      cases document.size with
      | none => rfl
      | some size =>
        cases fileFacts rest with
        | none => rfl
        | some others =>
          cases fileChains lower rest reserved.2 with
          | none => rfl
          | some after =>
            simp [assembleEntries_cons, placeEntry, wirePath]

/-- The manifest of the selected documents, if there is one, has the facts and the names. -/
theorem DocumentSelection.entries_eq (selection : DocumentSelection) :
    selection.entries lower stableEntryId = selection.facts.bind fun facts =>
      (selection.chains lower).map fun chains =>
        assembleEntries stableEntryId 0 (facts.zip chains) := by
  cases selection with
  | files documents =>
    rw [entries, facts, chains]
    split
    · rfl
    · rw [appendFiles_eq]
      simp only [List.nil_append, List.length_nil]
  | directory uri name children =>
    have hroot : safeSegment name = wirePath [safeSegment name] := by simp [wirePath]
    rw [entries, facts, chains]
    rw [hroot, appendDocument_eq _ (List.cons_ne_nil _ _)]
    simp only [List.nil_append, List.length_nil, ← hroot]

end Assembled

end FlowType
