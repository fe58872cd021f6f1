import Mathlib.Data.List.Infix
import FlowType.DocumentNames

/-! The names that lead to the entries of a manifest: each is a name, no two lead to the same place,
and a directory is led to before what is in it. -/
namespace FlowType

section Chains
variable {lower : List Char → List Char}

structure ChainsBelow (lower : List Char → List Char) (chain names : List (List Char))
    (chains : List (List (List Char))) : Prop where
  below : ∀ c ∈ chains, ∃ name rest, c = chain ++ name :: rest ∧ lower name ∉ names
  distinct : (chains.map (List.map lower)).Nodup

mutual

theorem DocumentTree.chains_distinct (tree : DocumentTree) {chain : List (List Char)}
    {chains : List (List (List Char))} (h : tree.chains lower chain = some chains) :
    (∀ c ∈ chains, chain <+: c) ∧ (chains.map (List.map lower)).Nodup := by
  cases tree with
  | unreadable name =>
    rw [DocumentTree.chains] at h
    · obtain rfl := Option.some.inj h
      simp
    · simp
  | file document =>
    rw [DocumentTree.chains] at h
    · obtain rfl := Option.some.inj h
      simp
    · simp
  | directory uri name children =>
    rw [DocumentTree.chains] at h
    obtain ⟨below, hbelow, rfl⟩ := Option.map_eq_some_iff.1 h
    have hchildren := DocumentList.chains_distinct children hbelow
    constructor
    · intro c hc
      rcases List.mem_cons.1 hc with rfl | hmem
      · exact List.prefix_rfl
      · obtain ⟨name, rest, rfl, -⟩ := hchildren.below c hmem
        exact List.prefix_append _ _
    · rw [List.map_cons, List.nodup_cons]
      refine ⟨?_, hchildren.distinct⟩
      intro hmem
      obtain ⟨c, hc, heq⟩ := List.mem_map.1 hmem
      obtain ⟨name, rest, rfl, -⟩ := hchildren.below c hc
      have hlength := congrArg List.length heq
      simp at hlength

theorem DocumentList.chains_distinct (children : DocumentList) {chain names : List (List Char)}
    {chains : List (List (List Char))} (h : children.chains lower chain names = some chains) :
    ChainsBelow lower chain names chains := by
  cases children with
  | nil =>
    rw [DocumentList.chains] at h
    obtain rfl := Option.some.inj h
    exact ⟨by simp, by simp⟩
  | cons child rest =>
    rw [DocumentList.chains] at h
    obtain ⟨⟨name, names'⟩, hreserve, h⟩ := Option.bind_eq_some_iff.1 h
    obtain ⟨below, hbelow, h⟩ := Option.bind_eq_some_iff.1 h
    obtain ⟨after, hafter, rfl⟩ := Option.map_eq_some_iff.1 h
    obtain ⟨hpath, hfree, rfl⟩ := reserveName_spec (safeSegment_pathName _) hreserve
    obtain ⟨hown, hnodup⟩ := DocumentTree.chains_distinct child hbelow
    have hrest := DocumentList.chains_distinct rest hafter
    constructor
    · intro c hc
      rcases List.mem_append.1 hc with hfirst | hlater
      · obtain ⟨more, rfl⟩ := hown c hfirst
        exact ⟨name, more, by simp, hfree⟩
      · obtain ⟨other, more, rfl, hother⟩ := hrest.below c hlater
        exact ⟨other, more, rfl, fun hmem => hother (List.mem_cons_of_mem _ hmem)⟩
    · rw [List.map_append, List.nodup_append]
      refine ⟨hnodup, hrest.distinct, ?_⟩
      intro c hc c' hc' heq
      -- the two differ in the name after the chain
      obtain ⟨first, hfirst, rfl⟩ := List.mem_map.1 hc
      obtain ⟨later, hlater, rfl⟩ := List.mem_map.1 hc'
      obtain ⟨more, rfl⟩ := hown first hfirst
      obtain ⟨other, more', rfl, hother⟩ := hrest.below later hlater
      simp only [List.map_append, List.map_cons, List.append_assoc,
        List.singleton_append, List.append_cancel_left_eq, List.cons.injEq] at heq
      exact hother (heq.1 ▸ List.mem_cons_self)

end

/-! ### Names -/

mutual

theorem DocumentTree.chains_pathName (tree : DocumentTree) {chain : List (List Char)}
    {chains : List (List (List Char))} (hchain : ∀ name ∈ chain, PathName name)
    (h : tree.chains lower chain = some chains) : ∀ c ∈ chains, ∀ name ∈ c, PathName name := by
  cases tree with
  | unreadable name =>
    rw [DocumentTree.chains] at h
    · obtain rfl := Option.some.inj h
      simpa using hchain
    · simp
  | file document =>
    rw [DocumentTree.chains] at h
    · obtain rfl := Option.some.inj h
      simpa using hchain
    · simp
  | directory uri name children =>
    rw [DocumentTree.chains] at h
    obtain ⟨below, hbelow, rfl⟩ := Option.map_eq_some_iff.1 h
    rw [List.forall_mem_cons]
    exact ⟨hchain, DocumentList.chains_pathName children hchain hbelow⟩

theorem DocumentList.chains_pathName (children : DocumentList) {chain names : List (List Char)}
    {chains : List (List (List Char))} (hchain : ∀ name ∈ chain, PathName name)
    (h : children.chains lower chain names = some chains) :
    ∀ c ∈ chains, ∀ name ∈ c, PathName name := by
  cases children with
  | nil =>
    rw [DocumentList.chains] at h
    obtain rfl := Option.some.inj h
    simp
  | cons child rest =>
    rw [DocumentList.chains] at h
    obtain ⟨reserved, hreserve, h⟩ := Option.bind_eq_some_iff.1 h
    obtain ⟨below, hbelow, h⟩ := Option.bind_eq_some_iff.1 h
    obtain ⟨after, hafter, rfl⟩ := Option.map_eq_some_iff.1 h
    have hname := (reserveName_spec (safeSegment_pathName _) hreserve).1
    have hbelowNames : ∀ name ∈ chain ++ [reserved.1], PathName name := by
      intro name hmem
      rcases List.mem_append.1 hmem with hold | hlast
      · exact hchain name hold
      · exact List.mem_singleton.1 hlast ▸ hname
    intro c hc
    rcases List.mem_append.1 hc with hfirst | hlater
    · exact DocumentTree.chains_pathName child hbelowNames hbelow c hfirst
    · exact DocumentList.chains_pathName rest hchain hafter c hlater

end

/-! ### Directories first -/

def ParentBefore (facts : List DocumentFacts) (chains : List (List (List Char))) (i : Nat)
    (c : List (List Char)) : Prop :=
  ∃ j < i, ∃ parent name directory, chains[j]? = some parent ∧ facts[j]? = some directory ∧
    directory.kind = .directory ∧ c = parent ++ [name]

theorem ParentBefore.append_right {facts facts' : List DocumentFacts}
    {chains chains' : List (List (List Char))} {i : Nat} {c : List (List Char)}
    (h : ParentBefore facts chains i c) :
    ParentBefore (facts ++ facts') (chains ++ chains') i c := by
  obtain ⟨j, hj, parent, name, directory, hparent, hdirectory, hrest⟩ := h
  refine ⟨j, hj, parent, name, directory, ?_, ?_, hrest⟩
  · rw [List.getElem?_append_left (List.getElem?_eq_some_iff.1 hparent).1, hparent]
  · rw [List.getElem?_append_left (List.getElem?_eq_some_iff.1 hdirectory).1, hdirectory]

theorem ParentBefore.append_left {facts facts' : List DocumentFacts}
    {chains chains' : List (List (List Char))} {i : Nat} {c : List (List Char)}
    (hlength : facts'.length = chains'.length) (h : ParentBefore facts chains i c) :
    ParentBefore (facts' ++ facts) (chains' ++ chains) (chains'.length + i) c := by
  obtain ⟨j, hj, parent, name, directory, hparent, hdirectory, hrest⟩ := h
  refine ⟨chains'.length + j, by omega, parent, name, directory, ?_, ?_, hrest⟩
  · rw [List.getElem?_append_right (by omega), Nat.add_sub_cancel_left, hparent]
  · rw [List.getElem?_append_right (by omega), hlength, Nat.add_sub_cancel_left, hdirectory]

mutual

theorem DocumentTree.chains_parent (tree : DocumentTree) {chain : List (List Char)}
    {facts : List DocumentFacts} {chains : List (List (List Char))} {i : Nat}
    {c : List (List Char)} (hfacts : tree.facts = some facts)
    (h : tree.chains lower chain = some chains) (hc : chains[i]? = some c) :
    c = chain ∨ ParentBefore facts chains i c := by
  cases tree with
  | unreadable name => cases hfacts
  | file document =>
    rw [DocumentTree.chains] at h
    · obtain rfl := Option.some.inj h
      exact .inl (List.mem_singleton.1 (List.mem_of_getElem? hc))
    · simp
  | directory uri name children =>
    rw [DocumentTree.facts] at hfacts
    rw [DocumentTree.chains] at h
    obtain ⟨own, hown, rfl⟩ := Option.map_eq_some_iff.1 hfacts
    obtain ⟨below, hbelow, rfl⟩ := Option.map_eq_some_iff.1 h
    cases i with
    | zero => exact .inl (Option.some.inj hc).symm
    | succ i =>
      right
      rw [List.getElem?_cons_succ] at hc
      rcases DocumentList.chains_parent children hown hbelow hc with ⟨name, rfl⟩ | hparent
      · exact ⟨0, by omega, chain, name, _, rfl, rfl, rfl, rfl⟩
      · have hshift : ParentBefore ([{ uri, kind := .directory }] ++ own) ([chain] ++ below)
            ([chain].length + i) c := hparent.append_left rfl
        rw [List.length_singleton, Nat.add_comm] at hshift
        exact hshift

theorem DocumentList.chains_parent (children : DocumentList) {chain names : List (List Char)}
    {facts : List DocumentFacts} {chains : List (List (List Char))} {i : Nat}
    {c : List (List Char)} (hfacts : children.facts = some facts)
    (h : children.chains lower chain names = some chains) (hc : chains[i]? = some c) :
    (∃ name, c = chain ++ [name]) ∨ ParentBefore facts chains i c := by
  cases children with
  | nil =>
    rw [DocumentList.chains] at h
    obtain rfl := Option.some.inj h
    cases hc
  | cons child rest =>
    rw [DocumentList.facts] at hfacts
    rw [DocumentList.chains] at h
    obtain ⟨own, hown, hfacts⟩ := Option.bind_eq_some_iff.1 hfacts
    obtain ⟨others, hothers, rfl⟩ := Option.map_eq_some_iff.1 hfacts
    obtain ⟨reserved, -, h⟩ := Option.bind_eq_some_iff.1 h
    obtain ⟨below, hbelow, h⟩ := Option.bind_eq_some_iff.1 h
    obtain ⟨after, hafter, rfl⟩ := Option.map_eq_some_iff.1 h
    have hlength := DocumentTree.length_chains child hown hbelow
    rw [List.getElem?_append] at hc
    split at hc
    · rcases DocumentTree.chains_parent child hown hbelow hc with rfl | hparent
      · exact .inl ⟨reserved.1, rfl⟩
      · exact .inr hparent.append_right
    · rename_i hout
      rcases DocumentList.chains_parent rest hothers hafter hc with hdirect | hparent
      · exact .inl hdirect
      · have hshift := hparent.append_left hlength
        rw [Nat.add_sub_cancel' (not_lt.1 hout)] at hshift
        exact .inr hshift

end

/-! ### A selection -/

theorem fileChains_spec (documents : List DocumentMetadata) {names : List (List Char)}
    {chains : List (List (List Char))} (h : fileChains lower documents names = some chains) :
    (∀ c ∈ chains, ∃ name, c = [name] ∧ PathName name ∧ lower name ∉ names) ∧
      (chains.map (List.map lower)).Nodup := by
  induction documents generalizing names chains with
  | nil =>
    obtain rfl := Option.some.inj h
    simp
  | cons document rest ih =>
    rw [fileChains] at h
    obtain ⟨⟨name, names'⟩, hreserve, h⟩ := Option.bind_eq_some_iff.1 h
    obtain ⟨after, hafter, rfl⟩ := Option.map_eq_some_iff.1 h
    obtain ⟨hpath, hfree, rfl⟩ := reserveName_spec (safeSegment_pathName _) hreserve
    obtain ⟨hnames, hnodup⟩ := ih hafter
    rw [List.forall_mem_cons]
    refine ⟨⟨⟨name, rfl, hpath, hfree⟩, ?_⟩, ?_⟩
    · intro c hc
      obtain ⟨other, rfl, hother, hnew⟩ := hnames c hc
      exact ⟨other, rfl, hother, fun hmem => hnew (List.mem_cons_of_mem _ hmem)⟩
    · rw [List.map_cons, List.nodup_cons]
      refine ⟨?_, hnodup⟩
      intro hmem
      obtain ⟨c, hc, heq⟩ := List.mem_map.1 hmem
      obtain ⟨other, rfl, -, hnew⟩ := hnames c hc
      simp only [List.map_cons, List.map_nil, List.cons.injEq, and_true] at heq
      exact hnew (heq ▸ List.mem_cons_self)

theorem length_fileChains (documents : List DocumentMetadata) {names : List (List Char)}
    {facts : List DocumentFacts} {chains : List (List (List Char))}
    (hfacts : fileFacts documents = some facts)
    (h : fileChains lower documents names = some chains) :
    facts.length = chains.length := by
  induction documents generalizing names facts chains with
  | nil =>
    obtain rfl := Option.some.inj hfacts
    obtain rfl := Option.some.inj h
    rfl
  | cons document rest ih =>
    rw [fileFacts] at hfacts
    rw [fileChains] at h
    obtain ⟨size, -, hfacts⟩ := Option.bind_eq_some_iff.1 hfacts
    obtain ⟨others, hothers, rfl⟩ := Option.map_eq_some_iff.1 hfacts
    obtain ⟨reserved, -, h⟩ := Option.bind_eq_some_iff.1 h
    obtain ⟨after, hafter, rfl⟩ := Option.map_eq_some_iff.1 h
    rw [List.length_cons, List.length_cons, ih hothers hafter]

structure SelectionChains (lower : List Char → List Char) (facts : List DocumentFacts)
    (chains : List (List (List Char))) : Prop where
  length : facts.length = chains.length
  nonempty : ∀ c ∈ chains, c ≠ []
  pathName : ∀ c ∈ chains, ∀ name ∈ c, PathName name
  distinct : (chains.map (List.map lower)).Nodup
  parent : ∀ (i : Nat) (c : List (List Char)), chains[i]? = some c →
    (∃ name, c = [name]) ∨ ParentBefore facts chains i c

theorem DocumentSelection.chains_spec (selection : DocumentSelection) {facts : List DocumentFacts}
    {chains : List (List (List Char))} (hfacts : selection.facts = some facts)
    (h : selection.chains lower = some chains) : SelectionChains lower facts chains := by
  cases selection with
  | files documents =>
    rw [DocumentSelection.facts] at hfacts
    split_ifs at hfacts with hempty
    obtain ⟨hnames, hnodup⟩ := fileChains_spec documents h
    refine ⟨length_fileChains documents hfacts h, ?_, ?_, hnodup, ?_⟩
    · intro c hc
      obtain ⟨name, rfl, -⟩ := hnames c hc
      exact List.cons_ne_nil _ _
    · intro c hc
      obtain ⟨name, rfl, hpath, -⟩ := hnames c hc
      simpa using hpath
    · intro i c hc
      obtain ⟨name, rfl, -⟩ := hnames c (List.mem_of_getElem? hc)
      exact .inl ⟨name, rfl⟩
  | directory uri name children =>
    have hroot : ∀ other ∈ [safeSegment name], PathName other := by
      simpa using safeSegment_pathName name
    obtain ⟨hbelow, hnodup⟩ := DocumentTree.chains_distinct _ h
    refine ⟨DocumentTree.length_chains _ hfacts h, ?_, DocumentTree.chains_pathName _ hroot h,
      hnodup, ?_⟩
    · intro c hc
      obtain ⟨rest, rfl⟩ := hbelow c hc
      simp
    · intro i c hc
      rcases DocumentTree.chains_parent _ hfacts h hc with rfl | hparent
      · exact .inl ⟨safeSegment name, rfl⟩
      · exact .inr hparent

/-! ### Other names -/

mutual

/-- The same document without its names. -/
def DocumentTree.unnamed : DocumentTree → DocumentTree
  | .file document => .file { document with name := [] }
  | .directory uri _ children => .directory uri [] children.unnamed
  | .unreadable _ => .unreadable []

def DocumentList.unnamed : DocumentList → DocumentList
  | .nil => .nil
  | .cons child rest => .cons child.unnamed rest.unnamed

end

def DocumentSelection.unnamed : DocumentSelection → DocumentSelection
  | .files documents => .files (documents.map fun document => { document with name := [] })
  | .directory uri _ children => .directory uri [] children.unnamed

mutual

theorem DocumentTree.facts_unnamed (tree : DocumentTree) : tree.unnamed.facts = tree.facts := by
  cases tree with
  | file document => rfl
  | unreadable name => rfl
  | directory uri name children =>
    rw [DocumentTree.unnamed, DocumentTree.facts, DocumentTree.facts,
      DocumentList.facts_unnamed children]

theorem DocumentList.facts_unnamed (children : DocumentList) :
    children.unnamed.facts = children.facts := by
  cases children with
  | nil => rfl
  | cons child rest =>
    rw [DocumentList.unnamed, DocumentList.facts, DocumentList.facts,
      DocumentTree.facts_unnamed child, DocumentList.facts_unnamed rest]

end

theorem fileFacts_unnamed (documents : List DocumentMetadata) :
    fileFacts (documents.map fun document => { document with name := [] }) =
      fileFacts documents := by
  induction documents with
  | nil => rfl
  | cons document rest ih => rw [List.map_cons, fileFacts, fileFacts, ih]

theorem DocumentSelection.facts_unnamed (selection : DocumentSelection) :
    selection.unnamed.facts = selection.facts := by
  cases selection with
  | files documents =>
    rw [DocumentSelection.unnamed, DocumentSelection.facts, DocumentSelection.facts,
      fileFacts_unnamed]
    simp only [List.map_eq_nil_iff]
  | directory uri name children => exact DocumentTree.facts_unnamed (.directory uri name children)

mutual

/-- How many names lead to the entries of a tree, `depth` to the tree itself. -/
def DocumentTree.depths : DocumentTree → Nat → List Nat
  | .directory _ _ children, depth => depth :: children.depths depth
  | _, depth => [depth]

def DocumentList.depths : DocumentList → Nat → List Nat
  | .nil, _ => []
  | .cons child rest, depth => child.depths (depth + 1) ++ rest.depths depth

end

def DocumentSelection.depths : DocumentSelection → List Nat
  | .files documents => documents.map fun _ => 1
  | .directory uri name children => (DocumentTree.directory uri name children).depths 1

mutual

theorem DocumentTree.depths_unnamed (tree : DocumentTree) (depth : Nat) :
    tree.unnamed.depths depth = tree.depths depth := by
  cases tree with
  | file document => rfl
  | unreadable name => rfl
  | directory uri name children =>
    rw [DocumentTree.unnamed, DocumentTree.depths, DocumentTree.depths,
      DocumentList.depths_unnamed children]

theorem DocumentList.depths_unnamed (children : DocumentList) (depth : Nat) :
    children.unnamed.depths depth = children.depths depth := by
  cases children with
  | nil => rfl
  | cons child rest =>
    rw [DocumentList.unnamed, DocumentList.depths, DocumentList.depths,
      DocumentTree.depths_unnamed child, DocumentList.depths_unnamed rest]

end

theorem DocumentSelection.depths_unnamed (selection : DocumentSelection) :
    selection.unnamed.depths = selection.depths := by
  cases selection with
  | files documents =>
    rw [DocumentSelection.unnamed, DocumentSelection.depths, List.map_map]
    rfl
  | directory uri name children =>
    exact DocumentTree.depths_unnamed (.directory uri name children) 1

mutual

theorem DocumentTree.map_length_chains (tree : DocumentTree) {chain : List (List Char)}
    {chains : List (List (List Char))} (h : tree.chains lower chain = some chains) :
    chains.map List.length = tree.depths chain.length := by
  cases tree with
  | unreadable name =>
    rw [DocumentTree.chains] at h
    · obtain rfl := Option.some.inj h
      rfl
    · simp
  | file document =>
    rw [DocumentTree.chains] at h
    · obtain rfl := Option.some.inj h
      rfl
    · simp
  | directory uri name children =>
    rw [DocumentTree.chains] at h
    obtain ⟨below, hbelow, rfl⟩ := Option.map_eq_some_iff.1 h
    rw [List.map_cons, DocumentTree.depths, DocumentList.map_length_chains children hbelow]

theorem DocumentList.map_length_chains (children : DocumentList) {chain names : List (List Char)}
    {chains : List (List (List Char))} (h : children.chains lower chain names = some chains) :
    chains.map List.length = children.depths chain.length := by
  cases children with
  | nil =>
    rw [DocumentList.chains] at h
    obtain rfl := Option.some.inj h
    rfl
  | cons child rest =>
    rw [DocumentList.chains] at h
    obtain ⟨reserved, -, h⟩ := Option.bind_eq_some_iff.1 h
    obtain ⟨below, hbelow, h⟩ := Option.bind_eq_some_iff.1 h
    obtain ⟨after, hafter, rfl⟩ := Option.map_eq_some_iff.1 h
    have hown := DocumentTree.map_length_chains child hbelow
    rw [List.length_append, List.length_singleton] at hown
    rw [List.map_append, DocumentList.depths, hown, DocumentList.map_length_chains rest hafter]

end

theorem DocumentSelection.map_length_chains (selection : DocumentSelection)
    {chains : List (List (List Char))} (h : selection.chains lower = some chains) :
    chains.map List.length = selection.depths := by
  cases selection with
  | directory uri name children => exact DocumentTree.map_length_chains _ h
  | files documents =>
    rw [DocumentSelection.chains] at h
    rw [DocumentSelection.depths]
    generalize ([] : List (List Char)) = names at h
    induction documents generalizing names chains with
    | nil =>
      obtain rfl := Option.some.inj h
      rfl
    | cons document rest ih =>
      rw [fileChains] at h
      obtain ⟨reserved, -, h⟩ := Option.bind_eq_some_iff.1 h
      obtain ⟨after, hafter, rfl⟩ := Option.map_eq_some_iff.1 h
      rw [List.map_cons, List.map_cons, ih reserved.2 hafter]
      rfl

end Chains

end FlowType
