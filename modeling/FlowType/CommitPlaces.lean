import FlowType.TargetCommit

/-! Where the documents of an entry may be while its file is committed: in each phase the row of
the entry says under which addresses they are. With it, what writing and deleting a document
leave of the others. -/
namespace FlowType

namespace CommitWorld

variable (digest : List UInt8 → String) (size : Nat)

def Own (s : CommitWorld) (r : TargetDocument) : Prop := r ∈ s.docs.rows ∧ r.own = true

section Places

variable (own : TargetDocument → Prop) (row : EntryRow)

def OwnIn (places : Nat → Prop) : Prop := ∀ r, own r → places r.uri

/-- A document of this entry has the content that was verified. -/
def Has (uri : Nat) : Prop :=
  ∃ r hash, own r ∧ r.uri = uri ∧ row.commitSha256 = some hash ∧ r.content.length = size ∧
    digest r.content = hash

def Placed : Prop :=
  OwnIn own (fun uri => row.targetUri = some uri ∨ row.finalUri = some uri) ∨
    (row.finalUri = none ∧ (∃ renamed, OwnIn own (· = renamed)) ∧
      OwnIn own fun uri => row.targetUri ≠ some uri)

structure OnlyTarget : Prop where
  finalUri : row.finalUri = none
  only : OwnIn own fun uri => row.targetUri = some uri

def TargetAnd (finalUri : Nat) : Prop :=
  OwnIn own fun uri => row.targetUri = some uri ∨ uri = finalUri

/-- What a row that is not completed and the documents are in each phase. -/
def Open : CommitPhase → Prop
  | .idle => Placed own row
  | .recovering _ => Placed own row
  | .matched _ candidate => Placed own row ∧ Has digest size own row candidate ∧
      TargetAnd own row candidate
  | .rejecting _ candidate => row.finalUri = some candidate ∧ TargetAnd own row candidate
  | .unjournaling _ candidate => row.finalUri = some candidate ∧
      OwnIn own fun uri => row.targetUri = some uri
  | .discardingFinal _ => Placed own row
  | .discardingTarget => Placed own row
  | .downloading => row.finalUri = none ∧ Placed own row
  | .naming hash => OnlyTarget own row ∧ ∃ r, own r ∧ row.targetUri = some r.uri ∧
      r.content.length = size ∧ digest r.content = hash
  | .journaling hash => OnlyTarget own row ∧ ∃ r, own r ∧ row.targetUri = some r.uri ∧
      r.content.length = size ∧ digest r.content = hash
  | .renamingTarget => OnlyTarget own row ∧ ∃ target, row.targetUri = some target ∧
      Has digest size own row target
  | .renamed uri => row.finalUri = none ∧ OwnIn own (· = uri) ∧ Has digest size own row uri
  | .creating => OnlyTarget own row ∧ ∃ target, row.targetUri = some target ∧
      Has digest size own row target
  | .created finalUri => row.finalUri = none ∧ TargetAnd own row finalUri ∧
      ∃ target, row.targetUri = some target ∧ target ≠ finalUri ∧ Has digest size own row target
  | .copying finalUri => row.finalUri = some finalUri ∧ TargetAnd own row finalUri ∧
      ∃ target, row.targetUri = some target ∧ target ≠ finalUri ∧ Has digest size own row target
  | .copied finalUri => row.finalUri = some finalUri ∧ TargetAnd own row finalUri ∧
      Has digest size own row finalUri ∧ row.targetUri ≠ some finalUri
  | .undoing finalUri => (row.finalUri = none ∨ row.finalUri = some finalUri) ∧
      TargetAnd own row finalUri
  | .retiring _ => False

def Complete : CommitPhase → Prop
  | .idle => ∃ uri, row.targetUri = some uri ∧ Has digest size own row uri ∧ OwnIn own (· = uri)
  | .retiring old => ∃ uri, row.targetUri = some uri ∧ Has digest size own row uri ∧ uri ≠ old ∧
      OwnIn own fun other => other = uri ∨ other = old
  | _ => False

end Places

structure Inv (s : CommitWorld) : Prop where
  places : if s.row.completed then Complete digest size s.Own s.row s.phase
    else Open digest size s.Own s.row s.phase
  mine : ∀ uri, s.Holds uri → ∀ r ∈ s.docs.rows, r.uri = uri → r.own = true
  journal : s.row.commitSha256 = none → s.row.finalUri = none

def Spares (s s' : CommitWorld) : Prop := ∀ r ∈ s.docs.rows, r.own = false → r ∈ s'.docs.rows

variable {digest : List UInt8 → String} {size : Nat} {s s' : CommitWorld}
  {own own' : TargetDocument → Prop} {row : EntryRow} {uri : Nat}

theorem get?_eq_some_iff {r : TargetDocument} :
    s.docs.get? uri = some r ↔ r ∈ s.docs.rows ∧ r.uri = uri := KeyedTable.find?_eq_some_iff

theorem get?_eq_none_iff : s.docs.get? uri = none ↔ ∀ r ∈ s.docs.rows, r.uri ≠ uri := by
  rw [Option.eq_none_iff_forall_ne_some]
  constructor
  · intro h r hr heq
    exact h r (get?_eq_some_iff.2 ⟨hr, heq⟩)
  · intro h r hr
    obtain ⟨hmem, heq⟩ := get?_eq_some_iff.1 hr
    exact h r hmem heq

theorem Own.unique {r r' : TargetDocument} (h : s.Own r) (h' : s.Own r') (huri : r.uri = r'.uri) :
    r = r' := KeyedTable.eq_of_key_eq h.1 h'.1 huri

theorem mem_write {r r₀ : TargetDocument} {content : List UInt8}
    (hfound : s.docs.get? uri = some r₀) :
    r ∈ (s.write uri content).docs.rows ↔
      (r ∈ s.docs.rows ∧ r.uri ≠ uri) ∨ r = { r₀ with content := content } := by
  obtain ⟨_, hkey⟩ := get?_eq_some_iff.1 hfound
  rw [write, hfound]
  dsimp only
  rw [KeyedTable.mem_insert]
  dsimp only
  rw [hkey]

theorem mem_delete {r : TargetDocument} :
    r ∈ (s.delete (some uri) true).docs.rows ↔ r ∈ s.docs.rows ∧ r.uri ≠ uri := by
  rw [delete]
  exact KeyedTable.mem_delete

theorem write_row (uri : Nat) (content : List UInt8) : (s.write uri content).row = s.row := by
  unfold write
  split <;> rfl

theorem delete_row (uri : Option Nat) (deleted : Bool) : (s.delete uri deleted).row = s.row := by
  unfold delete
  split
  · rfl
  · split_ifs <;> rfl

theorem OwnIn.mono {places : Nat → Prop} (h : OwnIn own places)
    (hown : ∀ r, own' r → ∃ r₀, own r₀ ∧ r₀.uri = r.uri) : OwnIn own' places := by
  intro r hr
  have ⟨r₀, hr₀, heq⟩ := hown r hr
  exact heq ▸ h r₀ hr₀

theorem OwnIn.imp {places places' : Nat → Prop} (h : OwnIn own places)
    (himp : ∀ uri, places uri → places' uri) : OwnIn own places' :=
  fun r hr => himp r.uri (h r hr)

theorem OwnIn.erase {places : Nat → Prop} (h : OwnIn own fun other => places other ∨ other = uri)
    (hown : ∀ r, own' r → own r ∧ r.uri ≠ uri) : OwnIn own' places := by
  intro r hr
  have ⟨hold, hne⟩ := hown r hr
  exact (h r hold).resolve_right hne

theorem Has.mono (h : Has digest size own row uri)
    (hown : ∀ r, own r → r.uri = uri → own' r) : Has digest size own' row uri := by
  obtain ⟨r, hash, hr, huri, hrest⟩ := h
  exact ⟨r, hash, hown r hr huri, huri, hrest⟩

theorem Placed.mono (h : Placed own row)
    (hown : ∀ r, own' r → ∃ r₀, own r₀ ∧ r₀.uri = r.uri) : Placed own' row := by
  rcases h with hplaces | ⟨hfinal, ⟨renamed, hrenamed⟩, hmoved⟩
  · exact .inl (hplaces.mono hown)
  · exact .inr ⟨hfinal, ⟨renamed, hrenamed.mono hown⟩, hmoved.mono hown⟩

theorem OnlyTarget.placed (h : OnlyTarget own row) : Placed own row :=
  .inl (h.only.imp fun _ => .inl)

theorem TargetAnd.placed (h : TargetAnd own row uri) (hfinal : row.finalUri = some uri) :
    Placed own row := by
  apply Or.inl
  intro r hr
  rcases h r hr with htarget | heq
  · exact .inl htarget
  · exact .inr (heq ▸ hfinal)

/-- The target is there, so it has not been renamed. -/
theorem Placed.onlyTarget (h : Placed own row) (hfinal : row.finalUri = none) {r : TargetDocument}
    (hr : own r) (htarget : row.targetUri = some r.uri) : OnlyTarget own row := by
  rcases h with hplaces | ⟨-, -, hmoved⟩
  · refine ⟨hfinal, hplaces.imp fun other hother => hother.resolve_right ?_⟩
    rw [hfinal]
    exact fun hnone => nomatch hnone
  · exact absurd htarget (hmoved r hr)

/-- The document that is found is the final one, or the renamed target. -/
theorem Placed.targetAnd (h : Placed own row) {r : TargetDocument} (hr : own r)
    (hfinal : row.finalUri = none ∨ row.finalUri = some r.uri) : TargetAnd own row r.uri := by
  intro r' hr'
  rcases h with hplaces | ⟨-, ⟨renamed, hrenamed⟩, -⟩
  · rcases hplaces r' hr' with htarget | hother
    · exact .inl htarget
    · apply Or.inr
      rcases hfinal with hnone | hsome
      · rw [hnone] at hother
        exact nomatch hother
      · exact Option.some.inj (hother.symm.trans hsome)
  · exact .inr ((hrenamed r' hr').trans (hrenamed r hr).symm)

theorem own_write {r r₀ : TargetDocument} {content : List UInt8}
    (hfound : s.docs.get? uri = some r₀) (hmine : r₀.own = true) :
    (s.write uri content).Own r ↔ (s.Own r ∧ r.uri ≠ uri) ∨ r = { r₀ with content := content } := by
  rw [Own, Own, mem_write hfound]
  constructor
  · rintro ⟨⟨hmem, hne⟩ | heq, hown⟩
    · exact .inl ⟨⟨hmem, hown⟩, hne⟩
    · exact .inr heq
  · rintro (⟨⟨hmem, hown⟩, hne⟩ | rfl)
    · exact ⟨.inl ⟨hmem, hne⟩, hown⟩
    · exact ⟨.inr rfl, hmine⟩

theorem write_uris {r r₀ : TargetDocument} {content : List UInt8}
    (hfound : s.docs.get? uri = some r₀) (hmine : r₀.own = true)
    (hr : (s.write uri content).Own r) : ∃ r₀, s.Own r₀ ∧ r₀.uri = r.uri := by
  rcases (own_write hfound hmine).1 hr with ⟨hown, -⟩ | rfl
  · exact ⟨r, hown, rfl⟩
  · exact ⟨r₀, ⟨(get?_eq_some_iff.1 hfound).1, hmine⟩, rfl⟩

theorem write_foreign {r r₀ : TargetDocument} {content : List UInt8}
    (hfound : s.docs.get? uri = some r₀) (hmine : r₀.own = true)
    (hr : r ∈ (s.write uri content).docs.rows) (hfalse : r.own = false) : r ∈ s.docs.rows := by
  rcases (mem_write hfound).1 hr with ⟨hmem, -⟩ | rfl
  · exact hmem
  · exact absurd (hmine.symm.trans hfalse) nofun

theorem write_spares {r₀ : TargetDocument} {content : List UInt8}
    (hfound : s.docs.get? uri = some r₀) (hmine : r₀.own = true) :
    Spares s (s.write uri content) := by
  intro r hr hfalse
  apply (mem_write hfound).2
  refine .inl ⟨hr, ?_⟩
  intro huri
  have ⟨hmem, hkey⟩ := get?_eq_some_iff.1 hfound
  have heq : r = r₀ := KeyedTable.eq_of_key_eq hr hmem (huri.trans hkey.symm)
  rw [heq, hmine] at hfalse
  exact nomatch hfalse

theorem delete_subset {r : TargetDocument} {uri : Option Nat} {deleted : Bool}
    (hr : r ∈ (s.delete uri deleted).docs.rows) : r ∈ s.docs.rows := by
  cases uri with
  | none => exact hr
  | some uri =>
    cases deleted with
    | false => exact hr
    | true => exact (mem_delete.1 hr).1

theorem delete_removes {r : TargetDocument} {deleted : Bool} (h : s.Removes uri deleted)
    (hr : r ∈ (s.delete (some uri) deleted).docs.rows) : r.uri ≠ uri := by
  cases deleted with
  | true => exact (mem_delete.1 hr).2
  | false =>
    have hnone : s.docs.get? uri = none := h.resolve_left Bool.false_ne_true
    exact get?_eq_none_iff.1 hnone r hr

/-- A deletion under an address where only own documents are. -/
theorem delete_spares {uri : Option Nat} {deleted : Bool}
    (hmine : ∀ other, uri = some other → ∀ r ∈ s.docs.rows, r.uri = other → r.own = true) :
    Spares s (s.delete uri deleted) := by
  intro r hr hfalse
  cases uri with
  | none => exact hr
  | some uri =>
    cases deleted with
    | false => exact hr
    | true =>
      refine mem_delete.2 ⟨hr, ?_⟩
      intro huri
      exact absurd ((hmine uri rfl r hr huri).symm.trans hfalse) nofun

theorem own_delete {r : TargetDocument} {uri : Option Nat} {deleted : Bool}
    (h : (s.delete uri deleted).Own r) : ∃ r₀, s.Own r₀ ∧ r₀.uri = r.uri :=
  ⟨r, ⟨delete_subset h.1, h.2⟩, rfl⟩

theorem own_removed {r : TargetDocument} {deleted : Bool} (hremoves : s.Removes uri deleted)
    (h : (s.delete (some uri) deleted).Own r) : s.Own r ∧ r.uri ≠ uri :=
  ⟨⟨delete_subset h.1, h.2⟩, delete_removes hremoves h.1⟩

end CommitWorld

end FlowType
