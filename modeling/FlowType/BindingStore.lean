import Mathlib.Data.List.Sort
import FlowType.KeyedTable

/-! `BindingStore`: the table `computers` of the phone's database. Each function runs on
the main thread and as a whole. -/
namespace FlowType

namespace BindingStore

/-- `ComputerBinding`, with all its columns. -/
structure Binding where
  pcId : String
  pcName : String
  endpoint : String
  tlsSpkiSha256 : String
  pairingToken : Option String := none
  endpoints : List String := [endpoint]
  deriving DecidableEq, Repr

def Binding.nextPairingEndpoint (binding : Binding) : Binding :=
  if binding.pairingToken = none then binding
  else
    let candidates := (binding.endpoint :: binding.endpoints).eraseDups
    if candidates.length < 2 then binding
    else
      let next := candidates.getD
        ((candidates.idxOf binding.endpoint + 1) % candidates.length) binding.endpoint
      { binding with endpoint := next, endpoints := candidates }

def Binding.pairedAtCurrentEndpoint (binding : Binding) : Binding :=
  { binding with pairingToken := none, endpoints := [binding.endpoint] }

/-- A row of `computers`. The column `auto_select` is only written. -/
structure Row where
  pcId : String
  pcName : String
  endpoint : String
  tlsSpkiSha256 : String
  pairingToken : Option String
  endpointCandidates : List String
  selected : Bool
  addedAt : Nat
  deriving DecidableEq, Repr

def Row.binding (row : Row) : Binding where
  pcId := row.pcId
  pcName := row.pcName
  endpoint := row.endpoint
  tlsSpkiSha256 := row.tlsSpkiSha256
  pairingToken := row.pairingToken
  endpoints := (row.endpoint :: row.endpointCandidates).eraseDups

def values (binding : Binding) (selected : Bool) (now : Nat) : Row where
  pcId := binding.pcId
  pcName := binding.pcName
  endpoint := binding.endpoint
  tlsSpkiSha256 := binding.tlsSpkiSha256
  pairingToken := binding.pairingToken
  endpointCandidates := if binding.pairingToken = none then [binding.endpoint]
    else (binding.endpoint :: binding.endpoints).eraseDups
  selected
  addedAt := now

/-- `selected DESC, added_at DESC`, and the order of the table where both are equal. -/
def Row.Precedes (row row' : Row) : Prop :=
  (row'.selected = false ∧ row.selected = true) ∨
    (row.selected = row'.selected ∧ row'.addedAt ≤ row.addedAt)

instance : DecidableRel Row.Precedes := fun row row' => by
  unfold Row.Precedes
  infer_instance

/-- What Kotlin's `trim` takes for white space. -/
def isWhitespace (c : Char) : Bool :=
  let n := c.toNat
  (9 ≤ n && n ≤ 13) || (28 ≤ n && n ≤ 32) || n == 0xA0 || n == 0x1680 ||
    (0x2000 ≤ n && n ≤ 0x200A) || n == 0x2028 || n == 0x2029 || n == 0x202F || n == 0x205F ||
    n == 0x3000

def isBlank (text : String) : Bool := text.toList.all isWhitespace

def trim (text : String) : String :=
  String.ofList ((text.toList.dropWhile isWhitespace).reverse.dropWhile isWhitespace).reverse

/-- The table `computers`. -/
abbrev Computers := KeyedTable Row.pcId

namespace Computers

def query (t : Computers) (p : Row → Bool) : List Binding :=
  ((t.rows.filter p).insertionSort Row.Precedes).map Row.binding

def load (t : Computers) : Option Binding := (t.query Row.selected).head?

def list (t : Computers) : List Binding := t.query fun _ => true

def get (t : Computers) (pcId : String) : Option Binding :=
  (t.query fun row => decide (row.pcId = pcId)).head?

/-- `save`'s first statement. -/
def deselect (t : Computers) : Computers :=
  t.update (fun row => { row with selected := false }) fun _ => rfl

def save (t : Computers) (binding : Binding) (now : Nat) : Computers :=
  t.deselect.insert (values binding true now)

def select (t : Computers) (pcId : String) (now : Nat) : Option (Computers × Binding) :=
  (t.get pcId).map fun binding => (t.save binding now, binding)

/-- A blank name throws. -/
def rename (t : Computers) (pcId name : String) : Option Computers :=
  if isBlank name then none
  else some (t.update
    (fun row => if row.pcId = pcId then { row with pcName := trim name } else row)
    fun row => by split <;> rfl)

def remove (t : Computers) (pcId : String) (now : Nat) : Computers :=
  let wasSelected := t.load.map (·.pcId) = some pcId
  let rest : Computers := t.delete pcId
  if wasSelected then
    match rest.list with
    | [] => rest
    | binding :: _ => save rest binding now
  else rest

def markPaired (t : Computers) (binding : Binding) (now : Nat) : Computers × Binding :=
  (t.save binding.pairedAtCurrentEndpoint now, binding.pairedAtCurrentEndpoint)

theorem mem_query {t : Computers} {p : Row → Bool} {binding : Binding} :
    binding ∈ t.query p ↔ ∃ row ∈ t.rows, p row = true ∧ row.binding = binding := by
  have hperm := List.perm_insertionSort Row.Precedes (t.rows.filter p)
  simp only [query, List.mem_map, hperm.mem_iff, List.mem_filter, and_assoc]

theorem mem_list {t : Computers} {binding : Binding} :
    binding ∈ t.list ↔ ∃ row ∈ t.rows, row.binding = binding := by
  simp [list, mem_query]

theorem get_eq_some {t : Computers} {pcId : String} {binding : Binding}
    (h : t.get pcId = some binding) : ∃ row ∈ t.rows, row.pcId = pcId ∧ row.binding = binding := by
  obtain ⟨row, hrow, hid, rfl⟩ := mem_query.mp (List.mem_of_mem_head? h)
  exact ⟨row, hrow, of_decide_eq_true hid, rfl⟩

/-- The rows after a save: the other computers as they were but not selected, and the
saved one. -/
theorem mem_save {t : Computers} {binding : Binding} {now : Nat} {row : Row} :
    row ∈ (t.save binding now).rows ↔
      (∃ old ∈ t.rows, old.pcId ≠ binding.pcId ∧ { old with selected := false } = row) ∨
        row = values binding true now := by
  rw [save, KeyedTable.mem_insert, deselect, KeyedTable.mem_update]
  constructor
  · rintro (⟨⟨old, hold, rfl⟩, hne⟩ | hnew)
    · exact Or.inl ⟨old, hold, hne, rfl⟩
    · exact Or.inr hnew
  · rintro (⟨old, hold, hne, rfl⟩ | hnew)
    · exact Or.inl ⟨⟨old, hold, rfl⟩, hne⟩
    · exact Or.inr hnew

theorem mem_rename {t t' : Computers} {pcId name : String} {row : Row}
    (h : t.rename pcId name = some t') : row ∈ t'.rows ↔ ∃ old ∈ t.rows,
      (if old.pcId = pcId then { old with pcName := trim name } else old) = row := by
  unfold rename at h
  split at h
  · cases h
  · cases h
    exact KeyedTable.mem_update

/-- The computers and their names. -/
def Shows (t : Computers) (pcId pcName : String) : Prop :=
  ∃ row ∈ t.rows, row.pcId = pcId ∧ row.pcName = pcName

theorem shows_save {t : Computers} {binding : Binding} {now : Nat} {pcId pcName : String} :
    (t.save binding now).Shows pcId pcName ↔
      (t.Shows pcId pcName ∧ pcId ≠ binding.pcId) ∨
        (pcId = binding.pcId ∧ pcName = binding.pcName) := by
  constructor
  · rintro ⟨row, hrow, rfl, rfl⟩
    rcases mem_save.mp hrow with ⟨old, hold, hne, rfl⟩ | rfl
    · exact Or.inl ⟨⟨old, hold, rfl, rfl⟩, hne⟩
    · exact Or.inr ⟨rfl, rfl⟩
  · rintro (⟨⟨old, hold, rfl, rfl⟩, hne⟩ | ⟨rfl, rfl⟩)
    · exact ⟨_, mem_save.mpr (Or.inl ⟨old, hold, hne, rfl⟩), rfl, rfl⟩
    · exact ⟨_, mem_save.mpr (Or.inr rfl), rfl, rfl⟩

theorem shows_delete {t : Computers} {k pcId pcName : String} :
    Shows (t.delete k) pcId pcName ↔ t.Shows pcId pcName ∧ pcId ≠ k := by
  constructor
  · rintro ⟨row, hrow, rfl, rfl⟩
    obtain ⟨hmem, hne⟩ := KeyedTable.mem_delete.mp hrow
    exact ⟨⟨row, hmem, rfl, rfl⟩, hne⟩
  · rintro ⟨⟨row, hmem, rfl, rfl⟩, hne⟩
    exact ⟨row, KeyedTable.mem_delete.mpr ⟨hmem, hne⟩, rfl, rfl⟩

theorem shows_rename {t t' : Computers} {k name pcId pcName : String}
    (h : t.rename k name = some t') : t'.Shows pcId pcName ↔
      (t.Shows pcId pcName ∧ pcId ≠ k) ∨
        (pcId = k ∧ pcName = trim name ∧ ∃ old, t.Shows k old) := by
  constructor
  · rintro ⟨row, hrow, rfl, rfl⟩
    obtain ⟨old, hold, rfl⟩ := (mem_rename h).mp hrow
    split
    · next hk => exact Or.inr ⟨hk, rfl, _, old, hold, hk, rfl⟩
    · next hk => exact Or.inl ⟨⟨old, hold, rfl, rfl⟩, hk⟩
  · rintro (⟨⟨old, hold, rfl, rfl⟩, hne⟩ | ⟨rfl, rfl, name', old, hold, hk, -⟩)
    · exact ⟨old, (mem_rename h).mpr ⟨old, hold, if_neg hne⟩, rfl, rfl⟩
    · exact ⟨_, (mem_rename h).mpr ⟨old, hold, if_pos hk⟩, hk, rfl⟩

/-- Saving a binding of the table again changes no name. -/
theorem shows_resave {t : Computers} {row : Row} (hrow : row ∈ t.rows) (now : Nat)
    (pcId pcName : String) :
    (t.save row.binding now).Shows pcId pcName ↔ t.Shows pcId pcName := by
  rw [shows_save]
  constructor
  · rintro (⟨hshows, -⟩ | ⟨rfl, rfl⟩)
    · exact hshows
    · exact ⟨row, hrow, rfl, rfl⟩
  · rintro ⟨old, hold, rfl, rfl⟩
    by_cases hk : old.pcId = row.binding.pcId
    · have heq : old = row := KeyedTable.eq_of_key_eq hold hrow hk
      exact Or.inr ⟨hk, congrArg Row.pcName heq⟩
    · exact Or.inl ⟨⟨old, hold, rfl, rfl⟩, hk⟩

theorem shows_select {t t' : Computers} {k pcId pcName : String} {now : Nat} {binding : Binding}
    (h : t.select k now = some (t', binding)) : t'.Shows pcId pcName ↔ t.Shows pcId pcName := by
  obtain ⟨found, hget, heq⟩ := Option.map_eq_some_iff.mp h
  obtain ⟨row, hrow, -, rfl⟩ := get_eq_some hget
  cases heq
  exact shows_resave hrow now pcId pcName

theorem shows_remove {t : Computers} {k pcId pcName : String} {now : Nat} :
    (t.remove k now).Shows pcId pcName ↔ t.Shows pcId pcName ∧ pcId ≠ k := by
  rw [← shows_delete]
  unfold remove
  dsimp only
  split
  · split
    · exact Iff.rfl
    · next binding _ hlist =>
      have hmem : binding ∈ list (t.delete k) := hlist ▸ List.mem_cons_self
      obtain ⟨row, hrow, rfl⟩ := mem_list.mp hmem
      exact shows_resave hrow now pcId pcName
  · exact Iff.rfl

/-- At most one row is selected, and one is if there is any. -/
structure OneSelected (t : Computers) : Prop where
  most : ∀ row ∈ t.rows, ∀ row' ∈ t.rows,
    row.selected = true → row'.selected = true → row = row'
  least : t.rows ≠ [] → ∃ row ∈ t.rows, row.selected = true

theorem oneSelected_save (t : Computers) (binding : Binding) (now : Nat) :
    (t.save binding now).OneSelected := by
  have honly : ∀ row ∈ (t.save binding now).rows, row.selected = true →
      row = values binding true now := by
    intro row hrow hselected
    rcases mem_save.mp hrow with ⟨old, -, -, rfl⟩ | hnew
    · cases hselected
    · exact hnew
  constructor
  · intro row hrow row' hrow' hselected hselected'
    rw [honly row hrow hselected, honly row' hrow' hselected']
  · exact fun _ => ⟨_, mem_save.mpr (Or.inr rfl), rfl⟩

theorem OneSelected.select {t t' : Computers} {k : String} {now : Nat} {binding : Binding}
    (h : t.select k now = some (t', binding)) : t'.OneSelected := by
  obtain ⟨found, -, heq⟩ := Option.map_eq_some_iff.mp h
  obtain ⟨rfl, rfl⟩ := Prod.mk.inj heq
  exact oneSelected_save t found now

theorem OneSelected.rename {t t' : Computers} {k name : String} (hone : t.OneSelected)
    (h : t.rename k name = some t') : t'.OneSelected := by
  have hkeeps : ∀ row ∈ t'.rows, ∃ old ∈ t.rows, row.selected = old.selected ∧
      (if old.pcId = k then { old with pcName := trim name } else old) = row := by
    intro row hrow
    obtain ⟨old, hold, rfl⟩ := (mem_rename h).mp hrow
    exact ⟨old, hold, by split <;> rfl, rfl⟩
  constructor
  · intro row hrow row' hrow' hselected hselected'
    obtain ⟨old, hold, hs, rfl⟩ := hkeeps row hrow
    obtain ⟨old', hold', hs', rfl⟩ := hkeeps row' hrow'
    rw [hone.most old hold old' hold' (hs.symm.trans hselected) (hs'.symm.trans hselected')]
  · intro hne
    obtain ⟨row, hrow⟩ := List.exists_mem_of_ne_nil _ hne
    obtain ⟨old, hold, -, -⟩ := hkeeps row hrow
    obtain ⟨chosen, hchosen, hselected⟩ := hone.least (List.ne_nil_of_mem hold)
    refine ⟨_, (mem_rename h).mpr ⟨chosen, hchosen, rfl⟩, ?_⟩
    split
    · exact hselected
    · exact hselected

/-- `load` finds the selected row. -/
theorem load_eq_some {t : Computers} {row : Row} (hone : t.OneSelected) (hrow : row ∈ t.rows)
    (hselected : row.selected = true) : t.load = some row.binding := by
  have hmem : row.binding ∈ t.query Row.selected := mem_query.mpr ⟨row, hrow, hselected, rfl⟩
  obtain ⟨binding, hhead⟩ : ∃ binding, t.load = some binding := by
    cases hquery : t.query Row.selected with
    | nil =>
      rw [hquery] at hmem
      cases hmem
    | cons binding rest => exact ⟨binding, by rw [load, hquery]; rfl⟩
  obtain ⟨row', hrow', hselected', rfl⟩ := mem_query.mp (List.mem_of_mem_head? hhead)
  rw [hhead, hone.most row' hrow' row hrow hselected' hselected]

theorem OneSelected.remove {t : Computers} (hone : t.OneSelected) (k : String) (now : Nat) :
    (t.remove k now).OneSelected := by
  unfold Computers.remove
  dsimp only
  split
  · split
    · next hlist =>
      have hempty : ∀ row, row ∉ (KeyedTable.delete t k).rows := by
        intro row hrow
        have hmem := mem_list.mpr ⟨row, hrow, rfl⟩
        rw [hlist] at hmem
        cases hmem
      constructor
      · exact fun row hrow => absurd hrow (hempty row)
      · intro hne
        obtain ⟨row, hrow⟩ := List.exists_mem_of_ne_nil _ hne
        exact absurd hrow (hempty row)
    · exact oneSelected_save _ _ now
  · next hother =>
    constructor
    · intro row hrow row' hrow'
      exact hone.most row (KeyedTable.mem_delete.mp hrow).1 row' (KeyedTable.mem_delete.mp hrow').1
    · intro hne
      obtain ⟨old, hold⟩ := List.exists_mem_of_ne_nil _ hne
      have hold' := (KeyedTable.mem_delete.mp hold).1
      obtain ⟨row, hrow, hselected⟩ := hone.least (List.ne_nil_of_mem hold')
      have hkept : row.pcId ≠ k := by
        intro hk
        apply hother
        rw [load_eq_some hone hrow hselected]
        exact congrArg some hk
      exact ⟨row, KeyedTable.mem_delete.mpr ⟨hrow, hkept⟩, hselected⟩

theorem oneSelected_empty : OneSelected KeyedTable.empty := by
  constructor
  · rintro _ ⟨⟩
  · exact fun hne => absurd rfl hne

end Computers

end BindingStore

end FlowType
