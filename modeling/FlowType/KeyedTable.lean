import Mathlib.Data.List.Nodup

/-! Tables of rows with a primary key: what inserting with replacement, deleting and
updating the other columns leave. Nothing here refers to a particular program. -/

theorem eraseDups_of_nodup {α : Type*} [BEq α] [LawfulBEq α] {l : List α} (h : l.Nodup) :
    l.eraseDups = l := by
  induction l with
  | nil => rfl
  | cons a l ih =>
    obtain ⟨hnew, hnodup⟩ := List.nodup_cons.1 h
    have hkept : (l.filter fun other => !other == a) = l := by
      rw [List.filter_eq_self]
      intro other hother
      have hne : other ≠ a := fun heq => hnew (heq ▸ hother)
      simpa using hne
    rw [List.eraseDups_cons, hkept, ih hnodup]

/-- Rows with pairwise different keys. -/
structure KeyedTable {ρ κ : Type*} (key : ρ → κ) where
  rows : List ρ
  nodup : (rows.map key).Nodup

namespace KeyedTable

variable {ρ κ : Type*} {key : ρ → κ}

def empty : KeyedTable key := ⟨[], List.nodup_nil⟩

def update (t : KeyedTable key) (f : ρ → ρ) (hf : ∀ r, key (f r) = key r) : KeyedTable key where
  rows := t.rows.map f
  nodup := by
    have hkeys : (t.rows.map f).map key = t.rows.map key := by
      rw [List.map_map]
      exact List.map_congr_left fun r _ => hf r
    rw [hkeys]
    exact t.nodup

def filter (t : KeyedTable key) (p : ρ → Bool) : KeyedTable key where
  rows := t.rows.filter p
  nodup := (List.filter_sublist.map key).nodup t.nodup

variable [DecidableEq κ]

def get? (t : KeyedTable key) (k : κ) : Option ρ := t.rows.find? fun r => key r == k

def delete (t : KeyedTable key) (k : κ) : KeyedTable key where
  rows := t.rows.filter fun r => decide (key r ≠ k)
  nodup := (List.filter_sublist.map key).nodup t.nodup

def insert (t : KeyedTable key) (r : ρ) : KeyedTable key where
  rows := (t.delete (key r)).rows ++ [r]
  nodup := by
    rw [List.map_append, List.nodup_append]
    refine ⟨(t.delete (key r)).nodup, List.nodup_singleton _, ?_⟩
    rintro _ hother _ hnew rfl
    obtain ⟨other, hmem, hkey⟩ := List.mem_map.mp hother
    obtain ⟨_, hr, hsame⟩ := List.mem_map.mp hnew
    have hne : key other ≠ key r := of_decide_eq_true (List.mem_filter.mp hmem).2
    rw [List.mem_singleton.mp hr] at hsame
    exact hne (hkey.trans hsame.symm)

omit [DecidableEq κ] in
theorem mem_update {t : KeyedTable key} {f : ρ → ρ} {hf : ∀ r, key (f r) = key r} {r : ρ} :
    r ∈ (t.update f hf).rows ↔ ∃ r₀ ∈ t.rows, f r₀ = r := List.mem_map

theorem mem_delete {t : KeyedTable key} {k : κ} {r : ρ} :
    r ∈ (t.delete k).rows ↔ r ∈ t.rows ∧ key r ≠ k := by
  simp [delete, List.mem_filter]

theorem mem_insert {t : KeyedTable key} {new r : ρ} :
    r ∈ (t.insert new).rows ↔ (r ∈ t.rows ∧ key r ≠ key new) ∨ r = new := by
  rw [insert, List.mem_append, List.mem_singleton, mem_delete]

omit [DecidableEq κ] in
theorem eq_of_key_eq {t : KeyedTable key} {r r' : ρ} (h : r ∈ t.rows) (h' : r' ∈ t.rows)
    (heq : key r = key r') : r = r' :=
  List.inj_on_of_nodup_map t.nodup h h' heq

/-- What is found under a key is the row that has it. -/
theorem find?_eq_some_iff {t : KeyedTable key} {k : κ} {r : ρ} :
    t.rows.find? (fun r => key r == k) = some r ↔ r ∈ t.rows ∧ key r = k := by
  constructor
  · intro h
    exact ⟨List.mem_of_find?_eq_some h, by simpa using List.find?_some h⟩
  · rintro ⟨hmem, rfl⟩
    obtain ⟨r', hfound⟩ := Option.isSome_iff_exists.mp
      (List.find?_isSome.mpr ⟨r, hmem, beq_self_eq_true (key r)⟩ :
        (t.rows.find? fun r' => key r' == key r).isSome = true)
    have hkey : key r' = key r := by simpa using List.find?_some hfound
    rw [hfound, eq_of_key_eq (List.mem_of_find?_eq_some hfound) hmem hkey]

theorem get?_insert (t : KeyedTable key) (new : ρ) (k : κ) :
    (t.insert new).get? k = if k = key new then some new else t.get? k := by
  apply Option.ext
  intro r
  rw [get?, find?_eq_some_iff, mem_insert]
  by_cases hk : k = key new
  · rw [if_pos hk]
    constructor
    · rintro ⟨⟨-, hne⟩ | rfl, hkey⟩
      · exact absurd (hkey.trans hk) hne
      · rfl
    · intro h
      obtain rfl := Option.some.inj h
      exact ⟨.inr rfl, hk.symm⟩
  · rw [if_neg hk, get?, find?_eq_some_iff]
    constructor
    · rintro ⟨⟨hmem, -⟩ | rfl, hkey⟩
      · exact ⟨hmem, hkey⟩
      · exact absurd hkey.symm hk
    · rintro ⟨hmem, hkey⟩
      exact ⟨.inl ⟨hmem, fun h => hk (hkey.symm.trans h)⟩, hkey⟩

theorem get?_filter (t : KeyedTable key) (p : ρ → Bool) (k : κ) :
    (t.filter p).get? k = (t.get? k).filter p := by
  apply Option.ext
  intro r
  rw [get?, find?_eq_some_iff, Option.filter_eq_some_iff, get?, find?_eq_some_iff]
  simp only [filter, List.mem_filter]
  constructor
  · rintro ⟨⟨hmem, hp⟩, hkey⟩
    exact ⟨⟨hmem, hkey⟩, hp⟩
  · rintro ⟨⟨hmem, hkey⟩, hp⟩
    exact ⟨⟨hmem, hp⟩, hkey⟩

theorem length_insert_le (t : KeyedTable key) (r : ρ) :
    (t.insert r).rows.length ≤ t.rows.length + 1 := by
  have hdelete : (t.delete (key r)).rows.length ≤ t.rows.length := List.length_filter_le _ _
  simp only [insert, List.length_append, List.length_singleton]
  omega

/-- A row that takes the place of another one does not make the table longer. -/
theorem length_insert_of_get? {t : KeyedTable key} {r : ρ} (h : (t.get? (key r)).isSome = true) :
    (t.insert r).rows.length ≤ t.rows.length := by
  obtain ⟨old, hold⟩ := Option.isSome_iff_exists.1 h
  obtain ⟨hmem, hkey⟩ := find?_eq_some_iff.1 hold
  have hdelete : (t.delete (key r)).rows.length < t.rows.length :=
    List.length_filter_lt_length_iff_exists.2 ⟨old, hmem, by simp [hkey]⟩
  simp only [insert, List.length_append, List.length_singleton]
  omega

end KeyedTable
