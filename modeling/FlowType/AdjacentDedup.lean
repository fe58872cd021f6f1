import Mathlib.Data.List.Basic
import Mathlib.Data.List.Induction

/-! Removing of neighbours with one key, from the left: an element stays when its key is not that of
the last one kept. Every kept element begins a run, and the runs before it are what is kept of the
list before it. Nothing here refers to a particular program. -/
namespace AdjacentDedup

variable {α κ : Type*} [DecidableEq κ] (key : α → κ)

def push (kept : List α) (x : α) : List α :=
  if kept.getLast?.map key = some (key x) then kept else kept ++ [x]

def dedupBy (l : List α) : List α := l.foldl (push key) []

variable {key} {l front rest before after : List α} {x y : α}

theorem dedupBy_nil : dedupBy key [] = [] := rfl

theorem dedupBy_append_singleton (l : List α) (x : α) :
    dedupBy key (l ++ [x]) = push key (dedupBy key l) x := by
  rw [dedupBy, List.foldl_append]
  rfl

theorem prefix_push (kept : List α) (x : α) : kept <+: push key kept x := by
  rw [push]
  split_ifs
  · exact List.prefix_refl kept
  · exact List.prefix_append kept [x]

theorem getLast?_push (kept : List α) (x : α) :
    (push key kept x).getLast?.map key = some (key x) := by
  rw [push]
  split_ifs with h
  · exact h
  · rw [List.getLast?_concat]
    rfl

theorem getLast?_dedupBy (l : List α) : (dedupBy key l).getLast?.map key = l.getLast?.map key := by
  induction l using List.reverseRecOn with
  | nil => rfl
  | append_singleton l x _ =>
    rw [dedupBy_append_singleton, getLast?_push, List.getLast?_concat]
    rfl

theorem dedupBy_prefix (front rest : List α) :
    dedupBy key front <+: dedupBy key (front ++ rest) := by
  induction rest using List.reverseRecOn with
  | nil =>
    have hrest : front ++ [] = front := List.append_nil front
    exact hrest.symm ▸ List.prefix_refl _
  | append_singleton rest x ih =>
    rw [← List.append_assoc, dedupBy_append_singleton]
    exact ih.trans (prefix_push _ x)

theorem dedupBy_sublist (l : List α) : (dedupBy key l).Sublist l := by
  induction l using List.reverseRecOn with
  | nil => exact List.Sublist.refl _
  | append_singleton l x ih =>
    rw [dedupBy_append_singleton, push]
    split_ifs
    · exact ih.trans (List.sublist_append_left l [x])
    · exact ih.append (List.Sublist.refl [x])

theorem key_mem_dedupBy (hx : x ∈ l) : key x ∈ (dedupBy key l).map key := by
  induction l using List.reverseRecOn with
  | nil => exact nomatch hx
  | append_singleton l y ih =>
    rw [dedupBy_append_singleton]
    rcases List.mem_append.1 hx with hold | hnew
    · exact ((prefix_push _ y).map key).subset (ih hold)
    · obtain rfl := List.mem_singleton.1 hnew
      have hpush : (push key (dedupBy key l) x).getLast?.map key = some (key x) := getLast?_push _ x
      obtain ⟨last, hlast, hkey⟩ := Option.map_eq_some_iff.1 hpush
      rw [← hkey]
      exact List.mem_map_of_mem (List.mem_of_getLast? hlast)

/-- The runs of a list. -/
def runs (key : α → κ) : List α → Nat
  | [] => 0
  | [_] => 1
  | x :: y :: l => if key x = key y then runs key (y :: l) else runs key (y :: l) + 1

def Begins (key : α → κ) (front : List α) (x : α) : Prop :=
  front.getLast?.map key ≠ some (key x)

/-- What is kept before an element that begins a run is kept of what stands before it. -/
theorem Begins.dedupBy_eq (h : Begins key front x) (rest : List α) :
    ∃ after, dedupBy key (front ++ x :: rest) = dedupBy key front ++ x :: after := by
  have hpush : dedupBy key (front ++ [x]) = dedupBy key front ++ [x] := by
    rw [dedupBy_append_singleton, push, if_neg]
    rw [getLast?_dedupBy]
    exact h
  have hprefix : dedupBy key (front ++ [x]) <+: dedupBy key (front ++ [x] ++ rest) :=
    dedupBy_prefix _ _
  obtain ⟨after, hafter⟩ := hprefix
  refine ⟨after, ?_⟩
  rw [List.append_cons, ← hafter, hpush, List.append_assoc]
  rfl

theorem runs_append_singleton (l : List α) (x : α) :
    runs key (l ++ [x]) =
      if l.getLast?.map key = some (key x) then runs key l else runs key l + 1 := by
  induction l with
  | nil => rfl
  | cons y l ih =>
    cases l with
    | nil => simp [runs]
    | cons z l =>
      have hlast : (y :: z :: l).getLast? = (z :: l).getLast? := List.getLast?_cons_cons
      have hstep : runs key (y :: z :: l ++ [x]) = if key y = key z then
          runs key (z :: l ++ [x]) else runs key (z :: l ++ [x]) + 1 := rfl
      rw [hlast, hstep, ih, runs]
      split_ifs <;> rfl

/-- One element is kept of every run. -/
theorem length_dedupBy (l : List α) : (dedupBy key l).length = runs key l := by
  induction l using List.reverseRecOn with
  | nil => rfl
  | append_singleton l x ih =>
    rw [dedupBy_append_singleton, push, getLast?_dedupBy, runs_append_singleton]
    split_ifs
    · exact ih
    · rw [List.length_append, ih]
      rfl

/-- Every kept element begins a run. -/
theorem exists_begins (h : dedupBy key l = before ++ x :: after) :
    ∃ front rest, l = front ++ x :: rest ∧ dedupBy key front = before ∧ Begins key front x := by
  induction l using List.reverseRecOn generalizing after with
  | nil => simp [dedupBy_nil] at h
  | append_singleton l y ih =>
    rw [dedupBy_append_singleton, push] at h
    split_ifs at h with hlast
    · obtain ⟨front, rest, hsplit, hbefore, hbegins⟩ := ih h
      refine ⟨front, rest ++ [y], ?_, hbefore, hbegins⟩
      rw [hsplit, List.append_assoc]
      rfl
    · rcases List.eq_nil_or_concat after with rfl | ⟨after, z, rfl⟩
      · obtain ⟨hbefore, hxy⟩ := List.append_inj' h rfl
        obtain rfl := List.singleton_inj.1 hxy
        refine ⟨l, [], rfl, hbefore, ?_⟩
        rw [getLast?_dedupBy] at hlast
        exact hlast
      · have hassoc : before ++ x :: (after ++ [z]) = (before ++ x :: after) ++ [z] := by
          rw [List.append_assoc]
          rfl
        rw [List.concat_eq_append, hassoc] at h
        obtain ⟨front, rest, hsplit, hbefore, hbegins⟩ := ih (List.append_inj' h rfl).1
        refine ⟨front, rest ++ [y], ?_, hbefore, hbegins⟩
        rw [hsplit, List.append_assoc]
        rfl

/-- A list without repetitions loses its head only to an equal one before it. -/
theorem dedupBy_cons_of_nodup {κ : Type*} [DecidableEq κ] {x : κ} {l : List κ} (h : l.Nodup) :
    dedupBy id (x :: l) = if l.head? = some x then l else x :: l := by
  induction l using List.reverseRecOn with
  | nil => rfl
  | append_singleton l y ih =>
    obtain ⟨hnodup, -, hdisjoint⟩ := List.nodup_append.1 h
    have hlast : l.getLast? ≠ some y := by
      intro hy
      exact hdisjoint y (List.mem_of_getLast? hy) y (List.mem_singleton_self y) rfl
    rw [← List.cons_append, dedupBy_append_singleton, push, getLast?_dedupBy, ih hnodup]
    cases l with
    | nil =>
      by_cases hxy : x = y
      · simp [hxy]
      · simp [hxy, Ne.symm hxy]
    | cons z l =>
      have hkeep : ¬ (x :: z :: l).getLast?.map id = some (id y) := by
        rw [Option.map_id, List.getLast?_cons_cons]
        exact hlast
      rw [if_neg hkeep]
      have hhead : (z :: l ++ [y]).head? = (z :: l).head? := rfl
      rw [hhead]
      split_ifs <;> rfl

end AdjacentDedup
