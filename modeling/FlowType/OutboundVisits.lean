import Mathlib.Data.List.ReduceOption
import FlowType.OutboundSources

/-! What the two walks over the selected paths visit: `count_outbound` and `write_outbound` are one
and the same walk, with a different step. -/
namespace FlowType

open ByteFiles

/-- An entry that is visited. `names` leads to it from the selected path. -/
structure OutboundVisit where
  names : List (Option (List Char))
  kind : EntryKind
  length : Nat
  size : Nat
  modified : Option Nat

mutual

def SourceTree.visits (names : List (Option (List Char))) : SourceTree → List OutboundVisit
  | .directory modified children =>
    ⟨names, .directory, 0, 0, modified⟩ :: children.visits names
  | .file length modified => [⟨names, .file, length, length, modified⟩]
  | .other length modified => [⟨names, .file, length, 0, modified⟩]
  | _ => []

def SourceList.visits (names : List (Option (List Char))) : SourceList → List OutboundVisit
  | .nil => []
  | .cons name child rest => child.visits (names ++ [name]) ++ rest.visits names

end

mutual

/-- The same tree, read twice: `read_dir` promises no order, and `sorted_children` leaves children
with equal keys as they come. -/
inductive SourceTree.Same : SourceTree → SourceTree → Prop
  | refl (tree : SourceTree) : SourceTree.Same tree tree
  | directory (modified : Option Nat) {children children' : SourceList} :
      SourceList.Same children children' →
      SourceTree.Same (.directory modified children) (.directory modified children')

inductive SourceList.Same : SourceList → SourceList → Prop
  | nil : SourceList.Same .nil .nil
  | cons (name : Option (List Char)) {child child' : SourceTree} {rest rest' : SourceList} :
      SourceTree.Same child child' → SourceList.Same rest rest' →
      SourceList.Same (.cons name child rest) (.cons name child' rest')
  | swap (name name' : Option (List Char)) (child child' : SourceTree) (rest : SourceList) :
      SourceList.Same (.cons name child (.cons name' child' rest))
        (.cons name' child' (.cons name child rest))
  | trans {children children' children'' : SourceList} : SourceList.Same children children' →
      SourceList.Same children' children'' → SourceList.Same children children''

end

mutual

theorem SourceTree.Same.visits {tree tree' : SourceTree} (h : tree.Same tree')
    (names : List (Option (List Char))) : (tree.visits names).Perm (tree'.visits names) :=
  match h with
  | .refl _ => List.Perm.refl _
  | .directory _ hchildren => by
    rw [SourceTree.visits, SourceTree.visits]
    exact (SourceList.Same.visits hchildren names).cons _

theorem SourceList.Same.visits {children children' : SourceList} (h : children.Same children')
    (names : List (Option (List Char))) : (children.visits names).Perm (children'.visits names) :=
  match h with
  | .nil => List.Perm.refl _
  | .cons name hchild hrest => by
    rw [SourceList.visits, SourceList.visits]
    exact (SourceTree.Same.visits hchild _).append (SourceList.Same.visits hrest names)
  | .swap name name' child child' rest => by
    simp only [SourceList.visits, ← List.append_assoc]
    exact List.perm_append_comm.append_right _
  | .trans h₁ h₂ => (SourceList.Same.visits h₁ names).trans (SourceList.Same.visits h₂ names)

end

/-! ### Counting -/

def OutboundStats.visit (stats : OutboundStats) (v : OutboundVisit) : Option OutboundStats :=
  stats.count v.kind v.length

mutual

theorem countOutbound_visits (tree : SourceTree) (names : List (Option (List Char)))
    {stats stats' : OutboundStats} (h : countOutbound tree stats = some stats') :
    (tree.visits names).foldlM OutboundStats.visit stats = some stats' := by
  cases tree with
  | unavailable => cases h
  | symlink => cases h
  | other length modified => cases h
  | file length modified =>
    rw [countOutbound] at h
    simp only [SourceTree.visits, List.foldlM_cons, List.foldlM_nil, OutboundStats.visit,
      OutboundStats.count, h, Option.bind_eq_bind, Option.bind_some]
    rfl
  | directory modified children =>
    rw [countOutbound] at h
    obtain ⟨directoryCount, hown, hbelow⟩ := Option.bind_eq_some_iff.mp h
    have hrest := countChildren_visits children names hbelow
    simp only [SourceTree.visits, List.foldlM_cons, OutboundStats.visit, OutboundStats.count, hown,
      Option.map_some, Option.bind_eq_bind, Option.bind_some]
    exact hrest

theorem countChildren_visits (children : SourceList) (names : List (Option (List Char)))
    {stats stats' : OutboundStats} (h : countChildren children stats = some stats') :
    (children.visits names).foldlM OutboundStats.visit stats = some stats' := by
  cases children with
  | nil =>
    rw [countChildren] at h
    exact h
  | cons name child rest =>
    rw [countChildren] at h
    obtain ⟨stats₁, hchild, hrest⟩ := Option.bind_eq_some_iff.mp h
    have hfirst := countOutbound_visits child (names ++ [name]) hchild
    rw [SourceList.visits, List.foldlM_append, hfirst]
    exact countChildren_visits rest names hrest

end

structure OutboundTotals where
  files : Nat
  directories : Nat
  bytes : Nat
  deriving DecidableEq, Repr

def OutboundStats.totals (stats : OutboundStats) : OutboundTotals :=
  ⟨stats.fileCount, stats.directoryCount, stats.totalBytes⟩

def OutboundVisit.bytes (v : OutboundVisit) : Nat :=
  match v.kind with
  | .file => v.length
  | .directory => 0

def visitTotals (visits : List OutboundVisit) : OutboundTotals where
  files := visits.countP (·.kind = .file)
  directories := visits.countP (·.kind = .directory)
  bytes := (visits.map OutboundVisit.bytes).sum

theorem visitTotals_append (visits visits' : List OutboundVisit) :
    visitTotals (visits ++ visits') =
      ⟨(visitTotals visits).files + (visitTotals visits').files,
        (visitTotals visits).directories + (visitTotals visits').directories,
        (visitTotals visits).bytes + (visitTotals visits').bytes⟩ := by
  simp [visitTotals]

theorem eq_of_checkedAdd {a b c : Nat} (h : checkedAdd a b = some c) : c = a + b := by
  unfold checkedAdd at h
  split_ifs at h
  exact (Option.some.inj h).symm

/-- One visit is counted once. -/
theorem OutboundStats.count_totals {stats stats' : OutboundStats} {kind : EntryKind} {length : Nat}
    (h : stats.count kind length = some stats') :
    stats'.nextOrdinal = stats.nextOrdinal ∧
      stats'.fileCount = stats.fileCount + (if kind = .file then 1 else 0) ∧
      stats'.directoryCount = stats.directoryCount + (if kind = .directory then 1 else 0) ∧
      stats'.totalBytes = stats.totalBytes + (if kind = .file then length else 0) := by
  cases kind with
  | directory =>
    obtain ⟨directoryCount, hadd, rfl⟩ := Option.map_eq_some_iff.mp h
    simp [eq_of_checkedAdd hadd]
  | file =>
    obtain ⟨fileCount, hfile, h⟩ := Option.bind_eq_some_iff.mp h
    obtain ⟨totalBytes, hbytes, rfl⟩ := Option.map_eq_some_iff.mp h
    simp [eq_of_checkedAdd hfile, eq_of_checkedAdd hbytes]

theorem OutboundStats.visit_totals (visits : List OutboundVisit) {stats stats' : OutboundStats}
    (h : visits.foldlM OutboundStats.visit stats = some stats') :
    stats'.totals = ⟨stats.fileCount + (visitTotals visits).files,
      stats.directoryCount + (visitTotals visits).directories,
      stats.totalBytes + (visitTotals visits).bytes⟩ := by
  induction visits generalizing stats with
  | nil =>
    obtain rfl := Option.some.inj h
    rfl
  | cons v visits ih =>
    rw [List.foldlM_cons] at h
    obtain ⟨stats₁, hfirst, hrest⟩ := Option.bind_eq_some_iff.mp h
    obtain ⟨-, hfiles, hdirectories, hbytes⟩ := OutboundStats.count_totals hfirst
    rw [ih hrest, hfiles, hdirectories, hbytes]
    cases hkind : v.kind <;>
      simp [visitTotals, OutboundVisit.bytes, hkind] <;> omega

/-! ### The plan -/

section Plan
variable {lower : List Char → List Char} {plan plan' : OutboundPlan}

/-- The planned roots are the selected ones, and everything below them is counted. -/
theorem OutboundPlan.addRoot_visits {root : SelectedRoot}
    (h : plan.addRoot lower root = some plan') :
    plan'.roots.map Prod.fst = plan.roots.map Prod.fst ++ [root] ∧
      (root.planned.visits []).foldlM OutboundStats.visit plan.stats = some plan'.stats := by
  unfold addRoot at h
  split at h
  · cases h
  · cases h
  · obtain ⟨name, hname, h⟩ := Option.bind_eq_some_iff.mp h
    obtain ⟨reserved, hreserve, h⟩ := Option.bind_eq_some_iff.mp h
    obtain ⟨stats, hstats, rfl⟩ := Option.map_eq_some_iff.mp h
    refine ⟨?_, countOutbound_visits root.planned [] hstats⟩
    rw [List.map_append, List.map_singleton]

theorem OutboundPlan.addRoots_visits {roots : List SelectedRoot}
    (h : roots.foldlM (addRoot lower) plan = some plan') :
    plan'.roots.map Prod.fst = plan.roots.map Prod.fst ++ roots ∧
      (roots.flatMap fun root => root.planned.visits []).foldlM OutboundStats.visit plan.stats =
        some plan'.stats := by
  induction roots generalizing plan with
  | nil =>
    obtain rfl := Option.some.inj h
    exact ⟨(List.append_nil _).symm, rfl⟩
  | cons root roots ih =>
    rw [List.foldlM_cons] at h
    obtain ⟨plan₁, hfirst, hrest⟩ := Option.bind_eq_some_iff.mp h
    obtain ⟨hroot, hcounted⟩ := addRoot_visits hfirst
    obtain ⟨hroots, hbelow⟩ := ih hrest
    constructor
    · rw [hroots, hroot, List.append_assoc]
      rfl
    · rw [List.flatMap_cons, List.foldlM_append, hcounted]
      exact hbelow

theorem prepareOutboundPlan_visits {roots : List SelectedRoot}
    (h : prepareOutboundPlan lower roots = some plan) :
    plan.roots.map Prod.fst = roots ∧
      (roots.flatMap fun root => root.planned.visits []).foldlM OutboundStats.visit {} =
        some plan.stats := by
  rw [prepareOutboundPlan] at h
  split_ifs at h with hempty
  obtain ⟨plan', hroots, h⟩ := Option.bind_eq_some_iff.mp h
  split_ifs at h with hbytes
  obtain rfl := Option.some.inj h
  exact OutboundPlan.addRoots_visits hroots

end Plan

end FlowType
