import Mathlib.Data.List.Sort
import FlowType.FlowTypeController

/-! The automatic choice of a computer among the results of the probes, which come in the order in
which the probes end. -/
namespace FlowType

inductive ProbeOutcome
  | ready | unsupported | invalid | unavailable
  deriving DecidableEq, Repr

structure TargetProbeResult where
  binding : ComputerBinding
  outcome : ProbeOutcome
  targetName : Option String := none
  activityAgeMs : Option Int64 := none
  deriving DecidableEq, Repr

namespace TargetSelector

def HYSTERESIS_MS : Int64 := 2000

def FRESH_ACTIVITY_MS : Int64 := 3000

/-- `Long.MAX_VALUE`. -/
def NEVER : Int64 := Int64.maxValue

def age (result : TargetProbeResult) : Int64 := result.activityAgeMs.getD NEVER

def closeEnough (left right : TargetProbeResult) : Bool :=
  (age left == NEVER && age right == NEVER) ||
    decide ((age left - age right).abs ≤ HYSTERESIS_MS)

def separated (best second : TargetProbeResult) : Bool :=
  age best != NEVER && (age second == NEVER || decide (HYSTERESIS_MS ≤ age second - age best))

def readyByAge (results : List TargetProbeResult) : List TargetProbeResult :=
  (results.filter fun r => r.outcome == .ready).insertionSort fun a b => age a ≤ age b

def pick (best : TargetProbeResult) : Option TargetProbeResult → Option TargetProbeResult
  | none => some best
  | some second =>
    if age best ≤ FRESH_ACTIVITY_MS then some best
    else if separated best second then some best
    else none

def currentIn (ready : List TargetProbeResult) (currentPcId : Option String) :
    Option TargetProbeResult :=
  currentPcId.bind fun id => ready.find? fun r => r.binding.pcId == id

def choose (results : List TargetProbeResult) (currentPcId : Option String) :
    Option TargetProbeResult :=
  match readyByAge results with
  | [] => none
  | best :: rest =>
    match currentIn (best :: rest) currentPcId with
    | none => pick best rest.head?
    | some current => if closeEnough current best then some current else pick best rest.head?

/-- The results come from pairwise different computers. -/
def DistinctComputers (results : List TargetProbeResult) : Prop :=
  (results.map fun r => r.binding.pcId).Nodup

instance (results : List TargetProbeResult) : Decidable (DistinctComputers results) :=
  inferInstanceAs (Decidable (results.map fun r => r.binding.pcId).Nodup)

/-- A ready result whose age nothing ready undercuts. -/
structure Youngest (results : List TargetProbeResult) (r : TargetProbeResult) : Prop where
  mem : r ∈ results
  ready : r.outcome = .ready
  le : ∀ other ∈ results, other.outcome = .ready → age r ≤ age other

/-- Two computers are equally fresh, and the current one is not close to them. -/
def FreshTie (results : List TargetProbeResult) (currentPcId : Option String) : Prop :=
  ∃ r r', r ≠ r' ∧ Youngest results r ∧ Youngest results r' ∧ age r ≤ FRESH_ACTIVITY_MS ∧
    ∀ current ∈ results, current.outcome = .ready →
      currentPcId = some current.binding.pcId → closeEnough current r = false

variable {results results' : List TargetProbeResult} {currentPcId : Option String}
  {r r' best : TargetProbeResult}

theorem mem_readyByAge : r ∈ readyByAge results ↔ r ∈ results ∧ r.outcome = .ready := by
  rw [readyByAge, List.mem_insertionSort, List.mem_filter, beq_iff_eq]

theorem readyByAge_perm (h : results.Perm results') :
    (readyByAge results).Perm (readyByAge results') := by
  have hfilter := h.filter fun r : TargetProbeResult => r.outcome == .ready
  exact (List.perm_insertionSort _ _).trans (hfilter.trans (List.perm_insertionSort _ _).symm)

theorem readyByAge_sorted (results : List TargetProbeResult) :
    (readyByAge results).Pairwise fun a b => age a ≤ age b := by
  have htotal : Std.Total fun a b : TargetProbeResult => age a ≤ age b :=
    ⟨fun a b => Int64.le_total _ _⟩
  have htrans : IsTrans TargetProbeResult fun a b => age a ≤ age b :=
    ⟨fun _ _ _ => Int64.le_trans⟩
  exact List.pairwise_insertionSort _ _

theorem age_le_of_mem {first : TargetProbeResult} {rest : List TargetProbeResult}
    (hsorted : (first :: rest).Pairwise fun a b => age a ≤ age b) (hr : r ∈ first :: rest) :
    age first ≤ age r := by
  rcases List.mem_cons.1 hr with rfl | hrest
  · exact Int64.le_refl _
  · exact (List.pairwise_cons.1 hsorted).1 r hrest

/-- The first result is one of the youngest. -/
theorem youngest_head {rest : List TargetProbeResult} (h : readyByAge results = best :: rest) :
    Youngest results best := by
  have hmem : best ∈ readyByAge results := by
    rw [h]
    exact List.mem_cons_self
  have hsorted := readyByAge_sorted results
  rw [h] at hsorted
  refine ⟨(mem_readyByAge.1 hmem).1, (mem_readyByAge.1 hmem).2, ?_⟩
  intro other hother hready
  apply age_le_of_mem hsorted
  rw [← h]
  exact mem_readyByAge.2 ⟨hother, hready⟩

theorem Youngest.age_eq (h : Youngest results r) (h' : Youngest results r') : age r = age r' :=
  Int64.le_antisymm (h.le r' h'.mem h'.ready) (h'.le r h.mem h.ready)

theorem Youngest.perm (h : Youngest results r) (hperm : results.Perm results') :
    Youngest results' r :=
  ⟨hperm.mem_iff.1 h.mem, h.ready, fun other hother => h.le other (hperm.mem_iff.2 hother)⟩

theorem currentIn_eq_some_iff (h : DistinctComputers results) {current : TargetProbeResult} :
    currentIn (readyByAge results) currentPcId = some current ↔
      currentPcId = some current.binding.pcId ∧ current ∈ results ∧ current.outcome = .ready := by
  cases currentPcId with
  | none =>
    constructor
    · intro hnone
      cases hnone
    · rintro ⟨hnone, -⟩
      cases hnone
  | some id =>
    change (readyByAge results).find? (fun r => r.binding.pcId == id) = some current ↔ _
    constructor
    · intro hfound
      have hid : current.binding.pcId = id := by simpa using List.find?_some hfound
      have hmem := mem_readyByAge.1 (List.mem_of_find?_eq_some hfound)
      exact ⟨congrArg some hid.symm, hmem⟩
    · rintro ⟨hid, hmem, hready⟩
      obtain rfl := Option.some.inj hid
      have hin : current ∈ readyByAge results := mem_readyByAge.2 ⟨hmem, hready⟩
      have hsome : ((readyByAge results).find? fun r =>
          r.binding.pcId == current.binding.pcId).isSome = true :=
        List.find?_isSome.2 ⟨current, hin, beq_self_eq_true _⟩
      obtain ⟨found, hfound⟩ := Option.isSome_iff_exists.1 hsome
      have hkey : found.binding.pcId = current.binding.pcId := by
        simpa using List.find?_some hfound
      have hresults := (mem_readyByAge.1 (List.mem_of_find?_eq_some hfound)).1
      have hsame : found = current := List.inj_on_of_nodup_map h hresults hmem hkey
      rw [hfound, hsame]

theorem currentIn_perm (h : DistinctComputers results) (hperm : results.Perm results') :
    currentIn (readyByAge results) currentPcId = currentIn (readyByAge results') currentPcId := by
  have h' : DistinctComputers results' := (hperm.map _).nodup_iff.1 h
  apply Option.ext
  intro current
  rw [currentIn_eq_some_iff h, currentIn_eq_some_iff h', hperm.mem_iff]

theorem choose_cons {rest : List TargetProbeResult} (h : readyByAge results = best :: rest) :
    choose results currentPcId = match currentIn (readyByAge results) currentPcId with
      | none => pick best rest.head?
      | some current =>
        if closeEnough current best then some current else pick best rest.head? := by
  rw [choose, h]

theorem closeEnough_congr {a b b' : TargetProbeResult} (h : age b = age b') :
    closeEnough a b = closeEnough a b' := by
  rw [closeEnough, closeEnough, h]

theorem closeEnough_self (r : TargetProbeResult) : closeEnough r r = true := by
  rw [closeEnough, Int64.sub_self, Bool.or_eq_true]
  exact .inr (by decide)

/-- Of two equally old results neither is picked unless they are fresh. -/
theorem pick_tie {second : TargetProbeResult} (hage : age second = age best)
    (hold : ¬age best ≤ FRESH_ACTIVITY_MS) : pick best (some second) = none := by
  have hnot : separated best second = false := by
    rw [separated, hage, Int64.sub_self]
    have hnever : decide (HYSTERESIS_MS ≤ (0 : Int64)) = false := by decide
    rw [hnever, Bool.or_false]
    cases hmax : age best == NEVER with
    | true => rw [Bool.and_true, bne, hmax, Bool.not_true]
    | false => rw [Bool.and_false]
  rw [pick, if_neg hold, hnot]
  rfl

theorem pick_congr {a b : TargetProbeResult} (h : age a = age b) :
    pick best (some a) = pick best (some b) := by
  rw [pick, pick, separated, separated, h]

theorem head_age {rest rest' : List TargetProbeResult} {b b' : TargetProbeResult}
    (hperm : results.Perm results') (h : readyByAge results = b :: rest)
    (h' : readyByAge results' = b' :: rest') : age b = age b' :=
  (youngest_head h).age_eq ((youngest_head h').perm hperm.symm)

theorem pick_perm {rest rest' : List TargetProbeResult} {b b' : TargetProbeResult}
    (hperm : results.Perm results') (h : readyByAge results = b :: rest)
    (h' : readyByAge results' = b' :: rest')
    (htie : b ≠ b' → ¬age b ≤ FRESH_ACTIVITY_MS) : pick b rest.head? = pick b' rest'.head? := by
  have hready := readyByAge_perm hperm
  have hsorted := readyByAge_sorted results
  have hsorted' := readyByAge_sorted results'
  rw [h, h'] at hready
  rw [h, List.pairwise_cons] at hsorted
  rw [h', List.pairwise_cons] at hsorted'
  by_cases hsame : b = b'
  · subst hsame
    have htail : rest.Perm rest' := hready.cons_inv
    cases hrest : rest with
    | nil =>
      rw [hrest] at htail
      rw [htail.nil_eq]
    | cons second others =>
      cases hrest' : rest' with
      | nil =>
        rw [hrest, hrest'] at htail
        exact absurd htail.eq_nil (List.cons_ne_nil _ _)
      | cons second' others' =>
        rw [hrest, hrest'] at htail
        rw [hrest] at hsorted
        rw [hrest'] at hsorted'
        -- both are the youngest of the rest
        have hle : age second ≤ age second' :=
          age_le_of_mem hsorted.2 (htail.mem_iff.2 List.mem_cons_self)
        have hle' : age second' ≤ age second :=
          age_le_of_mem hsorted'.2 (htail.mem_iff.1 List.mem_cons_self)
        exact pick_congr (Int64.le_antisymm hle hle')
  · have hage := head_age hperm h h'
    have hin : b' ∈ rest := by
      have hmem : b' ∈ b :: rest := hready.mem_iff.2 List.mem_cons_self
      exact (List.mem_cons.1 hmem).resolve_left fun heq => hsame heq.symm
    have hin' : b ∈ rest' := by
      have hmem : b ∈ b' :: rest' := hready.mem_iff.1 List.mem_cons_self
      exact (List.mem_cons.1 hmem).resolve_left hsame
    cases hrest : rest with
    | nil =>
      rw [hrest] at hin
      exact nomatch hin
    | cons second others =>
      cases hrest' : rest' with
      | nil =>
        rw [hrest'] at hin'
        exact nomatch hin'
      | cons second' others' =>
        rw [hrest] at hsorted hin
        rw [hrest'] at hsorted' hin'
        -- the second ones are as young as the first ones
        have hsecond : age second = age b := by
          apply Int64.le_antisymm ?_ (hsorted.1 second List.mem_cons_self)
          rw [hage]
          exact age_le_of_mem hsorted.2 hin
        have hsecond' : age second' = age b' := by
          apply Int64.le_antisymm ?_ (hsorted'.1 second' List.mem_cons_self)
          rw [← hage]
          exact age_le_of_mem hsorted'.2 hin'
        have hold : ¬age b ≤ FRESH_ACTIVITY_MS := htie hsame
        have hold' : ¬age b' ≤ FRESH_ACTIVITY_MS := hage ▸ hold
        rw [List.head?_cons, List.head?_cons, pick_tie hsecond hold, pick_tie hsecond' hold']

/-- Without a fresh tie the order of the results does not matter. -/
theorem choose_perm (h : DistinctComputers results) (htie : ¬FreshTie results currentPcId)
    (hperm : results.Perm results') : choose results currentPcId = choose results' currentPcId := by
  have hready := readyByAge_perm hperm
  have hcurrent : currentIn (readyByAge results) currentPcId =
      currentIn (readyByAge results') currentPcId := currentIn_perm h hperm
  cases hsorted : readyByAge results with
  | nil =>
    rw [hsorted] at hready
    rw [choose, choose, hsorted, hready.nil_eq.symm]
  | cons b rest =>
    cases hsorted' : readyByAge results' with
    | nil =>
      rw [hsorted, hsorted'] at hready
      exact absurd hready.eq_nil (List.cons_ne_nil _ _)
    | cons b' rest' =>
      have hage := head_age hperm hsorted hsorted'
      have hyoung := youngest_head hsorted
      have hyoung' := (youngest_head hsorted').perm hperm.symm
      rw [choose_cons hsorted, choose_cons hsorted', ← hcurrent]
      cases hfound : currentIn (readyByAge results) currentPcId with
      | none =>
        apply pick_perm hperm hsorted hsorted'
        intro hne hfresh
        refine htie ⟨b, b', hne, hyoung, hyoung', hfresh, ?_⟩
        intro current hmem hcready hid
        rw [(currentIn_eq_some_iff h).2 ⟨hid, hmem, hcready⟩] at hfound
        cases hfound
      | some current =>
        dsimp only
        rw [← closeEnough_congr hage]
        split_ifs with hclose
        · rfl
        · apply pick_perm hperm hsorted hsorted'
          intro hne hfresh
          refine htie ⟨b, b', hne, hyoung, hyoung', hfresh, ?_⟩
          intro other hmem hcready hid
          have hother := (currentIn_eq_some_iff h).2 ⟨hid, hmem, hcready⟩
          rw [hfound] at hother
          obtain rfl := Option.some.inj hother
          exact eq_false_of_ne_true hclose

/-- In a fresh tie the computer whose result came first is chosen. -/
theorem choose_first {rest : List TargetProbeResult} (h : DistinctComputers (r :: rest))
    (hr : Youngest (r :: rest) r) (hother : r' ∈ rest) (hready : r'.outcome = .ready)
    (hfresh : age r ≤ FRESH_ACTIVITY_MS)
    (hfar : ∀ current ∈ r :: rest, current.outcome = .ready →
      currentPcId = some current.binding.pcId → closeEnough current r = false) :
    choose (r :: rest) currentPcId = some r := by
  have hkept : (r :: rest).filter (fun r => r.outcome == .ready) =
      r :: rest.filter fun r => r.outcome == .ready :=
    List.filter_cons_of_pos (by rw [hr.ready]; rfl)
  have hsorted : readyByAge (r :: rest) = r :: readyByAge rest := by
    rw [readyByAge, hkept]
    apply List.insertionSort_cons_of_forall_rel
    intro b hb
    have hmem := List.mem_filter.1 hb
    exact hr.le b (List.mem_cons_of_mem _ hmem.1) (beq_iff_eq.1 hmem.2)
  have hpick : pick r (readyByAge rest).head? = some r := by
    cases hrest : readyByAge rest with
    | nil =>
      have hin : r' ∈ readyByAge rest := mem_readyByAge.2 ⟨hother, hready⟩
      rw [hrest] at hin
      exact nomatch hin
    | cons second others => rw [List.head?_cons, pick, if_pos hfresh]
  rw [choose_cons hsorted]
  cases hfound : currentIn (readyByAge (r :: rest)) currentPcId with
  | none => exact hpick
  | some current =>
    have hcurrent := (currentIn_eq_some_iff h).1 hfound
    dsimp only
    rw [hfar current hcurrent.2.1 hcurrent.2.2 hcurrent.1]
    exact hpick

/-- The chosen computer is chosen again when it is the current one. -/
theorem choose_again (h : DistinctComputers results)
    (hchoose : choose results currentPcId = some r) :
    choose results (some r.binding.pcId) = some r := by
  cases hsorted : readyByAge results with
  | nil =>
    rw [choose, hsorted] at hchoose
    cases hchoose
  | cons best rest =>
    have hbest := youngest_head hsorted
    have hpicked : ∀ second, pick best second = some r → r = best := by
      intro second hpick
      cases second with
      | none => exact (Option.some.inj hpick).symm
      | some second =>
        rw [pick] at hpick
        split_ifs at hpick
        · exact (Option.some.inj hpick).symm
        · exact (Option.some.inj hpick).symm
    -- the choice is the best one or a current one that is close to it
    have hchosen : r ∈ results ∧ r.outcome = .ready ∧ closeEnough r best = true := by
      rw [choose_cons hsorted] at hchoose
      split at hchoose
      · rw [hpicked _ hchoose]
        exact ⟨hbest.mem, hbest.ready, closeEnough_self best⟩
      · rename_i current hfound
        split_ifs at hchoose with hclose
        · obtain rfl := Option.some.inj hchoose
          have hcurrent := (currentIn_eq_some_iff h).1 hfound
          exact ⟨hcurrent.2.1, hcurrent.2.2, hclose⟩
        · rw [hpicked _ hchoose]
          exact ⟨hbest.mem, hbest.ready, closeEnough_self best⟩
    have hfound : currentIn (readyByAge results) (some r.binding.pcId) = some r :=
      (currentIn_eq_some_iff h).2 ⟨rfl, hchosen.1, hchosen.2.1⟩
    rw [choose_cons hsorted, hfound]
    dsimp only
    rw [if_pos hchosen.2.2]

/-- The choice does not depend on the order of the results, and chooses again what it has chosen,
exactly when no two computers tie as the freshest ones while the current one is far from them. -/
theorem choose_order_independent (results : List TargetProbeResult) (currentPcId : Option String)
    (h : DistinctComputers results) :
    ((∀ results', results.Perm results' →
        choose results' currentPcId = choose results currentPcId) ∧
      ∀ r, choose results currentPcId = some r → choose results (some r.binding.pcId) = some r) ↔
    ¬FreshTie results currentPcId := by
  constructor
  · rintro ⟨horder, -⟩ ⟨r, r', hne, hr, hr', hfresh, hfar⟩
    have hfirst : ∀ a b, a ≠ b → Youngest results a → Youngest results b → age a = age r →
        choose results currentPcId = some a := by
      intro a b hab ha hb hage
      have hperm : results.Perm (a :: results.erase a) := List.perm_cons_erase ha.mem
      rw [← horder _ hperm]
      apply choose_first ((hperm.map _).nodup_iff.1 h) (ha.perm hperm)
        ((List.mem_erase_of_ne hab.symm).2 hb.mem) hb.ready
      · rw [hage]
        exact hfresh
      · intro current hmem hready hid
        rw [closeEnough_congr hage]
        exact hfar current (hperm.mem_iff.2 hmem) hready hid
    have hchosen := hfirst r r' hne hr hr' rfl
    have hchosen' := hfirst r' r hne.symm hr' hr (hr'.age_eq hr)
    exact hne (Option.some.inj (hchosen.symm.trans hchosen'))
  · intro htie
    exact ⟨fun results' hperm => (choose_perm h htie hperm).symm, fun r => choose_again h⟩

def probed (pcId : String) (age : Int64) : TargetProbeResult where
  binding := { pcId }
  outcome := .ready
  activityAgeMs := some age

theorem choose_order_independent_close :
    (∀ results', [probed "a" 8000, probed "b" 9500].Perm results' →
      choose results' (some "b") = choose [probed "a" 8000, probed "b" 9500] (some "b")) ∧
    ∀ r, choose [probed "a" 8000, probed "b" 9500] (some "b") = some r →
      choose [probed "a" 8000, probed "b" 9500] (some r.binding.pcId) = some r := by
  apply (choose_order_independent _ _ (by decide)).2
  rintro ⟨r, r', -, hr, -, hfresh, -⟩
  rcases List.mem_cons.1 hr.mem with rfl | hmem
  · exact absurd hfresh (by decide)
  · obtain rfl := List.mem_singleton.1 hmem
    exact absurd hfresh (by decide)

/-- Two computers were used just now: the one whose probe ended first is chosen. -/
theorem fresh_tie_by_order :
    choose [probed "a" 0, probed "b" 0] none = some (probed "a" 0) ∧
    choose [probed "b" 0, probed "a" 0] none = some (probed "b" 0) ∧
    ¬∀ results results' : List TargetProbeResult, DistinctComputers results →
      results.Perm results' → choose results' none = choose results none := by
  refine ⟨by decide, by decide, ?_⟩
  intro h
  have heq := h [probed "a" 0, probed "b" 0] [probed "b" 0, probed "a" 0] (by decide)
    (List.Perm.swap _ _ _)
  exact absurd heq (by decide)

end TargetSelector

end FlowType
