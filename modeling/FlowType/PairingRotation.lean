import Mathlib.Logic.Function.Iterate
import FlowType.BindingStore

/-! The addresses that a phone tries while it pairs. After each failure it goes from its
`endpoint` to the next of its candidates and keeps the candidates with the old `endpoint` in
front, so that the next step starts from a list with two entries swapped. -/
namespace FlowType

theorem nodup_eraseDups {α : Type*} [BEq α] [LawfulBEq α] (l : List α) : l.eraseDups.Nodup := by
  match l with
  | [] => exact List.nodup_nil
  | a :: l =>
    have hshorter : (l.filter fun other => !other == a).length < (a :: l).length :=
      Nat.lt_succ_of_le (List.length_filter_le _ _)
    have hrest := nodup_eraseDups (l.filter fun other => !other == a)
    rw [List.eraseDups_cons, List.nodup_cons]
    refine ⟨?_, hrest⟩
    rw [List.mem_eraseDups, List.mem_filter]
    simp
termination_by l.length
decreasing_by exact hshorter

def swapHead {α : Type*} : List α → List α
  | a :: c :: rest => c :: a :: rest
  | l => l

@[simp] theorem swapHead_swapHead {α : Type*} (l : List α) : swapHead (swapHead l) = l := by
  match l with
  | [] | [_] | _ :: _ :: _ => rfl

theorem swapHead_perm {α : Type*} (l : List α) : (swapHead l).Perm l := by
  match l with
  | [] | [_] => exact List.Perm.refl _
  | a :: c :: rest => exact List.Perm.swap a c rest

theorem iterate_swapHead {α : Type*} (l : List α) (k : Nat) :
    swapHead^[k] l = if k % 2 = 0 then l else swapHead l := by
  induction k with
  | zero => rfl
  | succ k ih =>
    rw [Function.iterate_succ_apply', ih]
    by_cases hk : k % 2 = 0
    · have hodd : ¬(k + 1) % 2 = 0 := by omega
      rw [if_pos hk, if_neg hodd]
    · have heven : (k + 1) % 2 = 0 := by omega
      rw [if_neg hk, if_pos heven, swapHead_swapHead]

namespace BindingStore.Binding

variable {b : Binding}

/-- The candidates of the pairing, without repetitions. -/
def candidates (b : Binding) : List String := (b.endpoint :: b.endpoints).eraseDups

/-- The binding after so many failures. -/
def afterFailures (b : Binding) (failures : Nat) : Binding := nextPairingEndpoint^[failures] b

/-- The addresses of the first `n` attempts. -/
def tried (b : Binding) (n : Nat) : List String :=
  (List.range n).map fun failures => (b.afterFailures failures).endpoint

/-- One round over the candidates: each is tried once, the next attempt starts the round
again, and no attempt changes what is paired with. -/
structure Rotates (b : Binding) : Prop where
  visits : (b.tried b.candidates.length).Perm b.candidates
  returns : (b.afterFailures b.candidates.length).endpoint = b.endpoint
  keeps : ∀ failures, (b.afterFailures failures).candidates.Perm b.candidates ∧
    (b.afterFailures failures).pcId = b.pcId ∧
    (b.afterFailures failures).pairingToken = b.pairingToken

/-- Enough failures bring every candidate to its attempt. -/
def TriesEach (b : Binding) : Prop :=
  ∀ endpoint ∈ b.candidates, ∃ failures, (b.afterFailures failures).endpoint = endpoint

theorem candidates_nodup (b : Binding) : b.candidates.Nodup := nodup_eraseDups _

theorem exists_candidates_eq (b : Binding) : ∃ rest, b.candidates = b.endpoint :: rest := by
  rw [candidates, List.eraseDups_cons]
  exact ⟨_, rfl⟩

theorem nextPairingEndpoint_eq_self (h : b.candidates.length < 2) : b.nextPairingEndpoint = b := by
  unfold candidates at h
  unfold nextPairingEndpoint
  split
  · rfl
  · simp only [h, if_true]

theorem nextPairingEndpoint_eq {second : String} {rest : List String}
    (htoken : b.pairingToken ≠ none) (h : b.candidates = b.endpoint :: second :: rest) :
    b.nextPairingEndpoint = { b with endpoint := second, endpoints := b.candidates } := by
  have hlength : ¬b.candidates.length < 2 := by
    rw [h]
    simp
  have hnext : b.candidates.getD ((b.candidates.idxOf b.endpoint + 1) % b.candidates.length)
      b.endpoint = second := by
    have hindex : (0 + 1) % (b.endpoint :: second :: rest).length = 1 := by
      rw [List.length_cons, List.length_cons]
      exact Nat.mod_eq_of_lt (by omega)
    rw [h, List.idxOf_cons_self, hindex]
    rfl
  unfold candidates at hlength hnext
  unfold nextPairingEndpoint
  rw [if_neg htoken]
  dsimp only
  rw [if_neg hlength, hnext]
  rfl

@[simp] theorem nextPairingEndpoint_pcId (b : Binding) : b.nextPairingEndpoint.pcId = b.pcId := by
  unfold nextPairingEndpoint
  dsimp only
  split_ifs <;> rfl

@[simp] theorem nextPairingEndpoint_pairingToken (b : Binding) :
    b.nextPairingEndpoint.pairingToken = b.pairingToken := by
  unfold nextPairingEndpoint
  dsimp only
  split_ifs <;> rfl

/-- The old endpoint stays in front of the others, right behind the new one. -/
theorem candidates_nextPairingEndpoint (htoken : b.pairingToken ≠ none) :
    b.nextPairingEndpoint.candidates = swapHead b.candidates := by
  obtain ⟨rest, hcandidates⟩ := b.exists_candidates_eq
  cases rest with
  | nil =>
    have hshort : b.candidates.length < 2 := by
      rw [hcandidates]
      simp
    rw [nextPairingEndpoint_eq_self hshort, hcandidates]
    rfl
  | cons second rest =>
    have hnodup := b.candidates_nodup
    rw [hcandidates] at hnodup
    obtain ⟨hfirst, hrest⟩ := List.nodup_cons.1 hnodup
    obtain ⟨hsecond, hrest⟩ := List.nodup_cons.1 hrest
    have hne : b.endpoint ≠ second := fun heq => hfirst (heq ▸ List.mem_cons_self)
    have hnew : b.endpoint ∉ rest := fun hmem => hfirst (List.mem_cons_of_mem _ hmem)
    have hkept : ((b.endpoint :: second :: rest).filter fun other => !other == second) =
        b.endpoint :: rest := by
      have hothers : (rest.filter fun other => !other == second) = rest := by
        rw [List.filter_eq_self]
        intro other hother
        have hother : other ≠ second := fun heq => hsecond (heq ▸ hother)
        simpa using hother
      simp [hne, hothers]
    rw [nextPairingEndpoint_eq htoken hcandidates]
    change (second :: b.candidates).eraseDups = _
    rw [hcandidates, List.eraseDups_cons, hkept]
    rw [eraseDups_of_nodup (List.nodup_cons.2 ⟨hnew, hrest⟩)]
    rfl

theorem afterFailures_succ (b : Binding) (failures : Nat) :
    b.afterFailures (failures + 1) = (b.afterFailures failures).nextPairingEndpoint :=
  Function.iterate_succ_apply' _ _ _

@[simp] theorem afterFailures_pcId (b : Binding) (failures : Nat) :
    (b.afterFailures failures).pcId = b.pcId := by
  induction failures with
  | zero => rfl
  | succ failures ih => rw [afterFailures_succ, nextPairingEndpoint_pcId, ih]

@[simp] theorem afterFailures_pairingToken (b : Binding) (failures : Nat) :
    (b.afterFailures failures).pairingToken = b.pairingToken := by
  induction failures with
  | zero => rfl
  | succ failures ih => rw [afterFailures_succ, nextPairingEndpoint_pairingToken, ih]

theorem candidates_afterFailures (htoken : b.pairingToken ≠ none) (failures : Nat) :
    (b.afterFailures failures).candidates = swapHead^[failures] b.candidates := by
  induction failures with
  | zero => rfl
  | succ failures ih =>
    have htoken' : (b.afterFailures failures).pairingToken ≠ none := by simpa using htoken
    rw [afterFailures_succ, candidates_nextPairingEndpoint htoken', ih,
      Function.iterate_succ_apply']

theorem candidates_afterFailures_perm (htoken : b.pairingToken ≠ none) (failures : Nat) :
    (b.afterFailures failures).candidates.Perm b.candidates := by
  rw [candidates_afterFailures htoken, iterate_swapHead]
  split
  · exact List.Perm.refl _
  · exact swapHead_perm _

/-- Every attempt goes to one of the first two candidates, in turns. -/
theorem endpoint_afterFailures (htoken : b.pairingToken ≠ none) (failures : Nat) :
    some (b.afterFailures failures).endpoint =
      if failures % 2 = 0 then b.candidates.head? else (swapHead b.candidates).head? := by
  obtain ⟨rest, hrest⟩ := (b.afterFailures failures).exists_candidates_eq
  have hhead : some (b.afterFailures failures).endpoint =
      (b.afterFailures failures).candidates.head? := by
    rw [hrest]
    rfl
  rw [hhead, candidates_afterFailures htoken, iterate_swapHead]
  split <;> rfl

theorem endpoint_mem_take (htoken : b.pairingToken ≠ none) (failures : Nat) :
    (b.afterFailures failures).endpoint ∈ b.candidates.take 2 := by
  have hendpoint := endpoint_afterFailures htoken failures
  obtain ⟨rest, hcandidates⟩ := b.exists_candidates_eq
  rw [hcandidates] at hendpoint ⊢
  cases rest with
  | nil =>
    have hfirst : (b.afterFailures failures).endpoint = b.endpoint := by
      simpa [swapHead] using hendpoint
    simp [hfirst]
  | cons second rest =>
    by_cases hparity : failures % 2 = 0
    · have hfirst : (b.afterFailures failures).endpoint = b.endpoint := by
        simpa [hparity] using hendpoint
      simp [hfirst]
    · have hsecond : (b.afterFailures failures).endpoint = second := by
        simpa [hparity, swapHead] using hendpoint
      simp [hsecond]

theorem rotates_of_length_le (htoken : b.pairingToken ≠ none) (h : b.candidates.length ≤ 2) :
    b.Rotates := by
  have hendpoint := endpoint_afterFailures htoken
  obtain ⟨rest, hcandidates⟩ := b.exists_candidates_eq
  have hkeeps : ∀ failures, (b.afterFailures failures).candidates.Perm b.candidates ∧
      (b.afterFailures failures).pcId = b.pcId ∧
      (b.afterFailures failures).pairingToken = b.pairingToken := by
    intro failures
    exact ⟨candidates_afterFailures_perm htoken failures, by simp, by simp⟩
  match rest, hcandidates with
  | [], hcandidates =>
    have hlength : b.candidates.length = 1 := by rw [hcandidates]; rfl
    have hagain : (b.afterFailures 1).endpoint = b.endpoint := by
      simpa [hcandidates, swapHead] using hendpoint 1
    refine ⟨?_, ?_, hkeeps⟩
    · rw [hlength, hcandidates]
      exact List.Perm.refl _
    · rw [hlength, hagain]
  | [second], hcandidates =>
    have hlength : b.candidates.length = 2 := by rw [hcandidates]; rfl
    have hsecond : (b.afterFailures 1).endpoint = second := by
      simpa [hcandidates, swapHead] using hendpoint 1
    have hagain : (b.afterFailures 2).endpoint = b.endpoint := by
      simpa [hcandidates] using hendpoint 2
    have htried : b.tried 2 = [b.endpoint, second] := by
      rw [← hsecond]
      rfl
    refine ⟨?_, ?_, hkeeps⟩
    · rw [hlength, htried, hcandidates]
    · rw [hlength, hagain]
  | second :: third :: rest, hcandidates =>
    rw [hcandidates] at h
    simp only [List.length_cons] at h
    omega

theorem Rotates.triesEach (h : b.Rotates) : b.TriesEach := by
  intro endpoint hmem
  have htried := h.visits.mem_iff.2 hmem
  rw [tried, List.mem_map] at htried
  obtain ⟨failures, _, heq⟩ := htried
  exact ⟨failures, heq⟩

/-- A third candidate is never tried. -/
theorem length_le_of_triesEach (htoken : b.pairingToken ≠ none) (h : b.TriesEach) :
    b.candidates.length ≤ 2 := by
  by_contra hlong
  rw [Nat.not_le] at hlong
  have hmem : b.candidates[2] ∈ b.candidates := List.getElem_mem hlong
  obtain ⟨failures, heq⟩ := h _ hmem
  have htake := endpoint_mem_take htoken failures
  rw [heq] at htake
  have hdrop : b.candidates[2] ∈ b.candidates.drop 2 := by
    rw [List.drop_eq_getElem_cons hlong]
    exact List.mem_cons_self
  have hnodup := b.candidates_nodup
  rw [← List.take_append_drop 2 b.candidates] at hnodup
  exact List.disjoint_of_nodup_append hnodup htake hdrop

/-- The round over the candidates is whole, and every candidate is ever tried, exactly when
there are at most two of them. -/
theorem rotates_iff (htoken : b.pairingToken ≠ none) :
    (b.Rotates ↔ b.candidates.length ≤ 2) ∧ (b.TriesEach ↔ b.candidates.length ≤ 2) := by
  have hneeded : b.TriesEach → b.candidates.length ≤ 2 := length_le_of_triesEach htoken
  have henough : b.candidates.length ≤ 2 → b.Rotates := rotates_of_length_le htoken
  constructor
  · constructor
    · intro h
      exact hneeded h.triesEach
    · exact henough
  · constructor
    · exact hneeded
    · intro h
      exact (henough h).triesEach

/-- A computer with one Tailscale address and two local ones. -/
def threeAddresses : Binding where
  pcId := "pc"
  pcName := "Office"
  endpoint := "wss://100.0.0.13:32187/v1/sync"
  tlsSpkiSha256 := "hash"
  pairingToken := some "one-time-token"
  endpoints := ["wss://100.0.0.13:32187/v1/sync", "wss://192.168.1.20:32187/v1/sync",
    "wss://192.168.2.20:32187/v1/sync"]

theorem threeAddresses_never_third : threeAddresses.candidates = threeAddresses.endpoints ∧
    ¬threeAddresses.Rotates ∧ ∀ failures,
      (threeAddresses.afterFailures failures).endpoint ≠ "wss://192.168.2.20:32187/v1/sync" := by
  have hcandidates : threeAddresses.candidates = threeAddresses.endpoints := by decide
  have htoken : threeAddresses.pairingToken ≠ none := by decide
  refine ⟨hcandidates, ?_, ?_⟩
  · intro h
    have hlength := length_le_of_triesEach htoken h.triesEach
    exact absurd hlength (by decide)
  · intro failures heq
    have htake := endpoint_mem_take htoken failures
    rw [heq, hcandidates] at htake
    exact absurd htake (by decide)

def twoAddresses : Binding where
  pcId := "pc"
  pcName := "Office"
  endpoint := "wss://100.0.0.13:32187/v1/sync"
  tlsSpkiSha256 := "hash"
  pairingToken := some "one-time-token"
  endpoints := ["wss://100.0.0.13:32187/v1/sync", "wss://192.168.1.20:32187/v1/sync"]

theorem twoAddresses_rotates : twoAddresses.Rotates ∧ ¬threeAddresses.TriesEach := by
  constructor
  · exact (rotates_iff (by decide)).1.2 (by decide)
  · intro h
    have hlength := (rotates_iff (by decide)).2.1 h
    exact absurd hlength (by decide)

end BindingStore.Binding

end FlowType
