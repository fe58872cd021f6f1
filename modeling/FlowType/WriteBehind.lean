import Mathlib.Data.List.Induction
import Mathlib.Data.List.TakeWhile
import FlowType.DraftRepository

/-! The draft repository is a map that is written behind: what a load returns and what the store
holds, over any order of calls, loads and writes. -/
namespace FlowType

open DraftStore

/-- What has happened: the saves and clears in the order of their calls, how many of them the
storage thread has carried out, and the computers whose drafts were loaded from the store. -/
structure DraftHistory where
  calls : List DraftWrite := []
  done : Nat := 0
  order : List String := []

namespace DraftHistory

/-- The history after a step to `r'`. -/
def record (h : DraftHistory) (r r' : DraftRepository) : DraftEvent → DraftHistory
  | .save pcId draft => { h with calls := h.calls ++ [.save pcId draft] }
  | .clear pcId => { h with calls := h.calls ++ [.clear pcId] }
  | .commit => { h with done := h.done + 1 }
  | .loadStep =>
    if r'.loading.isNone then { h with order := h.order ++ (r.loading.map (·.pcId)).toList } else h
  | _ => h

end DraftHistory

structure DraftWorld where
  repository : DraftRepository
  history : DraftHistory := {}

namespace DraftWorld

def step (codec : DraftCodec) (w : DraftWorld) (e : DraftEvent) : Option DraftWorld :=
  (w.repository.step codec e).map fun r =>
    { repository := r, history := w.history.record w.repository r e }

end DraftWorld

def leftByLoads (codec : DraftCodec) (preferences : Preferences) (order : List String) :
    Preferences :=
  order.foldl (fun preferences pcId => (DraftStore.load codec preferences pcId).1) preferences

def Loading.left (codec : DraftCodec) (preferences : Preferences) (l : Loading) : Preferences :=
  match l.stage with
  | .decoding _ => (stored codec preferences l.pcId).1
  | .clearing => (stored codec preferences l.pcId).1
  | _ => preferences

def DraftWorld.left (codec : DraftCodec) (preferences : Preferences) (w : DraftWorld) :
    Preferences :=
  let before := leftByLoads codec preferences w.history.order
  (w.repository.loading.map (Loading.left codec before)).getD before

/-- The draft that the store has for a computer: the one under its key, or the one under the legacy
key, if no computer without a draft of its own was loaded before. -/
def storedDraft (codec : DraftCodec) (preferences : Preferences) (before : List String)
    (pcId : String) : Option ParkedSession :=
  let value := match preferences (storageKey codec pcId) with
    | some value => some value
    | none =>
      if before.any fun other => (preferences (storageKey codec other)).isNone then none
      else preferences LEGACY_KEY
  value.bind fun value => (codec.decode value).bind parse

def lastWrite (calls : List DraftWrite) (pcId : String) : Option DraftWrite :=
  (calls.filter fun write => write.pcId == pcId).getLast?

/-- What `load` should return. -/
def expectedDraft (codec : DraftCodec) (preferences : Preferences) (h : DraftHistory)
    (pcId : String) : Option ParkedSession :=
  match lastWrite h.calls pcId with
  | some write => write.draft
  | none => storedDraft codec preferences (h.order.takeWhile (· ≠ pcId)) pcId

/-- The repository is a map that is written behind. -/
structure WriteBehind (codec : DraftCodec) (preferences : Preferences) (w : DraftWorld) : Prop where
  returned : ∀ pcId draft, w.repository.returned = some (pcId, draft) →
    draft = expectedDraft codec preferences w.history pcId
  store : ∃ n ≤ w.history.calls.length, w.repository.preferences =
    (w.history.calls.take n).foldl (DraftWrite.apply codec) (w.left codec preferences)

namespace DraftStore
variable {codec : DraftCodec} {preferences : Preferences}

theorem storageKey_ne_legacy (pcId : String) : storageKey codec pcId ≠ LEGACY_KEY := by
  intro h
  have hlength := congrArg String.length h
  have hlegacy : LEGACY_KEY.length = 15 := by decide
  have hstart : ("encrypted_state_" : String).length = 16 := by decide
  rw [storageKey, String.length_append, hstart, hlegacy] at hlength
  omega

theorem storageKey_inj (hb : Function.Injective codec.base64) {pcId other : String} :
    storageKey codec pcId = storageKey codec other ↔ pcId = other := by
  constructor
  · intro h
    exact hb (String.append_right_inj _ |>.mp h)
  · intro h
    rw [h]

theorem load_of_none {pcId : String} {p : Preferences}
    (h : stored codec preferences pcId = (p, none)) :
    load codec preferences pcId = (p, none) := by
  simp only [load, h]

theorem load_of_some {pcId value : String} (h : (stored codec preferences pcId).2 = some value) :
    load codec preferences pcId =
      match (codec.decode value).bind parse with
      | some draft => ((stored codec preferences pcId).1, some draft)
      | none => (clear codec (stored codec preferences pcId).1 pcId, none) := by
  cases hstored : stored codec preferences pcId with
  | mk p found =>
    rw [hstored] at h
    obtain rfl : found = some value := h
    cases hdecoded : (codec.decode value).bind parse with
    | none => simp only [load, hstored, hdecoded]
    | some draft => simp only [load, hstored, hdecoded]

/-- A load reads one value, wherever it stands. -/
theorem load_snd (pcId : String) :
    (load codec preferences pcId).2 =
      (stored codec preferences pcId).2.bind fun value => (codec.decode value).bind parse := by
  cases h : (stored codec preferences pcId).2 with
  | none =>
    rw [load_of_none (Prod.ext rfl h)]
    rfl
  | some value =>
    rw [load_of_some h, Option.bind_some]
    cases (codec.decode value).bind parse <;> rfl

theorem stored_snd (pcId : String) :
    (stored codec preferences pcId).2 =
      (preferences (storageKey codec pcId)).or (preferences LEGACY_KEY) := by
  unfold stored
  cases preferences (storageKey codec pcId) <;> cases preferences LEGACY_KEY <;> rfl

/-- A load touches no key but its own and the legacy one. -/
theorem load_fst_of_ne (pcId key : String) (hown : key ≠ storageKey codec pcId)
    (hlegacy : key ≠ LEGACY_KEY) : (load codec preferences pcId).1 key = preferences key := by
  have hstored : (stored codec preferences pcId).1 key = preferences key := by
    unfold stored
    cases preferences (storageKey codec pcId) <;> cases preferences LEGACY_KEY <;>
      simp [Function.update_of_ne hown, Function.update_of_ne hlegacy]
  cases h : (stored codec preferences pcId).2 with
  | none =>
    rw [load_of_none (Prod.ext rfl h), hstored]
  | some value =>
    rw [load_of_some h]
    cases (codec.decode value).bind parse with
    | some draft => exact hstored
    | none =>
      simp only [DraftStore.clear]
      rw [Function.update_of_ne hown, hstored]

/-- A computer without a draft of its own uses up the legacy one. -/
theorem load_fst_legacy (pcId : String) : (load codec preferences pcId).1 LEGACY_KEY =
    if (preferences (storageKey codec pcId)).isNone then none else preferences LEGACY_KEY := by
  have hstored : (stored codec preferences pcId).1 LEGACY_KEY =
      if (preferences (storageKey codec pcId)).isNone then none else preferences LEGACY_KEY := by
    unfold stored
    cases preferences (storageKey codec pcId) <;> cases h : preferences LEGACY_KEY <;> simp [h]
  cases h : (stored codec preferences pcId).2 with
  | none => rw [load_of_none (Prod.ext rfl h), hstored]
  | some value =>
    rw [load_of_some h]
    cases (codec.decode value).bind parse with
    | some draft => exact hstored
    | none =>
      simp only [DraftStore.clear]
      rw [Function.update_of_ne (storageKey_ne_legacy pcId).symm, hstored]

end DraftStore

/-! ### The loads -/

section Loads
variable {codec : DraftCodec} (preferences : Preferences) (order : List String)

theorem leftByLoads_concat (pcId : String) : leftByLoads codec preferences (order ++ [pcId]) =
    (load codec (leftByLoads codec preferences order) pcId).1 := by
  simp only [leftByLoads, List.foldl_append, List.foldl_cons, List.foldl_nil]

theorem leftByLoads_own (hb : Function.Injective codec.base64) (pcId : String)
    (h : pcId ∉ order) : leftByLoads codec preferences order (storageKey codec pcId) =
      preferences (storageKey codec pcId) := by
  induction order using List.reverseRecOn with
  | nil => rfl
  | append_singleton order other ih =>
    rw [List.mem_append, List.mem_singleton, not_or] at h
    have hne : storageKey codec pcId ≠ storageKey codec other := by
      intro heq
      exact h.2 ((storageKey_inj hb).mp heq)
    rw [leftByLoads_concat, load_fst_of_ne other _ hne (storageKey_ne_legacy pcId)]
    exact ih h.1

theorem leftByLoads_legacy (hb : Function.Injective codec.base64) (h : order.Nodup) :
    leftByLoads codec preferences order LEGACY_KEY =
      if order.any fun other => (preferences (storageKey codec other)).isNone then none
      else preferences LEGACY_KEY := by
  induction order using List.reverseRecOn with
  | nil => rfl
  | append_singleton order pcId ih =>
    obtain ⟨hn, -, hdisjoint⟩ := List.nodup_append.mp h
    have hnot : pcId ∉ order := by
      intro hmem
      exact hdisjoint pcId hmem pcId (List.mem_singleton_self pcId) rfl
    rw [leftByLoads_concat, load_fst_legacy, leftByLoads_own preferences order hb pcId hnot,
      ih hn]
    simp only [List.any_append, List.any_cons, List.any_nil, Bool.or_false]
    cases (preferences (storageKey codec pcId)).isNone <;>
      cases order.any fun other => (preferences (storageKey codec other)).isNone <;> rfl

/-- The load of a computer returns the draft that the store had for it. -/
theorem load_leftByLoads (hb : Function.Injective codec.base64) (pcId : String)
    (hn : order.Nodup) (h : pcId ∉ order) :
    (load codec (leftByLoads codec preferences order) pcId).2 =
      storedDraft codec preferences order pcId := by
  rw [load_snd, stored_snd, leftByLoads_own preferences order hb pcId h,
    leftByLoads_legacy preferences order hb hn]
  unfold storedDraft
  cases preferences (storageKey codec pcId) <;> rfl

end Loads

/-! ### The writes -/

namespace DraftWrite
variable {codec : DraftCodec}

/-- What the write puts under the key of its computer. -/
def value (codec : DraftCodec) : DraftWrite → Option String
  | save _ draft => if Blank draft.state then none else some (codec.encode (plaintext draft))
  | clear _ => none

theorem apply_eq (preferences : Preferences) (write : DraftWrite) :
    write.apply codec preferences =
      Function.update preferences (storageKey codec write.pcId) (write.value codec) := by
  cases write with
  | clear pcId => rfl
  | save pcId draft =>
    by_cases hblank : Blank draft.state
    · simp only [apply, DraftStore.save, value, hblank, if_true, DraftStore.clear, DraftWrite.pcId]
    · simp only [apply, DraftStore.save, value, hblank, if_false, DraftWrite.pcId]

variable {writes : List DraftWrite} {key : String}

theorem foldl_apply_of_ne (h : ∀ write ∈ writes, key ≠ storageKey codec write.pcId)
    (preferences : Preferences) :
    writes.foldl (apply codec) preferences key = preferences key := by
  induction writes generalizing preferences with
  | nil => rfl
  | cons write writes ih =>
    rw [List.foldl_cons, ih fun other hmem => h other (List.mem_cons_of_mem write hmem),
      apply_eq, Function.update_of_ne (h write List.mem_cons_self)]

theorem foldl_apply_update (h : ∀ write ∈ writes, key ≠ storageKey codec write.pcId)
    (preferences : Preferences) (text : Option String) :
    writes.foldl (apply codec) (Function.update preferences key text) =
      Function.update (writes.foldl (apply codec) preferences) key text := by
  induction writes generalizing preferences with
  | nil => rfl
  | cons write writes ih =>
    have hne := h write List.mem_cons_self
    rw [List.foldl_cons, List.foldl_cons, apply_eq, apply_eq, Function.update_comm hne,
      ih fun other hmem => h other (List.mem_cons_of_mem write hmem)]

end DraftWrite

section Expected
variable {codec : DraftCodec} {preferences : Preferences} {calls : List DraftWrite}

theorem lastWrite_concat (write : DraftWrite) (pcId : String) :
    lastWrite (calls ++ [write]) pcId =
      if write.pcId = pcId then some write else lastWrite calls pcId := by
  by_cases h : write.pcId = pcId
  · simp [lastWrite, h]
  · simp [lastWrite, h]

theorem lastWrite_eq_none {pcId : String} :
    lastWrite calls pcId = none ↔ ∀ write ∈ calls, write.pcId ≠ pcId := by
  simp [lastWrite]

/-- A load of one computer does not change what the load of another returned. -/
theorem expectedDraft_order {h : DraftHistory} {pcId other : String}
    (hknown : pcId ∈ h.order ∨ ∃ write ∈ h.calls, write.pcId = pcId) :
    expectedDraft codec preferences { h with order := h.order ++ [other] } pcId =
      expectedDraft codec preferences h pcId := by
  unfold expectedDraft
  cases hlast : lastWrite h.calls pcId with
  | some write => rfl
  | none =>
    have hmem : pcId ∈ h.order := by
      rcases hknown with hmem | ⟨write, hmem, hpc⟩
      · exact hmem
      · exact absurd hpc (lastWrite_eq_none.mp hlast write hmem)
    have hstop : (h.order.takeWhile (· ≠ pcId)).length ≠ h.order.length := by
      intro hlength
      have hall := (List.takeWhile_prefix (· ≠ pcId)).eq_of_length hlength
      simpa using List.takeWhile_eq_self_iff.mp hall pcId hmem
    simp only [List.takeWhile_append, hstop, if_false]

theorem expectedDraft_self {h : DraftHistory} {pcId : String} (horder : pcId ∉ h.order)
    (hcalls : ∀ write ∈ h.calls, write.pcId ≠ pcId) :
    expectedDraft codec preferences { h with order := h.order ++ [pcId] } pcId =
      storedDraft codec preferences h.order pcId := by
  have hall : ∀ other ∈ h.order, decide (other ≠ pcId) = true := by
    intro other hmem
    simpa using fun heq : other = pcId => horder (heq ▸ hmem)
  have hbefore : (h.order ++ [pcId]).takeWhile (· ≠ pcId) = h.order := by
    rw [List.takeWhile_append_of_pos hall]
    simp
  simp only [expectedDraft, lastWrite_eq_none.mpr hcalls, hbefore]

end Expected

end FlowType
