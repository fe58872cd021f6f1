import Mathlib.Data.List.Nodup
import Mathlib.Logic.Encodable.Basic
import Mathlib.Logic.Equiv.List
import FlowType.WriteBehind

/-! The invariant of the draft repository, step by step, and its runs. -/
namespace FlowType

open DraftStore

namespace DraftRepository

def pending (r : DraftRepository) : List DraftWrite :=
  (match r.storage with
    | .writing write => [write]
    | _ => []) ++
  r.queue.filterMap fun action => match action with
    | .write write => some write
    | .preload _ => none

end DraftRepository

def Loading.Knows (codec : DraftCodec) (preferences : Preferences) (l : Loading) : Prop :=
  match l.stage with
  | .reading => True
  | .readingLegacy => preferences (storageKey codec l.pcId) = none
  | .migrating value =>
    preferences (storageKey codec l.pcId) = none ∧ preferences LEGACY_KEY = some value
  | .decoding value => (stored codec preferences l.pcId).2 = some value
  | .clearing => ∃ value, (stored codec preferences l.pcId).2 = some value ∧
    (codec.decode value).bind parse = none

namespace DraftWorld

structure Inv (codec : DraftCodec) (preferences : Preferences) (w : DraftWorld) : Prop where
  done_le : w.history.done ≤ w.history.calls.length
  pending : w.repository.pending = w.history.calls.drop w.history.done
  nodup : w.history.order.Nodup
  loaded : ∀ pcId, pcId ∈ w.repository.loaded ↔
    pcId ∈ w.history.order ∨ ∃ write ∈ w.history.calls, write.pcId = pcId
  loading : ∀ l, w.repository.loading = some l → l.pcId ∉ w.repository.loaded ∧
    l.Knows codec (leftByLoads codec preferences w.history.order)
  cached : ∀ pcId ∈ w.repository.loaded,
    w.repository.cache pcId = expectedDraft codec preferences w.history pcId
  uncached : ∀ pcId ∉ w.repository.loaded, w.repository.cache pcId = none
  returned : ∀ pcId draft, w.repository.returned = some (pcId, draft) →
    draft = expectedDraft codec preferences w.history pcId
  store : w.repository.preferences =
    (w.history.calls.take w.history.done).foldl (DraftWrite.apply codec) (w.left codec preferences)

variable {codec : DraftCodec} {preferences : Preferences} {w w' : DraftWorld}

theorem Inv.writeBehind (hi : w.Inv codec preferences) : WriteBehind codec preferences w where
  returned := hi.returned
  store := ⟨w.history.done, hi.done_le, hi.store⟩

theorem inv_start : ({ repository := { preferences } } : DraftWorld).Inv codec preferences where
  done_le := Nat.le_refl 0
  pending := rfl
  nodup := List.nodup_nil
  loaded := by simp
  loading := by simp
  cached := by simp
  uncached := fun _ _ => rfl
  returned := by simp
  store := rfl

theorem Inv.call (hi : w.Inv codec preferences) (write : DraftWrite)
    (hunlocked : w.repository.loading = none) :
    ({ repository := w.repository.call write,
       history := { w.history with calls := w.history.calls ++ [write] } } :
      DraftWorld).Inv codec preferences := by
  have hdone := hi.done_le
  refine ⟨?_, ?_, hi.nodup, ?_, ?_, ?_, ?_, ?_, ?_⟩
  · simp only [List.length_append, List.length_singleton]
    omega
  · have hpending := hi.pending
    simp only [DraftRepository.pending, DraftRepository.call, List.filterMap_append,
      List.filterMap_cons, List.filterMap_nil] at hpending ⊢
    rw [← List.append_assoc, hpending, List.drop_append_of_le_length hdone]
  · intro pcId
    have hloaded := hi.loaded pcId
    simp only [DraftRepository.call, List.mem_cons, hloaded, List.mem_append]
    grind
  · intro l hl
    rw [DraftRepository.call, hunlocked] at hl
    exact absurd hl (by simp)
  · intro pcId hmem
    simp only [DraftRepository.call, List.mem_cons] at hmem ⊢
    by_cases hpc : write.pcId = pcId
    · subst hpc
      simp only [Function.update_self, expectedDraft, lastWrite_concat, if_true]
    · have hmem := hmem.resolve_left (Ne.symm hpc)
      rw [Function.update_of_ne (Ne.symm hpc), hi.cached pcId hmem]
      simp only [expectedDraft, lastWrite_concat, hpc, if_false]
  · intro pcId hmem
    simp only [DraftRepository.call, List.mem_cons, not_or] at hmem ⊢
    rw [Function.update_of_ne hmem.1]
    exact hi.uncached pcId hmem.2
  · intro pcId draft hr
    exact absurd hr (by simp [DraftRepository.call])
  · simp only [DraftRepository.call, List.take_append_of_le_length hdone]
    exact hi.store

theorem Inv.commit (hi : w.Inv codec preferences) (write : DraftWrite)
    (hstorage : w.repository.storage = .writing write) :
    ({ repository := { w.repository with
        preferences := write.apply codec w.repository.preferences
        storage := .idle
        returned := none },
       history := { w.history with done := w.history.done + 1 } } :
      DraftWorld).Inv codec preferences := by
  have hpending := hi.pending
  simp only [DraftRepository.pending, hstorage, List.singleton_append] at hpending
  have hlt : w.history.done < w.history.calls.length := by
    have hlength := congrArg List.length hpending
    rw [List.length_cons, List.length_drop] at hlength
    omega
  rw [List.drop_eq_getElem_cons hlt, List.cons.injEq] at hpending
  refine ⟨hlt, ?_, hi.nodup, hi.loaded, hi.loading, hi.cached, hi.uncached, ?_, ?_⟩
  · simp only [DraftRepository.pending, List.nil_append]
    exact hpending.2
  · intro pcId draft hr
    exact absurd hr (by simp)
  · simp only
    rw [List.take_succ_eq_append_getElem hlt, List.foldl_append, ← hpending.1, hi.store]
    rfl

/-! ### The accesses of a load -/

/-- The writes so far leave a computer alone that has not been loaded. -/
theorem Inv.ne_storageKey (hi : w.Inv codec preferences) (hb : Function.Injective codec.base64)
    {pcId : String} (hnot : pcId ∉ w.repository.loaded) :
    ∀ write ∈ w.history.calls.take w.history.done,
      storageKey codec pcId ≠ storageKey codec write.pcId := by
  intro write hmem heq
  have hpc := (storageKey_inj hb).mp heq
  exact hnot ((hi.loaded pcId).mpr (.inr ⟨write, List.mem_of_mem_take hmem, hpc.symm⟩))

theorem legacy_ne (writes : List DraftWrite) :
    ∀ write ∈ writes, LEGACY_KEY ≠ storageKey codec write.pcId :=
  fun write _ => (storageKey_ne_legacy write.pcId).symm

/-- A load goes on: it only learns something, and touches keys that no write so far touches. -/
theorem Inv.advance (hi : w.Inv codec preferences) (l : Loading) (p : Preferences)
    (hnot : l.pcId ∉ w.repository.loaded)
    (hknows : l.Knows codec (leftByLoads codec preferences w.history.order))
    (hp : p = (w.history.calls.take w.history.done).foldl (DraftWrite.apply codec)
      (l.left codec (leftByLoads codec preferences w.history.order))) :
    ({ w with repository := { w.repository with
        preferences := p, loading := some l, returned := none } } :
      DraftWorld).Inv codec preferences := by
  refine ⟨hi.done_le, hi.pending, hi.nodup, hi.loaded, ?_, hi.cached, hi.uncached, ?_, hp⟩
  · intro l' hl
    obtain rfl : l = l' := by simpa using hl
    exact ⟨hnot, hknows⟩
  · intro pcId draft hr
    exact absurd hr (by simp)

/-- A load ends with what `SecureDraftStore.load` makes of the preferences it began with. -/
theorem Inv.finishLoad (hi : w.Inv codec preferences) (hb : Function.Injective codec.base64)
    (pcId : String) (draft : Option ParkedSession) (p : Preferences)
    (hnot : pcId ∉ w.repository.loaded)
    (hdraft : (load codec (leftByLoads codec preferences w.history.order) pcId).2 = draft)
    (hp : p = (w.history.calls.take w.history.done).foldl (DraftWrite.apply codec)
      (load codec (leftByLoads codec preferences w.history.order) pcId).1) :
    ({ repository := { w.repository with preferences := p }.finishLoad pcId draft,
       history := { w.history with order := w.history.order ++ [pcId] } } :
      DraftWorld).Inv codec preferences := by
  have hknown := not_or.mp (mt (hi.loaded pcId).mpr hnot)
  have hcalls : ∀ write ∈ w.history.calls, write.pcId ≠ pcId := by
    intro write hmem hpc
    exact hknown.2 ⟨write, hmem, hpc⟩
  have hself : draft = expectedDraft codec preferences
      { w.history with order := w.history.order ++ [pcId] } pcId := by
    rw [expectedDraft_self hknown.1 hcalls, ← hdraft]
    exact load_leftByLoads preferences w.history.order hb pcId hi.nodup hknown.1
  have hcache (other : String) :
      ({ w.repository with preferences := p }.finishLoad pcId draft).cache other =
        if other = pcId then draft else w.repository.cache other := by
    have hnone := hi.uncached pcId hnot
    by_cases hother : other = pcId
    · subst hother
      cases draft <;> simp [DraftRepository.finishLoad, hnone]
    · cases draft <;> simp [DraftRepository.finishLoad, hother]
  refine ⟨hi.done_le, hi.pending, ?_, ?_, ?_, ?_, ?_, ?_, ?_⟩
  · rw [← List.concat_eq_append]
    exact List.Nodup.concat hknown.1 hi.nodup
  · intro other
    have hloaded := hi.loaded other
    simp only [DraftRepository.finishLoad, List.mem_cons, hloaded, List.mem_append]
    grind
  · intro l hl
    exact absurd hl (by simp [DraftRepository.finishLoad])
  · intro other hmem
    rw [hcache]
    by_cases hother : other = pcId
    · rw [if_pos hother, hother]
      exact hself
    · have hmem := (List.mem_cons.mp hmem).resolve_left hother
      rw [if_neg hother, expectedDraft_order ((hi.loaded other).mp hmem)]
      exact hi.cached other hmem
  · intro other hmem
    have hmem := not_or.mp (mt List.mem_cons.mpr hmem)
    rw [hcache, if_neg hmem.1]
    exact hi.uncached other hmem.2
  · intro other result hr
    have hr : (pcId, ({ w.repository with preferences := p }.finishLoad pcId draft).cache pcId) =
        (other, result) := Option.some.inj hr
    rw [hcache, if_pos rfl, Prod.mk.injEq] at hr
    rw [← hr.1, ← hr.2]
    exact hself
  · simp only [DraftWorld.left, DraftRepository.finishLoad, Option.map_none, Option.getD_none,
      leftByLoads_concat]
    exact hp

theorem stored_of_some {pcId value : String}
    (h : preferences (storageKey codec pcId) = some value) :
    stored codec preferences pcId = (preferences, some value) := by
  simp only [stored, h]

theorem stored_of_legacy {pcId value : String} (h : preferences (storageKey codec pcId) = none)
    (hlegacy : preferences LEGACY_KEY = some value) :
    stored codec preferences pcId = (Function.update
      (Function.update preferences (storageKey codec pcId) (some value)) LEGACY_KEY none,
      some value) := by
  simp only [stored, h, hlegacy]

theorem stored_of_none {pcId : String} (h : preferences (storageKey codec pcId) = none)
    (hlegacy : preferences LEGACY_KEY = none) :
    stored codec preferences pcId = (preferences, none) := by
  simp only [stored, h, hlegacy]

theorem Inv.loadStep (hi : w.Inv codec preferences) (hb : Function.Injective codec.base64)
    (pcId : String) (stage : LoadStage) (hl : w.repository.loading = some ⟨pcId, stage⟩) :
    let r := w.repository.loadStep codec pcId stage
    ({ repository := r, history := w.history.record w.repository r .loadStep } :
      DraftWorld).Inv codec preferences := by
  obtain ⟨hnot, hknows⟩ := hi.loading _ hl
  have hown := hi.ne_storageKey hb hnot
  have hlegacy := @legacy_ne codec (w.history.calls.take w.history.done)
  have hstore := hi.store
  simp only [DraftWorld.left, hl, Option.map_some, Option.getD_some] at hstore
  cases stage with
  | reading =>
    have hread : w.repository.preferences (storageKey codec pcId) =
        leftByLoads codec preferences w.history.order (storageKey codec pcId) := by
      rw [hstore, DraftWrite.foldl_apply_of_ne hown]
      rfl
    cases hvalue : w.repository.preferences (storageKey codec pcId) with
    | some value =>
      have hstored := stored_of_some (hread ▸ hvalue)
      have hnext := hi.advance ⟨pcId, .decoding value⟩ w.repository.preferences hnot
        (by simp only [Loading.Knows, hstored])
        (by simpa only [Loading.left, hstored] using hstore)
      simpa [DraftRepository.loadStep, hvalue, DraftHistory.record] using hnext
    | none =>
      have hnext := hi.advance ⟨pcId, .readingLegacy⟩ w.repository.preferences hnot
        (hread.symm.trans hvalue) hstore
      simpa [DraftRepository.loadStep, hvalue, DraftHistory.record] using hnext
  | readingLegacy =>
    have hread : w.repository.preferences LEGACY_KEY =
        leftByLoads codec preferences w.history.order LEGACY_KEY := by
      rw [hstore, DraftWrite.foldl_apply_of_ne hlegacy]
      rfl
    cases hvalue : w.repository.preferences LEGACY_KEY with
    | some value =>
      have hnext := hi.advance ⟨pcId, .migrating value⟩ w.repository.preferences hnot
        ⟨hknows, hread ▸ hvalue⟩ hstore
      simpa [DraftRepository.loadStep, hvalue, DraftHistory.record] using hnext
    | none =>
      have hload := load_of_none (stored_of_none hknows (hread ▸ hvalue))
      have hnext := hi.finishLoad hb pcId none w.repository.preferences hnot
        (by rw [hload]) (by rw [hload]; exact hstore)
      simpa [DraftRepository.loadStep, hvalue, DraftHistory.record, hl,
        DraftRepository.finishLoad] using hnext
  | migrating value =>
    have hstored := stored_of_legacy hknows.1 hknows.2
    have hmoved : Function.update (Function.update w.repository.preferences
        (storageKey codec pcId) (some value)) LEGACY_KEY none =
        (w.history.calls.take w.history.done).foldl (DraftWrite.apply codec)
          (stored codec (leftByLoads codec preferences w.history.order) pcId).1 := by
      rw [hstored, DraftWrite.foldl_apply_update hlegacy, DraftWrite.foldl_apply_update hown,
        hstore]
      rfl
    have hnext := hi.advance ⟨pcId, .decoding value⟩ _ hnot
      (by simp only [Loading.Knows, hstored]) hmoved
    simpa [DraftRepository.loadStep, DraftHistory.record] using hnext
  | decoding value =>
    have hload := load_of_some hknows
    cases hparse : (codec.decode value).bind parse with
    | some draft =>
      rw [hparse] at hload
      have hnext := hi.finishLoad hb pcId (some draft) w.repository.preferences hnot
        (by rw [hload]) (by rw [hload]; exact hstore)
      simpa [DraftRepository.loadStep, hparse, DraftHistory.record, hl,
        DraftRepository.finishLoad] using hnext
    | none =>
      have hnext := hi.advance ⟨pcId, .clearing⟩ w.repository.preferences hnot
        ⟨value, hknows, hparse⟩ hstore
      simpa [DraftRepository.loadStep, hparse, DraftHistory.record] using hnext
  | clearing =>
    obtain ⟨value, hvalue, hparse⟩ := hknows
    have hload := load_of_some hvalue
    rw [hparse] at hload
    have hcleared : DraftStore.clear codec w.repository.preferences pcId =
        (w.history.calls.take w.history.done).foldl (DraftWrite.apply codec)
          (DraftStore.clear codec
            (stored codec (leftByLoads codec preferences w.history.order) pcId).1 pcId) := by
      rw [DraftStore.clear, DraftStore.clear, DraftWrite.foldl_apply_update hown, hstore]
      rfl
    have hnext := hi.finishLoad hb pcId none (DraftStore.clear codec w.repository.preferences pcId)
      hnot (by rw [hload]) (by rw [hload]; exact hcleared)
    simpa [DraftRepository.loadStep, DraftHistory.record, hl,
      DraftRepository.finishLoad] using hnext

/-! ### The other events -/

theorem Inv.turn (hi : w.Inv codec preferences) (queue : List StorageAction)
    (storage : StorageThread)
    (hpending : ({ w.repository with queue, storage } : DraftRepository).pending =
      w.repository.pending) :
    ({ w with repository := { w.repository with queue, storage, returned := none } } :
      DraftWorld).Inv codec preferences :=
  { hi with
    pending := hpending.trans hi.pending
    returned := fun _ _ hr => absurd hr (by simp) }

theorem Inv.readCache (hi : w.Inv codec preferences) (pcId : String)
    (hmem : pcId ∈ w.repository.loaded) :
    ({ w with repository := { w.repository with
        returned := some (pcId, w.repository.cache pcId) } } :
      DraftWorld).Inv codec preferences := by
  refine { hi with returned := ?_ }
  intro other draft hr
  obtain ⟨rfl, rfl⟩ := Prod.mk.inj (Option.some.inj hr)
  exact hi.cached pcId hmem

theorem Inv.beginLoad (hi : w.Inv codec preferences) (pcId : String)
    (hunlocked : w.repository.loading = none) (hnot : pcId ∉ w.repository.loaded) :
    ({ w with repository := { w.repository with loading := some { pcId }, returned := none } } :
      DraftWorld).Inv codec preferences := by
  have hstore := hi.store
  simp only [DraftWorld.left, hunlocked, Option.map_none, Option.getD_none] at hstore
  exact hi.advance { pcId } w.repository.preferences hnot trivial hstore

/-- A call of `load` that gets the lock. -/
theorem Inv.load (hi : w.Inv codec preferences) (pcId : String) {r : DraftRepository}
    (hr : (if w.repository.unlocked = false then none
      else if pcId ∈ w.repository.loaded then
        some { w.repository with returned := some (pcId, w.repository.cache pcId) }
      else some { w.repository with loading := some { pcId }, returned := none }) = some r) :
    ({ w with repository := r } : DraftWorld).Inv codec preferences := by
  cases hloading : w.repository.loading with
  | some l =>
    simp only [DraftRepository.unlocked, hloading, Option.isNone_some, if_true] at hr
    exact absurd hr (by simp)
  | none =>
    simp only [DraftRepository.unlocked, hloading, Option.isNone_none, Bool.true_eq_false,
      if_false] at hr
    by_cases hmem : pcId ∈ w.repository.loaded
    · simp only [hmem, if_true, Option.some.injEq] at hr
      obtain rfl := hr
      simpa only [hloading] using hi.readCache pcId hmem
    · simp only [hmem, if_false, Option.some.injEq] at hr
      obtain rfl := hr
      exact hi.beginLoad pcId hloading hmem

theorem Inv.step (hb : Function.Injective codec.base64) (hi : w.Inv codec preferences)
    (e : DraftEvent) (hs : w.step codec e = some w') : w'.Inv codec preferences := by
  obtain ⟨r', hr, rfl⟩ := Option.map_eq_some_iff.mp hs
  cases e with
  | load pcId => exact hi.load pcId hr
  | save pcId draft =>
    simp only [DraftRepository.step, DraftRepository.unlocked, Option.ite_none_right_eq_some,
      Option.some.injEq, Option.isNone_iff_eq_none] at hr
    obtain ⟨hunlocked, rfl⟩ := hr
    exact hi.call (.save pcId draft) hunlocked
  | clear pcId =>
    simp only [DraftRepository.step, DraftRepository.unlocked, Option.ite_none_right_eq_some,
      Option.some.injEq, Option.isNone_iff_eq_none] at hr
    obtain ⟨hunlocked, rfl⟩ := hr
    exact hi.call (.clear pcId) hunlocked
  | preload pcIds =>
    obtain rfl := Option.some.inj hr
    apply hi.turn
    simp [DraftRepository.pending]
  | take =>
    simp only [DraftRepository.step] at hr
    split at hr
    · rename_i write queue hstorage hqueue
      obtain rfl := Option.some.inj hr
      apply hi.turn
      simp [DraftRepository.pending, hstorage, hqueue]
    · rename_i pcIds queue hstorage hqueue
      obtain rfl := Option.some.inj hr
      apply hi.turn
      simp [DraftRepository.pending, hstorage, hqueue]
    · exact absurd hr (by simp)
  | commit =>
    simp only [DraftRepository.step] at hr
    split at hr
    · rename_i write hstorage
      obtain rfl := Option.some.inj hr
      exact hi.commit write hstorage
    · exact absurd hr (by simp)
  | preloadNext =>
    simp only [DraftRepository.step] at hr
    split at hr
    · rename_i hstorage
      obtain rfl := Option.some.inj hr
      apply hi.turn
      simp [DraftRepository.pending, hstorage]
    · rename_i pcId pcIds hstorage
      have hturn := hi.turn w.repository.queue (.preloading pcIds)
        (by simp [DraftRepository.pending, hstorage])
      exact hturn.load pcId hr
    · exact absurd hr (by simp)
  | loadStep =>
    simp only [DraftRepository.step, Option.map_eq_some_iff] at hr
    obtain ⟨⟨pcId, stage⟩, hl, rfl⟩ := hr
    exact hi.loadStep hb pcId stage hl

end DraftWorld

/-- In every run a load returns the last draft saved, nothing after a clear, or else what the store
had for the computer; and the store is always what the loads have left, with the first of the saves
and clears applied to it. -/
theorem draft_write_behind (codec : DraftCodec) (hb : Function.Injective codec.base64)
    (preferences : Preferences) (events : List DraftEvent) :
    Machine.Always (DraftWorld.step codec) (WriteBehind codec preferences)
      { repository := { preferences } } events :=
  Machine.always_of_invariant (DraftWorld.Inv codec preferences) events DraftWorld.inv_start
    (fun _ hi => hi.writeBehind) (fun _ e _ hi hs => hi.step hb e hs)

/-! ### A legacy draft, and a clear that is queued -/

local instance encodableChar : Encodable Char := Encodable.ofLeftInverse Char.toNat Char.ofNat Char.ofNat_toNat

local instance encodableString : Encodable String :=
  Encodable.ofLeftInverse String.toList String.ofList fun _ => String.ofList_toList

def JsonValue.toSum : JsonValue → String ⊕ Int ⊕ Bool
  | .string value => .inl value
  | .long value => .inr (.inl value)
  | .boolean value => .inr (.inr value)

def JsonValue.ofSum : String ⊕ Int ⊕ Bool → JsonValue
  | .inl value => .string value
  | .inr (.inl value) => .long value
  | .inr (.inr value) => .boolean value

local instance encodableJsonValue : Encodable JsonValue :=
  Encodable.ofLeftInverse JsonValue.toSum JsonValue.ofSum fun value => by cases value <;> rfl

/-- A codec whose texts are numbers in unary. -/
def unaryCodec : DraftCodec where
  encode o := String.ofList (List.replicate (Encodable.encode o) '0')
  decode text := Encodable.decode text.length
  base64 pcId := pcId ++ "="
  decode_encode o := by simp

theorem unaryCodec_base64_injective : Function.Injective unaryCodec.base64 := fun _ _ h =>
  (String.append_left_inj "=").mp h

def legacyPreferences : Preferences := Function.update (fun _ => none) LEGACY_KEY (some "draft")

def legacyLoad : List DraftEvent := [.load "pc", .loadStep, .loadStep, .loadStep]

def savedDraft : ParkedSession where
  state :=
    { sessionId := some "s", text := "draft", latestSequence := 2, acknowledgedSequence := 1
      finishing := false }
  remoteStarted := true

def clearQueued : List DraftEvent :=
  [.save "pc" savedDraft, .take, .load "pc", .commit, .clear "pc", .take, .load "pc"]

theorem draft_write_behind_clearQueued : ∃ w,
    Machine.run (DraftWorld.step unaryCodec) { repository := { preferences := legacyPreferences } }
      clearQueued = some w ∧
    w.repository.returned = some ("pc", none) ∧ w.history.done = 1 ∧
    (w.repository.preferences (storageKey unaryCodec "pc")).isSome ∧
    WriteBehind unaryCodec legacyPreferences w := by
  have hend : (Machine.run (DraftWorld.step unaryCodec)
      { repository := { preferences := legacyPreferences } } clearQueued).map
      (fun w => (w.repository.returned, w.history.done,
        (w.repository.preferences (storageKey unaryCodec "pc")).isSome)) =
      some (some ("pc", none), 1, true) := rfl
  obtain ⟨w, hw, hend⟩ := Option.map_eq_some_iff.mp hend
  simp only [Prod.mk.injEq] at hend
  obtain ⟨hreturned, hdone, hstored⟩ := hend
  have hall := draft_write_behind unaryCodec unaryCodec_base64_injective legacyPreferences clearQueued
  exact ⟨w, hw, hreturned, hdone, hstored, hall.last clearQueued hw⟩

/-- One load and no save: the store is not what it was, for the draft has been moved. -/
theorem legacy_draft_moved : ∃ w,
    Machine.run (DraftWorld.step unaryCodec) { repository := { preferences := legacyPreferences } }
      legacyLoad = some w ∧
    ∀ n, w.repository.preferences ≠
      (w.history.calls.take n).foldl (DraftWrite.apply unaryCodec) legacyPreferences := by
  have hmoved : (Machine.run (DraftWorld.step unaryCodec)
      { repository := { preferences := legacyPreferences } } legacyLoad).map
      (fun w => (w.repository.preferences LEGACY_KEY, w.history.calls.length)) =
      some (none, 0) := rfl
  obtain ⟨w, hw, hend⟩ := Option.map_eq_some_iff.mp hmoved
  refine ⟨w, hw, ?_⟩
  intro n heq
  obtain ⟨hnone, hcalls⟩ := Prod.mk.inj hend
  rw [heq, List.length_eq_zero_iff.mp hcalls, List.take_nil, List.foldl_nil] at hnone
  exact absurd hnone (by decide)

end FlowType
