import FlowType.Pairing
import FlowType.Threads

/-! `PairedPhoneStore`: the paired phones in memory and in their file, under calls from several
threads. A call is cut where it takes or releases a lock and where it touches the file; the
file is replaced as a whole or not at all. -/
namespace FlowType

/-- A missing file holds no phones. -/
structure PhoneStoreState where
  phones : PairedPhones
  file : Option PairedPhones

def PhoneStoreState.stored (s : PhoneStoreState) : PairedPhones := s.file.getD fun _ => none

inductive PhoneStoreCall
  | upsert (phoneId phoneName publicKeySpki : String) (now : Nat)
  | markConnected (phoneId phoneName : String) (now : Nat)
  | remove (phoneId : String)
  deriving DecidableEq, Repr

/-- What the call makes of its copy of the phones, and what it answers. -/
def PhoneStoreCall.operation (phones : PairedPhones) :
    PhoneStoreCall → PairedPhones × Except String Unit
  | .upsert phoneId phoneName publicKeySpki now =>
    (phones.upsert phoneId phoneName publicKeySpki now, .ok ())
  | .markConnected phoneId phoneName now =>
    match phones.markConnected phoneId phoneName now with
    | some phones => (phones, .ok ())
    | none => (phones, .error "phone is not paired")
  | .remove phoneId => (phones.remove phoneId, .ok ())

/-- Where a thread is in `update`. From `copying` on it holds the lock `write`; `found` is what
it found then. -/
inductive UpdateStage
  | called (call : PhoneStoreCall)
  | copying (call : PhoneStoreCall) (found : PhoneStoreState)
  | saving (call : PhoneStoreCall) (phones : PairedPhones) (result : Except String Unit)
      (found : PhoneStoreState)
  | publishing (call : PhoneStoreCall) (phones : PairedPhones) (result : Except String Unit)
      (found : PhoneStoreState)
  | returned

namespace UpdateStage

def holdsWrite : UpdateStage → Bool
  | .copying _ _ => true
  | .saving _ _ _ _ => true
  | .publishing _ _ _ _ => true
  | _ => false

def publishes : UpdateStage → Bool
  | .publishing _ _ _ _ => true
  | _ => false

end UpdateStage

structure UpdateAnswer where
  call : PhoneStoreCall
  result : Except String Unit
  found : PhoneStoreState
  left : PhoneStoreState

def UpdateAnswer.succeeded (answer : UpdateAnswer) : Bool := answer.result.toBool

/-- `answers` has the last one first. -/
structure PhoneStoreRun where
  store : PhoneStoreState
  write : Bool := false
  threads : Nat → Option UpdateStage := fun _ => none
  answers : List UpdateAnswer := []

/-- A thread calls; it goes on to the end of its stage. `written` is what `atomic_file::write`
answers, where the stage is the one that saves. -/
inductive PhoneStoreEvent
  | call (thread : Nat) (call : PhoneStoreCall)
  | go (thread : Nat) (written : Except String Unit)

namespace PhoneStoreRun

open Threads

/-- The store that `load` leaves: memory holds what the file holds. -/
def start (file : Option PairedPhones) : PhoneStoreRun :=
  { store := ⟨file.getD fun _ => none, file⟩ }

def goTo (w : PhoneStoreRun) (thread : Nat) (stage : UpdateStage) : PhoneStoreRun :=
  { w with threads := Function.update w.threads thread (some stage) }

def answer (w : PhoneStoreRun) (thread : Nat) (call : PhoneStoreCall)
    (result : Except String Unit) (found : PhoneStoreState) : PhoneStoreRun :=
  { w with
    write := false
    threads := Function.update w.threads thread (some .returned)
    answers := ⟨call, result, found, w.store⟩ :: w.answers }

def go (w : PhoneStoreRun) (thread : Nat) (written : Except String Unit) :
    UpdateStage → Option PhoneStoreRun
  | .called call =>
    if w.write then none
    else some ({ w with write := true }.goTo thread (.copying call w.store))
  | .copying call found =>
    let r := call.operation w.store.phones
    some (w.goTo thread (.saving call r.1 r.2 found))
  | .saving call phones result found =>
    some (match written with
      | .ok _ => { w with store.file := some phones }.goTo thread
          (.publishing call phones result found)
      | .error error => w.answer thread call (.error error) found)
  | .publishing call phones result found =>
    some ({ w with store.phones := phones }.answer thread call result found)
  | .returned => none

def step (w : PhoneStoreRun) : PhoneStoreEvent → Option PhoneStoreRun
  | .call thread call =>
    match w.threads thread with
    | none => some (w.goTo thread (.called call))
    | some _ => none
  | .go thread written => (w.threads thread).bind (w.go thread written)

def effects (initial : PairedPhones) (answers : List UpdateAnswer) : PairedPhones :=
  (answers.filter UpdateAnswer.succeeded).foldr (fun answer phones =>
    (answer.call.operation phones).1) initial

/-- Memory is what the successful calls make of it, and the file agrees with it unless a call is
about to publish what it has written. A call leaves both in agreement, and one that fails leaves
them as it found them. -/
structure Consistent (initial : PairedPhones) (w : PhoneStoreRun) : Prop where
  phones : w.store.phones = effects initial w.answers
  stored : (∀ i s, w.threads i = some s → s.publishes = false) → w.store.stored = w.store.phones
  agreed : ∀ a ∈ w.answers, a.left.stored = a.left.phones
  failed : ∀ a ∈ w.answers, a.succeeded = false →
    a.left.phones = a.found.phones ∧ a.left.stored = a.found.stored

/-- What the thread that holds the lock knows of the store. -/
def Fits (store : PhoneStoreState) : UpdateStage → Prop
  | .copying _ found => found = store ∧ store.stored = store.phones
  | .saving call phones result found =>
    found = store ∧ store.stored = store.phones ∧ call.operation store.phones = (phones, result)
  | .publishing call phones result found =>
    found.phones = store.phones ∧ found.stored = store.phones ∧
      call.operation store.phones = (phones, result) ∧ store.file = some phones
  | _ => True

theorem fits_of_not_holdsWrite {store : PhoneStoreState} {s : UpdateStage}
    (h : ¬s.holdsWrite = true) : Fits store s := by
  cases s with
  | called call => trivial
  | returned => trivial
  | _ => exact absurd rfl h

structure Inv (initial : PairedPhones) (w : PhoneStoreRun) : Prop where
  phones : w.store.phones = effects initial w.answers
  locked : w.write = true ↔ Occupied w.threads fun s => s.holdsWrite = true
  one : AtMostOne w.threads fun s => s.holdsWrite = true
  fits : All w.threads (Fits w.store)
  free : w.write = false → w.store.stored = w.store.phones
  agreed : ∀ a ∈ w.answers, a.left.stored = a.left.phones
  failed : ∀ a ∈ w.answers, a.succeeded = false →
    a.left.phones = a.found.phones ∧ a.left.stored = a.found.stored

variable {initial : PairedPhones} {w w' : PhoneStoreRun} {thread : Nat} {call : PhoneStoreCall}
  {s s' : UpdateStage} {store : PhoneStoreState}

theorem inv_start (file : Option PairedPhones) :
    Inv (start file).store.phones (start file) where
  phones := rfl
  locked := ⟨fun h => absurd h Bool.false_ne_true, fun h => absurd h not_occupied_empty⟩
  one := atMostOne_empty
  fits := all_empty
  free := fun _ => rfl
  agreed := fun a h => by cases h
  failed := fun a h => by cases h

theorem Inv.consistent (h : Inv initial w) : Consistent initial w := by
  refine ⟨h.phones, fun hnone => ?_, h.agreed, h.failed⟩
  cases hwrite : w.write with
  | false => exact h.free hwrite
  | true =>
    obtain ⟨i, s, hi, hs⟩ := h.locked.1 hwrite
    have hfits := h.fits i s hi
    have hquiet := hnone i s hi
    cases s with
    | copying call found => exact hfits.2
    | saving call phones result found => exact hfits.2.1
    | publishing call phones result found => cases hquiet
    | _ => cases hs

/-- The thread that holds the lock may change the store: no other thread knows anything of it. -/
theorem Inv.all_fits (h : Inv initial w) (hi : w.threads thread = some s)
    (hs : s.holdsWrite = true) (hs' : Fits store s') :
    All (Function.update w.threads thread (some s')) (Fits store) := by
  intro j t hj
  by_cases hji : j = thread
  · rw [hji, Function.update_self] at hj
    obtain rfl := Option.some.inj hj
    exact hs'
  · rw [Function.update_of_ne hji] at hj
    apply fits_of_not_holdsWrite
    intro ht
    exact hji (h.one j thread t s hj hi ht hs)

theorem Inv.goes_on (h : Inv initial w) (hi : w.threads thread = some s)
    (hs : s.holdsWrite = true) (hs' : s'.holdsWrite = true) (hphones : store.phones = w.store.phones)
    (hfits : Fits store s') : Inv initial ({ w with store := store }.goTo thread s') where
  phones := hphones.trans h.phones
  locked := h.locked.trans (occupied_update_iff hi (by simp [hs, hs'])).symm
  one := h.one.update hi fun _ => hs
  fits := h.all_fits hi hs hfits
  free := fun hfree => by
    have hwrite : w.write = true := h.locked.2 ⟨thread, s, hi, hs⟩
    cases hwrite.symm.trans hfree
  agreed := h.agreed
  failed := h.failed

theorem Inv.returns (h : Inv initial w) (hi : w.threads thread = some s)
    (hs : s.holdsWrite = true) {result : Except String Unit} {found : PhoneStoreState}
    (hagreed : store.stored = store.phones)
    (hok : result.toBool = true → store.phones = (call.operation w.store.phones).1)
    (hfailed : result.toBool = false → store.phones = w.store.phones ∧
      store.phones = found.phones ∧ store.stored = found.stored) :
    Inv initial ({ w with store := store }.answer thread call result found) where
  phones := by
    show store.phones = effects initial (_ :: w.answers)
    unfold effects
    cases hresult : result.toBool with
    | true =>
      rw [List.filter_cons_of_pos (by exact hresult), List.foldr_cons, hok hresult, h.phones]
      rfl
    | false =>
      rw [List.filter_cons_of_neg (by simp [UpdateAnswer.succeeded, hresult]), (hfailed hresult).1,
        h.phones]
      rfl
  locked := by
    have hreturned : ¬UpdateStage.returned.holdsWrite = true := by simp [UpdateStage.holdsWrite]
    have hnone := not_occupied_update h.one hi hs hreturned
    exact ⟨fun hwrite => absurd hwrite Bool.false_ne_true, fun hocc => absurd hocc hnone⟩
  one := h.one.update hi fun hreturned => by cases hreturned
  fits := h.all_fits hi hs trivial
  free := fun _ => hagreed
  agreed := by
    intro a ha
    rcases List.mem_cons.1 ha with rfl | hold
    · exact hagreed
    · exact h.agreed a hold
  failed := by
    intro a ha hresult
    rcases List.mem_cons.1 ha with rfl | hold
    · exact (hfailed hresult).2
    · exact h.failed a hold hresult

/-- A call that is refused leaves its copy as it was. -/
theorem operation_failed {phones : PairedPhones}
    (h : (call.operation phones).2.toBool = false) : (call.operation phones).1 = phones := by
  cases call with
  | upsert phoneId phoneName publicKeySpki now => cases h
  | remove phoneId => cases h
  | markConnected phoneId phoneName now =>
    cases hmarked : phones.markConnected phoneId phoneName now with
    | none => simp [PhoneStoreCall.operation, hmarked]
    | some marked =>
      simp only [PhoneStoreCall.operation, hmarked] at h
      cases h

theorem step_inv {e : PhoneStoreEvent} (h : Inv initial w) (hs : w.step e = some w') :
    Inv initial w' := by
  cases e with
  | call thread call =>
    rw [step] at hs
    cases hi : w.threads thread with
    | some s => simp [hi] at hs
    | none =>
      simp only [hi] at hs
      obtain rfl := Option.some.inj hs
      have hnot : ¬UpdateStage.holdsWrite (.called call) = true := by simp [UpdateStage.holdsWrite]
      exact ⟨h.phones, h.locked.trans (occupied_start_iff hi hnot).symm, h.one.start hnot,
        h.fits.update trivial, h.free, h.agreed, h.failed⟩
  | go thread written =>
    obtain ⟨s, hi, hgo⟩ := Option.bind_eq_some_iff.1 hs
    have hfits := h.fits thread s hi
    cases s with
    | returned => cases hgo
    | called call =>
      rw [go] at hgo
      split_ifs at hgo with hwrite
      obtain rfl := Option.some.inj hgo
      have hfree : w.write = false := by simpa using hwrite
      have hnone : ¬Occupied w.threads fun s => s.holdsWrite = true := fun hocc =>
        hwrite (h.locked.2 hocc)
      exact ⟨h.phones, ⟨fun _ => Occupied.update_of rfl, fun _ => rfl⟩,
        atMostOne_update_of_free hnone, h.fits.update ⟨rfl, h.free hfree⟩,
        fun hlocked => absurd hlocked.symm Bool.false_ne_true, h.agreed, h.failed⟩
    | copying call found =>
      obtain rfl := Option.some.inj hgo
      exact h.goes_on hi rfl rfl rfl ⟨hfits.1, hfits.2, rfl⟩
    | saving call phones result found =>
      obtain ⟨hfound, hstored, hoperation⟩ := hfits
      obtain rfl := Option.some.inj hgo
      cases written with
      | ok _ =>
        let saved : PhoneStoreState := { w.store with file := some phones }
        have hphones : saved.phones = w.store.phones := rfl
        refine h.goes_on hi rfl rfl hphones ?_
        refine ⟨by rw [hfound], by rw [hfound, hstored], hoperation, rfl⟩
      | error error =>
        refine h.returns hi rfl hstored (fun hok => by cases hok) fun _ => ?_
        rw [hfound]
        exact ⟨rfl, rfl, rfl⟩
    | publishing call phones result found =>
      obtain ⟨hphones, hstored, hoperation, hfile⟩ := hfits
      obtain rfl := Option.some.inj hgo
      have hresult : (call.operation w.store.phones).2 = result := by rw [hoperation]
      have hcopy : (call.operation w.store.phones).1 = phones := by rw [hoperation]
      have hwritten : PhoneStoreState.stored { w.store with phones := phones } = phones := by
        unfold PhoneStoreState.stored
        rw [hfile]
        rfl
      refine h.returns hi rfl hwritten
        (fun _ => hcopy.symm) fun hfailed => ?_
      have hsame : phones = w.store.phones := by
        rw [← hcopy]
        exact operation_failed (by rw [hresult]; exact hfailed)
      exact ⟨hsame, hsame.trans hphones.symm, hwritten.trans (hsame.trans hstored.symm)⟩

/-- Whatever the threads do and whichever writes fail, memory and file hold what the successful
calls have made of the phones that were there at the start. -/
theorem phone_store_consistent (file : Option PairedPhones) (es : List PhoneStoreEvent) :
    Machine.Always step (Consistent (start file).store.phones) (start file) es :=
  Machine.always_of_invariant (Inv (start file).store.phones) es (inv_start file)
    (fun _ h => h.consistent) fun _ _ _ h hs => step_inv h hs

/-- A phone that is not paired is marked as connected while there is no file yet: the call
fails, and yet it leaves a file behind. -/
theorem failed_call_creates_file :
    ∃ w, Machine.run step (start none) [.call 0 (.markConnected "phone" "name" 1),
        .go 0 (.ok ()), .go 0 (.ok ()), .go 0 (.ok ()), .go 0 (.ok ())] = some w ∧
      ∃ a ∈ w.answers, a.succeeded = false ∧ a.found.file.isSome = false ∧
        a.left.file.isSome = true := by
  have hrun : ((Machine.run step (start none) [.call 0 (.markConnected "phone" "name" 1),
      .go 0 (.ok ()), .go 0 (.ok ()), .go 0 (.ok ()), .go 0 (.ok ())]).any fun w =>
        w.answers.any fun a =>
          !a.succeeded && (!a.found.file.isSome && a.left.file.isSome)) = true := rfl
  obtain ⟨w, hw, hany⟩ := (Option.any_eq_true _ _).1 hrun
  obtain ⟨a, ha, hcreated⟩ := List.any_eq_true.1 hany
  simp only [Bool.and_eq_true, Bool.not_eq_true'] at hcreated
  exact ⟨w, hw, a, ha, hcreated⟩

end PhoneStoreRun
end FlowType
