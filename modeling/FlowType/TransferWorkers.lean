import Mathlib.Data.List.Perm.Basic
import FlowType.Runs

/-! `runTransferWorkers`: a pool of threads that works on a list of items, and the caller that waits
for it. The executor and its completion service are Java's: a thread takes the next item that no
thread has taken, and an item is complete when its action has come back. -/
namespace FlowType

inductive WorkerError (ε : Type)
  | action (error : ε)
  | interrupted
  deriving DecidableEq, Repr

/-- Where the caller is. It holds the result from the end of the `try` on. -/
inductive WorkerCaller (ε : Type)
  | taking
  | failing (error : WorkerError ε)
  | canceling (error : WorkerError ε) (next : Nat)
  | stopping (result : Option (WorkerError ε))
  | awaiting (result : Option (WorkerError ε))
  | returned (result : Option (WorkerError ε))
  deriving DecidableEq, Repr

/-- Items are counted. `ended` has the completed actions in the order of their completion, with
their exceptions, and the caller has looked at `taken` of them; `skipped` are the items that are
never worked on. -/
structure TransferWorkers (ε : Type) where
  items : Nat
  threads : Nat
  queue : List Nat
  running : List Nat := []
  ended : List (Nat × Option ε) := []
  skipped : List Nat := []
  cancelled : List Nat := []
  taken : Nat := 0
  caller : WorkerCaller ε := .taking
  shutdown : Bool := false
  ioCanceled : Nat := 0
  interrupted : Bool := false
  deriving DecidableEq, Repr

namespace TransferWorkers
open Machine

variable {ε : Type}

/-- All the items are submitted; without any the call returns at once. -/
def start (ε : Type) (items count : Nat) : TransferWorkers ε where
  items := items
  threads := min (max count 1) 2
  queue := List.range items
  caller := if items = 0 then .returned none else .taking

inductive Event (ε : Type)
  | start
  | finish (index : Nat) (error : Option ε)
  | take
  | interrupt
  | cancelIo
  | cancelNext
  | shutdownNow
  | awaitTermination
  deriving DecidableEq, Repr

/-- A thread takes an item; the action of one that was cancelled is not called. -/
def startNext (s : TransferWorkers ε) : Option (TransferWorkers ε) :=
  match s.queue with
  | [] => none
  | item :: queue =>
    if s.threads ≤ s.running.length then none
    else if item ∈ s.cancelled then some { s with queue := queue, skipped := item :: s.skipped }
    else some { s with queue := queue, running := item :: s.running }

def finish (s : TransferWorkers ε) (index : Nat) (error : Option ε) : Option (TransferWorkers ε) :=
  (s.running[index]?).map fun item =>
    { s with running := s.running.eraseIdx index, ended := s.ended ++ [(item, error)] }

/-- `completions.take().get()`. -/
def take (s : TransferWorkers ε) : Option (TransferWorkers ε) :=
  match s.caller, s.ended[s.taken]? with
  | .taking, some (_, none) =>
    some { s with
      taken := s.taken + 1
      caller := if s.taken + 1 = s.items then .stopping none else .taking }
  | .taking, some (_, some error) => some { s with caller := .failing (.action error) }
  | _, _ => none

/-- The thread of the caller is interrupted. While it waits for the end it only remembers that. -/
def interrupt (s : TransferWorkers ε) : Option (TransferWorkers ε) :=
  match s.caller with
  | .taking => some { s with caller := .failing .interrupted, interrupted := true }
  | .returned _ => none
  | _ => some { s with interrupted := true }

def cancelIo (s : TransferWorkers ε) : Option (TransferWorkers ε) :=
  match s.caller with
  | .failing error =>
    some { s with caller := .canceling error 0, ioCanceled := s.ioCanceled + 1 }
  | _ => none

/-- `futures.forEach { it.cancel(true) }`, one future after the other. -/
def cancelNext (s : TransferWorkers ε) : Option (TransferWorkers ε) :=
  match s.caller with
  | .canceling error next =>
    if next < s.items then
      some { s with
        caller := .canceling error (next + 1)
        cancelled := if next ∈ s.ended.map (·.1) then s.cancelled else next :: s.cancelled }
    else some { s with caller := .stopping (some error) }
  | _ => none

def shutdownNow (s : TransferWorkers ε) : Option (TransferWorkers ε) :=
  match s.caller with
  | .stopping result =>
    some { s with
      caller := .awaiting result, shutdown := true, queue := [], skipped := s.queue ++ s.skipped }
  | _ => none

def awaitTermination (s : TransferWorkers ε) : Option (TransferWorkers ε) :=
  match s.caller with
  | .awaiting result =>
    if s.shutdown = true ∧ s.running = [] then some { s with caller := .returned result } else none
  | _ => none

def step (s : TransferWorkers ε) : Event ε → Option (TransferWorkers ε)
  | .start => s.startNext
  | .finish index error => s.finish index error
  | .take => s.take
  | .interrupt => s.interrupt
  | .cancelIo => s.cancelIo
  | .cancelNext => s.cancelNext
  | .shutdownNow => s.shutdownNow
  | .awaitTermination => s.awaitTermination

def Moves : Event ε → Prop
  | .interrupt => False
  | _ => True

def Returned (s : TransferWorkers ε) : Prop := ∃ result, s.caller = .returned result

def Seen (s : TransferWorkers ε) : WorkerError ε → Prop
  | .action error => ∃ item, (item, some error) ∈ s.ended
  | .interrupted => s.interrupted = true

/-- Without an error every action has come back without one, and nothing was cancelled. With an
error it is one that was seen. -/
def Ended (s : TransferWorkers ε) : Option (WorkerError ε) → Prop
  | none => s.ended.length = s.items ∧ (∀ e ∈ s.ended, e.2 = none) ∧ s.ioCanceled = 0
  | some error => s.Seen error ∧ s.ioCanceled = 1

/-- Every item is worked on at most once and not more than the threads allow at a time; once the
call has returned, nothing runs and nothing will. -/
structure Sound (s : TransferWorkers ε) : Prop where
  once : (s.running ++ s.ended.map (·.1)).Nodup
  width : s.running.length ≤ min s.threads 2
  stopped : s.Returned → s.running = [] ∧ s.queue = []
  result : ∀ result, s.caller = .returned result → s.Ended result

def At (s : TransferWorkers ε) : WorkerCaller ε → Prop
  | .taking => s.taken < s.items ∧ s.skipped = [] ∧ s.ioCanceled = 0 ∧
      (∀ e ∈ s.ended.take s.taken, e.2 = none)
  | .failing error => s.Seen error ∧ s.ioCanceled = 0
  | .canceling error next => s.Seen error ∧ s.ioCanceled = 1 ∧ next ≤ s.items
  | .stopping result => s.Ended result
  | .awaiting result => s.Ended result ∧ s.shutdown = true ∧ s.queue = []
  | .returned result => s.Ended result ∧ s.running = [] ∧ s.queue = []

structure Inv (s : TransferWorkers ε) : Prop where
  parts : (s.queue ++ s.running ++ s.ended.map (·.1) ++ s.skipped).Perm (List.range s.items)
  width : s.running.length ≤ s.threads
  threads : 1 ≤ s.threads ∧ s.threads ≤ 2
  uncancelled : s.caller = .taking → s.cancelled = []
  taken : s.taken ≤ s.ended.length
  caller : s.At s.caller

def left (s : TransferWorkers ε) : Nat :=
  2 * s.queue.length + s.running.length + match s.caller with
    | .taking => s.items - s.taken + s.items + 5
    | .failing _ => s.items + 4
    | .canceling _ next => s.items - next + 3
    | .stopping _ => 2
    | .awaiting _ => 1
    | .returned _ => 0

variable {s t : TransferWorkers ε}

theorem Inv.sound (h : s.Inv) : s.Sound := by
  have hnodup : (s.queue ++ s.running ++ s.ended.map (·.1) ++ s.skipped).Nodup :=
    h.parts.nodup_iff.mpr List.nodup_range
  constructor
  · refine List.Nodup.sublist ?_ hnodup
    rw [List.append_assoc s.queue, List.append_assoc]
    exact (List.sublist_append_left _ _).trans (List.sublist_append_right _ _)
  · have hwidth := h.width
    have hthreads := h.threads.2
    omega
  · rintro ⟨result, hcaller⟩
    have hat := h.caller
    rw [hcaller] at hat
    exact hat.2
  · intro result hcaller
    have hat := h.caller
    rw [hcaller] at hat
    exact hat.1

theorem start_inv (items count : Nat) : (start ε items count).Inv := by
  constructor
  · simp [start]
  · simp [start]
  · simp only [start]
    omega
  · intro _
    rfl
  · exact Nat.zero_le _
  · by_cases hitems : items = 0
    · simp [start, hitems, At, Ended]
    · have hpos : 0 < items := Nat.pos_of_ne_zero hitems
      simp [start, hitems, At, hpos]

theorem Inv.length (h : s.Inv) :
    s.queue.length + s.running.length + s.ended.length + s.skipped.length = s.items := by
  have hlength := h.parts.length_eq
  simpa only [List.length_append, List.length_map, List.length_range] using hlength

theorem startNext_inv (h : s.Inv) (hs : s.startNext = some t) : t.Inv := by
  unfold startNext at hs
  split at hs
  · cases hs
  · next item queue hqueue =>
    have hparts := h.parts
    have hat := h.caller
    rw [hqueue] at hparts
    -- where the queue is empty already there is nothing to start
    have hcaller : ∀ {u : TransferWorkers ε}, u.items = s.items → u.ended = s.ended →
        u.taken = s.taken → u.ioCanceled = s.ioCanceled → u.interrupted = s.interrupted →
        (s.caller = .taking → u.skipped = []) → u.At s.caller := by
      intro u hitems hended htaken hio hinterrupted hskipped
      cases hc : s.caller with
      | taking =>
        rw [hc] at hat
        simp only [At, hitems, hended, htaken, hio]
        exact ⟨hat.1, hskipped hc, hat.2.2⟩
      | failing error =>
        rw [hc] at hat
        cases error <;> simpa only [At, Seen, hended, hio, hinterrupted] using hat
      | canceling error next =>
        rw [hc] at hat
        cases error <;> simpa only [At, Seen, hended, hio, hinterrupted, hitems] using hat
      | stopping result =>
        rw [hc] at hat
        cases result with
        | none => simpa only [At, Ended, hended, hio, hitems] using hat
        | some error =>
          cases error <;> simpa only [At, Ended, Seen, hended, hio, hinterrupted] using hat
      -- from here on the queue is empty
      | awaiting result =>
        rw [hc] at hat
        cases hqueue.symm.trans hat.2.2
      | returned result =>
        rw [hc] at hat
        cases hqueue.symm.trans hat.2.2
    split at hs
    · cases hs
    · next hfree =>
      split at hs
      · next hcancelled =>
        cases hs
        have hmove : (queue ++ s.running ++ s.ended.map (·.1) ++ item :: s.skipped).Perm
            (item :: queue ++ s.running ++ s.ended.map (·.1) ++ s.skipped) := by
          simpa only [List.cons_append] using
            (List.perm_middle : (queue ++ s.running ++ s.ended.map (·.1) ++ item :: s.skipped).Perm
              (item :: (queue ++ s.running ++ s.ended.map (·.1) ++ s.skipped)))
        refine ⟨hmove.trans hparts, h.width, h.threads, h.uncancelled, h.taken,
          hcaller rfl rfl rfl rfl rfl fun htaking => ?_⟩
        rw [h.uncancelled htaking] at hcancelled
        cases hcancelled
      · cases hs
        have hmove : (queue ++ item :: s.running).Perm (item :: queue ++ s.running) :=
          List.perm_middle
        refine ⟨((hmove.append_right _).append_right _).trans hparts, ?_, h.threads, h.uncancelled,
          h.taken, hcaller rfl rfl rfl rfl rfl fun htaking => ?_⟩
        · simp only [List.length_cons]
          omega
        · rw [htaking] at hat
          exact hat.2.1

theorem Seen.grow {error : WorkerError ε} (h : s.Seen error) (hended : s.ended ⊆ t.ended)
    (hinterrupted : s.interrupted = true → t.interrupted = true) : t.Seen error := by
  cases error with
  | action error =>
    obtain ⟨item, hitem⟩ := h
    exact ⟨item, hended hitem⟩
  | interrupted => exact hinterrupted h

theorem Ended.grow {result : Option (WorkerError ε)} (h : s.Ended result)
    (hended : s.ended ⊆ t.ended) (hinterrupted : s.interrupted = true → t.interrupted = true)
    (hio : t.ioCanceled = s.ioCanceled)
    (hnone : result = none → t.ended = s.ended ∧ t.items = s.items) : t.Ended result := by
  cases result with
  | none =>
    obtain ⟨heq, hitems⟩ := hnone rfl
    simp only [Ended, heq, hitems, hio]
    exact h
  | some error => exact ⟨h.1.grow hended hinterrupted, hio.trans h.2⟩

theorem finish_inv {index : Nat} {error : Option ε} (h : s.Inv)
    (hs : s.finish index error = some t) : t.Inv := by
  obtain ⟨item, hitem, rfl⟩ := Option.map_eq_some_iff.mp hs
  obtain ⟨hindex, hget⟩ := List.getElem?_eq_some_iff.mp hitem
  have herase := List.getElem_cons_eraseIdx_perm hindex
  rw [hget] at herase
  have hlength := h.length
  have hat := h.caller
  have hpos : 0 < s.running.length := by omega
  -- while an action runs, not all of them have come back
  have hgrow : ∀ result, s.Ended result → Ended { s with
      running := s.running.eraseIdx index, ended := s.ended ++ [(item, error)] } result := by
    intro result hresult
    refine Ended.grow (t := { s with
      running := s.running.eraseIdx index, ended := s.ended ++ [(item, error)] }) hresult
      (List.subset_append_left _ _) (fun h => h) rfl ?_
    intro hnone
    rw [hnone] at hresult
    have hall := hresult.1
    omega
  constructor
  · have hmove : (s.queue ++ s.running.eraseIdx index ++ (s.ended.map (·.1) ++ [item])).Perm
        (s.queue ++ s.running ++ s.ended.map (·.1)) := by
      have hlast : (s.ended.map (·.1) ++ [item]).Perm (item :: s.ended.map (·.1)) :=
        List.perm_append_singleton _ _
      have hfront : (s.running.eraseIdx index ++ item :: s.ended.map (·.1)).Perm
          (s.running ++ s.ended.map (·.1)) :=
        List.perm_middle.trans (herase.append_right _)
      rw [List.append_assoc, List.append_assoc]
      exact ((hlast.append_left _).trans hfront).append_left _
    have hparts := (hmove.append_right s.skipped).trans h.parts
    simpa only [List.map_append, List.map_cons, List.map_nil] using hparts
  · have hwidth := h.width
    simp only [List.length_eraseIdx_of_lt hindex]
    omega
  · exact h.threads
  · exact h.uncancelled
  · have htaken := h.taken
    simp only [List.length_append, List.length_singleton]
    omega
  · cases hc : s.caller with
    | taking =>
      rw [hc] at hat
      refine ⟨hat.1, hat.2.1, hat.2.2.1, ?_⟩
      -- what was taken had ended before
      simp only [List.take_append_of_le_length h.taken]
      exact hat.2.2.2
    | failing error =>
      rw [hc] at hat
      exact ⟨hat.1.grow (List.subset_append_left _ _) fun h => h, hat.2⟩
    | canceling error next =>
      rw [hc] at hat
      exact ⟨hat.1.grow (List.subset_append_left _ _) fun h => h, hat.2⟩
    | stopping result =>
      rw [hc] at hat
      exact hgrow result hat
    | awaiting result =>
      rw [hc] at hat
      exact ⟨hgrow result hat.1, hat.2⟩
    | returned result =>
      rw [hc] at hat
      rw [hat.2.1] at hpos
      cases hpos

theorem take_inv (h : s.Inv) (hs : s.take = some t) : t.Inv := by
  have hat := h.caller
  unfold take at hs
  split at hs
  · next item hcaller hended =>
    rw [hcaller] at hat
    obtain ⟨hlt, hskipped, hio, hfine⟩ := hat
    obtain ⟨hindex, hget⟩ := List.getElem?_eq_some_iff.mp hended
    have hlength := h.length
    have hnext : ∀ e ∈ s.ended.take (s.taken + 1), e.2 = none := by
      intro e he
      rw [List.take_succ_eq_append_getElem hindex, hget] at he
      rcases List.mem_append.mp he with hin | hin
      · exact hfine e hin
      · rw [List.mem_singleton.mp hin]
    cases hs
    refine ⟨h.parts, h.width, h.threads, fun _ => h.uncancelled hcaller, hindex, ?_⟩
    -- the last result: every action has come back, and each without an error
    by_cases hall : s.taken + 1 = s.items
    · simp only [if_pos hall, At, Ended]
      have hlast : s.ended.length = s.items := by omega
      refine ⟨hlast, ?_, hio⟩
      rw [List.take_of_length_le (by omega)] at hnext
      exact hnext
    · simp only [if_neg hall, At]
      exact ⟨by omega, hskipped, hio, hnext⟩
  · next item error hcaller hended =>
    rw [hcaller] at hat
    cases hs
    refine ⟨h.parts, h.width, h.threads, (fun htaking => by cases htaking), h.taken, ?_⟩
    exact ⟨⟨item, List.mem_of_getElem? hended⟩, hat.2.2.1⟩
  · cases hs

theorem interrupt_inv (h : s.Inv) (hs : s.interrupt = some t) : t.Inv := by
  have hat := h.caller
  unfold interrupt at hs
  split at hs
  · next hcaller =>
    rw [hcaller] at hat
    cases hs
    exact ⟨h.parts, h.width, h.threads, (fun htaking => by cases htaking), h.taken, rfl, hat.2.2.1⟩
  · cases hs
  · next htaking hreturned =>
    cases hs
    refine ⟨h.parts, h.width, h.threads, h.uncancelled, h.taken, ?_⟩
    -- anywhere else an interruption is only remembered
    have hseen : ∀ error, s.Seen error → Seen { s with interrupted := true } error :=
      fun _ hseen => hseen.grow (List.Subset.refl _) fun _ => rfl
    have hended : ∀ result, s.Ended result → Ended { s with interrupted := true } result :=
      fun _ hended => hended.grow (List.Subset.refl _) (fun _ => rfl) rfl fun _ => ⟨rfl, rfl⟩
    cases hc : s.caller with
    | taking => exact absurd hc htaking
    | failing error =>
      rw [hc] at hat
      exact ⟨hseen error hat.1, hat.2⟩
    | canceling error next =>
      rw [hc] at hat
      exact ⟨hseen error hat.1, hat.2⟩
    | stopping result =>
      rw [hc] at hat
      exact hended result hat
    | awaiting result =>
      rw [hc] at hat
      exact ⟨hended result hat.1, hat.2⟩
    | returned result => exact absurd hc (hreturned result)

theorem cancelNext_inv (h : s.Inv) (hs : s.cancelNext = some t) : t.Inv := by
  have hat := h.caller
  unfold cancelNext at hs
  split at hs
  · next error next hcaller =>
    rw [hcaller] at hat
    split at hs
    · next hlt =>
      cases hs
      refine ⟨h.parts, h.width, h.threads, (fun htaking => by cases htaking), h.taken, ?_⟩
      exact ⟨hat.1.grow (List.Subset.refl _) fun h => h, hat.2.1, hlt⟩
    · cases hs
      refine ⟨h.parts, h.width, h.threads, (fun htaking => by cases htaking), h.taken, ?_⟩
      exact ⟨hat.1.grow (List.Subset.refl _) fun h => h, hat.2.1⟩
  · cases hs

theorem shutdownNow_inv (h : s.Inv) (hs : s.shutdownNow = some t) : t.Inv := by
  have hat := h.caller
  unfold shutdownNow at hs
  split at hs
  · next result hcaller =>
    rw [hcaller] at hat
    cases hs
    have hparts : (s.running ++ s.ended.map (·.1) ++ (s.queue ++ s.skipped)).Perm
        (s.queue ++ s.running ++ s.ended.map (·.1) ++ s.skipped) := by
      rw [List.append_assoc s.queue, ← List.append_assoc _ s.queue]
      exact List.perm_append_comm.append_right _
    refine ⟨?_, h.width, h.threads, (fun htaking => by cases htaking), h.taken, ?_⟩
    · rw [List.nil_append]
      exact hparts.trans h.parts
    · refine ⟨?_, rfl, rfl⟩
      exact hat.grow (List.Subset.refl _) (fun h => h) rfl fun _ => ⟨rfl, rfl⟩
  · cases hs

theorem step_inv {e : Event ε} (h : s.Inv) (hs : s.step e = some t) : t.Inv := by
  have hat := h.caller
  cases e with
  | start => exact startNext_inv h hs
  | finish index error => exact finish_inv h hs
  | take => exact take_inv h hs
  | interrupt => exact interrupt_inv h hs
  | cancelIo =>
    simp only [step, cancelIo] at hs
    split at hs
    · next error hcaller =>
      rw [hcaller] at hat
      cases hs
      refine ⟨h.parts, h.width, h.threads, (fun htaking => by cases htaking), h.taken, ?_⟩
      refine ⟨hat.1.grow (List.Subset.refl _) fun h => h, ?_, Nat.zero_le _⟩
      simp [hat.2]
    · cases hs
  | cancelNext => exact cancelNext_inv h hs
  | shutdownNow => exact shutdownNow_inv h hs
  | awaitTermination =>
    simp only [step, awaitTermination] at hs
    split at hs
    · next result hcaller =>
      rw [hcaller] at hat
      split at hs
      · next hdone =>
        cases hs
        refine ⟨h.parts, h.width, h.threads, (fun htaking => by cases htaking), h.taken, ?_⟩
        exact ⟨hat.1.grow (List.Subset.refl _) (fun h => h) rfl fun _ => ⟨rfl, rfl⟩, hdone.2,
          hat.2.2⟩
      · cases hs
    · cases hs

theorem exists_move (h : s.Inv) (hreturned : ¬s.Returned) :
    ∃ e t, Moves e ∧ s.step e = some t := by
  have hmove : ∀ e, Moves e → (s.step e).isSome = true → ∃ e t, Moves e ∧ s.step e = some t := by
    intro e he hsome
    obtain ⟨t, ht⟩ := Option.isSome_iff_exists.mp hsome
    exact ⟨e, t, he, ht⟩
  have hat := h.caller
  have hlength := h.length
  have hfinish : 0 < s.running.length → ∃ e t, Moves e ∧ s.step e = some t := by
    intro hpos
    apply hmove (.finish 0 none) trivial
    simp only [step, finish, List.getElem?_eq_getElem hpos, Option.map_some, Option.isSome_some]
  -- an action that runs can end, and a thread that is free takes the next item
  have hrun : 0 < s.queue.length + s.running.length → ∃ e t, Moves e ∧ s.step e = some t := by
    intro hpos
    by_cases hrunning : 0 < s.running.length
    · exact hfinish hrunning
    · have hqueue : 0 < s.queue.length := by omega
      obtain ⟨item, queue, hcons⟩ := List.exists_cons_of_length_pos hqueue
      have hthreads := h.threads.1
      have hfree : ¬s.threads ≤ s.running.length := by omega
      apply hmove .start trivial
      by_cases hcancelled : item ∈ s.cancelled
      · simp only [step, startNext, hcons, hfree, hcancelled, if_true, if_false,
          Option.isSome_some]
      · simp only [step, startNext, hcons, hfree, hcancelled, if_false, Option.isSome_some]
  cases hc : s.caller with
  | taking =>
    rw [hc] at hat
    by_cases htaken : s.taken < s.ended.length
    · have hended := List.getElem?_eq_getElem htaken
      cases hresult : s.ended[s.taken] with
      | mk item error =>
        rw [hresult] at hended
        apply hmove .take trivial
        cases error with
        | none => simp only [step, take, hc, hended, Option.isSome_some]
        | some error => simp only [step, take, hc, hended, Option.isSome_some]
    -- the result that is waited for is that of an item in the queue or in a thread
    · have hskipped : s.skipped.length = 0 := by
        rw [hat.2.1]
        rfl
      have hlt := hat.1
      exact hrun (by omega)
  | failing error =>
    apply hmove .cancelIo trivial
    simp only [step, cancelIo, hc, Option.isSome_some]
  | canceling error next =>
    apply hmove .cancelNext trivial
    by_cases hnext : next < s.items
    · simp only [step, cancelNext, hc, hnext, if_true, Option.isSome_some]
    · simp only [step, cancelNext, hc, hnext, if_false, Option.isSome_some]
  | stopping result =>
    apply hmove .shutdownNow trivial
    simp only [step, shutdownNow, hc, Option.isSome_some]
  | awaiting result =>
    rw [hc] at hat
    by_cases hrunning : s.running = []
    · apply hmove .awaitTermination trivial
      simp only [step, awaitTermination, hc, hat.2.1, hrunning, and_self, if_true,
        Option.isSome_some]
    · exact hfinish (List.length_pos_of_ne_nil hrunning)
  | returned result => exact absurd ⟨result, hc⟩ hreturned

theorem left_lt {e : Event ε} (h : s.Inv) (he : Moves e) (hs : s.step e = some t) :
    t.left < s.left := by
  have hat := h.caller
  cases e with
  -- an item in the queue counts twice, since it is started and then ends
  | start =>
    simp only [step, startNext] at hs
    split at hs
    · cases hs
    · next item queue hqueue =>
      split at hs
      · cases hs
      · split at hs <;> cases hs <;> simp only [left, hqueue, List.length_cons] <;> omega
  | finish index error =>
    obtain ⟨item, hitem, rfl⟩ := Option.map_eq_some_iff.mp hs
    obtain ⟨hindex, -⟩ := List.getElem?_eq_some_iff.mp hitem
    simp only [left, List.length_eraseIdx_of_lt hindex]
    omega
  | take =>
    simp only [step, take] at hs
    split at hs
    · next hcaller hended =>
      rw [hcaller] at hat
      have hlt := hat.1
      cases hs
      by_cases hall : s.taken + 1 = s.items
      · simp only [left, if_pos hall, hcaller]
        omega
      · simp only [left, if_neg hall, hcaller]
        omega
    · next hcaller hended =>
      cases hs
      simp only [left, hcaller]
      omega
    · cases hs
  | interrupt => exact absurd he (fun h => h)
  | cancelIo =>
    simp only [step, cancelIo] at hs
    split at hs
    · next hcaller =>
      cases hs
      simp only [left, hcaller]
      omega
    · cases hs
  | cancelNext =>
    simp only [step, cancelNext] at hs
    split at hs
    · next hcaller =>
      split at hs <;> cases hs <;> simp only [left, hcaller] <;> omega
    · cases hs
  | shutdownNow =>
    simp only [step, shutdownNow] at hs
    split at hs
    · next hcaller =>
      cases hs
      simp only [left, hcaller, List.length_nil]
      omega
    · cases hs
  | awaitTermination =>
    simp only [step, awaitTermination] at hs
    split at hs
    · next hcaller =>
      split at hs
      · cases hs
        simp only [left, hcaller]
        omega
      · cases hs
    · cases hs

/-- However the threads take turns, the call returns when the actions do. -/
theorem transferWorkers_run {items count : Nat} {es : List (Event ε)} {s : TransferWorkers ε}
    (hr : run step (start ε items count) es = some s) :
    s.Sound ∧ Eventually step Moves Returned s := by
  have hinv := run_invariant Inv es (start_inv items count) (fun _ _ _ h hs => step_inv h hs) hr
  refine ⟨hinv.sound, eventually_of_measure Inv left ?_ ?_ hinv⟩
  · exact fun _ h hreturned => exists_move h hreturned
  · exact fun _ _ _ h _ he hs => ⟨step_inv h hs, left_lt h he hs⟩

/-- The second action fails while the first one runs and a third one waits. -/
def failingWorkers : List (Event String) :=
  [.start, .start, .finish 0 (some "disk full"), .take, .cancelIo, .cancelNext, .cancelNext,
    .cancelNext, .cancelNext, .shutdownNow, .finish 0 none, .awaitTermination]

theorem transferWorkers_failing : ∃ s,
    run step (start String 3 2) failingWorkers = some s ∧
      s.caller = .returned (some (.action "disk full")) ∧ s.skipped = [2] ∧ s.Sound ∧
      Eventually step Moves Returned s := by
  have hcheck : (run step (start String 3 2) failingWorkers).isSome = true ∧
      ∀ s ∈ run step (start String 3 2) failingWorkers,
        s.caller = .returned (some (.action "disk full")) ∧ s.skipped = [2] := by
    decide +kernel
  obtain ⟨s, hr⟩ := Option.isSome_iff_exists.mp hcheck.1
  obtain ⟨hcaller, hskipped⟩ := hcheck.2 s hr
  exact ⟨s, hr, hcaller, hskipped, transferWorkers_run hr⟩

end TransferWorkers

end FlowType
