import Mathlib.Algebra.Order.Group.Nat
import Mathlib.Data.List.Count
import Mathlib.Data.List.TakeWhile
import FlowType.KeyedTable
import FlowType.Runs

/-! The limiter of the desktop app's listener: how many connections a peer may hold at a time
and how often it may connect. Times are nanoseconds of the monotonic clock; the addresses of
the peers may be of any type. -/
namespace FlowType

def MAX_CONNECTIONS_PER_IP : Nat := 8

def MAX_CONNECTION_ATTEMPTS_PER_MINUTE : Nat := 30

def MAX_PEER_LIMIT_ENTRIES : Nat := 1024

def CONNECTION_RATE_WINDOW : Nat := 60 * 1000000000

structure PeerConnectionState where
  active : Nat := 0
  attempts : List Nat := []
  lastSeen : Nat
  deriving DecidableEq, Repr

def PeerConnectionState.expire (state : PeerConnectionState) (now : Nat) : PeerConnectionState :=
  { state with
    attempts := state.attempts.dropWhile fun attempt =>
      decide (CONNECTION_RATE_WINDOW ≤ now - attempt)
    lastSeen := now }

/-- `peers` pairs an address with its state. -/
structure ConnectionLimiter (ι : Type) [DecidableEq ι] where
  peers : KeyedTable (fun p : ι × PeerConnectionState => p.1) := .empty

namespace ConnectionLimiter

variable {ι : Type} [DecidableEq ι]

def get (s : ConnectionLimiter ι) (peer : ι) : Option PeerConnectionState :=
  (s.peers.get? peer).map (·.2)

def state (s : ConnectionLimiter ι) (peer : ι) (now : Nat) : PeerConnectionState :=
  (s.get peer).getD { lastSeen := now }

def set (s : ConnectionLimiter ι) (peer : ι) (state : PeerConnectionState) : ConnectionLimiter ι :=
  ⟨s.peers.insert (peer, state)⟩

def retain (s : ConnectionLimiter ι) (now : Nat) : ConnectionLimiter ι :=
  ⟨s.peers.filter fun p =>
    decide (0 < p.2.active ∨ now - p.2.lastSeen < CONNECTION_RATE_WINDOW)⟩

/-- A full table lets go of the peers that hold nothing and were not seen for a window. -/
def makeRoom (s : ConnectionLimiter ι) (now : Nat) : ConnectionLimiter ι :=
  if MAX_PEER_LIMIT_ENTRIES ≤ s.peers.rows.length then s.retain now else s

def tryAcquire (s : ConnectionLimiter ι) (peer : ι) (now : Nat) : ConnectionLimiter ι × Bool :=
  let s := s.makeRoom now
  if MAX_PEER_LIMIT_ENTRIES ≤ s.peers.rows.length ∧ (s.get peer).isNone = true then (s, false)
  else
    let state := (s.state peer now).expire now
    if MAX_CONNECTIONS_PER_IP ≤ state.active ∨
        MAX_CONNECTION_ATTEMPTS_PER_MINUTE ≤ state.attempts.length then (s.set peer state, false)
    else
      (s.set peer { state with
        active := state.active + 1, attempts := state.attempts ++ [now] }, true)

/-- What `PeerConnectionLease` does when it is dropped. -/
def drop (s : ConnectionLimiter ι) (peer : ι) : ConnectionLimiter ι :=
  match s.get peer with
  | none => s
  | some state => s.set peer { state with active := state.active - 1 }

def active (s : ConnectionLimiter ι) (peer : ι) : Nat := ((s.get peer).map (·.active)).getD 0

variable {s : ConnectionLimiter ι} {peer other : ι} {now : Nat} {state : PeerConnectionState}

theorem get_set : (s.set peer state).get other =
    if other = peer then some state else s.get other := by
  rw [get, set, KeyedTable.get?_insert]
  split_ifs <;> rfl

theorem state_set : (s.set peer state).state other now =
    if other = peer then state else s.state other now := by
  rw [ConnectionLimiter.state, get_set]
  split_ifs <;> rfl

theorem get_retain : (s.retain now).get peer = (s.get peer).filter fun state =>
    decide (0 < state.active ∨ now - state.lastSeen < CONNECTION_RATE_WINDOW) := by
  rw [get, retain, KeyedTable.get?_filter, get, Option.filter_map]
  rfl

theorem active_eq (s : ConnectionLimiter ι) (peer : ι) (now : Nat) :
    s.active peer = (s.state peer now).active := by
  unfold active ConnectionLimiter.state
  cases s.get peer <;> rfl

theorem length_set_le : (s.set peer state).peers.rows.length ≤ s.peers.rows.length + 1 :=
  s.peers.length_insert_le _

theorem length_set_of_get (h : (s.get peer).isSome = true) :
    (s.set peer state).peers.rows.length ≤ s.peers.rows.length :=
  KeyedTable.length_insert_of_get? (by simpa [get] using h)

theorem length_makeRoom_le : (s.makeRoom now).peers.rows.length ≤ s.peers.rows.length := by
  unfold makeRoom
  split_ifs
  · exact List.length_filter_le _ _
  · exact le_rfl

/-- A call is refused for want of room, or the attempts of the peer decide. -/
theorem tryAcquire_cases (s : ConnectionLimiter ι) (peer : ι) (now : Nat) :
    s.tryAcquire peer now = (s.makeRoom now, false) ∨
    ((s.makeRoom now).peers.rows.length < MAX_PEER_LIMIT_ENTRIES ∨
      ((s.makeRoom now).get peer).isSome = true) ∧ ∃ state,
      state = ((s.makeRoom now).state peer now).expire now ∧
      (s.tryAcquire peer now = ((s.makeRoom now).set peer state, false) ∨
        state.active < MAX_CONNECTIONS_PER_IP ∧
        state.attempts.length < MAX_CONNECTION_ATTEMPTS_PER_MINUTE ∧
        s.tryAcquire peer now = ((s.makeRoom now).set peer { state with
          active := state.active + 1, attempts := state.attempts ++ [now] }, true)) := by
  by_cases hfull : MAX_PEER_LIMIT_ENTRIES ≤ (s.makeRoom now).peers.rows.length ∧
      ((s.makeRoom now).get peer).isNone = true
  · exact .inl (if_pos hfull)
  · have hroom := not_and_or.1 hfull
    rw [Nat.not_le, Bool.not_eq_true, Option.isNone_eq_false_iff] at hroom
    refine .inr ⟨hroom, _, rfl, ?_⟩
    by_cases hlimit : MAX_CONNECTIONS_PER_IP ≤ (((s.makeRoom now).state peer now).expire now).active ∨
        MAX_CONNECTION_ATTEMPTS_PER_MINUTE ≤
          (((s.makeRoom now).state peer now).expire now).attempts.length
    · exact .inl ((if_neg hfull).trans (if_pos hlimit))
    · refine .inr ⟨?_, ?_, (if_neg hfull).trans (if_neg hlimit)⟩
      · exact Nat.not_le.1 fun hactive => hlimit (.inl hactive)
      · exact Nat.not_le.1 fun hattempts => hlimit (.inr hattempts)

theorem length_set_room (hroom : s.peers.rows.length < MAX_PEER_LIMIT_ENTRIES ∨
    (s.get peer).isSome = true) (hsmall : s.peers.rows.length ≤ MAX_PEER_LIMIT_ENTRIES) :
    (s.set peer state).peers.rows.length ≤ MAX_PEER_LIMIT_ENTRIES := by
  rcases hroom with hless | hknown
  · have hle : (s.set peer state).peers.rows.length ≤ s.peers.rows.length + 1 := length_set_le
    omega
  · exact (length_set_of_get hknown).trans hsmall

end ConnectionLimiter

/-- A run of the limiter remembers the leases that live and the acquisitions that succeeded,
the last one first. -/
structure LimiterRun (ι : Type) [DecidableEq ι] where
  limiter : ConnectionLimiter ι := {}
  clock : Nat := 0
  leases : List ι := []
  acquired : List (ι × Nat) := []

inductive LimiterEvent (ι : Type)
  | tryAcquire (peer : ι) (now : Nat)
  | drop (peer : ι)
  deriving DecidableEq, Repr

namespace LimiterRun

variable {ι : Type} [DecidableEq ι]

/-- The clock does not go back, and only a lease that lives is dropped. -/
def step (w : LimiterRun ι) : LimiterEvent ι → Option (LimiterRun ι)
  | .tryAcquire peer now =>
    if now < w.clock then none
    else
      let r := w.limiter.tryAcquire peer now
      some (if r.2 then
        { limiter := r.1
          clock := now
          leases := peer :: w.leases
          acquired := (peer, now) :: w.acquired }
      else { w with limiter := r.1, clock := now })
  | .drop peer =>
    if peer ∈ w.leases then
      some { w with limiter := w.limiter.drop peer, leases := w.leases.erase peer }
    else none

def times (w : LimiterRun ι) (peer : ι) : List Nat :=
  (w.acquired.filter fun a => decide (a.1 = peer)).map (·.2)

def inWindow (start : Nat) (times : List Nat) : Nat :=
  (times.filter fun t => decide (start ≤ t ∧ t < start + CONNECTION_RATE_WINDOW)).length

/-- What the limiter is for. -/
structure Limited (w : LimiterRun ι) : Prop where
  counted : ∀ peer, w.limiter.active peer = w.leases.count peer
  few : ∀ peer, w.limiter.active peer ≤ MAX_CONNECTIONS_PER_IP
  rare : ∀ peer start, inWindow start (w.times peer) ≤ MAX_CONNECTION_ATTEMPTS_PER_MINUTE
  small : w.limiter.peers.rows.length ≤ MAX_PEER_LIMIT_ENTRIES
  kept : ∀ peer ∈ w.leases, (w.limiter.get peer).isSome = true

/-- What is remembered of a peer that holds `held` leases and got connections at `times`: an
acquisition that was forgotten is a window old. -/
structure Remembers (clock held : Nat) (times : List Nat) (state : PeerConnectionState) :
    Prop where
  active : state.active = held
  seen : state.lastSeen ≤ clock
  attempts_le : ∀ t ∈ state.attempts, t ≤ state.lastSeen
  forgotten : ∃ old, times = state.attempts.reverse ++ old ∧
    ∀ t ∈ old, CONNECTION_RATE_WINDOW ≤ clock - t

namespace Remembers

variable {clock now held : Nat} {times : List Nat} {state : PeerConnectionState}

theorem later (h : Remembers clock held times state) (hnow : clock ≤ now) :
    Remembers now held times state := by
  obtain ⟨old, htimes, hold⟩ := h.forgotten
  refine ⟨h.active, h.seen.trans hnow, h.attempts_le, old, htimes, ?_⟩
  intro t ht
  have hage := hold t ht
  omega

/-- A peer may be forgotten when it holds nothing and was not seen for a window. -/
theorem forget (h : Remembers now held times state)
    (hidle : ¬(0 < state.active ∨ now - state.lastSeen < CONNECTION_RATE_WINDOW)) :
    Remembers now held times { lastSeen := now } := by
  obtain ⟨old, htimes, hold⟩ := h.forgotten
  refine ⟨?_, le_rfl, by simp, times, by simp, ?_⟩
  · have hactive := h.active
    show 0 = held
    omega
  · intro t ht
    rw [htimes, List.mem_append, List.mem_reverse] at ht
    rcases ht with hattempt | hold'
    · have hle := h.attempts_le t hattempt
      omega
    · exact hold t hold'

theorem expire (h : Remembers now held times state) :
    Remembers now held times (state.expire now) := by
  obtain ⟨old, htimes, hold⟩ := h.forgotten
  have hsplit := List.takeWhile_append_dropWhile
    (p := fun t => decide (CONNECTION_RATE_WINDOW ≤ now - t)) (l := state.attempts)
  refine ⟨h.active, le_rfl, ?_, (state.attempts.takeWhile fun t =>
    decide (CONNECTION_RATE_WINDOW ≤ now - t)).reverse ++ old, ?_, ?_⟩
  · intro t ht
    exact (h.attempts_le t ((List.dropWhile_sublist _).subset ht)).trans h.seen
  · rw [← List.append_assoc, ← List.reverse_append, PeerConnectionState.expire, hsplit, htimes]
  · intro t ht
    rw [List.mem_append, List.mem_reverse] at ht
    rcases ht with hexpired | hold'
    · have hexpire := List.mem_takeWhile_imp hexpired
      exact of_decide_eq_true hexpire
    · exact hold t hold'

theorem acquire (h : Remembers now held times state) (hseen : state.lastSeen = now) :
    Remembers now (held + 1) (now :: times) { state with
      active := state.active + 1, attempts := state.attempts ++ [now] } := by
  obtain ⟨old, htimes, hold⟩ := h.forgotten
  refine ⟨by rw [h.active], h.seen, ?_, old, by simp [htimes], hold⟩
  intro t ht
  rw [List.mem_append, List.mem_singleton] at ht
  rcases ht with hattempt | rfl
  · exact h.attempts_le t hattempt
  · exact hseen.ge

theorem release (h : Remembers clock held times state) :
    Remembers clock (held - 1) times { state with active := state.active - 1 } :=
  ⟨by rw [h.active], h.seen, h.attempts_le, h.forgotten⟩

/-- What is forgotten does not count any more, so that a window that ends with one more
acquisition holds no more than what is remembered. -/
theorem inWindow_le (h : Remembers now held times state) {start : Nat}
    (hnow : now < start + CONNECTION_RATE_WINDOW) :
    inWindow start times ≤ state.attempts.length := by
  obtain ⟨old, htimes, hold⟩ := h.forgotten
  have hnone : old.filter (fun t =>
      decide (start ≤ t ∧ t < start + CONNECTION_RATE_WINDOW)) = [] := by
    apply List.filter_eq_nil_iff.2
    intro t ht hin
    have hage := hold t ht
    have hstart := (of_decide_eq_true hin).1
    have hpos : 0 < CONNECTION_RATE_WINDOW := by decide
    omega
  rw [inWindow, htimes, List.filter_append, hnone, List.append_nil]
  calc (state.attempts.reverse.filter _).length ≤ state.attempts.reverse.length :=
        List.length_filter_le _ _
    _ = state.attempts.length := List.length_reverse

end Remembers

variable {w w' : LimiterRun ι} {limiter : ConnectionLimiter ι} {peer other : ι} {now : Nat}

/-- The invariant of a run. -/
structure Inv (w : LimiterRun ι) : Prop where
  remembers : ∀ peer,
    Remembers w.clock (w.leases.count peer) (w.times peer) (w.limiter.state peer w.clock)
  few : ∀ peer, w.leases.count peer ≤ MAX_CONNECTIONS_PER_IP
  rare : ∀ peer start, inWindow start (w.times peer) ≤ MAX_CONNECTION_ATTEMPTS_PER_MINUTE
  small : w.limiter.peers.rows.length ≤ MAX_PEER_LIMIT_ENTRIES

theorem Inv.limited (h : Inv w) : Limited w := by
  have hcounted : ∀ peer, w.limiter.active peer = w.leases.count peer := by
    intro peer
    rw [w.limiter.active_eq peer w.clock, (h.remembers peer).active]
  refine ⟨hcounted, fun peer => (hcounted peer).trans_le (h.few peer), h.rare, h.small, ?_⟩
  intro peer hlease
  have hactive : 0 < w.limiter.active peer := by
    rw [hcounted peer]
    exact List.count_pos_iff.2 hlease
  cases hget : w.limiter.get peer with
  | none => simp [ConnectionLimiter.active, hget] at hactive
  | some state => rfl

theorem inv_start : Inv ({} : LimiterRun ι) := by
  refine ⟨fun peer => ⟨rfl, le_rfl, ?_, [], rfl, ?_⟩, ?_, ?_, Nat.zero_le _⟩
  · intro t ht
    cases ht
  · intro t ht
    cases ht
  · intro peer
    exact Nat.zero_le _
  · intro peer start
    exact Nat.zero_le _

/-- A peer that is new at a later time is remembered as well as one that is new now. -/
theorem Inv.later (h : Inv w) (hnow : w.clock ≤ now) (peer : ι) :
    Remembers now (w.leases.count peer) (w.times peer) (w.limiter.state peer now) := by
  have hlater := (h.remembers peer).later hnow
  unfold ConnectionLimiter.state at hlater ⊢
  cases hget : w.limiter.get peer with
  | some state => rwa [hget] at hlater
  | none =>
    rw [hget] at hlater
    exact ⟨hlater.active, le_rfl, by simp, hlater.forgotten⟩

theorem Inv.makeRoom (h : Inv w) (hnow : w.clock ≤ now) (peer : ι) :
    Remembers now (w.leases.count peer) (w.times peer)
      ((w.limiter.makeRoom now).state peer now) := by
  have hlater := h.later hnow peer
  unfold ConnectionLimiter.makeRoom
  split_ifs
  · unfold ConnectionLimiter.state at hlater ⊢
    rw [ConnectionLimiter.get_retain]
    cases hget : w.limiter.get peer with
    | none => rwa [hget] at hlater
    | some state =>
      rw [hget] at hlater
      by_cases hkept : 0 < state.active ∨ now - state.lastSeen < CONNECTION_RATE_WINDOW
      · rw [Option.filter_some, if_pos (decide_eq_true hkept)]
        exact hlater
      · rw [Option.filter_some, if_neg (by simpa using hkept)]
        exact hlater.forget hkept
  · exact hlater

theorem times_acquire (w : LimiterRun ι) (limiter : ConnectionLimiter ι) (leases : List ι)
    (peer other : ι) (now : Nat) :
    times { limiter, clock := now, leases, acquired := (peer, now) :: w.acquired } other =
      if other = peer then now :: w.times other else w.times other := by
  unfold times
  by_cases hother : other = peer
  · rw [List.filter_cons_of_pos (by simpa using hother.symm), if_pos hother, List.map_cons]
  · rw [List.filter_cons_of_neg (by simpa using fun h => hother h.symm), if_neg hother]

/-- A window that holds the new acquisition holds what is remembered besides; the others hold
what they held. -/
theorem inWindow_acquire {held : Nat} {times : List Nat} {state : PeerConnectionState}
    (h : Remembers now held times state)
    (hroom : state.attempts.length < MAX_CONNECTION_ATTEMPTS_PER_MINUTE)
    (hrare : ∀ start, inWindow start times ≤ MAX_CONNECTION_ATTEMPTS_PER_MINUTE) (start : Nat) :
    inWindow start (now :: times) ≤ MAX_CONNECTION_ATTEMPTS_PER_MINUTE := by
  by_cases hin : start ≤ now ∧ now < start + CONNECTION_RATE_WINDOW
  · have hle := h.inWindow_le hin.2
    have hcons : inWindow start (now :: times) = inWindow start times + 1 := by
      rw [inWindow, List.filter_cons_of_pos (by simpa using hin), List.length_cons]
      rfl
    omega
  · have hcons : inWindow start (now :: times) = inWindow start times := by
      rw [inWindow, List.filter_cons_of_neg (by simpa using hin)]
      rfl
    rw [hcons]
    exact hrare start

/-- The peer's state may be replaced by one that is as good. -/
theorem Remembers.set {s : ConnectionLimiter ι} {clock : Nat} {held : ι → Nat}
    {times : ι → List Nat} {state : PeerConnectionState}
    (h : ∀ other, other ≠ peer → Remembers clock (held other) (times other) (s.state other clock))
    (hstate : Remembers clock (held peer) (times peer) state) (other : ι) :
    Remembers clock (held other) (times other) ((s.set peer state).state other clock) := by
  rw [ConnectionLimiter.state_set]
  split_ifs with hother
  · rw [hother]
    exact hstate
  · exact h other hother

theorem inv_tryAcquire (h : Inv w) (hs : w.step (.tryAcquire peer now) = some w') : Inv w' := by
  rw [step] at hs
  split_ifs at hs with hback
  have hnow : w.clock ≤ now := Nat.not_lt.1 hback
  obtain rfl := Option.some.inj hs
  have hroom := h.makeRoom hnow
  have hsmall : (w.limiter.makeRoom now).peers.rows.length ≤ MAX_PEER_LIMIT_ENTRIES :=
    ConnectionLimiter.length_makeRoom_le.trans h.small
  obtain hrefused | ⟨hfits, state, hstate, hanswer⟩ := w.limiter.tryAcquire_cases peer now
  · rw [hrefused]
    exact ⟨hroom, h.few, h.rare, hsmall⟩
  have hexpired : Remembers now (w.leases.count peer) (w.times peer) state := by
    rw [hstate]
    exact (hroom peer).expire
  have hlength : ∀ state', ((w.limiter.makeRoom now).set peer state').peers.rows.length ≤
      MAX_PEER_LIMIT_ENTRIES := fun _ => ConnectionLimiter.length_set_room hfits hsmall
  obtain hrefused | ⟨hactive, hattempts, haccepted⟩ := hanswer
  · rw [hrefused]
    exact ⟨Remembers.set (fun other _ => hroom other) hexpired, h.few, h.rare, hlength _⟩
  · rw [haccepted, if_pos rfl]
    have hseen : state.lastSeen = now := by rw [hstate]; rfl
    refine ⟨Remembers.set ?_ ?_, ?_, ?_, hlength _⟩
    · intro other hother
      rw [times_acquire, if_neg hother, List.count_cons_of_ne hother.symm]
      exact hroom other
    · rw [times_acquire, if_pos rfl, List.count_cons_self]
      exact hexpired.acquire hseen
    · intro other
      by_cases hother : other = peer
      · have hheld := hexpired.active
        rw [hother, List.count_cons_self]
        omega
      · rw [List.count_cons_of_ne (Ne.symm hother)]
        exact h.few other
    · intro other start
      rw [times_acquire]
      split_ifs with hother
      · rw [hother]
        exact inWindow_acquire hexpired hattempts (h.rare peer) start
      · exact h.rare other start

theorem inv_drop (h : Inv w) (hs : w.step (.drop peer) = some w') : Inv w' := by
  rw [step] at hs
  split_ifs at hs with hlease
  obtain rfl := Option.some.inj hs
  have hpos : 0 < w.leases.count peer := List.count_pos_iff.2 hlease
  have hpeer := h.remembers peer
  cases hget : w.limiter.get peer with
  | none =>
    -- a peer that holds a lease is not forgotten
    have hheld := hpeer.active
    rw [ConnectionLimiter.state, hget] at hheld
    have hzero : w.leases.count peer = 0 := hheld.symm
    omega
  | some state =>
    have hdrop : w.limiter.drop peer =
        w.limiter.set peer { state with active := state.active - 1 } := by
      rw [ConnectionLimiter.drop, hget]
    have hstate : w.limiter.state peer w.clock = state := by
      rw [ConnectionLimiter.state, hget]
      rfl
    rw [hstate] at hpeer
    rw [hdrop]
    refine ⟨Remembers.set ?_ ?_, ?_, h.rare, ?_⟩
    · intro other hother
      rw [List.count_erase_of_ne hother]
      exact h.remembers other
    · rw [List.count_erase_self]
      exact hpeer.release
    · intro other
      exact (List.erase_sublist.count_le other).trans (h.few other)
    · exact (ConnectionLimiter.length_set_of_get (by rw [hget]; rfl)).trans h.small

theorem step_inv {e : LimiterEvent ι} (h : Inv w) (hs : w.step e = some w') : Inv w' := by
  cases e with
  | tryAcquire peer now => exact inv_tryAcquire h hs
  | drop peer => exact inv_drop h hs

/-- Whatever the peers do, the count of a peer is that of its live leases and within the limit,
as is the number of its acquisitions in every window; the table stays small, and forgets no peer
that holds a lease. -/
theorem connections_limited (es : List (LimiterEvent ι)) :
    Machine.Always step Limited ({} : LimiterRun ι) es :=
  Machine.always_of_invariant Inv es inv_start (fun _ h => h.limited) fun _ _ _ h hs =>
    step_inv h hs

end LimiterRun
end FlowType
