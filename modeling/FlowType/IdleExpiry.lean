import Mathlib.Data.Option.Basic
import FlowType.Runs

/-! Deletion of an item by the time of its last refresh. Some operations on the item refresh it and
some only work on it; a sweep deletes it when its stamp is older than the age that is allowed. The
sweeps spare an item that was worked on exactly when it was refreshed too. Nothing here refers to a
particular program. -/
namespace IdleExpiry

open Machine

inductive Kind
  | begins | refreshes | works | passes | ends | sweeps
  deriving DecidableEq, Repr

namespace Kind

def isRefresh : Kind → Bool
  | .begins => true
  | .refreshes => true
  | _ => false

def isActivity : Kind → Bool
  | .works => true
  | kind => kind.isRefresh

def stamp (age now : Nat) : Kind → Option Nat → Option Nat
  | .begins, _ => some now
  | .refreshes, stamp => stamp.map fun _ => now
  | .works, stamp => stamp
  | .passes, stamp => stamp
  | .ends, _ => none
  | .sweeps, stamp => stamp.filter fun stamp => decide (now ≤ stamp + age)

end Kind

structure Keeper (σ ε : Type*) where
  step : σ → Nat → ε → Option σ
  stamp : σ → Option Nat
  kind : σ → ε → Kind
  age : Nat
  stamp_step : ∀ s now e s', step s now e = some s' →
    (∀ r, stamp s = some r → r ≤ now) → stamp s' = (kind s e).stamp age now (stamp s)

variable {σ ε : Type*}

/-- The machine with its clock and the times of the last refresh and of the last activity of the
item that is there. -/
structure Watched (σ : Type*) where
  state : σ
  clock : Nat := 0
  refreshed : Option Nat := none
  active : Option Nat := none

namespace Keeper
variable (k : Keeper σ ε)

def remember (s' : σ) (happened : Bool) (now : Nat) (before : Option Nat) : Option Nat :=
  (k.stamp s').bind fun _ => if happened then some now else before

/-- An operation at a time; the clock does not go back. -/
def watch (w : Watched σ) (e : Nat × ε) : Option (Watched σ) :=
  if e.1 < w.clock then none
  else (k.step w.state e.1 e.2).map fun s' =>
    { state := s'
      clock := e.1
      refreshed := k.remember s' (k.kind w.state e.2).isRefresh e.1 w.refreshed
      active := k.remember s' (k.kind w.state e.2).isActivity e.1 w.active }

/-- A sweep deletes the item only if there was no activity for the age that is allowed. -/
def SparesActive (w : Watched σ) (e : Nat × ε) : Prop :=
  k.kind w.state e.2 = .sweeps → (k.stamp w.state).isSome = true →
    ∀ s', k.step w.state e.1 e.2 = some s' → k.stamp s' = none →
      ∀ last, w.active = some last → last + k.age < e.1

/-- At a sweep, an item that was active for the age that is allowed was refreshed for it too. -/
def RefreshedWhenActive (w : Watched σ) (e : Nat × ε) : Prop :=
  k.kind w.state e.2 = .sweeps → ∀ last, w.active = some last → e.1 ≤ last + k.age →
    ∃ refresh, w.refreshed = some refresh ∧ e.1 ≤ refresh + k.age

/-- The stamp is the time of the last refresh. -/
structure Inv (w : Watched σ) : Prop where
  stamp : k.stamp w.state = w.refreshed
  past : ∀ refresh, w.refreshed = some refresh → refresh ≤ w.clock
  active : w.active.isSome = true → (k.stamp w.state).isSome = true

variable {k} {w w' : Watched σ} {e : Nat × ε} {es : List (Nat × ε)}

theorem watch_cases (h : k.watch w e = some w') :
    w.clock ≤ e.1 ∧ ∃ s', k.step w.state e.1 e.2 = some s' ∧ w' =
      { state := s'
        clock := e.1
        refreshed := k.remember s' (k.kind w.state e.2).isRefresh e.1 w.refreshed
        active := k.remember s' (k.kind w.state e.2).isActivity e.1 w.active } := by
  rw [watch] at h
  split_ifs at h with hclock
  obtain ⟨s', hstep, rfl⟩ := Option.map_eq_some_iff.1 h
  exact ⟨by omega, s', hstep, rfl⟩

theorem Inv.remember (h : k.Inv w) {s' : σ} (hclock : w.clock ≤ e.1)
    (hstep : k.step w.state e.1 e.2 = some s') :
    k.stamp s' = k.remember s' (k.kind w.state e.2).isRefresh e.1 w.refreshed := by
  have hpast : ∀ r, k.stamp w.state = some r → r ≤ e.1 := by
    intro r hr
    exact Nat.le_trans (h.past r (h.stamp ▸ hr)) hclock
  have hstamp := k.stamp_step _ _ _ _ hstep hpast
  rw [Keeper.remember, hstamp, ← h.stamp]
  cases k.kind w.state e.2 <;> cases k.stamp w.state <;>
    simp [Kind.stamp, Kind.isRefresh, Option.filter]
  split_ifs <;> rfl

theorem Inv.step (h : k.Inv w) (hstep : k.watch w e = some w') : k.Inv w' := by
  obtain ⟨hclock, s', hs', rfl⟩ := watch_cases hstep
  refine ⟨h.remember hclock hs', ?_, ?_⟩
  · intro refresh hrefresh
    obtain ⟨_, -, hlast⟩ := Option.bind_eq_some_iff.1 hrefresh
    split_ifs at hlast
    · exact Nat.le_of_eq (Option.some.inj hlast).symm
    · exact Nat.le_trans (h.past refresh hlast) hclock
  · intro hactive
    obtain ⟨last, hlast⟩ := Option.isSome_iff_exists.1 hactive
    obtain ⟨r, hr, -⟩ := Option.bind_eq_some_iff.1 hlast
    exact Option.isSome_iff_exists.2 ⟨r, hr⟩

theorem Inv.spares_iff (h : k.Inv w) (hstep : k.watch w e = some w') :
    k.SparesActive w e ↔ k.RefreshedWhenActive w e := by
  obtain ⟨hclock, s', hs', -⟩ := watch_cases hstep
  have hpast : ∀ r, k.stamp w.state = some r → r ≤ e.1 := by
    intro r hr
    exact Nat.le_trans (h.past r (h.stamp ▸ hr)) hclock
  have hstamp := k.stamp_step _ _ _ _ hs' hpast
  constructor
  · intro hspares hsweep last hlast hrecent
    have hthere : (k.stamp w.state).isSome = true := h.active (by rw [hlast]; rfl)
    obtain ⟨r, hr⟩ := Option.isSome_iff_exists.1 hthere
    refine ⟨r, h.stamp ▸ hr, ?_⟩
    by_contra hold
    have hgone : k.stamp s' = none := by
      rw [hstamp, hsweep, hr, Kind.stamp, Option.filter_some, if_neg]
      simpa using hold
    have hidle := hspares hsweep hthere s' hs' hgone last hlast
    omega
  · intro hrefreshed hsweep hthere s₁ hs₁ hgone last hlast
    obtain rfl := Option.some.inj (hs'.symm.trans hs₁)
    obtain ⟨r, hr⟩ := Option.isSome_iff_exists.1 hthere
    by_contra hrecent
    obtain ⟨refresh, hrefresh, hfresh⟩ := hrefreshed hsweep last hlast (by omega)
    obtain rfl := Option.some.inj (hr.symm.trans (h.stamp.trans hrefresh))
    rw [hstamp, hsweep, hr, Kind.stamp, Option.filter_some, if_pos (by simpa using hfresh)] at hgone
    exact nomatch hgone

/-- In a run, no sweep deletes an item that was active exactly when the item was refreshed each
time. -/
theorem along_spares_iff (h : k.Inv w) (es : List (Nat × ε)) :
    Along k.watch k.SparesActive w es ↔ Along k.watch k.RefreshedWhenActive w es :=
  along_congr k.Inv es h fun _ _ _ hw hstep => ⟨hw.step hstep, hw.spares_iff hstep⟩

end Keeper

end IdleExpiry
