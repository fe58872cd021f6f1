import Mathlib.Logic.Function.Basic
import FlowType.Runs
import FlowType.Protocol

/-! Pairing of phones with the desktop app: the paired phones, the one-time token and
`authenticate_phone`, cut where it holds no lock. One authentication runs at a time; the
window begins and cancels a pairing, and unpairs phones, at any time. -/
namespace FlowType

structure AuthMessage where
  protocolVersion : Nat := PROTOCOL_VERSION
  messageType : String
  phoneId : String
  phoneName : String
  pairingToken : Option String := none
  publicKeySpki : Option String := none
  connectionMode : Option String := none
  capabilities : List String := []
  signature : String
  deriving DecidableEq, Repr

structure PairedPhone where
  phoneName : String
  publicKeySpki : String
  pairedAt : Nat
  lastConnected : Option Nat
  deriving DecidableEq, Repr

/-- The signature check of a public key: payload and signature. -/
abbrev Verifier := String → String → String → Except String Unit

def authPayload (pcId phoneId nonce : String) : String :=
  "flowtype-auth-v1\x00" ++ pcId ++ "\x00" ++ phoneId ++ "\x00" ++ nonce

def verifySignature (verify : Verifier) (pcId : String) (auth : AuthMessage)
    (nonce publicKeySpki : String) : Except String Unit :=
  verify publicKeySpki (authPayload pcId auth.phoneId nonce) auth.signature

abbrev PairedPhones := String → Option PairedPhone

namespace PairedPhones

def publicKey (phones : PairedPhones) (phoneId : String) : Option String :=
  (phones phoneId).map (·.publicKeySpki)

/-- `upsert_paired_phone`. -/
def upsert (phones : PairedPhones) (phoneId phoneName publicKeySpki : String) (now : Nat) :
    PairedPhones :=
  Function.update phones phoneId (some (match phones phoneId with
    | some phone =>
      { phoneName, publicKeySpki, lastConnected := some now
        pairedAt := if phone.pairedAt = 0 then now else phone.pairedAt }
    | none => { phoneName, publicKeySpki, pairedAt := now, lastConnected := some now }))

def markConnected (phones : PairedPhones) (phoneId phoneName : String) (now : Nat) :
    Option PairedPhones :=
  (phones phoneId).map fun phone =>
    Function.update phones phoneId (some { phone with
      phoneName := phoneName, lastConnected := some now })

def remove (phones : PairedPhones) (phoneId : String) : PairedPhones :=
  Function.update phones phoneId none

end PairedPhones

inductive Attempt.Next
  | upsert (auth : AuthMessage) (supplied publicKey : String)
  | restore (supplied : String)
  | markConnected (auth : AuthMessage)
  deriving DecidableEq, Repr

/-- `attempt` holds the permit of `pairing_slot`. -/
structure Authenticator where
  pcId : String
  pairingToken : Option String := none
  pairedPhones : PairedPhones := fun _ => none
  attempt : Option Attempt.Next := none

namespace Authenticator

/-- `authenticate_phone` up to its write. -/
def check (verify : Verifier) (s : Authenticator) (auth : AuthMessage) (nonce : String) :
    Except String Authenticator :=
  if auth.protocolVersion ≠ PROTOCOL_VERSION then .error "unsupported protocol"
  else if auth.messageType = "pair" then
    match auth.pairingToken with
    | none => .error "pairing token required"
    | some supplied =>
      if s.pairingToken ≠ some supplied then .error "invalid pairing token"
      else match auth.publicKeySpki with
        | none => .error "public key required"
        | some publicKey =>
          (verifySignature verify s.pcId auth nonce publicKey).map fun _ =>
            { s with pairingToken := none, attempt := some (.upsert auth supplied publicKey) }
  else if auth.messageType = "authenticate" then
    match s.pairedPhones.publicKey auth.phoneId with
    | none => .error "phone is not paired"
    | some publicKey =>
      (verifySignature verify s.pcId auth nonce publicKey).map fun _ =>
        { s with attempt := some (.markConnected auth) }
  else .error "invalid auth type"

/-- The write of the phone store; `saved` says whether the file could be written. The
answer is there unless the token has to be put back. -/
def write (s : Authenticator) (now : Nat) (saved : Bool) :
    Option (Authenticator × Option (Except String Unit)) :=
  match s.attempt with
  | some (.upsert auth supplied publicKey) =>
    some (if saved then
      ({ s with
        pairedPhones := s.pairedPhones.upsert auth.phoneId auth.phoneName publicKey now
        attempt := none }, some (.ok ()))
    else ({ s with attempt := some (.restore supplied) }, none))
  | some (.markConnected auth) =>
    match s.pairedPhones.markConnected auth.phoneId auth.phoneName now with
    | none => some ({ s with attempt := none }, some (.error "cannot save phone"))
    | some pairedPhones =>
      some (if saved then ({ s with pairedPhones := pairedPhones, attempt := none }, some (.ok ()))
        else ({ s with attempt := none }, some (.error "cannot save phone")))
  | _ => none

def restore (s : Authenticator) : Option Authenticator :=
  match s.attempt with
  | some (.restore supplied) =>
    some { s with
      pairingToken := if s.pairingToken = none then some supplied else s.pairingToken
      attempt := none }
  | _ => none

def beginPairing (s : Authenticator) (token : String) : Authenticator :=
  { s with pairingToken := some token }

def cancelPairing (s : Authenticator) : Authenticator := { s with pairingToken := none }

/-- `PairedPhoneStore::remove`. -/
def removePhone (s : Authenticator) (phoneId : String) (saved : Bool) : Authenticator :=
  if saved then { s with pairedPhones := s.pairedPhones.remove phoneId } else s

end Authenticator

/-- A run remembers the tokens that were issued, the token as the window and the
successful pairings have left it, whether the window has cancelled since the running
attempt took its token, the tokens that attempts took with whether they were the
intended ones, and the tokens of the successful pairings. -/
structure PairingRun where
  app : Authenticator
  issued : List String := []
  intended : Option String := none
  cancelled : Bool := false
  taken : List (String × Bool) := []
  pairings : List String := []

namespace PairingRun
open Machine

inductive Event
  | beginPairing (token : String)
  | cancelPairing
  | attempt (auth : AuthMessage) (nonce : String)
  | write (now : Nat) (saved : Bool)
  | restore
  | removePhone (phoneId : String) (saved : Bool)
  deriving DecidableEq, Repr

/-- A random token is not drawn twice. -/
def stepBegin (s : PairingRun) (token : String) : Option PairingRun :=
  if token ∈ s.issued then none
  else some { s with
    app := s.app.beginPairing token
    issued := token :: s.issued
    intended := some token
    cancelled := false }

def stepAttempt (verify : Verifier) (s : PairingRun) (auth : AuthMessage) (nonce : String) :
    Option PairingRun :=
  if s.app.attempt ≠ none then none
  else match s.app.check verify auth nonce with
    | .error _ => some s
    | .ok app =>
      match app.attempt with
      | some (.upsert _ supplied _) => some { s with
          app := app
          cancelled := false
          taken := (supplied, decide (s.intended = some supplied)) :: s.taken }
      | _ => some { s with app := app }

/-- A successful pairing uses its token up. -/
def stepWrite (s : PairingRun) (now : Nat) (saved : Bool) : Option PairingRun :=
  (s.app.write now saved).map fun r =>
    match s.app.attempt with
    | some (.upsert _ supplied _) =>
      if saved then { s with
        app := r.1
        intended := s.intended.filter fun token => decide (token ≠ supplied)
        pairings := supplied :: s.pairings }
      else { s with app := r.1 }
    | _ => { s with app := r.1 }

def step (verify : Verifier) (s : PairingRun) : Event → Option PairingRun
  | .beginPairing token => s.stepBegin token
  | .cancelPairing =>
    some { s with app := s.app.cancelPairing, intended := none, cancelled := true }
  | .attempt auth nonce => s.stepAttempt verify auth nonce
  | .write now saved => s.stepWrite now saved
  | .restore => s.app.restore.map fun app => { s with app := app }
  | .removePhone phoneId saved => some { s with app := s.app.removePhone phoneId saved }

def start (pcId : String) (pairedPhones : PairedPhones) : PairingRun :=
  { app := { pcId, pairedPhones } }

/-- No token pairs twice, only the token that is the intended one is taken, and without
an attempt the slot holds the intended token. -/
structure Sound (s : PairingRun) : Prop where
  once : s.pairings.Nodup
  rejected : ∀ token ∈ s.taken, token.2 = true
  kept : s.app.attempt = none → s.app.pairingToken = s.intended

/-- A token is put back only when the pairing has not been cancelled since it was taken. -/
def PairingOk (s : PairingRun) : Event → Prop
  | .restore => s.cancelled = false
  | _ => True

instance (s : PairingRun) (e : Event) : Decidable (s.PairingOk e) := by
  cases e <;> unfold PairingOk <;> infer_instance

/-- The slot during an attempt with the token `supplied`: the token, a newer one, or
none after the window has cancelled. -/
structure Holding (s : PairingRun) (supplied : String) : Prop where
  unused : supplied ∉ s.pairings
  issued : supplied ∈ s.issued
  slot : (s.cancelled = false ∧ s.app.pairingToken = none ∧ s.intended = some supplied) ∨
    (s.cancelled = false ∧ s.app.pairingToken = s.intended ∧ s.intended ≠ none ∧
      s.intended ≠ some supplied) ∨
    (s.cancelled = true ∧ s.app.pairingToken = none ∧ s.intended = none)

/-- The slot and the tokens outside the lock. -/
structure Inv (s : PairingRun) : Prop where
  once : s.pairings.Nodup
  rejected : ∀ token ∈ s.taken, token.2 = true
  used : ∀ token ∈ s.pairings, token ∈ s.issued
  intended : ∀ token ∈ s.intended, token ∈ s.issued ∧ token ∉ s.pairings
  upserting : ∀ auth supplied publicKey,
    s.app.attempt = some (.upsert auth supplied publicKey) → s.Holding supplied
  restoring : ∀ supplied, s.app.attempt = some (.restore supplied) → s.Holding supplied
  connecting : ∀ auth, s.app.attempt = some (.markConnected auth) →
    s.app.pairingToken = s.intended
  idle : s.app.attempt = none → s.app.pairingToken = s.intended

theorem Inv.sound {s : PairingRun} (h : s.Inv) : s.Sound := ⟨h.once, h.rejected, h.idle⟩

theorem start_inv (pcId : String) (pairedPhones : PairedPhones) :
    (start pcId pairedPhones).Inv := by
  constructor <;> simp [start]

/-- A checked attempt has taken the token that was supplied, or leaves it alone. -/
theorem check_ok {verify : Verifier} {s app : Authenticator} {auth : AuthMessage} {nonce : String}
    (h : s.check verify auth nonce = .ok app) :
    (∃ supplied publicKey, s.pairingToken = some supplied ∧ app =
        { s with pairingToken := none, attempt := some (.upsert auth supplied publicKey) }) ∨
      app = { s with attempt := some (.markConnected auth) } := by
  have hmap : ∀ {r : Except String Unit} {b : Authenticator},
      (r.map fun _ => b) = .ok app → app = b := by
    intro r b hr
    cases r with
    | error e => cases hr
    | ok u =>
      cases hr
      rfl
  unfold Authenticator.check at h
  split at h
  · cases h
  · split at h
    · split at h
      · cases h
      · next supplied _ =>
        split at h
        · cases h
        · next htoken =>
          split at h
          · cases h
          · next publicKey _ => exact Or.inl ⟨supplied, publicKey, not_not.mp htoken, hmap h⟩
    · split at h
      · split at h
        · cases h
        · exact Or.inr (hmap h)
      · cases h

theorem stepBegin_inv {s t : PairingRun} {token : String} (hinv : s.Inv)
    (h : s.stepBegin token = some t) : t.Inv := by
  unfold stepBegin at h
  split at h
  · cases h
  · next hnew =>
    cases h
    have hunused : token ∉ s.pairings := fun hused => hnew (hinv.used token hused)
    have hholding : ∀ supplied, s.Holding supplied → Holding { s with
        app := s.app.beginPairing token
        issued := token :: s.issued
        intended := some token
        cancelled := false } supplied := by
      intro supplied hold
      have hne : token ≠ supplied := fun heq => hnew (heq ▸ hold.issued)
      refine ⟨hold.unused, List.mem_cons_of_mem _ hold.issued, Or.inr (Or.inl ?_)⟩
      exact ⟨rfl, rfl, Option.some_ne_none _, fun heq => hne (Option.some.inj heq)⟩
    constructor
    · exact hinv.once
    · exact hinv.rejected
    · exact fun other hused => List.mem_cons_of_mem _ (hinv.used other hused)
    · rintro other ⟨⟩
      exact ⟨List.mem_cons_self, hunused⟩
    · exact fun auth supplied publicKey hcall =>
        hholding supplied (hinv.upserting auth supplied publicKey hcall)
    · exact fun supplied hcall => hholding supplied (hinv.restoring supplied hcall)
    · exact fun _ _ => rfl
    · exact fun _ => rfl

theorem cancelPairing_inv {s : PairingRun} (hinv : s.Inv) :
    Inv { s with app := s.app.cancelPairing, intended := none, cancelled := true } := by
  have hholding : ∀ supplied, s.Holding supplied → Holding
      { s with app := s.app.cancelPairing, intended := none, cancelled := true } supplied :=
    fun supplied hold => ⟨hold.unused, hold.issued, Or.inr (Or.inr ⟨rfl, rfl, rfl⟩)⟩
  constructor
  · exact hinv.once
  · exact hinv.rejected
  · exact hinv.used
  · rintro other ⟨⟩
  · exact fun auth supplied publicKey hcall =>
      hholding supplied (hinv.upserting auth supplied publicKey hcall)
  · exact fun supplied hcall => hholding supplied (hinv.restoring supplied hcall)
  · exact fun _ _ => rfl
  · exact fun _ => rfl

theorem stepAttempt_inv {verify : Verifier} {s t : PairingRun} {auth : AuthMessage}
    {nonce : String} (hinv : s.Inv) (h : s.stepAttempt verify auth nonce = some t) : t.Inv := by
  unfold stepAttempt at h
  split at h
  · cases h
  · next hfree =>
    have hkept := hinv.idle (not_not.mp hfree)
    split at h
    · cases h
      exact hinv
    · next app hcheck =>
      rcases check_ok hcheck with ⟨supplied, publicKey, htoken, rfl⟩ | rfl
      · cases h
        have hintended : s.intended = some supplied := hkept.symm.trans htoken
        obtain ⟨hissued, hunused⟩ := hinv.intended supplied hintended
        constructor
        · exact hinv.once
        · intro token hmem
          rcases List.mem_cons.mp hmem with rfl | hold
          · exact decide_eq_true hintended
          · exact hinv.rejected token hold
        · exact hinv.used
        · exact hinv.intended
        · rintro _ _ _ ⟨⟩
          exact ⟨hunused, hissued, Or.inl ⟨rfl, rfl, hintended⟩⟩
        · rintro _ ⟨⟩
        · rintro _ ⟨⟩
        · intro hnone
          cases hnone
      · cases h
        constructor
        · exact hinv.once
        · exact hinv.rejected
        · exact hinv.used
        · exact hinv.intended
        · rintro _ _ _ ⟨⟩
        · rintro _ ⟨⟩
        · exact fun _ _ => hkept
        · exact fun _ => hkept

/-- The slot after the attempt with `supplied` has ended well. -/
theorem Holding.paired {s : PairingRun} {supplied : String} (h : s.Holding supplied) :
    s.app.pairingToken = s.intended.filter fun token => decide (token ≠ supplied) := by
  rcases h.slot with ⟨-, hslot, hintended⟩ | ⟨-, hslot, hsome, hne⟩ | ⟨-, hslot, hintended⟩
  · rw [hslot, hintended]
    simp [Option.filter]
  · obtain ⟨token, htoken⟩ := Option.ne_none_iff_exists'.mp hsome
    rw [hslot, htoken]
    have hother : token ≠ supplied := fun heq => hne (htoken.trans (congrArg some heq))
    simp [Option.filter, hother]
  · rw [hslot, hintended]
    rfl

theorem stepWrite_inv {s t : PairingRun} {now : Nat} {saved : Bool} (hinv : s.Inv)
    (h : s.stepWrite now saved = some t) : t.Inv := by
  obtain ⟨r, hwrite, rfl⟩ := Option.map_eq_some_iff.mp h
  unfold Authenticator.write at hwrite
  split at hwrite
  · next auth supplied publicKey hattempt =>
    have hold := hinv.upserting auth supplied publicKey hattempt
    rw [hattempt]
    cases saved with
    | true =>
      cases hwrite
      constructor
      · exact List.nodup_cons.mpr ⟨hold.unused, hinv.once⟩
      · exact hinv.rejected
      · intro token hmem
        rcases List.mem_cons.mp hmem with rfl | hused
        · exact hold.issued
        · exact hinv.used token hused
      · intro token hmem
        obtain ⟨hintended, hne⟩ := Option.filter_eq_some_iff.mp hmem
        obtain ⟨hissued, hunused⟩ := hinv.intended token hintended
        refine ⟨hissued, fun hused => ?_⟩
        rcases List.mem_cons.mp hused with rfl | hused
        · exact absurd rfl (of_decide_eq_true hne)
        · exact hunused hused
      · rintro _ _ _ ⟨⟩
      · rintro _ ⟨⟩
      · rintro _ ⟨⟩
      · exact fun _ => hold.paired
    | false =>
      cases hwrite
      constructor
      · exact hinv.once
      · exact hinv.rejected
      · exact hinv.used
      · exact hinv.intended
      · rintro _ _ _ ⟨⟩
      · rintro _ ⟨⟩
        exact ⟨hold.unused, hold.issued, hold.slot⟩
      · rintro _ ⟨⟩
      · intro hnone
        cases hnone
  · next auth hattempt =>
    have hkept := hinv.connecting auth hattempt
    have hended : ∀ pairedPhones, Inv { s with
        app := { s.app with pairedPhones := pairedPhones, attempt := none } } := by
      intro pairedPhones
      constructor
      · exact hinv.once
      · exact hinv.rejected
      · exact hinv.used
      · exact hinv.intended
      · rintro _ _ _ ⟨⟩
      · rintro _ ⟨⟩
      · rintro _ ⟨⟩
      · exact fun _ => hkept
    rw [hattempt]
    split at hwrite
    · cases hwrite
      exact hended s.app.pairedPhones
    · next pairedPhones _ =>
      cases saved with
      | true =>
        cases hwrite
        exact hended pairedPhones
      | false =>
        cases hwrite
        exact hended s.app.pairedPhones
  · cases hwrite

/-- Putting the token back is right exactly when the window has not cancelled. -/
theorem restore_keeps {s : PairingRun} {app : Authenticator} (hinv : s.Inv)
    (h : s.app.restore = some app) :
    (Sound { s with app := app } ↔ s.cancelled = false) ∧
      (s.cancelled = false → Inv { s with app := app }) := by
  unfold Authenticator.restore at h
  split at h
  · next supplied hattempt =>
    cases h
    have hold := hinv.restoring supplied hattempt
    have hslot : ((if s.app.pairingToken = none then some supplied else s.app.pairingToken) =
        s.intended) ↔ s.cancelled = false := by
      rcases hold.slot with ⟨hc, hslot, hintended⟩ | ⟨hc, hslot, hsome, -⟩ | ⟨hc, hslot, hintended⟩
      · simp [hc, hslot, hintended]
      · rw [hslot, if_neg hsome]
        exact iff_of_true rfl hc
      · simp [hc, hslot, hintended]
    constructor
    · constructor
      · intro hsound
        exact hslot.mp (hsound.kept rfl)
      · exact fun hc => ⟨hinv.once, hinv.rejected, fun _ => hslot.mpr hc⟩
    · intro hc
      constructor
      · exact hinv.once
      · exact hinv.rejected
      · exact hinv.used
      · exact hinv.intended
      · rintro _ _ _ ⟨⟩
      · rintro _ ⟨⟩
      · rintro _ ⟨⟩
      · exact fun _ => hslot.mpr hc
  · cases h

theorem removePhone_inv {s : PairingRun} (hinv : s.Inv) (phoneId : String) (saved : Bool) :
    Inv { s with app := s.app.removePhone phoneId saved } := by
  have hholding : ∀ pairedPhones supplied, s.Holding supplied → Holding
      { s with app := { s.app with pairedPhones := pairedPhones } } supplied :=
    fun _ _ hold => ⟨hold.unused, hold.issued, hold.slot⟩
  cases saved with
  | false => exact hinv
  | true =>
    constructor
    · exact hinv.once
    · exact hinv.rejected
    · exact hinv.used
    · exact hinv.intended
    · exact fun auth supplied publicKey hcall =>
        hholding _ supplied (hinv.upserting auth supplied publicKey hcall)
    · exact fun supplied hcall => hholding _ supplied (hinv.restoring supplied hcall)
    · exact hinv.connecting
    · exact hinv.idle

/-- Pairing tokens are one-time and revocable exactly in the runs in which no token is
put back after the window has cancelled its pairing. -/
theorem pairing_token_once (verify : Verifier) (pcId : String) (pairedPhones : PairedPhones)
    (es : List Event) :
    Always (step verify) Sound (start pcId pairedPhones) es ↔
      Along (step verify) PairingOk (start pcId pairedPhones) es := by
  have hstart := start_inv pcId pairedPhones
  apply always_iff_along Inv es hstart hstart.sound
  intro s e t hinv _ hstep
  have hkept : t.Inv → s.PairingOk e → (t.Sound ↔ s.PairingOk e) ∧ (s.PairingOk e → t.Inv) :=
    fun ht hok => ⟨iff_of_true ht.sound hok, fun _ => ht⟩
  cases e with
  | beginPairing token => exact hkept (stepBegin_inv hinv hstep) trivial
  | cancelPairing =>
    cases hstep
    exact hkept (cancelPairing_inv hinv) trivial
  | attempt auth nonce => exact hkept (stepAttempt_inv hinv hstep) trivial
  | write now saved => exact hkept (stepWrite_inv hinv hstep) trivial
  | restore =>
    obtain ⟨app, hrestore, rfl⟩ := Option.map_eq_some_iff.mp hstep
    exact restore_keeps hinv hrestore
  | removePhone phoneId saved =>
    cases hstep
    exact hkept (removePhone_inv hinv phoneId saved) trivial

/-- The window is closed while the phone cannot be saved. -/
def cancelledRun : List Event :=
  [.beginPairing "t",
    .attempt { messageType := "pair", phoneId := "p", phoneName := "Phone"
               pairingToken := some "t", publicKeySpki := some "k", signature := "s" } "n",
    .write 1 false, .cancelPairing, .restore]

theorem cancelledRun_not_sound :
    ¬ Always (step fun _ _ _ => .ok ()) Sound (start "pc" fun _ => none) cancelledRun := by
  intro h
  have hlast := h.last cancelledRun rfl
  have hkept := hlast.kept rfl
  cases hkept

end PairingRun

end FlowType
