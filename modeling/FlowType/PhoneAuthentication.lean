import FlowType.BindingStore
import FlowType.Pairing

/-! The challenge of a connection and its answer: `serve_connection` up to `authenticate_phone` on
the computer, `authenticate` and `PhoneIdentity` on the phones. What reaches the computer may come
from anybody. -/
namespace FlowType

structure Challenge where
  protocolVersion : Nat := PROTOCOL_VERSION
  pcId : String
  nonce : String
  deriving DecidableEq, Repr

/-- `authenticate` of a socket of the phone. The sockets differ in the mode and the capabilities
that they announce. -/
def answerChallenge (connectionMode : Option String) (capabilities : List String)
    (phoneId phoneName publicKey : String) (sign : String → String) (current : BindingStore.Binding)
    (challenge : Challenge) : Option AuthMessage :=
  if challenge.protocolVersion ≠ PROTOCOL_VERSION ∨ challenge.pcId ≠ current.pcId then none
  else some
    { messageType := if current.pairingToken = none then "authenticate" else "pair"
      phoneId, phoneName
      pairingToken := current.pairingToken
      publicKeySpki := current.pairingToken.map fun _ => publicKey
      connectionMode, capabilities
      signature := sign (authPayload current.pcId phoneId challenge.nonce) }

/-- `SyncClient.authenticate`. -/
def syncAuthenticate := answerChallenge none ["health_check", "switch_ack", "file_transfer_v2"]

/-- `ControlClient.authenticate`. -/
def controlAuthenticate := answerChallenge (some "control") ["switch_ack"]

/-- `TargetProbeClient.authenticate`. -/
def probeAuthenticate := answerChallenge none []

structure KeyPair where
  publicKey : String
  phone : Nat
  pcId : String
  deriving DecidableEq, Repr

structure Signing where
  publicKey : String
  phone : Nat
  phoneId : String
  nonce : String
  payload : String
  after : Nat
  deriving DecidableEq, Repr

/-- A message that passed `verify_signature`, with the key that it was checked against. -/
structure Checked where
  connection : Nat
  nonce : String
  auth : AuthMessage
  publicKey : String
  deriving DecidableEq, Repr

/-- The key of `verify_signature`. -/
def Authenticator.verifiedKey (s : Authenticator) (auth : AuthMessage) : Option String :=
  if auth.messageType = "pair" then auth.publicKeySpki
  else s.pairedPhones.publicKey auth.phoneId

/-- The computer, its connections and the phones. `nonces` has one for each connection, `tried`
are the connections that have sent their message, and `keyStore` is what each phone has for a
computer now. -/
structure AuthRun where
  app : Authenticator
  nonces : List String := []
  tried : List Nat := []
  keyStore : Nat → String → Option String := fun _ _ => none
  keys : List KeyPair := []
  signings : List Signing := []
  checked : Option Checked := none
  accepted : List Checked := []

namespace AuthRun
open Machine

inductive Event
  | connect (nonce : String)
  | attempt (connection : Nat) (auth : AuthMessage)
  | write (now : Nat) (saved : Bool)
  | restore
  | beginPairing (token : String)
  | cancelPairing
  | removePhone (phoneId : String) (saved : Bool)
  | answer (phone : Nat) (phoneId : String) (current : BindingStore.Binding) (challenge : Challenge)
      (newKey : String)
  | deleteKey (phone : Nat) (pcId : String)
  deriving DecidableEq, Repr

/-- A nonce is 32 random bytes in URL-safe base64: nobody has drawn it before, and no phone has
signed it before. -/
def stepConnect (s : AuthRun) (nonce : String) : Option AuthRun :=
  if '\x00' ∈ nonce.toList ∨ nonce ∈ s.nonces ∨
      ∃ signing ∈ s.signings, '\x00' :: nonce.toList <:+ signing.payload.toList then none
  else some { s with nonces := s.nonces ++ [nonce] }

/-- A connection is read from once before it is accepted. -/
def stepAttempt (verify : Verifier) (s : AuthRun) (connection : Nat) (auth : AuthMessage) :
    Option AuthRun :=
  if s.app.attempt ≠ none ∨ connection ∈ s.tried then none
  else (s.nonces[connection]?).map fun nonce =>
    let s := { s with tried := connection :: s.tried }
    match s.app.check verify auth nonce with
    -- the connection is closed, and nothing else comes of it
    | .error _ => s
    | .ok app =>
      { s with
        app := app
        checked := (s.app.verifiedKey auth).map fun publicKey =>
          { connection, nonce, auth, publicKey } }

def stepWrite (s : AuthRun) (now : Nat) (saved : Bool) : Option AuthRun :=
  (s.app.write now saved).map fun (app, answer) =>
    match answer with
    | some (.ok _) =>
      { s with app := app, checked := none, accepted := s.checked.toList ++ s.accepted }
    | _ => { s with app := app, checked := none }

/-- `PhoneIdentity.keyPair`: a key that is not there yet is generated, and nobody has had it
before. -/
def keyPair (s : AuthRun) (phone : Nat) (pcId newKey : String) : Option (AuthRun × String) :=
  match s.keyStore phone pcId with
  | some publicKey => some (s, publicKey)
  | none =>
    if newKey ∈ s.keys.map (·.publicKey) ∨
        newKey ∈ (s.checked.toList ++ s.accepted).map (·.publicKey) then none
    else some (
      { s with
        keyStore := Function.update s.keyStore phone
          (Function.update (s.keyStore phone) pcId (some newKey))
        keys := ⟨newKey, phone, pcId⟩ :: s.keys }, newKey)

/-- A phone signs whatever nonce it is given, if the rest of the challenge is right. -/
def stepAnswer (s : AuthRun) (phone : Nat) (phoneId : String) (current : BindingStore.Binding)
    (challenge : Challenge) (newKey : String) : Option AuthRun :=
  if challenge.protocolVersion ≠ PROTOCOL_VERSION ∨ challenge.pcId ≠ current.pcId then some s
  else (s.keyPair phone current.pcId newKey).map fun (s, publicKey) =>
    { s with signings :=
        { publicKey, phone, phoneId, nonce := challenge.nonce
          payload := authPayload current.pcId phoneId challenge.nonce
          after := s.nonces.length } :: s.signings }

def step (verify : Verifier) (s : AuthRun) : Event → Option AuthRun
  | .connect nonce => s.stepConnect nonce
  | .attempt connection auth => s.stepAttempt verify connection auth
  | .write now saved => s.stepWrite now saved
  | .restore => s.app.restore.map fun app => { s with app := app }
  | .beginPairing token => some { s with app := s.app.beginPairing token }
  | .cancelPairing => some { s with app := s.app.cancelPairing }
  | .removePhone phoneId saved => some { s with app := s.app.removePhone phoneId saved }
  | .answer phone phoneId current challenge newKey =>
    s.stepAnswer phone phoneId current challenge newKey
  | .deleteKey phone pcId =>
    some { s with
      keyStore := Function.update s.keyStore phone
        (Function.update (s.keyStore phone) pcId none) }

def start (pcId : String) (pairedPhones : PairedPhones) : AuthRun :=
  { app := { pcId, pairedPhones } }

def Owns (s : AuthRun) (phone : Nat) (publicKey : String) : Prop :=
  ⟨publicKey, phone, s.app.pcId⟩ ∈ s.keys

/-- Nobody forges signatures: a message that verifies with a key that a phone has generated for
this computer carries a payload that was signed with that key. -/
def Unforged (verify : Verifier) (s : AuthRun) : Event → Prop
  | .attempt connection auth => ∀ nonce ∈ s.nonces[connection]?,
      ∀ publicKey ∈ s.app.verifiedKey auth,
        ∀ key ∈ s.keys, key.publicKey = publicKey → key.pcId = s.app.pcId →
        verifySignature verify s.app.pcId auth nonce publicKey = .ok () →
          ∃ signing ∈ s.signings, signing.publicKey = publicKey ∧
            signing.payload = authPayload s.app.pcId auth.phoneId nonce
  | _ => True

instance (verify : Verifier) (s : AuthRun) (e : Event) : Decidable (s.Unforged verify e) := by
  apply Event.casesOn (motive := fun e => Decidable (s.Unforged verify e)) e <;> intros <;>
    unfold Unforged <;> infer_instance

/-- The phone has answered the challenge of the connection itself: with its key, and after the
connection was challenged. -/
structure Answers (pcId : String) (phone : Nat) (c : Checked) (signing : Signing) : Prop where
  publicKey : signing.publicKey = c.publicKey
  phone : signing.phone = phone
  payload : signing.payload = authPayload pcId c.auth.phoneId c.nonce
  after : c.connection < signing.after

/-- A connection is accepted once, with a message for its own nonce that verifies; where the key is
that of a phone, this phone has answered, and no answer serves two connections. -/
structure Authenticated (verify : Verifier) (s : AuthRun) : Prop where
  once : (s.accepted.map (·.connection)).Nodup
  verified : ∀ c ∈ s.accepted, s.nonces[c.connection]? = some c.nonce ∧
    verifySignature verify s.app.pcId c.auth c.nonce c.publicKey = .ok ()
  answered : ∀ c ∈ s.accepted, ∀ phone, s.Owns phone c.publicKey →
    ∃ signing ∈ s.signings, Answers s.app.pcId phone c signing
  unshared : ∀ c ∈ s.accepted, ∀ c' ∈ s.accepted, ∀ phone phone' signing,
    Answers s.app.pcId phone c signing → Answers s.app.pcId phone' c' signing → c = c'

structure Known (verify : Verifier) (s : AuthRun) (c : Checked) : Prop where
  tried : c.connection ∈ s.tried
  nonce : s.nonces[c.connection]? = some c.nonce
  verified : verifySignature verify s.app.pcId c.auth c.nonce c.publicKey = .ok ()
  answered : ∀ phone, s.Owns phone c.publicKey →
    ∃ signing ∈ s.signings, Answers s.app.pcId phone c signing

structure Inv (verify : Verifier) (s : AuthRun) : Prop where
  plain : ∀ nonce ∈ s.nonces, '\x00' ∉ nonce.toList
  drawn : s.nonces.Nodup
  keys : (s.keys.map (·.publicKey)).Nodup
  stored : ∀ phone pcId publicKey, s.keyStore phone pcId = some publicKey →
    ⟨publicKey, phone, pcId⟩ ∈ s.keys
  signer : ∀ signing ∈ s.signings, ∃ pcId, ⟨signing.publicKey, signing.phone, pcId⟩ ∈ s.keys
  later : ∀ signing ∈ s.signings, ∀ i nonce, s.nonces[i]? = some nonce →
    '\x00' :: nonce.toList <:+ signing.payload.toList → i < signing.after
  known : ∀ c ∈ s.checked.toList ++ s.accepted, s.Known verify c
  once : ((s.checked.toList ++ s.accepted).map (·.connection)).Nodup

/-- The last of the parts between the marks is found again. -/
theorem eq_of_suffixes {α : Type*} {mark : α} {l m n : List α} (hm : mark ∉ m) (hn : mark ∉ n)
    (h : mark :: m <:+ l) (h' : mark :: n <:+ l) : m = n := by
  have hlonger : ∀ {a b : List α}, mark ∉ b → mark :: a <:+ mark :: b → a = b := by
    intro a b hb hab
    rcases List.suffix_cons_iff.mp hab with heq | hin
    · exact List.tail_eq_of_cons_eq heq
    · exact absurd (hin.mem List.mem_cons_self) hb
  rcases List.suffix_or_suffix_of_suffix h h' with hab | hab
  · exact hlonger hn hab
  · exact (hlonger hm hab).symm

theorem authPayload_suffix (pcId phoneId nonce : String) :
    '\x00' :: nonce.toList <:+ (authPayload pcId phoneId nonce).toList := by
  have hmark : "\x00".toList = ['\x00'] := by decide
  have hpayload : authPayload pcId phoneId nonce =
      "flowtype-auth-v1\x00" ++ pcId ++ "\x00" ++ phoneId ++ "\x00" ++ nonce := by
    unfold authPayload
    exact Eq.refl _
  -- what stands before the last mark is of no account
  generalize authPayload pcId phoneId nonce = payload at hpayload ⊢
  generalize "flowtype-auth-v1\x00" ++ pcId ++ "\x00" ++ phoneId = front at hpayload
  rw [hpayload, String.toList_append, String.toList_append, hmark, List.append_assoc]
  exact List.suffix_append _ _

variable {verify : Verifier} {s t : AuthRun}

theorem start_inv (pcId : String) (pairedPhones : PairedPhones) :
    (start pcId pairedPhones).Inv verify := by
  constructor <;> simp [start]

/-- What is known stays known while a run goes on. -/
theorem Known.grow {c : Checked} (h : s.Known verify c) (hpcId : t.app.pcId = s.app.pcId)
    (htried : s.tried ⊆ t.tried) (hnonces : s.nonces <+: t.nonces)
    (howns : ∀ phone, t.Owns phone c.publicKey → s.Owns phone c.publicKey)
    (hsignings : s.signings ⊆ t.signings) : t.Known verify c := by
  constructor
  · exact htried h.tried
  · obtain ⟨rest, hrest⟩ := hnonces
    obtain ⟨hi, -⟩ := List.getElem?_eq_some_iff.mp h.nonce
    rw [← hrest, List.getElem?_append_left hi]
    exact h.nonce
  · rw [hpcId]
    exact h.verified
  · intro phone hphone
    obtain ⟨signing, hsigning, hanswers⟩ := h.answered phone (howns phone hphone)
    rw [hpcId]
    exact ⟨signing, hsignings hsigning, hanswers⟩

theorem check_verified {a app : Authenticator} {auth : AuthMessage} {nonce : String}
    (h : a.check verify auth nonce = .ok app) :
    app.pcId = a.pcId ∧ ∃ publicKey, a.verifiedKey auth = some publicKey ∧
      verifySignature verify a.pcId auth nonce publicKey = .ok () := by
  have hmap : ∀ {r : Except String Unit} {b : Authenticator},
      (r.map fun _ => b) = .ok app → app = b ∧ r = .ok () := by
    intro r b hr
    cases r with
    | error e => cases hr
    | ok u =>
      cases hr
      exact ⟨rfl, rfl⟩
  unfold Authenticator.check at h
  unfold Authenticator.verifiedKey
  split at h
  · cases h
  · split at h
    · next hpair =>
      split at h
      · cases h
      · split at h
        · cases h
        · split at h
          · cases h
          · next publicKey hkey =>
            obtain ⟨rfl, hverified⟩ := hmap h
            rw [if_pos hpair]
            exact ⟨rfl, publicKey, hkey, hverified⟩
    · next hpair =>
      split at h
      · split at h
        · cases h
        · next publicKey hkey =>
          obtain ⟨rfl, hverified⟩ := hmap h
          rw [if_neg hpair]
          exact ⟨rfl, publicKey, hkey, hverified⟩
      · cases h

theorem write_pcId {a app : Authenticator} {now : Nat} {saved : Bool}
    {answer : Option (Except String Unit)} (h : a.write now saved = some (app, answer)) :
    app.pcId = a.pcId := by
  unfold Authenticator.write at h
  split at h
  · cases saved <;> cases h <;> rfl
  · split at h
    · cases h
      rfl
    · cases saved <;> cases h <;> rfl
  · cases h

theorem restore_pcId {a app : Authenticator} (h : a.restore = some app) : app.pcId = a.pcId := by
  unfold Authenticator.restore at h
  split at h
  · cases h
    rfl
  · cases h

theorem Inv.withApp {app : Authenticator} {checked : Option Checked} {accepted : List Checked}
    (h : s.Inv verify) (hpcId : app.pcId = s.app.pcId)
    (hsub : (checked.toList ++ accepted).Sublist (s.checked.toList ++ s.accepted)) :
    Inv verify { s with app := app, checked := checked, accepted := accepted } := by
  constructor
  · exact h.plain
  · exact h.drawn
  · exact h.keys
  · exact h.stored
  · exact h.signer
  · exact h.later
  · intro c hc
    apply (h.known c (hsub.subset hc)).grow
    · exact hpcId
    · exact List.Subset.refl _
    · exact List.prefix_rfl
    · intro phone hphone
      unfold Owns at hphone ⊢
      rw [← hpcId]
      exact hphone
    · exact List.Subset.refl _
  · exact h.once.sublist (hsub.map _)

theorem stepConnect_inv {nonce : String} (h : s.Inv verify) (hs : s.stepConnect nonce = some t) :
    t.Inv verify := by
  unfold stepConnect at hs
  split at hs
  · cases hs
  · next hguard =>
    obtain ⟨hplain, hnew, hguess⟩ : '\x00' ∉ nonce.toList ∧ nonce ∉ s.nonces ∧
        ¬∃ signing ∈ s.signings, '\x00' :: nonce.toList <:+ signing.payload.toList := by
      simpa only [not_or] using hguard
    cases hs
    constructor
    · intro other hother
      rcases List.mem_append.mp hother with hold | hlast
      · exact h.plain other hold
      · rw [List.mem_singleton.mp hlast]
        exact hplain
    · apply List.Nodup.append h.drawn (List.nodup_singleton _)
      exact List.disjoint_singleton.mpr hnew
    · exact h.keys
    · exact h.stored
    · exact h.signer
    · intro signing hsigning i other hother hsuffix
      by_cases hi : i < s.nonces.length
      · rw [List.getElem?_append_left hi] at hother
        exact h.later signing hsigning i other hother hsuffix
      -- no payload that was signed before ends in the nonce drawn now
      · rw [List.getElem?_append_right (by omega)] at hother
        have hlast : other = nonce := by
          have hmem := List.mem_of_getElem? hother
          exact List.mem_singleton.mp hmem
        rw [hlast] at hsuffix
        exact absurd ⟨signing, hsigning, hsuffix⟩ hguess
    · intro c hc
      apply (h.known c hc).grow
      · rfl
      · exact List.Subset.refl _
      · exact List.prefix_append _ _
      · exact fun _ hphone => hphone
      · exact List.Subset.refl _
    · exact h.once

/-- The key of a phone is that of no other phone. -/
theorem Inv.phone_eq (h : s.Inv verify) {key key' : KeyPair} (hkey : key ∈ s.keys)
    (hkey' : key' ∈ s.keys) (heq : key.publicKey = key'.publicKey) : key = key' :=
  List.inj_on_of_nodup_map h.keys hkey hkey' heq

theorem Inv.attempt_known {connection : Nat} {auth : AuthMessage} {nonce publicKey : String}
    (h : s.Inv verify) (hunforged : s.Unforged verify (.attempt connection auth))
    (hnonce : s.nonces[connection]? = some nonce) (hkey : s.app.verifiedKey auth = some publicKey)
    (hverified : verifySignature verify s.app.pcId auth nonce publicKey = .ok ())
    (htried : connection ∈ t.tried) (hpcId : t.app.pcId = s.app.pcId)
    (hnonces : t.nonces = s.nonces) (hkeys : t.keys = s.keys)
    (hsignings : t.signings = s.signings) :
    t.Known verify ⟨connection, nonce, auth, publicKey⟩ := by
  constructor
  · exact htried
  · rw [hnonces]
    exact hnonce
  · rw [hpcId]
    exact hverified
  · intro phone hphone
    unfold Owns at hphone
    rw [hkeys, hpcId] at hphone
    obtain ⟨signing, hsigning, hpublicKey, hpayload⟩ :=
      hunforged nonce hnonce publicKey hkey _ hphone rfl rfl hverified
    -- a key is in the list once, so it was its owner who has signed
    obtain ⟨pcId, hsigner⟩ := h.signer signing hsigning
    have hsame := h.phone_eq hsigner hphone hpublicKey
    rw [hsignings, hpcId]
    refine ⟨signing, hsigning, hpublicKey, congrArg KeyPair.phone hsame, hpayload, ?_⟩
    -- the payload ends in the nonce of this connection, so the nonce was drawn before
    apply h.later signing hsigning connection nonce hnonce
    rw [hpayload]
    exact authPayload_suffix _ _ _

theorem stepAttempt_inv {connection : Nat} {auth : AuthMessage} (h : s.Inv verify)
    (hunforged : s.Unforged verify (.attempt connection auth))
    (hs : s.stepAttempt verify connection auth = some t) : t.Inv verify := by
  unfold stepAttempt at hs
  split at hs
  · cases hs
  · next hguard =>
    have huntried : connection ∉ s.tried := fun hin => hguard (Or.inr hin)
    obtain ⟨nonce, hnonce, ht⟩ := Option.map_eq_some_iff.mp hs
    -- in both outcomes what was known stays known
    have hold : ∀ {u : AuthRun}, u.app.pcId = s.app.pcId → u.tried = connection :: s.tried →
        u.nonces = s.nonces → u.keys = s.keys → u.signings = s.signings →
        ∀ c ∈ s.checked.toList ++ s.accepted, u.Known verify c := by
      intro u hpcId htried hnonces hkeys hsignings c hc
      apply (h.known c hc).grow hpcId
      · rw [htried]
        exact List.subset_cons_self _ _
      · exact hnonces ▸ List.prefix_rfl
      · intro phone hphone
        unfold Owns at hphone ⊢
        rw [hkeys, hpcId] at hphone
        exact hphone
      · rw [hsignings]
        exact List.Subset.refl _
    cases hcheck : s.app.check verify auth nonce with
    | error e =>
      simp only [hcheck] at ht
      rw [← ht]
      exact ⟨h.plain, h.drawn, h.keys, h.stored, h.signer, h.later, hold rfl rfl rfl rfl rfl,
        h.once⟩
    | ok app =>
      obtain ⟨hpcId, publicKey, hkey, hverified⟩ := check_verified hcheck
      simp only [hcheck, hkey, Option.map_some] at ht
      rw [← ht]
      constructor
      · exact h.plain
      · exact h.drawn
      · exact h.keys
      · exact h.stored
      · exact h.signer
      · exact h.later
      · intro c hc
        rcases List.mem_cons.mp hc with rfl | hc
        · exact h.attempt_known hunforged hnonce hkey hverified List.mem_cons_self hpcId rfl rfl rfl
        · apply hold
          · exact hpcId
          · rfl
          · rfl
          · rfl
          · rfl
          · exact List.mem_append_right _ hc
      -- the connections of `accepted` have all been tried
      · have hfresh : connection ∉ s.accepted.map (·.connection) := by
          intro hin
          obtain ⟨c, hc, rfl⟩ := List.mem_map.mp hin
          exact huntried (h.known c (List.mem_append_right _ hc)).tried
        have hrest : (s.accepted.map (·.connection)).Nodup :=
          h.once.sublist ((List.sublist_append_right _ _).map _)
        exact List.nodup_cons.mpr ⟨hfresh, hrest⟩

theorem stepWrite_inv {now : Nat} {saved : Bool} (h : s.Inv verify)
    (hs : s.stepWrite now saved = some t) : t.Inv verify := by
  obtain ⟨⟨app, answer⟩, hwrite, ht⟩ := Option.map_eq_some_iff.mp hs
  have hpcId := write_pcId hwrite
  have hlost : Inv verify { s with app := app, checked := none } :=
    h.withApp hpcId (List.sublist_append_right _ _)
  rw [← ht]
  match answer with
  | some (.ok _) => exact h.withApp hpcId (List.Sublist.refl _)
  | some (.error _) => exact hlost
  | none => exact hlost

theorem keyPair_inv {phone : Nat} {pcId newKey publicKey : String} (h : s.Inv verify)
    (hs : s.keyPair phone pcId newKey = some (t, publicKey)) :
    t.Inv verify ∧ ⟨publicKey, phone, pcId⟩ ∈ t.keys ∧ t.nonces = s.nonces := by
  unfold keyPair at hs
  split at hs
  · next stored hstored =>
    cases hs
    exact ⟨h, h.stored phone pcId publicKey hstored, rfl⟩
  · split at hs
    · cases hs
    · next hguard =>
      obtain ⟨hnew, hunused⟩ := not_or.mp hguard
      cases hs
      refine ⟨?_, List.mem_cons_self, rfl⟩
      constructor
      · exact h.plain
      · exact h.drawn
      · exact List.nodup_cons.mpr ⟨hnew, h.keys⟩
      · intro phone' pcId' other hother
        by_cases hphone : phone' = phone
        · by_cases hpc : pcId' = pcId
          · rw [hphone, hpc] at hother ⊢
            simp only [Function.update_self, Option.some.injEq] at hother
            rw [hother]
            exact List.mem_cons_self
          · rw [hphone] at hother ⊢
            simp only [Function.update_self, Function.update_of_ne hpc] at hother
            exact List.mem_cons_of_mem _ (h.stored phone pcId' other hother)
        · simp only [Function.update_of_ne hphone] at hother
          exact List.mem_cons_of_mem _ (h.stored phone' pcId' other hother)
      · intro signing hsigning
        obtain ⟨pc, hpc⟩ := h.signer signing hsigning
        exact ⟨pc, List.mem_cons_of_mem _ hpc⟩
      · exact h.later
      · intro c hc
        apply (h.known c hc).grow
        · rfl
        · exact List.Subset.refl _
        · exact List.prefix_rfl
        · intro other hother
          rcases List.mem_cons.mp hother with heq | hold
          -- a key that a message was checked against is not generated afterwards
          · have hpublicKey : c.publicKey = newKey := congrArg KeyPair.publicKey heq
            exact absurd (List.mem_map.mpr ⟨c, hc, hpublicKey⟩) hunused
          · exact hold
        · exact List.Subset.refl _
      · exact h.once

theorem stepAnswer_inv {phone : Nat} {phoneId newKey : String} {current : BindingStore.Binding}
    {challenge : Challenge} (h : s.Inv verify)
    (hs : s.stepAnswer phone phoneId current challenge newKey = some t) : t.Inv verify := by
  unfold stepAnswer at hs
  split at hs
  · cases hs
    exact h
  · obtain ⟨⟨u, publicKey⟩, hpair, ht⟩ := Option.map_eq_some_iff.mp hs
    obtain ⟨hu, hkey, -⟩ := keyPair_inv h hpair
    rw [← ht]
    constructor
    · exact hu.plain
    · exact hu.drawn
    · exact hu.keys
    · exact hu.stored
    · intro signing hsigning
      rcases List.mem_cons.mp hsigning with rfl | hold
      · exact ⟨current.pcId, hkey⟩
      · exact hu.signer signing hold
    · intro signing hsigning i nonce hnonce hsuffix
      rcases List.mem_cons.mp hsigning with rfl | hold
      · exact (List.getElem?_eq_some_iff.mp hnonce).1
      · exact hu.later signing hold i nonce hnonce hsuffix
    · intro c hc
      apply (hu.known c hc).grow
      · rfl
      · exact List.Subset.refl _
      · exact List.prefix_rfl
      · exact fun _ hphone => hphone
      · exact List.subset_cons_self _ _
    · exact hu.once

theorem deleteKey_inv {phone : Nat} {pcId : String} (h : s.Inv verify) :
    Inv verify { s with
      keyStore := Function.update s.keyStore phone
        (Function.update (s.keyStore phone) pcId none) } := by
  have hstored : ∀ phone' pcId' publicKey, Function.update s.keyStore phone
      (Function.update (s.keyStore phone) pcId none) phone' pcId' = some publicKey →
      ⟨publicKey, phone', pcId'⟩ ∈ s.keys := by
    intro phone' pcId' publicKey hkey
    by_cases hphone : phone' = phone
    · rw [hphone, Function.update_self] at hkey
      rw [hphone]
      by_cases hpc : pcId' = pcId
      · rw [hpc, Function.update_self] at hkey
        cases hkey
      · rw [Function.update_of_ne hpc] at hkey
        exact h.stored phone pcId' publicKey hkey
    · rw [Function.update_of_ne hphone] at hkey
      exact h.stored phone' pcId' publicKey hkey
  exact ⟨h.plain, h.drawn, h.keys, hstored, h.signer, h.later, fun c hc =>
    (h.known c hc).grow rfl (List.Subset.refl _) List.prefix_rfl (fun _ hphone => hphone)
      (List.Subset.refl _), h.once⟩

theorem step_inv {e : Event} (h : s.Inv verify) (hunforged : s.Unforged verify e)
    (hs : s.step verify e = some t) : t.Inv verify := by
  cases e with
  | connect nonce => exact stepConnect_inv h hs
  | attempt connection auth => exact stepAttempt_inv h hunforged hs
  | write now saved => exact stepWrite_inv h hs
  | restore =>
    obtain ⟨app, hrestore, rfl⟩ := Option.map_eq_some_iff.mp hs
    exact h.withApp (restore_pcId hrestore) (List.Sublist.refl _)
  | beginPairing token =>
    cases hs
    exact h.withApp rfl (List.Sublist.refl _)
  | cancelPairing =>
    cases hs
    exact h.withApp rfl (List.Sublist.refl _)
  | removePhone phoneId saved =>
    cases hs
    apply h.withApp _ (List.Sublist.refl _)
    unfold Authenticator.removePhone
    cases saved <;> rfl
  | answer phone phoneId current challenge newKey => exact stepAnswer_inv h hs
  | deleteKey phone pcId =>
    cases hs
    exact deleteKey_inv h

theorem Inv.authenticated (h : s.Inv verify) : s.Authenticated verify := by
  have hknown : ∀ c ∈ s.accepted, s.Known verify c :=
    fun c hc => h.known c (List.mem_append_right _ hc)
  have honce : (s.accepted.map (·.connection)).Nodup :=
    h.once.sublist ((List.sublist_append_right _ _).map _)
  constructor
  · exact honce
  · exact fun c hc => ⟨(hknown c hc).nonce, (hknown c hc).verified⟩
  · exact fun c hc => (hknown c hc).answered
  · intro c hc c' hc' phone phone' signing hanswers hanswers'
    have hsuffix := authPayload_suffix s.app.pcId c.auth.phoneId c.nonce
    have hsuffix' := authPayload_suffix s.app.pcId c'.auth.phoneId c'.nonce
    rw [← hanswers.payload] at hsuffix
    rw [← hanswers'.payload] at hsuffix'
    have hnonce := (hknown c hc).nonce
    have hnonce' := (hknown c' hc').nonce
    have hplain := h.plain c.nonce (List.mem_of_getElem? hnonce)
    have hplain' := h.plain c'.nonce (List.mem_of_getElem? hnonce')
    -- both nonces stand after the last mark of one payload
    have hsame : c.nonce = c'.nonce :=
      String.toList_inj.mp (eq_of_suffixes hplain hplain' hsuffix hsuffix')
    -- no two connections have drawn the same nonce
    have hconnection : c.connection = c'.connection := by
      obtain ⟨hi, hget⟩ := List.getElem?_eq_some_iff.mp hnonce
      obtain ⟨hi', hget'⟩ := List.getElem?_eq_some_iff.mp hnonce'
      exact (h.drawn.getElem_inj_iff).mp (hget.trans (hsame.trans hget'.symm))
    exact List.inj_on_of_nodup_map honce hc hc' hconnection

/-- Whoever sends whatever to the computer: where no signature is forged, a phone is accepted only
on a connection whose challenge it has answered itself. -/
theorem authenticated_run {verify : Verifier} {pcId : String} {pairedPhones : PairedPhones}
    {es : List Event} {s : AuthRun}
    (hunforged : Along (step verify) (Unforged verify) (start pcId pairedPhones) es)
    (hr : run (step verify) (start pcId pairedPhones) es = some s) : s.Authenticated verify := by
  have hreach : Reach (step verify) (Unforged verify) (start pcId pairedPhones) s :=
    Reach.start.run es hunforged hr
  exact (hreach.invariant (Inv verify) (start_inv pcId pairedPhones)
    fun _ _ _ hinv hok hs => step_inv hinv hok hs).authenticated

/-- A signature names its key and repeats the payload. -/
def namedKey : Verifier := fun publicKey payload signature =>
  if signature = publicKey ++ ":" ++ payload then .ok () else .error "signature verification failed"

def desk : BindingStore.Binding where
  pcId := "desk"
  pcName := "Desk"
  endpoint := "wss://10.0.0.2:43118/v1/sync"
  tlsSpkiSha256 := "pin"

def phoneMessage (pairingToken : Option String) (nonce : String) : AuthMessage :=
  (syncAuthenticate "phone" "Pixel" "key" ("key:" ++ ·) { desk with pairingToken }
    { pcId := "desk", nonce }).getD
      { messageType := "", phoneId := "", phoneName := "", signature := "" }

def pairAndReplay : List Event :=
  [.beginPairing "token", .connect "first",
    .answer 0 "phone" { desk with pairingToken := some "token" }
      { pcId := "desk", nonce := "first" } "key",
    .attempt 0 (phoneMessage (some "token") "first"), .write 5 true,
    .connect "second", .answer 0 "phone" desk { pcId := "desk", nonce := "second" } "unused",
    .attempt 1 (phoneMessage none "second"), .write 6 true,
    .connect "third", .attempt 2 (phoneMessage none "second")]

theorem authenticated_pairAndReplay : ∃ s,
    run (step namedKey) (start "desk" fun _ => none) pairAndReplay = some s ∧
      s.accepted.map (·.connection) = [1, 0] ∧ s.Owns 0 "key" ∧ s.Authenticated namedKey := by
  have hcheck : ∃ s, run (step namedKey) (start "desk" fun _ => none) pairAndReplay = some s ∧
      s.accepted.map (·.connection) = [1, 0] ∧ s.Owns 0 "key" := by
    have hsome : (run (step namedKey) (start "desk" fun _ => none) pairAndReplay).isSome = true ∧
        ∀ s ∈ run (step namedKey) (start "desk" fun _ => none) pairAndReplay,
          s.accepted.map (·.connection) = [1, 0] ∧ ⟨"key", 0, s.app.pcId⟩ ∈ s.keys := by
      decide +kernel
    obtain ⟨s, hs⟩ := Option.isSome_iff_exists.mp hsome.1
    exact ⟨s, hs, hsome.2 s hs⟩
  obtain ⟨s, hr, haccepted, howns⟩ := hcheck
  exact ⟨s, hr, haccepted, howns, authenticated_run (by decide +kernel) hr⟩

end AuthRun

end FlowType
