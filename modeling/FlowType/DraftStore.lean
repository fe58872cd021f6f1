import Mathlib.Logic.Function.Basic
import FlowType.Phone

/-! `SecureDraftStore`: a parked session is written as one JSON object, encrypted
and kept in the preferences under a key of its computer. Cipher, Base64 and the
JSON text are a codec that round-trips; what is modelled is which fields are
written, under which names, and how they are read back. -/
namespace FlowType

/-- The values that `save` puts into a `JSONObject`. -/
inductive JsonValue
  | string (value : String)
  | long (value : Int)
  | boolean (value : Bool)
  deriving DecidableEq, Repr

abbrev JSONObject := List (String × JsonValue)

namespace JSONObject

/-- `put`: a null value removes the mapping. -/
def put (o : JSONObject) (name : String) : Option JsonValue → JSONObject
  | none => o.filter fun entry => decide (entry.1 ≠ name)
  | some value => (o.filter fun entry => decide (entry.1 ≠ name)) ++ [(name, value)]

def get? (o : JSONObject) (name : String) : Option JsonValue := o.lookup name

/-- The conversion that `getString` and `optString` apply to a value. -/
def text : JsonValue → String
  | .string value => value
  | .long value => toString value
  | .boolean value => toString value

def optString (o : JSONObject) (name : String) : String := ((o.get? name).map text).getD ""

def getString (o : JSONObject) (name : String) : Option String := (o.get? name).map text

/-- Numbers only: `save` never writes a number as a string. -/
def getLong (o : JSONObject) (name : String) : Option Int :=
  match o.get? name with
  | some (.long value) => some value
  | _ => none

def getBoolean (o : JSONObject) (name : String) : Option Bool :=
  match o.get? name with
  | some (.boolean value) => some value
  | _ => none

def optBoolean (o : JSONObject) (name : String) (fallback : Bool) : Bool :=
  (o.getBoolean name).getD fallback

end JSONObject

/-- What lies between a `JSONObject` and the stored string: the JSON text, the
cipher and Base64. `base64` encodes the computer in the storage key. -/
structure DraftCodec where
  encode : JSONObject → String
  decode : String → Option JSONObject
  base64 : String → String
  decode_encode : ∀ o, decode (encode o) = some o

abbrev Preferences := String → Option String

namespace DraftStore

def LEGACY_KEY : String := "encrypted_state"

def storageKey (codec : DraftCodec) (pcId : String) : String :=
  "encrypted_state_" ++ codec.base64 pcId

/-- The state that is stored as deletion. -/
def Blank (state : InputSession.State) : Prop :=
  state.sessionId = none ∧ state.text = "" ∧ state.replacementSessionId = none

instance (state : InputSession.State) : Decidable (Blank state) :=
  inferInstanceAs (Decidable (_ ∧ _ ∧ _))

def plaintext (draft : ParkedSession) : JSONObject :=
  JSONObject.put [] "session_id" (draft.state.sessionId.map .string)
    |>.put "text" (some (.string draft.state.text))
    |>.put "latest_sequence" (some (.long draft.state.latestSequence))
    |>.put "acknowledged_sequence" (some (.long draft.state.acknowledgedSequence))
    |>.put "finishing" (some (.boolean draft.state.finishing))
    |>.put "replacement_session_id" (draft.state.replacementSessionId.map .string)
    |>.put "attach_existing_at_cursor" (some (.boolean draft.state.attachExistingAtCursor))
    |>.put "remote_started" (some (.boolean draft.remoteStarted))

def clear (codec : DraftCodec) (preferences : Preferences) (pcId : String) : Preferences :=
  Function.update preferences (storageKey codec pcId) none

def save (codec : DraftCodec) (preferences : Preferences) (pcId : String)
    (draft : ParkedSession) : Preferences :=
  if Blank draft.state then clear codec preferences pcId
  else Function.update preferences (storageKey codec pcId) (some (codec.encode (plaintext draft)))

def ifEmptyNull (value : String) : Option String := if value = "" then none else some value

/-- Reading a decrypted object; a missing required field is `none`. -/
def parse (value : JSONObject) : Option ParkedSession := do
  let text ← value.getString "text"
  let latestSequence ← value.getLong "latest_sequence"
  let acknowledgedSequence ← value.getLong "acknowledged_sequence"
  let finishing ← value.getBoolean "finishing"
  return {
    state := {
      sessionId := ifEmptyNull (value.optString "session_id")
      text, latestSequence, acknowledgedSequence, finishing
      replacementSessionId := ifEmptyNull (value.optString "replacement_session_id")
      attachExistingAtCursor := value.optBoolean "attach_existing_at_cursor" false }
    remoteStarted := value.optBoolean "remote_started" false }

/-- The stored string of a computer; a draft under the legacy key is moved first. -/
def stored (codec : DraftCodec) (preferences : Preferences) (pcId : String) :
    Preferences × Option String :=
  match preferences (storageKey codec pcId) with
  | some value => (preferences, some value)
  | none =>
    match preferences LEGACY_KEY with
    | some value =>
      (Function.update (Function.update preferences (storageKey codec pcId) (some value))
        LEGACY_KEY none, some value)
    | none => (preferences, none)

/-- A draft that cannot be read is cleared. -/
def load (codec : DraftCodec) (preferences : Preferences) (pcId : String) :
    Preferences × Option ParkedSession :=
  match stored codec preferences pcId with
  | (preferences, none) => (preferences, none)
  | (preferences, some value) =>
    match (codec.decode value).bind parse with
    | some draft => (preferences, some draft)
    | none => (clear codec preferences pcId, none)

def Named (state : InputSession.State) : Prop :=
  state.sessionId ≠ some "" ∧ state.replacementSessionId ≠ some ""

theorem ifEmptyNull_getD {id : Option String} (h : id ≠ some "") :
    ifEmptyNull (id.getD "") = id := by
  cases id with
  | none => rfl
  | some value =>
    have hne : value ≠ "" := by
      intro hv
      exact h (by rw [hv])
    simp [ifEmptyNull, hne]

/-- Each field is read back as it was written, whether or not the two
identifiers are present. -/
theorem parse_plaintext (draft : ParkedSession) (h : Named draft.state) :
    parse (plaintext draft) = some draft := by
  obtain ⟨⟨sessionId, text, latest, acknowledged, finishing, replacement, attach⟩, started⟩ := draft
  have hid := ifEmptyNull_getD h.1
  have hrep := ifEmptyNull_getD h.2
  cases sessionId <;> cases replacement <;>
    simp_all [parse, plaintext, JSONObject.put, JSONObject.get?, JSONObject.getString,
      JSONObject.getLong, JSONObject.getBoolean, JSONObject.optString, JSONObject.optBoolean,
      JSONObject.text, List.lookup_cons]

/-- A stored draft is loaded as it was saved. -/
theorem load_save (codec : DraftCodec) (preferences : Preferences) (pcId : String)
    (draft : ParkedSession) (hb : ¬ Blank draft.state) (hn : Named draft.state) :
    load codec (save codec preferences pcId draft) pcId =
      (save codec preferences pcId draft, some draft) := by
  have hkey : save codec preferences pcId draft (storageKey codec pcId) =
      some (codec.encode (plaintext draft)) := by
    simp only [save, hb, if_false, Function.update_self]
  have hst : stored codec (save codec preferences pcId draft) pcId =
      (save codec preferences pcId draft, some (codec.encode (plaintext draft))) := by
    simp only [stored, hkey]
  have hparse : (codec.decode (codec.encode (plaintext draft))).bind parse = some draft := by
    rw [codec.decode_encode, Option.bind_some, parse_plaintext draft hn]
  simp only [load, hst, hparse]

end DraftStore

end FlowType
