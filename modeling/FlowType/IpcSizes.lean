import FlowType.Injector
import FlowType.JsonText

/-! The messages on the pipes to the injector and to the text services, as `serde_json` writes
them, and which frames of a phone lead to messages that all fit the limit of the pipes. -/
namespace FlowType

/-- A text as `serde_json` writes it. -/
def serdeString (text : String) : String := quoteWith serdeEscapeChar text

def serdeBool (value : Bool) : String := if value then "true" else "false"

def InjectorRequest.encode : InjectorRequest → String
  | .beginSession sessionId replacesSessionId sequence fullText attachExisting =>
    jsonObject
      [("type", serdeString "begin_session"), ("session_id", serdeString sessionId),
        ("replaces_session_id", (replacesSessionId.map serdeString).getD "null"),
        ("sequence", toString sequence), ("full_text", serdeString fullText),
        ("attach_existing", serdeBool attachExisting)]
  | .applyState sessionId sequence fullText =>
    jsonObject
      [("type", serdeString "apply_state"), ("session_id", serdeString sessionId),
        ("sequence", toString sequence), ("full_text", serdeString fullText)]
  | .finishSession sessionId sequence =>
    jsonObject
      [("type", serdeString "finish_session"), ("session_id", serdeString sessionId),
        ("sequence", toString sequence)]
  | .querySession sessionId =>
    jsonObject [("type", serdeString "query_session"), ("session_id", serdeString sessionId)]
  | .probeTarget => jsonObject [("type", serdeString "probe_target")]
  | .cancelInvalidSession sessionId =>
    jsonObject
      [("type", serdeString "cancel_invalid_session"), ("session_id", serdeString sessionId)]

def TipCommand.encode : TipCommand → String
  | .begin sessionId sequence fullText attachExisting =>
    jsonObject
      [("type", serdeString "begin"), ("session_id", serdeString sessionId),
        ("sequence", toString sequence), ("full_text", serdeString fullText),
        ("attach_existing", serdeBool attachExisting)]
  | .update sessionId sequence fullText =>
    jsonObject
      [("type", serdeString "update"), ("session_id", serdeString sessionId),
        ("sequence", toString sequence), ("full_text", serdeString fullText)]
  | .finish sessionId sequence =>
    jsonObject
      [("type", serdeString "finish"), ("session_id", serdeString sessionId),
        ("sequence", toString sequence)]
  | .cancel sessionId =>
    jsonObject [("type", serdeString "cancel"), ("session_id", serdeString sessionId)]
  | .query sessionId =>
    jsonObject [("type", serdeString "query"), ("session_id", serdeString sessionId)]

/-- The responses that echo a text: `SessionActive`, and `SessionFinished` when `finished`. -/
def echoResponse (finished : Bool) (sessionId : String) (sequence : Int) (fullText : String) :
    String :=
  jsonObject
    [("type", serdeString (if finished then "session_finished" else "session_active")),
      ("session_id", serdeString sessionId), ("sequence", toString sequence),
      ("full_text", serdeString fullText)]

/-! ### Reading a frame -/

namespace Json

/-- `u16` and `i64` take the integers that fit them. -/
def asU16 (value : Json) : Option Nat :=
  (value.asInteger.filter fun n => decide (0 ≤ n ∧ n < 2 ^ 16)).map Int.toNat

def asI64 (value : Json) : Option Int :=
  value.asInteger.filter fun n => decide (-2 ^ 63 ≤ n ∧ n < 2 ^ 63)

/-- `Option<String>` with a default: it may be missing or null. -/
def readOptional (ms : List (List Char × Json)) (key : String) : Option (Option String) :=
  match get ms key with
  | none => some none
  | some .null => some none
  | some value => value.asString.map some

/-- `bool` with a default. -/
def readFlag (ms : List (List Char × Json)) (key : String) : Option Bool :=
  match get ms key with
  | none => some false
  | some (.bool value) => some value
  | some _ => none

def readSnapshot (type : SnapshotType) (ms : List (List Char × Json)) :
    Option SnapshotMessage := do
  let protocolVersion ← (get ms "protocol_version").bind asU16
  let phoneId ← (get ms "phone_id").bind asString
  let sessionId ← (get ms "session_id").bind asString
  let sequence ← (get ms "sequence").bind asI64
  let fullText ← (get ms "full_text").bind asString
  let replacesSessionId ← readOptional ms "replaces_session_id"
  let attachExisting ← readFlag ms "attach_existing"
  some { type, protocolVersion, phoneId, sessionId, sequence, fullText, replacesSessionId,
         attachExisting }

def sessionStateOf (name : String) : Option ClientSessionState :=
  if name = "active" then some .active else if name = "finishing" then some .finishing else none

/-- A variant without data: its name, or an object of the name and null. -/
def asSessionState : Json → Option ClientSessionState
  | .string text => sessionStateOf (String.ofList text)
  | .object ms =>
    match ms.getLast? with
    | some (key, .null) =>
      if ms.all (fun member => member.1 == key) = true then sessionStateOf (String.ofList key)
      else none
    | _ => none
  | _ => none

def readResume (ms : List (List Char × Json)) : Option ResumeMessage := do
  let protocolVersion ← (get ms "protocol_version").bind asU16
  let phoneId ← (get ms "phone_id").bind asString
  let sessionId ← (get ms "session_id").bind asString
  let lastAckSequence ← (get ms "last_ack_sequence").bind asI64
  let sequence ← (get ms "sequence").bind asI64
  let fullText ← (get ms "full_text").bind asString
  let sessionState ← (get ms "session_state").bind asSessionState
  some { protocolVersion, phoneId, sessionId, lastAckSequence, sequence, fullText, sessionState }

def SNAPSHOT_FIELDS : List String :=
  ["protocol_version", "phone_id", "session_id", "sequence", "full_text", "replaces_session_id",
    "attach_existing"]

def RESUME_FIELDS : List String :=
  ["protocol_version", "phone_id", "session_id", "last_ack_sequence", "sequence", "full_text",
    "session_state"]

def readTagged (tag : String) (fields : List String → Option (List (List Char × Json))) :
    Option ClientMessage :=
  if tag = "start" then
    (fields SNAPSHOT_FIELDS).bind fun ms => (readSnapshot .start ms).map .start
  else if tag = "update" then
    (fields SNAPSHOT_FIELDS).bind fun ms => (readSnapshot .update ms).map .update
  else if tag = "finish" then
    (fields SNAPSHOT_FIELDS).bind fun ms => (readSnapshot .finish ms).map .finish
  else if tag = "resume" then
    (fields RESUME_FIELDS).bind fun ms => (readResume ms).map .resume
  else none

/-- The start, update, finish or resume that `serde_json` makes of a value. A tagged message
may also be written as an array: its tag, then its fields in order. -/
def readInput : Json → Option ClientMessage
  | .object ms => (get ms "type").bind asString |>.bind fun tag => readTagged tag fun _ => some ms
  | .array (tag :: es) => tag.asString.bind fun tag => readTagged tag fun names =>
      if es.length ≤ names.length then some ((names.map String.toList).zip es) else none
  | _ => none

end Json

/-! ### What is written for a message -/

namespace ClientMessage

def validate : ClientMessage → Except ValidationError Unit
  | .start message => message.validate
  | .update message => message.validate
  | .finish message => message.validate
  | .resume message => message.validate
  | .cancel message => message.validate

def sessionId : ClientMessage → String
  | .start message => message.sessionId
  | .update message => message.sessionId
  | .finish message => message.sessionId
  | .resume message => message.sessionId
  | .cancel message => message.sessionId

def sequence : ClientMessage → Int
  | .start message => message.sequence
  | .update message => message.sequence
  | .finish message => message.sequence
  | .resume message => message.sequence
  | .cancel _ => 0

def fullText : ClientMessage → String
  | .start message => message.fullText
  | .update message => message.fullText
  | .finish message => message.fullText
  | .resume message => message.fullText
  | .cancel _ => ""

def phoneId : ClientMessage → String
  | .start message => message.phoneId
  | .update message => message.phoneId
  | .finish message => message.phoneId
  | .resume message => message.phoneId
  | .cancel message => message.phoneId

/-- The requests to the injector: a start begins the session before its text is applied; every
session is queried, finished or canceled at some time. -/
def requests (m : ClientMessage) : List InjectorRequest :=
  (match m with
    | .start snapshot => [.beginSession snapshot.sessionId snapshot.replacesSessionId
        snapshot.sequence snapshot.fullText snapshot.attachExisting]
    | _ => []) ++
  [.applyState m.sessionId m.sequence m.fullText, .finishSession m.sessionId m.sequence,
    .querySession m.sessionId, .cancelInvalidSession m.sessionId]

def commands (m : ClientMessage) : List TipCommand :=
  (match m with
    | .start snapshot => [.begin snapshot.sessionId snapshot.sequence snapshot.fullText
        snapshot.attachExisting]
    | _ => []) ++
  [.update m.sessionId m.sequence m.fullText, .finish m.sessionId m.sequence,
    .cancel m.sessionId, .query m.sessionId]

/-- What `write_message` gets for the message, and for the responses that echo its text. -/
def payloads (m : ClientMessage) : List String :=
  m.requests.map InjectorRequest.encode ++ m.commands.map TipCommand.encode ++
    [echoResponse false m.sessionId m.sequence m.fullText,
      echoResponse true m.sessionId m.sequence m.fullText]

/-- `write_message` fails on none of them. -/
def FitsIpc (m : ClientMessage) : Prop :=
  ∀ payload ∈ m.payloads, payload.utf8ByteSize ≤ MAX_MESSAGE_BYTES

def textSize (m : ClientMessage) : Nat :=
  (serdeString m.sessionId).utf8ByteSize + (toString m.sequence).utf8ByteSize +
    (serdeString m.fullText).utf8ByteSize

end ClientMessage

theorem nameSizes : (quote "type").utf8ByteSize = 6 ∧ (quote "session_id").utf8ByteSize = 12 ∧
    (quote "sequence").utf8ByteSize = 10 ∧ (quote "full_text").utf8ByteSize = 11 ∧
    (quote "replaces_session_id").utf8ByteSize = 21 ∧
    (quote "attach_existing").utf8ByteSize = 17 := by decide

theorem serdeBool_size (value : Bool) :
    (serdeBool value).utf8ByteSize = if value then 4 else 5 := by
  cases value <;> decide

theorem beginSession_size (sessionId : String) (replaces : Option String) (sequence : Int)
    (fullText : String) (attach : Bool) :
    (InjectorRequest.beginSession sessionId replaces sequence fullText attach).encode.utf8ByteSize =
      105 + ((replaces.map serdeString).getD "null").utf8ByteSize +
        (serdeBool attach).utf8ByteSize + ((serdeString sessionId).utf8ByteSize +
          (toString sequence).utf8ByteSize + (serdeString fullText).utf8ByteSize) := by
  have hkind : (serdeString "begin_session").utf8ByteSize = 15 := by decide
  obtain ⟨htype, hid, hsequence, htext, hreplaces, hattach⟩ := nameSizes
  rw [InjectorRequest.encode, jsonObject_size (by simp)]
  simp only [List.map_cons, List.map_nil, List.sum_cons, List.sum_nil]
  omega

theorem tipBegin_size (sessionId : String) (sequence : Int) (fullText : String) (attach : Bool) :
    (TipCommand.begin sessionId sequence fullText attach).encode.utf8ByteSize =
      74 + (serdeBool attach).utf8ByteSize + ((serdeString sessionId).utf8ByteSize +
        (toString sequence).utf8ByteSize + (serdeString fullText).utf8ByteSize) := by
  have hkind : (serdeString "begin").utf8ByteSize = 7 := by decide
  obtain ⟨htype, hid, hsequence, htext, -, hattach⟩ := nameSizes
  rw [TipCommand.encode, jsonObject_size (by simp)]
  simp only [List.map_cons, List.map_nil, List.sum_cons, List.sum_nil]
  omega

/-- The payloads of a type and one, two or all of the three parts. -/
theorem parts_size (kind sessionId fullText : String) (sequence : Int) :
    (jsonObject [("type", kind), ("session_id", serdeString sessionId)]).utf8ByteSize =
      23 + kind.utf8ByteSize + (serdeString sessionId).utf8ByteSize ∧
    (jsonObject [("type", kind), ("session_id", serdeString sessionId),
      ("sequence", toString sequence)]).utf8ByteSize =
        35 + kind.utf8ByteSize + ((serdeString sessionId).utf8ByteSize +
          (toString sequence).utf8ByteSize) ∧
    (jsonObject [("type", kind), ("session_id", serdeString sessionId),
      ("sequence", toString sequence), ("full_text", serdeString fullText)]).utf8ByteSize =
        48 + kind.utf8ByteSize + ((serdeString sessionId).utf8ByteSize +
          (toString sequence).utf8ByteSize + (serdeString fullText).utf8ByteSize) := by
  obtain ⟨htype, hid, hsequence, htext, -, -⟩ := nameSizes
  refine ⟨?_, ?_, ?_⟩
  all_goals
    rw [jsonObject_size (by simp)]
    simp only [List.map_cons, List.map_nil, List.sum_cons, List.sum_nil]
    omega

theorem two_le_serdeString (text : String) : 2 ≤ (serdeString text).utf8ByteSize := by
  rw [serdeString, quoteWith_size]
  exact Nat.le_add_right 2 _

namespace ClientMessage
variable {m : ClientMessage}

theorem finished_size : (echoResponse true m.sessionId m.sequence m.fullText).utf8ByteSize =
    66 + m.textSize := by
  have hkind : (serdeString "session_finished").utf8ByteSize = 18 := by decide
  have hsize := (parts_size (serdeString "session_finished") m.sessionId m.fullText m.sequence).2.2
  rw [echoResponse, if_pos rfl, hsize, hkind, textSize]

/-- Of the payloads that a message of any type has, the finished session is the longest. -/
theorem common_size_le {payload : String}
    (h : payload ∈ ([.applyState m.sessionId m.sequence m.fullText,
      .finishSession m.sessionId m.sequence, .querySession m.sessionId,
      .cancelInvalidSession m.sessionId] : List InjectorRequest).map InjectorRequest.encode ∨
      payload ∈ ([.update m.sessionId m.sequence m.fullText, .finish m.sessionId m.sequence,
        .cancel m.sessionId, .query m.sessionId] : List TipCommand).map TipCommand.encode ∨
      payload ∈ [echoResponse false m.sessionId m.sequence m.fullText,
        echoResponse true m.sessionId m.sequence m.fullText]) :
    payload.utf8ByteSize ≤ 66 + m.textSize := by
  have hkinds : (serdeString "apply_state").utf8ByteSize = 13 ∧
      (serdeString "finish_session").utf8ByteSize = 16 ∧
      (serdeString "query_session").utf8ByteSize = 15 ∧
      (serdeString "cancel_invalid_session").utf8ByteSize = 24 ∧
      (serdeString "update").utf8ByteSize = 8 ∧ (serdeString "finish").utf8ByteSize = 8 ∧
      (serdeString "cancel").utf8ByteSize = 8 ∧ (serdeString "query").utf8ByteSize = 7 ∧
      (serdeString "session_active").utf8ByteSize = 16 := by decide
  have htext := two_le_serdeString m.fullText
  have hsizes := fun kind => parts_size kind m.sessionId m.fullText m.sequence
  simp only [List.map_cons, List.map_nil, List.mem_cons, List.not_mem_nil, or_false] at h
  rw [textSize]
  rcases h with (h | h | h | h) | (h | h | h | h) | (h | h)
  · rw [h, InjectorRequest.encode, (hsizes _).2.2]
    omega
  · rw [h, InjectorRequest.encode, (hsizes _).2.1]
    omega
  · rw [h, InjectorRequest.encode, (hsizes _).1]
    omega
  · rw [h, InjectorRequest.encode, (hsizes _).1]
    omega
  · rw [h, TipCommand.encode, (hsizes _).2.2]
    omega
  · rw [h, TipCommand.encode, (hsizes _).2.1]
    omega
  · rw [h, TipCommand.encode, (hsizes _).1]
    omega
  · rw [h, TipCommand.encode, (hsizes _).1]
    omega
  · rw [h, echoResponse, if_neg Bool.false_ne_true, (hsizes _).2.2]
    omega
  · rw [h, finished_size, textSize]

/-- The bytes of the longest payload. -/
def longestPayload (m : ClientMessage) : Nat :=
  match m with
  | .start message => 105 + ((message.replacesSessionId.map serdeString).getD "null").utf8ByteSize +
      (serdeBool message.attachExisting).utf8ByteSize + m.textSize
  | _ => 66 + m.textSize

theorem fitsIpc_iff : m.FitsIpc ↔ m.longestPayload ≤ MAX_MESSAGE_BYTES := by
  constructor
  · intro h
    have hfinished : (echoResponse true m.sessionId m.sequence m.fullText).utf8ByteSize ≤
        MAX_MESSAGE_BYTES := h _ (by simp [payloads])
    rw [finished_size] at hfinished
    cases m with
    | start message =>
      have hbegin := h (InjectorRequest.beginSession message.sessionId message.replacesSessionId
        message.sequence message.fullText message.attachExisting).encode
        (by simp [payloads, requests])
      rwa [beginSession_size] at hbegin
    | _ => exact hfinished
  · intro h payload hpayload
    have hcommon : 66 + m.textSize ≤ m.longestPayload := by
      cases m with
      | start message =>
        simp only [longestPayload]
        omega
      | _ => exact le_rfl
    simp only [payloads, requests, commands, List.map_append, List.mem_append] at hpayload
    rcases hpayload with ((hbegin | hrequest) | hbegin | hcommand) | hecho
    · cases m with
      | start message =>
        rw [List.map_singleton, List.mem_singleton] at hbegin
        rw [hbegin, beginSession_size]
        exact h
      | _ => cases hbegin
    · exact le_trans (common_size_le (Or.inl hrequest)) (le_trans hcommon h)
    · cases m with
      | start message =>
        rw [List.map_singleton, List.mem_singleton] at hbegin
        rw [hbegin, tipBegin_size]
        simp only [longestPayload, textSize, sessionId, sequence, fullText] at h
        omega
      | _ => cases hbegin
    · exact le_trans (common_size_le (Or.inr (Or.inl hcommand))) (le_trans hcommon h)
    · exact le_trans (common_size_le (Or.inr (Or.inr hecho))) (le_trans hcommon h)

end ClientMessage

/-! ### What a frame contains -/

theorem serdeString_size (text : String) :
    (serdeString text).utf8ByteSize = Json.quotedSize text.toList := quoteWith_size _ _

theorem add_two_le_serdeString (text : String) :
    text.utf8ByteSize + 2 ≤ (serdeString text).utf8ByteSize := by
  have hchar : ∀ c : Char, c.utf8Size ≤ utf8Length (serdeEscapeChar c) := by
    intro c
    rw [serdeEscapeChar]
    split_ifs
    · simp
    · exact escapeChar_size_le c
  have hsum : ∀ cs : List Char, utf8Length cs + 2 ≤ Json.quotedSize cs := by
    intro cs
    induction cs with
    | nil => exact le_rfl
    | cons c cs ih =>
      have hc := hchar c
      rw [Json.quotedSize] at ih ⊢
      rw [utf8Length_cons, List.map_cons, List.sum_cons]
      omega
  rw [serdeString_size, utf8ByteSize_eq]
  exact hsum text.toList

namespace Json
variable {ms : List (List Char × Json)}

structure InputMembers (ms : List (List Char × Json)) (tag : String) (m : ClientMessage) :
    Prop where
  type : ∃ value, get ms "type" = some value ∧ value.asString = some tag
  version : ∃ value n, get ms "protocol_version" = some value ∧ value.asInteger = some n ∧ 0 ≤ n
  phone : ∃ value, get ms "phone_id" = some value ∧ value.asString = some m.phoneId
  session : ∃ value, get ms "session_id" = some value ∧ value.asString = some m.sessionId
  sequence : ∃ value, get ms "sequence" = some value ∧ value.asInteger = some m.sequence
  text : ∃ value, get ms "full_text" = some value ∧ value.asString = some m.fullText

theorem asInteger_of_asU16 {value : Json} {n : Nat} (h : value.asU16 = some n) :
    ∃ i, value.asInteger = some i ∧ 0 ≤ i := by
  obtain ⟨i, hi, -⟩ := Option.map_eq_some_iff.1 h
  obtain ⟨hvalue, hrange⟩ := Option.filter_eq_some_iff.1 hi
  exact ⟨i, hvalue, (of_decide_eq_true hrange).1⟩

theorem asInteger_of_asI64 {value : Json} {n : Int} (h : value.asI64 = some n) :
    value.asInteger = some n := (Option.filter_eq_some_iff.1 h).1

theorem readSnapshot_members {type : SnapshotType} {message : SnapshotMessage}
    (h : readSnapshot type ms = some message) :
    (∃ value n, get ms "protocol_version" = some value ∧ value.asInteger = some n ∧ 0 ≤ n) ∧
    (∃ value, get ms "phone_id" = some value ∧ value.asString = some message.phoneId) ∧
    (∃ value, get ms "session_id" = some value ∧ value.asString = some message.sessionId) ∧
    (∃ value, get ms "sequence" = some value ∧ value.asInteger = some message.sequence) ∧
    (∃ value, get ms "full_text" = some value ∧ value.asString = some message.fullText) ∧
    readOptional ms "replaces_session_id" = some message.replacesSessionId ∧
    readFlag ms "attach_existing" = some message.attachExisting := by
  simp only [readSnapshot, Option.bind_eq_bind, Option.bind_eq_some_iff, Option.some.injEq] at h
  obtain ⟨_, ⟨version, hversion, hu16⟩, _, hphone, _, hsession, _, ⟨value, hvalue, hi64⟩, _,
    htext, _, hreplaces, _, hattach, rfl⟩ := h
  obtain ⟨n, hn, hpos⟩ := asInteger_of_asU16 hu16
  exact ⟨⟨version, n, hversion, hn, hpos⟩, hphone, hsession,
    ⟨value, hvalue, asInteger_of_asI64 hi64⟩, htext, hreplaces, hattach⟩

theorem readResume_members {message : ResumeMessage} (h : readResume ms = some message) :
    (∃ value n, get ms "protocol_version" = some value ∧ value.asInteger = some n ∧ 0 ≤ n) ∧
    (∃ value, get ms "phone_id" = some value ∧ value.asString = some message.phoneId) ∧
    (∃ value, get ms "session_id" = some value ∧ value.asString = some message.sessionId) ∧
    (∃ value, get ms "sequence" = some value ∧ value.asInteger = some message.sequence) ∧
    ∃ value, get ms "full_text" = some value ∧ value.asString = some message.fullText := by
  simp only [readResume, Option.bind_eq_bind, Option.bind_eq_some_iff, Option.some.injEq] at h
  obtain ⟨_, ⟨version, hversion, hu16⟩, _, hphone, _, hsession, _, -, _, ⟨value, hvalue, hi64⟩, _,
    htext, _, -, rfl⟩ := h
  obtain ⟨n, hn, hpos⟩ := asInteger_of_asU16 hu16
  exact ⟨⟨version, n, hversion, hn, hpos⟩, hphone, hsession,
    ⟨value, hvalue, asInteger_of_asI64 hi64⟩, htext⟩

theorem get_of_readOptional {key text : String} (h : readOptional ms key = some (some text)) :
    ∃ value, get ms key = some value ∧ value.asString = some text := by
  rw [readOptional] at h
  split at h
  · cases h
  · cases h
  · obtain ⟨text', htext, heq⟩ := Option.map_eq_some_iff.1 h
    cases heq
    exact ⟨_, ‹_›, htext⟩

theorem get_of_readFlag {key : String} (h : readFlag ms key = some true) :
    get ms key = some (.bool true) := by
  rw [readFlag] at h
  split at h
  · cases h
  · rename_i value hvalue
    rw [hvalue, Option.some.inj h]
  · cases h

theorem readInput_object {m : ClientMessage} (h : readInput (.object ms) = some m) :
    ∃ tag, 5 ≤ tag.utf8ByteSize ∧ InputMembers ms tag m ∧
      ∀ message, m = .start message →
        readOptional ms "replaces_session_id" = some message.replacesSessionId ∧
        readFlag ms "attach_existing" = some message.attachExisting := by
  obtain ⟨tag, htag, hm⟩ := Option.bind_eq_some_iff.1 h
  obtain ⟨value, hvalue, hstring⟩ := Option.bind_eq_some_iff.1 htag
  have htype : ∃ value, get ms "type" = some value ∧ value.asString = some tag :=
    ⟨value, hvalue, hstring⟩
  simp only [readTagged] at hm
  split_ifs at hm with hstart hupdate hfinish hresume
  · obtain ⟨message, hread, rfl⟩ := Option.map_eq_some_iff.1 hm
    obtain ⟨hversion, hphone, hsession, hsequence, htext, hreplaces, hattach⟩ :=
      readSnapshot_members hread
    refine ⟨tag, by rw [hstart]; decide,
      ⟨htype, hversion, hphone, hsession, hsequence, htext⟩, ?_⟩
    intro message' heq
    cases heq
    exact ⟨hreplaces, hattach⟩
  · obtain ⟨message, hread, rfl⟩ := Option.map_eq_some_iff.1 hm
    obtain ⟨hversion, hphone, hsession, hsequence, htext, -⟩ := readSnapshot_members hread
    exact ⟨tag, by rw [hupdate]; decide, ⟨htype, hversion, hphone, hsession, hsequence, htext⟩,
      fun message' heq => by cases heq⟩
  · obtain ⟨message, hread, rfl⟩ := Option.map_eq_some_iff.1 hm
    obtain ⟨hversion, hphone, hsession, hsequence, htext, -⟩ := readSnapshot_members hread
    exact ⟨tag, by rw [hfinish]; decide, ⟨htype, hversion, hphone, hsession, hsequence, htext⟩,
      fun message' heq => by cases heq⟩
  · obtain ⟨message, hread, rfl⟩ := Option.map_eq_some_iff.1 hm
    obtain ⟨hversion, hphone, hsession, hsequence, htext⟩ := readResume_members hread
    exact ⟨tag, by rw [hresume]; decide, ⟨htype, hversion, hphone, hsession, hsequence, htext⟩,
      fun message' heq => by cases heq⟩

theorem one_le_integer_size (n : Int) : 1 ≤ (toString n).utf8ByteSize := by
  have hnatural : ∀ k : Nat, 1 ≤ k.repr.utf8ByteSize := by
    intro k
    have hdigits : 0 < (Nat.toDigits 10 k).length := Nat.length_toDigits_pos
    have hlength := length_le_utf8Length k.repr.toList
    rw [Nat.toList_repr] at hlength
    rw [utf8ByteSize_eq, Nat.toList_repr]
    omega
  rw [Int.toString_eq_repr, Int.repr_eq_if]
  split_ifs
  · exact hnatural n.toNat
  · have hdigits := hnatural (-n).toNat
    rw [String.utf8ByteSize_append]
    omega

theorem memberSize_of_asString {key : List Char} {value : Json} {text : String}
    (h : value.asString = some text) :
    memberSize (key, value) = quotedSize key + (serdeString text).utf8ByteSize + 2 := by
  rw [memberSize, leastSize_of_asString h, serdeString_size]

theorem memberSize_of_asInteger {key : List Char} {value : Json} {n : Int}
    (h : value.asInteger = some n) (hn : 0 ≤ n) :
    quotedSize key + (toString n).utf8ByteSize + 2 ≤ memberSize (key, value) := by
  have hsize := leastSize_of_asInteger h hn
  simp only [memberSize]
  omega

/-- The least bytes of a frame with these members, and with `extra` ones beside them. -/
theorem InputMembers.size_le {text : List Char} {tag : String} {m : ClientMessage}
    (h : InputMembers ms tag m) (htag : 5 ≤ tag.utf8ByteSize) (hsequence : 0 ≤ m.sequence)
    (htext : SpacedText text (.object ms)) (extra : List (String × Json))
    (hnames : (["type", "protocol_version", "phone_id", "session_id", "sequence", "full_text"] ++
      extra.map Prod.fst).Nodup)
    (hextra : ∀ f ∈ extra, get ms f.1 = some f.2) :
    88 + (serdeString m.phoneId).utf8ByteSize + m.textSize +
      (extra.map fun f => memberSize (f.1.toList, f.2)).sum ≤ utf8Length text := by
  obtain ⟨type, htype, htypeText⟩ := h.type
  obtain ⟨version, n, hversion, hversionValue, hpos⟩ := h.version
  obtain ⟨phone, hphone, hphoneText⟩ := h.phone
  obtain ⟨session, hsession, hsessionText⟩ := h.session
  obtain ⟨sequence, hseq, hseqValue⟩ := h.sequence
  obtain ⟨full, hfull, hfullText⟩ := h.text
  have hkeys : quotedSize "type".toList = 6 ∧ quotedSize "protocol_version".toList = 18 ∧
      quotedSize "phone_id".toList = 10 ∧ quotedSize "session_id".toList = 12 ∧
      quotedSize "sequence".toList = 10 ∧ quotedSize "full_text".toList = 11 := by decide
  have hsum := @sum_le_members ms ([("type", type), ("protocol_version", version),
    ("phone_id", phone), ("session_id", session), ("sequence", sequence), ("full_text", full)] ++
      extra) (by simpa using hnames) (by
        intro f hf
        rcases List.mem_append.1 hf with hf | hf
        · simp only [List.mem_cons, List.not_mem_nil, or_false] at hf
          rcases hf with rfl | rfl | rfl | rfl | rfl | rfl
          · exact htype
          · exact hversion
          · exact hphone
          · exact hsession
          · exact hseq
          · exact hfull
        · exact hextra f hf)
  have hframe := htext.object_size_le
  have htagSize := add_two_le_serdeString tag
  have hversionSize := @memberSize_of_asInteger "protocol_version".toList _ _
    hversionValue hpos
  have hdigit := one_le_integer_size n
  have hseqSize := @memberSize_of_asInteger "sequence".toList _ _ hseqValue hsequence
  simp only [List.map_append, List.sum_append, List.map_cons, List.map_nil, List.sum_cons,
    List.sum_nil, memberSize_of_asString htypeText, memberSize_of_asString hphoneText,
    memberSize_of_asString hsessionText, memberSize_of_asString hfullText] at hsum
  rw [ClientMessage.textSize]
  omega

end Json

namespace ClientMessage
open Json
variable {m : ClientMessage} {text : List Char} {value : Json}

theorem of_validate (h : m.validate = .ok ()) (hcancel : ∀ message, m ≠ .cancel message) :
    m.phoneId ≠ "" ∧ 0 < m.sequence := by
  have hsnapshot : ∀ message : SnapshotMessage, message.validate = .ok () →
      message.phoneId ≠ "" ∧ 0 < message.sequence := by
    intro message hvalid
    rw [SnapshotMessage.validate] at hvalid
    split_ifs at hvalid with hversion hids hreplaced hsequence hlong
    exact ⟨fun hphone => hids (Or.inl hphone), not_le.1 hsequence⟩
  cases m with
  | start message => exact hsnapshot message h
  | update message => exact hsnapshot message h
  | finish message => exact hsnapshot message h
  | resume message =>
    simp only [validate, ResumeMessage.validate] at h
    split_ifs at h with hversion hids hsequence hlong
    exact ⟨fun hphone => hids (Or.inl hphone), not_le.1 fun hle => hsequence (Or.inl hle)⟩
  | cancel message => exact absurd rfl (hcancel message)

theorem readInput_ne_cancel (h : readInput value = some m) (message : CancelMessage) :
    m ≠ .cancel message := by
  have htagged : ∀ tag fields, readTagged tag fields = some m → m ≠ .cancel message := by
    intro tag fields hm
    simp only [readTagged] at hm
    split_ifs at hm
    all_goals
      obtain ⟨ms, -, hread⟩ := Option.bind_eq_some_iff.1 hm
      obtain ⟨message', -, rfl⟩ := Option.map_eq_some_iff.1 hread
      intro heq
      cases heq
  cases value with
  | object ms =>
    obtain ⟨tag, -, hm⟩ := Option.bind_eq_some_iff.1 h
    exact htagged tag _ hm
  | array es =>
    cases es with
    | nil => cases h
    | cons tag es =>
      obtain ⟨tag, -, hm⟩ := Option.bind_eq_some_iff.1 h
      exact htagged tag _ hm
  | _ => cases h

/-- The messages with a payload that is too long. An object can lead to one only as a start
that replaces no session and attaches nothing; an array leaves out the names of the fields. -/
def Overflows (m : ClientMessage) (value : Json) : Prop :=
  match value, m with
  | .object _, .start message => message.replacesSessionId = none ∧
      message.attachExisting = false ∧ MAX_MESSAGE_BYTES < 114 + m.textSize
  | .object _, _ => False
  | _, _ => MAX_MESSAGE_BYTES < m.longestPayload

theorem fitsIpc_of_object {ms : List (List Char × Json)} (htext : SpacedText text (.object ms))
    (hsize : utf8Length text ≤ MAX_MESSAGE_BYTES) (hread : readInput (.object ms) = some m)
    (hvalid : m.validate = .ok ()) : m.FitsIpc ↔ ¬m.Overflows (.object ms) := by
  obtain ⟨hphone, hsequence⟩ := of_validate hvalid (readInput_ne_cancel hread)
  obtain ⟨tag, htag, hmembers, hstart⟩ := readInput_object hread
  have hphoneSize := add_two_le_serdeString m.phoneId
  have hplain := hmembers.size_le htag hsequence.le htext [] (by decide) (by simp)
  rw [List.map_nil, List.sum_nil, Nat.add_zero] at hplain
  rw [fitsIpc_iff]
  cases m with
  | start message =>
    obtain ⟨hreplaces, hattach⟩ := hstart message rfl
    have hbytes : 1 ≤ message.phoneId.utf8ByteSize := by
      rw [Nat.one_le_iff_ne_zero, ne_eq, String.utf8ByteSize_eq_zero_iff]
      exact hphone
    have hnull : ("null").utf8ByteSize = 4 := by decide
    have hflag := serdeBool_size message.attachExisting
    simp only [Overflows, longestPayload, phoneId] at hplain hphoneSize ⊢
    cases hreplaced : message.replacesSessionId with
    | some replaced =>
      rw [hreplaced] at hreplaces
      obtain ⟨value, hvalue, hstring⟩ := get_of_readOptional hreplaces
      have hkey : quotedSize "replaces_session_id".toList = 21 := by decide
      have hlong := hmembers.size_le htag hsequence.le htext [("replaces_session_id", value)]
        (show ["type", "protocol_version", "phone_id", "session_id", "sequence", "full_text",
          "replaces_session_id"].Nodup by decide) (by simpa using hvalue)
      simp only [List.map_cons, List.map_nil, List.sum_cons, List.sum_nil,
        memberSize_of_asString hstring, phoneId] at hlong
      simp only [Option.map_some, Option.getD_some, reduceCtorEq, false_and, not_false_eq_true,
        iff_true]
      have hshort : (serdeBool message.attachExisting).utf8ByteSize ≤ 5 := by
        rw [hflag]
        split_ifs <;> decide
      omega
    | none =>
      cases hattached : message.attachExisting with
      | true =>
        rw [hattached] at hattach hflag
        have hvalue := get_of_readFlag hattach
        have hkey : quotedSize "attach_existing".toList = 17 := by decide
        have hlong := hmembers.size_le htag hsequence.le htext [("attach_existing", .bool true)]
          (by decide) (by simpa using hvalue)
        simp only [List.map_cons, List.map_nil, List.sum_cons, List.sum_nil, memberSize, leastSize,
          if_true, phoneId] at hlong
        simp only [if_true] at hflag
        simp only [Option.map_none, Option.getD_none, Bool.true_eq_false, false_and, and_false,
          not_false_eq_true, iff_true]
        omega
      | false =>
        rw [hattached] at hflag
        simp only [Bool.false_eq_true, if_false] at hflag
        simp only [Option.map_none, Option.getD_none, true_and, not_lt]
        rw [hnull, hflag]
  | _ =>
    simp only [Overflows, not_false_eq_true, iff_true, longestPayload]
    omega

/-- Every message derived from an accepted frame fits the limit of the pipes, unless it is one
of those that overflow. -/
theorem ipc_closed_iff (htext : SpacedText text value)
    (hsize : utf8Length text ≤ MAX_MESSAGE_BYTES) (hread : readInput value = some m)
    (hvalid : m.validate = .ok ()) : m.FitsIpc ↔ ¬m.Overflows value := by
  cases value with
  | object ms => exact fitsIpc_of_object htext hsize hread hvalid
  | array es =>
    rw [fitsIpc_iff]
    simp only [Overflows, not_lt]
  | _ => cases hread

end ClientMessage

/-! ### A frame at the limit -/

namespace Json

/-- A text without quotes, backslashes and control characters stands for itself. -/
theorem stringText_plain {text : List Char}
    (h : ∀ c ∈ text, 0x20 ≤ c.toNat ∧ c.toNat ≠ 0x22 ∧ c.toNat ≠ 0x5c) : StringText text text := by
  induction text with
  | nil => exact .nil
  | cons c text ih =>
    obtain ⟨hcontrol, hquotation, hbackslash⟩ := h c List.mem_cons_self
    exact .cons (.raw c hcontrol hquotation hbackslash)
      (ih fun d hd => h d (List.mem_cons_of_mem c hd))

/-- The members of an object without blanks. -/
def compactMembers : List (String × List Char) → List Char
  | [] => []
  | [f] => quotation :: f.1.toList ++ quotation :: ':' :: f.2
  | f :: g :: fs => (quotation :: f.1.toList ++ quotation :: ':' :: f.2) ++
      ',' :: compactMembers (g :: fs)

theorem spacedText_of_valueText {text : List Char} {value : Json} (h : ValueText text value) :
    SpacedText text value := by
  have hblank : Blank [] := fun c hc => by cases hc
  simpa using SpacedText.spaced hblank h hblank

theorem membersText_compact (fs : List (String × List Char × Json)) (hne : fs ≠ [])
    (hnames : ∀ f ∈ fs, StringText f.1.toList f.1.toList)
    (hvalues : ∀ f ∈ fs, ValueText f.2.1 f.2.2) :
    MembersText (compactMembers (fs.map fun f => (f.1, f.2.1)))
      (fs.map fun f => (f.1.toList, f.2.2)) := by
  have hblank : Blank [] := fun c hc => by cases hc
  induction fs with
  | nil => exact absurd rfl hne
  | cons f fs ih =>
    have hname := hnames f List.mem_cons_self
    have hvalue := spacedText_of_valueText (hvalues f List.mem_cons_self)
    cases fs with
    | nil => simpa [compactMembers] using MembersText.last hblank hname hblank hvalue
    | cons g fs =>
      have hrest := ih (by simp) (fun g hg => hnames g (List.mem_cons_of_mem f hg))
        fun g hg => hvalues g (List.mem_cons_of_mem f hg)
      simpa [compactMembers] using MembersText.cons hblank hname hblank hvalue hrest

end Json

open Json

/-- A start with a text of `count` letters, as short as a start with it can be. -/
def shortStart (count : Nat) : List (String × List Char × Json) :=
  let letters := List.replicate count 'a'
  [("type", quotation :: "start".toList ++ [quotation], .string "start".toList),
    ("protocol_version", ['2'], .number ['2']),
    ("phone_id", quotation :: ['p'] ++ [quotation], .string ['p']),
    ("session_id", quotation :: ['s'] ++ [quotation], .string ['s']),
    ("sequence", ['1'], .number ['1']),
    ("full_text", quotation :: letters ++ [quotation], .string letters)]

def shortStartText (count : Nat) : List Char :=
  Char.ofNat 0x7b :: compactMembers ((shortStart count).map fun f => (f.1, f.2.1)) ++
    [Char.ofNat 0x7d]

def shortStartMessage (count : Nat) : SnapshotMessage :=
  { type := .start, phoneId := "p", sessionId := "s", sequence := 1
    fullText := String.ofList (List.replicate count 'a') }

theorem shortStartText_value (count : Nat) : SpacedText (shortStartText count)
    (.object ((shortStart count).map fun f => (f.1.toList, f.2.2))) := by
  have hplain : ∀ text : List Char, (text.all fun c =>
      decide (0x20 ≤ c.toNat ∧ c.toNat ≠ 0x22 ∧ c.toNat ≠ 0x5c)) = true → StringText text text :=
    fun text h => stringText_plain fun c hc => of_decide_eq_true (List.all_eq_true.1 h c hc)
  have hnumber : ∀ c, c = '1' ∨ c = '2' → NumberText [c] := by
    intro c hc
    have hdigits : Digits [c] := ⟨by simp, by rcases hc with rfl | rfl <;> simp⟩
    have hfirst : [c].head? ≠ some '0' := by rcases hc with rfl | rfl <;> decide
    exact ⟨⟨[], [c], [], [], rfl, Or.inl rfl, Or.inr ⟨hdigits, hfirst⟩, Or.inl rfl, Or.inl rfl⟩⟩
  apply spacedText_of_valueText
  apply ValueText.object
  apply membersText_compact
  · simp [shortStart]
  · intro f hf
    simp only [shortStart, List.mem_cons, List.not_mem_nil, or_false] at hf
    rcases hf with rfl | rfl | rfl | rfl | rfl | rfl <;> dsimp only <;> exact hplain _ (by decide)
  · intro f hf
    simp only [shortStart, List.mem_cons, List.not_mem_nil, or_false] at hf
    rcases hf with rfl | rfl | rfl | rfl | rfl | rfl
    · exact .string (hplain _ (by decide))
    · exact .number (hnumber '2' (Or.inr rfl))
    · exact .string (hplain _ (by decide))
    · exact .string (hplain _ (by decide))
    · exact .number (hnumber '1' (Or.inl rfl))
    · apply ValueText.string
      apply stringText_plain
      intro c hc
      rw [List.eq_of_mem_replicate hc]
      decide

/-- A member is found by its name, the last one of that name. -/
theorem get_members (members : List (String × Json)) (key : String) :
    get (members.map fun f => (f.1.toList, f.2)) key =
      (members.reverse.find? fun f => f.1 == key).map Prod.snd := by
  have hname : ((fun member : List Char × Json => decide (member.1 = key.toList)) ∘
      fun f : String × Json => (f.1.toList, f.2)) = fun f => f.1 == key := by
    funext f
    rw [Bool.eq_iff_iff]
    simp [String.toList_inj]
  unfold Json.get
  rw [← List.map_reverse, List.find?_map, hname, Option.map_map]
  rfl

theorem readInput_shortStart (count : Nat) :
    readInput (.object ((shortStart count).map fun f => (f.1.toList, f.2.2))) =
      some (.start (shortStartMessage count)) := by
  let letters : List Char := List.replicate count 'a'
  let members : List (String × Json) := (shortStart count).map fun f => (f.1, f.2.2)
  let ms : List (List Char × Json) := members.map fun f => (f.1.toList, f.2)
  have htype : get ms "type" = some (.string "start".toList) := get_members members _
  have hversion : get ms "protocol_version" = some (.number ['2']) := get_members members _
  have hphone : get ms "phone_id" = some (.string ['p']) := get_members members _
  have hsession : get ms "session_id" = some (.string ['s']) := get_members members _
  have hsequence : get ms "sequence" = some (.number ['1']) := get_members members _
  have htext : get ms "full_text" = some (.string letters) := get_members members _
  have hreplaces : get ms "replaces_session_id" = none := get_members members _
  have hflag : get ms "attach_existing" = none := get_members members _
  have hsnapshot : readSnapshot .start ms = some (shortStartMessage count) := by
    rw [readSnapshot, hversion, hphone, hsession, hsequence, htext, readOptional, hreplaces,
      readFlag, hflag]
    rfl
  have hmembers : ((shortStart count).map fun f => (f.1.toList, f.2.2)) = ms := by
    simp [ms, members]
  rw [hmembers, readInput, htype, Option.bind_some, asString, Option.bind_some,
    String.ofList_toList, readTagged, if_pos rfl, Option.bind_some, hsnapshot, Option.map_some]

theorem utf8Length_letters (count : Nat) : utf8Length (List.replicate count 'a') = count := by
  have hletter : Char.utf8Size 'a' = 1 := by decide
  rw [utf8Length, List.map_replicate, List.sum_replicate, hletter, nsmul_one, Nat.cast_id]

theorem shortStartText_size (count : Nat) : utf8Length (shortStartText count) = 97 + count := by
  have hsplit : shortStartText count = (shortStartText 0).dropLast.dropLast ++
      ((List.replicate count 'a' ++ [quotation]) ++ [Char.ofNat 0x7d]) := by
    simp [shortStartText, shortStart, compactMembers]
  have hbefore : utf8Length (shortStartText 0).dropLast.dropLast = 95 := by decide
  have hquotation : utf8Length [quotation] = 1 := by decide
  have hclose : utf8Length [Char.ofNat 0x7d] = 1 := by decide
  rw [hsplit, utf8Length_append, utf8Length_append, utf8Length_append, hbefore, hquotation,
    hclose, utf8Length_letters]
  omega

theorem shortStart_textSize (count : Nat) :
    (ClientMessage.start (shortStartMessage count)).textSize = 6 + count := by
  have hid : (serdeString "s").utf8ByteSize = 3 := by decide
  have hsequence : (toString (1 : Int)).utf8ByteSize = 1 := by decide
  have hletter : serdeEscapeChar 'a' = ['a'] := by decide
  have hsize : utf8Length ['a'] = 1 := by decide
  have htext : (serdeString (String.ofList (List.replicate count 'a'))).utf8ByteSize =
      2 + count := by
    rw [serdeString, quoteWith_size, String.toList_ofList, List.map_replicate, List.sum_replicate,
      hletter, hsize, nsmul_one, Nat.cast_id]
  have hparts : (ClientMessage.start (shortStartMessage count)).textSize =
      (serdeString "s").utf8ByteSize + (toString (1 : Int)).utf8ByteSize +
        (serdeString (String.ofList (List.replicate count 'a'))).utf8ByteSize := rfl
  rw [hparts, hid, hsequence, htext]
  omega

theorem shortStart_validate {count : Nat} (h : count ≤ MAX_MESSAGE_BYTES) :
    (ClientMessage.start (shortStartMessage count)).validate = .ok () := by
  have hbytes : (shortStartMessage count).fullText.utf8ByteSize = count := by
    rw [shortStartMessage, utf8ByteSize_eq, String.toList_ofList, utf8Length_letters]
  rw [ClientMessage.validate, SnapshotMessage.validate, hbytes]
  simp [shortStartMessage, h]

theorem shortStart_begin_size (count : Nat) :
    (InjectorRequest.beginSession "s" none 1 (shortStartMessage count).fullText
      false).encode.utf8ByteSize = 120 + count := by
  have hnull : ("null").utf8ByteSize = 4 := by decide
  have hflag : (serdeBool false).utf8ByteSize = 5 := by decide
  have htext : (serdeString "s").utf8ByteSize + (toString (1 : Int)).utf8ByteSize +
      (serdeString (shortStartMessage count).fullText).utf8ByteSize = 6 + count :=
    shortStart_textSize count
  rw [beginSession_size, Option.map_none, Option.getD_none, hnull, hflag, htext]
  omega

namespace ClientMessage

/-- A start with a short text reaches the injector. -/
theorem short_start_fits : (start (shortStartMessage 1)).FitsIpc ↔
    ¬(start (shortStartMessage 1)).Overflows
      (.object ((shortStart 1).map fun f => (f.1.toList, f.2.2))) :=
  ipc_closed_iff (shortStartText_value 1) (by rw [shortStartText_size]; decide)
    (readInput_shortStart 1) (shortStart_validate (by decide))

/-- The frame of a start that is just as long as a frame may be: the request that begins its
session is 23 bytes longer. -/
theorem long_start_overflows :
    let count := MAX_MESSAGE_BYTES - 97
    let value : Json := .object ((shortStart count).map fun f => (f.1.toList, f.2.2))
    SpacedText (shortStartText count) value ∧
      utf8Length (shortStartText count) = MAX_MESSAGE_BYTES ∧
      readInput value = some (.start (shortStartMessage count)) ∧
      (start (shortStartMessage count)).validate = .ok () ∧
      MAX_MESSAGE_BYTES < (InjectorRequest.beginSession "s" none 1
        (shortStartMessage count).fullText false).encode.utf8ByteSize := by
  have hmax : MAX_MESSAGE_BYTES = 1048576 := rfl
  refine ⟨shortStartText_value _, ?_, readInput_shortStart _, shortStart_validate ?_, ?_⟩
  · rw [shortStartText_size]
    omega
  · omega
  · rw [shortStart_begin_size]
    omega

end ClientMessage
end FlowType
