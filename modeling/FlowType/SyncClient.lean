import Mathlib.Algebra.GroupWithZero.Nat
import Mathlib.Algebra.Order.BigOperators.Group.List
import FlowType.OutboundQueue

/-! The text frames that the phone's `SyncClient` writes: which message an action
becomes and how `ProtocolCodec` encodes it. `JSONObject` keeps its keys in
insertion order and writes no blanks. -/
namespace FlowType

inductive Frame
  | snapshot (message : SnapshotMessage)
  | resume (message : ResumeMessage)
  | cancel (message : CancelMessage)
  deriving DecidableEq, Repr

def SnapshotType.wireName : SnapshotType → String
  | .start => "start"
  | .update => "update"
  | .finish => "finish"

def ClientSessionState.wireName : ClientSessionState → String
  | .active => "active"
  | .finishing => "finishing"

/-- `JSONStringer.string` escapes the quote, the backslash, the slash and the
control characters; everything else is copied. -/
def escapeChar (c : Char) : List Char :=
  let backslash := Char.ofNat 0x5c
  if c.toNat = 0x22 ∨ c.toNat = 0x5c ∨ c.toNat = 0x2f then [backslash, c]
  else if c.toNat = 0x08 then [backslash, 'b']
  else if c.toNat = 0x09 then [backslash, 't']
  else if c.toNat = 0x0a then [backslash, 'n']
  else if c.toNat = 0x0c then [backslash, 'f']
  else if c.toNat = 0x0d then [backslash, 'r']
  else if c.toNat ≤ 0x1f then
    [backslash, 'u', '0', '0', Nat.digitChar (c.toNat / 16), Nat.digitChar (c.toNat % 16)]
  else [c]

def quote (text : String) : String :=
  "\"" ++ String.ofList (text.toList.flatMap escapeChar) ++ "\""

def jsonFields : List (String × String) → String
  | [] => ""
  | [f] => quote f.1 ++ ":" ++ f.2
  | f :: g :: fs => quote f.1 ++ ":" ++ f.2 ++ "," ++ jsonFields (g :: fs)

def jsonObject (fields : List (String × String)) : String := "\x7b" ++ jsonFields fields ++ "\x7d"

/-- The binding fields are written on a START only. -/
def SnapshotMessage.encode (m : SnapshotMessage) : String :=
  jsonObject
    ([("protocol_version", toString m.protocolVersion), ("type", quote m.type.wireName),
      ("phone_id", quote m.phoneId), ("session_id", quote m.sessionId),
      ("sequence", toString m.sequence), ("full_text", quote m.fullText)] ++
    (if m.type = .start then
      m.replacesSessionId.toList.map fun id => ("replaces_session_id", quote id) else []) ++
    if m.type = .start ∧ m.attachExisting then [("attach_existing", "true")] else [])

def ResumeMessage.encode (m : ResumeMessage) : String :=
  jsonObject
    [("protocol_version", toString m.protocolVersion), ("type", quote "resume"),
      ("phone_id", quote m.phoneId), ("session_id", quote m.sessionId),
      ("last_ack_sequence", toString m.lastAckSequence), ("sequence", toString m.sequence),
      ("full_text", quote m.fullText), ("session_state", quote m.sessionState.wireName)]

def CancelMessage.encode (m : CancelMessage) : String :=
  jsonObject
    [("protocol_version", toString m.protocolVersion), ("type", quote "cancel"),
      ("phone_id", quote m.phoneId), ("session_id", quote m.sessionId)]

def Frame.encode : Frame → String
  | .snapshot m => m.encode
  | .resume m => m.encode
  | .cancel m => m.encode

/-- The resume message of `sendActionLocked`. -/
def SnapshotMessage.toResume (m : SnapshotMessage) (lastAckSequence : Int) : ResumeMessage where
  phoneId := m.phoneId
  sessionId := m.sessionId
  lastAckSequence := lastAckSequence
  sequence := m.sequence
  fullText := m.fullText
  sessionState := if m.type = .finish then .finishing else .active

/-- `sendActionLocked`: what goes out for an action of the queue. -/
def sendAction (q : OutboundQueue) (action : OutboundAction) : Frame :=
  if action.resume then .resume (action.snapshot.toResume q.lastAckSequence)
  else .snapshot action.snapshot

def Frame.start? : Frame → Option SnapshotMessage
  | .snapshot m => if m.type = .start then some m else none
  | _ => none

theorem ofList_size (l : List Char) :
    (String.ofList l).utf8ByteSize = (l.map Char.utf8Size).sum := by
  induction l with
  | nil => rfl
  | cons c l ih =>
    have hcons : String.ofList (c :: l) = String.singleton c ++ String.ofList l := by
      rw [String.singleton_eq_ofList, ← String.ofList_append]
      rfl
    rw [hcons, String.utf8ByteSize_append, String.utf8ByteSize_singleton, ih, List.map_cons,
      List.sum_cons]

/-- Escaping does not shorten a text. -/
theorem escapeChar_size_le (c : Char) : c.utf8Size ≤ ((escapeChar c).map Char.utf8Size).sum := by
  have hmem : c ∈ escapeChar c → c.utf8Size ≤ ((escapeChar c).map Char.utf8Size).sum := by
    intro h
    exact List.single_le_sum (by simp) _ (List.mem_map_of_mem h)
  by_cases hc : c.toNat ≤ 0x1f
  · have h1 : c.utf8Size = 1 := by
      rw [Char.utf8Size_eq_one_iff, UInt32.le_iff_toNat_le]
      exact hc.trans (by decide)
    have hne : ∃ d l, escapeChar c = d :: l := by
      unfold escapeChar
      dsimp only
      split_ifs <;> exact ⟨_, _, rfl⟩
    obtain ⟨d, l, hd⟩ := hne
    have hp := Char.utf8Size_pos d
    rw [hd, List.map_cons, List.sum_cons]
    omega
  · refine hmem ?_
    unfold escapeChar
    dsimp only
    split_ifs with h1 h2 h3 h4 h5 h6
    · simp
    all_goals first | omega | simp

theorem quote_size_le (text : String) : text.utf8ByteSize ≤ (quote text).utf8ByteSize := by
  have hl : ∀ l : List Char,
      (l.map Char.utf8Size).sum ≤ ((l.flatMap escapeChar).map Char.utf8Size).sum := by
    intro l
    induction l with
    | nil => simp
    | cons c l ih =>
      have hc := escapeChar_size_le c
      simp only [List.map_cons, List.sum_cons, List.flatMap_cons, List.map_append, List.sum_append]
      omega
  have ht : text.utf8ByteSize = (text.toList.map Char.utf8Size).sum := by
    rw [← ofList_size, String.ofList_toList]
  have h := hl text.toList
  have hq : (quote text).utf8ByteSize =
      ("\"").utf8ByteSize + ((text.toList.flatMap escapeChar).map Char.utf8Size).sum +
        ("\"").utf8ByteSize := by
    rw [quote, String.utf8ByteSize_append, String.utf8ByteSize_append, ofList_size (List.flatMap _ _)]
  omega

theorem SnapshotMessage.text_size_le (m : SnapshotMessage) :
    m.fullText.utf8ByteSize ≤ m.encode.utf8ByteSize := by
  have h := quote_size_le m.fullText
  have hf : ∀ fs, (quote m.fullText).utf8ByteSize ≤
      (jsonFields (("full_text", quote m.fullText) :: fs)).utf8ByteSize := by
    intro fs
    cases fs with
    | nil => simp [jsonFields, String.utf8ByteSize_append]
    | cons g fs =>
      simp only [jsonFields, String.utf8ByteSize_append]
      omega
  have hfs := hf ((if m.type = .start then
      m.replacesSessionId.toList.map fun id => ("replaces_session_id", quote id) else []) ++
    if m.type = .start ∧ m.attachExisting then [("attach_existing", "true")] else [])
  simp only [encode, jsonObject, List.cons_append, List.nil_append, jsonFields,
    String.utf8ByteSize_append]
  omega

theorem ResumeMessage.text_size_le (m : ResumeMessage) :
    m.fullText.utf8ByteSize ≤ m.encode.utf8ByteSize := by
  have h := quote_size_le m.fullText
  simp only [encode, jsonObject, jsonFields, String.utf8ByteSize_append]
  omega

/-- The frame that cancels a session is shorter than any snapshot of it. -/
theorem cancel_encode_size_le (m : SnapshotMessage) :
    (CancelMessage.encode { phoneId := m.phoneId, sessionId := m.sessionId
                            protocolVersion := m.protocolVersion }).utf8ByteSize ≤
      m.encode.utf8ByteSize := by
  have hcancel : (quote "cancel").utf8ByteSize = 8 := by decide
  have hsequence : (quote "sequence").utf8ByteSize = 10 := by decide
  simp only [CancelMessage.encode, SnapshotMessage.encode, jsonObject, List.cons_append, jsonFields,
    String.utf8ByteSize_append, hcancel, hsequence]
  omega

theorem sendAction_start? {q : OutboundQueue} {a : OutboundAction} {m : SnapshotMessage}
    (h : (sendAction q a).start? = some m) :
    a.resume = false ∧ a.snapshot = m ∧ m.type = .start := by
  unfold sendAction at h
  split at h
  · simp [Frame.start?] at h
  · rename_i hr
    simp only [Frame.start?] at h
    split at h
    · rename_i ht
      obtain rfl : a.snapshot = m := by simpa using h
      exact ⟨by simpa using hr, rfl, ht⟩
    · simp at h

end FlowType
