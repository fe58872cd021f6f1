import Mathlib.Data.List.Basic
import FlowType.ByteFiles
import FlowType.ByteStreams
import FlowType.Protocol

/-! The framing of the messages between the processes of the computer: four bytes with the length,
then the encoding. The waiting read of the app looks at a frame before it takes it. -/
namespace FlowType

open ByteFiles ByteStreams

inductive IoError
  | other
  | invalidData (message : String)
  | malformed
  | unexpectedEof
  | lastOsError
  | timedOut (message : String)
  deriving DecidableEq, Repr

/-- `serde_json` for one type of messages; `encode` may fail. -/
structure MessageCodec (T : Type*) where
  encode : T → Option (List UInt8)
  decode : List UInt8 → Option T
  decode_encode : ∀ m payload, encode m = some payload → decode payload = some m

def frame (payload : List UInt8) : List UInt8 := leBytes 4 payload.length ++ payload

section Codec
variable {T : Type*} (codec : MessageCodec T)

def writeMessage (stream : Sink UInt8) (message : T) : Except IoError Unit × Sink UInt8 :=
  match codec.encode message with
  | none => (.error .other, stream)
  | some payload =>
    if MAX_MESSAGE_BYTES < payload.length then (.error (.invalidData "message too large"), stream)
    else (.ok (), (stream.writeAll (leBytes 4 payload.length)).writeAll payload)

def readMessage (stream : Source UInt8) : Except IoError T × Source UInt8 :=
  match stream.readExact 4 with
  | (none, stream) => (.error .unexpectedEof, stream)
  | (some length, stream) =>
    if MAX_MESSAGE_BYTES < ofLeBytes length then
      (.error (.invalidData "message too large"), stream)
    else
      match stream.readExact (ofLeBytes length) with
      | (none, stream) => (.error .unexpectedEof, stream)
      | (some payload, stream) =>
        match codec.decode payload with
        | none => (.error .malformed, stream)
        | some message => (.ok message, stream)

/-- One message after the other, up to the first that is refused. -/
def writeMessages (stream : Sink UInt8) : List T → Except IoError Unit × Sink UInt8
  | [] => (.ok (), stream)
  | m :: ms =>
    match writeMessage codec stream m with
    | (.error e, stream) => (.error e, stream)
    | (.ok (), stream) => writeMessages stream ms

def readMessages (stream : Source UInt8) : Nat → List (Except IoError T) × Source UInt8
  | 0 => ([], stream)
  | count + 1 =>
    let first := readMessage codec stream
    let rest := readMessages first.2 count
    (first.1 :: rest.1, rest.2)

/-- One turn of the waiting loop: what arrives before the peek, whether the peek fails, whether the
deadline has passed afterwards, and what arrives while the frame is read. -/
structure PeekTurn where
  arrived : Source UInt8
  fails : Bool
  expired : Bool
  late : Source UInt8

/-- `read_response_with_timeout`; `none` when it still waits after these turns. What `PeekNamedPipe`
has reported as available stays so. -/
def readResponseWithTimeout : List PeekTurn → Source UInt8 →
    Option (Except IoError T × Source UInt8)
  | [], _ => none
  | turn :: turns, file =>
    let file := file.append turn.arrived
    let header := file.content.take 4
    let wait := if turn.expired then
        some (.error (.timedOut "input service response timed out"), file)
      else readResponseWithTimeout turns file
    if turn.fails then some (.error .lastOsError, file)
    else if header.length = 4 then
      if MAX_MESSAGE_BYTES < ofLeBytes header then
        some (.error (.invalidData "input service response is too large"), file)
      else if 4 + ofLeBytes header ≤ file.content.length then
        some (readMessage codec (file.append turn.late))
      else wait
    else wait

/-- An encoding that the writer takes. -/
def Fits (message : T) : Prop :=
  ∃ payload, codec.encode message = some payload ∧ payload.length ≤ MAX_MESSAGE_BYTES

/-- What has been in the pipe at one of the peeks. -/
def seenAfter (turns : List PeekTurn) (file : Source UInt8) (count : Nat) : List UInt8 :=
  file.content ++ (turns.take count).flatMap fun turn => turn.arrived.content

/-- The error took nothing from what was there. -/
def TookNothing (seen : List UInt8) (result : Except IoError T × Source UInt8) : Prop :=
  (∃ e, result.1 = .error e) ∧ result.2.content = seen

/-- One whole frame was taken from what was there, as `read_message` takes it, and what arrived
meanwhile is left. -/
def TookFrame (seen : List UInt8) (result : Except IoError T × Source UInt8) : Prop :=
  ∃ payload rest late, seen = frame payload ++ rest ∧ payload.length ≤ MAX_MESSAGE_BYTES ∧
    result.2.content = rest ++ late ∧
    ∀ stream : Source UInt8, stream.content = seen → (readMessage codec stream).1 = result.1

/-- What `read_message` returns for an encoding. -/
def decoded (payload : List UInt8) : Except IoError T :=
  match codec.decode payload with
  | none => .error .malformed
  | some message => .ok message

variable {codec} {message : T} {messages : List T} {payload rest seen : List UInt8}
  {sink : Sink UInt8} {stream file : Source UInt8}

theorem decoded_of_encode (h : codec.encode message = some payload) :
    decoded codec payload = .ok message := by
  rw [decoded, codec.decode_encode message payload h]

theorem ofLeBytes_length (h : payload.length ≤ MAX_MESSAGE_BYTES) :
    ofLeBytes (leBytes 4 payload.length) = payload.length := by
  have hmax : MAX_MESSAGE_BYTES < 256 ^ 4 := by decide
  rw [ofLeBytes_leBytes]
  exact Nat.mod_eq_of_lt (by omega)

/-- The writer appends the frame of an encoding that fits. -/
theorem writeMessage_fits (hencode : codec.encode message = some payload)
    (hfits : payload.length ≤ MAX_MESSAGE_BYTES) (sink : Sink UInt8) :
    ∃ sink', writeMessage codec sink message = (.ok (), sink') ∧
      sink'.written = sink.written ++ frame payload := by
  refine ⟨(sink.writeAll (leBytes 4 payload.length)).writeAll payload, ?_, ?_⟩
  · rw [writeMessage, hencode]
    dsimp only
    rw [if_neg (by omega)]
  · rw [Sink.written_writeAll, Sink.written_writeAll, frame, List.append_assoc]

/-- The reader takes the frame off, however it arrives. -/
theorem readMessage_frame (hsize : payload.length ≤ MAX_MESSAGE_BYTES)
    (h : stream.content = frame payload ++ rest) :
    (readMessage codec stream).1 = decoded codec payload ∧
      (readMessage codec stream).2.content = rest := by
  rw [frame, List.append_assoc] at h
  obtain ⟨stream₁, hheader, hcontent⟩ := Source.readExact_append h
  obtain ⟨stream₂, hpayload, hrest⟩ := Source.readExact_append hcontent
  rw [length_leBytes] at hheader
  rw [readMessage, hheader]
  dsimp only
  rw [ofLeBytes_length hsize, if_neg (by omega), hpayload]
  dsimp only
  rw [decoded]
  cases codec.decode payload with
  | none => exact ⟨rfl, hrest⟩
  | some message => exact ⟨rfl, hrest⟩

/-- The reader refuses a frame that is announced as too long. -/
theorem readMessage_tooLarge {length : Nat} (hlong : MAX_MESSAGE_BYTES < length)
    (hword : length < 2 ^ 32) (h : stream.content = leBytes 4 length ++ rest) :
    (readMessage codec stream).1 = .error (.invalidData "message too large") := by
  obtain ⟨stream₁, hheader, -⟩ := Source.readExact_append h
  have hlength : ofLeBytes (leBytes 4 length) = length := by
    rw [ofLeBytes_leBytes]
    exact Nat.mod_eq_of_lt (by omega)
  rw [length_leBytes] at hheader
  rw [readMessage, hheader]
  dsimp only
  rw [hlength, if_pos hlong]

/-- Writing and reading a list of messages. -/
theorem round_trip (hfits : ∀ m ∈ messages, Fits codec m) (sink : Sink UInt8) :
    ∃ sink' bytes, writeMessages codec sink messages = (.ok (), sink') ∧
      sink'.written = sink.written ++ bytes ∧
      ∀ (stream : Source UInt8) (rest : List UInt8), stream.content = bytes ++ rest →
        (readMessages codec stream messages.length).1 = messages.map .ok ∧
          (readMessages codec stream messages.length).2.content = rest := by
  induction messages generalizing sink with
  | nil => exact ⟨sink, [], rfl, (List.append_nil _).symm, fun _ _ h => ⟨rfl, h⟩⟩
  | cons m ms ih =>
    obtain ⟨payload, hencode, hsize⟩ := hfits m List.mem_cons_self
    obtain ⟨sink₁, hwrite, hwritten⟩ := writeMessage_fits hencode hsize sink
    obtain ⟨sink₂, bytes, hothers, hbytes, hread⟩ :=
      ih (fun m' hm' => hfits m' (List.mem_cons_of_mem m hm')) sink₁
    refine ⟨sink₂, frame payload ++ bytes, ?_, ?_, ?_⟩
    · rw [writeMessages, hwrite]
      exact hothers
    · rw [hbytes, hwritten, List.append_assoc]
    · intro stream rest hstream
      rw [List.append_assoc] at hstream
      obtain ⟨hfirst, hleft⟩ := readMessage_frame hsize hstream
      obtain ⟨hall, hend⟩ := hread _ rest hleft
      rw [decoded_of_encode hencode] at hfirst
      refine ⟨?_, hend⟩
      rw [List.length_cons, readMessages, List.map_cons]
      dsimp only
      rw [hfirst, hall]

/-- A header and as many bytes behind it are a frame. -/
theorem exists_frame (hheader : (seen.take 4).length = 4)
    (hwhole : 4 + ofLeBytes (seen.take 4) ≤ seen.length) :
    ∃ payload rest, seen = frame payload ++ rest ∧ payload.length = ofLeBytes (seen.take 4) := by
  have hlength : ((seen.drop 4).take (ofLeBytes (seen.take 4))).length =
      ofLeBytes (seen.take 4) := by
    rw [List.length_take, List.length_drop]
    omega
  refine ⟨(seen.drop 4).take (ofLeBytes (seen.take 4)),
    (seen.drop 4).drop (ofLeBytes (seen.take 4)), ?_, hlength⟩
  have hbytes : leBytes 4 (ofLeBytes (seen.take 4)) = seen.take 4 := by
    have h := leBytes_ofLeBytes (seen.take 4)
    rw [hheader] at h
    exact h
  rw [frame, hlength, hbytes, List.append_assoc, List.take_append_drop, List.take_append_drop]

/-- What a peek shows of a frame. -/
theorem peek_frame (hsize : payload.length ≤ MAX_MESSAGE_BYTES) (h : seen = frame payload ++ rest) :
    (seen.take 4).length = 4 ∧ ofLeBytes (seen.take 4) = payload.length ∧
      4 + payload.length ≤ seen.length := by
  have hheader : seen.take 4 = leBytes 4 payload.length := by
    rw [h, frame, List.append_assoc]
    exact List.take_left' (length_leBytes 4 _)
  have hlength : seen.length = 4 + payload.length + rest.length := by
    rw [h, frame, List.length_append, List.length_append, length_leBytes]
  rw [hheader, ofLeBytes_length hsize]
  exact ⟨length_leBytes 4 _, rfl, by omega⟩

/-- A turn that the loop waits after. -/
theorem readResponse_waits {turn : PeekTurn} {turns : List PeekTurn}
    (h : readResponseWithTimeout codec (turn :: turns) file = none) :
    readResponseWithTimeout codec turns (file.append turn.arrived) = none ∧
      ∀ others, readResponseWithTimeout codec (turn :: others) file =
        readResponseWithTimeout codec others (file.append turn.arrived) := by
  rw [readResponseWithTimeout] at h
  split_ifs at h with hfails hheader hlong hwhole hexpired hexpired
  · refine ⟨h, fun others => ?_⟩
    rw [readResponseWithTimeout]
    simp only [hfails, hheader, hlong, hwhole, hexpired, if_true, Bool.false_eq_true, if_false]
  · refine ⟨h, fun others => ?_⟩
    rw [readResponseWithTimeout]
    simp only [hfails, hheader, hexpired, Bool.false_eq_true, if_false]

/-- The turn at which a whole frame is seen ends the loop. -/
theorem readResponse_returns {turns : List PeekTurn} {count : Nat} {turn : PeekTurn}
    (hreached : readResponseWithTimeout codec (turns.take count) file = none)
    (hturn : turns[count]? = some turn) (hpeek : turn.fails = false)
    (hsize : payload.length ≤ MAX_MESSAGE_BYTES)
    (hseen : seenAfter turns file (count + 1) = frame payload ++ rest) :
    ∃ stream, readResponseWithTimeout codec turns file = some (decoded codec payload, stream) ∧
      stream.content = rest ++ turn.late.content := by
  induction count generalizing turns file with
  | zero =>
    obtain ⟨others, rfl⟩ : ∃ others, turns = turn :: others := by
      cases turns with
      | nil => cases hturn
      | cons first others => exact ⟨others, by rw [Option.some.inj hturn]⟩
    have hcontent : (file.append turn.arrived).content = frame payload ++ rest := by
      simpa [seenAfter] using hseen
    obtain ⟨hheader, hlength, hwhole⟩ := peek_frame hsize hcontent
    have hfile : ((file.append turn.arrived).append turn.late).content =
        frame payload ++ (rest ++ turn.late.content) := by
      rw [Source.content_append, hcontent, List.append_assoc]
    obtain ⟨hresult, hleft⟩ : (readMessage codec _).1 = decoded codec payload ∧ _ :=
      readMessage_frame hsize hfile
    refine ⟨_, ?_, hleft⟩
    rw [readResponseWithTimeout, if_neg (by simp [hpeek]), if_pos hheader, hlength,
      if_neg (by omega), if_pos hwhole, ← hresult]
  | succ count ih =>
    cases turns with
    | nil => cases hturn
    | cons first others =>
      rw [List.take_succ_cons] at hreached
      obtain ⟨hrest, hsame⟩ := readResponse_waits hreached
      rw [List.getElem?_cons_succ] at hturn
      rw [hsame others]
      apply ih hrest hturn
      rw [← hseen]
      simp [seenAfter, List.append_assoc]

/-- The loop gives up at a turn after the deadline that has not seen a whole frame. -/
theorem readResponse_timedOut {turns : List PeekTurn} {text : String} {stream : Source UInt8}
    (h : readResponseWithTimeout codec turns file = some (.error (.timedOut text), stream)) :
    ∃ count turn, turns[count]? = some turn ∧ turn.expired = true ∧
      ∀ payload rest, payload.length ≤ MAX_MESSAGE_BYTES →
        seenAfter turns file (count + 1) ≠ frame payload ++ rest := by
  induction turns generalizing file with
  | nil => exact nomatch h
  | cons turn turns ih =>
    have hmore : readResponseWithTimeout codec turns (file.append turn.arrived) =
        some (.error (.timedOut text), stream) →
        ∃ count other, (turn :: turns)[count]? = some other ∧ other.expired = true ∧
          ∀ payload rest, payload.length ≤ MAX_MESSAGE_BYTES →
            seenAfter (turn :: turns) file (count + 1) ≠ frame payload ++ rest := by
      intro hturns
      obtain ⟨count, other, hother, hexpired, hno⟩ := ih hturns
      refine ⟨count + 1, other, hother, hexpired, ?_⟩
      intro payload rest hsize hseen
      apply hno payload rest hsize
      rw [← hseen]
      simp [seenAfter, List.append_assoc]
    have hfirst : seenAfter (turn :: turns) file 1 = (file.append turn.arrived).content := by
      simp [seenAfter]
    rw [readResponseWithTimeout] at h
    split_ifs at h with hfails hheader hlong hwhole hexpired hexpired
    · cases h
    · cases h
    · obtain ⟨payload, rest, hseen, hlength⟩ := exists_frame hheader hwhole
      have hfile : ((file.append turn.arrived).append turn.late).content =
          frame payload ++ (rest ++ turn.late.content) := by
        rw [Source.content_append, hseen, List.append_assoc]
      have hresult : (readMessage codec _).1 = decoded codec payload :=
        (readMessage_frame (by omega) hfile).1
      rw [Option.some.inj h, decoded] at hresult
      split at hresult
      · cases hresult
      · cases hresult
    · refine ⟨0, turn, rfl, hexpired, ?_⟩
      intro payload rest hsize hseen
      rw [hfirst] at hseen
      obtain ⟨-, hlength, hthere⟩ := peek_frame hsize hseen
      rw [hlength] at hwhole
      exact hwhole hthere
    · exact hmore h
    · refine ⟨0, turn, rfl, hexpired, ?_⟩
      intro payload rest hsize hseen
      rw [hfirst] at hseen
      exact hheader (peek_frame hsize hseen).1
    · exact hmore h

/-- The waiting read takes nothing or one whole frame. -/
theorem readResponse_takes {turns : List PeekTurn} {result : Except IoError T × Source UInt8}
    (h : readResponseWithTimeout codec turns file = some result) :
    ∃ count, TookNothing (seenAfter turns file count) result ∨
      TookFrame codec (seenAfter turns file count) result := by
  induction turns generalizing file with
  | nil => exact nomatch h
  | cons turn turns ih =>
    have hfirst : seenAfter (turn :: turns) file 1 = (file.append turn.arrived).content := by
      simp [seenAfter]
    have hmore : readResponseWithTimeout codec turns (file.append turn.arrived) = some result →
        ∃ count, TookNothing (seenAfter (turn :: turns) file count) result ∨
          TookFrame codec (seenAfter (turn :: turns) file count) result := by
      intro hturns
      obtain ⟨count, hcount⟩ := ih hturns
      have hseen : seenAfter (turn :: turns) file (count + 1) =
          seenAfter turns (file.append turn.arrived) count := by
        simp [seenAfter, List.append_assoc]
      refine ⟨count + 1, ?_⟩
      rw [hseen]
      exact hcount
    -- Whatever the error is, the file is as it was at the peek.
    have hfailed : ∀ e, some (Except.error e, file.append turn.arrived) = some result →
        ∃ count, TookNothing (seenAfter (turn :: turns) file count) result ∨
          TookFrame codec (seenAfter (turn :: turns) file count) result := by
      intro e heq
      obtain rfl := Option.some.inj heq
      exact ⟨1, .inl ⟨⟨e, rfl⟩, hfirst.symm⟩⟩
    rw [readResponseWithTimeout] at h
    split_ifs at h with hfails hheader hlong hwhole
    · exact hfailed _ h
    · exact hfailed _ h
    · obtain rfl := Option.some.inj h
      obtain ⟨payload, rest, hseen, hlength⟩ := exists_frame hheader hwhole
      have hsize : payload.length ≤ MAX_MESSAGE_BYTES := by omega
      have hfile : ((file.append turn.arrived).append turn.late).content =
          frame payload ++ (rest ++ turn.late.content) := by
        rw [Source.content_append, hseen, List.append_assoc]
      have htaken : (readMessage codec _).1 = _ ∧ _ := readMessage_frame hsize hfile
      obtain ⟨hresult, hleft⟩ := htaken
      refine ⟨1, .inr ⟨payload, rest, turn.late.content, ?_, hsize, hleft, ?_⟩⟩
      · rw [hfirst, hseen]
      · intro stream hstream
        rw [hfirst, hseen] at hstream
        rw [(readMessage_frame hsize hstream).1, hresult]
    · exact hfailed _ h
    · exact hmore h
    · exact hfailed _ h
    · exact hmore h

/-- The loop ends when the deadline passes. -/
theorem readResponse_ends {turns : List PeekTurn} (h : ∃ turn ∈ turns, turn.expired = true)
    (file : Source UInt8) : ∃ result, readResponseWithTimeout codec turns file = some result := by
  induction turns generalizing file with
  | nil =>
    obtain ⟨turn, hturn, -⟩ := h
    exact nomatch hturn
  | cons turn turns ih =>
    rw [readResponseWithTimeout]
    have hmore : ¬ turn.expired = true →
        ∃ result, readResponseWithTimeout codec turns (file.append turn.arrived) = some result := by
      intro hexpired
      apply ih
      obtain ⟨other, hother, hpassed⟩ := h
      rcases List.mem_cons.1 hother with rfl | hturns
      · exact absurd hpassed hexpired
      · exact ⟨other, hturns, hpassed⟩
    split_ifs with _ _ _ _ hexpired hexpired
    all_goals first
      | exact ⟨_, rfl⟩
      | exact hmore hexpired

/-- What is written is read back, both sides refuse what is too long, and the waiting read takes
nothing or one whole frame: a frame that a peek has shown, and a time-out comes after the
deadline only, without one. -/
theorem ipc_framing (codec : MessageCodec T) :
    (∀ (messages : List T) (sink : Sink UInt8), (∀ m ∈ messages, Fits codec m) →
      ∃ sink' bytes, writeMessages codec sink messages = (.ok (), sink') ∧
        sink'.written = sink.written ++ bytes ∧
        ∀ stream : Source UInt8, stream.content = bytes →
          (readMessages codec stream messages.length).1 = messages.map .ok ∧
            (readMessages codec stream messages.length).2.content = []) ∧
    (∀ message payload, codec.encode message = some payload → MAX_MESSAGE_BYTES < payload.length →
      ∀ sink : Sink UInt8,
        writeMessage codec sink message = (.error (.invalidData "message too large"), sink)) ∧
    (∀ length, MAX_MESSAGE_BYTES < length → length < 2 ^ 32 →
      ∀ (stream : Source UInt8) (rest : List UInt8), stream.content = leBytes 4 length ++ rest →
        (readMessage codec stream).1 = .error (.invalidData "message too large")) ∧
    (∀ (turns : List PeekTurn) (file : Source UInt8) (result : Except IoError T × Source UInt8),
      readResponseWithTimeout codec turns file = some result →
        ∃ count, TookNothing (seenAfter turns file count) result ∨
          TookFrame codec (seenAfter turns file count) result) ∧
    (∀ (turns : List PeekTurn) (file : Source UInt8) (count : Nat) (turn : PeekTurn)
      (payload rest : List UInt8), readResponseWithTimeout codec (turns.take count) file = none →
      turns[count]? = some turn → turn.fails = false → payload.length ≤ MAX_MESSAGE_BYTES →
      seenAfter turns file (count + 1) = frame payload ++ rest →
        ∃ result, readResponseWithTimeout codec turns file = some result ∧
          result.2.content = rest ++ turn.late.content ∧
          ∀ stream : Source UInt8, stream.content = frame payload ++ rest →
            (readMessage codec stream).1 = result.1) ∧
    (∀ (turns : List PeekTurn) (file stream : Source UInt8) (text : String),
      readResponseWithTimeout codec turns file = some (.error (.timedOut text), stream) →
        ∃ count turn, turns[count]? = some turn ∧ turn.expired = true ∧
          ∀ payload rest, payload.length ≤ MAX_MESSAGE_BYTES →
            seenAfter turns file (count + 1) ≠ frame payload ++ rest) ∧
    (∀ (turns : List PeekTurn) (file : Source UInt8), (∃ turn ∈ turns, turn.expired = true) →
      ∃ result, readResponseWithTimeout codec turns file = some result) := by
  refine ⟨?_, ?_, ?_, ?_, ?_, ?_, ?_⟩
  · intro messages sink hfits
    obtain ⟨sink', bytes, hwrite, hbytes, hread⟩ := round_trip hfits sink
    refine ⟨sink', bytes, hwrite, hbytes, ?_⟩
    intro stream hstream
    apply hread
    rw [hstream, List.append_nil]
  · intro message payload hencode hlong sink
    rw [writeMessage, hencode]
    dsimp only
    rw [if_pos hlong]
  · intro length hlong hword stream rest hstream
    exact readMessage_tooLarge hlong hword hstream
  · intro turns file result hresult
    exact readResponse_takes hresult
  · intro turns file count turn payload rest hreached hturn hpeek hsize hseen
    obtain ⟨stream, hresult, hleft⟩ := readResponse_returns hreached hturn hpeek hsize hseen
    refine ⟨_, hresult, hleft, ?_⟩
    intro other hother
    exact (readMessage_frame hsize hother).1
  · intro turns file stream text htimedOut
    exact readResponse_timedOut htimedOut
  · intro turns file hexpired
    exact readResponse_ends hexpired file

end Codec

/-- The JSON of a truth value. -/
def flagCodec : MessageCodec Bool where
  encode flag := some (if flag then "true".toUTF8.data.toList else "false".toUTF8.data.toList)
  decode payload :=
    if payload = "true".toUTF8.data.toList then some true
    else if payload = "false".toUTF8.data.toList then some false
    else none
  decode_encode := by decide

def arrival (bytes : List UInt8) (h : bytes ≠ []) : PeekTurn where
  arrived := ⟨[bytes], by simpa using h⟩
  fails := false
  expired := false
  late := ⟨[], by simp⟩

def slowFlag : List PeekTurn :=
  [arrival [4, 0, 0] (by simp), arrival (0 :: "true".toUTF8.data.toList) (by simp)]

def noFlag : List PeekTurn :=
  [{ arrived := ⟨[], by simp⟩, fails := false, expired := true, late := ⟨[], by simp⟩ }]

theorem ipc_framing_flags :
    (∃ sink' bytes, writeMessages flagCodec ⟨fun _ => 0, []⟩ [true, false] = (.ok (), sink') ∧
      sink'.written = [] ++ bytes ∧
      ∀ stream : Source UInt8, stream.content = bytes →
        (readMessages flagCodec stream 2).1 = [.ok true, .ok false] ∧
          (readMessages flagCodec stream 2).2.content = []) ∧
    (readMessage flagCodec ⟨[leBytes 4 (MAX_MESSAGE_BYTES + 1)], by decide⟩).1 =
      .error (.invalidData "message too large") ∧
    (∃ result, readResponseWithTimeout flagCodec slowFlag ⟨[], by simp⟩ = some result ∧
      result.1 = .ok true ∧ result.2.content = []) ∧
    ∃ result, readResponseWithTimeout flagCodec noFlag ⟨[], by simp⟩ = some result := by
  obtain ⟨hround, -, hlong, -, hreturns, -, hends⟩ := ipc_framing flagCodec
  refine ⟨?_, ?_, ?_, ?_⟩
  · have hfits : ∀ m ∈ [true, false], Fits flagCodec m := by
      intro m _
      cases m
      · exact ⟨_, rfl, by decide⟩
      · exact ⟨_, rfl, by decide⟩
    exact hround [true, false] ⟨fun _ => 0, []⟩ hfits
  · exact hlong (MAX_MESSAGE_BYTES + 1) (by decide) (by decide) _ [] rfl
  · obtain ⟨result, hresult, hleft, hsame⟩ := hreturns slowFlag ⟨[], by simp⟩ 1 _
      "true".toUTF8.data.toList [] rfl rfl rfl (by decide) (by decide)
    refine ⟨result, hresult, ?_, hleft⟩
    have hframe : Source.content ⟨[frame "true".toUTF8.data.toList], by decide⟩ =
        frame "true".toUTF8.data.toList ++ [] := rfl
    have hread : (readMessage flagCodec _).1 = decoded flagCodec _ :=
      (readMessage_frame (by decide) hframe).1
    rw [hsame _ hframe] at hread
    rw [hread]
    rfl
  · exact hends noFlag ⟨[], by simp⟩ ⟨_, List.mem_singleton_self _, rfl⟩

end FlowType
