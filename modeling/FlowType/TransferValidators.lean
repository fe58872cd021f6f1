import Mathlib.Data.List.DropRight
import FlowType.JsonSizes
import FlowType.TargetMapping

/-! The checks of the file messages on Android beside those on Windows. A Kotlin text is its
UTF-16 units and, as `toByteArray`, its UTF-8 bytes; a Rust text is its UTF-8 bytes. -/
namespace FlowType

def MIN_TICKET_BYTES : Nat := 32

def MAX_TICKET_TEXT_BYTES : Nat := 128

structure FileTicket where
  protocolVersion : Nat := PROTOCOL_VERSION
  transferVersion : Nat := FILE_TRANSFER_VERSION
  batchId : String
  dataPort : Nat
  token : String
  expiresAtEpochSeconds : Nat
  deriving DecidableEq, Repr

def isAsciiAlphanumeric (byte : Nat) : Bool :=
  (48 ≤ byte && byte ≤ 57) || (65 ≤ byte && byte ≤ 90) || (97 ≤ byte && byte ≤ 122)

/-- `base64_url_decoded_len`. The subtraction of the padding wraps: the release build has no
overflow checks. -/
def base64UrlDecodedLen (value : String) : Option Nat :=
  let bytes := encodeUtf8 value
  if bytes = [] ∨ bytes.any (fun byte =>
      !(isAsciiAlphanumeric byte || byte == 45 || byte == 95 || byte == 61)) = true then none
  else
    let padding := (bytes.rtakeWhile (· == 61)).length
    if 2 < padding ∨ 61 ∈ bytes.take (bytes.length - padding) then none
    else some ((min (bytes.length * 3) (2 ^ 64 - 1) / 4 + 2 ^ 64 - padding) % 2 ^ 64)

def FileTicket.validate (ticket : FileTicket) (nowEpochSeconds : Nat) : Bool :=
  validVersions ticket.protocolVersion ticket.transferVersion &&
    validIdentifier ticket.batchId MAX_BATCH_ID_BYTES &&
    (base64UrlDecodedLen ticket.token).any fun decodedLen =>
      !(ticket.dataPort == 0 || decodedLen < MIN_TICKET_BYTES ||
        MAX_TICKET_TEXT_BYTES < ticket.token.utf8ByteSize ||
        MAX_WIRE_INTEGER < ticket.expiresAtEpochSeconds ||
        ticket.expiresAtEpochSeconds ≤ nowEpochSeconds)

def EntryKind.wireName : EntryKind → String
  | .file => "file"
  | .directory => "directory"

def ManifestEntry.fields (escape : Char → List Char) (entry : ManifestEntry) :
    List (String × String) :=
  [("ordinal", toString entry.ordinal), ("entry_id", quoteWith escape entry.entryId),
    ("relative_path", quoteWith escape (String.ofList entry.relativePath)),
    ("kind", quoteWith escape entry.kind.wireName), ("size", toString entry.size)] ++
  entry.modifiedAt.toList.map (fun time => ("modified_at_epoch_millis", toString time)) ++
  entry.mimeType.toList.map (fun mime => ("mime_type", quoteWith escape mime)) ++
  entry.sha256.toList.map fun hash => ("sha256", quoteWith escape hash)

/-- `serde_json::to_vec` of an entry. -/
def serdeLineLength (entry : ManifestEntry) : Nat :=
  (jsonObject (entry.fields serdeEscapeChar)).utf8ByteSize

namespace Kotlin

def isISOControl (unit : Nat) : Bool := unit ≤ 0x1f || (0x7f ≤ unit && unit ≤ 0x9f)

def validIdentifier (value : String) (maxBytes : Nat) : Bool :=
  let bytes := encodeUtf8 value
  !bytes.isEmpty && bytes.length ≤ maxBytes && bytes.all fun byte =>
    (97 ≤ byte && byte ≤ 122) || (65 ≤ byte && byte ≤ 90) || (48 ≤ byte && byte ≤ 57) ||
      byte == 45 || byte == 95

def validRootSummary (value : String) : Bool :=
  !(encodeUtf16 value).isEmpty && (encodeUtf8 value).length ≤ MAX_ROOT_SUMMARY_BYTES &&
    !(encodeUtf16 value).any isISOControl

def validVersions (protocolVersion transferVersion : Nat) : Bool :=
  !(protocolVersion != PROTOCOL_VERSION || transferVersion != FILE_TRANSFER_VERSION)

/-- `FileOfferMessage.validate`. -/
def validateOffer (message : FileOffer) (authenticatedPhoneId : String) : Bool :=
  validVersions message.protocolVersion message.transferVersion &&
    (message.phoneId == authenticatedPhoneId &&
      validIdentifier message.phoneId MAX_PHONE_ID_BYTES) &&
    validIdentifier message.batchId MAX_BATCH_ID_BYTES &&
    (0 < message.fileCount || 0 < message.directoryCount) &&
    message.roots.length ≤ MAX_ROOT_SUMMARIES && message.roots.all validRootSummary

/-- `Char.isLetterOrDigit` knows the letters and digits of Unicode; of ASCII they are the
usual ones. -/
structure CharClasses where
  isLetterOrDigit : Nat → Bool
  ascii : ∀ unit < 128, isLetterOrDigit unit = isAsciiAlphanumeric unit

/-- `base64UrlDecodedLength`, in integers of 32 bits. -/
def base64UrlDecodedLength (classes : CharClasses) (value : String) : Option Int :=
  let units := encodeUtf16 value
  if units = [] ∨ units.any (fun unit =>
      !(classes.isLetterOrDigit unit || unit == 45 || unit == 95 || unit == 61)) = true then none
  else
    let padding := (units.rtakeWhile (· == 61)).length
    if 2 < padding ∨ 61 ∈ units.take (units.length - padding) then none
    else some ((((units.length : Int) * 3).bmod (2 ^ 32)).tdiv 4 - padding)

/-- `FileTicketMessage.validate`. -/
def validateTicket (classes : CharClasses) (message : FileTicket) (nowEpochSeconds : Nat) : Bool :=
  validVersions message.protocolVersion message.transferVersion &&
    validIdentifier message.batchId MAX_BATCH_ID_BYTES &&
    (1 ≤ message.dataPort && message.dataPort ≤ 65535) &&
    (base64UrlDecodedLength classes message.token).any fun decodedBytes =>
      (MIN_TICKET_BYTES : Int) ≤ decodedBytes &&
        (encodeUtf8 message.token).length ≤ MAX_TICKET_TEXT_BYTES &&
        nowEpochSeconds < message.expiresAtEpochSeconds

def validateRelativeTransferPath (path : List Char) : Bool :=
  let units := path.flatMap utf16Units
  let segments := units.splitOn 47
  !units.isEmpty && (path.flatMap utf8Bytes).length ≤ MAX_RELATIVE_PATH_BYTES &&
    units.head? ≠ some 47 && units.getLast? ≠ some 47 && !units.contains 92 &&
    !units.any (fun unit => unit == 0 || isISOControl unit) &&
    segments.length ≤ 128 && segments.all fun segment =>
      !segment.isEmpty && segment ≠ [46] && segment ≠ [46, 46] && segment.length ≤ 255

def encodeManifestEntry (entry : ManifestEntry) : String := jsonObject (entry.fields escapeChar)

def isHexDigit (unit : Nat) : Bool :=
  (48 ≤ unit && unit ≤ 57) || (97 ≤ unit && unit ≤ 102) || (65 ≤ unit && unit ≤ 70)

/-- `TransferManifestEntry.validate`. -/
def validateEntry (entry : ManifestEntry) : Bool :=
  validIdentifier entry.entryId MAX_ENTRY_ID_BYTES &&
    validateRelativeTransferPath entry.relativePath &&
    (entry.kind != .directory || entry.size == 0) &&
    (entry.mimeType.all fun mime => !(encodeUtf16 mime).isEmpty &&
      (encodeUtf16 mime).length ≤ 255 && !(encodeUtf16 mime).any isISOControl) &&
    (entry.sha256.all fun hash => (encodeUtf16 hash).length == 64 &&
      (encodeUtf16 hash).all isHexDigit) &&
    (encodeUtf8 (encodeManifestEntry entry)).length ≤ MAX_MANIFEST_LINE_BYTES

end Kotlin

/-! ### Texts -/

theorem length_encodeUtf8 (text : String) : (encodeUtf8 text).length = text.utf8ByteSize := by
  rw [encodeUtf8, length_flatMap_utf8, utf8ByteSize_eq]

theorem length_encodeUtf16 (text : String) :
    (encodeUtf16 text).length = utf16Length text.toList :=
  length_flatMap_utf16 text.toList

theorem encodeUtf16_isEmpty (text : String) :
    (encodeUtf16 text).isEmpty = decide (text = "") := by
  rw [Bool.eq_iff_iff, List.isEmpty_iff, decide_eq_true_iff, encodeUtf16,
    asciiCode_utf16.flatMap_eq_nil, String.toList_eq_nil_iff]

theorem encodeUtf8_isEmpty (text : String) : (encodeUtf8 text).isEmpty = decide (text = "") := by
  rw [Bool.eq_iff_iff, List.isEmpty_iff, decide_eq_true_iff, encodeUtf8,
    asciiCode_utf8.flatMap_eq_nil, String.toList_eq_nil_iff]

theorem any_isISOControl (text : List Char) :
    (text.flatMap utf16Units).any Kotlin.isISOControl = text.any isControlChar := by
  have hsurrogate : ∀ u, 0xD800 ≤ u → Kotlin.isISOControl u = false := by
    intro u hu
    simp only [Kotlin.isISOControl, Bool.or_eq_false_iff, Bool.and_eq_false_iff,
      decide_eq_false_iff_not]
    omega
  rw [any_flatMap_utf16 hsurrogate]
  apply List.any_congr rfl
  intro c
  rw [Bool.eq_iff_iff]
  simp only [Kotlin.isISOControl, isControlChar, Bool.or_eq_true, Bool.and_eq_true,
    decide_eq_true_iff]
  omega

theorem isAlphanum_eq (c : Char) : c.isAlphanum = isAsciiAlphanumeric c.toNat := by
  rw [Bool.eq_iff_iff, isAsciiAlphanumeric]
  delta Char.isAlphanum Char.isAlpha Char.isUpper Char.isLower Char.isDigit
  simp only [ge_iff_le, UInt32.le_iff_toNat_le, Bool.or_eq_true, Bool.and_eq_true, decide_eq_true_iff]
  change ((65 ≤ c.toNat ∧ c.toNat ≤ 90) ∨ 97 ≤ c.toNat ∧ c.toNat ≤ 122) ∨
    48 ≤ c.toNat ∧ c.toNat ≤ 57 ↔ _
  omega

theorem Kotlin.validIdentifier_eq (value : String) (maxBytes : Nat) :
    Kotlin.validIdentifier value maxBytes = FlowType.validIdentifier value maxBytes := by
  have hcode : (encodeUtf8 value).all (fun byte =>
      (97 ≤ byte && byte ≤ 122) || (65 ≤ byte && byte ≤ 90) || (48 ≤ byte && byte ≤ 57) ||
        byte == 45 || byte == 95) =
      value.toList.all fun c => c.isAlphanum || c == '-' || c == '_' := by
    rw [encodeUtf8, asciiCode_utf8.all_flatMap]
    · apply List.all_congr rfl
      intro c
      have hdash : (c == '-') = decide (c.toNat = 45) := by
        rw [Bool.eq_iff_iff, beq_iff_eq, decide_eq_true_iff, ← Char.toNat_inj]
        rfl
      have hline : (c == '_') = decide (c.toNat = 95) := by
        rw [Bool.eq_iff_iff, beq_iff_eq, decide_eq_true_iff, ← Char.toNat_inj]
        rfl
      rw [hdash, hline, isAlphanum_eq, isAsciiAlphanumeric, Bool.eq_iff_iff]
      simp only [Bool.or_eq_true, Bool.and_eq_true, decide_eq_true_iff, beq_iff_eq]
      omega
    · intro u hu
      simp only [Bool.or_eq_false_iff, Bool.and_eq_false_iff, decide_eq_false_iff_not,
        beq_eq_false_iff_ne]
      omega
  simp only [Kotlin.validIdentifier, FlowType.validIdentifier]
  rw [hcode, length_encodeUtf8, encodeUtf8_isEmpty]
  simp

theorem Kotlin.validVersions_eq (protocolVersion transferVersion : Nat) :
    Kotlin.validVersions protocolVersion transferVersion =
      FlowType.validVersions protocolVersion transferVersion := by
  simp [Kotlin.validVersions, FlowType.validVersions, bne]

theorem Kotlin.validRootSummary_eq (value : String) :
    Kotlin.validRootSummary value =
      (value ≠ "" && value.utf8ByteSize ≤ MAX_ROOT_SUMMARY_BYTES &&
        !value.toList.any isControlChar) := by
  rw [Kotlin.validRootSummary, length_encodeUtf8, encodeUtf16_isEmpty, encodeUtf16,
    any_isISOControl]
  simp

theorem Kotlin.validateOffer_eq (message : FileOffer) (authenticatedPhoneId : String)
    (hfiles : message.fileCount ≤ MAX_WIRE_INTEGER)
    (hdirectories : message.directoryCount ≤ MAX_WIRE_INTEGER)
    (hbytes : message.totalBytes ≤ MAX_WIRE_INTEGER) :
    Kotlin.validateOffer message authenticatedPhoneId = message.validate authenticatedPhoneId := by
  have hroots : message.roots.all Kotlin.validRootSummary = message.roots.all fun root =>
      root ≠ "" && root.utf8ByteSize ≤ MAX_ROOT_SUMMARY_BYTES && !root.toList.any isControlChar :=
    List.all_congr rfl Kotlin.validRootSummary_eq
  have hcount : (decide (0 < message.fileCount) || decide (0 < message.directoryCount)) =
      !(message.fileCount == 0 && message.directoryCount == 0) := by
    rw [Bool.eq_iff_iff]
    simp only [Bool.or_eq_true, decide_eq_true_iff, Bool.not_eq_true', Bool.and_eq_false_iff,
      beq_eq_false_iff_ne]
    omega
  simp only [Kotlin.validateOffer, FileOffer.validate, Kotlin.validVersions_eq,
    Kotlin.validIdentifier_eq, hroots, hcount, hfiles, hdirectories, hbytes, decide_true,
    Bool.and_true, Bool.and_assoc]

/-! ### Relative paths -/

theorem Kotlin.validateRelativeTransferPath_eq (path : List Char) :
    Kotlin.validateRelativeTransferPath path = validateRelativePath path := by
  have hcode := asciiCode_utf16
  have hempty : (path.flatMap utf16Units).isEmpty = decide (path = []) := by
    rw [Bool.eq_iff_iff, List.isEmpty_iff, decide_eq_true_iff, hcode.flatMap_eq_nil]
  have hhead : (path.flatMap utf16Units).head? = some 47 ↔ path.head? = some '/' :=
    hcode.head?_flatMap (d := '/') (by decide)
  have hlast : (path.flatMap utf16Units).getLast? = some 47 ↔ path.getLast? = some '/' :=
    hcode.getLast?_flatMap (d := '/') (by decide)
  have hslash : (path.flatMap utf16Units).contains 92 = path.contains '\\' := by
    rw [Bool.eq_iff_iff, List.contains_iff_mem, List.contains_iff_mem]
    exact hcode.mem_flatMap (d := '\\') (by decide)
  have hcontrol : (path.flatMap utf16Units).any (fun unit => unit == 0 || isISOControl unit) =
      path.any isControlChar := by
    rw [← any_isISOControl]
    apply List.any_congr rfl
    intro unit
    rw [Bool.eq_iff_iff]
    simp only [isISOControl, Bool.or_eq_true, Bool.and_eq_true, decide_eq_true_iff, beq_iff_eq]
    omega
  have hsplit : (path.flatMap utf16Units).splitOn 47 =
      (path.splitOn '/').map fun segment => segment.flatMap utf16Units :=
    hcode.splitOn_flatMap (d := '/') (by decide) path
  have hsegments : ((path.splitOn '/').map fun segment => segment.flatMap utf16Units).all
      (fun segment => !segment.isEmpty && segment ≠ [46] && segment ≠ [46, 46] &&
        segment.length ≤ 255) = (path.splitOn '/').all validSegment := by
    rw [List.all_map]
    apply List.all_congr rfl
    intro segment
    have hnil : segment.flatMap utf16Units = [] ↔ segment = [] := hcode.flatMap_eq_nil
    have hdot : segment.flatMap utf16Units = [46] ↔ segment = ['.'] :=
      hcode.flatMap_eq_iff ['.'] (by simp)
    have hdots : segment.flatMap utf16Units = [46, 46] ↔ segment = ['.', '.'] :=
      hcode.flatMap_eq_iff ['.', '.'] (by simp)
    rw [Bool.eq_iff_iff]
    simp only [Function.comp_apply, validSegment, Bool.and_eq_true, Bool.not_eq_true',
      decide_eq_true_iff, List.isEmpty_eq_false_iff, ne_eq, hnil, hdot, hdots,
      length_flatMap_utf16]
  simp only [Kotlin.validateRelativeTransferPath, validateRelativePath]
  rw [hsplit, hsegments, hempty, hcontrol, hslash, length_flatMap_utf8, List.length_map]
  simp only [hhead, hlast, ne_eq, decide_not]
  rw [Bool.and_assoc _ (decide _) (List.all _ _), Bool.and_comm (decide _) (List.all _ _),
    ← Bool.and_assoc]

/-! ### Entries -/

theorem lengths_of_ascii {text : List Char} (h : ∀ c ∈ text, c.toNat < 128) :
    utf16Length text = text.length ∧ utf8Length text = text.length := by
  constructor
  · rw [← length_flatMap_utf16, asciiCode_utf16.flatMap_of_ascii h, List.length_map]
  · rw [← length_flatMap_utf8, asciiCode_utf8.flatMap_of_ascii h, List.length_map]

theorem isHexDigit_eq (c : Char) : Kotlin.isHexDigit c.toNat =
    (c.isDigit || ('a' ≤ c && c ≤ 'f') || ('A' ≤ c && c ≤ 'F')) := by
  rw [Bool.eq_iff_iff, Kotlin.isHexDigit]
  simp only [Char.isDigit, ge_iff_le, Char.le_def, UInt32.le_iff_toNat_le, Bool.or_eq_true,
    Bool.and_eq_true, decide_eq_true_iff]
  change _ ↔ ((48 ≤ c.toNat ∧ c.toNat ≤ 57) ∨ 97 ≤ c.toNat ∧ c.toNat ≤ 102) ∨
    65 ≤ c.toNat ∧ c.toNat ≤ 70
  omega

theorem Kotlin.validHash_eq (hash : String) : ((encodeUtf16 hash).length == 64 &&
    (encodeUtf16 hash).all Kotlin.isHexDigit) = validSha256 hash := by
  have hascii : ∀ u, 128 ≤ u → Kotlin.isHexDigit u = false := by
    intro u hu
    simp only [Kotlin.isHexDigit, Bool.or_eq_false_iff, Bool.and_eq_false_iff,
      decide_eq_false_iff_not]
    omega
  have hdigits : (encodeUtf16 hash).all Kotlin.isHexDigit = hash.toList.all fun c =>
      c.isDigit || ('a' ≤ c && c ≤ 'f') || ('A' ≤ c && c ≤ 'F') := by
    rw [encodeUtf16, asciiCode_utf16.all_flatMap hascii]
    exact List.all_congr rfl isHexDigit_eq
  rw [validSha256, ← hdigits, length_encodeUtf16, utf8ByteSize_eq, Bool.eq_iff_iff]
  simp only [Bool.and_eq_true, beq_iff_eq, and_congr_left_iff]
  intro hall
  rw [encodeUtf16, asciiCode_utf16.all_flatMap hascii, List.all_eq_true] at hall
  have hsmall : ∀ c ∈ hash.toList, c.toNat < 128 := by
    intro c hc
    by_contra hwide
    have hfalse := hascii c.toNat (not_lt.1 hwide)
    rw [hall c hc] at hfalse
    cases hfalse
  rw [(lengths_of_ascii hsmall).1, (lengths_of_ascii hsmall).2]

def Doubles (escape : Char → List Char) : Prop :=
  ∀ c, isControlChar c = false → utf8Length (escape c) ≤ 2 * c.utf8Size

theorem escapeChar_doubles : Doubles escapeChar := by
  intro c hc
  have hlow : ¬c.toNat ≤ 0x1f := by
    intro hlow
    simp only [isControlChar, Bool.or_eq_false_iff, decide_eq_false_iff_not] at hc
    omega
  have hpos := c.utf8Size_pos
  by_cases hescaped : c.toNat = 0x22 ∨ c.toNat = 0x5c ∨ c.toNat = 0x2f
  · have hsize : utf8Length (escapeChar c) = 1 + c.utf8Size := by
      simp only [escapeChar, if_pos hescaped, utf8Length_cons, utf8Length_nil]
      rfl
    omega
  · have hcopied : escapeChar c = [c] := by
      simp only [escapeChar]
      split_ifs <;> first | rfl | omega
    rw [hcopied, utf8Length_cons, utf8Length_nil]
    omega

theorem serdeEscapeChar_doubles : Doubles serdeEscapeChar := by
  intro c hc
  rw [serdeEscapeChar]
  split_ifs
  · rw [utf8Length_cons, utf8Length_nil]
    omega
  · exact escapeChar_doubles c hc

theorem quoteWith_size_le {escape : Char → List Char} (hescape : Doubles escape) {text : String}
    (h : text.toList.any isControlChar = false) :
    (quoteWith escape text).utf8ByteSize ≤ 2 + 2 * text.utf8ByteSize := by
  rw [quoteWith_size, utf8ByteSize_eq]
  have hsum : ∀ l : List Char, l.any isControlChar = false →
      (l.map fun c => utf8Length (escape c)).sum ≤ 2 * utf8Length l := by
    intro l hl
    induction l with
    | nil => simp
    | cons c l ih =>
      rw [List.any_cons, Bool.or_eq_false_iff] at hl
      have hc := hescape c hl.1
      have hrest := ih hl.2
      rw [List.map_cons, List.sum_cons, utf8Length_cons]
      omega
  have hle := hsum text.toList h
  omega

theorem utf8Length_le (text : List Char) : utf8Length text ≤ 3 * utf16Length text := by
  induction text with
  | nil => rfl
  | cons c text ih =>
    have hc : c.utf8Size ≤ 3 * utf16Size c := by
      by_cases hplane : c.toNat < 0x10000
      · have hthree : c.utf8Size ≠ 4 := by
          rw [ne_eq, Char.utf8Size_eq_four_iff, UInt32.lt_iff_toNat_lt]
          exact not_lt.2 (Nat.le_of_lt_succ hplane)
        have hsizes := c.utf8Size_eq
        rw [utf16Size, if_pos hplane]
        omega
      · have hsizes := c.utf8Size_eq
        rw [utf16Size, if_neg hplane]
        omega
    rw [utf8Length_cons, utf16Length_cons]
    omega

theorem no_control_of_identifier {value : String} {maxBytes : Nat}
    (h : validIdentifier value maxBytes = true) : value.toList.any isControlChar = false := by
  simp only [validIdentifier, Bool.and_eq_true, List.all_eq_true] at h
  rw [List.any_eq_false]
  intro c hc hcontrol
  have hchar := h.2 c hc
  simp only [isAlphanum_eq, isAsciiAlphanumeric, Bool.or_eq_true, Bool.and_eq_true,
    decide_eq_true_iff, beq_iff_eq] at hchar
  simp only [isControlChar, Bool.or_eq_true, Bool.and_eq_true, decide_eq_true_iff] at hcontrol
  rcases hchar with (hchar | rfl) | rfl
  · omega
  · exact absurd hcontrol (by decide)
  · exact absurd hcontrol (by decide)

theorem no_control_of_sha256 {hash : String} (h : validSha256 hash = true) :
    hash.toList.any isControlChar = false := by
  simp only [validSha256, Bool.and_eq_true, List.all_eq_true, ← isHexDigit_eq,
    Kotlin.isHexDigit, Bool.or_eq_true, decide_eq_true_iff] at h
  rw [List.any_eq_false]
  intro c hc hcontrol
  have hchar := h.2 c hc
  simp only [isControlChar, Bool.or_eq_true, Bool.and_eq_true, decide_eq_true_iff] at hcontrol
  omega

/-- The fields of an entry that no check on the length of the line has to look at. -/
structure ManifestEntry.Short (entry : ManifestEntry) : Prop where
  ordinal : entry.ordinal ≤ MAX_WIRE_INTEGER
  size : entry.size ≤ MAX_WIRE_INTEGER
  modified : ∀ time ∈ entry.modifiedAt, time.natAbs ≤ 2 ^ 63
  entryId : validIdentifier entry.entryId MAX_ENTRY_ID_BYTES = true
  path : validateRelativePath entry.relativePath = true
  mime : ∀ mime ∈ entry.mimeType, utf16Length mime.toList ≤ 255 ∧
    mime.toList.any isControlChar = false
  hash : ∀ hash ∈ entry.sha256, validSha256 hash = true

/-- The longest line: every field at its bound and every character escaped. -/
theorem ManifestEntry.Short.line {escape : Char → List Char} (hescape : Doubles escape)
    {entry : ManifestEntry} (h : entry.Short) :
    (jsonObject (entry.fields escape)).utf8ByteSize ≤ MAX_MANIFEST_LINE_BYTES := by
  have hinteger : ∀ n ≤ MAX_WIRE_INTEGER, (toString n).utf8ByteSize ≤ 19 := by
    intro n hn
    exact natural_size_le (by decide) (lt_of_le_of_lt hn (by decide))
  have hordinal := hinteger entry.ordinal h.ordinal
  have hsize := hinteger entry.size h.size
  have hid : (quoteWith escape entry.entryId).utf8ByteSize ≤ 130 := by
    have hquote := quoteWith_size_le hescape (no_control_of_identifier h.entryId)
    have hbytes : entry.entryId.utf8ByteSize ≤ MAX_ENTRY_ID_BYTES := by
      have hvalid := h.entryId
      simp only [validIdentifier, Bool.and_eq_true, decide_eq_true_iff] at hvalid
      exact hvalid.1.2
    rw [MAX_ENTRY_ID_BYTES] at hbytes
    omega
  have hpath : (quoteWith escape (String.ofList entry.relativePath)).utf8ByteSize ≤ 8194 := by
    have hvalid := h.path
    simp only [validateRelativePath, Bool.and_eq_true, decide_eq_true_iff, Bool.not_eq_true',
      MAX_RELATIVE_PATH_BYTES] at hvalid
    have hcontrol : (String.ofList entry.relativePath).toList.any isControlChar = false := by
      rw [String.toList_ofList]
      exact hvalid.1.1.2
    have hbytes : (String.ofList entry.relativePath).utf8ByteSize ≤ 4096 := by
      rw [utf8ByteSize_eq, String.toList_ofList]
      exact of_decide_eq_true hvalid.1.1.1.1.1.1.2
    have hquote := quoteWith_size_le hescape hcontrol
    omega
  have hkind : (quoteWith escape entry.kind.wireName).utf8ByteSize ≤ 20 := by
    cases entry.kind with
    | file => exact le_trans (quoteWith_size_le hescape (by decide)) (by decide)
    | directory => exact quoteWith_size_le hescape (by decide)
  have hmodified : ((entry.modifiedAt.toList.map fun time =>
      ("modified_at_epoch_millis", toString time)).map fun f =>
        (quote f.1).utf8ByteSize + f.2.utf8ByteSize + 2).sum ≤ 48 := by
    cases htime : entry.modifiedAt with
    | none => simp
    | some time =>
      have hquote : (quote "modified_at_epoch_millis").utf8ByteSize = 26 := by decide
      have habs : time.natAbs < 10 ^ 19 := lt_of_le_of_lt (h.modified time htime) (by decide)
      have hnumber := integer_size_le (by decide) habs
      simp only [Option.toList_some, List.map_cons, List.map_nil, List.sum_cons, List.sum_nil]
      omega
  have hmime : ((entry.mimeType.toList.map fun mime =>
      ("mime_type", quoteWith escape mime)).map fun f =>
        (quote f.1).utf8ByteSize + f.2.utf8ByteSize + 2).sum ≤ 1545 := by
    cases htype : entry.mimeType with
    | none => simp
    | some mime =>
      have hquote : (quote "mime_type").utf8ByteSize = 11 := by decide
      obtain ⟨hunits, hcontrol⟩ := h.mime mime htype
      have htext := quoteWith_size_le hescape hcontrol
      have hbytes := utf8Length_le mime.toList
      rw [utf8ByteSize_eq mime] at htext
      simp only [Option.toList_some, List.map_cons, List.map_nil, List.sum_cons, List.sum_nil]
      omega
  have hhash : ((entry.sha256.toList.map fun hash =>
      ("sha256", quoteWith escape hash)).map fun f =>
        (quote f.1).utf8ByteSize + f.2.utf8ByteSize + 2).sum ≤ 140 := by
    cases hsha : entry.sha256 with
    | none => simp
    | some hash =>
      have hquote : (quote "sha256").utf8ByteSize = 8 := by decide
      have hvalid := h.hash hash hsha
      have htext := quoteWith_size_le hescape (no_control_of_sha256 hvalid)
      have hbytes : hash.utf8ByteSize = 64 := by
        simp only [validSha256, Bool.and_eq_true, beq_iff_eq] at hvalid
        exact hvalid.1
      simp only [Option.toList_some, List.map_cons, List.map_nil, List.sum_cons, List.sum_nil]
      omega
  have hnames : (quote "ordinal").utf8ByteSize = 9 ∧ (quote "entry_id").utf8ByteSize = 10 ∧
      (quote "relative_path").utf8ByteSize = 15 ∧ (quote "kind").utf8ByteSize = 6 ∧
      (quote "size").utf8ByteSize = 6 := by decide
  rw [jsonObject_size (by simp [ManifestEntry.fields]), ManifestEntry.fields]
  simp only [List.map_append, List.sum_append] at hmodified hmime hhash ⊢
  simp only [List.map_cons, List.map_nil, List.sum_cons, List.sum_nil]
  rw [MAX_MANIFEST_LINE_BYTES]
  omega

/-- What both sides ask of an entry beside its type, each in its own words. -/
def ManifestEntry.validFields (entry : ManifestEntry) : Bool :=
  validIdentifier entry.entryId MAX_ENTRY_ID_BYTES && validateRelativePath entry.relativePath &&
    !(entry.kind == .directory && entry.size != 0) && entry.sha256.all validSha256

end FlowType
