import FlowType.TransferValidators

/-! Where the checks of Android and of Windows on a file message agree, and the messages on
which they do not. -/
namespace FlowType

/-! ### Tokens -/

def tokenPadding (isLetterOrDigit : Nat → Bool) (code : List Nat) : Option Nat :=
  if code = [] ∨ code.any (fun unit =>
      !(isLetterOrDigit unit || unit == 45 || unit == 95 || unit == 61)) = true then none
  else
    let padding := (code.rtakeWhile (· == 61)).length
    if 2 < padding ∨ 61 ∈ code.take (code.length - padding) then none else some padding

theorem base64UrlDecodedLen_eq (value : String) : base64UrlDecodedLen value =
    (tokenPadding isAsciiAlphanumeric (encodeUtf8 value)).map fun padding =>
      (min ((encodeUtf8 value).length * 3) (2 ^ 64 - 1) / 4 + 2 ^ 64 - padding) % 2 ^ 64 := by
  simp only [base64UrlDecodedLen, tokenPadding]
  split_ifs <;> rfl

theorem Kotlin.base64UrlDecodedLength_eq (classes : CharClasses) (value : String) :
    base64UrlDecodedLength classes value =
      (tokenPadding classes.isLetterOrDigit (encodeUtf16 value)).map fun padding : Nat =>
        ((((encodeUtf16 value).length : Int) * 3).bmod (2 ^ 32)).tdiv 4 - (padding : Int) := by
  simp only [base64UrlDecodedLength, tokenPadding]
  split_ifs <;> rfl

structure TokenShape (isLetterOrDigit : Nat → Bool) (code body : List Nat) (padding : Nat) :
    Prop where
  nonempty : code ≠ []
  split : code = body ++ List.replicate padding 61
  few : padding ≤ 2
  letters : ∀ unit ∈ body, isLetterOrDigit unit = true ∨ unit = 45 ∨ unit = 95

variable {isLetterOrDigit : Nat → Bool} {code body : List Nat} {padding : Nat}

theorem rtakeWhile_padding (h : 61 ∉ body) :
    (body ++ List.replicate padding 61).rtakeWhile (· == 61) = List.replicate padding 61 := by
  have hbody : body.reverse.takeWhile (· == 61) = [] := by
    rcases List.eq_nil_or_concat body with rfl | ⟨front, unit, rfl⟩
    · rfl
    · have hne : (unit == 61) = false := by
        rw [beq_eq_false_iff_ne]
        rintro rfl
        exact h (by simp)
      simp [hne]
  rw [List.rtakeWhile, List.reverse_append, List.reverse_replicate,
    List.takeWhile_append_of_pos (by simp), hbody, List.append_nil, List.reverse_replicate]

theorem tokenPadding_eq_some (hsign : isLetterOrDigit 61 = false) :
    tokenPadding isLetterOrDigit code = some padding ↔
      ∃ body, TokenShape isLetterOrDigit code body padding := by
  constructor
  · intro h
    simp only [tokenPadding] at h
    split_ifs at h with hchars hpadding
    rw [not_or, List.any_eq_true, not_exists] at hchars
    rw [not_or, not_lt] at hpadding
    have heq : (code.rtakeWhile (· == 61)).length = padding := Option.some.inj h
    have hsplit : code = code.rdropWhile (· == 61) ++ code.rtakeWhile (· == 61) :=
      List.rdropWhile_append_rtakeWhile.symm
    have hsigns : code.rtakeWhile (· == 61) = List.replicate padding 61 := by
      rw [List.eq_replicate_iff]
      exact ⟨heq, fun unit hmem => by simpa using List.mem_rtakeWhile_imp hmem⟩
    have hbody : code.take (code.length - padding) = code.rdropWhile (· == 61) := by
      have hlength := congrArg List.length hsplit
      rw [List.length_append, heq] at hlength
      rw [hlength, Nat.add_sub_cancel]
      exact (List.prefix_iff_eq_take.1 (List.rdropWhile_prefix _ code)).symm
    refine ⟨code.rdropWhile (· == 61), hchars.1, hsigns ▸ hsplit, heq ▸ hpadding.1, ?_⟩
    intro unit hmem
    rw [heq, hbody] at hpadding
    have hne : unit ≠ 61 := fun hunit => hpadding.2 (hunit ▸ hmem)
    have hcode : unit ∈ code := List.mem_of_mem_take (hbody ▸ hmem)
    have hchar := hchars.2 unit
    simp only [hcode, true_and, Bool.not_eq_true', Bool.not_eq_false, Bool.or_eq_true,
      beq_iff_eq, hne, or_false, or_assoc] at hchar
    exact hchar
  · rintro ⟨body, h⟩
    have hbody : 61 ∉ body := by
      intro hmem
      rcases h.letters 61 hmem with hletter | heq | heq
      · rw [hsign] at hletter
        cases hletter
      · cases heq
      · cases heq
    have hsigns : (code.rtakeWhile (· == 61)).length = padding := by
      rw [h.split, rtakeWhile_padding hbody, List.length_replicate]
    have hchars : ¬code.any (fun unit =>
        !(isLetterOrDigit unit || unit == 45 || unit == 95 || unit == 61)) = true := by
      rw [Bool.not_eq_true, List.any_eq_false]
      intro unit hmem
      rw [h.split, List.mem_append, List.mem_replicate] at hmem
      rcases hmem with hmem | ⟨-, rfl⟩
      · rcases h.letters unit hmem with hletter | rfl | rfl
        · simp [hletter]
        · simp
        · simp
      · simp
    have htake : code.take (code.length - padding) = body := by
      have hlength : code.length - padding = body.length := by
        rw [h.split, List.length_append, List.length_replicate, Nat.add_sub_cancel]
      rw [hlength, h.split]
      exact List.take_left
    rw [tokenPadding, if_neg (not_or.2 ⟨h.nonempty, hchars⟩)]
    simp only [hsigns]
    rw [if_neg (not_or.2 ⟨not_lt.2 h.few, htake ▸ hbody⟩)]

theorem any_tokenPadding (hsign : isLetterOrDigit 61 = false) (accept : Nat → Bool) :
    (tokenPadding isLetterOrDigit code).any accept = true ↔
      ∃ body padding, TokenShape isLetterOrDigit code body padding ∧ accept padding = true := by
  rw [Option.any_eq_true]
  constructor
  · rintro ⟨padding, hpadding, haccept⟩
    obtain ⟨body, hshape⟩ := (tokenPadding_eq_some hsign).1 hpadding
    exact ⟨body, padding, hshape, haccept⟩
  · rintro ⟨body, padding, hshape, haccept⟩
    exact ⟨padding, (tokenPadding_eq_some hsign).2 ⟨body, hshape⟩, haccept⟩

/-- A token that the check of Android accepts. -/
def Kotlin.AcceptsToken (classes : CharClasses) (token : String) : Prop :=
  ∃ body padding, TokenShape classes.isLetterOrDigit (encodeUtf16 token) body padding ∧
    32 + padding ≤ (encodeUtf16 token).length * 3 / 4 ∧ token.utf8ByteSize ≤ 128

/-- A token that the check of Windows accepts: the length may have wrapped. -/
def AcceptsToken (token : String) : Prop :=
  ∃ body padding, TokenShape isAsciiAlphanumeric (encodeUtf8 token) body padding ∧
    (32 + padding ≤ token.utf8ByteSize * 3 / 4 ∨ token.utf8ByteSize * 3 / 4 < padding) ∧
    token.utf8ByteSize ≤ 128

/-- What both sides ask of a ticket beside its token. -/
structure FileTicket.InOrder (ticket : FileTicket) (nowEpochSeconds : Nat) : Prop where
  versions : validVersions ticket.protocolVersion ticket.transferVersion = true
  batchId : validIdentifier ticket.batchId MAX_BATCH_ID_BYTES = true
  port : ticket.dataPort ≠ 0
  fresh : nowEpochSeconds < ticket.expiresAtEpochSeconds

/-- The numbers of the message fit the types of both sides. -/
structure FileTicket.InRange (ticket : FileTicket) : Prop where
  port : ticket.dataPort ≤ 65535
  expires : ticket.expiresAtEpochSeconds ≤ MAX_WIRE_INTEGER

variable {classes : Kotlin.CharClasses} {ticket : FileTicket} {nowEpochSeconds : Nat}
  {token : String}

theorem Kotlin.validateTicket_eq_true :
    validateTicket classes ticket nowEpochSeconds = true ↔
      ticket.InOrder nowEpochSeconds ∧ AcceptsToken classes ticket.token ∧
        ticket.dataPort ≤ 65535 := by
  have hsign : classes.isLetterOrDigit 61 = false := by
    rw [classes.ascii 61 (by decide)]
    decide
  have hunits : (encodeUtf16 ticket.token).length ≤ ticket.token.utf8ByteSize := by
    rw [length_encodeUtf16, utf8ByteSize_eq]
    exact utf16Length_le_utf8Length _
  rw [validateTicket, base64UrlDecodedLength_eq, Option.any_map]
  simp only [validVersions_eq, validIdentifier_eq, Bool.and_eq_true, any_tokenPadding hsign,
    decide_eq_true_iff, length_encodeUtf8]
  simp only [MIN_TICKET_BYTES, MAX_TICKET_TEXT_BYTES, Nat.cast_ofNat]
  -- below the limit on the text the product stays within 32 bits
  have hlength : ticket.token.utf8ByteSize ≤ 128 → ∀ padding : Nat,
      ((32 : Int) ≤ ((((encodeUtf16 ticket.token).length : Int) * 3).bmod (2 ^ 32)).tdiv 4 -
          padding ↔
        32 + padding ≤ (encodeUtf16 ticket.token).length * 3 / 4) := by
    intro hbytes padding
    rw [Int.bmod_eq_of_le (by omega) (by omega), Int.tdiv_eq_ediv_of_nonneg (by omega)]
    omega
  constructor
  · rintro ⟨⟨⟨hversions, hbatch⟩, hport⟩, body, padding, hshape, ⟨hlong, hbytes⟩, hfresh⟩
    have hlong' := (hlength hbytes padding).1 hlong
    exact ⟨⟨hversions, hbatch, by omega, hfresh⟩, ⟨body, padding, hshape, hlong', hbytes⟩,
      hport.2⟩
  · rintro ⟨horder, ⟨body, padding, hshape, hlong, hbytes⟩, hbound⟩
    have hport : 1 ≤ ticket.dataPort := Nat.one_le_iff_ne_zero.2 horder.port
    have hlong' := (hlength hbytes padding).2 hlong
    exact ⟨⟨⟨horder.versions, horder.batchId⟩, hport, hbound⟩, body, padding, hshape,
      ⟨hlong', hbytes⟩, horder.fresh⟩

theorem FileTicket.validate_eq_true :
    ticket.validate nowEpochSeconds = true ↔
      ticket.InOrder nowEpochSeconds ∧ AcceptsToken ticket.token ∧
        ticket.expiresAtEpochSeconds ≤ MAX_WIRE_INTEGER := by
  rw [validate, base64UrlDecodedLen_eq, Option.any_map]
  simp only [Bool.and_eq_true, any_tokenPadding (show isAsciiAlphanumeric 61 = false by decide),
    Bool.not_eq_true', Bool.or_eq_false_iff, decide_eq_false_iff_not,
    beq_eq_false_iff_ne, length_encodeUtf8, not_lt, not_le]
  simp only [MIN_TICKET_BYTES, MAX_TICKET_TEXT_BYTES]
  -- the subtraction wraps exactly when the padding exceeds the length
  have hlength : ticket.token.utf8ByteSize ≤ 128 → ∀ padding ≤ 2,
      (32 ≤ (min (ticket.token.utf8ByteSize * 3) (2 ^ 64 - 1) / 4 + 2 ^ 64 - padding) % 2 ^ 64 ↔
        32 + padding ≤ ticket.token.utf8ByteSize * 3 / 4 ∨
          ticket.token.utf8ByteSize * 3 / 4 < padding) := by
    intro hbytes padding hfew
    rw [Nat.min_eq_left (by omega)]
    omega
  constructor
  · rintro ⟨⟨hversions, hbatch⟩, body, padding, hshape, ⟨⟨⟨hport, hlong⟩, hbytes⟩, hexpires⟩, hfresh⟩
    have hlong' := (hlength hbytes padding hshape.few).1 hlong
    exact ⟨⟨hversions, hbatch, hport, hfresh⟩, ⟨body, padding, hshape, hlong', hbytes⟩, hexpires⟩
  · rintro ⟨horder, ⟨body, padding, hshape, hlong, hbytes⟩, hexpires⟩
    have hlong' := (hlength hbytes padding hshape.few).2 hlong
    exact ⟨⟨horder.versions, horder.batchId⟩, body, padding, hshape,
      ⟨⟨⟨horder.port, hlong'⟩, hbytes⟩, hexpires⟩, horder.fresh⟩

theorem Kotlin.validateTicket_iff (hrange : ticket.InRange) :
    validateTicket classes ticket nowEpochSeconds = true ↔
      ticket.InOrder nowEpochSeconds ∧ AcceptsToken classes ticket.token := by
  rw [validateTicket_eq_true]
  constructor
  · rintro ⟨horder, haccepts, -⟩
    exact ⟨horder, haccepts⟩
  · rintro ⟨horder, haccepts⟩
    exact ⟨horder, haccepts, hrange.port⟩

theorem FileTicket.validate_iff (hrange : ticket.InRange) :
    ticket.validate nowEpochSeconds = true ↔
      ticket.InOrder nowEpochSeconds ∧ AcceptsToken ticket.token := by
  rw [validate_eq_true]
  constructor
  · rintro ⟨horder, haccepts, -⟩
    exact ⟨horder, haccepts⟩
  · rintro ⟨horder, haccepts⟩
    exact ⟨horder, haccepts, hrange.expires⟩

def UnicodeToken (classes : Kotlin.CharClasses) (token : String) : Prop :=
  ∃ body padding, TokenShape classes.isLetterOrDigit (encodeUtf16 token) body padding ∧
    (∃ unit ∈ body, 128 ≤ unit) ∧ 32 + padding ≤ (encodeUtf16 token).length * 3 / 4 ∧
    token.utf8ByteSize ≤ 128

theorem eq_of_units (ascii : List Char) (hascii : ∀ c ∈ ascii, c.toNat < 128) :
    encodeUtf16 token = ascii.map Char.toNat ↔ token = String.ofList ascii := by
  rw [encodeUtf16, asciiCode_utf16.flatMap_eq_iff ascii hascii]
  constructor
  · intro h
    rw [← h, String.ofList_toList]
  · intro h
    rw [h, String.toList_ofList]

/-- On ASCII the two checks differ by the tokens whose length wraps. -/
theorem acceptsToken_iff_of_ascii (hascii : ∀ c ∈ token.toList, c.toNat < 128) :
    AcceptsToken token ↔ Kotlin.AcceptsToken classes token ∨ token = "=" ∨ token = "==" := by
  have hone : encodeUtf16 token = [61] ↔ token = "=" := eq_of_units ['='] (by simp)
  have htwo : encodeUtf16 token = [61, 61] ↔ token = "==" := eq_of_units ['=', '='] (by simp)
  have hcode : encodeUtf8 token = encodeUtf16 token := by
    rw [encodeUtf8, encodeUtf16, asciiCode_utf8.flatMap_of_ascii hascii,
      asciiCode_utf16.flatMap_of_ascii hascii]
  have hlength : (encodeUtf16 token).length = token.utf8ByteSize := by
    rw [← hcode, length_encodeUtf8]
  have hsmall : ∀ unit ∈ encodeUtf16 token, unit < 128 := by
    intro unit hunit
    rw [encodeUtf16, asciiCode_utf16.flatMap_of_ascii hascii] at hunit
    obtain ⟨c, hc, rfl⟩ := List.mem_map.1 hunit
    exact hascii c hc
  have hclasses : ∀ {body padding},
      TokenShape isAsciiAlphanumeric (encodeUtf16 token) body padding ↔
        TokenShape classes.isLetterOrDigit (encodeUtf16 token) body padding := by
    intro body padding
    have hsame : ∀ unit ∈ body, encodeUtf16 token = body ++ List.replicate padding 61 →
        classes.isLetterOrDigit unit = isAsciiAlphanumeric unit := by
      intro unit hunit hsplit
      exact classes.ascii unit (hsmall unit (by rw [hsplit]; exact List.mem_append_left _ hunit))
    constructor
    · intro h
      refine ⟨h.nonempty, h.split, h.few, fun unit hunit => ?_⟩
      rw [hsame unit hunit h.split]
      exact h.letters unit hunit
    · intro h
      refine ⟨h.nonempty, h.split, h.few, fun unit hunit => ?_⟩
      rw [← hsame unit hunit h.split]
      exact h.letters unit hunit
  rw [AcceptsToken, Kotlin.AcceptsToken, hcode, hlength, ← hone, ← htwo]
  constructor
  · rintro ⟨body, padding, hshape, hlong | hwrapped, hbytes⟩
    · exact Or.inl ⟨body, padding, hclasses.1 hshape, hlong, hbytes⟩
    · right
      have hsplit := hshape.split
      have hfew := hshape.few
      have hlen := congrArg List.length hsplit
      rw [List.length_append, List.length_replicate, hlength] at hlen
      have hpos : 0 < token.utf8ByteSize := by
        rw [← hlength]
        exact List.length_pos_iff.2 hshape.nonempty
      have hbody : body = [] := List.length_eq_zero_iff.1 (by omega)
      rw [hbody, List.nil_append] at hsplit
      rw [hsplit]
      have hcases : padding = 1 ∨ padding = 2 := by omega
      rcases hcases with rfl | rfl
      · exact Or.inl rfl
      · exact Or.inr rfl
  · rintro (⟨body, padding, hshape, hlong, hbytes⟩ | hsign | hsigns)
    · exact ⟨body, padding, hclasses.2 hshape, Or.inl hlong, hbytes⟩
    · have hbytes : token.utf8ByteSize = 1 := by rw [← hlength, hsign]; rfl
      refine ⟨[], 1, ⟨by simp [hsign], hsign, by decide, by simp⟩, Or.inr ?_, ?_⟩ <;> omega
    · have hbytes : token.utf8ByteSize = 2 := by rw [← hlength, hsigns]; rfl
      refine ⟨[], 2, ⟨by simp [hsigns], hsigns, by decide, by simp⟩, Or.inr ?_, ?_⟩ <;> omega

theorem not_acceptsToken {c : Char} (hc : c ∈ token.toList) (hwide : 128 ≤ c.toNat) :
    ¬AcceptsToken token := by
  rintro ⟨body, padding, hshape, -, -⟩
  obtain ⟨unit, units, hunit⟩ := List.exists_cons_of_ne_nil (asciiCode_utf8.nonempty c)
  have hlarge : 128 ≤ unit := asciiCode_utf8.other c hwide unit (by simp [hunit])
  have hmem : unit ∈ encodeUtf8 token := List.mem_flatMap.2 ⟨c, hc, by simp [hunit]⟩
  rw [hshape.split, List.mem_append, List.mem_replicate] at hmem
  rcases hmem with hmem | ⟨-, hsign⟩
  · rcases hshape.letters unit hmem with hletter | hdash | hline
    · simp only [isAsciiAlphanumeric, Bool.or_eq_true, Bool.and_eq_true, decide_eq_true_iff]
        at hletter
      omega
    · omega
    · omega
  · omega

theorem unicodeToken_iff {c : Char} (hc : c ∈ token.toList) (hwide : 128 ≤ c.toNat) :
    UnicodeToken classes token ↔ Kotlin.AcceptsToken classes token := by
  constructor
  · rintro ⟨body, padding, hshape, -, hlong, hbytes⟩
    exact ⟨body, padding, hshape, hlong, hbytes⟩
  · rintro ⟨body, padding, hshape, hlong, hbytes⟩
    obtain ⟨unit, units, hunit⟩ := List.exists_cons_of_ne_nil (asciiCode_utf16.nonempty c)
    have hlarge : 128 ≤ unit := asciiCode_utf16.other c hwide unit (by simp [hunit])
    have hmem : unit ∈ encodeUtf16 token := List.mem_flatMap.2 ⟨c, hc, by simp [hunit]⟩
    rw [hshape.split, List.mem_append, List.mem_replicate] at hmem
    have hbody : unit ∈ body := hmem.resolve_right fun hsign => by omega
    exact ⟨body, padding, hshape, ⟨unit, hbody, hlarge⟩, hlong, hbytes⟩

/-- The tokens on which the two checks differ. -/
def TokenDiffers (classes : Kotlin.CharClasses) (token : String) : Prop :=
  token = "=" ∨ token = "==" ∨ UnicodeToken classes token

theorem tokens_agree_iff :
    (Kotlin.AcceptsToken classes token ↔ AcceptsToken token) ↔ ¬TokenDiffers classes token := by
  by_cases hascii : ∀ c ∈ token.toList, c.toNat < 128
  · have hplain : ¬UnicodeToken classes token := by
      rintro ⟨body, padding, hshape, ⟨unit, hunit, hwide⟩, -, -⟩
      have hmem : unit ∈ encodeUtf16 token := by
        rw [hshape.split]
        exact List.mem_append_left _ hunit
      rw [encodeUtf16, asciiCode_utf16.flatMap_of_ascii hascii] at hmem
      obtain ⟨c, hc, rfl⟩ := List.mem_map.1 hmem
      exact absurd (hascii c hc) (not_lt.2 hwide)
    have hshort : token = "=" ∨ token = "==" → ¬Kotlin.AcceptsToken classes token := by
      rintro (rfl | rfl) ⟨body, padding, -, hlong, -⟩
      · have hone : (encodeUtf16 "=").length = 1 := by decide
        omega
      · have htwo : (encodeUtf16 "==").length = 2 := by decide
        omega
    rw [@acceptsToken_iff_of_ascii classes _ hascii, TokenDiffers]
    constructor
    · rintro hiff (hone | htwo | hunicode)
      · exact hshort (Or.inl hone) (hiff.2 (Or.inr (Or.inl hone)))
      · exact hshort (Or.inr htwo) (hiff.2 (Or.inr (Or.inr htwo)))
      · exact hplain hunicode
    · intro hnot
      constructor
      · exact Or.inl
      · rintro (haccepts | hone | htwo)
        · exact haccepts
        · exact absurd (Or.inl hone) hnot
        · exact absurd (Or.inr (Or.inl htwo)) hnot
  · rw [not_forall] at hascii
    obtain ⟨c, hascii⟩ := hascii
    rw [Classical.not_imp, not_lt] at hascii
    obtain ⟨hc, hwide⟩ := hascii
    have hrefused : ¬AcceptsToken token := not_acceptsToken hc hwide
    have hother : ∀ other : String, (∀ d ∈ other.toList, d.toNat < 128) → token ≠ other := by
      rintro other hother rfl
      exact absurd (hother c hc) (not_lt.2 hwide)
    have hone : token ≠ "=" := hother "=" (by simp)
    have htwo : token ≠ "==" := hother "==" (by simp)
    rw [TokenDiffers, unicodeToken_iff hc hwide]
    simp [hrefused, hone, htwo]

/-! ### Entries -/

/-- The numbers of the message fit the types of both sides. -/
structure ManifestEntry.InRange (entry : ManifestEntry) : Prop where
  ordinal : entry.ordinal ≤ MAX_WIRE_INTEGER
  size : entry.size ≤ MAX_WIRE_INTEGER
  modified : ∀ time ∈ entry.modifiedAt, time.natAbs ≤ 2 ^ 63

/-- An entry in order whose MIME type has at most 255 units and more than 255 bytes. -/
def ManifestEntry.WideMimeType (entry : ManifestEntry) : Prop :=
  entry.validFields = true ∧ ∃ mime, entry.mimeType = some mime ∧ 255 < mime.utf8ByteSize ∧
    utf16Length mime.toList ≤ 255 ∧ mime.toList.any isControlChar = false

variable {entry : ManifestEntry}

def validMimeType (length : String → Nat) (entry : ManifestEntry) : Bool :=
  entry.mimeType.all fun mime =>
    mime ≠ "" && length mime ≤ 255 && !mime.toList.any isControlChar

theorem ManifestEntry.InRange.short (h : entry.InRange) (hfields : entry.validFields = true)
    (hmime : validMimeType (fun mime => utf16Length mime.toList) entry = true) :
    entry.Short := by
  simp only [validFields, Bool.and_eq_true] at hfields
  refine ⟨h.ordinal, h.size, h.modified, hfields.1.1.1, hfields.1.1.2, ?_, ?_⟩
  · intro mime hmem
    have htype : entry.mimeType = some mime := hmem
    simp only [validMimeType, htype, Option.all_some, Bool.and_eq_true, decide_eq_true_iff,
      Bool.not_eq_true'] at hmime
    exact ⟨hmime.1.2, hmime.2⟩
  · intro hash hmem
    have hsha : entry.sha256 = some hash := hmem
    simpa only [hsha, Option.all_some] using hfields.2

theorem Kotlin.validateEntry_iff (h : entry.InRange) : validateEntry entry = true ↔
    entry.validFields = true ∧
      validMimeType (fun mime => utf16Length mime.toList) entry = true := by
  have hkind : (entry.kind != .directory || entry.size == 0) =
      !(entry.kind == .directory && entry.size != 0) := by
    cases entry.kind <;> simp [bne]
  have hmime : (entry.mimeType.all fun mime => !(encodeUtf16 mime).isEmpty &&
      decide ((encodeUtf16 mime).length ≤ 255) && !(encodeUtf16 mime).any isISOControl) =
      validMimeType (fun mime => utf16Length mime.toList) entry := by
    rw [validMimeType]
    congr 1
    funext mime
    rw [length_encodeUtf16, encodeUtf16_isEmpty, encodeUtf16, any_isISOControl, decide_not]
  have hhash : (entry.sha256.all fun hash => (encodeUtf16 hash).length == 64 &&
      (encodeUtf16 hash).all isHexDigit) = entry.sha256.all validSha256 := by
    congr 1
    funext hash
    exact validHash_eq hash
  rw [validateEntry, hkind, hmime, hhash, validIdentifier_eq, validateRelativeTransferPath_eq,
    length_encodeUtf8, encodeManifestEntry]
  simp only [ManifestEntry.validFields, Bool.and_eq_true, decide_eq_true_iff]
  constructor
  · rintro ⟨⟨⟨⟨⟨hid, hpath⟩, hsize⟩, hmime⟩, hsha⟩, -⟩
    exact ⟨⟨⟨⟨hid, hpath⟩, hsize⟩, hsha⟩, hmime⟩
  · rintro ⟨⟨⟨⟨hid, hpath⟩, hsize⟩, hsha⟩, hmime⟩
    have hfields : entry.validFields = true := by
      simp only [ManifestEntry.validFields, Bool.and_eq_true]
      exact ⟨⟨⟨hid, hpath⟩, hsize⟩, hsha⟩
    exact ⟨⟨⟨⟨⟨hid, hpath⟩, hsize⟩, hmime⟩, hsha⟩,
      (h.short hfields hmime).line escapeChar_doubles⟩

theorem ManifestEntry.validate_iff (h : entry.InRange) :
    entry.validate serdeLineLength = true ↔
      entry.validFields = true ∧ validMimeType String.utf8ByteSize entry = true := by
  have hwider : validMimeType String.utf8ByteSize entry = true →
      validMimeType (fun mime => utf16Length mime.toList) entry = true := by
    intro hbytes
    cases htype : entry.mimeType with
    | none => simp [validMimeType, htype]
    | some mime =>
      simp only [validMimeType, htype, Option.all_some, Bool.and_eq_true, decide_eq_true_iff]
        at hbytes ⊢
      have hunits := utf16Length_le_utf8Length mime.toList
      rw [← utf8ByteSize_eq] at hunits
      exact ⟨⟨hbytes.1.1, le_trans hunits hbytes.1.2⟩, hbytes.2⟩
  have hmime : (entry.mimeType.all fun mime =>
      mime ≠ "" && mime.utf8ByteSize ≤ 255 && !mime.toList.any isControlChar) =
      validMimeType String.utf8ByteSize entry := rfl
  rw [validate, hmime]
  simp only [validFields, Bool.and_eq_true, decide_eq_true_iff]
  constructor
  · rintro ⟨⟨⟨⟨⟨⟨-, hid⟩, hpath⟩, hsize⟩, hmime⟩, hsha⟩, -⟩
    exact ⟨⟨⟨⟨hid, hpath⟩, hsize⟩, hsha⟩, hmime⟩
  · rintro ⟨⟨⟨⟨hid, hpath⟩, hsize⟩, hsha⟩, hmime⟩
    have hfields : entry.validFields = true := by
      simp only [validFields, Bool.and_eq_true]
      exact ⟨⟨⟨hid, hpath⟩, hsize⟩, hsha⟩
    exact ⟨⟨⟨⟨⟨⟨⟨h.ordinal, h.size⟩, hid⟩, hpath⟩, hsize⟩, hmime⟩, hsha⟩,
      (h.short hfields (hwider hmime)).line serdeEscapeChar_doubles⟩

theorem entries_agree_iff (h : entry.InRange) :
    (Kotlin.validateEntry entry = true ↔ entry.validate serdeLineLength = true) ↔
      ¬entry.WideMimeType := by
  rw [Kotlin.validateEntry_iff h, ManifestEntry.validate_iff h, ManifestEntry.WideMimeType]
  by_cases hfields : entry.validFields = true
  · cases htype : entry.mimeType with
    | none => simp [validMimeType, htype]
    | some mime =>
      have hunits := utf16Length_le_utf8Length mime.toList
      rw [← utf8ByteSize_eq] at hunits
      have hempty : 255 < mime.utf8ByteSize → mime ≠ "" := by
        rintro hbytes rfl
        exact absurd hbytes (by decide)
      simp only [validMimeType, htype, Option.all_some, Bool.and_eq_true, decide_eq_true_iff,
        Bool.not_eq_true', hfields, true_and, Option.some.injEq, exists_eq_left']
      constructor
      · rintro hiff ⟨hbytes, hshort, hcontrol⟩
        have hboth := hiff.1 ⟨⟨hempty hbytes, hshort⟩, hcontrol⟩
        omega
      · intro hnot
        constructor
        · rintro ⟨⟨hne, hshort⟩, hcontrol⟩
          have hbytes : mime.utf8ByteSize ≤ 255 := by
            by_contra hlong
            exact hnot ⟨not_le.1 hlong, hshort, hcontrol⟩
          exact ⟨⟨hne, hbytes⟩, hcontrol⟩
        · rintro ⟨⟨hne, hbytes⟩, hcontrol⟩
          exact ⟨⟨hne, le_trans hunits hbytes⟩, hcontrol⟩
  · simp [hfields]

/-- It is Android that accepts such an entry. -/
theorem ManifestEntry.WideMimeType.accepted (h : entry.InRange) (hwide : entry.WideMimeType) :
    Kotlin.validateEntry entry = true ∧ entry.validate serdeLineLength = false := by
  have haccepted : Kotlin.validateEntry entry = true := by
    obtain ⟨hfields, mime, htype, hbytes, hunits, hcontrol⟩ := hwide
    have hnonempty : mime ≠ "" := by
      rintro rfl
      exact absurd hbytes (by decide)
    refine (Kotlin.validateEntry_iff h).2 ⟨hfields, ?_⟩
    simp [validMimeType, htype, hnonempty, hunits, hcontrol]
  refine ⟨haccepted, ?_⟩
  rw [← Bool.not_eq_true]
  intro hboth
  exact (entries_agree_iff h).1 (iff_of_true haccepted hboth) hwide

/-! ### The messages -/

/-- The numbers of the message fit the types of both sides. -/
structure FileOffer.InRange (offer : FileOffer) : Prop where
  files : offer.fileCount ≤ MAX_WIRE_INTEGER
  directories : offer.directoryCount ≤ MAX_WIRE_INTEGER
  bytes : offer.totalBytes ≤ MAX_WIRE_INTEGER

theorem tickets_agree_iff (h : ticket.InRange) :
    (Kotlin.validateTicket classes ticket nowEpochSeconds = true ↔
      ticket.validate nowEpochSeconds = true) ↔
      ¬(ticket.InOrder nowEpochSeconds ∧ TokenDiffers classes ticket.token) := by
  rw [Kotlin.validateTicket_iff h, FileTicket.validate_iff h]
  by_cases horder : ticket.InOrder nowEpochSeconds
  · simp only [horder, true_and]
    exact tokens_agree_iff
  · simp [horder]

/-- The two sides accept the same offers and paths, the same tickets but for those in order
whose token differs, and the same entries but for those with a wide MIME type. -/
theorem validators_agree_iff (classes : Kotlin.CharClasses) :
    (∀ (offer : FileOffer) (phoneId : String), offer.InRange →
      (Kotlin.validateOffer offer phoneId = true ↔ offer.validate phoneId = true)) ∧
    (∀ path : List Char,
      Kotlin.validateRelativeTransferPath path = true ↔ validateRelativePath path = true) ∧
    (∀ (ticket : FileTicket) (nowEpochSeconds : Nat), ticket.InRange →
      ((Kotlin.validateTicket classes ticket nowEpochSeconds = true ↔
          ticket.validate nowEpochSeconds = true) ↔
        ¬(ticket.InOrder nowEpochSeconds ∧ TokenDiffers classes ticket.token))) ∧
    ∀ entry : ManifestEntry, entry.InRange →
      ((Kotlin.validateEntry entry = true ↔ entry.validate serdeLineLength = true) ↔
        ¬entry.WideMimeType) := by
  refine ⟨?_, ?_, ?_, ?_⟩
  · intro offer phoneId h
    rw [Kotlin.validateOffer_eq offer phoneId h.files h.directories h.bytes]
  · intro path
    rw [Kotlin.validateRelativeTransferPath_eq]
  · intro ticket nowEpochSeconds h
    exact tickets_agree_iff h
  · intro entry h
    exact entries_agree_iff h

/-- The letters of ASCII and of the Latin-1 supplement. -/
def latinClasses : Kotlin.CharClasses where
  isLetterOrDigit unit := isAsciiAlphanumeric unit || unit == 0xAA || unit == 0xB5 ||
    unit == 0xBA || (0xC0 ≤ unit && unit ≤ 0xFF && unit != 0xD7 && unit != 0xF7)
  ascii := by
    intro unit hunit
    rw [Bool.eq_iff_iff]
    simp only [Bool.or_eq_true, Bool.and_eq_true, decide_eq_true_iff, beq_iff_eq]
    constructor
    · rintro ((((hascii | hwide) | hwide) | hwide) | hwide)
      · exact hascii
      all_goals omega
    · intro hascii
      exact Or.inl (Or.inl (Or.inl (Or.inl hascii)))

def accents (count : Nat) : String := String.ofList (List.replicate count 'é')

/-- Android alone accepts the token and the MIME type of accented letters, and Windows alone
the token that is one sign of padding. -/
theorem validators_differ :
    let entry : ManifestEntry :=
      { ordinal := 0, entryId := "e", relativePath := ['a'], kind := .file
        mimeType := some (accents 128) }
    let ticket (token : String) : FileTicket :=
      { batchId := "b", dataPort := 1, token, expiresAtEpochSeconds := 1 }
    (Kotlin.validateEntry entry = true ∧ entry.validate serdeLineLength = false) ∧
      (Kotlin.validateTicket latinClasses (ticket (accents 44)) 0 = true ∧
        (ticket (accents 44)).validate 0 = false) ∧
      Kotlin.validateTicket latinClasses (ticket "=") 0 = false ∧
        (ticket "=").validate 0 = true := by
  have haccent : ∀ count, encodeUtf16 (accents count) = List.replicate count 233 := by
    intro count
    rw [encodeUtf16, accents, String.toList_ofList, List.flatMap_replicate]
    simp [utf16Units]
  have hrange : ({ ordinal := 0, entryId := "e", relativePath := ['a'], kind := .file
                   mimeType := some (accents 128) } : ManifestEntry).InRange :=
    ⟨by decide, by decide, by simp⟩
  have htoken : Kotlin.AcceptsToken latinClasses (accents 44) := by
    refine ⟨List.replicate 44 233, 0, ⟨?_, ?_, ?_, ?_⟩, ?_, ?_⟩
    · rw [haccent]
      decide
    · rw [haccent, List.replicate_zero, List.append_nil]
    · decide
    · intro unit hunit
      rw [(List.mem_replicate.1 hunit).2]
      decide
    · rw [haccent]
      decide
    · rw [utf8ByteSize_eq, accents, String.toList_ofList]
      decide
  have htext : (accents 128).toList = List.replicate 128 'é' := String.toList_ofList
  have hbytes : (accents 128).utf8ByteSize = 256 := by
    rw [utf8ByteSize_eq, htext, utf8Length, List.map_replicate, List.sum_replicate]
    decide
  have hunits : utf16Length (accents 128).toList = 128 := by
    rw [htext, utf16Length, List.map_replicate, List.sum_replicate]
    decide
  have hcontrol : (accents 128).toList.any isControlChar = false := by
    rw [htext, List.any_replicate]
    decide
  refine ⟨ManifestEntry.WideMimeType.accepted hrange ?_, ⟨?_, ?_⟩, ?_⟩
  · exact ⟨by decide, accents 128, rfl, by omega, by omega, hcontrol⟩
  · exact (Kotlin.validateTicket_iff ⟨by decide, by decide⟩).2
      ⟨⟨by decide, by decide, by decide, by decide⟩, htoken⟩
  · rw [← Bool.not_eq_true, FileTicket.validate_iff ⟨by decide, by decide⟩]
    intro haccepted
    exact not_acceptsToken (c := 'é') (by simp [accents]) (by decide) haccepted.2
  · decide

end FlowType
