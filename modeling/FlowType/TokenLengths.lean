import FlowType.Base64Url
import FlowType.ValidatorAgreement

/-! What the two checks of a ticket make of the length of its token, beside the bytes that the
token encodes. -/
namespace FlowType

/-- The bytes that a text encodes. -/
def decodeToken (token : String) : Option (List Nat) :=
  Base64Url.decode (token.toList.map Char.toNat)

/-- What is asked of `base64_url_decoded_len` and of the ticket's check that uses it. -/
structure TokenCounted (token : String) : Prop where
  subtracts : ∀ padding, tokenPadding isAsciiAlphanumeric (encodeUtf8 token) = some padding →
    padding ≤ min ((encodeUtf8 token).length * 3) (2 ^ 64 - 1) / 4
  counts : ∀ bytes, decodeToken token = some bytes →
    base64UrlDecodedLen token = some bytes.length
  accepts : ∀ (ticket : FileTicket) now, ticket.token = token → ticket.validate now = true →
    ∃ bytes, decodeToken token = some bytes ∧ MIN_TICKET_BYTES ≤ bytes.length

/-- The same of `base64UrlDecodedLength`. -/
structure Kotlin.TokenCounted (classes : CharClasses) (token : String) : Prop where
  multiplies : ∀ padding,
    tokenPadding classes.isLetterOrDigit (encodeUtf16 token) = some padding →
      (encodeUtf16 token).length * 3 < 2 ^ 31
  counts : ∀ bytes, decodeToken token = some bytes →
    base64UrlDecodedLength classes token = some (bytes.length : Int)
  accepts : ∀ (ticket : FileTicket) now, ticket.token = token →
    validateTicket classes ticket now = true →
      ∃ bytes, decodeToken token = some bytes ∧ MIN_TICKET_BYTES ≤ bytes.length

/-- Neither nothing nor only signs, no saturated length of a text that encodes bytes, and a text
that is short and long enough to be accepted has whole bytes. -/
structure TokenRegular (token : String) : Prop where
  nonempty : token ≠ ""
  one_sign : token ≠ "="
  two_signs : token ≠ "=="
  regular : ∀ body padding,
    TokenShape isAsciiAlphanumeric (encodeUtf8 token) body padding →
      (Base64Url.Regular body.length padding → (body.length + padding) * 3 < 2 ^ 64) ∧
      (body.length + padding ≤ MAX_TICKET_TEXT_BYTES →
        MIN_TICKET_BYTES + padding ≤ (body.length + padding) * 3 / 4 →
          Base64Url.Regular body.length padding)

/-- On Android no product beyond 32 bits, and no letters beyond ASCII in a text that is
accepted. -/
structure Kotlin.TokenRegular (classes : CharClasses) (token : String) : Prop where
  nonempty : token ≠ ""
  regular : ∀ body padding,
    TokenShape classes.isLetterOrDigit (encodeUtf16 token) body padding →
      (body.length + padding) * 3 < 2 ^ 31 ∧
      (token.utf8ByteSize ≤ MAX_TICKET_TEXT_BYTES →
        MIN_TICKET_BYTES + padding ≤ (body.length + padding) * 3 / 4 →
          Base64Url.Regular body.length padding ∧ ∀ unit ∈ body, unit < 128)

section Shapes

variable {code : Char → List Nat} {token : String} {body : List Nat} {padding : Nat}
  {isLetterOrDigit : Nat → Bool}

/-- The symbols are the letters, the digits, the dash and the underline. -/
theorem isSome_sextet {unit : Nat} : (Base64Url.sextet unit).isSome = true ↔
    isAsciiAlphanumeric unit = true ∨ unit = 45 ∨ unit = 95 := by
  unfold Base64Url.sextet
  simp only [isAsciiAlphanumeric, Bool.or_eq_true, Bool.and_eq_true, decide_eq_true_iff]
  split_ifs <;> simp <;> omega

theorem lt_of_isAsciiAlphanumeric {unit : Nat} (h : isAsciiAlphanumeric unit = true) :
    unit < 128 := by
  simp only [isAsciiAlphanumeric, Bool.or_eq_true, Bool.and_eq_true, decide_eq_true_iff] at h
  omega

theorem TokenShape.lt (h : TokenShape isLetterOrDigit (token.toList.flatMap code) body padding)
    (hbody : ∀ unit ∈ body, unit < 128) : ∀ unit ∈ token.toList.flatMap code, unit < 128 := by
  intro unit hunit
  rw [h.split, List.mem_append, List.mem_replicate] at hunit
  rcases hunit with hin | ⟨_, rfl⟩
  · exact hbody unit hin
  · decide

/-- A text whose code is all of ASCII is its own code. -/
theorem AsciiCode.eq_map_of_lt (h : AsciiCode code) {text : List Char}
    (hlt : ∀ unit ∈ text.flatMap code, unit < 128) : text.flatMap code = text.map Char.toNat := by
  apply h.flatMap_of_ascii
  intro c hc
  by_contra hwide
  obtain ⟨unit, units, hunit⟩ := List.exists_cons_of_ne_nil (h.nonempty c)
  have hmem : unit ∈ code c := by simp [hunit]
  have hlarge := h.other c (not_lt.1 hwide) unit hmem
  have hsmall := hlt unit (List.mem_flatMap.2 ⟨c, hc, hmem⟩)
  omega

/-- A text that has the shape in its code decodes when its numbers are regular. -/
theorem decodeToken_of_shape (hcode : AsciiCode code)
    (h : TokenShape isLetterOrDigit (token.toList.flatMap code) body padding)
    (hbody : ∀ unit ∈ body, isAsciiAlphanumeric unit = true ∨ unit = 45 ∨ unit = 95)
    (hregular : Base64Url.Regular body.length padding) :
    ∃ bytes, decodeToken token = some bytes ∧
      bytes.length + padding = (body.length + padding) * 3 / 4 := by
  have hlt : ∀ unit ∈ body, unit < 128 := by
    intro unit hunit
    rcases hbody unit hunit with hletter | rfl | rfl
    · exact lt_of_isAsciiAlphanumeric hletter
    · decide
    · decide
  have hsame := hcode.eq_map_of_lt (h.lt hlt)
  have hsymbols : ∀ unit ∈ body, (Base64Url.sextet unit).isSome = true := by
    intro unit hunit
    exact isSome_sextet.2 (hbody unit hunit)
  obtain ⟨bytes, hbytes, hlength⟩ := Base64Url.decode_of_regular hsymbols hregular
  refine ⟨bytes, ?_, hlength⟩
  rw [decodeToken, ← hsame, h.split]
  exact hbytes

/-- A text that decodes has the shape in every code. -/
theorem shape_of_decodeToken (hcode : AsciiCode code) {bytes : List Nat} (hne : token ≠ "")
    (h : decodeToken token = some bytes) :
    ∃ body padding, TokenShape isAsciiAlphanumeric (token.toList.flatMap code) body padding ∧
      Base64Url.Regular body.length padding ∧
      bytes.length + padding = (body.length + padding) * 3 / 4 := by
  obtain ⟨body, padding, hsplit, hregular, hsymbols⟩ := Base64Url.shape_of_decode h
  obtain ⟨bytes', hbytes, hlength⟩ := Base64Url.decode_of_regular hsymbols hregular
  have hletters : ∀ unit ∈ body, isAsciiAlphanumeric unit = true ∨ unit = 45 ∨ unit = 95 :=
    fun unit hunit => isSome_sextet.1 (hsymbols unit hunit)
  have hascii : ∀ c ∈ token.toList, c.toNat < 128 := by
    intro c hc
    have hmem : c.toNat ∈ token.toList.map Char.toNat := List.mem_map_of_mem hc
    rw [hsplit, List.mem_append, List.mem_replicate] at hmem
    rcases hmem with hin | ⟨_, heq⟩
    · rcases hletters _ hin with hletter | heq | heq
      · exact lt_of_isAsciiAlphanumeric hletter
      · omega
      · omega
    · rw [heq]
      decide
  have hsame := hcode.flatMap_of_ascii hascii
  refine ⟨body, padding, ⟨?_, by rw [hsame, hsplit]; rfl, ?_, hletters⟩, hregular, ?_⟩
  · rw [hsame]
    simpa using hne
  · rcases hregular with ⟨hzero, _⟩ | ⟨_, hfew, _⟩
    · omega
    · exact hfew
  · rw [decodeToken, hsplit, hbytes] at h
    rw [← Option.some.inj h]
    exact hlength

/-- A text has one shape. -/
theorem TokenShape.unique {code body body' : List Nat} {padding padding' : Nat}
    (hsign : isLetterOrDigit 61 = false) (h : TokenShape isLetterOrDigit code body padding)
    (h' : TokenShape isLetterOrDigit code body' padding') :
    padding = padding' ∧ body = body' := by
  have hpadding := (tokenPadding_eq_some hsign).2 ⟨body, h⟩
  have hpadding' := (tokenPadding_eq_some hsign).2 ⟨body', h'⟩
  have hsame : padding = padding' := by
    rw [hpadding] at hpadding'
    exact Option.some.inj hpadding'
  refine ⟨hsame, ?_⟩
  have hsplit := h.split.symm.trans h'.split
  rw [hsame] at hsplit
  exact List.append_cancel_right hsplit

end Shapes

/-- A ticket that has nothing wrong with it but its token. -/
def ticketOf (token : String) : FileTicket where
  batchId := "b"
  dataPort := 1
  token := token
  expiresAtEpochSeconds := 1

theorem ticketOf_inOrder (token : String) : (ticketOf token).InOrder 0 :=
  ⟨rfl, show validIdentifier "b" MAX_BATCH_ID_BYTES = true by decide, by simp [ticketOf],
    by simp [ticketOf]⟩

section Windows

variable {token : String} {body : List Nat} {padding : Nat}

theorem isAsciiAlphanumeric_sign : isAsciiAlphanumeric 61 = false := by decide

/-- The padding exceeds the length only where there is nothing else. -/
theorem signs_of_lt (h : TokenShape isAsciiAlphanumeric (encodeUtf8 token) body padding)
    (hlt : (body.length + padding) * 3 / 4 < padding) : token = "=" ∨ token = "==" := by
  have hfew := h.few
  have hempty : body = [] := List.length_eq_zero_iff.1 (by omega)
  have hsplit := h.split
  rw [hempty, List.nil_append] at hsplit
  have hcases : padding = 1 ∨ padding = 2 := by omega
  rcases hcases with rfl | rfl
  · have hone := (asciiCode_utf8.flatMap_eq_iff ['='] (by simp)).1 hsplit
    exact .inl (String.toList_inj.1 hone)
  · have htwo := (asciiCode_utf8.flatMap_eq_iff ['=', '='] (by simp)).1 hsplit
    exact .inr (String.toList_inj.1 htwo)

theorem length_of_shape (h : TokenShape isAsciiAlphanumeric (encodeUtf8 token) body padding) :
    (encodeUtf8 token).length = body.length + padding := by
  rw [h.split, List.length_append, List.length_replicate]

theorem base64UrlDecodedLen_of_shape
    (h : TokenShape isAsciiAlphanumeric (encodeUtf8 token) body padding) :
    base64UrlDecodedLen token = some
      ((min ((body.length + padding) * 3) (2 ^ 64 - 1) / 4 + 2 ^ 64 - padding) % 2 ^ 64) := by
  have hpadding := (tokenPadding_eq_some isAsciiAlphanumeric_sign).2 ⟨body, h⟩
  rw [base64UrlDecodedLen_eq, hpadding, length_of_shape h]
  rfl

theorem TokenCounted.regular (h : TokenCounted token) : TokenRegular token := by
  have hnonempty : token ≠ "" := by
    rintro rfl
    have hnone : base64UrlDecodedLen "" = none := by decide
    have hcount := h.counts [] (by decide)
    rw [hnone] at hcount
    cases hcount
  refine ⟨hnonempty, ?_, ?_, ?_⟩
  · rintro rfl
    exact absurd (h.subtracts 1 (by decide)) (by decide)
  · rintro rfl
    exact absurd (h.subtracts 2 (by decide)) (by decide)
  · intro body padding hshape
    constructor
    · intro hregular
      obtain ⟨bytes, hbytes, hlength⟩ := decodeToken_of_shape asciiCode_utf8 hshape
        hshape.letters hregular
      have hcount := h.counts bytes hbytes
      rw [base64UrlDecodedLen_of_shape hshape] at hcount
      have hvalue := Option.some.inj hcount
      have hfew := hshape.few
      by_contra hsaturated
      rw [Nat.min_eq_right (by omega)] at hvalue
      omega
    · intro hshort hlong
      have hsize : token.utf8ByteSize = body.length + padding := by
        rw [← length_encodeUtf8, length_of_shape hshape]
      have haccepts : AcceptsToken token := by
        refine ⟨body, padding, hshape, ?_, ?_⟩
        · rw [hsize]
          exact .inl hlong
        · rw [hsize]
          exact hshort
      have hvalid : (ticketOf token).validate 0 = true := by
        rw [FileTicket.validate_eq_true]
        exact ⟨ticketOf_inOrder token, haccepts, show 1 ≤ MAX_WIRE_INTEGER by decide⟩
      obtain ⟨bytes, hbytes, _⟩ := h.accepts (ticketOf token) 0 rfl hvalid
      obtain ⟨body', padding', hshape', hregular, _⟩ :=
        shape_of_decodeToken asciiCode_utf8 hnonempty hbytes
      obtain ⟨rfl, rfl⟩ := hshape.unique isAsciiAlphanumeric_sign hshape'
      exact hregular

theorem TokenRegular.counted (h : TokenRegular token) : TokenCounted token := by
  have hnotSigns : ∀ {body padding},
      TokenShape isAsciiAlphanumeric (encodeUtf8 token) body padding →
        padding ≤ (body.length + padding) * 3 / 4 := by
    intro body padding hshape
    by_contra hlt
    rcases signs_of_lt hshape (by omega) with hone | htwo
    · exact h.one_sign hone
    · exact h.two_signs htwo
  refine ⟨?_, ?_, ?_⟩
  · intro padding hpadding
    obtain ⟨body, hshape⟩ := (tokenPadding_eq_some isAsciiAlphanumeric_sign).1 hpadding
    have hfits := hnotSigns hshape
    have hfew := hshape.few
    rw [length_of_shape hshape]
    omega
  · intro bytes hbytes
    obtain ⟨body, padding, hshape, hregular, hlength⟩ :=
      shape_of_decodeToken asciiCode_utf8 h.nonempty hbytes
    have hfits := (h.regular body padding hshape).1 hregular
    rw [base64UrlDecodedLen_of_shape hshape, Nat.min_eq_left (by omega)]
    congr 1
    omega
  · rintro ticket now rfl hvalid
    obtain ⟨_, ⟨body, padding, hshape, hlong, hshort⟩, _⟩ :=
      FileTicket.validate_eq_true.1 hvalid
    have hfits := hnotSigns hshape
    have hsize : ticket.token.utf8ByteSize = body.length + padding := by
      rw [← length_encodeUtf8, length_of_shape hshape]
    rw [hsize] at hlong hshort
    have hlong : MIN_TICKET_BYTES + padding ≤ (body.length + padding) * 3 / 4 := by
      rcases hlong with hlong | hwrapped
      · exact hlong
      · omega
    have hregular := (h.regular body padding hshape).2 hshort hlong
    obtain ⟨bytes, hbytes, hlength⟩ := decodeToken_of_shape asciiCode_utf8 hshape
      hshape.letters hregular
    exact ⟨bytes, hbytes, by omega⟩

end Windows

namespace Kotlin

variable {classes : CharClasses} {token : String} {body : List Nat} {padding : Nat}

theorem isLetterOrDigit_sign (classes : CharClasses) : classes.isLetterOrDigit 61 = false := by
  rw [classes.ascii 61 (by decide)]
  decide

theorem length_of_shape
    (h : TokenShape classes.isLetterOrDigit (encodeUtf16 token) body padding) :
    (encodeUtf16 token).length = body.length + padding := by
  rw [h.split, List.length_append, List.length_replicate]

/-- The letters and digits of ASCII are letters and digits here. -/
theorem shape_of_ascii (h : TokenShape isAsciiAlphanumeric (encodeUtf16 token) body padding) :
    TokenShape classes.isLetterOrDigit (encodeUtf16 token) body padding := by
  refine ⟨h.nonempty, h.split, h.few, ?_⟩
  intro unit hunit
  rcases h.letters unit hunit with hletter | hother
  · left
    rw [classes.ascii unit (lt_of_isAsciiAlphanumeric hletter)]
    exact hletter
  · exact .inr hother

theorem TokenCounted.regular (h : TokenCounted classes token) : TokenRegular classes token := by
  have hnonempty : token ≠ "" := by
    rintro rfl
    have hnone : base64UrlDecodedLength classes "" = none := rfl
    have hcount := h.counts [] (by decide)
    rw [hnone] at hcount
    cases hcount
  refine ⟨hnonempty, ?_⟩
  intro body padding hshape
  have hlength := length_of_shape hshape
  constructor
  · have hpadding := (tokenPadding_eq_some (isLetterOrDigit_sign classes)).2 ⟨body, hshape⟩
    have hproduct := h.multiplies padding hpadding
    rwa [hlength] at hproduct
  · intro hshort hlong
    have haccepts : AcceptsToken classes token := by
      refine ⟨body, padding, hshape, ?_, hshort⟩
      rw [hlength]
      exact hlong
    have hvalid : validateTicket classes (ticketOf token) 0 = true := by
      rw [validateTicket_eq_true]
      exact ⟨ticketOf_inOrder token, haccepts, show 1 ≤ 65535 by decide⟩
    obtain ⟨bytes, hbytes, _⟩ := h.accepts (ticketOf token) 0 rfl hvalid
    obtain ⟨body', padding', hshape', hregular, _⟩ :=
      shape_of_decodeToken asciiCode_utf16 hnonempty hbytes
    obtain ⟨rfl, rfl⟩ := hshape.unique (isLetterOrDigit_sign classes) (shape_of_ascii hshape')
    refine ⟨hregular, ?_⟩
    intro unit hunit
    rcases hshape'.letters unit hunit with hletter | rfl | rfl
    · exact lt_of_isAsciiAlphanumeric hletter
    · decide
    · decide

theorem TokenRegular.counted (h : TokenRegular classes token) : TokenCounted classes token := by
  refine ⟨?_, ?_, ?_⟩
  · intro padding hpadding
    obtain ⟨body, hshape⟩ := (tokenPadding_eq_some (isLetterOrDigit_sign classes)).1 hpadding
    rw [length_of_shape hshape]
    exact (h.regular body padding hshape).1
  · intro bytes hbytes
    obtain ⟨body, padding, hascii, hregular, hlength⟩ :=
      shape_of_decodeToken asciiCode_utf16 h.nonempty hbytes
    have hshape : TokenShape classes.isLetterOrDigit (encodeUtf16 token) body padding :=
      shape_of_ascii hascii
    have hfits := (h.regular body padding hshape).1
    have hpadding := (tokenPadding_eq_some (isLetterOrDigit_sign classes)).2 ⟨body, hshape⟩
    have hproduct : (((body.length + padding : Nat) : Int) * 3).bmod (2 ^ 32) =
        ((body.length + padding : Nat) : Int) * 3 :=
      Int.bmod_eq_of_le (by omega) (by omega)
    have hvalue : (((body.length + padding : Nat) : Int) * 3).tdiv 4 - (padding : Int) =
        (bytes.length : Int) := by
      rw [Int.tdiv_eq_ediv_of_nonneg (by omega)]
      omega
    rw [base64UrlDecodedLength_eq, hpadding, Option.map_some, length_of_shape hshape, hproduct,
      hvalue]
  · rintro ticket now rfl hvalid
    obtain ⟨_, ⟨body, padding, hshape, hlong, hshort⟩, _⟩ := validateTicket_eq_true.1 hvalid
    rw [length_of_shape hshape] at hlong
    obtain ⟨hregular, hsmall⟩ := (h.regular body padding hshape).2 hshort hlong
    have hletters : ∀ unit ∈ body, isAsciiAlphanumeric unit = true ∨ unit = 45 ∨ unit = 95 := by
      intro unit hunit
      rw [← classes.ascii unit (hsmall unit hunit)]
      exact hshape.letters unit hunit
    obtain ⟨bytes, hbytes, hlength⟩ := decodeToken_of_shape asciiCode_utf16 hshape hletters
      hregular
    have hmin : MIN_TICKET_BYTES = 32 := rfl
    exact ⟨bytes, hbytes, by omega⟩

end Kotlin

/-- On both sides the length of a token is right, and stands for the bytes of every ticket that
is accepted, exactly for the regular texts. -/
theorem tokenCounted_iff (token : String) : (TokenCounted token ↔ TokenRegular token) ∧
    ∀ classes, Kotlin.TokenCounted classes token ↔ Kotlin.TokenRegular classes token :=
  ⟨⟨TokenCounted.regular, TokenRegular.counted⟩,
    fun _ => ⟨Kotlin.TokenCounted.regular, Kotlin.TokenRegular.counted⟩⟩

/-- One sign: the length wraps to the largest one, and the ticket is accepted. A text of 45
letters is accepted by both sides, though it leaves one letter alone. -/
theorem sign_accepted :
    (base64UrlDecodedLen "=" = some (2 ^ 64 - 1) ∧ (ticketOf "=").validate 0 = true ∧
      decodeToken "=" = none ∧ ¬TokenCounted "=") ∧
    ∃ token, decodeToken token = none ∧ ¬TokenCounted token ∧
      ¬Kotlin.TokenCounted latinClasses token := by
  constructor
  · refine ⟨by decide, by decide, by decide, ?_⟩
    intro h
    exact absurd (h.subtracts 1 (by decide)) (by decide)
  · have hnone : decodeToken (String.ofList (List.replicate 45 'a')) = none := by
      decide +kernel
    have hwindows : (ticketOf (String.ofList (List.replicate 45 'a'))).validate 0 = true := by
      decide +kernel
    have handroid : Kotlin.validateTicket latinClasses
        (ticketOf (String.ofList (List.replicate 45 'a'))) 0 = true := by
      decide +kernel
    refine ⟨_, hnone, ?_, ?_⟩
    · intro h
      obtain ⟨bytes, hbytes, _⟩ := h.accepts _ 0 rfl hwindows
      rw [hnone] at hbytes
      cases hbytes
    · intro h
      obtain ⟨bytes, hbytes, _⟩ := h.accepts _ 0 rfl handroid
      rw [hnone] at hbytes
      cases hbytes

end FlowType
