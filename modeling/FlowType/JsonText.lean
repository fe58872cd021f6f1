import FlowType.JsonSizes

/-! The grammar of JSON texts, and the least number of bytes in which a value can be written:
no text of a string is shorter than the one that `serde_json` writes for it. -/
namespace FlowType

/-- A value as it is read; a number is kept as it is written. -/
inductive Json
  | null
  | bool (value : Bool)
  | number (literal : List Char)
  | string (text : List Char)
  | array (elements : List Json)
  | object (members : List (List Char × Json))

namespace Json

def backslash : Char := Char.ofNat 0x5c

def quotation : Char := Char.ofNat 0x22

def hexDigit (c : Char) : Option Nat :=
  if c.isDigit then some (c.toNat - 48)
  else if 'a' ≤ c ∧ c ≤ 'f' then some (c.toNat - 87)
  else if 'A' ≤ c ∧ c ≤ 'F' then some (c.toNat - 55) else none

def hexCode (digits : List Char) : Option Nat :=
  if digits.length = 4 then
    digits.foldlM (fun code c => (hexDigit c).map fun digit => 16 * code + digit) 0
  else none

/-- One character of a string: as it is, behind a backslash, or by its UTF-16 units. -/
inductive CharText : List Char → Char → Prop
  | raw (c : Char) (hcontrol : 0x20 ≤ c.toNat) (hquotation : c.toNat ≠ 0x22)
      (hbackslash : c.toNat ≠ 0x5c) : CharText [c] c
  | short (letter c : Char) (h : (letter.toNat, c.toNat) ∈ [(0x22, 0x22), (0x5c, 0x5c),
      (0x2f, 0x2f), (0x62, 0x08), (0x66, 0x0c), (0x6e, 0x0a), (0x72, 0x0d), (0x74, 0x09)]) :
      CharText [backslash, letter] c
  | code (c : Char) (digits : List Char) (hcode : hexCode digits = some c.toNat) :
      CharText (backslash :: 'u' :: digits) c
  | pair (c : Char) (high low : List Char) (h l : Nat)
      (hhigh : hexCode high = some (0xD800 + h)) (hlow : hexCode low = some (0xDC00 + l))
      (hh : h < 0x400) (hl : l < 0x400) (hpair : c.toNat = 0x10000 + h * 0x400 + l) :
      CharText ((backslash :: 'u' :: high) ++ (backslash :: 'u' :: low)) c

inductive StringText : List Char → List Char → Prop
  | nil : StringText [] []
  | cons {text rest : List Char} {c : Char} {cs : List Char} :
      CharText text c → StringText rest cs → StringText (text ++ rest) (c :: cs)

def Digits (text : List Char) : Prop := text ≠ [] ∧ ∀ c ∈ text, c.isDigit = true

structure NumberText (text : List Char) : Prop where
  parts : ∃ sign int frac exp, text = sign ++ int ++ frac ++ exp ∧ (sign = [] ∨ sign = ['-']) ∧
    (int = ['0'] ∨ Digits int ∧ int.head? ≠ some '0') ∧
    (frac = [] ∨ ∃ digits, frac = '.' :: digits ∧ Digits digits) ∧
    (exp = [] ∨ ∃ mark plus digits, exp = mark :: plus ++ digits ∧ (mark = 'e' ∨ mark = 'E') ∧
      (plus = [] ∨ plus = ['+'] ∨ plus = ['-']) ∧ Digits digits)

def Blank (text : List Char) : Prop :=
  ∀ c ∈ text, c.toNat = 0x20 ∨ c.toNat = 0x09 ∨ c.toNat = 0x0a ∨ c.toNat = 0x0d

mutual

inductive ValueText : List Char → Json → Prop
  | null : ValueText ['n', 'u', 'l', 'l'] .null
  | true : ValueText ['t', 'r', 'u', 'e'] (.bool Bool.true)
  | false : ValueText ['f', 'a', 'l', 's', 'e'] (.bool Bool.false)
  | number {text : List Char} : NumberText text → ValueText text (.number text)
  | string {text cs : List Char} : StringText text cs →
      ValueText (quotation :: text ++ [quotation]) (.string cs)
  | emptyArray {blank : List Char} : Blank blank → ValueText ('[' :: blank ++ [']']) (.array [])
  | array {text : List Char} {es : List Json} : ElementsText text es →
      ValueText ('[' :: text ++ [']']) (.array es)
  | emptyObject {blank : List Char} : Blank blank →
      ValueText (Char.ofNat 0x7b :: blank ++ [Char.ofNat 0x7d]) (.object [])
  | object {text : List Char} {ms : List (List Char × Json)} : MembersText text ms →
      ValueText (Char.ofNat 0x7b :: text ++ [Char.ofNat 0x7d]) (.object ms)

inductive SpacedText : List Char → Json → Prop
  | spaced {before text after : List Char} {value : Json} : Blank before → ValueText text value →
      Blank after → SpacedText (before ++ text ++ after) value

inductive ElementsText : List Char → List Json → Prop
  | last {text : List Char} {value : Json} : SpacedText text value → ElementsText text [value]
  | cons {text rest : List Char} {value : Json} {es : List Json} : SpacedText text value →
      ElementsText rest es → ElementsText (text ++ ',' :: rest) (value :: es)

inductive MembersText : List Char → List (List Char × Json) → Prop
  | last {before name after text key : List Char} {value : Json} : Blank before →
      StringText name key → Blank after → SpacedText text value →
      MembersText (before ++ quotation :: name ++ quotation :: after ++ ':' :: text) [(key, value)]
  | cons {before name after text rest key : List Char} {value : Json}
      {ms : List (List Char × Json)} : Blank before → StringText name key → Blank after →
      SpacedText text value → MembersText rest ms →
      MembersText (before ++ quotation :: name ++ quotation :: after ++ ':' :: text ++ ',' :: rest)
        ((key, value) :: ms)

end

/-- The bytes of a text as `serde_json` writes it. -/
def quotedSize (text : List Char) : Nat :=
  2 + (text.map fun c => utf8Length (serdeEscapeChar c)).sum

/-- A lower bound on the bytes of a value; the elements and members of nested values are not
counted. -/
def leastSize : Json → Nat
  | .null => 4
  | .bool value => if value then 4 else 5
  | .number literal => utf8Length literal
  | .string text => quotedSize text
  | .array _ => 0
  | .object _ => 0

theorem length_le_utf8Length (text : List Char) : text.length ≤ utf8Length text := by
  induction text with
  | nil => exact le_rfl
  | cons c text ih =>
    have hpos := c.utf8Size_pos
    rw [List.length_cons, utf8Length_cons]
    omega

theorem serdeEscapeChar_raw {c : Char} (hcontrol : 0x20 ≤ c.toNat) (hquotation : c.toNat ≠ 0x22)
    (hbackslash : c.toNat ≠ 0x5c) : serdeEscapeChar c = [c] := by
  simp only [serdeEscapeChar, escapeChar]
  split_ifs <;> first | rfl | omega

/-- The longest escape is the one by the code. -/
theorem serdeEscapeChar_size_le (c : Char) : utf8Length (serdeEscapeChar c) ≤ 6 := by
  by_cases hcontrol : c.toNat < 0x20
  · have hall : ∀ n < 0x20, utf8Length (serdeEscapeChar (Char.ofNat n)) ≤ 6 := by decide
    have hc := hall c.toNat hcontrol
    rwa [Char.ofNat_toNat] at hc
  · by_cases hspecial : c.toNat = 0x22 ∨ c.toNat = 0x5c
    · have hc : c = Char.ofNat c.toNat := (Char.ofNat_toNat c).symm
      rcases hspecial with hquotation | hbackslash
      · rw [hc, hquotation]
        decide
      · rw [hc, hbackslash]
        decide
    · rw [not_or] at hspecial
      rw [serdeEscapeChar_raw (not_lt.1 hcontrol) hspecial.1 hspecial.2, utf8Length_cons,
        utf8Length_nil]
      have hsize := c.utf8Size_le_four
      omega

theorem length_of_hexCode {digits : List Char} {code : Nat} (h : hexCode digits = some code) :
    digits.length = 4 := by
  rw [hexCode] at h
  split_ifs at h with hlength
  exact hlength

/-- `serde_json` never writes a character longer than it was read. -/
theorem CharText.size_le {text : List Char} {c : Char} (h : CharText text c) :
    utf8Length (serdeEscapeChar c) ≤ utf8Length text := by
  cases h with
  | raw c hcontrol hquotation hbackslash =>
    rw [serdeEscapeChar_raw hcontrol hquotation hbackslash]
  | short letter c h =>
    have hlength := length_le_utf8Length [backslash, letter]
    have hshort : utf8Length (serdeEscapeChar c) ≤ 2 := by
      have hc : c = Char.ofNat c.toNat := (Char.ofNat_toNat c).symm
      simp only [List.mem_cons, List.not_mem_nil, or_false, Prod.mk.injEq] at h
      rcases h with h | h | h | h | h | h | h | h
      all_goals
        rw [hc, h.2]
        decide
    exact le_trans hshort hlength
  | code c digits hcode =>
    have hlength := length_le_utf8Length (backslash :: 'u' :: digits)
    simp only [List.length_cons, length_of_hexCode hcode] at hlength
    exact le_trans (serdeEscapeChar_size_le c) hlength
  | pair c high low h l hhigh hlow hh hl hpair =>
    have hlength := length_le_utf8Length ((backslash :: 'u' :: high) ++ (backslash :: 'u' :: low))
    simp only [List.length_append, List.length_cons, length_of_hexCode hhigh] at hlength
    have hsix := serdeEscapeChar_size_le c
    omega

theorem StringText.size_le {text cs : List Char} (h : StringText text cs) :
    quotedSize cs ≤ 2 + utf8Length text := by
  induction h with
  | nil => exact le_rfl
  | cons hchar _ ih =>
    have hsize := hchar.size_le
    rw [quotedSize] at ih ⊢
    rw [List.map_cons, List.sum_cons, utf8Length_append]
    omega

theorem ValueText.leastSize_le {text : List Char} {value : Json} (h : ValueText text value) :
    leastSize value ≤ utf8Length text := by
  have hquotation : quotation.utf8Size = 1 := by decide
  cases h with
  | null => decide
  | true => decide
  | false => decide
  | number _ => exact le_rfl
  | string hstring =>
    have hsize := hstring.size_le
    rw [leastSize, utf8Length_append, utf8Length_cons, utf8Length_cons, utf8Length_nil]
    omega
  | emptyArray _ => exact Nat.zero_le _
  | array _ => exact Nat.zero_le _
  | emptyObject _ => exact Nat.zero_le _
  | object _ => exact Nat.zero_le _

theorem SpacedText.leastSize_le {text : List Char} {value : Json} (h : SpacedText text value) :
    leastSize value ≤ utf8Length text := by
  cases h with
  | spaced _ htext _ =>
    have hsize := htext.leastSize_le
    rw [utf8Length_append, utf8Length_append]
    omega

/-- The bytes of a member with its colon, and with the comma or the brace after it. -/
def memberSize (member : List Char × Json) : Nat :=
  quotedSize member.1 + leastSize member.2 + 2

theorem MembersText.size_le {text : List Char} {ms : List (List Char × Json)}
    (h : MembersText text ms) : (ms.map memberSize).sum ≤ utf8Length text + 1 := by
  have hquotation : quotation.utf8Size = 1 := by decide
  have hcolon : Char.utf8Size ':' = 1 := by decide
  have hcomma : Char.utf8Size ',' = 1 := by decide
  induction ms generalizing text with
  | nil => exact Nat.zero_le _
  | cons member ms ih =>
    cases h with
    | last _ hname _ hvalue =>
      have hkey := hname.size_le
      have hsize := hvalue.leastSize_le
      simp only [List.map_cons, List.map_nil, List.sum_cons, List.sum_nil, memberSize,
        utf8Length_append, utf8Length_cons]
      omega
    | cons _ hname _ hvalue hrest =>
      have hkey := hname.size_le
      have hsize := hvalue.leastSize_le
      have hmembers := ih hrest
      simp only [List.map_cons, List.sum_cons, memberSize, utf8Length_append, utf8Length_cons]
      omega

theorem SpacedText.object_size_le {text : List Char} {ms : List (List Char × Json)}
    (h : SpacedText text (.object ms)) : (ms.map memberSize).sum + 1 ≤ utf8Length text := by
  have hopen : (Char.ofNat 0x7b).utf8Size = 1 := by decide
  have hclose : (Char.ofNat 0x7d).utf8Size = 1 := by decide
  cases h with
  | spaced _ htext _ =>
    cases htext with
    | emptyObject _ =>
      simp only [List.map_nil, List.sum_nil, utf8Length_append, utf8Length_cons]
      omega
    | object hmembers =>
      have hsize := hmembers.size_le
      simp only [utf8Length_append, utf8Length_cons, utf8Length_nil]
      omega

/-- Of members with the same name the last one counts. -/
def get (ms : List (List Char × Json)) (key : String) : Option Json :=
  (ms.reverse.find? fun member => member.1 = key.toList).map Prod.snd

def namedSize (ms : List (List Char × Json)) (key : String) : Nat :=
  ((ms.filter fun member => member.1 = key.toList).map memberSize).sum

theorem namedSize_cons (member : List Char × Json) (ms : List (List Char × Json)) (key : String) :
    namedSize (member :: ms) key =
      (if member.1 = key.toList then memberSize member else 0) + namedSize ms key := by
  by_cases hname : member.1 = key.toList
  · simp [namedSize, hname]
  · simp [namedSize, hname]

/-- A member counts for one name at most. -/
theorem sum_namedSize_le (ms : List (List Char × Json)) {keys : List String} (h : keys.Nodup) :
    (keys.map (namedSize ms)).sum ≤ (ms.map memberSize).sum := by
  induction ms with
  | nil =>
    have hnil : namedSize [] = fun _ => 0 := rfl
    simp [hnil]
  | cons member ms ih =>
    have honce : ∀ keys : List String, keys.Nodup → (keys.map fun key =>
        if member.1 = key.toList then memberSize member else 0).sum ≤ memberSize member := by
      intro keys hnodup
      induction keys with
      | nil => exact Nat.zero_le _
      | cons key keys ihkeys =>
        obtain ⟨hnot, hrest⟩ := List.nodup_cons.1 hnodup
        rw [List.map_cons, List.sum_cons]
        by_cases hname : member.1 = key.toList
        · have hothers : (keys.map fun key =>
              if member.1 = key.toList then memberSize member else 0).sum = 0 := by
            rw [List.sum_eq_zero_iff]
            intro size hsize
            obtain ⟨other, hother, hif⟩ := List.mem_map.1 hsize
            have hne : member.1 ≠ other.toList := by
              intro heq
              rw [hname, String.toList_inj] at heq
              exact hnot (heq ▸ hother)
            rw [if_neg hne] at hif
            exact hif.symm
          rw [if_pos hname, hothers]
          exact le_rfl
        · rw [if_neg hname, Nat.zero_add]
          exact ihkeys hrest
    have hsum : (keys.map (namedSize (member :: ms))).sum =
        (keys.map fun key => if member.1 = key.toList then memberSize member else 0).sum +
          (keys.map (namedSize ms)).sum := by
      rw [← List.sum_map_add]
      apply congrArg List.sum
      apply List.map_congr_left
      intro key _
      exact namedSize_cons member ms key
    rw [hsum, List.map_cons, List.sum_cons]
    exact Nat.add_le_add (honce keys h) ih

/-- Members with different names lie side by side in the text. -/
theorem sum_le_members {ms : List (List Char × Json)} (fields : List (String × Json))
    (hnames : (fields.map Prod.fst).Nodup) (hfields : ∀ f ∈ fields, get ms f.1 = some f.2) :
    (fields.map fun f => memberSize (f.1.toList, f.2)).sum ≤ (ms.map memberSize).sum := by
  have hown : (fields.map fun f => memberSize (f.1.toList, f.2)).sum ≤
      ((fields.map Prod.fst).map (namedSize ms)).sum := by
    rw [List.map_map]
    apply List.sum_le_sum
    intro f hf
    obtain ⟨member, hfound, hsnd⟩ := Option.map_eq_some_iff.1 (hfields f hf)
    have hmem : member ∈ ms := List.mem_reverse.1 (List.mem_of_find?_eq_some hfound)
    have hname : member.1 = f.1.toList := by simpa using List.find?_some hfound
    have heq : (f.1.toList, f.2) = member := by rw [← hname, ← hsnd]
    rw [heq]
    refine List.single_le_sum (by simp) _ (List.mem_map_of_mem ?_)
    exact List.mem_filter.2 ⟨hmem, by simpa using hname⟩
  exact le_trans hown (sum_namedSize_le ms hnames)

/-- An integer as `serde_json` reads it into a number; what is not written as one is a float. -/
def asInteger : Json → Option Int
  | .number literal =>
    if literal ≠ [] ∧ literal.all Char.isDigit = true then
      some (Nat.ofDigitChars 10 literal 0)
    else
      match literal with
      | '-' :: digits =>
        if digits.all Char.isDigit = true ∧ Nat.ofDigitChars 10 digits 0 ≠ 0 then
          some (-(Nat.ofDigitChars 10 digits 0 : Int))
        else none
      | _ => none
  | _ => none

def asString : Json → Option String
  | .string text => some (String.ofList text)
  | _ => none

theorem ofDigitChars_lt {digits : List Char} (h : digits.all Char.isDigit = true) (init : Nat) :
    Nat.ofDigitChars 10 digits init < 10 ^ digits.length * (init + 1) := by
  induction digits generalizing init with
  | nil => simp
  | cons c digits ih =>
    rw [List.all_cons, Bool.and_eq_true] at h
    have hc := Char.isDigit_iff_toNat.1 h.1
    have hzero : '0'.toNat = 48 := by decide
    have hnine : '9'.toNat = 57 := by decide
    have hrest := ih h.2 (10 * init + (c.toNat - 48))
    rw [Nat.ofDigitChars_cons, hzero, List.length_cons]
    calc Nat.ofDigitChars 10 digits (10 * init + (c.toNat - 48))
        < 10 ^ digits.length * (10 * init + (c.toNat - 48) + 1) := hrest
      _ ≤ 10 ^ digits.length * (10 * (init + 1)) := Nat.mul_le_mul_left _ (by omega)
      _ = 10 ^ (digits.length + 1) * (init + 1) := by ring

/-- No text of a number is shorter than the one that is written for it. -/
theorem leastSize_of_asInteger {value : Json} {n : Int} (h : value.asInteger = some n)
    (hn : 0 ≤ n) : (toString n).utf8ByteSize ≤ leastSize value := by
  cases value with
  | number literal =>
    simp only [asInteger] at h
    split_ifs at h with hdigits
    · obtain ⟨hne, hall⟩ := hdigits
      have hvalue : (Nat.ofDigitChars 10 literal 0 : Int) = n := Option.some.inj h
      have hlt := ofDigitChars_lt hall 0
      have hpos : 0 < literal.length := List.length_pos_iff.2 hne
      have hsize : (toString n).utf8ByteSize ≤ literal.length := by
        rw [← hvalue, Int.toString_eq_repr, Int.repr_eq_if, if_pos (Int.natCast_nonneg _),
          Int.toNat_natCast]
        exact natural_size_le hpos (by omega)
      exact le_trans hsize (length_le_utf8Length literal)
    · split at h
      · split_ifs at h with hnegative
        have hvalue := Option.some.inj h
        omega
      · cases h
  | _ => cases h

theorem leastSize_of_asString {value : Json} {text : String} (h : value.asString = some text) :
    leastSize value = quotedSize text.toList := by
  cases value with
  | string cs =>
    have htext : String.ofList cs = text := Option.some.inj h
    rw [← htext, String.toList_ofList]
    rfl
  | _ => cases h

end Json
end FlowType
