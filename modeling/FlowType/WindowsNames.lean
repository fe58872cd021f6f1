import Mathlib.Data.List.DropRight
import Mathlib.Data.Nat.Digits.Defs
import FlowType.FileTransfers

/-! Names for received files: what a segment of a wire path becomes on Windows, how names
that are taken get a number, and which relative paths are accepted. A text is the list of
its characters. -/
namespace FlowType

def MAX_RELATIVE_PATH_BYTES : Nat := 4096

def utf16Size (c : Char) : Nat := if c.toNat < 0x10000 then 1 else 2

def utf16Length (text : List Char) : Nat := (text.map utf16Size).sum

def utf8Length (text : List Char) : Nat := (text.map Char.utf8Size).sum

@[simp] theorem utf16Length_nil : utf16Length [] = 0 := rfl

@[simp] theorem utf16Length_cons (c : Char) (text : List Char) :
    utf16Length (c :: text) = utf16Size c + utf16Length text := List.sum_cons

@[simp] theorem utf16Length_append (a b : List Char) :
    utf16Length (a ++ b) = utf16Length a + utf16Length b := by
  simp [utf16Length]

@[simp] theorem utf8Length_nil : utf8Length [] = 0 := rfl

@[simp] theorem utf8Length_cons (c : Char) (text : List Char) :
    utf8Length (c :: text) = c.utf8Size + utf8Length text := List.sum_cons

@[simp] theorem utf8Length_append (a b : List Char) :
    utf8Length (a ++ b) = utf8Length a + utf8Length b := by
  simp [utf8Length]

/-- `char::is_whitespace`. -/
def isWhitespaceChar (c : Char) : Bool :=
  (9 ≤ c.toNat && c.toNat ≤ 13) || c.toNat == 0x20 || c.toNat == 0x85 || c.toNat == 0xA0 ||
    c.toNat == 0x1680 || (0x2000 ≤ c.toNat && c.toNat ≤ 0x200A) || c.toNat == 0x2028 ||
    c.toNat == 0x2029 || c.toNat == 0x202F || c.toNat == 0x205F || c.toNat == 0x3000

def FORBIDDEN_CHARS : List Char := ['<', '>', ':', '"', '/', '\\', '|', '?', '*']

def RESERVED_NAMES : List (List Char) :=
  ["CON", "PRN", "AUX", "NUL", "COM1", "COM2", "COM3", "COM4", "COM5", "COM6", "COM7", "COM8",
    "COM9", "LPT1", "LPT2", "LPT3", "LPT4", "LPT5", "LPT6", "LPT7", "LPT8", "LPT9"].map
      String.toList

def plainChar (c : Char) : Bool := !isControlChar c && !FORBIDDEN_CHARS.contains c

/-- A name that stands for itself below a directory: it leads nowhere else. -/
structure PlainName (name : List Char) : Prop where
  nonempty : name ≠ []
  not_dot : name ≠ ['.']
  not_dots : name ≠ ['.', '.']
  chars : ∀ c ∈ name, plainChar c = true

def isWindowsReservedName (value : List Char) : Bool :=
  let stem := (value.takeWhile (· ≠ '.')).rdropWhile isWhitespaceChar
  RESERVED_NAMES.contains (stem.map Char.toUpper)

def truncateUtf16 : List Char → Nat → List Char
  | [], _ => []
  | c :: text, maxUnits =>
    if utf16Size c ≤ maxUnits then c :: truncateUtf16 text (maxUnits - utf16Size c) else []

theorem utf16Size_le_two (c : Char) : utf16Size c ≤ 2 := by
  unfold utf16Size
  split <;> omega

theorem utf16Length_le_of_prefix {a b : List Char} (h : a <+: b) :
    utf16Length a ≤ utf16Length b := by
  obtain ⟨rest, rfl⟩ := h
  simp

theorem isPrefix_truncateUtf16 (text : List Char) (maxUnits : Nat) :
    truncateUtf16 text maxUnits <+: text := by
  induction text generalizing maxUnits with
  | nil => exact List.nil_prefix
  | cons c text ih =>
    rw [truncateUtf16]
    split
    · exact (List.prefix_cons_inj c).2 (ih _)
    · exact List.nil_prefix

theorem utf16Length_truncateUtf16_le (text : List Char) (maxUnits : Nat) :
    utf16Length (truncateUtf16 text maxUnits) ≤ maxUnits := by
  induction text generalizing maxUnits with
  | nil => exact Nat.zero_le _
  | cons c text ih =>
    rw [truncateUtf16]
    split
    · have hrest := ih (maxUnits - utf16Size c)
      rw [utf16Length_cons]
      omega
    · exact Nat.zero_le _

/-- What is cut off does not fit: a text that is cut fills all units but one. -/
theorem truncateUtf16_eq_or_long (text : List Char) (maxUnits : Nat) :
    truncateUtf16 text maxUnits = text ∨
      maxUnits ≤ utf16Length (truncateUtf16 text maxUnits) + 1 := by
  induction text generalizing maxUnits with
  | nil => exact .inl rfl
  | cons c text ih =>
    have htwo := utf16Size_le_two c
    rw [truncateUtf16]
    split
    · rw [utf16Length_cons]
      rcases ih (maxUnits - utf16Size c) with hsame | hlong
      · exact .inl (by rw [hsame])
      · exact .inr (by omega)
    · exact .inr (by rw [utf16Length_nil]; omega)

theorem PlainName.truncateUtf16 {name : List Char} (h : PlainName name) {maxUnits : Nat}
    (hunits : 4 ≤ maxUnits) : PlainName (truncateUtf16 name maxUnits) := by
  rcases truncateUtf16_eq_or_long name maxUnits with hsame | hlong
  · rw [hsame]
    exact h
  · have hdot : utf16Length ['.'] = 1 := by decide
    have hdots : utf16Length ['.', '.'] = 2 := by decide
    refine ⟨?_, ?_, ?_, ?_⟩
    · intro hnil
      rw [hnil, utf16Length_nil] at hlong
      omega
    · intro heq
      rw [heq] at hlong
      omega
    · intro heq
      rw [heq] at hlong
      omega
    · intro c hc
      exact h.chars c ((isPrefix_truncateUtf16 name maxUnits).subset hc)

def sanitizeWindowsSegment (segment : List Char) : List Char :=
  let replaced := segment.map fun c => if isControlChar c || FORBIDDEN_CHARS.contains c then '_' else c
  let trimmed := replaced.rdropWhile fun c => c == ' ' || c == '.'
  let named := if trimmed = [] ∨ trimmed = ['.'] ∨ trimmed = ['.', '.'] then "untitled".toList
    else trimmed
  let result := if isWindowsReservedName named then named ++ ['_'] else named
  truncateUtf16 result 240

theorem plainName_of_last {name : List Char} (hne : name ≠ [])
    (hlast : name.getLast? ≠ some '.') (hchars : ∀ c ∈ name, plainChar c = true) :
    PlainName name := by
  refine ⟨hne, ?_, ?_, hchars⟩
  · intro heq
    exact hlast (by rw [heq]; rfl)
  · intro heq
    exact hlast (by rw [heq]; rfl)

theorem plainName_sanitizeWindowsSegment (segment : List Char) :
    PlainName (sanitizeWindowsSegment segment) := by
  unfold sanitizeWindowsSegment
  extract_lets replaced trimmed named result
  have hreplaced : ∀ c ∈ replaced, plainChar c = true := by
    intro c hc
    obtain ⟨d, -, rfl⟩ := List.mem_map.1 hc
    split
    · decide
    · simp_all [plainChar]
  have htrimmed : ∀ c ∈ trimmed, plainChar c = true := fun c hc =>
    hreplaced c ((List.rdropWhile_prefix _ _).subset hc)
  have hnamed : PlainName named := by
    by_cases h : trimmed = [] ∨ trimmed = ['.'] ∨ trimmed = ['.', '.']
    · have hval : named = "untitled".toList := if_pos h
      rw [hval]
      exact ⟨by decide, by decide, by decide, List.all_eq_true.1 (by decide)⟩
    · have hval : named = trimmed := if_neg h
      rw [hval]
      simp only [not_or] at h
      exact ⟨h.1, h.2.1, h.2.2, htrimmed⟩
  have hresult : PlainName result := by
    by_cases h : isWindowsReservedName named = true
    · have hval : result = named ++ ['_'] := if_pos h
      rw [hval]
      refine plainName_of_last (by simp) (by simp) ?_
      intro c hc
      rcases List.mem_append.1 hc with hin | hlast
      · exact hnamed.chars c hin
      · rw [List.mem_singleton.1 hlast]
        decide
    · have hval : result = named := if_neg h
      rw [hval]
      exact hnamed
  exact hresult.truncateUtf16 (by decide)

theorem utf16Length_sanitizeWindowsSegment (segment : List Char) :
    utf16Length (sanitizeWindowsSegment segment) ≤ 240 :=
  utf16Length_truncateUtf16_le _ _

/-- The text before and after its last `c`. -/
def rsplitOnce (c : Char) (text : List Char) : Option (List Char × List Char) :=
  if text.contains c then
    some ((text.rdropWhile (· ≠ c)).dropLast, text.rtakeWhile (· ≠ c))
  else none

theorem rsplitOnce_append (c : Char) (a b : List Char) (h : c ∉ b) :
    rsplitOnce c (a ++ c :: b) = some (a, b) := by
  have hb : ∀ x ∈ b, (decide (x ≠ c)) = true := by
    intro x hx
    have hne : x ≠ c := by
      rintro rfl
      exact h hx
    simpa using hne
  have hdrop : (a ++ c :: b).rdropWhile (· ≠ c) = a ++ [c] := by
    rw [List.append_cons, List.rdropWhile, List.reverse_append, List.dropWhile_append_of_pos]
    · simp
    · simpa using hb
  have htake : (a ++ c :: b).rtakeWhile (· ≠ c) = b := by
    rw [List.append_cons, List.rtakeWhile, List.reverse_append, List.takeWhile_append_of_pos]
    · simp
    · simpa using hb
  rw [rsplitOnce, hdrop, htake]
  simp

theorem eq_of_rsplitOnce {c : Char} {text a b : List Char} (h : rsplitOnce c text = some (a, b)) :
    text = a ++ c :: b ∧ c ∉ b := by
  by_cases hc : c ∈ text
  · have hmem : c ∈ text.reverse := List.mem_reverse.2 hc
    obtain ⟨after, before, hrev, hafter⟩ := List.eq_append_cons_of_mem hmem
    have htext : text = before.reverse ++ c :: after.reverse := by
      rw [← List.reverse_reverse text, hrev]
      simp
    have hnot : c ∉ after.reverse := by simpa using hafter
    rw [htext, rsplitOnce_append _ _ _ hnot] at h
    cases h
    exact ⟨htext, hnot⟩
  · rw [rsplitOnce, if_neg (by simpa using hc)] at h
    cases h

theorem rsplitOnce_eq_none {c : Char} {text : List Char} : rsplitOnce c text = none ↔ c ∉ text := by
  simp [rsplitOnce]

/-- The stem and the extension with its dot; a name that starts with its last dot is all
stem. -/
def splitExtension (name : List Char) : List Char × List Char :=
  match rsplitOnce '.' name with
  | some (stem, _) => if stem = [] then (name, []) else (stem, name.drop stem.length)
  | none => (name, [])

theorem splitExtension_append (name : List Char) :
    (splitExtension name).1 ++ (splitExtension name).2 = name := by
  unfold splitExtension
  split
  · rename_i stem extension h
    split
    · simp
    · obtain ⟨heq, -⟩ := eq_of_rsplitOnce h
      subst heq
      simp
  · simp

def collisionSuffix (number : Nat) : List Char := " (".toList ++ Nat.toDigits 10 number ++ [')']

def appendCollisionSuffix (name : List Char) (number : Nat) (directory : Bool) : List Char :=
  let suffix := collisionSuffix number
  let parts := if directory then (name, []) else splitExtension name
  let allowed := 240 - (utf16Length suffix + utf16Length parts.2)
  truncateUtf16 parts.1 allowed ++ suffix ++ parts.2

theorem utf16Length_le_length {text : List Char} (h : ∀ c ∈ text, utf16Size c ≤ 1) :
    utf16Length text ≤ text.length := by
  induction text with
  | nil => exact Nat.le_refl 0
  | cons c text ih =>
    have hc := h c List.mem_cons_self
    have hrest := ih fun d hd => h d (List.mem_cons_of_mem c hd)
    rw [utf16Length_cons, List.length_cons]
    omega

theorem toNat_of_mem_toDigits {number : Nat} {c : Char} (h : c ∈ Nat.toDigits 10 number) :
    48 ≤ c.toNat ∧ c.toNat ≤ 57 :=
  Char.isDigit_iff_toNat.1 (Nat.isDigit_of_mem_toDigits (by decide) (by decide) h)

theorem plainChar_of_digit {c : Char} (h : 48 ≤ c.toNat ∧ c.toNat ≤ 57) : plainChar c = true := by
  have hforbidden : (FORBIDDEN_CHARS.all fun d => decide ¬(48 ≤ d.toNat ∧ d.toNat ≤ 57)) = true := by
    decide
  have hnot : c ∉ FORBIDDEN_CHARS := fun hc =>
    of_decide_eq_true (List.all_eq_true.1 hforbidden c hc) h
  have hcontrol : isControlChar c = false := by
    simp only [isControlChar, Bool.or_eq_false_iff, Bool.and_eq_false_imp, decide_eq_false_iff_not,
      decide_eq_true_eq]
    omega
  simpa [plainChar, hcontrol] using hnot

theorem plainChar_collisionSuffix (number : Nat) :
    ∀ c ∈ collisionSuffix number, plainChar c = true := by
  intro c hc
  simp only [collisionSuffix, List.mem_append] at hc
  rcases hc with (hopen | hdigit) | hclose
  · exact List.all_eq_true.1 (by decide) c hopen
  · exact plainChar_of_digit (toNat_of_mem_toDigits hdigit)
  · exact List.all_eq_true.1 (by decide) c hclose

theorem utf16Length_collisionSuffix {number : Nat} (h : number < 2 ^ 32) :
    utf16Length (collisionSuffix number) ≤ 13 := by
  have hdigits : (Nat.toDigits 10 number).length ≤ 10 :=
    Nat.toDigits_length 10 number 10 (by decide) (by omega)
  have hunits : ∀ c ∈ Nat.toDigits 10 number, utf16Size c ≤ 1 := by
    intro c hc
    have hc := toNat_of_mem_toDigits hc
    rw [utf16Size, if_pos (by omega)]
  have hsum := utf16Length_le_length hunits
  have hopen : utf16Length " (".toList = 2 := by decide
  have hclose : utf16Length [')'] = 1 := by decide
  rw [collisionSuffix, utf16Length_append, utf16Length_append, hopen, hclose]
  omega

theorem plainName_appendCollisionSuffix {name : List Char} (h : PlainName name) (number : Nat)
    (directory : Bool) : PlainName (appendCollisionSuffix name number directory) := by
  unfold appendCollisionSuffix
  extract_lets suffix parts allowed
  have hparts : ∀ c, c ∈ parts.1 ∨ c ∈ parts.2 → c ∈ name := by
    intro c hc
    have happend : parts.1 ++ parts.2 = name := by
      cases directory with
      | true => exact List.append_nil name
      | false => exact splitExtension_append name
    rw [← happend]
    exact List.mem_append.2 hc
  have hspace : ' ' ∈ truncateUtf16 parts.1 allowed ++ suffix ++ parts.2 := by
    have hmem : ' ' ∈ suffix := by simp [suffix, collisionSuffix]
    simp [hmem]
  refine ⟨List.ne_nil_of_mem hspace, ?_, ?_, ?_⟩
  · intro heq
    rw [heq] at hspace
    simp at hspace
  · intro heq
    rw [heq] at hspace
    simp at hspace
  · intro c hc
    rcases List.mem_append.1 hc with hfront | hext
    · rcases List.mem_append.1 hfront with hstem | hsuffix
      · exact h.chars c (hparts c (.inl ((isPrefix_truncateUtf16 _ _).subset hstem)))
      · exact plainChar_collisionSuffix number c hsuffix
    · exact h.chars c (hparts c (.inr hext))

/-- A name that is numbered can be longer than the names that are not, yet still valid. -/
theorem utf16Length_appendCollisionSuffix {name : List Char} (h : utf16Length name ≤ 240)
    {number : Nat} (hnumber : number < 2 ^ 32) (directory : Bool) :
    utf16Length (appendCollisionSuffix name number directory) ≤ 253 := by
  unfold appendCollisionSuffix
  extract_lets suffix parts allowed
  have hext : utf16Length parts.2 ≤ 240 := by
    cases directory with
    | true => exact Nat.zero_le _
    | false =>
      have happend := congrArg utf16Length (splitExtension_append name)
      rw [utf16Length_append] at happend
      have hval : parts.2 = (splitExtension name).2 := rfl
      rw [hval]
      omega
  have hsuffix : utf16Length suffix ≤ 13 := utf16Length_collisionSuffix hnumber
  have hstem : utf16Length (truncateUtf16 parts.1 allowed) ≤ allowed :=
    utf16Length_truncateUtf16_le _ _
  rw [utf16Length_append, utf16Length_append]
  omega

section Reservation
variable (lower : List Char → List Char)

/-- The names that are taken in a directory, in lower case. -/
structure WindowsNameReservation where
  used : List (List Char)

namespace WindowsNameReservation

def new (existing : List (List Char)) : WindowsNameReservation := ⟨existing.map lower⟩

/-- The first number from `suffix` on that makes the name a free one, among the next
`numbers` ones. -/
def number (r : WindowsNameReservation) (base : List Char) (directory : Bool) :
    Nat → Nat → Option (List Char)
  | 0, _ => none
  | numbers + 1, suffix =>
    let candidate := appendCollisionSuffix base suffix directory
    if r.used.contains (lower candidate) then r.number base directory numbers (suffix + 1)
    else some candidate

/-- Nothing is reserved when every number of 32 bits is taken. -/
def reserve (r : WindowsNameReservation) (desired : List Char) (directory : Bool) :
    Option (List Char × WindowsNameReservation) :=
  let base := sanitizeWindowsSegment desired
  let name := if r.used.contains (lower base) then r.number lower base directory (2 ^ 32 - 1) 1
    else some base
  name.map fun name => (name, ⟨lower name :: r.used⟩)

/-- What an entry becomes: its own name when that is free, else the name with the first number
that makes it free. -/
def FirstFree (r : WindowsNameReservation) (desired : List Char) (directory : Bool)
    (name : List Char) : Prop :=
  let base := sanitizeWindowsSegment desired
  (lower base ∉ r.used ∧ name = base) ∨
    (lower base ∈ r.used ∧ ∃ number, 1 ≤ number ∧ number < 2 ^ 32 ∧
      name = appendCollisionSuffix base number directory ∧ lower name ∉ r.used ∧
      ∀ smaller, 1 ≤ smaller → smaller < number →
        lower (appendCollisionSuffix base smaller directory) ∈ r.used)

theorem number_spec {lower : List Char → List Char} {r : WindowsNameReservation}
    {base name : List Char} {directory : Bool} {numbers suffix : Nat}
    (h : r.number lower base directory numbers suffix = some name) :
    lower name ∉ r.used ∧ ∃ number, suffix ≤ number ∧ number < suffix + numbers ∧
      name = appendCollisionSuffix base number directory := by
  induction numbers generalizing suffix with
  | zero => cases h
  | succ numbers ih =>
    simp only [number] at h
    split at h
    · obtain ⟨hfree, number, hfrom, hto, hname⟩ := ih h
      exact ⟨hfree, number, by omega, by omega, hname⟩
    · rename_i hfree
      cases h
      exact ⟨by simpa using hfree, suffix, by omega, by omega, rfl⟩

/-- What `reserve` gives out: a name of Windows that no reserved name equals. -/
theorem reserve_spec {lower : List Char → List Char} {r r' : WindowsNameReservation}
    {desired name : List Char} {directory : Bool}
    (h : r.reserve lower desired directory = some (name, r')) :
    PlainName name ∧ utf16Length name ≤ 255 ∧ lower name ∉ r.used ∧
      r'.used = lower name :: r.used := by
  unfold reserve at h
  extract_lets base found at h
  obtain ⟨name, hname, ⟨rfl, rfl⟩⟩ := Option.map_eq_some_iff.1 h
  have hplain : PlainName base := plainName_sanitizeWindowsSegment desired
  have hlength : utf16Length base ≤ 240 := utf16Length_sanitizeWindowsSegment desired
  by_cases hused : r.used.contains (lower base) = true
  · have hval : found = r.number lower base directory (2 ^ 32 - 1) 1 := if_pos hused
    rw [hval] at hname
    obtain ⟨hfree, number, -, hnumber, rfl⟩ := number_spec hname
    have hshort := utf16Length_appendCollisionSuffix hlength
      (show number < 2 ^ 32 by omega) directory
    exact ⟨plainName_appendCollisionSuffix hplain number directory, by omega, hfree, rfl⟩
  · have hval : found = some base := if_neg hused
    rw [hval] at hname
    obtain rfl := Option.some.inj hname
    exact ⟨hplain, by omega, by simpa using hused, rfl⟩

theorem number_eq_some {lower : List Char → List Char} {r : WindowsNameReservation}
    {base name : List Char} {directory : Bool} {numbers suffix : Nat} :
    r.number lower base directory numbers suffix = some name ↔
      ∃ number, suffix ≤ number ∧ number < suffix + numbers ∧
        name = appendCollisionSuffix base number directory ∧ lower name ∉ r.used ∧
        ∀ smaller, suffix ≤ smaller → smaller < number →
          lower (appendCollisionSuffix base smaller directory) ∈ r.used := by
  induction numbers generalizing suffix with
  | zero =>
    constructor
    · intro h
      cases h
    · rintro ⟨number, hfrom, hto, -⟩
      omega
  | succ numbers ih =>
    rw [number]
    by_cases hused : lower (appendCollisionSuffix base suffix directory) ∈ r.used
    · rw [if_pos (by simpa using hused), ih]
      constructor
      · rintro ⟨number, hfrom, hto, hname, hfree, hsmaller⟩
        refine ⟨number, by omega, by omega, hname, hfree, ?_⟩
        intro smaller hsuffix hlt
        by_cases hfirst : smaller = suffix
        · rw [hfirst]
          exact hused
        · exact hsmaller smaller (by omega) hlt
      · rintro ⟨number, hfrom, hto, hname, hfree, hsmaller⟩
        have hne : number ≠ suffix := by
          rintro rfl
          rw [hname] at hfree
          exact hfree hused
        refine ⟨number, by omega, by omega, hname, hfree, ?_⟩
        intro smaller hfrom hlt
        exact hsmaller smaller (by omega) hlt
    · rw [if_neg (by simpa using hused)]
      constructor
      · intro h
        obtain rfl := Option.some.inj h
        exact ⟨suffix, by omega, by omega, rfl, hused, fun smaller h hlt => by omega⟩
      · rintro ⟨number, hfrom, hto, hname, hfree, hsmaller⟩
        have hsame : number = suffix := by
          by_contra hne
          exact hused (hsmaller suffix (by omega) (by omega))
        rw [hname, hsame]

/-- The first free name is the one that `reserve` gives out. -/
theorem firstFree_iff {lower : List Char → List Char} {r : WindowsNameReservation}
    {desired name : List Char} {directory : Bool} :
    r.FirstFree lower desired directory name ↔
      r.reserve lower desired directory = some (name, ⟨lower name :: r.used⟩) := by
  unfold FirstFree reserve
  extract_lets base found
  have hfound : found.map (fun name => (name, (⟨lower name :: r.used⟩ : WindowsNameReservation))) =
      some (name, ⟨lower name :: r.used⟩) ↔ found = some name := by
    rw [Option.map_eq_some_iff]
    constructor
    · rintro ⟨other, hother, heq⟩
      rw [hother, (Prod.mk.inj heq).1]
    · intro h
      exact ⟨name, h, rfl⟩
  rw [hfound]
  by_cases hused : lower base ∈ r.used
  · have hval : found = r.number lower base directory (2 ^ 32 - 1) 1 :=
      if_pos (by simpa using hused)
    rw [hval, number_eq_some]
    simp [hused]
  · have hval : found = some base := if_neg (by simpa using hused)
    rw [hval]
    simp [hused, eq_comm]

end WindowsNameReservation

end Reservation

def validSegment (segment : List Char) : Bool :=
  segment ≠ [] && segment ≠ ['.'] && segment ≠ ['.', '.'] && utf16Length segment ≤ 255

def validateRelativePath (path : List Char) : Bool :=
  path ≠ [] && utf8Length path ≤ MAX_RELATIVE_PATH_BYTES && path.head? ≠ some '/' &&
    path.getLast? ≠ some '/' && !path.contains '\\' && !path.any isControlChar &&
    (path.splitOn '/').all validSegment && (path.splitOn '/').length ≤ 128

/-- `segments.join("/")`. -/
def wirePath (segments : List (List Char)) : List Char := ['/'].intercalate segments

theorem wirePath_cons {segments : List (List Char)} (h : segments ≠ []) (name : List Char) :
    wirePath (name :: segments) = name ++ '/' :: wirePath segments := by
  rw [wirePath, List.intercalate_cons_of_ne_nil h]
  simp [wirePath]

theorem wirePath_concat {segments : List (List Char)} (h : segments ≠ []) (name : List Char) :
    wirePath (segments ++ [name]) = wirePath segments ++ '/' :: name := by
  induction segments with
  | nil => exact absurd rfl h
  | cons first rest ih =>
    by_cases hrest : rest = []
    · subst hrest
      simp [wirePath]
    · rw [List.cons_append, wirePath_cons (by simp), ih hrest, wirePath_cons hrest]
      simp

theorem mem_wirePath {segments : List (List Char)} {c : Char} (h : c ∈ wirePath segments) :
    c = '/' ∨ ∃ name ∈ segments, c ∈ name := by
  induction segments with
  | nil => cases h
  | cons first rest ih =>
    by_cases hrest : rest = []
    · subst hrest
      exact .inr ⟨first, List.mem_cons_self, by simpa [wirePath] using h⟩
    · rw [wirePath_cons hrest] at h
      rcases List.mem_append.1 h with hfirst | htail
      · exact .inr ⟨first, List.mem_cons_self, hfirst⟩
      · rcases List.mem_cons.1 htail with hslash | hmem
        · exact .inl hslash
        · rcases ih hmem with hslash | ⟨name, hname, hc⟩
          · exact .inl hslash
          · exact .inr ⟨name, List.mem_cons_of_mem _ hname, hc⟩

theorem mem_wirePath_of_mem {segments : List (List Char)} {name : List Char} {c : Char}
    (hname : name ∈ segments) (hc : c ∈ name) : c ∈ wirePath segments := by
  induction segments with
  | nil => cases hname
  | cons first rest ih =>
    by_cases hrest : rest = []
    · subst hrest
      rw [List.mem_singleton.1 hname] at hc
      simpa [wirePath] using hc
    · rw [wirePath_cons hrest]
      rcases List.mem_cons.1 hname with rfl | hmem
      · exact List.mem_append_left _ hc
      · exact List.mem_append_right _ (List.mem_cons_of_mem _ (ih hmem))

theorem not_mem_of_plainName {name : List Char} (h : PlainName name) {c : Char}
    (hc : c ∈ FORBIDDEN_CHARS) : c ∉ name := by
  intro hmem
  have hplain := h.chars c hmem
  simp [plainChar, hc] at hplain

structure PathName (name : List Char) : Prop where
  nonempty : name ≠ []
  slash : '/' ∉ name
  backslash : '\\' ∉ name
  not_dot : name ≠ ['.']
  not_dots : name ≠ ['.', '.']

theorem PlainName.pathName {name : List Char} (h : PlainName name) : PathName name where
  nonempty := h.nonempty
  slash := not_mem_of_plainName h (by decide)
  backslash := not_mem_of_plainName h (by decide)
  not_dot := h.not_dot
  not_dots := h.not_dots

theorem splitOn_wirePath {segments : List (List Char)} (hne : segments ≠ [])
    (h : ∀ name ∈ segments, PathName name) : (wirePath segments).splitOn '/' = segments :=
  List.splitOn_intercalate '/' (fun name hname => (h name hname).slash) hne

theorem head?_wirePath {segments : List (List Char)} (h : ∀ name ∈ segments, PathName name) :
    (wirePath segments).head? ≠ some '/' := by
  cases segments with
  | nil => simp [wirePath]
  | cons first rest =>
    have hfirst := h first List.mem_cons_self
    obtain ⟨c, chars, rfl⟩ := List.exists_cons_of_ne_nil hfirst.nonempty
    have hc : c ≠ '/' := by
      rintro rfl
      exact hfirst.slash List.mem_cons_self
    rw [wirePath, List.intercalate_cons_cons_left]
    simpa using hc

theorem getLast?_wirePath {segments : List (List Char)} (h : ∀ name ∈ segments, PathName name) :
    (wirePath segments).getLast? ≠ some '/' := by
  rcases List.eq_nil_or_concat segments with rfl | ⟨before, last, rfl⟩
  · simp [wirePath]
  · have hlast := h last (by simp)
    have hend : (wirePath (before ++ [last])).getLast? = last.getLast? := by
      by_cases hbefore : before = []
      · simp [hbefore, wirePath]
      · obtain ⟨c, chars, rfl⟩ := List.exists_cons_of_ne_nil hlast.nonempty
        rw [wirePath_concat hbefore, List.getLast?_append_cons, List.getLast?_cons_cons]
    rw [List.concat_eq_append, hend]
    intro hslash
    exact hlast.slash (List.mem_of_getLast? hslash)

/-- What is left to check of a path that is made of names. -/
theorem validateRelativePath_iff {segments : List (List Char)} (hne : segments ≠ [])
    (h : ∀ name ∈ segments, PathName name) :
    validateRelativePath (wirePath segments) = true ↔
      utf8Length (wirePath segments) ≤ MAX_RELATIVE_PATH_BYTES ∧ segments.length ≤ 128 ∧
        ∀ name ∈ segments, name.any isControlChar = false ∧ utf16Length name ≤ 255 := by
  have hsplit := splitOn_wirePath hne h
  have hpath : wirePath segments ≠ [] := by
    intro hnil
    rw [hnil] at hsplit
    have hempty : ([] : List Char) ∈ segments := by simp [← hsplit]
    exact (h [] hempty).nonempty rfl
  have hbackslash : '\\' ∉ wirePath segments := by
    intro hc
    rcases mem_wirePath hc with heq | ⟨name, hname, hmem⟩
    · exact absurd heq (by decide)
    · exact (h name hname).backslash hmem
  have hcontrol : (wirePath segments).any isControlChar = false ↔
      ∀ name ∈ segments, name.any isControlChar = false := by
    simp only [List.any_eq_false]
    constructor
    · intro hall name hname c hc
      exact hall c (mem_wirePath_of_mem hname hc)
    · intro hall c hc
      rcases mem_wirePath hc with rfl | ⟨name, hname, hmem⟩
      · decide
      · exact hall name hname c hmem
  have hsegments : segments.all validSegment = true ↔
      ∀ name ∈ segments, utf16Length name ≤ 255 := by
    rw [List.all_eq_true]
    apply forall₂_congr
    intro name hname
    have hp := h name hname
    simp [validSegment, hp.nonempty, hp.not_dot, hp.not_dots]
  simp only [validateRelativePath, hsplit, hpath, head?_wirePath h, getLast?_wirePath h,
    Bool.and_eq_true, decide_eq_true_eq, Bool.not_eq_true', hcontrol, hsegments, ne_eq,
    not_false_eq_true, true_and, forall_and]
  simp only [hbackslash, List.contains_eq_mem, decide_false, and_true]
  tauto

/-- Of all checks on a path that is read, only the one on its length can fail for a path made
of names for Windows. -/
theorem validateRelativePath_wirePath {segments : List (List Char)} (hne : segments ≠ [])
    (hplain : ∀ name ∈ segments, PlainName name) (hunits : ∀ name ∈ segments, utf16Length name ≤ 255)
    (hcount : segments.length ≤ 128) :
    validateRelativePath (wirePath segments) =
      decide (utf8Length (wirePath segments) ≤ MAX_RELATIVE_PATH_BYTES) := by
  have hcontrol : ∀ name ∈ segments, name.any isControlChar = false := by
    intro name hname
    rw [List.any_eq_false]
    intro c hc hcontrol
    have hplain := (hplain name hname).chars c hc
    simp [plainChar, hcontrol] at hplain
  rw [Bool.eq_iff_iff, decide_eq_true_eq,
    validateRelativePath_iff hne fun name hname => (hplain name hname).pathName]
  constructor
  · intro hvalid
    exact hvalid.1
  · intro hbytes
    exact ⟨hbytes, hcount, fun name hname => ⟨hcontrol name hname, hunits name hname⟩⟩

end FlowType
