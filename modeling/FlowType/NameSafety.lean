import FlowType.WindowsNames

/-! When the names that are given out are names that Windows takes as they are. The steps of
`sanitizeWindowsSegment` run in a fixed order: the trimming comes before the underscore for
device names, and both come before the cut at 240 units, which can undo them. -/
namespace FlowType

/-- A name that Windows takes as it is. -/
structure SafeName (name : List Char) : Prop where
  nonempty : name ≠ []
  short : utf16Length name ≤ 240
  chars : ∀ c ∈ name, isControlChar c = false ∧ c ∉ FORBIDDEN_CHARS
  last : name.getLast? ≠ some ' ' ∧ name.getLast? ≠ some '.'
  not_device : isWindowsReservedName name = false

/-- The text of a segment that is to become the name: what Windows forbids is replaced, spaces
and dots at its end are dropped. -/
def nameText (segment : List Char) : List Char :=
  (segment.map fun c => if isControlChar c || FORBIDDEN_CHARS.contains c then '_' else c).rdropWhile
    fun c => c == ' ' || c == '.'

/-- The text is longer than `maxUnits`, and `front` is what of it fits. -/
def CutAt (maxUnits : Nat) (text front : List Char) : Prop :=
  ∃ c rest, text = front ++ c :: rest ∧ utf16Length front ≤ maxUnits ∧
    maxUnits < utf16Length front + utf16Size c

/-- The segments that get a safe name. A device name with a dot keeps its stem when the
underscore comes at its end, a long one loses the underscore, and the cut of a long text may
leave a space, a dot or a device name. -/
def SafeToName (segment : List Char) : Prop :=
  (isWindowsReservedName (nameText segment) = true →
    '.' ∉ nameText segment ∧ utf16Length (nameText segment) < 240) ∧
  ∀ front, CutAt 240 (nameText segment) front →
    front.getLast? ≠ some ' ' ∧ front.getLast? ≠ some '.' ∧ isWindowsReservedName front = false

theorem plainChar_iff {c : Char} :
    plainChar c = true ↔ isControlChar c = false ∧ c ∉ FORBIDDEN_CHARS := by
  simp [plainChar]

theorem truncateUtf16_of_le {text : List Char} {maxUnits : Nat} (h : utf16Length text ≤ maxUnits) :
    truncateUtf16 text maxUnits = text := by
  induction text generalizing maxUnits with
  | nil => rfl
  | cons c text ih =>
    rw [utf16Length_cons] at h
    have hfits : utf16Size c ≤ maxUnits := by omega
    rw [truncateUtf16, if_pos hfits, ih (by omega)]

theorem CutAt.truncateUtf16_eq {maxUnits : Nat} {text front : List Char}
    (h : CutAt maxUnits text front) : truncateUtf16 text maxUnits = front := by
  obtain ⟨c, rest, rfl, hfits, hover⟩ := h
  induction front generalizing maxUnits with
  | nil =>
    rw [utf16Length_nil] at hover
    rw [List.nil_append, truncateUtf16, if_neg (by omega)]
  | cons d front ih =>
    rw [utf16Length_cons] at hfits hover
    have hfirst : utf16Size d ≤ maxUnits := by omega
    rw [List.cons_append, truncateUtf16, if_pos hfirst, ih (by omega) (by omega)]

/-- A text that does not fit is cut. -/
theorem cutAt_of_lt {text : List Char} {maxUnits : Nat} (h : maxUnits < utf16Length text) :
    CutAt maxUnits text (truncateUtf16 text maxUnits) := by
  induction text generalizing maxUnits with
  | nil => exact absurd h (Nat.not_lt_zero _)
  | cons c text ih =>
    rw [utf16Length_cons] at h
    rw [truncateUtf16]
    split
    · rename_i hfits
      have hrest : maxUnits - utf16Size c < utf16Length text := by omega
      obtain ⟨d, rest, htext, hlength, hover⟩ := ih hrest
      refine ⟨d, rest, ?_, ?_, ?_⟩
      · rw [List.cons_append, ← htext]
      · rw [utf16Length_cons]
        omega
      · rw [utf16Length_cons]
        omega
    · rename_i hover
      exact ⟨c, text, rfl, Nat.zero_le _, by rw [utf16Length_nil]; omega⟩

theorem CutAt.lt {maxUnits : Nat} {text front : List Char} (h : CutAt maxUnits text front) :
    maxUnits < utf16Length text := by
  obtain ⟨c, rest, rfl, _, hover⟩ := h
  rw [utf16Length_append, utf16Length_cons]
  omega

section Devices

variable {text front rest : List Char}

theorem takeWhile_append_of_dot (h : '.' ∈ front) :
    (front ++ rest).takeWhile (· ≠ '.') = front.takeWhile (· ≠ '.') := by
  induction front with
  | nil => cases h
  | cons c front ih =>
    by_cases hc : c = '.'
    · simp [hc]
    · have hmem : '.' ∈ front := by
        rcases List.mem_cons.1 h with heq | hmem
        · exact absurd heq.symm hc
        · exact hmem
      simpa [hc] using ih hmem

theorem takeWhile_append_dot (h : '.' ∉ front) (hrest : rest = [] ∨ rest.head? = some '.') :
    (front ++ rest).takeWhile (· ≠ '.') = front := by
  have hall : ∀ c ∈ front, (decide (c ≠ '.')) = true := by
    intro c hc
    have hne : c ≠ '.' := fun heq => h (heq ▸ hc)
    simpa using hne
  rw [List.takeWhile_append_of_pos hall]
  rcases hrest with rfl | hhead
  · simp
  · obtain ⟨rest, rfl⟩ : ∃ tail, rest = '.' :: tail := by
      cases rest with
      | nil => cases hhead
      | cons c tail => exact ⟨tail, by rw [Option.some.inj hhead]⟩
    simp

/-- What comes after the first dot does not matter. -/
theorem isWindowsReservedName_append_of_dot (h : '.' ∈ front) :
    isWindowsReservedName (front ++ rest) = isWindowsReservedName front := by
  unfold isWindowsReservedName
  rw [takeWhile_append_of_dot h]

theorem isWindowsReservedName_iff :
    isWindowsReservedName text = true ↔
      ((text.takeWhile (· ≠ '.')).rdropWhile isWhitespaceChar).map Char.toUpper ∈
        RESERVED_NAMES := by
  unfold isWindowsReservedName
  exact List.contains_iff_mem

/-- A stem that ends with an underscore or a bracket is none of a device. -/
theorem isWindowsReservedName_of_closed {last : Char} (hlast : last = '_' ∨ last = ')')
    (h : '.' ∉ front) (hrest : rest = [] ∨ rest.head? = some '.') :
    isWindowsReservedName (front ++ last :: rest) = false := by
  have hdot : '.' ∉ front ++ [last] := by
    rcases hlast with rfl | rfl <;> simp [h]
  have hblank : isWhitespaceChar last = false := by
    rcases hlast with rfl | rfl <;> decide
  have hupper : last.toUpper = last := by
    rcases hlast with rfl | rfl <;> decide
  have hnone : (RESERVED_NAMES.all fun name => decide (name.getLast? ≠ some last)) = true := by
    rcases hlast with rfl | rfl <;> decide
  rw [← Bool.not_eq_true, isWindowsReservedName_iff]
  rw [List.append_cons, takeWhile_append_dot hdot hrest]
  rw [List.rdropWhile_concat_neg _ _ _ (by simp [hblank]), List.map_append]
  intro hmem
  have hother := of_decide_eq_true (List.all_eq_true.1 hnone _ hmem)
  exact hother (by simp [hupper])

theorem utf16Length_of_mem_reserved {stem : List Char}
    (h : stem.map Char.toUpper ∈ RESERVED_NAMES) : utf16Length stem ≤ 8 := by
  have hshort : (RESERVED_NAMES.all fun name => decide (name.length ≤ 4)) = true := by decide
  have hlength := of_decide_eq_true (List.all_eq_true.1 hshort _ h)
  rw [List.length_map] at hlength
  have hsum : ∀ text : List Char, utf16Length text ≤ 2 * text.length := by
    intro text
    induction text with
    | nil => exact Nat.le_refl 0
    | cons c text ih =>
      have hc := utf16Size_le_two c
      rw [utf16Length_cons, List.length_cons]
      omega
  have hstem := hsum stem
  omega

/-- The front of a device name is one as well, unless it is cut within the device. -/
theorem isWindowsReservedName_of_start (h : isWindowsReservedName text = true)
    (hfront : front <+: text) (hlong : 9 ≤ utf16Length front) :
    isWindowsReservedName front = true := by
  obtain ⟨rest, rfl⟩ := hfront
  by_cases hdot : '.' ∈ front
  · rw [isWindowsReservedName_append_of_dot hdot] at h
    exact h
  · have hwhole : front.takeWhile (· ≠ '.') = front := by
      have happend := takeWhile_append_dot hdot (.inl rfl)
      rwa [List.append_nil] at happend
    have hpre : front <+: (front ++ rest).takeWhile (· ≠ '.') := by
      have hall : ∀ c ∈ front, (decide (c ≠ '.')) = true := by
        intro c hc
        have hne : c ≠ '.' := fun heq => hdot (heq ▸ hc)
        simpa using hne
      rw [List.takeWhile_append_of_pos hall]
      exact List.prefix_append _ _
    rw [isWindowsReservedName_iff] at h ⊢
    rw [hwhole]
    generalize hstem : (front ++ rest).takeWhile (· ≠ '.') = stem at h hpre
    -- The stem is the device and blanks, and the device is shorter than the front.
    have hshort := utf16Length_of_mem_reserved h
    have hsplit : stem.rdropWhile isWhitespaceChar ++ stem.rtakeWhile isWhitespaceChar = stem :=
      List.rdropWhile_append_rtakeWhile
    rw [← hsplit] at hpre
    obtain ⟨blanks, hblanks⟩ : stem.rdropWhile isWhitespaceChar <+: front := by
      refine List.prefix_of_prefix_length_le (List.prefix_append _ _) hpre ?_
      by_contra hlt
      have hshorter := List.prefix_of_prefix_length_le hpre (List.prefix_append _ _) (by omega)
      have hle := utf16Length_le_of_prefix hshorter
      omega
    rw [← hblanks] at hpre ⊢
    have hall : ∀ c ∈ blanks, isWhitespaceChar c = true := by
      intro c hc
      have hin := ((List.prefix_append_right_inj _).1 hpre).subset hc
      exact List.mem_rtakeWhile_imp hin
    rw [List.rdropWhile, List.reverse_append, List.dropWhile_append_of_pos]
    · rw [← List.rdropWhile, List.rdropWhile_idempotent]
      exact h
    · intro c hc
      exact hall c (List.mem_reverse.1 hc)

end Devices

theorem nameText_last (segment : List Char) :
    (nameText segment).getLast? ≠ some ' ' ∧ (nameText segment).getLast? ≠ some '.' := by
  have hlast : ∀ c, (nameText segment).getLast? = some c → ¬(c == ' ' || c == '.') = true := by
    intro c hc
    have hne : nameText segment ≠ [] := by
      intro hnil
      rw [hnil] at hc
      cases hc
    rw [List.getLast?_eq_some_getLast hne] at hc
    rw [← Option.some.inj hc]
    exact List.rdropWhile_last_not _ _ hne
  constructor
  · intro h
    exact hlast ' ' h (by decide)
  · intro h
    exact hlast '.' h (by decide)

theorem nameText_chars (segment : List Char) :
    ∀ c ∈ nameText segment, isControlChar c = false ∧ c ∉ FORBIDDEN_CHARS := by
  intro c hc
  have hreplaced := (List.rdropWhile_prefix _ _).subset hc
  obtain ⟨d, _, heq⟩ := List.mem_map.1 hreplaced
  rw [← heq]
  split
  · exact ⟨by decide, by decide⟩
  · rename_i hplain
    simpa using hplain

/-- The name for a segment: its text, or the name for an empty one; with an underscore behind a
device name; cut at 240 units. -/
theorem sanitizeWindowsSegment_eq (segment : List Char) :
    sanitizeWindowsSegment segment =
      if nameText segment = [] then "untitled".toList
      else truncateUtf16 (if isWindowsReservedName (nameText segment) then
        nameText segment ++ ['_'] else nameText segment) 240 := by
  obtain ⟨_, hdot⟩ := nameText_last segment
  unfold sanitizeWindowsSegment
  extract_lets replaced trimmed named result
  have htrimmed : trimmed = nameText segment := rfl
  by_cases hempty : nameText segment = []
  · have hnamed : named = "untitled".toList := if_pos (.inl (htrimmed.trans hempty))
    have hresult : result = "untitled".toList := by
      have hnone : isWindowsReservedName named = false := by
        rw [hnamed]
        decide
      rw [← hnamed]
      exact if_neg (by simp [hnone])
    rw [hresult, if_pos hempty]
    decide
  · have hnamed : named = nameText segment := by
      refine if_neg ?_
      rw [htrimmed]
      rintro (hnil | hone | htwo)
      · exact hempty hnil
      · exact hdot (by rw [hone]; rfl)
      · exact hdot (by rw [htwo]; rfl)
    rw [if_neg hempty, ← hnamed]

theorem safeName_untitled : SafeName "untitled".toList where
  nonempty := by decide
  short := by decide
  chars c hc := by
    have hall : ("untitled".toList.all plainChar) = true := by decide
    exact plainChar_iff.1 (List.all_eq_true.1 hall c hc)
  last := by decide
  not_device := by decide

/-- A device name stays one under the underscore when it has a dot or the cut takes the
underscore away. -/
theorem safeName_device_iff {text : List Char}
    (hchars : ∀ c ∈ text, isControlChar c = false ∧ c ∉ FORBIDDEN_CHARS)
    (hdevice : isWindowsReservedName text = true) :
    SafeName (truncateUtf16 (text ++ ['_']) 240) ↔ '.' ∉ text ∧ utf16Length text < 240 := by
  have hunit : utf16Length ['_'] = 1 := by decide
  constructor
  · intro hsafe
    by_cases hlong : utf16Length text < 240
    · have hwhole : truncateUtf16 (text ++ ['_']) 240 = text ++ ['_'] := by
        apply truncateUtf16_of_le
        rw [utf16Length_append, hunit]
        omega
      refine ⟨?_, hlong⟩
      intro hdot
      have hnot := hsafe.not_device
      rw [hwhole, isWindowsReservedName_append_of_dot hdot, hdevice] at hnot
      cases hnot
    · exfalso
      have hcut : CutAt 240 (text ++ ['_']) (truncateUtf16 (text ++ ['_']) 240) := by
        apply cutAt_of_lt
        rw [utf16Length_append, hunit]
        omega
      have hnot := hsafe.not_device
      generalize truncateUtf16 (text ++ ['_']) 240 = front at hcut hnot
      obtain ⟨c, rest, htext, _, hover⟩ := hcut
      have htwo := utf16Size_le_two c
      have hpre : front <+: text := by
        have hfront : front <+: text ++ ['_'] := ⟨c :: rest, htext.symm⟩
        refine List.prefix_of_prefix_length_le hfront (List.prefix_append _ _) ?_
        have hlength := congrArg List.length htext
        simp only [List.length_append, List.length_cons, List.length_nil] at hlength
        omega
      rw [isWindowsReservedName_of_start hdevice hpre (by omega)] at hnot
      cases hnot
  · rintro ⟨hdot, hlong⟩
    have hwhole : truncateUtf16 (text ++ ['_']) 240 = text ++ ['_'] := by
      apply truncateUtf16_of_le
      rw [utf16Length_append, hunit]
      omega
    rw [hwhole]
    refine ⟨by simp, ?_, ?_, by simp, ?_⟩
    · rw [utf16Length_append, hunit]
      omega
    · intro c hc
      rcases List.mem_append.1 hc with hin | hlast
      · exact hchars c hin
      · rw [List.mem_singleton.1 hlast]
        exact ⟨by decide, by decide⟩
    · exact isWindowsReservedName_of_closed (.inl rfl) hdot (.inl rfl)

/-- A text that is no device name is safe unless the cut makes it unsafe. -/
theorem safeName_cut_iff {text : List Char} (hne : text ≠ [])
    (hchars : ∀ c ∈ text, isControlChar c = false ∧ c ∉ FORBIDDEN_CHARS)
    (hlast : text.getLast? ≠ some ' ' ∧ text.getLast? ≠ some '.')
    (hdevice : isWindowsReservedName text = false) :
    SafeName (truncateUtf16 text 240) ↔ ∀ front, CutAt 240 text front →
      front.getLast? ≠ some ' ' ∧ front.getLast? ≠ some '.' ∧
        isWindowsReservedName front = false := by
  constructor
  · intro hsafe front hcut
    rw [hcut.truncateUtf16_eq] at hsafe
    exact ⟨hsafe.last.1, hsafe.last.2, hsafe.not_device⟩
  · intro h
    by_cases hlong : 240 < utf16Length text
    · have hcut := cutAt_of_lt hlong
      obtain ⟨hspace, hdot, hnot⟩ := h _ hcut
      refine ⟨?_, utf16Length_truncateUtf16_le _ _, ?_, ⟨hspace, hdot⟩, hnot⟩
      · intro hnil
        obtain ⟨c, rest, _, _, hover⟩ := hcut
        have htwo := utf16Size_le_two c
        rw [hnil, utf16Length_nil] at hover
        omega
      · intro c hc
        exact hchars c ((isPrefix_truncateUtf16 text 240).subset hc)
    · rw [truncateUtf16_of_le (by omega)]
      exact ⟨hne, by omega, hchars, hlast, hdevice⟩

theorem safeName_sanitize_iff (segment : List Char) :
    SafeName (sanitizeWindowsSegment segment) ↔ SafeToName segment := by
  have hchars := nameText_chars segment
  have hlast := nameText_last segment
  rw [sanitizeWindowsSegment_eq]
  unfold SafeToName
  generalize nameText segment = text at hchars hlast ⊢
  by_cases hempty : text = []
  · rw [if_pos hempty, hempty]
    have hnone : isWindowsReservedName [] = false := by decide
    refine iff_of_true safeName_untitled ⟨?_, ?_⟩
    · intro hdevice
      rw [hnone] at hdevice
      cases hdevice
    · intro front hcut
      exact absurd hcut.lt (by decide)
  · rw [if_neg hempty]
    by_cases hdevice : isWindowsReservedName text = true
    · rw [if_pos hdevice, safeName_device_iff hchars hdevice]
      constructor
      · intro h
        refine ⟨fun _ => h, ?_⟩
        intro front hcut
        have hlt := hcut.lt
        omega
      · intro h
        exact h.1 hdevice
    · rw [if_neg hdevice]
      rw [Bool.not_eq_true] at hdevice
      rw [safeName_cut_iff hempty hchars hlast hdevice]
      simp [hdevice]

/-- A safe name is not changed. -/
theorem sanitize_of_safeName {name : List Char} (h : SafeName name) :
    sanitizeWindowsSegment name = name := by
  have htext : nameText name = name := by
    have hmap : (name.map fun c => if isControlChar c || FORBIDDEN_CHARS.contains c then '_'
        else c) = name := by
      conv_rhs => rw [← List.map_id name]
      apply List.map_congr_left
      intro c hc
      obtain ⟨hcontrol, hforbidden⟩ := h.chars c hc
      exact if_neg (by simp [hcontrol, hforbidden])
    unfold nameText
    rw [hmap, List.rdropWhile_eq_self_iff]
    intro hne hlast
    rw [Bool.or_eq_true, beq_iff_eq, beq_iff_eq] at hlast
    rcases hlast with hspace | hdot
    · exact h.last.1 (by rw [List.getLast?_eq_some_getLast hne, hspace])
    · exact h.last.2 (by rw [List.getLast?_eq_some_getLast hne, hdot])
  rw [sanitizeWindowsSegment_eq, htext, if_neg h.nonempty, h.not_device]
  exact truncateUtf16_of_le h.short

/-- What a number is put between: the stem, and the extension of a file. -/
def nameParts (name : List Char) (directory : Bool) : List Char × List Char :=
  if directory then (name, []) else splitExtension name

theorem nameParts_append (name : List Char) (directory : Bool) :
    (nameParts name directory).1 ++ (nameParts name directory).2 = name := by
  cases directory with
  | true => exact List.append_nil name
  | false => exact splitExtension_append name

theorem splitExtension_snd (name : List Char) : (splitExtension name).2 = [] ∨
    ∃ extension, (splitExtension name).2 = '.' :: extension ∧ '.' ∉ extension := by
  unfold splitExtension
  split
  · rename_i stem extension h
    obtain ⟨hname, hdot⟩ := eq_of_rsplitOnce h
    split
    · exact .inl rfl
    · refine .inr ⟨extension, ?_, hdot⟩
      rw [hname]
      exact List.drop_left
  · exact .inl rfl

theorem nameParts_snd (name : List Char) (directory : Bool) :
    (nameParts name directory).2 = [] ∨ (nameParts name directory).2.head? = some '.' := by
  cases directory with
  | true => exact .inl rfl
  | false =>
    rcases splitExtension_snd name with hnone | ⟨extension, hsome, _⟩
    · exact .inl hnone
    · refine .inr ?_
      have hparts : (nameParts name false).2 = '.' :: extension := hsome
      rw [hparts]
      rfl

def numberedStem (name : List Char) (number : Nat) (directory : Bool) : List Char :=
  truncateUtf16 (nameParts name directory).1
    (240 - (utf16Length (collisionSuffix number) + utf16Length (nameParts name directory).2))

theorem appendCollisionSuffix_eq (name : List Char) (number : Nat) (directory : Bool) :
    appendCollisionSuffix name number directory =
      numberedStem name number directory ++ collisionSuffix number ++
        (nameParts name directory).2 := rfl

/-- The names that stay safe under a number. A long extension leaves too little room for the
number, a file keeps its last character, and a device keeps its stem in front of a dot. -/
def SafeToNumber (name : List Char) (number : Nat) (directory : Bool) : Prop :=
  utf16Length (collisionSuffix number) + utf16Length (nameParts name directory).2 ≤ 240 ∧
    ((nameParts name directory).2 = [] ∨
      name.getLast? ≠ some ' ' ∧ name.getLast? ≠ some '.') ∧
    (isWindowsReservedName name = true → '.' ∉ numberedStem name number directory)

theorem collisionSuffix_eq (number : Nat) : collisionSuffix number =
    (" (".toList ++ Nat.toDigits 10 number) ++ [')'] := rfl

theorem dot_notMem_collisionSuffix (number : Nat) : '.' ∉ collisionSuffix number := by
  have hdigits : '.' ∉ Nat.toDigits 10 number := by
    intro hmem
    exact absurd (toNat_of_mem_toDigits hmem) (by decide)
  simp [collisionSuffix, hdigits]

/-- A number is no part of a device's name, so what stands in front of it decides. -/
theorem isWindowsReservedName_appendCollisionSuffix (name : List Char) (number : Nat)
    (directory : Bool) :
    isWindowsReservedName (appendCollisionSuffix name number directory) = false ↔
      (isWindowsReservedName name = true → '.' ∉ numberedStem name number directory) := by
  have hpre : numberedStem name number directory <+: name := by
    have hstem := isPrefix_truncateUtf16 (nameParts name directory).1
      (240 - (utf16Length (collisionSuffix number) + utf16Length (nameParts name directory).2))
    refine hstem.trans ⟨(nameParts name directory).2, ?_⟩
    exact nameParts_append name directory
  have hext := nameParts_snd name directory
  rw [appendCollisionSuffix_eq]
  generalize numberedStem name number directory = front at hpre ⊢
  generalize (nameParts name directory).2 = extension at hext ⊢
  by_cases hdot : '.' ∈ front
  · obtain ⟨rest, rfl⟩ := hpre
    rw [List.append_assoc, isWindowsReservedName_append_of_dot hdot,
      isWindowsReservedName_append_of_dot hdot]
    simp [hdot]
  · have hclosed : '.' ∉ front ++ (" (".toList ++ Nat.toDigits 10 number) := by
      have hsuffix := dot_notMem_collisionSuffix number
      rw [collisionSuffix_eq, List.mem_append, not_or] at hsuffix
      rw [List.mem_append, not_or]
      exact ⟨hdot, hsuffix.1⟩
    have hnone : isWindowsReservedName (front ++ collisionSuffix number ++ extension) = false := by
      have hshape : front ++ collisionSuffix number ++ extension =
          (front ++ (" (".toList ++ Nat.toDigits 10 number)) ++ ')' :: extension := by
        rw [collisionSuffix_eq]
        simp only [List.append_assoc, List.singleton_append]
      rw [hshape]
      exact isWindowsReservedName_of_closed (.inr rfl) hclosed hext
    exact iff_of_true hnone fun _ => hdot

theorem safeName_appendCollisionSuffix_iff {name : List Char} (hplain : PlainName name)
    (number : Nat) (directory : Bool) :
    SafeName (appendCollisionSuffix name number directory) ↔
      SafeToNumber name number directory := by
  have hdevice := isWindowsReservedName_appendCollisionSuffix name number directory
  have hnumbered := plainName_appendCollisionSuffix hplain number directory
  have happend := nameParts_append name directory
  have hstem := utf16Length_truncateUtf16_le (nameParts name directory).1
    (240 - (utf16Length (collisionSuffix number) + utf16Length (nameParts name directory).2))
  have hlength := congrArg utf16Length (appendCollisionSuffix_eq name number directory)
  rw [utf16Length_append, utf16Length_append, numberedStem] at hlength
  -- The last character is that of the extension, else the bracket behind the number.
  have hlast : (appendCollisionSuffix name number directory).getLast? =
      if (nameParts name directory).2 = [] then some ')' else name.getLast? := by
    rw [appendCollisionSuffix_eq]
    split
    · rename_i hnil
      rw [hnil, List.append_nil, collisionSuffix_eq, ← List.append_assoc, List.getLast?_concat]
    · rename_i hsome
      rw [List.getLast?_append_of_ne_nil _ hsome, ← List.getLast?_append_of_ne_nil _ hsome,
        happend]
  constructor
  · intro hsafe
    refine ⟨?_, ?_, hdevice.1 hsafe.not_device⟩
    · have hshort := hsafe.short
      omega
    · by_cases hnil : (nameParts name directory).2 = []
      · exact .inl hnil
      · have hends := hsafe.last
        rw [hlast, if_neg hnil] at hends
        exact .inr hends
  · rintro ⟨hfits, hends, hnot⟩
    refine ⟨hnumbered.nonempty, ?_, ?_, ?_, hdevice.2 hnot⟩
    · omega
    · intro c hc
      exact plainChar_iff.1 (hnumbered.chars c hc)
    · rw [hlast]
      split
      · exact ⟨by decide, by decide⟩
      · rename_i hsome
        exact hends.resolve_left hsome

namespace WindowsNameReservation

variable (lower : List Char → List Char)

/-- The number that a name gets which is taken: the first one that makes it a free one. -/
def FirstNumber (r : WindowsNameReservation) (base : List Char) (directory : Bool)
    (number : Nat) : Prop :=
  1 ≤ number ∧ number < 2 ^ 32 ∧ lower (appendCollisionSuffix base number directory) ∉ r.used ∧
    ∀ smaller, 1 ≤ smaller → smaller < number →
      lower (appendCollisionSuffix base smaller directory) ∈ r.used

/-- The calls that give out a safe name. -/
def SafeToReserve (r : WindowsNameReservation) (desired : List Char) (directory : Bool) : Prop :=
  (lower (sanitizeWindowsSegment desired) ∉ r.used → SafeToName desired) ∧
    (lower (sanitizeWindowsSegment desired) ∈ r.used → ∀ number,
      r.FirstNumber lower (sanitizeWindowsSegment desired) directory number →
        SafeToNumber (sanitizeWindowsSegment desired) number directory)

variable {lower}

theorem FirstNumber.unique {r : WindowsNameReservation} {base : List Char} {directory : Bool}
    {a b : Nat} (ha : r.FirstNumber lower base directory a)
    (hb : r.FirstNumber lower base directory b) : a = b := by
  obtain ⟨hapos, _, hafree, haused⟩ := ha
  obtain ⟨hbpos, _, hbfree, hbused⟩ := hb
  rcases Nat.lt_trichotomy a b with hlt | heq | hgt
  · exact absurd (hbused a hapos hlt) hafree
  · exact heq
  · exact absurd (haused b hbpos hgt) hbfree

theorem safeName_reserve_iff {r r' : WindowsNameReservation} {desired name : List Char}
    {directory : Bool} (h : r.reserve lower desired directory = some (name, r')) :
    SafeName name ↔ r.SafeToReserve lower desired directory := by
  have hused := (reserve_spec h).2.2.2
  have hr' : r' = ⟨lower name :: r.used⟩ := by rw [← hused]
  rw [hr', ← firstFree_iff] at h
  have hplain := plainName_sanitizeWindowsSegment desired
  rcases h with ⟨hfree, hname⟩ | ⟨htaken, number, hpos, hbound, hname, hfree, hsmaller⟩
  · rw [hname, safeName_sanitize_iff]
    constructor
    · intro hsafe
      exact ⟨fun _ => hsafe, fun htaken => absurd htaken hfree⟩
    · intro hsafe
      exact hsafe.1 hfree
  · rw [hname] at hfree ⊢
    have hfirst : r.FirstNumber lower (sanitizeWindowsSegment desired) directory number :=
      ⟨hpos, hbound, hfree, hsmaller⟩
    rw [safeName_appendCollisionSuffix_iff hplain]
    constructor
    · intro hsafe
      refine ⟨fun hfree => absurd htaken hfree, ?_⟩
      intro _ other hother
      rw [hother.unique hfirst]
      exact hsafe
    · intro hsafe
      exact hsafe.2 htaken number hfirst

end WindowsNameReservation

/-- A segment's name is safe, and stays as it is when it is sanitised again, exactly for the
segments of `SafeToName`; the reserved names are safe exactly for the calls of `SafeToReserve`;
names that are safe are kept. -/
theorem safeNames_iff (lower : List Char → List Char) :
    (∀ segment, SafeName (sanitizeWindowsSegment segment) ∧
        sanitizeWindowsSegment (sanitizeWindowsSegment segment) = sanitizeWindowsSegment segment ↔
      SafeToName segment) ∧
    (∀ (r r' : WindowsNameReservation) desired name directory,
      r.reserve lower desired directory = some (name, r') →
        (SafeName name ↔ r.SafeToReserve lower desired directory)) ∧
    ∀ name, SafeName name → sanitizeWindowsSegment name = name := by
  refine ⟨?_, ?_, fun name h => sanitize_of_safeName h⟩
  · intro segment
    rw [← safeName_sanitize_iff]
    constructor
    · exact And.left
    · intro hsafe
      exact ⟨hsafe, sanitize_of_safeName hsafe⟩
  · intro r r' desired name directory h
    exact WindowsNameReservation.safeName_reserve_iff h

/-- A device with an extension, a text that is cut behind a space, and a name that is taken and
has an extension of 239 units. -/
theorem unsafe_names :
    (sanitizeWindowsSegment "CON.txt".toList = "CON.txt_".toList ∧
      isWindowsReservedName "CON.txt_".toList = true ∧
      sanitizeWindowsSegment "CON.txt_".toList = "CON.txt__".toList) ∧
    (sanitizeWindowsSegment (List.replicate 239 'a' ++ [' ', 'b'])).getLast? = some ' ' ∧
    ∃ name r', WindowsNameReservation.reserve id ⟨['a' :: '.' :: List.replicate 238 'b']⟩
        ('a' :: '.' :: List.replicate 238 'b') false = some (name, r') ∧
      utf16Length name = 243 := by
  refine ⟨⟨by decide, by decide, by decide⟩, by decide +kernel, ?_⟩
  have hfirst : WindowsNameReservation.FirstFree id ⟨['a' :: '.' :: List.replicate 238 'b']⟩
      ('a' :: '.' :: List.replicate 238 'b') false (" (1).".toList ++ List.replicate 238 'b') := by
    refine .inr ⟨by decide +kernel, 1, by decide, by decide, by decide +kernel,
      by decide +kernel, ?_⟩
    intro smaller hpos hlt
    omega
  exact ⟨_, _, WindowsNameReservation.firstFree_iff.1 hfirst, by decide +kernel⟩

end FlowType
