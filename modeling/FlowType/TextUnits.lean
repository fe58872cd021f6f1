import FlowType.TextService
import FlowType.WindowsNames

/-! The UTF-16 units and the UTF-8 bytes of a text. A character of ASCII is one unit and one
byte, and no unit or byte of another character is of ASCII; what a check asks of ASCII alone
is the same in characters, units and bytes. -/
namespace FlowType

structure AsciiCode (code : Char → List Nat) : Prop where
  ascii : ∀ c, c.toNat < 128 → code c = [c.toNat]
  nonempty : ∀ c, code c ≠ []
  other : ∀ c, 128 ≤ c.toNat → ∀ u ∈ code c, 128 ≤ u

section Code
variable {code : Char → List Nat} {c d : Char} {text : List Char}

namespace AsciiCode

theorem mem_iff (h : AsciiCode code) (hd : d.toNat < 128) : d.toNat ∈ code c ↔ c = d := by
  by_cases hc : c.toNat < 128
  · rw [h.ascii c hc, List.mem_singleton]
    constructor
    · intro heq
      exact (Char.toNat_inj.1 heq).symm
    · intro heq
      rw [heq]
  · constructor
    · intro hmem
      have hwide := h.other c (not_lt.1 hc) d.toNat hmem
      omega
    · intro heq
      rw [heq] at hc
      exact absurd hd hc

theorem mem_flatMap (h : AsciiCode code) (hd : d.toNat < 128) :
    d.toNat ∈ text.flatMap code ↔ d ∈ text := by
  rw [List.mem_flatMap]
  constructor
  · rintro ⟨c, hc, hmem⟩
    rw [h.mem_iff hd] at hmem
    exact hmem ▸ hc
  · intro hmem
    exact ⟨d, hmem, (h.mem_iff hd).2 rfl⟩

theorem flatMap_eq_nil (h : AsciiCode code) : text.flatMap code = [] ↔ text = [] := by
  cases text with
  | nil => simp
  | cons c text => simp [h.nonempty c]

/-- The first unit is that of a character of ASCII when the first character is. -/
theorem append_eq_cons (h : AsciiCode code) (hd : d.toNat < 128) {rest tail : List Nat} :
    code c ++ rest = d.toNat :: tail ↔ c = d ∧ rest = tail := by
  by_cases hc : c.toNat < 128
  · rw [h.ascii c hc, List.singleton_append, List.cons.injEq, Char.toNat_inj]
  · constructor
    · intro heq
      obtain ⟨u, us, hu⟩ := List.exists_cons_of_ne_nil (h.nonempty c)
      have hwide := h.other c (not_lt.1 hc) u (by simp [hu])
      rw [hu, List.cons_append, List.cons.injEq] at heq
      omega
    · intro heq
      rw [heq.1] at hc
      exact absurd hd hc

theorem flatMap_eq_iff (h : AsciiCode code) (ascii : List Char)
    (hascii : ∀ d ∈ ascii, d.toNat < 128) :
    text.flatMap code = ascii.map Char.toNat ↔ text = ascii := by
  induction ascii generalizing text with
  | nil => simpa using h.flatMap_eq_nil
  | cons d ascii ih =>
    have hd := hascii d List.mem_cons_self
    cases text with
    | nil => simp
    | cons c text =>
      rw [List.flatMap_cons, List.map_cons, h.append_eq_cons hd,
        ih fun e he => hascii e (List.mem_cons_of_mem d he), List.cons.injEq]

theorem head?_flatMap (h : AsciiCode code) (hd : d.toNat < 128) :
    (text.flatMap code).head? = some d.toNat ↔ text.head? = some d := by
  cases text with
  | nil => simp
  | cons c text =>
    rw [List.flatMap_cons, List.head?_eq_some_iff]
    constructor
    · rintro ⟨tail, htail⟩
      rw [((h.append_eq_cons hd).1 htail).1]
      rfl
    · intro hc
      have heq : c = d := Option.some.inj hc
      exact ⟨text.flatMap code, (h.append_eq_cons hd).2 ⟨heq, rfl⟩⟩

theorem getLast?_flatMap (h : AsciiCode code) (hd : d.toNat < 128) :
    (text.flatMap code).getLast? = some d.toNat ↔ text.getLast? = some d := by
  rcases List.eq_nil_or_concat text with rfl | ⟨front, c, rfl⟩
  · simp
  rw [List.concat_eq_append, List.flatMap_append, List.flatMap_singleton, List.getLast?_append_of_ne_nil _ (h.nonempty c),
    List.getLast?_concat, Option.some.injEq]
  by_cases hc : c.toNat < 128
  · rw [h.ascii c hc, List.getLast?_singleton, Option.some.injEq, Char.toNat_inj]
  · constructor
    · intro hlast
      have hwide := h.other c (not_lt.1 hc) d.toNat (List.mem_of_getLast? hlast)
      omega
    · intro heq
      rw [heq] at hc
      exact absurd hd hc

/-- A text splits at a character of ASCII where its units split. -/
theorem splitOn_flatMap (h : AsciiCode code) (hd : d.toNat < 128) (text : List Char) :
    (text.flatMap code).splitOn d.toNat = (text.splitOn d).map fun part => part.flatMap code := by
  have hparts : ∀ part ∈ text.splitOn d, d ∉ part := by
    intro part hpart hmem
    induction text generalizing part with
    | nil => simp_all
    | cons c text ih =>
      rw [List.splitOn_cons_eq_if_modifyHead] at hpart
      by_cases hc : (c == d) = true
      · rw [if_pos hc, List.mem_cons] at hpart
        rcases hpart with rfl | hpart
        · cases hmem
        · exact ih part hpart hmem
      · rw [if_neg hc] at hpart
        obtain ⟨first, rest, hfirst⟩ := List.exists_cons_of_ne_nil (List.splitOn_ne_nil d text)
        rw [hfirst] at hpart ih
        rw [List.modifyHead_cons, List.mem_cons] at hpart
        rcases hpart with rfl | hpart
        · have hne : d ≠ c := fun heq => hc (by simp [heq])
          have hold : d ∈ first := (List.mem_cons.1 hmem).resolve_left hne
          exact ih first List.mem_cons_self hold
        · exact ih part (List.mem_cons_of_mem first hpart) hmem
  have hcode : code d = [d.toNat] := h.ascii d hd
  have hjoin : ∀ parts : List (List Char), ([d].intercalate parts).flatMap code =
      [d.toNat].intercalate (parts.map fun part => part.flatMap code) := by
    intro parts
    induction parts with
    | nil => rfl
    | cons part parts ih =>
      by_cases hempty : parts = []
      · subst hempty
        simp
      · rw [List.intercalate_cons_of_ne_nil hempty, List.map_cons,
          List.intercalate_cons_of_ne_nil (by simpa using hempty), ← ih]
        simp [hcode]
  have htext : text.flatMap code =
      [d.toNat].intercalate ((text.splitOn d).map fun part => part.flatMap code) := by
    rw [← hjoin, List.intercalate_splitOn]
  rw [htext, List.splitOn_intercalate]
  · intro part hpart
    obtain ⟨part, hmem, rfl⟩ := List.mem_map.1 hpart
    rw [h.mem_flatMap hd]
    exact hparts part hmem
  · simp

theorem flatMap_of_ascii (h : AsciiCode code) (hascii : ∀ c ∈ text, c.toNat < 128) :
    text.flatMap code = text.map Char.toNat :=
  (h.flatMap_eq_iff text hascii).2 rfl

/-- A check of units that only units of ASCII pass. -/
theorem all_flatMap (h : AsciiCode code) {p : Nat → Bool} (hp : ∀ u, 128 ≤ u → p u = false) :
    (text.flatMap code).all p = text.all fun c => p c.toNat := by
  rw [List.all_flatMap]
  apply List.all_congr rfl
  intro c
  by_cases hc : c.toNat < 128
  · rw [h.ascii c hc, List.all_cons, List.all_nil, Bool.and_true]
  · obtain ⟨u, us, hu⟩ := List.exists_cons_of_ne_nil (h.nonempty c)
    have hwide := h.other c (not_lt.1 hc) u (by simp [hu])
    rw [hu, List.all_cons, hp u hwide, hp c.toNat (not_lt.1 hc), Bool.false_and]

end AsciiCode
end Code

theorem asciiCode_utf16 : AsciiCode utf16Units where
  ascii := by
    intro c hc
    have hc' : c.val.toNat < 0x10000 := lt_trans hc (by decide)
    simp only [utf16Units, if_pos hc']
    rfl
  nonempty := by
    intro c
    simp only [utf16Units]
    split_ifs <;> simp
  other := by
    intro c hc u hu
    have hc' : 128 ≤ c.val.toNat := hc
    simp only [utf16Units] at hu
    split_ifs at hu with hplane
    · rw [List.mem_singleton] at hu
      omega
    · simp only [List.mem_cons, List.not_mem_nil, or_false] at hu
      omega

def utf8Bytes (c : Char) : List Nat := (String.utf8EncodeChar c).map UInt8.toNat

theorem asciiCode_utf8 : AsciiCode utf8Bytes where
  ascii := by
    intro c hc
    have hc' : c.val.toNat ≤ 0x7f := Nat.le_of_lt_succ hc
    have hsmall : c.val.toNat < 256 := by omega
    simp only [utf8Bytes, String.utf8EncodeChar, if_pos hc', List.map_cons, List.map_nil,
      UInt8.toNat_ofNat', Nat.mod_eq_of_lt hsmall]
    rfl
  nonempty := by
    intro c
    simp [utf8Bytes, String.utf8EncodeChar_ne_nil]
  other := by
    intro c hc u hu
    have hc' : ¬c.val.toNat ≤ 0x7f := by
      have hwide : 128 ≤ c.val.toNat := hc
      omega
    simp only [utf8Bytes, String.utf8EncodeChar, if_neg hc'] at hu
    split_ifs at hu <;>
      simp only [List.map_cons, List.map_nil, List.mem_cons, List.not_mem_nil, or_false,
        UInt8.toNat_ofNat'] at hu <;> omega

/-- `toByteArray(Charsets.UTF_8)`. -/
def encodeUtf8 (text : String) : List Nat := text.toList.flatMap utf8Bytes

theorem length_utf8Bytes (c : Char) : (utf8Bytes c).length = c.utf8Size := by
  rw [utf8Bytes, List.length_map, String.length_utf8EncodeChar]

theorem length_flatMap_utf8 (text : List Char) :
    (text.flatMap utf8Bytes).length = utf8Length text := by
  rw [List.length_flatMap, utf8Length]
  simp only [length_utf8Bytes]

theorem length_utf16Units (c : Char) : (utf16Units c).length = utf16Size c := by
  by_cases hplane : c.toNat < 0x10000
  · rw [utf16Size, if_pos hplane]
    simp [utf16Units, hplane]
  · rw [utf16Size, if_neg hplane]
    simp [utf16Units, hplane]

theorem length_flatMap_utf16 (text : List Char) :
    (text.flatMap utf16Units).length = utf16Length text := by
  rw [List.length_flatMap, utf16Length]
  simp only [length_utf16Units]

theorem utf16Length_le_utf8Length (text : List Char) : utf16Length text ≤ utf8Length text := by
  induction text with
  | nil => rfl
  | cons c text ih =>
    have hc : utf16Size c ≤ c.utf8Size := by
      by_cases hplane : c.toNat < 0x10000
      · rw [utf16Size, if_pos hplane]
        exact c.utf8Size_pos
      · have hfour : c.utf8Size = 4 := by
          rw [Char.utf8Size_eq_four_iff, UInt32.lt_iff_toNat_lt]
          exact lt_of_lt_of_le (by decide) (not_lt.1 hplane)
        rw [utf16Size, if_neg hplane, hfour]
        decide
    rw [utf16Length_cons, utf8Length_cons]
    omega

/-- A check of single units that no half of a surrogate pair meets. -/
theorem any_flatMap_utf16 {p : Nat → Bool} (hp : ∀ u, 0xD800 ≤ u → p u = false)
    (text : List Char) : (text.flatMap utf16Units).any p = text.any fun c => p c.toNat := by
  rw [List.any_flatMap]
  apply List.any_congr rfl
  intro c
  by_cases hc : c.val.toNat < 0x10000
  · simp only [utf16Units, if_pos hc, List.any_cons, List.any_nil, Bool.or_false]
    rfl
  · have hwide : p c.toNat = false := hp c.toNat (le_trans (by decide) (not_lt.1 hc))
    simp only [utf16Units, if_neg hc, List.any_cons, List.any_nil, Bool.or_false, hwide]
    rw [hp _ (by omega), hp _ (by omega), Bool.or_false]

end FlowType
