import Mathlib.Data.Finset.Card
import Mathlib.Data.Finset.Image
import Mathlib.Data.Finset.Range
import Mathlib.Tactic.IntervalCases
import FlowType.NameSafety

/-! Runs of `reserve`: the names that are given out differ in lower case, and the numbers that
are tried are at most as many as there are names in use, because no two of them give one name,
whatever is cut off the stem in front of them. -/
namespace FlowType

/-- The characters of ASCII that do not end a word: apostrophe, dot, colon, circumflex and grave
accent. -/
def ASCII_CASE_IGNORABLE : List Char := [39, 46, 58, 94, 96].map Char.ofNat

/-- What Unicode says of the characters' lower case, with the part of it that the texts rest
on: that of ASCII. -/
structure CaseTable where
  lower : Char → List Char
  cased : Char → Bool
  caseIgnorable : Char → Bool
  lower_ascii : ∀ c, c.toNat < 128 → lower c = [c.toLower]
  cased_ascii : ∀ c, c.toNat < 128 → cased c = c.isAlpha
  caseIgnorable_ascii : ∀ c, c.toNat < 128 → caseIgnorable c = ASCII_CASE_IGNORABLE.contains c

namespace CaseTable

variable (t : CaseTable)

def caseIgnorableThenCased (text : List Char) : Bool :=
  match (text.dropWhile t.caseIgnorable).head? with
  | some c => t.cased c
  | none => false

/-- The rest of a text in lower case; `before` is what precedes it, from its end. -/
def lowercaseFrom (before : List Char) : List Char → List Char
  | [] => []
  | c :: text =>
    (if c = 'Σ' then
      [if t.caseIgnorableThenCased before && !t.caseIgnorableThenCased text then 'ς' else 'σ']
    else t.lower c) ++ lowercaseFrom (c :: before) text

def toLowercase (text : List Char) : List Char := t.lowercaseFrom [] text

variable {t}

def Stops (t : CaseTable) (c : Char) : Prop := t.cased c = false ∧ t.caseIgnorable c = false

theorem caseIgnorableThenCased_append {c : Char} (hc : t.Stops c) (text rest : List Char) :
    t.caseIgnorableThenCased (text ++ c :: rest) = t.caseIgnorableThenCased text := by
  induction text with
  | nil => simp [caseIgnorableThenCased, hc.1, hc.2]
  | cons d text ih =>
    unfold caseIgnorableThenCased at ih ⊢
    rw [List.cons_append, List.dropWhile_cons, List.dropWhile_cons]
    by_cases hd : t.caseIgnorable d = true
    · rw [if_pos hd, if_pos hd]
      exact ih
    · rw [if_neg hd, if_neg hd]
      rfl

theorem lowercaseFrom_append {c : Char} (hc : t.Stops c) (before front rest : List Char) :
    t.lowercaseFrom before (front ++ c :: rest) =
      t.lowercaseFrom before front ++ t.lowercaseFrom (front.reverse ++ before) (c :: rest) := by
  induction front generalizing before with
  | nil => rfl
  | cons d front ih =>
    rw [List.cons_append, lowercaseFrom, lowercaseFrom, ih,
      caseIgnorableThenCased_append hc, List.append_assoc]
    simp

/-- What stands before a character that ends the view does not matter. -/
theorem lowercaseFrom_congr {c : Char} (hc : t.Stops c) (near far far' text : List Char) :
    t.lowercaseFrom (near ++ c :: far) text = t.lowercaseFrom (near ++ c :: far') text := by
  induction text generalizing near with
  | nil => rfl
  | cons d text ih =>
    rw [lowercaseFrom, lowercaseFrom, caseIgnorableThenCased_append hc,
      caseIgnorableThenCased_append hc]
    have hrest := ih (d :: near)
    rw [List.cons_append, List.cons_append] at hrest
    rw [hrest]

/-- The characters of a number and of what is around it. -/
def NUMBERING : List Char := " ()0123456789".toList

theorem ascii_of_mem_numbering {c : Char} (h : c ∈ NUMBERING) :
    c.toNat < 128 ∧ c.toLower = c ∧ c.isAlpha = false ∧
      ASCII_CASE_IGNORABLE.contains c = false := by
  have hall : (NUMBERING.all fun c => decide (c.toNat < 128 ∧ c.toLower = c ∧
      c.isAlpha = false ∧ ASCII_CASE_IGNORABLE.contains c = false)) = true := by
    decide
  exact of_decide_eq_true (List.all_eq_true.1 hall c h)

theorem stops_of_mem_numbering {c : Char} (h : c ∈ NUMBERING) : t.Stops c := by
  obtain ⟨hascii, _, halpha, hignorable⟩ := ascii_of_mem_numbering h
  constructor
  · rw [t.cased_ascii c hascii, halpha]
  · rw [t.caseIgnorable_ascii c hascii, hignorable]

theorem lowercaseFrom_numbering (before : List Char) {text : List Char}
    (h : ∀ c ∈ text, c ∈ NUMBERING) : t.lowercaseFrom before text = text := by
  induction text generalizing before with
  | nil => rfl
  | cons c text ih =>
    have hc := h c List.mem_cons_self
    obtain ⟨hascii, hlower, _, _⟩ := ascii_of_mem_numbering hc
    have hsigma : c ≠ 'Σ' := by
      rintro rfl
      exact absurd hascii (by decide)
    have hrest : t.lowercaseFrom (c :: before) text = text :=
      ih _ fun d hd => h d (List.mem_cons_of_mem c hd)
    rw [lowercaseFrom, if_neg hsigma, t.lower_ascii c hascii, hlower, hrest]
    rfl

theorem mem_numbering_of_digit {c : Char} (h : 48 ≤ c.toNat ∧ c.toNat ≤ 57) : c ∈ NUMBERING := by
  obtain ⟨hfrom, hto⟩ := h
  rw [← Char.ofNat_toNat c]
  interval_cases c.toNat <;> decide

theorem collisionSuffix_numbering (number : Nat) : ∀ c ∈ collisionSuffix number, c ∈ NUMBERING := by
  intro c hc
  simp only [collisionSuffix, List.mem_append] at hc
  rcases hc with (hopen | hdigit) | hclose
  · have hall : (" (".toList.all fun c => decide (c ∈ NUMBERING)) = true := by decide
    exact of_decide_eq_true (List.all_eq_true.1 hall c hopen)
  · exact mem_numbering_of_digit (toNat_of_mem_toDigits hdigit)
  · rw [List.mem_singleton.1 hclose]
    decide

/-- The lower case of a numbered name: the stem's, the number, and the extension's as it stands
behind a bracket. -/
theorem toLowercase_numbered (stem extension : List Char) (number : Nat) :
    t.toLowercase (stem ++ collisionSuffix number ++ extension) =
      t.toLowercase stem ++ collisionSuffix number ++ t.lowercaseFrom [')'] extension := by
  have hnumbering := collisionSuffix_numbering number
  obtain ⟨inner, hinner⟩ : ∃ inner, collisionSuffix number = ' ' :: inner ++ [')'] := ⟨_, rfl⟩
  have hspace : t.Stops ' ' := stops_of_mem_numbering (by decide)
  have hclose : t.Stops ')' := stops_of_mem_numbering (by decide)
  -- First the stem is split off at the blank, then the number at its last bracket.
  have hstem : t.toLowercase (stem ++ collisionSuffix number ++ extension) =
      t.toLowercase stem ++
        t.lowercaseFrom (stem.reverse ++ []) (' ' :: inner ++ ')' :: extension) := by
    have hshape : stem ++ collisionSuffix number ++ extension =
        stem ++ ' ' :: (inner ++ ')' :: extension) := by
      rw [hinner]
      simp
    rw [hshape]
    exact lowercaseFrom_append hspace [] stem _
  have hnumber : t.lowercaseFrom (stem.reverse ++ []) (' ' :: inner ++ ')' :: extension) =
      ' ' :: inner ++ t.lowercaseFrom ((' ' :: inner).reverse ++ (stem.reverse ++ []))
        (')' :: extension) := by
    rw [lowercaseFrom_append hclose, lowercaseFrom_numbering]
    intro c hc
    apply hnumbering
    rw [hinner]
    exact List.mem_append_left _ hc
  have hextension : t.lowercaseFrom ((' ' :: inner).reverse ++ (stem.reverse ++ []))
      (')' :: extension) = ')' :: t.lowercaseFrom [')'] extension := by
    obtain ⟨hascii, hlower, _, _⟩ := ascii_of_mem_numbering (by decide : ')' ∈ NUMBERING)
    have hbehind := lowercaseFrom_congr hclose [] ((' ' :: inner).reverse ++ (stem.reverse ++ []))
      [] extension
    rw [List.nil_append, List.nil_append] at hbehind
    rw [lowercaseFrom, if_neg (by decide), t.lower_ascii _ hascii, hlower, hbehind]
    rfl
  rw [hstem, hnumber, hextension, hinner]
  simp

theorem collisionSuffix_inj {stem stem' : List Char} {number number' : Nat}
    (h : stem ++ collisionSuffix number = stem' ++ collisionSuffix number') :
    number = number' := by
  have hdigits : ∀ n : Nat, '(' ∉ Nat.toDigits 10 n := by
    intro n hmem
    exact absurd (toNat_of_mem_toDigits hmem) (by decide)
  have hshape : ∀ (text : List Char) (n : Nat), text ++ collisionSuffix n =
      (text ++ [' ']) ++ '(' :: Nat.toDigits 10 n ++ [')'] := by
    intro text n
    simp [collisionSuffix]
  rw [hshape, hshape] at h
  have hopen := List.append_cancel_right h
  have hsplit := congrArg (rsplitOnce '(') hopen
  rw [rsplitOnce_append _ _ _ (hdigits _), rsplitOnce_append _ _ _ (hdigits _)] at hsplit
  have hsame : Nat.toDigits 10 number = Nat.toDigits 10 number' :=
    (Prod.mk.inj (Option.some.inj hsplit)).2
  rw [← @Nat.ofDigitChars_ten_toDigits number, hsame, Nat.ofDigitChars_ten_toDigits]

/-- Two numbers never give one name, though more digits leave less of the stem. -/
theorem appendCollisionSuffix_inj {base : List Char} {directory : Bool} {a b : Nat}
    (h : t.toLowercase (appendCollisionSuffix base a directory) =
      t.toLowercase (appendCollisionSuffix base b directory)) : a = b := by
  rw [appendCollisionSuffix_eq, appendCollisionSuffix_eq, toLowercase_numbered,
    toLowercase_numbered] at h
  exact collisionSuffix_inj (List.append_cancel_right h)

end CaseTable

/-- A numbered name has the extension of the name. -/
theorem splitExtension_appendCollisionSuffix (base : List Char) (number : Nat) :
    (splitExtension (appendCollisionSuffix base number false)).2 = (splitExtension base).2 := by
  have hsuffix := dot_notMem_collisionSuffix number
  have hpre : numberedStem base number false <+: (splitExtension base).1 :=
    isPrefix_truncateUtf16 _ _
  rw [appendCollisionSuffix_eq]
  generalize numberedStem base number false = front at hpre ⊢
  have hparts : nameParts base false = splitExtension base := rfl
  rw [hparts]
  rcases splitExtension_snd base with hnone | ⟨extension, hsome, hdot⟩
  · -- The stem is the whole name: without a dot, or with one that it starts with.
    have happend := splitExtension_append base
    rw [hnone, List.append_nil] at happend ⊢
    rw [happend] at hpre
    unfold splitExtension at hnone ⊢
    split at hnone
    · rename_i stem extension hsplit
      obtain ⟨hname, hdot⟩ := eq_of_rsplitOnce hsplit
      split at hnone
      · rename_i hstem
        rw [hstem, List.nil_append] at hname
        rw [hname] at hpre
        cases front with
        | nil =>
          have hfree : '.' ∉ [] ++ collisionSuffix number := hsuffix
          rw [rsplitOnce_eq_none.2 hfree]
        | cons c front =>
          obtain ⟨rfl, hfront⟩ := List.cons_prefix_cons.1 hpre
          have hfree : '.' ∉ front ++ collisionSuffix number := by
            rw [List.mem_append, not_or]
            exact ⟨fun hmem => hdot (hfront.subset hmem), hsuffix⟩
          have hagain := rsplitOnce_append '.' [] _ hfree
          rw [List.nil_append] at hagain
          rw [List.cons_append, hagain]
          rfl
      · rw [hname, List.drop_left] at hnone
        cases hnone
    · rename_i hsplit
      have hfree : '.' ∉ front ++ collisionSuffix number := by
        rw [List.mem_append, not_or]
        exact ⟨fun hmem => rsplitOnce_eq_none.1 hsplit (hpre.subset hmem), hsuffix⟩
      rw [rsplitOnce_eq_none.2 hfree]
  · rw [hsome]
    have hne : front ++ collisionSuffix number ≠ [] := by
      rw [collisionSuffix_eq]
      simp
    unfold splitExtension
    rw [rsplitOnce_append _ _ _ hdot]
    dsimp only
    rw [if_neg hne, List.drop_left]

namespace WindowsNameReservation

section Tries

variable (lower : List Char → List Char)

/-- How many candidates the loop of `reserve` tries. -/
def tries (r : WindowsNameReservation) (base : List Char) (directory : Bool) :
    Nat → Nat → Nat
  | 0, _ => 0
  | numbers + 1, suffix =>
    if r.used.contains (lower (appendCollisionSuffix base suffix directory)) then
      r.tries base directory numbers (suffix + 1) + 1
    else 1

def reserveTries (r : WindowsNameReservation) (desired : List Char) (directory : Bool) : Nat :=
  if r.used.contains (lower (sanitizeWindowsSegment desired)) then
    r.tries lower (sanitizeWindowsSegment desired) directory (2 ^ 32 - 1) 1
  else 0

/-- The names that a sequence of calls gives out. -/
def reserveAll (r : WindowsNameReservation) : List (List Char × Bool) → Option (List (List Char))
  | [] => some []
  | call :: calls =>
    match r.reserve lower call.1 call.2 with
    | none => none
    | some (name, r') => (r'.reserveAll calls).map (name :: ·)

variable {lower} {r : WindowsNameReservation} {base : List Char} {directory : Bool}

/-- All candidates but the last are taken. -/
theorem mem_used_of_lt_tries {numbers suffix k : Nat} (hfrom : suffix ≤ k)
    (hto : k + 1 < suffix + r.tries lower base directory numbers suffix) :
    lower (appendCollisionSuffix base k directory) ∈ r.used := by
  induction numbers generalizing suffix with
  | zero =>
    rw [tries] at hto
    omega
  | succ numbers ih =>
    rw [tries] at hto
    split at hto
    · rename_i htaken
      by_cases hfirst : k = suffix
      · rw [hfirst]
        exact List.contains_iff_mem.1 htaken
      · have hlater : k + 1 <
            suffix + 1 + r.tries lower base directory numbers (suffix + 1) := by omega
        exact ih (by omega) hlater
    · omega

theorem mem_used_of_number_eq_none {numbers suffix k : Nat}
    (h : r.number lower base directory numbers suffix = none) (hfrom : suffix ≤ k)
    (hto : k < suffix + numbers) : lower (appendCollisionSuffix base k directory) ∈ r.used := by
  induction numbers generalizing suffix with
  | zero => omega
  | succ numbers ih =>
    rw [number] at h
    split at h
    · rename_i htaken
      by_cases hfirst : k = suffix
      · rw [hfirst]
        exact List.contains_iff_mem.1 htaken
      · exact ih h (by omega) (by omega)
    · cases h

/-- Numbers give different names, so there are at least as many taken names as numbers in
vain. -/
theorem le_card_used {n : Nat}
    (hinj : ∀ a b, lower (appendCollisionSuffix base a directory) =
      lower (appendCollisionSuffix base b directory) → a = b)
    (h : ∀ k < n, lower (appendCollisionSuffix base (k + 1) directory) ∈ r.used) :
    n ≤ r.used.toFinset.card := by
  have himage : (Finset.range n).image
      (fun k => lower (appendCollisionSuffix base (k + 1) directory)) ⊆ r.used.toFinset := by
    intro name hname
    obtain ⟨k, hk, rfl⟩ := Finset.mem_image.1 hname
    exact List.mem_toFinset.2 (h k (Finset.mem_range.1 hk))
  have hcard := Finset.card_le_card himage
  rw [Finset.card_image_of_injective, Finset.card_range] at hcard
  · exact hcard
  · intro a b heq
    have hsame := hinj _ _ heq
    omega

theorem reserveAll_nodup {calls : List (List Char × Bool)} {names : List (List Char)}
    (h : r.reserveAll lower calls = some names) :
    (names.map lower).Nodup ∧ ∀ name ∈ names, lower name ∉ r.used := by
  induction calls generalizing r names with
  | nil =>
    cases h
    exact ⟨List.nodup_nil, by simp⟩
  | cons call calls ih =>
    rw [reserveAll] at h
    split at h
    · cases h
    · rename_i name r' hreserve
      obtain ⟨_, _, hfree, hused⟩ := reserve_spec hreserve
      obtain ⟨rest, hrest, rfl⟩ := Option.map_eq_some_iff.1 h
      obtain ⟨hnodup, hother⟩ := ih hrest
      rw [hused] at hother
      constructor
      · rw [List.map_cons, List.nodup_cons]
        refine ⟨?_, hnodup⟩
        intro hmem
        obtain ⟨other, hin, heq⟩ := List.mem_map.1 hmem
        exact hother other hin (heq ▸ List.mem_cons_self)
      · intro other hin
        rcases List.mem_cons.1 hin with rfl | hin
        · exact hfree
        · intro hmem
          exact hother other hin (List.mem_cons_of_mem _ hmem)

end Tries

variable {t : CaseTable} {r r' : WindowsNameReservation} {desired name : List Char}
  {directory : Bool}

theorem reserveTries_le (r : WindowsNameReservation) (desired : List Char) (directory : Bool) :
    r.reserveTries t.toLowercase desired directory ≤ r.used.toFinset.card + 1 := by
  unfold reserveTries
  split
  · have hle := @le_card_used t.toLowercase r (sanitizeWindowsSegment desired) directory
      (r.tries t.toLowercase (sanitizeWindowsSegment desired) directory (2 ^ 32 - 1) 1 - 1)
      (fun a b heq => CaseTable.appendCollisionSuffix_inj heq) ?_
    · omega
    · intro k hk
      have hearlier : k + 1 + 1 < 1 + r.tries t.toLowercase (sanitizeWindowsSegment desired)
          directory (2 ^ 32 - 1) 1 := by omega
      exact mem_used_of_lt_tries (by omega) hearlier
  · exact Nat.zero_le _

theorem isSome_reserve (h : r.used.toFinset.card < 2 ^ 32 - 1) :
    (r.reserve t.toLowercase desired directory).isSome = true := by
  unfold reserve
  rw [Option.isSome_map]
  split
  · rw [Option.isSome_iff_ne_none]
    intro hnone
    have hle := @le_card_used t.toLowercase r (sanitizeWindowsSegment desired) directory
      (2 ^ 32 - 1) (fun a b heq => CaseTable.appendCollisionSuffix_inj heq) ?_
    · omega
    · intro k hk
      exact mem_used_of_number_eq_none hnone (by omega) (by omega)
  · rfl

theorem isSome_reserveAll {calls : List (List Char × Bool)}
    (h : r.used.toFinset.card + calls.length < 2 ^ 32 - 1) :
    (r.reserveAll t.toLowercase calls).isSome = true := by
  induction calls generalizing r with
  | nil => rfl
  | cons call calls ih =>
    rw [List.length_cons] at h
    have hsome := @isSome_reserve t r call.1 call.2 (by omega)
    obtain ⟨⟨name, r'⟩, hreserve⟩ := Option.isSome_iff_exists.1 hsome
    have hused := (reserve_spec hreserve).2.2.2
    have hcard : r'.used.toFinset.card ≤ r.used.toFinset.card + 1 := by
      rw [hused, List.toFinset_cons]
      exact Finset.card_insert_le _ _
    rw [reserveAll, hreserve]
    dsimp only
    rw [Option.isSome_map]
    exact ih (by omega)

/-- A free name is given out, and a file that gets a number keeps its extension. -/
theorem reserve_keeps {lower : List Char → List Char}
    (h : r.reserve lower desired directory = some (name, r')) :
    (lower (sanitizeWindowsSegment desired) ∉ r.used → name = sanitizeWindowsSegment desired) ∧
      (directory = false →
        (splitExtension name).2 = (splitExtension (sanitizeWindowsSegment desired)).2) := by
  have hr' : r' = ⟨lower name :: r.used⟩ := by rw [← (reserve_spec h).2.2.2]
  rw [hr', ← firstFree_iff] at h
  rcases h with ⟨_, hname⟩ | ⟨htaken, number, _, _, hname, _⟩
  · exact ⟨fun _ => hname, fun _ => by rw [hname]⟩
  · constructor
    · intro hfree
      exact absurd htaken hfree
    · intro hfile
      rw [hname, hfile, splitExtension_appendCollisionSuffix]

/-- Whatever names there are and whatever is asked for: the names that are given out differ
from them and from one another in lower case, a free name and the extension of a file are kept,
the loop tries at most one candidate more than there are names, and while there are fewer than
the numbers of 32 bits it finds one. -/
theorem reservations (t : CaseTable) :
    (∀ existing calls names, (new t.toLowercase existing).reserveAll t.toLowercase calls =
        some names → (names.map t.toLowercase).Nodup ∧
      ∀ name ∈ names, t.toLowercase name ∉ existing.map t.toLowercase) ∧
    (∀ (r r' : WindowsNameReservation) desired directory name,
      r.reserve t.toLowercase desired directory = some (name, r') →
        (t.toLowercase (sanitizeWindowsSegment desired) ∉ r.used →
          name = sanitizeWindowsSegment desired) ∧
        (directory = false →
          (splitExtension name).2 = (splitExtension (sanitizeWindowsSegment desired)).2)) ∧
    (∀ (r : WindowsNameReservation) desired directory,
      r.reserveTries t.toLowercase desired directory ≤ r.used.toFinset.card + 1) ∧
    ∀ existing calls,
      (existing.map t.toLowercase).toFinset.card + calls.length < 2 ^ 32 - 1 →
        ((new t.toLowercase existing).reserveAll t.toLowercase calls).isSome = true := by
  refine ⟨?_, ?_, ?_, ?_⟩
  · intro existing calls names h
    exact reserveAll_nodup h
  · intro r r' desired directory name h
    exact reserve_keeps h
  · intro r desired directory
    exact reserveTries_le r desired directory
  · intro existing calls h
    exact isSome_reserveAll h

/-- The table of the names that consist of ASCII. -/
def asciiTable : CaseTable where
  lower c := [c.toLower]
  cased c := c.isAlpha
  caseIgnorable c := ASCII_CASE_IGNORABLE.contains c
  lower_ascii _ _ := rfl
  cased_ascii _ _ := rfl
  caseIgnorable_ascii _ _ := rfl

theorem reserve_eq_none {lower : List Char → List Char} {existing : List (List Char)}
    (hbase : sanitizeWindowsSegment desired ∈ existing)
    (h : ∀ k < 2 ^ 32,
      appendCollisionSuffix (sanitizeWindowsSegment desired) k directory ∈ existing) :
    (new lower existing).reserve lower desired directory = none := by
  rw [Option.eq_none_iff_forall_ne_some]
  rintro ⟨name, r'⟩ hreserve
  have hr' : r' = ⟨lower name :: (new lower existing).used⟩ := by
    rw [← (reserve_spec hreserve).2.2.2]
  rw [hr', ← firstFree_iff] at hreserve
  rcases hreserve with ⟨hfree, _⟩ | ⟨_, number, _, hbound, rfl, hfree, _⟩
  · exact hfree (List.mem_map_of_mem hbase)
  · exact hfree (List.mem_map_of_mem (h number hbound))

/-- A directory in which a name has all its numbers taken, and one name in a directory that
equals its own first numbered name: after the name itself two candidates are tried. -/
theorem exists_crowded :
    (∃ existing : List (List Char), (new asciiTable.toLowercase existing).reserve
      asciiTable.toLowercase "photos".toList true = none) ∧
    ∃ name : List Char, sanitizeWindowsSegment name = name ∧
      (new asciiTable.toLowercase [name]).used.toFinset.card = 1 ∧
      (new asciiTable.toLowercase [name]).reserveTries asciiTable.toLowercase name true = 2 := by
  constructor
  · refine ⟨"photos".toList :: (List.range (2 ^ 32)).map
      (fun k => appendCollisionSuffix "photos".toList k true), reserve_eq_none ?_ ?_⟩
    · have hsame : sanitizeWindowsSegment "photos".toList = "photos".toList := by decide
      rw [hsame]
      exact List.mem_cons_self
    · intro k hk
      have hsame : sanitizeWindowsSegment "photos".toList = "photos".toList := by decide
      rw [hsame]
      exact List.mem_cons_of_mem _ (List.mem_map_of_mem (List.mem_range.2 hk))
  · refine ⟨List.replicate 236 'a' ++ " (1)".toList, by decide +kernel, rfl, ?_⟩
    have hsame : sanitizeWindowsSegment (List.replicate 236 'a' ++ " (1)".toList) =
        List.replicate 236 'a' ++ " (1)".toList := by decide +kernel
    have hfirst : appendCollisionSuffix (List.replicate 236 'a' ++ " (1)".toList) 1 true =
        List.replicate 236 'a' ++ " (1)".toList := by decide +kernel
    have hsecond : asciiTable.toLowercase
        (appendCollisionSuffix (List.replicate 236 'a' ++ " (1)".toList) 2 true) ≠
          asciiTable.toLowercase (List.replicate 236 'a' ++ " (1)".toList) := by decide +kernel
    unfold reserveTries
    rw [hsame]
    generalize List.replicate 236 'a' ++ " (1)".toList = name at hfirst hsecond ⊢
    have hnumbers : 2 ^ 32 - 1 = 4294967293 + 1 + 1 := by decide
    simp only [new, List.map_cons, List.map_nil]
    rw [hnumbers, tries, tries, hfirst]
    simp [hsecond]

end WindowsNameReservation

end FlowType
