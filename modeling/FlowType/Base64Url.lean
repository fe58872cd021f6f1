import Mathlib.Data.List.DropRight

/-! Base64 with the alphabet for addresses: which texts encode bytes, and how many. A text is the
list of its codes. Nothing here refers to a particular program. -/
namespace FlowType
namespace Base64Url

/-- The sign `=`. -/
def SIGN : Nat := 61

def sextet (unit : Nat) : Option Nat :=
  if 65 ≤ unit ∧ unit ≤ 90 then some (unit - 65)
  else if 97 ≤ unit ∧ unit ≤ 122 then some (unit - 71)
  else if 48 ≤ unit ∧ unit ≤ 57 then some (unit + 4)
  else if unit = 45 then some 62
  else if unit = 95 then some 63
  else none

/-- Four groups of six bits are three bytes. At the end two groups are one byte and three groups
are two; the bits that are left over are dropped. -/
def bytesOf : List Nat → Option (List Nat)
  | [] => some []
  | [_] => none
  | [a, b] => some [a * 4 + b / 16]
  | [a, b, c] => some [a * 4 + b / 16, b % 16 * 16 + c / 4]
  | a :: b :: c :: d :: rest =>
    (bytesOf rest).map
      ([a * 4 + b / 16, b % 16 * 16 + c / 4, c % 4 * 64 + d] ++ ·)

/-- So many symbols and signs of padding make whole bytes: without padding no symbol is left
alone, with it the groups of four are full. -/
def Regular (symbols padding : Nat) : Prop :=
  (padding = 0 ∧ symbols % 4 ≠ 1) ∨
    (0 < padding ∧ padding ≤ 2 ∧ (symbols + padding) % 4 = 0)

instance : DecidableRel Regular := fun symbols padding => by
  unfold Regular
  infer_instance

def decode (code : List Nat) : Option (List Nat) :=
  let body := code.rdropWhile (· == SIGN)
  if Regular body.length (code.length - body.length) then (body.mapM sextet).bind bytesOf
  else none

theorem length_bytesOf {groups bytes : List Nat} (h : bytesOf groups = some bytes) :
    groups.length % 4 ≠ 1 ∧ bytes.length = groups.length * 3 / 4 := by
  match groups with
  | [] =>
    cases h
    exact ⟨by decide, rfl⟩
  | [_] => cases h
  | [_, _] | [_, _, _] =>
    cases h
    simp
  | _ :: _ :: _ :: _ :: rest =>
    rw [bytesOf] at h
    obtain ⟨tail, htail, rfl⟩ := Option.map_eq_some_iff.1 h
    obtain ⟨hmod, hlength⟩ := length_bytesOf htail
    simp only [List.length_append, List.length_cons, List.length_nil]
    omega

theorem isSome_bytesOf {groups : List Nat} (h : groups.length % 4 ≠ 1) :
    (bytesOf groups).isSome = true := by
  match groups with
  | [] | [_, _] | [_, _, _] => rfl
  | [_] => exact absurd rfl h
  | _ :: _ :: _ :: _ :: rest =>
    simp only [List.length_cons] at h
    have hrest : rest.length % 4 ≠ 1 := by omega
    rw [bytesOf, Option.isSome_map]
    exact isSome_bytesOf hrest

theorem sextet_sign : sextet SIGN = none := by decide

theorem isSome_mapM_sextet {body : List Nat} :
    (body.mapM sextet).isSome = true ↔ ∀ unit ∈ body, (sextet unit).isSome = true := by
  induction body with
  | nil => simp
  | cons unit body ih =>
    rw [List.mapM_cons]
    cases hunit : sextet unit with
    | none => simp [hunit]
    | some value =>
      rw [List.forall_mem_cons, ← ih, hunit]
      cases body.mapM sextet <;> simp

theorem length_mapM_sextet {body groups : List Nat} (h : body.mapM sextet = some groups) :
    groups.length = body.length := by
  induction body generalizing groups with
  | nil =>
    cases h
    rfl
  | cons unit body ih =>
    rw [List.mapM_cons] at h
    cases hunit : sextet unit with
    | none => simp [hunit] at h
    | some value =>
      cases hbody : body.mapM sextet with
      | none => simp [hunit, hbody] at h
      | some rest =>
        simp only [hunit, hbody, Option.pure_def, Option.bind_eq_bind, Option.bind_some,
          Option.some.injEq] at h
        rw [← h, List.length_cons, List.length_cons, ih hbody]

/-- A text that ends with `padding` signs and has none before them. -/
theorem rdropWhile_sign {body : List Nat} (h : SIGN ∉ body) (padding : Nat) :
    (body ++ List.replicate padding SIGN).rdropWhile (· == SIGN) = body := by
  induction padding with
  | zero =>
    rw [List.replicate_zero, List.append_nil, List.rdropWhile_eq_self_iff]
    intro hne hlast
    exact h (beq_iff_eq.1 hlast ▸ List.getLast_mem hne)
  | succ padding ih =>
    rw [List.replicate_succ', ← List.append_assoc, List.rdropWhile_concat_pos _ _ _ (by simp), ih]

theorem decode_eq {body : List Nat} (h : SIGN ∉ body) (padding : Nat) :
    decode (body ++ List.replicate padding SIGN) =
      if Regular body.length padding then (body.mapM sextet).bind bytesOf else none := by
  have hlength : (body ++ List.replicate padding SIGN).length - body.length = padding := by
    rw [List.length_append, List.length_replicate]
    omega
  unfold decode
  rw [rdropWhile_sign h]
  dsimp only
  rw [hlength]

/-- What is decoded: symbols and signs in the right numbers. -/
theorem shape_of_decode {code bytes : List Nat} (h : decode code = some bytes) :
    ∃ body padding, code = body ++ List.replicate padding SIGN ∧ Regular body.length padding ∧
      ∀ unit ∈ body, (sextet unit).isSome = true := by
  unfold decode at h
  dsimp only at h
  split at h
  · rename_i hregular
    obtain ⟨groups, hgroups, _⟩ := Option.bind_eq_some_iff.1 h
    have hsigns : code.rtakeWhile (· == SIGN) = List.replicate
        (code.length - (code.rdropWhile (· == SIGN)).length) SIGN := by
      have hsplit := congrArg List.length
        (@List.rdropWhile_append_rtakeWhile _ (· == SIGN) code)
      rw [List.length_append] at hsplit
      rw [List.eq_replicate_iff]
      refine ⟨by omega, ?_⟩
      intro unit hunit
      simpa using List.mem_rtakeWhile_imp hunit
    refine ⟨_, _, ?_, hregular, ?_⟩
    · rw [← hsigns, List.rdropWhile_append_rtakeWhile]
    · rw [← isSome_mapM_sextet, hgroups]
      rfl
  · cases h

/-- How many bytes are decoded. -/
theorem decode_of_regular {body : List Nat} {padding : Nat}
    (hsymbols : ∀ unit ∈ body, (sextet unit).isSome = true) (h : Regular body.length padding) :
    ∃ bytes, decode (body ++ List.replicate padding SIGN) = some bytes ∧
      bytes.length + padding = (body.length + padding) * 3 / 4 := by
  have hsign : SIGN ∉ body := by
    intro hmem
    have hsome := hsymbols SIGN hmem
    rw [sextet_sign] at hsome
    cases hsome
  obtain ⟨groups, hgroups⟩ := Option.isSome_iff_exists.1 (isSome_mapM_sextet.2 hsymbols)
  have hlength := length_mapM_sextet hgroups
  have hwhole : groups.length % 4 ≠ 1 := by
    rw [hlength]
    rcases h with ⟨_, hmod⟩ | ⟨hpos, hfew, hmod⟩
    · exact hmod
    · omega
  obtain ⟨bytes, hbytes⟩ := Option.isSome_iff_exists.1 (isSome_bytesOf hwhole)
  refine ⟨bytes, ?_, ?_⟩
  · rw [decode_eq hsign, if_pos h, hgroups]
    exact hbytes
  · have hcount := (length_bytesOf hbytes).2
    rcases h with ⟨hzero, _⟩ | ⟨hpos, hfew, hmod⟩ <;> omega

end Base64Url
end FlowType
