import Mathlib.Data.Countable.Defs
import Mathlib.Logic.Function.Basic
import FlowType.ByteFiles

/-! Records in two files: their texts one after another, each with a mark behind it, and the
offsets at which they start. Nothing here refers to a particular program. -/
namespace FlowType
namespace ByteFiles

section Lines
variable {α : Type} (mark : UInt8) (encode : α → List UInt8)

def lineBytes (records : List α) : List UInt8 :=
  records.flatMap fun record => encode record ++ [mark]

/-- The offsets of eight bytes each; the first record starts at `start`. -/
def lineOffsets (start : Nat) : List α → List UInt8
  | [] => []
  | record :: records =>
    leBytes 8 start ++ lineOffsets (start + (encode record).length + 1) records

variable {mark encode} {record : α} {records : List α} {start ordinal : Nat}

@[simp] theorem lineBytes_cons : lineBytes mark encode (record :: records) =
    encode record ++ mark :: lineBytes mark encode records := by
  simp [lineBytes]

theorem lineBytes_append (records records' : List α) : lineBytes mark encode (records ++ records') =
    lineBytes mark encode records ++ lineBytes mark encode records' := by
  simp [lineBytes]

theorem lineOffsets_concat : lineOffsets encode start (records ++ [record]) =
    lineOffsets encode start records ++
      leBytes 8 (start + (lineBytes mark encode records).length) := by
  induction records generalizing start with
  | nil => simp [lineOffsets, lineBytes]
  | cons first records ih =>
    rw [List.cons_append, lineOffsets, ih, lineOffsets, List.append_assoc, lineBytes_cons,
      List.length_append, List.length_cons]
    congr 3
    omega

theorem readAt_lineOffsets (h : ordinal < records.length) :
    readAt (lineOffsets encode start records) (ordinal * 8) 8 =
      leBytes 8 (start + (lineBytes mark encode (records.take ordinal)).length) := by
  induction records generalizing start ordinal with
  | nil => exact absurd h (Nat.not_lt_zero _)
  | cons first records ih =>
    rw [lineOffsets]
    cases ordinal with
    | zero =>
      rw [readAt, Nat.zero_mul, List.drop_zero, List.take_left' (length_leBytes 8 _)]
      rfl
    | succ ordinal =>
      have hskip : (ordinal + 1) * 8 = (leBytes 8 start).length + ordinal * 8 := by
        rw [length_leBytes]
        omega
      have hrest : readAt (lineOffsets encode (start + (encode first).length + 1) records)
          (ordinal * 8) 8 = _ := ih (Nat.lt_of_succ_lt_succ h)
      rw [readAt] at hrest ⊢
      rw [hskip, List.drop_length_add_append, hrest, List.take_succ_cons, lineBytes_cons,
        List.length_append, List.length_cons]
      congr 1
      omega

theorem drop_lineBytes (h : ordinal < records.length) :
    (lineBytes mark encode records).drop (lineBytes mark encode (records.take ordinal)).length =
      encode records[ordinal] ++ mark :: lineBytes mark encode (records.drop (ordinal + 1)) := by
  have hsplit : records =
      records.take ordinal ++ (records[ordinal] :: records.drop (ordinal + 1)) := by
    rw [← List.drop_eq_getElem_cons h, List.take_append_drop]
  have hbytes : lineBytes mark encode records = lineBytes mark encode (records.take ordinal) ++
      lineBytes mark encode (records[ordinal] :: records.drop (ordinal + 1)) := by
    rw [← lineBytes_append, ← hsplit]
  rw [hbytes, List.drop_left, lineBytes_cons]

theorem takeWhile_line (h : mark ∉ encode record) (rest : List UInt8) :
    (encode record ++ mark :: rest).takeWhile (· ≠ mark) = encode record := by
  have hall : ∀ byte ∈ encode record, decide (byte ≠ mark) = true := by
    intro byte hbyte
    have hne : byte ≠ mark := fun heq => h (heq ▸ hbyte)
    simpa using hne
  rw [List.takeWhile_append_of_pos hall]
  simp

/-- Records can be given texts of one line each, one of them the line it is to have. -/
theorem exists_encoding [Countable α] [DecidableEq α] {filler : UInt8} {line : List UInt8}
    (record : α) (hline : mark ∉ line) (hfiller : filler ≠ mark)
    (hother : ∀ count, line ≠ List.replicate count filler) :
    ∃ (encode : α → List UInt8) (decode : List UInt8 → Option α),
      (∀ other, decode (encode other) = some other) ∧ (∀ other, mark ∉ encode other) ∧
        encode record = line := by
  obtain ⟨number, hnumber⟩ := exists_injective_nat α
  let encode := fun other => if other = record then line else List.replicate (number other) filler
  have hinjective : Function.Injective encode := by
    intro first second heq
    dsimp only [encode] at heq
    split_ifs at heq with hfirst hsecond hsecond
    · exact hfirst.trans hsecond.symm
    · exact absurd heq (hother _)
    · exact absurd heq.symm (hother _)
    · apply hnumber
      simpa using congrArg List.length heq
  refine ⟨encode, Function.partialInv encode, Function.partialInv_left hinjective, ?_, if_pos rfl⟩
  intro other hmem
  dsimp only [encode] at hmem
  split_ifs at hmem with heq
  · exact hline hmem
  · exact hfiller (List.eq_of_mem_replicate hmem).symm

end Lines

end ByteFiles
end FlowType
