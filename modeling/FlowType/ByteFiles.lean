import Mathlib.Data.List.Basic
import Mathlib.Tactic.Ring

/-! Files of bytes: numbers in little-endian order, writing at an offset, also behind the end, and
reading records of one size. Nothing here refers to a particular program. -/
namespace FlowType
namespace ByteFiles

/-- The `k` low bytes of a number, the lowest first. -/
def leBytes : Nat → Nat → List UInt8
  | 0, _ => []
  | k + 1, n => UInt8.ofNat (n % 256) :: leBytes k (n / 256)

def ofLeBytes : List UInt8 → Nat
  | [] => 0
  | byte :: bytes => byte.toNat + 256 * ofLeBytes bytes

@[simp] theorem length_leBytes (k n : Nat) : (leBytes k n).length = k := by
  induction k generalizing n with
  | zero => rfl
  | succ k ih => rw [leBytes, List.length_cons, ih]

theorem ofLeBytes_leBytes (k n : Nat) : ofLeBytes (leBytes k n) = n % 256 ^ k := by
  induction k generalizing n with
  | zero => rw [leBytes, ofLeBytes, Nat.pow_zero, Nat.mod_one]
  | succ k ih =>
    have hbyte : (UInt8.ofNat (n % 256)).toNat = n % 256 := by
      rw [UInt8.toNat_ofNat']
      exact Nat.mod_eq_of_lt (Nat.mod_lt n (by decide))
    rw [leBytes, ofLeBytes, hbyte, ih, Nat.pow_succ, Nat.mul_comm (256 ^ k) 256, Nat.mod_mul]

theorem leBytes_ofLeBytes (bytes : List UInt8) : leBytes bytes.length (ofLeBytes bytes) = bytes := by
  induction bytes with
  | nil => rfl
  | cons byte bytes ih =>
    have hbyte : byte.toNat < 256 := byte.toNat_lt
    have hlow : (byte.toNat + 256 * ofLeBytes bytes) % 256 = byte.toNat := by omega
    have hhigh : (byte.toNat + 256 * ofLeBytes bytes) / 256 = ofLeBytes bytes := by omega
    rw [List.length_cons, ofLeBytes, leBytes, hlow, hhigh, ih, UInt8.ofNat_toNat]

/-- The byte at a place; behind the end of a file there are zeros. -/
def byteAt (file : List UInt8) (place : Nat) : UInt8 := file.getD place 0

def writeAt (file : List UInt8) (offset : Nat) (data : List UInt8) : List UInt8 :=
  (file ++ List.replicate (offset - file.length) 0).take offset ++ data ++
    file.drop (offset + data.length)

/-- What reading at most `count` bytes at an offset gives. -/
def readAt (file : List UInt8) (offset count : Nat) : List UInt8 := (file.drop offset).take count

variable {file data : List UInt8} {offset place : Nat}

theorem length_front (file : List UInt8) (offset : Nat) :
    ((file ++ List.replicate (offset - file.length) 0).take offset).length = offset := by
  rw [List.length_take, List.length_append, List.length_replicate]
  omega

theorem length_writeAt (file : List UInt8) (offset : Nat) (data : List UInt8) :
    (writeAt file offset data).length = max file.length (offset + data.length) := by
  rw [writeAt, List.length_append, List.length_append, length_front, List.length_drop]
  omega

theorem writeAt_end (h : offset = file.length) : writeAt file offset data = file ++ data := by
  have hbehind : file.drop (offset + data.length) = [] := List.drop_eq_nil_of_le (by omega)
  rw [writeAt, hbehind, h, Nat.sub_self, List.replicate_zero, List.append_nil, List.append_nil,
    List.take_length]

theorem byteAt_of_le (h : file.length ≤ place) : byteAt file place = 0 := by
  rw [byteAt, List.getD_eq_getElem?_getD, List.getElem?_eq_none h]
  rfl

theorem byteAt_append_left {more : List UInt8} (h : place < file.length) :
    byteAt (file ++ more) place = byteAt file place := by
  rw [byteAt, byteAt, List.getD_eq_getElem?_getD, List.getD_eq_getElem?_getD,
    List.getElem?_append_left h]

theorem byteAt_append_right {more : List UInt8} (h : file.length ≤ place) :
    byteAt (file ++ more) place = byteAt more (place - file.length) := by
  rw [byteAt, byteAt, List.getD_eq_getElem?_getD, List.getD_eq_getElem?_getD,
    List.getElem?_append_right h]

theorem byteAt_drop (file : List UInt8) (offset place : Nat) :
    byteAt (file.drop offset) place = byteAt file (offset + place) := by
  rw [byteAt, byteAt, List.getD_eq_getElem?_getD, List.getD_eq_getElem?_getD, List.getElem?_drop]

theorem byteAt_take (h : place < offset) : byteAt (file.take offset) place = byteAt file place := by
  rw [byteAt, byteAt, List.getD_eq_getElem?_getD, List.getD_eq_getElem?_getD,
    List.getElem?_take_of_lt h]

theorem byteAt_zeros (count place : Nat) :
    byteAt (List.replicate count (0 : UInt8)) place = 0 := by
  rw [byteAt, List.getD_eq_getElem?_getD, List.getElem?_replicate]
  split <;> rfl

/-- Every byte after a write: the data's own, and the file's elsewhere. -/
theorem byteAt_writeAt (file : List UInt8) (offset : Nat) (data : List UInt8) (place : Nat) :
    byteAt (writeAt file offset data) place =
      if offset ≤ place ∧ place < offset + data.length then byteAt data (place - offset)
      else byteAt file place := by
  have hfront := length_front file offset
  have hboth : ((file ++ List.replicate (offset - file.length) 0).take offset ++ data).length =
      offset + data.length := by rw [List.length_append, hfront]
  rw [writeAt]
  by_cases hbefore : place < offset
  · have hplace : place < ((file ++ List.replicate (offset - file.length) 0).take offset).length := by
      rw [hfront]
      exact hbefore
    rw [if_neg (by omega), byteAt_append_left (by omega), byteAt_append_left hplace,
      byteAt_take hbefore]
    by_cases hin : place < file.length
    · exact byteAt_append_left hin
    · rw [byteAt_append_right (by omega), byteAt_zeros, byteAt_of_le (by omega)]
  · by_cases hdata : place < offset + data.length
    · rw [if_pos ⟨by omega, hdata⟩, byteAt_append_left (by omega),
        byteAt_append_right (by omega), hfront]
    · rw [if_neg (by omega), byteAt_append_right (by omega), byteAt_drop, hboth]
      congr 1
      omega

/-- The record of `size` bytes with the index, filled up with zeros behind the end. -/
def recordAt (size : Nat) (file : List UInt8) (index : Nat) : List UInt8 :=
  readAt file (index * size) size ++
    List.replicate (size - (readAt file (index * size) size).length) 0

theorem length_recordAt (size : Nat) (file : List UInt8) (index : Nat) :
    (recordAt size file index).length = size := by
  have hshort : (readAt file (index * size) size).length ≤ size := List.length_take_le _ _
  rw [recordAt, List.length_append, List.length_replicate]
  omega

theorem byteAt_recordAt {size index : Nat} (h : place < size) :
    byteAt (recordAt size file index) place = byteAt file (index * size + place) := by
  rw [recordAt]
  by_cases hin : place < (readAt file (index * size) size).length
  · rw [byteAt_append_left hin, readAt, byteAt_take h, byteAt_drop]
  · have hend : file.length ≤ index * size + place := by
      rw [readAt, List.length_take, List.length_drop] at hin
      omega
    rw [byteAt_append_right (by omega), byteAt_zeros, byteAt_of_le hend]

theorem ext_byteAt {a b : List UInt8} (hlength : a.length = b.length)
    (h : ∀ place < a.length, byteAt a place = byteAt b place) : a = b := by
  apply List.ext_getElem hlength
  intro place ha hb
  have hplace := h place ha
  simpa [byteAt, List.getD_eq_getElem?_getD, ha, hb] using hplace

/-- Writing one record leaves the others. -/
theorem recordAt_writeAt {size : Nat} (hdata : data.length = size) (written index : Nat) :
    recordAt size (writeAt file (written * size) data) index =
      if index = written then data else recordAt size file index := by
  have hlength : (if index = written then data else recordAt size file index).length = size := by
    split
    · exact hdata
    · exact length_recordAt size file index
  apply ext_byteAt
  · rw [length_recordAt, hlength]
  · intro place hplace
    rw [length_recordAt] at hplace
    rw [byteAt_recordAt hplace, byteAt_writeAt, hdata]
    by_cases hsame : index = written
    · rw [if_pos hsame, if_pos ⟨by rw [hsame]; omega, by rw [hsame]; omega⟩, hsame]
      congr 1
      omega
    · -- Records of one size that are not the same do not overlap.
      have hapart : ¬(written * size ≤ index * size + place ∧
          index * size + place < written * size + size) := by
        rintro ⟨hfrom, hto⟩
        rcases Nat.lt_or_gt_of_ne hsame with hlt | hgt
        · have hle := Nat.mul_le_mul_right size hlt
          rw [Nat.succ_mul] at hle
          omega
        · have hle := Nat.mul_le_mul_right size hgt
          rw [Nat.succ_mul] at hle
          omega
      rw [if_neg hapart, if_neg hsame, byteAt_recordAt hplace]

theorem length_writeAt_mod {size : Nat} (hdata : data.length = size)
    (hwhole : file.length % size = 0) (written : Nat) :
    (writeAt file (written * size) data).length % size = 0 := by
  have hend : written * size + size = (written + 1) * size := by ring
  rw [length_writeAt, hdata, hend]
  rcases Nat.le_total file.length ((written + 1) * size) with hle | hle
  · rw [Nat.max_eq_right hle, Nat.mul_mod_left]
  · rw [Nat.max_eq_left hle, hwhole]

/-- In a file of whole records a record is there whole or not at all. -/
theorem length_readAt_of_whole {size : Nat} (hpos : 0 < size) (hwhole : file.length % size = 0)
    (index : Nat) : (readAt file (index * size) size).length = 0 ∨
      (readAt file (index * size) size).length = size := by
  obtain ⟨count, hcount⟩ := Nat.dvd_of_mod_eq_zero hwhole
  rw [readAt, List.length_take, List.length_drop, hcount, Nat.mul_comm size count]
  rcases Nat.lt_or_ge index count with hlt | hge
  · have hle := Nat.mul_le_mul_right size hlt
    rw [Nat.succ_mul] at hle
    omega
  · have hle := Nat.mul_le_mul_right size hge
    omega

end ByteFiles
end FlowType
