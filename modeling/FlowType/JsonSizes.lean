import FlowType.SyncClient
import FlowType.TextUnits

/-! How long a JSON text gets: numbers, quoted texts under the escapes of either side, and the
members of an object. -/
namespace FlowType

theorem utf8ByteSize_eq (text : String) :
    text.utf8ByteSize = utf8Length text.toList := by
  rw [utf8Length, ← ofList_size, String.ofList_toList]

theorem utf8Length_flatMap (f : Char → List Char) (text : List Char) :
    utf8Length (text.flatMap f) = (text.map fun c => utf8Length (f c)).sum := by
  induction text with
  | nil => rfl
  | cons c text ih =>
    rw [List.flatMap_cons, utf8Length_append, List.map_cons, List.sum_cons, ih]

theorem natural_size_le {n k : Nat} (hk : 0 < k) (h : n < 10 ^ k) :
    (toString n).utf8ByteSize ≤ k := by
  have hdigits : (Nat.toDigits 10 n).length ≤ k := Nat.toDigits_length 10 n k hk h
  have hbytes : ∀ digits : List Char, (∀ c ∈ digits, c.isDigit = true) →
      utf8Length digits = digits.length := by
    intro digits hall
    induction digits with
    | nil => rfl
    | cons c digits ih =>
      have hc := Char.isDigit_iff_toNat.1 (hall c List.mem_cons_self)
      have hone : c.utf8Size = 1 := by
        rw [Char.utf8Size_eq_one_iff, UInt32.le_iff_toNat_le]
        exact le_trans hc.2 (by decide)
      rw [utf8Length_cons, hone, ih fun d hd => hall d (List.mem_cons_of_mem c hd),
        List.length_cons, Nat.add_comm]
  rw [utf8ByteSize_eq, Nat.toString_eq_ofList_toDigits, String.toList_ofList,
    hbytes _ fun c hc => Nat.isDigit_of_mem_toDigits (by decide) (by decide) hc]
  exact hdigits

theorem integer_size_le {n : Int} {k : Nat} (hk : 0 < k) (h : n.natAbs < 10 ^ k) :
    (toString n).utf8ByteSize ≤ k + 1 := by
  rw [Int.toString_eq_repr, Int.repr_eq_if]
  split_ifs with hsign
  · have hn : n.toNat < 10 ^ k := by omega
    exact le_trans (natural_size_le hk hn) (Nat.le_succ k)
  · have hn : (-n).toNat < 10 ^ k := by omega
    have hdigits : (-n).toNat.repr.utf8ByteSize ≤ k := natural_size_le hk hn
    have hminus : ("-").utf8ByteSize = 1 := by decide
    rw [String.utf8ByteSize_append]
    omega

def quoteWith (escape : Char → List Char) (text : String) : String :=
  "\"" ++ String.ofList (text.toList.flatMap escape) ++ "\""

/-- `serde_json` escapes as `JSONStringer` does, except for the slash. -/
def serdeEscapeChar (c : Char) : List Char := if c.toNat = 0x2f then [c] else escapeChar c

theorem quoteWith_size (escape : Char → List Char) (text : String) :
    (quoteWith escape text).utf8ByteSize =
      2 + (text.toList.map fun c => utf8Length (escape c)).sum := by
  have hquote : ("\"").utf8ByteSize = 1 := by decide
  have htext : (String.ofList (text.toList.flatMap escape)).utf8ByteSize =
      (text.toList.map fun c => utf8Length (escape c)).sum := by
    rw [utf8ByteSize_eq, String.toList_ofList, utf8Length_flatMap]
  rw [quoteWith, String.utf8ByteSize_append, String.utf8ByteSize_append]
  omega

/-- The members of an object with their quoted names, each with a colon and a comma or brace. -/
theorem jsonObject_size {fields : List (String × String)} (h : fields ≠ []) :
    (jsonObject fields).utf8ByteSize =
      1 + (fields.map fun f => (quote f.1).utf8ByteSize + f.2.utf8ByteSize + 2).sum := by
  have hbrace : ("\x7b").utf8ByteSize = 1 := by decide
  have hbrace' : ("\x7d").utf8ByteSize = 1 := by decide
  have hcolon : (":").utf8ByteSize = 1 := by decide
  have hcomma : (",").utf8ByteSize = 1 := by decide
  have hfields : (jsonFields fields).utf8ByteSize + 1 =
      (fields.map fun f => (quote f.1).utf8ByteSize + f.2.utf8ByteSize + 2).sum := by
    clear hbrace hbrace'
    induction fields with
    | nil => exact absurd rfl h
    | cons f fields ih =>
      cases fields with
      | nil =>
        simp only [jsonFields, String.utf8ByteSize_append, List.map_cons, List.map_nil,
          List.sum_cons, List.sum_nil]
        omega
      | cons g fields =>
        have hrest := ih (by simp)
        rw [List.map_cons, List.sum_cons, ← hrest]
        simp only [jsonFields, String.utf8ByteSize_append]
        omega
  rw [jsonObject, String.utf8ByteSize_append, String.utf8ByteSize_append]
  omega

end FlowType
