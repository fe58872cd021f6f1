import Mathlib.Data.List.Basic

/-! Streams that take and give what they are asked for in pieces: a sink takes at least one element
with each call, a source gives at least one until it has ended. Writing a whole and reading a whole
do not depend on the pieces. Nothing here refers to a particular program. -/
namespace ByteStreams

variable {α : Type*}

/-- A sink: what each further call takes beyond one element, and what has been written. -/
structure Sink (α : Type*) where
  room : Nat → Nat
  written : List α

namespace Sink

def write (s : Sink α) (data : List α) : Nat × Sink α :=
  let taken := min (s.room 0 + 1) data.length
  (taken, ⟨fun call => s.room (call + 1), s.written ++ data.take taken⟩)

/-- Calls until all has been taken. -/
def writeAll (s : Sink α) (data : List α) : Sink α :=
  if h : data = [] then s
  else
    have hdrop : (data.drop (s.write data).1).length < data.length := by
      have hlength : 0 < data.length := List.length_pos_iff.2 h
      rw [List.length_drop, write]
      dsimp only
      omega
    (s.write data).2.writeAll (data.drop (s.write data).1)
termination_by data.length
decreasing_by exact hdrop

theorem written_writeAll (s : Sink α) (data : List α) :
    (s.writeAll data).written = s.written ++ data := by
  induction s, data using writeAll.induct with
  | case1 s => rw [writeAll, dif_pos rfl, List.append_nil]
  | case2 s data hdata _ ih =>
    have htaken : (s.write data).2.written = s.written ++ data.take (s.write data).1 := rfl
    rw [writeAll, dif_neg hdata, ih, htaken, List.append_assoc, List.take_append_drop]

end Sink

/-- A source: the pieces that are there, of which one call gives at most one. -/
structure Source (α : Type*) where
  chunks : List (List α)
  nonempty : ∀ chunk ∈ chunks, chunk ≠ []

namespace Source

def content (s : Source α) : List α := s.chunks.flatten

def append (s t : Source α) : Source α where
  chunks := s.chunks ++ t.chunks
  nonempty := fun chunk hchunk =>
    (List.mem_append.1 hchunk).elim (s.nonempty chunk) (t.nonempty chunk)

/-- One call, of at most `count` elements, on the pieces. -/
def pull : List (List α) → Nat → List α × List (List α)
  | [], _ => ([], [])
  | chunk :: rest, count =>
    if count < chunk.length then (chunk.take count, chunk.drop count :: rest) else (chunk, rest)

theorem pull_nonempty {chunks : List (List α)} (h : ∀ chunk ∈ chunks, chunk ≠ []) (count : Nat) :
    ∀ chunk ∈ (pull chunks count).2, chunk ≠ [] := by
  cases chunks with
  | nil => exact h
  | cons chunk rest =>
    have hrest : ∀ c ∈ rest, c ≠ [] := fun c hc => h c (List.mem_cons_of_mem chunk hc)
    rw [pull]
    split_ifs with hlong
    · intro c hc
      rcases List.mem_cons.1 hc with rfl | hc
      · apply List.ne_nil_of_length_pos
        rw [List.length_drop]
        omega
      · exact hrest c hc
    · exact hrest

/-- One call, of at most `count` elements; nothing comes when the source has ended. -/
def read (s : Source α) (count : Nat) : List α × Source α :=
  ((pull s.chunks count).1, ⟨(pull s.chunks count).2, pull_nonempty s.nonempty count⟩)

variable {s t : Source α} {count : Nat}

@[simp] theorem content_append (s t : Source α) : (s.append t).content = s.content ++ t.content :=
  List.flatten_append

theorem pull_append (chunks : List (List α)) (count : Nat) :
    (pull chunks count).1 ++ (pull chunks count).2.flatten = chunks.flatten := by
  cases chunks with
  | nil => rfl
  | cons chunk rest =>
    rw [pull]
    split_ifs
    · rw [List.flatten_cons, List.flatten_cons, ← List.append_assoc, List.take_append_drop]
    · rfl

theorem length_pull_le (chunks : List (List α)) (count : Nat) :
    (pull chunks count).1.length ≤ count := by
  cases chunks with
  | nil => exact Nat.zero_le count
  | cons chunk rest =>
    rw [pull]
    split_ifs with hlong
    · exact List.length_take_le _ _
    · exact Nat.le_of_not_lt hlong

theorem read_append (s : Source α) (count : Nat) :
    (s.read count).1 ++ (s.read count).2.content = s.content := pull_append s.chunks count

theorem length_read_le (s : Source α) (count : Nat) : (s.read count).1.length ≤ count :=
  length_pull_le s.chunks count

/-- Nothing comes only from a source that has ended. -/
theorem content_of_read_nil (hcount : 0 < count) (h : (s.read count).1 = []) : s.content = [] := by
  obtain ⟨chunks, hnonempty⟩ := s
  cases chunks with
  | nil => rfl
  | cons chunk rest =>
    have hchunk : 0 < chunk.length := List.length_pos_iff.2 (hnonempty chunk List.mem_cons_self)
    have hpull : (pull (chunk :: rest) count).1 = [] := h
    rw [pull] at hpull
    split_ifs at hpull
    · rcases List.take_eq_nil_iff.1 hpull with hzero | hnil
      · omega
      · exact absurd hnil (List.length_pos_iff.1 hchunk)
    · exact absurd hpull (List.length_pos_iff.1 hchunk)

/-- Calls until `count` elements have come; `none` when the source ends before. -/
def readExact (s : Source α) (count : Nat) : Option (List α) × Source α :=
  if count = 0 then (some [], s)
  else if (s.read count).1 = [] then (none, (s.read count).2)
  else
    let rest := (s.read count).2.readExact (count - (s.read count).1.length)
    (rest.1.map ((s.read count).1 ++ ·), rest.2)
termination_by count
decreasing_by
  have hpos : 0 < (s.read count).1.length := List.length_pos_iff.2 ‹_›
  omega

theorem readExact_zero (s : Source α) : s.readExact 0 = (some [], s) := by
  rw [readExact, if_pos rfl]

/-- Reading a whole takes it off the front, whatever the pieces are. -/
theorem readExact_spec (s : Source α) (count : Nat) :
    (s.readExact count).1 =
        (if count ≤ s.content.length then some (s.content.take count) else none) ∧
      (s.readExact count).2.content = s.content.drop count := by
  induction s, count using readExact.induct with
  | case1 s => simp [readExact_zero]
  | case2 s count hcount hread =>
    have hcontent : s.content = [] := content_of_read_nil (Nat.pos_of_ne_zero hcount) hread
    have hrest : (s.read count).2.content = [] := by
      have happend := s.read_append count
      rw [hread, hcontent] at happend
      exact happend
    rw [readExact, if_neg hcount, if_pos hread, hrest, hcontent, List.drop_nil, if_neg]
    · exact ⟨rfl, rfl⟩
    · rw [List.length_nil]
      omega
  | case3 s count hcount hread ih =>
    obtain ⟨ihfst, ihsnd⟩ := ih
    have happend := s.read_append count
    have hle := s.length_read_le count
    have htake : s.content.take count = (s.read count).1 ++
        (s.read count).2.content.take (count - (s.read count).1.length) := by
      rw [← happend, List.take_append, List.take_of_length_le hle]
    have hdrop : s.content.drop count =
        (s.read count).2.content.drop (count - (s.read count).1.length) := by
      rw [← happend, List.drop_append, List.drop_of_length_le hle, List.nil_append]
    have hlength : s.content.length =
        (s.read count).1.length + (s.read count).2.content.length := by
      rw [← happend, List.length_append]
    rw [readExact, if_neg hcount, if_neg hread]
    refine ⟨?_, ihsnd.trans hdrop.symm⟩
    dsimp only
    rw [ihfst, htake]
    split_ifs
    · rfl
    · omega
    · omega
    · rfl

/-- Reading back what stands at the front. -/
theorem readExact_append {data rest : List α} (h : s.content = data ++ rest) :
    ∃ s', s.readExact data.length = (some data, s') ∧ s'.content = rest := by
  obtain ⟨hfst, hsnd⟩ := s.readExact_spec data.length
  have hle : data.length ≤ s.content.length := by
    rw [h, List.length_append]
    omega
  rw [if_pos hle, h, List.take_left] at hfst
  rw [h, List.drop_left] at hsnd
  exact ⟨_, Prod.ext hfst rfl, hsnd⟩

end Source

end ByteStreams
