import FlowType.EditSessions

/-! The edit session of a Begin call by call, for a Begin that attaches to text that is in the
document already: the three ways to find the text in front of the caret, and what each call that
fails leaves of the document. -/
namespace FlowType

/-- How the target shows its text: TSF with all of it, or a Scintilla window that shows TSF its
active insertion span only and is read in UTF-8 by messages. -/
inductive Editor
  | tsf
  | scintilla
  deriving DecidableEq, Repr

def Editor.encode (editor : Editor) (text : String) : List Nat :=
  match editor with
  | .tsf => encodeUtf16 text
  | .scintilla => text.toUTF8.data.toList.map UInt8.toNat

/-- Which calls of `EditSession::begin` succeed. `startEnds` and `writeEnds` say that the
composition is reported as ended during the call. -/
structure BeginCalls where
  insertAtSelection : Bool := true
  selectionRead : Bool := true
  insertionQueried : Bool := true
  emptyRead : Bool := true
  candidateCloned : Bool := true
  acpRange : Bool := true
  extentRead : Bool := true
  extentSet : Bool := true
  startShifted : Bool := true
  textRead : Bool := true
  /-- `SCI_DELETERANGE` deletes; it does not in a read-only document. -/
  deleted : Bool := true
  rangeTracked : Bool := true
  gravitySet : Bool := true
  contextComposition : Bool := true
  started : Bool := true
  startEnds : Bool := false
  trackedCloned : Bool := true
  written : Bool := true
  writeEnds : Bool := false
  caretSet : Bool := true
  deriving DecidableEq, Repr

namespace Document

def spanBefore (d : Document) (units : List Nat) : Span :=
  ⟨d.selection.start - units.length, d.selection.start⟩

structure EndsAtCaret (d : Document) (units : List Nat) : Prop where
  collapsed : d.selection.start = d.selection.stop
  fits : units.length ≤ d.selection.start
  text : d.read (d.spanBefore units) = units

instance (d : Document) (units : List Nat) : Decidable (d.EndsAtCaret units) :=
  decidable_of_iff (d.selection.start = d.selection.stop ∧ units.length ≤ d.selection.start ∧
      d.read (d.spanBefore units) = units)
    ⟨fun h => ⟨h.1, h.2.1, h.2.2⟩, fun h => ⟨h.collapsed, h.fits, h.text⟩⟩

/-- The selection lies in the document. -/
structure Valid (d : Document) : Prop where
  ordered : d.selection.start ≤ d.selection.stop
  inside : d.selection.stop ≤ d.text.length

end Document

section Find

variable (calls : BeginCalls) (editor : Editor) (d : Document)

def Editor.shown (editor : Editor) (d : Document) : Nat :=
  match editor with
  | .tsf => d.selection.start
  | .scintilla => 0

/-- `match_exact_suffix`; one unit more is read than is expected. -/
def matchExactSuffix (candidate : Span) (expected : List Nat) : Option Span :=
  if calls.textRead = false then none
  else if (d.read candidate).take (expected.length + 1) = expected then some candidate
  else none

/-- `range_with_exact_suffix` of the selection. -/
def rangeWithExactSuffix (text : String) : Except Unit (Option Span) :=
  let expected := encodeUtf16 text
  -- `i32::try_from`
  if 2 ^ 31 ≤ expected.length then .ok none
  else if expected = [] then .ok none
  else if calls.emptyRead = false ∨ d.selection.start ≠ d.selection.stop then .ok none
  else if calls.candidateCloned = false then .error ()
  else if calls.acpRange && calls.extentRead && decide (editor.shown d < expected.length) then
    .ok none
  else if calls.acpRange && calls.extentRead && calls.extentSet then
    .ok (matchExactSuffix calls d (d.spanBefore expected) expected)
  else if calls.startShifted = false then .ok none
  -- the start was shifted by less than was asked for
  else if editor.shown d < expected.length then .ok none
  else .ok (matchExactSuffix calls d (d.spanBefore expected) expected)

/-- `replace_exact_suffix`: the document without the text, and where the text was. -/
def replaceExactSuffix (text : String) : Document × Option Nat :=
  let bytes := Editor.scintilla.encode text
  if '\x00' ∈ text.toList ∨ bytes = [] ∨ editor ≠ .scintilla then (d, none)
  else if d.selection.start ≠ d.selection.stop ∨ d.selection.start < bytes.length then (d, none)
  else if d.read (d.spanBefore bytes) ≠ bytes then (d, none)
  else
    let start := d.selection.start - bytes.length
    let left := if calls.deleted then (d.replace (d.spanBefore bytes) []).withCaret start else d
    if left.selection ≠ ⟨start, start⟩ then (left, none) else (left, some start)

end Find

/-- `ExistingSuffixReplacement::drop`. -/
def Document.restored (d : Document) (editor : Editor) (text : String) :
    Option Nat → Document
  | none => d
  | some start =>
    let bytes := editor.encode text
    (d.replace ⟨start, start⟩ bytes).withCaret (start + bytes.length)

namespace CompositionState

/-- `EditSession::begin`. -/
def beginSession (c : CompositionState) (d : Document) (calls : BeginCalls) (editor : Editor)
    (text : String) (attachExisting : Bool) : Edited :=
  if calls.insertAtSelection = false ∨
      ((attachExisting && calls.selectionRead) = false ∧ calls.insertionQueried = false) then
    ⟨c, d, false⟩
  else
    match if attachExisting then rangeWithExactSuffix calls editor d text else .ok none with
    | .error _ => ⟨c, d, false⟩
    | .ok attached =>
      let host := if attachExisting && attached.isNone then replaceExactSuffix calls editor d text
        else (d, none)
      -- what the drop of the replacement leaves after an error
      let left := host.1.restored editor text host.2
      if attached.isNone ∧ calls.rangeTracked = false then ⟨c, left, false⟩
      else if calls.gravitySet = false ∨ calls.contextComposition = false then ⟨c, left, false⟩
      else
        let tracked := attached.getD host.1.selection
        let c₁ := { c with terminated := false }.notified calls.startEnds
        if calls.started = false ∨ c₁.terminated ∨ calls.trackedCloned = false then
          ⟨c₁, left, false⟩
        else
          let c₂ := { c₁ with composition := true, range := some tracked, terminated := false }
          if attached.isSome then
            ⟨c₂, if calls.caretSet then d.withCaret tracked.stop else d, calls.caretSet⟩
          else if calls.written = false then ⟨c₂, left, false⟩
          else
            let units := editor.encode text
            let stop := tracked.start + units.length
            let d₁ := host.1.replace tracked units
            ⟨{ c₂ with range := some ⟨tracked.start, stop⟩ }.notified calls.writeEnds,
              if calls.caretSet then d₁.withCaret stop else d₁, calls.caretSet⟩

end CompositionState

namespace Document

variable {d : Document} {units : List Nat} {span : Span}

theorem read_congr {d' : Document} (h : d'.text = d.text) : d'.read span = d.read span := by
  rw [read, h, read]

theorem read_replace (h : span.start ≤ d.text.length) :
    (d.replace span units).read ⟨span.start, span.start + units.length⟩ = units := by
  have hfront : (d.text.take span.start).length = span.start := by
    rw [List.length_take]
    omega
  rw [read, replace, List.append_assoc, List.drop_left' hfront, Nat.add_sub_cancel_left,
    List.take_left]

theorem replace_read (hordered : span.start ≤ span.stop) :
    (d.replace span (d.read span)).text = d.text := by
  have hrest : d.text.drop span.stop = (d.text.drop span.start).drop (span.stop - span.start) := by
    rw [List.drop_drop, Nat.add_sub_cancel' hordered]
  rw [replace, read, hrest, List.append_assoc, List.take_append_drop, List.take_append_drop]

/-- A span that is cut out and whose text is put where it was. -/
theorem replace_replace (hordered : span.start ≤ span.stop) (hinside : span.stop ≤ d.text.length) :
    ((d.replace span []).replace ⟨span.start, span.start⟩ units).text =
      (d.replace span units).text := by
  have hfront : (d.text.take span.start).length = span.start := by
    rw [List.length_take]
    omega
  simp only [replace, List.append_nil]
  rw [List.take_left' hfront, List.drop_left' hfront]

theorem spanBefore_within (hvalid : d.Valid) (units : List Nat) :
    (d.spanBefore units).start ≤ (d.spanBefore units).stop ∧
      (d.spanBefore units).stop ≤ d.text.length :=
  ⟨Nat.sub_le _ _, hvalid.ordered.trans hvalid.inside⟩

/-- Text that is taken away in front of the caret and put back is where it was. -/
theorem EndsAtCaret.put_back (h : d.EndsAtCaret units) (hvalid : d.Valid) :
    ((d.replace (d.spanBefore units) []).replace
      ⟨d.selection.start - units.length, d.selection.start - units.length⟩ units).text =
        d.text := by
  obtain ⟨hordered, hinside⟩ := spanBefore_within hvalid units
  calc ((d.replace (d.spanBefore units) []).replace
        ⟨d.selection.start - units.length, d.selection.start - units.length⟩ units).text
      = (d.replace (d.spanBefore units) units).text := replace_replace hordered hinside
    _ = (d.replace (d.spanBefore units) (d.read (d.spanBefore units))).text := by rw [h.text]
    _ = d.text := replace_read hordered

/-- An insertion in front of which the text is already shows it twice, unless it is empty. -/
theorem EndsAtCaret.replace_ne (h : d.EndsAtCaret units) (hvalid : d.Valid) (hunits : units ≠ []) :
    (d.replace d.selection units).text ≠ d.text := by
  intro heq
  have hlength := congrArg List.length heq
  have hpos := List.length_pos_iff.2 hunits
  have hcollapsed := h.collapsed
  have hinside := hvalid.inside
  rw [replace, List.length_append, List.length_append, List.length_take, List.length_drop]
    at hlength
  omega

theorem replace_nil (hcollapsed : d.selection.start = d.selection.stop) :
    (d.replace d.selection []).text = d.text := by
  rw [replace, List.append_nil, hcollapsed, List.take_append_drop]

/-- Only what it is replaced by tells whether a replaced selection changes the text. -/
theorem replace_eq_iff (hvalid : d.Valid) :
    (d.replace d.selection units).text = d.text ↔ d.read d.selection = units := by
  constructor
  · intro heq
    have hordered := hvalid.ordered
    have hinside := hvalid.inside
    have hlength := congrArg List.length heq
    rw [replace, List.length_append, List.length_append, List.length_take, List.length_drop]
      at hlength
    have hstop : d.selection.start + units.length = d.selection.stop := by omega
    have hread := @read_replace d units d.selection (hordered.trans hinside)
    rw [hstop, read, heq] at hread
    exact hread
  · rintro rfl
    exact replace_read hvalid.ordered

end Document

section Find

variable {calls : BeginCalls} {editor : Editor} {d d' : Document} {text : String}
  {span found : Span} {units : List Nat} {start : Nat}

theorem matchExactSuffix_some (h : matchExactSuffix calls d span units = some found) :
    found = span ∧ d.read span = units := by
  unfold matchExactSuffix at h
  split_ifs at h with _ hread
  exact ⟨(Option.some.inj h).symm, Document.read_eq_of_take hread⟩

/-- What is found through TSF is the text in front of the caret. -/
theorem rangeWithExactSuffix_some (h : rangeWithExactSuffix calls editor d text = .ok (some span)) :
    editor = .tsf ∧ editor.encode text ≠ [] ∧ span = d.spanBefore (editor.encode text) ∧
      d.EndsAtCaret (editor.encode text) := by
  have hmatch : encodeUtf16 text ≠ [] ∧ d.selection.start = d.selection.stop ∧
      (encodeUtf16 text).length ≤ editor.shown d ∧
      matchExactSuffix calls d (d.spanBefore (encodeUtf16 text)) (encodeUtf16 text) =
        some span := by
    unfold rangeWithExactSuffix at h
    extract_lets expected at h
    split_ifs at h with hlong hempty hselected hcloned hshort hacp hshift hmoved
    · cases h
    · cases h
    · cases h
    · cases h
    · -- ACP: the anchor is not below the length
      rw [not_or, not_not] at hselected
      simp only [Bool.and_eq_true] at hacp
      simp only [hacp.1.1, hacp.1.2, Bool.and_true, Bool.true_and, decide_eq_true_eq,
        not_lt] at hshort
      exact ⟨hempty, hselected.2, hshort, Except.ok.inj h⟩
    · cases h
    · cases h
    · rw [not_or, not_not] at hselected
      exact ⟨hempty, hselected.2, not_lt.1 hmoved, Except.ok.inj h⟩
  obtain ⟨hempty, hcollapsed, hshown, hmatch⟩ := hmatch
  have hpos := List.length_pos_iff.2 hempty
  cases editor with
  | tsf =>
    obtain ⟨hspan, hread⟩ := matchExactSuffix_some hmatch
    exact ⟨rfl, hempty, hspan, hcollapsed, hshown, hread⟩
  | scintilla =>
    -- TSF has nothing in front of the insertion span
    rw [Editor.shown] at hshown
    omega

/-- What the messages find is the text in front of the caret, and they take it away. -/
theorem replaceExactSuffix_some (h : replaceExactSuffix calls editor d text = (d', some start)) :
    editor = .scintilla ∧ d.EndsAtCaret (editor.encode text) ∧
      start = d.selection.start - (editor.encode text).length ∧
      d' = (d.replace (d.spanBefore (editor.encode text)) []).withCaret start := by
  unfold replaceExactSuffix at h
  extract_lets bytes start' left at h
  split_ifs at h with hneedless hselected hdiffers hstays
  all_goals rw [Prod.mk.injEq] at h
  · cases h.2
  · cases h.2
  · cases h.2
  · cases h.2
  · obtain ⟨rfl, hstart⟩ := h
    obtain rfl := Option.some.inj hstart
    rw [not_or, not_or, not_not] at hneedless
    rw [not_or, not_not, not_lt] at hselected
    obtain rfl := hneedless.2.2
    refine ⟨rfl, ⟨hselected.1, hselected.2, not_not.1 hdiffers⟩, rfl, ?_⟩
    -- a document in which nothing was deleted still has its caret behind the text
    have hpos := List.length_pos_iff.2 hneedless.2.1
    have hdeleted : calls.deleted = true := by
      by_contra hnot
      have hleft : left = d := if_neg hnot
      rw [hleft, not_not] at hstays
      have hplace := congrArg Span.start hstays
      dsimp only [start'] at hplace
      omega
    exact if_pos hdeleted

theorem replaceExactSuffix_none (h : replaceExactSuffix calls editor d text = (d', none)) :
    d' = d := by
  unfold replaceExactSuffix at h
  extract_lets bytes start' left at h
  split_ifs at h with hneedless hselected hdiffers hstays
  all_goals rw [Prod.mk.injEq] at h
  · exact h.1.symm
  · exact h.1.symm
  · exact h.1.symm
  · obtain ⟨rfl, _⟩ := h
    -- what was deleted has moved the caret to where it began
    have hkept : ¬calls.deleted = true := by
      intro hdeleted
      apply hstays
      have hleft : left = (d.replace (d.spanBefore bytes) []).withCaret start' := if_pos hdeleted
      rw [hleft]
      rfl
    exact if_neg hkept
  · cases h.2

end Find

/-- What a Begin that attaches leaves: on success the tracked range has the text and the caret
at its end, and the text was in front of the caret already or it is set over the selection once;
after an error the document has the text that it had. -/
structure AdoptsOnce (editor : Editor) (d : Document) (text : String) (r : Edited) : Prop where
  tracked : r.ok = true → ∃ range, r.state.range = some range ∧
    r.document.read range = editor.encode text ∧ r.document.selection = ⟨range.stop, range.stop⟩
  once : r.ok = true → r.document.text =
    if d.EndsAtCaret (editor.encode text) then d.text
    else (d.replace d.selection (editor.encode text)).text
  unchanged : r.ok = false → r.document.text = d.text

/-- The text is set over the selection: no call before it fails, and the text is not found. -/
structure Inserts (calls : BeginCalls) (editor : Editor) (d : Document) (text : String) : Prop where
  insertAtSelection : calls.insertAtSelection = true
  selected : calls.selectionRead = true ∨ calls.insertionQueried = true
  notFound : rangeWithExactSuffix calls editor d text = .ok none
  notReplaced : (replaceExactSuffix calls editor d text).2 = none
  rangeTracked : calls.rangeTracked = true
  gravitySet : calls.gravitySet = true
  contextComposition : calls.contextComposition = true
  started : calls.started = true
  goesOn : calls.startEnds = false
  trackedCloned : calls.trackedCloned = true
  written : calls.written = true

/-- When the text is set over the selection, then it is not in front of the caret, and the caret
is set after it, or the selection has had that very text. -/
def InsertsOnce (calls : BeginCalls) (editor : Editor) (d : Document) (text : String) : Prop :=
  Inserts calls editor d text →
    if calls.caretSet then ¬(editor.encode text ≠ [] ∧ d.EndsAtCaret (editor.encode text))
    else d.read d.selection = editor.encode text

section Begin

variable {calls : BeginCalls} {editor : Editor} {d d' : Document} {text : String} {r : Edited}
  {c : CompositionState}

theorem adoptsOnce_of_error (hok : r.ok = false) (htext : r.document.text = d.text) :
    AdoptsOnce editor d text r where
  tracked h := by rw [hok] at h; cases h
  once h := by rw [hok] at h; cases h
  unchanged _ := htext

theorem iff_of_error (htext : d'.text = d.text) (hnot : ¬Inserts calls editor d text) :
    AdoptsOnce editor d text ⟨c, d', false⟩ ↔ InsertsOnce calls editor d text :=
  iff_of_true (adoptsOnce_of_error rfl htext) fun h => absurd h hnot

theorem terminated_notified (c : CompositionState) (ends : Bool) :
    ({ c with terminated := false }.notified ends).terminated = ends := by
  cases ends <;> simp [CompositionState.notified, CompositionState.compositionTerminated,
    CompositionState.markTerminated]

theorem range_notified (c : CompositionState) (ends : Bool) :
    (c.notified ends).range = c.range := by
  unfold CompositionState.notified CompositionState.compositionTerminated
  split_ifs <;> rfl

/-- What the drop of a replacement leaves has the text as it was. -/
theorem restored_text {host : Document × Option Nat} (hvalid : d.Valid)
    (hhost : replaceExactSuffix calls editor d text = host) :
    (host.1.restored editor text host.2).text = d.text := by
  obtain ⟨d', replaced⟩ := host
  cases replaced with
  | none => rw [replaceExactSuffix_none hhost, Document.restored]
  | some start =>
    obtain ⟨_, hends, rfl, rfl⟩ := replaceExactSuffix_some hhost
    exact hends.put_back hvalid

/-- The text is in front of the caret and is tracked where it is. -/
theorem adoptsOnce_of_found {state : CompositionState} {caretSet : Bool}
    (hends : d.EndsAtCaret (editor.encode text))
    (hstate : state.range = some (d.spanBefore (editor.encode text))) :
    AdoptsOnce editor d text ⟨state, if caretSet then d.withCaret d.selection.start else d,
      caretSet⟩ := by
  have htext : (if caretSet then d.withCaret d.selection.start else d).text = d.text := by
    split_ifs <;> rfl
  refine ⟨?_, ?_, fun _ => htext⟩
  · intro hok
    dsimp only at hok
    subst hok
    exact ⟨_, hstate, hends.text, rfl⟩
  · intro _
    rw [if_pos hends]
    exact htext

/-- The text was taken away and is set again in its place. -/
theorem adoptsOnce_of_replaced {state : CompositionState} {caretSet : Bool}
    (hends : d.EndsAtCaret (editor.encode text))
    (hstate : state.range = some (d.spanBefore (editor.encode text))) {d₁ : Document}
    (htext : d₁.text = d.text) :
    AdoptsOnce editor d text ⟨state, if caretSet then d₁.withCaret d.selection.start else d₁,
      caretSet⟩ := by
  have hdocument : (if caretSet then d₁.withCaret d.selection.start else d₁).text = d.text := by
    split_ifs
    · exact htext
    · exact htext
  refine ⟨?_, ?_, fun _ => hdocument⟩
  · intro hok
    dsimp only at hok
    subst hok
    refine ⟨_, hstate, ?_, rfl⟩
    rw [if_pos rfl]
    exact (Document.read_congr htext).trans hends.text
  · intro _
    rw [if_pos hends]
    exact hdocument

/-- The text is set over the selection. -/
theorem adoptsOnce_of_inserted {state : CompositionState} {caretSet : Bool} (hvalid : d.Valid)
    (hstate : state.range =
      some ⟨d.selection.start, d.selection.start + (editor.encode text).length⟩) :
    AdoptsOnce editor d text ⟨state,
      if caretSet then (d.replace d.selection (editor.encode text)).withCaret
        (d.selection.start + (editor.encode text).length)
      else d.replace d.selection (editor.encode text), caretSet⟩ ↔
    if caretSet then ¬(editor.encode text ≠ [] ∧ d.EndsAtCaret (editor.encode text))
    else d.read d.selection = editor.encode text := by
  cases caretSet with
  | true =>
    simp only [if_true]
    constructor
    · intro h hboth
      have honce := h.once rfl
      rw [if_pos hboth.2] at honce
      exact hboth.2.replace_ne hvalid hboth.1 honce
    · intro hnot
      refine ⟨fun _ => ⟨_, hstate, ?_, rfl⟩, ?_, fun h => nomatch h⟩
      · exact Document.read_replace (hvalid.ordered.trans hvalid.inside)
      · intro _
        split_ifs with hends
        · -- the empty text is in front of every caret
          have hempty : editor.encode text = [] := by
            by_contra hunits
            exact hnot ⟨hunits, hends⟩
          rw [hempty] at hends ⊢
          exact Document.replace_nil hends.collapsed
        · rfl
  | false =>
    simp only [Bool.false_eq_true, if_false]
    rw [← Document.replace_eq_iff hvalid]
    exact ⟨fun h => h.unchanged rfl, fun h => adoptsOnce_of_error rfl h⟩

/-- An attaching Begin meets its purpose exactly where an insertion does. -/
theorem beginSession_adoptsOnce (hvalid : d.Valid) :
    AdoptsOnce editor d text (c.beginSession d calls editor text true) ↔
      InsertsOnce calls editor d text := by
  unfold CompositionState.beginSession
  simp only [Bool.true_and, if_true]
  by_cases hcast : calls.insertAtSelection = false ∨
      calls.selectionRead = false ∧ calls.insertionQueried = false
  · rw [if_pos hcast]
    apply iff_of_error rfl
    intro h
    rcases hcast with hcast | ⟨hread, hquery⟩
    · rw [h.insertAtSelection] at hcast
      cases hcast
    · rcases h.selected with hselected | hselected
      · rw [hselected] at hread
        cases hread
      · rw [hselected] at hquery
        cases hquery
  rw [if_neg hcast]
  cases hfound : rangeWithExactSuffix calls editor d text with
  | error _ =>
    apply iff_of_error rfl
    intro h
    rw [h.notFound] at hfound
    cases hfound
  | ok attached =>
    cases attached with
    | some span =>
      obtain ⟨_, _, rfl, hends⟩ := rangeWithExactSuffix_some hfound
      have hnot : ¬Inserts calls editor d text := by
        intro h
        have hnone := h.notFound
        rw [hfound] at hnone
        cases hnone
      simp only [Option.isNone_some, Option.isSome_some, Option.getD_some, Bool.false_eq_true,
        if_false, if_true, false_and, Document.restored]
      split
      · exact iff_of_error rfl hnot
      split
      · exact iff_of_error rfl hnot
      exact iff_of_true (adoptsOnce_of_found hends rfl) fun h => absurd h hnot
    | none =>
      cases hhost : replaceExactSuffix calls editor d text with
      | mk d' replaced =>
        have hleft := restored_text hvalid hhost
        simp only [Option.isNone_none, Option.isSome_none, Option.getD_none, Bool.false_eq_true,
          if_false, if_true, true_and]
        by_cases htracked : calls.rangeTracked = false
        · rw [if_pos htracked]
          apply iff_of_error hleft
          intro h
          rw [h.rangeTracked] at htracked
          cases htracked
        rw [if_neg htracked]
        by_cases hgravity : calls.gravitySet = false ∨ calls.contextComposition = false
        · rw [if_pos hgravity]
          apply iff_of_error hleft
          intro h
          rw [h.gravitySet, h.contextComposition] at hgravity
          simp at hgravity
        rw [if_neg hgravity]
        simp only [terminated_notified]
        by_cases hstarted : calls.started = false ∨ calls.startEnds = true ∨
            calls.trackedCloned = false
        · rw [if_pos hstarted]
          apply iff_of_error hleft
          intro h
          rw [h.started, h.goesOn, h.trackedCloned] at hstarted
          simp at hstarted
        rw [if_neg hstarted]
        by_cases hwritten : calls.written = false
        · rw [if_pos hwritten]
          apply iff_of_error hleft
          intro h
          rw [h.written] at hwritten
          cases hwritten
        rw [if_neg hwritten]
        cases replaced with
        | none =>
          obtain rfl := replaceExactSuffix_none hhost
          rw [not_or] at hcast hgravity hstarted
          have hinserts : Inserts calls editor d' text := by
            constructor
            · simpa using hcast.1
            · by_contra hneither
              rw [not_or] at hneither
              exact hcast.2 ⟨by simpa using hneither.1, by simpa using hneither.2⟩
            · exact hfound
            · rw [hhost]
            · simpa using htracked
            · simpa using hgravity.1
            · simpa using hgravity.2
            · simpa using hstarted.1
            · simpa using fun h => hstarted.2 (.inl h)
            · simpa using fun h => hstarted.2 (.inr h)
            · simpa using hwritten
          refine (adoptsOnce_of_inserted hvalid ?_).trans ⟨fun h _ => h, fun h => h hinserts⟩
          rw [range_notified]
        | some start =>
          obtain ⟨_, hends, rfl, rfl⟩ := replaceExactSuffix_some hhost
          have hnot : ¬Inserts calls editor d text := by
            intro h
            have hnone := h.notReplaced
            rw [hhost] at hnone
            cases hnone
          have hstop : d.selection.start - (editor.encode text).length +
              (editor.encode text).length = d.selection.start := Nat.sub_add_cancel hends.fits
          refine iff_of_true ?_ fun h => absurd h hnot
          simp only [Document.withCaret, hstop]
          apply adoptsOnce_of_replaced hends
          · rw [range_notified]
            rfl
          · exact hends.put_back hvalid

/-- What the calls come to for the edit session as a whole. -/
def BeginCalls.env (calls : BeginCalls) (d : Document) (text : String) (attachExisting : Bool) :
    TsfEnv :=
  let found := if attachExisting then rangeWithExactSuffix calls .tsf d text else .ok none
  { insertable := calls.insertAtSelection &&
      (attachExisting && calls.selectionRead || calls.insertionQueried) && found.isOk &&
      (calls.rangeTracked || found matches .ok (some _)) && calls.gravitySet &&
      calls.contextComposition
    readable := found matches .ok (some _)
    started := calls.started && calls.trackedCloned
    startEnds := calls.startEnds
    written := calls.written
    writeEnds := calls.writeEnds
    caretSet := calls.caretSet }

theorem exactSuffix_of_found {span : Span}
    (h : rangeWithExactSuffix calls .tsf d text = .ok (some span)) :
    d.exactSuffix (encodeUtf16 text) = some span := by
  obtain ⟨_, hempty, rfl, hends⟩ := rangeWithExactSuffix_some h
  have hcollapsed := hends.collapsed
  have hfits := hends.fits
  have hread := hends.text
  dsimp only [Editor.encode] at hempty hfits hread
  rw [Document.exactSuffix, if_neg]
  · rfl
  · simp only [not_or, not_not, not_lt]
    exact ⟨hempty, hcollapsed, hfits, hread⟩

/-- Where TSF shows the text, the edit session is the one of the text service. -/
theorem beginSession_tsf (attachExisting : Bool) :
    c.beginSession d calls .tsf text attachExisting =
      c.beginEdit d (calls.env d text attachExisting) text attachExisting := by
  have hhost : replaceExactSuffix calls .tsf d text = (d, none) := by
    rw [replaceExactSuffix]
    exact if_pos (.inr (.inr fun h => nomatch h))
  have hnone : (if attachExisting = true then replaceExactSuffix calls .tsf d text else (d, none)) =
      (d, none) := by
    split_ifs
    · exact hhost
    · rfl
  unfold CompositionState.beginSession CompositionState.beginEdit Document.beginTarget
    BeginCalls.env
  generalize hfound : (if attachExisting = true then rangeWithExactSuffix calls .tsf d text
    else .ok none) = found
  cases found with
  | error _ => simp [Except.isOk, Except.toBool]
  | ok attached =>
    cases attached with
    | some span =>
      have hsuffix : attachExisting = true ∧ d.exactSuffix (encodeUtf16 text) = some span := by
        split_ifs at hfound with hattach
        · exact ⟨hattach, exactSuffix_of_found hfound⟩
        · cases hfound
      obtain ⟨rfl, hsuffix⟩ := hsuffix
      simp only [Bool.true_and, if_true, hsuffix, Option.isNone_some, Option.isSome_some,
        Option.getD_some, Bool.and_false, Bool.false_eq_true, if_false, false_and,
        Document.restored, Except.isOk, Except.toBool, Bool.or_true, Bool.and_true,
        Bool.and_eq_false_iff, Bool.or_eq_false_iff]
      rw [← ite_or]
      apply if_congr
      · tauto
      · rfl
      · apply if_congr
        · tauto
        · rfl
        · rfl
    | none =>
      simp only [hnone, Option.isNone_none, Option.isSome_none, Option.getD_none, Bool.and_true,
        Bool.and_false, Bool.false_eq_true, if_false, true_and, Document.restored, Except.isOk,
        Except.toBool, Bool.or_false, Bool.and_eq_false_iff, Bool.or_eq_false_iff]
      rw [← ite_or, ← ite_or]
      apply if_congr
      · tauto
      · rfl
      · apply if_congr
        · tauto
        · rfl
        · rfl

end Begin

namespace Controller

/-- `Controller::begin` around the edit session that it requests. -/
def beginWith (k : Controller) (env again : TsfEnv) (edit : CompositionState → Document → Edited)
    (sessionId : String) (sequence : Int) (fullText : String) : Controller × TipResponse :=
  if k.composition.sessionId = some sessionId then
    (k, if k.composition.targetModified then .compositionTerminated else .begun sessionId)
  else if k.composition.sessionId ≠ none then (k, .rebindRejected)
  else
    match env.focused with
    | none => (k, .noFocus)
    | some context =>
      match k.startSession sessionId context env with
      | none => ((k.forceFinish context again).clear, .editRejected)
      | some k₁ =>
        match k₁.requestEdit context env edit with
        | (k₂, false) => ((k₂.forceFinish context again).clear, .editRejected)
        | (k₂, true) =>
          ({ k₂ with composition := k₂.composition.applied sequence fullText }, .begun sessionId)

/-- What a Begin that finds no session open leaves of the document in focus. -/
structure BeginAdopts (editor : Editor) (k : Controller) (env : TsfEnv) (sessionId text : String)
    (r : Controller × TipResponse) : Prop where
  begun : r.2 = .begun sessionId → ∀ context, env.focused = some context →
    (∃ range, r.1.composition.range = some range ∧
      (r.1.documents context).read range = editor.encode text ∧
      (r.1.documents context).selection = ⟨range.stop, range.stop⟩) ∧
    (r.1.documents context).text =
      if (k.documents context).EndsAtCaret (editor.encode text) then (k.documents context).text
      else ((k.documents context).replace (k.documents context).selection
        (editor.encode text)).text
  refused : r.2 ≠ .begun sessionId → ∀ context, (r.1.documents context).text =
    (k.documents context).text

variable {k k₁ : Controller} {env again : TsfEnv} {calls : BeginCalls} {editor : Editor}
  {id text : String} {n : Int} {context : Nat} {edit : CompositionState → Document → Edited}

theorem documents_forceFinish (k : Controller) (context : Nat) (env : TsfEnv) :
    (k.forceFinish context env).documents = k.documents := by
  apply requestEdit_documents
  simp only [doEdit, CompositionState.finishEdit]
  split_ifs <;> rfl

theorem documents_startSession (h : k.startSession id context env = some k₁) :
    k₁.documents = k.documents := by
  unfold startSession at h
  split_ifs at h
  obtain rfl := Option.some.inj h
  rfl

theorem beginAdopts_of_refused {r : Controller × TipResponse} (hanswer : r.2 ≠ .begun id)
    (hdocuments : r.1.documents = k.documents) : BeginAdopts editor k env id text r where
  begun h := absurd h hanswer
  refused _ context := by rw [hdocuments]

/-- A session that is open is not begun again, whatever the answer. -/
theorem beginWith_open (hopen : k.composition.sessionId ≠ none) :
    (k.beginWith env again edit id n text).1.documents = k.documents := by
  unfold beginWith
  split
  · rfl
  · rfl

/-- What is answered to a Begin is what its edit session has done to the document. -/
theorem beginAdopts_iff (hclosed : k.composition.sessionId = none)
    (hfocused : env.focused = some context) (hstart : k.startSession id context env = some k₁)
    (hlocked : env.locked = true) :
    BeginAdopts editor k env id text (k.beginWith env again edit id n text) ↔
      AdoptsOnce editor (k.documents context) text (k₁.doEdit context edit) := by
  have hdocuments := documents_startSession hstart
  have hnew : ¬k.composition.sessionId = some id := by
    rw [hclosed]
    exact fun h => nomatch h
  have hbegin : k.beginWith env again edit id n text =
      match k₁.requestEdit context env edit with
      | (k₂, false) => ((k₂.forceFinish context again).clear, .editRejected)
      | (k₂, true) =>
        ({ k₂ with composition := k₂.composition.applied n text }, .begun id) := by
    rw [beginWith, if_neg hnew, if_neg (not_not.2 hclosed), hfocused]
    dsimp only
    rw [hstart]
  rw [hbegin, requestEdit_locked hlocked]
  generalize k₁.doEdit context edit = r
  obtain ⟨state, document, ok⟩ := r
  cases ok with
  | false =>
    have hleft : ∀ other, (((k₁.setDocument context document).documents other).text =
        (k.documents other).text ↔ other = context → document.text =
          (k.documents context).text) := by
      intro other
      by_cases hother : other = context
      · subst hother
        simp [setDocument]
      · simp [setDocument, hother, hdocuments]
    constructor
    · intro h
      apply adoptsOnce_of_error rfl
      have htext := h.refused (fun hanswer => nomatch hanswer) context
      dsimp only [clear] at htext
      rw [documents_forceFinish] at htext
      exact (hleft context).1 htext rfl
    · intro h
      refine ⟨fun hanswer => (nomatch hanswer), fun _ other => ?_⟩
      dsimp only [clear]
      rw [documents_forceFinish]
      exact (hleft other).2 fun _ => h.unchanged rfl
  | true =>
    have hthere : (k₁.setDocument context document).documents context = document :=
      Function.update_self ..
    constructor
    · intro h
      obtain ⟨htracked, honce⟩ := h.begun rfl context hfocused
      dsimp only at htracked honce
      rw [hthere] at htracked honce
      exact ⟨fun _ => htracked, fun _ => honce, fun hok => nomatch hok⟩
    · intro h
      refine ⟨fun _ other hother => ?_, fun hanswer => absurd rfl hanswer⟩
      have hsame : context = other := Option.some.inj (hfocused.symm.trans hother)
      subst hsame
      dsimp only
      rw [hthere]
      exact ⟨h.tracked rfl, h.once rfl⟩

/-- What TSF answers to a Begin in front of the document `d`, with what its calls come to. -/
def beginEnv (env : TsfEnv) (calls : BeginCalls) (d : Document) (text : String) : TsfEnv :=
  { calls.env d text true with
    focused := env.focused, advised := env.advised, locked := env.locked }

theorem requestEdit_congr {locks : TsfEnv} {edit' : CompositionState → Document → Edited}
    (hlocked : locks.locked = env.locked)
    (hedit : ∀ c, edit c (k.documents context) = edit' c (k.documents context)) :
    k.requestEdit context env edit = k.requestEdit context locks edit' := by
  have hdo : k.doEdit context edit = k.doEdit context edit' := hedit _
  rw [requestEdit, requestEdit, hlocked, hdo]

/-- Where TSF shows the text, the Begin is the one of the text service. -/
theorem beginWith_tsf (hfocused : env.focused = some context) :
    k.beginWith env again (fun c d => c.beginSession d calls .tsf text true) id n text =
      k.begin (beginEnv env calls (k.documents context) text) again id n text true := by
  have hfocused' : (beginEnv env calls (k.documents context) text).focused = some context := hfocused
  unfold beginWith begin
  rw [hfocused, hfocused']
  by_cases hnew : k.composition.sessionId = some id
  · rw [if_pos hnew, if_pos hnew]
  rw [if_neg hnew, if_neg hnew]
  by_cases hopen : k.composition.sessionId = none
  · rw [if_neg (not_not.2 hopen), if_neg (not_not.2 hopen)]
    have hsame : k.startSession id context (beginEnv env calls (k.documents context) text) =
        k.startSession id context env := rfl
    dsimp only
    rw [hsame]
    cases hstart : k.startSession id context env with
    | none => rfl
    | some k₁ =>
      have hedit : k₁.requestEdit context env (fun c d => c.beginSession d calls .tsf text true) =
          k₁.requestEdit context (beginEnv env calls (k.documents context) text) fun c d =>
            c.beginEdit d (beginEnv env calls (k.documents context) text) text true := by
        apply requestEdit_congr rfl
        intro c
        rw [documents_startSession hstart]
        exact beginSession_tsf true
      dsimp only
      exact hedit ▸ rfl
  · rw [if_pos hopen, if_pos hopen]

/-- An attaching Begin adopts the text or sets it once, or fails without a trace, exactly when
nothing goes wrong around an insertion. A Begin for an open session leaves the documents alone.
Where TSF shows the text, it is the Begin of the text service in the other results. -/
theorem begin_attach (k : Controller) (env again : TsfEnv) (calls : BeginCalls) (editor : Editor)
    (id text : String) (n : Int) :
    (k.composition.sessionId ≠ none → (k.beginWith env again
      (fun c d => c.beginSession d calls editor text true) id n text).1.documents =
        k.documents) ∧
    (k.composition.sessionId = none → (∀ context, (k.documents context).Valid) →
      (BeginAdopts editor k env id text
        (k.beginWith env again (fun c d => c.beginSession d calls editor text true) id n text) ↔
      ∀ context, env.focused = some context → k.startSession id context env ≠ none →
        env.locked = true → InsertsOnce calls editor (k.documents context) text)) ∧
    ∀ context, env.focused = some context →
      k.beginWith env again (fun c d => c.beginSession d calls .tsf text true) id n text =
        k.begin (beginEnv env calls (k.documents context) text) again id n text true := by
  refine ⟨beginWith_open, ?_, fun context => beginWith_tsf⟩
  intro hclosed hvalid
  have hnew : ¬k.composition.sessionId = some id := by
    rw [hclosed]
    exact fun h => nomatch h
  cases hfocused : env.focused with
  | none =>
    apply iff_of_true
    · rw [beginWith, if_neg hnew, if_neg (not_not.2 hclosed), hfocused]
      exact beginAdopts_of_refused (fun h => nomatch h) rfl
    · intro context h
      cases h
  | some context =>
    cases hstart : k.startSession id context env with
    | none =>
      apply iff_of_true
      · rw [beginWith, if_neg hnew, if_neg (not_not.2 hclosed), hfocused]
        dsimp only
        rw [hstart]
        exact beginAdopts_of_refused (fun h => nomatch h) (documents_forceFinish _ _ _)
      · intro other hother hsome
        obtain rfl := Option.some.inj hother
        exact absurd hstart hsome
    | some k₁ =>
      cases hlocked : env.locked with
      | false =>
        apply iff_of_true
        · rw [beginWith, if_neg hnew, if_neg (not_not.2 hclosed), hfocused]
          have hrequest : ((k₁.requestEdit context env fun c d =>
              c.beginSession d calls editor text true).1.forceFinish context again).documents =
                k.documents := by
            rw [documents_forceFinish, requestEdit_rejected hlocked,
              ← documents_startSession hstart]
          simp only [hstart]
          rw [requestEdit_rejected hlocked] at hrequest ⊢
          exact beginAdopts_of_refused (fun h => by cases h) hrequest
        · intro _ _ _ h
          cases h
      | true =>
        rw [beginAdopts_iff hclosed hfocused hstart hlocked, doEdit,
          documents_startSession hstart, beginSession_adoptsOnce (hvalid context)]
        constructor
        · intro h other hother _ _
          obtain rfl := Option.some.inj hother
          exact h
        · intro h
          exact h context rfl (by rw [hstart]; exact Option.some_ne_none _) rfl

/-- The caret cannot be set: the Begin is rejected with its text in the document, and the next
one inserts the text again. -/
theorem rejected_begin_inserts : ∃ k₁ k₂ : Controller,
    ({} : Controller).beginWith {} {}
      (fun c d => c.beginSession d { caretSet := false } .tsf "a" true) "s" 1 "a" =
        (k₁, .editRejected) ∧
    (({} : Controller).documents 0).text = [] ∧ (k₁.documents 0).text = [97] ∧
    k₁.beginWith {} {} (fun c d => c.beginSession d {} .tsf "a" true) "s" 1 "a" =
      (k₂, .begun "s") ∧ (k₂.documents 0).text = [97, 97] ∧
    ¬BeginAdopts .tsf {} {} "s" "a" (k₁, .editRejected) := by
  refine ⟨_, _, rfl, rfl, rfl, rfl, rfl, ?_⟩
  intro h
  have htext := h.refused (fun hanswer => nomatch hanswer) 0
  cases htext

end Controller

end FlowType
