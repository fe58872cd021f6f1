import Mathlib.Logic.Function.Basic
import FlowType.Runs
import FlowType.Tip

/-! The text service of one thread in full: the composition of a session, the
documents it edits through TSF, and the notifications that reach it during and
between its edit sessions. An edit session is atomic; what TSF answers to each call
comes with the event. -/
namespace FlowType

def utf16Units (c : Char) : List Nat :=
  let n := c.val.toNat
  if n < 0x10000 then [n] else [0xD800 + (n - 0x10000) / 0x400, 0xDC00 + (n - 0x10000) % 0x400]

def encodeUtf16 (text : String) : List Nat := text.toList.flatMap utf16Units

structure Span where
  start : Nat
  stop : Nat
  deriving DecidableEq, Repr

structure Document where
  text : List Nat := []
  selection : Span := ⟨0, 0⟩
  deriving DecidableEq, Repr

namespace Document

def read (d : Document) (span : Span) : List Nat :=
  (d.text.drop span.start).take (span.stop - span.start)

def replace (d : Document) (span : Span) (units : List Nat) : Document :=
  { d with text := d.text.take span.start ++ units ++ d.text.drop span.stop }

/-- `set_caret_to_composition_end`. -/
def withCaret (d : Document) (position : Nat) : Document :=
  { d with selection := ⟨position, position⟩ }

/-- `range_with_exact_suffix` of the selection. -/
def exactSuffix (d : Document) (units : List Nat) : Option Span :=
  let span : Span := ⟨d.selection.start - units.length, d.selection.start⟩
  if units = [] ∨ d.selection.start ≠ d.selection.stop ∨ d.selection.start < units.length ∨
    d.read span ≠ units then none
  else some span

end Document

/-- `editSink` is the context whose edits are reported, `range` the extent of the
tracked range, which moves with the edits of its document. -/
structure CompositionState where
  sessionId : Option String := none
  sequence : Int := 0
  text : String := ""
  context : Option Nat := none
  composition : Bool := false
  range : Option Span := none
  editSink : Option Nat := none
  applyingRemoteEdit : Bool := false
  terminated : Bool := false
  targetModified : Bool := false
  deriving DecidableEq, Repr

/-- What TSF and the application answer. The `Ends` fields say that the sink of the
composition is told during the call that the composition has ended. -/
structure TsfEnv where
  focused : Option Nat := some 0
  advised : Bool := true
  /-- `RequestEditSession` runs the edit session, or accepts an asynchronous one. -/
  locked : Bool := true
  insertable : Bool := true
  /-- `GetText` and `GetSelection` succeed. -/
  readable : Bool := true
  /-- The editor is a Scintilla window that has the text before its caret. -/
  scintilla : Bool := false
  started : Bool := true
  startEnds : Bool := false
  written : Bool := true
  writeEnds : Bool := false
  caretSet : Bool := true
  ended : Bool := true
  endEnds : Bool := false
  deriving DecidableEq, Repr

structure BeginTarget where
  range : Span
  present : Bool
  document : Document

/-- The range of `EditSession::begin`. A Scintilla editor has its text deleted before
it is inserted again. -/
def Document.beginTarget (d : Document) (env : TsfEnv) (units : List Nat)
    (attachExisting : Bool) : BeginTarget :=
  match if attachExisting && env.readable then d.exactSuffix units else none with
  | some span => ⟨span, true, d⟩
  | none =>
    match if attachExisting && env.scintilla then d.exactSuffix units else none with
    | some span =>
      let d₁ := (d.replace span []).withCaret span.start
      ⟨d₁.selection, false, d₁⟩
    | none => ⟨d.selection, false, d⟩

structure Edited where
  state : CompositionState
  document : Document
  ok : Bool

namespace CompositionState

def applied (c : CompositionState) (sequence : Int) (text : String) : CompositionState :=
  { c with sequence := sequence, text := text }

def hasComposition (c : CompositionState) : Bool := !c.terminated && c.composition

/-- `matches_expected_range`, with one unit more read than expected. -/
def matchesExpectedRange (c : CompositionState) (d : Document) (range : Span) : Bool :=
  let expected := encodeUtf16 c.text
  decide ((d.read range).take (expected.length + 1) = expected) &&
    decide (d.selection.start = d.selection.stop) && decide (d.selection.start = range.stop)

/-- `none` is an error of TSF, or there is no range. -/
def matchesExpectedEditState (c : CompositionState) (d : Document) (env : TsfEnv) : Option Bool :=
  if env.readable then c.range.map (c.matchesExpectedRange d) else none

def markExternalEdit (c : CompositionState) : CompositionState := { c with targetModified := true }

def markTerminated (c : CompositionState) : CompositionState :=
  { c with terminated := true, composition := false, editSink := none }

def compositionTerminated (c : CompositionState) : CompositionState :=
  (if c.applyingRemoteEdit then c else c.markExternalEdit).markTerminated

/-- The sink is told of the end of the composition, or it is not. -/
def notified (c : CompositionState) (ends : Bool) : CompositionState :=
  if ends then c.compositionTerminated else c

/-- `EditSession::begin`. Only a success commits what the host has deleted. -/
def beginEdit (c : CompositionState) (d : Document) (env : TsfEnv) (text : String)
    (attachExisting : Bool) : Edited :=
  if env.insertable = false then ⟨c, d, false⟩
  else
    let units := encodeUtf16 text
    let target := d.beginTarget env units attachExisting
    let c₁ := { c with terminated := false }.notified env.startEnds
    if env.started = false ∨ c₁.terminated then ⟨c₁, d, false⟩
    else
      let c₂ := { c₁ with composition := true, range := some target.range, terminated := false }
      if target.present then
        ⟨c₂, if env.caretSet then d.withCaret target.range.stop else d, env.caretSet⟩
      else if env.written = false then ⟨c₂, d, false⟩
      else
        let stop := target.range.start + units.length
        let d₁ := target.document.replace target.range units
        ⟨{ c₂ with range := some ⟨target.range.start, stop⟩ }.notified env.writeEnds,
          if env.caretSet then d₁.withCaret stop else d₁, env.caretSet⟩

/-- The second half of `EditSession::update`: the text, then the caret. -/
def setText (c : CompositionState) (d : Document) (env : TsfEnv) (range : Span)
    (text : String) : Edited :=
  if env.written = false then ⟨c, d, false⟩
  else
    let units := encodeUtf16 text
    let stop := range.start + units.length
    let c₁ := { c with range := some ⟨range.start, stop⟩ }.notified env.writeEnds
    let d₁ := d.replace range units
    if c₁.targetModified then ⟨c₁, d₁, false⟩
    else ⟨c₁, if env.caretSet then d₁.withCaret stop else d₁, env.caretSet⟩

/-- `EditSession::update`. -/
def updateEdit (c : CompositionState) (d : Document) (env : TsfEnv) (text : String) : Edited :=
  if c.targetModified then ⟨c, d, false⟩
  else
    match c.matchesExpectedEditState d env, c.range with
    | some false, _ =>
      ⟨c.markExternalEdit.notified (c.composition && env.endEnds), d, false⟩
    | some true, some range => c.setText d env range text
    | _, _ => ⟨c, d, false⟩

/-- `EditSession::finish`; the phone's Finish validates the text, a forced one marks
the composition as terminated. -/
def finishEdit (c : CompositionState) (d : Document) (env : TsfEnv) (forced : Bool) : Edited :=
  if forced = false ∧ (c.targetModified ∨ c.matchesExpectedEditState d env ≠ some true) then
    ⟨c, d, false⟩
  else
    let c₁ := c.notified (c.composition && env.endEnds)
    ⟨if forced then c₁.markTerminated else c₁, d, !c.composition || env.ended⟩

end CompositionState

/-- An asynchronous ForceFinish that TSF has accepted; `session` is the ordinal of
the session it was requested for. -/
structure AsyncEdit where
  context : Nat
  session : Nat
  deriving DecidableEq, Repr

/-- `Controller` of the text service. `sessions` counts the sessions begun. -/
structure Controller where
  composition : CompositionState := {}
  documents : Nat → Document := fun _ => {}
  sessions : Nat := 0
  asynchronous : List AsyncEdit := []

namespace Controller

def setDocument (k : Controller) (context : Nat) (d : Document) : Controller :=
  { k with documents := Function.update k.documents context d }

/-- `DoEditSession` under the flag of `request_edit`. -/
def doEdit (k : Controller) (context : Nat) (edit : CompositionState → Document → Edited) :
    Edited :=
  edit { k.composition with applyingRemoteEdit := true } (k.documents context)

/-- `request_edit`: the flag is set while the edit session runs. -/
def requestEdit (k : Controller) (context : Nat) (env : TsfEnv)
    (edit : CompositionState → Document → Edited) : Controller × Bool :=
  if env.locked then
    let r := k.doEdit context edit
    ({ k.setDocument context r.document with
        composition := { r.state with applyingRemoteEdit := false } }, r.ok)
  else ({ k with composition := { k.composition with applyingRemoteEdit := false } }, false)

def forceFinish (k : Controller) (context : Nat) (env : TsfEnv) : Controller :=
  (k.requestEdit context env fun c d => c.finishEdit d env true).1

def clear (k : Controller) : Controller := { k with composition := {} }

/-- `none`: the edit sink could not be advised. -/
def startSession (k : Controller) (sessionId : String) (context : Nat) (env : TsfEnv) :
    Option Controller :=
  if k.composition.editSink = none ∧ env.advised = false then none
  else some { k with
    sessions := k.sessions + 1
    composition := { k.composition with
      editSink := some (k.composition.editSink.getD context)
      sessionId := some sessionId
      sequence := 0
      text := ""
      context := some context
      targetModified := false } }

def begin (k : Controller) (env again : TsfEnv) (sessionId : String) (sequence : Int)
    (fullText : String) (attachExisting : Bool) : Controller × TipResponse :=
  if k.composition.sessionId = some sessionId then
    (k, if k.composition.targetModified then .compositionTerminated else .begun sessionId)
  else if k.composition.sessionId ≠ none then (k, .rebindRejected)
  else
    match env.focused with
    | none => (k, .noFocus)
    | some context =>
      match k.startSession sessionId context env with
      | none => ((k.forceFinish context again).clear, .editRejected)
      | some k₁ =>
        match k₁.requestEdit context env fun c d => c.beginEdit d env fullText attachExisting with
        | (k₂, false) => ((k₂.forceFinish context again).clear, .editRejected)
        | (k₂, true) =>
          ({ k₂ with composition := k₂.composition.applied sequence fullText }, .begun sessionId)

def activeFocusedContext (k : Controller) (env : TsfEnv) : Option Nat :=
  env.focused.filter fun context => decide (k.composition.context = some context)

def update (k : Controller) (env : TsfEnv) (sessionId : String) (sequence : Int)
    (fullText : String) : Controller × TipResponse :=
  if k.composition.sessionId ≠ some sessionId then (k, .sessionMismatch)
  else if k.composition.targetModified then (k, .compositionTerminated)
  else if sequence < k.composition.sequence then (k, .applied sessionId k.composition.sequence)
  else if sequence = k.composition.sequence then
    (k, if k.composition.text = fullText then .applied sessionId sequence else .sequenceConflict)
  else
    match k.activeFocusedContext env with
    | none => (k, .noFocus)
    | some context =>
      match k.requestEdit context env fun c d => c.updateEdit d env fullText with
      | (k₁, false) =>
        (k₁, if k₁.composition.targetModified then .compositionTerminated else .editRejected)
      | (k₁, true) =>
        ({ k₁ with composition := k₁.composition.applied sequence fullText },
          .applied sessionId sequence)

def finish (k : Controller) (env : TsfEnv) (sessionId : String) (sequence : Int) :
    Controller × TipResponse :=
  if k.composition.sessionId ≠ some sessionId ∨ k.composition.sequence ≠ sequence then
    (k, .sessionMismatch)
  else if k.composition.targetModified then (k, .compositionTerminated)
  else
    match k.composition.context with
    | none => (k, .compositionTerminated)
    | some context =>
      match k.requestEdit context env fun c d => c.finishEdit d env false with
      | (k₁, false) => (k₁, .editRejected)
      | (k₁, true) => (k₁.clear, .finished sessionId sequence)

/-- The ForceFinish of `cancel` and `deactivate`. -/
def endComposition (k : Controller) (env : TsfEnv) : Controller :=
  match k.composition.context with
  | none => k
  | some context => if k.composition.hasComposition then k.forceFinish context env else k

def cancel (k : Controller) (env : TsfEnv) (sessionId : String) : Controller × TipResponse :=
  if k.composition.sessionId ≠ some sessionId then (k, .sessionMismatch)
  else ((k.endComposition env).clear, .cancelled sessionId)

def query (k : Controller) (sessionId : String) : TipResponse :=
  if k.composition.sessionId = some sessionId then
    if k.composition.targetModified then .compositionTerminated
    else .sessionActive sessionId k.composition.sequence
  else .sessionMismatch

/-- `again` is for the ForceFinish after a failed Begin. -/
def handleCommand (k : Controller) (env again : TsfEnv) : TipCommand → Controller × TipResponse
  | .begin sessionId sequence fullText attachExisting =>
    k.begin env again sessionId sequence fullText attachExisting
  | .update sessionId sequence fullText => k.update env sessionId sequence fullText
  | .finish sessionId sequence => k.finish env sessionId sequence
  | .cancel sessionId => k.cancel env sessionId
  | .query sessionId => (k, k.query sessionId)

def deactivate (k : Controller) (env : TsfEnv) : Controller := (k.endComposition env).clear

/-- `TextEditSink::OnEndEdit` for an edit that is not the text service's own. -/
def onEndEdit (k : Controller) (context : Nat) (env : TsfEnv) : Controller :=
  let c := k.composition
  if c.sessionId = none ∨ c.applyingRemoteEdit ∨ c.terminated ∨ c.targetModified then k
  else if c.matchesExpectedEditState (k.documents context) env ≠ some false then k
  else
    let k₁ := { k with composition := c.markExternalEdit }
    if c.hasComposition && env.locked then
      { k₁ with asynchronous := k.asynchronous ++ [⟨context, k.sessions⟩] }
    else k₁

/-- A notification, under the flag of `request_edit` or not. -/
def during (k : Controller) (within : Bool) (notify : Controller → Controller) : Controller :=
  let k₁ := notify { k with composition := { k.composition with applyingRemoteEdit := within } }
  { k₁ with composition := { k₁.composition with applyingRemoteEdit := false } }

inductive Event
  | command (command : TipCommand) (env again : TsfEnv)
  | deactivate (env : TsfEnv)
  /-- The user or the application edits a document or moves its caret; the tracked
  range moves with it. With `within` this is reported before a request of the text
  service itself returns. -/
  | foreign (context : Nat) (document : Document) (range : Span) (within : Bool) (env : TsfEnv)
  /-- `OnCompositionTerminated`, with `within` before a request of the text service
  itself returns. -/
  | terminated (within : Bool)
  /-- An asynchronous edit session is granted. -/
  | grant (index : Nat) (env : TsfEnv)
  /-- TSF drops an asynchronous edit session. -/
  | drop (index : Nat)

/-- A foreign edit, before it is reported. -/
def edit (k : Controller) (context : Nat) (document : Document) (range : Span) : Controller :=
  { k.setDocument context document with
    composition := { k.composition with
      range := if k.composition.context = some context then k.composition.range.map fun _ => range
        else k.composition.range } }

/-- The edit session of `request_async_force_finish`: no flag is set, and the state is
the one of whatever session is open now. -/
def granted (k : Controller) (entry : AsyncEdit) (env : TsfEnv) : Controller :=
  let r := k.composition.finishEdit (k.documents entry.context) env true
  { k.setDocument entry.context r.document with composition := r.state }

def step (k : Controller) : Event → Option Controller
  | .command command env again => some (k.handleCommand env again command).1
  | .deactivate env => some (k.deactivate env)
  | .foreign context document range within env =>
    let k₁ := k.edit context document range
    some (if k.composition.editSink = some context then
      k₁.during within fun k => k.onEndEdit context env
    else k₁)
  | .terminated within => some (k.during within fun k =>
    { k with composition := k.composition.compositionTerminated })
  | .grant index env => k.asynchronous[index]?.map fun entry =>
    { k with asynchronous := k.asynchronous.eraseIdx index }.granted entry env
  | .drop index => some { k with asynchronous := k.asynchronous.eraseIdx index }

end Controller

end FlowType
