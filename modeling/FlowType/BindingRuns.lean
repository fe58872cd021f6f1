import FlowType.SocketClient

/-! The computer bindings over runs of the phone: what the user does with the list of
computers, what the handlers of earlier connections write to it, and the client with its
own copy of a binding. Text, files and control connections are left out; where they
decide what happens, the events say so. -/
namespace FlowType

inductive BindingRun.Posted
  | ready (binding : BindingStore.Binding)
  | pairingInvalid (binding : BindingStore.Binding)
  | switchComputer (pcId : String)
  | chosen (winner fallback : Option BindingStore.Binding)
  deriving DecidableEq, Repr

/-- A probe of `AutoSelectionCoordinator.choose` that has not been answered. -/
structure BindingRun.Probe where
  candidates : List BindingStore.Binding
  fallback : Option BindingStore.Binding
  deriving DecidableEq, Repr

/-- `renamed` and `removed` are history: the name of the last rename of a computer since
it was paired, and whether it was unbound since. -/
structure BindingRun where
  bindings : BindingStore.Computers := KeyedTable.empty
  computers : List BindingStore.Binding := []
  currentBinding : Option BindingStore.Binding := none
  client : SocketClient := {}
  connectivityRunning : Bool := false
  autoSelecting : Bool := false
  autoSelectionTargetPcId : Option String := none
  probing : Option BindingRun.Probe := none
  posted : List BindingRun.Posted := []
  renamed : String → Option String := fun _ => none
  removed : String → Bool := fun _ => false

namespace BindingRun
open Machine BindingStore

def Posted.ofCallback? : SocketClient.Callback → Option Posted
  | .ready binding => some (.ready binding)
  | .pairingInvalid binding => some (.pairingInvalid binding)
  | .switchComputer pcId _ => some (.switchComputer pcId)
  | _ => none

def called (s : BindingRun) (client : SocketClient) : BindingRun :=
  { s with client, posted := s.posted ++ client.calls.filterMap Posted.ofCallback? }

/-- The bindings after a write, with `refreshBindings`. -/
def withBindings (s : BindingRun) (bindings : Computers) : BindingRun :=
  { s with bindings, computers := bindings.list }

def isCurrent (s : BindingRun) (pcId : String) : Bool :=
  decide (s.currentBinding.map (·.pcId) = some pcId)

def clearAutoSelection (s : BindingRun) : BindingRun :=
  { s with autoSelecting := false, autoSelectionTargetPcId := none, probing := none }

def connect (s : BindingRun) (out : SocketClient.Outside) (binding : BindingStore.Binding) :
    BindingRun :=
  { s with
    currentBinding := some binding
    client := s.client.connect out binding }

def switchToComputer (s : BindingRun) (out : SocketClient.Outside)
    (binding : BindingStore.Binding) : BindingRun :=
  { s with client := s.client.resetForTargetSelection }.clearAutoSelection.connect out binding

def acceptBinding (s : BindingRun) (out : SocketClient.Outside) (now : Nat)
    (binding : BindingStore.Binding) : BindingRun :=
  (s.withBindings (s.bindings.save binding now)).switchToComputer out binding

def selectComputer (s : BindingRun) (out : SocketClient.Outside) (now : Nat) (pcId : String) :
    BindingRun :=
  match s.bindings.select pcId now with
  | none => s
  | some (bindings, binding) =>
    let s₁ := s.withBindings bindings
    if s.isCurrent binding.pcId then { s₁ with client := s₁.client.forceReconnect out }
    else s₁.switchToComputer out binding

/-- A blank name throws. -/
def renameComputer (s : BindingRun) (pcId name : String) : Option BindingRun :=
  (s.bindings.rename pcId name).map fun bindings =>
    let s₁ := s.withBindings bindings
    { s₁ with currentBinding := s.currentBinding.bind fun current =>
        s₁.computers.find? fun binding => decide (binding.pcId = current.pcId) }

def fallBack (s : BindingRun) (out : SocketClient.Outside) : BindingRun :=
  match s.computers with
  | [] => { s with currentBinding := none }
  | binding :: _ => { s with client := s.client.resetForTargetSelection }.connect out binding

/-- A session of the phone is abandoned before the client is shut down. -/
def unbindComputer (s : BindingRun) (out : SocketClient.Outside) (now : Nat) (session : Bool)
    (pcId : String) : BindingRun :=
  if s.isCurrent pcId then
    let client := if session then s.client.abandonSession out else s.client
    ({ s with client := client.shutdown }.withBindings (s.bindings.remove pcId now)).fallBack out
  else s.withBindings (s.bindings.remove pcId now)

def failAutoSelection (s : BindingRun) (out : SocketClient.Outside)
    (fallback : Option BindingStore.Binding) : BindingRun :=
  let s₁ := { s with autoSelecting := false, autoSelectionTargetPcId := none }
  match fallback with
  | none => s₁
  | some binding => s₁.connect out binding

/-- `conflict` says that the winner has a draft of its own. -/
def onChosen (s : BindingRun) (out : SocketClient.Outside) (conflict : Bool)
    (winner fallback : Option BindingStore.Binding) : BindingRun :=
  if s.autoSelecting = false then s
  else
    match winner with
    | none => s.failAutoSelection out fallback
    | some binding =>
      let s₁ := { s with autoSelectionTargetPcId := some binding.pcId }
      if conflict then s₁.failAutoSelection out fallback else s₁.connect out binding

/-- Past its guard on the session; a single candidate is chosen at once. -/
def beginAutoSelection (s : BindingRun) (out : SocketClient.Outside) (conflict : Bool) :
    BindingRun :=
  if s.autoSelecting then s
  else
    let fallback := s.currentBinding
    match s.computers.filter fun binding => decide (binding.pairingToken = none) with
    | [] => s.failAutoSelection out fallback
    | candidates =>
      let s₁ := { s with
        autoSelecting := true
        autoSelectionTargetPcId := none
        probing := none
        client := s.client.resetForTargetSelection }
      match candidates with
      | [winner] => s₁.onChosen out conflict (some winner) fallback
      | _ => { s₁ with probing := some ⟨candidates, fallback⟩ }

/-- The answer of a probe. -/
def probed (s : BindingRun) (winner : Option BindingStore.Binding) : Option BindingRun :=
  s.probing.bind fun probe =>
    if ∀ binding ∈ winner, binding ∈ probe.candidates then
      some { s with probing := none, posted := s.posted ++ [.chosen winner probe.fallback] }
    else none

/-- `automatic` says that an automatic selection follows. -/
def resumeConnectivity (s : BindingRun) (out : SocketClient.Outside) (automatic conflict : Bool) :
    BindingRun :=
  if s.connectivityRunning then s
  else
    let s₁ := { s with connectivityRunning := true }
    let s₂ := match s.currentBinding with
      | none => s₁
      | some binding => s₁.connect out binding
    if automatic then s₂.beginAutoSelection out conflict else s₂

def suspendConnectivity (s : BindingRun) : BindingRun :=
  if s.connectivityRunning = false then s
  else { s.clearAutoSelection with
    connectivityRunning := false
    client := s.client.shutdown }

def ensureConnected (s : BindingRun) (out : SocketClient.Outside) (automatic conflict : Bool) :
    BindingRun :=
  let s₁ := s.resumeConnectivity out automatic conflict
  { s₁ with client := s₁.client.ensureConnected out }

def switchFromWindows (s : BindingRun) (out : SocketClient.Outside) (now : Nat)
    (automatic conflict : Bool) (pcId : String) : BindingRun :=
  match s.bindings.select pcId now with
  | none => s
  | some (bindings, binding) =>
    let s₁ := s.withBindings bindings
    if s.isCurrent binding.pcId then s₁.ensureConnected out automatic conflict
    else s₁.switchToComputer out binding

/-- The binding that the handler carries is saved as a whole row. -/
def onReady (s : BindingRun) (now : Nat) (binding : BindingStore.Binding) : BindingRun :=
  let r := s.bindings.markPaired binding now
  let s₁ := { s with currentBinding := some r.2 }.withBindings r.1
  if s.autoSelecting ∧ s.autoSelectionTargetPcId = some binding.pcId then
    { s₁ with autoSelecting := false, autoSelectionTargetPcId := none }
  else s₁

def onPairingInvalid (s : BindingRun) (out : SocketClient.Outside) (now : Nat)
    (binding : BindingStore.Binding) : BindingRun :=
  (s.withBindings (s.bindings.remove binding.pcId now)).fallBack out

def recoveryBinding (computers : List BindingStore.Binding) (recoverablePcId : Option String) :
    Option BindingStore.Binding :=
  (computers.find? fun binding => decide (some binding.pcId = recoverablePcId)).or computers.head?

/-- `start` after the process has died: only the database is left. -/
def newProcess (s : BindingRun) (recoverablePcId : Option String) : BindingRun :=
  { bindings := s.bindings
    computers := s.bindings.list
    currentBinding := recoveryBinding s.bindings.list recoverablePcId
    renamed := s.renamed
    removed := s.removed }

def ownAction : SocketClient.Action → Bool
  | .connect _ => false
  | .ensureConnected => false
  | .forceReconnect => false
  | .shutdown => false
  | .resetForTargetSelection => false
  | _ => true

inductive Action
  | acceptBinding (binding : BindingStore.Binding)
  | selectComputer (pcId : String)
  | renameComputer (pcId name : String)
  | unbindComputer (session : Bool) (pcId : String)
  | switchFromWindows (pcId : String)
  | beginAutoSelection
  | clearAutoSelection
  | probed (winner : Option BindingStore.Binding)
  | resumeConnectivity
  | suspendConnectivity
  | ensureConnected
  | client (action : SocketClient.Action)
  | runPosted
  | newProcess (recoverablePcId : Option String)
  deriving DecidableEq, Repr

/-- An action with what comes from outside: the clock of the database, the socket, and
what text and drafts decide. -/
structure Event where
  action : Action
  now : Nat := 0
  out : SocketClient.Outside := {}
  automatic : Bool := false
  conflict : Bool := false
  deriving DecidableEq, Repr

def runPosted (s : BindingRun) (e : Event) : Posted → BindingRun
  | .ready binding => s.onReady e.now binding
  | .pairingInvalid binding =>
    { s.onPairingInvalid e.out e.now binding with
      renamed := Function.update s.renamed binding.pcId none }
  | .switchComputer pcId => s.switchFromWindows e.out e.now e.automatic e.conflict pcId
  | .chosen winner fallback => s.onChosen e.out e.conflict winner fallback

def step (s : BindingRun) (e : Event) : Option BindingRun :=
  match e.action with
  | .acceptBinding binding => some { s.acceptBinding e.out e.now binding with
      renamed := Function.update s.renamed binding.pcId none
      removed := Function.update s.removed binding.pcId false }
  | .selectComputer pcId => some (s.selectComputer e.out e.now pcId)
  | .renameComputer pcId name => (s.renameComputer pcId name).map fun t => { t with
      renamed := if (s.bindings.get pcId).isSome then
          Function.update s.renamed pcId (some (trim name))
        else s.renamed }
  | .unbindComputer session pcId => some { s.unbindComputer e.out e.now session pcId with
      renamed := Function.update s.renamed pcId none
      removed := Function.update s.removed pcId true }
  | .switchFromWindows pcId =>
    some (s.switchFromWindows e.out e.now e.automatic e.conflict pcId)
  | .beginAutoSelection => some (s.beginAutoSelection e.out e.conflict)
  | .clearAutoSelection => some s.clearAutoSelection
  | .probed winner => s.probed winner
  | .resumeConnectivity => some (s.resumeConnectivity e.out e.automatic e.conflict)
  | .suspendConnectivity => some s.suspendConnectivity
  | .ensureConnected => some (s.ensureConnected e.out e.automatic e.conflict)
  | .client action =>
    if ownAction action then (s.client.step ⟨action, e.out⟩).map s.called else none
  | .runPosted =>
    match s.posted with
    | [] => none
    | posted :: rest => some ({ s with posted := rest }.runPosted e posted)
  | .newProcess recoverablePcId => some (s.newProcess recoverablePcId)

/-- The list of computers shows the table, a renamed computer with the name of its last
rename and an unbound one not at all; one binding is selected if there is any. -/
structure Sound (s : BindingRun) : Prop where
  shown : s.computers = s.bindings.list
  names : ∀ pcId name, s.renamed pcId = some name →
    (∃ binding ∈ s.computers, binding.pcId = pcId) ∧
      ∀ binding ∈ s.computers, binding.pcId = pcId → binding.pcName = name
  gone : ∀ pcId, s.removed pcId = true → ∀ binding ∈ s.computers, binding.pcId ≠ pcId
  one : s.bindings.OneSelected

/-- A `ready` that is handled carries a computer that was not unbound, under the name of
its last rename. -/
def HandlerOk (s : BindingRun) (e : Event) : Prop :=
  e.action = .runPosted → ∀ binding, s.posted.head? = some (.ready binding) →
    s.removed binding.pcId = false ∧ ∀ name ∈ s.renamed binding.pcId, binding.pcName = name

/-- What a property of the bindings reads. -/
structure Consistent (bindings : Computers) (computers : List BindingStore.Binding)
    (renamed : String → Option String) (removed : String → Bool) : Prop where
  shown : computers = bindings.list
  names : ∀ pcId name, renamed pcId = some name →
    ∀ pcName, bindings.Shows pcId pcName ↔ pcName = name
  gone : ∀ pcId, removed pcId = true → ∀ pcName, ¬ bindings.Shows pcId pcName
  one : bindings.OneSelected

def Inv (s : BindingRun) : Prop := Consistent s.bindings s.computers s.renamed s.removed

theorem shows_iff {bindings : Computers} {pcId pcName : String} :
    bindings.Shows pcId pcName ↔
      ∃ binding ∈ bindings.list, binding.pcId = pcId ∧ binding.pcName = pcName := by
  constructor
  · rintro ⟨row, hrow, rfl, rfl⟩
    exact ⟨row.binding, Computers.mem_list.mpr ⟨row, hrow, rfl⟩, rfl, rfl⟩
  · rintro ⟨binding, hmem, rfl, rfl⟩
    obtain ⟨row, hrow, rfl⟩ := Computers.mem_list.mp hmem
    exact ⟨row, hrow, rfl, rfl⟩

theorem Inv.sound {s : BindingRun} (h : s.Inv) : s.Sound := by
  have hshown := h.shown
  constructor
  · exact hshown
  · intro pcId name hname
    rw [hshown]
    constructor
    · obtain ⟨binding, hmem, hid, -⟩ := shows_iff.mp ((h.names pcId name hname name).mpr rfl)
      exact ⟨binding, hmem, hid⟩
    · intro binding hmem hid
      exact (h.names pcId name hname _).mp (shows_iff.mpr ⟨binding, hmem, hid, rfl⟩)
  · intro pcId hgone binding hmem hid
    rw [hshown] at hmem
    exact h.gone pcId hgone _ (shows_iff.mpr ⟨binding, hmem, hid, rfl⟩)
  · exact h.one

theorem start_inv : Inv {} := by
  constructor
  · rfl
  · rintro _ _ ⟨⟩
  · rintro _ ⟨⟩
  · exact Computers.oneSelected_empty

/-- Nothing that a property of the bindings reads has changed, or the table was only
rewritten with what it held. -/
structure Keeps (s t : BindingRun) : Prop where
  shows : ∀ pcId pcName, t.bindings.Shows pcId pcName ↔ s.bindings.Shows pcId pcName
  shown : s.computers = s.bindings.list → t.computers = t.bindings.list
  one : s.bindings.OneSelected → t.bindings.OneSelected
  renamed : t.renamed = s.renamed
  removed : t.removed = s.removed

theorem Keeps.refl (s : BindingRun) : Keeps s s :=
  ⟨fun _ _ => Iff.rfl, id, id, rfl, rfl⟩

theorem Keeps.trans {s t u : BindingRun} (h : Keeps s t) (h' : Keeps t u) : Keeps s u where
  shows pcId pcName := (h'.shows pcId pcName).trans (h.shows pcId pcName)
  shown hs := h'.shown (h.shown hs)
  one hs := h'.one (h.one hs)
  renamed := h'.renamed.trans h.renamed
  removed := h'.removed.trans h.removed

theorem Keeps.inv {s t : BindingRun} (h : Keeps s t) (hs : s.Inv) : t.Inv := by
  constructor
  · exact h.shown hs.shown
  · intro pcId name hname pcName
    rw [h.renamed] at hname
    rw [h.shows]
    exact hs.names pcId name hname pcName
  · intro pcId hgone pcName
    rw [h.removed] at hgone
    rw [h.shows]
    exact hs.gone pcId hgone pcName
  · exact h.one hs.one

theorem connect_keeps (s : BindingRun) (out : SocketClient.Outside)
    (binding : BindingStore.Binding) : Keeps s (s.connect out binding) :=
  ⟨fun _ _ => Iff.rfl, id, id, rfl, rfl⟩

theorem switchToComputer_keeps (s : BindingRun) (out : SocketClient.Outside)
    (binding : BindingStore.Binding) : Keeps s (s.switchToComputer out binding) :=
  ⟨fun _ _ => Iff.rfl, id, id, rfl, rfl⟩

theorem failAutoSelection_keeps (s : BindingRun) (out : SocketClient.Outside)
    (fallback : Option BindingStore.Binding) : Keeps s (s.failAutoSelection out fallback) := by
  unfold failAutoSelection
  cases fallback with
  | none => exact ⟨fun _ _ => Iff.rfl, id, id, rfl, rfl⟩
  | some binding => exact ⟨fun _ _ => Iff.rfl, id, id, rfl, rfl⟩

theorem onChosen_keeps (s : BindingRun) (out : SocketClient.Outside) (conflict : Bool)
    (winner fallback : Option BindingStore.Binding) :
    Keeps s (s.onChosen out conflict winner fallback) := by
  unfold onChosen
  split
  · exact Keeps.refl s
  · cases winner with
    | none => exact failAutoSelection_keeps s out fallback
    | some binding =>
      have htarget : Keeps s { s with autoSelectionTargetPcId := some binding.pcId } :=
        ⟨fun _ _ => Iff.rfl, id, id, rfl, rfl⟩
      dsimp only
      split
      · exact htarget.trans (failAutoSelection_keeps _ out fallback)
      · exact htarget.trans (connect_keeps _ out binding)

theorem beginAutoSelection_keeps (s : BindingRun) (out : SocketClient.Outside) (conflict : Bool) :
    Keeps s (s.beginAutoSelection out conflict) := by
  unfold beginAutoSelection
  split
  · exact Keeps.refl s
  · dsimp only
    have hbegun : Keeps s { s with
        autoSelecting := true
        autoSelectionTargetPcId := none
        probing := none
        client := s.client.resetForTargetSelection } :=
      ⟨fun _ _ => Iff.rfl, id, id, rfl, rfl⟩
    split
    · exact failAutoSelection_keeps s out s.currentBinding
    · split
      · next winner _ => exact hbegun.trans (onChosen_keeps _ out conflict (some winner) _)
      · exact ⟨fun _ _ => Iff.rfl, id, id, rfl, rfl⟩

theorem resumeConnectivity_keeps (s : BindingRun) (out : SocketClient.Outside)
    (automatic conflict : Bool) : Keeps s (s.resumeConnectivity out automatic conflict) := by
  unfold resumeConnectivity
  split
  · exact Keeps.refl s
  · dsimp only
    have hconnected : Keeps s (match s.currentBinding with
        | none => { s with connectivityRunning := true }
        | some binding => { s with connectivityRunning := true }.connect out binding) := by
      split
      · exact ⟨fun _ _ => Iff.rfl, id, id, rfl, rfl⟩
      · exact ⟨fun _ _ => Iff.rfl, id, id, rfl, rfl⟩
    split
    · exact hconnected.trans (beginAutoSelection_keeps _ out conflict)
    · exact hconnected

theorem ensureConnected_keeps (s : BindingRun) (out : SocketClient.Outside)
    (automatic conflict : Bool) : Keeps s (s.ensureConnected out automatic conflict) :=
  (resumeConnectivity_keeps s out automatic conflict).trans
    ⟨fun _ _ => Iff.rfl, id, id, rfl, rfl⟩

theorem suspendConnectivity_keeps (s : BindingRun) : Keeps s s.suspendConnectivity := by
  unfold suspendConnectivity
  split
  · exact Keeps.refl s
  · exact ⟨fun _ _ => Iff.rfl, id, id, rfl, rfl⟩

theorem select_keeps {s : BindingRun} {pcId : String} {now : Nat} {bindings : Computers}
    {binding : BindingStore.Binding} (h : s.bindings.select pcId now = some (bindings, binding)) :
    Keeps s (s.withBindings bindings) :=
  ⟨fun _ _ => Computers.shows_select h, fun _ => rfl, fun _ => Computers.OneSelected.select h,
    rfl, rfl⟩

theorem selectComputer_keeps (s : BindingRun) (out : SocketClient.Outside) (now : Nat)
    (pcId : String) : Keeps s (s.selectComputer out now pcId) := by
  unfold selectComputer
  split
  · exact Keeps.refl s
  · next bindings binding hselect =>
    dsimp only
    split
    · exact (select_keeps hselect).trans ⟨fun _ _ => Iff.rfl, id, id, rfl, rfl⟩
    · exact (select_keeps hselect).trans (switchToComputer_keeps _ out binding)

theorem switchFromWindows_keeps (s : BindingRun) (out : SocketClient.Outside) (now : Nat)
    (automatic conflict : Bool) (pcId : String) :
    Keeps s (s.switchFromWindows out now automatic conflict pcId) := by
  unfold switchFromWindows
  split
  · exact Keeps.refl s
  · next bindings binding hselect =>
    dsimp only
    split
    · exact (select_keeps hselect).trans (ensureConnected_keeps _ out automatic conflict)
    · exact (select_keeps hselect).trans (switchToComputer_keeps _ out binding)

/-- A pairing begins the history of its computer anew. -/
theorem accepted_consistent {s : BindingRun} (hinv : s.Inv) (binding : BindingStore.Binding)
    (now : Nat) :
    Consistent (s.bindings.save binding now) (s.bindings.save binding now).list
      (Function.update s.renamed binding.pcId none)
      (Function.update s.removed binding.pcId false) := by
  have hother : ∀ pcId, pcId ≠ binding.pcId → ∀ pcName,
      (s.bindings.save binding now).Shows pcId pcName ↔ s.bindings.Shows pcId pcName := by
    intro pcId hne pcName
    rw [Computers.shows_save]
    simp [hne]
  constructor
  · rfl
  · intro pcId name hname pcName
    by_cases hid : pcId = binding.pcId
    · rw [hid, Function.update_self] at hname
      cases hname
    · rw [Function.update_of_ne hid] at hname
      exact (hother pcId hid pcName).trans (hinv.names pcId name hname pcName)
  · intro pcId hgone pcName
    by_cases hid : pcId = binding.pcId
    · rw [hid, Function.update_self] at hgone
      cases hgone
    · rw [Function.update_of_ne hid] at hgone
      exact mt (hother pcId hid pcName).mp (hinv.gone pcId hgone pcName)
  · exact Computers.oneSelected_save s.bindings binding now

/-- Removing a computer, whether or not its removal is remembered. -/
theorem removed_consistent {s : BindingRun} (hinv : s.Inv) (pcId : String) (now : Nat)
    {removed : String → Bool} (hremoved : removed = s.removed ∨
      removed = Function.update s.removed pcId true) :
    Consistent (s.bindings.remove pcId now) (s.bindings.remove pcId now).list
      (Function.update s.renamed pcId none) removed := by
  constructor
  · rfl
  · intro other name hname pcName
    by_cases hid : other = pcId
    · rw [hid, Function.update_self] at hname
      cases hname
    · rw [Function.update_of_ne hid] at hname
      have hshows : (s.bindings.remove pcId now).Shows other pcName ↔
          s.bindings.Shows other pcName := by
        rw [Computers.shows_remove]
        exact and_iff_left hid
      exact hshows.trans (hinv.names other name hname pcName)
  · intro other hgone pcName hshows
    obtain ⟨hbefore, hne⟩ := Computers.shows_remove.mp hshows
    have hold : s.removed other = true := by
      rcases hremoved with rfl | rfl
      · exact hgone
      · rwa [Function.update_of_ne hne] at hgone
    exact hinv.gone other hold pcName hbefore
  · exact hinv.one.remove pcId now

theorem get_isSome {bindings : Computers} {pcId : String} :
    (bindings.get pcId).isSome = true ↔ ∃ pcName, bindings.Shows pcId pcName := by
  constructor
  · intro h
    obtain ⟨binding, hget⟩ := Option.isSome_iff_exists.mp h
    obtain ⟨row, hrow, hid, -⟩ := Computers.get_eq_some hget
    exact ⟨row.pcName, row, hrow, hid, rfl⟩
  · rintro ⟨pcName, row, hrow, hid, -⟩
    have hmem : row.binding ∈ bindings.query fun row => decide (row.pcId = pcId) :=
      Computers.mem_query.mpr ⟨row, hrow, decide_eq_true hid, rfl⟩
    unfold Computers.get
    cases hquery : bindings.query fun row => decide (row.pcId = pcId) with
    | nil =>
      rw [hquery] at hmem
      cases hmem
    | cons binding rest => rfl

theorem renamed_consistent {s : BindingRun} (hinv : s.Inv) {pcId name : String}
    {bindings : Computers} (h : s.bindings.rename pcId name = some bindings) :
    Consistent bindings bindings.list
      (if (s.bindings.get pcId).isSome then Function.update s.renamed pcId (some (trim name))
        else s.renamed) s.removed := by
  have hother : ∀ other, other ≠ pcId → ∀ pcName,
      bindings.Shows other pcName ↔ s.bindings.Shows other pcName := by
    intro other hne pcName
    rw [Computers.shows_rename h]
    simp [hne]
  have hunbound : (∀ pcName, ¬ s.bindings.Shows pcId pcName) →
      ∀ pcName, ¬ bindings.Shows pcId pcName := by
    intro hnone pcName hshows
    rcases (Computers.shows_rename h).mp hshows with ⟨hbefore, -⟩ | ⟨-, -, old, hbefore⟩
    · exact hnone pcName hbefore
    · exact hnone old hbefore
  constructor
  · rfl
  · intro other newName hname pcName
    by_cases hid : other = pcId
    · subst hid
      split at hname
      · next hbound =>
        rw [Function.update_self] at hname
        cases hname
        obtain ⟨old, hbefore⟩ := get_isSome.mp hbound
        refine (Computers.shows_rename h).trans ⟨?_, fun heq => Or.inr ⟨rfl, heq, old, hbefore⟩⟩
        rintro (⟨-, hne⟩ | ⟨-, heq, -⟩)
        · exact absurd rfl hne
        · exact heq
      · next hbound =>
        -- A computer that is not in the table was not renamed before.
        have hbefore := (hinv.names other newName hname newName).mpr rfl
        exact absurd (get_isSome.mpr ⟨newName, hbefore⟩) hbound
    · have hbefore : s.renamed other = some newName := by
        split at hname
        · rwa [Function.update_of_ne hid] at hname
        · exact hname
      exact (hother other hid pcName).trans (hinv.names other newName hbefore pcName)
  · intro other hgone pcName
    by_cases hid : other = pcId
    · subst hid
      exact hunbound (hinv.gone other hgone) pcName
    · exact mt (hother other hid pcName).mp (hinv.gone other hgone pcName)
  · exact hinv.one.rename h

/-- Writing back the copy that a handler carries is right exactly when the computer is
still bound and the copy has its name. -/
theorem onReady_keeps {s : BindingRun} (hinv : s.Inv) (now : Nat) (binding : BindingStore.Binding) :
    let ok := s.removed binding.pcId = false ∧
      ∀ name ∈ s.renamed binding.pcId, binding.pcName = name
    ((s.onReady now binding).Sound ↔ ok) ∧ (ok → (s.onReady now binding).Inv) := by
  have hsaved : ∀ pcId pcName,
      (s.bindings.save binding.pairedAtCurrentEndpoint now).Shows pcId pcName ↔
        (s.bindings.Shows pcId pcName ∧ pcId ≠ binding.pcId) ∨
          (pcId = binding.pcId ∧ pcName = binding.pcName) := fun _ _ => Computers.shows_save
  have hcomponents : (s.onReady now binding).bindings =
        s.bindings.save binding.pairedAtCurrentEndpoint now ∧
      (s.onReady now binding).computers =
        (s.bindings.save binding.pairedAtCurrentEndpoint now).list ∧
      (s.onReady now binding).renamed = s.renamed ∧
      (s.onReady now binding).removed = s.removed := by
    unfold onReady
    dsimp only
    split
    · exact ⟨rfl, rfl, rfl, rfl⟩
    · exact ⟨rfl, rfl, rfl, rfl⟩
  obtain ⟨hbindings, hcomputers, hrenamed, hremoved⟩ := hcomponents
  have hinv' : (s.removed binding.pcId = false ∧
      ∀ name ∈ s.renamed binding.pcId, binding.pcName = name) → (s.onReady now binding).Inv := by
    rintro ⟨hbound, hname⟩
    unfold Inv
    rw [hbindings, hcomputers, hrenamed, hremoved]
    constructor
    · rfl
    · intro pcId name hrename pcName
      rw [hsaved]
      by_cases hid : pcId = binding.pcId
      · subst hid
        have hcopy := hname name hrename
        simp [hcopy]
      · simp [hid, hinv.names pcId name hrename pcName]
    · intro pcId hgone pcName hshows
      rcases (hsaved pcId pcName).mp hshows with ⟨hbefore, -⟩ | ⟨rfl, -⟩
      · exact hinv.gone pcId hgone pcName hbefore
      · rw [hbound] at hgone
        cases hgone
    · exact Computers.oneSelected_save _ _ now
  refine ⟨⟨fun hsound => ?_, fun hok => (hinv' hok).sound⟩, hinv'⟩
  obtain ⟨written, hmem, hid, hname⟩ := shows_iff.mp ((hsaved binding.pcId binding.pcName).mpr
    (Or.inr ⟨rfl, rfl⟩))
  rw [← hcomputers] at hmem
  constructor
  · by_contra hgone
    rw [Bool.not_eq_false, ← hremoved] at hgone
    exact hsound.gone binding.pcId hgone written hmem hid
  · intro name hrename
    rw [← hrenamed] at hrename
    rw [← hname]
    exact (hsound.names binding.pcId name hrename).2 written hmem hid

theorem unbindComputer_inv {s : BindingRun} (hinv : s.Inv) (out : SocketClient.Outside) (now : Nat)
    (session : Bool) (pcId : String) :
    Inv { s.unbindComputer out now session pcId with
      renamed := Function.update s.renamed pcId none
      removed := Function.update s.removed pcId true } := by
  have hremoved := removed_consistent hinv pcId now (Or.inr rfl)
  unfold unbindComputer
  split
  · dsimp only
    unfold fallBack
    split
    · exact hremoved
    · exact hremoved
  · exact hremoved

theorem onPairingInvalid_inv {s : BindingRun} (hinv : s.Inv) (out : SocketClient.Outside)
    (now : Nat) (binding : BindingStore.Binding) :
    Inv { s.onPairingInvalid out now binding with
      renamed := Function.update s.renamed binding.pcId none } := by
  have hremoved := removed_consistent hinv binding.pcId now (Or.inl rfl)
  unfold onPairingInvalid fallBack
  split
  · exact hremoved
  · exact hremoved

theorem step_keeps {s t : BindingRun} {e : Event} (hinv : s.Inv) (h : s.step e = some t) :
    (t.Sound ↔ s.HandlerOk e) ∧ (s.HandlerOk e → t.Inv) := by
  obtain ⟨action, now, out, automatic, conflict⟩ := e
  have hkept : ∀ {u : BindingRun}, u.Inv → s.HandlerOk ⟨action, now, out, automatic, conflict⟩ →
      (u.Sound ↔ s.HandlerOk ⟨action, now, out, automatic, conflict⟩) ∧
        (s.HandlerOk ⟨action, now, out, automatic, conflict⟩ → u.Inv) :=
    fun hu hok => ⟨iff_of_true hu.sound hok, fun _ => hu⟩
  cases action with
  | acceptBinding binding =>
    cases h
    exact hkept (accepted_consistent hinv binding now) (by rintro ⟨⟩)
  | selectComputer pcId =>
    cases h
    exact hkept ((selectComputer_keeps s out now pcId).inv hinv) (by rintro ⟨⟩)
  | renameComputer pcId name =>
    obtain ⟨u, hrename, rfl⟩ := Option.map_eq_some_iff.mp h
    obtain ⟨bindings, hbindings, rfl⟩ := Option.map_eq_some_iff.mp hrename
    exact hkept (renamed_consistent hinv hbindings) (by rintro ⟨⟩)
  | unbindComputer session pcId =>
    cases h
    exact hkept (unbindComputer_inv hinv out now session pcId) (by rintro ⟨⟩)
  | switchFromWindows pcId =>
    cases h
    exact hkept ((switchFromWindows_keeps s out now automatic conflict pcId).inv hinv)
      (by rintro ⟨⟩)
  | beginAutoSelection =>
    cases h
    exact hkept ((beginAutoSelection_keeps s out conflict).inv hinv) (by rintro ⟨⟩)
  | clearAutoSelection =>
    cases h
    exact hkept hinv (by rintro ⟨⟩)
  | probed winner =>
    obtain ⟨probe, -, hprobe⟩ := Option.bind_eq_some_iff.mp h
    split at hprobe
    · cases hprobe
      exact hkept hinv (by rintro ⟨⟩)
    · cases hprobe
  | resumeConnectivity =>
    cases h
    exact hkept ((resumeConnectivity_keeps s out automatic conflict).inv hinv) (by rintro ⟨⟩)
  | suspendConnectivity =>
    cases h
    exact hkept ((suspendConnectivity_keeps s).inv hinv) (by rintro ⟨⟩)
  | ensureConnected =>
    cases h
    exact hkept ((ensureConnected_keeps s out automatic conflict).inv hinv) (by rintro ⟨⟩)
  | client action =>
    unfold step at h
    dsimp only at h
    split at h
    · obtain ⟨client, -, rfl⟩ := Option.map_eq_some_iff.mp h
      exact hkept hinv (by rintro ⟨⟩)
    · cases h
  | runPosted =>
    unfold step at h
    dsimp only at h
    split at h
    · cases h
    · next posted rest hposted =>
      cases h
      have hinv₁ : Inv { s with posted := rest } := hinv
      have hother : (∀ binding, posted ≠ .ready binding) →
          s.HandlerOk ⟨.runPosted, now, out, automatic, conflict⟩ := by
        intro hne _ binding hhead
        rw [hposted] at hhead
        exact absurd (Option.some.inj hhead) (hne binding)
      cases posted with
      | ready binding =>
        have hready := onReady_keeps hinv₁ now binding
        have hiff : s.HandlerOk ⟨.runPosted, now, out, automatic, conflict⟩ ↔
            (s.removed binding.pcId = false ∧
              ∀ name ∈ s.renamed binding.pcId, binding.pcName = name) := by
          unfold HandlerOk
          rw [hposted]
          constructor
          · exact fun hok => hok rfl binding rfl
          · rintro hok - other ⟨⟩
            exact hok
        rw [hiff]
        exact hready
      | pairingInvalid binding =>
        exact hkept (onPairingInvalid_inv hinv₁ out now binding) (hother (by simp))
      | switchComputer pcId =>
        exact hkept ((switchFromWindows_keeps _ out now automatic conflict pcId).inv hinv₁)
          (hother (by simp))
      | chosen winner fallback =>
        exact hkept ((onChosen_keeps _ out conflict winner fallback).inv hinv₁) (hother (by simp))
  | newProcess recoverablePcId =>
    cases h
    have hnew : Keeps s (s.newProcess recoverablePcId) :=
      ⟨fun _ _ => Iff.rfl, fun _ => rfl, id, rfl, rfl⟩
    exact hkept (hnew.inv hinv) (by rintro ⟨⟩)

/-- Renames and removals persist exactly in the runs in which each `ready` that is handled
carries a computer that is still bound, under its last name. -/
theorem renames_persist (es : List Event) :
    Always step Sound {} es ↔ Along step HandlerOk {} es := by
  apply always_iff_along Inv es start_inv start_inv.sound
  intro s e t hinv _ hstep
  exact step_keeps hinv hstep

/-- The connection is lost after a rename and comes back with the old name. -/
def renamedRun : List Event :=
  let message (generation : Nat) (message : SocketClient.Message) : Event :=
    { action := .client (.onMessage generation message) }
  [{ action := .acceptBinding
      { pcId := "pc", pcName := "PC", endpoint := "wss://pc", tlsSpkiSha256 := "k" } },
    message 3 .challenge, message 3 (.ready true true), { action := .runPosted },
    { action := .renameComputer "pc" "Desk" },
    { action := .client (.onClosed 3 false) }, { action := .client .reconnect },
    message 5 .challenge, message 5 (.ready true true), { action := .runPosted }]

theorem renamedRun_not_sound : ¬ Always step Sound {} renamedRun := by
  intro h
  have hlast := h.last renamedRun rfl
  have hnames := (hlast.names "pc" "Desk" (by decide)).2
  have hold := hnames _ List.mem_cons_self (by decide)
  revert hold
  decide

end BindingRun

end FlowType
