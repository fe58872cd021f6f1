import FlowType.ControlClient

/-! The runs of `ControlClient`: one invariant, kept by what the lock protects and then by every
event, and the way back to a connection from any state. -/
namespace FlowType

namespace ControlClient
open Machine

/-- What holds between two events. A socket of the generation of the client is its socket; without
one a reconnect is posted, and with one that is not ready its timeout is. -/
structure Inv (phone : PhoneKeys) (c : ControlClient) : Prop where
  idle : c.stopped = true → c.socket = none ∧ c.client = none ∧ c.ready = false ∧
    c.reconnectRunnable = none ∧ c.connectTimeoutRunnable = none
  bound : c.stopped = false → ∃ current, c.binding = some current ∧ c.client = some current
  socket : ∀ socket, c.socket = some socket → c.binding = some socket.current ∧
    socket.generation = c.generation ∧ socket ∈ c.opened ∧ c.reconnectRunnable = none
  connecting : ∀ socket, c.socket = some socket → c.ready = false →
    ∃ r ∈ c.pending, r.task = .connectTimeout socket ∧ c.connectTimeoutRunnable = some r.id
  waiting : c.stopped = false → c.socket = none →
    c.ready = false ∧ c.connectTimeoutRunnable = none ∧
      ∃ r ∈ c.pending, r.task = .reconnect ∧ c.reconnectRunnable = some r.id
  reconnects : ∀ r ∈ c.pending, r.task = .reconnect → c.reconnectRunnable = some r.id
  timeouts : ∀ r ∈ c.pending, ∀ socket, r.task = .connectTimeout socket → socket ∈ c.opened
  ids : ∀ r ∈ c.pending, r.id < c.posted
  distinct : (c.pending.map (·.id)).Nodup
  opened : ∀ socket ∈ c.opened, socket.generation ≤ c.generation ∧
    (socket.generation = c.generation → c.socket = some socket)
  origins : ∀ switch ∈ c.switches, switch.socket ∈ c.opened
  reported : Reported c.binding c.ready c.changes
  written : ∀ write ∈ c.writes, c.Written phone write

variable {phone : PhoneKeys} {c d : ControlClient}

theorem start_inv (phone : PhoneKeys) : Inv phone {} := by
  constructor <;> simp [pending]
  exact .closed .nil

theorem Inv.live (h : Inv phone c) (hstopped : c.stopped = false) : c.Live := by
  cases hsocket : c.socket with
  | none =>
    obtain ⟨-, -, r, hr, htask, -⟩ := h.waiting hstopped hsocket
    exact .waiting r hsocket hr htask
  | some socket =>
    cases hready : c.ready with
    | true => exact .connected socket hsocket hready
    | false =>
      obtain ⟨r, hr, htask, -⟩ := h.connecting socket hsocket hready
      exact .connecting socket r hsocket hr htask

theorem Inv.sound (h : Inv phone c) : c.Sound phone := by
  constructor
  · exact h.live
  · intro socket hsocket
    obtain ⟨hbinding, hgeneration, -, -⟩ := h.socket socket hsocket
    have hstopped : c.stopped = false := by
      by_contra hne
      have hnone := (h.idle (eq_true_of_ne_false hne)).1
      rw [hsocket] at hnone
      cases hnone
    obtain ⟨current, hcurrent, hclient⟩ := h.bound hstopped
    have hsame : current = socket.current := Option.some.inj (hcurrent.symm.trans hbinding)
    exact ⟨hstopped, hbinding, hsame ▸ hclient, hgeneration⟩
  · exact h.reported
  · exact h.written

/-- After a report that it is not connected, or none, all the reports are pairs. -/
theorem Reported.closed_changes (h : Reported c.binding c.ready c.changes) :
    Paired (c.setReadyLocked false).changes := by
  unfold setReadyLocked
  generalize c.ready = ready, c.changes = changes at h ⊢
  cases h with
  | closed hpaired => exact hpaired
  | ready current hbinding hpaired =>
    rw [hbinding]
    exact .pair current.pcId hpaired

theorem Reported.ready_changes (h : Reported c.binding c.ready c.changes)
    {current : BindingStore.Binding} (hbinding : c.binding = some current) :
    Reported c.binding true (c.setReadyLocked true).changes := by
  unfold setReadyLocked
  generalize c.ready = ready, c.changes = changes at h ⊢
  cases h with
  | closed hpaired =>
    rw [hbinding]
    exact .ready current rfl hpaired
  | ready other hother hpaired => exact .ready other hother hpaired

/-- A client with nothing open and nothing scheduled. -/
structure Closed (phone : PhoneKeys) (current : BindingStore.Binding) (c : ControlClient) :
    Prop where
  running : c.stopped = false
  binding : c.binding = some current
  client : c.client = some current
  ready : c.ready = false
  runnable : c.reconnectRunnable = none
  reconnects : ∀ r ∈ c.pending, r.task ≠ .reconnect
  timeouts : ∀ r ∈ c.pending, ∀ socket, r.task = .connectTimeout socket → socket ∈ c.opened
  ids : ∀ r ∈ c.pending, r.id < c.posted
  distinct : (c.pending.map (·.id)).Nodup
  opened : ∀ socket ∈ c.opened, socket.generation ≤ c.generation
  origins : ∀ switch ∈ c.switches, switch.socket ∈ c.opened
  paired : Paired c.changes
  written : ∀ write ∈ c.writes, c.Written phone write

/-- What is written stays right while sockets are opened and requests arrive. -/
theorem Written.grow {write : Socket × ControlFrame} (h : c.Written phone write)
    (hopened : c.opened ⊆ d.opened) (hswitches : c.switches ⊆ d.switches) :
    d.Written phone write := by
  obtain ⟨socket, frame⟩ := write
  cases frame with
  | auth message => exact ⟨hopened h.1, h.2⟩
  | switchAck requestId pcId accepted => exact hswitches h

theorem distinct_post {id : Nat} {task : ControlTask} {delayMs : Nat}
    (handler : List ControlRunnable)
    (hids : ∀ r ∈ c.taken.toList ++ handler, r.id < id)
    (hdistinct : ((c.taken.toList ++ handler).map (·.id)).Nodup) :
    ((c.taken.toList ++ ⟨id, task, delayMs⟩ :: handler).map (·.id)).Nodup := by
  have hnew : id ∉ (c.taken.toList ++ handler).map (·.id) := by
    intro hin
    obtain ⟨r, hr, heq⟩ := List.mem_map.mp hin
    have hlt := hids r hr
    omega
  have hperm : ((c.taken.toList ++ ⟨id, task, delayMs⟩ :: handler).map (·.id)).Perm
      (id :: (c.taken.toList ++ handler).map (·.id)) := by
    have hmiddle : (c.taken.toList ++ (⟨id, task, delayMs⟩ : ControlRunnable) :: handler).Perm
        (⟨id, task, delayMs⟩ :: (c.taken.toList ++ handler)) := List.perm_middle
    exact hmiddle.map _
  exact hperm.nodup_iff.mpr (List.nodup_cons.mpr ⟨hnew, hdistinct⟩)

theorem Closed.openSocketLocked_inv {current : BindingStore.Binding} (h : Closed phone current c) :
    Inv phone c.openSocketLocked := by
  have heq : c.openSocketLocked = { c with
      generation := c.generation + 1
      socket := some ⟨current, c.generation + 1⟩
      opened := ⟨current, c.generation + 1⟩ :: c.opened
      connectTimeoutRunnable := some c.posted
      handler := ⟨c.posted, .connectTimeout ⟨current, c.generation + 1⟩,
        CONTROL_CONNECT_TIMEOUT_MS⟩ :: c.handler
      posted := c.posted + 1 } := by
    simp [openSocketLocked, h.binding, h.client]
  rw [heq]
  have hpending : ∀ r, r ∈ c.taken.toList ++ ⟨c.posted, .connectTimeout ⟨current, c.generation + 1⟩,
      CONTROL_CONNECT_TIMEOUT_MS⟩ :: c.handler →
      r = ⟨c.posted, .connectTimeout ⟨current, c.generation + 1⟩, CONTROL_CONNECT_TIMEOUT_MS⟩ ∨
        r ∈ c.pending := by
    intro r hr
    simp only [List.mem_append, List.mem_cons] at hr
    simp only [pending, List.mem_append]
    tauto
  constructor
  · intro hstopped
    rw [h.running] at hstopped
    cases hstopped
  · exact fun _ => ⟨current, h.binding, h.client⟩
  · rintro socket ⟨⟩
    exact ⟨h.binding, rfl, List.mem_cons_self, h.runnable⟩
  · rintro socket ⟨⟩ -
    exact ⟨_, List.mem_append_right _ List.mem_cons_self, rfl, rfl⟩
  · intro _ hnone
    cases hnone
  · intro r hr htask
    rcases hpending r hr with rfl | hold
    · cases htask
    · exact absurd htask (h.reconnects r hold)
  · intro r hr socket htask
    rcases hpending r hr with rfl | hold
    · cases htask
      exact List.mem_cons_self
    · exact List.mem_cons_of_mem _ (h.timeouts r hold socket htask)
  · intro r hr
    rcases hpending r hr with rfl | hold
    · exact Nat.lt_succ_self _
    · exact Nat.lt_succ_of_lt (h.ids r hold)
  · exact distinct_post c.handler h.ids h.distinct
  · intro socket hsocket
    rcases List.mem_cons.mp hsocket with rfl | hold
    · exact ⟨le_refl _, fun _ => rfl⟩
    -- the older sockets are of older generations
    · have hle := h.opened socket hold
      refine ⟨Nat.le_succ_of_le hle, fun heq => ?_⟩
      simp only at heq
      omega
  · exact fun switch hswitch => List.mem_cons_of_mem _ (h.origins switch hswitch)
  · rw [h.ready]
    exact .closed h.paired
  · exact fun write hwrite =>
      (h.written write hwrite).grow (List.subset_cons_self _ _) (List.Subset.refl _)

theorem Inv.lost_inv {lost : Socket} {taken : Option ControlRunnable} (h : Inv phone c)
    (hlost : lost ∈ c.opened) (hgeneration : lost.generation = c.generation)
    (hrunning : c.stopped = false) (hsub : (taken.toList ++ c.handler).Sublist c.pending) :
    Inv phone (connectionLostLocked { c with taken := taken } lost) := by
  have hsocket := (h.opened lost hlost).2 hgeneration
  obtain ⟨hbinding, -, -, hrunnable⟩ := h.socket lost hsocket
  obtain ⟨current, hcurrent, hclient⟩ := h.bound hrunning
  have hsame : current = lost.current := Option.some.inj (hcurrent.symm.trans hbinding)
  -- what is left of the runnables: no reconnect among them
  have hleft : ∀ r, r ∈ taken.toList ++ (c.handler.filter fun r =>
      decide (some r.id ≠ c.connectTimeoutRunnable)) → r ∈ c.pending := by
    intro r hr
    rcases List.mem_append.mp hr with htaken | hhandler
    · exact hsub.subset (List.mem_append_left _ htaken)
    · exact hsub.subset (List.mem_append_right _ (List.mem_of_mem_filter hhandler))
  have hpost : ∀ r id, r ∈ taken.toList ++ (⟨c.posted, .reconnect, id⟩ : ControlRunnable) ::
      (c.handler.filter fun r => decide (some r.id ≠ c.connectTimeoutRunnable)) →
      r = ⟨c.posted, .reconnect, id⟩ ∨ r ∈ c.pending := by
    intro r id hr
    rcases List.mem_append.mp hr with htaken | hhandler
    · exact Or.inr (hsub.subset (List.mem_append_left _ htaken))
    · rcases List.mem_cons.mp hhandler with hnew | hold
      · exact Or.inl hnew
      · exact Or.inr (hleft r (List.mem_append_right _ hold))
  simp only [connectionLostLocked, scheduleReconnectLocked, removeCallbacks, setReadyLocked,
    hgeneration, hrunning, hrunnable, reduceCtorEq, ne_eq, not_true_eq_false, or_self, if_false,
    Bool.false_eq_true]
  constructor
  · intro hstopped
    cases hstopped
  · exact fun _ => ⟨lost.current, rfl, hsame ▸ hclient⟩
  · intro socket hnone
    cases hnone
  · intro socket hnone
    cases hnone
  · exact fun _ _ => ⟨rfl, rfl, _, List.mem_append_right _ List.mem_cons_self, rfl, rfl⟩
  · intro r hr htask
    rcases hpost r _ hr with rfl | hold
    · rfl
    · have hposted := h.reconnects r hold htask
      rw [hrunnable] at hposted
      cases hposted
  · intro r hr socket htask
    rcases hpost r _ hr with rfl | hold
    · cases htask
    · exact h.timeouts r hold socket htask
  · intro r hr
    rcases hpost r _ hr with rfl | hold
    · exact Nat.lt_succ_self _
    · exact Nat.lt_succ_of_lt (h.ids r hold)
  · apply distinct_post
    · exact fun r hr => h.ids r (hleft r hr)
    · refine List.Nodup.sublist (List.Sublist.map _ ?_) h.distinct
      exact (List.Sublist.append (List.Sublist.refl _) List.filter_sublist).trans hsub
  · intro socket hopened
    have hle := (h.opened socket hopened).1
    refine ⟨Nat.le_succ_of_le hle, fun heq => ?_⟩
    simp only at heq
    omega
  · exact h.origins
  · exact .closed h.reported.closed_changes
  · exact fun write hwrite =>
      (h.written write hwrite).grow (List.Subset.refl _) (List.Subset.refl _)

theorem Inv.connectionLostLocked_inv {lost : Socket} (h : Inv phone c) (hlost : lost ∈ c.opened) :
    Inv phone (c.connectionLostLocked lost) := by
  by_cases hguard : lost.generation ≠ c.generation ∨ c.stopped = true
  · rw [connectionLostLocked, if_pos hguard]
    exact h
  · obtain ⟨hgeneration, hrunning⟩ : lost.generation = c.generation ∧ c.stopped = false := by
      simpa [not_or] using hguard
    exact h.lost_inv hlost hgeneration hrunning (List.Sublist.refl _)

theorem Inv.stopLocked_left (h : Inv phone c) (htaken : c.taken = none) :
    (∀ r ∈ c.stopLocked.pending, r ∈ c.pending) ∧
      (∀ r ∈ c.stopLocked.pending, r.task ≠ .reconnect) ∧
      (c.stopLocked.pending.map (·.id)).Nodup := by
  have hmem : ∀ r ∈ c.stopLocked.pending, r ∈ c.handler ∧ some r.id ≠ c.reconnectRunnable := by
    intro r hr
    simp only [stopLocked, removeCallbacks, setReadyLocked, pending, htaken, Option.toList_none,
      List.nil_append, List.mem_filter, decide_eq_true_eq] at hr
    exact hr.1
  have hpending : ∀ r ∈ c.stopLocked.pending, r ∈ c.pending :=
    fun r hr => List.mem_append_right _ (hmem r hr).1
  refine ⟨hpending, fun r hr htask => ?_, ?_⟩
  · exact (hmem r hr).2 (h.reconnects r (hpending r hr) htask).symm
  · refine List.Nodup.sublist (List.Sublist.map _ ?_) h.distinct
    simp only [stopLocked, removeCallbacks, setReadyLocked, pending]
    exact List.Sublist.append (List.Sublist.refl _)
      (List.filter_sublist.trans List.filter_sublist)

theorem Inv.stopLocked_changes (h : Inv phone c) : Paired c.stopLocked.changes :=
  h.reported.closed_changes

theorem Inv.update_inv {next : BindingStore.Binding} (h : Inv phone c) (htaken : c.taken = none) :
    Inv phone (c.update next) := by
  unfold update
  split
  · exact h
  · obtain ⟨hpending, hreconnects, hdistinct⟩ := h.stopLocked_left htaken
    have hclosed : Closed phone next { c.stopLocked with
        binding := some next, stopped := false, client := some next, reconnectAttempt := 0 } := by
      constructor
      · rfl
      · rfl
      · rfl
      · rfl
      · rfl
      · exact hreconnects
      · exact fun r hr => h.timeouts r (hpending r hr)
      · exact fun r hr => h.ids r (hpending r hr)
      · exact hdistinct
      · exact fun socket hopened => Nat.le_succ_of_le (h.opened socket hopened).1
      · exact h.origins
      · exact h.stopLocked_changes
      · exact fun write hwrite =>
          (h.written write hwrite).grow (List.Subset.refl _) (List.Subset.refl _)
    exact hclosed.openSocketLocked_inv

theorem Inv.shutdown_inv (h : Inv phone c) (htaken : c.taken = none) : Inv phone c.shutdown := by
  obtain ⟨hpending, hreconnects, hdistinct⟩ := h.stopLocked_left htaken
  constructor
  · exact fun _ => ⟨rfl, rfl, rfl, rfl, rfl⟩
  · intro hstopped
    cases hstopped
  · intro socket hnone
    cases hnone
  · intro socket hnone
    cases hnone
  · intro hstopped
    cases hstopped
  · exact fun r hr htask => absurd htask (hreconnects r hr)
  · exact fun r hr => h.timeouts r (hpending r hr)
  · exact fun r hr => h.ids r (hpending r hr)
  · exact hdistinct
  · intro socket hopened
    have hle := (h.opened socket hopened).1
    -- the generation has gone on: no old socket is the current one
    refine ⟨Nat.le_succ_of_le hle, fun heq => ?_⟩
    simp only [shutdown, stopLocked, removeCallbacks, setReadyLocked] at heq
    omega
  · exact h.origins
  · exact .closed h.stopLocked_changes
  · exact fun write hwrite =>
      (h.written write hwrite).grow (List.Subset.refl _) (List.Subset.refl _)

theorem Inv.closed_of_waiting (h : Inv phone c) (hrunning : c.stopped = false)
    (hsocket : c.socket = none) {taken : Option ControlRunnable} {handler : List ControlRunnable}
    (hsub : (taken.toList ++ handler).Sublist c.pending)
    (hgone : ∀ r ∈ taken.toList ++ handler, some r.id ≠ c.reconnectRunnable) :
    ∃ current, c.binding = some current ∧ Closed phone current
      { c with taken := taken, handler := handler, reconnectRunnable := none } := by
  obtain ⟨current, hcurrent, hclient⟩ := h.bound hrunning
  have hready := (h.waiting hrunning hsocket).1
  have hreported := h.reported.closed_changes
  refine ⟨current, hcurrent, ?_⟩
  constructor
  · exact hrunning
  · exact hcurrent
  · exact hclient
  · exact hready
  · rfl
  · intro r hr htask
    exact hgone r hr (h.reconnects r (hsub.subset hr) htask).symm
  · exact fun r hr => h.timeouts r (hsub.subset hr)
  · exact fun r hr => h.ids r (hsub.subset hr)
  · exact List.Nodup.sublist (hsub.map _) h.distinct
  · exact fun socket hopened => (h.opened socket hopened).1
  · exact h.origins
  · simpa [setReadyLocked, hready] using hreported
  · exact fun write hwrite =>
      (h.written write hwrite).grow (List.Subset.refl _) (List.Subset.refl _)

theorem Inv.ensureConnected_inv (h : Inv phone c) (htaken : c.taken = none) :
    Inv phone c.ensureConnected := by
  unfold ensureConnected
  split
  · exact h
  · next hguard =>
    obtain ⟨hrunning, -, hsocket⟩ : c.stopped = false ∧ c.binding ≠ none ∧ c.socket = none := by
      simpa [not_or] using hguard
    have hgone : ∀ r ∈ c.taken.toList ++ (c.removeCallbacks c.reconnectRunnable).handler,
        some r.id ≠ c.reconnectRunnable := by
      intro r hr
      simp only [htaken, Option.toList_none, List.nil_append, removeCallbacks, List.mem_filter,
        decide_eq_true_eq] at hr
      exact hr.2
    obtain ⟨current, -, hclosed⟩ := h.closed_of_waiting hrunning hsocket
      (List.Sublist.append (List.Sublist.refl _) List.filter_sublist) hgone
    exact hclosed.openSocketLocked_inv

theorem Inv.take_inv {index : Nat} {r : ControlRunnable} (h : Inv phone c) (htaken : c.taken = none)
    (hr : c.handler[index]? = some r) :
    Inv phone { c with taken := some r, handler := c.handler.eraseIdx index } := by
  obtain ⟨hindex, hget⟩ := List.getElem?_eq_some_iff.mp hr
  have hperm : (r :: c.handler.eraseIdx index).Perm c.pending := by
    have herase := List.getElem_cons_eraseIdx_perm hindex
    rw [hget] at herase
    simpa only [pending, htaken, Option.toList_none, List.nil_append] using herase
  have hmem : ∀ r', r' ∈ r :: c.handler.eraseIdx index ↔ r' ∈ c.pending := fun r' => hperm.mem_iff
  constructor
  · exact h.idle
  · exact h.bound
  · exact h.socket
  · intro socket hsocket hready
    obtain ⟨r', hr', hposted⟩ := h.connecting socket hsocket hready
    exact ⟨r', (hmem r').mpr hr', hposted⟩
  · intro hrunning hsocket
    obtain ⟨hready, hconnect, r', hr', hposted⟩ := h.waiting hrunning hsocket
    exact ⟨hready, hconnect, r', (hmem r').mpr hr', hposted⟩
  · exact fun r' hr' => h.reconnects r' ((hmem r').mp hr')
  · exact fun r' hr' => h.timeouts r' ((hmem r').mp hr')
  · exact fun r' hr' => h.ids r' ((hmem r').mp hr')
  · exact (hperm.map _).nodup_iff.mpr h.distinct
  · exact h.opened
  · exact h.origins
  · exact h.reported
  · exact fun write hwrite =>
      (h.written write hwrite).grow (List.Subset.refl _) (List.Subset.refl _)

/-- The runnable that was taken is not pending any more, and no other one is like it. -/
theorem Inv.taken_left {r : ControlRunnable} (h : Inv phone c) (htaken : c.taken = some r) :
    r ∈ c.pending ∧ c.handler.Sublist c.pending ∧ ∀ r' ∈ c.handler, r'.id ≠ r.id := by
  have hpending : c.pending = r :: c.handler := by
    rw [pending, htaken]
    rfl
  have hdistinct := h.distinct
  rw [hpending] at hdistinct
  obtain ⟨hnew, -⟩ := List.nodup_cons.mp hdistinct
  rw [hpending]
  exact ⟨List.mem_cons_self, List.sublist_cons_self _ _, fun r' hr' heq =>
    hnew (List.mem_map.mpr ⟨r', hr', heq⟩)⟩

/-- A timeout that was taken too late is forgotten. -/
theorem Inv.drop_inv {r : ControlRunnable} {stale : Socket} (h : Inv phone c)
    (htaken : c.taken = some r) (htask : r.task = .connectTimeout stale)
    (hstale : c.socket ≠ some stale) : Inv phone { c with taken := none } := by
  obtain ⟨-, hsub, -⟩ := h.taken_left htaken
  have hkept : ∀ r' ∈ c.pending, r'.task ≠ r.task →
      r' ∈ (none : Option ControlRunnable).toList ++ c.handler := by
    intro r' hr' hother
    rw [pending, htaken] at hr'
    rcases List.mem_cons.mp hr' with rfl | hold
    · exact absurd rfl hother
    · exact hold
  constructor
  · exact h.idle
  · exact h.bound
  · exact h.socket
  · intro socket hsocket hready
    obtain ⟨r', hr', htimeout, hposted⟩ := h.connecting socket hsocket hready
    refine ⟨r', hkept r' hr' ?_, htimeout, hposted⟩
    rw [htimeout, htask]
    intro heq
    exact hstale (hsocket.trans (congrArg some (ControlTask.connectTimeout.inj heq)))
  · intro hrunning hsocket
    obtain ⟨hready, hconnect, r', hr', hreconnect, hposted⟩ := h.waiting hrunning hsocket
    refine ⟨hready, hconnect, r', hkept r' hr' ?_, hreconnect, hposted⟩
    rw [hreconnect, htask]
    intro heq
    cases heq
  · exact fun r' hr' => h.reconnects r' (hsub.subset hr')
  · exact fun r' hr' => h.timeouts r' (hsub.subset hr')
  · exact fun r' hr' => h.ids r' (hsub.subset hr')
  · exact List.Nodup.sublist (hsub.map _) h.distinct
  · exact h.opened
  · exact h.origins
  · exact h.reported
  · exact fun write hwrite =>
      (h.written write hwrite).grow (List.Subset.refl _) (List.Subset.refl _)

theorem Inv.turn_inv {r : ControlRunnable} (h : Inv phone c) (htaken : c.taken = some r) :
    Inv phone (runTask { c with taken := none } r.task) := by
  obtain ⟨hr, hsub, hothers⟩ := h.taken_left htaken
  cases htask : r.task with
  | reconnect =>
    have hposted := h.reconnects r hr htask
    -- while its reconnect is posted the client runs and has no socket
    have hsocket : c.socket = none := by
      by_contra hne
      obtain ⟨socket, hsocket⟩ := Option.ne_none_iff_exists'.mp hne
      have hnone := (h.socket socket hsocket).2.2.2
      rw [hposted] at hnone
      cases hnone
    have hrunning : c.stopped = false := by
      by_contra hne
      have hnone := (h.idle (eq_true_of_ne_false hne)).2.2.2.1
      rw [hposted] at hnone
      cases hnone
    have hgone : ∀ r' ∈ (none : Option ControlRunnable).toList ++ c.handler,
        some r'.id ≠ c.reconnectRunnable := by
      intro r' hr' heq
      rw [hposted] at heq
      exact hothers r' hr' (Option.some.inj heq)
    have hleft : ((none : Option ControlRunnable).toList ++ c.handler).Sublist c.pending := hsub
    obtain ⟨current, -, hclosed⟩ := h.closed_of_waiting hrunning hsocket hleft hgone
    have hopens := hclosed.openSocketLocked_inv
    unfold runTask
    rw [if_pos ⟨hrunning, hsocket⟩]
    exact hopens
  | connectTimeout socket =>
    have hopened := h.timeouts r hr socket htask
    by_cases hguard : socket.generation = c.generation ∧ c.stopped = false
    · exact h.lost_inv hopened hguard.1 hguard.2 hsub
    -- a late timeout is not that of the socket of the client
    · have hstale : c.socket ≠ some socket := by
        intro hcurrent
        apply hguard
        refine ⟨(h.socket socket hcurrent).2.1, ?_⟩
        by_contra hne
        have hnone := (h.idle (eq_true_of_ne_false hne)).1
        rw [hcurrent] at hnone
        cases hnone
      have hstays : runTask { c with taken := none } (.connectTimeout socket) =
          { c with taken := none } := by
        have hlate : socket.generation ≠ c.generation ∨ c.stopped = true := by
          by_contra hnot
          apply hguard
          simpa [not_or] using hnot
        simp only [runTask, connectionLostLocked, if_pos hlate]
      rw [hstays]
      exact h.drop_inv htaken htask hstale

theorem Inv.onMessage_inv {socket : Socket} {message : ControlMessage} (h : Inv phone c)
    (hopened : socket ∈ c.opened) : Inv phone (c.onMessage phone socket message) := by
  unfold onMessage
  split
  · exact h
  · next hguard =>
    obtain ⟨hgeneration, hrunning⟩ : socket.generation = c.generation ∧ c.stopped = false := by
      simpa [not_or] using hguard
    have hsocket := (h.opened socket hopened).2 hgeneration
    obtain ⟨hbinding, -, -, hrunnable⟩ := h.socket socket hsocket
    have hgrown : ∀ {d : ControlClient}, c.opened ⊆ d.opened → c.switches ⊆ d.switches →
        ∀ write ∈ c.writes, d.Written phone write :=
      fun hopened hswitches write hwrite => (h.written write hwrite).grow hopened hswitches
    split
    · next challenge sent =>
      split
      · next auth hauth =>
        cases sent with
        | false => exact h
        | true =>
          -- only the list of what was written changes
          have hwritten : ∀ write ∈ (socket, ControlFrame.auth auth) :: c.writes, Written phone
              { c with writes := (socket, .auth auth) :: c.writes } write := by
            intro write hwrite
            rcases List.mem_cons.mp hwrite with rfl | hold
            · exact ⟨hopened, challenge, hauth⟩
            · exact hgrown (List.Subset.refl _) (List.Subset.refl _) write hold
          exact ⟨h.idle, h.bound, h.socket, h.connecting, h.waiting, h.reconnects, h.timeouts,
            h.ids, h.distinct, h.opened, h.origins, h.reported, hwritten⟩
      · exact h
    · -- ready: the timeout is removed, if the main thread has not taken it
      have hsub : (c.taken.toList ++ (c.removeCallbacks c.connectTimeoutRunnable).handler).Sublist
          c.pending := List.Sublist.append (List.Sublist.refl _) List.filter_sublist
      constructor
      · intro hstopped
        exact absurd hstopped (by simp [setReadyLocked, removeCallbacks, hrunning])
      · exact h.bound
      · exact h.socket
      · intro other hother hready
        cases hready
      · intro _ hnone
        exact absurd (hsocket.symm.trans hnone) (Option.some_ne_none _)
      · exact fun r hr => h.reconnects r (hsub.subset hr)
      · exact fun r hr => h.timeouts r (hsub.subset hr)
      · exact fun r hr => h.ids r (hsub.subset hr)
      · exact List.Nodup.sublist (hsub.map _) h.distinct
      · exact h.opened
      · exact h.origins
      · exact h.reported.ready_changes hbinding
      · exact hgrown (List.Subset.refl _) (List.Subset.refl _)
    · next pcId requestId =>
      split
      · exact h
      · have horigins : ∀ switch ∈ (⟨socket, pcId,
            if requestId = "" then none else some requestId⟩ :: c.switches : List ControlSwitch),
            switch.socket ∈ c.opened := by
          intro switch hswitch
          rcases List.mem_cons.mp hswitch with rfl | hold
          · exact hopened
          · exact h.origins switch hold
        exact ⟨h.idle, h.bound, h.socket, h.connecting, h.waiting, h.reconnects, h.timeouts,
          h.ids, h.distinct, h.opened, horigins, h.reported,
          hgrown (List.Subset.refl _) (List.subset_cons_self _ _)⟩
    · exact h

theorem Inv.complete_inv {switch : ControlSwitch} {accepted sent : Bool} (h : Inv phone c)
    (hswitch : switch ∈ c.switches) : Inv phone (c.complete switch accepted sent) := by
  have hopened := h.origins switch hswitch
  have hlost := h.connectionLostLocked_inv hopened
  unfold complete
  split
  · exact h
  · next requestId hrequest =>
    split
    · exact h
    · next hguard =>
      obtain ⟨hgeneration, -⟩ : switch.socket.generation = c.generation ∧ c.stopped = false := by
        simpa [not_or] using hguard
      have hsocket := (h.opened switch.socket hopened).2 hgeneration
      split
      · next socket hcurrent =>
        -- the answer goes over the socket that has asked
        have hsame : switch.socket = socket := Option.some.inj (hsocket.symm.trans hcurrent)
        have hwritten : ∀ write ∈ (socket, ControlFrame.switchAck requestId switch.pcId accepted) ::
            c.writes, Written phone { c with
              writes := (socket, .switchAck requestId switch.pcId accepted) :: c.writes }
            write := by
          intro write hwrite
          rcases List.mem_cons.mp hwrite with rfl | hold
          · have hasked : switch = ⟨socket, switch.pcId, some requestId⟩ := by
              rw [← hsame, ← hrequest]
            change (⟨socket, switch.pcId, some requestId⟩ : ControlSwitch) ∈ c.switches
            rw [← hasked]
            exact hswitch
          · exact (h.written write hold).grow (List.Subset.refl _) (List.Subset.refl _)
        exact ⟨h.idle, h.bound, h.socket, h.connecting, h.waiting, h.reconnects, h.timeouts,
          h.ids, h.distinct, h.opened, h.origins, h.reported, hwritten⟩
      · exact hlost

theorem step_inv {e : Event} (h : Inv phone c) (hs : c.step phone e = some d) : Inv phone d := by
  -- a call waits until the main thread has run what it has taken
  have hmain : ∀ {f : ControlClient}, (if c.taken = none then some f else none) = some d →
      (c.taken = none → Inv phone f) → Inv phone d := by
    intro f hf hinv
    split at hf
    · next htaken =>
      rw [← Option.some.inj hf]
      exact hinv htaken
    · cases hf
  cases e with
  | update next => exact hmain hs h.update_inv
  | ensureConnected => exact hmain hs h.ensureConnected_inv
  | shutdown => exact hmain hs h.shutdown_inv
  | take index =>
    simp only [step] at hs
    split at hs
    · next htaken =>
      obtain ⟨r, hr, rfl⟩ := Option.map_eq_some_iff.mp hs
      exact h.take_inv htaken hr
    · cases hs
  | turn =>
    obtain ⟨r, htaken, rfl⟩ := Option.map_eq_some_iff.mp hs
    exact h.turn_inv htaken
  | message index message =>
    obtain ⟨socket, hsocket, rfl⟩ := Option.map_eq_some_iff.mp hs
    exact h.onMessage_inv (List.mem_of_getElem? hsocket)
  | lost index =>
    obtain ⟨socket, hsocket, rfl⟩ := Option.map_eq_some_iff.mp hs
    exact h.connectionLostLocked_inv (List.mem_of_getElem? hsocket)
  | complete index accepted sent =>
    obtain ⟨switch, hswitch, rfl⟩ := Option.map_eq_some_iff.mp hs
    exact h.complete_inv (List.mem_of_getElem? hswitch)

theorem run_inv {es : List Event} (hr : run (step phone) {} es = some c) : Inv phone c :=
  run_invariant (Inv phone) es (start_inv phone) (fun _ _ _ h hs => step_inv h hs) hr

/-- The computer can be reached again: the main thread and the sockets alone lead to a connection
to the same computer. -/
def Reconnects (phone : PhoneKeys) (c : ControlClient) : Prop :=
  ∃ es d, (∀ e ∈ es, e.fromOutside = true) ∧ run (step phone) c es = some d ∧ d.ready = true ∧
    d.binding = c.binding

theorem Reconnects.after (es : List Event) (h : d.Reconnects phone)
    (hes : ∀ e ∈ es, e.fromOutside = true) (hr : run (step phone) c es = some d)
    (hbinding : d.binding = c.binding) : c.Reconnects phone := by
  obtain ⟨es', d', hes', hr', hready, hbinding'⟩ := h
  refine ⟨es ++ es', d', ?_, ?_, hready, hbinding'.trans hbinding⟩
  · intro e he
    rcases List.mem_append.mp he with hin | hin
    · exact hes e hin
    · exact hes' e hin
  · rw [run_append, hr]
    exact hr'

theorem Inv.reconnects_of_socket (h : Inv phone c) (hrunning : c.stopped = false) {socket : Socket}
    (hsocket : c.socket = some socket) : c.Reconnects phone := by
  obtain ⟨-, hgeneration, hopened, -⟩ := h.socket socket hsocket
  obtain ⟨index, hindex, hget⟩ := List.getElem_of_mem hopened
  have hmessage : c.opened[index]? = some socket := by
    rw [List.getElem?_eq_getElem hindex, hget]
  refine ⟨[.message index .ready], c.onMessage phone socket .ready, ?_, ?_, ?_⟩
  · intro e he
    rw [List.mem_singleton.mp he]
    rfl
  · simp [run, step, hmessage]
  · simp [onMessage, hgeneration, hrunning, setReadyLocked, removeCallbacks]

theorem openSocketLocked_socket {current client : BindingStore.Binding}
    (hbinding : c.binding = some current) (hclient : c.client = some client) :
    c.openSocketLocked.socket = some ⟨current, c.generation + 1⟩ ∧
      c.openSocketLocked.stopped = c.stopped ∧ c.openSocketLocked.binding = c.binding := by
  simp [openSocketLocked, hbinding, hclient]

theorem Inv.reconnects_of_idle (h : Inv phone c) (hrunning : c.stopped = false)
    (htaken : c.taken = none) : c.Reconnects phone := by
  cases hsocket : c.socket with
  | some socket => exact h.reconnects_of_socket hrunning hsocket
  | none =>
    -- the reconnect is taken and run, and opens a socket to the same computer
    obtain ⟨-, -, r, hr, htask, -⟩ := h.waiting hrunning hsocket
    obtain ⟨current, hcurrent, hclient⟩ := h.bound hrunning
    rw [pending, htaken] at hr
    obtain ⟨index, hindex, hget⟩ := List.getElem_of_mem (show r ∈ c.handler from hr)
    have hposted : c.handler[index]? = some r := by
      rw [List.getElem?_eq_getElem hindex, hget]
    have htake := h.take_inv htaken hposted
    have hturn := htake.turn_inv rfl
    rw [htask] at hturn
    unfold runTask at hturn
    rw [if_pos ⟨hrunning, hsocket⟩] at hturn
    obtain ⟨hopened, hruns, hbinding⟩ := openSocketLocked_socket
      (c := { c with
        taken := none, handler := c.handler.eraseIdx index, reconnectRunnable := none })
      hcurrent hclient
    have hready := hturn.reconnects_of_socket (hruns.trans hrunning) hopened
    refine Reconnects.after [.take index, .turn] hready ?_ ?_ hbinding
    · intro e he
      rcases List.mem_cons.mp he with rfl | he
      · rfl
      · rw [List.mem_singleton.mp he]
        rfl
    · simp [run, step, htaken, hposted, runTask, htask, hrunning, hsocket]

theorem Inv.reconnects_run (h : Inv phone c) (hrunning : c.stopped = false) :
    c.Reconnects phone := by
  cases htaken : c.taken with
  | none => exact h.reconnects_of_idle hrunning htaken
  | some r =>
    have hturn := h.turn_inv htaken
    obtain ⟨current, hcurrent, hclient⟩ := h.bound hrunning
    -- what was taken is run first; it leaves the client running, with its binding
    have hkept : (runTask { c with taken := none } r.task).stopped = false ∧
        (runTask { c with taken := none } r.task).taken = none ∧
        (runTask { c with taken := none } r.task).binding = c.binding := by
      cases htask : r.task with
      | reconnect =>
        simp only [runTask]
        split
        · simp [openSocketLocked, hcurrent, hclient, hrunning]
        · exact ⟨hrunning, rfl, rfl⟩
      | connectTimeout socket =>
        obtain ⟨hr, -, -⟩ := h.taken_left htaken
        have hopened := h.timeouts r hr socket htask
        simp only [runTask, connectionLostLocked]
        split
        · exact ⟨hrunning, rfl, rfl⟩
        · next hguard =>
          have hgeneration : socket.generation = c.generation := by
            by_contra hne
            exact hguard (Or.inl hne)
          have hsocket := (h.opened socket hopened).2 hgeneration
          have hbinding := (h.socket socket hsocket).1
          have hrunnable := (h.socket socket hsocket).2.2.2
          simp [scheduleReconnectLocked, removeCallbacks, setReadyLocked, hrunning, hrunnable,
            hbinding]
    obtain ⟨hrunning', htaken', hbinding⟩ := hkept
    refine Reconnects.after [.turn] (hturn.reconnects_of_idle hrunning' htaken') ?_ ?_ hbinding
    · intro e he
      rw [List.mem_singleton.mp he]
      rfl
    · simp [run, step, htaken]

/-- Whatever the threads do, the client is sound; unless it was stopped it can be connected to its
computer again. -/
theorem control_run {phone : PhoneKeys} {es : List Event} {c : ControlClient}
    (hr : run (step phone) {} es = some c) :
    c.Sound phone ∧ (c.stopped = false → c.Reconnects phone) := by
  have hinv := run_inv hr
  exact ⟨hinv.sound, hinv.reconnects_run⟩

def laptop : BindingStore.Binding where
  pcId := "laptop"
  pcName := "Laptop"
  endpoint := "wss://10.0.0.3:43118/v1/sync"
  tlsSpkiSha256 := "pin"

/-- The keys of a phone whose signatures repeat the payload. -/
def plainKeys : PhoneKeys where
  phoneId := "phone"
  phoneName := "Pixel"
  publicKey pcId := pcId
  sign _ payload := payload

def lateTimeout : List Event :=
  [.update laptop, .message 0 (.challenge { pcId := "laptop", nonce := "nonce" } true), .take 0,
    .message 0 .ready, .message 0 (.switchComputer PROTOCOL_VERSION "laptop" "request"),
    .complete 0 true true, .turn, .take 0, .turn]

theorem control_lateTimeout : ∃ c, run (step plainKeys) {} lateTimeout = some c ∧
    c.changes = [("laptop", false), ("laptop", true)] ∧ c.writes.length = 2 ∧
    c.Sound plainKeys ∧ (c.stopped = false → c.Reconnects plainKeys) := by
  have hcheck : (run (step plainKeys) {} lateTimeout).isSome = true ∧
      ∀ c ∈ run (step plainKeys) {} lateTimeout,
        c.changes = [("laptop", false), ("laptop", true)] ∧ c.writes.length = 2 := by
    decide +kernel
  obtain ⟨c, hr⟩ := Option.isSome_iff_exists.mp hcheck.1
  obtain ⟨hchanges, hwrites⟩ := hcheck.2 c hr
  exact ⟨c, hr, hchanges, hwrites, control_run hr⟩

end ControlClient

end FlowType
