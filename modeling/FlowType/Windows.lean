import Mathlib.Logic.Function.Basic
import FlowType.Runs
import FlowType.Injector

/-! The injector, its broker and the text services of any number of threads. The
broker keeps a queue of commands for each connected service; a command that the
injector no longer waits for stays in its queue and is executed later. -/
namespace FlowType

/-- A command in the queue of the broker. `request` is the number of the request
it was sent for, `token` its response channel. -/
structure Pending where
  command : TipCommand
  token : Nat
  request : Nat
  answer : Option TipResponse := none
  deriving DecidableEq, Repr

/-- `Client`: only the head of the queue has been handed to the text service. -/
structure Client where
  generation : Nat
  queue : List Pending := []
  deriving DecidableEq, Repr

/-- A thread with a text service. `detached` is a command whose connection was
lost after it had been handed over. -/
structure Host where
  composition : Composition := {}
  client : Option Client := none
  detached : Option Pending := none
  deriving DecidableEq, Repr

/-- The host after its connection is lost: the command that was handed over may
still run. -/
def Host.disconnected (host : Host) : Host :=
  { host with
    client := none
    detached := match host.client with
      | none => host.detached
      | some c => c.queue.head?.filter fun p => decide (p.answer = none) }

inductive Waiting
  | call (tip : TipKey) (command : TipCommand) (token : Nat) (wait : Wait)
  | select (call : TipBegin) (rejected tried : Bool)
  deriving DecidableEq, Repr

def Waiting.offers : Waiting → Option String
  | .call _ _ _ wait => wait.offers
  | .select offer _ _ => some offer.sessionId

/-- `reply` is what the last event answered; `written` lists all texts that were
written, the latest first, with the request they were written for. -/
structure Windows where
  injector : Injector := {}
  waiting : Option Waiting := none
  hosts : TipId → Host := fun _ => {}
  known : List TipId := []
  nextToken : Nat := 0
  nextGeneration : Nat := 1
  requests : Nat := 0
  input : InputMonitor := {}
  reply : Option InjectorResponse := none
  written : List (Nat × TipWrite) := []

namespace Windows

def editDone : EditEnv := ⟨true, true, true, false, .done⟩

def notepad : TargetWindow := ⟨1, 1, "Notepad"⟩

inductive Event
  /-- The app sends a request. -/
  | request (request : InjectorRequest) (desktop : Desktop)
  /-- `begin_for_target` reads the candidates, in the order of the hash map. -/
  | select (candidates : List TipKey)
  /-- The deadline of `begin_for_target` has passed. -/
  | expire
  /-- The text service runs the command at the head of its queue. -/
  | execute (tip : TipId) (env : EditEnv)
  /-- The broker passes the answer on. -/
  | deliver (tip : TipId)
  /-- The call fails: no answer within 1.5 s, or the text service has left. -/
  | giveUp
  | disconnect (tip : TipId)
  | executeDetached (tip : TipId) (env : EditEnv)
  | dropDetached (tip : TipId)
  | connect (tip : TipId)
  | deactivate (tip : TipId)
  | externalEdit (tip : TipId)
  | physicalInput (isReturn : Bool)
  /-- The injector finds the pipe of the app closed. -/
  | pipeLost
  /-- The injector process is started anew. -/
  | restart

def setHost (s : Windows) (tip : TipId) (host : Host) : Windows :=
  { s with hosts := Function.update s.hosts tip host }

def client (s : Windows) (tip : TipId) : Option Client := (s.hosts tip).client

/-- `TipRegistry::send`: the generation must still be the registered one. -/
def enqueue (s : Windows) (tip : TipKey) (p : Pending) : Windows :=
  match s.client tip.id with
  | none => s
  | some c =>
    if c.generation = tip.generation then
      s.setHost tip.id { s.hosts tip.id with client := some { c with queue := c.queue ++ [p] } }
    else s

/-- Carrying out what the injector does next. A call that cannot be sent fails
with `giveUp`. -/
def perform (s : Windows) (r : Injector × Next) : Windows :=
  match r.2 with
  | .reply response => { s with injector := r.1, waiting := none, reply := some response }
  | .accept => { s with injector := r.1, waiting := none }
  | .select call rejected tried =>
    { s with injector := r.1, waiting := some (.select call rejected tried) }
  | .call tip command wait =>
    { s with
      injector := r.1
      waiting := some (.call tip command s.nextToken wait)
      nextToken := s.nextToken + 1 }.enqueue tip
      { command := command, token := s.nextToken, request := s.requests }

/-- The candidates of a round: the registered clients of the process, the
preferred thread first. -/
def Candidates (s : Windows) (target : TargetWindow) (candidates : List TipKey) : Prop :=
  (∀ key ∈ candidates, key.id.processId = target.processId ∧
    (s.client key.id).map (·.generation) = some key.generation) ∧
  (∀ tip ∈ s.known, tip.processId = target.processId → s.client tip ≠ none →
    tip ∈ candidates.map (·.id)) ∧
  (candidates.map (·.id)).Nodup ∧
  candidates.filter (fun key => decide (key.id.threadId = target.threadId)) ++
    candidates.filter (fun key => decide (key.id.threadId ≠ target.threadId)) = candidates

instance (s : Windows) (target : TargetWindow) (candidates : List TipKey) :
    Decidable (s.Candidates target candidates) :=
  inferInstanceAs (Decidable (_ ∧ _ ∧ _ ∧ _))

def runCommand (s : Windows) (tip : TipId) (host : Host) (p : Pending) (r : TipResult) : Windows :=
  { s.setHost tip { host with composition := r.composition } with
    written := r.write.toList.map (p.request, ·) ++ s.written }

def stepRequest (s : Windows) (request : InjectorRequest) (desktop : Desktop) : Option Windows :=
  match s.waiting with
  | some _ => none
  | none => some ({ s with requests := s.requests + 1 }.perform
      (s.injector.handleRequest desktop s.input request))

def stepSelect (s : Windows) (candidates : List TipKey) : Option Windows :=
  match s.waiting with
  | some (.select call rejected _) =>
    if s.Candidates call.target candidates then
      some (s.perform (s.injector, beginCandidates call rejected candidates)) else none
  | _ => none

def stepExpire (s : Windows) : Option Windows :=
  match s.waiting with
  | some (.select _ rejected true) => some (s.perform (s.injector, beginExpired rejected))
  | _ => none

def stepExecute (s : Windows) (tip : TipId) (env : EditEnv) : Option Windows :=
  match s.client tip with
  | some ⟨generation, p :: rest⟩ =>
    if p.answer = none then
      let r := (s.hosts tip).composition.handleCommand env p.command
      some (s.runCommand tip
        { s.hosts tip with
          client := some ⟨generation, { p with answer := some r.response } :: rest⟩ } p r)
    else none
  | _ => none

def stepDeliver (s : Windows) (tip : TipId) : Option Windows :=
  match s.client tip with
  | some ⟨generation, p :: rest⟩ =>
    match p.answer with
    | none => none
    | some answer =>
      let s' := s.setHost tip { s.hosts tip with client := some ⟨generation, rest⟩ }
      match s.waiting with
      | some (.call key _ token wait) =>
        if token = p.token then
          some (s'.perform (s.injector.resume s.input key wait (some answer)))
        else some s'
      | _ => some s'
  | _ => none

def stepGiveUp (s : Windows) : Option Windows :=
  match s.waiting with
  | some (.call key _ _ wait) => some (s.perform (s.injector.resume s.input key wait none))
  | _ => none

def stepDisconnect (s : Windows) (tip : TipId) : Option Windows :=
  match s.client tip with
  | none => none
  | some _ => some (s.setHost tip (s.hosts tip).disconnected)

def stepExecuteDetached (s : Windows) (tip : TipId) (env : EditEnv) : Option Windows :=
  match (s.hosts tip).detached with
  | none => none
  | some p =>
    some (s.runCommand tip { s.hosts tip with detached := none } p
      ((s.hosts tip).composition.handleCommand env p.command))

/-- A service connects again only after the command it was running is done. -/
def stepConnect (s : Windows) (tip : TipId) : Option Windows :=
  if s.client tip = none ∧ (s.hosts tip).detached = none then
    some { s.setHost tip { s.hosts tip with client := some ⟨s.nextGeneration, []⟩ } with
      nextGeneration := s.nextGeneration + 1
      known := tip :: s.known }
  else none

def step (s₀ : Windows) (e : Event) : Option Windows :=
  let s := { s₀ with reply := none }
  match e with
  | .request request desktop => s.stepRequest request desktop
  | .select candidates => s.stepSelect candidates
  | .expire => s.stepExpire
  | .execute tip env => s.stepExecute tip env
  | .deliver tip => s.stepDeliver tip
  | .giveUp => s.stepGiveUp
  | .disconnect tip => s.stepDisconnect tip
  | .executeDetached tip env => s.stepExecuteDetached tip env
  | .dropDetached tip => some (s.setHost tip { s.hosts tip with detached := none })
  | .connect tip => s.stepConnect tip
  | .deactivate tip => some (s.setHost tip {})
  | .externalEdit tip =>
    if (s.hosts tip).composition.sessionId = none then none
    else some (s.setHost tip { s.hosts tip with
      composition := { (s.hosts tip).composition with targetModified := true } })
  | .physicalInput isReturn => some { s with input := ⟨s.input.epoch + 1, isReturn⟩ }
  | .pipeLost => if s.waiting = none then some (s.perform s.injector.pipeLost) else none
  | .restart => some { s with
      injector := {}, waiting := none, input := {}, nextGeneration := 1
      hosts := fun tip => (s.hosts tip).disconnected }

section Lemmas
variable (s : Windows) (t : TipId) (host : Host) (key : TipKey) (p : Pending)

@[simp] theorem setHost_injector : (s.setHost t host).injector = s.injector := rfl
@[simp] theorem setHost_waiting : (s.setHost t host).waiting = s.waiting := rfl
@[simp] theorem setHost_nextToken : (s.setHost t host).nextToken = s.nextToken := rfl
@[simp] theorem setHost_input : (s.setHost t host).input = s.input := rfl
@[simp] theorem setHost_written : (s.setHost t host).written = s.written := rfl
@[simp] theorem setHost_requests : (s.setHost t host).requests = s.requests := rfl
@[simp] theorem setHost_self : (s.setHost t host).hosts t = host := Function.update_self ..

theorem setHost_of_ne {u : TipId} (h : u ≠ t) : (s.setHost t host).hosts u = s.hosts u :=
  Function.update_of_ne h ..

@[simp] theorem runCommand_self (r : TipResult) :
    (s.runCommand t host p r).hosts t = { host with composition := r.composition } :=
  Function.update_self ..

theorem runCommand_of_ne (r : TipResult) {u : TipId} (h : u ≠ t) :
    (s.runCommand t host p r).hosts u = s.hosts u := Function.update_of_ne h ..

theorem enqueue_eq : s.enqueue key p = s ∨
    ∃ c, s.client key.id = some c ∧ c.generation = key.generation ∧ s.enqueue key p =
      s.setHost key.id
        { s.hosts key.id with client := some { c with queue := c.queue ++ [p] } } := by
  unfold enqueue
  split
  · exact Or.inl rfl
  · rename_i c hc
    split
    · rename_i hg
      exact Or.inr ⟨c, hc, hg, rfl⟩
    · exact Or.inl rfl

theorem enqueue_fields : (s.enqueue key p).injector = s.injector ∧
    (s.enqueue key p).waiting = s.waiting ∧ (s.enqueue key p).nextToken = s.nextToken ∧
    (s.enqueue key p).written = s.written ∧ (s.enqueue key p).reply = s.reply ∧
    (s.enqueue key p).nextGeneration = s.nextGeneration ∧
    (s.enqueue key p).requests = s.requests ∧ (s.enqueue key p).input = s.input := by
  rcases s.enqueue_eq key p with h | ⟨c, -, -, h⟩ <;> rw [h] <;>
    exact ⟨rfl, rfl, rfl, rfl, rfl, rfl, rfl, rfl⟩

theorem enqueue_host : ((s.enqueue key p).hosts t).composition = (s.hosts t).composition ∧
    ((s.enqueue key p).hosts t).detached = (s.hosts t).detached := by
  rcases s.enqueue_eq key p with h | ⟨c, -, -, h⟩
  · rw [h]
    exact ⟨rfl, rfl⟩
  · rw [h]
    by_cases ht : t = key.id
    · subst ht
      rw [setHost_self]
      exact ⟨rfl, rfl⟩
    · rw [setHost_of_ne s _ _ ht]
      exact ⟨rfl, rfl⟩

/-- The queue of a client after a command was sent to `key`. -/
theorem enqueue_client {c' : Client} (h : (s.enqueue key p).client t = some c') :
    ∃ c, s.client t = some c ∧ c'.generation = c.generation ∧
      ((c'.queue = c.queue ∧ key ≠ ⟨t, c.generation⟩) ∨
        (c'.queue = c.queue ++ [p] ∧ key = ⟨t, c.generation⟩)) := by
  unfold enqueue at h
  split at h
  · rename_i hn
    refine ⟨c', h, rfl, Or.inl ⟨rfl, ?_⟩⟩
    rintro rfl
    simp [h] at hn
  · rename_i c hc
    split at h
    · rename_i hg
      by_cases ht : t = key.id
      · subst ht
        obtain rfl : _ = c' := by simpa [client] using h
        exact ⟨c, hc, rfl, Or.inr ⟨rfl, by rw [hg]⟩⟩
      · rw [client, setHost_of_ne s _ _ ht] at h
        refine ⟨c', h, rfl, Or.inl ⟨rfl, ?_⟩⟩
        rintro rfl
        exact ht rfl
    · rename_i hg
      refine ⟨c', h, rfl, Or.inl ⟨rfl, ?_⟩⟩
      rintro rfl
      rw [hc] at h
      obtain rfl : c = c' := by simpa using h
      exact hg rfl

end Lemmas

/-- What `perform` does to a queue: nothing, unless the command is sent to it. -/
theorem perform_client {s : Windows} {r : Injector × Next} {t : TipId} {c' : Client}
    (h : (s.perform r).client t = some c') :
    ∃ c, s.client t = some c ∧ c'.generation = c.generation ∧
      ((c'.queue = c.queue ∧ ∀ command wait, r.2 ≠ .call ⟨t, c.generation⟩ command wait) ∨
        ∃ command wait, r.2 = .call ⟨t, c.generation⟩ command wait ∧
          c'.queue = c.queue ++ [{ command, token := s.nextToken, request := s.requests }]) := by
  unfold perform at h
  split at h
  · rename_i response hr
    exact ⟨c', h, rfl, Or.inl ⟨rfl, by simp [hr]⟩⟩
  · rename_i hr
    exact ⟨c', h, rfl, Or.inl ⟨rfl, by simp [hr]⟩⟩
  · rename_i call rejected tried hr
    exact ⟨c', h, rfl, Or.inl ⟨rfl, by simp [hr]⟩⟩
  · rename_i key command wait hr
    obtain ⟨c, hc, hg, hq⟩ := enqueue_client _ _ _ _ h
    refine ⟨c, hc, hg, ?_⟩
    rcases hq with ⟨hq, hne⟩ | ⟨hq, rfl⟩
    · refine Or.inl ⟨hq, ?_⟩
      rintro command' wait' h'
      rw [hr] at h'
      simp only [Next.call.injEq] at h'
      exact hne h'.1
    · exact Or.inr ⟨command, wait, hr, hq⟩

theorem perform_host (s : Windows) (r : Injector × Next) (t : TipId) :
    ((s.perform r).hosts t).composition = (s.hosts t).composition ∧
      ((s.perform r).hosts t).detached = (s.hosts t).detached := by
  unfold perform
  split
  · exact ⟨rfl, rfl⟩
  · exact ⟨rfl, rfl⟩
  · exact ⟨rfl, rfl⟩
  · exact enqueue_host _ t _ _

@[simp] theorem perform_injector (s : Windows) (r : Injector × Next) :
    (s.perform r).injector = r.1 := by
  unfold perform
  split
  · rfl
  · rfl
  · rfl
  · exact (enqueue_fields _ _ _).1

@[simp] theorem perform_written (s : Windows) (r : Injector × Next) :
    (s.perform r).written = s.written := by
  unfold perform
  split
  · rfl
  · rfl
  · rfl
  · exact (enqueue_fields _ _ _).2.2.2.1

@[simp] theorem perform_input (s : Windows) (r : Injector × Next) :
    (s.perform r).input = s.input := by
  unfold perform
  split
  · rfl
  · rfl
  · rfl
  · exact (enqueue_fields _ _ _).2.2.2.2.2.2.2

/-- What the injector waits for after `perform`. -/
theorem perform_waiting (s : Windows) (r : Injector × Next) :
    (s.perform r).waiting = match r.2 with
      | .call tip command wait => some (.call tip command s.nextToken wait)
      | .select call rejected tried => some (.select call rejected tried)
      | _ => none := by
  unfold perform
  split
  · rename_i h
    rw [h]
  · rename_i h
    rw [h]
  · rename_i h
    rw [h]
  · rename_i h
    rw [h]
    exact (enqueue_fields _ _ _).2.1

theorem perform_reply (s : Windows) (r : Injector × Next) : (s.perform r).reply =
    match r.2 with
    | .reply response => some response
    | _ => s.reply := by
  unfold perform
  split
  · rename_i h
    rw [h]
  · rename_i h
    rw [h]
  · rename_i h
    rw [h]
  · rename_i h
    rw [h]
    exact (enqueue_fields _ _ _).2.2.2.2.1

theorem perform_nextToken (s : Windows) (r : Injector × Next) :
    (s.perform r).nextToken = match r.2 with
      | .call _ _ _ => s.nextToken + 1
      | _ => s.nextToken := by
  unfold perform
  split
  · rename_i h
    rw [h]
  · rename_i h
    rw [h]
  · rename_i h
    rw [h]
  · rename_i h
    rw [h]
    exact (enqueue_fields _ _ _).2.2.1

theorem step_externalEdit_some {s t : Windows} {tip : TipId}
    (hs : s.step (.externalEdit tip) = some t) :
    ({ s with reply := none } : Windows).setHost tip { s.hosts tip with
      composition := { (s.hosts tip).composition with targetModified := true } } = t := by
  simp only [step] at hs
  split at hs
  · cases hs
  · exact Option.some.inj hs

theorem step_pipeLost_some {s t : Windows} (hs : s.step .pipeLost = some t) :
    s.waiting = none ∧
      ({ s with reply := none } : Windows).perform s.injector.pipeLost = t := by
  simp only [step] at hs
  split at hs
  · next hw => exact ⟨hw, Option.some.inj hs⟩
  · cases hs

/-- What holds of every queue: tokens increase, only the head has been handed
over, and a connected host has nothing left from an older connection. -/
structure Queues (s : Windows) : Prop where
  fresh : ∀ t c, s.client t = some c → ∀ p ∈ c.queue, p.token < s.nextToken
  sorted : ∀ t c, s.client t = some c → c.queue.Pairwise fun a b => a.token < b.token
  order : ∀ t c p rest, s.client t = some c → c.queue = p :: rest → ∀ x ∈ rest, x.answer = none
  alone : ∀ t, s.client t ≠ none → (s.hosts t).detached = none

/-- The awaited token is the last one handed out, and it belongs to the awaited
command. -/
structure Shape (s : Windows) : Prop extends Queues s where
  awaited : ∀ key command token wait, s.waiting = some (.call key command token wait) →
    token + 1 = s.nextToken ∧ ∀ t c, s.client t = some c → ∀ p ∈ c.queue, p.token = token →
      key = ⟨t, c.generation⟩ ∧ p.command = command

theorem Queues.perform {s : Windows} (h : s.Queues) (r : Injector × Next) :
    (s.perform r).Shape := by
  have hnext : s.nextToken ≤ (s.perform r).nextToken := by
    rw [perform_nextToken]
    split
    · exact Nat.le_succ _
    · exact le_rfl
  have hcall : ∀ key command wait, r.2 = .call key command wait →
      (s.perform r).nextToken = s.nextToken + 1 := by
    intro key command wait hr
    rw [perform_nextToken, hr]
  refine ⟨⟨?_, ?_, ?_, ?_⟩, ?_⟩
  · intro t c' hc' p hp
    obtain ⟨c, hc, -, ⟨hq, -⟩ | ⟨command, wait, hr, hq⟩⟩ := perform_client hc'
    · rw [hq] at hp
      have := h.fresh t c hc p hp
      omega
    · have hn := hcall _ _ _ hr
      rw [hq] at hp
      rcases List.mem_append.mp hp with hp | hp
      · have := h.fresh t c hc p hp
        omega
      · obtain rfl : p = _ := by simpa using hp
        simp only
        omega
  · intro t c' hc'
    obtain ⟨c, hc, -, ⟨hq, -⟩ | ⟨command, wait, hr, hq⟩⟩ := perform_client hc'
    · rw [hq]
      exact h.sorted t c hc
    · rw [hq, List.pairwise_append]
      refine ⟨h.sorted t c hc, by simp, ?_⟩
      intro a ha b hb
      obtain rfl : b = _ := by simpa using hb
      exact h.fresh t c hc a ha
  · intro t c' p rest hc' hcons x hx
    obtain ⟨c, hc, -, ⟨hq, -⟩ | ⟨command, wait, hr, hq⟩⟩ := perform_client hc'
    · rw [hq] at hcons
      exact h.order t c p rest hc hcons x hx
    · rw [hq] at hcons
      cases hcq : c.queue with
      | nil =>
        rw [hcq] at hcons
        obtain ⟨-, rfl⟩ : _ = p ∧ [] = rest := by simpa using hcons
        simp at hx
      | cons y ys =>
        rw [hcq] at hcons
        obtain ⟨rfl, rfl⟩ : y = p ∧ _ = rest := by simpa using hcons
        rcases List.mem_append.mp hx with hx | hx
        · exact h.order t c y ys hc hcq x hx
        · obtain rfl : x = _ := by simpa using hx
          rfl
  · intro t ht
    obtain ⟨c', hc'⟩ := Option.ne_none_iff_exists'.mp ht
    obtain ⟨c, hc, -⟩ := perform_client hc'
    rw [(perform_host s r t).2]
    exact h.alone t (by simp [hc])
  · intro key command token wait hw
    rw [perform_waiting] at hw
    split at hw
    · rename_i key' command' wait' hr
      obtain ⟨rfl, rfl, rfl, rfl⟩ : key' = key ∧ command' = command ∧ s.nextToken = token ∧
        wait' = wait := by simpa using hw
      refine ⟨(hcall _ _ _ hr).symm, ?_⟩
      intro t c' hc' p hp htok
      obtain ⟨c, hc, hg, ⟨hq, -⟩ | ⟨cmd, w, hr', hq⟩⟩ := perform_client hc'
      · rw [hq] at hp
        have := h.fresh t c hc p hp
        omega
      · rw [hq] at hp
        rcases List.mem_append.mp hp with hp | hp
        · have := h.fresh t c hc p hp
          omega
        · obtain rfl : p = _ := by simpa using hp
          rw [hr] at hr'
          simp only [Next.call.injEq] at hr'
          exact ⟨by rw [hg]; exact hr'.1, hr'.2.1.symm⟩
    · simp at hw
    · simp at hw

/-- Replacing one host by one with a good queue. -/
theorem Queues.setHost {s : Windows} (h : s.Queues) (t : TipId) (host : Host)
    (hhost : ∀ c, host.client = some c → (∀ p ∈ c.queue, p.token < s.nextToken) ∧
      (c.queue.Pairwise fun a b => a.token < b.token) ∧
      (∀ p rest, c.queue = p :: rest → ∀ x ∈ rest, x.answer = none) ∧ host.detached = none) :
    (s.setHost t host).Queues := by
  refine ⟨?_, ?_, ?_, ?_⟩
  · intro u c hc
    by_cases hu : u = t
    · subst hu
      exact (hhost c (by simpa [client] using hc)).1
    · rw [client, setHost_of_ne s _ _ hu] at hc
      exact h.fresh u c hc
  · intro u c hc
    by_cases hu : u = t
    · subst hu
      exact (hhost c (by simpa [client] using hc)).2.1
    · rw [client, setHost_of_ne s _ _ hu] at hc
      exact h.sorted u c hc
  · intro u c p rest hc
    by_cases hu : u = t
    · subst hu
      exact (hhost c (by simpa [client] using hc)).2.2.1 p rest
    · rw [client, setHost_of_ne s _ _ hu] at hc
      exact h.order u c p rest hc
  · intro u hu'
    by_cases hu : u = t
    · subst hu
      obtain ⟨c, hc⟩ := Option.ne_none_iff_exists'.mp hu'
      rw [setHost_self]
      exact (hhost c (by simpa [client] using hc)).2.2.2
    · rw [client, setHost_of_ne s _ _ hu] at hu'
      rw [setHost_of_ne s _ _ hu]
      exact h.alone u hu'

/-- Replacing one host by one whose queue holds no other commands. -/
theorem Shape.setHost {s : Windows} (h : s.Shape) (t : TipId) (host : Host)
    (hhost : (s.setHost t host).Queues)
    (hqueue : ∀ c', host.client = some c' → ∀ p' ∈ c'.queue, ∃ c, s.client t = some c ∧
      c.generation = c'.generation ∧ ∃ p ∈ c.queue, p.token = p'.token ∧ p.command = p'.command) :
    (s.setHost t host).Shape := by
  refine ⟨hhost, ?_⟩
  intro key command token wait hw
  obtain ⟨hn, ha⟩ := h.awaited key command token wait hw
  refine ⟨hn, ?_⟩
  intro u c' hc' p' hp' htok
  by_cases hu : u = t
  · subst hu
    obtain ⟨c, hc, hg, p, hp, hpt, hpc⟩ := hqueue c' (by simpa [client] using hc') p' hp'
    obtain ⟨hkey, hcmd⟩ := ha u c hc p hp (by omega)
    exact ⟨by rw [← hg]; exact hkey, by rw [← hpc]; exact hcmd⟩
  · rw [client, setHost_of_ne s _ _ hu] at hc'
    exact ha u c' hc' p' hp' htok

theorem stepRequest_some {s t : Windows} {request : InjectorRequest} {desktop : Desktop}
    (h : s.stepRequest request desktop = some t) : s.waiting = none ∧
      t = { s with requests := s.requests + 1 }.perform
        (s.injector.handleRequest desktop s.input request) := by
  unfold stepRequest at h
  split at h
  · simp at h
  · rename_i hw
    exact ⟨hw, by simpa using h.symm⟩

theorem stepSelect_some {s t : Windows} {candidates : List TipKey}
    (h : s.stepSelect candidates = some t) : ∃ call rejected tried,
      s.waiting = some (.select call rejected tried) ∧ s.Candidates call.target candidates ∧
      t = s.perform (s.injector, beginCandidates call rejected candidates) := by
  unfold stepSelect at h
  split at h
  · rename_i call rejected tried hw
    split at h
    · rename_i hc
      exact ⟨call, rejected, tried, hw, hc, by simpa using h.symm⟩
    · simp at h
  · simp at h

theorem stepExpire_some {s t : Windows} (h : s.stepExpire = some t) : ∃ call rejected,
    s.waiting = some (.select call rejected true) ∧
      t = s.perform (s.injector, beginExpired rejected) := by
  unfold stepExpire at h
  split at h
  · rename_i call rejected hw
    exact ⟨call, rejected, hw, by simpa using h.symm⟩
  · simp at h

theorem stepExecute_some {s t : Windows} {tip : TipId} {env : EditEnv}
    (h : s.stepExecute tip env = some t) : ∃ generation p rest,
      s.client tip = some ⟨generation, p :: rest⟩ ∧ p.answer = none ∧
      t = s.runCommand tip { s.hosts tip with client := some ⟨generation, { p with
          answer := some ((s.hosts tip).composition.handleCommand env p.command).response } :: rest⟩ }
        p ((s.hosts tip).composition.handleCommand env p.command) := by
  unfold stepExecute at h
  split at h
  · rename_i generation p rest hc
    split at h
    · rename_i hp
      exact ⟨generation, p, rest, hc, hp, by simpa using h.symm⟩
    · simp at h
  · simp at h

/-- An answer is passed on to the injector, or nobody waits for it. -/
theorem stepDeliver_some {s t : Windows} {tip : TipId} (h : s.stepDeliver tip = some t) :
    ∃ generation p rest answer, s.client tip = some ⟨generation, p :: rest⟩ ∧
      p.answer = some answer ∧
      ((∃ key command wait, s.waiting = some (.call key command p.token wait) ∧
        t = (s.setHost tip { s.hosts tip with client := some ⟨generation, rest⟩ }).perform
          (s.injector.resume s.input key wait (some answer))) ∨
      ((∀ key command wait, s.waiting ≠ some (.call key command p.token wait)) ∧
        t = s.setHost tip { s.hosts tip with client := some ⟨generation, rest⟩ })) := by
  unfold stepDeliver at h
  split at h
  · rename_i generation p rest hc
    split at h
    · simp at h
    · rename_i answer hp
      refine ⟨generation, p, rest, answer, hc, hp, ?_⟩
      dsimp only at h
      split at h
      · rename_i key command token wait hw
        split at h
        · rename_i ht
          subst ht
          exact Or.inl ⟨key, command, wait, hw, by simpa using h.symm⟩
        · rename_i ht
          refine Or.inr ⟨?_, by simpa using h.symm⟩
          intro key' command' wait' hw'
          rw [hw] at hw'
          simp only [Option.some.injEq, Waiting.call.injEq] at hw'
          exact ht hw'.2.2.1
      · rename_i hw
        refine Or.inr ⟨?_, by simpa using h.symm⟩
        intro key' command' wait' hw'
        exact hw _ _ _ _ hw'
  · simp at h

theorem stepGiveUp_some {s t : Windows} (h : s.stepGiveUp = some t) : ∃ key command token wait,
    s.waiting = some (.call key command token wait) ∧
      t = s.perform (s.injector.resume s.input key wait none) := by
  unfold stepGiveUp at h
  split at h
  · rename_i key command token wait hw
    exact ⟨key, command, token, wait, hw, by simpa using h.symm⟩
  · simp at h

theorem stepDisconnect_some {s t : Windows} {tip : TipId} (h : s.stepDisconnect tip = some t) :
    s.client tip ≠ none ∧ t = s.setHost tip (s.hosts tip).disconnected := by
  unfold stepDisconnect at h
  split at h
  · simp at h
  · rename_i hc
    exact ⟨by simp [hc], by simpa using h.symm⟩

theorem stepExecuteDetached_some {s t : Windows} {tip : TipId} {env : EditEnv}
    (h : s.stepExecuteDetached tip env = some t) : ∃ p, (s.hosts tip).detached = some p ∧
      t = s.runCommand tip { s.hosts tip with detached := none } p
        ((s.hosts tip).composition.handleCommand env p.command) := by
  unfold stepExecuteDetached at h
  split at h
  · simp at h
  · rename_i p hp
    exact ⟨p, hp, by simpa using h.symm⟩

theorem stepConnect_some {s t : Windows} {tip : TipId} (h : s.stepConnect tip = some t) :
    s.client tip = none ∧ (s.hosts tip).detached = none ∧
      t = { s.setHost tip { s.hosts tip with client := some ⟨s.nextGeneration, []⟩ } with
        nextGeneration := s.nextGeneration + 1, known := tip :: s.known } := by
  unfold stepConnect at h
  split at h
  · rename_i hc
    exact ⟨hc.1, hc.2, by simpa using h.symm⟩
  · simp at h

/-- The head of a queue that has been passed on is gone. -/
theorem Queues.pop {s : Windows} (h : s.Queues) {tip : TipId} {generation : Nat} {p : Pending}
    {rest : List Pending} (hc : s.client tip = some ⟨generation, p :: rest⟩) :
    (s.setHost tip { s.hosts tip with client := some ⟨generation, rest⟩ }).Queues := by
  refine h.setHost tip _ ?_
  rintro c ⟨⟩
  refine ⟨fun x hx => h.fresh tip _ hc x (List.mem_cons_of_mem _ hx),
    (List.pairwise_cons.mp (h.sorted tip _ hc)).2, ?_, h.alone tip (by simp [hc])⟩
  intro q qs hq x hx
  refine h.order tip _ p rest hc rfl x ?_
  rw [show rest = q :: qs from hq]
  exact List.mem_cons_of_mem _ hx

theorem Shape.pop {s : Windows} (h : s.Shape) {tip : TipId} {generation : Nat} {p : Pending}
    {rest : List Pending} (hc : s.client tip = some ⟨generation, p :: rest⟩) :
    (s.setHost tip { s.hosts tip with client := some ⟨generation, rest⟩ }).Shape := by
  refine h.setHost tip _ (h.toQueues.pop hc) ?_
  rintro c ⟨⟩ x hx
  exact ⟨_, hc, rfl, x, List.mem_cons_of_mem _ hx, rfl, rfl⟩

theorem Shape.congr {s t : Windows} (h : s.Shape) (hh : t.hosts = s.hosts)
    (hn : t.nextToken = s.nextToken) (hw : t.waiting = s.waiting) : t.Shape := by
  have hc : t.client = s.client := by
    funext u
    simp [client, hh]
  refine ⟨⟨?_, ?_, ?_, ?_⟩, ?_⟩
  · simpa [hc, hn] using h.fresh
  · simpa [hc] using h.sorted
  · simpa [hc] using h.order
  · simpa [hc, hh] using h.alone
  · simpa [hc, hn, hw] using h.awaited

theorem step_shape {s t : Windows} {e : Event} (h : s.Shape) (hs : s.step e = some t) :
    t.Shape := by
  have h₀ : Shape { s with reply := none } := h.congr rfl rfl rfl
  cases e with
  | request request desktop =>
    obtain ⟨-, rfl⟩ := stepRequest_some hs
    exact (h.congr (t := { s with reply := none, requests := s.requests + 1 }) rfl rfl
      rfl).toQueues.perform _
  | select candidates =>
    obtain ⟨_, _, _, -, -, rfl⟩ := stepSelect_some hs
    exact h₀.toQueues.perform _
  | expire =>
    obtain ⟨_, _, -, rfl⟩ := stepExpire_some hs
    exact h₀.toQueues.perform _
  | execute tip env =>
    obtain ⟨g, p, rest, hc, hp, rfl⟩ := stepExecute_some hs
    refine Shape.congr (h₀.setHost tip _ (h₀.toQueues.setHost tip _ ?_) ?_) rfl rfl rfl
    · rintro c ⟨⟩
      have hsort := List.pairwise_cons.mp (h₀.sorted tip _ hc)
      refine ⟨?_, List.pairwise_cons.mpr ⟨fun x hx => hsort.1 x hx, hsort.2⟩, ?_,
        h₀.alone tip (by simp [hc])⟩
      · intro x hx
        rcases List.mem_cons.mp hx with rfl | hx
        · exact h₀.fresh tip _ hc p List.mem_cons_self
        · exact h₀.fresh tip _ hc x (List.mem_cons_of_mem _ hx)
      · intro q qs hq x hx
        obtain ⟨-, rfl⟩ : _ = q ∧ rest = qs := by simpa using hq
        exact h₀.order tip _ p rest hc rfl x hx
    · rintro c ⟨⟩ x hx
      refine ⟨_, hc, rfl, ?_⟩
      rcases List.mem_cons.mp hx with rfl | hx
      · exact ⟨p, List.mem_cons_self, rfl, rfl⟩
      · exact ⟨x, List.mem_cons_of_mem _ hx, rfl, rfl⟩
  | deliver tip =>
    obtain ⟨g, p, rest, answer, hc, hp, ⟨_, _, _, -, rfl⟩ | ⟨-, rfl⟩⟩ := stepDeliver_some hs
    · exact (h₀.toQueues.pop hc).perform _
    · exact h₀.pop hc
  | giveUp =>
    obtain ⟨_, _, _, _, -, rfl⟩ := stepGiveUp_some hs
    exact h₀.toQueues.perform _
  | disconnect tip =>
    obtain ⟨-, rfl⟩ := stepDisconnect_some hs
    exact h₀.setHost tip _ (h₀.toQueues.setHost tip _ (by simp [Host.disconnected]))
      (by simp [Host.disconnected])
  | executeDetached tip env =>
    obtain ⟨p, hp, rfl⟩ := stepExecuteDetached_some hs
    have hn : (s.hosts tip).client = none := by
      by_contra hne
      exact absurd (hp.symm.trans (h₀.alone tip hne)) (by simp)
    refine Shape.congr (h₀.setHost tip _ (h₀.toQueues.setHost tip _ ?_) ?_) rfl rfl rfl
    · simp [hn]
    · simp [hn]
  | dropDetached tip =>
    obtain rfl : _ = t := by simpa [step] using hs
    refine h₀.setHost tip _ (h₀.toQueues.setHost tip _ ?_) ?_
    · intro c hc
      exact ⟨h₀.fresh tip c hc, h₀.sorted tip c hc, fun p rest => h₀.order tip c p rest hc, rfl⟩
    · intro c hc p hp
      exact ⟨c, hc, rfl, p, hp, rfl, rfl⟩
  | connect tip =>
    obtain ⟨hc, hd, rfl⟩ := stepConnect_some hs
    refine Shape.congr (h₀.setHost tip _ (h₀.toQueues.setHost tip _ ?_) ?_) rfl rfl rfl
    · rintro c ⟨⟩
      exact ⟨by simp, by simp, by simp, hd⟩
    · rintro c ⟨⟩
      simp
  | deactivate tip =>
    obtain rfl : _ = t := by simpa [step] using hs
    exact h₀.setHost tip _ (h₀.toQueues.setHost tip _ (by simp)) (by simp)
  | externalEdit tip =>
    obtain rfl := step_externalEdit_some hs
    refine h₀.setHost tip _ (h₀.toQueues.setHost tip _ ?_) ?_
    · intro c hc
      exact ⟨h₀.fresh tip c hc, h₀.sorted tip c hc, fun p rest => h₀.order tip c p rest hc,
        h₀.alone tip (by rw [client]; simp_all)⟩
    · intro c hc p hp
      exact ⟨c, hc, rfl, p, hp, rfl, rfl⟩
  | physicalInput isReturn =>
    obtain rfl : _ = t := by simpa [step] using hs
    exact h.congr rfl rfl rfl
  | pipeLost =>
    obtain ⟨-, rfl⟩ := step_pipeLost_some hs
    exact h₀.toQueues.perform _
  | restart =>
    obtain rfl : _ = t := by simpa [step] using hs
    exact ⟨⟨by simp [client, Host.disconnected], by simp [client, Host.disconnected],
      by simp [client, Host.disconnected], by simp [client, Host.disconnected]⟩, by simp⟩

theorem shape_initial : Shape {} :=
  ⟨⟨by simp [client], by simp [client], by simp [client], by simp [client]⟩, by simp⟩

/-- The awaited command is the last one of its queue. -/
theorem Shape.awaited_last {s : Windows} (h : s.Shape) {tip : TipId} {generation : Nat}
    {p : Pending} {rest : List Pending} {key : TipKey} {command : TipCommand} {wait : Wait}
    (hc : s.client tip = some ⟨generation, p :: rest⟩)
    (hw : s.waiting = some (.call key command p.token wait)) :
    rest = [] ∧ key = ⟨tip, generation⟩ ∧ p.command = command := by
  obtain ⟨hn, ha⟩ := h.awaited _ _ _ _ hw
  refine ⟨?_, ha tip _ hc p List.mem_cons_self rfl⟩
  rw [List.eq_nil_iff_forall_not_mem]
  intro x hx
  have hlt := (List.pairwise_cons.mp (h.sorted tip _ hc)).1 x hx
  have hf := h.fresh tip _ hc x (List.mem_cons_of_mem _ hx)
  omega

/-- What the injector waits for fits to its session. -/
def Fits (s : Windows) : Prop :=
  ∀ w, s.waiting = some w → match w with
    | .select _ _ _ => s.injector.session = none
    | .call key command _ wait => s.injector.WaitFits key command wait

theorem fits_perform (s : Windows) (r : Injector × Next) (h : r.1.NextFits r.2) :
    (s.perform r).Fits := by
  intro w hw
  rw [perform_waiting] at hw
  rw [perform_injector]
  split at hw
  · rename_i key command wait hr
    obtain rfl : _ = w := by simpa using hw
    rw [hr] at h
    exact h
  · rename_i call rejected tried hr
    obtain rfl : _ = w := by simpa using hw
    rw [hr] at h
    exact h
  · simp at hw

theorem step_fits {s t : Windows} {e : Event} (h : s.Fits) (hs : s.step e = some t) : t.Fits := by
  have keep : ∀ u : Windows, u.waiting = s.waiting → u.injector = s.injector → u.Fits := by
    intro u hw hi w
    rw [hw, hi]
    exact h w
  cases e with
  | request request desktop =>
    obtain ⟨-, rfl⟩ := stepRequest_some hs
    exact fits_perform _ _ (s.injector.handleRequest_move desktop s.input request).fits
  | select candidates =>
    obtain ⟨call, rejected, tried, hw, -, rfl⟩ := stepSelect_some hs
    exact fits_perform _ _ (s.injector.beginCandidates_fits (h _ hw) call rejected candidates)
  | expire =>
    obtain ⟨_, _, -, rfl⟩ := stepExpire_some hs
    exact fits_perform _ _ trivial
  | execute tip env =>
    obtain ⟨_, _, _, -, -, rfl⟩ := stepExecute_some hs
    exact keep _ rfl rfl
  | deliver tip =>
    obtain ⟨_, p, _, answer, -, -, ⟨key, command, wait, hw, rfl⟩ | ⟨-, rfl⟩⟩ := stepDeliver_some hs
    · exact fits_perform _ _ (s.injector.resume_fits s.input key command wait _ (h _ hw))
    · exact keep _ rfl rfl
  | giveUp =>
    obtain ⟨key, command, token, wait, hw, rfl⟩ := stepGiveUp_some hs
    exact fits_perform _ _ (s.injector.resume_fits s.input key command wait none (h _ hw))
  | disconnect tip =>
    obtain ⟨-, rfl⟩ := stepDisconnect_some hs
    exact keep _ rfl rfl
  | executeDetached tip env =>
    obtain ⟨_, -, rfl⟩ := stepExecuteDetached_some hs
    exact keep _ rfl rfl
  | connect tip =>
    obtain ⟨-, -, rfl⟩ := stepConnect_some hs
    exact keep _ rfl rfl
  | externalEdit tip =>
    obtain rfl := step_externalEdit_some hs
    exact keep _ rfl rfl
  | pipeLost =>
    obtain ⟨-, rfl⟩ := step_pipeLost_some hs
    exact fits_perform _ _ (s.injector.endFailedSession_move _).fits
  | restart =>
    obtain rfl : _ = t := by simpa [step] using hs
    intro w hw
    simp at hw
  | dropDetached tip =>
    obtain rfl : _ = t := by simpa [step] using hs
    exact keep _ rfl rfl
  | deactivate tip =>
    obtain rfl : _ = t := by simpa [step] using hs
    exact keep _ rfl rfl
  | physicalInput isReturn =>
    obtain rfl : _ = t := by simpa [step] using hs
    exact keep _ rfl rfl

inductive Acts (s : Windows) : Event → Injector × Next → Prop
  | request (request : InjectorRequest) (desktop : Desktop) : s.waiting = none →
      Acts s (.request request desktop) (s.injector.handleRequest desktop s.input request)
  | select {call : TipBegin} {rejected tried : Bool} (candidates : List TipKey) :
      s.waiting = some (.select call rejected tried) →
      Acts s (.select candidates) (s.injector, beginCandidates call rejected candidates)
  | expire {call : TipBegin} {rejected tried : Bool} :
      s.waiting = some (.select call rejected tried) →
      Acts s .expire (s.injector, beginExpired rejected)
  | deliver {key : TipKey} {command : TipCommand} {token : Nat} {wait : Wait} (tip : TipId)
      (answer : TipResponse) : s.waiting = some (.call key command token wait) →
      Acts s (.deliver tip) (s.injector.resume s.input key wait (some answer))
  | giveUp {key : TipKey} {command : TipCommand} {token : Nat} {wait : Wait} :
      s.waiting = some (.call key command token wait) →
      Acts s .giveUp (s.injector.resume s.input key wait none)
  | pipeLost : s.waiting = none → Acts s .pipeLost s.injector.pipeLost

/-- A step leaves the injector alone, starts it anew, or carries out one of its
actions. -/
theorem step_acts {s t : Windows} {e : Event} (h : s.step e = some t) :
    (t.injector = s.injector ∧ t.waiting = s.waiting ∧ t.reply = none ∧
      (t.input = s.input ∨ ∃ isReturn, e = .physicalInput isReturn ∧
        t.input = ⟨s.input.epoch + 1, isReturn⟩)) ∨
    (e = .restart ∧ t.injector = {} ∧ t.waiting = none ∧ t.reply = none) ∨
    ∃ u r, t = perform u r ∧ u.input = s.input ∧ u.reply = none ∧ Acts s e r := by
  cases e with
  | request request desktop =>
    obtain ⟨hw, rfl⟩ := stepRequest_some h
    exact Or.inr (Or.inr ⟨_, _, rfl, rfl, rfl, .request request desktop hw⟩)
  | select candidates =>
    obtain ⟨call, rejected, tried, hw, -, rfl⟩ := stepSelect_some h
    exact Or.inr (Or.inr ⟨_, _, rfl, rfl, rfl, .select candidates hw⟩)
  | expire =>
    obtain ⟨call, rejected, hw, rfl⟩ := stepExpire_some h
    exact Or.inr (Or.inr ⟨_, _, rfl, rfl, rfl, .expire hw⟩)
  | execute tip env =>
    obtain ⟨_, _, _, -, -, rfl⟩ := stepExecute_some h
    exact Or.inl ⟨rfl, rfl, rfl, Or.inl rfl⟩
  | deliver tip =>
    obtain ⟨_, p, _, answer, -, -, ⟨key, command, wait, hw, rfl⟩ | ⟨-, rfl⟩⟩ := stepDeliver_some h
    · exact Or.inr (Or.inr ⟨_, _, rfl, rfl, rfl, .deliver tip answer hw⟩)
    · exact Or.inl ⟨rfl, rfl, rfl, Or.inl rfl⟩
  | giveUp =>
    obtain ⟨key, command, token, wait, hw, rfl⟩ := stepGiveUp_some h
    exact Or.inr (Or.inr ⟨_, _, rfl, rfl, rfl, .giveUp hw⟩)
  | disconnect tip =>
    obtain ⟨-, rfl⟩ := stepDisconnect_some h
    exact Or.inl ⟨rfl, rfl, rfl, Or.inl rfl⟩
  | executeDetached tip env =>
    obtain ⟨_, -, rfl⟩ := stepExecuteDetached_some h
    exact Or.inl ⟨rfl, rfl, rfl, Or.inl rfl⟩
  | connect tip =>
    obtain ⟨-, -, rfl⟩ := stepConnect_some h
    exact Or.inl ⟨rfl, rfl, rfl, Or.inl rfl⟩
  | externalEdit tip =>
    obtain rfl := step_externalEdit_some h
    exact Or.inl ⟨rfl, rfl, rfl, Or.inl rfl⟩
  | pipeLost =>
    obtain ⟨hw, rfl⟩ := step_pipeLost_some h
    exact Or.inr (Or.inr ⟨_, _, rfl, rfl, rfl, .pipeLost hw⟩)
  | restart =>
    obtain rfl : _ = t := by simpa [step] using h
    exact Or.inr (Or.inl ⟨rfl, rfl, rfl, rfl⟩)
  | physicalInput isReturn =>
    obtain rfl : _ = t := by simpa [step] using h
    exact Or.inl ⟨rfl, rfl, rfl, Or.inr ⟨isReturn, rfl, rfl⟩⟩
  | dropDetached tip =>
    obtain rfl : _ = t := by simpa [step] using h
    exact Or.inl ⟨rfl, rfl, rfl, Or.inl rfl⟩
  | deactivate tip =>
    obtain rfl : _ = t := by simpa [step] using h
    exact Or.inl ⟨rfl, rfl, rfl, Or.inl rfl⟩

end Windows

end FlowType
