import Mathlib.Logic.Function.Basic
import FlowType.Runs
import FlowType.Injector

/-! The broker of the injector and the pipe workers of the text services. A command
and its response are matched by their order on the pipe, by the token of a posted
message and by the channels at both ends; calls that have timed out leave their
commands behind. -/
namespace FlowType

/-- `response` is the number of the call, which is the channel that the caller waits
on. On the pipe only the command is written. -/
structure BrokerRequest where
  command : TipCommand
  response : Nat
  deriving DecidableEq, Repr

/-- `response` is the channel that the worker of the pipe waits on. -/
structure PendingCommand where
  command : TipCommand
  response : Nat
  deriving DecidableEq, Repr

/-- The worker of a text service: it reads the pipe, waits for its window to run the
command with the token, or has left the pipe. -/
inductive Worker
  | reading
  | waiting (token channel : Nat)
  | left
  deriving DecidableEq, Repr

/-- A connection: the thread of `serve_client`, the pipe and the worker. `queue` is
the channel of the client, `current` the request whose answer is read. -/
structure Link where
  id : TipId
  service : Nat
  queue : List BrokerRequest := []
  serving : Bool := true
  current : Option BrokerRequest := none
  commands : List BrokerRequest := []
  answers : List TipResponse := []
  worker : Worker := .reading
  deriving DecidableEq, Repr

structure TextService where
  composition : Composition := {}
  pending : Nat → Option PendingCommand := fun _ => none

def TextService.remove (service : TextService) (token : Nat) : TextService :=
  { service with pending := Function.update service.pending token none }

inductive CallPhase
  | sending | waiting | returned
  deriving DecidableEq, Repr

/-- A `send_to` for the client with this key. -/
structure BrokerCall where
  key : TipKey
  command : TipCommand
  phase : CallPhase := .sending
  deriving DecidableEq, Repr

structure Origin where
  key : TipKey
  request : BrokerRequest
  deriving DecidableEq, Repr

/-- A text service has run a command of this call, which it got as the client with
this key. -/
structure Execution where
  call : Nat
  key : TipKey
  command : TipCommand
  response : TipResponse
  deriving DecidableEq, Repr

/-- A link is named by the generation of its client; `clients` is the registry.
`origin` records for the channel of a worker which request it serves, `executed` what
text services have run, and `used` which responses calls have returned. -/
structure Broker where
  clients : TipId → Option Nat := fun _ => none
  candidates : List TipKey := []
  links : Nat → Option Link := fun _ => none
  nextGeneration : Nat := 1
  calls : Nat → Option BrokerCall := fun _ => none
  nextCall : Nat := 0
  services : Nat → TextService := fun _ => {}
  channels : Nat → Option TipResponse := fun _ => none
  nextChannel : Nat := 0
  origin : Nat → Option Origin := fun _ => none
  executed : List Execution := []
  used : List (Nat × TipResponse) := []

namespace Broker

def CAPACITY : Nat := 8

inductive Event
  /-- A worker opens a pipe, and its hello is accepted. -/
  | connect (id : TipId) (service : Nat)
  /-- `TipRegistry::send` finds the client. -/
  | send (key : TipKey) (command : TipCommand)
  /-- `begin_for_target` copies clients of the registry. -/
  | candidates (keys : List TipKey)
  /-- `begin_for_target` sends to one of its candidates. -/
  | offer (key : TipKey) (command : TipCommand)
  /-- There is room in the channel of the client. -/
  | enqueue (call : Nat)
  /-- The thread of the client has ended. -/
  | sendFails (call : Nat)
  /-- No response within 1.5 s, or the request was dropped. -/
  | timeOut (call : Nat)
  | write (generation : Nat)
  | read (generation : Nat)
  /-- A write or read error, or the last sender is gone: the loop ends. -/
  | endLoop (generation : Nat)
  | deregister (generation : Nat)
  /-- The worker reads a command and posts its token. -/
  | accept (generation token : Nat)
  /-- A message reaches the window: a posted token, sooner or later, or any other
  number. -/
  | message (service token : Nat) (env : EditEnv)
  | answer (generation : Nat)
  /-- The worker cannot write the response. -/
  | answerFails (generation : Nat)
  /-- The worker leaves, and takes back a command it waits for. -/
  | leave (generation : Nat)
  /-- `Worker::stop`. -/
  | clear (service : Nat)
  /-- Anything else that happens to the composition of a text service. -/
  | edit (service : Nat) (composition : Composition)

def setLink (s : Broker) (generation : Nat) (link : Link) : Broker :=
  { s with links := Function.update s.links generation (some link) }

def setCall (s : Broker) (n : Nat) (call : BrokerCall) : Broker :=
  { s with calls := Function.update s.calls n (some call) }

def setService (s : Broker) (n : Nat) (service : TextService) : Broker :=
  { s with services := Function.update s.services n service }

def call (s : Broker) (key : TipKey) (command : TipCommand) : Broker :=
  { s.setCall s.nextCall { key := key, command := command } with nextCall := s.nextCall + 1 }

def stepEnqueue (s : Broker) (n : Nat) : Option Broker :=
  match s.calls n with
  | some ⟨key, command, .sending⟩ =>
    match s.links key.generation with
    | none => none
    | some link =>
      if link.serving = true ∧ link.queue.length < CAPACITY then
        some ((s.setLink key.generation { link with queue := link.queue ++ [⟨command, n⟩] }).setCall
          n ⟨key, command, .waiting⟩)
      else none
  | _ => none

def stepSendFails (s : Broker) (n : Nat) : Option Broker :=
  match s.calls n with
  | some ⟨key, command, .sending⟩ =>
    match s.links key.generation with
    | none => none
    | some link =>
      if link.serving then none else some (s.setCall n ⟨key, command, .returned⟩)
  | _ => none

def stepTimeOut (s : Broker) (n : Nat) : Option Broker :=
  match s.calls n with
  | some ⟨key, command, .waiting⟩ => some (s.setCall n ⟨key, command, .returned⟩)
  | _ => none

def stepWrite (s : Broker) (generation : Nat) : Option Broker :=
  match s.links generation with
  | none => none
  | some link =>
    match link.serving, link.current, link.queue with
    | true, none, request :: rest => some (s.setLink generation
        { link with
          queue := rest
          current := some request
          commands := link.commands ++ [request] })
    | _, _, _ => none

def stepRead (s : Broker) (generation : Nat) : Option Broker :=
  match s.links generation with
  | none => none
  | some link =>
    match link.serving, link.current, link.answers with
    | true, some request, response :: rest =>
      let s' := s.setLink generation { link with current := none, answers := rest }
      match s.calls request.response with
      | some ⟨key, command, .waiting⟩ =>
        some { s'.setCall request.response ⟨key, command, .returned⟩ with
          used := (request.response, response) :: s.used }
      | _ => some s'
    | _, _, _ => none

def stepEndLoop (s : Broker) (generation : Nat) : Option Broker :=
  match s.links generation with
  | none => none
  | some link => some (s.setLink generation
      { link with serving := false, current := none, queue := [] })

def stepDeregister (s : Broker) (generation : Nat) : Option Broker :=
  match s.links generation with
  | none => none
  | some link =>
    if link.serving then none
    else if s.clients link.id = some generation then
      some { s with clients := Function.update s.clients link.id none }
    else some s

def stepAccept (s : Broker) (generation token : Nat) : Option Broker :=
  match s.links generation with
  | none => none
  | some link =>
    match link.worker, link.commands with
    | .reading, request :: rest =>
      let service := s.services link.service
      if token ≠ 0 ∧ service.pending token = none then
        some { (s.setLink generation
            { link with commands := rest, worker := .waiting token s.nextChannel }).setService
              link.service { service with
                pending := Function.update service.pending token
                  (some ⟨request.command, s.nextChannel⟩) } with
          nextChannel := s.nextChannel + 1
          origin := Function.update s.origin s.nextChannel (some ⟨⟨link.id, generation⟩, request⟩) }
      else none
    | _, _ => none

/-- `window_proc`: an unknown token is ignored. -/
def stepMessage (s : Broker) (n token : Nat) (env : EditEnv) : Option Broker :=
  let service := s.services n
  match service.pending token with
  | none => some s
  | some p =>
    let r := service.composition.handleCommand env p.command
    some { s.setService n { service.remove token with composition := r.composition } with
      channels := Function.update s.channels p.response (some r.response)
      executed := ((s.origin p.response).map fun origin =>
        ⟨origin.request.response, origin.key, p.command, r.response⟩).toList ++ s.executed }

def stepAnswer (s : Broker) (generation : Nat) : Option Broker :=
  match s.links generation with
  | none => none
  | some link =>
    match link.worker with
    | .waiting _ channel => (s.channels channel).map fun response =>
        s.setLink generation { link with
          answers := link.answers ++ [response]
          worker := .reading }
    | _ => none

def stepAnswerFails (s : Broker) (generation : Nat) : Option Broker :=
  match s.links generation with
  | none => none
  | some link =>
    match link.worker with
    | .waiting _ channel =>
      if s.channels channel = none then none
      else some (s.setLink generation { link with worker := .left })
    | _ => none

def stepLeave (s : Broker) (generation : Nat) : Option Broker :=
  match s.links generation with
  | none => none
  | some link =>
    let s' := s.setLink generation { link with worker := .left }
    match link.worker with
    | .waiting token _ =>
      some (s'.setService link.service ((s.services link.service).remove token))
    | _ => some s'

def step (s : Broker) : Event → Option Broker
  | .connect id service => some { s with
      links := Function.update s.links s.nextGeneration (some { id := id, service := service })
      clients := Function.update s.clients id (some s.nextGeneration)
      nextGeneration := s.nextGeneration + 1 }
  | .send key command =>
    if s.clients key.id = some key.generation then some (s.call key command) else none
  | .candidates keys =>
    if ∀ key ∈ keys, s.clients key.id = some key.generation then
      some { s with candidates := keys } else none
  | .offer key command => if key ∈ s.candidates then some (s.call key command) else none
  | .enqueue n => s.stepEnqueue n
  | .sendFails n => s.stepSendFails n
  | .timeOut n => s.stepTimeOut n
  | .write generation => s.stepWrite generation
  | .read generation => s.stepRead generation
  | .endLoop generation => s.stepEndLoop generation
  | .deregister generation => s.stepDeregister generation
  | .accept generation token => s.stepAccept generation token
  | .message service token env => s.stepMessage service token env
  | .answer generation => s.stepAnswer generation
  | .answerFails generation => s.stepAnswerFails generation
  | .leave generation => s.stepLeave generation
  | .clear service => some (s.setService service
      { s.services service with pending := fun _ => none })
  | .edit service composition => some (s.setService service
      { s.services service with composition := composition })

/-- Every response that a call has returned was produced by a text service that ran
the command of this call, and every command was run by the client with the key it was
sent to. -/
structure Attributed (s : Broker) : Prop where
  used : ∀ n response, (n, response) ∈ s.used → ∃ call, s.calls n = some call ∧
    ⟨n, call.key, call.command, response⟩ ∈ s.executed
  reached : ∀ x ∈ s.executed, ∃ call, s.calls x.call = some call ∧ call.key = x.key ∧
    call.command = x.command

def Sent (s : Broker) (origin : Origin) : Prop :=
  ∃ call, s.calls origin.request.response = some call ∧ call.key = origin.key ∧
    call.command = origin.request.command

def Executed (s : Broker) (origin : Origin) (response : TipResponse) : Prop :=
  ⟨origin.request.response, origin.key, origin.request.command, response⟩ ∈ s.executed

def Known (s : Broker) (key : TipKey) : Prop :=
  ∃ link, s.links key.generation = some link ∧ link.id = key.id

/-- Where the current request of a link is: in the pipe, with the worker, or answered
by a response in the pipe. -/
def Exchange (s : Broker) (key : TipKey) (link : Link) (request : BrokerRequest) : Prop :=
  (link.commands = [request] ∧ link.answers = [] ∧
    ∀ token channel, link.worker ≠ .waiting token channel) ∨
  (link.commands = [] ∧ link.answers = [] ∧ ∀ token channel,
    link.worker = .waiting token channel → s.origin channel = some ⟨key, request⟩) ∨
  (∃ response, link.commands = [] ∧ link.answers = [response] ∧
    s.Executed ⟨key, request⟩ response ∧ ∀ token channel, link.worker ≠ .waiting token channel)

structure LinkInv (s : Broker) (generation : Nat) (link : Link) : Prop where
  queued : ∀ request ∈ link.queue, s.Sent ⟨⟨link.id, generation⟩, request⟩
  written : ∀ request ∈ link.commands, s.Sent ⟨⟨link.id, generation⟩, request⟩
  current : ∀ request, link.current = some request → s.Sent ⟨⟨link.id, generation⟩, request⟩
  busy : link.serving = true → ∀ request, link.current = some request →
    s.Exchange ⟨link.id, generation⟩ link request
  idle : link.serving = true → link.current = none → link.commands = [] ∧ link.answers = [] ∧
    ∀ token channel, link.worker ≠ .waiting token channel

structure Inv (s : Broker) : Prop where
  links_lt : ∀ generation link, s.links generation = some link → generation < s.nextGeneration
  calls_lt : ∀ n call, s.calls n = some call → n < s.nextCall
  origin_lt : ∀ channel origin, s.origin channel = some origin → channel < s.nextChannel
  client : ∀ id generation, s.clients id = some generation → s.Known ⟨id, generation⟩
  candidate : ∀ key ∈ s.candidates, s.Known key
  called : ∀ n call, s.calls n = some call → s.Known call.key
  link : ∀ generation link, s.links generation = some link → s.LinkInv generation link
  origin : ∀ channel origin, s.origin channel = some origin → s.Sent origin
  pending : ∀ n token p, (s.services n).pending token = some p →
    ∃ origin, s.origin p.response = some origin ∧ origin.request.command = p.command
  channel : ∀ channel response, s.channels channel = some response →
    ∃ origin, s.origin channel = some origin ∧ s.Executed origin response
  attributed : s.Attributed

structure Grows (s t : Broker) : Prop where
  sent : ∀ origin, s.Sent origin → t.Sent origin
  known : ∀ key, s.Known key → t.Known key
  origin : ∀ channel origin, s.origin channel = some origin → t.origin channel = some origin
  executed : ∀ x ∈ s.executed, x ∈ t.executed

theorem LinkInv.mono {s t : Broker} {generation : Nat} {link : Link}
    (h : s.LinkInv generation link) (hg : s.Grows t) : t.LinkInv generation link := by
  refine ⟨?_, ?_, ?_, ?_, h.idle⟩
  · exact fun request hr => hg.sent _ (h.queued request hr)
  · exact fun request hr => hg.sent _ (h.written request hr)
  · exact fun request hr => hg.sent _ (h.current request hr)
  · intro hs request hr
    rcases h.busy hs request hr with h1 | ⟨hc, ha, hw⟩ | ⟨response, hc, ha, he, hw⟩
    · exact Or.inl h1
    · exact Or.inr (Or.inl ⟨hc, ha, fun token channel hwt => hg.origin _ _ (hw token channel hwt)⟩)
    · exact Or.inr (Or.inr ⟨response, hc, ha, hg.executed _ he, hw⟩)

theorem Inv.setLink {s : Broker} (h : s.Inv) {generation : Nat} {link link' : Link}
    (hl : s.links generation = some link) (hid : link'.id = link.id)
    (hlink : s.LinkInv generation link') : (s.setLink generation link').Inv := by
  have hknown : ∀ key, s.Known key → (s.setLink generation link').Known key := by
    rintro key ⟨l, hl', hkey⟩
    by_cases hg : key.generation = generation
    · refine ⟨link', by simp [Broker.setLink, hg], ?_⟩
      obtain rfl : link = l := by simpa [hg, hl] using hl'
      exact hid.trans hkey
    · exact ⟨l, by simpa [Broker.setLink, Function.update_of_ne hg] using hl', hkey⟩
  have hgrows : s.Grows (s.setLink generation link') :=
    ⟨fun _ ho => ho, hknown, fun _ _ ho => ho, fun _ hx => hx⟩
  refine ⟨?_, h.calls_lt, h.origin_lt, fun id g hc => hknown _ (h.client id g hc),
    fun key hk => hknown _ (h.candidate key hk), fun n call hc => hknown _ (h.called n call hc), ?_,
    h.origin, h.pending, h.channel, ⟨h.attributed.used, h.attributed.reached⟩⟩
  · intro g l hg
    by_cases hgen : g = generation
    · subst hgen
      exact h.links_lt g link hl
    · exact h.links_lt g l (by simpa [Broker.setLink, Function.update_of_ne hgen] using hg)
  · intro g l hg
    by_cases hgen : g = generation
    · subst hgen
      obtain rfl : link' = l := by simpa [Broker.setLink] using hg
      exact hlink.mono hgrows
    · exact (h.link g l (by simpa [Broker.setLink, Function.update_of_ne hgen] using hg)).mono
        hgrows

theorem Inv.setPhase {s : Broker} (h : s.Inv) {n : Nat} {key : TipKey} {command : TipCommand}
    {phase : CallPhase} (hc : s.calls n = some ⟨key, command, phase⟩) (phase' : CallPhase) :
    (s.setCall n ⟨key, command, phase'⟩).Inv := by
  have hcalls : ∀ k call, s.calls k = some call → ∃ call',
      (s.setCall n ⟨key, command, phase'⟩).calls k = some call' ∧ call'.key = call.key ∧
        call'.command = call.command := by
    intro k call hk
    by_cases hkn : k = n
    · subst hkn
      obtain rfl : _ = call := by simpa [hc] using hk
      exact ⟨⟨key, command, phase'⟩, Function.update_self .., rfl, rfl⟩
    · exact ⟨call, by simpa [setCall, Function.update_of_ne hkn] using hk, rfl, rfl⟩
  have hback : ∀ k call, (s.setCall n ⟨key, command, phase'⟩).calls k = some call →
      ∃ call', s.calls k = some call' ∧ call'.key = call.key := by
    intro k call hk
    by_cases hkn : k = n
    · subst hkn
      obtain rfl : _ = call := by simpa [setCall] using hk
      exact ⟨_, hc, rfl⟩
    · exact ⟨call, by simpa [setCall, Function.update_of_ne hkn] using hk, rfl⟩
  have hsent : ∀ origin, s.Sent origin → (s.setCall n ⟨key, command, phase'⟩).Sent origin := by
    rintro origin ⟨call, hcall, hkey, hcommand⟩
    obtain ⟨call', hcall', hkey', hcommand'⟩ := hcalls _ _ hcall
    exact ⟨call', hcall', hkey'.trans hkey, hcommand'.trans hcommand⟩
  have hgrows : s.Grows (s.setCall n ⟨key, command, phase'⟩) :=
    ⟨hsent, fun _ hk => hk, fun _ _ ho => ho, fun _ hx => hx⟩
  refine ⟨h.links_lt, ?_, h.origin_lt, h.client, h.candidate, ?_, ?_, ?_, h.pending, h.channel,
    ⟨?_, ?_⟩⟩
  · intro k call hk
    obtain ⟨call', hk', -⟩ := hback k call hk
    exact h.calls_lt k call' hk'
  · intro k call hk
    obtain ⟨call', hk', hkey⟩ := hback k call hk
    rw [← hkey]
    exact h.called k call' hk'
  · exact fun g l hg => (h.link g l hg).mono hgrows
  · exact fun channel origin ho => hsent origin (h.origin channel origin ho)
  · intro k response hk
    obtain ⟨call, hcall, hx⟩ := h.attributed.used k response hk
    obtain ⟨call', hcall', hkey', hcommand'⟩ := hcalls k call hcall
    exact ⟨call', hcall', by rw [hkey', hcommand']; exact hx⟩
  · intro x hx
    obtain ⟨call, hcall, hkey, hcommand⟩ := h.attributed.reached x hx
    obtain ⟨call', hcall', hkey', hcommand'⟩ := hcalls _ call hcall
    exact ⟨call', hcall', hkey'.trans hkey, hcommand'.trans hcommand⟩

theorem Inv.call {s : Broker} (h : s.Inv) {key : TipKey} (hk : s.Known key)
    (command : TipCommand) : (s.call key command).Inv := by
  have hcalls : ∀ k c, s.calls k = some c → (s.call key command).calls k = some c := by
    intro k c hc
    have := h.calls_lt k c hc
    have hne : k ≠ s.nextCall := by omega
    simpa [Broker.call, setCall, Function.update_of_ne hne] using hc
  have hsent : ∀ origin, s.Sent origin → (s.call key command).Sent origin := by
    rintro origin ⟨c, hc, hrest⟩
    exact ⟨c, hcalls _ c hc, hrest⟩
  have hgrows : s.Grows (s.call key command) :=
    ⟨hsent, fun _ hk => hk, fun _ _ ho => ho, fun _ hx => hx⟩
  have hback : ∀ k c, (s.call key command).calls k = some c →
      (k = s.nextCall ∧ c.key = key) ∨ s.calls k = some c := by
    intro k c hc
    by_cases hn : k = s.nextCall
    · subst hn
      obtain rfl : _ = c := by simpa [Broker.call, setCall] using hc
      exact Or.inl ⟨rfl, rfl⟩
    · exact Or.inr (by simpa [Broker.call, setCall, Function.update_of_ne hn] using hc)
  refine ⟨h.links_lt, ?_, h.origin_lt, h.client, h.candidate, ?_, ?_, ?_, h.pending, h.channel,
    ⟨?_, ?_⟩⟩
  · intro k c hc
    show k < s.nextCall + 1
    rcases hback k c hc with ⟨rfl, -⟩ | hc
    · omega
    · have := h.calls_lt k c hc
      omega
  · intro k c hc
    rcases hback k c hc with ⟨-, rfl⟩ | hc
    · exact hk
    · exact h.called k c hc
  · exact fun g l hg => (h.link g l hg).mono hgrows
  · exact fun channel origin ho => hsent origin (h.origin channel origin ho)
  · intro k response hu
    obtain ⟨c, hc, hx⟩ := h.attributed.used k response hu
    exact ⟨c, hcalls k c hc, hx⟩
  · intro x hx
    obtain ⟨c, hc, hrest⟩ := h.attributed.reached x hx
    exact ⟨c, hcalls _ c hc, hrest⟩

theorem Inv.setService {s : Broker} (h : s.Inv) (n : Nat) (service : TextService)
    (hpending : ∀ token p, service.pending token = some p →
      (s.services n).pending token = some p) : (s.setService n service).Inv := by
  refine ⟨h.links_lt, h.calls_lt, h.origin_lt, h.client, h.candidate, h.called,
    fun g l hg => (h.link g l hg).mono ⟨fun _ ho => ho, fun _ hk => hk, fun _ _ ho => ho,
      fun _ hx => hx⟩, h.origin, ?_, h.channel, ⟨h.attributed.used, h.attributed.reached⟩⟩
  intro m token p hp
  by_cases hm : m = n
  · subst hm
    exact h.pending m token p (hpending token p (by simpa [Broker.setService] using hp))
  · exact h.pending m token p (by simpa [Broker.setService, Function.update_of_ne hm] using hp)

theorem Inv.openChannel {s : Broker} (h : s.Inv) {origin : Origin} (ho : s.Sent origin) :
    Inv { s with
      nextChannel := s.nextChannel + 1
      origin := Function.update s.origin s.nextChannel (some origin) } := by
  have horigin : ∀ channel o, s.origin channel = some o →
      Function.update s.origin s.nextChannel (some origin) channel = some o := by
    intro channel o hc
    have := h.origin_lt channel o hc
    rw [Function.update_of_ne (by omega)]
    exact hc
  refine ⟨h.links_lt, h.calls_lt, ?_, h.client, h.candidate, h.called, ?_, ?_, ?_, ?_,
    ⟨h.attributed.used, h.attributed.reached⟩⟩
  · intro channel o hc
    simp only [Function.update_apply] at hc ⊢
    split at hc
    · omega
    · have := h.origin_lt channel o hc
      omega
  · exact fun g l hg => (h.link g l hg).mono ⟨fun _ hs => hs, fun _ hk => hk, horigin, fun _ hx => hx⟩
  · intro channel o hc
    simp only [Function.update_apply] at hc
    split at hc
    · obtain rfl := Option.some.inj hc
      exact ho
    · exact h.origin channel o hc
  · intro n token p hp
    obtain ⟨o, hc, hcommand⟩ := h.pending n token p hp
    exact ⟨o, horigin _ o hc, hcommand⟩
  · intro channel response hr
    obtain ⟨o, hc, hx⟩ := h.channel channel response hr
    exact ⟨o, horigin _ o hc, hx⟩

theorem Inv.insertPending {s : Broker} (h : s.Inv) (n token : Nat) (p : PendingCommand)
    (origin : Origin) (ho : s.origin p.response = some origin)
    (hcommand : origin.request.command = p.command) :
    (s.setService n { s.services n with
      pending := Function.update (s.services n).pending token (some p) }).Inv := by
  refine ⟨h.links_lt, h.calls_lt, h.origin_lt, h.client, h.candidate, h.called,
    fun g l hg => (h.link g l hg).mono ⟨fun _ ho => ho, fun _ hk => hk, fun _ _ ho => ho,
      fun _ hx => hx⟩, h.origin, ?_, h.channel, ⟨h.attributed.used, h.attributed.reached⟩⟩
  intro m t q hq
  by_cases hm : m = n
  · subst hm
    simp only [Broker.setService, Function.update_self] at hq
    by_cases ht : t = token
    · subst ht
      obtain rfl : p = q := by simpa using hq
      exact ⟨origin, ho, hcommand⟩
    · exact h.pending m t q (by simpa [Function.update_of_ne ht] using hq)
  · exact h.pending m t q (by simpa [Broker.setService, Function.update_of_ne hm] using hq)

theorem Inv.execute {s : Broker} (h : s.Inv) {channel : Nat} {origin : Origin}
    (ho : s.origin channel = some origin) (response : TipResponse) :
    Inv { s with
      channels := Function.update s.channels channel (some response)
      executed := ⟨origin.request.response, origin.key, origin.request.command, response⟩ ::
        s.executed } := by
  refine ⟨h.links_lt, h.calls_lt, h.origin_lt, h.client, h.candidate, h.called, ?_, h.origin,
    h.pending, ?_, ⟨?_, ?_⟩⟩
  · exact fun g l hg => (h.link g l hg).mono ⟨fun _ hs => hs, fun _ hk => hk, fun _ _ ho => ho,
      fun _ hx => List.mem_cons_of_mem _ hx⟩
  · intro c r hr
    simp only [Function.update_apply] at hr
    split at hr
    · rename_i hc
      obtain rfl := Option.some.inj hr
      exact ⟨origin, hc ▸ ho, List.mem_cons_self⟩
    · obtain ⟨o, hc, hx⟩ := h.channel c r hr
      exact ⟨o, hc, List.mem_cons_of_mem _ hx⟩
  · intro n r hu
    obtain ⟨call, hc, hx⟩ := h.attributed.used n r hu
    exact ⟨call, hc, List.mem_cons_of_mem _ hx⟩
  · intro x hx
    rcases List.mem_cons.mp hx with rfl | hx
    · exact h.origin channel origin ho
    · exact h.attributed.reached x hx

theorem Inv.use {s : Broker} (h : s.Inv) {n : Nat} (call : BrokerCall) {response : TipResponse}
    (hc : s.calls n = some call) (hx : ⟨n, call.key, call.command, response⟩ ∈ s.executed) :
    Inv { s with used := (n, response) :: s.used } := by
  refine ⟨h.links_lt, h.calls_lt, h.origin_lt, h.client, h.candidate, h.called,
    fun g l hg => (h.link g l hg).mono ⟨fun _ ho => ho, fun _ hk => hk, fun _ _ ho => ho,
      fun _ hx => hx⟩, h.origin, h.pending, h.channel, ⟨?_, h.attributed.reached⟩⟩
  intro m r hu
  rcases List.mem_cons.mp hu with hu | hu
  · obtain ⟨rfl, rfl⟩ := Prod.mk.inj hu
    exact ⟨call, hc, hx⟩
  · exact h.attributed.used m r hu

theorem Inv.connect {s : Broker} (h : s.Inv) (id : TipId) (service : Nat) :
    Inv { s with
      links := Function.update s.links s.nextGeneration (some { id := id, service := service })
      clients := Function.update s.clients id (some s.nextGeneration)
      nextGeneration := s.nextGeneration + 1 } := by
  have hold : ∀ g l, s.links g = some l →
      Function.update s.links s.nextGeneration (some { id := id, service := service }) g =
        some l := by
    intro g l hl
    have := h.links_lt g l hl
    rw [Function.update_of_ne (by omega)]
    exact hl
  have hknown : ∀ key, s.Known key → Known { s with
      links := Function.update s.links s.nextGeneration (some { id := id, service := service })
      clients := Function.update s.clients id (some s.nextGeneration)
      nextGeneration := s.nextGeneration + 1 } key := by
    rintro key ⟨l, hl, hkey⟩
    exact ⟨l, hold _ l hl, hkey⟩
  refine ⟨?_, h.calls_lt, h.origin_lt, ?_, fun key hk => hknown key (h.candidate key hk),
    fun n call hc => hknown _ (h.called n call hc), ?_, h.origin, h.pending, h.channel,
    ⟨h.attributed.used, h.attributed.reached⟩⟩
  · intro g l hl
    simp only [Function.update_apply] at hl ⊢
    split at hl
    · omega
    · have := h.links_lt g l hl
      omega
  · intro id' g hc
    simp only [Function.update_apply] at hc
    split at hc
    · rename_i hid
      obtain rfl := Option.some.inj hc
      exact ⟨{ id := id, service := service }, by simp, hid.symm⟩
    · exact hknown _ (h.client id' g hc)
  · intro g l hl
    simp only [Function.update_apply] at hl
    split at hl
    · obtain rfl := Option.some.inj hl
      refine ⟨by simp, by simp, by simp, by simp, ?_⟩
      exact fun _ _ => ⟨rfl, rfl, by simp⟩
    · exact (h.link g l hl).mono ⟨fun _ ho => ho, hknown, fun _ _ ho => ho, fun _ hx => hx⟩

theorem Inv.forget {s : Broker} (h : s.Inv) (id : TipId) :
    Inv { s with clients := Function.update s.clients id none } := by
  refine ⟨h.links_lt, h.calls_lt, h.origin_lt, ?_, h.candidate, h.called,
    fun g l hg => (h.link g l hg).mono ⟨fun _ ho => ho, fun _ hk => hk, fun _ _ ho => ho,
      fun _ hx => hx⟩, h.origin, h.pending, h.channel, ⟨h.attributed.used, h.attributed.reached⟩⟩
  intro id' g hc
  simp only [Function.update_apply] at hc
  split at hc
  · simp at hc
  · exact h.client id' g hc

theorem Inv.candidates {s : Broker} (h : s.Inv) (keys : List TipKey)
    (hkeys : ∀ key ∈ keys, s.clients key.id = some key.generation) :
    Inv { s with candidates := keys } :=
  ⟨h.links_lt, h.calls_lt, h.origin_lt, h.client,
    fun key hk => h.client key.id key.generation (hkeys key hk), h.called,
    fun g l hg => (h.link g l hg).mono ⟨fun _ ho => ho, fun _ hk => hk, fun _ _ ho => ho,
      fun _ hx => hx⟩, h.origin, h.pending, h.channel, ⟨h.attributed.used, h.attributed.reached⟩⟩

theorem Inv.enqueue {s t : Broker} (h : s.Inv) {n : Nat} (hs : s.stepEnqueue n = some t) :
    t.Inv := by
  unfold stepEnqueue at hs
  split at hs
  · rename_i key command hcall
    split at hs
    · simp at hs
    · rename_i link hlink
      split_ifs at hs
      obtain rfl := Option.some.inj hs
      have hinv := h.link _ _ hlink
      obtain ⟨l, hl, hid⟩ := h.called n _ hcall
      obtain rfl : link = l := Option.some.inj (hlink.symm.trans hl)
      have hlinv : s.LinkInv key.generation
          { link with queue := link.queue ++ [⟨command, n⟩] } := by
        refine ⟨?_, hinv.written, hinv.current, hinv.busy, hinv.idle⟩
        intro request hr
        rcases List.mem_append.mp hr with hr | hr
        · exact hinv.queued request hr
        · obtain rfl := List.mem_singleton.mp hr
          exact ⟨_, hcall, by simp only [hid], rfl⟩
      have hlinked : (s.setLink key.generation
          { link with queue := link.queue ++ [⟨command, n⟩] }).Inv := h.setLink hlink rfl hlinv
      exact hlinked.setPhase hcall .waiting
  · simp at hs

theorem Inv.write {s t : Broker} (h : s.Inv) {generation : Nat}
    (hs : s.stepWrite generation = some t) : t.Inv := by
  unfold stepWrite at hs
  split at hs
  · simp at hs
  · rename_i link hlink
    split at hs
    · rename_i request rest hserving hcurrent hqueue
      obtain rfl := Option.some.inj hs
      have hinv := h.link _ _ hlink
      obtain ⟨hcommands, hanswers, hworker⟩ := hinv.idle hserving hcurrent
      have hsent := hinv.queued request (by simp [hqueue])
      refine h.setLink hlink rfl ⟨?_, ?_, ?_, ?_, by simp⟩
      · exact fun r hr => hinv.queued r (by simp [hqueue, hr])
      · intro r hr
        obtain rfl : r = request := by simpa [hcommands] using hr
        exact hsent
      · rintro r ⟨⟩
        exact hsent
      · rintro - r ⟨⟩
        exact Or.inl ⟨by simp [hcommands], hanswers, hworker⟩
    · simp at hs

theorem Inv.read {s t : Broker} (h : s.Inv) {generation : Nat}
    (hs : s.stepRead generation = some t) : t.Inv := by
  unfold stepRead at hs
  split at hs
  · simp at hs
  · rename_i link hlink
    split at hs
    · rename_i request response rest hserving hcurrent hanswers
      have hinv := h.link _ _ hlink
      -- the only response in the pipe is the one to the current request
      obtain ⟨hcommands, rfl, hx, hworker⟩ : link.commands = [] ∧ rest = [] ∧
          s.Executed ⟨⟨link.id, generation⟩, request⟩ response ∧
          ∀ token channel, link.worker ≠ .waiting token channel := by
        rcases hinv.busy hserving request hcurrent with ⟨-, ha, -⟩ | ⟨-, ha, -⟩ |
          ⟨r, hc, ha, hx, hw⟩
        · simp [hanswers] at ha
        · simp [hanswers] at ha
        · obtain ⟨rfl, rfl⟩ : response = r ∧ rest = [] := by simpa [hanswers] using ha
          exact ⟨hc, rfl, hx, hw⟩
      have hread : (s.setLink generation { link with current := none, answers := [] }).Inv := by
        refine h.setLink hlink rfl ⟨hinv.queued, hinv.written, by simp, by simp, ?_⟩
        exact fun _ _ => ⟨hcommands, rfl, hworker⟩
      obtain ⟨call, hcall, hkey, hcommand⟩ := hinv.current request hcurrent
      dsimp only at hs
      split at hs
      · rename_i key command hwaiting
        obtain rfl := Option.some.inj hs
        obtain rfl : call = _ := Option.some.inj (hcall.symm.trans hwaiting)
        have hphase := hread.setPhase hwaiting .returned
        refine hphase.use ⟨key, command, .returned⟩ (Function.update_self ..) ?_
        dsimp only at hkey hcommand
        rw [hkey, hcommand]
        exact hx
      · obtain rfl := Option.some.inj hs
        exact hread
    · simp at hs

theorem Inv.endLoop {s t : Broker} (h : s.Inv) {generation : Nat}
    (hs : s.stepEndLoop generation = some t) : t.Inv := by
  unfold stepEndLoop at hs
  split at hs
  · simp at hs
  · rename_i link hlink
    obtain rfl := Option.some.inj hs
    exact h.setLink hlink rfl ⟨by simp, (h.link _ _ hlink).written, by simp, by simp, by simp⟩

theorem Inv.accept {s t : Broker} (h : s.Inv) {generation token : Nat}
    (hs : s.stepAccept generation token = some t) : t.Inv := by
  unfold stepAccept at hs
  split at hs
  · simp at hs
  · rename_i link hlink
    split at hs
    · rename_i request rest hworker hcommands
      dsimp only at hs
      split_ifs at hs
      obtain rfl := Option.some.inj hs
      have hinv := h.link _ _ hlink
      have hsent := hinv.written request (by simp [hcommands])
      have hopen := h.openChannel hsent
      have hinsert := hopen.insertPending link.service token ⟨request.command, s.nextChannel⟩
        ⟨⟨link.id, generation⟩, request⟩ (Function.update_self ..) rfl
      refine hinsert.setLink hlink rfl ?_
      refine ⟨hinv.queued, ?_, hinv.current, ?_, ?_⟩
      · exact fun r hr => hinv.written r (by simp [hcommands, hr])
      · intro hserving r hr
        rcases hinv.busy hserving r hr with ⟨hc, ha, -⟩ | ⟨hc, -⟩ | ⟨_, hc, -⟩
        · -- the command is the one of the current request
          obtain ⟨rfl, rfl⟩ : request = r ∧ rest = [] := by simpa [hcommands] using hc
          refine Or.inr (Or.inl ⟨rfl, ha, ?_⟩)
          rintro token' channel' ⟨⟩
          exact Function.update_self ..
        · simp [hcommands] at hc
        · simp [hcommands] at hc
      · intro hserving hcurrent
        have hnone := (hinv.idle hserving hcurrent).1
        simp [hcommands] at hnone
    · simp at hs

theorem Inv.message {s t : Broker} (h : s.Inv) {n token : Nat} {env : EditEnv}
    (hs : s.stepMessage n token env = some t) : t.Inv := by
  unfold stepMessage at hs
  dsimp only at hs
  split at hs
  · obtain rfl := Option.some.inj hs
    exact h
  · rename_i p hp
    obtain rfl := Option.some.inj hs
    obtain ⟨origin, ho, hcommand⟩ := h.pending n token p hp
    have hremove : (s.setService n { (s.services n).remove token with
        composition := ((s.services n).composition.handleCommand env p.command).composition }).Inv := by
      refine h.setService n _ ?_
      intro token' q hq
      simp only [TextService.remove, Function.update_apply] at hq
      split at hq
      · simp at hq
      · exact hq
    have hexecute := hremove.execute ho
      ((s.services n).composition.handleCommand env p.command).response
    rw [hcommand] at hexecute
    simp only [ho, Option.map_some, Option.toList_some, List.singleton_append]
    exact hexecute

theorem Inv.workerDone {s : Broker} (h : s.Inv) {generation : Nat} {link : Link}
    (hlink : s.links generation = some link) :
    (s.setLink generation { link with worker := .left }).Inv := by
  have hinv := h.link _ _ hlink
  refine h.setLink hlink rfl ⟨hinv.queued, hinv.written, hinv.current, ?_, ?_⟩
  · intro hserving r hr
    rcases hinv.busy hserving r hr with ⟨hc, ha, -⟩ | ⟨hc, ha, -⟩ | ⟨response, hc, ha, hx, -⟩
    · exact Or.inl ⟨hc, ha, by simp⟩
    · exact Or.inr (Or.inl ⟨hc, ha, by simp⟩)
    · exact Or.inr (Or.inr ⟨response, hc, ha, hx, by simp⟩)
  · intro hserving hcurrent
    obtain ⟨hc, ha, -⟩ := hinv.idle hserving hcurrent
    exact ⟨hc, ha, by simp⟩

theorem Inv.answer {s t : Broker} (h : s.Inv) {generation : Nat}
    (hs : s.stepAnswer generation = some t) : t.Inv := by
  unfold stepAnswer at hs
  split at hs
  · simp at hs
  · rename_i link hlink
    split at hs
    · rename_i token channel hworker
      obtain ⟨response, hresponse, rfl⟩ := Option.map_eq_some_iff.mp hs
      have hinv := h.link _ _ hlink
      refine h.setLink hlink rfl ⟨hinv.queued, hinv.written, hinv.current, ?_, ?_⟩
      · intro hserving r hr
        rcases hinv.busy hserving r hr with ⟨-, -, hw⟩ | ⟨hc, ha, ho⟩ | ⟨_, -, -, -, hw⟩
        · exact absurd hworker (hw token channel)
        · obtain ⟨origin, ho', hx⟩ := h.channel channel response hresponse
          obtain rfl := Option.some.inj ((ho token channel hworker).symm.trans ho')
          exact Or.inr (Or.inr ⟨response, hc, by simp [ha], hx, by simp⟩)
        · exact absurd hworker (hw token channel)
      · intro hserving hcurrent
        exact absurd hworker ((hinv.idle hserving hcurrent).2.2 token channel)
    · simp at hs

theorem step_inv {s t : Broker} {e : Event} (h : s.Inv) (hs : s.step e = some t) : t.Inv := by
  cases e with
  | connect id service =>
    obtain rfl := Option.some.inj hs
    exact h.connect id service
  | send key command =>
    simp only [step] at hs
    split_ifs at hs with hkey
    obtain rfl := Option.some.inj hs
    exact h.call (h.client key.id key.generation hkey) command
  | candidates keys =>
    simp only [step] at hs
    split_ifs at hs with hkeys
    obtain rfl := Option.some.inj hs
    exact h.candidates keys hkeys
  | offer key command =>
    simp only [step] at hs
    split_ifs at hs with hkey
    obtain rfl := Option.some.inj hs
    exact h.call (h.candidate key hkey) command
  | enqueue n => exact h.enqueue hs
  | sendFails n =>
    simp only [step, stepSendFails] at hs
    split at hs
    · rename_i key command hcall
      split at hs
      · simp at hs
      · split_ifs at hs
        obtain rfl := Option.some.inj hs
        exact h.setPhase hcall .returned
    · simp at hs
  | timeOut n =>
    simp only [step, stepTimeOut] at hs
    split at hs
    · rename_i key command hcall
      obtain rfl := Option.some.inj hs
      exact h.setPhase hcall .returned
    · simp at hs
  | write generation => exact h.write hs
  | read generation => exact h.read hs
  | endLoop generation => exact h.endLoop hs
  | deregister generation =>
    simp only [step, stepDeregister] at hs
    split at hs
    · simp at hs
    · split_ifs at hs
      · obtain rfl := Option.some.inj hs
        exact h.forget _
      · obtain rfl := Option.some.inj hs
        exact h
  | accept generation token => exact h.accept hs
  | message service token env => exact h.message hs
  | answer generation => exact h.answer hs
  | answerFails generation =>
    simp only [step, stepAnswerFails] at hs
    split at hs
    · simp at hs
    · rename_i link hlink
      split at hs
      · split_ifs at hs
        obtain rfl := Option.some.inj hs
        exact h.workerDone hlink
      · simp at hs
  | leave generation =>
    simp only [step, stepLeave] at hs
    split at hs
    · simp at hs
    · rename_i link hlink
      split at hs
      · obtain rfl := Option.some.inj hs
        refine (h.workerDone hlink).setService _ _ ?_
        intro token p hp
        simp only [TextService.remove, Function.update_apply] at hp
        split at hp
        · simp at hp
        · exact hp
      · obtain rfl := Option.some.inj hs
        exact h.workerDone hlink
  | clear service =>
    obtain rfl := Option.some.inj hs
    exact h.setService _ _ (by simp)
  | edit service composition =>
    obtain rfl := Option.some.inj hs
    exact h.setService _ _ (fun _ _ hp => hp)

theorem inv_initial : Inv {} := by
  refine ⟨?_, ?_, ?_, ?_, ?_, ?_, ?_, ?_, ?_, ?_, ⟨?_, ?_⟩⟩ <;> simp

open Machine in
/-- In every run a response is returned only for the command that has produced it, and
a command runs only as the client that it was sent to. -/
theorem responses_attributed (es : List Event) : Always step Attributed {} es :=
  always_of_invariant Inv es inv_initial (fun _ h => h.attributed) fun _ _ _ h hs => step_inv h hs

/-- The first call times out before its command is run; the second one gets the
response of its own command. -/
def lateResponse : List Event :=
  [.connect ⟨1, 1⟩ 0, .send ⟨⟨1, 1⟩, 1⟩ (.cancel "a"), .enqueue 0, .write 1, .timeOut 0,
   .send ⟨⟨1, 1⟩, 1⟩ (.query "b"), .enqueue 1, .accept 1 7, .message 0 7 ⟨true, true, true, true, .done⟩,
   .answer 1, .read 1, .edit 0 { sessionId := some "b", sequence := 3 }, .write 1, .accept 1 8,
   .message 0 8 ⟨true, true, true, true, .done⟩, .answer 1, .read 1]

example : (Machine.run step {} lateResponse).map (·.used) = some [(1, .sessionActive "b" 3)] := by
  decide

end Broker

end FlowType
