import FlowType.Windows

/-! The injector and the text services of a run in which every command is
executed and answered: whoever is not waited for holds the session of the
injector if it is the one it names, and no session otherwise. -/
namespace FlowType

def Composition.Holds (c : Composition) (id : String) (n : Int) (text : String) : Prop :=
  c.sessionId = some id ∧ c.sequence = n ∧ c.text = text

/-- A newer snapshot is applied, or the session stays as it is. -/
theorem Composition.update_holds {c : Composition} {id old : String} {m n : Int}
    (h : c.Holds id m old) (hlt : m < n) (env : EditEnv) (text : String) :
    ((c.update env id n text).response = .applied id n ∧
      (c.update env id n text).composition.Holds id n text) ∨
    ((∀ k, (c.update env id n text).response ≠ .applied id k) ∧
      (c.update env id n text).composition.Holds id m old) := by
  obtain ⟨hid, hm, htext⟩ := h
  have hge : ¬ n < c.sequence := by omega
  have hne : n ≠ c.sequence := by omega
  simp only [update, hid, ne_eq, not_true_eq_false, if_false, hge, hne]
  split_ifs with hmod hfocus
  · exact Or.inr ⟨by simp, hid, hm, htext⟩
  · exact Or.inr ⟨by simp, hid, hm, htext⟩
  · cases env.edit with
    | done => exact Or.inl ⟨rfl, rfl, rfl, rfl⟩
    | failed wrote modified =>
      refine Or.inr ⟨?_, rfl, hm, htext⟩
      cases modified <;> simp

namespace Windows

/-- No call fails, no text service leaves, and the processes stay. -/
def Event.isTimely : Event → Bool
  | .request _ _ | .select _ | .expire | .execute _ _ | .deliver _ => true
  | .connect _ | .externalEdit _ | .physicalInput _ => true
  | _ => false

def Registered (s : Windows) (key : TipKey) : Prop :=
  (s.client key.id).map (·.generation) = some key.generation

/-- The composition of the called text service, before and after it has run the
command. -/
def CallFits (i : Injector) (c : Composition) (command : TipCommand)
    (answer : Option TipResponse) : Wait → Prop
  | .cancel _ => if answer = none then ∀ id, command = .cancel id → c.sessionId = some id
      else c.sessionId = none
  | .begin call _ _ => if answer = some (.begun call.sessionId)
      then c.Holds call.sessionId call.sequence call.fullText else c.sessionId = none
  | .update id n text => if answer = some (.applied id n) then c.Holds id n text
      else (∀ a, i.session = some a → c.Holds a.id a.sequence a.text) ∧
        ∀ m, answer ≠ some (.applied id m)
  | .finish id n => if answer = some (.finished id n) then c.sessionId = none
      else ∀ a, i.session = some a → c.Holds a.id a.sequence a.text
  | .query _ _ _ _ => ∀ a, i.session = some a → c.Holds a.id a.sequence a.text

/-- Nobody is called, and the text services agree with the injector `i`. -/
structure Idle (s : Windows) (i : Injector) : Prop where
  empty : ∀ t c, s.client t = some c → c.queue = []
  holds : ∀ a, i.session = some a →
    (s.hosts a.tip.id).composition.Holds a.id a.sequence a.text
  off : ∀ t, (∀ a, i.session = some a → a.tip.id ≠ t) → (s.hosts t).composition.sessionId = none
  linked : ∀ a, i.session = some a → s.Registered a.tip

structure Called (s : Windows) (key : TipKey) (command : TipCommand) (token : Nat)
    (wait : Wait) : Prop where
  queue : ∃ p, s.client key.id = some ⟨key.generation, [p]⟩ ∧ p.token = token ∧
    p.command = command ∧
    CallFits s.injector (s.hosts key.id).composition command p.answer wait
  empty : ∀ t c, t ≠ key.id → s.client t = some c → c.queue = []
  off : ∀ t, t ≠ key.id → (s.hosts t).composition.sessionId = none
  rest : ∀ call rest rejected, wait = .begin call rest rejected → ∀ k ∈ rest, s.Registered k

structure Lockstep (s : Windows) : Prop where
  shape : s.Shape
  fits : s.Fits
  idle : (∀ key command token wait, s.waiting ≠ some (.call key command token wait)) →
    s.Idle s.injector
  called : ∀ key command token wait, s.waiting = some (.call key command token wait) →
    s.Called key command token wait

structure Sendable (s : Windows) (i : Injector) (key : TipKey) (command : TipCommand)
    (wait : Wait) : Prop where
  empty : ∀ t c, s.client t = some c → c.queue = []
  registered : s.Registered key
  fits : CallFits i (s.hosts key.id).composition command none wait
  off : ∀ t, t ≠ key.id → (s.hosts t).composition.sessionId = none
  rest : ∀ call rest rejected, wait = .begin call rest rejected → ∀ k ∈ rest, s.Registered k

theorem registered_iff {s : Windows} {key : TipKey} :
    s.Registered key ↔ ∃ queue, s.client key.id = some ⟨key.generation, queue⟩ := by
  unfold Registered
  constructor
  · intro h
    obtain ⟨⟨generation, queue⟩, hc, hg⟩ := Option.map_eq_some_iff.mp h
    obtain rfl : generation = key.generation := hg
    exact ⟨queue, hc⟩
  · rintro ⟨queue, hc⟩
    rw [hc]
    rfl

/-- Sending a command and nothing else keeps the registrations. -/
theorem enqueue_registered (s : Windows) (key k : TipKey) (p : Pending) :
    (s.enqueue key p).Registered k ↔ s.Registered k := by
  rcases s.enqueue_eq key p with h | ⟨c, hc, -, h⟩
  · rw [h]
  · rw [h]
    unfold Registered
    by_cases hk : k.id = key.id
    · rw [hk, hc, client, setHost_self]
      rfl
    · rw [client, setHost_of_ne s _ _ hk]
      rfl

/-- A command for a registered text service with an empty queue is at its head. -/
theorem perform_call {s : Windows} {key : TipKey} (hreg : s.Registered key)
    (hempty : ∀ t c, s.client t = some c → c.queue = []) (i : Injector) (command : TipCommand)
    (wait : Wait) : s.perform (i, .call key command wait) =
      { s with injector := i, waiting := some (.call key command s.nextToken wait)
               nextToken := s.nextToken + 1 }.setHost key.id
        { s.hosts key.id with client := some ⟨key.generation,
          [{ command := command, token := s.nextToken, request := s.requests }]⟩ } := by
  obtain ⟨queue, hc⟩ := registered_iff.mp hreg
  obtain rfl : queue = [] := hempty key.id _ hc
  unfold client at hc
  simp [perform, enqueue, client, hc]

theorem Sendable.called {s : Windows} {i : Injector} {key : TipKey} {command : TipCommand}
    {wait : Wait} (h : s.Sendable i key command wait) :
    (s.perform (i, .call key command wait)).Called key command s.nextToken wait := by
  have hp := perform_call h.registered h.empty i command wait
  refine ⟨⟨{ command := command, token := s.nextToken, request := s.requests }, ?_, rfl, rfl, ?_⟩,
    ?_, ?_, ?_⟩
  · rw [hp, client, setHost_self]
  · rw [hp]
    simpa using h.fits
  · intro t c ht hc
    rw [hp, client, setHost_of_ne _ _ _ ht] at hc
    exact h.empty t c hc
  · intro t ht
    rw [(perform_host s _ t).1]
    exact h.off t ht
  · intro call rest rejected hw k hk
    exact (enqueue_registered _ key k _).mpr (h.rest call rest rejected hw k hk)

theorem perform_idle {s : Windows} {r : Injector × Next} (h : s.Idle r.1)
    (hr : ∀ key command wait, r.2 ≠ .call key command wait) : (s.perform r).Idle r.1 := by
  have hhosts : (s.perform r).hosts = s.hosts := by
    unfold perform
    split
    · rfl
    · rfl
    · rfl
    · rename_i key command wait hcall
      exact absurd hcall (hr key command wait)
  have hclient : (s.perform r).client = s.client := by
    funext t
    rw [client, client, hhosts]
  refine ⟨?_, ?_, ?_, ?_⟩
  · rw [hclient]
    exact h.empty
  · rw [hhosts]
    exact h.holds
  · rw [hhosts]
    exact h.off
  · intro a ha
    rw [Registered, hclient]
    exact h.linked a ha

theorem lockstep_perform {s : Windows} {r : Injector × Next} (hq : s.Queues)
    (hf : r.1.NextFits r.2)
    (hidle : (∀ key command wait, r.2 ≠ .call key command wait) → s.Idle r.1)
    (hcall : ∀ key command wait, r.2 = .call key command wait → s.Sendable r.1 key command wait) :
    (s.perform r).Lockstep := by
  refine ⟨hq.perform r, fits_perform s r hf, ?_, ?_⟩
  · intro hw
    have hr : ∀ key command wait, r.2 ≠ .call key command wait := by
      intro key command wait hr
      refine hw key command s.nextToken wait ?_
      rw [perform_waiting, hr]
    rw [perform_injector]
    exact perform_idle (hidle hr) hr
  · intro key command token wait hw
    rw [perform_waiting] at hw
    split at hw
    · rename_i key' command' wait' hr
      obtain ⟨rfl, rfl, rfl, rfl⟩ : key' = key ∧ command' = command ∧ s.nextToken = token ∧
        wait' = wait := by simpa using hw
      obtain ⟨i, next⟩ := r
      obtain rfl : next = _ := hr
      exact (hcall _ _ _ rfl).called
    · simp at hw
    · simp at hw

/-- A command to the text service of the active session. -/
theorem Idle.sendable {s : Windows} {i : Injector} {a : ActiveSession} (h : s.Idle i)
    (ha : i.session = some a) {i' : Injector} {command : TipCommand} {wait : Wait}
    (hf : CallFits i' (s.hosts a.tip.id).composition command none wait)
    (hw : ∀ call rest rejected, wait ≠ .begin call rest rejected) :
    s.Sendable i' a.tip command wait := by
  refine ⟨h.empty, h.linked a ha, hf, ?_, ?_⟩
  · intro t ht
    refine h.off t ?_
    intro b hb
    obtain rfl : a = b := by simpa [ha] using hb
    exact fun hn => ht hn.symm
  · intro call rest rejected hb
    exact absurd hb (hw call rest rejected)

theorem Idle.move {s : Windows} {i : Injector} {r : Injector × Next} (h : s.Idle i)
    (hq : s.Queues) (hm : i.Move r) : (s.perform r).Lockstep := by
  -- the session is replaced by a Cancel or kept, so what it holds carries over
  have hholds : ∀ a b, i.session = some a → i.session = some b →
      (s.hosts a.tip.id).composition.Holds b.id b.sequence b.text := by
    intro a b ha hb
    obtain rfl : a = b := by simpa [ha] using hb
    exact h.holds a ha
  refine lockstep_perform hq hm.fits ?_ ?_
  · intro hr
    cases hm with
    | reply response => exact h
    | accept hs => exact ⟨h.empty, h.holds, h.off, h.linked⟩
    | cancel after ha => exact absurd rfl (hr _ _ _)
    | update n text ha hlt => exact absurd rfl (hr _ _ _)
    | finish ha => exact absurd rfl (hr _ _ _)
    | query ha => exact absurd rfl (hr _ _ _)
    | select call hs => exact h
  · intro key command wait hr
    cases hm with
    | reply response => simp at hr
    | accept hs => simp at hr
    | cancel after ha =>
      obtain ⟨rfl, rfl, rfl⟩ := Next.call.inj hr
      refine h.sendable ha ?_ (by simp)
      simp only [CallFits, if_true]
      rintro id ⟨⟩
      exact (h.holds _ ha).1
    | update n text ha hlt =>
      obtain ⟨rfl, rfl, rfl⟩ := Next.call.inj hr
      refine h.sendable ha ?_ (by simp)
      simp only [CallFits, reduceCtorEq, if_false]
      exact ⟨fun b hb => hholds _ b ha hb, by simp⟩
    | finish ha =>
      obtain ⟨rfl, rfl, rfl⟩ := Next.call.inj hr
      refine h.sendable ha ?_ (by simp)
      simp only [CallFits, reduceCtorEq, if_false]
      exact fun b hb => hholds _ b ha hb
    | query ha =>
      obtain ⟨rfl, rfl, rfl⟩ := Next.call.inj hr
      refine h.sendable ha ?_ (by simp)
      exact fun b hb => hholds _ b ha hb
    | select call hs => simp at hr

/-- A session is offered to registered text services. -/
theorem Idle.offer {s : Windows} {i : Injector} (h : s.Idle i) (hq : s.Queues)
    (hs : i.session = none) (call : TipBegin) (rejected : Bool) (keys : List TipKey)
    (hk : ∀ k ∈ keys, s.Registered k) :
    (s.perform (i, beginCandidates call rejected keys)).Lockstep := by
  refine lockstep_perform hq (i.beginCandidates_fits hs call rejected keys) (fun _ => h) ?_
  intro key command wait hr
  have hoff : ∀ t, (s.hosts t).composition.sessionId = none := by
    intro t
    refine h.off t ?_
    simp [hs]
  cases keys with
  | nil => simp [beginCandidates] at hr
  | cons k ks =>
    obtain ⟨rfl, rfl, rfl⟩ := Next.call.inj hr
    refine ⟨h.empty, hk _ List.mem_cons_self, ?_, fun t _ => hoff t, ?_⟩
    · simp only [CallFits, reduceCtorEq, if_false]
      exact hoff _
    · rintro call' rest rejected' ⟨⟩ k' hk'
      exact hk k' (List.mem_cons_of_mem _ hk')

/-- Running the awaited command leaves the composition its answer tells of. -/
theorem CallFits.run {i : Injector} {c : Composition} {key : TipKey} {command : TipCommand}
    {wait : Wait} (h : CallFits i c command none wait) (hw : i.WaitFits key command wait)
    (env : EditEnv) :
    CallFits i (c.handleCommand env command).composition command
      (some (c.handleCommand env command).response) wait := by
  cases wait with
  | cancel after =>
    obtain ⟨-, id, rfl⟩ := hw
    simp only [CallFits, if_true] at h
    simp [CallFits, Composition.handleCommand, Composition.cancel, h id rfl]
  | begin call rest rejected =>
    obtain ⟨rfl, -⟩ := hw
    simp only [CallFits, reduceCtorEq, if_false] at h
    simp only [CallFits, TipBegin.command, Composition.handleCommand, Composition.begin, h]
    by_cases hfocus : env.focused = false
    · simp [hfocus, h]
    · by_cases hadvised : env.advised = false
      · simp [hfocus, hadvised]
      · cases env.edit <;> simp [hfocus, hadvised, Composition.Holds]
  | update id n text =>
    obtain ⟨rfl, a, ha, rfl, -, hlt⟩ := hw
    simp only [CallFits, reduceCtorEq, if_false] at h
    rcases Composition.update_holds (h.1 a ha) hlt env text with ⟨hr, hc⟩ | ⟨hr, hc⟩
    · simp only [CallFits, Composition.handleCommand, hr, if_true]
      exact hc
    · simp only [CallFits, Composition.handleCommand, Option.some.injEq, hr, if_false]
      refine ⟨?_, fun m hm => hr m (Option.some.inj hm)⟩
      intro b hb
      obtain rfl : a = b := by simpa [ha] using hb
      exact hc
  | finish id n =>
    obtain ⟨rfl, a, ha, rfl, -, rfl⟩ := hw
    simp only [CallFits, reduceCtorEq, if_false] at h
    obtain ⟨hid, hn, -⟩ := h a ha
    simp only [CallFits, Composition.handleCommand, Composition.finish, hid, ne_eq, hn,
      not_true_eq_false, or_self, if_false]
    by_cases hmod : c.targetModified = true
    · simpa [hmod] using h
    · cases env.edit with
      | done => simp [hmod]
      | failed wrote modified => simpa [hmod] using h
  | query id inputEpoch n text =>
    obtain ⟨rfl, a, ha, rfl, -, -, -⟩ := hw
    have hsame : ∀ b, i.session = some b → (c.handleCommand env (.query a.id)).composition = c := by
      intro b hb
      simp only [Composition.handleCommand, Composition.query]
      split_ifs <;> rfl
    intro b hb
    rw [hsame b hb]
    exact h b hb

/-- The state once the awaited answer has been taken out of its queue: the text
services agree with the injector as the answer leaves it. -/
theorem Called.idle {s s' : Windows} {key : TipKey} {command : TipCommand} {token : Nat}
    {wait : Wait} (h : s.Called key command token wait)
    (hs' : s' = s.setHost key.id { s.hosts key.id with client := some ⟨key.generation, []⟩ })
    {i : Injector}
    (holds : ∀ a, i.session = some a → a.tip = key ∧
      (s.hosts key.id).composition.Holds a.id a.sequence a.text)
    (off : i.session = none → (s.hosts key.id).composition.sessionId = none) : s'.Idle i := by
  subst hs'
  have hcomp : ∀ t, ((s.setHost key.id { s.hosts key.id with
      client := some ⟨key.generation, []⟩ }).hosts t).composition = (s.hosts t).composition := by
    intro t
    by_cases ht : t = key.id
    · subst ht
      rw [setHost_self]
    · rw [setHost_of_ne s _ _ ht]
  refine ⟨?_, ?_, ?_, ?_⟩
  · intro t c hc
    by_cases ht : t = key.id
    · subst ht
      rw [client, setHost_self] at hc
      obtain rfl := Option.some.inj hc
      rfl
    · rw [client, setHost_of_ne s _ _ ht] at hc
      exact h.empty t c ht hc
  · intro a ha
    obtain ⟨rfl, hh⟩ := holds a ha
    rw [hcomp]
    exact hh
  · intro t ht
    rw [hcomp]
    by_cases hk : t = key.id
    · subst hk
      cases ha : i.session with
      | none => exact off ha
      | some a => exact absurd (congrArg TipKey.id (holds a ha).1) (ht a ha)
    · exact h.off t hk
  · intro a ha
    obtain ⟨rfl, -⟩ := holds a ha
    rw [Registered, client, setHost_self]
    rfl

/-- The answer to the awaited command: the injector takes it over or gives the
session up. -/
theorem Called.resume {s s' : Windows} {key : TipKey} {command : TipCommand} {token : Nat}
    {wait : Wait} {answer : TipResponse} (h : s.Called key command token wait)
    (hq : s'.Queues)
    (hs' : s' = s.setHost key.id { s.hosts key.id with client := some ⟨key.generation, []⟩ })
    (hw : s.injector.WaitFits key command wait)
    (hc : CallFits s.injector (s.hosts key.id).composition command (some answer) wait)
    (input : InputMonitor) :
    (s'.perform (s.injector.resume input key wait (some answer))).Lockstep := by
  have hreg : ∀ k, s.Registered k → s'.Registered k := by
    intro k hk
    subst hs'
    unfold Registered
    by_cases hid : k.id = key.id
    · obtain ⟨p, hp, -⟩ := h.queue
      rw [client, hid, setHost_self]
      rw [Registered, hid, hp] at hk
      exact hk
    · rw [client, setHost_of_ne s _ _ hid]
      exact hk
  -- an answer that does not end the session leaves it to the text service
  have hkeep : (∀ a, s.injector.session = some a →
      (s.hosts key.id).composition.Holds a.id a.sequence a.text) →
      s.injector.session ≠ none → s'.Idle s.injector := by
    intro hh hne
    exact h.idle hs' (fun a ha => ⟨hw.tip ha, hh a ha⟩) (fun hn => absurd hn hne)
  cases wait with
  | cancel after =>
    simp only [CallFits, reduceCtorEq, if_false] at hc
    have hidle : s'.Idle s.injector := h.idle hs' (by simp [hw.1]) (fun _ => hc)
    exact hidle.move hq (s.injector.afterCancel_move hw.1 after)
  | begin call rest rejected =>
    rcases s.injector.resumeBegin_cases input key call rest rejected (some answer) with
      ⟨hb, hr⟩ | ⟨hb, hr⟩
    · simp only [CallFits, hb, if_true] at hc
      simp only [Injector.resume, hr]
      refine (h.idle hs' ?_ (by simp)).move hq (.reply _)
      rintro a ⟨⟩
      exact ⟨rfl, hc⟩
    · simp only [CallFits, hb, if_false] at hc
      have hidle : s'.Idle s.injector := h.idle hs' (by simp [hw.2]) (fun _ => hc)
      rcases hr with hr | ⟨rejected', hr⟩
      · simp only [Injector.resume, hr]
        exact hidle.move hq (.reply _)
      · simp only [Injector.resume, hr]
        refine hidle.offer hq hw.2 call rejected' rest ?_
        intro k hk
        exact hreg k (h.rest call rest rejected rfl k hk)
  | update id n text =>
    obtain ⟨-, a, ha, rfl, rfl, -⟩ := hw
    simp only [Injector.resume, ha]
    by_cases hb : answer = .applied a.id n
    · subst hb
      simp only [CallFits, if_true] at hc
      simp only [Injector.resumeUpdate, if_true]
      refine (h.idle hs' ?_ (by simp)).move hq (.reply _)
      rintro b ⟨⟩
      exact ⟨rfl, hc⟩
    · simp only [CallFits, Option.some.injEq, hb, if_false] at hc
      have hidle := hkeep hc.1 (by simp [ha])
      rcases s.injector.resumeUpdate_cases ha a.id n text (some answer) with
        ⟨hb', -⟩ | ⟨m, -, hb', -⟩ | ⟨-, hr⟩ | ⟨response, -, hr⟩
      · exact absurd (Option.some.inj hb') hb
      · exact absurd hb' (hc.2 m)
      · rw [hr]
        exact hidle.move hq (.reply _)
      · rw [hr]
        exact hidle.move hq (.cancel _ ha)
  | finish id n =>
    obtain ⟨-, a, ha, rfl, rfl, rfl⟩ := hw
    simp only [Injector.resume, ha]
    by_cases hb : answer = .finished a.id a.sequence
    · subst hb
      simp only [CallFits, if_true] at hc
      simp only [Injector.resumeFinish, and_self, if_true]
      exact (h.idle hs' (by simp) (fun _ => hc)).move hq (.reply _)
    · simp only [CallFits, Option.some.injEq, hb, if_false] at hc
      have hidle := hkeep hc (by simp [ha])
      rcases s.injector.resumeFinish_cases ha a.id a.sequence (some answer) with
        ⟨hb', -⟩ | ⟨response, -, hr⟩
      · exact absurd (Option.some.inj hb') hb
      · rw [hr]
        exact hidle.move hq (.cancel _ ha)
  | query id inputEpoch n text =>
    obtain ⟨-, a, ha, rfl, rfl, rfl, rfl⟩ := hw
    exact (hkeep hc (by simp [ha])).move hq (s.injector.resumeQuery_move input _ _ _ _ _)

/-- Nothing but the targets and the connections of services without a command changes. -/
theorem Lockstep.congr {s t : Windows} (h : s.Lockstep) (hshape : t.Shape)
    (hw : t.waiting = s.waiting) (hi : t.injector = s.injector)
    (hc : ∀ u c, s.client u = some c → t.client u = some c)
    (hc' : ∀ u c, t.client u = some c → s.client u = some c ∨ c.queue = [])
    (hcomp : ∀ u, (t.hosts u).composition.sessionId = (s.hosts u).composition.sessionId ∧
      (t.hosts u).composition.sequence = (s.hosts u).composition.sequence ∧
      (t.hosts u).composition.text = (s.hosts u).composition.text) : t.Lockstep := by
  have hholds : ∀ u id n text, (t.hosts u).composition.Holds id n text ↔
      (s.hosts u).composition.Holds id n text := by
    intro u id n text
    simp only [Composition.Holds, hcomp u]
  have hreg : ∀ k, s.Registered k → t.Registered k := by
    intro k hk
    obtain ⟨queue, hq⟩ := registered_iff.mp hk
    exact registered_iff.mpr ⟨queue, hc _ _ hq⟩
  refine ⟨hshape, ?_, ?_, ?_⟩
  · intro w hw'
    rw [hi]
    exact h.fits w (hw ▸ hw')
  · intro hn
    rw [hw] at hn
    obtain ⟨hempty, hh, hoff, hlink⟩ := h.idle hn
    rw [hi]
    refine ⟨?_, ?_, ?_, fun a ha => hreg _ (hlink a ha)⟩
    · intro u c hu
      rcases hc' u c hu with hu | hu
      · exact hempty u c hu
      · exact hu
    · intro a ha
      rw [hholds]
      exact hh a ha
    · intro u hu
      rw [(hcomp u).1]
      exact hoff u hu
  · intro key command token wait hcall
    obtain ⟨⟨p, hp, htok, hcmd, hfit⟩, hempty, hoff, hrest⟩ :=
      h.called key command token wait (hw ▸ hcall)
    refine ⟨⟨p, hc _ _ hp, htok, hcmd, ?_⟩, ?_, ?_, ?_⟩
    · rw [hi]
      cases wait <;> simpa only [CallFits, hholds, (hcomp key.id).1] using hfit
    · intro u c hu hcu
      rcases hc' u c hcu with hcu | hcu
      · exact hempty u c hu hcu
      · exact hcu
    · intro u hu
      rw [(hcomp u).1]
      exact hoff u hu
    · intro call rest rejected hwait k hk
      exact hreg k (hrest call rest rejected hwait k hk)

/-- The queues hold nothing but the awaited command. -/
theorem Lockstep.head {s : Windows} (h : s.Lockstep) {tip : TipId} {generation : Nat}
    {p : Pending} {rest : List Pending} (hc : s.client tip = some ⟨generation, p :: rest⟩) :
    ∃ wait, s.waiting = some (.call ⟨tip, generation⟩ p.command p.token wait) ∧ rest = [] ∧
      s.Called ⟨tip, generation⟩ p.command p.token wait ∧
      s.injector.WaitFits ⟨tip, generation⟩ p.command wait ∧
      CallFits s.injector (s.hosts tip).composition p.command p.answer wait := by
  by_cases hn : ∀ key command token wait, s.waiting ≠ some (.call key command token wait)
  · exact absurd ((h.idle hn).empty tip _ hc) (by simp)
  · push Not at hn
    obtain ⟨key, command, token, wait, hw⟩ := hn
    have hcalled := h.called key command token wait hw
    obtain ⟨q, hq, rfl, rfl, hfit⟩ := hcalled.queue
    by_cases ht : tip = key.id
    · subst ht
      rw [hc] at hq
      obtain ⟨rfl, rfl, rfl⟩ : generation = key.generation ∧ p = q ∧ rest = [] := by
        simpa using hq
      exact ⟨wait, hw, rfl, hcalled, h.fits _ hw, hfit⟩
    · exact absurd (hcalled.empty tip _ ht hc) (by simp)

theorem Lockstep.execute {s t : Windows} (h : s.Lockstep) (hshape : t.Shape) {tip : TipId}
    {env : EditEnv} (hs : s.stepExecute tip env = some t) : t.Lockstep := by
  obtain ⟨g, p, rest, hc, hp, rfl⟩ := stepExecute_some hs
  obtain ⟨wait, hw, rfl, hcalled, hwait, hfit⟩ := h.head hc
  rw [hp] at hfit
  refine ⟨hshape, fun w hw' => h.fits w hw', ?_, ?_⟩
  · intro hn
    exact absurd hw (hn _ _ _ _)
  · intro key command token wait' hw'
    have hw'' : s.waiting = some (.call key command token wait') := hw'
    rw [hw] at hw''
    obtain ⟨rfl, rfl, rfl, rfl⟩ := Waiting.call.inj (Option.some.inj hw'')
    let answer := ((s.hosts tip).composition.handleCommand env p.command).response
    refine ⟨⟨{ p with answer := some answer }, ?_, rfl, rfl, ?_⟩, ?_, ?_, ?_⟩
    · rw [client, runCommand_self]
    · rw [runCommand_self]
      exact hfit.run hwait env
    · intro u c hu hcu
      rw [client, runCommand_of_ne _ _ _ _ _ hu] at hcu
      exact hcalled.empty u c hu hcu
    · intro u hu
      rw [runCommand_of_ne _ _ _ _ _ hu]
      exact hcalled.off u hu
    · intro call rest rejected hwait' k hk
      have hreg := hcalled.rest call rest rejected hwait' k hk
      unfold Registered at hreg ⊢
      by_cases hid : k.id = tip
      · rw [hid, hc] at hreg
        rw [client, hid, runCommand_self]
        exact hreg
      · rw [client, runCommand_of_ne _ _ _ _ _ hid]
        exact hreg

theorem Lockstep.deliver {s t : Windows} (h : s.Lockstep) {tip : TipId}
    (hs : s.stepDeliver tip = some t) : t.Lockstep := by
  obtain ⟨g, p, rest, answer, hc, hp, ht⟩ := stepDeliver_some hs
  obtain ⟨wait, hw, rfl, hcalled, hwait, hfit⟩ := h.head hc
  rw [hp] at hfit
  rcases ht with ⟨key, command, wait', hw', rfl⟩ | ⟨hn, -⟩
  · rw [hw] at hw'
    obtain ⟨rfl, rfl, -, rfl⟩ := Waiting.call.inj (Option.some.inj hw')
    exact hcalled.resume (h.shape.toQueues.pop hc) rfl hwait hfit s.input
  · exact absurd hw (hn _ _ _)

/-- A service connects, or somebody else edits its target. -/
theorem Lockstep.setHost {s t : Windows} (h : s.Lockstep) (hshape : t.Shape) {tip : TipId}
    {host : Host} (hh : t.hosts = (s.setHost tip host).hosts) (hw : t.waiting = s.waiting)
    (hi : t.injector = s.injector)
    (hc : host.client = s.client tip ∨
      s.client tip = none ∧ ∀ c, host.client = some c → c.queue = [])
    (hcomp : host.composition.sessionId = (s.hosts tip).composition.sessionId ∧
      host.composition.sequence = (s.hosts tip).composition.sequence ∧
      host.composition.text = (s.hosts tip).composition.text) : t.Lockstep := by
  have hself : t.hosts tip = host := by rw [hh, setHost_self]
  have hother : ∀ u, u ≠ tip → t.hosts u = s.hosts u := by
    intro u hu
    rw [hh, setHost_of_ne s _ _ hu]
  refine h.congr hshape hw hi ?_ ?_ ?_
  · intro u c hu
    by_cases hut : u = tip
    · subst hut
      rcases hc with hc | ⟨hc, -⟩
      · rw [client, hself, hc, hu]
      · simp [hc] at hu
    · rw [client, hother u hut]
      exact hu
  · intro u c hu
    by_cases hut : u = tip
    · subst hut
      rw [client, hself] at hu
      rcases hc with hc | ⟨-, hc⟩
      · exact Or.inl (hc ▸ hu)
      · exact Or.inr (hc c hu)
    · rw [client, hother u hut] at hu
      exact Or.inl hu
  · intro u
    by_cases hut : u = tip
    · subst hut
      rw [hself]
      exact hcomp
    · rw [hother u hut]
      exact ⟨rfl, rfl, rfl⟩

theorem step_lockstep {s t : Windows} {e : Event} (h : s.Lockstep) (he : e.isTimely = true)
    (hs : s.step e = some t) : t.Lockstep := by
  have hshape := step_shape h.shape hs
  have h₀ : Lockstep { s with reply := none } := h.congr (h.shape.congr rfl rfl rfl) rfl rfl
    (fun _ _ hc => hc) (fun _ _ hc => Or.inl hc) (fun _ => ⟨rfl, rfl, rfl⟩)
  cases e with
  | request request desktop =>
    obtain ⟨hw, rfl⟩ := stepRequest_some hs
    have hidle : s.Idle s.injector := h.idle fun _ _ _ _ hn =>
      absurd (hw.symm.trans hn) (by simp)
    have hq : Shape { s with reply := none, requests := s.requests + 1 } :=
      h.shape.congr rfl rfl rfl
    exact Idle.move ⟨hidle.empty, hidle.holds, hidle.off, hidle.linked⟩ hq.toQueues
      (s.injector.handleRequest_move desktop s.input request)
  | select candidates =>
    obtain ⟨call, rejected, tried, hw, hcand, rfl⟩ := stepSelect_some hs
    refine (h₀.idle ?_).offer h₀.shape.toQueues (h.fits _ hw) call rejected candidates ?_
    · intro _ _ _ _ hn
      exact absurd (hw.symm.trans hn) (by simp)
    · intro k hk
      exact (hcand.1 k hk).2
  | expire =>
    obtain ⟨call, rejected, hw, rfl⟩ := stepExpire_some hs
    refine (h₀.idle ?_).move h₀.shape.toQueues (.reply _)
    intro _ _ _ _ hn
    exact absurd (hw.symm.trans hn) (by simp)
  | execute tip env => exact h₀.execute hshape hs
  | deliver tip => exact h₀.deliver hs
  | connect tip =>
    obtain ⟨hc, -, rfl⟩ := stepConnect_some hs
    refine h₀.setHost hshape rfl rfl rfl (Or.inr ⟨hc, ?_⟩) ⟨rfl, rfl, rfl⟩
    rintro c ⟨⟩
    rfl
  | externalEdit tip =>
    obtain rfl := step_externalEdit_some hs
    exact h₀.setHost hshape rfl rfl rfl (Or.inl rfl) ⟨rfl, rfl, rfl⟩
  | physicalInput isReturn =>
    obtain rfl : _ = t := by simpa [step] using hs
    exact h.congr hshape rfl rfl (fun _ _ hc => hc) (fun _ _ hc => Or.inl hc)
      (fun _ => ⟨rfl, rfl, rfl⟩)
  | giveUp => simp [Event.isTimely] at he
  | disconnect tip => simp [Event.isTimely] at he
  | executeDetached tip env => simp [Event.isTimely] at he
  | dropDetached tip => simp [Event.isTimely] at he
  | deactivate tip => simp [Event.isTimely] at he
  | pipeLost => simp [Event.isTimely] at he
  | restart => simp [Event.isTimely] at he

theorem run_lockstep {s t : Windows} (h : s.Lockstep) (es : List Event)
    (he : ∀ e ∈ es, e.isTimely = true) (hr : Machine.run Windows.step s es = some t) :
    t.Lockstep := by
  induction es generalizing s with
  | nil =>
    obtain rfl : s = t := by simpa [Machine.run] using hr
    exact h
  | cons e es ih =>
    obtain ⟨u, hu, hr⟩ := Option.bind_eq_some_iff.mp hr
    exact ih (step_lockstep h (he e List.mem_cons_self) hu)
      (fun e' he' => he e' (List.mem_cons_of_mem _ he')) hr

theorem lockstep_initial : Lockstep {} := by
  refine ⟨shape_initial, ?_, ?_, ?_⟩
  · intro w hw
    simp at hw
  · intro _
    refine ⟨?_, ?_, ?_, ?_⟩
    · simp [client]
    · simp
    · simp
    · simp
  · intro key command token wait hw
    simp at hw

theorem step_execute {s : Windows} {tip : TipId} {g : Nat} {p : Pending} {rest : List Pending}
    (hc : s.client tip = some ⟨g, p :: rest⟩) (hp : p.answer = none) (env : EditEnv) :
    s.step (.execute tip env) = some ({ s with reply := none }.runCommand tip
      { s.hosts tip with client := some ⟨g, { p with
        answer := some ((s.hosts tip).composition.handleCommand env p.command).response } :: rest⟩ }
      p ((s.hosts tip).composition.handleCommand env p.command)) := by
  unfold client at hc
  simp [step, stepExecute, client, hc, hp]

theorem step_deliver {s : Windows} {tip : TipId} {g : Nat} {p : Pending} {rest : List Pending}
    {answer : TipResponse} {key : TipKey} {command : TipCommand} {wait : Wait}
    (hc : s.client tip = some ⟨g, p :: rest⟩) (hp : p.answer = some answer)
    (hw : s.waiting = some (.call key command p.token wait)) :
    s.step (.deliver tip) = some (({ s with reply := none }.setHost tip
      { s.hosts tip with client := some ⟨g, rest⟩ }).perform
        (s.injector.resume s.input key wait (some answer))) := by
  unfold client at hc
  simp [step, stepDeliver, client, hc, hp, hw]

/-- A command that is sent to a registered text service, executed and answered. -/
theorem run_answer {s : Windows} {key : TipKey} (hreg : s.Registered key)
    (hempty : ∀ t c, s.client t = some c → c.queue = []) (i : Injector) (command : TipCommand)
    (wait : Wait) (env : EditEnv) :
    ∃ u : Windows, Machine.run step (s.perform (i, .call key command wait))
        [.execute key.id env, .deliver key.id] =
      some (u.perform (i.resume s.input key wait
        (some ((s.hosts key.id).composition.handleCommand env command).response))) := by
  rw [perform_call hreg hempty]
  set s₁ := { s with injector := i, waiting := some (.call key command s.nextToken wait)
                     nextToken := s.nextToken + 1 }.setHost key.id
    { s.hosts key.id with client := some ⟨key.generation,
      [{ command := command, token := s.nextToken, request := s.requests }]⟩ } with hs₁
  have hhost : s₁.hosts key.id = { s.hosts key.id with client := some ⟨key.generation,
      [{ command := command, token := s.nextToken, request := s.requests }]⟩ } := by
    rw [hs₁, setHost_self]
  have hc : s₁.client key.id = some ⟨key.generation,
      [{ command := command, token := s.nextToken, request := s.requests }]⟩ := by
    rw [client, hhost]
  have hex := step_execute hc rfl env
  rw [hhost] at hex
  simp only [Machine.run, hex, Option.bind_some]
  rw [step_deliver (by rw [client, runCommand_self]) rfl rfl]
  exact ⟨_, rfl⟩

end Windows

end FlowType
