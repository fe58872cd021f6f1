import FlowType.Commands

/-! The text that was last written for a session, and when it is settled: no command
that is still on its way can change it. The injector, the text service and the
document each keep a copy; a Begin that meets a session which is already open
changes none of them. -/
namespace FlowType

def TipCommand.textSession : TipCommand → Option String
  | .begin sessionId _ _ _ => some sessionId
  | .update sessionId _ _ => some sessionId
  | _ => none

namespace Composition

/-- A command that carries no text of the session neither writes it nor leaves a
changed composition of it. -/
theorem handleCommand_other {c : Composition} {env : EditEnv} {command : TipCommand} {id : String}
    (h : command.textSession ≠ some id) :
    (∀ write, (c.handleCommand env command).write = some write → write.sessionId ≠ id) ∧
    ((c.handleCommand env command).composition.sessionId = some id →
      (c.handleCommand env command).composition.sequence = c.sequence ∧ c.sessionId = some id) := by
  cases command with
  | begin id' sequence text attach =>
    have hne : id' ≠ id := by simpa [TipCommand.textSession] using h
    simp only [handleCommand, begin]
    split_ifs with h1 h2 h3 h4 h5
    · simp
    · simp
    · simp
    · simp
    · simp
    · cases env.edit with
      | done => simp [hne]
      | failed wrote modified => simp [hne]
  | update id' sequence text =>
    have hne : id' ≠ id := by simpa [TipCommand.textSession] using h
    simp only [handleCommand, update]
    split_ifs with h1 h2 h3 h4 h5 h6
    · simp
    · simp
    · simp
    · simp
    · simp
    · simp
    · have hid : c.sessionId = some id' := by simpa using h1
      cases env.edit with
      | done => simp [hne, hid]
      | failed wrote modified => simp [hne, hid]
  | finish id' sequence =>
    simp only [handleCommand, finish]
    split_ifs
    · simp
    · simp
    · cases env.edit <;> simp
  | cancel id' =>
    simp only [handleCommand, cancel]
    split_ifs <;> simp
  | query id' =>
    simp only [handleCommand, query]
    split_ifs <;> simp

/-- The answer to an awaited Begin: what it says was written. -/
theorem begin_begun {c : Composition} {env : EditEnv} {id : String} {n : Int} {text : String}
    {attach : Bool} (h : (c.begin env id n text attach).response = .begun id) :
    (c.sessionId = some id ∧ c.targetModified = false ∧
      (c.begin env id n text attach).composition = c ∧
      (c.begin env id n text attach).write = none) ∨
    ((c.begin env id n text attach).composition = ⟨some id, n, text, false⟩ ∧
      ∃ inserted, (c.begin env id n text attach).write = some ⟨id, text, inserted⟩) := by
  unfold begin at h ⊢
  split_ifs at h ⊢ with h1 h2 h3 h4 h5
  · exact Or.inl ⟨h1, by simpa using h2, rfl, rfl⟩
  · cases he : env.edit with
    | done => exact Or.inr ⟨rfl, _, rfl⟩
    | failed wrote modified => simp [he] at h

/-- The answer to an awaited update, when the composition still has an older
sequence. -/
theorem update_answer (c : Composition) (env : EditEnv) (id : String) (n : Int) (text : String)
    (hseq : c.sessionId = some id → c.sequence < n) :
    ((c.update env id n text).response = .noFocus → (c.update env id n text).composition = c ∧
      (c.update env id n text).write = none) ∧
    ∀ m, (c.update env id n text).response = .applied id m → m = n ∧
      (c.update env id n text).composition.sequence = n ∧
      ∃ inserted, (c.update env id n text).write = some ⟨id, text, inserted⟩ := by
  unfold update
  split_ifs with h1 h2 h3 h4 h5 h6
  · simp
  · simp
  · have := hseq (by simpa using h1)
    omega
  · have := hseq (by simpa using h1)
    omega
  · have := hseq (by simpa using h1)
    omega
  · simp
  · cases env.edit with
    | done =>
      refine ⟨by simp, ?_⟩
      intro m hm
      obtain rfl : n = m := by simpa using hm
      exact ⟨rfl, rfl, _, rfl⟩
    | failed wrote modified => cases modified <;> simp

end Composition

section Carries
variable (T : String → Int → String)

/-! Every state that is under way has the one text of its session and sequence. -/

def TipBegin.Carries (call : TipBegin) : Prop := call.fullText = T call.sessionId call.sequence

def InjectorRequest.Carries : InjectorRequest → Prop
  | .beginSession sessionId _ sequence fullText _ => fullText = T sessionId sequence
  | .applyState sessionId sequence fullText => fullText = T sessionId sequence
  | _ => True

def AfterCancel.Carries : AfterCancel → Prop
  | .begin sessionId sequence fullText _ _ => fullText = T sessionId sequence
  | _ => True

def Wait.Carries : Wait → Prop
  | .cancel after => after.Carries T
  | .begin call _ _ => call.Carries T
  | .update sessionId sequence fullText => fullText = T sessionId sequence
  | _ => True

def Next.Carries : Next → Prop
  | .call _ _ wait => wait.Carries T
  | .select offer _ _ => offer.Carries T
  | _ => True

def Waiting.Carries : Waiting → Prop
  | .call _ _ _ wait => wait.Carries T
  | .select offer _ _ => offer.Carries T

end Carries

namespace Injector
variable {T : String → Int → String}

theorem captureAndBegin_carries {sessionId : String} {sequence : Int} {fullText : String}
    {attach : Bool} {desktop : Desktop} (h : fullText = T sessionId sequence) :
    (captureAndBegin sessionId sequence fullText attach desktop).Carries T := by
  unfold captureAndBegin
  split
  · trivial
  · split_ifs
    · trivial
    · trivial
    · trivial
    · trivial
    · exact h

theorem endFailedSession_carries (s : Injector) (after : AfterCancel) (hafter : after.Carries T) :
    (s.endFailedSession after).2.Carries T := by
  unfold endFailedSession
  split
  · cases after with
    | reply response => trivial
    | accept => trivial
    | begin sessionId sequence fullText attach desktop => exact captureAndBegin_carries hafter
  · exact hafter

theorem not_completed {completed : Option CompletedSession} {sessionId : String}
    (h : (completed.filter fun finished => decide (finished.id = sessionId)) = none)
    {f : CompletedSession} (hf : completed = some f) : f.id ≠ sessionId := by
  subst hf
  simpa using h

theorem handleRequest_carries (s : Injector) (desktop : Desktop) (input : InputMonitor)
    {request : InjectorRequest} (h : request.Carries T) :
    (s.handleRequest desktop input request).2.Carries T := by
  cases request with
  | beginSession sessionId replaces sequence fullText attach =>
    simp only [handleRequest, beginSession]
    split
    · trivial
    · split
      · trivial
      · split
        · trivial
        · exact s.endFailedSession_carries _ h
        · exact captureAndBegin_carries h
  | applyState sessionId sequence fullText =>
    simp only [handleRequest]
    split
    · trivial
    · unfold applyState
      split
      · trivial
      · split_ifs
        · trivial
        · exact s.endFailedSession_carries _ trivial
        · trivial
        · trivial
        · trivial
        · exact s.endFailedSession_carries _ trivial
        · exact h
  | finishSession sessionId sequence =>
    simp only [handleRequest, finishSession]
    split
    · trivial
    · split <;> trivial
  | querySession sessionId =>
    simp only [handleRequest, querySession]
    split
    · unfold queryActiveSession
      split_ifs
      · exact s.endFailedSession_carries _ trivial
      · exact s.endFailedSession_carries _ trivial
      · trivial
      · trivial
    · split <;> trivial
  | probeTarget => trivial
  | cancelInvalidSession sessionId =>
    simp only [handleRequest, cancelInvalidSession]
    split
    · trivial
    · exact s.endFailedSession_carries _ trivial

/-- A session is offered only if it is not the completed one. -/
theorem handleRequest_fresh (s : Injector) (desktop : Desktop) (input : InputMonitor)
    {request : InjectorRequest} {id : String}
    (h : (s.handleRequest desktop input request).2.offers = some id) {f : CompletedSession}
    (hf : s.completed = some f) : f.id ≠ id := by
  have hbegins := s.handleRequest_offers desktop input h
  cases request with
  | beginSession sessionId replaces sequence fullText attach =>
    obtain rfl : sessionId = id := by simpa [InjectorRequest.begins] using hbegins
    simp only [handleRequest, beginSession] at h
    split at h
    · simp [Next.offers] at h
    · split at h
      · simp [Next.offers] at h
      · rename_i hnone
        exact not_completed hnone hf
  | applyState sessionId sequence fullText => simp [InjectorRequest.begins] at hbegins
  | finishSession sessionId sequence => simp [InjectorRequest.begins] at hbegins
  | querySession sessionId => simp [InjectorRequest.begins] at hbegins
  | probeTarget => simp [InjectorRequest.begins] at hbegins
  | cancelInvalidSession sessionId => simp [InjectorRequest.begins] at hbegins

theorem resume_carries (s : Injector) (input : InputMonitor) (key : TipKey) {wait : Wait}
    (answer : Option TipResponse) (h : wait.Carries T) :
    (s.resume input key wait answer).2.Carries T := by
  cases wait with
  | cancel after =>
    cases after with
    | reply response => trivial
    | accept => trivial
    | begin sessionId sequence fullText attach desktop => exact captureAndBegin_carries h
  | begin call rest rejected =>
    simp only [resume, resumeBegin]
    split_ifs
    · trivial
    · trivial
    · cases rest with
      | nil => exact h
      | cons k ks => exact h
  | update id sequence text =>
    cases hs : s.session with
    | none => simp [resume, hs, Next.Carries]
    | some a =>
      simp only [resume, hs, resumeUpdate]
      split
      · split_ifs
        · trivial
        · trivial
        · exact s.endFailedSession_carries _ trivial
      · trivial
      · exact s.endFailedSession_carries _ trivial
      · exact s.endFailedSession_carries _ trivial
      · exact s.endFailedSession_carries _ trivial
      · exact s.endFailedSession_carries _ trivial
  | finish id sequence =>
    cases hs : s.session with
    | none => simp [resume, hs, Next.Carries]
    | some a =>
      simp only [resume, hs, resumeFinish]
      split
      · split_ifs
        · trivial
        · exact s.endFailedSession_carries _ trivial
      · exact s.endFailedSession_carries _ trivial
      · exact s.endFailedSession_carries _ trivial
      · exact s.endFailedSession_carries _ trivial
  | query id inputEpoch sequence text =>
    simp only [resume, resumeQuery]
    split
    · trivial
    · exact s.endFailedSession_carries _ trivial
    · exact s.endFailedSession_carries _ trivial

end Injector

namespace Windows

/-- The text that was last written for a session. -/
def lastText (s : Windows) (id : String) : Option String :=
  (s.written.find? fun w => decide (w.2.sessionId = id)).map (·.2.text)

def Clean (s : Windows) (id : String) : Prop :=
  ∀ t p, s.Unexecuted t p → p.command.textSession ≠ some id

/-- While this connection lasts, an open composition of the session has this
sequence. -/
def Held (s : Windows) (key : TipKey) (id : String) (sequence : Int) : Prop :=
  ∀ c, s.client key.id = some c → c.generation = key.generation →
    (s.hosts key.id).composition.sessionId = some id →
    (s.hosts key.id).composition.sequence = sequence

theorem lastText_congr {s t : Windows} (h : t.written = s.written) (id : String) :
    t.lastText id = s.lastText id := by
  simp [lastText, h]

theorem Quiet.held {s t : Windows} (h : Quiet s t) {key : TipKey} {id : String} {sequence : Int}
    (hg : key.generation < s.nextGeneration) (hh : s.Held key id sequence) :
    t.Held key id sequence := by
  intro c hc hcg hid
  rcases h.client key.id c hc with ⟨c', hc', hg', hid', hseq⟩ | ⟨hnew, -⟩
  · rw [hseq]
    exact hh c' hc' (hg'.trans hcg) (by rw [← hid']; exact hid)
  · omega

theorem Quiet.clean {s t : Windows} (h : Quiet s t) {id : String} (hc : s.Clean id) :
    t.Clean id :=
  fun u p hp => hc u p (h.unexecuted u p hp)

theorem Ran.lastText_of_ne {s t : Windows} {tip : TipId} {env : EditEnv} {p : Pending}
    (h : Ran s t tip env p) {id : String} (hne : p.command.textSession ≠ some id) :
    t.lastText id = s.lastText id := by
  have hother : ∀ write, ((s.hosts tip).composition.handleCommand env p.command).write =
      some write → write.sessionId ≠ id := (Composition.handleCommand_other hne).1
  unfold lastText
  rw [h.written]
  cases hw : ((s.hosts tip).composition.handleCommand env p.command).write with
  | none => simp
  | some write => simp [hother write hw]

theorem Ran.lastText_of_write {s t : Windows} {tip : TipId} {env : EditEnv} {p : Pending}
    (h : Ran s t tip env p) {write : TipWrite}
    (hw : ((s.hosts tip).composition.handleCommand env p.command).write = some write) :
    t.lastText write.sessionId = some write.text := by
  unfold lastText
  rw [h.written, hw]
  simp

theorem Ran.held_of_ne {s t : Windows} {tip : TipId} {env : EditEnv} {p : Pending}
    (h : Ran s t tip env p) {key : TipKey} {id : String} {sequence : Int}
    (hne : tip = key.id → p.command.textSession ≠ some id) (hh : s.Held key id sequence) :
    t.Held key id sequence := by
  intro c hc hcg hid
  obtain ⟨c', hc', hg', -⟩ := h.client key.id c hc
  by_cases ht : tip = key.id
  · subst ht
    rw [h.composition] at hid ⊢
    obtain ⟨hseq, hid'⟩ := (Composition.handleCommand_other (hne rfl)).2 hid
    rw [hseq]
    exact hh c' hc' (hg'.trans hcg) hid'
  · rw [h.others key.id (Ne.symm ht)] at hid ⊢
    exact hh c' hc' (hg'.trans hcg) hid

theorem perform_held {s : Windows} {r : Injector × Next} {key : TipKey} {id : String}
    {sequence : Int} (h : s.Held key id sequence) : (s.perform r).Held key id sequence := by
  intro c hc hcg hid
  obtain ⟨c', hc', hg', -⟩ := perform_client hc
  rw [(perform_host s r key.id).1] at hid ⊢
  exact h c' hc' (by omega) hid

theorem perform_clean {s : Windows} {r : Injector × Next} {id : String} (h : s.Clean id)
    (hr : ∀ key command wait, r.2 = .call key command wait → command.textSession ≠ some id) :
    (s.perform r).Clean id := by
  intro u q hq
  rcases perform_unexecuted hq with hq | ⟨generation, command, wait, hcall, rfl, -⟩
  · exact h u q hq
  · exact hr _ command wait hcall

structure Steady (s : Windows) (a : ActiveSession) : Prop where
  clean : s.Clean a.id
  lastText : s.lastText a.id = some a.text
  held : s.Held a.tip a.id a.sequence

/-- The joint record of injector, broker and text services: whatever the injector
believes about a session is what was last written, except while an update is on
its way. -/
structure Ledger (T : String → Int → String) (s : Windows) : Prop where
  generations : ∀ t c, s.client t = some c → c.generation < s.nextGeneration
  tokens : ∀ t p, s.Unexecuted t p → p.token < s.nextToken
  place : ∀ key command token wait, s.waiting = some (.call key command token wait) →
    ∀ t p, s.Unexecuted t p → p.token = token → t = key.id
  carries : ∀ w, s.waiting = some w → w.Carries T
  avoids : ∀ w f, s.waiting = some w → s.injector.completed = some f → w.offers ≠ some f.id
  session : ∀ a, s.injector.session = some a → a.text = T a.id a.sequence ∧
    a.tip.generation < s.nextGeneration ∧ s.injector.completed = none
  completed : ∀ f, s.injector.completed = some f → f.text = T f.id f.sequence ∧
    s.Clean f.id ∧ s.lastText f.id = some f.text
  steady : ∀ a, s.injector.session = some a →
    (∀ key command token id n text,
      s.waiting ≠ some (.call key command token (.update id n text))) → s.Steady a
  update : ∀ key command token id n text,
    s.waiting = some (.call key command token (.update id n text)) →
    (∀ t p, s.Unexecuted t p → p.command.textSession = some id → p.token = token) ∧
    ∀ a, s.injector.session = some a → ∀ c p, s.client key.id = some c → p ∈ c.queue →
      p.token = token →
      ((p.answer = none ∨ p.answer = some .noFocus) →
        s.lastText id = some a.text ∧ s.Held key id a.sequence) ∧
      ∀ m, p.answer = some (.applied id m) →
        m = n ∧ s.lastText id = some text ∧ s.Held key id n
  begins : ∀ key command token call rest rejected,
    s.waiting = some (.call key command token (.begin call rest rejected)) →
    (∀ t p, t ≠ key.id → s.Unexecuted t p → p.command.textSession ≠ some call.sessionId) ∧
    ∀ c p, s.client key.id = some c → p ∈ c.queue → p.token = token →
      p.answer = some (.begun call.sessionId) →
      s.lastText call.sessionId = some call.fullText ∧ s.Held key call.sessionId call.sequence

theorem Steady.quiet {s t : Windows} {a : ActiveSession} (h : s.Steady a) (hq : Quiet s t)
    (hg : a.tip.generation < s.nextGeneration) : t.Steady a :=
  ⟨hq.clean h.clean, by rw [lastText_congr hq.written]; exact h.lastText, hq.held hg h.held⟩

theorem Ledger.quiet {T : String → Int → String} {s t : Windows} (h : s.Ledger T)
    (hq : Quiet s t) : t.Ledger T := by
  have hlast : ∀ id, t.lastText id = s.lastText id := lastText_congr hq.written
  -- an answered call is still in the queue of the same connection
  have hkey : ∀ key : TipKey, ∀ c p, t.client key.id = some c → p ∈ c.queue →
      ∃ c', s.client key.id = some c' ∧ c'.generation = c.generation ∧ p ∈ c'.queue :=
    fun key c p => hq.queue key.id c p
  refine ⟨?_, ?_, ?_, ?_, ?_, ?_, ?_, ?_, ?_, ?_⟩
  · intro u c hc
    rcases hq.client u c hc with ⟨c', hc', hg, -⟩ | ⟨hg, hlt⟩
    · have := h.generations u c' hc'
      have := hq.nextGeneration
      omega
    · omega
  · intro u p hp
    rw [hq.nextToken]
    exact h.tokens u p (hq.unexecuted u p hp)
  · intro key command token wait hw u p hp
    rw [hq.waiting] at hw
    exact h.place key command token wait hw u p (hq.unexecuted u p hp)
  · rw [hq.waiting]
    exact h.carries
  · rw [hq.waiting, hq.injector]
    exact h.avoids
  · intro a ha
    rw [hq.injector] at ha ⊢
    obtain ⟨htext, hg, hnone⟩ := h.session a ha
    exact ⟨htext, hg.trans_le hq.nextGeneration, hnone⟩
  · intro f hf
    rw [hq.injector] at hf
    obtain ⟨htext, hclean, hl⟩ := h.completed f hf
    exact ⟨htext, hq.clean hclean, by rw [hlast]; exact hl⟩
  · intro a ha hno
    rw [hq.injector] at ha
    rw [hq.waiting] at hno
    exact (h.steady a ha hno).quiet hq (h.session a ha).2.1
  · intro key command token id n text hw
    rw [hq.waiting] at hw
    obtain ⟨hbut, hans⟩ := h.update key command token id n text hw
    refine ⟨fun u p hp => hbut u p (hq.unexecuted u p hp), ?_⟩
    intro a ha c p hc hp htok
    rw [hq.injector] at ha
    obtain ⟨c', hc', hg, hp'⟩ := hkey key c p hc hp
    obtain ⟨hkeep, happ⟩ := hans a ha c' p hc' hp' htok
    have hgen : ∀ m, s.Held key id m → t.Held key id m := by
      intro m hm
      by_cases hkg : c'.generation = key.generation
      · exact hq.held (by have := h.generations _ c' hc'; omega) hm
      · intro d hd hdg
        rw [hc] at hd
        obtain rfl : c = d := by simpa using hd
        omega
    refine ⟨?_, ?_⟩
    · intro hcase
      obtain ⟨hl, hh⟩ := hkeep hcase
      exact ⟨by rw [hlast]; exact hl, hgen _ hh⟩
    · intro m hm
      obtain ⟨heq, hl, hh⟩ := happ m hm
      exact ⟨heq, by rw [hlast]; exact hl, hgen _ hh⟩
  · intro key command token call rest rejected hw
    rw [hq.waiting] at hw
    obtain ⟨hother, hans⟩ := h.begins key command token call rest rejected hw
    refine ⟨fun u p hu hp => hother u p hu (hq.unexecuted u p hp), ?_⟩
    intro c p hc hp htok hbegun
    obtain ⟨c', hc', hg, hp'⟩ := hkey key c p hc hp
    obtain ⟨hl, hh⟩ := hans c' p hc' hp' htok hbegun
    refine ⟨by rw [hlast]; exact hl, ?_⟩
    by_cases hkg : c'.generation = key.generation
    · exact hq.held (by have := h.generations _ c' hc'; omega) hh
    · intro d hd hdg
      rw [hc] at hd
      obtain rfl : c = d := by simpa using hd
      omega

/-- A command in a queue after a move is an old one, or the one just sent. -/
theorem perform_mem {s : Windows} {r : Injector × Next} {u : TipId} {c' : Client} {p : Pending}
    (hc : (s.perform r).client u = some c') (hp : p ∈ c'.queue) :
    (∃ c, s.client u = some c ∧ p ∈ c.queue) ∨ (p.token = s.nextToken ∧ p.answer = none) := by
  obtain ⟨c, hc, -, ⟨hq, -⟩ | ⟨command, wait, -, hq⟩⟩ := perform_client hc
  · rw [hq] at hp
    exact Or.inl ⟨c, hc, hp⟩
  · rw [hq] at hp
    rcases List.mem_append.mp hp with hp | hp
    · exact Or.inl ⟨c, hc, hp⟩
    · obtain rfl : p = _ := by simpa using hp
      exact Or.inr ⟨rfl, rfl⟩

/-- The injector moves on from a state in which all its beliefs are settled. -/
theorem Ledger.perform {T : String → Int → String} {s : Windows} {r : Injector × Next}
    (hshape : s.Queues) (hgenerations : ∀ t c, s.client t = some c → c.generation < s.nextGeneration)
    (htokens : ∀ t p, s.Unexecuted t p → p.token < s.nextToken)
    (hfits : r.1.NextFits r.2) (hcarries : r.2.Carries T)
    (havoids : ∀ f, r.1.completed = some f → r.2.offers ≠ some f.id)
    (hsession : ∀ a, r.1.session = some a → a.text = T a.id a.sequence ∧
      a.tip.generation < s.nextGeneration ∧ r.1.completed = none ∧ s.Steady a)
    (hcompleted : ∀ f, r.1.completed = some f → f.text = T f.id f.sequence ∧
      s.Clean f.id ∧ s.lastText f.id = some f.text)
    (hbegins : ∀ key command call rest rejected,
      r.2 = .call key command (.begin call rest rejected) →
      ∀ t p, t ≠ key.id → s.Unexecuted t p → p.command.textSession ≠ some call.sessionId) :
    (s.perform r).Ledger T := by
  have hlast : ∀ id, (s.perform r).lastText id = s.lastText id :=
    lastText_congr (perform_written s r)
  have hnext : (s.perform r).nextGeneration = s.nextGeneration := by
    unfold Windows.perform
    split
    · rfl
    · rfl
    · rfl
    · exact (enqueue_fields _ _ _).2.2.2.2.2.1
  have hwait : ∀ key command token wait, (s.perform r).waiting =
      some (.call key command token wait) → r.2 = .call key command wait ∧ token = s.nextToken := by
    intro key command token wait hw
    rw [perform_waiting] at hw
    split at hw
    · rename_i hr
      obtain ⟨rfl, rfl, rfl, rfl⟩ : _ = key ∧ _ = command ∧ _ = token ∧ _ = wait := by
        simpa using hw
      exact ⟨hr, rfl⟩
    · simp at hw
    · simp at hw
  -- the command just sent is the only one with the awaited token
  have hnew : ∀ u c p, (s.perform r).client u = some c → p ∈ c.queue → p.token = s.nextToken →
      p.answer = none := by
    intro u c p hc hp htok
    rcases perform_mem hc hp with ⟨c', hc', hp'⟩ | ⟨-, hans⟩
    · have := hshape.fresh u c' hc' p hp'
      omega
    · exact hans
  refine ⟨?_, ?_, ?_, ?_, ?_, ?_, ?_, ?_, ?_, ?_⟩
  · intro u c hc
    obtain ⟨c', hc', hg, -⟩ := perform_client hc
    rw [hnext, hg]
    exact hgenerations u c' hc'
  · intro u p hp
    rw [perform_nextToken]
    rcases perform_unexecuted hp with hp | ⟨generation, command, wait, hr, rfl, -⟩
    · have hlt := htokens u p hp
      split
      · exact hlt.trans (Nat.lt_succ_self _)
      · exact hlt
    · rw [hr]
      exact Nat.lt_succ_self _
  · intro key command token wait hw u p hp htok
    obtain ⟨hr, rfl⟩ := hwait key command token wait hw
    rcases perform_unexecuted hp with hp | ⟨generation, command', wait', hr', -, -⟩
    · have := htokens u p hp
      omega
    · rw [hr] at hr'
      obtain ⟨rfl, -⟩ : key = ⟨u, generation⟩ ∧ _ := by simpa using hr'
      rfl
  · intro w hw
    rw [perform_waiting] at hw
    split at hw
    · rename_i hr
      rw [hr] at hcarries
      obtain rfl : _ = w := by simpa using hw
      exact hcarries
    · rename_i hr
      rw [hr] at hcarries
      obtain rfl : _ = w := by simpa using hw
      exact hcarries
    · simp at hw
  · intro w f hw hf
    rw [perform_injector] at hf
    rw [perform_waiting] at hw
    have havoid := havoids f hf
    split at hw
    · rename_i hr
      rw [hr] at havoid
      obtain rfl : _ = w := by simpa using hw
      exact havoid
    · rename_i hr
      rw [hr] at havoid
      obtain rfl : _ = w := by simpa using hw
      exact havoid
    · simp at hw
  · intro a ha
    rw [perform_injector] at ha ⊢
    obtain ⟨htext, hg, hnone, -⟩ := hsession a ha
    exact ⟨htext, by rw [hnext]; exact hg, hnone⟩
  · intro f hf
    rw [perform_injector] at hf
    obtain ⟨htext, hclean, hl⟩ := hcompleted f hf
    refine ⟨htext, perform_clean hclean ?_, by rw [hlast]; exact hl⟩
    intro key command wait hr
    rw [hr] at hfits havoids
    have havoid := havoids f hf
    cases wait with
    | cancel after =>
      obtain ⟨-, id, rfl⟩ := hfits
      simp [TipCommand.textSession]
    | begin call rest rejected =>
      obtain ⟨rfl, -⟩ := hfits
      exact havoid
    | update id n text =>
      obtain ⟨-, a, ha, -⟩ := hfits
      simp [(hsession a ha).2.2.1] at hf
    | finish id n =>
      obtain ⟨rfl, -⟩ := hfits
      simp [TipCommand.textSession]
    | query id epoch n text =>
      obtain ⟨rfl, -⟩ := hfits
      simp [TipCommand.textSession]
  · intro a ha hno
    rw [perform_injector] at ha
    have hst := (hsession a ha).2.2.2
    refine ⟨perform_clean hst.clean ?_, by rw [hlast]; exact hst.lastText, perform_held hst.held⟩
    intro key command wait hr
    rw [hr] at hfits
    cases wait with
    | cancel after => simp [hfits.1] at ha
    | begin call rest rejected => simp [hfits.2] at ha
    | update id n text =>
      refine absurd ?_ (hno key command s.nextToken id n text)
      rw [perform_waiting, hr]
    | finish id n =>
      obtain ⟨rfl, -⟩ := hfits
      simp [TipCommand.textSession]
    | query id epoch n text =>
      obtain ⟨rfl, -⟩ := hfits
      simp [TipCommand.textSession]
  · intro key command token id n text hw
    obtain ⟨hr, rfl⟩ := hwait key command token _ hw
    rw [hr] at hfits
    obtain ⟨-, a, ha, rfl, rfl, -⟩ := hfits
    have hst := (hsession a ha).2.2.2
    refine ⟨?_, ?_⟩
    · intro u p hp htext
      rcases perform_unexecuted hp with hp | ⟨generation, command', wait', -, rfl, -⟩
      · exact absurd htext (hst.clean u p hp)
      · rfl
    · intro b hb c p hc hp htok
      rw [perform_injector, ha] at hb
      obtain rfl : a = b := by simpa using hb
      have hans := hnew _ c p hc hp htok
      refine ⟨fun _ => ⟨by rw [hlast]; exact hst.lastText, perform_held hst.held⟩, ?_⟩
      intro m hm
      simp [hans] at hm
  · intro key command token call rest rejected hw
    obtain ⟨hr, rfl⟩ := hwait key command token _ hw
    refine ⟨?_, ?_⟩
    · intro u p hu hp
      rcases perform_unexecuted hp with hp | ⟨generation, command', wait', hr', -, -⟩
      · exact hbegins key command call rest rejected hr u p hu hp
      · rw [hr] at hr'
        obtain ⟨rfl, -⟩ : key = ⟨u, generation⟩ ∧ _ := by simpa using hr'
        exact absurd rfl hu
    · intro c p hc hp htok hbegun
      simp [hnew _ c p hc hp htok] at hbegun

/-- The composition already holds the session of the Begin that the injector waits
for: it must be in the state of that Begin. -/
def BeginAgrees (s : Windows) (e : Event) : Prop :=
  ∀ tip env c p rest id n text attach key command wait, e = .execute tip env →
    s.client tip = some c → c.queue = p :: rest → p.command = .begin id n text attach →
    s.waiting = some (.call key command p.token wait) →
    (s.hosts tip).composition.sessionId = some id →
    (s.hosts tip).composition.targetModified = false →
    (s.hosts tip).composition.sequence = n ∧ s.lastText id = some text

/-- A Begin is sent only when no other text service has yet to run a command with
text of the session. -/
def BeginAlone (s : Windows) (e : Event) : Prop :=
  ∀ key call, s.nextOffer e = some (key, call) → ∀ t p, t ≠ key.id → s.Unexecuted t p →
    p.command.textSession ≠ some call.sessionId

/-- A command runs. -/
theorem Ledger.ran {T : String → Int → String} {s t : Windows} {e : Event} {tip : TipId}
    {env : EditEnv} {p : Pending} (h : s.Ledger T) (hshape : s.Shape) (hfits : s.Fits)
    (hrun : s.Runs e tip env p) (hs : s.step e = some t) (hok : s.BeginAgrees e) :
    t.Ledger T := by
  have hran := hrun.ran hshape hs
  have hp := hrun.unexecuted
  have hsub : ∀ u q, t.Unexecuted u q → s.Unexecuted u q := by
    intro u q hq
    rcases step_unexecuted hs hq with hq | ⟨generation, wait, -, -, hw, -⟩
    · exact hq
    · rw [hran.waiting] at hw
      have := (hshape.awaited _ _ _ _ hw).1
      omega
  have hclean : ∀ id, s.Clean id → t.Clean id ∧ p.command.textSession ≠ some id :=
    fun id hc => ⟨fun u q hq => hc u q (hsub u q hq), hc tip p hp⟩
  refine ⟨?_, ?_, ?_, ?_, ?_, ?_, ?_, ?_, ?_, ?_⟩
  · intro u c hc
    obtain ⟨c', hc', hg, -⟩ := hran.client u c hc
    rw [hran.nextGeneration, ← hg]
    exact h.generations u c' hc'
  · intro u q hq
    rw [hran.nextToken]
    exact h.tokens u q (hsub u q hq)
  · intro key command token wait hw u q hq
    rw [hran.waiting] at hw
    exact h.place key command token wait hw u q (hsub u q hq)
  · rw [hran.waiting]
    exact h.carries
  · rw [hran.waiting, hran.injector]
    exact h.avoids
  · rw [hran.injector, hran.nextGeneration]
    exact h.session
  · intro f hf
    rw [hran.injector] at hf
    obtain ⟨htext, hc, hl⟩ := h.completed f hf
    obtain ⟨hc', hne⟩ := hclean f.id hc
    exact ⟨htext, hc', by rw [hran.lastText_of_ne hne]; exact hl⟩
  · intro a ha hno
    rw [hran.injector] at ha
    rw [hran.waiting] at hno
    have hst := h.steady a ha hno
    obtain ⟨hc', hne⟩ := hclean a.id hst.clean
    exact ⟨hc', by rw [hran.lastText_of_ne hne]; exact hst.lastText,
      hran.held_of_ne (fun _ => hne) hst.held⟩
  · intro key command token id n text hw
    rw [hran.waiting] at hw
    obtain ⟨hbut, hans⟩ := h.update key command token id n text hw
    refine ⟨fun u q hq => hbut u q (hsub u q hq), ?_⟩
    intro a ha c' q hc' hq htok
    rw [hran.injector] at ha
    obtain ⟨c, hc, -, hmem⟩ := hran.client key.id c' hc'
    rcases hmem q hq with ⟨hq', hdiff⟩ | ⟨hkey, htok', hpc, hresp⟩
    · -- the awaited update is another command than the one that ran
      have hne : p.command.textSession ≠ some id := by
        intro htext
        have hptok := hbut tip p hp htext
        have hplace := h.place key command token _ hw tip p hp hptok
        exact (hdiff hplace.symm).1 (htok.trans hptok.symm)
      rw [hran.lastText_of_ne hne]
      obtain ⟨hkeep, happ⟩ := hans a ha c q hc hq' htok
      refine ⟨fun hcase => ?_, fun m hm => ?_⟩
      · exact ⟨(hkeep hcase).1, hran.held_of_ne (fun _ => hne) (hkeep hcase).2⟩
      · obtain ⟨heq, hl, hh⟩ := happ m hm
        exact ⟨heq, hl, hran.held_of_ne (fun _ => hne) hh⟩
    · -- it is the awaited update that ran
      have hptok : p.token = token := htok'.symm.trans htok
      obtain ⟨hkey', hcmd⟩ := (hshape.awaited _ _ _ _ hw).2 _ c hc p hpc hptok
      obtain ⟨hup, b, hb, -, -, hlt⟩ : s.injector.WaitFits key command (.update id n text) :=
        hfits _ hw
      obtain rfl : b = a := by simpa [hb] using ha
      have hpnone : p.answer = none := by
        rcases hrun with ⟨-, generation, rest, -, hnone⟩ | ⟨-, hd⟩
        · exact hnone
        · have hdn := hshape.alone tip (by rw [← hkey, hc]; simp)
          simp [hdn] at hd
      obtain ⟨hl, hh⟩ := (hans b hb c p hc hpc hptok).1 (Or.inl hpnone)
      rw [hup] at hcmd
      have hgen : c.generation = key.generation := by
        have := congrArg TipKey.generation hkey'
        exact this.symm
      have hheld : (s.hosts tip).composition.sessionId = some id →
          (s.hosts tip).composition.sequence = b.sequence := by
        rw [← hkey]
        exact hh c hc hgen
      obtain ⟨hfocus, happ⟩ := Composition.update_answer (s.hosts tip).composition env id n text
        (fun hid => by rw [hheld hid]; exact hlt)
      have hcommand : ∀ d : Composition, d.handleCommand env p.command = d.update env id n text := by
        intro d
        rw [hcmd]
        rfl
      rw [hcommand] at hresp
      refine ⟨?_, ?_⟩
      · rintro (hnone | hnofocus)
        · simp [hresp] at hnone
        · rw [hresp] at hnofocus
          obtain ⟨hcomp, hwrite⟩ := hfocus (Option.some.inj hnofocus)
          refine ⟨?_, ?_⟩
          · rw [← hl]
            refine lastText_congr ?_ id
            rw [hran.written, hcommand, hwrite]
            rfl
          · intro d hd hdg hid
            rw [hkey, hran.composition, hcommand, hcomp] at hid ⊢
            exact hheld hid
      · intro m hm
        rw [hresp] at hm
        obtain ⟨heq, hseq, inserted, hwrite⟩ := happ m (Option.some.inj hm)
        refine ⟨heq, ?_, ?_⟩
        · exact hran.lastText_of_write (by rw [hcommand]; exact hwrite)
        · intro d hd hdg hid
          rw [hkey, hran.composition, hcommand]
          exact hseq
  · intro key command token call rest rejected hw
    rw [hran.waiting] at hw
    obtain ⟨hother, hans⟩ := h.begins key command token call rest rejected hw
    refine ⟨fun u q hu hq => hother u q hu (hsub u q hq), ?_⟩
    intro c' q hc' hq htok hbegun
    obtain ⟨c, hc, -, hmem⟩ := hran.client key.id c' hc'
    rcases hmem q hq with ⟨hq', hdiff⟩ | ⟨hkey, htok', hpc, hresp⟩
    · have htip : tip ≠ key.id := by
        intro heq
        simp [(hdiff heq.symm).2] at hbegun
      have hne := hother tip p htip hp
      obtain ⟨hl, hh⟩ := hans c q hc hq' htok hbegun
      exact ⟨by rw [hran.lastText_of_ne hne]; exact hl, hran.held_of_ne (fun _ => hne) hh⟩
    · have hptok : p.token = token := htok'.symm.trans htok
      subst hptok
      obtain ⟨hkey', hcmd⟩ := (hshape.awaited _ _ _ _ hw).2 _ c hc p hpc rfl
      have hbegin : command = call.command := (hfits _ hw).1
      rw [hbegin] at hcmd
      rw [hresp] at hbegun
      have hcommand : ∀ d : Composition, d.handleCommand env p.command =
          d.begin env call.sessionId call.sequence call.fullText call.attachExisting := by
        intro d
        rw [hcmd]
        rfl
      have hbegun' := Option.some.inj hbegun
      rw [hcommand] at hbegun'
      rcases Composition.begin_begun hbegun' with ⟨hid, hmod, hcomp, hwrite⟩ |
        ⟨hcomp, inserted, hwrite⟩
      · -- the session was open already
        obtain ⟨hseq, hl⟩ : (s.hosts tip).composition.sequence = call.sequence ∧
            s.lastText call.sessionId = some call.fullText := by
          rcases hrun with ⟨he, generation, rest', hct, -⟩ | ⟨-, hd⟩
          · exact hok tip env _ p rest' _ _ _ _ key command _ he hct rfl hcmd hw hid hmod
          · have hdn := hshape.alone tip (by rw [← hkey, hc]; simp)
            simp [hdn] at hd
        refine ⟨?_, ?_⟩
        · rw [← hl]
          refine lastText_congr ?_ _
          rw [hran.written, hcommand, hwrite]
          rfl
        · intro d hd hdg _
          rw [hkey, hran.composition, hcommand, hcomp]
          exact hseq
      · refine ⟨hran.lastText_of_write (by rw [hcommand]; exact hwrite), ?_⟩
        intro d hd hdg _
        rw [hkey, hran.composition, hcommand, hcomp]

theorem Ledger.not_both {T : String → Int → String} {s : Windows} (h : s.Ledger T)
    {r : Injector × Next} (hr : s.injector.Move r) {a : ActiveSession}
    (ha : r.1.session = some a) : r.1.completed = none := by
  cases hf : r.1.completed with
  | none => rfl
  | some f =>
    have hnone := (h.session a (hr.session ha)).2.2
    rw [hr.completed hf] at hnone
    simp at hnone

/-- A move that starts a call or answers, with no update under way. -/
theorem Ledger.perform_move {T : String → Int → String} {s : Windows} (h : s.Ledger T)
    (hqueues : s.Queues) {r : Injector × Next} (hr : s.injector.Move r)
    (hno : ∀ key command token id n text,
      s.waiting ≠ some (.call key command token (.update id n text)))
    (hcarries : r.2.Carries T)
    (havoids : ∀ f, s.injector.completed = some f → r.2.offers ≠ some f.id) :
    (s.perform r).Ledger T := by
  refine Ledger.perform hqueues h.generations h.tokens hr.fits hcarries ?_ ?_ ?_ ?_
  · exact fun f hf => havoids f (hr.completed hf)
  · intro a ha
    have ha' := hr.session ha
    obtain ⟨htext, hg, -⟩ := h.session a ha'
    exact ⟨htext, hg, h.not_both hr ha, h.steady a ha' hno⟩
  · exact fun f hf => h.completed f (hr.completed hf)
  · intro key command call rest rejected hcall
    exact absurd hcall (not_begin_of_move hr key command call rest rejected)

/-- A step that leaves the injector without a session. -/
theorem Ledger.perform_none {T : String → Int → String} {s : Windows} (h : s.Ledger T)
    (hqueues : s.Queues) {r : Injector × Next} (hfits : r.1.NextFits r.2)
    (hnone : r.1.session = none) (hcompleted : r.1.completed = s.injector.completed)
    (hcarries : r.2.Carries T)
    (havoids : ∀ f, s.injector.completed = some f → r.2.offers ≠ some f.id)
    (hbegins : ∀ key command call rest rejected,
      r.2 = .call key command (.begin call rest rejected) →
      ∀ t p, t ≠ key.id → s.Unexecuted t p → p.command.textSession ≠ some call.sessionId) :
    (s.perform r).Ledger T := by
  refine Ledger.perform hqueues h.generations h.tokens hfits hcarries ?_ ?_ ?_ hbegins
  · rw [hcompleted]
    exact havoids
  · intro a ha
    simp [hnone] at ha
  · rw [hcompleted]
    exact h.completed

/-- The call fails or its answer arrives; `u` is the state without the answered
command. -/
theorem Ledger.resume {T : String → Int → String} {s u : Windows} (h : s.Ledger T)
    (hfits : s.Fits) (hq : Quiet s u) (hqueues : u.Queues) {key : TipKey} {command : TipCommand}
    {token : Nat} {wait : Wait} {input : InputMonitor} {answer : Option TipResponse}
    (hw : s.waiting = some (.call key command token wait))
    (hanswer : ∀ response, answer = some response → ∃ c p, s.client key.id = some c ∧
      p ∈ c.queue ∧ p.token = token ∧ p.answer = some response ∧ c.generation = key.generation)
    (hgone : answer ≠ none → ∀ p, ¬ u.Unexecuted key.id p)
    (hbegins : ∀ key' command' call rest rejected,
      (s.injector.resume input key wait answer).2 = .call key' command' (.begin call rest rejected) →
      ∀ t p, t ≠ key'.id → u.Unexecuted t p → p.command.textSession ≠ some call.sessionId) :
    (u.perform (s.injector.resume input key wait answer)).Ledger T := by
  have hu := h.quiet hq
  have hwait : s.injector.WaitFits key command wait := hfits _ hw
  have hnextfits := s.injector.resume_fits input key command wait answer hwait
  have hcarries := s.injector.resume_carries input key answer (h.carries _ hw)
  have havoids : ∀ f, s.injector.completed = some f →
      (s.injector.resume input key wait answer).2.offers ≠ some f.id :=
    fun f hf hid => h.avoids _ f hw hf (s.injector.resume_offers input key answer hid)
  rw [← hq.injector] at hwait hnextfits hcarries havoids hbegins ⊢
  have hlast : ∀ id, u.lastText id = s.lastText id := lastText_congr hq.written
  cases wait with
  | cancel after =>
    exact hu.perform_move hqueues (u.injector.afterCancel_move hwait.1 after)
      (by rw [hq.waiting, hw]; simp) hcarries havoids
  | query id epoch n text =>
    exact hu.perform_move hqueues (u.injector.resumeQuery_move input id epoch n text answer)
      (by rw [hq.waiting, hw]; simp) hcarries havoids
  | begin call rest rejected =>
    rcases u.injector.resumeBegin_cases input key call rest rejected answer with
      ⟨hbegun, hr⟩ | ⟨-, hr | ⟨rejected', hr⟩⟩
    · -- the session begins: what the text service holds becomes the active session
      obtain ⟨c, p, hc, hp, htok, hans, hg⟩ := hanswer _ hbegun
      obtain ⟨hothers, hbegins'⟩ := h.begins _ _ _ _ _ _ hw
      obtain ⟨hl, hh⟩ := hbegins' c p hc hp htok hans
      have hgen := h.generations _ c hc
      simp only [Injector.resume, hr] at hnextfits hcarries ⊢
      refine Ledger.perform hqueues hu.generations hu.tokens hnextfits hcarries (by simp) ?_
        (by simp) (by simp)
      intro a ha
      obtain rfl : _ = a := by simpa using ha
      refine ⟨h.carries _ hw, ?_, rfl, ?_, ?_, ?_⟩
      · have := hq.nextGeneration
        simp only
        omega
      · intro x q hx
        by_cases hxk : x = key.id
        · subst hxk
          exact absurd hx (hgone (by simp [hbegun]) q)
        · exact hothers x q hxk (hq.unexecuted x q hx)
      · rw [hlast]
        exact hl
      · exact hq.held (by simp only; omega) hh
    · simp only [Injector.resume, hr] at hnextfits hcarries havoids hbegins ⊢
      exact hu.perform_none hqueues hnextfits hwait.2 rfl hcarries havoids hbegins
    · simp only [Injector.resume, hr] at hnextfits hcarries havoids hbegins ⊢
      exact hu.perform_none hqueues hnextfits hwait.2 rfl hcarries havoids hbegins
  | update id n text =>
    obtain ⟨-, a, ha, rfl, rfl, hlt⟩ := hwait
    obtain ⟨htext, hg, hnone⟩ := hu.session a ha
    obtain ⟨hbut, hans⟩ := h.update _ _ _ _ _ _ hw
    have ha' : s.injector.session = some a := by rwa [hq.injector] at ha
    have hclean : answer ≠ none → u.Clean a.id := by
      intro hne x q hx hqtext
      have hx' := hq.unexecuted x q hx
      have hxk := h.place _ _ _ _ hw x q hx' (hbut x q hx' hqtext)
      subst hxk
      exact hgone hne q hx
    simp only [Injector.resume, ha] at hnextfits hcarries havoids hbegins ⊢
    rcases u.injector.resumeUpdate_cases ha a.id n text answer with
      ⟨happ, hr⟩ | ⟨m, hm, happ, hr⟩ | ⟨hfocus, hr⟩ | ⟨response, -, hr⟩
    · obtain ⟨c, p, hc, hp, htok, hpa, hcg⟩ := hanswer _ happ
      obtain ⟨-, hl, hh⟩ := (hans a ha' c p hc hp htok).2 n hpa
      rw [hr] at hnextfits hcarries ⊢
      refine Ledger.perform hqueues hu.generations hu.tokens hnextfits hcarries
        (by simp [hnone]) ?_ (by simp [hnone]) (by simp)
      intro b hb
      obtain rfl : _ = b := by simpa using hb
      refine ⟨h.carries _ hw, hg, hnone, hclean (by simp [happ]), ?_, ?_⟩
      · rw [hlast]
        exact hl
      · exact hq.held (by have := h.generations _ c hc; simp only; omega) hh
    · -- a text service that is ahead would have been ahead before
      obtain ⟨c, p, hc, hp, htok, hpa, hcg⟩ := hanswer _ happ
      exact absurd ((hans a ha' c p hc hp htok).2 m hpa).1 hm
    · obtain ⟨c, p, hc, hp, htok, hpa, hcg⟩ := hanswer _ hfocus
      obtain ⟨hl, hh⟩ := (hans a ha' c p hc hp htok).1 (Or.inr hpa)
      rw [hr] at hnextfits hcarries ⊢
      refine Ledger.perform hqueues hu.generations hu.tokens hnextfits hcarries
        (by simp [hnone]) ?_ (by simp [hnone]) (by simp)
      intro b hb
      obtain rfl : a = b := by simpa [ha] using hb
      refine ⟨htext, hg, hnone, hclean (by simp [hfocus]), ?_, ?_⟩
      · rw [hlast]
        exact hl
      · exact hq.held (by have := h.generations _ c hc; omega) hh
    · rw [hr] at hnextfits hcarries ⊢
      exact hu.perform_none hqueues hnextfits rfl rfl hcarries
        (by simp [hnone]) (by simp)
  | finish id n =>
    obtain ⟨-, a, ha, rfl, rfl, rfl⟩ := hwait
    obtain ⟨htext, hg, hnone⟩ := hu.session a ha
    have hst := hu.steady a ha (by rw [hq.waiting, hw]; simp)
    simp only [Injector.resume, ha] at hnextfits hcarries havoids hbegins ⊢
    rcases u.injector.resumeFinish_cases ha a.id a.sequence answer with
      ⟨hfin, hr⟩ | ⟨response, -, hr⟩
    · rw [hr] at hnextfits hcarries ⊢
      refine Ledger.perform hqueues hu.generations hu.tokens hnextfits hcarries
        (by simp [Next.offers]) (by simp) ?_ (by simp)
      intro f hf
      obtain rfl : _ = f := by simpa using hf
      exact ⟨htext, hst.clean, hst.lastText⟩
    · rw [hr] at hnextfits hcarries ⊢
      exact hu.perform_none hqueues hnextfits rfl rfl hcarries
        (by simp [hnone]) (by simp)

/-- In a step whose Begins agree with what they find and run alone, every belief
of the injector stays true. -/
theorem step_ledger {T : String → Int → String} {s t : Windows} {e : Event} (h : s.Ledger T)
    (hshape : s.Shape) (hfits : s.Fits) (hs : s.step e = some t)
    (hrequest : ∀ request desktop, e = .request request desktop → request.Carries T)
    (hagrees : s.BeginAgrees e) (halone : s.BeginAlone e) : t.Ledger T := by
  have hreply : Quiet s { s with reply := none } := Quiet.of_eq rfl rfl rfl rfl rfl rfl
  have h₀ : Ledger T { s with reply := none } := h.quiet hreply
  have hshape₀ : Shape { s with reply := none } := hshape.congr rfl rfl rfl
  have hbegins : ∀ (u : Windows) (r : Injector × Next), t = u.perform r → Quiet s u →
      ∀ key command call rest rejected, r.2 = .call key command (.begin call rest rejected) →
      ∀ x p, x ≠ key.id → u.Unexecuted x p → p.command.textSession ≠ some call.sessionId := by
    intro u r ht hq key command call rest rejected hr x p hx hp
    have hwait : t.waiting = some (.call key command s.nextToken (.begin call rest rejected)) := by
      rw [ht, perform_waiting, hr, hq.nextToken]
    refine halone key call (offered_of_begin hs hwait ?_) x p hx (hq.unexecuted x p hp)
    intro key' command' wait' hw
    have := (hshape.awaited _ _ _ _ hw).1
    omega
  by_cases hquiet : e.isQuiet = true
  · exact h.quiet (step_quiet hs hquiet)
  cases e with
  | request request desktop =>
    obtain ⟨hw, rfl⟩ := stepRequest_some hs
    have hq : Quiet s { s with reply := none, requests := s.requests + 1 } :=
      Quiet.of_eq rfl rfl rfl rfl rfl rfl
    have hshape₁ : Shape { s with reply := none, requests := s.requests + 1 } :=
      hshape.congr rfl rfl rfl
    have hcarries :=
      s.injector.handleRequest_carries desktop s.input (hrequest request desktop rfl)
    refine (h.quiet hq).perform_move hshape₁.toQueues
      (s.injector.handleRequest_move desktop s.input request) ?_ hcarries ?_
    · intro key command token id n text hw'
      exact absurd (hw.symm.trans hw') (by simp)
    · exact fun f hf hid => s.injector.handleRequest_fresh desktop s.input hid hf rfl
  | select candidates =>
    obtain ⟨call, rejected, tried, hw, -, rfl⟩ := stepSelect_some hs
    have hnone : s.injector.session = none := hfits _ hw
    refine h₀.perform_none hshape₀.toQueues
      (s.injector.beginCandidates_fits hnone call rejected candidates) hnone rfl ?_ ?_
      (hbegins _ _ rfl hreply)
    · cases candidates with
      | nil => exact h.carries _ hw
      | cons k ks => exact h.carries _ hw
    · intro f hf
      cases candidates with
      | nil => exact h.avoids _ f hw hf
      | cons k ks => exact h.avoids _ f hw hf
  | expire =>
    obtain ⟨call, rejected, hw, rfl⟩ := stepExpire_some hs
    have hnone : s.injector.session = none := hfits _ hw
    exact h₀.perform_none hshape₀.toQueues trivial hnone rfl trivial
      (by simp [beginExpired, Next.offers]) (by simp [beginExpired])
  | execute tip env =>
    obtain ⟨generation, p, rest, hc, hp, -⟩ := stepExecute_some hs
    exact h.ran hshape hfits (Or.inl ⟨rfl, generation, rest, hc, hp⟩) hs hagrees
  | executeDetached tip env =>
    obtain ⟨p, hp, -⟩ := stepExecuteDetached_some hs
    exact h.ran hshape hfits (Or.inr ⟨rfl, hp⟩) hs hagrees
  | deliver tip =>
    obtain ⟨generation, p, rest, answer, hc, hp, ⟨key, command, wait, hw, ht⟩ | ⟨-, rfl⟩⟩ :=
      stepDeliver_some hs
    · obtain ⟨rfl, rfl, -⟩ := hshape.awaited_last hc hw
      have hpop := hreply.trans (Quiet.pop (s := { s with reply := none }) hc) rfl
      rw [ht]
      refine h.resume hfits hpop (hshape₀.toQueues.pop hc) hw ?_ ?_ (hbegins _ _ ht hpop)
      · rintro response ⟨⟩
        exact ⟨_, p, hc, List.mem_cons_self, rfl, hp, rfl⟩
      · rintro - q (⟨c, hcq, hq, -⟩ | hd)
        · obtain rfl : _ = c := by simpa [client, Windows.setHost] using hcq
          simp at hq
        · have hnone := hshape.alone tip (by rw [show s.client tip = _ from hc]; simp)
          simp [Windows.setHost, hnone] at hd
    · exact h₀.quiet (Quiet.pop hc)
  | giveUp =>
    obtain ⟨key, command, token, wait, hw, ht⟩ := stepGiveUp_some hs
    rw [ht]
    refine h.resume hfits hreply hshape₀.toQueues hw ?_ ?_
      (hbegins _ _ ht hreply)
    · rintro response ⟨⟩
    · intro hne
      exact absurd rfl hne
  | pipeLost =>
    simp only [step] at hs
    split at hs
    · rename_i hw
      obtain rfl : _ = t := by simpa using hs
      refine h₀.perform_move hshape₀.toQueues (s.injector.endFailedSession_move _) ?_
        (s.injector.endFailedSession_carries _ trivial) ?_
      · intro key command token id n text hw'
        exact absurd (Eq.symm hw |>.trans hw') (by simp)
      · intro f hf hid
        simpa [Wait.offers] using s.injector.endFailedSession_offers hid
    · simp at hs
  | restart =>
    obtain rfl : _ = t := by simpa [step] using hs
    refine ⟨?_, ?_, by simp, by simp, by simp, by simp, by simp, by simp, by simp, by simp⟩
    · simp [client, Host.disconnected]
    · rintro u q (⟨c, hc, -⟩ | hd)
      · simp [client, Host.disconnected] at hc
      · exact h.tokens u q (disconnected_unexecuted hd)
  | disconnect tip => simp [Event.isQuiet] at hquiet
  | dropDetached tip => simp [Event.isQuiet] at hquiet
  | connect tip => simp [Event.isQuiet] at hquiet
  | deactivate tip => simp [Event.isQuiet] at hquiet
  | externalEdit tip => simp [Event.isQuiet] at hquiet
  | physicalInput isReturn => simp [Event.isQuiet] at hquiet

theorem ledger_initial (T : String → Int → String) : Ledger T {} := by
  refine ⟨by simp [client], ?_, by simp, by simp, by simp, by simp, by simp, by simp, by simp,
    by simp⟩
  rintro t p (⟨c, hc, -⟩ | hd)
  · simp [client] at hc
  · simp at hd

end Windows

end FlowType
