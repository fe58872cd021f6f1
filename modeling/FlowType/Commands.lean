import FlowType.Windows

/-! Commands under way: which ones have been sent and not yet run, when a Begin is
sent, and what is written when a command runs. -/
namespace FlowType

namespace Windows

/-- A command that was handed to the broker and that the text service has not run
yet, whether or not anybody still waits for it. -/
def Unexecuted (s : Windows) (t : TipId) (p : Pending) : Prop :=
  (∃ c, s.client t = some c ∧ p ∈ c.queue ∧ p.answer = none) ∨ (s.hosts t).detached = some p

/-- The Begin that the event makes the injector send, with the text service it
is for: the first candidate of a round, or the next one after a failed offer. -/
def nextOffer (s : Windows) (e : Event) : Option (TipKey × TipBegin) :=
  match e, s.waiting with
  | .select (key :: _), some (.select call _ _) => some (key, call)
  | .giveUp, some (.call _ _ _ (.begin call (key :: _) _)) => some (key, call)
  | .deliver tip, some (.call _ _ token (.begin call (key :: _) _)) =>
    match s.client tip with
    | some ⟨_, p :: _⟩ =>
      if p.token = token ∧ p.answer ≠ some (.begun call.sessionId) ∧
          p.answer ≠ some .rebindRejected then some (key, call) else none
    | _ => none
  | _, _ => none

theorem not_begin_of_move {s : Injector} {r : Injector × Next} (h : s.Move r) (key : TipKey)
    (command : TipCommand) (call : TipBegin) (rest : List TipKey) (rejected : Bool) :
    r.2 ≠ .call key command (.begin call rest rejected) := by
  cases h <;> simp

/-- A Begin under way is the one that the event was to send. -/
theorem offered_of_begin {s t : Windows} {e : Event} (hs : s.step e = some t) {key : TipKey}
    {command : TipCommand} {call : TipBegin} {rest : List TipKey} {rejected : Bool}
    (hw : t.waiting = some (.call key command s.nextToken (.begin call rest rejected)))
    (hold : ∀ key command wait, s.waiting ≠ some (.call key command s.nextToken wait)) :
    s.nextOffer e = some (key, call) := by
  -- what `perform` waits for is the call of its second argument
  have hperform : ∀ (u : Windows) (r : Injector × Next), (u.perform r).waiting =
      some (.call key command s.nextToken (.begin call rest rejected)) →
      r.2 = .call key command (.begin call rest rejected) := by
    intro u r h
    rw [perform_waiting] at h
    split at h
    · rename_i hr
      obtain ⟨rfl, rfl, -, rfl⟩ : _ = key ∧ _ = command ∧ _ ∧ _ = _ := by simpa using h
      exact hr
    · simp at h
    · simp at h
  cases e with
  | request request desktop =>
    obtain ⟨-, rfl⟩ := stepRequest_some hs
    exact absurd (hperform _ _ hw)
      (not_begin_of_move (s.injector.handleRequest_move desktop s.input request) _ _ _ _ _)
  | select candidates =>
    obtain ⟨call', rejected', tried, hw', -, rfl⟩ := stepSelect_some hs
    have hcall := hperform _ _ hw
    cases candidates with
    | nil => simp [beginCandidates] at hcall
    | cons k ks =>
      simp only [beginCandidates, Next.call.injEq, Wait.begin.injEq] at hcall
      obtain ⟨rfl, -, rfl, -, -⟩ := hcall
      simp only [nextOffer, show s.waiting = _ from hw']
  | expire =>
    obtain ⟨call', rejected', -, rfl⟩ := stepExpire_some hs
    have hcall := hperform _ _ hw
    simp [beginExpired] at hcall
  | execute tip env =>
    obtain ⟨_, _, _, -, -, rfl⟩ := stepExecute_some hs
    exact absurd hw (hold _ _ _)
  | deliver tip =>
    obtain ⟨generation, p, rest', answer, hc, hp, ⟨key', command', wait, hw', rfl⟩ | ⟨-, rfl⟩⟩ :=
      stepDeliver_some hs
    · obtain ⟨rejected', rfl, hb, hr⟩ := Injector.resume_begin (hperform _ _ hw)
      rw [← hp] at hb hr
      simp only [nextOffer, show s.waiting = _ from hw', show s.client tip = _ from hc]
      rw [if_pos ⟨trivial, hb, hr⟩]
    · exact absurd hw (hold _ _ _)
  | giveUp =>
    obtain ⟨key', command', token, wait, hw', rfl⟩ := stepGiveUp_some hs
    obtain ⟨rejected', rfl, -⟩ := Injector.resume_begin (hperform _ _ hw)
    simp only [nextOffer, show s.waiting = _ from hw']
  | disconnect tip =>
    obtain ⟨-, rfl⟩ := stepDisconnect_some hs
    exact absurd hw (hold _ _ _)
  | executeDetached tip env =>
    obtain ⟨_, -, rfl⟩ := stepExecuteDetached_some hs
    exact absurd hw (hold _ _ _)
  | dropDetached tip =>
    obtain rfl : _ = t := by simpa [step] using hs
    exact absurd hw (hold _ _ _)
  | connect tip =>
    obtain ⟨-, -, rfl⟩ := stepConnect_some hs
    exact absurd hw (hold _ _ _)
  | deactivate tip =>
    obtain rfl : _ = t := by simpa [step] using hs
    exact absurd hw (hold _ _ _)
  | externalEdit tip =>
    obtain rfl := step_externalEdit_some hs
    exact absurd hw (hold _ _ _)
  | physicalInput isReturn =>
    obtain rfl : _ = t := by simpa [step] using hs
    exact absurd hw (hold _ _ _)
  | pipeLost =>
    obtain ⟨-, rfl⟩ := step_pipeLost_some hs
    exact absurd (hperform _ _ hw)
      (not_begin_of_move (s.injector.endFailedSession_move _) _ _ _ _ _)
  | restart =>
    obtain rfl : _ = t := by simpa [step] using hs
    simp at hw

/-- The event runs a command: the head of a queue, or one whose connection is gone. -/
def Runs (s : Windows) (e : Event) (tip : TipId) (env : EditEnv) (p : Pending) : Prop :=
  (e = .execute tip env ∧ ∃ generation rest, s.client tip = some ⟨generation, p :: rest⟩ ∧
    p.answer = none) ∨
  (e = .executeDetached tip env ∧ (s.hosts tip).detached = some p)

theorem Runs.unexecuted {s : Windows} {e : Event} {tip : TipId} {env : EditEnv} {p : Pending}
    (h : s.Runs e tip env p) : s.Unexecuted tip p := by
  rcases h with ⟨-, generation, rest, hc, hp⟩ | ⟨-, hd⟩
  · exact Or.inl ⟨_, hc, List.mem_cons_self, hp⟩
  · exact Or.inr hd

theorem perform_unexecuted {s : Windows} {r : Injector × Next} {u : TipId} {q : Pending}
    (h : (s.perform r).Unexecuted u q) : s.Unexecuted u q ∨
      ∃ generation command wait, r.2 = .call ⟨u, generation⟩ command wait ∧
        q = { command, token := s.nextToken, request := s.requests } ∧ s.client u ≠ none := by
  rcases h with ⟨c', hc', hq, hans⟩ | hd
  · obtain ⟨c, hc, -, ⟨hcq, -⟩ | ⟨command, wait, hr, hcq⟩⟩ := perform_client hc'
    · rw [hcq] at hq
      exact Or.inl (Or.inl ⟨c, hc, hq, hans⟩)
    · rw [hcq] at hq
      rcases List.mem_append.mp hq with hq | hq
      · exact Or.inl (Or.inl ⟨c, hc, hq, hans⟩)
      · exact Or.inr ⟨_, command, wait, hr, by simpa using hq, by simp [hc]⟩
  · rw [(perform_host s r u).2] at hd
    exact Or.inl (Or.inr hd)

theorem setHost_unexecuted {s : Windows} {tip : TipId} {host : Host}
    (hhost : ∀ q, (∃ c, host.client = some c ∧ q ∈ c.queue ∧ q.answer = none) ∨
      host.detached = some q → s.Unexecuted tip q) {u : TipId} {q : Pending}
    (h : (s.setHost tip host).Unexecuted u q) : s.Unexecuted u q := by
  by_cases hu : u = tip
  · subst hu
    simp only [Unexecuted, client, setHost_self] at h
    exact hhost q h
  · simpa only [Unexecuted, client, setHost_of_ne s _ _ hu] using h

theorem disconnected_unexecuted {s : Windows} {tip : TipId} {q : Pending}
    (h : (s.hosts tip).disconnected.detached = some q) : s.Unexecuted tip q := by
  simp only [Host.disconnected] at h
  split at h
  · exact Or.inr h
  · rename_i c hc
    rw [Option.filter_eq_some_iff] at h
    exact Or.inl ⟨c, hc, List.mem_of_mem_head? h.1, by simpa using h.2⟩

@[simp] theorem perform_requests (s : Windows) (r : Injector × Next) :
    (s.perform r).requests = s.requests := by
  unfold perform
  split
  · rfl
  · rfl
  · rfl
  · exact (enqueue_fields _ _ _).2.2.2.2.2.2.1

/-- Only a request that the injector reads gets a number. -/
theorem step_requests {s t : Windows} {e : Event} (hs : s.step e = some t) :
    t.requests = s.requests ∨
      (t.requests = s.requests + 1 ∧ ∃ request desktop, e = .request request desktop) := by
  cases e with
  | request request desktop =>
    obtain ⟨-, rfl⟩ := stepRequest_some hs
    exact Or.inr ⟨by simp, request, desktop, rfl⟩
  | select candidates =>
    obtain ⟨_, _, _, -, -, rfl⟩ := stepSelect_some hs
    exact Or.inl (by simp)
  | expire =>
    obtain ⟨_, _, -, rfl⟩ := stepExpire_some hs
    exact Or.inl (by simp)
  | execute tip env =>
    obtain ⟨_, _, _, -, -, rfl⟩ := stepExecute_some hs
    exact Or.inl rfl
  | deliver tip =>
    obtain ⟨_, _, _, _, -, -, ⟨_, _, _, -, rfl⟩ | ⟨-, rfl⟩⟩ := stepDeliver_some hs
    · exact Or.inl (by simp)
    · exact Or.inl rfl
  | giveUp =>
    obtain ⟨_, _, _, _, -, rfl⟩ := stepGiveUp_some hs
    exact Or.inl (by simp)
  | disconnect tip =>
    obtain ⟨-, rfl⟩ := stepDisconnect_some hs
    exact Or.inl rfl
  | executeDetached tip env =>
    obtain ⟨_, -, rfl⟩ := stepExecuteDetached_some hs
    exact Or.inl rfl
  | connect tip =>
    obtain ⟨-, -, rfl⟩ := stepConnect_some hs
    exact Or.inl rfl
  | externalEdit tip =>
    obtain rfl := step_externalEdit_some hs
    exact Or.inl rfl
  | pipeLost =>
    obtain ⟨-, rfl⟩ := step_pipeLost_some hs
    exact Or.inl (by simp)
  | dropDetached tip =>
    obtain rfl : _ = t := by simpa [step] using hs
    exact Or.inl rfl
  | deactivate tip =>
    obtain rfl : _ = t := by simpa [step] using hs
    exact Or.inl rfl
  | physicalInput isReturn =>
    obtain rfl : _ = t := by simpa [step] using hs
    exact Or.inl rfl
  | restart =>
    obtain rfl : _ = t := by simpa [step] using hs
    exact Or.inl rfl

theorem step_requests_le {s t : Windows} {e : Event} (hs : s.step e = some t) :
    s.requests ≤ t.requests := by
  rcases step_requests hs with h | ⟨h, -⟩ <;> omega

/-- A command becomes due only by being sent: it carries the next token and the
injector waits for it. -/
theorem step_unexecuted {s t : Windows} {e : Event} (hs : s.step e = some t) {u : TipId}
    {q : Pending} (h : t.Unexecuted u q) : s.Unexecuted u q ∨
      ∃ generation wait, q.token = s.nextToken ∧ q.request = t.requests ∧
        t.waiting = some (.call ⟨u, generation⟩ q.command s.nextToken wait) ∧
        s.client u ≠ none := by
  have hperform : ∀ (v : Windows) (r : Injector × Next), t = v.perform r →
      v.nextToken = s.nextToken → (∀ q, v.Unexecuted u q → s.Unexecuted u q) →
      (v.client u ≠ none → s.client u ≠ none) → s.Unexecuted u q ∨
      ∃ generation wait, q.token = s.nextToken ∧ q.request = t.requests ∧
        t.waiting = some (.call ⟨u, generation⟩ q.command s.nextToken wait) ∧
        s.client u ≠ none := by
    rintro v r rfl hn hsub hc
    rcases perform_unexecuted h with h | ⟨generation, command, wait, hr, rfl, hcu⟩
    · exact Or.inl (hsub q h)
    · refine Or.inr ⟨generation, wait, hn, by simp, ?_, hc hcu⟩
      rw [perform_waiting, hr, hn]
  cases e with
  | request request desktop =>
    obtain ⟨-, ht⟩ := stepRequest_some hs
    exact hperform _ _ ht rfl (fun _ => id) id
  | select candidates =>
    obtain ⟨_, _, _, -, -, ht⟩ := stepSelect_some hs
    exact hperform _ _ ht rfl (fun _ => id) id
  | expire =>
    obtain ⟨_, _, -, ht⟩ := stepExpire_some hs
    exact hperform _ _ ht rfl (fun _ => id) id
  | execute tip env =>
    obtain ⟨generation, p, rest, hc, hp, rfl⟩ := stepExecute_some hs
    refine Or.inl (setHost_unexecuted (s := s) ?_ h)
    rintro x (⟨c, ⟨⟩, hx, hans⟩ | hd)
    · rcases List.mem_cons.mp hx with rfl | hx
      · simp at hans
      · exact Or.inl ⟨_, hc, List.mem_cons_of_mem _ hx, hans⟩
    · exact Or.inr hd
  | deliver tip =>
    obtain ⟨generation, p, rest, answer, hc, hp, hcase⟩ := stepDeliver_some hs
    have hpop : ∀ (v : TipId) q, (s.setHost tip { s.hosts tip with
        client := some ⟨generation, rest⟩ }).Unexecuted v q → s.Unexecuted v q := by
      intro v x hx
      refine setHost_unexecuted ?_ hx
      rintro y (⟨c, ⟨⟩, hy, hans⟩ | hd)
      · exact Or.inl ⟨_, hc, List.mem_cons_of_mem _ hy, hans⟩
      · exact Or.inr hd
    rcases hcase with ⟨key, command, wait, hw, ht⟩ | ⟨-, rfl⟩
    · refine hperform _ _ ht rfl (fun x hx => hpop u x hx) ?_
      intro hcu
      by_cases hu : u = tip
      · subst hu
        rw [show s.client u = _ from hc]
        simp
      · rwa [client, setHost_of_ne _ _ _ hu] at hcu
    · exact Or.inl (hpop u q h)
  | giveUp =>
    obtain ⟨_, _, _, _, -, ht⟩ := stepGiveUp_some hs
    exact hperform _ _ ht rfl (fun _ => id) id
  | disconnect tip =>
    obtain ⟨-, rfl⟩ := stepDisconnect_some hs
    refine Or.inl (setHost_unexecuted (s := s) ?_ h)
    rintro x (⟨c, hc, -⟩ | hd)
    · simp [Host.disconnected] at hc
    · exact disconnected_unexecuted hd
  | executeDetached tip env =>
    obtain ⟨p, hp, rfl⟩ := stepExecuteDetached_some hs
    refine Or.inl (setHost_unexecuted (s := s) ?_ h)
    rintro x (hx | hd)
    · exact Or.inl hx
    · simp at hd
  | dropDetached tip =>
    obtain rfl : _ = t := by simpa [step] using hs
    refine Or.inl (setHost_unexecuted (s := s) ?_ h)
    rintro x (hx | hd)
    · exact Or.inl hx
    · simp at hd
  | connect tip =>
    obtain ⟨-, hd', rfl⟩ := stepConnect_some hs
    refine Or.inl (setHost_unexecuted (s := s) ?_ h)
    rintro x (⟨c, ⟨⟩, hx, -⟩ | hd)
    · simp at hx
    · exact Or.inr hd
  | deactivate tip =>
    obtain rfl : _ = t := by simpa [step] using hs
    refine Or.inl (setHost_unexecuted (s := s) ?_ h)
    rintro x (⟨c, hc, -⟩ | hd)
    · simp at hc
    · simp at hd
  | externalEdit tip =>
    obtain rfl := step_externalEdit_some hs
    refine Or.inl (setHost_unexecuted (s := s) ?_ h)
    exact fun x hx => hx
  | physicalInput isReturn =>
    obtain rfl : _ = t := by simpa [step] using hs
    exact Or.inl h
  | pipeLost =>
    simp only [step] at hs
    split at hs
    · exact hperform _ _ (Option.some.inj hs).symm rfl (fun _ => id) id
    · simp at hs
  | restart =>
    obtain rfl : _ = t := by simpa [step] using hs
    rcases h with ⟨c, hc, -⟩ | hd
    · simp [client, Host.disconnected] at hc
    · exact Or.inl (disconnected_unexecuted (s := s) hd)

/-- What a step writes: nothing, or what the command it runs writes. -/
theorem step_written {s t : Windows} {e : Event} (hs : s.step e = some t) :
    (t.written = s.written ∧ ∀ tip env p, ¬ s.Runs e tip env p) ∨
    ∃ tip env p, s.Runs e tip env p ∧ t.written =
      ((s.hosts tip).composition.handleCommand env p.command).write.toList.map (p.request, ·) ++
        s.written := by
  cases e with
  | execute tip env =>
    obtain ⟨generation, p, rest, hc, hp, rfl⟩ := stepExecute_some hs
    exact Or.inr ⟨tip, env, p, Or.inl ⟨rfl, generation, rest, hc, hp⟩, rfl⟩
  | executeDetached tip env =>
    obtain ⟨p, hp, rfl⟩ := stepExecuteDetached_some hs
    exact Or.inr ⟨tip, env, p, Or.inr ⟨rfl, hp⟩, rfl⟩
  | request request desktop =>
    obtain ⟨-, rfl⟩ := stepRequest_some hs
    exact Or.inl ⟨by simp, by simp [Runs]⟩
  | select candidates =>
    obtain ⟨_, _, _, -, -, rfl⟩ := stepSelect_some hs
    exact Or.inl ⟨by simp, by simp [Runs]⟩
  | expire =>
    obtain ⟨_, _, -, rfl⟩ := stepExpire_some hs
    exact Or.inl ⟨by simp, by simp [Runs]⟩
  | deliver tip =>
    obtain ⟨_, _, _, _, -, -, ⟨_, _, _, -, rfl⟩ | ⟨-, rfl⟩⟩ := stepDeliver_some hs
    · exact Or.inl ⟨by simp, by simp [Runs]⟩
    · exact Or.inl ⟨rfl, by simp [Runs]⟩
  | giveUp =>
    obtain ⟨_, _, _, _, -, rfl⟩ := stepGiveUp_some hs
    exact Or.inl ⟨by simp, by simp [Runs]⟩
  | disconnect tip =>
    obtain ⟨-, rfl⟩ := stepDisconnect_some hs
    exact Or.inl ⟨rfl, by simp [Runs]⟩
  | dropDetached tip =>
    obtain rfl : _ = t := by simpa [step] using hs
    exact Or.inl ⟨rfl, by simp [Runs]⟩
  | connect tip =>
    obtain ⟨-, -, rfl⟩ := stepConnect_some hs
    exact Or.inl ⟨rfl, by simp [Runs]⟩
  | deactivate tip =>
    obtain rfl : _ = t := by simpa [step] using hs
    exact Or.inl ⟨rfl, by simp [Runs]⟩
  | externalEdit tip =>
    obtain rfl := step_externalEdit_some hs
    exact Or.inl ⟨rfl, by simp [Runs]⟩
  | physicalInput isReturn =>
    obtain rfl : _ = t := by simpa [step] using hs
    exact Or.inl ⟨rfl, by simp [Runs]⟩
  | pipeLost =>
    obtain ⟨-, rfl⟩ := step_pipeLost_some hs
    exact Or.inl ⟨by simp, by simp [Runs]⟩
  | restart =>
    obtain rfl : _ = t := by simpa [step] using hs
    exact Or.inl ⟨rfl, by simp [Runs]⟩

/-- A command that has been run is due no more. -/
theorem Runs.done {s t : Windows} {e : Event} {tip : TipId} {env : EditEnv} {p : Pending}
    (h : s.Runs e tip env p) (hshape : s.Shape) (hs : s.step e = some t) {q : Pending}
    (hq : t.Unexecuted tip q) : s.Unexecuted tip q ∧ q.token ≠ p.token := by
  rcases h with ⟨rfl, generation, rest, hc, hp⟩ | ⟨rfl, hd⟩
  · obtain ⟨generation', p', rest', hc', -, rfl⟩ := stepExecute_some hs
    rw [show s.client tip = _ from hc'] at hc
    obtain ⟨rfl, rfl, rfl⟩ : generation' = generation ∧ p' = p ∧ rest' = rest := by simpa using hc
    have hsort := List.pairwise_cons.mp (hshape.sorted tip _ hc')
    rcases hq with ⟨c, hc'', hq, hans⟩ | hdet
    · obtain rfl : _ = c := by simpa [client, runCommand, Windows.setHost] using hc''
      rcases List.mem_cons.mp hq with rfl | hq
      · simp at hans
      · have hlt := hsort.1 q hq
        exact ⟨Or.inl ⟨_, hc', List.mem_cons_of_mem _ hq, hans⟩, by omega⟩
    · have hnone := hshape.alone tip (by rw [show s.client tip = _ from hc']; simp)
      simp [runCommand, Windows.setHost, hnone] at hdet
  · obtain ⟨p', hp', rfl⟩ := stepExecuteDetached_some hs
    have hnone : (s.hosts tip).client = none := by
      by_contra hne
      exact absurd (hd.symm.trans (hshape.alone tip hne)) (by simp)
    rcases hq with ⟨c, hc, -⟩ | hdet
    · simp [client, runCommand, Windows.setHost, hnone] at hc
    · simp [runCommand, Windows.setHost] at hdet

/-- A change in which the injector has no part: commands only disappear, and a
text service keeps what it has applied, unless it connects anew. -/
structure Quiet (s t : Windows) : Prop where
  injector : t.injector = s.injector
  waiting : t.waiting = s.waiting
  nextToken : t.nextToken = s.nextToken
  written : t.written = s.written
  unexecuted : ∀ u q, t.Unexecuted u q → s.Unexecuted u q
  queue : ∀ u c' p, t.client u = some c' → p ∈ c'.queue →
    ∃ c, s.client u = some c ∧ c.generation = c'.generation ∧ p ∈ c.queue
  client : ∀ u c', t.client u = some c' →
    (∃ c, s.client u = some c ∧ c.generation = c'.generation ∧
      (t.hosts u).composition.sessionId = (s.hosts u).composition.sessionId ∧
      (t.hosts u).composition.sequence = (s.hosts u).composition.sequence) ∨
    (c'.generation = s.nextGeneration ∧ s.nextGeneration < t.nextGeneration)
  nextGeneration : s.nextGeneration ≤ t.nextGeneration

theorem Quiet.of_eq {s t : Windows} (hh : t.hosts = s.hosts) (hi : t.injector = s.injector)
    (hw : t.waiting = s.waiting) (hn : t.nextToken = s.nextToken) (hr : t.written = s.written)
    (hg : t.nextGeneration = s.nextGeneration) : Quiet s t := by
  have hc : t.client = s.client := by
    funext u
    simp [Windows.client, hh]
  refine ⟨hi, hw, hn, hr, ?_, ?_, ?_, hg.ge⟩
  · intro u q hq
    simpa [Unexecuted, hc, hh] using hq
  · intro u c p hu hp
    exact ⟨c, by rwa [hc] at hu, rfl, hp⟩
  · intro u c hu
    exact Or.inl ⟨c, by rwa [hc] at hu, rfl, by rw [hh], by rw [hh]⟩

/-- One host changes, and its queue keeps no other commands. -/
theorem Quiet.setHost {s : Windows} (tip : TipId) (host : Host)
    (hdetached : ∀ q, host.detached = some q → s.Unexecuted tip q)
    (hclient : ∀ c', host.client = some c' → ∃ c, s.client tip = some c ∧
      c.generation = c'.generation ∧ (∀ p ∈ c'.queue, p ∈ c.queue) ∧
      host.composition.sessionId = (s.hosts tip).composition.sessionId ∧
      host.composition.sequence = (s.hosts tip).composition.sequence) :
    Quiet s (s.setHost tip host) := by
  refine ⟨rfl, rfl, rfl, rfl, ?_, ?_, ?_, le_rfl⟩
  · intro u q hq
    refine setHost_unexecuted ?_ hq
    rintro x (⟨c', hc', hx, hans⟩ | hd)
    · obtain ⟨c, hc, -, hsub, -⟩ := hclient c' hc'
      exact Or.inl ⟨c, hc, hsub x hx, hans⟩
    · exact hdetached x hd
  · intro u c' p hu hp
    by_cases ht : u = tip
    · subst ht
      rw [Windows.client, setHost_self] at hu
      obtain ⟨c, hc, hg, hsub, -⟩ := hclient c' hu
      exact ⟨c, hc, hg, hsub p hp⟩
    · rw [Windows.client, setHost_of_ne s _ _ ht] at hu
      exact ⟨c', hu, rfl, hp⟩
  · intro u c' hu
    by_cases ht : u = tip
    · subst ht
      rw [Windows.client, setHost_self] at hu
      obtain ⟨c, hc, hg, -, hid, hseq⟩ := hclient c' hu
      rw [setHost_self]
      exact Or.inl ⟨c, hc, hg, hid, hseq⟩
    · rw [Windows.client, setHost_of_ne s _ _ ht] at hu
      rw [setHost_of_ne s _ _ ht]
      exact Or.inl ⟨c', hu, rfl, rfl, rfl⟩

theorem Quiet.trans {s t u : Windows} (h : Quiet s t) (h' : Quiet t u)
    (hg : t.nextGeneration = s.nextGeneration) : Quiet s u := by
  refine ⟨h'.injector.trans h.injector, h'.waiting.trans h.waiting,
    h'.nextToken.trans h.nextToken, h'.written.trans h.written,
    fun v q hq => h.unexecuted v q (h'.unexecuted v q hq), ?_, ?_,
    h.nextGeneration.trans h'.nextGeneration⟩
  · intro v c p hc hp
    obtain ⟨c', hc', hg', hp'⟩ := h'.queue v c p hc hp
    obtain ⟨c'', hc'', hg'', hp''⟩ := h.queue v c' p hc' hp'
    exact ⟨c'', hc'', hg''.trans hg', hp''⟩
  · intro v c hc
    rcases h'.client v c hc with ⟨c', hc', hg', hid, hseq⟩ | ⟨hg', hlt⟩
    · rcases h.client v c' hc' with ⟨c'', hc'', hg'', hid', hseq'⟩ | ⟨-, hlt⟩
      · exact Or.inl ⟨c'', hc'', hg''.trans hg', hid.trans hid', hseq.trans hseq'⟩
      · omega
    · rw [hg] at hg' hlt
      exact Or.inr ⟨hg', hlt⟩

theorem Quiet.pop {s : Windows} {tip : TipId} {generation : Nat} {p : Pending}
    {rest : List Pending} (hc : s.client tip = some ⟨generation, p :: rest⟩) :
    Quiet s (s.setHost tip { s.hosts tip with client := some ⟨generation, rest⟩ }) := by
  refine Quiet.setHost tip _ (fun q hq => Or.inr hq) ?_
  rintro c ⟨⟩
  exact ⟨_, hc, rfl, fun x hx => List.mem_cons_of_mem _ hx, rfl, rfl⟩

/-- Events in which neither the injector acts nor a command runs. -/
def Event.isQuiet : Event → Bool
  | .disconnect _ => true
  | .dropDetached _ => true
  | .connect _ => true
  | .deactivate _ => true
  | .externalEdit _ => true
  | .physicalInput _ => true
  | _ => false

theorem step_quiet {s t : Windows} {e : Event} (hs : s.step e = some t)
    (he : e.isQuiet = true) : Quiet s t := by
  have hreply : Quiet s { s with reply := none } := Quiet.of_eq rfl rfl rfl rfl rfl rfl
  cases e with
  | disconnect tip =>
    obtain ⟨-, rfl⟩ := stepDisconnect_some hs
    refine hreply.trans (Quiet.setHost tip _ (fun q hq => disconnected_unexecuted hq) ?_) rfl
    simp [Host.disconnected]
  | dropDetached tip =>
    obtain rfl : _ = t := by simpa [step] using hs
    refine hreply.trans (Quiet.setHost tip _ (by simp) ?_) rfl
    exact fun c hc => ⟨c, hc, rfl, fun p hp => hp, rfl, rfl⟩
  | connect tip =>
    obtain ⟨hc, hd, rfl⟩ := stepConnect_some hs
    refine ⟨rfl, rfl, rfl, rfl, ?_, ?_, ?_, Nat.le_succ _⟩
    · intro u q hq
      refine setHost_unexecuted (s := s) ?_ hq
      rintro x (⟨c, ⟨⟩, hx, -⟩ | hdx)
      · simp at hx
      · exact Or.inr hdx
    · intro u c p hu hp
      by_cases ht : u = tip
      · subst ht
        obtain rfl : _ = c := by simpa [Windows.client, Windows.setHost] using hu
        simp at hp
      · exact ⟨c, by simpa [Windows.client, Windows.setHost, ht] using hu, rfl, hp⟩
    · intro u c hu
      by_cases ht : u = tip
      · subst ht
        obtain rfl : _ = c := by simpa [Windows.client, Windows.setHost] using hu
        exact Or.inr ⟨rfl, Nat.lt_succ_self _⟩
      · refine Or.inl ⟨c, by simpa [Windows.client, Windows.setHost, ht] using hu, rfl, ?_, ?_⟩
        · simp [Windows.setHost, ht]
        · simp [Windows.setHost, ht]
  | deactivate tip =>
    obtain rfl : _ = t := by simpa [step] using hs
    exact hreply.trans (Quiet.setHost tip _ (by simp) (by simp)) rfl
  | externalEdit tip =>
    obtain rfl := step_externalEdit_some hs
    refine hreply.trans (Quiet.setHost tip _ (fun q hq => Or.inr hq) ?_) rfl
    exact fun c hc => ⟨c, hc, rfl, fun p hp => hp, rfl, rfl⟩
  | physicalInput isReturn =>
    obtain rfl : _ = t := by simpa [step] using hs
    exact Quiet.of_eq rfl rfl rfl rfl rfl rfl
  | request request desktop => simp [Event.isQuiet] at he
  | select candidates => simp [Event.isQuiet] at he
  | expire => simp [Event.isQuiet] at he
  | execute tip env => simp [Event.isQuiet] at he
  | deliver tip => simp [Event.isQuiet] at he
  | giveUp => simp [Event.isQuiet] at he
  | executeDetached tip env => simp [Event.isQuiet] at he
  | pipeLost => simp [Event.isQuiet] at he
  | restart => simp [Event.isQuiet] at he

/-- What running a command changes: one composition, the answer at the head of one
queue, and the list of writes. -/
structure Ran (s t : Windows) (tip : TipId) (env : EditEnv) (p : Pending) : Prop where
  injector : t.injector = s.injector
  waiting : t.waiting = s.waiting
  nextToken : t.nextToken = s.nextToken
  nextGeneration : t.nextGeneration = s.nextGeneration
  written : t.written =
    ((s.hosts tip).composition.handleCommand env p.command).write.toList.map (p.request, ·) ++
      s.written
  composition : (t.hosts tip).composition =
    ((s.hosts tip).composition.handleCommand env p.command).composition
  others : ∀ u, u ≠ tip → t.hosts u = s.hosts u
  client : ∀ u c', t.client u = some c' → ∃ c, s.client u = some c ∧
    c.generation = c'.generation ∧ ∀ q ∈ c'.queue,
      (q ∈ c.queue ∧ (u = tip → q.token ≠ p.token ∧ q.answer = none)) ∨
      (u = tip ∧ q.token = p.token ∧ p ∈ c.queue ∧
        q.answer = some ((s.hosts tip).composition.handleCommand env p.command).response)

theorem Runs.ran {s t : Windows} {e : Event} {tip : TipId} {env : EditEnv} {p : Pending}
    (h : s.Runs e tip env p) (hshape : s.Shape) (hs : s.step e = some t) :
    Ran s t tip env p := by
  rcases h with ⟨rfl, generation, rest, hc, hp⟩ | ⟨rfl, hd⟩
  · obtain ⟨generation', p', rest', hc', -, rfl⟩ := stepExecute_some hs
    rw [show s.client tip = _ from hc'] at hc
    obtain ⟨rfl, rfl, rfl⟩ : generation' = generation ∧ p' = p ∧ rest' = rest := by simpa using hc
    refine ⟨rfl, rfl, rfl, rfl, rfl, by simp [runCommand, Windows.setHost], ?_, ?_⟩
    · intro u hu
      simp [runCommand, Windows.setHost, hu]
    · intro u c' hu
      by_cases ht : u = tip
      · subst ht
        obtain rfl : _ = c' := by simpa [Windows.client, runCommand, Windows.setHost] using hu
        refine ⟨_, hc', rfl, ?_⟩
        intro q hq
        rcases List.mem_cons.mp hq with rfl | hq
        · exact Or.inr ⟨rfl, rfl, List.mem_cons_self, rfl⟩
        · refine Or.inl ⟨List.mem_cons_of_mem _ hq, fun _ => ⟨?_, ?_⟩⟩
          · have hlt := (List.pairwise_cons.mp (hshape.sorted u _ hc')).1 q hq
            omega
          · exact hshape.order u _ p' rest' hc' rfl q hq
      · exact ⟨c', by simpa [Windows.client, runCommand, Windows.setHost, ht] using hu, rfl,
          fun q hq => Or.inl ⟨hq, fun h => absurd h ht⟩⟩
  · obtain ⟨p', hp', rfl⟩ := stepExecuteDetached_some hs
    obtain rfl : p' = p := by
      have heq := hp'.symm.trans hd
      simpa using heq
    refine ⟨rfl, rfl, rfl, rfl, rfl, by simp [runCommand, Windows.setHost], ?_, ?_⟩
    · intro u hu
      simp [runCommand, Windows.setHost, hu]
    · intro u c' hu
      by_cases ht : u = tip
      · -- a lost connection has no queue
        subst ht
        have hc : (s.hosts u).client = some c' := by
          simpa [Windows.client, runCommand, Windows.setHost] using hu
        have hnone := hshape.alone u (by rw [Windows.client, hc]; simp)
        simp [hnone] at hd
      · exact ⟨c', by simpa [Windows.client, runCommand, Windows.setHost, ht] using hu, rfl,
          fun q hq => Or.inl ⟨hq, fun h => absurd h ht⟩⟩

end Windows

end FlowType
