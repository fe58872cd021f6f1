import FlowType.Commands

/-! Sessions that a text service keeps without an owner. A command that the
injector has given up is not withdrawn, so a late Begin can leave a session that
nobody will ever cancel. -/
namespace FlowType

namespace Windows
open Machine

def Holds (s : Windows) (t : TipId) (id : String) : Prop :=
  s.client t ≠ none ∧ (s.hosts t).composition.sessionId = some id

instance (s : Windows) (t : TipId) (id : String) : Decidable (s.Holds t id) :=
  inferInstanceAs (Decidable (_ ∧ _))

def AllRun (s : Windows) : Prop :=
  ∀ t, (s.hosts t).detached = none ∧ ∀ c, s.client t = some c → c.queue = []

/-- An idle system holds no session, so a fresh Begin is never refused for
another one; and no session is held twice. -/
def NoOrphan (s : Windows) : Prop :=
  (s.injector.session = none → s.AllRun → ∀ t, s.client t ≠ none →
    (s.hosts t).composition.sessionId = none ∧
    ∀ env id sequence text attach,
      ((s.hosts t).composition.begin env id sequence text attach).response ≠ .rebindRejected) ∧
  ∀ t u id, s.Holds t id → s.Holds u id → t = u

def BeginsSession (c : Composition) (env : EditEnv) : TipCommand → Prop
  | .begin _ _ _ _ => c.sessionId = none ∧ env.focused = true ∧ env.advised = true ∧
      env.edit = .done
  | _ => False

def Awaits (s : Windows) (token : Nat) : Prop :=
  ∃ key command wait, s.waiting = some (.call key command token wait)

/-- No Begin that was given up opens a session, none that has opened one is given
up, a text service connects without a session, and a Begin is sent only when no
other text service still holds its session. -/
def OrphanFree (s : Windows) (e : Event) : Prop :=
  (∀ key call, s.nextOffer e = some (key, call) → ∀ t, t ≠ key.id →
    ¬ s.Holds t call.sessionId) ∧
  match e with
  | .execute tip env => ∀ c p rest, s.client tip = some c → c.queue = p :: rest →
      BeginsSession (s.hosts tip).composition env p.command → s.Awaits p.token
  | .giveUp => ∀ key command token call rest rejected,
      s.waiting = some (.call key command token (.begin call rest rejected)) →
      ∀ t c, s.client t = some c → ∀ p ∈ c.queue, p.token = token →
        p.answer ≠ some (.begun call.sessionId)
  | .connect tip => (s.hosts tip).composition.sessionId = none
  | _ => True

/-- Why a text service may hold a session: it is the active one, its Cancel is on
the way, or the injector is about to hear that it has begun. -/
def Owned (s : Windows) (t : TipId) (c : Client) (id : String) : Prop :=
  (∃ a, s.injector.session = some a ∧ a.id = id ∧ a.tip = ⟨t, c.generation⟩) ∨
  (∃ p ∈ c.queue, p.answer = none ∧ p.command = .cancel id) ∨
  (∃ key command call rest rejected, ∃ p ∈ c.queue,
    s.waiting = some (.call key command p.token (.begin call rest rejected)) ∧
    call.sessionId = id ∧ p.answer = some (.begun id))

structure Owners (s : Windows) : Prop where
  owned : ∀ t c id, s.client t = some c → (s.hosts t).composition.sessionId = some id →
    s.Owned t c id
  unique : ∀ t u id, s.Holds t id → s.Holds u id → t = u
  begins : ∀ key command token call rest rejected,
    s.waiting = some (.call key command token (.begin call rest rejected)) →
    ∀ t, t ≠ key.id → ¬ s.Holds t call.sessionId
  finished : ∀ t c p rest, s.client t = some c → c.queue = p :: rest →
    ∀ id n, p.answer = some (.finished id n) → (s.hosts t).composition.sessionId = none

structure OrphanInv (s : Windows) : Prop extends Owners s where
  shape : s.Shape
  fits : s.Fits

theorem OrphanInv.noOrphan {s : Windows} (h : s.OrphanInv) : s.NoOrphan := by
  refine ⟨?_, h.unique⟩
  intro hs hq t ht
  obtain ⟨c, hc⟩ := Option.ne_none_iff_exists'.mp ht
  have hnil : c.queue = [] := (hq t).2 c hc
  have hnone : (s.hosts t).composition.sessionId = none := by
    cases hid : (s.hosts t).composition.sessionId with
    | none => rfl
    | some id =>
      -- every reason to hold a session needs an active session or a queued command
      rcases h.owned t c id hc hid with ⟨a, ha, -⟩ | ⟨p, hp, -⟩ | ⟨_, _, _, _, _, p, hp, -⟩
      · simp [hs] at ha
      · simp [hnil] at hp
      · simp [hnil] at hp
  refine ⟨hnone, ?_⟩
  intro env id sequence text attach
  unfold Composition.begin
  rw [if_neg (by simp [hnone]), if_neg (by simp [hnone])]
  split_ifs
  · simp
  · simp
  · split
    · simp
    · simp

theorem Owners.congr {s t : Windows} (h : s.Owners) (hh : t.hosts = s.hosts)
    (hi : t.injector = s.injector) (hw : t.waiting = s.waiting) : t.Owners := by
  have hc : t.client = s.client := by
    funext u
    simp [client, hh]
  have hholds : ∀ u id, t.Holds u id → s.Holds u id := by
    intro u id hu
    simpa [Holds, hc, hh] using hu
  refine ⟨?_, ?_, ?_, ?_⟩
  · intro u c id hu hid
    have := h.owned u c id (by simpa [hc] using hu) (by simpa [hh] using hid)
    simpa [Owned, hi, hw] using this
  · exact fun u v id hu hv => h.unique u v id (hholds u id hu) (hholds v id hv)
  · intro key command token call rest rejected hwait u hu hold
    exact h.begins key command token call rest rejected (by rw [← hw]; exact hwait) u hu
      (hholds u _ hold)
  · simpa [hc, hh] using h.finished

/-- Carrying out the next move of the injector: whoever holds a session is the
named one, has its Cancel queued, or is being told to cancel. -/
theorem Owners.perform {s : Windows} {r : Injector × Next}
    (howned : ∀ t c id, s.client t = some c → (s.hosts t).composition.sessionId = some id →
      (∃ a, r.1.session = some a ∧ a.id = id ∧ a.tip = ⟨t, c.generation⟩) ∨
      (∃ p ∈ c.queue, p.answer = none ∧ p.command = .cancel id) ∨
      ∃ wait, r.2 = .call ⟨t, c.generation⟩ (.cancel id) wait)
    (hunique : ∀ t u id, s.Holds t id → s.Holds u id → t = u)
    (hbegins : ∀ key command call rest rejected,
      r.2 = .call key command (.begin call rest rejected) →
      ∀ t, t ≠ key.id → ¬ s.Holds t call.sessionId)
    (hfinished : ∀ t c p rest, s.client t = some c → c.queue = p :: rest →
      ∀ id n, p.answer = some (.finished id n) → (s.hosts t).composition.sessionId = none) :
    (s.perform r).Owners := by
  have hholds : ∀ u id, (s.perform r).Holds u id → s.Holds u id := by
    rintro u id ⟨hc, hid⟩
    obtain ⟨c', hc'⟩ := Option.ne_none_iff_exists'.mp hc
    obtain ⟨c, hc, -⟩ := perform_client hc'
    rw [(perform_host s r u).1] at hid
    exact ⟨by simp [hc], hid⟩
  refine ⟨?_, ?_, ?_, ?_⟩
  · intro t c' id hc' hid
    obtain ⟨c, hc, hg, hq⟩ := perform_client hc'
    rw [(perform_host s r t).1] at hid
    have hsub : ∀ p ∈ c.queue, p ∈ c'.queue := by
      intro p hp
      rcases hq with ⟨hq, -⟩ | ⟨_, _, -, hq⟩
      · rw [hq]
        exact hp
      · rw [hq]
        exact List.mem_append_left _ hp
    rcases howned t c id hc hid with ⟨a, ha, hid, htip⟩ | ⟨p, hp, hans, hcmd⟩ | ⟨wait, hr⟩
    · exact Or.inl ⟨a, by simpa using ha, hid, by rw [hg]; exact htip⟩
    · exact Or.inr (Or.inl ⟨p, hsub p hp, hans, hcmd⟩)
    · -- the Cancel has just been put at the end of this queue
      rcases hq with ⟨-, hne⟩ | ⟨command, wait', hr', hq⟩
      · exact absurd hr (hne _ _)
      · obtain ⟨rfl, -⟩ : TipCommand.cancel id = command ∧ wait = wait' := by
          simpa using hr.symm.trans hr'
        have hmem : ⟨.cancel id, s.nextToken, s.requests, none⟩ ∈ c'.queue := by
          rw [hq]
          exact List.mem_append_right _ List.mem_cons_self
        exact Or.inr (Or.inl ⟨_, hmem, rfl, rfl⟩)
  · exact fun t u id ht hu => hunique t u id (hholds t id ht) (hholds u id hu)
  · intro key command token call rest rejected hw t ht hold
    rw [perform_waiting] at hw
    split at hw
    · rename_i key' command' wait' hr
      obtain ⟨rfl, rfl, -, rfl⟩ : key' = key ∧ command' = command ∧ _ ∧ wait' = _ := by
        simpa using hw
      exact hbegins _ _ _ _ _ hr t ht (hholds t _ hold)
    · simp at hw
    · simp at hw
  · intro t c' p rest hc' hcons id n hans
    obtain ⟨c, hc, -, hq⟩ := perform_client hc'
    rw [(perform_host s r t).1]
    rcases hq with ⟨hq, -⟩ | ⟨command, wait, -, hq⟩
    · exact hfinished t c p rest hc (by rw [← hq]; exact hcons) id n hans
    · rw [hq] at hcons
      cases hcq : c.queue with
      | nil =>
        rw [hcq] at hcons
        obtain ⟨rfl, -⟩ : _ = p ∧ _ := by simpa using hcons
        simp at hans
      | cons y ys =>
        rw [hcq] at hcons
        obtain ⟨rfl, -⟩ : y = p ∧ _ := by simpa using hcons
        exact hfinished t c y ys hc hcq id n hans

/-- Replacing one host by one that holds a session only for a good reason. -/
theorem Owners.setHost {s : Windows} (h : s.Owners) (tip : TipId) (host : Host)
    (howned : ∀ c id, host.client = some c → host.composition.sessionId = some id →
      s.Owned tip c id ∧ (∀ u, u ≠ tip → ¬ s.Holds u id) ∧
      ∀ key command token call rest rejected,
        s.waiting = some (.call key command token (.begin call rest rejected)) →
        call.sessionId = id → key.id = tip)
    (hfinished : ∀ c p rest, host.client = some c → c.queue = p :: rest →
      ∀ id n, p.answer = some (.finished id n) → host.composition.sessionId = none) :
    (s.setHost tip host).Owners := by
  have hself : ∀ id, (s.setHost tip host).Holds tip id →
      ∃ c, host.client = some c ∧ host.composition.sessionId = some id := by
    rintro id ⟨hc, hid⟩
    rw [client, setHost_self] at hc
    rw [setHost_self] at hid
    obtain ⟨c, hc⟩ := Option.ne_none_iff_exists'.mp hc
    exact ⟨c, hc, hid⟩
  have hother : ∀ u, u ≠ tip → ∀ id, (s.setHost tip host).Holds u id → s.Holds u id := by
    rintro u hu id ⟨hc, hid⟩
    rw [client, setHost_of_ne s _ _ hu] at hc
    rw [setHost_of_ne s _ _ hu] at hid
    exact ⟨hc, hid⟩
  refine ⟨?_, ?_, ?_, ?_⟩
  · intro t c id hc hid
    by_cases ht : t = tip
    · subst ht
      rw [client, setHost_self] at hc
      rw [setHost_self] at hid
      exact (howned c id hc hid).1
    · rw [client, setHost_of_ne s _ _ ht] at hc
      rw [setHost_of_ne s _ _ ht] at hid
      exact h.owned t c id hc hid
  · intro t u id ht hu
    by_cases htt : t = tip <;> by_cases hut : u = tip
    · rw [htt, hut]
    · subst htt
      obtain ⟨c, hc, hid⟩ := hself id ht
      exact absurd (hother u hut id hu) ((howned c id hc hid).2.1 u hut)
    · subst hut
      obtain ⟨c, hc, hid⟩ := hself id hu
      exact absurd (hother t htt id ht) ((howned c id hc hid).2.1 t htt)
    · exact h.unique t u id (hother t htt id ht) (hother u hut id hu)
  · intro key command token call rest rejected hw t ht hold
    by_cases htt : t = tip
    · subst htt
      obtain ⟨c, hc, hid⟩ := hself _ hold
      exact ht ((howned c _ hc hid).2.2 key command token call rest rejected hw rfl).symm
    · exact h.begins key command token call rest rejected hw t ht (hother t htt _ hold)
  · intro t c p rest hc
    by_cases ht : t = tip
    · subst ht
      rw [client, setHost_self] at hc
      rw [setHost_self]
      exact hfinished c p rest hc
    · rw [client, setHost_of_ne s _ _ ht] at hc
      rw [setHost_of_ne s _ _ ht]
      exact h.finished t c p rest hc

/-- A session is held once, and only the holder is asked to begin it again. -/
theorem Owners.only {s : Windows} (h : s.Owners) {tip : TipId} {id : String}
    (hold : s.Holds tip id) : (∀ u, u ≠ tip → ¬ s.Holds u id) ∧
      ∀ key command token call rest rejected,
        s.waiting = some (.call key command token (.begin call rest rejected)) →
        call.sessionId = id → key.id = tip := by
  refine ⟨fun u hu hold' => hu (h.unique u tip id hold' hold), ?_⟩
  rintro key command token call rest rejected hw rfl
  by_contra hne
  exact h.begins key command token call rest rejected hw tip (Ne.symm hne) hold

theorem Owners.owned_of_keeps {s : Windows} (h : s.Owners) {r : Injector × Next}
    (hkeeps : s.injector.Keeps r)
    (hnone : ∀ t c p, s.client t = some c → p ∈ c.queue → ∀ key command call rest rejected,
      s.waiting = some (.call key command p.token (.begin call rest rejected)) →
      p.answer ≠ some (.begun call.sessionId))
    (t : TipId) (c : Client) (id : String) (hc : s.client t = some c)
    (hid : (s.hosts t).composition.sessionId = some id) :
    (∃ a, r.1.session = some a ∧ a.id = id ∧ a.tip = ⟨t, c.generation⟩) ∨
      (∃ p ∈ c.queue, p.answer = none ∧ p.command = .cancel id) ∨
      ∃ wait, r.2 = .call ⟨t, c.generation⟩ (.cancel id) wait := by
  rcases h.owned t c id hc hid with ⟨a, ha, rfl, htip⟩ | hcancel |
    ⟨key, command, call, rest, rejected, p, hp, hw, rfl, hans⟩
  · rcases hkeeps a ha with ⟨a', ha', hid', htip'⟩ | ⟨wait, hr⟩
    · exact Or.inl ⟨a', ha', hid', htip'.trans htip⟩
    · exact Or.inr (Or.inr ⟨wait, by rw [hr, htip]⟩)
  · exact Or.inr (Or.inl hcancel)
  · exact absurd hans (hnone t c p hc hp key command call rest rejected hw)

theorem Owners.perform_move {s : Windows} (h : s.Owners) (hw : s.waiting = none)
    {r : Injector × Next} (hr : s.injector.Move r) : (s.perform r).Owners := by
  refine Owners.perform ?_ h.unique ?_ h.finished
  · refine h.owned_of_keeps hr.keeps ?_
    intro t c p _ _ key command call rest rejected hw'
    simp [hw] at hw'
  · intro key command call rest rejected hcall
    exact absurd hcall (not_begin_of_move hr key command call rest rejected)

/-- The next round of `begin_for_target`, or its end. -/
theorem Owners.perform_select {s : Windows} (h : s.Owners) {call : TipBegin}
    {rejected tried : Bool} (hw : s.waiting = some (.select call rejected tried)) {next : Next}
    (hbegins : ∀ key command call rest rejected,
      next = .call key command (.begin call rest rejected) →
      ∀ t, t ≠ key.id → ¬ s.Holds t call.sessionId) :
    (s.perform (s.injector, next)).Owners := by
  refine Owners.perform ?_ h.unique hbegins h.finished
  refine h.owned_of_keeps ?_ ?_
  · exact fun a ha => Or.inl ⟨a, ha, rfl, rfl⟩
  · intro t c p _ _ key command call' rest rejected' hw'
    simp [hw] at hw'

/-- The awaited answer: a session that has begun becomes the active one, and one
that is finished is held by nobody. -/
theorem OrphanInv.deliver_awaited {s : Windows} (h : s.OrphanInv) {tip : TipId} {generation : Nat}
    {p : Pending} {rest : List Pending} {answer : TipResponse} {key : TipKey}
    {command : TipCommand} {wait : Wait}
    (hc : s.client tip = some ⟨generation, p :: rest⟩) (hp : p.answer = some answer)
    (hw : s.waiting = some (.call key command p.token wait))
    (hoffer : ∀ key call, s.nextOffer (.deliver tip) = some (key, call) → ∀ t, t ≠ key.id →
      ¬ s.Holds t call.sessionId) :
    ((s.setHost tip { s.hosts tip with client := some ⟨generation, rest⟩ }).perform
      (s.injector.resume s.input key wait (some answer))).Owners := by
  obtain ⟨rfl, rfl, hcmd⟩ := h.shape.awaited_last hc hw
  have hfits : s.injector.WaitFits ⟨tip, generation⟩ command wait := h.fits _ hw
  have hholds : ∀ u id, (s.setHost tip { s.hosts tip with
      client := some ⟨generation, []⟩ }).Holds u id → s.Holds u id := by
    rintro u id ⟨hu, hid⟩
    by_cases hut : u = tip
    · subst hut
      rw [setHost_self] at hid
      exact ⟨by simp [hc], hid⟩
    · rw [client, setHost_of_ne s _ _ hut] at hu
      rw [setHost_of_ne s _ _ hut] at hid
      exact ⟨hu, hid⟩
  refine Owners.perform ?_ ?_ ?_ ?_
  · intro t c id hct hid
    by_cases ht : t = tip
    · subst ht
      rw [client, setHost_self] at hct
      rw [setHost_self] at hid
      obtain rfl : _ = c := by simpa using hct
      rcases h.owned t _ id hc hid with ⟨a, ha, rfl, htip⟩ | ⟨q, hq, hans, -⟩ |
        ⟨key, command', call, rest, rejected, q, hq, hw', rfl, hans⟩
      · have hnot : ∀ fid n, wait = .finish fid n → some answer ≠ some (.finished fid n) := by
          rintro fid n - hans
          have hnone := h.finished t _ p [] hc rfl fid n (by rw [hp]; exact hans)
          simp [hnone] at hid
        rcases s.injector.resume_keeps s.input _ command wait (some answer) hfits hnot a ha with
          ⟨a', ha', hid', htip'⟩ | ⟨wait', hr⟩
        · exact Or.inl ⟨a', ha', hid', htip'.trans htip⟩
        · exact Or.inr (Or.inr ⟨wait', by rw [hr, htip]⟩)
      · -- the head has been answered, and it is all there is
        obtain rfl : q = p := by simpa using hq
        simp [hp] at hans
      · obtain rfl : q = p := by simpa using hq
        rw [hw] at hw'
        obtain ⟨-, -, rfl⟩ : _ ∧ _ ∧ wait = _ := by simpa using hw'
        rw [hp] at hans
        refine Or.inl ⟨⟨call.sessionId, call.sequence, call.fullText, call.target,
          ⟨t, generation⟩, s.input.epoch⟩, ?_, rfl, rfl⟩
        simp [Injector.resume, Injector.resumeBegin, hans]
    · rw [client, setHost_of_ne s _ _ ht] at hct
      rw [setHost_of_ne s _ _ ht] at hid
      rcases h.owned t c id hct hid with ⟨a, ha, rfl, htip⟩ | hcancel |
        ⟨key, command', call, rest, rejected, q, hq, hw', -, -⟩
      · -- the awaited call goes to the text service of the active session
        have hkey := htip.symm.trans (hfits.tip ha)
        exact absurd (congrArg TipKey.id hkey) ht
      · exact Or.inr (Or.inl hcancel)
      · have hkey := ((h.shape.awaited _ _ _ _ hw').2 t c hct q hq rfl).1
        rw [hw] at hw'
        obtain ⟨rfl, -⟩ : ⟨tip, generation⟩ = key ∧ _ := by simpa using hw'
        exact absurd (congrArg TipKey.id hkey).symm ht
  · exact fun t u id ht hu => h.unique t u id (hholds t id ht) (hholds u id hu)
  · intro key' command' call rest' rejected hcall t ht hold
    obtain ⟨rejected', rfl, hb, hr⟩ := Injector.resume_begin hcall
    refine hoffer key' call ?_ t ht (hholds t _ hold)
    rw [← hp] at hb hr
    simp [nextOffer, hw, hc, hb, hr]
  · intro t c q qs hct hcons id n hans
    by_cases ht : t = tip
    · subst ht
      rw [client, setHost_self] at hct
      obtain rfl : _ = c := by simpa using hct
      simp at hcons
    · rw [client, setHost_of_ne s _ _ ht] at hct
      rw [setHost_of_ne s _ _ ht]
      exact h.finished t c q qs hct hcons id n hans

/-- An answer nobody waits for is dropped. -/
theorem OrphanInv.deliver_late {s : Windows} (h : s.OrphanInv) {tip : TipId} {generation : Nat}
    {p : Pending} {rest : List Pending} {answer : TipResponse}
    (hc : s.client tip = some ⟨generation, p :: rest⟩) (hp : p.answer = some answer)
    (hw : ∀ key command wait, s.waiting ≠ some (.call key command p.token wait)) :
    (s.setHost tip { s.hosts tip with client := some ⟨generation, rest⟩ }).Owners := by
  refine h.toOwners.setHost tip _ ?_ ?_
  · rintro c id ⟨⟩ hid
    have hold : s.Holds tip id := ⟨by simp [hc], hid⟩
    refine ⟨?_, h.only hold⟩
    rcases h.owned tip _ id hc hid with hactive | ⟨q, hq, hans, hcmd⟩ |
      ⟨key, command, call, rest', rejected, q, hq, hw', hcall⟩
    · exact Or.inl hactive
    · rcases List.mem_cons.mp hq with rfl | hq
      · simp [hp] at hans
      · exact Or.inr (Or.inl ⟨q, hq, hans, hcmd⟩)
    · rcases List.mem_cons.mp hq with rfl | hq
      · exact absurd hw' (hw _ _ _)
      · exact Or.inr (Or.inr ⟨key, command, call, rest', rejected, q, hq, hw', hcall⟩)
  · rintro c q qs ⟨⟩ hcons id n hans
    have hnone := h.shape.order tip _ p rest hc rfl q (by
      rw [show rest = q :: qs from hcons]
      exact List.mem_cons_self)
    simp [hnone] at hans

/-- A command runs. The only one that opens a session is an awaited Begin. -/
theorem OrphanInv.execute {s : Windows} (h : s.OrphanInv) {tip : TipId} {env : EditEnv}
    {generation : Nat} {p : Pending} {rest : List Pending}
    (hc : s.client tip = some ⟨generation, p :: rest⟩) (hp : p.answer = none)
    (hguard : BeginsSession (s.hosts tip).composition env p.command → s.Awaits p.token) :
    (s.setHost tip { s.hosts tip with
      client := some ⟨generation, { p with
        answer := some ((s.hosts tip).composition.handleCommand env p.command).response } :: rest⟩
      composition :=
        ((s.hosts tip).composition.handleCommand env p.command).composition }).Owners := by
  refine h.toOwners.setHost tip _ ?_ ?_
  · rintro c id ⟨⟩ hid
    rcases (s.hosts tip).composition.handleCommand_session env p.command with
      hsame | hnone | ⟨id', sequence, text, attach, hcmd, hopen, hcomp, hresp⟩
    · have hid₀ : (s.hosts tip).composition.sessionId = some id := hsame.symm.trans hid
      have hold : s.Holds tip id := ⟨by simp [hc], hid₀⟩
      refine ⟨?_, h.only hold⟩
      rcases h.owned tip _ id hc hid₀ with hactive | ⟨q, hq, hans, hcmd⟩ |
        ⟨key, command, call, rest', rejected, q, hq, hw', -, hans⟩
      · exact Or.inl hactive
      · rcases List.mem_cons.mp hq with rfl | hq
        · -- the Cancel itself would have ended the session
          refine absurd hid ?_
          rw [hcmd]
          exact Composition.cancel_sessionId _ _
        · exact Or.inr (Or.inl ⟨q, List.mem_cons_of_mem _ hq, hans, hcmd⟩)
      · -- only the head of a queue has an answer
        rcases List.mem_cons.mp hq with rfl | hq
        · simp [hp] at hans
        · simp [h.shape.order tip _ p rest hc rfl q hq] at hans
    · exact absurd (hnone.symm.trans hid) (by simp)
    · obtain rfl : id' = id := by simpa [hcomp] using hid
      obtain ⟨key, command, wait, hw⟩ := hguard (by rw [hcmd]; exact hopen)
      obtain ⟨rfl, rfl, rfl⟩ := h.shape.awaited_last hc hw
      have hfits : s.injector.WaitFits ⟨tip, generation⟩ p.command wait := h.fits _ hw
      rw [hcmd] at hfits
      -- a Begin is awaited only by an offer of the same session
      obtain ⟨call, rest', rejected, rfl, rfl⟩ : ∃ call rest' rejected,
          wait = .begin call rest' rejected ∧ call.sessionId = id' := by
        cases wait with
        | cancel after =>
          obtain ⟨-, id, hcancel⟩ := hfits
          simp at hcancel
        | begin call rest' rejected =>
          simp only [Injector.WaitFits, TipBegin.command, TipCommand.begin.injEq] at hfits
          exact ⟨call, rest', rejected, rfl, hfits.1.1.symm⟩
        | update id sequence text => simp [Injector.WaitFits] at hfits
        | finish id sequence => simp [Injector.WaitFits] at hfits
        | query id inputEpoch sequence text => simp [Injector.WaitFits] at hfits
      refine ⟨Or.inr (Or.inr ⟨_, _, call, rest', rejected, _, List.mem_cons_self, hw, rfl,
        by rw [hresp]⟩), ?_, ?_⟩
      · exact fun u hu => h.begins _ _ _ _ _ _ hw u hu
      · rintro key command token call' rest'' rejected' hwait -
        rw [hw] at hwait
        obtain ⟨rfl, -⟩ : ⟨tip, generation⟩ = key ∧ _ := by simpa using hwait
        rfl
  · rintro c q qs ⟨⟩ hcons id n hans
    obtain ⟨rfl, -⟩ : _ = q ∧ rest = qs := by simpa using hcons
    have hresp := Option.some.inj hans
    rw [(Composition.handleCommand_finished hresp).2.2.2]

theorem step_orphanInv {s t : Windows} {e : Event} (h : s.OrphanInv) (hok : s.OrphanFree e)
    (hs : s.step e = some t) : t.OrphanInv := by
  refine ⟨?_, step_shape h.shape hs, step_fits h.fits hs⟩
  obtain ⟨hoffer, hok⟩ := hok
  have h₀ : OrphanInv { s with reply := none } :=
    ⟨h.toOwners.congr rfl rfl rfl, h.shape.congr rfl rfl rfl, h.fits⟩
  cases e with
  | request request desktop =>
    obtain ⟨hw, rfl⟩ := stepRequest_some hs
    have h₁ : Owners { s with reply := none, requests := s.requests + 1 } :=
      h.toOwners.congr rfl rfl rfl
    exact h₁.perform_move hw (s.injector.handleRequest_move desktop s.input request)
  | select candidates =>
    obtain ⟨call, rejected, tried, hw, -, rfl⟩ := stepSelect_some hs
    refine h₀.toOwners.perform_select hw ?_
    intro key command call' rest rejected' hcall
    cases candidates with
    | nil => simp [beginCandidates] at hcall
    | cons k ks =>
      simp only [beginCandidates, Next.call.injEq, Wait.begin.injEq] at hcall
      obtain ⟨rfl, -, rfl, -, -⟩ := hcall
      exact hoffer k call (by simp only [nextOffer, show s.waiting = _ from hw])
  | expire =>
    obtain ⟨call, rejected, hw, rfl⟩ := stepExpire_some hs
    refine h₀.toOwners.perform_select hw ?_
    intro key command call' rest rejected' hcall
    simp [beginExpired] at hcall
  | execute tip env =>
    obtain ⟨generation, p, rest, hc, hp, rfl⟩ := stepExecute_some hs
    exact (h₀.execute hc hp (hok _ p rest hc rfl)).congr rfl rfl rfl
  | deliver tip =>
    obtain ⟨generation, p, rest, answer, hc, hp, ⟨key, command, wait, hw, rfl⟩ | ⟨hw, rfl⟩⟩ :=
      stepDeliver_some hs
    · exact h₀.deliver_awaited hc hp hw hoffer
    · exact h₀.deliver_late hc hp hw
  | giveUp =>
    obtain ⟨key, command, token, wait, hw, rfl⟩ := stepGiveUp_some hs
    refine Owners.perform ?_ h₀.unique ?_ h₀.finished
    · refine h₀.toOwners.owned_of_keeps ?_ ?_
      · exact s.injector.resume_keeps s.input key command wait none (h.fits _ hw) (by simp)
      · intro t c p hc hp key' command' call rest rejected hw'
        exact hok key' command' p.token call rest rejected hw' t c hc p hp rfl
    · intro key' command' call rest rejected hcall
      obtain ⟨rejected', rfl, -⟩ := Injector.resume_begin hcall
      exact hoffer key' call (by simp only [nextOffer, show s.waiting = _ from hw])
  | disconnect tip =>
    obtain ⟨-, rfl⟩ := stepDisconnect_some hs
    exact h₀.toOwners.setHost tip _ (by simp [Host.disconnected]) (by simp [Host.disconnected])
  | executeDetached tip env =>
    obtain ⟨p, hp, rfl⟩ := stepExecuteDetached_some hs
    have hn : (s.hosts tip).client = none := by
      by_contra hne
      exact absurd (hp.symm.trans (h₀.shape.alone tip hne)) (by simp)
    exact (h₀.toOwners.setHost tip { s.hosts tip with
      detached := none
      composition := ((s.hosts tip).composition.handleCommand env p.command).composition }
      (by simp [hn]) (by simp [hn])).congr rfl rfl rfl
  | dropDetached tip =>
    obtain rfl : _ = t := by simpa [step] using hs
    refine h₀.toOwners.setHost tip _ ?_ (fun c p rest hc => h.finished tip c p rest hc)
    intro c id hc hid
    have hold : s.Holds tip id := ⟨by rw [client, hc]; simp, hid⟩
    exact ⟨h.owned tip c id hc hid, h.only hold⟩
  | connect tip =>
    obtain ⟨hc, hd, rfl⟩ := stepConnect_some hs
    have hnone : (s.hosts tip).composition.sessionId = none := hok
    exact (h₀.toOwners.setHost tip { s.hosts tip with client := some ⟨s.nextGeneration, []⟩ }
      (by simp [hnone]) (by simp [hnone])).congr rfl rfl rfl
  | deactivate tip =>
    obtain rfl : _ = t := by simpa [step] using hs
    exact h₀.toOwners.setHost tip _ (by simp) (by simp)
  | externalEdit tip =>
    obtain rfl := step_externalEdit_some hs
    refine h₀.toOwners.setHost tip _ ?_ (fun c p rest hc => h.finished tip c p rest hc)
    intro c id hc hid
    have hold : s.Holds tip id := ⟨by rw [client, hc]; simp, hid⟩
    exact ⟨h.owned tip c id hc hid, h.only hold⟩
  | physicalInput isReturn =>
    obtain rfl : _ = t := by simpa [step] using hs
    exact h.toOwners.congr rfl rfl rfl
  | pipeLost =>
    obtain ⟨hw, rfl⟩ := step_pipeLost_some hs
    exact h₀.toOwners.perform_move hw (s.injector.endFailedSession_move _)
  | restart =>
    obtain rfl : _ = t := by simpa [step] using hs
    refine ⟨?_, ?_, by simp, ?_⟩ <;> simp [client, Holds, Host.disconnected]

theorem orphanInv_initial : OrphanInv {} := by
  refine ⟨⟨?_, ?_, by simp, ?_⟩, shape_initial, ?_⟩
  · simp [client]
  · simp [Holds, client]
  · simp [client]
  · intro w hw
    simp at hw

/-- In a run whose Begins are all waited for, no text service is left with a
session of its own, and no session is held twice. -/
theorem no_orphan_session (es : List Event) (h : Along step OrphanFree {} es) :
    Always step NoOrphan {} es := by
  refine always_of_along OrphanInv es orphanInv_initial orphanInv_initial.noOrphan ?_ h
  intro s e t hinv hok hs
  have hinv' := step_orphanInv hinv hok hs
  exact ⟨hinv', hinv'.noOrphan⟩

/-- A session begins in the only thread of the target and is finished there. -/
def beginRun : List Event :=
  [.connect ⟨1, 1⟩,
   .request (.beginSession "s" none 1 "a" false) { foreground := some notepad },
   .select [⟨⟨1, 1⟩, 1⟩], .execute ⟨1, 1⟩ editDone, .deliver ⟨1, 1⟩,
   .request (.finishSession "s" 1) {}, .execute ⟨1, 1⟩ editDone, .deliver ⟨1, 1⟩]

theorem begin_has_no_orphan : Along step OrphanFree {} beginRun ∧
    ∃ s, run step {} beginRun = some s ∧ s.injector.session = none ∧
      (s.hosts ⟨1, 1⟩).composition.sessionId = none ∧ s.NoOrphan := by
  have h : Along step OrphanFree {} beginRun := by
    refine ⟨⟨by simp [nextOffer], rfl⟩, ⟨by simp [nextOffer], trivial⟩, ⟨?_, trivial⟩,
      ⟨by simp [nextOffer], ?_⟩, ⟨?_, trivial⟩, ⟨by simp [nextOffer], trivial⟩,
      ⟨by simp [nextOffer], ?_⟩, ⟨?_, trivial⟩, trivial⟩
    · intro key call hoffer t ht hold
      obtain ⟨rfl, rfl⟩ := Prod.mk.inj (Option.some.inj hoffer)
      have hnone : (Function.update (fun _ => ({} : Host)) ⟨1, 1⟩
          { client := some ⟨1, []⟩ } t).client = none := by
        rw [Function.update_of_ne ht]
      exact hold.1 hnone
    · rintro c p rest ⟨⟩ ⟨⟩ -
      exact ⟨_, _, _, rfl⟩
    · intro key call hoffer
      have hnone : none = some (key, call) := hoffer
      simp at hnone
    · rintro c p rest ⟨⟩ ⟨⟩ hbegins
      cases hbegins
    · intro key call hoffer
      have hnone : none = some (key, call) := hoffer
      simp at hnone
  have hr := (Option.some_get (x := run step {} beginRun) (by decide)).symm
  exact ⟨h, _, hr, by decide, by decide, (no_orphan_session beginRun h).last beginRun hr⟩

/-- The first candidate does not answer in time, the second one begins, and then
the first runs its Begin after all. -/
def lateBegin : List Event :=
  [.connect ⟨1, 1⟩, .connect ⟨1, 2⟩,
   .request (.beginSession "s" none 1 "a" false) { foreground := some notepad },
   .select [⟨⟨1, 1⟩, 1⟩, ⟨⟨1, 2⟩, 2⟩], .giveUp,
   .execute ⟨1, 2⟩ editDone, .deliver ⟨1, 2⟩, .execute ⟨1, 1⟩ editDone]

theorem late_begin_held_twice : ¬ Always step NoOrphan {} lateBegin := by
  intro h
  have hlast := h.last lateBegin (Option.some_get (by decide)).symm
  have heq := hlast.2 ⟨1, 1⟩ ⟨1, 2⟩ "s" (by decide) (by decide)
  exact absurd heq (by decide)

end Windows

end FlowType
