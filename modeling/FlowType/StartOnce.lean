import FlowType.Commands
import FlowType.Dispatcher

/-! How often the text of one start is inserted. The dispatcher repeats a
BeginSession whose outcome is unknown, and `begin_for_target` offers a session to
several text services; each Begin that runs inserts the text. -/
namespace FlowType

def TipCommand.isBegin : TipCommand → Bool
  | .begin _ _ _ _ => true
  | _ => false

namespace Composition

/-- Only a Begin inserts text; an update replaces what is there. -/
theorem handleCommand_inserted {c : Composition} {env : EditEnv} {command : TipCommand}
    {write : TipWrite} (h : (c.handleCommand env command).write = some write)
    (hi : write.inserted = true) : command.isBegin = true := by
  cases command with
  | begin id sequence text attach => rfl
  | update id sequence text =>
    simp only [handleCommand, update] at h
    split_ifs at h
    cases he : env.edit with
    | done =>
      obtain rfl : _ = write := by simpa [he] using h
      simp at hi
    | failed wrote modified =>
      simp only [he] at h
      split_ifs at h
      obtain rfl : _ = write := by simpa using h
      simp at hi
  | finish id sequence =>
    simp only [handleCommand, finish] at h
    split_ifs at h
    cases he : env.edit <;> simp [he] at h
  | cancel id =>
    simp only [handleCommand, cancel] at h
    split_ifs at h
  | query id =>
    simp only [handleCommand, query] at h
    split_ifs at h

end Composition

namespace Windows
open Machine

/-- A Begin for one of the requests in `Q` that may still run. -/
def Due (s : Windows) (Q : Nat → Prop) (t : TipId) (p : Pending) : Prop :=
  s.Unexecuted t p ∧ p.command.isBegin = true ∧ Q p.request

/-- How often text was inserted for the requests in `Q`. -/
def inserts (s : Windows) (Q : Nat → Prop) [DecidablePred Q] : Nat :=
  s.written.countP fun w => w.2.inserted && decide (Q w.1)

structure Once (s : Windows) (Q : Nat → Prop) [DecidablePred Q] : Prop where
  single : ∀ t p u q, s.Due Q t p → s.Due Q u q → t = u ∧ p.token = q.token
  fresh : ∀ t p, s.Due Q t p → s.inserts Q = 0
  once : s.inserts Q ≤ 1

theorem Once.congr {s : Windows} {Q Q' : Nat → Prop} [DecidablePred Q] [DecidablePred Q']
    (h : s.Once Q) (hdue : ∀ t p, s.Unexecuted t p → (Q p.request ↔ Q' p.request))
    (hwritten : ∀ w ∈ s.written, (Q w.1 ↔ Q' w.1)) : s.Once Q' := by
  have hd : ∀ t p, s.Due Q' t p → s.Due Q t p := by
    rintro t p ⟨hp, hb, hq⟩
    exact ⟨hp, hb, (hdue t p hp).mpr hq⟩
  have hi : s.inserts Q' = s.inserts Q := by
    refine List.countP_congr ?_
    intro w hw
    simp [hwritten w hw]
  refine ⟨?_, ?_, by rw [hi]; exact h.once⟩
  · exact fun t p u q hp hq => h.single t p u q (hd t p hp) (hd u q hq)
  · intro t p hp
    rw [hi]
    exact h.fresh t p (hd t p hp)

/-- A Begin that becomes due was offered by the event. -/
theorem due_of_step {s t : Windows} {e : Event} {Q : Nat → Prop} (hshape : s.Shape)
    (hfits : t.Fits) (hs : s.step e = some t) {u : TipId} {q : Pending} (h : t.Due Q u q) :
    s.Due Q u q ∨ (q.token = s.nextToken ∧ Q s.requests ∧
      ∃ key call, s.nextOffer e = some (key, call) ∧ key.id = u) := by
  obtain ⟨hq, hb, hQ⟩ := h
  rcases step_unexecuted hs hq with hq | ⟨generation, wait, htok, hreq, hw, -⟩
  · exact Or.inl ⟨hq, hb, hQ⟩
  · -- only an offer is answered to a Begin
    obtain ⟨call, rest, rejected, rfl⟩ : ∃ call rest rejected,
        wait = .begin call rest rejected := by
      have hfit := hfits _ hw
      cases wait with
      | begin call rest rejected => exact ⟨call, rest, rejected, rfl⟩
      | cancel after =>
        obtain ⟨-, id, hcmd⟩ := hfit
        simp [hcmd, TipCommand.isBegin] at hb
      | update id sequence text => simp [hfit.1, TipCommand.isBegin] at hb
      | finish id sequence => simp [hfit.1, TipCommand.isBegin] at hb
      | query id inputEpoch sequence text => simp [hfit.1, TipCommand.isBegin] at hb
    have hoffer := offered_of_begin hs hw (by
      intro key command wait hw'
      have := (hshape.awaited key command _ wait hw').1
      omega)
    refine Or.inr ⟨htok, ?_, _, call, hoffer, rfl⟩
    rcases step_requests hs with hr | ⟨-, request, desktop, rfl⟩
    · rwa [hreq, hr] at hQ
    · simp [nextOffer] at hoffer

theorem Once.step {s t : Windows} {e : Event} {Q : Nat → Prop} [DecidablePred Q] (h : s.Once Q)
    (hshape : s.Shape) (hfits : t.Fits) (hs : s.step e = some t)
    (hguard : ∀ key call, s.nextOffer e = some (key, call) → Q s.requests →
      s.inserts Q = 0 ∧ ∀ t p, ¬ s.Due Q t p) : t.Once Q := by
  rcases step_written hs with ⟨hwritten, -⟩ | ⟨tip, env, p, hrun, hwritten⟩
  · have hins : t.inserts Q = s.inserts Q := by
      unfold inserts
      rw [hwritten]
    refine ⟨?_, ?_, by rw [hins]; exact h.once⟩
    · intro u p v q hp hq
      rcases due_of_step hshape hfits hs hp with hp | ⟨hptok, hQ, key, call, hoffer, rfl⟩
      · rcases due_of_step hshape hfits hs hq with hq | ⟨-, hQ, key, call, hoffer, -⟩
        · exact h.single u p v q hp hq
        · exact absurd hp ((hguard key call hoffer hQ).2 u p)
      · rcases due_of_step hshape hfits hs hq with hq | ⟨hqtok, -, key', call', hoffer', rfl⟩
        · exact absurd hq ((hguard key call hoffer hQ).2 v q)
        · obtain ⟨rfl, -⟩ : key = key' ∧ call = call' := by
            simpa using hoffer.symm.trans hoffer'
          exact ⟨rfl, hptok.trans hqtok.symm⟩
    · intro u p hp
      rw [hins]
      rcases due_of_step hshape hfits hs hp with hp | ⟨-, hQ, key, call, hoffer, -⟩
      · exact h.fresh u p hp
      · exact (hguard key call hoffer hQ).1
  · -- a command runs, so none is sent
    have hnone : ∀ key call, s.nextOffer e ≠ some (key, call) := by
      rcases hrun with ⟨rfl, -⟩ | ⟨rfl, -⟩ <;> simp [nextOffer]
    have hdue : ∀ u q, t.Due Q u q → s.Due Q u q := by
      intro u q hq
      rcases due_of_step hshape hfits hs hq with hq | ⟨-, -, key, call, hoffer, -⟩
      · exact hq
      · exact absurd hoffer (hnone key call)
    by_cases hp : s.Due Q tip p
    · -- it was the only one due, and it is not due any more
      have hgone : ∀ u q, ¬ t.Due Q u q := by
        intro u q hq
        obtain ⟨rfl, htok⟩ := h.single tip p u q hp (hdue u q hq)
        exact (hrun.done hshape hs hq.1).2 htok.symm
      refine ⟨fun u q _ _ hq => absurd hq (hgone u q), fun u q hq => absurd hq (hgone u q), ?_⟩
      have hzero : s.written.countP (fun w => w.2.inserted && decide (Q w.1)) = 0 :=
        h.fresh tip p hp
      unfold inserts
      rw [hwritten, List.countP_append, hzero]
      cases ((s.hosts tip).composition.handleCommand env p.command).write with
      | none => simp
      | some write =>
        have hle := List.countP_le_length (l := [(p.request, write)])
          (p := fun w : Nat × TipWrite => w.2.inserted && decide (Q w.1))
        simpa using hle
    · have hins : t.inserts Q = s.inserts Q := by
        unfold inserts
        rw [hwritten, List.countP_append]
        cases hwr : ((s.hosts tip).composition.handleCommand env p.command).write with
        | none => simp
        | some write =>
          have hnot : ¬ (write.inserted = true ∧ Q p.request) := by
            rintro ⟨hi, hQ⟩
            exact hp ⟨hrun.unexecuted, Composition.handleCommand_inserted hwr hi, hQ⟩
          simpa [List.countP_cons] using hnot
      refine ⟨fun u p v q hp hq => h.single u p v q (hdue u p hp) (hdue v q hq), ?_, ?_⟩
      · intro u q hq
        rw [hins]
        exact h.fresh u q (hdue u q hq)
      · rw [hins]
        exact h.once

end Windows

namespace Dispatcher
open Machine

/-- The start with this number asks for its text to be inserted. -/
def Plain (s : Dispatcher) (n : Nat) : Prop :=
  ∃ id replaces sequence text, s.log[n]? = some (.beginSession id replaces sequence text false)

def inserts (s : Dispatcher) (n : Nat) : Nat :=
  s.windows.inserts fun k => s.origin k = some n

/-- Every start inserts its text at most once. -/
def AtMostOnce (s : Dispatcher) : Prop := ∀ n, s.Plain n → s.inserts n ≤ 1

/-- A Begin for a start is sent only while no other Begin for it has inserted the
text or may still run. -/
def SingleBegin (s : Dispatcher) (e : Event) : Prop :=
  ∀ event key call n, e = .windows event → s.windows.nextOffer event = some (key, call) →
    s.origin s.windows.requests = some n → s.Plain n →
    s.inserts n = 0 ∧ ∀ t p, ¬ s.windows.Due (fun k => s.origin k = some n) t p

structure OnceInv (s : Dispatcher) : Prop where
  shape : s.windows.Shape
  fits : s.windows.Fits
  origin_lt : ∀ k n, s.origin k = some n → n < s.log.length
  origin_le : ∀ k n, s.origin k = some n → k ≤ s.windows.requests
  due_le : ∀ t p, s.windows.Unexecuted t p → p.request ≤ s.windows.requests
  written_le : ∀ w ∈ s.windows.written, w.1 ≤ s.windows.requests
  busy : s.phase ≠ .idle → s.log ≠ []
  once : ∀ n, s.Plain n → s.windows.Once fun k => s.origin k = some n

theorem OnceInv.atMostOnce {s : Dispatcher} (h : s.OnceInv) : s.AtMostOnce :=
  fun n hn => (h.once n hn).once

theorem step_onceInv {s t : Dispatcher} {e : Event} (h : s.OnceInv) (hok : s.SingleBegin e)
    (hs : s.step e = some t) : t.OnceInv := by
  have hbusy : t.phase ≠ .idle → t.log ≠ [] := by
    intro ht
    rcases step_request hs with hidle | ⟨-, hbusy⟩ | ⟨request, rfl, -, hidle⟩
    · exact absurd hidle ht
    · have hlog := h.busy hbusy
      rcases step_windows hs with ⟨-, -, heq | ⟨request, heq⟩⟩ | ⟨_, _, _, -, -, heq, -⟩ |
        ⟨_, -, -, heq, -⟩
      · rwa [heq]
      · simp [heq]
      · rwa [heq]
      · rwa [heq]
    · simp only [step, stepSubmit, hidle] at hs
      obtain rfl : _ = t := by simpa using hs
      simp
  -- commands and writes are numbered by requests that have been read
  have htags : ∀ event, s.windows.step event = some t.windows →
      (∀ u p, t.windows.Unexecuted u p → p.request ≤ t.windows.requests) ∧
      ∀ w ∈ t.windows.written, w.1 ≤ t.windows.requests := by
    intro event hw
    have hle := Windows.step_requests_le hw
    refine ⟨?_, ?_⟩
    · intro u p hp
      rcases Windows.step_unexecuted hw hp with hp | ⟨_, _, -, hreq, -⟩
      · exact (h.due_le u p hp).trans hle
      · exact hreq.le
    · intro w hmem
      rcases Windows.step_written hw with ⟨heq, -⟩ | ⟨tip, env, p, hrun, heq⟩
      · rw [heq] at hmem
        exact (h.written_le w hmem).trans hle
      · rw [heq] at hmem
        rcases List.mem_append.mp hmem with hmem | hmem
        · obtain ⟨x, -, rfl⟩ := List.mem_map.mp hmem
          exact (h.due_le tip p hrun.unexecuted).trans hle
        · exact (h.written_le w hmem).trans hle
  rcases step_windows hs with ⟨hw, ho, hlog⟩ |
    ⟨request, attempt, desktop, hphase, hw, hlog, ho⟩ | ⟨event, hw, ho, hlog, hne, he⟩
  · have hlen : s.log.length ≤ t.log.length := by
      rcases hlog with heq | ⟨request, heq⟩ <;> simp [heq]
    refine ⟨by rw [hw]; exact h.shape, by rw [hw]; exact h.fits, ?_, by rw [ho, hw]; exact h.origin_le,
      by rw [hw]; exact h.due_le, by rw [hw]; exact h.written_le, hbusy, ?_⟩
    · intro k n hk
      rw [ho] at hk
      exact (h.origin_lt k n hk).trans_le hlen
    · intro n hn
      rw [ho, hw]
      by_cases hnew : n < s.log.length
      · refine h.once n ?_
        obtain ⟨id, replaces, sequence, text, hn⟩ := hn
        rcases hlog with heq | ⟨request, heq⟩
        · exact ⟨id, replaces, sequence, text, by rwa [heq] at hn⟩
        · exact ⟨id, replaces, sequence, text, by rwa [heq, List.getElem?_append_left hnew] at hn⟩
      · -- nothing belongs to a request that was just handed over
        have hnot : ∀ k, s.origin k ≠ some n := fun k hk => hnew (h.origin_lt k n hk)
        refine ⟨?_, ?_, ?_⟩
        · exact fun u p _ _ hp => absurd hp.2.2 (hnot _)
        · exact fun u p hp => absurd hp.2.2 (hnot _)
        · simp [Windows.inserts, hnot]
  · have hreq : t.windows.requests = s.windows.requests + 1 := by
      obtain ⟨-, heq⟩ := Windows.stepRequest_some hw
      rw [heq]
      simp
    have hstable : ∀ k, k ≤ s.windows.requests → t.origin k = s.origin k := by
      intro k hk
      rw [ho, Function.update_of_ne]
      omega
    have hpos : 0 < s.log.length := by
      have hne := h.busy (by rw [hphase]; simp)
      exact List.length_pos_iff.mpr hne
    have hshape := Windows.step_shape h.shape hw
    have hfits := Windows.step_fits h.fits hw
    refine ⟨hshape, hfits, ?_, ?_, (htags _ hw).1, (htags _ hw).2, hbusy, ?_⟩
    · intro k n hk
      rw [ho, Function.update_apply] at hk
      rw [hlog]
      split at hk
      · obtain rfl : _ = n := by simpa using hk
        omega
      · exact h.origin_lt k n hk
    · intro k n hk
      rw [ho, Function.update_apply] at hk
      split at hk
      · omega
      · have := h.origin_le k n hk
        omega
    · intro n hn
      have hold : s.windows.Once fun k => t.origin k = some n := by
        refine (h.once n (by simpa [Plain, hlog] using hn)).congr ?_ ?_
        · intro u p hp
          rw [hstable _ (h.due_le u p hp)]
        · intro w hmem
          rw [hstable _ (h.written_le w hmem)]
      refine hold.step h.shape hfits hw ?_
      intro key call hoffer
      simp [Windows.nextOffer] at hoffer
  · have hreq : t.windows.requests = s.windows.requests := by
      rcases Windows.step_requests hw with hr | ⟨-, request, desktop, rfl⟩
      · exact hr
      · exact absurd rfl (hne request desktop)
    have hfits := Windows.step_fits h.fits hw
    refine ⟨Windows.step_shape h.shape hw, hfits, ?_, ?_, (htags _ hw).1, (htags _ hw).2, hbusy, ?_⟩
    · rw [ho, hlog]
      exact h.origin_lt
    · rw [ho, hreq]
      exact h.origin_le
    · intro n hn
      have hplain : s.Plain n := by simpa [Plain, hlog] using hn
      rw [ho]
      refine (h.once n hplain).step h.shape hfits hw ?_
      intro key call hoffer hcur
      rcases he with rfl | rfl | rfl
      · exact hok event key call n rfl hoffer hcur hplain
      · simp [Windows.nextOffer] at hoffer
      · simp [Windows.nextOffer] at hoffer

theorem onceInv_initial : OnceInv {} := by
  refine ⟨Windows.shape_initial, ?_, by simp, by simp, ?_, by simp, by simp, ?_⟩
  · intro w hw
    simp at hw
  · rintro t p (⟨c, hc, -⟩ | hd)
    · simp [Windows.client] at hc
    · simp at hd
  · rintro n ⟨id, replaces, sequence, text, hn⟩
    simp at hn

/-- In a run that sends no second Begin for a start while the first one may have
inserted its text, every start inserts its text at most once. -/
theorem start_inserted_once (es : List Event) (h : Along step SingleBegin {} es) :
    Always step AtMostOnce {} es := by
  refine always_of_along OnceInv es onceInv_initial onceInv_initial.atMostOnce ?_ h
  intro s e t hinv hok hs
  have hinv' := step_onceInv hinv hok hs
  exact ⟨hinv', hinv'.atMostOnce⟩

/-- A start that goes through at the first attempt. -/
def plainStart : List Event :=
  [.windows (.connect ⟨1, 1⟩), .submit (.beginSession "s" none 1 "a" false), .connected,
   .write { foreground := some Windows.notepad }, .windows (.select [⟨⟨1, 1⟩, 1⟩]),
   .windows (.execute ⟨1, 1⟩ Windows.editDone), .windows (.deliver ⟨1, 1⟩), .read]

theorem plain_start_inserted_once : Along step SingleBegin {} plainStart ∧
    Always step AtMostOnce {} plainStart := by
  have h : Along step SingleBegin {} plainStart := by
    refine ⟨?_, ?_, ?_, ?_, ?_, ?_, ?_, ?_, trivial⟩
    · rintro event key call n ⟨⟩ hoffer
      have hnone : none = some (key, call) := hoffer
      simp at hnone
    · rintro event key call n ⟨⟩
    · rintro event key call n ⟨⟩
    · rintro event key call n ⟨⟩
    · -- the only Begin is sent while all queues are empty
      rintro event key call n ⟨⟩ - - -
      refine ⟨rfl, ?_⟩
      rintro t p ⟨⟨c, hc, hmem, -⟩ | hd, -⟩
      · have hclient : (Function.update (fun _ => ({} : Host)) ⟨1, 1⟩
            { client := some ⟨1, []⟩ } t).client = some c := hc
        rw [Function.update_apply] at hclient
        split at hclient
        · obtain rfl : _ = c := by simpa using hclient
          simp at hmem
        · simp at hclient
      · have hdetached : (Function.update (fun _ => ({} : Host)) ⟨1, 1⟩
            { client := some ⟨1, []⟩ } t).detached = some p := hd
        rw [Function.update_apply] at hdetached
        split at hdetached <;> simp at hdetached
    · rintro event key call n ⟨⟩ hoffer
      have hnone : none = some (key, call) := hoffer
      simp at hnone
    · rintro event key call n ⟨⟩ hoffer
      have hnone : none = some (key, call) := hoffer
      simp at hnone
    · rintro event key call n ⟨⟩
  exact ⟨h, start_inserted_once plainStart h⟩

/-- The answer to the first attempt is lost. The injector then cancels the session,
which leaves the text in place, and the dispatcher repeats the request. -/
def lostAnswer : List Event :=
  [.windows (.connect ⟨1, 1⟩), .submit (.beginSession "s" none 1 "a" false), .connected,
   .write { foreground := some Windows.notepad }, .windows (.select [⟨⟨1, 1⟩, 1⟩]),
   .windows (.execute ⟨1, 1⟩ Windows.editDone), .windows (.deliver ⟨1, 1⟩), .readFails,
   .pipeLost, .windows (.execute ⟨1, 1⟩ Windows.editDone), .windows (.deliver ⟨1, 1⟩),
   .connected, .write { foreground := some Windows.notepad },
   .windows (.select [⟨⟨1, 1⟩, 1⟩]), .windows (.execute ⟨1, 1⟩ Windows.editDone)]

theorem lost_answer_inserts_twice : ¬ Always step AtMostOnce {} lostAnswer := by
  intro h
  have hlast := h.last lostAnswer (Option.some_get (by decide)).symm
  have hle := hlast 0 ⟨"s", none, 1, "a", by decide⟩
  exact absurd hle (by decide)

end Dispatcher

end FlowType
