import Mathlib.Data.List.Perm.Basic
import FlowType.TargetSelector

/-! `TargetProbeClient` and `AutoSelectionCoordinator`: one short socket to every candidate, each
with threads of its own, and the choice on the main thread when the last of them has ended. -/
namespace FlowType

section total

variable {α : Type} {f : α → Nat} {l : List α} {k : Nat} {a b : α}

def total (f : α → Nat) : List α → Nat
  | [] => 0
  | a :: l => f a + total f l

theorem total_perm {l' : List α} (h : l.Perm l') : total f l = total f l' := by
  induction h with
  | nil => rfl
  | cons a _ ih => simp only [total, ih]
  | swap a b l =>
    simp only [total]
    omega
  | trans _ _ ih ih' => exact ih.trans ih'

theorem exists_perm_set (h : l[k]? = some a) (b : α) :
    ∃ rest, l.Perm (a :: rest) ∧ (l.set k b).Perm (b :: rest) := by
  obtain ⟨hk, hget⟩ := List.getElem?_eq_some_iff.mp h
  have hold := (List.getElem_cons_eraseIdx_perm hk).symm
  rw [hget] at hold
  exact ⟨l.eraseIdx k, hold, List.set_perm_cons_eraseIdx hk b⟩

theorem total_set (h : l[k]? = some a) : total f (l.set k b) + f a = total f l + f b := by
  obtain ⟨rest, hold, hnew⟩ := exists_perm_set h b
  rw [total_perm hold, total_perm hnew]
  simp only [total]
  omega

theorem map_set_eq {β : Type} (g : α → β) (h : l[k]? = some a) (hg : g b = g a) :
    (l.set k b).map g = l.map g := by
  obtain ⟨hk, hget⟩ := List.getElem?_eq_some_iff.mp h
  rw [List.map_set, hg, ← hget, ← List.getElem_map g (h := by simpa using hk)]
  exact List.set_getElem_self _

end total

inductive ProbeState
  | ready | unsupported | invalid
  deriving DecidableEq, Repr

structure ProbeResultMessage where
  targetState : ProbeState
  targetName : Option String := none
  activityAgeMs : Option Int64 := none
  protocolVersion : Nat := PROTOCOL_VERSION
  deriving DecidableEq, Repr

/-- What the socket of a probe receives, and whether it takes what is written in answer. -/
inductive ProbeIncoming
  | challenge (protocolVersion : Nat) (pcId : String) (sent : Bool)
  | ready (sent : Bool)
  | probeResult (value : ProbeResultMessage)
  | error
  | other
  | unreadable
  deriving DecidableEq, Repr

/-- How far a probe is. One that is complete has its result added to the others and is then
counted. -/
inductive ProbePhase
  | unasked
  | asking
  | complete (result : TargetProbeResult)
  | added
  | counted
  deriving DecidableEq, Repr

structure TargetProbe where
  binding : ComputerBinding
  phase : ProbePhase := .unasked
  deriving DecidableEq, Repr

/-- A call of `probe` with its callback. `posts` counts how often the callback was posted and
`calls` how often it ran; `heard` are the results that computers have sent. -/
structure ProbeCall where
  request : Nat
  candidates : List ComputerBinding
  currentPcId : Option String
  probes : List TargetProbe
  results : List TargetProbeResult := []
  remaining : Nat
  posts : Nat := 0
  calls : Nat := 0
  heard : List (ComputerBinding × ProbeResultMessage) := []
  deriving DecidableEq, Repr

structure Choice where
  request : Nat
  generation : Nat
  answer : Option ComputerBinding
  deriving DecidableEq, Repr

structure AutoSelection where
  generation : Nat := 0
  calls : List ProbeCall := []
  requests : List (Nat × List ComputerBinding × Option String) := []
  choices : List Choice := []
  deriving DecidableEq, Repr

def unavailable (binding : ComputerBinding) : TargetProbeResult where
  binding := binding
  outcome := .unavailable

def ProbeResultMessage.resultFor (value : ProbeResultMessage) (binding : ComputerBinding) :
    TargetProbeResult where
  binding := binding
  outcome := match value.targetState with
    | .ready => .ready
    | .unsupported => .unsupported
    | .invalid => .invalid
  targetName := value.targetName
  activityAgeMs := value.activityAgeMs

namespace TargetProbe

/-- `onMessage`: the result that it completes the probe with. `authenticate` requires the version
and the computer of the challenge, `decodeServer` the version of the result. -/
def onMessage (binding : ComputerBinding) : ProbeIncoming → Option TargetProbeResult
  | .challenge protocolVersion pcId sent =>
    if protocolVersion = PROTOCOL_VERSION ∧ pcId = binding.pcId ∧ sent = true then none
    else some (unavailable binding)
  | .ready sent => if sent then none else some (unavailable binding)
  | .probeResult value =>
    if value.protocolVersion = PROTOCOL_VERSION then some (value.resultFor binding)
    else some (unavailable binding)
  | .error => some (unavailable binding)
  | .other => none
  | .unreadable => some (unavailable binding)

def isAdded (p : TargetProbe) : Bool := p.phase == .added || p.phase == .counted

def isCounted (p : TargetProbe) : Bool := p.phase == .counted

def left (p : TargetProbe) : Nat :=
  match p.phase with
  | .unasked => 5
  | .asking => 4
  | .complete _ => 3
  | .added => 2
  | .counted => 0

end TargetProbe

namespace ProbeCall

inductive Event
  | ask (probe : Nat) (built : Bool)
  | message (probe : Nat) (incoming : ProbeIncoming)
  | closed (probe : Nat)
  | timeout (probe : Nat)
  | add (probe : Nat)
  | count (probe : Nat)
  deriving DecidableEq, Repr

def start (request : Nat) (candidates : List ComputerBinding) (currentPcId : Option String) :
    ProbeCall where
  request := request
  candidates := candidates
  currentPcId := currentPcId
  probes := candidates.map fun binding => { binding }
  remaining := candidates.length

def setPhase (c : ProbeCall) (probe : Nat) (p : TargetProbe) (phase : ProbePhase) : ProbeCall :=
  { c with probes := c.probes.set probe { p with phase } }

/-- Only the first `complete` of a probe has an effect. -/
def complete (c : ProbeCall) (probe : Nat) (p : TargetProbe) (result : TargetProbeResult) :
    ProbeCall :=
  if p.phase = .asking then c.setPhase probe p (.complete result) else c

/-- The probes are asked one after the other; one whose client cannot be built is complete. -/
def ask (c : ProbeCall) (probe : Nat) (p : TargetProbe) (built : Bool) : Option ProbeCall :=
  if p.phase = .unasked ∧ (c.probes.take probe).all (·.phase != .unasked) = true then
    some (c.setPhase probe p (if built then .asking else .complete (unavailable p.binding)))
  else none

def message (c : ProbeCall) (probe : Nat) (p : TargetProbe) (incoming : ProbeIncoming) :
    Option ProbeCall :=
  if p.phase = .unasked then none
  else some <|
    match incoming, TargetProbe.onMessage p.binding incoming with
    | .probeResult value, some result =>
      ({ c with heard := (p.binding, value) :: c.heard }).complete probe p result
    | _, some result => c.complete probe p result
    | _, none => c

def closed (c : ProbeCall) (probe : Nat) (p : TargetProbe) : Option ProbeCall :=
  if p.phase = .unasked then none
  else some (c.complete probe p (unavailable p.binding))

def timeout (c : ProbeCall) (probe : Nat) (p : TargetProbe) : Option ProbeCall :=
  if p.phase = .asking then some (c.complete probe p (unavailable p.binding)) else none

def add (c : ProbeCall) (probe : Nat) (p : TargetProbe) : Option ProbeCall :=
  match p.phase with
  | .complete result => some { c.setPhase probe p .added with results := c.results ++ [result] }
  | _ => none

def count (c : ProbeCall) (probe : Nat) (p : TargetProbe) : Option ProbeCall :=
  if p.phase = .added then
    some { c.setPhase probe p .counted with
      remaining := c.remaining - 1
      posts := if c.remaining - 1 = 0 then c.posts + 1 else c.posts }
  else none

def step (c : ProbeCall) : Event → Option ProbeCall
  | .ask probe built => c.probes[probe]?.bind fun p => c.ask probe p built
  | .message probe incoming => c.probes[probe]?.bind fun p => c.message probe p incoming
  | .closed probe => c.probes[probe]?.bind fun p => c.closed probe p
  | .timeout probe => c.probes[probe]?.bind fun p => c.timeout probe p
  | .add probe => c.probes[probe]?.bind fun p => c.add probe p
  | .count probe => c.probes[probe]?.bind fun p => c.count probe p

def Told (c : ProbeCall) (result : TargetProbeResult) : Prop :=
  result = unavailable result.binding ∨
    ∃ value, (result.binding, value) ∈ c.heard ∧ result = value.resultFor result.binding

structure Inv (c : ProbeCall) : Prop where
  candidates : c.probes.map (·.binding) = c.candidates
  several : 2 ≤ c.candidates.length
  results : (c.results.map (·.binding)).Perm ((c.probes.filter (·.isAdded)).map (·.binding))
  told : ∀ result ∈ c.results, c.Told result
  complete : ∀ p ∈ c.probes, ∀ result, p.phase = .complete result →
    result.binding = p.binding ∧ c.Told result
  remaining : c.remaining + (c.probes.filter (·.isCounted)).length = c.probes.length
  posts : c.posts = if c.remaining = 0 then 1 else 0
  calls : c.calls ≤ c.posts

def left (c : ProbeCall) : Nat := total TargetProbe.left c.probes + (c.posts - c.calls)

def asks (c : ProbeCall) : Bool := c.probes.any (·.phase == .unasked)

def Moves : Event → Prop
  | .message _ _ | .closed _ => False
  | _ => True

end ProbeCall

namespace AutoSelection
open Machine

inductive Event
  | choose (candidates : List ComputerBinding) (currentPcId : Option String)
  | cancel
  | probe (call : Nat) (event : ProbeCall.Event)
  | callback (call : Nat)
  deriving DecidableEq, Repr

/-- The main thread does one thing at a time. -/
def busy (s : AutoSelection) : Bool := s.calls.any (·.asks)

def completion (s : AutoSelection) (request : Nat) (answer : Option ComputerBinding) :
    AutoSelection :=
  { s with choices := ⟨request, s.generation, answer⟩ :: s.choices }

def choose (s : AutoSelection) (candidates : List ComputerBinding) (currentPcId : Option String) :
    AutoSelection :=
  let request := s.generation + 1
  let s := { s with
    generation := request
    requests := (request, candidates, currentPcId) :: s.requests }
  match candidates with
  | [] => s.completion request none
  | [single] => s.completion request (some single)
  | _ => { s with calls := s.calls ++ [ProbeCall.start request candidates currentPcId] }

def cancel (s : AutoSelection) : AutoSelection := { s with generation := s.generation + 1 }

def ran (s : AutoSelection) (call : Nat) (c : ProbeCall) : AutoSelection :=
  { s with calls := s.calls.set call { c with calls := c.calls + 1 } }

/-- The callback that `choose` has given to `probe`. -/
def callback (s : AutoSelection) (call : Nat) (c : ProbeCall) : Option AutoSelection :=
  if c.calls < c.posts then
    some <| if c.request = s.generation then
      (s.ran call c).completion c.request
        ((TargetSelector.choose c.results c.currentPcId).map (·.binding))
    else s.ran call c
  else none

def onMain : ProbeCall.Event → Bool
  | .timeout _ => true
  | _ => false

def step (s : AutoSelection) : Event → Option AutoSelection
  | .choose candidates currentPcId =>
    if s.busy then none else some (s.choose candidates currentPcId)
  | .cancel => if s.busy then none else some s.cancel
  | .probe call event =>
    if s.busy && onMain event then none
    else s.calls[call]?.bind fun c => (c.step event).map fun c' =>
      { s with calls := s.calls.set call c' }
  | .callback call => if s.busy then none else s.calls[call]?.bind fun c => s.callback call c

def Moves : Event → Prop
  | .probe _ event => ProbeCall.Moves event
  | .callback _ => True
  | _ => False

def Stays : Event → Prop
  | .probe _ _ | .callback _ => True
  | _ => False

theorem Moves.stays {e : Event} (h : Moves e) : Stays e := by
  cases e with
  | choose => exact h
  | cancel => exact h
  | probe => trivial
  | callback => trivial

/-- The answer to a request: the only candidate, or the choice among one result of each of them;
a computer that is said to be ready has said so. -/
def Answered (s : AutoSelection) (candidates : List ComputerBinding)
    (currentPcId : Option String) (request : Nat) (answer : Option ComputerBinding) : Prop :=
  match candidates with
  | [] => answer = none
  | [single] => answer = some single
  | _ => ∃ c ∈ s.calls, c.request = request ∧ c.candidates = candidates ∧ c.remaining = 0 ∧
      (c.results.map (·.binding)).Perm candidates ∧ (∀ result ∈ c.results, c.Told result) ∧
      answer = (TargetSelector.choose c.results currentPcId).map (·.binding)

/-- Every completion is called at most once, while its request is the newest, and has an answer to
that request. -/
structure Sound (s : AutoSelection) : Prop where
  newest : s.choices.Pairwise fun later earlier => earlier.request < later.request
  current : ∀ choice ∈ s.choices, choice.request = choice.generation
  answered : ∀ choice ∈ s.choices, ∃ candidates currentPcId,
    (choice.request, candidates, currentPcId) ∈ s.requests ∧
      s.Answered candidates currentPcId choice.request choice.answer

def Completed (request : Nat) (s : AutoSelection) : Prop :=
  ∃ choice ∈ s.choices, choice.request = request

/-- A request that is not complete has its call, and only one. -/
structure Inv (s : AutoSelection) : Prop where
  sound : s.Sound
  calls : ∀ c ∈ s.calls, c.Inv
  alone : (s.calls.map (·.request)).Nodup
  requested : ∀ c ∈ s.calls, c.request ≤ s.generation ∧
    (c.request, c.candidates, c.currentPcId) ∈ s.requests
  past : ∀ choice ∈ s.choices, choice.request ≤ s.generation ∧
    ∀ c ∈ s.calls, c.request = choice.request → 0 < c.calls

def Called (s : AutoSelection) : Prop :=
  ∀ c ∈ s.calls, 0 < c.calls → c.request = s.generation → Completed c.request s

def Held (s : AutoSelection) : Prop :=
  ∀ request candidates currentPcId, (request, candidates, currentPcId) ∈ s.requests →
    request ≤ s.generation ∧
      (request = s.generation → Completed request s ∨ ∃ c ∈ s.calls, c.request = request)

/-- Nothing that was asked for is forgotten. -/
structure Keeps (s t : AutoSelection) : Prop where
  generation : t.generation = s.generation
  requests : t.requests = s.requests
  choices : s.choices ⊆ t.choices
  calls : ∀ c ∈ s.calls, ∃ c' ∈ t.calls, c'.request = c.request

def left (s : AutoSelection) : Nat := total ProbeCall.left s.calls

end AutoSelection

namespace ProbeCall

variable {c c' : ProbeCall} {k : Nat} {p : TargetProbe} {result : TargetProbeResult}
  {phase : ProbePhase}

theorem Told.mono (h : c.Told result) (hheard : c.heard ⊆ c'.heard) : c'.Told result := by
  rcases h with hnone | ⟨value, hvalue, heq⟩
  · exact .inl hnone
  · exact .inr ⟨value, hheard hvalue, heq⟩

theorem unavailable_told (binding : ComputerBinding) : c.Told (unavailable binding) := .inl rfl

theorem Inv.hear (h : c.Inv) (binding : ComputerBinding) (value : ProbeResultMessage) :
    Inv { c with heard := (binding, value) :: c.heard } := by
  have hmono : ∀ result, c.Told result →
      Told { c with heard := (binding, value) :: c.heard } result :=
    fun result htold => htold.mono (List.subset_cons_self _ _)
  refine ⟨h.candidates, h.several, h.results, ?_, ?_, h.remaining, h.posts, h.calls⟩
  · exact fun result hresult => hmono result (h.told result hresult)
  · intro p hp result hphase
    have hcomplete := h.complete p hp result hphase
    exact ⟨hcomplete.1, hmono result hcomplete.2⟩

theorem setPhase_bindings (hp : c.probes[k]? = some p) (phase : ProbePhase) :
    (c.probes.set k { p with phase }).map (·.binding) = c.probes.map (·.binding) :=
  map_set_eq (b := { p with phase }) (·.binding) hp rfl

theorem Inv.setPhase (h : c.Inv) (hp : c.probes[k]? = some p) (hold : p.isAdded = false)
    (hnew : ({ p with phase } : TargetProbe).isAdded = false)
    (hphase : ∀ result, phase = .complete result → result.binding = p.binding ∧ c.Told result) :
    (c.setPhase k p phase).Inv := by
  have hcount : ∀ q : TargetProbe, q.isAdded = false → q.isCounted = false := by
    intro q hq
    simp only [TargetProbe.isAdded, Bool.or_eq_false_iff] at hq
    exact hq.2
  -- both counts are over the other probes, before and after
  obtain ⟨rest, hbefore, hafter⟩ := exists_perm_set hp { p with phase }
  constructor
  · exact (setPhase_bindings hp _).trans h.candidates
  · exact h.several
  · have hadded := hbefore.filter (·.isAdded)
    have hadded' := hafter.filter (·.isAdded)
    rw [List.filter_cons_of_neg (by simp [hold])] at hadded
    rw [List.filter_cons_of_neg (by simp [hnew])] at hadded'
    exact h.results.trans ((hadded.trans hadded'.symm).map _)
  · exact h.told
  · intro q hq result hresult
    rcases List.mem_or_eq_of_mem_set hq with hmem | rfl
    · exact h.complete q hmem result hresult
    · exact hphase result hresult
  · have hcounted := (hbefore.filter (·.isCounted)).length_eq
    have hcounted' := (hafter.filter (·.isCounted)).length_eq
    rw [List.filter_cons_of_neg (by simp [hcount p hold])] at hcounted
    rw [List.filter_cons_of_neg (by simp [hcount _ hnew])] at hcounted'
    have hremaining := h.remaining
    simp only [ProbeCall.setPhase, List.length_set, hcounted']
    omega
  · exact h.posts
  · exact h.calls

theorem Inv.completed (h : c.Inv) (hp : c.probes[k]? = some p)
    (hresult : result.binding = p.binding ∧ c.Told result) : (c.complete k p result).Inv := by
  simp only [ProbeCall.complete]
  split
  · next hasking =>
    apply h.setPhase hp
    · simp [TargetProbe.isAdded, hasking]
    · simp [TargetProbe.isAdded]
    · rintro _ ⟨⟩
      exact hresult
  · exact h

theorem onMessage_binding {binding : ComputerBinding} {incoming : ProbeIncoming}
    (h : TargetProbe.onMessage binding incoming = some result) :
    result = unavailable binding ∨
      ∃ value, incoming = .probeResult value ∧ result = value.resultFor binding := by
  cases incoming with
  | probeResult value =>
    simp only [TargetProbe.onMessage] at h
    split at h <;> cases h
    · exact .inr ⟨value, rfl, rfl⟩
    · exact .inl rfl
  | challenge protocolVersion pcId sent =>
    simp only [TargetProbe.onMessage] at h
    split at h <;> cases h
    exact .inl rfl
  | ready sent =>
    simp only [TargetProbe.onMessage] at h
    split at h <;> cases h
    exact .inl rfl
  | error | unreadable =>
    cases h
    exact .inl rfl
  | other => cases h

theorem message_inv {incoming : ProbeIncoming} (h : c.Inv) (hp : c.probes[k]? = some p)
    (hs : c.message k p incoming = some c') : c'.Inv := by
  unfold message at hs
  split at hs
  · cases hs
  · split at hs <;> cases hs
    · next value result hresult =>
      -- the message is heard first, then the probe is complete with its result
      apply (h.hear p.binding value).completed hp
      rcases onMessage_binding hresult with rfl | ⟨_, ⟨⟩, rfl⟩
      · exact ⟨rfl, unavailable_told _⟩
      · exact ⟨rfl, .inr ⟨value, List.mem_cons_self, rfl⟩⟩
    · next hother hresult =>
      apply h.completed hp
      rcases onMessage_binding hresult with rfl | ⟨value, rfl, -⟩
      · exact ⟨rfl, unavailable_told _⟩
      · exact absurd rfl (hother value)
    · exact h

theorem add_inv (h : c.Inv) (hp : c.probes[k]? = some p) (hs : c.add k p = some c') : c'.Inv := by
  unfold add at hs
  split at hs
  · next result hphase =>
    cases hs
    have hmem : p ∈ c.probes := List.mem_of_getElem? hp
    have hresult := h.complete p hmem result hphase
    obtain ⟨rest, hbefore, hafter⟩ := exists_perm_set hp { p with phase := .added }
    constructor
    · exact (setPhase_bindings hp _).trans h.candidates
    · exact h.several
    · have hadded := hbefore.filter (·.isAdded)
      have hadded' := hafter.filter (·.isAdded)
      rw [List.filter_cons_of_neg (by simp [TargetProbe.isAdded, hphase])] at hadded
      rw [List.filter_cons_of_pos (by simp [TargetProbe.isAdded])] at hadded'
      -- the probe goes over to the added ones together with its result
      have hlast : (c.results.map (·.binding) ++ [result.binding]).Perm
          (result.binding :: (rest.filter (·.isAdded)).map (·.binding)) :=
        (List.perm_append_singleton _ _).trans ((h.results.trans (hadded.map _)).cons _)
      rw [hresult.1] at hlast
      simp only [List.map_append, List.map_cons, List.map_nil, hresult.1]
      exact hlast.trans (hadded'.map fun q : TargetProbe => q.binding).symm
    · intro other hother
      rcases List.mem_append.mp hother with hin | hin
      · exact h.told other hin
      · rw [List.mem_singleton.mp hin]
        exact hresult.2
    · intro q hq other hother
      rcases List.mem_or_eq_of_mem_set hq with hin | rfl
      · exact h.complete q hin other hother
      · cases hother
    · have hcounted := (hbefore.filter (·.isCounted)).length_eq
      have hcounted' := (hafter.filter (·.isCounted)).length_eq
      rw [List.filter_cons_of_neg (by simp [TargetProbe.isCounted, hphase])] at hcounted
      rw [List.filter_cons_of_neg (by simp [TargetProbe.isCounted])] at hcounted'
      have hremaining := h.remaining
      simp only [ProbeCall.setPhase, List.length_set, hcounted']
      omega
    · exact h.posts
    · exact h.calls
  · cases hs

theorem count_inv (h : c.Inv) (hp : c.probes[k]? = some p) (hs : c.count k p = some c') :
    c'.Inv := by
  unfold count at hs
  split at hs
  · next hphase =>
    cases hs
    obtain ⟨rest, hbefore, hafter⟩ := exists_perm_set hp { p with phase := .counted }
    have hcounted := (hbefore.filter (·.isCounted)).length_eq
    have hcounted' := (hafter.filter (·.isCounted)).length_eq
    rw [List.filter_cons_of_neg (by simp [TargetProbe.isCounted, hphase])] at hcounted
    rw [List.filter_cons_of_pos (by simp [TargetProbe.isCounted])] at hcounted'
    have hlength := hbefore.length_eq
    have hle := List.length_filter_le (·.isCounted) rest
    have hremaining := h.remaining
    have hposts := h.posts
    have hcalls := h.calls
    simp only [List.length_cons] at hcounted' hlength
    -- the probe that is counted now was among the remaining ones
    have hpos : 0 < c.remaining := by omega
    rw [if_neg (by omega)] at hposts
    constructor
    · exact (setPhase_bindings hp _).trans h.candidates
    · exact h.several
    · have hadded := hbefore.filter (·.isAdded)
      have hadded' := hafter.filter (·.isAdded)
      rw [List.filter_cons_of_pos (by simp [TargetProbe.isAdded, hphase])] at hadded
      rw [List.filter_cons_of_pos (by simp [TargetProbe.isAdded])] at hadded'
      exact h.results.trans ((hadded.map (·.binding)).trans (hadded'.map (·.binding)).symm)
    · exact h.told
    · intro q hq other hother
      rcases List.mem_or_eq_of_mem_set hq with hin | rfl
      · exact h.complete q hin other hother
      · cases hother
    · simp only [ProbeCall.setPhase, List.length_set, hcounted']
      omega
    · simp only [hposts]
    · exact Nat.le_trans hcalls (by split <;> omega)
  · cases hs

theorem step_inv {e : Event} (h : c.Inv) (hs : c.step e = some c') : c'.Inv := by
  cases e with
  | ask k built =>
    obtain ⟨p, hp, hask⟩ := Option.bind_eq_some_iff.mp hs
    unfold ask at hask
    split at hask
    · next hunasked =>
      cases hask
      apply h.setPhase hp
      · simp [TargetProbe.isAdded, hunasked.1]
      · cases built <;> rfl
      · cases built
        · rintro _ ⟨⟩
          exact ⟨rfl, unavailable_told _⟩
        · rintro _ ⟨⟩
    · cases hask
  | message k incoming =>
    obtain ⟨p, hp, hmessage⟩ := Option.bind_eq_some_iff.mp hs
    exact message_inv h hp hmessage
  | closed k =>
    obtain ⟨p, hp, hclosed⟩ := Option.bind_eq_some_iff.mp hs
    unfold closed at hclosed
    split at hclosed <;> cases hclosed
    exact h.completed hp ⟨rfl, unavailable_told _⟩
  | timeout k =>
    obtain ⟨p, hp, htimeout⟩ := Option.bind_eq_some_iff.mp hs
    unfold timeout at htimeout
    split at htimeout <;> cases htimeout
    exact h.completed hp ⟨rfl, unavailable_told _⟩
  | add k =>
    obtain ⟨p, hp, hadd⟩ := Option.bind_eq_some_iff.mp hs
    exact add_inv h hp hadd
  | count k =>
    obtain ⟨p, hp, hcount⟩ := Option.bind_eq_some_iff.mp hs
    exact count_inv h hp hcount

theorem start_inv {request : Nat} {candidates : List ComputerBinding}
    {currentPcId : Option String} (h : 2 ≤ candidates.length) :
    (start request candidates currentPcId).Inv := by
  have hfresh : ∀ P : TargetProbe → Bool, (∀ binding, P { binding } = false) →
      (candidates.map fun binding => ({ binding } : TargetProbe)).filter P = [] := by
    intro P hP
    apply List.filter_eq_nil_iff.mpr
    intro p hp
    obtain ⟨binding, -, rfl⟩ := List.mem_map.mp hp
    simp [hP]
  constructor
  · simp only [start, List.map_map]
    exact List.map_id _
  · exact h
  · simp only [start]
    rw [hfresh (·.isAdded) fun _ => rfl]
    exact .nil
  · intro result hresult
    cases hresult
  · intro p hp result hphase
    obtain ⟨binding, -, rfl⟩ := List.mem_map.mp hp
    cases hphase
  · simp only [start]
    rw [hfresh (·.isCounted) fun _ => rfl]
    simp only [List.length_nil, List.length_map, Nat.add_zero]
  · have hne : candidates.length ≠ 0 := by omega
    exact (if_neg hne).symm
  · exact Nat.le_refl _

/-- Once every probe is counted there is one result of each candidate. -/
theorem Inv.all_counted (h : c.Inv) (hremaining : c.remaining = 0) :
    (∀ p ∈ c.probes, p.phase = .counted) ∧ (c.results.map (·.binding)).Perm c.candidates := by
  have hlength : (c.probes.filter (·.isCounted)).length = c.probes.length := by
    have hall := h.remaining
    omega
  have hcounted : ∀ p ∈ c.probes, p.phase = .counted := by
    intro p hp
    have hp' := List.length_filter_eq_length_iff.mp hlength p hp
    exact beq_iff_eq.mp hp'
  refine ⟨hcounted, ?_⟩
  have hadded : c.probes.filter (·.isAdded) = c.probes := by
    apply List.filter_eq_self.mpr
    intro p hp
    simp [TargetProbe.isAdded, hcounted p hp]
  have hresults := h.results
  rw [hadded, h.candidates] at hresults
  exact hresults

/-- What a call keeps, whatever its probes do. -/
structure Follows (c c' : ProbeCall) : Prop where
  request : c'.request = c.request
  candidates : c'.candidates = c.candidates
  currentPcId : c'.currentPcId = c.currentPcId
  heard : c.heard ⊆ c'.heard
  results : c.remaining = 0 → c'.remaining = 0 ∧ c'.results = c.results

theorem complete_eq (k : Nat) (p : TargetProbe) (result : TargetProbeResult) :
    ∃ probes, c.complete k p result = { c with probes := probes } := by
  unfold ProbeCall.complete
  split
  · exact ⟨_, rfl⟩
  · exact ⟨c.probes, rfl⟩

theorem Follows.of_probes (probes : List TargetProbe) : c.Follows { c with probes := probes } :=
  ⟨rfl, rfl, rfl, List.Subset.refl _, fun h => ⟨h, rfl⟩⟩

theorem complete_follows (k : Nat) (p : TargetProbe) (result : TargetProbeResult) :
    c.Follows (c.complete k p result) ∧ (c.complete k p result).calls = c.calls := by
  obtain ⟨probes, heq⟩ := complete_eq (c := c) k p result
  rw [heq]
  exact ⟨.of_probes probes, rfl⟩

theorem step_follows {e : Event} (h : c.Inv) (hs : c.step e = some c') :
    c.Follows c' ∧ c'.calls = c.calls := by
  cases e with
  | ask k built =>
    obtain ⟨p, hp, hask⟩ := Option.bind_eq_some_iff.mp hs
    unfold ask at hask
    split at hask <;> cases hask
    exact ⟨.of_probes _, rfl⟩
  | message k incoming =>
    obtain ⟨p, hp, hmessage⟩ := Option.bind_eq_some_iff.mp hs
    unfold message at hmessage
    split at hmessage
    · cases hmessage
    · split at hmessage <;> cases hmessage
      · next value result hresult =>
        obtain ⟨probes, heq⟩ := complete_eq
          (c := { c with heard := (p.binding, value) :: c.heard }) k p result
        rw [heq]
        exact ⟨⟨rfl, rfl, rfl, List.subset_cons_self _ _, fun h => ⟨h, rfl⟩⟩, rfl⟩
      · exact complete_follows k p _
      · exact ⟨.of_probes _, rfl⟩
  | closed k =>
    obtain ⟨p, hp, hclosed⟩ := Option.bind_eq_some_iff.mp hs
    unfold closed at hclosed
    split at hclosed <;> cases hclosed
    exact complete_follows k p _
  | timeout k =>
    obtain ⟨p, hp, htimeout⟩ := Option.bind_eq_some_iff.mp hs
    unfold timeout at htimeout
    split at htimeout <;> cases htimeout
    exact complete_follows k p _
  | add k =>
    obtain ⟨p, hp, hadd⟩ := Option.bind_eq_some_iff.mp hs
    unfold add at hadd
    split at hadd <;> cases hadd
    next result hphase =>
    refine ⟨⟨rfl, rfl, rfl, List.Subset.refl _, fun hremaining => ?_⟩, rfl⟩
    -- once the callback is posted no probe has a result left to add
    have hcounted := (h.all_counted hremaining).1 p (List.mem_of_getElem? hp)
    cases hphase.symm.trans hcounted
  | count k =>
    obtain ⟨p, hp, hcount⟩ := Option.bind_eq_some_iff.mp hs
    unfold count at hcount
    split at hcount <;> cases hcount
    next hphase =>
    refine ⟨⟨rfl, rfl, rfl, List.Subset.refl _, fun hremaining => ?_⟩, rfl⟩
    have hcounted := (h.all_counted hremaining).1 p (List.mem_of_getElem? hp)
    cases hphase.symm.trans hcounted

theorem left_setPhase (hp : c.probes[k]? = some p) (phase : ProbePhase)
    (hlt : ({ p with phase } : TargetProbe).left < p.left) :
    total TargetProbe.left (c.probes.set k { p with phase }) < total TargetProbe.left c.probes := by
  have hset := total_set (f := TargetProbe.left) (b := { p with phase }) hp
  omega

theorem complete_left (hp : c.probes[k]? = some p) (hasking : p.phase = .asking) :
    (c.complete k p result).left < c.left := by
  have hlt := left_setPhase hp (.complete result) (by simp [TargetProbe.left, hasking])
  simp only [ProbeCall.complete, if_pos hasking, left, ProbeCall.setPhase]
  omega

theorem left_lt {e : Event} (h : c.Inv) (he : Moves e) (hs : c.step e = some c') :
    c'.left < c.left := by
  cases e with
  | ask k built =>
    obtain ⟨p, hp, hask⟩ := Option.bind_eq_some_iff.mp hs
    unfold ask at hask
    split at hask <;> cases hask
    next hunasked =>
    have hlt := left_setPhase hp (if built then .asking else .complete (unavailable p.binding))
      (by cases built <;> simp [TargetProbe.left, hunasked.1])
    simp only [left, ProbeCall.setPhase]
    omega
  | message k incoming => exact absurd he fun h => h
  | closed k => exact absurd he fun h => h
  | timeout k =>
    obtain ⟨p, hp, htimeout⟩ := Option.bind_eq_some_iff.mp hs
    unfold timeout at htimeout
    split at htimeout <;> cases htimeout
    next hasking => exact complete_left hp hasking
  | add k =>
    obtain ⟨p, hp, hadd⟩ := Option.bind_eq_some_iff.mp hs
    unfold add at hadd
    split at hadd <;> cases hadd
    next result hphase =>
    have hlt := left_setPhase hp .added (by simp [TargetProbe.left, hphase])
    simp only [left, ProbeCall.setPhase]
    omega
  | count k =>
    obtain ⟨p, hp, hcount⟩ := Option.bind_eq_some_iff.mp hs
    unfold count at hcount
    split at hcount <;> cases hcount
    next hphase =>
    -- the post that it may add is less than what a counted probe saves
    have hset := total_set (f := TargetProbe.left) (b := { p with phase := .counted }) hp
    have hadded : p.left = 2 := by simp only [TargetProbe.left, hphase]
    have hcounted : ({ p with phase := .counted } : TargetProbe).left = 0 := rfl
    have hcalls := h.calls
    simp only [left, ProbeCall.setPhase]
    split <;> omega

/-- The next probe to ask. -/
theorem exists_ask (h : c.asks = true) : ∃ k, (c.step (.ask k true)).isSome = true := by
  have hfind : (c.probes.find? fun p => p.phase == .unasked).isSome = true := by
    simpa only [List.find?_isSome, asks, List.any_eq_true] using h
  obtain ⟨p, hp⟩ := Option.isSome_iff_exists.mp hfind
  obtain ⟨hunasked, front, back, hprobes, hfront⟩ := List.find?_eq_some_iff_append.mp hp
  refine ⟨front.length, ?_⟩
  have hget : c.probes[front.length]? = some p := by
    rw [hprobes, List.getElem?_append_right (Nat.le_refl _), Nat.sub_self]
    rfl
  have htake : c.probes.take front.length = front := by
    rw [hprobes]
    exact List.take_left
  have hall : front.all (fun q => q.phase != .unasked) = true := by
    apply List.all_eq_true.mpr
    exact hfront
  simp only [step, hget, Option.bind_some, ask, htake, hall, and_true,
    if_pos (beq_iff_eq.mp hunasked), Option.isSome_some]

/-- A call that has asked all its probes goes on until they are counted. -/
theorem exists_move (h : c.Inv) (hasks : c.asks = false) (hremaining : c.remaining ≠ 0) :
    ∃ e, Moves e ∧ (c.step e).isSome = true := by
  have hne : (c.probes.filter (·.isCounted)).length ≠ c.probes.length := by
    have hall := h.remaining
    omega
  have hsome : ∃ p ∈ c.probes, p.isCounted = false := by
    by_contra hnone
    apply hne
    apply List.length_filter_eq_length_iff.mpr
    intro p hp
    by_contra hp'
    exact hnone ⟨p, hp, by simpa using hp'⟩
  obtain ⟨p, hp, hcounted⟩ := hsome
  obtain ⟨k, hget⟩ := List.getElem?_of_mem hp
  cases hphase : p.phase with
  | unasked =>
    -- all of them have been asked
    have hunasked := List.any_eq_false.mp hasks p hp
    simp [hphase] at hunasked
  | asking =>
    refine ⟨.timeout k, trivial, ?_⟩
    simp only [step, hget, Option.bind_some, timeout, hphase, if_true, Option.isSome_some]
  | complete result =>
    refine ⟨.add k, trivial, ?_⟩
    simp only [step, hget, Option.bind_some, add, hphase, Option.isSome_some]
  | added =>
    refine ⟨.count k, trivial, ?_⟩
    simp only [step, hget, Option.bind_some, count, hphase, if_true, Option.isSome_some]
  | counted =>
    simp [TargetProbe.isCounted, hphase] at hcounted

end ProbeCall

namespace AutoSelection
open Machine

variable {s t : AutoSelection} {c c' : ProbeCall} {k request : Nat}
  {candidates : List ComputerBinding} {currentPcId : Option String}
  {answer : Option ComputerBinding}

/-- An answer stays what it is. -/
theorem Answered.mono (h : s.Answered candidates currentPcId request answer)
    (hcalls : ∀ c ∈ s.calls, ∃ c' ∈ t.calls, c.Follows c') :
    t.Answered candidates currentPcId request answer := by
  unfold Answered at h ⊢
  split at h
  · exact h
  · exact h
  · obtain ⟨c, hc, hrequest, hcandidates, hremaining, hresults, htold, hanswer⟩ := h
    obtain ⟨c', hc', hfollows⟩ := hcalls c hc
    have hkept := hfollows.results hremaining
    refine ⟨c', hc', hfollows.request.trans hrequest, hfollows.candidates.trans hcandidates,
      hkept.1, ?_, ?_, ?_⟩
    · rw [hkept.2]
      exact hresults
    · intro result hresult
      rw [hkept.2] at hresult
      exact (htold result hresult).mono hfollows.heard
    · rw [hkept.2]
      exact hanswer

theorem Inv.update (h : s.Inv) (hc : s.calls[k]? = some c) (hinv : c'.Inv)
    (hfollows : c.Follows c') (hle : c.calls ≤ c'.calls) :
    Inv { s with calls := s.calls.set k c' } := by
  have hmem : c ∈ s.calls := List.mem_of_getElem? hc
  have hrequests : (s.calls.set k c').map (·.request) = s.calls.map (·.request) :=
    map_set_eq (·.request) hc hfollows.request
  -- the other calls stay as they are
  have hall : ∀ d ∈ s.calls, ∃ d' ∈ s.calls.set k c', d.Follows d' := by
    intro d hd
    obtain ⟨i, hi⟩ := List.getElem?_of_mem hd
    have hrefl : d.Follows d := .of_probes d.probes
    by_cases hik : k = i
    · subst hik
      rw [hc] at hi
      cases hi
      exact ⟨c', List.mem_set (List.getElem?_eq_some_iff.mp hc).1 _, hfollows⟩
    · refine ⟨d, List.mem_of_getElem? (i := i) ?_, hrefl⟩
      rw [List.getElem?_set_ne hik]
      exact hi
  constructor
  · refine ⟨h.sound.newest, h.sound.current, ?_⟩
    intro choice hchoice
    obtain ⟨candidates, currentPcId, hrequest, hanswered⟩ := h.sound.answered choice hchoice
    exact ⟨candidates, currentPcId, hrequest, hanswered.mono hall⟩
  · intro d hd
    rcases List.mem_or_eq_of_mem_set hd with hin | rfl
    · exact h.calls d hin
    · exact hinv
  · simp only [hrequests]
    exact h.alone
  · intro d hd
    rcases List.mem_or_eq_of_mem_set hd with hin | rfl
    · exact h.requested d hin
    · rw [hfollows.request, hfollows.candidates, hfollows.currentPcId]
      exact h.requested c hmem
  · intro choice hchoice
    have hpast := h.past choice hchoice
    refine ⟨hpast.1, ?_⟩
    intro d hd hrequest
    rcases List.mem_or_eq_of_mem_set hd with hin | rfl
    · exact hpast.2 d hin hrequest
    · have hcalled := hpast.2 c hmem (hfollows.request.symm.trans hrequest)
      omega

theorem Inv.completed (h : s.Inv) (hnew : ¬Completed s.generation s)
    (hrequest : (s.generation, candidates, currentPcId) ∈ s.requests)
    (hdone : ∀ c ∈ s.calls, c.request = s.generation → 0 < c.calls)
    (hanswered : s.Answered candidates currentPcId s.generation answer) :
    (s.completion s.generation answer).Inv := by
  constructor
  · constructor
    · refine List.pairwise_cons.mpr ⟨?_, h.sound.newest⟩
      intro choice hchoice
      have hle := (h.past choice hchoice).1
      have hne : choice.request ≠ s.generation := fun heq => hnew ⟨choice, hchoice, heq⟩
      exact Nat.lt_of_le_of_ne hle hne
    · intro choice hchoice
      rcases List.mem_cons.mp hchoice with rfl | hin
      · rfl
      · exact h.sound.current choice hin
    · intro choice hchoice
      rcases List.mem_cons.mp hchoice with rfl | hin
      · exact ⟨candidates, currentPcId, hrequest, hanswered⟩
      · exact h.sound.answered choice hin
  · exact h.calls
  · exact h.alone
  · exact h.requested
  · intro choice hchoice
    rcases List.mem_cons.mp hchoice with rfl | hin
    · exact ⟨Nat.le_refl _, hdone⟩
    · exact h.past choice hin

theorem Inv.supersede (h : s.Inv) (requests : List (Nat × List ComputerBinding × Option String))
    (hrequests : s.requests ⊆ requests) :
    Inv { s with generation := s.generation + 1, requests := requests } := by
  constructor
  · refine ⟨h.sound.newest, h.sound.current, ?_⟩
    intro choice hchoice
    obtain ⟨candidates, currentPcId, hrequest, hanswered⟩ := h.sound.answered choice hchoice
    exact ⟨candidates, currentPcId, hrequests hrequest, hanswered⟩
  · exact h.calls
  · exact h.alone
  · intro c hc
    have hrequested := h.requested c hc
    exact ⟨Nat.le_succ_of_le hrequested.1, hrequests hrequested.2⟩
  · intro choice hchoice
    have hpast := h.past choice hchoice
    exact ⟨Nat.le_succ_of_le hpast.1, hpast.2⟩

theorem Inv.no_call (h : s.Inv) : ∀ c ∈ s.calls, c.request ≠ s.generation + 1 := by
  intro c hc heq
  have hle := (h.requested c hc).1
  omega

theorem Inv.not_completed (h : s.Inv) : ¬Completed (s.generation + 1) s := by
  rintro ⟨choice, hchoice, heq⟩
  have hle := (h.past choice hchoice).1
  omega

theorem choose_inv (h : s.Inv) (candidates : List ComputerBinding) (currentPcId : Option String) :
    (s.choose candidates currentPcId).Inv ∧ (s.choose candidates currentPcId).Called := by
  have hnew := h.supersede ((s.generation + 1, candidates, currentPcId) :: s.requests)
    (List.subset_cons_self _ _)
  have hcall : ∀ c ∈ s.calls, c.request = s.generation + 1 → 0 < c.calls :=
    fun c hc heq => absurd heq (h.no_call c hc)
  have hcalled : ∀ c ∈ s.calls, 0 < c.calls → c.request = s.generation + 1 → ∀ t,
      Completed c.request t := fun c hc _ heq => absurd heq (h.no_call c hc)
  rcases candidates with _ | ⟨first, _ | ⟨second, rest⟩⟩
  · refine ⟨hnew.completed h.not_completed List.mem_cons_self hcall rfl, ?_⟩
    exact fun c hc hpos heq => hcalled c hc hpos heq _
  · refine ⟨hnew.completed h.not_completed List.mem_cons_self hcall rfl, ?_⟩
    exact fun c hc hpos heq => hcalled c hc hpos heq _
  -- the new call is the only one of its request
  · have hstart : (ProbeCall.start (s.generation + 1) (first :: second :: rest) currentPcId).Inv :=
      ProbeCall.start_inv (by simp)
    constructor
    · constructor
      · refine ⟨h.sound.newest, h.sound.current, ?_⟩
        intro choice hchoice
        obtain ⟨candidates, currentPcId, hrequest, hanswered⟩ := hnew.sound.answered choice hchoice
        refine ⟨candidates, currentPcId, hrequest, hanswered.mono ?_⟩
        exact fun c hc => ⟨c, List.mem_append_left _ hc, .of_probes c.probes⟩
      · intro c hc
        rcases List.mem_append.mp hc with hin | hin
        · exact h.calls c hin
        · rw [List.mem_singleton.mp hin]
          exact hstart
      · simp only [choose, List.map_append, List.map_cons, List.map_nil]
        refine List.nodup_append.mpr ⟨h.alone, List.nodup_singleton _, ?_⟩
        intro r hr r' hr'
        obtain ⟨c, hc, rfl⟩ := List.mem_map.mp hr
        rw [List.mem_singleton.mp hr']
        exact h.no_call c hc
      · intro c hc
        rcases List.mem_append.mp hc with hin | hin
        · exact hnew.requested c hin
        · rw [List.mem_singleton.mp hin]
          exact ⟨Nat.le_refl _, List.mem_cons_self⟩
      · intro choice hchoice
        have hpast := h.past choice hchoice
        refine ⟨Nat.le_succ_of_le hpast.1, ?_⟩
        intro c hc heq
        rcases List.mem_append.mp hc with hin | hin
        · exact hpast.2 c hin heq
        · rw [List.mem_singleton.mp hin] at heq
          have hle := hpast.1
          simp only [ProbeCall.start] at heq
          omega
    · intro c hc hpos heq
      rcases List.mem_append.mp hc with hin | hin
      · exact hcalled c hin hpos heq _
      · rw [List.mem_singleton.mp hin] at hpos
        exact absurd hpos (Nat.lt_irrefl 0)

theorem callback_inv (h : s.Inv) (hcalled : s.Called) (hc : s.calls[k]? = some c)
    (hs : s.callback k c = some t) : t.Inv ∧ t.Called := by
  have hmem : c ∈ s.calls := List.mem_of_getElem? hc
  have hinv := h.calls c hmem
  unfold callback at hs
  split at hs
  · next hlt =>
    have hposts := hinv.posts
    have hremaining : c.remaining = 0 := by
      by_contra hne
      rw [if_neg hne] at hposts
      omega
    have hrun : ProbeCall.Inv { c with calls := c.calls + 1 } :=
      ⟨hinv.candidates, hinv.several, hinv.results, hinv.told, hinv.complete, hinv.remaining,
        hinv.posts, hlt⟩
    have hfollows : c.Follows { c with calls := c.calls + 1 } :=
      ⟨rfl, rfl, rfl, List.Subset.refl _, fun hremaining => ⟨hremaining, rfl⟩⟩
    have hupdate := h.update hc hrun hfollows (Nat.le_succ _)
    have hin : { c with calls := c.calls + 1 } ∈ s.calls.set k { c with calls := c.calls + 1 } :=
      List.mem_set (List.getElem?_eq_some_iff.mp hc).1 _
    -- no other call has this request
    have honly : ∀ d ∈ s.calls.set k { c with calls := c.calls + 1 },
        d.request = c.request → d = { c with calls := c.calls + 1 } :=
      fun d hd heq => List.inj_on_of_nodup_map hupdate.alone hd hin heq
    split at hs <;> cases hs
    · next hgeneration =>
      -- a request is completed by its own call, and this one has not been back yet
      have hnew : ¬Completed s.generation s := by
        rintro ⟨choice, hchoice, heq⟩
        have hdone := (h.past choice hchoice).2 c hmem (hgeneration.trans heq.symm)
        rw [if_pos hremaining] at hposts
        omega
      have hanswered : Answered { s with calls := s.calls.set k { c with calls := c.calls + 1 } }
          c.candidates c.currentPcId s.generation
          ((TargetSelector.choose c.results c.currentPcId).map (·.binding)) := by
        have hseveral := hinv.several
        unfold Answered
        split
        · next hcandidates =>
          rw [hcandidates] at hseveral
          exact absurd hseveral (by simp)
        · next hcandidates =>
          rw [hcandidates] at hseveral
          exact absurd hseveral (by simp)
        · exact ⟨_, hin, hgeneration, rfl, hremaining, (hinv.all_counted hremaining).2, hinv.told,
            rfl⟩
      have hrequest := (h.requested c hmem).2
      rw [hgeneration] at hrequest
      simp only [hgeneration]
      refine ⟨hupdate.completed hnew hrequest ?_ hanswered, ?_⟩
      · intro d hd heq
        rw [honly d hd (heq.trans hgeneration.symm)]
        exact Nat.succ_pos _
      · intro d hd hpos heq
        exact ⟨_, List.mem_cons_self, heq.symm⟩
    · next hgeneration =>
      refine ⟨hupdate, ?_⟩
      intro d hd hpos heq
      rcases List.mem_or_eq_of_mem_set hd with hold | rfl
      · exact hcalled d hold hpos heq
      · exact absurd heq hgeneration
  · cases hs

theorem step_probe_some {event : ProbeCall.Event} (hs : s.step (.probe k event) = some t) :
    ∃ c c', s.calls[k]? = some c ∧ c.step event = some c' ∧
      { s with calls := s.calls.set k c' } = t := by
  rw [step] at hs
  split at hs
  · cases hs
  · obtain ⟨c, hc, hmap⟩ := Option.bind_eq_some_iff.mp hs
    obtain ⟨c', hstep, heq⟩ := Option.map_eq_some_iff.mp hmap
    exact ⟨c, c', hc, hstep, heq⟩

theorem step_callback_some (hs : s.step (.callback k) = some t) :
    ∃ c, s.calls[k]? = some c ∧ s.callback k c = some t := by
  rw [step] at hs
  split at hs
  · cases hs
  · exact Option.bind_eq_some_iff.mp hs

theorem step_inv {e : Event} (h : s.Inv ∧ s.Called) (hs : s.step e = some t) :
    t.Inv ∧ t.Called := by
  obtain ⟨hinv, hcalled⟩ := h
  cases e with
  | choose candidates currentPcId =>
    simp only [step] at hs
    split at hs <;> cases hs
    exact choose_inv hinv candidates currentPcId
  | cancel =>
    simp only [step] at hs
    split at hs <;> cases hs
    refine ⟨hinv.supersede s.requests (List.Subset.refl _), ?_⟩
    exact fun c hc _ heq => absurd heq (hinv.no_call c hc)
  | probe k event =>
    obtain ⟨c, c', hc, hstep, rfl⟩ := step_probe_some hs
    have hmem : c ∈ s.calls := List.mem_of_getElem? hc
    have hfollows := ProbeCall.step_follows (hinv.calls c hmem) hstep
    refine ⟨hinv.update hc (ProbeCall.step_inv (hinv.calls c hmem) hstep) hfollows.1
      (Nat.le_of_eq hfollows.2.symm), ?_⟩
    intro d hd hpos heq
    rcases List.mem_or_eq_of_mem_set hd with hold | rfl
    · exact hcalled d hold hpos heq
    · rw [hfollows.2] at hpos
      rw [hfollows.1.request] at heq ⊢
      exact hcalled c hmem hpos heq
  | callback k =>
    obtain ⟨c, hc, hcallback⟩ := step_callback_some hs
    exact callback_inv hinv hcalled hc hcallback

theorem start_inv : Inv {} ∧ Called {} := by
  refine ⟨⟨⟨.nil, ?_, ?_⟩, ?_, List.nodup_nil, ?_, ?_⟩, ?_⟩ <;> intro _ hmem <;> cases hmem

theorem keeps_set {c : ProbeCall} (c' : ProbeCall) (hc : s.calls[k]? = some c)
    (hrequest : c'.request = c.request) {choices : List Choice} (hchoices : s.choices ⊆ choices) :
    s.Keeps { s with calls := s.calls.set k c', choices } where
  generation := rfl
  requests := rfl
  choices := hchoices
  calls d hd := by
    have hmap : (s.calls.set k c').map (·.request) = s.calls.map (·.request) :=
      map_set_eq (·.request) hc hrequest
    have hin : d.request ∈ (s.calls.set k c').map (·.request) := by
      rw [hmap]
      exact List.mem_map_of_mem hd
    exact List.mem_map.mp hin

theorem step_keeps {e : Event} (h : s.Inv) (he : Stays e) (hs : s.step e = some t) :
    s.Keeps t := by
  cases e with
  | choose candidates currentPcId => exact absurd he fun h => h
  | cancel => exact absurd he fun h => h
  | probe k event =>
    obtain ⟨c, c', hc, hstep, rfl⟩ := step_probe_some hs
    have hfollows := ProbeCall.step_follows (h.calls c (List.mem_of_getElem? hc)) hstep
    exact keeps_set _ hc hfollows.1.request (List.Subset.refl _)
  | callback k =>
    obtain ⟨c, hc, hcallback⟩ := step_callback_some hs
    unfold callback at hcallback
    split at hcallback
    · split at hcallback
      · cases hcallback
        exact keeps_set { c with calls := c.calls + 1 } hc rfl (List.subset_cons_self _ _)
      · cases hcallback
        exact keeps_set { c with calls := c.calls + 1 } hc rfl (List.Subset.refl _)
    · cases hcallback

/-- A request that is superseded is not the newest. -/
theorem Held.superseded (h : s.Held) {request : Nat} {candidates : List ComputerBinding}
    {currentPcId : Option String} (hrequest : (request, candidates, currentPcId) ∈ s.requests)
    {P : Prop} : request ≤ s.generation + 1 ∧ (request = s.generation + 1 → P) := by
  have hle := (h request candidates currentPcId hrequest).1
  exact ⟨by omega, fun heq => absurd hle (by omega)⟩

theorem choose_held (h : s.Held) (candidates : List ComputerBinding) (currentPcId : Option String) :
    (s.choose candidates currentPcId).Held := by
  rcases candidates with _ | ⟨first, _ | ⟨second, rest⟩⟩
  · intro request others other hmem
    rcases List.mem_cons.mp hmem with hnew | hold
    · cases hnew
      exact ⟨le_rfl, fun _ => .inl ⟨_, List.mem_cons_self, rfl⟩⟩
    · exact h.superseded hold
  · intro request others other hmem
    rcases List.mem_cons.mp hmem with hnew | hold
    · cases hnew
      exact ⟨le_rfl, fun _ => .inl ⟨_, List.mem_cons_self, rfl⟩⟩
    · exact h.superseded hold
  · intro request others other hmem
    rcases List.mem_cons.mp hmem with hnew | hold
    · cases hnew
      exact ⟨le_rfl, fun _ => .inr ⟨_, List.mem_append_right _ (List.mem_singleton_self _), rfl⟩⟩
    · exact h.superseded hold

theorem step_held {e : Event} (h : s.Inv) (hheld : s.Held) (hs : s.step e = some t) : t.Held := by
  have hkept : Stays e → t.Held := by
    intro he request candidates currentPcId hmem
    have hkeeps := step_keeps h he hs
    rw [hkeeps.requests] at hmem
    rw [hkeeps.generation]
    obtain ⟨hle, hnewest⟩ := hheld request candidates currentPcId hmem
    refine ⟨hle, fun heq => ?_⟩
    rcases hnewest heq with ⟨choice, hchoice, hof⟩ | ⟨c, hc, hof⟩
    · exact .inl ⟨choice, hkeeps.choices hchoice, hof⟩
    · obtain ⟨c', hc', hsame⟩ := hkeeps.calls c hc
      exact .inr ⟨c', hc', hsame.trans hof⟩
  cases e with
  | choose candidates currentPcId =>
    simp only [step] at hs
    split at hs
    · cases hs
    · cases hs
      exact choose_held hheld candidates currentPcId
  | cancel =>
    simp only [step] at hs
    split at hs
    · cases hs
    · cases hs
      intro request candidates currentPcId hmem
      exact hheld.superseded hmem
  | probe k event => exact hkept trivial
  | callback k => exact hkept trivial

theorem left_lt {e : Event} (h : s.Inv) (he : Moves e) (hs : s.step e = some t) :
    t.left < s.left := by
  have hset : ∀ {k : Nat} {c c' : ProbeCall}, s.calls[k]? = some c → c'.left < c.left →
      total ProbeCall.left (s.calls.set k c') < total ProbeCall.left s.calls := by
    intro k c c' hc hlt
    have htotal := total_set (f := ProbeCall.left) (b := c') hc
    omega
  cases e with
  | choose candidates currentPcId => exact absurd he fun h => h
  | cancel => exact absurd he fun h => h
  | probe k event =>
    obtain ⟨c, c', hc, hstep, rfl⟩ := step_probe_some hs
    exact hset hc (ProbeCall.left_lt (h.calls c (List.mem_of_getElem? hc)) he hstep)
  | callback k =>
    obtain ⟨c, hc, hcallback⟩ := step_callback_some hs
    unfold callback at hcallback
    split at hcallback
    · next hlt =>
      have hless : ({ c with calls := c.calls + 1 } : ProbeCall).left < c.left := by
        simp only [ProbeCall.left]
        omega
      split at hcallback <;> cases hcallback <;> exact hset hc hless
    · cases hcallback

/-- As long as the newest request is not complete, its call or the main thread goes on. -/
theorem exists_move (h : s.Inv ∧ s.Called) (hc : c ∈ s.calls) (hrequest : c.request = s.generation)
    (hcompleted : ¬Completed c.request s) : ∃ e t, Moves e ∧ s.step e = some t := by
  obtain ⟨hinv, hcalled⟩ := h
  have hmove : ∀ e, Moves e → (s.step e).isSome = true → ∃ e t, Moves e ∧ s.step e = some t := by
    intro e he hsome
    obtain ⟨t, ht⟩ := Option.isSome_iff_exists.mp hsome
    exact ⟨e, t, he, ht⟩
  by_cases hbusy : s.busy = true
  -- a call that still asks its probes keeps the main thread
  · obtain ⟨d, hd, hasks⟩ := List.any_eq_true.mp hbusy
    obtain ⟨k, hk⟩ := List.getElem?_of_mem hd
    obtain ⟨i, hi⟩ := ProbeCall.exists_ask hasks
    apply hmove (.probe k (.ask i true)) trivial
    simpa only [step, onMain, Bool.and_false, Bool.false_eq_true, if_false, hk, Option.bind_some,
      Option.isSome_map] using hi
  · obtain ⟨k, hk⟩ := List.getElem?_of_mem hc
    have hfree : s.busy = false := by simpa using hbusy
    have hasks : c.asks = false := by
      have hany := List.any_eq_false.mp hfree c hc
      simpa using hany
    have hposts := (hinv.calls c hc).posts
    by_cases hremaining : c.remaining = 0
    · -- the callback was posted and has not run
      rw [if_pos hremaining] at hposts
      have hwaits : c.calls < c.posts := by
        by_contra hran
        exact hcompleted (hcalled c hc (by omega) hrequest)
      apply hmove (.callback k) trivial
      simp [step, hfree, hk, callback, hwaits]
    · obtain ⟨e, he, hstep⟩ := ProbeCall.exists_move (hinv.calls c hc) hasks hremaining
      apply hmove (.probe k e) he
      simpa only [step, hfree, Bool.false_and, Bool.false_eq_true, if_false, hk, Option.bind_some,
        Option.isSome_map] using hstep

/-- However the probes end, in whatever order and however late, every completion is called at most
once, for the newest request and with an answer to it; and the newest request is completed without
a computer having to answer. -/
theorem autoSelection_run {es : List Event} (hr : run step {} es = some s) :
    s.Sound ∧ ∀ request candidates currentPcId,
      (request, candidates, currentPcId) ∈ s.requests → request = s.generation →
        Eventually step Moves (Completed request) s := by
  have hstart : Held {} := fun _ _ _ hmem => absurd hmem List.not_mem_nil
  have hinv := run_invariant (fun s => (Inv s ∧ Called s) ∧ Held s) es ⟨start_inv, hstart⟩
    (fun _ _ _ h hs => ⟨step_inv h.1 hs, step_held h.1.1 h.2 hs⟩) hr
  refine ⟨hinv.1.1.sound, ?_⟩
  intro request candidates currentPcId hmem hrequest
  -- without another request the newest one stays the newest, and its call is there
  refine eventually_of_measure (fun t => (Inv t ∧ Called t) ∧ Held t ∧
    (request, candidates, currentPcId) ∈ t.requests ∧ request = t.generation) left ?_ ?_
    ⟨hinv.1, hinv.2, hmem, hrequest⟩
  · rintro t ⟨ht, hheld, hthere, hgeneration⟩ hcompleted
    rcases (hheld request candidates currentPcId hthere).2 hgeneration with hdone | ⟨c, hc, heq⟩
    · exact absurd hdone hcompleted
    · rw [← heq] at hcompleted hgeneration
      exact exists_move ht hc hgeneration hcompleted
  · rintro t u e ⟨ht, hheld, hthere, hgeneration⟩ - he hs
    have hkeeps := step_keeps ht.1 he.stays hs
    refine ⟨⟨step_inv ht hs, step_held ht.1 hheld hs, ?_, ?_⟩, left_lt ht.1 he hs⟩
    · rw [hkeeps.requests]
      exact hthere
    · rw [hkeeps.generation]
      exact hgeneration

def laptop : ComputerBinding := ⟨"laptop", none⟩

def desktop : ComputerBinding := ⟨"desktop", none⟩

/-- A choice is cancelled while its probes run; of the next one the laptop answers and the desktop
does not. -/
def cancelledChoice : List Event :=
  [.choose [laptop, desktop] none, .probe 0 (.ask 0 true), .probe 0 (.ask 1 true), .cancel,
    .choose [laptop, desktop] (some "desktop"), .probe 1 (.ask 0 true), .probe 1 (.ask 1 true),
    .probe 0 (.timeout 1), .probe 1 (.message 0 (.challenge PROTOCOL_VERSION "laptop" true)),
    .probe 1 (.message 0 (.ready true)),
    .probe 1 (.message 0 (.probeResult { targetState := .ready, activityAgeMs := some 40 })),
    .probe 0 (.closed 0), .probe 0 (.add 0), .probe 0 (.add 1), .probe 0 (.count 0),
    .probe 0 (.count 1), .callback 0, .probe 1 (.add 0), .probe 1 (.count 0),
    .probe 1 (.timeout 1), .probe 1 (.add 1), .probe 1 (.count 1), .callback 1]

theorem autoSelection_cancelled : ∃ s, run step {} cancelledChoice = some s ∧
    s.choices = [⟨3, 3, some laptop⟩] ∧ s.Sound ∧ ∀ request candidates currentPcId,
      (request, candidates, currentPcId) ∈ s.requests → request = s.generation →
        Eventually step Moves (Completed request) s := by
  have hcheck : (run step {} cancelledChoice).isSome = true ∧
      ∀ s ∈ run step {} cancelledChoice, s.choices = [⟨3, 3, some laptop⟩] := by
    decide +kernel
  obtain ⟨s, hr⟩ := Option.isSome_iff_exists.mp hcheck.1
  exact ⟨s, hr, hcheck.2 s hr, autoSelection_run hr⟩

end AutoSelection

end FlowType
