import FlowType.CommitPlaces

/-! What the calls that commit and recover a downloaded file keep, whatever step of the database
or of the document provider they are interrupted at. One lemma for each kind of step, and from
them what holds after every run. -/
namespace FlowType

namespace CommitWorld

variable {lower : List Char → List Char} {digest : List UInt8 → String} {size : Nat}
  {s s' : CommitWorld} {own : TargetDocument → Prop} {row : EntryRow} {uri : Nat}
  {phase : CommitPhase}

theorem Inv.running (h : Inv digest size s) (hphase : s.phase = phase)
    (hnot : ¬Complete digest size s.Own s.row phase) :
    s.row.completed = false ∧ Open digest size s.Own s.row phase := by
  subst hphase
  have hplaces := h.places
  cases hcompleted : s.row.completed with
  | true =>
    rw [if_pos hcompleted] at hplaces
    exact absurd hplaces hnot
  | false =>
    rw [if_neg (by rw [hcompleted]; exact Bool.false_ne_true)] at hplaces
    exact ⟨rfl, hplaces⟩

theorem Inv.completed (h : Inv digest size s) (hphase : s.phase = phase)
    (hnot : ¬Open digest size s.Own s.row phase) :
    s.row.completed = true ∧ Complete digest size s.Own s.row phase := by
  subst hphase
  have hplaces := h.places
  cases hcompleted : s.row.completed with
  | true =>
    rw [if_pos hcompleted] at hplaces
    exact ⟨rfl, hplaces⟩
  | false =>
    rw [if_neg (by rw [hcompleted]; exact Bool.false_ne_true)] at hplaces
    exact absurd hplaces hnot

/-- A document of somebody else is new under no address that is held. -/
theorem Inv.mine_of (h : Inv digest size s)
    (hforeign : ∀ r ∈ s'.docs.rows, r.own = false → r ∈ s.docs.rows)
    (hholds : ∀ uri, s'.Holds uri → s.Holds uri ∨ ∃ r, s'.Own r ∧ r.uri = uri) :
    ∀ uri, s'.Holds uri → ∀ r ∈ s'.docs.rows, r.uri = uri → r.own = true := by
  intro uri hheld r hr huri
  by_contra hnot
  have hfalse : r.own = false := eq_false_of_ne_true hnot
  rcases hholds uri hheld with hbefore | ⟨r', hr', huri'⟩
  · exact hnot (h.mine uri hbefore r (hforeign r hr hfalse) huri)
  · have heq : r' = r := KeyedTable.eq_of_key_eq hr'.1 hr (huri'.trans huri.symm)
    exact hnot (heq ▸ hr'.2)

theorem Inv.to_open (h : Inv digest size s) (hcompleted : s'.row.completed = false)
    (hopen : Open digest size s'.Own s'.row s'.phase)
    (hforeign : ∀ r ∈ s'.docs.rows, r.own = false → r ∈ s.docs.rows)
    (hholds : ∀ uri, s'.Holds uri → s.Holds uri ∨ ∃ r, s'.Own r ∧ r.uri = uri)
    (hjournal : s'.row.commitSha256 = none → s'.row.finalUri = none) : Inv digest size s' := by
  refine ⟨?_, h.mine_of hforeign hholds, hjournal⟩
  rw [if_neg (by rw [hcompleted]; exact Bool.false_ne_true)]
  exact hopen

theorem Inv.to_complete (h : Inv digest size s) (hcompleted : s'.row.completed = true)
    (hcomplete : Complete digest size s'.Own s'.row s'.phase)
    (hforeign : ∀ r ∈ s'.docs.rows, r.own = false → r ∈ s.docs.rows)
    (hholds : ∀ uri, s'.Holds uri → s.Holds uri ∨ ∃ r, s'.Own r ∧ r.uri = uri)
    (hjournal : s'.row.commitSha256 = none → s'.row.finalUri = none) : Inv digest size s' := by
  refine ⟨?_, h.mine_of hforeign hholds, hjournal⟩
  rw [if_pos hcompleted]
  exact hcomplete

theorem Inv.goTo (h : Inv digest size s) (hcompleted : s.row.completed = false)
    (hopen : Open digest size s.Own s.row phase)
    (hkeeps : ∀ uri, Keeps phase uri → s.Holds uri) : Inv digest size (s.goTo phase) := by
  refine h.to_open ?_ ?_ (fun r hr _ => hr) ?_ h.journal
  · exact hcompleted
  · exact hopen
  intro uri hheld
  apply Or.inl
  rcases hheld with htarget | hfinal | hkept
  · exact .inl htarget
  · exact .inr (.inl hfinal)
  · exact hkeeps uri hkept

theorem Inv.begin (h : Inv digest size s) (hphase : s.phase = .idle)
    (hcompleted : s.row.completed = false) (cleanup : Bool) :
    Inv digest size (s.goTo (.recovering cleanup)) := by
  have hplaces := h.places
  rw [if_neg (by rw [hcompleted]; exact Bool.false_ne_true), hphase] at hplaces
  refine h.goTo hcompleted ?_ fun _ => False.elim
  exact hplaces

theorem Inv.unrecovered (h : Inv digest size s) (hcompleted : s.row.completed = false)
    (hplaced : Placed s.Own s.row) (hfinal : s.row.finalUri = none) (cleanup : Bool) :
    Inv digest size (s.unrecovered cleanup s.row.finalUri) := by
  cases cleanup with
  | true =>
    refine h.goTo hcompleted ?_ fun uri hkept => .inr (.inl hkept)
    exact hplaced
  | false =>
    refine h.goTo hcompleted ?_ fun _ => False.elim
    exact ⟨hfinal, hplaced⟩

theorem documentMatches_iff {hash : String} : s.documentMatches digest size uri hash = true ↔
    ∃ r, s.docs.get? uri = some r ∧ r.content.length = size ∧ digest r.content = hash := by
  rw [documentMatches, Option.any_eq_true]
  apply exists_congr
  intro r
  rw [Bool.and_eq_true, beq_iff_eq, beq_iff_eq]

/-- The document that the recovery looks at is under the final address, or has the name. -/
theorem candidate_eq_some (h : s.candidate = some uri) : s.row.finalUri = some uri ∨
    (s.row.finalUri = none ∧ s.findChild s.row.targetName = some uri) := by
  rw [candidate] at h
  cases hfinal : s.row.finalUri with
  | none =>
    rw [hfinal] at h
    exact .inr ⟨rfl, h⟩
  | some finalUri =>
    rw [hfinal] at h
    exact .inl h

theorem candidate_eq_none (h : s.candidate = none) : s.row.finalUri = none := by
  rw [candidate] at h
  cases hfinal : s.row.finalUri with
  | none => rfl
  | some finalUri =>
    rw [hfinal] at h
    exact nomatch h

theorem Inv.recover {cleanup : Bool} (h : Inv digest size s)
    (hphase : s.phase = .recovering cleanup)
    (hok : Undisturbed digest size s .next) : Inv digest size (s.recover digest size cleanup) := by
  obtain ⟨hcompleted, hplaced⟩ := h.running hphase id
  simp only [Undisturbed, hphase] at hok
  cases hhash : s.row.commitSha256 with
  | none =>
    rw [CommitWorld.recover, hhash]
    exact h.unrecovered hcompleted hplaced (h.journal hhash) cleanup
  | some hash =>
    cases hcandidate : s.candidate with
    | none =>
      rw [CommitWorld.recover, hhash, hcandidate]
      exact h.unrecovered hcompleted hplaced (candidate_eq_none hcandidate) cleanup
    | some candidate =>
      rw [CommitWorld.recover, hhash, hcandidate]
      have hfound := candidate_eq_some hcandidate
      dsimp only
      split_ifs with hmatches hfinal
      · obtain ⟨r, hr, hlength, hdigest⟩ := documentMatches_iff.1 hmatches
        obtain ⟨hmem, rfl⟩ := get?_eq_some_iff.1 hr
        -- under its final address the document is ours, under its name by the condition
        have hown : r.own = true := by
          rcases hfound with hfinal | ⟨hnone, hname⟩
          · exact h.mine r.uri (.inr (.inl hfinal)) r hmem rfl
          · exact hok hnone hash hhash r.uri hname r hr hmatches
        refine h.goTo hcompleted ?_ fun _ => False.elim
        refine ⟨hplaced, ⟨r, hash, ⟨hmem, hown⟩, rfl, hhash, hlength, hdigest⟩, ?_⟩
        exact Placed.targetAnd hplaced ⟨hmem, hown⟩ (hfound.symm.imp And.left id)
      · have hfinal' : s.row.finalUri = some candidate :=
          hfound.resolve_right fun hnone => hfinal hnone.1
        refine h.goTo hcompleted ?_ fun _ => False.elim
        refine ⟨hfinal', ?_⟩
        rcases hplaced with hplaces | ⟨hnone, -⟩
        · intro r hr
          have hplace := hplaces r hr
          rw [hfinal'] at hplace
          exact hplace.imp_right fun heq => (Option.some.inj heq).symm
        · exact absurd hnone hfinal
      · exact h.unrecovered hcompleted hplaced (not_not.1 hfinal) cleanup

theorem Inv.complete (h : Inv digest size s) (hhas : Has digest size s.Own s.row uri)
    (hcomplete : Complete digest size s.Own { s.row with completed := true, targetUri := some uri }
      phase)
    (hkeeps : ∀ uri, Keeps phase uri → s.Holds uri) : Inv digest size (s.complete uri phase) := by
  refine h.to_complete rfl hcomplete (fun r hr _ => hr) ?_ h.journal
  intro other hheld
  rcases hheld with htarget | hfinal | hkept
  · obtain ⟨r, -, hr, huri, -⟩ := hhas
    exact .inr ⟨r, hr, huri.trans (Option.some.inj htarget)⟩
  · exact .inl (.inr (.inl hfinal))
  · exact .inl (hkeeps other hkept)

theorem Inv.complete_candidate (h : Inv digest size s) (hhas : Has digest size s.Own s.row uri)
    (hplaces : TargetAnd s.Own s.row uri) : Inv digest size (s.complete uri
      (match s.row.targetUri with
        | none => .idle
        | some old => if old = uri then .idle else .retiring old)) := by
  cases htarget : s.row.targetUri with
  | none =>
    refine h.complete hhas ⟨uri, rfl, hhas, ?_⟩ fun _ => False.elim
    intro r hr
    rcases hplaces r hr with heq | heq
    · rw [htarget] at heq
      exact nomatch heq
    · exact heq
  | some old =>
    dsimp only
    split_ifs with heq
    · refine h.complete hhas ⟨uri, rfl, hhas, ?_⟩ fun _ => False.elim
      intro r hr
      rcases hplaces r hr with hold | huri
      · exact Option.some.inj (hold.symm.trans (htarget.trans (congrArg some heq)))
      · exact huri
    · refine h.complete hhas ⟨uri, rfl, hhas, fun hne => heq hne.symm, ?_⟩ ?_
      · intro r hr
        rcases hplaces r hr with hold | huri
        · exact .inr (Option.some.inj (hold.symm.trans htarget))
        · exact .inl huri
      · intro other hkept
        exact .inl (htarget.trans (congrArg some hkept))

theorem next_docs (h : s.next lower digest size = some s') : s'.docs = s.docs := by
  unfold next at h
  split at h
  case h_1 =>
    obtain rfl := Option.some.inj h
    unfold CommitWorld.recover
    split
    · split_ifs <;> rfl
    · rfl
  case h_4 =>
    split at h <;> obtain rfl := Option.some.inj h <;> rfl
  case h_9 => exact nomatch h
  all_goals
    obtain rfl := Option.some.inj h
    rfl

theorem Inv.unjournal {cleanup : Bool} {candidate : Nat} (h : Inv digest size s)
    (hphase : s.phase = .unjournaling cleanup candidate) :
    Inv digest size ({ s with row := { s.row with finalUri := none } }.unrecovered cleanup
      (some candidate)) := by
  obtain ⟨hcompleted, hfinal, htarget⟩ := h.running hphase id
  have hplaced : Placed s.Own { s.row with finalUri := none } := .inl (htarget.imp fun _ => .inl)
  cases cleanup with
  | true =>
    refine h.to_open hcompleted hplaced (fun r hr _ => hr) ?_ fun _ => rfl
    intro uri hheld
    rcases hheld with htarget | hnone | hkept
    · exact .inl (.inl htarget)
    · exact nomatch hnone
    · exact .inl (.inr (.inl (hfinal.trans hkept)))
  | false =>
    refine h.to_open hcompleted ⟨rfl, hplaced⟩ (fun r hr _ => hr) ?_ fun _ => rfl
    intro uri hheld
    rcases hheld with htarget | hnone | hkept
    · exact .inl (.inl htarget)
    · exact nomatch hnone
    · exact hkept.elim

theorem Inv.next (h : Inv digest size s) (hok : Undisturbed digest size s .next)
    (hnext : s.next lower digest size = some s') : Inv digest size s' := by
  cases hphase : s.phase with
  | recovering cleanup =>
    simp only [CommitWorld.next, hphase] at hnext
    obtain rfl := Option.some.inj hnext
    exact h.recover hphase hok
  | matched cleanup candidate =>
    simp only [CommitWorld.next, hphase] at hnext
    obtain rfl := Option.some.inj hnext
    have hopen := (h.running hphase id).2
    exact h.complete_candidate hopen.2.1 hopen.2.2
  | unjournaling cleanup candidate =>
    simp only [CommitWorld.next, hphase] at hnext
    obtain rfl := Option.some.inj hnext
    exact h.unjournal hphase
  | naming hash =>
    obtain ⟨hcompleted, hopen⟩ := h.running hphase id
    simp only [CommitWorld.next, hphase] at hnext
    split at hnext
    · obtain rfl := Option.some.inj hnext
      refine h.goTo hcompleted ?_ fun _ => False.elim
      exact hopen.1.placed
    · obtain rfl := Option.some.inj hnext
      refine h.to_open hcompleted ?_ (fun r hr _ => hr) ?_ h.journal
      · exact ⟨⟨hopen.1.finalUri, hopen.1.only⟩, hopen.2⟩
      · exact fun uri hheld => .inl (hheld.imp_right fun hrest => hrest.imp_right False.elim)
  | journaling hash =>
    obtain ⟨hcompleted, hopen⟩ := h.running hphase id
    obtain ⟨htarget, r, hr, huri, hlength, hdigest⟩ := hopen
    simp only [CommitWorld.next, hphase] at hnext
    obtain rfl := Option.some.inj hnext
    refine h.to_open hcompleted ?_ (fun r hr _ => hr) ?_ fun _ => rfl
    · exact ⟨⟨rfl, htarget.only⟩, r.uri, huri, r, hash, hr, rfl, rfl, hlength, hdigest⟩
    · intro uri hheld
      rcases hheld with htarget | hnone | hkept
      · exact .inl (.inl htarget)
      · exact nomatch hnone
      · exact hkept.elim
  | renamed uri =>
    have hopen := (h.running hphase id).2
    obtain ⟨_, honly, hhas⟩ := hopen
    simp only [CommitWorld.next, hphase] at hnext
    obtain rfl := Option.some.inj hnext
    exact h.complete hhas ⟨uri, rfl, hhas, honly⟩ fun _ => False.elim
  | created finalUri =>
    obtain ⟨hcompleted, hopen⟩ := h.running hphase id
    obtain ⟨_, hplaces, target, htarget, hne, hhas⟩ := hopen
    simp only [CommitWorld.next, hphase] at hnext
    obtain rfl := Option.some.inj hnext
    refine h.to_open hcompleted ?_ (fun r hr _ => hr) ?_ ?_
    · exact ⟨rfl, hplaces, target, htarget, hne, hhas⟩
    · intro uri hheld
      rcases hheld with htarget | hfinal | hkept
      · exact .inl (.inl htarget)
      · refine .inl (.inr (.inr ?_))
        rw [hphase]
        exact Option.some.inj hfinal
      · exact hkept.elim
    · obtain ⟨r, hash, _, _, hhash, _⟩ := hhas
      exact fun hnone => absurd (hhash.symm.trans hnone) (Option.some_ne_none hash)
  | copied finalUri =>
    have hopen := (h.running hphase id).2
    obtain ⟨_, hplaces, hhas, hne⟩ := hopen
    have hcomplete := h.complete_candidate hhas hplaces
    simp only [CommitWorld.next, hphase] at hnext
    obtain rfl := Option.some.inj hnext
    cases htarget : s.row.targetUri with
    | none =>
      rw [htarget] at hcomplete
      exact hcomplete
    | some old =>
      rw [htarget] at hcomplete hne
      dsimp only at hcomplete
      rwa [if_neg fun heq => hne (congrArg some heq)] at hcomplete
  | _ =>
    simp only [CommitWorld.next, hphase] at hnext
    exact nomatch hnext

/-- A step leaves the invariant and the documents of others. -/
def Kept (digest : List UInt8 → String) (size : Nat) (s s' : CommitWorld) : Prop :=
  Inv digest size s' ∧ Spares s s'

theorem Inv.download {target : Nat} {r₀ : TargetDocument} (h : Inv digest size s)
    (hphase : s.phase = .downloading) (htarget : s.row.targetUri = some target)
    (hfound : s.docs.get? target = some r₀) (content : List UInt8) :
    Kept digest size s (s.write target content) := by
  have ⟨hmem, huri⟩ := get?_eq_some_iff.1 hfound
  have hmine : r₀.own = true := h.mine target (.inl htarget) r₀ hmem huri
  obtain ⟨hcompleted, hfinal, hplaced⟩ := h.running hphase id
  have hplaced' : Placed (s.write target content).Own s.row :=
    Placed.mono hplaced fun r hr => write_uris hfound hmine hr
  have hphase' : (s.write target content).phase = .downloading := by
    rw [write, hfound]
    exact hphase
  refine ⟨?_, write_spares hfound hmine⟩
  refine h.to_open ?_ ?_ (fun r hr hfalse => write_foreign hfound hmine hr hfalse) ?_ ?_
  · rw [write_row]
    exact hcompleted
  · rw [write_row, hphase']
    exact ⟨hfinal, hplaced'⟩
  · intro uri hheld
    rw [Holds, write_row, hphase'] at hheld
    exact .inl (hheld.imp_right fun hrest => hrest.imp_right False.elim)
  · rw [write_row]
    exact h.journal

theorem Inv.verified {target : Nat} {r : TargetDocument} (h : Inv digest size s)
    (hphase : s.phase = .downloading) (htarget : s.row.targetUri = some target)
    (hfound : s.docs.get? target = some r) (hlength : r.content.length = size) :
    Inv digest size (s.goTo (.naming (digest r.content))) := by
  obtain ⟨hmem, rfl⟩ := get?_eq_some_iff.1 hfound
  have hmine : r.own = true := h.mine r.uri (.inl htarget) r hmem rfl
  obtain ⟨hcompleted, hfinal, hplaced⟩ := h.running hphase id
  refine h.goTo hcompleted ?_ fun _ => False.elim
  have honly : OnlyTarget s.Own s.row :=
    Placed.onlyTarget hplaced hfinal ⟨hmem, hmine⟩ htarget
  exact ⟨honly, r, ⟨hmem, hmine⟩, htarget, hlength, rfl⟩

theorem Inv.rename {target : Nat} {r : TargetDocument} (h : Inv digest size s)
    (hphase : s.phase = .renamingTarget) (htarget : s.row.targetUri = some target)
    (hfound : s.docs.get? target = some r) (name : List Char)
    (hfree : uri = r.uri ∨ s.docs.get? uri = none) :
    Kept digest size s { s with
      docs := (s.docs.delete r.uri).insert { r with uri := uri, name := name }
      phase := .renamed uri } := by
  obtain ⟨hmem, hkey⟩ := get?_eq_some_iff.1 hfound
  have hmine : r.own = true := h.mine target (.inl htarget) r hmem hkey
  obtain ⟨hcompleted, honly, target', htarget', r', hash, hr', hkey', hhash, hlength, hdigest⟩ :=
    h.running hphase id
  have htargets : target' = target := Option.some.inj (htarget'.symm.trans htarget)
  have hsame : r' = r := Own.unique hr' ⟨hmem, hmine⟩ (hkey'.trans (htargets.trans hkey.symm))
  subst hsame
  constructor
  · refine h.to_open hcompleted ?_ ?_ ?_ h.journal
    · refine ⟨honly.finalUri, ?_, ?_⟩
      · rintro d ⟨hd, hown⟩
        rcases KeyedTable.mem_insert.1 hd with ⟨hrest, -⟩ | rfl
        · -- the target was the only document of this entry
          have ⟨hold, hne⟩ := KeyedTable.mem_delete.1 hrest
          have hplace : s.row.targetUri = some d.uri := honly.only d ⟨hold, hown⟩
          have hsame : some d.uri = some r'.uri := by
            rw [← hplace, htarget, hkey]
          exact absurd (Option.some.inj hsame) hne
        · rfl
      · refine ⟨_, hash, ⟨KeyedTable.mem_insert.2 (.inr rfl), hmine⟩, rfl, hhash, hlength, hdigest⟩
    · intro d hd hfalse
      rcases KeyedTable.mem_insert.1 hd with ⟨hrest, -⟩ | rfl
      · exact (KeyedTable.mem_delete.1 hrest).1
      · exact absurd (hmine.symm.trans hfalse) nofun
    · exact fun other hheld => .inl (hheld.imp_right fun hrest => hrest.imp_right False.elim)
  · intro d hd hfalse
    have hne : d.uri ≠ r'.uri := by
      intro heq
      have hsame : d = r' := KeyedTable.eq_of_key_eq hd hmem heq
      rw [hsame, hmine] at hfalse
      exact nomatch hfalse
    apply KeyedTable.mem_insert.2
    refine .inl ⟨KeyedTable.mem_delete.2 ⟨hd, hne⟩, ?_⟩
    rcases hfree with rfl | hnone
    · exact hne
    · exact get?_eq_none_iff.1 hnone d hd

theorem Inv.create (h : Inv digest size s) (hphase : s.phase = .creating)
    (hfree : s.docs.get? uri = none) (name : List Char) :
    Kept digest size s { s with
      docs := s.docs.insert ⟨uri, name, [], true⟩
      phase := .created uri } := by
  obtain ⟨hcompleted, honly, target, htarget, hhas⟩ := h.running hphase id
  have hnew : target ≠ uri := by
    obtain ⟨r, _, hr, hkey, _⟩ := hhas
    exact fun heq => get?_eq_none_iff.1 hfree r hr.1 (hkey.trans heq)
  constructor
  · refine h.to_open hcompleted ?_ ?_ ?_ h.journal
    · refine ⟨honly.finalUri, ?_, target, htarget, hnew, hhas.mono ?_⟩
      · rintro d ⟨hd, hown⟩
        rcases KeyedTable.mem_insert.1 hd with ⟨hold, -⟩ | rfl
        · exact .inl (honly.only d ⟨hold, hown⟩)
        · exact .inr rfl
      · rintro d ⟨hd, hown⟩ hkey
        exact ⟨KeyedTable.mem_insert.2 (.inl ⟨hd, hkey ▸ hnew⟩), hown⟩
    · intro d hd hfalse
      rcases KeyedTable.mem_insert.1 hd with ⟨hold, -⟩ | rfl
      · exact hold
      · exact nomatch hfalse
    · intro other hheld
      rcases hheld with htarget | hfinal | rfl
      · exact .inl (.inl htarget)
      · exact .inl (.inr (.inl hfinal))
      · exact .inr ⟨_, ⟨KeyedTable.mem_insert.2 (.inr rfl), rfl⟩, rfl⟩
  · intro d hd _
    exact KeyedTable.mem_insert.2 (.inl ⟨hd, get?_eq_none_iff.1 hfree d hd⟩)

theorem Inv.copy {finalUri target : Nat} {r : TargetDocument} (h : Inv digest size s)
    (hphase : s.phase = .copying finalUri) (htarget : s.row.targetUri = some target)
    (hfound : s.docs.get? target = some r) (hfinal : (s.docs.get? finalUri).isSome = true)
    (count : Nat) : Kept digest size s ((s.write finalUri (r.content.take count)).goTo
      (if r.content.length ≤ count then .copied finalUri else .copying finalUri)) := by
  obtain ⟨r₀, hr₀⟩ := Option.isSome_iff_exists.1 hfinal
  obtain ⟨hmem₀, hkey₀⟩ := get?_eq_some_iff.1 hr₀
  obtain ⟨hmem, hkey⟩ := get?_eq_some_iff.1 hfound
  obtain ⟨hcompleted, hstored, hplaces, target', htarget', hne, hhas⟩ := h.running hphase id
  obtain rfl : target' = target := Option.some.inj (htarget'.symm.trans htarget)
  have hmine₀ : r₀.own = true := h.mine finalUri (.inr (.inl hstored)) r₀ hmem₀ hkey₀
  have hmine : r.own = true := h.mine target' (.inl htarget) r hmem hkey
  have hplaces' : TargetAnd (s.write finalUri (r.content.take count)).Own s.row finalUri :=
    OwnIn.mono hplaces fun d hd => write_uris hr₀ hmine₀ hd
  refine ⟨?_, write_spares hr₀ hmine₀⟩
  refine h.to_open ?_ ?_ (fun d hd hfalse => write_foreign hr₀ hmine₀ hd hfalse) ?_ ?_
  · exact (congrArg EntryRow.completed (write_row _ _)).trans hcompleted
  · simp only [CommitWorld.goTo, write_row]
    split_ifs with hall
    · -- the copy has got the whole target, whose content is the verified one
      obtain ⟨r', hash, hr', hkey', hhash, hlength, hdigest⟩ := hhas
      have hsame : r' = r := Own.unique hr' ⟨hmem, hmine⟩ (hkey'.trans hkey.symm)
      rw [hsame] at hlength hdigest
      have hcopy : r.content.take count = r.content := List.take_of_length_le hall
      refine ⟨hstored, hplaces', ?_, fun heq => hne (Option.some.inj (htarget.symm.trans heq))⟩
      refine ⟨_, hash, (own_write hr₀ hmine₀).2 (.inr rfl), hkey₀, hhash, ?_, ?_⟩
      · rw [hcopy]
        exact hlength
      · rw [hcopy]
        exact hdigest
    · refine ⟨hstored, hplaces', target', htarget, hne, hhas.mono ?_⟩
      exact fun d hd hkey => (own_write hr₀ hmine₀).2 (.inl ⟨hd, hkey ▸ hne⟩)
  · intro other hheld
    have hnot : ¬Keeps (if r.content.length ≤ count then .copied finalUri else .copying finalUri)
        other := by
      split_ifs <;> exact id
    simp only [Holds, CommitWorld.goTo, write_row] at hheld
    exact .inl (hheld.imp_right fun hrest => hrest.imp_right fun hkept => absurd hkept hnot)
  · simp only [CommitWorld.goTo, write_row]
    exact h.journal

theorem Inv.delete {deleted : Bool} {uri : Option Nat} (h : Inv digest size s)
    (hplaces : if s.row.completed then Complete digest size (s.delete uri deleted).Own s.row phase
      else Open digest size (s.delete uri deleted).Own s.row phase)
    (hkeeps : ∀ other, Keeps phase other → s.Holds other)
    (hmine : ∀ other, uri = some other → s.Holds other) :
    Kept digest size s ((s.delete uri deleted).goTo phase) := by
  refine ⟨⟨?_, ?_, ?_⟩, delete_spares fun other heq => h.mine other (hmine other heq)⟩
  · simp only [CommitWorld.goTo, delete_row]
    exact hplaces
  · refine h.mine_of (fun r hr _ => delete_subset hr) ?_
    intro other hheld
    simp only [Holds, CommitWorld.goTo, delete_row] at hheld
    rcases hheld with htarget | hfinal | hkept
    · exact .inl (.inl htarget)
    · exact .inl (.inr (.inl hfinal))
    · exact .inl (hkeeps other hkept)
  · simp only [CommitWorld.goTo, delete_row]
    exact h.journal

theorem Inv.remove {deleted : Bool} (h : Inv digest size s)
    (hok : Undisturbed digest size s (.remove deleted))
    (hremove : s.stepCore lower digest size (.remove deleted) = some s') :
    Kept digest size s s' := by
  cases hphase : s.phase with
  | rejecting cleanup candidate =>
    simp only [stepCore, hphase] at hremove
    simp only [Undisturbed, hphase] at hok
    obtain rfl := Option.some.inj hremove
    obtain ⟨hcompleted, hfinal, hplaces⟩ := h.running hphase id
    refine h.delete ?_ (fun _ => False.elim) ?_
    · rw [if_neg (by rw [hcompleted]; exact Bool.false_ne_true)]
      exact ⟨hfinal, OwnIn.erase hplaces fun r hr => own_removed hok hr⟩
    · intro other heq
      exact .inr (.inl (hfinal.trans heq))
  | discardingFinal finalUri =>
    simp only [stepCore, hphase] at hremove
    obtain rfl := Option.some.inj hremove
    obtain ⟨hcompleted, hplaced⟩ := h.running hphase id
    refine h.delete ?_ (fun _ => False.elim) ?_
    · rw [if_neg (by rw [hcompleted]; exact Bool.false_ne_true)]
      exact Placed.mono hplaced fun r hr => own_delete hr
    · intro other heq
      refine .inr (.inr ?_)
      rw [hphase]
      exact heq
  | discardingTarget =>
    simp only [stepCore, hphase] at hremove
    obtain rfl := Option.some.inj hremove
    obtain ⟨hcompleted, hplaced⟩ := h.running hphase id
    refine h.delete ?_ (fun _ => False.elim) fun other heq => .inl heq
    rw [if_neg (by rw [hcompleted]; exact Bool.false_ne_true)]
    exact Placed.mono hplaced fun r hr => own_delete hr
  | undoing finalUri =>
    simp only [stepCore, hphase] at hremove
    simp only [Undisturbed, hphase] at hok
    obtain rfl := Option.some.inj hremove
    obtain ⟨hcompleted, _, hplaces⟩ := h.running hphase id
    refine h.delete ?_ (fun _ => False.elim) ?_
    · rw [if_neg (by rw [hcompleted]; exact Bool.false_ne_true)]
      rcases hok with hremoves | hfinal
      · have htarget := OwnIn.erase hplaces fun r hr => own_removed hremoves hr
        exact .inl (htarget.imp fun _ => .inl)
      · exact TargetAnd.placed (OwnIn.mono hplaces fun r hr => own_delete hr) hfinal
    · intro other heq
      refine .inr (.inr ?_)
      rw [hphase]
      exact Option.some.inj heq
  | retiring old =>
    simp only [stepCore, hphase] at hremove
    simp only [Undisturbed, hphase] at hok
    obtain rfl := Option.some.inj hremove
    obtain ⟨hcompleted, uri, htarget, hhas, hne, hplaces⟩ := h.completed hphase id
    refine h.delete ?_ (fun _ => False.elim) ?_
    · rw [if_pos hcompleted]
      refine ⟨uri, htarget, hhas.mono ?_, OwnIn.erase hplaces fun r hr => own_removed hok hr⟩
      rintro r ⟨hmem, hown⟩ hkey
      refine ⟨?_, hown⟩
      cases deleted with
      | false => exact hmem
      | true => exact mem_delete.2 ⟨hmem, hkey ▸ hne⟩
    · intro other heq
      refine .inr (.inr ?_)
      rw [hphase]
      exact Option.some.inj heq
  | _ =>
    simp only [stepCore, hphase] at hremove
    cases hremove

/-- The row says where the documents are, unless a final document is not journaled. -/
theorem Open.placed (h : Open digest size own row phase) (hcreated : ∀ uri, phase ≠ .created uri)
    (hundoing : ∀ uri, phase = .undoing uri → row.finalUri = some uri) : Placed own row := by
  cases phase with
  | idle => exact h
  | recovering cleanup => exact h
  | matched cleanup candidate => exact h.1
  | rejecting cleanup candidate => exact TargetAnd.placed h.2 h.1
  | unjournaling cleanup candidate => exact .inl (h.2.imp fun _ => .inl)
  | discardingFinal finalUri => exact h
  | discardingTarget => exact h
  | downloading => exact h.2
  | naming hash => exact h.1.placed
  | journaling hash => exact h.1.placed
  | renamingTarget => exact h.1.placed
  | renamed uri =>
    obtain ⟨hfinal, honly, -⟩ := h
    by_cases htarget : row.targetUri = some uri
    · refine .inl fun r hr => .inl ?_
      rw [honly r hr]
      exact htarget
    · refine .inr ⟨hfinal, ⟨uri, honly⟩, fun r hr => ?_⟩
      rw [honly r hr]
      exact htarget
  | creating => exact h.1.placed
  | created finalUri => exact absurd rfl (hcreated finalUri)
  | copying finalUri => exact TargetAnd.placed h.2.1 h.1
  | copied finalUri => exact TargetAnd.placed h.2.1 h.1
  | undoing finalUri => exact TargetAnd.placed h.2 (hundoing finalUri rfl)
  | retiring old => exact False.elim h

theorem Inv.abandon (h : Inv digest size s) (hcompleted : s.row.completed = false)
    (hplaced : Placed s.Own s.row) (cleanup : Bool) : Inv digest size (s.abandon cleanup) := by
  cases cleanup with
  | true =>
    refine h.goTo hcompleted ?_ fun uri hkept => .inr (.inl hkept)
    exact hplaced
  | false =>
    refine h.goTo hcompleted ?_ fun _ => False.elim
    exact hplaced

theorem Inv.undo {finalUri : Nat} (h : Inv digest size s) (hcompleted : s.row.completed = false)
    (hfinal : s.row.finalUri = none ∨ s.row.finalUri = some finalUri)
    (hplaces : TargetAnd s.Own s.row finalUri) (hheld : s.Holds finalUri) :
    Inv digest size (s.goTo (.undoing finalUri)) := by
  refine h.goTo hcompleted ?_ ?_
  · exact ⟨hfinal, hplaces⟩
  · rintro _ rfl
    exact hheld

theorem Inv.fail (h : Inv digest size s) (hfail : s.fail = some s') : Inv digest size s' := by
  have hidle (hrunning : s.row.completed = false ∧ Open digest size s.Own s.row s.phase)
      (hcreated : ∀ uri, s.phase ≠ .created uri) (hundoing : ∀ uri, s.phase ≠ .undoing uri) :
      Inv digest size (s.goTo .idle) := by
    refine h.goTo hrunning.1 ?_ fun _ => False.elim
    exact hrunning.2.placed hcreated fun uri heq => absurd heq (hundoing uri)
  cases hphase : s.phase with
  | recovering cleanup =>
    simp only [CommitWorld.fail, hphase] at hfail
    obtain rfl := Option.some.inj hfail
    obtain ⟨hcompleted, hplaced⟩ := h.running hphase id
    exact h.abandon hcompleted hplaced cleanup
  | matched cleanup candidate =>
    simp only [CommitWorld.fail, hphase] at hfail
    obtain rfl := Option.some.inj hfail
    obtain ⟨hcompleted, hplaced, -⟩ := h.running hphase id
    exact h.abandon hcompleted hplaced cleanup
  | unjournaling cleanup candidate =>
    simp only [CommitWorld.fail, hphase] at hfail
    obtain rfl := Option.some.inj hfail
    obtain ⟨hcompleted, -, htarget⟩ := h.running hphase id
    exact h.abandon hcompleted (.inl (htarget.imp fun _ => .inl)) cleanup
  | created finalUri =>
    simp only [CommitWorld.fail, hphase] at hfail
    obtain rfl := Option.some.inj hfail
    obtain ⟨hcompleted, hnone, hplaces, -⟩ := h.running hphase id
    refine h.undo hcompleted (.inl hnone) hplaces (.inr (.inr ?_))
    rw [hphase]
    rfl
  | copying finalUri =>
    simp only [CommitWorld.fail, hphase] at hfail
    obtain rfl := Option.some.inj hfail
    obtain ⟨hcompleted, hsome, hplaces, -⟩ := h.running hphase id
    exact h.undo hcompleted (.inr hsome) hplaces (.inr (.inl hsome))
  | copied finalUri =>
    simp only [CommitWorld.fail, hphase] at hfail
    obtain rfl := Option.some.inj hfail
    obtain ⟨hcompleted, hsome, hplaces, -⟩ := h.running hphase id
    exact h.undo hcompleted (.inr hsome) hplaces (.inr (.inl hsome))
  | idle | rejecting _ _ | discardingFinal _ | discardingTarget | undoing _ | retiring _ =>
    simp only [CommitWorld.fail, hphase] at hfail
    exact nomatch hfail
  | downloading | naming _ | journaling _ | renamingTarget | renamed _ | creating =>
    simp only [CommitWorld.fail, hphase] at hfail
    obtain rfl := Option.some.inj hfail
    have hrunning := h.running hphase id
    rw [← hphase] at hrunning
    apply hidle hrunning
    · rw [hphase]
      exact fun _ heq => nomatch heq
    · rw [hphase]
      exact fun _ heq => nomatch heq

theorem fail_docs (h : s.fail = some s') : s'.docs = s.docs := by
  unfold fail CommitWorld.abandon at h
  split at h
  any_goals contradiction
  any_goals split_ifs at h
  all_goals
    obtain rfl := Option.some.inj h
    rfl

theorem Inv.crash (h : Inv digest size s) (hok : Undisturbed digest size s .crash) :
    Inv digest size (s.goTo .idle) := by
  cases hcompleted : s.row.completed with
  | false =>
    have hopen := h.places
    rw [if_neg (by rw [hcompleted]; exact Bool.false_ne_true)] at hopen
    refine h.goTo hcompleted ?_ fun _ => False.elim
    apply Open.placed hopen
    · intro uri hphase
      simp only [Undisturbed, hphase] at hok
    · intro uri hphase
      simpa only [Undisturbed, hphase] using hok
  | true =>
    have hcomplete := h.places
    rw [if_pos hcompleted] at hcomplete
    refine h.to_complete hcompleted ?_ (fun r hr _ => hr) ?_ h.journal
    · cases hphase : s.phase with
      | idle =>
        rw [hphase] at hcomplete
        exact hcomplete
      | retiring old =>
        rw [hphase] at hcomplete
        simp only [Undisturbed, hphase] at hok
        obtain ⟨uri, htarget, hhas, hne, hplaces⟩ := hcomplete
        refine ⟨uri, htarget, hhas, fun r hr => ?_⟩
        exact (hplaces r hr).resolve_right (get?_eq_none_iff.1 hok r hr.1)
      | _ =>
        rw [hphase] at hcomplete
        exact False.elim hcomplete
    · exact fun other hheld => .inl (hheld.imp_right fun hrest => hrest.imp_right False.elim)

theorem Inv.foreign {docs : TargetFolder} (h : Inv digest size s)
    (hown : (s.docs.rows.filter (·.own)).Perm (docs.rows.filter (·.own)))
    (hok : Undisturbed digest size s (.foreign docs)) : Inv digest size { s with docs } := by
  have hsame : ({ s with docs } : CommitWorld).Own = s.Own := by
    funext r
    have hmem := hown.mem_iff (a := r)
    rw [List.mem_filter, List.mem_filter] at hmem
    exact propext hmem.symm
  refine ⟨?_, ?_, h.journal⟩
  · rw [hsame]
    exact h.places
  · rintro _ hheld r hr rfl
    by_contra hnot
    exact hok r hr (eq_false_of_ne_true hnot) hheld

theorem Inv.stepCore {e : CommitEvent} (h : Inv digest size s) (hok : Undisturbed digest size s e)
    (hstep : s.stepCore lower digest size e = some s') :
    Inv digest size s' ∧ ((∀ docs, e ≠ .foreign docs) → Spares s s') := by
  cases e with
  | begin cleanup =>
    simp only [CommitWorld.stepCore] at hstep
    split_ifs at hstep with hidle
    obtain rfl := Option.some.inj hstep
    exact ⟨h.begin hidle.1 hidle.2 cleanup, fun _ r hr _ => hr⟩
  | next =>
    refine ⟨h.next hok hstep, fun _ r hr _ => ?_⟩
    rw [next_docs hstep]
    exact hr
  | download content =>
    simp only [CommitWorld.stepCore] at hstep
    split at hstep
    case h_1 target hphase htarget =>
      split_ifs at hstep with hsome
      obtain rfl := Option.some.inj hstep
      obtain ⟨r, hfound⟩ := Option.isSome_iff_exists.1 hsome
      exact (h.download hphase htarget hfound content).imp_right fun hspares _ => hspares
    case h_2 => exact nomatch hstep
  | verified =>
    simp only [CommitWorld.stepCore] at hstep
    split at hstep
    case h_1 r hphase hbind =>
      split_ifs at hstep with hlength
      obtain rfl := Option.some.inj hstep
      obtain ⟨target, htarget, hfound⟩ := Option.bind_eq_some_iff.1 hbind
      exact ⟨h.verified hphase htarget hfound hlength, fun _ r hr _ => hr⟩
    case h_2 => exact nomatch hstep
  | rename uri name =>
    simp only [CommitWorld.stepCore] at hstep
    split at hstep
    case h_1 r hphase hbind =>
      split_ifs at hstep with hfree
      obtain rfl := Option.some.inj hstep
      obtain ⟨target, htarget, hfound⟩ := Option.bind_eq_some_iff.1 hbind
      exact (h.rename hphase htarget hfound name hfree).imp_right fun hspares _ => hspares
    case h_2 => exact nomatch hstep
  | renameUnsupported =>
    simp only [CommitWorld.stepCore] at hstep
    split_ifs at hstep with hphase
    obtain rfl := Option.some.inj hstep
    obtain ⟨hcompleted, hopen⟩ := h.running hphase id
    refine ⟨h.goTo hcompleted ?_ fun _ => False.elim, fun _ r hr _ => hr⟩
    exact hopen
  | create uri name =>
    simp only [CommitWorld.stepCore] at hstep
    split_ifs at hstep with hfree
    obtain rfl := Option.some.inj hstep
    exact (h.create hfree.1 hfree.2 name).imp_right fun hspares _ => hspares
  | copy count =>
    simp only [CommitWorld.stepCore] at hstep
    split at hstep
    case h_1 finalUri r hphase hbind =>
      split at hstep
      case isTrue hfinal =>
        obtain rfl := Option.some.inj hstep
        obtain ⟨target, htarget, hfound⟩ := Option.bind_eq_some_iff.1 hbind
        exact (h.copy hphase htarget hfound hfinal count).imp_right fun hspares _ => hspares
      case isFalse => exact nomatch hstep
    case h_2 => exact nomatch hstep
  | remove deleted => exact (h.remove hok hstep).imp_right fun hspares _ => hspares
  | fail =>
    refine ⟨h.fail hstep, fun _ r hr _ => ?_⟩
    rw [fail_docs hstep]
    exact hr
  | crash =>
    obtain rfl := Option.some.inj hstep
    exact ⟨h.crash hok, fun _ r hr _ => hr⟩
  | foreign docs =>
    simp only [CommitWorld.stepCore] at hstep
    split_ifs at hstep with hown
    obtain rfl := Option.some.inj hstep
    exact ⟨h.foreign hown hok, fun hnot => absurd rfl (hnot docs)⟩

theorem Inv.step {e : CommitEvent} (h : Inv digest size s) (hharmed : s.harmed = false)
    (hok : Undisturbed digest size s e) (hstep : s.step lower digest size e = some s') :
    Inv digest size s' ∧ s'.harmed = false := by
  obtain ⟨s₁, hcore, hs'⟩ := Option.map_eq_some_iff.1 hstep
  obtain ⟨hinv, hspares⟩ := h.stepCore hok hcore
  have hkept : (∀ docs, e ≠ .foreign docs) →
      (s.harmed || s.docs.rows.any fun r => !r.own && !s₁.docs.rows.contains r) = false := by
    intro hown
    rw [hharmed, Bool.false_or, List.any_eq_false]
    intro r hr
    rw [Bool.and_eq_true, Bool.not_eq_true', Bool.not_eq_true', not_and, Bool.not_eq_false]
    intro hfalse
    exact List.contains_iff_mem.2 (hspares hown r hr hfalse)
  cases e with
  | foreign docs =>
    subst hs'
    simp only [CommitWorld.stepCore] at hcore
    split_ifs at hcore
    obtain rfl := Option.some.inj hcore
    exact ⟨hinv, hharmed⟩
  | _ =>
    subst hs'
    exact ⟨⟨hinv.places, hinv.mine, hinv.journal⟩, hkept fun _ heq => nomatch heq⟩

theorem Inv.committed (h : Inv digest size s) (hharmed : s.harmed = false) :
    s.Committed digest size := by
  refine ⟨hharmed, ?_⟩
  intro hcompleted hidle
  have hplaces := h.places
  rw [if_pos hcompleted, hidle] at hplaces
  obtain ⟨uri, htarget, ⟨r, hash, hr, hkey, hhash, hlength, hdigest⟩, honly⟩ := hplaces
  refine ⟨r, hr.1, hr.2, ?_, hlength, ?_, ?_⟩
  · rw [htarget, hkey]
  · rw [hhash, hdigest]
  · intro r' hmem hown
    apply Own.unique ⟨hmem, hown⟩ hr
    rw [honly r' ⟨hmem, hown⟩, hkey]

theorem inv_prepared {docs : TargetFolder} {tempName targetName : List Char}
    (hforeign : ∀ r ∈ docs.rows, r.own = false) :
    Inv digest size (prepared docs uri tempName targetName) := by
  have hown : ∀ r, (prepared docs uri tempName targetName).Own r → r.uri = uri := by
    rintro r ⟨hmem, htrue⟩
    rcases KeyedTable.mem_insert.1 hmem with ⟨hold, -⟩ | rfl
    · exact absurd ((hforeign r hold).symm.trans htrue) nofun
    · rfl
  refine ⟨?_, ?_, fun _ => rfl⟩
  · apply Or.inl
    exact fun r hr => .inl (congrArg some (hown r hr).symm)
  · rintro other hheld r hmem rfl
    rcases KeyedTable.mem_insert.1 hmem with ⟨-, hne⟩ | rfl
    · rcases hheld with htarget | hfinal | hkept
      · exact absurd (Option.some.inj htarget).symm hne
      · exact nomatch hfinal
      · exact hkept.elim
    · rfl

/-- Whatever step a commit is interrupted at, and however often it is retried or cleaned up after:
no document of somebody else is touched, and an entry that is completed has its one document,
under its stored address and with the verified content. -/
theorem commit_recovers (lower : List Char → List Char) (digest : List UInt8 → String) (size : Nat)
    (docs : TargetFolder) (uri : Nat) (tempName targetName : List Char)
    (hforeign : ∀ r ∈ docs.rows, r.own = false) (es : List CommitEvent)
    (h : Machine.Along (step lower digest size) (Undisturbed digest size)
      (prepared docs uri tempName targetName) es) :
    Machine.Always (step lower digest size) (Committed digest size)
      (prepared docs uri tempName targetName) es := by
  apply Machine.always_of_along (fun s => Inv digest size s ∧ s.harmed = false) es
    ⟨inv_prepared hforeign, rfl⟩ ((inv_prepared hforeign).committed rfl) ?_ h
  intro s e s' hs hok hstep
  have hnext := hs.1.step hs.2 hok hstep
  exact ⟨hnext, hnext.1.committed hnext.2⟩

/-- The process ends after the rename; the recovery finds the document by its name. -/
theorem commit_recovers_renamed :
    Machine.Always (step id (fun _ => "1") 1) (Committed (fun _ => "1") 1)
      (prepared ⟨[⟨0, ['a'], [5], false⟩], by decide⟩ 1 ['.'] ['a'])
      [.begin false, .next, .download [7], .verified, .next, .next,
        .rename 2 ['a', ' ', '(', '1', ')'], .crash, .begin true, .next, .next, .remove true] :=
  commit_recovers _ _ _ _ _ _ _ (by decide) _ (by decide)

/-- The process ends after the final document is created and before that is journaled: the
document is left behind, and the entry has two when it is completed. -/
theorem unjournaled_copy_left : ∃ s : CommitWorld,
    Machine.run (step id (fun _ => "1") 1) (prepared KeyedTable.empty 1 ['.'] ['a'])
      [.begin false, .next, .download [7], .verified, .next, .next, .renameUnsupported,
        .create 2 ['a'], .crash, .begin false, .next, .verified, .next, .next,
        .renameUnsupported, .create 3 ['a', ' ', '(', '1', ')'], .next, .copy 1, .next,
        .remove true] = some s ∧
    s.row.completed = true ∧ s.phase = .idle ∧
    s.docs.rows = [⟨2, ['a'], [], true⟩, ⟨3, ['a', ' ', '(', '1', ')'], [7], true⟩] ∧
    ¬s.Committed (fun _ => "1") 1 := by
  refine ⟨_, rfl, rfl, rfl, rfl, ?_⟩
  intro h
  obtain ⟨r, hr⟩ := h.done rfl rfl
  have hfirst := hr.only ⟨2, ['a'], [], true⟩ (by decide) rfl
  have hsecond := hr.only ⟨3, ['a', ' ', '(', '1', ')'], [7], true⟩ (by decide) rfl
  exact absurd (hfirst.trans hsecond.symm) (by decide)

end CommitWorld

end FlowType
