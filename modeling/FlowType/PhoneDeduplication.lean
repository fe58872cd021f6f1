import Mathlib.Data.Finset.Max
import Mathlib.Data.List.Sort
import Mathlib.Data.Prod.Lex
import Mathlib.Data.String.Basic
import FlowType.KeyedTable
import FlowType.Pairing

/-! What loading makes of paired phones that have one public key. The map of the phones is a table
whose order is the one in which the hash map is walked. -/
namespace FlowType

abbrev PhoneEntry := String × PairedPhone

abbrev PhoneTable := KeyedTable (Prod.fst : PhoneEntry → String)

namespace PhoneEntry

def key (e : PhoneEntry) : String := e.2.publicKeySpki

/-- The times that are compared; a phone that was never connected counts as connected at 0. -/
def recency (e : PhoneEntry) : ℕ ×ₗ ℕ := toLex (e.2.lastConnected.getD 0, e.2.pairedAt)

def rank (e : PhoneEntry) : (ℕ ×ₗ ℕ)ᵒᵈ ×ₗ String := toLex (OrderDual.toDual e.recency, e.1)

theorem rank_le_iff {e e' : PhoneEntry} : e.rank ≤ e'.rank ↔
    e'.recency < e.recency ∨ (e'.recency = e.recency ∧ e.1 ≤ e'.1) := by
  rw [rank, rank, Prod.Lex.toLex_le_toLex, OrderDual.toDual_lt_toDual, OrderDual.toDual_inj,
    eq_comm]

theorem eq_of_rank_eq {e e' : PhoneEntry} (h : e.rank = e'.rank) : e.1 = e'.1 :=
  congrArg (fun r => (ofLex r).2) h

end PhoneEntry

/-- The loop over the sorted entries. `seen` holds the keys of those before. -/
def keepFirst : List String → List PhoneEntry → List PhoneEntry
  | _, [] => []
  | seen, e :: entries =>
    if e.key = "" then e :: keepFirst seen entries
    else if e.key ∈ seen then keepFirst seen entries
    else e :: keepFirst (e.key :: seen) entries

theorem keepFirst_sublist (seen : List String) (entries : List PhoneEntry) :
    (keepFirst seen entries).Sublist entries := by
  induction entries generalizing seen with
  | nil => exact List.Sublist.refl _
  | cons e entries ih =>
    rw [keepFirst]
    split_ifs
    · exact (ih seen).cons_cons e
    · exact (ih seen).cons e
    · exact (ih _).cons_cons e

def sortedEntries (phones : PhoneTable) : List PhoneEntry :=
  phones.rows.insertionSort fun e e' => e.rank ≤ e'.rank

namespace PhoneTable

theorem nodup_keepFirst (phones : PhoneTable) :
    ((keepFirst [] (sortedEntries phones)).map Prod.fst).Nodup := by
  have hperm : (sortedEntries phones).Perm phones.rows := List.perm_insertionSort _ _
  have hnodup : ((sortedEntries phones).map Prod.fst).Nodup :=
    (hperm.map Prod.fst).nodup_iff.2 phones.nodup
  exact ((keepFirst_sublist [] _).map Prod.fst).nodup hnodup

/-- `deduplicate_paired_phones`. -/
def deduplicate (phones : PhoneTable) : PhoneTable × Bool :=
  let deduplicated : PhoneTable := ⟨keepFirst [] (sortedEntries phones), nodup_keepFirst phones⟩
  (deduplicated, deduplicated.rows.length != phones.rows.length)

/-- The map without its order. -/
def phones (t : PhoneTable) : PairedPhones := fun phoneId => (t.get? phoneId).map Prod.snd

/-- `upsert_paired_phone`. -/
def upsert (t : PhoneTable) (phoneId phoneName publicKeySpki : String) (now : Nat) : PhoneTable :=
  t.insert (phoneId, match t.get? phoneId with
    | some (_, phone) =>
      { phoneName, publicKeySpki, lastConnected := some now
        pairedAt := if phone.pairedAt = 0 then now else phone.pairedAt }
    | none => { phoneName, publicKeySpki, pairedAt := now, lastConnected := some now })

/-- The two models of the map agree. -/
theorem phones_upsert (t : PhoneTable) (phoneId phoneName publicKeySpki : String) (now : Nat) :
    (t.upsert phoneId phoneName publicKeySpki now).phones =
      t.phones.upsert phoneId phoneName publicKeySpki now := by
  funext id
  rw [phones, upsert, KeyedTable.get?_insert, PairedPhones.upsert]
  dsimp only
  by_cases hid : id = phoneId
  · subst hid
    rw [if_pos rfl, Function.update_self, phones]
    cases t.get? id with
    | none => rfl
    | some e => rfl
  · rw [if_neg hid, Function.update_of_ne hid]
    rfl

end PhoneTable

section Loop

variable {seen : List String} {entries before after : List PhoneEntry} {e other : PhoneEntry}

/-- A kept entry without a key, or with one that is new. -/
theorem key_of_mem_keepFirst (h : e ∈ keepFirst seen entries) : e.key = "" ∨ e.key ∉ seen := by
  induction entries generalizing seen with
  | nil => exact nomatch h
  | cons x entries ih =>
    rw [keepFirst] at h
    split_ifs at h with hempty hseen
    · rcases List.mem_cons.1 h with rfl | hrest
      · exact .inl hempty
      · exact ih hrest
    · exact ih h
    · rcases List.mem_cons.1 h with rfl | hrest
      · exact .inr hseen
      · exact (ih hrest).imp_right fun hnew hmem => hnew (List.mem_cons_of_mem _ hmem)

/-- A kept entry with a key is the first one of its key. -/
theorem first_of_mem_keepFirst (h : e ∈ keepFirst seen entries) (hkey : e.key ≠ "") :
    ∃ before after, entries = before ++ e :: after ∧ ∀ other ∈ before, other.key ≠ e.key := by
  induction entries generalizing seen with
  | nil => exact nomatch h
  | cons x entries ih =>
    have hlater (hrest : e ∈ keepFirst seen entries ∨ e ∈ keepFirst (x.key :: seen) entries)
        (hne : x.key ≠ e.key) : ∃ before after, x :: entries = before ++ e :: after ∧
          ∀ other ∈ before, other.key ≠ e.key := by
      obtain ⟨before, after, hsplit, hbefore⟩ := hrest.elim (fun h => ih h) fun h => ih h
      refine ⟨x :: before, after, congrArg (x :: ·) hsplit, ?_⟩
      exact List.forall_mem_cons.2 ⟨hne, hbefore⟩
    rw [keepFirst] at h
    split_ifs at h with hempty hseen
    · rcases List.mem_cons.1 h with rfl | hrest
      · exact absurd hempty hkey
      · exact hlater (.inl hrest) fun heq => hkey (heq ▸ hempty)
    · have hnew : e.key ∉ seen := (key_of_mem_keepFirst h).resolve_left hkey
      exact hlater (.inl h) fun heq => hnew (heq ▸ hseen)
    · rcases List.mem_cons.1 h with rfl | hrest
      · exact ⟨[], entries, rfl, fun _ hother => nomatch hother⟩
      · have hnew := (key_of_mem_keepFirst hrest).resolve_left hkey
        exact hlater (.inr hrest) fun heq => hnew (heq ▸ List.mem_cons_self)

/-- The first entry with a key that is new is kept, and every entry without a key. -/
theorem mem_keepFirst_of_first (hseen : e.key = "" ∨ e.key ∉ seen)
    (hfirst : e.key = "" ∨ ∀ other ∈ before, other.key ≠ e.key) :
    e ∈ keepFirst seen (before ++ e :: after) := by
  induction before generalizing seen with
  | nil =>
    rw [List.nil_append, keepFirst]
    split_ifs with hempty hmem
    · exact List.mem_cons_self
    · exact absurd hmem (hseen.resolve_left hempty)
    · exact List.mem_cons_self
  | cons x before ih =>
    have hbefore : e.key = "" ∨ ∀ other ∈ before, other.key ≠ e.key :=
      hfirst.imp_right fun h other hother => h other (List.mem_cons_of_mem x hother)
    rw [List.cons_append, keepFirst]
    split_ifs
    · exact List.mem_cons_of_mem x (ih hseen hbefore)
    · exact ih hseen hbefore
    · apply List.mem_cons_of_mem x (ih ?_ hbefore)
      by_cases hempty : e.key = ""
      · exact .inl hempty
      · right
        rw [List.mem_cons, not_or]
        have hne : x.key ≠ e.key := (hfirst.resolve_left hempty) x List.mem_cons_self
        exact ⟨hne.symm, hseen.resolve_left hempty⟩

/-- No two kept entries have one key. -/
theorem keepFirst_pairwise (seen : List String) (entries : List PhoneEntry) :
    (keepFirst seen entries).Pairwise fun e e' => e.key = "" ∨ e'.key ≠ e.key := by
  induction entries generalizing seen with
  | nil => exact List.Pairwise.nil
  | cons x entries ih =>
    rw [keepFirst]
    split_ifs with hempty hseen
    · exact List.pairwise_cons.2 ⟨fun _ _ => .inl hempty, ih seen⟩
    · exact ih seen
    · refine List.pairwise_cons.2 ⟨?_, ih _⟩
      intro e he
      right
      intro heq
      rcases key_of_mem_keepFirst he with hnone | hnew
      · exact hempty (heq.symm.trans hnone)
      · exact hnew (heq ▸ List.mem_cons_self)

/-- A list without duplicates is kept as it is. -/
theorem keepFirst_eq_self (hseen : ∀ e ∈ entries, e.key = "" ∨ e.key ∉ seen)
    (hkeys : entries.Pairwise fun e e' => e.key = "" ∨ e'.key ≠ e.key) :
    keepFirst seen entries = entries := by
  induction entries generalizing seen with
  | nil => rfl
  | cons x entries ih =>
    obtain ⟨hhead, htail⟩ := List.pairwise_cons.1 hkeys
    have hrest : ∀ e ∈ entries, e.key = "" ∨ e.key ∉ seen :=
      fun e he => hseen e (List.mem_cons_of_mem x he)
    rw [keepFirst]
    split_ifs with hempty hmem
    · rw [ih hrest htail]
    · exact absurd hmem ((hseen x List.mem_cons_self).resolve_left hempty)
    · rw [ih ?_ htail]
      intro e he
      refine (hrest e he).imp_right fun hnew => ?_
      rw [List.mem_cons, not_or]
      exact ⟨(hhead e he).resolve_left hempty, hnew⟩

end Loop

namespace PhoneTable

variable {t t' : PhoneTable} {e other : PhoneEntry}

theorem sortedEntries_sorted (t : PhoneTable) :
    (sortedEntries t).Pairwise fun e e' => e.rank ≤ e'.rank := by
  have htotal : Std.Total fun e e' : PhoneEntry => e.rank ≤ e'.rank :=
    ⟨fun e e' => le_total e.rank e'.rank⟩
  have htrans : IsTrans PhoneEntry fun e e' => e.rank ≤ e'.rank := ⟨fun _ _ _ => le_trans⟩
  exact List.pairwise_insertionSort _ _

theorem mem_sortedEntries : e ∈ sortedEntries t ↔ e ∈ t.rows := List.mem_insertionSort _

/-- What is kept of a map: an entry without a key, and of each key the entry with the first rank. -/
theorem mem_deduplicate : e ∈ t.deduplicate.1.rows ↔ e ∈ t.rows ∧
    (e.key = "" ∨ ∀ other : PhoneEntry, other ∈ t.rows → other.key = e.key →
      e.rank ≤ other.rank) := by
  change e ∈ keepFirst [] (sortedEntries t) ↔ _
  have hsorted := sortedEntries_sorted t
  constructor
  · intro h
    have hmem : e ∈ sortedEntries t := (keepFirst_sublist _ _).subset h
    refine ⟨mem_sortedEntries.1 hmem, ?_⟩
    by_cases hempty : e.key = ""
    · exact .inl hempty
    right
    intro other hother hkey
    obtain ⟨before, after, hsplit, hbefore⟩ := first_of_mem_keepFirst h hempty
    have hin : other ∈ before ++ e :: after := hsplit ▸ mem_sortedEntries.2 hother
    rw [hsplit] at hsorted
    rcases List.mem_append.1 hin with hearly | hlate
    · exact absurd hkey (hbefore other hearly)
    · rcases List.mem_cons.1 hlate with rfl | hafter
      · exact le_rfl
      · have htail := (List.pairwise_append.1 hsorted).2.1
        exact (List.pairwise_cons.1 htail).1 other hafter
  · rintro ⟨hmem, hrank⟩
    obtain ⟨before, after, hsplit⟩ := List.append_of_mem (mem_sortedEntries.2 hmem)
    have hperm : (sortedEntries t).Perm t.rows := List.perm_insertionSort _ _
    have hnodup := (hperm.map Prod.fst).nodup_iff.2 t.nodup
    rw [hsplit] at hsorted hnodup ⊢
    apply mem_keepFirst_of_first (.inr List.not_mem_nil)
    apply hrank.imp_right
    intro hrank other hother hkey
    have hrows : other ∈ t.rows := by
      rw [← mem_sortedEntries, hsplit]
      exact List.mem_append_left _ hother
    have hle := (List.pairwise_append.1 hsorted).2.2 other hother e List.mem_cons_self
    have hid : other.1 = e.1 := PhoneEntry.eq_of_rank_eq (le_antisymm hle (hrank other hrows hkey))
    -- the ids before the entry are other ones
    rw [List.map_append, List.nodup_append] at hnodup
    exact hnodup.2.2 other.1 (List.mem_map_of_mem hother) e.1
      (List.mem_map_of_mem List.mem_cons_self) hid

theorem deduplicate_perm (h : t.rows.Perm t'.rows) : t.deduplicate = t'.deduplicate := by
  have hsorted : sortedEntries t = sortedEntries t' := by
    have hperm : (sortedEntries t).Perm (sortedEntries t') :=
      (List.perm_insertionSort _ _).trans (h.trans (List.perm_insertionSort _ _).symm)
    apply hperm.eq_of_pairwise ?_ (sortedEntries_sorted t) (sortedEntries_sorted t')
    intro e e' he he' hle hle'
    have hid : e.1 = e'.1 := PhoneEntry.eq_of_rank_eq (le_antisymm hle hle')
    exact KeyedTable.eq_of_key_eq (mem_sortedEntries.1 he)
      (h.mem_iff.2 (mem_sortedEntries.1 he')) hid
  simp only [deduplicate, hsorted, h.length_eq]

/-- The flag says whether an entry was removed. -/
theorem deduplicate_changed :
    t.deduplicate.2 = true ↔ ∃ e ∈ t.rows, e ∉ t.deduplicate.1.rows := by
  have hsub : (t.deduplicate.1.rows).Sublist (sortedEntries t) := keepFirst_sublist _ _
  have hlength : (sortedEntries t).length = t.rows.length := List.length_insertionSort _ _
  change (t.deduplicate.1.rows.length != t.rows.length) = true ↔ _
  rw [bne_iff_ne, ← hlength]
  constructor
  · intro hne
    by_contra hnone
    push Not at hnone
    apply hne
    have hrows : t.rows.Nodup := List.Nodup.of_map Prod.fst t.nodup
    have hperm : (sortedEntries t).Perm t.rows := List.perm_insertionSort _ _
    have hall : (sortedEntries t).Subperm t.deduplicate.1.rows :=
      List.subperm_of_subset (hperm.nodup_iff.2 hrows) fun e he => hnone e (mem_sortedEntries.1 he)
    exact le_antisymm hsub.length_le hall.length_le
  · rintro ⟨e, he, hremoved⟩ heq
    apply hremoved
    rw [hsub.eq_of_length heq]
    exact mem_sortedEntries.2 he

/-- A map that was deduplicated stays as it is, in whichever order it is walked. -/
theorem deduplicate_deduplicate (h : t'.rows.Perm t.deduplicate.1.rows) :
    t'.deduplicate = (t.deduplicate.1, false) := by
  rw [deduplicate_perm h]
  have hsub : (keepFirst [] (sortedEntries t)).Sublist (sortedEntries t) := keepFirst_sublist _ _
  have hsorted : sortedEntries t.deduplicate.1 = keepFirst [] (sortedEntries t) :=
    List.Pairwise.insertionSort_eq ((sortedEntries_sorted t).sublist hsub)
  have hkept : keepFirst [] (sortedEntries t.deduplicate.1) = t.deduplicate.1.rows := by
    rw [hsorted]
    exact keepFirst_eq_self (fun _ _ => .inr List.not_mem_nil) (keepFirst_pairwise _ _)
  simp only [deduplicate] at hkept ⊢
  simp only [hkept, bne_self_eq_false]

theorem exists_kept (h : e ∈ t.rows) :
    ∃ kept : PhoneEntry, kept ∈ t.deduplicate.1.rows ∧ kept.key = e.key := by
  have hmem : e ∈ (t.rows.filter fun other : PhoneEntry => other.key = e.key).toFinset := by
    simp [h]
  obtain ⟨kept, hkept, hfirst⟩ := Finset.exists_min_image _ PhoneEntry.rank ⟨e, hmem⟩
  simp only [List.mem_toFinset, List.mem_filter, decide_eq_true_eq] at hkept hfirst
  refine ⟨kept, mem_deduplicate.2 ⟨hkept.1, .inr ?_⟩, hkept.2⟩
  exact fun other hother hkey => hfirst other ⟨hother, hkey.trans hkept.2⟩

end PhoneTable

/-- A call of `PairedPhoneStore::upsert`. -/
structure PhoneUpsert where
  phoneId : String
  phoneName : String
  publicKeySpki : String
  now : Nat

namespace PhoneTable

variable {t : PhoneTable}

def pair (t : PhoneTable) (u : PhoneUpsert) : PhoneTable :=
  t.upsert u.phoneId u.phoneName u.publicKeySpki u.now

/-- The pairing time that the call leaves: the one of the phone, unless it has none. -/
def pairedAt (t : PhoneTable) (u : PhoneUpsert) : Nat :=
  match t.get? u.phoneId with
  | some (_, phone) => if phone.pairedAt = 0 then u.now else phone.pairedAt
  | none => u.now

theorem pair_eq (t : PhoneTable) (u : PhoneUpsert) : t.pair u = t.insert (u.phoneId,
    { phoneName := u.phoneName, publicKeySpki := u.publicKeySpki, pairedAt := t.pairedAt u
      lastConnected := some u.now }) := by
  rw [pair, upsert, pairedAt]
  cases t.get? u.phoneId with
  | none => rfl
  | some e => rfl

/-- The phone that paired last is kept if it comes first among the phones with its key. -/
theorem kept_iff (t : PhoneTable) (u : PhoneUpsert) :
    (∃ phone, (u.phoneId, phone) ∈ (t.pair u).deduplicate.1.rows) ↔
      (u.publicKeySpki = "" ∨ ∀ e : PhoneEntry, e ∈ t.rows → e.1 ≠ u.phoneId →
        e.key = u.publicKeySpki → e.recency < toLex (u.now, t.pairedAt u) ∨
          (e.recency = toLex (u.now, t.pairedAt u) ∧ u.phoneId ≤ e.1)) := by
  let written : PhoneEntry := (u.phoneId, { phoneName := u.phoneName
                                            publicKeySpki := u.publicKeySpki
                                            pairedAt := t.pairedAt u
                                            lastConnected := some u.now })
  have hpair : t.pair u = t.insert written := pair_eq t u
  have hwritten : written ∈ (t.insert written).rows := KeyedTable.mem_insert.2 (.inr rfl)
  rw [hpair]
  constructor
  · rintro ⟨phone, hkept⟩
    obtain ⟨hmem, hrank⟩ := mem_deduplicate.1 hkept
    have hsame : (u.phoneId, phone) = written := KeyedTable.eq_of_key_eq hmem hwritten rfl
    rw [hsame] at hrank
    refine hrank.imp_right fun hfirst e he hne hkey => ?_
    have hother : e ∈ (t.insert written).rows := KeyedTable.mem_insert.2 (.inl ⟨he, hne⟩)
    exact PhoneEntry.rank_le_iff.1 (hfirst e hother hkey)
  · intro hfirst
    refine ⟨_, mem_deduplicate.2 ⟨hwritten, hfirst.imp_right fun hfirst e he hkey => ?_⟩⟩
    rcases KeyedTable.mem_insert.1 he with ⟨hmem, hne⟩ | rfl
    · exact PhoneEntry.rank_le_iff.2 (hfirst e hmem hne hkey)
    · exact le_rfl

/-- What loading makes of the phones does not depend on the order of the map, changes nothing the
second time, and keeps of each key the entry with the latest times. The phone that paired last
stays paired at the next load when no other phone with its key comes before it then. -/
theorem phones_deduplicated (t : PhoneTable) :
    (∀ t' : PhoneTable, t.rows.Perm t'.rows → t'.deduplicate = t.deduplicate) ∧
    (∀ t' : PhoneTable, t'.rows.Perm t.deduplicate.1.rows →
      t'.deduplicate = (t.deduplicate.1, false)) ∧
    (∀ e : PhoneEntry, e ∈ t.deduplicate.1.rows ↔ e ∈ t.rows ∧ (e.key = "" ∨
      ∀ other : PhoneEntry, other ∈ t.rows → other.key = e.key →
        other.recency < e.recency ∨ (other.recency = e.recency ∧ e.1 ≤ other.1))) ∧
    (∀ e : PhoneEntry, e ∈ t.rows → ∃ kept : PhoneEntry, kept ∈ t.deduplicate.1.rows ∧
      kept.key = e.key) ∧
    (t.deduplicate.2 = true ↔ ∃ e ∈ t.rows, e ∉ t.deduplicate.1.rows) ∧
    ∀ (calls : List PhoneUpsert) (u : PhoneUpsert), (∃ phone, (u.phoneId, phone) ∈
        ((calls ++ [u]).foldl pair t.deduplicate.1).deduplicate.1.rows) ↔
      (u.publicKeySpki = "" ∨ ∀ e : PhoneEntry, e ∈ (calls.foldl pair t.deduplicate.1).rows →
        e.1 ≠ u.phoneId → e.key = u.publicKeySpki →
          e.recency < toLex (u.now, (calls.foldl pair t.deduplicate.1).pairedAt u) ∨
          (e.recency = toLex (u.now, (calls.foldl pair t.deduplicate.1).pairedAt u) ∧
            u.phoneId ≤ e.1)) := by
  refine ⟨fun t' h => (deduplicate_perm h).symm, fun t' => deduplicate_deduplicate, ?_,
    fun e => exists_kept, deduplicate_changed, ?_⟩
  · intro e
    simp only [mem_deduplicate, PhoneEntry.rank_le_iff]
  · intro calls u
    rw [List.foldl_append]
    exact kept_iff _ u

/-- The clock was set back before the second pairing of the key: the phone that paired last goes. -/
theorem later_pairing_removed :
    ¬∀ (t : PhoneTable) (calls : List PhoneUpsert) (u : PhoneUpsert),
      ∃ phone, (u.phoneId, phone) ∈
        ((calls ++ [u]).foldl pair t.deduplicate.1).deduplicate.1.rows := by
  intro h
  let first : PhoneUpsert := ⟨"a", "Phone", "key", 100⟩
  let second : PhoneUpsert := ⟨"b", "Phone", "key", 50⟩
  let start : PhoneTable := KeyedTable.empty
  have hkept : (([first] ++ [second]).foldl pair start.deduplicate.1).deduplicate.1.rows =
      [("a", ⟨"Phone", "key", 100, some 100⟩)] := by
    decide
  obtain ⟨phone, hmem⟩ := h start [first] second
  rw [hkept] at hmem
  have hid : second.phoneId = first.phoneId := congrArg Prod.fst (List.mem_singleton.1 hmem)
  exact absurd hid (by decide)

end PhoneTable

end FlowType
