import Mathlib.Data.List.Infix
import Mathlib.Data.List.Sort
import Mathlib.Data.Nat.Digits.Defs
import FlowType.AdjacentDedup

/-! The addresses of the computer that a phone is told to try, and the endpoints made of them. -/
namespace FlowType

open AdjacentDedup

def PORT : Nat := 32187

structure Ipv4Addr where
  a : UInt8
  b : UInt8
  c : UInt8
  d : UInt8
  deriving DecidableEq, Repr

namespace Ipv4Addr

def isPrivate (address : Ipv4Addr) : Bool :=
  address.a == 10 || (address.a == 172 && decide (16 ≤ address.b ∧ address.b ≤ 31)) ||
    (address.a == 192 && address.b == 168)

def octet (n : UInt8) : List Char := Nat.toDigits 10 n.toNat

/-- `Display` of an address. -/
def display (address : Ipv4Addr) : List Char :=
  octet address.a ++ '.' :: octet address.b ++ '.' :: octet address.c ++ '.' :: octet address.d

variable {n m : UInt8} {sep : Char} {rest rest' : List Char}

theorem isDigit_of_mem_octet {c : Char} (h : c ∈ octet n) : c.isDigit = true :=
  Nat.isDigit_of_mem_toDigits (by decide) (by decide) h

theorem octet_inj (h : octet n = octet m) : n = m := by
  have hvalue : Nat.ofDigitChars 10 (octet n) 0 = Nat.ofDigitChars 10 (octet m) 0 := by rw [h]
  rw [octet, octet, Nat.ofDigitChars_ten_toDigits, Nat.ofDigitChars_ten_toDigits] at hvalue
  exact UInt8.toNat_inj.1 hvalue

theorem takeWhile_octet (hsep : sep.isDigit = false) :
    (octet n ++ sep :: rest).takeWhile Char.isDigit = octet n := by
  rw [List.takeWhile_append_of_pos fun _ hc => isDigit_of_mem_octet hc,
    List.takeWhile_cons_of_neg (by simp [hsep]), List.append_nil]

/-- What separates the octets is no digit. -/
theorem octet_append_inj (hsep : sep.isDigit = false)
    (h : octet n ++ sep :: rest = octet m ++ sep :: rest') : n = m ∧ rest = rest' := by
  have hdigits : octet n = octet m := by
    have hfront : (octet n ++ sep :: rest).takeWhile Char.isDigit = octet n := takeWhile_octet hsep
    rw [← hfront, h, takeWhile_octet hsep]
  rw [hdigits] at h
  exact ⟨octet_inj hdigits, (List.cons.inj (List.append_cancel_left h)).2⟩

theorem display_append_inj {x y : Ipv4Addr} (hsep : sep.isDigit = false)
    (h : x.display ++ sep :: rest = y.display ++ sep :: rest) : x = y := by
  have hdot : '.'.isDigit = false := rfl
  simp only [display, List.append_assoc, List.cons_append] at h
  obtain ⟨ha, h⟩ := octet_append_inj hdot h
  obtain ⟨hb, h⟩ := octet_append_inj hdot h
  obtain ⟨hc, h⟩ := octet_append_inj hdot h
  obtain ⟨hd, -⟩ := octet_append_inj hsep h
  cases x
  cases y
  rw [Ipv4Addr.mk.injEq]
  exact ⟨ha, hb, hc, hd⟩

end Ipv4Addr

/-- An adapter, under its friendly name, and one of its addresses. -/
abbrev AdapterAddress := List Char × Ipv4Addr

def toAsciiLowercase (text : List Char) : List Char := text.map Char.toLower

def contains (text : List Char) (part : String) : Bool := decide (part.toList <:+: text)

def addressScore (adapterName : List Char) (address : Ipv4Addr) : Int :=
  let name := toAsciiLowercase adapterName
  if contains name "tailscale" then 1000
  else if contains name "reachops" || contains name "rreachcontrol" then 120
  else if contains name "vEthernet" || contains name "vethernet" || contains name "hyper-v" ||
      contains name "wsl" || contains name "default switch" then 10
  else if contains name "ethernet" || contains name "wi-fi" || contains name "wifi" ||
      contains name "wlan" then 300
  else if address.isPrivate then 200 else 100

namespace AdapterAddress

def score (p : AdapterAddress) : Int := addressScore p.1 p.2

end AdapterAddress

def ranked (pairs : List AdapterAddress) : List AdapterAddress :=
  (pairs.filter fun p => decide (100 ≤ p.score)).insertionSort fun p q => q.score ≤ p.score

/-- `candidate_ipv4s`, of what `adapter_ipv4s` has found. -/
def candidateIpv4s (pairs : List AdapterAddress) : List Ipv4Addr :=
  ((dedupBy Prod.snd (ranked pairs)).map Prod.snd).take 6

def endpointUrl (address : Ipv4Addr) : List Char :=
  "wss://".toList ++ address.display ++ ':' :: Nat.toDigits 10 PORT ++ "/v1/sync".toList

theorem endpointUrl_eq (address : Ipv4Addr) : endpointUrl address =
    "wss://".toList ++ (address.display ++ ':' :: (Nat.toDigits 10 PORT ++ "/v1/sync".toList)) :=
  calc endpointUrl address
    _ = "wss://".toList ++ address.display ++ (':' :: Nat.toDigits 10 PORT ++ "/v1/sync".toList) :=
      List.append_assoc _ _ _
    _ = _ := List.append_assoc _ _ _

theorem endpointUrl_injective : Function.Injective endpointUrl := by
  intro x y h
  have hcolon : ':'.isDigit = false := rfl
  rw [endpointUrl_eq, endpointUrl_eq] at h
  exact Ipv4Addr.display_append_inj hcolon (List.append_cancel_left h)

def endpointUrls (primary : Option (List Char)) (pairs : List AdapterAddress) : List (List Char) :=
  dedupBy id (primary.toList ++ (candidateIpv4s pairs).map endpointUrl)

structure BestScore (pairs : List AdapterAddress) (address : Ipv4Addr) (s : Int) : Prop where
  reached : ∃ p ∈ pairs, p.2 = address ∧ AdapterAddress.score p = s
  le : ∀ p ∈ pairs, p.2 = address → AdapterAddress.score p ≤ s

structure Candidates (pairs : List AdapterAddress) (candidates : List Ipv4Addr) : Prop where
  length : candidates.length ≤ 6
  nodup : candidates.Nodup
  sorted : candidates.Pairwise fun x y => ∀ s t, BestScore pairs x s → BestScore pairs y t → t ≤ s
  complete : ∀ address s, BestScore pairs address s → 100 ≤ s →
    (∃ listed ∈ candidates, ∃ t, BestScore pairs listed t ∧ t < s) → address ∈ candidates

/-- What the endpoints should be. -/
structure Endpoints (primary : Option (List Char)) (endpoints : List (List Char)) : Prop where
  first : ∀ url, primary = some url → endpoints.head? = some url
  nodup : endpoints.Nodup

/-- The pair begins one of the first six runs of an address in the ranked list. -/
structure Listed (pairs front : List AdapterAddress) (p : AdapterAddress) : Prop where
  split : ∃ rest, ranked pairs = front ++ p :: rest
  begins : Begins Prod.snd front p
  short : runs Prod.snd front < 6

/-- No address that is listed comes back after another one, and the primary endpoint is not that of
an address that is listed behind the first one. -/
structure Grouped (primary : Option (List Char)) (pairs : List AdapterAddress) : Prop where
  once : ∀ front p, Listed pairs front p → ∀ q ∈ front, q.2 ≠ p.2
  primary : ∀ front p, Listed pairs front p → front ≠ [] → primary ≠ some (endpointUrl p.2)

variable {pairs front rest : List AdapterAddress} {p q : AdapterAddress} {address : Ipv4Addr}
  {primary : Option (List Char)} {s t : Int}

theorem mem_ranked : p ∈ ranked pairs ↔ p ∈ pairs ∧ 100 ≤ p.score := by
  rw [ranked, List.mem_insertionSort, List.mem_filter, decide_eq_true_iff]

theorem ranked_sorted (pairs : List AdapterAddress) :
    (ranked pairs).Pairwise fun p q => q.score ≤ p.score := by
  have htotal : Std.Total fun p q : AdapterAddress => q.score ≤ p.score :=
    ⟨fun p q => Int.le_total _ _⟩
  have htrans : IsTrans AdapterAddress fun p q => q.score ≤ p.score :=
    ⟨fun _ _ _ hpq hqr => hqr.trans hpq⟩
  exact List.pairwise_insertionSort _ _

/-- The pairs whose addresses are the candidates. -/
def kept (pairs : List AdapterAddress) : List AdapterAddress :=
  (dedupBy Prod.snd (ranked pairs)).take 6

theorem candidateIpv4s_eq (pairs : List AdapterAddress) :
    candidateIpv4s pairs = (kept pairs).map Prod.snd := by
  rw [candidateIpv4s, kept, List.map_take]

theorem kept_initial (pairs : List AdapterAddress) :
    kept pairs <+: dedupBy Prod.snd (ranked pairs) := List.take_prefix 6 _

theorem kept_sublist (pairs : List AdapterAddress) : (kept pairs).Sublist (ranked pairs) :=
  (kept_initial pairs).sublist.trans (dedupBy_sublist _)

/-- The pairs that are kept are those that begin the first runs. -/
theorem exists_kept_iff {before : List AdapterAddress} :
    (∃ after, kept pairs = before ++ p :: after) ↔
      ∃ front, Listed pairs front p ∧ dedupBy Prod.snd front = before := by
  constructor
  · rintro ⟨after, hkept⟩
    obtain ⟨dropped, hdropped⟩ := kept_initial pairs
    rw [hkept, List.append_assoc, List.cons_append] at hdropped
    obtain ⟨front, rest, hsplit, hbefore, hbegins⟩ := exists_begins hdropped.symm
    refine ⟨front, ⟨⟨rest, hsplit⟩, hbegins, ?_⟩, hbefore⟩
    have hlength : (kept pairs).length ≤ 6 := List.length_take_le 6 _
    rw [hkept, List.length_append, List.length_cons] at hlength
    rw [← length_dedupBy, hbefore]
    omega
  · rintro ⟨front, ⟨⟨rest, hsplit⟩, hbegins, hshort⟩, rfl⟩
    obtain ⟨after, hafter⟩ := hbegins.dedupBy_eq rest
    rw [← length_dedupBy] at hshort
    obtain ⟨room, hroom⟩ := Nat.exists_eq_add_of_lt hshort
    refine ⟨after.take room, ?_⟩
    rw [kept, hsplit, hafter, List.take_append, List.take_of_length_le (by omega)]
    have hone : 6 - (dedupBy Prod.snd front).length = room + 1 := by omega
    rw [hone, List.take_succ_cons]

theorem exists_listed (hp : p ∈ kept pairs) : ∃ front, Listed pairs front p := by
  obtain ⟨before, after, hkept⟩ := List.append_of_mem hp
  obtain ⟨front, hlisted, -⟩ := exists_kept_iff.1 ⟨after, hkept⟩
  exact ⟨front, hlisted⟩

/-- A pair whose address has not stood before it has the best score of its address. -/
theorem bestScore_of_once (hlisted : Listed pairs front p) (honce : ∀ q ∈ front, q.2 ≠ p.2) :
    BestScore pairs p.2 p.score := by
  obtain ⟨rest, hsplit⟩ := hlisted.split
  have hmem : p ∈ ranked pairs := by
    rw [hsplit]
    exact List.mem_append_right _ List.mem_cons_self
  obtain ⟨hpair, heligible⟩ := mem_ranked.1 hmem
  refine ⟨⟨p, hpair, rfl, rfl⟩, ?_⟩
  intro q hq hsame
  by_cases hscore : 100 ≤ q.score
  · have hranked : q ∈ ranked pairs := mem_ranked.2 ⟨hq, hscore⟩
    have hsorted := ranked_sorted pairs
    rw [hsplit] at hranked hsorted
    rcases List.mem_append.1 hranked with hfront | hback
    · exact absurd hsame (honce q hfront)
    · rcases List.mem_cons.1 hback with rfl | hrest
      · exact le_rfl
      · exact (List.pairwise_cons.1 (List.pairwise_append.1 hsorted).2.1).1 q hrest
  · omega

theorem BestScore.unique (hs : BestScore pairs address s) (ht : BestScore pairs address t) :
    s = t := by
  obtain ⟨p, hp, hpaddress, hps⟩ := hs.reached
  obtain ⟨q, hq, hqaddress, hqt⟩ := ht.reached
  have hle : s ≤ t := hps ▸ ht.le p hp hpaddress
  have hge : t ≤ s := hqt ▸ hs.le q hq hqaddress
  omega

/-- The candidates are pairwise different exactly when no listed address has stood before. -/
theorem candidates_nodup_iff :
    (candidateIpv4s pairs).Nodup ↔ ∀ front p, Listed pairs front p → ∀ q ∈ front, q.2 ≠ p.2 := by
  rw [candidateIpv4s_eq]
  constructor
  · intro hnodup front p hlisted q hq hsame
    obtain ⟨after, hkept⟩ := exists_kept_iff.2 ⟨front, hlisted, rfl⟩
    rw [hkept, List.map_append, List.map_cons] at hnodup
    have hbefore : q.2 ∈ (dedupBy Prod.snd front).map Prod.snd := key_mem_dedupBy hq
    exact (List.nodup_append.1 hnodup).2.2 q.2 hbefore p.2 List.mem_cons_self hsame
  · intro honce
    -- On the part of the list that has been kept so far.
    suffices hall : ∀ before after, kept pairs = before ++ after →
        (before.map Prod.snd).Nodup from hall _ [] (List.append_nil _).symm
    intro before
    induction before using List.reverseRecOn with
    | nil => exact fun _ _ => List.nodup_nil
    | append_singleton before p ih =>
      intro after hkept
      rw [List.append_assoc] at hkept
      obtain ⟨front, hlisted, hbefore⟩ := exists_kept_iff.1 ⟨after, hkept⟩
      rw [List.map_append, List.nodup_append]
      refine ⟨ih _ hkept, List.nodup_singleton _, ?_⟩
      intro x hx y hy
      obtain ⟨q, hq, rfl⟩ := List.mem_map.1 hx
      obtain rfl := List.mem_singleton.1 hy
      rw [← hbefore] at hq
      exact honce front p hlisted q ((dedupBy_sublist front).subset hq)

/-- An address that beats a listed one is listed. -/
theorem mem_candidates (hbest : BestScore pairs address s) (heligible : 100 ≤ s)
    (hlisted : q ∈ kept pairs) (hworse : q.score < s) : address ∈ candidateIpv4s pairs := by
  obtain ⟨p, hp, rfl, rfl⟩ := hbest.reached
  obtain ⟨front, rest, hsplit⟩ := List.append_of_mem (mem_ranked.2 ⟨hp, heligible⟩)
  have hsorted := ranked_sorted pairs
  -- Some pair with the address is kept of the list up to this pair, and none of these is worse.
  have hfront : p.2 ∈ (dedupBy Prod.snd (front ++ [p])).map Prod.snd :=
    key_mem_dedupBy (List.mem_append_right _ (List.mem_singleton_self p))
  obtain ⟨e : AdapterAddress, he, hsame⟩ := List.mem_map.1 hfront
  have hgood : p.score ≤ e.score := by
    rcases List.mem_append.1 ((dedupBy_sublist _).subset he) with hin | hlast
    · rw [hsplit] at hsorted
      exact (List.pairwise_append.1 hsorted).2.2 e hin p List.mem_cons_self
    · rw [List.mem_singleton.1 hlast]
  have hprefix : dedupBy Prod.snd (front ++ [p]) <+: dedupBy Prod.snd (ranked pairs) := by
    rw [hsplit, List.append_cons front p rest]
    exact dedupBy_prefix _ _
  have hin := hprefix.subset he
  rw [← List.take_append_drop 6 (dedupBy Prod.snd (ranked pairs))] at hin
  rw [candidateIpv4s_eq, ← hsame]
  rcases List.mem_append.1 hin with hkept | hdropped
  · exact List.mem_map_of_mem hkept
  · have hsublist : (dedupBy Prod.snd (ranked pairs)).Sublist (ranked pairs) := dedupBy_sublist _
    have hpairwise := hsorted.sublist hsublist
    rw [← List.take_append_drop 6 (dedupBy Prod.snd (ranked pairs))] at hpairwise
    have hle : e.score ≤ q.score := (List.pairwise_append.1 hpairwise).2.2 q hlisted e hdropped
    omega

theorem candidates_of_once
    (honce : ∀ front p, Listed pairs front p → ∀ q ∈ front, q.2 ≠ p.2) :
    Candidates pairs (candidateIpv4s pairs) where
  length := List.length_take_le 6 _
  nodup := candidates_nodup_iff.2 honce
  sorted := by
    rw [candidateIpv4s_eq, List.pairwise_map]
    refine ((ranked_sorted pairs).sublist (kept_sublist pairs)).imp_of_mem ?_
    intro p q hp hq hle s t hs ht
    obtain ⟨front, hlisted⟩ := exists_listed hp
    obtain ⟨front', hlisted'⟩ := exists_listed hq
    rw [hs.unique (bestScore_of_once hlisted (honce front p hlisted)),
      ht.unique (bestScore_of_once hlisted' (honce front' q hlisted'))]
    exact hle
  complete := by
    rintro address s hbest heligible ⟨other, hother, t, ht, hlt⟩
    rw [candidateIpv4s_eq] at hother
    obtain ⟨q : AdapterAddress, hq, rfl⟩ := List.mem_map.1 hother
    have hqpair : q ∈ pairs := (mem_ranked.1 ((kept_sublist pairs).subset hq)).1
    have hscore : q.score ≤ t := ht.le q hqpair rfl
    exact mem_candidates hbest heligible hq (by omega)

theorem candidates_iff : Candidates pairs (candidateIpv4s pairs) ↔
    ∀ front p, Listed pairs front p → ∀ q ∈ front, q.2 ≠ p.2 :=
  ⟨fun h => candidates_nodup_iff.1 h.nodup, candidates_of_once⟩

/-- The primary endpoint repeats a candidate when it is that of one behind the first. -/
theorem mem_tail_candidates_iff : address ∈ (candidateIpv4s pairs).tail ↔
    ∃ front p, Listed pairs front p ∧ front ≠ [] ∧ p.2 = address := by
  rw [candidateIpv4s_eq, ← List.map_tail, List.mem_map]
  constructor
  · rintro ⟨p, hp, rfl⟩
    obtain ⟨before, after, htail⟩ := List.append_of_mem hp
    cases hkept : kept pairs with
    | nil =>
      rw [hkept] at hp
      exact nomatch hp
    | cons first others =>
      rw [hkept, List.tail_cons] at htail
      rw [htail] at hkept
      have hbegins : ∃ after, kept pairs = (first :: before) ++ p :: after := ⟨after, hkept⟩
      obtain ⟨front, hlisted, hbefore⟩ := exists_kept_iff.1 hbegins
      refine ⟨front, p, hlisted, ?_, rfl⟩
      rintro rfl
      exact List.cons_ne_nil _ _ hbefore.symm
  · rintro ⟨front, p, hlisted, hfront, rfl⟩
    obtain ⟨after, hkept⟩ := exists_kept_iff.2 ⟨front, hlisted, rfl⟩
    refine ⟨p, ?_, rfl⟩
    cases hbefore : dedupBy Prod.snd front with
    | nil =>
      obtain ⟨q, hq⟩ := List.exists_mem_of_ne_nil _ hfront
      have hmem : q.2 ∈ (dedupBy Prod.snd front).map Prod.snd := key_mem_dedupBy hq
      rw [hbefore] at hmem
      exact nomatch hmem
    | cons first before =>
      rw [hkept, hbefore, List.cons_append, List.tail_cons]
      exact List.mem_append_right _ List.mem_cons_self

theorem endpointUrls_some (url : List Char) (h : (candidateIpv4s pairs).Nodup) :
    endpointUrls (some url) pairs =
      if ((candidateIpv4s pairs).map endpointUrl).head? = some url
      then (candidateIpv4s pairs).map endpointUrl
      else url :: (candidateIpv4s pairs).map endpointUrl :=
  dedupBy_cons_of_nodup (h.map endpointUrl_injective)

theorem endpointUrls_none (h : (candidateIpv4s pairs).Nodup) :
    endpointUrls none pairs = (candidateIpv4s pairs).map endpointUrl := by
  have hnodup : ((candidateIpv4s pairs).map endpointUrl).Nodup := h.map endpointUrl_injective
  rw [endpointUrls, Option.toList_none, List.nil_append]
  cases hurls : (candidateIpv4s pairs).map endpointUrl with
  | nil => rfl
  | cons url urls =>
    rw [hurls] at hnodup
    obtain ⟨hurl, hrest⟩ := List.nodup_cons.1 hnodup
    rw [dedupBy_cons_of_nodup hrest, if_neg]
    intro hhead
    exact hurl (List.mem_of_head? hhead)

theorem head?_endpointUrls (url : List Char) (pairs : List AdapterAddress) :
    (endpointUrls (some url) pairs).head? = some url := by
  have hprefix : dedupBy id [url] <+:
      dedupBy id ([url] ++ (candidateIpv4s pairs).map endpointUrl) := dedupBy_prefix _ _
  obtain ⟨rest, hrest⟩ := hprefix
  have hone : dedupBy id [url] = [url] := rfl
  rw [endpointUrls, Option.toList_some, ← hrest, hone]
  rfl

theorem endpointUrls_nodup_iff (h : (candidateIpv4s pairs).Nodup) :
    (endpointUrls primary pairs).Nodup ↔
      ∀ address ∈ (candidateIpv4s pairs).tail, primary ≠ some (endpointUrl address) := by
  have hnodup : ((candidateIpv4s pairs).map endpointUrl).Nodup := h.map endpointUrl_injective
  cases primary with
  | none =>
    rw [endpointUrls_none h]
    exact iff_of_true hnodup (fun _ _ heq => nomatch heq)
  | some url =>
    rw [endpointUrls_some url h]
    cases hcandidates : candidateIpv4s pairs with
    | nil => simp
    | cons first others =>
      rw [hcandidates, List.map_cons] at hnodup
      rw [List.map_cons, List.head?_cons, List.tail_cons]
      obtain ⟨hfirst, hothers⟩ := List.nodup_cons.1 hnodup
      split_ifs with hsame
      · obtain rfl := Option.some.inj hsame
        refine iff_of_true hnodup ?_
        intro address haddress heq
        apply hfirst
        rw [Option.some.inj heq]
        exact List.mem_map_of_mem haddress
      · have hne : url ≠ endpointUrl first := fun heq => hsame (congrArg some heq.symm)
        rw [List.nodup_cons, List.mem_cons, not_or, List.mem_map]
        constructor
        · rintro ⟨⟨-, habsent⟩, -⟩ address haddress heq
          exact habsent ⟨address, haddress, (Option.some.inj heq).symm⟩
        · intro habsent
          refine ⟨⟨hne, ?_⟩, hnodup⟩
          rintro ⟨address, haddress, rfl⟩
          exact habsent address haddress rfl

/-- The lists are as they should be exactly when the addresses are grouped. -/
theorem endpoints_iff_grouped (pairs : List AdapterAddress) (primary : Option (List Char)) :
    Candidates pairs (candidateIpv4s pairs) ∧ Endpoints primary (endpointUrls primary pairs) ↔
      Grouped primary pairs := by
  constructor
  · rintro ⟨hcandidates, hendpoints⟩
    have habsent := (endpointUrls_nodup_iff hcandidates.nodup).1 hendpoints.nodup
    refine ⟨candidates_iff.1 hcandidates, ?_⟩
    intro front p hlisted hfront
    exact habsent p.2 (mem_tail_candidates_iff.2 ⟨front, p, hlisted, hfront, rfl⟩)
  · intro hgrouped
    have hcandidates := candidates_iff.2 hgrouped.once
    refine ⟨hcandidates, ?_, (endpointUrls_nodup_iff hcandidates.nodup).2 ?_⟩
    · rintro url rfl
      exact head?_endpointUrls url pairs
    · intro address haddress
      obtain ⟨front, p, hlisted, hfront, rfl⟩ := mem_tail_candidates_iff.1 haddress
      exact hgrouped.primary front p hlisted hfront

/-- An address of two adapters is listed twice when that of another adapter ranks in between, and
a primary endpoint that is not the best one is listed twice. -/
theorem address_listed_twice :
    candidateIpv4s [("Tailscale".toList, ⟨192, 168, 1, 5⟩), ("Ethernet".toList, ⟨10, 0, 0, 7⟩),
        ("LAN".toList, ⟨192, 168, 1, 5⟩)] =
      [⟨192, 168, 1, 5⟩, ⟨10, 0, 0, 7⟩, ⟨192, 168, 1, 5⟩] ∧
    ¬ (candidateIpv4s [("Tailscale".toList, ⟨192, 168, 1, 5⟩), ("Ethernet".toList, ⟨10, 0, 0, 7⟩),
        ("LAN".toList, ⟨192, 168, 1, 5⟩)]).Nodup ∧
    ¬ (endpointUrls (some (endpointUrl ⟨10, 0, 0, 7⟩))
        [("Tailscale".toList, ⟨192, 168, 1, 5⟩), ("Ethernet".toList, ⟨10, 0, 0, 7⟩)]).Nodup := by
  decide

end FlowType
