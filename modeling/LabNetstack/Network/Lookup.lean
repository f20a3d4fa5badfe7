import Mathlib.Order.Fin.Basic
import LabNetstack.Network.Host

/-!
# The longest prefix

`queryRouteTable` keeps the match whose mask is the greatest number so far, and begins with 0. The
masks are kept in network order, so on a little-endian host a mask of 24 bits is `0x00ffffff`; still
a longer prefix is a greater number. But no mask is smaller than that of a default route: it is 0,
and is never found.

## Main results

* `strictMono_prefixMask` — the masks are ordered by their lengths
* `queryLoop_cases` — what the loop over a table leaves
* `longestPrefix_iff` — when the longest prefix is found
-/

namespace LabNetstack

/-! ### Masks -/

/-- The mask of the first `n` bits, in network order. -/
def prefixMask (n : ℕ) : IPAddr := htonl (BitVec.allOnes 32 <<< (32 - n))

/-- **Masks in network order.** A longer prefix is a greater number. -/
theorem strictMono_prefixMask : StrictMono fun n : Fin 33 => (prefixMask n).toNat := by
  rw [Fin.strictMono_iff_lt_succ]
  decide

theorem prefixMask_le_iff {m n : ℕ} (hm : m ≤ 32) (hn : n ≤ 32) :
    prefixMask m ≤ prefixMask n ↔ m ≤ n := by
  rw [BitVec.le_def]
  exact strictMono_prefixMask.le_iff_le (a := ⟨m, by omega⟩) (b := ⟨n, by omega⟩)

theorem prefixMask_zero : prefixMask 0 = 0 := by decide

/-- All masks are prefixes. -/
def Prefixes (table : List RouteEntry) : Prop := ∀ e ∈ table, ∃ n ≤ 32, e.mask = prefixMask n

/-! ### Matches -/

def RouteEntry.Matches (ip : IPAddr) (e : RouteEntry) : Prop := e.ipAddr = ip &&& e.mask
deriving Decidable

/-- A match with the longest prefix. -/
def Longest (ip : IPAddr) (table : List RouteEntry) (e : RouteEntry) : Prop :=
  e ∈ table ∧ e.Matches ip ∧ ∃ n ≤ 32, e.mask = prefixMask n ∧
    ∀ e' ∈ table, e'.Matches ip → ∃ n' ≤ n, e'.mask = prefixMask n'

/-- The first of the matches with the greatest mask. -/
def FirstLongest (ip : IPAddr) (table : List RouteEntry) (e : RouteEntry) : Prop :=
  ∃ before after, table = before ++ e :: after ∧ e.Matches ip ∧
    (∀ e' ∈ before, e'.Matches ip → e'.mask < e.mask) ∧
    ∀ e' ∈ after, e'.Matches ip → e'.mask ≤ e.mask

variable {ip : IPAddr} {table : List RouteEntry} {e : RouteEntry}

theorem FirstLongest.le (h : FirstLongest ip table e) :
    ∀ e' ∈ table, e'.Matches ip → e'.mask ≤ e.mask := by
  obtain ⟨before, after, rfl, -, hbefore, hafter⟩ := h
  intro e' he' hmatch
  rcases List.mem_append.mp he' with he' | he'
  · exact BitVec.le_of_lt (hbefore e' he' hmatch)
  · rcases List.mem_cons.mp he' with rfl | he'
    · exact BitVec.le_refl _
    · exact hafter e' he' hmatch

/-- The greatest mask is that of the longest prefix. -/
theorem longest_of_le (htable : Prefixes table) (he : e ∈ table) (hmatch : e.Matches ip)
    (hle : ∀ e' ∈ table, e'.Matches ip → e'.mask ≤ e.mask) : Longest ip table e := by
  obtain ⟨n, hn, hmask⟩ := htable e he
  refine ⟨he, hmatch, n, hn, hmask, fun e' he' hmatch' => ?_⟩
  obtain ⟨n', hn', hmask'⟩ := htable e' he'
  have hle' := hle e' he' hmatch'
  rw [hmask, hmask', prefixMask_le_iff hn' hn] at hle'
  exact ⟨n', hle', hmask'⟩

theorem FirstLongest.longest (htable : Prefixes table) (h : FirstLongest ip table e) :
    Longest ip table e := by
  have hle := h.le
  obtain ⟨before, after, rfl, hmatch, -⟩ := h
  exact longest_of_le htable (by simp) hmatch hle

/-! ### The query -/

/-- The variables of `queryRouteTable`, its two outputs among them. -/
structure Query where
  bestMask : IPAddr
  success : ℤ
  macAddr : MacAddr
  device : BitVec 64
deriving DecidableEq

/-- The body of the two loops. -/
def queryEntry (ip : IPAddr) (q : Query) (e : RouteEntry) : Query :=
  if e.ipAddr = ip &&& e.mask then
    if q.bestMask < e.mask then
      { bestMask := e.mask, macAddr := e.macAddr, device := e.device, success := 1 }
    else q
  else q

def queryLoop (ip : IPAddr) (table : List RouteEntry) (q : Query) : Query :=
  table.foldl (queryEntry ip) q

/-- `queryRouteTable` as it is called: with pointers to the two outputs. -/
def queryRouteTableTo (ip : IPAddr) (macAddr : MacAddr) (device : BitVec 64)
    (manRouteTable onlineRouteTable : List RouteEntry) : Query :=
  let q := queryLoop ip manRouteTable ⟨0, 0, macAddr, device⟩
  if q.success ≠ 0 then q else queryLoop ip onlineRouteTable q

theorem queryEntry_of_lt {q : Query} (hmatch : e.Matches ip) (hlt : q.bestMask < e.mask) :
    queryEntry ip q e = ⟨e.mask, 1, e.macAddr, e.device⟩ := by
  have hip : e.ipAddr = ip &&& e.mask := hmatch
  rw [queryEntry, if_pos hip, if_pos hlt]

theorem queryEntry_of_le {q : Query} (hle : e.Matches ip → e.mask ≤ q.bestMask) :
    queryEntry ip q e = q := by
  rw [queryEntry]
  split_ifs with hip hlt
  · exact absurd hlt (BitVec.not_lt.mpr (hle hip))
  · rfl
  · rfl

/-- **One loop** finds the first of the longest matches, if one is longer than what it begins with,
and else changes nothing. -/
theorem queryLoop_cases (ip : IPAddr) (table : List RouteEntry) (q : Query) :
    (queryLoop ip table q = q ∧ ∀ e ∈ table, e.Matches ip → e.mask ≤ q.bestMask) ∨
      ∃ e, FirstLongest ip table e ∧ q.bestMask < e.mask ∧
        queryLoop ip table q = ⟨e.mask, 1, e.macAddr, e.device⟩ := by
  induction table generalizing q with
  | nil => exact Or.inl ⟨rfl, by simp⟩
  | cons a table ih =>
    have hcons : queryLoop ip (a :: table) q = queryLoop ip table (queryEntry ip q a) := rfl
    rw [hcons]
    by_cases htaken : a.Matches ip ∧ q.bestMask < a.mask
    · rw [queryEntry_of_lt htaken.1 htaken.2]
      rcases ih ⟨a.mask, 1, a.macAddr, a.device⟩ with ⟨hsame, hle⟩ | ⟨e, hfirst, hlt, hfound⟩
      · exact Or.inr ⟨a, ⟨[], table, rfl, htaken.1, by simp, hle⟩, htaken.2, hsame⟩
      · obtain ⟨before, after, rfl, hmatch, hbefore, hafter⟩ := hfirst
        refine Or.inr ⟨e, ⟨a :: before, after, rfl, hmatch, ?_, hafter⟩,
          BitVec.lt_trans htaken.2 hlt, hfound⟩
        rintro e' he' hmatch'
        rcases List.mem_cons.mp he' with rfl | he'
        · exact hlt
        · exact hbefore e' he' hmatch'
    · have hskip : a.Matches ip → a.mask ≤ q.bestMask :=
        fun hmatch => BitVec.not_lt.mp fun hlt => htaken ⟨hmatch, hlt⟩
      rw [queryEntry_of_le hskip]
      rcases ih q with ⟨hsame, hle⟩ | ⟨e, hfirst, hlt, hfound⟩
      · refine Or.inl ⟨hsame, fun e' he' => ?_⟩
        rcases List.mem_cons.mp he' with rfl | he'
        · exact hskip
        · exact hle e' he'
      · obtain ⟨before, after, rfl, hmatch, hbefore, hafter⟩ := hfirst
        refine Or.inr ⟨e, ⟨a :: before, after, rfl, hmatch, fun e' he' => ?_, hafter⟩, hlt, hfound⟩
        rcases List.mem_cons.mp he' with rfl | he'
        · intro hmatch'
          have hle : e'.mask.toNat ≤ q.bestMask.toNat := hskip hmatch'
          exact hle.trans_lt hlt
        · exact hbefore e' he'

/-! ### The longest prefix -/

variable {man online : List RouteEntry} {macAddr : MacAddr} {device : BitVec 64}

/-- What a query is to leave, whose outputs were `macAddr` and `device` before. -/
structure LongestPrefix (ip : IPAddr) (man online : List RouteEntry) (macAddr : MacAddr)
    (device : BitVec 64) (q : Query) : Prop where
  success : q.success ≠ 0 ↔ ∃ e ∈ man ++ online, e.Matches ip
  manual : (∃ e ∈ man, e.Matches ip) →
    ∃ e, Longest ip man e ∧ q.macAddr = e.macAddr ∧ q.device = e.device
  online : (∀ e ∈ man, ¬ e.Matches ip) → (∃ e ∈ online, e.Matches ip) →
    ∃ e, Longest ip online e ∧ q.macAddr = e.macAddr ∧ q.device = e.device
  failure : q.success = 0 → q.macAddr = macAddr ∧ q.device = device

/-- A match that is not a default route. -/
def Routed (ip : IPAddr) (table : List RouteEntry) : Prop :=
  ∃ e ∈ table, e.Matches ip ∧ e.mask ≠ 0

/-- The table that decides has a match which is not a default route, or there is no match; or the
online table happens to lead where a default route of the manual one does. -/
def Findable (ip : IPAddr) (man online : List RouteEntry) : Prop :=
  Routed ip man ∨
    (∀ e ∈ man, ¬ e.Matches ip) ∧ (Routed ip online ∨ ∀ e ∈ online, ¬ e.Matches ip) ∨
    ∃ e ∈ man, e.Matches ip ∧ ∃ e', FirstLongest ip online e' ∧ e'.mask ≠ 0 ∧
      e'.macAddr = e.macAddr ∧ e'.device = e.device

/-- A table whose matches have no bit of a mask. -/
theorem not_routed (h : ∀ e ∈ table, e.Matches ip → e.mask ≤ 0) : ¬ Routed ip table := by
  rintro ⟨e, he, hmatch, hmask⟩
  have hle : e.mask.toNat ≤ 0 := h e he hmatch
  exact hmask (BitVec.eq_of_toNat_eq (Nat.le_zero.mp hle))

/-- There is one first match. -/
theorem FirstLongest.unique {e' : RouteEntry} (h : FirstLongest ip table e)
    (h' : FirstLongest ip table e') : e = e' := by
  -- of two, one would stand before the other
  have hbefore : ∀ {e e' : RouteEntry} {before after before' after' middle : List RouteEntry},
      before' = before ++ middle → e :: after = middle ++ e' :: after' → e.Matches ip →
      e'.Matches ip → (∀ k ∈ before', k.Matches ip → k.mask < e'.mask) →
      (∀ k ∈ after, k.Matches ip → k.mask ≤ e.mask) → e = e' := by
    intro e e' before after before' after' middle heq hcons hmatch hmatch' hlt hle
    cases middle with
    | nil => exact (List.cons.inj hcons).1
    | cons k middle =>
      obtain ⟨rfl, rfl⟩ := List.cons.inj hcons
      have hless : e.mask < e'.mask := hlt e (by simp [heq]) hmatch
      exact absurd hless (BitVec.not_lt.mpr (hle e' (by simp) hmatch'))
  obtain ⟨before, after, rfl, hmatch, hlt, hle⟩ := h
  obtain ⟨before', after', heq, hmatch', hlt', hle'⟩ := h'
  rcases List.append_eq_append_iff.mp heq with ⟨middle, hfirst, hcons⟩ | ⟨middle, hfirst, hcons⟩
  · exact hbefore hfirst hcons hmatch hmatch' hlt' hle
  · exact (hbefore hfirst hcons hmatch' hmatch hlt hle').symm

theorem FirstLongest.routed (h : FirstLongest ip table e) (hmask : (0 : IPAddr) < e.mask) :
    Routed ip table := by
  obtain ⟨before, after, rfl, hmatch, -⟩ := h
  exact ⟨e, by simp, hmatch, fun hzero => by rw [hzero] at hmask; exact absurd hmask (by decide)⟩

/-- The second table is asked when the first has nothing but default routes. -/
theorem queryRouteTableTo_cases (ip : IPAddr) (man online : List RouteEntry) (macAddr : MacAddr)
    (device : BitVec 64) :
    (∃ e, FirstLongest ip man e ∧ (0 : IPAddr) < e.mask ∧
      queryRouteTableTo ip macAddr device man online = ⟨e.mask, 1, e.macAddr, e.device⟩) ∨
    (∀ e ∈ man, e.Matches ip → e.mask ≤ 0) ∧
      ((∃ e, FirstLongest ip online e ∧ (0 : IPAddr) < e.mask ∧
        queryRouteTableTo ip macAddr device man online = ⟨e.mask, 1, e.macAddr, e.device⟩) ∨
      (∀ e ∈ online, e.Matches ip → e.mask ≤ 0) ∧
        queryRouteTableTo ip macAddr device man online = ⟨0, 0, macAddr, device⟩) := by
  rw [queryRouteTableTo]
  rcases queryLoop_cases ip man ⟨0, 0, macAddr, device⟩ with ⟨hsame, hman⟩ | ⟨e, hfirst, hlt, hq⟩
  · refine Or.inr ⟨hman, ?_⟩
    rw [hsame, if_neg fun hne => hne rfl]
    rcases queryLoop_cases ip online ⟨0, 0, macAddr, device⟩ with
      ⟨hsame', honline⟩ | ⟨e, hfirst, hlt, hq⟩
    · exact Or.inr ⟨honline, hsame'⟩
    · exact Or.inl ⟨e, hfirst, hlt, hq⟩
  · refine Or.inl ⟨e, hfirst, hlt, ?_⟩
    rw [hq, if_pos one_ne_zero]

/-- The manual table decides. -/
theorem longestPrefix_manual (hman : Prefixes man) (hfirst : FirstLongest ip man e) :
    LongestPrefix ip man online macAddr device ⟨e.mask, 1, e.macAddr, e.device⟩ := by
  have hmem : e ∈ man := (hfirst.longest hman).1
  have hmatch : e.Matches ip := (hfirst.longest hman).2.1
  refine ⟨?_, fun _ => ⟨e, hfirst.longest hman, rfl, rfl⟩, ?_, ?_⟩
  · exact iff_of_true one_ne_zero ⟨e, List.mem_append_left _ hmem, hmatch⟩
  · exact fun hnone => absurd hmatch (hnone e hmem)
  · exact fun hzero => absurd hzero one_ne_zero

/-- The manual table has default routes at most, and the online table decides. -/
theorem longestPrefix_online_iff (hman : Prefixes man) (honline : Prefixes online)
    (hdefault : ∀ e ∈ man, e.Matches ip → e.mask ≤ 0) (hfirst : FirstLongest ip online e)
    (hlt : (0 : IPAddr) < e.mask) :
    LongestPrefix ip man online macAddr device ⟨e.mask, 1, e.macAddr, e.device⟩ ↔
      Findable ip man online := by
  have hmem : e ∈ online := (hfirst.longest honline).1
  have hmatch : e.Matches ip := (hfirst.longest honline).2.1
  have hmask : e.mask ≠ 0 := by
    intro hzero
    rw [hzero] at hlt
    exact absurd hlt (by decide)
  constructor
  · intro h
    by_cases hsome : ∃ e ∈ man, e.Matches ip
    · obtain ⟨e', hlongest, hmac, hdevice⟩ := h.manual hsome
      exact Or.inr (Or.inr ⟨e', hlongest.1, hlongest.2.1, e, hfirst, hmask, hmac, hdevice⟩)
    · refine Or.inr (Or.inl ⟨fun e' he' hmatch' => hsome ⟨e', he', hmatch'⟩, Or.inl ?_⟩)
      exact hfirst.routed hlt
  · intro hfind
    refine ⟨iff_of_true one_ne_zero ⟨e, List.mem_append_right _ hmem, hmatch⟩, ?_,
      fun _ _ => ⟨e, hfirst.longest honline, rfl, rfl⟩, fun hzero => absurd hzero one_ne_zero⟩
    rintro ⟨e₀, he₀, hmatch₀⟩
    rcases hfind with hrouted | ⟨hnone, -⟩ | ⟨e₁, he₁, hmatch₁, e', hfirst', -, hmac, hdevice⟩
    · exact absurd hrouted (not_routed hdefault)
    · exact absurd hmatch₀ (hnone e₀ he₀)
    · obtain rfl := hfirst.unique hfirst'
      refine ⟨e₁, longest_of_le hman he₁ hmatch₁ fun e' he' hmatch' => ?_, hmac, hdevice⟩
      exact BitVec.le_trans (hdefault e' he' hmatch') (Nat.zero_le _)

/-- Both have default routes at most. -/
theorem longestPrefix_none_iff (hdefault : ∀ e ∈ man, e.Matches ip → e.mask ≤ 0)
    (hdefault' : ∀ e ∈ online, e.Matches ip → e.mask ≤ 0) :
    LongestPrefix ip man online macAddr device ⟨0, 0, macAddr, device⟩ ↔
      Findable ip man online := by
  constructor
  · intro h
    have hnone : ∀ e ∈ man ++ online, ¬ e.Matches ip :=
      fun e he hmatch => h.success.mpr ⟨e, he, hmatch⟩ rfl
    exact Or.inr (Or.inl ⟨fun e he => hnone e (List.mem_append_left _ he),
      Or.inr fun e he => hnone e (List.mem_append_right _ he)⟩)
  · intro hfind
    rcases hfind with hrouted | ⟨hnone, hrouted | hnone'⟩ | ⟨-, -, -, e', hfirst, hmask, -⟩
    · exact absurd hrouted (not_routed hdefault)
    · exact absurd hrouted (not_routed hdefault')
    · refine ⟨iff_of_false (fun hne => hne rfl) ?_, fun ⟨e, he, hmatch⟩ => ?_,
        fun _ ⟨e, he, hmatch⟩ => ?_, fun _ => ⟨rfl, rfl⟩⟩
      · rintro ⟨e, he, hmatch⟩
        exact (List.mem_append.mp he).elim (fun he => hnone e he hmatch)
          fun he => hnone' e he hmatch
      · exact absurd hmatch (hnone e he)
      · exact absurd hmatch (hnone' e he)
    · obtain ⟨before, after, rfl, hmatch, -⟩ := hfirst
      exact absurd ⟨e', by simp, hmatch, hmask⟩ (not_routed hdefault')

/-- **The longest prefix** is found exactly if the table that decides has a match which is not a
default route, or there is none to be found. -/
theorem longestPrefix_iff (hman : Prefixes man) (honline : Prefixes online) :
    LongestPrefix ip man online macAddr device
      (queryRouteTableTo ip macAddr device man online) ↔ Findable ip man online := by
  rcases queryRouteTableTo_cases ip man online macAddr device with
    ⟨e, hfirst, hlt, hq⟩ | ⟨hdefault, ⟨e, hfirst, hlt, hq⟩ | ⟨hdefault', hq⟩⟩
  · rw [hq]
    exact iff_of_true (longestPrefix_manual hman hfirst) (Or.inl (hfirst.routed hlt))
  · rw [hq]
    exact longestPrefix_online_iff hman honline hdefault hfirst hlt
  · rw [hq]
    exact longestPrefix_none_iff hdefault hdefault'

/-- Two routes that overlap, of 16 and of 24 bits. -/
def overlapping : List RouteEntry :=
  [⟨0x0301, prefixMask 16, 1, 0, BROAD_MAC⟩, ⟨0x050301, prefixMask 24, 2, 0, BROAD_MAC⟩]

theorem longestPrefix_iff_overlapping :
    LongestPrefix 0x07050301 overlapping [] BROAD_MAC 0
        (queryRouteTableTo 0x07050301 BROAD_MAC 0 overlapping []) ↔
      Findable 0x07050301 overlapping [] := by
  refine longestPrefix_iff (fun e he => ?_) (by simp [Prefixes])
  rcases List.mem_cons.mp he with rfl | he
  · exact ⟨16, by decide, rfl⟩
  · rw [List.mem_singleton.mp he]
    exact ⟨24, by decide, rfl⟩

/-- A default route is not found. -/
theorem not_longestPrefix : ¬ ∀ (ip : IPAddr) (man online : List RouteEntry) (macAddr : MacAddr)
    (device : BitVec 64), Prefixes man → Prefixes online →
      LongestPrefix ip man online macAddr device
        (queryRouteTableTo ip macAddr device man online) := by
  intro hclaim
  have hprefixes : Prefixes [⟨0, 0, 1, 0, BROAD_MAC⟩] := by
    intro e he
    rw [List.mem_singleton.mp he]
    exact ⟨0, Nat.zero_le _, prefixMask_zero.symm⟩
  have hfound := (hclaim 0x07050301 [⟨0, 0, 1, 0, BROAD_MAC⟩] [] BROAD_MAC 0 hprefixes
    (by simp [Prefixes])).success.mpr ⟨_, List.mem_cons_self, by decide⟩
  exact hfound (by decide)

/-! ### The tables of a host -/

/-- The variables when the loop of `bestMatch` has come to `best`. -/
def Query.ofBest (macAddr : MacAddr) (device : BitVec 64) : IPAddr × Option RouteEntry → Query
  | (bestMask, none) => ⟨bestMask, 0, macAddr, device⟩
  | (bestMask, some e) => ⟨bestMask, 1, e.macAddr, e.device⟩

theorem queryLoop_eq_bestMatch (ip : IPAddr) (table : List RouteEntry) (macAddr : MacAddr)
    (device : BitVec 64) : ∃ bestMask, queryLoop ip table ⟨0, 0, macAddr, device⟩
      = Query.ofBest macAddr device (bestMask, bestMatch ip table) := by
  let body (best : IPAddr × Option RouteEntry) (e : RouteEntry) : IPAddr × Option RouteEntry :=
    if e.ipAddr = ip &&& e.mask then if best.1 < e.mask then (e.mask, some e) else best else best
  have hbody : ∀ best e, queryEntry ip (Query.ofBest macAddr device best) e
      = Query.ofBest macAddr device (body best e) := by
    rintro ⟨bestMask, best⟩ e
    have hmask : (Query.ofBest macAddr device (bestMask, best)).bestMask = bestMask := by
      cases best <;> rfl
    simp only [queryEntry, hmask, body]
    split_ifs <;> rfl
  have hloop : table.foldl (queryEntry ip) (Query.ofBest macAddr device (0, none))
      = Query.ofBest macAddr device (table.foldl body (0, none)) :=
    List.foldl_hom (Query.ofBest macAddr device) hbody
  exact ⟨(table.foldl body (0, none)).1, hloop⟩

/-- `queryRouteTable` gives the outputs where it has found something. -/
theorem queryRouteTable_eq {τ : Type*} (host : Host τ) (ip : IPAddr) (macAddr : MacAddr)
    (device : BitVec 64) :
    let q := queryRouteTableTo ip macAddr device host.manRouteTable host.onlineRouteTable
    queryRouteTable host ip = if q.success ≠ 0 then some (q.macAddr, q.device) else none := by
  obtain ⟨bestMask, hman⟩ := queryLoop_eq_bestMatch ip host.manRouteTable macAddr device
  obtain ⟨bestMask', honline⟩ := queryLoop_eq_bestMatch ip host.onlineRouteTable macAddr device
  rw [queryRouteTableTo, queryRouteTable, hman]
  cases hbest : bestMatch ip host.manRouteTable with
  | some e => rfl
  | none =>
    have hfirst : queryLoop ip host.manRouteTable ⟨0, 0, macAddr, device⟩
        = ⟨0, 0, macAddr, device⟩ := by
      rcases queryLoop_cases ip host.manRouteTable ⟨0, 0, macAddr, device⟩ with
        ⟨hsame, -⟩ | ⟨e, -, -, hfound⟩
      · exact hsame
      · rw [hman, hbest] at hfound
        exact absurd (congrArg Query.success hfound) (by simp [Query.ofBest])
    rw [hbest] at hman
    rw [← hman, hfirst]
    simp only [honline]
    cases bestMatch ip host.onlineRouteTable with
    | some e => rfl
    | none => rfl

end LabNetstack
