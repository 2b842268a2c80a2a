import Fips.Node.RecentPeers

/-!
# The recent-peer cache is closed under its updates

`Valid` is what the parser checks: a parsed cache is valid, a valid cache parses to itself, and an
observation or a pruning of a valid cache gives a valid one.
-/

namespace Fips
open Exec UnitStrings

variable {P : Platform}

structure RecentPeer.Valid (P : Platform) (p : RecentPeer) : Prop where
  safe : (p.last_authenticated_at_ms : Int) ≤ SAFE_INTEGER_MAX
  few : p.endpoints.length ≤ RECENT_PEERS_MAX_ENDPOINTS
  notNewer : ∀ e ∈ p.endpoints, e.last_authenticated_at_ms ≤ p.last_authenticated_at_ms
  reusable : ∀ e ∈ p.endpoints, (parseSocketAddr P e.addr).isSome = true
  distinct : (p.endpoints.map fun e => parseSocketAddr P e.addr).Nodup

structure RecentPeers.Valid (P : Platform) (r : RecentPeers) : Prop where
  npub : isCanonicalNpub P r.local_npub = true
  few : r.peers.length ≤ RECENT_PEERS_MAX_PEERS
  nodup : r.peers.Nodup
  remote : ∀ e ∈ r.peers, isCanonicalNpub P e.1 = true ∧ e.1 ≠ r.local_npub
  peer : ∀ e ∈ r.peers, e.2.Valid P

/-! ## The checks -/

theorem requireString_eq_ok {value : JsValue} {label : String} {s : UnitString} :
    requireString value label = .ok s ↔ value = .str s := by
  unfold requireString
  split
  · simp
  · rename_i hne
    constructor
    · rintro ⟨⟩
    · intro h
      exact absurd h (hne s)

theorem requireTimestamp_eq_ok {value : JsValue} {label : String} {n : Nat} :
    requireTimestamp value label = .ok n ↔ value = .num n ∧ (n : Int) ≤ SAFE_INTEGER_MAX := by
  unfold requireTimestamp
  split
  · rename_i z
    by_cases hz : 0 ≤ z ∧ z ≤ SAFE_INTEGER_MAX
    · rw [if_pos hz]
      constructor
      · rintro ⟨⟩
        rw [Int.toNat_of_nonneg hz.1]
        exact ⟨rfl, hz.2⟩
      · rintro ⟨heq, -⟩
        rw [JsValue.num.inj heq, Int.toNat_natCast]
    · rw [if_neg hz]
      constructor
      · rintro ⟨⟩
      · rintro ⟨heq, hsafe⟩
        rw [JsValue.num.inj heq] at hz
        exact absurd ⟨Int.natCast_nonneg n, hsafe⟩ hz
  · rename_i hne
    constructor
    · rintro ⟨⟩
    · rintro ⟨heq, -⟩
      exact absurd heq (hne n)

theorem requireCanonicalNpub_eq_ok {value : JsValue} {label : String} {npub : UnitString} :
    requireCanonicalNpub P value label = .ok npub ↔ value = .str npub ∧ isCanonicalNpub P npub = true := by
  unfold requireCanonicalNpub
  rw [except_bind_eq_ok]
  constructor
  · rintro ⟨s, hs, h⟩
    split at h
    · rename_i hc
      cases h
      exact ⟨requireString_eq_ok.1 hs, hc⟩
    · cases h
  · rintro ⟨hv, hc⟩
    exact ⟨npub, requireString_eq_ok.2 hv, by rw [if_pos hc]; rfl⟩

theorem addrKey_eq_ok {label : String} {addr key : UnitString} :
    addrKey P label addr = .ok key ↔ parseSocketAddr P addr = some key := by
  unfold addrKey
  constructor
  · intro h
    rcases hr : requireReusableUdpSocketAddr P addr label with e | parsed
    · rw [hr] at h
      cases h
    · rw [hr] at h
      cases h
      exact (requireReusableUdpSocketAddr_eq_ok.1 hr).1
  · intro h
    have hr : requireReusableUdpSocketAddr P addr label = .ok ⟨addr, key, key⟩ :=
      requireReusableUdpSocketAddr_eq_ok.2 ⟨h, rfl⟩
    rw [hr]
    rfl

/-- The keys of endpoints that are all reusable. -/
theorem mapM_addrKey {label : String} {endpoints : List RecentPeerEndpoint} {keys : List UnitString} :
    (endpoints.mapM fun e => addrKey P label e.addr) = .ok keys ↔
      (endpoints.map fun e => parseSocketAddr P e.addr) = keys.map some := by
  induction endpoints generalizing keys with
  | nil =>
    cases keys with
    | nil => simp
    | cons key keys => simp
  | cons e endpoints ih =>
    rw [List.mapM_cons, except_bind_eq_ok]
    constructor
    · rintro ⟨key, hkey, h⟩
      obtain ⟨rest, hrest, heq⟩ := except_bind_eq_ok.1 h
      cases heq
      rw [List.map_cons, List.map_cons, addrKey_eq_ok.1 hkey, ih.1 hrest]
    · intro h
      cases keys with
      | nil => simp at h
      | cons key keys =>
        rw [List.map_cons, List.map_cons, List.cons.injEq] at h
        exact ⟨key, addrKey_eq_ok.2 h.1, except_bind_eq_ok.2 ⟨keys, ih.2 h.2, rfl⟩⟩

/-! ## What is parsed is valid -/

theorem parseRecentPeerEndpoint_eq_ok {limit : Nat} {value : JsValue} {e : RecentPeerEndpoint}
    (h : parseRecentPeerEndpoint P limit value = .ok e) :
    e.last_authenticated_at_ms ≤ limit ∧ (parseSocketAddr P e.addr).isSome = true := by
  unfold parseRecentPeerEndpoint at h
  obtain ⟨endpoint, -, h⟩ := except_bind_eq_ok.1 h
  obtain ⟨-, -, h⟩ := except_bind_eq_ok.1 h
  split at h
  · cases h
  obtain ⟨addr, -, h⟩ := except_bind_eq_ok.1 h
  obtain ⟨parsed, hparsed, h⟩ := except_bind_eq_ok.1 h
  obtain ⟨timestamp, -, h⟩ := except_bind_eq_ok.1 h
  split at h
  · cases h
  rename_i hle
  cases h
  obtain ⟨hkey, heq⟩ := requireReusableUdpSocketAddr_eq_ok.1 hparsed
  rw [heq]
  exact ⟨Nat.not_lt.1 hle, by rw [hkey]; rfl⟩

theorem mapM_parseRecentPeerEndpoint {limit : Nat} {items : List JsValue} {endpoints : List RecentPeerEndpoint}
    (h : items.mapM (parseRecentPeerEndpoint P limit) = .ok endpoints) : endpoints.length = items.length ∧
      ∀ e ∈ endpoints, e.last_authenticated_at_ms ≤ limit ∧ (parseSocketAddr P e.addr).isSome = true := by
  induction items generalizing endpoints with
  | nil =>
    cases h
    simp
  | cons item items ih =>
    rw [List.mapM_cons] at h
    obtain ⟨e, he, h⟩ := except_bind_eq_ok.1 h
    obtain ⟨rest, hrest, heq⟩ := except_bind_eq_ok.1 h
    cases heq
    obtain ⟨hlen, hall⟩ := ih hrest
    refine ⟨by rw [List.length_cons, List.length_cons, hlen], ?_⟩
    intro e' he'
    rcases List.mem_cons.1 he' with rfl | he'
    · exact parseRecentPeerEndpoint_eq_ok he
    · exact hall e' he'

theorem parseRecentPeer_eq_ok {value : JsValue} {p : RecentPeer} (h : parseRecentPeer P value = .ok p) : p.Valid P := by
  unfold parseRecentPeer at h
  obtain ⟨peer, -, h⟩ := except_bind_eq_ok.1 h
  obtain ⟨-, -, h⟩ := except_bind_eq_ok.1 h
  obtain ⟨timestamp, htimestamp, h⟩ := except_bind_eq_ok.1 h
  split at h
  · rename_i items hitems
    split at h
    · cases h
    rename_i hfew
    obtain ⟨endpoints, hendpoints, h⟩ := except_bind_eq_ok.1 h
    obtain ⟨addresses, haddresses, h⟩ := except_bind_eq_ok.1 h
    split at h
    · cases h
    rename_i hdistinct
    cases h
    obtain ⟨hlen, hall⟩ := mapM_parseRecentPeerEndpoint hendpoints
    have hkeys := mapM_addrKey.1 haddresses
    refine ⟨(requireTimestamp_eq_ok.1 htimestamp).2, ?_, fun e he => (hall e he).1, fun e he => (hall e he).2, ?_⟩
    · show endpoints.length ≤ _
      rw [hlen]
      exact Nat.not_lt.1 hfew
    · show (endpoints.map fun e => parseSocketAddr P e.addr).Nodup
      rw [hkeys]
      refine List.Nodup.map (Option.some_injective _) ?_
      have hlength : addresses.length = endpoints.length := by
        have := congrArg List.length hkeys
        simpa using this.symm
      rw [not_not, ← hlength] at hdistinct
      exact List.dedup_eq_self.1 ((List.dedup_sublist addresses).eq_of_length hdistinct)
  · cases h

theorem parsePeerEntry_eq_ok {localNpub : UnitString} {peers peers' : JsMap UnitString RecentPeer}
    {entry : UnitString × JsValue} (h : parsePeerEntry P localNpub peers entry = .ok peers') :
    ∃ p, p.Valid P ∧ isCanonicalNpub P entry.1 = true ∧ entry.1 ≠ localNpub ∧ peers' = peers.set entry.1 p := by
  unfold parsePeerEntry at h
  obtain ⟨remoteNpub, hremote, h⟩ := except_bind_eq_ok.1 h
  obtain ⟨hstr, hcanonical⟩ := requireCanonicalNpub_eq_ok.1 hremote
  cases JsValue.str.inj hstr
  split at h
  · cases h
  rename_i hne
  obtain ⟨p, hp, heq⟩ := except_bind_eq_ok.1 h
  cases heq
  exact ⟨p, parseRecentPeer_eq_ok hp, hcanonical, hne, rfl⟩

theorem foldlM_parsePeerEntry {localNpub : UnitString} {entries : List (UnitString × JsValue)}
    {peers peers' : JsMap UnitString RecentPeer} (h : entries.foldlM (parsePeerEntry P localNpub) peers = .ok peers')
    (hnodup : peers.Nodup)
    (hpeers : ∀ e ∈ peers, (isCanonicalNpub P e.1 = true ∧ e.1 ≠ localNpub) ∧ e.2.Valid P) :
    peers'.length ≤ peers.length + entries.length ∧ peers'.Nodup ∧
      ∀ e ∈ peers', (isCanonicalNpub P e.1 = true ∧ e.1 ≠ localNpub) ∧ e.2.Valid P := by
  induction entries generalizing peers with
  | nil =>
    cases h
    exact ⟨Nat.le_refl _, hnodup, hpeers⟩
  | cons entry entries ih =>
    rw [List.foldlM_cons] at h
    obtain ⟨middle, hmiddle, h⟩ := except_bind_eq_ok.1 h
    obtain ⟨p, hvalid, hcanonical, hne, rfl⟩ := parsePeerEntry_eq_ok hmiddle
    have hset : ∀ e ∈ peers.set entry.1 p, (isCanonicalNpub P e.1 = true ∧ e.1 ≠ localNpub) ∧ e.2.Valid P := by
      intro e he
      rcases JsMap.mem_set he with rfl | he
      · exact ⟨⟨hcanonical, hne⟩, hvalid⟩
      · exact hpeers e he
    obtain ⟨hlen, hrest⟩ := ih h (hnodup.set _ _) hset
    refine ⟨?_, hrest⟩
    have hle := @JsMap.length_set_le _ _ _ peers entry.1 p
    rw [List.length_cons]
    omega

theorem parseRecentPeers_eq_ok {value expectedLocalNpub expectedScope : JsValue} {r : RecentPeers}
    (h : parseRecentPeers P value expectedLocalNpub expectedScope = .ok r) :
    r.Valid P ∧ expectedLocalNpub = .str r.local_npub ∧ expectedScope = .str r.scope ∧
      value.property "local_npub" = .str r.local_npub ∧ value.property "scope" = .str r.scope := by
  unfold parseRecentPeers at h
  obtain ⟨npub, hnpub, h⟩ := except_bind_eq_ok.1 h
  obtain ⟨scope, hscope, h⟩ := except_bind_eq_ok.1 h
  obtain ⟨root, hroot, h⟩ := except_bind_eq_ok.1 h
  obtain ⟨-, -, h⟩ := except_bind_eq_ok.1 h
  split at h
  · split at h
    · cases h
    obtain ⟨localNpub, hlocal, h⟩ := except_bind_eq_ok.1 h
    split at h
    · cases h
    rename_i hsame
    obtain ⟨scope', hscope', h⟩ := except_bind_eq_ok.1 h
    split at h
    · cases h
    rename_i hsameScope
    obtain ⟨entries, hentries, h⟩ := except_bind_eq_ok.1 h
    split at h
    · cases h
    rename_i hfew
    obtain ⟨peers, hpeers, heq⟩ := except_bind_eq_ok.1 h
    cases heq
    obtain ⟨hexpected, hcanonical⟩ := requireCanonicalNpub_eq_ok.1 hnpub
    obtain ⟨hlocal, -⟩ := requireCanonicalNpub_eq_ok.1 hlocal
    rw [not_not] at hsame hsameScope
    subst hsame hsameScope
    obtain ⟨hlen, hnodup, hall⟩ := foldlM_parsePeerEntry hpeers List.nodup_nil (by simp)
    have hobject : ∃ plain, value = .object plain root := by
      unfold requireRecord at hroot
      split at hroot
      · cases hroot
        exact ⟨true, rfl⟩
      · cases hroot
      · cases hroot
    obtain ⟨plain, rfl⟩ := hobject
    rw [List.length_nil, Nat.zero_add] at hlen
    exact ⟨⟨hcanonical, hlen.trans (Nat.not_lt.1 hfew), hnodup, fun e he => (hall e he).1, fun e he => (hall e he).2⟩,
      hexpected, requireString_eq_ok.1 hscope, hlocal, requireString_eq_ok.1 hscope'⟩
  · cases h

/-! ## A valid cache parses to itself -/

theorem parseRecentPeerEndpoint_toValue {limit : Nat} {e : RecentPeerEndpoint}
    (hlimit : e.last_authenticated_at_ms ≤ limit) (hsafe : (e.last_authenticated_at_ms : Int) ≤ SAFE_INTEGER_MAX)
    (hreusable : (parseSocketAddr P e.addr).isSome = true) : parseRecentPeerEndpoint P limit e.toValue = .ok e := by
  obtain ⟨key, hkey⟩ := Option.isSome_iff_exists.1 hreusable
  let fields : List (UnitString × JsValue) := [(js "transport", .str (js "udp")), (js "addr", .str e.addr),
    (js "last_authenticated_at_ms", .num e.last_authenticated_at_ms)]
  have hkeys : requireExactKeys fields ["transport", "addr", "last_authenticated_at_ms"] "recent peer endpoint" = .ok () :=
    rfl
  have htransport : (property fields "transport").isString (js "udp") = true := rfl
  have haddr : requireString (property fields "addr") "recent peer endpoint addr" = .ok e.addr := rfl
  have hparsed : requireReusableUdpSocketAddr P e.addr "recent peer endpoint addr" = .ok ⟨e.addr, key, key⟩ :=
    requireReusableUdpSocketAddr_eq_ok.2 ⟨hkey, rfl⟩
  have htimestamp : requireTimestamp (property fields "last_authenticated_at_ms")
      "recent peer endpoint last_authenticated_at_ms" = .ok e.last_authenticated_at_ms :=
    requireTimestamp_eq_ok.2 ⟨rfl, hsafe⟩
  show parseRecentPeerEndpoint P limit (.object true fields) = .ok e
  unfold parseRecentPeerEndpoint requireRecord
  simp only [ok_bind, hkeys, htransport, haddr, hparsed, htimestamp]
  rw [if_neg (by rintro ⟨⟩), if_neg (Nat.not_lt.2 hlimit)]
  rfl

theorem mapM_toValue {limit : Nat} {endpoints : List RecentPeerEndpoint}
    (h : ∀ e ∈ endpoints, parseRecentPeerEndpoint P limit e.toValue = .ok e) :
    (endpoints.map RecentPeerEndpoint.toValue).mapM (parseRecentPeerEndpoint P limit) = .ok endpoints := by
  induction endpoints with
  | nil => rfl
  | cons e endpoints ih =>
    rw [List.map_cons, List.mapM_cons, h e List.mem_cons_self, ih fun e' he' => h e' (List.mem_cons_of_mem _ he')]
    rfl

/-- Endpoints that are all reusable have keys. -/
theorem exists_keys {endpoints : List RecentPeerEndpoint} (h : ∀ e ∈ endpoints, (parseSocketAddr P e.addr).isSome = true) :
    ∃ keys : List UnitString, (endpoints.map fun e => parseSocketAddr P e.addr) = keys.map some := by
  induction endpoints with
  | nil => exact ⟨[], rfl⟩
  | cons e endpoints ih =>
    obtain ⟨keys, hkeys⟩ := ih fun e' he' => h e' (List.mem_cons_of_mem _ he')
    obtain ⟨key, hkey⟩ := Option.isSome_iff_exists.1 (h e List.mem_cons_self)
    exact ⟨key :: keys, by rw [List.map_cons, List.map_cons, hkey, hkeys]⟩

theorem parseRecentPeer_toValue {p : RecentPeer} (h : p.Valid P) : parseRecentPeer P p.toValue = .ok p := by
  let fields : List (UnitString × JsValue) := [(js "last_authenticated_at_ms", .num p.last_authenticated_at_ms),
    (js "endpoints", .array (p.endpoints.map RecentPeerEndpoint.toValue))]
  have hkeys : requireExactKeys fields ["last_authenticated_at_ms", "endpoints"] "recent peer" = .ok () := rfl
  have htimestamp : requireTimestamp (property fields "last_authenticated_at_ms") "recent peer last_authenticated_at_ms"
      = .ok p.last_authenticated_at_ms := requireTimestamp_eq_ok.2 ⟨rfl, h.safe⟩
  have hendpoints : property fields "endpoints" = .array (p.endpoints.map RecentPeerEndpoint.toValue) := rfl
  have hitems : (p.endpoints.map RecentPeerEndpoint.toValue).mapM (parseRecentPeerEndpoint P p.last_authenticated_at_ms)
      = .ok p.endpoints := by
    apply mapM_toValue
    intro e he
    have hle := h.notNewer e he
    have hsafe := h.safe
    exact parseRecentPeerEndpoint_toValue hle (by omega) (h.reusable e he)
  obtain ⟨addresses, haddresses⟩ := exists_keys h.reusable
  have hdistinct : addresses.dedup.length = p.endpoints.length := by
    have hnodup := h.distinct
    rw [haddresses] at hnodup
    rw [List.dedup_eq_self.2 hnodup.of_map]
    simpa using (congrArg List.length haddresses).symm
  show parseRecentPeer P (.object true fields) = .ok p
  unfold parseRecentPeer requireRecord
  simp only [ok_bind, hkeys, htimestamp, hendpoints, List.length_map]
  rw [if_neg (Nat.not_lt.2 h.few), hitems, ok_bind, mapM_addrKey.2 haddresses, ok_bind, if_neg (not_not.2 hdistinct)]
  rfl

theorem foldlM_toValue {localNpub : UnitString} {peers rest : JsMap UnitString RecentPeer}
    (hnodup : JsMap.Nodup (peers ++ rest))
    (hrest : ∀ e ∈ rest, (isCanonicalNpub P e.1 = true ∧ e.1 ≠ localNpub) ∧ e.2.Valid P) :
    (rest.map fun e => (e.1, e.2.toValue)).foldlM (parsePeerEntry P localNpub) peers = .ok (peers ++ rest) := by
  induction rest generalizing peers with
  | nil =>
    rw [List.append_nil]
    rfl
  | cons e rest ih =>
    obtain ⟨⟨hcanonical, hne⟩, hvalid⟩ := hrest e List.mem_cons_self
    have hnpub : requireCanonicalNpub P (.str e.1) "remote_npub" = .ok e.1 :=
      requireCanonicalNpub_eq_ok.2 ⟨rfl, hcanonical⟩
    have hnot : e.1 ∉ peers.map Prod.fst := by
      intro hmem
      rw [JsMap.Nodup, List.map_append, List.map_cons] at hnodup
      exact (List.nodup_append.1 hnodup).2.2 e.1 hmem e.1 List.mem_cons_self rfl
    have hentry : parsePeerEntry P localNpub peers (e.1, e.2.toValue) = .ok (peers ++ [e]) := by
      unfold parsePeerEntry
      rw [hnpub, ok_bind, if_neg hne, parseRecentPeer_toValue hvalid, ← JsMap.set_of_notMem hnot]
      rfl
    rw [List.map_cons, List.foldlM_cons, hentry, ok_bind,
      ih (by rw [List.append_assoc]; exact hnodup) (fun e' he' => hrest e' (List.mem_cons_of_mem _ he')), List.append_assoc]
    rfl

theorem parseRecentPeers_toValue {r : RecentPeers} (h : r.Valid P) :
    parseRecentPeers P r.toValue (.str r.local_npub) (.str r.scope) = .ok r := by
  let fields : List (UnitString × JsValue) := [(js "version", .num RECENT_PEERS_VERSION),
    (js "local_npub", .str r.local_npub), (js "scope", .str r.scope),
    (js "peers", .object true (r.peers.map fun e => (e.1, e.2.toValue)))]
  have hexpected : requireCanonicalNpub P (.str r.local_npub) "expected local_npub" = .ok r.local_npub :=
    requireCanonicalNpub_eq_ok.2 ⟨rfl, h.npub⟩
  have hexpectedScope : requireString (.str r.scope) "expected scope" = .ok r.scope := rfl
  have hkeys : requireExactKeys fields ["version", "local_npub", "scope", "peers"] "recent peers" = .ok () := rfl
  have hversion : property fields "version" = .num RECENT_PEERS_VERSION := rfl
  have hlocal : requireCanonicalNpub P (property fields "local_npub") "local_npub" = .ok r.local_npub :=
    requireCanonicalNpub_eq_ok.2 ⟨rfl, h.npub⟩
  have hscope : requireString (property fields "scope") "scope" = .ok r.scope := rfl
  have hpeers : property fields "peers" = .object true (r.peers.map fun e => (e.1, e.2.toValue)) := rfl
  have hentries := @foldlM_toValue P r.local_npub [] r.peers h.nodup (fun e he => ⟨h.remote e he, h.peer e he⟩)
  show parseRecentPeers P (.object true fields) (.str r.local_npub) (.str r.scope) = .ok r
  unfold parseRecentPeers requireRecord
  simp only [ok_bind, hexpected, hexpectedScope, hkeys, hversion, hlocal, hscope, hpeers, ne_eq, not_true_eq_false,
    if_false, List.length_map]
  rw [if_neg (Nat.not_lt.2 h.few), hentries]
  rfl

/-! ## The updates keep a cache valid -/

theorem capBy_eq {ν : Type} {time : ν → Nat} {peers : JsMap UnitString ν} (h : peers.Nodup) :
    capBy time peers
      = (peers.mergeSort fun left right => (comparePeers time left right).isLE).take RECENT_PEERS_MAX_PEERS := by
  have hnodup : JsMap.Nodup ([] ++ (peers.mergeSort fun left right => (comparePeers time left right).isLE).take
      RECENT_PEERS_MAX_PEERS) := by
    have hsorted : ((peers.mergeSort fun left right => (comparePeers time left right).isLE).map Prod.fst).Nodup :=
      (((List.mergeSort_perm peers _).map Prod.fst).nodup_iff).2 h
    rw [JsMap.Nodup, List.nil_append, List.map_take]
    exact hsorted.sublist (List.take_sublist _ _)
  exact JsMap.foldl_set _ hnodup

theorem mem_of_mem_capPeers {peers : JsMap UnitString RecentPeer} (h : peers.Nodup) {e : UnitString × RecentPeer}
    (he : e ∈ capPeers peers) : e ∈ peers := by
  rw [capPeers, capBy_eq h] at he
  exact (List.mergeSort_perm peers _).mem_iff.1 (List.mem_of_mem_take he)

/-- Capping needs no bound on what it is given. -/
theorem RecentPeers.Valid.capPeers {r : RecentPeers} {peers : JsMap UnitString RecentPeer} (hr : r.Valid P)
    (hnodup : peers.Nodup)
    (hpeers : ∀ e ∈ peers, (isCanonicalNpub P e.1 = true ∧ e.1 ≠ r.local_npub) ∧ e.2.Valid P) :
    RecentPeers.Valid P { r with peers := Fips.capPeers peers } := by
  refine ⟨hr.npub, ?_, ?_, fun e he => (hpeers e (mem_of_mem_capPeers hnodup he)).1,
    fun e he => (hpeers e (mem_of_mem_capPeers hnodup he)).2⟩
  · show (Fips.capPeers peers).length ≤ _
    rw [Fips.capPeers, capBy_eq hnodup]
    exact List.length_take_le _ _
  · show JsMap.Nodup (Fips.capPeers peers)
    rw [Fips.capPeers, capBy_eq hnodup, JsMap.Nodup, List.map_take]
    exact (((List.mergeSort_perm peers _).map Prod.fst).nodup_iff.2 hnodup).sublist (List.take_sublist _ _)

theorem mem_sortEndpoints {endpoints : List RecentPeerEndpoint} {e : RecentPeerEndpoint} :
    e ∈ sortEndpoints endpoints ↔ e ∈ endpoints := (List.mergeSort_perm endpoints _).mem_iff

theorem zip_keys_filter {endpoints : List RecentPeerEndpoint} {keys : List UnitString} (key : UnitString)
    (hkeys : (endpoints.map fun e => parseSocketAddr P e.addr) = keys.map some) :
    ((endpoints.zip keys).filter fun e => e.2 ≠ key).map Prod.fst
      = endpoints.filter fun e => parseSocketAddr P e.addr ≠ some key := by
  induction endpoints generalizing keys with
  | nil => rfl
  | cons e endpoints ih =>
    cases keys with
    | nil => simp at hkeys
    | cons k keys =>
      rw [List.map_cons, List.map_cons, List.cons.injEq] at hkeys
      have hrest := ih hkeys.2
      by_cases hk : k = key
      · rw [List.zip_cons_cons, List.filter_cons_of_neg (by simpa using hk),
          List.filter_cons_of_neg (by simpa [hkeys.1] using hk), hrest]
      · rw [List.zip_cons_cons, List.filter_cons_of_pos (by simpa using hk),
          List.filter_cons_of_pos (by simpa [hkeys.1] using hk), List.map_cons, hrest]

theorem zip_keys_find {endpoints : List RecentPeerEndpoint} {keys : List UnitString} (key : UnitString)
    (hkeys : (endpoints.map fun e => parseSocketAddr P e.addr) = keys.map some) :
    ((endpoints.zip keys).find? fun e => e.2 = key).map Prod.fst
      = endpoints.find? fun e => parseSocketAddr P e.addr = some key := by
  induction endpoints generalizing keys with
  | nil => rfl
  | cons e endpoints ih =>
    cases keys with
    | nil => simp at hkeys
    | cons k keys =>
      rw [List.map_cons, List.map_cons, List.cons.injEq] at hkeys
      have hrest := ih hkeys.2
      by_cases hk : k = key
      · rw [List.zip_cons_cons, List.find?_cons_of_pos (by simpa using hk),
          List.find?_cons_of_pos (by simpa [hkeys.1] using hk)]
        rfl
      · rw [List.zip_cons_cons, List.find?_cons_of_neg (by simpa using hk),
          List.find?_cons_of_neg (by simpa [hkeys.1] using hk), hrest]

/-- The time of the endpoint of a socket, 0 if there is none. -/
def endpointTime (P : Platform) (endpoints : List RecentPeerEndpoint) (key : UnitString) : Nat :=
  ((endpoints.find? fun e => parseSocketAddr P e.addr = some key).map RecentPeerEndpoint.last_authenticated_at_ms).getD 0

theorem observeEndpoint_eq {t : Nat} {endpoints : List RecentPeerEndpoint} {parsed : ParsedUdpSocketAddr}
    (h : ∀ e ∈ endpoints, (parseSocketAddr P e.addr).isSome = true) : observeEndpoint P t endpoints parsed =
      .ok ((endpoints.filter fun e => parseSocketAddr P e.addr ≠ some parsed.key)
        ++ [⟨parsed.canonical, max (endpointTime P endpoints parsed.key) t⟩]) := by
  obtain ⟨keys, hkeys⟩ := exists_keys h
  unfold observeEndpoint endpointTime
  rw [mapM_addrKey.2 hkeys, ok_bind, ← zip_keys_find parsed.key hkeys, ← zip_keys_filter parsed.key hkeys,
    Option.map_map]
  rfl

theorem endpointTime_le {endpoints : List RecentPeerEndpoint} {limit : Nat} (key : UnitString)
    (h : ∀ e ∈ endpoints, e.last_authenticated_at_ms ≤ limit) : endpointTime P endpoints key ≤ limit := by
  unfold endpointTime
  rcases hf : endpoints.find? (fun e => parseSocketAddr P e.addr = some key) with _ | e
  · rw [hf]
    exact Nat.zero_le _
  · rw [hf]
    exact h e (List.mem_of_find?_eq_some hf)

/-- Endpoints that fit a peer of time `limit`, but for their number. -/
structure Endpoints (P : Platform) (limit : Nat) (endpoints : List RecentPeerEndpoint) : Prop where
  notNewer : ∀ e ∈ endpoints, e.last_authenticated_at_ms ≤ limit
  reusable : ∀ e ∈ endpoints, (parseSocketAddr P e.addr).isSome = true
  distinct : (endpoints.map fun e => parseSocketAddr P e.addr).Nodup

theorem Endpoints.observe (hP : P.NormalisesIpv6) {limit t : Nat} {endpoints : List RecentPeerEndpoint}
    {addr key : UnitString} (h : Endpoints P limit endpoints) (hkey : parseSocketAddr P addr = some key) :
    Endpoints P (max limit t) ((endpoints.filter fun e => parseSocketAddr P e.addr ≠ some key)
      ++ [⟨key, max (endpointTime P endpoints key) t⟩]) := by
  have hcanonical := parseSocketAddr_canonical hP hkey
  refine ⟨?_, ?_, ?_⟩
  · intro e he
    rcases List.mem_append.1 he with he | he
    · exact (h.notNewer e (List.mem_of_mem_filter he)).trans (le_max_left _ _)
    · rw [List.mem_singleton.1 he]
      exact max_le_max (endpointTime_le key h.notNewer) (Nat.le_refl t)
  · intro e he
    rcases List.mem_append.1 he with he | he
    · exact h.reusable e (List.mem_of_mem_filter he)
    · rw [List.mem_singleton.1 he, hcanonical]
      rfl
  · rw [List.map_append, List.nodup_append]
    refine ⟨h.distinct.sublist (List.filter_sublist.map _), List.nodup_singleton _, ?_⟩
    intro a ha b hb heq
    obtain ⟨e, he, rfl⟩ := List.mem_map.1 ha
    rw [List.map_singleton, List.mem_singleton, hcanonical] at hb
    have hne := (List.mem_filter.1 he).2
    rw [heq, hb] at hne
    simp at hne

/-- Sorted and cut to four, they are the endpoints of a valid peer. -/
theorem Endpoints.valid {limit : Nat} {endpoints : List RecentPeerEndpoint} (h : Endpoints P limit endpoints)
    (hsafe : (limit : Int) ≤ SAFE_INTEGER_MAX) :
    RecentPeer.Valid P ⟨limit, (sortEndpoints endpoints).take RECENT_PEERS_MAX_ENDPOINTS⟩ := by
  refine ⟨hsafe, List.length_take_le _ _, ?_, ?_, ?_⟩
  · intro e he
    exact h.notNewer e (mem_sortEndpoints.1 (List.mem_of_mem_take he))
  · intro e he
    exact h.reusable e (mem_sortEndpoints.1 (List.mem_of_mem_take he))
  · show (((sortEndpoints endpoints).take RECENT_PEERS_MAX_ENDPOINTS).map fun e => parseSocketAddr P e.addr).Nodup
    have hsorted : ((sortEndpoints endpoints).map fun e => parseSocketAddr P e.addr).Nodup :=
      (((List.mergeSort_perm endpoints _).map _).nodup_iff).2 h.distinct
    exact hsorted.sublist ((List.take_sublist _ _).map _)

/-- The endpoints of a peer once an address, if there is one, is observed at `t`. -/
def observed (P : Platform) (t : Nat) (endpoints : List RecentPeerEndpoint) : Option UnitString → List RecentPeerEndpoint
  | none => endpoints
  | some key => (endpoints.filter fun e => parseSocketAddr P e.addr ≠ some key)
      ++ [⟨key, max (endpointTime P endpoints key) t⟩]

/-- The peer that an observation makes of the one it finds. -/
def observedPeer (P : Platform) (t : Nat) (existing : Option RecentPeer) (key : Option UnitString) : RecentPeer :=
  ⟨max ((existing.map RecentPeer.last_authenticated_at_ms).getD 0) t,
    (sortEndpoints (observed P t ((existing.map RecentPeer.endpoints).getD []) key)).take RECENT_PEERS_MAX_ENDPOINTS⟩

/-- A valid observation for a cache of `localNpub`. -/
structure Observation (P : Platform) (localNpub remoteNpub : UnitString) (t : Nat) (udpAddr key : Option UnitString) :
    Prop where
  canonical : isCanonicalNpub P remoteNpub = true
  remote : remoteNpub ≠ localNpub
  safe : (t : Int) ≤ SAFE_INTEGER_MAX
  reusable : udpAddr.map (parseSocketAddr P) = key.map some

theorem observeAuthenticatedPeer_eq {value : JsValue} {r : RecentPeers} {remoteNpub : UnitString} {t : Nat}
    {udpAddr key : Option UnitString}
    (hparse : parseRecentPeers P value (value.property "local_npub") (value.property "scope") = .ok r)
    (ho : Observation P r.local_npub remoteNpub t udpAddr key) :
    observeAuthenticatedPeer P value remoteNpub (.num t) udpAddr =
      .ok { r with peers := capPeers (r.peers.set remoteNpub (observedPeer P t (r.peers.get remoteNpub) key)) } := by
  have hr := (parseRecentPeers_eq_ok hparse).1
  have hnpub : requireCanonicalNpub P (.str remoteNpub) "remote_npub" = .ok remoteNpub :=
    requireCanonicalNpub_eq_ok.2 ⟨rfl, ho.canonical⟩
  have htime : requireTimestamp (.num t) "last_authenticated_at_ms" = .ok t := requireTimestamp_eq_ok.2 ⟨rfl, ho.safe⟩
  unfold observeAuthenticatedPeer
  rw [hparse, ok_bind, hnpub, ok_bind, if_neg ho.remote, htime, ok_bind]
  have hreusable := ho.reusable
  cases udpAddr with
  | none =>
    cases key with
    | none => rfl
    | some key => cases hreusable
  | some addr =>
    cases key with
    | none => cases hreusable
    | some key =>
      have hkey : parseSocketAddr P addr = some key := Option.some.inj hreusable
      have hparsed : requireReusableUdpSocketAddr P addr "UDP addr" = .ok ⟨addr, key, key⟩ :=
        requireReusableUdpSocketAddr_eq_ok.2 ⟨hkey, rfl⟩
      have hendpoints : ∀ e ∈ ((r.peers.get remoteNpub).map RecentPeer.endpoints).getD [],
          (parseSocketAddr P e.addr).isSome = true := by
        rcases hget : r.peers.get remoteNpub with _ | p
        · intro e he
          cases he
        · exact (hr.peer _ (JsMap.mem_of_get hget)).reusable
      have hmap : (some addr).mapM (fun addr => requireReusableUdpSocketAddr P addr "UDP addr")
          = .ok (some ⟨addr, key, key⟩) := by
        rw [Option.mapM_some, hparsed]
        rfl
      rw [hmap, ok_bind]
      dsimp only
      rw [observeEndpoint_eq hendpoints, ok_bind]
      rfl

theorem RecentPeers.Valid.observe (hP : P.NormalisesIpv6) {r : RecentPeers} (hr : r.Valid P) {remoteNpub : UnitString}
    {t : Nat} {udpAddr key : Option UnitString} (ho : Observation P r.local_npub remoteNpub t udpAddr key) :
    RecentPeers.Valid P
      { r with peers := Fips.capPeers (r.peers.set remoteNpub (observedPeer P t (r.peers.get remoteNpub) key)) } := by
  refine hr.capPeers (hr.nodup.set _ _) ?_
  intro e he
  rcases JsMap.mem_set he with rfl | he
  · refine ⟨⟨ho.canonical, ho.remote⟩, ?_⟩
    have hold : Endpoints P (((r.peers.get remoteNpub).map RecentPeer.last_authenticated_at_ms).getD 0)
        (((r.peers.get remoteNpub).map RecentPeer.endpoints).getD []) ∧
        ((((r.peers.get remoteNpub).map RecentPeer.last_authenticated_at_ms).getD 0 : Nat) : Int) ≤ SAFE_INTEGER_MAX := by
      rcases hget : r.peers.get remoteNpub with _ | p
      · exact ⟨⟨by simp, by simp, by simp⟩, by decide⟩
      · have hp := hr.peer _ (JsMap.mem_of_get hget)
        exact ⟨⟨hp.notNewer, hp.reusable, hp.distinct⟩, hp.safe⟩
    have hsafe : ((max (((r.peers.get remoteNpub).map RecentPeer.last_authenticated_at_ms).getD 0) t : Nat) : Int)
        ≤ SAFE_INTEGER_MAX := by
      have ht := ho.safe
      have holdSafe := hold.2
      omega
    have hendpoints : Endpoints P (max (((r.peers.get remoteNpub).map RecentPeer.last_authenticated_at_ms).getD 0) t)
        (observed P t (((r.peers.get remoteNpub).map RecentPeer.endpoints).getD []) key) := by
      rcases key with _ | key
      · exact ⟨fun e he => (hold.1.notNewer e he).trans (le_max_left _ _), hold.1.reusable, hold.1.distinct⟩
      · rcases udpAddr with _ | addr
        · cases ho.reusable
        · exact hold.1.observe hP (Option.some.inj ho.reusable)
    exact hendpoints.valid hsafe
  · exact ⟨hr.remote e he, hr.peer e he⟩

theorem RecentPeer.Valid.prune {p : RecentPeer} (h : p.Valid P) (cutoff : Int) :
    RecentPeer.Valid P ⟨p.last_authenticated_at_ms,
      sortEndpoints (p.endpoints.filter fun endpoint => cutoff ≤ (endpoint.last_authenticated_at_ms : Int))⟩ := by
  refine ⟨h.safe, ?_, ?_, ?_, ?_⟩
  · show (sortEndpoints _).length ≤ _
    rw [sortEndpoints, List.length_mergeSort]
    exact (List.length_filter_le _ _).trans h.few
  · intro e he
    exact h.notNewer e (List.mem_of_mem_filter (mem_sortEndpoints.1 he))
  · intro e he
    exact h.reusable e (List.mem_of_mem_filter (mem_sortEndpoints.1 he))
  · show ((sortEndpoints _).map fun e => parseSocketAddr P e.addr).Nodup
    exact (((List.mergeSort_perm _ _).map _).nodup_iff).2 (h.distinct.sublist (List.filter_sublist.map _))

/-- What pruning leaves of the peers. -/
def prunedPeers (cutoff : Int) (peers : JsMap UnitString RecentPeer) : JsMap UnitString RecentPeer :=
  (peers.filterMap (prunePeer cutoff)).foldl (fun peers e => JsMap.set peers e.1 e.2) []

theorem nodup_filterMap_prunePeer {cutoff : Int} {peers : JsMap UnitString RecentPeer} (h : peers.Nodup) :
    JsMap.Nodup (peers.filterMap (prunePeer cutoff)) := by
  induction peers with
  | nil => exact List.nodup_nil
  | cons e peers ih =>
    obtain ⟨hnot, hrest⟩ := List.nodup_cons.1 h
    rw [List.filterMap_cons]
    split
    · exact ih hrest
    · rename_i e' he'
      unfold prunePeer at he'
      split at he'
      · cases he'
      · cases he'
        refine List.nodup_cons.2 ⟨?_, ih hrest⟩
        intro hmem
        obtain ⟨e₂, he₂, hname⟩ := List.mem_map.1 hmem
        obtain ⟨e₁, he₁, hprune⟩ := List.mem_filterMap.1 he₂
        unfold prunePeer at hprune
        split at hprune
        · cases hprune
        · cases hprune
          exact hnot (List.mem_map.2 ⟨e₁, he₁, hname⟩)

theorem RecentPeers.Valid.prune {r : RecentPeers} (hr : r.Valid P) (cutoff : Int) :
    RecentPeers.Valid P { r with peers := Fips.capPeers (prunedPeers cutoff r.peers) } := by
  have hpruned := @nodup_filterMap_prunePeer cutoff _ hr.nodup
  have heq : prunedPeers cutoff r.peers = r.peers.filterMap (prunePeer cutoff) := JsMap.foldl_set _ hpruned
  rw [heq]
  refine hr.capPeers hpruned ?_
  intro e he
  obtain ⟨e₁, he₁, hprune⟩ := List.mem_filterMap.1 he
  unfold prunePeer at hprune
  split at hprune
  · cases hprune
  · cases hprune
    exact ⟨hr.remote e₁ he₁, (hr.peer e₁ he₁).prune cutoff⟩

theorem pruneRecentPeers_eq {value : JsValue} {r : RecentPeers} {nowMs ttlMs : Nat}
    (hparse : parseRecentPeers P value (value.property "local_npub") (value.property "scope") = .ok r)
    (hnow : (nowMs : Int) ≤ SAFE_INTEGER_MAX) (httl : (ttlMs : Int) ≤ SAFE_INTEGER_MAX) :
    pruneRecentPeers P value (.num nowMs) (.num ttlMs) =
      .ok { r with peers := capPeers (prunedPeers ((nowMs : Int) - ttlMs) r.peers) } := by
  have hnow' : requireTimestamp (.num nowMs) "nowMs" = .ok nowMs := requireTimestamp_eq_ok.2 ⟨rfl, hnow⟩
  have httl' : requireTimestamp (.num ttlMs) "ttlMs" = .ok ttlMs := requireTimestamp_eq_ok.2 ⟨rfl, httl⟩
  unfold pruneRecentPeers
  rw [hparse, ok_bind, hnow', ok_bind, httl', ok_bind]
  rfl

end Fips
