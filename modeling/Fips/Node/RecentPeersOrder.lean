import Fips.Lib.BestPerKey
import Fips.Node.RecentPeersObjects

/-!
# The order of the observations of recent peers

A peer keeps the four best of its endpoints after each observation. An endpoint that is cut away is
missed by no later one, so the peers are those that the observations have together.
-/

namespace Fips
open Exec UnitStrings BestPerKey

variable {P : Platform}

/-- The arguments of `observeAuthenticatedPeer`. -/
structure PeerObservation where
  remoteNpub : UnitString
  authenticatedAtMs : Nat
  udpAddr : Option UnitString

def PeerObservation.Valid (P : Platform) (localNpub : UnitString) (o : PeerObservation) : Prop :=
  ∃ key, Observation P localNpub o.remoteNpub o.authenticatedAtMs o.udpAddr key

/-- One observation after the other. -/
def observeAuthenticatedPeers (P : Platform) (r : RecentPeers) (observations : List PeerObservation) :
    Except String RecentPeers :=
  observations.foldlM (fun r o => observeAuthenticatedPeer P r.toValue o.remoteNpub (.num o.authenticatedAtMs) o.udpAddr) r

/-! ## What the observations have together -/

def maxTime (times : List Nat) : Nat := times.foldl max 0

/-- The distinct addresses of `endpoints`, each with its latest time. -/
def latestEndpoints (endpoints : List RecentPeerEndpoint) : List RecentPeerEndpoint :=
  (endpoints.map RecentPeerEndpoint.addr).dedup.map fun addr =>
    ⟨addr, maxTime ((endpoints.filter fun e => e.addr = addr).map RecentPeerEndpoint.last_authenticated_at_ms)⟩

def PeerObservation.endpoint (P : Platform) (o : PeerObservation) : Option RecentPeerEndpoint :=
  (o.udpAddr.bind (parseSocketAddr P)).map fun key => ⟨key, o.authenticatedAtMs⟩

/-- The peer that is observed by `observations` of one identity. -/
def peerOf (P : Platform) (observations : List PeerObservation) : RecentPeer :=
  ⟨maxTime (observations.map PeerObservation.authenticatedAtMs),
    (sortEndpoints (latestEndpoints (observations.filterMap (PeerObservation.endpoint P)))).take RECENT_PEERS_MAX_ENDPOINTS⟩

def observationsOf (observations : List PeerObservation) (npub : UnitString) : List PeerObservation :=
  observations.filter fun o => o.remoteNpub = npub

/-! ## Endpoints -/

instance : Std.TransCmp compareEndpoints :=
  inferInstanceAs <| Std.TransCmp <| compareLex
    (fun a b => compareOn RecentPeerEndpoint.last_authenticated_at_ms b a) (compareOn RecentPeerEndpoint.addr)

instance : Std.LawfulEqCmp compareEndpoints where
  compare_self := Std.ReflCmp.compare_self
  eq_of_compare := by
    intro a b h
    unfold compareEndpoints at h
    rw [Ordering.then_eq_eq, Std.LawfulEqCmp.compare_eq_iff_eq, Std.LawfulEqCmp.compare_eq_iff_eq] at h
    obtain ⟨addr, t⟩ := a
    obtain ⟨addr', t'⟩ := b
    cases h.1
    cases h.2
    rfl

theorem compareEndpoints_lt {a b : RecentPeerEndpoint} (h : a.addr = b.addr) :
    compareEndpoints a b = .lt ↔ b.last_authenticated_at_ms < a.last_authenticated_at_ms := by
  have hself : compare b.addr b.addr = .eq := Std.ReflCmp.compare_self
  unfold compareEndpoints
  rw [h, hself, Ordering.then_eq, Nat.compare_eq_lt]

/-- The four best endpoints. -/
def bestEndpoints (endpoints : List RecentPeerEndpoint) : List RecentPeerEndpoint :=
  best compareEndpoints RecentPeerEndpoint.addr RECENT_PEERS_MAX_ENDPOINTS endpoints

theorem mem_leaders_endpoints {endpoints : List RecentPeerEndpoint} {e : RecentPeerEndpoint} :
    e ∈ leaders compareEndpoints RecentPeerEndpoint.addr endpoints ↔ e ∈ endpoints ∧
      ∀ e' ∈ endpoints, e'.addr = e.addr → e'.last_authenticated_at_ms ≤ e.last_authenticated_at_ms := by
  rw [mem_leaders]
  refine and_congr_right fun _ => forall₂_congr fun e' _ => ?_
  constructor
  · intro h hkey
    exact Nat.not_lt.1 fun hlt => h hkey ((compareEndpoints_lt hkey).2 hlt)
  · intro h hkey hlt
    exact absurd ((compareEndpoints_lt hkey).1 hlt) (Nat.not_lt.2 (h hkey))

theorem take_sortEndpoints {endpoints leading : List RecentPeerEndpoint} (hnodup : leading.Nodup)
    (h : ∀ e, e ∈ leading ↔ e ∈ leaders compareEndpoints RecentPeerEndpoint.addr endpoints) :
    (sortEndpoints leading).take RECENT_PEERS_MAX_ENDPOINTS = bestEndpoints endpoints :=
  congrArg (List.take _) (sort_congr hnodup nodup_leaders h)

theorem le_maxTime {times : List Nat} {t : Nat} (h : t ∈ times) : t ≤ maxTime times := by
  induction times using List.reverseRecOn with
  | nil => cases h
  | append_singleton times t' ih =>
    rw [maxTime, List.foldl_append]
    rcases List.mem_append.1 h with h | h
    · exact (ih h).trans (le_max_left _ _)
    · rw [List.mem_singleton.1 h]
      exact le_max_right _ _

theorem maxTime_mem {times : List Nat} (h : times ≠ []) : maxTime times ∈ times := by
  induction times using List.reverseRecOn with
  | nil => exact absurd rfl h
  | append_singleton times t ih =>
    rw [maxTime, List.foldl_append]
    show max (maxTime times) t ∈ times ++ [t]
    rcases max_choice (maxTime times) t with hmax | hmax
    · rw [hmax]
      by_cases htimes : times = []
      · rw [htimes] at hmax ⊢
        have ht : t = 0 := Nat.le_zero.1 (max_eq_left_iff.1 hmax)
        rw [ht]
        exact List.mem_singleton.2 rfl
      · exact List.mem_append_left _ (ih htimes)
    · rw [hmax]
      exact List.mem_append_right _ List.mem_cons_self

theorem mem_latestEndpoints {endpoints : List RecentPeerEndpoint} {e : RecentPeerEndpoint} :
    e ∈ latestEndpoints endpoints ↔ e ∈ leaders compareEndpoints RecentPeerEndpoint.addr endpoints := by
  have hmem : ∀ addr t, t ∈ (endpoints.filter fun e => e.addr = addr).map RecentPeerEndpoint.last_authenticated_at_ms ↔
      (⟨addr, t⟩ : RecentPeerEndpoint) ∈ endpoints := by
    intro addr t
    simp only [List.mem_map, List.mem_filter, decide_eq_true_eq]
    constructor
    · rintro ⟨⟨addr', t'⟩, ⟨he, rfl⟩, rfl⟩
      exact he
    · intro he
      exact ⟨_, ⟨he, rfl⟩, rfl⟩
  rw [mem_leaders_endpoints]
  simp only [latestEndpoints, List.mem_map, List.mem_dedup]
  constructor
  · rintro ⟨_, ⟨⟨addr, t⟩, he, rfl⟩, rfl⟩
    have hne := List.ne_nil_of_mem ((hmem addr t).2 he)
    refine ⟨(hmem _ _).1 (maxTime_mem hne), ?_⟩
    rintro ⟨addr', t'⟩ he' rfl
    exact le_maxTime ((hmem _ _).2 he')
  · rintro ⟨he, hall⟩
    obtain ⟨addr, t⟩ := e
    refine ⟨addr, ⟨_, he, rfl⟩, ?_⟩
    have ht := (hmem addr t).2 he
    have hle : maxTime _ ≤ t := hall _ ((hmem addr _).1 (maxTime_mem (List.ne_nil_of_mem ht))) rfl
    exact congrArg (RecentPeerEndpoint.mk addr) (le_antisymm hle (le_maxTime ht))

theorem nodup_latestEndpoints {endpoints : List RecentPeerEndpoint} : (latestEndpoints endpoints).Nodup :=
  (List.nodup_dedup _).map fun _ _ h => congrArg RecentPeerEndpoint.addr h

theorem bestEndpoints_eq (endpoints : List RecentPeerEndpoint) :
    (sortEndpoints (latestEndpoints endpoints)).take RECENT_PEERS_MAX_ENDPOINTS = bestEndpoints endpoints :=
  take_sortEndpoints nodup_latestEndpoints fun _ => mem_latestEndpoints

/-- Endpoints whose addresses are spelt canonically. -/
def SpeltCanonically (P : Platform) (endpoints : List RecentPeerEndpoint) : Prop :=
  ∀ e ∈ endpoints, parseSocketAddr P e.addr = some e.addr

theorem SpeltCanonically.bestEndpoints {endpoints : List RecentPeerEndpoint} (h : SpeltCanonically P endpoints) :
    SpeltCanonically P (bestEndpoints endpoints) := fun e he => h e (mem_of_mem_best he)

/-- The time that an observation finds for its socket. -/
theorem endpointTime_spec {endpoints : List RecentPeerEndpoint} {key : UnitString} (hcanonical : SpeltCanonically P endpoints)
    (hdistinct : ∀ a ∈ endpoints, ∀ b ∈ endpoints, a.addr = b.addr → a = b) :
    (∀ e ∈ endpoints, e.addr = key → e.last_authenticated_at_ms = endpointTime P endpoints key) ∧
      (endpointTime P endpoints key = 0 ∨ ⟨key, endpointTime P endpoints key⟩ ∈ endpoints) := by
  have hkey : ∀ e ∈ endpoints, (parseSocketAddr P e.addr = some key ↔ e.addr = key) := by
    intro e he
    rw [hcanonical e he, Option.some.injEq]
  unfold endpointTime
  rcases hf : endpoints.find? (fun e => parseSocketAddr P e.addr = some key) with _ | f
  · have hnone := List.find?_eq_none.1 hf
    rw [hf]
    refine ⟨?_, .inl rfl⟩
    intro e he heq
    exact absurd (decide_eq_true ((hkey e he).2 heq)) (hnone e he)
  · have hmem := List.mem_of_find?_eq_some hf
    have hfound := List.find?_some hf
    have haddr : f.addr = key := (hkey f hmem).1 (by simpa using hfound)
    rw [hf]
    refine ⟨?_, .inr ?_⟩
    · intro e he heq
      rw [hdistinct e he f hmem (heq.trans haddr.symm)]
      rfl
    · rw [← haddr]
      exact hmem

/-- The best endpoints with the endpoint of an observation, sorted and cut, are the best of all. -/
theorem take_sort_observed {endpoints : List RecentPeerEndpoint} {t : Nat} {key : UnitString}
    (h : SpeltCanonically P endpoints) :
    (sortEndpoints (observed P t (bestEndpoints endpoints) (some key))).take RECENT_PEERS_MAX_ENDPOINTS
      = bestEndpoints (endpoints ++ [⟨key, t⟩]) := by
  have hcut : bestEndpoints (bestEndpoints endpoints ++ [⟨key, t⟩]) = bestEndpoints (endpoints ++ [⟨key, t⟩]) :=
    best_best_append endpoints [⟨key, t⟩]
  have hcanonical := h.bestEndpoints
  have hdistinct : ∀ a ∈ bestEndpoints endpoints, ∀ b ∈ bestEndpoints endpoints, a.addr = b.addr → a = b :=
    fun a ha b hb => leaders_key (mem_best_leaders ha) (mem_best_leaders hb)
  have hnodup : (bestEndpoints endpoints).Nodup := nodup_best
  rw [← hcut]
  generalize bestEndpoints endpoints = kept at *
  obtain ⟨hsame, hfound⟩ := @endpointTime_spec P kept key hcanonical hdistinct
  have hmem : ∀ e, e ∈ kept.filter (fun e => parseSocketAddr P e.addr ≠ some key) ↔ e ∈ kept ∧ e.addr ≠ key := by
    intro e
    rw [List.mem_filter, decide_eq_true_eq]
    refine and_congr_right fun he => ?_
    rw [hcanonical e he, Ne, Option.some.injEq]
  apply take_sortEndpoints
  · refine List.nodup_append.2 ⟨hnodup.filter _, List.nodup_singleton _, ?_⟩
    rintro a ha b hb rfl
    rw [List.mem_singleton.1 hb] at ha
    exact ((hmem _).1 ha).2 rfl
  · intro e
    rw [mem_leaders_endpoints, observed, List.mem_append, hmem, List.mem_singleton]
    constructor
    · rintro (⟨he, hne⟩ | rfl)
      · refine ⟨List.mem_append_left _ he, ?_⟩
        intro e' he' haddr
        rcases List.mem_append.1 he' with he' | he'
        · rw [hdistinct e' he' e he haddr]
        · rw [List.mem_singleton.1 he'] at haddr
          exact absurd haddr.symm hne
      · constructor
        · rcases max_choice (endpointTime P kept key) t with hmax | hmax
          · rw [hmax]
            rcases hfound with hzero | hfound
            · have ht : t = 0 := Nat.le_zero.1 (hzero ▸ max_eq_left_iff.1 hmax)
              rw [hzero, ht]
              exact List.mem_append_right _ List.mem_cons_self
            · exact List.mem_append_left _ hfound
          · rw [hmax]
            exact List.mem_append_right _ List.mem_cons_self
        · intro e' he' haddr
          rcases List.mem_append.1 he' with he' | he'
          · rw [hsame e' he' haddr]
            exact le_max_left _ _
          · rw [List.mem_singleton.1 he']
            exact le_max_right _ _
    · rintro ⟨he, hall⟩
      by_cases haddr : e.addr = key
      · right
        obtain ⟨addr, t'⟩ := e
        cases haddr
        refine congrArg (RecentPeerEndpoint.mk addr) ?_
        have ht : t ≤ t' := hall ⟨addr, t⟩ (List.mem_append_right _ List.mem_cons_self) rfl
        rcases List.mem_append.1 he with he | he
        · have htime : t' = endpointTime P kept addr := hsame _ he rfl
          rw [← htime, max_eq_left ht]
        · cases List.mem_singleton.1 he
          have hold : endpointTime P kept addr ≤ t := by
            rcases hfound with hzero | hfound
            · rw [hzero]
              exact Nat.zero_le t
            · exact hall _ (List.mem_append_left _ hfound) rfl
          exact (max_eq_right hold).symm
      · left
        rcases List.mem_append.1 he with he | he
        · exact ⟨he, haddr⟩
        · rw [List.mem_singleton.1 he] at haddr
          exact absurd rfl haddr

theorem take_sort_bestEndpoints (endpoints : List RecentPeerEndpoint) :
    (sortEndpoints (bestEndpoints endpoints)).take RECENT_PEERS_MAX_ENDPOINTS = bestEndpoints endpoints := by
  have hcut : bestEndpoints (bestEndpoints endpoints ++ []) = bestEndpoints (endpoints ++ []) := best_best_append endpoints []
  rw [List.append_nil, List.append_nil] at hcut
  have hleaders : ∀ e, e ∈ bestEndpoints endpoints ↔
      e ∈ leaders compareEndpoints RecentPeerEndpoint.addr (bestEndpoints endpoints) := by
    intro e
    constructor
    · intro he
      refine mem_leaders.2 ⟨he, fun e' he' => (mem_leaders.1 (mem_best_leaders he)).2 e' (mem_of_mem_best he')⟩
    · intro he
      exact (mem_leaders.1 he).1
  have hnodup : (bestEndpoints endpoints).Nodup := nodup_best
  rw [take_sortEndpoints hnodup hleaders, hcut]

/-! ## The peer of one identity -/

theorem maxTime_append (times : List Nat) (t : Nat) : maxTime (times ++ [t]) = max (maxTime times) t := by
  rw [maxTime, List.foldl_append]
  rfl

theorem canonical_endpoints (hP : P.NormalisesIpv6) (observations : List PeerObservation) :
    SpeltCanonically P (observations.filterMap (PeerObservation.endpoint P)) := by
  intro e he
  obtain ⟨o, -, ho⟩ := List.mem_filterMap.1 he
  obtain ⟨key, hkey, rfl⟩ := Option.map_eq_some_iff.1 ho
  obtain ⟨addr, -, haddr⟩ := Option.bind_eq_some_iff.1 hkey
  exact parseSocketAddr_canonical hP haddr

/-- An observation makes of the peer of the earlier ones the peer of all. -/
theorem observedPeer_peerOf (hP : P.NormalisesIpv6) {localNpub : UnitString} {observations : List PeerObservation}
    {o : PeerObservation} {existing : Option RecentPeer} {key : Option UnitString}
    (hexisting : existing = if observations = [] then none else some (peerOf P observations))
    (ho : Observation P localNpub o.remoteNpub o.authenticatedAtMs o.udpAddr key) :
    observedPeer P o.authenticatedAtMs existing key = peerOf P (observations ++ [o]) := by
  have hpeer : (existing.map RecentPeer.last_authenticated_at_ms).getD 0 = (peerOf P observations).last_authenticated_at_ms ∧
      (existing.map RecentPeer.endpoints).getD [] = (peerOf P observations).endpoints := by
    rw [hexisting]
    by_cases hnil : observations = []
    · rw [if_pos hnil, hnil]
      exact ⟨rfl, by simp [peerOf, latestEndpoints, sortEndpoints]⟩
    · rw [if_neg hnil]
      exact ⟨rfl, rfl⟩
  have hendpoint : o.endpoint P = key.map fun key => ⟨key, o.authenticatedAtMs⟩ := by
    have hreusable := ho.reusable
    unfold PeerObservation.endpoint
    rcases hudp : o.udpAddr with _ | addr
    · rw [hudp] at hreusable
      cases key with
      | none => rfl
      | some key => cases hreusable
    · rw [hudp] at hreusable
      cases key with
      | none => cases hreusable
      | some key =>
        have hkey : parseSocketAddr P addr = some key := Option.some.inj hreusable
        rw [Option.bind_some, hkey]
  unfold observedPeer
  rw [hpeer.1, hpeer.2]
  unfold peerOf
  rw [List.map_append, List.map_singleton, maxTime_append, List.filterMap_append, bestEndpoints_eq, bestEndpoints_eq]
  congr 1
  cases key with
  | none =>
    rw [List.filterMap_cons_none (by rw [hendpoint]; rfl), List.filterMap_nil, List.append_nil]
    exact take_sort_bestEndpoints _
  | some key =>
    rw [List.filterMap_cons_some (by rw [hendpoint]; rfl), List.filterMap_nil]
    exact take_sort_observed (canonical_endpoints hP observations)

theorem maxTime_perm {times times' : List Nat} (h : times.Perm times') : maxTime times = maxTime times' :=
  h.foldl_eq' (fun _ _ _ _ _ => max_right_comm _ _ _) 0

theorem peerOf_perm {observations observations' : List PeerObservation} (h : observations.Perm observations') :
    peerOf P observations = peerOf P observations' := by
  unfold peerOf
  rw [bestEndpoints_eq, bestEndpoints_eq, maxTime_perm (h.map _)]
  congr 1
  apply best_congr
  intro e
  exact (h.filterMap _).mem_iff

/-! ## All peers -/

instance : Std.TransCmp (comparePeers RecentPeer.last_authenticated_at_ms) :=
  inferInstanceAs <| Std.TransCmp <| compareLex
    (fun a b => compareOn (fun e : UnitString × RecentPeer => e.2.last_authenticated_at_ms) b a)
    (fun a b => compareOn Prod.fst b a)

/-- The peer that is observed of an identity, if it is observed at all. -/
def peerOf? (P : Platform) (observations : List PeerObservation) (npub : UnitString) : Option RecentPeer :=
  if observationsOf observations npub = [] then none else some (peerOf P (observationsOf observations npub))

theorem observationsOf_append (observations : List PeerObservation) (o : PeerObservation) (npub : UnitString) :
    observationsOf (observations ++ [o]) npub =
      if o.remoteNpub = npub then observationsOf observations npub ++ [o] else observationsOf observations npub := by
  unfold observationsOf
  rw [List.filter_append]
  by_cases h : o.remoteNpub = npub
  · rw [if_pos h, List.filter_cons_of_pos (by simpa using h)]
    rfl
  · rw [if_neg h, List.filter_cons_of_neg (by simpa using h)]
    exact List.append_nil _

theorem peerOf?_perm {observations observations' : List PeerObservation} (h : observations.Perm observations')
    (npub : UnitString) : peerOf? P observations npub = peerOf? P observations' npub := by
  have hof : (observationsOf observations npub).Perm (observationsOf observations' npub) := h.filter _
  unfold peerOf?
  rw [peerOf_perm hof]
  refine if_congr ?_ rfl rfl
  constructor
  · intro hnil
    exact List.Perm.eq_nil (hnil ▸ hof.symm)
  · intro hnil
    exact List.Perm.eq_nil (hnil ▸ hof)

theorem mem_remotes {observations : List PeerObservation} {npub : UnitString} {p : RecentPeer}
    (h : peerOf? P observations npub = some p) : npub ∈ observations.map PeerObservation.remoteNpub := by
  unfold peerOf? at h
  split at h
  · cases h
  · rename_i hne
    obtain ⟨o, ho⟩ := List.exists_mem_of_ne_nil _ hne
    obtain ⟨hmem, heq⟩ := List.mem_filter.1 ho
    exact List.mem_map.2 ⟨o, hmem, of_decide_eq_true heq⟩

/-- The peers of a cache are those that `observations` have together, in the order of `capPeers`. -/
structure Summary (P : Platform) (observations : List PeerObservation) (r : RecentPeers) : Prop where
  valid : r.Valid P
  sorted : r.peers.Pairwise fun a b => (comparePeers RecentPeer.last_authenticated_at_ms a b).isLE = true
  get : ∀ npub, r.peers.get npub = peerOf? P observations npub

theorem get_of_perm {peers peers' : JsMap UnitString RecentPeer} (h : peers.Perm peers') (hnodup : peers.Nodup)
    (npub : UnitString) : peers.get npub = peers'.get npub := by
  have hnodup' : peers'.Nodup := (h.map Prod.fst).nodup_iff.1 hnodup
  ext p
  constructor
  · intro hget
    exact hnodup'.get_of_mem (h.mem_iff.1 (JsMap.mem_of_get hget))
  · intro hget
    exact hnodup.get_of_mem (h.mem_iff.2 (JsMap.mem_of_get hget))

/-- Two caches of one identity and scope with the same observations, in any order, are the same. -/
theorem Summary.unique {observations observations' : List PeerObservation} {r r' : RecentPeers}
    (h : Summary P observations r) (h' : Summary P observations' r') (hperm : observations.Perm observations')
    (hnpub : r.local_npub = r'.local_npub) (hscope : r.scope = r'.scope) : r = r' := by
  have hget : ∀ npub, r.peers.get npub = r'.peers.get npub := by
    intro npub
    rw [h.get, h'.get, peerOf?_perm hperm]
  have hmem : ∀ e, e ∈ r.peers ↔ e ∈ r'.peers := by
    intro e
    constructor
    · intro he
      exact JsMap.mem_of_get ((hget e.1).symm.trans (h.valid.nodup.get_of_mem he))
    · intro he
      exact JsMap.mem_of_get ((hget e.1).trans (h'.valid.nodup.get_of_mem he))
  have hpeers : r.peers.Perm r'.peers :=
    (List.perm_ext_iff_of_nodup h.valid.nodup.of_map h'.valid.nodup.of_map).2 hmem
  have heq : r.peers = r'.peers := by
    refine hpeers.eq_of_pairwise ?_ h.sorted h'.sorted
    intro a b ha hb hab hba
    have hboth : comparePeers RecentPeer.last_authenticated_at_ms a b = .eq := Std.OrientedCmp.isLE_antisymm hab hba
    unfold comparePeers at hboth
    rw [Ordering.then_eq_eq, Std.LawfulEqCmp.compare_eq_iff_eq, Std.LawfulEqCmp.compare_eq_iff_eq] at hboth
    have hgeta := h.valid.nodup.get_of_mem ha
    have hgetb := h.valid.nodup.get_of_mem ((hmem b).2 hb)
    rw [hboth.2, hgeta] at hgetb
    exact Prod.ext hboth.2.symm (Option.some.inj hgetb)
  cases r
  cases r'
  cases hnpub
  cases hscope
  cases heq
  rfl

/-- An observation of a cache that has room for its identity. -/
theorem Summary.observe (hP : P.NormalisesIpv6) {observations : List PeerObservation} {r : RecentPeers}
    {o : PeerObservation} (h : Summary P observations r) (ho : o.Valid P r.local_npub)
    (hfew : ((observations ++ [o]).map PeerObservation.remoteNpub).dedup.length ≤ RECENT_PEERS_MAX_PEERS) :
    ∃ r', observeAuthenticatedPeer P r.toValue o.remoteNpub (.num o.authenticatedAtMs) o.udpAddr = .ok r' ∧
      Summary P (observations ++ [o]) r' ∧ r'.local_npub = r.local_npub ∧ r'.scope = r.scope := by
  obtain ⟨key, ho⟩ := ho
  have hpeer : observedPeer P o.authenticatedAtMs (r.peers.get o.remoteNpub) key
      = peerOf P (observationsOf observations o.remoteNpub ++ [o]) := observedPeer_peerOf hP (h.get _) ho
  have hnodup := h.valid.nodup.set o.remoteNpub (peerOf P (observationsOf observations o.remoteNpub ++ [o]))
  have hget : ∀ npub, (r.peers.set o.remoteNpub (peerOf P (observationsOf observations o.remoteNpub ++ [o]))).get npub
      = peerOf? P (observations ++ [o]) npub := by
    intro npub
    rw [JsMap.get_set, peerOf?, observationsOf_append]
    by_cases heq : o.remoteNpub = npub
    · rw [if_pos heq, if_pos heq, if_neg (List.append_ne_nil_of_right_ne_nil _ (List.cons_ne_nil _ _)), heq]
    · rw [if_neg heq, if_neg heq, h.get]
      rfl
  have hroom : (r.peers.set o.remoteNpub (peerOf P (observationsOf observations o.remoteNpub ++ [o]))).length
      ≤ RECENT_PEERS_MAX_PEERS := by
    refine le_trans ?_ hfew
    rw [← List.length_map Prod.fst]
    apply List.Nodup.length_le_of_subset hnodup
    intro npub hnpub
    obtain ⟨e, he, rfl⟩ := List.mem_map.1 hnpub
    exact List.mem_dedup.2 (mem_remotes ((hget e.1).symm.trans (hnodup.get_of_mem he)))
  have hsorted : capPeers (r.peers.set o.remoteNpub (peerOf P (observationsOf observations o.remoteNpub ++ [o])))
      = sort (comparePeers RecentPeer.last_authenticated_at_ms)
          (r.peers.set o.remoteNpub (peerOf P (observationsOf observations o.remoteNpub ++ [o]))) := by
    rw [capPeers, capBy_eq hnodup, List.take_of_length_le (by rw [List.length_mergeSort]; exact hroom)]
    rfl
  have hvalid := h.valid.observe hP ho
  rw [hpeer] at hvalid
  refine ⟨_, observeAuthenticatedPeer_eq (parseRecentPeers_toValue h.valid) ho, ?_, rfl, rfl⟩
  rw [hpeer]
  refine ⟨hvalid, ?_, ?_⟩
  · show (capPeers _).Pairwise _
    rw [hsorted]
    exact sort_pairwise _ _
  · intro npub
    show (capPeers _).get npub = _
    rw [hsorted, ← get_of_perm perm_sort.symm hnodup, hget]

theorem Summary.run (hP : P.NormalisesIpv6) {observations : List PeerObservation} {empty : RecentPeers}
    (h : Summary P [] empty) (hvalid : ∀ o ∈ observations, o.Valid P empty.local_npub)
    (hfew : (observations.map PeerObservation.remoteNpub).dedup.length ≤ RECENT_PEERS_MAX_PEERS) :
    ∃ r, observeAuthenticatedPeers P empty observations = .ok r ∧
      Summary P observations r ∧ r.local_npub = empty.local_npub ∧ r.scope = empty.scope := by
  induction observations using List.reverseRecOn with
  | nil => exact ⟨empty, rfl, h, rfl, rfl⟩
  | append_singleton observations o ih =>
    have hprefix : (observations.map PeerObservation.remoteNpub).dedup.length ≤ RECENT_PEERS_MAX_PEERS := by
      refine le_trans (List.Nodup.length_le_of_subset (List.nodup_dedup _) ?_) hfew
      intro npub hnpub
      rw [List.mem_dedup] at hnpub ⊢
      rw [List.map_append]
      exact List.mem_append_left _ hnpub
    obtain ⟨r, hrun, hsummary, hnpub, hscope⟩ := ih (fun o ho => hvalid o (List.mem_append_left _ ho)) hprefix
    have ho := hvalid o (List.mem_append_right _ List.mem_cons_self)
    rw [← hnpub] at ho
    obtain ⟨r', hstep, hsummary', hnpub', hscope'⟩ := hsummary.observe hP ho hfew
    refine ⟨r', ?_, hsummary', hnpub'.trans hnpub, hscope'.trans hscope⟩
    unfold observeAuthenticatedPeers at hrun ⊢
    rw [List.foldlM_append, hrun, ok_bind, List.foldlM_cons, hstep]
    rfl

theorem createRecentPeers_summary {localNpub scope : JsValue} {empty : RecentPeers}
    (h : createRecentPeers P localNpub scope = .ok empty) : Summary P [] empty := by
  unfold createRecentPeers at h
  obtain ⟨npub, hnpub, h⟩ := except_bind_eq_ok.1 h
  obtain ⟨s, -, heq⟩ := except_bind_eq_ok.1 h
  cases heq
  have hcanonical := (requireCanonicalNpub_eq_ok.1 hnpub).2
  exact ⟨⟨hcanonical, Nat.zero_le _, List.nodup_nil, by rintro _ ⟨⟩, by rintro _ ⟨⟩⟩, List.Pairwise.nil, fun _ => rfl⟩

/-- Of an empty cache, valid observations of at most 256 identities make the same cache in any order:
of each identity the maxTime time, and of its addresses with their maxTime times the four best. -/
theorem observations_commute (hP : P.NormalisesIpv6) {localNpub scope : JsValue} {empty : RecentPeers}
    (hempty : createRecentPeers P localNpub scope = .ok empty) {observations observations' : List PeerObservation}
    (hvalid : ∀ o ∈ observations, o.Valid P empty.local_npub)
    (hfew : (observations.map PeerObservation.remoteNpub).dedup.length ≤ RECENT_PEERS_MAX_PEERS)
    (hperm : observations.Perm observations') :
    ∃ r, observeAuthenticatedPeers P empty observations = .ok r ∧
      observeAuthenticatedPeers P empty observations' = .ok r ∧
      ∀ npub, r.peers.get npub = peerOf? P observations npub := by
  have hsummary := createRecentPeers_summary hempty
  obtain ⟨r, hrun, hr, hnpub, hscope⟩ := hsummary.run hP hvalid hfew
  have hfew' : (observations'.map PeerObservation.remoteNpub).dedup.length ≤ RECENT_PEERS_MAX_PEERS := by
    rw [← (hperm.map PeerObservation.remoteNpub).dedup.length_eq]
    exact hfew
  obtain ⟨r', hrun', hr', hnpub', hscope'⟩ := hsummary.run hP (fun o ho => hvalid o (hperm.mem_iff.2 ho)) hfew'
  have heq := hr.unique hr' hperm (hnpub.trans hnpub'.symm) (hscope.trans hscope'.symm)
  exact ⟨r, hrun, heq ▸ hrun', hr.get⟩

/-- Two spellings of one socket, and two orders. -/
theorem observations_commute_toy : ∃ r,
    observeAuthenticatedPeers Memory.toyPlatform ⟨Memory.toyNpub 1, js "lab", []⟩
      [⟨Memory.toyNpub 2, 5, some (js "[fe80::1%003]:0080")⟩, ⟨Memory.toyNpub 2, 3, some (js "[fe80::1%3]:80")⟩] = .ok r ∧
    observeAuthenticatedPeers Memory.toyPlatform ⟨Memory.toyNpub 1, js "lab", []⟩
      [⟨Memory.toyNpub 2, 3, some (js "[fe80::1%3]:80")⟩, ⟨Memory.toyNpub 2, 5, some (js "[fe80::1%003]:0080")⟩] = .ok r ∧
    ∀ npub, r.peers.get npub = peerOf? Memory.toyPlatform
      [⟨Memory.toyNpub 2, 5, some (js "[fe80::1%003]:0080")⟩, ⟨Memory.toyNpub 2, 3, some (js "[fe80::1%3]:80")⟩] npub := by
  have hempty : createRecentPeers Memory.toyPlatform (.str (Memory.toyNpub 1)) (.str (js "lab"))
      = .ok ⟨Memory.toyNpub 1, js "lab", []⟩ := by decide +kernel
  have hvalid : ∀ o ∈ [PeerObservation.mk (Memory.toyNpub 2) 5 (some (js "[fe80::1%003]:0080")),
      ⟨Memory.toyNpub 2, 3, some (js "[fe80::1%3]:80")⟩], o.Valid Memory.toyPlatform (Memory.toyNpub 1) := by
    intro o ho
    refine ⟨some (js "[fe80::1%3]:80"), ?_⟩
    rcases List.mem_pair.1 ho with rfl | rfl
    · exact ⟨by decide +kernel, by decide +kernel, by decide, by decide +kernel⟩
    · exact ⟨by decide +kernel, by decide +kernel, by decide, by decide +kernel⟩
  exact observations_commute Memory.normalisesIpv6_toyPlatform hempty hvalid (by decide +kernel) (List.Perm.swap _ _ _)

end Fips
