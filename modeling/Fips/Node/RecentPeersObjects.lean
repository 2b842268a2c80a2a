import Fips.Lib.Heap
import Fips.Node.RecentPeersClosure

/-!
# The recent-peer cache in memory

The objects of a cache that the code writes to are arrays of endpoints and records of peers; all others
are values. The functions of `recentPeers.ts` over these objects compute what they compute over values,
and write to no object that was there before the call.
-/

namespace Fips
open Exec UnitStrings

/-- A `RecentPeer` object; `endpoints` is an array. -/
structure PeerObject where
  last_authenticated_at_ms : Nat
  endpoints : Nat

/-- A `RecentPeers` object; `peers` is a record. -/
structure CacheObject where
  local_npub : UnitString
  scope : UnitString
  peers : Nat

structure Memory where
  arrays : Heap (List RecentPeerEndpoint)
  records : Heap (JsMap UnitString PeerObject)

namespace Memory
variable {P : Platform} {m m' m'' : Memory}

/-! ## Reading and writing -/

def peer (m : Memory) (p : PeerObject) : RecentPeer := ⟨p.last_authenticated_at_ms, m.arrays.get p.endpoints⟩

def peers (m : Memory) (i : Nat) : JsMap UnitString RecentPeer := (m.records.get i).mapValues m.peer

/-- The value that an object has. -/
def cache (m : Memory) (c : CacheObject) : RecentPeers := ⟨c.local_npub, c.scope, m.peers c.peers⟩

def newArray (endpoints : List RecentPeerEndpoint) (m : Memory) : Nat × Memory :=
  (m.arrays.next, { m with arrays := m.arrays.alloc endpoints })

def writeArray (i : Nat) (f : List RecentPeerEndpoint → List RecentPeerEndpoint) (m : Memory) : Memory :=
  { m with arrays := m.arrays.modify i f }

def newRecord (peers : JsMap UnitString PeerObject) (m : Memory) : Nat × Memory :=
  (m.records.next, { m with records := m.records.alloc peers })

def writeRecord (i : Nat) (f : JsMap UnitString PeerObject → JsMap UnitString PeerObject) (m : Memory) : Memory :=
  { m with records := m.records.modify i f }

/-! ## The functions -/

/-- New peer objects, each with a new array. -/
def newPeers : JsMap UnitString RecentPeer → Memory → JsMap UnitString PeerObject × Memory
  | [], m => ([], m)
  | (npub, p) :: peers, m =>
    let (endpoints, m) := m.newArray p.endpoints
    let (objects, m) := newPeers peers m
    ((npub, ⟨p.last_authenticated_at_ms, endpoints⟩) :: objects, m)

/-- A new record of new peer objects. -/
def copyPeers (peers : JsMap UnitString RecentPeer) (m : Memory) : Nat × Memory :=
  let (objects, m) := newPeers peers m
  m.newRecord objects

def parseRecentPeers (P : Platform) (c : CacheObject) (m : Memory) : Except String (CacheObject × Memory) := do
  let parsed ← Fips.parseRecentPeers P (m.cache c).toValue (.str c.local_npub) (.str c.scope)
  let (peers, m) := m.copyPeers parsed.peers
  return (⟨parsed.local_npub, parsed.scope, peers⟩, m)

def clonePeers (i : Nat) (m : Memory) : Nat × Memory := m.copyPeers (m.peers i)

def capPeers (i : Nat) (m : Memory) : Nat × Memory :=
  m.newRecord (capBy PeerObject.last_authenticated_at_ms (m.records.get i))

/-- `existing?.endpoints ?? []`. -/
def existingArray (existing : Option PeerObject) (m : Memory) : Nat × Memory :=
  match existing with
  | some p => (p.endpoints, m)
  | none => m.newArray []

/-- `endpoints.filter(..)`, and `endpoints.push(..)` on the result. -/
def pushEndpoint (P : Platform) (authenticatedAtMs endpoints : Nat) (parsed : ParsedUdpSocketAddr) (m : Memory) :
    Except String (Nat × Memory) := do
  let keys ← (m.arrays.get endpoints).mapM fun e => addrKey P "cached UDP addr" e.addr
  let previous := ((m.arrays.get endpoints).zip keys).find? fun e => e.2 = parsed.key
  let (others, m) := m.newArray ((((m.arrays.get endpoints).zip keys).filter fun e => e.2 ≠ parsed.key).map Prod.fst)
  return (others, m.writeArray others fun others => others ++ [⟨parsed.canonical,
    max ((previous.map fun e => e.1.last_authenticated_at_ms).getD 0) authenticatedAtMs⟩])

/-- The array of endpoints of an observed peer. It is that of `existing` where no address is observed. -/
def observeEndpoints (P : Platform) (authenticatedAtMs : Nat) (existing : Option PeerObject)
    (parsedUdpAddr : Option ParsedUdpSocketAddr) (m : Memory) : Except String (Nat × Memory) := do
  let (endpoints, m) := m.existingArray existing
  let (endpoints, m) ← match parsedUdpAddr with
    | none => pure (endpoints, m)
    | some parsed => m.pushEndpoint P authenticatedAtMs endpoints parsed
  let m := m.writeArray endpoints sortEndpoints
  let m := m.writeArray endpoints (List.take RECENT_PEERS_MAX_ENDPOINTS)
  return (endpoints, m)

def observeAuthenticatedPeer (P : Platform) (c : CacheObject) (remoteNpub : UnitString) (authenticatedAtMs : JsValue)
    (udpAddr : Option UnitString) (m : Memory) : Except String (CacheObject × Memory) := do
  let (parsed, m) ← m.parseRecentPeers P c
  let remoteNpub ← requireCanonicalNpub P (.str remoteNpub) "remote_npub"
  if remoteNpub = parsed.local_npub then throw "cannot observe the local identity as a recent peer"
  let authenticatedAtMs ← requireTimestamp authenticatedAtMs "last_authenticated_at_ms"
  let parsedUdpAddr ← udpAddr.mapM fun addr => requireReusableUdpSocketAddr P addr "UDP addr"
  let (peers, m) := m.clonePeers parsed.peers
  let existing := (m.records.get peers).get remoteNpub
  let lastAuthenticatedAtMs := max ((existing.map PeerObject.last_authenticated_at_ms).getD 0) authenticatedAtMs
  let (endpoints, m) ← m.observeEndpoints P authenticatedAtMs existing parsedUdpAddr
  let m := m.writeRecord peers fun peers => peers.set remoteNpub ⟨lastAuthenticatedAtMs, endpoints⟩
  let (capped, m) := m.capPeers peers
  return ({ parsed with peers := capped }, m)

/-- One round of the pruning loop, which fills the record `peers`. -/
def pruneEntry (cutoff : Int) (peers : Nat) (m : Memory) (e : UnitString × PeerObject) : Memory :=
  if (e.2.last_authenticated_at_ms : Int) < cutoff then m
  else
    let (endpoints, m) := m.newArray
      ((m.arrays.get e.2.endpoints).filter fun endpoint => cutoff ≤ (endpoint.last_authenticated_at_ms : Int))
    let m := m.writeArray endpoints sortEndpoints
    m.writeRecord peers fun peers => peers.set e.1 ⟨e.2.last_authenticated_at_ms, endpoints⟩

def pruneRecentPeers (P : Platform) (c : CacheObject) (nowMs ttlMs : JsValue) (m : Memory) :
    Except String (CacheObject × Memory) := do
  let (parsed, m) ← m.parseRecentPeers P c
  let nowMs ← requireTimestamp nowMs "nowMs"
  let ttlMs ← requireTimestamp ttlMs "ttlMs"
  let cutoff : Int := nowMs - ttlMs
  let (peers, m) := m.newRecord []
  let m := (m.records.get parsed.peers).foldl (pruneEntry cutoff peers) m
  let (capped, m) := m.capPeers peers
  return ({ parsed with peers := capped }, m)

section
variable {endpoints : List RecentPeerEndpoint} {f : List RecentPeerEndpoint → List RecentPeerEndpoint} {i j : Nat}

@[simp] theorem get_newArray : (m.newArray endpoints).2.arrays.get m.arrays.next = endpoints := Heap.get_alloc_self

theorem get_newArray_of_ne (h : j ≠ m.arrays.next) : (m.newArray endpoints).2.arrays.get j = m.arrays.get j :=
  Heap.get_alloc_of_ne h

@[simp] theorem get_writeArray : (m.writeArray i f).arrays.get i = f (m.arrays.get i) := Heap.get_modify_self

theorem get_writeRecord {g : JsMap UnitString PeerObject → JsMap UnitString PeerObject} :
    (m.writeRecord i g).records.get i = g (m.records.get i) := Heap.get_modify_self

theorem get_writeArray_of_ne (h : j ≠ i) : (m.writeArray i f).arrays.get j = m.arrays.get j := Heap.get_modify_of_ne h

end

/-! ## What stays as it is -/

/-- No object that was there has changed. -/
structure Unchanged (m m' : Memory) : Prop where
  arraysNext : m.arrays.next ≤ m'.arrays.next
  recordsNext : m.records.next ≤ m'.records.next
  arrays : ∀ i < m.arrays.next, m'.arrays.get i = m.arrays.get i
  records : ∀ i < m.records.next, m'.records.get i = m.records.get i

namespace Unchanged

theorem refl (m : Memory) : Unchanged m m := ⟨Nat.le_refl _, Nat.le_refl _, fun _ _ => rfl, fun _ _ => rfl⟩

theorem trans (h : Unchanged m m') (h' : Unchanged m' m'') : Unchanged m m'' where
  arraysNext := h.arraysNext.trans h'.arraysNext
  recordsNext := h.recordsNext.trans h'.recordsNext
  arrays i hi := (h'.arrays i (hi.trans_le h.arraysNext)).trans (h.arrays i hi)
  records i hi := (h'.records i (hi.trans_le h.recordsNext)).trans (h.records i hi)

theorem newArray (endpoints : List RecentPeerEndpoint) (m : Memory) : Unchanged m (m.newArray endpoints).2 where
  arraysNext := Nat.le_succ _
  recordsNext := Nat.le_refl _
  arrays _ hi := Heap.get_alloc_of_lt hi
  records _ _ := rfl

theorem newRecord (peers : JsMap UnitString PeerObject) (m : Memory) : Unchanged m (m.newRecord peers).2 where
  arraysNext := Nat.le_refl _
  recordsNext := Nat.le_succ _
  arrays _ _ := rfl
  records _ hi := Heap.get_alloc_of_lt hi

/-- Writing to an object that is newer than `m`. -/
theorem writeArray (h : Unchanged m m') {i : Nat} (hi : m.arrays.next ≤ i)
    (f : List RecentPeerEndpoint → List RecentPeerEndpoint) : Unchanged m (m'.writeArray i f) where
  arraysNext := h.arraysNext
  recordsNext := h.recordsNext
  arrays j hj := (Heap.get_modify_of_ne (Nat.ne_of_lt (hj.trans_le hi))).trans (h.arrays j hj)
  records := h.records

theorem writeRecord (h : Unchanged m m') {i : Nat} (hi : m.records.next ≤ i)
    (f : JsMap UnitString PeerObject → JsMap UnitString PeerObject) : Unchanged m (m'.writeRecord i f) where
  arraysNext := h.arraysNext
  recordsNext := h.recordsNext
  arrays := h.arrays
  records j hj := (Heap.get_modify_of_ne (Nat.ne_of_lt (hj.trans_le hi))).trans (h.records j hj)

end Unchanged

/-! ## What the new objects are -/

/-- The peer objects of `peers`, each with an array of its own made since `m`. -/
structure Copied (m m' : Memory) (objects : JsMap UnitString PeerObject) (peers : JsMap UnitString RecentPeer) : Prop where
  unchanged : Unchanged m m'
  records : m'.records = m.records
  value : objects.mapValues m'.peer = peers
  new : ∀ e ∈ objects, m.arrays.next ≤ e.2.endpoints ∧ e.2.endpoints < m'.arrays.next
  apart : (objects.map fun e => e.2.endpoints).Nodup

theorem copied_newPeers (peers : JsMap UnitString RecentPeer) (m : Memory) :
    Copied m (m.newPeers peers).2 (m.newPeers peers).1 peers := by
  induction peers generalizing m with
  | nil => exact ⟨.refl m, rfl, rfl, by simp [newPeers], by simp [newPeers]⟩
  | cons e peers ih =>
    obtain ⟨npub, p⟩ := e
    have hrest := ih (m.newArray p.endpoints).2
    have hnext : (m.newArray p.endpoints).2.arrays.next = m.arrays.next + 1 := rfl
    have hget : (m.newPeers ((npub, p) :: peers)).2.arrays.get m.arrays.next = p.endpoints := by
      show ((m.newArray p.endpoints).2.newPeers peers).2.arrays.get m.arrays.next = p.endpoints
      rw [hrest.unchanged.arrays _ (by rw [hnext]; exact Nat.lt_succ_self _)]
      exact Heap.get_alloc_self
    refine ⟨(Unchanged.newArray _ _).trans hrest.unchanged, hrest.records, ?_, ?_, ?_⟩
    · show (npub, (m.newPeers ((npub, p) :: peers)).2.peer ⟨p.last_authenticated_at_ms, m.arrays.next⟩)
        :: ((m.newArray p.endpoints).2.newPeers peers).1.mapValues ((m.newArray p.endpoints).2.newPeers peers).2.peer = _
      rw [hrest.value, peer, hget]
    · intro e he
      rcases List.mem_cons.1 he with rfl | he
      · refine ⟨Nat.le_refl _, ?_⟩
        have hle := hrest.unchanged.arraysNext
        rw [hnext] at hle
        exact hle
      · obtain ⟨hlow, hhigh⟩ := hrest.new e he
        rw [hnext] at hlow
        exact ⟨Nat.le_of_succ_le hlow, hhigh⟩
    · show (m.arrays.next :: ((m.newArray p.endpoints).2.newPeers peers).1.map fun e => e.2.endpoints).Nodup
      refine List.nodup_cons.2 ⟨?_, hrest.apart⟩
      intro hmem
      obtain ⟨e, he, heq⟩ := List.mem_map.1 hmem
      have hlow := (hrest.new e he).1
      rw [hnext, heq] at hlow
      exact absurd hlow (Nat.not_succ_le_self _)

/-- A new record `i` with the value `peers`, whose peers have new arrays of their own. -/
structure Record (m m' : Memory) (i : Nat) (peers : JsMap UnitString RecentPeer) : Prop where
  unchanged : Unchanged m m'
  new : m.records.next ≤ i ∧ i < m'.records.next
  value : m'.peers i = peers
  arrays : ∀ e ∈ m'.records.get i, m.arrays.next ≤ e.2.endpoints ∧ e.2.endpoints < m'.arrays.next
  apart : ((m'.records.get i).map fun e => e.2.endpoints).Nodup

theorem record_copyPeers (peers : JsMap UnitString RecentPeer) (m : Memory) :
    Record m (m.copyPeers peers).2 (m.copyPeers peers).1 peers := by
  have hc := copied_newPeers peers m
  have hi : (m.copyPeers peers).1 = (m.newPeers peers).2.records.next := rfl
  have hget : (m.copyPeers peers).2.records.get (m.copyPeers peers).1 = (m.newPeers peers).1 := Heap.get_alloc_self
  refine ⟨hc.unchanged.trans (Unchanged.newRecord _ _), ⟨?_, Nat.lt_succ_self _⟩, ?_, ?_, ?_⟩
  · rw [hi, hc.records]
  · rw [Memory.peers, hget]
    exact hc.value
  · rw [hget]
    exact hc.new
  · rw [hget]
    exact hc.apart

/-- What a parse of the object's value returns, as a new object. -/
theorem parseRecentPeers_eq {P : Platform} {c : CacheObject} {r : RecentPeers}
    (h : Fips.parseRecentPeers P (m.cache c).toValue (.str c.local_npub) (.str c.scope) = .ok r) :
    ∃ i m', m.parseRecentPeers P c = .ok (⟨r.local_npub, r.scope, i⟩, m') ∧ Record m m' i r.peers := by
  refine ⟨_, _, ?_, record_copyPeers r.peers m⟩
  unfold parseRecentPeers
  rw [h, ok_bind]
  rfl

/-! ## Capping -/

theorem mapValues_capBy {ν μ : Type} {time : ν → Nat} {time' : μ → Nat} {f : ν → μ} {peers : JsMap UnitString ν}
    (hf : ∀ v, time' (f v) = time v) : (capBy time peers).mapValues f = capBy time' (peers.mapValues f) := by
  have hfold : ∀ (l : List (UnitString × ν)) (acc : JsMap UnitString ν),
      (l.foldl (fun capped e => JsMap.set capped e.1 e.2) acc).mapValues f
        = (l.map fun e => (e.1, f e.2)).foldl (fun capped e => JsMap.set capped e.1 e.2) (acc.mapValues f) := by
    intro l
    induction l with
    | nil => intro acc; rfl
    | cons e l ih =>
      intro acc
      rw [List.foldl_cons, ih, JsMap.mapValues_set]
      rfl
  unfold capBy
  rw [hfold, List.map_take]
  congr 2
  refine List.map_mergeSort ?_
  intro a _ b _
  simp only [comparePeers, hf]

theorem capPeers_spec (i : Nat) (m : Memory) : Unchanged m (m.capPeers i).2 ∧
    (m.capPeers i).2.peers (m.capPeers i).1 = Fips.capPeers (m.peers i) := by
  refine ⟨Unchanged.newRecord _ _, ?_⟩
  have hget : (m.capPeers i).2.records.get (m.capPeers i).1 = capBy PeerObject.last_authenticated_at_ms (m.records.get i) :=
    Heap.get_alloc_self
  rw [peers, hget]
  exact mapValues_capBy fun _ => rfl

/-! ## Observing -/

/-- The endpoints of an existing peer object. -/
def endpointsOf (m : Memory) (existing : Option PeerObject) : List RecentPeerEndpoint :=
  (existing.map fun p => m.arrays.get p.endpoints).getD []

/-- The array `i` of an observed peer: that of the existing peer, or a new one. -/
structure ObservedArray (m m' : Memory) (existing : Option PeerObject) (i : Nat) (endpoints : List RecentPeerEndpoint) :
    Prop where
  value : m'.arrays.get i = endpoints
  next : m.arrays.next ≤ m'.arrays.next
  others : ∀ j < m.arrays.next, j ≠ i → m'.arrays.get j = m.arrays.get j
  records : m'.records = m.records
  own : existing.map PeerObject.endpoints = some i ∨ m.arrays.next ≤ i

/-- Sorting and cutting the array in place. -/
theorem ObservedArray.cut {existing : Option PeerObject} {i : Nat} {endpoints : List RecentPeerEndpoint}
    (h : ObservedArray m m' existing i endpoints) :
    ObservedArray m ((m'.writeArray i sortEndpoints).writeArray i (List.take RECENT_PEERS_MAX_ENDPOINTS)) existing i
      ((sortEndpoints endpoints).take RECENT_PEERS_MAX_ENDPOINTS) := by
  refine ⟨?_, h.next, ?_, h.records, h.own⟩
  · rw [get_writeArray, get_writeArray, h.value]
  · intro j hj hne
    rw [get_writeArray_of_ne hne, get_writeArray_of_ne hne, h.others j hj hne]

theorem observed_existingArray (existing : Option PeerObject) (m : Memory) :
    ObservedArray m (m.existingArray existing).2 existing (m.existingArray existing).1 (m.endpointsOf existing) := by
  rcases existing with _ | p
  · refine ⟨Heap.get_alloc_self, Nat.le_succ _, ?_, rfl, .inr (Nat.le_refl _)⟩
    intro j hj hne
    exact Heap.get_alloc_of_lt hj
  · exact ⟨rfl, Nat.le_refl _, fun j hj hne => rfl, rfl, .inl rfl⟩

/-- A filtered array is new, whichever it was made from. -/
theorem pushEndpoint_spec {P : Platform} {t : Nat} {existing : Option PeerObject} {i : Nat}
    {endpoints : List RecentPeerEndpoint} {parsed : ParsedUdpSocketAddr} (h : ObservedArray m m' existing i endpoints)
    (hnew : ∀ j < m.arrays.next, m'.arrays.get j = m.arrays.get j)
    (hcanonical : parsed.canonical = parsed.key)
    (hreusable : ∀ e ∈ endpoints, (parseSocketAddr P e.addr).isSome = true) :
    ∃ i' m'', m'.pushEndpoint P t i parsed = .ok (i', m'') ∧
      ObservedArray m m'' existing i' (observed P t endpoints (some parsed.key)) := by
  obtain ⟨keys, hkeys⟩ := exists_keys hreusable
  let others := ((endpoints.zip keys).filter fun e => e.2 ≠ parsed.key).map Prod.fst
  let previous := (endpoints.zip keys).find? fun e => e.2 = parsed.key
  let push : List RecentPeerEndpoint → List RecentPeerEndpoint := fun others => others ++ [⟨parsed.canonical,
    max ((previous.map fun e => e.1.last_authenticated_at_ms).getD 0) t⟩]
  have hpush : push others = observed P t endpoints (some parsed.key) := by
    have htime : (previous.map fun e => e.1.last_authenticated_at_ms).getD 0 = endpointTime P endpoints parsed.key := by
      rw [endpointTime, ← zip_keys_find parsed.key hkeys, Option.map_map]
      rfl
    show ((endpoints.zip keys).filter fun e => e.2 ≠ parsed.key).map Prod.fst ++ [⟨parsed.canonical, max _ t⟩] = _
    rw [zip_keys_filter parsed.key hkeys, htime, hcanonical]
    rfl
  have hrun : m'.pushEndpoint P t i parsed
      = .ok (m'.arrays.next, (m'.newArray others).2.writeArray m'.arrays.next push) := by
    unfold pushEndpoint
    rw [h.value, mapM_addrKey.2 hkeys, ok_bind]
    rfl
  refine ⟨_, _, hrun, ?_, h.next.trans (Nat.le_succ _), ?_, h.records, .inr h.next⟩
  · rw [get_writeArray, get_newArray, hpush]
  · intro j hj hne
    rw [get_writeArray_of_ne hne, get_newArray_of_ne hne, hnew j hj]

theorem observeEndpoints_spec {P : Platform} {t : Nat} {existing : Option PeerObject}
    {parsedUdpAddr : Option ParsedUdpSocketAddr}
    (hparsed : ∀ parsed, parsedUdpAddr = some parsed → parsed.canonical = parsed.key)
    (hreusable : ∀ e ∈ m.endpointsOf existing, (parseSocketAddr P e.addr).isSome = true) :
    ∃ i m', m.observeEndpoints P t existing parsedUdpAddr = .ok (i, m') ∧ ObservedArray m m' existing i
      ((sortEndpoints (observed P t (m.endpointsOf existing) (parsedUdpAddr.map ParsedUdpSocketAddr.key))).take
        RECENT_PEERS_MAX_ENDPOINTS) := by
  have hstart := observed_existingArray existing m
  have hnew : ∀ j < m.arrays.next, (m.existingArray existing).2.arrays.get j = m.arrays.get j := by
    intro j hj
    rcases existing with _ | p
    · exact Heap.get_alloc_of_lt hj
    · rfl
  unfold observeEndpoints
  rcases parsedUdpAddr with _ | parsed
  · exact ⟨_, _, rfl, hstart.cut⟩
  · obtain ⟨i, m', hpush, hobserved⟩ := @pushEndpoint_spec m _ P t existing _ _ parsed hstart hnew (hparsed parsed rfl) hreusable
    refine ⟨i, _, ?_, hobserved.cut⟩
    dsimp only
    rw [hpush, ok_bind]
    rfl

/-! ## The functions compute what they compute over values -/

/-- An observation in memory: the value of the result, and every old object as it was. -/
theorem observeAuthenticatedPeer_spec {P : Platform} {c : CacheObject} {r : RecentPeers} {remoteNpub : UnitString}
    {t : Nat} {udpAddr key : Option UnitString}
    (hparse : Fips.parseRecentPeers P (m.cache c).toValue (.str c.local_npub) (.str c.scope) = .ok r)
    (ho : Observation P r.local_npub remoteNpub t udpAddr key) :
    ∃ c' m', m.observeAuthenticatedPeer P c remoteNpub (.num t) udpAddr = .ok (c', m') ∧ Unchanged m m' ∧
      m'.cache c' =
        { r with peers := Fips.capPeers (r.peers.set remoteNpub (observedPeer P t (r.peers.get remoteNpub) key)) } := by
  have hr := (parseRecentPeers_eq_ok hparse).1
  have hnpub : requireCanonicalNpub P (.str remoteNpub) "remote_npub" = .ok remoteNpub :=
    requireCanonicalNpub_eq_ok.2 ⟨rfl, ho.canonical⟩
  have htime : requireTimestamp (.num t) "last_authenticated_at_ms" = .ok t := requireTimestamp_eq_ok.2 ⟨rfl, ho.safe⟩
  obtain ⟨parsedUdpAddr, haddr, hcanonical, hkey⟩ : ∃ parsedUdpAddr : Option ParsedUdpSocketAddr,
      (udpAddr.mapM fun addr => requireReusableUdpSocketAddr P addr "UDP addr") = .ok parsedUdpAddr ∧
        (∀ parsed, parsedUdpAddr = some parsed → parsed.canonical = parsed.key) ∧
        parsedUdpAddr.map ParsedUdpSocketAddr.key = key := by
    have hreusable := ho.reusable
    rcases udpAddr with _ | addr
    · rcases key with _ | key
      · exact ⟨none, rfl, by rintro _ ⟨⟩, rfl⟩
      · cases hreusable
    · rcases key with _ | key
      · cases hreusable
      · refine ⟨some ⟨addr, key, key⟩, ?_, by rintro _ ⟨⟩; rfl, rfl⟩
        have hparsed : requireReusableUdpSocketAddr P addr "UDP addr" = .ok ⟨addr, key, key⟩ :=
          requireReusableUdpSocketAddr_eq_ok.2 ⟨Option.some.inj hreusable, rfl⟩
        rw [Option.mapM_some, hparsed]
        rfl
  obtain ⟨i₁, m₁, hparsed, hrec₁⟩ := parseRecentPeers_eq hparse
  obtain ⟨i₂, m₂, hclone, hrec₂⟩ : ∃ i₂ m₂, m₁.clonePeers i₁ = (i₂, m₂) ∧ Record m₁ m₂ i₂ r.peers := by
    refine ⟨(m₁.copyPeers r.peers).1, (m₁.copyPeers r.peers).2, ?_, record_copyPeers r.peers m₁⟩
    rw [← hrec₁.value]
    rfl
  let existing := (m₂.records.get i₂).get remoteNpub
  have hexisting : existing.map m₂.peer = r.peers.get remoteNpub := by
    rw [← JsMap.get_mapValues]
    exact congrArg (JsMap.get · remoteNpub) hrec₂.value
  have hendpoints : m₂.endpointsOf existing = ((r.peers.get remoteNpub).map RecentPeer.endpoints).getD [] := by
    rw [← hexisting, Option.map_map]
    rfl
  have htimes : existing.map PeerObject.last_authenticated_at_ms
      = (r.peers.get remoteNpub).map RecentPeer.last_authenticated_at_ms := by
    rw [← hexisting, Option.map_map]
    rfl
  have hreusable : ∀ e ∈ m₂.endpointsOf existing, (parseSocketAddr P e.addr).isSome = true := by
    rw [hendpoints]
    rcases hget : r.peers.get remoteNpub with _ | p
    · intro e he
      cases he
    · exact (hr.peer _ (JsMap.mem_of_get hget)).reusable
  obtain ⟨i₃, m₃, hobserve, harray⟩ := @observeEndpoints_spec m₂ P t existing parsedUdpAddr hcanonical hreusable
  rw [hendpoints, hkey] at harray
  let object : PeerObject := ⟨max ((existing.map PeerObject.last_authenticated_at_ms).getD 0) t, i₃⟩
  let m₄ := m₃.writeRecord i₂ fun peers => peers.set remoteNpub object
  have hrun : m.observeAuthenticatedPeer P c remoteNpub (.num t) udpAddr
      = .ok (⟨r.local_npub, r.scope, (m₄.capPeers i₂).1⟩, (m₄.capPeers i₂).2) := by
    unfold observeAuthenticatedPeer
    rw [hparsed, ok_bind]
    dsimp only
    rw [hnpub, ok_bind, if_neg ho.remote, htime, ok_bind, haddr, ok_bind, hclone]
    dsimp only
    rw [show m₂.observeEndpoints P t ((m₂.records.get i₂).get remoteNpub) parsedUdpAddr = .ok (i₃, m₃) from hobserve,
      ok_bind]
    rfl
  -- the array written is new to the caller
  have hnew₃ : m.arrays.next ≤ i₃ := by
    have h₁ := hrec₁.unchanged.arraysNext
    rcases harray.own with hown | hown
    · obtain ⟨p, hp, hpi⟩ := Option.map_eq_some_iff.1 hown
      have hmem := (hrec₂.arrays _ (JsMap.mem_of_get hp)).1
      rw [← hpi]
      exact h₁.trans hmem
    · exact h₁.trans (hrec₂.unchanged.arraysNext.trans hown)
  have hunchanged₂ := hrec₁.unchanged.trans hrec₂.unchanged
  have hunchanged₃ : Unchanged m m₃ := by
    refine ⟨hunchanged₂.arraysNext.trans harray.next, ?_, ?_, ?_⟩
    · rw [harray.records]
      exact hunchanged₂.recordsNext
    · intro j hj
      rw [harray.others j (hj.trans_le hunchanged₂.arraysNext) (Nat.ne_of_lt (hj.trans_le hnew₃)),
        hunchanged₂.arrays j hj]
    · intro j hj
      rw [harray.records, hunchanged₂.records j hj]
  have hunchanged₄ : Unchanged m m₄ :=
    hunchanged₃.writeRecord (hrec₁.unchanged.recordsNext.trans hrec₂.new.1) _
  obtain ⟨hcap, hcapped⟩ := capPeers_spec i₂ m₄
  refine ⟨_, _, hrun, hunchanged₄.trans hcap, ?_⟩
  have hobjects : JsMap.Nodup (m₂.records.get i₂) := by
    rw [← @JsMap.nodup_mapValues _ _ _ _ m₂.peer]
    have hnodup := hr.nodup
    rw [← hrec₂.value] at hnodup
    exact hnodup
  have hother : ∀ e ∈ m₂.records.get i₂, e.1 ≠ remoteNpub → m₃.peer e.2 = m₂.peer e.2 := by
    intro e he hne
    have hbound := (hrec₂.arrays e he).2
    have hapart : e.2.endpoints ≠ i₃ := by
      intro heq
      rcases harray.own with hown | hown
      · obtain ⟨p, hp, hpi⟩ := Option.map_eq_some_iff.1 hown
        have hsame := List.inj_on_of_nodup_map hrec₂.apart he (JsMap.mem_of_get hp) (heq.trans hpi.symm)
        exact hne (congrArg Prod.fst hsame)
      · rw [heq] at hbound
        exact absurd hown (Nat.not_le.2 hbound)
    rw [peer, peer, harray.others _ hbound hapart]
  have hvalue : m₄.peers i₂ = r.peers.set remoteNpub (observedPeer P t (r.peers.get remoteNpub) key) := by
    have hrecord : m₄.records.get i₂ = (m₂.records.get i₂).set remoteNpub object := by
      show (m₃.records.modify i₂ fun peers => peers.set remoteNpub object).get i₂ = _
      rw [Heap.get_modify_self, harray.records]
    have hobject : m₃.peer object = observedPeer P t (r.peers.get remoteNpub) key := by
      rw [peer, harray.value, observedPeer, ← htimes]
    show (m₄.records.get i₂).mapValues m₃.peer = _
    rw [hrecord, JsMap.mapValues_set_of_ne hobjects hother, hobject]
    exact congrArg (JsMap.set · _ _) hrec₂.value
  rw [cache, hcapped, hvalue]

/-- The pruning loop has filled the record `i`, which is new since `base`, with `peers`. -/
structure Pruning (base m : Memory) (i : Nat) (peers : JsMap UnitString RecentPeer) : Prop where
  unchanged : Unchanged base m
  new : base.records.next ≤ i
  value : m.peers i = peers
  arrays : ∀ e ∈ m.records.get i, e.2.endpoints < m.arrays.next
  nodup : peers.Nodup

theorem Pruning.step {base : Memory} {i : Nat} {peers : JsMap UnitString RecentPeer} (h : Pruning base m i peers)
    (cutoff : Int) {e : UnitString × PeerObject} (he : e.2.endpoints < base.arrays.next) :
    Pruning base (pruneEntry cutoff i m e) i
      ((prunePeer cutoff (e.1, base.peer e.2)).elim peers fun e' => peers.set e'.1 e'.2) := by
  unfold pruneEntry prunePeer
  by_cases hold : (e.2.last_authenticated_at_ms : Int) < cutoff
  · rw [if_pos hold, if_pos (show ((base.peer e.2).last_authenticated_at_ms : Int) < cutoff from hold)]
    exact h
  · rw [if_neg hold, if_neg (show ¬((base.peer e.2).last_authenticated_at_ms : Int) < cutoff from hold), Option.elim_some]
    let kept := (m.arrays.get e.2.endpoints).filter fun endpoint => cutoff ≤ (endpoint.last_authenticated_at_ms : Int)
    let object : PeerObject := ⟨e.2.last_authenticated_at_ms, m.arrays.next⟩
    let m₁ := (m.newArray kept).2.writeArray m.arrays.next sortEndpoints
    have hm₁ : Unchanged base m₁ :=
      (h.unchanged.trans (Unchanged.newArray kept m)).writeArray h.unchanged.arraysNext _
    have hrecord : (m₁.writeRecord i fun peers => peers.set e.1 object).records.get i
        = (m.records.get i).set e.1 object := by
      rw [get_writeRecord]
      rfl
    have hother : ∀ e' ∈ m.records.get i, e'.1 ≠ e.1 → m₁.peer e'.2 = m.peer e'.2 := by
      intro e' he' _
      have hne : e'.2.endpoints ≠ m.arrays.next := Nat.ne_of_lt (h.arrays e' he')
      rw [peer, peer, get_writeArray_of_ne hne, get_newArray_of_ne hne]
    have hobjects : JsMap.Nodup (m.records.get i) := by
      rw [← @JsMap.nodup_mapValues _ _ _ _ m.peer]
      have hnodup := h.nodup
      rw [← h.value] at hnodup
      exact hnodup
    have hobject : m₁.peer object = ⟨(base.peer e.2).last_authenticated_at_ms, sortEndpoints
        ((base.peer e.2).endpoints.filter fun endpoint => cutoff ≤ (endpoint.last_authenticated_at_ms : Int))⟩ := by
      rw [peer, get_writeArray, get_newArray]
      show (⟨_, sortEndpoints ((m.arrays.get e.2.endpoints).filter _)⟩ : RecentPeer) = _
      rw [h.unchanged.arrays _ he]
      rfl
    show Pruning base (m₁.writeRecord i fun peers => peers.set e.1 object) i _
    refine ⟨hm₁.writeRecord h.new _, h.new, ?_, ?_, h.nodup.set _ _⟩
    · show ((m₁.writeRecord i fun peers => peers.set e.1 object).records.get i).mapValues m₁.peer = _
      rw [hrecord, JsMap.mapValues_set_of_ne hobjects hother, hobject]
      exact congrArg (JsMap.set · _ _) h.value
    · intro e' he'
      rw [hrecord] at he'
      show e'.2.endpoints < m.arrays.next + 1
      rcases JsMap.mem_set he' with rfl | he'
      · exact Nat.lt_succ_self _
      · exact (h.arrays e' he').trans (Nat.lt_succ_self _)

theorem Pruning.run {base : Memory} {i : Nat} {peers : JsMap UnitString RecentPeer} (h : Pruning base m i peers)
    (cutoff : Int) {entries : JsMap UnitString PeerObject} (he : ∀ e ∈ entries, e.2.endpoints < base.arrays.next) :
    Pruning base (entries.foldl (pruneEntry cutoff i) m) i
      (((entries.mapValues base.peer).filterMap (prunePeer cutoff)).foldl (fun peers e => JsMap.set peers e.1 e.2) peers) := by
  induction entries generalizing m peers with
  | nil => exact h
  | cons e entries ih =>
    have hrest := ih (h.step cutoff (he e List.mem_cons_self)) fun e' he' => he e' (List.mem_cons_of_mem _ he')
    rw [List.foldl_cons]
    rw [JsMap.mapValues, List.map_cons, List.filterMap_cons]
    rcases hprune : prunePeer cutoff (e.1, base.peer e.2) with _ | e'
    · rw [hprune] at hrest
      exact hrest
    · rw [hprune] at hrest
      exact hrest

theorem pruneRecentPeers_spec {P : Platform} {c : CacheObject} {r : RecentPeers} {nowMs ttlMs : Nat}
    (hparse : Fips.parseRecentPeers P (m.cache c).toValue (.str c.local_npub) (.str c.scope) = .ok r)
    (hnow : (nowMs : Int) ≤ SAFE_INTEGER_MAX) (httl : (ttlMs : Int) ≤ SAFE_INTEGER_MAX) :
    ∃ c' m', m.pruneRecentPeers P c (.num nowMs) (.num ttlMs) = .ok (c', m') ∧ Unchanged m m' ∧
      m'.cache c' = { r with peers := Fips.capPeers (prunedPeers ((nowMs : Int) - ttlMs) r.peers) } := by
  have hnow' : requireTimestamp (.num nowMs) "nowMs" = .ok nowMs := requireTimestamp_eq_ok.2 ⟨rfl, hnow⟩
  have httl' : requireTimestamp (.num ttlMs) "ttlMs" = .ok ttlMs := requireTimestamp_eq_ok.2 ⟨rfl, httl⟩
  obtain ⟨i₁, m₁, hparsed, hrec⟩ := parseRecentPeers_eq hparse
  have hempty : Pruning m₁ (m₁.newRecord []).2 m₁.records.next [] := by
    have hget : (m₁.newRecord []).2.records.get m₁.records.next = [] := Heap.get_alloc_self
    refine ⟨Unchanged.newRecord _ _, Nat.le_refl _, ?_, ?_, List.nodup_nil⟩
    · rw [peers, hget]
      rfl
    · rw [hget]
      intro e he
      cases he
  have hloop := hempty.run ((nowMs : Int) - ttlMs) fun e he => (hrec.arrays e he).2
  rw [show (m₁.records.get i₁).mapValues m₁.peer = r.peers from hrec.value] at hloop
  let m₂ := (m₁.records.get i₁).foldl (pruneEntry ((nowMs : Int) - ttlMs) m₁.records.next) (m₁.newRecord []).2
  obtain ⟨hcap, hcapped⟩ := capPeers_spec m₁.records.next m₂
  have hrun : m.pruneRecentPeers P c (.num nowMs) (.num ttlMs)
      = .ok (⟨r.local_npub, r.scope, (m₂.capPeers m₁.records.next).1⟩, (m₂.capPeers m₁.records.next).2) := by
    unfold pruneRecentPeers
    rw [hparsed, ok_bind]
    dsimp only
    rw [hnow', ok_bind, httl', ok_bind]
    rw [show (m₁.newRecord []).2.records.get i₁ = m₁.records.get i₁ from Heap.get_alloc_of_lt hrec.new.2]
    rfl
  refine ⟨_, _, hrun, hrec.unchanged.trans (hloop.unchanged.trans hcap), ?_⟩
  rw [cache, hcapped, hloop.value]
  rfl

/-! ## Closure -/

/-- A cache value as the parser accepts it, and within its bounds. -/
structure Closed (P : Platform) (localNpub scope : UnitString) (r : RecentPeers) : Prop where
  parses : Fips.parseRecentPeers P r.toValue (.str localNpub) (.str scope) = .ok r
  fewPeers : r.peers.length ≤ 256
  fewEndpoints : ∀ e ∈ r.peers, e.2.endpoints.length ≤ 4
  distinct : ∀ e ∈ r.peers, (e.2.endpoints.map fun endpoint => parseSocketAddr P endpoint.addr).Nodup
  notNewer : ∀ e ∈ r.peers, ∀ endpoint ∈ e.2.endpoints, endpoint.last_authenticated_at_ms ≤ e.2.last_authenticated_at_ms
  notLocal : ∀ e ∈ r.peers, e.1 ≠ localNpub

theorem closed_of_valid {r : RecentPeers} {P : Platform} (h : r.Valid P) : Closed P r.local_npub r.scope r where
  parses := parseRecentPeers_toValue h
  fewPeers := h.few
  fewEndpoints e he := (h.peer e he).few
  distinct e he := (h.peer e he).distinct
  notNewer e he := (h.peer e he).notNewer
  notLocal e he := (h.remote e he).2

/-- Whatever value the parser accepts, an observation or a pruning of it gives a cache that the parser
accepts for the same identity and scope, and reads back as it is. Done to objects in memory, it leaves
every object that was there as it was, and its result has that value. -/
theorem updates_closed (P : Platform) (hP : P.NormalisesIpv6) :
    (∀ value localNpub scope r, Fips.parseRecentPeers P value (.str localNpub) (.str scope) = .ok r →
      (∀ remoteNpub t udpAddr key, Observation P localNpub remoteNpub t udpAddr key →
        ∃ r', Fips.observeAuthenticatedPeer P value remoteNpub (.num t) udpAddr = .ok r' ∧ Closed P localNpub scope r') ∧
      ∀ nowMs ttlMs : Nat, (nowMs : Int) ≤ SAFE_INTEGER_MAX → (ttlMs : Int) ≤ SAFE_INTEGER_MAX →
        ∃ r', Fips.pruneRecentPeers P value (.num nowMs) (.num ttlMs) = .ok r' ∧ Closed P localNpub scope r') ∧
    ∀ (m : Memory) (c : CacheObject) r,
      Fips.parseRecentPeers P (m.cache c).toValue (.str c.local_npub) (.str c.scope) = .ok r →
      (∀ remoteNpub t udpAddr key, Observation P c.local_npub remoteNpub t udpAddr key →
        ∃ c' m', m.observeAuthenticatedPeer P c remoteNpub (.num t) udpAddr = .ok (c', m') ∧ Unchanged m m' ∧
          Fips.observeAuthenticatedPeer P (m.cache c).toValue remoteNpub (.num t) udpAddr = .ok (m'.cache c')) ∧
      ∀ nowMs ttlMs : Nat, (nowMs : Int) ≤ SAFE_INTEGER_MAX → (ttlMs : Int) ≤ SAFE_INTEGER_MAX →
        ∃ c' m', m.pruneRecentPeers P c (.num nowMs) (.num ttlMs) = .ok (c', m') ∧ Unchanged m m' ∧
          Fips.pruneRecentPeers P (m.cache c).toValue (.num nowMs) (.num ttlMs) = .ok (m'.cache c') := by
  constructor
  · intro value localNpub scope r hparse
    obtain ⟨hvalid, hnpub, hscope, hlocal, hproperty⟩ := parseRecentPeers_eq_ok hparse
    cases JsValue.str.inj hnpub
    cases JsValue.str.inj hscope
    have hself : Fips.parseRecentPeers P value (value.property "local_npub") (value.property "scope") = .ok r := by
      rw [hlocal, hproperty]
      exact hparse
    constructor
    · intro remoteNpub t udpAddr key ho
      exact ⟨_, observeAuthenticatedPeer_eq hself ho, closed_of_valid (hvalid.observe hP ho)⟩
    · intro nowMs ttlMs hnow httl
      exact ⟨_, pruneRecentPeers_eq hself hnow httl, closed_of_valid (hvalid.prune _)⟩
  · intro m c r hparse
    obtain ⟨-, hnpub, hscope, hlocal, hproperty⟩ := parseRecentPeers_eq_ok hparse
    have hself : Fips.parseRecentPeers P (m.cache c).toValue ((m.cache c).toValue.property "local_npub")
        ((m.cache c).toValue.property "scope") = .ok r := hparse
    have hsame : c.local_npub = r.local_npub := JsValue.str.inj hnpub
    constructor
    · intro remoteNpub t udpAddr key ho
      rw [hsame] at ho
      obtain ⟨c', m', hrun, hunchanged, hvalue⟩ := observeAuthenticatedPeer_spec hparse ho
      refine ⟨c', m', hrun, hunchanged, ?_⟩
      rw [observeAuthenticatedPeer_eq hself ho, hvalue]
    · intro nowMs ttlMs hnow httl
      obtain ⟨c', m', hrun, hunchanged, hvalue⟩ := pruneRecentPeers_spec hparse hnow httl
      refine ⟨c', m', hrun, hunchanged, ?_⟩
      rw [pruneRecentPeers_eq hself hnow httl, hvalue]

/-! ### A platform -/

/-- The checksum of bech32. -/
def polymod (values : List Nat) : Nat :=
  values.foldl (fun chk v => (List.range 5).foldl (fun c i => if (chk >>> 25 >>> i) &&& 1 = 1 then
    c ^^^ [0x3b6a57b2, 0x26508e6d, 0x1ea119fa, 0x3d4233dd, 0x2a1462b3].getD i 0 else c)
    (((chk &&& 0x1ffffff) <<< 5) ^^^ v)) 1

def charset : UnitString := js "qpzry9x8gf2tvdw0s3jn54khce6mua7l"

/-- Bech32 of 32 bytes, and the hosts that are normal already. -/
def toyPlatform : Platform where
  urlHostname host :=
    if host ≠ [] ∧ host.all (fun u => isDigit u || u ∈ js "abcdef:") then some (unit '[' :: host ++ [unit ']']) else none
  bech32Encode hrp words :=
    let expanded := hrp.map (fun u => u.toNat >>> 5) ++ [0] ++ hrp.map (fun u => u.toNat &&& 31)
    let sum := polymod (expanded ++ words.map UInt8.toNat ++ List.replicate 6 0) ^^^ 1
    hrp ++ [unit '1'] ++ (words.map UInt8.toNat ++ (List.range 6).map fun i => (sum >>> (5 * (5 - i))) &&& 31).map
      fun w => charset.getD w 0
  bech32Decode encoded :=
    some (encoded.take 4, ((encoded.drop 5).take 52).map fun u => UInt8.ofNat (charset.idxOf u))
  toWords bytes :=
    let value := bytes.foldl (fun n b => n * 256 + b.toNat) 0 * 16
    (List.range 52).map fun i => UInt8.ofNat (value >>> (5 * (51 - i)) % 32)
  fromWords words :=
    let value := words.foldl (fun n w => n * 32 + w.toNat) 0 / 16
    some ((List.range 32).map fun i => UInt8.ofNat (value >>> (8 * (31 - i)) % 256))

theorem normalizedHost_toyPlatform {host h : UnitString} (hh : normalizedHost toyPlatform host = some h) :
    h = host ∧ host ≠ [] ∧ ∀ u ∈ host, isDigit u = true ∨ u ∈ js "abcdef:" := by
  unfold normalizedHost toyPlatform at hh
  dsimp only at hh
  by_cases hc : host ≠ [] ∧ host.all (fun u => isDigit u || u ∈ js "abcdef:")
  · have hall : ∀ u ∈ host, isDigit u = true ∨ u ∈ js "abcdef:" := by simpa using hc.2
    have hlower : host.map lower = host := by
      refine (List.map_congr_left ?_).trans (List.map_id host)
      intro u hu
      rcases hall u hu with hd | hd
      · simp only [isDigit, Bool.and_eq_true, decide_eq_true_eq] at hd
        exact if_neg (by omega)
      · rw [show js "abcdef:" = [97, 98, 99, 100, 101, 102, 58] from rfl] at hd
        simp only [List.mem_cons, List.not_mem_nil, or_false] at hd
        rcases hd with rfl | rfl | rfl | rfl | rfl | rfl | rfl <;> rfl
    rw [if_pos hc] at hh
    simp only [Option.bind_eq_bind, Option.bind_some] at hh
    split at hh
    · cases hh
    · have heq : ((unit '[' :: host ++ [unit ']']).drop 1).dropLast = host := by simp
      rw [heq, hlower] at hh
      exact ⟨(Option.some.inj hh).symm, hc.1, hall⟩
  · rw [if_neg hc] at hh
    cases hh

theorem normalisesIpv6_toyPlatform : toyPlatform.NormalisesIpv6 := by
  constructor
  · intro host h hh
    obtain ⟨rfl, hne, hall⟩ := normalizedHost_toyPlatform hh
    refine ⟨hne, ?_, ?_⟩
    · intro hm
      exact absurd (hall _ hm) (by decide)
    · intro hm
      exact absurd (hall _ hm) (by decide)
  · intro host h hh
    obtain ⟨rfl, -, -⟩ := normalizedHost_toyPlatform hh
    exact hh

/-- The npub of the key whose bytes are `n`. -/
def toyNpub (n : UInt8) : UnitString := (encodeNpub toyPlatform (List.replicate 32 n)).getD []

/-- A cache that knows a peer at two addresses, and one that can no longer be reached. -/
def toyCache : RecentPeers :=
  ⟨toyNpub 1, js "lab", [(toyNpub 2, ⟨4, [⟨js "[fe80::1%3]:81", 4⟩, ⟨js "192.0.2.1:53", 3⟩]⟩), (toyNpub 3, ⟨2, []⟩)]⟩

theorem toyCache_valid : toyCache.Valid toyPlatform where
  npub := by decide +kernel
  few := by decide
  nodup := show (toyCache.peers.map Prod.fst).Nodup by decide +kernel
  remote := by decide +kernel
  peer e he := by
    have hsafe : ∀ e ∈ toyCache.peers, (e.2.last_authenticated_at_ms : Int) ≤ SAFE_INTEGER_MAX := by decide +kernel
    have hfew : ∀ e ∈ toyCache.peers, e.2.endpoints.length ≤ RECENT_PEERS_MAX_ENDPOINTS := by decide +kernel
    have hnewer : ∀ e ∈ toyCache.peers, ∀ endpoint ∈ e.2.endpoints,
      endpoint.last_authenticated_at_ms ≤ e.2.last_authenticated_at_ms := by decide +kernel
    have hreusable : ∀ e ∈ toyCache.peers, ∀ endpoint ∈ e.2.endpoints,
      (parseSocketAddr toyPlatform endpoint.addr).isSome = true := by decide +kernel
    have hdistinct : ∀ e ∈ toyCache.peers, (e.2.endpoints.map fun endpoint =>
      parseSocketAddr toyPlatform endpoint.addr).Nodup := by decide +kernel
    exact ⟨hsafe e he, hfew e he, hnewer e he, hreusable e he, hdistinct e he⟩

/-- The peer is met at an address whose host has a scope, and the cache is then pruned. -/
theorem updates_closed_toy : ∃ r' r'',
    Fips.observeAuthenticatedPeer toyPlatform toyCache.toValue (toyNpub 2) (.num 5) (some (js "[fe80::1%003]:0080")) =
      .ok r' ∧ Closed toyPlatform (toyNpub 1) (js "lab") r' ∧
    Fips.pruneRecentPeers toyPlatform r'.toValue (.num 9) (.num 5) = .ok r'' ∧
      Closed toyPlatform (toyNpub 1) (js "lab") r'' := by
  have ho : Observation toyPlatform (toyNpub 1) (toyNpub 2) 5 (some (js "[fe80::1%003]:0080")) (some (js "[fe80::1%3]:80")) :=
    ⟨by decide +kernel, by decide +kernel, by decide, by decide +kernel⟩
  have hupdates := (updates_closed toyPlatform normalisesIpv6_toyPlatform).1
  obtain ⟨r', hobserved, hclosed⟩ := (hupdates _ _ _ _ (parseRecentPeers_toValue toyCache_valid)).1 _ _ _ _ ho
  obtain ⟨r'', hpruned, hclosed'⟩ := (hupdates _ _ _ _ hclosed.parses).2 9 5 (by decide) (by decide)
  exact ⟨r', r'', hobserved, hclosed, hpruned, hclosed'⟩

end Memory

end Fips
