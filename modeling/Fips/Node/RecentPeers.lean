import Fips.Codec.Binary
import Fips.Lib.JsMap
import Fips.Node.SocketAddr

/-!
# `recentPeers.ts`: reconnect hints of authenticated links

The cache is checked whenever it is read, and each update returns a new one. What is parsed is plain
data, as `JSON.parse` or a literal makes it: arrays have no holes, fields no getters, and objects are no
proxies. Of its numbers only integers matter, and all other values that are no string, array or object
are one.
-/

namespace Fips
open Exec UnitStrings

inductive JsValue
  | str (s : UnitString)
  | num (n : Int)
  /-- `undefined`, `null`, a boolean, a fractional or infinite number, a function, ... -/
  | other
  | array (items : List JsValue)
  /-- `plain` objects have `Object.prototype` or no prototype. -/
  | object (plain : Bool) (fields : List (UnitString × JsValue))

def RECENT_PEERS_VERSION : Int := 1
def RECENT_PEERS_MAX_PEERS : Nat := 256
def RECENT_PEERS_MAX_ENDPOINTS : Nat := 4
/-- `Number.MAX_SAFE_INTEGER`. -/
def SAFE_INTEGER_MAX : Int := 2 ^ 53 - 1

/-- Its `transport` is always `"udp"`. -/
structure RecentPeerEndpoint where
  addr : UnitString
  last_authenticated_at_ms : Nat
deriving DecidableEq

structure RecentPeer where
  last_authenticated_at_ms : Nat
  endpoints : List RecentPeerEndpoint
deriving DecidableEq

/-- Its `version` is always 1. -/
structure RecentPeers where
  local_npub : UnitString
  scope : UnitString
  peers : JsMap UnitString RecentPeer
deriving DecidableEq

/-! ## The values of a cache -/

def RecentPeerEndpoint.toValue (e : RecentPeerEndpoint) : JsValue :=
  .object true [(js "transport", .str (js "udp")), (js "addr", .str e.addr),
    (js "last_authenticated_at_ms", .num e.last_authenticated_at_ms)]

def RecentPeer.toValue (p : RecentPeer) : JsValue :=
  .object true [(js "last_authenticated_at_ms", .num p.last_authenticated_at_ms),
    (js "endpoints", .array (p.endpoints.map RecentPeerEndpoint.toValue))]

def RecentPeers.toValue (r : RecentPeers) : JsValue :=
  .object true [(js "version", .num RECENT_PEERS_VERSION), (js "local_npub", .str r.local_npub),
    (js "scope", .str r.scope), (js "peers", .object true (r.peers.map fun e => (e.1, e.2.toValue)))]

/-! ## Checks -/

/-- The property of an object, `undefined` where it has none. -/
def property (fields : List (UnitString × JsValue)) (name : String) : JsValue := (fields.lookup (js name)).getD .other

def JsValue.property : JsValue → String → JsValue
  | .object _ fields, name => Fips.property fields name
  | _, _ => .other

def JsValue.isString : JsValue → UnitString → Bool
  | .str s, s' => s = s'
  | _, _ => false

def requireRecord (value : JsValue) (label : String) : Except String (List (UnitString × JsValue)) :=
  match value with
  | .object true fields => .ok fields
  | .object false _ => .error s!"{label} must be a JSON object"
  | _ => .error s!"{label} must be an object"

/-- The sorted keys are equal. -/
def requireExactKeys (fields : List (UnitString × JsValue)) (expectedKeys : List String) (label : String) :
    Except String Unit :=
  if (fields.map Prod.fst).isPerm (expectedKeys.map js) then .ok () else .error s!"{label} has unexpected keys"

def requireString (value : JsValue) (label : String) : Except String UnitString :=
  match value with
  | .str s => .ok s
  | _ => .error s!"{label} must be a string"

def requireTimestamp (value : JsValue) (label : String) : Except String Nat :=
  match value with
  | .num n => if 0 ≤ n ∧ n ≤ SAFE_INTEGER_MAX then .ok n.toNat
    else .error s!"{label} must be a non-negative safe integer"
  | _ => .error s!"{label} must be a non-negative safe integer"

def NPUB_HRP : UnitString := js "npub"

/-- `encodeNpub`, or none where it throws. -/
def encodeNpub (P : Platform) (xOnlyPubkey : List UInt8) : Option UnitString :=
  if xOnlyPubkey.length ≠ 32 then none else some (P.bech32Encode NPUB_HRP (P.toWords xOnlyPubkey))

def decodeNpub (P : Platform) (npub : UnitString) : Option (List UInt8) := do
  let (hrp, words) ← P.bech32Decode npub
  if hrp ≠ NPUB_HRP then none
  else
    let bytes ← P.fromWords words
    if bytes.length ≠ 32 then none else some bytes

def isCanonicalNpub (P : Platform) (npub : UnitString) : Bool := (decodeNpub P npub).bind (encodeNpub P) = some npub

def requireCanonicalNpub (P : Platform) (value : JsValue) (label : String) : Except String UnitString := do
  let npub ← requireString value label
  if isCanonicalNpub P npub then return npub else throw s!"{label} must be a canonical npub"

/-! ## Parsing -/

def parseRecentPeerEndpoint (P : Platform) (peerAuthenticatedAtMs : Nat) (value : JsValue) :
    Except String RecentPeerEndpoint := do
  let endpoint ← requireRecord value "recent peer endpoint"
  requireExactKeys endpoint ["transport", "addr", "last_authenticated_at_ms"] "recent peer endpoint"
  if (property endpoint "transport").isString (js "udp") = false then throw "recent peer endpoint transport must be udp"
  let addr ← requireString (property endpoint "addr") "recent peer endpoint addr"
  let parsed ← requireReusableUdpSocketAddr P addr "recent peer endpoint addr"
  let lastAuthenticatedAtMs ← requireTimestamp (property endpoint "last_authenticated_at_ms")
    "recent peer endpoint last_authenticated_at_ms"
  if lastAuthenticatedAtMs > peerAuthenticatedAtMs then throw "recent peer endpoint is newer than its peer"
  return ⟨parsed.addr, lastAuthenticatedAtMs⟩

/-- `requireReusableUdpSocketAddr(addr, label).key`. -/
def addrKey (P : Platform) (label : String) (addr : UnitString) : Except String UnitString :=
  (requireReusableUdpSocketAddr P addr label).map ParsedUdpSocketAddr.key

def parseRecentPeer (P : Platform) (value : JsValue) : Except String RecentPeer := do
  let peer ← requireRecord value "recent peer"
  requireExactKeys peer ["last_authenticated_at_ms", "endpoints"] "recent peer"
  let lastAuthenticatedAtMs ← requireTimestamp (property peer "last_authenticated_at_ms")
    "recent peer last_authenticated_at_ms"
  match property peer "endpoints" with
  | .array items =>
    if items.length > RECENT_PEERS_MAX_ENDPOINTS then throw s!"recent peer exceeds {RECENT_PEERS_MAX_ENDPOINTS} endpoints"
    let endpoints ← items.mapM (parseRecentPeerEndpoint P lastAuthenticatedAtMs)
    let addresses ← endpoints.mapM fun e => addrKey P "recent peer endpoint addr" e.addr
    if addresses.dedup.length ≠ endpoints.length then throw "recent peer endpoints must have unique UDP addresses"
    return ⟨lastAuthenticatedAtMs, endpoints⟩
  | _ => throw "recent peer endpoints must be an array"

def parsePeerEntry (P : Platform) (localNpub : UnitString) (peers : JsMap UnitString RecentPeer)
    (entry : UnitString × JsValue) : Except String (JsMap UnitString RecentPeer) := do
  let remoteNpub ← requireCanonicalNpub P (.str entry.1) "remote_npub"
  if remoteNpub = localNpub then throw "recent peers must not contain the local identity"
  return peers.set remoteNpub (← parseRecentPeer P entry.2)

def parseRecentPeers (P : Platform) (value expectedLocalNpub expectedScope : JsValue) : Except String RecentPeers := do
  let expectedLocalNpub ← requireCanonicalNpub P expectedLocalNpub "expected local_npub"
  let expectedScope ← requireString expectedScope "expected scope"
  let root ← requireRecord value "recent peers"
  requireExactKeys root ["version", "local_npub", "scope", "peers"] "recent peers"
  match property root "version" with
  | .num version =>
    if version ≠ RECENT_PEERS_VERSION then throw s!"recent peers version must be {RECENT_PEERS_VERSION}"
    let localNpub ← requireCanonicalNpub P (property root "local_npub") "local_npub"
    if localNpub ≠ expectedLocalNpub then throw "recent peers local_npub does not match the expected identity"
    let scope ← requireString (property root "scope") "scope"
    if scope ≠ expectedScope then throw "recent peers scope does not match the expected scope"
    let entries ← requireRecord (property root "peers") "peers"
    if entries.length > RECENT_PEERS_MAX_PEERS then throw s!"recent peers exceeds {RECENT_PEERS_MAX_PEERS} peers"
    let peers ← entries.foldlM (parsePeerEntry P localNpub) []
    return ⟨localNpub, scope, peers⟩
  | _ => throw s!"recent peers version must be {RECENT_PEERS_VERSION}"

/-! ## Updates -/

def createRecentPeers (P : Platform) (localNpub scope : JsValue) : Except String RecentPeers := do
  let localNpub ← requireCanonicalNpub P localNpub "local_npub"
  let scope ← requireString scope "scope"
  return ⟨localNpub, scope, []⟩

/-- `compareEndpoints`: the newest first, then by address. -/
def compareEndpoints (left right : RecentPeerEndpoint) : Ordering :=
  (compare right.last_authenticated_at_ms left.last_authenticated_at_ms).then (compare left.addr right.addr)

/-- The order in which `capPeers` keeps peers: the newest first, then by descending name. -/
def comparePeers {ν : Type} (time : ν → Nat) (left right : UnitString × ν) : Ordering :=
  (compare (time right.2) (time left.2)).then (compare right.1 left.1)

def sortEndpoints (endpoints : List RecentPeerEndpoint) : List RecentPeerEndpoint :=
  endpoints.mergeSort fun left right => (compareEndpoints left right).isLE

/-- `capPeers` on records of values with a time. -/
def capBy {ν : Type} (time : ν → Nat) (peers : JsMap UnitString ν) : JsMap UnitString ν :=
  (((peers.mergeSort fun left right => (comparePeers time left right).isLE).take RECENT_PEERS_MAX_PEERS)).foldl
    (fun capped e => JsMap.set capped e.1 e.2) []

def capPeers : JsMap UnitString RecentPeer → JsMap UnitString RecentPeer := capBy RecentPeer.last_authenticated_at_ms

/-- The endpoints of a peer once `parsed` is observed. -/
def observeEndpoint (P : Platform) (authenticatedAtMs : Nat) (endpoints : List RecentPeerEndpoint)
    (parsed : ParsedUdpSocketAddr) : Except String (List RecentPeerEndpoint) := do
  let keys ← endpoints.mapM fun e => addrKey P "cached UDP addr" e.addr
  let previous := (endpoints.zip keys).find? fun e => e.2 = parsed.key
  let others := ((endpoints.zip keys).filter fun e => e.2 ≠ parsed.key).map Prod.fst
  return others ++ [⟨parsed.canonical, max ((previous.map fun e => e.1.last_authenticated_at_ms).getD 0) authenticatedAtMs⟩]

def observeAuthenticatedPeer (P : Platform) (recentPeers : JsValue) (remoteNpub : UnitString)
    (authenticatedAtMs : JsValue) (udpAddr : Option UnitString) : Except String RecentPeers := do
  let parsed ← parseRecentPeers P recentPeers (recentPeers.property "local_npub") (recentPeers.property "scope")
  let remoteNpub ← requireCanonicalNpub P (.str remoteNpub) "remote_npub"
  if remoteNpub = parsed.local_npub then throw "cannot observe the local identity as a recent peer"
  let authenticatedAtMs ← requireTimestamp authenticatedAtMs "last_authenticated_at_ms"
  let parsedUdpAddr ← udpAddr.mapM fun addr => requireReusableUdpSocketAddr P addr "UDP addr"
  let existing := parsed.peers.get remoteNpub
  let lastAuthenticatedAtMs := max ((existing.map RecentPeer.last_authenticated_at_ms).getD 0) authenticatedAtMs
  let endpoints := (existing.map RecentPeer.endpoints).getD []
  let endpoints ← match parsedUdpAddr with
    | none => pure endpoints
    | some parsedUdpAddr => observeEndpoint P authenticatedAtMs endpoints parsedUdpAddr
  let endpoints := (sortEndpoints endpoints).take RECENT_PEERS_MAX_ENDPOINTS
  return { parsed with peers := capPeers (parsed.peers.set remoteNpub ⟨lastAuthenticatedAtMs, endpoints⟩) }

/-- The entry of a peer after pruning, if it is kept. -/
def prunePeer (cutoff : Int) (e : UnitString × RecentPeer) : Option (UnitString × RecentPeer) :=
  if (e.2.last_authenticated_at_ms : Int) < cutoff then none
  else some (e.1, ⟨e.2.last_authenticated_at_ms,
    sortEndpoints (e.2.endpoints.filter fun endpoint => cutoff ≤ (endpoint.last_authenticated_at_ms : Int))⟩)

def pruneRecentPeers (P : Platform) (recentPeers nowMs ttlMs : JsValue) : Except String RecentPeers := do
  let parsed ← parseRecentPeers P recentPeers (recentPeers.property "local_npub") (recentPeers.property "scope")
  let nowMs ← requireTimestamp nowMs "nowMs"
  let ttlMs ← requireTimestamp ttlMs "ttlMs"
  let cutoff : Int := nowMs - ttlMs
  let peers := (parsed.peers.filterMap (prunePeer cutoff)).foldl (fun peers e => JsMap.set peers e.1 e.2) []
  return { parsed with peers := capPeers peers }

end Fips
