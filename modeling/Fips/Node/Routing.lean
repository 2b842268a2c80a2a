import Fips.Node.LearnedRoutes
import Fips.Node.OriginLookups
import Fips.Node.TreeFrames
import Fips.Protocol.Filter
import Fips.Node.PeerState

/-!
# `node/FipsRouting.ts`, `node/BloomRouting.ts`: the routing layer

An `async` method is cut at its awaits: each event is one synchronous stretch, and what is left of a method after
an await is a task, which may run at any later time. Reverse paths and lookups are objects on a heap, so that a
task can go on with one that is no longer in its map. The peers belong to the node: a stretch sees them through
`RoutingEnv`, which also says whether a `sendLinkMessage` that is called in it will succeed.
-/

namespace Fips
open Exec LittleEndian

def MAX_PENDING_ROUTE_RESOLUTIONS : Nat := 64
def LOOKUP_REVERSE_PATH_TTL_MS : ℚ := 30000
def MAX_LOOKUP_REVERSE_PATHS : Nat := 256
def LOOKUP_ORIGIN_TTL : Nat := 8
def MAX_PENDING_ORIGIN_LOOKUPS : Nat := 64
def REPLY_LEARNED_ROUTE_TTL_SECONDS : Nat := 300
def MAX_REPLY_LEARNED_ROUTES_PER_DESTINATION : Nat := 4
def MAX_REPLY_LEARNED_LOOKUP_PEERS : Nat := 16
def FSP_DEFAULT_PATH_MTU : Nat := 1200

def ROUTED_FRAME_OVERHEAD : Nat :=
  SESSION_DATAGRAM_HEADER_SIZE + FMP_ESTABLISHED_HEADER_LEN + FMP_AEAD_TAG_LEN + 4

/-- `MAX_INBOUND_FILTER_FPR`. -/
def MAX_INBOUND_FILTER_FPR : ℚ := 1 / 5

inductive RoutingMode
  | tree
  | replyLearned
deriving DecidableEq

structure RoutingConfig where
  identity : FipsIdentity
  forwarding : Bool
  strictClient : Bool
  routingMode : RoutingMode
  defaultRoute : Option Bytes
  /-- Some transport has `resolve`. -/
  canResolve : Bool
  /-- `Math.pow(x, 1.5)`. -/
  pow15 : ℚ → ℚ
  /-- Checked by the constructor of the node. -/
  no_transit : strictClient = true → forwarding = false

/-- What the routing layer reads of an `AdjacentPeer`. -/
structure PeerView where
  pubkey : Bytes
  /-- `link.state === "established"`. -/
  established : Bool
  /-- `transport.mtu`, `transport.maxFrameBytes`. -/
  mtu : Nat
  maxFrameBytes : Option Nat
deriving DecidableEq

/-- What a stretch reads from the outside. -/
structure RoutingEnv where
  nowMs : ℚ
  peer : PeerId → PeerView
  getPeers : List PeerId
  getPeerByPubkey : Bytes → Option PeerId
  getPeerByNodeAddr : NodeAddr → Option PeerId
  /-- `assertNodeAllowed` does not throw. -/
  nodeAllowed : NodeAddr → Bool
  random : List Bytes
  /-- Whether the promise of `sendLinkMessage` will be fulfilled. -/
  sends : PeerId → Nat → Bytes → Bool
  /-- The frames the session manager hands out for a next hop. -/
  frames : PeerId → List Bytes

namespace RoutingEnv

def nowSeconds (env : RoutingEnv) : Nat := ⌊env.nowMs / 1000⌋₊

def peerNodeKey (S : Suite) (env : RoutingEnv) (p : PeerId) : NodeAddr := nodeAddrOf S (env.peer p).pubkey

def established (env : RoutingEnv) (p : PeerId) : Bool := (env.peer p).established

def frameCapacity (env : RoutingEnv) (p : PeerId) : Nat :=
  min 0xffff ((env.peer p).maxFrameBytes.getD (env.peer p).mtu)

/-- A peer `selectCarrier` may take. -/
def usable (env : RoutingEnv) (excludedPeer : Option PeerId) (minMtu : Nat) (p : PeerId) : Bool :=
  env.established p && (excludedPeer.map fun q => (env.peer q).pubkey) ≠ some (env.peer p).pubkey &&
    minMtu ≤ env.frameCapacity p

def selectCarrier (S : Suite) (env : RoutingEnv) (preferred excludedPeer : Option PeerId) (minMtu : Nat) : Option PeerId :=
  match preferred with
  | none => none
  | some q =>
    if env.usable excludedPeer minMtu q then some q
    else env.getPeers.find? fun p => env.usable excludedPeer minMtu p && env.peerNodeKey S p = env.peerNodeKey S q

end RoutingEnv

/-- `lookupReverseKey`: the id and the target of a request. -/
abbrev ReverseKey := Nat × NodeAddr

def lookupReverseKey (requestId : Nat) (target : NodeAddr) : ReverseKey := (requestId, target)

/-- The handle of a reverse path. -/
abbrev ReverseId := Nat

structure LookupReversePath where
  peer : PeerId
  expiresAtMs : ℚ
  forwardedNextHops : Finset NodeAddr
  request : LookupRequest
deriving DecidableEq

/-- The fields of an `AdjacentPeer` that belong to the routing layer. An outbound filter is known by the sequence it
was sent under. -/
structure PeerRole where
  clientSupported : Bool
  clientOnly : Bool
  routingRoleSequence : Option Nat
  treeAnnounced : Bool
  filterAnnounced : Bool
  inboundFilter : Option BloomFilter
  inboundFilterSequence : Option Nat
  outboundFilter : Option (Nat × BloomFilter)
deriving DecidableEq

def PeerRole.new : PeerRole := ⟨false, false, none, false, false, none, none, none⟩

/-- Where a datagram comes from: the node, with a frame or with those the session manager has for the next hop, or a
peer. -/
inductive DatagramSource
  | own (frame : Option Bytes)
  | transit (previousHop : PeerId) (payload : Bytes)
deriving DecidableEq

/-- A SessionDatagram on its way out. -/
structure OutboundSessionDatagram where
  ttl : Nat
  pathMtu : Nat
  srcAddr : NodeAddr
  destAddr : NodeAddr
  source : DatagramSource
deriving DecidableEq

namespace OutboundSessionDatagram

def previousHop (d : OutboundSessionDatagram) : Option PeerId :=
  match d.source with
  | .own _ => none
  | .transit p _ => some p

def frames (env : RoutingEnv) (nextHop : PeerId) (d : OutboundSessionDatagram) : List Bytes :=
  match d.source with
  | .own none => env.frames nextHop
  | .own (some frame) => [frame]
  | .transit _ payload => [payload]

/-- The datagram with one of its frames. -/
def withPayload (payload : Bytes) (d : OutboundSessionDatagram) : SessionDatagram :=
  ⟨d.ttl, d.pathMtu, d.srcAddr, d.destAddr, payload⟩

end OutboundSessionDatagram

/-- What is left of a method after an await. -/
inductive RoutingTask
  /-- The timers of `scheduleTreeAnnounce`, and the `catch` of a failed announcement. -/
  | treeAnnounce (peer : PeerId)
  | treeAnnounceFailed (peer : PeerId)
  | filterAnnounce (peer : PeerId)
  | filterAnnounceFailed (peer : PeerId)
  /-- The `catch` of `BloomRouting.send`. -/
  | filterFailed (peer : PeerId) (sequence : Nat) (previous : Option (Nat × BloomFilter))
  | bloomSendAll (excludedPeer : Option PeerId)
  /-- The results of forwarding a request. -/
  | forwarded (key : ReverseKey) (reverse : ReverseId) (results : List (NodeAddr × Bool))
  /-- The result of a replay, or of forwarding after a transport resolution. -/
  | sent (reverse : ReverseId) (nextHop : NodeAddr) (ok : Bool)
  | resolveLookup (key : ReverseKey) (reverse : ReverseId) (source : PeerId) (promise : Nat) (owner : Bool)
  | forwardLookupResponse (peer : PeerId) (payload : Bytes)
  | retry (lookup : LookupId) (request : LookupRequest) (excludedPeer : Option PeerId)
  | datagramResolving (d : OutboundSessionDatagram) (promise : Nat) (owner : Bool)
  /-- A route is being refreshed: for the datagram, or for a frame of it that did not fit, with the frames behind it. -/
  | datagramRefreshing (d : OutboundSessionDatagram) (lookup : LookupId) (own : Bool) (minMtu : Nat)
    (frames : Option (Bytes × List Bytes))
  | datagramSending (d : OutboundSessionDatagram) (nextHop : PeerId) (frames : List Bytes)
deriving DecidableEq

/-- What a message is sent for: the node itself, a request or response of a reverse path, or the datagram of a peer. -/
inductive SendCause
  | own
  | reverse (rid : ReverseId)
  | transit (previousHop : PeerId)
deriving DecidableEq

def OutboundSessionDatagram.cause (d : OutboundSessionDatagram) : SendCause :=
  match d.source with
  | .own _ => .own
  | .transit p _ => .transit p

/-- A call of `sendLinkMessage`: the peer as it is at the time, and how the promise will end. -/
structure LinkSend where
  cause : SendCause
  peer : PeerId
  view : PeerView
  msgType : Nat
  payload : Bytes
  ok : Bool
deriving DecidableEq

/-- What reaches the outside. -/
inductive RoutingEffect
  | send (m : LinkSend)
  | handleLocalSession (peer : PeerId) (srcNodeAddr : NodeAddr) (payload : Bytes)
  | resolveAndConnect (destNodeAddr : NodeAddr) (promise : Nat)
deriving DecidableEq

structure Routing where
  treeState : TreeState
  /-- `pendingRouteResolutions`: the promises of the running resolutions. -/
  pendingRouteResolutions : JsMap NodeAddr Nat
  lookupReversePaths : JsMap ReverseKey ReverseId
  reverses : List LookupReversePath
  originLookups : OriginLookupRegistry
  learnedRoutes : LearnedRouteTable
  coordCache : JsMap NodeAddr (List NodeAddr)
  clientSequence : Nat
  filterSequence : Nat
  roles : PeerId → PeerRole
  promises : List PromiseState
  tasks : List RoutingTask
  log : List RoutingEffect

abbrev RM := EStateM String Routing

namespace Routing

def new (cfg : RoutingConfig) (nowSeconds : Nat) : Routing where
  treeState := TreeState.new cfg.identity nowSeconds
  pendingRouteResolutions := []
  lookupReversePaths := []
  reverses := []
  originLookups := OriginLookupRegistry.new MAX_PENDING_ORIGIN_LOOKUPS
  learnedRoutes := LearnedRouteTable.empty
  coordCache := []
  clientSequence := 0
  filterSequence := 0
  roles := fun _ => PeerRole.new
  promises := []
  tasks := []
  log := []

def coords (cfg : RoutingConfig) (r : Routing) : List NodeAddr :=
  if cfg.strictClient then [cfg.identity.nodeAddr] else r.treeState.coords

def coordinatesFor (cfg : RoutingConfig) (nodeAddr : NodeAddr) (r : Routing) : Option (List NodeAddr) :=
  if cfg.strictClient then (r.coordCache.get nodeAddr).map (List.take 1) else r.coordCache.get nodeAddr

def modifyRole (p : PeerId) (f : PeerRole → PeerRole) (r : Routing) : Routing :=
  { r with roles := Function.update r.roles p (f (r.roles p)) }

def modifyReverse (rid : ReverseId) (f : LookupReversePath → LookupReversePath) (r : Routing) : Routing :=
  { r with reverses := r.reverses.modify rid f }

/-- The rest of a method is left for later. -/
def later (task : RoutingTask) (r : Routing) : Routing := { r with tasks := r.tasks ++ [task] }

def transmit (env : RoutingEnv) (cause : SendCause) (p : PeerId) (msgType : Nat) (payload : Bytes) (r : Routing) :
    Routing :=
  { r with log := r.log ++ [.send ⟨cause, p, env.peer p, msgType, payload, env.sends p msgType payload⟩] }

/-- `cfg.sendLinkMessage` for the node itself. -/
def sendLinkMessage (env : RoutingEnv) (p : PeerId) (msgType : Nat) (payload : Bytes) (r : Routing) : Routing :=
  transmit env .own p msgType payload r

/-- A method whose caller ignores how it ends. -/
def settled (x : RM Unit) (r : Routing) : Routing := after x r

/-! ### Next hops -/

section
variable (S : Suite) (cfg : RoutingConfig) (env : RoutingEnv)

def pathMtuFor (destination : NodeAddr) (p : PeerId) (t : LearnedRouteTable) : Nat :=
  let verified := if destination = env.peerNodeKey S p then env.frameCapacity p
    else (t.pathMtu destination (env.peerNodeKey S p) env.nowMs).getD FSP_DEFAULT_PATH_MTU
  min (env.frameCapacity p) verified

/-- The carrier of a next hop, if the destination's path MTU through it is large enough. -/
def usablePeer (destNodeHex : NodeAddr) (excludedPeer : Option PeerId) (minMtu : Nat) (t : LearnedRouteTable)
    (nodeHex : NodeAddr) : Option PeerId :=
  (env.selectCarrier S (env.getPeerByNodeAddr nodeHex) excludedPeer minMtu).filter fun p =>
    minMtu ≤ pathMtuFor S env destNodeHex p t

def selectLearned (destNodeHex : NodeAddr) (excludedPeer : Option PeerId) (minMtu : Nat) (t : LearnedRouteTable) :
    Option NodeAddr × LearnedRouteTable :=
  match cfg.routingMode with
  | .replyLearned => t.selectNextHop cfg.pow15 destNodeHex env.nowMs fun nextHop =>
      (usablePeer S env destNodeHex excludedPeer minMtu t nextHop).isSome
  | .tree => (none, t)

def defaultPeer : Option PeerId := cfg.defaultRoute.bind env.getPeerByPubkey

/-- What is tried after the direct and the learned next hops. -/
def treeOrDefault (destNodeHex : NodeAddr) (excludedPeer : Option PeerId) (minMtu : Nat) (r : Routing) : Option PeerId :=
  let usable := usablePeer S env destNodeHex excludedPeer minMtu r.learnedRoutes
  let viaTree := (r.coordCache.get destNodeHex).bind fun destCoords =>
    r.treeState.nextHop destCoords fun nodeHex => (usable nodeHex).isSome
  match viaTree with
  | some nodeHex => usable nodeHex
  | none => (defaultPeer cfg env).bind fun p => usable (env.peerNodeKey S p)

/-- `nextHopFor`; choosing among learned routes turns their round robin. -/
def nextHopFor (destNodeHex : NodeAddr) (excludedPeer : Option PeerId) (minMtu : Nat) (r : Routing) :
    Option PeerId × Routing :=
  match usablePeer S env destNodeHex excludedPeer minMtu r.learnedRoutes destNodeHex with
  | some direct => (some direct, r)
  | none =>
    let selected := selectLearned S cfg env destNodeHex excludedPeer minMtu r.learnedRoutes
    let r := { r with learnedRoutes := selected.2 }
    match selected.1 with
    | some nodeHex => (usablePeer S env destNodeHex excludedPeer minMtu r.learnedRoutes nodeHex, r)
    | none => (treeOrDefault S cfg env destNodeHex excludedPeer minMtu r, r)

/-- `nextHopFor` inside a method. -/
def nextHop (destNodeHex : NodeAddr) (excludedPeer : Option PeerId) (minMtu : Nat) : RM (Option PeerId) := do
  let found := nextHopFor S cfg env destNodeHex excludedPeer minMtu (← get)
  set found.2
  return found.1

def learnReverseRoute (destinationNodeHex : NodeAddr) (nextHop : PeerId) (pathMtu : Option Nat) (r : Routing) : Routing :=
  if cfg.routingMode ≠ .replyLearned ∧ pathMtu = none then r
  else if destinationNodeHex = cfg.identity.nodeAddr then r
  else { r with
    learnedRoutes := r.learnedRoutes.learn destinationNodeHex (env.peerNodeKey S nextHop) env.nowMs
      REPLY_LEARNED_ROUTE_TTL_SECONDS MAX_REPLY_LEARNED_ROUTES_PER_DESTINATION pathMtu }

end

/-! ### Announcements -/

section
variable (S : Suite) (G : Schnorr) (cfg : RoutingConfig) (env : RoutingEnv)

/-- `sendTreeAnnounce`: whether the promise will be fulfilled. -/
def sendTreeAnnounce (p : PeerId) : RM Bool := do
  if !env.established p then return true
  if cfg.strictClient then
    if !((← get).roles p).clientSupported then
      modify (sendLinkMessage env p LinkMessageType.ClientSupport [])
      return env.sends p LinkMessageType.ClientSupport []
    else
      modify fun r => { r with clientSequence := r.clientSequence + 1 }
      let payload := leBytes 8 (← get).clientSequence
      modify (sendLinkMessage env p LinkMessageType.ClientOnly payload)
      return env.sends p LinkMessageType.ClientOnly payload
  else
    let r ← get
    let encoded ← lift (do encodeTreeAnnounce (← r.treeState.announce S G))
    modify (sendLinkMessage env p LinkMessageType.TreeAnnounce encoded.tail)
    return env.sends p LinkMessageType.TreeAnnounce encoded.tail

def sendTreeAnnounceToAll (r : Routing) : Routing :=
  (env.getPeers.filter env.established).foldl (fun r p => settled (discard (sendTreeAnnounce S G cfg env p)) r) r

/-- `outgoingFilterFor`. -/
def outgoingFilterFor (excludedPeer : PeerId) (r : Routing) : Except String BloomFilter :=
  let filter := BloomFilter.empty.insertBytes S cfg.identity.nodeAddr
  if !cfg.forwarding then .ok filter
  else env.getPeers.foldlM (fun filter p =>
    if p ≠ excludedPeer ∧ env.established p ∧ (r.roles p).clientOnly then
      .ok (filter.insertBytes S (env.peerNodeKey S p))
    else if p = excludedPeer ∨ !env.established p ∨ !r.treeState.isTreePeer (env.peerNodeKey S p) then .ok filter
    else
      match (r.roles p).inboundFilter with
      | some inbound => filter.merge inbound
      | none => .ok filter) filter

/-- `BloomRouting.send`: whether the promise will be fulfilled. -/
def sendFilter (p : PeerId) : RM Bool := do
  if cfg.strictClient ∨ !env.established p then return true
  let r ← get
  let filter ← lift (outgoingFilterFor S cfg env p r)
  let previous := (r.roles p).outboundFilter
  if (previous.map Prod.snd) = some filter then return true
  let sequence := r.filterSequence + 1
  set { r.modifyRole p (fun role => { role with outboundFilter := some (sequence, filter) }) with filterSequence := sequence }
  let encoded ← lift (do encodeFilterAnnounce (← buildFilterAnnounce filter sequence))
  modify (sendLinkMessage env p LinkMessageType.FilterAnnounce encoded.tail)
  let ok := env.sends p LinkMessageType.FilterAnnounce encoded.tail
  if !ok then modify (later (.filterFailed p sequence previous))
  return ok

def bloomSendAll (excludedPeer : Option PeerId) (r : Routing) : Routing :=
  if cfg.strictClient then r
  else (env.getPeers.filter fun p => some p ≠ excludedPeer ∧ env.established p).foldl
    (fun r p => settled (discard (sendFilter S cfg env p)) r) r

/-- `scheduleTreeAnnounce`: the two timers. -/
def scheduleTreeAnnounce (p : PeerId) (r : Routing) : Routing :=
  let r := if !cfg.strictClient ∧ !(r.roles p).filterAnnounced then
      later (.filterAnnounce p) (r.modifyRole p fun role => { role with filterAnnounced := true })
    else r
  if (r.roles p).treeAnnounced then r
  else later (.treeAnnounce p) (r.modifyRole p fun role => { role with treeAnnounced := true })

/-- An announcement's timer fires; if it fails, `failed` is what its `catch` does. -/
def announceTimer (send : RM Bool) (failed : RoutingTask) (r : Routing) : Routing :=
  match send.run r with
  | .ok true r => r
  | .ok false r => later failed r
  | .error _ r => later failed r

def refreshClientRole (r : Routing) : Routing :=
  if cfg.strictClient then sendTreeAnnounceToAll S G cfg env r else r

/-- `FipsRouting.removePeer`. -/
def removePeer (peerNodeAddr : NodeAddr) (r : Routing) : Routing :=
  let wasTreePeer := r.treeState.isTreePeer peerNodeAddr
  let removed := r.treeState.removePeer peerNodeAddr env.nowSeconds
  let r := { r with treeState := removed.2 }
  let r := if removed.1 then sendTreeAnnounceToAll S G cfg env r else r
  if removed.1 ∨ wasTreePeer then bloomSendAll S cfg env none r else r

def handleClientSupport (p : PeerId) (payload : Bytes) : RM Unit := do
  if payload.length ≠ 0 ∨ ((← get).roles p).clientSupported then return
  modify (modifyRole p fun role => { role with clientSupported := true })
  if cfg.strictClient then discard (sendTreeAnnounce S G cfg env p)
  else modify (sendLinkMessage env p LinkMessageType.ClientSupport [])

def handleClientOnly (p : PeerId) (payload : Bytes) : RM Unit := do
  if payload.length ≠ 8 then return
  let sequence := leNat payload
  let role := (← get).roles p
  if role.routingRoleSequence.any fun last => sequence < last ∨ (sequence = last ∧ !role.clientOnly) then return
  modify (modifyRole p fun role => { role with routingRoleSequence := some sequence, clientSupported := true })
  if !role.clientOnly then
    modify (modifyRole p fun role => { role with clientOnly := true })
    modify (removePeer S G cfg env (env.peerNodeKey S p))
    modify (bloomSendAll S cfg env none)

def handleTreeAnnounce (p : PeerId) (payload : Bytes) : RM Unit := do
  let role := (← get).roles p
  match ← lift (TreeState.handleTreeAnnounce S G (env.peer p).pubkey payload role.routingRoleSequence) with
  | none => return
  | some (peerNodeAddr, announce) =>
    modify (modifyRole p fun role => { role with routingRoleSequence := some announce.sequence, clientOnly := false })
    let r ← get
    let wasTreePeer := r.treeState.isTreePeer peerNodeAddr
    let updated := r.treeState.updatePeer peerNodeAddr announce env.nowSeconds
    set { r with treeState := updated.2 }
    let changed := updated.1
    if changed then modify (sendTreeAnnounceToAll S G cfg env)
    if changed ∨ role.clientOnly ∨ wasTreePeer ≠ updated.2.isTreePeer peerNodeAddr then
      if changed then modify (later (.bloomSendAll none)) else modify (bloomSendAll S cfg env none)

/-- `BloomRouting.handle`. -/
def handleFilterAnnounce (p : PeerId) (payload : Bytes) : RM Unit := do
  let announce ← lift (decodeFilterAnnounce (UInt8.ofNat LinkMessageType.FilterAnnounce :: payload))
  if announce.sequence ≤ (((← get).roles p).inboundFilterSequence).getD 0 then return
  if announce.filter.fillRatio ^ announce.filter.hashCount > MAX_INBOUND_FILTER_FPR then return
  modify (modifyRole p fun role =>
    { role with inboundFilter := some announce.filter, inboundFilterSequence := some announce.sequence })
  if (← get).treeState.isTreePeer (env.peerNodeKey S p) then modify (bloomSendAll S cfg env (some p))

end

end Routing

end Fips
