import Fips.Node.Routing

/-!
# `node/FipsRouting.ts`: lookups, datagrams and the events of the routing layer

A request that is passed on leaves a reverse path, on which its response goes back. The request kept there, not
the one received, is what is sent. A datagram without a next hop waits for a resolution or for a lookup of its
own.
-/

namespace Fips
open Exec LittleEndian

namespace Routing

/-! ### Coordinates -/

def cacheCoordinates (nodeAddr : NodeAddr) (coords : List NodeAddr) (r : Routing) : Routing :=
  if coords.head? = some nodeAddr then { r with coordCache := r.coordCache.set nodeAddr coords } else r

/-- Both end points of a session frame. -/
def cacheEnds (datagram : SessionDatagram) (srcCoords destCoords : List NodeAddr) (r : Routing) : Routing :=
  cacheCoordinates datagram.destAddr destCoords (cacheCoordinates datagram.srcAddr srcCoords r)

def cacheSessionCoordinates (datagram : SessionDatagram) (r : Routing) : Routing :=
  let phase := (datagram.payload.headD 0).toNat % 16
  if phase = 1 then
    match decodeSessionSetup datagram.payload with
    | .ok setup => cacheEnds datagram setup.srcCoords setup.destCoords r
    | .error _ => r
  else if phase = 2 then
    match decodeSessionAck datagram.payload with
    | .ok ack => cacheEnds datagram ack.srcCoords ack.destCoords r
    | .error _ => r
  else if phase = 0 ∧ hasFlag (datagram.payload.getD 1 0).toNat FSP_FLAG_CP then
    match decodeFspEstablished datagram.payload with
    | .ok established => cacheEnds datagram (established.srcCoords.getD []) (established.destCoords.getD []) r
    | .error _ => r
  else r

/-! ### Reverse paths -/

/-- The reverse path stored under a key, with its handle. -/
def reverseAt (key : ReverseKey) (r : Routing) : Option (ReverseId × LookupReversePath) := do
  let rid ← r.lookupReversePaths.get key
  let reverse ← r.reverses[rid]?
  return (rid, reverse)

def pruneLookupReversePaths (nowMs : ℚ) (r : Routing) : Routing :=
  { r with lookupReversePaths := r.lookupReversePaths.filter fun e =>
      (r.reverses[e.2]?).any fun reverse => nowMs < reverse.expiresAtMs }

def deleteReverse (key : ReverseKey) (r : Routing) : Routing :=
  { r with lookupReversePaths := r.lookupReversePaths.delete key }

def reserveLookupReversePath (r : Routing) : Routing :=
  if r.lookupReversePaths.length < MAX_LOOKUP_REVERSE_PATHS then r
  else
    match r.lookupReversePaths with
    | [] => r
    | oldest :: _ => deleteReverse oldest.1 r

/-- A new reverse path in the table. -/
def addReverse (key : ReverseKey) (reverse : LookupReversePath) (r : Routing) : Routing :=
  let r := reserveLookupReversePath r
  { r with
    lookupReversePaths := r.lookupReversePaths.set key r.reverses.length
    reverses := r.reverses ++ [reverse] }

def addForwarded (rid : ReverseId) (nextHops : Finset NodeAddr) (r : Routing) : Routing :=
  r.modifyReverse rid fun reverse => { reverse with forwardedNextHops := reverse.forwardedNextHops ∪ nextHops }

def dropForwarded (rid : ReverseId) (nextHop : NodeAddr) (r : Routing) : Routing :=
  r.modifyReverse rid fun reverse => { reverse with forwardedNextHops := reverse.forwardedNextHops.erase nextHop }

/-- One message to each of several peers. -/
def transmitAll (env : RoutingEnv) (cause : SendCause) (peers : List PeerId) (msgType : Nat) (payload : Bytes)
    (r : Routing) : Routing :=
  peers.foldl (fun r p => transmit env cause p msgType payload r) r

/-! ### Transport resolution -/

/-- `resolveRoute` up to its await: the promise, and whether this call has put it into the table. -/
def resolveRoute (destNodeAddr : NodeAddr) : RM (Nat × Bool) := do
  let r ← get
  match r.pendingRouteResolutions.get destNodeAddr with
  | some promise => return (promise, false)
  | none =>
    if r.pendingRouteResolutions.length ≥ MAX_PENDING_ROUTE_RESOLUTIONS then
      throw s!"route resolution capacity exceeded for {toHex destNodeAddr}"
    set { r with
      promises := r.promises ++ [PromiseState.pending]
      pendingRouteResolutions := r.pendingRouteResolutions.set destNodeAddr r.promises.length
      log := r.log ++ [RoutingEffect.resolveAndConnect destNodeAddr r.promises.length] }
    return (r.promises.length, true)

/-- The `finally` of `resolveRoute`. -/
def finishResolution (destNodeAddr : NodeAddr) (promise : Nat) (owner : Bool) (r : Routing) : Routing :=
  if owner ∧ r.pendingRouteResolutions.get destNodeAddr = some promise then
    { r with pendingRouteResolutions := r.pendingRouteResolutions.delete destNodeAddr }
  else r

/-! ### Lookup requests -/

section
variable (S : Suite) (G : Schnorr) (cfg : RoutingConfig) (env : RoutingEnv)

/-- The target answers. -/
def answerLookup (sourcePeer : PeerId) (request : LookupRequest) : RM Unit := do
  let targetCoords := (← get).coords cfg
  let proofBytes ← lift (lookupResponseProofBytes request.requestId request.target targetCoords)
  let proof := signSchnorr G cfg.identity (S.sha256 proofBytes)
  let payload ← lift (encodeLookupResponsePayload
    ⟨request.requestId, request.target, env.frameCapacity sourcePeer, targetCoords, proof⟩)
  modify (sendLinkMessage env sourcePeer LinkMessageType.LookupResponse payload)

def fallbackPeers (sourcePeer : PeerId) (request : LookupRequest) (r : Routing) : List PeerId :=
  (env.getPeers.filter fun p =>
    p ≠ sourcePeer ∧ env.established p ∧
      (r.treeState.isTreePeer (env.peerNodeKey S p) ∨ cfg.routingMode = .replyLearned) ∧
      env.peerNodeKey S p ≠ request.origin ∧ request.minMtu ≤ env.frameCapacity p).take MAX_REPLY_LEARNED_LOOKUP_PEERS

/-- `resolveAndForwardLookup` up to its await; a resolution that cannot start is given up. -/
def resolveAndForwardLookup (key : ReverseKey) (rid : ReverseId) (sourcePeer : PeerId) (target : NodeAddr) (r : Routing) :
    Routing :=
  match (resolveRoute target).run r with
  | .ok (promise, owner) r => later (.resolveLookup key rid sourcePeer promise owner) r
  | .error _ r => r

/-- The request kept on a reverse path goes to `nextHops`. -/
def forwardTo (key : ReverseKey) (rid : ReverseId) (request : LookupRequest) (nextHops : List PeerId) : RM Unit := do
  if nextHops = [] then return
  modify (addForwarded rid (nextHops.map (env.peerNodeKey S)).toFinset)
  let encoded ← lift (encodeLookupRequestPayload request)
  modify (transmitAll env (.reverse rid) nextHops LinkMessageType.LookupRequest encoded)
  modify (later (.forwarded key rid
    (nextHops.map fun p => (env.peerNodeKey S p, env.sends p LinkMessageType.LookupRequest encoded))))

/-- A transport resolution is started, or the request is sent. -/
def pursue (sourcePeer : PeerId) (key : ReverseKey) (rid : ReverseId) (request : LookupRequest) (resolving : Bool)
    (nextHops : List PeerId) : RM Unit := do
  if resolving then modify (resolveAndForwardLookup key rid sourcePeer key.2)
  forwardTo S env key rid request nextHops

/-- A request for another node, with the reverse path it already has. -/
def passOn (sourcePeer : PeerId) (request : LookupRequest) (key : ReverseKey)
    (existing : Option (ReverseId × LookupReversePath)) : RM Unit := do
  let directOrLearned ← nextHop S cfg env request.target (some sourcePeer) request.minMtu
  let r ← get
  let fallback := if directOrLearned.isNone then fallbackPeers S cfg env sourcePeer request r else []
  let nextHops := (directOrLearned.elim fallback fun p => [p]).filter fun p =>
    !existing.any fun e => env.peerNodeKey S p ∈ e.2.forwardedNextHops
  let canResolveDirectly := directOrLearned.isNone && fallback.isEmpty && cfg.canResolve
  if nextHops = [] ∧ !canResolveDirectly then return
  match existing with
  | some (rid, reverse) => pursue S env sourcePeer key rid reverse.request canResolveDirectly nextHops
  | none =>
    let stored := { request with ttl := request.ttl - 1 }
    modify (addReverse key ⟨sourcePeer, env.nowMs + LOOKUP_REVERSE_PATH_TTL_MS, ∅, stored⟩)
    pursue S env sourcePeer key r.reverses.length stored canResolveDirectly nextHops

def handleLookupRequest (sourcePeer : PeerId) (request : LookupRequest) : RM Unit := do
  if env.frameCapacity sourcePeer < request.minMtu then return
  if request.target = cfg.identity.nodeAddr then answerLookup S G cfg env sourcePeer request
  else if cfg.forwarding = false ∨ request.ttl = 0 then return
  else
    let key := lookupReverseKey request.requestId request.target
    modify (pruneLookupReversePaths env.nowMs)
    match (← get).reverseAt key with
    | none => passOn S cfg env sourcePeer request key none
    | some (rid, reverse) =>
      if env.peerNodeKey S reverse.peer ≠ env.peerNodeKey S sourcePeer then return
      modify (modifyReverse rid fun reverse => { reverse with peer := sourcePeer })
      passOn S cfg env sourcePeer request key (some (rid, reverse))

/-- The results of forwarding: a next hop that was not reached is forgotten. -/
def finishForward (key : ReverseKey) (rid : ReverseId) (results : List (NodeAddr × Bool)) (r : Routing) : Routing :=
  let r := (results.filter fun e => !e.2).foldl (fun r e => dropForwarded rid e.1 r) r
  if results.all (fun e => !e.2) ∧ (r.reverses[rid]?).any fun reverse => reverse.forwardedNextHops = ∅ then
    deleteReverse key r
  else r

/-- The request kept on a reverse path goes to one more next hop. -/
def forwardOne (rid : ReverseId) (request : LookupRequest) (p : PeerId) : RM Unit := do
  modify (addForwarded rid {env.peerNodeKey S p})
  -- `request` was decoded from a frame, its TTL and MTU only lowered, so this does not throw into the `catch`
  let encoded ← lift (encodeLookupRequestPayload request)
  modify (transmit env (.reverse rid) p LinkMessageType.LookupRequest encoded)
  modify (later (.sent rid (env.peerNodeKey S p) (env.sends p LinkMessageType.LookupRequest encoded)))

/-- `resolveAndForwardLookup` behind a resolution that has succeeded. -/
def forwardResolved (key : ReverseKey) (rid : ReverseId) (sourcePeer : PeerId) : RM Unit := do
  match (← get).reverseAt key with
  | none => return
  | some (current, reverse) =>
    if current ≠ rid then return
    match ← nextHop S cfg env reverse.request.target (some sourcePeer) reverse.request.minMtu with
    | none => return
    | some p =>
      if env.peerNodeKey S p ∈ reverse.forwardedNextHops then return
      forwardOne S env rid reverse.request p

/-- The reverse paths that wait for a target which has now been reached. -/
def pendingLookupsFor (p : PeerId) (r : Routing) : List (ReverseId × LookupRequest) :=
  r.lookupReversePaths.filterMap fun e => do
    let reverse ← r.reverses[e.2]?
    if reverse.request.target = env.peerNodeKey S p ∧ env.peerNodeKey S reverse.peer ≠ env.peerNodeKey S p ∧
        env.peerNodeKey S p ∉ reverse.forwardedNextHops ∧ reverse.request.minMtu ≤ env.frameCapacity p then
      return (e.2, reverse.request)
    else none

def replayPendingLookupsFor (p : PeerId) (r : Routing) : Routing :=
  if !env.established p then r
  else if env.getPeerByNodeAddr (env.peerNodeKey S p) ≠ some p then r
  else
    let r := pruneLookupReversePaths env.nowMs r
    (pendingLookupsFor S env p r).foldl (fun r e => settled (forwardOne S env e.1 e.2 p) r) r

/-! ### Lookup responses -/

def forwardLookupResponse (sourcePeer : PeerId) (payload : Bytes) : RM Unit := do
  let response ← lift (decodeLookupResponse payload)
  let key := lookupReverseKey response.requestId response.target
  modify (pruneLookupReversePaths env.nowMs)
  match (← get).reverseAt key with
  | none => return
  | some (rid, reverse) =>
    if reverse.peer = sourcePeer then return
    let received := min response.pathMtu (env.frameCapacity sourcePeer)
    let pathMtu := min received (env.frameCapacity reverse.peer)
    if pathMtu < reverse.request.minMtu then return
    modify (cacheCoordinates response.target response.targetCoords)
    modify (learnReverseRoute S cfg env response.target sourcePeer (some received))
    modify (deleteReverse key)
    let encoded ← lift (encodeLookupResponsePayload { response with pathMtu })
    modify (transmit env (.reverse rid) reverse.peer LinkMessageType.LookupResponse encoded)

/-- The proof of a response to a lookup that knows the key of its target. -/
def proofValid (response : LookupResponse) (targetPubkey : Bytes) : Except String Bool := do
  let proofBytes ← lookupResponseProofBytes response.requestId response.target response.targetCoords
  return verifySchnorr G response.proof (S.sha256 proofBytes) targetPubkey.tail

/-- Whether the response was to a lookup of this node. -/
def handleOriginLookupResponse (sourcePeer : PeerId) (payload : Bytes) : RM Bool := do
  let response ← lift (decodeLookupResponse payload)
  let r ← get
  match r.originLookups.findRequest response.requestId with
  | none => return false
  | some lid =>
    match r.originLookups.objs[lid]? with
    | none => return false
    | some pending =>
      let received := min response.pathMtu (env.frameCapacity sourcePeer)
      if response.target ≠ pending.targetHex then return true
      if received < pending.minMtu then return true
      let valid ← lift (pending.targetPubkey.elim (.ok true) (proofValid S G response))
      if !valid then return true
      if response.targetCoords.head? ≠ some response.target then return true
      modify (cacheCoordinates response.target response.targetCoords)
      modify (learnReverseRoute S cfg env pending.targetHex sourcePeer (some received))
      modify fun r => { r with originLookups := r.originLookups.complete lid (some (env.peerNodeKey S sourcePeer)) }
      return true

/-! ### Lookups of this node -/

def originLookupPeers (excludedPeer : Option PeerId) (minMtu : Nat) (r : Routing) : List PeerId :=
  (env.getPeers.filter fun p =>
    some p ≠ excludedPeer ∧ env.established p ∧ minMtu ≤ env.frameCapacity p ∧
      (cfg.routingMode = .replyLearned ∨ some p = defaultPeer cfg env ∨
        r.treeState.isTreePeer (env.peerNodeKey S p))).take MAX_REPLY_LEARNED_LOOKUP_PEERS

/-- The request of a lookup, under its current id. -/
def sendLookup (lid : LookupId) (request : LookupRequest) (excludedPeer : Option PeerId) : RM Unit := do
  let r ← get
  match r.originLookups.objs[lid]? with
  | none => return
  | some pending =>
    let encoded ← lift (encodeLookupRequestPayload { request with requestId := pending.requestId })
    let peers := originLookupPeers S cfg env excludedPeer pending.minMtu r
    modify (transmitAll env .own peers LinkMessageType.LookupRequest encoded)

/-- What is tried in a round of `OriginLookupRegistry.retry`; every round but the first takes a new id. -/
def tryRound (lid : LookupId) (request : LookupRequest) (excludedPeer : Option PeerId) (first : Bool) : RM Unit := do
  if !first then
    let g ← lift ((← get).originLookups.renew lid env.random)
    modify fun r => { r with originLookups := g }
  sendLookup S cfg env lid request excludedPeer

/-- One round of `OriginLookupRegistry.retry`. -/
def retryRound (lid : LookupId) (request : LookupRequest) (excludedPeer : Option PeerId) (first : Bool) (r : Routing) :
    Routing :=
  if r.originLookups.isPending lid then
    match (tryRound S cfg env lid request excludedPeer first).run r with
    | .ok _ r => later (.retry lid request excludedPeer) r
    | .error e r => { r with originLookups := r.originLookups.fail lid e }
  else r

/-- A lookup and its first round. -/
def startLookup (target : NodeAddr) (targetPubkey : Option Bytes) (minMtu : Nat) (excludedPeer : Option PeerId) :
    RM LookupId := do
  let (lid, g) ← lift ((← get).originLookups.create target targetPubkey minMtu env.random)
  modify fun r => { r with originLookups := g }
  let request : LookupRequest := ⟨0, target, cfg.identity.nodeAddr, LOOKUP_ORIGIN_TTL, minMtu, (← get).coords cfg⟩
  modify (retryRound S cfg env lid request excludedPeer true)
  return lid

/-- `ensureFirstContactRoute`; what follows its await is the caller's. -/
def ensureFirstContactRoute (target : NodeAddr) (targetPubkey : Bytes) : RM Unit := do
  if ((← get).originLookups.get target).isNone then
    discard (startLookup S cfg env target (some targetPubkey) 0 none)

/-! ### Datagrams -/

/-- `sendSessionDatagramVia` on the way of a datagram: the next frame is left for later. -/
def sendFrame (d : OutboundSessionDatagram) (hop : PeerId) (payload : Bytes) (rest : List Bytes) : RM Unit := do
  let encoded ← lift (encodeSessionDatagram (d.withPayload payload))
  modify (transmit env d.cause hop LinkMessageType.SessionDatagram encoded.tail)
  if env.sends hop LinkMessageType.SessionDatagram encoded.tail then modify (later (.datagramSending d hop rest))

/-- `refreshTransitRoute` up to its await. -/
def refreshTransitRoute (d : OutboundSessionDatagram) (minMtu : Nat) (frames : Option (Bytes × List Bytes)) :
    RM Unit := do
  let r ← get
  match r.originLookups.get d.destAddr with
  | some lid => modify (later (.datagramRefreshing d lid false minMtu frames))
  | none =>
    if originLookupPeers S cfg env d.previousHop minMtu r = [] then throw s!"no route to {toHex d.destAddr}"
    let lid ← startLookup S cfg env d.destAddr none minMtu d.previousHop
    modify (later (.datagramRefreshing d lid true minMtu frames))

/-- One turn of the loop over the frames. -/
def sendFrames (d : OutboundSessionDatagram) (hop : PeerId) : List Bytes → RM Unit
  | [] => return
  | payload :: rest => do
    let minMtu := payload.length + ROUTED_FRAME_OVERHEAD
    if pathMtuFor S env d.destAddr hop (← get).learnedRoutes < minMtu then
      match ← nextHop S cfg env d.destAddr d.previousHop minMtu with
      | some hop => sendFrame env d hop payload rest
      | none => refreshTransitRoute S cfg env d minMtu (some (payload, rest))
    else sendFrame env d hop payload rest

/-- The first next hop of a datagram is known, or there is none. -/
def dispatch (d : OutboundSessionDatagram) : Option PeerId → RM Unit
  | none => throw s!"no route to {toHex d.destAddr}"
  | some hop => sendFrames S cfg env d hop (d.frames env hop)

def sendSessionDatagram (d : OutboundSessionDatagram) : RM Unit := do
  match ← nextHop S cfg env d.destAddr d.previousHop 0 with
  | some hop => dispatch S cfg env d (some hop)
  | none =>
    if d.previousHop.isNone then
      let (promise, owner) ← resolveRoute d.destAddr
      modify (later (.datagramResolving d promise owner))
    else refreshTransitRoute S cfg env d 0 none

/-- A refresh has ended. -/
def refreshed (d : OutboundSessionDatagram) (lid : LookupId) (own : Bool) (minMtu : Nat)
    (frames : Option (Bytes × List Bytes)) : RM Unit := do
  match (← get).originLookups.objs[lid]? with
  | none => return
  | some pending =>
    if pending.promise ≠ .resolved then throw s!"no route to {toHex d.destAddr}"
    else if own ∨ minMtu ≤ pending.minMtu then
      match frames with
      | none => dispatch S cfg env d (← nextHop S cfg env d.destAddr d.previousHop 0)
      | some (payload, rest) =>
        match env.selectCarrier S (pending.nextHop.bind env.getPeerByNodeAddr) d.previousHop minMtu with
        | none => throw s!"no route to {toHex d.destAddr} with MTU {minMtu}"
        | some hop => sendFrame env d hop payload rest
    else refreshTransitRoute S cfg env d minMtu frames

def sendFspToward (remoteNodeAddr : NodeAddr) (fspFrame : Option Bytes) : RM Unit :=
  sendSessionDatagram S cfg env ⟨64, FSP_DEFAULT_PATH_MTU, cfg.identity.nodeAddr, remoteNodeAddr, .own fspFrame⟩

def sendFspReplyToward (remoteNodeAddr : NodeAddr) (fspFrame : Bytes) (previousHop : PeerId) : RM Unit := do
  let encoded ← lift (encodeSessionDatagram ⟨64, FSP_DEFAULT_PATH_MTU, cfg.identity.nodeAddr, remoteNodeAddr, fspFrame⟩)
  modify (sendLinkMessage env previousHop LinkMessageType.SessionDatagram encoded.tail)

def assertNodeAllowed (nodeAddr : NodeAddr) : RM Unit := do
  if !env.nodeAllowed nodeAddr then throw s!"peer is blocked: {toHex nodeAddr}"

def handleSessionDatagram (p : PeerId) (payload : Bytes) : RM Unit := do
  let datagram ← lift (decodeSessionDatagramPayload payload)
  assertNodeAllowed env datagram.srcAddr
  assertNodeAllowed env datagram.destAddr
  modify (cacheSessionCoordinates datagram)
  if datagram.destAddr = cfg.identity.nodeAddr then
    modify fun r => { r with log := r.log ++ [.handleLocalSession p datagram.srcAddr datagram.payload] }
  else if cfg.forwarding = false ∨ datagram.ttl ≤ 1 then return
  else
    sendSessionDatagram S cfg env
      ⟨datagram.ttl - 1, datagram.pathMtu, datagram.srcAddr, datagram.destAddr, .transit p datagram.payload⟩

/-! ### Messages, tasks and events -/

def handleLookupRequestMessage (p : PeerId) (payload : Bytes) : RM Unit := do
  let request ← lift (decodeLookupRequest payload)
  assertNodeAllowed env request.origin
  assertNodeAllowed env request.target
  let r ← get
  -- a request of this node that has come back
  let looped := (r.originLookups.findRequest request.requestId).bind fun lid => r.originLookups.objs[lid]?
  if looped.any fun pending => pending.targetHex = request.target then return
  handleLookupRequest S G cfg env p request

def handleLookupResponseMessage (p : PeerId) (payload : Bytes) : RM Unit := do
  if !(← handleOriginLookupResponse S G cfg env p payload) ∧ cfg.forwarding then
    modify (later (.forwardLookupResponse p payload))

def handleLinkMessage (p : PeerId) (msgType : Nat) (payload : Bytes) : RM Unit :=
  if msgType = LinkMessageType.ClientSupport then handleClientSupport S G cfg env p payload
  else if msgType = LinkMessageType.ClientOnly then handleClientOnly S G cfg env p payload
  else if msgType = LinkMessageType.TreeAnnounce then handleTreeAnnounce S G cfg env p payload
  else if msgType = LinkMessageType.FilterAnnounce then handleFilterAnnounce S cfg env p payload
  else if msgType = LinkMessageType.LookupRequest then handleLookupRequestMessage S G cfg env p payload
  else if msgType = LinkMessageType.LookupResponse then handleLookupResponseMessage S G cfg env p payload
  else if msgType = LinkMessageType.SessionDatagram then handleSessionDatagram S cfg env p payload
  else pure ()

/-- The awaited promise is still pending. -/
def waits (r : Routing) : RoutingTask → Bool
  | .resolveLookup _ _ _ promise _ => r.promises[promise]? = some .pending
  | .datagramResolving _ promise _ => r.promises[promise]? = some .pending
  | .datagramRefreshing _ lid _ _ _ => (r.originLookups.objs[lid]?).any fun pending => pending.promise = .pending
  | _ => false

def runTask : RoutingTask → RM Unit
  | .treeAnnounce p => modify (announceTimer (sendTreeAnnounce S G cfg env p) (.treeAnnounceFailed p))
  | .treeAnnounceFailed p => modify (modifyRole p fun role => { role with treeAnnounced := false })
  | .filterAnnounce p => modify (announceTimer (sendFilter S cfg env p) (.filterAnnounceFailed p))
  | .filterAnnounceFailed p => modify (modifyRole p fun role => { role with filterAnnounced := false })
  | .filterFailed p sequence previous => modify (modifyRole p fun role =>
      if (role.outboundFilter.map Prod.fst) = some sequence then { role with outboundFilter := previous } else role)
  | .bloomSendAll excludedPeer => modify (bloomSendAll S cfg env excludedPeer)
  | .forwarded key rid results => modify (finishForward key rid results)
  | .sent rid nextHop ok => if ok then pure () else modify (dropForwarded rid nextHop)
  | .resolveLookup key rid source promise owner => do
    modify (finishResolution key.2 promise owner)
    if (← get).promises[promise]? = some .resolved then forwardResolved S cfg env key rid source
  | .forwardLookupResponse p payload => forwardLookupResponse S cfg env p payload
  | .retry lid request excludedPeer => modify (retryRound S cfg env lid request excludedPeer false)
  | .datagramResolving d promise owner => do
    modify (finishResolution d.destAddr promise owner)
    if (← get).promises[promise]? ≠ some .resolved then throw s!"no route to {toHex d.destAddr}"
    dispatch S cfg env d (← nextHop S cfg env d.destAddr d.previousHop 0)
  | .datagramRefreshing d lid own minMtu frames => refreshed S cfg env d lid own minMtu frames
  | .datagramSending d hop frames => sendFrames S cfg env d hop frames

/-- The entries of the routing layer, and the continuation of a task. -/
inductive Event
  | handleLinkMessage (env : RoutingEnv) (peer : PeerId) (msgType : Nat) (payload : Bytes)
  | task (env : RoutingEnv) (index : Nat)
  /-- A transport resolution and the `connectKnownPeer` behind it have ended. -/
  | resolution (promise : Nat) (outcome : PromiseState)
  | lookupTimeout (lookup : LookupId)
  | removePeer (env : RoutingEnv) (peerNodeAddr : NodeAddr)
  | scheduleTreeAnnounce (peer : PeerId)
  | refreshClientRole (env : RoutingEnv)
  | replayPendingLookupsFor (env : RoutingEnv) (peer : PeerId)
  | ensureFirstContactRoute (env : RoutingEnv) (target : NodeAddr) (targetPubkey : Bytes)
  | sendFspToward (env : RoutingEnv) (remoteNodeAddr : NodeAddr) (fspFrame : Option Bytes)
  | sendFspReplyToward (env : RoutingEnv) (remoteNodeAddr : NodeAddr) (fspFrame : Bytes) (previousHop : PeerId)
  | learnReverseRoute (env : RoutingEnv) (destination : NodeAddr) (nextHop : PeerId) (pathMtu : Option Nat)
  | hasUsableRoute (env : RoutingEnv) (nodeAddr : NodeAddr)
  | stop (env : RoutingEnv)

/-- `FipsRouting.stop`. -/
def stop (r : Routing) : Routing :=
  { r with
    originLookups := r.originLookups.stop
    pendingRouteResolutions := []
    lookupReversePaths := []
    learnedRoutes := LearnedRouteTable.empty
    coordCache := []
    treeState := r.treeState.reset env.nowSeconds
    roles := fun p => if p ∈ env.getPeers then
        { r.roles p with clientSupported := false, clientOnly := false, routingRoleSequence := none }
      else r.roles p }

def continueTask (index : Nat) (r : Routing) : Routing :=
  match r.tasks[index]? with
  | none => r
  | some task =>
    if waits r task then r else settled (runTask S G cfg env task) { r with tasks := r.tasks.eraseIdx index }

end

def settleResolution (promise : Nat) (outcome : PromiseState) (r : Routing) : Routing :=
  if r.promises[promise]? = some .pending then { r with promises := r.promises.set promise outcome } else r

def step (S : Suite) (G : Schnorr) (cfg : RoutingConfig) (r : Routing) : Event → Routing
  | .handleLinkMessage env p msgType payload => settled (handleLinkMessage S G cfg env p msgType payload) r
  | .task env index => continueTask S G cfg env index r
  | .resolution promise outcome => settleResolution promise outcome r
  | .lookupTimeout lid => { r with originLookups := r.originLookups.fail lid "no route" }
  | .removePeer env peerNodeAddr => removePeer S G cfg env peerNodeAddr r
  | .scheduleTreeAnnounce p => scheduleTreeAnnounce cfg p r
  | .refreshClientRole env => refreshClientRole S G cfg env r
  | .replayPendingLookupsFor env p => replayPendingLookupsFor S env p r
  | .ensureFirstContactRoute env target targetPubkey =>
    settled (ensureFirstContactRoute S cfg env target targetPubkey) r
  | .sendFspToward env remoteNodeAddr fspFrame => settled (sendFspToward S cfg env remoteNodeAddr fspFrame) r
  | .sendFspReplyToward env remoteNodeAddr fspFrame previousHop =>
    settled (sendFspReplyToward cfg env remoteNodeAddr fspFrame previousHop) r
  | .learnReverseRoute env destination nextHop pathMtu => learnReverseRoute S cfg env destination nextHop pathMtu r
  | .hasUsableRoute env nodeAddr => (nextHopFor S cfg env nodeAddr none 0 r).2
  | .stop env => stop env r

/-! ### A toy node -/

/-- A node that can resolve nothing. -/
def toyRouting (routingMode : RoutingMode) (forwarding : Bool) : RoutingConfig where
  identity := toyIdentity 1
  forwarding := forwarding
  strictClient := false
  routingMode := routingMode
  defaultRoute := none
  canResolve := false
  pow15 := id
  no_transit := nofun

/-- A node that passes on what comes, and learns its routes from replies. -/
def toyRelay : RoutingConfig := toyRouting .replyLearned true

/-- Its neighbours, and whether messages to them arrive. -/
def toyNeighbours (peers : List PeerId) (arrives : Bool) : RoutingEnv where
  nowMs := 0
  peer p := ⟨(toyIdentity (UInt8.ofNat (p + 2))).publicKey, true, 1280, none⟩
  getPeers := peers
  getPeerByPubkey _ := none
  getPeerByNodeAddr _ := none
  nodeAllowed _ := true
  random := []
  sends _ _ _ := arrives
  frames _ := []

/-- A request for a node that is not known. -/
def toyRequest (ttl : UInt8) : Bytes :=
  leBytes 8 5 ++ List.replicate 16 9 ++ List.replicate 16 8 ++ [ttl] ++ leBytes 2 0 ++ leBytes 2 1 ++ List.replicate 16 8

end Routing

end Fips
